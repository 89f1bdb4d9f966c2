import TruthTree.Proofs.Run
import TruthTree.Proofs.SessionStep

/-! Sessions follow their scripts. A script reads the answers on two levels: command lines, and below
them the numbers that a command needs, which come from its line or from the answers after it. A session
makes the calls of its script and no others, and tells of those that are refused. -/
namespace TruthTree

theorem Command.ofWord?_eq_some_iff {lowered : Text} {command : Command} :
    ofWord? lowered = some command ↔ lowered = command.word.toList := by
  constructor
  · intro found
    have word := List.find?_some found
    simpa using (of_decide_eq_true word).symm
  · rintro rfl
    cases command <;> decide

/-- A number that a command needs, with the answers that it takes; none if the input ends before it. -/
structure Asked where
  replies : List Text
  number : Option Int
  deriving DecidableEq

namespace Asked

/-- A question is put again until the answer is a number. -/
def ofAnswers : List Text → Asked
  | [] => ⟨[], none⟩
  | answer :: rest =>
    match Text.integer? answer with
    | some n => ⟨[answer], some n⟩
    | none => ⟨answer :: (ofAnswers rest).replies, (ofAnswers rest).number⟩

theorem ofAnswers_of_number {answer : Text} {n : Int} (h : Text.integer? answer = some n)
    (answers : List Text) : ofAnswers (answer :: answers) = ⟨[answer], some n⟩ := by
  rw [ofAnswers, h]

theorem ofAnswers_of_none {answer : Text} (h : Text.integer? answer = none) (answers : List Text) :
    ofAnswers (answer :: answers) =
      ⟨answer :: (ofAnswers answers).replies, (ofAnswers answers).number⟩ := by
  rw [ofAnswers, h]

def ofWord (word : Option Text) (answers : List Text) : Asked :=
  match word.bind Text.integer? with
  | some n => ⟨[], some n⟩
  | none => ofAnswers answers

theorem replies_of_none {word : Option Text} {answers : List Text}
    (h : (ofWord word answers).number = none) : (ofWord word answers).replies = answers := by
  rw [ofWord] at h ⊢
  cases read : word.bind Text.integer? with
  | some n => simp [read] at h
  | none =>
      simp only [read] at h ⊢
      induction answers with
      | nil => rfl
      | cons answer answers ih =>
          cases number : Text.integer? answer with
          | some n => simp [ofAnswers_of_number number] at h
          | none =>
              rw [ofAnswers_of_none number] at h ⊢
              rw [ih h]

theorem replies_ofAnswers (answers : List Text) : (ofAnswers answers).replies <+: answers := by
  induction answers with
  | nil => exact List.prefix_refl []
  | cons answer answers ih =>
      cases number : Text.integer? answer with
      | some n =>
          rw [ofAnswers_of_number number]
          exact ⟨answers, rfl⟩
      | none =>
          rw [ofAnswers_of_none number]
          exact List.cons_prefix_cons.mpr ⟨rfl, ih⟩

theorem replies_ofWord (word : Option Text) (answers : List Text) :
    (ofWord word answers).replies <+: answers := by
  rw [ofWord]
  split
  · exact List.nil_prefix
  · exact replies_ofAnswers answers

def chosen (a : Asked) : Option Int := a.number.filter (· ≠ Session.cancel)

theorem chosen_of_cancel {a : Asked} (h : a.number = some Session.cancel) : a.chosen = none := by
  rw [chosen, h]
  rfl

theorem chosen_of_number {a : Asked} {n : Int} (h : a.number = some n) (on : n ≠ Session.cancel) :
    a.chosen = some n := by
  simp [chosen, h, on]

theorem chosen_of_none {a : Asked} (h : a.number = none) : a.chosen = none := by
  rw [chosen, h]
  rfl

end Asked

/-- A command line with the answers to its questions, and the operation that it asks for. -/
structure Order where
  line : Text
  replies : List Text
  operation : Option Operation
  deriving DecidableEq

namespace Order

def answers (o : Order) : List Text := o.line :: o.replies

def calls (o : Order) : List Call := o.operation.toList.map .perform

def quits (o : Order) : Bool :=
  (CommandLine.ofText? o.line).any fun commandLine => commandLine.word = "quit".toList

def expansion (line : Text) (arguments answers : List Text) : Order :=
  let target := Asked.ofWord arguments.head? answers
  ⟨line, target.replies, target.chosen.map .expand⟩

def closure (line : Text) (arguments answers : List Text) : Order :=
  let first := Asked.ofWord arguments.head? answers
  match first.chosen with
  | none => ⟨line, first.replies, none⟩
  | some n =>
    let second := Asked.ofWord arguments[1]? (answers.drop first.replies.length)
    ⟨line, first.replies ++ second.replies, second.chosen.map (.close n)⟩

theorem replies_closure (line : Text) (arguments answers : List Text) :
    (closure line arguments answers).replies <+: answers := by
  have first := Asked.replies_ofWord arguments.head? answers
  rw [closure]
  split
  · exact first
  · have second := Asked.replies_ofWord arguments[1]?
      (answers.drop (Asked.ofWord arguments.head? answers).replies.length)
    have both := (List.prefix_append_right_inj (Asked.ofWord arguments.head? answers).replies).mpr second
    rwa [List.prefix_iff_eq_append.mp first] at both

def read (line : Text) (answers : List Text) : Order :=
  match CommandLine.ofText? line with
  | none => ⟨line, [], none⟩
  | some commandLine =>
    if commandLine.word = "expand".toList then expansion line commandLine.arguments answers
    else if commandLine.word = "close".toList then closure line commandLine.arguments answers
    else ⟨line, [], none⟩

theorem read_expand {line : Text} {commandLine : CommandLine}
    (h : CommandLine.ofText? line = some commandLine) (command : commandLine.word = "expand".toList)
    (answers : List Text) : read line answers = expansion line commandLine.arguments answers := by
  simp [read, h, command]

theorem read_close {line : Text} {commandLine : CommandLine}
    (h : CommandLine.ofText? line = some commandLine) (command : commandLine.word = "close".toList)
    (answers : List Text) : read line answers = closure line commandLine.arguments answers := by
  simp [read, h, command]

theorem read_blank {line : Text} (h : CommandLine.ofText? line = none) (answers : List Text) :
    read line answers = ⟨line, [], none⟩ := by
  rw [read, h]

theorem read_other {line : Text} {commandLine : CommandLine}
    (h : CommandLine.ofText? line = some commandLine) (expand : commandLine.word ≠ "expand".toList)
    (close : commandLine.word ≠ "close".toList) (answers : List Text) :
    read line answers = ⟨line, [], none⟩ := by
  rw [read, h]
  dsimp only
  rw [if_neg expand, if_neg close]

theorem line_read (line : Text) (answers : List Text) : (read line answers).line = line := by
  rw [read]
  split
  · rfl
  · split
    · rfl
    · split
      · rw [closure]
        split <;> rfl
      · rfl

theorem read_of_quits {line : Text} {answers : List Text} (h : (read line answers).quits = true) :
    read line answers = ⟨line, [], none⟩ := by
  rw [quits, line_read] at h
  cases split : CommandLine.ofText? line with
  | none => exact read_blank split answers
  | some commandLine =>
      have word : commandLine.word = "quit".toList := by simpa [split] using h
      exact read_other split (by simp [word]) (by simp [word]) answers

theorem replies_read (line : Text) (answers : List Text) : (read line answers).replies <+: answers := by
  rw [read]
  split
  · exact List.nil_prefix
  · split
    · exact Asked.replies_ofWord _ _
    · split
      · exact replies_closure _ _ _
      · exact List.nil_prefix

theorem answers_read (line : Text) (answers : List Text) :
    (read line answers).answers ++ answers.drop (read line answers).replies.length = line :: answers := by
  rw [Order.answers, line_read, List.cons_append, List.prefix_iff_eq_append.mp (replies_read line answers)]

/-- The orders in a list of answers, up to the first that quits. -/
def script : List Text → List Order
  | [] => []
  | line :: rest =>
    if (read line rest).quits then [read line rest]
    else read line rest :: script (rest.drop (read line rest).replies.length)
termination_by answers => answers.length
decreasing_by exact Nat.lt_succ_of_le (List.drop_sublist _ _).length_le

end Order

namespace Session

/-- An event within an order: a remark, or a question for a number. -/
inductive Aside : Event → Prop
  | remark {e : Event} (h : e.Remark) : Aside e
  | question {awaiting : Awaiting} (h : awaiting ≠ .command) : Aside (.prompt awaiting.prompt)

/-- The events of some orders, one after another. Those of an order start with the prompt for its line,
and they end with the report on its operation. -/
inductive Told : Tableau → List Order → List Event → Prop
  | ended {t : Tableau} : Told t [] [.prompt Awaiting.command.prompt]
  | quit {t : Tableau} {o : Order} {asides : List Event} (quits : o.quits = true)
      (h : ∀ e ∈ asides, Aside e) : Told t [o] (.prompt Awaiting.command.prompt :: asides)
  | order {t : Tableau} {o : Order} {orders : List Order} {asides report events : List Event}
      (stays : o.quits = false) (h : ∀ e ∈ asides, Aside e) (told : Reports t o.operation report)
      (rest : Told (t.run o.calls) orders events) :
      Told t (o :: orders) (.prompt Awaiting.command.prompt :: (asides ++ report) ++ events)

/-- How a run goes on after the line of an order. Either it breaks off, or the session has the tableau
after the operation and waits for the next command. -/
inductive GoesOn (t : Tableau) (operation : Option Operation) (later : List Text) :
    Run SessionEnd → Prop
  | broken {r : Run SessionEnd} {ended : SessionEnd} (result : r.result = some ended)
      (fault : ended.fault ≠ none) : GoesOn t operation later r
  | waits {s : Session} {asides report : List Event} (awaiting : s.awaiting = .command)
      (tableau : s.tableau = t.run (operation.toList.map .perform)) (h : ∀ e ∈ asides, Aside e)
      (told : Reports t operation report) :
      GoesOn t operation later ((dialogue.run .endOfInput s later).after (asides ++ report))

theorem GoesOn.after {t : Tableau} {operation : Option Operation} {later : List Text}
    {r : Run SessionEnd} (h : GoesOn t operation later r) {events : List Event}
    (asides : ∀ e ∈ events, Aside e) : GoesOn t operation later (r.after events) := by
  cases h with
  | broken result fault => exact .broken result fault
  | @waits s earlier report awaiting tableau h told =>
      have waits : GoesOn t operation later
          ((dialogue.run .endOfInput s later).after (events ++ earlier ++ report)) :=
        .waits awaiting tableau (List.forall_mem_append.mpr ⟨asides, h⟩) told
      simpa only [Run.after, List.append_assoc] using waits

theorem asides_of_remarks {events : List Event} (h : ∀ e ∈ events, e.Remark) : ∀ e ∈ events, Aside e :=
  fun e he => .remark (h e he)

theorem goesOn_ready {t : Tableau} {s : Session} (same : s.tableau = t) {events : List Event}
    (remarks : ∀ e ∈ events, e.Remark) (answers : List Text) :
    GoesOn t none answers (dialogue.runFrom .endOfInput (s.ready events) answers) := by
  have waits : GoesOn t none answers
      ((dialogue.run .endOfInput (s.await .command) answers).after (events ++ [])) :=
    .waits rfl same (asides_of_remarks remarks) .idle
  rw [List.append_nil] at waits
  exact waits

theorem goesOn_idle {t : Tableau} {s : Session} (same : s.tableau = t) (answers : List Text) :
    GoesOn t none answers (dialogue.runFrom .endOfInput (s.ready []) answers) := by
  have silent : ∀ e ∈ ([] : List Event), e.Remark := nofun
  exact goesOn_ready same silent answers

theorem goesOn_perform {t : Tableau} {s : Session} (same : s.tableau = t) (operation : Operation)
    (answers : List Text) :
    GoesOn t (some operation) answers (dialogue.runFrom .endOfInput (s.perform operation) answers) := by
  subst same
  obtain ⟨notices, report, remarks, told, performed⟩ | ⟨notices, e, -, -, performed⟩ :=
    s.perform_cases operation
  · rw [performed]
    exact .waits rfl rfl (asides_of_remarks remarks) told
  · rw [performed]
    exact .broken rfl (Option.some_ne_none _)

theorem goesOn_number {t : Tableau} {s : Session} (same : s.tableau = t) {a : Asked} {n : Int}
    (h : a.number = some n) (operation : Int → Operation) (answers : List Text) :
    GoesOn t (a.chosen.map operation) answers (dialogue.runFrom .endOfInput
      (if n = cancel then s.ready [] else s.perform (operation n)) answers) := by
  by_cases off : n = cancel
  · rw [if_pos off, Asked.chosen_of_cancel (off ▸ h)]
    exact goesOn_idle same answers
  · rw [if_neg off, Asked.chosen_of_number h off]
    exact goesOn_perform same _ answers

theorem goesOn_question {t : Tableau} {s : Session} (same : s.tableau = t) {use : Int → Reply}
    (waiting : s.awaiting ≠ .command) (asks : ∀ line, s.receive line = s.receiveNumber line use)
    {operation : Option Operation} {later : List Text} (answers : List Text)
    (given : ∀ n, (Asked.ofAnswers answers).number = some n →
      GoesOn t operation later (dialogue.runFrom .endOfInput (use n)
        (answers.drop (Asked.ofAnswers answers).replies.length)))
    (ended : (Asked.ofAnswers answers).number = none → operation = none ∧ later = []) :
    GoesOn t operation later (dialogue.run .endOfInput s answers) := by
  have question : ∀ e ∈ [Event.prompt s.awaiting.prompt], Aside e :=
    List.forall_mem_singleton.mpr (.question waiting)
  induction answers with
  | nil =>
      obtain ⟨rfl, rfl⟩ := ended rfl
      have waits : GoesOn t none [] ((dialogue.run .endOfInput (s.await .command) []).after
          ([.prompt s.awaiting.prompt] ++ [])) :=
        .waits rfl same question .idle
      have finished : s.finish = ([.prompt Awaiting.command.prompt], ⟨s.await .command, none⟩) := by
        rw [finish]
        split
        · next command => exact absurd command waiting
        · rfl
      rw [Dialogue.run]
      change GoesOn t none [] ⟨.prompt s.awaiting.prompt :: s.finish.1, some s.finish.2, []⟩
      rw [finished]
      exact waits
  | cons answer answers ih =>
      rw [Dialogue.run_cons]
      refine GoesOn.after ?_ question
      change GoesOn t operation later (dialogue.runFrom .endOfInput (s.receive answer) answers)
      rw [asks, receiveNumber]
      cases number : Text.integer? answer with
      | some n =>
          rw [Asked.ofAnswers_of_number number] at given
          exact given n rfl
      | none =>
          rw [Asked.ofAnswers_of_none number] at given ended
          have again : ∀ e ∈ [Event.output "Please enter a whole number."], Aside e :=
            List.forall_mem_singleton.mpr (.remark remark_again)
          exact (ih given ended).after again

theorem goesOn_typed {t : Tableau} {s : Session} (same : s.tableau = t) (awaiting : Awaiting)
    (use : Session → Int → Reply) (waiting : awaiting ≠ .command)
    (asks : ∀ line, (s.await awaiting).receive line =
      (s.await awaiting).receiveNumber line (use (s.await awaiting)))
    {operation : Option Operation} {later : List Text} (word : Option Text) (answers : List Text)
    (given : ∀ u n, u.tableau = t → (Asked.ofWord word answers).number = some n →
      GoesOn t operation later (dialogue.runFrom .endOfInput (use u n)
        (answers.drop (Asked.ofWord word answers).replies.length)))
    (ended : (Asked.ofWord word answers).number = none → operation = none ∧ later = []) :
    GoesOn t operation later (dialogue.runFrom .endOfInput
      (match typed word with
        | .ok n => use s n
        | .error events => ⟨events, .ask (s.await awaiting)⟩) answers) := by
  obtain ⟨n, read, number⟩ | ⟨events, missing, remarks, number⟩ := typed_cases word
  · rw [number]
    rw [Asked.ofWord, read] at given
    exact given s n same rfl
  · rw [number]
    rw [Asked.ofWord, missing] at given ended
    refine GoesOn.after ?_ (asides_of_remarks remarks)
    exact goesOn_question (s := s.await awaiting) same waiting asks answers
      (fun n => given _ n same) ended

theorem goesOn_expand {t : Tableau} {s : Session} (same : s.tableau = t) (line : Text)
    (arguments answers : List Text) :
    GoesOn t (Order.expansion line arguments answers).operation
      (answers.drop (Order.expansion line arguments answers).replies.length)
      (dialogue.runFrom .endOfInput (s.execute .expand arguments) answers) := by
  refine goesOn_typed same .target expandWith (by simp) (fun _ => rfl) arguments.head? answers ?_ ?_
  · intro u n same number
    exact goesOn_number same number .expand _
  · intro missing
    rw [Order.expansion, Asked.chosen_of_none missing, Asked.replies_of_none missing]
    exact ⟨rfl, List.drop_length⟩

theorem goesOn_second {t : Tableau} {s : Session} (same : s.tableau = t) {first : Int}
    (on : first ≠ cancel) (second : Option Text) (answers : List Text) :
    GoesOn t ((Asked.ofWord second answers).chosen.map (.close first))
      (answers.drop (Asked.ofWord second answers).replies.length)
      (dialogue.runFrom .endOfInput (s.closeFrom first second) answers) := by
  rw [closeFrom, if_neg on]
  refine goesOn_typed same (.second first) (closeWith · first) (by simp) (fun _ => rfl) second answers
    ?_ ?_
  · intro u n same number
    exact goesOn_number same number (.close first) _
  · intro missing
    rw [Asked.chosen_of_none missing, Asked.replies_of_none missing]
    exact ⟨rfl, List.drop_length⟩

theorem goesOn_close {t : Tableau} {s : Session} (same : s.tableau = t) (line : Text)
    (arguments answers : List Text) :
    GoesOn t (Order.closure line arguments answers).operation
      (answers.drop (Order.closure line arguments answers).replies.length)
      (dialogue.runFrom .endOfInput (s.execute .close arguments) answers) := by
  refine goesOn_typed same (.first arguments[1]?) (closeFrom · · arguments[1]?) (by simp)
    (fun _ => rfl) arguments.head? answers ?_ ?_
  · intro u n same number
    by_cases off : n = cancel
    · rw [Order.closure, Asked.chosen_of_cancel (off ▸ number), closeFrom, if_pos off]
      exact goesOn_idle same _
    · rw [Order.closure, Asked.chosen_of_number number off]
      simp only [List.length_append, ← List.drop_drop]
      exact goesOn_second same off arguments[1]? _
  · intro missing
    rw [Order.closure, Asked.chosen_of_none missing, Asked.replies_of_none missing]
    exact ⟨rfl, List.drop_length⟩

theorem goesOn_line {t : Tableau} {s : Session} (same : s.tableau = t) {line : Text}
    {answers : List Text} (stays : (Order.read line answers).quits = false) :
    GoesOn t (Order.read line answers).operation
      (answers.drop (Order.read line answers).replies.length)
      (dialogue.runFrom .endOfInput (s.receiveCommand line) answers) := by
  rw [receiveCommand]
  cases split : CommandLine.ofText? line with
  | none =>
      rw [Order.read_blank split]
      exact goesOn_ready same (List.forall_mem_singleton.mpr remark_invalid) answers
  | some commandLine =>
      have logged : ∀ e ∈ [Event.notice (.debug s!"Session command: {commandLine.display}")], e.Remark :=
        List.forall_mem_singleton.mpr (remark_notice _)
      dsimp only
      cases found : Command.ofWord? commandLine.word with
      | none =>
          have unknown : ∀ command : Command, commandLine.word ≠ command.word.toList := by
            intro command word
            rw [Command.ofWord?_eq_some_iff.mpr word] at found
            cases found
          rw [Order.read_other split (unknown .expand) (unknown .close)]
          exact goesOn_ready same (List.forall_mem_append.mpr
            ⟨logged, List.forall_mem_singleton.mpr remark_invalid⟩) answers
      | some command =>
          have word := Command.ofWord?_eq_some_iff.mp found
          dsimp only
          rw [Dialogue.runFrom_after]
          refine GoesOn.after ?_ (asides_of_remarks logged)
          by_cases expand : command = .expand
          · subst expand
            rw [Order.read_expand split word]
            exact goesOn_expand same line _ answers
          by_cases close : command = .close
          · subst close
            rw [Order.read_close split word]
            exact goesOn_close same line _ answers
          have quit : command ≠ .quit := by
            rintro rfl
            rw [Order.quits, Order.line_read, split] at stays
            simp [word, Command.word] at stays
          have differs : ∀ other, command ≠ other → commandLine.word ≠ other.word.toList := by
            intro other ne same
            exact ne (Option.some.inj (found.symm.trans (Command.ofWord?_eq_some_iff.mpr same)))
          rw [Order.read_other split (differs .expand expand) (differs .close close)]
          obtain ⟨next, events, kept, remarks, executed⟩ | ⟨e, executed⟩ :=
            s.execute_idle commandLine.arguments quit expand close
          · rw [executed]
            exact goesOn_ready (kept.trans same) remarks answers
          · rw [executed]
            exact .broken rfl (Option.some_ne_none _)

theorem runFrom_quit {s : Session} {line : Text} {answers : List Text}
    (quits : (Order.read line answers).quits = true) :
    ∃ remarks, (∀ e ∈ remarks, Event.Remark e) ∧
      dialogue.runFrom .endOfInput (s.receiveCommand line) answers =
        ⟨remarks, some ⟨s, none⟩, answers⟩ := by
  rw [Order.quits, Order.line_read] at quits
  rw [receiveCommand]
  cases split : CommandLine.ofText? line with
  | none => simp [split] at quits
  | some commandLine =>
      have word : commandLine.word = Command.quit.word.toList := by
        simpa [split, Command.word] using quits
      dsimp only
      rw [Command.ofWord?_eq_some_iff.mpr word]
      exact ⟨_, List.forall_mem_singleton.mpr (remark_notice _), rfl⟩

theorem run_line {s : Session} (awaiting : s.awaiting = .command) (line : Text) (rest : List Text) :
    dialogue.run .endOfInput s (line :: rest) =
      (dialogue.runFrom .endOfInput (s.receiveCommand line) rest).after
        [.prompt Awaiting.command.prompt] := by
  have received : dialogue.receive s line = s.receiveCommand line := by
    change s.receive line = _
    rw [receive, awaiting]
  have prompt : dialogue.prompt s = Awaiting.command.prompt := congrArg Awaiting.prompt awaiting
  rw [Dialogue.run_cons, received, prompt]

theorem run_follows_script {s : Session} (awaiting : s.awaiting = .command) (answers : List Text) :
    ∃ ended, (dialogue.run .endOfInput s answers).result = some ended ∧ (ended.fault = none →
      answers = (Order.script answers).flatMap Order.answers ++
        (dialogue.run .endOfInput s answers).unread ∧
      ((dialogue.run .endOfInput s answers).unread = [] ∨
        ∃ o, (Order.script answers).getLast? = some o ∧ o.quits = true) ∧
      ended.session.tableau = s.tableau.run ((Order.script answers).flatMap Order.calls) ∧
      Told s.tableau (Order.script answers) (dialogue.run .endOfInput s answers).events) := by
  fun_induction Order.script answers generalizing s with
  | case1 =>
      have ended : dialogue.run .endOfInput s [] =
          ⟨[.prompt Awaiting.command.prompt], some ⟨s, none⟩, []⟩ := by
        simp [Dialogue.run, dialogue, finish, awaiting]
      rw [ended]
      exact ⟨_, rfl, fun _ => ⟨rfl, .inl rfl, rfl, .ended⟩⟩
  | case2 line rest quits =>
      obtain ⟨remarks, hremarks, left⟩ := runFrom_quit (s := s) quits
      rw [run_line awaiting, left]
      refine ⟨_, rfl, fun _ => ⟨?_, .inr ⟨_, rfl, quits⟩, ?_, .quit quits (asides_of_remarks hremarks)⟩⟩
      · rw [Order.read_of_quits quits]
        rfl
      · rw [Order.read_of_quits quits]
        rfl
  | case3 line rest stays ih =>
      have goesOn := goesOn_line (s := s) rfl (Bool.eq_false_of_not_eq_true stays)
      rw [run_line awaiting]
      generalize dialogue.runFrom .endOfInput (s.receiveCommand line) rest = r at goesOn
      cases goesOn with
      | broken result fault => exact ⟨_, result, fun none => absurd none fault⟩
      | waits awaiting tableau asides report =>
          obtain ⟨ended, result, follows⟩ := ih awaiting
          refine ⟨ended, result, ?_⟩
          intro none
          obtain ⟨read, unread, final, told⟩ := follows none
          refine ⟨?_, ?_, ?_, ?_⟩
          · calc line :: rest
                = (Order.read line rest).answers ++
                    rest.drop (Order.read line rest).replies.length :=
                  (Order.answers_read line rest).symm
              _ = _ := by
                  rw [List.flatMap_cons, List.append_assoc]
                  exact congrArg _ read
          · refine unread.imp_right ?_
            rintro ⟨o, last, quits⟩
            exact ⟨o, by rw [List.getLast?_cons, last, Option.getD_some], quits⟩
          · rw [final, tableau, List.flatMap_cons, Tableau.run, Tableau.run, Tableau.run, List.foldl_append]
            rfl
          · rw [tableau] at told
            simpa [Run.after] using Told.order (Bool.eq_false_of_not_eq_true stays) asides report told

/-- A session follows its script. It always comes to an end, after one prompt for each answer that it
reads and at most two more. Unless it breaks off, it reads the answers of its orders in turn, all of them
or up to a line that quits; it leaves the tableau that the calls of the orders lead to; and it tells of
the calls that are refused, and of no others, right after they are made. -/
theorem session_follows_script (t : Tableau) (gallery : Gallery) (format : Option Text)
    (answers : List Text) :
    let r := dialogue.runFrom .endOfInput (start t gallery format) answers
    let orders := Order.script answers
    ∃ ended, r.result = some ended ∧
      (∃ read, answers = read ++ r.unread ∧ Event.prompts r.events ≤ read.length + 2) ∧
      (ended.fault = none →
        answers = orders.flatMap Order.answers ++ r.unread ∧
        (r.unread = [] ∨ ∃ o, orders.getLast? = some o ∧ o.quits = true) ∧
        ended.session.tableau = t.run (orders.flatMap Order.calls) ∧
        ∃ events, r.events = (start t gallery format).events ++ events ∧ Told t orders events) := by
  intro r orders
  obtain ⟨ended, result, follows⟩ :=
    run_follows_script (s := ⟨t, gallery, format, .command⟩) rfl answers
  obtain ⟨read, whole, bound⟩ := Dialogue.exists_read (d := dialogue) .endOfInput
    (fun s line => (step_receive s line).prompts) prompts_finish ⟨t, gallery, format, .command⟩ answers
  refine ⟨ended, result, ⟨read, whole, bound⟩, ?_⟩
  intro calm
  obtain ⟨taken, unread, final, told⟩ := follows calm
  exact ⟨taken, unread, final, _, rfl, told⟩

-- Numbers from the line and from the answers, a command that is called off, two refusals with the
-- three lines on each, and an answer after the end.
theorem session_follows_script_disjunction :
    let either := Formula.ofSentence (.compound .disjunction (.atom ['P']) (.atom ['Q']))
    let denial := Formula.ofSentence (.negation (.atom ['P']))
    let t := Tableau.ofPremises either [denial]
    let answers := ["expand x", "two", " 1 ", "", "Close 3", "2", "close 1 4", "expand 9", "expand",
      "-1", "status", "QUIT now", "expand 2"].map String.toList
    let r := dialogue.runFrom .endOfInput (start t ⟨none, .absent⟩ none) answers
    let calls := [Call.perform (.expand 1), .perform (.close 3 2), .perform (.close 1 4),
      .perform (.expand 9)]
    r.unread = ["expand 2".toList] ∧ Event.prompts r.events = 12 ∧
      (r.events.drop 17).take 3 = [
        .output "Unable to close any branches with the specified statements.",
        .output "Reason: neither statement is a negation.",
        .output ("Use the print command to verify that the statements are in the same branch and " ++
          "one is the negation of the other.")] ∧
      (r.events.drop 23).take 3 = [
        .output "Unable to expand the specified statement.",
        .output "Reason: no statement has that number.",
        .output "Try using the print command to double-check."] ∧
      ∃ ended, r.result = some ended ∧ ended.fault = none ∧ ended.session.tableau = t.run calls ∧
        (t.run calls).refusal = some .outOfRange ∧
        ∃ events, r.events = (start t ⟨none, .absent⟩ none).events ++ events ∧
          Told t (Order.script answers) events := by
  intro either denial t answers r calls
  obtain ⟨fault, unread, prompts, closure, expansion⟩ :
      r.result.map SessionEnd.fault = some none ∧ r.unread = ["expand 2".toList] ∧
      Event.prompts r.events = 12 ∧
      (r.events.drop 17).take 3 = [
        .output "Unable to close any branches with the specified statements.",
        .output "Reason: neither statement is a negation.",
        .output ("Use the print command to verify that the statements are in the same branch and " ++
          "one is the negation of the other.")] ∧
      (r.events.drop 23).take 3 = [
        .output "Unable to expand the specified statement.",
        .output "Reason: no statement has that number.",
        .output "Try using the print command to double-check."] := by
    unfold r t either denial answers
    decide +kernel
  have script : (Order.script answers).flatMap Order.calls = calls := by
    unfold answers calls
    decide +kernel
  have refusal : (t.run calls).refusal = some .outOfRange := by
    unfold t either denial calls
    decide +kernel
  obtain ⟨ended, result, -, follows⟩ := session_follows_script t ⟨none, .absent⟩ none answers
  change r.result = some ended at result
  rw [result] at fault
  have calm : ended.fault = none := Option.some.inj fault
  obtain ⟨-, -, final, told⟩ := follows calm
  rw [script] at final
  exact ⟨unread, prompts, closure, expansion, ended, result, calm, final, refusal, told⟩

-- The input ends at a question for a number: one answer and three prompts.
example :
    let t := Tableau.ofPremises (.atom ['P']) []
    Event.prompts (dialogue.runFrom .endOfInput (start t ⟨none, .absent⟩ none)
      ["expand".toList]).events = 3 := by
  decide +kernel

end Session

end TruthTree
