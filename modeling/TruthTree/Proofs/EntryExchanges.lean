import TruthTree.Proofs.StrictProgram

/-! Entering premises. What is entered can be read off the exchanges with the user: the answers at the
prompts for premises are the premises, or under strict reading the canonical texts of those that are
grammatical. Canonical texts read the same with and without the strict reading. -/
namespace TruthTree

namespace Premise

theorem read_of_normal (strict : Bool) {t : Text} (h : Sentence.normalize t = .ok t) :
    read strict t = readPlain t := by
  cases strict with
  | false => rfl
  | true =>
      change readStrict t = readPlain t
      rw [readStrict, h]

theorem readAll_of_normal (strict : Bool) {sources : List Text}
    (h : ∀ t ∈ sources, Sentence.normalize t = .ok t) : readAll strict sources = readAll false sources := by
  induction sources with
  | nil => rfl
  | cons t sources ih =>
      obtain ⟨first, rest⟩ := List.forall_mem_cons.mp h
      rw [readAll, readAll, read_of_normal strict first, read_of_normal false first, ih rest]

theorem readAll_ne_nil {strict : Bool} {sources : List Text} (h : sources ≠ []) :
    readAll strict sources ≠ .ok [] := by
  cases sources with
  | nil => exact absurd rfl h
  | cons t sources =>
      rw [readAll]
      cases read strict t with
      | error e => simp
      | ok f => cases readAll strict sources <;> simp [Except.map]

end Premise

theorem Tableau.exists_ofTexts_of_normal {sources : List Text} (some : sources ≠ [])
    (h : ∀ t ∈ sources, Sentence.normalize t = .ok t) :
    ∃ t, ofTexts true sources = .ok t ∧ ofTexts false sources = .ok t := by
  obtain ⟨premises, read⟩ := Premise.exists_readAll_iff.mpr fun t ht => ⟨t, h t ht⟩
  have plain : Premise.readAll false sources = .ok premises := by
    rw [← Premise.readAll_of_normal true h, read]
  rw [ofTexts, ofTexts, read, plain]
  cases premises with
  | nil => exact absurd read (Premise.readAll_ne_nil some)
  | cons first rest => exact ⟨ofPremises first rest, rfl, rfl⟩

namespace PremiseEntry

def asksPremise (e : Exchange) : Bool := "Premise ".toList.isPrefixOf e.prompt.toList

def premiseAnswers (x : List Exchange) : List Text := (x.filter asksPremise).map Exchange.answer

/-- What is kept of the answers at the prompts for premises. -/
def kept (strict : Bool) (answers : List Text) : List Text :=
  if strict then answers.filterMap fun answer => (Sentence.normalize answer).toOption else answers

def answeredBy (letter : Char) (e : Exchange) : Bool := Text.lower (Text.trim e.answer) = [letter]

/-- A premise is asked for at the start, after one that is not kept, and on request. -/
def awaitsPremise (strict : Bool) (x : List Exchange) : Bool :=
  x.getLast?.all fun last =>
    if asksPremise last then (kept strict [last.answer]).isEmpty else answeredBy 'y' last

theorem asksPremise_prompt (e : PremiseEntry) (line : Text) :
    asksPremise ⟨e.prompt, line⟩ = true ↔ e.question = .premise := by
  obtain ⟨strict, accepted, question⟩ := e
  cases question with
  | premise => simp [asksPremise, prompt, toString]
  | another => simp [asksPremise, prompt]
  | anotherAgain => simp [asksPremise, prompt]

theorem kept_append (strict : Bool) (answers later : List Text) :
    kept strict (answers ++ later) = kept strict answers ++ kept strict later := by
  cases strict with
  | false => rfl
  | true => simp [kept]

theorem premiseAnswers_append (x y : List Exchange) :
    premiseAnswers (x ++ y) = premiseAnswers x ++ premiseAnswers y := by
  simp [premiseAnswers]

theorem normal_of_mem_kept {answers : List Text} {t : Text} (h : t ∈ kept true answers) :
    Sentence.normalize t = .ok t := by
  obtain ⟨answer, -, canonical⟩ := List.mem_filterMap.mp h
  cases normal : Sentence.normalize answer with
  | error e => simp [normal, Except.toOption] at canonical
  | ok c =>
      simp only [normal, Except.toOption, Option.some.injEq] at canonical
      subst canonical
      exact Premise.normalize_of_normalize normal

structure InTurn (strict : Bool) (before : List Exchange) (q : Exchange) : Prop where
  due : asksPremise q = true ↔ awaitsPremise strict before = true
  /-- A premise is asked for under the number after those of the premises before it. -/
  numbered : asksPremise q = true →
    q.prompt = s!"Premise {(kept strict (premiseAnswers before)).length + 1}: "

def Declined (x : List Exchange) : Prop :=
  ∃ before last, x = before ++ [last] ∧ asksPremise last = false ∧ answeredBy 'n' last = true

def outcome (premises : List Text) : Entered := if premises.isEmpty then none else some premises

theorem outcome_eq_none_iff {premises : List Text} : outcome premises = none ↔ premises = [] := by
  cases premises <;> simp [outcome]

theorem outcome_of_ne_nil {premises : List Text} (h : premises ≠ []) : outcome premises = some premises := by
  rw [outcome, if_neg (by simpa using h)]

/-- The state that some exchanges lead to. The user is asked for another premise only after one. -/
structure Reached (e : PremiseEntry) (x : List Exchange) : Prop where
  accepted : e.accepted = kept e.strict (premiseAnswers x)
  question : e.question = .premise ↔ awaitsPremise e.strict x = true
  nonempty : e.question ≠ .premise → e.accepted ≠ []

theorem reached_start (strict : Bool) : Reached ⟨strict, [], .premise⟩ [] where
  accepted := by cases strict <;> rfl
  question := iff_of_true rfl rfl
  nonempty h := absurd rfl h

theorem receivePremise_cases (e : PremiseEntry) (line : Text) :
    (kept e.strict [line] = [] ∧ (e.receivePremise line).next = .ask e) ∨
      ∃ premise, kept e.strict [line] = [premise] ∧
        (e.receivePremise line).next = .ask (e.accept premise) := by
  obtain ⟨strict, accepted, question⟩ := e
  cases strict with
  | false => exact .inr ⟨line, rfl, rfl⟩
  | true =>
      cases normal : Sentence.normalize line with
      | error error => exact .inl (by simp [kept, receivePremise, normal, Except.toOption])
      | ok canonical => exact .inr ⟨canonical, by simp [kept, receivePremise, normal, Except.toOption]⟩

section

variable {e : PremiseEntry} {x : List Exchange} (line : Text)

theorem kept_premise (h : e.question = .premise) :
    kept e.strict (premiseAnswers (x ++ [⟨e.prompt, line⟩])) =
      kept e.strict (premiseAnswers x) ++ kept e.strict [line] := by
  have asked : premiseAnswers [⟨e.prompt, line⟩] = [line] := by
    simp [premiseAnswers, (asksPremise_prompt e line).mpr h]
  rw [premiseAnswers_append, kept_append, asked]

theorem premiseAnswers_other (h : e.question ≠ .premise) :
    premiseAnswers (x ++ [⟨e.prompt, line⟩]) = premiseAnswers x := by
  simp [premiseAnswers, mt (asksPremise_prompt e line).mp h]

theorem awaitsPremise_premise (h : e.question = .premise) :
    awaitsPremise e.strict (x ++ [⟨e.prompt, line⟩]) = (kept e.strict [line]).isEmpty := by
  simp [awaitsPremise, (asksPremise_prompt e line).mpr h]

theorem awaitsPremise_other (h : e.question ≠ .premise) :
    awaitsPremise e.strict (x ++ [⟨e.prompt, line⟩]) = answeredBy 'y' ⟨e.prompt, line⟩ := by
  simp [awaitsPremise, mt (asksPremise_prompt e line).mp h]

end

theorem Reached.receivePremise {e : PremiseEntry} {x : List Exchange} (h : e.Reached x)
    (asked : e.question = .premise) (line : Text) :
    ∃ later, (e.receivePremise line).next = .ask later ∧ later.strict = e.strict ∧
      later.Reached (x ++ [⟨e.prompt, line⟩]) := by
  obtain ⟨refused, next⟩ | ⟨premise, taken, next⟩ := receivePremise_cases e line
  · refine ⟨e, next, rfl, ?_, ?_, h.nonempty⟩
    · rw [kept_premise line asked, refused, List.append_nil]
      exact h.accepted
    · rw [awaitsPremise_premise line asked, refused]
      exact iff_of_true asked rfl
  · refine ⟨e.accept premise, next, rfl, ?_, ?_, ?_⟩
    · change e.accepted ++ [premise] = _
      rw [accept, kept_premise line asked, taken, ← h.accepted]
    · rw [accept, awaitsPremise_premise line asked, taken]
      simp
    · simp [accept]

theorem Reached.receiveAnother {e : PremiseEntry} {x : List Exchange} (h : e.Reached x)
    (asked : e.question ≠ .premise) (line : Text) :
    (e.receiveAnother line).next.Satisfies
      (fun later => later.strict = e.strict ∧ later.Reached (x ++ [⟨e.prompt, line⟩]))
      (fun entered => entered = some e.accepted ∧ e.question ≠ .premise ∧
        answeredBy 'n' ⟨e.prompt, line⟩ = true) := by
  have same : e.accepted = kept e.strict (premiseAnswers (x ++ [⟨e.prompt, line⟩])) := by
    rw [premiseAnswers_other line asked, h.accepted]
  have awaits := @awaitsPremise_other e x line asked
  rw [PremiseEntry.receiveAnother]
  split
  · next yes =>
      refine ⟨rfl, same, ?_, fun other => absurd rfl other⟩
      rw [awaits]
      simp [answeredBy, yes]
  · next notYes =>
      split
      · next no => exact ⟨rfl, asked, by simp [answeredBy, no]⟩
      · refine ⟨rfl, same, ?_, fun _ => h.nonempty asked⟩
        rw [awaits]
        simp [answeredBy, notYes]

theorem Reached.receive {e : PremiseEntry} {x : List Exchange} (h : e.Reached x) (line : Text) :
    (e.receive line).next.Satisfies
      (fun later => later.strict = e.strict ∧ later.Reached (x ++ [⟨e.prompt, line⟩]))
      (fun entered => entered = some e.accepted ∧ e.question ≠ .premise ∧
        answeredBy 'n' ⟨e.prompt, line⟩ = true) := by
  rw [PremiseEntry.receive]
  split
  · next asked =>
      obtain ⟨later, next, reached⟩ := h.receivePremise asked line
      rw [next]
      exact reached
  · next asked => exact h.receiveAnother asked line

section

variable {e : PremiseEntry} {x : List Exchange} {line : Text}

theorem Reached.ask (h : e.Reached x) {later : PremiseEntry}
    (next : (dialogue.receive e line).next = .ask later) :
    later.strict = e.strict ∧ later.Reached (x ++ [⟨dialogue.prompt e, line⟩]) := by
  have step := h.receive line
  rw [show (e.receive line).next = .ask later from next] at step
  exact step

theorem Reached.stop (h : e.Reached x) {entered : Entered}
    (next : (dialogue.receive e line).next = .stop entered) :
    entered = some e.accepted ∧ e.question ≠ .premise ∧ answeredBy 'n' ⟨e.prompt, line⟩ = true := by
  have step := h.receive line
  rw [show (e.receive line).next = .stop entered from next] at step
  exact step

end

theorem Reached.inTurn {e : PremiseEntry} {x : List Exchange} (h : e.Reached x) (line : Text) :
    InTurn e.strict x ⟨e.prompt, line⟩ where
  due := (asksPremise_prompt e line).trans h.question
  numbered asked := by
    rw [← h.accepted, prompt, (asksPremise_prompt e line).mp asked]

theorem finish_eq_outcome (e : PremiseEntry) : e.finish.2 = outcome e.accepted := by
  rw [finish, outcome]
  split <;> rfl

theorem inTurn_of_conducts {e : PremiseEntry} {y : List Exchange} {entered : Entered} {unread : List Text}
    (h : dialogue.Conducts e y entered unread) {x : List Exchange} (reached : e.Reached x) :
    ∀ before q after, y = before ++ q :: after → InTurn e.strict (x ++ before) q := by
  -- Each step adds its exchange to those before the run, so these vary along the induction.
  induction h generalizing x with
  | ends e =>
      intro before q after split
      simp at split
  | @stops e line entered unread next =>
      intro before q after split
      cases before with
      | nil =>
          obtain ⟨rfl, -⟩ := List.cons.inj split
          rw [List.append_nil]
          exact reached.inTurn line
      | cons first before => simp at split
  | @goesOn e later line y entered unread next rest ih =>
      intro before q after split
      cases before with
      | nil =>
          obtain ⟨rfl, -⟩ := List.cons.inj split
          rw [List.append_nil]
          exact reached.inTurn line
      | cons first before =>
          obtain ⟨rfl, below⟩ := List.cons.inj split
          obtain ⟨strict, step⟩ := reached.ask next
          have turn := ih step before q after below
          rw [strict, List.append_assoc] at turn
          exact turn

theorem outcome_of_conducts {e : PremiseEntry} {y : List Exchange} {entered : Entered} {unread : List Text}
    (h : dialogue.Conducts e y entered unread) {x : List Exchange} (reached : e.Reached x) :
    entered = outcome (kept e.strict (premiseAnswers (x ++ y))) ∧
      (unread = [] ∨ kept e.strict (premiseAnswers (x ++ y)) ≠ [] ∧ Declined y) := by
  induction h generalizing x with
  | ends e =>
      rw [List.append_nil, ← reached.accepted]
      exact ⟨finish_eq_outcome e, .inl rfl⟩
  | @stops e line entered unread next =>
      obtain ⟨returned, asked, declined⟩ := reached.stop next
      have nonempty := reached.nonempty asked
      have same : premiseAnswers (x ++ [⟨dialogue.prompt e, line⟩]) = premiseAnswers x :=
        premiseAnswers_other line asked
      rw [same, ← reached.accepted, outcome_of_ne_nil nonempty]
      refine ⟨returned, .inr ⟨nonempty, [], _, rfl, ?_, declined⟩⟩
      exact Bool.eq_false_iff.mpr (mt (asksPremise_prompt e line).mp asked)
  | @goesOn e later line y entered unread next rest ih =>
      obtain ⟨strict, step⟩ := reached.ask next
      obtain ⟨returned, ending⟩ := ih step
      rw [strict, List.append_assoc] at returned ending
      refine ⟨returned, ending.imp id ?_⟩
      rintro ⟨nonempty, before, last, rfl, declined⟩
      exact ⟨nonempty, _ :: before, last, rfl, declined⟩

theorem prompts_receive (e : PremiseEntry) (line : Text) : Event.prompts (e.receive line).events = 0 := by
  have quiet (notices : List Notice) : Event.prompts (Event.ofNotices notices) = 0 := by
    simp [Event.prompts_eq_zero_iff, Event.ofNotices, Event.isPrompt]
  rw [receive]
  split
  · rw [receivePremise]
    split
    · split
      · exact quiet _
      · rw [Event.prompts_append, quiet]
        rfl
    · rfl
  · rw [receiveAnother]
    split
    · rfl
    · split <;> rfl

/-- Premise entry comes to its end with the premises that were entered, and without any just when none
was. It reads the answers in order, each at a question that comes in its turn, up to the end of the input
or to a no. The premises entered under strict reading are canonical, so that both readings build the same
tableau from them. -/
theorem entry_returns_what_was_entered (strict : Bool) (answers : List Text) :
    let r := dialogue.runFrom .endOfInput (start strict) answers
    let x := r.exchanges answers
    let premises := kept strict (premiseAnswers x)
    (r.result = some none ↔ premises = []) ∧ (premises ≠ [] → r.result = some (some premises)) ∧
      answers = x.map Exchange.answer ++ r.unread ∧ (r.unread = [] ∨ premises ≠ [] ∧ Declined x) ∧
      (∀ before q after, x = before ++ q :: after → InTurn strict before q) ∧
      (strict = true → (∀ p ∈ premises, Sentence.normalize p = .ok p) ∧
        (premises ≠ [] → ∃ t, Tableau.ofTexts true premises = .ok t ∧
          Tableau.ofTexts false premises = .ok t)) := by
  intro r x premises
  have reached := reached_start strict
  obtain ⟨entered, result, conducted, whole⟩ :=
    Dialogue.conducts_run (d := dialogue) prompts_receive ⟨strict, [], .premise⟩ answers
  obtain ⟨returned, ending⟩ := outcome_of_conducts conducted reached
  have outcome_eq : r.result = some (outcome premises) := result.trans (congrArg some returned)
  have normal (h : strict = true) : ∀ p ∈ premises, Sentence.normalize p = .ok p := by
    subst h
    exact fun p hp => normal_of_mem_kept hp
  refine ⟨?_, ?_, whole, ending, inTurn_of_conducts conducted reached, fun h => ⟨normal h, ?_⟩⟩
  · rw [outcome_eq, Option.some.injEq, outcome_eq_none_iff]
  · exact fun nonempty => outcome_eq.trans (congrArg some (outcome_of_ne_nil nonempty))
  · exact fun nonempty => Tableau.exists_ofTexts_of_normal nonempty (normal h)

-- A premise that breaks off, an answer that is neither yes nor no, and an end of the input after
-- the second premise; and an end of the input before the first.
theorem entry_returns_canonical_texts :
    let answers := ["(and P", "(or  P Q)", "maybe", " Y ", " R"].map String.toList
    let r := dialogue.runFrom .endOfInput (start true) answers
    let x : List Exchange :=
      [⟨"Premise 1: ", "(and P".toList⟩, ⟨"Premise 1: ", "(or  P Q)".toList⟩,
        ⟨"Continue entering premises? (y/n) ", "maybe".toList⟩,
        ⟨"Invalid input. Type Y/y to continue, N/n to quit: ", " Y ".toList⟩,
        ⟨"Premise 2: ", " R".toList⟩]
    let premises := ["(or P Q)".toList, "R".toList]
    r.exchanges answers = x ∧ r.result = some (some premises) ∧
      (∀ p ∈ premises, Sentence.normalize p = .ok p) ∧
      (∃ t, Tableau.ofTexts true premises = .ok t ∧ Tableau.ofTexts false premises = .ok t) ∧
      (dialogue.runFrom .endOfInput (start true) ["(and P".toList]).result = some none := by
  intro answers r x premises
  have exchanges : r.exchanges answers = x := by
    unfold r answers x
    decide +kernel
  have entered : kept true (premiseAnswers (r.exchanges answers)) = premises := by
    rw [exchanges]
    unfold x premises
    decide +kernel
  have nonempty : premises ≠ [] := List.cons_ne_nil _ _
  obtain ⟨-, returned, -, -, -, strict⟩ := entry_returns_what_was_entered true answers
  change _ → r.result = some (some (kept true (premiseAnswers (r.exchanges answers)))) at returned
  rw [entered] at returned strict
  obtain ⟨normal, built⟩ := strict rfl
  refine ⟨exchanges, returned nonempty, normal, built nonempty, ?_⟩
  refine (entry_returns_what_was_entered true ["(and P".toList]).1.mpr ?_
  decide +kernel

end PremiseEntry

end TruthTree
