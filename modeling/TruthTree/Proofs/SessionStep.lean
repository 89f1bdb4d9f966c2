import TruthTree.Proofs.DialogueRun
import TruthTree.Session.Basic

/-! What one line does in a session. It may perform one operation of the tableau; otherwise the tableau
stays as it is. Only a refused operation is followed by a report, which has three lines. -/
namespace TruthTree

def Refusal.line : Refusal → String
  | outOfRange => "Reason: no statement has that number."
  | alreadyExpanded => "Reason: statement has already been expanded."
  | nothingToExpand => "Reason: statement is a literal and cannot be expanded."
  | noNegation => "Reason: neither statement is a negation."
  | differentBranches => "Reason: statements are not on the same branch."
  | notContradictory => "Reason: neither statement is the negation of the other."

namespace Session

/-- The report on an operation of a tableau: nothing if there is none or it is accepted. One that is
refused leaves its reason with the tableau and is told in three lines, the second with that reason. -/
inductive Reports (t : Tableau) : Option Operation → List Event → Prop
  | idle : Reports t none []
  | accepted {operation : Operation} (h : (t.perform operation).2 = .accepted) :
      Reports t (some operation) []
  | expansion {number : Int} {reason : Refusal} (h : (t.expand number).2 = .refused reason)
      (kept : (t.expand number).1.refusal = some reason) :
      Reports t (some (.expand number)) [
        .output "Unable to expand the specified statement.",
        .output reason.line,
        .output "Try using the print command to double-check."]
  | closure {first second : Int} {reason : Refusal} (h : (t.close first second).2 = .refused reason)
      (kept : (t.close first second).1.refusal = some reason) :
      Reports t (some (.close first second)) [
        .output "Unable to close any branches with the specified statements.",
        .output reason.line,
        .output ("Use the print command to verify that the statements are in the same branch and " ++
          "one is the negation of the other.")]

end Session

/-- An event that neither asks for a line nor belongs to a report. -/
structure Event.Remark (e : Event) : Prop where
  isPrompt : e.isPrompt = false
  unreported : ∀ t operation report, Session.Reports t operation report → e ∉ report

namespace Session

def reportHeads : List Text := ["Una".toList, "Rea".toList, "Try".toList, "Use".toList]

theorem take_toList {text : String} {letters : Text} (spelled : text = .ofList letters) (n : Nat) :
    text.toList.take n = letters.take n := by
  rw [spelled, String.toList_ofList]

theorem take_toList_append {text : String} {letters : Text} (spelled : text = .ofList letters)
    {rest : String} {n : Nat} (long : n ≤ letters.length) :
    (text ++ rest).toList.take n = letters.take n := by
  rw [spelled, String.toList_append, String.toList_ofList, List.take_append_of_le_length long]

theorem take_line (reason : Refusal) : reason.line.toList.take 3 ∈ reportHeads := by
  cases reason <;> (rw [Refusal.line, take_toList rfl]; simp [reportHeads])

theorem head_of_mem_report {t : Tableau} {operation : Option Operation} {report : List Event}
    (h : Reports t operation report) {e : Event} (he : e ∈ report) :
    ∃ text, e = .output text ∧ text.toList.take 3 ∈ reportHeads := by
  cases h with
  | idle => cases he
  | accepted => cases he
  | @expansion number reason =>
      simp only [List.mem_cons, List.not_mem_nil, or_false] at he
      rcases he with rfl | rfl | rfl
      · exact ⟨_, rfl, by rw [take_toList rfl]; simp [reportHeads]⟩
      · exact ⟨_, rfl, take_line reason⟩
      · exact ⟨_, rfl, by rw [take_toList rfl]; simp [reportHeads]⟩
  | @closure first second reason =>
      simp only [List.mem_cons, List.not_mem_nil, or_false] at he
      rcases he with rfl | rfl | rfl
      · exact ⟨_, rfl, by rw [take_toList rfl]; simp [reportHeads]⟩
      · exact ⟨_, rfl, take_line reason⟩
      · exact ⟨_, rfl, by rw [take_toList_append rfl (by simp)]; simp [reportHeads]⟩

theorem Reports.prompts {t : Tableau} {operation : Option Operation} {report : List Event}
    (h : Reports t operation report) : Event.prompts report = 0 := by
  rw [Event.prompts_eq_zero_iff]
  intro e he
  obtain ⟨text, rfl, -⟩ := head_of_mem_report h he
  rfl

theorem remark_output {text : String} (h : text.toList.take 3 ∉ reportHeads) :
    (Event.output text).Remark where
  isPrompt := rfl
  unreported := by
    intro t operation report told here
    obtain ⟨other, same, head⟩ := head_of_mem_report told here
    obtain rfl := Event.output.inj same
    exact h head

theorem remark_spelled {text : String} {letters : Text} (spelled : text = .ofList letters)
    (h : letters.take 3 ∉ reportHeads) : (Event.output text).Remark := by
  apply remark_output
  rwa [take_toList spelled]

theorem remark_notice (n : Notice) : (Event.notice n).Remark where
  isPrompt := rfl
  unreported := by
    intro t operation report told here
    obtain ⟨text, same, -⟩ := head_of_mem_report told here
    cases same

theorem remark_ofNotices (notices : List Notice) : ∀ e ∈ Event.ofNotices notices, e.Remark := by
  intro e he
  obtain ⟨n, -, rfl⟩ := List.mem_map.mp he
  exact remark_notice n

theorem remark_invalid : invalid.Remark := remark_spelled rfl (by simp [reportHeads])

theorem remark_again : (Event.output "Please enter a whole number.").Remark :=
  remark_spelled rfl (by simp [reportHeads])

theorem remark_help : ∀ e ∈ Command.helpLines.map Event.output, e.Remark := by
  intro e he
  obtain ⟨text, htext, rfl⟩ := List.mem_map.mp he
  simp only [Command.helpLines, List.mem_cons, List.not_mem_nil, or_false] at htext
  rcases htext with rfl | rfl | rfl | rfl | htext
  · exact remark_spelled rfl (by simp [reportHeads])
  · exact remark_spelled rfl (by simp [reportHeads])
  · exact remark_spelled rfl (by simp [reportHeads])
  · exact remark_output (by rw [take_toList_append rfl (by simp)]; simp [reportHeads])
  · rcases htext with rfl | rfl | rfl | rfl <;> exact remark_spelled rfl (by simp [reportHeads])

theorem remark_legend : (Event.output Outline.legend).Remark :=
  remark_output (by simp [reportHeads, Outline.legend, toString])

theorem exists_statementLine_cons (s : Statement) : ∃ rest, Outline.statementLine s = ' ' :: rest := by
  rw [Outline.statementLine, Outline.margin, Outline.dashes]
  split
  · cases s.lineage.split with
    | none => exact ⟨_, rfl⟩
    | some split => exact ⟨_, rfl⟩
  · exact ⟨_, rfl⟩

theorem exists_placeLines_cons (p : Place) :
    ∃ marks, Outline.placeLines p = Outline.statementLine p.statement :: marks := by
  rw [Outline.placeLines]
  split
  · exact ⟨_, rfl⟩
  · exact ⟨_, rfl⟩

theorem exists_render_cons (t : Tableau) : ∃ rest, Outline.render t = ' ' :: rest := by
  have root : ∃ below, t.places = ⟨[], t.tree⟩ :: below := by
    rw [Tableau.places]
    cases t.tree <;> exact ⟨_, rfl⟩
  obtain ⟨below, places⟩ := root
  obtain ⟨marks, lines⟩ := exists_placeLines_cons ⟨[], t.tree⟩
  obtain ⟨rest, line⟩ := exists_statementLine_cons (Place.statement ⟨[], t.tree⟩)
  rw [Outline.render, Outline.lines, Tableau.traverse_eq_places, places, List.flatMap_cons, lines, line,
    List.cons_append, Text.joined]
  cases marks ++ below.flatMap Outline.placeLines with
  | nil => exact ⟨rest, by simp⟩
  | cons next later => exact ⟨rest ++ '\n' :: List.intercalate ['\n'] (next :: later), by simp⟩

theorem remark_outline (t : Tableau) : (Event.output (Outline.render t).toStr).Remark := by
  obtain ⟨rest, outline⟩ := exists_render_cons t
  apply remark_output
  rw [outline]
  simp [reportHeads]

theorem remark_status (status : Status) : (Event.output (statusMessage status)).Remark := by
  cases status <;> exact remark_spelled rfl (by simp [reportHeads])

theorem typed_cases (word : Option Text) :
    (∃ n, word.bind Text.integer? = some n ∧ typed word = .ok n) ∨
    ∃ events, word.bind Text.integer? = none ∧ (∀ e ∈ events, e.Remark) ∧ typed word = .error events := by
  cases word with
  | none => exact .inr ⟨[], rfl, nofun, rfl⟩
  | some word =>
      rw [Option.bind_some, typed]
      cases Text.integer? word with
      | some n => exact .inl ⟨n, rfl, rfl⟩
      | none =>
          refine .inr ⟨_, rfl, List.forall_mem_singleton.mpr (remark_output ?_), rfl⟩
          simp [reportHeads, toString]

theorem line_eq (reason : Refusal) : s!"Reason: {reason.reason}." = reason.line := by
  cases reason <;> simp [Refusal.line, Refusal.reason, toString]

theorem refusal_of_refused {t : Tableau} {operation : Operation} {reason : Refusal}
    (h : (t.perform operation).2 = .refused reason) :
    (t.perform operation).1.refusal = some reason := by
  cases operation with
  | expand number =>
      simp only [Tableau.perform, Tableau.expand] at h ⊢
      split at h
      · cases h
        rfl
      · cases h
  | close first second =>
      simp only [Tableau.perform, Tableau.close] at h ⊢
      split at h
      · cases h
        rfl
      · cases h

theorem reports_refusalLines {t : Tableau} {operation : Operation} {reason : Refusal}
    (h : (t.perform operation).2 = .refused reason) :
    Reports t (some operation) (refusalLines operation reason) := by
  have kept := refusal_of_refused h
  cases operation with
  | expand number =>
      simp only [refusalLines, line_eq]
      exact .expansion h kept
  | close first second =>
      simp only [refusalLines, line_eq]
      exact .closure h kept

theorem perform_cases (s : Session) (operation : Operation) :
    (∃ remarks report, (∀ e ∈ remarks, e.Remark) ∧ Reports s.tableau (some operation) report ∧
      s.perform operation = ready { s with tableau := (s.tableau.perform operation).1 }
        (remarks ++ report)) ∨
    ∃ remarks e, (∀ e ∈ remarks, e.Remark) ∧ (s.tableau.perform operation).2 = .unreadable e ∧
      s.perform operation = broken { s with tableau := (s.tableau.perform operation).1 } remarks
        (.unreadable e) := by
  have remarks := remark_ofNotices (Tableau.operationNotices s.tableau
    (s.tableau.perform operation).1 operation (s.tableau.perform operation).2)
  cases outcome : (s.tableau.perform operation).2 with
  | accepted =>
      rw [outcome] at remarks
      refine .inl ⟨_, [], remarks, .accepted outcome, ?_⟩
      simp only [perform, outcome, List.append_nil]
  | refused reason =>
      rw [outcome] at remarks
      refine .inl ⟨_, _, remarks, reports_refusalLines outcome, ?_⟩
      simp only [perform, outcome]
  | unreadable e =>
      rw [outcome] at remarks
      refine .inr ⟨_, e, remarks, rfl, ?_⟩
      simp only [perform, outcome]

theorem execute_idle (s : Session) {command : Command} (arguments : List Text)
    (quit : command ≠ .quit) (expand : command ≠ .expand) (close : command ≠ .close) :
    (∃ next events, next.tableau = s.tableau ∧ (∀ e ∈ events, e.Remark) ∧
      s.execute command arguments = ready next events) ∨
    ∃ e, s.execute command arguments = s.broken [] (.noFormat e) := by
  cases command with
  | quit => exact absurd rfl quit
  | expand => exact absurd rfl expand
  | close => exact absurd rfl close
  | help => exact .inl ⟨s, _, rfl, remark_help, rfl⟩
  | print =>
      refine .inl ⟨s, _, rfl, ?_, rfl⟩
      exact List.forall_mem_cons.mpr ⟨remark_legend, List.forall_mem_singleton.mpr (remark_outline _)⟩
  | done =>
      refine .inl ⟨s, _, rfl, ?_, rfl⟩
      refine List.forall_mem_cons.mpr ⟨remark_notice _, List.forall_mem_singleton.mpr ?_⟩
      split <;> exact remark_spelled rfl (by simp [reportHeads])
  | status =>
      refine .inl ⟨s, _, rfl, ?_, rfl⟩
      exact List.forall_mem_append.mpr
        ⟨remark_ofNotices _, List.forall_mem_singleton.mpr (remark_status _)⟩
  | render =>
      simp only [execute, render]
      split
      · next e _ => exact .inr ⟨e, rfl⟩
      · next saved _ =>
          refine .inl ⟨{ s with gallery := saved.gallery }, _, rfl, ?_, rfl⟩
          refine List.forall_mem_append.mpr
            ⟨remark_ofNotices _, List.forall_mem_singleton.mpr (remark_output ?_)⟩
          split <;> simp [reportHeads, toString]

inductive Step (s : Session) : Reply → Prop
  /-- The session goes on with the tableau it has. -/
  | asks {events : List Event} {next : Session} (remarks : ∀ e ∈ events, e.Remark)
      (same : next.tableau = s.tableau) : Step s ⟨events, .ask next⟩
  | leaves {events : List Event} (remarks : ∀ e ∈ events, e.Remark) :
      Step s ⟨events, .stop ⟨s, none⟩⟩
  | breaks {events : List Event} {e : FormatError} (remarks : ∀ e ∈ events, e.Remark) :
      Step s ⟨events, .stop ⟨s, some (.noFormat e)⟩⟩
  | performs {events : List Event} {operation : Operation} (remarks : ∀ e ∈ events, e.Remark) :
      Step s ((s.perform operation).after events)

theorem Step.after {s : Session} {reply : Reply} (h : Step s reply) {events : List Event}
    (remarks : ∀ e ∈ events, e.Remark) : Step s (reply.after events) := by
  cases h with
  | asks later same => exact .asks (List.forall_mem_append.mpr ⟨remarks, later⟩) same
  | leaves later => exact .leaves (List.forall_mem_append.mpr ⟨remarks, later⟩)
  | breaks later => exact .breaks (List.forall_mem_append.mpr ⟨remarks, later⟩)
  | @performs earlier operation later =>
      have step : Step s ((s.perform operation).after (events ++ earlier)) :=
        .performs (List.forall_mem_append.mpr ⟨remarks, later⟩)
      simpa [Turn.after] using step

theorem step_perform (s : Session) (operation : Operation) : Step s (s.perform operation) := by
  have step : Step s ((s.perform operation).after []) := .performs nofun
  exact step

theorem step_idle (s : Session) : Step s (s.ready []) := .asks nofun rfl

theorem step_expandWith (s : Session) (number : Int) : Step s (s.expandWith number) := by
  rw [expandWith]
  split
  · exact step_idle s
  · exact step_perform s _

theorem step_closeWith (s : Session) (first second : Int) : Step s (s.closeWith first second) := by
  rw [closeWith]
  split
  · exact step_idle s
  · exact step_perform s _

theorem step_typed {s : Session} (word : Option Text) {use : Int → Reply} {awaiting : Awaiting}
    (h : ∀ n, Step s (use n)) :
    Step s (match typed word with
      | .ok n => use n
      | .error events => ⟨events, .ask (s.await awaiting)⟩) := by
  obtain ⟨n, -, number⟩ | ⟨events, -, remarks, missing⟩ := typed_cases word
  · rw [number]
    exact h n
  · rw [missing]
    exact .asks remarks rfl

theorem step_closeFrom (s : Session) (first : Int) (second : Option Text) :
    Step s (s.closeFrom first second) := by
  rw [closeFrom]
  split
  · exact step_idle s
  · exact step_typed second (step_closeWith s first)

theorem step_execute (s : Session) (command : Command) (arguments : List Text) :
    Step s (s.execute command arguments) := by
  by_cases quit : command = .quit
  · subst quit
    exact .leaves nofun
  by_cases expand : command = .expand
  · subst expand
    exact step_typed arguments.head? (step_expandWith s)
  by_cases close : command = .close
  · subst close
    exact step_typed arguments.head? fun n => step_closeFrom s n arguments[1]?
  obtain ⟨next, events, same, remarks, executed⟩ | ⟨e, executed⟩ :=
    s.execute_idle arguments quit expand close
  · rw [executed]
    exact .asks remarks same
  · rw [executed]
    exact .breaks nofun

theorem step_receiveNumber (s : Session) (line : Text) {use : Int → Reply} (h : ∀ n, Step s (use n)) :
    Step s (s.receiveNumber line use) := by
  rw [receiveNumber]
  split
  · exact h _
  · exact .asks (List.forall_mem_singleton.mpr remark_again) rfl

theorem step_receiveCommand (s : Session) (line : Text) : Step s (s.receiveCommand line) := by
  rw [receiveCommand]
  split
  · exact .asks (List.forall_mem_singleton.mpr remark_invalid) rfl
  · split
    · exact .asks (List.forall_mem_cons.mpr
        ⟨remark_notice _, List.forall_mem_singleton.mpr remark_invalid⟩) rfl
    · exact (step_execute s _ _).after (List.forall_mem_singleton.mpr (remark_notice _))

theorem step_receive (s : Session) (line : Text) : Step s (s.receive line) := by
  rw [receive]
  split
  · exact step_receiveCommand s line
  · exact step_receiveNumber s line (step_expandWith s)
  · exact step_receiveNumber s line fun n => step_closeFrom s n _
  · exact step_receiveNumber s line (step_closeWith s _)

theorem Step.prompts {s : Session} {reply : Reply} (h : Step s reply) :
    Event.prompts reply.events = 0 := by
  have silent : ∀ {events : List Event}, (∀ e ∈ events, e.Remark) → Event.prompts events = 0 :=
    fun remarks => Event.prompts_eq_zero_iff.mpr fun e he => (remarks e he).isPrompt
  cases h with
  | asks remarks same => exact silent remarks
  | leaves remarks => exact silent remarks
  | breaks remarks => exact silent remarks
  | @performs events operation remarks =>
      rw [Turn.after, Event.prompts_append, silent remarks, Nat.zero_add]
      obtain ⟨notices, report, hnotices, told, performed⟩ | ⟨notices, e, hnotices, -, performed⟩ :=
        s.perform_cases operation
      · rw [performed, ready, Event.prompts_append, silent hnotices, told.prompts]
      · rw [performed]
        exact silent hnotices

theorem prompts_finish (s : Session) : Event.prompts s.finish.1 ≤ 1 := by
  rw [finish]
  split
  · exact Nat.zero_le 1
  · exact Nat.le_refl 1

end Session

end TruthTree
