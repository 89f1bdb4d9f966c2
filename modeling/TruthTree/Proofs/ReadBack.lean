import TruthTree.Proofs.Refinement

/-! Reading back. Whatever a text is read as, well formed or not, its parts are read from shorter texts,
each of which the part keeps as its own. So every formula that comes up in a run over plainly read
premises is what its own text is read as. -/
namespace TruthTree

namespace Formula

/-- What a text can be read as: an atom, or a formula put together from readings of shorter texts. -/
inductive BuiltFrom (t : Text) : Formula → Prop
  | atom : BuiltFrom t (atom t)
  | negation {s : Text} {a : Formula} (shorter : s.length < t.length) (operand : read s = .ok a) :
      BuiltFrom t (negation t a)
  | compound {op : Connective} {s s' : Text} {a b : Formula} (shorter : s.length < t.length)
      (shorter' : s'.length < t.length) (left : read s = .ok a) (right : read s' = .ok b) :
      BuiltFrom t (compound t op a b)

theorem builtFrom_of_read {t : Text} {f : Formula} (h : read t = .ok f) : BuiltFrom t f := by
  rw [read.eq_def] at h
  split at h
  · next rest =>
      dsimp only at h
      have inside := length_interior_lt ((firstOperand rest).length + 2) '(' rest
      split at h
      · cases operand : read (interior ((firstOperand rest).length + 2) ('(' :: rest)) with
        | error e =>
            rw [operand] at h
            cases h
        | ok a =>
            rw [operand] at h
            cases h
            exact .negation inside operand
      · split at h
        · cases h
        · split at h
          · next left right =>
              cases h
              refine .compound ?_ ?_ left right
              · exact Nat.lt_of_le_of_lt (length_firstOperand_le _) inside
              · refine Nat.lt_of_le_of_lt (length_firstOperand_le _) (Nat.lt_of_le_of_lt ?_ inside)
                rw [List.length_drop]
                exact Nat.sub_le _ _
          · cases h
          · cases h
  · cases h
    exact .atom

theorem text_of_read {t : Text} {f : Formula} (h : read t = .ok f) : f.text = t := by
  cases builtFrom_of_read h with
  | atom => rfl
  | negation shorter operand => rfl
  | compound shorter shorter' left right => rfl

/-- The formula is what its own text is read as. -/
def ReadsBack (f : Formula) : Prop := read f.text = .ok f

theorem readsBack_of_read {t : Text} {f : Formula} (h : read t = .ok f) : f.ReadsBack := by
  rw [ReadsBack, text_of_read h]
  exact h

namespace ReadsBack

theorem operand {t : Text} {a : Formula} (h : (negation t a).ReadsBack) :
    a.ReadsBack ∧ a.text.length < t.length := by
  cases builtFrom_of_read h with
  | negation shorter operand => exact ⟨readsBack_of_read operand, by rwa [text_of_read operand]⟩

theorem sides {t : Text} {op : Connective} {a b : Formula} (h : (compound t op a b).ReadsBack) :
    (a.ReadsBack ∧ a.text.length < t.length) ∧ b.ReadsBack ∧ b.text.length < t.length := by
  cases builtFrom_of_read h with
  | compound shorter shorter' left right =>
      refine ⟨⟨readsBack_of_read left, ?_⟩, readsBack_of_read right, ?_⟩
      · rwa [text_of_read left]
      · rwa [text_of_read right]

theorem not_contradicts_self {f : Formula} (h : f.ReadsBack) : f.contradicts f = false := by
  cases f with
  | atom t => rfl
  | compound t op a b => rfl
  | negation t a =>
      have shorter := h.operand.2
      have differs : a.text ≠ (negation t a).text := by
        intro same
        rw [same] at shorter
        exact Nat.lt_irrefl _ shorter
      simp [contradicts, negates, differs]

end ReadsBack

end Formula

def Decomposition.parts (d : Decomposition) : List Formula := d.alternatives.flatten

namespace Formula

theorem readsBack_of_mem_halves {shape : Formula → Formula → Decomposition}
    (parts : ∀ f g, (shape f g).parts = [f, g]) {first second : Except UnknownConnective Formula}
    (hfirst : ∀ f, first = .ok f → f.ReadsBack) (hsecond : ∀ f, second = .ok f → f.ReadsBack)
    {d : Decomposition} (rule : halves shape first second = .ok d) : ∀ g ∈ d.parts, g.ReadsBack := by
  -- Each half is an operand that reads back, or is read from a text of its own.
  obtain ⟨f, g, left, right, rfl⟩ := halves_eq_ok rule
  rw [parts]
  simp [hfirst f left, hsecond g right]

theorem forall_ok_readsBack {f : Formula} (h : f.ReadsBack) :
    ∀ g, (.ok f : Except UnknownConnective Formula) = .ok g → g.ReadsBack := by
  rintro g ⟨⟩
  exact h

theorem ReadsBack.decompose {f : Formula} (h : f.ReadsBack) {d : Decomposition}
    (rule : f.decompose = .ok d) : ∀ g ∈ d.parts, g.ReadsBack := by
  have forked : ∀ f g, (Decomposition.forked f g).parts = [f, g] := fun _ _ => rfl
  have stacked : ∀ f g, (Decomposition.stacked f g).parts = [f, g] := fun _ _ => rfl
  cases f with
  | atom t =>
      cases rule
      exact nofun
  | compound t op a b =>
      obtain ⟨⟨ha, -⟩, hb, -⟩ := h.sides
      cases op with
      | conjunction =>
          cases rule
          simp [stacked, ha, hb]
      | disjunction =>
          cases rule
          simp [forked, ha, hb]
      | conditional =>
          exact readsBack_of_mem_halves forked (fun _ => readsBack_of_read) (forall_ok_readsBack hb) rule
      | biconditional =>
          exact readsBack_of_mem_halves forked (fun _ => readsBack_of_read)
            (fun _ => readsBack_of_read) rule
  | negation t s =>
      cases s with
      | atom t' =>
          cases rule
          exact nofun
      | negation t' a =>
          cases rule
          simpa [Decomposition.parts, Decomposition.alternatives] using h.operand.1.operand.1
      | compound t' op a b =>
          obtain ⟨⟨ha, -⟩, -, -⟩ := h.operand.1.sides
          cases op with
          | conjunction =>
              exact readsBack_of_mem_halves forked (fun _ => readsBack_of_read)
                (fun _ => readsBack_of_read) rule
          | disjunction =>
              exact readsBack_of_mem_halves stacked (fun _ => readsBack_of_read)
                (fun _ => readsBack_of_read) rule
          | conditional =>
              exact readsBack_of_mem_halves stacked (forall_ok_readsBack ha)
                (fun _ => readsBack_of_read) rule
          | biconditional =>
              exact readsBack_of_mem_halves forked (fun _ => readsBack_of_read)
                (fun _ => readsBack_of_read) rule

def Parsed (f : Formula) : Prop := ∃ source, Premise.readPlain source = .ok f

theorem Parsed.readsBack {f : Formula} (h : f.Parsed) : f.ReadsBack := by
  obtain ⟨source, parsed⟩ := h
  unfold Premise.readPlain at parsed
  cases read : Formula.read source with
  | error e =>
      rw [read] at parsed
      cases parsed
  | ok g =>
      rw [read] at parsed
      cases parsed
      exact readsBack_of_read read

end Formula

namespace Tableau

/-- A tableau that plainly read premises and calls lead to, the premises of the calls being plainly read
as well. -/
def PlainlyReachable (t : Tableau) : Prop :=
  ∃ (first : Formula) (rest : List Formula) (calls : List Call),
    (∀ f ∈ first :: rest, f.Parsed) ∧ (∀ f, Call.addPremise f ∈ calls → f.Parsed) ∧
      t = (ofPremises first rest).run calls

theorem PlainlyReachable.reachable {t : Tableau} (h : t.PlainlyReachable) : t.Reachable := by
  obtain ⟨first, rest, calls, -, -, rfl⟩ := h
  exact ⟨first, rest, calls, rfl⟩

structure PlainlyBuilt (t : Tableau) : Prop where
  built : t.WellBuilt
  readable : t.AllFormulas Formula.ReadsBack

theorem PlainlyBuilt.after {t : Tableau} (h : t.PlainlyBuilt) {call : Call}
    (premise : ∀ f, call = .addPremise f → f.ReadsBack) : (t.after call).PlainlyBuilt := by
  refine ⟨h.built.after call, h.readable.after h.built ?_ premise⟩
  intro f d whole rule alternative halternative g hg
  exact whole.decompose rule g (List.mem_flatten.mpr ⟨alternative, halternative, hg⟩)

theorem plainlyBuilt_start {first : Formula} (h : first.ReadsBack) : (start first).PlainlyBuilt := by
  refine ⟨wellBuilt_start first, ?_⟩
  simpa [AllFormulas, view, start, Statement.entry, Statement.fresh] using h

theorem PlainlyReachable.invariant {t : Tableau} (h : t.PlainlyReachable) (holds : Tableau → Prop)
    (initial : ∀ first, holds (start first))
    (step : ∀ u call, u.PlainlyBuilt → holds u → holds (u.after call)) : t.PlainlyBuilt ∧ holds t := by
  obtain ⟨first, rest, calls, premises, added, rfl⟩ := h
  obtain ⟨hfirst, hrest⟩ := List.forall_mem_cons.mp premises
  have run : ∀ u : Tableau, ∀ calls : List Call, u.PlainlyBuilt ∧ holds u →
      (∀ f, Call.addPremise f ∈ calls → f.Parsed) →
      (u.run calls).PlainlyBuilt ∧ holds (u.run calls) := by
    intro u calls now parsed
    refine run_invariant (fun v => v.PlainlyBuilt ∧ holds v) now ?_
    rintro v call hcall ⟨built, h⟩
    refine ⟨built.after ?_, step v call built h⟩
    rintro f rfl
    exact (parsed f hcall).readsBack
  rw [ofPremises_eq_run]
  refine run _ calls (run _ _ ⟨plainlyBuilt_start hfirst.readsBack, initial first⟩ ?_) added
  exact fun f hf => hrest f (addPremise_mem_map_iff.mp hf)

end Tableau

end TruthTree
