import TruthTree.Proofs.Run

/-! Runs over premises that are read strictly. A request gives one more premise by its text; a text that
the strict reading rejects leaves the tableau as it is. In such a run every formula in the tree is
strict, so the rules always apply to it. -/
namespace TruthTree

inductive Request where
  | perform (operation : Operation)
  | addPremise (source : Text)
  deriving DecidableEq

namespace Request

def premise? : Request → Option Formula
  | perform _ => none
  | addPremise source => (Premise.readStrict source).toOption

def call? : Request → Option Call
  | perform operation => some (.perform operation)
  | addPremise source => (Premise.readStrict source).toOption.map .addPremise

theorem mem_premises_of_mem_calls {requests : List Request} {f : Formula}
    (h : Call.addPremise f ∈ requests.filterMap call?) : f ∈ requests.filterMap premise? := by
  obtain ⟨request, hrequest, call⟩ := List.mem_filterMap.mp h
  refine List.mem_filterMap.mpr ⟨request, hrequest, ?_⟩
  cases request with
  | perform operation => simp [call?] at call
  | addPremise source => simpa [call?, premise?] using call

theorem strict_of_mem_premises {requests : List Request} {f : Formula}
    (h : f ∈ requests.filterMap premise?) : f.Strict := by
  obtain ⟨request, -, premise⟩ := List.mem_filterMap.mp h
  cases request with
  | perform operation => cases premise
  | addPremise source =>
      apply Premise.strict_readStrict (t := source)
      cases read : Premise.readStrict source with
      | error e => simp [premise?, read, Except.toOption] at premise
      | ok g => simpa [premise?, read, Except.toOption] using premise

end Request

namespace Tableau

def serve (t : Tableau) (requests : List Request) : Tableau := t.run (requests.filterMap Request.call?)

def AllStrict (t : Tableau) : Prop := ∀ b ∈ t.view, ∀ e ∈ b.path, e.formula.Strict

theorem AllStrict.above {t : Tableau} (h : t.AllStrict) (numbered : t.Numbered) {p : Place}
    (hp : p ∈ t.places) {s : Statement} (hs : s ∈ p.statement :: p.above) : s.formula.Strict :=
  AllFormulas.above h numbered hp hs

theorem AllStrict.after {t : Tableau} (h : t.AllStrict) (built : t.WellBuilt) {call : Call}
    (premise : ∀ f, call = .addPremise f → f.Strict) : (t.after call).AllStrict := by
  refine AllFormulas.after h built ?_ premise
  intro f d strict rule alternative halternative g hg
  exact strict.of_mem_alternatives rule halternative hg

structure StrictlyBuilt (t : Tableau) : Prop where
  built : t.WellBuilt
  strict : t.AllStrict

theorem StrictlyBuilt.after {t : Tableau} (h : t.StrictlyBuilt) {call : Call}
    (premise : ∀ f, call = .addPremise f → f.Strict) : (t.after call).StrictlyBuilt :=
  ⟨h.built.after call, h.strict.after h.built premise⟩

theorem strict_run_invariant (holds : Tableau → Prop) {t : Tableau} {calls : List Call}
    (sound : t.StrictlyBuilt) (start : holds t)
    (premises : ∀ f, Call.addPremise f ∈ calls → f.Strict)
    (step : ∀ u, ∀ call ∈ calls, u.StrictlyBuilt → holds u → holds (u.after call)) :
    (t.run calls).StrictlyBuilt ∧ holds (t.run calls) := by
  refine run_invariant (fun u => u.StrictlyBuilt ∧ holds u) ⟨sound, start⟩ ?_
  rintro u call hcall ⟨sound, h⟩
  refine ⟨sound.after ?_, step u call hcall sound h⟩
  rintro f rfl
  exact premises f hcall

theorem strictlyBuilt_run {t : Tableau} (h : t.StrictlyBuilt) {calls : List Call}
    (premises : ∀ f, Call.addPremise f ∈ calls → f.Strict) : (t.run calls).StrictlyBuilt :=
  (strict_run_invariant (fun _ => True) h trivial premises fun _ _ _ _ _ => trivial).1

theorem strictlyBuilt_start {first : Formula} (h : first.Strict) : (start first).StrictlyBuilt := by
  refine ⟨wellBuilt_start first, ?_⟩
  simpa [AllStrict, view, start, Statement.entry, Statement.fresh] using h

theorem strictlyBuilt_ofPremises {first : Formula} {rest : List Formula}
    (strict : ∀ f ∈ first :: rest, f.Strict) : (ofPremises first rest).StrictlyBuilt := by
  obtain ⟨hfirst, hrest⟩ := List.forall_mem_cons.mp strict
  rw [ofPremises_eq_run]
  apply strictlyBuilt_run (strictlyBuilt_start hfirst)
  exact fun f hf => hrest f (addPremise_mem_map_iff.mp hf)

theorem ofTexts_eq_ok {strict : Bool} {sources : List Text} {t : Tableau}
    (h : ofTexts strict sources = .ok t) :
    ∃ first rest, Premise.readAll strict sources = .ok (first :: rest) ∧ t = ofPremises first rest := by
  unfold ofTexts at h
  split at h
  · cases h
  · next premises read =>
      cases premises with
      | nil => cases h
      | cons first rest => exact ⟨first, rest, read, (Except.ok.inj h).symm⟩

theorem strictlyBuilt_ofTexts {sources : List Text} {t : Tableau}
    (h : ofTexts true sources = .ok t) : t.StrictlyBuilt := by
  obtain ⟨first, rest, read, rfl⟩ := ofTexts_eq_ok h
  exact strictlyBuilt_ofPremises (Premise.strict_readAll read)

theorem strictlyBuilt_serve {t : Tableau} (h : t.StrictlyBuilt) (requests : List Request) :
    (t.serve requests).StrictlyBuilt :=
  strictlyBuilt_run h fun _ hf =>
    Request.strict_of_mem_premises (Request.mem_premises_of_mem_calls hf)

end Tableau

end TruthTree
