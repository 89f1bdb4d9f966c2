import TruthTree.Proofs.RemainingWork
import TruthTree.Proofs.Saturation

/-! An open verdict comes with models. When a tableau is done and not closed, each open branch is
saturated and free of contradictions, so it describes a valuation under which everything on it is
true. -/
namespace TruthTree

namespace Branch

def valuation (b : Branch) (name : Text) : Bool := decide (Formula.atom name ∈ b.formulas)

/-- Nothing on the branch contradicts anything else, and all that can be expanded is resolved. -/
structure Complete (b : Branch) : Prop where
  strict : ∀ f ∈ b.formulas, f.Strict
  consistent : ∀ f ∈ b.formulas, ∀ g ∈ b.formulas, f.contradicts g = false
  resolved : ∀ f ∈ b.formulas, f.canExpand = true → b.Resolves f

theorem Complete.holds_literal {b : Branch} (h : b.Complete) {s : Sentence}
    (mem : Formula.ofSentence s ∈ b.formulas) (literal : (Formula.ofSentence s).canExpand = false) :
    s.holds b.valuation = true := by
  cases s with
  | compound op a c => cases literal
  | atom name => simpa [Sentence.holds, valuation, Formula.ofSentence] using mem
  | negation a =>
      cases a with
      | negation a => cases literal
      | compound op a c => cases literal
      | atom name =>
          have absent : Formula.atom name ∉ b.formulas := by
            intro present
            have consistent := h.consistent _ mem _ present
            simp [Formula.ofSentence, Formula.contradicts, Formula.negates, Formula.text] at consistent
          simpa [Sentence.holds, valuation] using absent

theorem Complete.holds_sentence {b : Branch} (h : b.Complete) {s : Sentence}
    (mem : Formula.ofSentence s ∈ b.formulas) : s.holds b.valuation = true := by
  -- By induction on the weight, since a biconditional is resolved by formulas that are not its
  -- parts.
  induction weight : s.weight using Nat.strongRecOn generalizing s with
  | ind n ih =>
      cases expandable : (Formula.ofSentence s).canExpand with
      | false => exact h.holds_literal mem expandable
      | true =>
          have strict := h.strict _ mem
          have rule := Formula.decompose_ofSentence strict.plain
          obtain ⟨alternative, halternative, within⟩ := h.resolved _ mem expandable _ rule
          rw [← Formula.holds_ofSentence, strict.holds_iff_alternative b.valuation rule expandable]
          refine ⟨alternative, halternative, fun g hg => ?_⟩
          obtain ⟨a, rfl, lighter, -⟩ := Sentence.lighter_of_mem_alternatives halternative hg
          rw [Formula.holds_ofSentence]
          exact ih a.weight (weight ▸ lighter) (within hg) rfl

theorem Complete.holds {b : Branch} (h : b.Complete) {f : Formula} (hf : f ∈ b.formulas) :
    f.holds b.valuation = true := by
  obtain ⟨s, -, rfl⟩ := h.strict f hf
  rw [Formula.holds_ofSentence]
  exact h.holds_sentence hf

end Branch

namespace Tableau

theorem opened_of_passes {t : Tableau} (h : t.WellBuilt) {b : Branch} (hb : b ∈ t.view)
    (opened : b.closed = false) {p : Place} (hp : p ∈ t.places)
    (passes : b.passes p.statement.number = true) : p.statement.closed = false := by
  rw [← Bool.not_eq_true, closed_iff_view h.coherent h.numbered.nodup hp]
  intro closed
  exact absurd (closed b hb passes) (ne_true_of_eq_false opened)

theorem consistent_of_no_conflict {t : Tableau} (sound : t.StrictlyBuilt)
    (conflicts : ∀ p ∈ t.places, ¬p.Conflicting) {b : Branch} (hb : b ∈ t.view)
    (opened : b.closed = false) {f g : Formula} (hf : f ∈ b.formulas) (hg : g ∈ b.formulas) :
    f.contradicts g = false := by
  -- An open branch goes through open places only, none of which has a conflict.
  have apart : ∀ p ∈ t.places, p.statement.entry ∈ b.path → ∀ s ∈ p.above,
      p.statement.formula.contradicts s.formula = false := by
    intro p hp onBranch s hs
    have passes := Branch.passes_iff.mpr ⟨_, onBranch, rfl⟩
    have opened := opened_of_passes sound.built hb opened hp passes
    rw [← Bool.not_eq_true]
    exact fun contradiction => conflicts p hp ⟨opened, s, hs, contradiction⟩
  have strict := fun e he => sound.strict b hb e he
  obtain ⟨path, hpath, rfl⟩ := List.mem_map.mp hb
  simp only [Branch.formulas, Branch.path_ofStatements, List.map_map, List.mem_map] at hf hg
  obtain ⟨s, hs, rfl⟩ := hf
  obtain ⟨s', hs', rfl⟩ := hg
  rcases Tree.aligned_of_mem_branch hpath hs hs' with rfl | ⟨p, hp, rfl, above⟩ | ⟨p, hp, rfl, above⟩
  · exact (strict _ (List.mem_map_of_mem hs)).not_contradicts_self
  · exact apart p hp (List.mem_map_of_mem hs) s' above
  · rw [contradicts_comm]
    exact apart p hp (List.mem_map_of_mem hs') s above

theorem resolves_of_no_pending {t : Tableau} (built : t.WellBuilt) (saturated : t.Saturated)
    (pending : ∀ p ∈ t.places, p.statement.isPending = false) {b : Branch} (hb : b ∈ t.view)
    (opened : b.closed = false) {f : Formula} (hf : f ∈ b.formulas) (expandable : f.canExpand = true) :
    b.Resolves f := by
  obtain ⟨e, he, rfl⟩ := List.mem_map.mp hf
  obtain ⟨s, hs, rfl⟩ := exists_statement_of_mem_path hb he
  obtain ⟨p, hp, rfl⟩ := exists_place_of_mem_statements hs
  have opened' := opened_of_passes built hb opened hp (Branch.passes_iff.mpr ⟨_, he, rfl⟩)
  have expanded : p.statement.expanded = true := by
    have settled := pending p hp
    rw [Statement.isPending, opened'] at settled
    simpa [show p.statement.formula.canExpand = true from expandable] using settled
  exact saturated b hb opened _ he (Tree.mem_marks_iff.mpr ⟨_, hs, expanded, rfl⟩)

theorem complete_of_done {t : Tableau} (sound : t.StrictlyBuilt) (saturated : t.Saturated)
    (verdict : t.status = .stillOpen) {b : Branch} (hb : b ∈ t.view) (opened : b.closed = false) :
    b.Complete := by
  obtain ⟨root, done⟩ := status_eq_stillOpen_iff.mp verdict
  obtain ⟨pending, conflicts⟩ := (isDone_iff.mp done).resolve_left (by simp [root])
  refine ⟨?_, ?_, ?_⟩
  · intro f hf
    obtain ⟨e, he, rfl⟩ := List.mem_map.mp hf
    exact sound.strict b hb e he
  · exact fun f hf g hg => consistent_of_no_conflict sound conflicts hb opened hf hg
  · exact fun f hf => resolves_of_no_pending sound.built saturated pending hb opened hf

theorem view_foldl_addPremise {t : Tableau} {path : List Entry} (h : t.view = [⟨path, false⟩])
    (premises : List Formula) :
    ∃ more, (premises.foldl addPremise t).view = [⟨path ++ more, false⟩] ∧
      more.map Entry.formula = premises := by
  induction premises generalizing t path with
  | nil => exact ⟨[], by simpa using h, rfl⟩
  | cons f premises ih =>
      have added : (t.addPremise f).view = [⟨path ++ [⟨t.next, f⟩], false⟩] := by
        have first := Tree.view_addPremise t.next f t.tree
        rw [show t.tree.view = _ from h] at first
        exact first
      obtain ⟨more, single, formulas⟩ := ih added
      refine ⟨⟨t.next, f⟩ :: more, ?_, by simp [formulas]⟩
      simpa using single

theorem premises_subset_ofPremises {first : Formula} {rest : List Formula} {b : Branch}
    (hb : b ∈ (ofPremises first rest).view) : first :: rest ⊆ b.formulas := by
  obtain ⟨more, single, formulas⟩ := view_foldl_addPremise (t := start first) rfl rest
  rw [ofPremises, single, List.mem_singleton] at hb
  subst hb
  simp [Branch.formulas, formulas, Statement.entry, Statement.fresh]

theorem subset_formulas_run {t : Tableau} (built : t.WellBuilt) {premises : List Formula}
    (h : ∀ b ∈ t.view, premises ⊆ b.formulas) (calls : List Call) :
    ∀ b ∈ (t.run calls).view, premises ⊆ b.formulas := by
  refine built.run_invariant (fun u => ∀ b ∈ u.view, premises ⊆ b.formulas) h ?_ calls
  intro u call built h c hc
  obtain ⟨b, hb, new, path, -, -⟩ := (change_after built.numbered call).origin built.coherent hc
  rw [Branch.formulas, path, List.map_append]
  exact List.Subset.trans (h b hb) (List.subset_append_left _ _)

/-- An open verdict comes with models: there is an open branch, and on every open branch everything is
true when just the atoms on it are. So the premises given at the start can hold together. -/
theorem open_branches_are_models {sources : List Text} {premises : List Formula} {t : Tableau}
    (read : Premise.readAll true sources = .ok premises) (built : ofTexts true sources = .ok t)
    (requests : List Request) (verdict : (t.serve requests).status = .stillOpen) :
    (∃ b ∈ (t.serve requests).view, b.closed = false) ∧
      (∀ b ∈ (t.serve requests).view, b.closed = false →
        ∀ e ∈ b.path, e.formula.holds b.valuation = true) ∧
      ∃ valuation : Text → Bool, ∀ f ∈ premises, f.holds valuation = true := by
  obtain ⟨first, rest, read', rfl⟩ := ofTexts_eq_ok built
  obtain rfl := Except.ok.inj (read.symm.trans read')
  have start := strictlyBuilt_ofPremises (Premise.strict_readAll read)
  have sound := strictlyBuilt_serve start requests
  have saturated := saturated_run (saturated_ofPremises first rest) start.built
    (requests.filterMap Request.call?)
  have complete := fun b hb => complete_of_done (b := b) sound saturated verdict hb
  have opened : ∃ b ∈ ((ofPremises first rest).serve requests).view, b.closed = false := by
    have root := (status_eq_stillOpen_iff.mp verdict).1
    rw [← Bool.not_eq_true, Tableau.root, sound.built.coherent.root_closed_iff] at root
    simpa [view] using root
  refine ⟨opened, ?_, ?_⟩
  · exact fun b hb opened e he => (complete b hb opened).holds (List.mem_map_of_mem he)
  · obtain ⟨b, hb, opened⟩ := opened
    have within := subset_formulas_run start.built (fun c hc => premises_subset_ofPremises hc) _ b hb
    exact ⟨b.valuation, fun f hf => (complete b hb opened).holds (within hf)⟩

-- A disjunction, expanded, with the denial of its left side: the left branch is closed, and the
-- right one describes the valuation under which only the right side is true.
theorem open_branches_are_models_disjunction :
    let sources := ["(or P Q)".toList, "(not P)".toList]
    let either := Formula.ofSentence (.compound .disjunction (.atom ['P']) (.atom ['Q']))
    let denial := Formula.ofSentence (.negation (.atom ['P']))
    let t := ofPremises either [denial]
    let requests := [.perform (.expand 1), .perform (.close 3 2), .addPremise ['R']]
    let left : Branch :=
      ⟨[⟨1, either⟩, ⟨2, denial⟩, ⟨3, .atom ['P']⟩, ⟨5, .atom ['R']⟩], true⟩
    let right : Branch := ⟨[⟨1, either⟩, ⟨2, denial⟩, ⟨4, .atom ['Q']⟩], false⟩
    Premise.readAll true sources = .ok [either, denial] ∧ ofTexts true sources = .ok t ∧
      (t.serve requests).status = .stillOpen ∧ (t.serve requests).view = [left, right] ∧
      (∃ b ∈ (t.serve requests).view, b.closed = false) ∧
      (∀ e ∈ right.path, e.formula.holds right.valuation = true) ∧
      ∃ valuation : Text → Bool, ∀ f ∈ [either, denial], f.holds valuation = true := by
  intro sources either denial t requests left right
  have read : Premise.readAll true sources = .ok [either, denial] := by cbv
  have built : ofTexts true sources = .ok t := by cbv
  have verdict : (t.serve requests).status = .stillOpen := by cbv
  have view : (t.serve requests).view = [left, right] := by cbv
  obtain ⟨opened, models, satisfiable⟩ := open_branches_are_models read built requests verdict
  refine ⟨read, built, verdict, view, opened, models right ?_ rfl, satisfiable⟩
  rw [view]
  simp

end Tableau

end TruthTree
