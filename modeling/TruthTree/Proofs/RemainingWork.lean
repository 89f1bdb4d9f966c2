import TruthTree.Proofs.Refinement
import TruthTree.Proofs.StrictRun
import TruthTree.Tableau.Completion

/-! What is left to do. A tableau is done just when no operation makes progress: no expansion adds a
statement and no closure closes an open one. -/
namespace TruthTree

def Place.Conflicting (p : Place) : Prop :=
  p.statement.closed = false ∧ ∃ s ∈ p.above, p.statement.formula.contradicts s.formula = true

namespace Tableau

theorem mem_listing_iff {t : Tableau} {p : Place} : p ∈ t.listing ↔ p ∈ t.places :=
  (List.mergeSort_perm _ _).mem_iff

theorem pendingExpansion?_eq_none_iff {t : Tableau} :
    t.pendingExpansion? = none ↔ ∀ p ∈ t.places, p.statement.isPending = false := by
  simp [pendingExpansion?, mem_listing_iff]

theorem conflict?_eq_none_iff {p : Place} : conflict? p = none ↔ ¬p.Conflicting := by
  unfold conflict? Place.Conflicting
  split
  · next closed => simp [closed]
  · next opened => simp [opened]

theorem pendingClosure?_eq_none_iff {t : Tableau} :
    t.pendingClosure? = none ↔ ∀ p ∈ t.places, ¬p.Conflicting := by
  simp [pendingClosure?, mem_listing_iff, conflict?_eq_none_iff]

theorem isDone_iff {t : Tableau} :
    t.isDone = true ↔ t.root.closed = true ∨
      (∀ p ∈ t.places, p.statement.isPending = false) ∧ ∀ p ∈ t.places, ¬p.Conflicting := by
  rw [← pendingExpansion?_eq_none_iff, ← pendingClosure?_eq_none_iff, isDone, remaining?,
    Option.isNone_iff_eq_none]
  split
  · next closed => simp [closed]
  · next opened =>
      split
      · next pending => simp [opened, pending]
      · next pending => simp [opened, pending]

theorem status_eq_closed_iff {t : Tableau} : t.status = .closed ↔ t.root.closed = true := by
  unfold status
  split
  · next closed => simp [closed]
  · next opened => split <;> simp [opened]

theorem status_eq_stillOpen_iff {t : Tableau} :
    t.status = .stillOpen ↔ t.root.closed = false ∧ t.isDone = true := by
  unfold status
  split
  · next closed => simp [closed]
  · next opened => split <;> simp_all

theorem closed_of_root_closed {t : Tableau} (h : t.WellBuilt) (closed : t.root.closed = true)
    {p : Place} (hp : p ∈ t.places) : p.statement.closed = true := by
  have all := h.coherent.root_closed_iff.mp closed
  exact (closed_iff_view h.coherent h.numbered.nodup hp).mpr fun b hb _ => all b hb

theorem size_lt_expandAt_iff {t : Tableau} (h : t.WellBuilt) {p : Place} (hp : p ∈ t.places)
    {d : Decomposition} (proper : d ≠ .literal) :
    t.size < (t.tree.expandAt p.statement.number d t.next).1.size ↔ p.statement.closed = false := by
  have size : t.size < (t.tree.expandAt p.statement.number d t.next).1.size ↔
      t.next < (t.tree.expandAt p.statement.number d t.next).2 := by
    obtain ⟨count, free, new⟩ := Tree.numbered_expandAt p.statement.number d t.next t.tree
    have lengths := new.length_eq
    rw [List.length_append, Tree.length_numbers, Tree.length_numbers, List.length_range'] at lengths
    rw [free, lengths, Tableau.size]
    omega
  rw [size, Tree.next_expandAt h.coherent, Branch.expandThrough, Branch.next_lt_extendWhere_iff proper,
    ← Bool.not_eq_true, closed_iff_view h.coherent h.numbered.nodup hp]
  simp [Branch.openThrough, view, and_comm]

theorem exists_expansion_iff {t : Tableau} (h : t.StrictlyBuilt) :
    (∃ number u, t.expand number = (u, .accepted) ∧ t.size < u.size) ↔
      ∃ p ∈ t.places, p.statement.isPending = true := by
  have unique := h.built.numbered.nodup
  constructor
  · rintro ⟨number, u, accepted, grown⟩
    obtain ⟨target, d, ok, rfl⟩ := expand_eq_accepted_iff.mp accepted
    obtain ⟨p, found, rfl, fresh, rule, proper⟩ := expansion_eq_ok_iff.mp ok
    obtain ⟨hp, -⟩ := (place?_eq_some_iff unique).mp found
    have opened := (size_lt_expandAt_iff h.built hp proper).mp grown
    have expandable := (Formula.decompose_proper_iff rule).mp proper
    exact ⟨p, hp, by simp [Statement.isPending, opened, fresh, expandable]⟩
  · rintro ⟨p, hp, pending⟩
    simp only [Statement.isPending, Bool.and_eq_true, Bool.not_eq_true'] at pending
    obtain ⟨⟨opened, expandable⟩, fresh⟩ := pending
    obtain ⟨d, rule⟩ := (h.strict.above h.built.numbered hp List.mem_cons_self).exists_decompose
    have proper := (Formula.decompose_proper_iff rule).mpr expandable
    have found := (place?_eq_some_iff unique).mpr ⟨hp, rfl⟩
    have ok := expansion_eq_ok_iff.mpr ⟨p, found, rfl, fresh, rule, proper⟩
    refine ⟨p.statement.number, _, expand_eq_accepted_iff.mpr ⟨_, d, ok, rfl⟩, ?_⟩
    exact (size_lt_expandAt_iff h.built hp proper).mpr opened

/-- Some statement that is open in the first tableau is closed in the second. -/
def NewlyClosed (t u : Tableau) : Prop :=
  ∃ p ∈ t.places, ∃ q ∈ u.places, p.statement.number = q.statement.number ∧
    p.statement.closed = false ∧ q.statement.closed = true

theorem newlyClosed_closeAt_iff {t u : Tableau} (h : t.WellBuilt) {p : Place} (hp : p ∈ t.places)
    (tree : u.tree = t.tree.closeAt p.statement.number) :
    NewlyClosed t u ↔ p.statement.closed = false := by
  have unique := h.numbered.nodup
  have coherent : u.tree.Coherent := tree ▸ h.coherent.closeAt _
  have numbers : u.tree.numbers = t.tree.numbers := by rw [tree, Tree.numbers_closeAt]
  have unique' : u.tree.numbers.Nodup := numbers ▸ unique
  have closing : u.view = Branch.closeThrough p.statement.number t.view := by
    rw [view, tree, Tree.view_closeAt]
    rfl
  constructor
  · rintro ⟨x, hx, y, hy, same, opened, closed⟩
    rw [← Bool.not_eq_true, closed_iff_view h.coherent unique hp]
    intro all
    -- All branches through it were closed already, so no branch has changed.
    rw [Branch.closeThrough_eq_self all] at closing
    have still := (closed_iff_view coherent unique' hy).mp closed
    rw [closing, ← same, ← closed_iff_view h.coherent unique hx, opened] at still
    cases still
  · intro opened
    have number := Tree.number_mem_of_mem_places hp
    rw [← numbers] at number
    obtain ⟨s, hs, same⟩ := List.mem_map.mp number
    obtain ⟨q, hq, rfl⟩ := exists_place_of_mem_statements hs
    refine ⟨p, hp, q, hq, same.symm, opened, ?_⟩
    rw [closed_iff_view coherent unique' hq, closing, same]
    exact fun b hb passes => Branch.closed_of_mem_closeThrough hb passes

theorem exists_closure_iff {t : Tableau} (h : t.StrictlyBuilt) :
    (∃ first second u, t.close first second = (u, .accepted) ∧ NewlyClosed t u) ↔
      ∃ p ∈ t.places, p.Conflicting := by
  have numbered := h.built.numbered
  constructor
  · rintro ⟨first, second, u, accepted, new⟩
    obtain ⟨target, ok, rfl⟩ := close_eq_accepted_iff.mp accepted
    obtain ⟨p, s, hp, rfl, -, -, above, contradiction⟩ := closure_eq_ok numbered ok
    refine ⟨p, hp, (newlyClosed_closeAt_iff h.built hp rfl).mp new, s, ?_, contradiction⟩
    rcases List.mem_cons.mp above with rfl | above
    · have strict := h.strict.above numbered hp List.mem_cons_self
      rw [strict.not_contradicts_self] at contradiction
      cases contradiction
    · exact above
  · rintro ⟨p, hp, opened, s, hs, contradiction⟩
    have ok := h.built.closure_above hp hs contradiction
    refine ⟨_, _, _, close_eq_accepted_iff.mpr ⟨_, ok, rfl⟩, ?_⟩
    exact (newlyClosed_closeAt_iff h.built hp rfl).mpr opened

/-- A tableau that premises and requests lead to, all premises read strictly. -/
def StrictlyReachable (t : Tableau) : Prop :=
  ∃ sources start requests, ofTexts true sources = .ok start ∧ t = start.serve requests

theorem StrictlyReachable.reachable {t : Tableau} (h : t.StrictlyReachable) : t.Reachable := by
  obtain ⟨sources, start, requests, built, rfl⟩ := h
  obtain ⟨first, rest, -, rfl⟩ := ofTexts_eq_ok built
  exact ⟨first, rest, _, rfl⟩

theorem StrictlyReachable.strictlyBuilt {t : Tableau} (h : t.StrictlyReachable) :
    t.StrictlyBuilt := by
  obtain ⟨sources, start, requests, built, rfl⟩ := h
  exact strictlyBuilt_serve (strictlyBuilt_ofTexts built) requests

/-- A tableau is done just when no expansion adds a statement and no closure closes an open one. -/
theorem isDone_iff_no_progress {t : Tableau} (h : t.StrictlyReachable) :
    t.isDone = true ↔
      (¬∃ number u, t.expand number = (u, .accepted) ∧ t.size < u.size) ∧
      ¬∃ first second u, t.close first second = (u, .accepted) ∧ NewlyClosed t u := by
  have sound := h.strictlyBuilt
  rw [exists_expansion_iff sound, exists_closure_iff sound, isDone_iff]
  constructor
  · rintro (closed | ⟨pending, conflicting⟩)
    · constructor
      · rintro ⟨p, hp, pending⟩
        have closed := closed_of_root_closed sound.built closed hp
        simp [Statement.isPending, closed] at pending
      · rintro ⟨p, hp, opened, -⟩
        have closed := closed_of_root_closed sound.built closed hp
        exact absurd closed (ne_true_of_eq_false opened)
    · constructor
      · rintro ⟨p, hp, h⟩
        exact absurd h (ne_true_of_eq_false (pending p hp))
      · rintro ⟨p, hp, h⟩
        exact conflicting p hp h
  · rintro ⟨pending, conflicting⟩
    refine .inr ⟨fun p hp => ?_, fun p hp h => conflicting ⟨p, hp, h⟩⟩
    rw [← Bool.not_eq_true]
    exact fun h => pending ⟨p, hp, h⟩

-- A disjunction, expanded, with the denial of its left side: there is a closure left, and after it
-- nothing.
theorem no_progress_disjunction :
    let either := Formula.ofSentence (.compound .disjunction (.atom ['P']) (.atom ['Q']))
    let denial := Formula.ofSentence (.negation (.atom ['P']))
    let t := (ofPremises either [denial]).serve [.perform (.expand 1)]
    let u := (ofPremises either [denial]).serve [.perform (.expand 1), .perform (.close 3 2)]
    t.StrictlyReachable ∧ t.isDone = false ∧
      ¬((¬∃ number v, t.expand number = (v, .accepted) ∧ t.size < v.size) ∧
        ¬∃ first second v, t.close first second = (v, .accepted) ∧ NewlyClosed t v) ∧
      u.StrictlyReachable ∧ u.isDone = true ∧
      (¬∃ number v, u.expand number = (v, .accepted) ∧ u.size < v.size) ∧
      ¬∃ first second v, u.close first second = (v, .accepted) ∧ NewlyClosed u v := by
  intro either denial t u
  have built : ofTexts true ["(or P Q)".toList, "(not P)".toList] = .ok (ofPremises either [denial]) := by
    cbv
  have before : t.StrictlyReachable := ⟨_, _, _, built, rfl⟩
  have after : u.StrictlyReachable := ⟨_, _, _, built, rfl⟩
  have unfinished : t.isDone = false := by cbv
  have done : u.isDone = true := by cbv
  refine ⟨before, unfinished, ?_, after, done, (isDone_iff_no_progress after).mp done⟩
  rw [← isDone_iff_no_progress before, unfinished]
  simp

end Tableau

end TruthTree
