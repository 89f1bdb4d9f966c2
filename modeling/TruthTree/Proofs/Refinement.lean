import TruthTree.Proofs.Run

/-! The tree keeps the list of branches that one would keep on paper. Every operation on it acts on that
list as the textbook says, from every tableau that any premises and any calls lead to. -/
namespace TruthTree

namespace Tableau

/-- The tableau of some premises after some calls. -/
def Reachable (t : Tableau) : Prop :=
  ∃ (first : Formula) (rest : List Formula) (calls : List Call), t = (ofPremises first rest).run calls

theorem Reachable.wellBuilt {t : Tableau} (h : t.Reachable) : t.WellBuilt := by
  obtain ⟨first, rest, calls, rfl⟩ := h
  rw [ofPremises_eq_run]
  exact ((wellBuilt_start first).run _).run calls

theorem view_expand {t u : Tableau} (h : t.WellBuilt) {number : Int}
    (accepted : t.expand number = (u, .accepted)) :
    ∃ p d, p ∈ t.places ∧ (p.statement.number : Int) = number ∧
      p.statement.formula.decompose = .ok d ∧ d ≠ .literal ∧
      (u.view, u.next) = Branch.expandThrough p.statement.number d t.next t.view := by
  obtain ⟨target, d, ok, rfl⟩ := expand_eq_accepted_iff.mp accepted
  obtain ⟨p, found, rfl, -, rule, proper⟩ := expansion_eq_ok_iff.mp ok
  obtain ⟨hp, same⟩ := (place?_eq_some_iff h.numbered.nodup).mp found
  exact ⟨p, d, hp, same, rule, proper, (Tree.expandThrough_view h.coherent _ _ _).symm⟩

theorem view_close {t u : Tableau} (h : t.WellBuilt) {first second : Int}
    (accepted : t.close first second = (u, .accepted)) :
    ∃ p ∈ t.places, (p.statement.number : Int) = max first second ∧
      u.view = Branch.closeThrough p.statement.number t.view ∧ u.next = t.next := by
  obtain ⟨target, ok, rfl⟩ := close_eq_accepted_iff.mp accepted
  obtain ⟨p, s, hp, rfl, lower, -⟩ := closure_eq_ok h.numbered ok
  exact ⟨p, hp, lower, Tree.view_closeAt _ t.tree, rfl⟩

theorem view_addPremise (t : Tableau) (formula : Formula) :
    ∃ b rest, t.view = b :: rest ∧
      (t.addPremise formula).view = b.extend [⟨t.next, formula⟩] :: rest ∧
      (t.addPremise formula).next = t.next + 1 := by
  obtain ⟨b, rest, view⟩ := List.exists_cons_of_ne_nil t.tree.view_ne_nil
  refine ⟨b, rest, view, ?_, rfl⟩
  rw [Tableau.view, addPremise, Tree.view_addPremise, view]
  rfl

/-- The tree refines the list of its branches. An accepted expansion extends, in place and from left to
right, the open branches through the statement, and hands out the next free numbers in that order. An
accepted closure closes the branches through the lower statement. A premise extends the first branch.
A statement is closed just when all branches through it are. -/
theorem reachable_refines_branches {t : Tableau} (h : t.Reachable) :
    (∀ (number : Int) (u : Tableau), t.expand number = (u, .accepted) →
      ∃ p d, p ∈ t.places ∧ (p.statement.number : Int) = number ∧
        p.statement.formula.decompose = .ok d ∧ d ≠ .literal ∧
        p.statement.formula.branches = d.isForked ∧
        (u.view, u.next) = Branch.expandThrough p.statement.number d t.next t.view) ∧
    (∀ (first second : Int) (u : Tableau), t.close first second = (u, .accepted) →
      ∃ p ∈ t.places, (p.statement.number : Int) = max first second ∧
        u.view = Branch.closeThrough p.statement.number t.view ∧ u.next = t.next) ∧
    (∀ formula : Formula, ∃ b rest, t.view = b :: rest ∧
      (t.addPremise formula).view = b.extend [⟨t.next, formula⟩] :: rest ∧
      (t.addPremise formula).next = t.next + 1) ∧
    (∀ b ∈ t.view, ∀ e ∈ b.path, e.number < t.next) ∧
    ∀ p ∈ t.places, p.statement.closed = true ↔
      ∀ b ∈ t.view, b.passes p.statement.number = true → b.closed = true := by
  have built := h.wellBuilt
  refine ⟨?_, fun _ _ _ => view_close built, t.view_addPremise, ?_, ?_⟩
  · intro number u accepted
    obtain ⟨p, d, hp, same, rule, proper, branches⟩ := view_expand built accepted
    exact ⟨p, d, hp, same, rule, proper, Formula.branches_eq_isForked rule, branches⟩
  · intro b hb e he
    exact number_lt_next built.numbered hb he
  · intro p hp
    exact closed_iff_view built.coherent built.numbered.nodup hp

-- A disjunction, the denial of its left side and a conjunction. With the disjunction expanded, a
-- closure closes the first of two branches; the conjunction is then expanded on the second branch
-- only.
theorem refines_branches_disjunction :
    let p : Sentence := .atom ['P']
    let q : Sentence := .atom ['Q']
    let start := ofPremises (.ofSentence (.compound .disjunction p q))
      [.ofSentence (.negation p), .ofSentence (.compound .conjunction q p)]
    let t := start.run [.perform (.expand 1)]
    let u := start.run [.perform (.expand 1), .perform (.close 4 2)]
    let v := start.run [.perform (.expand 1), .perform (.close 4 2), .perform (.expand 3)]
    t.Reachable ∧ t.close 4 2 = (u, .accepted) ∧
      (∃ m ∈ t.places, (m.statement.number : Int) = max 4 2 ∧
        u.view = Branch.closeThrough m.statement.number t.view ∧ u.next = t.next) ∧
      u.view.map Branch.closed = [true, false] ∧
      u.Reachable ∧ u.expand 3 = (v, .accepted) ∧
      (∃ m d, m ∈ u.places ∧ (m.statement.number : Int) = 3 ∧
        m.statement.formula.decompose = .ok d ∧ d ≠ .literal ∧
        m.statement.formula.branches = d.isForked ∧
        (v.view, v.next) = Branch.expandThrough m.statement.number d u.next u.view) ∧
      v.view.map (·.path.map Entry.number) = [[1, 2, 3, 4], [1, 2, 3, 5, 6, 7]] := by
  intro p q start t u v
  have before : t.Reachable := ⟨_, _, _, rfl⟩
  have after : u.Reachable := ⟨_, _, _, rfl⟩
  have closing : t.close 4 2 = (u, .accepted) := by cbv
  have expanding : u.expand 3 = (v, .accepted) := by cbv
  exact ⟨before, closing, (reachable_refines_branches before).2.1 4 2 u closing, by cbv,
    after, expanding, (reachable_refines_branches after).1 3 v expanding, by cbv⟩

end Tableau

end TruthTree
