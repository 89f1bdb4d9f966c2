import TruthTree.Proofs.TextIdentity

/-! When a closure is accepted. The test takes the two statements in the order of their numbers and goes up
from the lower one. What it finds out is whether the two stand on one branch and contradict each other, so
the order in which they are named makes no difference, and a closure that has been accepted is accepted
again and does nothing more. -/
namespace TruthTree

@[simp] theorem Statement.closeIf_closeIf (s : Statement) (condition : Bool) :
    (s.closeIf condition).closeIf condition = s.closeIf condition := by
  cases condition <;> rfl

namespace Tree

theorem map_close_map_close (t : Tree) :
    (t.map Statement.close).map Statement.close = t.map Statement.close := by
  induction t with
  | leaf s => rfl
  | chain s t ih => rw [map, map, ih]; rfl
  | fork s l r ihl ihr => rw [map, map, ihl, ihr]; rfl

theorem closeAt_closeAt_root {number : Nat} {t : Tree} (h : t.root.number = number) :
    (t.closeAt number).closeAt number = t.closeAt number := by
  have closed : (t.map Statement.close).root.number = number := by rw [root_map]; exact h
  rw [closeAt_root h, closeAt_root closed, map_close_map_close]

theorem closeAt_closeAt (number : Nat) (t : Tree) :
    (t.closeAt number).closeAt number = t.closeAt number := by
  induction t with
  | leaf s =>
      by_cases h : s.number = number
      · exact closeAt_closeAt_root h
      · have same : (leaf s).closeAt number = leaf s := by rw [closeAt, root_leaf, if_neg h]
        rw [same, same]
  | chain s t ih =>
      by_cases h : s.number = number
      · exact closeAt_closeAt_root h
      · rw [closeAt_chain h, closeAt_chain (by simpa using h), ih, Statement.closeIf_closeIf]
  | fork s l r ihl ihr =>
      by_cases h : s.number = number
      · exact closeAt_closeAt_root h
      · rw [closeAt_fork h, closeAt_fork (by simpa using h), ihl, ihr, Statement.closeIf_closeIf]

end Tree

namespace Tableau

/-- Two statements with these numbers stand on one branch, and one of them is the negation of the other. -/
def Clashing (t : Tableau) (first second : Int) : Prop :=
  ∃ path ∈ t.tree.branches, ∃ s ∈ path, ∃ s' ∈ path,
    (s.number : Int) = first ∧ (s'.number : Int) = second ∧ s.formula.contradicts s'.formula = true

theorem clashing_iff_view {t : Tableau} {first second : Int} :
    t.Clashing first second ↔ ∃ b ∈ t.view, ∃ e ∈ b.path, ∃ e' ∈ b.path,
      (e.number : Int) = first ∧ (e'.number : Int) = second ∧
        e.formula.contradicts e'.formula = true := by
  simp [Clashing, view, Tree.view, Statement.entry]

theorem Clashing.closeAt {t u : Tableau} {first second : Int} {number : Nat}
    (h : t.Clashing first second) (tree : u.tree = t.tree.closeAt number) :
    u.Clashing first second := by
  rw [clashing_iff_view] at h ⊢
  obtain ⟨b, hb, clash⟩ := h
  rw [view, tree, Tree.view_closeAt, Branch.closeThrough]
  refine ⟨_, List.mem_map_of_mem hb, ?_⟩
  split
  · exact clash
  · exact clash

theorem Clashing.comm {t : Tableau} {first second : Int} (h : t.Clashing first second) :
    t.Clashing second first := by
  obtain ⟨path, hpath, s, hs, s', hs', number, number', contradiction⟩ := h
  rw [contradicts_comm] at contradiction
  exact ⟨path, hpath, s', hs', s, hs, number', number, contradiction⟩

theorem closure_comm {t : Tableau} (h : t.Numbered) (first second : Int) :
    t.closure first second = t.closure second first := by
  unfold closure
  cases hp : t.place? first with
  | none => cases t.place? second <;> rfl
  | some p =>
      cases hq : t.place? second with
      | none => rfl
      | some q =>
          have order : (if p.statement.number ≤ q.statement.number then (p, q) else (q, p)) =
              if q.statement.number ≤ p.statement.number then (q, p) else (p, q) := by
            rcases Nat.lt_trichotomy p.statement.number q.statement.number with less | equal | more
            · rw [if_pos (by omega), if_neg (by omega)]
            · obtain ⟨placeP, -⟩ := (place?_eq_some_iff h.nodup).mp hp
              obtain ⟨placeQ, -⟩ := (place?_eq_some_iff h.nodup).mp hq
              rw [place_unique h.nodup placeP placeQ equal]
            · rw [if_neg (by omega), if_pos (by omega)]
          simp only [order, contradicts_comm p.statement.formula, Bool.and_comm]

theorem close_comm {t : Tableau} (h : t.Numbered) (first second : Int) :
    t.close first second = t.close second first := by
  rw [close, closure_comm h, close]

theorem closure_eq_ok_iff_clashing {t : Tableau} (h : t.WellBuilt) {first second : Int} :
    (∃ target, t.closure first second = .ok target) ↔ t.Clashing first second := by
  constructor
  · rintro ⟨target, ok⟩
    obtain ⟨p, s, hp, -, lower, upper, above, contradiction⟩ := closure_eq_ok h.numbered ok
    obtain ⟨c, hc⟩ := p.here.exists_mem_branches
    obtain ⟨path, hpath, same⟩ := Tree.branch_of_mem_places hp hc
    rw [List.reverse_nil, List.nil_append] at same
    have hlower : p.statement ∈ path := by
      rw [same]
      exact List.mem_append_right _ (Tree.root_mem_of_mem_branches hc)
    have hupper : s ∈ path := by
      rcases List.mem_cons.mp above with rfl | above
      · exact hlower
      · rw [same]
        exact List.mem_append_left _ (List.mem_reverse.mpr above)
    have clash : t.Clashing p.statement.number s.number :=
      ⟨path, hpath, p.statement, hlower, s, hupper, rfl, rfl, contradiction⟩
    rw [lower, upper] at clash
    rcases Int.le_total first second with order | order
    · rw [max_eq_right order, min_eq_left order] at clash
      exact clash.comm
    · rw [max_eq_left order, min_eq_right order] at clash
      exact clash
  · rintro ⟨path, hpath, s, hs, s', hs', rfl, rfl, contradiction⟩
    rcases Tree.aligned_of_mem_branch hpath hs hs' with rfl | ⟨p, hp, rfl, above⟩ | ⟨p, hp, rfl, above⟩
    · obtain ⟨p, hp, rfl⟩ := exists_place_of_mem_statements (Tree.mem_statements_of_mem_branch hpath hs)
      have found := (place?_eq_some_iff h.numbered.nodup).mpr ⟨hp, rfl⟩
      exact ⟨_, (closure_eq_ok_iff found found p p (by simp)).mpr ⟨contradiction, .inl rfl, rfl⟩⟩
    · exact ⟨_, h.closure_above hp above contradiction⟩
    · rw [contradicts_comm] at contradiction
      rw [closure_comm h.numbered]
      exact ⟨_, h.closure_above hp above contradiction⟩

theorem close_accepted_iff {t : Tableau} (h : t.WellBuilt) {first second : Int} :
    (t.close first second).2 = .accepted ↔ t.Clashing first second := by
  rw [← closure_eq_ok_iff_clashing h]
  constructor
  · intro accepted
    have result : t.close first second = ((t.close first second).1, .accepted) := by rw [← accepted]
    obtain ⟨target, ok, -⟩ := close_eq_accepted_iff.mp result
    exact ⟨target, ok⟩
  · rintro ⟨target, ok⟩
    rw [close, ok]

theorem target_eq_max {t : Tableau} (h : t.Numbered) {first second : Int} {target : Nat}
    (ok : t.closure first second = .ok target) : (target : Int) = max first second := by
  obtain ⟨p, s, -, rfl, lower, -⟩ := closure_eq_ok h ok
  exact lower

theorem close_again {t u : Tableau} (h : t.WellBuilt) {first second : Int}
    (accepted : t.close first second = (u, .accepted)) : u.close first second = (u, .accepted) := by
  have built := h.performed (.close first second) accepted
  obtain ⟨target, ok, same⟩ := close_eq_accepted_iff.mp accepted
  have tree : u.tree = t.tree.closeAt target := by rw [same]
  have clash := (closure_eq_ok_iff_clashing h).mp ⟨target, ok⟩
  obtain ⟨target', ok'⟩ := (closure_eq_ok_iff_clashing built).mpr (clash.closeAt tree)
  have targets : target' = target := by
    have first := target_eq_max h.numbered ok
    have again := target_eq_max built.numbered ok'
    omega
  rw [targets] at ok'
  refine close_eq_accepted_iff.mpr ⟨target, ok', ?_⟩
  rw [tree, Tree.closeAt_closeAt, same]

theorem PlainlyReachable.not_clashing_self {t : Tableau} (h : t.PlainlyReachable) (number : Int) :
    ¬t.Clashing number number := by
  rintro ⟨path, hpath, s, hs, s', hs', named, named', contradiction⟩
  have hs := Tree.mem_statements_of_mem_branch hpath hs
  have hs' := Tree.mem_statements_of_mem_branch hpath hs'
  have same : s = s' := h.reachable.wellBuilt.numbered.statement_unique hs hs' (by omega)
  rw [← same, (h.readsBack hs).not_contradicts_self] at contradiction
  cases contradiction

/-- A closure is accepted just when the two numbers are those of statements on one branch that contradict
each other; a statement alone never closes a branch. It is the same closure in either order, whether it is
accepted or refused, and an accepted one is accepted again without changing anything. -/
theorem closure_accepts_clashes {t : Tableau} (h : t.PlainlyReachable) (first second : Int) :
    ((t.close first second).2 = .accepted ↔
      ∃ path ∈ t.tree.branches, ∃ s ∈ path, ∃ s' ∈ path, (s.number : Int) = first ∧
        (s'.number : Int) = second ∧ s.formula.contradicts s'.formula = true) ∧
    (first = second → (t.close first second).2 ≠ .accepted) ∧
    t.close first second = t.close second first ∧
    ∀ u, t.close first second = (u, .accepted) → u.close first second = (u, .accepted) := by
  have built := h.reachable.wellBuilt
  refine ⟨close_accepted_iff built, ?_, close_comm built.numbered first second, ?_⟩
  · rintro rfl accepted
    exact h.not_clashing_self first ((close_accepted_iff built).mp accepted)
  · exact fun u => close_again built

-- A disjunction whose text breaks off, so that its right side denies the nameless atom, with the
-- denial of its left side and the nameless atom. After the expansion the left side closes its
-- branch, together with its denial only; the two sides stand on different branches.
theorem closure_accepts_clashes_malformed :
    let broken := Formula.compound "(or P (not Q".toList .disjunction (.atom ['P'])
      (.negation "(not ".toList (.atom []))
    let denial := Formula.ofSentence (.negation (.atom ['P']))
    let t := (ofPremises broken [denial, .atom []]).run [.perform (.expand 1)]
    let u := (ofPremises broken [denial, .atom []]).run [.perform (.expand 1), .perform (.close 4 2)]
    t.PlainlyReachable ∧
      t.close 4 2 = (u, .accepted) ∧ t.close 2 4 = (u, .accepted) ∧ u.close 4 2 = (u, .accepted) ∧
      u.tree.statements.map (fun s => (s.number, s.closed)) =
        [(1, false), (2, false), (3, false), (4, true), (5, false)] ∧
      (t.close 2 2).2 ≠ .accepted ∧
      (t.close 4 5).2 = .refused .differentBranches ∧
      ¬∃ path ∈ t.tree.branches, ∃ s ∈ path, ∃ s' ∈ path, (s.number : Int) = 4 ∧
        (s'.number : Int) = 5 ∧ s.formula.contradicts s'.formula = true := by
  intro broken denial t u
  have parsedBroken : broken.Parsed := ⟨"(or P (not Q".toList, by unfold broken; cbv⟩
  have parsedDenial : denial.Parsed := ⟨"(not P)".toList, by unfold denial; cbv⟩
  have parsedNameless : (Formula.atom []).Parsed := ⟨[], by cbv⟩
  have reachable : t.PlainlyReachable := by
    refine ⟨broken, [denial, .atom []], _, ?_, ?_, rfl⟩
    · simp [parsedBroken, parsedDenial, parsedNameless]
    · simp
  have accepted : t.close 4 2 = (u, .accepted) := by
    unfold u t broken denial
    cbv
  have flags : u.tree.statements.map (fun s => (s.number, s.closed)) =
      [(1, false), (2, false), (3, false), (4, true), (5, false)] := by
    unfold u broken denial
    cbv
  have apart : (t.close 4 5).2 = .refused .differentBranches := by
    unfold t broken denial
    cbv
  clear_value t u
  obtain ⟨-, -, either, again⟩ := closure_accepts_clashes reachable 4 2
  obtain ⟨-, alone, -, -⟩ := closure_accepts_clashes reachable 2 2
  obtain ⟨exact, -, -, -⟩ := closure_accepts_clashes reachable 4 5
  refine ⟨reachable, accepted, either ▸ accepted, again u accepted, flags, alone rfl, apart, ?_⟩
  rw [← exact, apart]
  rintro ⟨⟩

end Tableau

end TruthTree
