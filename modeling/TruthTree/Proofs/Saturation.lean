import TruthTree.Proofs.StrictRun

/-! Saturation. An expansion reaches the branches that are open at that moment, and later branches
continue these; so on every open branch each statement marked as expanded has one alternative of its
decomposition. A branch on which everything is resolved that way and nothing contradicts anything is
true under the valuation that it describes itself. -/
namespace TruthTree

def Statement.mark (s : Statement) : List Nat := if s.expanded then [s.number] else []

@[simp] theorem Statement.mark_close (s : Statement) : s.close.mark = s.mark := rfl

@[simp] theorem Statement.mark_closeIf (s : Statement) (condition : Bool) :
    (s.closeIf condition).mark = s.mark := by
  cases condition <;> rfl

@[simp] theorem Statement.mark_follow (s : Statement) (number : Nat) (formula : Formula) :
    (s.follow number formula).mark = [] := rfl

@[simp] theorem Statement.mark_branchOff (s : Statement) (side : Side) (number : Nat)
    (formula : Formula) : (s.branchOff side number formula).mark = [] := rfl

theorem Statement.mem_mark_iff {s : Statement} {number : Nat} :
    number ∈ s.mark ↔ s.expanded = true ∧ number = s.number := by
  unfold mark
  split
  · next expanded => simp [expanded]
  · next fresh => simp [fresh]

namespace Tree

def marks (t : Tree) : List Nat := t.statements.flatMap Statement.mark

@[simp] theorem marks_leaf (s : Statement) : (leaf s).marks = s.mark := by
  simp [marks, statements]

@[simp] theorem marks_chain (s : Statement) (t : Tree) : (chain s t).marks = s.mark ++ t.marks := rfl

@[simp] theorem marks_fork (s : Statement) (l r : Tree) :
    (fork s l r).marks = s.mark ++ (l.marks ++ r.marks) := by
  simp [marks, statements]

theorem mem_marks_iff {t : Tree} {number : Nat} :
    number ∈ t.marks ↔ ∃ s ∈ t.statements, s.expanded = true ∧ number = s.number := by
  simp [marks, Statement.mem_mark_iff]

theorem marks_addPremise (number : Nat) (formula : Formula) (t : Tree) :
    (t.addPremise number formula).marks = t.marks := by
  induction t with
  | leaf s => simp [addPremise]
  | chain s t ih => simp [addPremise, ih]
  | fork s l r ihl ihr => simp [addPremise, ihl]

theorem marks_attach (d : Decomposition) (next : Nat) (s : Statement) :
    (attach d next s).1.marks = s.mark := by
  cases d <;> simp [attach]

theorem marks_grow (d : Decomposition) (next : Nat) (t : Tree) :
    (grow d next t).1.marks = t.marks := by
  induction t generalizing next with
  | leaf s =>
      rw [grow]
      split
      · rfl
      · rw [marks_attach, marks_leaf]
  | chain s t ih =>
      rw [grow]
      split
      · rfl
      · simp [ih]
  | fork s l r ihl ihr =>
      rw [grow]
      split
      · rfl
      · simp [ihl, ihr]

theorem of_mem_marks_expandAt_root {target next : Nat} {d : Decomposition} {t : Tree} {number : Nat}
    (hn : t.root.number = target) (h : number ∈ (expandAt target d next t).1.marks) :
    number = target ∨ number ∈ t.marks := by
  rw [expandAt_root hn, marks_grow] at h
  subst hn
  cases t <;> simp_all [mapRoot, Statement.expand, Statement.mem_mark_iff] <;> grind

theorem of_mem_marks_expandAt {target next : Nat} {d : Decomposition} {t : Tree} {number : Nat}
    (h : number ∈ (expandAt target d next t).1.marks) : number = target ∨ number ∈ t.marks := by
  induction t generalizing next with
  | leaf s =>
      by_cases hn : (leaf s).root.number = target
      · exact of_mem_marks_expandAt_root hn h
      · rw [expandAt, if_neg hn] at h
        exact .inr h
  | chain s t ih =>
      by_cases hn : (chain s t).root.number = target
      · exact of_mem_marks_expandAt_root hn h
      · rw [expandAt, if_neg hn] at h
        rcases List.mem_append.mp h with h | h
        · exact .inr (List.mem_append_left _ h)
        · exact (ih h).imp_right (List.mem_append_right _)
  | fork s l r ihl ihr =>
      by_cases hn : (fork s l r).root.number = target
      · exact of_mem_marks_expandAt_root hn h
      · rw [expandAt, if_neg hn, marks_fork] at h
        rw [marks_fork]
        rcases List.mem_append.mp h with h | h
        · exact .inr (List.mem_append_left _ h)
        · refine Or.imp_right (List.mem_append_right _) ?_
          rcases List.mem_append.mp h with h | h
          · exact (ihl h).imp_right (List.mem_append_left _)
          · exact (ihr h).imp_right (List.mem_append_right _)

theorem marks_closeAt (number : Nat) (t : Tree) : (t.closeAt number).marks = t.marks := by
  rw [marks, marks, List.flatMap_def, List.flatMap_def, map_statements_closeAt Statement.mark_close]

end Tree

namespace Branch

def formulas (b : Branch) : List Formula := b.path.map Entry.formula

/-- Some alternative of the decomposition of `f` is on the branch. -/
def Resolves (b : Branch) (f : Formula) : Prop :=
  ∀ d, f.decompose = .ok d → ∃ alternative ∈ d.alternatives, alternative ⊆ b.formulas

theorem Resolves.mono {b c : Branch} {f : Formula} (h : b.Resolves f)
    (more : b.formulas ⊆ c.formulas) : c.Resolves f := by
  intro d rule
  obtain ⟨alternative, halternative, within⟩ := h d rule
  exact ⟨alternative, halternative, List.Subset.trans within more⟩

theorem resolves_extend_sprout (b : Branch) {f : Formula} {d : Decomposition}
    (rule : f.decompose = .ok d) {first : Nat} {sprout : List Entry} (h : sprout ∈ d.sprouts first) :
    (b.extend sprout).Resolves f := by
  intro d' rule'
  obtain rfl := Except.ok.inj (rule.symm.trans rule')
  refine ⟨sprout.map Entry.formula, ?_, ?_⟩
  · rw [← d.map_formula_sprouts first]
    exact List.mem_map_of_mem h
  · rw [formulas, path_extend, List.map_append]
    exact List.subset_append_right _ _

end Branch

namespace Tableau

/-- On every open branch the statements marked as expanded are resolved. -/
def Saturated (t : Tableau) : Prop :=
  ∀ b ∈ t.view, b.closed = false → ∀ e ∈ b.path, e.number ∈ t.tree.marks → b.Resolves e.formula

theorem saturated_start (premise : Formula) : (start premise).Saturated := by
  simp [Saturated, start, Statement.mark, Statement.fresh]

theorem formula_eq_of_number {t : Tableau} (h : t.Numbered) {b : Branch} {e : Entry} (hb : b ∈ t.view)
    (he : e ∈ b.path) {p : Place} (hp : p ∈ t.places) (same : e.number = p.statement.number) :
    e.formula = p.statement.formula := by
  obtain ⟨s, hs, rfl⟩ := exists_statement_of_mem_path hb he
  rw [← h.statement_unique hs (Tree.statement_mem_of_mem_places hp) same]
  rfl

theorem mark_lt_next {t : Tableau} (h : t.Numbered) {number : Nat} (marked : number ∈ t.tree.marks) :
    number < t.next := by
  obtain ⟨s, hs, -, rfl⟩ := Tree.mem_marks_iff.mp marked
  exact h.number_lt hs

theorem resolves_of_marked {t u : Tableau} {call : Call} (built : t.WellBuilt)
    (change : Change t call u.tree u.next) {c : Branch} (hc : c ∈ u.view) (opened : c.closed = false)
    {e : Entry} (he : e ∈ c.path) (marked : e.number ∈ u.tree.marks)
    (unmarked : e.number ∉ t.tree.marks) : c.Resolves e.formula := by
  obtain ⟨tree, next, refusal⟩ := u
  cases change with
  | declined operation => exact absurd marked unmarked
  | closed place lower upper above contradiction =>
      rw [Tree.marks_closeAt] at marked
      exact absurd marked unmarked
  | premised formula =>
      rw [Tree.marks_addPremise] at marked
      exact absurd marked unmarked
  | @expanded p d place fresh rule proper =>
      have number := (Tree.of_mem_marks_expandAt marked).resolve_right unmarked
      rw [view, Tree.view_expandAt built.coherent] at hc
      rcases Branch.of_mem_expandThrough hc with
        ⟨-, closed | avoids⟩ | ⟨b, hb, -, -, first, high, sprout, hsprout, rfl⟩
      · exact absurd closed (ne_true_of_eq_false opened)
      · have passes := Branch.passes_iff.mpr ⟨e, he, number⟩
        exact absurd passes (ne_true_of_eq_false avoids)
      · rcases List.mem_append.mp he with he | he
        · rw [formula_eq_of_number built.numbered hb he place number]
          exact Branch.resolves_extend_sprout b rule hsprout
        · -- New statements have new numbers, so they are not the one that was expanded.
          have new := (Decomposition.number_sprouts hsprout he).1
          have old := built.numbered.number_lt (Tree.statement_mem_of_mem_places place)
          omega

theorem Saturated.after {t : Tableau} (h : t.Saturated) (built : t.WellBuilt) (call : Call) :
    (t.after call).Saturated := by
  intro c hc opened e he marked
  have change := change_after built.numbered call
  by_cases old : e.number ∈ t.tree.marks
  · obtain ⟨b, hb, new, path, closed, added⟩ := change.origin built.coherent hc
    have before : b.closed = false := by
      rw [← Bool.not_eq_true]
      exact fun h => absurd (closed h) (ne_true_of_eq_false opened)
    rw [path] at he
    rcases List.mem_append.mp he with he | he
    · apply (h b hb before e he old).mono
      rw [Branch.formulas, Branch.formulas, path, List.map_append]
      exact List.subset_append_left _ _
    · have low := mark_lt_next built.numbered old
      have high := added.fresh e he
      omega
  · exact resolves_of_marked built change hc opened he marked old

theorem saturated_run {t : Tableau} (h : t.Saturated) (built : t.WellBuilt) (calls : List Call) :
    (t.run calls).Saturated :=
  built.run_invariant Saturated h (fun _ call built h => h.after built call) calls

theorem saturated_ofPremises (first : Formula) (rest : List Formula) :
    (ofPremises first rest).Saturated := by
  rw [ofPremises_eq_run]
  exact saturated_run (saturated_start first) (wellBuilt_start first) _

end Tableau

end TruthTree
