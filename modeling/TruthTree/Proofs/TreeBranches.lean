import TruthTree.Proofs.Branch

/-! How the operations on trees act on the list of branches. Growing skips closed subtrees, so it acts
on the open branches only where the closed flags inside the tree agree with those of the leaves. -/
namespace TruthTree

namespace Branch

def ofStatements (b : List Statement) : Branch :=
  ⟨b.map Statement.entry, b.getLast?.any Statement.closed⟩

theorem ofStatements_cons (s : Statement) {b : List Statement} (h : b ≠ []) :
    ofStatements (s :: b) = (ofStatements b).push s.entry := by
  obtain ⟨x, rest, rfl⟩ := List.exists_cons_of_ne_nil h
  simp [ofStatements, push]

end Branch

namespace Tree

theorem root_mem_of_mem_branches {t : Tree} {b : List Statement} (h : b ∈ t.branches) :
    t.root ∈ b := by
  cases t with
  | leaf s => simp_all [branches]
  | chain s t =>
      obtain ⟨c, -, rfl⟩ := List.mem_map.mp h
      exact List.mem_cons_self
  | fork s l r =>
      obtain ⟨c, -, rfl⟩ := List.mem_map.mp h
      exact List.mem_cons_self

theorem ne_nil_of_mem_branches {t : Tree} {b : List Statement} (h : b ∈ t.branches) : b ≠ [] :=
  List.ne_nil_of_mem (root_mem_of_mem_branches h)

def view (t : Tree) : List Branch := t.branches.map Branch.ofStatements

theorem map_cons_branches (s : Statement) (t : Tree) :
    (t.branches.map (s :: ·)).map Branch.ofStatements = t.view.map (Branch.push s.entry) := by
  rw [view, List.map_map, List.map_map]
  apply List.map_congr_left
  intro b hb
  exact Branch.ofStatements_cons s (ne_nil_of_mem_branches hb)

@[simp] theorem view_leaf (s : Statement) : (leaf s).view = [⟨[s.entry], s.closed⟩] := rfl

@[simp] theorem view_chain (s : Statement) (t : Tree) :
    (chain s t).view = t.view.map (Branch.push s.entry) := map_cons_branches s t

@[simp] theorem view_fork (s : Statement) (l r : Tree) :
    (fork s l r).view = (l.view ++ r.view).map (Branch.push s.entry) := by
  rw [List.map_append, ← map_cons_branches, ← map_cons_branches, ← List.map_append, ← List.map_append]
  rfl

/-- A statement above others is closed just when all right below it are. -/
def Coherent : Tree → Prop
  | leaf _ => True
  | chain s t => s.closed = t.root.closed ∧ t.Coherent
  | fork s l r => s.closed = (l.root.closed && r.root.closed) ∧ l.Coherent ∧ r.Coherent

theorem Coherent.root_closed_iff {t : Tree} (h : t.Coherent) :
    t.root.closed = true ↔ ∀ b ∈ t.view, b.closed = true := by
  induction t with
  | leaf s => simp
  | chain s t ih =>
      obtain ⟨flag, below⟩ := h
      rw [root_chain, flag, ih below]
      simp
  | fork s l r ihl ihr =>
      obtain ⟨flag, left, right⟩ := h
      rw [root_fork, flag, Bool.and_eq_true, ihl left, ihr right]
      simp only [view_fork, List.forall_mem_map, Branch.closed_push, List.forall_mem_append]

/-! The views of the operations. -/

@[simp] theorem view_mapRoot_expand (t : Tree) : (t.mapRoot Statement.expand).view = t.view := by
  cases t <;> simp [mapRoot, Statement.expand, Statement.entry]

theorem map_push_close (e : Entry) (branches : List Branch) :
    (branches.map Branch.close).map (Branch.push e) =
      (branches.map (Branch.push e)).map Branch.close := by
  rw [List.map_map, List.map_map]
  rfl

theorem view_map_close (t : Tree) : (t.map Statement.close).view = t.view.map Branch.close := by
  induction t with
  | leaf s => rfl
  | chain s t ih =>
      rw [map, view_chain, ih, map_push_close, view_chain]
      rfl
  | fork s l r ihl ihr =>
      rw [map, view_fork, ihl, ihr, ← List.map_append, map_push_close, view_fork]
      rfl

theorem passes_of_mem_view {t : Tree} {b : Branch} (h : b ∈ t.view) :
    b.passes t.root.number = true := by
  obtain ⟨c, hc, rfl⟩ := List.mem_map.mp h
  exact Branch.passes_iff.mpr ⟨t.root.entry, List.mem_map_of_mem (root_mem_of_mem_branches hc), rfl⟩

@[simp] theorem entry_closeIf (s : Statement) (condition : Bool) :
    (s.closeIf condition).entry = s.entry := by
  cases condition <;> rfl

theorem view_closeAt (number : Nat) (t : Tree) :
    (t.closeAt number).view = Branch.closeThrough number t.view := by
  induction t with
  | leaf s =>
      by_cases h : s.number = number
      · simp [closeAt, h, map, Branch.closeThrough, Branch.passes, Branch.close, Statement.entry,
          Statement.close]
      · simp [closeAt, h, Branch.closeThrough, Branch.passes, Statement.entry]
  | chain s t ih =>
      by_cases h : s.number = number
      · rw [closeAt, if_pos (by exact h), view_map_close, Branch.closeThrough_eq_map_close]
        subst h
        exact fun b hb => passes_of_mem_view hb
      · rw [closeAt, if_neg (by exact h), view_chain, view_chain, entry_closeIf, ih,
          Branch.closeThrough_map_push h]
  | fork s l r ihl ihr =>
      by_cases h : s.number = number
      · rw [closeAt, if_pos (by exact h), view_map_close, Branch.closeThrough_eq_map_close]
        subst h
        exact fun b hb => passes_of_mem_view hb
      · rw [closeAt, if_neg (by exact h), view_fork, view_fork, entry_closeIf, ihl, ihr,
          Branch.closeThrough_map_push h, Branch.closeThrough_append]

theorem view_ne_nil (t : Tree) : t.view ≠ [] := by
  induction t with
  | leaf s => simp
  | chain s t ih => simpa using ih
  | fork s l r ihl ihr => simp [ihl]

theorem view_addPremise (number : Nat) (formula : Formula) (t : Tree) :
    (t.addPremise number formula).view = Branch.extendFirst ⟨number, formula⟩ t.view := by
  induction t with
  | leaf s => cases h : s.closed <;> simp [addPremise, h, Statement.closeIf, Statement.entry,
    Statement.follow, Statement.fresh, Statement.close, Branch.extendFirst, Branch.push,
    Branch.extend]
  | chain s t ih => rw [addPremise, view_chain, view_chain, ih, Branch.extendFirst_map_push]
  | fork s l r ihl ihr =>
      rw [addPremise, view_fork, view_fork, ihl, Branch.extendFirst_map_push,
        Branch.extendFirst_append _ l.view_ne_nil]

theorem view_attach (d : Decomposition) (next : Nat) {s : Statement} (h : s.closed = false) :
    (attach d next s).1.view = (d.sprouts next).map (Branch.extend ⟨[s.entry], s.closed⟩) := by
  cases d <;> simp [attach, Decomposition.sprouts, Branch.extend, Branch.push, h, Statement.entry,
    Statement.follow, Statement.branchOff, Statement.fresh]

theorem next_attach (d : Decomposition) (next : Nat) (s : Statement) :
    (attach d next s).2 = next + d.count := by
  cases d <;> rfl

theorem grow_of_closed {t : Tree} (h : t.root.closed = true) (d : Decomposition) (next : Nat) :
    grow d next t = (t, next) := by
  cases t <;> simp_all [grow]

theorem extendWhere_view {t : Tree} (h : t.Coherent) (d : Decomposition) (next : Nat) :
    Branch.extendWhere (fun b => !b.closed) d next t.view =
      ((grow d next t).1.view, (grow d next t).2) := by
  induction t generalizing next with
  | leaf s =>
      by_cases closed : s.closed = true
      · simp [grow, closed, Branch.extendWhere]
      · rw [Bool.not_eq_true] at closed
        simp [grow, closed, Branch.extendWhere, view_attach, next_attach]
  | chain s t ih =>
      by_cases closed : (chain s t).root.closed = true
      · have all := h.root_closed_iff.mp closed
        rw [grow_of_closed closed, Branch.extendWhere_none (fun b hb => by simp [all b hb])]
      · rw [view_chain, Branch.extendWhere_map_push]
        rw [root_chain] at closed
        simp [grow, closed, ih h.2 next]
  | fork s l r ihl ihr =>
      by_cases closed : (fork s l r).root.closed = true
      · have all := h.root_closed_iff.mp closed
        rw [grow_of_closed closed, Branch.extendWhere_none (fun b hb => by simp [all b hb])]
      · rw [view_fork, Branch.extendWhere_map_push, Branch.extendWhere_append]
        rw [root_fork] at closed
        simp [grow, closed, ihl h.2.1 next, ihr h.2.2]

theorem Coherent.mapRoot_expand {t : Tree} (h : t.Coherent) :
    (t.mapRoot Statement.expand).Coherent := by
  cases t <;> simp_all [mapRoot, Coherent, Statement.expand]

theorem expandAt_root {t : Tree} {number : Nat} (h : t.root.number = number) (d : Decomposition)
    (next : Nat) : expandAt number d next t = grow d next (t.mapRoot Statement.expand) := by
  unfold expandAt
  rw [if_pos h]

theorem grow_mapRoot_expand (d : Decomposition) (next : Nat) (t : Tree) :
    grow d next (t.mapRoot Statement.expand) =
      ((grow d next t).1.mapRoot Statement.expand, (grow d next t).2) := by
  cases t with
  | leaf s =>
      cases closed : s.closed <;> cases d <;> simp [mapRoot, grow, Statement.expand, closed, attach,
        Statement.follow, Statement.branchOff]
  | chain s t => cases closed : s.closed <;> simp [mapRoot, grow, Statement.expand, closed]
  | fork s l r => cases closed : s.closed <;> simp [mapRoot, grow, Statement.expand, closed]

theorem expandThrough_view_root {t : Tree} (h : t.Coherent) {number : Nat} (hn : t.root.number = number)
    (d : Decomposition) (next : Nat) :
    Branch.expandThrough number d next t.view =
      ((expandAt number d next t).1.view, (expandAt number d next t).2) := by
  -- All branches go through the root.
  have marked := extendWhere_view h.mapRoot_expand d next
  rw [view_mapRoot_expand] at marked
  rw [expandAt_root hn, ← marked]
  apply Branch.extendWhere_congr
  intro b hb
  rw [Branch.openThrough, ← hn, passes_of_mem_view hb, Bool.and_true]

theorem expandThrough_view {t : Tree} (h : t.Coherent) (number : Nat) (d : Decomposition) (next : Nat) :
    Branch.expandThrough number d next t.view =
      ((expandAt number d next t).1.view, (expandAt number d next t).2) := by
  induction t generalizing next with
  | leaf s =>
      by_cases hn : (leaf s).root.number = number
      · exact expandThrough_view_root h hn d next
      · rw [root_leaf] at hn
        simp [expandAt, hn, Branch.expandThrough, Branch.extendWhere, Branch.openThrough, Branch.passes,
          Statement.entry]
  | chain s t ih =>
      by_cases hn : (chain s t).root.number = number
      · exact expandThrough_view_root h hn d next
      · rw [root_chain] at hn
        have below := ih h.2 next
        rw [view_chain, Branch.expandThrough_map_push hn, below]
        simp [expandAt, hn]
  | fork s l r ihl ihr =>
      by_cases hn : (fork s l r).root.number = number
      · exact expandThrough_view_root h hn d next
      · rw [root_fork] at hn
        have left := ihl h.2.1 next
        have right := ihr h.2.2 (expandAt number d next l).2
        rw [view_fork, Branch.expandThrough_map_push hn, Branch.expandThrough_append, left, right]
        simp [expandAt, hn]

theorem view_expandAt {t : Tree} (h : t.Coherent) (number : Nat) (d : Decomposition) (next : Nat) :
    (expandAt number d next t).1.view = (Branch.expandThrough number d next t.view).1 := by
  rw [expandThrough_view h]

theorem next_expandAt {t : Tree} (h : t.Coherent) (number : Nat) (d : Decomposition) (next : Nat) :
    (expandAt number d next t).2 = (Branch.expandThrough number d next t.view).2 := by
  rw [expandThrough_view h]

/-! Every operation keeps the flags in agreement. -/

@[simp] theorem root_addPremise_closed (number : Nat) (formula : Formula) (t : Tree) :
    (t.addPremise number formula).root.closed = t.root.closed := by
  cases t <;> rfl

theorem Coherent.addPremise {t : Tree} (h : t.Coherent) (number : Nat) (formula : Formula) :
    (t.addPremise number formula).Coherent := by
  induction t with
  | leaf s =>
      cases closed : s.closed <;>
        simp [Tree.addPremise, Coherent, Statement.closeIf, Statement.follow, Statement.fresh,
          Statement.close, closed]
  | chain s t ih => exact ⟨by simpa using h.1, ih h.2⟩
  | fork s l r ihl ihr => exact ⟨by simpa using h.1, ihl h.2.1, h.2.2⟩

@[simp] theorem root_grow_closed (d : Decomposition) (next : Nat) (t : Tree) :
    (grow d next t).1.root.closed = t.root.closed := by
  cases t with
  | leaf s =>
      rw [grow]
      split
      · rfl
      · cases d <;> rfl
  | chain s t =>
      rw [grow]
      split <;> rfl
  | fork s l r =>
      rw [grow]
      split <;> rfl

theorem Coherent.attach (d : Decomposition) (next : Nat) {s : Statement} (h : s.closed = false) :
    (Tree.attach d next s).1.Coherent := by
  cases d <;>
    simp [Tree.attach, Coherent, Statement.follow, Statement.branchOff, Statement.fresh, h]

theorem Coherent.grow {t : Tree} (h : t.Coherent) (d : Decomposition) (next : Nat) :
    (Tree.grow d next t).1.Coherent := by
  induction t generalizing next with
  | leaf s =>
      rw [Tree.grow]
      split
      · trivial
      · next closed => exact .attach d next (by simpa using closed)
  | chain s t ih =>
      rw [Tree.grow]
      split
      · exact h
      · exact ⟨by simpa using h.1, ih h.2 next⟩
  | fork s l r ihl ihr =>
      rw [Tree.grow]
      split
      · exact h
      · exact ⟨by simpa using h.1, ihl h.2.1 next, ihr h.2.2 _⟩

@[simp] theorem root_mapRoot_expand_closed (t : Tree) :
    (t.mapRoot Statement.expand).root.closed = t.root.closed := by
  cases t <;> rfl

@[simp] theorem root_expandAt_closed (number : Nat) (d : Decomposition) (next : Nat) (t : Tree) :
    (expandAt number d next t).1.root.closed = t.root.closed := by
  by_cases hn : t.root.number = number
  · rw [expandAt_root hn, root_grow_closed, root_mapRoot_expand_closed]
  · cases t <;> simp_all [expandAt]

theorem Coherent.expandAt {t : Tree} (h : t.Coherent) (number : Nat) (d : Decomposition)
    (next : Nat) : (Tree.expandAt number d next t).1.Coherent := by
  induction t generalizing next with
  | leaf s =>
      by_cases hn : (leaf s).root.number = number
      · rw [expandAt_root hn]
        exact h.mapRoot_expand.grow d next
      · rw [Tree.expandAt, if_neg hn]
        trivial
  | chain s t ih =>
      by_cases hn : (chain s t).root.number = number
      · rw [expandAt_root hn]
        exact h.mapRoot_expand.grow d next
      · rw [Tree.expandAt, if_neg hn]
        exact ⟨by simpa using h.1, ih h.2 next⟩
  | fork s l r ihl ihr =>
      by_cases hn : (fork s l r).root.number = number
      · rw [expandAt_root hn]
        exact h.mapRoot_expand.grow d next
      · rw [Tree.expandAt, if_neg hn]
        exact ⟨by simpa using h.1, ihl h.2.1 next, ihr h.2.2 _⟩

theorem root_map (f : Statement → Statement) (t : Tree) : (t.map f).root = f t.root := by
  cases t <;> rfl

theorem coherent_map_close (t : Tree) : (t.map Statement.close).Coherent := by
  induction t with
  | leaf s => trivial
  | chain s t ih => exact ⟨by simp [root_map, Statement.close], ih⟩
  | fork s l r ihl ihr => exact ⟨by simp [root_map, Statement.close], ihl, ihr⟩

theorem closed_closeIf (s : Statement) (condition : Bool) :
    (s.closeIf condition).closed = (s.closed || condition) := by
  cases condition <;> simp [Statement.closeIf, Statement.close]

theorem closeAt_root {number : Nat} {t : Tree} (h : t.root.number = number) :
    t.closeAt number = t.map Statement.close := by
  unfold closeAt
  rw [if_pos h]

theorem closeAt_chain {number : Nat} {s : Statement} (h : s.number ≠ number) (t : Tree) :
    (chain s t).closeAt number =
      chain (s.closeIf (t.closeAt number).root.closed) (t.closeAt number) := by
  rw [closeAt, root_chain, if_neg h]

theorem closeAt_fork {number : Nat} {s : Statement} (h : s.number ≠ number) (l r : Tree) :
    (fork s l r).closeAt number =
      fork (s.closeIf ((l.closeAt number).root.closed && (r.closeAt number).root.closed))
        (l.closeAt number) (r.closeAt number) := by
  rw [closeAt, root_fork, if_neg h]

theorem root_closeAt_closed (number : Nat) {t : Tree} (h : t.root.closed = true) :
    (t.closeAt number).root.closed = true := by
  by_cases hn : t.root.number = number
  · unfold closeAt
    rw [if_pos hn, root_map]
    rfl
  · cases t <;> simp_all [closeAt, closed_closeIf]

theorem Coherent.closeAt {t : Tree} (h : t.Coherent) (number : Nat) :
    (t.closeAt number).Coherent := by
  induction t with
  | leaf s =>
      by_cases hn : (leaf s).root.number = number
      · rw [Tree.closeAt, if_pos hn]
        exact coherent_map_close _
      · rw [Tree.closeAt, if_neg hn]
        trivial
  | chain s t ih =>
      by_cases hn : (chain s t).root.number = number
      · rw [Tree.closeAt, if_pos hn]
        exact coherent_map_close _
      · rw [Tree.closeAt, if_neg hn]
        refine ⟨?_, ih h.2⟩
        have kept := @root_closeAt_closed number t
        rw [closed_closeIf, h.1]
        cases closed : t.root.closed <;> simp_all
  | fork s l r ihl ihr =>
      by_cases hn : (fork s l r).root.number = number
      · rw [Tree.closeAt, if_pos hn]
        exact coherent_map_close _
      · rw [Tree.closeAt, if_neg hn]
        refine ⟨?_, ihl h.2.1, ihr h.2.2⟩
        have left := @root_closeAt_closed number l
        have right := @root_closeAt_closed number r
        rw [closed_closeIf, h.1]
        cases closedLeft : l.root.closed <;> cases closedRight : r.root.closed <;> simp_all

end Tree

end TruthTree
