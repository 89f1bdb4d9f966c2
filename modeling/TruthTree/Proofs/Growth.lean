import TruthTree.Proofs.Refinement

/-! Growth. A call leaves every statement where it is: at most it closes or expands it, and puts new
statements below leaves, each with the lineage of its place. So a tree stays laid out as it was: every
statement has the lineage that the forks above it give, and the sides of a fork follow each other in
number. -/
namespace TruthTree

structure Statement.Becomes (s s' : Statement) : Prop where
  number : s'.number = s.number
  formula : s'.formula = s.formula
  lineage : s'.lineage = s.lineage
  closed : s.closed = true → s'.closed = true
  expanded : s.expanded = true → s'.expanded = true

namespace Statement.Becomes

theorem refl (s : Statement) : s.Becomes s := ⟨rfl, rfl, rfl, id, id⟩

theorem trans {s s' s'' : Statement} (h : s.Becomes s') (h' : s'.Becomes s'') : s.Becomes s'' where
  number := h'.number.trans h.number
  formula := h'.formula.trans h.formula
  lineage := h'.lineage.trans h.lineage
  closed := h'.closed ∘ h.closed
  expanded := h'.expanded ∘ h.expanded

theorem close (s : Statement) : s.Becomes s.close := ⟨rfl, rfl, rfl, fun _ => rfl, id⟩

theorem expand (s : Statement) : s.Becomes s.expand := ⟨rfl, rfl, rfl, id, fun _ => rfl⟩

theorem closeIf (s : Statement) (condition : Bool) : s.Becomes (s.closeIf condition) := by
  cases condition with
  | false => exact refl s
  | true => exact close s

end Statement.Becomes

namespace Tree

/-- The root has the given lineage and all others have what follows from it; the sides of a fork have
consecutive numbers. -/
def Laid (lineage : Lineage) : Tree → Prop
  | leaf s => s.lineage = lineage
  | chain s t => s.lineage = lineage ∧ t.Laid lineage
  | fork s l r =>
    s.lineage = lineage ∧ r.root.number = l.root.number + 1 ∧
      l.Laid (lineage.fork s.number .left) ∧ r.Laid (lineage.fork s.number .right)

theorem Laid.root_lineage {lineage : Lineage} {t : Tree} (h : t.Laid lineage) :
    t.root.lineage = lineage := by
  cases t with
  | leaf s => exact h
  | chain s t => exact h.1
  | fork s l r => exact h.1

/-- The first tree is the upper part of the second: a leaf may have become any tree that is laid out
from there, and everything else has the same shape. -/
inductive GrowsInto : Tree → Tree → Prop
  | leaf {s : Statement} {t : Tree} (root : s.Becomes t.root) (laid : t.Laid s.lineage) :
      GrowsInto (leaf s) t
  | chain {s s' : Statement} {t t' : Tree} (root : s.Becomes s') (below : GrowsInto t t') :
      GrowsInto (chain s t) (chain s' t')
  | fork {s s' : Statement} {l l' r r' : Tree} (root : s.Becomes s') (left : GrowsInto l l')
      (right : GrowsInto r r') : GrowsInto (fork s l r) (fork s' l' r')

namespace GrowsInto

theorem refl (t : Tree) : t.GrowsInto t := by
  induction t with
  | leaf s => exact .leaf (.refl s) rfl
  | chain s t ih => exact .chain (.refl s) ih
  | fork s l r ihl ihr => exact .fork (.refl s) ihl ihr

theorem root {t t' : Tree} (h : t.GrowsInto t') : t.root.Becomes t'.root := by
  cases h with
  | leaf root laid => exact root
  | chain root below => exact root
  | fork root left right => exact root

end GrowsInto

theorem Laid.grown {lineage : Lineage} {t t' : Tree} (h : t.Laid lineage) (grown : t.GrowsInto t') :
    t'.Laid lineage := by
  induction grown generalizing lineage with
  | leaf root laid =>
      cases h
      exact laid
  | chain root below ih => exact ⟨root.lineage.trans h.1, ih h.2⟩
  | fork root left right ihl ihr =>
      obtain ⟨here, order, hl, hr⟩ := h
      refine ⟨root.lineage.trans here, ?_, ?_, ?_⟩
      · rw [right.root.number, left.root.number, order]
      · rw [root.number]
        exact ihl hl
      · rw [root.number]
        exact ihr hr

theorem GrowsInto.trans {t t' t'' : Tree} (h : t.GrowsInto t') (h' : t'.GrowsInto t'') :
    t.GrowsInto t'' := by
  induction h generalizing t'' with
  | leaf root laid => exact .leaf (root.trans h'.root) (laid.grown h')
  | chain root below ih =>
      cases h' with
      | chain root' below' => exact .chain (root.trans root') (ih below')
  | fork root left right ihl ihr =>
      cases h' with
      | fork root' left' right' => exact .fork (root.trans root') (ihl left') (ihr right')

/-! Every operation on trees is a growth. -/

theorem grown_addPremise (number : Nat) (formula : Formula) (t : Tree) :
    t.GrowsInto (t.addPremise number formula) := by
  induction t with
  | leaf s =>
      have added : ((s.follow number formula).closeIf s.closed).lineage = s.lineage :=
        (Statement.Becomes.closeIf _ _).lineage
      exact .leaf (.refl s) ⟨rfl, added⟩
  | chain s t ih => exact .chain (.refl s) ih
  | fork s l r ihl ihr => exact .fork (.refl s) ihl (.refl r)

theorem grown_attach (d : Decomposition) (next : Nat) (s : Statement) :
    (leaf s).GrowsInto (attach d next s).1 := by
  cases d with
  | literal => exact .refl (leaf s)
  | single f => exact .leaf (.refl s) ⟨rfl, rfl⟩
  | stacked f g => exact .leaf (.refl s) ⟨rfl, rfl, rfl⟩
  | forked f g => exact .leaf (.refl s) ⟨rfl, rfl, rfl, rfl⟩

theorem grown_grow (d : Decomposition) (next : Nat) (t : Tree) : t.GrowsInto (grow d next t).1 := by
  induction t generalizing next with
  | leaf s =>
      rw [grow]
      split
      · exact .refl (.leaf s)
      · exact grown_attach d next s
  | chain s t ih =>
      rw [grow]
      split
      · exact .refl (.chain s t)
      · exact .chain (.refl s) (ih next)
  | fork s l r ihl ihr =>
      rw [grow]
      split
      · exact .refl (.fork s l r)
      · exact .fork (.refl s) (ihl next) (ihr _)

theorem grown_mapRoot_expand (t : Tree) : t.GrowsInto (t.mapRoot Statement.expand) := by
  cases t with
  | leaf s => exact .leaf (.expand s) rfl
  | chain s t => exact .chain (.expand s) (.refl t)
  | fork s l r => exact .fork (.expand s) (.refl l) (.refl r)

theorem grown_expandAt_root {t : Tree} {number : Nat} (h : t.root.number = number) (d : Decomposition)
    (next : Nat) : t.GrowsInto (expandAt number d next t).1 := by
  rw [expandAt_root h]
  exact (grown_mapRoot_expand t).trans (grown_grow d next _)

theorem grown_expandAt (number : Nat) (d : Decomposition) (next : Nat) (t : Tree) :
    t.GrowsInto (expandAt number d next t).1 := by
  induction t generalizing next with
  | leaf s =>
      by_cases hn : (leaf s).root.number = number
      · exact grown_expandAt_root hn d next
      · rw [expandAt, if_neg hn]
        exact .refl (.leaf s)
  | chain s t ih =>
      by_cases hn : (chain s t).root.number = number
      · exact grown_expandAt_root hn d next
      · rw [expandAt, if_neg hn]
        exact .chain (.refl s) (ih next)
  | fork s l r ihl ihr =>
      by_cases hn : (fork s l r).root.number = number
      · exact grown_expandAt_root hn d next
      · rw [expandAt, if_neg hn]
        exact .fork (.refl s) (ihl next) (ihr _)

theorem grown_map_close (t : Tree) : t.GrowsInto (t.map Statement.close) := by
  induction t with
  | leaf s => exact .leaf (.close s) rfl
  | chain s t ih => exact .chain (.close s) ih
  | fork s l r ihl ihr => exact .fork (.close s) ihl ihr

theorem grown_closeAt (number : Nat) (t : Tree) : t.GrowsInto (t.closeAt number) := by
  induction t with
  | leaf s =>
      rw [closeAt]
      split
      · exact grown_map_close (.leaf s)
      · exact .refl (.leaf s)
  | chain s t ih =>
      rw [closeAt]
      split
      · exact grown_map_close (.chain s t)
      · exact .chain (.closeIf s _) ih
  | fork s l r ihl ihr =>
      rw [closeAt]
      split
      · exact grown_map_close (.fork s l r)
      · exact .fork (.closeIf s _) ihl ihr

theorem self_mem_places (above : List Statement) (t : Tree) : ⟨above, t⟩ ∈ t.places above := by
  cases t <;> simp [places]

theorem GrowsInto.place {t t' : Tree} (h : t.GrowsInto t') {above above' : List Statement}
    (path : List.Forall₂ Statement.Becomes above above') {p : Place} (hp : p ∈ t.places above) :
    ∃ p' ∈ t'.places above', List.Forall₂ Statement.Becomes p.above p'.above ∧
      p.here.GrowsInto p'.here := by
  induction h generalizing above above' with
  | @leaf s t root laid =>
      obtain rfl := List.mem_singleton.mp hp
      exact ⟨⟨above', t⟩, self_mem_places above' t, path, .leaf root laid⟩
  | @chain s s' t t' root below ih =>
      rcases mem_places_chain.mp hp with rfl | hp
      · exact ⟨⟨above', .chain s' t'⟩, self_mem_places above' _, path, .chain root below⟩
      · obtain ⟨p', hp', same, grown⟩ := ih (.cons root path) hp
        exact ⟨p', mem_places_chain.mpr (.inr hp'), same, grown⟩
  | @fork s s' l l' r r' root left right ihl ihr =>
      rcases mem_places_fork.mp hp with rfl | hp | hp
      · exact ⟨⟨above', .fork s' l' r'⟩, self_mem_places above' _, path, .fork root left right⟩
      · obtain ⟨p', hp', same, grown⟩ := ihl (.cons root path) hp
        exact ⟨p', mem_places_fork.mpr (.inr (.inl hp')), same, grown⟩
      · obtain ⟨p', hp', same, grown⟩ := ihr (.cons root path) hp
        exact ⟨p', mem_places_fork.mpr (.inr (.inr hp')), same, grown⟩

end Tree

namespace Tableau

theorem Change.growsInto {t u : Tableau} {call : Call} (change : Change t call u.tree u.next) :
    t.tree.GrowsInto u.tree := by
  obtain ⟨tree, next, refusal⟩ := u
  cases change with
  | declined operation => exact .refl t.tree
  | expanded place fresh rule proper => exact Tree.grown_expandAt _ _ _ t.tree
  | closed place lower upper above contradiction => exact Tree.grown_closeAt _ t.tree
  | premised formula => exact Tree.grown_addPremise _ formula t.tree

theorem WellBuilt.growsInto_after {t : Tableau} (h : t.WellBuilt) (call : Call) :
    t.tree.GrowsInto (t.after call).tree :=
  (change_after h.numbered call).growsInto

theorem WellBuilt.growsInto_run {t : Tableau} (h : t.WellBuilt) (calls : List Call) :
    t.tree.GrowsInto (t.run calls).tree :=
  h.run_invariant (fun u => t.tree.GrowsInto u.tree) (.refl t.tree)
    (fun _ call built grown => grown.trans (built.growsInto_after call)) calls

theorem Reachable.laid {t : Tableau} (h : t.Reachable) : t.tree.Laid .trunk := by
  obtain ⟨first, rest, calls, rfl⟩ := h
  have built := wellBuilt_start first
  have start : (start first).tree.Laid .trunk := rfl
  rw [ofPremises_eq_run]
  exact (start.grown (built.growsInto_run _)).grown ((built.run _).growsInto_run calls)

end Tableau

end TruthTree
