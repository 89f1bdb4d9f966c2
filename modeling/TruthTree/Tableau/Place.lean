import TruthTree.Tableau.Tree

/-! Places in a tree. A place is a subtree together with the statements above it. The places of a tree
are listed by recursion, and visited in the same order with an explicit stack. -/
namespace TruthTree

/-- A subtree and the statements above it, the nearest first. -/
structure Place where
  above : List Statement
  here : Tree
  deriving DecidableEq

namespace Place

def statement (p : Place) : Statement := p.here.root

def parent? (p : Place) : Option Statement := p.above.head?

def children (p : Place) : List Place :=
  match p.here with
  | .leaf _ => []
  | .chain s t => [⟨s :: p.above, t⟩]
  | .fork s l r => [⟨s :: p.above, l⟩, ⟨s :: p.above, r⟩]

def isLeaf (p : Place) : Bool :=
  match p.here with
  | .leaf _ => true
  | _ => false

def isFork (p : Place) : Bool :=
  match p.here with
  | .fork _ _ _ => true
  | _ => false

def side? (p : Place) : Option Side :=
  match p.statement.lineage.split, p.parent? with
  | some split, some parent => if split.origin = parent.number then some split.side else none
  | _, _ => none

end Place

namespace Tree

/-- The places of a tree that stands below `above`, each before those below it, left before right. -/
def places (above : List Statement) : Tree → List Place
  | leaf s => [⟨above, leaf s⟩]
  | chain s t => ⟨above, chain s t⟩ :: t.places (s :: above)
  | fork s l r => ⟨above, fork s l r⟩ :: l.places (s :: above) ++ r.places (s :: above)

@[simp] theorem map_statement_places (above : List Statement) (t : Tree) :
    (t.places above).map Place.statement = t.statements := by
  induction t generalizing above with
  | leaf s => rfl
  | chain s t ih => simp [places, statements, Place.statement, ih]
  | fork s l r ihl ihr => simp [places, statements, Place.statement, ihl, ihr]

end Tree

namespace Place

def waiting : List Place → Nat
  | [] => 0
  | p :: stack => p.here.size + waiting stack

/-- Visits the places on the stack and those below them, and passes over any whose statement is to be
skipped together with all below it. -/
def walk (skip : Statement → Bool) : List Place → List Place
  | [] => []
  | p :: stack =>
    if skip p.statement then walk skip stack
    else p :: walk skip (p.children ++ stack)
termination_by stack => waiting stack
decreasing_by
  · have := p.here.size_pos
    simp only [waiting]
    omega
  · obtain ⟨above, here⟩ := p
    cases here with
    | leaf s =>
        simp only [waiting, children, Tree.size, List.nil_append]
        omega
    | chain s t =>
        simp only [waiting, children, Tree.size, List.cons_append, List.nil_append]
        omega
    | fork s l r =>
        simp only [waiting, children, Tree.size, List.cons_append, List.nil_append]
        omega

theorem walk_append (skip : Statement → Bool) (upper lower : List Place) :
    walk skip (upper ++ lower) = walk skip upper ++ walk skip lower := by
  fun_induction walk skip upper with
  | case1 => rfl
  | case2 p stack skipped ih => rw [List.cons_append, walk, if_pos skipped, ih]
  | case3 p stack kept ih =>
      rw [List.cons_append, walk, if_neg kept, ← List.append_assoc, ih, List.cons_append]

theorem walk_eq_places (above : List Statement) (t : Tree) :
    walk (fun _ => false) [⟨above, t⟩] = t.places above := by
  induction t generalizing above with
  | leaf s => simp [walk, children, Tree.places]
  | chain s t ih =>
      rw [walk, if_neg Bool.false_ne_true, List.append_nil]
      simp only [children, ih, Tree.places]
  | fork s l r ihl ihr =>
      have sides := walk_append (fun _ => false) [⟨s :: above, l⟩] [⟨s :: above, r⟩]
      rw [walk, if_neg Bool.false_ne_true, List.append_nil]
      simp only [children, Tree.places, List.cons_append, List.nil_append] at sides ⊢
      rw [sides, ihl, ihr]

end Place

end TruthTree
