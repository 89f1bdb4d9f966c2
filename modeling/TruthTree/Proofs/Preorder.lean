import TruthTree.Proofs.Justification

/-! The order of a walk. A walk keeps a stack, but what it visits is the subtree in the order of the
recursive rule: a node, then all at or below its left child, then all at or below its right child. Passing
over closed statements leaves out just the closed ones, because whatever stands below them is closed. -/
namespace TruthTree

namespace Tableau

/-- A run of the loop over a stack of numbers, with the nodes that it yields. The number on top is looked
up. Its node is passed over, or it is yielded and its links take its place on the stack. -/
inductive Visits (t : Tableau) (skip : Node → Bool) : List Nat → List Node → Prop
  | done : Visits t skip [] []
  | skipped {number : Nat} {node : Node} {stack : List Nat} {visited : List Node}
      (found : t.node? number = some node) (passed : skip node = true)
      (rest : Visits t skip stack visited) : Visits t skip (number :: stack) visited
  | yielded {number : Nat} {node : Node} {stack : List Nat} {visited : List Node}
      (found : t.node? number = some node) (kept : skip node = false)
      (rest : Visits t skip (node.children ++ stack) visited) :
      Visits t skip (number :: stack) (node :: visited)

/-- The nodes at and below a link by the recursive rule: the node itself, then what its left link leads
to, then what its right link leads to. -/
inductive Preorder (t : Tableau) : Option Nat → List Node → Prop
  | nothing : Preorder t none []
  | node {number : Nat} {node : Node} {left right : List Node} (found : t.node? number = some node)
      (hleft : Preorder t node.left left) (hright : Preorder t node.right right) :
      Preorder t (some number) (node :: left ++ right)

theorem Preorder.unique {t : Tableau} {link : Option Nat} {order order' : List Node}
    (h : t.Preorder link order) (h' : t.Preorder link order') : order = order' := by
  induction h generalizing order' with
  | nothing =>
      cases h'
      rfl
  | node found hleft hright ihl ihr =>
      cases h' with
      | node found' hleft' hright' =>
          obtain rfl := Option.some.inj (found.symm.trans found')
          rw [ihl hleft', ihr hright']

end Tableau

namespace Place

theorem places_here (p : Place) :
    p.here.places p.above = p :: p.children.flatMap fun q => q.here.places q.above := by
  obtain ⟨above, here⟩ := p
  cases here <;> simp [Tree.places, children]

theorem visits_walk {t : Tableau} (h : t.Numbered) {skip : Statement → Bool} {skipNode : Node → Bool}
    (agree : ∀ p : Place, skipNode p.node = skip p.statement) {stack : List Place}
    (hstack : ∀ p ∈ stack, p ∈ t.places) :
    t.Visits skipNode (stack.map (·.statement.number)) ((walk skip stack).map node) := by
  fun_induction walk skip stack with
  | case1 => exact .done
  | case2 p stack skipped ih =>
      obtain ⟨hp, hstack⟩ := List.forall_mem_cons.mp hstack
      exact .skipped (Tableau.node?_of_place h hp) (by rw [agree, skipped]) (ih hstack)
  | case3 p stack kept ih =>
      obtain ⟨hp, hstack⟩ := List.forall_mem_cons.mp hstack
      have below : ∀ q ∈ p.children ++ stack, q ∈ t.places := by
        rw [List.forall_mem_append]
        exact ⟨fun q hq => Tree.mem_places_of_mem_children hp hq, hstack⟩
      have rest := ih below
      rw [List.map_append, ← children_node] at rest
      exact .yielded (Tableau.node?_of_place h hp) (by rw [agree]; simpa using kept) rest

theorem preorder_places {t : Tableau} (h : t.Numbered) (here : Tree) {above : List Statement}
    (place : ⟨above, here⟩ ∈ t.places) :
    t.Preorder (some here.root.number) ((here.places above).map node) := by
  induction here generalizing above with
  | leaf s => exact .node (Tableau.node?_of_place h place) .nothing .nothing
  | chain s below ih =>
      have child := Tree.mem_places_of_mem_children place (mem_children_chain.mpr rfl)
      have order := Tableau.Preorder.node (Tableau.node?_of_place h place) (ih child) .nothing
      rwa [List.append_nil] at order
  | fork s l r ihl ihr =>
      have left := Tree.mem_places_of_mem_children place (mem_children_fork.mpr (.inl rfl))
      have right := Tree.mem_places_of_mem_children place (mem_children_fork.mpr (.inr rfl))
      have order := Tableau.Preorder.node (Tableau.node?_of_place h place) (ihl left) (ihr right)
      rwa [List.cons_append, ← List.map_append, ← List.map_cons] at order

def Inherited (skip : Statement → Bool) (places : List Place) : Prop :=
  ∀ p ∈ places, ∀ q ∈ p.children, skip p.statement = true → skip q.statement = true

theorem walk_of_skipped {skip : Statement → Bool} {t : Tree} {above : List Statement}
    (inherited : Inherited skip (t.places above)) (skipped : skip t.root = true) :
    walk skip [⟨above, t⟩] = (t.places above).filter fun p => !skip p.statement := by
  have all : ∀ p ∈ t.places above, skip p.statement = true := Tree.places_induction skipped inherited
  have none : (t.places above).filter (fun p => !skip p.statement) = [] := by
    rw [List.filter_eq_nil_iff]
    intro p hp
    simp [all p hp]
  rw [none, walk, if_pos (all _ (Tree.self_mem_places above t)), walk]

theorem walk_of_kept {skip : Statement → Bool} {p : Place} (kept : ¬skip p.statement = true) :
    walk skip [p] = p :: walk skip p.children := by
  rw [walk, if_neg kept, List.append_nil]

theorem walk_eq_filter {skip : Statement → Bool} {t : Tree} {above : List Statement}
    (inherited : Inherited skip (t.places above)) :
    walk skip [⟨above, t⟩] = (t.places above).filter fun p => !skip p.statement := by
  induction t generalizing above with
  | leaf s =>
      by_cases skipped : skip s = true
      · exact walk_of_skipped inherited skipped
      · rw [walk_of_kept skipped]
        simp [children, walk, Tree.places, statement, skipped]
  | chain s t ih =>
      by_cases skipped : skip s = true
      · exact walk_of_skipped inherited skipped
      · have below := ih fun p hp => inherited p (Tree.mem_places_chain.mpr (.inr hp))
        rw [walk_of_kept skipped]
        simp [children, below, Tree.places, statement, skipped]
  | fork s l r ihl ihr =>
      by_cases skipped : skip s = true
      · exact walk_of_skipped inherited skipped
      · have left := ihl fun p hp => inherited p (Tree.mem_places_fork.mpr (.inr (.inl hp)))
        have right := ihr fun p hp => inherited p (Tree.mem_places_fork.mpr (.inr (.inr hp)))
        have sides := walk_append skip [⟨s :: above, l⟩] [⟨s :: above, r⟩]
        rw [List.singleton_append, left, right] at sides
        rw [walk_of_kept skipped]
        simp [children, sides, Tree.places, statement, skipped]

theorem inherited_closed {t : Tree} (h : t.Coherent) (above : List Statement) :
    Inherited Statement.closed (t.places above) := by
  intro p hp q hq closed
  have coherent := h.here hp
  obtain ⟨upper, here⟩ := p
  cases here with
  | leaf s => cases hq
  | chain s t =>
      obtain rfl := mem_children_chain.mp hq
      rw [← closed]
      exact coherent.1.symm
  | fork s l r =>
      have both : (l.root.closed && r.root.closed) = true := coherent.1.symm.trans closed
      rw [Bool.and_eq_true] at both
      rcases mem_children_fork.mp hq with rfl | rfl
      · exact both.1
      · exact both.2

end Place

namespace Tree

theorem sublist_places {t : Tree} {above : List Statement} :
    ∀ p ∈ t.places above, List.Sublist (p.here.places p.above) (t.places above) := by
  apply places_induction
  · exact List.Sublist.refl _
  · intro p _ q hq listed
    refine List.Sublist.trans ?_ listed
    have member := List.mem_map_of_mem (f := fun q : Place => q.here.places q.above) hq
    rw [p.places_here, List.flatMap_def]
    exact (List.sublist_flatten_of_mem member).cons p

theorem sublist_child {t : Tree} {above : List Statement} {p q : Place} (hp : p ∈ t.places above)
    (hq : q ∈ p.children) : List.Sublist [p, q] (t.places above) := by
  refine List.Sublist.trans ?_ (sublist_places p hp)
  rw [p.places_here, List.cons_sublist_cons, List.singleton_sublist, List.mem_flatMap]
  exact ⟨q, hq, self_mem_places q.above q.here⟩

theorem sublist_sides {t : Tree} {above : List Statement} {p l r q q' : Place} (hp : p ∈ t.places above)
    (left : p.child? .left = some l) (right : p.child? .right = some r)
    (hq : q ∈ l.here.places l.above) (hq' : q' ∈ r.here.places r.above) :
    List.Sublist [q, q'] (t.places above) := by
  refine List.Sublist.trans ?_ (sublist_places p hp)
  have sides : p.children = [l, r] := by
    obtain ⟨upper, here⟩ := p
    cases here with
    | leaf s => cases left
    | chain s t => cases right
    | fork s l r =>
        cases left
        cases right
        rfl
  rw [p.places_here, sides]
  refine List.Sublist.cons p ?_
  simp only [List.flatMap_cons, List.flatMap_nil, List.append_nil]
  exact (List.singleton_sublist.mpr hq).append (List.singleton_sublist.mpr hq')

end Tree

namespace Tableau

theorem mem_below_iff {t : Tableau} (h : t.Numbered) {p : Place} (hp : p ∈ t.places) {q : Place} :
    q ∈ p.here.places p.above ↔ q ∈ t.places ∧ p.statement ∈ q.statement :: q.above := by
  constructor
  · intro hq
    exact ⟨Tree.mem_places_of_mem_below hp q hq, Tree.statement_mem_of_mem_below p q hq⟩
  · rintro ⟨hq, up⟩
    have here : ∀ q ∈ t.places, p.statement = q.statement → q ∈ p.here.places p.above := by
      intro q hq same
      rw [← place_unique h.nodup hp hq (congrArg Statement.number same)]
      exact Tree.self_mem_places p.above p.here
    revert up
    revert q
    apply Tree.places_induction
    · intro up
      exact here _ (Tree.self_mem_places [] t.tree) (List.mem_singleton.mp up)
    · intro parent hparent q hq below up
      rw [Place.above_of_mem_children hq] at up
      rcases List.mem_cons.mp up with same | up
      · exact here q (Tree.mem_places_of_mem_children hparent hq) same
      · exact Tree.mem_places_of_mem_children (below up) hq

structure WalkedInOrder (t : Tableau) (p : Place) : Prop where
  /-- The loop over numbers comes to an end, and has then yielded the nodes of the walk. -/
  loop : t.Visits (fun _ => false) [p.statement.number]
    ((Place.walk (fun _ => false) [p]).map Place.node)
  /-- They are listed by the recursive rule. -/
  order : ∀ order, t.Preorder (some p.statement.number) order ↔
    order = (Place.walk (fun _ => false) [p]).map Place.node
  /-- They are the place itself and those from which the way up leads to it. -/
  members : ∀ q, q ∈ Place.walk (fun _ => false) [p] ↔
    q ∈ t.places ∧ p.statement ∈ q.statement :: q.above
  once : ((Place.walk (fun _ => false) [p]).map (·.statement.number)).Nodup
  /-- With closed nodes passed over, the loop yields the open ones in the same order. -/
  loop_open : t.Visits Node.closed [p.statement.number]
    ((Place.walk Statement.closed [p]).map Place.node)
  opened : Place.walk Statement.closed [p] =
    (Place.walk (fun _ => false) [p]).filter fun q => !q.statement.closed

theorem walkedInOrder {t : Tableau} (h : t.WellBuilt) {p : Place} (hp : p ∈ t.places) :
    t.WalkedInOrder p := by
  have numbered := h.numbered
  have walked : Place.walk (fun _ => false) [p] = p.here.places p.above :=
    Place.walk_eq_places p.above p.here
  have alone : ∀ q ∈ [p], q ∈ t.places := by simpa using hp
  refine ⟨Place.visits_walk numbered (fun _ => rfl) alone, ?_, ?_, ?_,
    Place.visits_walk numbered (fun _ => rfl) alone, ?_⟩
  · intro order
    have listed := Place.preorder_places numbered p.here hp
    rw [walked]
    constructor
    · exact fun other => other.unique listed
    · rintro rfl
      exact listed
  · intro q
    rw [walked]
    exact mem_below_iff numbered hp
  · have unique := numbered.nodup
    rw [← Tree.map_number_places []] at unique
    rw [walked]
    exact ((Tree.sublist_places p hp).map _).nodup unique
  · rw [walked]
    exact Place.walk_eq_filter (Place.inherited_closed (h.coherent.here hp) p.above)

/-- A walk with a stack visits a subtree in the order of the recursive rule. From every node of a tableau
that premises and calls lead to, it ends after yielding that node and those below it, each once: the node,
then the left subtree, then the right one. With closed nodes passed over, it yields the open ones in that
order. So the traversal lists every number from one to the size once, each node after its parent, and the
left subtree of a fork before the right one. -/
theorem walk_follows_recursion {t : Tableau} (h : t.Reachable) :
    (∀ p ∈ t.places, t.WalkedInOrder p) ∧
    (t.traverse.map (·.statement.number)).Perm (List.range' 1 t.size) ∧
    (∀ p ∈ t.traverse, ∀ q ∈ p.children, List.Sublist [p, q] t.traverse) ∧
    ∀ p ∈ t.traverse, ∀ l r, p.child? .left = some l → p.child? .right = some r →
      ∀ q ∈ Place.walk (fun _ => false) [l], ∀ q' ∈ Place.walk (fun _ => false) [r],
        List.Sublist [q, q'] t.traverse := by
  have built := h.wellBuilt
  rw [traverse_eq_places]
  refine ⟨fun p hp => walkedInOrder built hp, ?_, fun p hp q => Tree.sublist_child hp, ?_⟩
  · rw [places, Tree.map_number_places]
    exact built.numbered.perm
  · intro p hp l r left right q hq q' hq'
    rw [Place.walk_eq_places] at hq hq'
    exact Tree.sublist_sides hp left right hq hq'

-- Two disjunctions, both expanded, and the denial of the first letter, which comes late and is
-- closed with that letter. From the first side of the upper fork, the walk over open nodes goes to
-- the other side of the lower one.
theorem walk_follows_recursion_disjunctions :
    let either := fun a b : Char => Formula.ofSentence (.compound .disjunction (.atom [a]) (.atom [b]))
    let t := (ofPremises (either 'P' 'Q') [either 'R' 'S']).run
      [.perform (.expand 1), .perform (.expand 2), .addPremise (.ofSentence (.negation (.atom ['P']))),
        .perform (.close 9 3)]
    t.Reachable ∧ t.traverse.map (·.statement.number) = [1, 2, 3, 5, 9, 6, 4, 7, 8] ∧
      (t.traverse.map (·.statement.number)).Perm (List.range' 1 t.size) ∧
      ∃ p ∈ t.places, t.WalkedInOrder p ∧
        (Place.walk (fun _ => false) [p]).map (·.statement.number) = [3, 5, 9, 6] ∧
        (Place.walk Statement.closed [p]).map (·.statement.number) = [3, 6] := by
  intro either t
  have reachable : t.Reachable := ⟨_, _, _, rfl⟩
  have listed : t.traverse.map (·.statement.number) = [1, 2, 3, 5, 9, 6, 4, 7, 8] := by
    unfold t either
    cbv
  have third : (t.place? 3).any (fun p =>
      (Place.walk (fun _ => false) [p]).map (·.statement.number) = [3, 5, 9, 6] &&
        (Place.walk Statement.closed [p]).map (·.statement.number) = [3, 6]) = true := by
    unfold t either
    cbv
  clear_value t
  obtain ⟨walked, numbers, -, -⟩ := walk_follows_recursion reachable
  cases found : t.place? 3 with
  | none =>
      rw [found] at third
      cases third
  | some p =>
      rw [found, Option.any_some, Bool.and_eq_true, decide_eq_true_eq, decide_eq_true_eq] at third
      have place := List.mem_of_find?_eq_some found
      exact ⟨reachable, listed, numbers, p, place, walked p place, third⟩

end Tableau

end TruthTree
