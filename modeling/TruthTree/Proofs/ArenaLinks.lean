import TruthTree.Proofs.ArenaRefinement

/-! The links of an arena. Whatever calls build it, the place of a node in the table is its number, the
links from parents to children and back agree, and the links from the root lead to every node in one way
only. No attachment has overwritten a link. -/
namespace TruthTree

namespace Arena

def follow (a : Arena) (number : Nat) : List Side → Option Nat
  | [] => some number
  | side :: path => do
    let node ← a.at? number
    let child ← node.child side
    a.follow child path

structure Linked (a : Arena) : Prop where
  /-- Nodes stand in the table by their numbers, from one on. -/
  position : ∀ i node, a.nodes[i]? = some node → node.number = i + 1
  lookup : ∀ i : Nat, a.lookUp (i + 1 : Nat) = some a.nodes[i]?
  next : a.next = a.nodes.length + 1
  root : ∃ node, a.nodes[0]? = some node ∧ node.parent = none
  only_root : ∀ node ∈ a.nodes, node.parent = none → node.number = 1
  /-- A parent has a lower number, and one of its two links leads back. -/
  parent : ∀ node ∈ a.nodes, ∀ upper, node.parent = some upper → upper < node.number ∧
    ∃ parent, a.at? upper = some parent ∧ ∃! side, parent.child side = some node.number
  child : ∀ node ∈ a.nodes, ∀ side lower, node.child side = some lower →
    ∃ child, a.at? lower = some child ∧ child.parent = some node.number
  right : ∀ node ∈ a.nodes, ∀ r, node.right = some r → ∃ l, node.left = some l ∧ r = l + 1
  path : ∀ node ∈ a.nodes, ∃! path, a.follow 1 path = some node.number

theorem follow_concat (a : Arena) (number : Nat) (path : List Side) (side : Side) :
    a.follow number (path ++ [side]) =
      (a.follow number path).bind fun m => (a.at? m).bind fun node => node.child side := by
  induction path generalizing number with
  | nil => simp [follow]
  | cons first path ih =>
      simp only [List.cons_append, follow, Option.bind_eq_bind, ih, Option.bind_assoc]

end Arena

namespace Tableau

variable {t : Tableau}

theorem at?_of_place (h : t.Numbered) {p : Place} (hp : p ∈ t.places) :
    t.arena.at? p.statement.number = some p.node :=
  (at?_arena h _).trans (node?_of_place h hp)

theorem follow_concat_eq_some_iff (h : t.Numbered) {start : Nat} {path : List Side} {side : Side}
    {number : Nat} :
    t.arena.follow start (path ++ [side]) = some number ↔
      ∃ p ∈ t.places, ∃ q, t.arena.follow start path = some p.statement.number ∧
        p.child? side = some q ∧ q.statement.number = number := by
  simp only [Arena.follow_concat, Option.bind_eq_some_iff, at?_arena h, node?_eq_some_iff h,
    mem_nodes_iff]
  constructor
  · rintro ⟨m, reached, node, ⟨⟨p, hp, rfl⟩, same⟩, link⟩
    obtain ⟨q, child, lower⟩ := Place.node_child_eq_some_iff.mp link
    obtain rfl : p.statement.number = m := Int.ofNat_inj.mp same
    exact ⟨p, hp, q, reached, child, lower⟩
  · rintro ⟨p, hp, q, reached, child, rfl⟩
    exact ⟨_, reached, p.node, ⟨⟨p, hp, rfl⟩, rfl⟩, Place.child_node child⟩

theorem exists_path (h : t.WellBuilt) :
    ∀ p ∈ t.places, ∃ path, t.arena.follow 1 path = some p.statement.number := by
  apply Tree.places_induction
  · exact ⟨[], congrArg some (root_number h).symm⟩
  · rintro p hp q hq ⟨path, reached⟩
    obtain ⟨side, child⟩ := Place.mem_children_iff.mp hq
    exact ⟨path ++ [side], (follow_concat_eq_some_iff h.numbered).mpr ⟨p, hp, q, reached, child, rfl⟩⟩

theorem follow_concat_ne_one (h : t.WellBuilt) (path : List Side) (side : Side) :
    t.arena.follow 1 (path ++ [side]) ≠ some 1 := by
  intro reached
  obtain ⟨p, hp, q, -, child, one⟩ := (follow_concat_eq_some_iff h.numbered).mp reached
  have order := number_lt_of_mem_children h hp (Place.mem_children_iff.mpr ⟨side, child⟩)
  have positive := number_pos h.numbered hp
  omega

theorem path_unique (h : t.WellBuilt) (laid : t.tree.Laid .trunk) {path path' : List Side}
    {number : Nat} (reached : t.arena.follow 1 path = some number)
    (reached' : t.arena.follow 1 path' = some number) : path = path' := by
  -- The last links of both come from the parent of the node, which has one link to it.
  induction path using List.reverseRecOn generalizing path' number with
  | nil =>
      cases reached
      rcases List.eq_nil_or_concat path' with rfl | ⟨front', side', rfl⟩
      · rfl
      · rw [List.concat_eq_append] at reached'
        exact absurd reached' (follow_concat_ne_one h front' side')
  | append_singleton front side ih =>
      rcases List.eq_nil_or_concat path' with rfl | ⟨front', side', rfl⟩
      · cases reached'
        exact absurd reached (follow_concat_ne_one h front side)
      · rw [List.concat_eq_append] at reached' ⊢
        obtain ⟨p, hp, q, before, child, rfl⟩ := (follow_concat_eq_some_iff h.numbered).mp reached
        obtain ⟨p', hp', q', before', child', same⟩ :=
          (follow_concat_eq_some_iff h.numbered).mp reached'
        have hq := Place.mem_children_iff.mpr ⟨side, child⟩
        have hq' := Place.mem_children_iff.mpr ⟨side', child'⟩
        obtain rfl : q' = q := place_unique h.numbered.nodup (Tree.mem_places_of_mem_children hp' hq')
          (Tree.mem_places_of_mem_children hp hq) same
        obtain rfl := parent_unique h hp hp' hq hq'
        rw [ih before before', Place.side_unique (laid.here p hp) child child' rfl]

theorem link_to_parent (h : t.WellBuilt) (laid : t.tree.Laid .trunk) {node : Node}
    (hnode : node ∈ t.nodes) {upper : Nat} (link : node.parent = some upper) :
    upper < node.number ∧ ∃ parent, t.arena.at? upper = some parent ∧
      ∃! side, parent.child side = some node.number := by
  obtain ⟨p, hp, rfl⟩ := mem_nodes_iff.mp hnode
  rcases Tree.parent_of_mem_places hp with rfl | ⟨q, hq, child⟩
  · cases link
  · rw [Place.parent_node child] at link
    obtain rfl := Option.some.inj link
    obtain ⟨side, here⟩ := Place.mem_children_iff.mp child
    refine ⟨number_lt_of_mem_children h hq child, q.node, at?_of_place h.numbered hq, side,
      Place.child_node here, ?_⟩
    intro side' other
    obtain ⟨p', here', same⟩ := Place.node_child_eq_some_iff.mp other
    exact Place.side_unique (laid.here q hq) here' here same

theorem link_to_child (h : t.Numbered) {node : Node} (hnode : node ∈ t.nodes) {side : Side} {lower : Nat}
    (link : node.child side = some lower) :
    ∃ child, t.arena.at? lower = some child ∧ child.parent = some node.number := by
  obtain ⟨p, hp, rfl⟩ := mem_nodes_iff.mp hnode
  obtain ⟨q, here, rfl⟩ := Place.node_child_eq_some_iff.mp link
  have child := Place.mem_children_iff.mpr ⟨side, here⟩
  have place := Tree.mem_places_of_mem_children hp child
  exact ⟨q.node, at?_of_place h place, Place.parent_node child⟩

theorem link_to_right (laid : t.tree.Laid .trunk) {node : Node} (hnode : node ∈ t.nodes)
    {r : Nat} (link : node.right = some r) : ∃ l, node.left = some l ∧ r = l + 1 := by
  obtain ⟨p, hp, rfl⟩ := mem_nodes_iff.mp hnode
  obtain ⟨q, here, rfl⟩ := Option.map_eq_some_iff.mp link
  obtain ⟨l, left, next⟩ := Place.number_right (laid.here p hp) here
  exact ⟨l.statement.number, Option.map_eq_some_iff.mpr ⟨l, left, rfl⟩, next⟩

theorem linked_arena (h : t.WellBuilt) (laid : t.tree.Laid .trunk) : t.arena.Linked where
  position _ _ := number_of_position h.numbered
  lookup i := (lookUp_arena h.numbered _).trans (congrArg some (node?_eq_getElem? h.numbered i))
  next := (holds_arena h.numbered).tight
  root := ⟨_, first_node h, rfl⟩
  only_root _ := number_one_of_orphan h
  parent _ hnode _ := link_to_parent h laid hnode
  child _ hnode _ _ := link_to_child h.numbered hnode
  right _ hnode _ := link_to_right laid hnode
  path := by
    intro node hnode
    obtain ⟨p, hp, rfl⟩ := mem_nodes_iff.mp hnode
    obtain ⟨path, reached⟩ := exists_path h p hp
    exact ⟨path, reached, fun _ other => path_unique h laid other reached⟩

end Tableau

namespace Arena

/-- An arena is built from premises and taken through any calls. No link on the way leads to no node and
no loop runs on for ever; the arena in the end is linked as a tree, and is that of the tableau which the
same calls lead to. -/
theorem run_keeps_links (first : Formula) (rest : List Formula) (calls : List Call) :
    ∃ a, (ofPremises first rest).bind (·.run calls) = some a ∧ a.Linked ∧
      a = ((Tableau.ofPremises first rest).run calls).arena := by
  have reachable : ((Tableau.ofPremises first rest).run calls).Reachable := ⟨first, rest, calls, rfl⟩
  exact ⟨_, Tableau.arena_of_calls first rest calls,
    Tableau.linked_arena reachable.wellBuilt reachable.laid, rfl⟩

-- Two disjunctions, both expanded, and a premise that comes late. The second fork grows below both
-- sides of the first, and the premise is the only child of a fork's child.
theorem run_keeps_links_disjunctions :
    let either := fun a b : Char => Formula.ofSentence (.compound .disjunction (.atom [a]) (.atom [b]))
    ∃ a, (ofPremises (either 'P' 'Q') [either 'R' 'S']).bind (·.run [.perform (.expand 1),
        .perform (.expand 2), .addPremise (.ofSentence (.negation (.atom ['P'])))]) = some a ∧
      a.Linked ∧
      a.nodes.map (fun node => (node.parent, node.left, node.right)) =
        [(none, some 2, none), (some 1, some 3, some 4), (some 2, some 5, some 6),
          (some 2, some 7, some 8), (some 3, some 9, none), (some 3, none, none),
          (some 4, none, none), (some 4, none, none), (some 5, none, none)] ∧
      a.follow 1 [.left, .left, .left, .left] = some 9 := by
  intro either
  obtain ⟨a, done, linked, rfl⟩ := run_keeps_links (either 'P' 'Q') [either 'R' 'S'] [.perform (.expand 1),
    .perform (.expand 2), .addPremise (.ofSentence (.negation (.atom ['P'])))]
  refine ⟨_, done, linked, ?_, ?_⟩
  · unfold either
    cbv
  · unfold either
    cbv

end Arena

end TruthTree
