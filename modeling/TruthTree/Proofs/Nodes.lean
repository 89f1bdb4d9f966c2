import TruthTree.Proofs.Growth
import TruthTree.Proofs.RemainingWork
import TruthTree.Tableau.Arena

/-! The tableau as a table of nodes that name each other by number. The place of a node in the table is
its number, the links from parents to children and back agree, and the links from the root lead to
every node in one way only. -/
namespace TruthTree

namespace Place

def child? (p : Place) : Side → Option Place
  | .left => p.children[0]?
  | .right => p.children[1]?

def node (p : Place) : Node where
  number := p.statement.number
  formula := p.statement.formula
  parent := p.parent?.map Statement.number
  left := (p.child? .left).map (·.statement.number)
  right := (p.child? .right).map (·.statement.number)
  closed := p.statement.closed
  expanded := p.statement.expanded
  depth := p.statement.lineage.depth
  origin := (p.statement.lineage.split.map Split.origin).getD 0
  side := p.statement.lineage.split.map Split.side

theorem node_fields (p : Place) :
    p.node.number = p.statement.number ∧ p.node.formula = p.statement.formula ∧
      p.node.closed = p.statement.closed ∧ p.node.expanded = p.statement.expanded :=
  ⟨rfl, rfl, rfl, rfl⟩

theorem node_child (p : Place) (side : Side) :
    p.node.child side = (p.child? side).map (·.statement.number) := by
  cases side <;> rfl

theorem node_child_eq_some_iff {p : Place} {side : Side} {lower : Nat} :
    p.node.child side = some lower ↔ ∃ q, p.child? side = some q ∧ q.statement.number = lower := by
  rw [node_child, Option.map_eq_some_iff]

theorem child_node {p q : Place} {side : Side} (h : p.child? side = some q) :
    p.node.child side = some q.node.number :=
  node_child_eq_some_iff.mpr ⟨q, h, rfl⟩

theorem mem_children_chain {above : List Statement} {s : Statement} {t : Tree} {q : Place} :
    q ∈ (mk above (.chain s t)).children ↔ q = ⟨s :: above, t⟩ := List.mem_singleton

theorem mem_children_fork {above : List Statement} {s : Statement} {l r : Tree} {q : Place} :
    q ∈ (mk above (.fork s l r)).children ↔ q = ⟨s :: above, l⟩ ∨ q = ⟨s :: above, r⟩ := by
  simp [children]

theorem mem_children_iff {p q : Place} : q ∈ p.children ↔ ∃ side, p.child? side = some q := by
  obtain ⟨above, here⟩ := p
  constructor
  · cases here with
    | leaf s => exact nofun
    | chain s t =>
        intro h
        obtain rfl := mem_children_chain.mp h
        exact ⟨.left, rfl⟩
    | fork s l r =>
        intro h
        rcases mem_children_fork.mp h with rfl | rfl
        · exact ⟨.left, rfl⟩
        · exact ⟨.right, rfl⟩
  · rintro ⟨side, h⟩
    cases side <;> exact List.mem_of_getElem? h

theorem above_of_mem_children {p q : Place} (h : q ∈ p.children) : q.above = p.statement :: p.above := by
  obtain ⟨above, here⟩ := p
  cases here with
  | leaf s => cases h
  | chain s t =>
      obtain rfl := mem_children_chain.mp h
      rfl
  | fork s l r => rcases mem_children_fork.mp h with rfl | rfl <;> rfl

theorem parent?_of_mem_children {p q : Place} (h : q ∈ p.children) : q.parent? = some p.statement := by
  rw [parent?, above_of_mem_children h]
  rfl

theorem parent_node {p q : Place} (h : q ∈ p.children) : q.node.parent = some p.node.number :=
  congrArg (Option.map Statement.number) (parent?_of_mem_children h)

theorem children_node (p : Place) : p.node.children = p.children.map (·.statement.number) := by
  obtain ⟨above, here⟩ := p
  cases here <;> rfl

theorem isLeaf_node (p : Place) : p.node.isLeaf = p.isLeaf := by
  obtain ⟨above, here⟩ := p
  cases here <;> rfl

theorem isFork_node (p : Place) : p.node.isFork = p.isFork := by
  obtain ⟨above, here⟩ := p
  cases here <;> rfl

end Place

namespace Tree

theorem mem_places_of_mem_children {t : Tree} {above : List Statement} {p q : Place}
    (hp : p ∈ t.places above) (hq : q ∈ p.children) : q ∈ t.places above := by
  induction t generalizing above with
  | leaf s =>
      obtain rfl := List.mem_singleton.mp hp
      cases hq
  | chain s t ih =>
      rcases mem_places_chain.mp hp with rfl | hp
      · obtain rfl := Place.mem_children_chain.mp hq
        exact mem_places_chain.mpr (.inr (self_mem_places _ t))
      · exact mem_places_chain.mpr (.inr (ih hp))
  | fork s l r ihl ihr =>
      rcases mem_places_fork.mp hp with rfl | hp | hp
      · rcases Place.mem_children_fork.mp hq with rfl | rfl
        · exact mem_places_fork.mpr (.inr (.inl (self_mem_places _ l)))
        · exact mem_places_fork.mpr (.inr (.inr (self_mem_places _ r)))
      · exact mem_places_fork.mpr (.inr (.inl (ihl hp)))
      · exact mem_places_fork.mpr (.inr (.inr (ihr hp)))

/-- What holds at the root and passes from each place to those right below it holds everywhere. -/
theorem places_induction {motive : Place → Prop} {t : Tree} {above : List Statement}
    (root : motive ⟨above, t⟩)
    (step : ∀ p ∈ t.places above, ∀ q ∈ p.children, motive p → motive q) :
    ∀ p ∈ t.places above, motive p := by
  induction t generalizing above with
  | leaf s =>
      intro p hp
      obtain rfl := List.mem_singleton.mp hp
      exact root
  | chain s t ih =>
      intro p hp
      rcases mem_places_chain.mp hp with rfl | hp
      · exact root
      · refine ih (step _ (self_mem_places _ _) _ (Place.mem_children_chain.mpr rfl) root) ?_ p hp
        exact fun q hq => step q (mem_places_chain.mpr (.inr hq))
  | fork s l r ihl ihr =>
      intro p hp
      rcases mem_places_fork.mp hp with rfl | hp | hp
      · exact root
      · have here := step _ (self_mem_places _ _) _ (Place.mem_children_fork.mpr (.inl rfl)) root
        refine ihl here ?_ p hp
        exact fun q hq => step q (mem_places_fork.mpr (.inr (.inl hq)))
      · have here := step _ (self_mem_places _ _) _ (Place.mem_children_fork.mpr (.inr rfl)) root
        refine ihr here ?_ p hp
        exact fun q hq => step q (mem_places_fork.mpr (.inr (.inr hq)))

theorem parent_of_mem_places {t : Tree} {above : List Statement} {p : Place}
    (hp : p ∈ t.places above) : p = ⟨above, t⟩ ∨ ∃ q ∈ t.places above, p ∈ q.children :=
  places_induction (motive := fun p => p = ⟨above, t⟩ ∨ ∃ q ∈ t.places above, p ∈ q.children)
    (.inl rfl) (fun q hq _ hp _ => .inr ⟨q, hq, hp⟩) p hp

theorem Laid.from_root {lineage : Lineage} {t : Tree} (h : t.Laid lineage) : t.Laid t.root.lineage := by
  rw [h.root_lineage]
  exact h

theorem Laid.here {lineage : Lineage} {t : Tree} (h : t.Laid lineage) {above : List Statement} :
    ∀ p ∈ t.places above, p.here.Laid p.statement.lineage := by
  apply places_induction
  · exact h.from_root
  · rintro ⟨upper, here⟩ - q hq laid
    cases here with
    | leaf s => cases hq
    | chain s t =>
        obtain rfl := Place.mem_children_chain.mp hq
        exact laid.2.from_root
    | fork s l r =>
        obtain ⟨-, -, hl, hr⟩ := laid
        rcases Place.mem_children_fork.mp hq with rfl | rfl
        · exact hl.from_root
        · exact hr.from_root

end Tree

theorem Place.number_right {p r : Place} (h : p.here.Laid p.statement.lineage)
    (right : p.child? .right = some r) :
    ∃ l, p.child? .left = some l ∧ r.statement.number = l.statement.number + 1 := by
  obtain ⟨above, here⟩ := p
  cases here with
  | leaf s => cases right
  | chain s t => cases right
  | fork s l r =>
      cases right
      exact ⟨_, rfl, h.2.1⟩

theorem Place.side_unique {p a b : Place} (h : p.here.Laid p.statement.lineage) {side side' : Side}
    (ha : p.child? side = some a) (hb : p.child? side' = some b)
    (same : a.statement.number = b.statement.number) : side = side' := by
  cases side with
  | left =>
      cases side' with
      | left => rfl
      | right =>
          obtain ⟨l, hl, next⟩ := p.number_right h hb
          obtain rfl := Option.some.inj (ha.symm.trans hl)
          omega
  | right =>
      cases side' with
      | left =>
          obtain ⟨l, hl, next⟩ := p.number_right h ha
          obtain rfl := Option.some.inj (hb.symm.trans hl)
          omega
      | right => rfl

namespace Tableau

def nodes (t : Tableau) : List Node := t.listing.map Place.node

def node? (t : Tableau) (number : Int) : Option Node := (t.place? number).map Place.node

theorem mem_nodes_iff {t : Tableau} {node : Node} : node ∈ t.nodes ↔ ∃ p ∈ t.places, p.node = node := by
  rw [nodes, List.mem_map]
  simp only [mem_listing_iff]

theorem node_mem_nodes {t : Tableau} {p : Place} (hp : p ∈ t.places) : p.node ∈ t.nodes :=
  mem_nodes_iff.mpr ⟨p, hp, rfl⟩

theorem length_nodes (t : Tableau) : t.nodes.length = t.size := by
  rw [nodes, List.length_map, listing, List.length_mergeSort, places, size, ← Tree.length_statements,
    ← Tree.map_statement_places [], List.length_map]

theorem numbers_listing {t : Tableau} (h : t.Numbered) :
    t.listing.map (·.statement.number) = List.range' 1 t.size := by
  have perm : (t.listing.map (·.statement.number)).Perm (List.range' 1 t.size) := by
    refine ((List.mergeSort_perm _ _).map _).trans ?_
    rw [places, Tree.map_number_places]
    exact h.perm
  have sorted : (t.listing.map (·.statement.number)).Pairwise (· ≤ ·) := by
    rw [List.pairwise_map]
    refine (List.pairwise_mergeSort ?_ ?_ t.places).imp (by simp)
    · intro a b c hab hbc
      simp only [decide_eq_true_eq] at hab hbc ⊢
      omega
    · intro a b
      simp only [Bool.or_eq_true, decide_eq_true_eq]
      omega
  exact List.Perm.eq_of_pairwise (fun _ _ _ _ => Nat.le_antisymm) sorted
    ((List.pairwise_lt_range' 1).imp Nat.le_of_lt) perm

theorem number_of_position {t : Tableau} (h : t.Numbered) {i : Nat} {node : Node}
    (found : t.nodes[i]? = some node) : node.number = i + 1 := by
  obtain ⟨bound, -⟩ := List.getElem?_eq_some_iff.mp found
  have numbers : t.nodes.map Node.number = List.range' 1 t.size := by
    rw [← numbers_listing h, nodes, List.map_map]
    rfl
  have number := congrArg (fun numbers => numbers[i]?) numbers
  rw [length_nodes] at bound
  simp only [List.getElem?_map, found, List.getElem?_range' bound, Option.map_some,
    Option.some.injEq] at number
  omega

theorem node?_eq_some_iff {t : Tableau} (h : t.Numbered) {number : Int} {node : Node} :
    t.node? number = some node ↔ node ∈ t.nodes ∧ (node.number : Int) = number := by
  rw [node?, Option.map_eq_some_iff, mem_nodes_iff]
  simp only [place?_eq_some_iff h.nodup]
  constructor
  · rintro ⟨p, ⟨hp, same⟩, rfl⟩
    exact ⟨⟨p, hp, rfl⟩, same⟩
  · rintro ⟨⟨p, hp, rfl⟩, same⟩
    exact ⟨p, ⟨hp, same⟩, rfl⟩

theorem node?_of_place {t : Tableau} (h : t.Numbered) {p : Place} (hp : p ∈ t.places) :
    t.node? p.statement.number = some p.node :=
  (node?_eq_some_iff h).mpr ⟨node_mem_nodes hp, rfl⟩

theorem node?_eq_getElem? {t : Tableau} (h : t.Numbered) (i : Nat) :
    t.node? (i + 1 : Nat) = t.nodes[i]? := by
  apply Option.ext
  intro node
  rw [node?_eq_some_iff h]
  constructor
  · rintro ⟨hnode, number⟩
    obtain ⟨j, found⟩ := List.mem_iff_getElem?.mp hnode
    have position := number_of_position h found
    obtain rfl : j = i := by omega
    exact found
  · intro found
    exact ⟨List.mem_of_getElem? found, by rw [number_of_position h found]⟩

theorem number_lt_of_mem_children {t : Tableau} (h : t.WellBuilt) {p q : Place} (hp : p ∈ t.places)
    (hq : q ∈ p.children) : p.statement.number < q.statement.number := by
  apply h.number_lt (Tree.mem_places_of_mem_children hp hq)
  rw [Place.above_of_mem_children hq]
  exact List.mem_cons_self

theorem number_pos {t : Tableau} (h : t.Numbered) {p : Place} (hp : p ∈ t.places) :
    1 ≤ p.statement.number :=
  ((h.mem_numbers_iff _).mp (Tree.number_mem_of_mem_places hp)).1

theorem number_eq_one_iff {t : Tableau} (h : t.WellBuilt) {p : Place} (hp : p ∈ t.places) :
    p.statement.number = 1 ↔ p = ⟨[], t.tree⟩ := by
  have below_one : ∀ q ∈ t.places, q.statement.number = 1 → q = ⟨[], t.tree⟩ := by
    intro q hq one
    rcases Tree.parent_of_mem_places hq with root | ⟨parent, hparent, child⟩
    · exact root
    · have order := number_lt_of_mem_children h hparent child
      have positive := number_pos h.numbered hparent
      omega
  refine ⟨below_one p hp, ?_⟩
  rintro rfl
  have used : 1 ∈ t.tree.numbers := by
    rw [h.numbered.mem_numbers_iff, h.numbered.next_eq]
    have positive := t.tree.size_pos
    omega
  obtain ⟨s, hs, one⟩ := List.mem_map.mp used
  obtain ⟨q, hq, rfl⟩ := exists_place_of_mem_statements hs
  rw [← below_one q hq one]
  exact one

theorem parent_unique {t : Tableau} (h : t.WellBuilt) {p p' q : Place} (hp : p ∈ t.places)
    (hp' : p' ∈ t.places) (hq : q ∈ p.children) (hq' : q ∈ p'.children) : p = p' := by
  have same := Place.parent?_of_mem_children hq
  rw [Place.parent?_of_mem_children hq'] at same
  exact place_unique h.numbered.nodup hp hp' (congrArg Statement.number (Option.some.inj same)).symm

theorem number_one_of_orphan {t : Tableau} (h : t.WellBuilt) {node : Node} (hnode : node ∈ t.nodes)
    (orphan : node.parent = none) : node.number = 1 := by
  obtain ⟨p, hp, rfl⟩ := mem_nodes_iff.mp hnode
  rcases Tree.parent_of_mem_places hp with root | ⟨q, -, child⟩
  · exact (number_eq_one_iff h hp).mpr root
  · rw [Place.parent_node child] at orphan
    cases orphan

theorem first_node {t : Tableau} (h : t.WellBuilt) : t.nodes[0]? = some (Place.node ⟨[], t.tree⟩) := by
  have place := Tree.self_mem_places [] t.tree
  have found := node?_of_place h.numbered place
  rw [(number_eq_one_iff h place).mpr rfl] at found
  rw [← node?_eq_getElem? h.numbered]
  exact found

end Tableau

end TruthTree
