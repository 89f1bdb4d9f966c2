import TruthTree.Proofs.Nodes

/-! The lineage of a statement is stored when it is added and never revisited. It still tells how the tree
is: how many forks stand above the statement, which of them is the nearest, and on which side of that
fork it is. -/
namespace TruthTree

namespace Place

theorem lineage_child {p q : Place} {side : Side} (h : p.here.Laid p.statement.lineage)
    (child : p.child? side = some q) :
    q.statement.lineage =
      if p.isFork then p.statement.lineage.fork p.statement.number side else p.statement.lineage := by
  obtain ⟨above, here⟩ := p
  cases here with
  | leaf s => cases side <;> cases child
  | chain s t =>
      cases side with
      | left =>
          cases child
          exact h.2.root_lineage
      | right => cases child
  | fork s l r =>
      obtain ⟨-, -, hl, hr⟩ := h
      cases side with
      | left =>
          cases child
          exact hl.root_lineage
      | right =>
          cases child
          exact hr.root_lineage

end Place

namespace Tableau

def ancestors (t : Tableau) (number : Nat) : List Nat :=
  ((t.place? number).elim [] Place.above).map Statement.number

/-- The numbers of the forks above a node, the nearest first. -/
def forksAbove (t : Tableau) (number : Nat) : List Nat :=
  (t.ancestors number).filter fun upper => (t.node? upper).any Node.isFork

theorem ancestors_of_place {t : Tableau} (h : t.Numbered) {p : Place} (hp : p ∈ t.places) :
    t.ancestors p.statement.number = p.above.map Statement.number := by
  rw [ancestors, (place?_eq_some_iff h.nodup).mpr ⟨hp, rfl⟩]
  rfl

theorem ancestors_root {t : Tableau} (h : t.Numbered) : t.ancestors t.root.number = [] :=
  ancestors_of_place h (Tree.self_mem_places [] t.tree)

theorem ancestors_child {t : Tableau} (h : t.Numbered) {p q : Place} (hp : p ∈ t.places)
    (hq : q ∈ p.children) :
    t.ancestors q.statement.number = p.statement.number :: t.ancestors p.statement.number := by
  rw [ancestors_of_place h (Tree.mem_places_of_mem_children hp hq), ancestors_of_place h hp,
    Place.above_of_mem_children hq]
  rfl

theorem ancestors_eq_parents {t : Tableau} (h : t.WellBuilt) {node : Node} (hnode : node ∈ t.nodes) :
    t.ancestors node.number = node.parent.elim [] fun upper => upper :: t.ancestors upper := by
  obtain ⟨p, hp, rfl⟩ := mem_nodes_iff.mp hnode
  rcases Tree.parent_of_mem_places hp with rfl | ⟨q, hq, child⟩
  · exact ancestors_root h.numbered
  · rw [Place.parent_node child]
    exact ancestors_child h.numbered hq child

theorem forksAbove_root {t : Tableau} (h : t.Numbered) : t.forksAbove t.root.number = [] := by
  rw [forksAbove, ancestors_root h, List.filter_nil]

theorem forksAbove_child {t : Tableau} (h : t.Numbered) {p q : Place} (hp : p ∈ t.places)
    (hq : q ∈ p.children) :
    t.forksAbove q.statement.number =
      if p.isFork then p.statement.number :: t.forksAbove p.statement.number
      else t.forksAbove p.statement.number := by
  rw [forksAbove, ancestors_child h hp hq, List.filter_cons, node?_of_place h hp, Option.any_some,
    Place.isFork_node]
  rfl

def upward (t : Tableau) (number : Nat) : List Nat := number :: t.ancestors number

theorem upward_child {t : Tableau} (h : t.Numbered) {p q : Place} (hp : p ∈ t.places)
    (hq : q ∈ p.children) :
    t.upward q.statement.number = q.statement.number :: t.upward p.statement.number := by
  rw [upward, ancestors_child h hp hq, upward]

theorem not_mem_upward_of_mem_children {t : Tableau} (h : t.WellBuilt) {p q : Place}
    (hp : p ∈ t.places) (hq : q ∈ p.children) :
    q.statement.number ∉ t.upward p.statement.number := by
  have order := number_lt_of_mem_children h hp hq
  rw [upward, ancestors_of_place h.numbered hp, List.mem_cons, List.mem_map]
  rintro (same | ⟨s, hs, same⟩)
  · omega
  · have above := h.number_lt hp hs
    omega

theorem upward_through_one_child {t : Tableau} (h : t.WellBuilt) {fork a b : Place}
    (hfork : fork ∈ t.places) (ha : a ∈ fork.children) (hb : b ∈ fork.children) :
    ∀ p ∈ t.places, a.statement.number ∈ t.upward p.statement.number →
      b.statement.number ∈ t.upward p.statement.number → a.statement.number = b.statement.number := by
  apply Tree.places_induction
  · intro upA upB
    rw [upward, Place.statement, ← root, ancestors_root h.numbered, List.mem_singleton] at upA upB
    rw [upA, upB]
  · intro p hp q hq ih upA upB
    rw [upward_child h.numbered hp hq, List.mem_cons] at upA upB
    -- If the way up starts at a child of the fork, then its parent is the fork, and no other child is
    -- further up.
    have other : ∀ c ∈ fork.children, ∀ d ∈ fork.children, c.statement.number = q.statement.number →
        d.statement.number ∉ t.upward p.statement.number := by
      intro c hc d hd same
      obtain rfl : c = q := place_unique h.numbered.nodup (Tree.mem_places_of_mem_children hfork hc)
        (Tree.mem_places_of_mem_children hp hq) same
      obtain rfl := parent_unique h hfork hp hc hq
      exact not_mem_upward_of_mem_children h hfork hd
    rcases upA with sameA | upA
    · rcases upB with sameB | upB
      · rw [sameA, sameB]
      · exact absurd upB (other a ha b hb sameA)
    · rcases upB with sameB | upB
      · exact absurd upA (other b hb a ha sameB)
      · exact ih upA upB

structure Traced (t : Tableau) (p : Place) : Prop where
  depth : p.statement.lineage.depth = (t.forksAbove p.statement.number).length
  origin : p.statement.lineage.split.map Split.origin = (t.forksAbove p.statement.number).head?
  side : ∀ split, p.statement.lineage.split = some split → ∃ fork ∈ t.places,
    fork.statement.number = split.origin ∧ ∃ child, fork.child? split.side = some child ∧
      child.statement.number ∈ t.upward p.statement.number

theorem traced_root {t : Tableau} (h : t.Numbered) (laid : t.tree.Laid .trunk) :
    t.Traced ⟨[], t.tree⟩ := by
  have forks : t.forksAbove (Place.statement ⟨[], t.tree⟩).number = [] := forksAbove_root h
  have trunk : (Place.statement ⟨[], t.tree⟩).lineage = .trunk := laid.root_lineage
  refine ⟨?_, ?_, ?_⟩
  · rw [forks, trunk]
    rfl
  · rw [forks, trunk]
    rfl
  · rw [trunk]
    exact nofun

theorem Traced.child {t : Tableau} (h : t.WellBuilt) (laid : t.tree.Laid .trunk) {p q : Place}
    (hp : p ∈ t.places) (hq : q ∈ p.children) (traced : t.Traced p) : t.Traced q := by
  obtain ⟨side, child⟩ := Place.mem_children_iff.mp hq
  have lineage := Place.lineage_child (laid.here p hp) child
  have forks := forksAbove_child h.numbered hp hq
  have up := upward_child h.numbered hp hq
  cases fork : p.isFork with
  | true =>
      simp only [fork, if_true] at lineage forks
      refine ⟨?_, ?_, ?_⟩
      · rw [lineage, forks, Lineage.fork, traced.depth, List.length_cons]
      · rw [lineage, forks]
        rfl
      · intro split here
        rw [lineage] at here
        cases here
        exact ⟨p, hp, rfl, q, child, List.mem_cons_self⟩
  | false =>
      simp only [fork, Bool.false_eq_true, if_false] at lineage forks
      refine ⟨?_, ?_, ?_⟩
      · rw [lineage, forks, traced.depth]
      · rw [lineage, forks, traced.origin]
      · intro split here
        rw [lineage] at here
        obtain ⟨origin, place, number, lower, down, on⟩ := traced.side split here
        exact ⟨origin, place, number, lower, down, up ▸ List.mem_cons_of_mem _ on⟩

theorem traced_of_mem_places {t : Tableau} (h : t.WellBuilt) (laid : t.tree.Laid .trunk) :
    ∀ p ∈ t.places, t.Traced p :=
  Tree.places_induction (traced_root h.numbered laid) fun _ hp _ hq => Traced.child h laid hp hq

theorem Traced.side_iff {t : Tableau} (h : t.WellBuilt) (laid : t.tree.Laid .trunk) {p : Place}
    (hp : p ∈ t.places) (traced : t.Traced p) (side : Side) :
    p.node.side = some side ↔ ∃ fork ∈ t.nodes,
      (t.forksAbove p.statement.number).head? = some fork.number ∧
      ∃ child, fork.child side = some child ∧ child ∈ t.upward p.statement.number := by
  rw [← traced.origin]
  constructor
  · intro stored
    obtain ⟨split, here, rfl⟩ := Option.map_eq_some_iff.mp stored
    obtain ⟨fork, place, number, child, down, on⟩ := traced.side split here
    refine ⟨fork.node, node_mem_nodes place, ?_, _, Place.child_node down, on⟩
    rw [here, Option.map_some, ← number]
    rfl
  · rintro ⟨node, hnode, nearest, lower, link, on⟩
    obtain ⟨split, here, origin⟩ := Option.map_eq_some_iff.mp nearest
    obtain ⟨fork, place, number, child, down, on'⟩ := traced.side split here
    obtain ⟨fork', place', rfl⟩ := mem_nodes_iff.mp hnode
    obtain rfl : fork' = fork := place_unique h.numbered.nodup place' place (origin.symm.trans number.symm)
    obtain ⟨child', down', rfl⟩ := Place.node_child_eq_some_iff.mp link
    have same := upward_through_one_child h place (Place.mem_children_iff.mpr ⟨_, down'⟩)
      (Place.mem_children_iff.mpr ⟨_, down⟩) p hp on on'
    rw [Place.side_unique (laid.here _ place) down' down same]
    exact Option.map_eq_some_iff.mpr ⟨split, here, rfl⟩

/-- In every tableau that premises and calls lead to, the stored lineage is that of the tree. The depth is
the number of forks above the node; the origin is the nearest of them, or 0; and the side is that of
its child which is the node itself or stands above it, if there is a fork at all. -/
theorem stored_lineage_traces_forks {t : Tableau} (h : t.Reachable) :
    ∀ node ∈ t.nodes,
      t.ancestors node.number = (node.parent.elim [] fun upper => upper :: t.ancestors upper) ∧
      node.depth = (t.forksAbove node.number).length ∧
      node.origin = (t.forksAbove node.number).headD 0 ∧
      (node.side = none ↔ t.forksAbove node.number = []) ∧
      ∀ side, node.side = some side ↔ ∃ fork ∈ t.nodes,
        (t.forksAbove node.number).head? = some fork.number ∧
        ∃ child, fork.child side = some child ∧ child ∈ node.number :: t.ancestors node.number := by
  have built := h.wellBuilt
  intro node hnode
  have parents := ancestors_eq_parents built hnode
  obtain ⟨p, hp, rfl⟩ := mem_nodes_iff.mp hnode
  have traced := traced_of_mem_places built h.laid p hp
  refine ⟨parents, traced.depth, ?_, ?_, traced.side_iff built h.laid hp⟩
  · rw [List.headD_eq_head?_getD]
    exact congrArg (Option.getD · 0) traced.origin
  · have origin := traced.origin
    rw [Place.node, Option.map_eq_none_iff, ← List.head?_eq_none_iff]
    exact (Option.map_eq_none_iff (f := Split.origin)).symm.trans (by rw [origin])

-- A biconditional is expanded, and so is the conjunction on its left; a disjunction that comes late
-- goes below that conjunction and makes a second fork there.
theorem stored_lineage_biconditional :
    let atom := fun a : Char => Sentence.atom [a]
    let t := (ofPremises (.ofSentence (.compound .biconditional (atom 'P') (atom 'Q'))) []).run
      [.perform (.expand 1), .perform (.expand 2),
        .addPremise (.ofSentence (.compound .disjunction (atom 'R') (atom 'S'))), .perform (.expand 6)]
    t.Reachable ∧
      t.nodes.map (fun node => (node.depth, node.origin, node.side)) =
        [(0, 0, none), (1, 1, some .left), (1, 1, some .right), (1, 1, some .left), (1, 1, some .left),
          (1, 1, some .left), (2, 6, some .left), (2, 6, some .right)] ∧
      t.ancestors 8 = [6, 5, 4, 2, 1] ∧ t.forksAbove 8 = [6, 1] ∧
      ∀ node ∈ t.nodes, node.depth = (t.forksAbove node.number).length ∧
        node.origin = (t.forksAbove node.number).headD 0 ∧
        ∀ side, node.side = some side ↔ ∃ fork ∈ t.nodes,
          (t.forksAbove node.number).head? = some fork.number ∧
          ∃ child, fork.child side = some child ∧ child ∈ node.number :: t.ancestors node.number := by
  intro atom t
  have reachable : t.Reachable := ⟨_, _, _, rfl⟩
  have table : t.nodes.map (fun node => (node.depth, node.origin, node.side)) =
      [(0, 0, none), (1, 1, some .left), (1, 1, some .right), (1, 1, some .left), (1, 1, some .left),
        (1, 1, some .left), (2, 6, some .left), (2, 6, some .right)] := by
    unfold t atom
    cbv
  have up : t.ancestors 8 = [6, 5, 4, 2, 1] := by
    unfold t atom
    cbv
  have forks : t.forksAbove 8 = [6, 1] := by
    unfold t atom
    cbv
  refine ⟨reachable, table, up, forks, ?_⟩
  intro node hnode
  obtain ⟨-, depth, origin, -, side⟩ := stored_lineage_traces_forks reachable node hnode
  exact ⟨depth, origin, side⟩

end Tableau

end TruthTree
