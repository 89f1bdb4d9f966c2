import TruthTree.Diagram.Gallery
import TruthTree.Proofs.ForkLineage
import TruthTree.Proofs.OutlineText

/-! The diagram of a tableau is its tree. It is drawn from the statements alone: no link to a child is
looked at, and an edge counts as the side of a fork when the stored lineage splits right above it. Still
there is one box for each node and one edge for each link, with the letter of its side below a fork, and a
mark below each closed leaf. -/
namespace TruthTree

def Node.endsClosed (n : Node) : Bool := n.closed && n.left.isNone

namespace Place

theorem endsClosed_node (p : Place) : p.node.endsClosed = (p.statement.closed && p.isLeaf) := by
  obtain ⟨above, here⟩ := p
  cases here <;> rfl

theorem side?_child {t : Tableau} (h : t.WellBuilt) (laid : t.tree.Laid .trunk) {p q : Place}
    (hp : p ∈ t.places) {side : Side} (child : p.child? side = some q) :
    q.side? = if p.isFork then some side else none := by
  have lineage := lineage_child (laid.here p hp) child
  have parent := parent?_of_mem_children (mem_children_iff.mpr ⟨side, child⟩)
  rw [side?, lineage, parent]
  cases fork : p.isFork with
  | true => simp [Lineage.fork]
  | false =>
      simp only [Bool.false_eq_true, if_false]
      cases stored : p.statement.lineage.split with
      | none => rfl
      | some split =>
          have origin := (Tableau.traced_of_mem_places h laid p hp).origin
          rw [stored, Option.map_some] at origin
          have above : split.origin ∈ t.ancestors p.statement.number :=
            List.mem_of_mem_filter (List.mem_of_mem_head? origin.symm)
          rw [Tableau.ancestors_of_place h.numbered hp] at above
          obtain ⟨s, hs, number⟩ := List.mem_map.mp above
          have order := h.number_lt hp hs
          have apart : split.origin ≠ p.statement.number := by omega
          simp [apart]

end Place

namespace Diagram

def nodeName (number : Nat) : Text := s!"N{number}".toList

def crossName (number : Nat) : Text := s!"X{number}".toList

theorem boxName_eq (number : Nat) : boxName number = nodeName number := by
  simp [boxName, nodeName, Text.ofNat, toString, Nat.repr]

theorem markName_eq (number : Nat) : markName number = crossName number := by
  simp [markName, crossName, Text.ofNat, toString, Nat.repr]

theorem nodeName_injective : Function.Injective nodeName := by
  intro m n same
  rw [← boxName_eq, ← boxName_eq] at same
  exact Text.ofNat_injective (List.cons.inj same).2

theorem crossName_injective : Function.Injective crossName := by
  intro m n same
  rw [← markName_eq, ← markName_eq] at same
  exact Text.ofNat_injective (List.cons.inj same).2

theorem nodeName_ne_crossName (m n : Nat) : nodeName m ≠ crossName n := by
  intro same
  rw [← boxName_eq, ← markName_eq] at same
  exact absurd (List.cons.inj same).1 (by decide)

def Item.declared? : Item → Option Text
  | vertex name _ _ => some name
  | _ => none

def Item.ends? : Item → Option (Text × Text)
  | edge upper lower _ _ => some (upper, lower)
  | _ => none

def upperEdge? (n : Node) : Option (Text × Text) :=
  n.parent.map fun upper => (nodeName upper, nodeName n.number)

def crossEdge (n : Node) : Text × Text := (nodeName n.number, crossName n.number)

/-- Some items show the tree of a tableau. -/
structure Depicts (t : Tableau) (items : List Item) : Prop where
  /-- There is a vertex for each node, another for each closed leaf, and none besides. -/
  vertices : (items.filterMap Item.declared?).Perm
    (t.nodes.map (nodeName ·.number) ++ (t.nodes.filter Node.endsClosed).map (crossName ·.number))
  /-- No name is declared twice. -/
  names : (items.filterMap Item.declared?).Nodup
  /-- There is an edge for each node with a parent, another for each closed leaf, and none besides. -/
  edges : (items.filterMap Item.ends?).Perm
    (t.nodes.filterMap upperEdge? ++ (t.nodes.filter Node.endsClosed).map crossEdge)
  /-- No two names are joined twice. -/
  joined : (items.filterMap Item.ends?).Nodup
  /-- The edge to a child has the letter of its side if there are two, and an empty label if it is the
  only one. -/
  label : ∀ node ∈ t.nodes, ∀ lower label attributes,
    .edge (nodeName node.number) (nodeName lower) label attributes ∈ items → attributes = [] ∧
      (node.right = none → label = some []) ∧
      (node.right ≠ none → node.left = some lower → label = some ['l']) ∧
      (node.right = some lower → label = some ['r'])

theorem declared_place (p : Place) :
    (box p :: link p ++ mark p).filterMap Item.declared? =
      (some (nodeName p.node.number)).toList ++
        if p.node.endsClosed then [crossName p.node.number] else [] := by
  rw [Place.endsClosed_node, link, mark, ← boxName_eq, ← markName_eq]
  cases p.parent? <;> cases p.statement.closed && p.isLeaf <;> rfl

theorem ends_place (p : Place) :
    (box p :: link p ++ mark p).filterMap Item.ends? =
      (upperEdge? p.node).toList ++ if p.node.endsClosed then [crossEdge p.node] else [] := by
  rw [Place.endsClosed_node]
  simp only [upperEdge?, crossEdge, Place.node, link, mark, boxName_eq, markName_eq]
  cases p.parent? <;> cases p.statement.closed && p.isLeaf <;> rfl

end Diagram

namespace Tableau

theorem nodes_perm (t : Tableau) : t.nodes.Perm (t.places.map Place.node) :=
  (List.mergeSort_perm _ _).map Place.node

theorem perm_drawn {α : Type} (t : Tableau) (first : Node → Option α) (last : Node → α) :
    (t.places.flatMap fun p =>
        (first p.node).toList ++ if p.node.endsClosed then [last p.node] else []).Perm
      (t.nodes.filterMap first ++ (t.nodes.filter Node.endsClosed).map last) := by
  -- Place by place and node by node the same is drawn, in another order.
  let drawn := fun n : Node => (first n).toList ++ if n.endsClosed then [last n] else []
  have ends : ∀ nodes : List Node, (nodes.flatMap fun n => if n.endsClosed then [last n] else []) =
      (nodes.filter Node.endsClosed).map last := by
    intro nodes
    induction nodes with
    | nil => rfl
    | cons n nodes ih =>
        rw [List.flatMap_cons, ih, List.filter_cons]
        split <;> rfl
  have listed : (t.places.map Place.node).flatMap drawn =
      t.places.flatMap fun p => drawn p.node := List.flatMap_map ..
  rw [List.filterMap_eq_flatMap_toList, ← ends, ← listed]
  exact (t.nodes_perm.symm.flatMap_right drawn).trans (List.flatMap_append_perm t.nodes _ _).symm

theorem pairwise_number_nodes {t : Tableau} (h : t.Numbered) :
    t.nodes.Pairwise fun a b => a.number ≠ b.number := by
  rw [← List.pairwise_map (f := Node.number) (R := (· ≠ ·))]
  have numbers : t.nodes.map Node.number = List.range' 1 t.size := by
    rw [← numbers_listing h, nodes, List.map_map]
    rfl
  rw [numbers]
  exact List.nodup_range'

end Tableau

namespace Diagram

open Tableau

theorem vertices_items (t : Tableau) :
    ((items t).filterMap Item.declared?).Perm
      (t.nodes.map (nodeName ·.number) ++
        (t.nodes.filter Node.endsClosed).map (crossName ·.number)) := by
  rw [items, List.filterMap_append, traverse_eq_places, List.filterMap_flatMap,
    ← List.filterMap_eq_map']
  simp only [declared_place]
  exact t.perm_drawn (fun n => some (nodeName n.number)) (crossName ·.number)

theorem edges_items (t : Tableau) :
    ((items t).filterMap Item.ends?).Perm
      (t.nodes.filterMap upperEdge? ++ (t.nodes.filter Node.endsClosed).map crossEdge) := by
  rw [items, List.filterMap_append, traverse_eq_places, List.filterMap_flatMap]
  simp only [ends_place]
  exact t.perm_drawn upperEdge? crossEdge

theorem names_items {t : Tableau} (h : t.Numbered) :
    ((items t).filterMap Item.declared?).Nodup := by
  rw [(vertices_items t).nodup_iff]
  have apart := pairwise_number_nodes h
  refine List.nodup_append.mpr ⟨?_, ?_, ?_⟩
  · exact List.pairwise_map.mpr (apart.imp fun differ same => differ (nodeName_injective same))
  · exact List.pairwise_map.mpr
      ((apart.filter _).imp fun differ same => differ (crossName_injective same))
  · intro v hv w hw same
    obtain ⟨a, -, rfl⟩ := List.mem_map.mp hv
    obtain ⟨b, -, rfl⟩ := List.mem_map.mp hw
    exact nodeName_ne_crossName _ _ same

theorem joined_items {t : Tableau} (h : t.Numbered) :
    ((items t).filterMap Item.ends?).Nodup := by
  rw [(edges_items t).nodup_iff]
  have apart := pairwise_number_nodes h
  refine List.nodup_append.mpr ⟨?_, ?_, ?_⟩
  · refine List.pairwise_filterMap.mpr (apart.imp ?_)
    intro a b differ e he e' he' same
    subst same
    obtain ⟨upper, -, rfl⟩ := Option.map_eq_some_iff.mp he
    obtain ⟨upper', -, same⟩ := Option.map_eq_some_iff.mp he'
    exact differ (nodeName_injective (congrArg Prod.snd same)).symm
  · exact List.pairwise_map.mpr
      ((apart.filter _).imp fun differ same => differ (crossName_injective (congrArg Prod.snd same)))
  · intro e he e' he' same
    subst same
    obtain ⟨a, -, edge⟩ := List.mem_filterMap.mp he
    obtain ⟨upper, -, rfl⟩ := Option.map_eq_some_iff.mp edge
    obtain ⟨b, -, same⟩ := List.mem_map.mp he'
    exact nodeName_ne_crossName _ _ (congrArg Prod.snd same).symm

theorem of_edge_mem_items {t : Tableau} {upper lower : Nat} {label : Option Text}
    {attributes : List Attribute}
    (h : .edge (nodeName upper) (nodeName lower) label attributes ∈ items t) :
    ∃ p ∈ t.places, ∃ q side, p.child? side = some q ∧ p.statement.number = upper ∧
      q.statement.number = lower ∧ attributes = [] ∧
      label = some ((q.side?.map fun side => [side.letter]).getD []) := by
  rw [items, traverse_eq_places] at h
  have body := (List.mem_append.mp h).resolve_left (by simp [style])
  obtain ⟨q, hq, drawn⟩ := List.mem_flatMap.mp body
  have link : .edge (nodeName upper) (nodeName lower) label attributes ∈ link q := by
    rcases List.mem_append.mp drawn with drawn | drawn
    · exact (List.mem_cons.mp drawn).resolve_left nofun
    · rw [mark] at drawn
      split at drawn
      · have cross := (List.mem_cons.mp drawn).resolve_left nofun
        rw [List.mem_singleton, Item.edge.injEq, markName_eq] at cross
        exact absurd cross.2.1 (nodeName_ne_crossName _ _)
      · cases drawn
  rcases Tree.parent_of_mem_places hq with rfl | ⟨p, hp, child⟩
  · cases link
  · rw [Diagram.link, Place.parent?_of_mem_children child, List.mem_singleton, Item.edge.injEq,
      boxName_eq, boxName_eq] at link
    obtain ⟨above, below, letter, plain⟩ := link
    obtain ⟨side, here⟩ := Place.mem_children_iff.mp child
    exact ⟨p, hp, q, side, here, (nodeName_injective above).symm, (nodeName_injective below).symm, plain,
      letter⟩

theorem label_items {t : Tableau} (h : t.WellBuilt) (laid : t.tree.Laid .trunk) {node : Node}
    (hnode : node ∈ t.nodes) {lower : Nat} {label : Option Text} {attributes : List Attribute}
    (edge : .edge (nodeName node.number) (nodeName lower) label attributes ∈ items t) :
    attributes = [] ∧ (node.right = none → label = some []) ∧
      (node.right ≠ none → node.left = some lower → label = some ['l']) ∧
      (node.right = some lower → label = some ['r']) := by
  obtain ⟨p, hp, q, side, child, upper, rfl, plain, rfl⟩ := of_edge_mem_items edge
  obtain ⟨p', hp', rfl⟩ := mem_nodes_iff.mp hnode
  obtain rfl : p = p' := place_unique h.numbered.nodup hp hp' upper
  have letter := Place.side?_child h laid hp child
  have on : ∀ other, p.node.child other = some q.statement.number → side = other := by
    intro other link
    obtain ⟨q', child', same⟩ := Place.node_child_eq_some_iff.mp link
    exact Place.side_unique (laid.here p hp) child child' same.symm
  refine ⟨plain, ?_, ?_, ?_⟩
  · intro single
    have fork : p.isFork = false := by rw [← Place.isFork_node, Node.isFork, single]; rfl
    rw [letter, fork]
    rfl
  · intro double left
    have fork : p.isFork = true := by
      rw [← Place.isFork_node, Node.isFork, Option.isSome_iff_ne_none]
      exact double
    rw [letter, fork, on .left left]
    rfl
  · intro right
    have fork : p.isFork = true := by rw [← Place.isFork_node, Node.isFork, right]; rfl
    rw [letter, fork, on .right right]
    rfl

theorem depicts_items {t : Tableau} (h : t.Reachable) : Depicts t (items t) where
  vertices := vertices_items t
  names := names_items h.wellBuilt.numbered
  edges := edges_items t
  joined := joined_items h.wellBuilt.numbered
  label _ hnode _ _ _ := label_items h.wellBuilt h.laid hnode

/-- With a package to draw with and a format that it knows, every tableau that premises and calls lead to
has a graph, and what the graph is told shows the tree: one vertex for each node and one edge for each
link to a parent, with the letter of the side below a fork and an empty label elsewhere, and a mark that
is joined to each closed leaf. -/
theorem drawing_depicts_tree {t : Tableau} (h : t.Reachable) {g : Gallery} {graphics : Graphics}
    (available : g.graphics = some graphics) {requested spelled : Text}
    (valid : graphics.format requested = .ok spelled) :
    ∃ graph, g.draw t (some requested) = .ok (some graph) ∧ graph.format = spelled ∧
      Depicts t graph.items := by
  refine ⟨⟨"Truth tree", spelled, items t⟩, ?_, rfl, depicts_items h⟩
  simp only [Gallery.draw, available, valid]

-- Two disjunctions, both expanded, and the denial of the first letter, which comes late and is
-- closed with that letter. The edge to it has an empty label, although its lineage is that of a
-- side of a fork.
theorem drawing_depicts_disjunctions :
    let either := fun a b : Char => Formula.ofSentence (.compound .disjunction (.atom [a]) (.atom [b]))
    let t := (ofPremises (either 'P' 'Q') [either 'R' 'S']).run
      [.perform (.expand 1), .perform (.expand 2), .addPremise (.ofSentence (.negation (.atom ['P']))),
        .perform (.close 9 3)]
    let graphics : Graphics :=
      ⟨fun requested => if requested = "SVG".toList then .ok "svg".toList else .error "unknown format",
        fun _ _ => .error "no renderer"⟩
    t.Reachable ∧ graphics.format "SVG".toList = .ok "svg".toList ∧
      ∃ graph, (Gallery.mk (some graphics) .absent).draw t (some "SVG".toList) = .ok (some graph) ∧
        graph.format = "svg".toList ∧ Depicts t graph.items ∧
        graph.items.filterMap Item.declared? =
          ["N1", "N2", "N3", "N5", "N9", "X9", "N6", "N4", "N7", "N8"].map String.toList ∧
        graph.items.filterMap Item.ends? =
          [("N1", "N2"), ("N2", "N3"), ("N3", "N5"), ("N5", "N9"), ("N9", "X9"), ("N3", "N6"),
            ("N2", "N4"), ("N4", "N7"), ("N4", "N8")].map (Prod.map String.toList String.toList) ∧
        .edge "N2".toList "N3".toList (some ['l']) [] ∈ graph.items ∧
        .edge "N2".toList "N4".toList (some ['r']) [] ∈ graph.items ∧
        .edge "N5".toList "N9".toList (some []) [] ∈ graph.items := by
  intro either t graphics
  have reachable : t.Reachable := ⟨_, _, _, rfl⟩
  have valid : graphics.format "SVG".toList = .ok "svg".toList := rfl
  obtain ⟨graph, drawn, spelled, depicts⟩ :=
    drawing_depicts_tree reachable (g := ⟨some graphics, .absent⟩) rfl valid
  have shown : graph.items = items t := by
    have same : (Gallery.mk (some graphics) .absent).draw t (some "SVG".toList) =
        .ok (some ⟨"Truth tree", "svg".toList, items t⟩) := rfl
    rw [drawn] at same
    exact congrArg Graph.items (Option.some.inj (Except.ok.inj same))
  have vertices : (items t).filterMap Item.declared? =
      ["N1", "N2", "N3", "N5", "N9", "X9", "N6", "N4", "N7", "N8"].map String.toList := by
    unfold t either
    decide +kernel
  have edges : (items t).filterMap Item.ends? =
      [("N1", "N2"), ("N2", "N3"), ("N3", "N5"), ("N5", "N9"), ("N9", "X9"), ("N3", "N6"),
        ("N2", "N4"), ("N4", "N7"), ("N4", "N8")].map (Prod.map String.toList String.toList) := by
    unfold t either
    decide +kernel
  have left : .edge "N2".toList "N3".toList (some ['l']) [] ∈ items t := by
    unfold t either
    decide +kernel
  have right : .edge "N2".toList "N4".toList (some ['r']) [] ∈ items t := by
    unfold t either
    decide +kernel
  have single : .edge "N5".toList "N9".toList (some []) [] ∈ items t := by
    unfold t either
    decide +kernel
  refine ⟨reachable, valid, graph, drawn, spelled, depicts, ?_⟩
  rw [shown]
  exact ⟨vertices, edges, left, right, single⟩

end Diagram

end TruthTree
