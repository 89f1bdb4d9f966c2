import TruthTree.Proofs.Nodes
import TruthTree.Proofs.OutlineText

/-! The outline loses nothing. It shows neither parents nor children, but the lineages of statements in
the order of display tell where each branch goes on, forks and ends. It marks only closed leaves below a
fork, but a statement is closed just when all leaves below it are. -/
namespace TruthTree

theorem Statement.eq_of_closed_eq {s s' : Statement}
    (shown : { s with closed := false } = { s' with closed := false }) (flag : s.closed = s'.closed) :
    s = s' := by
  obtain ⟨number, formula, lineage, closed, expanded⟩ := s
  obtain ⟨number', formula', lineage', closed', expanded'⟩ := s'
  simp_all

namespace Tree

def items : Tree → List Outline.Item
  | leaf s => [⟨{ s with closed := false }, s.lineage.split.isSome && s.closed⟩]
  | chain s t => ⟨{ s with closed := false }, false⟩ :: t.items
  | fork s l r => ⟨{ s with closed := false }, false⟩ :: (l.items ++ r.items)

theorem map_item_places (above : List Statement) (t : Tree) :
    (t.places above).map Outline.item = t.items := by
  induction t generalizing above with
  | leaf s => simp [places, items, Outline.item, Outline.endsClosed, Place.statement, Place.isLeaf]
  | chain s t ih =>
      have first : Outline.item ⟨above, chain s t⟩ = ⟨{ s with closed := false }, false⟩ := by
        simp [Outline.item, Outline.endsClosed, Place.statement, Place.isLeaf]
      rw [places, List.map_cons, first, ih, items]
  | fork s l r ihl ihr =>
      have first : Outline.item ⟨above, fork s l r⟩ = ⟨{ s with closed := false }, false⟩ := by
        simp [Outline.item, Outline.endsClosed, Place.statement, Place.isLeaf]
      rw [places, List.cons_append, List.map_cons, List.map_append, first, ihl, ihr, items]

theorem items_leaf_append (s : Statement) (rest : List Outline.Item) :
    (leaf s).items ++ rest =
      ⟨{ s with closed := false }, s.lineage.split.isSome && s.closed⟩ :: rest := rfl

theorem items_chain_append (s : Statement) (t : Tree) (rest : List Outline.Item) :
    (chain s t).items ++ rest = ⟨{ s with closed := false }, false⟩ :: (t.items ++ rest) := rfl

theorem items_fork_append (s : Statement) (l r : Tree) (rest : List Outline.Item) :
    (fork s l r).items ++ rest =
      ⟨{ s with closed := false }, false⟩ :: (l.items ++ (r.items ++ rest)) := by
  simp [items]

def hasFork : Tree → Bool
  | leaf _ => false
  | chain _ t => t.hasFork
  | fork _ _ _ => true

theorem hasFork_of_mem_places {t : Tree} {above : List Statement} {p : Place} (hp : p ∈ t.places above)
    (fork : p.isFork = true) : t.hasFork = true := by
  induction t generalizing above with
  | leaf s =>
      obtain rfl := List.mem_singleton.mp hp
      cases fork
  | chain s t ih =>
      rcases mem_places_chain.mp hp with rfl | hp
      · cases fork
      · exact ih hp
  | fork s l r ihl ihr => rfl

theorem head_items (t : Tree) (rest : List Outline.Item) :
    ∃ marked, (t.items ++ rest).head? = some ⟨{ t.root with closed := false }, marked⟩ := by
  cases t with
  | leaf s => exact ⟨_, rfl⟩
  | chain s t => exact ⟨_, rfl⟩
  | fork s l r => exact ⟨_, rfl⟩

theorem root_lineage_of_items {t u : Tree} {rest rest' : List Outline.Item}
    (same : t.items ++ rest = u.items ++ rest') : t.root.lineage = u.root.lineage := by
  obtain ⟨marked, first⟩ := t.head_items rest
  obtain ⟨marked', first'⟩ := u.head_items rest'
  rw [same, first'] at first
  simp only [Option.some.injEq, Outline.Item.mk.injEq, Statement.mk.injEq] at first
  exact first.1.2.2.1.symm

/-- What follows a tree with the given lineage does not belong to it: it is on another branch, and no
deeper. -/
def Leaves (lineage : Lineage) (rest : List Outline.Item) : Prop :=
  ∀ i ∈ rest.head?, i.statement.lineage.depth ≤ lineage.depth ∧ i.statement.lineage ≠ lineage

theorem not_leaves_items {lineage : Lineage} {t : Tree} (rest : List Outline.Item)
    (inside : t.root.lineage = lineage ∨ lineage.depth < t.root.lineage.depth) :
    ¬Leaves lineage (t.items ++ rest) := by
  intro leaves
  obtain ⟨marked, first⟩ := t.head_items rest
  obtain ⟨shallow, other⟩ := leaves _ first
  rcases inside with same | deeper
  · exact other same
  · exact absurd shallow (Nat.not_le.mpr deeper)

theorem leaves_right {lineage : Lineage} {origin : Nat} {r : Tree} (rest : List Outline.Item)
    (laid : r.Laid (lineage.fork origin .right)) : Leaves (lineage.fork origin .left) (r.items ++ rest) := by
  intro i hi
  obtain ⟨marked, first⟩ := r.head_items rest
  obtain rfl := Option.some.inj (first.symm.trans hi)
  simp [laid.root_lineage, Lineage.fork]

theorem Leaves.fork {lineage : Lineage} {rest : List Outline.Item} (h : Leaves lineage rest)
    (origin : Nat) (side : Side) : Leaves (lineage.fork origin side) rest := by
  intro i hi
  obtain ⟨shallow, -⟩ := h i hi
  have deeper : i.statement.lineage.depth < (lineage.fork origin side).depth := Nat.lt_succ_of_le shallow
  refine ⟨Nat.le_of_lt deeper, ?_⟩
  intro same
  rw [same] at deeper
  exact Nat.lt_irrefl _ deeper

theorem not_leaves_chain {lineage : Lineage} {s : Statement} {t : Tree} (h : (chain s t).Laid lineage)
    (rest : List Outline.Item) : ¬Leaves lineage (t.items ++ rest) :=
  not_leaves_items rest (.inl h.2.root_lineage)

theorem not_leaves_fork {lineage : Lineage} {s : Statement} {l r : Tree}
    (h : (fork s l r).Laid lineage) (rest : List Outline.Item) : ¬Leaves lineage (l.items ++ rest) := by
  apply not_leaves_items rest
  rw [h.2.2.1.root_lineage]
  exact .inr (Nat.lt_succ_self _)

theorem chain_items_ne_fork {lineage : Lineage} {s s' : Statement} {t l r : Tree}
    (h : (chain s t).Laid lineage) (h' : (fork s' l r).Laid lineage) (rest rest' : List Outline.Item) :
    t.items ++ rest ≠ l.items ++ rest' := by
  intro same
  have lineages := root_lineage_of_items same
  rw [h.2.root_lineage, h'.2.2.1.root_lineage] at lineages
  have depths := congrArg Lineage.depth lineages
  simp [Lineage.fork] at depths

theorem closed_eq_of_marks {lineage : Lineage} {s s' : Statement} (hs : s.lineage = lineage)
    (hs' : s'.lineage = lineage) (flags : lineage.split = none → s.closed = s'.closed)
    (marks : (s.lineage.split.isSome && s.closed) = (s'.lineage.split.isSome && s'.closed)) :
    s.closed = s'.closed := by
  cases split : lineage.split with
  | none => exact flags split
  | some fork => simpa [hs, hs', split] using marks

theorem eq_of_items {lineage : Lineage} {t u : Tree} {rest rest' : List Outline.Item}
    (ht : t.Laid lineage) (hu : u.Laid lineage) (ct : t.Coherent) (cu : u.Coherent)
    (flags : lineage.split = none → t.hasFork = true ∨ t.root.closed = u.root.closed)
    (leaves : Leaves lineage rest) (leaves' : Leaves lineage rest')
    (same : t.items ++ rest = u.items ++ rest') : t = u ∧ rest = rest' := by
  -- The induction follows the first tree; the item after a statement tells whether the second tree
  -- goes on in the same way.
  induction t generalizing lineage u rest rest' with
  | leaf s =>
      rw [items_leaf_append] at same
      cases u with
      | leaf s' =>
          rw [items_leaf_append] at same
          obtain ⟨first, rests⟩ := List.cons.inj same
          obtain ⟨shown, marks⟩ := Outline.Item.mk.inj first
          have flag := closed_eq_of_marks ht hu (by simpa [hasFork] using flags) marks
          exact ⟨congrArg leaf (Statement.eq_of_closed_eq shown flag), rests⟩
      | chain s' u =>
          rw [items_chain_append] at same
          obtain ⟨-, rfl⟩ := List.cons.inj same
          exact absurd leaves (not_leaves_chain hu rest')
      | fork s' l' r' =>
          rw [items_fork_append] at same
          obtain ⟨-, rfl⟩ := List.cons.inj same
          exact absurd leaves (not_leaves_fork hu _)
  | chain s t ih =>
      rw [items_chain_append] at same
      cases u with
      | leaf s' =>
          rw [items_leaf_append] at same
          obtain ⟨-, rfl⟩ := List.cons.inj same
          exact absurd leaves' (not_leaves_chain ht rest)
      | chain s' u =>
          rw [items_chain_append] at same
          obtain ⟨first, below⟩ := List.cons.inj same
          obtain ⟨shown, -⟩ := Outline.Item.mk.inj first
          have flags : lineage.split = none → t.hasFork = true ∨ t.root.closed = u.root.closed := by
            intro trunk
            rw [← ct.1, ← cu.1]
            exact flags trunk
          obtain ⟨rfl, rests⟩ := ih ht.2 hu.2 ct.2 cu.2 flags leaves leaves' below
          have flag : s.closed = s'.closed := ct.1.trans cu.1.symm
          exact ⟨by rw [Statement.eq_of_closed_eq shown flag], rests⟩
      | fork s' l' r' =>
          rw [items_fork_append] at same
          obtain ⟨-, below⟩ := List.cons.inj same
          exact absurd below (chain_items_ne_fork ht hu _ _)
  | fork s l r ihl ihr =>
      rw [items_fork_append] at same
      cases u with
      | leaf s' =>
          rw [items_leaf_append] at same
          obtain ⟨-, rfl⟩ := List.cons.inj same
          exact absurd leaves' (not_leaves_fork ht _)
      | chain s' u =>
          rw [items_chain_append] at same
          obtain ⟨-, below⟩ := List.cons.inj same
          exact absurd below.symm (chain_items_ne_fork hu ht _ _)
      | fork s' l' r' =>
          rw [items_fork_append] at same
          obtain ⟨first, below⟩ := List.cons.inj same
          obtain ⟨shown, -⟩ := Outline.Item.mk.inj first
          have numbers : s.number = s'.number := (Statement.mk.inj shown).1
          obtain ⟨-, -, hl, hr⟩ := ht
          obtain ⟨-, -, hl', hr'⟩ := hu
          rw [← numbers] at hl' hr'
          obtain ⟨flag, cl, cr⟩ := ct
          obtain ⟨flag', cl', cr'⟩ := cu
          obtain ⟨rfl, right⟩ :=
            ihl hl hl' cl cl' nofun (leaves_right rest hr) (leaves_right rest' hr') below
          obtain ⟨rfl, rests⟩ :=
            ihr hr hr' cr cr' nofun (leaves.fork s.number .right) (leaves'.fork s.number .right) right
          have closed : s.closed = s'.closed := flag.trans flag'.symm
          exact ⟨by rw [Statement.eq_of_closed_eq shown closed], rests⟩

theorem Laid.proper {lineage : Lineage} {t : Tree} (h : t.Laid lineage) (proper : lineage.Proper) :
    ∀ s ∈ t.statements, s.lineage.Proper := by
  induction t generalizing lineage with
  | leaf s =>
      cases h
      simpa [statements] using proper
  | chain s t ih =>
      obtain ⟨rfl, below⟩ := h
      exact List.forall_mem_cons.mpr ⟨proper, ih below proper⟩
  | fork s l r ihl ihr =>
      obtain ⟨rfl, -, left, right⟩ := h
      refine List.forall_mem_cons.mpr ⟨proper, List.forall_mem_append.mpr ⟨?_, ?_⟩⟩
      · exact ihl left (Lineage.proper_fork _ _ _)
      · exact ihr right (Lineage.proper_fork _ _ _)

end Tree

namespace Tableau

theorem StrictlyReachable.shown {t : Tableau} (h : t.StrictlyReachable) :
    ∀ i ∈ t.tree.items, Outline.Shown i.statement := by
  intro i hi
  rw [← Tree.map_item_places []] at hi
  obtain ⟨p, hp, rfl⟩ := List.mem_map.mp hi
  have proper := h.reachable.laid.proper Lineage.proper_trunk _ (Tree.statement_mem_of_mem_places hp)
  have built := h.strictlyBuilt
  have strict := built.strict.above built.built.numbered hp (s := p.statement) List.mem_cons_self
  exact ⟨proper, strict, rfl⟩

theorem render_eq_joined (t : Tableau) :
    Outline.render t = Text.joined ['\n'] (t.tree.items.flatMap Outline.Item.lines) := by
  rw [Outline.render, Outline.lines_eq_flatMap, traverse_eq_places, places, Tree.map_item_places]

/-- The outline tells the tableau. If two tableaux over strictly read premises have the same outline, then
they have the same nodes, with the same formulas, links, flags and lineages. It is only for tableaux
without a fork that one has to know besides whether the root is closed. -/
theorem outline_determines_nodes {t u : Tableau} (ht : t.StrictlyReachable) (hu : u.StrictlyReachable)
    (same : Outline.render t = Outline.render u)
    (flags : t.root.closed = u.root.closed ∨ ∃ p ∈ t.places, p.isFork = true) :
    t.tree = u.tree ∧ t.nodes.length = u.nodes.length ∧ ∀ number, t.node? number = u.node? number := by
  have nonempty : ∀ tree : Tree, tree.items ≠ [] := by
    intro tree
    cases tree <;> exact List.cons_ne_nil _ _
  rw [render_eq_joined, render_eq_joined] at same
  have items := Outline.items_of_text ht.shown hu.shown (nonempty _) (nonempty _) same
  have root : Lineage.trunk.split = none →
      t.tree.hasFork = true ∨ t.tree.root.closed = u.tree.root.closed := by
    rintro -
    rcases flags with flag | ⟨p, hp, fork⟩
    · exact .inr flag
    · exact .inl (Tree.hasFork_of_mem_places hp fork)
  have whole : t.tree.items ++ [] = u.tree.items ++ [] := congrArg (· ++ []) items
  have last : Tree.Leaves .trunk [] := by
    intro i hi
    cases hi
  obtain ⟨trees, -⟩ := Tree.eq_of_items ht.reachable.laid hu.reachable.laid
    ht.strictlyBuilt.built.coherent hu.strictlyBuilt.built.coherent root last last whole
  refine ⟨trees, ?_, ?_⟩
  · rw [length_nodes, length_nodes, size, size, trees]
  · intro number
    rw [node?, node?, place?, place?, places, places, trees]

-- The same premises, given at once and one by one with other spaces, and with operations that are
-- refused in between.
theorem outline_determines_nodes_disjunction :
    let either := Formula.ofSentence (.compound .disjunction (.atom ['P']) (.atom ['Q']))
    let denial := Formula.ofSentence (.negation (.atom ['P']))
    let t := (ofPremises either [denial]).serve [.perform (.expand 1), .perform (.close 3 2)]
    let u := (ofPremises either []).serve
      [.perform (.expand 7), .addPremise " ( not P )".toList, .perform (.expand 1),
        .perform (.close 2 3), .perform (.expand 1)]
    t.StrictlyReachable ∧ u.StrictlyReachable ∧
      Outline.render t = " [1] P v Q\t[O]\n [2] ~P\n - 2l [3] P\n - 2l [X]\n - 2r [4] Q".toList ∧
      Outline.render t = Outline.render u ∧ (∃ p ∈ t.places, p.isFork = true) ∧ t ≠ u ∧
      t.tree = u.tree ∧ t.nodes.length = u.nodes.length ∧ ∀ number, t.node? number = u.node? number := by
  intro either denial t u
  have once : ofTexts true ["(or P Q)".toList, "(not P)".toList] = .ok (ofPremises either [denial]) := by
    cbv
  have first : ofTexts true ["(or  P Q)".toList] = .ok (ofPremises either []) := by
    cbv
  have ht : t.StrictlyReachable := ⟨_, _, _, once, rfl⟩
  have hu : u.StrictlyReachable := ⟨_, _, _, first, rfl⟩
  have shown : Outline.render t =
      " [1] P v Q\t[O]\n [2] ~P\n - 2l [3] P\n - 2l [X]\n - 2r [4] Q".toList := by
    cbv
  have same : Outline.render t = Outline.render u := by
    rw [shown]
    unfold u either
    cbv
  have fork : ∃ p ∈ t.places, p.isFork = true := by
    rw [← List.any_eq_true]
    cbv
  have kept : t.refusal = none := by
    cbv
  have refused : u.refusal = some .alreadyExpanded := by
    unfold u either
    cbv
  have other : t ≠ u := by
    intro h
    rw [← h, kept] at refused
    cases refused
  exact ⟨ht, hu, shown, same, fork, other, outline_determines_nodes ht hu same (.inr fork)⟩

-- Without a fork the outline is the same before and after the only branch is closed.
example :
    let t := ofPremises (.atom ['P']) [Formula.ofSentence (.negation (.atom ['P']))]
    let u := t.serve [.perform (.close 1 2)]
    Outline.render t = Outline.render u ∧ t.root.closed = false ∧ u.root.closed = true := by
  intro t u
  refine ⟨?_, ?_, ?_⟩ <;> cbv

end Tableau

end TruthTree
