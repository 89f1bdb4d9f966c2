import TruthTree.Proofs.Nodes
import TruthTree.Proofs.Saturation

/-! The table of nodes is append-only, and failures are atomic. A call adds nodes and sets flags, but
neither moves nor changes what is there; an operation that is refused, or whose decomposition cannot be
read, does nothing at all; and a statement is expanded only once. -/
namespace TruthTree

/-- What a node can turn into: its flags may be set, and it may get children if it has none. -/
structure Node.Becomes (n n' : Node) : Prop where
  number : n'.number = n.number
  formula : n'.formula = n.formula
  parent : n'.parent = n.parent
  depth : n'.depth = n.depth
  origin : n'.origin = n.origin
  side : n'.side = n.side
  closed : n.closed = true → n'.closed = true
  expanded : n.expanded = true → n'.expanded = true
  child : ∀ side lower, n.child side = some lower → n'.child side = some lower
  /-- A single child stays the only one. -/
  single : n.left.isSome = true → n'.right = n.right

namespace Place

theorem children_grown {p p' : Place} (h : p.here.GrowsInto p'.here) (some : p.child? .left ≠ none)
    (side : Side) : (p'.child? side).map (·.statement.number) =
      (p.child? side).map (·.statement.number) := by
  obtain ⟨above, here⟩ := p
  obtain ⟨above', here'⟩ := p'
  cases h with
  | leaf root laid => exact absurd rfl some
  | chain root below =>
      cases side with
      | left => exact congrArg Option.some below.root.number
      | right => rfl
  | fork root left right =>
      cases side with
      | left => exact congrArg Option.some left.root.number
      | right => exact congrArg Option.some right.root.number

theorem left_ne_none {p q : Place} {side : Side} (h : p.child? side = some q) :
    p.child? .left ≠ none := by
  obtain ⟨above, here⟩ := p
  cases here with
  | leaf s => cases side <;> cases h
  | chain s t => exact nofun
  | fork s l r => exact nofun

theorem parent_grown {p p' : Place} (h : List.Forall₂ Statement.Becomes p.above p'.above) :
    p'.node.parent = p.node.parent := by
  obtain ⟨above, here⟩ := p
  obtain ⟨above', here'⟩ := p'
  cases h with
  | nil => rfl
  | cons root rest => exact congrArg some root.number

theorem becomes_node {p p' : Place} (above : List.Forall₂ Statement.Becomes p.above p'.above)
    (here : p.here.GrowsInto p'.here) : p.node.Becomes p'.node where
  number := here.root.number
  formula := here.root.formula
  parent := parent_grown above
  depth := congrArg Lineage.depth here.root.lineage
  origin := congrArg (fun lineage => (lineage.split.map Split.origin).getD 0) here.root.lineage
  side := congrArg (fun lineage => lineage.split.map Split.side) here.root.lineage
  closed := here.root.closed
  expanded := here.root.expanded
  child := by
    intro side lower link
    obtain ⟨q, child, rfl⟩ := node_child_eq_some_iff.mp link
    rw [node_child, children_grown here (left_ne_none child), child]
    rfl
  single := by
    intro left
    apply children_grown here
    intro none
    simp [node, none] at left

end Place

namespace Tree

theorem mem_marks_expandAt_root {number : Nat} {t : Tree} (h : t.root.number = number)
    (d : Decomposition) (next : Nat) : number ∈ (expandAt number d next t).1.marks := by
  rw [expandAt_root h, marks_grow]
  cases t <;> simp_all [mapRoot, Statement.expand, Statement.mem_mark_iff]

theorem mem_marks_expandAt {number : Nat} {t : Tree} (h : number ∈ t.numbers) (d : Decomposition)
    (next : Nat) : number ∈ (expandAt number d next t).1.marks := by
  induction t generalizing next with
  | leaf s =>
      have hn : (leaf s).root.number = number := (List.mem_singleton.mp h).symm
      exact mem_marks_expandAt_root hn d next
  | chain s t ih =>
      by_cases hn : (chain s t).root.number = number
      · exact mem_marks_expandAt_root hn d next
      · rw [numbers_chain, List.mem_cons] at h
        have below := h.resolve_left (Ne.symm hn)
        rw [expandAt, if_neg hn, marks_chain]
        exact List.mem_append_right _ (ih below next)
  | fork s l r ihl ihr =>
      by_cases hn : (fork s l r).root.number = number
      · exact mem_marks_expandAt_root hn d next
      · rw [numbers_fork, List.mem_cons, List.mem_append] at h
        rw [expandAt, if_neg hn, marks_fork]
        apply List.mem_append_right
        rcases h.resolve_left (Ne.symm hn) with left | right
        · exact List.mem_append_left _ (ihl left next)
        · exact List.mem_append_right _ (ihr right _)

end Tree

namespace Tableau

theorem node_grown {t u : Tableau} (ht : t.Numbered) (hu : u.Numbered)
    (grown : t.tree.GrowsInto u.tree) {number : Int} {node : Node}
    (found : t.node? number = some node) :
    ∃ later, u.node? number = some later ∧ node.Becomes later := by
  obtain ⟨hnode, rfl⟩ := (node?_eq_some_iff ht).mp found
  obtain ⟨p, hp, rfl⟩ := mem_nodes_iff.mp hnode
  obtain ⟨p', hp', above, here⟩ := grown.place .nil hp
  have becomes := Place.becomes_node above here
  rw [← becomes.number]
  exact ⟨p'.node, node?_of_place hu hp', becomes⟩

theorem perform_of_not_accepted {t : Tableau} {operation : Operation} {outcome : Outcome}
    (h : (t.perform operation).2 = outcome) (failed : outcome ≠ .accepted) :
    (t.perform operation).1 = t.declined outcome := by
  subst h
  cases operation with
  | expand number =>
      simp only [perform, expand] at failed ⊢
      split
      · rfl
      · next accepted =>
          rw [accepted] at failed
          exact absurd rfl failed
  | close first second =>
      simp only [perform, close] at failed ⊢
      split
      · rfl
      · next accepted =>
          rw [accepted] at failed
          exact absurd rfl failed

theorem expand_of_expanded {t : Tableau} {number : Int} {node : Node}
    (found : t.node? number = some node) (expanded : node.expanded = true) :
    (t.expand number).2 = .refused .alreadyExpanded := by
  obtain ⟨p, place, rfl⟩ := Option.map_eq_some_iff.mp found
  have refused : t.expansion number = .error (.refused .alreadyExpanded) := by
    rw [expansion, place]
    exact if_pos expanded
  rw [expand, refused]

theorem expanded_of_accepted {t u : Tableau} (h : t.WellBuilt) {number : Int}
    (accepted : t.expand number = (u, .accepted)) :
    ∃ node, u.node? number = some node ∧ node.expanded = true := by
  have built := h.performed (.expand number) accepted
  obtain ⟨target, d, ok, hu⟩ := expand_eq_accepted_iff.mp accepted
  obtain ⟨p, found, rfl, -⟩ := expansion_eq_ok_iff.mp ok
  obtain ⟨hp, rfl⟩ := (place?_eq_some_iff h.numbered.nodup).mp found
  have marked : p.statement.number ∈ u.tree.marks := by
    subst hu
    exact Tree.mem_marks_expandAt (Tree.number_mem_of_mem_places hp) d t.next
  obtain ⟨s, hs, expanded, number⟩ := Tree.mem_marks_iff.mp marked
  obtain ⟨q, hq, rfl⟩ := exists_place_of_mem_statements hs
  rw [number]
  exact ⟨q.node, node?_of_place built.numbered hq, expanded⟩

/-- No call takes back what is there. Each node keeps its number, formula, parent, lineage and children,
and its flags once they are set. An operation that is refused leaves everything as it was and its reason
is remembered; one that meets a text which cannot be read leaves everything as it was, and no reason. A
statement that has been expanded is refused for it ever after. -/
theorem nodes_append_only {t : Tableau} (h : t.Reachable) :
    (∀ call number node, t.node? number = some node →
      ∃ later, (t.after call).node? number = some later ∧ node.Becomes later) ∧
    (∀ operation reason, (t.perform operation).2 = .refused reason →
      (t.perform operation).1 = { t with refusal := some reason }) ∧
    (∀ operation e, (t.perform operation).2 = .unreadable e →
      (t.perform operation).1 = { t with refusal := none }) ∧
    ∀ number u, t.expand number = (u, .accepted) →
      ∀ calls, ((u.run calls).expand number).2 = .refused .alreadyExpanded := by
  have built := h.wellBuilt
  refine ⟨?_, ?_, ?_, ?_⟩
  · intro call number node found
    exact node_grown built.numbered (built.after call).numbered (built.growsInto_after call) found
  · intro operation reason refused
    exact perform_of_not_accepted refused nofun
  · intro operation e unreadable
    exact perform_of_not_accepted unreadable nofun
  · intro number u accepted calls
    have before := built.performed (.expand number) accepted
    obtain ⟨node, found, expanded⟩ := expanded_of_accepted built accepted
    obtain ⟨later, found', becomes⟩ :=
      node_grown before.numbered (before.run calls).numbered (before.growsInto_run calls) found
    exact expand_of_expanded found' (becomes.expanded expanded)

-- A disjunction, and below it a biconditional whose text breaks off, so that the texts made from
-- its sides cannot be read.
theorem nodes_append_only_malformed :
    let either := Formula.ofSentence (.compound .disjunction (.atom ['P']) (.atom ['Q']))
    let broken := Formula.compound "(iff (not ()".toList .biconditional
      (.negation "(not (".toList (.atom [])) (.atom [])
    let t := ofPremises either [broken]
    let u := t.run [.perform (.expand 1)]
    let node : Node := ⟨2, broken, some 1, none, none, false, false, 0, 0, none⟩
    let later : Node := ⟨2, broken, some 1, some 3, some 4, false, false, 0, 0, none⟩
    t.Reachable ∧ t.expand 1 = (u, .accepted) ∧
      (t.node? 2 = some node ∧ u.node? 2 = some later ∧ node.Becomes later) ∧
      ((t.perform (.expand 2)).2 = .unreadable ⟨[], ['(']⟩ ∧
        (t.perform (.expand 2)).1 = { t with refusal := none }) ∧
      ((t.perform (.close 1 7)).2 = .refused .outOfRange ∧
        (t.perform (.close 1 7)).1 = { t with refusal := some .outOfRange }) ∧
      ((u.run [.perform (.expand 2), .addPremise (.atom ['R'])]).expand 1).2 =
        .refused .alreadyExpanded := by
  intro either broken t u node later
  have reachable : t.Reachable := ⟨either, [broken], [], rfl⟩
  obtain ⟨kept, refused, unreadable, once⟩ := nodes_append_only reachable
  have accepted : t.expand 1 = (u, .accepted) := by
    unfold u t either broken
    cbv
  have found : t.node? 2 = some node := by
    unfold node t either broken
    cbv
  have found' : u.node? 2 = some later := by
    unfold later u t either broken
    cbv
  have becomes : node.Becomes later := by
    obtain ⟨other, here, becomes⟩ := kept (.perform (.expand 1)) 2 node found
    obtain rfl : later = other := Option.some.inj (found'.symm.trans here)
    exact becomes
  have fails : (t.perform (.expand 2)).2 = .unreadable ⟨[], ['(']⟩ := by
    unfold t either broken
    cbv
  have missing : (t.perform (.close 1 7)).2 = .refused .outOfRange := by
    unfold t either broken
    cbv
  exact ⟨reachable, accepted, ⟨found, found', becomes⟩, ⟨fails, unreadable _ _ fails⟩,
    ⟨missing, refused _ _ missing⟩, once 1 u accepted _⟩

end Tableau

end TruthTree
