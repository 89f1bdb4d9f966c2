import TruthTree.Proofs.ArenaStore

/-! The loops over an arena. On an arena that stores a tree, following links does what recursion on the
tree does: every link leads to a node, every loop comes to an end, and what is attached or closed on the
way is what the tree gets. -/
namespace TruthTree

namespace Place

def Stored (a : Arena) (p : Place) : Prop := p.here.Stored a (p.parent?.map Statement.number)

namespace Stored

variable {a : Arena} {p : Place}

theorem node (h : p.Stored a) : a.at? p.statement.number = some p.node := by
  rw [Tree.node_eq_rootNode]
  exact Tree.Stored.root h

theorem children (h : p.Stored a) : ∀ q ∈ p.children, q.Stored a := by
  obtain ⟨above, here⟩ := p
  cases here with
  | leaf s => exact nofun
  | chain s t =>
      rintro q hq
      obtain rfl := mem_children_chain.mp hq
      exact h.2
  | fork s l r =>
      rintro q hq
      rcases mem_children_fork.mp hq with rfl | rfl
      · exact h.2.1
      · exact h.2.2

end Stored

end Place

namespace Tableau

theorem openLeaves_of_closed {p : Place} (h : p.statement.closed = true) : openLeaves p = [] := by
  rw [openLeaves, Place.walk, if_pos h, Place.walk, List.filter_nil]

variable {s : Statement} (opened : s.closed = false) (above : List Statement)
include opened

theorem openLeaves_leaf : openLeaves ⟨above, .leaf s⟩ = [⟨above, .leaf s⟩] := by
  simp [openLeaves, Place.walk, Place.statement, opened, Place.children, Place.isLeaf]

theorem openLeaves_chain (t : Tree) : openLeaves ⟨above, .chain s t⟩ = openLeaves ⟨s :: above, t⟩ := by
  rw [openLeaves, Place.walk]
  simp [Place.statement, opened, Place.children, Place.isLeaf, openLeaves]

theorem openLeaves_fork (l r : Tree) : openLeaves ⟨above, .fork s l r⟩ =
    openLeaves ⟨s :: above, l⟩ ++ openLeaves ⟨s :: above, r⟩ := by
  have sides := Place.walk_append Statement.closed [⟨s :: above, l⟩] [⟨s :: above, r⟩]
  rw [List.singleton_append] at sides
  rw [openLeaves, Place.walk]
  simp [Place.statement, opened, Place.children, Place.isLeaf, openLeaves, sides]

end Tableau

namespace Arena

variable {a b : Arena} {parent : Option Nat} {s : Statement} {t l r : Tree} {number : Nat} {node : Node}

theorem walk_cons (found : a.at? number = some node) (skipClosed : Bool) (stack : List Nat) :
    a.walk skipClosed (number :: stack) =
      if skipClosed && node.closed then a.walk skipClosed stack
      else (a.walk skipClosed (node.children ++ stack)).map (node :: ·) := by
  rw [walk]
  simp only [found, Option.bind_eq_bind, Option.bind_some]
  split
  · rfl
  · exact (Option.map_eq_bind ..).symm

theorem walk_places (skipClosed : Bool) {stack : List Place} (h : ∀ p ∈ stack, p.Stored a) :
    a.walk skipClosed (stack.map (·.statement.number)) =
      some ((Place.walk (fun s => skipClosed && s.closed) stack).map Place.node) := by
  fun_induction Place.walk (fun s => skipClosed && s.closed) stack with
  | case1 =>
      rw [List.map_nil, walk]
      rfl
  | case2 p stack skipped ih =>
      obtain ⟨here, rest⟩ := List.forall_mem_cons.mp h
      rw [List.map_cons, walk_cons here.node]
      exact (if_pos skipped).trans (ih rest)
  | case3 p stack kept ih =>
      obtain ⟨here, rest⟩ := List.forall_mem_cons.mp h
      have later := ih (List.forall_mem_append.mpr ⟨here.children, rest⟩)
      rw [List.map_append, ← Place.children_node] at later
      rw [List.map_cons, walk_cons here.node, later]
      exact if_neg kept

theorem openLeaves_place {p : Place} (h : p.Stored a) :
    a.openLeaves p.statement.number = some ((Tableau.openLeaves p).map (·.statement.number)) := by
  have walked := walk_places true (List.forall_mem_singleton.mpr h)
  have leaves : ∀ places : List Place, ((places.map Place.node).filter Node.isLeaf).map Node.number =
      (places.filter Place.isLeaf).map (·.statement.number) := by
    intro places
    have same : Node.isLeaf ∘ Place.node = Place.isLeaf := funext Place.isLeaf_node
    rw [List.filter_map, List.map_map, same]
    rfl
  rw [List.map_singleton] at walked
  rw [openLeaves, walked, Option.bind_eq_bind, Option.bind_some, leaves]
  rfl

theorem ancestors_of_parent {upper : Node} (link : node.parent = some number)
    (found : a.at? number = some upper) :
    a.ancestors node = (a.ancestors upper).map (upper :: ·) := by
  rw [ancestors]
  simp only [link, found, Option.bind_eq_bind, Option.bind_some]
  exact (Option.map_eq_bind ..).symm

theorem ancestors_place (h : t.Stored a none) :
    ∀ p ∈ t.places [], ∃ nodes, a.ancestors p.node = some nodes ∧
      nodes.map (fun n => (n.number, n.formula)) = p.above.map fun s => (s.number, s.formula) := by
  have stored := (@Tree.stored_iff a [] t).mp h
  apply Tree.places_induction
  · refine ⟨[], ?_, rfl⟩
    rw [ancestors]
    rfl
  · rintro p hp q hq ⟨nodes, above, same⟩
    refine ⟨p.node :: nodes, ?_, ?_⟩
    · rw [ancestors_of_parent (Place.parent_node hq) (stored p hp), above, Option.map_some]
    · rw [Place.above_of_mem_children hq, List.map_cons, List.map_cons, same]
      rfl

/-! Growing at the leaves. -/

theorem Holds.attachParts (h : a.Holds parent (.leaf s)) (d : Decomposition) :
    ∃ b, attachParts d a s.number = some b ∧ b.next = (Tree.attach d a.next s).2 ∧
      Updates a b parent (.leaf s) (Tree.attach d a.next s).1 := by
  cases d with
  | literal => exact ⟨a, rfl, rfl, .refl h⟩
  | single f =>
      obtain ⟨b, attached, next, update⟩ := h.attach_leaf f none nofun
      refine ⟨b, ?_, next, update⟩
      simp only [Arena.attachParts, attached, Option.bind_eq_bind, Option.bind_some]
  | stacked f g =>
      obtain ⟨b, upper, next, update⟩ := h.attach_leaf f none nofun
      obtain ⟨c, lower, next', update'⟩ := update.holds.below.attach_leaf g none nofun
      rw [Statement.number_below] at lower
      refine ⟨c, ?_, by rw [next', next]; rfl, ?_⟩
      · simp only [Arena.attachParts, upper, lower, Option.bind_eq_bind, Option.bind_some]
      · rw [next] at update'
        exact update.trans (.chain update.holds update')
  | forked f g =>
      obtain ⟨b, left, next, update⟩ := h.attach_leaf f (some .left) nofun
      obtain ⟨c, right, next', update'⟩ := update.holds.attach_right g
      refine ⟨c, ?_, by rw [next', next]; rfl, ?_⟩
      · simp only [Arena.attachParts, left, right, Option.bind_eq_bind, Option.bind_some]
      · rw [next] at update'
        exact update.trans update'

theorem Holds.grow_of_closed (h : a.Holds parent t) (closed : t.root.closed = true)
    (d : Decomposition) (above : List Statement) :
    ∃ b, ((Tableau.openLeaves ⟨above, t⟩).map (·.statement.number)).foldlM (Arena.attachParts d) a =
        some b ∧
      b.next = (Tree.grow d a.next t).2 ∧ Updates a b parent t (Tree.grow d a.next t).1 := by
  have none : Tableau.openLeaves ⟨above, t⟩ = [] := Tableau.openLeaves_of_closed closed
  rw [none, Tree.grow_of_closed closed]
  exact ⟨a, rfl, rfl, .refl h⟩

/-- Attaching the parts below the open leaves, one leaf after the other, grows the tree. The leaves are
told apart before anything is attached, and each still is a leaf when its turn comes. -/
theorem Holds.attachParts_openLeaves (h : a.Holds parent t) (d : Decomposition)
    (above : List Statement) :
    ∃ b, ((Tableau.openLeaves ⟨above, t⟩).map (·.statement.number)).foldlM (Arena.attachParts d) a =
        some b ∧
      b.next = (Tree.grow d a.next t).2 ∧ Updates a b parent t (Tree.grow d a.next t).1 := by
  induction t generalizing a parent above with
  | leaf s =>
      cases closed : s.closed with
      | true => exact h.grow_of_closed closed d above
      | false =>
          obtain ⟨b, attached, next, update⟩ := h.attachParts d
          rw [Tableau.openLeaves_leaf closed, Tree.grow, closed]
          refine ⟨b, ?_, next, update⟩
          rw [List.map_singleton, List.foldlM_cons, Place.statement, Tree.root_leaf, attached]
          rfl
  | chain s t ih =>
      cases closed : s.closed with
      | true => exact h.grow_of_closed closed d above
      | false =>
          obtain ⟨b, attached, next, update⟩ := ih h.below (s :: above)
          rw [Tableau.openLeaves_chain closed, Tree.grow, closed]
          exact ⟨b, attached, next, .chain h update⟩
  | fork s l r ihl ihr =>
      cases closed : s.closed with
      | true => exact h.grow_of_closed closed d above
      | false =>
          obtain ⟨b, attached, next, update⟩ := ihl h.left (s :: above)
          have forked := Updates.left h update
          obtain ⟨c, attached', next', update'⟩ := ihr forked.holds.right (s :: above)
          rw [Tableau.openLeaves_fork closed, Tree.grow, closed, List.map_append, List.foldlM_append,
            attached]
          rw [next] at next' update'
          exact ⟨c, attached', next', forked.trans (.right forked.holds update')⟩

theorem Holds.grow_root {above : List Statement} (h : a.Holds (above.head?.map Statement.number) t)
    (d : Decomposition) :
    ∃ b, a.grow t.root.number d = some b ∧
      b.next = (Tree.expandAt t.root.number d a.next t).2 ∧
      Updates a b (above.head?.map Statement.number) t (Tree.expandAt t.root.number d a.next t).1 := by
  have place : Place.Stored a ⟨above, t⟩ := h.stored
  obtain ⟨b, attached, next, update⟩ := h.attachParts_openLeaves d above
  have mark := update.holds.expand_root
  rw [update.root] at mark
  rw [Tree.expandAt_root rfl, Tree.grow_mapRoot_expand]
  refine ⟨b.write t.root.number Node.expand, ?_, by simpa using next, update.trans mark⟩
  have leaves := openLeaves_place place
  rw [Place.statement] at leaves
  simp only [Arena.grow, leaves, attached, Option.bind_eq_bind, Option.bind_some]

theorem Holds.grow {above : List Statement} (h : a.Holds (above.head?.map Statement.number) t)
    (mem : number ∈ t.numbers) (d : Decomposition) :
    ∃ b, a.grow number d = some b ∧ b.next = (Tree.expandAt number d a.next t).2 ∧
      Updates a b (above.head?.map Statement.number) t (Tree.expandAt number d a.next t).1 := by
  induction t generalizing above with
  | leaf s =>
      obtain rfl := List.mem_singleton.mp mem
      exact h.grow_root d
  | chain s t ih =>
      by_cases here : s.number = number
      · subst here
        exact h.grow_root d
      · rw [Tree.numbers_chain, List.mem_cons] at mem
        obtain ⟨b, grown, next, update⟩ := @ih (s :: above) h.below (mem.resolve_left (Ne.symm here))
        rw [Tree.expandAt, Tree.root_chain, if_neg here]
        exact ⟨b, grown, next, .chain h update⟩
  | fork s l r ihl ihr =>
      by_cases here : s.number = number
      · subst here
        exact h.grow_root d
      · obtain ⟨-, -, sides⟩ := h.apart
        rw [Tree.numbers_fork, List.mem_cons, List.mem_append] at mem
        rw [Tree.expandAt, Tree.root_fork, if_neg here]
        rcases mem.resolve_left (Ne.symm here) with mem | mem
        · obtain ⟨b, grown, next, update⟩ := @ihl (s :: above) h.left mem
          simp only [Tree.expandAt_of_not_mem (sides number mem)]
          exact ⟨b, grown, next, .left h update⟩
        · obtain ⟨b, grown, next, update⟩ := @ihr (s :: above) h.right mem
          simp only [Tree.expandAt_of_not_mem fun here => sides number here mem]
          exact ⟨b, grown, next, .right h update⟩

/-! Adding a premise at the end of the left links. -/

theorem tail_of_left {lower : Nat} (found : a.at? number = some node) (left : node.left = some lower) :
    a.tail number = a.tail lower := by
  rw [tail]
  simp only [found, left, Option.bind_eq_bind, Option.bind_some]

theorem tail_of_leaf (found : a.at? number = some node) (leaf : node.left = none) :
    a.tail number = some number := by
  rw [tail]
  simp only [found, leaf, Option.bind_eq_bind, Option.bind_some]

theorem addPremiseBelow_of_left {lower : Nat} (found : a.at? number = some node)
    (left : node.left = some lower) (premise : Formula) :
    a.addPremiseBelow number premise = a.addPremiseBelow lower premise := by
  rw [addPremiseBelow, tail_of_left found left, addPremiseBelow]

theorem Holds.addPremiseBelow (h : a.Holds parent t) (premise : Formula) :
    ∃ b, a.addPremiseBelow t.root.number premise = some b ∧ b.next = a.next + 1 ∧
      Updates a b parent t (t.addPremise a.next premise) := by
  induction t generalizing parent with
  | leaf s =>
      obtain ⟨b, attached, next, update⟩ := h.attach_leaf premise none nofun
      have last := update.holds.stored.1
      have mark := Updates.chain update.holds update.holds.below.close_root
      rw [Tree.root_leaf, Statement.number_below] at mark
      rw [Arena.addPremiseBelow, Tree.root_leaf, tail_of_leaf h.stored rfl]
      simp only [attached, last, Option.bind_eq_bind, Option.bind_some]
      rw [Tree.addPremise, Statement.closeIf]
      by_cases closed : s.closed = true
      · rw [if_pos closed]
        exact ⟨_, congrArg some (if_pos closed), by simpa using next, update.trans mark⟩
      · rw [if_neg closed]
        exact ⟨b, congrArg some (if_neg closed), next, update⟩
  | chain s t ih =>
      obtain ⟨b, added, next, update⟩ := ih h.below
      rw [addPremiseBelow_of_left h.stored.root rfl]
      exact ⟨b, added, next, .chain h update⟩
  | fork s l r ihl ihr =>
      obtain ⟨b, added, next, update⟩ := ihl h.left
      rw [addPremiseBelow_of_left h.stored.root rfl]
      exact ⟨b, added, next, .left h update⟩

/-! Closing downward and upward. -/

theorem closeDownward_cons (found : a.at? number = some node) (stack : List Nat) :
    a.closeDownward (number :: stack) =
      (a.write number Node.close).closeDownward (node.children ++ stack) := by
  rw [closeDownward]
  simp only [found, Option.bind_eq_bind, Option.bind_some]

theorem Holds.closeDownward (h : a.Holds parent t) (stack : List Nat) :
    ∃ b, a.closeDownward (t.root.number :: stack) = b.closeDownward stack ∧ b.next = a.next ∧
      Updates a b parent t (t.map Statement.close) := by
  induction t generalizing a parent stack with
  | leaf s =>
      rw [closeDownward_cons h.stored.root]
      exact ⟨_, rfl, next_write .., h.close_root⟩
  | chain s t ih =>
      have mark := h.close_root
      obtain ⟨b, closed, next, update⟩ := ih mark.holds.below stack
      rw [closeDownward_cons h.stored.root]
      exact ⟨b, closed, by simpa using next, mark.trans (.chain mark.holds update)⟩
  | fork s l r ihl ihr =>
      have mark := h.close_root
      obtain ⟨b, closed, next, update⟩ := ihl mark.holds.left (r.root.number :: stack)
      have half := Updates.left mark.holds update
      obtain ⟨c, closed', next', update'⟩ := ihr half.holds.right stack
      rw [closeDownward_cons h.stored.root]
      refine ⟨c, closed.trans closed', by simpa [next] using next', ?_⟩
      exact mark.trans (half.trans (.right half.holds update'))

theorem closeUpward_of_root (found : a.at? number = some node) (root : node.parent = none) :
    a.closeUpward number = some a := by
  rw [closeUpward]
  simp only [found, root, Option.bind_eq_bind, Option.bind_some]

theorem Holds.closeUpward_chain (h : a.Holds parent (.chain s t)) :
    a.closeUpward t.root.number = (a.write s.number Node.close).closeUpward s.number := by
  have found := h.below.stored.root
  have link : (t.rootNode (some s.number)).parent = some s.number := by cases t <;> rfl
  rw [closeUpward]
  simp only [found, link, h.stored.1, Option.bind_eq_bind, Option.bind_some]
  rfl

theorem Holds.closeUpward_fork (h : a.Holds parent (.fork s l r))
    (side : number = l.root.number ∨ number = r.root.number) :
    a.closeUpward number =
      if l.root.closed && r.root.closed then (a.write s.number Node.close).closeUpward s.number
      else some a := by
  have link : ∀ t : Tree, (t.rootNode (some s.number)).parent = some s.number ∧
      (t.rootNode (some s.number)).closed = t.root.closed := by
    intro t
    cases t <;> exact ⟨rfl, rfl⟩
  have left := h.left.stored.root
  have right := h.right.stored.root
  have found : ∃ node, a.at? number = some node ∧ node.parent = some s.number := by
    rcases side with rfl | rfl
    · exact ⟨_, left, (link l).1⟩
    · exact ⟨_, right, (link r).1⟩
  have ends : a.allClosed (Tree.rootNode parent (.fork s l r)).children =
      some (l.root.closed && r.root.closed) := by
    have both : (Tree.rootNode parent (.fork s l r)).children = [l.root.number, r.root.number] := rfl
    simp only [both, allClosed, List.allM, left, right, link, Option.map_some, Option.bind_eq_bind,
      Option.bind_some]
    cases l.root.closed <;> cases r.root.closed <;> rfl
  have fork : (Tree.rootNode parent (.fork s l r)).isFork = true := rfl
  obtain ⟨node, here, up⟩ := found
  rw [closeUpward]
  simp only [here, up, h.stored.1, fork, ends, if_true, Option.bind_eq_bind, Option.bind_some]

theorem Updates.climb {c : Arena} {u : Tree} (update : Updates a c parent t u) {ends : Bool}
    (opened : ends = false → u.root.closed = false)
    (up : b.closeUpward number =
      if ends then (c.write u.root.number Node.close).closeUpward u.root.number else some c) :
    ∃ d : Arena, d.next = c.next ∧ Updates a d parent t (u.mapRoot (·.closeIf ends)) ∧
      b.closeUpward number =
        if (u.mapRoot (·.closeIf ends)).root.closed then d.closeUpward t.root.number else some d := by
  cases ends with
  | true =>
      have closed : (u.mapRoot Statement.close).root.closed = true := by cases u <;> rfl
      refine ⟨c.write u.root.number Node.close, next_write .., update.trans update.holds.close_root, ?_⟩
      rw [← update.root]
      exact up.trans (if_pos closed).symm
  | false =>
      have same : u.mapRoot (·.closeIf false) = u := by cases u <;> rfl
      rw [same, opened rfl]
      exact ⟨c, rfl, update, up⟩

theorem Holds.closeAt_root (h : a.Holds parent t) :
    ∃ b c, a.closeDownward [t.root.number] = some b ∧ c.next = a.next ∧
      Updates a c parent t (t.closeAt t.root.number) ∧
      b.closeUpward t.root.number =
        if (t.closeAt t.root.number).root.closed then c.closeUpward t.root.number else some c := by
  obtain ⟨b, closed, next, update⟩ := h.closeDownward []
  have done : b.closeDownward [] = some b := by rw [Arena.closeDownward]
  have root : (t.map Statement.close).root.closed = true := by rw [Tree.root_map]; rfl
  rw [Tree.closeAt_root rfl]
  exact ⟨b, b, closed.trans done, next, update, (if_pos root).symm⟩

/-- Closing downward from a number and then upward closes the tree there. If that closes the root, it
goes on above it. -/
theorem Holds.closeAt (h : a.Holds parent t) (coherent : t.Coherent) (mem : number ∈ t.numbers) :
    ∃ b c, a.closeDownward [number] = some b ∧ c.next = a.next ∧
      Updates a c parent t (t.closeAt number) ∧
      b.closeUpward number =
        if (t.closeAt number).root.closed then c.closeUpward t.root.number else some c := by
  induction t generalizing parent with
  | leaf s =>
      obtain rfl := List.mem_singleton.mp mem
      exact h.closeAt_root
  | chain s t ih =>
      by_cases here : s.number = number
      · subst here
        exact h.closeAt_root
      · rw [Tree.numbers_chain, List.mem_cons] at mem
        obtain ⟨b, c, down, next, update, up⟩ :=
          ih h.below coherent.2 (mem.resolve_left (Ne.symm here))
        have whole := Updates.chain h update
        have opened : (t.closeAt number).root.closed = false → s.closed = false := by
          intro opened
          rw [coherent.1, ← Bool.not_eq_true]
          intro closed
          rw [Tree.root_closeAt_closed number closed] at opened
          cases opened
        rw [← update.root, whole.holds.closeUpward_chain] at up
        obtain ⟨d, next', update', up'⟩ := whole.climb opened up
        rw [Tree.closeAt_chain here]
        exact ⟨b, d, down, next'.trans next, update', up'⟩
  | fork s l r ihl ihr =>
      by_cases here : s.number = number
      · subst here
        exact h.closeAt_root
      · rw [Tree.closeAt_fork here]
        obtain ⟨-, -, sides⟩ := h.apart
        rw [Tree.numbers_fork, List.mem_cons, List.mem_append] at mem
        have opened : ((l.closeAt number).root.closed && (r.closeAt number).root.closed) = false →
            s.closed = false := by
          intro opened
          rw [coherent.1, ← Bool.not_eq_true, Bool.and_eq_true]
          rintro ⟨left, right⟩
          rw [Tree.root_closeAt_closed number left, Tree.root_closeAt_closed number right] at opened
          cases opened
        rcases mem.resolve_left (Ne.symm here) with mem | mem
        · obtain ⟨b, c, down, next, update, up⟩ := ihl h.left coherent.2.1 mem
          have whole := Updates.left h update
          rw [coherent.2.2.closeAt_of_not_mem (sides number mem)] at opened ⊢
          rw [← update.root, whole.holds.closeUpward_fork (.inl rfl), ← ite_and] at up
          simp only [← Bool.and_eq_true, Bool.and_self_left] at up
          obtain ⟨d, next', update', up'⟩ := whole.climb opened up
          exact ⟨b, d, down, next'.trans next, update', up'⟩
        · obtain ⟨b, c, down, next, update, up⟩ := ihr h.right coherent.2.2 mem
          have whole := Updates.right h update
          rw [coherent.2.1.closeAt_of_not_mem fun here => sides number here mem] at opened ⊢
          rw [← update.root, whole.holds.closeUpward_fork (.inr rfl), ← ite_and] at up
          simp only [← Bool.and_eq_true, Bool.and_left_comm _ l.root.closed, Bool.and_self] at up
          obtain ⟨d, next', update', up'⟩ := whole.climb opened up
          exact ⟨b, d, down, next'.trans next, update', up'⟩

end Arena

end TruthTree
