import TruthTree.Proofs.Nodes

/-! Trees in an arena. An arena stores a tree when the nodes of its statements are all there, with the
links that the tree calls for. An update of a part of the arena turns the stored tree into another one
and leaves every other node as it is, so an update below a node is an update of the tree above it. -/
namespace TruthTree

namespace Statement

def node (s : Statement) (parent left right : Option Nat) : Node where
  number := s.number
  formula := s.formula
  parent := parent
  left := left
  right := right
  closed := s.closed
  expanded := s.expanded
  depth := s.lineage.depth
  origin := (s.lineage.split.map Split.origin).getD 0
  side := s.lineage.split.map Split.side

def below (s : Statement) (side : Option Side) (number : Nat) (formula : Formula) : Statement :=
  match side with
  | none => s.follow number formula
  | some side => s.branchOff side number formula

@[simp] theorem number_below (s : Statement) (side : Option Side) (number : Nat) (formula : Formula) :
    (s.below side number formula).number = number := by
  cases side <;> rfl

end Statement

namespace Tree

def rootNode (parent : Option Nat) : Tree → Node
  | leaf s => s.node parent none none
  | chain s t => s.node parent (some t.root.number) none
  | fork s l r => s.node parent (some l.root.number) (some r.root.number)

def Stored (a : Arena) (parent : Option Nat) : Tree → Prop
  | leaf s => a.at? s.number = some (rootNode parent (leaf s))
  | chain s t =>
    a.at? s.number = some (rootNode parent (chain s t)) ∧ t.Stored a (some s.number)
  | fork s l r =>
    a.at? s.number = some (rootNode parent (fork s l r)) ∧
      l.Stored a (some s.number) ∧ r.Stored a (some s.number)

theorem root_mem_numbers (t : Tree) : t.root.number ∈ t.numbers := by
  cases t <;> simp

namespace Stored

variable {a b : Arena} {parent : Option Nat} {t : Tree}

theorem root (h : t.Stored a parent) : a.at? t.root.number = some (t.rootNode parent) := by
  cases t with
  | leaf s => exact h
  | chain s t => exact h.1
  | fork s l r => exact h.1

theorem congr (h : t.Stored a parent) (same : ∀ n ∈ t.numbers, b.at? n = a.at? n) :
    t.Stored b parent := by
  induction t generalizing parent with
  | leaf s => exact (same _ (root_mem_numbers (leaf s))).trans h
  | chain s t ih =>
      simp only [numbers_chain, List.forall_mem_cons] at same
      exact ⟨same.1.trans h.1, ih h.2 same.2⟩
  | fork s l r ihl ihr =>
      simp only [numbers_fork, List.forall_mem_cons, List.forall_mem_append] at same
      exact ⟨same.1.trans h.1, ihl h.2.1 same.2.1, ihr h.2.2 same.2.2⟩

theorem exists_node (h : t.Stored a parent) : ∀ n ∈ t.numbers, ∃ node, a.at? n = some node := by
  induction t generalizing parent with
  | leaf s =>
      rw [numbers_leaf, List.forall_mem_singleton]
      exact ⟨_, h⟩
  | chain s t ih =>
      rw [numbers_chain, List.forall_mem_cons]
      exact ⟨⟨_, h.1⟩, ih h.2⟩
  | fork s l r ihl ihr =>
      rw [numbers_fork, List.forall_mem_cons, List.forall_mem_append]
      exact ⟨⟨_, h.1⟩, ihl h.2.1, ihr h.2.2⟩

end Stored

theorem node_eq_rootNode (p : Place) : p.node = p.here.rootNode (p.parent?.map Statement.number) := by
  obtain ⟨above, here⟩ := p
  cases here <;> rfl

theorem stored_iff {a : Arena} {above : List Statement} {t : Tree} :
    t.Stored a (above.head?.map Statement.number) ↔
      ∀ p ∈ t.places above, a.at? p.statement.number = some p.node := by
  induction t generalizing above with
  | leaf s => simp [Stored, places, node_eq_rootNode, Place.statement, Place.parent?]
  | chain s t ih =>
      have below := @ih (s :: above)
      simp only [List.head?_cons, Option.map_some] at below
      simp [Stored, places, node_eq_rootNode, Place.statement, Place.parent?, below]
  | fork s l r ihl ihr =>
      have left := @ihl (s :: above)
      have right := @ihr (s :: above)
      simp only [List.head?_cons, Option.map_some] at left right
      simp [Stored, places, node_eq_rootNode, Place.statement, Place.parent?, left, right, or_imp,
        forall_and]

end Tree

namespace Arena

def Tight (a : Arena) : Prop := a.next = a.nodes.length + 1

theorem Tight.lt_next {a : Arena} (h : a.Tight) {n : Nat} {node : Node} (found : a.at? n = some node) :
    n < a.next := by
  cases n with
  | zero => cases found
  | succ i =>
      have bound := (List.getElem?_eq_some_iff.mp found).1
      rw [h]
      omega

@[simp] theorem next_write (a : Arena) (number : Nat) (f : Node → Node) :
    (a.write number f).next = a.next := by
  cases number <;> rfl

@[simp] theorem refusal_write (a : Arena) (number : Nat) (f : Node → Node) :
    (a.write number f).refusal = a.refusal := by
  cases number <;> rfl

theorem Tight.write {a : Arena} (h : a.Tight) (number : Nat) (f : Node → Node) :
    (a.write number f).Tight := by
  cases number with
  | zero => exact h
  | succ i => simpa [Tight, Arena.write] using h

theorem at?_write (a : Arena) (number : Nat) (f : Node → Node) (n : Nat) :
    (a.write number f).at? n = if n = number then (a.at? n).map f else a.at? n := by
  cases number with
  | zero => cases n <;> simp [write, at?]
  | succ i =>
      cases n with
      | zero => simp [at?]
      | succ j =>
          simp only [write, at?, List.getElem?_modify, Nat.add_right_cancel_iff, eq_comm (a := i)]
          split
          · rfl
          · exact id_map _

@[simp] theorem next_newNode (a : Arena) (formula : Formula) :
    (a.newNode formula).1.next = a.next + 1 := rfl

@[simp] theorem refusal_newNode (a : Arena) (formula : Formula) :
    (a.newNode formula).1.refusal = a.refusal := rfl

@[simp] theorem snd_newNode (a : Arena) (formula : Formula) : (a.newNode formula).2 = a.next := rfl

theorem Tight.newNode {a : Arena} (h : a.Tight) (formula : Formula) : (a.newNode formula).1.Tight := by
  simpa [Tight, Arena.newNode] using h

theorem Tight.at?_newNode {a : Arena} (h : a.Tight) (formula : Formula) (n : Nat) :
    (a.newNode formula).1.at? n =
      if n = a.next then some (.fresh a.next formula) else a.at? n := by
  cases n with
  | zero =>
      rw [if_neg (by rw [h]; omega)]
      rfl
  | succ i =>
      have last : i + 1 = a.next ↔ i = a.nodes.length := by rw [h, Nat.add_right_cancel_iff]
      simp only [last, Arena.newNode, at?]
      split
      · next here => rw [here, List.getElem?_concat_length]
      · next other => rw [List.getElem?_append]; grind

end Arena

namespace Node

def link (n : Node) (side : Option Side) (child : Nat) : Node :=
  match side with
  | some .right => { n with right := some child }
  | _ => { n with left := some child }

end Node

namespace Arena

variable {a b c : Arena} {parent : Option Nat} {s : Statement} {t t' l r : Tree}

/-- The tree is stored below the parent, and a number names one of its statements. -/
structure Holds (a : Arena) (parent : Option Nat) (t : Tree) : Prop where
  tight : a.Tight
  stored : t.Stored a parent
  unique : t.numbers.Nodup

/-- From `a` to `b` the stored tree has turned into another one with the same number at the root.
Numbers that it did not have before are new, and whatever else was in the arena has stayed. -/
structure Updates (a b : Arena) (parent : Option Nat) (old new : Tree) : Prop where
  holds : b.Holds parent new
  root : new.root.number = old.root.number
  numbers : ∀ n ∈ new.numbers, n ∈ old.numbers ∨ a.next ≤ n
  frame : ∀ n, n ∉ old.numbers → n < a.next → b.at? n = a.at? n
  next : a.next ≤ b.next
  refusal : b.refusal = a.refusal

namespace Holds

theorem lt_next (h : a.Holds parent t) : ∀ n ∈ t.numbers, n < a.next := by
  intro n hn
  obtain ⟨node, found⟩ := h.stored.exists_node n hn
  exact h.tight.lt_next found

theorem root_not_mem (h : a.Holds parent (.chain s t)) : s.number ∉ t.numbers :=
  (List.nodup_cons.mp h.unique).1

theorem below (h : a.Holds parent (.chain s t)) : a.Holds (some s.number) t :=
  ⟨h.tight, h.stored.2, (List.nodup_cons.mp h.unique).2⟩

theorem apart (h : a.Holds parent (.fork s l r)) :
    s.number ∉ l.numbers ∧ s.number ∉ r.numbers ∧ ∀ n ∈ l.numbers, n ∉ r.numbers := by
  have unique := h.unique
  rw [Tree.numbers_fork, List.nodup_cons, List.mem_append, not_or, List.nodup_append] at unique
  exact ⟨unique.1.1, unique.1.2, fun n hl hr => unique.2.2.2 n hl n hr rfl⟩

theorem left (h : a.Holds parent (.fork s l r)) : a.Holds (some s.number) l := by
  have unique := h.unique
  rw [Tree.numbers_fork, List.nodup_cons, List.nodup_append] at unique
  exact ⟨h.tight, h.stored.2.1, unique.2.1⟩

theorem right (h : a.Holds parent (.fork s l r)) : a.Holds (some s.number) r := by
  have unique := h.unique
  rw [Tree.numbers_fork, List.nodup_cons, List.nodup_append] at unique
  exact ⟨h.tight, h.stored.2.2, unique.2.2.1⟩

end Holds

namespace Updates

theorem refl (h : a.Holds parent t) : Updates a a parent t t :=
  ⟨h, rfl, fun _ hn => .inl hn, fun _ _ _ => rfl, Nat.le_refl _, rfl⟩

theorem not_mem (u : Updates a b parent t t') {n : Nat} (absent : n ∉ t.numbers) (old : n < a.next) :
    n ∉ t'.numbers := by
  intro hn
  rcases u.numbers n hn with here | new
  · exact absent here
  · omega

theorem trans {u : Tree} (first : Updates a b parent t t') (second : Updates b c parent t' u) :
    Updates a c parent t u where
  holds := second.holds
  root := second.root.trans first.root
  numbers := by
    intro n hn
    rcases second.numbers n hn with old | new
    · exact first.numbers n old
    · exact .inr (Nat.le_trans first.next new)
  frame := by
    intro n other old
    rw [second.frame n (first.not_mem other old) (Nat.lt_of_lt_of_le old first.next), first.frame n other old]
  next := Nat.le_trans first.next second.next
  refusal := second.refusal.trans first.refusal

theorem chain (h : a.Holds parent (.chain s t)) (u : Updates a b (some s.number) t t') :
    Updates a b parent (.chain s t) (.chain s t') where
  holds := by
    have old := h.lt_next s.number (Tree.root_mem_numbers (.chain s t))
    refine ⟨u.holds.tight, ⟨?_, u.holds.stored⟩, ?_⟩
    · rw [u.frame _ h.root_not_mem old, h.stored.1, Tree.rootNode, Tree.rootNode, u.root]
    · exact List.nodup_cons.mpr ⟨u.not_mem h.root_not_mem old, u.holds.unique⟩
  root := rfl
  numbers := by
    simp only [Tree.numbers_chain, List.mem_cons]
    rintro n (rfl | hn)
    · exact .inl (.inl rfl)
    · exact (u.numbers n hn).imp_left .inr
  frame := by
    intro n other old
    rw [Tree.numbers_chain, List.mem_cons, not_or] at other
    exact u.frame n other.2 old
  next := u.next
  refusal := u.refusal

theorem left (h : a.Holds parent (.fork s l r)) (u : Updates a b (some s.number) l t') :
    Updates a b parent (.fork s l r) (.fork s t' r) where
  holds := by
    have old := h.lt_next s.number (Tree.root_mem_numbers (.fork s l r))
    obtain ⟨hl, hr, sides⟩ := h.apart
    have other : ∀ n ∈ r.numbers, n ∉ l.numbers := fun n hn here => sides n here hn
    refine ⟨u.holds.tight, ⟨?_, u.holds.stored, ?_⟩, ?_⟩
    · rw [u.frame _ hl old, h.stored.1, Tree.rootNode, Tree.rootNode, u.root]
    · exact h.right.stored.congr fun n hn => u.frame n (other n hn) (h.right.lt_next n hn)
    · rw [Tree.numbers_fork, List.nodup_cons, List.mem_append, not_or, List.nodup_append]
      refine ⟨⟨u.not_mem hl old, hr⟩, u.holds.unique, h.right.unique, ?_⟩
      rintro n hn m hm rfl
      exact u.not_mem (other n hm) (h.right.lt_next n hm) hn
  root := rfl
  numbers := by
    simp only [Tree.numbers_fork, List.mem_cons, List.mem_append]
    rintro n (rfl | hn | hn)
    · exact .inl (.inl rfl)
    · exact (u.numbers n hn).imp_left (.inr ∘ .inl)
    · exact .inl (.inr (.inr hn))
  frame := by
    intro n other old
    rw [Tree.numbers_fork, List.mem_cons, List.mem_append, not_or, not_or] at other
    exact u.frame n other.2.1 old
  next := u.next
  refusal := u.refusal

theorem right (h : a.Holds parent (.fork s l r)) (u : Updates a b (some s.number) r t') :
    Updates a b parent (.fork s l r) (.fork s l t') where
  holds := by
    have old := h.lt_next s.number (Tree.root_mem_numbers (.fork s l r))
    obtain ⟨hl, hr, sides⟩ := h.apart
    refine ⟨u.holds.tight, ⟨?_, ?_, u.holds.stored⟩, ?_⟩
    · rw [u.frame _ hr old, h.stored.1, Tree.rootNode, Tree.rootNode, u.root]
    · exact h.left.stored.congr fun n hn => u.frame n (sides n hn) (h.left.lt_next n hn)
    · rw [Tree.numbers_fork, List.nodup_cons, List.mem_append, not_or, List.nodup_append]
      refine ⟨⟨hl, u.not_mem hr old⟩, h.left.unique, u.holds.unique, ?_⟩
      rintro n hn m hm rfl
      exact u.not_mem (sides n hn) (h.left.lt_next n hn) hm
  root := rfl
  numbers := by
    simp only [Tree.numbers_fork, List.mem_cons, List.mem_append]
    rintro n (rfl | hn | hn)
    · exact .inl (.inl rfl)
    · exact .inl (.inr (.inl hn))
    · exact (u.numbers n hn).imp_left (.inr ∘ .inr)
  frame := by
    intro n other old
    rw [Tree.numbers_fork, List.mem_cons, List.mem_append, not_or, not_or] at other
    exact u.frame n other.2.2 old
  next := u.next
  refusal := u.refusal

end Updates

theorem Holds.write_root (h : a.Holds parent t) {f : Node → Node} {g : Statement → Statement}
    (same : ∀ s, (g s).number = s.number)
    (agree : ∀ s parent left right, f (Statement.node s parent left right) = (g s).node parent left right) :
    Updates a (a.write t.root.number f) parent t (t.mapRoot g) := by
  have here := h.stored.root
  have other : ∀ n, n ≠ t.root.number → (a.write t.root.number f).at? n = a.at? n := by
    intro n hn
    rw [at?_write, if_neg hn]
  have root : (a.write t.root.number f).at? t.root.number = some (f (t.rootNode parent)) := by
    rw [at?_write, if_pos rfl, here, Option.map_some]
  have numbers : (t.mapRoot g).numbers = t.numbers := by
    cases t <;> simp [Tree.mapRoot, same]
  have stored : (t.mapRoot g).Stored (a.write t.root.number f) parent := by
    cases t with
    | leaf s => rw [Tree.mapRoot, Tree.Stored, same, Tree.rootNode, ← agree]; exact root
    | chain s t =>
        rw [Tree.mapRoot, Tree.Stored, same, Tree.rootNode, ← agree]
        refine ⟨root, h.below.stored.congr fun n hn => other n ?_⟩
        rintro rfl
        exact h.root_not_mem hn
    | fork s l r =>
        obtain ⟨hl, hr, -⟩ := h.apart
        rw [Tree.mapRoot, Tree.Stored, same, Tree.rootNode, ← agree]
        refine ⟨root, h.left.stored.congr fun n hn => other n ?_,
          h.right.stored.congr fun n hn => other n ?_⟩
        · rintro rfl
          exact hl hn
        · rintro rfl
          exact hr hn
  refine ⟨⟨h.tight.write _ _, stored, numbers ▸ h.unique⟩, ?_, ?_, ?_, by simp, by simp⟩
  · cases t <;> exact same _
  · intro n hn
    exact .inl (numbers ▸ hn)
  · intro n absent _
    refine other n ?_
    rintro rfl
    exact absent (Tree.root_mem_numbers t)

theorem Holds.close_root (h : a.Holds parent t) :
    Updates a (a.write t.root.number Node.close) parent t (t.mapRoot Statement.close) :=
  h.write_root (fun _ => rfl) (fun _ _ _ _ => rfl)

theorem Holds.expand_root (h : a.Holds parent t) :
    Updates a (a.write t.root.number Node.expand) parent t (t.mapRoot Statement.expand) :=
  h.write_root (fun _ => rfl) (fun _ _ _ _ => rfl)

/-- Attaching a node adds it and writes one link, and nothing else. -/
theorem Tight.attach (h : a.Tight) {left right : Option Nat}
    (found : a.at? s.number = some (s.node parent left right)) (formula : Formula)
    (side : Option Side) :
    ∃ b, a.attach s.number formula side = some (b, a.next) ∧ b.Tight ∧ b.next = a.next + 1 ∧
      b.refusal = a.refusal ∧
      ∀ n, b.at? n =
        if n = a.next then some ((s.below side a.next formula).node (some s.number) none none)
        else if n = s.number then some ((s.node parent left right).link side a.next)
        else a.at? n := by
  have old := h.lt_next found
  have made := h.newNode formula
  have value := h.at?_newNode formula
  rcases side with - | (- | -)
  all_goals
    simp only [Arena.attach, found, Option.bind_eq_bind, Option.bind_some, snd_newNode]
    refine ⟨_, rfl, ((made.write _ _).write _ _).write _ _, by simp, by simp, ?_⟩
    intro n
    by_cases child : n = a.next
    · simp only [at?_write, value, child, old.ne', if_true, if_false]
      rfl
    · by_cases upper : n = s.number
      · simp only [at?_write, value, upper, old.ne, found, if_true, if_false]
        rfl
      · simp only [at?_write, value, child, upper, if_false]

theorem Holds.attach_leaf (h : a.Holds parent (.leaf s)) (formula : Formula) (side : Option Side)
    (link : side ≠ some .right) :
    ∃ b, a.attach s.number formula side = some (b, a.next) ∧ b.next = a.next + 1 ∧
      Updates a b parent (.leaf s) (.chain s (.leaf (s.below side a.next formula))) := by
  obtain ⟨b, attached, tight, next, refusal, value⟩ := h.tight.attach h.stored formula side
  have old := h.lt_next s.number (Tree.root_mem_numbers (.leaf s))
  refine ⟨b, attached, next, ⟨tight, ⟨?_, ?_⟩, ?_⟩, rfl, ?_, ?_, by omega, refusal⟩
  · rw [value, if_neg old.ne, if_pos rfl]
    rcases side with - | (- | -)
    · rfl
    · rfl
    · exact absurd rfl link
  · rw [Tree.Stored, Statement.number_below, value, if_pos rfl]
    rfl
  · simp [old.ne]
  · simp
  · intro n other lt
    rw [Tree.numbers_leaf, List.mem_singleton] at other
    rw [value, if_neg lt.ne, if_neg other]

theorem Holds.attach_right (h : a.Holds parent (.chain s t)) (formula : Formula) :
    ∃ b, a.attach s.number formula (some .right) = some (b, a.next) ∧ b.next = a.next + 1 ∧
      Updates a b parent (.chain s t) (.fork s t (.leaf (s.branchOff .right a.next formula))) := by
  obtain ⟨b, attached, tight, next, refusal, value⟩ :=
    h.tight.attach h.stored.1 formula (some .right)
  have old := h.lt_next s.number (Tree.root_mem_numbers (.chain s t))
  have below := h.below.lt_next
  refine ⟨b, attached, next, ⟨tight, ⟨?_, ?_, ?_⟩, ?_⟩, rfl, ?_, ?_, by omega, refusal⟩
  · rw [value, if_neg old.ne, if_pos rfl]
    rfl
  · refine h.below.stored.congr fun n hn => ?_
    have other : n ≠ s.number := by
      rintro rfl
      exact h.root_not_mem hn
    rw [value, if_neg (below n hn).ne, if_neg other]
  · rw [Tree.Stored, Statement.branchOff, Statement.fresh, value, if_pos rfl]
    rfl
  · rw [Tree.numbers_fork, List.nodup_cons, List.mem_append, not_or, List.nodup_append]
    refine ⟨⟨h.root_not_mem, by simpa [Statement.branchOff, Statement.fresh] using old.ne⟩,
      h.below.unique, List.nodup_singleton _, ?_⟩
    intro n hn m hm
    rw [Tree.numbers_leaf, List.mem_singleton] at hm
    subst hm
    exact (below n hn).ne
  · intro n hn
    simp only [Tree.numbers_fork, Tree.numbers_leaf, Tree.numbers_chain, List.mem_cons,
      List.mem_append, List.not_mem_nil, or_false] at hn ⊢
    rcases hn with here | below | new
    · exact .inl (.inl here)
    · exact .inl (.inr below)
    · exact .inr (Nat.le_of_eq new.symm)
  · intro n other lt
    rw [Tree.numbers_chain, List.mem_cons, not_or] at other
    rw [value, if_neg lt.ne, if_neg other.1]

end Arena

end TruthTree
