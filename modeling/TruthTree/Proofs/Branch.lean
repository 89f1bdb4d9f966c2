import TruthTree.Proofs.DecompositionMeaning
import TruthTree.Tableau.Tree

/-! The tableau as a list of branches. A branch is the numbered formulas from the root down to a leaf,
and whether that leaf is closed. The three operations on such lists are those of a tableau kept on
paper: put the results of a decomposition at the end of some branches, close all branches through a
statement, and write a premise at the end of the first branch. -/
namespace TruthTree

structure Entry where
  number : Nat
  formula : Formula
  deriving DecidableEq

def Statement.entry (s : Statement) : Entry := ⟨s.number, s.formula⟩

structure Branch where
  path : List Entry
  closed : Bool
  deriving DecidableEq

def Decomposition.sprouts (next : Nat) : Decomposition → List (List Entry)
  | literal => [[]]
  | single f => [[⟨next, f⟩]]
  | stacked f g => [[⟨next, f⟩, ⟨next + 1, g⟩]]
  | forked f g => [[⟨next, f⟩], [⟨next + 1, g⟩]]

namespace Decomposition

theorem map_formula_sprouts (next : Nat) (d : Decomposition) :
    (d.sprouts next).map (·.map Entry.formula) = d.alternatives := by
  cases d <;> rfl

theorem count_pos {d : Decomposition} (h : d ≠ .literal) : 0 < d.count := by
  cases d with
  | literal => exact absurd rfl h
  | single f => exact Nat.one_pos
  | stacked f g => exact Nat.two_pos
  | forked f g => exact Nat.two_pos

theorem number_sprouts {d : Decomposition} {next : Nat} {sprout : List Entry} {e : Entry}
    (h : sprout ∈ d.sprouts next) (he : e ∈ sprout) :
    next ≤ e.number ∧ e.number < next + d.count := by
  cases d with
  | literal => simp_all [sprouts]
  | single f => simp_all [sprouts, count]
  | stacked f g =>
      simp only [sprouts, List.mem_singleton] at h
      subst h
      simp only [List.mem_cons, List.not_mem_nil, or_false] at he
      rcases he with rfl | rfl <;> simp [count]
  | forked f g =>
      simp only [sprouts, List.mem_cons, List.not_mem_nil, or_false] at h
      rcases h with rfl | rfl <;> simp_all [count]

theorem ascending_sprouts {d : Decomposition} {next : Nat} {sprout : List Entry}
    (h : sprout ∈ d.sprouts next) : (sprout.map Entry.number).Pairwise (· < ·) := by
  cases d with
  | literal => simp_all [sprouts]
  | single f => simp_all [sprouts]
  | stacked f g => simp_all [sprouts]
  | forked f g =>
      simp only [sprouts, List.mem_cons, List.not_mem_nil, or_false] at h
      rcases h with rfl | rfl <;> simp

end Decomposition

namespace Branch

def passes (number : Nat) (b : Branch) : Bool := b.path.any (·.number = number)

def push (e : Entry) (b : Branch) : Branch := { b with path := e :: b.path }

def extend (b : Branch) (entries : List Entry) : Branch := { b with path := b.path ++ entries }

def close (b : Branch) : Branch := { b with closed := true }

@[simp] theorem path_push (e : Entry) (b : Branch) : (b.push e).path = e :: b.path := rfl

@[simp] theorem closed_push (e : Entry) (b : Branch) : (b.push e).closed = b.closed := rfl

@[simp] theorem path_extend (b : Branch) (entries : List Entry) :
    (b.extend entries).path = b.path ++ entries := rfl

@[simp] theorem closed_extend (b : Branch) (entries : List Entry) :
    (b.extend entries).closed = b.closed := rfl

@[simp] theorem passes_push (number : Nat) (e : Entry) (b : Branch) :
    (b.push e).passes number = (decide (e.number = number) || b.passes number) := rfl

theorem push_extend (e : Entry) (b : Branch) (entries : List Entry) :
    (b.push e).extend entries = (b.extend entries).push e := rfl

theorem push_close (e : Entry) (b : Branch) : (b.push e).close = b.close.push e := rfl

theorem passes_iff {number : Nat} {b : Branch} :
    b.passes number = true ↔ ∃ e ∈ b.path, e.number = number := by
  simp [passes]

/-- Puts the results of a decomposition at the end of every chosen branch, from left to right, with
consecutive numbers from `next` on. Gives the branches and the number that is free then. -/
def extendWhere (chosen : Branch → Bool) (d : Decomposition) (next : Nat) :
    List Branch → List Branch × Nat
  | [] => ([], next)
  | b :: rest =>
    if chosen b then
      let later := extendWhere chosen d (next + d.count) rest
      ((d.sprouts next).map b.extend ++ later.1, later.2)
    else
      let later := extendWhere chosen d next rest
      (b :: later.1, later.2)

def openThrough (number : Nat) (b : Branch) : Bool := !b.closed && b.passes number

def expandThrough (number : Nat) (d : Decomposition) (next : Nat) (branches : List Branch) :
    List Branch × Nat :=
  extendWhere (openThrough number) d next branches

def closeThrough (number : Nat) (branches : List Branch) : List Branch :=
  branches.map fun b => if b.passes number then b.close else b

/-- A premise goes to the end of the first branch, open or closed as that is. -/
def extendFirst (e : Entry) : List Branch → List Branch
  | [] => []
  | b :: rest => b.extend [e] :: rest

theorem closeThrough_eq_map_close {number : Nat} {branches : List Branch}
    (h : ∀ b ∈ branches, b.passes number = true) :
    closeThrough number branches = branches.map close := by
  apply List.map_congr_left
  intro b hb
  rw [if_pos (h b hb)]

theorem closeThrough_eq_self {number : Nat} {branches : List Branch}
    (h : ∀ b ∈ branches, b.passes number = true → b.closed = true) :
    closeThrough number branches = branches := by
  refine (List.map_congr_left ?_).trans (List.map_id branches)
  intro b hb
  split
  · next passes =>
      rw [close, ← h b hb passes]
      rfl
  · rfl

theorem closeThrough_append (number : Nat) (left right : List Branch) :
    closeThrough number (left ++ right) = closeThrough number left ++ closeThrough number right :=
  List.map_append

theorem closeThrough_map_push {number : Nat} {e : Entry} (h : e.number ≠ number)
    (branches : List Branch) :
    closeThrough number (branches.map (push e)) = (closeThrough number branches).map (push e) := by
  rw [closeThrough, closeThrough, List.map_map, List.map_map]
  apply List.map_congr_left
  intro b hb
  by_cases hp : b.passes number = true
  · simp [h, hp, push_close]
  · simp [h, hp]

theorem extendFirst_map_push (last e : Entry) (branches : List Branch) :
    extendFirst last (branches.map (push e)) = (extendFirst last branches).map (push e) := by
  cases branches with
  | nil => rfl
  | cons b rest => rfl

theorem of_mem_extendFirst {last : Entry} {branches : List Branch} {c : Branch}
    (h : c ∈ extendFirst last branches) : c ∈ branches ∨ ∃ b ∈ branches, c = b.extend [last] := by
  cases branches with
  | nil => cases h
  | cons b rest =>
      rcases List.mem_cons.mp h with rfl | h
      · exact .inr ⟨b, List.mem_cons_self, rfl⟩
      · exact .inl (List.mem_cons_of_mem b h)

theorem extendFirst_append (last : Entry) {left : List Branch} (h : left ≠ []) (right : List Branch) :
    extendFirst last (left ++ right) = extendFirst last left ++ right := by
  obtain ⟨b, rest, rfl⟩ := List.exists_cons_of_ne_nil h
  rfl

theorem extendWhere_append (chosen : Branch → Bool) (d : Decomposition) (next : Nat)
    (left right : List Branch) :
    extendWhere chosen d next (left ++ right) =
      ((extendWhere chosen d next left).1 ++
        (extendWhere chosen d (extendWhere chosen d next left).2 right).1,
        (extendWhere chosen d (extendWhere chosen d next left).2 right).2) := by
  induction left generalizing next with
  | nil => rfl
  | cons b left ih =>
      by_cases h : chosen b = true
      · simp [extendWhere, h, ih]
      · simp [extendWhere, h, ih]

theorem extendWhere_map_push (chosen : Branch → Bool) (d : Decomposition) (next : Nat) (e : Entry)
    (branches : List Branch) :
    extendWhere chosen d next (branches.map (push e)) =
      ((extendWhere (fun b => chosen (b.push e)) d next branches).1.map (push e),
        (extendWhere (fun b => chosen (b.push e)) d next branches).2) := by
  induction branches generalizing next with
  | nil => rfl
  | cons b branches ih =>
      by_cases h : chosen (b.push e) = true
      · simp [extendWhere, h, ih, push_extend]
      · simp [extendWhere, h, ih]

theorem expandThrough_append (number : Nat) (d : Decomposition) (next : Nat)
    (left right : List Branch) :
    expandThrough number d next (left ++ right) =
      ((expandThrough number d next left).1 ++
        (expandThrough number d (expandThrough number d next left).2 right).1,
        (expandThrough number d (expandThrough number d next left).2 right).2) :=
  extendWhere_append _ d next left right

theorem expandThrough_map_push {number : Nat} {e : Entry} (h : e.number ≠ number)
    (d : Decomposition) (next : Nat) (branches : List Branch) :
    expandThrough number d next (branches.map (push e)) =
      ((expandThrough number d next branches).1.map (push e),
        (expandThrough number d next branches).2) := by
  have same : (fun b : Branch => openThrough number (b.push e)) = openThrough number := by
    funext b
    simp [openThrough, h]
  rw [expandThrough, extendWhere_map_push, same]
  rfl

theorem extendWhere_none {chosen : Branch → Bool} {branches : List Branch}
    (h : ∀ b ∈ branches, chosen b = false) (d : Decomposition) (next : Nat) :
    extendWhere chosen d next branches = (branches, next) := by
  induction branches with
  | nil => rfl
  | cons b branches ih =>
      obtain ⟨head, tail⟩ := List.forall_mem_cons.mp h
      simp [extendWhere, head, ih tail]

theorem extendWhere_congr {chosen other : Branch → Bool} {branches : List Branch}
    (h : ∀ b ∈ branches, chosen b = other b) (d : Decomposition) (next : Nat) :
    extendWhere chosen d next branches = extendWhere other d next branches := by
  induction branches generalizing next with
  | nil => rfl
  | cons b branches ih =>
      obtain ⟨head, tail⟩ := List.forall_mem_cons.mp h
      simp [extendWhere, head, ih tail]

theorem next_le_extendWhere (chosen : Branch → Bool) (d : Decomposition) (next : Nat)
    (branches : List Branch) : next ≤ (extendWhere chosen d next branches).2 := by
  induction branches generalizing next with
  | nil => exact Nat.le_refl next
  | cons b branches ih =>
      by_cases h : chosen b = true
      · have later := ih (next + d.count)
        simp only [extendWhere, h, if_true]
        omega
      · simpa [extendWhere, h] using ih next

theorem mem_extendWhere_of_not_chosen {chosen : Branch → Bool} {branches : List Branch} {b : Branch}
    (hb : b ∈ branches) (h : chosen b = false) (d : Decomposition) (next : Nat) :
    b ∈ (extendWhere chosen d next branches).1 := by
  induction branches generalizing next with
  | nil => cases hb
  | cons c branches ih =>
      rcases List.mem_cons.mp hb with rfl | hb
      · simp [extendWhere, h]
      · by_cases hc : chosen c = true
        · simp [extendWhere, hc, ih hb]
        · simp [extendWhere, hc, ih hb]

theorem mem_extendWhere_of_chosen {chosen : Branch → Bool} {branches : List Branch} {b : Branch}
    (hb : b ∈ branches) (h : chosen b = true) (d : Decomposition) (next : Nat) :
    ∃ first, next ≤ first ∧ first + d.count ≤ (extendWhere chosen d next branches).2 ∧
      ∀ sprout ∈ d.sprouts first, b.extend sprout ∈ (extendWhere chosen d next branches).1 := by
  induction branches generalizing next with
  | nil => cases hb
  | cons c branches ih =>
      rcases List.mem_cons.mp hb with rfl | hb
      · refine ⟨next, Nat.le_refl next, ?_, ?_⟩
        · simpa [extendWhere, h] using next_le_extendWhere chosen d (next + d.count) branches
        · intro sprout hsprout
          simp only [extendWhere, h, if_true]
          exact List.mem_append_left _ (List.mem_map_of_mem hsprout)
      · by_cases hc : chosen c = true
        · obtain ⟨first, low, high, all⟩ := ih hb (next + d.count)
          simp only [extendWhere, hc, if_true]
          exact ⟨first, by omega, high, fun sprout hsprout => List.mem_append_right _ (all sprout hsprout)⟩
        · obtain ⟨first, low, high, all⟩ := ih hb next
          simp only [extendWhere, hc]
          exact ⟨first, low, high, fun sprout hsprout => List.mem_cons_of_mem _ (all sprout hsprout)⟩

theorem of_mem_extendWhere {chosen : Branch → Bool} {branches : List Branch} {d : Decomposition}
    {next : Nat} {c : Branch} (h : c ∈ (extendWhere chosen d next branches).1) :
    (c ∈ branches ∧ chosen c = false) ∨
      ∃ b ∈ branches, chosen b = true ∧ ∃ first, next ≤ first ∧
        first + d.count ≤ (extendWhere chosen d next branches).2 ∧
        ∃ sprout ∈ d.sprouts first, c = b.extend sprout := by
  induction branches generalizing next with
  | nil => cases h
  | cons a branches ih =>
      by_cases ha : chosen a = true
      · simp only [extendWhere, ha, if_true] at h ⊢
        rcases List.mem_append.mp h with here | later
        · obtain ⟨sprout, hsprout, rfl⟩ := List.mem_map.mp here
          exact .inr ⟨a, List.mem_cons_self, ha, next, Nat.le_refl next,
            next_le_extendWhere chosen d (next + d.count) branches, sprout, hsprout, rfl⟩
        · rcases ih later with ⟨hc, same⟩ | ⟨b, hb, picked, first, low, high, rest⟩
          · exact .inl ⟨List.mem_cons_of_mem _ hc, same⟩
          · exact .inr ⟨b, List.mem_cons_of_mem _ hb, picked, first, by omega, high, rest⟩
      · simp only [extendWhere, ha] at h ⊢
        rcases List.mem_cons.mp h with rfl | later
        · exact .inl ⟨List.mem_cons_self, by simpa using ha⟩
        · rcases ih later with ⟨hc, same⟩ | ⟨b, hb, rest⟩
          · exact .inl ⟨List.mem_cons_of_mem _ hc, same⟩
          · exact .inr ⟨b, List.mem_cons_of_mem _ hb, rest⟩

theorem next_lt_extendWhere_iff {d : Decomposition} (hd : d ≠ .literal) (chosen : Branch → Bool)
    (next : Nat) (branches : List Branch) :
    next < (extendWhere chosen d next branches).2 ↔ ∃ b ∈ branches, chosen b = true := by
  constructor
  · intro grown
    by_cases none : ∀ b ∈ branches, chosen b = false
    · rw [extendWhere_none none] at grown
      exact absurd grown (Nat.lt_irrefl next)
    · simpa using none
  · rintro ⟨b, hb, h⟩
    obtain ⟨first, low, high, -⟩ := mem_extendWhere_of_chosen hb h d next
    have counted := Decomposition.count_pos hd
    omega

theorem mem_expandThrough_of_not_passes {number : Nat} {branches : List Branch} {b : Branch}
    (hb : b ∈ branches) (h : b.passes number = false) (d : Decomposition) (next : Nat) :
    b ∈ (expandThrough number d next branches).1 :=
  mem_extendWhere_of_not_chosen hb (by rw [openThrough, h, Bool.and_false]) d next

theorem mem_expandThrough_of_passes {number : Nat} {branches : List Branch} {b : Branch}
    (hb : b ∈ branches) (opened : b.closed = false) (h : b.passes number = true)
    (d : Decomposition) (next : Nat) :
    ∃ first, ∀ sprout ∈ d.sprouts first, b.extend sprout ∈ (expandThrough number d next branches).1 := by
  have chosen : openThrough number b = true := by rw [openThrough, opened, h]; rfl
  obtain ⟨first, -, -, all⟩ := mem_extendWhere_of_chosen hb chosen d next
  exact ⟨first, all⟩

theorem of_mem_expandThrough {number : Nat} {branches : List Branch} {d : Decomposition} {next : Nat}
    {c : Branch} (h : c ∈ (expandThrough number d next branches).1) :
    (c ∈ branches ∧ (c.closed = true ∨ c.passes number = false)) ∨
      ∃ b ∈ branches, b.closed = false ∧ b.passes number = true ∧
        ∃ first, next ≤ first ∧ ∃ sprout ∈ d.sprouts first, c = b.extend sprout := by
  rcases of_mem_extendWhere h with ⟨hc, left⟩ | ⟨b, hb, picked, first, low, -, rest⟩
  · exact .inl ⟨hc, by cases closed : c.closed <;> simp_all [openThrough]⟩
  · rw [openThrough, Bool.and_eq_true, Bool.not_eq_true'] at picked
    exact .inr ⟨b, hb, picked.1, picked.2, first, low, rest⟩

theorem mem_closeThrough_of_not_passes {number : Nat} {branches : List Branch} {b : Branch}
    (hb : b ∈ branches) (h : b.passes number = false) : b ∈ closeThrough number branches :=
  List.mem_map.mpr ⟨b, hb, by rw [h]; rfl⟩

theorem closed_of_mem_closeThrough {number : Nat} {branches : List Branch} {c : Branch}
    (hc : c ∈ closeThrough number branches) (passes : c.passes number = true) : c.closed = true := by
  obtain ⟨b, -, rfl⟩ := List.mem_map.mp hc
  split
  · rfl
  · next other => simp_all

theorem mem_extendFirst {last : Entry} {branches : List Branch} {b : Branch} (hb : b ∈ branches) :
    b ∈ extendFirst last branches ∨ b.extend [last] ∈ extendFirst last branches := by
  cases branches with
  | nil => cases hb
  | cons c rest =>
      rcases List.mem_cons.mp hb with rfl | hb
      · exact .inr List.mem_cons_self
      · exact .inl (List.mem_cons_of_mem _ hb)

end Branch

end TruthTree
