import TruthTree.Proofs.TreeBranches
import TruthTree.Tableau.Operation

/-! The numbers in a tree. Whatever an operation adds gets the next free numbers, each once, so the
statements of a tableau are numbered from one on without gaps and a number names one statement. -/
namespace TruthTree

@[simp] theorem Statement.number_closeIf (s : Statement) (condition : Bool) :
    (s.closeIf condition).number = s.number := by
  cases condition <;> rfl

theorem Statement.closeIf_closed (s : Statement) : s.closeIf s.closed = s := by
  obtain ⟨number, formula, lineage, closed, expanded⟩ := s
  cases closed <;> rfl

namespace Tree

def numbers (t : Tree) : List Nat := t.statements.map Statement.number

@[simp] theorem numbers_leaf (s : Statement) : (leaf s).numbers = [s.number] := rfl

@[simp] theorem numbers_chain (s : Statement) (t : Tree) :
    (chain s t).numbers = s.number :: t.numbers := rfl

@[simp] theorem numbers_fork (s : Statement) (l r : Tree) :
    (fork s l r).numbers = s.number :: (l.numbers ++ r.numbers) := by
  simp [numbers, statements]

@[simp] theorem length_numbers (t : Tree) : t.numbers.length = t.size := by
  simp [numbers]

/-- The old numbers and `count` new ones from `next` on. -/
def NumberedFrom (next count : Nat) (old new : Tree) : Prop :=
  new.numbers.Perm (old.numbers ++ List.range' next count)

theorem NumberedFrom.refl (next : Nat) {old new : Tree} (h : new.numbers = old.numbers) :
    NumberedFrom next 0 old new := by
  rw [NumberedFrom, h, List.range'_zero, List.append_nil]

theorem NumberedFrom.chain {next count : Nat} {s s' : Statement} {t t' : Tree}
    (hs : s'.number = s.number) (ht : NumberedFrom next count t t') :
    NumberedFrom next count (chain s t) (chain s' t') := by
  rw [NumberedFrom, numbers_chain, numbers_chain, hs, List.cons_append]
  exact List.Perm.cons s.number ht

theorem NumberedFrom.fork {next first second : Nat} {s s' : Statement} {l l' r r' : Tree}
    (hs : s'.number = s.number) (hl : NumberedFrom next first l l')
    (hr : NumberedFrom (next + first) second r r') :
    NumberedFrom next (first + second) (fork s l r) (fork s' l' r') := by
  rw [NumberedFrom, numbers_fork, numbers_fork, hs, List.cons_append, ← List.range'_append_1,
    List.append_assoc]
  refine List.Perm.cons s.number ((hl.append hr).trans ?_)
  rw [List.append_assoc]
  exact (List.perm_append_comm_assoc _ _ _).append_left l.numbers

theorem numbered_addPremise (number : Nat) (formula : Formula) (t : Tree) :
    NumberedFrom number 1 t (t.addPremise number formula) := by
  induction t with
  | leaf s =>
      cases h : s.closed <;>
        simp [NumberedFrom, addPremise, h, Statement.closeIf, Statement.follow, Statement.fresh,
          Statement.close]
  | chain s t ih => exact .chain rfl ih
  | fork s l r ihl ihr => exact .fork rfl ihl (.refl _ rfl)

theorem numbered_attach (d : Decomposition) (next : Nat) (s : Statement) :
    NumberedFrom next d.count (leaf s) (attach d next s).1 := by
  cases d <;>
    simp [NumberedFrom, attach, Decomposition.count, Statement.follow, Statement.branchOff,
      Statement.fresh, List.range'_succ]

theorem numbered_grow (d : Decomposition) (next : Nat) (t : Tree) :
    ∃ count, (grow d next t).2 = next + count ∧ NumberedFrom next count t (grow d next t).1 := by
  induction t generalizing next with
  | leaf s =>
      rw [grow]
      split
      · exact ⟨0, rfl, .refl next rfl⟩
      · exact ⟨d.count, next_attach d next s, numbered_attach d next s⟩
  | chain s t ih =>
      rw [grow]
      split
      · exact ⟨0, rfl, .refl next rfl⟩
      · obtain ⟨count, free, below⟩ := ih next
        exact ⟨count, free, .chain rfl below⟩
  | fork s l r ihl ihr =>
      rw [grow]
      split
      · exact ⟨0, rfl, .refl next rfl⟩
      · obtain ⟨first, free, left⟩ := ihl next
        obtain ⟨second, free', right⟩ := ihr (next + first)
        refine ⟨first + second, ?_, .fork rfl left ?_⟩
        · simp only [free, free', Nat.add_assoc]
        · simpa only [free] using right

theorem numbers_mapRoot_expand (t : Tree) : (t.mapRoot Statement.expand).numbers = t.numbers := by
  cases t <;> simp [mapRoot, Statement.expand]

theorem numbered_grow_marked (d : Decomposition) (next : Nat) (t : Tree) :
    ∃ count, (grow d next (t.mapRoot Statement.expand)).2 = next + count ∧
      NumberedFrom next count t (grow d next (t.mapRoot Statement.expand)).1 := by
  obtain ⟨count, free, grown⟩ := numbered_grow d next (t.mapRoot Statement.expand)
  rw [NumberedFrom, numbers_mapRoot_expand] at grown
  exact ⟨count, free, grown⟩

theorem numbered_expandAt (number : Nat) (d : Decomposition) (next : Nat) (t : Tree) :
    ∃ count, (expandAt number d next t).2 = next + count ∧
      NumberedFrom next count t (expandAt number d next t).1 := by
  induction t generalizing next with
  | leaf s =>
      rw [expandAt]
      split
      · exact numbered_grow_marked d next (leaf s)
      · exact ⟨0, rfl, .refl next rfl⟩
  | chain s t ih =>
      rw [expandAt]
      split
      · exact numbered_grow_marked d next (chain s t)
      · obtain ⟨count, free, below⟩ := ih next
        exact ⟨count, free, .chain rfl below⟩
  | fork s l r ihl ihr =>
      rw [expandAt]
      split
      · exact numbered_grow_marked d next (fork s l r)
      · obtain ⟨first, free, left⟩ := ihl next
        obtain ⟨second, free', right⟩ := ihr (next + first)
        refine ⟨first + second, ?_, .fork rfl left ?_⟩
        · simp only [free, free', Nat.add_assoc]
        · simpa only [free] using right

theorem expandAt_of_not_mem {number : Nat} {t : Tree} (h : number ∉ t.numbers) (d : Decomposition)
    (next : Nat) : expandAt number d next t = (t, next) := by
  induction t generalizing next with
  | leaf s =>
      have other : (leaf s).root.number ≠ number := by simpa [eq_comm] using h
      rw [expandAt, if_neg other]
  | chain s t ih =>
      rw [numbers_chain, List.mem_cons, not_or] at h
      have other : (chain s t).root.number ≠ number := Ne.symm h.1
      rw [expandAt, if_neg other, ih h.2]
  | fork s l r ihl ihr =>
      rw [numbers_fork, List.mem_cons, List.mem_append, not_or, not_or] at h
      have other : (fork s l r).root.number ≠ number := Ne.symm h.1
      simp only [expandAt, if_neg other, ihl h.2.1, ihr h.2.2]

theorem map_statements_map_close {α : Type} {f : Statement → α} (h : ∀ s : Statement, f s.close = f s)
    (t : Tree) : (t.map Statement.close).statements.map f = t.statements.map f := by
  induction t with
  | leaf s => simp [map, statements, h]
  | chain s t ih => simp [map, statements, h, ih]
  | fork s l r ihl ihr => simp [map, statements, h, ihl, ihr]

theorem map_statements_closeAt {α : Type} {f : Statement → α} (h : ∀ s : Statement, f s.close = f s)
    (number : Nat) (t : Tree) : (t.closeAt number).statements.map f = t.statements.map f := by
  have flag : ∀ (s : Statement) (condition : Bool), f (s.closeIf condition) = f s := by
    intro s condition
    cases condition
    · rfl
    · exact h s
  induction t with
  | leaf s =>
      rw [closeAt]
      split
      · exact map_statements_map_close h (leaf s)
      · rfl
  | chain s t ih =>
      rw [closeAt]
      split
      · exact map_statements_map_close h (chain s t)
      · simp [statements, flag, ih]
  | fork s l r ihl ihr =>
      rw [closeAt]
      split
      · exact map_statements_map_close h (fork s l r)
      · simp [statements, flag, ihl, ihr]

theorem Coherent.closeAt_of_not_mem {t : Tree} (h : t.Coherent) {number : Nat}
    (absent : number ∉ t.numbers) : t.closeAt number = t := by
  induction t with
  | leaf s =>
      have other : (leaf s).root.number ≠ number := by simpa [eq_comm] using absent
      rw [Tree.closeAt, if_neg other]
  | chain s t ih =>
      rw [numbers_chain, List.mem_cons, not_or] at absent
      rw [closeAt_chain (Ne.symm absent.1), ih h.2 absent.2, ← h.1, Statement.closeIf_closed]
  | fork s l r ihl ihr =>
      rw [numbers_fork, List.mem_cons, List.mem_append, not_or, not_or] at absent
      rw [closeAt_fork (Ne.symm absent.1), ihl h.2.1 absent.2.1, ihr h.2.2 absent.2.2, ← h.1,
        Statement.closeIf_closed]

theorem numbers_closeAt (number : Nat) (t : Tree) : (t.closeAt number).numbers = t.numbers :=
  map_statements_closeAt (fun _ => rfl) number t

end Tree

namespace Tableau

/-- The statements are numbered from one on without gaps, up to the next free number. -/
structure Numbered (t : Tableau) : Prop where
  next_eq : t.next = t.tree.size + 1
  perm : t.tree.numbers.Perm (List.range' 1 t.tree.size)

namespace Numbered

theorem start (premise : Formula) : (Tableau.start premise).Numbered := ⟨rfl, .refl _⟩

theorem grown {t u : Tableau} (h : t.Numbered) (count : Nat) (next : u.next = t.next + count)
    (new : Tree.NumberedFrom t.next count t.tree u.tree) : u.Numbered := by
  have size : u.tree.size = t.tree.size + count := by
    have lengths := new.length_eq
    simpa using lengths
  refine ⟨by rw [next, h.next_eq, size]; omega, ?_⟩
  rw [size, ← List.range'_append_1]
  have shifted : t.next = 1 + t.tree.size := by rw [h.next_eq]; omega
  rw [Tree.NumberedFrom, shifted] at new
  exact new.trans (h.perm.append_right _)

theorem nodup {t : Tableau} (h : t.Numbered) : t.tree.numbers.Nodup :=
  h.perm.nodup_iff.mpr (List.nodup_range')

theorem mem_numbers_iff {t : Tableau} (h : t.Numbered) (number : Nat) :
    number ∈ t.tree.numbers ↔ 1 ≤ number ∧ number < t.next := by
  rw [h.perm.mem_iff, List.mem_range'_1, h.next_eq]
  omega

theorem number_lt {t : Tableau} (h : t.Numbered) {s : Statement} (hs : s ∈ t.tree.statements) :
    s.number < t.next :=
  ((h.mem_numbers_iff _).mp (List.mem_map_of_mem hs)).2

theorem statement_unique {t : Tableau} (h : t.Numbered) {a b : Statement}
    (ha : a ∈ t.tree.statements) (hb : b ∈ t.tree.statements) (same : a.number = b.number) :
    a = b :=
  List.inj_on_of_nodup_map h.nodup ha hb same

end Numbered

end Tableau

end TruthTree
