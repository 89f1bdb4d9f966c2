import Mathlib.Data.List.TakeWhile
import TruthTree.Formula.Reader

/-! How far the first operand of a text reaches, on any text whatever. A word reaches up to the next space
or closing parenthesis. An opening parenthesis reaches up to the first place where as many parentheses
have been closed as opened, and to the end if there is no such place. The scan does not look beyond the
place where it stops, so an operand that is complete stays the same whatever is written after it. -/
namespace TruthTree

structure LongestBeginning (P : Text → Prop) (t part : Text) : Prop where
  begins : part <+: t
  holds : P part
  greatest : ∀ other, other <+: t → P other → other <+: part

structure ShortestBeginning (P : Text → Prop) (t part : Text) : Prop where
  begins : part <+: t
  holds : P part
  least : ∀ other, other <+: t → P other → part <+: other

theorem ShortestBeginning.unique {P : Text → Prop} {t a b : Text} (ha : ShortestBeginning P t a)
    (hb : ShortestBeginning P t b) : a = b := by
  have below := ha.least b hb.begins hb.holds
  have above := hb.least a ha.begins ha.holds
  exact below.eq_of_length_le above.length_le

theorem ShortestBeginning.append {P : Text → Prop} {t part : Text} (h : ShortestBeginning P t part)
    (u : Text) : ShortestBeginning P (t ++ u) part := by
  have begins : part <+: t ++ u := h.begins.trans (List.prefix_append t u)
  refine ⟨begins, h.holds, fun other hother found => ?_⟩
  rcases List.prefix_or_prefix_of_prefix begins hother with shorter | longer
  · exact shorter
  · exact h.least other (longer.trans h.begins) found

/-- The shortest beginning with a property, or the whole text if no beginning has it. -/
def ExtendsTo (P : Text → Prop) (t part : Text) : Prop :=
  ShortestBeginning P t part ∨ part = t ∧ ∀ other, other <+: t → ¬P other

namespace ExtendsTo

variable {P Q : Text → Prop} {t part : Text}

theorem begins (h : ExtendsTo P t part) : part <+: t := by
  rcases h with shortest | ⟨rfl, -⟩
  · exact shortest.begins
  · exact List.prefix_rfl

theorem shortest (h : ExtendsTo P t part) {other : Text} (begins : other <+: t) (found : P other) :
    ShortestBeginning P t part := by
  rcases h with shortest | ⟨-, missing⟩
  · exact shortest
  · exact absurd found (missing other begins)

theorem whole (h : ExtendsTo P t part) (missing : ∀ other, other <+: t → ¬P other) : part = t := by
  rcases h with shortest | ⟨whole, -⟩
  · exact absurd shortest.holds (missing part shortest.begins)
  · exact whole

theorem cons {c : Char} (empty : ¬P []) (step : ∀ other, P (c :: other) ↔ Q other)
    (h : ExtendsTo Q t part) : ExtendsTo P (c :: t) (c :: part) := by
  rcases h with ⟨begins, holds, least⟩ | ⟨rfl, missing⟩
  · refine .inl ⟨List.cons_prefix_cons.mpr ⟨rfl, begins⟩, (step part).mpr holds, ?_⟩
    intro other hother found
    rcases List.prefix_cons_iff.mp hother with rfl | ⟨more, rfl, hmore⟩
    · exact absurd found empty
    · exact List.cons_prefix_cons.mpr ⟨rfl, least more hmore ((step more).mp found)⟩
  · refine .inr ⟨rfl, fun other hother found => ?_⟩
    rcases List.prefix_cons_iff.mp hother with rfl | ⟨more, rfl, hmore⟩
    · exact empty found
    · exact missing more hmore ((step more).mp found)

end ExtendsTo

/-- A text closes all the parentheses that it opens, and `depth` more. -/
def Closes (depth : Nat) (t : Text) : Prop := depth + t.count '(' = t.count ')'

namespace Closes

theorem not_nil (depth : Nat) : ¬Closes (depth + 1) [] := by
  simp [Closes]

theorem opening (depth : Nat) (t : Text) : Closes depth ('(' :: t) ↔ Closes (depth + 1) t := by
  simp only [Closes, List.count_cons_self, List.count_cons_of_ne (show '(' ≠ ')' by decide)]
  omega

theorem closing (depth : Nat) (t : Text) : Closes (depth + 1) (')' :: t) ↔ Closes depth t := by
  simp only [Closes, List.count_cons_self, List.count_cons_of_ne (show ')' ≠ '(' by decide)]
  omega

theorem other {c : Char} (opening : c ≠ '(') (closing : c ≠ ')') (depth : Nat) (t : Text) :
    Closes depth (c :: t) ↔ Closes depth t := by
  rw [Closes, List.count_cons_of_ne opening, List.count_cons_of_ne closing, Closes]

end Closes

theorem extendsTo_balanced (depth : Nat) (t : Text) :
    ExtendsTo (Closes (depth + 1)) t (balanced (depth + 1) t) := by
  induction t generalizing depth with
  | nil =>
      refine .inr ⟨rfl, fun other begins => ?_⟩
      rw [List.prefix_nil.mp begins]
      exact Closes.not_nil depth
  | cons c rest ih =>
      rw [balanced]
      split
      · next opening =>
          subst opening
          exact .cons (Closes.not_nil depth) (Closes.opening (depth + 1)) (ih (depth + 1))
      · next opening =>
          split
          · next closing =>
              subst closing
              cases depth with
              | zero =>
                  -- The only parenthesis that is left open is closed here.
                  have here : ShortestBeginning (Closes 1) (')' :: rest) [')'] := by
                    refine ⟨⟨rest, rfl⟩, rfl, fun other begins closes => ?_⟩
                    rcases List.prefix_cons_iff.mp begins with rfl | ⟨more, rfl, -⟩
                    · exact absurd closes (Closes.not_nil 0)
                    · exact ⟨more, rfl⟩
                  rw [if_pos (by omega)]
                  exact .inl here
              | succ depth =>
                  rw [if_neg (by omega)]
                  exact .cons (Closes.not_nil _) (Closes.closing (depth + 1)) (ih depth)
          · next closing =>
              exact .cons (Closes.not_nil depth) (Closes.other opening closing (depth + 1)) (ih depth)

def Paired (t : Text) : Prop := t ≠ [] ∧ t.count '(' = t.count ')'

instance : DecidablePred Paired := fun t =>
  inferInstanceAs (Decidable (t ≠ [] ∧ t.count '(' = t.count ')'))

theorem paired_opening (t : Text) : Paired ('(' :: t) ↔ Closes 1 t := by
  rw [← Closes.opening, Closes, Nat.zero_add]
  exact and_iff_right (List.cons_ne_nil _ _)

theorem extendsTo_firstOperand (rest : Text) :
    ExtendsTo Paired ('(' :: rest) (firstOperand ('(' :: rest)) := by
  rw [firstOperand_opening]
  exact .cons (fun paired => paired.1 rfl) paired_opening (extendsTo_balanced 0 rest)

theorem longestBeginning_takeWhile (p : Char → Bool) (t : Text) :
    LongestBeginning (fun part => ∀ c ∈ part, p c = true) t (t.takeWhile p) := by
  refine ⟨List.takeWhile_prefix p, fun c => List.mem_takeWhile_imp, ?_⟩
  rintro other ⟨rest, rfl⟩ passed
  rw [List.takeWhile_append_of_pos passed]
  exact List.prefix_append other _

theorem longestBeginning_firstOperand {t : Text} (h : t.head? ≠ some '(') :
    LongestBeginning (fun part => ' ' ∉ part ∧ ')' ∉ part) t (firstOperand t) := by
  have stops : ∀ part : Text, (∀ c ∈ part, (c ≠ ' ' && c ≠ ')') = true) ↔
      ' ' ∉ part ∧ ')' ∉ part := by
    intro part
    simp only [Bool.and_eq_true, decide_eq_true_eq, forall_and, ne_eq, List.forall_mem_ne']
  have longest := longestBeginning_takeWhile (fun c => c ≠ ' ' && c ≠ ')') t
  simp only [stops] at longest
  rw [firstOperand_unopened h]
  exact longest

theorem firstOperand_append {t : Text} (opening : t.head? = some '(')
    (complete : (firstOperand t).count '(' = (firstOperand t).count ')') (u : Text) :
    firstOperand (t ++ u) = firstOperand t := by
  obtain ⟨rest, rfl⟩ := List.head?_eq_some_iff.mp opening
  have extent := extendsTo_firstOperand rest
  have paired : Paired (firstOperand ('(' :: rest)) := by
    refine ⟨?_, complete⟩
    rw [firstOperand_opening]
    exact List.cons_ne_nil _ _
  have shortest := (extent.shortest extent.begins paired).append u
  exact ((extendsTo_firstOperand (rest ++ u)).shortest shortest.begins shortest.holds).unique shortest

/-- The first operand of a text is a beginning of it. A word is the longest beginning without a space or a
closing parenthesis. From an opening parenthesis the operand is the shortest beginning that closes as many
parentheses as it opens, or the whole text if there is none; and once it is complete, it does not depend
on what follows. -/
theorem firstOperand_extent (t : Text) :
    firstOperand t <+: t ∧
    (t.head? ≠ some '(' →
      LongestBeginning (fun part => ' ' ∉ part ∧ ')' ∉ part) t (firstOperand t)) ∧
    (t.head? = some '(' →
      ((∃ part, part <+: t ∧ Paired part) → ShortestBeginning Paired t (firstOperand t)) ∧
      ((¬∃ part, part <+: t ∧ Paired part) → firstOperand t = t) ∧
      ((firstOperand t).count '(' = (firstOperand t).count ')' →
        ∀ u, firstOperand (t ++ u) = firstOperand t)) := by
  by_cases opening : t.head? = some '('
  · obtain ⟨rest, rfl⟩ := List.head?_eq_some_iff.mp opening
    have extent := extendsTo_firstOperand rest
    refine ⟨extent.begins, absurd opening, fun _ => ⟨?_, ?_, firstOperand_append opening⟩⟩
    · rintro ⟨part, begins, paired⟩
      exact extent.shortest begins paired
    · exact fun missing => extent.whole fun part begins paired => missing ⟨part, begins, paired⟩
  · have word := longestBeginning_firstOperand opening
    exact ⟨word.begins, fun _ => word, fun h => absurd h opening⟩

-- A word with a parenthesis in it, an operand before a parenthesis too many, and one that is never
-- completed.
theorem firstOperand_extent_malformed :
    LongestBeginning (fun part => ' ' ∉ part ∧ ')' ∉ part) "a(b c)".toList "a(b".toList ∧
    ShortestBeginning Paired "(or (A) B)) (C".toList "(or (A) B)".toList ∧
    (∀ u, firstOperand ("(or (A) B)) (C".toList ++ u) = "(or (A) B)".toList) ∧
    firstOperand "((A) B".toList = "((A) B".toList := by
  have word : firstOperand "a(b c)".toList = "a(b".toList := by cbv
  have group : firstOperand "(or (A) B)) (C".toList = "(or (A) B)".toList := by cbv
  obtain ⟨begins, -, opened⟩ := firstOperand_extent "(or (A) B)) (C".toList
  obtain ⟨shortest, -, stays⟩ := opened (by decide)
  rw [group] at begins shortest stays
  refine ⟨?_, shortest ⟨_, begins, by decide⟩, stays (by decide), ?_⟩
  · rw [← word]
    exact (firstOperand_extent _).2.1 (by decide)
  · refine ((firstOperand_extent "((A) B".toList).2.2 (by decide)).2.1 ?_
    rintro ⟨part, begins, paired⟩
    have never : ∀ n < 7, ¬Paired ("((A) B".toList.take n) := by decide
    have short : part.length < 7 := Nat.lt_succ_of_le begins.length_le
    rw [List.prefix_iff_eq_take.mp begins] at paired
    exact never part.length short paired

end TruthTree
