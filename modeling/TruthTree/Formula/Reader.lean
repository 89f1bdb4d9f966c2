import TruthTree.Formula.Basic

/-! Reading a formula from its text. The reader strips parentheses from the outside in and takes the
text to be well formed. On other texts it still cuts operands at the same places, so that every text
whose connectives it knows has exactly one reading. -/
namespace TruthTree

/-- From an opening parenthesis, with `depth` more around it, up to the one that matches the
outermost; the whole text if there is none. -/
def balanced (depth : Nat) : Text → Text
  | [] => []
  | c :: rest =>
    if c = '(' then c :: balanced (depth + 1) rest
    else if c = ')' then if depth ≤ 1 then [c] else c :: balanced (depth - 1) rest
    else c :: balanced depth rest

/-- The first of the operands that a text lists. -/
def firstOperand (t : Text) : Text :=
  match t with
  | '(' :: _ => balanced 0 t
  | _ => t.takeWhile fun c => c ≠ ' ' && c ≠ ')'

theorem firstOperand_opening (rest : Text) :
    firstOperand ('(' :: rest) = '(' :: balanced 1 rest := by
  simp [firstOperand, balanced]

theorem firstOperand_unopened {t : Text} (h : t.head? ≠ some '(') :
    firstOperand t = t.takeWhile fun c => c ≠ ' ' && c ≠ ')' := by
  unfold firstOperand
  split
  · exact absurd rfl h
  · rfl

theorem length_balanced_le (depth : Nat) (t : Text) : (balanced depth t).length ≤ t.length := by
  induction t generalizing depth with
  | nil => simp [balanced]
  | cons c rest ih =>
      simp only [balanced]
      split
      · simpa using ih (depth + 1)
      · split
        · split
          · simp
          · simpa using ih (depth - 1)
        · simpa using ih depth

theorem length_firstOperand_le (t : Text) : (firstOperand t).length ≤ t.length := by
  unfold firstOperand
  split
  · exact length_balanced_le 0 _
  · exact (List.takeWhile_sublist _).length_le

/-- What stands between the first `start` characters of a text and its last one. -/
def interior (start : Nat) (t : Text) : Text := (t.drop start).dropLast

theorem length_interior_lt (start : Nat) (c : Char) (t : Text) :
    (interior start (c :: t)).length < (c :: t).length := by
  simp only [interior, List.length_dropLast, List.length_drop, List.length_cons]
  omega

/-- A parenthesised text whose first word is no connective. -/
structure UnknownConnective where
  keyword : Text
  text : Text
  deriving DecidableEq

def UnknownConnective.message (e : UnknownConnective) : String :=
  s!"Unknown connective '{e.keyword.toStr}' in: {e.text.toStr}"

namespace Formula

def read (t : Text) : Except UnknownConnective Formula :=
  match t with
  | '(' :: rest =>
    let keyword := firstOperand rest
    if keyword = notKeyword then
      (read (interior (keyword.length + 2) ('(' :: rest))).map (negation ('(' :: rest))
    else
      match Connective.ofKeyword? keyword with
      | none => .error ⟨keyword, '(' :: rest⟩
      | some op =>
        let operands := interior (keyword.length + 2) ('(' :: rest)
        let left := firstOperand operands
        let right := firstOperand (operands.drop (left.length + 1))
        match read left, read right with
        | .ok a, .ok b => .ok (compound ('(' :: rest) op a b)
        | .error e, _ => .error e
        | _, .error e => .error e
  | _ => .ok (atom t)
termination_by t.length
decreasing_by
  · exact length_interior_lt _ _ _
  · exact Nat.lt_of_le_of_lt (length_firstOperand_le _) (length_interior_lt _ _ _)
  · refine Nat.lt_of_le_of_lt (length_firstOperand_le _) (Nat.lt_of_le_of_lt ?_
      (length_interior_lt (firstOperand rest).length.succ.succ '(' rest))
    simp

end Formula

end TruthTree
