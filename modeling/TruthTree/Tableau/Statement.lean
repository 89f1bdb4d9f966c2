import TruthTree.Formula.Basic

/-! Statements: formulas placed in a truth tree. A statement has a number, is closed or open, has been
expanded or not, and remembers the fork that its branch split from last. -/
namespace TruthTree

inductive Side where
  | left
  | right
  deriving DecidableEq

def Side.letter : Side → Char
  | left => 'l'
  | right => 'r'

structure Split where
  origin : Nat
  side : Side
  deriving DecidableEq

/-- How many forks stand above a statement, and the nearest of them. -/
structure Lineage where
  depth : Nat
  split : Option Split
  deriving DecidableEq

namespace Lineage

def trunk : Lineage := ⟨0, none⟩

def fork (lineage : Lineage) (origin : Nat) (side : Side) : Lineage :=
  ⟨lineage.depth + 1, some ⟨origin, side⟩⟩

end Lineage

structure Statement where
  number : Nat
  formula : Formula
  lineage : Lineage
  closed : Bool
  expanded : Bool
  deriving DecidableEq

namespace Statement

def fresh (number : Nat) (formula : Formula) (lineage : Lineage) : Statement :=
  ⟨number, formula, lineage, false, false⟩

def follow (s : Statement) (number : Nat) (formula : Formula) : Statement :=
  fresh number formula s.lineage

def branchOff (s : Statement) (side : Side) (number : Nat) (formula : Formula) : Statement :=
  fresh number formula (s.lineage.fork s.number side)

def close (s : Statement) : Statement := { s with closed := true }

def expand (s : Statement) : Statement := { s with expanded := true }

def closeIf (s : Statement) (condition : Bool) : Statement := if condition then s.close else s

def isPending (s : Statement) : Bool := !s.closed && s.formula.canExpand && !s.expanded

def display (s : Statement) : Text :=
  '[' :: Text.ofNat s.number ++ ']' :: ' ' :: s.formula.display

end Statement

end TruthTree
