import TruthTree.Text.Basic

/-! Sentences of propositional logic, with their two written forms. The canonical form puts the
connective first, inside parentheses, with single spaces. The display form puts it between the
operands and parenthesises every operand that is not an atom. -/
namespace TruthTree

inductive Connective where
  | conjunction
  | disjunction
  | conditional
  | biconditional
  deriving DecidableEq

namespace Connective

def all : List Connective := [conjunction, disjunction, conditional, biconditional]

theorem mem_all (op : Connective) : op ∈ all := by
  cases op <;> simp [all]

def keyword : Connective → Text
  | conjunction => ['a', 'n', 'd']
  | disjunction => ['o', 'r']
  | conditional => ['i', 'f']
  | biconditional => ['i', 'f', 'f']

def symbol : Connective → Text
  | conjunction => ['^']
  | disjunction => ['v']
  | conditional => ['-', '>']
  | biconditional => ['<', '-', '>']

def name : Connective → String
  | conjunction => "AND"
  | disjunction => "OR"
  | conditional => "IF"
  | biconditional => "IFF"

def ofKeyword? (word : Text) : Option Connective := all.find? (·.keyword = word)

@[simp] theorem ofKeyword?_keyword (op : Connective) : ofKeyword? op.keyword = some op := by
  cases op <;> rfl

theorem keyword_of_ofKeyword? {word : Text} {op : Connective} (h : ofKeyword? word = some op) :
    op.keyword = word := by
  simpa using List.find?_some h

def combine : Connective → Bool → Bool → Bool
  | conjunction, p, q => p && q
  | disjunction, p, q => p || q
  | conditional, p, q => !p || q
  | biconditional, p, q => p == q

end Connective

def notKeyword : Text := ['n', 'o', 't']

inductive Sentence where
  | atom (name : Text)
  | negation (operand : Sentence)
  | compound (connective : Connective) (left right : Sentence)
  deriving DecidableEq

namespace Sentence

def isAtom : Sentence → Bool
  | atom _ => true
  | _ => false

def writtenNegation (t : Text) : Text := '(' :: notKeyword ++ ' ' :: t ++ [')']

def writtenCompound (op : Connective) (s t : Text) : Text :=
  '(' :: op.keyword ++ ' ' :: s ++ ' ' :: t ++ [')']

def written : Sentence → Text
  | atom name => name
  | negation a => writtenNegation a.written
  | compound op a b => writtenCompound op a.written b.written

def grouped (s : Sentence) (shown : Text) : Text :=
  if s.isAtom then shown else '(' :: shown ++ [')']

def display : Sentence → Text
  | atom name => name
  | negation a => '~' :: a.grouped a.display
  | compound op a b => a.grouped a.display ++ ' ' :: op.symbol ++ ' ' :: b.grouped b.display

def holds (valuation : Text → Bool) : Sentence → Bool
  | atom name => valuation name
  | negation a => !a.holds valuation
  | compound op a b => op.combine (a.holds valuation) (b.holds valuation)

end Sentence

end TruthTree
