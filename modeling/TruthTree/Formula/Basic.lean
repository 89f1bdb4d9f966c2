import TruthTree.Sentence.Basic

/-! Formulas: sentences whose every part keeps the exact text it was read from. Two formulas count as
the same when their texts are the same. -/
namespace TruthTree

inductive Formula where
  | atom (text : Text)
  | negation (text : Text) (operand : Formula)
  | compound (text : Text) (connective : Connective) (left right : Formula)
  deriving DecidableEq

namespace Formula

def text : Formula → Text
  | atom t => t
  | negation t _ => t
  | compound t _ _ _ => t

def sentence : Formula → Sentence
  | atom t => .atom t
  | negation _ a => .negation a.sentence
  | compound _ op a b => .compound op a.sentence b.sentence

def display (f : Formula) : Text := f.sentence.display

def holds (valuation : Text → Bool) (f : Formula) : Bool := f.sentence.holds valuation

/-- The formula of a sentence, each part with its canonical text. -/
def ofSentence : Sentence → Formula
  | .atom name => atom name
  | .negation a => negation (Sentence.negation a).written (ofSentence a)
  | .compound op a b => compound (Sentence.compound op a b).written op (ofSentence a) (ofSentence b)

def kindName : Formula → String
  | atom _ => "ATOM"
  | negation _ _ => "NOT"
  | compound _ op _ _ => op.name

/-- The text of the first operand; an atom is its own. -/
def leftOperand : Formula → Text
  | atom t => t
  | negation _ a => a.text
  | compound _ _ a _ => a.text

def rightOperand? : Formula → Option Text
  | compound _ _ _ b => some b.text
  | _ => none

/-- The formula and all its parts, each before its own parts, with their depths below `depth`. -/
def parts (depth : Nat) : Formula → List (Nat × Formula)
  | atom t => [(depth, atom t)]
  | negation t a => (depth, negation t a) :: a.parts (depth + 1)
  | compound t op a b =>
    (depth, compound t op a b) :: a.parts (depth + 1) ++ b.parts (depth + 1)

def isAtom : Formula → Bool
  | atom _ => true
  | _ => false

def isNegation : Formula → Bool
  | negation _ _ => true
  | _ => false

def branches : Formula → Bool
  | compound _ .conjunction _ _ => false
  | compound _ _ _ _ => true
  | negation _ (compound _ .conjunction _ _) => true
  | negation _ (compound _ .biconditional _ _) => true
  | _ => false

/-- Only atoms and negated atoms have no decomposition. -/
def canExpand : Formula → Bool
  | atom _ => false
  | negation _ a => !a.isAtom
  | compound _ _ _ _ => true

def negates (candidate f : Formula) : Bool :=
  match candidate with
  | negation _ a => a.text = f.text
  | _ => false

def contradicts (f g : Formula) : Bool := f.negates g || g.negates f

end Formula

end TruthTree
