import TruthTree.Formula.Reader

/-! One step of decomposition. New formulas are read from texts put together from the operands' texts,
so they are the same as premises written that way. The rules for the biconditional put one
conjunction on each side of the fork, to be decomposed in its turn. -/
namespace TruthTree

/-- What a formula decomposes into: nothing, one formula, two below one another on a branch, or two
on either side of a fork. -/
inductive Decomposition where
  | literal
  | single (f : Formula)
  | stacked (upper lower : Formula)
  | forked (left right : Formula)
  deriving DecidableEq

namespace Decomposition

def left? : Decomposition → Option Formula
  | literal => none
  | single f => some f
  | stacked f _ => some f
  | forked f _ => some f

def right? : Decomposition → Option Formula
  | literal => none
  | single _ => none
  | stacked _ g => some g
  | forked _ g => some g

end Decomposition

namespace Formula

def readNegation (t : Text) : Except UnknownConnective Formula := read (Sentence.writtenNegation t)

def readConjunction (s t : Text) : Except UnknownConnective Formula :=
  read (Sentence.writtenCompound .conjunction s t)

def halves (shape : Formula → Formula → Decomposition) :
    Except UnknownConnective Formula → Except UnknownConnective Formula →
      Except UnknownConnective Decomposition
  | .ok f, .ok g => .ok (shape f g)
  | .error e, _ => .error e
  | _, .error e => .error e

def decompose : Formula → Except UnknownConnective Decomposition
  | atom _ => .ok .literal
  | compound _ .conjunction a b => .ok (.stacked a b)
  | compound _ .disjunction a b => .ok (.forked a b)
  | compound _ .conditional a b => halves .forked (readNegation a.text) (.ok b)
  | compound _ .biconditional a b =>
    halves .forked (readConjunction a.text b.text)
      (readConjunction (Sentence.writtenNegation a.text) (Sentence.writtenNegation b.text))
  | negation _ (atom _) => .ok .literal
  | negation _ (negation _ a) => .ok (.single a)
  | negation _ (compound _ .conjunction a b) =>
    halves .forked (readNegation a.text) (readNegation b.text)
  | negation _ (compound _ .disjunction a b) =>
    halves .stacked (readNegation a.text) (readNegation b.text)
  | negation _ (compound _ .conditional a b) => halves .stacked (.ok a) (readNegation b.text)
  | negation _ (compound _ .biconditional a b) =>
    halves .forked (readConjunction a.text (Sentence.writtenNegation b.text))
      (readConjunction (Sentence.writtenNegation a.text) b.text)

end Formula

end TruthTree
