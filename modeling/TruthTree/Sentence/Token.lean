import TruthTree.Sentence.Basic

/-! Tokens of written sentences. A token is a single parenthesis or a maximal run of letters, digits,
underscores and primes. Spaces, tabs and line ends stand between tokens, and any other character
stops the scan. -/
namespace TruthTree

inductive TokenKind where
  | opening
  | closing
  | negation
  | connective (op : Connective)
  | atom
  deriving DecidableEq

namespace TokenKind

def name : TokenKind → String
  | opening => "LPAREN"
  | closing => "RPAREN"
  | negation => "NOT"
  | connective op => op.name
  | atom => "ATOM"

/-- A run of token characters is a keyword only as a whole. -/
def ofWord (word : Text) : TokenKind :=
  if word = notKeyword then negation
  else match Connective.ofKeyword? word with
    | some op => connective op
    | none => atom

theorem ofWord_cases (word : Text) :
    word = notKeyword ∧ ofWord word = negation ∨
      (∃ op : Connective, word = op.keyword ∧ ofWord word = connective op) ∨
      word ≠ notKeyword ∧ (∀ op : Connective, word ≠ op.keyword) ∧ ofWord word = atom := by
  unfold ofWord
  split
  · next same => exact .inl ⟨same, rfl⟩
  · next different =>
      cases known : Connective.ofKeyword? word with
      | some op => exact .inr (.inl ⟨op, (Connective.keyword_of_ofKeyword? known).symm, rfl⟩)
      | none =>
          refine .inr (.inr ⟨different, ?_, rfl⟩)
          rintro op rfl
          simp at known

end TokenKind

structure Token where
  kind : TokenKind
  value : Text
  start : Nat
  deriving DecidableEq

def Token.stop (token : Token) : Nat := token.start + token.value.length

structure IllegalCharacter where
  char : Char
  position : Nat
  deriving DecidableEq

def IllegalCharacter.message (illegal : IllegalCharacter) : String :=
  s!"Illegal character '{illegal.char}' encountered at position {illegal.position}"

def isSpacing (c : Char) : Bool := c = ' ' || c = '\t' || c = '\r' || c = '\n'

def isAtomChar (c : Char) : Bool := c.isAlphanum || c = '_' || c = '\''

/-- The tokens of a text up to its end, or up to the first character that belongs to no token. -/
structure Scan where
  tokens : List Token
  illegal : Option IllegalCharacter
  deriving DecidableEq

namespace Scan

def cons (token : Token) (scan : Scan) : Scan := { scan with tokens := token :: scan.tokens }

@[simp] theorem tokens_cons (token : Token) (scan : Scan) :
    (scan.cons token).tokens = token :: scan.tokens := rfl

@[simp] theorem illegal_cons (token : Token) (scan : Scan) :
    (scan.cons token).illegal = scan.illegal := rfl

def fromPosition (position : Nat) : Text → Scan
  | [] => ⟨[], none⟩
  | c :: rest =>
    if isSpacing c then fromPosition (position + 1) rest
    else if c = '(' then cons ⟨.opening, [c], position⟩ (fromPosition (position + 1) rest)
    else if c = ')' then cons ⟨.closing, [c], position⟩ (fromPosition (position + 1) rest)
    else if isAtomChar c then
      let word := c :: rest.takeWhile isAtomChar
      cons ⟨.ofWord word, word, position⟩
        (fromPosition (position + word.length) (rest.dropWhile isAtomChar))
    else ⟨[], some ⟨c, position⟩⟩
termination_by t => t.length
decreasing_by
  · exact Nat.lt_succ_self _
  · exact Nat.lt_succ_self _
  · exact Nat.lt_succ_self _
  · exact Nat.lt_succ_of_le (List.dropWhile_sublist _).length_le

def ofText (t : Text) : Scan := fromPosition 0 t

end Scan

end TruthTree
