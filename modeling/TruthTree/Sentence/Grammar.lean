import TruthTree.Sentence.Token

/-! The strict grammar: a sentence is an atom, a parenthesised negation, or a parenthesised compound of
two sentences. The reader takes one token at a time and keeps the sentences that have been opened and
not yet completed, so the first token that cannot continue a sentence is the one it reports. -/
namespace TruthTree

inductive Pending where
  | negation
  | left (op : Connective)
  | right (op : Connective) (left : Sentence)
  deriving DecidableEq

/-- What has been read so far, by what must come next. The innermost opened sentence comes first. -/
inductive Reading where
  | operand (opened : List Pending)
  | keyword (opened : List Pending)
  | closing (done : Sentence) (opened : List Pending)
  | complete (done : Sentence)
  deriving DecidableEq

namespace Reading

def supply (done : Sentence) : List Pending → Reading
  | [] => complete done
  | .negation :: opened => closing (.negation done) opened
  | .left op :: opened => operand (.right op done :: opened)
  | .right op left :: opened => closing (.compound op left done) opened

def step (reading : Reading) (token : Token) : Option Reading :=
  match reading, token.kind with
  | operand opened, .atom => some (supply (.atom token.value) opened)
  | operand opened, .opening => some (keyword opened)
  | keyword opened, .negation => some (operand (.negation :: opened))
  | keyword opened, .connective op => some (operand (.left op :: opened))
  | closing done opened, .closing => some (supply done opened)
  | _, _ => none

end Reading

inductive GrammarError where
  | illegal (character : IllegalCharacter)
  | unexpected (token : Token)
  | unexpectedEnd
  deriving DecidableEq

def GrammarError.message : GrammarError → String
  | illegal character => s!"Parse failed: {character.message}"
  | unexpected token =>
    let value := token.value.toStr
    s!"Syntax error near '{value}' (type: {token.kind.name}) at line 1, position {token.start}"
  | unexpectedEnd => "Syntax error: Unexpected end of premise"

namespace Sentence

/-- Reads on from `reading`; after the tokens the scan ended or met an illegal character. -/
def readTokens (illegal : Option IllegalCharacter) :
    Reading → List Token → Except GrammarError Sentence
  | reading, token :: tokens =>
    match reading.step token with
    | some next => readTokens illegal next tokens
    | none => .error (.unexpected token)
  | reading, [] =>
    match illegal, reading with
    | some character, _ => .error (.illegal character)
    | none, .complete done => .ok done
    | none, _ => .error .unexpectedEnd

def read (t : Text) : Except GrammarError Sentence :=
  readTokens (Scan.ofText t).illegal (.operand []) (Scan.ofText t).tokens

def normalize (t : Text) : Except GrammarError Text := (read t).map written

def symbols : Sentence → List (TokenKind × Text)
  | atom name => [(.atom, name)]
  | negation a => (.opening, ['(']) :: (.negation, notKeyword) :: a.symbols ++ [(.closing, [')'])]
  | compound op a b =>
    (.opening, ['(']) :: (.connective op, op.keyword) :: a.symbols ++ b.symbols ++
      [(.closing, [')'])]

end Sentence

end TruthTree
