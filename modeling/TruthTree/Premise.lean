import TruthTree.Formula.Decomposition
import TruthTree.Notice
import TruthTree.Sentence.Grammar

/-! Premises as users write them. The plain reading takes the text as it stands; the strict reading
first brings it to the canonical text of the grammar. -/
namespace TruthTree

inductive PremiseError where
  | ungrammatical (e : GrammarError)
  | unknownConnective (e : UnknownConnective)
  deriving DecidableEq

def PremiseError.message : PremiseError → String
  | ungrammatical e => e.message
  | unknownConnective e => e.message

namespace Premise

def readPlain (t : Text) : Except PremiseError Formula := (Formula.read t).mapError .unknownConnective

def readStrict (t : Text) : Except PremiseError Formula :=
  match Sentence.normalize t with
  | .ok canonical => readPlain canonical
  | .error e => .error (.ungrammatical e)

def read (strict : Bool) (t : Text) : Except PremiseError Formula :=
  if strict then readStrict t else readPlain t

def readAll (strict : Bool) : List Text → Except PremiseError (List Formula)
  | [] => .ok []
  | t :: ts =>
    match read strict t with
    | .error e => .error e
    | .ok f => (readAll strict ts).map (f :: ·)

def illegalNotice (illegal : IllegalCharacter) : Notice :=
  .debug s!"Illegal character '{illegal.char}' at position {illegal.position}"

def normalizeNotices (t : Text) : List Notice :=
  .debug s!"Validating premise: {t.toStr}" ::
    match Sentence.normalize t with
    | .ok canonical => [.debug s!"Premise is well formed: {canonical.toStr}"]
    | .error (.illegal illegal) =>
      [illegalNotice illegal, .debug s!"Unexpected parsing error: {illegal.message}"]
    | .error _ => [.debug "Parse error encountered"]

def plainNotices (t : Text) : List Notice :=
  .debug s!"Parsing premise: {t.toStr}" ::
    match Formula.read t with
    | .ok f => [.debug s!"Premise parsed into {f.kindName} formula: {f.display.toStr}"]
    | .error _ => []

def notices (strict : Bool) (t : Text) : List Notice :=
  if strict then
    normalizeNotices t ++
      match Sentence.normalize t with
      | .ok canonical => plainNotices canonical
      | .error _ => []
  else plainNotices t

def allNotices (strict : Bool) : List Text → List Notice
  | [] => []
  | t :: ts =>
    notices strict t ++
      match read strict t with
      | .ok _ => allNotices strict ts
      | .error _ => []

end Premise

end TruthTree
