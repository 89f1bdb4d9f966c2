import TruthTree.Notice
import TruthTree.Text.Quoted
import TruthTree.Text.Utf8

/-! Premise files: one premise a line. Blanks around a premise do not count, and neither do blank lines
and lines that start with a number sign. A path is kept as its root and its parts: repeated and trailing
slashes and parts that are a single dot do not count, and exactly two slashes at the start stay two. -/
namespace TruthTree

structure Path where
  root : Text
  parts : List Text
  deriving DecidableEq

namespace Path

/-- The pieces between the slashes of a text whose first piece starts with `start`, in reverse. -/
def piecesFrom (start : Text) : Text → List Text
  | [] => [start.reverse]
  | c :: rest => if c = '/' then start.reverse :: piecesFrom [] rest else piecesFrom (c :: start) rest

def rootOf (t : Text) : Text :=
  match (t.takeWhile (· = '/')).length with
  | 0 => []
  | 2 => ['/', '/']
  | _ => ['/']

def ofText (t : Text) : Path :=
  ⟨rootOf t, (piecesFrom [] t).filter fun piece => piece ≠ [] && piece ≠ ['.']⟩

def toText (p : Path) : Text :=
  if p.root.isEmpty && p.parts.isEmpty then ['.'] else p.root ++ Text.joined ['/'] p.parts

end Path

/-- What a path leads to. -/
inductive Found where
  | missing
  | nameTooLong
  | directory
  | file (bytes : List UInt8)
  deriving DecidableEq

/-- Why a file gave no premises. `shown` is the path as the user gave it. -/
inductive PremiseFileError where
  | notFound (shown : Text)
  | isDirectory (path : Path)
  | nameTooLong (path : Path)
  | undecodable (fault : Text.ByteFault)
  | noPremises (shown : Text)
  deriving DecidableEq

def PremiseFileError.message : PremiseFileError → String
  | notFound shown => s!"Premise file not found: {shown.toStr}"
  | isDirectory path =>
    s!"Error reading premise file: [Errno 21] Is a directory: {(Text.quoted path.toText).toStr}"
  | nameTooLong path => s!"[Errno 36] File name too long: {(Text.quoted path.toText).toStr}"
  | undecodable fault => fault.message
  | noPremises shown => s!"No premises found in: {shown.toStr}"

namespace PremiseFile

def premise? (line : Text) : Option Text :=
  match Text.trim line with
  | [] => none
  | '#' :: _ => none
  | premise => some premise

def numbered (t : Text) : List (Nat × Text) :=
  ((Text.lines t).zipIdx 1).filterMap fun (line, number) => (premise? line).map (number, ·)

def premises (t : Text) : List Text := (numbered t).map Prod.snd

def read (shown : Text) (found : Found) : Except PremiseFileError (List Text) :=
  match found with
  | .missing => .error (.notFound shown)
  | .nameTooLong => .error (.nameTooLong (.ofText shown))
  | .directory => .error (.isDirectory (.ofText shown))
  | .file bytes =>
    match Text.decode bytes with
    | .error fault => .error (.undecodable fault)
    | .ok t => if (premises t).isEmpty then .error (.noPremises shown) else .ok (premises t)

def notices (shown : Text) (found : Found) : List Notice :=
  let opening : Notice := .debug s!"Reading premise file: {shown.toStr}"
  match found with
  | .missing => []
  | .nameTooLong => []
  | .directory => [opening]
  | .file bytes =>
    match Text.decode bytes with
    | .error _ => [opening]
    | .ok t =>
      opening :: (numbered t).mapIdx fun index (number, premise) =>
        .debug s!"Read premise {index + 1} from line {number}: {premise.toStr}"

end PremiseFile

end TruthTree
