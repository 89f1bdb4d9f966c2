import TruthTree.Text.Integer

/-! The flags of the command line, and what each word of a command line is: a flag, perhaps with a value
of its own, or an operand. Two dashes alone make every word after them an operand. -/
namespace TruthTree

inductive Flag where
  | help
  | premisesFile
  | strict
  | verbose
  | debug
  | renderFormat
  deriving DecidableEq

namespace Flag

def spellings : List (String × Flag) := [
  ("-h", help), ("--help", help), ("-f", premisesFile), ("--premises-file", premisesFile),
  ("--strict", strict), ("-v", verbose), ("--verbose", verbose), ("--debug", debug),
  ("--render-format", renderFormat)]

def ofSpelling? (t : Text) : Option Flag :=
  (spellings.find? fun (spelling, _) => spelling.toList = t).map Prod.snd

def takesValue : Flag → Bool
  | premisesFile => true
  | renderFormat => true
  | _ => false

def fullName (flag : Flag) : String :=
  "/".intercalate ((spellings.filter fun (_, other) => other = flag).map Prod.fst)

end Flag

/-- A value in the same word as its flag, and whether an equals sign stands before it. -/
structure Attached where
  text : Text
  equals : Bool
  deriving DecidableEq

inductive Argument where
  | operand (word : Text)
  | separator
  | flag (flag : Flag) (spelling : Text) (value : Option Attached)
  /-- A word that looks like a flag and is none. -/
  | unknown (word : Text)
  deriving DecidableEq

/-- A word that could be more than one flag. -/
structure Ambiguity where
  word : Text
  candidates : List String
  deriving DecidableEq

namespace Argument

def word : Argument → Text
  | operand w => w
  | separator => ['-', '-']
  | flag _ spelling value => spelling ++ (value.map Attached.text).getD []
  | unknown w => w

def allDigits (t : Text) : Bool := !t.isEmpty && t.all fun c => (Text.digitValue? c).isSome

/-- A dash and a number, perhaps with a decimal point. A line end after it does not count. -/
def isNegativeNumber : Text → Bool
  | '-' :: rest =>
    let body := if rest.getLast? = some '\n' then rest.dropLast else rest
    let whole := body.takeWhile (· ≠ '.')
    allDigits body ||
      ((whole.isEmpty || allDigits whole) && allDigits (body.drop (whole.length + 1)))
  | _ => false

def cut (t : Text) : Text × Option Attached :=
  let name := t.takeWhile (· ≠ '=')
  if name.length < t.length then (name, some ⟨t.drop (name.length + 1), true⟩) else (name, none)

def abbreviated (t : Text) : List (String × Flag × Option Attached) :=
  let (name, value) := cut t
  (Flag.spellings.filter fun (spelling, _) => name.isPrefixOf spelling.toList).map
    fun (spelling, known) => (spelling, known, value)

def clustered (t : Text) : List (String × Flag × Option Attached) :=
  (Flag.spellings.filter fun (spelling, _) => spelling.toList = t.take 2).map
    fun (spelling, known) => (spelling, known, some ⟨t.drop 2, false⟩)

def ofDashed (t : Text) : Except Ambiguity Argument :=
  match if t.take 2 = ['-', '-'] then abbreviated t else clustered t with
  | [(spelling, known, value)] => .ok (flag known spelling.toList value)
  | [] => .ok (if isNegativeNumber t || t.contains ' ' then operand t else unknown t)
  | candidates => .error ⟨t, candidates.map Prod.fst⟩

def ofWord (t : Text) : Except Ambiguity Argument :=
  if t.head? ≠ some '-' then .ok (operand t)
  else
    match Flag.ofSpelling? t with
    | some known => .ok (flag known t none)
    | none =>
      if t = ['-'] then .ok (operand t)
      else
        match cut t with
        | (name, some value) =>
          match Flag.ofSpelling? name with
          | some known => .ok (flag known name (some value))
          | none => ofDashed t
        | (_, none) => ofDashed t

def ofWords : List Text → Except Ambiguity (List Argument)
  | [] => .ok []
  | t :: rest =>
    if t = ['-', '-'] then .ok (separator :: rest.map operand)
    else
      match ofWord t with
      | .error e => .error e
      | .ok a => (ofWords rest).map (a :: ·)

end Argument

end TruthTree
