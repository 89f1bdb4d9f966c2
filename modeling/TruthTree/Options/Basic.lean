import TruthTree.Options.Argument
import TruthTree.Text.Quoted

/-! The options of a run, from the words of its command line. Flags apply in order, so the last of
several values stands. The premises are one unbroken group of operands; operands after it and words
that look like flags are reported together. The rules for some words have been changed once, so they
come in two editions. -/
namespace TruthTree

/-- The later edition takes an equals sign inside a word for the start of a value, reports a letter that
is no flag with the words that fit nowhere, and has no separator where a value stands. -/
inductive Edition where
  | earlier
  | later
  deriving DecidableEq

/-- What a flag was given. In the earlier edition two dashes alone are the separator even where a value
stands, so they leave the flag with no text. -/
inductive FlagValue where
  | text (t : Text)
  | nothing
  deriving DecidableEq

namespace FlagValue

def ofText (edition : Edition) (t : Text) : FlagValue :=
  if edition = .earlier && t = ['-', '-'] then nothing else text t

def text? : FlagValue → Option Text
  | text t => some t
  | nothing => none

end FlagValue

structure Options where
  premisesFile : Option FlagValue
  premises : List Text
  strict : Bool
  verbose : Bool
  debug : Bool
  renderFormat : FlagValue
  deriving DecidableEq

inductive UsageError where
  | ambiguous (e : Ambiguity)
  | missingValue (flag : Flag)
  | extraValue (flag : Flag) (value : Text)
  | unrecognized (words : List Text)
  deriving DecidableEq

def UsageError.message : UsageError → String
  | ambiguous e =>
    let candidates := ", ".intercalate e.candidates
    s!"ambiguous option: {e.word.toStr} could match {candidates}"
  | missingValue flag => s!"argument {flag.fullName}: expected one argument"
  | extraValue flag value =>
    s!"argument {flag.fullName}: ignored explicit argument {(Text.quoted value).toStr}"
  | unrecognized words => "unrecognized arguments: " ++ (Text.joined [' '] words).toStr

inductive UsageEnd where
  | help
  | misuse (e : UsageError)
  deriving DecidableEq

structure Setting where
  flag : Flag
  value : Option Text
  deriving DecidableEq

namespace Options

def initial : Options := ⟨none, [], false, false, false, .text "png".toList⟩

def apply (edition : Edition) (o : Options) (setting : Setting) : Except UsageEnd Options :=
  match setting.flag with
  | .help => .error .help
  | .premisesFile => .ok { o with premisesFile := setting.value.map (.ofText edition) }
  | .strict => .ok { o with strict := true }
  | .verbose => .ok { o with verbose := true }
  | .debug => .ok { o with debug := true }
  | .renderFormat =>
    .ok { o with renderFormat := (setting.value.map (.ofText edition)).getD o.renderFormat }

def applyAll (edition : Edition) (o : Options) : List Setting → Except UsageEnd Options
  | [] => .ok o
  | setting :: rest =>
    match o.apply edition setting with
    | .error e => .error e
    | .ok next => next.applyAll edition rest

/-- The flags that one word sets, the last of which may still want a value from the next word, and what
of the word fits nowhere. -/
structure Cluster where
  settings : List Setting
  wanting : Option Flag
  leftover : List Text
  deriving DecidableEq

/-- Reads the letters after a one-letter flag: they are its value if it takes one, and otherwise the
first of them is the next flag. -/
def letters (edition : Edition) (flag : Flag) : Text → Except UsageError Cluster
  | [] => .ok (if flag.takesValue then ⟨[], some flag, []⟩ else ⟨[⟨flag, none⟩], none, []⟩)
  | c :: rest =>
    let signed := edition = .later && c = '='
    if flag.takesValue then .ok ⟨[⟨flag, some (if signed then rest else c :: rest)⟩], none, []⟩
    else if signed then .error (.extraValue flag rest)
    else
      match Flag.ofSpelling? ['-', c] with
      | none =>
        if edition = .later && c ≠ '-' then .ok ⟨[⟨flag, none⟩], none, ['-' :: c :: rest]⟩
        else .error (.extraValue flag (c :: rest))
      | some next =>
        (letters edition next rest).map fun cluster =>
          { cluster with settings := ⟨flag, none⟩ :: cluster.settings }

def cluster (edition : Edition) (flag : Flag) (spelling : Text) :
    Option Attached → Except UsageError Cluster
  | none => letters edition flag []
  | some value =>
    let long := spelling.take 2 = ['-', '-']
    if flag.takesValue then .ok ⟨[⟨flag, some value.text⟩], none, []⟩
    else if value.text.isEmpty || long || edition = .later && value.equals then
      .error (.extraValue flag value.text)
    else letters edition flag value.text

def isOperand : Argument → Bool
  | .operand _ => true
  | .separator => true
  | _ => false

/-- The options so far, whether the premises have been seen, and the words that fit nowhere. -/
structure Progress where
  options : Options
  seenPremises : Bool
  leftover : List Text
  deriving DecidableEq

namespace Progress

def set (edition : Edition) (p : Progress) (settings : List Setting) : Except UsageEnd Progress :=
  (p.options.applyAll edition settings).map fun o => { p with options := o }

def leave (p : Progress) (words : List Text) : Progress := { p with leftover := p.leftover ++ words }

/-- The first group of operands are the premises, without the separator. -/
def group (p : Progress) (operands : List Argument) : Progress :=
  if p.seenPremises then p.leave (operands.map Argument.word)
  else
    let kept := operands.filter fun a => a ≠ .separator
    { p with options := { p.options with premises := kept.map Argument.word }, seenPremises := true }

end Progress

def process (edition : Edition) (p : Progress) : List Argument → Except UsageEnd Progress
  | [] => .ok p
  | .flag flag spelling value :: rest =>
    match cluster edition flag spelling value with
    | .error e => .error (.misuse e)
    | .ok cluster =>
      match cluster.wanting, rest with
      | none, rest =>
        match (p.leave cluster.leftover).set edition cluster.settings with
        | .error e => .error e
        | .ok next => process edition next rest
      | some wanting, .operand word :: rest =>
        match (p.leave cluster.leftover).set edition (cluster.settings ++ [⟨wanting, some word⟩]) with
        | .error e => .error e
        | .ok next => process edition next rest
      | some wanting, _ => .error (.misuse (.missingValue wanting))
  | .unknown word :: rest => process edition (p.leave [word]) rest
  | a :: rest =>
    process edition (p.group (a :: rest.takeWhile isOperand)) (rest.dropWhile isOperand)
termination_by arguments => arguments.length
decreasing_by
  · exact Nat.lt_succ_self _
  · exact Nat.lt_of_lt_of_le (Nat.lt_succ_self _) (Nat.le_succ _)
  · exact Nat.lt_succ_self _
  · exact Nat.lt_succ_of_le (List.dropWhile_sublist _).length_le

def ofWords (edition : Edition) (words : List Text) : Except UsageEnd Options :=
  match Argument.ofWords words with
  | .error e => .error (.misuse (.ambiguous e))
  | .ok arguments =>
    match process edition ⟨initial, false, []⟩ arguments with
    | .error e => .error e
    | .ok p => if p.leftover.isEmpty then .ok p.options else .error (.misuse (.unrecognized p.leftover))

end Options

end TruthTree
