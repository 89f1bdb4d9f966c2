import TruthTree.Program

/-! The command-line program: it prints what the dialogue says, reads the lines it asks for, and looks
up the premise file. Pictures are not drawn here, so saving one is always skipped. -/
namespace TruthTree.Main

/-- Error numbers of the system come as they are or negated. -/
def isError (number code : UInt32) : Bool := code = number || code = 0 - number

def isDirectory : UInt32 := 21

def nameTooLong : UInt32 := 36

def lookUp (path : Path) : IO Found := do
  try
    let bytes ← IO.FS.readBinFile path.toText.toStr
    return .file bytes.toList
  catch e =>
    match e with
    | .noFileOrDirectory _ _ _ => return .missing
    | .inappropriateType _ code _ => return if isError isDirectory code then .directory else .missing
    | .invalidArgument _ code _ => return if isError nameTooLong code then .nameTooLong else .missing
    | e => throw e

def say (level : Level) (events : List Event) : IO Unit := do
  let output ← IO.getStdout
  output.putStr (Event.transcript level events)
  output.flush

def withoutLineEnd (line : String) : Text := ((Text.lines line.toList).head?).getD []

partial def converse (level : Level) (reply : Program.Reply) : IO UInt32 := do
  say level reply.events
  match reply.next with
  | .stop code => return code.toUInt32
  | .ask stage =>
    say level [.prompt (Program.prompt stage)]
    let line ← (← IO.getStdin).getLine
    if line.isEmpty then
      let (events, code) := Program.finish stage
      say level events
      return code.toUInt32
    else converse level (Program.receive stage (withoutLineEnd line))

def runWords (words : List Text) : IO UInt32 := do
  match Options.ofWords .later words with
  | .error e =>
    let r := Program.usageRun e
    IO.print r.output
    IO.eprint (r.errors.getD "")
    return r.exitCode.toUInt32
  | .ok options =>
    let found ← match options.premisesFile with
      | some (.text file) => lookUp (Path.ofText file)
      | _ => pure .missing
    let setup : Setup := ⟨options, ⟨none, .absent⟩⟩
    converse (Program.threshold options) (Program.start setup fun _ => found)

end TruthTree.Main

def main (args : List String) : IO UInt32 := TruthTree.Main.runWords (args.map String.toList)
