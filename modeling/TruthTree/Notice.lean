import TruthTree.Text.Basic

/-! Notices: what the program says about its own work. Each has a level, and a notice shows when its
level is at least the threshold in force. From `info` up the message shows alone; below that it shows
after the name of its level. -/
namespace TruthTree

abbrev Level := Int

namespace Level

def debug : Level := 10

def info : Level := 20

def warning : Level := 30

def error : Level := 40

def name (level : Level) : String :=
  if level = debug then "DEBUG" else s!"Level {level}"

def ofSwitches (verbose debugging : Bool) : Level :=
  if debugging then debug else if verbose then info else warning

end Level

structure Notice where
  level : Level
  message : String
  deriving DecidableEq

namespace Notice

def debug (message : String) : Notice := ⟨.debug, message⟩

def info (message : String) : Notice := ⟨.info, message⟩

def warning (message : String) : Notice := ⟨.warning, message⟩

def error (message : String) : Notice := ⟨.error, message⟩

def line (notice : Notice) : String :=
  if Level.info ≤ notice.level then notice.message
  else s!"[{Level.name notice.level}] {notice.message}"

def shows (threshold : Level) (notice : Notice) : Bool := threshold ≤ notice.level

def linesAt (threshold : Level) (notices : List Notice) : List String :=
  (notices.filter (shows threshold)).map line

def treeStarted (premises : List Text) : List Notice :=
  debug "=== Starting Truth Tree ===" ::
    premises.mapIdx fun index premise => debug s!"Premise {index + 1}: {premise.toStr}"

def expanded (number : Int) (formula : Text) (added : List Int) : Notice :=
  let shown :=
    if added.isEmpty then "none (branch closed)"
    else ", ".intercalate (added.map toString)
  debug s!"    🌱 Expanded [{number}] {formula.toStr} → added nodes: {shown}"

def branchClosed (number partner count : Int) : Notice :=
  debug s!"    ❌ Closed branch at [{number}] against [{partner}] ({count} nodes closed)"

def rejected (operation reason : String) : Notice :=
  debug s!"    💥 {operation} rejected: {reason}"

def finalStatus (status : String) : Notice := info s!"\n>>> TREE STATUS: {status} <<<"

end Notice

end TruthTree
