import TruthTree.Text.LowerCase
import TruthTree.Text.Quoted

/-! Command lines of a session: a command word in any case, then its arguments. -/
namespace TruthTree

inductive Command where
  | help
  | print
  | quit
  | expand
  | close
  | done
  | status
  | render
  deriving DecidableEq

namespace Command

def all : List Command := [help, print, quit, expand, close, done, status, render]

def word : Command → String
  | help => "help"
  | print => "print"
  | quit => "quit"
  | expand => "expand"
  | close => "close"
  | done => "done"
  | status => "status"
  | render => "render"

def ofWord? (lowered : Text) : Option Command := all.find? fun command => command.word.toList = lowered

def helpLines : List String := [
  "help - Show this list of commands and descriptions",
  "print - Display the truth tree's current state",
  "quit - Exit the program",
  "expand [n] - Try to expand a statement of the truth tree (you'll be " ++
    "prompted for its number if you leave it out)",
  "close [n1 n2] - Try to close a branch by specifying a statement and its negation",
  "done - Validate that the truth tree has been completed (this will not quit the program)",
  "status - Report whether the tree is closed, open or still incomplete",
  "render [name] - Save a Graphviz picture of the tree"]

end Command

/-- A line with at least one word: the first in lower case, and the others as they are. -/
structure CommandLine where
  word : Text
  arguments : List Text
  deriving DecidableEq

namespace CommandLine

def ofText? (line : Text) : Option CommandLine :=
  match Text.words line with
  | [] => none
  | first :: rest => some ⟨Text.lower first, rest⟩

def display (line : CommandLine) : String :=
  s!"{line.word.toStr} {(Text.quotedList line.arguments).toStr}"

end CommandLine

end TruthTree
