import TruthTree.Diagram.Gallery
import TruthTree.Dialogue
import TruthTree.Session.Command
import TruthTree.Tableau.Narration
import TruthTree.Tableau.Outline
import TruthTree.Text.Integer

/-! Sessions: commands that build a tableau, look at it and save pictures of it. A command that needs
numbers takes them from its line, and asks for those that are missing or cannot be read. -/
namespace TruthTree

inductive Awaiting where
  | command
  /-- The number of the statement to expand. -/
  | target
  /-- The first number of a closure; the line may already hold a word for the second. -/
  | first (second : Option Text)
  /-- The second number of a closure. -/
  | second (first : Int)
  deriving DecidableEq

def Awaiting.prompt : Awaiting → String
  | command => "> "
  | target => "Enter the number of the statement to expand (-1 to cancel): "
  | first _ => "Enter the number of the first statement (-1 to cancel):  "
  | second _ => "Enter the number of the second statement (-1 to cancel): "

structure Session where
  tableau : Tableau
  gallery : Gallery
  /-- The format of its pictures; none if the run gave no text for it. -/
  format : Option Text
  awaiting : Awaiting

inductive SessionFault where
  | unreadable (e : UnknownConnective)
  | noFormat (e : FormatError)
  deriving DecidableEq

structure SessionEnd where
  session : Session
  fault : Option SessionFault

namespace Session

abbrev Reply := Turn Session SessionEnd

def await (s : Session) (awaiting : Awaiting) : Session := { s with awaiting := awaiting }

def ready (s : Session) (events : List Event) : Reply := ⟨events, .ask (s.await .command)⟩

def leave (s : Session) : Reply := ⟨[], .stop ⟨s, none⟩⟩

def broken (s : Session) (events : List Event) (fault : SessionFault) : Reply :=
  ⟨events, .stop ⟨s, some fault⟩⟩

/-- The number that calls an operation off. -/
def cancel : Int := -1

def refusalLines (operation : Operation) (reason : Refusal) : List Event :=
  let because := s!"Reason: {reason.reason}."
  match operation with
  | .expand _ => [
    .output "Unable to expand the specified statement.",
    .output because,
    .output "Try using the print command to double-check."]
  | .close _ _ => [
    .output "Unable to close any branches with the specified statements.",
    .output because,
    .output ("Use the print command to verify that the statements are in " ++
      "the same branch and one is the negation of the other.")]

def perform (s : Session) (operation : Operation) : Reply :=
  let (after, outcome) := s.tableau.perform operation
  let notices := Event.ofNotices (Tableau.operationNotices s.tableau after operation outcome)
  let session := { s with tableau := after }
  match outcome with
  | .accepted => session.ready notices
  | .refused reason => session.ready (notices ++ refusalLines operation reason)
  | .unreadable e => session.broken notices (.unreadable e)

def typed : Option Text → Except (List Event) Int
  | none => .error []
  | some word =>
    match Text.integer? word with
    | some n => .ok n
    | none => .error [.output s!"'{word.toStr}' is not a statement number."]

def expandWith (s : Session) (number : Int) : Reply :=
  if number = cancel then s.ready [] else s.perform (.expand number)

def closeWith (s : Session) (first second : Int) : Reply :=
  if second = cancel then s.ready [] else s.perform (.close first second)

def closeFrom (s : Session) (first : Int) (second : Option Text) : Reply :=
  if first = cancel then s.ready []
  else
    match typed second with
    | .ok n => s.closeWith first n
    | .error events => ⟨events, .ask (s.await (.second first))⟩

def statusMessage : Status → String
  | .closed => "Every branch is closed: the premises are inconsistent."
  | .stillOpen =>
    "The tree is complete with at least one open branch: the premises are consistent."
  | .incomplete => "The tree is not finished yet."

def render (s : Session) (name : Text) : Reply :=
  match s.gallery.save s.tableau name s.format with
  | .error e => s.broken [] (.noFormat e)
  | .ok saved =>
    let message := match saved.path with
      | none => "Rendering skipped; see the log for details."
      | some path => s!"Tree picture written to {path.toStr}"
    ready { s with gallery := saved.gallery }
      (Event.ofNotices saved.notices ++ [.output message])

def execute (s : Session) (command : Command) (arguments : List Text) : Reply :=
  let t := s.tableau
  match command with
  | .quit => s.leave
  | .help => s.ready (Command.helpLines.map .output)
  | .print => s.ready [.output Outline.legend, .output (Outline.render t).toStr]
  | .expand =>
    match typed arguments.head? with
    | .ok n => s.expandWith n
    | .error events => ⟨events, .ask (s.await .target)⟩
  | .close =>
    match typed arguments.head? with
    | .ok n => s.closeFrom n arguments[1]?
    | .error events => ⟨events, .ask (s.await (.first arguments[1]?))⟩
  | .done =>
    let message :=
      if t.isDone then "The tree appears to be complete."
      else "There are still some operations to be performed before the tree is done"
    s.ready [.notice t.doneNotice, .output message]
  | .status =>
    s.ready (Event.ofNotices (t.statusNotices ++ [.finalStatus t.status.name]) ++
      [.output (statusMessage t.status)])
  | .render => s.render (arguments.head?.getD "truth_tree".toList)

def invalid : Event := .output "Invalid input. Try again."

def receiveCommand (s : Session) (line : Text) : Reply :=
  match CommandLine.ofText? line with
  | none => s.ready [invalid]
  | some commandLine =>
    let logged := .notice (.debug s!"Session command: {commandLine.display}")
    match Command.ofWord? commandLine.word with
    | none => s.ready [logged, invalid]
    | some command => (s.execute command commandLine.arguments).after [logged]

def receiveNumber (s : Session) (line : Text) (use : Int → Reply) : Reply :=
  match Text.integer? line with
  | some n => use n
  | none => ⟨[.output "Please enter a whole number."], .ask s⟩

def receive (s : Session) (line : Text) : Reply :=
  match s.awaiting with
  | .command => s.receiveCommand line
  | .target => s.receiveNumber line s.expandWith
  | .first second => s.receiveNumber line fun n => s.closeFrom n second
  | .second first => s.receiveNumber line (s.closeWith first)

/-- When the input ends at a question for a number, the operation is called off and the session asks
for one more command in vain. -/
def finish (s : Session) : List Event × SessionEnd :=
  match s.awaiting with
  | .command => ([], ⟨s, none⟩)
  | _ => ([.prompt Awaiting.command.prompt], ⟨s.await .command, none⟩)

def dialogue : Dialogue Session SessionEnd where
  prompt s := s.awaiting.prompt
  receive := receive
  finish := finish

def start (tableau : Tableau) (gallery : Gallery) (format : Option Text) : Reply :=
  ⟨[.output ("Enter commands to build the truth tree. Type help for a list of commands " ++
    "and their descriptions")], .ask ⟨tableau, gallery, format, .command⟩⟩

end Session

end TruthTree
