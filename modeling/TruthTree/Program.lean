import TruthTree.Files.PremiseFile
import TruthTree.Options.Basic
import TruthTree.Options.Usage
import TruthTree.PremiseEntry
import TruthTree.Session.Basic

/-! The whole program. The command line names premises and perhaps a file of them; without either they
are entered at the keyboard. A session over their tableau follows. Each kind of failure has a message
and an exit code of its own. -/
namespace TruthTree

abbrev ExitCode := Nat

inductive ProgramFailure where
  | premise (e : PremiseError)
  | file (e : PremiseFileError)
  | interrupted
  | noInput
  | noFileName
  | format (e : FormatError)
  | emptyTree
  deriving DecidableEq

namespace ProgramFailure

def exitCode : ProgramFailure → ExitCode
  | premise _ => 2
  | file (.undecodable _) => 5
  | file _ => 3
  | interrupted => 4
  | noInput => 4
  | noFileName => 5
  | format _ => 5
  | emptyTree => 5

def message : ProgramFailure → String
  | premise e => s!"Premise parsing error: {e.message}"
  | file (.undecodable fault) => s!"Unexpected error: {fault.message}"
  | file e => s!"Premise file error: {e.message}"
  | interrupted => "Session interrupted by user"
  | noInput => "Input ended before any premise was entered"
  | noFileName => "Unexpected error: expected str, bytes or os.PathLike object, not list"
  | format e => s!"Unexpected error: {e.message}"
  | emptyTree => s!"Unexpected error: {BuildError.noPremise.message}"

def notice (failure : ProgramFailure) : Event := .notice (.error failure.message)

def ofBuild : BuildError → ProgramFailure
  | .noPremise => emptyTree
  | .unreadable e => premise e

def ofSession : SessionFault → ProgramFailure
  | .unreadable e => premise (.unknownConnective e)
  | .noFormat e => format e

end ProgramFailure

structure Setup where
  options : Options
  gallery : Gallery

inductive Stage where
  | entry (setup : Setup) (entry : PremiseEntry)
  | session (session : Session)

namespace Program

abbrev Reply := Turn Stage ExitCode

def fail {State : Type} (failure : ProgramFailure) : Turn State ExitCode :=
  ⟨[failure.notice], .stop failure.exitCode⟩

def sessionExit (ended : SessionEnd) : List Event × ExitCode :=
  match ended.fault with
  | none => ([], 0)
  | some fault =>
    let failure := ProgramFailure.ofSession fault
    ([failure.notice], failure.exitCode)

def ofSession (reply : Session.Reply) : Turn Session ExitCode :=
  match reply.next with
  | .ask session => ⟨reply.events, .ask session⟩
  | .stop ended =>
    let (events, code) := sessionExit ended
    ⟨reply.events ++ events, .stop code⟩

def finishSession (session : Session) : List Event × ExitCode :=
  let (events, ended) := session.finish
  let (last, code) := sessionExit ended
  (events ++ last, code)

def build (setup : Setup) (premises : List Text) : Turn Session ExitCode :=
  let strict := setup.options.strict
  let reading := Event.ofNotices (Tableau.ofTextsNotices strict premises)
  match Tableau.ofTexts strict premises with
  | .error e => (fail (.ofBuild e)).after reading
  | .ok tableau =>
    let loaded := .notice (.info s!"📋 Loaded {premises.length} premise(s)")
    (ofSession (Session.start tableau setup.gallery setup.options.renderFormat.text?)).after
      (reading ++ [loaded])

def afterEntry (setup : Setup) : PremiseEntry.Entered → Turn Session ExitCode
  | none => fail .noInput
  | some premises => build setup premises

def ofEntry (setup : Setup) (turn : Turn PremiseEntry PremiseEntry.Entered) : Reply :=
  match turn.next with
  | .ask entry => ⟨turn.events, .ask (.entry setup entry)⟩
  | .stop entered => ((afterEntry setup entered).mapState .session).after turn.events

def gather (setup : Setup) (fromFile : List Text) : Reply :=
  let premises := fromFile ++ setup.options.premises
  if premises.isEmpty then ofEntry setup (PremiseEntry.start setup.options.strict)
  else (build setup premises).mapState .session

def shownFile (file : Text) : Text := (Path.ofText file).toText

def start (setup : Setup) (found : Path → Found) : Reply :=
  let banner := .output "Truth Tree Interface\n"
  match setup.options.premisesFile with
  | none => (gather setup []).after [banner]
  | some .nothing => (fail .noFileName).after [banner]
  | some (.text file) =>
    let shown := shownFile file
    let source := found (Path.ofText file)
    let reading := banner :: Event.ofNotices (PremiseFile.notices shown source)
    match PremiseFile.read shown source with
    | .error e => (fail (.file e)).after reading
    | .ok premises => (gather setup premises).after reading

def prompt : Stage → String
  | .entry _ entry => entry.prompt
  | .session session => session.awaiting.prompt

def receive (stage : Stage) (line : Text) : Reply :=
  match stage with
  | .entry setup entry => ofEntry setup (entry.receive line)
  | .session session => (ofSession (session.receive line)).mapState .session

/-- When the input ends while premises are entered, a session that starts then asks once in vain. -/
def finish : Stage → List Event × ExitCode
  | .session session => finishSession session
  | .entry setup entry =>
    let (events, entered) := entry.finish
    let turn := (afterEntry setup entered).after events
    match turn.next with
    | .stop code => (turn.events, code)
    | .ask session =>
      let (last, code) := finishSession session
      (turn.events ++ .prompt session.awaiting.prompt :: last, code)

def dialogue : Dialogue Stage ExitCode where
  prompt := prompt
  receive := receive
  finish := finish

end Program

structure ProgramRun where
  exitCode : ExitCode
  output : String
  errors : Option String
  deriving DecidableEq

namespace Program

def usageRun : UsageEnd → ProgramRun
  | .help => ⟨0, Usage.help, some ""⟩
  | .misuse e => ⟨2, "", some (Usage.usage ++ s!"{Usage.programName}: error: {e.message}\n")⟩

def threshold (options : Options) : Level := .ofSwitches options.verbose options.debug

/-- The folder for pictures, by what its path leads to. Anything of that name will do. -/
def folderAt : Found → Folder
  | .missing => .absent
  | _ => .present

def run (edition : Edition) (words : List Text) (found : Path → Found) (graphics : Option Graphics)
    (input : List Text) (ending : Ending) : ProgramRun :=
  match Options.ofWords edition words with
  | .error e => usageRun e
  | .ok options =>
    let folder := folderAt (found (.ofText Gallery.folderName.toList))
    let setup : Setup := ⟨options, ⟨graphics, folder⟩⟩
    let r := dialogue.runFrom ending (start setup found) input
    let (events, code) := match r.result with
      | some code => (r.events, code)
      | none =>
        (r.events ++ [ProgramFailure.interrupted.notice], ProgramFailure.interrupted.exitCode)
    ⟨code, Event.transcript (threshold options) events, none⟩

end Program

end TruthTree
