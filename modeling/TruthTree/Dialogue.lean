import TruthTree.Notice

/-! Dialogues: a state asks for a line of input, and the answer leads to events and to another question
or to an end. Run over a list of answers, a dialogue always comes to an end. -/
namespace TruthTree

inductive Event where
  | prompt (text : String)
  | output (text : String)
  | notice (notice : Notice)
  deriving DecidableEq

namespace Event

def ofNotices (notices : List Notice) : List Event := notices.map notice

/-- What an event puts on the screen. A prompt leaves the cursor on its line. -/
def shown (threshold : Level) : Event → String
  | prompt text => text
  | output text => text ++ "\n"
  | notice n => if n.shows threshold then n.line ++ "\n" else ""

def transcript (threshold : Level) (events : List Event) : String :=
  String.join (events.map (shown threshold))

end Event

inductive Next (State Result : Type) where
  | ask (state : State)
  | stop (result : Result)
  deriving DecidableEq

structure Turn (State Result : Type) where
  events : List Event
  next : Next State Result
  deriving DecidableEq

namespace Turn

variable {State Other Result : Type}

def mapState (turn : Turn State Result) (f : State → Other) : Turn Other Result :=
  match turn.next with
  | .ask state => ⟨turn.events, .ask (f state)⟩
  | .stop result => ⟨turn.events, .stop result⟩

def after (turn : Turn State Result) (events : List Event) : Turn State Result :=
  { turn with events := events ++ turn.events }

end Turn

structure Dialogue (State Result : Type) where
  prompt : State → String
  receive : State → Text → Turn State Result
  /-- How the dialogue ends when the input does, after the prompt of the state. -/
  finish : State → List Event × Result

inductive Ending where
  | endOfInput
  | interrupt
  deriving DecidableEq

/-- A dialogue that has come to its end, with no result if it was interrupted. -/
structure Run (Result : Type) where
  events : List Event
  result : Option Result
  unread : List Text
  deriving DecidableEq

namespace Dialogue

variable {State Result : Type}

def run (d : Dialogue State Result) (ending : Ending) : State → List Text → Run Result
  | state, [] =>
    match ending with
    | .interrupt => ⟨[.prompt (d.prompt state)], none, []⟩
    | .endOfInput =>
      let (events, result) := d.finish state
      ⟨.prompt (d.prompt state) :: events, some result, []⟩
  | state, answer :: answers =>
    let turn := d.receive state answer
    let events := .prompt (d.prompt state) :: turn.events
    match turn.next with
    | .stop result => ⟨events, some result, answers⟩
    | .ask next =>
      let rest := run d ending next answers
      { rest with events := events ++ rest.events }

def runFrom (d : Dialogue State Result) (ending : Ending) (turn : Turn State Result)
    (answers : List Text) : Run Result :=
  match turn.next with
  | .stop result => ⟨turn.events, some result, answers⟩
  | .ask state =>
    let rest := d.run ending state answers
    { rest with events := turn.events ++ rest.events }

end Dialogue

end TruthTree
