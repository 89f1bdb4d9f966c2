import TruthTree.Dialogue
import TruthTree.Premise
import TruthTree.Text.LowerCase

/-! Entering premises at the keyboard. After each premise the user says whether there is another. In
the strict mode a premise that is not grammatical is asked for again, and an accepted one is kept in
its canonical text. -/
namespace TruthTree

inductive EntryQuestion where
  | premise
  | another
  /-- Asked again after an answer that was neither yes nor no. -/
  | anotherAgain
  deriving DecidableEq

structure PremiseEntry where
  strict : Bool
  accepted : List Text
  question : EntryQuestion
  deriving DecidableEq

namespace PremiseEntry

/-- The premises entered; none if the input ended before the first. -/
abbrev Entered := Option (List Text)

def prompt (e : PremiseEntry) : String :=
  match e.question with
  | .premise => s!"Premise {e.accepted.length + 1}: "
  | .another => "Continue entering premises? (y/n) "
  | .anotherAgain => "Invalid input. Type Y/y to continue, N/n to quit: "

def accept (e : PremiseEntry) (premise : Text) : PremiseEntry :=
  { e with accepted := e.accepted ++ [premise], question := .another }

def receivePremise (e : PremiseEntry) (line : Text) : Turn PremiseEntry Entered :=
  if e.strict then
    let notices := Event.ofNotices (Premise.normalizeNotices line)
    match Sentence.normalize line with
    | .ok canonical => ⟨notices, .ask (e.accept canonical)⟩
    | .error error =>
      ⟨notices ++ [.output s!"Invalid premise: {error.message}"], .ask e⟩
  else ⟨[], .ask (e.accept line)⟩

def receiveAnother (e : PremiseEntry) (line : Text) : Turn PremiseEntry Entered :=
  let answer := Text.lower (Text.trim line)
  if answer = ['y'] then ⟨[], .ask { e with question := .premise }⟩
  else if answer = ['n'] then ⟨[], .stop (some e.accepted)⟩
  else ⟨[], .ask { e with question := .anotherAgain }⟩

def receive (e : PremiseEntry) (line : Text) : Turn PremiseEntry Entered :=
  match e.question with
  | .premise => e.receivePremise line
  | _ => e.receiveAnother line

def finish (e : PremiseEntry) : List Event × Entered :=
  if e.accepted.isEmpty then ([], none)
  else
    ([.notice (.debug s!"Input ended after {e.accepted.length} premise(s)")], some e.accepted)

def dialogue : Dialogue PremiseEntry Entered where
  prompt := prompt
  receive := receive
  finish := finish

def start (strict : Bool) : Turn PremiseEntry Entered :=
  ⟨[.output "Enter premises for the truth tree using Slate-style prefix syntax:"],
    .ask ⟨strict, [], .premise⟩⟩

end PremiseEntry

end TruthTree
