import TruthTree.Dialogue
import Mathlib.Data.List.Basic

/-! Runs of dialogues. Each answer is read after one prompt, so the prompts of a run count the answers
that it reads; and what every answer keeps true of the states holds of the result. A run shows its
exchanges, the prompts with their answers, and they take it from state to state. -/
namespace TruthTree

def Event.isPrompt : Event → Bool
  | prompt _ => true
  | _ => false

def Event.prompts (events : List Event) : Nat := events.countP isPrompt

theorem Event.prompts_prompt (text : String) (events : List Event) :
    prompts (.prompt text :: events) = prompts events + 1 :=
  List.countP_cons_of_pos rfl

theorem Event.prompts_append (events later : List Event) :
    prompts (events ++ later) = prompts events + prompts later :=
  List.countP_append

theorem Event.prompts_eq_zero_iff {events : List Event} :
    prompts events = 0 ↔ ∀ e ∈ events, e.isPrompt = false := by
  simp [prompts]

def Event.prompt? : Event → Option String
  | prompt text => some text
  | _ => none

theorem Event.filterMap_prompt?_eq_nil {events : List Event} (h : prompts events = 0) :
    events.filterMap prompt? = [] := by
  rw [List.filterMap_eq_nil_iff]
  intro e he
  have silent := prompts_eq_zero_iff.mp h e he
  cases e with
  | prompt text => cases silent
  | output text => rfl
  | notice n => rfl

structure Exchange where
  prompt : String
  answer : Text
  deriving DecidableEq

/-- The prompts of a run over some answers, each with its answer. -/
def Run.exchanges {Result : Type} (r : Run Result) (answers : List Text) : List Exchange :=
  List.zipWith Exchange.mk (r.events.filterMap Event.prompt?) answers

def Next.Satisfies {State Result : Type} (Holds : State → Prop) (Good : Result → Prop) :
    Next State Result → Prop
  | ask state => Holds state
  | stop result => Good result

def Run.after {Result : Type} (r : Run Result) (events : List Event) : Run Result :=
  { r with events := events ++ r.events }

namespace Dialogue

variable {State Result : Type} (d : Dialogue State Result) (ending : Ending)

theorem run_cons (state : State) (answer : Text) (answers : List Text) :
    d.run ending state (answer :: answers) =
      (d.runFrom ending (d.receive state answer) answers).after [.prompt (d.prompt state)] := by
  rw [run, runFrom]
  cases (d.receive state answer).next with
  | ask next => rfl
  | stop result => rfl

theorem runFrom_after (turn : Turn State Result) (events : List Event) (answers : List Text) :
    d.runFrom ending (turn.after events) answers = (d.runFrom ending turn answers).after events := by
  rw [runFrom, runFrom, Turn.after]
  cases turn.next with
  | ask next => simp [Run.after]
  | stop result => rfl

variable {d}

theorem exists_read (quiet : ∀ state line, Event.prompts (d.receive state line).events = 0)
    (last : ∀ state, Event.prompts (d.finish state).1 ≤ 1) (state : State) (answers : List Text) :
    ∃ read, answers = read ++ (d.run ending state answers).unread ∧
      Event.prompts (d.run ending state answers).events ≤ read.length + 2 := by
  induction answers generalizing state with
  | nil =>
      refine ⟨[], ?_⟩
      cases ending with
      | interrupt => exact ⟨rfl, Nat.le_succ 1⟩
      | endOfInput =>
          refine ⟨rfl, ?_⟩
          rw [run, Event.prompts_prompt]
          exact Nat.succ_le_succ (last state)
  | cons answer answers ih =>
      have silent := quiet state answer
      rw [run_cons, runFrom]
      cases (d.receive state answer).next with
      | stop result =>
          refine ⟨[answer], rfl, ?_⟩
          rw [Run.after, List.singleton_append, Event.prompts_prompt, silent]
          exact Nat.le_add_left 1 2
      | ask next =>
          obtain ⟨read, whole, bound⟩ := ih next
          refine ⟨answer :: read, congrArg (answer :: ·) whole, ?_⟩
          rw [Run.after, List.singleton_append, Event.prompts_prompt, Event.prompts_append, silent,
            List.length_cons]
          omega

theorem good_result {Holds : State → Prop} {Good : Result → Prop}
    (step : ∀ state line, Holds state → (d.receive state line).next.Satisfies Holds Good)
    (last : ∀ state, Holds state → Good (d.finish state).2) {state : State} (start : Holds state)
    (answers : List Text) : ∀ result ∈ (d.run ending state answers).result, Good result := by
  induction answers generalizing state with
  | nil =>
      cases ending with
      | interrupt => exact nofun
      | endOfInput =>
          rintro result ⟨⟩
          exact last state start
  | cons answer answers ih =>
      have kept := step state answer start
      rw [run_cons, runFrom]
      cases next : (d.receive state answer).next with
      | ask later =>
          rw [next] at kept
          exact ih kept
      | stop result =>
          rw [next] at kept
          rintro result ⟨⟩
          exact kept

variable (d) in
/-- What a dialogue makes of some exchanges: its result and the answers that it leaves unread. -/
inductive Conducts : State → List Exchange → Result → List Text → Prop
  | ends (state : State) : Conducts state [] (d.finish state).2 []
  | stops {state : State} {line : Text} {result : Result} (unread : List Text)
      (next : (d.receive state line).next = .stop result) :
      Conducts state [⟨d.prompt state, line⟩] result unread
  | goesOn {state later : State} {line : Text} {x : List Exchange} {result : Result} {unread : List Text}
      (next : (d.receive state line).next = .ask later) (rest : Conducts later x result unread) :
      Conducts state (⟨d.prompt state, line⟩ :: x) result unread

theorem exchanges_run_cons {state : State} {answer : Text}
    (quiet : Event.prompts (d.receive state answer).events = 0) (answers : List Text) :
    (d.run ending state (answer :: answers)).exchanges (answer :: answers) =
      ⟨d.prompt state, answer⟩ ::
        match (d.receive state answer).next with
        | .stop _ => []
        | .ask next => (d.run ending next answers).exchanges answers := by
  rw [run_cons, runFrom]
  cases (d.receive state answer).next with
  | stop result => simp [Run.exchanges, Run.after, Event.prompt?, Event.filterMap_prompt?_eq_nil quiet]
  | ask next => simp [Run.exchanges, Run.after, Event.prompt?, Event.filterMap_prompt?_eq_nil quiet]

theorem conducts_run (quiet : ∀ state line, Event.prompts (d.receive state line).events = 0)
    (state : State) (answers : List Text) :
    let r := d.run .endOfInput state answers
    ∃ result, r.result = some result ∧ d.Conducts state (r.exchanges answers) result r.unread ∧
      answers = (r.exchanges answers).map Exchange.answer ++ r.unread := by
  induction answers generalizing state with
  | nil =>
      refine ⟨(d.finish state).2, rfl, ?_⟩
      have none : (d.run .endOfInput state []).exchanges [] = [] := List.zipWith_nil_right
      rw [none]
      exact ⟨.ends state, rfl⟩
  | cons answer answers ih =>
      dsimp only
      rw [exchanges_run_cons .endOfInput (quiet state answer), run_cons, runFrom]
      cases next : (d.receive state answer).next with
      | stop result => exact ⟨result, rfl, .stops answers next, rfl⟩
      | ask later =>
          obtain ⟨result, ended, conducted, whole⟩ := ih later
          exact ⟨result, ended, .goesOn next conducted, congrArg (answer :: ·) whole⟩

end Dialogue

end TruthTree
