import TruthTree.Tableau.Basic

/-! The two operations that build a tableau: expanding a statement, and closing a branch on which one
statement is the negation of another. An operation that is refused leaves the tree as it is. -/
namespace TruthTree

inductive Operation where
  | expand (number : Int)
  | close (first second : Int)
  deriving DecidableEq

def Operation.name : Operation → String
  | expand number => s!"expand({number})"
  | close first second => s!"close({first}, {second})"

/-- How an operation ended. The last case is that of a formula whose decomposition has a text that
cannot be read. -/
inductive Outcome where
  | accepted
  | refused (reason : Refusal)
  | unreadable (e : UnknownConnective)
  deriving DecidableEq

namespace Tableau

def expansion (t : Tableau) (number : Int) : Except Outcome (Nat × Decomposition) :=
  match t.place? number with
  | none => .error (.refused .outOfRange)
  | some p =>
    if p.statement.expanded then .error (.refused .alreadyExpanded)
    else
      match p.statement.formula.decompose with
      | .error e => .error (.unreadable e)
      | .ok .literal => .error (.refused .nothingToExpand)
      | .ok d => .ok (p.statement.number, d)

/-- The number at and below which a closure takes effect, or why there is none. -/
def closure (t : Tableau) (first second : Int) : Except Outcome Nat :=
  match t.place? first, t.place? second with
  | some p, some q =>
    let f := p.statement.formula
    let g := q.statement.formula
    let (upper, lower) := if p.statement.number ≤ q.statement.number then (p, q) else (q, p)
    if !f.isNegation && !g.isNegation then .error (.refused .noNegation)
    else if upper.statement.number ≠ lower.statement.number &&
        !lower.above.any (·.number = upper.statement.number) then
      .error (.refused .differentBranches)
    else if !f.contradicts g then .error (.refused .notContradictory)
    else .ok lower.statement.number
  | _, _ => .error (.refused .outOfRange)

def declined (t : Tableau) : Outcome → Tableau
  | .refused reason => { t with refusal := some reason }
  | _ => { t with refusal := none }

def expand (t : Tableau) (number : Int) : Tableau × Outcome :=
  match t.expansion number with
  | .error outcome => (t.declined outcome, outcome)
  | .ok (target, d) =>
    let grown := t.tree.expandAt target d t.next
    (⟨grown.1, grown.2, none⟩, .accepted)

def close (t : Tableau) (first second : Int) : Tableau × Outcome :=
  match t.closure first second with
  | .error outcome => (t.declined outcome, outcome)
  | .ok target => (⟨t.tree.closeAt target, t.next, none⟩, .accepted)

def perform (t : Tableau) : Operation → Tableau × Outcome
  | .expand number => t.expand number
  | .close first second => t.close first second

end Tableau

end TruthTree
