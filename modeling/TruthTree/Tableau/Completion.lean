import TruthTree.Tableau.Operation

/-! When a tableau is finished: every branch is closed, or there is nothing left to expand in an open
statement and no open statement contradicts one above it. -/
namespace TruthTree

inductive Remaining where
  | expansion (s : Statement)
  | closure (lower upper : Statement)
  deriving DecidableEq

inductive Status where
  | closed
  | stillOpen
  | incomplete
  deriving DecidableEq

namespace Status

def name : Status → String
  | closed => "CLOSED"
  | stillOpen => "OPEN"
  | incomplete => "INCOMPLETE"

def isConclusive : Status → Bool
  | incomplete => false
  | _ => true

end Status

namespace Tableau

def pendingExpansion? (t : Tableau) : Option Remaining :=
  (t.listing.find? (·.statement.isPending)).map fun p => .expansion p.statement

/-- The nearest statement above a place that its open statement contradicts. -/
def conflict? (p : Place) : Option Remaining :=
  if p.statement.closed then none
  else
    (p.above.find? fun s => p.statement.formula.contradicts s.formula).map fun s =>
      .closure p.statement s

/-- The conflict of the statement with the highest number that has one. -/
def pendingClosure? (t : Tableau) : Option Remaining := t.listing.reverse.findSome? conflict?

def remaining? (t : Tableau) : Option Remaining :=
  if t.root.closed then none
  else
    match t.pendingExpansion? with
    | some r => some r
    | none => t.pendingClosure?

def isDone (t : Tableau) : Bool := t.remaining?.isNone

def status (t : Tableau) : Status :=
  if t.root.closed then .closed else if t.isDone then .stillOpen else .incomplete

end Tableau

end TruthTree
