import TruthTree.Notice
import TruthTree.Tableau.Completion

/-! The notices that go with building a tableau, with each operation and with looking for work that is
left. -/
namespace TruthTree

namespace Tableau

def addNotices (t : Tableau) (premise : Formula) : List Notice :=
  let shown := premise.display.toStr
  let late :=
    s!"Premise {shown} added after expansion began; it only joins the leftmost branch"
  (if t.hasExpansion then [.warning late] else []) ++
    [.debug s!"Premise [{t.next}] {shown} added"]

def addAllNotices (t : Tableau) : List Formula → List Notice
  | [] => []
  | premise :: rest => t.addNotices premise ++ (t.addPremise premise).addAllNotices rest

def buildNotices : List Formula → List Notice
  | [] => []
  | first :: rest =>
    (start first).addAllNotices rest ++ Notice.treeStarted ((first :: rest).map Formula.display)

def ofTextsNotices (strict : Bool) (sources : List Text) : List Notice :=
  Premise.allNotices strict sources ++
    match Premise.readAll strict sources with
    | .ok premises => buildNotices premises
    | .error _ => []

def operationNotices (before after : Tableau) (operation : Operation) : Outcome → List Notice
  | .refused reason => [.rejected operation.name reason.reason]
  | .unreadable _ => []
  | .accepted =>
    match operation with
    | .expand number =>
      let shown := ((before.place? number).map (·.statement.formula.display)).getD []
      let added := (List.range (after.next - before.next)).map fun i => Int.ofNat (before.next + i)
      [.expanded number shown added]
    | .close first second =>
      [.branchClosed (max first second) (min first second)
        (after.closedCount - before.closedCount : Nat)]

def doneNotice (t : Tableau) : Notice :=
  match t.remaining? with
  | some (.expansion s) => .debug s!"Tree not done: {s.display.toStr} can still be expanded"
  | some (.closure lower upper) =>
    .debug s!"Tree not done: [{lower.number}] and [{upper.number}] close a branch"
  | none =>
    if t.root.closed then .debug "Tree is done: every branch is closed"
    else .debug "Tree is done: open branches are fully expanded"

def statusNotices (t : Tableau) : List Notice := if t.root.closed then [] else [t.doneNotice]

end Tableau

end TruthTree
