import TruthTree.Tableau.Completion

/-! The table of nodes behind a tableau. Nodes stand in a list in the order in which they are made and
refer to each other by number. Links are written when a node is attached, and every loop follows them
from node to node. A computation has no result if a number leads to no node or a loop does not end. -/
namespace TruthTree

/-- A statement and the numbers of its neighbours. The origin is the number of the nearest fork above,
and 0 if there is none. -/
structure Node where
  number : Nat
  formula : Formula
  parent : Option Nat
  left : Option Nat
  right : Option Nat
  closed : Bool
  expanded : Bool
  depth : Nat
  origin : Nat
  side : Option Side
  deriving DecidableEq

namespace Node

def fresh (number : Nat) (formula : Formula) : Node :=
  ⟨number, formula, none, none, none, false, false, 0, 0, none⟩

/-- The link to the child on one side. A single child is linked on the left. -/
def child (n : Node) : Side → Option Nat
  | .left => n.left
  | .right => n.right

def children (n : Node) : List Nat := n.left.toList ++ n.right.toList

def isLeaf (n : Node) : Bool := n.left.isNone

def isFork (n : Node) : Bool := n.right.isSome

def isPending (n : Node) : Bool := !n.closed && n.formula.canExpand && !n.expanded

def close (n : Node) : Node := { n with closed := true }

def expand (n : Node) : Node := { n with expanded := true }

def continueBranch (upper n : Node) : Node :=
  { n with origin := upper.origin, depth := upper.depth, side := upper.side }

def splitBranch (upper : Node) (side : Side) (n : Node) : Node :=
  { n with origin := upper.number, depth := upper.depth + 1, side := some side }

end Node

structure Arena where
  nodes : List Node
  next : Nat
  refusal : Option Refusal
  deriving DecidableEq

namespace Arena

def empty : Arena := ⟨[], 1, none⟩

def at? (a : Arena) : Nat → Option Node
  | 0 => none
  | i + 1 => a.nodes[i]?

/-- The node with a number that may be out of range. -/
def lookUp (a : Arena) (number : Int) : Option (Option Node) :=
  if 1 ≤ number ∧ number < a.next then (a.at? number.toNat).map some else some none

def write (a : Arena) (number : Nat) (f : Node → Node) : Arena :=
  match number with
  | 0 => a
  | i + 1 => { a with nodes := a.nodes.modify i f }

def newNode (a : Arena) (formula : Formula) : Arena × Nat :=
  ({ a with nodes := a.nodes ++ [.fresh a.next formula], next := a.next + 1 }, a.next)

/-- Makes a node and links it with its parent. Whatever the parent had in the place of the new link is
lost. -/
def attach (a : Arena) (parent : Nat) (formula : Formula) (side : Option Side) :
    Option (Arena × Nat) := do
  let upper ← a.at? parent
  let (a, child) := a.newNode formula
  let a := a.write child fun n => { n with parent := some upper.number }
  match side with
  | some .right =>
    let a := a.write parent fun n => { n with right := some child }
    some (a.write child (upper.splitBranch .right), child)
  | some .left =>
    let a := a.write parent fun n => { n with left := some child }
    some (a.write child (upper.splitBranch .left), child)
  | none =>
    let a := a.write parent fun n => { n with left := some child }
    some (a.write child upper.continueBranch, child)

def ancestors (a : Arena) (node : Node) : Option (List Node) := do
  match node.parent with
  | none => some []
  | some number =>
    let upper ← a.at? number
    let rest ← a |>.ancestors upper
    some (upper :: rest)
partial_fixpoint

/-- Visits the nodes on the stack and those below them, left before right. Closed nodes may be passed
over together with all below them. -/
def walk (a : Arena) (skipClosed : Bool) (stack : List Nat) : Option (List Node) := do
  match stack with
  | [] => some []
  | number :: stack =>
    let node ← a.at? number
    if skipClosed && node.closed then a |>.walk skipClosed stack
    else
      let rest ← a |>.walk skipClosed (node.children ++ stack)
      some (node :: rest)
partial_fixpoint

def traverse (a : Arena) : Option (List Node) := a.walk false [1]

def openLeaves (a : Arena) (number : Nat) : Option (List Nat) := do
  let nodes ← a.walk true [number]
  some ((nodes.filter Node.isLeaf).map Node.number)

def tail (a : Arena) (number : Nat) : Option Nat := do
  let node ← a.at? number
  match node.left with
  | none => some number
  | some below => a |>.tail below
partial_fixpoint

def addPremiseBelow (a : Arena) (number : Nat) (premise : Formula) : Option Arena := do
  let last ← a.tail number
  let (a, child) ← a.attach last premise none
  let node ← a.at? last
  some (if node.closed then a.write child Node.close else a)

def addPremise (a : Arena) (premise : Formula) : Option Arena := a.addPremiseBelow 1 premise

def ofPremises (first : Formula) (rest : List Formula) : Option Arena :=
  rest.foldlM addPremise (empty.newNode first).1

def attachParts (d : Decomposition) (a : Arena) (leaf : Nat) : Option Arena := do
  match d with
  | .literal => some a
  | .single f =>
    let (a, _) ← a.attach leaf f none
    some a
  | .stacked f g =>
    let (a, upper) ← a.attach leaf f none
    let (a, _) ← a.attach upper g none
    some a
  | .forked f g =>
    let (a, _) ← a.attach leaf f (some .left)
    let (a, _) ← a.attach leaf g (some .right)
    some a

/-- Attaches the parts of a formula below the leaves that are open at the outset, and marks its node. -/
def grow (a : Arena) (number : Nat) (d : Decomposition) : Option Arena := do
  let leaves ← a.openLeaves number
  let a ← leaves.foldlM (attachParts d) a
  some (a.write number Node.expand)

def refuse (a : Arena) (reason : Refusal) : Arena × Outcome :=
  ({ a with refusal := some reason }, .refused reason)

def expand (a : Arena) (number : Int) : Option (Arena × Outcome) := do
  let a := { a with refusal := none }
  match ← a.lookUp number with
  | none => some (a.refuse .outOfRange)
  | some target =>
    if target.expanded then some (a.refuse .alreadyExpanded)
    else
      match target.formula.decompose with
      | .error e => some (a, .unreadable e)
      | .ok .literal => some (a.refuse .nothingToExpand)
      | .ok d =>
        let a ← a.grow target.number d
        some (a, .accepted)

def closeDownward (a : Arena) (stack : List Nat) : Option Arena := do
  match stack with
  | [] => some a
  | number :: stack =>
    let node ← a.at? number
    a.write number Node.close |>.closeDownward (node.children ++ stack)
partial_fixpoint

def allClosed (a : Arena) (numbers : List Nat) : Option Bool :=
  numbers.allM fun number => (a.at? number).map Node.closed

/-- Closes the nodes above one, as far as the first fork with an open child. -/
def closeUpward (a : Arena) (number : Nat) : Option Arena := do
  let node ← a.at? number
  match node.parent with
  | none => some a
  | some upper =>
    let above ← a.at? upper
    let ends ← if above.isFork then a.allClosed above.children else some true
    if ends then a.write upper Node.close |>.closeUpward upper else some a
partial_fixpoint

def onBranch (a : Arena) (upper lower : Node) : Option Bool := do
  if upper.number = lower.number then some true
  else
    let above ← a.ancestors lower
    some (above.any (·.number = upper.number))

def close (a : Arena) (first second : Int) : Option (Arena × Outcome) := do
  let a := { a with refusal := none }
  match ← a.lookUp first, ← a.lookUp second with
  | some p, some q =>
    if !p.formula.isNegation && !q.formula.isNegation then some (a.refuse .noNegation)
    else
      let (upper, lower) := if p.number ≤ q.number then (p, q) else (q, p)
      if !(← a.onBranch upper lower) then some (a.refuse .differentBranches)
      else if !p.formula.contradicts q.formula then some (a.refuse .notContradictory)
      else
        let a ← a.closeDownward [lower.number]
        let a ← a.closeUpward lower.number
        some (a, .accepted)
  | _, _ => some (a.refuse .outOfRange)

def perform (a : Arena) : Operation → Option (Arena × Outcome)
  | .expand number => a.expand number
  | .close first second => a.close first second

def isContradicted (a : Arena) (node : Node) : Option Bool := do
  if node.closed then some false
  else
    let above ← a.ancestors node
    some (above.any fun upper => node.formula.contradicts upper.formula)

def isDone (a : Arena) : Option Bool := do
  let root ← a.at? 1
  if root.closed then some true
  else if a.nodes.any Node.isPending then some false
  else
    let contradicted ← a.nodes.reverse.anyM a.isContradicted
    some !contradicted

def status (a : Arena) : Option Status := do
  let root ← a.at? 1
  if root.closed then some .closed
  else if ← a.isDone then some .stillOpen
  else some .incomplete

end Arena

end TruthTree
