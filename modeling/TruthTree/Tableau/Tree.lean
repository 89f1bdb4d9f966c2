import TruthTree.Formula.Decomposition
import TruthTree.Tableau.Statement

/-! Truth trees. A tree is a statement with nothing below it, with one tree below it on the same branch,
or with two trees on the sides of a fork. Trees only grow at their leaves, and statements only ever
turn from open to closed and from unexpanded to expanded. -/
namespace TruthTree

inductive Tree where
  | leaf (s : Statement)
  | chain (s : Statement) (below : Tree)
  | fork (s : Statement) (left right : Tree)
  deriving DecidableEq

namespace Tree

def root : Tree → Statement
  | leaf s => s
  | chain s _ => s
  | fork s _ _ => s

@[simp] theorem root_leaf (s : Statement) : (leaf s).root = s := rfl

@[simp] theorem root_chain (s : Statement) (t : Tree) : (chain s t).root = s := rfl

@[simp] theorem root_fork (s : Statement) (l r : Tree) : (fork s l r).root = s := rfl

def size : Tree → Nat
  | leaf _ => 1
  | chain _ t => t.size + 1
  | fork _ l r => l.size + r.size + 1

theorem size_pos (t : Tree) : 0 < t.size := by
  cases t <;> simp [size]

def statements : Tree → List Statement
  | leaf s => [s]
  | chain s t => s :: t.statements
  | fork s l r => s :: l.statements ++ r.statements

@[simp] theorem length_statements (t : Tree) : t.statements.length = t.size := by
  induction t with
  | leaf s => rfl
  | chain s t ih => simp [statements, size, ih]
  | fork s l r ihl ihr => simp [statements, size, ihl, ihr]

/-- The branches from left to right, each from the root down to a leaf. -/
def branches : Tree → List (List Statement)
  | leaf s => [[s]]
  | chain s t => t.branches.map (s :: ·)
  | fork s l r => (l.branches ++ r.branches).map (s :: ·)

def map (f : Statement → Statement) : Tree → Tree
  | leaf s => leaf (f s)
  | chain s t => chain (f s) (t.map f)
  | fork s l r => fork (f s) (l.map f) (r.map f)

def mapRoot (f : Statement → Statement) : Tree → Tree
  | leaf s => leaf (f s)
  | chain s t => chain (f s) t
  | fork s l r => fork (f s) l r

/-- Adds a premise at the end of the leftmost branch. It is closed if that branch is. -/
def addPremise (number : Nat) (formula : Formula) : Tree → Tree
  | leaf s => chain s (leaf ((s.follow number formula).closeIf s.closed))
  | chain s t => chain s (t.addPremise number formula)
  | fork s l r => fork s (l.addPremise number formula) r

/-- Puts the result of a decomposition below a leaf, with numbers from `next` on. Gives the tree and
the number that is free then. -/
def attach (d : Decomposition) (next : Nat) (s : Statement) : Tree × Nat :=
  match d with
  | .literal => (leaf s, next)
  | .single f => (chain s (leaf (s.follow next f)), next + 1)
  | .stacked f g =>
    let upper := s.follow next f
    (chain s (chain upper (leaf (upper.follow (next + 1) g))), next + 2)
  | .forked f g =>
    (fork s (leaf (s.branchOff .left next f)) (leaf (s.branchOff .right (next + 1) g)), next + 2)

def grow (d : Decomposition) (next : Nat) : Tree → Tree × Nat
  | leaf s => if s.closed then (leaf s, next) else attach d next s
  | chain s t =>
    if s.closed then (chain s t, next)
    else
      let below := grow d next t
      (chain s below.1, below.2)
  | fork s l r =>
    if s.closed then (fork s l r, next)
    else
      let left := grow d next l
      let right := grow d left.2 r
      (fork s left.1 right.1, right.2)

def expandAt (number : Nat) (d : Decomposition) (next : Nat) (t : Tree) : Tree × Nat :=
  if t.root.number = number then grow d next (t.mapRoot Statement.expand)
  else
    match t with
    | leaf s => (leaf s, next)
    | chain s t =>
      let below := expandAt number d next t
      (chain s below.1, below.2)
    | fork s l r =>
      let left := expandAt number d next l
      let right := expandAt number d left.2 r
      (fork s left.1 right.1, right.2)

/-- Closes the statement with the given number and all below it, and above it every statement whose
branches have all been closed. -/
def closeAt (number : Nat) (t : Tree) : Tree :=
  if t.root.number = number then t.map Statement.close
  else
    match t with
    | leaf s => leaf s
    | chain s t =>
      let below := closeAt number t
      chain (s.closeIf below.root.closed) below
    | fork s l r =>
      let left := closeAt number l
      let right := closeAt number r
      fork (s.closeIf (left.root.closed && right.root.closed)) left right

end Tree

end TruthTree
