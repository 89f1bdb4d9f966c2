import TruthTree.Premise
import TruthTree.Tableau.Place

/-! Tableaux: a tree over some premises, the next free number, and the reason why the latest operation
was refused, if it was. Numbers are handed out in order from one. Written premises are all read before
the first is placed. -/
namespace TruthTree

inductive Refusal where
  | outOfRange
  | alreadyExpanded
  | nothingToExpand
  | noNegation
  | differentBranches
  | notContradictory
  deriving DecidableEq

def Refusal.reason : Refusal → String
  | outOfRange => "no statement has that number"
  | alreadyExpanded => "statement has already been expanded"
  | nothingToExpand => "statement is a literal and cannot be expanded"
  | noNegation => "neither statement is a negation"
  | differentBranches => "statements are not on the same branch"
  | notContradictory => "neither statement is the negation of the other"

inductive BuildError where
  | noPremise
  | unreadable (e : PremiseError)
  deriving DecidableEq

def BuildError.message : BuildError → String
  | noPremise => "A truth tree needs at least one premise"
  | unreadable e => e.message

structure Tableau where
  tree : Tree
  next : Nat
  refusal : Option Refusal
  deriving DecidableEq

namespace Tableau

def start (premise : Formula) : Tableau := ⟨.leaf (.fresh 1 premise .trunk), 2, none⟩

def addPremise (t : Tableau) (premise : Formula) : Tableau :=
  { t with tree := t.tree.addPremise t.next premise, next := t.next + 1 }

def ofPremises (first : Formula) (rest : List Formula) : Tableau :=
  rest.foldl addPremise (start first)

def ofPremises? : List Formula → Option Tableau
  | [] => none
  | first :: rest => some (ofPremises first rest)

def ofTexts (strict : Bool) (sources : List Text) : Except BuildError Tableau :=
  match Premise.readAll strict sources with
  | .error e => .error (.unreadable e)
  | .ok premises =>
    match ofPremises? premises with
    | some t => .ok t
    | none => .error .noPremise

def root (t : Tableau) : Statement := t.tree.root

def size (t : Tableau) : Nat := t.tree.size

def places (t : Tableau) : List Place := t.tree.places []

def listing (t : Tableau) : List Place :=
  t.places.mergeSort fun p q => p.statement.number ≤ q.statement.number

def place? (t : Tableau) (number : Int) : Option Place :=
  t.places.find? fun p => p.statement.number = number

def traverse (t : Tableau) : List Place := Place.walk (fun _ => false) [⟨[], t.tree⟩]

theorem traverse_eq_places (t : Tableau) : t.traverse = t.places := Place.walk_eq_places [] t.tree

def openLeaves (p : Place) : List Place :=
  (Place.walk Statement.closed [p]).filter Place.isLeaf

def hasExpansion (t : Tableau) : Bool := t.tree.statements.any Statement.expanded

def closedCount (t : Tableau) : Nat := t.tree.statements.countP Statement.closed

end Tableau

end TruthTree
