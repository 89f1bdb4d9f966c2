import TruthTree.Tableau.Basic

/-! Diagrams: a tableau as the statements of a graph. Every statement of the tableau is a box, joined to
the one above it, and a closed leaf is joined to a mark below it. Closed statements are red, open leaves
green and expanded statements grey. -/
namespace TruthTree

namespace Diagram

structure Attribute where
  name : String
  value : Text
  deriving DecidableEq

inductive Item where
  | graphStyle (attributes : List Attribute)
  | boxStyle (attributes : List Attribute)
  | vertex (name label : Text) (attributes : List Attribute)
  | edge (upper lower : Text) (label : Option Text) (attributes : List Attribute)
  deriving DecidableEq

def boxName (number : Nat) : Text := 'N' :: Text.ofNat number

def markName (number : Nat) : Text := 'X' :: Text.ofNat number

def label (s : Statement) : Text := s.display ++ if s.expanded then [' ', '✓'] else []

def colour (p : Place) : Text :=
  if p.statement.closed then "lightcoral".toList
  else if p.isLeaf then "palegreen".toList
  else if p.statement.expanded then "lightgrey".toList
  else "white".toList

def box (p : Place) : Item :=
  .vertex (boxName p.statement.number) (label p.statement) [⟨"fillcolor", colour p⟩]

/-- The edge from the statement above; on the sides of a fork it carries the letter of the side. -/
def link (p : Place) : List Item :=
  match p.parent? with
  | none => []
  | some parent =>
    let sideLetter := (p.side?.map fun side => [side.letter]).getD []
    [.edge (boxName parent.number) (boxName p.statement.number) (some sideLetter) []]

def mark (p : Place) : List Item :=
  let number := p.statement.number
  if p.statement.closed && p.isLeaf then
    [.vertex (markName number) ['X'] [⟨"shape", "plaintext".toList⟩, ⟨"style", []⟩,
      ⟨"fontcolor", "red".toList⟩],
     .edge (boxName number) (markName number) none [⟨"arrowhead", "none".toList⟩]]
  else []

def style : List Item := [
  .graphStyle [⟨"rankdir", "TB".toList⟩, ⟨"nodesep", "0.4".toList⟩, ⟨"ranksep", "0.4".toList⟩],
  .boxStyle [⟨"shape", "box".toList⟩, ⟨"style", "filled".toList⟩, ⟨"fontname", "Helvetica".toList⟩]]

def items (t : Tableau) : List Item :=
  style ++ t.traverse.flatMap fun p => box p :: link p ++ mark p

end Diagram

structure Graph where
  comment : String
  format : Text
  items : List Diagram.Item
  deriving DecidableEq

end TruthTree
