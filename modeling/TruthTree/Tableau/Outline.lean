import TruthTree.Tableau.Basic

/-! The outline of a tableau, one statement a line. Statements below a fork stand after one dash for
each fork above them, the number of the nearest and the side taken there. A mark follows an expanded
statement, and a closed branch below a fork ends in a line with a mark of its own. -/
namespace TruthTree.Outline

def expandedMark : Text := ['[', 'O', ']']

def closedMark : Text := ['[', 'X', ']']

def legend : String :=
  s!"Key: {expandedMark.toStr} next to a statement indicates that it's already been expanded, " ++
    s!"and {closedMark.toStr} indicates that the branch it's listed next to is closed"

def dashes (depth : Nat) : Text := if depth = 0 then [] else ' ' :: List.replicate depth '-'

def origin : Option Split → Text
  | none => []
  | some split => ' ' :: Text.ofNat split.origin ++ [split.side.letter]

def margin (lineage : Lineage) : Text := dashes lineage.depth ++ origin lineage.split

def statementLine (s : Statement) : Text :=
  margin s.lineage ++ ' ' :: s.display ++ if s.expanded then '\t' :: expandedMark else []

def endsClosed (p : Place) : Bool :=
  p.statement.lineage.split.isSome && p.statement.closed && p.isLeaf

def placeLines (p : Place) : List Text :=
  if endsClosed p then
    [statementLine p.statement, margin p.statement.lineage ++ ' ' :: closedMark]
  else [statementLine p.statement]

def lines (t : Tableau) : List Text := t.traverse.flatMap placeLines

def render (t : Tableau) : Text := Text.joined ['\n'] (lines t)

def printed (t : Tableau) (withLegend : Bool) : String :=
  (if withLegend then legend ++ "\n" else "") ++ (render t).toStr ++ "\n"

end TruthTree.Outline
