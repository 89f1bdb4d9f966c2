/-! Texts are lists of characters: lengths, positions and slices all count characters. Blank characters
of every script are trimmed from the ends of a text and cut it into words. A line feed, a carriage return,
or the two with the return first, ends a line, and the end of the text ends a last line that is not
empty. -/
namespace TruthTree

abbrev Text := List Char

namespace Text

def toStr (t : Text) : String := String.ofList t

@[simp] theorem toList_toStr (t : Text) : t.toStr.toList = t := by
  simp [toStr]

def ofNat (n : Nat) : Text := Nat.toDigits 10 n

/-- The lower-case hexadecimal digits of `n`, filled up with zeros to `width`. -/
def hex (width n : Nat) : Text :=
  let digits := Nat.toDigits 16 n
  List.replicate (width - digits.length) '0' ++ digits

def joined (separator : Text) (parts : List Text) : Text := separator.intercalate parts

def inRanges (ranges : List (Nat × Nat)) (c : Char) : Bool :=
  ranges.any fun (low, high) => low ≤ c.toNat && c.toNat ≤ high

def blankRanges : List (Nat × Nat) := [
  (0x9, 0xD), (0x1C, 0x20), (0x85, 0x85), (0xA0, 0xA0), (0x1680, 0x1680),
  (0x2000, 0x200A), (0x2028, 0x2029), (0x202F, 0x202F), (0x205F, 0x205F), (0x3000, 0x3000)]

def isBlank (c : Char) : Bool := inRanges blankRanges c

def trimEnd (t : Text) : Text := (t.reverse.dropWhile isBlank).reverse

def trim (t : Text) : Text := trimEnd (t.dropWhile isBlank)

def words : Text → List Text
  | [] => []
  | c :: rest =>
    if isBlank c then words rest
    else (c :: rest.takeWhile (!isBlank ·)) :: words (rest.dropWhile (!isBlank ·))
termination_by t => t.length
decreasing_by
  · exact Nat.lt_succ_self _
  · exact Nat.lt_succ_of_le (List.dropWhile_sublist _).length_le

/-- The lines of a text whose first line starts with the characters of `start`, in reverse. -/
def linesFrom (start : Text) : Text → List Text
  | [] => if start.isEmpty then [] else [start.reverse]
  | '\r' :: '\n' :: rest => start.reverse :: linesFrom [] rest
  | c :: rest =>
    if c = '\n' || c = '\r' then start.reverse :: linesFrom [] rest
    else linesFrom (c :: start) rest

def lines (t : Text) : List Text := linesFrom [] t

end Text

end TruthTree
