import TruthTree.Files.PremiseFile
import TruthTree.Proofs.ByteDecoding
import Mathlib.Data.List.TakeWhile

/-! Premise files give back the premises that were written to them. How a file is laid out does not matter:
which line ends it has and where they meet, what blanks stand around a premise, and what blank lines and
comments stand between the premises. -/
namespace TruthTree

inductive LineEnd where
  | lineFeed
  | carriageReturn
  | both
  deriving DecidableEq

def LineEnd.text : LineEnd → Text
  | lineFeed => ['\n']
  | carriageReturn => ['\r']
  | both => ['\r', '\n']

namespace Text

def OneLine (t : Text) : Prop := '\n' ∉ t ∧ '\r' ∉ t

instance : DecidablePred OneLine := fun _ => inferInstanceAs (Decidable (_ ∧ _))

theorem OneLine.append {s t : Text} (hs : OneLine s) (ht : OneLine t) : OneLine (s ++ t) := by
  simp only [OneLine, List.mem_append, not_or]
  exact ⟨⟨hs.1, ht.1⟩, hs.2, ht.2⟩

theorem linesFrom_append {line : Text} (h : OneLine line) (start rest : Text) :
    linesFrom start (line ++ rest) = linesFrom (line.reverse ++ start) rest := by
  induction line generalizing start with
  | nil => rfl
  | cons c line ih =>
      obtain ⟨feed, carriage⟩ := h
      simp only [List.mem_cons, not_or] at feed carriage
      have below := ih ⟨feed.2, carriage.2⟩ (c :: start)
      rw [List.cons_append, linesFrom]
      · simp [Ne.symm feed.1, Ne.symm carriage.1, below]
      · rintro rest' rfl
        exact absurd rfl carriage.1

theorem linesFrom_lineEnd (start : Text) (ending : LineEnd) (rest : Text) :
    ∃ later, linesFrom start (ending.text ++ rest) = start.reverse :: later ∧
      (linesFrom [] rest = later ∨ linesFrom [] rest = [] :: later) := by
  -- A carriage return and the line feed after it close the line together.
  cases ending with
  | lineFeed => exact ⟨linesFrom [] rest, by simp [LineEnd.text, linesFrom], .inl rfl⟩
  | both => exact ⟨linesFrom [] rest, by simp [LineEnd.text, linesFrom], .inl rfl⟩
  | carriageReturn =>
      by_cases merges : ∃ rest', rest = '\n' :: rest'
      · obtain ⟨rest', rfl⟩ := merges
        exact ⟨linesFrom [] rest', by simp [LineEnd.text, linesFrom], .inr (by simp [linesFrom])⟩
      · refine ⟨linesFrom [] rest, ?_, .inl rfl⟩
        rw [LineEnd.text, List.singleton_append, linesFrom]
        · simp
        · intro rest' _ next
          exact merges ⟨rest', next⟩

theorem trimEnd_append {t after : Text} (blank : ∀ c ∈ after, isBlank c = true) :
    trimEnd (t ++ after) = trimEnd t := by
  rw [trimEnd, trimEnd, List.reverse_append, List.dropWhile_append_of_pos]
  simpa using blank

theorem trim_padded {before t after : Text} (hbefore : ∀ c ∈ before, isBlank c = true)
    (hafter : ∀ c ∈ after, isBlank c = true) : trim (before ++ t ++ after) = trim t := by
  rw [trim, trim, List.append_assoc, List.dropWhile_append_of_pos hbefore, List.dropWhile_append]
  split
  · next nothing =>
      have none : after.dropWhile isBlank = [] := List.dropWhile_eq_nil_iff.mpr hafter
      rw [none, List.isEmpty_iff.mp nothing]
  · exact trimEnd_append hafter

theorem trim_cons {c : Char} (visible : isBlank c = false) (t : Text) :
    trim (c :: t) = c :: trimEnd t := by
  rw [trim, List.dropWhile_cons_of_neg (by simp [visible]), trimEnd, trimEnd, List.reverse_cons,
    List.dropWhile_append]
  split
  · next nothing => simp [List.isEmpty_iff.mp nothing, visible]
  · simp

end Text

namespace PremiseFile

theorem premises_eq_filterMap (t : Text) : premises t = (Text.lines t).filterMap premise? := by
  have numbers : ∀ (lines : List Text) (first : Nat),
      ((lines.zipIdx first).filterMap fun entry => (premise? entry.1).map (entry.2, ·)).map
        Prod.snd = lines.filterMap premise? := by
    intro lines
    induction lines with
    | nil => exact fun _ => rfl
    | cons line lines ih =>
        intro first
        have below := ih (first + 1)
        cases held : premise? line with
        | none => simpa [held] using below
        | some premise => simpa [held] using below
  exact numbers (Text.lines t) 1

theorem premises_line {line : Text} (h : line.OneLine) (ending : LineEnd) (rest : Text) :
    premises (line ++ ending.text ++ rest) = (premise? line).toList ++ premises rest := by
  obtain ⟨later, split, rests⟩ := Text.linesFrom_lineEnd (line.reverse ++ []) ending rest
  have gap : (Text.linesFrom [] rest).filterMap premise? = later.filterMap premise? := by
    rcases rests with rests | rests
    · rw [rests]
    · rw [rests]
      rfl
  rw [premises_eq_filterMap, premises_eq_filterMap, Text.lines, Text.lines, List.append_assoc,
    Text.linesFrom_append h, split, gap, List.filterMap_cons, List.append_nil, List.reverse_reverse]
  cases premise? line <;> rfl

theorem premises_last {line : Text} (h : line.OneLine) : premises line = (premise? line).toList := by
  have split := Text.linesFrom_append h [] []
  rw [List.append_nil, List.append_nil] at split
  rw [premises_eq_filterMap, Text.lines, split, Text.linesFrom]
  cases line with
  | nil => rfl
  | cons c line =>
      simp only [List.isEmpty_reverse, List.isEmpty_cons, Bool.false_eq_true, if_false,
        List.reverse_reverse, List.filterMap_cons, List.filterMap_nil]
      cases premise? (c :: line) <;> rfl

def Margin (t : Text) : Prop := t.OneLine ∧ t.all Text.isBlank = true

instance : DecidablePred Margin := fun _ => inferInstanceAs (Decidable (_ ∧ _))

/-- A text that can stand on a line as a premise. -/
def Suitable (premise : Text) : Prop :=
  premise ≠ [] ∧ Text.trim premise = premise ∧ premise.OneLine ∧ premise.head? ≠ some '#'

instance : DecidablePred Suitable := fun _ => inferInstanceAs (Decidable (_ ∧ _))

inductive Holds : Text → Option Text → Prop
  | premise {before premise after : Text} (hbefore : Margin before) (suitable : Suitable premise)
      (hafter : Margin after) : Holds (before ++ premise ++ after) (some premise)
  | blank {line : Text} (h : Margin line) : Holds line none
  | comment {before rest : Text} (hbefore : Margin before) (hrest : rest.OneLine) :
      Holds (before ++ '#' :: rest) none

/-- A text that holds some premises in order, one on a line, with any line ends, of which the last may be
missing, and with lines that hold none anywhere. -/
inductive LaidOut : List Text → Text → Prop
  | nothing : LaidOut [] []
  | last {line : Text} {premise : Option Text} (h : Holds line premise) : LaidOut premise.toList line
  | line {line rest : Text} {premise : Option Text} {premises : List Text} (h : Holds line premise)
      (ending : LineEnd) (below : LaidOut premises rest) :
      LaidOut (premise.toList ++ premises) (line ++ ending.text ++ rest)

theorem premise?_padded {before t after : Text} (hbefore : Margin before) (hafter : Margin after) :
    premise? (before ++ t ++ after) = premise? t := by
  rw [premise?, premise?,
    Text.trim_padded (List.all_eq_true.mp hbefore.2) (List.all_eq_true.mp hafter.2)]

theorem Suitable.premise? {premise : Text} (h : Suitable premise) :
    PremiseFile.premise? premise = some premise := by
  obtain ⟨nonempty, trimmed, -, statement⟩ := h
  rw [PremiseFile.premise?, trimmed]
  split
  · exact absurd rfl nonempty
  · exact absurd rfl statement
  · rfl

theorem Holds.spec {line : Text} {premise : Option Text} (h : Holds line premise) :
    line.OneLine ∧ premise? line = premise := by
  have margin : Margin [] := by decide
  cases h with
  | @premise before premise after hbefore suitable hafter =>
      refine ⟨(hbefore.1.append suitable.2.2.1).append hafter.1, ?_⟩
      rw [premise?_padded hbefore hafter, suitable.premise?]
  | blank h =>
      have padded := premise?_padded (t := []) h margin
      rw [List.append_nil, List.append_nil] at padded
      exact ⟨h.1, padded⟩
  | @comment before rest hbefore hrest =>
      have oneLine : Text.OneLine ('#' :: rest) := by simpa [Text.OneLine] using hrest
      have padded := premise?_padded (t := '#' :: rest) hbefore margin
      rw [List.append_nil] at padded
      refine ⟨hbefore.1.append oneLine, ?_⟩
      rw [padded, PremiseFile.premise?, Text.trim_cons (by decide)]
      rfl

theorem LaidOut.premises_eq {premises : List Text} {t : Text} (h : LaidOut premises t) :
    PremiseFile.premises t = premises := by
  induction h with
  | nothing => rfl
  | last h =>
      obtain ⟨oneLine, holds⟩ := h.spec
      rw [premises_last oneLine, holds]
  | line h ending below ih =>
      obtain ⟨oneLine, holds⟩ := h.spec
      rw [premises_line oneLine, holds, ih]

/-- A premise file gives back the premises that it holds, in order, however it is laid out; a file that
holds none is refused for that. -/
theorem read_laid_out {premises : List Text} {t : Text} (h : LaidOut premises t) (shown : Text) :
    (premises ≠ [] → read shown (.file (Text.encode t)) = .ok premises) ∧
      (premises = [] → read shown (.file (Text.encode t)) = .error (.noPremises shown)) := by
  have decoded : read shown (.file (Text.encode t)) =
      if premises.isEmpty then .error (.noPremises shown) else .ok premises := by
    simp only [read, Text.decode_encode, h.premises_eq]
  rw [decoded]
  constructor
  · intro some
    rw [if_neg (by simpa using some)]
  · rintro rfl
    rfl

-- All three line ends, a carriage return that meets the line feed after it, blanks of other
-- scripts, a premise with the sign of comments in it and no line end at the end; and a file with
-- nothing but a comment.
theorem read_laid_out_mixed :
    let premises := ["(if P Q)".toList, "é # 𝒫".toList]
    let t := "\u3000# note\r\n\x0b\r\n\t(if P Q)\x1c\r\ré # 𝒫\u2028".toList
    let comment := " # nothing".toList
    LaidOut premises t ∧ read "f".toList (.file (Text.encode t)) = .ok premises ∧
      LaidOut [] comment ∧
      read "f".toList (.file (Text.encode comment)) = .error (.noPremises "f".toList) := by
  intro premises t comment
  have mixed : LaidOut premises t := by
    have pieces : t = (['\u3000'] ++ '#' :: " note".toList) ++ LineEnd.both.text ++
        (['\x0b'] ++ LineEnd.carriageReturn.text ++ ([] ++ LineEnd.lineFeed.text ++
          (['\t'] ++ "(if P Q)".toList ++ ['\x1c'] ++ LineEnd.carriageReturn.text ++
            ([] ++ LineEnd.carriageReturn.text ++ ([] ++ "é # 𝒫".toList ++ ['\u2028']))))) := by
      unfold t
      decide +kernel
    rw [pieces]
    refine .line (.comment (by decide) (by decide)) _ (.line (.blank (by decide)) _
      (.line (.blank (by decide)) _ (.line (.premise (by decide) ?_ (by decide)) _
        (.line (.blank (by decide)) _ (.last (.premise (by decide) ?_ (by decide)))))))
    · decide +kernel
    · decide +kernel
  have only : LaidOut [] comment :=
    .last (@Holds.comment [' '] " nothing".toList (by decide) (by decide))
  exact ⟨mixed, (read_laid_out mixed _).1 (List.cons_ne_nil _ _), only, (read_laid_out only _).2 rfl⟩

end PremiseFile

end TruthTree
