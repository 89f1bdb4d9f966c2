import TruthTree.Proofs.DisplayText
import TruthTree.Tableau.Outline

/-! The lines of an outline can be read back. A line tells whether it is that of a statement or the mark
of a closed branch, and a statement line gives all of the statement but whether it is closed. So the text
of an outline is the text of one list of items only. -/
namespace TruthTree

theorem Text.isDigit_of_mem_ofNat {n : Nat} {c : Char} (h : c ∈ Text.ofNat n) : c.isDigit = true :=
  Nat.isDigit_of_mem_toDigits (by decide) (by decide) h

theorem Text.ofNat_injective : Function.Injective Text.ofNat := by
  intro n m same
  have values := congrArg (Nat.ofDigitChars 10 · 0) same
  simpa [Text.ofNat] using values

theorem Text.ofNat_append_inj {n m : Nat} {rest rest' : Text}
    (stop : ∀ c ∈ rest.head?, c.isDigit = false) (stop' : ∀ c ∈ rest'.head?, c.isDigit = false)
    (same : Text.ofNat n ++ rest = Text.ofNat m ++ rest') : n = m ∧ rest = rest' := by
  obtain ⟨numbers, rests⟩ := append_inj_of_stop (p := Char.isDigit)
    (fun _ => isDigit_of_mem_ofNat) (fun _ => isDigit_of_mem_ofNat) stop stop' same
  exact ⟨ofNat_injective numbers, rests⟩

theorem Text.newline_not_mem_ofNat (n : Nat) : '\n' ∉ Text.ofNat n := by
  intro inside
  exact absurd (isDigit_of_mem_ofNat inside) (by decide)

/-- There is a nearest fork just when there is a fork. -/
def Lineage.Proper (lineage : Lineage) : Prop := lineage.depth = 0 ↔ lineage.split = none

theorem Lineage.proper_trunk : Lineage.trunk.Proper := by simp [Proper, trunk]

theorem Lineage.proper_fork (lineage : Lineage) (origin : Nat) (side : Side) :
    (lineage.fork origin side).Proper := by
  simp [Proper, fork]

namespace Outline

theorem margin_trunk : margin .trunk = [] := rfl

theorem margin_below (depth : Nat) (split : Split) :
    margin ⟨depth + 1, some split⟩ =
      ' ' :: (List.replicate (depth + 1) '-' ++ ' ' :: (Text.ofNat split.origin ++ [split.side.letter])) := by
  simp [margin, dashes, origin]

theorem proper_cases {lineage : Lineage} (h : lineage.Proper) :
    lineage = .trunk ∨ ∃ depth split, lineage = ⟨depth + 1, some split⟩ := by
  obtain ⟨depth, split⟩ := lineage
  cases depth with
  | zero =>
      have none : split = none := h.mp rfl
      exact .inl (by rw [none]; rfl)
  | succ depth =>
      cases split with
      | none => exact absurd (h.mpr rfl) (Nat.succ_ne_zero depth)
      | some split => exact .inr ⟨depth, split, rfl⟩

theorem dash_stops (rest : Text) : ∀ c ∈ (' ' :: rest).head?, (c == '-') = false := by
  rintro c ⟨⟩
  rfl

theorem letter_stops (side : Side) (rest : Text) :
    ∀ c ∈ (side.letter :: rest).head?, c.isDigit = false := by
  rintro c ⟨⟩
  cases side <;> decide

theorem margin_append_inj {lineage lineage' : Lineage} (h : lineage.Proper) (h' : lineage'.Proper)
    {rest rest' : Text}
    (same : margin lineage ++ ' ' :: '[' :: rest = margin lineage' ++ ' ' :: '[' :: rest') :
    lineage = lineage' ∧ rest = rest' := by
  rcases proper_cases h with rfl | ⟨depth, split, rfl⟩ <;>
    rcases proper_cases h' with rfl | ⟨depth', split', rfl⟩
  · rw [margin_trunk] at same
    simpa using same
  · rw [margin_trunk, margin_below] at same
    simp [List.replicate_succ] at same
  · rw [margin_trunk, margin_below] at same
    simp [List.replicate_succ] at same
  · rw [margin_below, margin_below] at same
    simp only [List.cons_append, List.append_assoc, List.nil_append, List.cons.injEq, true_and] at same
    have dashes : ∀ n : Nat, ∀ c ∈ List.replicate n '-', (c == '-') = true := by
      intro n c hc
      simp [List.eq_of_mem_replicate hc]
    obtain ⟨depths, afterDashes⟩ := append_inj_of_stop (p := (· == '-')) (dashes _) (dashes _)
      (dash_stops _) (dash_stops _) same
    obtain ⟨origins, afterOrigin⟩ := Text.ofNat_append_inj (letter_stops split.side _)
      (letter_stops split'.side _) (List.cons.inj afterDashes).2
    obtain ⟨letters, afterLetter⟩ := List.cons.inj afterOrigin
    have depth_eq : depth + 1 = depth' + 1 := by simpa using congrArg List.length depths
    have sides : split.side = split'.side := by
      cases hside : split.side <;> cases hside' : split'.side <;> simp_all [Side.letter]
    refine ⟨?_, by simpa using afterLetter⟩
    obtain ⟨origin, side⟩ := split
    obtain ⟨origin', side'⟩ := split'
    simp_all

/-- What an outline shows of a statement, which is all but whether it is closed, and whether the mark of
a closed branch follows. -/
structure Item where
  statement : Statement
  marked : Bool
  deriving DecidableEq

def markLine (lineage : Lineage) : Text := margin lineage ++ ' ' :: closedMark

def Item.lines (item : Item) : List Text :=
  statementLine item.statement :: if item.marked then [markLine item.statement.lineage] else []

def item (p : Place) : Item := ⟨{ p.statement with closed := false }, endsClosed p⟩

theorem placeLines_eq_lines (p : Place) : placeLines p = (item p).lines := by
  unfold placeLines Item.lines
  cases marked : endsClosed p with
  | false =>
      simp only [item, marked, Bool.false_eq_true, if_false]
      rfl
  | true =>
      simp only [item, marked, if_true]
      rfl

/-- A statement as an outline can show it: with nothing to say on whether it is closed. -/
structure Shown (s : Statement) : Prop where
  proper : s.lineage.Proper
  strict : s.formula.Strict
  opened : s.closed = false

theorem statementLine_eq (s : Statement) :
    statementLine s = margin s.lineage ++ ' ' :: '[' :: (Text.ofNat s.number ++
      ']' :: ' ' :: (s.formula.display ++ if s.expanded then '\t' :: expandedMark else [])) := by
  simp [statementLine, Statement.display]

theorem markLine_eq (lineage : Lineage) :
    markLine lineage = margin lineage ++ ' ' :: '[' :: ['X', ']'] := rfl

theorem ends_expandedMark (expanded : Bool) :
    Sentence.Ends (if expanded then '\t' :: expandedMark else []) := by
  cases expanded with
  | false => exact nofun
  | true =>
      rintro c ⟨⟩
      decide

theorem statementLine_inj {s s' : Statement} (h : Shown s) (h' : Shown s')
    (same : statementLine s = statementLine s') : s = s' := by
  rw [statementLine_eq, statementLine_eq] at same
  obtain ⟨lineages, same⟩ := margin_append_inj h.proper h'.proper same
  obtain ⟨numbers, same⟩ := Text.ofNat_append_inj (by simp) (by simp) same
  simp only [List.cons.injEq, true_and] at same
  obtain ⟨a, ha, formula⟩ := h.strict
  obtain ⟨b, hb, formula'⟩ := h'.strict
  simp only [formula, formula', Formula.display, Formula.sentence_ofSentence] at same
  obtain ⟨rfl, marks⟩ := ha.unambiguous b _ _ hb (ends_expandedMark _) (ends_expandedMark _) same
  have expanded : s.expanded = s'.expanded := by
    cases hs : s.expanded <;> cases hs' : s'.expanded <;> simp_all
  obtain ⟨number, f, lineage, closed, marked⟩ := s
  obtain ⟨number', f', lineage', closed', marked'⟩ := s'
  have opened := h.opened
  have opened' := h'.opened
  simp_all

theorem statementLine_ne_markLine {s : Statement} (h : Shown s) {lineage : Lineage}
    (proper : lineage.Proper) : statementLine s ≠ markLine lineage := by
  -- Where the mark has a letter, the statement has its number.
  intro same
  rw [statementLine_eq, markLine_eq] at same
  obtain ⟨-, same⟩ := margin_append_inj h.proper proper same
  obtain ⟨c, digits, number⟩ := List.exists_cons_of_ne_nil (Nat.toDigits_ne_nil (n := s.number) (b := 10))
  have digit : c.isDigit = true := Text.isDigit_of_mem_ofNat (n := s.number) (by simp [Text.ofNat, number])
  rw [Text.ofNat, number] at same
  obtain ⟨rfl, -⟩ := List.cons.inj same
  cases digit

theorem lines_ne_mark {items : List Item} (h : ∀ i ∈ items, Shown i.statement) {lineage : Lineage}
    (proper : lineage.Proper) (rest : List Text) : items.flatMap Item.lines ≠ markLine lineage :: rest := by
  cases items with
  | nil => exact nofun
  | cons i items =>
      intro same
      exact statementLine_ne_markLine (h i List.mem_cons_self) proper (List.cons.inj same).1

theorem items_of_lines {items items' : List Item} (h : ∀ i ∈ items, Shown i.statement)
    (h' : ∀ i ∈ items', Shown i.statement)
    (same : items.flatMap Item.lines = items'.flatMap Item.lines) : items = items' := by
  induction items generalizing items' with
  | nil =>
      cases items' with
      | nil => rfl
      | cons i' items' => cases same
  | cons i items ih =>
      cases items' with
      | nil => cases same
      | cons i' items' =>
          obtain ⟨shown, below⟩ := List.forall_mem_cons.mp h
          obtain ⟨shown', below'⟩ := List.forall_mem_cons.mp h'
          clear h h'
          obtain ⟨statement, marked⟩ := i
          obtain ⟨statement', marked'⟩ := i'
          simp only [List.flatMap_cons, Item.lines, List.cons_append, List.cons.injEq] at same
          obtain ⟨line, same⟩ := same
          obtain rfl := statementLine_inj shown shown' line
          cases marked <;> cases marked'
          · rw [ih below below' same]
          · exact absurd same (lines_ne_mark below shown.proper _)
          · exact absurd same.symm (lines_ne_mark below' shown.proper _)
          · rw [ih below below' (List.cons.inj same).2]

theorem newline_not_mem_margin (lineage : Lineage) : '\n' ∉ margin lineage := by
  obtain ⟨depth, split⟩ := lineage
  have dashes : '\n' ∉ dashes depth := by
    unfold Outline.dashes
    split <;> simp
  cases split with
  | none => simpa [margin, origin] using dashes
  | some split =>
      have letter : '\n' ≠ split.side.letter := by cases split.side <;> decide
      simp [margin, origin, dashes, Text.newline_not_mem_ofNat, letter]

theorem newline_not_mem_lines {item : Item} (h : Shown item.statement) :
    ∀ line ∈ item.lines, '\n' ∉ line := by
  obtain ⟨a, ha, formula⟩ := h.strict
  have expandedMark : ∀ expanded : Bool, '\n' ∉ if expanded then '\t' :: expandedMark else [] := by
    decide
  have statement : '\n' ∉ statementLine item.statement := by
    rw [statementLine_eq, formula, Formula.display, Formula.sentence_ofSentence]
    simp only [List.mem_append, List.mem_cons, newline_not_mem_margin, Text.newline_not_mem_ofNat,
      ha.newline_not_mem, expandedMark]
    decide
  have mark : '\n' ∉ markLine item.statement.lineage := by
    simp [markLine_eq, newline_not_mem_margin]
  intro line hline
  rcases List.mem_cons.mp hline with rfl | hline
  · exact statement
  · cases marked : item.marked with
    | false => simp [marked] at hline
    | true =>
        simp only [marked, if_true, List.mem_singleton] at hline
        rw [hline]
        exact mark

theorem items_of_text {items items' : List Item} (h : ∀ i ∈ items, Shown i.statement)
    (h' : ∀ i ∈ items', Shown i.statement) (nonempty : items ≠ []) (nonempty' : items' ≠ [])
    (same : Text.joined ['\n'] (items.flatMap Item.lines) =
      Text.joined ['\n'] (items'.flatMap Item.lines)) : items = items' := by
  have split : ∀ items : List Item, (∀ i ∈ items, Shown i.statement) → items ≠ [] →
      (Text.joined ['\n'] (items.flatMap Item.lines)).splitOn '\n' = items.flatMap Item.lines := by
    intro items shown nonempty
    apply List.splitOn_intercalate
    · intro line hline
      obtain ⟨i, hi, hline⟩ := List.mem_flatMap.mp hline
      exact newline_not_mem_lines (shown i hi) line hline
    · obtain ⟨i, items, rfl⟩ := List.exists_cons_of_ne_nil nonempty
      exact List.cons_ne_nil _ _
  apply items_of_lines h h'
  rw [← split items h nonempty, same, split items' h' nonempty']

theorem lines_eq_flatMap (t : Tableau) : lines t = (t.traverse.map item).flatMap Item.lines := by
  rw [lines, List.flatMap_map]
  exact List.flatMap_congr fun p _ => placeLines_eq_lines p

end Outline

end TruthTree
