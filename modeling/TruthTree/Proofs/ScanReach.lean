import TruthTree.Proofs.Normalization

/-! How far a scan reaches. The scanner knows an alphabet of spacing, parentheses and token characters. It
gets to the end of a text over that alphabet. In any other text it gets to the first foreign character,
which it reports with its position, after the tokens of the text before it. -/
namespace TruthTree

namespace Scan

def isLegal (c : Char) : Bool := isSpacing c || c = '(' || c = ')' || isAtomChar c

theorem cons_eq_word_append (c : Char) (rest : Text) :
    c :: rest = (c :: rest.takeWhile isAtomChar) ++ rest.dropWhile isAtomChar := by
  rw [List.cons_append, List.takeWhile_append_dropWhile]

theorem illegal_of_legal (position : Nat) {t : Text} (h : ∀ c ∈ t, isLegal c = true) :
    (fromPosition position t).illegal = none := by
  fun_induction fromPosition position t with
  | case1 => rfl
  | case2 position c rest spacing ih => exact ih (List.forall_mem_cons.mp h).2
  | case3 position rest spacing ih => exact ih (List.forall_mem_cons.mp h).2
  | case4 position rest spacing opening ih => exact ih (List.forall_mem_cons.mp h).2
  | case5 position c rest spacing opening closing atomChar word ih =>
      refine ih fun x hx => h x (List.mem_cons_of_mem c ?_)
      exact (List.dropWhile_sublist _).subset hx
  | case6 position c rest spacing opening closing other =>
      have legal := h c List.mem_cons_self
      simp [isLegal, spacing, opening, closing, other] at legal

theorem fromPosition_cons_foreign {c : Char} (foreign : isLegal c = false) (position : Nat)
    (after : Text) : fromPosition position (c :: after) = ⟨[], some ⟨c, position⟩⟩ := by
  simp only [isLegal, Bool.or_eq_false_iff, decide_eq_false_iff_not] at foreign
  obtain ⟨⟨⟨spacing, opening⟩, closing⟩, atomChar⟩ := foreign
  rw [fromPosition]
  simp [spacing, opening, closing, atomChar]

theorem fromPosition_foreign {position stop : Nat} {before : Text} {c : Char} (after : Text)
    (legal : ∀ x ∈ before, isLegal x = true) (foreign : isLegal c = false)
    (hstop : position + before.length = stop) :
    fromPosition position (before ++ c :: after) =
      ⟨(fromPosition position before).tokens, some ⟨c, stop⟩⟩ := by
  have reach := fun position => fromPosition_cons_foreign foreign position after
  fun_induction fromPosition position before with
  | case1 position =>
      subst hstop
      exact reach position
  | case2 position x rest spacing ih =>
      rw [List.length_cons] at hstop
      rw [List.cons_append, fromPosition, if_pos spacing]
      exact ih (List.forall_mem_cons.mp legal).2 (by omega)
  | case3 position rest spacing ih =>
      rw [List.length_cons] at hstop
      rw [List.cons_append, fromPosition_opening, ih (List.forall_mem_cons.mp legal).2 (by omega)]
      rfl
  | case4 position rest spacing opening ih =>
      rw [List.length_cons] at hstop
      rw [List.cons_append, fromPosition_closing, ih (List.forall_mem_cons.mp legal).2 (by omega)]
      rfl
  | case5 position x rest spacing opening closing atomChar word ih =>
      -- The foreign character is no token character, so no word runs over it.
      have stops : ∀ y ∈ (rest.dropWhile isAtomChar ++ c :: after).head?, isAtomChar y = false := by
        have atEnd := List.head?_dropWhile_not isAtomChar rest
        intro y hy
        rw [List.head?_append] at hy
        cases inside : (rest.dropWhile isAtomChar).head? with
        | some z => simp_all
        | none => simp_all [isLegal]
      have chars := forall_isAtomChar_word atomChar rest
      rw [cons_eq_word_append x rest, List.forall_mem_append] at legal
      rw [cons_eq_word_append x rest, List.length_append, ← Nat.add_assoc] at hstop
      rw [cons_eq_word_append x rest, List.append_assoc,
        fromPosition_word position (List.cons_ne_nil _ _) chars stops, ih legal.2 hstop]
      rfl
  | case6 position x rest spacing opening closing other =>
      have legal := legal x List.mem_cons_self
      simp [isLegal, spacing, opening, closing, other] at legal

theorem ofText_foreign {before : Text} {c : Char} (after : Text)
    (legal : ∀ x ∈ before, isLegal x = true) (foreign : isLegal c = false) :
    ofText (before ++ c :: after) = ⟨(ofText before).tokens, some ⟨c, before.length⟩⟩ :=
  fromPosition_foreign after legal foreign (Nat.zero_add _)

/-- A token stands where it says in a text whose first character has the given position, and there is no
foreign character before it. -/
def StandsIn (position : Nat) (t : Text) (token : Token) : Prop :=
  ∃ before after, t = before ++ token.value ++ after ∧ position + before.length = token.start ∧
    ∀ c ∈ before, isLegal c = true

theorem StandsIn.prepend {position next : Nat} {rest : Text} {token : Token} {word : Text}
    (h : StandsIn next rest token) (legal : ∀ c ∈ word, isLegal c = true)
    (hnext : position + word.length = next) : StandsIn position (word ++ rest) token := by
  obtain ⟨before, after, rfl, start, clear⟩ := h
  refine ⟨word ++ before, after, by simp, ?_, List.forall_mem_append.mpr ⟨legal, clear⟩⟩
  rw [List.length_append]
  omega

theorem standsIn_cons {token : Token} {tokens : List Token} {rest : Text}
    (legal : ∀ c ∈ token.value, isLegal c = true)
    (later : ∀ other ∈ tokens, StandsIn token.stop rest other) :
    ∀ other ∈ token :: tokens, StandsIn token.start (token.value ++ rest) other :=
  List.forall_mem_cons.mpr
    ⟨⟨[], rest, rfl, rfl, by simp⟩, fun other hother => (later other hother).prepend legal rfl⟩

theorem standsIn_fromPosition (position : Nat) (t : Text) :
    ∀ token ∈ (fromPosition position t).tokens, StandsIn position t token := by
  fun_induction fromPosition position t with
  | case1 => simp
  | case2 position c rest spacing ih =>
      have legal : ∀ x ∈ [c], isLegal x = true := by simp [isLegal, spacing]
      exact fun token later => (ih token later).prepend legal rfl
  | case3 position rest spacing ih => exact standsIn_cons (by simp [isLegal]) ih
  | case4 position rest spacing opening ih => exact standsIn_cons (by simp [isLegal]) ih
  | case5 position c rest spacing opening closing atomChar word ih =>
      have legal : ∀ x ∈ word, isLegal x = true := by
        intro x hx
        rw [isLegal, forall_isAtomChar_word atomChar rest x hx, Bool.or_true]
      rw [cons_eq_word_append]
      exact standsIn_cons legal ih
  | case6 => simp

theorem illegal_cases (t : Text) :
    ((ofText t).illegal = none ∧ ∀ c ∈ t, isLegal c = true) ∨
      ∃ before c after, t = before ++ c :: after ∧ (∀ x ∈ before, isLegal x = true) ∧
        isLegal c = false ∧ (ofText t).illegal = some ⟨c, before.length⟩ := by
  cases first : t.find? (fun c => !isLegal c) with
  | none =>
      have legal : ∀ c ∈ t, isLegal c = true := by simpa using first
      exact .inl ⟨illegal_of_legal 0 legal, legal⟩
  | some c =>
      obtain ⟨foreign, before, after, rfl, clear⟩ := List.find?_eq_some_iff_append.mp first
      have legal : ∀ x ∈ before, isLegal x = true := by simpa using clear
      have foreign : isLegal c = false := by simpa using foreign
      refine .inr ⟨before, c, after, rfl, legal, foreign, ?_⟩
      rw [ofText_foreign after legal foreign]

theorem illegal_eq_none_iff {t : Text} :
    (ofText t).illegal = none ↔ ∀ c ∈ t, isLegal c = true := by
  refine ⟨fun h => ?_, illegal_of_legal 0⟩
  obtain ⟨-, legal⟩ | ⟨before, c, after, -, -, -, found⟩ := illegal_cases t
  · exact legal
  · rw [h] at found
    cases found

end Scan

end TruthTree
