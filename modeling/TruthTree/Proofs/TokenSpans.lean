import TruthTree.Proofs.ScanReach

/-! The tokens of a text, said by positions in the text alone. Up to the first foreign character every
position that is not spacing lies in exactly one token, and a token is a parenthesis or a run of word
characters that cannot be made longer. There is only one way to divide a text like this, and the scan
finds it. -/
namespace TruthTree

def spacingChars : Text := [' ', '\t', '\r', '\n']

def IsWordChar (c : Char) : Prop :=
  'A' ≤ c ∧ c ≤ 'Z' ∨ 'a' ≤ c ∧ c ≤ 'z' ∨ '0' ≤ c ∧ c ≤ '9' ∨ c = '_' ∨ c = '\''

instance : DecidablePred IsWordChar := fun c =>
  inferInstanceAs (Decidable ('A' ≤ c ∧ c ≤ 'Z' ∨ 'a' ≤ c ∧ c ≤ 'z' ∨ '0' ≤ c ∧ c ≤ '9' ∨
    c = '_' ∨ c = '\''))

def IsForeign (c : Char) : Prop := c ≠ '(' ∧ c ≠ ')' ∧ c ∉ spacingChars ∧ ¬IsWordChar c

instance : DecidablePred IsForeign := fun c =>
  inferInstanceAs (Decidable (c ≠ '(' ∧ c ≠ ')' ∧ c ∉ spacingChars ∧ ¬IsWordChar c))

theorem isSpacing_iff {c : Char} : isSpacing c = true ↔ c ∈ spacingChars := by
  simp [isSpacing, spacingChars, or_assoc]

theorem isAtomChar_iff {c : Char} : isAtomChar c = true ↔ IsWordChar c := by
  simp only [isAtomChar, IsWordChar, Char.isAlphanum, Char.isAlpha, Char.isUpper, Char.isLower,
    Char.isDigit, Bool.or_eq_true, Bool.and_eq_true, decide_eq_true_eq, Char.le_def, or_assoc, ge_iff_le]

theorem not_isWordChar_of_mem_spacingChars {c : Char} (h : c ∈ spacingChars) : ¬IsWordChar c := by
  simp only [spacingChars, List.mem_cons, List.not_mem_nil, or_false] at h
  rcases h with rfl | rfl | rfl | rfl <;> decide

/-- The position of the first foreign character, or the length of the text if there is none. -/
def reach (t : Text) : Nat := t.findIdx fun c => IsForeign c

theorem reach_append {s : Text} (legal : ∀ c ∈ s, ¬IsForeign c) (t : Text) :
    reach (s ++ t) = s.length + reach t := by
  induction s with
  | nil => simp
  | cons c s ih =>
      obtain ⟨hc, hs⟩ := List.forall_mem_cons.mp legal
      have later := ih hs
      simp only [reach] at later ⊢
      simp only [List.cons_append, List.findIdx_cons, hc, decide_false, cond_false, later,
        List.length_cons]
      omega

/-- No run of word characters goes on from one text into the next. -/
def Apart (before after : Text) : Prop :=
  ∀ c ∈ before.getLast?, ∀ d ∈ after.head?, IsWordChar c → ¬IsWordChar d

theorem Apart.of_not_isWordChar {c : Char} (h : ¬IsWordChar c) (after : Text) : Apart [c] after := by
  rintro _ ⟨⟩ d hd wordChar
  exact absurd wordChar h

theorem Apart.append {before word after : Text} (nonempty : word ≠ []) (h : Apart word after) :
    Apart (before ++ word) after := by
  rwa [Apart, List.getLast?_append_of_ne_nil before nonempty]

theorem Apart.before {before word : Text} (h : Apart before word) (nonempty : word ≠ [])
    (chars : ∀ c ∈ word, IsWordChar c) : ∀ c ∈ before.getLast?, ¬IsWordChar c := by
  intro c hc wordChar
  obtain ⟨d, word, rfl⟩ := List.exists_cons_of_ne_nil nonempty
  exact h c hc d rfl wordChar (chars d List.mem_cons_self)

theorem Apart.after {word after : Text} (h : Apart word after) (nonempty : word ≠ [])
    (chars : ∀ c ∈ word, IsWordChar c) : ∀ d ∈ after.head?, ¬IsWordChar d := fun d hd =>
  h _ (List.getLast_mem_getLast? nonempty) d hd (chars _ (List.getLast_mem nonempty))

theorem TokenKind.name_injective : Function.Injective name := by
  let kinds : List TokenKind :=
    opening :: closing :: negation :: atom :: Connective.all.map connective
  have mem_kinds : ∀ kind, kind ∈ kinds := by
    intro kind
    cases kind <;> simp [kinds, Connective.mem_all]
  have distinct : ∀ a ∈ kinds, ∀ b ∈ kinds, a.name = b.name → a = b := by decide
  exact fun a b => distinct a (mem_kinds a) b (mem_kinds b)

namespace Token

def typeNames : List (Text × String) :=
  [(['('], "LPAREN"), ([')'], "RPAREN"), (['n', 'o', 't'], "NOT"), (['a', 'n', 'd'], "AND"),
    (['o', 'r'], "OR"), (['i', 'f'], "IF"), (['i', 'f', 'f'], "IFF")]

structure IsMaximalRun (t : Text) (token : Token) : Prop where
  chars : ∀ c ∈ token.value, IsWordChar c
  before : ∀ i c, i + 1 = token.start → t[i]? = some c → ¬IsWordChar c
  after : ∀ c, t[token.stop]? = some c → ¬IsWordChar c

/-- A token of a text by its place: a slice of what can be scanned that is a parenthesis or a maximal run,
with the type that goes with its spelling. -/
structure IsLexeme (t : Text) (token : Token) : Prop where
  nonempty : token.start < token.stop
  within : token.stop ≤ reach t
  value : token.value = t.extract token.start token.stop
  shape : token.value = ['('] ∨ token.value = [')'] ∨ token.IsMaximalRun t
  type : token.kind.name = (typeNames.lookup token.value).getD "ATOM"

theorem Genuine.type {token : Token} (h : token.Genuine) :
    token.kind.name = (typeNames.lookup token.value).getD "ATOM" := by
  cases h with
  | opening start => rfl
  | closing start => rfl
  | @word value start nonempty chars =>
      change (TokenKind.ofWord value).name = _
      rcases TokenKind.ofWord_cases value with ⟨rfl, kind⟩ | ⟨op, rfl, kind⟩ | ⟨negation, keyword, kind⟩
      · rw [kind]
        rfl
      · rw [kind]
        cases op <;> rfl
      · have parenthesis : ∀ c, isAtomChar c = false → value ≠ [c] := by
          rintro c other rfl
          simp [other] at chars
        have absent : typeNames.lookup value = none := by
          rw [List.lookup_eq_none_iff]
          simp only [typeNames, List.forall_mem_cons, bne_iff_ne]
          exact ⟨parenthesis '(' (by decide), parenthesis ')' (by decide), negation,
            keyword .conjunction, keyword .disjunction, keyword .conditional, keyword .biconditional,
            by simp⟩
        rw [kind, absent]
        rfl

theorem Genuine.value_ne_nil {token : Token} (h : token.Genuine) : token.value ≠ [] := by
  cases h with
  | opening start => exact List.cons_ne_nil _ _
  | closing start => exact List.cons_ne_nil _ _
  | word start nonempty chars => exact nonempty

theorem Genuine.not_isForeign {token : Token} (h : token.Genuine) : ∀ c ∈ token.value, ¬IsForeign c := by
  cases h with
  | opening start => simp [IsForeign]
  | closing start => simp [IsForeign]
  | word start nonempty chars => exact fun c hc foreign => foreign.2.2.2 (isAtomChar_iff.mp (chars c hc))

theorem isMaximalRun_of_apart {token : Token} {before after : Text} (nonempty : token.value ≠ [])
    (chars : ∀ c ∈ token.value, IsWordChar c) (start : before.length = token.start)
    (left : Apart before token.value) (right : Apart token.value after) :
    token.IsMaximalRun (before ++ token.value ++ after) where
  chars := chars
  before := by
    intro i c hi here
    apply left.before nonempty chars
    rw [Option.mem_def, List.getLast?_eq_getElem?, start, ← hi, Nat.add_sub_cancel, ← here,
      List.append_assoc]
    exact (List.getElem?_append_left (by omega)).symm
  after := by
    intro c here
    have length : (before ++ token.value).length = token.stop := by
      rw [List.length_append, start, stop]
    apply right.after nonempty chars
    rw [Option.mem_def, List.head?_eq_getElem?, ← here, ← length,
      List.getElem?_append_right (Nat.le_refl _), Nat.sub_self]

theorem Genuine.isLexeme {token : Token} (h : token.Genuine) {before after : Text}
    (start : before.length = token.start) (legal : ∀ c ∈ before, ¬IsForeign c)
    (left : Apart before token.value) (right : Apart token.value after) :
    token.IsLexeme (before ++ token.value ++ after) where
  nonempty := Nat.lt_add_of_pos_right (List.length_pos_iff.mpr h.value_ne_nil)
  within := by
    have clear := List.forall_mem_append.mpr ⟨legal, h.not_isForeign⟩
    rw [reach_append clear, List.length_append, start]
    exact Nat.le_add_right _ _
  value := by
    rw [stop, ← start, List.extract_eq_take_drop, Nat.add_sub_cancel_left, List.append_assoc,
      List.drop_left, List.take_left]
  shape := by
    cases h with
    | opening position => exact .inl rfl
    | closing position => exact .inr (.inl rfl)
    | word position nonempty chars =>
        have wordChars := fun c hc => isAtomChar_iff.mp (chars c hc)
        exact .inr (.inr (isMaximalRun_of_apart nonempty wordChars start left right))
  type := h.type

theorem IsLexeme.mem_value {t : Text} {token : Token} (h : token.IsLexeme t) {i : Nat} {c : Char}
    (lower : token.start ≤ i) (upper : i < token.stop) (here : t[i]? = some c) : c ∈ token.value := by
  have place : token.start + (i - token.start) = i := by omega
  apply List.mem_of_getElem? (i := i - token.start)
  rw [h.value, List.extract_eq_take_drop, List.getElem?_take_of_lt (by omega), List.getElem?_drop,
    place, here]

theorem IsLexeme.not_mem_spacingChars {t : Text} {token : Token} (h : token.IsLexeme t) {c : Char}
    (hc : c ∈ token.value) : c ∉ spacingChars := by
  rcases h.shape with opening | closing | run
  · rw [opening, List.mem_singleton] at hc
    subst hc
    decide
  · rw [closing, List.mem_singleton] at hc
    subst hc
    decide
  · exact fun spacing => not_isWordChar_of_mem_spacingChars spacing (run.chars c hc)

theorem IsLexeme.exists_char {t : Text} {token : Token} (h : token.IsLexeme t) {i : Nat}
    (upper : i < token.stop) : ∃ c, t[i]? = some c := by
  have within : reach t ≤ t.length := List.findIdx_le_length
  have bound : i < t.length := Nat.lt_of_lt_of_le upper (h.within.trans within)
  exact ⟨_, List.getElem?_eq_getElem bound⟩

theorem IsLexeme.single_or_run {t : Text} {token : Token} (h : token.IsLexeme t) :
    (∃ c, token.value = [c] ∧ ¬IsWordChar c) ∨ token.IsMaximalRun t := by
  rcases h.shape with opening | closing | run
  · exact .inl ⟨'(', opening, by decide⟩
  · exact .inl ⟨')', closing, by decide⟩
  · exact .inr run

theorem IsMaximalRun.start_le {t : Text} {a b : Token} (ha : a.IsLexeme t) (runA : a.IsMaximalRun t)
    (runB : b.IsMaximalRun t) (meets : b.start < a.stop) : b.start ≤ a.start := by
  by_contra later
  obtain ⟨c, here⟩ := ha.exists_char (i := b.start - 1) (by omega)
  have wordChar := runA.chars c (ha.mem_value (by omega) (by omega) here)
  exact runB.before _ c (by omega) here wordChar

theorem IsMaximalRun.le_stop {t : Text} {a b : Token} (ha : a.IsLexeme t) (runA : a.IsMaximalRun t)
    (runB : b.IsMaximalRun t) (meets : a.start < b.stop) : a.stop ≤ b.stop := by
  by_contra later
  obtain ⟨c, here⟩ := ha.exists_char (i := b.stop) (by omega)
  have wordChar := runA.chars c (ha.mem_value (by omega) (by omega) here)
  exact runB.after c here wordChar

theorem IsLexeme.same_span {t : Text} {a b : Token} (ha : a.IsLexeme t) (hb : b.IsLexeme t) {i : Nat}
    (inA : a.start ≤ i ∧ i < a.stop) (inB : b.start ≤ i ∧ i < b.stop) :
    a.start = b.start ∧ a.stop = b.stop := by
  obtain ⟨c, here⟩ := ha.exists_char inA.2
  have memA := ha.mem_value inA.1 inA.2 here
  have memB := hb.mem_value inB.1 inB.2 here
  rcases ha.single_or_run with ⟨x, valueA, notWord⟩ | runA
  · rcases hb.single_or_run with ⟨y, valueB, -⟩ | runB
    · -- Neither token has another position than the common one.
      simp only [stop, valueA, valueB, List.length_singleton] at inA inB ⊢
      omega
    · -- A parenthesis is in no run.
      obtain rfl : c = x := by simpa [valueA] using memA
      exact absurd (runB.chars c memB) notWord
  · rcases hb.single_or_run with ⟨y, valueB, notWord⟩ | runB
    · obtain rfl : c = y := by simpa [valueB] using memB
      exact absurd (runA.chars c memA) notWord
    · have starts := runA.start_le ha runB (by omega)
      have starts' := runB.start_le hb runA (by omega)
      have stops := runA.le_stop ha runB (by omega)
      have stops' := runB.le_stop hb runA (by omega)
      omega

theorem IsLexeme.eq_of_meet {t : Text} {a b : Token} (ha : a.IsLexeme t) (hb : b.IsLexeme t) {i : Nat}
    (inA : a.start ≤ i ∧ i < a.stop) (inB : b.start ≤ i ∧ i < b.stop) : a = b := by
  obtain ⟨start, stop⟩ := ha.same_span hb inA inB
  have value : a.value = b.value := by rw [ha.value, hb.value, start, stop]
  have kind : a.kind = b.kind := by
    apply TokenKind.name_injective
    rw [ha.type, hb.type, value]
  cases a
  cases b
  congr

end Token

namespace Scan

/-- A scan that divides a text from a position on. Its tokens stand in order and do not overlap. They cover
what is not spacing, up to the first foreign character, and this character is the illegal one. -/
structure Divides (position : Nat) (t : Text) (scan : Scan) : Prop where
  lexemes : ∀ token ∈ scan.tokens, token.IsLexeme t
  later : ∀ token ∈ scan.tokens, position ≤ token.start
  ordered : scan.tokens.Pairwise fun a b => a.stop ≤ b.start
  covered : ∀ i c, position ≤ i → i < reach t → t[i]? = some c →
    ((∃ token ∈ scan.tokens, token.start ≤ i ∧ i < token.stop) ↔ c ∉ spacingChars)
  illegal : scan.illegal = t[reach t]?.map fun c => ⟨c, reach t⟩

namespace Divides

variable {t : Text} {scan : Scan}

theorem finish (t : Text) : Divides (reach t) t ⟨[], t[reach t]?.map fun c => ⟨c, reach t⟩⟩ where
  lexemes := by simp
  later := by simp
  ordered := .nil
  covered := by
    intro i c lower upper
    omega
  illegal := rfl

theorem skip {position : Nat} {c : Char} (here : t[position]? = some c) (spacing : c ∈ spacingChars)
    (h : Divides (position + 1) t scan) : Divides position t scan where
  lexemes := h.lexemes
  later token htoken := Nat.le_of_succ_le (h.later token htoken)
  ordered := h.ordered
  covered := by
    intro i d lower upper there
    rcases Nat.eq_or_lt_of_le lower with rfl | lower
    · obtain rfl : c = d := Option.some.inj (here.symm.trans there)
      refine ⟨?_, absurd spacing⟩
      rintro ⟨token, htoken, covers, -⟩
      have later := h.later token htoken
      omega
    · exact h.covered i d lower upper there
  illegal := h.illegal

theorem cons {token : Token} (lexeme : token.IsLexeme t) (h : Divides token.stop t scan) :
    Divides token.start t (scan.cons token) where
  lexemes := List.forall_mem_cons.mpr ⟨lexeme, h.lexemes⟩
  later := by
    refine List.forall_mem_cons.mpr ⟨Nat.le_refl _, fun other hother => ?_⟩
    exact Nat.le_trans (Nat.le_of_lt lexeme.nonempty) (h.later other hother)
  ordered := List.pairwise_cons.mpr ⟨h.later, h.ordered⟩
  covered := by
    intro i c lower upper here
    simp only [tokens_cons, List.mem_cons, exists_eq_or_imp]
    by_cases inside : i < token.stop
    · have notSpacing := lexeme.not_mem_spacingChars (lexeme.mem_value lower inside here)
      exact iff_of_true (.inl ⟨lower, inside⟩) notSpacing
    · rw [or_iff_right fun covers => inside covers.2]
      exact h.covered i c (Nat.le_of_not_lt inside) upper here
  illegal := h.illegal

end Divides

/-- The scan of `t` has come to a position with `rest` left to read. It has met no foreign character so
far, and it stands at no place inside a run. -/
def Remains (t : Text) (position : Nat) (rest : Text) : Prop :=
  ∃ before, before ++ rest = t ∧ before.length = position ∧ (∀ c ∈ before, ¬IsForeign c) ∧
    Apart before rest

namespace Remains

variable {t rest : Text} {position : Nat}

theorem all (t : Text) : Remains t 0 t := ⟨[], rfl, rfl, by simp, by simp [Apart]⟩

theorem getElem? (h : Remains t position rest) : t[position]? = rest.head? := by
  obtain ⟨before, rfl, rfl, -, -⟩ := h
  rw [List.head?_eq_getElem?, List.getElem?_append_right (Nat.le_refl _), Nat.sub_self]

theorem reach_eq (h : Remains t position rest) (stop : ∀ c ∈ rest.head?, IsForeign c) :
    reach t = position := by
  obtain ⟨before, rfl, rfl, legal, -⟩ := h
  rw [reach_append legal]
  cases rest with
  | nil => rfl
  | cons c rest => simp [reach, List.findIdx_cons, stop c rfl]

theorem spacing {c : Char} (h : Remains t position (c :: rest)) (spacing : c ∈ spacingChars) :
    Remains t (position + 1) rest := by
  obtain ⟨before, rfl, rfl, legal, -⟩ := h
  have apart := Apart.of_not_isWordChar (not_isWordChar_of_mem_spacingChars spacing) rest
  refine ⟨before ++ [c], by simp, by simp, ?_, apart.append (by simp)⟩
  exact List.forall_mem_append.mpr ⟨legal, by simp [IsForeign, spacing]⟩

theorem token {token : Token} {after : Text} (h : Remains t token.start (token.value ++ after))
    (genuine : token.Genuine) (right : Apart token.value after) :
    token.IsLexeme t ∧ Remains t token.stop after := by
  obtain ⟨before, rfl, start, legal, left⟩ := h
  have nonempty := genuine.value_ne_nil
  have clear := List.forall_mem_append.mpr ⟨legal, genuine.not_isForeign⟩
  rw [Apart, List.head?_append_of_ne_nil _ nonempty] at left
  rw [← List.append_assoc]
  refine ⟨genuine.isLexeme start legal left right, before ++ token.value, rfl, ?_, clear,
    right.append nonempty⟩
  rw [List.length_append, start, Token.stop]

end Remains

theorem apart_word (c : Char) (rest : Text) :
    Apart (c :: rest.takeWhile isAtomChar) (rest.dropWhile isAtomChar) := by
  have stops := List.head?_dropWhile_not isAtomChar rest
  intro x _ d hd _ wordChar
  rw [Option.mem_def.mp hd] at stops
  exact absurd (isAtomChar_iff.mpr wordChar) (by simp [stops])

theorem divides_fromPosition {t rest : Text} {position : Nat} (h : Remains t position rest) :
    Divides position t (fromPosition position rest) := by
  fun_induction fromPosition position rest with
  | case1 position =>
      have finish := Divides.finish t
      rw [h.reach_eq (by simp), h.getElem?] at finish
      exact finish
  | case2 position c rest spacing ih =>
      have spacing := isSpacing_iff.mp spacing
      exact .skip h.getElem? spacing (ih (h.spacing spacing))
  | case3 position rest spacing ih =>
      have parenthesis := Apart.of_not_isWordChar (c := '(') (by decide) rest
      obtain ⟨lexeme, next⟩ := Remains.token h (.opening position) parenthesis
      exact .cons lexeme (ih next)
  | case4 position rest spacing opening ih =>
      have parenthesis := Apart.of_not_isWordChar (c := ')') (by decide) rest
      obtain ⟨lexeme, next⟩ := Remains.token h (.closing position) parenthesis
      exact .cons lexeme (ih next)
  | case5 position c rest spacing opening closing atomChar word ih =>
      have genuine := Token.Genuine.word position (List.cons_ne_nil _ _)
        (forall_isAtomChar_word atomChar rest)
      rw [cons_eq_word_append] at h
      obtain ⟨lexeme, next⟩ := Remains.token h genuine (apart_word c rest)
      exact .cons lexeme (ih next)
  | case6 position c rest spacing opening closing other =>
      rw [isSpacing_iff] at spacing
      rw [isAtomChar_iff] at other
      have foreign : IsForeign c := ⟨opening, closing, spacing, other⟩
      have finish := Divides.finish t
      rw [h.reach_eq (by simpa using foreign), h.getElem?] at finish
      exact finish

theorem divides_ofText (t : Text) : Divides 0 t (ofText t) := divides_fromPosition (.all t)

namespace Divides

variable {t : Text} {a b : Scan}

theorem tokens_subset (ha : Divides 0 t a) (hb : Divides 0 t b) : a.tokens ⊆ b.tokens := by
  intro token htoken
  have lexeme := ha.lexemes token htoken
  have inside : token.start ≤ token.start ∧ token.start < token.stop := ⟨le_rfl, lexeme.nonempty⟩
  have reached : token.start < reach t := Nat.lt_of_lt_of_le lexeme.nonempty lexeme.within
  obtain ⟨c, here⟩ := lexeme.exists_char lexeme.nonempty
  have notSpacing := (ha.covered _ c (Nat.zero_le _) reached here).mp ⟨token, htoken, inside⟩
  obtain ⟨other, hother, covers⟩ := (hb.covered _ c (Nat.zero_le _) reached here).mpr notSpacing
  rw [lexeme.eq_of_meet (hb.lexemes other hother) inside covers]
  exact hother

theorem nodup (h : Divides 0 t a) : a.tokens.Nodup := by
  refine h.ordered.imp_of_mem ?_
  rintro token _ htoken - before rfl
  exact absurd (h.lexemes token htoken).nonempty (Nat.not_lt.mpr before)

theorem unique (ha : Divides 0 t a) (hb : Divides 0 t b) : a = b := by
  have members : ∀ token, token ∈ a.tokens ↔ token ∈ b.tokens :=
    fun token => ⟨fun h => ha.tokens_subset hb h, fun h => hb.tokens_subset ha h⟩
  have permuted := (List.perm_ext_iff_of_nodup ha.nodup hb.nodup).mpr members
  have tokens : a.tokens = b.tokens := by
    refine permuted.eq_of_pairwise ?_ ha.ordered hb.ordered
    intro x y hx hy before after
    have nonempty := (ha.lexemes x hx).nonempty
    have nonempty' := (hb.lexemes y hy).nonempty
    omega
  have illegal : a.illegal = b.illegal := ha.illegal.trans hb.illegal.symm
  cases a
  cases b
  congr

end Divides

/-- The tokens of a text divide it up to its first foreign character, which is reported with its position;
without such a character they divide all of it. Nothing else divides the text. -/
theorem ofText_only_division (t : Text) :
    Divides 0 t (ofText t) ∧ ∀ scan, Divides 0 t scan → scan = ofText t :=
  ⟨divides_ofText t, fun _ h => h.unique (divides_ofText t)⟩

-- A name that starts like a keyword, a keyword, and a name that a foreign character follows.
theorem ofText_only_division_keywords :
    let t := "(nota iff\tP'~Q)".toList
    let scan : Scan :=
      ⟨[⟨.opening, ['('], 0⟩, ⟨.atom, "nota".toList, 1⟩,
        ⟨.connective .biconditional, "iff".toList, 6⟩, ⟨.atom, "P'".toList, 10⟩], some ⟨'~', 12⟩⟩
    Divides 0 t scan ∧ ∀ other, Divides 0 t other → other = scan := by
  intro t scan
  have scanned : ofText t = scan := by
    unfold t scan
    cbv
  rw [← scanned]
  exact ofText_only_division t

end Scan

end TruthTree
