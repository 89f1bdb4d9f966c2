import TruthTree.Proofs.StrictReading

/-! The strict grammar accepts exactly the texts whose tokens are those of a sentence. The reader keeps
track of the symbols that it has taken, so what it completes has just these symbols; and it takes the
symbols of a sentence to that sentence, whatever has been opened before. A canonical text is scanned
to the symbols of its sentence, so normalizing it changes nothing. -/
namespace TruthTree

def Token.symbol (token : Token) : TokenKind × Text := (token.kind, token.value)

def TokenKind.spelling? : TokenKind → Option Text
  | opening => some ['(']
  | closing => some [')']
  | negation => some notKeyword
  | connective op => some op.keyword
  | atom => none

@[simp] theorem TokenKind.ofWord_notKeyword : ofWord notKeyword = negation := rfl

@[simp] theorem TokenKind.ofWord_keyword (op : Connective) : ofWord op.keyword = connective op := by
  cases op <;> rfl

theorem TokenKind.spelling?_ofWord {word spelling : Text}
    (h : (ofWord word).spelling? = some spelling) : word = spelling := by
  rcases ofWord_cases word with ⟨same, kind⟩ | ⟨op, same, kind⟩ | ⟨-, -, kind⟩
  · rw [kind] at h
    exact same.trans (Option.some.inj h)
  · rw [kind] at h
    exact same.trans (Option.some.inj h)
  · rw [kind] at h
    cases h

theorem Token.Genuine.symbol_eq {token : Token} (h : token.Genuine) {spelling : Text}
    (known : token.kind.spelling? = some spelling) : token.symbol = (token.kind, spelling) := by
  cases h with
  | opening start => rw [← Option.some.inj known]; rfl
  | closing start => rw [← Option.some.inj known]; rfl
  | word start nonempty chars => rw [← TokenKind.spelling?_ofWord known]; rfl

namespace Scan

def symbols (scan : Scan) : List (TokenKind × Text) := scan.tokens.map Token.symbol

@[simp] theorem symbols_cons (token : Token) (scan : Scan) :
    (scan.cons token).symbols = token.symbol :: scan.symbols := rfl

end Scan

namespace Pending

def symbols : Pending → List (TokenKind × Text)
  | negation => [(.opening, ['(']), (.negation, notKeyword)]
  | left op => [(.opening, ['(']), (.connective op, op.keyword)]
  | right op a => (.opening, ['(']) :: (.connective op, op.keyword) :: a.symbols

/-- What has been read of all opened sentences, of which the outermost comes last. -/
def allSymbols : List Pending → List (TokenKind × Text)
  | [] => []
  | p :: opened => allSymbols opened ++ p.symbols

end Pending

namespace Reading

open Pending

/-- The symbols that have been taken to come to a reading. -/
def ReadFrom (symbols : List (TokenKind × Text)) : Reading → Prop
  | operand opened => symbols = allSymbols opened
  | keyword opened => symbols = allSymbols opened ++ [(.opening, ['('])]
  | closing done opened => symbols ++ [(.closing, [')'])] = allSymbols opened ++ done.symbols
  | complete done => symbols = done.symbols

theorem readFrom_supply {symbols : List (TokenKind × Text)} {done : Sentence} {opened : List Pending}
    (h : symbols = allSymbols opened ++ done.symbols) : (supply done opened).ReadFrom symbols := by
  subst h
  cases opened with
  | nil => simp [supply, ReadFrom, allSymbols]
  | cons p opened => cases p <;> simp [supply, ReadFrom, allSymbols, symbols, Sentence.symbols]

theorem readFrom_step {symbols : List (TokenKind × Text)} {reading next : Reading} {token : Token}
    (h : reading.ReadFrom symbols) (genuine : token.Genuine) (hstep : reading.step token = some next) :
    next.ReadFrom (symbols ++ [token.symbol]) := by
  unfold step at hstep
  split at hstep
  · next opened kind =>
      cases hstep
      apply readFrom_supply
      rw [show symbols = allSymbols opened from h, Token.symbol, kind]
      rfl
  · next opened kind =>
      cases hstep
      rw [genuine.symbol_eq (by rw [kind]; rfl), kind, show symbols = allSymbols opened from h]
      rfl
  · next opened kind =>
      cases hstep
      rw [genuine.symbol_eq (by rw [kind]; rfl), kind, show symbols = _ from h]
      simp [ReadFrom, allSymbols, Pending.symbols]
  · next opened op kind =>
      cases hstep
      rw [genuine.symbol_eq (by rw [kind]; rfl), kind, show symbols = _ from h]
      simp [ReadFrom, allSymbols, Pending.symbols]
  · next done opened kind =>
      cases hstep
      apply readFrom_supply
      rw [genuine.symbol_eq (by rw [kind]; rfl), kind]
      exact h
  · cases hstep

end Reading

namespace Sentence

theorem symbols_of_readTokens {illegal : Option IllegalCharacter} {reading : Reading}
    {tokens : List Token} {s : Sentence} {symbols : List (TokenKind × Text)}
    (h : reading.ReadFrom symbols) (genuine : ∀ token ∈ tokens, token.Genuine)
    (accepted : readTokens illegal reading tokens = .ok s) :
    illegal = none ∧ symbols ++ tokens.map Token.symbol = s.symbols := by
  induction tokens generalizing reading symbols with
  | nil =>
      unfold readTokens at accepted
      split at accepted
      · cases accepted
      · cases accepted
        exact ⟨rfl, by simpa [Reading.ReadFrom] using h⟩
      · cases accepted
  | cons token tokens ih =>
      obtain ⟨htoken, htokens⟩ := List.forall_mem_cons.mp genuine
      rw [readTokens] at accepted
      split at accepted
      · next next step =>
          have later := ih (Reading.readFrom_step h htoken step) htokens accepted
          simpa using later
      · cases accepted

theorem readTokens_cons {illegal : Option IllegalCharacter} {reading next : Reading} {token : Token}
    (h : reading.step token = some next) (tokens : List Token) :
    readTokens illegal reading (token :: tokens) = readTokens illegal next tokens := by
  rw [readTokens, h]

theorem step_of_symbol {reading : Reading} {token : Token} {kind : TokenKind} {value : Text}
    (h : token.symbol = (kind, value)) : reading.step token = reading.step ⟨kind, value, 0⟩ := by
  obtain ⟨rfl, rfl⟩ := Prod.mk.inj h
  rfl

theorem readTokens_symbols (illegal : Option IllegalCharacter) {s : Sentence} {tokens : List Token}
    (h : tokens.map Token.symbol = s.symbols) (opened : List Pending) (more : List Token) :
    readTokens illegal (.operand opened) (tokens ++ more) =
      readTokens illegal (.supply s opened) more := by
  induction s generalizing tokens opened more with
  | atom name =>
      obtain ⟨token, rfl, symbol⟩ := List.map_eq_singleton_iff.mp h
      exact readTokens_cons (step_of_symbol symbol) more
  | negation a ih =>
      obtain ⟨first, rest, rfl, hfirst, h⟩ := List.map_eq_cons_iff.mp h
      obtain ⟨second, rest, rfl, hsecond, h⟩ := List.map_eq_cons_iff.mp h
      obtain ⟨inner, last, rfl, hinner, h⟩ := List.map_eq_append_iff.mp h
      obtain ⟨last, rfl, hlast⟩ := List.map_eq_singleton_iff.mp h
      simp only [List.cons_append, List.append_assoc, List.nil_append]
      rw [readTokens_cons (step_of_symbol hfirst), readTokens_cons (step_of_symbol hsecond),
        ih hinner, Reading.supply, readTokens_cons (step_of_symbol hlast)]
  | compound op a b iha ihb =>
      obtain ⟨first, rest, rfl, hfirst, h⟩ := List.map_eq_cons_iff.mp h
      obtain ⟨second, rest, rfl, hsecond, h⟩ := List.map_eq_cons_iff.mp h
      obtain ⟨inner, last, rfl, hinner, h⟩ := List.map_eq_append_iff.mp h
      obtain ⟨last, rfl, hlast⟩ := List.map_eq_singleton_iff.mp h
      obtain ⟨left, right, rfl, hleft, hright⟩ := List.map_eq_append_iff.mp hinner
      simp only [List.cons_append, List.append_assoc, List.nil_append]
      rw [readTokens_cons (step_of_symbol hfirst), readTokens_cons (step_of_symbol hsecond),
        iha hleft, Reading.supply, ihb hright, Reading.supply,
        readTokens_cons (step_of_symbol hlast)]

theorem read_eq_ok_iff {t : Text} {s : Sentence} :
    read t = .ok s ↔ (Scan.ofText t).illegal = none ∧ (Scan.ofText t).symbols = s.symbols := by
  constructor
  · intro accepted
    have start : (Reading.operand []).ReadFrom [] := rfl
    exact symbols_of_readTokens start (Scan.genuine_fromPosition 0 t) accepted
  · rintro ⟨legal, symbols⟩
    have reading := readTokens_symbols none symbols [] []
    rw [List.append_nil] at reading
    rw [read, legal, reading]
    rfl

theorem symbols_injective : Function.Injective symbols := by
  intro a b same
  let tokens := a.symbols.map fun symbol => (⟨symbol.1, symbol.2, 0⟩ : Token)
  have symbols : tokens.map Token.symbol = a.symbols := by
    simp only [tokens, List.map_map]
    exact List.map_id a.symbols
  have first := readTokens_symbols none symbols [] []
  have second := readTokens_symbols none (symbols.trans same) [] []
  exact Except.ok.inj (first.symm.trans second)

end Sentence

namespace Scan

theorem fromPosition_space (position : Nat) (rest : Text) :
    fromPosition position (' ' :: rest) = fromPosition (position + 1) rest := by
  rw [fromPosition]
  rfl

theorem fromPosition_opening (position : Nat) (rest : Text) :
    fromPosition position ('(' :: rest) =
      cons ⟨.opening, ['('], position⟩ (fromPosition (position + 1) rest) := by
  rw [fromPosition]
  rfl

theorem fromPosition_closing (position : Nat) (rest : Text) :
    fromPosition position (')' :: rest) =
      cons ⟨.closing, [')'], position⟩ (fromPosition (position + 1) rest) := by
  rw [fromPosition]
  rfl

theorem fromPosition_word {word rest : Text} (position : Nat) (nonempty : word ≠ [])
    (chars : ∀ c ∈ word, isAtomChar c = true) (stop : ∀ c ∈ rest.head?, isAtomChar c = false) :
    fromPosition position (word ++ rest) =
      cons ⟨.ofWord word, word, position⟩ (fromPosition (position + word.length) rest) := by
  obtain ⟨c, word, rfl⟩ := List.exists_cons_of_ne_nil nonempty
  obtain ⟨hc, chars⟩ := List.forall_mem_cons.mp chars
  have spacing : isSpacing c = false := by
    rw [← Bool.not_eq_true]
    intro h
    simp only [isSpacing, Bool.or_eq_true, decide_eq_true_eq] at h
    rcases h with ((rfl | rfl) | rfl) | rfl <;> exact absurd hc (by decide)
  have opening : c ≠ '(' := by
    rintro rfl
    exact absurd hc (by decide)
  have closing : c ≠ ')' := by
    rintro rfl
    exact absurd hc (by decide)
  have taken : (word ++ rest).takeWhile isAtomChar = word := takeWhile_append_of_stop chars stop
  have dropped : (word ++ rest).dropWhile isAtomChar = rest := by
    have split := List.takeWhile_append_dropWhile (p := isAtomChar) (l := word ++ rest)
    rw [taken] at split
    exact List.append_cancel_left split
  rw [List.cons_append, fromPosition]
  simp only [spacing, opening, closing, hc, taken, dropped, if_true, if_false, Bool.false_eq_true]

theorem space_stops (rest : Text) : ∀ c ∈ (' ' :: rest).head?, isAtomChar c = false := by
  rintro c ⟨⟩
  decide

theorem closing_stops (rest : Text) : ∀ c ∈ (')' :: rest).head?, isAtomChar c = false := by
  rintro c ⟨⟩
  decide

theorem isAtomChar_of_mem_notKeyword : ∀ c ∈ notKeyword, isAtomChar c = true :=
  List.all_eq_true.mp (by decide)

theorem isAtomChar_of_mem_keyword (op : Connective) : ∀ c ∈ op.keyword, isAtomChar c = true :=
  List.all_eq_true.mp (by cases op <;> decide)

theorem fromPosition_group {word : Text} (position : Nat) (nonempty : word ≠ [])
    (chars : ∀ c ∈ word, isAtomChar c = true) (inside : Text) :
    fromPosition position ('(' :: (word ++ ' ' :: inside)) =
      cons ⟨.opening, ['('], position⟩ (cons ⟨.ofWord word, word, position + 1⟩
        (fromPosition (position + word.length + 2) inside)) := by
  have next : position + 1 + word.length + 1 = position + word.length + 2 := by omega
  rw [fromPosition_opening, fromPosition_word _ nonempty chars (space_stops inside),
    fromPosition_space, next]

theorem fromPosition_written {s : Sentence} (h : s.Lexical) (position : Nat) {rest : Text}
    (stop : ∀ c ∈ rest.head?, isAtomChar c = false) :
    (fromPosition position (s.written ++ rest)).symbols =
        s.symbols ++ (fromPosition (position + s.written.length) rest).symbols ∧
      (fromPosition position (s.written ++ rest)).illegal =
        (fromPosition (position + s.written.length) rest).illegal := by
  induction s generalizing position rest with
  | atom name =>
      obtain ⟨nonempty, chars, kind⟩ := (Sentence.lexical_atom name).mp h
      rw [Sentence.written, fromPosition_word position nonempty chars stop, kind]
      exact ⟨rfl, rfl⟩
  | negation a ih =>
      have text : (Sentence.negation a).written ++ rest =
          '(' :: (notKeyword ++ ' ' :: (a.written ++ ')' :: rest)) := by
        simp [Sentence.written, Sentence.writtenNegation]
      have length : position + (Sentence.negation a).written.length =
          position + notKeyword.length + 2 + a.written.length + 1 := by
        simp only [Sentence.written, Sentence.writtenNegation, List.length_append, List.length_cons,
          List.length_nil]
        omega
      obtain ⟨symbols, illegal⟩ := ih h (position + notKeyword.length + 2) (closing_stops rest)
      rw [text, length, fromPosition_group position (by decide) isAtomChar_of_mem_notKeyword]
      simp only [symbols_cons, illegal_cons, symbols, illegal, fromPosition_closing]
      simp [Sentence.symbols, Token.symbol]
  | compound op a b iha ihb =>
      obtain ⟨ha, hb⟩ := (Sentence.lexical_compound op a b).mp h
      have text : (Sentence.compound op a b).written ++ rest =
          '(' :: (op.keyword ++ ' ' :: (a.written ++ ' ' :: (b.written ++ ')' :: rest))) := by
        simp [Sentence.written, Sentence.writtenCompound]
      have length : position + (Sentence.compound op a b).written.length =
          position + op.keyword.length + 2 + a.written.length + 1 + b.written.length + 1 := by
        simp only [Sentence.written, Sentence.writtenCompound, List.length_append, List.length_cons,
          List.length_nil]
        omega
      have left := iha ha (position + op.keyword.length + 2) (space_stops (b.written ++ ')' :: rest))
      have right := ihb hb (position + op.keyword.length + 2 + a.written.length + 1)
        (closing_stops rest)
      have nonempty : op.keyword ≠ [] := by cases op <;> decide
      rw [text, length, fromPosition_group position nonempty (isAtomChar_of_mem_keyword op)]
      simp only [symbols_cons, illegal_cons, left, right, fromPosition_space, fromPosition_closing]
      simp [Sentence.symbols, Token.symbol]

theorem ofText_written {s : Sentence} (h : s.Lexical) :
    (ofText s.written).illegal = none ∧ (ofText s.written).symbols = s.symbols := by
  have nothing : fromPosition (0 + s.written.length) [] = ⟨[], none⟩ := by rw [fromPosition]
  have scanned := @fromPosition_written s h 0 [] (by simp)
  rw [List.append_nil, nothing] at scanned
  rw [ofText]
  exact ⟨scanned.2, by simpa [symbols] using scanned.1⟩

end Scan

namespace Sentence

theorem read_written {s : Sentence} (h : s.Lexical) : read s.written = .ok s :=
  read_eq_ok_iff.mpr (Scan.ofText_written h)

theorem normalize_eq_ok_iff {t canonical : Text} :
    normalize t = .ok canonical ↔ ∃ s, read t = .ok s ∧ s.written = canonical := by
  unfold normalize
  cases read t with
  | error e => simp [Except.map]
  | ok s => simp [Except.map]

theorem normalize_written {s : Sentence} (h : s.Lexical) : normalize s.written = .ok s.written :=
  normalize_eq_ok_iff.mpr ⟨s, read_written h, rfl⟩

/-- The strict grammar accepts a text just when it has no illegal character and its tokens are those of
some sentence. There is only one such sentence; its canonical text is what the text is normalized to,
has the same tokens, and is normalized to itself. -/
theorem normalize_accepts_grammar (t : Text) :
    ((∃ canonical, normalize t = .ok canonical) ↔
      (Scan.ofText t).illegal = none ∧ ∃ s : Sentence, (Scan.ofText t).symbols = s.symbols) ∧
    ∀ s : Sentence, (Scan.ofText t).illegal = none → (Scan.ofText t).symbols = s.symbols →
      (∀ other : Sentence, (Scan.ofText t).symbols = other.symbols → other = s) ∧
      normalize t = .ok s.written ∧
      (Scan.ofText s.written).illegal = none ∧
      (Scan.ofText s.written).symbols = (Scan.ofText t).symbols ∧
      normalize s.written = .ok s.written := by
  constructor
  · simp only [normalize_eq_ok_iff, read_eq_ok_iff]
    constructor
    · rintro ⟨canonical, s, ⟨legal, symbols⟩, -⟩
      exact ⟨legal, s, symbols⟩
    · rintro ⟨legal, s, symbols⟩
      exact ⟨s.written, s, ⟨legal, symbols⟩, rfl⟩
  · intro s legal symbols
    have accepted := read_eq_ok_iff.mpr ⟨legal, symbols⟩
    have lexical := lexical_read accepted
    have scanned := Scan.ofText_written lexical
    refine ⟨?_, ?_, scanned.1, scanned.2.trans symbols.symm, normalize_written lexical⟩
    · exact fun other same => symbols_injective (same.symm.trans symbols)
    · exact normalize_eq_ok_iff.mpr ⟨s, accepted, rfl⟩

-- A text with loose spacing and with names that start like keywords has the tokens of one sentence.
-- The tokens of a conjunction that lacks an operand are those of none.
theorem normalize_accepts_grammar_loose :
    let t := "\t( iff(not not_)iffy' )\n".toList
    let s : Sentence :=
      .compound .biconditional (.negation (.atom "not_".toList)) (.atom "iffy'".toList)
    let short := "(and P)".toList
    (Scan.ofText t).illegal = none ∧ (Scan.ofText t).symbols = s.symbols ∧
      (∀ other : Sentence, (Scan.ofText t).symbols = other.symbols → other = s) ∧
      normalize t = .ok "(iff (not not_) iffy')".toList ∧
      (Scan.ofText s.written).symbols = (Scan.ofText t).symbols ∧
      normalize s.written = .ok s.written ∧
      (Scan.ofText short).illegal = none ∧
      ¬∃ other : Sentence, (Scan.ofText short).symbols = other.symbols := by
  intro t s short
  have legal : (Scan.ofText t).illegal = none := by unfold t; cbv
  have symbols : (Scan.ofText t).symbols = s.symbols := by unfold t s; cbv
  have canonical : s.written = "(iff (not not_) iffy')".toList := by unfold s; cbv
  have complete : (Scan.ofText short).illegal = none := by unfold short; cbv
  have rejected : normalize short = .error (.unexpected ⟨.closing, [')'], 6⟩) := by
    unfold short
    cbv
  obtain ⟨unique, normal, -, same, fixed⟩ := (normalize_accepts_grammar t).2 s legal symbols
  refine ⟨legal, symbols, unique, canonical ▸ normal, same, fixed, complete, ?_⟩
  intro exists_other
  obtain ⟨canonical, accepted⟩ := (normalize_accepts_grammar short).1.mpr ⟨complete, exists_other⟩
  rw [rejected] at accepted
  cases accepted

end Sentence

end TruthTree
