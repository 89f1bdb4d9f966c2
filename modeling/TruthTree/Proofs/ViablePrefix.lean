import TruthTree.Proofs.ScanReach

/-! Where the strict grammar stops. Symbols are viable if some sentence starts with them. The reader can
take a token exactly when the tokens up to it are viable: what it has read so far can always be
completed to a sentence, and it takes the tokens of every sentence. So it rejects a text at the first
place, in the order of the text, from which no sentence can be reached. -/
namespace TruthTree

namespace Sentence

def Viable (symbols : List (TokenKind × Text)) : Prop :=
  ∃ s : Sentence, s.Lexical ∧ symbols <+: s.symbols

theorem Viable.of_isPrefix {short long : List (TokenKind × Text)} (h : Viable long)
    (starts : short <+: long) : Viable short := by
  obtain ⟨s, lexical, hlong⟩ := h
  exact ⟨s, lexical, starts.trans hlong⟩

def sample : Sentence := atom ['P']

theorem lexical_sample : sample.Lexical := by
  rw [sample, lexical_atom]
  exact ⟨List.cons_ne_nil _ _, List.all_eq_true.mp (by decide), by decide⟩

theorem viable_nil : Viable [] := ⟨sample, lexical_sample, List.nil_prefix⟩

end Sentence

namespace Reading

open Pending Sentence

theorem viable_opened {opened : List Pending} {done : Sentence} (hdone : done.Lexical)
    (hopened : ∀ p ∈ opened, PendingLexical p) : Viable (allSymbols opened ++ done.symbols) := by
  induction opened generalizing done with
  | nil => exact ⟨done, hdone, List.prefix_rfl⟩
  | cons p opened ih =>
      obtain ⟨hp, outer⟩ := List.forall_mem_cons.mp hopened
      cases p with
      | negation =>
          have whole : (Sentence.negation done).Lexical := hdone
          refine (ih whole outer).of_isPrefix ?_
          simp [allSymbols, Pending.symbols, Sentence.symbols]
      | left op =>
          have whole := (lexical_compound op done sample).mpr ⟨hdone, lexical_sample⟩
          refine (ih whole outer).of_isPrefix ?_
          simp [allSymbols, Pending.symbols, Sentence.symbols]
      | right op a =>
          have whole := (lexical_compound op a done).mpr ⟨hp, hdone⟩
          refine (ih whole outer).of_isPrefix ?_
          simp [allSymbols, Pending.symbols, Sentence.symbols]

theorem viable_of_readFrom {symbols : List (TokenKind × Text)} {reading : Reading}
    (h : reading.ReadFrom symbols) (lexical : reading.Lexical) : Viable symbols := by
  cases reading with
  | operand opened =>
      subst h
      exact (viable_opened lexical_sample lexical).of_isPrefix (List.prefix_append _ _)
  | keyword opened =>
      subst h
      have whole : (Sentence.negation sample).Lexical := lexical_sample
      refine (viable_opened whole lexical).of_isPrefix ?_
      simp [Sentence.symbols]
  | closing done opened =>
      refine (viable_opened lexical.1 lexical.2).of_isPrefix ?_
      rw [← show symbols ++ _ = _ from h]
      exact List.prefix_append _ _
  | complete done =>
      subst h
      exact ⟨done, lexical, List.prefix_rfl⟩

/-- The reading that tokens lead to when each of them can be taken. -/
inductive Leads : Reading → List Token → Reading → Prop
  | nil (reading : Reading) : Leads reading [] reading
  | cons {reading next last : Reading} {token : Token} {tokens : List Token}
      (step : reading.step token = some next) (later : Leads next tokens last) :
      Leads reading (token :: tokens) last

namespace Leads

theorem snoc {reading last next : Reading} {tokens : List Token} {token : Token}
    (h : Leads reading tokens last) (step : last.step token = some next) :
    Leads reading (tokens ++ [token]) next := by
  induction h with
  | nil reading => exact .cons step (.nil next)
  | cons first later ih => exact .cons first (ih step)

theorem readTokens_append {reading last : Reading} {tokens : List Token}
    (h : Leads reading tokens last) (illegal : Option IllegalCharacter) (more : List Token) :
    readTokens illegal reading (tokens ++ more) = readTokens illegal last more := by
  induction h with
  | nil reading => rfl
  | cons step later ih => rw [List.cons_append, readTokens_cons step, ih]

theorem readTokens_eq {reading last : Reading} {tokens : List Token}
    (h : Leads reading tokens last) (illegal : Option IllegalCharacter) :
    readTokens illegal reading tokens = readTokens illegal last [] := by
  rw [← h.readTokens_append illegal [], List.append_nil]

theorem viable_append {symbols : List (TokenKind × Text)} {reading last : Reading}
    {tokens : List Token} (h : Leads reading tokens last)
    (genuine : ∀ token ∈ tokens, token.Genuine) (start : reading.ReadFrom symbols)
    (lexical : reading.Lexical) : Viable (symbols ++ tokens.map Token.symbol) := by
  induction h generalizing symbols with
  | nil reading => simpa using viable_of_readFrom start lexical
  | cons step later ih =>
      obtain ⟨htoken, genuine⟩ := List.forall_mem_cons.mp genuine
      simpa using ih genuine (readFrom_step start htoken step) (lexical_step lexical htoken step)

theorem viable {last : Reading} {tokens : List Token} (h : Leads (.operand []) tokens last)
    (genuine : ∀ token ∈ tokens, token.Genuine) : Viable (tokens.map Token.symbol) := by
  have start : (Reading.operand []).ReadFrom [] := rfl
  exact h.viable_append genuine start (by simp [Reading.Lexical])

end Leads

theorem exists_leads {reading : Reading} {illegal : Option IllegalCharacter} {tokens more : List Token}
    {s : Sentence} (h : readTokens illegal reading (tokens ++ more) = .ok s) :
    ∃ last, Leads reading tokens last := by
  induction tokens generalizing reading with
  | nil => exact ⟨reading, .nil reading⟩
  | cons token tokens ih =>
      rw [List.cons_append, readTokens] at h
      split at h
      · next next step =>
          obtain ⟨last, later⟩ := ih h
          exact ⟨last, .cons step later⟩
      · cases h

theorem exists_leads_of_viable {tokens : List Token} (h : Viable (tokens.map Token.symbol)) :
    ∃ last, Leads (.operand []) tokens last := by
  obtain ⟨s, -, more, whole⟩ := h
  -- The missing tokens need no position.
  let missing := more.map fun symbol => (⟨symbol.1, symbol.2, 0⟩ : Token)
  have symbols : (tokens ++ missing).map Token.symbol = s.symbols := by
    rw [← whole, List.map_append]
    simp [missing, Function.comp_def, Token.symbol]
  have accepted := readTokens_symbols none symbols [] []
  rw [List.append_nil] at accepted
  exact exists_leads accepted

end Reading

namespace Sentence

theorem exists_first_stuck {tokens : List Token} (h : ¬Viable (tokens.map Token.symbol)) :
    ∃ earlier token later, tokens = earlier ++ token :: later ∧
      Viable (earlier.map Token.symbol) ∧ ¬Viable (earlier.map Token.symbol ++ [token.symbol]) := by
  induction tokens using List.reverseRecOn with
  | nil => exact absurd viable_nil h
  | append_singleton tokens token ih =>
      by_cases viable : Viable (tokens.map Token.symbol)
      · exact ⟨tokens, token, [], rfl, viable, by simpa using h⟩
      · obtain ⟨earlier, stuck, later, rfl, hearlier, hstuck⟩ := ih viable
        exact ⟨earlier, stuck, later ++ [token], by simp, hearlier, hstuck⟩

/-- The first place in a text from which no sentence can be reached, as an error and its message. It is a
foreign character after viable tokens, a token that viable tokens cannot go on with and that no
foreign character precedes, or the end of a text with viable tokens. -/
inductive FirstOffence (t : Text) : GrammarError → String → Prop
  | illegal {before after : Text} {c : Char} (text : t = before ++ c :: after)
      (legal : ∀ x ∈ before, Scan.isLegal x = true) (foreign : Scan.isLegal c = false)
      (viable : Viable (Scan.ofText before).symbols) :
      FirstOffence t (.illegal ⟨c, before.length⟩)
        ("Parse failed: " ++ s!"Illegal character '{c}' encountered at position {before.length}")
  | unexpected {before value after : Text} {kind : TokenKind} {earlier later : List Token}
      (text : t = before ++ value ++ after) (legal : ∀ x ∈ before, Scan.isLegal x = true)
      (tokens : (Scan.ofText t).tokens = earlier ++ ⟨kind, value, before.length⟩ :: later)
      (viable : Viable (earlier.map Token.symbol))
      (stuck : ¬Viable (earlier.map Token.symbol ++ [(kind, value)])) :
      FirstOffence t (.unexpected ⟨kind, value, before.length⟩)
        s!"Syntax error near '{value.toStr}' (type: {kind.name}) at line 1, position {before.length}"
  | unexpectedEnd (legal : ∀ x ∈ t, Scan.isLegal x = true) (viable : Viable (Scan.ofText t).symbols)
      (incomplete : ∀ s : Sentence, (Scan.ofText t).symbols ≠ s.symbols) :
      FirstOffence t .unexpectedEnd "Syntax error: Unexpected end of premise"

namespace FirstOffence

theorem message_eq {t : Text} {error : GrammarError} {message : String}
    (h : FirstOffence t error message) : error.message = message := by
  cases h <;> rfl

theorem read_eq {t : Text} {error : GrammarError} {message : String}
    (h : FirstOffence t error message) : read t = .error error := by
  cases h with
  | @illegal before after c text legal foreign viable =>
      obtain ⟨last, leads⟩ := Reading.exists_leads_of_viable viable
      rw [read, text, Scan.ofText_foreign after legal foreign, leads.readTokens_eq]
      rfl
  | @unexpected before value after kind earlier later text legal tokens viable stuck =>
      obtain ⟨last, leads⟩ := Reading.exists_leads_of_viable viable
      have refused : last.step ⟨kind, value, before.length⟩ = none := by
        rw [Option.eq_none_iff_forall_ne_some]
        intro next step
        have genuine : ∀ token ∈ earlier ++ [⟨kind, value, before.length⟩], token.Genuine := by
          intro token htoken
          refine Scan.genuine_fromPosition 0 t token ?_
          rw [← Scan.ofText, tokens, List.append_cons]
          exact List.mem_append_left later htoken
        exact stuck (by simpa [Token.symbol] using (leads.snoc step).viable genuine)
      rw [read, tokens, leads.readTokens_append, readTokens, refused]
  | unexpectedEnd legal viable incomplete =>
      obtain ⟨last, leads⟩ := Reading.exists_leads_of_viable viable
      have ended : read t = readTokens none last [] := by
        rw [read, leads.readTokens_eq, Scan.illegal_eq_none_iff.mpr legal]
      cases last with
      | operand opened => exact ended
      | keyword opened => exact ended
      | closing done opened => exact ended
      | complete done => exact absurd (read_eq_ok_iff.mp ended).2 (incomplete done)

end FirstOffence

theorem exists_firstOffence {t : Text} (h : ∀ s, read t ≠ .ok s) :
    ∃ error message, FirstOffence t error message := by
  by_cases viable : Viable (Scan.ofText t).symbols
  · obtain ⟨complete, legal⟩ | ⟨before, c, after, text, legal, foreign, -⟩ := Scan.illegal_cases t
    · have incomplete : ∀ s : Sentence, (Scan.ofText t).symbols ≠ s.symbols :=
        fun s symbols => h s (read_eq_ok_iff.mpr ⟨complete, symbols⟩)
      exact ⟨_, _, .unexpectedEnd legal viable incomplete⟩
    · rw [text, Scan.ofText_foreign after legal foreign] at viable
      exact ⟨_, _, .illegal text legal foreign viable⟩
  · obtain ⟨earlier, ⟨kind, value, start⟩, later, tokens, hearlier, stuck⟩ :=
      exists_first_stuck viable
    have inText : Scan.StandsIn 0 t ⟨kind, value, start⟩ := by
      refine Scan.standsIn_fromPosition 0 t _ ?_
      rw [← Scan.ofText, tokens]
      exact List.mem_append_right earlier List.mem_cons_self
    obtain ⟨before, after, text, hstart, legal⟩ := inText
    rw [Nat.zero_add] at hstart
    subst hstart
    exact ⟨_, _, .unexpected text legal tokens hearlier stuck⟩

theorem normalize_eq_error_iff {t : Text} {error : GrammarError} :
    normalize t = .error error ↔ read t = .error error := by
  unfold normalize
  cases read t with
  | error e => simp [Except.map]
  | ok s => simp [Except.map]

theorem firstOffence_iff {t : Text} {error : GrammarError} {message : String} :
    FirstOffence t error message ↔ normalize t = .error error ∧ error.message = message := by
  rw [normalize_eq_error_iff]
  constructor
  · exact fun offence => ⟨offence.read_eq, offence.message_eq⟩
  · rintro ⟨rejected, rfl⟩
    have notRead : ∀ s, read t ≠ .ok s := by simp [rejected]
    obtain ⟨found, message, offence⟩ := exists_firstOffence notRead
    have same : error = found := Except.error.inj (rejected.symm.trans offence.read_eq)
    rw [same, offence.message_eq]
    exact offence

/-- A text has one first offence, unless it is accepted. The strict grammar rejects the text with just
this error and this message. -/
theorem rejection_names_first_offence (t : Text) :
    (∀ error message, FirstOffence t error message ↔
      normalize t = .error error ∧ error.message = message) ∧
    ((∃! offence : GrammarError × String, FirstOffence t offence.1 offence.2) ↔
      ∀ canonical, normalize t ≠ .ok canonical) := by
  refine ⟨fun error message => firstOffence_iff, ?_, ?_⟩
  · rintro ⟨⟨error, message⟩, offence, -⟩ canonical accepted
    rw [(firstOffence_iff.mp offence).1] at accepted
    cases accepted
  · intro notAccepted
    cases outcome : normalize t with
    | ok canonical => exact absurd outcome (notAccepted canonical)
    | error error =>
        refine ⟨(error, error.message), firstOffence_iff.mpr ⟨outcome, rfl⟩, ?_⟩
        rintro ⟨other, message⟩ offence
        obtain ⟨rejected, text⟩ := firstOffence_iff.mp offence
        have same : error = other := Except.error.inj (outcome.symm.trans rejected)
        subst same
        exact congrArg (Prod.mk error) text.symm

-- A foreign character inside a conjunction, a conjunction that closes too early although a foreign
-- character follows, and a disjunction that is never closed.
theorem rejection_names_first_offence_places :
    FirstOffence "(and P #Q)".toList (.illegal ⟨'#', 7⟩)
      "Parse failed: Illegal character '#' encountered at position 7" ∧
    FirstOffence "(and) #".toList (.unexpected ⟨.closing, [')'], 4⟩)
      "Syntax error near ')' (type: RPAREN) at line 1, position 4" ∧
    FirstOffence "(or P (not Q)".toList .unexpectedEnd "Syntax error: Unexpected end of premise" ∧
    ¬∃! offence : GrammarError × String, FirstOffence "(not\tP' )".toList offence.1 offence.2 := by
  have accepted : normalize "(not\tP' )".toList = .ok "(not P')".toList := by cbv
  refine ⟨?_, ?_, ?_, ?_⟩
  · exact ((rejection_names_first_offence _).1 _ _).mpr ⟨by cbv, by decide⟩
  · exact ((rejection_names_first_offence _).1 _ _).mpr ⟨by cbv, by decide⟩
  · exact ((rejection_names_first_offence _).1 _ _).mpr ⟨by cbv, by decide⟩
  · exact fun unique => (rejection_names_first_offence _).2.mp unique _ accepted

end Sentence

end TruthTree
