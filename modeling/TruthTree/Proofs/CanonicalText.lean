import TruthTree.Formula.Reader

/-! Reading a canonical text gives back the sentence it was written from, each part with its own
canonical text. All that is asked of the atoms is that no name contains a space or a parenthesis. -/
namespace TruthTree

namespace Sentence

def atoms : Sentence → List Text
  | atom name => [name]
  | negation a => a.atoms
  | compound _ a b => a.atoms ++ b.atoms

/-- A name without the characters that end an operand or open one. -/
def PlainName (name : Text) : Prop := ∀ c ∈ name, c ≠ ' ' ∧ c ≠ '(' ∧ c ≠ ')'

def Plain (s : Sentence) : Prop := ∀ name ∈ s.atoms, PlainName name

@[simp] theorem plain_atom (name : Text) : (atom name).Plain ↔ PlainName name := by
  simp [Plain, atoms]

@[simp] theorem plain_negation (a : Sentence) : (negation a).Plain ↔ a.Plain := Iff.rfl

@[simp] theorem plain_compound (op : Connective) (a b : Sentence) :
    (compound op a b).Plain ↔ a.Plain ∧ b.Plain := by
  simp only [Plain, atoms, List.forall_mem_append]

end Sentence

/-- A text inside which the depth of parentheses returns to where it was, without ever going below. -/
def Neutral (t : Text) : Prop :=
  ∀ (depth : Nat) (rest : Text), balanced (depth + 1) (t ++ rest) = t ++ balanced (depth + 1) rest

namespace Neutral

theorem of_no_parentheses {t : Text} (h : ∀ c ∈ t, c ≠ '(' ∧ c ≠ ')') : Neutral t := by
  intro depth rest
  induction t with
  | nil => rfl
  | cons c t ih =>
      obtain ⟨opening, closing⟩ := h c (by simp)
      have tail := ih fun x hx => h x (by simp [hx])
      simp [balanced, opening, closing, tail]

theorem append {s t : Text} (hs : Neutral s) (ht : Neutral t) : Neutral (s ++ t) := by
  intro depth rest
  rw [List.append_assoc, hs, ht, List.append_assoc]

theorem cons {c : Char} {t : Text} (hc : c ≠ '(' ∧ c ≠ ')') (ht : Neutral t) : Neutral (c :: t) :=
  append (of_no_parentheses (t := [c]) (by simpa using hc)) ht

theorem group {t : Text} (h : Neutral t) : Neutral ('(' :: t ++ [')']) := by
  intro depth rest
  have inside := h (depth + 1) (')' :: rest)
  simp [balanced, inside]

end Neutral

theorem firstOperand_group {t : Text} (h : Neutral t) (rest : Text) :
    firstOperand ('(' :: t ++ [')'] ++ rest) = '(' :: t ++ [')'] := by
  have inside := h 0 (')' :: rest)
  rw [List.cons_append, List.cons_append, firstOperand_opening, List.append_assoc, List.singleton_append,
    inside]
  simp [balanced]

namespace Sentence

theorem plainName_notKeyword : PlainName notKeyword := by
  simp [PlainName, notKeyword]

theorem plainName_keyword (op : Connective) : PlainName op.keyword := by
  cases op <;> simp [PlainName, Connective.keyword]

theorem neutral_plainName {name : Text} (h : PlainName name) : Neutral name :=
  .of_no_parentheses fun c hc => (h c hc).2

theorem writtenNegation_eq_group (t : Text) :
    writtenNegation t = '(' :: (notKeyword ++ ' ' :: t) ++ [')'] := by
  simp [writtenNegation]

theorem writtenCompound_eq_group (op : Connective) (s t : Text) :
    writtenCompound op s t = '(' :: (op.keyword ++ ' ' :: (s ++ ' ' :: t)) ++ [')'] := by
  simp [writtenCompound]

theorem neutral_inside_negation {t : Text} (h : Neutral t) : Neutral (notKeyword ++ ' ' :: t) :=
  .append (neutral_plainName plainName_notKeyword) (.cons (by decide) h)

theorem neutral_inside_compound (op : Connective) {s t : Text} (hs : Neutral s) (ht : Neutral t) :
    Neutral (op.keyword ++ ' ' :: (s ++ ' ' :: t)) :=
  .append (neutral_plainName (plainName_keyword op))
    (.cons (by decide) (.append hs (.cons (by decide) ht)))

theorem neutral_written {s : Sentence} (h : s.Plain) : Neutral s.written := by
  induction s with
  | atom name => exact neutral_plainName ((plain_atom name).mp h)
  | negation a ih =>
      rw [written, writtenNegation_eq_group]
      exact (neutral_inside_negation (ih h)).group
  | compound op a b iha ihb =>
      obtain ⟨ha, hb⟩ := (plain_compound op a b).mp h
      rw [written, writtenCompound_eq_group]
      exact (neutral_inside_compound op (iha ha) (ihb hb)).group

end Sentence

theorem takeWhile_append_of_stop {p : Char → Bool} {word rest : Text} (passed : ∀ c ∈ word, p c = true)
    (stop : ∀ c ∈ rest.head?, p c = false) : (word ++ rest).takeWhile p = word := by
  have stopped : rest.takeWhile p = [] := by
    cases rest with
    | nil => rfl
    | cons c rest => simp [stop c rfl]
  rw [List.takeWhile_append_of_pos passed, stopped, List.append_nil]

theorem firstOperand_word {word rest : Text} (h : Sentence.PlainName word)
    (stop : ∀ c ∈ rest.head?, c = ' ' ∨ c = ')') : firstOperand (word ++ rest) = word := by
  have passed : ∀ c ∈ word, (c ≠ ' ' && c ≠ ')') = true := by
    intro c hc
    obtain ⟨space, -, closing⟩ := h c hc
    simp [space, closing]
  have stopped : ∀ c ∈ rest.head?, (c ≠ ' ' && c ≠ ')') = false := by
    intro c hc
    rcases stop c hc with rfl | rfl <;> rfl
  have unopened : (word ++ rest).head? ≠ some '(' := by
    cases word with
    | nil =>
        intro opening
        rcases stop '(' opening with same | same <;> simp at same
    | cons c word => exact fun opening => (h c (by simp)).2.1 (Option.some.inj opening)
  rw [firstOperand_unopened unopened]
  exact takeWhile_append_of_stop passed stopped

theorem firstOperand_written {s : Sentence} (h : s.Plain) (rest : Text)
    (stop : ∀ c ∈ rest.head?, c = ' ' ∨ c = ')') : firstOperand (s.written ++ rest) = s.written := by
  cases s with
  | atom name => exact firstOperand_word ((Sentence.plain_atom name).mp h) stop
  | negation a =>
      rw [Sentence.written, Sentence.writtenNegation_eq_group]
      have ha := Sentence.neutral_written ((Sentence.plain_negation a).mp h)
      exact firstOperand_group (Sentence.neutral_inside_negation ha) rest
  | compound op a b =>
      obtain ⟨ha, hb⟩ := (Sentence.plain_compound op a b).mp h
      rw [Sentence.written, Sentence.writtenCompound_eq_group]
      exact firstOperand_group (Sentence.neutral_inside_compound op (Sentence.neutral_written ha)
        (Sentence.neutral_written hb)) rest

namespace Formula

@[simp] theorem text_ofSentence (s : Sentence) : (ofSentence s).text = s.written := by
  cases s <;> rfl

@[simp] theorem sentence_ofSentence (s : Sentence) : (ofSentence s).sentence = s := by
  induction s with
  | atom name => rfl
  | negation a ih => simp [ofSentence, sentence, ih]
  | compound op a b iha ihb => simp [ofSentence, sentence, iha, ihb]

theorem keyword_ne_notKeyword (op : Connective) : op.keyword ≠ notKeyword := by
  cases op <;> decide

theorem interior_group (word inside : Text) :
    interior (word.length + 2) ('(' :: (word ++ ' ' :: inside) ++ [')']) = inside := by
  have parts : '(' :: (word ++ ' ' :: inside) ++ [')'] =
      ('(' :: word ++ [' ']) ++ (inside ++ [')']) := by simp
  have skipped : ('(' :: (word ++ ' ' :: inside) ++ [')']).drop (word.length + 2) =
      inside ++ [')'] := by
    rw [parts]
    exact List.drop_left' (by simp)
  rw [interior, skipped, List.dropLast_concat]

theorem read_writtenNegation (t : Text) :
    read (Sentence.writtenNegation t) = (read t).map (negation (Sentence.writtenNegation t)) := by
  have keyword : firstOperand (notKeyword ++ ' ' :: t ++ [')']) = notKeyword := by
    rw [List.append_assoc]
    exact firstOperand_word Sentence.plainName_notKeyword (by simp)
  have operand := interior_group notKeyword t
  rw [Sentence.writtenNegation_eq_group]
  rw [List.cons_append] at operand ⊢
  rw [read]
  simp only [keyword, operand, if_true]

theorem read_writtenCompound (op : Connective) {s t : Text} {a b : Formula}
    (hs : firstOperand (s ++ ' ' :: t) = s) (ht : firstOperand t = t)
    (ha : read s = .ok a) (hb : read t = .ok b) :
    read (Sentence.writtenCompound op s t) =
      .ok (compound (Sentence.writtenCompound op s t) op a b) := by
  have keyword : firstOperand (op.keyword ++ ' ' :: (s ++ ' ' :: t) ++ [')']) = op.keyword := by
    rw [List.append_assoc]
    exact firstOperand_word (Sentence.plainName_keyword op) (by simp)
  have operands := interior_group op.keyword (s ++ ' ' :: t)
  have second : (s ++ ' ' :: t).drop (s.length + 1) = t := by
    rw [List.append_cons]
    exact List.drop_left' (by simp)
  rw [Sentence.writtenCompound_eq_group]
  rw [List.cons_append] at operands ⊢
  rw [read]
  simp only [keyword, keyword_ne_notKeyword, if_false, Connective.ofKeyword?_keyword, operands, hs,
    second, ht, ha, hb]

theorem read_unopened {t : Text} (h : ∀ rest, t ≠ '(' :: rest) : read t = .ok (atom t) := by
  rw [read.eq_def]
  split
  · next rest => exact absurd rfl (h rest)
  · rfl

theorem read_written {s : Sentence} (h : s.Plain) : read s.written = .ok (ofSentence s) := by
  induction s with
  | atom name =>
      apply read_unopened
      rintro rest rfl
      exact ((Sentence.plain_atom _).mp h '(' (by simp)).2.1 rfl
  | negation a ih =>
      rw [Sentence.written, read_writtenNegation, ih h]
      rfl
  | compound op a b iha ihb =>
      obtain ⟨ha, hb⟩ := (Sentence.plain_compound op a b).mp h
      have left := firstOperand_written ha (' ' :: b.written) (by simp)
      have right := firstOperand_written hb [] (by simp)
      rw [List.append_nil] at right
      exact read_writtenCompound op left right (iha ha) (ihb hb)

theorem exists_sentence_of_mem_parts {s : Sentence} {depth : Nat} {part : Nat × Formula}
    (h : part ∈ (ofSentence s).parts depth) : ∃ a, part.2 = ofSentence a := by
  induction s generalizing depth with
  | atom name =>
      obtain rfl := List.mem_singleton.mp h
      exact ⟨.atom name, rfl⟩
  | negation a ih =>
      rcases List.mem_cons.mp h with rfl | h
      · exact ⟨.negation a, rfl⟩
      · exact ih h
  | compound op a b iha ihb =>
      rcases List.mem_cons.mp h with rfl | h
      · exact ⟨.compound op a b, rfl⟩
      · rcases List.mem_append.mp h with h | h
        · exact iha h
        · exact ihb h

/-- Reading takes the canonical text of a sentence back to that sentence. Every part of what is read has
the canonical text of its own sentence, so the operands of a part have theirs. -/
theorem read_canonical_text {s : Sentence} (h : s.Plain) :
    ∃ f, read s.written = .ok f ∧ f.sentence = s ∧
      ∀ part ∈ f.parts 0, part.2.text = part.2.sentence.written ∧
        (∀ text a, part.2 = negation text a → part.2.leftOperand = a.sentence.written) ∧
        ∀ text op a b, part.2 = compound text op a b →
          part.2.leftOperand = a.sentence.written ∧
            part.2.rightOperand? = some b.sentence.written := by
  refine ⟨ofSentence s, read_written h, sentence_ofSentence s, ?_⟩
  intro part hpart
  obtain ⟨a, same⟩ := exists_sentence_of_mem_parts hpart
  rw [same]
  refine ⟨by simp, ?_, ?_⟩
  · rintro text b negated
    cases a with
    | atom name => cases negated
    | compound op c d => cases negated
    | negation c =>
        cases negated
        simp [ofSentence, leftOperand]
  · rintro text op b c compounded
    cases a with
    | atom name => cases compounded
    | negation d => cases compounded
    | compound op d e =>
        cases compounded
        simp [ofSentence, leftOperand, rightOperand?]

-- A conditional over the nameless atom and over atoms that are called like keywords.
theorem read_canonical_text_keywords :
    let s : Sentence := .compound .conditional (.negation (.atom []))
      (.compound .conjunction (.atom ['n', 'o', 't']) (.atom ['a', 'n', 'd']))
    s.Plain ∧ s.written = "(if (not ) (and not and))".toList ∧
      ∃ f, read s.written = .ok f ∧ f.sentence = s ∧
        ∀ part ∈ f.parts 0, part.2.text = part.2.sentence.written ∧
          (∀ text a, part.2 = negation text a → part.2.leftOperand = a.sentence.written) ∧
          ∀ text op a b, part.2 = compound text op a b →
            part.2.leftOperand = a.sentence.written ∧
              part.2.rightOperand? = some b.sentence.written := by
  intro s
  have plain : s.Plain := by simp [s, Sentence.PlainName]
  have text : s.written = "(if (not ) (and not and))".toList := by
    unfold s
    cbv
  exact ⟨plain, text, read_canonical_text plain⟩

end Formula

theorem Sentence.eq_of_written_eq {a b : Sentence} (ha : a.Plain) (hb : b.Plain)
    (same : a.written = b.written) : a = b := by
  have read := Formula.read_written ha
  rw [same, Formula.read_written hb] at read
  have formulas := congrArg Formula.sentence (Except.ok.inj read)
  simpa using formulas.symm

end TruthTree
