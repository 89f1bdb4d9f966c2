import TruthTree.Proofs.Normalization

/-! The display form can be read in one way only. Every operand is a word or stands in parentheses, and a
space follows the left one, so it is plain where each part ends; whatever comes after the whole display
cannot change how it is read. -/
namespace TruthTree

theorem append_inj_of_stop {p : Char → Bool} {word word' rest rest' : Text}
    (passed : ∀ c ∈ word, p c = true) (passed' : ∀ c ∈ word', p c = true)
    (stop : ∀ c ∈ rest.head?, p c = false) (stop' : ∀ c ∈ rest'.head?, p c = false)
    (same : word ++ rest = word' ++ rest') : word = word' ∧ rest = rest' := by
  have words : word = word' := by
    rw [← takeWhile_append_of_stop passed stop, same, takeWhile_append_of_stop passed' stop']
  subst words
  exact ⟨rfl, List.append_cancel_left same⟩

theorem Connective.symbol_append_inj {op op' : Connective} {rest rest' : Text}
    (same : op.symbol ++ ' ' :: rest = op'.symbol ++ ' ' :: rest') : op = op' ∧ rest = rest' := by
  have passed : ∀ op : Connective, ∀ c ∈ op.symbol, (c != ' ') = true := by
    intro op
    cases op <;> simp [symbol]
  obtain ⟨symbols, rests⟩ := append_inj_of_stop (passed op) (passed op') (by simp) (by simp) same
  refine ⟨?_, (List.cons.inj rests).2⟩
  cases op <;> cases op' <;> simp_all [symbol]

namespace Sentence

/-- A text that cannot go on with a name or with a connective. -/
def Ends (rest : Text) : Prop := ∀ c ∈ rest.head?, isAtomChar c = false ∧ c ≠ ' '

theorem Ends.stop {rest : Text} (h : Ends rest) : ∀ c ∈ rest.head?, isAtomChar c = false :=
  fun c hc => (h c hc).1

theorem ends_closing (rest : Text) : Ends (')' :: rest) := by
  rintro c ⟨⟩
  decide

theorem IsName.exists_cons {name : Text} (h : IsName name) :
    ∃ c rest, name = c :: rest ∧ isAtomChar c = true := by
  obtain ⟨nonempty, chars, -⟩ := h
  obtain ⟨c, rest, rfl⟩ := List.exists_cons_of_ne_nil nonempty
  exact ⟨c, rest, rfl, chars c List.mem_cons_self⟩

theorem IsName.append_ne {name : Text} (h : IsName name) {c : Char} (other : isAtomChar c = false)
    (rest more : Text) : name ++ rest ≠ c :: more := by
  intro same
  obtain ⟨letter, tail, rfl, isLetter⟩ := h.exists_cons
  obtain ⟨rfl, -⟩ := List.cons.inj same
  rw [other] at isLetter
  cases isLetter

theorem name_or_group (s : Sentence) :
    (∃ name, s = atom name) ∨
      s.isAtom = false ∧ s.grouped s.display = '(' :: (s.display ++ [')']) := by
  cases s with
  | atom name => exact .inl ⟨name, rfl⟩
  | negation a => exact .inr ⟨rfl, rfl⟩
  | compound op a b => exact .inr ⟨rfl, rfl⟩

theorem grouped_atom (name : Text) : (atom name).grouped (atom name).display = name := rfl

theorem grouped_append_ne {s : Sentence} (h : s.Lexical) (rest more : Text) :
    s.grouped s.display ++ rest ≠ '~' :: more := by
  rcases name_or_group s with ⟨name, rfl⟩ | ⟨-, group⟩
  · exact ((lexical_atom name).mp h).append_ne (by decide) rest more
  · rw [group]
    intro same
    exact absurd (List.cons.inj same).1 (by decide)

/-- The text that starts with the display of the sentence is not read in another way. -/
def Unambiguous (a : Sentence) : Prop :=
  ∀ (b : Sentence) (rest rest' : Text), b.Lexical → Ends rest → Ends rest' →
    a.display ++ rest = b.display ++ rest' → a = b ∧ rest = rest'

theorem grouped_append_inj {a b : Sentence} {rest rest' : Text} (ha : a.Lexical) (hb : b.Lexical)
    (inside : a.isAtom = false → a.Unambiguous) (stop : ∀ c ∈ rest.head?, isAtomChar c = false)
    (stop' : ∀ c ∈ rest'.head?, isAtomChar c = false)
    (same : a.grouped a.display ++ rest = b.grouped b.display ++ rest') : a = b ∧ rest = rest' := by
  rcases name_or_group a with ⟨name, rfl⟩ | ⟨notAtom, group⟩
  · have hname := (lexical_atom name).mp ha
    rcases name_or_group b with ⟨name', rfl⟩ | ⟨-, group'⟩
    · have hname' := (lexical_atom name').mp hb
      obtain ⟨rfl, rests⟩ := append_inj_of_stop hname.2.1 hname'.2.1 stop stop' same
      exact ⟨rfl, rests⟩
    · rw [group', grouped_atom, List.cons_append] at same
      exact absurd same (hname.append_ne (by decide) _ _)
  · rcases name_or_group b with ⟨name', rfl⟩ | ⟨-, group'⟩
    · rw [group, grouped_atom, List.cons_append] at same
      exact absurd same.symm (((lexical_atom name').mp hb).append_ne (by decide) _ _)
    · rw [group, group'] at same
      simp only [List.cons_append, List.append_assoc, List.nil_append, List.cons.injEq,
        true_and] at same
      obtain ⟨rfl, rests⟩ := inside notAtom b _ _ hb (ends_closing rest) (ends_closing rest') same
      exact ⟨rfl, (List.cons.inj rests).2⟩

theorem display_compound_append (op : Connective) (a b : Sentence) (rest : Text) :
    (compound op a b).display ++ rest =
      a.grouped a.display ++ ' ' :: (op.symbol ++ ' ' :: (b.grouped b.display ++ rest)) := by
  simp [display]

theorem name_append_ne_compound {name : Text} {op : Connective} {a b : Sentence} {rest : Text}
    (hname : (atom name).Lexical) (ha : a.Lexical) (ends : Ends rest) (rest' : Text) :
    (atom name).display ++ rest ≠ (compound op a b).display ++ rest' := by
  intro same
  rw [display_compound_append] at same
  obtain ⟨-, rfl⟩ := grouped_append_inj hname ha (by simp [isAtom]) ends.stop (Scan.space_stops _) same
  exact (ends ' ' rfl).2 rfl

theorem Lexical.unambiguous {a : Sentence} (ha : a.Lexical) : a.Unambiguous := by
  induction a with
  | atom name =>
      intro b rest rest' hb ends ends' same
      cases b with
      | atom name' => exact grouped_append_inj ha hb (by simp [isAtom]) ends.stop ends'.stop same
      | negation b => exact absurd same (((lexical_atom name).mp ha).append_ne (by decide) _ _)
      | compound op b c =>
          obtain ⟨hb, -⟩ := (lexical_compound op b c).mp hb
          exact absurd same (name_append_ne_compound ha hb ends rest')
  | negation a ih =>
      intro b rest rest' hb ends ends' same
      cases b with
      | atom name' => exact absurd same.symm (((lexical_atom name').mp hb).append_ne (by decide) _ _)
      | negation b =>
          have ha := (lexical_negation a).mp ha
          have hb := (lexical_negation b).mp hb
          obtain ⟨rfl, rests⟩ := grouped_append_inj ha hb (fun _ => ih ha) ends.stop ends'.stop
            (List.cons.inj same).2
          exact ⟨rfl, rests⟩
      | compound op b c =>
          obtain ⟨hb, -⟩ := (lexical_compound op b c).mp hb
          rw [display_compound_append] at same
          exact absurd same.symm (grouped_append_ne hb _ _)
  | compound op a c iha ihc =>
      intro b rest rest' hb ends ends' same
      obtain ⟨ha, hc⟩ := (lexical_compound op a c).mp ha
      cases b with
      | atom name' => exact absurd same.symm (name_append_ne_compound hb ha ends' rest)
      | negation b =>
          rw [display_compound_append] at same
          exact absurd same (grouped_append_ne ha _ _)
      | compound op' b d =>
          obtain ⟨hb, hd⟩ := (lexical_compound op' b d).mp hb
          rw [display_compound_append, display_compound_append] at same
          obtain ⟨rfl, signs⟩ := grouped_append_inj ha hb (fun _ => iha ha) (Scan.space_stops _)
            (Scan.space_stops _) same
          obtain ⟨rfl, right⟩ := Connective.symbol_append_inj (List.cons.inj signs).2
          obtain ⟨rfl, rests⟩ :=
            grouped_append_inj hc hd (fun _ => ihc hc) ends.stop ends'.stop right
          exact ⟨rfl, rests⟩

theorem newline_mem_grouped {s : Sentence} : '\n' ∈ s.grouped s.display ↔ '\n' ∈ s.display := by
  unfold grouped
  split <;> simp

theorem Lexical.newline_not_mem {s : Sentence} (h : s.Lexical) : '\n' ∉ s.display := by
  induction s with
  | atom name =>
      intro inside
      exact absurd (((lexical_atom name).mp h).2.1 '\n' inside) (by decide)
  | negation a ih => simpa [display, newline_mem_grouped] using ih h
  | compound op a b iha ihb =>
      obtain ⟨ha, hb⟩ := (lexical_compound op a b).mp h
      have symbol : '\n' ∉ op.symbol := by cases op <;> simp [Connective.symbol]
      simp [display, newline_mem_grouped, iha ha, ihb hb, symbol]

end Sentence

theorem Premise.normalize_of_readStrict {t : Text} {f : Formula} (h : readStrict t = .ok f) :
    Sentence.normalize t = .ok f.text := by
  rw [readStrict] at h
  cases normal : Sentence.normalize t with
  | error e => simp [normal] at h
  | ok canonical =>
      obtain ⟨s, read, rfl⟩ := Sentence.normalize_eq_ok_iff.mp normal
      have plain := (Sentence.lexical_read read).plain
      simp only [normal, readPlain, Formula.read_written plain, Except.mapError,
        Except.ok.injEq] at h
      rw [← h, Formula.text_ofSentence]

namespace Formula

theorem Strict.eq_of_display_eq {f g : Formula} (hf : f.Strict) (hg : g.Strict)
    (same : f.display = g.display) : f = g := by
  obtain ⟨a, ha, rfl⟩ := hf
  obtain ⟨b, hb, rfl⟩ := hg
  have shown : a.display ++ [] = b.display ++ [] := by
    simpa only [display, sentence_ofSentence, List.append_nil] using same
  have ends : Sentence.Ends [] := nofun
  obtain ⟨rfl, -⟩ := ha.unambiguous b [] [] hb ends ends shown
  rfl

/-- The display form of premises that are read strictly is unambiguous. Two of them that are displayed
alike are one formula, the same in every part, and both are written with its text. -/
theorem display_unambiguous {s t : Text} {f g : Formula} (hf : Premise.readStrict s = .ok f)
    (hg : Premise.readStrict t = .ok g) (same : f.display = g.display) :
    f = g ∧ Sentence.normalize s = .ok f.text ∧ Sentence.normalize t = .ok f.text := by
  have one := (Premise.strict_readStrict hf).eq_of_display_eq (Premise.strict_readStrict hg) same
  refine ⟨one, Premise.normalize_of_readStrict hf, ?_⟩
  rw [one]
  exact Premise.normalize_of_readStrict hg

-- A letter that looks like the sign of disjunction. Two spellings of one premise are displayed
-- alike, and another grouping is not.
theorem display_unambiguous_letter :
    let v : Sentence := .atom ['v']
    let pair : Sentence := .compound .disjunction v v
    let f := ofSentence (.compound .disjunction v pair)
    let other := ofSentence (.compound .disjunction pair v)
    Premise.readStrict "(or v (or v v))".toList = .ok f ∧
      Premise.readStrict "( or\tv(or v v) )".toList = .ok f ∧
      Premise.readStrict "(or (or v v) v)".toList = .ok other ∧
      f.display = "v v (v v v)".toList ∧
      Sentence.normalize "( or\tv(or v v) )".toList = .ok f.text ∧
      f.display ≠ other.display := by
  intro v pair f other
  have written : Premise.readStrict "(or v (or v v))".toList = .ok f := by
    unfold f pair v
    cbv
  have loose : Premise.readStrict "( or\tv(or v v) )".toList = .ok f := by
    unfold f pair v
    cbv
  have grouped : Premise.readStrict "(or (or v v) v)".toList = .ok other := by
    unfold other pair v
    cbv
  have shown : f.display = "v v (v v v)".toList := by
    unfold f pair v
    cbv
  have differ : f ≠ other := by
    unfold f other pair v
    decide
  exact ⟨written, loose, grouped, shown, (display_unambiguous written loose rfl).2.2,
    fun same => differ (display_unambiguous written grouped same).1⟩

end Formula

end TruthTree
