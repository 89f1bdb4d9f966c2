import Mathlib
import TruthTree.Premise
import TruthTree.Proofs.CanonicalText

/-! What the strict reading lets through. Every accepted premise is the formula of a sentence whose
atoms are spelled as the scanner spells them, with its canonical text throughout. -/
namespace TruthTree

namespace Sentence

def IsName (name : Text) : Prop :=
  name ≠ [] ∧ (∀ c ∈ name, isAtomChar c = true) ∧ TokenKind.ofWord name = .atom

def Lexical (s : Sentence) : Prop := ∀ name ∈ s.atoms, IsName name

@[simp] theorem lexical_atom (name : Text) : (atom name).Lexical ↔ IsName name := by
  simp [Lexical, atoms]

@[simp] theorem lexical_negation (a : Sentence) : (negation a).Lexical ↔ a.Lexical := Iff.rfl

@[simp] theorem lexical_compound (op : Connective) (a b : Sentence) :
    (compound op a b).Lexical ↔ a.Lexical ∧ b.Lexical := by
  simp only [Lexical, atoms, List.forall_mem_append]

theorem IsName.plain {name : Text} (h : IsName name) : PlainName name := by
  intro c hc
  have accepted := h.2.1 c hc
  refine ⟨?_, ?_, ?_⟩ <;> rintro rfl <;> exact absurd accepted (by decide)

theorem Lexical.plain {s : Sentence} (h : s.Lexical) : s.Plain := fun name hname => (h name hname).plain

end Sentence

namespace Token

/-- What a token of a text can be: a parenthesis, or a word that is a keyword or else an atom. -/
inductive Genuine : Token → Prop
  | opening (start : Nat) : Genuine ⟨.opening, ['('], start⟩
  | closing (start : Nat) : Genuine ⟨.closing, [')'], start⟩
  | word {value : Text} (start : Nat) (nonempty : value ≠ [])
      (chars : ∀ c ∈ value, isAtomChar c = true) : Genuine ⟨.ofWord value, value, start⟩

theorem Genuine.isName {token : Token} (h : token.Genuine) (atom : token.kind = .atom) :
    Sentence.IsName token.value := by
  cases h with
  | opening start => cases atom
  | closing start => cases atom
  | word start nonempty chars => exact ⟨nonempty, chars, atom⟩

end Token

namespace Scan

theorem forall_isAtomChar_word {c : Char} (h : isAtomChar c = true) (rest : Text) :
    ∀ x ∈ c :: rest.takeWhile isAtomChar, isAtomChar x = true :=
  List.forall_mem_cons.mpr ⟨h, fun _ => List.mem_takeWhile_imp⟩

theorem genuine_fromPosition (position : Nat) (t : Text) :
    ∀ token ∈ (fromPosition position t).tokens, token.Genuine := by
  fun_induction fromPosition position t with
  | case1 => simp
  | case2 position c rest spacing ih => exact ih
  | case3 position rest spacing ih => exact List.forall_mem_cons.mpr ⟨.opening position, ih⟩
  | case4 position rest spacing opening ih => exact List.forall_mem_cons.mpr ⟨.closing position, ih⟩
  | case5 position c rest spacing opening closing atomChar word ih =>
      have chars := forall_isAtomChar_word atomChar rest
      exact List.forall_mem_cons.mpr ⟨.word position (List.cons_ne_nil _ _) chars, ih⟩
  | case6 => simp

end Scan

namespace Reading

def PendingLexical : Pending → Prop
  | .negation => True
  | .left _ => True
  | .right _ a => a.Lexical

def Lexical : Reading → Prop
  | operand opened => ∀ p ∈ opened, PendingLexical p
  | keyword opened => ∀ p ∈ opened, PendingLexical p
  | closing done opened => done.Lexical ∧ ∀ p ∈ opened, PendingLexical p
  | complete done => done.Lexical

theorem lexical_supply {done : Sentence} {opened : List Pending} (hdone : done.Lexical)
    (hopened : ∀ p ∈ opened, PendingLexical p) : (supply done opened).Lexical := by
  cases opened with
  | nil => exact hdone
  | cons p opened =>
      obtain ⟨hp, outer⟩ := List.forall_mem_cons.mp hopened
      cases p with
      | negation => exact ⟨hdone, outer⟩
      | left op => exact List.forall_mem_cons.mpr ⟨hdone, outer⟩
      | right op a => exact ⟨(Sentence.lexical_compound op a done).mpr ⟨hp, hdone⟩, outer⟩

theorem lexical_step {reading next : Reading} {token : Token} (hreading : reading.Lexical)
    (htoken : token.Genuine) (h : reading.step token = some next) : next.Lexical := by
  unfold step at h
  split at h
  · next opened kind =>
      cases h
      exact lexical_supply ((Sentence.lexical_atom _).mpr (htoken.isName kind)) hreading
  · cases h
    exact hreading
  · cases h
    exact List.forall_mem_cons.mpr ⟨trivial, hreading⟩
  · cases h
    exact List.forall_mem_cons.mpr ⟨trivial, hreading⟩
  · cases h
    exact lexical_supply hreading.1 hreading.2
  · cases h

end Reading

namespace Sentence

theorem lexical_readTokens {illegal : Option IllegalCharacter} {reading : Reading}
    {tokens : List Token} {s : Sentence} (hreading : reading.Lexical)
    (htokens : ∀ token ∈ tokens, token.Genuine)
    (h : readTokens illegal reading tokens = .ok s) : s.Lexical := by
  induction tokens generalizing reading with
  | nil =>
      unfold readTokens at h
      split at h
      · cases h
      · cases h
        exact hreading
      · cases h
  | cons token tokens ih =>
      obtain ⟨htoken, htokens⟩ := List.forall_mem_cons.mp htokens
      rw [readTokens] at h
      split at h
      · next next step => exact ih (Reading.lexical_step hreading htoken step) htokens h
      · cases h

theorem lexical_read {t : Text} {s : Sentence} (h : read t = .ok s) : s.Lexical :=
  lexical_readTokens (by simp [Reading.Lexical]) (Scan.genuine_fromPosition 0 t) h

end Sentence

/-- The formula of a sentence spelled with names, as the strict reading gives it. -/
def Formula.Strict (f : Formula) : Prop := ∃ s : Sentence, s.Lexical ∧ f = ofSentence s

namespace Premise

theorem strict_readStrict {t : Text} {f : Formula} (h : readStrict t = .ok f) : f.Strict := by
  unfold readStrict Sentence.normalize at h
  cases hread : Sentence.read t with
  | error e =>
      rw [hread] at h
      cases h
  | ok s =>
      have lexical := Sentence.lexical_read hread
      refine ⟨s, lexical, ?_⟩
      rw [hread] at h
      simp only [Except.map, readPlain, Formula.read_written lexical.plain, Except.mapError] at h
      exact (Except.ok.inj h).symm

theorem strict_readAll {sources : List Text} {premises : List Formula}
    (h : readAll true sources = .ok premises) : ∀ f ∈ premises, f.Strict := by
  induction sources generalizing premises with
  | nil =>
      cases h
      simp
  | cons t ts ih =>
      rw [readAll] at h
      cases hf : read true t with
      | error e =>
          rw [hf] at h
          cases h
      | ok f =>
          rw [hf] at h
          cases hrest : readAll true ts with
          | error e =>
              rw [hrest] at h
              cases h
          | ok rest =>
              rw [hrest] at h
              cases h
              exact List.forall_mem_cons.mpr ⟨strict_readStrict hf, ih hrest⟩

end Premise

end TruthTree
