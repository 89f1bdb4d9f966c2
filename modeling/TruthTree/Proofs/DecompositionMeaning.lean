import TruthTree.Proofs.StrictReading

/-! The meaning of one step of decomposition. The formula of a plain sentence decomposes into formulas
of lighter sentences over the same atoms, and it holds just when, in one of the alternatives, all of
them hold. -/
namespace TruthTree

namespace Decomposition

/-- What the branches below get, from left to right: one list of formulas for each of them. -/
def alternatives : Decomposition → List (List Formula)
  | literal => [[]]
  | single f => [[f]]
  | stacked f g => [[f, g]]
  | forked f g => [[f], [g]]

def count : Decomposition → Nat
  | literal => 0
  | single _ => 1
  | stacked _ _ => 2
  | forked _ _ => 2

def isForked : Decomposition → Bool
  | forked _ _ => true
  | _ => false

end Decomposition

namespace Sentence

/-- A size in which a biconditional outweighs the conjunctions it decomposes into, although these have
longer texts. -/
def weight : Sentence → Nat
  | atom _ => 1
  | negation a => a.weight + 1
  | compound .biconditional a b => a.weight + b.weight + 4
  | compound _ a b => a.weight + b.weight + 1

theorem weight_pos (s : Sentence) : 0 < s.weight := by
  unfold weight
  split <;> omega

def decomposition : Sentence → Decomposition
  | atom _ => .literal
  | compound .conjunction a b => .stacked (.ofSentence a) (.ofSentence b)
  | compound .disjunction a b => .forked (.ofSentence a) (.ofSentence b)
  | compound .conditional a b => .forked (.ofSentence (negation a)) (.ofSentence b)
  | compound .biconditional a b =>
    .forked (.ofSentence (compound .conjunction a b))
      (.ofSentence (compound .conjunction (negation a) (negation b)))
  | negation (atom _) => .literal
  | negation (negation a) => .single (.ofSentence a)
  | negation (compound .conjunction a b) =>
    .forked (.ofSentence (negation a)) (.ofSentence (negation b))
  | negation (compound .disjunction a b) =>
    .stacked (.ofSentence (negation a)) (.ofSentence (negation b))
  | negation (compound .conditional a b) => .stacked (.ofSentence a) (.ofSentence (negation b))
  | negation (compound .biconditional a b) =>
    .forked (.ofSentence (compound .conjunction a (negation b)))
      (.ofSentence (compound .conjunction (negation a) b))

end Sentence

namespace Formula

theorem readNegation_written {a : Sentence} (h : a.Plain) :
    readNegation a.written = .ok (ofSentence (.negation a)) :=
  read_written ((Sentence.plain_negation a).mpr h)

theorem readConjunction_written {a b : Sentence} (ha : a.Plain) (hb : b.Plain) :
    readConjunction a.written b.written = .ok (ofSentence (.compound .conjunction a b)) :=
  read_written ((Sentence.plain_compound .conjunction a b).mpr ⟨ha, hb⟩)

theorem decompose_ofSentence {s : Sentence} (h : s.Plain) :
    (ofSentence s).decompose = .ok s.decomposition := by
  cases s with
  | atom name => rfl
  | compound op a b =>
      obtain ⟨ha, hb⟩ := (Sentence.plain_compound op a b).mp h
      cases op with
      | conjunction => rfl
      | disjunction => rfl
      | conditional =>
          simp only [ofSentence, decompose, text_ofSentence, readNegation_written ha]
          rfl
      | biconditional =>
          have negated := readConjunction_written ((Sentence.plain_negation a).mpr ha)
            ((Sentence.plain_negation b).mpr hb)
          simp only [Sentence.written] at negated
          simp only [ofSentence, decompose, text_ofSentence, readConjunction_written ha hb, negated]
          rfl
  | negation s =>
      cases s with
      | atom name => rfl
      | negation a => rfl
      | compound op a b =>
          obtain ⟨ha, hb⟩ := (Sentence.plain_compound op a b).mp h
          cases op with
          | conjunction =>
              simp only [ofSentence, decompose, text_ofSentence, readNegation_written ha,
                readNegation_written hb]
              rfl
          | disjunction =>
              simp only [ofSentence, decompose, text_ofSentence, readNegation_written ha,
                readNegation_written hb]
              rfl
          | conditional =>
              simp only [ofSentence, decompose, text_ofSentence, readNegation_written hb]
              rfl
          | biconditional =>
              have left := readConjunction_written ha ((Sentence.plain_negation b).mpr hb)
              have right := readConjunction_written ((Sentence.plain_negation a).mpr ha) hb
              simp only [Sentence.written] at left right
              simp only [ofSentence, decompose, text_ofSentence, left, right]
              rfl

theorem halves_eq_ok {shape : Formula → Formula → Decomposition} {d : Decomposition}
    {first second : Except UnknownConnective Formula} (h : halves shape first second = .ok d) :
    ∃ f g, first = .ok f ∧ second = .ok g ∧ d = shape f g := by
  unfold halves at h
  split at h
  · next f g => exact ⟨f, g, rfl, rfl, (Except.ok.inj h).symm⟩
  · cases h
  · cases h

theorem decompose_proper_iff {f : Formula} {d : Decomposition} (h : f.decompose = .ok d) :
    d ≠ .literal ↔ f.canExpand = true := by
  unfold decompose at h
  split at h
  case h_1 | h_2 | h_3 | h_6 | h_7 => simp [← Except.ok.inj h, canExpand, isAtom]
  -- The other rules put two halves together, in a shape that is no literal.
  all_goals
    obtain ⟨left, right, -, -, rfl⟩ := halves_eq_ok h
    simp [canExpand, isAtom]

theorem branches_eq_isForked {f : Formula} {d : Decomposition} (h : f.decompose = .ok d) :
    f.branches = d.isForked := by
  unfold decompose at h
  split at h
  case h_1 | h_2 | h_3 | h_6 | h_7 =>
    simp [← Except.ok.inj h, branches, Decomposition.isForked]
  all_goals
    obtain ⟨left, right, -, -, rfl⟩ := halves_eq_ok h
    simp [branches, Decomposition.isForked]

@[simp] theorem holds_ofSentence (valuation : Text → Bool) (s : Sentence) :
    (ofSentence s).holds valuation = s.holds valuation := by
  rw [holds, sentence_ofSentence]

end Formula

namespace Sentence

theorem lighter_of_mem_alternatives {s : Sentence} {alternative : List Formula} {f : Formula}
    (h : alternative ∈ s.decomposition.alternatives) (hf : f ∈ alternative) :
    ∃ a : Sentence, f = .ofSentence a ∧ a.weight < s.weight ∧ ∀ name ∈ a.atoms, name ∈ s.atoms := by
  have member : f ∈ s.decomposition.alternatives.flatten := List.mem_flatten.mpr ⟨_, h, hf⟩
  clear h hf
  unfold decomposition at member
  split at member
  case h_1 | h_6 => simp [Decomposition.alternatives] at member
  case h_7 =>
    simp only [Decomposition.alternatives, List.flatten_cons, List.flatten_nil, List.append_nil,
      List.mem_singleton] at member
    exact ⟨_, member, by simp only [weight]; omega, by simp [atoms]⟩
  all_goals
    next a b =>
      have ha := a.weight_pos
      have hb := b.weight_pos
      simp only [Decomposition.alternatives, List.flatten_cons, List.flatten_nil, List.append_nil,
        List.cons_append, List.nil_append, List.mem_cons, List.not_mem_nil, or_false] at member
      rcases member with member | member
      all_goals exact ⟨_, member, by simp only [weight]; omega, by simp +contextual [atoms]⟩

theorem holds_iff_alternative (valuation : Text → Bool) {s : Sentence}
    (h : s.decomposition ≠ .literal) :
    s.holds valuation = true ↔
      ∃ alternative ∈ s.decomposition.alternatives, ∀ f ∈ alternative, f.holds valuation = true := by
  unfold decomposition at h ⊢
  split at h
  case h_1 | h_6 => exact absurd rfl h
  all_goals simp [Decomposition.alternatives, holds, Connective.combine]
  -- The biconditional rules are left: both sides depend on the two values only.
  all_goals
    next a b =>
      cases a.holds valuation <;> cases b.holds valuation <;> simp

end Sentence

namespace Formula.Strict

theorem plain {s : Sentence} (h : (ofSentence s).Strict) : s.Plain := by
  obtain ⟨s', lexical, same⟩ := h
  have sentences := congrArg sentence same
  rw [sentence_ofSentence, sentence_ofSentence] at sentences
  exact sentences ▸ lexical.plain

theorem exists_decompose {f : Formula} (h : f.Strict) : ∃ d, f.decompose = .ok d := by
  obtain ⟨s, lexical, rfl⟩ := h
  exact ⟨s.decomposition, decompose_ofSentence lexical.plain⟩

theorem of_mem_alternatives {f g : Formula} {d : Decomposition} {alternative : List Formula}
    (h : f.Strict) (hd : f.decompose = .ok d) (halternative : alternative ∈ d.alternatives)
    (hg : g ∈ alternative) : g.Strict := by
  obtain ⟨s, lexical, rfl⟩ := h
  rw [decompose_ofSentence lexical.plain] at hd
  cases hd
  obtain ⟨a, rfl, -, atoms⟩ := Sentence.lighter_of_mem_alternatives halternative hg
  exact ⟨a, fun name hname => lexical name (atoms name hname), rfl⟩

theorem holds_iff_alternative {f : Formula} {d : Decomposition} (valuation : Text → Bool)
    (h : f.Strict) (hd : f.decompose = .ok d) (expandable : f.canExpand = true) :
    f.holds valuation = true ↔
      ∃ alternative ∈ d.alternatives, ∀ g ∈ alternative, g.holds valuation = true := by
  have proper := (decompose_proper_iff hd).mpr expandable
  obtain ⟨s, lexical, rfl⟩ := h
  rw [decompose_ofSentence lexical.plain] at hd
  cases hd
  rw [holds_ofSentence]
  exact Sentence.holds_iff_alternative valuation proper

theorem eq_negation_of_negates {a b : Sentence} (ha : a.Plain) (hb : b.Plain)
    (h : (ofSentence a).negates (ofSentence b) = true) : a = .negation b := by
  cases a with
  | atom name => simp [ofSentence, negates] at h
  | compound op a c => simp [ofSentence, negates] at h
  | negation a =>
      have same : a.written = b.written := by simpa [ofSentence, negates] using h
      rw [Sentence.eq_of_written_eq ((Sentence.plain_negation a).mp ha) hb same]

theorem not_holds_of_contradicts {f g : Formula} (hf : f.Strict) (hg : g.Strict)
    (contradiction : f.contradicts g = true) (valuation : Text → Bool)
    (truth : f.holds valuation = true) : g.holds valuation = false := by
  obtain ⟨a, ha, rfl⟩ := hf
  obtain ⟨b, hb, rfl⟩ := hg
  rw [holds_ofSentence] at truth ⊢
  rcases Bool.or_eq_true_iff.mp contradiction with h | h
  · rw [eq_negation_of_negates ha.plain hb.plain h] at truth
    simpa [Sentence.holds] using truth
  · rw [eq_negation_of_negates hb.plain ha.plain h]
    simpa [Sentence.holds] using truth

theorem not_contradicts_self {f : Formula} (h : f.Strict) : f.contradicts f = false := by
  obtain ⟨a, ha, rfl⟩ := h
  rw [← Bool.not_eq_true]
  intro contradiction
  have negates := or_self_iff.mp (Bool.or_eq_true_iff.mp contradiction)
  have weights := congrArg Sentence.weight (eq_negation_of_negates ha.plain ha.plain negates)
  simp [Sentence.weight] at weights

end Formula.Strict

end TruthTree
