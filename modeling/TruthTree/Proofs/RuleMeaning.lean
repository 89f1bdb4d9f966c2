import TruthTree.Proofs.TextIdentity

/-! The meaning of one step of decomposition, on malformed texts too. The rules can be said of the operands
as they stand, and then they keep the meaning of every formula. Reading the negation of any text whatever
gives back its operand, so the step agrees with the rules wherever they only negate. The rules for the
biconditional put two texts side by side, and there the step agrees on canonical texts. -/
namespace TruthTree

def Decomposition.holds (valuation : Text → Bool) : Decomposition → Bool
  | literal => true
  | single f => f.holds valuation
  | stacked f g => f.holds valuation && g.holds valuation
  | forked f g => f.holds valuation || g.holds valuation

theorem Decomposition.holds_halves {d : Decomposition} (proper : d ≠ .literal) :
    ∃ left, d.left? = some left ∧
      (d.right? = none → d.isForked = false ∧ ∀ valuation, d.holds valuation = left.holds valuation) ∧
      ∀ right, d.right? = some right → ∀ valuation, d.holds valuation =
        if d.isForked then left.holds valuation || right.holds valuation
        else left.holds valuation && right.holds valuation := by
  cases d with
  | literal => exact absurd rfl proper
  | single f => exact ⟨f, rfl, fun _ => ⟨rfl, fun _ => rfl⟩, nofun⟩
  | stacked f g =>
      refine ⟨f, rfl, nofun, ?_⟩
      rintro right ⟨⟩ valuation
      rfl
  | forked f g =>
      refine ⟨f, rfl, nofun, ?_⟩
      rintro right ⟨⟩ valuation
      rfl

namespace Formula

@[simp] theorem text_negation (t : Text) (a : Formula) : (negation t a).text = t := rfl

@[simp] theorem holds_negation (valuation : Text → Bool) (t : Text) (a : Formula) :
    (negation t a).holds valuation = !a.holds valuation := rfl

@[simp] theorem holds_compound (valuation : Text → Bool) (t : Text) (op : Connective) (a b : Formula) :
    (compound t op a b).holds valuation = op.combine (a.holds valuation) (b.holds valuation) := rfl

def negated (a : Formula) : Formula := negation (Sentence.writtenNegation a.text) a

def conjoined (a b : Formula) : Formula :=
  compound (Sentence.writtenCompound .conjunction a.text b.text) .conjunction a b

/-- The decomposition rules on the operands as they stand, with nothing read from a text. -/
def rule : Formula → Decomposition
  | atom _ => .literal
  | compound _ .conjunction a b => .stacked a b
  | compound _ .disjunction a b => .forked a b
  | compound _ .conditional a b => .forked a.negated b
  | compound _ .biconditional a b => .forked (a.conjoined b) (a.negated.conjoined b.negated)
  | negation _ (atom _) => .literal
  | negation _ (negation _ a) => .single a
  | negation _ (compound _ .conjunction a b) => .forked a.negated b.negated
  | negation _ (compound _ .disjunction a b) => .stacked a.negated b.negated
  | negation _ (compound _ .conditional a b) => .stacked a b.negated
  | negation _ (compound _ .biconditional a b) =>
    .forked (a.conjoined b.negated) (a.negated.conjoined b)

def isEquivalence : Formula → Bool
  | compound _ .biconditional _ _ => true
  | negation _ (compound _ .biconditional _ _) => true
  | _ => false

theorem holds_rule (valuation : Text → Bool) {f : Formula} (h : f.canExpand = true) :
    f.rule.holds valuation = f.holds valuation := by
  unfold rule
  split
  case h_1 | h_6 => simp [canExpand, isAtom] at h
  all_goals
    simp only [Decomposition.holds, negated, conjoined, holds_negation, holds_compound,
      Connective.combine, Bool.not_not, Bool.not_and, Bool.not_or]
  -- The biconditional rules are left: both sides depend on the two values only.
  all_goals
    next a b => cases a.holds valuation <;> cases b.holds valuation <;> rfl

theorem ReadsBack.readNegation {a : Formula} (h : a.ReadsBack) :
    readNegation a.text = .ok a.negated := by
  rw [Formula.readNegation, read_writtenNegation, h]
  rfl

theorem ReadsBack.decompose_eq_rule {f : Formula} (h : f.ReadsBack) (simple : f.isEquivalence = false) :
    f.decompose = .ok f.rule := by
  cases f with
  | atom t => rfl
  | compound t op a b =>
      obtain ⟨⟨ha, -⟩, -, -⟩ := h.sides
      cases op with
      | conjunction => rfl
      | disjunction => rfl
      | conditional => simp only [Formula.decompose, ha.readNegation, halves, rule]
      | biconditional => cases simple
  | negation t s =>
      cases s with
      | atom t' => rfl
      | negation t' a => rfl
      | compound t' op a b =>
          obtain ⟨⟨ha, -⟩, hb, -⟩ := h.operand.1.sides
          cases op with
          | conjunction => simp only [Formula.decompose, ha.readNegation, hb.readNegation, halves, rule]
          | disjunction => simp only [Formula.decompose, ha.readNegation, hb.readNegation, halves, rule]
          | conditional => simp only [Formula.decompose, hb.readNegation, halves, rule]
          | biconditional => cases simple

theorem rule_ofSentence (s : Sentence) : (ofSentence s).rule = s.decomposition := by
  unfold Sentence.decomposition
  split <;> simp [ofSentence, rule, negated, conjoined, Sentence.written]

theorem ReadsBack.eq_ofSentence {f : Formula} (h : f.ReadsBack) {s : Sentence} (plain : s.Plain)
    (text : f.text = s.written) : f = ofSentence s := by
  rw [ReadsBack, text, read_written plain] at h
  exact (Except.ok.inj h).symm

theorem ReadsBack.decompose_eq_rule_of_canonical {f : Formula} (h : f.ReadsBack) (canonical : f.Canonical) :
    f.decompose = .ok f.rule := by
  obtain ⟨s, plain, text⟩ := canonical
  rw [h.eq_ofSentence plain text, decompose_ofSentence plain, rule_ofSentence]

theorem mem_parts_iff_half {d : Decomposition} {g : Formula} :
    g ∈ d.parts ↔ d.left? = some g ∨ d.right? = some g := by
  cases d <;> simp [Decomposition.parts, Decomposition.alternatives, Decomposition.left?,
    Decomposition.right?, eq_comm]

theorem ReadsBack.canonical_of_mem_parts {f : Formula} (h : f.ReadsBack) {s : Sentence} (plain : s.Plain)
    (text : f.text = s.written) {g : Formula} (hg : g ∈ f.rule.parts) :
    ∃ a : Sentence, a.Plain ∧ g.text = a.written ∧ ∀ name ∈ a.atoms, name ∈ s.atoms := by
  rw [h.eq_ofSentence plain text, rule_ofSentence] at hg
  obtain ⟨alternative, halternative, hg⟩ := List.mem_flatten.mp hg
  obtain ⟨a, rfl, -, atoms⟩ := Sentence.lighter_of_mem_alternatives halternative hg
  exact ⟨a, fun name hname => plain name (atoms name hname), text_ofSentence a, atoms⟩

/-- One step of decomposition keeps the meaning. It succeeds on every formula that some text is read as, be
the text malformed, unless a biconditional is involved; there it succeeds if the text is canonical. A
formula that cannot be expanded has no halves. Any other holds just when its only half does, when one of
two halves does if it branches, and when both do if it does not. The halves of a canonical text are
canonical, over the same atoms. -/
theorem decompose_keeps_meaning {f : Formula} (parsed : f.Parsed)
    (faithful : f.isEquivalence = false ∨ f.Canonical) :
    ∃ d, f.decompose = .ok d ∧
      (f.canExpand = false → d.left? = none ∧ d.right? = none) ∧
      (f.canExpand = true → ∃ left, d.left? = some left ∧ ∀ valuation,
        (d.right? = none → f.branches = false ∧
          (f.holds valuation = true ↔ left.holds valuation = true)) ∧
        ∀ right, d.right? = some right →
          (f.branches = true →
            (f.holds valuation = true ↔ left.holds valuation = true ∨ right.holds valuation = true)) ∧
          (f.branches = false →
            (f.holds valuation = true ↔ left.holds valuation = true ∧ right.holds valuation = true))) ∧
      ∀ s : Sentence, s.Plain → f.text = s.written →
        ∀ g, d.left? = some g ∨ d.right? = some g →
          ∃ a : Sentence, a.Plain ∧ g.text = a.written ∧ ∀ name ∈ a.atoms, name ∈ s.atoms := by
  have readsBack := parsed.readsBack
  have step : f.decompose = .ok f.rule := by
    rcases faithful with simple | canonical
    · exact readsBack.decompose_eq_rule simple
    · exact readsBack.decompose_eq_rule_of_canonical canonical
  have proper := decompose_proper_iff step
  have forked := branches_eq_isForked step
  refine ⟨f.rule, step, ?_, ?_, ?_⟩
  · intro literal
    have none : f.rule = .literal := by simpa [literal] using proper
    rw [none]
    exact ⟨rfl, rfl⟩
  · intro expandable
    obtain ⟨left, hleft, single, pair⟩ := Decomposition.holds_halves (proper.mpr expandable)
    refine ⟨left, hleft, fun valuation => ?_⟩
    rw [← holds_rule valuation expandable, forked]
    refine ⟨fun alone => ?_, fun right hright => ?_⟩
    · obtain ⟨straight, same⟩ := single alone
      exact ⟨straight, by rw [same]⟩
    · rw [pair right hright]
      refine ⟨fun branches => ?_, fun straight => ?_⟩
      · simp [branches]
      · simp [straight]
  · intro s plain text g half
    exact readsBack.canonical_of_mem_parts plain text (mem_parts_iff_half.mpr half)

-- The denial of a disjunction whose text breaks off inside its right side, and a biconditional with
-- a canonical text.
theorem decompose_keeps_meaning_malformed :
    let broken := compound "(and".toList .conjunction (atom []) (atom [])
    let f := negation "(not (or P (and Q".toList
      (compound "(or P (and ".toList .disjunction (atom ['P']) broken)
    let s : Sentence := .compound .biconditional (.atom ['P']) (.negation (.atom ['Q']))
    let g := compound "(iff P (not Q))".toList .biconditional (atom ['P'])
      (negation "(not Q)".toList (atom ['Q']))
    (f.Parsed ∧ f.isEquivalence = false ∧
      ∃ left right, f.decompose = .ok (.stacked left right) ∧ right.text = "(not (and)".toList ∧
        ∀ valuation, f.holds valuation = true ↔
          left.holds valuation = true ∧ right.holds valuation = true) ∧
    g.Parsed ∧ g.text = s.written ∧
      ∃ left right, g.decompose = .ok (.forked left right) ∧
        right.text = "(and (not P) (not (not Q)))".toList ∧
        (∀ valuation, g.holds valuation = true ↔
          left.holds valuation = true ∨ right.holds valuation = true) ∧
        ∃ a : Sentence, a.Plain ∧ right.text = a.written ∧ ∀ name ∈ a.atoms, name ∈ s.atoms := by
  intro broken f s g
  have parsed : f.Parsed := ⟨"(not (or P (and Q".toList, by unfold f broken; cbv⟩
  have parsed' : g.Parsed := ⟨"(iff P (not Q))".toList, by unfold g; cbv⟩
  have plain : s.Plain := by simp [s, Sentence.PlainName]
  have text : g.text = s.written := by unfold g s; cbv
  have step : f.decompose = .ok (.stacked (negation "(not P)".toList (atom ['P']))
      (negation "(not (and)".toList broken)) := by
    unfold f broken
    cbv
  have step' : g.decompose = .ok (.forked
      (compound "(and P (not Q))".toList .conjunction (atom ['P'])
        (negation "(not Q)".toList (atom ['Q'])))
      (compound "(and (not P) (not (not Q)))".toList .conjunction
        (negation "(not P)".toList (atom ['P']))
        (negation "(not (not Q))".toList (negation "(not Q)".toList (atom ['Q']))))) := by
    unfold g
    cbv
  constructor
  · obtain ⟨d, same, -, meaning, -⟩ := decompose_keeps_meaning parsed (.inl rfl)
    obtain rfl := Except.ok.inj (step.symm.trans same)
    obtain ⟨left, ⟨⟩, both⟩ := meaning rfl
    exact ⟨parsed, rfl, _, _, step, rfl, fun valuation => ((both valuation).2 _ rfl).2 rfl⟩
  · obtain ⟨d, same, -, meaning, canonical⟩ :=
      decompose_keeps_meaning parsed' (.inr ⟨s, plain, text⟩)
    obtain rfl := Except.ok.inj (step'.symm.trans same)
    obtain ⟨left, ⟨⟩, both⟩ := meaning rfl
    exact ⟨parsed', text, _, _, step', rfl, fun valuation => ((both valuation).2 _ rfl).1 rfl,
      canonical s plain text _ (.inr rfl)⟩

end Formula

end TruthTree
