import TruthTree.Proofs.ReadBack

/-! Texts tell formulas apart. Formulas are compared by their texts alone, wherever they come from: read
from a text, cut out of one, put together by a rule, or stated in a tableau. Each of them is what its own
text is read as, so no two different formulas have one text, not even formulas of malformed texts. -/
namespace TruthTree

namespace Formula

def operands : Formula → List Formula
  | atom _ => []
  | negation _ a => [a]
  | compound _ _ a b => [a, b]

theorem ReadsBack.of_mem_operands {f g : Formula} (h : f.ReadsBack) (hg : g ∈ f.operands) :
    g.ReadsBack ∧ g.text.length < f.text.length := by
  cases f with
  | atom t => cases hg
  | negation t a =>
      obtain rfl := List.mem_singleton.mp hg
      exact h.operand
  | compound t op a b =>
      obtain ⟨left, right⟩ := h.sides
      rcases List.mem_pair.mp hg with rfl | rfl
      · exact left
      · exact right

/-- A formula that can come up: read from a text, stated in a tableau over plainly read premises, an
operand of one that comes up, or one of those that such a formula decomposes into. -/
inductive ComesUp : Formula → Prop
  | parsed {source : Text} {f : Formula} (reading : Premise.readPlain source = .ok f) : ComesUp f
  | stated {t : Tableau} {s : Statement} (reachable : t.PlainlyReachable) (hs : s ∈ t.tree.statements) :
      ComesUp s.formula
  | operand {f g : Formula} (whole : ComesUp f) (hg : g ∈ f.operands) : ComesUp g
  | half {f g : Formula} {d : Decomposition} (whole : ComesUp f) (rule : f.decompose = .ok d)
      (hg : g ∈ d.parts) : ComesUp g

end Formula

namespace Tableau

theorem PlainlyReachable.readsBack {t : Tableau} (h : t.PlainlyReachable) {s : Statement}
    (hs : s ∈ t.tree.statements) : s.formula.ReadsBack := by
  obtain ⟨sound, -⟩ := h.invariant (fun _ => True) (fun _ => trivial) fun _ _ _ _ => trivial
  obtain ⟨p, hp, rfl⟩ := exists_place_of_mem_statements hs
  exact sound.readable.above sound.built.numbered hp List.mem_cons_self

end Tableau

namespace Formula

theorem ComesUp.readsBack {f : Formula} (h : f.ComesUp) : f.ReadsBack := by
  induction h with
  | parsed reading => exact Parsed.readsBack ⟨_, reading⟩
  | stated reachable hs => exact reachable.readsBack hs
  | operand whole hg ih => exact (ih.of_mem_operands hg).1
  | half whole rule hg ih => exact ih.decompose rule _ hg

theorem ReadsBack.eq_of_text_eq {f g : Formula} (hf : f.ReadsBack) (hg : g.ReadsBack)
    (same : f.text = g.text) : f = g := by
  rw [ReadsBack, same, hg] at hf
  exact (Except.ok.inj hf).symm

def Canonical (f : Formula) : Prop := ∃ s : Sentence, s.Plain ∧ f.text = s.written

theorem Canonical.eq_ofSentence {f : Formula} (h : f.Canonical) (readsBack : f.ReadsBack) :
    ∃ s, f = ofSentence s := by
  obtain ⟨s, plain, text⟩ := h
  rw [ReadsBack, text, read_written plain] at readsBack
  exact ⟨s, (Except.ok.inj readsBack).symm⟩

theorem ReadsBack.eq_negation {c f : Formula} (hc : c.ReadsBack) (hf : f.ReadsBack)
    (text : c.text = Sentence.writtenNegation f.text) : c = negation c.text f := by
  rw [ReadsBack, text, read_writtenNegation, hf] at hc
  rw [text]
  exact (Except.ok.inj hc).symm

theorem ReadsBack.negates_iff {c f : Formula} (hc : c.ReadsBack) (hf : f.ReadsBack)
    (canonical : c.Canonical) : c.negates f = true ↔ c.text = Sentence.writtenNegation f.text := by
  constructor
  · intro negates
    obtain ⟨s, rfl⟩ := canonical.eq_ofSentence hc
    cases s with
    | atom name => cases negates
    | compound op a b => cases negates
    | negation a =>
        have operand : a.written = f.text := by simpa [ofSentence, Formula.negates] using negates
        rw [text_ofSentence, Sentence.written, operand]
  · intro text
    rw [hc.eq_negation hf text]
    simp [Formula.negates]

/-- Equality of texts is equality of formulas. Whatever comes up is what its own text is read as, and its
operands have shorter texts; so formulas with the same text are the same, and where the denial has a
canonical text, being the negation of a formula is a matter of how the text is written. -/
theorem text_identifies_formula :
    (∀ f : Formula, f.ComesUp →
      read f.text = .ok f ∧ ∀ g ∈ f.operands, g.text.length < f.text.length) ∧
    (∀ f g : Formula, f.ComesUp → g.ComesUp → f.text = g.text → f = g) ∧
    ∀ c f : Formula, c.ComesUp → f.ComesUp → c.Canonical →
      (c.negates f = true ↔ c.text = Sentence.writtenNegation f.text) := by
  refine ⟨?_, ?_, ?_⟩
  · intro f hf
    exact ⟨hf.readsBack, fun g hg => (hf.readsBack.of_mem_operands hg).2⟩
  · intro f g hf hg same
    exact hf.readsBack.eq_of_text_eq hg.readsBack same
  · intro c f hc hf canonical
    exact hc.readsBack.negates_iff hf.readsBack canonical

-- A biconditional without its last parenthesis loses the letter there. It is expanded all the same,
-- and its left side comes up again inside the conjunctions that the rule puts together.
theorem text_identifies_formula_malformed :
    let denial := negation "(not P)".toList (atom ['P'])
    let broken := compound "(iff (not P) Q".toList .biconditional denial (atom [])
    let half := compound "(and (not P) )".toList .conjunction denial (atom [])
    let other := compound "(and (not (not P)) (not ))".toList .conjunction
      (negation "(not (not P))".toList denial) (negation "(not )".toList (atom []))
    let t := (Tableau.ofPremises broken []).run [.perform (.expand 1)]
    t.PlainlyReachable ∧ t.tree.statements.map (·.formula) = [broken, half, other] ∧
      (half.ComesUp ∧ denial.ComesUp ∧ (atom ['P']).ComesUp ∧ denial.Canonical) ∧
      (read half.text = .ok half ∧ ∀ g ∈ half.operands, g.text.length < half.text.length) ∧
      (∀ f : Formula, f.ComesUp → f.text = denial.text → f = denial) ∧
      (denial.negates (atom ['P']) = true ↔ denial.text = Sentence.writtenNegation ['P']) := by
  intro denial broken half other t
  have reading : Premise.readPlain "(iff (not P) Q".toList = .ok broken := by
    unfold broken denial
    cbv
  have formulas : t.tree.statements.map (·.formula) = [broken, half, other] := by
    unfold t other half broken denial
    cbv
  have reachable : t.PlainlyReachable := by
    refine ⟨broken, [], _, ?_, by simp, rfl⟩
    simpa using ⟨_, reading⟩
  clear_value t
  obtain ⟨s, hs, second⟩ : ∃ s ∈ t.tree.statements, s.formula = half :=
    List.mem_map.mp (by simp [formulas])
  have hhalf : half.ComesUp := second ▸ .stated reachable hs
  have hdenial : denial.ComesUp := .operand hhalf (by simp [half, operands])
  have hatom : (atom ['P']).ComesUp := .operand hdenial (by simp [denial, operands])
  have canonical : denial.Canonical :=
    ⟨.negation (.atom ['P']), by simp [Sentence.PlainName], by decide⟩
  obtain ⟨readsBack, identical, negates⟩ := text_identifies_formula
  exact ⟨reachable, formulas, ⟨hhalf, hdenial, hatom, canonical⟩, readsBack half hhalf,
    fun f hf => identical f denial hf hdenial, negates denial (atom ['P']) hdenial hatom canonical⟩

end Formula

end TruthTree
