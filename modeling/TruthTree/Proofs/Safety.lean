import TruthTree.Proofs.ArenaRefinement
import TruthTree.Proofs.Normalization

/-! Runs over premises that are read strictly are safe. The formulas of such a run keep to canonical
texts, the texts put together by the rules included, so reading them back never fails and every
operation is accepted or refused. In the arena every number and link that is looked up is that of a
node, and every loop ends. -/
namespace TruthTree

namespace Formula.Strict

theorem normalize_text {f : Formula} (h : f.Strict) : Sentence.normalize f.text = .ok f.text := by
  obtain ⟨s, lexical, rfl⟩ := h
  rw [text_ofSentence]
  exact Sentence.normalize_written lexical

theorem readStrict_text {f : Formula} (h : f.Strict) : Premise.readStrict f.text = .ok f := by
  have normal := h.normalize_text
  obtain ⟨s, lexical, rfl⟩ := h
  rw [text_ofSentence] at normal ⊢
  simp only [Premise.readStrict, normal, Premise.readPlain, read_written lexical.plain,
    Except.mapError]

end Formula.Strict

namespace Tableau

theorem StrictlyBuilt.strict_formula {t : Tableau} (h : t.StrictlyBuilt) {s : Statement}
    (hs : s ∈ t.tree.statements) : s.formula.Strict := by
  obtain ⟨p, hp, rfl⟩ := exists_place_of_mem_statements hs
  exact h.strict.above h.built.numbered hp List.mem_cons_self

theorem StrictlyBuilt.expand_settled {t : Tableau} (h : t.StrictlyBuilt) (number : Int) :
    (t.expand number).2 = .accepted ∨ ∃ reason, (t.expand number).2 = .refused reason := by
  -- The decomposition of a strict formula can always be read.
  unfold expand
  split
  · next outcome failed =>
      rcases expansion_eq_error failed with ⟨reason, rfl⟩ | ⟨p, e, found, unreadable, -⟩
      · exact .inr ⟨reason, rfl⟩
      · obtain ⟨hp, -⟩ := (place?_eq_some_iff h.built.numbered.nodup).mp found
        have strict := h.strict.above h.built.numbered hp List.mem_cons_self
        obtain ⟨d, rule⟩ := strict.exists_decompose
        rw [rule] at unreadable
        cases unreadable
  · exact .inl rfl

theorem close_settled (t : Tableau) (first second : Int) :
    (t.close first second).2 = .accepted ∨ ∃ reason, (t.close first second).2 = .refused reason := by
  unfold close
  split
  · next outcome failed =>
      obtain ⟨reason, rfl⟩ := closure_eq_error failed
      exact .inr ⟨reason, rfl⟩
  · exact .inl rfl

theorem isConclusive_status (t : Tableau) : t.status.isConclusive = t.isDone := by
  unfold status
  split
  · next closed => simp [Status.isConclusive, isDone, remaining?, closed]
  · next opened => cases done : t.isDone <;> rfl

/-- Runs over strictly read premises are safe. Whatever numbers it names, an operation is accepted or
refused and never fails on a text that cannot be read; the test for completion and the status agree;
the traversal lists every statement; and the text of every formula in the tree is canonical and is
read back as just that formula. The arena goes through the same run, and operations, tests and
traversal have a result there, where each of them looks up numbers and follows links. -/
theorem strict_run_is_safe {t : Tableau} (h : t.StrictlyReachable) :
    (∀ number, (t.expand number).2 = .accepted ∨
      ∃ reason, (t.expand number).2 = .refused reason) ∧
    (∀ first second, (t.close first second).2 = .accepted ∨
      ∃ reason, (t.close first second).2 = .refused reason) ∧
    t.status.isConclusive = t.isDone ∧
    t.traverse.map Place.statement = t.tree.statements ∧
    (∀ s ∈ t.tree.statements, Sentence.normalize s.formula.text = .ok s.formula.text ∧
      Premise.readStrict s.formula.text = .ok s.formula) ∧
    (∃ first rest calls, (Arena.ofPremises first rest).bind (·.run calls) = some t.arena) ∧
    (∀ operation, t.arena.perform operation =
      some ((t.perform operation).1.arena, (t.perform operation).2)) ∧
    t.arena.isDone = some t.isDone ∧ t.arena.status = some t.status ∧
    t.arena.traverse = some (t.traverse.map Place.node) := by
  have sound := h.strictlyBuilt
  have built := sound.built
  refine ⟨sound.expand_settled, t.close_settled, t.isConclusive_status, ?_, ?_, ?_,
    arena_perform built, arena_isDone built, arena_status built, arena_traverse built⟩
  · rw [traverse_eq_places]
    exact Tree.map_statement_places [] t.tree
  · intro s hs
    have strict := sound.strict_formula hs
    exact ⟨strict.normalize_text, strict.readStrict_text⟩
  · obtain ⟨first, rest, calls, rfl⟩ := h.reachable
    exact ⟨first, rest, calls, arena_of_calls first rest calls⟩

-- The denial of a biconditional, written without spaces, is expanded; a premise joins the first of
-- the two conjunctions, and a number that names no statement is refused.
theorem strict_run_is_safe_biconditional :
    let either : Sentence := .compound .disjunction (.atom ['Q']) (.atom ['R'])
    let denial : Sentence := .negation (.compound .biconditional (.atom ['P']) either)
    let t := (ofPremises (.ofSentence denial) []).serve
      [.perform (.expand 1), .addPremise "( not  P )".toList, .perform (.expand (-7))]
    t.StrictlyReachable ∧ t.refusal = some .outOfRange ∧
      t.tree.statements.map (·.formula.text) =
        ["(not (iff P (or Q R)))".toList, "(and P (not (or Q R)))".toList, "(not P)".toList,
          "(and (not P) (or Q R))".toList] ∧
      (∀ number, (t.expand number).2 = .accepted ∨
        ∃ reason, (t.expand number).2 = .refused reason) ∧
      (∀ first second, (t.close first second).2 = .accepted ∨
        ∃ reason, (t.close first second).2 = .refused reason) ∧
      t.status.isConclusive = t.isDone ∧
      t.traverse.map Place.statement = t.tree.statements ∧
      (∀ s ∈ t.tree.statements, Sentence.normalize s.formula.text = .ok s.formula.text ∧
        Premise.readStrict s.formula.text = .ok s.formula) ∧
      (∃ first rest calls, (Arena.ofPremises first rest).bind (·.run calls) = some t.arena) ∧
      (∀ operation, t.arena.perform operation =
        some ((t.perform operation).1.arena, (t.perform operation).2)) ∧
      t.arena.isDone = some t.isDone ∧ t.arena.status = some t.status ∧
      t.arena.traverse = some (t.traverse.map Place.node) := by
  intro either denial t
  have built : ofTexts true ["(not(iff P(or Q R)))".toList] =
      .ok (ofPremises (.ofSentence denial) []) := by
    unfold denial either
    cbv
  have reachable : t.StrictlyReachable := ⟨_, _, _, built, rfl⟩
  have refused : t.refusal = some .outOfRange := by
    unfold t denial either
    cbv
  have texts : t.tree.statements.map (·.formula.text) =
      ["(not (iff P (or Q R)))".toList, "(and P (not (or Q R)))".toList, "(not P)".toList,
        "(and (not P) (or Q R))".toList] := by
    unfold t denial either
    cbv
  exact ⟨reachable, refused, texts, strict_run_is_safe reachable⟩

end Tableau

end TruthTree
