import TruthTree.Proofs.Nodes
import TruthTree.Proofs.ReadBack

/-! Closures are justified. Statements are closed because they are named in a closure, stand below one
that is, stand above closed ones only, or come in below a closed one; whatever the reason, each branch
through a closed statement has a statement and its negation on it, and keeps them. -/
namespace TruthTree

namespace Branch

def Contradictory (b : Branch) : Prop :=
  ∃ e ∈ b.path, ∃ e' ∈ b.path, e.number ≠ e'.number ∧ e.formula.contradicts e'.formula = true

theorem Contradictory.extend {b : Branch} (h : b.Contradictory) (entries : List Entry) :
    (b.extend entries).Contradictory := by
  obtain ⟨e, he, e', he', apart, contradiction⟩ := h
  exact ⟨e, List.mem_append_left _ he, e', List.mem_append_left _ he', apart, contradiction⟩

end Branch

namespace Tree

theorem mem_places_of_mem_below {t : Tree} {above : List Statement} {p : Place}
    (hp : p ∈ t.places above) : ∀ q ∈ p.here.places p.above, q ∈ t.places above :=
  places_induction hp fun _ _ _ hq place => mem_places_of_mem_children place hq

theorem statement_mem_of_mem_below (p : Place) :
    ∀ q ∈ p.here.places p.above, p.statement ∈ q.statement :: q.above := by
  apply places_induction
  · exact List.mem_cons_self
  · intro q _ r hr up
    rw [Place.above_of_mem_children hr]
    exact List.mem_cons_of_mem _ up

theorem branch_of_leaf {t : Tree} {q : Place} (hq : q ∈ t.places []) (leaf : q.isLeaf = true) :
    (q.statement :: q.above).reverse ∈ t.branches := by
  have alone : [q.statement] ∈ q.here.branches := by
    obtain ⟨above, here⟩ := q
    cases here with
    | leaf s => exact List.mem_singleton_self _
    | chain s t => cases leaf
    | fork s l r => cases leaf
  obtain ⟨b, hb, same⟩ := branch_of_mem_places hq alone
  rw [List.reverse_cons, ← same]
  exact hb

end Tree

namespace Tableau

/-- Every closed branch is contradictory. -/
def Justified (t : Tableau) : Prop := ∀ b ∈ t.view, b.closed = true → b.Contradictory

theorem justified_start (premise : Formula) : (start premise).Justified := by
  simp [Justified, view, start, Statement.fresh]

theorem contradictory_of_closure {t : Tableau} (sound : t.PlainlyBuilt) {p : Place} {s : Statement}
    (place : p ∈ t.places) (above : s ∈ p.statement :: p.above)
    (contradiction : p.statement.formula.contradicts s.formula = true) {b : Branch} (hb : b ∈ t.view)
    (passes : b.passes p.statement.number = true) : b.Contradictory := by
  have numbered := sound.built.numbered
  have lower := entry_mem_of_passes numbered.nodup place hb passes List.mem_cons_self
  have upper := entry_mem_of_passes numbered.nodup place hb passes above
  refine ⟨p.statement.entry, lower, s.entry, upper, ?_, contradiction⟩
  rcases List.mem_cons.mp above with rfl | above
  · have same := (sound.readable.above numbered place List.mem_cons_self).not_contradicts_self
    rw [same] at contradiction
    cases contradiction
  · exact Nat.ne_of_gt (sound.built.number_lt place above)

theorem Justified.after {t : Tableau} (h : t.Justified) (sound : t.PlainlyBuilt) (call : Call) :
    (t.after call).Justified := by
  have change := change_after sound.built.numbered call
  generalize t.after call = u at change
  obtain ⟨tree, next, refusal⟩ := u
  intro c hc closed
  cases change with
  | declined operation => exact h c hc closed
  | @expanded p d place fresh rule proper =>
      rw [view, Tree.view_expandAt sound.built.coherent] at hc
      rcases Branch.of_mem_expandThrough hc with ⟨hb, -⟩ | ⟨b, -, opened, -, -, -, sprout, -, rfl⟩
      · exact h c hb closed
      · rw [Branch.closed_extend, opened] at closed
        cases closed
  | @closed first second p s place lower upper above contradiction =>
      rw [view, Tree.view_closeAt] at hc
      obtain ⟨b, hb, rfl⟩ := List.mem_map.mp hc
      by_cases passes : b.passes p.statement.number = true
      · have named : b.Contradictory :=
          contradictory_of_closure sound place above contradiction hb passes
        rw [if_pos passes]
        exact named
      · rw [if_neg passes] at closed ⊢
        exact h b hb closed
  | premised formula =>
      rw [view, Tree.view_addPremise] at hc
      rcases Branch.of_mem_extendFirst hc with hb | ⟨b, hb, rfl⟩
      · exact h c hb closed
      · exact (h b hb closed).extend _

theorem PlainlyReachable.justified {t : Tableau} (h : t.PlainlyReachable) : t.Justified :=
  (h.invariant Justified justified_start fun _ call sound justified => justified.after sound call).2

/-- No branch is closed without reason. Over plainly read premises, on the way up from any leaf at or below
a closed statement stand two statements that contradict each other. -/
theorem closed_only_by_contradiction {t : Tableau} (h : t.PlainlyReachable) :
    ∀ p ∈ t.places, p.statement.closed = true →
      ∀ q ∈ p.here.places p.above, q.isLeaf = true →
        ∃ s ∈ q.statement :: q.above, ∃ s' ∈ q.statement :: q.above,
          s.number ≠ s'.number ∧ s.formula.contradicts s'.formula = true := by
  intro p hp closed q hq leaf
  have built := h.reachable.wellBuilt
  have branch := Tree.branch_of_leaf (Tree.mem_places_of_mem_below hp q hq) leaf
  have through := Tree.statement_mem_of_mem_below p q hq
  have inView : Branch.ofStatements (q.statement :: q.above).reverse ∈ t.view :=
    List.mem_map_of_mem branch
  have passes : (Branch.ofStatements (q.statement :: q.above).reverse).passes p.statement.number = true :=
    Branch.passes_ofStatements.mpr (List.mem_map_of_mem (List.mem_reverse.mpr through))
  have closedBranch :=
    (closed_iff_view built.coherent built.numbered.nodup hp).mp closed _ inView passes
  obtain ⟨e, he, e', he', apart, contradiction⟩ := h.justified _ inView closedBranch
  obtain ⟨s, hs, rfl⟩ := List.mem_map.mp he
  obtain ⟨s', hs', rfl⟩ := List.mem_map.mp he'
  exact ⟨s, List.mem_reverse.mp hs, s', List.mem_reverse.mp hs', apart, contradiction⟩

-- A disjunction whose text breaks off, so that its right side denies the nameless atom, with
-- premises that contradict both sides. The two closures close the root too, and a premise that
-- comes after them is closed where it stands.
theorem closed_only_by_contradiction_malformed :
    let broken := Formula.compound "(or P (not Q".toList .disjunction (.atom ['P'])
      (.negation "(not ".toList (.atom []))
    let denial := Formula.ofSentence (.negation (.atom ['P']))
    let t := (ofPremises broken [denial, .atom []]).run [.perform (.expand 1), .perform (.close 4 2),
      .perform (.close 3 5), .addPremise (.atom ['R'])]
    t.PlainlyReachable ∧
      t.tree.statements.map (fun s => (s.number, s.closed)) =
        [(1, true), (2, true), (3, true), (4, true), (6, true), (5, true)] ∧
      ∀ q ∈ t.places, q.isLeaf = true →
        ∃ s ∈ q.statement :: q.above, ∃ s' ∈ q.statement :: q.above,
          s.number ≠ s'.number ∧ s.formula.contradicts s'.formula = true := by
  intro broken denial t
  have parsedBroken : broken.Parsed := ⟨"(or P (not Q".toList, by unfold broken; cbv⟩
  have parsedDenial : denial.Parsed := ⟨"(not P)".toList, by unfold denial; cbv⟩
  have parsedNameless : (Formula.atom []).Parsed := ⟨[], by cbv⟩
  have parsedLate : (Formula.atom ['R']).Parsed := ⟨['R'], by cbv⟩
  have reachable : t.PlainlyReachable := by
    refine ⟨broken, [denial, .atom []], _, ?_, ?_, rfl⟩
    · simp [parsedBroken, parsedDenial, parsedNameless]
    · simp [parsedLate]
  have flags : t.tree.statements.map (fun s => (s.number, s.closed)) =
      [(1, true), (2, true), (3, true), (4, true), (6, true), (5, true)] := by
    unfold t broken denial
    cbv
  have root : ⟨[], t.tree⟩ ∈ t.places := Tree.self_mem_places [] t.tree
  have closed : (Place.statement ⟨[], t.tree⟩).closed = true := by
    unfold t broken denial
    cbv
  -- the rest goes through the facts above only, without computing the tableau again
  clear_value t
  exact ⟨reachable, flags, closed_only_by_contradiction reachable ⟨[], t.tree⟩ root closed⟩

end Tableau

end TruthTree
