import TruthTree.Proofs.StrictRun

/-! Expansion runs out. The statements that have not been expanded are the heads of a hydra, each
labelled by the weight of its sentence. An expansion cuts off one head, and whatever grows below the
open leaves has smaller labels; a closure cuts off none. So over fixed premises only finitely many
expansions are accepted, whatever is picked and in whatever order. -/
namespace TruthTree

open Relation

namespace Statement

def load (s : Statement) : Multiset Nat := if s.expanded then 0 else {s.formula.sentence.weight}

@[simp] theorem load_expand (s : Statement) : s.expand.load = 0 := rfl

@[simp] theorem load_close (s : Statement) : s.close.load = s.load := rfl

@[simp] theorem load_follow (s : Statement) (number : Nat) (formula : Formula) :
    (s.follow number formula).load = {formula.sentence.weight} := rfl

@[simp] theorem load_branchOff (s : Statement) (side : Side) (number : Nat) (formula : Formula) :
    (s.branchOff side number formula).load = {formula.sentence.weight} := rfl

theorem load_of_fresh {s : Statement} (h : s.expanded = false) :
    s.load = {s.formula.sentence.weight} := by
  simp [load, h]

end Statement

def Decomposition.loads : Decomposition → Multiset Nat
  | literal => 0
  | single f => {f.sentence.weight}
  | stacked f g => {f.sentence.weight} + {g.sentence.weight}
  | forked f g => {f.sentence.weight} + {g.sentence.weight}

theorem Decomposition.mem_loads {d : Decomposition} {weight : Nat} (h : weight ∈ d.loads) :
    ∃ alternative ∈ d.alternatives, ∃ f ∈ alternative, f.sentence.weight = weight := by
  cases d <;> simp_all [loads, alternatives, eq_comm]

namespace Tree

def workload (t : Tree) : Multiset Nat := (t.statements.map Statement.load).sum

@[simp] theorem workload_leaf (s : Statement) : (leaf s).workload = s.load := by
  simp [workload, statements]

@[simp] theorem workload_chain (s : Statement) (t : Tree) :
    (chain s t).workload = s.load + t.workload := by
  simp [workload, statements]

@[simp] theorem workload_fork (s : Statement) (l r : Tree) :
    (fork s l r).workload = s.load + (l.workload + r.workload) := by
  simp [workload, statements]

theorem workload_attach (d : Decomposition) (next : Nat) (s : Statement) :
    (attach d next s).1.workload = s.load + d.loads := by
  cases d <;> simp [attach, Decomposition.loads]

theorem workload_grow (d : Decomposition) (next : Nat) (t : Tree) :
    ∃ leaves : Nat, (grow d next t).1.workload = t.workload + leaves • d.loads := by
  induction t generalizing next with
  | leaf s =>
      rw [grow]
      split
      · exact ⟨0, by simp⟩
      · exact ⟨1, by rw [workload_attach, one_nsmul, workload_leaf]⟩
  | chain s t ih =>
      rw [grow]
      split
      · exact ⟨0, by simp⟩
      · obtain ⟨leaves, below⟩ := ih next
        exact ⟨leaves, by simp only [workload_chain, below, add_assoc]⟩
  | fork s l r ihl ihr =>
      rw [grow]
      split
      · exact ⟨0, by simp⟩
      · obtain ⟨first, left⟩ := ihl next
        obtain ⟨second, right⟩ := ihr (grow d next l).2
        refine ⟨first + second, ?_⟩
        simp only [workload_fork, left, right, add_nsmul]
        ac_rfl

theorem workload_mapRoot_expand (t : Tree) :
    (t.mapRoot Statement.expand).workload + t.root.load = t.workload := by
  cases t <;> simp [mapRoot, add_comm]

theorem workload_expandAt_root {t : Tree} (fresh : t.root.expanded = false) (d : Decomposition)
    (next : Nat) :
    ∃ leaves : Nat, (expandAt t.root.number d next t).1.workload + {t.root.formula.sentence.weight} =
      t.workload + leaves • d.loads := by
  obtain ⟨leaves, grown⟩ := workload_grow d next (t.mapRoot Statement.expand)
  refine ⟨leaves, ?_⟩
  rw [expandAt_root rfl, grown, ← Statement.load_of_fresh fresh, ← workload_mapRoot_expand t]
  ac_rfl

theorem workload_expandAt {t : Tree} (unique : t.numbers.Nodup) {above : List Statement} {p : Place}
    (hp : p ∈ t.places above) (fresh : p.statement.expanded = false) (d : Decomposition) (next : Nat) :
    ∃ leaves : Nat, (expandAt p.statement.number d next t).1.workload +
      {p.statement.formula.sentence.weight} = t.workload + leaves • d.loads := by
  induction t generalizing above next with
  | leaf s =>
      obtain rfl := List.mem_singleton.mp hp
      exact workload_expandAt_root fresh d next
  | chain s t ih =>
      rcases mem_places_chain.mp hp with rfl | below
      · exact workload_expandAt_root fresh d next
      · rw [numbers_chain, List.nodup_cons] at unique
        have other : (chain s t).root.number ≠ p.statement.number :=
          fun same : s.number = _ => unique.1 (same ▸ number_mem_of_mem_places below)
        obtain ⟨leaves, grown⟩ := ih unique.2 below next
        refine ⟨leaves, ?_⟩
        rw [expandAt, if_neg other, workload_chain, workload_chain, add_assoc, grown, add_assoc]
  | fork s l r ihl ihr =>
      rw [numbers_fork, List.nodup_cons, List.mem_append, not_or, List.nodup_append] at unique
      obtain ⟨root, left, right, apart⟩ := unique
      rcases mem_places_fork.mp hp with rfl | below | below
      · exact workload_expandAt_root fresh d next
      · have number := number_mem_of_mem_places below
        have other : (fork s l r).root.number ≠ p.statement.number :=
          fun same : s.number = _ => root.1 (same ▸ number)
        have absent : p.statement.number ∉ r.numbers := fun h => apart _ number _ h rfl
        obtain ⟨leaves, grown⟩ := ihl left below next
        refine ⟨leaves, ?_⟩
        rw [expandAt, if_neg other]
        simp only [workload_fork, expandAt_of_not_mem absent]
        rw [add_assoc, add_right_comm, grown]
        ac_rfl
      · have number := number_mem_of_mem_places below
        have other : (fork s l r).root.number ≠ p.statement.number :=
          fun same : s.number = _ => root.2 (same ▸ number)
        have absent : p.statement.number ∉ l.numbers := fun h => apart _ h _ number rfl
        obtain ⟨leaves, grown⟩ := ihr right below next
        refine ⟨leaves, ?_⟩
        rw [expandAt, if_neg other]
        simp only [workload_fork, expandAt_of_not_mem absent, add_assoc, grown]

theorem workload_closeAt (number : Nat) (t : Tree) : (t.closeAt number).workload = t.workload := by
  rw [workload, map_statements_closeAt Statement.load_close, workload]

end Tree

theorem Formula.Strict.weight_lt_of_mem_loads {f : Formula} {d : Decomposition} (h : f.Strict)
    (rule : f.decompose = .ok d) {weight : Nat} (hweight : weight ∈ d.loads) :
    weight < f.sentence.weight := by
  obtain ⟨s, lexical, rfl⟩ := h
  rw [decompose_ofSentence lexical.plain] at rule
  cases rule
  obtain ⟨alternative, halternative, g, hg, rfl⟩ := Decomposition.mem_loads hweight
  obtain ⟨a, rfl, lighter, -⟩ := Sentence.lighter_of_mem_alternatives halternative hg
  rw [sentence_ofSentence, sentence_ofSentence]
  exact lighter

namespace Tableau

theorem cutExpand_workload {t u : Tableau} (sound : t.StrictlyBuilt) {number : Int}
    (accepted : t.expand number = (u, .accepted)) :
    CutExpand (· < ·) u.tree.workload t.tree.workload := by
  have numbered := sound.built.numbered
  obtain ⟨target, d, ok, rfl⟩ := expand_eq_accepted_iff.mp accepted
  obtain ⟨p, found, rfl, fresh, rule, -⟩ := expansion_eq_ok_iff.mp ok
  obtain ⟨hp, -⟩ := (place?_eq_some_iff numbered.nodup).mp found
  obtain ⟨leaves, balance⟩ := Tree.workload_expandAt numbered.nodup hp fresh d t.next
  have strict := sound.strict.above numbered hp List.mem_cons_self
  refine ⟨leaves • d.loads, p.statement.formula.sentence.weight, ?_, balance⟩
  intro weight hweight
  exact strict.weight_lt_of_mem_loads rule (Multiset.mem_of_mem_nsmul hweight)

theorem workload_close (t : Tableau) (first second : Int) :
    (t.close first second).1.tree.workload = t.tree.workload := by
  unfold close
  split
  · rw [tree_declined]
  · exact Tree.workload_closeAt _ t.tree

theorem tree_expand_of_not_accepted {t : Tableau} {number : Int}
    (h : ∀ u, t.expand number ≠ (u, .accepted)) : (t.expand number).1.tree = t.tree := by
  unfold expand at h ⊢
  split
  · rw [tree_declined]
  · next accepted =>
      rw [accepted] at h
      exact absurd rfl (h _)

def GrowsTo (t u : Tableau) : Prop := ∃ operations : List Operation, u = t.run (operations.map .perform)

/-- Some closures, accepted or not, and then an accepted expansion lead from the first tableau to the
second. -/
def Advances (t u : Tableau) : Prop :=
  ∃ (pairs : List (Int × Int)) (number : Int),
    (t.run (pairs.map fun pair => .perform (.close pair.1 pair.2))).expand number = (u, .accepted)

theorem StrictlyBuilt.growsTo {t u : Tableau} (h : t.StrictlyBuilt) (grown : t.GrowsTo u) :
    u.StrictlyBuilt := by
  obtain ⟨operations, rfl⟩ := grown
  exact strictlyBuilt_run h (by simp)

theorem workload_run_closures (t : Tableau) (pairs : List (Int × Int)) :
    (t.run (pairs.map fun pair => .perform (.close pair.1 pair.2))).tree.workload =
      t.tree.workload := by
  refine run_invariant (fun u => u.tree.workload = t.tree.workload) rfl ?_
  intro u call hcall same
  obtain ⟨pair, -, rfl⟩ := List.mem_map.mp hcall
  exact (workload_close u pair.1 pair.2).trans same

theorem cutExpand_of_advances {t u : Tableau} (sound : t.StrictlyBuilt) (h : t.Advances u) :
    CutExpand (· < ·) u.tree.workload t.tree.workload := by
  obtain ⟨pairs, number, accepted⟩ := h
  have closed : (t.run (pairs.map fun pair => .perform (.close pair.1 pair.2))).StrictlyBuilt :=
    strictlyBuilt_run sound (by simp)
  rw [← workload_run_closures t pairs]
  exact cutExpand_workload closed accepted

/-- The tableau after the first `n` of endlessly many operations. -/
def stage (t : Tableau) (operations : Nat → Operation) : Nat → Tableau
  | 0 => t
  | n + 1 => ((t.stage operations n).perform (operations n)).1

theorem StrictlyBuilt.stage {t : Tableau} (h : t.StrictlyBuilt) (operations : Nat → Operation)
    (n : Nat) : (t.stage operations n).StrictlyBuilt := by
  induction n with
  | zero => exact h
  | succ n ih =>
      have next : ((t.stage operations n).after (.perform (operations n))).StrictlyBuilt :=
        ih.after nofun
      exact next

theorem workload_stage_succ {t : Tableau} {operations : Nat → Operation} {n : Nat}
    (refused : ∀ number u, operations n = .expand number →
      (t.stage operations n).expand number ≠ (u, .accepted)) :
    (t.stage operations (n + 1)).tree.workload = (t.stage operations n).tree.workload := by
  rw [stage]
  cases operation : operations n with
  | expand number =>
      rw [perform, tree_expand_of_not_accepted fun u => refused number u operation]
  | close first second => exact workload_close _ first second

theorem exists_last_expansion {t : Tableau} (sound : t.StrictlyBuilt) (operations : Nat → Operation) :
    ∃ last, ∀ n ≥ last, ∀ number u, operations n = .expand number →
      (t.stage operations n).expand number ≠ (u, .accepted) := by
  let heads := fun n => (t.stage operations n).tree.workload
  obtain ⟨-, ⟨last, rfl⟩, least⟩ :=
    wellFounded_lt.cutExpand.has_min (Set.range heads) (Set.range_nonempty heads)
  have refused : ∀ n, heads n = heads last → ∀ number u, operations n = .expand number →
      (t.stage operations n).expand number ≠ (u, .accepted) := by
    intro n same number u operation accepted
    have cut := cutExpand_workload (sound.stage operations n) accepted
    refine least (heads (n + 1)) ⟨n + 1, rfl⟩ ?_
    rw [← same]
    simpa only [heads, stage, operation, perform, accepted] using cut
  refine ⟨last, fun n later => refused n ?_⟩
  induction n, later using Nat.le_induction with
  | base => rfl
  | succ n later same => exact (workload_stage_succ (refused n same)).trans same

/-- Expansion runs out. Over fixed premises the relation "some closures and then an accepted expansion"
is well founded, and of endlessly many operations only finitely many are accepted expansions. -/
theorem expansion_runs_out {sources : List Text} {start : Tableau}
    (built : ofTexts true sources = .ok start) :
    (WellFounded fun later earlier : {t : Tableau // start.GrowsTo t} =>
      earlier.val.Advances later.val) ∧
    ∀ operations : Nat → Operation, ∃ last, ∀ n ≥ last, ∀ number u,
      operations n = .expand number →
        (start.stage operations n).expand number ≠ (u, .accepted) := by
  have sound := strictlyBuilt_ofTexts built
  refine ⟨?_, exists_last_expansion sound⟩
  have hydra : WellFounded (CutExpand fun a b : Nat => a < b) := wellFounded_lt.cutExpand
  refine Subrelation.wf ?_ (InvImage.wf (fun t => t.val.tree.workload) hydra)
  intro later earlier advances
  exact cutExpand_of_advances (sound.growsTo earlier.property) advances

-- A biconditional and the denial of its left side. After one of the two conjunctions has been
-- expanded and its branch closed, the other is expanded; asking for every number in turn comes to
-- an end too.
theorem expansion_runs_out_biconditional :
    let both := Formula.ofSentence (.compound .biconditional (.atom ['P']) (.atom ['Q']))
    let denial := Formula.ofSentence (.negation (.atom ['P']))
    let start := ofPremises both [denial]
    let u := start.run ([.expand 1, .expand 3].map .perform)
    let v := start.run ([.expand 1, .expand 3, .close 5 2, .expand 4].map .perform)
    ofTexts true ["(iff P Q)".toList, "(not P)".toList] = .ok start ∧ start.GrowsTo u ∧
      start.GrowsTo v ∧ u.Advances v ∧
      (WellFounded fun later earlier : {t : Tableau // start.GrowsTo t} =>
        earlier.val.Advances later.val) ∧
      ∃ last, ∀ n : Nat, n ≥ last → ∀ number w, Operation.expand n = .expand number →
        (start.stage (fun n => .expand n) n).expand number ≠ (w, .accepted) := by
  intro both denial start u v
  have built : ofTexts true ["(iff P Q)".toList, "(not P)".toList] = .ok start := by cbv
  have expanding : (u.run [.perform (.close 5 2)]).expand 4 = (v, .accepted) := by
    unfold u v
    cbv
  have advances : u.Advances v := ⟨[(5, 2)], 4, expanding⟩
  obtain ⟨founded, finite⟩ := expansion_runs_out built
  exact ⟨built, ⟨_, rfl⟩, ⟨_, rfl⟩, advances, founded, finite fun n => .expand n⟩

end Tableau

end TruthTree
