import TruthTree.Proofs.Placement

/-! Runs of a tableau: calls in any order, each an operation or one more premise. What a single call can
do is said once, and everything that holds of all runs is derived from that. -/
namespace TruthTree

inductive Call where
  | perform (operation : Operation)
  | addPremise (formula : Formula)
  deriving DecidableEq

namespace Tableau

def after (t : Tableau) : Call → Tableau
  | .perform operation => (t.perform operation).1
  | .addPremise formula => t.addPremise formula

def run (t : Tableau) (calls : List Call) : Tableau := calls.foldl after t

/-- What holds at the start and is kept by every call holds after a run. -/
theorem run_invariant (holds : Tableau → Prop) {t : Tableau} {calls : List Call} (start : holds t)
    (step : ∀ u, ∀ call ∈ calls, holds u → holds (u.after call)) : holds (t.run calls) := by
  induction calls generalizing t with
  | nil => exact start
  | cons call calls ih =>
      obtain ⟨now, later⟩ : (∀ u, holds u → holds (u.after call)) ∧
          ∀ u, ∀ c ∈ calls, holds u → holds (u.after c) :=
        ⟨fun u => step u call List.mem_cons_self,
          fun u c hc => step u c (List.mem_cons_of_mem call hc)⟩
      exact ih (now t start) later

/-- What a call can do to the tree and to the next free number. -/
inductive Change (t : Tableau) : Call → Tree → Nat → Prop
  | declined (operation : Operation) : Change t (.perform operation) t.tree t.next
  | expanded {p : Place} {d : Decomposition} (place : p ∈ t.places)
      (fresh : p.statement.expanded = false) (rule : p.statement.formula.decompose = .ok d)
      (proper : d ≠ .literal) :
      Change t (.perform (.expand p.statement.number))
        (t.tree.expandAt p.statement.number d t.next).1
        (t.tree.expandAt p.statement.number d t.next).2
  | closed {first second : Int} {p : Place} {s : Statement} (place : p ∈ t.places)
      (lower : (p.statement.number : Int) = max first second)
      (upper : (s.number : Int) = min first second) (above : s ∈ p.statement :: p.above)
      (contradiction : p.statement.formula.contradicts s.formula = true) :
      Change t (.perform (.close first second)) (t.tree.closeAt p.statement.number) t.next
  | premised (formula : Formula) :
      Change t (.addPremise formula) (t.tree.addPremise t.next formula) (t.next + 1)

@[simp] theorem tree_declined (t : Tableau) (outcome : Outcome) : (t.declined outcome).tree = t.tree := by
  cases outcome <;> rfl

@[simp] theorem next_declined (t : Tableau) (outcome : Outcome) : (t.declined outcome).next = t.next := by
  cases outcome <;> rfl

theorem expansion_eq_ok_iff {t : Tableau} {number : Int} {target : Nat} {d : Decomposition} :
    t.expansion number = .ok (target, d) ↔
      ∃ p, t.place? number = some p ∧ p.statement.number = target ∧ p.statement.expanded = false ∧
        p.statement.formula.decompose = .ok d ∧ d ≠ .literal := by
  constructor
  · intro h
    unfold expansion at h
    split at h
    · cases h
    · next p found =>
        split at h
        · cases h
        · next fresh =>
            split at h
            · cases h
            · cases h
            · next d' proper rule =>
                obtain ⟨rfl, rfl⟩ := Prod.mk.inj (Except.ok.inj h)
                exact ⟨p, found, rfl, by simpa using fresh, rule, proper⟩
  · rintro ⟨p, found, rfl, fresh, rule, proper⟩
    simp only [expansion, found, fresh, rule]
    cases d with
    | literal => exact absurd rfl proper
    | single f => rfl
    | stacked f g => rfl
    | forked f g => rfl

theorem expansion_eq_error {t : Tableau} {number : Int} {outcome : Outcome}
    (h : t.expansion number = .error outcome) :
    (∃ reason, outcome = .refused reason) ∨
      ∃ p e, t.place? number = some p ∧ p.statement.formula.decompose = .error e ∧
        outcome = .unreadable e := by
  unfold expansion at h
  split at h
  · exact .inl ⟨_, (Except.error.inj h).symm⟩
  · next p found =>
      split at h
      · exact .inl ⟨_, (Except.error.inj h).symm⟩
      · split at h
        · next e rule => exact .inr ⟨p, e, found, rule, (Except.error.inj h).symm⟩
        · exact .inl ⟨_, (Except.error.inj h).symm⟩
        · cases h

theorem expansion_ne_accepted (t : Tableau) (number : Int) :
    t.expansion number ≠ .error .accepted := by
  intro h
  rcases expansion_eq_error h with ⟨reason, ⟨⟩⟩ | ⟨p, e, -, -, ⟨⟩⟩

theorem expand_eq_accepted_iff {t u : Tableau} {number : Int} :
    t.expand number = (u, .accepted) ↔
      ∃ target d, t.expansion number = .ok (target, d) ∧
        u = ⟨(t.tree.expandAt target d t.next).1, (t.tree.expandAt target d t.next).2, none⟩ := by
  unfold expand
  split
  · next outcome failed =>
      have other : outcome ≠ .accepted := by
        rintro rfl
        exact expansion_ne_accepted t number failed
      simp [failed, other]
  · next target d ok => simp [ok, eq_comm]

theorem isNegation_of_contradicts {f g : Formula} (h : f.contradicts g = true) :
    (!f.isNegation && !g.isNegation) = false := by
  cases f <;> cases g <;> simp_all [Formula.contradicts, Formula.negates, Formula.isNegation]

theorem closure_of_places {t : Tableau} {first second : Int} {p q upper lower : Place}
    (hp : t.place? first = some p) (hq : t.place? second = some q) (order : (upper, lower) =
      if p.statement.number ≤ q.statement.number then (p, q) else (q, p)) :
    t.closure first second =
      if !p.statement.formula.isNegation && !q.statement.formula.isNegation then
        .error (.refused .noNegation)
      else if upper.statement.number ≠ lower.statement.number &&
          !lower.above.any (·.number = upper.statement.number) then
        .error (.refused .differentBranches)
      else if !p.statement.formula.contradicts q.statement.formula then
        .error (.refused .notContradictory)
      else .ok lower.statement.number := by
  unfold closure
  rw [hp, hq]
  simp only [← order]

theorem closure_eq_ok_iff {t : Tableau} {first second : Int} {p q : Place} {target : Nat}
    (hp : t.place? first = some p) (hq : t.place? second = some q)
    (upper lower : Place) (order : (upper, lower) =
      if p.statement.number ≤ q.statement.number then (p, q) else (q, p)) :
    t.closure first second = .ok target ↔
      p.statement.formula.contradicts q.statement.formula = true ∧
      (upper.statement.number = lower.statement.number ∨
        ∃ s ∈ lower.above, s.number = upper.statement.number) ∧
      lower.statement.number = target := by
  rw [closure_of_places hp hq order]
  split
  · next literal =>
      refine ⟨nofun, fun h => ?_⟩
      rw [isNegation_of_contradicts h.1] at literal
      cases literal
  · split
    · next apart =>
        refine ⟨nofun, fun h => ?_⟩
        simp only [ne_eq, decide_not, Bool.and_eq_true, Bool.not_eq_true', decide_eq_false_iff_not,
          List.any_eq_false, decide_eq_true_eq] at apart
        rcases h.2.1 with same | ⟨s, hs, same⟩
        · exact absurd same apart.1
        · exact absurd same (apart.2 s hs)
    · next joined =>
        split
        · next consistent =>
            refine ⟨nofun, fun h => ?_⟩
            rw [h.1] at consistent
            cases consistent
        · next contradiction =>
            simp only [Bool.not_eq_true', Bool.not_eq_false] at contradiction
            simp only [ne_eq, decide_not, Bool.and_eq_true, Bool.not_eq_true', decide_eq_false_iff_not,
              List.any_eq_false, decide_eq_true_eq, not_and, not_forall, not_not] at joined
            simp only [contradiction, true_and, Except.ok.injEq, iff_and_self]
            intro _
            by_cases same : upper.statement.number = lower.statement.number
            · exact .inl same
            · obtain ⟨s, hs, number⟩ := joined same
              exact .inr ⟨s, hs, number⟩

theorem closure_eq_error {t : Tableau} {first second : Int} {outcome : Outcome}
    (h : t.closure first second = .error outcome) : ∃ reason, outcome = .refused reason := by
  unfold closure at h
  split at h
  · dsimp only at h
    repeat' split at h
    all_goals cases h
    all_goals exact ⟨_, rfl⟩
  · exact ⟨_, (Except.error.inj h).symm⟩

theorem closure_ne_accepted (t : Tableau) (first second : Int) :
    t.closure first second ≠ .error .accepted := by
  intro h
  obtain ⟨reason, ⟨⟩⟩ := closure_eq_error h

theorem close_eq_accepted_iff {t u : Tableau} {first second : Int} :
    t.close first second = (u, .accepted) ↔
      ∃ target, t.closure first second = .ok target ∧ u = ⟨t.tree.closeAt target, t.next, none⟩ := by
  unfold close
  split
  · next outcome failed =>
      have other : outcome ≠ .accepted := by
        rintro rfl
        exact closure_ne_accepted t first second failed
      simp [failed, other]
  · next target ok => simp [ok, eq_comm]

theorem exists_places_of_closure {t : Tableau} {first second : Int} {target : Nat}
    (h : t.closure first second = .ok target) :
    ∃ p q, t.place? first = some p ∧ t.place? second = some q := by
  unfold closure at h
  split at h
  · next p q hp hq => exact ⟨p, q, hp, hq⟩
  · cases h

theorem contradicts_comm (f g : Formula) : f.contradicts g = g.contradicts f := Bool.or_comm _ _

theorem mem_of_number {t : Tableau} (h : t.Numbered) {upper lower : Place} (hu : upper ∈ t.places)
    (hl : lower ∈ t.places) (joined : upper.statement.number = lower.statement.number ∨
      ∃ s ∈ lower.above, s.number = upper.statement.number) :
    upper.statement ∈ lower.statement :: lower.above := by
  -- Numbers are not used twice, so the statement found above is the one that is named.
  have hu := Tree.statement_mem_of_mem_places hu
  rcases joined with same | ⟨s, hs, same⟩
  · rw [h.statement_unique hu (Tree.statement_mem_of_mem_places hl) same]
    exact List.mem_cons_self
  · rw [← h.statement_unique (Tree.mem_statements_of_mem_above hl hs) hu same]
    exact List.mem_cons_of_mem _ hs

theorem closure_eq_ok {t : Tableau} (h : t.Numbered) {first second : Int} {target : Nat}
    (accepted : t.closure first second = .ok target) :
    ∃ p s, p ∈ t.places ∧ p.statement.number = target ∧
      (p.statement.number : Int) = max first second ∧ (s.number : Int) = min first second ∧
      s ∈ p.statement :: p.above ∧ p.statement.formula.contradicts s.formula = true := by
  obtain ⟨p, q, hp, hq⟩ := exists_places_of_closure accepted
  have tests := fun upper lower order => (closure_eq_ok_iff hp hq upper lower order).mp accepted
  obtain ⟨placeP, rfl⟩ := (place?_eq_some_iff h.nodup).mp hp
  obtain ⟨placeQ, rfl⟩ := (place?_eq_some_iff h.nodup).mp hq
  by_cases order : p.statement.number ≤ q.statement.number
  · obtain ⟨contradiction, joined, target⟩ := tests p q (by rw [if_pos order])
    rw [contradicts_comm] at contradiction
    exact ⟨q, p.statement, placeQ, target, by omega, by omega, mem_of_number h placeP placeQ joined,
      contradiction⟩
  · obtain ⟨contradiction, joined, target⟩ := tests q p (by rw [if_neg order])
    exact ⟨p, q.statement, placeP, target, by omega, by omega, mem_of_number h placeQ placeP joined,
      contradiction⟩

theorem change_after {t : Tableau} (h : t.Numbered) (call : Call) :
    Change t call (t.after call).tree (t.after call).next := by
  cases call with
  | addPremise formula => exact .premised formula
  | perform operation =>
      cases operation with
      | expand number =>
          simp only [after, perform, expand]
          split
          · simpa using Change.declined (t := t) (.expand number)
          · next target d accepted =>
              obtain ⟨p, found, rfl, fresh, rule, proper⟩ := expansion_eq_ok_iff.mp accepted
              obtain ⟨hp, rfl⟩ := (place?_eq_some_iff h.nodup).mp found
              exact .expanded hp fresh rule proper
      | close first second =>
          simp only [after, perform, close]
          split
          · simpa using Change.declined (t := t) (.close first second)
          · next target accepted =>
              obtain ⟨p, s, place, rfl, lower, upper, above, contradiction⟩ :=
                closure_eq_ok h accepted
              exact .closed place lower upper above contradiction

structure WellBuilt (t : Tableau) : Prop where
  coherent : t.tree.Coherent
  numbered : t.Numbered
  ascending : ∀ b ∈ t.view, (b.path.map Entry.number).Pairwise (· < ·)

theorem number_lt_next {t : Tableau} (h : t.Numbered) {b : Branch} {e : Entry} (hb : b ∈ t.view)
    (he : e ∈ b.path) : e.number < t.next := by
  obtain ⟨s, hs, rfl⟩ := exists_statement_of_mem_path hb he
  exact h.number_lt hs

theorem ascending_append {left right : List Entry} {next : Nat}
    (hl : (left.map Entry.number).Pairwise (· < ·)) (hr : (right.map Entry.number).Pairwise (· < ·))
    (low : ∀ e ∈ left, e.number < next) (high : ∀ e ∈ right, next ≤ e.number) :
    ((left ++ right).map Entry.number).Pairwise (· < ·) := by
  rw [List.map_append, List.pairwise_append]
  refine ⟨hl, hr, ?_⟩
  simp only [List.forall_mem_map]
  intro a ha b hb
  exact Nat.lt_of_lt_of_le (low a ha) (high b hb)

namespace Change

theorem numbered {t u : Tableau} {call : Call} (h : t.Numbered)
    (change : Change t call u.tree u.next) : u.Numbered := by
  obtain ⟨tree, next, refusal⟩ := u
  cases change with
  | declined operation => exact h.grown 0 rfl (.refl t.next rfl)
  | @expanded p d place fresh rule proper =>
      obtain ⟨count, free, new⟩ := Tree.numbered_expandAt p.statement.number d t.next t.tree
      exact h.grown count free new
  | @closed first second p s place lower upper above contradiction =>
      exact h.grown 0 rfl (.refl t.next (Tree.numbers_closeAt _ t.tree))
  | premised formula => exact h.grown 1 rfl (Tree.numbered_addPremise t.next formula t.tree)

theorem coherent {t u : Tableau} {call : Call} (h : t.tree.Coherent)
    (change : Change t call u.tree u.next) : u.tree.Coherent := by
  obtain ⟨tree, next, refusal⟩ := u
  cases change with
  | declined operation => exact h
  | expanded place fresh rule proper => exact h.expandAt _ _ _
  | closed place lower upper above contradiction => exact h.closeAt _
  | premised formula => exact h.addPremise _ formula

/-- Where a formula that a call adds comes from: the call itself, or a decomposition. -/
def Source (t : Tableau) (call : Call) (f : Formula) : Prop :=
  call = .addPremise f ∨
    ∃ p ∈ t.places, ∃ d, p.statement.formula.decompose = .ok d ∧
      ∃ alternative ∈ d.alternatives, f ∈ alternative

structure Addition (t : Tableau) (call : Call) (new : List Entry) : Prop where
  ascending : (new.map Entry.number).Pairwise (· < ·)
  fresh : ∀ e ∈ new, t.next ≤ e.number
  source : ∀ e ∈ new, Source t call e.formula

theorem addition_nil (t : Tableau) (call : Call) : Addition t call [] :=
  ⟨.nil, by simp, by simp⟩

theorem addition_sprout {t : Tableau} {call : Call} {p : Place} {d : Decomposition} (place : p ∈ t.places)
    (rule : p.statement.formula.decompose = .ok d) {first : Nat} (low : t.next ≤ first)
    {sprout : List Entry} (h : sprout ∈ d.sprouts first) : Addition t call sprout := by
  refine ⟨Decomposition.ascending_sprouts h, ?_, ?_⟩
  · intro e he
    exact Nat.le_trans low (Decomposition.number_sprouts h he).1
  · intro e he
    refine .inr ⟨p, place, d, rule, sprout.map Entry.formula, ?_, List.mem_map_of_mem he⟩
    rw [← d.map_formula_sprouts first]
    exact List.mem_map_of_mem h

theorem origin {t u : Tableau} {call : Call} (coherent : t.tree.Coherent)
    (change : Change t call u.tree u.next) {c : Branch} (hc : c ∈ u.view) :
    ∃ b ∈ t.view, ∃ new, c.path = b.path ++ new ∧ (b.closed = true → c.closed = true) ∧
      Addition t call new := by
  obtain ⟨tree, next, refusal⟩ := u
  cases change with
  | declined operation => exact ⟨c, hc, [], by simp, id, addition_nil t _⟩
  | @expanded p d place fresh rule proper =>
      rw [view, Tree.view_expandAt coherent] at hc
      rcases Branch.of_mem_expandThrough hc with ⟨hb, -⟩ | ⟨b, hb, -, -, first, low, sprout, hs, rfl⟩
      · exact ⟨c, hb, [], by simp, id, addition_nil t _⟩
      · exact ⟨b, hb, sprout, rfl, id, addition_sprout place rule low hs⟩
  | @closed first second p s place lower upper above contradiction =>
      rw [view, Tree.view_closeAt] at hc
      obtain ⟨b, hb, rfl⟩ := List.mem_map.mp hc
      refine ⟨b, hb, [], ?_, ?_, addition_nil t _⟩
      · split <;> simp [Branch.close]
      · intro closed
        split
        · rfl
        · exact closed
  | premised formula =>
      rw [view, Tree.view_addPremise] at hc
      rcases Branch.of_mem_extendFirst hc with hb | ⟨b, hb, rfl⟩
      · exact ⟨c, hb, [], by simp, id, addition_nil t _⟩
      · exact ⟨b, hb, _, rfl, id, by simp, by simp, by simp [Source]⟩

end Change

theorem WellBuilt.number_lt {t : Tableau} (h : t.WellBuilt) {p : Place} (hp : p ∈ t.places)
    {s : Statement} (hs : s ∈ p.above) : s.number < p.statement.number := by
  obtain ⟨c, hc⟩ := p.here.exists_mem_branches
  obtain ⟨hb, -⟩ := (mem_view_through_iff h.numbered.nodup hp _).mpr ⟨c, hc, rfl⟩
  have order := h.ascending _ hb
  rw [Branch.path_ofStatements, List.map_append, List.map_append, List.pairwise_append] at order
  have upper := List.mem_map_of_mem (f := Statement.entry) (List.mem_reverse.mpr hs)
  have lower := List.mem_map_of_mem (f := Statement.entry) (Tree.root_mem_of_mem_branches hc)
  exact order.2.2 _ (List.mem_map_of_mem upper) _ (List.mem_map_of_mem lower)

theorem WellBuilt.closure_above {t : Tableau} (h : t.WellBuilt) {p : Place} (hp : p ∈ t.places)
    {s : Statement} (hs : s ∈ p.above)
    (contradiction : p.statement.formula.contradicts s.formula = true) :
    t.closure p.statement.number s.number = .ok p.statement.number := by
  have order := h.number_lt hp hs
  obtain ⟨q, hq, rfl⟩ := exists_place_of_mem_statements (Tree.mem_statements_of_mem_above hp hs)
  have lower := (place?_eq_some_iff h.numbered.nodup).mpr ⟨hp, rfl⟩
  have upper := (place?_eq_some_iff h.numbered.nodup).mpr ⟨hq, rfl⟩
  apply (closure_eq_ok_iff lower upper q p (by rw [if_neg (by omega)])).mpr
  exact ⟨contradiction, .inr ⟨q.statement, hs, rfl⟩, rfl⟩

theorem wellBuilt_start (premise : Formula) : (start premise).WellBuilt :=
  ⟨trivial, .start premise, by simp [view, start, Statement.fresh]⟩

theorem WellBuilt.after {t : Tableau} (h : t.WellBuilt) (call : Call) : (t.after call).WellBuilt := by
  have change := change_after h.numbered call
  refine ⟨change.coherent h.coherent, change.numbered h.numbered, ?_⟩
  intro c hc
  obtain ⟨b, hb, new, path, -, added⟩ := change.origin h.coherent hc
  rw [path]
  exact ascending_append (h.ascending b hb) added.ascending
    (fun e he => number_lt_next h.numbered hb he) added.fresh

theorem WellBuilt.performed {t u : Tableau} (h : t.WellBuilt) (operation : Operation) {outcome : Outcome}
    (result : t.perform operation = (u, outcome)) : u.WellBuilt := by
  have built := h.after (.perform operation)
  rw [Tableau.after, result] at built
  exact built

theorem WellBuilt.run {t : Tableau} (h : t.WellBuilt) (calls : List Call) : (t.run calls).WellBuilt :=
  run_invariant WellBuilt h fun _ call _ built => built.after call

theorem WellBuilt.run_invariant {t : Tableau} (h : t.WellBuilt) (holds : Tableau → Prop)
    (start : holds t) (step : ∀ u call, u.WellBuilt → holds u → holds (u.after call))
    (calls : List Call) : holds (t.run calls) := by
  refine (Tableau.run_invariant (fun u => u.WellBuilt ∧ holds u) ⟨h, start⟩ ?_).2
  rintro u call - ⟨built, now⟩
  exact ⟨built.after call, step u call built now⟩

def AllFormulas (good : Formula → Prop) (t : Tableau) : Prop :=
  ∀ b ∈ t.view, ∀ e ∈ b.path, good e.formula

theorem AllFormulas.above {good : Formula → Prop} {t : Tableau} (h : t.AllFormulas good)
    (numbered : t.Numbered) {p : Place} (hp : p ∈ t.places) {s : Statement}
    (hs : s ∈ p.statement :: p.above) : good s.formula := by
  obtain ⟨b, hb, passes⟩ := exists_branch_through numbered.nodup hp
  exact h b hb s.entry (entry_mem_of_passes numbered.nodup hp hb passes hs)

theorem AllFormulas.after {good : Formula → Prop} {t : Tableau} (h : t.AllFormulas good)
    (built : t.WellBuilt)
    (parts : ∀ f d, good f → f.decompose = .ok d → ∀ alternative ∈ d.alternatives,
      ∀ g ∈ alternative, good g)
    {call : Call} (premise : ∀ f, call = .addPremise f → good f) : (t.after call).AllFormulas good := by
  intro c hc e he
  have change := change_after built.numbered call
  obtain ⟨b, hb, new, path, -, added⟩ := change.origin built.coherent hc
  rw [path] at he
  rcases List.mem_append.mp he with he | he
  · exact h b hb e he
  · rcases added.source e he with call | ⟨p, hp, d, rule, alternative, halternative, mem⟩
    · exact premise e.formula call
    · have whole := h.above built.numbered hp List.mem_cons_self
      exact parts _ d whole rule alternative halternative _ mem

theorem addPremise_mem_map_iff {f : Formula} {premises : List Formula} :
    Call.addPremise f ∈ premises.map Call.addPremise ↔ f ∈ premises := by
  simp

theorem ofPremises_eq_run (first : Formula) (rest : List Formula) :
    ofPremises first rest = (start first).run (rest.map .addPremise) := by
  rw [ofPremises, run, List.foldl_map]
  rfl

end Tableau

end TruthTree
