import TruthTree.Proofs.RemainingWork

/-! Closing is sound. A valuation under which all premises hold makes everything true on some open
branch, whatever is expanded, closed and added in whatever order. So a closed tableau shows that the
premises cannot hold together. -/
namespace TruthTree

namespace Branch

def Holds (valuation : Text → Bool) (b : Branch) : Prop :=
  ∀ e ∈ b.path, e.formula.holds valuation = true

theorem Holds.extend {valuation : Text → Bool} {b : Branch} {entries : List Entry}
    (h : b.Holds valuation) (new : ∀ e ∈ entries, e.formula.holds valuation = true) :
    (b.extend entries).Holds valuation := by
  intro e he
  rcases List.mem_append.mp he with he | he
  · exact h e he
  · exact new e he

end Branch

namespace Tableau

def Satisfied (valuation : Text → Bool) (t : Tableau) : Prop :=
  ∃ b ∈ t.view, b.closed = false ∧ b.Holds valuation

theorem satisfied_expanded {t u : Tableau} {valuation : Text → Bool} (sound : t.StrictlyBuilt)
    (h : t.Satisfied valuation) {p : Place} {d : Decomposition} (place : p ∈ t.places)
    (rule : p.statement.formula.decompose = .ok d) (proper : d ≠ .literal)
    (view : u.view = (Branch.expandThrough p.statement.number d t.next t.view).1) :
    u.Satisfied valuation := by
  obtain ⟨b, hb, opened, truth⟩ := h
  unfold Satisfied
  rw [view]
  by_cases passes : b.passes p.statement.number = true
  · have numbered := sound.built.numbered
    have onBranch := entry_mem_of_passes numbered.nodup place hb passes List.mem_cons_self
    have strict := sound.strict.above numbered place List.mem_cons_self
    have expandable := (Formula.decompose_proper_iff rule).mp proper
    obtain ⟨alternative, halternative, holds⟩ :=
      (strict.holds_iff_alternative valuation rule expandable).mp (truth _ onBranch)
    obtain ⟨first, sprouts⟩ := Branch.mem_expandThrough_of_passes hb opened passes d t.next
    rw [← d.map_formula_sprouts first] at halternative
    obtain ⟨sprout, hsprout, rfl⟩ := List.mem_map.mp halternative
    refine ⟨b.extend sprout, sprouts sprout hsprout, opened, truth.extend ?_⟩
    exact fun e he => holds _ (List.mem_map_of_mem he)
  · refine ⟨b, ?_, opened, truth⟩
    exact Branch.mem_expandThrough_of_not_passes hb (by simpa using passes) d t.next

theorem satisfied_closed {t u : Tableau} {valuation : Text → Bool} (sound : t.StrictlyBuilt)
    (h : t.Satisfied valuation) {p : Place} {s : Statement} (place : p ∈ t.places)
    (above : s ∈ p.statement :: p.above)
    (contradiction : p.statement.formula.contradicts s.formula = true)
    (view : u.view = Branch.closeThrough p.statement.number t.view) : u.Satisfied valuation := by
  obtain ⟨b, hb, opened, truth⟩ := h
  have numbered := sound.built.numbered
  -- A true branch cannot contain both statements, so it is not among those that are closed.
  have passes : b.passes p.statement.number = false := by
    rw [← Bool.not_eq_true]
    intro passes
    have lower := truth _ (entry_mem_of_passes numbered.nodup place hb passes List.mem_cons_self)
    have upper := truth _ (entry_mem_of_passes numbered.nodup place hb passes above)
    have strictLower := sound.strict.above numbered place List.mem_cons_self
    have strictUpper := sound.strict.above numbered place above
    have differs := strictLower.not_holds_of_contradicts strictUpper contradiction valuation lower
    exact absurd upper (ne_true_of_eq_false differs)
  refine ⟨b, ?_, opened, truth⟩
  rw [view]
  exact Branch.mem_closeThrough_of_not_passes hb passes

theorem satisfied_premised {t u : Tableau} {valuation : Text → Bool} (h : t.Satisfied valuation)
    {e : Entry} (premise : e.formula.holds valuation = true)
    (view : u.view = Branch.extendFirst e t.view) : u.Satisfied valuation := by
  obtain ⟨b, hb, opened, truth⟩ := h
  unfold Satisfied
  rw [view]
  rcases Branch.mem_extendFirst hb with same | longer
  · exact ⟨b, same, opened, truth⟩
  · exact ⟨_, longer, opened, truth.extend (by simpa using premise)⟩

theorem satisfied_after {t : Tableau} {valuation : Text → Bool} (sound : t.StrictlyBuilt)
    (h : t.Satisfied valuation) {call : Call}
    (premise : ∀ f, call = .addPremise f → f.holds valuation = true) :
    (t.after call).Satisfied valuation := by
  have change := change_after sound.built.numbered call
  generalize t.after call = u at change ⊢
  obtain ⟨tree, next, refusal⟩ := u
  cases change with
  | declined operation => exact h
  | expanded place fresh rule proper =>
      exact satisfied_expanded sound h place rule proper
        (Tree.view_expandAt sound.built.coherent _ _ _)
  | closed place lower upper above contradiction =>
      exact satisfied_closed sound h place above contradiction (Tree.view_closeAt _ _)
  | premised formula =>
      exact satisfied_premised h (premise formula rfl) (Tree.view_addPremise _ _ _)

theorem satisfied_run {t : Tableau} {valuation : Text → Bool} (sound : t.StrictlyBuilt)
    (h : t.Satisfied valuation) {calls : List Call}
    (strict : ∀ f, Call.addPremise f ∈ calls → f.Strict)
    (truth : ∀ f, Call.addPremise f ∈ calls → f.holds valuation = true) :
    (t.run calls).Satisfied valuation := by
  refine (strict_run_invariant (Satisfied valuation) sound h strict ?_).2
  intro u call hcall sound h
  apply satisfied_after sound h
  rintro f rfl
  exact truth f hcall

theorem satisfied_ofPremises {first : Formula} {rest : List Formula} {valuation : Text → Bool}
    (strict : ∀ f ∈ first :: rest, f.Strict)
    (truth : ∀ f ∈ first :: rest, f.holds valuation = true) :
    (ofPremises first rest).Satisfied valuation := by
  obtain ⟨trueFirst, trueRest⟩ := List.forall_mem_cons.mp truth
  obtain ⟨strictFirst, strictRest⟩ := List.forall_mem_cons.mp strict
  rw [ofPremises_eq_run]
  apply satisfied_run (strictlyBuilt_start strictFirst)
  · refine ⟨⟨[⟨1, first⟩], false⟩, List.mem_cons_self, rfl, ?_⟩
    simpa [Branch.Holds] using trueFirst
  · exact fun f hf => strictRest f (addPremise_mem_map_iff.mp hf)
  · exact fun f hf => trueRest f (addPremise_mem_map_iff.mp hf)

theorem satisfied_serve {t : Tableau} {valuation : Text → Bool} (sound : t.StrictlyBuilt)
    (h : t.Satisfied valuation) {requests : List Request}
    (truth : ∀ f ∈ requests.filterMap Request.premise?, f.holds valuation = true) :
    (t.serve requests).Satisfied valuation := by
  apply satisfied_run sound h
  · exact fun f hf => Request.strict_of_mem_premises (Request.mem_premises_of_mem_calls hf)
  · exact fun f hf => truth f (Request.mem_premises_of_mem_calls hf)

/-- Closing is sound over whole runs. A valuation under which all premises hold, those given at the start
and those added later, makes everything true on some open branch; so if the tableau is closed, there
is no such valuation. -/
theorem open_branch_of_model {sources : List Text} {premises : List Formula} {t : Tableau}
    (read : Premise.readAll true sources = .ok premises) (built : ofTexts true sources = .ok t)
    (requests : List Request) :
    (∀ valuation : Text → Bool,
      (∀ f ∈ premises ++ requests.filterMap Request.premise?, f.holds valuation = true) →
      ∃ b ∈ (t.serve requests).view, b.closed = false ∧
        ∀ e ∈ b.path, e.formula.holds valuation = true) ∧
    ((t.serve requests).status = .closed →
      ¬∃ valuation : Text → Bool,
        ∀ f ∈ premises ++ requests.filterMap Request.premise?, f.holds valuation = true) := by
  obtain ⟨first, rest, read', rfl⟩ := ofTexts_eq_ok built
  obtain rfl := Except.ok.inj (read.symm.trans read')
  have strict := Premise.strict_readAll read
  have sound := strictlyBuilt_ofPremises strict
  have model : ∀ valuation : Text → Bool,
      (∀ f ∈ (first :: rest) ++ requests.filterMap Request.premise?, f.holds valuation = true) →
      ((ofPremises first rest).serve requests).Satisfied valuation := by
    intro valuation truth
    obtain ⟨initial, added⟩ := List.forall_mem_append.mp truth
    exact satisfied_serve sound (satisfied_ofPremises strict initial) added
  refine ⟨model, ?_⟩
  rintro closed ⟨valuation, truth⟩
  obtain ⟨b, hb, opened, -⟩ := model valuation truth
  have coherent := (strictlyBuilt_serve sound requests).built.coherent
  have all := coherent.root_closed_iff.mp (status_eq_closed_iff.mp closed)
  exact absurd (all b hb) (ne_true_of_eq_false opened)

-- A disjunction and the denial of its left side. With a premise that denies the right side too,
-- both branches close; without it, the right branch is true where only the left side is false.
theorem open_branch_of_model_disjunction :
    let sources := ["(or P Q)".toList, "(not P)".toList]
    let either := Formula.ofSentence (.compound .disjunction (.atom ['P']) (.atom ['Q']))
    let denial := Formula.ofSentence (.negation (.atom ['P']))
    let t := ofPremises either [denial]
    let opening := [.perform (.expand 1), .perform (.close 2 3), .addPremise ['R']]
    let closing := [.addPremise "(not Q)".toList, .perform (.expand 1), .perform (.close 4 2),
      .perform (.close 3 5)]
    let valuation : Text → Bool := fun name => name != ['P']
    Premise.readAll true sources = .ok [either, denial] ∧ ofTexts true sources = .ok t ∧
      (∀ f ∈ [either, denial] ++ opening.filterMap Request.premise?, f.holds valuation = true) ∧
      (∃ b ∈ (t.serve opening).view, b.closed = false ∧
        ∀ e ∈ b.path, e.formula.holds valuation = true) ∧
      (t.serve closing).status = .closed ∧
      ¬∃ valuation : Text → Bool,
        ∀ f ∈ [either, denial] ++ closing.filterMap Request.premise?, f.holds valuation = true := by
  intro sources either denial t opening closing valuation
  have read : Premise.readAll true sources = .ok [either, denial] := by cbv
  have built : ofTexts true sources = .ok t := by cbv
  have closed : (t.serve closing).status = .closed := by cbv
  have truth := List.all_eq_true.mp (by cbv :
    ([either, denial] ++ opening.filterMap Request.premise?).all (·.holds valuation) = true)
  exact ⟨read, built, truth, (open_branch_of_model read built opening).1 valuation truth, closed,
    (open_branch_of_model read built closing).2 closed⟩

end Tableau

end TruthTree
