import TruthTree.Proofs.Numbering

/-! Places and branches. A branch that goes through the number of a place goes through the place itself,
below all the statements above it; and every statement of a branch has a place there. -/
namespace TruthTree

namespace Tree

theorem mem_statements_of_mem_branch {t : Tree} {b : List Statement} {s : Statement}
    (hb : b ∈ t.branches) (hs : s ∈ b) : s ∈ t.statements := by
  induction t generalizing b with
  | leaf x => simp_all [branches, statements]
  | chain x t ih =>
      obtain ⟨c, hc, rfl⟩ := List.mem_map.mp hb
      rcases List.mem_cons.mp hs with rfl | hs
      · exact List.mem_cons_self
      · exact List.mem_cons_of_mem x (ih hc hs)
  | fork x l r ihl ihr =>
      obtain ⟨c, hc, rfl⟩ := List.mem_map.mp hb
      rcases List.mem_cons.mp hs with rfl | hs
      · exact List.mem_cons_self
      · apply List.mem_cons_of_mem x
        rcases List.mem_append.mp hc with hc | hc
        · exact List.mem_append_left _ (ihl hc hs)
        · exact List.mem_append_right _ (ihr hc hs)

theorem mem_places_chain {above : List Statement} {s : Statement} {t : Tree} {p : Place} :
    p ∈ (chain s t).places above ↔ p = ⟨above, chain s t⟩ ∨ p ∈ t.places (s :: above) :=
  List.mem_cons

theorem mem_places_fork {above : List Statement} {s : Statement} {l r : Tree} {p : Place} :
    p ∈ (fork s l r).places above ↔
      p = ⟨above, fork s l r⟩ ∨ p ∈ l.places (s :: above) ∨ p ∈ r.places (s :: above) := by
  rw [places, List.cons_append, List.mem_cons, List.mem_append]

theorem statement_mem_of_mem_places {t : Tree} {above : List Statement} {p : Place}
    (h : p ∈ t.places above) : p.statement ∈ t.statements := by
  rw [← map_statement_places above t]
  exact List.mem_map_of_mem h

theorem exists_mem_branches {t : Tree} : ∃ b, b ∈ t.branches := by
  have nonempty := t.view_ne_nil
  rw [view, ne_eq, List.map_eq_nil_iff] at nonempty
  exact List.exists_mem_of_ne_nil _ nonempty

theorem branch_of_mem_places {t : Tree} {above : List Statement} {p : Place}
    (hp : p ∈ t.places above) {c : List Statement} (hc : c ∈ p.here.branches) :
    ∃ b ∈ t.branches, above.reverse ++ b = p.above.reverse ++ c := by
  induction t generalizing above with
  | leaf s =>
      obtain rfl := List.mem_singleton.mp hp
      exact ⟨c, hc, rfl⟩
  | chain s t ih =>
      rcases mem_places_chain.mp hp with rfl | hp
      · exact ⟨c, hc, rfl⟩
      · obtain ⟨b, hb, same⟩ := ih hp
        exact ⟨s :: b, List.mem_map_of_mem hb, by simpa using same⟩
  | fork s l r ihl ihr =>
      rcases mem_places_fork.mp hp with rfl | hp | hp
      · exact ⟨c, hc, rfl⟩
      · obtain ⟨b, hb, same⟩ := ihl hp
        exact ⟨s :: b, List.mem_map_of_mem (List.mem_append_left _ hb), by simpa using same⟩
      · obtain ⟨b, hb, same⟩ := ihr hp
        exact ⟨s :: b, List.mem_map_of_mem (List.mem_append_right _ hb), by simpa using same⟩

theorem mem_statements_of_mem_above {t : Tree} {p : Place} (hp : p ∈ t.places []) {s : Statement}
    (hs : s ∈ p.above) : s ∈ t.statements := by
  obtain ⟨c, hc⟩ := p.here.exists_mem_branches
  obtain ⟨b, hb, same⟩ := branch_of_mem_places hp hc
  apply mem_statements_of_mem_branch hb
  rw [List.reverse_nil, List.nil_append] at same
  rw [same]
  exact List.mem_append_left _ (List.mem_reverse.mpr hs)

theorem map_number_places (above : List Statement) (t : Tree) :
    (t.places above).map (fun p => p.statement.number) = t.numbers := by
  rw [numbers, ← map_statement_places above, List.map_map]
  rfl

theorem number_mem_of_mem_places {t : Tree} {above : List Statement} {p : Place}
    (h : p ∈ t.places above) : p.statement.number ∈ t.numbers :=
  List.mem_map_of_mem (statement_mem_of_mem_places h)

theorem number_mem_of_mem_branch {t : Tree} {b : List Statement} {number : Nat}
    (hb : b ∈ t.branches) (h : number ∈ b.map Statement.number) : number ∈ t.numbers := by
  obtain ⟨s, hs, rfl⟩ := List.mem_map.mp h
  exact List.mem_map_of_mem (mem_statements_of_mem_branch hb hs)

theorem path_of_branch_through {t : Tree} (unique : t.numbers.Nodup) {above : List Statement}
    {p : Place} (hp : p ∈ t.places above) {b : List Statement} (hb : b ∈ t.branches)
    (through : p.statement.number ∈ b.map Statement.number) :
    ∃ c ∈ p.here.branches, above.reverse ++ b = p.above.reverse ++ c := by
  induction t generalizing above b with
  | leaf s =>
      obtain rfl := List.mem_singleton.mp hp
      exact ⟨b, hb, rfl⟩
  | chain s t ih =>
      rcases mem_places_chain.mp hp with rfl | below
      · exact ⟨b, hb, rfl⟩
      · obtain ⟨rest, hrest, rfl⟩ := List.mem_map.mp hb
        rw [numbers_chain, List.nodup_cons] at unique
        rcases List.mem_cons.mp through with same | through
        · exact absurd (same ▸ number_mem_of_mem_places below) unique.1
        · obtain ⟨c, hc, same⟩ := ih unique.2 below hrest through
          exact ⟨c, hc, by simpa using same⟩
  | fork s l r ihl ihr =>
      rw [numbers_fork, List.nodup_cons, List.nodup_append] at unique
      obtain ⟨root, left, right, apart⟩ := unique
      rcases mem_places_fork.mp hp with rfl | below | below
      · exact ⟨b, hb, rfl⟩
      · obtain ⟨rest, hrest, rfl⟩ := List.mem_map.mp hb
        have number := number_mem_of_mem_places below
        rcases List.mem_cons.mp through with same | through
        · exact absurd (List.mem_append_left _ (same ▸ number)) root
        · rcases List.mem_append.mp hrest with hrest | hrest
          · obtain ⟨c, hc, same⟩ := ihl left below hrest through
            exact ⟨c, hc, by simpa using same⟩
          · exact absurd rfl (apart _ number _ (number_mem_of_mem_branch hrest through))
      · obtain ⟨rest, hrest, rfl⟩ := List.mem_map.mp hb
        have number := number_mem_of_mem_places below
        rcases List.mem_cons.mp through with same | through
        · exact absurd (List.mem_append_right _ (same ▸ number)) root
        · rcases List.mem_append.mp hrest with hrest | hrest
          · exact absurd rfl (apart _ (number_mem_of_mem_branch hrest through) _ number)
          · obtain ⟨c, hc, same⟩ := ihr right below hrest through
            exact ⟨c, hc, by simpa using same⟩

theorem place_of_mem_branch {t : Tree} (above : List Statement) {upper lower : List Statement}
    {s : Statement} (hb : upper ++ s :: lower ∈ t.branches) :
    ∃ p ∈ t.places above, p.statement = s ∧ p.above = upper.reverse ++ above := by
  induction t generalizing above upper with
  | leaf x =>
      have same : upper ++ s :: lower = [x] := List.mem_singleton.mp hb
      obtain ⟨rfl, rfl, -⟩ : upper = [] ∧ s = x ∧ lower = [] := by
        cases upper <;> simp_all
      exact ⟨⟨above, leaf s⟩, List.mem_cons_self, rfl, rfl⟩
  | chain x t ih =>
      obtain ⟨rest, hrest, same⟩ := List.mem_map.mp hb
      cases upper with
      | nil =>
          obtain ⟨rfl, -⟩ := List.cons.inj same
          exact ⟨⟨above, chain x t⟩, List.mem_cons_self, rfl, rfl⟩
      | cons y upper =>
          obtain ⟨rfl, rfl⟩ := List.cons.inj same
          obtain ⟨p, hp, statement, path⟩ := ih (x :: above) hrest
          exact ⟨p, mem_places_chain.mpr (.inr hp), statement, by simpa using path⟩
  | fork x l r ihl ihr =>
      obtain ⟨rest, hrest, same⟩ := List.mem_map.mp hb
      cases upper with
      | nil =>
          obtain ⟨rfl, -⟩ := List.cons.inj same
          exact ⟨⟨above, fork x l r⟩, List.mem_cons_self, rfl, rfl⟩
      | cons y upper =>
          obtain ⟨rfl, rfl⟩ := List.cons.inj same
          rcases List.mem_append.mp hrest with hrest | hrest
          · obtain ⟨p, hp, statement, path⟩ := ihl (x :: above) hrest
            exact ⟨p, mem_places_fork.mpr (.inr (.inl hp)), statement, by simpa using path⟩
          · obtain ⟨p, hp, statement, path⟩ := ihr (x :: above) hrest
            exact ⟨p, mem_places_fork.mpr (.inr (.inr hp)), statement, by simpa using path⟩

theorem aligned_of_mem_branch {t : Tree} {b : List Statement} (hb : b ∈ t.branches) {s s' : Statement}
    (hs : s ∈ b) (hs' : s' ∈ b) :
    s = s' ∨ (∃ p ∈ t.places [], p.statement = s ∧ s' ∈ p.above) ∨
      ∃ p ∈ t.places [], p.statement = s' ∧ s ∈ p.above := by
  obtain ⟨upper, lower, rfl⟩ := List.append_of_mem hs
  rcases List.mem_append.mp hs' with before | after
  · obtain ⟨p, hp, statement, path⟩ := place_of_mem_branch [] hb
    exact .inr (.inl ⟨p, hp, statement, by simp [path, before]⟩)
  · rcases List.mem_cons.mp after with rfl | after
    · exact .inl rfl
    · obtain ⟨middle, lowest, rfl⟩ := List.append_of_mem after
      rw [← List.cons_append, ← List.append_assoc] at hb
      obtain ⟨p, hp, statement, path⟩ := place_of_mem_branch [] hb
      exact .inr (.inr ⟨p, hp, statement, by simp [path]⟩)

theorem Coherent.here {t : Tree} (h : t.Coherent) {above : List Statement} {p : Place}
    (hp : p ∈ t.places above) : p.here.Coherent := by
  induction t generalizing above with
  | leaf s =>
      obtain rfl := List.mem_singleton.mp hp
      exact h
  | chain s t ih =>
      rcases mem_places_chain.mp hp with rfl | hp
      · exact h
      · exact ih h.2 hp
  | fork s l r ihl ihr =>
      rcases mem_places_fork.mp hp with rfl | hp | hp
      · exact h
      · exact ihl h.2.1 hp
      · exact ihr h.2.2 hp

end Tree

namespace Branch

@[simp] theorem path_ofStatements (b : List Statement) :
    (ofStatements b).path = b.map Statement.entry := rfl

theorem passes_ofStatements {number : Nat} {b : List Statement} :
    (ofStatements b).passes number = true ↔ number ∈ b.map Statement.number := by
  simp [passes_iff, Statement.entry]

theorem closed_ofStatements_append (upper : List Statement) {lower : List Statement}
    (h : lower ≠ []) : (ofStatements (upper ++ lower)).closed = (ofStatements lower).closed := by
  simp [ofStatements, List.getLast?_append, List.getLast?_eq_some_getLast h]

end Branch

namespace Tableau

def view (t : Tableau) : List Branch := t.tree.view

theorem mem_view_through_iff {t : Tableau} (unique : t.tree.numbers.Nodup) {p : Place}
    (hp : p ∈ t.places) (b : Branch) :
    (b ∈ t.view ∧ b.passes p.statement.number = true) ↔
      ∃ c ∈ p.here.branches, b = .ofStatements (p.above.reverse ++ c) := by
  constructor
  · rintro ⟨hb, through⟩
    obtain ⟨whole, hwhole, rfl⟩ := List.mem_map.mp hb
    obtain ⟨c, hc, same⟩ := Tree.path_of_branch_through unique hp hwhole
      (Branch.passes_ofStatements.mp through)
    exact ⟨c, hc, congrArg Branch.ofStatements same⟩
  · rintro ⟨c, hc, rfl⟩
    obtain ⟨whole, hwhole, same⟩ := Tree.branch_of_mem_places hp hc
    rw [← same]
    refine ⟨List.mem_map_of_mem hwhole, ?_⟩
    rw [same, Branch.passes_ofStatements, List.map_append]
    exact List.mem_append_right _ (List.mem_map_of_mem (Tree.root_mem_of_mem_branches hc))

theorem exists_branch_through {t : Tableau} (unique : t.tree.numbers.Nodup) {p : Place}
    (hp : p ∈ t.places) : ∃ b ∈ t.view, b.passes p.statement.number = true := by
  obtain ⟨c, hc⟩ := p.here.exists_mem_branches
  obtain ⟨hb, passes⟩ := (mem_view_through_iff unique hp _).mpr ⟨c, hc, rfl⟩
  exact ⟨_, hb, passes⟩

theorem closed_iff_view {t : Tableau} (coherent : t.tree.Coherent) (unique : t.tree.numbers.Nodup)
    {p : Place} (hp : p ∈ t.places) :
    p.statement.closed = true ↔
      ∀ b ∈ t.view, b.passes p.statement.number = true → b.closed = true := by
  have through := mem_view_through_iff unique hp
  rw [Place.statement, (coherent.here hp).root_closed_iff, Tree.view, List.forall_mem_map]
  constructor
  · intro closed b hb passes
    obtain ⟨c, hc, rfl⟩ := (through b).mp ⟨hb, passes⟩
    rw [Branch.closed_ofStatements_append _ (Tree.ne_nil_of_mem_branches hc)]
    exact closed c hc
  · intro closed c hc
    obtain ⟨hb, passes⟩ := (through _).mpr ⟨c, hc, rfl⟩
    rw [← Branch.closed_ofStatements_append p.above.reverse (Tree.ne_nil_of_mem_branches hc)]
    exact closed _ hb passes

theorem entry_mem_of_passes {t : Tableau} (unique : t.tree.numbers.Nodup) {p : Place}
    (hp : p ∈ t.places) {b : Branch} (hb : b ∈ t.view) (passes : b.passes p.statement.number = true)
    {s : Statement} (hs : s ∈ p.statement :: p.above) : s.entry ∈ b.path := by
  obtain ⟨c, hc, rfl⟩ := (mem_view_through_iff unique hp b).mp ⟨hb, passes⟩
  rw [Branch.path_ofStatements, List.map_append]
  rcases List.mem_cons.mp hs with rfl | hs
  · exact List.mem_append_right _ (List.mem_map_of_mem (Tree.root_mem_of_mem_branches hc))
  · exact List.mem_append_left _ (List.mem_map_of_mem (List.mem_reverse.mpr hs))

theorem exists_statement_of_mem_path {t : Tableau} {b : Branch} {e : Entry} (hb : b ∈ t.view)
    (he : e ∈ b.path) : ∃ s ∈ t.tree.statements, s.entry = e := by
  obtain ⟨c, hc, rfl⟩ := List.mem_map.mp hb
  obtain ⟨s, hs, rfl⟩ := List.mem_map.mp he
  exact ⟨s, Tree.mem_statements_of_mem_branch hc hs, rfl⟩

theorem exists_place_of_mem_statements {t : Tableau} {s : Statement} (hs : s ∈ t.tree.statements) :
    ∃ p ∈ t.places, p.statement = s := by
  rw [← Tree.map_statement_places [] t.tree] at hs
  exact List.mem_map.mp hs

theorem place_unique {t : Tableau} (unique : t.tree.numbers.Nodup) {p q : Place}
    (hp : p ∈ t.places) (hq : q ∈ t.places) (same : p.statement.number = q.statement.number) :
    p = q := by
  rw [← Tree.map_number_places []] at unique
  exact List.inj_on_of_nodup_map unique hp hq same

theorem place?_eq_some_iff {t : Tableau} (unique : t.tree.numbers.Nodup) {number : Int} {p : Place} :
    t.place? number = some p ↔ p ∈ t.places ∧ (p.statement.number : Int) = number := by
  constructor
  · intro found
    have test := List.find?_some found
    exact ⟨List.mem_of_find?_eq_some found, by simpa using test⟩
  · rintro ⟨hp, rfl⟩
    cases found : t.place? p.statement.number with
    | none =>
        have test := List.find?_eq_none.mp found p hp
        simp at test
    | some q =>
        have test := List.find?_some found
        have hq := List.mem_of_find?_eq_some found
        have same : q.statement.number = p.statement.number := Int.ofNat_inj.mp (by simpa using test)
        rw [place_unique unique hq hp same]

end Tableau

end TruthTree
