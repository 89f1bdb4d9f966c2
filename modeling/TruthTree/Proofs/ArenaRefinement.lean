import TruthTree.Proofs.ArenaLoops

/-! The arena refines the tree. A tableau has one arena, and every call on the arena of a well-built
tableau gives the arena of what the call makes of the tableau: no link leads astray and no loop runs on
for ever, whatever is asked for and in whatever order. -/
namespace TruthTree

namespace Arena

def after (a : Arena) : Call → Option Arena
  | .perform operation => (a.perform operation).map Prod.fst
  | .addPremise formula => a.addPremise formula

def run (a : Arena) (calls : List Call) : Option Arena := calls.foldlM after a

end Arena

namespace Tableau

def arena (t : Tableau) : Arena := ⟨t.nodes, t.next, t.refusal⟩

variable {t : Tableau}

theorem node?_of_out_of_range (h : t.Numbered) {number : Int}
    (out : ¬(1 ≤ number ∧ number < t.next)) : t.node? number = none := by
  rw [node?, Option.map_eq_none_iff, place?, List.find?_eq_none]
  intro p hp
  have low := number_pos h hp
  have high := h.number_lt (Tree.statement_mem_of_mem_places hp)
  simp only [decide_eq_true_eq]
  omega

theorem exists_place (h : t.Numbered) {number : Nat} (low : 1 ≤ number) (high : number < t.next) :
    ∃ p ∈ t.places, p.statement.number = number := by
  obtain ⟨s, hs, same⟩ := List.mem_map.mp ((h.mem_numbers_iff number).mpr ⟨low, high⟩)
  obtain ⟨p, hp, rfl⟩ := exists_place_of_mem_statements hs
  exact ⟨p, hp, same⟩

theorem at?_arena (h : t.Numbered) (number : Nat) : t.arena.at? number = t.node? number := by
  cases number with
  | zero => exact (node?_of_out_of_range h (by omega)).symm
  | succ i => exact (node?_eq_getElem? h i).symm

theorem holds_arena (h : t.Numbered) : t.arena.Holds none t.tree where
  tight := by
    rw [Arena.Tight, arena, length_nodes, h.next_eq, size]
  stored := by
    apply (@Tree.stored_iff t.arena [] t.tree).mpr
    intro p hp
    rw [at?_arena h, node?_of_place h hp]
  unique := h.nodup

theorem eq_arena (h : t.Numbered) {a : Arena} (holds : a.Holds none t.tree) (next : a.next = t.next)
    (refusal : a.refusal = t.refusal) : a = t.arena := by
  have length : a.nodes.length = t.nodes.length := by
    have tight := holds.tight
    rw [Arena.Tight, next, h.next_eq] at tight
    rw [length_nodes, size]
    omega
  have nodes : a.nodes = t.nodes := by
    apply List.ext_getElem?
    intro i
    by_cases bound : i < t.nodes.length
    · rw [length_nodes, size] at bound
      obtain ⟨p, hp, number⟩ := exists_place h (Nat.le_add_left 1 i) (by rw [h.next_eq]; omega)
      have here := (@Tree.stored_iff a [] t.tree).mp holds.stored p hp
      rw [number] at here
      rw [← node?_eq_getElem? h, ← number, node?_of_place h hp]
      exact here
    · rw [List.getElem?_eq_none (by omega), List.getElem?_eq_none (by omega)]
  obtain ⟨tree, next', refusal'⟩ := t
  cases a
  simp only [arena, Arena.mk.injEq]
  exact ⟨nodes, next, refusal⟩

theorem eq_arena_of_updates {a b : Arena} {u : Tableau} (h : u.Numbered)
    (update : a.Updates b none t.tree u.tree) (next : b.next = u.next)
    (refusal : a.refusal = u.refusal) : b = u.arena :=
  eq_arena h update.holds next (update.refusal.trans refusal)

theorem root_number (h : t.WellBuilt) : t.root.number = 1 :=
  (number_eq_one_iff h (Tree.self_mem_places [] t.tree)).mpr rfl

theorem lookUp_arena (h : t.Numbered) (number : Int) :
    t.arena.lookUp number = some (t.node? number) := by
  rw [Arena.lookUp]
  split
  · next range =>
      obtain ⟨low, high⟩ : 1 ≤ number ∧ number < t.next := range
      obtain ⟨p, hp, same⟩ := @exists_place t h number.toNat (by omega) (by omega)
      have here : (p.statement.number : Int) = number := by omega
      rw [at?_arena h, ← same, ← here, node?_of_place h hp]
      rfl
  · next range => rw [node?_of_out_of_range h range]

theorem arena_start (premise : Formula) : (Arena.empty.newNode premise).1 = (start premise).arena :=
  eq_arena (.start premise) ⟨rfl, rfl, List.nodup_singleton 1⟩ rfl rfl

theorem arena_addPremise (h : t.WellBuilt) (premise : Formula) :
    t.arena.addPremise premise = some (t.addPremise premise).arena := by
  obtain ⟨b, added, next, update⟩ := (holds_arena h.numbered).addPremiseBelow premise
  have numbered := (h.after (.addPremise premise)).numbered
  rw [show t.tree.root.number = 1 from root_number h] at added
  rw [Arena.addPremise, added, eq_arena_of_updates numbered update next rfl]
  rfl

theorem WellBuilt.forget (h : t.WellBuilt) : ({ t with refusal := none } : Tableau).WellBuilt :=
  ⟨h.coherent, ⟨h.numbered.next_eq, h.numbered.perm⟩, h.ascending⟩

theorem lookUp_forget (h : t.WellBuilt) (number : Int) :
    ({ t.arena with refusal := none } : Arena).lookUp number =
      some ((t.place? number).map Place.node) :=
  lookUp_arena h.forget.numbered number

theorem holds_forget (h : t.WellBuilt) :
    ({ t.arena with refusal := none } : Arena).Holds none t.tree :=
  holds_arena h.forget.numbered

theorem grow_arena (h : t.WellBuilt) {number : Int} {target : Nat} {d : Decomposition}
    (accepted : t.expansion number = .ok (target, d)) :
    ({ t.arena with refusal := none } : Arena).grow target d = some (t.expand number).1.arena := by
  have built := (h.after (.perform (.expand number))).numbered
  obtain ⟨p, found, rfl, -⟩ := expansion_eq_ok_iff.mp accepted
  have hp := List.mem_of_find?_eq_some found
  have mem := Tree.number_mem_of_mem_places hp
  obtain ⟨b, grown, next, update⟩ := @Arena.Holds.grow _ _ _ [] (holds_forget h) mem d
  simp only [after, perform, expand, accepted] at built ⊢
  rw [grown, eq_arena_of_updates built update next rfl]

theorem arena_expand (h : t.WellBuilt) (number : Int) :
    t.arena.expand number = some ((t.expand number).1.arena, (t.expand number).2) := by
  have accepted : ∀ {p : Place} {d : Decomposition}, t.place? number = some p →
      p.statement.expanded = false → p.statement.formula.decompose = .ok d → d ≠ .literal →
      (({ t.arena with refusal := none } : Arena).grow p.statement.number d).bind
        (fun a => some (a, Outcome.accepted)) =
          some ((t.expand number).1.arena, (t.expand number).2) := by
    intro p d place fresh rule proper
    have accepted := expansion_eq_ok_iff.mpr ⟨p, place, rfl, fresh, rule, proper⟩
    have outcome : (t.expand number).2 = .accepted := by rw [expand, accepted]
    rw [grow_arena h accepted, outcome, Option.bind_some]
  simp only [Arena.expand, lookUp_forget h, Option.bind_eq_bind, Option.bind_some]
  cases place : t.place? number with
  | none =>
      rw [expand, expansion, place]
      rfl
  | some p =>
      simp only [Option.map_some]
      cases mark : p.statement.expanded with
      | true =>
          simp only [expand, expansion, place, Place.node_fields, mark]
          rfl
      | false =>
          cases rule : p.statement.formula.decompose with
          | error e =>
              simp only [expand, expansion, place, Place.node_fields, mark, rule]
              rfl
          | ok d =>
              simp only [Place.node_fields, mark, rule]
              cases d with
              | literal =>
                  simp only [expand, expansion, place, mark, rule]
                  rfl
              | single | stacked | forked => exact accepted place mark rule (by simp)

theorem onBranch_arena (h : t.Numbered) (upper : Place) {lower : Place} (hl : lower ∈ t.places) :
    t.arena.onBranch upper.node lower.node =
      some (upper.statement.number = lower.statement.number ||
        lower.above.any (·.number = upper.statement.number)) := by
  obtain ⟨nodes, found, same⟩ := Arena.ancestors_place (holds_arena h).stored lower hl
  have above := congrArg (List.any · fun pair => pair.1 = upper.statement.number) same
  simp only [List.any_map, Function.comp_def] at above
  rw [Arena.onBranch]
  simp only [Place.node_fields, found, above, Option.bind_eq_bind, Option.bind_some]
  split
  · next here => simp [here]
  · next other => simp [other]

theorem exists_ordered {p q : Place} (hp : p ∈ t.places) (hq : q ∈ t.places) :
    ∃ upper lower : Place,
      (upper, lower) = (if p.statement.number ≤ q.statement.number then (p, q) else (q, p)) ∧
      (if p.statement.number ≤ q.statement.number then (p.node, q.node) else (q.node, p.node)) =
        (upper.node, lower.node) ∧ lower ∈ t.places := by
  by_cases le : p.statement.number ≤ q.statement.number
  · exact ⟨p, q, (if_pos le).symm, if_pos le, hq⟩
  · exact ⟨q, p, (if_neg le).symm, if_neg le, hp⟩

theorem close_arena (h : t.WellBuilt) {first second : Int} {target : Nat}
    (accepted : t.closure first second = .ok target) :
    ∃ b, ({ t.arena with refusal := none } : Arena).closeDownward [target] = some b ∧
      b.closeUpward target = some (t.close first second).1.arena := by
  have built := (h.after (.perform (.close first second))).numbered
  obtain ⟨p, s, hp, rfl, -⟩ := closure_eq_ok h.numbered accepted
  obtain ⟨b, c, down, next, update, up⟩ :=
    (holds_forget h).closeAt h.coherent (Tree.number_mem_of_mem_places hp)
  have top : c.closeUpward t.tree.root.number = some c := by
    have found := update.holds.stored.root
    rw [update.root] at found
    exact Arena.closeUpward_of_root found (by cases t.tree.closeAt p.statement.number <;> rfl)
  simp only [after, perform, close, accepted] at built ⊢
  rw [top, ite_self] at up
  exact ⟨b, down, up.trans (congrArg some (eq_arena_of_updates built update next rfl))⟩

theorem arena_close (h : t.WellBuilt) (first second : Int) :
    t.arena.close first second =
      some ((t.close first second).1.arena, (t.close first second).2) := by
  simp only [Arena.close, lookUp_forget h, Option.bind_eq_bind, Option.bind_some]
  cases hp : t.place? first with
  | none =>
      simp only [close, closure, hp]
      rfl
  | some p =>
      cases hq : t.place? second with
      | none =>
          simp only [close, closure, hp, hq]
          rfl
      | some q =>
          obtain ⟨upper, lower, order, nodes, hl⟩ :=
            exists_ordered (List.mem_of_find?_eq_some hp) (List.mem_of_find?_eq_some hq)
          have branch : ({ t.arena with refusal := none } : Arena).onBranch upper.node lower.node =
              some !(upper.statement.number ≠ lower.statement.number &&
                !lower.above.any (·.number = upper.statement.number)) := by
            refine (onBranch_arena h.forget.numbered upper hl).trans (congrArg some ?_)
            simp
          have decision := closure_of_places hp hq order
          simp only [Option.map_some, Place.node_fields, nodes, branch, Option.bind_some,
            Bool.not_not]
          split
          · next literal =>
              rw [if_pos literal] at decision
              rw [close, decision]
              rfl
          · next literal =>
              rw [if_neg literal] at decision
              split
              · next apart =>
                  rw [if_pos apart] at decision
                  rw [close, decision]
                  rfl
              · next joined =>
                  rw [if_neg joined] at decision
                  split
                  · next consistent =>
                      rw [if_pos consistent] at decision
                      rw [close, decision]
                      rfl
                  · next contradiction =>
                      rw [if_neg contradiction] at decision
                      obtain ⟨b, down, up⟩ := close_arena h decision
                      have outcome : (t.close first second).2 = .accepted := by rw [close, decision]
                      rw [down, Option.bind_some, up, Option.bind_some, outcome]

theorem arena_perform (h : t.WellBuilt) (operation : Operation) :
    t.arena.perform operation =
      some ((t.perform operation).1.arena, (t.perform operation).2) := by
  cases operation with
  | expand number => exact arena_expand h number
  | close first second => exact arena_close h first second

theorem arena_after (h : t.WellBuilt) (call : Call) : t.arena.after call = some (t.after call).arena := by
  cases call with
  | perform operation =>
      rw [Arena.after, arena_perform h, Option.map_some]
      rfl
  | addPremise formula => exact arena_addPremise h formula

/-- A run on the arena goes through and ends with the arena of the tableau after it. -/
theorem arena_run (h : t.WellBuilt) (calls : List Call) :
    t.arena.run calls = some (t.run calls).arena := by
  induction calls generalizing t with
  | nil => rfl
  | cons call calls ih =>
      rw [Arena.run, List.foldlM_cons, arena_after h, Option.bind_eq_bind, Option.bind_some]
      exact ih (h.after call)

theorem arena_ofPremises (first : Formula) (rest : List Formula) :
    Arena.ofPremises first rest = some (ofPremises first rest).arena := by
  have calls : ∀ a : Arena, rest.foldlM Arena.addPremise a = a.run (rest.map .addPremise) := by
    intro a
    rw [Arena.run, List.foldlM_map]
    rfl
  rw [Arena.ofPremises, calls, arena_start, arena_run (wellBuilt_start first), ofPremises_eq_run]

theorem arena_of_calls (first : Formula) (rest : List Formula) (calls : List Call) :
    (Arena.ofPremises first rest).bind (·.run calls) =
      some ((ofPremises first rest).run calls).arena := by
  have start : (ofPremises first rest).WellBuilt := Reachable.wellBuilt ⟨first, rest, [], rfl⟩
  rw [arena_ofPremises, Option.bind_some, arena_run start]

/-! What is read off an arena. -/

theorem arena_traverse (h : t.WellBuilt) : t.arena.traverse = some (t.traverse.map Place.node) := by
  have root : Place.Stored t.arena ⟨[], t.tree⟩ := (holds_arena h.numbered).stored
  have walked := Arena.walk_places false (List.forall_mem_singleton.mpr root)
  have number : Place.statement ⟨[], t.tree⟩ = t.root := rfl
  rw [List.map_singleton, number, root_number h] at walked
  exact walked

theorem isContradicted_arena (h : t.Numbered) {p : Place} (hp : p ∈ t.places) :
    t.arena.isContradicted p.node = some (conflict? p).isSome := by
  obtain ⟨nodes, found, same⟩ := Arena.ancestors_place (holds_arena h).stored p hp
  have above := congrArg (List.any · fun pair => p.statement.formula.contradicts pair.2) same
  simp only [List.any_map, Function.comp_def] at above
  simp only [Arena.isContradicted, conflict?, Place.node_fields, found, above, Option.bind_eq_bind,
    Option.bind_some]
  split
  · rfl
  · refine congrArg some (Bool.eq_iff_iff.mpr ?_)
    simp

theorem anyM_isContradicted (h : t.Numbered) {places : List Place} (hp : ∀ p ∈ places, p ∈ t.places) :
    (places.map Place.node).anyM t.arena.isContradicted =
      some (places.findSome? conflict?).isSome := by
  induction places with
  | nil => rfl
  | cons p places ih =>
      obtain ⟨here, rest⟩ := List.forall_mem_cons.mp hp
      rw [List.map_cons, List.anyM, isContradicted_arena h here, List.findSome?_cons]
      cases conflict? p with
      | none => exact ih rest
      | some r => rfl

theorem any_isPending (t : Tableau) : t.nodes.any Node.isPending = t.pendingExpansion?.isSome := by
  rw [Bool.eq_iff_iff, nodes, pendingExpansion?]
  simp [Node.isPending, Place.node, Statement.isPending]

theorem root_arena (h : t.WellBuilt) :
    ∃ node, t.arena.at? 1 = some node ∧ node.closed = t.root.closed :=
  ⟨_, first_node h, rfl⟩

theorem arena_isDone (h : t.WellBuilt) : t.arena.isDone = some t.isDone := by
  obtain ⟨node, root, closed⟩ := root_arena h
  have pending : t.arena.nodes.any Node.isPending = t.pendingExpansion?.isSome := any_isPending t
  have contradicted : t.arena.nodes.reverse.anyM t.arena.isContradicted =
      some t.pendingClosure?.isSome := by
    have listed := @anyM_isContradicted t h.numbered t.listing.reverse
      (fun p hp => mem_listing_iff.mp (List.mem_reverse.mp hp))
    rw [List.map_reverse] at listed
    exact listed
  simp only [Arena.isDone, isDone, remaining?, root, closed, pending, contradicted,
    Option.bind_eq_bind, Option.bind_some]
  split
  · rfl
  · cases t.pendingExpansion? with
    | none => cases t.pendingClosure? <;> rfl
    | some r => rfl

theorem arena_status (h : t.WellBuilt) : t.arena.status = some t.status := by
  obtain ⟨node, root, closed⟩ := root_arena h
  simp only [Arena.status, status, root, closed, arena_isDone h, Option.bind_eq_bind, Option.bind_some]
  split
  · rfl
  · split <;> rfl

end Tableau

end TruthTree
