import Mathlib.Data.List.Nodup
import Playbook.Proofs.Plan.Distinct
import Playbook.Proofs.Session.Numbering
import Playbook.Proofs.Value.Agreement

/-! Where the plays of a plan come from, and with them the steps that it shows. Once bindings have
been merged no unit is bound twice to one host group, so no step comes out twice. -/

namespace Playbook

/-- What a play is made of: a unit, and one of the host groups that the unit is bound to. -/
structure Origin where
  unit : UnitId
  group : GroupId
deriving DecidableEq

structure Placed where
  unit : UnitId
  index : Nat
  step : Step

namespace Session
variable {s t : Session} {p : Plan} {o : Origin} {order : List UnitId} {id : UnitId}

def playOf? (s : Session) (o : Origin) : Option Play := do
  return .of (← s.group? o.group) (← s.unit? o.unit)

def originsFor (s : Session) (id : UnitId) : List Origin :=
  match s.unit? id with
  | none => []
  | some u => if u.steps = [] then [] else u.groups.map (⟨id, ·⟩)

def shownBy (s : Session) (o : Origin) : List Placed :=
  ((s.stepsOf o.unit).zipIdx.filter fun x => x.1.group = some o.group).map fun x =>
    ⟨o.unit, x.2, x.1⟩

def rendered (s : Session) (x : Placed) : Attributes :=
  x.step.render (((s.unit? x.unit).map WorkUnit.stepSettings).getD .empty)

/-- The plays of the plan, one after another, with what they are made of. -/
structure Emits (s : Session) (p : Plan) (origins : List Origin) : Prop where
  plays : p.plays.map some = origins.map s.playOf?
  steps : p.plays.map Play.steps = origins.map fun o => (s.shownBy o).map s.rendered
  bound : ∀ o ∈ origins, ∃ u, s.unit? o.unit = some u ∧ o.group ∈ u.groups

theorem playOf?_eq_some {q : Play} : s.playOf? o = some q ↔
    ∃ g u, s.group? o.group = some g ∧ s.unit? o.unit = some u ∧ Play.of g u = q := by
  simp [playOf?, Option.bind_eq_some_iff]

theorem mem_originsFor : o ∈ s.originsFor id ↔
    o.unit = id ∧ ∃ u, s.unit? id = some u ∧ u.steps ≠ [] ∧ o.group ∈ u.groups := by
  obtain ⟨unit, group⟩ := o
  unfold originsFor
  cases s.unit? id with
  | none => simp
  | some u =>
    by_cases none : u.steps = []
    · simp [none]
    · simp [none, eq_comm, and_comm]

theorem mem_shownBy {x : Placed} : x ∈ s.shownBy o ↔
    x.unit = o.unit ∧ (s.stepsOf o.unit)[x.index]? = some x.step ∧ x.step.group = some o.group := by
  cases x
  simp only [shownBy, List.mem_map, List.mem_filter, List.mem_zipIdx_iff_getElem?, Prod.exists,
    decide_eq_true_eq, Placed.mk.injEq]
  grind

theorem nodup_shownBy (s : Session) (o : Origin) : (s.shownBy o).Nodup := by
  have indices : (s.stepsOf o.unit).zipIdx.Nodup := by
    refine List.Nodup.of_map Prod.snd ?_
    rw [List.zipIdx_map_snd]
    exact List.nodup_range'
  refine (indices.filter _).map fun x y same => ?_
  simp only [Placed.mk.injEq, true_and] at same
  exact Prod.ext same.2 same.1

theorem steps_playOf? (hs : s.Coherent) {q : Play} (h : s.playOf? o = some q) :
    q.steps = (s.shownBy o).map s.rendered := by
  obtain ⟨g, u, hg, hu, rfl⟩ := playOf?_eq_some.1 h
  have own : u.stepsFor g.id =
      (u.steps.zipIdx.filter fun x => x.1.group = some o.group).map Prod.fst := by
    rw [WorkUnit.stepsFor, hs.group_id o.group g hg]
    conv_lhs => rw [← List.zipIdx_map_fst 0 u.steps]
    rw [List.filter_map]
    rfl
  have steps : s.stepsOf o.unit = u.steps := by
    rw [stepsOf, hu]
    rfl
  calc (Play.of g u).steps
      = (u.stepsFor g.id).map (·.render u.stepSettings) := rfl
    _ = (s.shownBy o).map s.rendered := by
      rw [own, shownBy, steps, List.map_map, List.map_map]
      exact List.map_congr_left fun x _ => by simp [rendered, hu]

theorem map_originsFor (hs : s.Coherent) (id : UnitId) :
    (s.originsFor id).map s.playOf? = (s.playsFor id).map some := by
  unfold originsFor playsFor
  cases hu : s.unit? id with
  | none => rfl
  | some u =>
    by_cases none : u.steps = []
    · simp [none]
    · simp only [none, if_false, List.map_map]
      have bound := hs.bound id u hu
      generalize u.groups = groups at bound
      induction groups with
      | nil => rfl
      | cons j groups ih =>
        obtain ⟨⟨g, hg, -⟩, others⟩ := List.forall_mem_cons.1 bound
        rw [List.map_cons, List.filterMap_cons_some (by rw [hg]; rfl), List.map_cons, ih others]
        exact congrArg (· :: _) (playOf?_eq_some.2 ⟨g, u, hg, hu, rfl⟩)

theorem emits_of_order (hs : s.Coherent) (plays : p.plays = order.flatMap s.playsFor) :
    s.Emits p (order.flatMap s.originsFor) := by
  have made : p.plays.map some = (order.flatMap s.originsFor).map s.playOf? := by
    simp only [plays, List.map_flatMap, map_originsFor hs]
  have bound : ∀ o ∈ order.flatMap s.originsFor, ∃ u, s.unit? o.unit = some u ∧
      o.group ∈ u.groups := fun o ho => by
    obtain ⟨id, -, ho⟩ := List.mem_flatMap.1 ho
    obtain ⟨rfl, u, hu, -, hj⟩ := mem_originsFor.1 ho
    exact ⟨u, hu, hj⟩
  refine ⟨made, List.map_injective_iff.2 (Option.some_injective _) ?_, bound⟩
  calc (p.plays.map Play.steps).map some
      = (p.plays.map some).map (Option.map Play.steps) := by rw [List.map_map, List.map_map]; rfl
    _ = (order.flatMap s.originsFor).map fun o => (s.playOf? o).map Play.steps := by
      rw [made, List.map_map]
      rfl
    _ = ((order.flatMap s.originsFor).map fun o => (s.shownBy o).map s.rendered).map some := by
      rw [List.map_map]
      refine List.map_congr_left fun o ho => ?_
      obtain ⟨u, hu, hj⟩ := bound o ho
      obtain ⟨g, hg, -⟩ := hs.bound o.unit u hu o.group hj
      have play : s.playOf? o = some (.of g u) := playOf?_eq_some.2 ⟨g, u, hg, hu, rfl⟩
      rw [play, Option.map_some, steps_playOf? hs play]
      rfl

def BindsOnce (s : Session) : Prop := ∀ id u, s.unit? id = some u → u.groups.Nodup

/-- The host groups hold values as they stand in documents. A list of entries in which a key stands
twice is no mapping, and agrees not even with itself. -/
def Proper (s : Session) : Prop := ∀ g ∈ s.groups, g.Proper

instance (s : Session) : Decidable s.Proper :=
  inferInstanceAs (Decidable (∀ g ∈ s.groups, g.Proper))

theorem Proper.same_key (h : s.Proper) (j : GroupId) :
    sameKey? (s.structuralKey? j) (s.structuralKey? j) = true := by
  rw [structuralKey?]
  cases hg : s.group? j with
  | none => rfl
  | some g => exact (h g (List.mem_of_getElem? hg)).same_key

theorem Proper.bindsOnce_mergeBindings (h : s.Proper) : s.mergeBindings.2.BindsOnce :=
  fun id u hu => by
    rw [unit?_mergeBindings] at hu
    obtain ⟨v, -, rfl⟩ := Option.map_eq_some_iff.1 hu
    refine (s.distinct_mergeUnit v).imp fun {i j} differ same => ?_
    subst same
    rw [h.same_key] at differ
    cases differ

theorem Proper.passed {q q' : Pass} (h : s.Proper) (passed : s.Passed q q' t) : t.Proper := by
  cases passed with
  | known | merges => exact h
  | @gathers f =>
    have become : Attributes.Proper (.ofList [("become", .bool f.becomeRoot)]) :=
      Attributes.proper_empty.insert "become" rfl
    have facts : (s.factsGroupBy f).Proper := by
      refine ⟨?_, Attributes.proper_empty⟩
      simp only [factsGroupBy]
      split
      · exact become.insert "connection" rfl
      · exact become
    intro g hg
    obtain ⟨old, hold, rfl⟩ := List.mem_map.1 hg
    have proper : old.Proper := by
      rcases List.mem_append.1 hold with hold | hold
      · exact h old hold
      · rwa [List.mem_singleton.1 hold]
    exact ⟨proper.settings.insert _ rfl, proper.vars⟩

theorem BindsOnce.passed {q q' : Pass} (h : s.BindsOnce) (proper : s.Proper)
    (passed : s.Passed q q' t) : t.BindsOnce := by
  cases passed with
  | known => exact h
  | merges => exact proper.bindsOnce_mergeBindings
  | gathers =>
    intro id u hu
    rcases unit?_gatheredBy hu with old | rfl
    · exact h id u old
    · exact List.nodup_singleton _

theorem BindsOnce.passedAll {ps qs : List Pass} (h : s.BindsOnce) (proper : s.Proper)
    (passed : s.PassedAll ps qs t) : t.BindsOnce := by
  induction passed with
  | nil => exact h
  | cons first _ ih => exact ih (h.passed proper first) (proper.passed first)

theorem Proper.bindsOnce {ps qs : List Pass} (h : s.Proper) (passed : s.PassedAll ps qs t)
    {m : Merging} (merges : .merging m ∈ ps) : t.BindsOnce := by
  induction passed with
  | nil => cases merges
  | cons first rest ih =>
    rcases List.mem_cons.1 merges with rfl | merges
    · cases first
      exact h.bindsOnce_mergeBindings.passedAll (by exact h) rest
    · exact ih (h.passed first) merges

theorem BindsOnce.nodup_origins (once : s.BindsOnce) (nodup : order.Nodup) :
    (order.flatMap s.originsFor).Nodup := by
  refine List.nodup_flatMap.2 ⟨fun id _ => ?_, nodup.imp fun {i j} differ o hi hj => ?_⟩
  · unfold originsFor
    split
    · exact .nil
    · rename_i u hu
      split
      · exact .nil
      · exact (once id u hu).map fun i j same => (Origin.mk.inj same).2
  · exact differ ((mem_originsFor.1 hi).1.symm.trans (mem_originsFor.1 hj).1)

theorem nodup_shown {origins : List Origin} (nodup : origins.Nodup) :
    (origins.flatMap s.shownBy).Nodup := by
  refine List.nodup_flatMap.2 ⟨fun o _ => s.nodup_shownBy o, nodup.imp ?_⟩
  intro o o' differ x hx hx'
  obtain ⟨unit, -, group⟩ := mem_shownBy.1 hx
  obtain ⟨unit', -, group'⟩ := mem_shownBy.1 hx'
  cases o
  cases o'
  simp_all

end Session

/-- Once the pipeline merges bindings, no step comes out twice in a plan, however often its unit was
invoked: neither from the same place in a unit nor with a register variable that another has. -/
theorem Session.Arises.emits_once {s : Session} (hs : s.Arises) (proper : s.Proper)
    (builtin : ∀ p ∈ s.passes, p.Builtin) {m : Merging} (merges : .merging m ∈ s.passes)
    {bound : Nat} {journal : List Entry} {p : Plan} {r : Run}
    (h : (Exec.plan (runWithin bound)).run ⟨s, journal⟩ = .ok p r) :
    ∃ origins, r.session.Emits p origins ∧ origins.Nodup ∧
      ((origins.flatMap r.session.shownBy).map fun x => (x.unit, x.index)).Nodup ∧
      ((origins.flatMap r.session.shownBy).map fun x => x.step.register).Nodup := by
  have path := (Exec.tame_plan (Exec.tame_runWithin bound)).path ⟨s, journal⟩
  rw [h] at path
  have arises : r.session.Arises := hs.moves path.moves
  obtain ⟨log, recorded⟩ := arises.exists_recorded
  obtain ⟨-, qs, t, passed, planned, rfl⟩ := (Exec.plan_eq_ok_of_builtin (s := s) builtin).1 h
  obtain ⟨order, nodup, plays⟩ := exists_order_of_planned planned
  have once : t.BindsOnce := Proper.bindsOnce (by exact proper) passed merges
  have origins := once.nodup_origins nodup
  have shown := nodup_shown (s := { t with passes := qs }) origins
  have placed {x : Placed} (hx : x ∈ (order.flatMap t.originsFor).flatMap
      (shownBy { t with passes := qs })) : (t.stepsOf x.unit)[x.index]? = some x.step := by
    obtain ⟨o, -, hx⟩ := List.mem_flatMap.1 hx
    obtain ⟨unit, place, -⟩ := mem_shownBy.1 hx
    rw [unit]
    exact place
  refine ⟨_, emits_of_order arises.coherent plays, origins, shown.map_on ?_, shown.map_on ?_⟩
  · intro x hx y hy same
    obtain ⟨unit, index⟩ := Prod.mk.inj same
    have step := (placed hx).symm.trans (unit ▸ index ▸ placed hy)
    cases x
    cases y
    simp_all
  · intro x hx y hy same
    obtain ⟨unit, index⟩ := recorded.numbered.eq_of_register (placed hx) (placed hy) same
    have step := (placed hx).symm.trans (unit ▸ index ▸ placed hy)
    cases x
    cases y
    simp_all

/-- A unit that is invoked twice under one host group, and again under another for the same
targets. -/
def crowdedScript : Block :=
  [.declare (.new "deploy" [.step "command" (.text "one") 2 []]),
    .declare (.new "restart" [.step "service" (.ofFields [("name", .text "web")]) 1 []]),
    .enter [
      .hosts (some "web") (.ofList [("environment", .ofFields [("a", .null), ("b", .null)])]),
      .enterHosts ⟨0⟩ [.invoke ⟨0⟩, .invoke ⟨0⟩],
      .withHosts (some "web") (.ofList [("environment", .ofFields [("b", .null), ("a", .null)])])
        [.invoke ⟨0⟩],
      .withHosts (some "db") .empty [.invoke ⟨1⟩, .invoke ⟨1⟩]]]

def crowded : Session :=
  (Session.initial ⟨false, .bundle, none, []⟩ [.merging .new, .facts .new]).after 6 crowdedScript

theorem emits_once_crowded :
    ∃ p r origins, (Exec.plan (runWithin 3)).run ⟨crowded, []⟩ = .ok p r ∧
      (crowded.unit? ⟨0⟩).map WorkUnit.groups = some [⟨0⟩, ⟨0⟩, ⟨1⟩] ∧
      p.plays.map (fun q => (q.name, q.hosts, q.steps.length)) =
        [("gather_facts_once", "all", 1), ("deploy", "web", 4), ("restart", "db", 2)] ∧
      r.session.Emits p origins ∧
      ((origins.flatMap r.session.shownBy).map fun x => x.step.register).Nodup := by
  have arises : crowded.Arises := (Session.reachable_after rfl 6 crowdedScript).arises
  obtain ⟨_, merges, rfl⟩ : ∃ p ∈ crowded.passes, p = .merging .new := by decide +kernel
  have outline : ((Exec.plan (runWithin 3)).result? ⟨crowded, []⟩).map (fun x =>
      x.1.plays.map fun q => (q.name, q.hosts, q.steps.length)) =
        some [("gather_facts_once", "all", 1), ("deploy", "web", 4), ("restart", "db", 2)] := by
    decide +kernel
  obtain ⟨⟨p, r⟩, planned, outline⟩ := Option.map_eq_some_iff.1 outline
  have planned := Exec.result?_eq_some.1 planned
  obtain ⟨origins, emits, -, -, registers⟩ := arises.emits_once (by decide +kernel)
    (by decide +kernel) merges planned
  exact ⟨p, r, origins, planned, by decide +kernel, outline, emits, registers⟩

end Playbook
