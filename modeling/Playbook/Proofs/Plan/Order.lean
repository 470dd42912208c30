import Playbook.Proofs.Graph.Draining
import Playbook.Proofs.Session.Coherence
import Playbook.Proofs.Session.Dependencies

/-! The plays of a plan, and the order of the units that they come from: no unit with steps is
missing, and every chain of constraints is kept. -/

namespace Playbook

theorem mapM_exists_ok {ε α β : Type} {f : α → Except ε β} {l : List α} :
    (∃ bs, l.mapM f = .ok bs) ↔ ∀ a ∈ l, ∃ b, f a = .ok b := by
  induction l with
  | nil => simp [pure, Except.pure]
  | cons a l ih =>
    rw [List.forall_mem_cons, ← ih, List.mapM_cons]
    cases f a with
    | error e => simp [bind, Except.bind]
    | ok b => cases l.mapM f <;> simp [bind, Except.bind, pure, Except.pure]

theorem mapM_eq_ok {ε α β : Type} {f : α → Except ε β} {g : α → Option β}
    (hf : ∀ a b, f a = .ok b → g a = some b) {l : List α} {bs : List β} (h : l.mapM f = .ok bs) :
    bs = l.filterMap g := by
  induction l generalizing bs with
  | nil => exact (Except.ok.inj h).symm
  | cons a l ih =>
    rw [List.mapM_cons] at h
    obtain ⟨b, hb, h⟩ := bind_eq_ok.1 h
    obtain ⟨bs', hbs, h⟩ := bind_eq_ok.1 h
    obtain rfl := Except.ok.inj h
    rw [List.filterMap_cons_some (hf a b hb), ih hbs]

namespace Session
variable {s : Session} {id : UnitId} {g : Graph UnitId} {p : Plan}

/-- What a unit contributes to a plan: one play for each of its bindings, if it recorded steps. -/
def playsFor (s : Session) (id : UnitId) : List Play :=
  match s.unit? id with
  | none => []
  | some u =>
    if u.steps = [] then [] else u.groups.filterMap fun j => (s.group? j).map (Play.of · u)

theorem playsFor_of_steps {u : WorkUnit} (hu : s.unit? id = some u) (hs : u.steps ≠ []) :
    s.playsFor id = u.groups.filterMap fun j => (s.group? j).map (Play.of · u) := by
  simp only [playsFor, hu]
  exact if_neg hs

/-- The plays of a plan in terms of an order of units. -/
structure Follows (s : Session) (p : Plan) (order : List UnitId) : Prop where
  nodup : order.Nodup
  declared : ∀ id ∈ order, ∃ u, s.unit? id = some u ∧ ∀ j ∈ u.groups, ∃ g, s.group? j = some g
  plays : p.plays = order.flatMap s.playsFor
  complete : ∀ id u, s.unit? id = some u → u.steps ≠ [] → id ∈ order ∧ s.playsFor id ≠ []
  ordered : ∀ a b, Relation.TransGen s.Precedes a b → [a, b].Sublist order

theorem playsOf_eq_ok {plays : List Play} (h : s.playsOf id = .ok plays) :
    plays = s.playsFor id ∧ ∃ u, s.unit? id = some u := by
  obtain ⟨u, hu, h⟩ := bind_eq_ok.1 h
  rw [getUnit_eq_ok] at hu
  refine ⟨?_, u, hu⟩
  have playOf (j : GroupId) (q : Play) (hq : (do return Play.of (← s.getGroup j) u) = .ok q) :
      (s.group? j).map (Play.of · u) = some q := by
    obtain ⟨g, hg, hq⟩ := bind_eq_ok.1 hq
    rw [getGroup_eq_ok.1 hg, ← Except.ok.inj hq]
    rfl
  by_cases hs : u.steps = []
  · simp only [hs, List.isEmpty_nil, if_true] at h
    simp [playsFor, hu, hs, ← Except.ok.inj h]
  · simp only [List.isEmpty_iff, hs, if_false] at h
    rw [playsFor_of_steps hu hs]
    exact mapM_eq_ok playOf h

theorem planOf_eq_ok : s.planOf g = .ok p ↔
    ∃ order, g.sort = .ok order ∧ (∀ id ∈ order, ∃ plays, s.playsOf id = .ok plays) ∧
      p.plays = order.flatMap s.playsFor := by
  have contributes (order : List UnitId) (plays : List (List Play))
      (h : order.mapM s.playsOf = .ok plays) : plays.flatten = order.flatMap s.playsFor := by
    rw [mapM_eq_ok (g := some ∘ s.playsFor)
      (fun id ps h => congrArg some (playsOf_eq_ok h).1.symm) h, List.filterMap_eq_map,
      List.flatMap_def]
  constructor
  · intro h
    obtain ⟨order, sorted, h⟩ := bind_eq_ok.1 (planOf_eq s g ▸ h)
    obtain ⟨plays, hp, h⟩ := bind_eq_ok.1 h
    obtain rfl := Except.ok.inj h
    exact ⟨order, Graph.inOrder_eq_ok_iff_sort.1 sorted, mapM_exists_ok.1 ⟨plays, hp⟩,
      contributes order plays hp⟩
  · rintro ⟨order, sorted, all, e⟩
    obtain ⟨plays, hp⟩ := mapM_exists_ok.2 all
    rw [planOf_eq]
    refine bind_eq_ok.2 ⟨order, Graph.inOrder_eq_ok_iff_sort.2 sorted,
      bind_eq_ok.2 ⟨plays, hp, ?_⟩⟩
    rw [contributes order plays hp, ← e]
    rfl

theorem mem_playsFor {play : Play} (h : play ∈ s.playsFor id) : ∃ u j group,
    s.unit? id = some u ∧ u.steps ≠ [] ∧ j ∈ u.groups ∧ s.group? j = some group ∧
      play = Play.of group u := by
  cases hu : s.unit? id with
  | none => simp [playsFor, hu] at h
  | some u =>
    simp only [playsFor, hu] at h
    split at h
    · cases h
    · rename_i recorded
      obtain ⟨j, hj, made⟩ := List.mem_filterMap.1 h
      obtain ⟨group, hg, rfl⟩ := Option.map_eq_some_iff.1 made
      exact ⟨u, j, group, rfl, recorded, hj, hg, rfl⟩

theorem exists_of_planOf (h : s.planOf g = .ok p) : ∀ play ∈ p.plays, ∃ id u j group,
    s.unit? id = some u ∧ u.steps ≠ [] ∧ j ∈ u.groups ∧ s.group? j = some group ∧
      play = Play.of group u := by
  obtain ⟨order, -, -, plays⟩ := planOf_eq_ok.1 h
  rw [plays]
  intro play hplay
  obtain ⟨id, -, hplay⟩ := List.mem_flatMap.1 hplay
  exact ⟨id, mem_playsFor hplay⟩

theorem Coherent.mem_boundUnits (h : s.Coherent) {u : WorkUnit} (hu : s.unit? id = some u)
    (hs : u.groups ≠ []) : id ∈ s.boundUnits := by
  obtain ⟨j, hj⟩ := List.exists_mem_of_ne_nil _ hs
  obtain ⟨g, hg, hm⟩ := h.bound id u hu j hj
  exact List.mem_flatMap.2 ⟨g, List.mem_of_getElem? hg, hm⟩

theorem Coherent.follows (h : s.Coherent) {g₀ : Graph UnitId} {es : List (UnitId × UnitId)}
    (graph : s.dependencyGraph = .ok g₀) (plan : s.planOf (g₀.linkAll es) = .ok p) :
    ∃ order, s.Follows p order := by
  obtain ⟨order, sorted, all, plays⟩ := planOf_eq_ok.1 plan
  have schedule := Graph.sort_eq_ok sorted
  obtain ⟨edges, nodes⟩ := dependencyGraph_eq_ok graph
  have mem (id : UnitId) (hid : id ∈ g₀.nodes) : id ∈ order :=
    (schedule.mem_iff id).2 (Graph.mem_nodes_linkAll.2 (.inl hid))
  have kept (a b : UnitId) (hab : s.Precedes a b) : (g₀.linkAll es).Edge a b :=
    Graph.edge_linkAll.2 (.inl ((edges a b).2 hab))
  refine ⟨order, schedule.nodup, fun id hid => ?_, plays, fun id u hu hs => ?_, fun a b hab => ?_⟩
  · obtain ⟨_, hid⟩ := all id hid
    obtain ⟨-, u, hu⟩ := playsOf_eq_ok hid
    refine ⟨u, hu, fun j hj => ?_⟩
    obtain ⟨group, hg, -⟩ := h.bound id u hu j hj
    exact ⟨group, hg⟩
  · have hb := h.recorded id u hu hs
    refine ⟨mem id ((nodes id).2 (.inl (h.mem_boundUnits hu hb))), ?_⟩
    rw [playsFor_of_steps hu hs]
    obtain ⟨j, hj⟩ := List.exists_mem_of_ne_nil _ hb
    obtain ⟨group, hg, -⟩ := h.bound id u hu j hj
    refine List.ne_nil_of_mem (a := Play.of group u) (List.mem_filterMap.2 ⟨j, hj, by rw [hg]; rfl⟩)
  · have hb : b ∈ order := by
      obtain ⟨c, -, hcb⟩ := Relation.TransGen.tail'_iff.1 hab
      exact mem b ((nodes b).2 (.inr ⟨c, .inr hcb⟩))
    exact schedule.legal.sublist hb (Relation.TransGen.mono kept _ _ hab)

end Session

namespace Exec
open Session
variable {call : Block → Exec Unit}

theorem ends_plan (r : Run) :
    (plan call).Ends r (fun p a => ∃ g₀ g, a.session.dependencyGraph = .ok g₀ ∧
      (∃ es, g = g₀.linkAll es) ∧ a.session.planOf g = .ok p) (fun _ _ => True) fun _ => True := by
  simp only [plan, buildGraph, ends_bind, ends_session]
  split
  · trivial
  · simp only [ends_bind, ends_update, ends_settle]
    refine Ends.of_forall (fun ran r => ?_) (fun _ _ => trivial) fun _ => trivial
    simp only [ends_ofExcept, ends_session, ends_query, Except.ok.injEq, reduceCtorEq,
      false_implies, implies_true, and_true, forall_eq']
    intro _ _ g₀ graph g refined p plan
    exact ⟨g₀, g, graph, foldlM_eq_linkAll (fun _ _ _ => refine_eq_ok) refined, plan⟩

theorem exists_of_mem_plays {r r' : Run} {p : Plan} (h : (plan call).run r = .ok p r') :
    ∀ play ∈ p.plays, ∃ id u j g, r'.session.unit? id = some u ∧ u.steps ≠ [] ∧ j ∈ u.groups ∧
      r'.session.group? j = some g ∧ play = Play.of g u := by
  obtain ⟨_, _, -, -, planned⟩ := (ends_plan r).of_ok h
  exact exists_of_planOf planned

end Exec

/-- However a session came about: where it has a plan, the plan leaves out no unit with steps and
keeps every chain of constraints. -/
theorem Session.Reachable.plan_follows {s : Session} (hs : s.Reachable) {bound : Nat}
    {journal : List Entry} {p : Plan} {r : Run}
    (h : (Exec.plan (runWithin bound)).run ⟨s, journal⟩ = .ok p r) :
    ∃ order, r.session.Follows p order := by
  have path := (Exec.tame_plan (Exec.tame_runWithin bound)).path ⟨s, journal⟩
  rw [h] at path
  have coherent : r.session.Coherent := hs.coherent.moves path.moves
  obtain ⟨g₀, g, graph, ⟨es, rfl⟩, plan⟩ := (Exec.ends_plan _).of_ok h
  exact coherent.follows graph plan

def Entry.plan? (e : Entry) : Option Plan :=
  match e.statement, e.outcome with
  | .plan .plays, .ok (.plan p) => some p
  | _, _ => none

theorem Entry.plan?_eq_some {e : Entry} {p : Plan} :
    e.plan? = some p ↔ e.statement = .plan .plays ∧ e.outcome = .ok (.plan p) := by
  obtain ⟨statement, s, outcome⟩ := e
  unfold plan?
  constructor
  · intro h
    split at h
    · exact ⟨‹_›, by rw [‹outcome = _›, Option.some.inj h]⟩
    · cases h
  · rintro ⟨rfl, rfl⟩
    rfl

/-- A unit that waits for another, both under one host group. -/
def waitingScript : Block :=
  [.declare { Declaration.new "app" [.step "command" (.text "serve") 1 []] with
      after := [.unit ⟨1⟩] },
    .declare (.new "db" [.step "command" (.text "migrate") 1 []]),
    .enter [.withHosts (some "web") .empty [.invoke ⟨0⟩, .invoke ⟨1⟩]]]

theorem plan_follows_waitingScript :
    ∃ p r, (Exec.plan (runWithin 3)).run ⟨(Session.initial ⟨false, .bundle, none, []⟩
        [.facts .new, .merging .new]).after 4 waitingScript, []⟩ = .ok p r ∧
      p.plays.map Play.name = ["gather_facts_once", "db", "app"] ∧
      ∃ order, r.session.Follows p order := by
  have names : (match (Exec.plan (runWithin 3)).run ⟨(Session.initial ⟨false, .bundle, none, []⟩
      [.facts .new, .merging .new]).after 4 waitingScript, []⟩ with
      | .ok p _ => p.plays.map Play.name
      | .error .. => []) = ["gather_facts_once", "db", "app"] := by decide +kernel
  split at names
  · rename_i p r h
    exact ⟨p, r, h, names, Session.Reachable.plan_follows (Session.reachable_after rfl 4 _) h⟩
  · cases names

end Playbook
