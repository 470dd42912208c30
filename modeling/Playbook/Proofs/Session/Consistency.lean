import Playbook.Proofs.Graph.Insertion
import Playbook.Proofs.Session.Dependencies
import Playbook.Proofs.Session.Grounding

/-! When the units in the host groups of a session have a dependency graph. Their constraints have
to refer to declared units, and no chain of constraints may lead from a unit back to it. An error on
the way is always one of the two, found at the constraint that was to be added next. -/

namespace Playbook

namespace Session
variable {s : Session} {g : Graph UnitId} {u : WorkUnit} {ref : UnitRef} {a b id : UnitId}

structure Refers (s : Session) (u : WorkUnit) (ref : UnitRef) : Prop where
  bound : ∃ id ∈ s.boundUnits, s.unit? id = some u
  constraint : ref ∈ u.before ∨ ref ∈ u.after

/-- Why there is no dependency graph, and how it is reported. -/
inductive Obstacle (s : Session) : Error → Prop
  | unresolved {u : WorkUnit} {name : String} : s.Refers u (.named name) →
      Obstacle s (.unresolved ((WorkUnit.qualifier? u.name).getD "(none)") u.name name)
  | undeclared {u : WorkUnit} {id : UnitId} : s.Refers u (.unit id) → s.unit? id = none →
      Obstacle s (.refused (.unknownUnit id))
  | cycle {a b : UnitId} : s.Precedes a b → Relation.ReflTransGen s.Precedes b a →
      Obstacle s (.cycle (s.unitName a) (s.unitName b))

theorem precedes_of_before (bound : id ∈ s.boundUnits) (hu : s.unit? id = some u)
    (h : .unit b ∈ u.before) : s.Precedes id b :=
  ⟨id, bound, u, hu, .inl ⟨rfl, h⟩⟩

theorem precedes_of_after (bound : id ∈ s.boundUnits) (hu : s.unit? id = some u)
    (h : .unit a ∈ u.after) : s.Precedes a id :=
  ⟨id, bound, u, hu, .inr ⟨rfl, h⟩⟩

theorem mem_boundUnits_or_precedes : (a ∈ s.boundUnits ∨ ∃ b, s.Precedes a b ∨ s.Precedes b a) ↔
    a ∈ s.boundUnits ∨ ∃ u, s.Refers u (.unit a) := by
  constructor
  · rintro (bound | ⟨b, ⟨id, bound, u, hu, demand⟩ | ⟨id, bound, u, hu, demand⟩⟩)
    · exact .inl bound
    · rcases demand with ⟨rfl, -⟩ | ⟨-, h⟩
      · exact .inl bound
      · exact .inr ⟨u, ⟨id, bound, hu⟩, .inr h⟩
    · rcases demand with ⟨-, h⟩ | ⟨rfl, -⟩
      · exact .inr ⟨u, ⟨id, bound, hu⟩, .inl h⟩
      · exact .inl bound
  · rintro (bound | ⟨u, ⟨id, bound, hu⟩, h | h⟩)
    · exact .inl bound
    · exact .inr ⟨id, .inr (precedes_of_before bound hu h)⟩
    · exact .inr ⟨id, .inl (precedes_of_after bound hu h)⟩

/-- A graph on the way: some of the constraints, so far without a cycle. -/
structure Draft (s : Session) (g : Graph UnitId) : Prop where
  acyclic : g.Acyclic
  precedes : ∀ a b, g.Edge a b → s.Precedes a b

/-- The building goes on with a draft, or it stops at an obstacle. -/
inductive Builds (s : Session) : Except Error (Graph UnitId) → Prop
  | draft {g : Graph UnitId} : s.Draft g → Builds s (.ok g)
  | obstacle {e : Error} : s.Obstacle e → Builds s (.error e)

theorem builds_ok : s.Builds (.ok g) ↔ s.Draft g :=
  ⟨fun h => by cases h; assumption, .draft⟩

theorem builds_error {e : Error} : s.Builds (.error e) ↔ s.Obstacle e :=
  ⟨fun h => by cases h; assumption, .obstacle⟩

theorem Builds.bind {x : Except Error (Graph UnitId)}
    {f : Graph UnitId → Except Error (Graph UnitId)} (h : s.Builds x)
    (next : ∀ g, s.Draft g → s.Builds (f g)) : s.Builds (x >>= f) := by
  cases h with
  | draft h => exact next _ h
  | obstacle h => exact .obstacle h

theorem builds_foldlM {β : Type} {f : Graph UnitId → β → Except Error (Graph UnitId)} {l : List β}
    (step : ∀ g, s.Draft g → ∀ x ∈ l, s.Builds (f g x)) (start : s.Draft g) :
    s.Builds (l.foldlM f g) := by
  induction l generalizing g with
  | nil => exact .draft start
  | cons x l ih =>
    rw [List.foldlM_cons]
    refine Builds.bind (step g start x (List.mem_cons_self ..)) fun g₁ draft => ?_
    exact ih (fun g draft x hx => step g draft x (List.mem_cons_of_mem _ hx)) draft

theorem Refers.builds {f : UnitId → Except Error (Graph UnitId)} (refers : s.Refers u ref)
    (next : ∀ x, ref = .unit x → s.Builds (f x)) : s.Builds (s.referent u ref >>= f) := by
  cases ref with
  | named name => exact .obstacle (.unresolved refers)
  | unit x =>
    cases known : s.unit? x with
    | none =>
      have answer : s.referent u (.unit x) = .error (.refused (.unknownUnit x)) := by
        rw [referent, getUnit, known]
        rfl
      rw [answer]
      exact .obstacle (.undeclared refers known)
    | some v =>
      have answer : s.referent u (.unit x) = .ok x := by
        rw [referent, getUnit, known]
        rfl
      rw [answer]
      exact next x rfl

namespace Draft

theorem addNode (h : s.Draft g) (id : UnitId) : s.Draft (g.addNode id) where
  acyclic := h.acyclic.of_le fun _ _ => Graph.edge_addNode.1
  precedes a b edge := h.precedes a b (Graph.edge_addNode.1 edge)

theorem connect (h : s.Draft g) (precedes : s.Precedes a b) : s.Builds (s.connect g a b) := by
  rw [Session.connect, Graph.addEdge_eq]
  split
  · rename_i acyclic
    refine .draft ⟨Graph.isAcyclic_iff.1 acyclic, fun x y edge => ?_⟩
    rcases Graph.edge_link.1 edge with old | ⟨rfl, rfl⟩
    · exact h.precedes x y old
    · exact precedes
  · rename_i cyclic
    have back := Graph.reaches_of_refused h.acyclic cyclic
    exact .obstacle (.cycle precedes (back.lift (fun x => x) h.precedes))

theorem addConstraints (h : s.Draft g) (bound : id ∈ s.boundUnits) (hu : s.unit? id = some u) :
    s.Builds (s.addConstraints g id) := by
  have refers {ref : UnitRef} (constraint : ref ∈ u.before ∨ ref ∈ u.after) : s.Refers u ref :=
    ⟨⟨id, bound, hu⟩, constraint⟩
  rw [Session.addConstraints, getUnit_eq_ok.2 hu]
  have before : s.Builds (u.before.toList.foldlM
      (fun g ref => do s.connect g id (← s.referent u ref)) (g.addNode id)) :=
    builds_foldlM (fun g draft ref mem => (refers (.inl mem)).builds fun x hx =>
      draft.connect (precedes_of_before bound hu (hx ▸ mem))) (h.addNode id)
  exact before.bind fun g draft =>
    builds_foldlM (fun g draft ref mem => (refers (.inr mem)).builds fun x hx =>
      draft.connect (precedes_of_after bound hu (hx ▸ mem))) draft

end Draft

theorem Grounded.unit_of_bound (h : s.Grounded) (bound : id ∈ s.boundUnits) :
    ∃ u, s.unit? id = some u := by
  obtain ⟨group, hg, member⟩ := List.mem_flatMap.1 bound
  exact has_unit.1 (h.groups group hg (.unit id) member)

theorem Grounded.builds (h : s.Grounded) : s.Builds s.dependencyGraph := by
  -- a unit in several groups comes up several times, with the same constraints each time
  refine builds_foldlM (fun g draft id bound => ?_) ⟨Graph.sound_empty.acyclic, fun a b edge => ?_⟩
  · obtain ⟨u, hu⟩ := h.unit_of_bound bound
    exact draft.addConstraints bound hu
  · exact absurd edge.source_mem List.not_mem_nil

theorem exists_addConstraints {ids : List UnitId} {g' : Graph UnitId}
    (h : ids.foldlM s.addConstraints g = .ok g') (mem : id ∈ ids) :
    ∃ g₁ g₂, s.addConstraints g₁ id = .ok g₂ := by
  induction ids generalizing g with
  | nil => exact absurd mem List.not_mem_nil
  | cons x ids ih =>
    rw [List.foldlM_cons] at h
    obtain ⟨g₁, first, rest⟩ := bind_eq_ok.1 h
    rcases List.mem_cons.1 mem with rfl | mem
    · exact ⟨g, g₁, first⟩
    · exact ih rest mem

theorem Refers.resolved (refers : s.Refers u ref) (h : s.dependencyGraph = .ok g) :
    ∃ x v, ref = .unit x ∧ s.unit? x = some v := by
  obtain ⟨⟨id, bound, hu⟩, constraint⟩ := refers
  obtain ⟨g₁, g₂, added⟩ := exists_addConstraints h bound
  obtain ⟨v, before, after, hv, hb, ha, declared, -⟩ := addConstraints_eq_ok added
  obtain rfl : u = v := Option.some.inj (hu.symm.trans hv)
  simp only [OrderedSet.mem_def, hb, ha, List.mem_map] at constraint
  obtain ⟨x, hx, rfl⟩ : ∃ x, x ∈ before ++ after ∧ .unit x = ref := by
    rcases constraint with ⟨x, hx, e⟩ | ⟨x, hx, e⟩
    · exact ⟨x, List.mem_append_left _ hx, e⟩
    · exact ⟨x, List.mem_append_right _ hx, e⟩
  obtain ⟨v, known⟩ := declared x hx
  exact ⟨x, v, rfl, known⟩

theorem Obstacle.not_consistent {e : Error} (h : s.Obstacle e)
    (resolved : ∀ u ref, s.Refers u ref → ∃ x v, ref = .unit x ∧ s.unit? x = some v)
    (acyclic : ∀ a, ¬ Relation.TransGen s.Precedes a a) : False := by
  cases h with
  | unresolved refers =>
    obtain ⟨x, v, e, -⟩ := resolved _ _ refers
    cases e
  | undeclared refers unknown =>
    obtain ⟨x, v, e, known⟩ := resolved _ _ refers
    obtain rfl := UnitRef.unit.inj e
    exact absurd (unknown.symm.trans known) (by simp)
  | cycle edge back => exact acyclic _ (.head' edge back)

/-- There is a dependency graph exactly if all constraints of bound units refer to declared units
and together close no cycle. Its edges are then these constraints, and its nodes the bound units with
those they refer to; otherwise one of the constraints is reported. Either way the session stays as
it was. -/
theorem Arises.dependencyGraph_iff (h : s.Arises) :
    ((∃ g, s.dependencyGraph = .ok g) ↔
      (∀ u ref, s.Refers u ref → ∃ x v, ref = .unit x ∧ s.unit? x = some v) ∧
      ∀ a, ¬ Relation.TransGen s.Precedes a a) ∧
    (∀ g, s.dependencyGraph = .ok g →
      (∀ a b, (a, b) ∈ g.edges ↔ s.Precedes a b) ∧
      ∀ a, a ∈ g.nodes ↔ a ∈ s.boundUnits ∨ ∃ u, s.Refers u (.unit a)) ∧
    (∀ e, s.dependencyGraph = .error e → s.Obstacle e) ∧
    ∀ call journal, (Exec.step call (.ask .dependencyGraph)).run ⟨s, journal⟩ =
      match s.dependencyGraph with
      | .ok g => .ok (.graph (.of s g)) ⟨s, journal⟩
      | .error e => .error (.failed e) ⟨s, journal⟩ := by
  have builds := h.grounded.builds
  refine ⟨⟨?_, ?_⟩, fun g answer => ⟨fun a b => ?_, fun a => ?_⟩, fun e answer => ?_,
    fun call journal => ?_⟩
  · rintro ⟨g, answer⟩
    refine ⟨fun u ref refers => refers.resolved answer, fun a cycle => ?_⟩
    have edges := (dependencyGraph_eq_ok answer).1
    exact (builds_ok.1 (answer ▸ builds)).acyclic a
      (cycle.lift (fun x => x) fun a b => (edges a b).2)
  · rintro ⟨resolved, acyclic⟩
    cases answer : s.dependencyGraph with
    | ok g => exact ⟨g, rfl⟩
    | error e =>
      exact ((builds_error.1 (answer ▸ builds)).not_consistent resolved acyclic).elim
  · exact Graph.mem_edges.trans ((dependencyGraph_eq_ok answer).1 a b)
  · exact ((dependencyGraph_eq_ok answer).2 a).trans mem_boundUnits_or_precedes
  · exact builds_error.1 (answer ▸ builds)
  · show (Exec.ofExcept (s.answer .dependencyGraph)).run ⟨s, journal⟩ = _
    cases answer : s.dependencyGraph with
    | ok g => rw [Session.answer, answer]; rfl
    | error e => rw [Session.answer, answer]; rfl

end Session

/-- A unit in two host groups stands between one that was invoked and one that was not. The latter
has a constraint too, which would close a cycle if the unit were invoked. -/
def betweenScript : Block :=
  [.declare { Declaration.new "store" [] with before := [.unit ⟨1⟩], after := [.unit ⟨2⟩] },
    .declare { Declaration.new "check" [] with before := [.unit ⟨2⟩] },
    .declare { Declaration.new "prepare" [] with before := [.unit ⟨0⟩] },
    .enter [
      .withHosts (some "web") .empty [.invoke ⟨0⟩],
      .withHosts (some "db") .empty [.invoke ⟨2⟩, .invoke ⟨0⟩]]]

def between : Session := (Session.initial ⟨false, .bundle, none, []⟩ []).after 5 betweenScript

theorem dependencyGraph_iff_between : ∃ g, between.dependencyGraph = .ok g ∧
    g.nodes = [⟨0⟩, ⟨1⟩, ⟨2⟩] ∧
    (∀ a b, between.Precedes a b ↔ (a, b) ∈ [((⟨0⟩ : UnitId), (⟨1⟩ : UnitId)), (⟨2⟩, ⟨0⟩)]) ∧
    (∀ u name, ¬ between.Refers u (.named name)) ∧
    ∀ a, ¬ Relation.TransGen between.Precedes a a := by
  have arises : between.Arises := (Session.reachable_after rfl 5 betweenScript).arises
  obtain ⟨consistent, graph, -⟩ := arises.dependencyGraph_iff
  have known : between.dependencyGraph.toOption.map (fun g => (g.nodes, g.edges)) =
      some ([⟨0⟩, ⟨1⟩, ⟨2⟩], [(⟨0⟩, ⟨1⟩), (⟨2⟩, ⟨0⟩)]) := by decide +kernel
  cases answer : between.dependencyGraph with
  | error e => rw [answer] at known; cases known
  | ok g =>
    rw [answer] at known
    obtain ⟨nodes, edges⟩ := Prod.mk.inj (Option.some.inj known)
    obtain ⟨resolved, acyclic⟩ := consistent.1 ⟨g, answer⟩
    refine ⟨g, rfl, nodes, fun a b => ?_, fun u name refers => ?_, acyclic⟩
    · rw [← (graph g answer).1, edges]
    · obtain ⟨x, v, e, -⟩ := resolved u _ refers
      cases e

end Playbook
