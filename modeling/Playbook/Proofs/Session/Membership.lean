import Playbook.Proofs.Plan.Passes
import Playbook.Proofs.Session.Telling
import Playbook.Proofs.Session.Writing
import Playbook.Proofs.Value.Agreement

/-! Four places tell that a unit is bound to a host group: the bindings of the unit, the members of
the group, the count of invocations and the groups of the recorded steps. Wherever a run stands they
agree, up to the bindings that a merge has taken away. -/

namespace Playbook
open Session

namespace Session

/-- Bindings, counts, steps and members stay as they are. What is new has none of them. -/
structure Spares (s t : Session) : Prop where
  unit : ∀ id v, t.unit? id = some v →
    (∃ u, s.unit? id = some u ∧ v.groups = u.groups ∧ v.invocations = u.invocations ∧
      v.steps = u.steps) ∨
    s.unit? id = none ∧ v.groups = [] ∧ v.invocations = 0 ∧ v.steps = []
  kept : ∀ id u, s.unit? id = some u → ∃ v, t.unit? id = some v ∧ v.groups = u.groups
  group : ∀ j g, t.group? j = some g →
    (∃ g₀, s.group? j = some g₀ ∧ g₀.members = g.members) ∨ g.members = .empty
  groupKept : ∀ j g, s.group? j = some g → ∃ g', t.group? j = some g'

variable {s t : Session}

theorem Spares.refl (s : Session) : s.Spares s where
  unit _ v hv := .inl ⟨v, hv, rfl, rfl, rfl⟩
  kept _ u hu := ⟨u, hu, rfl⟩
  group _ g hg := .inl ⟨g, hg, rfl⟩
  groupKept _ g hg := ⟨g, hg⟩

theorem Spares.of_quiet (h : s.Quiet t) : s.Spares t := by
  obtain ⟨n, members⟩ := h.members
  have unit? (id : UnitId) : t.unit? id = s.unit? id := by rw [Session.unit?, h.units]; rfl
  have group? (j : GroupId) : (t.group? j).map HostGroup.members =
      (s.groups.map HostGroup.members ++ List.replicate n .empty)[j.index]? := by
    rw [← members, List.getElem?_map]
    rfl
  refine ⟨fun id v hv => .inl ⟨v, unit? id ▸ hv, rfl, rfl, rfl⟩,
    fun id u hu => ⟨u, (unit? id).trans hu, rfl⟩, fun j g hg => ?_, fun j g hg => ?_⟩
  · have here := group? j
    rw [hg, Option.map_some, List.getElem?_append] at here
    split at here
    · rw [List.getElem?_map, eq_comm, Option.map_eq_some_iff] at here
      exact .inl here
    · exact .inr (List.eq_of_mem_replicate (List.mem_of_getElem? here.symm))
  · have there : (s.groups.map HostGroup.members)[j.index]? = some g.members := by
      rw [List.getElem?_map]
      exact congrArg (Option.map HostGroup.members) hg
    have here := group? j
    rw [Run.getElem?_append_of_some there] at here
    obtain ⟨g', hg', -⟩ := Option.map_eq_some_iff.1 here
    exact ⟨g', hg'⟩

theorem Spares.modifyUnit (id : UnitId) {f : WorkUnit → WorkUnit}
    (groups : ∀ u, (f u).groups = u.groups)
    (invocations : ∀ u, (f u).invocations = u.invocations) (steps : ∀ u, (f u).steps = u.steps) :
    s.Spares (s.modifyUnit id f) := by
  have kept (j : UnitId) (u : WorkUnit) (hu : s.unit? j = some u) :
      (s.modifyUnit id f).unit? j = some (if id = j then f u else u) := by
    rw [unit?_modifyUnit, hu, Option.map_some]
  refine ⟨fun j v hv => .inl ?_, fun j u hu => ⟨_, kept j u hu, ?_⟩,
    (Spares.refl s).group, (Spares.refl s).groupKept⟩
  · rw [unit?_modifyUnit] at hv
    obtain ⟨u, hu, rfl⟩ := Option.map_eq_some_iff.1 hv
    refine ⟨u, hu, ?_⟩
    split
    · exact ⟨groups u, invocations u, steps u⟩
    · exact ⟨rfl, rfl, rfl⟩
  · split
    · exact groups u
    · rfl

theorem Spares.append {new : List WorkUnit} (units : t.units = s.units ++ new)
    (groups : t.groups = s.groups)
    (fresh : ∀ u ∈ new, u.groups = [] ∧ u.invocations = 0 ∧ u.steps = []) : s.Spares t := by
  have group? (j : GroupId) : t.group? j = s.group? j := by rw [Session.group?, groups]; rfl
  refine ⟨fun id v hv => ?_, fun id u hu => ⟨u, ?_, rfl⟩,
    fun j g hg => .inl ⟨g, group? j ▸ hg, rfl⟩, fun j g hg => ⟨g, (group? j).trans hg⟩⟩
  · rw [Session.unit?, units, List.getElem?_append] at hv
    split at hv
    · exact .inl ⟨v, hv, rfl, rfl, rfl⟩
    · rename_i beyond
      exact .inr ⟨List.getElem?_eq_none (Nat.le_of_not_lt beyond),
        fresh v (List.mem_of_getElem? hv)⟩
  · rw [Session.unit?, units]
    exact Run.getElem?_append_of_some hu

end Session

namespace Run

/-- What a run keeps of bindings, besides their coherence. -/
structure Enrolled (r : Run) : Prop where
  member : ∀ j g, r.session.group? j = some g → ∀ id ∈ g.members,
    ∃ u, r.session.unit? id = some u ∧ u.groups ≠ []
  count : ∀ id u, r.session.unit? id = some u →
    u.groups.length ≤ u.invocations ∧ (u.groups = [] → u.invocations = 0)
  exact : (∀ e ∈ r.journal, e.statement ≠ .merge) → ∀ id u, r.session.unit? id = some u →
    u.groups.length = u.invocations ∧
      ∀ j g, r.session.group? j = some g → id ∈ g.members → j ∈ u.groups
  grouped : ∀ id u, r.session.unit? id = some u → ∀ step ∈ u.steps,
    ∃ j g, step.group = some j ∧ r.session.group? j = some g

variable {r b : Run}

theorem Enrolled.spares (h : r.Enrolled) (spares : r.session.Spares b.session)
    (journal : ∀ e ∈ r.journal, e ∈ b.journal) : b.Enrolled where
  member j g hg id hid := by
    rcases spares.group j g hg with ⟨g₀, hg₀, same⟩ | none
    · obtain ⟨u, hu, bound⟩ := h.member j g₀ hg₀ id (same ▸ hid)
      obtain ⟨v, hv, groups⟩ := spares.kept id u hu
      exact ⟨v, hv, groups ▸ bound⟩
    · rw [none] at hid
      exact absurd hid List.not_mem_nil
  count id v hv := by
    rcases spares.unit id v hv with ⟨u, hu, groups, invocations, -⟩ | ⟨-, groups, invocations, -⟩
    · rw [groups, invocations]
      exact h.count id u hu
    · rw [groups, invocations]
      exact ⟨Nat.le_refl _, fun _ => rfl⟩
  exact unmerged id v hv := by
    have unmerged (e : Entry) (he : e ∈ r.journal) := unmerged e (journal e he)
    have member (j : GroupId) (g : HostGroup) (hg : b.session.group? j = some g)
        (hid : id ∈ g.members) : ∃ g₀, r.session.group? j = some g₀ ∧ id ∈ g₀.members := by
      rcases spares.group j g hg with ⟨g₀, hg₀, same⟩ | none
      · exact ⟨g₀, hg₀, same ▸ hid⟩
      · rw [none] at hid
        exact absurd hid List.not_mem_nil
    rcases spares.unit id v hv with
      ⟨u, hu, groups, invocations, -⟩ | ⟨fresh, groups, invocations, -⟩
    · rw [groups, invocations]
      obtain ⟨length, all⟩ := h.exact unmerged id u hu
      refine ⟨length, fun j g hg hid => ?_⟩
      obtain ⟨g₀, hg₀, hid⟩ := member j g hg hid
      exact all j g₀ hg₀ hid
    · rw [groups, invocations]
      refine ⟨rfl, fun j g hg hid => ?_⟩
      obtain ⟨g₀, hg₀, hid⟩ := member j g hg hid
      obtain ⟨u, hu, -⟩ := h.member j g₀ hg₀ id hid
      exact absurd (hu.symm.trans fresh) nofun
  grouped id v hv step hstep := by
    rcases spares.unit id v hv with ⟨u, hu, -, -, steps⟩ | ⟨-, -, -, steps⟩
    · obtain ⟨j, g, hj, hg⟩ := h.grouped id u hu step (steps ▸ hstep)
      obtain ⟨g', hg'⟩ := spares.groupKept j g hg
      exact ⟨j, g', hj, hg'⟩
    · rw [steps] at hstep
      exact absurd hstep List.not_mem_nil

abbrev bindTo (s : Session) (id : UnitId) (group : GroupId) : Session :=
  (s.modifyUnit id (·.bind group)).modifyGroup group (·.addMember id)

section bind
variable {s : Session} {id i : UnitId} {group j : GroupId}

theorem unit?_bindTo : (bindTo s id group).unit? i =
    (s.unit? i).map fun u => if id = i then u.bind group else u := unit?_modifyUnit ..

theorem group?_bindTo : (bindTo s id group).group? j =
    (s.group? j).map fun g => if group = j then g.addMember id else g := group?_modifyGroup ..

theorem mem_of_bindTo {g : HostGroup} (hg : (bindTo s id group).group? j = some g)
    (hi : i ∈ g.members) :
    (i = id ∧ j = group) ∨ ∃ g₀, s.group? j = some g₀ ∧ i ∈ g₀.members := by
  rw [group?_bindTo] at hg
  obtain ⟨g₀, hg₀, rfl⟩ := Option.map_eq_some_iff.1 hg
  split at hi
  · rename_i same
    rcases OrderedSet.mem_insert.1 hi with hi | rfl
    · exact .inr ⟨g₀, hg₀, hi⟩
    · exact .inl ⟨rfl, same.symm⟩
  · exact .inr ⟨g₀, hg₀, hi⟩

theorem groups_bindTo {u : WorkUnit} (hu : s.unit? i = some u) (hb : i = id ∨ u.groups ≠ []) :
    ∃ v, (bindTo s id group).unit? i = some v ∧ v.groups ≠ [] := by
  refine ⟨if id = i then u.bind group else u, by rw [unit?_bindTo, hu]; rfl, ?_⟩
  split
  · simp [WorkUnit.bind]
  · rename_i other
    exact hb.resolve_left fun e => other e.symm

end bind

theorem Enrolled.bind (h : r.Enrolled) {id : UnitId} {u : WorkUnit} {group : GroupId}
    (declared : r.session.unit? id = some u) : Enrolled (r.on (bindTo r.session id group)) := by
  have changed (i : UnitId) (v : WorkUnit) (hv : (bindTo r.session id group).unit? i = some v) :
      ∃ u, r.session.unit? i = some u ∧ v = if id = i then u.bind group else u := by
    rw [unit?_bindTo] at hv
    obtain ⟨u, hu, rfl⟩ := Option.map_eq_some_iff.1 hv
    exact ⟨u, hu, rfl⟩
  refine ⟨fun j g hg i hi => ?_, fun i v hv => ?_, fun unmerged i v hv => ?_,
    fun i v hv step hstep => ?_⟩
  · rcases mem_of_bindTo hg hi with ⟨rfl, -⟩ | ⟨g₀, hg₀, hi⟩
    · exact groups_bindTo declared (.inl rfl)
    · obtain ⟨w, hw, hb⟩ := h.member j g₀ hg₀ i hi
      exact groups_bindTo hw (.inr hb)
  · obtain ⟨u, hu, rfl⟩ := changed i v hv
    obtain ⟨length, none⟩ := h.count i u hu
    split
    · simpa [WorkUnit.bind] using length
    · exact ⟨length, none⟩
  · obtain ⟨u, hu, rfl⟩ := changed i v hv
    obtain ⟨length, all⟩ := h.exact unmerged i u hu
    split
    · refine ⟨by simpa [WorkUnit.bind] using length, fun j g hg hi => ?_⟩
      rcases mem_of_bindTo hg hi with ⟨-, rfl⟩ | ⟨g₀, hg₀, hi⟩
      · simp [WorkUnit.bind]
      · exact List.mem_append_left _ (all j g₀ hg₀ hi)
    · rename_i other
      refine ⟨length, fun j g hg hi => ?_⟩
      rcases mem_of_bindTo hg hi with ⟨rfl, -⟩ | ⟨g₀, hg₀, hi⟩
      · exact absurd rfl other
      · exact all j g₀ hg₀ hi
  · obtain ⟨u, hu, rfl⟩ := changed i v hv
    have old : step ∈ u.steps := by
      split at hstep
      · exact hstep
      · exact hstep
    obtain ⟨j, g, hj, hg⟩ := h.grouped i u hu step old
    refine ⟨j, if group = j then g.addMember id else g, hj, ?_⟩
    rw [Run.on_session, group?_bindTo, hg]
    rfl

theorem Enrolled.record (h : r.Enrolled) (coherent : r.session.Coherent) {action : String}
    {args : Value} {edits : List StepEdit} {step : Step} {t : Session}
    (grouped : r.session.currentGroup? ≠ none)
    (recorded : r.session.recordStep action args edits = .ok (step, t)) : Enrolled (r.on t) := by
  obtain ⟨id, u, active, hu, rfl⟩ := recordStep_eq_ok recorded
  have own : step.group = r.session.currentGroup? := by
    rw [recordStep_of_active active hu] at recorded
    obtain ⟨rfl, -⟩ := Prod.mk.inj (Except.ok.inj recorded)
    exact Step.group_edits ..
  have unit? (i : UnitId) : (r.session.modifyUnit id (·.record step)).unit? i =
      (r.session.unit? i).map fun u => if id = i then u.record step else u := unit?_modifyUnit ..
  have changed (i : UnitId) (v : WorkUnit)
      (hv : (r.session.modifyUnit id (·.record step)).unit? i = some v) :
      ∃ u, r.session.unit? i = some u ∧ v.groups = u.groups ∧ v.invocations = u.invocations ∧
        ∀ x ∈ v.steps, x ∈ u.steps ∨ x = step := by
    rw [unit?] at hv
    obtain ⟨u, hu, rfl⟩ := Option.map_eq_some_iff.1 hv
    refine ⟨u, hu, ?_⟩
    split
    · exact ⟨rfl, rfl, fun x hx => (List.mem_append.1 hx).imp_right List.mem_singleton.1⟩
    · exact ⟨rfl, rfl, fun x hx => .inl hx⟩
  refine ⟨fun j g hg i hi => ?_, fun i v hv => ?_, fun unmerged i v hv => ?_,
    fun i v hv x hx => ?_⟩
  · obtain ⟨w, hw, bound⟩ := h.member j g hg i hi
    refine ⟨_, (unit? i).trans (congrArg (Option.map _) hw), ?_⟩
    split
    · exact bound
    · exact bound
  · obtain ⟨w, hw, groups, invocations, -⟩ := changed i v hv
    rw [groups, invocations]
    exact h.count i w hw
  · obtain ⟨w, hw, groups, invocations, -⟩ := changed i v hv
    rw [groups, invocations]
    exact h.exact unmerged i w hw
  · obtain ⟨w, hw, -, -, steps⟩ := changed i v hv
    rcases steps x hx with hx | rfl
    · exact h.grouped i w hw x hx
    · obtain ⟨j, hj⟩ := Option.ne_none_iff_exists'.1 grouped
      obtain ⟨g, hg⟩ := coherent.entered j (List.mem_of_mem_head? hj)
      exact ⟨j, g, own.trans hj, hg⟩

theorem Enrolled.merge (h : r.Enrolled) (answer : Answer) :
    Enrolled ((r.on r.session.mergeBindings.2).log .merge (.ok answer)) := by
  have changed (i : UnitId) (v : WorkUnit) (hv : r.session.mergeBindings.2.unit? i = some v) :
      ∃ u, r.session.unit? i = some u ∧ v = r.session.mergeUnit u := by
    rw [unit?_mergeBindings] at hv
    obtain ⟨u, hu, rfl⟩ := Option.map_eq_some_iff.1 hv
    exact ⟨u, hu, rfl⟩
  refine ⟨fun j g hg i hi => ?_, fun i v hv => ?_, fun unmerged => ?_, fun i v hv x hx => ?_⟩
  · obtain ⟨u, hu, bound⟩ := h.member j g hg i hi
    refine ⟨r.session.mergeUnit u, ?_, by simpa [mergeUnit] using bound⟩
    exact (unit?_mergeBindings ..).trans (congrArg (Option.map _) hu)
  · obtain ⟨u, hu, rfl⟩ := changed i v hv
    obtain ⟨length, none⟩ := h.count i u hu
    exact ⟨Nat.le_trans (firstOfEach_sublist ..).length_le length, by simpa [mergeUnit] using none⟩
  · exact absurd rfl (unmerged _ (List.mem_cons_self ..))
  · obtain ⟨u, hu, rfl⟩ := changed i v hv
    exact h.grouped i u hu x hx

theorem Enrolled.stage (h : r.Enrolled) (coherent : r.session.Coherent) (next : Stage r b) :
    b.Enrolled := by
  cases next with
  | quiet _ quiet => exact h.spares (.of_quiet quiet) fun _ he => he
  | log | plan => exact h.spares (.refl _) fun _ he => List.mem_cons_of_mem _ he
  | record grouped recorded => exact h.record coherent grouped recorded
  | bind declared active => exact h.bind declared
  | declare d =>
    exact h.spares (.append rfl rfl (by simp [WorkUnit.ofDeclaration]))
      fun _ he => List.mem_cons_of_mem _ he
  | gather => exact h.spares (.append rfl rfl (by simp [WorkUnit.ofDeclaration])) fun _ he => he
  | runbook declared =>
    obtain ⟨_, -, rfl, -⟩ := declareRunbook_eq_ok declared
    refine h.spares (.append rfl rfl fun u hu => ?_) fun _ he => List.mem_cons_of_mem _ he
    obtain ⟨k, d, -, rfl⟩ := List.mem_mapIdx.1 hu
    exact ⟨rfl, rfl, rfl⟩
  | constrain _ id =>
    exact h.spares (.modifyUnit id (fun _ => rfl) (fun _ => rfl) fun _ => rfl)
      fun _ he => List.mem_cons_of_mem _ he
  | merge answer => exact h.merge answer
  | create made =>
    exact h.spares ⟨(Spares.refl _).unit, (Spares.refl _).kept, (Spares.refl _).group,
      (Spares.refl _).groupKept⟩ fun _ he => List.mem_cons_of_mem _ he
  | reach reaches =>
    exact h.spares (.modifyUnit _ (fun _ => rfl) (fun _ => rfl) fun _ => rfl)
      fun _ he => List.mem_cons_of_mem _ he

theorem Story.enrolled (h : Story r b) (enrolled : r.Enrolled) (coherent : r.session.Coherent) :
    b.Enrolled := by
  induction h with
  | refl => exact enrolled
  | tail before next ih => exact ih.stage (Story.coherent before coherent) next

theorem enrolled_initial (settings : Settings) (passes : List Pass) :
    Enrolled ⟨initial settings passes, []⟩ := by
  constructor <;> simp [initial, Session.unit?, Session.group?]

/-- All that tells of the bindings of a unit agrees. -/
structure Agrees (r : Run) (id : UnitId) (u : WorkUnit) : Prop where
  member : ∀ j ∈ u.groups, ∃ g, r.session.group? j = some g ∧ id ∈ g.members
  bound_iff : (∃ j g, r.session.group? j = some g ∧ id ∈ g.members) ↔ u.groups ≠ []
  invoked_iff : u.groups ≠ [] ↔ 0 < u.invocations
  length_le : u.groups.length ≤ u.invocations
  unmerged : (∀ e ∈ r.journal, e.statement ≠ .merge) → u.groups.length = u.invocations ∧
    ∀ j, j ∈ u.groups ↔ ∃ g, r.session.group? j = some g ∧ id ∈ g.members
  recorded : u.steps ≠ [] → 0 < u.invocations
  grouped : ∀ step ∈ u.steps, ∃ j g, step.group = some j ∧ r.session.group? j = some g

theorem Enrolled.agrees (h : r.Enrolled) (coherent : r.session.Coherent) {id : UnitId}
    {u : WorkUnit} (hu : r.session.unit? id = some u) : r.Agrees id u := by
  have member := coherent.bound id u hu
  obtain ⟨length, none⟩ := h.count id u hu
  have invoked : u.groups ≠ [] ↔ 0 < u.invocations := by
    constructor
    · intro bound
      have := List.length_pos_iff.2 bound
      omega
    · intro invoked unbound
      have := none unbound
      omega
  have bound : (∃ j g, r.session.group? j = some g ∧ id ∈ g.members) ↔ u.groups ≠ [] := by
    constructor
    · rintro ⟨j, g, hg, hid⟩
      obtain ⟨v, hv, bound⟩ := h.member j g hg id hid
      obtain rfl := Option.some.inj (hu.symm.trans hv)
      exact bound
    · intro bound
      obtain ⟨j, hj⟩ := List.exists_mem_of_ne_nil _ bound
      obtain ⟨g, hg⟩ := member j hj
      exact ⟨j, g, hg⟩
  refine ⟨member, bound, invoked, length, fun unmerged => ?_,
    fun steps => invoked.1 (coherent.recorded id u hu steps), h.grouped id u hu⟩
  obtain ⟨same, all⟩ := h.exact unmerged id u hu
  exact ⟨same, fun j => ⟨member j, fun ⟨g, hg, hid⟩ => all j g hg hid⟩⟩

end Run

/-- Wherever a run stands, the bindings of each unit, the members of the host groups, the count of
invocations and the groups of the steps agree. -/
theorem Traced.agrees_upTo (settings : Settings) (passes : List Pass) (bound : Nat)
    (script : Block) (n : Nat) (id : UnitId) (u : WorkUnit)
    (hu : (upTo (initial settings passes) bound script n).session.unit? id = some u) :
    (run (initial settings passes) bound script).erase =
        (initial settings passes).run bound script ∧
      (upTo (initial settings passes) bound script n).Agrees id u := by
  have sheltered := sheltered_initial settings passes
  have coherent := coherent_initial settings passes
  have story := story_upTo _ bound script sheltered n
  refine ⟨run_erase _ bound script sheltered, ?_⟩
  exact (story.enrolled (Run.enrolled_initial settings passes) coherent).agrees
    (story.coherent coherent) hu

/-- A unit that invokes another, under two host groups that mean the same, and a plan that merges
the bindings of both. -/
def twiceBoundScript : Block :=
  [.declare (.new "base" [.step "command" (.text "one") 1 []]),
    .declare (.new "site" [.step "command" (.text "two") 1 [], .invoke ⟨0⟩]),
    .enter [.withHosts (some "web") .empty [.invoke ⟨1⟩],
      .withHosts (some "web") .empty [.invoke ⟨1⟩]],
    .plan .plays]

/-- Where the plan begins. The merging sorts members by a recursion that the kernel does not follow,
so the run is evaluated up to there. -/
theorem run_front_twiceBoundScript :
    ∃ r, (Traced.runAll (Traced.runWithin 5) (twiceBoundScript.take 3)).run
        ⟨initial ⟨false, .bundle, none, []⟩ [.merging .new], []⟩ = .ok () r ∧
      r.session.passes = [.merging .new] ∧ r.session.scopes.guards.isEmpty = true ∧
      r.journal.length = 13 ∧ r.session.groups.length = 2 ∧
      (∃ u, r.session.unit? ⟨0⟩ = some u ∧ u.groups = [⟨0⟩, ⟨1⟩] ∧ u.invocations = 2) ∧
      ∀ g ∈ r.session.groups, g.pattern = "web" ∧ g.settings = .empty ∧ g.vars = .empty ∧
        g.members.toList = [⟨1⟩, ⟨0⟩] := by
  let front := Traced.runAll (Traced.runWithin 5) (twiceBoundScript.take 3)
  let start : Run := ⟨initial ⟨false, .bundle, none, []⟩ [.merging .new], []⟩
  have counted : (front.result? start).map (fun x => (x.2.session.scopes.guards.isEmpty,
      x.2.journal.length, x.2.session.groups.length)) = some (true, 13, 2) := by decide +kernel
  have merges : (front.result? start).map (fun x =>
      x.2.session.passes.map fun p => decide (p = .merging .new)) = some [true] := by
    decide +kernel
  have bound : (front.result? start).map (fun x => (x.2.session.unit? ⟨0⟩).map fun u =>
      (u.groups, u.invocations)) = some (some ([⟨0⟩, ⟨1⟩], 2)) := by decide +kernel
  have alike : (front.result? start).map (fun x => decide (∀ g ∈ x.2.session.groups,
      g.pattern = "web" ∧ g.settings = .empty ∧ g.vars = .empty ∧
        g.members.toList = [⟨1⟩, ⟨0⟩])) = some true := by decide +kernel
  obtain ⟨⟨_, r⟩, ran, counted⟩ := Option.map_eq_some_iff.1 counted
  rw [ran, Option.map_some, Option.some.injEq] at merges bound alike
  obtain ⟨closed, length, groups⟩ : _ ∧ _ ∧ _ := by simpa only [Prod.mk.injEq] using counted
  obtain ⟨_, passes, merging⟩ := List.map_eq_singleton_iff.1 merges
  obtain rfl := of_decide_eq_true merging
  obtain ⟨u, hu, bound⟩ := Option.map_eq_some_iff.1 bound
  exact ⟨r, Exec.result?_eq_some.1 ran, passes, closed, length, groups,
    ⟨u, hu, Prod.mk.inj bound⟩, of_decide_eq_true alike⟩

theorem agrees_upTo_twiceBoundScript :
    ∃ u, (Traced.upTo (initial ⟨false, .bundle, none, []⟩ [.merging .new]) 5 twiceBoundScript
        14).session.unit? ⟨0⟩ = some u ∧ u.groups = [⟨0⟩] ∧ u.invocations = 2 ∧
      (Traced.run (initial ⟨false, .bundle, none, []⟩ [.merging .new]) 5 twiceBoundScript).erase =
        (initial ⟨false, .bundle, none, []⟩ [.merging .new]).run 5 twiceBoundScript ∧
      (Traced.upTo (initial ⟨false, .bundle, none, []⟩ [.merging .new]) 5 twiceBoundScript
        14).Agrees ⟨0⟩ u := by
  obtain ⟨r, ran, passes, closed, length, two, ⟨u, hu, bindings, invocations⟩, alike⟩ :=
    run_front_twiceBoundScript
  obtain ⟨t, e, entries, units⟩ := Traced.entries_run_of_merging ran passes closed .plays
  have merged : (Traced.upTo (initial ⟨false, .bundle, none, []⟩ [.merging .new]) 5
      twiceBoundScript 14).session = t := by
    rw [Traced.upTo, show twiceBoundScript = twiceBoundScript.take 3 ++ [.plan .plays] from rfl,
      entries, show 14 = r.journal.reverse.length + 1 by rw [List.length_reverse, length],
      List.take_length_add_append]
    simp
  have hu' : (Traced.upTo (initial ⟨false, .bundle, none, []⟩ [.merging .new]) 5
      twiceBoundScript 14).session.unit? ⟨0⟩ = some (r.session.mergeUnit u) := by
    rw [merged, unit?, units, List.getElem?_map]
    exact congrArg (Option.map _) hu
  refine ⟨_, hu', ?_, invocations, Traced.agrees_upTo _ _ 5 twiceBoundScript 14 ⟨0⟩ _ hu'⟩
  let shared : HostGroup := ⟨⟨0⟩, "web", .empty, .empty, .ofList [⟨1⟩, ⟨0⟩]⟩
  have key (j : Nat) (hj : j < r.session.groups.length) :
      r.session.structuralKey? ⟨j⟩ = some shared.structuralKey := by
    obtain ⟨pattern, settings, vars, members⟩ := alike _ (List.getElem_mem hj)
    rw [structuralKey?, group?, List.getElem?_eq_getElem hj, Option.map_some,
      HostGroup.structuralKey, pattern, settings, vars, members]
    rfl
  have same : sameKey? (some shared.structuralKey) (some shared.structuralKey) = true :=
    HostGroup.Proper.same_key ⟨Attributes.proper_empty, Attributes.proper_empty⟩
  have first := key 0 (two ▸ Nat.zero_lt_two)
  have second := key 1 (two ▸ Nat.one_lt_two)
  simp [mergeUnit, bindings, firstOfEach, firstOfEachFrom, first, second, same]

end Playbook
