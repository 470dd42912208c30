import Playbook.Proofs.Session.Nesting

/-! Which sessions a script can come by, and what holds of all of them: bindings and memberships
agree, a unit with steps is bound, and whatever is active has been declared. One move keeps this,
so every run does. -/

namespace Playbook.Session
variable {s t : Session}

/-- The session at the start of a script and those in which its statements ended. -/
def states (s : Session) (bound : Nat) (script : Block) : List Session :=
  s :: (s.run bound script).entries.map Entry.session

def after (s : Session) (bound : Nat) (script : Block) : Session :=
  ((s.run bound script).entries.getLast?.map Entry.session).getD s

theorem after_mem_states (s : Session) (bound : Nat) (script : Block) :
    s.after bound script ∈ s.states bound script := by
  unfold after states
  cases h : (s.run bound script).entries.getLast? with
  | none => exact List.mem_cons_self ..
  | some e => exact List.mem_cons_of_mem _ (List.mem_map_of_mem (List.mem_of_getLast? h))

def Reachable (s : Session) : Prop :=
  ∃ settings passes start bound script,
    withPasses settings passes = .ok start ∧ s ∈ start.states bound script

structure Coherent (s : Session) : Prop where
  unit_id : ∀ id u, s.unit? id = some u → u.id = id
  group_id : ∀ id g, s.group? id = some g → g.id = id
  bound : ∀ id u, s.unit? id = some u → ∀ j ∈ u.groups, ∃ g, s.group? j = some g ∧ id ∈ g.members
  recorded : ∀ id u, s.unit? id = some u → u.steps ≠ [] → u.groups ≠ []
  entered : ∀ id ∈ s.scopes.hostGroups.frames, ∃ g, s.group? id = some g
  active : ∀ id ∈ s.scopes.units.frames, ∃ u, s.unit? id = some u ∧ u.groups ≠ []

/-- A unit may turn from `u` into `v`: it stays bound, and only to groups that know of it. -/
structure Keeps (s : Session) (id : UnitId) (u v : WorkUnit) : Prop where
  id_eq : v.id = u.id
  known : ∀ j ∈ v.groups, ∃ g, s.group? j = some g ∧ id ∈ g.members
  bound : u.groups ≠ [] → v.groups ≠ []
  recorded : v.steps ≠ [] → u.groups ≠ []

namespace Coherent

theorem of_units (h : s.Coherent) (groups : t.groups = s.groups) (scopes : t.scopes = s.scopes)
    {f : UnitId → WorkUnit → WorkUnit} (units : ∀ id, t.unit? id = (s.unit? id).map (f id))
    (keeps : ∀ id u, s.unit? id = some u → s.Keeps id u (f id u)) :
    t.Coherent := by
  have group? : t.group? = s.group? := by
    funext id
    rw [Session.group?, groups]
    rfl
  have old (id : UnitId) (u' : WorkUnit) (hu : t.unit? id = some u') :
      ∃ u, s.unit? id = some u ∧ f id u = u' := by
    rw [units] at hu
    exact Option.map_eq_some_iff.1 hu
  refine ⟨?_, ?_, ?_, ?_, ?_, ?_⟩
  · intro id u' hu'
    obtain ⟨u, hu, rfl⟩ := old id u' hu'
    rw [(keeps id u hu).id_eq]
    exact h.unit_id id u hu
  · rw [group?]
    exact h.group_id
  · intro id u' hu'
    obtain ⟨u, hu, rfl⟩ := old id u' hu'
    rw [group?]
    exact (keeps id u hu).known
  · intro id u' hu' hs
    obtain ⟨u, hu, rfl⟩ := old id u' hu'
    exact (keeps id u hu).bound ((keeps id u hu).recorded hs)
  · rw [scopes, group?]
    exact h.entered
  · intro id hid
    rw [scopes] at hid
    obtain ⟨u, hu, hb⟩ := h.active id hid
    exact ⟨f id u, by rw [units, hu]; rfl, (keeps id u hu).bound hb⟩

theorem of_groups (h : s.Coherent) (units : t.units = s.units) (scopes : t.scopes = s.scopes)
    {f : GroupId → HostGroup → HostGroup} (groups : ∀ id, t.group? id = (s.group? id).map (f id))
    (keeps : ∀ id g, (f id g).id = g.id ∧ ∀ u ∈ g.members, u ∈ (f id g).members) :
    t.Coherent := by
  have unit? : t.unit? = s.unit? := by
    funext id
    rw [Session.unit?, units]
    rfl
  have kept (id : GroupId) (g : HostGroup) (hg : s.group? id = some g) :
      t.group? id = some (f id g) := by
    rw [groups, hg]
    rfl
  refine ⟨?_, ?_, ?_, ?_, ?_, ?_⟩
  · rw [unit?]
    exact h.unit_id
  · intro id g' hg'
    rw [groups] at hg'
    obtain ⟨g, hg, rfl⟩ := Option.map_eq_some_iff.1 hg'
    rw [(keeps id g).1]
    exact h.group_id id g hg
  · intro id u hu j hj
    rw [unit?] at hu
    obtain ⟨g, hg, hm⟩ := h.bound id u hu j hj
    exact ⟨f j g, kept j g hg, (keeps j g).2 id hm⟩
  · rw [unit?]
    exact h.recorded
  · intro id hid
    rw [scopes] at hid
    obtain ⟨g, hg⟩ := h.entered id hid
    exact ⟨f id g, kept id g hg⟩
  · rw [scopes, unit?]
    exact h.active

theorem of_scopes (h : s.Coherent) {scopes : Scopes}
    (entered : ∀ id ∈ scopes.hostGroups.frames, ∃ g, s.group? id = some g)
    (active : ∀ id ∈ scopes.units.frames, ∃ u, s.unit? id = some u ∧ u.groups ≠ []) :
    Coherent { s with scopes } where
  unit_id := h.unit_id
  group_id := h.group_id
  bound := h.bound
  recorded := h.recorded
  entered := entered
  active := active

theorem modifyUnit (h : s.Coherent) (id : UnitId) {f : WorkUnit → WorkUnit}
    (keeps : ∀ u, s.unit? id = some u → s.Keeps id u (f u)) : (s.modifyUnit id f).Coherent := by
  refine h.of_units rfl rfl (fun j => s.unit?_modifyUnit id j f) fun j u hu => ?_
  by_cases hj : id = j
  · subst hj
    rw [if_pos rfl]
    exact keeps u hu
  · rw [if_neg hj]
    exact ⟨rfl, h.bound j u hu, fun hg => hg, h.recorded j u hu⟩

theorem modifyGroup (h : s.Coherent) (id : GroupId) {f : HostGroup → HostGroup}
    (keeps : ∀ g, (f g).id = g.id ∧ ∀ u ∈ g.members, u ∈ (f g).members) :
    (s.modifyGroup id f).Coherent := by
  refine h.of_groups rfl rfl (fun j => s.group?_modifyGroup id j f) fun j g => ?_
  split
  · exact keeps g
  · exact ⟨rfl, fun _ hu => hu⟩

theorem declareAs (h : s.Coherent) (name : String) (d : Declaration Body) :
    (s.declareAs name d).2.Coherent := by
  have old (id : UnitId) (u : WorkUnit) (hu : s.unit? id = some u) :
      (s.declareAs name d).2.unit? id = some u := by
    have : id ≠ (s.declareAs name d).1 := by
      rintro rfl
      simp [unit?_fresh] at hu
    rw [unit?_declareAs, if_neg this, hu]
  have cases (id : UnitId) (u : WorkUnit) (hu : (s.declareAs name d).2.unit? id = some u) :
      s.unit? id = some u ∨ u = .ofDeclaration id name d := by
    rw [unit?_declareAs] at hu
    split at hu
    · exact .inr (Option.some.inj hu).symm
    · exact .inl hu
  refine ⟨?_, h.group_id, ?_, ?_, h.entered, ?_⟩
  · intro id u hu
    rcases cases id u hu with hu | rfl
    · exact h.unit_id id u hu
    · rfl
  · intro id u hu j hj
    rcases cases id u hu with hu | rfl
    · exact h.bound id u hu j hj
    · simp [WorkUnit.ofDeclaration] at hj
  · intro id u hu hs
    rcases cases id u hu with hu | rfl
    · exact h.recorded id u hu hs
    · simp [WorkUnit.ofDeclaration] at hs
  · intro id hid
    obtain ⟨u, hu, hb⟩ := h.active id hid
    exact ⟨u, old id u hu, hb⟩

theorem addGroup (h : s.Coherent) (pattern : String) (settings : Attributes) :
    (s.addGroup pattern settings).2.Coherent := by
  have old (id : GroupId) (g : HostGroup) (hg : s.group? id = some g) :
      (s.addGroup pattern settings).2.group? id = some g := by
    have : id ≠ (s.addGroup pattern settings).1 := by
      rintro rfl
      simp [group?_fresh] at hg
    rw [group?_addGroup, if_neg this, hg]
  refine ⟨h.unit_id, ?_, ?_, h.recorded, ?_, h.active⟩
  · intro id g hg
    rw [group?_addGroup] at hg
    split at hg
    · rw [← Option.some.inj hg]
    · exact h.group_id id g hg
  · intro id u hu j hj
    obtain ⟨g, hg, hm⟩ := h.bound id u hu j hj
    exact ⟨g, old j g hg, hm⟩
  · intro id hid
    obtain ⟨g, hg⟩ := h.entered id hid
    exact ⟨g, old id g hg⟩

theorem bind (h : s.Coherent) {id : UnitId} {group : GroupId}
    (active : s.currentGroup? = some group) :
    ((s.modifyUnit id (·.bind group)).modifyGroup group (·.addMember id)).Coherent := by
  -- the group learns of the unit before the unit is bound to it
  have known := h.modifyGroup group (f := (·.addMember id)) fun g =>
    ⟨rfl, fun u hu => OrderedSet.mem_insert.2 (.inl hu)⟩
  refine known.modifyUnit id (f := (·.bind group)) fun u hu => ⟨rfl, ?_, ?_, known.recorded id u hu⟩
  · intro j hj
    rcases List.mem_append.1 hj with hj | hj
    · exact known.bound id u hu j hj
    · obtain rfl := List.mem_singleton.1 hj
      obtain ⟨g, hg⟩ := h.entered j (List.mem_of_mem_head? active)
      refine ⟨g.addMember id, ?_, OrderedSet.mem_insert.2 (.inr rfl)⟩
      rw [group?_modifyGroup, hg]
      simp
  · simp [WorkUnit.bind]

theorem recordStep (h : s.Coherent) {action : String} {args : Value} {edits : List StepEdit}
    {step : Step} (recorded : s.recordStep action args edits = .ok (step, t)) : t.Coherent := by
  obtain ⟨id, u, active, hu, rfl⟩ := recordStep_eq_ok recorded
  obtain ⟨_, hu', hb⟩ := h.active id (List.mem_of_mem_head? active)
  obtain rfl : u = _ := Option.some.inj (hu.symm.trans hu')
  have := h.modifyUnit id (f := (·.record step)) fun v hv => by
    obtain rfl : u = v := Option.some.inj (hu.symm.trans hv)
    exact ⟨rfl, h.bound id u hu, fun hg => hg, fun _ => hb⟩
  exact ⟨this.unit_id, this.group_id, this.bound, this.recorded, this.entered, this.active⟩

theorem mergeBindings (h : s.Coherent) : s.mergeBindings.2.Coherent := by
  refine h.of_units (f := fun _ => s.mergeUnit) rfl rfl s.unit?_mergeBindings
    fun id u hu => ⟨rfl, ?_, ?_, ?_⟩
  · intro j hj
    exact h.bound id u hu j ((firstOfEach_sublist ..).subset hj)
  · simp [mergeUnit]
  · exact h.recorded id u hu

theorem update (h : s.Coherent) (u : Update s t) : t.Coherent := by
  cases u with
  | declare name d => exact h.declareAs name d
  | hosts declared =>
    obtain ⟨p, a, e⟩ := addGroup_of_declareHosts declared
    obtain rfl : _ = t := congrArg Prod.snd e
    exact h.addGroup p a
  | setSetting id => exact h.modifyGroup id fun g => ⟨rfl, fun _ hu => hu⟩
  | setVar id => exact h.modifyGroup id fun g => ⟨rfl, fun _ hu => hu⟩
  | setVars id => exact h.modifyGroup id fun g => ⟨rfl, fun _ hu => hu⟩
  | constrain id before after =>
    exact h.modifyUnit id fun u hu => ⟨rfl, h.bound id u hu, fun hg => hg, h.recorded id u hu⟩
  | record recorded => exact h.recordStep recorded
  | merge => exact h.mergeBindings
  | skipFacts =>
    exact h.of_groups rfl rfl (fun id => List.getElem?_map) fun id g => ⟨rfl, fun _ hu => hu⟩
  | runbook | inst | pipeline =>
    exact ⟨h.unit_id, h.group_id, h.bound, h.recorded, h.entered, h.active⟩

theorem move (h : s.Coherent) (m : s.Move t) : t.Coherent := by
  cases m with
  | update u => exact h.update u
  | bind declared active => exact h.bind active
  | enter he =>
    cases he with
    | hostGroup declared =>
      exact h.of_scopes (List.forall_mem_cons.2 ⟨⟨_, declared⟩, h.entered⟩) h.active
    | unit declared active bound =>
      exact h.of_scopes h.entered
        (List.forall_mem_cons.2 ⟨⟨_, declared, List.ne_nil_of_mem bound⟩, h.active⟩)
    | session | runbook | guard => exact h.of_scopes h.entered h.active
  | @leave kind scopes hl =>
    have left := Scopes.exit_eq_ok hl
    cases kind with
    | hostGroup =>
      obtain ⟨_, r, e, rfl⟩ := left
      exact h.of_scopes (fun id hid => h.entered id (e ▸ List.mem_cons_of_mem _ hid)) h.active
    | unit =>
      obtain ⟨_, r, e, rfl⟩ := left
      exact h.of_scopes h.entered fun id hid => h.active id (e ▸ List.mem_cons_of_mem _ hid)
    | session | runbook | guard =>
      obtain ⟨_, _, e, rfl⟩ := left
      exact h.of_scopes h.entered h.active
  | unwind | setFloor => exact ⟨h.unit_id, h.group_id, h.bound, h.recorded, h.entered, h.active⟩

theorem moves (h : s.Coherent) (m : s.Moves t) : t.Coherent := by
  induction m with
  | refl => exact h
  | tail _ m ih => exact ih.move m

end Coherent

theorem coherent_initial (settings : Settings) (passes : List Pass) :
    (initial settings passes).Coherent := by
  constructor <;> simp [initial, unit?, group?, Scopes.empty, ScopeStack.empty]

theorem withPasses_eq_ok {settings : Settings} {passes : List Pass}
    (h : withPasses settings passes = .ok s) : s = initial settings passes := by
  unfold withPasses at h
  cases hv : settings.validate with
  | error e => rw [hv] at h; cases h
  | ok =>
    rw [hv] at h
    exact (Except.ok.inj h).symm

/-- Every session that a script comes by lies on a trail from the one it starts with. -/
theorem exists_trail_of_mem_states {bound : Nat} {script : Block} (h : t ∈ s.states bound script) :
    ∃ r, Run.Trail ⟨s, []⟩ r ∧ r.session = t := by
  rcases List.mem_cons.1 h with rfl | h
  · exact ⟨_, .course (.refl _), rfl⟩
  · obtain ⟨e, he, rfl⟩ := List.mem_map.1 h
    obtain ⟨r, trail, entries⟩ := s.exists_trail bound script
    rw [entries, List.mem_reverse] at he
    exact (trail.noted e he).resolve_left List.not_mem_nil

theorem moves_of_mem_states {bound : Nat} {script : Block} (h : t ∈ s.states bound script) :
    s.Moves t := by
  obtain ⟨r, trail, rfl⟩ := exists_trail_of_mem_states h
  exact trail.path.moves

theorem reachable_after {settings : Settings} {passes : List Pass}
    (h : settings.validate = .ok ()) (bound : Nat) (script : Block) :
    ((initial settings passes).after bound script).Reachable :=
  ⟨settings, passes, _, bound, script, by rw [withPasses, h]; rfl, after_mem_states ..⟩

theorem reachable_of_getElem? {settings : Settings} {passes : List Pass}
    (h : settings.validate = .ok ()) {bound : Nat} {script : Block} {k : Nat} {e : Entry}
    (he : ((initial settings passes).run bound script).entries[k]? = some e) :
    e.session.Reachable :=
  ⟨settings, passes, _, bound, script, by rw [withPasses, h]; rfl,
    List.mem_cons_of_mem _ (List.mem_map_of_mem (List.mem_of_getElem? he))⟩

theorem Reachable.exists_trail (h : s.Reachable) :
    ∃ settings passes r, Run.Trail ⟨initial settings passes, []⟩ r ∧ r.session = s := by
  obtain ⟨settings, passes, start, bound, script, hs, ht⟩ := h
  obtain rfl := withPasses_eq_ok hs
  exact ⟨settings, passes, exists_trail_of_mem_states ht⟩

theorem Reachable.coherent (h : s.Reachable) : s.Coherent := by
  obtain ⟨settings, passes, r, trail, rfl⟩ := h.exists_trail
  exact (coherent_initial settings passes).moves trail.path.moves

end Playbook.Session
