import Playbook.Proofs.Session.Numbering

/-! Plays without steps. A plan passes over a unit only if it has recorded nothing at all; otherwise
the unit has a play for each of its bindings, and such a play is empty if the steps were recorded
under other host groups. It is not if every run of the body records a step for the group that it
runs under: passes only ever take bindings away, so each that is left has its step. -/

namespace Playbook

def Session.RecordedSince (s : Session) (id : UnitId) (u : WorkUnit) (j : GroupId) : Prop :=
  ∃ v, s.unit? id = some v ∧ (u.stepsFor j).length < (v.stepsFor j).length

/-- However and wherever a body declared like that of `u` is run, be it to a good end or a failure,
it records a step for the active host group. -/
def WorkUnit.Diligent (u : WorkUnit) (settings : Settings) : Prop :=
  ∀ (bound : Nat) (r b : Run) (id : UnitId) (v : WorkUnit) (j : GroupId) (g : HostGroup),
    r.session.settings = settings → r.session.unit? id = some v → u.SameDeclaration v →
    r.session.currentUnit? = some id → r.session.currentGroup? = some j →
    r.session.group? j = some g →
    (Exec.runBody (runWithin bound) u.body).Concludes r b → b.session.RecordedSince id v j

namespace Session
variable {s t : Session} {id : UnitId}

def bindingsOf (s : Session) (id : UnitId) : List GroupId :=
  ((s.unit? id).map WorkUnit.groups).getD []

theorem bindingsOf_modifyUnit (s : Session) (i : UnitId) {f : WorkUnit → WorkUnit}
    (kept : ∀ u, (f u).groups = u.groups) (id : UnitId) :
    (s.modifyUnit i f).bindingsOf id ⊆ s.bindingsOf id := by
  rw [bindingsOf, s.map_unit?_modifyUnit i kept, bindingsOf]
  exact List.Subset.refl _

theorem Update.bindingsOf_subset (h : Update s t) (id : UnitId) :
    t.bindingsOf id ⊆ s.bindingsOf id := by
  cases h with
  | declare name d =>
    rw [bindingsOf, unit?_declareAs]
    split
    · exact List.nil_subset _
    · exact fun _ hj => hj
  | hosts declared =>
    obtain ⟨p, a, added⟩ := addGroup_of_declareHosts declared
    obtain rfl : _ = t := congrArg Prod.snd added
    exact fun _ hj => hj
  | constrain i => exact s.bindingsOf_modifyUnit i (fun u => by rfl) id
  | record recorded =>
    obtain ⟨i, _, -, -, rfl⟩ := recordStep_eq_ok recorded
    exact s.bindingsOf_modifyUnit i (fun u => by rfl) id
  | merge =>
    rw [bindingsOf, unit?_mergeBindings, bindingsOf]
    cases s.unit? id with
    | none => exact List.nil_subset _
    | some u => exact (firstOfEach_sublist ..).subset
  | setSetting | setVar | setVars | runbook | skipFacts | inst | pipeline => exact fun _ hj => hj

theorem Moves.stepsOf_prefix (m : s.Moves t) (id : UnitId) : s.stepsOf id <+: t.stepsOf id := by
  induction m with
  | refl => exact List.prefix_rfl
  | tail _ last ih =>
    rcases last.recorded_or with ⟨_, _, _, i, step, active, recorded⟩ | ⟨-, same⟩
    · obtain ⟨-, -, steps⟩ := stepsOf_recordStep active recorded
      rw [steps]
      split
      · exact ih.trans (List.prefix_append ..)
      · exact ih
    · rwa [same]

/-- The unit `id`, if it has been declared like `u`, has a step for each group that it is bound to.
Excepted are groups under which it is running. -/
structure Filled (s : Session) (id : UnitId) (u : WorkUnit) (settings : Settings)
    (running : List GroupId) : Prop where
  coherent : s.Coherent
  settings : s.settings = settings
  filled : (∀ v, s.unit? id = some v → u.SameDeclaration v) → ∀ j ∈ s.bindingsOf id,
    j ∈ running ∨ ∃ step ∈ s.stepsOf id, step.group = some j

variable {u : WorkUnit} {settings : Settings} {running : List GroupId}

theorem filled_initial (passes : List Pass) :
    (initial settings passes).Filled id u settings running where
  coherent := coherent_initial settings passes
  settings := rfl
  filled _ j hj := by simp [initial, bindingsOf, unit?] at hj

theorem Filled.moves (h : s.Filled id u settings running) (m : s.Moves t)
    {running' : List GroupId} (kept : running ⊆ running')
    (bindings : ∀ j ∈ t.bindingsOf id, j ∈ s.bindingsOf id ∨ j ∈ running') :
    t.Filled id u settings running' where
  coherent := h.coherent.moves m
  settings := m.persists.settings.trans h.settings
  filled alike j hj := by
    have alike : ∀ v, s.unit? id = some v → u.SameDeclaration v := fun v hv => by
      obtain ⟨w, hw, same⟩ := m.persists.unit id v hv
      exact (alike w hw).trans same.symm
    rcases bindings j hj with old | new
    · exact (h.filled alike j old).imp (fun hr => kept hr) fun ⟨step, hstep, own⟩ =>
        ⟨step, (m.stepsOf_prefix id).subset hstep, own⟩
    · exact .inl new

theorem Filled.of_scopes (h : s.Filled id u settings running) {scopes : Scopes} {floor : Nat}
    (m : s.Moves { s with scopes, guardFloor := floor }) :
    Filled { s with scopes, guardFloor := floor } id u settings running :=
  h.moves m (fun _ hj => hj) fun _ hj => .inl hj

theorem Filled.begin (h : s.Filled id u settings running) {v : WorkUnit} {group : GroupId}
    (declared : s.unit? id = some v) (m : s.Moves (s.begin id group)) :
    (s.begin id group).Filled id u settings (group :: running) := by
  refine h.moves m (List.subset_cons_self ..) fun j hj => ?_
  have bound : (s.begin id group).bindingsOf id = v.groups ++ [group] := by
    rw [bindingsOf, unit?_begin declared]
    rfl
  have before : s.bindingsOf id = v.groups := by
    rw [bindingsOf, declared]
    rfl
  rw [bound, ← before] at hj
  rcases List.mem_append.1 hj with old | new
  · exact .inl old
  · exact .inr (List.mem_singleton.1 new ▸ List.mem_cons_self ..)

theorem Filled.begin_other (h : s.Filled id u settings running) {i : UnitId} {group : GroupId}
    (other : i ≠ id) (m : s.Moves (s.begin i group)) :
    (s.begin i group).Filled id u settings running := by
  refine h.moves m (fun _ hj => hj) fun j hj => .inl ?_
  rwa [bindingsOf, unit?_begin_of_ne other] at hj

theorem Filled.discharge {group : GroupId} (h : s.Filled id u settings (group :: running))
    (recorded : (∀ v, s.unit? id = some v → u.SameDeclaration v) →
      ∃ step ∈ s.stepsOf id, step.group = some group) : s.Filled id u settings running where
  coherent := h.coherent
  settings := h.settings
  filled alike j hj := by
    rcases h.filled alike j hj with hr | own
    · rcases List.mem_cons.1 hr with rfl | hr
      · exact .inr (recorded alike)
      · exact .inl hr
    · exact .inr own

end Session

namespace Run
open Session
variable {a b : Run} {id : UnitId} {u : WorkUnit} {settings : Settings} {running : List GroupId}

theorem recorded_of_diligent (diligent : u.Diligent settings) {v : WorkUnit} {group : GroupId}
    (filled : a.session.Filled id u settings running) (declared : a.session.unit? id = some v)
    (active : a.session.currentGroup? = some group) {bound : Nat}
    (ran : (Exec.runBody (runWithin bound) v.body).Concludes (a.on (a.session.begin id group)) b)
    (body : Course (a.on (a.session.begin id group)) b)
    (alike : ∀ v, b.session.unit? id = some v → u.SameDeclaration v) :
    ∃ step ∈ b.session.stepsOf id, step.group = some group := by
  have begun : (a.session.begin id group).unit? id = some (v.bind group) :=
    unit?_begin declared group
  obtain ⟨g, hg⟩ := filled.coherent.entered group (List.mem_of_mem_head? active)
  have joined : (a.session.begin id group).group? group = some (g.addMember id) :=
    group?_begin hg id
  obtain ⟨w, hw, same⟩ := body.path.moves.persists.unit id _ begun
  have declaredAlike : u.SameDeclaration (v.bind group) := (alike w hw).trans same.symm
  rw [show v.body = u.body from declaredAlike.body] at ran
  obtain ⟨w', hw', more⟩ := diligent bound (a.on (a.session.begin id group)) b id (v.bind group)
    group (g.addMember id) filled.settings begun declaredAlike rfl active joined ran
  obtain ⟨step, hstep⟩ := List.exists_mem_of_length_pos (Nat.zero_lt_of_lt more)
  obtain ⟨hstep, own⟩ := List.mem_filter.1 hstep
  refine ⟨step, ?_, of_decide_eq_true own⟩
  rw [stepsOf, hw']
  exact hstep

theorem obligation_filled (diligent : u.Diligent settings) :
    Obligation id fun running s => s.Filled id u settings running where
  update filled hu _ := filled.moves (.single (.update hu)) (fun _ hj => hj)
    fun _ hj => .inl (hu.bindingsOf_subset id hj)
  scopes filled moves := filled.of_scopes moves
  other filled other moves := filled.begin_other other moves
  own filled declared moves := filled.begin declared moves
  met filled declared active _ ran body ended :=
    ended.discharge (recorded_of_diligent diligent filled declared active ran body)

end Run

/-- The body is a step, or its first statement records some and does nothing else. -/
def Body.startsWithStep : Body → Bool
  | .script [] => false
  | .script (t :: _) => t.lines?.any (!·.isEmpty)
  | .step .. => true

namespace Session
variable {s t w : Session} {id : UnitId} {u : WorkUnit} {j : GroupId}

theorem RecordedSince.moves (h : s.RecordedSince id u j) (m : s.Moves t) :
    t.RecordedSince id u j := by
  obtain ⟨v, hv, more⟩ := h
  obtain ⟨w, hw, -⟩ := m.persists.unit id v hv
  have kept := m.stepsOf_prefix id
  simp only [stepsOf, hv, hw, Option.map_some, Option.getD_some] at kept
  exact ⟨w, hw, more.trans_le (kept.sublist.filter _).length_le⟩

theorem Writes.recordedSince {g : HostGroup} {lines : List Line}
    (h : s.Writes id u j g lines t) (nonempty : lines ≠ []) : t.RecordedSince id u j := by
  obtain ⟨steps, running, -, own, written⟩ := h
  have all : steps.filter (fun step => step.group = some j) = steps :=
    List.filter_eq_self.2 fun step hstep => decide_eq_true (own step hstep)
  have length : steps.length = lines.length := by
    simpa [WorkUnit.recipe] using congrArg List.length written
  refine ⟨_, running.unit, ?_⟩
  rw [WorkUnit.stepsFor, WorkUnit.stepsFor, List.filter_append, all, List.length_append, length]
  exact Nat.lt_add_of_pos_right (List.length_pos_iff.2 nonempty)

end Session

theorem Exec.ends_runBody_of_start {body : Body} (h : body.startsWithStep = true) {r : Run}
    {id : UnitId} {u : WorkUnit} {j : GroupId} {g : HostGroup}
    (running : r.session.Running id u j g) (bound : Nat) :
    (runBody (runWithin bound) body).Ends r (fun _ b => b.session.RecordedSince id u j)
      (fun _ b => b.session.RecordedSince id u j) fun _ => True := by
  cases body with
  | step action args =>
    rw [runBody, ends_discard]
    exact (ends_recordStep running ⟨action, fun _ => args, []⟩).imp_done
      fun _ _ written => written.recordedSince (by simp)
  | script block =>
    cases block with
    | nil => cases h
    | cons t rest =>
      obtain ⟨lines, hl, nonempty⟩ := (Option.any_eq_true _ _).1 h
      cases bound with
      | zero => trivial
      | succ bound =>
        rw [runBody, runWithin, runBlock, ends_bind]
        refine (ends_note_of_lines hl running).imp_done fun _ c written => ?_
        have since := written.recordedSince (by simpa using nonempty)
        exact (tame_runBlock (tame_runWithin bound) rest c).imp
          (fun _ _ course => since.moves course.path.moves)
          (fun _ _ course => since.moves course.path.moves) fun _ _ => trivial

theorem WorkUnit.diligent_of_start {u : WorkUnit} (h : u.body.startsWithStep = true)
    (settings : Settings) : u.Diligent settings :=
  fun bound _ _ _ _ _ _ _ declared _ active current group ran =>
    (Exec.ends_runBody_of_start h ⟨declared, active, current, group⟩ bound).of_concludes ran

namespace Session

/-- Every play shows what its unit recorded for the group, which is nothing at all only if the unit
recorded all of its steps under other groups. It is something if the unit is diligent and not
running. -/
theorem Reachable.plays_filled {s : Session} (hs : s.Reachable) {bound : Nat}
    {journal : List Entry} {p : Plan} {r : Run}
    (h : (Exec.plan (runWithin bound)).run ⟨s, journal⟩ = .ok p r) :
    ∀ play ∈ p.plays, ∃ id u j g, r.session.unit? id = some u ∧ u.steps ≠ [] ∧ j ∈ u.groups ∧
      r.session.group? j = some g ∧ play = Play.of g u ∧
      (play.steps = [] ↔ ∀ step ∈ u.steps, step.group ≠ some j) ∧
      (u.Diligent s.settings → id ∉ s.scopes.units.frames → play.steps ≠ []) := by
  have course : Run.Course ⟨s, journal⟩ r :=
    (Exec.tame_plan (Exec.tame_runWithin bound) ⟨s, journal⟩).of_ok h
  intro play hplay
  obtain ⟨id, u, j, g, hu, recorded, hj, hg, rfl⟩ := Exec.exists_of_mem_plays h play hplay
  have own : g.id = j := (hs.coherent.moves course.path.moves).group_id j g hg
  have empty : (Play.of g u).steps = [] ↔ ∀ step ∈ u.steps, step.group ≠ some j := by
    simp [Play.of, WorkUnit.stepsFor, own]
  refine ⟨id, u, j, g, hu, recorded, hj, hg, rfl, empty, fun diligent idle none => ?_⟩
  obtain ⟨settings, passes, a, trail, rfl⟩ := hs.exists_trail
  rw [show a.session.settings = settings from trail.path.moves.persists.settings] at diligent
  have obligation : Run.Obligation id fun running s => s.Filled id u settings running :=
    Run.obligation_filled diligent
  have before : a.session.Filled id u settings [] :=
    obligation.trail trail (filled_initial passes) idle
  have after : r.session.Filled id u settings [] := obligation.course course before fun _ => idle
  have alike (v : WorkUnit) (hv : r.session.unit? id = some v) : u.SameDeclaration v := by
    obtain rfl := Option.some.inj (hu.symm.trans hv)
    exact .refl u
  have bound : j ∈ r.session.bindingsOf id := by
    rw [bindingsOf, hu]
    exact hj
  obtain ⟨step, hstep, same⟩ := (after.filled alike j bound).resolve_left List.not_mem_nil
  rw [stepsOf, hu] at hstep
  exact empty.1 none step hstep same

theorem plays_filled_waitingScript :
    ∃ p r, (Exec.plan (runWithin 3)).run ⟨(initial ⟨false, .bundle, none, []⟩
        [.facts .new, .merging .new]).after 4 waitingScript, []⟩ = .ok p r ∧
      p.plays.map Play.name = ["gather_facts_once", "db", "app"] ∧
      ∀ play ∈ p.plays, play.steps ≠ [] := by
  let s := (initial ⟨false, .bundle, none, []⟩ [.facts .new, .merging .new]).after 4 waitingScript
  have checked : ((Exec.plan (runWithin 3)).result? ⟨s, []⟩).map (fun x =>
      (x.1.plays.map Play.name, x.2.session.units.all (·.body.startsWithStep),
        s.scopes.units.frames)) = some (["gather_facts_once", "db", "app"], true, []) := by
    decide +kernel
  obtain ⟨⟨p, r⟩, planned, checked⟩ := Option.map_eq_some_iff.1 checked
  obtain ⟨names, start, idle⟩ : _ ∧ _ ∧ _ := by simpa only [Prod.mk.injEq] using checked
  have planned := Exec.result?_eq_some.1 planned
  refine ⟨p, r, planned, names, fun play hplay => ?_⟩
  obtain ⟨id, u, _, _, hu, -, -, -, -, -, filled⟩ :=
    Reachable.plays_filled (reachable_after rfl 4 waitingScript) planned play hplay
  have steps := List.all_eq_true.1 start u (List.mem_of_getElem? hu)
  exact filled (WorkUnit.diligent_of_start steps _) (by rw [idle]; exact List.not_mem_nil)

/-- A unit that records a step in its first invocation alone. -/
def hesitantScript : Block :=
  [.declare (.new "deploy" [.ifInvokedLess ⟨0⟩ 2 [.step "command" (.text "one") 1 []]]),
    .enter [.withHosts (some "web") .empty [.invoke ⟨0⟩],
      .withHosts (some "db") .empty [.invoke ⟨0⟩]]]

theorem not_forall_filled : ¬ ∀ settings start bound script, Session.new settings = .ok start →
    ∀ p r, (Exec.plan (runWithin bound)).run ⟨start.after bound script, []⟩ = .ok p r →
      ∀ play ∈ p.plays, play.steps ≠ [] := by
  intro all
  have planned : ((Exec.plan (runWithin 4)).result?
      ⟨(initial ⟨false, .bundle, none, []⟩ []).after 4 hesitantScript, []⟩).map (fun x =>
        x.1.plays.map fun q => (q.hosts, q.steps.length)) = some [("web", 1), ("db", 0)] := by
    decide +kernel
  obtain ⟨⟨p, r⟩, planned, plays⟩ := Option.map_eq_some_iff.1 planned
  obtain ⟨play, hplay, shown⟩ : ∃ play ∈ p.plays, (play.hosts, play.steps.length) = ("db", 0) :=
    List.mem_map.1 (by rw [plays]; simp)
  refine all ⟨false, .bundle, none, []⟩ _ 4 hesitantScript rfl p r
    (Exec.result?_eq_some.1 planned) play hplay ?_
  exact List.length_eq_zero_iff.1 (congrArg Prod.snd shown)

end Session
end Playbook
