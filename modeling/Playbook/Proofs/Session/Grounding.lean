import Playbook.Proofs.Session.Calling
import Playbook.Proofs.Session.Telling
import Playbook.Proofs.Session.Writing

/-! No handle dangles. Whatever a session holds a handle of has been declared in it, and bears that
handle: what is open, bound, recorded, a member of a group or of a runbook, or what an instance was
made from. One move keeps this, except for the constraints of instances: they are taken from the
scopes in which an instance is made, so it takes a stage of the story to see that they are known. -/

namespace Playbook

inductive Handle where
  | session (id : SessionId)
  | unit (id : UnitId)
  | group (id : GroupId)
  | runbook (id : RunbookId)
  | inst (id : InstanceId)

def Scopes.Holds (s : Scopes) : Handle → Prop
  | .session id => id ∈ s.sessions.frames
  | .unit id => id ∈ s.units.frames
  | .group id => id ∈ s.hostGroups.frames
  | .runbook _ => False
  | .inst id => id ∈ s.runbooks.frames

def WorkUnit.Holds (u : WorkUnit) : Handle → Prop
  | .group id => id ∈ u.groups ∨ ∃ step ∈ u.steps, step.group = some id
  | _ => False

def HostGroup.Holds (g : HostGroup) : Handle → Prop
  | .unit id => id ∈ g.members
  | _ => False

def Runbook.Holds (r : Runbook) : Handle → Prop
  | .unit id => id ∈ r.members.values
  | _ => False

def Instance.Holds (i : Instance) : Handle → Prop
  | .runbook id => id = i.runbook
  | .group id => id = i.group
  | _ => False

/-- Each handle that is held in the new list was held in the old one, or is known. -/
def Inherits {α : Type} (holds : α → Handle → Prop) (known : Handle → Prop) (old new : List α) :
    Prop :=
  ∀ a ∈ new, ∀ x, holds a x → (∃ b ∈ old, holds b x) ∨ known x

namespace Inherits
variable {α : Type} {holds : α → Handle → Prop} {known : Handle → Prop} {l m : List α} {f : α → α}

theorem of_old (h : Inherits holds known l m) (old : ∀ a ∈ l, ∀ x, holds a x → known x) :
    ∀ a ∈ m, ∀ x, holds a x → known x := fun a ha x hx =>
  (h a ha x hx).elim (fun ⟨b, hb, hx⟩ => old b hb x hx) id

theorem refl (l : List α) : Inherits holds known l l := fun a ha _ hx => .inl ⟨a, ha, hx⟩

theorem append {a : α} (h : ∀ x, holds a x → known x) : Inherits holds known l (l ++ [a]) := by
  intro b hb x hx
  rcases List.mem_append.1 hb with hb | hb
  · exact .inl ⟨b, hb, hx⟩
  · obtain rfl := List.mem_singleton.1 hb
    exact .inr (h x hx)

theorem map (h : ∀ a x, holds (f a) x → holds a x ∨ known x) :
    Inherits holds known l (l.map f) := by
  intro b hb x hx
  obtain ⟨a, ha, rfl⟩ := List.mem_map.1 hb
  exact (h a x hx).imp_left fun old => ⟨a, ha, old⟩

theorem modify (i : Nat) (h : ∀ a x, holds (f a) x → holds a x ∨ known x) :
    Inherits holds known l (l.modify i f) := by
  intro b hb x hx
  obtain ⟨j, hj⟩ := List.mem_iff_getElem?.1 hb
  rw [List.getElem?_modify] at hj
  obtain ⟨a, ha, rfl⟩ := Option.map_eq_some_iff.1 hj
  have mem := List.mem_of_getElem? ha
  split at hx
  · exact (h a x hx).imp_left fun old => ⟨a, mem, old⟩
  · exact .inl ⟨a, mem, hx⟩

end Inherits

namespace Session
variable {s t : Session}

def Has (s : Session) : Handle → Prop
  | .session id => id = s.id
  | .unit id => id.index < s.units.length
  | .group id => id.index < s.groups.length
  | .runbook id => id.index < s.runbooks.length
  | .inst id => id.index < s.instances.length

theorem has_unit {id : UnitId} : s.Has (.unit id) ↔ ∃ u, s.unit? id = some u := by
  simp [Has, unit?, List.getElem?_eq_some_iff]

theorem has_group {id : GroupId} : s.Has (.group id) ↔ ∃ g, s.group? id = some g := by
  simp [Has, group?, List.getElem?_eq_some_iff]

theorem has_runbook {id : RunbookId} : s.Has (.runbook id) ↔ ∃ r, s.runbook? id = some r := by
  simp [Has, runbook?, List.getElem?_eq_some_iff]

theorem has_inst {id : InstanceId} : s.Has (.inst id) ↔ ∃ i, s.instance? id = some i := by
  simp [Has, instance?, List.getElem?_eq_some_iff]

theorem has_of_declareHosts {pattern : Option String} {settings : Attributes} {id : GroupId}
    (h : s.declareHosts pattern settings = .ok (id, t)) : t.Has (.group id) := by
  obtain ⟨p, a, added⟩ := addGroup_of_declareHosts h
  obtain rfl : _ = id := congrArg Prod.fst added
  obtain rfl : _ = t := congrArg Prod.snd added
  simp [Has, addGroup]

/-- Entries are never taken away. Runbooks and instances do not even change. -/
structure Grows (s t : Session) : Prop where
  id_eq : t.id = s.id := by exact rfl
  units : s.units.length ≤ t.units.length := by exact le_rfl
  groups : s.groups.length ≤ t.groups.length := by exact le_rfl
  runbooks : s.runbooks <+: t.runbooks := by exact List.prefix_rfl
  instances : s.instances <+: t.instances := by exact List.prefix_rfl

theorem Grows.refl (s : Session) : s.Grows s := {}

theorem Grows.trans {u : Session} (h : s.Grows t) (h' : t.Grows u) : s.Grows u :=
  ⟨h'.id_eq.trans h.id_eq, h.units.trans h'.units, h.groups.trans h'.groups,
    h.runbooks.trans h'.runbooks, h.instances.trans h'.instances⟩

theorem Grows.has (h : s.Grows t) {x : Handle} (hx : s.Has x) : t.Has x := by
  cases x with
  | session => exact hx.trans h.id_eq.symm
  | unit => exact hx.trans_le h.units
  | group => exact hx.trans_le h.groups
  | runbook => exact hx.trans_le h.runbooks.length_le
  | inst => exact hx.trans_le h.instances.length_le

theorem Grows.runbook? (h : s.Grows t) {id : RunbookId} {r : Runbook}
    (known : s.runbook? id = some r) : t.runbook? id = some r := by
  obtain ⟨later, e⟩ := h.runbooks
  rw [Session.runbook?, ← e]
  exact Run.getElem?_append_of_some known

theorem Update.grows (h : Update s t) : s.Grows t := by
  cases h with
  | declare => exact { units := by simp [declareAs] }
  | runbook => exact { runbooks := List.prefix_append .. }
  | hosts declared =>
    obtain ⟨p, a, e⟩ := addGroup_of_declareHosts declared
    obtain rfl : _ = t := congrArg Prod.snd e
    exact { groups := by simp [addGroup] }
  | setSetting | setVar | setVars => exact { groups := (List.length_modify ..).ge }
  | constrain => exact { units := (List.length_modify ..).ge }
  | record recorded =>
    obtain ⟨_, _, -, -, rfl⟩ := recordStep_eq_ok recorded
    exact { units := (List.length_modify ..).ge }
  | merge => exact { units := (List.length_map ..).ge }
  | skipFacts => exact { groups := (List.length_map ..).ge }
  | inst => exact { instances := List.prefix_append .. }
  | pipeline => exact {}

theorem Move.grows (h : s.Move t) : s.Grows t := by
  cases h with
  | update h => exact h.grows
  | bind => exact { units := (List.length_modify ..).ge, groups := (List.length_modify ..).ge }
  | enter | leave | unwind | setFloor => exact {}

theorem Moves.grows (h : s.Moves t) : s.Grows t := by
  induction h with
  | refl => exact .refl s
  | tail _ h ih => exact ih.trans h.grows

/-- There is an entry for every handle that is held. -/
structure Grounded (s : Session) : Prop where
  scopes : ∀ x, s.scopes.Holds x → s.Has x
  units : ∀ u ∈ s.units, ∀ x, u.Holds x → s.Has x
  groups : ∀ g ∈ s.groups, ∀ x, g.Holds x → s.Has x
  runbooks : ∀ r ∈ s.runbooks, ∀ x, r.Holds x → s.Has x
  instances : ∀ i ∈ s.instances, ∀ x, i.Holds x → s.Has x

/-- All that `t` holds was held by `s`, or there is an entry for it in `t`. -/
structure Derives (s t : Session) : Prop where
  scopes : ∀ x, t.scopes.Holds x → s.scopes.Holds x ∨ t.Has x := by exact fun _ => .inl
  units : Inherits WorkUnit.Holds t.Has s.units t.units := by exact .refl _
  groups : Inherits HostGroup.Holds t.Has s.groups t.groups := by exact .refl _
  runbooks : Inherits Runbook.Holds t.Has s.runbooks t.runbooks := by exact .refl _
  instances : Inherits Instance.Holds t.Has s.instances t.instances := by exact .refl _

theorem Grounded.of_derives (h : s.Grounded) (grows : s.Grows t) (derives : s.Derives t) :
    t.Grounded where
  scopes x hx := (derives.scopes x hx).elim (fun old => grows.has (h.scopes x old))
    fun known => known
  units := derives.units.of_old fun u hu x hx => grows.has (h.units u hu x hx)
  groups := derives.groups.of_old fun g hg x hx => grows.has (h.groups g hg x hx)
  runbooks := derives.runbooks.of_old fun r hr x hx => grows.has (h.runbooks r hr x hx)
  instances := derives.instances.of_old fun i hi x hx => grows.has (h.instances i hi x hx)

theorem derives_modifyGroup (s : Session) (id : GroupId) {f : HostGroup → HostGroup}
    (members : ∀ g, (f g).members = g.members) : s.Derives (s.modifyGroup id f) where
  groups := .modify _ fun g x hx => .inl <| by
    cases x with
    | unit =>
      show _ ∈ g.members
      rw [← members g]
      exact hx
    | _ => exact hx

theorem Grounded.has_currentGroup (h : s.Grounded) {id : GroupId}
    (active : s.currentGroup? = some id) : s.Has (.group id) :=
  h.scopes (.group id) (List.mem_of_mem_head? active)

theorem Grounded.has_currentUnit (h : s.Grounded) {id : UnitId}
    (active : s.currentUnit? = some id) : s.Has (.unit id) :=
  h.scopes (.unit id) (List.mem_of_mem_head? active)

theorem Grounded.derives_record (h : s.Grounded) {action : String} {args : Value}
    {edits : List StepEdit} {step : Step}
    (recorded : s.recordStep action args edits = .ok (step, t)) : s.Derives t := by
  have grows := (Update.record recorded).grows
  obtain ⟨id, u, active, hu, rfl⟩ := recordStep_eq_ok recorded
  have own : step.group = s.currentGroup? := by
    rw [recordStep_of_active active hu] at recorded
    obtain ⟨rfl, -⟩ := Prod.mk.inj (Except.ok.inj recorded)
    exact Step.group_edits ..
  refine { units := .modify _ fun v x hx => ?_ }
  cases x with
  | group j =>
    rcases hx with bound | ⟨x, hx, hj⟩
    · exact .inl (.inl bound)
    · rcases List.mem_append.1 hx with old | new
      · exact .inl (.inr ⟨x, old, hj⟩)
      · obtain rfl := List.mem_singleton.1 new
        exact .inr (grows.has (h.has_currentGroup (own.symm.trans hj)))
  | _ => exact hx.elim

theorem Grounded.derives_update (h : s.Grounded) (u : Update s t) : s.Derives t := by
  cases u with
  | declare name d =>
    refine { units := .append fun x hx => ?_ }
    cases x with
    | group => simp [WorkUnit.Holds, WorkUnit.ofDeclaration] at hx
    | _ => exact hx.elim
  | runbook r _ members =>
    refine { runbooks := .append fun x hx => ?_ }
    cases x with
    | unit id => exact has_unit.2 (members id hx)
    | _ => exact hx.elim
  | hosts declared =>
    obtain ⟨p, a, e⟩ := addGroup_of_declareHosts declared
    obtain rfl : _ = t := congrArg Prod.snd e
    refine { groups := .append fun x hx => ?_ }
    cases x with
    | unit => simp [HostGroup.Holds, OrderedSet.empty, OrderedSet.mem_def] at hx
    | _ => exact hx.elim
  | setSetting id => exact s.derives_modifyGroup id fun _ => rfl
  | setVar id => exact s.derives_modifyGroup id fun _ => rfl
  | setVars id => exact s.derives_modifyGroup id fun _ => rfl
  | constrain id =>
    refine { units := .modify _ fun v x hx => .inl ?_ }
    cases x <;> exact hx
  | record recorded => exact h.derives_record recorded
  | merge =>
    refine { units := .map fun v x hx => .inl ?_ }
    cases x with
    | group => exact hx.imp_left fun hx => (firstOfEach_sublist ..).subset hx
    | _ => exact hx
  | skipFacts =>
    refine { groups := .map fun g x hx => .inl ?_ }
    cases x <;> exact hx
  | inst i _ runbook group =>
    refine { instances := .append fun x hx => ?_ }
    cases x with
    | runbook => exact hx ▸ has_runbook.2 runbook
    | group => exact hx ▸ has_group.2 group
    | _ => exact hx.elim
  | pipeline => exact {}

theorem Grounded.derives_bind (h : s.Grounded) {id : UnitId} {u : WorkUnit} {group : GroupId}
    (declared : s.unit? id = some u) (active : s.currentGroup? = some group) :
    s.Derives ((s.modifyUnit id (·.bind group)).modifyGroup group (·.addMember id)) := by
  have grows := (Move.bind declared active).grows
  refine { units := .modify _ fun v x hx => ?_, groups := .modify _ fun g x hx => ?_ }
  · cases x with
    | group j =>
      rcases hx with hx | hx
      · rcases List.mem_append.1 hx with old | new
        · exact .inl (.inl old)
        · obtain rfl := List.mem_singleton.1 new
          exact .inr (grows.has (h.has_currentGroup active))
      · exact .inl (.inr hx)
    | _ => exact hx.elim
  · cases x with
    | unit j =>
      rcases OrderedSet.mem_insert.1 hx with old | rfl
      · exact .inl old
      · exact .inr (grows.has (has_unit.2 ⟨u, declared⟩))
    | _ => exact hx.elim

theorem derives_enter {kind : ScopeKind} {scopes : Scopes} (h : s.Entered kind scopes) :
    s.Derives { s with scopes } := by
  have grows := (Move.enter h).grows
  have entered {α : Type} {a b : α} {l : List α} {P : Prop} (hb : b ∈ a :: l) (ha : b = a → P) :
      b ∈ l ∨ P := (List.mem_cons.1 hb).elim (fun e => .inr (ha e)) .inl
  refine { scopes := fun x hx => ?_ }
  cases h with
  | session =>
    cases x with
    | session => exact entered hx fun e => e
    | _ => exact .inl hx
  | hostGroup declared =>
    cases x with
    | group => exact entered hx fun e => grows.has (e ▸ has_group.2 ⟨_, declared⟩)
    | _ => exact .inl hx
  | runbook made =>
    cases x with
    | inst => exact entered hx fun e => grows.has (e ▸ has_inst.2 ⟨_, made⟩)
    | _ => exact .inl hx
  | unit declared =>
    cases x with
    | unit => exact entered hx fun e => grows.has (e ▸ has_unit.2 ⟨_, declared⟩)
    | _ => exact .inl hx
  | guard => cases x <;> exact .inl hx

theorem holds_of_exit {kind : ScopeKind} {before after : Scopes} (h : before.exit kind = .ok after)
    {x : Handle} (hx : after.Holds x) : before.Holds x := by
  have left := Scopes.exit_eq_ok h
  have below {α : Type} {a b : α} {l frames : List α} (e : frames = a :: l) (hb : b ∈ l) :
      b ∈ frames := e ▸ List.mem_cons_of_mem a hb
  cases kind with
  | session =>
    obtain ⟨_, _, frames, rfl⟩ := left
    cases x with
    | session => exact below frames hx
    | _ => exact hx
  | hostGroup =>
    obtain ⟨_, _, frames, rfl⟩ := left
    cases x with
    | group => exact below frames hx
    | _ => exact hx
  | runbook =>
    obtain ⟨_, _, frames, rfl⟩ := left
    cases x with
    | inst => exact below frames hx
    | _ => exact hx
  | unit =>
    obtain ⟨_, _, frames, rfl⟩ := left
    cases x with
    | unit => exact below frames hx
    | _ => exact hx
  | guard =>
    obtain ⟨_, _, -, rfl⟩ := left
    cases x <;> exact hx

theorem Grounded.derives (h : s.Grounded) (m : s.Move t) : s.Derives t := by
  cases m with
  | update u => exact h.derives_update u
  | bind declared active => exact h.derives_bind declared active
  | enter entered => exact derives_enter entered
  | leave left => exact { scopes := fun _ hx => .inl (holds_of_exit left hx) }
  | unwind => exact { scopes := fun x hx => .inl (by cases x <;> exact hx) }
  | setFloor => exact {}

theorem Grounded.moves (h : s.Grounded) (m : s.Moves t) : t.Grounded := by
  induction m with
  | refl => exact h
  | tail _ m ih => exact ih.of_derives m.grows (ih.derives m)

theorem grounded_initial (settings : Settings) (passes : List Pass) :
    (initial settings passes).Grounded where
  scopes x hx := by
    cases x with
    | runbook => exact hx.elim
    | _ => exact absurd hx List.not_mem_nil
  units _ hu := absurd hu List.not_mem_nil
  groups _ hg := absurd hg List.not_mem_nil
  runbooks _ hr := absurd hr List.not_mem_nil
  instances _ hi := absurd hi List.not_mem_nil

theorem Arises.grounded (h : s.Arises) : s.Grounded := by
  obtain ⟨settings, passes, moves⟩ := h
  exact (grounded_initial settings passes).moves moves

def Knows (s : Session) : Handle → Prop
  | .session id => id = s.id
  | .unit id => ∃ u, s.unit? id = some u ∧ u.id = id
  | .group id => ∃ g, s.group? id = some g ∧ g.id = id
  | .runbook id => ∃ r, s.runbook? id = some r ∧ r.id = id
  | .inst id => ∃ i, s.instance? id = some i ∧ i.id = id

structure Numbered (s : Session) : Prop where
  runbooks : ∀ id r, s.runbook? id = some r → r.id = id
  instances : ∀ id i, s.instance? id = some i → i.id = id

theorem Numbered.update (h : s.Numbered) (u : Update s t) : t.Numbered := by
  cases u with
  | runbook r id_eq =>
    refine ⟨fun id x hx => ?_, h.instances⟩
    rcases Run.getElem?_concat_eq_some hx with old | ⟨last, rfl⟩
    · exact h.runbooks id x old
    · rw [id_eq, ← last]
  | inst i id_eq =>
    refine ⟨h.runbooks, fun id x hx => ?_⟩
    rcases Run.getElem?_concat_eq_some hx with old | ⟨last, rfl⟩
    · exact h.instances id x old
    · rw [id_eq, ← last]
  | hosts declared =>
    obtain ⟨p, a, e⟩ := addGroup_of_declareHosts declared
    obtain rfl : _ = t := congrArg Prod.snd e
    exact ⟨h.runbooks, h.instances⟩
  | record recorded =>
    obtain ⟨_, _, -, -, rfl⟩ := recordStep_eq_ok recorded
    exact ⟨h.runbooks, h.instances⟩
  | declare | setSetting | setVar | setVars | constrain | merge | skipFacts | pipeline =>
    exact ⟨h.runbooks, h.instances⟩

theorem Numbered.moves (h : s.Numbered) (m : s.Moves t) : t.Numbered := by
  induction m with
  | refl => exact h
  | tail _ m ih =>
    cases m with
    | update u => exact ih.update u
    | bind | enter | leave | unwind | setFloor => exact ⟨ih.runbooks, ih.instances⟩

theorem numbered_initial (settings : Settings) (passes : List Pass) :
    (initial settings passes).Numbered := by
  constructor <;> simp [initial, runbook?, instance?]

theorem Arises.numbered (h : s.Arises) : s.Numbered := by
  obtain ⟨settings, passes, moves⟩ := h
  exact (numbered_initial settings passes).moves moves

theorem Arises.knows (h : s.Arises) {x : Handle} (hx : s.Has x) : s.Knows x := by
  cases x with
  | session => exact hx
  | unit id =>
    obtain ⟨u, hu⟩ := has_unit.1 hx
    exact ⟨u, hu, h.coherent.unit_id id u hu⟩
  | group id =>
    obtain ⟨g, hg⟩ := has_group.1 hx
    exact ⟨g, hg, h.coherent.group_id id g hg⟩
  | runbook id =>
    obtain ⟨r, hr⟩ := has_runbook.1 hx
    exact ⟨r, hr, h.numbered.runbooks id r hr⟩
  | inst id =>
    obtain ⟨i, hi⟩ := has_inst.1 hx
    exact ⟨i, hi, h.numbered.instances id i hi⟩

def Constrained (s : Session) : Prop :=
  ∀ i ∈ s.instances, ∀ id, id ∈ i.before ∨ id ∈ i.after → s.Has (.unit id)

theorem Constrained.of_eq (h : s.Constrained) (instances : t.instances = s.instances)
    (grows : s.Grows t) : t.Constrained := fun i hi id hid =>
  grows.has (h i (instances ▸ hi) id hid)

theorem Constrained.create (h : s.Constrained) (grounded : s.Grounded) {inst : Instance}
    (made : s.Made inst) : (s.addInstance inst).Constrained := by
  have outer (f : Instance → OrderedSet UnitId) {id : UnitId}
      (hid : id ∈ ((s.currentInstance?.bind s.instance?).map f).getD .empty) :
      ∃ i ∈ s.instances, id ∈ f i := by
    cases found : s.currentInstance?.bind s.instance? with
    | none =>
      rw [found] at hid
      exact absurd hid List.not_mem_nil
    | some i =>
      rw [found] at hid
      obtain ⟨j, -, hj⟩ := Option.bind_eq_some_iff.1 found
      exact ⟨i, List.mem_of_getElem? hj, hid⟩
  intro i hi id hid
  rcases List.mem_append.1 hi with old | new
  · exact h i old id hid
  · obtain rfl := List.mem_singleton.1 new
    rw [made.before, made.after] at hid
    rcases hid with before | after
    · obtain ⟨i, hi, hid⟩ := outer Instance.before before
      exact h i hi id (.inl hid)
    · rcases OrderedSet.mem_insertAll.1 after with after | current
      · obtain ⟨i, hi, hid⟩ := outer Instance.after after
        exact h i hi id (.inr hid)
      · exact grounded.has_currentUnit (Option.mem_toList.1 current)

end Session

theorem Run.Stage.constrained {r b : Run} (h : r.Stage b) (hr : r.session.Constrained)
    (grounded : r.session.Grounded) : b.session.Constrained := by
  have grows := h.moves.grows
  cases h with
  | quiet _ quiet => exact hr.of_eq quiet.instances grows
  | record _ recorded =>
    obtain ⟨_, _, -, -, rfl⟩ := Session.recordStep_eq_ok recorded
    exact hr.of_eq rfl grows
  | runbook declared =>
    obtain ⟨_, -, rfl, -⟩ := Session.declareRunbook_eq_ok declared
    exact hr.of_eq rfl grows
  | create made => exact hr.create grounded made
  | log | bind | declare | gather | constrain | merge | reach | plan => exact hr.of_eq rfl grows

theorem Run.Story.constrained {r b : Run} (h : r.Story b) (hr : r.session.Constrained)
    (grounded : r.session.Grounded) : b.session.Constrained := by
  induction h with
  | refl => exact hr
  | tail before last ih => exact last.constrained ih (grounded.moves (Story.moves before))

namespace Session

/-- The places in which handles are kept. -/
inductive Stores (s : Session) : Handle → Prop where
  | sessionScope {id : SessionId} (entered : id ∈ s.scopes.sessions.frames) : Stores s (.session id)
  | groupScope {id : GroupId} (entered : id ∈ s.scopes.hostGroups.frames) : Stores s (.group id)
  | runbookScope {id : InstanceId} (entered : id ∈ s.scopes.runbooks.frames) : Stores s (.inst id)
  | unitScope {id : UnitId} (entered : id ∈ s.scopes.units.frames) : Stores s (.unit id)
  | binding {u : WorkUnit} {id : GroupId} (declared : u ∈ s.units) (bound : id ∈ u.groups) :
      Stores s (.group id)
  | record {u : WorkUnit} {step : Step} {id : GroupId} (declared : u ∈ s.units)
      (recorded : step ∈ u.steps) (under : step.group = some id) : Stores s (.group id)
  | member {g : HostGroup} {id : UnitId} (declared : g ∈ s.groups) (member : id ∈ g.members) :
      Stores s (.unit id)
  | runbookMember {r : Runbook} {id : UnitId} (declared : r ∈ s.runbooks)
      (member : id ∈ r.members.values) : Stores s (.unit id)
  | instanceRunbook {i : Instance} (made : i ∈ s.instances) : Stores s (.runbook i.runbook)
  | instanceGroup {i : Instance} (made : i ∈ s.instances) : Stores s (.group i.group)
  | instanceBefore {i : Instance} {id : UnitId} (made : i ∈ s.instances) (before : id ∈ i.before) :
      Stores s (.unit id)
  | instanceAfter {i : Instance} {id : UnitId} (made : i ∈ s.instances) (after : id ∈ i.after) :
      Stores s (.unit id)

theorem Grounded.has {s : Session} (h : s.Grounded) (constrained : s.Constrained) {x : Handle}
    (hx : s.Stores x) : s.Has x := by
  cases hx with
  | sessionScope entered => exact h.scopes _ entered
  | groupScope entered => exact h.scopes _ entered
  | runbookScope entered => exact h.scopes _ entered
  | unitScope entered => exact h.scopes _ entered
  | binding declared bound => exact h.units _ declared _ (.inl bound)
  | record declared recorded under => exact h.units _ declared _ (.inr ⟨_, recorded, under⟩)
  | member declared member => exact h.groups _ declared _ member
  | runbookMember declared member => exact h.runbooks _ declared _ member
  | instanceRunbook made => exact h.instances _ made _ rfl
  | instanceGroup made => exact h.instances _ made _ rfl
  | instanceBefore made before => exact constrained _ made _ (.inl before)
  | instanceAfter made after => exact constrained _ made _ (.inr after)

end Session

theorem Run.Story.knows {settings : Settings} {passes : List Pass} {r : Run}
    (h : Story ⟨.initial settings passes, []⟩ r) {x : Handle} (hx : r.session.Stores x) :
    r.session.Knows x := by
  have arises : r.session.Arises := ⟨settings, passes, h.moves⟩
  have constrained := h.constrained (fun _ hi => absurd hi List.not_mem_nil)
    (Session.grounded_initial settings passes)
  exact arises.knows (arises.grounded.has constrained hx)

/-- Every session that a script comes by stands at some stage of a story. -/
theorem Session.exists_story_of_mem_states {settings : Settings} {passes : List Pass} {bound : Nat}
    {script : Block} {t : Session} (h : t ∈ (initial settings passes).states bound script) :
    ∃ r, Run.Story ⟨initial settings passes, []⟩ r ∧ r.session = t := by
  rcases List.mem_cons.1 h with rfl | told
  · exact ⟨_, .refl, rfl⟩
  · obtain ⟨e, he, rfl⟩ := List.mem_map.1 told
    obtain ⟨same, r, story, entries⟩ :=
      Traced.run_told _ bound script (sheltered_initial settings passes)
    rw [← same] at he
    have noted : e ∈ r.journal := by
      have := List.mem_of_mem_filter he
      rwa [entries, List.mem_reverse] at this
    obtain ⟨later, earlier, split⟩ := List.append_of_mem noted
    have told := (story.at_entry (split ▸ List.suffix_append later _)).resolve_left (by simp)
    exact ⟨_, told, rfl⟩

end Playbook
