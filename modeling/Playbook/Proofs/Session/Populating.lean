import Playbook.Proofs.Session.Accumulation
import Playbook.Proofs.Session.Calling

/-! Members that do nothing but record steps. An instance turns to each of them in their order,
resolves its names, binds it and runs it; a member of which a name has no bearer is where it stops.
The names are looked up among the members of the runbook and nowhere else, so it does not matter to
a member which of the others have had their turn. -/

namespace Playbook

namespace Session
variable {s t w : Session} {id : UnitId}

def StepsAdded (s : Session) (id : UnitId) (t : Session) : Prop :=
  ∃ steps nextRegister, t = { s.modifyUnit id fun u => { u with steps := u.steps ++ steps } with
    nextRegister }

namespace StepsAdded

theorem refl (s : Session) (j : UnitId) : s.StepsAdded j s := by
  have same : (fun u : WorkUnit => { u with steps := u.steps ++ [] }) = fun u => u := by
    funext u
    rw [List.append_nil]
  have kept : s.units.modify j.index (fun u => u) = s.units := List.modify_id ..
  exact ⟨[], s.nextRegister, by rw [same, modifyUnit, kept]⟩

theorem trans (h : s.StepsAdded id t) (h' : t.StepsAdded id w) : s.StepsAdded id w := by
  obtain ⟨first, _, rfl⟩ := h
  obtain ⟨second, nextRegister, rfl⟩ := h'
  refine ⟨first ++ second, nextRegister, ?_⟩
  simp only [modifyUnit, List.modify_modify_eq]
  congr 2
  funext u
  simp [Function.comp]

theorem settings_eq (h : s.StepsAdded id t) : t.settings = s.settings := by
  obtain ⟨_, _, rfl⟩ := h
  rfl

theorem scopes_eq (h : s.StepsAdded id t) : t.scopes = s.scopes := by
  obtain ⟨_, _, rfl⟩ := h
  rfl

theorem known (h : s.StepsAdded id t) {u : WorkUnit} (hu : s.unit? id = some u) :
    ∃ v, t.unit? id = some v := by
  obtain ⟨steps, _, rfl⟩ := h
  have kept := s.unit?_modifyUnit id id fun u => { u with steps := u.steps ++ steps }
  rw [hu] at kept
  exact ⟨_, kept⟩

end StepsAdded

theorem stepsAdded_recordStep {action : String} {args : Value} {edits : List StepEdit} {step : Step}
    (active : s.currentUnit? = some id) (h : s.recordStep action args edits = .ok (step, t)) :
    s.StepsAdded id t := by
  obtain ⟨j, _, current, -, rfl⟩ := recordStep_eq_ok h
  obtain rfl := Option.some.inj (current.symm.trans active)
  exact ⟨[step], s.nextRegister + 1, rfl⟩

end Session

namespace Exec
open Session
variable {α β : Type} {settings : Settings}

/-- Wherever a unit is active under the settings, the action comes to its end, and all it does is
that the unit records steps. -/
def Records (settings : Settings) (act : Exec α) : Prop :=
  ∀ r id u, r.session.settings = settings → r.session.currentUnit? = some id →
    r.session.unit? id = some u →
    act.Ends r (fun _ b => r.session.StepsAdded id b.session) (fun _ _ => False) fun _ => False

namespace Records

theorem pure (a : α) : (Pure.pure a : Exec α).Records settings := fun r id _ _ _ _ =>
  .refl r.session id

theorem bind {act : Exec β} {f : β → Exec α} (h : act.Records settings)
    (rest : ∀ b, (f b).Records settings) : (act >>= f).Records settings := by
  intro r id u same active known
  rw [ends_bind]
  refine (h r id u same active known).imp (fun a b before => ?_) (fun _ _ h => h) fun _ h => h
  obtain ⟨v, kept⟩ := before.known known
  have active' : b.session.currentUnit? = some id := by
    rw [currentUnit?, before.scopes_eq]
    exact active
  exact (rest a b id v (before.settings_eq.trans same) active' kept).imp
    (fun _ _ after => before.trans after) (fun _ _ h => h) fun _ h => h

theorem map {act : Exec β} (h : act.Records settings) (f : β → α) :
    (f <$> act).Records settings := fun r id u same active known => by
  rw [ends_map]
  exact h r id u same active known

theorem foldlM {f : β → α → Exec β} (h : ∀ b a, (f b a).Records settings) (l : List α) (b : β) :
    (l.foldlM f b).Records settings := by
  induction l generalizing b with
  | nil => exact pure b
  | cons a l ih =>
    rw [List.foldlM_cons]
    exact (h b a).bind ih

theorem session {f : Session → Exec α} (h : ∀ s, (f s).Records settings) :
    (Exec.session >>= f).Records settings := fun r => h r.session r

theorem recordStep (action : String) (args : Value) (edits : List StepEdit) :
    (Exec.recordStep action args edits).Records settings := by
  intro r id u _ active known
  rw [Exec.recordStep, ends_bind, ends_perform, recordStep_of_active active known]
  exact stepsAdded_recordStep active (recordStep_of_active active known action args edits)

theorem note {act : Exec Answer} (h : act.Records settings) (statement : Stmt) :
    (Exec.note statement act).Records settings := fun r id u same active known => by
  rw [ends_note]
  exact h r id u same active known

end Records
end Exec

def Stmt.isStep : Stmt → Bool
  | .step .. | .varStep .. | .patternStep .. => true
  | _ => false

namespace Exec
variable {settings : Settings} {call : Block → Exec Unit}

theorem records_step {t : Stmt} (h : t.isStep = true) : (step call t).Records settings := by
  cases t with
  | step action args count edits =>
    exact .map (.foldlM (fun _ _ => .map (.recordStep action args edits) some) _ none) _
  | varStep action name edits => exact .session fun s => .map (.recordStep action _ edits) _
  | patternStep action edits => exact .session fun s => .map (.recordStep action _ edits) _
  | _ => cases h

theorem records_runBlock {block : Block} (h : ∀ t ∈ block, t.isStep = true) :
    (runBlock call block).Records settings := by
  induction block with
  | nil => exact .pure ()
  | cons t ts ih =>
    obtain ⟨first, rest⟩ := List.forall_mem_cons.1 h
    exact ((records_step first).note t).bind fun _ => ih rest

end Exec

/-- The body records steps and does nothing else; its nesting stays within the bound. -/
def Body.OnlyRecords (bound : Nat) (settings : Settings) (body : Body) : Prop :=
  (Exec.runBody (runWithin bound) body).Records settings

theorem Body.onlyRecords_step (bound : Nat) (settings : Settings) (action : String) (args : Value) :
    (Body.step action args).OnlyRecords bound settings :=
  .map (.recordStep action args []) _

theorem Body.onlyRecords_script (bound : Nat) (settings : Settings) {block : Block}
    (h : ∀ t ∈ block, t.isStep = true) : (Body.script block).OnlyRecords (bound + 1) settings :=
  Exec.records_runBlock h

namespace Session
variable {s t w : Session} {x : Runbook} {inst : Instance} {ids : List UnitId}

inductive Misses (s : Session) (x : Runbook) (ids : List UnitId) : Error → Prop
  | name {id : UnitId} {u : WorkUnit} {n : String} (member : id ∈ ids)
      (known : s.unit? id = some u) (named : .named n ∈ u.before ∨ .named n ∈ u.after)
      (none : x.members.get? n = none) : Misses s x ids (.unresolved x.name u.name n)

structure Reaching (x : Runbook) (inst : Instance) (u v : WorkUnit) : Prop where
  name : v.name = u.name
  bound : v.groups ≠ []
  constraints : ∃ before after,
    x.resolve u.name u.before = .ok before ∧ x.resolve u.name u.after = .ok after ∧
      v.before = before.insertAll (inst.before.toList.map .unit) ∧
      v.after = after.insertAll (inst.after.toList.map .unit)

/-- The members have had their turn, and all else is as it was, apart from the members of host
groups and the count of variables. -/
structure Populates (s : Session) (x : Runbook) (inst : Instance) (ids : List UnitId)
    (t : Session) : Prop where
  settings : t.settings = s.settings
  scopes : t.scopes = s.scopes
  length : t.units.length = s.units.length
  other : ∀ j, j ∉ ids → t.unit? j = s.unit? j
  member : ∀ j ∈ ids, ∀ u, s.unit? j = some u → ∃ v, t.unit? j = some v ∧ Reaching x inst u v

theorem Populates.refl (s : Session) (x : Runbook) (inst : Instance) : s.Populates x inst [] s :=
  ⟨rfl, rfl, rfl, fun _ _ => rfl, fun _ hj => absurd hj List.not_mem_nil⟩

theorem Populates.cons {id : UnitId} (h : s.Populates x inst [id] t)
    (rest : t.Populates x inst ids w) (apart : id ∉ ids) : s.Populates x inst (id :: ids) w where
  settings := rest.settings.trans h.settings
  scopes := rest.scopes.trans h.scopes
  length := rest.length.trans h.length
  other j hj := by
    rw [List.mem_cons, not_or] at hj
    exact (rest.other j hj.2).trans (h.other j (by simpa using hj.1))
  member j hj u hu := by
    rcases List.mem_cons.1 hj with rfl | hj
    · rw [rest.other j apart]
      exact h.member j (List.mem_singleton_self j) u hu
    · have unmoved : j ∉ [id] := fun same => apart (List.mem_singleton.1 same ▸ hj)
      exact rest.member j hj u ((h.other j unmoved).trans hu)

end Session

namespace Exec
open Session
variable {call : Block → Exec Unit} {x : Runbook} {inst : Instance} {r : Run} {id : UnitId}

theorem ends_invokeMember_of_records {u : WorkUnit} {group : GroupId}
    (known : r.session.unit? id = some u) (active : r.session.currentGroup? = some group)
    (records : (runBody call u.body).Records r.session.settings) :
    (invokeMember call x inst id).Ends r (fun _ b => r.session.Populates x inst [id] b.session)
      (fun e _ => r.session.Misses x [id] e) fun _ => False := by
  refine Ends.invokeMember known
    (fun n named none => .name (List.mem_singleton_self id) known named none)
    fun before after hb ha => ?_
  let s := r.session.constrainMember inst id before after
  let v : WorkUnit := { u with
    before := before.insertAll (inst.before.toList.map .unit)
    after := after.insertAll (inst.after.toList.map .unit) }
  have constrained : s.unit? id = some v := by
    simp [s, v, constrainMember, unit?_modifyUnit, known]
  refine Ends.invoke_ok (u := v) constrained active ?_
  have begun : (s.begin id group).unit? id = some (v.bind group) := unit?_begin constrained group
  refine (records (r.on (s.begin id group)) id (v.bind group) rfl rfl begun).imp ?_
    (fun _ _ h => h.elim) fun _ h => h
  rintro _ b ⟨steps, nextRegister, recorded⟩
  refine ⟨r.session.scopes, by rw [recorded]; rfl, Nat.le_refl _, ?_⟩
  -- three changes of the same unit, one after another
  have units (j : UnitId) : b.session.unit? j = (r.session.unit? j).map fun w => if id = j then
      { (WorkUnit.bind { w with
          before := before.insertAll (inst.before.toList.map .unit)
          after := after.insertAll (inst.after.toList.map .unit) } group) with
        steps := w.steps ++ steps } else w := by
    rw [recorded]
    show ((((r.session.constrainMember inst id before after).modifyUnit id
      (·.bind group)).modifyUnit id fun w => { w with steps := w.steps ++ steps }).unit? j) = _
    simp only [constrainMember, unit?_modifyUnit, Option.map_map]
    congr 1
    funext w
    by_cases h : id = j <;> simp [h, WorkUnit.bind]
  refine ⟨by rw [recorded]; rfl, ?_, ?_, fun j hj => ?_, fun j hj w hw => ?_⟩
  · show { r.session.scopes with
      guards := r.session.scopes.guards.unwindTo r.session.scopes.guards.depth } = r.session.scopes
    rw [ScopeStack.unwindTo_depth]
  · show b.session.units.length = _
    rw [recorded]
    simp [s, Session.begin, modifyUnit, modifyGroup, constrainMember]
  · show b.session.unit? j = _
    have other : id ≠ j := fun same => hj (same ▸ List.mem_singleton_self id)
    rw [units]
    simp [other]
  · obtain rfl : id = j := (List.mem_singleton.1 hj).symm
    obtain rfl := Option.some.inj (known.symm.trans hw)
    have reached := units id
    rw [known, Option.map_some, if_pos rfl] at reached
    exact ⟨_, reached, rfl, by simp [WorkUnit.bind], before, after, hb, ha, rfl, rfl⟩

/-- The members have their turns one after another. A name of theirs that nobody bears ends it, and
that is the only thing that can. -/
theorem ends_forM_invokeMember {ids : List UnitId} (distinct : ids.Nodup)
    (active : r.session.currentGroup? ≠ none)
    (members : ∀ j ∈ ids, ∃ u, r.session.unit? j = some u ∧
      (runBody call u.body).Records r.session.settings) :
    (ids.forM (invokeMember call x inst)).Ends r
      (fun _ b => r.session.Populates x inst ids b.session)
      (fun e _ => r.session.Misses x ids e) fun _ => False := by
  induction ids generalizing r with
  | nil => exact .refl r.session x inst
  | cons id ids ih =>
    obtain ⟨apart, distinct⟩ := List.nodup_cons.1 distinct
    obtain ⟨⟨u, known, records⟩, others⟩ := List.forall_mem_cons.1 members
    obtain ⟨group, current⟩ := Option.ne_none_iff_exists'.1 active
    have unfolded : (id :: ids).forM (invokeMember call x inst) = (do
      invokeMember call x inst id
      ids.forM (invokeMember call x inst)) := rfl
    rw [unfolded, ends_bind]
    refine (ends_invokeMember_of_records known current records).imp (fun _ b first => ?_)
      (fun e _ misses => ?_) fun _ h => h
    · have same (j : UnitId) (hj : j ∈ ids) : b.session.unit? j = r.session.unit? j :=
        first.other j fun e => apart (List.mem_singleton.1 e ▸ hj)
      have active' : b.session.currentGroup? ≠ none := by
        rw [currentGroup?, first.scopes]
        exact active
      refine (ih distinct active' fun j hj => ?_).imp (fun _ _ rest => first.cons rest apart)
        (fun e _ misses => ?_) fun _ h => h
      · rw [same j hj, first.settings]
        exact others j hj
      · obtain ⟨member, known, named, none⟩ := misses
        exact .name (List.mem_cons_of_mem _ member) (same _ member ▸ known) named none
    · obtain ⟨member, known, named, none⟩ := misses
      exact .name (List.mem_singleton.1 member ▸ List.mem_cons_self ..) known named none

end Exec
end Playbook
