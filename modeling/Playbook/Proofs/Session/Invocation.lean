import Playbook.Proofs.Session.Moves

/-! What an action does where nothing goes wrong, followed one piece after another: a scope that is
left again, a host group that is declared for a block, a unit that runs to its end, and the step
that a running unit records. -/

namespace Playbook

/-- A step of the unit by what is known of it beforehand: the name of its variable, its host group
and the open conditions. -/
def WorkUnit.newStep (u : WorkUnit) (register : String) (group : Option GroupId)
    (conditions : List String) (action : String) (args : Value) : Step :=
  let tags := (u.stepSettings.get? "tags").getD (.texts [u.shortName])
  let settings : Attributes := .ofList [("register", .text register), ("tags", tags)]
  let settings :=
    if conditions.isEmpty then settings else settings.insert "when" (.texts conditions)
  { action, args, settings, vars := .empty, register, group }

namespace Session
variable {s : Session} {id : UnitId} {u : WorkUnit}

def freshStep (s : Session) (u : WorkUnit) (action : String) (args : Value) : Step :=
  u.newStep (registerName s.nextRegister) s.currentGroup? s.scopes.guards.toList action args

theorem recordStep_of_active (active : s.currentUnit? = some id) (hu : s.unit? id = some u)
    (action : String) (args : Value) (edits : List StepEdit) :
    s.recordStep action args edits = .ok (edits.foldl Step.edit (s.freshStep u action args),
      { s.modifyUnit id (·.record (edits.foldl Step.edit (s.freshStep u action args))) with
        nextRegister := s.nextRegister + 1 }) := by
  have none : s.scopes.guards.isEmpty = s.scopes.guards.toList.isEmpty :=
    (List.isEmpty_reverse ..).symm
  simp only [recordStep, getUnit, active, hu, none]
  rfl

end Session

namespace Exec
open Session
variable {α : Type} {call : Block → Exec Unit} {r : Run} {done : α → Run → Prop}
  {failed : Error → Run → Prop} {stopped : Run → Prop}

theorem Ends.within_left {act : Exec α} {kind : ScopeKind} {enter : Scopes → Scopes}
    (block : act.Ends (r.on { r.session with scopes := enter r.session.scopes })
      (fun a b => ∃ left, b.session.scopes.exit kind = .ok left ∧
        done a (b.on { b.session with scopes := left }))
      (fun e b => ∃ left, b.session.scopes.exit kind = .ok left ∧
        failed e (b.on { b.session with scopes := left })) stopped) :
    (Exec.within kind enter act).Ends r done failed stopped := by
  simp only [Exec.within, ends_bind, ends_update, ends_settle]
  refine block.imp ?_ ?_ fun _ hs => hs
  · rintro a b ⟨left, hl, hd⟩
    simpa [ends_leave, hl] using hd
  · rintro e b ⟨left, hl, hf⟩
    simpa [ends_leave, hl] using hf

theorem Ends.within_ok {act : Exec α} {kind : ScopeKind} {enter : Scopes → Scopes}
    (block : act.Ends (r.on { r.session with scopes := enter r.session.scopes })
      (fun a b => ∃ left, b.session.scopes.exit kind = .ok left ∧
        done a (b.on { b.session with scopes := left }))
      (fun _ _ => False) stopped) :
    (Exec.within kind enter act).Ends r done failed stopped :=
  Ends.within_left (block.imp (fun _ _ h => h) (fun _ _ h => h.elim) fun _ hs => hs)

theorem Ends.withHosts_ok {act : Exec α} {pattern : Option String} {settings : Attributes}
    {id : GroupId} {t : Session} {g : HostGroup}
    (declared : r.session.declareHosts pattern settings = .ok (id, t))
    (known : t.group? id = some g)
    (block : act.Ends
      (r.on { t with scopes := { t.scopes with hostGroups := t.scopes.hostGroups.enter id } })
      (fun a b => ∃ left, b.session.scopes.exit .hostGroup = .ok left ∧
        done a (b.on { b.session with scopes := left }))
      (fun _ _ => False) stopped) :
    (withHosts pattern settings act).Ends r done failed stopped := by
  rw [Exec.withHosts, ends_bind, ends_perform, declared, ends_ofExcept_ok, Exec.inGroup, ends_bind,
    ends_discard, ends_query, Session.getGroup]
  simp only [Run.on_session, known, ends_ofExcept_ok]
  refine Ends.within_ok ?_
  exact block

theorem Ends.withHosts_refused {act : Exec α} {pattern : Option String} {settings : Attributes}
    {e : Error} (refused : r.session.declareHosts pattern settings = .error e) (h : failed e r) :
    (withHosts pattern settings act).Ends r done failed stopped := by
  rw [Exec.withHosts, ends_bind, ends_perform, refused]
  exact h

theorem Ends.invoke_ok {id : UnitId} {u : WorkUnit} {group : GroupId} {done : Unit → Run → Prop}
    (declared : r.session.unit? id = some u) (active : r.session.currentGroup? = some group)
    (body : (runBody call u.body).Ends (r.on (r.session.begin id group))
      (fun _ b => ∃ left, b.session.scopes.exit .unit = .ok left ∧
        left.guards.depth ≤ r.session.scopes.guards.depth ∧
        done () (b.on (r.session.finish { b.session with scopes := left })))
      (fun _ _ => False) stopped) :
    (invoke call id).Ends r done failed stopped := by
  simp only [Exec.invoke, ends_bind, ends_session, Session.getUnit, declared, active,
    ends_ofExcept_ok, ends_update, ends_settle]
  refine Ends.within_ok ?_
  refine body.imp ?_ (fun _ _ h => h.elim) fun _ hs => hs
  rintro _ b ⟨left, hl, closed, hd⟩
  refine ⟨left, hl, ?_⟩
  split
  · rename_i opened
    simp only [Run.on_session] at opened
    omega
  · exact hd

theorem Ends.invoke_step {id : UnitId} {u : WorkUnit} {group : GroupId} {action : String}
    {args : Value} {done : Unit → Run → Prop} (declared : r.session.unit? id = some u)
    (body : u.body = .step action args) (active : r.session.currentGroup? = some group)
    (h : done () (r.on { r.session with
      units := r.session.units.modify id.index fun v =>
        (v.bind group).record (r.session.freshStep u action args)
      groups := r.session.groups.modify group.index (·.addMember id)
      nextRegister := r.session.nextRegister + 1 })) :
    (invoke call id).Ends r done failed stopped := by
  refine Ends.invoke_ok declared active ?_
  have bound : (r.session.begin id group).unit? id = some (u.bind group) :=
    unit?_begin declared group
  simp only [body, runBody, recordStep, ends_discard, ends_bind, ends_perform, ends_pure,
    Run.on_session]
  rw [recordStep_of_active rfl bound, ends_ofExcept_ok]
  refine ⟨r.session.scopes, rfl, Nat.le_refl _, ?_⟩
  simp only [begin, modifyUnit, modifyGroup, ScopeStack.unwindTo_depth, finish,
    List.modify_modify_eq]
  exact h

end Exec
end Playbook
