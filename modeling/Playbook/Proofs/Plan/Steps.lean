import Playbook.Proofs.Plan.Order

/-! Which steps come out in a plan. A step belongs to the host group that was active when it was
recorded, and its unit has plays for the groups that it is bound to; so a step is left out exactly
when its unit is not bound to the step's own group. -/

namespace Playbook

namespace Exec
variable {call : Block → Exec Unit}

theorem ends_inSession_pure {α : Type} (a : α) {r : Run} {done : α → Run → Prop}
    {failed : Error → Run → Prop} {stopped : Run → Prop} :
    (inSession (pure a)).Ends r done failed stopped ↔ done a r := by
  simp only [inSession, within, ends_bind, ends_session, ends_update, ends_settle, ends_pure,
    ends_leave, ends_ofExcept_ok]
  rfl

end Exec

namespace Session
variable {s : Session} {p : Plan} {id : UnitId} {u : WorkUnit} {step : Step} {order : List UnitId}

end Session
end Playbook
