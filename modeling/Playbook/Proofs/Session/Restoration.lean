import Playbook.Proofs.Session.Guards

/-! Leaving what was entered. However a statement ends, with an answer or with an error, the stacks
of sessions, host groups, runbook instances and units are those it started with, and so is the
floor below which no condition may be closed. Conditions are another matter: a block may open some
that outlive it. -/

namespace Playbook

namespace Session

/-- `t` has the open scopes of `s`, conditions apart, and its floor. -/
structure Restored (s t : Session) : Prop where
  sessions : t.scopes.sessions = s.scopes.sessions
  hostGroups : t.scopes.hostGroups = s.scopes.hostGroups
  runbooks : t.scopes.runbooks = s.scopes.runbooks
  units : t.scopes.units = s.scopes.units
  guardFloor : t.guardFloor = s.guardFloor

namespace Restored
variable {s t u : Session}

theorem of_eq (scopes : t.scopes = s.scopes) (floor : t.guardFloor = s.guardFloor) :
    s.Restored t := by
  constructor <;> simp only [scopes, floor]

theorem refl (s : Session) : s.Restored s := of_eq rfl rfl

theorem of_update (h : s.Update t) : s.Restored t :=
  of_eq h.scopes_and_floor.1 h.scopes_and_floor.2

theorem trans (hst : s.Restored t) (htu : t.Restored u) : s.Restored u where
  sessions := htu.sessions.trans hst.sessions
  hostGroups := htu.hostGroups.trans hst.hostGroups
  runbooks := htu.runbooks.trans hst.runbooks
  units := htu.units.trans hst.units
  guardFloor := htu.guardFloor.trans hst.guardFloor

theorem openGuard (s : Session) (condition : String) : s.Restored (s.openGuard condition) :=
  ⟨rfl, rfl, rfl, rfl, rfl⟩

theorem leaveGuard {scopes : Scopes} (h : s.scopes.exit .guard = .ok scopes) :
    s.Restored { s with scopes } := by
  obtain ⟨_, _, -, rfl⟩ := Scopes.exit_eq_ok h
  exact ⟨rfl, rfl, rfl, rfl, rfl⟩

theorem scope {kind : ScopeKind} {entered left : Scopes} (notGuard : kind ≠ .guard)
    (enter : s.Entered kind entered) (block : Restored { s with scopes := entered } t)
    (leave : t.scopes.exit kind = .ok left) : s.Restored { t with scopes := left } := by
  obtain ⟨sessions, hostGroups, runbooks, units, floor⟩ := block
  have popped := Scopes.exit_eq_ok leave
  cases enter with
  | guard => exact absurd rfl notGuard
  | session =>
    obtain ⟨_, rest, frames, rfl⟩ := popped
    rw [sessions] at frames
    obtain ⟨-, rfl⟩ := List.cons.inj frames
    exact ⟨rfl, hostGroups, runbooks, units, floor⟩
  | hostGroup =>
    obtain ⟨_, rest, frames, rfl⟩ := popped
    rw [hostGroups] at frames
    obtain ⟨-, rfl⟩ := List.cons.inj frames
    exact ⟨sessions, rfl, runbooks, units, floor⟩
  | runbook =>
    obtain ⟨_, rest, frames, rfl⟩ := popped
    rw [runbooks] at frames
    obtain ⟨-, rfl⟩ := List.cons.inj frames
    exact ⟨sessions, hostGroups, rfl, units, floor⟩
  | unit =>
    obtain ⟨_, rest, frames, rfl⟩ := popped
    rw [units] at frames
    obtain ⟨-, rfl⟩ := List.cons.inj frames
    exact ⟨sessions, hostGroups, runbooks, rfl, floor⟩

theorem invoked {id : UnitId} {group : GroupId} {left : Scopes}
    (body : (s.begin id group).Restored t) (leave : t.scopes.exit .unit = .ok left) :
    s.Restored (s.finish { t with scopes := left }) := by
  obtain ⟨_, rest, frames, rfl⟩ := Scopes.exit_eq_ok leave
  rw [body.units] at frames
  obtain ⟨-, rfl⟩ := List.cons.inj frames
  exact ⟨body.sessions, body.hostGroups, body.runbooks, rfl, rfl⟩

end Restored
end Session

/-- The induction goes along the nesting of the run: what stands between the entering and the
leaving of a scope is itself a course. -/
theorem Run.Course.restored {r a : Run} (h : Course r a) : r.session.Restored a.session := by
  induction h with
  | refl => exact .refl _
  | update _ hu ih => exact ih.trans (.of_update hu)
  | log _ _ _ ih => exact ih
  | @scope _ _ _ kind _ _ _ hk enter _ leave ih ihb =>
    have notGuard : kind ≠ .guard := by rcases hk with rfl | rfl | rfl <;> decide
    exact ih.trans (.scope notGuard enter ihb leave)
  | openGuard _ condition ih => exact ih.trans (.openGuard _ condition)
  | closeGuard _ _ leave ih => exact ih.trans (.leaveGuard leave)
  | underGuard _ condition _ _ _ leave ih ihb =>
    exact ih.trans (((Session.Restored.openGuard _ condition).trans ihb).trans (.leaveGuard leave))
  | invoke _ _ _ _ _ leave ih ihb => exact ih.trans (.invoked ihb leave)

namespace Session
variable {s : Session}

theorem units_of_entered {kind : ScopeKind} {scopes : Scopes} (enter : s.Entered kind scopes)
    (hk : kind = .session ∨ kind = .hostGroup ∨ kind = .runbook) :
    scopes.units = s.scopes.units := by
  cases enter with
  | session | hostGroup | runbook | guard => rfl
  | unit => simp at hk

end Session

namespace Run
open Session
variable {r a : Run} {id : UnitId} {Owed : List GroupId → Session → Prop}

/-- What is owed under more groups while the unit `id` is running under them, innermost first, and
has been met for a group when the body has come to its end there. Where the unit is not running at
all, it is not active either. -/
structure Obligation (id : UnitId) (Owed : List GroupId → Session → Prop) : Prop where
  update {running : List GroupId} {s t : Session} (owed : Owed running s) (h : s.Update t)
    (idle : running = [] → s.currentUnit? ≠ some id) : Owed running t
  scopes {running : List GroupId} {s : Session} {scopes : Scopes} {floor : Nat}
    (owed : Owed running s) (moves : s.Moves { s with scopes, guardFloor := floor }) :
    Owed running { s with scopes, guardFloor := floor }
  other {running : List GroupId} {s : Session} {i : UnitId} {group : GroupId}
    (owed : Owed running s) (other : i ≠ id) (moves : s.Moves (s.begin i group)) :
    Owed running (s.begin i group)
  own {running : List GroupId} {s : Session} {u : WorkUnit} {group : GroupId}
    (owed : Owed running s) (declared : s.unit? id = some u) (moves : s.Moves (s.begin id group)) :
    Owed (group :: running) (s.begin id group)
  met {running : List GroupId} {a b : Run} {u : WorkUnit} {group : GroupId}
    (owed : Owed running a.session) (declared : a.session.unit? id = some u)
    (active : a.session.currentGroup? = some group) {bound : Nat}
    (ran : (Exec.runBody (runWithin bound) u.body).Concludes (a.on (a.session.begin id group)) b)
    (body : Course (a.on (a.session.begin id group)) b)
    (ended : Owed (group :: running) b.session) : Owed running b.session

/-- The induction is on the course. Where the unit itself is invoked, its body is run with one group
more under which the unit is running. -/
theorem Obligation.course (obligation : Obligation id Owed) (h : Course r a)
    {running : List GroupId} (owed : Owed running r.session)
    (idle : running = [] → id ∉ r.session.scopes.units.frames) : Owed running a.session := by
  induction h generalizing running with
  | refl => exact owed
  | update before hu ih =>
    refine obligation.update (ih owed idle) hu fun none active => idle none ?_
    rw [← before.restored.units]
    exact List.mem_of_mem_head? active
  | log _ _ _ ih => exact ih owed idle
  | scope before hk enter _ leave ih ihb =>
    have entered := obligation.scopes (ih owed idle) (.single (.enter enter))
    refine obligation.scopes (ihb entered fun none => ?_) (.single (.leave leave))
    rw [on_session, units_of_entered enter hk, before.restored.units]
    exact idle none
  | openGuard _ condition ih =>
    exact obligation.scopes (ih owed idle) (.single (.enter (.guard condition)))
  | closeGuard _ _ leave ih => exact obligation.scopes (ih owed idle) (.single (.leave leave))
  | underGuard before condition _ _ _ leave ih ihb =>
    have opened := obligation.scopes (ih owed idle) (.single (.enter (.guard condition)))
    refine obligation.scopes (ihb opened fun none => ?_) (.single (.leave leave))
    exact before.restored.units ▸ idle none
  | @invoke _ a b i _ group left before declared active _ ran body leave ih ihb =>
    have start := ih owed idle
    have begun := (Path.begin declared active).moves
    have ended : Owed running b.session := by
      by_cases same : i = id
      · subst same
        exact obligation.met start declared active ran body
          (ihb (obligation.own start declared begun) nofun)
      · refine ihb (obligation.other start same begun) fun none => ?_
        refine List.not_mem_cons_of_ne_of_not_mem (Ne.symm same) ?_
        exact before.restored.units ▸ idle none
    have finish : b.session.Moves (a.session.finish { b.session with scopes := left }) :=
      ((Relation.ReflTransGen.single (.leave leave)).tail (.setFloor a.session.guardFloor)).tail
        (.unwind a.session.scopes.guards.depth)
    exact obligation.scopes (s := b.session) ended finish

theorem Trail.units_suffix (h : Trail r a) :
    r.session.scopes.units.frames <:+ a.session.scopes.units.frames := by
  induction h with
  | course h => exact h.restored.units ▸ List.suffix_rfl
  | scope before hk enter _ ih =>
    rw [on_session, units_of_entered enter hk] at ih
    rwa [← before.restored.units]
  | invoke before _ _ _ ih =>
    rw [← before.restored.units]
    exact (List.suffix_cons ..).trans ih

theorem Obligation.trail (obligation : Obligation id Owed) (h : Trail r a)
    (owed : Owed [] r.session) (idle : id ∉ a.session.scopes.units.frames) :
    Owed [] a.session := by
  have absent {r : Run} (h : Trail r a) : id ∉ r.session.scopes.units.frames :=
    fun active => idle (h.units_suffix.subset active)
  induction h with
  | course h => exact obligation.course h owed fun _ => absent (.course h)
  | scope before hk enter rest ih =>
    have start := obligation.course before owed fun _ => absent (.scope before hk enter rest)
    exact ih (obligation.scopes start (.single (.enter enter))) idle absent
  | @invoke _ _ b i _ group before declared active rest ih =>
    have start := obligation.course before owed fun _ =>
      absent (.invoke before declared active rest)
    have other : i ≠ id := fun e =>
      idle (e ▸ rest.units_suffix.subset (List.mem_cons_self ..))
    exact ih (obligation.other start other (Path.begin declared active).moves) idle absent

end Run

namespace Exec
variable {α : Type}

/-- Whether the action ends well or fails, it comes back to the scopes that it found. -/
def Restores (act : Exec α) : Prop :=
  ∀ r, act.Ends r (fun _ a => r.session.Restored a.session)
    (fun _ a => r.session.Restored a.session) fun _ => True

theorem Tame.restores {act : Exec α} (h : act.Tame) : act.Restores := fun r =>
  (h r).imp (fun _ _ => Run.Course.restored) (fun _ _ => Run.Course.restored) fun _ _ => trivial

theorem restores_underGuard {act : Exec Unit} (h : act.Tame) (condition : String) :
    (underGuard condition act).Restores := fun r => by
  have opened := Session.Restored.openGuard r.session condition
  exact Ends.within
    ((h _).imp (fun _ _ hb => opened.trans hb.restored) (fun _ _ hb => opened.trans hb.restored)
      fun _ _ => trivial)
    (fun _ _ hb hl => hb.trans (.leaveGuard hl)) fun _ _ => trivial

/-- Whatever it runs, nested units, runbooks and passes included, each statement comes back to the
scopes that it found, and so do building the graph and planning. -/
theorem restores_step (bound : Nat) :
    (∀ t, (step (runWithin bound) t).Restores) ∧ (buildGraph (runWithin bound)).Restores ∧
      (plan (runWithin bound)).Restores := by
  have tame := tame_runWithin bound
  refine ⟨fun t => ?_, (tame_buildGraph tame).restores, (tame_plan tame).restores⟩
  by_cases guarded : ∃ condition block, t = .when condition block
  · obtain ⟨condition, block, rfl⟩ := guarded
    intro r
    rw [step, ends_bind]
    exact restores_underGuard (tame block) condition r
  · exact (tame_step tame t fun condition block e => guarded ⟨condition, block, e⟩).restores

end Exec
end Playbook
