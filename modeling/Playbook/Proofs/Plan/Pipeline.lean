import Playbook.Proofs.Plan.Steps

/-! Plans by a pipeline whose passes end well: what is left then depends on the session that they
leave and no longer on how they came to it. -/

namespace Playbook

/-- The plan of a session once some passes have run: they refine its graph, and the plays follow
the order of the nodes. -/
def Session.planned (s : Session) (passes : List Pass) : Except Error Plan := do
  let g ← s.dependencyGraph
  s.planOf (← passes.foldlM (Pass.refine s) g)

theorem Session.planned_eq_ok {s : Session} {p : Plan} : s.planned [] = .ok p ↔
    ∃ g order, s.dependencyGraph = .ok g ∧ g.sort = .ok order ∧
      (∀ id ∈ order, ∃ plays, s.playsOf id = .ok plays) ∧ p.plays = order.flatMap s.playsFor := by
  have unrefined (g : Graph UnitId) : [].foldlM (Pass.refine s) g = .ok g := rfl
  simp only [planned, bind_eq_ok, unrefined, Except.ok.injEq, exists_eq_left', planOf_eq_ok,
    exists_and_left]

namespace Exec
variable {α : Type} {call : Block → Exec Unit} {r : Run} {done : α → Run → Prop}
  {failed : Error → Run → Prop} {stopped : Run → Prop}

theorem run_eq_ok {act : Exec α} {a : α} {r' : Run} : act.run r = .ok a r' ↔
    act.Ends r (fun b b' => b = a ∧ b' = r') (fun _ _ => False) fun _ => False := by
  unfold Ends
  split <;> simp_all

theorem ends_ofExcept_bind {β : Type} (x : Except Error β) (f : β → Except Error α) :
    (ofExcept (x >>= f)).Ends r done failed stopped ↔
      (ofExcept x).Ends r (fun b r => (ofExcept (f b)).Ends r done failed stopped)
        failed stopped := by
  cases x <;> rfl

variable {done : Plan → Run → Prop} {s t : Session} {journal journal' : List Entry}
  {given left : List Pass}

theorem ends_plan_of_open (h : s.scopes.guards.isEmpty = false) :
    (plan call).Ends ⟨s, journal⟩ done failed stopped ↔
      failed (.refused (.openGuards s.scopes.guards.depth)) ⟨s, journal⟩ := by
  simp [plan, buildGraph, h]

theorem ends_plan_of_passes (closed : s.scopes.guards.isEmpty = true)
    (ran : (inSession (runPasses call given)).run ⟨{ s with passes := [] }, journal⟩ =
      .ok (left, .ok ()) ⟨t, journal'⟩) :
    (plan call).Ends ⟨{ s with passes := given }, journal⟩ done failed stopped ↔
      (ofExcept (t.planned left)).Ends ⟨{ t with passes := left }, journal'⟩ done failed
        stopped := by
  simp only [plan, buildGraph, ends_bind, ends_session, closed, Bool.not_true, Bool.false_eq_true,
    if_false, ends_update, Run.on]
  rw [ends_of_run ran]
  simp only [ends_bind, ends_settle, ends_ofExcept_ok, ends_query, ends_session, Session.planned,
    ends_ofExcept_bind]
  cases hg : t.dependencyGraph with
  | error e => rfl
  | ok g =>
    simp only [ends_ofExcept_ok]
    cases left.foldlM (Pass.refine t) g <;> rfl

theorem plan_eq_ok {p : Plan} {r : Run} (ran : s.scopes.guards.isEmpty = true →
      (inSession (runPasses call given)).run ⟨{ s with passes := [] }, journal⟩ =
        .ok (left, .ok ()) ⟨t, journal'⟩) :
    (plan call).run ⟨{ s with passes := given }, journal⟩ = .ok p r ↔
      s.scopes.guards.isEmpty = true ∧ t.planned left = .ok p ∧
        r = ⟨{ t with passes := left }, journal'⟩ := by
  rw [run_eq_ok]
  cases closed : s.scopes.guards.isEmpty with
  | false =>
    rw [ends_plan_of_open (by exact closed)]
    simp
  | true =>
    rw [ends_plan_of_passes closed (ran closed)]
    cases t.planned left <;> simp [eq_comm]

theorem plan_eq_ok_of_empty {p : Plan} {r : Run} :
    (plan call).run ⟨{ s with passes := [] }, journal⟩ = .ok p r ↔
      s.scopes.guards.isEmpty = true ∧ s.planned [] = .ok p ∧
        r = ⟨{ s with passes := [] }, journal⟩ := by
  refine plan_eq_ok (t := { s with passes := [] }) fun _ => ?_
  rw [run_eq_ok, runPasses, ends_inSession_pure]
  exact ⟨rfl, rfl⟩

theorem plan_eq_ok_of_no_passes (none : s.passes = []) {p : Plan} {r : Run} :
    (plan call).run ⟨s, journal⟩ = .ok p r ↔
      s.scopes.guards.isEmpty = true ∧ s.planned [] = .ok p ∧ r = ⟨s, journal⟩ := by
  have given : { s with passes := [] } = s := by rw [← none]
  conv_lhs => rw [← given]
  conv_rhs => rw [← given]
  exact plan_eq_ok_of_empty

end Exec
end Playbook
