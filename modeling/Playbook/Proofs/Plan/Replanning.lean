import Playbook.Proofs.Plan.Passes

/-! Planning again. Once the default pipeline has run, gathering facts is over and merging has
nothing left to merge, so that the same session is left and the same graph is built. -/

namespace Playbook

theorem firstOfEachFrom_again {α κ : Type} (same : κ → κ → Bool) (key : α → κ) (seen : List κ)
    (l : List α) : firstOfEachFrom same key seen (firstOfEachFrom same key seen l) =
      firstOfEachFrom same key seen l := by
  induction l generalizing seen with
  | nil => rfl
  | cons a l ih =>
    by_cases repeated : seen.any (same · (key a)) = true
    · simp only [firstOfEachFrom, if_pos repeated, ih]
    · simp only [firstOfEachFrom, if_neg repeated, ih]

namespace Session
variable {s t : Session} {f : FactGathering} {m : Merging} {ps : List Pass}

theorem mergeUnit_again (s : Session) (u : WorkUnit) :
    s.mergeBindings.2.mergeUnit (s.mergeUnit u) = s.mergeUnit u :=
  congrArg (fun groups => { u with groups }) (firstOfEachFrom_again ..)

theorem mergeBindings_again (s : Session) :
    s.mergeBindings.2.mergeBindings = (0, s.mergeBindings.2) := by
  have units : (s.units.map s.mergeUnit).map s.mergeBindings.2.mergeUnit =
      s.units.map s.mergeUnit := by
    rw [List.map_map]
    exact List.map_congr_left fun u _ => s.mergeUnit_again u
  simp only [mergeBindings] at units ⊢
  rw [units, Nat.sub_self]

theorem Passed.merges_again (s : Session) (m : Merging) :
    Passed s.mergeBindings.2 (.merging m) (.merging ⟨0⟩) s.mergeBindings.2 := by
  have again := Passed.merges (s := s.mergeBindings.2) m
  rwa [mergeBindings_again] at again

/-- The default pipeline leaves a session that the pipeline which it has become passes as it is. -/
theorem PassedAll.again (h : s.PassedAll [.facts f, .merging m] ps t) :
    ∃ f' m', ps = [.facts f', .merging m'] ∧
      ∀ m, t.PassedAll [.facts f', .merging m] [.facts f', .merging ⟨0⟩] t := by
  cases h with
  | @cons _ u _ _ _ _ _ gathering rest =>
    cases rest with
    | cons merging rest =>
      cases merging
      cases rest
      have known {f' : FactGathering} (ran : f'.unit ≠ none) (m : Merging) :
          u.mergeBindings.2.PassedAll [.facts f', .merging m] [.facts f', .merging ⟨0⟩]
            u.mergeBindings.2 :=
        .cons (.known ran) (.cons (.merges_again u m) (.nil _))
      cases gathering with
      | known ran => exact ⟨_, _, rfl, known ran⟩
      | gathers => exact ⟨_, _, rfl, known (Option.some_ne_none _)⟩

end Session

namespace Exec
variable {call : Block → Exec Unit}

def replan (call : Block → Exec Unit) : Nat → Exec (List Plan)
  | 0 => pure []
  | n + 1 => do
    let p ← plan call
    return p :: (← replan call n)

/-- What a plan has left plans the same again, time after time, and nothing of it changes but the
count of the last run in the pass that merges. -/
theorem replan_eq_ok {s : Session} {journal : List Entry} {f : FactGathering} {m : Merging}
    {p : Plan} {r : Run}
    (h : (plan call).run ⟨{ s with passes := [.facts f, .merging m] }, journal⟩ = .ok p r) :
    ∃ f' m', r.session.passes = [.facts f', .merging m'] ∧
      ∀ n, (replan call n).run r = .ok (List.replicate n p)
        (r.on { r.session with passes := [.facts f', .merging (if n = 0 then m' else ⟨0⟩)] }) := by
  have builtin (f : FactGathering) (m : Merging) := (Pass.regular_default f m).builtin
  obtain ⟨closed, ps, t, passed, planned, rfl⟩ := (plan_eq_ok_of_builtin (builtin f m)).1 h
  obtain ⟨f', m', rfl, again⟩ := passed.again
  have closed' : t.scopes.guards.isEmpty = true := by rwa [passed.scopes_eq]
  have unfilled : { t with passes := [] } = t := by
    rw [← show t.passes = [] from passed.passes_eq]
  refine ⟨f', m', rfl, fun n => ?_⟩
  -- The count takes part in no plan, so it may be any at the start.
  suffices ∀ m, (replan call n).run ⟨{ t with passes := [.facts f', .merging m] }, journal⟩ =
      .ok (List.replicate n p)
        ⟨{ t with passes := [.facts f', .merging (if n = 0 then m else ⟨0⟩)] }, journal⟩ from
    this m'
  induction n with
  | zero => exact fun m => rfl
  | succ n ih =>
    intro m
    have first : (plan call).run ⟨{ t with passes := [.facts f', .merging m] }, journal⟩ =
        .ok p ⟨{ t with passes := [.facts f', .merging ⟨0⟩] }, journal⟩ := by
      refine (plan_eq_ok_of_builtin (builtin f' m)).2
        ⟨closed', [.facts f', .merging ⟨0⟩], t, ?_, planned, rfl⟩
      rw [unfilled]
      exact again m
    rw [run_eq_ok, replan, ends_bind, ends_of_run first]
    simp only [ends_bind]
    rw [ends_of_run (ih ⟨0⟩)]
    simp only [ite_self, Nat.add_eq_zero_iff, one_ne_zero, and_false, if_false]
    exact ⟨rfl, rfl⟩

theorem replan_waitingScript :
    ∃ p r f m, (plan (runWithin 3)).run ⟨{ (Session.initial ⟨false, .bundle, none, []⟩ []).after 4
        waitingScript with passes := [.facts .new, .merging .new] }, []⟩ = .ok p r ∧
      p.plays.map Play.name = ["gather_facts_once", "db", "app"] ∧
      r.session.passes = [.facts f, .merging m] ∧
      (replan (runWithin 3) 2).run r =
        .ok [p, p] (r.on { r.session with passes := [.facts f, .merging ⟨0⟩] }) := by
  have names : (match (plan (runWithin 3)).run ⟨{ (Session.initial ⟨false, .bundle, none, []⟩
      []).after 4 waitingScript with passes := [.facts .new, .merging .new] }, []⟩ with
      | .ok p _ => p.plays.map Play.name
      | .error .. => []) = ["gather_facts_once", "db", "app"] := by decide +kernel
  split at names
  · rename_i p r h
    obtain ⟨f, m, passes, again⟩ := replan_eq_ok h
    exact ⟨p, r, f, m, h, names, passes, again 2⟩
  · cases names

end Exec
end Playbook
