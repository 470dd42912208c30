import Playbook.Proofs.Session.Congruence
import Playbook.Proofs.Session.Mirror

/-! What can be left. Every scope but a condition is left by the action that entered it, and finds
itself on top of its stack then, whatever was done in between. A condition can also be closed by a
statement of its own, and only that may find none open. -/

namespace Playbook

namespace Scopes
variable {s t left : Scopes} {kind : ScopeKind}

theorem kind_of_exit {f : Fault} (h : s.exit kind = .error f) : f.kind = kind := by
  cases kind <;>
  · simp only [exit] at h
    split at h
    · cases h
    · obtain rfl := Except.error.inj h
      rfl

theorem unguarded_of_exit (h : s.exit .guard = .ok left) : left.unguarded = s.unguarded := by
  obtain ⟨_, _, -, rfl⟩ := exit_eq_ok h
  rfl

theorem exit_of_unguarded (same : t.unguarded = s.unguarded) (h : s.exit kind = .ok left)
    (other : kind ≠ .guard) :
    ∃ left', t.exit kind = .ok left' ∧ left'.unguarded = left.unguarded := by
  obtain ⟨sessions, hostGroups, runbooks, units, guards⟩ := s
  obtain ⟨sessions', hostGroups', runbooks', units', guards'⟩ := t
  obtain ⟨rfl, rfl, rfl, rfl⟩ :
      sessions' = sessions ∧ hostGroups' = hostGroups ∧ runbooks' = runbooks ∧ units' = units := by
    simpa [unguarded] using same
  cases kind with
  | guard => exact absurd rfl other
  | session | hostGroup | runbook | unit =>
    simp only [exit] at h ⊢
    split at h
    · obtain rfl := Except.ok.inj h
      exact ⟨_, rfl, rfl⟩
    · cases h

end Scopes

/-- The scopes are those of `r` when an action has come to its end, conditions apart; and if it
found a scope missing, that was a condition. -/
def Run.Balances {α : Type} (r : Run) : EStateM.Result Halt Run α → Prop
  | .ok _ b | .error (.failed _) b => b.session.scopes.unguarded = r.session.scopes.unguarded
  | .error (.fault f) _ => f.kind = .guard
  | .error .exhausted _ => True

theorem Run.Balances.of_eq {α : Type} {r b : Run} {x : EStateM.Result Halt Run α}
    (h : b.Balances x) (same : b.session.scopes.unguarded = r.session.scopes.unguarded) :
    r.Balances x := by
  unfold Balances at *
  split at h
  · exact h.trans same
  · exact h.trans same
  · exact h
  · trivial

namespace Exec
open Session
variable {α β : Type} {r : Run}

def Balanced (act : Exec α) : Prop := ∀ r : Run, r.Balances (act.run r)

namespace Balanced
variable {act : Exec α}

theorem pure (a : α) : (pure a : Exec α).Balanced := fun _ => rfl

theorem fail (e : Error) : (fail e : Exec α).Balanced := fun _ => rfl

theorem session : session.Balanced := fun _ => rfl

theorem ofExcept : ∀ x : Except Error α, (ofExcept x).Balanced
  | .ok a => pure a
  | .error e => fail e

theorem update {f : Session → Session}
    (same : ∀ s : Session, (f s).scopes.unguarded = s.scopes.unguarded) : (update f).Balanced :=
  fun r => same r.session

theorem bind {f : α → Exec β} (h : act.Balanced) (rest : ∀ a, (f a).Balanced) :
    (act >>= f).Balanced := fun r => by
  have first := h r
  rw [EStateM.run_bind]
  cases ran : act.run r with
  | ok a b =>
    rw [ran] at first
    exact (rest a b).of_eq first
  | error halt b =>
    rw [ran] at first
    cases halt <;> exact first

theorem settle (h : act.Balanced) : (settle act).Balanced := fun r => by
  have settled := h r
  rw [run_settle]
  cases ran : act.run r with
  | ok =>
    rw [ran] at settled
    exact settled
  | error halt =>
    rw [ran] at settled
    cases halt <;> exact settled

theorem perform {f : Session → Except Error (α × Session)}
    (same : ∀ (s : Session) a t, f s = .ok (a, t) → t.scopes.unguarded = s.scopes.unguarded) :
    (perform f).Balanced := fun r => by
  rw [run_perform]
  cases done : f r.session with
  | ok p => exact same _ _ _ done
  | error => rfl

end Balanced

theorem balanced_leaveGuard : (leave .guard).Balanced := fun r => by
  rw [run_leave]
  cases left : r.session.scopes.exit .guard with
  | ok => exact Scopes.unguarded_of_exit left
  | error => exact Scopes.kind_of_exit left

theorem balances_leave {b : Run} {kind : ScopeKind} {enter : Scopes → Scopes}
    (opens : Opens kind enter)
    (same : b.session.scopes.unguarded = (enter r.session.scopes).unguarded) :
    r.Balances ((leave kind).run b) := by
  by_cases guard : kind = .guard
  · subst guard
    exact (balanced_leaveGuard b).of_eq
      (same.trans (Scopes.unguarded_of_exit (opens r.session.scopes)).symm)
  · obtain ⟨left, exited, back⟩ := Scopes.exit_of_unguarded same (opens r.session.scopes) guard
    rw [run_leave, exited]
    exact back

theorem Balanced.within {act : Exec α} (h : act.Balanced) {kind : ScopeKind}
    {enter : Scopes → Scopes} (opens : Opens kind enter) : (within kind enter act).Balanced :=
  fun r => by
    let entered := r.on { r.session with scopes := enter r.session.scopes }
    have left (b : Run) (x : Except Error α)
        (same : b.session.scopes.unguarded = (enter r.session.scopes).unguarded) :
        r.Balances ((do leave kind; Exec.ofExcept x : Exec α).run b) := by
      have left := balances_leave opens same
      rw [EStateM.run_bind]
      cases ran : (leave kind).run b with
      | ok _ c =>
        rw [ran] at left
        exact (Balanced.ofExcept x c).of_eq left
      | error halt c =>
        rw [ran] at left
        cases halt <;> exact left
    have ran : (Exec.within kind enter act).run r =
        (Exec.settle act >>= fun result => do leave kind; Exec.ofExcept result).run entered := rfl
    have block := h entered
    rw [ran, run_settle_bind]
    cases done : act.run entered with
    | ok a b =>
      rw [done] at block
      exact left b (.ok a) block
    | error halt b =>
      rw [done] at block
      cases halt with
      | failed e => exact left b (.error e) block
      | fault | exhausted => exact block

theorem Balanced.inSession {act : Exec α} (h : act.Balanced) : (inSession act).Balanced :=
  session.bind fun _ => h.within fun _ => rfl

theorem Balanced.note {act : Exec Answer} (h : act.Balanced) (statement : Stmt) :
    (note statement act).Balanced := by
  refine h.settle.bind fun outcome => ?_
  have noted : (modify fun r => r.log statement outcome : Exec PUnit).Balanced := fun _ => rfl
  exact noted.bind fun _ => (ofExcept outcome).bind fun _ => pure _

theorem Balanced.buildGraph {call : Block → Exec Unit}
    (passes : ∀ ps, (runPasses call ps).Balanced) : (buildGraph call).Balanced := by
  have plug (passes : List Pass) : (Exec.update ({ · with passes })).Balanced := update fun _ => rfl
  unfold Exec.buildGraph
  refine session.bind fun s => ?_
  split
  · exact fail _
  · exact (plug []).bind fun _ =>
      (passes s.passes).inSession.bind fun p =>
      ((ofExcept p.2).bind fun _ => session.bind fun _ => (ofExcept _).bind fun _ =>
        ofExcept _).settle.bind fun _ =>
      (plug p.1).bind fun _ => ofExcept _

theorem congruence_balanced : Congruence fun _ act _ => act.Balanced where
  pure := .pure
  fail := .fail
  exhausted _ := trivial
  bind := .bind
  settle := .settle
  session := .session
  update _ level := .update fun s => (level s).scopes
  perform _ level := .perform fun s a t done => (level s a t done).scopes
  within opens h := h.within opens
  leaveGuard := balanced_leaveGuard
  note statement h := h.note statement
  buildGraph := .buildGraph

theorem balanced_runWithin : ∀ (bound : Nat) (block : Block), (runWithin bound block).Balanced
  | 0, _ => fun _ => trivial
  | bound + 1, block =>
    @Congruence.runBlock _ _ (runWithin bound) congruence_balanced (balanced_runWithin bound) block

end Exec

/-- If a script stops because no scope is open that could be left, that scope is a condition. -/
theorem Session.guard_of_fault (s : Session) (bound : Nat) (script : Block) {f : Fault}
    (h : (s.run bound script).halt = some (.fault f)) : f.kind = .guard := by
  have balances := @Exec.Congruence.runAll _ _ (runWithin bound) Exec.congruence_balanced
    (Exec.balanced_runWithin bound) script ⟨s, []⟩
  unfold run at h
  split at h
  · cases h
  · rename_i ran
    rw [ran] at balances
    obtain rfl := Option.some.inj h
    exact balances

end Playbook
