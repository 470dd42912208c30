import Playbook.Proofs.Plan.Passes
import Playbook.Proofs.Session.Conduct

/-! Laws that allow no passes. While passes are run they are out of the session, so the entries made
meanwhile show it: a statement that builds a graph either does nothing else or breaks the law. -/

namespace Playbook

def unplugged : Law where
  fair _ := True
  apt _ := True
  optimizes := True
  holds s := s.passes = []

open Session in
theorem sound_unplugged : unplugged.Sound := by
  have declared {s t : Session} {pattern : Option String} {settings : Attributes} {id : GroupId}
      (h : s.declareHosts pattern settings = .ok (id, t)) (none : s.passes = []) :
      t.passes = [] := by
    obtain ⟨p, a, added⟩ := addGroup_of_declareHosts h
    obtain rfl : _ = t := congrArg Prod.snd added
    exact none
  exact {
    still := fun hs h => h.passes hs
    hosts := fun h hs => ⟨trivial, declared h hs⟩
    copied := fun {_ t _ _ _} h _ hs => (declared h hs : t.passes = [])
    setSetting := fun _ hs => hs
    setVar := fun _ hs => hs
    bind := fun _ hs => hs
    enters := fun _ => trivial
    enter := fun _ hs => hs
    leave := fun _ ht => ht
    permits := fun _ _ _ => trivial
    pipeline := fun _ _ given hs => absurd hs given
    merge := fun _ hs => hs
    skipFacts := fun _ hs => hs }

namespace Session

structure Ready (s : Session) : Prop where
  active : s.isActive = true
  closed : s.scopes.guards.isEmpty = true

theorem Ready.of_scopes {s t : Session} (h : s.Ready) (scopes : t.scopes = s.scopes) : t.Ready where
  active := by
    rw [isActive, scopes]
    exact h.active
  closed := by rw [scopes, h.closed]

end Session

namespace Exec
open Session
variable {L : Law} {r : Run}

section Strict
variable {bound : Nat}

theorem ends_step_suffix (t : Stmt) (r : Run) : (step (runWithin bound) t).Ends r
    (fun _ b => r.journal <:+ b.journal) (fun _ b => r.journal <:+ b.journal) fun _ => True := by
  have tame := tame_runWithin bound
  by_cases guarded : ∃ condition block, t = .when condition block
  · obtain ⟨condition, block, rfl⟩ := guarded
    have entered := (tame block).journal_suffix (r.on (r.session.openGuard condition))
    rw [step, ends_bind]
    exact Ends.within (entered.imp (fun _ _ h => h) (fun _ _ h => h) fun _ _ => trivial)
      (fun _ _ hb _ => hb) fun _ _ => trivial
  · have plain := tame_step tame t fun condition block same => guarded ⟨condition, block, same⟩
    exact (plain.journal_suffix r).imp (fun _ _ h => h) (fun _ _ h => h) fun _ _ => trivial

theorem ends_runWithin_noted (bound : Nat) (block : Block) (r : Run) :
    (runWithin bound block).Ends r (fun _ b => b = r ∨ r.journal.length < b.journal.length)
      (fun _ b => b = r ∨ r.journal.length < b.journal.length) fun _ => True := by
  cases bound with
  | zero => trivial
  | succ bound =>
    cases block with
    | nil => exact .inl rfl
    | cons t ts =>
      have rest := tame_runBlock (tame_runWithin bound) ts
      rw [runWithin, runBlock, ends_bind, ends_note]
      refine (ends_step_suffix t r).imp (fun a b hb => ?_)
        (fun _ _ hb => .inr (Nat.lt_succ_of_le hb.length_le)) fun _ h => h
      have noted {c : Run} (hc : (b.log t (.ok a)).journal <:+ c.journal) :
          r.journal.length < c.journal.length :=
        Nat.lt_of_lt_of_le (Nat.lt_succ_of_le hb.length_le) hc.length_le
      exact (rest.journal_suffix _).imp (fun _ _ hc => .inr (noted hc))
        (fun _ _ hc => .inr (noted hc)) fun _ _ => trivial

theorem ends_runPass_ready (p : Pass) (ready : r.session.Ready) :
    (runPass (runWithin bound) p).Ends r
      (fun _ b => b.session.Ready ∨ r.journal.length < b.journal.length) (fun _ _ => False)
        fun _ => True := by
  have builtin (h : p.Builtin) : (runPass (runWithin bound) p).Ends r
      (fun _ b => b.session.Ready ∨ r.journal.length < b.journal.length) (fun _ _ => False)
        fun _ => True := by
    rcases runPass_cases (runWithin bound) h ready.active with
      ⟨q, t, passed⟩ | ⟨e, b, ran, scopes, -⟩
    · rw [ends_of_run (run_runPass_of_passed _ ready.active ready.closed passed)]
      exact .inl (ready.of_scopes passed.scopes_eq)
    · rw [ends_of_run ran]
      exact .inl (ready.of_scopes scopes)
  cases p with
  | facts f => exact builtin (.facts f)
  | merging m => exact builtin (.merging m)
  | idle => exact .inl ready
  | scripted p =>
    simp only [runPass, ends_bind, ends_settle, ends_session, ends_pure]
    have ended {b : Run} (hb : b = r ∨ r.journal.length < b.journal.length) :
        b.session.Ready ∨ r.journal.length < b.journal.length := by
      rcases hb with rfl | noted
      · exact .inl ready
      · exact .inr noted
    exact (ends_runWithin_noted bound p.block r).imp (fun _ _ => ended) (fun _ _ => ended)
      fun _ h => h

theorem ends_runPasses_ready (ps : List Pass) (r : Run) (ready : r.session.Ready) :
    (runPasses (runWithin bound) ps).Ends r
      (fun _ b => b.session.Ready ∨ r.journal.length < b.journal.length) (fun _ _ => False)
        fun _ => True := by
  induction ps generalizing r with
  | nil => exact .inl ready
  | cons p ps ih =>
    have tame := tame_runPass (tame_runWithin bound) p
    rw [runPasses, ends_bind]
    refine ((ends_runPass_ready p ready).and (tame.journal_suffix r)).imp
      (fun q b hb => ?_) (fun _ _ h => h.1) fun _ h => h.1
    obtain ⟨q, _ | _⟩ := q
    · exact hb.1
    simp only [ends_bind, ends_pure]
    rcases hb with ⟨ready | noted, suffix⟩
    · exact (ih b ready).imp
        (fun _ _ hc => hc.imp_right (Nat.lt_of_le_of_lt suffix.length_le)) (fun _ _ h => h)
        fun _ h => h
    · have rest := (tame_runPasses (tame_runWithin bound) ps).journal_suffix b
      exact ((ends_runPasses_configured _ ps b).and rest).imp
        (fun _ _ hc => .inr (Nat.lt_of_lt_of_le noted hc.2.length_le)) (fun _ _ h => h.1)
        fun _ _ => trivial

/-- The entry of a statement that has built a graph shows that passes have been run, or those that
were noted while they ran do. -/
theorem optimized_of_built {s : Session} {journal : List Entry} {c : Run} {passes : List Pass}
    (given : s.passes ≠ []) (same : passes.map Pass.configured = s.passes.map Pass.configured)
    (shut : c.session.scopes.guards.isEmpty = true ∨ journal.length < c.journal.length)
    (kept : unplugged.Keeps ⟨{ s with passes := [] }, journal⟩ c) {statement : Stmt}
    (builds : statement = .buildGraph ∨ ∃ form, statement = .plan form)
    (outcome : Except Error Answer) :
    Run.Optimized ⟨s, journal⟩ ((c.on { c.session with passes }).log statement outcome) := by
  obtain ⟨since, told, kept⟩ := kept
  rcases shut with closed | noted
  · refine Run.optimized_log ⟨since, told.symm⟩ (.inr ?_)
    have given : passes ≠ [] := by
      rintro rfl
      exact given (List.map_eq_nil_iff.1 same.symm)
    rcases builds with rfl | ⟨form, rfl⟩
    · exact ⟨given, closed⟩
    · exact ⟨given, closed⟩
  · have others := (kept (fun _ _ => trivial) rfl).2
    cases since with
    | nil => exact absurd (congrArg List.length told) (Nat.ne_of_gt noted)
    | cons e since =>
      have shown : Run.Optimized ⟨s, journal⟩ (c.on { c.session with passes }) :=
        ⟨e :: since, told, e, List.mem_cons_self ..,
          .inl ⟨given, others e (List.mem_cons_self ..)⟩⟩
      exact shown.log statement outcome

theorem ends_buildGraph_idle {statement : Stmt}
    (builds : statement = .buildGraph ∨ ∃ form, statement = .plan form) (r : Run) :
    (buildGraph (runWithin bound)).Ends r
      (fun _ b => r.Idle b ∨ ∀ outcome, r.Optimized (b.log statement outcome))
      (fun _ b => r.Idle b ∨ ∀ outcome, r.Optimized (b.log statement outcome)) fun _ => True := by
  obtain ⟨s, journal⟩ := r
  by_cases idle : s.scopes.guards.isEmpty = false ∨ s.passes = []
  · have unbuilt : (buildGraph (runWithin bound)).Ends ⟨s, journal⟩
        (fun _ => Run.Idle ⟨s, journal⟩) (fun _ => Run.Idle ⟨s, journal⟩) fun _ => True :=
      ends_buildGraph_of_idle idle
    exact unbuilt.imp (fun _ _ => .inl) (fun _ _ => .inl) fun _ h => h
  obtain ⟨closed, given⟩ := not_or.1 idle
  have closed : s.scopes.guards.isEmpty = true := Bool.not_eq_false _ ▸ closed
  let out : Run := ⟨{ s with passes := [] }, journal⟩
  have same : (inSession (runPasses (runWithin bound) s.passes)).Ends out
      (fun p _ => p.1.map Pass.configured = s.passes.map Pass.configured) (fun _ _ => False)
      fun _ => True := by
    rw [inSession, ends_bind, ends_session]
    exact Ends.within_result (ends_runPasses_configured _ s.passes)
  let shut (c : Run) : Prop :=
    c.session.scopes.guards.isEmpty = true ∨ journal.length < c.journal.length
  have ready : (inSession (runPasses (runWithin bound) s.passes)).Ends out (fun _ => shut)
      (fun _ => shut) fun _ => True := by
    let entered : Scopes := { s.scopes with sessions := s.scopes.sessions.enter s.id }
    let start : Run := ⟨{ s with passes := [], scopes := entered }, journal⟩
    have block : (runPasses (runWithin bound) s.passes).Ends start (fun _ => shut) (fun _ => shut)
        fun _ => True :=
      (ends_runPasses_ready s.passes start ⟨rfl, closed⟩).imp
        (fun _ _ hb => hb.imp_left Ready.closed) (fun _ _ h => h.elim) fun _ h => h
    rw [inSession, ends_bind, ends_session]
    refine Ends.within block (fun b scopes hb left => ?_) fun _ _ => trivial
    obtain ⟨_, _, -, rfl⟩ := Scopes.exit_eq_ok left
    exact hb
  have kept := ((obeys_runPasses sound_unplugged (obeys_runWithin_of sound_unplugged trivial bound)
    trivial s.passes).inSession sound_unplugged) out
  refine ends_buildGraph_of_closed (P := fun b => Run.Idle ⟨s, journal⟩ b ∨
    ∀ outcome, Run.Optimized ⟨s, journal⟩ (b.log statement outcome)) closed ?_
  exact (same.and (ready.and kept)).imp
    (fun p c h => .inr (optimized_of_built given h.1 h.2.1 h.2.2 builds)) (fun _ _ h => h.1.elim)
    fun _ _ => trivial

end Strict

section Sound
variable (sound : L.Sound)
include sound

theorem obeys_note_of_idle {statement : Stmt} {act : Exec Answer} (tame : act.Tame)
    (strict : ¬ L.optimizes)
    (h : ∀ r, act.Ends r
      (fun a b => r.Idle b ∨ r.Optimized (b.log statement (.ok a)))
      (fun e b => r.Idle b ∨ r.Optimized (b.log statement (.error e))) fun _ => True) :
    (note statement act).Obeys L := fun r => by
  have judged {b : Run} {outcome : Except Error Answer}
      (hb : r.Idle b ∨ r.Optimized (b.log statement outcome)) :
      L.Keeps r (b.log statement outcome) := by
    rcases hb with idle | optimized
    · exact (Law.Keeps.of_idle sound idle).log
    · exact .of_optimized sound strict optimized
  rw [ends_note]
  exact ((tame.journal_suffix r).and (h r)).imp (fun _ _ hb => judged hb.2)
    (fun _ _ hb => judged hb.2) fun _ ⟨⟨since, journal⟩, _⟩ =>
      ⟨since, journal.symm, fun optimizes => absurd optimizes strict⟩

theorem obeys_optimizing_of_strict {bound : Nat} (strict : ¬ L.optimizes) {statement : Stmt}
    (h : statement.optimizes = true) :
    (note statement (step (runWithin bound) statement)).Obeys L := by
  have tame := tame_runWithin bound
  cases statement with
  | plan form =>
    refine obeys_note_of_idle sound (tame_step tame _ fun _ _ h => by cases h) strict fun r => ?_
    rw [step, ends_bind]
    refine (ends_plan_of_buildGraph (ends_buildGraph_idle (.inr ⟨form, rfl⟩) r)).imp
      (fun p b hb => ?_) (fun _ _ hb => hb.imp_right fun h => h _) fun _ h => h
    cases planAnswer form p <;> exact hb.imp_right fun h => h _
  | buildGraph =>
    refine obeys_note_of_idle sound (tame_step tame _ fun _ _ h => by cases h) strict fun r => ?_
    simp only [step, ends_bind, ends_session, ends_pure]
    exact (ends_buildGraph_idle (.inl rfl) r).imp (fun _ _ hb => hb.imp_right fun h => h _)
      (fun _ _ hb => hb.imp_right fun h => h _) fun _ h => h
  | merge =>
    refine obeys_note_of_idle sound (tame_step tame _ fun _ _ h => by cases h) strict fun r => ?_
    rw [step, ends_map, ends_apply]
    exact .inr (Run.optimized_log List.suffix_rfl (.inr trivial))
  | gatherFacts trial =>
    by_cases none : trial.times = 0
    · refine obeys_note _ (obeys_tryFacts fun p => ?_)
      rw [none]
      exact obeys_pure p
    · refine obeys_note_of_idle sound (tame_step tame _ fun _ _ h => by cases h) strict fun r => ?_
      exact (ends_step_suffix (.gatherFacts trial) r).imp
        (fun _ _ hb => .inr (Run.optimized_log hb (.inr none)))
        (fun _ _ hb => .inr (Run.optimized_log hb (.inr none))) fun _ h => h
  | _ => cases h

theorem obeys_optimizing {bound : Nat} (hc : ∀ block, (runWithin bound block).Obeys L)
    (statement : Stmt) (h : statement.optimizes = true) :
    (note statement (step (runWithin bound) statement)).Obeys L := by
  by_cases optimizes : L.optimizes
  · exact obeys_optimizing_of sound hc optimizes h
  · exact obeys_optimizing_of_strict sound optimizes h

theorem obeys_runWithin : ∀ (bound : Nat) (block : Block), (runWithin bound block).Obeys L
  | 0, _ => obeys_exhausted
  | bound + 1, block =>
    have hc := obeys_runWithin bound
    obeys_runBlock sound hc (obeys_optimizing sound hc) block

end Sound
end Exec

end Playbook
