import Playbook.Proofs.Plan.Pipeline
import Playbook.Proofs.Session.Conduct
import Playbook.Proofs.Session.Congruence
import Playbook.Proofs.Session.Mirror

/-! The pipeline while it is run and afterwards. Passes may fail in either phase, and they may run
whole scripts, which build graphs and plans in their turn. Whatever happens, the session has its
pipeline back at the end; meanwhile it has none, so what is built within a pass runs no pass. -/

namespace Playbook

/-- The same passes in the same order, whatever they have come to remember. -/
def Session.SamePipeline (s t : Session) : Prop :=
  t.passes.map Pass.configured = s.passes.map Pass.configured

def Stmt.builds : Stmt → Bool
  | .buildGraph | .plan _ => true
  | _ => false

theorem Session.SamePipeline.refl (s : Session) : s.SamePipeline s := rfl

namespace Exec
open Session
variable {α : Type} {call : Block → Exec Unit} {r : Run}

theorem ends_buildGraph_samePipeline (call : Block → Exec Unit) (r : Run) :
    (buildGraph call).Ends r (fun _ b => r.session.SamePipeline b.session)
      (fun _ b => r.session.SamePipeline b.session) fun _ => True := by
  obtain ⟨s, journal⟩ := r
  cases closed : s.scopes.guards.isEmpty with
  | false =>
    simp only [buildGraph, ends_bind, ends_session, closed, Bool.not_false, if_true, ends_fail]
    exact .refl s
  | true =>
    refine ends_buildGraph_of_closed (P := fun b => s.SamePipeline b.session) closed ?_
    rw [inSession, ends_bind, ends_session]
    exact (Ends.within_result (ends_runPasses_configured call s.passes)).imp (fun _ _ same => same)
      (fun _ _ h => h.elim) fun _ h => h

theorem ends_plan_samePipeline (call : Block → Exec Unit) (r : Run) :
    (plan call).Ends r (fun _ b => r.session.SamePipeline b.session)
      (fun _ b => r.session.SamePipeline b.session) fun _ => True := by
  rw [plan, ends_bind]
  refine (ends_buildGraph_samePipeline call r).imp_done fun g b same => ?_
  rw [ends_query, ends_ofExcept]
  exact ⟨fun _ _ => same, fun _ _ => same⟩

/-- Does what a statement says, but if that is building a graph, or planning, and there are passes
in the session, the alarm goes off first. -/
def alarmed (alarm : Exec Unit) (call : Block → Exec Unit) (t : Stmt) : Exec Answer := do
  let s ← session
  if t.builds && !s.passes.isEmpty then alarm
  step call t

def runAlarmed (alarm : Exec Unit) (call : Block → Exec Unit) : Block → Exec Unit
  | [] => pure ()
  | t :: ts => do
    note t (alarmed alarm call t)
    runAlarmed alarm call ts

end Exec

def runAlarmedWithin (alarm : Exec Unit) : Nat → Block → Exec Unit
  | 0, _ => throw .exhausted
  | bound + 1, block => Exec.runAlarmed alarm (runAlarmedWithin alarm bound) block

def Run.Unplugged (r : Run) : Prop := r.session.passes = []

namespace Exec
open Session
variable {α : Type} {call : Block → Exec Unit} {alarm : Exec Unit} {r : Run}

/-- Where no passes are in the session, both do the same, and none are there afterwards. -/
def AgreeUnplugged (act act' : Exec α) : Prop :=
  ∀ r, r.Unplugged → Mirrors id act act' r (fun _ => Run.Unplugged) Run.Unplugged fun _ => True

theorem agreeUnplugged_leave (kind : ScopeKind) : AgreeUnplugged (leave kind) (leave kind) :=
  fun r out => .of_ends <| by
    rw [ends_leave]
    split
    · exact out
    · trivial

theorem agreeUnplugged_within {act act' : Exec α} (h : AgreeUnplugged act act')
    (kind : ScopeKind) (enter : Scopes → Scopes) :
    AgreeUnplugged (within kind enter act) (within kind enter act') := by
  intro r out
  have entered : Mirrors id (update fun s => { s with scopes := enter s.scopes })
      (update fun s => { s with scopes := enter s.scopes }) r (fun _ => Run.Unplugged)
      Run.Unplugged fun _ => True := .of_ends out
  refine entered.bind fun _ b hb => ?_
  have settled : Mirrors id (settle act) (settle act') b (fun _ => Run.Unplugged)
      Run.Unplugged fun _ => True :=
    .settle ((h b hb).imp (fun _ _ hb => hb) (fun _ hb _ => hb) fun _ hs => hs)
  refine settled.bind fun result b hb => (agreeUnplugged_leave kind b hb).bind fun _ b hb => ?_
  exact .ofExcept (fun _ _ => hb) fun _ _ => hb

theorem agreeUnplugged_inSession {act act' : Exec α} (h : AgreeUnplugged act act') :
    AgreeUnplugged (inSession act) (inSession act') := fun r out =>
  .session (agreeUnplugged_within h _ _ r out)

theorem run_buildGraph_congr {call' : Block → Exec Unit}
    (alike : ∀ ps, AgreeUnplugged (runPasses call ps) (runPasses call' ps)) (r : Run) :
    (buildGraph call').run r = (buildGraph call).run r := by
  have built : Mirrors id (buildGraph call) (buildGraph call') r (fun _ _ => True) (fun _ => True)
      fun _ => True := by
    refine .session ?_
    dsimp only [id_eq]
    split
    · exact .fail trivial
    · have taken : Mirrors id (update ({ · with passes := [] }))
          (update ({ · with passes := [] })) r (fun _ => Run.Unplugged) (fun _ => True)
          fun _ => True := .of_ends rfl
      refine taken.bind fun _ b out => ?_
      refine ((agreeUnplugged_inSession (alike r.session.passes) b out).imp (fun _ _ h => trivial)
        (fun _ _ => trivial) fun _ h => h).bind fun p c _ => ?_
      exact .of_ends (.of_forall (fun _ _ => trivial) (fun _ _ => trivial) fun _ => trivial)
  exact built.same.trans (image_id _)

theorem congruence_agreeUnplugged : Congruence fun _ => AgreeUnplugged where
  pure _ _ out := .pure out
  fail _ _ out := .fail out
  exhausted _ _ := .exhausted trivial
  bind first rest r out := (first r out).bind fun a b hb => rest a b hb
  settle h r out := .settle ((h r out).imp (fun _ _ hb => hb) (fun _ hb _ => hb) fun _ hs => hs)
  session r out := .of_ends out
  update f level r out := .of_ends ((level r.session).passes.trans out)
  perform f level r out := .of_ends <| (ends_perform _).2 <|
    ends_ofExcept.2 ⟨fun p ran => (level _ _ _ ran).passes.trans out, fun _ _ => out⟩
  within _ h := agreeUnplugged_within h _ _
  leaveGuard := agreeUnplugged_leave .guard
  note statement h r out := .note <|
    (h r out).imp (fun _ _ hb => ⟨rfl, hb⟩) (fun _ hb _ => ⟨rfl, hb⟩) fun _ hs => hs
  buildGraph alike r out := by
    obtain ⟨s, journal⟩ := r
    refine ⟨(run_buildGraph_congr alike _).trans (image_id _).symm, ?_⟩
    exact (ends_buildGraph_of_idle (.inr out)).imp (fun _ _ idle => idle.2.passes out)
      (fun _ _ idle => idle.2.passes out) fun _ h => h

theorem run_alarmed (out : r.Unplugged) (t : Stmt) :
    (alarmed alarm call t).run r = (step call t).run r := by
  have silent : (t.builds && !r.session.passes.isEmpty) = false := by
    rw [show r.session.passes = [] from out, List.isEmpty_nil, Bool.not_true, Bool.and_false]
  rw [alarmed, EStateM.run_bind]
  show (if t.builds && !r.session.passes.isEmpty then _ else _ : Exec Answer).run r = _
  rw [silent]
  rfl

theorem agreeUnplugged_runAlarmed {call' : Block → Exec Unit}
    (alike : ∀ block, AgreeUnplugged (call block) (call' block)) :
    ∀ block, AgreeUnplugged (runBlock call block) (runAlarmed alarm call' block)
  | [] => congruence_agreeUnplugged.pure ()
  | t :: ts => by
    have noted : AgreeUnplugged (step call t) (alarmed alarm call' t) := fun r out => by
      obtain ⟨same, ends⟩ := congruence_agreeUnplugged.step alike t r out
      exact ⟨(run_alarmed out t).trans same, ends⟩
    exact congruence_agreeUnplugged.bind (congruence_agreeUnplugged.note t noted) fun _ =>
      agreeUnplugged_runAlarmed alike ts

theorem agreeUnplugged_runAlarmedWithin (alarm : Exec Unit) :
    ∀ (bound : Nat) (block : Block),
      AgreeUnplugged (runWithin bound block) (runAlarmedWithin alarm bound block)
  | 0, _ => congruence_agreeUnplugged.exhausted
  | bound + 1, block =>
    agreeUnplugged_runAlarmed (agreeUnplugged_runAlarmedWithin alarm bound) block

theorem run_buildGraph_alarmed (alarm : Exec Unit) (bound : Nat) (r : Run) :
    (buildGraph (runAlarmedWithin alarm bound)).run r = (buildGraph (runWithin bound)).run r :=
  run_buildGraph_congr (congruence_agreeUnplugged.runPasses
    (agreeUnplugged_runAlarmedWithin alarm bound)) r

theorem run_buildGraph_of_open (call : Block → Exec Unit)
    (h : r.session.scopes.guards.isEmpty = false) :
    (buildGraph call).run r =
      .error (.failed (.refused (.openGuards r.session.scopes.guards.depth))) r := by
  rw [buildGraph, EStateM.run_bind]
  show (if !r.session.scopes.guards.isEmpty then _ else _ : Exec (Graph UnitId)).run r = _
  rw [h]
  rfl

/-- Whatever the nested blocks do, a session has its pipeline back when a graph has been built or a
plan has been made, or either has failed. Graphs and plans that are made meanwhile find no passes in
the session: an alarm that would go off otherwise makes no difference. With a condition open both
are refused, and nothing has happened. -/
theorem samePipeline_of_built (r : Run) :
    (∀ call b, (buildGraph call).Concludes r b ∨ (plan call).Concludes r b →
      r.session.SamePipeline b.session) ∧
    (∀ alarm bound,
      (buildGraph (runAlarmedWithin alarm bound)).run r = (buildGraph (runWithin bound)).run r ∧
      (plan (runAlarmedWithin alarm bound)).run r = (plan (runWithin bound)).run r) ∧
    (r.session.scopes.guards.isEmpty = false → ∀ call,
      (buildGraph call).run r =
        .error (.failed (.refused (.openGuards r.session.scopes.guards.depth))) r ∧
      (plan call).run r =
        .error (.failed (.refused (.openGuards r.session.scopes.guards.depth))) r) := by
  refine ⟨?_, fun alarm bound => ⟨run_buildGraph_alarmed alarm bound r, ?_⟩, fun h call =>
    ⟨run_buildGraph_of_open call h, ?_⟩⟩
  · rintro call b (built | planned)
    · exact (ends_buildGraph_samePipeline call r).of_concludes built
    · exact (ends_plan_samePipeline call r).of_concludes planned
  · rw [plan, plan, EStateM.run_bind, EStateM.run_bind, run_buildGraph_alarmed]
  · rw [plan, EStateM.run_bind, run_buildGraph_of_open call h]

/-- A pass that builds a graph and a plan in its turn, the gathering of facts, and a pass that
refines the graph by units that there are not. -/
def nestingPasses : List Pass :=
  [.scripted ⟨"nesting", [.buildGraph, .attempt [.plan .plays]], [], []⟩, .facts .new,
    .scripted ⟨"breaking", [], [(⟨7⟩, ⟨8⟩)], []⟩]

def nestingSession : Session := .initial ⟨true, .bundle, none, []⟩ nestingPasses

/-- The plan fails in the second phase, after three statements have been noted in the first; with a
condition open it fails at once. -/
theorem samePipeline_of_built_nesting :
    (∃ e b, (settle (plan (runWithin 3))).run ⟨nestingSession, []⟩ = .ok (.error e) b ∧
      e.message = "Invalid configuration: unknown work unit runnable#7" ∧ b.journal.length = 3 ∧
      nestingSession.SamePipeline b.session) ∧
    (plan (runWithin 3)).run ⟨nestingSession.openGuard "stale", []⟩ =
      .error (.failed (.refused (.openGuards 1))) ⟨nestingSession.openGuard "stale", []⟩ := by
  have refused := (samePipeline_of_built ⟨nestingSession.openGuard "stale", []⟩).2.2 rfl
    (runWithin 3)
  have told : ((settle (plan (runWithin 3))).result? ⟨nestingSession, []⟩).bind (fun
      | (.error e, b) => some (e.message, b.journal.length)
      | (.ok _, _) => none) =
        some ("Invalid configuration: unknown work unit runnable#7", 3) := by decide +kernel
  obtain ⟨⟨_ | e, b⟩, ended, told⟩ := Option.bind_eq_some_iff.1 told
  · obtain ⟨message, length⟩ := Prod.mk.inj (Option.some.inj told)
    have ran := result?_eq_some.1 ended
    have kept := (samePipeline_of_built ⟨nestingSession, []⟩).1 _ b (.inr ⟨_, ran⟩)
    exact ⟨⟨_, b, ran, message, length, kept⟩, refused.2⟩
  · cases told

end Exec
end Playbook
