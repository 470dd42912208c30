import Playbook.Proofs.Plan.Steps
import Playbook.Proofs.Session.Law

/-! What a script can do obeys a sound law, whatever blocks, units, runbooks and passes run within
one another, as long as the law allows that passes are run. -/

namespace Playbook

/-- The pass without what it remembers of the runs so far. -/
def Pass.configured : Pass → Pass
  | .facts p => .facts { p with unit := none }
  | .merging _ => .merging .new
  | .idle => .idle
  | .scripted p => .scripted { p with known := [] }

namespace Exec
open Session
variable {α β : Type} {L : Law} {r a : Run}

def Obeys (L : Law) (act : Exec α) : Prop :=
  ∀ r, act.Ends r (fun _ => L.Keeps r) (fun _ => L.Keeps r) (L.Breaks r)

theorem Obeys.after {act : Exec α} (h : act.Obeys L) (ha : L.Keeps r a) :
    act.Ends a (fun _ => L.Keeps r) (fun _ => L.Keeps r) (L.Breaks r) :=
  (h a).imp (fun _ _ => ha.trans) (fun _ _ => ha.trans) fun _ => ha.trans_breaks

theorem obeys_pure (a : α) : (pure a : Exec α).Obeys L := fun r => Law.Keeps.refl r

theorem obeys_fail (e : Error) : (fail e : Exec α).Obeys L := fun r => Law.Keeps.refl r

theorem obeys_exhausted : (throw .exhausted : Exec α).Obeys L := fun r => (Law.Keeps.refl r).breaks

theorem obeys_ofExcept : ∀ x : Except Error α, (ofExcept x).Obeys L
  | .ok a => obeys_pure a
  | .error e => obeys_fail e

theorem obeys_session : session.Obeys L := fun r => Law.Keeps.refl r

theorem obeys_query (f : Session → Except Error α) : (query f).Obeys L := fun r => by
  simpa using obeys_ofExcept (f r.session) r

theorem Obeys.bind {act : Exec β} {f : β → Exec α} (h : act.Obeys L) (hf : ∀ b, (f b).Obeys L) :
    (act >>= f).Obeys L := fun r => by
  simpa using (h r).imp (fun b _ hb => (hf b).after hb) (fun _ _ he => he) fun _ hs => hs

theorem Obeys.map {act : Exec β} (h : act.Obeys L) (f : β → α) : (f <$> act).Obeys L := fun r => by
  simpa using h r

theorem Obeys.discard {act : Exec β} (h : act.Obeys L) : (discard act).Obeys L := fun r => by
  simpa using h r

theorem Obeys.settle {act : Exec α} (h : act.Obeys L) : (settle act).Obeys L := fun r => by
  simpa using h r

theorem obeys_foldlM {f : β → α → Exec β} (h : ∀ b a, (f b a).Obeys L) (l : List α) (b : β) :
    (l.foldlM f b).Obeys L := by
  induction l generalizing b with
  | nil => exact obeys_pure b
  | cons a l ih =>
    rw [List.foldlM_cons]
    exact (h b a).bind ih

theorem obeys_forM {f : β → Exec PUnit} (h : ∀ b, (f b).Obeys L) (l : List β) :
    (l.forM f).Obeys L := by
  induction l with
  | nil => exact obeys_pure _
  | cons b l ih => exact (h b).bind fun _ => ih

theorem obeys_note (statement : Stmt) {act : Exec Answer} (h : act.Obeys L) :
    (note statement act).Obeys L := fun r => by
  rw [ends_note]
  exact (h r).imp (fun _ _ hb => hb.log) (fun _ _ hb => hb.log) fun _ hs => hs

theorem Tame.journal_suffix {act : Exec α} (h : act.Tame) (r : Run) :
    act.Ends r (fun _ b => r.journal <:+ b.journal) (fun _ b => r.journal <:+ b.journal)
      fun b => r.journal <:+ b.journal :=
  (h r).imp (fun _ _ hb => hb.path.journal_suffix) (fun _ _ hb => hb.path.journal_suffix)
    fun _ hb => hb.path.journal_suffix

theorem obeys_note_of_unfair {statement : Stmt} {act : Exec Answer} (tame : act.Tame)
    (unfair : ∀ s outcome, ¬ L.fair ⟨statement, s, outcome⟩)
    (strict : ¬ (L.optimizes ∧ ∀ id, L.apt id)) : (note statement act).Obeys L := fun r => by
  rw [ends_note]
  exact (tame.journal_suffix r).imp
    (fun _ _ hb => .of_fair hb fun fair => absurd fair (unfair _ _))
    (fun _ _ hb => .of_fair hb fun fair => absurd fair (unfair _ _))
    fun _ ⟨since, journal⟩ =>
      ⟨since, journal.symm, fun optimizes all => absurd ⟨optimizes, all⟩ strict⟩

section Graph
variable {call : Block → Exec Unit} {s : Session} {journal : List Entry} {stopped : Run → Prop}

theorem Ends.within_result {act : Exec α} {kind : ScopeKind} {enter : Scopes → Scopes}
    {P : α → Prop} (h : ∀ r, act.Ends r (fun a _ => P a) (fun _ _ => False) fun _ => True) :
    (Exec.within kind enter act).Ends r (fun a _ => P a) (fun _ _ => False) fun _ => True := by
  simp only [Exec.within, ends_bind, ends_update, ends_settle, ends_leave]
  refine (h _).imp (fun a b ha => ?_) (fun _ _ h => h.elim) fun _ hs => hs
  split
  · exact ha
  · trivial

theorem ends_gatherFacts_configured (call : Block → Exec Unit) (p : FactGathering) (r : Run) :
    (gatherFacts call p).Ends r
      (fun q _ => (Pass.facts q).configured = (Pass.facts p).configured) (fun _ _ => True)
      fun _ => True := by
  unfold gatherFacts
  split
  · rfl
  · simp only [ends_bind, ends_apply, ends_update, ends_pure]
    exact .of_forall (fun _ _ => rfl) (fun _ _ => trivial) fun _ => trivial

theorem ends_runPass_configured (call : Block → Exec Unit) (p : Pass) (r : Run) :
    (runPass call p).Ends r (fun q _ => q.1.configured = p.configured) (fun _ _ => False)
      fun _ => True := by
  cases p with
  | facts f =>
    simp only [runPass, ends_bind, ends_settle]
    exact (ends_gatherFacts_configured call f r).imp (fun _ _ same => same) (fun _ _ _ => rfl)
      fun _ h => h
  | merging => rfl
  | idle => rfl
  | scripted p =>
    simp only [runPass, ends_bind, ends_settle]
    exact .of_forall (fun _ _ => rfl) (fun _ _ => rfl) fun _ => trivial

theorem ends_runPasses_configured (call : Block → Exec Unit) (ps : List Pass) (r : Run) :
    (runPasses call ps).Ends r
      (fun q _ => q.1.map Pass.configured = ps.map Pass.configured) (fun _ _ => False)
      fun _ => True := by
  induction ps generalizing r with
  | nil => rfl
  | cons p ps ih =>
    rw [runPasses, ends_bind]
    refine (ends_runPass_configured call p r).imp (fun q b first => ?_) (fun _ _ h => h)
      fun _ h => h
    obtain ⟨q, _ | _⟩ := q
    · exact congrArg (· :: _) first
    · simp only [ends_bind, ends_pure]
      exact (ih b).imp (fun _ _ rest => congrArg₂ List.cons first rest) (fun _ _ h => h)
        fun _ h => h

theorem ends_buildGraph_of_closed {P : Run → Prop} (closed : s.scopes.guards.isEmpty = true)
    (h : (inSession (runPasses call s.passes)).Ends ⟨{ s with passes := [] }, journal⟩
      (fun p c => P (c.on { c.session with passes := p.1 })) (fun _ => P) stopped) :
    (buildGraph call).Ends ⟨s, journal⟩ (fun _ => P) (fun _ => P) stopped := by
  simp only [buildGraph, ends_bind, ends_session, closed, Bool.not_true, Bool.false_eq_true,
    if_false, ends_update]
  refine h.imp (fun p c hc => ?_) (fun _ _ h => h) fun _ h => h
  have built : (do
      ofExcept p.2
      let s ← session
      let g ← ofExcept s.dependencyGraph
      ofExcept (p.1.foldlM (Pass.refine s) g) : Exec (Graph UnitId)).Ends c
        (fun _ b => b = c) (fun _ b => b = c) stopped := by
    obtain ⟨qs, _ | _⟩ := p
    · rfl
    · simp only [ends_bind, ends_ofExcept_ok, ends_session]
      cases c.session.dependencyGraph with
      | error e => rfl
      | ok g =>
        rw [ends_ofExcept_ok]
        cases qs.foldlM (Pass.refine c.session) g <;> rfl
  rw [ends_settle]
  refine built.imp (fun g b hb => ?_) (fun e b hb => ?_) fun _ h => h
  · subst hb
    exact hc
  · subst hb
    exact hc

theorem ends_buildGraph_of_idle (idle : s.scopes.guards.isEmpty = false ∨ s.passes = []) :
    (buildGraph call).Ends ⟨s, journal⟩ (fun _ => Run.Idle ⟨s, journal⟩)
      (fun _ => Run.Idle ⟨s, journal⟩) stopped := by
  cases closed : s.scopes.guards.isEmpty with
  | false =>
    simp only [buildGraph, ends_bind, ends_session, closed, Bool.not_false, if_true, ends_fail]
    exact ⟨rfl, .refl s⟩
  | true =>
    have none := idle.resolve_left (by simp [closed])
    refine ends_buildGraph_of_closed closed ?_
    rw [none, runPasses, ends_inSession_pure]
    exact ⟨rfl, .of_eq rfl rfl rfl none.symm rfl⟩

theorem ends_plan_of_buildGraph {P : Run → Prop}
    (h : (buildGraph call).Ends r (fun _ => P) (fun _ => P) stopped) :
    (plan call).Ends r (fun _ => P) (fun _ => P) stopped := by
  rw [plan, ends_bind]
  refine h.imp (fun g b hb => ?_) (fun _ _ h => h) fun _ h => h
  rw [ends_query]
  cases b.session.planOf g <;> exact hb

end Graph

section Sound
variable (sound : L.Sound)
include sound

theorem obeys_update {f : Session → Session} (h : ∀ s, Still s (f s)) : (update f).Obeys L :=
  fun r => .of_change fun hr => sound.still hr (h r.session)

theorem obeys_perform {f : Session → Except Error (α × Session)}
    (h : ∀ s a t, f s = .ok (a, t) → Still s t) : (perform f).Obeys L := fun r => by
  rw [ends_perform]
  cases hf : f r.session with
  | ok p => exact .of_change fun hr => sound.still hr (h _ _ _ hf)
  | error e => exact .refl r

theorem obeys_apply {f : Session → α × Session} (h : ∀ s, Still s (f s).2) : (apply f).Obeys L :=
  obeys_perform sound fun s a t e => by
    obtain rfl : (f s).2 = t := by simpa using congrArg Prod.snd (Except.ok.inj e)
    exact h s

theorem Obeys.within {act : Exec α} (h : act.Obeys L) {kind : ScopeKind} {enter : Scopes → Scopes}
    (notGroup : kind ≠ .hostGroup) (he : ∀ c, (enter c).hostGroups = c.hostGroups) :
    (within kind enter act).Obeys L := fun _ =>
  Ends.within (h.after (.of_change fun hr => sound.still hr (.of_eq rfl rfl (he _) rfl rfl)))
    (fun _ _ hb hl => hb.change fun _ hs => sound.still hs (still_leave notGroup hl))
    fun _ => Law.Keeps.breaks

theorem Obeys.inSession {act : Exec α} (h : act.Obeys L) : (inSession act).Obeys L :=
  obeys_session.bind fun _ => h.within sound (by decide) fun _ => rfl

theorem Ends.inGroup_obeys {act : Exec α} (tame : act.Tame) (h : act.Obeys L) {id : GroupId}
    (ha : L.Keeps r a) (apt : L.holds r.session → L.apt id) :
    (Exec.inGroup id act).Ends a (fun _ => L.Keeps r) (fun _ => L.Keeps r) (L.Breaks r) := by
  rw [Exec.inGroup, ends_bind, ends_discard, ends_query, getGroup]
  cases a.session.group? id with
  | none => exact ha
  | some g =>
    let inner : Run := a.on (a.session.under (a.session.scopes.hostGroups.enter id))
    have entered : L.Keeps r inner := ha.change fun hr => sound.enter (apt hr)
    have block := (h inner).and (tame.restores inner)
    refine Ends.within (block.imp (fun _ _ hb => hb) (fun _ _ hb => hb)
      fun _ hb => entered.trans_breaks hb.1) ?_ fun _ hb => (entered.trans hb.1).breaks
    rintro b scopes ⟨kept, restored⟩ left
    -- what has been entered since has been left, so the stack is that of `a` again
    obtain ⟨_, rest, frames, rfl⟩ := Scopes.exit_eq_ok left
    rw [restored.hostGroups] at frames
    obtain ⟨-, rfl⟩ := List.cons.inj frames
    obtain ⟨before, first, ha⟩ := ha
    obtain ⟨after, second, kept⟩ := kept
    refine ⟨after ++ before, by rw [Run.on_journal, second, Run.on_journal, first,
      List.append_assoc], fun fair hr => ?_⟩
    obtain ⟨fairAfter, fairBefore⟩ := List.forall_mem_append.1 fair
    obtain ⟨ha, heldBefore⟩ := ha fairBefore hr
    obtain ⟨hb, heldAfter⟩ := kept fairAfter (sound.enter (apt hr) ha)
    exact ⟨sound.leave ha hb, List.forall_mem_append.2 ⟨heldAfter, heldBefore⟩⟩

theorem Obeys.withHosts {act : Exec α} (tame : act.Tame) (h : act.Obeys L)
    (pattern : Option String) (settings : Attributes) :
    (withHosts pattern settings act).Obeys L := fun r => by
  rw [Exec.withHosts, ends_bind, ends_perform]
  cases hosts : r.session.declareHosts pattern settings with
  | error e => exact .refl r
  | ok p =>
    exact Ends.inGroup_obeys sound tame h (.of_change fun hr => (sound.hosts hosts hr).2)
      fun hr => (sound.hosts hosts hr).1

theorem obeys_openGuard (condition : String) : (update (·.openGuard condition)).Obeys L :=
  obeys_update sound fun _ => .of_eq rfl rfl rfl rfl rfl

theorem Obeys.underGuard {act : Exec α} (h : act.Obeys L) (condition : String) :
    (underGuard condition act).Obeys L :=
  h.within sound (by decide) fun _ => rfl

theorem obeys_closeGuard : closeGuard.Obeys L := fun r => by
  simp only [closeGuard, ends_bind, ends_query, ends_session, ends_leave, ends_pure]
  cases r.session.ownGuard with
  | error e => exact .refl r
  | ok u =>
    rw [ends_ofExcept_ok]
    split
    · rename_i left hl
      exact .of_change fun hr => sound.still hr (still_leave (by decide) hl)
    · exact (Law.Keeps.refl r).breaks

theorem obeys_recordStep (action : String) (args : Value) (edits : List StepEdit) :
    (recordStep action args edits).Obeys L :=
  (obeys_perform sound fun _ _ _ => still_recordStep).bind fun _ => obeys_pure _

theorem obeys_recordSteps (action : String) (args : Value) (count : Nat) (edits : List StepEdit) :
    (recordSteps action args count edits).Obeys L :=
  obeys_foldlM (fun _ _ => (obeys_recordStep sound action args edits).map some) _ _

section Nested
variable {bound : Nat} (hc : ∀ block, (runWithin bound block).Obeys L)
include hc

theorem obeys_runBody : ∀ body, (runBody (runWithin bound) body).Obeys L
  | .script block => hc block
  | .step action args => (obeys_recordStep sound action args []).discard

theorem obeys_invoke (id : UnitId) : (invoke (runWithin bound) id).Obeys L := fun r => by
  refine Ends.invoke (L.Keeps r) (.refl r) (fun u group _ active => ?_) (fun b scopes hb hl => ?_)
    fun _ => Law.Keeps.breaks
  · have begun : L.Keeps r (r.on (r.session.begin id group)) := .of_change fun hr =>
      sound.still (sound.bind active hr) (.of_eq rfl rfl rfl rfl rfl)
    exact (obeys_runBody sound hc u.body).after begun
  · exact hb.change fun _ hs =>
      sound.still (sound.still hs (still_leave (by decide) hl)) (.of_eq rfl rfl rfl rfl rfl)

theorem obeys_invokeMember (runbook : Runbook) (inst : Instance) (id : UnitId) :
    (invokeMember (runWithin bound) runbook inst id).Obeys L :=
  (obeys_query _).bind fun _ => (obeys_ofExcept _).bind fun _ => (obeys_ofExcept _).bind fun _ =>
    (obeys_update sound fun s => s.still_constrain id _ _).bind fun _ => obeys_invoke sound hc id

theorem obeys_populate (runbook : Runbook) (inst : Instance) :
    (populate (runWithin bound) runbook inst).Obeys L := by
  unfold populate
  split
  · exact (hc _).bind fun _ => obeys_forM (obeys_invokeMember sound hc runbook inst) _
  · exact obeys_forM (obeys_invokeMember sound hc runbook inst) _

theorem obeys_instantiate (id : RunbookId) (vars : Attributes) :
    (instantiate (runWithin bound) id vars).Obeys L := fun r => by
  simp only [instantiate, ends_bind, ends_session, getRunbook]
  cases r.session.runbook? id with
  | none => exact .refl r
  | some runbook =>
    simp only [ends_ofExcept_ok]
    cases r.session.currentGroup? with
    | none => exact .refl r
    | some parent =>
      simp only [ends_bind, ends_perform]
      cases copied : r.session.copyGroup parent with
      | error e => exact .refl r
      | ok p =>
        obtain ⟨_, _, declared⟩ := declareHosts_of_copyGroup copied
        have apt (hr : L.holds r.session) := (sound.hosts declared hr).1
        have made (instances : List Instance) : L.Keeps r (r.on
            { p.2.modifyGroup p.1 ({ · with vars }) with instances }) := .of_change fun hr =>
          sound.still (sound.copied declared vars hr) (.of_eq rfl rfl rfl rfl rfl)
        simp only [ends_ofExcept_ok, ends_update, ends_pure]
        refine Ends.within ?_ (fun _ _ hb hl => hb.change fun _ hs =>
          sound.still hs (still_leave (by decide) hl)) fun _ => Law.Keeps.breaks
        exact Ends.inGroup_obeys sound (tame_populate (tame_runWithin bound) _ _)
          (obeys_populate sound hc _ _)
          ((made _).change fun _ hs => sound.still hs (.of_eq rfl rfl rfl rfl rfl)) apt

theorem obeys_gatherFacts (optimizes : L.optimizes) (p : FactGathering) :
    (gatherFacts (runWithin bound) p).Obeys L := by
  have skipped : (update fun s => { s with
      groups := s.groups.map (·.setSetting "gather_facts" (.bool false)) }).Obeys L := fun r =>
    .of_change (sound.skipFacts optimizes)
  unfold gatherFacts
  split
  · exact obeys_pure p
  · exact (obeys_apply sound fun s => s.still_declareAs _ _).bind fun _ =>
      (((obeys_invoke sound hc _).withHosts sound (tame_invoke (tame_runWithin bound) _) _ _).bind
        fun _ => skipped.bind fun _ => obeys_pure _)

omit hc in
theorem obeys_mergeBindings (optimizes : L.optimizes) :
    (apply Session.mergeBindings).Obeys L := fun r => by
  rw [ends_apply]
  exact .of_change (sound.merge optimizes)

theorem obeys_runPass (optimizes : L.optimizes) : ∀ p : Pass, (runPass (runWithin bound) p).Obeys L
  | .facts p => (obeys_gatherFacts sound hc optimizes p).settle.bind fun
    | .ok _ => obeys_pure _
    | .error _ => obeys_pure _
  | .merging _ => (obeys_mergeBindings sound optimizes).bind fun _ => obeys_pure _
  | .idle => obeys_pure _
  | .scripted p => (hc p.block).settle.bind fun _ => obeys_session.bind fun _ => obeys_pure _

theorem obeys_runPasses (optimizes : L.optimizes) :
    ∀ ps : List Pass, (runPasses (runWithin bound) ps).Obeys L
  | [] => obeys_pure _
  | p :: ps => (obeys_runPass sound hc optimizes p).bind fun
    | (_, .error _) => obeys_pure _
    | (_, .ok ()) => (obeys_runPasses optimizes ps).bind fun _ => obeys_pure _

theorem obeys_buildGraph (optimizes : L.optimizes) :
    (buildGraph (runWithin bound)).Obeys L := fun ⟨s, journal⟩ => by
  by_cases idle : s.scopes.guards.isEmpty = false ∨ s.passes = []
  · exact (ends_buildGraph_of_idle idle).imp (fun _ _ => .of_idle sound) (fun _ _ => .of_idle sound)
      fun _ h => h
  · obtain ⟨closed, given⟩ := not_or.1 idle
    refine ends_buildGraph_of_closed (Bool.not_eq_false _ ▸ closed) ?_
    have out : L.Keeps ⟨s, journal⟩ ⟨{ s with passes := [] }, journal⟩ := .of_change fun hs =>
      sound.still hs ⟨rfl, rfl, rfl, fun _ => rfl, 0, (List.append_nil _).symm⟩
    exact (((obeys_runPasses sound hc optimizes s.passes).inSession sound).after out).imp
      (fun p c hc => hc.change fun hs ht => sound.pipeline optimizes p.1 given hs ht)
      (fun _ _ h => h) fun _ h => h

theorem obeys_plan (optimizes : L.optimizes) : (plan (runWithin bound)).Obeys L :=
  fun r => ends_plan_of_buildGraph (obeys_buildGraph sound hc optimizes r)

theorem obeys_repeatFacts (optimizes : L.optimizes) :
    ∀ (n : Nat) (p : FactGathering), (repeatFacts (runWithin bound) n p).Obeys L
  | 0, p => obeys_pure p
  | n + 1, p => (obeys_gatherFacts sound hc optimizes p).bind fun p =>
    obeys_repeatFacts optimizes n p

omit sound hc in
theorem obeys_anchored (p : FactGathering) : (anchored p).Obeys L :=
  obeys_session.bind fun _ => (obeys_ofExcept _).bind fun _ => obeys_ofExcept _

omit sound hc in
theorem obeys_tryFacts {call : Block → Exec Unit} {t : FactTrial}
    (h : ∀ p, (repeatFacts call t.times p).Obeys L) : (tryFacts call t).Obeys L := by
  unfold tryFacts
  refine (obeys_ofExcept _).bind fun p => ?_
  extract_lets late
  have late_obeys (early : Graph UnitId) : (late early).Obeys L := by
    refine (h _).bind fun p => ?_
    extract_lets answer
    have answer_obeys (g : Graph UnitId) : (answer g).Obeys L :=
      obeys_session.bind fun _ => obeys_pure _
    split
    · exact (obeys_anchored p).bind answer_obeys
    · exact (obeys_pure early).bind answer_obeys
  split
  · exact (obeys_anchored p).bind late_obeys
  · exact (obeys_pure .empty).bind late_obeys

omit sound hc in
theorem obeys_note_modifyGroup {statement : Stmt} {id : GroupId} {f : HostGroup → HostGroup}
    (kept : ∀ s t, L.fair ⟨statement, t, .ok .done⟩ → L.holds s → L.holds (s.modifyGroup id f)) :
    (note statement do
      discard (query (·.getGroup id))
      update (·.modifyGroup id f)
      return .done).Obeys L := fun r => by
  simp only [ends_note, ends_bind, ends_discard, ends_query, ends_update, ends_pure]
  cases r.session.getGroup id with
  | error e => exact (Law.Keeps.refl r).log
  | ok g => exact .of_fair List.suffix_rfl fun fair => .of_change (kept _ _ fair)

omit hc in
theorem obeys_modifyUnit {id : UnitId} {f : WorkUnit → WorkUnit}
    (still : ∀ s, Still s (s.modifyUnit id f)) : Exec.Obeys L (do
      discard (query (·.getUnit id))
      update (·.modifyUnit id f)
      return Answer.done) :=
  (obeys_query _).discard.bind fun _ => (obeys_update sound still).bind fun _ => obeys_pure _

omit sound in
theorem obeys_flagged (holds : Bool) (block : Block) : Exec.Obeys L (do
    if holds then runWithin bound block
    return .flag holds : Exec Answer) := by
  split
  · exact (hc block).bind fun _ => obeys_pure _
  · exact obeys_pure _

theorem obeys_enterHosts (id : GroupId) (block : Block) :
    (note (.enterHosts id block) (step (runWithin bound) (.enterHosts id block))).Obeys L := by
  by_cases apt : L.apt id
  · have entered : (inGroup id (runWithin bound block)).Obeys L := fun r =>
      Ends.inGroup_obeys sound (tame_runWithin bound block) (hc block) (.refl r) fun _ => apt
    exact obeys_note _ (entered.bind fun _ => obeys_pure _)
  · exact obeys_note_of_unfair (tame_step (tame_runWithin bound) _ nofun)
      (fun s outcome fair => apt (sound.enters fair)) fun lax => apt (lax.2 id)

theorem obeys_optimizing_of (optimizes : L.optimizes) {statement : Stmt}
    (h : statement.optimizes = true) :
    (note statement (step (runWithin bound) statement)).Obeys L := by
  refine obeys_note _ ?_
  cases statement with
  | plan form => exact (obeys_plan sound hc optimizes).bind fun _ => obeys_ofExcept _
  | buildGraph =>
    exact (obeys_buildGraph sound hc optimizes).bind fun _ =>
      obeys_session.bind fun _ => obeys_pure _
  | merge => exact (obeys_mergeBindings sound optimizes).map _
  | gatherFacts => exact obeys_tryFacts (obeys_repeatFacts sound hc optimizes _)
  | _ => cases h

section Statements
variable (ho : ∀ statement : Stmt, statement.optimizes = true →
  (note statement (step (runWithin bound) statement)).Obeys L)
include ho

theorem obeys_noted (statement : Stmt) :
    (note statement (step (runWithin bound) statement)).Obeys L := by
  cases statement with
  | declare d => exact obeys_note _ ((obeys_apply sound fun s => s.still_declareAs _ _).map _)
  | runbook =>
    exact obeys_note _ ((obeys_perform sound fun _ _ _ => still_declareRunbook).map _)
  | hosts pattern settings =>
    have declared : (perform (·.declareHosts pattern settings)).Obeys L := fun r => by
      rw [ends_perform]
      cases hosts : r.session.declareHosts pattern settings with
      | error e => exact .refl r
      | ok p => exact .of_change fun hr => (sound.hosts hosts hr).2
    exact obeys_note _ (declared.map _)
  | setSetting => exact obeys_note_modifyGroup fun _ _ => sound.setSetting
  | setVar => exact obeys_note_modifyGroup fun _ _ => sound.setVar
  | addBefore unit | addAfter unit =>
    exact obeys_note _ (obeys_modifyUnit sound fun s => s.still_constrain unit _ _)
  | enter block => exact obeys_note _ (((hc block).inSession sound).bind fun _ => obeys_pure _)
  | enterHosts id block => exact obeys_enterHosts sound hc id block
  | withHosts pattern settings block =>
    have tame := tame_runWithin bound block
    exact obeys_note _ (Obeys.withHosts sound
      (tame.bind fun _ => tame_session.bind fun _ => tame_pure _)
      ((hc block).bind fun _ => obeys_session.bind fun _ => obeys_pure _) _ _)
  | «when» condition block =>
    exact obeys_note _ (((hc block).underGuard sound condition).bind fun _ => obeys_pure _)
  | openGuard condition =>
    exact obeys_note _ ((obeys_openGuard sound condition).bind fun _ => obeys_pure _)
  | closeGuard => exact obeys_note _ ((obeys_closeGuard sound).map _)
  | invoke unit => exact obeys_note _ ((obeys_invoke sound hc unit).bind fun _ => obeys_pure _)
  | instantiate runbook vars => exact obeys_note _ ((obeys_instantiate sound hc runbook vars).map _)
  | step action args count edits =>
    exact obeys_note _ ((obeys_recordSteps sound action args count edits).map _)
  | getFile =>
    exact obeys_note _ ((obeys_query _).bind fun _ => (obeys_recordStep sound _ _ _).map _)
  | varStep =>
    exact obeys_note _ (obeys_session.bind fun _ => (obeys_recordStep sound _ _ _).map _)
  | patternStep =>
    exact obeys_note _ (obeys_session.bind fun _ => (obeys_recordStep sound _ _ _).map _)
  | fail error => exact obeys_note _ (obeys_fail error)
  | attempt block =>
    refine obeys_note _ ((hc block).settle.bind fun result => ?_)
    cases result <;> exact obeys_pure _
  | ifInvokedLess =>
    exact obeys_note _ (obeys_session.bind fun _ => obeys_flagged hc _ _)
  | ifVar => exact obeys_note _ (obeys_session.bind fun _ => obeys_flagged hc _ _)
  | ask q => exact obeys_note _ (obeys_query _)
  | buildGraph | merge | gatherFacts | plan => exact ho _ rfl

theorem obeys_runBlock : ∀ block, (runBlock (runWithin bound) block).Obeys L
  | [] => obeys_pure _
  | t :: ts => (obeys_noted sound hc ho t).bind fun _ => obeys_runBlock ts

theorem obeys_runAll : ∀ block, (runAll (runWithin bound) block).Obeys L
  | [] => obeys_pure _
  | t :: ts => (obeys_noted sound hc ho t).settle.discard.bind fun _ => obeys_runAll ts

end Statements
end Nested

theorem obeys_runWithin_of (optimizes : L.optimizes) :
    ∀ (bound : Nat) (block : Block), (runWithin bound block).Obeys L
  | 0, _ => obeys_exhausted
  | bound + 1, block =>
    have hc := obeys_runWithin_of optimizes bound
    obeys_runBlock sound hc (fun _ => obeys_optimizing_of sound hc optimizes) block

end Sound

end Exec

/-- A sound law that allows passes and every host group holds in all sessions that a script with
fair entries comes by, whether it comes to its end or not. -/
theorem Law.Sound.holds_of_mem_states {L : Law} (sound : L.Sound) (optimizes : L.optimizes)
    (all : ∀ id, L.apt id) {s t : Session} {bound : Nat} {script : Block} (hs : L.holds s)
    (fair : ∀ e ∈ (s.run bound script).entries, L.fair e) (ht : t ∈ s.states bound script) :
    L.holds t := by
  have hc := Exec.obeys_runWithin_of sound optimizes bound
  have ho (t : Stmt) (h : t.optimizes = true) :
      (Exec.note t (Exec.step (runWithin bound) t)).Obeys L :=
    Exec.obeys_optimizing_of sound hc optimizes h
  have obeys := Exec.obeys_runAll sound hc ho script ⟨s, []⟩
  obtain ⟨since, told, held⟩ : ∃ since : List Entry, (s.run bound script).entries = since.reverse ∧
      ((∀ e ∈ since, L.fair e) → ∀ e ∈ since, L.holds e.session) := by
    unfold Exec.Ends at obeys
    unfold Session.run
    split at obeys
    · rename_i e
      obtain ⟨since, journal, kept⟩ := obeys
      exact ⟨since, by simp [e, journal], fun fair => (kept fair hs).2⟩
    · rename_i e
      obtain ⟨since, journal, kept⟩ := obeys
      exact ⟨since, by simp [e, journal], fun fair => (kept fair hs).2⟩
    · rename_i e
      obtain ⟨since, journal, kept⟩ := obeys
      exact ⟨since, by simp [e, journal], fun fair => kept optimizes all fair hs⟩
  rw [told] at fair
  rcases List.mem_cons.1 ht with rfl | ht
  · exact hs
  · obtain ⟨e, he, rfl⟩ := List.mem_map.1 ht
    rw [told] at he
    exact held (fun e he => fair e (List.mem_reverse.2 he)) e (List.mem_reverse.1 he)

end Playbook
