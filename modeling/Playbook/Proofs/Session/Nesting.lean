import Playbook.Proofs.Session.Moves
import Playbook.Proofs.Session.Outcome

/-! Every run of a script is a course: scopes are left in the order in which they were entered,
however deep blocks, units, runbooks and passes call one another and wherever errors are raised or
caught. A run that stops at a fault, or at the bound on its nesting, has come some way along. -/

namespace Playbook
open Session

namespace Exec
variable {α β : Type}

/-- From wherever it is started the action runs a course, whether it ends well or fails. -/
def Tame (act : Exec α) : Prop := ∀ r, act.Ends r (fun _ => r.Course) (fun _ => r.Course) r.Trail

theorem Ends.after {act : Exec α} {r a : Run} (ha : r.Course a)
    (h : act.Ends a (fun _ => a.Course) (fun _ => a.Course) a.Trail) :
    act.Ends a (fun _ => r.Course) (fun _ => r.Course) r.Trail :=
  h.imp (fun _ _ => ha.trans) (fun _ _ => ha.trans) fun _ => ha.trail

theorem tame_pure (a : α) : (pure a : Exec α).Tame := fun r => .refl r

theorem tame_fail (e : Error) : (fail e : Exec α).Tame := fun r => .refl r

theorem tame_exhausted : (throw .exhausted : Exec α).Tame := fun r =>
  .course (.refl r)

theorem tame_ofExcept : ∀ x : Except Error α, (ofExcept x).Tame
  | .ok a => tame_pure a
  | .error e => tame_fail e

theorem tame_session : session.Tame := fun r => .refl r

theorem tame_query (f : Session → Except Error α) : (query f).Tame := fun r => by
  simpa using tame_ofExcept (f r.session) r

theorem Tame.bind {act : Exec β} {f : β → Exec α} (h : act.Tame) (hf : ∀ b, (f b).Tame) :
    (act >>= f).Tame := fun r => by
  simpa using (h r).imp (fun b _ hb => (hf b _).after hb) (fun _ _ he => he) fun _ hs => hs

theorem Tame.map {act : Exec β} (h : act.Tame) (f : β → α) : (f <$> act).Tame := fun r => by
  simpa using h r

theorem Tame.discard {act : Exec β} (h : act.Tame) : (discard act).Tame := fun r => by
  simpa using h r

theorem Tame.settle {act : Exec α} (h : act.Tame) : (settle act).Tame := fun r => by
  simpa using h r

theorem tame_update {f : Session → Session} (h : ∀ s, Update s (f s)) : (update f).Tame :=
  fun r => (Run.Course.refl r).update (h r.session)

theorem tame_perform {f : Session → Except Error (α × Session)}
    (h : ∀ s a t, f s = .ok (a, t) → Updates s t) : (perform f).Tame := fun r => by
  rw [ends_perform]
  cases hf : f r.session with
  | ok p => exact (Run.Course.refl r).updates (h _ _ _ hf)
  | error e => exact .refl r

theorem tame_apply {f : Session → α × Session} (h : ∀ s, Update s (f s).2) : (apply f).Tame :=
  tame_perform fun s a t e => by
    obtain rfl : (f s).2 = t := by simpa using congrArg Prod.snd (Except.ok.inj e)
    exact .single (h s)

theorem Tame.within {act : Exec α} (h : act.Tame) {kind : ScopeKind} {enter : Scopes → Scopes}
    (hk : kind = .session ∨ kind = .hostGroup ∨ kind = .runbook) {r : Run}
    (he : r.session.Entered kind (enter r.session.scopes)) :
    (within kind enter act).Ends r (fun _ => r.Course) (fun _ => r.Course) r.Trail :=
  Ends.within ((h _).imp (fun _ _ hb => hb) (fun _ _ hb => hb) fun _ => .scope (.refl r) hk he)
    (fun _ _ hb hl => (Run.Course.refl r).scope hk he hb hl)
    fun _ hb => .scope (.refl r) hk he (.course hb)

theorem Tame.inSession {act : Exec α} (h : act.Tame) : (inSession act).Tame := fun r => by
  rw [Exec.inSession, ends_bind, ends_session]
  exact h.within (.inl rfl) .session

theorem Tame.inGroup {act : Exec α} (h : act.Tame) (id : GroupId) : (inGroup id act).Tame :=
  fun r => by
    rw [Exec.inGroup, ends_bind, ends_discard, ends_query, getGroup]
    cases hg : r.session.group? id with
    | none => exact .refl r
    | some g => exact h.within (.inr (.inl rfl)) (.hostGroup hg)

theorem declareHosts_updates {s t : Session} {pattern : Option String} {settings : Attributes}
    {id : GroupId} (h : s.declareHosts pattern settings = .ok (id, t)) : Updates s t :=
  .single (.hosts h)

theorem Tame.withHosts {act : Exec α} (h : act.Tame) (pattern : Option String)
    (settings : Attributes) : (withHosts pattern settings act).Tame :=
  (tame_perform fun _ _ _ => declareHosts_updates).bind fun id => h.inGroup id

theorem tame_recordStep (action : String) (args : Value) (edits : List StepEdit) :
    (recordStep action args edits).Tame :=
  (tame_perform fun _ _ _ h => .single (.record h)).bind fun _ => tame_pure _

theorem tame_foldlM {f : β → α → Exec β} (h : ∀ b a, (f b a).Tame) :
    ∀ (l : List α) (b : β), (l.foldlM f b).Tame
  | [], b => tame_pure b
  | a :: l, b => by
    rw [List.foldlM_cons]
    exact (h b a).bind fun b => tame_foldlM h l b

theorem tame_forM {f : β → Exec PUnit} (h : ∀ b, (f b).Tame) : ∀ l : List β, (l.forM f).Tame
  | [] => tame_pure _
  | b :: l => (h b).bind fun _ => tame_forM h l

theorem tame_recordSteps (action : String) (args : Value) (count : Nat) (edits : List StepEdit) :
    (recordSteps action args count edits).Tame :=
  tame_foldlM (fun _ _ => (tame_recordStep action args edits).map some) _ _

theorem tame_closeGuard : closeGuard.Tame := fun r => by
  simp only [closeGuard, ends_bind, ends_query, ends_session, ends_leave, ends_pure]
  cases ho : r.session.ownGuard with
  | error e => exact .refl r
  | ok u =>
    rw [ends_ofExcept_ok]
    split
    · rename_i left hl
      exact (Run.Course.refl r).closeGuard ho hl
    · exact .course (.refl r)

theorem tame_note (statement : Stmt) {act : Exec Answer} (h : act.Tame) :
    (note statement act).Tame := fun r => by
  rw [ends_note]
  exact (h r).imp (fun _ _ hb => hb.log _ _) (fun _ _ hb => hb.log _ _) fun _ hs => hs

section Nested
variable {call : Block → Exec Unit}

theorem Ends.invoke {r : Run} {id : UnitId} {post stopped : Run → Prop} (mid : Run → Prop)
    (rejected : post r)
    (body : ∀ u group, r.session.unit? id = some u → r.session.currentGroup? = some group →
      (runBody call u.body).Ends (r.on (r.session.begin id group)) (fun _ => mid) (fun _ => mid)
        stopped)
    (left : ∀ b scopes, mid b → b.session.scopes.exit .unit = .ok scopes →
      post (b.on (r.session.finish { b.session with scopes })))
    (fault : ∀ b, mid b → stopped b) :
    (invoke call id).Ends r (fun _ => post) (fun _ => post) stopped := by
  simp only [Exec.invoke, ends_bind, ends_session, getUnit]
  cases hu : r.session.unit? id with
  | none => exact rejected
  | some u =>
    cases hg : r.session.currentGroup? with
    | none => exact rejected
    | some group =>
      simp only [ends_ofExcept_ok, ends_bind, ends_update, ends_settle, ends_session]
      -- the unwinding has been done, and what is left raises no more than an error
      have returned (b : Run) (result : Except Error Unit) (hb : post b) (opened : Nat) :
          (ofExcept result).Ends b
            (fun _ b => (if 0 < opened then fail (.danglingGuard u.name opened)
              else pure ()).Ends b (fun _ => post) (fun _ => post) stopped)
            (fun _ => post) stopped := by
        cases result with
        | error e => exact hb
        | ok _ =>
          rw [ends_ofExcept_ok]
          split <;> exact hb
      let bound : Session :=
        { (r.session.modifyUnit id (·.bind group)).modifyGroup group (·.addMember id) with
          guardFloor := r.session.scopes.guards.depth }
      have ended : (Exec.within .unit (fun c => { c with units := c.units.enter id })
          (runBody call u.body)).Ends (r.on bound)
          (fun _ c => post (c.on (r.session.finish c.session)))
          (fun _ c => post (c.on (r.session.finish c.session))) stopped :=
        Ends.within (body u group hu hg) left fault
      exact ended.imp (fun _ c hc => returned _ (.ok ()) hc _)
        (fun e c hc => returned _ (.error e) hc _) fun _ hs => hs

variable {bound : Nat} (hc : ∀ block, (runWithin bound block).Tame)
include hc

theorem tame_runBody : ∀ body, (runBody (runWithin bound) body).Tame
  | .script block => hc block
  | .step action args => (tame_recordStep action args []).discard

theorem tame_invoke (id : UnitId) : (invoke (runWithin bound) id).Tame := fun r => by
  let mid (b : Run) : Prop := ∃ u group, r.session.unit? id = some u ∧
    r.session.currentGroup? = some group ∧
    (runBody (runWithin bound) u.body).Concludes (r.on (r.session.begin id group)) b ∧
    (r.on (r.session.begin id group)).Course b
  refine Ends.invoke mid (.refl r) (fun u group hu hg => ?_) ?_ ?_
  · exact (tame_runBody hc u.body _).concludes.imp (fun _ _ hb => ⟨u, group, hu, hg, hb⟩)
      (fun _ _ hb => ⟨u, group, hu, hg, hb⟩) fun _ => .invoke (.refl r) hu hg
  · rintro b scopes ⟨u, group, hu, hg, ran, hb⟩ hl
    exact (Run.Course.refl r).invoke hu hg ran hb hl
  · rintro b ⟨u, group, hu, hg, -, hb⟩
    exact .invoke (.refl r) hu hg (.course hb)

theorem tame_invokeMember (runbook : Runbook) (inst : Instance) (id : UnitId) :
    (invokeMember (runWithin bound) runbook inst id).Tame :=
  (tame_query _).bind fun _ => (tame_ofExcept _).bind fun _ => (tame_ofExcept _).bind fun _ =>
    (tame_update fun _ => .constrain id _ _).bind fun _ => tame_invoke hc id

theorem tame_populate (runbook : Runbook) (inst : Instance) :
    (populate (runWithin bound) runbook inst).Tame := by
  unfold populate
  split
  · exact (hc _).bind fun _ => tame_forM (tame_invokeMember hc runbook inst) _
  · exact tame_forM (tame_invokeMember hc runbook inst) _

theorem tame_instantiate (id : RunbookId) (vars : Attributes) :
    (instantiate (runWithin bound) id vars).Tame := fun r => by
  simp only [instantiate, ends_bind, ends_session, getRunbook]
  cases hr : r.session.runbook? id with
  | none => exact .refl r
  | some runbook =>
    simp only [ends_ofExcept_ok]
    cases hg : r.session.currentGroup? with
    | none => exact .refl r
    | some parent =>
      simp only [ends_bind, ends_perform]
      cases hp : r.session.copyGroup parent with
      | error e => exact .refl r
      | ok p =>
        obtain ⟨_, _, declared⟩ := declareHosts_of_copyGroup hp
        obtain ⟨pattern, settings, rfl⟩ := addGroup_of_declareHosts declared
        have copied : r.Course (r.on (r.session.addGroup pattern settings).2) :=
          (Run.Course.refl r).update (.hosts declared)
        -- the instance was numbered before the group was copied, and copying makes no instance
        have varied := copied.update (.setVars (r.session.addGroup pattern settings).1 vars)
        have grouped : ∃ g, ((r.session.addGroup pattern settings).2.modifyGroup
            (r.session.addGroup pattern settings).1 ({ · with vars })).group?
            (r.session.addGroup pattern settings).1 = some g := by
          rw [group?_modifyGroup, group?_addGroup, if_pos rfl]
          exact ⟨_, rfl⟩
        simp only [ends_ofExcept_ok, ends_update, ends_pure]
        exact Ends.after (varied.update (.inst _ rfl ⟨runbook, hr⟩ grouped))
          (((tame_populate hc runbook _).inGroup _).within (.inr (.inr rfl))
            (.runbook List.getElem?_concat_length))

theorem tame_gatherFacts (p : FactGathering) : (gatherFacts (runWithin bound) p).Tame := by
  unfold gatherFacts
  split
  · exact tame_pure p
  · exact (tame_apply fun _ => .declare _ _).bind fun _ =>
      ((tame_invoke hc _).withHosts _ _).bind fun _ =>
      (tame_update fun _ => .skipFacts).bind fun _ => tame_pure _

theorem tame_runPass : ∀ p : Pass, (runPass (runWithin bound) p).Tame
  | .facts p => (tame_gatherFacts hc p).settle.bind fun
    | .ok _ => tame_pure _
    | .error _ => tame_pure _
  | .merging _ => (tame_apply fun _ => .merge).bind fun _ => tame_pure _
  | .idle => tame_pure _
  | .scripted p => (hc p.block).settle.bind fun _ => tame_session.bind fun _ => tame_pure _

theorem tame_runPasses : ∀ ps : List Pass, (runPasses (runWithin bound) ps).Tame
  | [] => tame_pure _
  | p :: ps => (tame_runPass hc p).bind fun
    | (_, .error _) => tame_pure _
    | (_, .ok ()) => (tame_runPasses ps).bind fun _ => tame_pure _

theorem tame_buildGraph : (buildGraph (runWithin bound)).Tame := by
  unfold buildGraph
  refine tame_session.bind fun s => ?_
  split
  · exact fun r => .refl r
  · exact (tame_update fun _ => .pipeline []).bind fun _ =>
      (tame_runPasses hc s.passes).inSession.bind fun p =>
      ((tame_ofExcept p.2).bind fun _ => tame_session.bind fun _ =>
        (tame_ofExcept _).bind fun _ => tame_ofExcept _).settle.bind fun _ =>
      (tame_update fun _ => .pipeline p.1).bind fun _ => tame_ofExcept _

theorem tame_plan : (plan (runWithin bound)).Tame := (tame_buildGraph hc).bind fun _ => tame_query _

theorem tame_repeatFacts : ∀ (n : Nat) (p : FactGathering), (repeatFacts (runWithin bound) n p).Tame
  | 0, p => tame_pure p
  | n + 1, p => (tame_gatherFacts hc p).bind fun p => tame_repeatFacts n p

omit hc in
theorem tame_anchored (p : FactGathering) : (anchored p).Tame :=
  tame_session.bind fun _ => (tame_ofExcept _).bind fun _ => tame_ofExcept _

theorem tame_tryFacts (t : FactTrial) : (tryFacts (runWithin bound) t).Tame := by
  unfold tryFacts
  refine (tame_ofExcept _).bind fun p => ?_
  extract_lets late
  have late_tame (early : Graph UnitId) : (late early).Tame := by
    refine (tame_repeatFacts hc _ _).bind fun p => ?_
    extract_lets answer
    have answer_tame (g : Graph UnitId) : (answer g).Tame :=
      tame_session.bind fun _ => tame_pure _
    split
    · exact (tame_anchored p).bind answer_tame
    · exact (tame_pure early).bind answer_tame
  split
  · exact (tame_anchored p).bind late_tame
  · exact (tame_pure .empty).bind late_tame

omit hc in
theorem declareMembers_updates (runbook : String) (ds : List (Declaration Body)) (s : Session)
    (members : OrderedMap String UnitId) :
    Updates s (s.declareMembers runbook members ds).2 := by
  induction ds generalizing s members with
  | nil => exact .refl
  | cons d ds ih => exact .head (.declare _ d) (ih _ _)

omit hc in
theorem declareMembers_declared (runbook : String) (ds : List (Declaration Body)) (s : Session)
    (members : OrderedMap String UnitId)
    (h : ∀ id ∈ members.values, ∃ u, s.unit? id = some u) :
    ∀ id ∈ (s.declareMembers runbook members ds).1.values,
      ∃ u, (s.declareMembers runbook members ds).2.unit? id = some u := by
  induction ds generalizing s members with
  | nil => exact h
  | cons d ds ih =>
    let declared := s.declareAs (Runbook.qualified runbook d.name) d
    refine ih declared.2 (members.insert d.name declared.1) fun id hid => ?_
    rw [unit?_declareAs]
    split
    · exact ⟨_, rfl⟩
    · rename_i hne
      rcases OrderedMap.mem_values_insert hid with rfl | hid
      · exact absurd rfl hne
      · exact h id hid

omit hc in
theorem declareRunbook_updates {s t : Session} {name : String} {setup : Option Block}
    {members : List (Declaration Body)} {id : RunbookId}
    (h : s.declareRunbook name setup members = .ok (id, t)) : Updates s t := by
  unfold declareRunbook at h
  split at h
  · simp at h
  · obtain ⟨rfl, rfl⟩ := Prod.mk.inj (Except.ok.inj h)
    exact (declareMembers_updates name members s .empty).tail
      (.runbook _ rfl (declareMembers_declared name members s .empty (by simp)))

omit hc in
theorem tame_modify {act : Exec β} (h : act.Tame) {f : Session → Session}
    (hf : ∀ s, Update s (f s)) : Tame (do discard act; update f; return Answer.done) :=
  h.discard.bind fun _ => (tame_update hf).bind fun _ => tame_pure _

omit hc in
theorem tame_openGuard (condition : String) : (update (·.openGuard condition)).Tame :=
  fun r => (Run.Course.refl r).openGuard condition

omit hc in
/-- A block under a condition, with its note. Only the two together are a course. -/
theorem tame_underGuard {act : Exec Unit} (h : act.Tame) (condition : String) (block : Block) :
    (note (.when condition block) do underGuard condition act; return .left .guard).Tame :=
  fun r => by
    have opened : r.Course (r.on (r.session.openGuard condition)) :=
      (Run.Course.refl r).openGuard condition
    have ended : (underGuard condition act).Ends r
        (fun _ c => ∀ outcome, r.Course (c.log (.when condition block) outcome))
        (fun _ c => ∀ outcome, r.Course (c.log (.when condition block) outcome)) r.Trail :=
      Ends.within ((h _).imp (fun _ _ hb => hb) (fun _ _ hb => hb) fun _ => opened.trail)
        (fun b scopes hb hl outcome => (Run.Course.refl r).underGuard condition block outcome hb hl)
        fun b hb => opened.trail (.course hb)
    rw [ends_note, ends_bind]
    exact ended.imp (fun _ _ hb => hb _) (fun _ _ hb => hb _) fun _ hs => hs

theorem tame_flagged (holds : Bool) (block : Block) :
    Tame (do
      if holds then runWithin bound block
      return .flag holds : Exec Answer) := by
  split
  · exact (hc block).bind fun _ => tame_pure _
  · exact tame_pure _

theorem tame_step (t : Stmt) (h : ∀ condition block, t ≠ .when condition block) :
    (step (runWithin bound) t).Tame := by
  cases t with
  | declare d => exact (tame_apply fun _ => .declare _ _).map _
  | runbook => exact (tame_perform fun _ _ _ => declareRunbook_updates).map _
  | hosts => exact (tame_perform fun _ _ _ => declareHosts_updates).map _
  | setSetting group key value =>
    exact tame_modify (tame_query _) fun _ => .setSetting group key value
  | setVar group key value =>
    exact tame_modify (tame_query _) fun _ => .setVar group key value
  | addBefore unit ref => exact tame_modify (tame_query _) fun _ => .constrain unit _ _
  | addAfter unit ref => exact tame_modify (tame_query _) fun _ => .constrain unit _ _
  | enter block => exact (hc block).inSession.bind fun _ => tame_pure _
  | enterHosts group block => exact ((hc block).inGroup group).bind fun _ => tame_pure _
  | withHosts pattern settings block =>
    exact ((hc block).bind fun _ => tame_session.bind fun _ => tame_pure _).withHosts _ _
  | «when» condition block => exact absurd rfl (h condition block)
  | openGuard condition => exact (tame_openGuard condition).bind fun _ => tame_pure _
  | closeGuard => exact tame_closeGuard.map _
  | invoke unit => exact (tame_invoke hc unit).bind fun _ => tame_pure _
  | instantiate runbook vars => exact (tame_instantiate hc runbook vars).map _
  | step action args count edits => exact (tame_recordSteps action args count edits).map _
  | getFile => exact (tame_query _).bind fun _ => (tame_recordStep _ _ _).map _
  | varStep => exact tame_session.bind fun _ => (tame_recordStep _ _ _).map _
  | patternStep => exact tame_session.bind fun _ => (tame_recordStep _ _ _).map _
  | fail error => exact tame_fail error
  | attempt block =>
    refine (hc block).settle.bind fun result => ?_
    cases result <;> exact tame_pure _
  | ifInvokedLess => exact tame_session.bind fun _ => tame_flagged hc _ _
  | ifVar => exact tame_session.bind fun _ => tame_flagged hc _ _
  | ask q => exact tame_query _
  | buildGraph => exact (tame_buildGraph hc).bind fun _ => tame_session.bind fun _ => tame_pure _
  | merge => exact (tame_apply fun _ => .merge).map _
  | gatherFacts trial => exact tame_tryFacts hc trial
  | plan form => exact (tame_plan hc).bind fun _ => tame_ofExcept _

theorem tame_noted (t : Stmt) : (note t (step (runWithin bound) t)).Tame := by
  cases t with
  | «when» condition block => exact tame_underGuard (hc block) condition block
  | _ => exact tame_note _ (tame_step hc _ nofun)

theorem tame_runBlock : ∀ block, (runBlock (runWithin bound) block).Tame
  | [] => tame_pure _
  | t :: ts => (tame_noted hc t).bind fun _ => tame_runBlock ts

theorem tame_runAll : ∀ block, (runAll (runWithin bound) block).Tame
  | [] => tame_pure _
  | t :: ts => (tame_noted hc t).settle.discard.bind fun _ => tame_runAll ts

end Nested

theorem tame_runWithin : ∀ (bound : Nat) (block : Block), (runWithin bound block).Tame
  | 0, _ => tame_exhausted
  | bound + 1, block => tame_runBlock (tame_runWithin bound) block

theorem Tame.trail {act : Exec α} (h : act.Tame) (r : Run) :
    match act.run r with
    | .ok _ a | .error _ a => r.Trail a := by
  have ended := h r
  unfold Ends at ended
  split at ended
  · rename_i e
    rw [e]
    exact .course ended
  · rename_i e
    rw [e]
    exact .course ended
  · rename_i e
    rw [e]
    exact ended

theorem Tame.path {act : Exec α} (h : act.Tame) (r : Run) :
    match act.run r with
    | .ok _ a | .error _ a => r.Path a := by
  have trail := h.trail r
  split at trail <;> exact trail.path

end Exec

/-- A script is run along a trail, whether it comes to its end or not. -/
theorem Session.exists_trail (s : Session) (bound : Nat) (script : Block) :
    ∃ r, Run.Trail ⟨s, []⟩ r ∧ (s.run bound script).entries = r.journal.reverse := by
  have trail := (Exec.tame_runAll (Exec.tame_runWithin bound) script).trail ⟨s, []⟩
  unfold Session.run
  split at trail <;>
  · rename_i e
    rw [e]
    exact ⟨_, trail, rfl⟩

end Playbook
