import Playbook.Proofs.Plan.Passes
import Playbook.Proofs.Session.Coherence
import Playbook.Proofs.Session.Mirror
import Playbook.Proofs.Session.Registration

/-! Sessions of which the settings name other passes. The passes that run are those of the pipeline,
so the names in the settings have no part in what a session does: run on a session with other names,
every action does what it does without, and gives the answer with the other names in it. The names
matter only before there is a session, when the settings are checked. -/

namespace Playbook

def Settings.naming (cs : List PassConfig) (s : Settings) : Settings := { s with passes := cs }

def Session.naming (cs : List PassConfig) (s : Session) : Session :=
  { s with settings := s.settings.naming cs }

/-- Settings are the only answer that tells which passes they name. -/
def Answer.naming (cs : List PassConfig) : Answer → Answer
  | .settings s => .settings (s.naming cs)
  | a => a

def Entry.naming (cs : List PassConfig) (e : Entry) : Entry :=
  ⟨e.statement, e.session.naming cs, e.outcome.map (·.naming cs)⟩

def Run.naming (cs : List PassConfig) (r : Run) : Run :=
  ⟨r.session.naming cs, r.journal.map (·.naming cs)⟩

def Transcript.naming (cs : List PassConfig) (t : Transcript) : Transcript :=
  ⟨t.entries.map (·.naming cs), t.halt⟩

namespace Session
variable {cs : List PassConfig} (s : Session)

theorem declareRunbook_naming (name : String) (setup : Option Block)
    (members : List (Declaration Body)) : (s.naming cs).declareRunbook name setup members =
      (s.declareRunbook name setup members).map fun p => (p.1, p.2.naming cs) :=
  declareRunbook_map (naming cs) (fun _ _ _ => rfl) (fun _ => rfl) (fun _ _ => rfl) s name setup
    members

theorem declareHosts_naming (pattern : Option String) (settings : Attributes) :
    (s.naming cs).declareHosts pattern settings =
      (s.declareHosts pattern settings).map fun p => (p.1, p.2.naming cs) := by
  have active : (s.naming cs).isActive = s.isActive := rfl
  have home : (s.naming cs).settings.localhostOnly = s.settings.localhostOnly := rfl
  unfold declareHosts
  rw [active, home]
  split
  · rfl
  · split
    · rfl
    · split
      · split <;> rfl
      · rfl

theorem copyGroup_naming (source : GroupId) : (s.naming cs).copyGroup source =
    (s.copyGroup source).map fun p => (p.1, p.2.naming cs) := by
  have same : (s.naming cs).getGroup source = s.getGroup source := rfl
  unfold copyGroup
  rw [same]
  cases s.getGroup source with
  | error e => rfl
  | ok g => exact s.declareHosts_naming (some g.pattern) g.settings

theorem recordStep_naming (action : String) (args : Value) (edits : List StepEdit) :
    (s.naming cs).recordStep action args edits =
      (s.recordStep action args edits).map fun p => (p.1, p.2.naming cs) := by
  unfold recordStep
  have current : (s.naming cs).currentUnit? = s.currentUnit? := rfl
  rw [current]
  cases s.currentUnit? with
  | none => rfl
  | some id =>
    have same : (s.naming cs).getUnit id = s.getUnit id := rfl
    simp only [same]
    cases s.getUnit id <;> rfl

theorem answer_naming (q : Query) :
    (s.naming cs).answer q = (s.answer q).map (·.naming cs) := by
  have unit (id : UnitId) : (s.naming cs).getUnit id = s.getUnit id := rfl
  have group (id : GroupId) : (s.naming cs).getGroup id = s.getGroup id := rfl
  have runbook (id : RunbookId) : (s.naming cs).getRunbook id = s.getRunbook id := rfl
  have graph : (s.naming cs).dependencyGraph = s.dependencyGraph := rfl
  cases q with
  | member id name =>
    simp only [answer, member, runbook]
    cases s.getRunbook id with
    | error e => rfl
    | ok r => cases h : r.members.get? name <;> simp only [bind, Except.bind, h] <;> rfl
  | sameKey a b =>
    simp only [answer, group]
    cases s.getGroup a with
    | error e => rfl
    | ok g => cases s.getGroup b <;> rfl
  | stepsFor id =>
    simp only [answer, unit]
    cases s.getUnit id <;> rfl
  | rendered id =>
    simp only [answer, unit]
    cases s.getUnit id <;> rfl
  | dependencyGraph =>
    simp only [answer, graph]
    cases s.dependencyGraph <;> rfl
  | _ => rfl

theorem refine_naming : Pass.refine (s.naming cs) = Pass.refine s := by
  funext g p
  cases p <;> rfl

theorem mergeBindings_naming : (s.naming cs).mergeBindings =
    (s.mergeBindings.1, s.mergeBindings.2.naming cs) := rfl

end Session

namespace Exec
variable {α β γ δ : Type} {cs : List PassConfig}

def renamed (cs : List PassConfig) (φ : α → β) :
    EStateM.Result Halt Run α → EStateM.Result Halt Run β
  | .ok a r => .ok (φ a) (r.naming cs)
  | .error h r => .error h (r.naming cs)

/-- Where other passes are named, `act'` does what `act` does otherwise, and gives the image of its
answer. -/
def Translates (cs : List PassConfig) (φ : α → β) (act : Exec α) (act' : Exec β) : Prop :=
  ∀ r : Run, act'.run (r.naming cs) = renamed cs φ (act.run r)

abbrev Overlooks (cs : List PassConfig) (act act' : Exec α) : Prop := Translates cs id act act'

variable {φ : α → β} {ψ : γ → δ}

theorem overlooks_pure (a : α) : Overlooks cs (pure a) (pure a) := fun _ => rfl

theorem overlooks_fail (e : Error) : Overlooks cs (fail e : Exec α) (fail e) := fun _ => rfl

theorem overlooks_exhausted : Overlooks cs (throw .exhausted : Exec α) (throw .exhausted) :=
  fun _ => rfl

theorem translates_ofExcept (φ : α → β) :
    ∀ x : Except Error α, Translates cs φ (ofExcept x) (ofExcept (x.map φ))
  | .ok _ => fun _ => rfl
  | .error _ => fun _ => rfl

theorem overlooks_ofExcept : ∀ x : Except Error α, Overlooks cs (ofExcept x) (ofExcept x)
  | .ok a => overlooks_pure a
  | .error e => overlooks_fail e

theorem Translates.bind {act : Exec α} {act' : Exec β} {k : α → Exec γ} {k' : β → Exec δ}
    (h : Translates cs φ act act') (hk : ∀ a, Translates cs ψ (k a) (k' (φ a))) :
    Translates cs ψ (act >>= k) (act' >>= k') := fun r => by
  rw [EStateM.run_bind, EStateM.run_bind, h r]
  cases act.run r with
  | ok a b => exact hk a b
  | error => rfl

theorem Overlooks.bind {act act' : Exec α} {k : α → Exec γ} {k' : α → Exec δ}
    (h : Overlooks cs act act') (hk : ∀ a, Translates cs ψ (k a) (k' a)) :
    Translates cs ψ (act >>= k) (act' >>= k') := Translates.bind h hk

theorem Translates.map {act : Exec α} {act' : Exec β} (h : Translates cs φ act act') {f : α → γ}
    {f' : β → δ} (image : ∀ a, ψ (f a) = f' (φ a)) :
    Translates cs ψ (f <$> act) (f' <$> act') := by
  rw [map_eq_pure_bind, map_eq_pure_bind]
  refine h.bind fun a r => ?_
  rw [← image]
  rfl

theorem Translates.discard {act : Exec α} {act' : Exec β} (h : Translates cs φ act act') :
    Overlooks cs (discard act) (discard act') := h.map fun _ => rfl

theorem Translates.settle {act : Exec α} {act' : Exec β} (h : Translates cs φ act act') :
    Translates cs (Except.map φ) (settle act) (settle act') := fun r => by
  rw [run_settle, run_settle, h r]
  cases act.run r with
  | ok => rfl
  | error h b => cases h <;> rfl

theorem translates_session : Translates cs (Session.naming cs) session session := fun _ => rfl

theorem translates_look {k : Session → Exec α} {k' : Session → Exec β}
    (h : ∀ s, Translates cs φ (k s) (k' (s.naming cs))) :
    Translates cs φ (session >>= k) (session >>= k') := translates_session.bind h

theorem overlooks_update {f : Session → Session} (h : ∀ s, f (s.naming cs) = (f s).naming cs) :
    Overlooks cs (update f) (update f) := fun r =>
  congrArg (fun s => EStateM.Result.ok () ((r.naming cs).on s)) (h r.session)

theorem translates_query {f : Session → Except Error α} {f' : Session → Except Error β}
    (h : ∀ s, f' (s.naming cs) = (f s).map φ) : Translates cs φ (query f) (query f') :=
  translates_look fun s => (h s).symm ▸ translates_ofExcept φ (f s)

theorem overlooks_query {f : Session → Except Error α} (h : ∀ s, f (s.naming cs) = f s) :
    Overlooks cs (query f) (query f) :=
  translates_look fun s => (h s).symm ▸ overlooks_ofExcept (f s)

theorem overlooks_perform {f : Session → Except Error (α × Session)}
    (h : ∀ s, f (s.naming cs) = (f s).map fun p => (p.1, p.2.naming cs)) :
    Overlooks cs (perform f) (perform f) := fun r => by
  have image : f (r.naming cs).session = _ := h r.session
  rw [run_perform, run_perform, image]
  cases f r.session <;> rfl

theorem overlooks_apply {f : Session → α × Session}
    (h : ∀ s, f (s.naming cs) = ((f s).1, (f s).2.naming cs)) :
    Overlooks cs (apply f) (apply f) :=
  overlooks_perform fun s => congrArg Except.ok (h s)

theorem overlooks_leave (kind : ScopeKind) : Overlooks cs (leave kind) (leave kind) := fun r => by
  have same : (r.naming cs).session.scopes = r.session.scopes := rfl
  rw [run_leave, run_leave, same]
  cases r.session.scopes.exit kind <;> rfl

theorem Translates.note (statement : Stmt) {act act' : Exec Answer}
    (h : Translates cs (Answer.naming cs) act act') :
    Overlooks cs (note statement act) (note statement act') := by
  have noted (outcome : Except Error Answer) : Overlooks cs
      (modify fun r => { r with
        journal := ⟨statement, r.session, outcome⟩ :: r.journal } : Exec PUnit)
      (modify fun r => { r with
        journal := ⟨statement, r.session, outcome.map (·.naming cs)⟩ :: r.journal }) := fun r => rfl
  refine h.settle.bind fun outcome => (noted outcome).bind fun _ => ?_
  cases outcome with
  | ok a => exact fun r => rfl
  | error e => exact fun r => rfl

theorem overlooks_foldlM {f f' : β → α → Exec β} (h : ∀ b a, Overlooks cs (f b a) (f' b a))
    (l : List α) (b : β) : Overlooks cs (l.foldlM f b) (l.foldlM f' b) := by
  induction l generalizing b with
  | nil => exact overlooks_pure b
  | cons a l ih =>
    rw [List.foldlM_cons, List.foldlM_cons]
    exact (h b a).bind ih

theorem overlooks_forM {f f' : α → Exec PUnit} (h : ∀ a, Overlooks cs (f a) (f' a)) (l : List α) :
    Overlooks cs (l.forM f) (l.forM f') := by
  induction l with
  | nil => exact overlooks_pure _
  | cons a l ih => exact (h a).bind fun _ => ih

section
variable {act : Exec α} {act' : Exec β} (h : Translates cs φ act act')
include h

theorem Translates.within (kind : ScopeKind) (enter : Scopes → Scopes) :
    Translates cs φ (within kind enter act) (within kind enter act') :=
  .bind (overlooks_update fun _ => rfl) fun _ => .bind h.settle fun result =>
    .bind (overlooks_leave kind) fun _ => translates_ofExcept φ result

theorem Translates.inSession : Translates cs φ (inSession act) (inSession act') :=
  translates_look fun _ => h.within _ _

theorem Translates.inGroup (id : GroupId) :
    Translates cs φ (inGroup id act) (inGroup id act') :=
  .bind (overlooks_query fun _ => rfl).discard fun _ => h.within _ _

theorem Translates.withHosts (pattern : Option String) (settings : Attributes) :
    Translates cs φ (withHosts pattern settings act) (withHosts pattern settings act') :=
  .bind (overlooks_perform fun s => s.declareHosts_naming pattern settings) fun id => h.inGroup id

theorem Translates.underGuard (condition : String) :
    Translates cs φ (underGuard condition act) (underGuard condition act') := h.within _ _

end

theorem overlooks_closeGuard : Overlooks cs closeGuard closeGuard :=
  .bind (overlooks_query fun _ => rfl) fun _ => translates_look fun _ =>
    .bind (overlooks_leave .guard) fun _ => overlooks_pure _

theorem overlooks_recordStep (action : String) (args : Value) (edits : List StepEdit) :
    Overlooks cs (recordStep action args edits) (recordStep action args edits) :=
  .bind (overlooks_perform fun s => s.recordStep_naming action args edits) fun _ => overlooks_pure _

theorem overlooks_recordSteps (action : String) (args : Value) (count : Nat)
    (edits : List StepEdit) :
    Overlooks cs (recordSteps action args count edits) (recordSteps action args count edits) := by
  refine overlooks_foldlM (fun _ _ => ?_) _ _
  exact (overlooks_recordStep action args edits).map fun _ => rfl

section
variable {call : Block → Exec Unit} (hc : ∀ block, Overlooks cs (call block) (call block))
include hc

theorem overlooks_runBody : ∀ body, Overlooks cs (runBody call body) (runBody call body)
  | .script block => hc block
  | .step action args => (overlooks_recordStep action args []).discard

theorem overlooks_invoke (id : UnitId) : Overlooks cs (invoke call id) (invoke call id) := by
  refine translates_look fun s => .bind (overlooks_ofExcept (s.getUnit id)) fun u => ?_
  have current : (s.naming cs).currentGroup? = s.currentGroup? := rfl
  simp only [current]
  cases s.currentGroup? with
  | none => exact overlooks_fail _
  | some group =>
    refine .bind (overlooks_update fun _ => rfl) fun _ => .bind (overlooks_update fun _ => rfl)
      fun _ => Translates.bind ((overlooks_runBody hc u.body).within _ _).settle fun result =>
      translates_look fun t => .bind (overlooks_update fun _ => rfl) fun _ =>
      .bind (translates_ofExcept (fun x => x) result) fun _ => ?_
    show Overlooks cs (if 0 < t.scopes.guards.depth - s.scopes.guards.depth then _ else _)
      (if 0 < t.scopes.guards.depth - s.scopes.guards.depth then _ else _)
    split
    · exact overlooks_fail _
    · exact overlooks_pure _

theorem overlooks_invokeMember (runbook : Runbook) (inst : Instance) (id : UnitId) :
    Overlooks cs (invokeMember call runbook inst id) (invokeMember call runbook inst id) :=
  .bind (overlooks_query fun _ => rfl) fun _ => .bind (overlooks_ofExcept _) fun _ =>
    .bind (overlooks_ofExcept _) fun _ => .bind (overlooks_update fun _ => rfl) fun _ =>
    overlooks_invoke hc id

theorem overlooks_populate (runbook : Runbook) (inst : Instance) :
    Overlooks cs (populate call runbook inst) (populate call runbook inst) := by
  have members := overlooks_forM (overlooks_invokeMember hc runbook inst) runbook.members.values
  unfold populate
  cases runbook.setup with
  | none => exact members
  | some setup => exact .bind (hc setup) fun _ => members

theorem overlooks_instantiate (id : RunbookId) (vars : Attributes) :
    Overlooks cs (instantiate call id vars) (instantiate call id vars) := by
  refine translates_look fun s => .bind (overlooks_ofExcept (s.getRunbook id)) fun runbook => ?_
  have current : (s.naming cs).currentGroup? = s.currentGroup? := rfl
  simp only [current]
  cases s.currentGroup? with
  | none => exact overlooks_fail _
  | some parent =>
    exact .bind (overlooks_perform fun s => s.copyGroup_naming parent) fun group =>
      .bind (overlooks_update fun _ => rfl) fun _ => .bind (overlooks_update fun _ => rfl) fun _ =>
      .bind (((overlooks_populate hc runbook _).inGroup group).within _ _) fun _ => overlooks_pure _

theorem overlooks_gatherFacts (p : FactGathering) :
    Overlooks cs (gatherFacts call p) (gatherFacts call p) := by
  unfold gatherFacts
  split
  · exact overlooks_pure p
  · exact .bind (overlooks_apply fun _ => rfl) fun unit =>
      .bind ((overlooks_invoke hc unit).withHosts _ _) fun _ =>
      .bind (overlooks_update fun _ => rfl) fun _ => overlooks_pure _

theorem overlooks_runPass : ∀ p, Overlooks cs (runPass call p) (runPass call p)
  | .facts p => Translates.bind (overlooks_gatherFacts hc p).settle fun
    | .ok _ => overlooks_pure _
    | .error _ => overlooks_pure _
  | .merging _ => .bind (overlooks_apply fun s => s.mergeBindings_naming) fun _ => overlooks_pure _
  | .idle => overlooks_pure _
  | .scripted p => Translates.bind (hc p.block).settle fun
    | .ok _ => translates_look fun _ => overlooks_pure _
    | .error _ => translates_look fun _ => overlooks_pure _

theorem overlooks_runPasses : ∀ ps, Overlooks cs (runPasses call ps) (runPasses call ps)
  | [] => overlooks_pure _
  | p :: ps => .bind (overlooks_runPass hc p) fun
    | (_, .error _) => overlooks_pure _
    | (_, .ok ()) => .bind (overlooks_runPasses ps) fun _ => overlooks_pure _

theorem overlooks_buildGraph : Overlooks cs (buildGraph call) (buildGraph call) := by
  refine translates_look fun s => ?_
  show Overlooks cs (if !s.scopes.guards.isEmpty then _ else _)
    (if !s.scopes.guards.isEmpty then _ else _)
  split
  · exact (overlooks_fail _ : Overlooks cs (fail _ : Exec (Graph UnitId)) _)
  · refine .bind (overlooks_update fun _ => rfl) fun _ =>
      .bind (overlooks_runPasses hc s.passes).inSession fun p => .bind (Translates.settle ?_)
        fun graph => .bind (overlooks_update fun _ => rfl) fun _ => translates_ofExcept id graph
    refine .bind (overlooks_ofExcept p.2) fun _ => translates_look fun t =>
      .bind (overlooks_ofExcept t.dependencyGraph) fun g => ?_
    rw [t.refine_naming]
    exact overlooks_ofExcept _

theorem overlooks_plan : Overlooks cs (plan call) (plan call) :=
  .bind (overlooks_buildGraph hc) fun _ => overlooks_query fun _ => rfl

theorem overlooks_repeatFacts :
    ∀ n p, Overlooks cs (repeatFacts call n p) (repeatFacts call n p)
  | 0, p => overlooks_pure p
  | n + 1, p => .bind (overlooks_gatherFacts hc p) fun p => overlooks_repeatFacts n p

omit hc in
theorem overlooks_anchored (p : FactGathering) : Overlooks cs (anchored p) (anchored p) :=
  translates_look fun s => .bind (overlooks_ofExcept s.dependencyGraph) fun g => by
    rw [s.refine_naming]
    exact overlooks_ofExcept _

theorem translates_tryFacts (t : FactTrial) :
    Translates cs (Answer.naming cs) (tryFacts call t) (tryFacts call t) := by
  unfold tryFacts
  refine .bind (overlooks_ofExcept _) fun p => ?_
  extract_lets late
  have lately (early : Graph UnitId) :
      Translates cs (Answer.naming cs) (late early) (late early) := by
    refine .bind (overlooks_repeatFacts hc _ _) fun p => ?_
    extract_lets answer
    have answered (g : Graph UnitId) : Translates cs (Answer.naming cs) (answer g) (answer g) :=
      translates_look fun _ _ => rfl
    split
    · exact .bind (overlooks_anchored p) answered
    · exact .bind (overlooks_pure early) answered
  split
  · exact .bind (overlooks_anchored p) lately
  · exact .bind (overlooks_pure Graph.empty) lately

theorem translates_flagged (holds : Bool) (block : Block) :
    Translates cs (Answer.naming cs)
      (do
        if holds then call block
        return .flag holds)
      (do
        if holds then call block
        return .flag holds) := by
  split
  · exact .bind (hc block) fun _ _ => rfl
  · exact fun _ => rfl

omit hc in
theorem translates_planAnswer (form : PlanForm) (p : Plan) :
    Translates cs (Answer.naming cs) (ofExcept (planAnswer form p))
      (ofExcept (planAnswer form p)) := by
  have text (x : Except Error String) :
      ((Answer.text ∘ some) <$> x).map (Answer.naming cs) = (Answer.text ∘ some) <$> x := by
    cases x <;> rfl
  have same : (planAnswer form p).map (Answer.naming cs) = planAnswer form p := by
    cases form with
    | plays | outline => rfl
    | yaml => exact text p.toYaml
    | json => exact text p.toJson
  have answered : Translates cs (Answer.naming cs) (ofExcept (planAnswer form p))
      (ofExcept ((planAnswer form p).map (Answer.naming cs))) := translates_ofExcept _ _
  rwa [same] at answered

theorem translates_step : ∀ t, Translates cs (Answer.naming cs) (step call t) (step call t)
  | .declare _ => (overlooks_apply fun _ => rfl).map fun _ => rfl
  | .runbook name _ setup =>
    (overlooks_perform fun s => s.declareRunbook_naming name setup _).map fun _ => rfl
  | .hosts pattern settings =>
    (overlooks_perform fun s => s.declareHosts_naming pattern settings).map fun _ => rfl
  | .setSetting .. | .setVar .. | .addBefore .. | .addAfter .. =>
    .bind (overlooks_query fun _ => rfl).discard fun _ => .bind (overlooks_update fun _ => rfl)
      fun _ _ => rfl
  | .enter block => .bind (hc block).inSession fun _ _ => rfl
  | .enterHosts group block => .bind ((hc block).inGroup group) fun _ _ => rfl
  | .withHosts pattern settings block =>
    .withHosts (.bind (hc block) fun _ => translates_look fun _ _ => rfl) pattern settings
  | .when condition block => .bind ((hc block).underGuard condition) fun _ _ => rfl
  | .openGuard _ => .bind (overlooks_update fun _ => rfl) fun _ _ => rfl
  | .closeGuard => overlooks_closeGuard.map fun _ => rfl
  | .invoke unit => .bind (overlooks_invoke hc unit) fun _ _ => rfl
  | .instantiate runbook vars => (overlooks_instantiate hc runbook vars).map fun _ => rfl
  | .step action args count edits =>
    (overlooks_recordSteps action args count edits).map fun _ => rfl
  | .getFile _ _ edits => .bind (overlooks_query fun _ => rfl) fun p =>
    (overlooks_recordStep p.1 p.2 edits).map fun _ => rfl
  | .varStep action name edits => translates_look fun s =>
    (overlooks_recordStep action ((s.var? name).getD .null) edits).map fun _ => rfl
  | .patternStep action edits => translates_look fun _ =>
    (overlooks_recordStep action _ edits).map fun _ => rfl
  | .fail _ => fun _ => rfl
  | .attempt block => .bind (hc block).settle fun
    | .ok () => fun _ => rfl
    | .error _ => fun _ => rfl
  | .ifInvokedLess _ _ block => translates_look fun _ => translates_flagged hc _ block
  | .ifVar _ _ block => translates_look fun _ => translates_flagged hc _ block
  | .ask q => translates_query fun s => s.answer_naming q
  | .buildGraph => .bind (overlooks_buildGraph hc) fun _ => translates_look fun _ _ => rfl
  | .merge => (overlooks_apply fun s => s.mergeBindings_naming).map fun _ => rfl
  | .gatherFacts trial => translates_tryFacts hc trial
  | .plan form => .bind (overlooks_plan hc) fun p => translates_planAnswer form p

theorem overlooks_runBlock : ∀ block, Overlooks cs (runBlock call block) (runBlock call block)
  | [] => overlooks_pure _
  | t :: ts => .bind ((translates_step hc t).note t) fun _ => overlooks_runBlock ts

theorem overlooks_runAll : ∀ block, Overlooks cs (runAll call block) (runAll call block)
  | [] => overlooks_pure _
  | t :: ts => .bind ((translates_step hc t).note t).settle.discard fun _ => overlooks_runAll ts

end

theorem overlooks_runWithin :
    ∀ (bound : Nat) (block : Block), Overlooks cs (runWithin bound block) (runWithin bound block)
  | 0, _ => overlooks_exhausted
  | bound + 1, block => overlooks_runBlock (overlooks_runWithin bound) block

end Exec

namespace Session
variable {cs : List PassConfig}

/-- A script runs on the session with other names as it does without. -/
theorem run_naming (s : Session) (bound : Nat) (script : Block) :
    (s.naming cs).run bound script = (s.run bound script).naming cs := by
  have alike : (Exec.runAll (runWithin bound) script).run ⟨s.naming cs, []⟩ = _ :=
    Exec.overlooks_runAll (Exec.overlooks_runWithin bound) script ⟨s, []⟩
  rw [run, run, alike]
  cases (Exec.runAll (runWithin bound) script).run ⟨s, []⟩ <;>
    simp [Exec.renamed, Run.naming, Transcript.naming, List.map_reverse]

end Session

namespace Settings

theorem passProblems_eq_nil {known seen names : List String} :
    passProblems known seen names = [] ↔
      (∀ n ∈ names, n ∈ known) ∧ names.Nodup ∧ ∀ n ∈ names, n ∉ seen := by
  constructor
  · intro h
    refine ⟨?_, nodup_of_passProblems h⟩
    induction names generalizing seen with
    | nil => simp
    | cons n names ih =>
      simp only [passProblems, List.append_eq_nil_iff] at h
      obtain ⟨⟨bears, -⟩, rest⟩ := h
      exact List.forall_mem_cons.2 ⟨by simpa using bears, ih rest⟩
  · rintro ⟨bears, nodup, fresh⟩
    induction names generalizing seen with
    | nil => rfl
    | cons n names ih =>
      obtain ⟨apart, nodup⟩ := List.nodup_cons.1 nodup
      obtain ⟨first, bears⟩ := List.forall_mem_cons.1 bears
      obtain ⟨new, fresh⟩ := List.forall_mem_cons.1 fresh
      have rest : ∀ m ∈ names, m ∉ n :: seen := fun m hm =>
        List.not_mem_cons_of_ne_of_not_mem (fun e => apart (e ▸ hm)) (fresh m hm)
      rw [passProblems, if_pos first, if_neg new, ih bears nodup rest]
      rfl

/-- Each name is that of a pass, and none stands twice. -/
structure NamesPasses (s : Settings) : Prop where
  known : ∀ c ∈ s.passes, c.name ∈ Registry.builtin.keys
  nodup : (s.passes.map PassConfig.name).Nodup

theorem namesPasses_iff {s : Settings} : s.NamesPasses ↔
    passProblems Registry.builtin.keys [] (s.passes.map PassConfig.name) = [] := by
  rw [passProblems_eq_nil, List.forall_mem_map]
  exact ⟨fun h => ⟨h.known, h.nodup, by simp⟩, fun h => ⟨h.1, h.2.1⟩⟩

theorem problems_eq_nil (s : Settings) :
    s.problems = [] ↔ s.urlProblems = [] ∧ s.NamesPasses := by
  rw [problems, List.append_eq_nil_iff, namesPasses_iff]

theorem NamesPasses.problems_eq {s : Settings} (h : s.NamesPasses) :
    s.problems = s.urlProblems := by
  rw [problems, namesPasses_iff.1 h, List.append_nil]

end Settings

def Transcript.plans (t : Transcript) : List Plan := t.entries.filterMap Entry.plan?

theorem Transcript.plans_naming (cs : List PassConfig) (t : Transcript) :
    (t.naming cs).plans = t.plans := by
  have same (e : Entry) : (e.naming cs).plan? = e.plan? := by
    obtain ⟨statement, s, outcome⟩ := e
    cases statement with
    | plan form =>
      cases outcome with
      | error => cases form <;> rfl
      | ok a => cases form <;> cases a <;> rfl
    | _ => rfl
  rw [plans, naming, List.filterMap_map]
  exact List.filterMap_congr fun e _ => same e

namespace Session

theorem withPasses_eq (s : Settings) (ps : List Pass) : withPasses s ps =
    if s.problems = [] then .ok (initial s ps)
    else .error (.refused (.inconsistentSettings s.problems)) := by
  rw [withPasses, Settings.validate]
  split
  · rename_i none
    rw [if_pos none]
    rfl
  · rename_i some
    rw [if_neg some]
    rfl

/-- A session with a pipeline of its own is made whatever passes the settings name, provided that
these are passes and none is named twice: then it is made or refused as without the names, and runs
of the two come to the same plans. Names that are at fault are refused, though nothing uses them. -/
theorem withPasses_naming (s : Settings) (cs : List PassConfig) (ps : List Pass) :
    ((∃ t, withPasses s ps = .ok t) ↔ s.urlProblems = [] ∧ s.NamesPasses) ∧
    ((s.naming cs).problems = s.problems →
      withPasses (s.naming cs) ps = (withPasses s ps).map (·.naming cs)) ∧
    (s.NamesPasses → (s.naming cs).NamesPasses → (s.naming cs).problems = s.problems) ∧
    ∀ t t', withPasses s ps = .ok t → withPasses (s.naming cs) ps = .ok t' →
      t.passes = ps ∧ t'.passes = ps ∧ ∀ bound script,
        t'.run bound script = (t.run bound script).naming cs ∧
          (t'.run bound script).plans = (t.run bound script).plans := by
  refine ⟨?_, fun same => ?_, fun h h' => ?_, fun t t' made made' => ?_⟩
  · rw [← s.problems_eq_nil, withPasses_eq]
    split <;> simp [*]
  · rw [withPasses_eq, withPasses_eq, same]
    split <;> rfl
  · rw [h.problems_eq, h'.problems_eq]
    rfl
  · obtain rfl := withPasses_eq_ok made
    obtain rfl := withPasses_eq_ok made'
    refine ⟨rfl, rfl, fun bound script => ?_⟩
    have run : (initial (s.naming cs) ps).run bound script = _ :=
      (initial s ps).run_naming bound script
    exact ⟨run, by rw [run, Transcript.plans_naming]⟩

end Session

def homeScript : Block :=
  [.declare (.new "deploy" [.step "command" (.text "one") 1 []]),
    .enter [.withHosts none .empty [.invoke ⟨0⟩]], .plan .plays]

namespace Session

/-- The settings name both passes or none of them; the pipeline has one. -/
theorem withPasses_naming_default :
    (∃ t, withPasses .default [.merging .new] = .ok t) ∧
    (∃ t, withPasses (Settings.default.naming []) [.merging .new] = .ok t) ∧
    ∀ t t', withPasses .default [.merging .new] = .ok t →
      withPasses (Settings.default.naming []) [.merging .new] = .ok t' →
        (t.run 4 homeScript).plans.map (·.plays.map Play.name) = [["deploy"]] ∧
        (t'.run 4 homeScript).plans = (t.run 4 homeScript).plans := by
  obtain ⟨made, -, -, alike⟩ := withPasses_naming .default [] [.merging .new]
  have listed : Settings.default.NamesPasses := ⟨by decide, by decide⟩
  obtain ⟨t, ht⟩ := made.2 ⟨rfl, listed⟩
  have made' := (withPasses_naming (Settings.default.naming []) [] [.merging .new]).1
  refine ⟨⟨t, ht⟩, made'.2 ⟨rfl, by simp [Settings.naming], by simp [Settings.naming]⟩,
    fun t t' ht ht' => ⟨?_, ((alike t t' ht ht').2.2 4 homeScript).2⟩⟩
  obtain rfl := withPasses_eq_ok ht
  decide +kernel

/-- A name that no pass bears stands in the way, though the pipeline is given. -/
theorem not_forall_withPasses : ¬ ∀ (s : Settings) (cs : List PassConfig) (ps : List Pass),
    (∃ t, withPasses s ps = .ok t) ↔ ∃ t, withPasses (s.naming cs) ps = .ok t := by
  intro all
  obtain ⟨t, made⟩ := (all ⟨true, .bundle, none, []⟩ [.named "custom"] []).1 ⟨_, rfl⟩
  have refused : withPasses (Settings.naming [.named "custom"] ⟨true, .bundle, none, []⟩) [] =
      .error (.refused (.inconsistentSettings
        [.unknownPass "custom" ["fact_gathering", "merge_host_groups"]])) := rfl
  rw [refused] at made
  cases made

end Session

end Playbook
