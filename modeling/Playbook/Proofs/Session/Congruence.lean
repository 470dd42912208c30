import Playbook.Proofs.Session.Nesting

/-! Relations between actions that hold of a whole script because they hold of its parts. Where a
relation is kept by sequencing, by catching errors, by scopes and by what else actions are made of,
and relates the nested blocks of two interpreters, it relates all that the two do. A property of
single actions is a relation that does not look at the second one. -/

namespace Playbook

def Scopes.unguarded (s : Scopes) : Scopes := { s with guards := .empty }

namespace Session

structure Level (s t : Session) : Prop where
  passes : t.passes = s.passes
  scopes : t.scopes.unguarded = s.scopes.unguarded

variable {s t u : Session}

theorem Level.refl (s : Session) : s.Level s := ⟨rfl, rfl⟩

theorem Level.trans (h : s.Level t) (h' : t.Level u) : s.Level u :=
  ⟨h'.passes.trans h.passes, h'.scopes.trans h.scopes⟩

theorem level_declareMembers (runbook : String) (ds : List (Declaration Body)) (s : Session)
    (members : OrderedMap String UnitId) : s.Level (s.declareMembers runbook members ds).2 := by
  induction ds generalizing s members with
  | nil => exact .refl s
  | cons d ds ih =>
    have declared : s.Level (s.declareAs (Runbook.qualified runbook d.name) d).2 := ⟨rfl, rfl⟩
    exact declared.trans (ih _ _)

theorem level_declareRunbook {name : String} {setup : Option Block}
    {members : List (Declaration Body)} {id : RunbookId}
    (h : s.declareRunbook name setup members = .ok (id, t)) : s.Level t := by
  unfold declareRunbook at h
  split at h
  · cases h
  · obtain ⟨-, rfl⟩ := Prod.mk.inj (Except.ok.inj h)
    exact (level_declareMembers name members s .empty).trans ⟨rfl, rfl⟩

theorem level_declareHosts {pattern : Option String} {settings : Attributes} {id : GroupId}
    (h : s.declareHosts pattern settings = .ok (id, t)) : s.Level t := by
  obtain ⟨_, _, e⟩ := addGroup_of_declareHosts h
  obtain rfl : _ = t := congrArg Prod.snd e
  exact ⟨rfl, rfl⟩

theorem level_copyGroup {source : GroupId} {id : GroupId} (h : s.copyGroup source = .ok (id, t)) :
    s.Level t := by
  obtain ⟨_, _, declared⟩ := declareHosts_of_copyGroup h
  exact level_declareHosts declared

theorem level_recordStep {action : String} {args : Value} {edits : List StepEdit} {step : Step}
    (h : s.recordStep action args edits = .ok (step, t)) : s.Level t := by
  obtain ⟨_, _, -, -, rfl⟩ := recordStep_eq_ok h
  exact ⟨rfl, rfl⟩

end Session

namespace Exec
open Session

/-- Whatever is done in between, a scope of this kind that was entered so can be left, and the
scopes are then what they were. -/
def Opens (kind : ScopeKind) (enter : Scopes → Scopes) : Prop :=
  ∀ scopes, (enter scopes).exit kind = .ok scopes

/-- The relation is kept by all that actions are made of. -/
structure Congruence (R : (α : Type) → Exec α → Exec α → Prop) : Prop where
  pure {α : Type} (a : α) : R α (pure a) (pure a)
  fail {α : Type} (e : Error) : R α (fail e) (fail e)
  exhausted {α : Type} : R α (throw .exhausted) (throw .exhausted)
  bind {α β : Type} {act act' : Exec α} {f f' : α → Exec β} (first : R α act act')
    (rest : ∀ a, R β (f a) (f' a)) : R β (act >>= f) (act' >>= f')
  settle {α : Type} {act act' : Exec α} (h : R α act act') :
    R (Except Error α) (settle act) (settle act')
  session : R Session session session
  update (f : Session → Session) (level : ∀ s : Session, s.Level (f s)) :
    R Unit (update f) (update f)
  perform {α : Type} (f : Session → Except Error (α × Session))
    (level : ∀ (s : Session) a t, f s = .ok (a, t) → s.Level t) : R α (perform f) (perform f)
  within {α : Type} {act act' : Exec α} {kind : ScopeKind} {enter : Scopes → Scopes}
    (opens : Opens kind enter) (h : R α act act') :
    R α (within kind enter act) (within kind enter act')
  leaveGuard : R Unit (leave .guard) (leave .guard)
  note {act act' : Exec Answer} (statement : Stmt) (h : R Answer act act') :
    R Unit (note statement act) (note statement act')
  /-- The pipeline is taken out of the session and put back, which is no update of this kind. -/
  buildGraph {call call' : Block → Exec Unit}
    (passes : ∀ ps, R (List Pass × Except Error Unit) (runPasses call ps) (runPasses call' ps)) :
    R (Graph UnitId) (buildGraph call) (buildGraph call')

namespace Congruence
variable {R : (α : Type) → Exec α → Exec α → Prop} {α β : Type}
  {act act' : Exec α}

section
variable (hR : Congruence R)
include hR

theorem ofExcept (x : Except Error α) : R α (ofExcept x) (ofExcept x) := by
  cases x with
  | ok a => exact hR.pure a
  | error e => exact hR.fail e

theorem query (f : Session → Except Error α) : R α (query f) (query f) :=
  hR.bind hR.session fun s => hR.ofExcept (f s)

theorem map (h : R α act act') (f : α → β) : R β (f <$> act) (f <$> act') := by
  rw [map_eq_pure_bind, map_eq_pure_bind]
  exact hR.bind h fun a => hR.pure (f a)

theorem discard (h : R α act act') : R PUnit (discard act) (discard act') := hR.map h _

theorem apply (f : Session → α × Session) (level : ∀ s : Session, s.Level (f s).2) :
    R α (apply f) (apply f) :=
  hR.perform _ fun s a t e => by
    obtain rfl : (f s).2 = t := congrArg Prod.snd (Except.ok.inj e)
    exact level s

theorem foldlM {f f' : β → α → Exec β} (h : ∀ b a, R β (f b a) (f' b a)) (l : List α) (b : β) :
    R β (l.foldlM f b) (l.foldlM f' b) := by
  induction l generalizing b with
  | nil => exact hR.pure b
  | cons a l ih =>
    rw [List.foldlM_cons, List.foldlM_cons]
    exact hR.bind (h b a) ih

theorem forM {f f' : α → Exec PUnit} (h : ∀ a, R PUnit (f a) (f' a)) (l : List α) :
    R PUnit (l.forM f) (l.forM f') := by
  induction l with
  | nil => exact hR.pure _
  | cons a l ih => exact hR.bind (h a) fun _ => ih

theorem inSession (h : R α act act') : R α (inSession act) (inSession act') :=
  hR.bind hR.session fun _ => hR.within (fun _ => rfl) h

theorem inGroup (h : R α act act') (id : GroupId) : R α (inGroup id act) (inGroup id act') :=
  hR.bind (hR.discard (hR.query _)) fun _ => hR.within (fun _ => rfl) h

theorem withHosts (h : R α act act') (pattern : Option String) (settings : Attributes) :
    R α (withHosts pattern settings act) (withHosts pattern settings act') :=
  hR.bind (hR.perform _ fun _ _ _ => level_declareHosts) fun id => hR.inGroup h id

theorem underGuard (h : R α act act') (condition : String) :
    R α (underGuard condition act) (underGuard condition act') := hR.within (fun _ => rfl) h

theorem closeGuard : R String closeGuard closeGuard :=
  hR.bind (hR.query _) fun _ => hR.bind hR.session fun _ => hR.bind hR.leaveGuard fun _ =>
    hR.pure _

theorem recordStep (action : String) (args : Value) (edits : List StepEdit) :
    R _ (recordStep action args edits) (recordStep action args edits) :=
  hR.bind (hR.perform _ fun _ _ _ => level_recordStep) fun _ => hR.pure _

theorem recordSteps (action : String) (args : Value) (count : Nat) (edits : List StepEdit) :
    R _ (recordSteps action args count edits) (recordSteps action args count edits) :=
  hR.foldlM (fun _ _ => hR.map (hR.recordStep action args edits) some) _ _

end

variable {call call' : Block → Exec Unit} (hR : Congruence R)
  (hc : ∀ block, R Unit (call block) (call' block))
include hR hc

theorem runBody : ∀ body, R Unit (runBody call body) (runBody call' body)
  | .script block => hc block
  | .step action args => hR.discard (hR.recordStep action args [])

theorem invoke (id : UnitId) : R Unit (invoke call id) (invoke call' id) := by
  refine hR.bind hR.session fun s => hR.bind (hR.ofExcept _) fun u => ?_
  cases s.currentGroup? with
  | none => exact hR.fail _
  | some group =>
    refine hR.bind (hR.update _ fun _ => ⟨rfl, rfl⟩) fun _ =>
      hR.bind (hR.update _ fun _ => ⟨rfl, rfl⟩) fun _ =>
      hR.bind (hR.settle (hR.within (fun _ => rfl) (hR.runBody hc u.body))) fun result =>
      hR.bind hR.session fun t => hR.bind (hR.update _ fun _ => ⟨rfl, rfl⟩) fun _ =>
      hR.bind (hR.ofExcept result) fun _ => ?_
    split
    · exact hR.fail _
    · exact hR.pure _

theorem invokeMember (runbook : Runbook) (inst : Instance) (id : UnitId) :
    R Unit (invokeMember call runbook inst id) (invokeMember call' runbook inst id) :=
  hR.bind (hR.query _) fun _ => hR.bind (hR.ofExcept _) fun _ => hR.bind (hR.ofExcept _) fun _ =>
    hR.bind (hR.update _ fun _ => ⟨rfl, rfl⟩) fun _ => hR.invoke hc id

theorem populate (runbook : Runbook) (inst : Instance) :
    R Unit (populate call runbook inst) (populate call' runbook inst) := by
  unfold Exec.populate
  cases runbook.setup with
  | none => exact hR.forM (hR.invokeMember hc runbook inst) _
  | some setup => exact hR.bind (hc setup) fun _ => hR.forM (hR.invokeMember hc runbook inst) _

theorem instantiate (id : RunbookId) (vars : Attributes) :
    R InstanceId (instantiate call id vars) (instantiate call' id vars) := by
  refine hR.bind hR.session fun s => hR.bind (hR.ofExcept _) fun runbook => ?_
  cases s.currentGroup? with
  | none => exact hR.fail _
  | some parent =>
    exact hR.bind (hR.perform _ fun _ _ _ => level_copyGroup) fun group =>
      hR.bind (hR.update _ fun _ => ⟨rfl, rfl⟩) fun _ =>
      hR.bind (hR.update _ fun _ => ⟨rfl, rfl⟩) fun _ =>
      hR.bind (hR.within (fun _ => rfl) (hR.inGroup (hR.populate hc runbook _) group)) fun _ =>
      hR.pure _

theorem gatherFacts (p : FactGathering) :
    R FactGathering (gatherFacts call p) (gatherFacts call' p) := by
  unfold Exec.gatherFacts
  split
  · exact hR.pure p
  · exact hR.bind (hR.apply _ fun _ => ⟨rfl, rfl⟩) fun unit =>
      hR.bind (hR.withHosts (hR.invoke hc unit) _ _) fun _ =>
      hR.bind (hR.update _ fun _ => ⟨rfl, rfl⟩) fun _ => hR.pure _

theorem runPass : ∀ p, R (Pass × Except Error Unit) (runPass call p) (runPass call' p)
  | .facts p => hR.bind (hR.settle (hR.gatherFacts hc p)) fun
    | .ok _ => hR.pure _
    | .error _ => hR.pure _
  | .merging _ => hR.bind (hR.apply _ fun _ => ⟨rfl, rfl⟩) fun _ => hR.pure _
  | .idle => hR.pure _
  | .scripted p => hR.bind (hR.settle (hc p.block)) fun _ => hR.bind hR.session fun _ => hR.pure _

theorem runPasses : ∀ ps, R (List Pass × Except Error Unit) (runPasses call ps) (runPasses call' ps)
  | [] => hR.pure _
  | p :: ps => hR.bind (hR.runPass hc p) fun
    | (_, .error _) => hR.pure _
    | (_, .ok ()) => hR.bind (runPasses ps) fun _ => hR.pure _

theorem plan : R Plan (plan call) (plan call') :=
  hR.bind (hR.buildGraph (hR.runPasses hc)) fun _ => hR.query _

theorem repeatFacts : ∀ n p, R FactGathering (repeatFacts call n p) (repeatFacts call' n p)
  | 0, p => hR.pure p
  | n + 1, p => hR.bind (hR.gatherFacts hc p) fun p => repeatFacts n p

omit hc in
theorem anchored (p : FactGathering) : R (Graph UnitId) (anchored p) (anchored p) :=
  hR.bind hR.session fun _ => hR.bind (hR.ofExcept _) fun _ => hR.ofExcept _

theorem tryFacts (t : FactTrial) : R Answer (tryFacts call t) (tryFacts call' t) := by
  unfold Exec.tryFacts
  refine hR.bind (hR.ofExcept _) fun p => ?_
  extract_lets late late'
  have related (early : Graph UnitId) : R Answer (late early) (late' early) := by
    refine hR.bind (hR.repeatFacts hc _ _) fun p => ?_
    extract_lets answer
    have answered (g : Graph UnitId) : R Answer (answer g) (answer g) :=
      hR.bind hR.session fun _ => hR.pure _
    split
    · exact hR.bind (hR.anchored p) answered
    · exact hR.bind (hR.pure early) answered
  split
  · exact hR.bind (hR.anchored p) related
  · exact hR.bind (hR.pure Graph.empty) related

omit hc in
theorem modify (h : R α act act') (f : Session → Session) (level : ∀ s : Session, s.Level (f s)) :
    R Answer (do Functor.discard act; Exec.update f; return .done)
      (do Functor.discard act'; Exec.update f; return .done) :=
  hR.bind (hR.discard h) fun _ => hR.bind (hR.update f level) fun _ => hR.pure _

theorem flagged (holds : Bool) (block : Block) :
    R Answer
      (do
        if holds then call block
        return .flag holds)
      (do
        if holds then call' block
        return .flag holds) := by
  split
  · exact hR.bind (hc block) fun _ => hR.pure _
  · exact hR.pure _

theorem step : ∀ t, R Answer (step call t) (step call' t)
  | .declare _ => hR.map (hR.apply _ fun _ => ⟨rfl, rfl⟩) _
  | .runbook .. => hR.map (hR.perform _ fun _ _ _ => level_declareRunbook) _
  | .hosts .. => hR.map (hR.perform _ fun _ _ _ => level_declareHosts) _
  | .setSetting .. => hR.modify (hR.query _) _ fun _ => ⟨rfl, rfl⟩
  | .setVar .. => hR.modify (hR.query _) _ fun _ => ⟨rfl, rfl⟩
  | .addBefore .. => hR.modify (hR.query _) _ fun _ => ⟨rfl, rfl⟩
  | .addAfter .. => hR.modify (hR.query _) _ fun _ => ⟨rfl, rfl⟩
  | .enter block => hR.bind (hR.inSession (hc block)) fun _ => hR.pure _
  | .enterHosts group block => hR.bind (hR.inGroup (hc block) group) fun _ => hR.pure _
  | .withHosts _ _ block =>
    hR.withHosts (hR.bind (hc block) fun _ => hR.bind hR.session fun _ => hR.pure _) _ _
  | .when condition block => hR.bind (hR.underGuard (hc block) condition) fun _ => hR.pure _
  | .openGuard _ => hR.bind (hR.update _ fun _ => ⟨rfl, rfl⟩) fun _ => hR.pure _
  | .closeGuard => hR.map hR.closeGuard _
  | .invoke unit => hR.bind (hR.invoke hc unit) fun _ => hR.pure _
  | .instantiate runbook vars => hR.map (hR.instantiate hc runbook vars) _
  | .step action args count edits => hR.map (hR.recordSteps action args count edits) _
  | .getFile .. => hR.bind (hR.query _) fun _ => hR.map (hR.recordStep _ _ _) _
  | .varStep .. => hR.bind hR.session fun _ => hR.map (hR.recordStep _ _ _) _
  | .patternStep .. => hR.bind hR.session fun _ => hR.map (hR.recordStep _ _ _) _
  | .fail e => hR.fail e
  | .attempt block => hR.bind (hR.settle (hc block)) fun
    | .ok () => hR.pure _
    | .error _ => hR.pure _
  | .ifInvokedLess .. => hR.bind hR.session fun _ => hR.flagged hc _ _
  | .ifVar .. => hR.bind hR.session fun _ => hR.flagged hc _ _
  | .ask _ => hR.query _
  | .buildGraph => hR.bind (hR.buildGraph (hR.runPasses hc)) fun _ =>
      hR.bind hR.session fun _ => hR.pure _
  | .merge => hR.map (hR.apply _ fun _ => ⟨rfl, rfl⟩) _
  | .gatherFacts trial => hR.tryFacts hc trial
  | .plan _ => hR.bind (hR.plan hc) fun _ => hR.ofExcept _

theorem runBlock : ∀ block, R Unit (runBlock call block) (runBlock call' block)
  | [] => hR.pure _
  | t :: ts => hR.bind (hR.note t (hR.step hc t)) fun _ => runBlock ts

theorem runAll : ∀ block, R Unit (runAll call block) (runAll call' block)
  | [] => hR.pure _
  | t :: ts => hR.bind (hR.discard (hR.settle (hR.note t (hR.step hc t)))) fun _ => runAll ts

end Congruence
end Exec
end Playbook
