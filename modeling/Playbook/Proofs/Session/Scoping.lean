import Mathlib.Tactic.NthRewrite
import Playbook.Proofs.Session.Guards
import Playbook.Proofs.Session.Mirror
import Playbook.Proofs.Session.Structured
import Playbook.Proofs.Value.Agreement

/-! The stacks of a session hold what surrounds the running statement. A structured script does the
same with the stacks as without them: whatever is entered is left again, whether a block ends well
or fails, so every statement finds its surroundings on top. -/

namespace Playbook
open Session

namespace Run

structure Returns (r b : Run) : Prop where
  scopes : b.session.scopes = r.session.scopes
  structured : b.session.Structured

theorem Returns.trans {r b c : Run} (hrb : r.Returns b) (hbc : b.Returns c) : r.Returns c :=
  ⟨hbc.scopes.trans hrb.scopes, hbc.structured⟩

end Run

namespace Exec
variable {α β : Type} {env inner : Surroundings}

/-- In the given surroundings `act` does with the stacks what `lex` does without them, and comes
back to the scopes that it found. -/
def Reads (env : Surroundings) (act lex : Exec α) : Prop :=
  ∀ r : Run, r.session.scopes.surroundings = env → r.session.Structured →
    Mirrors Run.bare act lex r (fun _ => r.Returns) r.Returns fun _ => True

theorem reads_pure (a : α) : Reads env (pure a) (pure a) := fun _ _ hs => .pure ⟨rfl, hs⟩

theorem reads_fail (e : Error) : Reads env (fail e : Exec α) (fail e) := fun _ _ hs =>
  .fail ⟨rfl, hs⟩

theorem reads_fail_bind (e : Error) (k k' : β → Exec α) :
    Reads env (fail e >>= k) (fail e >>= k') := fun _ _ hs => ⟨rfl, rfl, hs⟩

theorem reads_ofExcept (x : Except Error α) : Reads env (ofExcept x) (ofExcept x) := fun _ _ hs =>
  .ofExcept (fun _ _ => ⟨rfl, hs⟩) fun _ _ => ⟨rfl, hs⟩

theorem Reads.bind {act lex : Exec β} {k k' : β → Exec α} (h : Reads env act lex)
    (hk : ∀ b, Reads env (k b) (k' b)) : Reads env (act >>= k) (lex >>= k') := fun r he hs =>
  (h r he hs).bind fun b _ back =>
    (hk b _ (back.scopes ▸ he) back.structured).imp (fun _ _ => back.trans) (fun _ => back.trans)
      fun _ _ => trivial

theorem Reads.map {act lex : Exec β} (h : Reads env act lex) (f : β → α) :
    Reads env (f <$> act) (f <$> lex) := fun r he hs => Mirrors.map (h r he hs)

theorem Reads.discard {act lex : Exec β} (h : Reads env act lex) :
    Reads env (discard act) (discard lex) := fun r he hs => (h r he hs).discard

theorem Reads.settle {act lex : Exec α} (h : Reads env act lex) :
    Reads env (settle act) (settle lex) := fun r he hs =>
  .settle ((h r he hs).imp (fun _ _ hb => hb) (fun _ hb _ => hb) fun _ _ => trivial)

theorem reads_session {k k' : Session → Exec α}
    (h : ∀ s, s.scopes.surroundings = env → s.Structured → Reads env (k s) (k' s.bare)) :
    Reads env (session >>= k) (session >>= k') := fun r he hs => .session (h _ he hs r he hs)

theorem reads_query {g g' : Session → Except Error α}
    (h : ∀ s, s.scopes.surroundings = env → g' s.bare = g s) : Reads env (query g) (query g') :=
  fun _ he hs => .query (h _ he) (fun _ _ => ⟨rfl, hs⟩) fun _ _ => ⟨rfl, hs⟩

theorem reads_update {g g' : Session → Session} (image : ∀ s, g' s.bare = (g s).bare)
    (scopes : ∀ s, (g s).scopes = s.scopes) (structured : ∀ s, s.Structured → (g s).Structured) :
    Reads env (update g) (update g') := fun r _ hs =>
  .update (congrArg r.bare.on (image r.session)) ⟨scopes _, structured _ hs⟩

theorem reads_perform {g g' : Session → Except Error (α × Session)}
    (image : ∀ s, s.scopes.surroundings = env →
      g' s.bare = (g s).map fun p => (p.1, p.2.bare))
    (back : ∀ s a t, g s = .ok (a, t) → t.scopes = s.scopes ∧ (s.Structured → t.Structured)) :
    Reads env (perform g) (perform g') := fun _ he hs =>
  .perform (image _ he) (fun _ => rfl) (fun a t h => ⟨(back _ a t h).1, (back _ a t h).2 hs⟩)
    fun _ _ => ⟨rfl, hs⟩

theorem reads_apply {g g' : Session → α × Session}
    (image : ∀ s, g' s.bare = ((g s).1, (g s).2.bare))
    (back : ∀ s, (g s).2.scopes = s.scopes ∧ (s.Structured → (g s).2.Structured)) :
    Reads env (apply g) (apply g') :=
  reads_perform (fun s _ => congrArg Except.ok (image s)) fun s a t h => by
    obtain rfl : (g s).2 = t := congrArg Prod.snd (Except.ok.inj h)
    exact back s

theorem reads_note (statement : Stmt) {act lex : Exec Answer} (h : Reads env act lex) :
    Reads env (note statement act) (note statement lex) := fun _ he hs =>
  .note ((h _ he hs).imp (fun _ _ hb => ⟨rfl, hb.scopes, hb.structured⟩)
    (fun _ hb _ => ⟨rfl, hb.scopes, hb.structured⟩) fun _ _ => trivial)

theorem reads_get {x : Except Error β} {k k' : β → Exec α}
    (h : ∀ b, x = .ok b → Reads env (k b) (k' b)) :
    Reads env (ofExcept x >>= k) (ofExcept x >>= k') := by
  cases x with
  | ok b => exact h b rfl
  | error e => exact reads_fail e

def Yields (act : Exec α) (valid : α → Prop) : Prop :=
  ∀ r, act.Ends r (fun a _ => valid a) (fun _ _ => True) fun _ => True

theorem Reads.bind_yields {act lex : Exec β} {k k' : β → Exec α} {valid : β → Prop}
    (h : Reads env act lex) (hv : act.Yields valid)
    (hk : ∀ b, valid b → Reads env (k b) (k' b)) : Reads env (act >>= k) (lex >>= k') :=
  fun r he hs => by
    obtain ⟨same, ends⟩ := h r he hs
    have both : Mirrors Run.bare act lex r (fun b c => r.Returns c ∧ valid b) r.Returns
        fun _ => True :=
      ⟨same, (ends.and (hv r)).imp (fun _ _ hb => hb) (fun _ _ hb => hb.1) fun _ _ => trivial⟩
    refine both.bind fun b c hb => ?_
    obtain ⟨back, hb⟩ := hb
    exact (hk b hb c (back.scopes ▸ he) back.structured).imp (fun _ _ => back.trans)
      (fun _ => back.trans) fun _ _ => trivial

theorem Yields.within {act : Exec α} {valid : α → Prop} (h : act.Yields valid) (kind : ScopeKind)
    (enter : Scopes → Scopes) : (within kind enter act).Yields valid := fun r => by
  simp only [Exec.within, ends_bind, ends_update, ends_settle]
  refine (h _).imp (fun a b ha => ?_) (fun e b _ => ?_) fun _ hs => hs
  · rw [ends_leave]
    split <;> trivial
  · rw [ends_leave]
    split <;> trivial

theorem Yields.inSession {act : Exec α} {valid : α → Prop} (h : act.Yields valid) :
    (inSession act).Yields valid := fun r => by
  rw [Exec.inSession, ends_bind, ends_session]
  exact h.within _ _ r

theorem run_leave_bind {b : Run} {kind : ScopeKind} {left : Scopes}
    (h : b.session.scopes.exit kind = .ok left) (k : Unit → Exec α) :
    (leave kind >>= k).run b = (k ()).run (b.on { b.session with scopes := left }) := by
  rw [EStateM.run_bind, run_leave, h]

/-- A scope is entered, a block comes back to it, and it is left. Without the stacks the block is
run in the inner surroundings, and that is all. -/
theorem Reads.within {act lex : Exec α} (h : Reads inner act lex) {kind : ScopeKind}
    {enter : Scopes → Scopes} (entered : ∀ c : Scopes, c.surroundings = env →
      (enter c).surroundings = inner ∧ (enter c).exit kind = .ok c) :
    Reads env (within kind enter act) lex := fun r he hs => by
  obtain ⟨surrounded, left⟩ := entered _ he
  have returned (x : Except Error α) (b : Run)
      (hb : (r.on { r.session with scopes := enter r.session.scopes }).Returns b) :
      (do leave kind; ofExcept x).run b =
        (ofExcept x).run (b.on { b.session with scopes := r.session.scopes }) :=
    run_leave_bind (by rw [hb.scopes]; exact left) fun _ => ofExcept x
  refine .prepare rfl (.conclude (h _ surrounded (hs.of_eq rfl rfl rfl)) ?_ ?_)
  · intro a b hb
    exact ⟨_, returned (.ok a) b hb, rfl, rfl, hb.structured.of_eq rfl rfl rfl⟩
  · intro e b hb
    exact ⟨_, returned (.error e) b hb, rfl, rfl, hb.structured.of_eq rfl rfl rfl⟩

theorem Reads.inSession {act : Exec α} {lex : Surroundings → Exec α}
    (h : ∀ inner, Reads inner act (lex inner)) :
    Reads env (Exec.inSession act) (Lexical.inSession env lex) := fun r he hs =>
  .look ((h { env with active := true }).within (fun _ hc => ⟨hc ▸ rfl, rfl⟩) r he hs)

theorem Reads.inGroup {act : Exec α} {lex : Surroundings → Exec α} (id : GroupId)
    (h : ∀ inner, inner.group = some id → Reads inner act (lex inner)) :
    Reads env (Exec.inGroup id act) (Lexical.inGroup env id lex) := by
  have known : Reads env (query (·.getGroup id)) (query (·.getGroup id)) :=
    reads_query fun _ _ => rfl
  have entered : Reads env
      (Exec.within .hostGroup (fun c => { c with hostGroups := c.hostGroups.enter id }) act)
      (lex { env with group := some id }) :=
    (h _ rfl).within fun _ hc => ⟨hc ▸ rfl, rfl⟩
  exact known.discard.bind fun _ => entered

theorem reads_declareHosts (pattern : Option String) (settings : Attributes) :
    Reads env (perform (·.declareHosts pattern settings))
      (perform (env.declareHosts · pattern settings)) :=
  reads_perform (fun s he => he ▸ s.declareHosts_bare pattern settings) fun _ _ _ h =>
    ⟨(Update.hosts h).scopes_and_floor.1, fun hs => hs.declareHosts h⟩

theorem Reads.withHosts {act : Exec α} {lex : Surroundings → Exec α} (pattern : Option String)
    (settings : Attributes)
    (h : ∀ id inner, inner.group = some id → Reads inner act (lex inner)) :
    Reads env (Exec.withHosts pattern settings act)
      (Lexical.withHosts env pattern settings lex) := by
  exact (reads_declareHosts pattern settings).bind fun id => Reads.inGroup id (h id)

theorem Reads.underGuard {act : Exec α} {lex : Surroundings → Exec α} (condition : String)
    (h : ∀ inner, Reads inner act (lex inner)) :
    Reads env (Exec.underGuard condition act) (Lexical.underGuard env condition lex) := by
  refine (h _).within fun c hc => ⟨?_, rfl⟩
  subst hc
  simp [Scopes.surroundings]

theorem reads_recordStep (action : String) (args : Value) (edits : List StepEdit) :
    Reads env (recordStep action args edits) (Lexical.recordStep env action args edits) := by
  have recorded : Reads env (perform (·.recordStep action args edits))
      (perform (env.recordStep · action args edits)) :=
    reads_perform (fun s he => he ▸ s.recordStep_bare action args edits) fun s step t h =>
      ⟨(Update.record h).scopes_and_floor.1, fun hs => hs.recordStep h⟩
  exact recorded.bind fun _ => reads_pure _

theorem reads_foldlM {f g : β → α → Exec β} (h : ∀ b a, Reads env (f b a) (g b a)) (l : List α)
    (b : β) : Reads env (l.foldlM f b) (l.foldlM g b) := by
  induction l generalizing b with
  | nil => exact reads_pure b
  | cons a l ih =>
    rw [List.foldlM_cons, List.foldlM_cons]
    exact (h b a).bind ih

theorem reads_forM {f g : β → Exec PUnit} (h : ∀ b, Reads env (f b) (g b)) (l : List β) :
    Reads env (l.forM f) (l.forM g) := by
  induction l with
  | nil => exact reads_pure _
  | cons b l ih => exact (h b).bind fun _ => ih

theorem reads_recordSteps (action : String) (args : Value) (count : Nat) (edits : List StepEdit) :
    Reads env (recordSteps action args count edits)
      (Lexical.recordSteps env action args count edits) :=
  reads_foldlM (fun _ _ => (reads_recordStep action args edits).map some) _ _

theorem reads_copyGroup (source : GroupId) :
    Reads env (perform (·.copyGroup source)) (perform (env.copyGroup · source)) :=
  reads_perform (fun s he => he ▸ s.copyGroup_bare source) fun s id t h => by
    obtain ⟨pattern, settings, declared⟩ := declareHosts_of_copyGroup h
    exact ⟨(Update.hosts declared).scopes_and_floor.1, fun hs => hs.declareHosts declared⟩

section Nested
variable {call : Block → Exec Unit} {lex : Surroundings → Block → Exec Unit}
  (hc : ∀ inner block, structuredBlock block → Reads inner (call block) (lex inner block))
include hc

theorem reads_runBody (body : Body) (hb : body.structured) :
    Reads env (runBody call body) (Lexical.runBody env lex body) := by
  cases body with
  | script block => exact hc env block hb
  | step action args => exact (reads_recordStep action args []).discard

theorem reads_invoke (id : UnitId) : Reads env (invoke call id) (Lexical.invoke env lex id) := by
  refine reads_session fun s he hs => reads_get fun u hu => ?_
  have body : u.body.structured := hs.bodies u (List.mem_of_getElem? (getUnit_eq_ok.1 hu))
  subst he
  have sought : s.scopes.surroundings.group = s.currentGroup? := rfl
  cases known : s.currentGroup? with
  | none =>
    rw [sought, known]
    exact reads_fail _
  | some group =>
    nth_rewrite 1 [sought]
    rw [known]
    have bound : Reads s.scopes.surroundings
        (update fun s => (s.modifyUnit id (·.bind group)).modifyGroup group (·.addMember id))
        (update fun s => (s.modifyUnit id (·.bind group)).modifyGroup group (·.addMember id)) :=
      reads_update (fun _ => rfl) (fun _ => rfl) fun _ hs =>
        (hs.modifyUnit id (f := (·.bind group)) fun _ => rfl).modifyGroup _ _
    refine bound.bind fun _ r he hr => ?_
    have entered : Reads s.scopes.surroundings
        (Exec.within .unit (fun c => { c with units := c.units.enter id }) (runBody call u.body))
        (Lexical.runBody { s.scopes.surroundings with unit := some id } lex u.body) :=
      (reads_runBody hc u.body body).within fun _ hc => ⟨hc ▸ rfl, rfl⟩
    -- the body leaves no condition open, so none is closed for it
    have finished {b : Run} (hb : b.session.scopes = r.session.scopes) :
        b.session.scopes.guards.depth = s.scopes.guards.depth ∧
          (s.finish b.session).scopes = r.session.scopes := by
      have depth : r.session.scopes.guards.depth = s.scopes.guards.depth := by
        simpa [Scopes.surroundings] using congrArg (fun e => e.conditions.length) he
      refine ⟨hb ▸ depth, ?_⟩
      simp only [finish, hb, ← depth, ScopeStack.unwindTo_depth]
    refine .prepare rfl (.conclude (entered _ he (hr.of_eq rfl rfl rfl)) ?_ ?_)
    · rintro ⟨⟩ b ⟨scopes, structured⟩
      obtain ⟨depth, back⟩ := finished scopes
      refine ⟨b.on (s.finish b.session), ?_, rfl, back, structured.of_eq rfl rfl rfl⟩
      show (if 0 < b.session.scopes.guards.depth - s.scopes.guards.depth then fail _
        else pure ()).run (b.on (s.finish b.session)) = _
      rw [if_neg (by omega)]
      rfl
    · rintro e b ⟨scopes, structured⟩
      exact ⟨b.on (s.finish b.session), rfl, rfl, (finished scopes).2,
        structured.of_eq rfl rfl rfl⟩

theorem reads_invokeMember (runbook : Runbook) (inst : Instance) (id : UnitId) :
    Reads env (invokeMember call runbook inst id)
      (Lexical.invokeMember env lex runbook inst id) := by
  have known : Reads env (query (·.getUnit id)) (query (·.getUnit id)) :=
    reads_query fun _ _ => rfl
  refine known.bind fun u => (reads_ofExcept _).bind fun before =>
    (reads_ofExcept _).bind fun after => ?_
  have constrained : Reads env
      (update (·.modifyUnit id ({ · with
        before := before.insertAll (inst.before.toList.map .unit)
        after := after.insertAll (inst.after.toList.map .unit) })))
      (update (·.modifyUnit id ({ · with
        before := before.insertAll (inst.before.toList.map .unit)
        after := after.insertAll (inst.after.toList.map .unit) }))) :=
    reads_update (fun _ => rfl) (fun _ => rfl) fun _ hs => hs.modifyUnit id fun _ => rfl
  exact constrained.bind fun _ => reads_invoke hc id

theorem reads_populate (runbook : Runbook) (inst : Instance)
    (hook : structuredHook runbook.setup) :
    Reads env (populate call runbook inst) (Lexical.populate env lex runbook inst) := by
  have members : Reads env (runbook.members.values.forM (invokeMember call runbook inst))
      (runbook.members.values.forM (Lexical.invokeMember env lex runbook inst)) :=
    reads_forM (reads_invokeMember hc runbook inst) _
  obtain ⟨_, _, _ | setup, _⟩ := runbook
  · exact members
  · exact (hc env setup hook).bind fun _ => members

theorem reads_instantiate (id : RunbookId) (vars : Attributes) :
    Reads env (instantiate call id vars) (Lexical.instantiate env lex id vars) := by
  refine reads_session fun s he hs => reads_get fun runbook hr => ?_
  have hook : structuredHook runbook.setup :=
    hs.hooks _ (List.mem_of_getElem? (getRunbook_eq_ok.1 hr))
  subst he
  have sought : s.scopes.surroundings.group = s.currentGroup? := rfl
  cases known : s.currentGroup? with
  | none =>
    rw [sought, known]
    exact reads_fail _
  | some parent =>
    nth_rewrite 1 [sought]
    rw [known]
    refine (reads_copyGroup parent).bind fun group => ?_
    refine Reads.bind (reads_update (fun _ => rfl) (fun _ => rfl)
      fun _ hs => hs.modifyGroup _ _) fun _ => ?_
    refine Reads.bind (reads_update (fun _ => rfl) (fun _ => rfl)
      fun _ hs => hs.of_eq rfl rfl rfl) fun _ => ?_
    have populated (inst : Instance) : Reads s.scopes.surroundings
        (Exec.within .runbook (fun c => { c with runbooks := c.runbooks.enter inst.id })
          (Exec.inGroup group (populate call runbook inst)))
        (Lexical.inGroup { s.scopes.surroundings with inst := some inst.id } group
          (Lexical.populate · lex runbook inst)) :=
      (Reads.inGroup group fun _ _ => reads_populate hc runbook inst hook).within
        fun _ hc => ⟨hc ▸ rfl, rfl⟩
    exact (populated _).bind fun _ => reads_pure _

theorem reads_gatherFacts (p : FactGathering) :
    Reads env (gatherFacts call p) (Lexical.gatherFacts env lex p) := by
  obtain ⟨hosts, becomeRoot, _ | unit⟩ := p
  · refine Reads.bind (reads_apply (fun _ => rfl) fun _ => ⟨rfl, fun hs => hs.declareAs _ rfl⟩)
      fun unit => ?_
    have invoked : Reads env
        (Exec.withHosts (some hosts) (.ofList [("become", .bool becomeRoot)]) (invoke call unit))
        (Lexical.withHosts env (some hosts) (.ofList [("become", .bool becomeRoot)])
          (Lexical.invoke · lex unit)) :=
      Reads.withHosts _ _ fun _ _ _ => reads_invoke hc unit
    refine invoked.bind fun _ => ?_
    exact Reads.bind (reads_update (fun _ => rfl) (fun _ => rfl)
      fun _ hs => hs.of_eq rfl rfl rfl) fun _ => reads_pure _
  · exact reads_pure _

theorem reads_runPass (p : Pass) (hp : p.structured) :
    Reads env (runPass call p) (Lexical.runPass env lex p) := by
  cases p with
  | facts p =>
    refine (reads_gatherFacts hc p).settle.bind fun result => ?_
    cases result <;> exact reads_pure _
  | merging p =>
    exact Reads.bind (reads_apply (fun _ => rfl) fun _ => ⟨rfl, Structured.mergeBindings⟩)
      fun _ => reads_pure _
  | idle => exact reads_pure _
  | scripted p =>
    exact (hc env p.block hp).settle.bind fun _ => reads_session fun _ _ _ => reads_pure _

theorem reads_runPasses (ps : List Pass) (hps : ∀ p ∈ ps, p.structured) :
    Reads env (runPasses call ps) (Lexical.runPasses env lex ps) := by
  induction ps with
  | nil => exact reads_pure _
  | cons p ps ih =>
    obtain ⟨hp, hps⟩ := List.forall_mem_cons.1 hps
    refine (reads_runPass hc p hp).bind fun ⟨q, result⟩ => ?_
    cases result with
    | error e => exact reads_pure _
    | ok _ => exact (ih hps).bind fun _ => reads_pure _

omit hc in
theorem runPass_structured (p : Pass) (hp : p.structured) :
    (runPass call p).Yields fun q => q.1.structured := by
  intro r
  cases p with
  | facts p =>
    simp only [runPass, ends_bind, ends_settle]
    exact .of_forall (fun _ _ => rfl) (fun _ _ => rfl) fun _ => trivial
  | merging p => exact rfl
  | idle => exact rfl
  | scripted p =>
    simp only [runPass, ends_bind, ends_settle]
    exact .of_forall (fun _ _ => hp) (fun _ _ => hp) fun _ => trivial

omit hc in
theorem runPasses_structured (ps : List Pass) (hps : ∀ p ∈ ps, p.structured) :
    (runPasses call ps).Yields fun q => ∀ p ∈ q.1, p.structured := by
  induction ps with
  | nil => exact fun _ => hps
  | cons p ps ih =>
    obtain ⟨hp, hps⟩ := List.forall_mem_cons.1 hps
    intro r
    rw [runPasses, ends_bind]
    refine (runPass_structured p hp r).imp_done fun ⟨q, result⟩ b hq => ?_
    cases result with
    | error e => exact List.forall_mem_cons.2 ⟨hq, hps⟩
    | ok _ =>
      simp only [ends_bind, ends_pure]
      exact (ih hps b).imp_done fun _ _ hqs => List.forall_mem_cons.2 ⟨hq, hqs⟩

omit hc in
theorem refine_bare (s : Session) : Pass.refine s.bare = Pass.refine s := by
  funext g p
  cases p <;> rfl

theorem reads_buildGraph : Reads env (buildGraph call) (Lexical.buildGraph env lex) := by
  refine reads_session fun s he hs => ?_
  subst he
  have guards : s.scopes.surroundings.conditions.isEmpty = s.scopes.guards.isEmpty :=
    List.isEmpty_reverse ..
  have depth : s.scopes.surroundings.conditions.length = s.scopes.guards.depth :=
    s.scopes.guards.length_toList
  rw [guards, depth]
  split
  · exact reads_fail_bind _ _ _
  · refine Reads.bind (reads_update (fun _ => rfl) (fun _ => rfl)
      fun _ hs => ⟨hs.bodies, hs.hooks, nofun⟩) fun _ => ?_
    refine Reads.bind_yields (Reads.inSession fun _ => reads_runPasses hc s.passes hs.passes)
      (runPasses_structured s.passes hs.passes).inSession fun ⟨passes, result⟩ hps => ?_
    refine Reads.bind (Reads.settle ?_) fun graph => ?_
    · refine (reads_ofExcept _).bind fun _ => reads_session fun t _ _ => ?_
      rw [refine_bare]
      exact (reads_ofExcept t.dependencyGraph).bind fun _ => reads_ofExcept _
    · exact Reads.bind (reads_update (fun _ => rfl) (fun _ => rfl)
        fun _ hs => ⟨hs.bodies, hs.hooks, hps⟩) fun _ => reads_ofExcept _

theorem reads_plan : Reads env (plan call) (Lexical.plan env lex) :=
  (reads_buildGraph hc).bind fun _ => reads_query fun _ _ => rfl

theorem reads_repeatFacts (n : Nat) (p : FactGathering) :
    Reads env (repeatFacts call n p) (Lexical.repeatFacts env lex n p) := by
  induction n generalizing p with
  | zero => exact reads_pure p
  | succ n ih => exact (reads_gatherFacts hc p).bind ih

omit hc in
theorem reads_anchored (p : FactGathering) : Reads env (anchored p) (anchored p) := by
  refine reads_session fun s _ _ => ?_
  rw [refine_bare]
  exact (reads_ofExcept s.dependencyGraph).bind fun _ => reads_ofExcept _

theorem reads_tryFacts (t : FactTrial) :
    Reads env (tryFacts call t) (Lexical.tryFacts env lex t) := by
  have answered (p : FactGathering) (g : Graph UnitId) : Reads env
      (do
        let s ← session
        return .factTrial (p.unit.map fun id => (id, s.unitName id)) (.of s g) : Exec Answer)
      (do
        let s ← session
        return .factTrial (p.unit.map fun id => (id, s.unitName id)) (.of s g)) :=
    reads_session fun _ _ _ => reads_pure _
  obtain ⟨settings, times, early, late⟩ := t
  refine (reads_ofExcept _).bind fun p => ?_
  cases early <;> cases late
  · exact (reads_repeatFacts hc times p).bind fun p => answered p _
  · exact (reads_repeatFacts hc times p).bind fun p => (reads_anchored p).bind (answered p)
  · exact (reads_anchored p).bind fun g => (reads_repeatFacts hc times p).bind fun p => answered p g
  · exact (reads_anchored p).bind fun _ => (reads_repeatFacts hc times p).bind fun p =>
      (reads_anchored p).bind (answered p)

omit hc in
theorem reads_modify {g : Session → Session} {act : Exec β} (known : Reads env act act)
    (image : ∀ s, g s.bare = (g s).bare) (scopes : ∀ s, (g s).scopes = s.scopes)
    (structured : ∀ s, s.Structured → (g s).Structured) :
    Reads env (do discard act; update g; return Answer.done)
      (do discard act; update g; return Answer.done) :=
  known.discard.bind fun _ => (reads_update image scopes structured).bind fun _ => reads_pure _

theorem reads_flagged (holds : Bool) (block : Block) (hb : structuredBlock block) :
    Reads env
      (do
        if holds then call block
        return .flag holds : Exec Answer)
      (do
        if holds then lex env block
        return .flag holds) := by
  cases holds with
  | true => exact (hc env block hb).bind fun _ => reads_pure _
  | false => exact reads_pure _

theorem reads_step (t : Stmt) (ht : t.structured) :
    Reads env (step call t) (Lexical.step env lex t) := by
  cases t with
  | openGuard | closeGuard => cases ht
  | declare d =>
    refine Reads.map (reads_apply (fun _ => rfl) fun _ => ⟨rfl, fun hs => hs.declareAs _ ?_⟩) _
    exact (structuredUnit_eq d).symm.trans ht
  | runbook name members setup =>
    obtain ⟨hm, hook⟩ := Bool.and_eq_true_iff.1 ht
    have bodies : ∀ d ∈ members.map script, d.body.structured := by
      rw [structuredUnits_eq_all, List.all_eq_true] at hm
      exact List.forall_mem_map.2 hm
    exact Reads.map (reads_perform (fun s _ => s.declareRunbook_bare name setup _) fun s id t h =>
      ⟨(declareRunbook_updates h).scopes_eq, fun hs => hs.declareRunbook hook bodies h⟩) _
  | hosts pattern settings =>
    exact Reads.map (reads_declareHosts pattern settings) _
  | setSetting group key value =>
    exact reads_modify (reads_query fun _ _ => rfl) (fun _ => rfl) (fun _ => rfl)
      fun _ hs => hs.modifyGroup group _
  | setVar group key value =>
    exact reads_modify (reads_query fun _ _ => rfl) (fun _ => rfl) (fun _ => rfl)
      fun _ hs => hs.modifyGroup group _
  | addBefore unit ref =>
    exact reads_modify (reads_query fun _ _ => rfl) (fun _ => rfl) (fun _ => rfl)
      fun _ hs => hs.modifyUnit unit fun _ => rfl
  | addAfter unit ref =>
    exact reads_modify (reads_query fun _ _ => rfl) (fun _ => rfl) (fun _ => rfl)
      fun _ hs => hs.modifyUnit unit fun _ => rfl
  | enter block =>
    exact Reads.bind (Reads.inSession fun inner => hc inner block ht) fun _ => reads_pure _
  | enterHosts group block =>
    exact Reads.bind (Reads.inGroup group fun inner _ => hc inner block ht) fun _ => reads_pure _
  | withHosts pattern settings block =>
    refine Reads.withHosts pattern settings fun id inner _ => (hc inner block ht).bind fun _ => ?_
    exact fun r he hs => .look (he ▸ .pure ⟨rfl, hs⟩)
  | «when» condition block =>
    exact Reads.bind (Reads.underGuard condition fun inner => hc inner block ht)
      fun _ => reads_pure _
  | invoke unit => exact (reads_invoke hc unit).bind fun _ => reads_pure _
  | instantiate runbook vars => exact (reads_instantiate hc runbook vars).map _
  | step action args count edits => exact (reads_recordSteps action args count edits).map _
  | getFile source args edits =>
    exact Reads.bind (reads_query fun _ _ => rfl) fun _ => (reads_recordStep _ _ _).map _
  | varStep action name edits =>
    refine reads_session fun s he hs => ?_
    subst he
    exact (reads_recordStep _ _ _).map _
  | patternStep action edits =>
    refine reads_session fun s he hs => ?_
    subst he
    exact (reads_recordStep _ _ _).map _
  | fail error => exact reads_fail error
  | attempt block =>
    refine (hc env block ht).settle.bind fun result => ?_
    cases result <;> exact reads_pure _
  | ifInvokedLess unit times block =>
    exact reads_session fun _ _ _ => reads_flagged hc _ block ht
  | ifVar name value block =>
    refine reads_session fun s he hs => ?_
    subst he
    exact reads_flagged hc _ block ht
  | ask q => exact reads_query fun s he => he ▸ answer_bare s q
  | buildGraph =>
    exact (reads_buildGraph hc).bind fun _ => reads_session fun _ _ _ => reads_pure _
  | merge =>
    exact Reads.map (reads_apply (fun _ => rfl) fun _ => ⟨rfl, Structured.mergeBindings⟩) _
  | gatherFacts trial => exact reads_tryFacts hc trial
  | plan form => exact (reads_plan hc).bind fun _ => reads_ofExcept _

theorem reads_runBlock (block : Block) (hb : structuredBlock block) :
    Reads env (runBlock call block) (Lexical.runBlock env lex block) := by
  induction block with
  | nil => exact reads_pure _
  | cons t ts ih =>
    obtain ⟨ht, hts⟩ := Bool.and_eq_true_iff.1 hb
    exact (reads_note t (reads_step hc t ht)).bind fun _ => ih hts

theorem reads_runAll (block : Block) (hb : structuredBlock block) :
    Reads env (runAll call block) (Lexical.runAll env lex block) := by
  induction block with
  | nil => exact reads_pure _
  | cons t ts ih =>
    obtain ⟨ht, hts⟩ := Bool.and_eq_true_iff.1 hb
    exact (reads_note t (reads_step hc t ht)).settle.discard.bind fun _ => ih hts

end Nested

theorem reads_runWithin (bound : Nat) (env : Surroundings) (block : Block)
    (hb : structuredBlock block) :
    Reads env (runWithin bound block) (Lexical.runWithin bound env block) := by
  induction bound generalizing env block with
  | zero => exact fun _ _ _ => .exhausted trivial
  | succ bound ih => exact reads_runBlock ih block hb

end Exec

/-- Every step of a structured script sees just what is around it: the script runs as it does with
surroundings that are handed down, and those decide the unit, the host group and the conditions of
each step. -/
theorem Session.run_sees_surroundings (s : Session) (bound : Nat) (script : Block)
    (hs : s.Structured) (structured : structuredBlock script) :
    (s.run bound script).bare = Lexical.run s.scopes.surroundings s.bare bound script ∧
      ∀ (env : Surroundings) (before after : Session) (action : String) (args : Value)
        (edits : List StepEdit) (step : Step),
        env.recordStep before action args edits = .ok (step, after) →
        ∃ id u fresh, env.unit = some id ∧ before.unit? id = some u ∧
          after.unit? id = some (u.record step) ∧ step = edits.foldl Step.edit fresh ∧
          fresh.group = env.group ∧ fresh.settings.get? "when" =
            if env.conditions.isEmpty then none else some (.texts env.conditions) := by
  refine ⟨?_, fun _ _ _ _ _ _ _ => Surroundings.recordStep_eq_ok⟩
  have mirrored := Exec.reads_runAll (Exec.reads_runWithin bound) script structured ⟨s, []⟩ rfl hs
  have same : (Lexical.runAll s.scopes.surroundings (Lexical.runWithin bound) script).run
      ⟨s.bare, []⟩ = _ := mirrored.same
  unfold Session.run Lexical.run
  rw [same]
  cases (Exec.runAll (runWithin bound) script).run ⟨s, []⟩ <;>
    exact congrArg (Transcript.mk · _) List.map_reverse

/-- A unit under conditions of its own and of its caller, and a runbook with a member that fails
after its step. -/
def nestedScript : Block :=
  [.declare (.new "deploy" [.when "b" [.step "command" (.text "one") 1 []]]),
    .runbook "base" [.new "install"
      [.when "d" [.varStep "apt" "package" []], .fail (.refused (.stated "later"))]] none,
    .enter [.withHosts (some "web") .empty
      [.when "a" [.invoke ⟨0⟩],
        .when "c" [.attempt [.instantiate ⟨0⟩ (.ofList [("package", .text "vault")])]],
        .invoke ⟨0⟩]]]

theorem run_sees_surroundings_nestedScript :
    structuredBlock nestedScript = true ∧
      (((Session.initial ⟨false, .bundle, none, []⟩ []).run 6 nestedScript).entries.getLast?.map
        fun e => e.session.units.flatMap fun u => u.steps.map fun step =>
          (u.name, step.group, step.args, step.settings.get? "when")) =
        some [("deploy", some ⟨0⟩, .text "one", some (.texts ["a", "b"])),
          ("deploy", some ⟨0⟩, .text "one", some (.texts ["b"])),
          ("base.install", some ⟨1⟩, .text "vault", some (.texts ["c", "d"]))] ∧
      ((Session.initial ⟨false, .bundle, none, []⟩ []).run 6 nestedScript).bare =
        Lexical.run Scopes.empty.surroundings (Session.initial ⟨false, .bundle, none, []⟩ []).bare 6
          nestedScript := by
  have recorded : (((Session.initial ⟨false, .bundle, none, []⟩ []).run 6
      nestedScript).entries.getLast?.map fun e => e.session.units.flatMap fun u =>
        u.steps.map fun step => (u.name, step.group, step.args, step.settings.get? "when")) =
      some [("deploy", some ⟨0⟩, .text "one", some (.texts ["a", "b"])),
        ("deploy", some ⟨0⟩, .text "one", some (.texts ["b"])),
        ("base.install", some ⟨1⟩, .text "vault", some (.texts ["c", "d"]))] := by decide +kernel
  have structured : (Session.initial ⟨false, .bundle, none, []⟩ []).Structured :=
    Session.structured_initial _
  exact ⟨rfl, recorded, (Session.run_sees_surroundings _ 6 nestedScript structured rfl).1⟩

end Playbook
