import Playbook.Proofs.Graph.Draining
import Playbook.Proofs.Session.Grounding
import Playbook.Proofs.Session.Indexing
import Playbook.Proofs.Session.Leaving

/-! No lookup fails. In whatever an initial session has turned into, each handle by which something
is looked up without a check is that of an entry, so what would happen otherwise makes no
difference. -/

namespace Playbook
namespace Exec
open Session
variable {α β : Type} {r : Run} {s t : Session}

theorem run_bind_congr {act act' : Exec β} {f f' : β → Exec α} (first : act'.run r = act.run r)
    (rest : ∀ b c, act.run r = .ok b c → (f' b).run c = (f b).run c) :
    (act' >>= f').run r = (act >>= f).run r := by
  rw [EStateM.run_bind, EStateM.run_bind, first]
  cases ran : act.run r with
  | ok b c => exact rest b c ran
  | error => rfl

theorem run_settle_congr {act act' : Exec α} (h : act'.run r = act.run r) :
    (settle act').run r = (settle act).run r := by
  rw [run_settle, run_settle, h]

theorem run_within_congr {act act' : Exec α} {kind : ScopeKind} {enter : Scopes → Scopes}
    (h : act'.run (r.on { r.session with scopes := enter r.session.scopes }) =
      act.run (r.on { r.session with scopes := enter r.session.scopes })) :
    (within kind enter act').run r = (within kind enter act).run r :=
  run_bind_congr rfl fun _ _ entered => by
    cases entered
    exact run_bind_congr (run_settle_congr h) fun _ _ _ => rfl

theorem run_inGroup (id : GroupId) (act : Exec α) (r : Run) :
    (inGroup id act).run r = match r.session.getGroup id with
      | .ok _ =>
        (within .hostGroup (fun c => { c with hostGroups := c.hostGroups.enter id }) act).run r
      | .error e => .error (.failed e) r := by
  rw [inGroup, EStateM.run_bind]
  have looked : (discard (query (·.getGroup id))).run r =
      (discard (ofExcept (r.session.getGroup id))).run r := rfl
  rw [looked]
  cases r.session.getGroup id <;> rfl

/-- In whatever the session may turn into, both actions do the same. -/
def Alike (s : Session) (act act' : Exec α) : Prop :=
  ∀ r : Run, s.Moves r.session → act'.run r = act.run r

namespace Alike
variable {act act' : Exec α}

theorem refl (act : Exec α) : Alike s act act := fun _ _ => rfl

theorem later (h : Alike s act act') (m : s.Moves t) : Alike t act act' := fun r more =>
  h r (m.trans more)

theorem bind {f f' : α → Exec β} (h : Alike s act act') (tame : act.Tame)
    (rest : ∀ a, Alike s (f a) (f' a)) : Alike s (act >>= f) (act' >>= f') := fun r later =>
  run_bind_congr (h r later) fun a b ran => by
    have path := tame.path r
    rw [ran] at path
    exact rest a b (later.trans path.moves)

theorem andThen (h : Alike s act act') (f : α → Exec β) : Alike s (act >>= f) (act' >>= f) :=
  fun r later => run_bind_congr (h r later) fun _ _ _ => rfl

theorem session {k k' : Session → Exec α} (h : ∀ t, Alike s (k t) (k' t)) :
    Alike s (Exec.session >>= k) (Exec.session >>= k') := (refl _).bind tame_session h

theorem map (h : Alike s act act') (g : α → β) : Alike s (g <$> act) (g <$> act') := by
  rw [map_eq_pure_bind, map_eq_pure_bind]
  exact h.andThen _

theorem discard (h : Alike s act act') : Alike s (discard act) (discard act') := h.map _

theorem settle (h : Alike s act act') : Alike s (settle act) (settle act') := fun r later =>
  run_settle_congr (h r later)

theorem note {act act' : Exec Answer} (h : Alike s act act') (statement : Stmt) :
    Alike s (note statement act) (note statement act') := h.settle.andThen _

theorem foldlM {f f' : β → α → Exec β} (h : ∀ b a, Alike s (f b a) (f' b a))
    (tame : ∀ b a, (f b a).Tame) (l : List α) (b : β) :
    Alike s (l.foldlM f b) (l.foldlM f' b) := by
  induction l generalizing b with
  | nil => exact refl _
  | cons a l ih =>
    rw [List.foldlM_cons, List.foldlM_cons]
    exact (h b a).bind (tame b a) ih

theorem forM {f f' : α → Exec PUnit} {l : List α} (h : ∀ a ∈ l, Alike s (f a) (f' a))
    (tame : ∀ a, (f a).Tame) : Alike s (l.forM f) (l.forM f') := by
  induction l with
  | nil => exact refl _
  | cons a l ih =>
    obtain ⟨first, others⟩ := List.forall_mem_cons.1 h
    exact first.bind (tame a) fun _ => ih others

theorem inSession (h : Alike s act act') : Alike s (inSession act) (inSession act') :=
  fun r later => by
    have entered := h (r.on _) (later.tail (.enter .session))
    exact run_bind_congr rfl fun _ _ looked => by
      cases looked
      exact run_within_congr entered

theorem inGroup (h : Alike s act act') (id : GroupId) :
    Alike s (inGroup id act) (inGroup id act') := fun r later => by
  rw [run_inGroup, run_inGroup]
  cases found : r.session.getGroup id with
  | error => rfl
  | ok g => exact run_within_congr (h _ (later.tail (.enter (.hostGroup (getGroup_eq_ok.1 found)))))

theorem withHosts (h : Alike s act act') (pattern : Option String) (settings : Attributes) :
    Alike s (withHosts pattern settings act) (withHosts pattern settings act') :=
  (refl _).bind (tame_perform fun _ _ _ => declareHosts_updates) fun id => h.inGroup id

theorem underGuard (h : Alike s act act') (condition : String) :
    Alike s (underGuard condition act) (underGuard condition act') := fun _ later =>
  run_within_congr (h _ (later.tail (.enter (.guard condition))))

end Alike

theorem run_session_bind (k : Session → Exec α) (r : Run) :
    (session >>= k).run r = (k r.session).run r := rfl

theorem run_update_bind (f : Session → Session) (k : Unit → Exec α) (r : Run) :
    (update f >>= k).run r = (k ()).run (r.on (f r.session)) := rfl

theorem run_query_bind (f : Session → Except Error β) (k : β → Exec α) (r : Run) :
    (query f >>= k).run r = (ofExcept (f r.session) >>= k).run r := rfl

theorem run_perform_eq_ok {f : Session → Except Error (α × Session)} {a : α} {b : Run}
    (h : (perform f).run r = .ok a b) : ∃ t, f r.session = .ok (a, t) ∧ b = r.on t := by
  rw [run_perform] at h
  cases done : f r.session with
  | ok p =>
    rw [done] at h
    cases h
    exact ⟨_, rfl, rfl⟩
  | error =>
    rw [done] at h
    cases h

theorem run_ofExcept_eq_ok {x : Except Error α} {a : α} {b : Run}
    (h : (ofExcept x).run r = .ok a b) : x = .ok a ∧ b = r := by
  cases x with
  | ok =>
    cases h
    exact ⟨rfl, rfl⟩
  | error => cases h

theorem index_some_bind (panic : Halt) (a : β) (k : β → Exec α) :
    (Indexed.index panic (some a) >>= k) = k a := rfl

theorem discard_index_some_bind (panic : Halt) (a : β) (k : PUnit → Exec α) :
    (discard (Indexed.index panic (some a)) >>= k) = k ⟨⟩ := rfl

section
variable (arises : s.Arises) (panic : Halt)
include arises

theorem alike_recordStep (action : String) (args : Value) (edits : List StepEdit) :
    Alike s (recordStep action args edits) (Indexed.recordStep panic action args edits) := by
  intro r later
  have grounded := (arises.moves later).grounded
  rw [recordStep, EStateM.run_bind, run_perform, Indexed.recordStep, run_session_bind]
  cases active : r.session.currentUnit? with
  | none =>
    rw [Session.recordStep, active]
    rfl
  | some unit =>
    obtain ⟨u, declared⟩ := has_unit.1 (grounded.has_currentUnit active)
    rw [recordStep_of_active active declared]
    simp only [declared, index_some_bind, run_update_bind, run_session_bind]
    generalize edits.foldl Step.edit (r.session.freshStep u action args) = step
    have recorded : ({ r.session.modifyUnit unit (·.record step) with
        nextRegister := r.session.nextRegister + 1 } : Session).unit? unit =
          some (u.record step) := by
      refine (unit?_modifyUnit ..).trans ?_
      simp [declared]
    have last : (u.record step).steps[(u.record step).steps.length - 1]? = some step := by
      simp [WorkUnit.record]
    rw [Run.on_session, recorded, index_some_bind, last]
    rfl

theorem alike_recordSteps (action : String) (args : Value) (count : Nat) (edits : List StepEdit) :
    Alike s (recordSteps action args count edits)
      (Indexed.recordSteps panic action args count edits) :=
  .foldlM (fun _ _ => (alike_recordStep arises panic action args edits).map some)
    (fun _ _ => (tame_recordStep action args edits).map some) _ _

omit arises in
theorem run_bindUnit {unit : UnitId} {u : WorkUnit} {group : GroupId} {g : HostGroup}
    (declared : r.session.unit? unit = some u) (current : r.session.group? group = some g) :
    (Indexed.bindUnit panic unit group).run r = (update fun s =>
      (s.modifyUnit unit (·.bind group)).modifyGroup group (·.addMember unit)).run r := by
  rw [Indexed.bindUnit, run_session_bind, declared, discard_index_some_bind, run_update_bind,
    run_session_bind, Run.on_session, group?_modifyUnit, current, discard_index_some_bind]
  rfl

variable {bound : Nat} {call' : Block → Exec Unit}
  (hc : ∀ block, Alike s (runWithin bound block) (call' block))
include hc

theorem alike_runBody : ∀ body, Alike s (runBody (runWithin bound) body)
    (Indexed.runBody panic call' body)
  | .script block => hc block
  | .step action args => (alike_recordStep arises panic action args []).discard

theorem alike_invoke (unit : UnitId) :
    Alike s (invoke (runWithin bound) unit) (Indexed.invoke panic call' unit) := by
  intro r later
  have grounded := (arises.moves later).grounded
  rw [invoke, Indexed.invoke, run_session_bind, run_session_bind]
  refine run_bind_congr rfl fun u b found => ?_
  obtain ⟨found, rfl⟩ := run_ofExcept_eq_ok found
  have declared := getUnit_eq_ok.1 found
  cases active : b.session.currentGroup? with
  | none => rfl
  | some group =>
    obtain ⟨g, current⟩ := has_group.1 (grounded.has_currentGroup active)
    refine run_bind_congr (run_bindUnit panic declared current) fun _ c bound => ?_
    cases bound
    rw [run_update_bind, run_update_bind]
    have body := alike_runBody arises panic hc u.body _
      (later.trans (Run.Path.begin declared active).moves)
    exact run_bind_congr (run_settle_congr (run_within_congr body)) fun _ _ _ => rfl

theorem alike_invokeMember {runbook : Runbook} {inst : Instance} {unit : UnitId}
    (known : s.runbook? inst.runbook = some runbook) (member : unit ∈ runbook.members.values) :
    Alike s (invokeMember (runWithin bound) runbook inst unit)
      (Indexed.invokeMember panic call' inst unit) := by
  intro r later
  have kept := later.grows.runbook? known
  have grounded := (arises.moves later).grounded
  obtain ⟨u, declared⟩ := has_unit.1 (grounded.runbooks runbook (List.mem_of_getElem? kept)
    (.unit unit) member)
  rw [Indexed.invokeMember, run_session_bind, kept, index_some_bind, run_session_bind, declared,
    index_some_bind, invokeMember, run_query_bind, getUnit_eq_ok.2 declared]
  refine run_bind_congr rfl fun before b resolved => ?_
  obtain ⟨-, rfl⟩ := run_ofExcept_eq_ok resolved
  refine run_bind_congr rfl fun after c resolved => ?_
  obtain ⟨-, rfl⟩ := run_ofExcept_eq_ok resolved
  rw [run_session_bind, declared, discard_index_some_bind]
  refine run_bind_congr rfl fun _ d constrained => ?_
  cases constrained
  exact alike_invoke arises panic hc unit _ (later.tail (.update (.constrain unit _ _)))

theorem alike_populate {runbook : Runbook} {inst : Instance}
    (made : s.instance? inst.id = some inst) (known : s.runbook? inst.runbook = some runbook) :
    Alike s (populate (runWithin bound) runbook inst) (Indexed.populate panic call' inst.id) := by
  intro r later
  rw [Indexed.populate, run_session_bind, later.instance? made, index_some_bind, run_session_bind,
    later.grows.runbook? known, index_some_bind, populate]
  have members : Alike s (runbook.members.values.forM (invokeMember (runWithin bound) runbook inst))
      (runbook.members.values.forM (Indexed.invokeMember panic call' inst)) :=
    .forM (fun _ => alike_invokeMember arises panic hc known)
      (tame_invokeMember (tame_runWithin bound) runbook inst)
  cases runbook.setup with
  | none => exact members r later
  | some setup => exact (hc setup).bind (tame_runWithin bound setup) (fun _ => members) r later

omit arises hc in
theorem run_outer_bind (grounded : r.session.Grounded) (k : Option Instance → Exec α) :
    (Indexed.outer panic >>= k).run r =
      (k (r.session.currentInstance?.bind r.session.instance?)).run r := by
  have looked : (Indexed.outer panic).run r =
      .ok (r.session.currentInstance?.bind r.session.instance?) r := by
    rw [Indexed.outer, run_session_bind]
    cases active : r.session.currentInstance? with
    | none => rfl
    | some inst =>
      obtain ⟨i, made⟩ := has_inst.1 (grounded.scopes (.inst inst) (List.mem_of_mem_head? active))
      simp only [Option.bind_some, made]
      rfl
  rw [EStateM.run_bind, looked]

theorem alike_instantiate (runbook : RunbookId) (vars : Attributes) :
    Alike s (instantiate (runWithin bound) runbook vars)
      (Indexed.instantiate panic call' runbook vars) := by
  intro r later
  rw [instantiate, Indexed.instantiate, run_session_bind, run_session_bind]
  refine run_bind_congr rfl fun x b found => ?_
  obtain ⟨found, rfl⟩ := run_ofExcept_eq_ok found
  cases active : b.session.currentGroup? with
  | none => rfl
  | some parent =>
    refine run_bind_congr rfl fun group c copied => ?_
    obtain ⟨t, source, rfl⟩ := run_perform_eq_ok copied
    obtain ⟨_, _, declared⟩ := declareHosts_of_copyGroup source
    obtain ⟨g, current⟩ := has_group.1 (has_of_declareHosts declared)
    obtain ⟨last, h, -, alone⟩ := copyGroup_eq_ok (arises.moves later).homebound source vars
    have varied := (later.tail (.update (.hosts declared))).tail (.update (.setVars group vars))
    rw [alone] at varied
    subst last
    -- the copy is there by now, and the lookups are made in a session that has it
    rw [run_session_bind, Run.on_session, current, discard_index_some_bind, run_update_bind,
      run_update_bind, Run.on_session, alone,
      run_outer_bind panic (arises.moves varied).grounded, run_session_bind, run_update_bind,
      run_update_bind]
    let inst := b.session.newInstance runbook vars
    let prepared : Session := { b.session with
      groups := b.session.groups ++ [b.session.privateGroup h vars]
      instances := b.session.instances ++ [inst] }
    have known := getRunbook_eq_ok.1 found
    have created : s.Moves prepared :=
      varied.tail (.update (.inst inst rfl ⟨x, known⟩ ⟨_, List.getElem?_concat_length⟩))
    have made : prepared.instance? inst.id = some inst := List.getElem?_concat_length
    have populated : Alike prepared (populate (runWithin bound) x inst)
        (Indexed.populate panic call' inst.id) :=
      alike_populate (arises.moves created) panic (fun block => (hc block).later created) made known
    have block := populated.inGroup inst.group
    exact run_bind_congr (run_within_congr (block _ (.single (.enter (.runbook made)))))
      fun _ _ _ => rfl

theorem alike_gatherFacts (p : FactGathering) :
    Alike s (gatherFacts (runWithin bound) p) (Indexed.gatherFacts panic call' p) := by
  unfold gatherFacts Indexed.gatherFacts
  split
  · exact .refl _
  · exact (Alike.refl _).bind (tame_apply fun _ => .declare _ _) fun unit =>
      ((alike_invoke arises panic hc unit).withHosts _ _).andThen _

theorem alike_runPass : ∀ p, Alike s (runPass (runWithin bound) p) (Indexed.runPass panic call' p)
  | .facts p => (alike_gatherFacts arises panic hc p).settle.andThen _
  | .merging _ | .idle => .refl _
  | .scripted p => (hc p.block).settle.andThen _

theorem alike_runPasses : ∀ ps,
    Alike s (runPasses (runWithin bound) ps) (Indexed.runPasses panic call' ps)
  | [] => .refl _
  | p :: ps => (alike_runPass arises panic hc p).bind (tame_runPass (tame_runWithin bound) p) fun
    | (_, .error _) => .refl _
    | (_, .ok ()) => (alike_runPasses ps).andThen _

theorem alike_buildGraph :
    Alike s (buildGraph (runWithin bound)) (Indexed.buildGraph panic call') :=
  .session fun t => by
    split
    · exact .refl _
    · exact (Alike.refl _).bind (tame_update fun _ => .pipeline []) fun _ =>
        (alike_runPasses arises panic hc t.passes).inSession.andThen _

theorem alike_plan : Alike s (plan (runWithin bound)) (Indexed.plan panic call') :=
  (alike_buildGraph arises panic hc).andThen _

theorem alike_repeatFacts : ∀ n p,
    Alike s (repeatFacts (runWithin bound) n p) (Indexed.repeatFacts panic call' n p)
  | 0, _ => .refl _
  | n + 1, p => (alike_gatherFacts arises panic hc p).bind
      (tame_gatherFacts (tame_runWithin bound) p) fun p => alike_repeatFacts n p

theorem alike_tryFacts (t : FactTrial) :
    Alike s (tryFacts (runWithin bound) t) (Indexed.tryFacts panic call' t) := by
  unfold tryFacts Indexed.tryFacts
  refine (Alike.refl _).bind (tame_ofExcept _) fun p => ?_
  extract_lets late late'
  have gathered (early : Graph UnitId) : Alike s (late early) (late' early) :=
    (alike_repeatFacts arises panic hc _ _).andThen _
  split
  · exact (Alike.refl _).bind (tame_anchored p) gathered
  · exact (Alike.refl _).bind (tame_pure Graph.empty) gathered

omit arises in
theorem alike_flagged (holds : Bool) (block : Block) :
    Alike s
      (do
        if holds then runWithin bound block
        return Answer.flag holds)
      (do
        if holds then call' block
        return Answer.flag holds) := by
  split
  · exact (hc block).andThen _
  · exact .refl _

theorem alike_step : ∀ t, Alike s (step (runWithin bound) t) (Indexed.step panic call' t)
  | .declare _ | .runbook .. | .hosts .. | .setSetting .. | .setVar .. | .addBefore ..
  | .addAfter .. | .openGuard _ | .closeGuard | .fail _ | .ask _ | .merge => .refl _
  | .enter block => (hc block).inSession.andThen _
  | .enterHosts group block => ((hc block).inGroup group).andThen _
  | .withHosts _ _ block => ((hc block).andThen _).withHosts _ _
  | .when condition block => ((hc block).underGuard condition).andThen _
  | .invoke unit => (alike_invoke arises panic hc unit).andThen _
  | .instantiate runbook vars => (alike_instantiate arises panic hc runbook vars).map _
  | .step action args count edits => (alike_recordSteps arises panic action args count edits).map _
  | .getFile .. => (Alike.refl _).bind (tame_query _) fun _ =>
      (alike_recordStep arises panic _ _ _).map _
  | .varStep .. => .session fun _ => (alike_recordStep arises panic _ _ _).map _
  | .patternStep .. => .session fun _ => (alike_recordStep arises panic _ _ _).map _
  | .attempt block => (hc block).settle.andThen _
  | .ifInvokedLess .. => .session fun _ => alike_flagged hc _ _
  | .ifVar .. => .session fun _ => alike_flagged hc _ _
  | .buildGraph => (alike_buildGraph arises panic hc).andThen _
  | .gatherFacts trial => alike_tryFacts arises panic hc trial
  | .plan _ => (alike_plan arises panic hc).andThen _

theorem alike_runBlock : ∀ block,
    Alike s (runBlock (runWithin bound) block) (Indexed.runBlock panic call' block)
  | [] => .refl _
  | t :: ts => ((alike_step arises panic hc t).note t).bind (tame_noted (tame_runWithin bound) t)
      fun _ => alike_runBlock ts

theorem alike_runAll : ∀ block,
    Alike s (runAll (runWithin bound) block) (Indexed.runAll panic call' block)
  | [] => .refl _
  | t :: ts => ((alike_step arises panic hc t).note t).settle.discard.bind
      (tame_noted (tame_runWithin bound) t).settle.discard fun _ => alike_runAll ts

omit hc in
theorem alike_runWithin : ∀ (bound : Nat) (block : Block),
    Alike s (runWithin bound block) (Indexed.runWithin panic bound block)
  | 0, _ => .refl _
  | bound + 1, block => alike_runBlock arises panic (alike_runWithin bound) block

end

end Exec

/-- A run in which nothing is checked twice is a run as it is. -/
theorem Session.run_indexed (settings : Settings) (passes : List Pass) (bound : Nat)
    (script : Block) (panic : Halt) :
    Indexed.run panic (initial settings passes) bound script =
      (initial settings passes).run bound script := by
  have arises : (initial settings passes).Arises := ⟨settings, passes, .refl⟩
  have same := Exec.alike_runAll arises panic (Exec.alike_runWithin arises panic bound) script
    ⟨initial settings passes, []⟩ .refl
  cases ran : (Exec.runAll (runWithin bound) script).run ⟨initial settings passes, []⟩ <;>
  · rw [ran] at same
    simp only [Indexed.run, run, same, ran]

/-- Whatever handles a script uses, those that a session keeps are handles of entries that bear
them: in each session that the script comes by, and at each stage in between. Lookups of entries by
handle that are made without a check, in a session or in a graph that is sorted, find what they look
for. A scope that is left is there, unless it is a condition. -/
theorem Session.handles_known (settings : Settings) (passes : List Pass) (bound : Nat)
    (script : Block) :
    (∀ t ∈ (initial settings passes).states bound script, ∀ x, t.Stores x → t.Knows x) ∧
    (∀ r, Run.Story ⟨initial settings passes, []⟩ r → ∀ x, r.session.Stores x →
      r.session.Knows x) ∧
    (∀ panic, Indexed.run panic (initial settings passes) bound script =
      (initial settings passes).run bound script) ∧
    (∀ g : Graph UnitId, g.Sorts g.ordered) ∧
    ∀ f, ((initial settings passes).run bound script).halt = some (.fault f) → f.kind = .guard := by
  refine ⟨fun t ht x hx => ?_, fun r story x hx => story.knows hx, run_indexed _ _ _ _,
    fun g => Graph.sorts_iff.2 rfl, fun f halted => guard_of_fault _ _ _ halted⟩
  obtain ⟨r, story, rfl⟩ := exists_story_of_mem_states ht
  exact story.knows hx

def Halt.fault? : Halt → Option Fault
  | .fault f => some f
  | .failed _ | .exhausted => none

/-- A runbook within a runbook, with handles in between of which nothing is known. -/
def strangersScript : Block :=
  [.declare (.new "stray" [.invoke ⟨9⟩]),
    .runbook "rack" [.new "slot" [.step "ping" .null 1 []]] none,
    .runbook "hall" [.new "row" [.instantiate ⟨0⟩ .empty]] none,
    .enter [.withHosts (some "all") .empty [.attempt [.invoke ⟨0⟩], .instantiate ⟨1⟩ .empty]],
    .enterHosts ⟨7⟩ [],
    .instantiate ⟨5⟩ .empty,
    .closeGuard]

/-- The inner instance keeps the unit that made it, and the script stops for want of a condition. -/
theorem Session.handles_known_strangers :
    let start := initial ⟨true, .bundle, none, []⟩ []
    (∃ t ∈ start.states 5 strangersScript, t.Stores (.unit ⟨2⟩) ∧ t.Knows (.unit ⟨2⟩)) ∧
    (∃ r, Run.Story ⟨start, []⟩ r ∧ r.session.Stores (.unit ⟨2⟩) ∧ r.session.Knows (.unit ⟨2⟩)) ∧
    Indexed.run (.fault ⟨.unit⟩) start 5 strangersScript = start.run 5 strangersScript ∧
    ∃ f, (start.run 5 strangersScript).halt = some (.fault f) ∧ f.kind = .guard := by
  intro start
  obtain ⟨known, told, same, -, guard⟩ :=
    handles_known ⟨true, .bundle, none, []⟩ [] 5 strangersScript
  have last : (start.run 5 strangersScript).entries.getLast?.map (fun e =>
      e.session.instances.map fun i => i.after.toList) = some [[], [⟨2⟩]] := by decide +kernel
  obtain ⟨e, last, made⟩ := Option.map_eq_some_iff.1 last
  have mem : e.session ∈ start.states 5 strangersScript :=
    List.mem_cons_of_mem _ (List.mem_map_of_mem (List.mem_of_getLast? last))
  have inner : [⟨2⟩] ∈ e.session.instances.map fun i => i.after.toList := by
    rw [made]
    simp
  obtain ⟨i, hi, after⟩ := List.mem_map.1 inner
  have stores : e.session.Stores (.unit ⟨2⟩) :=
    .instanceAfter hi (by rw [OrderedSet.mem_def, after]; exact List.mem_singleton_self _)
  obtain ⟨r, story, at_⟩ := exists_story_of_mem_states mem
  have stops : (start.run 5 strangersScript).halt.bind Halt.fault? = some ⟨.guard⟩ := by
    decide +kernel
  refine ⟨⟨_, mem, stores, known _ mem _ stores⟩,
    ⟨r, story, at_ ▸ stores, told r story _ (at_ ▸ stores)⟩, same _, ?_⟩
  obtain ⟨halt, halted, fault⟩ := Option.bind_eq_some_iff.1 stops
  cases halt with
  | fault f => exact ⟨f, halted, guard f halted⟩
  | failed | exhausted => cases fault

end Playbook
