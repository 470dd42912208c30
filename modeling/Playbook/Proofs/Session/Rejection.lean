import Playbook.Proofs.Plan.Pipeline
import Playbook.Proofs.Session.Accumulation
import Playbook.Proofs.Session.Grounding
import Playbook.Proofs.Session.Persistence

/-! What is rejected at once. A statement that declares, enters or calls something is checked before
anything is changed and before any block is run: under exactly the conditions named here it is
refused, and nothing has happened then. Where none of them holds, a refusal can only be that of a
statement in a block that it has run. -/

namespace Playbook
open Session

/-- The statement is checked before it does anything. -/
def Stmt.isChecked : Stmt → Bool
  | .hosts .. | .withHosts .. | .enterHosts .. | .invoke _ | .instantiate .. | .runbook ..
  | .step .. | .varStep .. | .patternStep .. | .getFile .. | .closeGuard => true
  | _ => false

/-- The outcome of a check: it refuses under the condition, and under no other. -/
inductive Decides {α : Type} (forbidden : Prop) : Except Error α → Prop
  | refuses (h : forbidden) (reason : Refusal) : Decides forbidden (.error (.refused reason))
  | permits (h : ¬ forbidden) (a : α) : Decides forbidden (.ok a)

theorem Decides.congr {α : Type} {p q : Prop} {x : Except Error α} (h : Decides p x) (iff : p ↔ q) :
    Decides q x := by
  cases h with
  | refuses h reason => exact .refuses (iff.1 h) reason
  | permits h a => exact .permits (fun hq => h (iff.2 hq)) a

theorem Decides.refused {α : Type} {p : Prop} {x : Except Error α} (h : Decides p x) (hp : p) :
    ∃ reason, x = .error (.refused reason) := by
  cases h with
  | refuses _ reason => exact ⟨reason, rfl⟩
  | permits hn => exact absurd hp hn

theorem Decides.permitted {α : Type} {p : Prop} {x : Except Error α} (h : Decides p x)
    (hp : ¬ p) : ∃ a, x = .ok a := by
  cases h with
  | refuses h => exact absurd h hp
  | permits _ a => exact ⟨a, rfl⟩

namespace Session
variable {s t : Session}

def ForbidsHosts (s : Session) (pattern : Option String) : Prop :=
  s.isActive = false ∨
    s.settings.localhostOnly = false ∧ ∀ p, pattern = some p → Text.isBlank p = true

def ForbidsFile (source : String) (args : Value) : Prop :=
  (Text.dropLeading (· = '/') source).isEmpty = true ∨
    args ≠ .null ∧ ∀ entries, args ≠ .mapping entries

/-- No more conditions are open than when the active unit was called, and there is one. -/
def ForbidsClosing (s : Session) : Prop :=
  0 < s.scopes.guards.depth ∧ s.scopes.guards.depth ≤ s.guardFloor

theorem forbidsClosing_iff {callers : List String} (floor : s.guardFloor = callers.length)
    (held : callers <+: s.scopes.guards.toList) :
    s.ForbidsClosing ↔ callers ≠ [] ∧ s.scopes.guards.toList = callers := by
  rw [ForbidsClosing, floor, ← ScopeStack.length_toList]
  constructor
  · rintro ⟨some, few⟩
    have all := held.eq_of_length_le few
    exact ⟨all ▸ List.ne_nil_of_length_pos some, all.symm⟩
  · rintro ⟨some, all⟩
    rw [all]
    exact ⟨List.length_pos_of_ne_nil some, le_rfl⟩

/-- The conditions under which the session rejects a statement. -/
def Forbids (s : Session) : Stmt → Prop
  | .hosts pattern _ | .withHosts pattern _ _ => s.ForbidsHosts pattern
  | .enterHosts id _ => s.group? id = none
  | .invoke id => s.unit? id = none ∨ s.currentGroup? = none
  | .instantiate id _ => s.runbook? id = none ∨ s.currentGroup? = none ∨ s.isActive = false
  | .runbook _ members _ => ¬ (members.map Declaration.name).Nodup
  | .step _ _ count _ => count ≠ 0 ∧ s.currentUnit? = none
  | .varStep .. | .patternStep .. => s.currentUnit? = none
  | .getFile source args _ => s.currentUnit? = none ∨ ForbidsFile source args
  | .closeGuard => s.ForbidsClosing
  | _ => False

theorem decides_declareHosts (s : Session) (pattern : Option String) (settings : Attributes) :
    Decides (s.ForbidsHosts pattern) (s.declareHosts pattern settings) := by
  unfold declareHosts ForbidsHosts
  split
  · rename_i inactive
    exact .refuses (.inl (by simpa using inactive)) _
  · rename_i active
    replace active : s.isActive = true := by simpa using active
    split
    · rename_i home
      exact .permits (by simp [active, home]) _
    · rename_i away
      replace away : s.settings.localhostOnly = false := by simpa using away
      split
      · split
        · rename_i p blank
          exact .refuses (.inr ⟨away, by simpa using blank⟩) _
        · rename_i p named
          exact .permits (by simpa [active, away] using named) _
      · exact .refuses (.inr ⟨away, by simp⟩) _

theorem decides_getGroup (s : Session) (id : GroupId) :
    Decides (s.group? id = none) (s.getGroup id) := by
  unfold getGroup
  cases known : s.group? id with
  | none => exact .refuses rfl _
  | some g => exact .permits (by simp) g

theorem decides_declareRunbook (s : Session) (name : String) (setup : Option Block)
    (members : List (Declaration Body)) :
    Decides (¬ (members.map Declaration.name).Nodup) (s.declareRunbook name setup members) := by
  unfold declareRunbook
  split
  · rename_i member repeated
    refine .refuses (fun nodup => ?_) _
    rw [Runbook.repeated?_eq_none.2 ⟨nodup, by simp⟩] at repeated
    cases repeated
  · rename_i distinct
    exact .permits (not_not.2 (Runbook.repeated?_eq_none.1 distinct).1) _

theorem decides_recordStep (hs : s.Coherent) (action : String) (args : Value)
    (edits : List StepEdit) :
    Decides (s.currentUnit? = none) (s.recordStep action args edits) := by
  cases active : s.currentUnit? with
  | none =>
    rw [recordStep, active]
    exact .refuses rfl _
  | some id =>
    obtain ⟨u, hu, -⟩ := hs.active id (List.mem_of_mem_head? active)
    rw [recordStep_of_active active hu]
    exact .permits (Option.some_ne_none id) _

theorem decides_argumentEntries (args : Value) :
    Decides (args ≠ .null ∧ ∀ entries, args ≠ .mapping entries) (argumentEntries args) := by
  cases args with
  | null => exact .permits (fun h => h.1 rfl) _
  | mapping entries => exact .permits (fun h => h.2 entries rfl) _
  | _ => exact .refuses ⟨nofun, nofun⟩ _

theorem baseUrl_of_valid {settings : Settings} (valid : settings.validate = .ok ())
    (fetch : settings.delivery = .fetch) : ∃ url, settings.baseUrl = some url := by
  unfold Settings.validate at valid
  split at valid
  · rename_i none
    have url := (List.append_eq_nil_iff.1 none).1
    cases known : settings.baseUrl with
    | none => simp [Settings.urlProblems, fetch, known] at url
    | some url => exact ⟨url, rfl⟩
  · cases valid

theorem decides_fileStep (valid : s.settings.validate = .ok ()) (source : String) (args : Value) :
    Decides (ForbidsFile source args) (s.fileStep source args) := by
  unfold ForbidsFile fileStep
  by_cases empty : (Text.dropLeading (· = '/') source).isEmpty = true
  · simp only [empty, if_true]
    exact .refuses (.inl trivial) _
  · have checked := (decides_argumentEntries args).congr (or_iff_right empty).symm
    simp only [empty] at checked ⊢
    cases entries : argumentEntries args with
    | error e =>
      rw [entries] at checked
      cases checked with | refuses h reason =>
      exact .refuses h reason
    | ok es =>
      rw [entries] at checked
      cases checked with | permits h =>
      cases delivery : s.settings.delivery with
      | bundle => exact .permits h _
      | fetch =>
        obtain ⟨url, known⟩ := baseUrl_of_valid valid delivery
        simp only [known]
        exact .permits h _

theorem decides_ownGuard (s : Session) : Decides s.ForbidsClosing s.ownGuard := by
  rw [ownGuard]
  by_cases caller : s.ForbidsClosing
  · rw [if_pos (by simpa [ForbidsClosing] using caller)]
    exact .refuses caller _
  · rw [if_neg (by simpa [ForbidsClosing] using caller)]
    exact .permits caller _

theorem decides_copyGroup (hs : s.Arises) {source : GroupId} {g : HostGroup}
    (known : s.group? source = some g) : Decides (s.isActive = false) (s.copyGroup source) := by
  have named : s.ForbidsHosts (some g.pattern) ↔ s.isActive = false := by
    refine or_iff_left ?_
    rintro ⟨away, blank⟩
    exact absurd ((hs.aimed source g known).away away) (by simp [blank])
  rw [copyGroup, getGroup_eq_ok.2 known]
  exact (s.decides_declareHosts _ g.settings).congr named

/-- The session turns the statement down, whatever blocks would do: none is run, nothing is noted
and nothing is changed. -/
def Rejects (s : Session) (t : Stmt) : Prop :=
  ∃ reason, ∀ call journal,
    (Exec.step call t).run ⟨s, journal⟩ = .error (.failed (.refused reason)) ⟨s, journal⟩

end Session

namespace Exec
variable {α β : Type} {r : Run}

theorem run_eq_failed {act : Exec α} {e : Error} {b : Run} : act.run r = .error (.failed e) b ↔
    act.Ends r (fun _ _ => False) (fun e' b' => e' = e ∧ b' = b) fun _ => False := by
  unfold Ends
  split <;> simp_all

theorem rejects_of_ends {s : Session} {t : Stmt} (reason : Refusal)
    (h : ∀ call journal, (step call t).Ends ⟨s, journal⟩ (fun _ _ => False)
      (fun e b => e = .refused reason ∧ b = ⟨s, journal⟩) fun _ => False) : s.Rejects t :=
  ⟨reason, fun call journal => run_eq_failed.2 (h call journal)⟩

theorem ends_recordStep_of_idle {s : Session} (idle : s.currentUnit? = none) {action : String}
    {args : Value} {edits : List StepEdit} {journal : List Entry}
    {done : String × String → Run → Prop} {failed : Error → Run → Prop} {stopped : Run → Prop} :
    (recordStep action args edits).Ends ⟨s, journal⟩ done failed stopped ↔
      failed (.refused (.stepOutsideUnit action)) ⟨s, journal⟩ := by
  simp only [recordStep, ends_bind, ends_perform, Session.recordStep, idle, ends_ofExcept_error]

theorem rejects_of_forbids {s : Session} (hs : s.Arises) (valid : s.settings.validate = .ok ())
    {t : Stmt} (h : s.Forbids t) : s.Rejects t := by
  cases t with
  | hosts pattern settings =>
    obtain ⟨reason, refused⟩ := (s.decides_declareHosts pattern settings).refused h
    refine rejects_of_ends reason fun call journal => ?_
    simp [step, refused]
  | withHosts pattern settings block =>
    obtain ⟨reason, refused⟩ := (s.decides_declareHosts pattern settings).refused h
    refine rejects_of_ends reason fun call journal => ?_
    simp [step, withHosts, refused]
  | enterHosts id block =>
    obtain ⟨reason, refused⟩ := (s.decides_getGroup id).refused h
    refine rejects_of_ends reason fun call journal => ?_
    simp [step, inGroup, refused]
  | invoke id =>
    cases known : s.unit? id with
    | none =>
      refine rejects_of_ends (.unknownUnit id) fun call journal => ?_
      simp [step, invoke, getUnit, known]
    | some u =>
      have outside := h.resolve_left (by simp [known])
      refine rejects_of_ends (.invokedOutsideGroup u.name) fun call journal => ?_
      simp [step, invoke, getUnit, known, outside]
  | instantiate id vars =>
    cases known : s.runbook? id with
    | none =>
      refine rejects_of_ends (.unknownRunbook id) fun call journal => ?_
      simp [step, instantiate, getRunbook, known]
    | some x =>
      replace h := h.resolve_left (by simp [known])
      cases current : s.currentGroup? with
      | none =>
        refine rejects_of_ends (.instantiatedOutsideGroup x.name) fun call journal => ?_
        simp [step, instantiate, getRunbook, known, current]
      | some parent =>
        have left := h.resolve_left (by simp [current])
        obtain ⟨g, entered⟩ := hs.coherent.entered parent (List.mem_of_mem_head? current)
        obtain ⟨reason, refused⟩ := (decides_copyGroup hs entered).refused left
        refine rejects_of_ends reason fun call journal => ?_
        simp [step, instantiate, getRunbook, known, current, refused]
  | runbook name members setup =>
    obtain ⟨reason, refused⟩ := (decides_declareRunbook s name setup (members.map script)).refused
      (by rw [List.map_map]; exact h)
    refine rejects_of_ends reason fun call journal => ?_
    simp [step, refused]
  | step action args count edits =>
    obtain ⟨some, idle⟩ := h
    obtain ⟨n, rfl⟩ := Nat.exists_eq_succ_of_ne_zero some
    refine rejects_of_ends (.stepOutsideUnit action) fun call journal => ?_
    simp [Exec.step, recordSteps, List.range_succ_eq_map, ends_recordStep_of_idle idle]
  | varStep action name edits =>
    refine rejects_of_ends (.stepOutsideUnit action) fun call journal => ?_
    simp [Exec.step, ends_recordStep_of_idle h]
  | patternStep action edits =>
    refine rejects_of_ends (.stepOutsideUnit action) fun call journal => ?_
    simp [Exec.step, ends_recordStep_of_idle h]
  | getFile source args edits =>
    by_cases told : ForbidsFile source args
    · obtain ⟨reason, refused⟩ := (decides_fileStep valid source args).refused told
      refine rejects_of_ends reason fun call journal => ?_
      simp [step, refused]
    · obtain ⟨⟨action, args⟩, made⟩ := (decides_fileStep valid source args).permitted told
      refine rejects_of_ends (.stepOutsideUnit action) fun call journal => ?_
      simp [step, made, ends_recordStep_of_idle (h.resolve_right told)]
  | closeGuard =>
    obtain ⟨reason, refused⟩ := s.decides_ownGuard.refused h
    refine rejects_of_ends reason fun call journal => ?_
    simp [step, closeGuard, refused]
  | _ => exact h.elim

end Exec

/-- If the error is a refusal, it is that of the statement noted last. -/
def Blamed (e : Error) (b : Run) : Prop :=
  ∀ reason, e = .refused reason →
    ∃ x earlier, b.journal = x :: earlier ∧ x.outcome = .error (.refused reason)

/-- What a run does between two points of one block: it moves, and comes back to the scopes. -/
structure Session.Proceeds (s t : Session) : Prop where
  moves : s.Moves t
  restored : s.Restored t

namespace Session.Proceeds
variable {s t u : Session}

theorem refl (s : Session) : s.Proceeds s := ⟨.refl, .refl s⟩

theorem trans (h : s.Proceeds t) (h' : t.Proceeds u) : s.Proceeds u :=
  ⟨h.moves.trans h'.moves, h.restored.trans h'.restored⟩

theorem currentGroup? (h : s.Proceeds t) : t.currentGroup? = s.currentGroup? := by
  rw [Session.currentGroup?, h.restored.hostGroups]
  rfl

theorem currentUnit? (h : s.Proceeds t) : t.currentUnit? = s.currentUnit? := by
  rw [Session.currentUnit?, h.restored.units]
  rfl

end Session.Proceeds

namespace Exec
variable {α β : Type} {r : Run}

theorem Tame.proceeds {act : Exec α} (h : act.Tame) (r : Run) :
    act.Ends r (fun _ b => r.session.Proceeds b.session) (fun _ _ => True) fun _ => True :=
  (h r).imp (fun _ _ course => ⟨course.path.moves, course.restored⟩) (fun _ _ _ => trivial)
    fun _ _ => trivial

def Blames (act : Exec α) (r : Run) : Prop := act.Ends r (fun _ _ => True) Blamed fun _ => True

namespace Blames
variable {act : Exec α}

theorem bind {f : α → Exec β} (h : act.Blames r) (tame : act.Tame)
    (rest : ∀ a b, r.session.Proceeds b.session → (f a).Blames b) : (act >>= f).Blames r := by
  rw [Blames, ends_bind]
  exact (h.and (tame.proceeds r)).imp (fun a b hb => rest a b hb.2) (fun _ _ hb => hb.1)
    fun _ _ => trivial

theorem map (h : act.Blames r) (f : α → β) : (f <$> act).Blames r := by
  rwa [Blames, ends_map]

theorem discard (h : act.Blames r) : (discard act).Blames r := by
  rwa [Blames, ends_discard]

theorem andPure (h : act.Blames r) (a : β) : (act >>= fun _ => pure a).Blames r := by
  rw [Blames, ends_bind]
  exact h.imp (fun _ _ _ => trivial) (fun _ _ hb => hb) fun _ _ => trivial

theorem foldlM {f : β → α → Exec β} (tame : ∀ b a, (f b a).Tame) (l : List α) (b : β)
    (h : ∀ b a c, r.session.Proceeds c.session → (f b a).Blames c) : (l.foldlM f b).Blames r := by
  induction l generalizing b r with
  | nil => exact trivial
  | cons a l ih =>
    rw [List.foldlM_cons]
    exact (h b a r (.refl _)).bind (tame b a) fun b c later =>
      ih b fun b a d more => h b a d (later.trans more)

theorem forM {f : α → Exec PUnit} (tame : ∀ a, (f a).Tame) {l : List α}
    (h : ∀ a ∈ l, ∀ c, r.session.Proceeds c.session → (f a).Blames c) : (l.forM f).Blames r := by
  induction l generalizing r with
  | nil => exact trivial
  | cons a l ih =>
    obtain ⟨first, others⟩ := List.forall_mem_cons.1 h
    exact (first r (.refl _)).bind (tame a) fun _ c later =>
      ih fun a ha d more => others a ha d (later.trans more)

theorem within {kind : ScopeKind} {enter : Scopes → Scopes}
    (h : act.Blames (r.on { r.session with scopes := enter r.session.scopes })) :
    (within kind enter act).Blames r := by
  simp only [Blames, Exec.within, ends_bind, ends_update, ends_settle, ends_leave]
  refine h.imp (fun _ b _ => ?_) (fun e b blamed => ?_) fun _ _ => trivial
  · split <;> trivial
  · split
    · exact blamed
    · trivial

theorem inGroup {id : GroupId} {g : HostGroup} (known : r.session.group? id = some g)
    (h : act.Blames (r.on (r.session.under (r.session.scopes.hostGroups.enter id)))) :
    (inGroup id act).Blames r := by
  rw [Blames, Exec.inGroup, ends_bind, ends_discard, ends_query, getGroup_eq_ok.2 known]
  have entered : (Exec.within .hostGroup (fun c => { c with hostGroups := c.hostGroups.enter id })
      act).Blames r := within h
  exact entered

end Blames

/-- A block fails by the statement that it stops at. -/
theorem blames_runBlock (call : Block → Exec Unit) (block : Block) (r : Run) :
    (runBlock call block).Blames r := by
  induction block generalizing r with
  | nil => exact trivial
  | cons t ts ih =>
    rw [Blames, runBlock, ends_bind, ends_note]
    exact .of_forall (fun _ _ => ih _) (fun _ b _ same => ⟨_, _, rfl, congrArg _ same⟩)
      fun _ => trivial

theorem blames_runWithin (bound : Nat) (block : Block) (r : Run) :
    (runWithin bound block).Blames r := by
  cases bound with
  | zero => exact trivial
  | succ bound => exact blames_runBlock _ block r

theorem blames_recordStep (hs : r.session.Coherent) (active : r.session.currentUnit? ≠ none)
    (action : String) (args : Value) (edits : List StepEdit) :
    (recordStep action args edits).Blames r := by
  obtain ⟨p, recorded⟩ := (decides_recordStep hs action args edits).permitted active
  simp [Blames, recordStep, recorded]

theorem blames_recordSteps (hs : r.session.Coherent) (action : String) (args : Value) (count : Nat)
    (edits : List StepEdit) (permitted : count ≠ 0 → r.session.currentUnit? ≠ none) :
    (recordSteps action args count edits).Blames r := by
  by_cases none : count = 0
  · subst none
    exact trivial
  · exact .foldlM (fun _ _ => (tame_recordStep action args edits).map some) _ _ fun _ _ c later =>
      (blames_recordStep (hs.moves later.moves) (later.currentUnit? ▸ permitted none) action args
        edits).map some

variable {bound : Nat}

theorem blames_runBody (hs : r.session.Coherent) (active : r.session.currentUnit? ≠ none) :
    ∀ body, (runBody (runWithin bound) body).Blames r
  | .script block => blames_runWithin bound block r
  | .step action args => (blames_recordStep hs active action args []).discard

theorem blames_invoke (hs : r.session.Coherent) {id : UnitId} {u : WorkUnit}
    (known : r.session.unit? id = some u) {group : GroupId}
    (current : r.session.currentGroup? = some group) :
    (invoke (runWithin bound) id).Blames r := by
  have body : (runBody (runWithin bound) u.body).Blames (r.on (r.session.begin id group)) :=
    blames_runBody (hs.moves (Run.Path.begin known current).moves) (Option.some_ne_none id) u.body
  let bound : Session :=
    { (r.session.modifyUnit id (·.bind group)).modifyGroup group (·.addMember id) with
      guardFloor := r.session.scopes.guards.depth }
  have entered : (Exec.within .unit (fun c => { c with units := c.units.enter id })
      (runBody (runWithin _) u.body)).Blames (r.on bound) := .within body
  simp only [Blames, Exec.invoke, ends_bind, ends_session, getUnit, known, current,
    ends_ofExcept_ok, ends_update, ends_settle]
  refine entered.imp (fun _ b _ => ?_) (fun _ b blamed => blamed) fun _ _ => trivial
  -- a unit that leaves conditions open fails, though it is not refused
  split
  · rintro reason ⟨⟩
  · trivial

theorem blames_invokeMember (hs : r.session.Arises) {runbook : Runbook} {inst : Instance}
    (declared : r.session.runbook? inst.runbook = some runbook)
    (entered : r.session.currentGroup? ≠ none) {id : UnitId}
    (member : id ∈ runbook.members.values) :
    (invokeMember (runWithin bound) runbook inst id).Blames r := by
  obtain ⟨u, known⟩ := has_unit.1 (hs.grounded.runbooks runbook (List.mem_of_getElem? declared)
    (.unit id) member)
  obtain ⟨group, current⟩ := Option.ne_none_iff_exists'.1 entered
  refine Ends.invokeMember known (fun _ _ _ => nofun) fun before after _ _ => ?_
  have constrained := r.session.unit?_modifyUnit id id ({ · with
    before := before.insertAll (inst.before.toList.map .unit)
    after := after.insertAll (inst.after.toList.map .unit) })
  rw [known] at constrained
  exact blames_invoke (hs.coherent.update (.constrain id _ _)) constrained current

theorem blames_populate (hs : r.session.Arises) {runbook : Runbook} {inst : Instance}
    (declared : r.session.runbook? inst.runbook = some runbook)
    (entered : r.session.currentGroup? ≠ none) :
    (populate (runWithin bound) runbook inst).Blames r := by
  have members (c : Run) (later : r.session.Proceeds c.session) :
      (runbook.members.values.forM (invokeMember (runWithin bound) runbook inst)).Blames c :=
    .forM (tame_invokeMember (tame_runWithin bound) runbook inst) fun id hid d more => by
      have since := later.trans more
      exact blames_invokeMember (hs.moves since.moves) (since.moves.grows.runbook? declared)
        (since.currentGroup? ▸ entered) hid
  unfold populate
  split
  · rename_i setup _
    exact (blames_runWithin bound setup r).bind (tame_runWithin bound setup)
      fun _ c later => members c later
  · exact members r (.refl _)

theorem blames_instantiate (hs : r.session.Arises) {id : RunbookId} {x : Runbook}
    (known : r.session.runbook? id = some x) {parent : GroupId}
    (current : r.session.currentGroup? = some parent) (entered : r.session.isActive = true)
    (vars : Attributes) : (instantiate (runWithin bound) id vars).Blames r := by
  obtain ⟨g, declared⟩ := hs.coherent.entered parent (List.mem_of_mem_head? current)
  obtain ⟨p, copied⟩ := (decides_copyGroup hs declared).permitted (by simp [entered])
  refine Ends.instantiate hs.homebound id vars (fun e rejected => ?_) ?_
  · exact absurd copied (rejected x parent p known current)
  · intro runbook _ active known _ _ moves
    exact blames_populate (hs.moves moves) known (Option.some_ne_none _)

theorem blames_step {s : Session} (hs : s.Arises) (valid : s.settings.validate = .ok ()) {t : Stmt}
    (checked : t.isChecked = true) (h : ¬ s.Forbids t) (journal : List Entry) :
    (step (runWithin bound) t).Blames ⟨s, journal⟩ := by
  cases t with
  | hosts pattern settings =>
    obtain ⟨p, declared⟩ := (s.decides_declareHosts pattern settings).permitted h
    simp [Blames, step, declared]
  | withHosts pattern settings block =>
    obtain ⟨⟨id, t⟩, declared⟩ := (s.decides_declareHosts pattern settings).permitted h
    simp only [Blames, step, withHosts, ends_bind, ends_perform, declared, ends_ofExcept_ok]
    obtain ⟨g, known⟩ := has_group.1 (has_of_declareHosts declared)
    refine Blames.inGroup known ?_
    simp only [Blames, ends_bind, ends_session, ends_pure]
    exact blames_runWithin bound block _
  | enterHosts id block =>
    obtain ⟨g, known⟩ := Option.ne_none_iff_exists'.1 h
    exact (Blames.inGroup known (blames_runWithin bound block _)).andPure _
  | invoke id =>
    obtain ⟨known, current⟩ := not_or.1 h
    obtain ⟨u, known⟩ := Option.ne_none_iff_exists'.1 known
    obtain ⟨g, current⟩ := Option.ne_none_iff_exists'.1 current
    exact (blames_invoke hs.coherent known current).andPure _
  | instantiate id vars =>
    obtain ⟨known, h⟩ := not_or.1 h
    obtain ⟨current, entered⟩ := not_or.1 h
    obtain ⟨x, known⟩ := Option.ne_none_iff_exists'.1 known
    obtain ⟨g, current⟩ := Option.ne_none_iff_exists'.1 current
    exact (blames_instantiate hs known current (by simpa using entered) vars).map _
  | runbook name members setup =>
    obtain ⟨p, declared⟩ := (decides_declareRunbook s name setup
      (members.map script)).permitted (by rw [List.map_map]; exact h)
    simp [Blames, step, declared]
  | step action args count edits =>
    exact (blames_recordSteps hs.coherent action args count edits fun some idle =>
      h ⟨some, idle⟩).map _
  | varStep action name edits =>
    have active : s.currentUnit? ≠ none := h
    simp only [Blames, step, ends_bind, ends_session, ends_map]
    exact blames_recordStep hs.coherent active action _ edits
  | patternStep action edits =>
    have active : s.currentUnit? ≠ none := h
    simp only [Blames, step, ends_bind, ends_session, ends_map]
    exact blames_recordStep hs.coherent active action _ edits
  | getFile source args edits =>
    obtain ⟨active, told⟩ := not_or.1 h
    obtain ⟨⟨action, args⟩, made⟩ := (decides_fileStep valid source args).permitted told
    simp only [Blames, step, ends_bind, ends_query, made, ends_ofExcept_ok]
    exact (blames_recordStep hs.coherent active action args edits).map _
  | closeGuard =>
    obtain ⟨_, own⟩ := s.decides_ownGuard.permitted h
    simp only [Blames, step, closeGuard, ends_map, ends_bind, ends_query, own, ends_ofExcept_ok,
      ends_session, ends_leave]
    split <;> trivial
  | _ => cases checked

end Exec

namespace Session
variable {s : Session}

theorem Reachable.valid (h : s.Reachable) : s.settings.validate = .ok () := by
  obtain ⟨settings, passes, start, bound, script, made, mem⟩ := h
  rw [(moves_of_mem_states mem).persists.settings]
  obtain rfl := withPasses_eq_ok made
  obtain ⟨_, valid, -⟩ := bind_eq_ok.1 made
  exact valid

/-- A statement is turned down at once, with nothing run and nothing changed, under exactly the
conditions named. Otherwise a refusal in which it ends is that of a statement in a block that it
has run, the one noted last. In a session that still has all conditions of the callers, closing is
turned down if there are no others. -/
theorem Arises.rejects_iff_forbids (hs : s.Arises) (valid : s.settings.validate = .ok ()) {t : Stmt}
    (checked : t.isChecked = true) :
    (s.Rejects t ↔ s.Forbids t) ∧
    (∀ bound reason r,
      (Exec.step (runWithin bound) t).run ⟨s, []⟩ = .error (.failed (.refused reason)) r →
      s.Forbids t ∨
        ∃ e earlier, r.journal = e :: earlier ∧ e.outcome = .error (.refused reason)) ∧
    ∀ callers, s.guardFloor = callers.length → callers <+: s.scopes.guards.toList →
      (s.Forbids .closeGuard ↔ callers ≠ [] ∧ s.scopes.guards.toList = callers) := by
  have otherwise (bound : Nat) (reason : Refusal) (r : Run)
      (refused : (Exec.step (runWithin bound) t).run ⟨s, []⟩ =
        .error (.failed (.refused reason)) r) :
      s.Forbids t ∨
        ∃ e earlier, r.journal = e :: earlier ∧ e.outcome = .error (.refused reason) := by
    refine Classical.or_iff_not_imp_left.2 fun permitted => ?_
    have blames : (Exec.step (runWithin bound) t).Blames ⟨s, []⟩ :=
      Exec.blames_step hs valid checked permitted []
    rw [Exec.Blames, Exec.Ends, refused] at blames
    exact blames reason rfl
  refine ⟨⟨?_, Exec.rejects_of_forbids hs valid⟩, otherwise, fun _ => forbidsClosing_iff⟩
  rintro ⟨reason, rejected⟩
  -- nothing has been noted, so there is nothing else to blame
  rcases otherwise 0 reason _ (rejected _ []) with forbidden | ⟨e, earlier, journal, -⟩
  · exact forbidden
  · cases journal

/-- A unit closes the condition of a block of its own, so the block takes off that of the caller.
Then it opens another one, and closes it. -/
def spentScript : Block :=
  [.declare (.new "inner" [.when "c" [.closeGuard], .openGuard "x", .closeGuard]), .openGuard "a",
    .enter [.withHosts none .empty [.invoke ⟨0⟩]]]

theorem spent : ∃ s : Session, s.Reachable ∧ s.currentUnit? = some ⟨0⟩ ∧
    s.scopes.guards.toList = [] ∧
    ∀ condition, (s.openGuard condition).Arises ∧ (s.openGuard condition).ForbidsClosing := by
  have run : (((initial ⟨true, .bundle, none, []⟩ []).run 5 spentScript).entries[3]?.map fun e =>
      (e.session.currentUnit?, e.session.scopes.guards.toList, e.session.guardFloor)) =
        some (some ⟨0⟩, [], 1) := by decide +kernel
  obtain ⟨e, he, found⟩ := Option.map_eq_some_iff.1 run
  obtain ⟨active, found⟩ := Prod.mk.inj found
  obtain ⟨guards, floor⟩ := Prod.mk.inj found
  have reachable : e.session.Reachable := reachable_of_getElem? rfl he
  refine ⟨e.session, reachable, active, guards, fun condition => ⟨?_, Nat.succ_pos _, ?_⟩⟩
  · exact reachable.arises.moves (.single (.enter (.guard condition)))
  · show e.session.scopes.guards.depth + 1 ≤ e.session.guardFloor
    rw [floor, ← ScopeStack.length_toList, guards]
    exact le_rfl

theorem rejects_iff_forbids_spent : ∃ s : Session, s.Arises ∧ s.settings.validate = .ok () ∧
    s.currentUnit? = some ⟨0⟩ ∧ s.scopes.guards.toList = ["x"] ∧ s.Forbids .closeGuard ∧
    s.Rejects .closeGuard := by
  obtain ⟨s, reachable, active, guards, opened⟩ := spent
  obtain ⟨arises, forbidden⟩ := opened "x"
  refine ⟨s.openGuard "x", arises, reachable.valid, active, ?_, forbidden, ?_⟩
  · simp [openGuard, guards]
  · exact (arises.rejects_iff_forbids reachable.valid rfl).1.2 forbidden

/-- Not every condition that has just been opened can be closed again. -/
theorem not_forall_closing : ¬ ∀ s : Session, s.Reachable →
    ∀ condition, ¬ (s.openGuard condition).Rejects .closeGuard := by
  intro all
  obtain ⟨s, reachable, -, -, opened⟩ := spent
  obtain ⟨arises, forbidden⟩ := opened "x"
  exact all s reachable "x" (Exec.rejects_of_forbids arises reachable.valid forbidden)

end Session
end Playbook
