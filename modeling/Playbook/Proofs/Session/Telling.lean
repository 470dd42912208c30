import Playbook.Proofs.Plan.Order
import Playbook.Proofs.Session.Mirror
import Playbook.Proofs.Session.Restoration
import Playbook.Proofs.Session.Story

/-! A run with notes is a story, and without its notes it is the run itself: the two go side by side
through all that a script can do. -/

namespace Playbook
open Session

namespace Session

/-- A unit is active only where a host group is. -/
def Sheltered (s : Session) : Prop := s.currentUnit? ≠ none → s.currentGroup? ≠ none

theorem Restored.sheltered {s t : Session} (h : s.Restored t) (hs : s.Sheltered) :
    t.Sheltered := by
  unfold Sheltered currentUnit? currentGroup? at *
  rwa [h.units, h.hostGroups]

end Session

namespace Run

/-- A story that comes back to the scopes that it found. -/
structure Told (r b : Run) : Prop where
  story : Story r b
  restored : r.session.Restored b.session

variable {r a b : Run}

theorem Told.refl (r : Run) : Told r r := ⟨.refl, .refl _⟩

theorem Told.trans (h : Told r a) (h' : Told a b) : Told r b :=
  ⟨h.story.trans h'.story, h.restored.trans h'.restored⟩

theorem Told.stage (h : Stage r b) (restored : r.session.Restored b.session) : Told r b :=
  ⟨.single h, restored⟩

theorem Told.update {t : Session} (h : r.session.Update t) (quiet : r.session.Quiet t) :
    Told r (r.on t) :=
  .stage (.quiet (.update h) quiet) (.of_update h)

end Run

namespace Exec
variable {α β : Type} {r : Run} {stopped : Run → Prop}

/-- The action with notes and the one without them do the same, and the notes tell a story. -/
def Tells (act real : Exec α) : Prop := ∀ r : Run, r.session.Sheltered →
  Mirrors Run.erase act real r (fun _ => r.Told) r.Told r.Story

theorem Mirrors.after {act real : Exec α} {a : Run} (ha : r.Told a)
    (h : Mirrors Run.erase act real a (fun _ => a.Told) a.Told a.Story) :
    Mirrors Run.erase act real a (fun _ => r.Told) r.Told r.Story :=
  h.imp (fun _ _ => ha.trans) (fun _ => ha.trans) fun _ => ha.story.trans

theorem Tells.after {act real : Exec α} (h : Tells act real) {a : Run} (ha : r.Told a)
    (hr : r.session.Sheltered) :
    Mirrors Run.erase act real a (fun _ => r.Told) r.Told r.Story :=
  .after ha (h a (ha.restored.sheltered hr))

theorem tells_pure (a : α) : Tells (pure a) (pure a) := fun r _ => .pure (.refl r)

theorem tells_fail (e : Error) : Tells (fail e : Exec α) (fail e) := fun r _ => .fail (.refl r)

theorem tells_fail_bind (e : Error) (k k' : β → Exec α) :
    Tells (fail e >>= k) (fail e >>= k') := fun r _ => ⟨rfl, .refl r⟩

theorem tells_exhausted : Tells (throw .exhausted : Exec α) (throw .exhausted) := fun _ _ =>
  .exhausted .refl

theorem tells_ofExcept (x : Except Error α) : Tells (ofExcept x) (ofExcept x) := fun r _ =>
  .ofExcept (fun _ _ => .refl r) fun _ _ => .refl r

theorem Tells.bind {act real : Exec β} {k k' : β → Exec α} (h : Tells act real)
    (hk : ∀ b, Tells (k b) (k' b)) : Tells (act >>= k) (real >>= k') := fun r hr =>
  (h r hr).bind fun b _ ha => (hk b).after ha hr

theorem Tells.map {act real : Exec β} (h : Tells act real) (f : β → α) :
    Tells (f <$> act) (f <$> real) := fun r hr => Mirrors.map (h r hr)

theorem Tells.discard {act real : Exec β} (h : Tells act real) :
    Tells (discard act) (discard real) := fun r hr => (h r hr).discard

theorem Tells.settle {act real : Exec α} (h : Tells act real) :
    Tells (settle act) (settle real) := fun r hr =>
  .settle ((h r hr).imp (fun _ _ hb => hb) (fun _ hb _ => hb) fun _ hs => hs)

theorem tells_session {k k' : Session → Exec α} (h : ∀ s, Tells (k s) (k' s)) :
    Tells (session >>= k) (session >>= k') := fun r hr => .session (h _ r hr)

theorem tells_query (g : Session → Except Error α) : Tells (query g) (query g) := fun r _ =>
  .query rfl (fun _ _ => .refl r) fun _ _ => .refl r

theorem tells_update {g : Session → Session} (h : ∀ s, Update s (g s))
    (quiet : ∀ s, Quiet s (g s)) : Tells (update g) (update g) := fun _ _ =>
  .update rfl (.update (h _) (quiet _))

theorem mirrors_perform {g : Session → Except Error (α × Session)} {done : α → Run → Prop}
    {failed : Run → Prop} (ok : ∀ a t, g r.session = .ok (a, t) → done a (r.on t))
    (error : ∀ e, g r.session = .error e → failed r) :
    Mirrors Run.erase (perform g) (perform g) r done failed stopped := by
  refine ⟨?_, (ends_perform ..).2 (ends_ofExcept.2 ⟨fun p hp => ok p.1 p.2 hp, error⟩)⟩
  rw [run_perform, run_perform, Run.erase_session]
  cases g r.session <;> rfl

theorem tells_perform {g : Session → Except Error (α × Session)}
    (h : ∀ s a t, g s = .ok (a, t) → Update s t ∧ s.Quiet t) : Tells (perform g) (perform g) :=
  fun r _ => mirrors_perform (fun a t e => .update (h _ a t e).1 (h _ a t e).2) fun _ _ => .refl r

theorem mirrors_note {statement : Stmt} {act real : Exec Answer}
    (h : Mirrors Run.erase act real r
      (fun a b => Entry.isNote ⟨statement, b.session, .ok a⟩ = false ∧
        r.Told (b.log statement (.ok a)))
      (fun b => r.Told b ∧ ∀ e, Entry.isPlain ⟨statement, b.session, .error e⟩) r.Story) :
    Mirrors Run.erase (note statement act) (note statement real) r (fun _ => r.Told) r.Told
      r.Story :=
  .note (h.imp (fun _ _ hb => ⟨Run.log_erase hb.1, hb.2⟩)
    (fun _ hb e => ⟨Run.log_erase (Entry.not_isNote (hb.2 e)),
      hb.1.trans (.stage (.log (hb.2 e)) (.refl _))⟩) fun _ hs => hs)

theorem tells_note {statement : Stmt} {act real : Exec Answer} (h : Tells act real)
    (plain : ∀ s outcome, Entry.isPlain ⟨statement, s, outcome⟩) :
    Tells (note statement act) (note statement real) := fun r hr =>
  mirrors_note ((h r hr).imp
    (fun _ _ hb => ⟨Entry.not_isNote (plain _ _), hb.trans (.stage (.log (plain _ _)) (.refl _))⟩)
    (fun _ hb => ⟨hb, fun _ => plain _ _⟩) fun _ hs => hs)

theorem tells_foldlM {f g : β → α → Exec β} (h : ∀ b a, Tells (f b a) (g b a)) (l : List α)
    (b : β) : Tells (l.foldlM f b) (l.foldlM g b) := by
  induction l generalizing b with
  | nil => exact tells_pure b
  | cons a l ih =>
    rw [List.foldlM_cons, List.foldlM_cons]
    exact (h b a).bind ih

theorem mirrors_update_eq {failed : Run → Prop} (g : Session → Session) :
    Mirrors Run.erase (update g) (update g) r (fun _ b => b = r.on (g r.session)) failed stopped :=
  .update rfl rfl

theorem mirrors_query_eq (g : Session → Except Error α) :
    Mirrors Run.erase (query g) (query g) r (fun x a => a = r ∧ g r.session = .ok x) r.Told
      stopped :=
  .query rfl (fun _ hx => ⟨rfl, hx⟩) fun _ _ => .refl r

theorem mirrors_ofExcept_eq (x : Except Error α) :
    Mirrors Run.erase (ofExcept x) (ofExcept x) r (fun a b => b = r ∧ x = .ok a) r.Told stopped :=
  .ofExcept (fun _ hx => ⟨rfl, hx⟩) fun _ _ => .refl r

theorem mirrors_ofExcept {post : Run → Prop} {x : Except Error α} (h : post r) :
    Mirrors Run.erase (ofExcept x) (ofExcept x) r (fun _ => post) post stopped :=
  .ofExcept (fun _ _ => h) fun _ _ => h

theorem Mirrors.settled {f : Run → Run} {act real : Exec α} {post failed : Run → Prop}
    (h : Mirrors f act real r (fun _ => post) post stopped) :
    Mirrors f (Exec.settle act) (Exec.settle real) r (fun _ => post) failed stopped :=
  .settle (h.imp (fun _ _ hb => hb) (fun _ hb _ => hb) fun _ hs => hs)

theorem mirrors_leave {kind : ScopeKind} {done : Unit → Run → Prop} {failed : Run → Prop}
    (left : ∀ scopes, r.session.scopes.exit kind = .ok scopes →
      done () (r.on { r.session with scopes }))
    (fault : stopped r) : Mirrors Run.erase (leave kind) (leave kind) r done failed stopped := by
  refine .session ?_
  rw [Run.erase_session]
  split
  · rename_i scopes hl
    exact .update rfl (left scopes hl)
  · exact ⟨rfl, fault⟩

theorem mirrors_within {act real : Exec α} {kind : ScopeKind} {enter : Scopes → Scopes}
    {mid post : Run → Prop}
    (block : Mirrors Run.erase act real (r.on { r.session with scopes := enter r.session.scopes })
      (fun _ => mid) mid stopped)
    (left : ∀ b scopes, mid b → b.session.scopes.exit kind = .ok scopes →
      post (b.on { b.session with scopes }))
    (fault : ∀ b, mid b → stopped b) :
    Mirrors Run.erase (within kind enter act) (within kind enter real) r (fun _ => post) post
      stopped := by
  refine Mirrors.bind (mirrors_update_eq fun s => { s with scopes := enter s.scopes }) ?_
  rintro _ _ rfl
  refine Mirrors.bind block.settled fun result b hb => ?_
  have out : Mirrors Run.erase (leave kind) (leave kind) b (fun _ => post) post stopped :=
    mirrors_leave (fun scopes => left b scopes hb) (fault b hb)
  exact out.bind fun _ c hc => mirrors_ofExcept hc

theorem mirrors_scope {act real : Exec α} {kind : ScopeKind} {enter : Scopes → Scopes}
    (notGuard : kind ≠ .guard) (entered : r.session.Entered kind (enter r.session.scopes))
    (block : ∀ a, a = r.on { r.session with scopes := enter r.session.scopes } →
      Mirrors Run.erase act real a (fun _ => a.Told) a.Told a.Story) :
    Mirrors Run.erase (within kind enter act) (within kind enter real) r (fun _ => r.Told) r.Told
      r.Story := by
  have begun : r.Story (r.on { r.session with scopes := enter r.session.scopes }) :=
    .single (.quiet (.enter entered) (.of_eq rfl rfl rfl rfl))
  refine mirrors_within ((block _ rfl).imp (fun _ _ hb => hb) (fun _ hb => hb)
    fun _ => begun.trans) (fun b scopes hb hl => ?_) fun b hb => begun.trans hb.story
  exact ⟨(begun.trans hb.story).tail (.quiet (.leave hl) (.of_eq rfl rfl rfl rfl)),
    .scope notGuard entered hb.restored hl⟩

theorem mirrors_inGroup {act real : Exec α} {id : GroupId}
    (block : ∀ a, a = r.on { r.session with scopes := { r.session.scopes with
        hostGroups := r.session.scopes.hostGroups.enter id } } →
      Mirrors Run.erase act real a (fun _ => a.Told) a.Told a.Story) :
    Mirrors Run.erase (inGroup id act) (inGroup id real) r (fun _ => r.Told) r.Told r.Story := by
  have found : Mirrors Run.erase (Functor.discard (query (·.getGroup id)))
      (Functor.discard (query (·.getGroup id))) r
      (fun _ a => a = r ∧ ∃ g, r.session.group? id = some g) r.Told r.Story :=
    .discard ((mirrors_query_eq _).imp (fun g _ hg => ⟨hg.1, g, getGroup_eq_ok.1 hg.2⟩)
      (fun _ hb => hb) fun _ hs => hs)
  refine found.bind ?_
  rintro _ _ ⟨rfl, g, hg⟩
  exact mirrors_scope (by decide) (.hostGroup hg) block

theorem Tells.inSession {act real : Exec α} (h : Tells act real) :
    Tells (inSession act) (inSession real) := fun _ hr =>
  .session (mirrors_scope (by decide) .session fun a ha => h a (ha ▸ hr))

theorem Tells.inGroup {act real : Exec α} (h : Tells act real) (id : GroupId) :
    Tells (inGroup id act) (inGroup id real) := fun _ _ =>
  mirrors_inGroup fun a ha => h a (ha ▸ fun _ => nofun)

theorem quiet_of_declareHosts {s t : Session} {pattern : Option String} {settings : Attributes}
    {id : GroupId} (h : s.declareHosts pattern settings = .ok (id, t)) : s.Quiet t := by
  obtain ⟨p, a, e⟩ := addGroup_of_declareHosts h
  obtain rfl : _ = t := congrArg Prod.snd e
  exact ⟨rfl, rfl, rfl, 1, List.map_append⟩

theorem quiet_modifyGroup (s : Session) (id : GroupId) {f : HostGroup → HostGroup}
    (members : ∀ g, (f g).members = g.members) : s.Quiet (s.modifyGroup id f) :=
  .of_eq rfl rfl rfl (map_modify members _ _)

theorem Tells.withHosts {act real : Exec α} (h : Tells act real) (pattern : Option String)
    (settings : Attributes) :
    Tells (withHosts pattern settings act) (withHosts pattern settings real) :=
  (tells_perform fun _ _ _ declared => ⟨.hosts declared, quiet_of_declareHosts declared⟩).bind
    fun id => h.inGroup id

theorem Tells.underGuard {act real : Exec α} (h : Tells act real) (condition : String) :
    Tells (underGuard condition act) (underGuard condition real) := fun r hr => by
  have begun : r.Told (r.on (r.session.openGuard condition)) :=
    .stage (.quiet (.enter (.guard condition)) (.of_eq rfl rfl rfl rfl)) (.openGuard _ condition)
  refine mirrors_within ((h.after begun hr).imp (fun _ _ hb => hb) (fun _ hb => hb) fun _ hs => hs)
    (fun b scopes hb hl => ?_) fun b hb => hb.story
  exact hb.trans (.stage (.quiet (.leave hl) (.of_eq rfl rfl rfl rfl)) (.leaveGuard hl))

theorem tells_closeGuard : Tells closeGuard closeGuard := by
  refine (tells_query _).bind fun _ => tells_session fun s => ?_
  refine Tells.bind (fun r _ => ?_) fun _ => tells_pure _
  exact mirrors_leave (fun scopes hl =>
    .stage (.quiet (.leave hl) (.of_eq rfl rfl rfl rfl)) (.leaveGuard hl)) .refl

theorem tells_recordStep (action : String) (args : Value) (edits : List StepEdit) :
    Tells (recordStep action args edits) (recordStep action args edits) := by
  refine Tells.bind (fun r hr => ?_) fun _ => tells_pure _
  refine mirrors_perform (fun step t recorded => ?_) fun _ _ => .refl r
  obtain ⟨id, u, active, -⟩ := recordStep_eq_ok recorded
  exact .stage (.record (hr (active ▸ nofun)) recorded) (.of_update (.record recorded))

theorem tells_recordSteps (action : String) (args : Value) (count : Nat) (edits : List StepEdit) :
    Tells (recordSteps action args count edits) (recordSteps action args count edits) :=
  tells_foldlM (fun _ _ => (tells_recordStep action args edits).map some) _ _

section Nested
variable {call real : Block → Exec Unit} (hc : ∀ block, Tells (call block) (real block))
include hc

theorem tells_runBody (body : Body) : Tells (runBody call body) (runBody real body) := by
  cases body with
  | script block => exact hc block
  | step action args => exact (tells_recordStep action args []).discard

omit hc in
theorem story_begin {id : UnitId} {u : WorkUnit} {group : GroupId}
    (known : r.session.unit? id = some u) (active : r.session.currentGroup? = some group) :
    r.Story (r.on (r.session.begin id group)) := by
  have bound : ((r.session.modifyUnit id (·.bind group)).modifyGroup group
      (·.addMember id)).unit? id = some (u.bind group) := unit?_begin known group
  have invoked : r.Story (r.on ((r.session.modifyUnit id (·.bind group)).modifyGroup group
      (·.addMember id))) := .single (.bind known active)
  have raised := invoked.tail
    (.quiet (.setFloor r.session.scopes.guards.depth) (.of_eq rfl rfl rfl rfl))
  exact raised.tail (.quiet (.enter (.unit bound active (by simp [WorkUnit.bind])))
    (.of_eq rfl rfl rfl rfl))

omit hc in
theorem told_finish {c : Run} (story : r.Story c)
    (restored : r.session.Restored (r.session.finish c.session)) :
    r.Told (c.on (r.session.finish c.session)) := by
  have lowered := story.tail (.quiet (.setFloor r.session.guardFloor) (.of_eq rfl rfl rfl rfl))
  exact ⟨lowered.tail (.quiet (.unwind r.session.scopes.guards.depth) (.of_eq rfl rfl rfl rfl)),
    restored⟩

theorem tells_invoke (id : UnitId) : Tells (invoke call id) (invoke real id) := fun r hr => by
  refine .session ?_
  rw [Run.erase_session]
  refine Mirrors.bind (mirrors_ofExcept_eq _) ?_
  rintro u _ ⟨rfl, hu⟩
  rename_i r
  have known := getUnit_eq_ok.1 hu
  cases hg : r.session.currentGroup? with
  | none => exact .fail (.refl r)
  | some group =>
    let ended (c : Run) : Prop := r.Story c ∧ r.session.Restored (r.session.finish c.session)
    let bound := (r.session.modifyUnit id (·.bind group)).modifyGroup group (·.addMember id)
    let depth := r.session.scopes.guards.depth
    have begun := story_begin known hg
    have sheltered : (r.session.begin id group).Sheltered := fun _ => by
      show r.session.currentGroup? ≠ none
      rw [hg]
      exact Option.some_ne_none group
    have body := tells_runBody hc u.body (r.on (r.session.begin id group)) sheltered
    have ran : Mirrors Run.erase
        (Exec.within .unit (fun c => { c with units := c.units.enter id }) (runBody call u.body))
        (Exec.within .unit (fun c => { c with units := c.units.enter id }) (runBody real u.body))
        (r.on { bound with guardFloor := depth }) (fun _ => ended) ended r.Story := by
      refine mirrors_within (body.imp (fun _ _ hb => hb) (fun _ hb => hb) fun _ => begun.trans)
        (fun b scopes hb hl => ?_) fun b hb => begun.trans hb.story
      exact ⟨(begun.trans hb.story).tail (.quiet (.leave hl) (.of_eq rfl rfl rfl rfl)),
        .invoked hb.restored hl⟩
    refine Mirrors.bind (mirrors_update_eq (fun s =>
      (s.modifyUnit id (·.bind group)).modifyGroup group (·.addMember id))) ?_
    rintro _ _ rfl
    refine Mirrors.bind (mirrors_update_eq ({ · with guardFloor := depth })) ?_
    rintro _ _ rfl
    refine Mirrors.bind ran.settled fun result c hc => .session ?_
    rw [Run.erase_session]
    refine Mirrors.bind (mirrors_update_eq _) ?_
    rintro _ _ rfl
    have back := told_finish hc.1 hc.2
    refine Mirrors.bind (mirrors_ofExcept back) fun _ d hd => ?_
    split
    · exact .fail hd
    · exact .pure hd

omit hc in
theorem mirrors_noted {act : Exec β} {statement : Stmt} {answer : Answer} {k k' : β → Exec α}
    {done : α → Run → Prop} {failed : Run → Prop} (g : Session → β × Session)
    (ran : ∀ a : Run, act.run a = .ok (g a.session).1 (a.on (g a.session).2))
    (note : Entry.isNote ⟨statement, (g r.session).2, .ok answer⟩ = true)
    (h : Mirrors Run.erase (k (g r.session).1) (k' (g r.session).1)
      ((r.on (g r.session).2).log statement (.ok answer)) done failed stopped) :
    Mirrors Run.erase
      (do
        let b ← act
        Traced.mark statement answer
        k b)
      (act >>= k') r done failed stopped := by
  have step {γ : Type} (m : β → Exec γ) (a : Run) :
      (act >>= m).run a = (m (g a.session).1).run (a.on (g a.session).2) := by
    have ran := ran a
    simp only [EStateM.run, Bind.bind, EStateM.bind] at ran ⊢
    rw [ran]
  have same := h.same
  rw [Run.erase_log note] at same
  refine ⟨?_, ?_⟩
  · rw [step, step]
    exact same
  · unfold Ends
    rw [step]
    exact h.ends

theorem mirrors_invokeMember {runbook : Runbook} {inst : Instance} {id : UnitId}
    (hr : r.session.Sheltered) (made : r.session.instance? inst.id = some inst)
    (declared : r.session.runbook? inst.runbook = some runbook)
    (member : id ∈ runbook.members.values) :
    Mirrors Run.erase (Traced.invokeMember call runbook inst id) (invokeMember real runbook inst id)
      r (fun _ => r.Told) r.Told r.Story := by
  refine Mirrors.bind (mirrors_query_eq _) ?_
  rintro u _ ⟨rfl, hu⟩
  refine Mirrors.bind (mirrors_ofExcept_eq _) ?_
  rintro before _ ⟨rfl, hb⟩
  refine Mirrors.bind (mirrors_ofExcept_eq _) ?_
  rintro after _ ⟨rfl, ha⟩
  rename_i r
  have reaches : r.session.Reaches inst id before after :=
    ⟨made, runbook, declared, member, u, getUnit_eq_ok.1 hu, hb, ha⟩
  exact mirrors_noted (fun s => ((), s.constrainMember inst id before after)) (fun _ => rfl) rfl
    ((tells_invoke hc id).after (.stage (.reach reaches) (.of_eq rfl rfl)) hr)

theorem mirrors_members {runbook : Runbook} {inst : Instance} (hr : r.session.Sheltered)
    (made : r.session.instance? inst.id = some inst)
    (declared : r.session.runbook? inst.runbook = some runbook) {ids : List UnitId}
    (members : ∀ id ∈ ids, id ∈ runbook.members.values) {a : Run} (ha : r.Told a) :
    Mirrors Run.erase (ids.forM (Traced.invokeMember call runbook inst))
      (ids.forM (invokeMember real runbook inst)) a (fun _ => r.Told) r.Told r.Story := by
  induction ids generalizing a with
  | nil => exact .pure ha
  | cons id ids ih =>
    obtain ⟨member, members⟩ := List.forall_mem_cons.1 members
    have reached := mirrors_invokeMember hc (ha.restored.sheltered hr)
      (ha.story.instance? made) (ha.story.runbook? declared) member
    exact (Mirrors.after ha reached).bind fun _ b hb => ih members hb

theorem mirrors_populate {runbook : Runbook} {inst : Instance} (hr : r.session.Sheltered)
    (made : r.session.instance? inst.id = some inst)
    (declared : r.session.runbook? inst.runbook = some runbook) :
    Mirrors Run.erase (Traced.populate call runbook inst) (populate real runbook inst) r
      (fun _ => r.Told) r.Told r.Story := by
  have members {a : Run} (ha : r.Told a) :=
    mirrors_members hc hr made declared (fun _ hid => hid) ha
  obtain ⟨_, _, _ | setup, _⟩ := runbook
  · exact members (.refl r)
  · exact (hc setup r hr).bind fun _ a ha => members ha

theorem tells_instantiate (id : RunbookId) (vars : Attributes) :
    Tells (Traced.instantiate call id vars) (instantiate real id vars) := fun r hr => by
  refine .session ?_
  rw [Run.erase_session]
  refine Mirrors.bind (mirrors_ofExcept_eq _) ?_
  rintro runbook _ ⟨rfl, hrunbook⟩
  rename_i r
  have declared := getRunbook_eq_ok.1 hrunbook
  cases hg : r.session.currentGroup? with
  | none => exact .fail (.refl r)
  | some parent =>
    have copied : Mirrors Run.erase (perform (·.copyGroup parent)) (perform (·.copyGroup parent)) r
        (fun group a => ∃ t, a = r.on t ∧ r.session.copyGroup parent = .ok (group, t)) r.Told
        r.Story :=
      mirrors_perform (fun group t ht => ⟨t, rfl, ht⟩) fun _ _ => .refl r
    refine copied.bind ?_
    rintro group _ ⟨t, rfl, ht⟩
    obtain ⟨_, _, hosts⟩ := declareHosts_of_copyGroup ht
    have told : r.Told (r.on t) := .update (.hosts hosts) (quiet_of_declareHosts hosts)
    obtain ⟨pattern, settings, added⟩ := addGroup_of_declareHosts hosts
    obtain rfl : _ = group := congrArg Prod.fst added
    obtain rfl : _ = t := congrArg Prod.snd added
    refine Mirrors.bind (mirrors_update_eq _) ?_
    rintro _ _ rfl
    let group := (r.session.addGroup pattern settings).1
    let varied := (r.session.addGroup pattern settings).2.modifyGroup group ({ · with vars })
    have told : r.Told (r.on varied) :=
      told.trans (.update (.setVars group vars) (quiet_modifyGroup _ group fun _ => rfl))
    let outer := r.session.currentInstance?.bind r.session.instance?
    let inst : Instance := {
      id := ⟨r.session.instances.length⟩, runbook := id, group, vars
      before := (outer.map Instance.before).getD .empty
      after := ((outer.map Instance.after).getD .empty).insertAll r.session.currentUnit?.toList }
    have made : varied.Made inst := by
      refine ⟨rfl, ⟨runbook, declared⟩, ?_, rfl, rfl⟩
      show ∃ g, ((r.session.addGroup pattern settings).2.modifyGroup group _).group? group = some g
      rw [group?_modifyGroup, group?_addGroup, if_pos rfl]
      exact ⟨_, rfl⟩
    have created :
        r.Told ((r.on (varied.addInstance inst)).log (.instantiate id vars) (.ok .done)) :=
      told.trans (.stage (.create made) (.of_eq rfl rfl))
    refine mirrors_noted (fun s => ((), s.addInstance inst)) (fun _ => rfl) rfl ?_
    refine Mirrors.bind ?_ fun _ _ hb => .pure hb
    refine .after created (mirrors_scope (by decide) (.runbook List.getElem?_concat_length) ?_)
    rintro a rfl
    refine mirrors_inGroup ?_
    rintro b rfl
    exact mirrors_populate hc (fun _ => nofun) List.getElem?_concat_length declared

theorem tells_gatherFacts (p : FactGathering) :
    Tells (gatherFacts call p) (gatherFacts real p) := by
  obtain ⟨hosts, becomeRoot, _ | unit⟩ := p
  · have declared : Tells (apply (·.declare FactGathering.declaration))
        (apply (·.declare FactGathering.declaration)) := fun r _ =>
      mirrors_perform (fun unit t ht => by
        obtain rfl : _ = t := congrArg Prod.snd (Except.ok.inj ht)
        exact .stage .gather (.of_eq rfl rfl)) fun _ _ => .refl r
    refine declared.bind fun unit => ((tells_invoke hc unit).withHosts _ _).bind fun _ => ?_
    exact (tells_update (fun _ => .skipFacts) fun s => .of_eq rfl rfl rfl (by
      simp [Function.comp_def, HostGroup.setSetting])).bind fun _ => tells_pure _
  · exact tells_pure _

theorem tells_runPass (p : Pass) : Tells (Traced.runPass call p) (runPass real p) := by
  cases p with
  | facts p =>
    refine (tells_gatherFacts hc p).settle.bind fun result => ?_
    cases result <;> exact tells_pure _
  | merging p =>
    exact fun r _ => mirrors_noted Session.mergeBindings (fun _ => rfl) rfl
      (.pure (.stage (.merge .done) (.of_eq rfl rfl)))
  | idle => exact tells_pure _
  | scripted p => exact (hc p.block).settle.bind fun _ => tells_session fun _ => tells_pure _

theorem tells_runPasses (ps : List Pass) :
    Tells (Traced.runPasses call ps) (runPasses real ps) := by
  induction ps with
  | nil => exact tells_pure _
  | cons p ps ih =>
    refine (tells_runPass hc p).bind fun ⟨q, result⟩ => ?_
    cases result with
    | error e => exact tells_pure _
    | ok _ => exact ih.bind fun _ => tells_pure _

theorem tells_buildGraph : Tells (Traced.buildGraph call) (buildGraph real) := by
  refine tells_session fun s => ?_
  split
  · exact tells_fail_bind _ _ _
  · refine (tells_update (fun _ => .pipeline []) fun _ => .of_eq rfl rfl rfl rfl).bind fun _ => ?_
    refine (tells_runPasses hc s.passes).inSession.bind fun ⟨passes, result⟩ => ?_
    refine Tells.bind (Tells.settle ?_) fun graph => ?_
    · exact (tells_ofExcept _).bind fun _ => tells_session fun _ =>
        (tells_ofExcept _).bind fun _ => tells_ofExcept _
    · exact (tells_update (fun _ => .pipeline passes) fun _ => .of_eq rfl rfl rfl rfl).bind
        fun _ => tells_ofExcept _

theorem tells_plan : Tells (Traced.plan call) (plan real) :=
  (tells_buildGraph hc).bind fun _ => tells_query _

theorem mirrors_plan (hr : r.session.Sheltered) :
    Mirrors Run.erase (Traced.plan call) (plan real) r
      (fun p b => r.Told b ∧ b.session.Plans p) r.Told r.Story := by
  have told := tells_plan hc r hr
  have plans := told.ends_act (ends_plan r.erase)
  refine ⟨told.same, (told.ends.and plans).imp (fun p b hb => ⟨hb.1, ?_⟩)
    (fun _ _ hb => hb.1) fun _ hs => hs.1⟩
  obtain ⟨-, g, _, graph, ⟨edges, rfl⟩, planned⟩ := hb
  exact ⟨g, edges, graph, planned⟩

theorem tells_repeatFacts (n : Nat) (p : FactGathering) :
    Tells (repeatFacts call n p) (repeatFacts real n p) := by
  induction n generalizing p with
  | zero => exact tells_pure p
  | succ n ih => exact (tells_gatherFacts hc p).bind ih

omit hc in
theorem tells_anchored (p : FactGathering) : Tells (anchored p) (anchored p) :=
  tells_session fun _ => (tells_ofExcept _).bind fun _ => tells_ofExcept _

theorem tells_tryFacts (t : FactTrial) : Tells (tryFacts call t) (tryFacts real t) := by
  have answered (p : FactGathering) (g : Graph UnitId) : Tells
      (do
        let s ← session
        return .factTrial (p.unit.map fun id => (id, s.unitName id)) (.of s g) : Exec Answer)
      (do
        let s ← session
        return .factTrial (p.unit.map fun id => (id, s.unitName id)) (.of s g)) :=
    tells_session fun _ => tells_pure _
  obtain ⟨settings, times, early, late⟩ := t
  refine (tells_ofExcept _).bind fun p => ?_
  cases early <;> cases late
  · exact (tells_repeatFacts hc times p).bind fun p => answered p _
  · exact (tells_repeatFacts hc times p).bind fun p => (tells_anchored p).bind (answered p)
  · exact (tells_anchored p).bind fun g => (tells_repeatFacts hc times p).bind fun p => answered p g
  · exact (tells_anchored p).bind fun _ => (tells_repeatFacts hc times p).bind fun p =>
      (tells_anchored p).bind (answered p)

omit hc in
theorem tells_modify {act : Exec β} (known : Tells act act) {g : Session → Session}
    (h : ∀ s, Update s (g s)) (quiet : ∀ s, Quiet s (g s)) :
    Tells (do discard act; update g; return Answer.done)
      (do discard act; update g; return Answer.done) :=
  known.discard.bind fun _ => (tells_update h quiet).bind fun _ => tells_pure _

omit hc in
theorem tells_constrain {statement : Stmt} (constrains : statement.constrains) (id : UnitId)
    (before after : WorkUnit → OrderedSet UnitRef)
    (keepsBefore : ∀ u, ∀ ref ∈ u.before, ref ∈ before u)
    (keepsAfter : ∀ u, ∀ ref ∈ u.after, ref ∈ after u) :
    Tells (note statement do
        discard (query (·.getUnit id))
        update (·.modifyUnit id fun u => { u with before := before u, after := after u })
        return .done)
      (note statement do
        discard (query (·.getUnit id))
        update (·.modifyUnit id fun u => { u with before := before u, after := after u })
        return .done) := fun r _ => by
  have plain (s : Session) (e : Error) : Entry.isPlain ⟨statement, s, .error e⟩ := by
    cases statement <;> first | rfl | cases constrains
  have kept (s : Session) : Entry.isNote ⟨statement, s, .ok .done⟩ = false := by
    cases statement <;> first | rfl | cases constrains
  have found : Mirrors Run.erase (Functor.discard (query (·.getUnit id)))
      (Functor.discard (query (·.getUnit id))) r (fun _ a => a = r)
      (fun b => r.Told b ∧ ∀ e, Entry.isPlain ⟨statement, b.session, .error e⟩) r.Story :=
    .discard ((mirrors_query_eq _).imp (fun _ _ ha => ha.1) (fun _ hb => ⟨hb, plain _⟩)
      fun _ hs => hs)
  refine mirrors_note (found.bind ?_)
  rintro _ _ rfl
  refine Mirrors.bind (mirrors_update_eq _) ?_
  rintro _ _ rfl
  exact .pure ⟨kept _, .stage (.constrain constrains id keepsBefore keepsAfter) (.of_eq rfl rfl)⟩

theorem tells_flagged (holds : Bool) (block : Block) :
    Tells
      (do
        if holds then call block
        return .flag holds : Exec Answer)
      (do
        if holds then real block
        return .flag holds) := by
  cases holds with
  | true => exact (hc block).bind fun _ => tells_pure _
  | false => exact tells_pure _

theorem tells_noted (t : Stmt) : Tells (note t (Traced.step call t)) (note t (step real t)) := by
  cases t with
  | declare d =>
    refine fun r _ => mirrors_note (Mirrors.map (mirrors_perform (fun id t h => ?_) nofun))
    obtain ⟨rfl, rfl⟩ := Prod.mk.inj (Except.ok.inj h)
    exact ⟨rfl, .stage (.declare d) (.of_eq rfl rfl)⟩
  | runbook name members setup =>
    refine fun r _ => mirrors_note (Mirrors.map (mirrors_perform (fun id t h => ?_)
      fun _ _ => ⟨.refl r, fun _ => rfl⟩))
    refine ⟨rfl, .stage (.runbook h) ?_⟩
    obtain ⟨_, -, rfl, -⟩ := declareRunbook_eq_ok h
    exact .of_eq rfl rfl
  | hosts pattern settings =>
    exact tells_note (Tells.map (tells_perform fun _ _ _ h =>
      ⟨.hosts h, quiet_of_declareHosts h⟩) _) fun _ _ => rfl
  | setSetting group key value =>
    exact tells_note (tells_modify (tells_query _) (fun _ => .setSetting group key value)
      fun s => quiet_modifyGroup s group fun _ => rfl) fun _ _ => rfl
  | setVar group key value =>
    exact tells_note (tells_modify (tells_query _) (fun _ => .setVar group key value)
      fun s => quiet_modifyGroup s group fun _ => rfl) fun _ _ => rfl
  | addBefore unit ref =>
    exact tells_constrain rfl unit (·.before.insert ref) WorkUnit.after
      (fun _ _ h => OrderedSet.mem_insert.2 (.inl h)) fun _ _ h => h
  | addAfter unit ref =>
    exact tells_constrain rfl unit WorkUnit.before (·.after.insert ref)
      (fun _ _ h => h) fun _ _ h => OrderedSet.mem_insert.2 (.inl h)
  | enter block =>
    exact tells_note ((hc block).inSession.bind fun _ => tells_pure _) fun _ _ => rfl
  | enterHosts group block =>
    exact tells_note (((hc block).inGroup group).bind fun _ => tells_pure _) fun _ _ => rfl
  | withHosts pattern settings block =>
    exact tells_note (((hc block).bind fun _ => tells_session fun _ => tells_pure _).withHosts _ _)
      fun _ _ => rfl
  | «when» condition block =>
    exact tells_note (((hc block).underGuard condition).bind fun _ => tells_pure _) fun _ _ => rfl
  | openGuard condition =>
    refine tells_note (Tells.bind (fun r _ => .update rfl ?_) fun _ => tells_pure _) fun _ _ => rfl
    exact .stage (.quiet (.enter (.guard condition)) (.of_eq rfl rfl rfl rfl))
      (.openGuard _ condition)
  | closeGuard => exact tells_note (tells_closeGuard.map _) fun _ _ => rfl
  | invoke unit =>
    refine fun r hr => mirrors_note (((tells_invoke hc unit r hr).imp (fun _ _ hb => hb)
      (fun _ hb => ⟨hb, fun _ => rfl⟩) fun _ hs => hs).bind fun _ b hb => .pure ⟨rfl, ?_⟩)
    exact hb.trans (.stage (.log rfl) (.refl _))
  | instantiate runbook vars =>
    refine fun r hr => mirrors_note (Mirrors.map ((tells_instantiate hc runbook vars r hr).imp
      (fun _ b hb => ⟨rfl, ?_⟩) (fun _ hb => ⟨hb, fun _ => rfl⟩) fun _ hs => hs))
    exact hb.trans (.stage (.log rfl) (.refl _))
  | step action args count edits =>
    exact tells_note ((tells_recordSteps action args count edits).map _) fun _ _ => rfl
  | getFile source args edits =>
    exact tells_note ((tells_query _).bind fun _ => (tells_recordStep _ _ _).map _) fun _ _ => rfl
  | varStep action name edits =>
    exact tells_note (tells_session fun _ => (tells_recordStep _ _ _).map _) fun _ _ => rfl
  | patternStep action edits =>
    exact tells_note (tells_session fun _ => (tells_recordStep _ _ _).map _) fun _ _ => rfl
  | fail error => exact tells_note (tells_fail error) fun _ _ => rfl
  | attempt block =>
    refine tells_note ((hc block).settle.bind fun result => ?_) fun _ _ => rfl
    cases result <;> exact tells_pure _
  | ifInvokedLess unit times block =>
    exact tells_note (tells_session fun _ => tells_flagged hc _ block) fun _ _ => rfl
  | ifVar name value block =>
    exact tells_note (tells_session fun _ => tells_flagged hc _ block) fun _ _ => rfl
  | ask q => exact tells_note (tells_query _) fun _ _ => rfl
  | buildGraph =>
    exact tells_note ((tells_buildGraph hc).bind fun _ => tells_session fun _ => tells_pure _)
      fun _ _ => rfl
  | merge =>
    refine fun r _ => mirrors_note (Mirrors.map (mirrors_perform (fun id t h => ?_) nofun))
    obtain ⟨rfl, rfl⟩ := Prod.mk.inj (Except.ok.inj h)
    exact ⟨rfl, .stage (.merge _) (.of_eq rfl rfl)⟩
  | gatherFacts trial => exact tells_note (tells_tryFacts hc trial) fun _ _ => rfl
  | plan form =>
    refine fun r hr => mirrors_note (((mirrors_plan hc hr).imp (fun _ _ hb => hb)
      (fun _ hb => ⟨hb, fun _ => rfl⟩) fun _ hs => hs).bind fun p b hb => ?_)
    refine .ofExcept (fun answer answered => ⟨rfl, ?_⟩) fun _ _ => ⟨hb.1, fun _ => rfl⟩
    exact hb.1.trans (.stage (.plan hb.2 answered) (.refl _))

theorem tells_runBlock (block : Block) :
    Tells (Traced.runBlock call block) (runBlock real block) := by
  induction block with
  | nil => exact tells_pure _
  | cons t ts ih => exact (tells_noted hc t).bind fun _ => ih

theorem tells_runAll (block : Block) : Tells (Traced.runAll call block) (runAll real block) := by
  induction block with
  | nil => exact tells_pure _
  | cons t ts ih => exact (tells_noted hc t).settle.discard.bind fun _ => ih

end Nested

theorem tells_runWithin (bound : Nat) (block : Block) :
    Tells (Traced.runWithin bound block) (runWithin bound block) := by
  induction bound generalizing block with
  | zero => exact tells_exhausted
  | succ bound ih => exact tells_runBlock ih block

end Exec
namespace Traced
variable (s : Session) (bound : Nat) (script : Block)

/-- The run with notes as far as its first entries go. -/
def upTo (s : Session) (bound : Nat) (script : Block) (n : Nat) : Run :=
  let told := (run s bound script).entries.take n
  ⟨(told.getLast?.map Entry.session).getD s, told.reverse⟩

theorem run_told (hs : s.Sheltered) :
    (run s bound script).erase = s.run bound script ∧
      ∃ r, Run.Story ⟨s, []⟩ r ∧ (run s bound script).entries = r.journal.reverse := by
  obtain ⟨same, ends⟩ :=
    Exec.tells_runAll (Exec.tells_runWithin bound) script ⟨s, []⟩ hs
  have same : (Exec.runAll (Playbook.runWithin bound) script).run ⟨s, []⟩ = _ := same
  unfold run Session.run
  unfold Exec.Ends at ends
  rw [same]
  cases ran : (runAll (runWithin bound) script).run ⟨s, []⟩ with
  | ok u r =>
    rw [ran] at ends
    exact ⟨congrArg (Transcript.mk · _) List.filter_reverse, r, ends.story, rfl⟩
  | error halt r =>
    rw [ran] at ends
    refine ⟨congrArg (Transcript.mk · _) List.filter_reverse, r, ?_, rfl⟩
    cases halt with
    | failed => exact ends.story
    | fault | exhausted => exact ends

/-- Without the notes it is the run itself. -/
theorem run_erase (hs : s.Sheltered) : (run s bound script).erase = s.run bound script :=
  (run_told s bound script hs).1

theorem session_upTo (n : Nat) {e : Entry}
    (last : (upTo s bound script n).journal.head? = some e) :
    (upTo s bound script n).session = e.session := by
  rw [upTo, List.head?_reverse] at last
  rw [upTo, last]
  rfl

theorem story_upTo (hs : s.Sheltered) (n : Nat) :
    Run.Story ⟨s, []⟩ (upTo s bound script n) := by
  obtain ⟨-, b, story, entries⟩ := run_told s bound script hs
  have told : ((run s bound script).entries.take n).reverse <:+ b.journal := by
    rw [← List.reverse_prefix, List.reverse_reverse, ← entries]
    exact List.take_prefix n _
  have place : upTo s bound script n =
      ⟨((((run s bound script).entries.take n).reverse.head?).map Entry.session).getD s,
        ((run s bound script).entries.take n).reverse⟩ := by
    rw [List.head?_reverse]
    rfl
  rw [place]
  cases journal : ((run s bound script).entries.take n).reverse with
  | nil => exact .refl
  | cons e earlier => exact (story.at_entry (journal ▸ told)).resolve_left (by simp)

end Traced

theorem Session.sheltered_initial (settings : Settings) (passes : List Pass) :
    (initial settings passes).Sheltered := fun h => absurd rfl h

end Playbook
