import Playbook.Proofs.Plan.Facts
import Playbook.Proofs.Session.Law

/-! The call of a runbook: it copies the active host group, makes an instance, and runs the setup
and the members under both. The session may be any that a run comes by. -/

namespace Playbook

namespace Session
variable {s t : Session}

/-- A pattern that host groups may have under the settings of the session. -/
structure Aims (s : Session) (pattern : String) : Prop where
  home : s.settings.localhostOnly = true → pattern = localhost
  away : s.settings.localhostOnly = false → Text.isBlank pattern = false

def Aimed (s : Session) : Prop := ∀ j g, s.group? j = some g → s.Aims g.pattern

/-- With `localhostOnly`, every host group aims at this machine. -/
def Homebound (s : Session) : Prop :=
  s.settings.localhostOnly = true → ∀ j g, s.group? j = some g → g.pattern = localhost

theorem Aimed.homebound (h : s.Aimed) : s.Homebound := fun home j g hg => (h j g hg).home home

theorem declareHosts_cases {pattern : Option String} {settings : Attributes} {id : GroupId}
    (h : s.declareHosts pattern settings = .ok (id, t)) :
    (s.settings.localhostOnly = true ∧
      (id, t) = s.addGroup localhost (settings.insert "connection" (.text "local"))) ∨
    (s.settings.localhostOnly = false ∧ ∃ p, pattern = some p ∧ Text.isBlank p = false ∧
      (id, t) = s.addGroup p settings) := by
  unfold declareHosts at h
  split at h
  · cases h
  · split at h
    · rename_i home
      exact .inl ⟨home, (Except.ok.inj h).symm⟩
    · rename_i away
      split at h
      · split at h
        · cases h
        · rename_i named
          exact .inr ⟨by simpa using away, _, rfl, by simpa using named, (Except.ok.inj h).symm⟩
      · cases h

namespace Aimed

theorem of_groups (h : s.Aimed) (settings : t.settings = s.settings)
    (groups : t.groups = s.groups) : t.Aimed := fun j g hg => by
  obtain ⟨home, away⟩ := h j g (by simpa only [group?, groups] using hg)
  exact ⟨settings ▸ home, settings ▸ away⟩

theorem modifyGroup (h : s.Aimed) (id : GroupId) {f : HostGroup → HostGroup}
    (kept : ∀ g, (f g).pattern = g.pattern) : (s.modifyGroup id f).Aimed := fun j g hg => by
  rw [group?_modifyGroup] at hg
  obtain ⟨old, known, rfl⟩ := Option.map_eq_some_iff.1 hg
  obtain ⟨home, away⟩ := h j old known
  split
  · exact ⟨kept old ▸ home, kept old ▸ away⟩
  · exact ⟨home, away⟩

theorem addGroup (h : s.Aimed) {pattern : String} (aims : s.Aims pattern) (settings : Attributes) :
    (s.addGroup pattern settings).2.Aimed := fun j g hg => by
  rw [group?_addGroup] at hg
  split at hg
  · obtain rfl := Option.some.inj hg
    exact ⟨aims.home, aims.away⟩
  · obtain ⟨home, away⟩ := h j g hg
    exact ⟨home, away⟩

theorem update (h : s.Aimed) (u : s.Update t) : t.Aimed := by
  cases u with
  | hosts declared =>
    rcases declareHosts_cases declared with ⟨home, e⟩ | ⟨away, p, -, named, e⟩
    · obtain rfl := congrArg Prod.snd e
      exact h.addGroup ⟨fun _ => rfl, fun away => absurd (away.symm.trans home) (by decide)⟩ _
    · obtain rfl := congrArg Prod.snd e
      exact h.addGroup ⟨fun home => absurd (away.symm.trans home) (by decide), fun _ => named⟩ _
  | setSetting id => exact h.modifyGroup id fun _ => rfl
  | setVar id => exact h.modifyGroup id fun _ => rfl
  | setVars id => exact h.modifyGroup id fun _ => rfl
  | skipFacts =>
    intro j g hg
    rw [group?, List.getElem?_map] at hg
    obtain ⟨old, known, rfl⟩ := Option.map_eq_some_iff.1 hg
    obtain ⟨home, away⟩ := h j old known
    exact ⟨home, away⟩
  | record recorded =>
    obtain ⟨_, _, -, -, rfl⟩ := recordStep_eq_ok recorded
    exact h.of_groups rfl rfl
  | declare | runbook | constrain | merge | inst | pipeline => exact h.of_groups rfl rfl

theorem moves (h : s.Aimed) (m : s.Moves t) : t.Aimed := by
  induction m with
  | refl => exact h
  | tail _ last ih =>
    cases last with
    | update u => exact ih.update u
    | @bind id _ group =>
      have bound : (modifyUnit _ id (·.bind group)).Aimed := ih.of_groups rfl rfl
      exact bound.modifyGroup group fun _ => rfl
    | enter | leave | unwind | setFloor => exact ih.of_groups rfl rfl

end Aimed

theorem aimed_initial (settings : Settings) (passes : List Pass) :
    (initial settings passes).Aimed := fun j g hg => by
  simp [initial, group?] at hg

/-- A session as it may be at any point of a run, within whatever scopes are open there. -/
def Arises (s : Session) : Prop := ∃ settings passes, (initial settings passes).Moves s

namespace Arises

theorem moves (h : s.Arises) (m : s.Moves t) : t.Arises := by
  obtain ⟨settings, passes, before⟩ := h
  exact ⟨settings, passes, before.trans m⟩

theorem coherent (h : s.Arises) : s.Coherent := by
  obtain ⟨settings, passes, before⟩ := h
  exact (coherent_initial settings passes).moves before

theorem aimed (h : s.Arises) : s.Aimed := by
  obtain ⟨settings, passes, before⟩ := h
  exact (aimed_initial settings passes).moves before

theorem homebound (h : s.Arises) : s.Homebound := h.aimed.homebound

end Arises

theorem Reachable.arises (h : s.Reachable) : s.Arises := by
  obtain ⟨settings, passes, r, trail, rfl⟩ := h.exists_trail
  exact ⟨settings, passes, trail.path.moves⟩

/-- The host group in which an instance works: like the active one, with the variables of the
instance and without members. -/
def privateGroup (s : Session) (active : HostGroup) (vars : Attributes) : HostGroup where
  id := ⟨s.groups.length⟩
  pattern := active.pattern
  settings :=
    if s.settings.localhostOnly then active.settings.insert "connection" (.text "local")
    else active.settings
  vars
  members := .empty

def newInstance (s : Session) (runbook : RunbookId) (vars : Attributes) : Instance where
  id := ⟨s.instances.length⟩
  runbook
  group := ⟨s.groups.length⟩
  vars
  before := ((s.currentInstance?.bind s.instance?).map Instance.before).getD .empty
  after := (((s.currentInstance?.bind s.instance?).map Instance.after).getD .empty).insertAll
    s.currentUnit?.toList

def instantiating (s : Session) (runbook : RunbookId) (active : HostGroup) (vars : Attributes) :
    Session :=
  { s with
    groups := s.groups ++ [s.privateGroup active vars]
    instances := s.instances ++ [s.newInstance runbook vars]
    scopes := { s.scopes with
      runbooks := s.scopes.runbooks.enter (s.newInstance runbook vars).id
      hostGroups := s.scopes.hostGroups.enter (s.privateGroup active vars).id } }

theorem group?_instantiating (s : Session) (id : RunbookId) (active : HostGroup)
    (vars : Attributes) : (s.instantiating id active vars).group? (s.newInstance id vars).group =
      some (s.privateGroup active vars) :=
  List.getElem?_concat_length

theorem instance?_instantiating (s : Session) (id : RunbookId) (active : HostGroup)
    (vars : Attributes) : (s.instantiating id active vars).instance? (s.newInstance id vars).id =
      some (s.newInstance id vars) :=
  List.getElem?_concat_length

/-- `t`, back in the host groups and runbooks of `s`. -/
def returned (s t : Session) : Session :=
  { t with scopes := { t.scopes with
      runbooks := s.scopes.runbooks
      hostGroups := s.scopes.hostGroups } }

theorem copyGroup_eq_ok (home : s.Homebound) {source id : GroupId}
    (h : s.copyGroup source = .ok (id, t)) (vars : Attributes) :
    id = ⟨s.groups.length⟩ ∧ ∃ g, s.group? source = some g ∧
      t.modifyGroup id ({ · with vars }) =
        { s with groups := s.groups ++ [s.privateGroup g vars] } := by
  unfold copyGroup getGroup at h
  cases hg : s.group? source with
  | none =>
    rw [hg] at h
    cases h
  | some g =>
    rw [hg] at h
    replace h : s.declareHosts (some g.pattern) g.settings = .ok (id, t) := h
    have copied : (id, t) = s.addGroup g.pattern (s.privateGroup g vars).settings := by
      rcases declareHosts_cases h with ⟨local?, e⟩ | ⟨remote, p, same, -, e⟩
      · rw [e, privateGroup, if_pos local?, home local? source g hg]
      · obtain rfl := Option.some.inj same
        rw [e, privateGroup, if_neg (by simp [remote])]
    obtain rfl : id = _ := congrArg Prod.fst copied
    obtain rfl : t = _ := congrArg Prod.snd copied
    have varied : ((s.addGroup g.pattern (s.privateGroup g vars).settings).2.groups.modify
        s.groups.length ({ · with vars })) = s.groups ++ [s.privateGroup g vars] :=
      modify_length_append ..
    exact ⟨rfl, g, rfl, by rw [← varied]; rfl⟩

theorem moves_instantiating (home : s.Homebound) {id : RunbookId} {x : Runbook}
    (known : s.runbook? id = some x) {source : GroupId} {p : GroupId × Session}
    (copied : s.copyGroup source = .ok p) (vars : Attributes) (active : HostGroup)
    (declared : s.group? source = some active) : s.Moves (s.instantiating id active vars) := by
  obtain ⟨pattern, settings, hosts⟩ := declareHosts_of_copyGroup copied
  obtain ⟨-, g, found, alone⟩ := copyGroup_eq_ok home copied vars
  obtain rfl := Option.some.inj (declared.symm.trans found)
  have varied : s.Moves { s with groups := s.groups ++ [s.privateGroup active vars] } :=
    alone ▸ (Relation.ReflTransGen.single (.update (.hosts hosts))).tail
      (.update (.setVars p.1 vars))
  have made := varied.tail (.update (.inst (s.newInstance id vars) rfl ⟨x, known⟩
    ⟨_, List.getElem?_concat_length⟩))
  have inside := made.tail (.enter (.runbook (i := s.newInstance id vars)
    List.getElem?_concat_length))
  exact inside.tail (.enter (.hostGroup (g := s.privateGroup active vars)
    List.getElem?_concat_length))

end Session

namespace Exec
open Session
variable {α : Type} {bound : Nat} {r : Run} {failed : Error → Run → Prop} {stopped : Run → Prop}

/-- A block in a scope that is left for what was open before, in whatever way the block ends. -/
theorem Ends.within_back {act : Exec α} (tame : act.Tame) {done : α → Run → Prop}
    {kind : ScopeKind} {enter : Scopes → Scopes} (back : Scopes → Scopes)
    (left : ∀ b : Session, Restored { r.session with scopes := enter r.session.scopes } b →
      b.scopes.exit kind = .ok (back b.scopes))
    (block : act.Ends (r.on { r.session with scopes := enter r.session.scopes })
      (fun a b => done a (b.on { b.session with scopes := back b.session.scopes }))
      (fun e b => failed e (b.on { b.session with scopes := back b.session.scopes })) stopped) :
    (Exec.within kind enter act).Ends r done failed stopped :=
  Ends.within_left ((block.and (tame.restores _)).imp
    (fun _ b hb => ⟨_, left b.session hb.2, hb.1⟩)
    (fun _ b hb => ⟨_, left b.session hb.2, hb.1⟩) fun _ hb => hb.1)

theorem Ends.inGroup_left {act : Exec α} (tame : act.Tame) {done : α → Run → Prop} {id : GroupId}
    {g : HostGroup} (declared : r.session.group? id = some g)
    (block : act.Ends (r.on (r.session.under (r.session.scopes.hostGroups.enter id)))
      (fun a b => done a (b.on (b.session.under r.session.scopes.hostGroups)))
      (fun e b => failed e (b.on (b.session.under r.session.scopes.hostGroups))) stopped) :
    (Exec.inGroup id act).Ends r done failed stopped := by
  rw [Exec.inGroup, ends_bind, ends_discard, ends_query, getGroup]
  simp only [declared, ends_ofExcept_ok]
  exact Ends.within_back tame ({ · with hostGroups := r.session.scopes.hostGroups })
    (fun b h => by simp [Scopes.exit, h.hostGroups]) block

theorem Ends.withHosts_left {act : Exec α} (tame : act.Tame) {done : α → Run → Prop}
    {pattern : Option String} {settings : Attributes} {id : GroupId} {t : Session}
    (declared : r.session.declareHosts pattern settings = .ok (id, t))
    (block : act.Ends (r.on (t.under (t.scopes.hostGroups.enter id)))
      (fun a b => done a (b.on (b.session.under t.scopes.hostGroups)))
      (fun e b => failed e (b.on (b.session.under t.scopes.hostGroups))) stopped) :
    (Exec.withHosts pattern settings act).Ends r done failed stopped := by
  obtain ⟨p, a, added⟩ := addGroup_of_declareHosts declared
  have known := r.session.group?_addGroup p a (r.session.addGroup p a).1
  rw [if_pos rfl, added] at known
  rw [Exec.withHosts, ends_bind, ends_perform, declared, ends_ofExcept_ok]
  exact Ends.inGroup_left tame known block

theorem Ends.within_runbook {act : Exec α} (tame : act.Tame) {done : α → Run → Prop}
    {id : InstanceId} (block : act.Ends (r.on { r.session with
        scopes := { r.session.scopes with runbooks := r.session.scopes.runbooks.enter id } })
      (fun a b => done a (b.on { b.session with
        scopes := { b.session.scopes with runbooks := r.session.scopes.runbooks } }))
      (fun e b => failed e (b.on { b.session with
        scopes := { b.session.scopes with runbooks := r.session.scopes.runbooks } })) stopped) :
    (Exec.within .runbook (fun c => { c with runbooks := c.runbooks.enter id }) act).Ends r done
      failed stopped :=
  Ends.within_back tame ({ · with runbooks := r.session.scopes.runbooks })
    (fun b h => by simp [Scopes.exit, h.runbooks]) block

theorem Ends.inSession_left {act : Exec α} (tame : act.Tame) {done : α → Run → Prop}
    (block : act.Ends (r.on { r.session with scopes := { r.session.scopes with
        sessions := r.session.scopes.sessions.enter r.session.id } })
      (fun a b => done a (b.on { b.session with
        scopes := { b.session.scopes with sessions := r.session.scopes.sessions } }))
      (fun e b => failed e (b.on { b.session with
        scopes := { b.session.scopes with sessions := r.session.scopes.sessions } })) stopped) :
    (Exec.inSession act).Ends r done failed stopped := by
  rw [Exec.inSession, ends_bind, ends_session]
  exact Ends.within_back tame ({ · with sessions := r.session.scopes.sessions })
    (fun b h => by simp [Scopes.exit, h.sessions]) block

variable {done : InstanceId → Run → Prop}

/-- A runbook is either rejected, and nothing happens, or it is run for an instance under a host
group of its own, and the scopes are left as they were entered. -/
theorem Ends.instantiate (home : r.session.Homebound) (id : RunbookId) (vars : Attributes)
    (rejected : ∀ e, (∀ runbook parent p, r.session.runbook? id = some runbook →
      r.session.currentGroup? = some parent → r.session.copyGroup parent ≠ .ok p) → failed e r)
    (populated : ∀ runbook parent active, r.session.runbook? id = some runbook →
      r.session.currentGroup? = some parent → r.session.group? parent = some active →
      r.session.Moves (r.session.instantiating id active vars) →
      (populate (runWithin bound) runbook (r.session.newInstance id vars)).Ends
        (r.on (r.session.instantiating id active vars))
        (fun _ b => done (r.session.newInstance id vars).id (b.on (r.session.returned b.session)))
        (fun e b => failed e (b.on (r.session.returned b.session))) stopped) :
    (instantiate (runWithin bound) id vars).Ends r done failed stopped := by
  simp only [Exec.instantiate, ends_bind, ends_session, getRunbook]
  cases known : r.session.runbook? id with
  | none => exact rejected _ (by simp [known])
  | some runbook =>
    simp only [ends_ofExcept_ok]
    cases current : r.session.currentGroup? with
    | none => exact rejected _ (by simp [current])
    | some parent =>
      simp only [ends_bind, ends_perform]
      cases copied : r.session.copyGroup parent with
      | error e =>
        refine rejected e fun _ _ _ _ same => ?_
        obtain rfl := Option.some.inj (current.symm.trans same)
        simp [copied]
      | ok p =>
        obtain ⟨group, t⟩ := p
        have moves := moves_instantiating home known copied vars
        obtain ⟨rfl, active, declared, varied⟩ := copyGroup_eq_ok home copied vars
        simp only [ends_ofExcept_ok, ends_update, ends_pure, Run.on_session, varied]
        have tame := tame_populate (tame_runWithin bound) runbook (r.session.newInstance id vars)
        have declared' : (r.session.groups ++ [r.session.privateGroup active vars])[
          r.session.groups.length]? = some (r.session.privateGroup active vars) := by simp
        refine Ends.within_runbook (tame.inGroup _) ?_
        refine Ends.inGroup_left tame declared' ?_
        exact populated runbook parent active known current declared (moves active declared)

/-- The ways in which a call ends. -/
inductive Called (bound : Nat) (r : Run) (id : RunbookId) (vars : Attributes) :
    Except Error InstanceId → Run → Prop where
  | rejected (e : Error) : Called bound r id vars (.error e) r
  | populated {runbook : Runbook} {parent : GroupId} {active : HostGroup} {c : Run}
      {result : Except Error InstanceId} (known : r.session.runbook? id = some runbook)
      (current : r.session.currentGroup? = some parent)
      (declared : r.session.group? parent = some active)
      (ran : (populate (runWithin bound) runbook (r.session.newInstance id vars)).Concludes
        (r.on (r.session.instantiating id active vars)) c)
      (named : ∀ i, result = .ok i → i = (r.session.newInstance id vars).id) :
      Called bound r id vars result (c.on (r.session.returned c.session))

theorem called_of_run (home : r.session.Homebound) {id : RunbookId} {vars : Attributes}
    {result : Except Error InstanceId} {b : Run}
    (ran : (settle (instantiate (runWithin bound) id vars)).run r = .ok result b) :
    Called bound r id vars result b := by
  have settled : (settle (instantiate (runWithin bound) id vars)).Ends r
      (Called bound r id vars) (fun _ _ => False) fun _ => True := by
    rw [ends_settle]
    refine Ends.instantiate home id vars (fun e _ => .rejected e) ?_
    intro runbook parent active known current declared _
    exact (tame_populate (tame_runWithin bound) runbook _ _).concludes.imp
      (fun _ c hc => .populated known current declared hc.1 fun i same =>
        (Except.ok.inj same).symm)
      (fun e c hc => .populated known current declared hc.1 fun i same => nomatch same)
      fun _ _ => trivial
  exact settled.of_ok ran

end Exec

end Playbook
