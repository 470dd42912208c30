import Playbook.Proofs.Session.Calling
import Playbook.Proofs.Session.Persistence
import Playbook.Proofs.Session.Restraint

/-! A runbook instance works in a host group of its own. As long as its setup and its members do not
enter or change the host groups that there were before, and run no passes, they leave these as they
are, and bind units to new host groups only. -/

namespace Playbook
namespace Session
variable {s t v : Session}

/-- The host groups that a unit is bound to, none for a unit that there is not. -/
def bindings (s : Session) (id : UnitId) : List GroupId :=
  ((s.unit? id).map WorkUnit.groups).getD []

/-- The host groups of `s` are in `t` as they were, only other ones are active, and units have been
bound only to other ones since. No passes have come. -/
structure Apart (s t : Session) : Prop where
  kept : ∀ j g, s.group? j = some g → t.group? j = some g
  active : ∀ j, t.currentGroup? = some j → s.group? j = none
  passes : s.passes = [] → t.passes = []
  bound : ∀ id, ∃ added, t.bindings id = s.bindings id ++ added ∧ ∀ j ∈ added, s.group? j = none

end Session

/-- The statement neither enters nor changes a host group of `s`, and it runs no passes. -/
structure Entry.Aloof (s : Session) (e : Entry) : Prop where
  enters : ∀ id block, e.statement = .enterHosts id block → s.group? id = none
  sets : ∀ id key value, e.statement = .setSetting id key value → s.group? id = none
  setsVar : ∀ id key value, e.statement = .setVar id key value → s.group? id = none
  runs : ¬ e.Optimizing s

theorem Entry.Optimizing.of_passes {s t : Session} {e : Entry} (h : e.Optimizing t)
    (passes : s.passes = [] → t.passes = []) : e.Optimizing s :=
  h.imp_left fun out => ⟨fun none => out.1 (passes none), out.2⟩

def isolation (s : Session) : Law where
  fair := Entry.Aloof s
  apt id := s.group? id = none
  optimizes := False
  holds := s.Apart

namespace Session
variable {s t v : Session}

theorem Still.bindings_eq (h : t.Still v) (id : UnitId) : v.bindings id = t.bindings id := by
  obtain ⟨n, units⟩ := h.bindings
  have listed (w : Session) : w.bindings id = (w.units.map WorkUnit.groups)[id.index]?.getD [] := by
    rw [Session.bindings, unit?, List.getElem?_map]
  rw [listed, listed, units]
  by_cases old : id.index < (t.units.map WorkUnit.groups).length
  · rw [List.getElem?_append_left old]
  · rw [List.getElem?_append_right (Nat.le_of_not_lt old), List.getElem?_eq_none
      (Nat.le_of_not_lt old), List.getElem?_replicate]
    split <;> rfl

theorem bindings_bind (t : Session) (id j : UnitId) (group : GroupId) :
    (t.modifyUnit id (·.bind group)).bindings j = t.bindings j ∨
      (t.modifyUnit id (·.bind group)).bindings j = t.bindings j ++ [group] := by
  simp only [bindings, unit?_modifyUnit]
  cases t.unit? j with
  | none => exact .inl rfl
  | some u =>
    by_cases same : id = j
    · exact .inr (by simp [same, WorkUnit.bind])
    · exact .inl (by simp [same])

namespace Apart

theorem of_groups (h : s.Apart t) (groups : ∀ j, s.group? j ≠ none → v.group? j = t.group? j)
    (hostGroups : v.scopes.hostGroups = t.scopes.hostGroups)
    (passes : t.passes = [] → v.passes = [])
    (bindings : ∀ id, v.bindings id = t.bindings id) : s.Apart v where
  kept j g hg := by rw [groups j (by simp [hg]), h.kept j g hg]
  active j hj := h.active j (by rwa [currentGroup?, ← hostGroups])
  passes none := passes (h.passes none)
  bound id := by
    rw [bindings]
    exact h.bound id

theorem modifyGroup (h : s.Apart t) {j : GroupId} (new : s.group? j = none)
    (f : HostGroup → HostGroup) : s.Apart (t.modifyGroup j f) :=
  h.of_groups (fun k old => by
    have other : j ≠ k := fun same => old (same ▸ new)
    rw [group?_modifyGroup]
    cases t.group? k <;> simp [other]) rfl (fun none => none) fun _ => rfl

theorem fresh (h : s.Apart t) : s.group? ⟨t.groups.length⟩ = none := by
  cases hg : s.group? ⟨t.groups.length⟩ with
  | none => rfl
  | some g => simpa [group?] using h.kept _ g hg

theorem addGroup (h : s.Apart t) (pattern : String) (settings : Attributes) :
    s.Apart (t.addGroup pattern settings).2 :=
  h.of_groups (fun j old => by
    obtain ⟨g, hg⟩ := Option.ne_none_iff_exists'.1 old
    have known := h.kept j g hg
    rw [group?_addGroup, if_neg]
    rintro rfl
    rw [group?_fresh] at known
    cases known) rfl (fun none => none) fun _ => rfl

theorem declareHosts (h : s.Apart t) {pattern : Option String} {settings : Attributes}
    {id : GroupId} (declared : t.declareHosts pattern settings = .ok (id, v)) :
    s.group? id = none ∧ s.Apart v := by
  obtain ⟨p, a, added⟩ := addGroup_of_declareHosts declared
  obtain rfl : _ = id := congrArg Prod.fst added
  obtain rfl : _ = v := congrArg Prod.snd added
  exact ⟨h.fresh, h.addGroup p a⟩

theorem bind (h : s.Apart t) {group : GroupId} (active : t.currentGroup? = some group)
    (id : UnitId) : s.Apart (t.modifyUnit id (·.bind group)) where
  kept := h.kept
  active := h.active
  passes := h.passes
  bound j := by
    obtain ⟨added, same, fresh⟩ := h.bound j
    rcases t.bindings_bind id j group with e | e
    · exact ⟨added, e.trans same, fresh⟩
    · refine ⟨added ++ [group], by rw [e, same, List.append_assoc], fun k hk => ?_⟩
      rcases List.mem_append.1 hk with hk | hk
      · exact fresh k hk
      · exact List.mem_singleton.1 hk ▸ h.active group active

theorem under (h : s.Apart t) {hostGroups : ScopeStack GroupId}
    (active : ∀ j, hostGroups.current? = some j → s.group? j = none) :
    s.Apart (t.under hostGroups) :=
  ⟨h.kept, active, h.passes, h.bound⟩

end Apart
end Session

open Session in
theorem sound_isolation (s : Session) : (isolation s).Sound where
  still ht h := Apart.of_groups ht (fun j _ => by rw [group?, group?, h.groups]) h.hostGroups
    h.passes h.bindings_eq
  hosts h ht := Apart.declareHosts ht h
  copied h vars ht := (Apart.declareHosts ht h).2.modifyGroup (Apart.declareHosts ht h).1 _
  setSetting h ht := Apart.modifyGroup ht (h.sets _ _ _ rfl) _
  setVar h ht := Apart.modifyGroup ht (h.setsVar _ _ _ rfl) _
  bind active ht := (Apart.bind ht active _).modifyGroup (Apart.active ht _ active) _
  enters h := h.enters _ _ rfl
  enter new ht := Apart.under ht fun _ hj => Option.some.inj hj ▸ new
  leave ht hv := Apart.under hv (Apart.active ht)
  permits ht h optimizing := h.runs (optimizing.of_passes (Apart.passes ht))
  pipeline := False.elim
  merge := False.elim
  skipFacts := False.elim

/-- `h` has the pattern, the settings and the variables of `g`, whatever its members. -/
structure HostGroup.SameTerms (g h : HostGroup) : Prop where
  pattern : h.pattern = g.pattern
  settings : h.settings = g.settings
  vars : h.vars = g.vars

/-- The statement gives the host group no setting and no variable. -/
structure Entry.Spares (id : GroupId) (e : Entry) : Prop where
  sets : ∀ key value, e.statement ≠ .setSetting id key value
  setsVar : ∀ key value, e.statement ≠ .setVar id key value

/-- From `s` on, the host group stays as `g`, as far as its members are not concerned. -/
def steadiness (s : Session) (id : GroupId) (g : HostGroup) : Law where
  fair e := e.Spares id ∧ ¬ e.Optimizing s
  apt _ := True
  optimizes := False
  holds t := (s.passes = [] → t.passes = []) ∧ ∃ h, t.group? id = some h ∧ g.SameTerms h

namespace Session
variable {s t v : Session} {id : GroupId} {g : HostGroup}

theorem steady_modifyGroup (ht : (steadiness s id g).holds t) (j : GroupId)
    {f : HostGroup → HostGroup} (kept : j = id → ∀ h : HostGroup, h.SameTerms (f h)) :
    (steadiness s id g).holds (t.modifyGroup j f) := by
  obtain ⟨passes, h, hh, same⟩ := ht
  refine ⟨passes, _, by rw [group?_modifyGroup, hh]; rfl, ?_⟩
  split
  · rename_i this
    have kept := kept this h
    exact ⟨kept.pattern.trans same.pattern, kept.settings.trans same.settings,
      kept.vars.trans same.vars⟩
  · exact same

theorem steady_declareHosts (ht : (steadiness s id g).holds t) {pattern : Option String}
    {settings : Attributes} {j : GroupId}
    (declared : t.declareHosts pattern settings = .ok (j, v)) :
    j ≠ id ∧ (steadiness s id g).holds v := by
  obtain ⟨p, a, added⟩ := addGroup_of_declareHosts declared
  obtain rfl : _ = j := congrArg Prod.fst added
  obtain rfl : _ = v := congrArg Prod.snd added
  obtain ⟨passes, h, hh, same⟩ := ht
  have other : (t.addGroup p a).1 ≠ id := by
    rintro rfl
    rw [group?_fresh] at hh
    cases hh
  exact ⟨other, passes, h, by rw [group?_addGroup, if_neg other.symm, hh], same⟩

end Session

open Session in
theorem sound_steadiness (s : Session) (id : GroupId) (g : HostGroup) :
    (steadiness s id g).Sound where
  still ht h := by
    obtain ⟨passes, x, hx, same⟩ := ht
    exact ⟨fun none => h.passes (passes none), x, by rw [group?, h.groups]; exact hx, same⟩
  hosts h ht := ⟨trivial, (steady_declareHosts ht h).2⟩
  copied h vars ht := steady_modifyGroup (steady_declareHosts ht h).2 _
    fun this => absurd this (steady_declareHosts ht h).1
  setSetting {_ _ j key value} h ht := steady_modifyGroup ht j fun same =>
    absurd (congrArg (Stmt.setSetting · key value) same) (h.1.sets key value)
  setVar {_ _ j key value} h ht := steady_modifyGroup ht j fun same =>
    absurd (congrArg (Stmt.setVar · key value) same) (h.1.setsVar key value)
  bind {t unit group} _ ht :=
    steady_modifyGroup (t := t.modifyUnit unit (·.bind group)) ht _ fun _ _ => ⟨rfl, rfl, rfl⟩
  enters _ := trivial
  enter _ ht := ht
  leave _ ht := ht
  permits ht h optimizing := h.2 (optimizing.of_passes ht.1)
  pipeline := False.elim
  merge := False.elim
  skipFacts := False.elim

namespace Session
open Exec
variable {s t : Session} {bound : Nat} {id : RunbookId} {active : HostGroup} {vars : Attributes}

theorem Apart.instantiating (s : Session) (id : RunbookId) (active : HostGroup)
    (vars : Attributes) : s.Apart (s.instantiating id active vars) where
  kept j g hg := by
    rw [group?, Session.instantiating, List.getElem?_append_left (List.getElem?_eq_some_iff.1 hg).1]
    exact hg
  active j hj := by
    obtain rfl : (s.privateGroup active vars).id = j := Option.some.inj hj
    exact List.getElem?_eq_none (Nat.le_refl _)
  passes := fun none => none
  bound id := ⟨[], (List.append_nil _).symm, List.forall_mem_nil _⟩

theorem Coherent.exists_of_mem_bindings (h : s.Coherent) {u : UnitId} {j : GroupId}
    (hj : j ∈ s.bindings u) : ∃ g, s.group? j = some g := by
  cases hu : s.unit? u with
  | none => simp [bindings, hu] at hj
  | some v =>
    rw [bindings, hu] at hj
    obtain ⟨g, hg, -⟩ := h.bound u v hu j hj
    exact ⟨g, hg⟩

/-- What a call of the runbook has left behind in `t`, once it came to make its instance. Its host
group was not there before. It is like the active one at first, and stays like that unless the
statements made `since` give it settings or variables of its own. -/
structure Instantiated (s t : Session) (id : RunbookId) (active : HostGroup) (vars : Attributes)
    (since : List Entry) : Prop where
  current : ∃ parent, s.currentGroup? = some parent ∧ s.group? parent = some active
  new : s.instance? (s.newInstance id vars).id = none
  fresh : s.group? (s.newInstance id vars).group = none
  made : t.instance? (s.newInstance id vars).id = some (s.newInstance id vars)
  populated : ∃ runbook bound earlier c, s.runbook? id = some runbook ∧
    (Exec.populate (runWithin bound) runbook (s.newInstance id vars)).Concludes
      ⟨s.instantiating id active vars, earlier⟩ c ∧ t = s.returned c.session
  pattern : ∃ g, t.group? (s.newInstance id vars).group = some g ∧ g.pattern = active.pattern
  terms : (∀ e ∈ since, e.Spares (s.newInstance id vars).group) →
    ∃ g, t.group? (s.newInstance id vars).group = some g ∧ (s.privateGroup active vars).SameTerms g

/-- An instance works in a host group of its own: as long as its setup and its members enter and
change no host group that there was before, each of these is what it was, with the same members,
and units have been bound to new ones only. -/
theorem Arises.instantiate_isolated (arises : s.Arises) {earlier since : List Entry}
    {result : Except Error InstanceId}
    (ran : (Exec.settle (Exec.instantiate (runWithin bound) id vars)).run ⟨s, earlier⟩ =
      .ok result ⟨t, since ++ earlier⟩) (aloof : ∀ e ∈ since, e.Aloof s) :
    (∀ j g, s.group? j = some g → t.group? j = some g) ∧
      (∀ u, ∃ added, t.bindings u = s.bindings u ++ added ∧
        ∀ j ∈ added, s.group? j = none ∧ ∃ g, t.group? j = some g) ∧
      ((∃ e, result = .error e ∧ t = s) ∨ ∃ active, s.Instantiated t id active vars since ∧
        ∀ i, result = .ok i → i = (s.newInstance id vars).id) := by
  have moves : s.Moves t := by
    have course := tame_instantiate (tame_runWithin bound) id vars ⟨s, earlier⟩
    exact (course.of_concludes ⟨result, ran⟩).path.moves
  have called := called_of_run arises.homebound ran
  generalize finish : (⟨t, since ++ earlier⟩ : Run) = b at called
  cases called with
  | rejected e =>
    obtain rfl : t = s := congrArg Run.session finish
    exact ⟨fun _ _ hg => hg, fun u => ⟨[], (List.append_nil _).symm, List.forall_mem_nil _⟩,
      .inl ⟨e, rfl, rfl⟩⟩
  | @populated runbook parent active c _ known current declared concluded named =>
    obtain rfl : t = s.returned c.session := congrArg Run.session finish
    obtain journal : since ++ earlier = c.journal := congrArg Run.journal finish
    let made : Run := ⟨s.instantiating id active vars, earlier⟩
    -- what any law says of the call, which lies between making the instance and leaving it
    have judged {L : Law} (sound : L.Sound) (fair : ∀ e ∈ since, L.fair e)
        (begun : L.holds made.session) : L.holds c.session := by
      obtain ⟨others, told, kept⟩ :=
        (obeys_populate sound (obeys_runWithin sound bound) runbook _ made).of_concludes concluded
      obtain rfl := List.append_cancel_right (told.symm.trans journal.symm)
      exact (kept fair begun).1
    have within : made.session.Moves c.session :=
      ((tame_populate (tame_runWithin bound) runbook _ made).of_concludes concluded).path.moves
    have apart : s.Apart c.session := judged (sound_isolation s) aloof (.instantiating ..)
    refine ⟨apart.kept, fun u => ?_, .inr ⟨active, ?_, named⟩⟩
    · obtain ⟨added, all, new⟩ := apart.bound u
      refine ⟨added, all, fun j hj => ⟨new j hj, ?_⟩⟩
      have bound : j ∈ (s.returned c.session).bindings u := by
        rw [show (s.returned c.session).bindings u = s.bindings u ++ added from all]
        exact List.mem_append_right _ hj
      exact (arises.moves moves).coherent.exists_of_mem_bindings bound
    · constructor
      case current => exact ⟨parent, current, declared⟩
      case new => exact List.getElem?_eq_none (Nat.le_refl _)
      case fresh => exact List.getElem?_eq_none (Nat.le_refl _)
      case made => exact within.instance? (instance?_instantiating ..)
      case populated => exact ⟨runbook, bound, earlier, c, known, concluded, rfl⟩
      case pattern =>
        obtain ⟨g, hg, same⟩ := within.persists.group _ _ (s.group?_instantiating id active vars)
        exact ⟨g, hg, same⟩
      case terms =>
        intro spared
        exact (judged (sound_steadiness s (s.newInstance id vars).group
          (s.privateGroup active vars)) (fun e he => ⟨spared e he, (aloof e he).runs⟩)
          ⟨fun none => none, _, group?_instantiating .., rfl, rfl, rfl⟩).2

/-- A runbook that instantiates another one and declares a host group, and a host group for it. -/
def nestingScript : Block :=
  [.runbook "base" [.new "install" [.step "command" (.text "one") 1 []]] none,
    .runbook "site" [.new "deploy" [.step "command" (.text "two") 1 []]]
      (some [.instantiate ⟨0⟩ .empty, .withHosts none .empty [.invoke ⟨0⟩]]),
    .enter [.hosts none .empty, .setSetting ⟨0⟩ "connection" (.text "ssh"),
      .enterHosts ⟨0⟩ [.invoke ⟨1⟩]]]

def opened (s : Session) (id : GroupId) : Session :=
  { s with scopes := { s.scopes with
      sessions := s.scopes.sessions.enter s.id
      hostGroups := s.scopes.hostGroups.enter id } }

theorem Arises.opened (arises : s.Arises) {id : GroupId} {g : HostGroup}
    (declared : s.group? id = some g) : (s.opened id).Arises := by
  have entered : s.Moves { s with scopes := { s.scopes with
      sessions := s.scopes.sessions.enter s.id } } := .single (.enter .session)
  exact arises.moves (entered.tail (.enter (.hostGroup (g := g) declared)))

def nestingSession : Session :=
  ((initial ⟨true, .bundle, none, []⟩ []).after 4 nestingScript).opened ⟨0⟩

theorem arises_nestingSession : nestingSession.Arises := by
  have declared : (((initial ⟨true, .bundle, none, []⟩ []).after 4 nestingScript).group?
      ⟨0⟩).isSome = true := by decide +kernel
  obtain ⟨g, hg⟩ := Option.isSome_iff_exists.1 declared
  exact (reachable_after rfl 4 nestingScript).arises.opened hg

def connections (s : Session) : List (String × List UnitId) :=
  s.groups.map fun g => (match g.settings.get? "connection" with
    | some (.text c) => c
    | _ => "", g.members.toList)

def harmless (e : Entry) : Bool :=
  match e.statement with
  | .enterHosts .. | .setSetting .. | .setVar .. => false
  | t => !t.optimizes

theorem aloof_of_harmless (none : s.passes = []) {e : Entry} (h : harmless e = true) :
    e.Aloof s := by
  obtain ⟨statement, t, outcome⟩ := e
  constructor
  case enters => rintro _ _ ⟨⟩; cases h
  case sets => rintro _ _ _ ⟨⟩; cases h
  case setsVar => rintro _ _ _ ⟨⟩; cases h
  case runs =>
    rintro (⟨given, -⟩ | run)
    · exact given none
    · cases statement with
      | merge | gatherFacts | plan | buildGraph => cases h
      | _ => exact run

theorem instantiate_isolated_nestingSession :
    ∃ t since, (Exec.settle (Exec.instantiate (runWithin 4) ⟨1⟩
        (.ofList [("port", .text "80")]))).run ⟨nestingSession, []⟩ = .ok (.ok ⟨0⟩) ⟨t, since⟩ ∧
      nestingSession.connections = [("ssh", [⟨1⟩])] ∧
      t.connections = [("ssh", [⟨1⟩]), ("local", [⟨1⟩]), ("local", [⟨0⟩]), ("local", [⟨0⟩])] ∧
      (∀ j g, nestingSession.group? j = some g → t.group? j = some g) ∧
      (∀ u, ∃ added, t.bindings u = nestingSession.bindings u ++ added ∧
        ∀ j ∈ added, nestingSession.group? j = none ∧ ∃ g, t.group? j = some g) ∧
      ∃ active, nestingSession.Instantiated t ⟨1⟩ active (.ofList [("port", .text "80")])
        since := by
  have none : nestingSession.passes = [] := List.isEmpty_iff.1 (by decide +kernel)
  have before : nestingSession.connections = [("ssh", [⟨1⟩])] := by decide +kernel
  have checked : ((Exec.instantiate (runWithin 4) ⟨1⟩ (.ofList [("port", .text "80")])).result?
      ⟨nestingSession, []⟩).map (fun x =>
        (x.1, x.2.session.connections, x.2.journal.all harmless)) =
      some (⟨0⟩, [("ssh", [⟨1⟩]), ("local", [⟨1⟩]), ("local", [⟨0⟩]), ("local", [⟨0⟩])], true) := by
    decide +kernel
  obtain ⟨⟨i, t, since⟩, ran, checked⟩ := Option.map_eq_some_iff.1 checked
  obtain ⟨rfl, after, quiet⟩ : i = ⟨0⟩ ∧ _ ∧ since.all harmless = true := by
    simpa using checked
  have run := Exec.run_settle_of_result? ran
  have ran := run
  rw [← List.append_nil since] at ran
  obtain ⟨kept, bound, failed | ⟨active, made, -⟩⟩ :=
    arises_nestingSession.instantiate_isolated ran
      fun e he => aloof_of_harmless none (List.all_eq_true.1 quiet e he)
  · obtain ⟨_, impossible, -⟩ := failed
    cases impossible
  · exact ⟨t, since, run, before, after, kept, bound, active, made⟩

end Session

end Playbook
