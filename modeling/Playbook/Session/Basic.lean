import Playbook.HostGroup
import Playbook.Runbook
import Playbook.Scope
import Playbook.Settings.Validation

/-! Sessions: everything declared so far, the open scopes and the pipeline of passes. -/

namespace Playbook

structure Session where
  id : SessionId
  settings : Settings
  units : List WorkUnit
  runbooks : List Runbook
  instances : List Instance
  groups : List HostGroup
  scopes : Scopes
  passes : List Pass
  nextRegister : Nat
  /-- How many open conditions belong to callers of the active unit. -/
  guardFloor : Nat

namespace Session

def initial (settings : Settings) (passes : List Pass) : Session where
  id := ⟨1⟩
  settings
  units := []
  runbooks := []
  instances := []
  groups := []
  scopes := .empty
  passes
  nextRegister := 1
  guardFloor := 0

/-- A session with the given passes, whichever passes the settings name. -/
def withPasses (settings : Settings) (passes : List Pass) : Except Error Session := do
  settings.validate
  return initial settings passes

def new (settings : Settings) : Except Error Session := do
  withPasses settings (← Registry.builtin.pipeline settings.passes)

def passNames (s : Session) : List String := s.passes.map Pass.name

def unit? (s : Session) (id : UnitId) : Option WorkUnit := s.units[id.index]?

def group? (s : Session) (id : GroupId) : Option HostGroup := s.groups[id.index]?

def runbook? (s : Session) (id : RunbookId) : Option Runbook := s.runbooks[id.index]?

def instance? (s : Session) (id : InstanceId) : Option Instance := s.instances[id.index]?

def getUnit (s : Session) (id : UnitId) : Except Error WorkUnit :=
  match s.unit? id with
  | some u => .ok u
  | none => .error (.refused (.unknownUnit id))

def getGroup (s : Session) (id : GroupId) : Except Error HostGroup :=
  match s.group? id with
  | some g => .ok g
  | none => .error (.refused (.unknownGroup id))

def getRunbook (s : Session) (id : RunbookId) : Except Error Runbook :=
  match s.runbook? id with
  | some r => .ok r
  | none => .error (.refused (.unknownRunbook id))

def unitName (s : Session) (id : UnitId) : String := ((s.unit? id).map WorkUnit.name).getD ""

def modifyUnit (s : Session) (id : UnitId) (f : WorkUnit → WorkUnit) : Session :=
  { s with units := s.units.modify id.index f }

def modifyGroup (s : Session) (id : GroupId) (f : HostGroup → HostGroup) : Session :=
  { s with groups := s.groups.modify id.index f }

theorem unit?_modifyUnit (s : Session) (id j : UnitId) (f : WorkUnit → WorkUnit) :
    (s.modifyUnit id f).unit? j = (s.unit? j).map fun u => if id = j then f u else u := by
  simp only [unit?, modifyUnit, List.getElem?_modify, Option.map_eq_map]
  congr 1
  funext u
  have : id.index = j.index ↔ id = j := by cases id; cases j; simp
  simp [this]

theorem group?_modifyGroup (s : Session) (id j : GroupId) (f : HostGroup → HostGroup) :
    (s.modifyGroup id f).group? j = (s.group? j).map fun g => if id = j then f g else g := by
  simp only [group?, modifyGroup, List.getElem?_modify, Option.map_eq_map]
  congr 1
  funext u
  have : id.index = j.index ↔ id = j := by cases id; cases j; simp
  simp [this]

@[simp] theorem group?_modifyUnit (s : Session) (id : UnitId) (f : WorkUnit → WorkUnit)
    (j : GroupId) : (s.modifyUnit id f).group? j = s.group? j := rfl

@[simp] theorem unit?_modifyGroup (s : Session) (id : GroupId) (f : HostGroup → HostGroup)
    (j : UnitId) : (s.modifyGroup id f).unit? j = s.unit? j := rfl

@[simp] theorem scopes_modifyUnit (s : Session) (id : UnitId) (f : WorkUnit → WorkUnit) :
    (s.modifyUnit id f).scopes = s.scopes := rfl

@[simp] theorem scopes_modifyGroup (s : Session) (id : GroupId) (f : HostGroup → HostGroup) :
    (s.modifyGroup id f).scopes = s.scopes := rfl

def isActive (s : Session) : Bool := !s.scopes.sessions.isEmpty

def currentGroup? (s : Session) : Option GroupId := s.scopes.hostGroups.current?

def currentUnit? (s : Session) : Option UnitId := s.scopes.units.current?

def currentInstance? (s : Session) : Option InstanceId := s.scopes.runbooks.current?

def var? (s : Session) (name : String) : Option Value := do
  (← s.instance? (← s.currentInstance?)).vars.get? name

def declareAs (s : Session) (name : String) (d : Declaration Body) : UnitId × Session :=
  let id : UnitId := ⟨s.units.length⟩
  (id, { s with units := s.units ++ [.ofDeclaration id name d] })

theorem unit?_declareAs (s : Session) (name : String) (d : Declaration Body) (j : UnitId) :
    (s.declareAs name d).2.unit? j =
      if j = (s.declareAs name d).1 then some (.ofDeclaration j name d) else s.unit? j := by
  have last : j = ⟨s.units.length⟩ ↔ j.index = s.units.length := by cases j; simp
  simp only [unit?, declareAs, last, List.getElem?_append, List.getElem?_singleton]
  grind [List.getElem?_eq_none]

theorem unit?_fresh (s : Session) (name : String) (d : Declaration Body) :
    s.unit? (s.declareAs name d).1 = none := by
  simp [unit?, declareAs]

def declare (s : Session) (d : Declaration Body) : UnitId × Session := s.declareAs d.name d

def declareMembers (s : Session) (runbook : String) (members : OrderedMap String UnitId) :
    List (Declaration Body) → OrderedMap String UnitId × Session
  | [] => (members, s)
  | d :: ds =>
    let (id, s) := s.declareAs (Runbook.qualified runbook d.name) d
    s.declareMembers runbook (members.insert d.name id) ds

def declareRunbook (s : Session) (name : String) (setup : Option Block)
    (members : List (Declaration Body)) : Except Error (RunbookId × Session) :=
  match Runbook.repeated? [] (members.map Declaration.name) with
  | some member => .error (.refused (.repeatedMember name member))
  | none =>
    let (members, s) := s.declareMembers name .empty members
    let id : RunbookId := ⟨s.runbooks.length⟩
    .ok (id, { s with runbooks := s.runbooks ++ [{ id, name, setup, members }] })

def member (s : Session) (runbook : RunbookId) (name : String) : Except Error UnitId := do
  let r ← s.getRunbook runbook
  match r.members.get? name with
  | some id => return id
  | none => throw (.refused (.unknownMember r.name name))

def localhost : String := "localhost"

def addGroup (s : Session) (pattern : String) (settings : Attributes) : GroupId × Session :=
  let id : GroupId := ⟨s.groups.length⟩
  let group : HostGroup := { id, pattern, settings, vars := .empty, members := .empty }
  (id, { s with groups := s.groups ++ [group] })

/-- Declares a host group. With `localhostOnly` it aims at this machine, whatever the pattern. -/
def declareHosts (s : Session) (pattern : Option String) (settings : Attributes) :
    Except Error (GroupId × Session) :=
  if !s.isActive then .error (.refused .hostsOutsideSession)
  else if s.settings.localhostOnly then
    .ok (s.addGroup localhost (settings.insert "connection" (.text "local")))
  else match pattern with
    | some p =>
      if Text.isBlank p then .error (.refused .noPattern) else .ok (s.addGroup p settings)
    | none => .error (.refused .noPattern)

theorem group?_addGroup (s : Session) (pattern : String) (settings : Attributes) (j : GroupId) :
    (s.addGroup pattern settings).2.group? j =
      if j = (s.addGroup pattern settings).1 then
        some ⟨j, pattern, settings, .empty, .empty⟩
      else s.group? j := by
  have last : j = ⟨s.groups.length⟩ ↔ j.index = s.groups.length := by cases j; simp
  simp only [group?, addGroup, last, List.getElem?_append, List.getElem?_singleton]
  grind [List.getElem?_eq_none]

theorem group?_fresh (s : Session) (pattern : String) (settings : Attributes) :
    s.group? (s.addGroup pattern settings).1 = none := by
  simp [group?, addGroup]

theorem addGroup_of_declareHosts {s : Session} {pattern : Option String} {settings : Attributes}
    {r : GroupId × Session} (h : s.declareHosts pattern settings = .ok r) :
    ∃ p a, s.addGroup p a = r := by
  unfold declareHosts at h
  split at h
  · simp at h
  · split at h
    · exact ⟨_, _, Except.ok.inj h⟩
    · split at h
      · split at h
        · simp at h
        · exact ⟨_, _, Except.ok.inj h⟩
      · simp at h

/-- Declares a group with the pattern and settings of another, without variables or members. -/
def copyGroup (s : Session) (source : GroupId) : Except Error (GroupId × Session) := do
  let g ← s.getGroup source
  s.declareHosts (some g.pattern) g.settings

theorem declareHosts_of_copyGroup {s : Session} {source : GroupId} {r : GroupId × Session}
    (h : s.copyGroup source = .ok r) : ∃ p a, s.declareHosts p a = .ok r := by
  unfold copyGroup getGroup at h
  cases hg : s.group? source with
  | none => simp [hg, bind, Except.bind] at h
  | some g =>
    rw [hg] at h
    exact ⟨some g.pattern, g.settings, h⟩

/-- Records a step of the active unit: it gets a register variable of its own, the unit's tags and
every open condition. -/
def recordStep (s : Session) (action : String) (args : Value) (edits : List StepEdit) :
    Except Error (Step × Session) :=
  match s.currentUnit? with
  | none => .error (.refused (.stepOutsideUnit action))
  | some id => do
    let u ← s.getUnit id
    let register := registerName s.nextRegister
    let tags := (u.stepSettings.get? "tags").getD (.texts [u.shortName])
    let settings : Attributes := .ofList [("register", .text register), ("tags", tags)]
    let settings :=
      if s.scopes.guards.isEmpty then settings
      else settings.insert "when" (.texts s.scopes.guards.toList)
    let step : Step :=
      { action, args, settings, vars := .empty, register, group := s.currentGroup? }
    let step := edits.foldl Step.edit step
    let s := s.modifyUnit id (·.record step)
    return (step, { s with nextRegister := s.nextRegister + 1 })

theorem recordStep_eq_ok {s t : Session} {action : String} {args : Value} {edits : List StepEdit}
    {step : Step} (h : s.recordStep action args edits = .ok (step, t)) :
    ∃ id u, s.currentUnit? = some id ∧ s.unit? id = some u ∧
      t = { s.modifyUnit id (·.record step) with nextRegister := s.nextRegister + 1 } := by
  unfold recordStep getUnit at h
  cases hc : s.currentUnit? with
  | none => simp [hc] at h
  | some id =>
    cases hu : s.unit? id with
    | none => simp [hc, hu, bind, Except.bind] at h
    | some u =>
      simp only [hc, hu] at h
      obtain ⟨rfl, rfl⟩ := Prod.mk.inj (Except.ok.inj h)
      exact ⟨id, u, rfl, hu, rfl⟩

def bundleDirectory : String := "bundle-out"

def argumentEntries : Value → Except Error (List (Value × Value))
  | .mapping entries => .ok entries
  | .null => .ok []
  | v => .error (.refused (.argumentsNotMapping v))

def fileStep (s : Session) (source : String) (args : Value) : Except Error (String × Value) := do
  let source := Text.dropLeading (· = '/') source
  if source.isEmpty then throw (.refused .noSourcePath)
  let entries ← argumentEntries args
  match s.settings.delivery with
  | .bundle =>
    let path := bundleDirectory ++ "/" ++ source
    return ("copy", .mapping (putEntry (.text "src") (.text path) entries))
  | .fetch =>
    match s.settings.baseUrl with
    | none => throw (.refused .unsetBaseUrl)
    | some base =>
      let url := Text.dropTrailing (· = '/') base ++ "/" ++ source
      return ("get_url", .mapping (putEntry (.text "url") (.text url) entries))

def openGuard (s : Session) (condition : String) : Session :=
  { s with scopes := { s.scopes with guards := s.scopes.guards.enter condition } }

/-- The innermost condition, if the active unit may close it. -/
def ownGuard (s : Session) : Except Error Unit :=
  let depth := s.scopes.guards.depth
  if 0 < depth && depth ≤ s.guardFloor then
    let unit := (s.currentUnit?.map s.unitName).getD ""
    .error (.refused (.guardOfCaller unit (s.scopes.guards.current?.getD "")))
  else .ok ()

def structuralKey? (s : Session) (id : GroupId) : Option GroupKey :=
  (s.group? id).map HostGroup.structuralKey

def sameKey? : Option GroupKey → Option GroupKey → Bool
  | some a, some b => a.same b
  | none, none => true
  | _, _ => false

def mergeUnit (s : Session) (u : WorkUnit) : WorkUnit :=
  { u with groups := firstOfEach sameKey? s.structuralKey? u.groups }

/-- Removes the bindings that repeat another of the same unit, and counts them. -/
def mergeBindings (s : Session) : Nat × Session :=
  let merged := s.units.map s.mergeUnit
  let count (us : List WorkUnit) := (us.flatMap WorkUnit.groups).length
  (count s.units - count merged, { s with units := merged })

theorem unit?_mergeBindings (s : Session) (id : UnitId) :
    s.mergeBindings.2.unit? id = (s.unit? id).map s.mergeUnit := List.getElem?_map

end Session
end Playbook
