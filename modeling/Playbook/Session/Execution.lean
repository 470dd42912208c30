import Playbook.Session.Answer

/-! Running scripts on a session. Whatever way a block ends, its scopes are left again; an error
stops the blocks around it up to the first that catches it. -/

namespace Playbook

inductive Halt where
  | failed (error : Error)
  | fault (fault : Fault)
  /-- The nesting went deeper than the given bound. -/
  | exhausted

/-- A session with the entries of the statements that finished, the last one first. -/
structure Run where
  session : Session
  journal : List Entry

/-- An action on a run, which keeps its effects when it halts. -/
abbrev Exec := EStateM Halt Run

namespace Exec
variable {α : Type}

def session : Exec Session := do return (← get).session

def update (f : Session → Session) : Exec Unit :=
  modify fun r => { r with session := f r.session }

def fail (e : Error) : Exec α := throw (.failed e)

def ofExcept : Except Error α → Exec α
  | .ok a => pure a
  | .error e => fail e

def query (f : Session → Except Error α) : Exec α := do ofExcept (f (← session))

/-- Performs an operation, which leaves the session as it is where it fails. -/
def perform (f : Session → Except Error (α × Session)) : Exec α := do
  let (a, s) ← query f
  update fun _ => s
  return a

def apply (f : Session → α × Session) : Exec α := perform fun s => .ok (f s)

/-- Catches an error, though no other halt. -/
def settle (act : Exec α) : Exec (Except Error α) :=
  tryCatch (.ok <$> act) fun
    | .failed e => pure (.error e)
    | h => throw h

def leave (kind : ScopeKind) : Exec Unit := do
  match (← session).scopes.exit kind with
  | .ok scopes => update ({ · with scopes })
  | .error fault => throw (.fault fault)

/-- Runs an action in a scope. The scope is left also after an error. -/
def within (kind : ScopeKind) (enter : Scopes → Scopes) (act : Exec α) : Exec α := do
  update fun s => { s with scopes := enter s.scopes }
  let result ← settle act
  leave kind
  ofExcept result

def inSession (act : Exec α) : Exec α := do
  let s ← session
  within .session (fun c => { c with sessions := c.sessions.enter s.id }) act

def inGroup (id : GroupId) (act : Exec α) : Exec α := do
  discard (query (·.getGroup id))
  within .hostGroup (fun c => { c with hostGroups := c.hostGroups.enter id }) act

def withHosts (pattern : Option String) (settings : Attributes) (act : Exec α) : Exec α := do
  let id ← perform (·.declareHosts pattern settings)
  inGroup id act

def underGuard (condition : String) (act : Exec α) : Exec α :=
  within .guard (fun c => { c with guards := c.guards.enter condition }) act

def closeGuard : Exec String := do
  query Session.ownGuard
  let condition := (← session).scopes.guards.current?.getD ""
  leave .guard
  return condition

def recordStep (action : String) (args : Value) (edits : List StepEdit) :
    Exec (String × String) := do
  let step ← perform (·.recordStep action args edits)
  return (step.register, step.label)

def recordSteps (action : String) (args : Value) (count : Nat) (edits : List StepEdit) :
    Exec (Option (String × String)) :=
  (List.range count).foldlM (fun _ _ => some <$> recordStep action args edits) none

def note (statement : Stmt) (act : Exec Answer) : Exec Unit := do
  let outcome ← settle act
  modify fun r =>
    { r with journal := ⟨statement, r.session, outcome⟩ :: r.journal }
  discard (ofExcept outcome)

variable (call : Block → Exec Unit)

def runBody : Body → Exec Unit
  | .script block => call block
  | .step action args => discard (recordStep action args [])

/-- Binds a unit to the active host group and runs its body. Conditions that the body leaves open
are closed. -/
def invoke (id : UnitId) : Exec Unit := do
  let s ← session
  let u ← ofExcept (s.getUnit id)
  match s.currentGroup? with
  | none => fail (.refused (.invokedOutsideGroup u.name))
  | some group =>
    update fun s => (s.modifyUnit id (·.bind group)).modifyGroup group (·.addMember id)
    let depth := s.scopes.guards.depth
    update ({ · with guardFloor := depth })
    let result ← settle <|
      within .unit (fun c => { c with units := c.units.enter id }) (runBody call u.body)
    let opened := (← session).scopes.guards.depth - depth
    update fun t => { t with
      guardFloor := s.guardFloor
      scopes := { t.scopes with guards := t.scopes.guards.unwindTo depth } }
    ofExcept result
    if 0 < opened then fail (.danglingGuard u.name opened)

/-- Resolves the references of a member, adds the constraints of the instance and invokes it. -/
def invokeMember (runbook : Runbook) (inst : Instance) (id : UnitId) : Exec Unit := do
  let u ← query (·.getUnit id)
  let before ← ofExcept (runbook.resolve u.name u.before)
  let after ← ofExcept (runbook.resolve u.name u.after)
  let before := before.insertAll (inst.before.toList.map .unit)
  let after := after.insertAll (inst.after.toList.map .unit)
  update (·.modifyUnit id ({ · with before, after }))
  invoke call id

def populate (runbook : Runbook) (inst : Instance) : Exec Unit := do
  if let some setup := runbook.setup then call setup
  runbook.members.values.forM (invokeMember call runbook inst)

/-- Runs a runbook under a copy of the active host group. Its members are bound by the constraints
of the instance around it, and follow the active unit. -/
def instantiate (id : RunbookId) (vars : Attributes) : Exec InstanceId := do
  let s ← session
  let runbook ← ofExcept (s.getRunbook id)
  match s.currentGroup? with
  | none => fail (.refused (.instantiatedOutsideGroup runbook.name))
  | some parent =>
    let group ← perform (·.copyGroup parent)
    update (·.modifyGroup group ({ · with vars }))
    let outer := s.currentInstance?.bind s.instance?
    let before := (outer.map Instance.before).getD .empty
    let after := (outer.map Instance.after).getD .empty
    let after := after.insertAll s.currentUnit?.toList
    let inst : Instance := { id := ⟨s.instances.length⟩, runbook := id, group, vars, before, after }
    update fun s => { s with instances := s.instances ++ [inst] }
    within .runbook (fun c => { c with runbooks := c.runbooks.enter inst.id }) <|
      inGroup group (populate call runbook inst)
    return inst.id

/-- Declares the unit that gathers facts, once, and turns the gathering of each play off. -/
def gatherFacts (p : FactGathering) : Exec FactGathering := do
  if p.unit.isSome then return p
  let unit ← apply (·.declare (.new FactGathering.unitName (.step "setup" (.text ""))))
  withHosts (some p.hosts) (.ofList [("become", .bool p.becomeRoot)]) (invoke call unit)
  update fun s => { s with groups := s.groups.map (·.setSetting "gather_facts" (.bool false)) }
  return { p with unit := some unit }

def runPass : Pass → Exec (Pass × Except Error Unit)
  | .facts p => do
    match ← settle (gatherFacts call p) with
    | .ok p => return (.facts p, .ok ())
    | .error e => return (.facts p, .error e)
  | .merging _ => do
    let removed ← apply Session.mergeBindings
    return (.merging ⟨removed⟩, .ok ())
  | .idle => return (.idle, .ok ())
  | .scripted p => do
    let result ← settle (call p.block)
    let known := (← session).units.map WorkUnit.id
    return (.scripted { p with known }, result)

/-- Runs passes in order up to the first that fails; those after it stay as they are. -/
def runPasses : List Pass → Exec (List Pass × Except Error Unit)
  | [] => return ([], .ok ())
  | p :: ps => do
    let (p, result) ← runPass call p
    match result with
    | .error e => return (p :: ps, .error e)
    | .ok () =>
      let (ps, result) ← runPasses ps
      return (p :: ps, result)

/-- Runs the pipeline, builds the graph and lets the pipeline refine it. The pipeline is out of the
session meanwhile, and back in it afterwards in any case. -/
def buildGraph : Exec (Graph UnitId) := do
  let s ← session
  if !s.scopes.guards.isEmpty then fail (.refused (.openGuards s.scopes.guards.depth))
  update ({ · with passes := [] })
  let (passes, result) ← inSession (runPasses call s.passes)
  let graph ← settle do
    ofExcept result
    let s ← session
    let g ← ofExcept s.dependencyGraph
    ofExcept (passes.foldlM (Pass.refine s) g)
  update ({ · with passes })
  ofExcept graph

def plan : Exec Plan := do
  let g ← buildGraph call
  query (·.planOf g)

def repeatFacts : Nat → FactGathering → Exec FactGathering
  | 0, p => pure p
  | n + 1, p => do repeatFacts n (← gatherFacts call p)

def anchored (p : FactGathering) : Exec (Graph UnitId) := do
  let s ← session
  let g ← ofExcept s.dependencyGraph
  ofExcept ((Pass.facts p).refine s g)

def tryFacts (t : FactTrial) : Exec Answer := do
  let p ← ofExcept (FactGathering.ofSettings t.settings)
  let early ← if t.early then anchored p else pure .empty
  let p ← repeatFacts call t.times p
  let graph ← if t.late then anchored p else pure early
  let s ← session
  return .factTrial (p.unit.map fun id => (id, s.unitName id)) (.of s graph)

def planAnswer : PlanForm → Plan → Except Error Answer
  | .plays, p => .ok (.plan p)
  | .outline, p => .ok (.outline (p.plays.map fun q => (q.name, q.hosts, q.steps.length)))
  | .yaml, p => (Answer.text ∘ some) <$> p.toYaml
  | .json, p => (Answer.text ∘ some) <$> p.toJson

def script (d : Declaration Block) : Declaration Body := d.withBody (.script d.body)

def step : Stmt → Exec Answer
  | .declare d => .declaredUnit <$> apply (·.declare (script d))
  | .runbook name members setup =>
    .declaredRunbook <$> perform (·.declareRunbook name setup (members.map script))
  | .hosts pattern settings => .declaredGroup <$> perform (·.declareHosts pattern settings)
  | .setSetting group key value => do
    discard (query (·.getGroup group))
    update (·.modifyGroup group (·.setSetting key value))
    return .done
  | .setVar group key value => do
    discard (query (·.getGroup group))
    update (·.modifyGroup group (·.setVar key value))
    return .done
  | .addBefore unit ref => do
    discard (query (·.getUnit unit))
    update (·.modifyUnit unit (·.addBefore ref))
    return .done
  | .addAfter unit ref => do
    discard (query (·.getUnit unit))
    update (·.modifyUnit unit (·.addAfter ref))
    return .done
  | .enter block => do
    inSession (call block)
    return .left .session
  | .enterHosts group block => do
    inGroup group (call block)
    return .left .hostGroup
  | .withHosts pattern settings block =>
    withHosts pattern settings do
      call block
      return .activeGroup (← session).currentGroup?
  | .when condition block => do
    underGuard condition (call block)
    return .left .guard
  | .openGuard condition => do
    update (·.openGuard condition)
    return .done
  | .closeGuard => (Answer.text ∘ some) <$> closeGuard
  | .invoke unit => do
    invoke call unit
    return .done
  | .instantiate runbook vars => .instantiated <$> instantiate call runbook vars
  | .step action args count edits => .recorded <$> recordSteps action args count edits
  | .getFile source args edits => do
    let (action, args) ← query (·.fileStep source args)
    .delivered action <$> recordStep action args edits
  | .varStep action name edits => do
    let value := (← session).var? name
    (Answer.recorded ∘ some) <$> recordStep action (value.getD .null) edits
  | .patternStep action edits => do
    let s ← session
    let group := s.currentGroup?.bind s.group?
    let value := (group.map fun g => Value.text g.pattern).getD .null
    (Answer.recorded ∘ some) <$> recordStep action value edits
  | .fail error => fail error
  | .attempt block => do
    match ← settle (call block) with
    | .ok () => return .caught none
    | .error e => return .caught (some e)
  | .ifInvokedLess unit times block => do
    let invocations := (((← session).unit? unit).map WorkUnit.invocations).getD 0
    let holds := decide (invocations < times)
    if holds then call block
    return .flag holds
  | .ifVar name value block => do
    let holds := ((← session).var? name).any (·.same value)
    if holds then call block
    return .flag holds
  | .ask q => query (·.answer q)
  | .buildGraph => do
    let g ← buildGraph call
    return .graph (.of (← session) g)
  | .merge => .count <$> apply Session.mergeBindings
  | .gatherFacts trial => tryFacts call trial
  | .plan form => do
    let p ← plan call
    ofExcept (planAnswer form p)

def runBlock : Block → Exec Unit
  | [] => pure ()
  | t :: ts => do
    note t (step call t)
    runBlock ts

/-- Runs every statement, whether or not those before it failed. -/
def runAll : Block → Exec Unit
  | [] => pure ()
  | t :: ts => do
    discard (settle (note t (step call t)))
    runAll ts

end Exec

/-- Runs a block whose nesting, through calls of units too, stays within a bound. -/
def runWithin : Nat → Block → Exec Unit
  | 0, _ => throw .exhausted
  | bound + 1, block => Exec.runBlock (runWithin bound) block

structure Transcript where
  entries : List Entry
  halt : Option Halt

/-- Runs a script as a whole. An error ends the statement that it occurs in, a fault ends the
script. -/
def Session.run (s : Session) (bound : Nat) (script : Block) : Transcript :=
  match (Exec.runAll (runWithin bound) script).run ⟨s, []⟩ with
  | .ok _ r => ⟨r.journal.reverse, none⟩
  | .error h r => ⟨r.journal.reverse, some h⟩

end Playbook
