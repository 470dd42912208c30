import Playbook.Proofs.Session.Invocation

/-! Runs in which entries are looked up by their handles without a check, as one looks something up
by its place in a list, where the checks have been made before or are thought to be needless. What
such a lookup gives if there is nothing at the place is left open: the run stops there, for whatever
reason one likes. Otherwise such a run is a run like any other. -/

namespace Playbook
namespace Indexed
open Exec

variable (panic : Halt)

def index {α : Type} : Option α → Exec α
  | some a => pure a
  | none => throw panic

/-- The unit is looked up for its tags and once more for its steps, of which the last is taken. -/
def recordStep (action : String) (args : Value) (edits : List StepEdit) :
    Exec (String × String) := do
  let s ← session
  match s.currentUnit? with
  | none => fail (.refused (.stepOutsideUnit action))
  | some id =>
    let u ← index panic (s.unit? id)
    let step := edits.foldl Step.edit (s.freshStep u action args)
    update fun s => { s.modifyUnit id (·.record step) with nextRegister := s.nextRegister + 1 }
    let u ← index panic ((← session).unit? id)
    let last ← index panic u.steps[u.steps.length - 1]?
    return (last.register, last.label)

def recordSteps (action : String) (args : Value) (count : Nat) (edits : List StepEdit) :
    Exec (Option (String × String)) :=
  (List.range count).foldlM (fun _ _ => some <$> recordStep panic action args edits) none

variable (call : Block → Exec Unit)

def runBody : Body → Exec Unit
  | .script block => call block
  | .step action args => discard (recordStep panic action args [])

def bindUnit (id : UnitId) (group : GroupId) : Exec Unit := do
  discard (index panic ((← session).unit? id))
  update (·.modifyUnit id (·.bind group))
  discard (index panic ((← session).group? group))
  update (·.modifyGroup group (·.addMember id))

def invoke (id : UnitId) : Exec Unit := do
  let s ← session
  let u ← ofExcept (s.getUnit id)
  match s.currentGroup? with
  | none => fail (.refused (.invokedOutsideGroup u.name))
  | some group =>
    bindUnit panic id group
    let depth := s.scopes.guards.depth
    update ({ · with guardFloor := depth })
    let result ← settle <|
      within .unit (fun c => { c with units := c.units.enter id }) (runBody panic call u.body)
    let opened := (← session).scopes.guards.depth - depth
    update fun t => { t with
      guardFloor := s.guardFloor
      scopes := { t.scopes with guards := t.scopes.guards.unwindTo depth } }
    ofExcept result
    if 0 < opened then fail (.danglingGuard u.name opened)

/-- Runbook and member are looked up for each member anew. -/
def invokeMember (inst : Instance) (id : UnitId) : Exec Unit := do
  let runbook ← index panic ((← session).runbook? inst.runbook)
  let u ← index panic ((← session).unit? id)
  let before ← ofExcept (runbook.resolve u.name u.before)
  let after ← ofExcept (runbook.resolve u.name u.after)
  let before := before.insertAll (inst.before.toList.map .unit)
  let after := after.insertAll (inst.after.toList.map .unit)
  discard (index panic ((← session).unit? id))
  update (·.modifyUnit id ({ · with before, after }))
  invoke panic call id

def populate (id : InstanceId) : Exec Unit := do
  let inst ← index panic ((← session).instance? id)
  let runbook ← index panic ((← session).runbook? inst.runbook)
  if let some setup := runbook.setup then call setup
  runbook.members.values.forM (invokeMember panic call inst)

def outer : Exec (Option Instance) := do
  let s ← session
  match s.currentInstance? with
  | some id => some <$> index panic (s.instance? id)
  | none => return none

def instantiate (id : RunbookId) (vars : Attributes) : Exec InstanceId := do
  let s ← session
  let runbook ← ofExcept (s.getRunbook id)
  match s.currentGroup? with
  | none => fail (.refused (.instantiatedOutsideGroup runbook.name))
  | some parent =>
    let group ← perform (·.copyGroup parent)
    discard (index panic ((← session).group? group))
    update (·.modifyGroup group ({ · with vars }))
    let outer ← outer panic
    let s ← session
    let before := (outer.map Instance.before).getD .empty
    let after := (outer.map Instance.after).getD .empty
    let after := after.insertAll s.currentUnit?.toList
    let inst : Instance := { id := ⟨s.instances.length⟩, runbook := id, group, vars, before, after }
    update fun s => { s with instances := s.instances ++ [inst] }
    within .runbook (fun c => { c with runbooks := c.runbooks.enter inst.id }) <|
      inGroup group (populate panic call inst.id)
    return inst.id

def gatherFacts (p : FactGathering) : Exec FactGathering := do
  if p.unit.isSome then return p
  let unit ← apply (·.declare (.new FactGathering.unitName (.step "setup" (.text ""))))
  withHosts (some p.hosts) (.ofList [("become", .bool p.becomeRoot)]) (invoke panic call unit)
  update fun s => { s with groups := s.groups.map (·.setSetting "gather_facts" (.bool false)) }
  return { p with unit := some unit }

def runPass : Pass → Exec (Pass × Except Error Unit)
  | .facts p => do
    match ← settle (gatherFacts panic call p) with
    | .ok p => return (.facts p, .ok ())
    | .error e => return (.facts p, .error e)
  | p => Exec.runPass call p

def runPasses : List Pass → Exec (List Pass × Except Error Unit)
  | [] => return ([], .ok ())
  | p :: ps => do
    let (p, result) ← runPass panic call p
    match result with
    | .error e => return (p :: ps, .error e)
    | .ok () =>
      let (ps, result) ← runPasses ps
      return (p :: ps, result)

def buildGraph : Exec (Graph UnitId) := do
  let s ← session
  if !s.scopes.guards.isEmpty then fail (.refused (.openGuards s.scopes.guards.depth))
  update ({ · with passes := [] })
  let (passes, result) ← inSession (runPasses panic call s.passes)
  let graph ← settle do
    ofExcept result
    let s ← session
    let g ← ofExcept s.dependencyGraph
    ofExcept (passes.foldlM (Pass.refine s) g)
  update ({ · with passes })
  ofExcept graph

def plan : Exec Plan := do
  let g ← buildGraph panic call
  query (·.planOf g)

def repeatFacts : Nat → FactGathering → Exec FactGathering
  | 0, p => pure p
  | n + 1, p => do repeatFacts n (← gatherFacts panic call p)

def tryFacts (t : FactTrial) : Exec Answer := do
  let p ← ofExcept (FactGathering.ofSettings t.settings)
  let early ← if t.early then anchored p else pure .empty
  let p ← repeatFacts panic call t.times p
  let graph ← if t.late then anchored p else pure early
  let s ← session
  return .factTrial (p.unit.map fun id => (id, s.unitName id)) (.of s graph)

def step : Stmt → Exec Answer
  | .invoke unit => do
    invoke panic call unit
    return .done
  | .instantiate runbook vars => .instantiated <$> instantiate panic call runbook vars
  | .step action args count edits => .recorded <$> recordSteps panic action args count edits
  | .getFile source args edits => do
    let (action, args) ← query (·.fileStep source args)
    .delivered action <$> recordStep panic action args edits
  | .varStep action name edits => do
    let value := (← session).var? name
    (Answer.recorded ∘ some) <$> recordStep panic action (value.getD .null) edits
  | .patternStep action edits => do
    let s ← session
    let group := s.currentGroup?.bind s.group?
    let value := (group.map fun g => Value.text g.pattern).getD .null
    (Answer.recorded ∘ some) <$> recordStep panic action value edits
  | .buildGraph => do
    let g ← buildGraph panic call
    return .graph (.of (← session) g)
  | .gatherFacts trial => tryFacts panic call trial
  | .plan form => do
    let p ← plan panic call
    ofExcept (planAnswer form p)
  | t => Exec.step call t

def runBlock : Block → Exec Unit
  | [] => pure ()
  | t :: ts => do
    note t (step panic call t)
    runBlock ts

def runAll : Block → Exec Unit
  | [] => pure ()
  | t :: ts => do
    discard (settle (note t (step panic call t)))
    runAll ts

def runWithin : Nat → Block → Exec Unit
  | 0, _ => throw .exhausted
  | bound + 1, block => runBlock panic (runWithin bound) block

def run (s : Session) (bound : Nat) (script : Block) : Transcript :=
  match (runAll panic (runWithin panic bound) script).run ⟨s, []⟩ with
  | .ok _ r => ⟨r.journal.reverse, none⟩
  | .error h r => ⟨r.journal.reverse, some h⟩

end Indexed
end Playbook
