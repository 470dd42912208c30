import Playbook.Proofs.Session.Invocation

/-! Scripts read without stacks. Each statement is given its surroundings: the unit, the host group
and the runbook instance nearest to it, and the conditions of all blocks around it. They are handed
down to nested blocks and to the units, runbooks and passes that run there, and nothing is ever
restored. A script can be read in this way if it opens conditions for blocks only. -/

namespace Playbook

mutual

/-- In the statement and in all scripts within it, each condition is opened for a block. -/
def Stmt.structured : Stmt → Bool
  | .openGuard _ | .closeGuard => false
  | .declare d => structuredUnit d
  | .runbook _ members setup => structuredUnits members && structuredHook setup
  | .enter block | .enterHosts _ block | .withHosts _ _ block | .when _ block | .attempt block |
    .ifInvokedLess _ _ block | .ifVar _ _ block => structuredBlock block
  | _ => true

def structuredBlock : List Stmt → Bool
  | [] => true
  | t :: ts => t.structured && structuredBlock ts

def structuredUnit : Declaration (List Stmt) → Bool
  | ⟨_, body, _, _, _, _, _⟩ => structuredBlock body

def structuredUnits : List (Declaration (List Stmt)) → Bool
  | [] => true
  | d :: ds => structuredUnit d && structuredUnits ds

def structuredHook : Option (List Stmt) → Bool
  | none => true
  | some block => structuredBlock block

end

def Body.structured : Body → Bool
  | .script block => structuredBlock block
  | .step .. => true

def Pass.structured : Pass → Bool
  | .scripted p => structuredBlock p.block
  | _ => true

structure Session.Structured (s : Session) : Prop where
  bodies : ∀ u ∈ s.units, u.body.structured
  hooks : ∀ r ∈ s.runbooks, structuredHook r.setup
  passes : ∀ p ∈ s.passes, p.structured

/-- What a statement stands in. Of the conditions the outermost comes first. -/
structure Surroundings where
  active : Bool
  group : Option GroupId
  unit : Option UnitId
  inst : Option InstanceId
  conditions : List String
deriving DecidableEq

def Scopes.surroundings (c : Scopes) : Surroundings where
  active := !c.sessions.isEmpty
  group := c.hostGroups.current?
  unit := c.units.current?
  inst := c.runbooks.current?
  conditions := c.guards.toList

def Session.bare (s : Session) : Session := { s with scopes := .empty, guardFloor := 0 }

namespace Surroundings
variable (env : Surroundings) (s : Session)

def var? (name : String) : Option Value := do
  (← s.instance? (← env.inst)).vars.get? name

def context : Context where
  active := env.active
  group := env.group
  unit := env.unit
  inst := env.inst
  guards := env.conditions
  unwound := !env.active && env.group.isNone && env.inst.isNone && env.unit.isNone &&
    env.conditions.isEmpty

def answer : Query → Except Error Answer
  | .var name => .ok (.value (env.var? s name))
  | .context => .ok (.context env.context)
  | q => s.answer q

def declareHosts (pattern : Option String) (settings : Attributes) :
    Except Error (GroupId × Session) :=
  if env.active then
    let entered := { s with scopes := { s.scopes with sessions := ⟨[s.id]⟩ } }
    (entered.declareHosts pattern settings).map fun p => (p.1, p.2.bare)
  else .error (.refused .hostsOutsideSession)

def copyGroup (source : GroupId) : Except Error (GroupId × Session) := do
  let g ← s.getGroup source
  env.declareHosts s (some g.pattern) g.settings

def recordStep (action : String) (args : Value) (edits : List StepEdit) :
    Except Error (Step × Session) :=
  match env.unit with
  | none => .error (.refused (.stepOutsideUnit action))
  | some id => do
    let u ← s.getUnit id
    let fresh := u.newStep (registerName s.nextRegister) env.group env.conditions action args
    let step := edits.foldl Step.edit fresh
    let s := s.modifyUnit id (·.record step)
    return (step, { s with nextRegister := s.nextRegister + 1 })

end Surroundings

namespace Lexical
open Exec
variable {α : Type} (env : Surroundings)

def inSession (act : Surroundings → Exec α) : Exec α := act { env with active := true }

def inGroup (id : GroupId) (act : Surroundings → Exec α) : Exec α := do
  discard (query (·.getGroup id))
  act { env with group := some id }

def withHosts (pattern : Option String) (settings : Attributes) (act : Surroundings → Exec α) :
    Exec α := do
  let id ← perform (env.declareHosts · pattern settings)
  inGroup env id act

def underGuard (condition : String) (act : Surroundings → Exec α) : Exec α :=
  act { env with conditions := env.conditions ++ [condition] }

def recordStep (action : String) (args : Value) (edits : List StepEdit) :
    Exec (String × String) := do
  let step ← perform (env.recordStep · action args edits)
  return (step.register, step.label)

def recordSteps (action : String) (args : Value) (count : Nat) (edits : List StepEdit) :
    Exec (Option (String × String)) :=
  (List.range count).foldlM (fun _ _ => some <$> recordStep env action args edits) none

variable (call : Surroundings → Block → Exec Unit)

def runBody : Body → Exec Unit
  | .script block => call env block
  | .step action args => discard (recordStep env action args [])

def invoke (id : UnitId) : Exec Unit := do
  let s ← session
  let u ← ofExcept (s.getUnit id)
  match env.group with
  | none => fail (.refused (.invokedOutsideGroup u.name))
  | some group =>
    update fun s => (s.modifyUnit id (·.bind group)).modifyGroup group (·.addMember id)
    runBody { env with unit := some id } call u.body

def invokeMember (runbook : Runbook) (inst : Instance) (id : UnitId) : Exec Unit := do
  let u ← query (·.getUnit id)
  let before ← ofExcept (runbook.resolve u.name u.before)
  let after ← ofExcept (runbook.resolve u.name u.after)
  let before := before.insertAll (inst.before.toList.map .unit)
  let after := after.insertAll (inst.after.toList.map .unit)
  update (·.modifyUnit id ({ · with before, after }))
  invoke env call id

def populate (runbook : Runbook) (inst : Instance) : Exec Unit := do
  if let some setup := runbook.setup then call env setup
  runbook.members.values.forM (invokeMember env call runbook inst)

/-- Runs a runbook under a copy of the host group around, bound by the constraints of the instance
around and after the unit around. -/
def instantiate (id : RunbookId) (vars : Attributes) : Exec InstanceId := do
  let s ← session
  let runbook ← ofExcept (s.getRunbook id)
  match env.group with
  | none => fail (.refused (.instantiatedOutsideGroup runbook.name))
  | some parent =>
    let group ← perform (env.copyGroup · parent)
    update (·.modifyGroup group ({ · with vars }))
    let outer := env.inst.bind s.instance?
    let before := (outer.map Instance.before).getD .empty
    let after := (outer.map Instance.after).getD .empty
    let after := after.insertAll env.unit.toList
    let inst : Instance := { id := ⟨s.instances.length⟩, runbook := id, group, vars, before, after }
    update fun s => { s with instances := s.instances ++ [inst] }
    inGroup { env with inst := some inst.id } group (populate · call runbook inst)
    return inst.id

def gatherFacts (p : FactGathering) : Exec FactGathering := do
  if p.unit.isSome then return p
  let unit ← apply (·.declare (.new FactGathering.unitName (.step "setup" (.text ""))))
  withHosts env (some p.hosts) (.ofList [("become", .bool p.becomeRoot)]) (invoke · call unit)
  update fun s => { s with groups := s.groups.map (·.setSetting "gather_facts" (.bool false)) }
  return { p with unit := some unit }

def runPass : Pass → Exec (Pass × Except Error Unit)
  | .facts p => do
    match ← settle (gatherFacts env call p) with
    | .ok p => return (.facts p, .ok ())
    | .error e => return (.facts p, .error e)
  | p => Exec.runPass (call env) p

def runPasses : List Pass → Exec (List Pass × Except Error Unit)
  | [] => return ([], .ok ())
  | p :: ps => do
    let (p, result) ← runPass env call p
    match result with
    | .error e => return (p :: ps, .error e)
    | .ok () =>
      let (ps, result) ← runPasses ps
      return (p :: ps, result)

def buildGraph : Exec (Graph UnitId) := do
  let s ← session
  if !env.conditions.isEmpty then fail (.refused (.openGuards env.conditions.length))
  update ({ · with passes := [] })
  let (passes, result) ← inSession env (runPasses · call s.passes)
  let graph ← settle do
    ofExcept result
    let s ← session
    let g ← ofExcept s.dependencyGraph
    ofExcept (passes.foldlM (Pass.refine s) g)
  update ({ · with passes })
  ofExcept graph

def plan : Exec Plan := do
  let g ← buildGraph env call
  query (·.planOf g)

def repeatFacts : Nat → FactGathering → Exec FactGathering
  | 0, p => pure p
  | n + 1, p => do repeatFacts n (← gatherFacts env call p)

def tryFacts (t : FactTrial) : Exec Answer := do
  let p ← ofExcept (FactGathering.ofSettings t.settings)
  let early ← if t.early then anchored p else pure .empty
  let p ← repeatFacts env call t.times p
  let graph ← if t.late then anchored p else pure early
  let s ← session
  return .factTrial (p.unit.map fun id => (id, s.unitName id)) (.of s graph)

def step : Stmt → Exec Answer
  | .hosts pattern settings => .declaredGroup <$> perform (env.declareHosts · pattern settings)
  | .enter block => do
    inSession env (call · block)
    return .left .session
  | .enterHosts group block => do
    inGroup env group (call · block)
    return .left .hostGroup
  | .withHosts pattern settings block =>
    withHosts env pattern settings fun inner => do
      call inner block
      return .activeGroup inner.group
  | .when condition block => do
    underGuard env condition (call · block)
    return .left .guard
  | .invoke unit => do
    invoke env call unit
    return .done
  | .instantiate runbook vars => .instantiated <$> instantiate env call runbook vars
  | .step action args count edits => .recorded <$> recordSteps env action args count edits
  | .getFile source args edits => do
    let (action, args) ← query (·.fileStep source args)
    .delivered action <$> recordStep env action args edits
  | .varStep action name edits => do
    let value := env.var? (← session) name
    (Answer.recorded ∘ some) <$> recordStep env action (value.getD .null) edits
  | .patternStep action edits => do
    let s ← session
    let group := env.group.bind s.group?
    let value := (group.map fun g => Value.text g.pattern).getD .null
    (Answer.recorded ∘ some) <$> recordStep env action value edits
  | .ifVar name value block => do
    let holds := (env.var? (← session) name).any (·.same value)
    if holds then call env block
    return .flag holds
  | .ask q => query (env.answer · q)
  | .buildGraph => do
    let g ← buildGraph env call
    return .graph (.of (← session) g)
  | .gatherFacts trial => tryFacts env call trial
  | .plan form => do
    let p ← plan env call
    ofExcept (planAnswer form p)
  | t => Exec.step (call env) t

def runBlock : Block → Exec Unit
  | [] => pure ()
  | t :: ts => do
    note t (step env call t)
    runBlock ts

def runAll : Block → Exec Unit
  | [] => pure ()
  | t :: ts => do
    discard (settle (note t (step env call t)))
    runAll ts

def runWithin : Nat → Surroundings → Block → Exec Unit
  | 0, _, _ => throw .exhausted
  | bound + 1, env, block => runBlock env (runWithin bound) block

/-- Runs a script in given surroundings, as `Session.run` does with the scopes of the session. -/
def run (s : Session) (bound : Nat) (script : Block) : Transcript :=
  match (runAll env (runWithin bound) script).run ⟨s, []⟩ with
  | .ok _ r => ⟨r.journal.reverse, none⟩
  | .error h r => ⟨r.journal.reverse, some h⟩

end Lexical
end Playbook
