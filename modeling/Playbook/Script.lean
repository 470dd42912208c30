import Playbook.Error
import Playbook.Step

/-! Scripts: what authors write to declare and run work units, as data. -/

namespace Playbook

/-- A work unit before it is registered, with a body of type `β`. -/
structure Declaration (β : Type) where
  name : String
  body : β
  before : List UnitRef
  after : List UnitRef
  stepSettings : Attributes
  playSettings : Attributes
  vars : Attributes

namespace Declaration
variable {β γ : Type}

def new (name : String) (body : β) : Declaration β :=
  ⟨name, body, [], [], .empty, .empty, .empty⟩

def withBody (d : Declaration β) (body : γ) : Declaration γ := { d with body }

/-- Tags for every step of the unit, in place of the unit's own name. -/
def addTags (d : Declaration β) (tags : List String) : Declaration β :=
  { d with stepSettings := d.stepSettings.insert "tags" (.texts tags) }

def addStepSettings (d : Declaration β) (settings : List (String × Value)) : Declaration β :=
  { d with stepSettings := d.stepSettings.insertAll settings }

end Declaration

inductive Query where
  | var (name : String)
  | context
  | member (runbook : RunbookId) (name : String)
  | sameKey (a b : GroupId)
  | stepsFor (unit : UnitId) (group : GroupId)
  | rendered (unit : UnitId) (index : Nat) (defaults : Attributes)
  | passNames
  | settings
  | reference (ref : UnitRef)
  | unitSummary (unit : UnitId)
  | runbookSummary (runbook : RunbookId)
  | declarationSummary (unit : Declaration Unit)
  | unit (unit : UnitId)
  | group (group : GroupId)
  | inventory
  | dependencyGraph

inductive PlanForm where
  | plays
  | outline
  | yaml
  | json
deriving DecidableEq

structure FactTrial where
  settings : Attributes
  times : Nat
  early : Bool
  late : Bool

inductive Stmt where
  | declare (unit : Declaration (List Stmt))
  | runbook (name : String) (members : List (Declaration (List Stmt))) (setup : Option (List Stmt))
  | hosts (pattern : Option String) (settings : Attributes)
  | setSetting (group : GroupId) (key : String) (value : Value)
  | setVar (group : GroupId) (key : String) (value : Value)
  | addBefore (unit : UnitId) (ref : UnitRef)
  | addAfter (unit : UnitId) (ref : UnitRef)
  | enter (block : List Stmt)
  | enterHosts (group : GroupId) (block : List Stmt)
  | withHosts (pattern : Option String) (settings : Attributes) (block : List Stmt)
  | when (condition : String) (block : List Stmt)
  | openGuard (condition : String)
  | closeGuard
  | invoke (unit : UnitId)
  | instantiate (runbook : RunbookId) (vars : Attributes)
  | step (action : String) (args : Value) (count : Nat) (edits : List StepEdit)
  | getFile (source : String) (args : Value) (edits : List StepEdit)
  /-- A step whose argument is a variable of the active runbook instance. -/
  | varStep (action : String) (name : String) (edits : List StepEdit)
  | patternStep (action : String) (edits : List StepEdit)
  | fail (error : Error)
  | attempt (block : List Stmt)
  | ifInvokedLess (unit : UnitId) (times : Nat) (block : List Stmt)
  | ifVar (name : String) (value : Value) (block : List Stmt)
  | ask (query : Query)
  | buildGraph
  | merge
  | gatherFacts (trial : FactTrial)
  | plan (form : PlanForm)

abbrev Block := List Stmt

/-- What a unit does when it is invoked: run a script, or record one step. -/
inductive Body where
  | script (block : Block)
  | step (action : String) (args : Value)

instance : Inhabited Body := ⟨.script []⟩

end Playbook
