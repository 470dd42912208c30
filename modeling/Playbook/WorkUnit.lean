import Playbook.Ordered.Set
import Playbook.Script

/-! Declared work units: a body, what its invocations recorded, and ordering constraints. -/

namespace Playbook

structure WorkUnit where
  id : UnitId
  name : String
  body : Body
  groups : List GroupId
  steps : List Step
  before : OrderedSet UnitRef
  after : OrderedSet UnitRef
  stepSettings : Attributes
  playSettings : Attributes
  vars : Attributes
  invocations : Nat
deriving Inhabited

namespace WorkUnit

def ofDeclaration (id : UnitId) (name : String) (d : Declaration Body) : WorkUnit where
  id
  name
  body := d.body
  groups := []
  steps := []
  before := .ofList d.before
  after := .ofList d.after
  stepSettings := d.stepSettings
  playSettings := d.playSettings
  vars := d.vars
  invocations := 0

def lastSegment (name : String) : String :=
  String.ofList (name.toList.reverse.takeWhile (· ≠ '.')).reverse

def qualifier? (name : String) : Option String :=
  match name.toList.reverse.dropWhile (· ≠ '.') with
  | [] => none
  | _ :: r => some (String.ofList r.reverse)

/-- The name without the runbook: the default tag of the unit's steps. -/
def shortName (u : WorkUnit) : String := lastSegment u.name

def stepsFor (u : WorkUnit) (group : GroupId) : List Step :=
  u.steps.filter fun s => s.group = some group

def bind (u : WorkUnit) (group : GroupId) : WorkUnit :=
  { u with groups := u.groups ++ [group], invocations := u.invocations + 1 }

def record (u : WorkUnit) (s : Step) : WorkUnit := { u with steps := u.steps ++ [s] }

def addBefore (u : WorkUnit) (ref : UnitRef) : WorkUnit := { u with before := u.before.insert ref }

def addAfter (u : WorkUnit) (ref : UnitRef) : WorkUnit := { u with after := u.after.insert ref }

def unitIdSummary (id : UnitId) : String := "RunnableId(" ++ toString id.index ++ ")"

def refSummary : UnitRef → String
  | .unit id => "Unit(" ++ unitIdSummary id ++ ")"
  | .named name => "Named(" ++ Text.quoted name ++ ")"

def refsSummary (refs : List UnitRef) : String := ", ".intercalate (refs.map refSummary)

def summary (u : WorkUnit) : String :=
  let groups := u.groups.map fun g => "HostGroupId(" ++ toString g.index ++ ")"
  "Runnable \x7b id: " ++ unitIdSummary u.id ++ ", name: " ++ Text.quoted u.name ++
    ", host_groups: [" ++ ", ".intercalate groups ++ "], tasks: " ++ toString u.steps.length ++
    ", before: \x7b" ++ refsSummary u.before.toList ++ "\x7d, after: \x7b" ++
    refsSummary u.after.toList ++ "\x7d, .. \x7d"

end WorkUnit

def Declaration.summary {β : Type} (d : Declaration β) : String :=
  "RunnableDecl \x7b name: " ++ Text.quoted d.name ++ ", before: [" ++
    WorkUnit.refsSummary d.before ++ "], after: [" ++ WorkUnit.refsSummary d.after ++ "], .. \x7d"

end Playbook
