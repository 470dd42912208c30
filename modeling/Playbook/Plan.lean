import Playbook.HostGroup
import Playbook.WorkUnit
import Playbook.Yaml.Printer

/-! Plans: the plays of a session in the order in which the engine runs them. -/

namespace Playbook

/-- The steps of one unit for one host group. -/
structure Play where
  name : String
  hosts : String
  settings : Attributes
  vars : Attributes
  steps : List Attributes
deriving Inhabited

namespace Play

/-- The keys that a play sets itself; a setting of such a name is dropped. -/
def reserved : List String := ["name", "hosts", "vars", "tasks"]

/-- The group's settings go over the unit's, and the unit's variables over the group's. -/
def of (group : HostGroup) (unit : WorkUnit) : Play where
  name := unit.name
  hosts := group.pattern
  settings := (unit.playSettings.overlay group.settings).filterKeys (· ∉ reserved)
  vars := group.vars.overlay unit.vars
  steps := (unit.stepsFor group.id).map (·.render unit.stepSettings)

def fields (p : Play) : List (String × Value) :=
  [("name", .text p.name), ("hosts", .text p.hosts)] ++ p.settings.entries ++
    [("vars", p.vars.toValue), ("tasks", .sequence (p.steps.map Attributes.toValue))]

def toValue (p : Play) : Value := .mapping (p.fields.map fun f => (.text f.1, f.2))

end Play

structure Plan where
  plays : List Play
deriving Inhabited

namespace Plan

def toValue (p : Plan) : Value := .sequence (p.plays.map Play.toValue)

def toYaml (p : Plan) : Except Error String :=
  (Yaml.document p.toValue).mapError fun e => .notSerialized e.message

def toJson (p : Plan) : Except Error String :=
  ((Json.ofValue p.toValue).map (Json.pretty 0)).mapError fun e => .notSerialized e.message

end Plan
end Playbook
