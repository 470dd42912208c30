import Playbook.WorkUnit

/-! Runbooks: units declared together, and the instances in which they run. -/

namespace Playbook

structure Runbook where
  id : RunbookId
  name : String
  setup : Option Block
  members : OrderedMap String UnitId
deriving Inhabited

namespace Runbook

def qualified (runbook member : String) : String := runbook ++ "." ++ member

def repeated? : List String → List String → Option String
  | _, [] => none
  | seen, n :: l => if n ∈ seen then some n else repeated? (n :: seen) l

def resolveRef (r : Runbook) (unit : String) : UnitRef → Except Error UnitRef
  | .unit id => .ok (.unit id)
  | .named name =>
    match r.members.get? name with
    | some id => .ok (.unit id)
    | none => .error (.unresolved r.name unit name)

/-- Every name replaced by the sibling that bears it. -/
def resolve (r : Runbook) (unit : String) (refs : OrderedSet UnitRef) :
    Except Error (OrderedSet UnitRef) :=
  .ofList <$> refs.toList.mapM (r.resolveRef unit)

def summary (r : Runbook) : String :=
  let member (e : String × UnitId) := Text.quoted e.1 ++ ": " ++ WorkUnit.unitIdSummary e.2
  "RunbookDef \x7b id: " ++ r.id.text ++ ", name: " ++ Text.quoted r.name ++ ", members: \x7b" ++
    ", ".intercalate (r.members.entries.map member) ++ "\x7d, .. \x7d"

end Runbook

/-- One use of a runbook, under a host group of its own. -/
structure Instance where
  id : InstanceId
  runbook : RunbookId
  group : GroupId
  vars : Attributes
  before : OrderedSet UnitId
  after : OrderedSet UnitId
deriving Inhabited

end Playbook
