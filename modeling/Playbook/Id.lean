/-! Handles of what a session declares. Each kind is numbered from zero in order of declaration. -/

namespace Playbook

structure UnitId where
  index : Nat
deriving DecidableEq, Inhabited

structure GroupId where
  index : Nat
deriving DecidableEq, Inhabited

structure RunbookId where
  index : Nat
deriving DecidableEq, Inhabited

structure InstanceId where
  index : Nat
deriving DecidableEq, Inhabited

structure SessionId where
  index : Nat
deriving DecidableEq, Inhabited

def UnitId.text (id : UnitId) : String := "runnable#" ++ toString id.index

def GroupId.text (id : GroupId) : String := "hosts#" ++ toString id.index

def RunbookId.text (id : RunbookId) : String := "RunbookId(" ++ toString id.index ++ ")"

def InstanceId.text (id : InstanceId) : String := toString id.index

def SessionId.text (id : SessionId) : String := "session-" ++ toString id.index

/-- A unit that an ordering constraint refers to, by its handle or by the name of a sibling in the
same runbook. -/
inductive UnitRef where
  | unit (id : UnitId)
  | named (name : String)
deriving DecidableEq, Inhabited

def UnitRef.text : UnitRef → String
  | .unit id => id.text
  | .named name => "'" ++ name ++ "'"

end Playbook
