import Playbook.Session.Schedule

/-! What statements and queries answer, and the journal that keeps the answers. -/

namespace Playbook

structure Context where
  active : Bool
  group : Option GroupId
  unit : Option UnitId
  inst : Option InstanceId
  guards : List String
  unwound : Bool

inductive Answer where
  | done
  | declaredUnit (id : UnitId)
  | declaredGroup (id : GroupId)
  | declaredRunbook (id : RunbookId)
  | instantiated (id : InstanceId)
  | activeGroup (id : Option GroupId)
  | left (kind : ScopeKind)
  | text (text : Option String)
  | texts (texts : List String)
  | flag (b : Bool)
  | count (n : Nat)
  | value (value : Option Value)
  | recorded (step : Option (String × String))
  | delivered (action : String) (step : String × String)
  | caught (error : Option Error)
  | context (context : Context)
  | attributes (attributes : Option Attributes)
  | settings (settings : Settings)
  | unit (unit : Option WorkUnit)
  | group (group : Option HostGroup)
  | inventory (units : List WorkUnit) (groups : List HostGroup) (runbooks : List Runbook)
      (instances : List Instance)
  | graph (graph : UnitGraph)
  | factTrial (unit : Option (UnitId × String)) (graph : UnitGraph)
  | plan (plan : Plan)
  | outline (plays : List (String × String × Nat))

namespace Session

def context (s : Session) : Context where
  active := s.isActive
  group := s.currentGroup?
  unit := s.currentUnit?
  inst := s.currentInstance?
  guards := s.scopes.guards.toList
  unwound := s.scopes.isUnwound

def answer (s : Session) : Query → Except Error Answer
  | .var name => .ok (.value (s.var? name))
  | .context => .ok (.context s.context)
  | .member runbook name => .declaredUnit <$> s.member runbook name
  | .sameKey a b => do
    let a ← s.getGroup a
    let b ← s.getGroup b
    return .flag (a.structuralKey.same b.structuralKey)
  | .stepsFor unit group => do
    return .texts (((← s.getUnit unit).stepsFor group).map Step.register)
  | .rendered unit index defaults => do
    return .attributes (((← s.getUnit unit).steps[index]?).map (·.render defaults))
  | .passNames => .ok (.texts s.passNames)
  | .settings => .ok (.settings s.settings)
  | .reference ref => .ok (.text (some ref.text))
  | .unitSummary unit => .ok (.text ((s.unit? unit).map WorkUnit.summary))
  | .runbookSummary runbook => .ok (.text ((s.runbook? runbook).map Runbook.summary))
  | .declarationSummary d => .ok (.text (some d.summary))
  | .unit unit => .ok (.unit (s.unit? unit))
  | .group group => .ok (.group (s.group? group))
  | .inventory => .ok (.inventory s.units s.groups s.runbooks s.instances)
  | .dependencyGraph => do return .graph (.of s (← s.dependencyGraph))

end Session

/-- A statement that finished: the session right after it, and what came of it. -/
structure Entry where
  statement : Stmt
  session : Session
  outcome : Except Error Answer

def Entry.depths (e : Entry) : List Nat := e.session.scopes.depths

end Playbook
