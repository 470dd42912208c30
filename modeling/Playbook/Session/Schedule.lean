import Playbook.Graph.Order
import Playbook.Graph.Text
import Playbook.Plan
import Playbook.Session.Basic

/-! The dependency graph of a session and the plays that follow from an order of its units. -/

namespace Playbook
namespace Session

def connect (s : Session) (g : Graph UnitId) (a b : UnitId) : Except Error (Graph UnitId) :=
  (g.addEdge a b).mapError fun c => .cycle (s.unitName c.source) (s.unitName c.target)

/-- The unit that a constraint of `u` refers to. Names are resolved when a runbook is instantiated;
one that is left has no meaning. -/
def referent (s : Session) (u : WorkUnit) : UnitRef → Except Error UnitId
  | .unit id => do
    discard (s.getUnit id)
    return id
  | .named name =>
    .error (.unresolved ((WorkUnit.qualifier? u.name).getD "(none)") u.name name)

def addConstraints (s : Session) (g : Graph UnitId) (id : UnitId) :
    Except Error (Graph UnitId) := do
  let u ← s.getUnit id
  let g := g.addNode id
  let g ← u.before.toList.foldlM (fun g ref => do s.connect g id (← s.referent u ref)) g
  u.after.toList.foldlM (fun g ref => do s.connect g (← s.referent u ref) id) g

/-- The members of every host group. A unit bound to several groups stands here several times. -/
def boundUnits (s : Session) : List UnitId := s.groups.flatMap fun g => g.members.toList

/-- Every bound unit with its constraints and the units that those refer to. -/
def dependencyGraph (s : Session) : Except Error (Graph UnitId) :=
  s.boundUnits.foldlM s.addConstraints .empty

def playsOf (s : Session) (id : UnitId) : Except Error (List Play) := do
  let u ← s.getUnit id
  if u.steps.isEmpty then return []
  u.groups.mapM fun id => do return .of (← s.getGroup id) u

def planOf (s : Session) (g : Graph UnitId) : Except Error Plan := do
  let order ← g.sort.mapError fun sorted => Error.notAcyclic sorted g.size
  return ⟨(← order.mapM s.playsOf).flatten⟩

end Session

/-- The second phase of a pass, on the graph of a session. -/
def Pass.refine (s : Session) (g : Graph UnitId) : Pass → Except Error (Graph UnitId)
  | .facts p =>
    match p.unit with
    | none => .ok g
    | some unit =>
      (g.independent.filter (· ≠ unit)).foldlM (fun g root => s.connect g unit root) g
  | .merging _ => .ok g
  | .idle => .ok g
  | .scripted p =>
    p.edges.foldlM (fun g e =>
      if e.1 ∉ p.known then .error (.refused (.unknownUnit e.1))
      else if e.2 ∉ p.known then .error (.refused (.unknownUnit e.2))
      else s.connect g e.1 e.2) g

structure UnitGraph where
  graph : Graph UnitId
  names : List String
deriving Inhabited

namespace UnitGraph

def of (s : Session) (graph : Graph UnitId) : UnitGraph := ⟨graph, s.units.map WorkUnit.name⟩

def name (g : UnitGraph) (id : UnitId) : String := (g.names[id.index]?).getD ""

def dot (g : UnitGraph) : String := g.graph.dot g.name

end UnitGraph
end Playbook
