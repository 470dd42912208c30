import Playbook.Graph.Basic

/-! Ordering a graph's nodes, each after its predecessors. Nodes that wait for nothing come in the
order of their insertion, and others as soon as the last predecessor has come. -/

namespace Playbook.Graph
variable {α : Type} [DecidableEq α]

/-- Counts one predecessor less for each of the given nodes; also those that now wait for none. -/
def release (waiting : OrderedMap α Nat) : List α → OrderedMap α Nat × List α
  | [] => (waiting, [])
  | a :: l =>
    match waiting.get? a with
    | none => release waiting l
    | some n =>
      let (waiting, ready) := release (waiting.insert a (n - 1)) l
      (waiting, if n = 1 then a :: ready else ready)

/-- Takes nodes from the front of the queue and puts those they release at its end, at most as many
times as the first argument says. -/
def drain (g : Graph α) : Nat → List α → OrderedMap α Nat → List α
  | 0, _, _ => []
  | _ + 1, [], _ => []
  | left + 1, a :: queue, waiting =>
    let (waiting, ready) := release waiting (g.successorsOf a)
    a :: drain g left (queue ++ ready) waiting

def ordered (g : Graph α) : List α := g.drain g.size g.independent g.inDegrees

def isAcyclic (g : Graph α) : Bool := g.ordered.length == g.size

/-- Every node after its predecessors, or the number of nodes that could be ordered. -/
def sort (g : Graph α) : Except Nat (List α) :=
  if g.isAcyclic then .ok g.ordered else .error g.ordered.length

structure Cycle (α : Type) where
  source : α
  target : α

/-- Adds an edge and its missing ends. Where that closes a cycle, all that was added is taken out
again, and the ends are reported. -/
def insertEdge (g : Graph α) (a b : α) : Graph α × Option (Cycle α) :=
  let linked := g.link a b
  if linked.isAcyclic then (linked, none)
  else
    let g₁ := if g.hasEdge a b then linked else linked.dropEdge a b
    let g₂ := if (g.addNode a).contains b then g₁ else g₁.dropNode b
    let g₃ := if g.contains a then g₂ else g₂.dropNode a
    (g₃, some ⟨a, b⟩)

def addEdge (g : Graph α) (a b : α) : Except (Cycle α) (Graph α) :=
  match g.insertEdge a b with
  | (g, none) => .ok g
  | (_, some c) => .error c

def addEdges (g : Graph α) (edges : List (α × α)) : Except (Cycle α) (Graph α) :=
  edges.foldlM (fun g e => g.addEdge e.1 e.2) g

end Playbook.Graph
