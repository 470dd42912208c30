import Playbook.Ordered.Map
import Playbook.Ordered.Set

/-! Directed graphs that remember the order in which nodes and edges were added. -/

namespace Playbook

structure Graph (α : Type) where
  successors : OrderedMap α (OrderedSet α)

namespace Graph
variable {α : Type} [DecidableEq α]

def empty : Graph α := ⟨.empty⟩

instance : Inhabited (Graph α) := ⟨empty⟩

def nodes (g : Graph α) : List α := g.successors.keys

def size (g : Graph α) : Nat := g.successors.size

def isEmpty (g : Graph α) : Bool := g.successors.isEmpty

def contains (g : Graph α) (a : α) : Bool := g.successors.contains a

def successors? (g : Graph α) (a : α) : Option (List α) :=
  (g.successors.get? a).map OrderedSet.toList

def successorsOf (g : Graph α) (a : α) : List α := (g.successors? a).getD []

def predecessorsOf (g : Graph α) (a : α) : List α :=
  (g.successors.entries.filter fun e => a ∈ e.2).map Prod.fst

def edges (g : Graph α) : List (α × α) :=
  g.successors.entries.flatMap fun e => e.2.toList.map (e.1, ·)

def addNode (g : Graph α) (a : α) : Graph α :=
  if g.contains a then g else ⟨g.successors.insert a .empty⟩

/-- Adds an edge and its missing ends, whether or not it closes a cycle. -/
def link (g : Graph α) (a b : α) : Graph α :=
  let g := (g.addNode a).addNode b
  match g.successors.get? a with
  | some s => ⟨g.successors.insert a (s.insert b)⟩
  | none => g

def hasEdge (g : Graph α) (a b : α) : Bool := b ∈ g.successorsOf a

def dropEdge (g : Graph α) (a b : α) : Graph α :=
  match g.successors.get? a with
  | some s => ⟨g.successors.insert a (s.erase b)⟩
  | none => g

def dropNode (g : Graph α) (a : α) : Graph α := ⟨g.successors.erase a⟩

theorem nodes_addNode (g : Graph α) (a : α) :
    (g.addNode a).nodes = if a ∈ g.nodes then g.nodes else g.nodes ++ [a] := by
  unfold addNode
  by_cases h : a ∈ g.nodes
  · rw [if_pos (show g.contains a = true by simpa [contains, OrderedMap.contains, nodes] using h),
      if_pos h]
  · rw [if_neg (show ¬g.contains a = true by simpa [contains, OrderedMap.contains, nodes] using h),
      if_neg h]
    exact (OrderedMap.keys_insert ..).trans (if_neg h)

def inDegrees (g : Graph α) : OrderedMap α Nat :=
  g.successors.mapValues fun a _ => (g.predecessorsOf a).length

def independent (g : Graph α) : List α :=
  (g.inDegrees.entries.filter fun e => e.2 = 0).map Prod.fst

def leaves (g : Graph α) : List α :=
  (g.successors.entries.filter fun e => e.2.toList.isEmpty).map Prod.fst

/-- The same nodes with the same successors, in whatever order they were added. -/
def same (g h : Graph α) : Bool :=
  g.size == h.size && g.successors.entries.all fun e =>
    (h.successors.get? e.1).any e.2.sameElements

end Graph
end Playbook
