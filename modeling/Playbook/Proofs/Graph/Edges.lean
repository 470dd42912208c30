import Mathlib.Logic.Relation
import Playbook.Graph.Order

/-! The edges of a graph as a relation between its nodes. Adding a node or an edge is said in terms
of this relation, and an edge that closes a cycle leaves the graph as it was: what
`Graph.insertEdge` takes out again is exactly what it had added. -/

namespace Playbook.Graph

theorem nodup_nodes {α : Type} (g : Graph α) : g.nodes.Nodup := g.successors.nodup_keys

theorem length_nodes {α : Type} (g : Graph α) : g.nodes.length = g.size := by
  simp [nodes, size, OrderedMap.keys, OrderedMap.size]

variable {α : Type} [DecidableEq α] {g : Graph α} {a b x y : α}

def Edge (g : Graph α) (a b : α) : Prop := b ∈ g.successorsOf a

instance (g : Graph α) (a b : α) : Decidable (g.Edge a b) :=
  inferInstanceAs (Decidable (b ∈ g.successorsOf a))

def Closed (g : Graph α) : Prop := ∀ a b, g.Edge a b → b ∈ g.nodes

def Acyclic (g : Graph α) : Prop := ∀ a, ¬ Relation.TransGen g.Edge a a

theorem successorsOf_eq {s : OrderedSet α} (h : g.successors.get? a = some s) :
    g.successorsOf a = s.toList := by
  simp [successorsOf, successors?, h]

theorem edge_iff : g.Edge a b ↔ ∃ s, g.successors.get? a = some s ∧ b ∈ s := by
  unfold Edge
  cases h : g.successors.get? a with
  | none => simp [successorsOf, successors?, h]
  | some s => simp [successorsOf_eq h, OrderedSet.mem_def]

theorem hasEdge_iff : g.hasEdge a b = true ↔ g.Edge a b := decide_eq_true_iff

theorem mem_nodes : a ∈ g.nodes ↔ ∃ s, g.successors.get? a = some s := OrderedMap.mem_keys

theorem Edge.source_mem (h : g.Edge a b) : a ∈ g.nodes := by
  obtain ⟨s, hs, -⟩ := edge_iff.1 h
  exact mem_nodes.2 ⟨s, hs⟩

theorem nodup_successorsOf (g : Graph α) (a : α) : (g.successorsOf a).Nodup := by
  cases h : g.successors.get? a with
  | none => simp [successorsOf, successors?, h]
  | some s => simpa [successorsOf_eq h] using s.nodup

theorem mem_edges {e : α × α} : e ∈ g.edges ↔ g.Edge e.1 e.2 := by
  obtain ⟨a, b⟩ := e
  simp only [edges, edge_iff, OrderedMap.get?_eq_some, List.mem_flatMap, List.mem_map,
    Prod.mk.injEq, Prod.exists, OrderedSet.mem_def]
  constructor
  · rintro ⟨_, s, hs, _, hb, rfl, rfl⟩
    exact ⟨s, hs, hb⟩
  · rintro ⟨s, hs, hb⟩
    exact ⟨a, s, hs, b, hb, rfl, rfl⟩

theorem mem_predecessorsOf : a ∈ g.predecessorsOf b ↔ g.Edge a b := by
  simp [predecessorsOf, edge_iff, OrderedMap.get?_eq_some]

theorem nodup_predecessorsOf (g : Graph α) (a : α) : (g.predecessorsOf a).Nodup :=
  g.successors.distinct.sublist (List.filter_sublist.map _)

theorem contains_iff : g.contains a = true ↔ a ∈ g.nodes := by
  simp [contains, OrderedMap.contains, nodes]

@[simp] theorem mem_nodes_addNode : x ∈ (g.addNode a).nodes ↔ x ∈ g.nodes ∨ x = a := by
  rw [nodes_addNode]
  split
  · rename_i h
    exact ⟨Or.inl, fun hx => hx.elim id fun e => e ▸ h⟩
  · simp

theorem get?_addNode (g : Graph α) (a x : α) :
    (g.addNode a).successors.get? x =
      if x = a ∧ a ∉ g.nodes then some .empty else g.successors.get? x := by
  unfold addNode
  by_cases h : a ∈ g.nodes
  · simp [h, contains_iff.2 h]
  · have : ¬ g.contains a = true := fun hc => h (contains_iff.1 hc)
    simp [h, this, OrderedMap.get?_insert]

@[simp] theorem edge_addNode : (g.addNode a).Edge x y ↔ g.Edge x y := by
  simp only [edge_iff, get?_addNode]
  by_cases h : x = a ∧ a ∉ g.nodes
  · obtain ⟨rfl, ha⟩ := h
    have hx : g.successors.get? x = none := OrderedMap.get?_eq_none.2 ha
    simp [ha, hx, OrderedSet.mem_def, OrderedSet.empty]
  · simp [h]

theorem link_eq (g : Graph α) (a b : α) :
    ∃ s, ((g.addNode a).addNode b).successors.get? a = some s ∧
      g.link a b = ⟨((g.addNode a).addNode b).successors.insert a (s.insert b)⟩ := by
  have ha : a ∈ ((g.addNode a).addNode b).nodes := by simp
  obtain ⟨s, hs⟩ := mem_nodes.1 ha
  exact ⟨s, hs, by simp [link, hs]⟩

@[simp] theorem mem_nodes_link : x ∈ (g.link a b).nodes ↔ x ∈ g.nodes ∨ x = a ∨ x = b := by
  obtain ⟨s, -, h⟩ := link_eq g a b
  rw [h, nodes, OrderedMap.mem_keys_insert, ← nodes, mem_nodes_addNode, mem_nodes_addNode]
  constructor
  · rintro (((h | h) | h) | h) <;> simp [h]
  · rintro (h | h | h) <;> simp [h]

@[simp] theorem edge_link : (g.link a b).Edge x y ↔ g.Edge x y ∨ x = a ∧ y = b := by
  obtain ⟨s, hs, h⟩ := link_eq g a b
  have old : g.Edge a y ↔ y ∈ s := by
    rw [← edge_addNode (a := a), ← edge_addNode (a := b), edge_iff]
    simp [hs]
  by_cases hx : x = a
  · subst hx
    rw [old, h, edge_iff, OrderedMap.get?_insert]
    simp
  · rw [h, edge_iff, OrderedMap.get?_insert, if_neg hx, ← edge_iff, edge_addNode, edge_addNode]
    simp [hx]

@[simp] theorem successorsOf_addNode (g : Graph α) (a x : α) :
    (g.addNode a).successorsOf x = g.successorsOf x := by
  by_cases new : x = a ∧ a ∉ g.nodes
  · obtain ⟨rfl, missing⟩ := new
    have none : g.successors.get? x = none := OrderedMap.get?_eq_none.2 missing
    simp [successorsOf, successors?, get?_addNode, missing, none, OrderedSet.empty]
  · simp [successorsOf, successors?, get?_addNode, new]

theorem nodes_link (g : Graph α) (a b : α) :
    (g.link a b).nodes = ((g.addNode a).addNode b).nodes := by
  obtain ⟨s, hs, e⟩ := link_eq g a b
  rw [e]
  exact (OrderedMap.keys_insert ..).trans (if_pos (mem_nodes.2 ⟨s, hs⟩))

theorem successorsOf_link (g : Graph α) (a b x : α) :
    (g.link a b).successorsOf x =
      if x = a then g.successorsOf a ++ [b].filter (· ∉ g.successorsOf a)
      else g.successorsOf x := by
  obtain ⟨s, hs, e⟩ := link_eq g a b
  have old : g.successorsOf a = s.toList := by
    rw [← successorsOf_eq hs, successorsOf_addNode, successorsOf_addNode]
  rw [e]
  by_cases hx : x = a
  · subst hx
    rw [if_pos rfl, old, successorsOf_eq (s := s.insert b)
      (by rw [OrderedMap.get?_insert, if_pos rfl]), OrderedSet.toList_insert]
    by_cases hb : b ∈ s.toList <;> simp [hb, OrderedSet.mem_def]
  · rw [if_neg hx, successorsOf, successors?, OrderedMap.get?_insert, if_neg hx]
    show ((g.addNode a).addNode b).successorsOf x = _
    rw [successorsOf_addNode, successorsOf_addNode]

theorem Closed.link (h : g.Closed) (a b : α) : (g.link a b).Closed := by
  intro x y hxy
  rcases edge_link.1 hxy with hxy | ⟨-, rfl⟩
  · exact mem_nodes_link.2 (.inl (h x y hxy))
  · simp

theorem Closed.addNode (h : g.Closed) (a : α) : (g.addNode a).Closed := fun x y hxy =>
  mem_nodes_addNode.2 (.inl (h x y (edge_addNode.1 hxy)))

theorem closed_empty : (empty : Graph α).Closed := fun _ _ h => by
  simp [Edge, successorsOf, successors?, empty, OrderedMap.get?, OrderedMap.empty] at h

def linkAll (g : Graph α) (es : List (α × α)) : Graph α := es.foldl (fun g e => g.link e.1 e.2) g

@[simp] theorem linkAll_nil (g : Graph α) : g.linkAll [] = g := rfl

@[simp] theorem linkAll_cons (g : Graph α) (e : α × α) (es : List (α × α)) :
    g.linkAll (e :: es) = (g.link e.1 e.2).linkAll es := rfl

theorem linkAll_append (g : Graph α) (es fs : List (α × α)) :
    g.linkAll (es ++ fs) = (g.linkAll es).linkAll fs := List.foldl_append

theorem edge_linkAll {es : List (α × α)} : (g.linkAll es).Edge x y ↔ g.Edge x y ∨ (x, y) ∈ es := by
  induction es generalizing g with
  | nil => simp
  | cons e es ih => simp [ih, edge_link, or_assoc, Prod.ext_iff]

theorem mem_nodes_linkAll {es : List (α × α)} :
    x ∈ (g.linkAll es).nodes ↔ x ∈ g.nodes ∨ ∃ e ∈ es, x = e.1 ∨ x = e.2 := by
  induction es generalizing g with
  | nil => simp
  | cons e es ih => simp [ih, or_assoc]

theorem dropNode_addNode (g : Graph α) (a : α) :
    (if g.contains a then g.addNode a else (g.addNode a).dropNode a) = g := by
  by_cases h : g.contains a
  · simp [h, addNode]
  · have ha : a ∉ g.successors.keys := fun hm => h (contains_iff.2 hm)
    simp [h, addNode, dropNode, OrderedMap.erase_insert _ ha]

theorem dropEdge_link (g : Graph α) (a b : α) :
    (if g.hasEdge a b then g.link a b else (g.link a b).dropEdge a b) =
      (g.addNode a).addNode b := by
  obtain ⟨s, hs, h⟩ := link_eq g a b
  have old : g.Edge a b ↔ b ∈ s := by
    rw [← edge_addNode (a := a), ← edge_addNode (a := b), edge_iff]
    simp [hs]
  by_cases hb : g.hasEdge a b
  · have hm : b ∈ s := old.1 (hasEdge_iff.1 hb)
    rw [if_pos hb, h, OrderedSet.insert_of_mem hm, OrderedMap.insert_of_get? hs]
  · have hm : b ∉ s := fun hm => hb (hasEdge_iff.2 (old.2 hm))
    rw [if_neg hb, h]
    simp [dropEdge, OrderedMap.get?_insert, OrderedMap.insert_insert, OrderedSet.erase_insert hm,
      OrderedMap.insert_of_get? hs]

/-- The rejected edge leaves no trace, not even in the order of nodes and successors. -/
theorem insertEdge_eq (g : Graph α) (a b : α) :
    g.insertEdge a b =
      if (g.link a b).isAcyclic then (g.link a b, none) else (g, some ⟨a, b⟩) := by
  simp only [insertEdge, dropEdge_link, dropNode_addNode]

theorem addEdge_eq (g : Graph α) (a b : α) :
    g.addEdge a b = if (g.link a b).isAcyclic then .ok (g.link a b) else .error ⟨a, b⟩ := by
  rw [addEdge, insertEdge_eq]
  by_cases h : (g.link a b).isAcyclic <;> simp [h]

end Playbook.Graph
