import Playbook.Proofs.Graph.Sorting

/-! Graphs as callers get to see them: built from nothing by adding nodes and edges, where an edge
may be refused and the building goes on with the graph that is left. Such a graph is closed and has
no cycle, so it can always be sorted. -/

namespace Playbook.Graph
variable {α : Type} [DecidableEq α] {g h : Graph α}

inductive Change (α : Type) where
  | node (a : α)
  | edge (a b : α)

def change (g : Graph α) : Change α → Graph α × Option (Cycle α)
  | .node a => (g.addNode a, none)
  | .edge a b => g.insertEdge a b

/-- The graph after a sequence of calls, whether or not some of them were refused. -/
def build (cs : List (Change α)) : Graph α := cs.foldl (fun g c => (g.change c).1) .empty

theorem Acyclic.of_le (acyclic : h.Acyclic) (le : ∀ x y, g.Edge x y → h.Edge x y) : g.Acyclic :=
  fun a cycle => acyclic a (cycle.lift id le)

structure Sound (g : Graph α) : Prop where
  closed : g.Closed
  acyclic : g.Acyclic

theorem sound_empty : (empty : Graph α).Sound where
  closed := closed_empty
  acyclic a h := by
    obtain ⟨b, hab, -⟩ := Relation.TransGen.head'_iff.1 h
    simpa [nodes, empty] using hab.source_mem

theorem Sound.addNode (h : g.Sound) (a : α) : (g.addNode a).Sound where
  closed := h.closed.addNode a
  acyclic := h.acyclic.of_le fun _ _ => edge_addNode.1

theorem Sound.insertEdge (h : g.Sound) (a b : α) : (g.insertEdge a b).1.Sound := by
  rw [insertEdge_eq]
  split
  · rename_i hg
    exact ⟨h.closed.link a b, isAcyclic_iff.1 hg⟩
  · exact h

theorem Sound.change (h : g.Sound) : ∀ c, (g.change c).1.Sound
  | .node a => h.addNode a
  | .edge a b => h.insertEdge a b

theorem sound_foldl (h : g.Sound) (cs : List (Change α)) :
    (cs.foldl (fun g c => (g.change c).1) g).Sound := by
  induction cs generalizing g with
  | nil => exact h
  | cons c cs ih => exact ih (h.change c)

theorem sound_build (cs : List (Change α)) : (build cs).Sound := sound_foldl sound_empty cs

theorem Sound.exists_schedule (h : g.Sound) : ∃ l, g.sort = .ok l ∧ g.Schedule l :=
  ⟨g.ordered, h.acyclic.sort, sort_eq_ok h.acyclic.sort⟩

/-- Whatever was refused on the way, the graph has no cycle, and its sort is an order of all nodes
in which each edge leads forwards. -/
theorem sort_build (cs : List (Change α)) :
    (build cs).Closed ∧ (build cs).Acyclic ∧
      ∃ l, (build cs).sort = .ok l ∧ l.Nodup ∧ (∀ a, a ∈ l ↔ a ∈ (build cs).nodes) ∧
        ∀ e ∈ (build cs).edges, [e.1, e.2].Sublist l := by
  have sound := sound_build cs
  obtain ⟨l, hl, order⟩ := sound.exists_schedule
  refine ⟨sound.closed, sound.acyclic, l, hl, order.nodup, order.mem_iff, fun e he => ?_⟩
  have hab := mem_edges.1 he
  have hb := (order.mem_iff e.2).2 (sound.closed _ _ hab)
  exact order.legal.sublist hb (.single hab)

example : (build [.edge 1 2, .edge 2 1, .edge 3 1]).sort.toOption = some [3, 1, 2] := by decide

end Playbook.Graph
