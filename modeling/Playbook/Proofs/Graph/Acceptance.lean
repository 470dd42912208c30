import Playbook.Proofs.Graph.Insertion

/-! Many edges, one after another. Each answer depends on the graph that the edges before have left,
but whether all are accepted does not depend on their order: what they need is that all of them
together close no cycle, and the graph is then the same. -/

namespace Playbook.Graph
variable {α : Type} [DecidableEq α] {g h : Graph α} {a b : α} {es fs : List (α × α)}

theorem same_iff : g.same h = true ↔
    (∀ a, a ∈ g.nodes ↔ a ∈ h.nodes) ∧ ∀ a b, g.Edge a b ↔ h.Edge a b := by
  simp only [same, Bool.and_eq_true, beq_iff_eq, List.all_eq_true, Option.any_eq_true]
  constructor
  · rintro ⟨size, entries⟩
    have entry {a : α} {s : OrderedSet α} (hs : g.successors.get? a = some s) :
        ∃ t, h.successors.get? a = some t ∧ ∀ b, b ∈ s ↔ b ∈ t := by
      obtain ⟨t, ht, same⟩ := entries (a, s) (OrderedMap.get?_eq_some.1 hs)
      exact ⟨t, ht, OrderedSet.sameElements_iff.1 same⟩
    have sub : g.nodes ⊆ h.nodes := fun a ha => by
      obtain ⟨s, hs⟩ := mem_nodes.1 ha
      obtain ⟨t, ht, -⟩ := entry hs
      exact mem_nodes.2 ⟨t, ht⟩
    have all : g.nodes.Perm h.nodes :=
      (g.nodup_nodes.subperm sub).perm_of_length_le (by rw [length_nodes, length_nodes, size])
    refine ⟨fun a => all.mem_iff, fun a b => ?_⟩
    by_cases ha : a ∈ g.nodes
    · obtain ⟨s, hs⟩ := mem_nodes.1 ha
      obtain ⟨t, ht, same⟩ := entry hs
      simp [edge_iff, hs, ht, same]
    · exact iff_of_false (fun edge => ha edge.source_mem)
        fun edge => ha (all.mem_iff.2 edge.source_mem)
  · rintro ⟨nodes, edges⟩
    have all : g.nodes.Perm h.nodes :=
      (List.perm_ext_iff_of_nodup g.nodup_nodes h.nodup_nodes).2 nodes
    refine ⟨by rw [← length_nodes, ← length_nodes, all.length_eq], ?_⟩
    rintro ⟨a, s⟩ entry
    have hs := OrderedMap.get?_eq_some.2 entry
    obtain ⟨t, ht⟩ := mem_nodes.1 ((nodes a).1 (mem_nodes.2 ⟨s, hs⟩))
    have same (b : α) : b ∈ s ↔ b ∈ t := by simpa [edge_iff, hs, ht] using edges a b
    exact ⟨t, ht, OrderedSet.sameElements_iff.2 same⟩

theorem same_iff_successors : g.same h = true ↔
    ∀ a, (g.successors? a).map List.toFinset = (h.successors? a).map List.toFinset := by
  have at_node (a : α) : (g.successors? a).map List.toFinset = (h.successors? a).map List.toFinset ↔
      (a ∈ g.nodes ↔ a ∈ h.nodes) ∧ ∀ b, g.Edge a b ↔ h.Edge a b := by
    simp only [successors?, mem_nodes, edge_iff]
    cases g.successors.get? a <;> cases h.successors.get? a <;>
      simp [Finset.ext_iff, OrderedSet.mem_def]
  rw [same_iff]
  simp only [at_node, forall_and]

theorem addEdges_cons (g : Graph α) (e : α × α) (es : List (α × α)) :
    g.addEdges (e :: es) = g.addEdge e.1 e.2 >>= fun g => g.addEdges es := rfl

theorem Acyclic.addEdges_eq_ok (acyclic : g.Acyclic) :
    g.addEdges es = .ok h ↔ (g.linkAll es).Acyclic ∧ h = g.linkAll es := by
  induction es generalizing g with
  | nil =>
    simp only [addEdges, List.foldlM_nil, linkAll_nil]
    exact ⟨fun e => ⟨acyclic, (Except.ok.inj e).symm⟩, fun e => by rw [e.2]; rfl⟩
  | cons e es ih =>
    rw [addEdges_cons, addEdge_eq, linkAll_cons]
    by_cases accepted : (g.link e.1 e.2).isAcyclic
    · rw [if_pos accepted]
      exact ih (isAcyclic_iff.1 accepted)
    · rw [if_neg accepted]
      refine iff_of_false (fun e => by cases e) fun all => ?_
      exact accepted (isAcyclic_iff.2 (all.1.of_le fun x y edge => edge_linkAll.2 (.inl edge)))

theorem Acyclic.addEdges_eq_error (acyclic : g.Acyclic) {c : Cycle α}
    (refused : g.addEdges es = .error c) :
    (c.source, c.target) ∈ es ∧
      Relation.ReflTransGen (g.linkAll es).Edge c.target c.source := by
  induction es generalizing g with
  | nil => cases refused
  | cons e es ih =>
    rw [addEdges_cons, addEdge_eq] at refused
    by_cases accepted : (g.link e.1 e.2).isAcyclic
    · rw [if_pos accepted] at refused
      obtain ⟨mem, path⟩ := ih (isAcyclic_iff.1 accepted) refused
      exact ⟨List.mem_cons_of_mem _ mem, path⟩
    · rw [if_neg accepted] at refused
      obtain rfl : ⟨e.1, e.2⟩ = c := Except.error.inj refused
      have back := reaches_of_refused acyclic accepted
      exact ⟨List.mem_cons_self .., back.lift id fun x y edge => edge_linkAll.2 (.inl edge)⟩

theorem acyclic_linkAll : (g.linkAll es).Acyclic ↔
    ∀ a, ¬ Relation.TransGen (fun x y => g.Edge x y ∨ (x, y) ∈ es) a a := by
  have edges : (g.linkAll es).Edge = fun x y => g.Edge x y ∨ (x, y) ∈ es := by
    funext x y
    exact propext edge_linkAll
  rw [Acyclic, edges]

theorem same_linkAll (order : es.Perm fs) : (g.linkAll es).same (g.linkAll fs) = true := by
  refine same_iff.2 ⟨fun a => ?_, fun a b => ?_⟩
  · simp only [mem_nodes_linkAll, order.mem_iff]
  · rw [edge_linkAll, edge_linkAll, order.mem_iff]

/-- All of the edges are accepted exactly if they close no cycle, with each other and with what is
there; so they are in one order if they are in another, and the graphs are then the same. -/
theorem addEdges_build_perm (cs : List (Change α)) (order : es.Perm fs) :
    ((∃ h, (build cs).addEdges es = .ok h) ↔
      ∀ a, ¬ Relation.TransGen (fun x y => (build cs).Edge x y ∨ (x, y) ∈ es) a a) ∧
    ((∃ h, (build cs).addEdges es = .ok h) ↔ ∃ h, (build cs).addEdges fs = .ok h) ∧
    ∀ h h', (build cs).addEdges es = .ok h → (build cs).addEdges fs = .ok h' →
      h.same h' = true ∧
      ∀ a, (h.successors? a).map List.toFinset = (h'.successors? a).map List.toFinset := by
  have acyclic := (sound_build cs).acyclic
  have accepted (es : List (α × α)) :
      (∃ h, (build cs).addEdges es = .ok h) ↔ ((build cs).linkAll es).Acyclic := by
    simp only [acyclic.addEdges_eq_ok, exists_and_left, exists_eq, and_true]
  refine ⟨(accepted es).trans acyclic_linkAll, ?_, fun h h' first second => ?_⟩
  · rw [accepted, accepted, acyclic_linkAll, acyclic_linkAll]
    simp only [order.mem_iff]
  · obtain ⟨-, rfl⟩ := acyclic.addEdges_eq_ok.1 first
    obtain ⟨-, rfl⟩ := acyclic.addEdges_eq_ok.1 second
    have same := same_linkAll (g := build cs) order
    exact ⟨same, same_iff_successors.1 same⟩

theorem addEdges_build_perm_chain : ∃ h h',
    (build [.edge 1 2]).addEdges [(2, 3), (3, 4), (1, 4)] = .ok h ∧
    (build [.edge 1 2]).addEdges [(1, 4), (3, 4), (2, 3)] = .ok h' ∧ h.same h' = true ∧
    h.nodes = [1, 2, 3, 4] ∧ h'.nodes = [1, 2, 4, 3] := by
  have order : [(2, 3), (3, 4), (1, 4)].Perm [(1, 4), (3, 4), (2, 3)] := by decide
  obtain ⟨-, both, same⟩ := addEdges_build_perm [.edge 1 2] order
  have forwards : ((build [.edge 1 2]).addEdges [(2, 3), (3, 4), (1, 4)]).toOption.map nodes =
      some [1, 2, 3, 4] := by decide
  have backwards : ((build [.edge 1 2]).addEdges [(1, 4), (3, 4), (2, 3)]).toOption.map nodes =
      some [1, 2, 4, 3] := by decide
  cases first : (build [.edge 1 2]).addEdges [(2, 3), (3, 4), (1, 4)] with
  | error c => rw [first] at forwards; cases forwards
  | ok h =>
    obtain ⟨h', second⟩ := both.1 ⟨h, first⟩
    rw [first] at forwards
    rw [second] at backwards
    exact ⟨h, h', rfl, second, (same h h' first second).1, Option.some.inj forwards,
      Option.some.inj backwards⟩

end Playbook.Graph
