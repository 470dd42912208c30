import Playbook.Proofs.Graph.Sorting

/-! A node that is put before all roots of a graph. If no edge leads to it, no cycle arises. A new
node then comes first, and the others follow in the order in which they come without it: what the
queue of the sort starts with is what the new node releases. -/

namespace Playbook.Graph
variable {α : Type} [DecidableEq α] {g h : Graph α} {a b x y : α}

/-- Edges from `a` to every other node that has no predecessor. -/
def anchor (g : Graph α) (a : α) : Graph α :=
  g.linkAll ((g.independent.filter (· ≠ a)).map (a, ·))

theorem transGen_avoiding (source : ∀ x, ¬ h.Edge x a)
    (rest : ∀ x y, x ≠ a → h.Edge x y → g.Edge x y) (hx : x ≠ a)
    (path : Relation.TransGen h.Edge x y) : Relation.TransGen g.Edge x y := by
  induction path using Relation.TransGen.head_induction_on with
  | single edge => exact .single (rest _ _ hx edge)
  | @head x z edge _ ih =>
    have next : z ≠ a := fun e => source x (e ▸ edge)
    exact .head (rest x z hx edge) (ih next)

theorem Acyclic.of_source (acyclic : g.Acyclic) (source : ∀ x, ¬ h.Edge x a)
    (rest : ∀ x y, x ≠ a → h.Edge x y → g.Edge x y) : h.Acyclic := by
  intro x cycle
  by_cases hx : x = a
  · obtain ⟨y, -, last⟩ := Relation.TransGen.tail'_iff.1 cycle
    exact source y (hx ▸ last)
  · exact acyclic x (transGen_avoiding source rest hx cycle)

theorem Acyclic.linkAll_source (acyclic : g.Acyclic) (source : ∀ x, ¬ g.Edge x a) {l : List α}
    (hl : a ∉ l) : (g.linkAll (l.map (a, ·))).Acyclic := by
  refine acyclic.of_source (a := a) (fun x edge => ?_) fun x y hx edge => ?_
  · rcases edge_linkAll.1 edge with edge | added
    · exact source x edge
    · obtain ⟨b, hb, e⟩ := List.mem_map.1 added
      exact hl ((Prod.mk.inj e).2 ▸ hb)
  · rcases edge_linkAll.1 edge with edge | added
    · exact edge
    · obtain ⟨b, -, e⟩ := List.mem_map.1 added
      exact absurd (Prod.mk.inj e).1.symm hx

theorem nodes_link_of_mem (ha : a ∈ g.nodes) (hb : b ∈ g.nodes) : (g.link a b).nodes = g.nodes := by
  rw [nodes_link, nodes_addNode, nodes_addNode, if_pos ha, if_pos hb]

theorem successorsOf_link_of_new (new : ¬ g.Edge a b) (x : α) :
    (g.link a b).successorsOf x =
      if x = a then g.successorsOf a ++ [b] else g.successorsOf x := by
  have missing : b ∉ g.successorsOf a := new
  rw [successorsOf_link, List.filter_cons_of_pos (by simpa using missing), List.filter_nil]

theorem nodes_linkAll_of_mem (ha : a ∈ g.nodes) {l : List α} (hl : ∀ b ∈ l, b ∈ g.nodes) :
    (g.linkAll (l.map (a, ·))).nodes = g.nodes := by
  induction l generalizing g with
  | nil => rfl
  | cons b l ih =>
    have same := nodes_link_of_mem ha (hl b (List.mem_cons_self ..))
    rw [List.map_cons, linkAll_cons, ih (same ▸ ha), same]
    intro c hc
    rw [same]
    exact hl c (List.mem_cons_of_mem _ hc)

theorem successorsOf_linkAll (ha : a ∈ g.nodes) {l : List α} (hl : ∀ b ∈ l, b ∈ g.nodes)
    (hd : l.Nodup) (new : ∀ b ∈ l, ¬ g.Edge a b) (x : α) :
    (g.linkAll (l.map (a, ·))).successorsOf x =
      if x = a then g.successorsOf a ++ l else g.successorsOf x := by
  induction l generalizing g with
  | nil =>
    by_cases hx : x = a
    · simp [hx]
    · simp [hx]
  | cons b l ih =>
    obtain ⟨hb, hd⟩ := List.nodup_cons.1 hd
    have first := new b (List.mem_cons_self ..)
    have known := hl b (List.mem_cons_self ..)
    have same := nodes_link_of_mem ha known
    rw [List.map_cons, linkAll_cons, ih (same ▸ ha) (fun c hc => ?_) hd (fun c hc edge => ?_)]
    · rw [successorsOf_link_of_new first, successorsOf_link_of_new first]
      by_cases hx : x = a <;> simp [hx]
    · rw [same]
      exact hl c (List.mem_cons_of_mem _ hc)
    · rcases edge_link.1 edge with edge | ⟨-, rfl⟩
      · exact new c (List.mem_cons_of_mem _ hc) edge
      · exact hb hc

theorem edge_anchor :
    (g.anchor a).Edge x y ↔ g.Edge x y ∨ x = a ∧ y ≠ a ∧ y ∈ g.independent := by
  have new : (x, y) ∈ (g.independent.filter (· ≠ a)).map (a, ·) ↔
      x = a ∧ y ≠ a ∧ y ∈ g.independent := by
    simp only [List.mem_map, List.mem_filter, decide_eq_true_eq, Prod.mk.injEq]
    constructor
    · rintro ⟨b, ⟨root, other⟩, rfl, rfl⟩
      exact ⟨rfl, other, root⟩
    · rintro ⟨rfl, other, root⟩
      exact ⟨y, ⟨root, other⟩, rfl, rfl⟩
  rw [anchor, edge_linkAll, new]

theorem edge_anchor_of_edge (edge : g.Edge x y) : (g.anchor a).Edge x y := edge_anchor.2 (.inl edge)

theorem nodes_anchor (ha : a ∈ g.nodes) : (g.anchor a).nodes = g.nodes :=
  nodes_linkAll_of_mem ha fun _ hb => (mem_independent_iff.1 (List.mem_of_mem_filter hb)).1

theorem exists_edge_anchor (hx : x ∈ g.nodes) (other : x ≠ a) : ∃ p, (g.anchor a).Edge p x := by
  by_cases root : x ∈ g.independent
  · exact ⟨a, edge_anchor.2 (.inr ⟨rfl, other, root⟩)⟩
  · obtain ⟨p, edge⟩ : ∃ p, g.Edge p x := by simpa [mem_independent_iff, hx] using root
    exact ⟨p, edge_anchor_of_edge edge⟩

theorem independent_anchor (ha : a ∈ g.nodes) (source : ∀ x, ¬ g.Edge x a) :
    (g.anchor a).independent = [a] := by
  have only (x : α) : x ∈ (g.anchor a).independent ↔ x ∈ [a] := by
    rw [mem_independent_iff, nodes_anchor ha, List.mem_singleton]
    constructor
    · rintro ⟨hx, free⟩
      by_contra other
      obtain ⟨p, edge⟩ := exists_edge_anchor hx other
      exact free p edge
    · rintro rfl
      refine ⟨ha, fun p edge => ?_⟩
      rcases edge_anchor.1 edge with edge | ⟨-, other, -⟩
      · exact source p edge
      · exact other rfl
  exact List.perm_singleton.1
    ((List.perm_ext_iff_of_nodup (nodup_independent _) (List.nodup_singleton a)).2 only)

theorem Acyclic.anchor_iff (acyclic : g.Acyclic) :
    (g.anchor a).Acyclic ↔ ∀ x, ¬ g.Edge x a := by
  constructor
  · intro anchored x edge
    obtain ⟨root, free, path⟩ := acyclic.exists_root edge.source_mem
    have back : Relation.TransGen g.Edge root a := .tail' path edge
    have other : root ≠ a := fun same => acyclic root (same ▸ back)
    have new : (g.anchor a).Edge a root := edge_anchor.2 (.inr ⟨rfl, other, free⟩)
    exact anchored a (.head new (back.lift id fun _ _ => edge_anchor_of_edge))
  · exact fun source => acyclic.linkAll_source source (by simp)

theorem Acyclic.reaches_anchor (acyclic : g.Acyclic) (hx : x ∈ g.nodes) (other : x ≠ a) :
    Relation.TransGen (g.anchor a).Edge a x := by
  obtain ⟨root, free, path⟩ := acyclic.exists_root hx
  have path : Relation.ReflTransGen (g.anchor a).Edge root x :=
    path.lift id fun _ _ => edge_anchor_of_edge
  by_cases same : root = a
  · subst same
    exact (Relation.reflTransGen_iff_eq_or_transGen.1 path).resolve_left other
  · exact .head' (edge_anchor.2 (.inr ⟨rfl, same, free⟩)) path

theorem reaches_of_anchor (path : Relation.ReflTransGen (g.anchor a).Edge x a) :
    Relation.ReflTransGen g.Edge x a := by
  induction path using Relation.ReflTransGen.head_induction_on with
  | refl => exact .refl
  | head edge _ ih =>
    rcases edge_anchor.1 edge with edge | ⟨rfl, -⟩
    · exact .head edge ih
    · exact .refl

section Fresh
variable (closed : g.Closed) (fresh : a ∉ g.nodes)
include closed fresh

theorem not_edge_to_fresh (x : α) : ¬ g.Edge x a := fun edge => fresh (closed x a edge)

omit closed in
theorem not_edge_from_fresh (x : α) : ¬ g.Edge a x := fun edge => fresh edge.source_mem

theorem independent_addNode : (g.addNode a).independent = g.independent ++ [a] := by
  have same : ∀ x, ((g.addNode a).predecessorsOf x).isEmpty = (g.predecessorsOf x).isEmpty :=
    fun x => by rw [Bool.eq_iff_iff, predecessorsOf_isEmpty, predecessorsOf_isEmpty]; simp
  have root : (g.predecessorsOf a).isEmpty = true :=
    predecessorsOf_isEmpty.2 (not_edge_to_fresh closed fresh)
  simp only [independent_eq, nodes_addNode, if_neg fresh, List.filter_append, same]
  simp [root]

theorem anchor_addNode :
    (g.addNode a).anchor a = (g.addNode a).linkAll (g.independent.map (a, ·)) := by
  have others : g.independent.filter (· ≠ a) = g.independent :=
    List.filter_eq_self.2 fun x hx => by
      have : x ≠ a := fun e => fresh (e ▸ (mem_independent.1 hx).1)
      simpa using this
  rw [anchor, independent_addNode closed fresh, List.filter_append, others]
  simp

theorem edge_anchor_addNode : ((g.addNode a).anchor a).Edge x y ↔
    g.Edge x y ∨ x = a ∧ y ∈ g.independent := by
  rw [anchor_addNode closed fresh, edge_linkAll, edge_addNode]
  simp [Prod.ext_iff, eq_comm, and_comm]

omit closed in
theorem nodes_anchor_addNode : ((g.addNode a).anchor a).nodes = g.nodes ++ [a] := by
  rw [nodes_anchor (by simp), nodes_addNode, if_neg fresh]

omit closed in
theorem size_anchor : ((g.addNode a).anchor a).size = g.size + 1 := by
  rw [← length_nodes, nodes_anchor_addNode fresh, List.length_append, length_nodes]
  rfl

theorem successorsOf_anchor (x : α) : ((g.addNode a).anchor a).successorsOf x =
    if x = a then g.independent else g.successorsOf x := by
  have none : g.successorsOf a = [] :=
    List.eq_nil_iff_forall_not_mem.2 (not_edge_from_fresh fresh)
  rw [anchor_addNode closed fresh, successorsOf_linkAll (by simp) (fun b hb => ?_)
    g.nodup_independent fun b _ => ?_]
  · rw [successorsOf_addNode, successorsOf_addNode, none, List.nil_append]
  · exact mem_nodes_addNode.2 (.inl (mem_independent.1 hb).1)
  · rw [edge_addNode]
    exact not_edge_from_fresh fresh b

theorem independent_anchor_addNode : ((g.addNode a).anchor a).independent = [a] :=
  independent_anchor (by simp) fun x edge =>
    not_edge_to_fresh closed fresh x (edge_addNode.1 edge)

theorem get?_inDegrees_anchor (hx : x ≠ a) : ((g.addNode a).anchor a).inDegrees.get? x =
    if x ∈ g.independent then some 1 else g.inDegrees.get? x := by
  have mem : x ∈ ((g.addNode a).anchor a).nodes ↔ x ∈ g.nodes := by
    rw [nodes_anchor_addNode fresh]
    simp [hx]
  have same (l : List α) (hl : l.Nodup) (hm : ∀ p, p ∈ l ↔ ((g.addNode a).anchor a).Edge p x) :
      (((g.addNode a).anchor a).predecessorsOf x).length = l.length :=
    ((List.perm_ext_iff_of_nodup (nodup_predecessorsOf ..) hl).2 fun p => by
      rw [mem_predecessorsOf, hm]).length_eq
  simp only [get?_inDegrees, mem]
  by_cases root : x ∈ g.independent
  · obtain ⟨hn, free⟩ := mem_independent_iff.1 root
    rw [if_pos hn, if_pos root, same [a] (List.nodup_singleton a) fun p => ?_]
    · rfl
    · rw [edge_anchor_addNode closed fresh, List.mem_singleton]
      simp [free p, root]
  · rw [if_neg root, same (g.predecessorsOf x) (nodup_predecessorsOf ..) fun p => ?_]
    rw [mem_predecessorsOf, edge_anchor_addNode closed fresh]
    simp [root]

end Fresh

theorem drain_congr (agree : ∀ x, x ≠ a → h.successorsOf x = g.successorsOf x)
    (avoids : ∀ x, a ∉ g.successorsOf x) {left : Nat} {queue : List α} {v w : OrderedMap α Nat}
    (hq : a ∉ queue) (waits : ∀ x, x ≠ a → v.get? x = w.get? x) :
    h.drain left queue v = g.drain left queue w := by
  induction left generalizing queue v w with
  | zero => rfl
  | succ left ih =>
    cases queue with
    | nil => rfl
    | cons b queue =>
      obtain ⟨hb, hq⟩ := not_or.1 (mt List.mem_cons.2 hq)
      have hd := g.nodup_successorsOf b
      have ready : (release v (g.successorsOf b)).2 = (release w (g.successorsOf b)).2 := by
        rw [release_ready hd, release_ready hd]
        refine List.filter_congr fun x hx => ?_
        have : x ≠ a := fun e => avoids b (e ▸ hx)
        rw [waits x this]
      have fresh : a ∉ queue ++ (release w (g.successorsOf b)).2 := by
        rw [release_ready hd, List.mem_append]
        exact not_or.2 ⟨hq, fun hm => avoids b (List.mem_filter.1 hm).1⟩
      simp only [drain, agree b (Ne.symm hb), ready]
      rw [ih fresh fun x hx => ?_]
      simp only [get?_release hd, waits x hx]

theorem ordered_anchor (closed : g.Closed) (fresh : a ∉ g.nodes) :
    ((g.addNode a).anchor a).ordered = a :: g.ordered := by
  let h := (g.addNode a).anchor a
  have roots : h.successorsOf a = g.independent := by
    rw [successorsOf_anchor closed fresh, if_pos rfl]
  have agree (x : α) (hx : x ≠ a) : h.successorsOf x = g.successorsOf x := by
    rw [successorsOf_anchor closed fresh, if_neg hx]
  have root_ne (x : α) (hx : x ∈ g.independent) : x ≠ a := fun e =>
    fresh (e ▸ (mem_independent.1 hx).1)
  have hd := g.nodup_independent
  -- taking `a` first leaves the queue and the counts with which the sort of `g` starts
  have ready : (release h.inDegrees g.independent).2 = g.independent := by
    rw [release_ready hd, List.filter_eq_self]
    intro x hx
    simp [h, get?_inDegrees_anchor closed fresh (root_ne x hx), hx]
  have waits (x : α) (hx : x ≠ a) :
      (release h.inDegrees g.independent).1.get? x = g.inDegrees.get? x := by
    rw [get?_release hd, get?_inDegrees_anchor closed fresh hx]
    by_cases root : x ∈ g.independent
    · obtain ⟨hn, free⟩ := mem_independent.1 root
      rw [pending_nil] at free
      rw [if_pos root, if_pos root, get?_inDegrees, if_pos hn, free]
      rfl
    · rw [if_neg root, if_neg root]
  have start : h.ordered =
      a :: h.drain g.size g.independent (release h.inDegrees g.independent).1 := by
    have roots : ((g.addNode a).anchor a).successorsOf a = g.independent := roots
    have ready : (release ((g.addNode a).anchor a).inDegrees g.independent).2 = g.independent :=
      ready
    simp only [ordered, h, size_anchor fresh, independent_anchor_addNode closed fresh, drain]
    rw [roots, ready]
    rfl
  rw [start, drain_congr agree (fun x hx => fresh (closed x a hx))
    (fun hm => root_ne a hm rfl) waits]
  rfl

/-- The new node comes first, and then all others as they came without it. -/
theorem sort_anchor (closed : g.Closed) (fresh : a ∉ g.nodes) {l : List α} (hl : g.sort = .ok l) :
    ((g.addNode a).anchor a).sort = .ok (a :: l) := by
  unfold sort at hl
  split at hl
  · rename_i acyclic
    obtain rfl : g.ordered = l := Except.ok.inj hl
    have all : ((g.addNode a).anchor a).isAcyclic = true := by
      simp only [isAcyclic, beq_iff_eq] at acyclic ⊢
      rw [ordered_anchor closed fresh, size_anchor fresh, List.length_cons, acyclic]
    rw [sort, if_pos all, ordered_anchor closed fresh]
  · cases hl

end Playbook.Graph
