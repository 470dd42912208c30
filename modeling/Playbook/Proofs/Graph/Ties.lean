import Playbook.Proofs.Graph.Releasing

/-! In which order two nodes come that have the same predecessors. If these are none, the nodes come
as they were added. Otherwise the predecessor that comes last releases both of them in its turn, and
what decides is which of its edges to them was added first; when the nodes were added has no say
then. Both orders are read off the calls that have built the graph: of two things, the one was
earlier if at some moment the graph had it and not the other. -/

namespace Playbook.Graph
variable {α : Type} [DecidableEq α] {g h : Graph α} {a b p : α} {l m : List α}
  {cs before : List (Change α)} {items : Graph α → List α}

structure Siblings (g : Graph α) (a b : α) : Prop where
  left : a ∈ g.nodes
  right : b ∈ g.nodes
  other : a ≠ b
  same : ∀ p, g.Edge p a ↔ g.Edge p b

/-- After some of the calls, the graph had `a` among the items and did not have `b`. -/
def Earlier (items : Graph α → List α) (cs : List (Change α)) (a b : α) : Prop :=
  ∃ before, before <+: cs ∧ a ∈ items (build before) ∧ b ∉ items (build before)

theorem predecessorsOf_eq_iff :
    g.predecessorsOf a = g.predecessorsOf b ↔ ∀ p, g.Edge p a ↔ g.Edge p b := by
  constructor
  · intro same p
    rw [← mem_predecessorsOf, same, mem_predecessorsOf]
  · intro same
    refine congrArg (List.map Prod.fst) (List.filter_congr fun e he => ?_)
    have known := OrderedMap.get?_eq_some.2 he
    have at_entry (x : α) : g.Edge e.1 x ↔ x ∈ e.2 := by simp [edge_iff, known]
    simp only [← at_entry, same]

theorem siblings_iff : g.Siblings a b ↔ a ∈ g.nodes ∧ b ∈ g.nodes ∧ a ≠ b ∧
    g.predecessorsOf a = g.predecessorsOf b := by
  rw [predecessorsOf_eq_iff]
  exact ⟨fun h => ⟨h.left, h.right, h.other, h.same⟩, fun ⟨ha, hb, other, same⟩ =>
    ⟨ha, hb, other, same⟩⟩

instance (g : Graph α) (a b : α) : Decidable (g.Siblings a b) :=
  decidable_of_iff _ siblings_iff.symm

instance (items : Graph α → List α) (cs : List (Change α)) (a b : α) :
    Decidable (Earlier items cs a b) :=
  decidable_of_iff (∃ before ∈ cs.inits, a ∈ items (build before) ∧ b ∉ items (build before)) <| by
    simp only [List.mem_inits, Earlier]

theorem Siblings.symm (h : g.Siblings a b) : g.Siblings b a :=
  ⟨h.right, h.left, h.other.symm, fun p => (h.same p).symm⟩

theorem Siblings.not_edge (h : g.Siblings a b) (acyclic : g.Acyclic) : ¬ g.Edge a b := fun edge =>
  acyclic a (.single ((h.same a).2 edge))

structure GrowsTo (g h : Graph α) : Prop where
  nodes : g.nodes <+: h.nodes
  successors : ∀ a, g.successorsOf a <+: h.successorsOf a

theorem GrowsTo.refl (g : Graph α) : g.GrowsTo g := ⟨List.prefix_rfl, fun _ => List.prefix_rfl⟩

theorem GrowsTo.trans {k : Graph α} (first : g.GrowsTo h) (second : h.GrowsTo k) : g.GrowsTo k :=
  ⟨first.nodes.trans second.nodes, fun a => (first.successors a).trans (second.successors a)⟩

theorem GrowsTo.edge (grows : g.GrowsTo h) (edge : g.Edge a b) : h.Edge a b :=
  (grows.successors a).subset edge

theorem growsTo_addNode (g : Graph α) (a : α) : g.GrowsTo (g.addNode a) where
  nodes := by
    rw [nodes_addNode]
    split
    · exact List.prefix_rfl
    · exact List.prefix_append ..
  successors x := by rw [successorsOf_addNode]

theorem growsTo_link (g : Graph α) (a b : α) : g.GrowsTo (g.link a b) where
  nodes := by
    rw [nodes_link]
    exact ((g.growsTo_addNode a).trans (growsTo_addNode _ b)).nodes
  successors x := by
    rw [successorsOf_link]
    split
    · rename_i start
      exact start ▸ List.prefix_append ..
    · exact List.prefix_rfl

theorem change_edge (g : Graph α) (a b : α) :
    (g.change (.edge a b)).1 = g.link a b ∨ (g.change (.edge a b)).1 = g := by
  rw [change, insertEdge_eq]
  split
  · exact .inl rfl
  · exact .inr rfl

theorem growsTo_change (g : Graph α) (c : Change α) : g.GrowsTo (g.change c).1 := by
  cases c with
  | node a => exact g.growsTo_addNode a
  | edge a b =>
    rcases g.change_edge a b with taken | refused
    · exact taken ▸ g.growsTo_link a b
    · exact refused.symm ▸ .refl g

theorem build_snoc (cs : List (Change α)) (c : Change α) :
    build (cs ++ [c]) = ((build cs).change c).1 := by
  simp [build]

theorem growsTo_build (part : before <+: cs) : (build before).GrowsTo (build cs) := by
  obtain ⟨rest, rfl⟩ := part
  induction rest using List.reverseRecOn with
  | nil => exact (List.append_nil before).symm ▸ .refl _
  | append_singleton rest c ih =>
    rw [← List.append_assoc, build_snoc]
    exact ih.trans (growsTo_change _ c)

theorem edge_of_new {c : Change α} (ha : a ∈ (g.change c).1.nodes) (hb : b ∈ (g.change c).1.nodes)
    (other : a ≠ b) (ha' : a ∉ g.nodes) (hb' : b ∉ g.nodes) :
    (g.change c).1.Edge a b ∨ (g.change c).1.Edge b a := by
  cases c with
  | node x =>
    have first := (mem_nodes_addNode.1 ha).resolve_left ha'
    have second := (mem_nodes_addNode.1 hb).resolve_left hb'
    exact absurd (first.trans second.symm) other
  | edge x y =>
    rcases g.change_edge x y with taken | refused
    · rw [taken] at ha hb ⊢
      rcases (mem_nodes_link.1 ha).resolve_left ha' with rfl | rfl <;>
        rcases (mem_nodes_link.1 hb).resolve_left hb' with rfl | rfl
      · exact absurd rfl other
      · exact .inl (edge_link.2 (.inr ⟨rfl, rfl⟩))
      · exact .inr (edge_link.2 (.inr ⟨rfl, rfl⟩))
      · exact absurd rfl other
    · exact absurd (refused ▸ ha) ha'

theorem eq_of_new_edges {c : Change α} (ha : (g.change c).1.Edge p a) (hb : (g.change c).1.Edge p b)
    (ha' : ¬ g.Edge p a) (hb' : ¬ g.Edge p b) : a = b := by
  cases c with
  | node x => exact absurd (edge_addNode.1 ha) ha'
  | edge x y =>
    rcases g.change_edge x y with taken | refused
    · rw [taken] at ha hb
      have first := (edge_link.1 ha).resolve_left ha'
      have second := (edge_link.1 hb).resolve_left hb'
      exact first.2.trans second.2.symm
    · exact absurd (refused ▸ ha) ha'

theorem Earlier.snoc (earlier : Earlier items cs a b) (c : Change α) :
    Earlier items (cs ++ [c]) a b := by
  obtain ⟨before, part, ha, hb⟩ := earlier
  exact ⟨before, part.trans (List.prefix_append ..), ha, hb⟩

theorem earlier_or (grows : (build cs).GrowsTo h) (none : items empty = [])
    (one : ∀ g c, (g.change c).1.GrowsTo h → a ∈ items (g.change c).1 → b ∈ items (g.change c).1 →
      a ∈ items g ∨ b ∈ items g)
    (ha : a ∈ items (build cs)) (hb : b ∈ items (build cs)) :
    Earlier items cs a b ∨ Earlier items cs b a := by
  -- from the last call back to the one that has added the later of the two
  induction cs using List.reverseRecOn with
  | nil => exact absurd (none ▸ ha) List.not_mem_nil
  | append_singleton cs c ih =>
    rw [build_snoc] at grows ha hb
    have part : cs <+: cs ++ [c] := List.prefix_append ..
    by_cases ha' : a ∈ items (build cs) <;> by_cases hb' : b ∈ items (build cs)
    · exact (ih ((growsTo_change _ c).trans grows) ha' hb').imp (·.snoc c) (·.snoc c)
    · exact .inl ⟨cs, part, ha', hb'⟩
    · exact .inr ⟨cs, part, hb', ha'⟩
    · exact absurd (one _ c grows ha hb) (not_or.2 ⟨ha', hb'⟩)

theorem Earlier.idxOf_lt
    (stays : ∀ before, before <+: cs → items (build before) <+: items (build cs))
    (earlier : Earlier items cs a b) :
    (items (build cs)).idxOf a < (items (build cs)).idxOf b := by
  obtain ⟨before, part, ha, hb⟩ := earlier
  have inside := ((stays before part).mem_iff_idxOf_lt_length a).1 ha
  have outside := mt ((stays before part).mem_iff_idxOf_lt_length b).2 hb
  omega

theorem earlier_iff (none : items empty = [])
    (stays : ∀ before, before <+: cs → items (build before) <+: items (build cs))
    (one : ∀ g c, (g.change c).1.GrowsTo (build cs) → a ∈ items (g.change c).1 →
      b ∈ items (g.change c).1 → a ∈ items g ∨ b ∈ items g)
    (ha : a ∈ items (build cs)) (hb : b ∈ items (build cs)) :
    Earlier items cs a b ↔ (items (build cs)).idxOf a < (items (build cs)).idxOf b := by
  refine ⟨Earlier.idxOf_lt stays, fun lt => ?_⟩
  refine (earlier_or (.refl _) none one ha hb).resolve_right fun back => ?_
  exact Nat.lt_asymm lt (back.idxOf_lt stays)

theorem Siblings.earlier_iff (h : (build cs).Siblings a b) :
    Earlier nodes cs a b ↔ (build cs).nodes.idxOf a < (build cs).nodes.idxOf b := by
  have acyclic := (sound_build cs).acyclic
  refine Graph.earlier_iff rfl (fun _ part => (growsTo_build part).nodes)
    (fun g c grows ha hb => ?_) h.left h.right
  by_contra new
  obtain ⟨ha', hb'⟩ := not_or.1 new
  rcases edge_of_new ha hb h.other ha' hb' with edge | edge
  · exact h.not_edge acyclic (grows.edge edge)
  · exact h.symm.not_edge acyclic (grows.edge edge)

theorem earlier_successors_iff (ha : (build cs).Edge p a) (hb : (build cs).Edge p b)
    (other : a ≠ b) : Earlier (successorsOf · p) cs a b ↔
      ((build cs).successorsOf p).idxOf a < ((build cs).successorsOf p).idxOf b := by
  refine earlier_iff rfl (fun _ part => (growsTo_build part).successors p)
    (fun g c _ ha hb => ?_) ha hb
  by_contra new
  obtain ⟨ha', hb'⟩ := not_or.1 new
  exact other (eq_of_new_edges ha hb ha' hb')

theorem pair_sublist_iff (hd : l.Nodup) (ha : a ∈ l) (hb : b ∈ l) :
    [a, b].Sublist l ↔ l.idxOf a < l.idxOf b := by
  constructor
  · intro sub
    simpa using (pairwise_idxOf hd).sublist sub
  · intro lt
    obtain ⟨l₁, l₂, rfl, new⟩ := List.eq_append_cons_of_mem hb
    have first : a ∈ l₁ := by
      rw [(List.prefix_append l₁ (b :: l₂)).mem_iff_idxOf_lt_length a]
      simpa [List.idxOf_append_of_notMem new] using lt
    exact (List.singleton_sublist.2 first).append (by simp)

theorem idxOf_lt_iff_of_sublist (hd : m.Nodup) (sub : l.Sublist m) (ha : a ∈ l) (hb : b ∈ l) :
    l.idxOf a < l.idxOf b ↔ m.idxOf a < m.idxOf b := by
  have sorted : l.Pairwise fun x y => m.idxOf x < m.idxOf y := (pairwise_idxOf hd).sublist sub
  have same : l.idxOf a = l.idxOf b → m.idxOf a = m.idxOf b := fun e =>
    congrArg m.idxOf ((List.idxOf_inj ha).1 e)
  have forth := rel_of_idxOf_lt sorted ha hb
  have back := rel_of_idxOf_lt sorted hb ha
  omega

namespace Served

theorem roots_iff (h : g.Served l) (ha : a ∈ g.independent) (hb : b ∈ g.independent) :
    l.idxOf a < l.idxOf b ↔ g.nodes.idxOf a < g.nodes.idxOf b := by
  obtain ⟨rest, split, -⟩ := h.sorted
  have front : g.independent.Sublist l := split ▸ List.sublist_append_left ..
  have among : g.independent.Sublist g.nodes := by
    rw [independent_eq]
    exact List.filter_sublist
  rw [← idxOf_lt_iff_of_sublist h.nodup front ha hb,
    idxOf_lt_iff_of_sublist g.nodup_nodes among ha hb]

theorem place_lt (h : g.Served l) (ha : a ∈ l) (hb : b ∈ l) (first : g.Releases l p a)
    (second : g.Releases l p b) (lt : l.idxOf a < l.idxOf b) :
    (g.successorsOf p).idxOf a < (g.successorsOf p).idxOf b := by
  obtain ⟨p₁, p₂, first', second', lt⟩ := h.sooner first.edge ha hb lt
  obtain rfl := first.unique (h.ready a) first'
  obtain rfl := second.unique (h.ready b) second'
  rcases Prod.Lex.toLex_lt_toLex.1 lt with turn | ⟨-, place⟩
  · exact absurd turn (Nat.lt_irrefl _)
  · exact place

/-- What one node releases comes in the order of its successors. -/
theorem released_iff (h : g.Served l) (ha : a ∈ l) (hb : b ∈ l) (first : g.Releases l p a)
    (second : g.Releases l p b) : l.idxOf a < l.idxOf b ↔
      (g.successorsOf p).idxOf a < (g.successorsOf p).idxOf b := by
  have same : l.idxOf a = l.idxOf b → (g.successorsOf p).idxOf a = (g.successorsOf p).idxOf b :=
    fun e => congrArg (g.successorsOf p).idxOf ((List.idxOf_inj ha).1 e)
  have forth := h.place_lt ha hb first second
  have back := h.place_lt hb ha second first
  omega

theorem existsUnique_releases (h : g.Served l) (ha : a ∈ l) (edge : g.Edge p a) :
    ∃! q, g.Releases l q a := by
  obtain ⟨q, last⟩ := h.exists_releases edge ha
  exact ⟨q, last, fun r last' => last'.unique (h.ready a) last⟩

end Served

instance (g : Graph α) (l : List α) (p a : α) : Decidable (g.Releases l p a) :=
  decidable_of_iff (g.Edge p a ∧ ∀ q ∈ g.predecessorsOf a, l.idxOf q ≤ l.idxOf p)
    ⟨fun ⟨edge, last⟩ => ⟨edge, fun q hq => last q (mem_predecessorsOf.2 hq)⟩,
      fun ⟨edge, last⟩ => ⟨edge, fun q hq => last q (mem_predecessorsOf.1 hq)⟩⟩

namespace Siblings

theorem releases_iff (h : g.Siblings a b) : g.Releases l p a ↔ g.Releases l p b := by
  constructor
  · exact fun last => ⟨(h.same p).1 last.edge, fun q hq => last.last q ((h.same q).2 hq)⟩
  · exact fun last => ⟨(h.same p).2 last.edge, fun q hq => last.last q ((h.same q).1 hq)⟩

theorem idxOf_ne (h : g.Siblings a b) (ha : a ∈ l) : l.idxOf a ≠ l.idxOf b := fun e =>
  h.other ((List.idxOf_inj ha).1 e)

theorem earlier_iff_not (h : (build cs).Siblings a b) :
    Earlier nodes cs a b ↔ ¬ Earlier nodes cs b a := by
  have apart := h.idxOf_ne h.left
  rw [h.earlier_iff, h.symm.earlier_iff]
  omega

theorem sublist_iff (h : g.Siblings a b) (served : g.Served l) :
    [a, b].Sublist l ↔ l.idxOf a < l.idxOf b :=
  pair_sublist_iff served.nodup ((served.mem_iff a).2 h.left) ((served.mem_iff b).2 h.right)

theorem sublist_iff_not (h : g.Siblings a b) (served : g.Served l) :
    [a, b].Sublist l ↔ ¬ [b, a].Sublist l := by
  have apart := h.idxOf_ne ((served.mem_iff a).2 h.left)
  rw [h.sublist_iff served, h.symm.sublist_iff served]
  omega

theorem sublist_iff_of_releases (h : (build cs).Siblings a b) (served : (build cs).Served l)
    (last : (build cs).Releases l p a) :
    [a, b].Sublist l ↔ Earlier (successorsOf · p) cs a b := by
  have last' := h.releases_iff.1 last
  rw [h.sublist_iff served, earlier_successors_iff last.edge last'.edge h.other]
  exact served.released_iff ((served.mem_iff a).2 h.left) ((served.mem_iff b).2 h.right) last last'

theorem sublist_iff_of_root (h : (build cs).Siblings a b) (served : (build cs).Served l)
    (root : ∀ p, ¬ (build cs).Edge p a) : [a, b].Sublist l ↔ Earlier nodes cs a b := by
  have root' (p : α) : ¬ (build cs).Edge p b := mt (h.same p).2 (root p)
  rw [h.sublist_iff served, h.earlier_iff]
  exact served.roots_iff (mem_independent_iff.2 ⟨h.left, root⟩)
    (mem_independent_iff.2 ⟨h.right, root'⟩)

end Siblings

/-- Two nodes with the same predecessors come in the order in which the edges to them from the last
of these were added. So they come in the order in which they were added themselves exactly if those
edges were added in this order, and in any case if they have no predecessors. -/
theorem sort_siblings (h : (build cs).Siblings a b) :
    ∃ l, (build cs).sort = .ok l ∧ ([a, b].Sublist l ↔ ¬ [b, a].Sublist l) ∧
      (Earlier nodes cs a b ↔ ¬ Earlier nodes cs b a) ∧
      ((∃ p, (build cs).Edge p a) → ∃! p, (build cs).Releases l p a) ∧
      (∀ p, (build cs).Releases l p a →
        ([a, b].Sublist l ↔ Earlier (successorsOf · p) cs a b)) ∧
      (([a, b].Sublist l ↔ Earlier nodes cs a b) ↔ ∀ p, (build cs).Releases l p a →
        (Earlier (successorsOf · p) cs a b ↔ Earlier nodes cs a b)) := by
  have acyclic := (sound_build cs).acyclic
  have served := acyclic.served
  have ha := (served.mem_iff a).2 h.left
  have decides (p : α) := h.sublist_iff_of_releases (p := p) served
  refine ⟨_, acyclic.sort, h.sublist_iff_not served, h.earlier_iff_not,
    fun ⟨p, edge⟩ => served.existsUnique_releases ha edge, decides, ?_, fun agree => ?_⟩
  · exact fun asAdded p last => (decides p last).symm.trans asAdded
  · by_cases waits : ∃ p, (build cs).Edge p a
    · obtain ⟨p, edge⟩ := waits
      obtain ⟨q, last⟩ := served.exists_releases edge ha
      exact (decides q last).trans (agree q last)
    · exact h.sublist_iff_of_root served (not_exists.1 waits)

def crossing : List (Change Nat) :=
  [.node 3, .node 4, .edge 1 3, .edge 1 4, .edge 2 4, .edge 2 3]

theorem sort_siblings_crossing :
    (build crossing).Siblings 3 4 ∧ (build crossing).sort = .ok [1, 2, 4, 3] ∧
      Earlier nodes crossing 3 4 ∧ (∀ p, (build crossing).Releases [1, 2, 4, 3] p 3 ↔ p = 2) ∧
      ¬ Earlier (successorsOf · 2) crossing 3 4 := by
  have siblings : (build crossing).Siblings 3 4 := by decide +kernel
  obtain ⟨l, sorted, -, -, only, decides, -⟩ := sort_siblings siblings
  have order : (build crossing).sort = .ok [1, 2, 4, 3] := by decide +kernel
  obtain rfl : l = [1, 2, 4, 3] := Except.ok.inj (sorted.symm.trans order)
  have added : Earlier nodes crossing 3 4 := by decide +kernel
  have last : (build crossing).Releases [1, 2, 4, 3] 2 3 := by decide +kernel
  refine ⟨siblings, order, added, fun p => ⟨fun other => ?_, fun same => same ▸ last⟩, ?_⟩
  · exact (only ⟨2, last.edge⟩).unique other last
  · rw [← decides 2 last]
    decide

/-- Two nodes do not always come as they were added, even with one predecessor alone. -/
theorem not_forall_ties : ¬ ∀ (cs : List (Change Nat)) (a b : Nat) (l : List Nat),
    (build cs).Siblings a b → (build cs).sort = .ok l → Earlier nodes cs a b →
      [a, b].Sublist l := by
  intro ties
  let cs : List (Change Nat) := [.node 2, .node 3, .edge 1 3, .edge 1 2]
  have added : Earlier nodes cs 2 3 := by decide +kernel
  have sorted : (build cs).sort = .ok [1, 3, 2] := by decide +kernel
  have order := ties cs 2 3 [1, 3, 2] (by decide +kernel) sorted added
  exact absurd order (by decide)

end Playbook.Graph
