import Mathlib.Data.Fintype.Card
import Mathlib.Data.Fintype.EquivFin
import Mathlib.Data.Fintype.Sets
import Mathlib.Data.List.Nodup
import Mathlib.Order.WellFounded
import Playbook.Proofs.Graph.Edges

/-! What the sort of a graph comes to. The queue holds, at every turn, the nodes all of whose
predecessors have been taken and which have not been taken themselves; a node waits for as many
predecessors as have not been taken. So the nodes that come out are distinct, each comes after its
predecessors, and nothing is left over exactly when no cycle is there. -/

namespace Playbook.Graph
variable {α : Type} [DecidableEq α] {g : Graph α} {a b : α} {done queue l : List α}
  {waiting : OrderedMap α Nat}

theorem get?_release (hl : l.Nodup) (waiting : OrderedMap α Nat) (b : α) :
    (release waiting l).1.get? b =
      if b ∈ l then (waiting.get? b).map (· - 1) else waiting.get? b := by
  induction l generalizing waiting with
  | nil => simp [release]
  | cons a l ih =>
    obtain ⟨ha, hl⟩ := List.nodup_cons.1 hl
    cases hw : waiting.get? a with
    | none =>
      simp only [release, hw, ih hl]
      by_cases hb : b = a
      · subst hb
        simp [ha, hw]
      · simp [hb]
    | some n =>
      simp only [release, hw, ih hl, OrderedMap.get?_insert]
      by_cases hb : b = a
      · subst hb
        simp [ha, hw]
      · simp [hb]

theorem release_ready (hl : l.Nodup) (waiting : OrderedMap α Nat) :
    (release waiting l).2 = l.filter (waiting.get? · = some 1) := by
  induction l generalizing waiting with
  | nil => simp [release]
  | cons a l ih =>
    obtain ⟨ha, hl⟩ := List.nodup_cons.1 hl
    cases hw : waiting.get? a with
    | none => simp [release, hw, ih hl]
    | some n =>
      have rest : l.filter ((waiting.insert a (n - 1)).get? · = some 1) =
          l.filter (waiting.get? · = some 1) := by
        refine List.filter_congr fun b hb => ?_
        have : b ≠ a := fun h => ha (h ▸ hb)
        simp [OrderedMap.get?_insert, this]
      by_cases hn : n = 1 <;> simp [release, hw, hn, ih hl, ← rest]

def pending (g : Graph α) (done : List α) (a : α) : Nat :=
  ((g.predecessorsOf a).filter (· ∉ done)).length

theorem pending_nil (g : Graph α) (a : α) : g.pending [] a = (g.predecessorsOf a).length := by
  simp [pending]

theorem pending_eq_zero : g.pending done a = 0 ↔ ∀ p, g.Edge p a → p ∈ done := by
  simp [pending, mem_predecessorsOf]

theorem pending_take (g : Graph α) (done : List α) (a b : α) :
    g.pending (done ++ [a]) b =
      if g.Edge a b ∧ a ∉ done then g.pending done b - 1 else g.pending done b := by
  have hn := (g.nodup_predecessorsOf b).filter (· ∉ done)
  have he : (g.predecessorsOf b).filter (· ∉ done ++ [a]) =
      ((g.predecessorsOf b).filter (· ∉ done)).erase a := by
    rw [hn.erase_eq_filter, List.filter_filter]
    refine List.filter_congr fun x _ => ?_
    by_cases hx : x = a <;> simp [hx]
  rw [pending, he, List.length_erase]
  simp [pending, mem_predecessorsOf]

def Legal (g : Graph α) (l : List α) : Prop :=
  ∀ l₁ a l₂, l = l₁ ++ a :: l₂ → ∀ p, g.Edge p a → p ∈ l₁

theorem Legal.snoc (h : g.Legal l) (ha : ∀ p, g.Edge p a → p ∈ l) : g.Legal (l ++ [a]) := by
  intro l₁ b l₂ e p hp
  rcases List.eq_nil_or_concat l₂ with rfl | ⟨m, c, rfl⟩
  · obtain ⟨rfl, hb⟩ := List.append_inj' e rfl
    obtain rfl : a = b := by simpa using hb
    exact ha p hp
  · have e' : l ++ [a] = (l₁ ++ b :: m) ++ [c] := by simpa using e
    exact h l₁ b m (List.append_inj' e' rfl).1 p hp

theorem Legal.ancestor (h : g.Legal l) {l₁ l₂ : List α} (e : l = l₁ ++ b :: l₂)
    (hab : Relation.TransGen g.Edge a b) : a ∈ l₁ := by
  induction hab generalizing l₁ l₂ with
  | single hab => exact h l₁ _ l₂ e _ hab
  | @tail b c _ hbc ih =>
    obtain ⟨m₁, m₂, rfl⟩ := List.append_of_mem (h l₁ c l₂ e b hbc)
    have split : l = m₁ ++ b :: (m₂ ++ c :: l₂) := by simpa using e
    exact List.mem_append_left _ (ih split)

/-- How far a sort has come: the nodes taken, those in the queue, and what the others wait for. -/
structure Progress (g : Graph α) (done queue : List α) (waiting : OrderedMap α Nat) : Prop where
  nodup : (done ++ queue).Nodup
  mem_iff : ∀ a, a ∈ done ++ queue ↔ a ∈ g.nodes ∧ g.pending done a = 0
  waits : ∀ a, waiting.get? a = if a ∈ g.nodes then some (g.pending done a) else none
  legal : g.Legal done

theorem get?_inDegrees (g : Graph α) (a : α) :
    g.inDegrees.get? a = if a ∈ g.nodes then some (g.predecessorsOf a).length else none := by
  rw [inDegrees, OrderedMap.get?_mapValues]
  by_cases h : a ∈ g.nodes
  · obtain ⟨s, hs⟩ := mem_nodes.1 h
    simp [h, hs]
  · simp [h, OrderedMap.get?_eq_none.2 h]

theorem mem_independent : a ∈ g.independent ↔ a ∈ g.nodes ∧ g.pending [] a = 0 := by
  have : a ∈ g.independent ↔ g.inDegrees.get? a = some 0 := by
    simp [independent, OrderedMap.get?_eq_some]
  rw [this, get?_inDegrees, pending_nil]
  by_cases h : a ∈ g.nodes <;> simp [h]

theorem nodup_independent (g : Graph α) : g.independent.Nodup :=
  g.inDegrees.distinct.sublist (List.filter_sublist.map _)

theorem independent_eq (g : Graph α) :
    g.independent = g.nodes.filter fun a => (g.predecessorsOf a).isEmpty := by
  simp only [independent, inDegrees, OrderedMap.mapValues, nodes, OrderedMap.keys, List.filter_map,
    List.map_map]
  congr 1
  refine List.filter_congr fun e _ => ?_
  rw [Bool.eq_iff_iff]
  simp

theorem predecessorsOf_isEmpty : (g.predecessorsOf a).isEmpty = true ↔ ∀ p, ¬ g.Edge p a := by
  simp [List.isEmpty_iff, List.eq_nil_iff_forall_not_mem, mem_predecessorsOf]

theorem mem_independent_iff : a ∈ g.independent ↔ a ∈ g.nodes ∧ ∀ p, ¬ g.Edge p a := by
  rw [independent_eq, List.mem_filter, predecessorsOf_isEmpty]

theorem Progress.start (g : Graph α) : Progress g [] g.independent g.inDegrees where
  nodup := g.nodup_independent
  mem_iff _ := mem_independent
  waits a := by rw [get?_inDegrees, pending_nil]
  legal _ _ _ h := by simp at h

theorem Progress.fresh (h : Progress g done (a :: queue) waiting) : a ∉ done := fun hm =>
  (List.nodup_append.1 h.nodup).2.2 a hm a (by simp) rfl

theorem Progress.pending_ne_zero (h : Progress g done (a :: queue) waiting) (edge : g.Edge a b) :
    g.pending done b ≠ 0 := fun none => h.fresh (pending_eq_zero.1 none a edge)

theorem Progress.take (h : Progress g done (a :: queue) waiting) :
    Progress g (done ++ [a]) (queue ++ (release waiting (g.successorsOf a)).2)
      (release waiting (g.successorsOf a)).1 := by
  have hs := g.nodup_successorsOf a
  obtain ⟨ha, hp⟩ := (h.mem_iff a).1 (by simp)
  have split : ((done ++ [a]) ++ queue).Nodup := by simpa using h.nodup
  have take (b : α) : g.pending (done ++ [a]) b =
      if g.Edge a b then g.pending done b - 1 else g.pending done b := by
    simp [pending_take, h.fresh]
  have ready (b : α) : b ∈ (release waiting (g.successorsOf a)).2 ↔
      g.Edge a b ∧ b ∈ g.nodes ∧ g.pending done b = 1 := by
    rw [release_ready hs, List.mem_filter, h.waits]
    by_cases hb : b ∈ g.nodes <;> simp [hb, Edge]
  refine ⟨?_, fun b => ?_, fun b => ?_, h.legal.snoc (pending_eq_zero.1 hp)⟩
  · rw [← List.append_assoc, List.nodup_append]
    refine ⟨split, ?_, ?_⟩
    · rw [release_ready hs]
      exact hs.filter _
    · -- what was taken or queued before waited for nothing, what is released waited for `a`
      rintro b hb c hc rfl
      have := ((h.mem_iff b).1 (by simpa using hb)).2
      have := ((ready b).1 hc).2.2
      omega
  · rw [← List.append_assoc, List.mem_append, ready]
    have old : b ∈ done ++ [a] ++ queue ↔ b ∈ g.nodes ∧ g.pending done b = 0 := by
      rw [← h.mem_iff]
      simp
    rw [old, take]
    by_cases hb : g.Edge a b
    · have := h.pending_ne_zero hb
      by_cases hn : b ∈ g.nodes
      · simp only [hb, hn, if_true, true_and]
        omega
      · simp [hn]
    · simp [hb]
  · rw [get?_release hs, h.waits, take]
    have hm : b ∈ g.successorsOf a ↔ g.Edge a b := Iff.rfl
    by_cases hb : g.Edge a b <;> by_cases hn : b ∈ g.nodes <;> simp [hm, hb, hn]

theorem Progress.length_le (h : Progress g done queue waiting) :
    (done ++ queue).length ≤ g.size := by
  rw [← length_nodes]
  exact (h.nodup.subperm fun a ha => ((h.mem_iff a).1 ha).1).length_le

/-- The queue runs empty before the turns are used up, and what every turn keeps holds then. -/
theorem Progress.drain (kept : List α → List α → Prop)
    (turn : ∀ {done a queue waiting}, Progress g done (a :: queue) waiting →
      kept done (a :: queue) →
        kept (done ++ [a]) (queue ++ (release waiting (g.successorsOf a)).2))
    {left : Nat} (h : Progress g done queue waiting) (start : kept done queue)
    (hleft : left + done.length = g.size) :
    ∃ waiting', Progress g (done ++ g.drain left queue waiting) [] waiting' ∧
      kept (done ++ g.drain left queue waiting) [] := by
  induction left generalizing done queue waiting with
  | zero =>
    have := h.length_le
    obtain rfl : queue = [] := by
      apply List.eq_nil_of_length_eq_zero
      simp only [List.length_append] at this
      omega
    exact ⟨waiting, by simpa [Graph.drain] using h, by simpa [Graph.drain] using start⟩
  | succ left ih =>
    cases queue with
    | nil => exact ⟨waiting, by simpa [Graph.drain] using h, by simpa [Graph.drain] using start⟩
    | cons a queue =>
      obtain ⟨waiting', h', kept'⟩ := ih h.take (turn h start) (by simp; omega)
      exact ⟨waiting', by simpa [Graph.drain] using h', by simpa [Graph.drain] using kept'⟩

theorem ordered_progress (g : Graph α) : ∃ waiting, Progress g g.ordered [] waiting := by
  obtain ⟨waiting, h, -⟩ := Progress.drain (fun _ _ => True) (fun _ _ => trivial) (Progress.start g)
    trivial (Nat.add_zero g.size)
  exact ⟨waiting, h⟩

theorem nodup_ordered (g : Graph α) : g.ordered.Nodup := by
  obtain ⟨_, h⟩ := g.ordered_progress
  simpa using h.nodup

theorem legal_ordered (g : Graph α) : g.Legal g.ordered := by
  obtain ⟨_, h⟩ := g.ordered_progress
  exact h.legal

theorem mem_ordered : a ∈ g.ordered ↔ a ∈ g.nodes ∧ ∀ p, g.Edge p a → p ∈ g.ordered := by
  obtain ⟨_, h⟩ := g.ordered_progress
  simpa [pending_eq_zero] using h.mem_iff a

/-- Some cycle leads to the node, be it that the node lies on it. -/
def AfterCycle (g : Graph α) (a : α) : Prop :=
  ∃ c, Relation.TransGen g.Edge c c ∧ Relation.ReflTransGen g.Edge c a

theorem AfterCycle.tail (h : g.AfterCycle a) (edge : g.Edge a b) : g.AfterCycle b := by
  obtain ⟨c, cycle, path⟩ := h
  exact ⟨c, cycle, path.tail edge⟩

theorem mem_ordered_of_reaches (h : b ∈ g.ordered) (path : Relation.ReflTransGen g.Edge a b) :
    a ∈ g.ordered := by
  induction path using Relation.ReflTransGen.head_induction_on with
  | refl => exact h
  | head edge _ ih => exact (mem_ordered.1 ih).2 _ edge

theorem not_afterCycle_of_mem (h : a ∈ g.ordered) : ¬ g.AfterCycle a := by
  rintro ⟨c, cycle, path⟩
  obtain ⟨l₁, l₂, e⟩ := List.append_of_mem (mem_ordered_of_reaches h path)
  have distinct := g.nodup_ordered
  rw [e, List.nodup_append] at distinct
  exact distinct.2.2 c (g.legal_ordered.ancestor e cycle) c (by simp) rfl

/-- Where no cycle leads to, the edges cannot be followed backwards for ever. -/
theorem wellFounded_edge (g : Graph α) :
    WellFounded fun a b : {a // a ∈ g.nodes ∧ ¬ g.AfterCycle a} => g.Edge a b := by
  let r : {a // a ∈ g.nodes ∧ ¬ g.AfterCycle a} → {a // a ∈ g.nodes ∧ ¬ g.AfterCycle a} → Prop :=
    fun a b => Relation.TransGen g.Edge a b
  have : Finite {a // a ∈ g.nodes ∧ ¬ g.AfterCycle a} :=
    Finite.of_injective (fun a => (⟨a.1, a.2.1⟩ : {a // a ∈ g.nodes})) fun a b same =>
      Subtype.ext (congrArg (fun c : {a // a ∈ g.nodes} => c.1) same)
  have : IsTrans _ r := ⟨fun _ _ _ hab hbc => hab.trans hbc⟩
  have : Std.Irrefl r := ⟨fun a cycle => a.2.2 ⟨a, cycle, .refl⟩⟩
  exact (Finite.wellFounded_of_trans_of_irrefl r).mono fun _ _ hab => .single hab

/-- What comes out are the nodes that no cycle leads to. -/
theorem mem_ordered_iff : a ∈ g.ordered ↔ a ∈ g.nodes ∧ ¬ g.AfterCycle a := by
  constructor
  · exact fun h => ⟨(mem_ordered.1 h).1, not_afterCycle_of_mem h⟩
  · intro h
    -- along the edges: a node comes out because its predecessors do
    have all : ∀ b : {b // b ∈ g.nodes ∧ ¬ g.AfterCycle b}, b.1 ∈ g.ordered := fun b =>
      g.wellFounded_edge.induction b fun b ih =>
        mem_ordered.2 ⟨b.2.1, fun p edge =>
          ih ⟨p, edge.source_mem, fun after => b.2.2 (after.tail edge)⟩ edge⟩
    exact all ⟨a, h⟩

theorem isAcyclic_iff_all : g.isAcyclic ↔ ∀ a ∈ g.nodes, a ∈ g.ordered := by
  have sub : g.ordered.Subperm g.nodes := g.nodup_ordered.subperm fun a ha => (mem_ordered.1 ha).1
  simp only [isAcyclic, beq_iff_eq, ← length_nodes]
  constructor
  · intro h a ha
    exact (sub.perm_of_length_le h.ge).mem_iff.2 ha
  · intro h
    exact le_antisymm sub.length_le (g.nodup_nodes.subperm h).length_le

theorem isAcyclic_iff : g.isAcyclic ↔ g.Acyclic := by
  rw [isAcyclic_iff_all]
  constructor
  · intro h a cycle
    obtain ⟨b, first, -⟩ := Relation.TransGen.head'_iff.1 cycle
    exact not_afterCycle_of_mem (h a first.source_mem) ⟨a, cycle, .refl⟩
  · exact fun h a ha => mem_ordered_iff.2 ⟨ha, fun ⟨c, cycle, _⟩ => h c cycle⟩

/-- A list of all nodes in which each edge leads forwards. -/
structure Schedule (g : Graph α) (l : List α) : Prop where
  nodup : l.Nodup
  mem_iff : ∀ a, a ∈ l ↔ a ∈ g.nodes
  legal : g.Legal l

theorem Legal.sublist (h : g.Legal l) (hb : b ∈ l) (hab : Relation.TransGen g.Edge a b) :
    [a, b].Sublist l := by
  obtain ⟨l₁, l₂, rfl⟩ := List.append_of_mem hb
  exact (List.singleton_sublist.2 (h.ancestor rfl hab)).append
    (List.singleton_sublist.2 (List.mem_cons_self ..))

theorem sort_eq_ok (h : g.sort = .ok l) : g.Schedule l := by
  unfold sort at h
  split at h
  · rename_i hg
    obtain rfl : g.ordered = l := by simpa using h
    exact ⟨g.nodup_ordered, fun a => ⟨fun ha => (mem_ordered.1 ha).1, isAcyclic_iff_all.1 hg a⟩,
      g.legal_ordered⟩
  · cases h

theorem Acyclic.of_sort (h : g.sort = .ok l) : g.Acyclic := by
  unfold sort at h
  split at h
  · rename_i acyclic
    exact isAcyclic_iff.1 acyclic
  · cases h

theorem Acyclic.sort (h : g.Acyclic) : g.sort = .ok g.ordered := if_pos (isAcyclic_iff.2 h)

theorem Acyclic.exists_root (h : g.Acyclic) (ha : a ∈ g.nodes) :
    ∃ root ∈ g.independent, Relation.ReflTransGen g.Edge root a := by
  have clear (b : α) : ¬ g.AfterCycle b := fun ⟨c, cycle, _⟩ => h c cycle
  have all (b : {b // b ∈ g.nodes ∧ ¬ g.AfterCycle b}) :
      ∃ root ∈ g.independent, Relation.ReflTransGen g.Edge root b := by
    induction b using g.wellFounded_edge.induction with
    | _ b ih =>
      by_cases waits : ∃ p, g.Edge p b
      · obtain ⟨p, edge⟩ := waits
        obtain ⟨root, free, path⟩ := ih ⟨p, edge.source_mem, clear p⟩ edge
        exact ⟨root, free, path.tail edge⟩
      · exact ⟨b, mem_independent_iff.2 ⟨b.2.1, not_exists.1 waits⟩, .refl⟩
  exact all ⟨a, ha, clear a⟩

end Playbook.Graph
