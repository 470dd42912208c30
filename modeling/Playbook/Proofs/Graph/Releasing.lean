import Mathlib.Data.Prod.Lex
import Mathlib.Order.Lattice.Nat
import Playbook.Proofs.Graph.Building

/-! In which order the nodes of a graph without cycles come out. First come those without
predecessors. Each of the others is released in the turn of the predecessor that comes out last, and
they come in the order of their releases: by the turn, and within a turn by their place among the
successors of the node that releases them. This fixes the order, and it makes the nodes come by the
length of the longest path that leads to them. -/

namespace Playbook.Graph
variable {α : Type} [DecidableEq α] {g : Graph α} {a b p q : α} {done queue l l' more : List α}
  {waiting : OrderedMap α Nat}

/-- Of the predecessors of `a`, none comes after `p` in the list. -/
structure Releases (g : Graph α) (l : List α) (p a : α) : Prop where
  edge : g.Edge p a
  last : ∀ q, g.Edge q a → l.idxOf q ≤ l.idxOf p

/-- When `p` releases `a`: in its turn, and there at the place of `a` among its successors. -/
def moment (g : Graph α) (l : List α) (p a : α) : Nat ×ₗ Nat :=
  toLex (l.idxOf p, (g.successorsOf p).idxOf a)

def Sooner (g : Graph α) (l : List α) (a b : α) : Prop :=
  ∃ p q, g.Releases l p a ∧ g.Releases l q b ∧ g.moment l p a < g.moment l q b

/-- All nodes, first those that wait for nothing, as they were added, and then the others in the
order of their releases. -/
structure Served (g : Graph α) (l : List α) : Prop where
  nodup : l.Nodup
  mem_iff : ∀ a, a ∈ l ↔ a ∈ g.nodes
  sorted : ∃ rest, l = g.independent ++ rest ∧ (∀ a ∈ rest, ∃ p, g.Releases l p a) ∧
    rest.Pairwise (g.Sooner l)

inductive Leads (g : Graph α) : Nat → α → Prop
  | start (a : α) : Leads g 0 a
  | step {n : Nat} {a b : α} : Leads g n a → g.Edge a b → Leads g (n + 1) b

theorem pairwise_idxOf (h : l.Nodup) : l.Pairwise fun a b => l.idxOf a < l.idxOf b := by
  rw [List.pairwise_iff_getElem]
  intro i j hi hj lt
  rwa [h.idxOf_getElem, h.idxOf_getElem]

theorem rel_of_idxOf_lt {r : α → α → Prop} (h : l.Pairwise r) (ha : a ∈ l) (hb : b ∈ l)
    (lt : l.idxOf a < l.idxOf b) : r a b := by
  have := List.pairwise_iff_getElem.1 h (l.idxOf a) (l.idxOf b) (List.idxOf_lt_length_of_mem ha)
    (List.idxOf_lt_length_of_mem hb) lt
  simpa using this

theorem Legal.idxOf_lt (h : g.Legal l) (hb : b ∈ l) (edge : g.Edge a b) :
    l.idxOf a < l.idxOf b := by
  obtain ⟨l₁, l₂, rfl, new⟩ := List.eq_append_cons_of_mem hb
  have ha : a ∈ l₁ := h l₁ b l₂ rfl a edge
  rw [List.idxOf_append_of_mem ha, List.idxOf_append_of_notMem new]
  exact Nat.lt_add_right _ (List.idxOf_lt_length_of_mem ha)

theorem releases_append (all : ∀ q, g.Edge q a → q ∈ l) :
    g.Releases (l ++ more) p a ↔ g.Releases l p a := by
  have same (q : α) (edge : g.Edge q a) : (l ++ more).idxOf q = l.idxOf q :=
    List.idxOf_append_of_mem (all q edge)
  constructor
  · rintro ⟨edge, last⟩
    refine ⟨edge, fun q hq => ?_⟩
    rw [← same q hq, ← same p edge]
    exact last q hq
  · rintro ⟨edge, last⟩
    refine ⟨edge, fun q hq => ?_⟩
    rw [same q hq, same p edge]
    exact last q hq

theorem moment_append (hp : p ∈ l) : g.moment (l ++ more) p a = g.moment l p a := by
  rw [moment, moment, List.idxOf_append_of_mem hp]

theorem sooner_append (ha : ∀ q, g.Edge q a → q ∈ l) (hb : ∀ q, g.Edge q b → q ∈ l) :
    g.Sooner (l ++ more) a b ↔ g.Sooner l a b := by
  refine exists_congr fun p => exists_congr fun q => ?_
  rw [releases_append ha, releases_append hb]
  refine and_congr_right fun first => and_congr_right fun second => ?_
  rw [moment_append (ha p first.edge), moment_append (hb q second.edge)]

theorem Releases.unique (ha : ∀ q, g.Edge q a → q ∈ l) (first : g.Releases l p a)
    (second : g.Releases l q a) : p = q :=
  (List.idxOf_inj (ha p first.edge)).1
    (Nat.le_antisymm (second.last p first.edge) (first.last q second.edge))

theorem Sooner.asymm (ha : ∀ q, g.Edge q a → q ∈ l) (hb : ∀ q, g.Edge q b → q ∈ l)
    (before : g.Sooner l a b) : ¬ g.Sooner l b a := by
  rintro ⟨q', p', second', first', after⟩
  obtain ⟨p, q, first, second, before⟩ := before
  obtain rfl := first.unique ha first'
  obtain rfl := second.unique hb second'
  exact lt_asymm before after

theorem Sooner.turn_le (first : g.Releases l p a) (ha : ∀ q, g.Edge q a → q ∈ l)
    (before : g.Sooner l a b) : ∃ q, g.Releases l q b ∧ l.idxOf p ≤ l.idxOf q := by
  obtain ⟨p', q, first', second, lt⟩ := before
  obtain rfl := first.unique ha first'
  refine ⟨q, second, ?_⟩
  rcases Prod.Lex.toLex_lt_toLex.1 lt with lt | ⟨same, -⟩
  · exact Nat.le_of_lt lt
  · exact Nat.le_of_eq same

/-- What came into the queue by release, in the turns of the nodes taken. -/
structure Released (g : Graph α) (done released : List α) : Prop where
  ready : ∀ a ∈ released, ∀ q, g.Edge q a → q ∈ done
  last : ∀ a ∈ released, ∃ p, g.Releases done p a
  sorted : released.Pairwise (g.Sooner done)

theorem releases_take (fresh : a ∉ done) (edge : g.Edge a b)
    (ready : ∀ q, g.Edge q b → q ∈ done ++ [a]) : g.Releases (done ++ [a]) a b := by
  refine ⟨edge, fun q hq => ?_⟩
  have last : (done ++ [a]).idxOf a = done.length := by
    rw [List.idxOf_append_of_notMem fresh, List.idxOf_cons_self, Nat.add_zero]
  have := List.idxOf_lt_length_of_mem (ready q hq)
  rw [last]
  simpa [Nat.lt_succ_iff] using this

theorem Released.take {released : List α} (r : g.Released done released)
    (h : Progress g done (a :: queue) waiting) :
    g.Released (done ++ [a]) (released ++ (release waiting (g.successorsOf a)).2) := by
  have successors := release_ready (g.nodup_successorsOf a) waiting
  have edge (b : α) (hb : b ∈ (release waiting (g.successorsOf a)).2) : g.Edge a b :=
    List.mem_of_mem_filter (successors ▸ hb)
  have ready (b : α) (hb : b ∈ (release waiting (g.successorsOf a)).2) :
      ∀ q, g.Edge q b → q ∈ done ++ [a] :=
    pending_eq_zero.1 ((h.take.mem_iff b).1
      (List.mem_append_right _ (List.mem_append_right _ hb))).2
  have old (b : α) (hb : b ∈ released) (q : α) (hq : g.Edge q b) : q ∈ done ++ [a] :=
    List.mem_append_left _ (r.ready b hb q hq)
  have new (b : α) (hb : b ∈ (release waiting (g.successorsOf a)).2) :
      g.Releases (done ++ [a]) a b := releases_take h.fresh (edge b hb) (ready b hb)
  -- among those released before, among those released now, and from the former to the latter
  refine ⟨?_, ?_, List.pairwise_append.2 ⟨?_, ?_, ?_⟩⟩
  · intro b hb
    exact (List.mem_append.1 hb).elim (old b) (ready b)
  · intro b hb
    rcases List.mem_append.1 hb with hb | hb
    · obtain ⟨p, last⟩ := r.last b hb
      exact ⟨p, (releases_append (r.ready b hb)).2 last⟩
    · exact ⟨a, new b hb⟩
  · refine r.sorted.imp_of_mem fun hb hc before => ?_
    exact (sooner_append (r.ready _ hb) (r.ready _ hc)).2 before
  · have places : (release waiting (g.successorsOf a)).2.Pairwise
        fun b c => (g.successorsOf a).idxOf b < (g.successorsOf a).idxOf c := by
      rw [successors]
      exact (pairwise_idxOf (g.nodup_successorsOf a)).sublist List.filter_sublist
    refine places.imp_of_mem fun hb hc before => ⟨a, a, new _ hb, new _ hc, ?_⟩
    exact Prod.Lex.toLex_lt_toLex.2 (.inr ⟨rfl, before⟩)
  · intro b hb c hc
    obtain ⟨p, last⟩ := r.last b hb
    refine ⟨p, a, (releases_append (r.ready b hb)).2 last, new c hc, ?_⟩
    have earlier : (done ++ [a]).idxOf p < (done ++ [a]).idxOf a := by
      have hp := r.ready b hb p last.edge
      rw [List.idxOf_append_of_mem hp, List.idxOf_append_of_notMem h.fresh]
      exact Nat.lt_add_right _ (List.idxOf_lt_length_of_mem hp)
    exact Prod.Lex.toLex_lt_toLex.2 (.inl earlier)

theorem exists_released (g : Graph α) :
    ∃ rest, g.ordered = g.independent ++ rest ∧ g.Released g.ordered rest := by
  let kept (done queue : List α) : Prop :=
    ∃ rest, done ++ queue = g.independent ++ rest ∧ g.Released done rest
  have turn {done : List α} {a : α} {queue : List α} {waiting : OrderedMap α Nat}
      (h : Progress g done (a :: queue) waiting) : kept done (a :: queue) →
        kept (done ++ [a]) (queue ++ (release waiting (g.successorsOf a)).2) := by
    rintro ⟨rest, split, released⟩
    refine ⟨_, ?_, released.take h⟩
    rw [← List.append_assoc g.independent, ← split]
    simp
  have start : kept [] g.independent := ⟨[], by simp, by simp, by simp, .nil⟩
  obtain ⟨-, -, rest, split, released⟩ :=
    Progress.drain kept turn (Progress.start g) start (Nat.add_zero g.size)
  exact ⟨rest, by simpa [ordered] using split, by simpa [ordered] using released⟩

theorem Acyclic.served (h : g.Acyclic) : g.Served g.ordered := by
  have schedule := sort_eq_ok h.sort
  obtain ⟨rest, split, released⟩ := g.exists_released
  exact ⟨schedule.nodup, schedule.mem_iff, rest, split, released.last, released.sorted⟩

namespace Served

theorem ready (h : g.Served l) (a q : α) (edge : g.Edge q a) : q ∈ l :=
  (h.mem_iff q).2 edge.source_mem

theorem sooner (h : g.Served l) (edge : g.Edge p a) (ha : a ∈ l) (hb : b ∈ l)
    (lt : l.idxOf a < l.idxOf b) : g.Sooner l a b := by
  obtain ⟨rest, split, -, sorted⟩ := h.sorted
  have waits : a ∉ g.independent := fun free => (mem_independent_iff.1 free).2 p edge
  have place : l.idxOf a = g.independent.length + rest.idxOf a := by
    rw [split, List.idxOf_append_of_notMem waits]
  have behind : b ∉ g.independent := fun free => by
    have := List.idxOf_lt_length_of_mem free
    have : l.idxOf b = g.independent.idxOf b := by rw [split, List.idxOf_append_of_mem free]
    omega
  have place' : l.idxOf b = g.independent.length + rest.idxOf b := by
    rw [split, List.idxOf_append_of_notMem behind]
  have mem (c : α) (hc : c ∈ l) (hf : c ∉ g.independent) : c ∈ rest :=
    (List.mem_append.1 (split ▸ hc)).resolve_left hf
  exact rel_of_idxOf_lt sorted (mem a ha waits) (mem b hb behind) (by omega)

theorem exists_releases (h : g.Served l) (edge : g.Edge p a) (ha : a ∈ l) :
    ∃ q, g.Releases l q a := by
  obtain ⟨rest, split, last, -⟩ := h.sorted
  rcases List.mem_append.1 (split ▸ ha) with free | ha
  · exact absurd edge ((mem_independent_iff.1 free).2 p)
  · exact last a ha

/-- No node comes before one of its predecessors: the predecessor would then come before one of its
own, and so on without end. -/
theorem idxOf_lt (h : g.Served l) (acyclic : g.Acyclic) (ha : a ∈ l) (edge : g.Edge p a) :
    l.idxOf p < l.idxOf a := by
  induction left : l.length - l.idxOf a using Nat.strong_induction_on generalizing a p with
  | _ n ih => ?_
  subst left
  by_contra late
  obtain ⟨q, last⟩ := h.exists_releases edge ha
  have hq := h.ready a q last.edge
  have late : l.idxOf a ≤ l.idxOf q := (Nat.le_of_not_lt late).trans (last.last p edge)
  have other : l.idxOf a ≠ l.idxOf q := fun same => by
    obtain rfl := (List.idxOf_inj ha).1 same
    exact acyclic a (.single last.edge)
  have lt := Nat.lt_of_le_of_ne late other
  have before := h.sooner edge ha hq lt
  obtain ⟨r, last', le⟩ := before.turn_le last (h.ready a)
  have inside := List.idxOf_lt_length_of_mem hq
  exact absurd (ih _ (by omega) hq last'.edge rfl) (Nat.not_lt.2 le)

theorem idxOf_of_getElem? (h : g.Served l) {n : Nat} (ha : l[n]? = some a) : l.idxOf a = n := by
  obtain ⟨inside, rfl⟩ := List.getElem?_eq_some_iff.1 ha
  exact h.nodup.idxOf_getElem n inside

theorem mem_take (h : g.Served l) (acyclic : g.Acyclic) {n : Nat} (ha : l[n]? = some a) (q : α)
    (edge : g.Edge q a) : q ∈ l.take n := by
  have lt := h.idxOf_lt acyclic (List.mem_of_getElem? ha) edge
  rw [h.idxOf_of_getElem? ha] at lt
  exact (List.mem_take_iff_idxOf_lt (h.ready a q edge)).2 lt

theorem notMem_take (h : g.Served l) {n : Nat} (ha : l[n]? = some a) : a ∉ l.take n := by
  rw [List.mem_take_iff_idxOf_lt (List.mem_of_getElem? ha), h.idxOf_of_getElem? ha]
  exact Nat.lt_irrefl n

theorem exists_edge (h : g.Served l) {n : Nat} (late : g.independent.length ≤ n)
    (ha : l[n]? = some a) : ∃ p, g.Edge p a := by
  obtain ⟨rest, split, last, -⟩ := h.sorted
  rw [split, List.getElem?_append_right late] at ha
  obtain ⟨p, last⟩ := last a (List.mem_of_getElem? ha)
  exact ⟨p, last.edge⟩

/-- Whatever is released by nodes among the first, though it is not one of them, is not released
before the node that comes next. -/
theorem sooner_take (h : g.Served l) (acyclic : g.Acyclic) {n : Nat}
    (late : g.independent.length ≤ n) (ha : l[n]? = some a) (hb : b ∈ l) (other : a ≠ b)
    (later : b ∉ l.take n) (ready : ∀ q, g.Edge q b → q ∈ l.take n) :
    g.Sooner (l.take n) a b := by
  have mem := List.mem_of_getElem? ha
  have le : l.idxOf a ≤ l.idxOf b := by
    rw [h.idxOf_of_getElem? ha]
    exact Nat.le_of_not_lt (mt (List.mem_take_iff_idxOf_lt hb).2 later)
  have lt := Nat.lt_of_le_of_ne le fun same => other ((List.idxOf_inj mem).1 same)
  obtain ⟨p, edge⟩ := h.exists_edge late ha
  have same : g.Sooner (l.take n ++ l.drop n) a b ↔ g.Sooner (l.take n) a b :=
    sooner_append (h.mem_take acyclic ha) ready
  rw [← same, List.take_append_drop]
  exact h.sooner edge mem hb lt

theorem getElem?_eq (h : g.Served l) (h' : g.Served l') (acyclic : g.Acyclic) {n : Nat}
    (same : l.take n = l'.take n) : l[n]? = l'[n]? := by
  have mem (c : α) : c ∈ l ↔ c ∈ l' := (h.mem_iff c).trans (h'.mem_iff c).symm
  have length : l.length = l'.length :=
    ((List.perm_ext_iff_of_nodup h.nodup h'.nodup).2 mem).length_eq
  by_cases late : g.independent.length ≤ n
  · cases ha : l[n]? with
    | none => rw [List.getElem?_eq_none (length ▸ List.getElem?_eq_none_iff.1 ha)]
    | some a =>
      obtain ⟨b, hb⟩ : ∃ b, l'[n]? = some b :=
        ⟨_, List.getElem?_eq_getElem (length ▸ (List.getElem?_eq_some_iff.1 ha).1)⟩
      rw [hb]
      by_contra differ
      -- each list would release its own next node before that of the other
      have other : a ≠ b := fun e => differ (congrArg some e)
      have ready := h.mem_take acyclic ha
      have ready' := h'.mem_take acyclic hb
      have first := h.sooner_take acyclic late ha ((mem b).2 (List.mem_of_getElem? hb)) other
        (same ▸ h'.notMem_take hb) (same ▸ ready')
      have second := h'.sooner_take acyclic late hb ((mem a).1 (List.mem_of_getElem? ha)) other.symm
        (same ▸ h.notMem_take ha) (same ▸ ready)
      rw [← same] at second ready'
      exact first.asymm ready ready' second
  · obtain ⟨rest, split, -⟩ := h.sorted
    obtain ⟨rest', split', -⟩ := h'.sorted
    have early : n < g.independent.length := Nat.lt_of_not_le late
    rw [split, split', List.getElem?_append_left early, List.getElem?_append_left early]

theorem unique (h : g.Served l) (h' : g.Served l') (acyclic : g.Acyclic) : l = l' := by
  have all (n : Nat) : l.take n = l'.take n := by
    induction n with
    | zero => rfl
    | succ n ih => rw [List.take_add_one, List.take_add_one, ih, h.getElem?_eq h' acyclic ih]
  refine List.ext_getElem? fun n => ?_
  exact h.getElem?_eq h' acyclic (all n)

theorem leads (h : g.Served l) {n : Nat} (path : g.Leads n a) (ha : a ∈ l) (hb : b ∈ l)
    (le : l.idxOf a ≤ l.idxOf b) : g.Leads n b := by
  induction n generalizing a b with
  | zero => exact .start b
  | succ n ih =>
    cases path with
    | @step _ p _ path edge =>
      rcases Nat.lt_or_eq_of_le le with lt | same
      · obtain ⟨r, last⟩ := h.exists_releases edge ha
        obtain ⟨q, last', le⟩ := (h.sooner edge ha hb lt).turn_le last (h.ready a)
        have before : l.idxOf p ≤ l.idxOf q := (last.last p edge).trans le
        exact .step (ih path (h.ready a p edge) (h.ready b q last'.edge) before) last'.edge
      · obtain rfl := (List.idxOf_inj ha).1 same
        exact .step path edge

end Served

theorem Leads.le_idxOf (legal : g.Legal l) {n : Nat} (path : g.Leads n a) (ha : a ∈ l) :
    n ≤ l.idxOf a := by
  induction path with
  | start => exact Nat.zero_le _
  | @step _ p _ _ edge ih =>
    have lt := legal.idxOf_lt ha edge
    have hp : p ∈ l := List.idxOf_lt_length_iff.1 (lt.trans (List.idxOf_lt_length_of_mem ha))
    exact Nat.lt_of_le_of_lt (ih hp) lt

theorem Acyclic.exists_height (h : g.Acyclic) :
    ∃ height : α → Nat, ∀ a ∈ g.nodes, IsGreatest {n | g.Leads n a} (height a) := by
  have schedule := sort_eq_ok h.sort
  refine ⟨fun a => sSup {n | g.Leads n a}, fun a ha => ?_⟩
  have bounded : BddAbove {n | g.Leads n a} := ⟨g.ordered.idxOf a,
    fun n path => path.le_idxOf schedule.legal ((schedule.mem_iff a).2 ha)⟩
  exact ⟨Nat.sSup_mem ⟨0, .start a⟩ bounded, fun n path => le_csSup bounded path⟩

/-- The sort of a graph without cycles is the one list in which the nodes come first that have no
predecessor, in the order of the nodes, and then the others by their releases. In this order the
longest paths that lead to the nodes never get shorter. -/
theorem sort_of_acyclic (acyclic : g.Acyclic) :
    ∃ l, g.sort = .ok l ∧ (∀ l', g.Served l' ↔ l' = l) ∧
      g.independent = g.nodes.filter (fun a => (g.predecessorsOf a).isEmpty) ∧
      ∃ height : α → Nat, (∀ a ∈ l, IsGreatest {n | g.Leads n a} (height a)) ∧
        l.Pairwise fun a b => height a ≤ height b := by
  have served := acyclic.served
  have only (l' : List α) : g.Served l' ↔ l' = g.ordered :=
    ⟨fun other => other.unique served acyclic, fun same => same ▸ served⟩
  obtain ⟨height, greatest⟩ := acyclic.exists_height
  refine ⟨g.ordered, acyclic.sort, only, g.independent_eq, height,
    fun a ha => greatest a ((served.mem_iff a).1 ha), ?_⟩
  refine (pairwise_idxOf served.nodup).imp_of_mem fun ha hb lt => ?_
  have path := (greatest _ ((served.mem_iff _).1 ha)).1
  exact (greatest _ ((served.mem_iff _).1 hb)).2 (served.leads path ha hb (Nat.le_of_lt lt))

def braid : Graph Nat := build [.edge 1 3, .edge 1 2, .edge 2 4, .edge 3 5, .edge 3 4]

theorem sort_of_acyclic_braid :
    braid.nodes = [1, 3, 2, 4, 5] ∧ braid.sort = .ok [1, 3, 2, 5, 4] ∧
      (∀ l, braid.Served l ↔ l = [1, 3, 2, 5, 4]) ∧ braid.independent = [1] := by
  obtain ⟨l, sorted, only, roots, -⟩ := sort_of_acyclic (g := braid) (sound_build _).acyclic
  have order : braid.sort.toOption = some [1, 3, 2, 5, 4] := by decide +kernel
  rw [sorted] at order
  obtain rfl : l = [1, 3, 2, 5, 4] := Option.some.inj order
  refine ⟨by decide +kernel, sorted, only, ?_⟩
  rw [roots]
  decide +kernel

end Playbook.Graph
