import Mathlib.Data.Set.Card
import Playbook.Proofs.Graph.Sorting
import Playbook.Session.Schedule

/-! The sort as a loop that goes on until its queue is empty. Counts start at nothing and go up by
one for each edge; each turn looks up the successors of a node that it takes to be there, and counts
down by one for each of them, where a count of zero has no way down. None of this ever gets stuck,
on any graph, and what comes out are the nodes that no cycle leads to. -/

namespace Playbook
namespace Graph
variable {α : Type} [DecidableEq α]

def countUp (counts : OrderedMap α Nat) : List α → OrderedMap α Nat
  | [] => counts
  | a :: l =>
    match counts.get? a with
    | none => countUp counts l
    | some n => countUp (counts.insert a (n + 1)) l

def tally (g : Graph α) : OrderedMap α Nat :=
  countUp (g.successors.mapValues fun _ _ => 0) (g.edges.map Prod.snd)

theorem keys_countUp (counts : OrderedMap α Nat) (l : List α) :
    (countUp counts l).keys = counts.keys := by
  induction l generalizing counts with
  | nil => rfl
  | cons a l ih =>
    cases count : counts.get? a with
    | none => simp [countUp, count, ih]
    | some n => simp [countUp, count, ih, OrderedMap.keys_insert, OrderedMap.mem_keys]

theorem get?_countUp (counts : OrderedMap α Nat) (l : List α) (b : α) :
    (countUp counts l).get? b = (counts.get? b).map (· + l.count b) := by
  induction l generalizing counts with
  | nil => simp [countUp]
  | cons a l ih =>
    cases count : counts.get? a with
    | none =>
      by_cases same : a = b
      · subst same
        simp [countUp, count, ih]
      · simp [countUp, count, ih, List.count_cons_of_ne same]
    | some n =>
      by_cases same : a = b
      · subst same
        simp [countUp, count, ih, OrderedMap.get?_insert]
        omega
      · simp [countUp, count, ih, OrderedMap.get?_insert, List.count_cons_of_ne same, Ne.symm same]

theorem count_edges (g : Graph α) (b : α) :
    (g.edges.map Prod.snd).count b = (g.predecessorsOf b).length := by
  unfold edges predecessorsOf
  rw [List.length_map]
  induction g.successors.entries with
  | nil => rfl
  | cons e l ih =>
    have once := e.2.nodup.count (a := b)
    simp only [List.flatMap_cons, List.map_append, List.count_append, ih, List.map_map,
      Function.comp_def, List.map_id', once, List.filter_cons, OrderedSet.mem_def]
    split
    · simp [*]
      omega
    · simp [*]

theorem tally_eq (g : Graph α) : g.tally = g.inDegrees := by
  refine OrderedMap.ext_get? ?_ fun a => ?_
  · simp [tally, keys_countUp, inDegrees]
  · simp only [tally, get?_countUp, inDegrees, OrderedMap.get?_mapValues, count_edges]
    cases g.successors.get? a <;> simp

/-- From counts and a list of nodes to the counts after each of them has one less, and the nodes
that have come to zero by it. Nodes without a count are passed over; there is no rule for a count of
zero. -/
inductive CountsDown : OrderedMap α Nat → List α → OrderedMap α Nat → List α → Prop
  | nil (waiting) : CountsDown waiting [] waiting []
  | skip {waiting a l rest ready} : waiting.get? a = none → CountsDown waiting l rest ready →
      CountsDown waiting (a :: l) rest ready
  | count {waiting a l rest ready n} : waiting.get? a = some (n + 1) →
      CountsDown (waiting.insert a n) l rest ready →
      CountsDown waiting (a :: l) rest (if n = 0 then a :: ready else ready)

/-- Turns until the queue is empty. A turn takes the first node, which has to be one of the graph.
-/
inductive Drains (g : Graph α) : List α → OrderedMap α Nat → List α → Prop
  | done (waiting) : Drains g [] waiting []
  | turn {a queue waiting l rest ready out} : g.successors? a = some l →
      CountsDown waiting l rest ready → Drains g (queue ++ ready) rest out →
      Drains g (a :: queue) waiting (a :: out)

/-- What the loop puts out, from the nodes that wait for nothing. -/
def Sorts (g : Graph α) (out : List α) : Prop :=
  g.Drains ((g.tally.entries.filter fun e => e.2 = 0).map Prod.fst) g.tally out

variable {g : Graph α} {a b : α} {done queue out out' l : List α}
  {ready ready' : List α} {waiting waiting' rest rest' : OrderedMap α Nat}

theorem CountsDown.unique (first : CountsDown waiting l rest ready)
    (second : CountsDown waiting l rest' ready') : rest = rest' ∧ ready = ready' := by
  induction first generalizing rest' ready' with
  | nil => cases second; exact ⟨rfl, rfl⟩
  | skip none _ ih =>
    cases second with
    | skip _ second => exact ih second
    | count some _ => simp [none] at some
  | count some _ ih =>
    cases second with
    | skip none _ => simp [none] at some
    | count some' second =>
      obtain rfl : _ = _ := by simpa using some.symm.trans some'
      obtain ⟨rfl, rfl⟩ := ih second
      exact ⟨rfl, rfl⟩

theorem Drains.unique (first : g.Drains queue waiting out) (second : g.Drains queue waiting out') :
    out = out' := by
  induction first generalizing out' with
  | done => cases second; rfl
  | turn known down _ ih =>
    cases second with
    | turn known' down' second =>
      obtain rfl := Option.some.inj (known.symm.trans known')
      obtain ⟨rfl, rfl⟩ := down.unique down'
      rw [ih second]

theorem countsDown_release (hl : l.Nodup) (positive : ∀ a ∈ l, waiting.get? a ≠ some 0) :
    CountsDown waiting l (release waiting l).1 (release waiting l).2 := by
  induction l generalizing waiting with
  | nil => exact .nil waiting
  | cons a l ih =>
    obtain ⟨fresh, hl⟩ := List.nodup_cons.1 hl
    obtain ⟨first, others⟩ := List.forall_mem_cons.1 positive
    cases count : waiting.get? a with
    | none =>
      simp only [release, count]
      exact .skip count (ih hl others)
    | some n =>
      obtain ⟨m, rfl⟩ := Nat.exists_eq_succ_of_ne_zero fun zero => first (zero ▸ count)
      have later : ∀ b ∈ l, (waiting.insert a m).get? b ≠ some 0 := fun b hb => by
        have other : b ≠ a := fun same => fresh (same ▸ hb)
        simpa [OrderedMap.get?_insert, other] using others b hb
      simpa [release, count] using CountsDown.count count (ih hl later)

theorem Progress.drains {left : Nat} (h : Progress g done queue waiting)
    (hleft : left + done.length = g.size) :
    g.Drains queue waiting (g.drain left queue waiting) := by
  induction left generalizing done queue waiting with
  | zero =>
    have := h.length_le
    obtain rfl : queue = [] := by
      apply List.eq_nil_of_length_eq_zero
      simp only [List.length_append] at this
      omega
    exact .done waiting
  | succ left ih =>
    cases queue with
    | nil => exact .done waiting
    | cons a queue =>
      obtain ⟨s, known⟩ := mem_nodes.1 ((h.mem_iff a).1 (by simp)).1
      have positive : ∀ b ∈ g.successorsOf a, waiting.get? b ≠ some 0 := fun b edge => by
        have := h.pending_ne_zero edge
        rw [h.waits]
        split <;> simp [this]
      refine .turn (l := g.successorsOf a) ?_
        (countsDown_release (g.nodup_successorsOf a) positive) (ih h.take (by simp; omega))
      rw [successorsOf_eq known, successors?, known, Option.map_some]

theorem sorts_iff : g.Sorts l ↔ l = g.ordered := by
  have start : g.Sorts g.ordered := by
    rw [Sorts, tally_eq]
    exact (Progress.start g).drains (Nat.add_zero g.size)
  exact ⟨fun sorts => sorts.unique start, fun same => same ▸ start⟩

def inOrder (g : Graph α) : Except Error (List α) :=
  g.sort.mapError fun sorted => .notAcyclic sorted g.size

theorem length_ordered (g : Graph α) :
    g.ordered.length = {a | a ∈ g.nodes ∧ ¬ g.AfterCycle a}.ncard := by
  have same : {a | a ∈ g.nodes ∧ ¬ g.AfterCycle a} = (g.ordered.toFinset : Set α) := by
    ext a
    simp [mem_ordered_iff]
  rw [same, Set.ncard_coe_finset, List.toFinset_card_of_nodup g.nodup_ordered]

theorem inOrder_eq_ok_iff_sort : g.inOrder = .ok l ↔ g.sort = .ok l := by
  unfold inOrder
  cases g.sort <;> simp [Except.mapError]

theorem inOrder_eq_ok : g.inOrder = .ok l ↔ g.Acyclic ∧ l = g.ordered := by
  rw [inOrder_eq_ok_iff_sort]
  constructor
  · intro sorted
    have acyclic := Acyclic.of_sort sorted
    exact ⟨acyclic, Except.ok.inj (sorted.symm.trans acyclic.sort)⟩
  · rintro ⟨acyclic, rfl⟩
    exact acyclic.sort

theorem inOrder_of_cyclic (cyclic : ¬ g.Acyclic) :
    g.inOrder = .error (.notAcyclic g.ordered.length g.size) := by
  unfold inOrder sort
  rw [if_neg (mt isAcyclic_iff.1 cyclic)]
  rfl

/-- On any graph the loop comes to an end, without a node that is not there and without a count
below zero, and in one way only. What it puts out are the nodes that no cycle leads to, each once
and after all its predecessors. It is the answer if there is no cycle; otherwise the answer is its
length and the number of all nodes. -/
theorem exists_sorts (g : Graph α) :
    ∃ out, (∀ l, g.Sorts l ↔ l = out) ∧ out.Nodup ∧
      (∀ a ∈ out, ∀ b ∈ out, g.Edge a b → [a, b].Sublist out) ∧
      (∀ a, a ∈ out ↔ a ∈ g.nodes ∧ ¬ g.AfterCycle a) ∧
      ((∃ l, g.inOrder = .ok l) ↔ g.Acyclic) ∧
      (∀ l, g.inOrder = .ok l → l = out ∧ ∀ a, a ∈ l ↔ a ∈ g.nodes) ∧
      (¬ g.Acyclic → g.inOrder =
        .error (.notAcyclic {a | a ∈ g.nodes ∧ ¬ g.AfterCycle a}.ncard g.nodes.length)) := by
  refine ⟨g.ordered, fun l => sorts_iff, g.nodup_ordered, fun a _ b hb edge => ?_,
    fun a => mem_ordered_iff, ?_, fun l answer => ?_, fun cyclic => ?_⟩
  · exact g.legal_ordered.sublist hb (.single edge)
  · exact ⟨fun ⟨l, answer⟩ => (inOrder_eq_ok.1 answer).1,
      fun acyclic => ⟨_, inOrder_eq_ok.2 ⟨acyclic, rfl⟩⟩⟩
  · obtain ⟨acyclic, rfl⟩ := inOrder_eq_ok.1 answer
    exact ⟨rfl, fun a => ⟨fun ha => (mem_ordered.1 ha).1,
      isAcyclic_iff_all.1 (isAcyclic_iff.2 acyclic) a⟩⟩
  · rw [inOrder_of_cyclic cyclic, length_ordered, length_nodes]

/-- Two nodes on a cycle, one that leads there, and one that does not come after it. -/
def knot : Graph Nat := empty.linkAll [(1, 2), (2, 1), (3, 1), (3, 4)]

theorem exists_sorts_knot :
    ¬ knot.Acyclic ∧ knot.Sorts [3, 4] ∧ knot.inOrder = .error (.notAcyclic 2 4) := by
  obtain ⟨_, -, -, -, -, -, -, refused⟩ := exists_sorts knot
  have forth : knot.Edge 1 2 := by decide
  have back : knot.Edge 2 1 := by decide
  have cyclic : ¬ knot.Acyclic := fun acyclic => acyclic 1 (.tail (.single forth) back)
  have ordered : knot.ordered = [3, 4] := by decide
  have two : {a | a ∈ knot.nodes ∧ ¬ knot.AfterCycle a}.ncard = 2 := by
    rw [← length_ordered, ordered]
    rfl
  refine ⟨cyclic, sorts_iff.2 ordered.symm, ?_⟩
  rw [refused cyclic, two]
  rfl

end Graph

theorem Session.planOf_eq (s : Session) (g : Graph UnitId) :
    s.planOf g = do
      let order ← g.inOrder
      return ⟨(← order.mapM s.playsOf).flatten⟩ := rfl

end Playbook
