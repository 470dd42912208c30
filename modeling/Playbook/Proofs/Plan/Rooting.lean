import Playbook.Proofs.Graph.Acceptance
import Playbook.Proofs.Graph.Anchoring
import Playbook.Proofs.Graph.Releasing
import Playbook.Session.Schedule

/-! The pass that gathers facts, on a graph that already has its unit. The unit is put before the
roots, which are looked up before the first edge is added. This works out exactly if no edge leads to
the unit: if there is one, a root stands behind it, and the edge to that root is refused. -/

namespace Playbook

namespace Session
variable {g g' : Graph UnitId} {unit : UnitId} {f : FactGathering}

def cycleError (s : Session) (c : Graph.Cycle UnitId) : Error :=
  .cycle (s.unitName c.source) (s.unitName c.target)

theorem connectAll_eq (s : Session) (g : Graph UnitId) (es : List (UnitId × UnitId)) :
    es.foldlM (fun g e => s.connect g e.1 e.2) g = (g.addEdges es).mapError s.cycleError := by
  induction es generalizing g with
  | nil => rfl
  | cons e es ih =>
    rw [List.foldlM_cons, Graph.addEdges_cons, connect]
    cases g.addEdge e.1 e.2 with
    | error c => rfl
    | ok g => exact ih g

theorem refine_facts_eq (s : Session) (g : Graph UnitId) (known : f.unit = some unit) :
    (Pass.facts f).refine s g =
      (g.addEdges ((g.independent.filter (· ≠ unit)).map (unit, ·))).mapError s.cycleError := by
  rw [← connectAll_eq, List.foldlM_map]
  simp only [Pass.refine, known]

theorem refine_facts_eq_ok {s : Session} (acyclic : g.Acyclic) (known : f.unit = some unit) :
    (Pass.facts f).refine s g = .ok g' ↔ (∀ x, ¬ g.Edge x unit) ∧ g' = g.anchor unit := by
  have answer : (Pass.facts f).refine s g = .ok g' ↔
      g.addEdges ((g.independent.filter (· ≠ unit)).map (unit, ·)) = .ok g' := by
    rw [refine_facts_eq s g known]
    cases g.addEdges ((g.independent.filter (· ≠ unit)).map (unit, ·)) <;> simp [Except.mapError]
  rw [answer, acyclic.addEdges_eq_ok]
  exact and_congr_left fun _ => acyclic.anchor_iff

theorem refine_facts_eq_error {s : Session} {e : Error} (acyclic : g.Acyclic)
    (known : f.unit = some unit) (refused : (Pass.facts f).refine s g = .error e) :
    ∃ root ∈ g.independent, Relation.TransGen g.Edge root unit ∧
      e = .cycle (s.unitName unit) (s.unitName root) := by
  rw [refine_facts_eq s g known] at refused
  cases answer : g.addEdges ((g.independent.filter (· ≠ unit)).map (unit, ·)) with
  | ok g' => rw [answer] at refused; cases refused
  | error c =>
    rw [answer] at refused
    obtain ⟨mem, path⟩ := acyclic.addEdges_eq_error answer
    obtain ⟨root, hr, same⟩ := List.mem_map.1 mem
    obtain ⟨rfl, rfl⟩ := Prod.mk.inj same
    obtain ⟨free, other⟩ := List.mem_filter.1 hr
    have other : c.source ≠ c.target := fun same => by simp [same] at other
    have back := Graph.reaches_of_anchor path
    exact ⟨c.target, free, (Relation.reflTransGen_iff_eq_or_transGen.1 back).resolve_left other,
      (Except.error.inj refused).symm⟩

/-- The unit comes before all roots exactly if no edge leads to it. Then it is the only root, before
everything else, and to do it again changes nothing; otherwise a root that leads to it is named in
the error. -/
theorem refine_facts_iff (s : Session) (acyclic : g.Acyclic) (member : unit ∈ g.nodes)
    (known : f.unit = some unit) :
    ((∃ g', (Pass.facts f).refine s g = .ok g') ↔ ∀ x, ¬ g.Edge x unit) ∧
    (∀ g', (Pass.facts f).refine s g = .ok g' →
      g'.nodes = g.nodes ∧
      (∀ x y, g'.Edge x y ↔
        g.Edge x y ∨ x = unit ∧ y ≠ unit ∧ y ∈ g.nodes ∧ ∀ p, ¬ g.Edge p y) ∧
      g'.independent = [unit] ∧
      (∀ x ∈ g.nodes, x ≠ unit → Relation.TransGen g'.Edge unit x) ∧
      (∃ l, g'.sort = .ok (unit :: l)) ∧
      (Pass.facts f).refine s g' = .ok g') ∧
    ∀ e, (Pass.facts f).refine s g = .error e → ∃ root ∈ g.independent,
      Relation.TransGen g.Edge root unit ∧ e = .cycle (s.unitName unit) (s.unitName root) := by
  refine ⟨?_, fun g' anchored => ?_, fun e refused => refine_facts_eq_error acyclic known refused⟩
  · simp only [refine_facts_eq_ok acyclic known, exists_and_left, exists_eq, and_true]
  · obtain ⟨source, rfl⟩ := (refine_facts_eq_ok acyclic known).1 anchored
    have acyclic' := acyclic.anchor_iff.2 source
    have root := Graph.independent_anchor member source
    refine ⟨Graph.nodes_anchor member, fun x y => ?_, root,
      fun x hx other => acyclic.reaches_anchor hx other, ?_, ?_⟩
    · rw [Graph.edge_anchor, Graph.mem_independent_iff]
    · obtain ⟨l, split, -⟩ := (g.anchor unit).exists_released
      exact ⟨l, by rw [acyclic'.sort, split, root]; rfl⟩
    · have none : (g.anchor unit).independent.filter (· ≠ unit) = [] := by simp [root]
      rw [refine_facts_eq s _ known, none]
      rfl

end Session

def anchoring : FactGathering := { FactGathering.new with unit := some ⟨0⟩ }

def unanchored : Graph UnitId := .build [.node ⟨0⟩, .edge ⟨1⟩ ⟨2⟩, .node ⟨3⟩]

def awaited : Graph UnitId := .build [.node ⟨0⟩, .edge ⟨1⟩ ⟨2⟩, .node ⟨3⟩, .edge ⟨2⟩ ⟨0⟩]

def idleSession : Session := .initial ⟨false, .bundle, none, []⟩ []

theorem refine_facts_iff_unanchored :
    (∃ g' l, (Pass.facts anchoring).refine idleSession unanchored = .ok g' ∧
      g'.nodes = [⟨0⟩, ⟨1⟩, ⟨2⟩, ⟨3⟩] ∧ g'.Edge ⟨0⟩ ⟨1⟩ ∧ ¬ g'.Edge ⟨0⟩ ⟨2⟩ ∧
      g'.independent = [⟨0⟩] ∧ g'.sort = .ok (⟨0⟩ :: l)) ∧
    ∃ root ∈ awaited.independent, Relation.TransGen awaited.Edge root ⟨0⟩ ∧
      (Pass.facts anchoring).refine idleSession awaited =
        .error (.cycle (idleSession.unitName ⟨0⟩) (idleSession.unitName root)) := by
  constructor
  · obtain ⟨taken, outcome, -⟩ := Session.refine_facts_iff (f := anchoring) idleSession
      (Graph.sound_build _).acyclic (show ⟨0⟩ ∈ unanchored.nodes by decide +kernel) rfl
    have source : ∀ x ∈ unanchored.nodes, ¬ unanchored.Edge x ⟨0⟩ := by decide +kernel
    obtain ⟨g', anchored⟩ := taken.2 fun x edge => source x edge.source_mem edge
    obtain ⟨nodes, edges, root, -, ⟨l, sorted⟩, -⟩ := outcome g' anchored
    have free : ∀ p ∈ unanchored.nodes, ¬ unanchored.Edge p ⟨1⟩ := by decide +kernel
    have waits : unanchored.Edge ⟨1⟩ ⟨2⟩ := by decide +kernel
    have old : ¬ unanchored.Edge ⟨0⟩ ⟨2⟩ := by decide +kernel
    refine ⟨g', l, anchored, nodes.trans (by decide +kernel), ?_, ?_, root, sorted⟩
    · exact (edges _ _).2 (.inr ⟨rfl, by decide, by decide +kernel,
        fun p edge => free p edge.source_mem edge⟩)
    · rw [edges]
      rintro (edge | ⟨-, -, -, none⟩)
      · exact old edge
      · exact none _ waits
  · obtain ⟨taken, -, refused⟩ := Session.refine_facts_iff (f := anchoring) idleSession
      (Graph.sound_build _).acyclic (show ⟨0⟩ ∈ awaited.nodes by decide +kernel) rfl
    have edge : awaited.Edge ⟨2⟩ ⟨0⟩ := by decide +kernel
    cases answer : (Pass.facts anchoring).refine idleSession awaited with
    | ok g' => exact absurd edge (taken.1 ⟨g', answer⟩ _)
    | error e =>
      obtain ⟨root, free, path, rfl⟩ := refused e answer
      exact ⟨root, free, path, rfl⟩

end Playbook
