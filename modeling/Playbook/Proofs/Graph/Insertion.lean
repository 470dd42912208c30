import Playbook.Proofs.Graph.Building

/-! Which edges are taken and which are refused. A new edge closes a cycle exactly if a path leads
back from its end to its start: a cycle that was not there before goes through the new edge, and
what is left of it without the edge is such a path. -/

namespace Playbook.Graph
variable {α : Type} [DecidableEq α] {g : Graph α} {a b x y : α}

theorem transGen_link_of (path : Relation.TransGen g.Edge x y) :
    Relation.TransGen (g.link a b).Edge x y :=
  path.lift id fun _ _ edge => edge_link.2 (.inl edge)

/-- A path does without the new edge, or it comes to the start of the edge and goes on from its end;
how often it takes the edge in between does not matter. -/
theorem transGen_link (path : Relation.TransGen (g.link a b).Edge x y) :
    Relation.TransGen g.Edge x y ∨
      (Relation.ReflTransGen g.Edge x a ∧ Relation.ReflTransGen g.Edge b y) := by
  induction path with
  | single edge =>
    rcases edge_link.1 edge with old | ⟨rfl, rfl⟩
    · exact .inl (.single old)
    · exact .inr ⟨.refl, .refl⟩
  | tail _ edge ih =>
    rcases edge_link.1 edge with old | ⟨start, rfl⟩
    · exact ih.imp (fun path => path.tail old) fun ⟨before, behind⟩ => ⟨before, behind.tail old⟩
    · subst start
      exact .inr ⟨ih.elim Relation.TransGen.to_reflTransGen And.left, .refl⟩

theorem acyclic_link (acyclic : g.Acyclic) :
    (g.link a b).Acyclic ↔ ¬ (a = b ∨ Relation.TransGen g.Edge b a) := by
  have new : (g.link a b).Edge a b := edge_link.2 (.inr ⟨rfl, rfl⟩)
  constructor
  · rintro none (rfl | back)
    · exact none a (.single new)
    · exact none b (.tail (transGen_link_of back) new)
  · intro noWayBack x cycle
    rcases transGen_link cycle with old | ⟨before, behind⟩
    · exact acyclic x old
    · exact noWayBack (Relation.reflTransGen_iff_eq_or_transGen.1 (behind.trans before))

theorem reaches_of_refused (acyclic : g.Acyclic) (refused : ¬ (g.link a b).isAcyclic) :
    Relation.ReflTransGen g.Edge b a := by
  rw [isAcyclic_iff, acyclic_link acyclic, not_not] at refused
  exact Relation.reflTransGen_iff_eq_or_transGen.2 refused

theorem nodes_link_of_ne (g : Graph α) (h : a ≠ b) :
    (g.link a b).nodes = g.nodes ++ [a, b].filter (· ∉ g.nodes) := by
  rw [nodes_link]
  by_cases ha : a ∈ g.nodes <;> by_cases hb : b ∈ g.nodes <;>
    simp [nodes_addNode, ha, hb, h.symm]

theorem Sound.insertEdge_of_back (sound : g.Sound) (back : a = b ∨ Relation.TransGen g.Edge b a) :
    g.insertEdge a b = (g, some ⟨a, b⟩) := by
  rw [insertEdge_eq, if_neg]
  exact fun acyclic => (acyclic_link sound.acyclic).1 (isAcyclic_iff.1 acyclic) back

theorem Sound.insertEdge_of_not_back (sound : g.Sound)
    (noWayBack : ¬ (a = b ∨ Relation.TransGen g.Edge b a)) :
    g.insertEdge a b = (g.link a b, none) := by
  rw [insertEdge_eq, if_pos]
  exact isAcyclic_iff.2 ((acyclic_link sound.acyclic).2 noWayBack)

/-- An edge is refused exactly if its start is its end or is reached from it. The graph is then what
it was, down to the order of nodes and successors; otherwise it has grown by the missing ends,
behind the other nodes, and by the edge, behind the others of its start. -/
theorem insertEdge_build (cs : List (Change α)) (a b : α) :
    ((build cs).addEdge a b = .error ⟨a, b⟩ ↔
      a = b ∨ Relation.TransGen (build cs).Edge b a) ∧
    (a = b ∨ Relation.TransGen (build cs).Edge b a →
      (build cs).insertEdge a b = (build cs, some ⟨a, b⟩)) ∧
    (¬ (a = b ∨ Relation.TransGen (build cs).Edge b a) →
      ∃ h, (build cs).insertEdge a b = (h, none) ∧ (build cs).addEdge a b = .ok h ∧
        h.nodes = (build cs).nodes ++ [a, b].filter (· ∉ (build cs).nodes) ∧
        ∀ x, h.successorsOf x =
          if x = a then
            (build cs).successorsOf a ++ [b].filter (· ∉ (build cs).successorsOf a)
          else (build cs).successorsOf x) := by
  have sound := sound_build cs
  by_cases back : a = b ∨ Relation.TransGen (build cs).Edge b a
  · have refused := sound.insertEdge_of_back back
    refine ⟨iff_of_true ?_ back, fun _ => refused, fun noWayBack => absurd back noWayBack⟩
    rw [addEdge, refused]
  · have taken := sound.insertEdge_of_not_back back
    have answer : (build cs).addEdge a b = .ok ((build cs).link a b) := by rw [addEdge, taken]
    refine ⟨iff_of_false (by simp [answer]) back, fun wayBack => absurd wayBack back, fun _ => ?_⟩
    exact ⟨_, taken, answer, nodes_link_of_ne _ fun same => back (.inl same),
      successorsOf_link _ a b⟩

theorem insertEdge_build_chain :
    (build [.edge 1 2, .edge 2 3]).insertEdge 3 1 = (build [.edge 1 2, .edge 2 3], some ⟨3, 1⟩) ∧
    ∃ h, (build [.edge 1 2, .edge 2 3]).insertEdge 3 4 = (h, none) ∧ h.nodes = [1, 2, 3, 4] ∧
      h.successorsOf 3 = [4] := by
  obtain ⟨-, refused, -⟩ := insertEdge_build [.edge 1 2, .edge 2 3] 3 1
  obtain ⟨cyclic, -, taken⟩ := insertEdge_build [.edge 1 2, .edge 2 3] 3 4
  have first : (build [.edge 1 2, .edge 2 3]).Edge 1 2 := by decide
  have second : (build [.edge 1 2, .edge 2 3]).Edge 2 3 := by decide
  have last : ((build [.edge 1 2, .edge 2 3]).addEdge 3 4).isOk = true := by decide
  obtain ⟨h, inserted, -, nodes, successors⟩ := taken (mt cyclic.2 (by
    intro refused
    rw [refused] at last
    cases last))
  refine ⟨refused (.inr (.tail (.single first) second)), h, inserted, ?_, ?_⟩
  · rw [nodes]
    decide
  · rw [successors]
    decide

end Playbook.Graph
