import Playbook.Proofs.Graph.Edges
import Playbook.Session.Schedule

/-! The dependency graph of a session, where there is one: its edges are the constraints of the
bound units, and passes only add to it. -/

namespace Playbook

theorem bind_eq_ok {ε α β : Type} {x : Except ε α} {f : α → Except ε β} {b : β} :
    x >>= f = .ok b ↔ ∃ a, x = .ok a ∧ f a = .ok b := by
  cases x <;> simp [bind, Except.bind]

theorem map_eq_ok {ε α β : Type} {x : Except ε α} {f : α → β} {b : β} :
    f <$> x = .ok b ↔ ∃ a, x = .ok a ∧ f a = b := by
  cases x <;> simp [Functor.map, Except.map]

theorem map_modify {α β : Type} {g : α → β} {f : α → α} (h : ∀ a, g (f a) = g a) (l : List α)
    (i : Nat) : (l.modify i f).map g = l.map g := by
  induction l generalizing i with
  | nil => simp
  | cons a l ih => cases i <;> simp [h, ih]

namespace Session
variable {s : Session} {g g' : Graph UnitId} {a b id : UnitId}

theorem getUnit_eq_ok {u : WorkUnit} : s.getUnit id = .ok u ↔ s.unit? id = some u := by
  unfold getUnit
  cases s.unit? id <;> simp

theorem getGroup_eq_ok {id : GroupId} {group : HostGroup} :
    s.getGroup id = .ok group ↔ s.group? id = some group := by
  unfold getGroup
  cases s.group? id <;> simp

theorem getRunbook_eq_ok {id : RunbookId} {r : Runbook} :
    s.getRunbook id = .ok r ↔ s.runbook? id = some r := by
  unfold getRunbook
  cases s.runbook? id <;> simp

theorem connect_eq_ok_iff :
    s.connect g a b = .ok g' ↔ (g.link a b).isAcyclic = true ∧ g' = g.link a b := by
  rw [connect, Graph.addEdge_eq]
  split
  · rename_i acyclic
    exact ⟨fun h => ⟨acyclic, (Except.ok.inj h).symm⟩, fun h => congrArg Except.ok h.2.symm⟩
  · rename_i cyclic
    exact ⟨fun h => (by cases h), fun h => absurd h.1 cyclic⟩

theorem connect_eq_ok (h : s.connect g a b = .ok g') : g' = g.link a b :=
  (connect_eq_ok_iff.1 h).2

theorem referent_eq_ok {u : WorkUnit} {ref : UnitRef} (h : s.referent u ref = .ok id) :
    ref = .unit id ∧ ∃ v, s.unit? id = some v := by
  cases ref with
  | named name => cases h
  | unit id' =>
    cases hv : s.getUnit id' with
    | error e => rw [referent, hv] at h; cases h
    | ok v =>
      rw [referent, hv] at h
      obtain rfl : id' = id := Except.ok.inj h
      exact ⟨rfl, v, getUnit_eq_ok.1 hv⟩

theorem connectAll_eq_ok {u : WorkUnit} {refs : List UnitRef} (edge : UnitId → UnitId × UnitId)
    (h : refs.foldlM (fun g ref => do
      let id ← s.referent u ref
      s.connect g (edge id).1 (edge id).2) g = .ok g') :
    ∃ ids : List UnitId, refs = ids.map .unit ∧ (∀ id ∈ ids, ∃ v, s.unit? id = some v) ∧
      g' = g.linkAll (ids.map edge) := by
  induction refs generalizing g with
  | nil => exact ⟨[], rfl, by simp, (Except.ok.inj h).symm⟩
  | cons ref refs ih =>
    rw [List.foldlM_cons] at h
    obtain ⟨g₁, h₁, h⟩ := bind_eq_ok.1 h
    obtain ⟨id, hr, hc⟩ := bind_eq_ok.1 h₁
    obtain ⟨rfl, hv⟩ := referent_eq_ok hr
    obtain rfl := connect_eq_ok hc
    obtain ⟨ids, rfl, hd, rfl⟩ := ih h
    exact ⟨id :: ids, rfl, List.forall_mem_cons.2 ⟨hv, hd⟩, rfl⟩

theorem addConstraints_eq_ok (h : s.addConstraints g id = .ok g') :
    ∃ (u : WorkUnit) (before after : List UnitId), s.unit? id = some u ∧
      u.before.toList = before.map .unit ∧ u.after.toList = after.map .unit ∧
      (∀ x ∈ before ++ after, ∃ v, s.unit? x = some v) ∧
      g' = (g.addNode id).linkAll (before.map (id, ·) ++ after.map (·, id)) := by
  obtain ⟨u, hu, h⟩ := bind_eq_ok.1 h
  obtain ⟨g₁, h₁, h₂⟩ := bind_eq_ok.1 h
  obtain ⟨before, hb, db, rfl⟩ := connectAll_eq_ok (id, ·) h₁
  obtain ⟨after, ha, da, rfl⟩ := connectAll_eq_ok (·, id) h₂
  refine ⟨u, before, after, getUnit_eq_ok.1 hu, hb, ha, ?_, by rw [Graph.linkAll_append]⟩
  intro x hx
  exact (List.mem_append.1 hx).elim (db x) (da x)

def Demands (s : Session) (id a b : UnitId) : Prop :=
  ∃ u, s.unit? id = some u ∧ (id = a ∧ .unit b ∈ u.before ∨ id = b ∧ .unit a ∈ u.after)

/-- A constraint of a bound unit puts `a` before `b`. -/
def Precedes (s : Session) (a b : UnitId) : Prop := ∃ id ∈ s.boundUnits, s.Demands id a b

theorem demands_of_addConstraints (h : s.addConstraints g id = .ok g') :
    (∀ a b, g'.Edge a b ↔ g.Edge a b ∨ s.Demands id a b) ∧
      ∀ a, a ∈ g'.nodes ↔ a ∈ g.nodes ∨ a = id ∨ ∃ b, s.Demands id a b ∨ s.Demands id b a := by
  obtain ⟨u, before, after, hu, hb, ha, -, rfl⟩ := addConstraints_eq_ok h
  have demands (a b : UnitId) : s.Demands id a b ↔
      (a, b) ∈ before.map (id, ·) ++ after.map (·, id) := by
    simp only [Demands, hu, OrderedSet.mem_def, hb, ha, Option.some.injEq, exists_eq_left',
      List.mem_append, List.mem_map, Prod.mk.injEq, UnitRef.unit.injEq, exists_eq_right]
    grind
  constructor
  · intro a b
    rw [Graph.edge_linkAll, Graph.edge_addNode, demands]
  · intro a
    rw [Graph.mem_nodes_linkAll, Graph.mem_nodes_addNode, or_assoc]
    simp only [demands, Prod.exists]
    grind

theorem demands_of_foldlM {ids : List UnitId} (h : ids.foldlM s.addConstraints g = .ok g') :
    (∀ a b, g'.Edge a b ↔ g.Edge a b ∨ ∃ id ∈ ids, s.Demands id a b) ∧
      ∀ a, a ∈ g'.nodes ↔
        a ∈ g.nodes ∨ a ∈ ids ∨ ∃ id ∈ ids, ∃ b, s.Demands id a b ∨ s.Demands id b a := by
  induction ids generalizing g with
  | nil =>
    obtain rfl : g = g' := Except.ok.inj h
    simp
  | cons id ids ih =>
    rw [List.foldlM_cons] at h
    obtain ⟨g₁, h₁, h⟩ := bind_eq_ok.1 h
    obtain ⟨edges₁, nodes₁⟩ := demands_of_addConstraints h₁
    obtain ⟨edges, nodes⟩ := ih h
    constructor
    · intro a b
      rw [edges, edges₁, or_assoc]
      simp only [List.mem_cons, exists_eq_or_imp]
    · intro a
      rw [nodes, nodes₁]
      simp only [List.mem_cons, exists_eq_or_imp, or_assoc, or_left_comm]

/-- The nodes are the bound units and those that their constraints name, and the edges are these
constraints. -/
theorem dependencyGraph_eq_ok (h : s.dependencyGraph = .ok g) :
    (∀ a b, g.Edge a b ↔ s.Precedes a b) ∧
      ∀ a, a ∈ g.nodes ↔ a ∈ s.boundUnits ∨ ∃ b, s.Precedes a b ∨ s.Precedes b a := by
  obtain ⟨edges, nodes⟩ := demands_of_foldlM h
  have none (a b : UnitId) : ¬ (Graph.empty : Graph UnitId).Edge a b := fun hab => by
    simpa [Graph.nodes, Graph.empty] using hab.source_mem
  constructor
  · intro a b
    simp [edges, none, Precedes]
  · intro a
    have : a ∉ (Graph.empty : Graph UnitId).nodes := List.not_mem_nil
    rw [nodes]
    simp only [this, false_or, Precedes]
    grind

theorem foldlM_eq_linkAll {β : Type} {f : Graph UnitId → β → Except Error (Graph UnitId)}
    (hf : ∀ g x g', f g x = .ok g' → ∃ es, g' = g.linkAll es) {l : List β}
    (h : l.foldlM f g = .ok g') : ∃ es, g' = g.linkAll es := by
  induction l generalizing g with
  | nil => exact ⟨[], (Except.ok.inj h).symm⟩
  | cons x l ih =>
    rw [List.foldlM_cons] at h
    obtain ⟨g₁, h₁, h⟩ := bind_eq_ok.1 h
    obtain ⟨es, rfl⟩ := hf g x g₁ h₁
    obtain ⟨fs, rfl⟩ := ih h
    exact ⟨es ++ fs, (g.linkAll_append es fs).symm⟩

theorem refine_eq_ok {p : Pass} (h : p.refine s g = .ok g') : ∃ es, g' = g.linkAll es := by
  have connect (g g' : Graph UnitId) (a b : UnitId) (h : s.connect g a b = .ok g') :
      ∃ es, g' = g.linkAll es := ⟨[(a, b)], connect_eq_ok h⟩
  cases p with
  | merging | idle => exact ⟨[], (Except.ok.inj h).symm⟩
  | facts p =>
    simp only [Pass.refine] at h
    split at h
    · exact ⟨[], (Except.ok.inj h).symm⟩
    · exact foldlM_eq_linkAll (fun g root g' => connect g g' _ root) h
  | scripted p =>
    refine foldlM_eq_linkAll (fun g e g' h => ?_) h
    split at h
    · cases h
    · split at h
      · cases h
      · exact connect g g' e.1 e.2 h

end Session
end Playbook
