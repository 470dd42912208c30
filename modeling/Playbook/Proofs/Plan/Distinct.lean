import Playbook.Proofs.Plan.Passes
import Playbook.Proofs.Session.Coherence

/-! Which plays of a unit may still be for equal host groups once bindings have been merged. The
passes run in the order of the pipeline: what a pass behind the merging one does to the host groups
is merged by the next plan only. -/

namespace Playbook

theorem not_seen_of_mem_firstOfEachFrom {α κ : Type} {same : κ → κ → Bool} {key : α → κ}
    {seen : List κ} {l : List α} {a : α} (h : a ∈ firstOfEachFrom same key seen l) :
    ∀ k ∈ seen, same k (key a) = false := by
  induction l generalizing seen with
  | nil => cases h
  | cons b l ih =>
    rw [firstOfEachFrom] at h
    split at h
    · exact ih h
    · rename_i new
      rcases List.mem_cons.1 h with rfl | h
      · simpa using new
      · exact fun k hk => ih h k (List.mem_cons_of_mem _ hk)

theorem pairwise_firstOfEachFrom {α κ : Type} (same : κ → κ → Bool) (key : α → κ) (seen : List κ)
    (l : List α) : (firstOfEachFrom same key seen l).Pairwise
      fun a b => same (key a) (key b) = false := by
  induction l generalizing seen with
  | nil => exact .nil
  | cons a l ih =>
    rw [firstOfEachFrom]
    split
    · exact ih seen
    · exact List.pairwise_cons.2
        ⟨fun b hb => not_seen_of_mem_firstOfEachFrom hb _ (List.mem_cons_self ..), ih _⟩

theorem Pass.Regular.cases {ps : List Pass} (h : Regular ps) {m : Merging}
    (merges : .merging m ∈ ps) :
    ps = [.merging m] ∨ (∃ f, ps = [.facts f, .merging m]) ∨ ∃ f, ps = [.merging m, .facts f] := by
  obtain ⟨builtin, nodup⟩ := h
  match ps with
  | [] => cases merges
  | [p] => exact .inl (by simpa [eq_comm] using merges)
  | [p, q] =>
    have first := builtin p (by simp)
    have second := builtin q (by simp)
    cases first with
    | facts f =>
      cases second with
      | facts => simp [Pass.name] at nodup
      | merging => exact .inr (.inl ⟨f, by simpa [eq_comm] using merges⟩)
    | merging =>
      cases second with
      | facts f => exact .inr (.inr ⟨f, by simpa [eq_comm] using merges⟩)
      | merging => simp [Pass.name] at nodup
  | p :: q :: r :: _ =>
    -- There are two names for three passes.
    have first := builtin p (by simp)
    have second := builtin q (by simp)
    have third := builtin r (by simp)
    cases first <;> cases second <;> cases third <;> simp [Pass.name] at nodup

namespace Session
variable {s t : Session} {ps qs : List Pass} {f : FactGathering} {m : Merging} {id : UnitId}
  {u : WorkUnit}

def Distinct (s : Session) (u : WorkUnit) : Prop :=
  u.groups.Pairwise fun i j => sameKey? (s.structuralKey? i) (s.structuralKey? j) = false

/-- The two groups had different keys in `s`, and in `t` each is what it was but for the gathering
of facts, which is off. -/
def Silenced (s t : Session) (i j : GroupId) : Prop :=
  ∃ g h, s.group? i = some g ∧ s.group? j = some h ∧
    g.structuralKey.same h.structuralKey = false ∧
    t.group? i = some (g.setSetting "gather_facts" (.bool false)) ∧
    t.group? j = some (h.setSetting "gather_facts" (.bool false))

theorem distinct_mergeUnit (s : Session) (u : WorkUnit) : s.Distinct (s.mergeUnit u) :=
  pairwise_firstOfEachFrom sameKey? s.structuralKey? [] u.groups

theorem distinct_mergeBindings (s : Session) (hu : s.mergeBindings.2.unit? id = some u) :
    s.mergeBindings.2.Distinct u := by
  rw [unit?_mergeBindings] at hu
  obtain ⟨v, -, rfl⟩ := Option.map_eq_some_iff.1 hu
  exact s.distinct_mergeUnit v

/-- Where facts are gathered behind the merging, groups become equal only by that. -/
theorem pairwise_silenced (bound : ∀ id u, s.unit? id = some u → ∀ j ∈ u.groups, s.group? j ≠ none)
    (hu : (s.mergeBindings.2.gatheredBy f).unit? id = some u) :
    u.groups.Pairwise fun i j =>
      sameKey? ((s.mergeBindings.2.gatheredBy f).structuralKey? i)
        ((s.mergeBindings.2.gatheredBy f).structuralKey? j) = true →
      s.Silenced (s.mergeBindings.2.gatheredBy f) i j := by
  rcases unit?_gatheredBy hu with old | rfl
  · rw [unit?_mergeBindings] at old
    obtain ⟨v, hv, rfl⟩ := Option.map_eq_some_iff.1 old
    have declared (i : GroupId) (hi : i ∈ (s.mergeUnit v).groups) : ∃ g, s.group? i = some g := by
      exact Option.ne_none_iff_exists'.1
        (bound id v hv i ((s.thinned_bindings v).sublist.subset hi))
    refine (s.distinct_mergeUnit v).imp_of_mem fun {i j} hi hj differ _ => ?_
    obtain ⟨g, hg⟩ := declared i hi
    obtain ⟨g', hg'⟩ := declared j hj
    refine ⟨g, g', hg, hg', ?_, group?_gatheredBy hg, group?_gatheredBy hg'⟩
    simpa [structuralKey?, hg, hg', sameKey?] using differ
  · exact List.pairwise_singleton ..

theorem PassedAll.distinct (h : s.PassedAll ps qs t)
    (bound : ∀ id u, s.unit? id = some u → ∀ j ∈ u.groups, s.group? j ≠ none)
    (regular : Pass.Regular ps) (merges : .merging m ∈ ps) (hu : t.unit? id = some u) :
    t.Distinct u ∨ ∃ f, ps = [.merging m, .facts f] ∧ f.unit = none ∧
      u.groups.Pairwise fun i j =>
        sameKey? (t.structuralKey? i) (t.structuralKey? j) = true → s.Silenced t i j := by
  rcases regular.cases merges with rfl | ⟨f, rfl⟩ | ⟨f, rfl⟩
  · cases h with | cons merging rest =>
    cases rest
    cases merging
    exact .inl (s.distinct_mergeBindings hu)
  · cases h with | cons gathering rest =>
    cases rest with | cons merging rest =>
    cases rest
    cases merging
    exact .inl (distinct_mergeBindings _ hu)
  · cases h with | cons merging rest =>
    cases rest with | cons gathering rest =>
    cases rest
    cases merging
    cases gathering with
    | known => exact .inl (s.distinct_mergeBindings hu)
    | gathers new => exact .inr ⟨f, rfl, new, pairwise_silenced bound hu⟩

end Session

/-- In a plan of a pipeline that merges, no unit has two plays for host groups of equal keys, but
where facts are gathered behind the merging and for the first time: there groups may have become
equal since they were compared. -/
theorem Session.Reachable.plan_distinct {s : Session} (hs : s.Reachable)
    (regular : Pass.Regular s.passes) {m : Merging} (merges : .merging m ∈ s.passes)
    {call : Block → Exec Unit} {journal : List Entry} {p : Plan} {r : Run}
    (h : (Exec.plan call).run ⟨s, journal⟩ = .ok p r) :
    (∃ order : List UnitId, order.Nodup ∧ p.plays = order.flatMap r.session.playsFor) ∧
      ∀ id u, r.session.unit? id = some u → r.session.Distinct u ∨
        ∃ f, s.passes = [.merging m, .facts f] ∧ f.unit = none ∧
          u.groups.Pairwise fun i j =>
            sameKey? (r.session.structuralKey? i) (r.session.structuralKey? j) = true →
              s.Silenced r.session i j := by
  obtain ⟨-, qs, t, passed, planned, rfl⟩ :=
    (Exec.plan_eq_ok_of_builtin (s := s) regular.builtin).1 h
  have bound (id : UnitId) (u : WorkUnit) (hu : s.unit? id = some u) (j : GroupId)
      (hj : j ∈ u.groups) : s.group? j ≠ none := by
    obtain ⟨g, hg, -⟩ := hs.coherent.bound id u hu j hj
    simp [hg]
  exact ⟨exists_order_of_planned planned, fun id u hu =>
    passed.distinct (u := u) bound regular merges hu⟩

/-- A unit that is invoked twice for the same targets, which gather facts of their own the first
time. -/
def loudScript : Block :=
  [.declare (.new "deploy" [.step "command" (.text "one") 1 []]),
    .enter [.withHosts (some "web") (.ofList [("gather_facts", .bool true)]) [.invoke ⟨0⟩],
      .withHosts (some "web") .empty [.invoke ⟨0⟩]]]

def loud (passes : List Pass) : Session :=
  (Session.initial ⟨false, .bundle, none, []⟩ passes).after 4 loudScript

theorem reachable_loud (passes : List Pass) : (loud passes).Reachable :=
  Session.reachable_after rfl 4 loudScript

theorem plan_distinct_loud :
    ∃ p r, (Exec.plan (runWithin 3)).run ⟨loud [.facts .new, .merging .new], []⟩ = .ok p r ∧
      p.plays.map Play.name = ["gather_facts_once", "deploy"] ∧
      ∀ id u, r.session.unit? id = some u → r.session.Distinct u := by
  have names : (match (Exec.plan (runWithin 3)).run ⟨loud [.facts .new, .merging .new], []⟩ with
      | .ok p _ => p.plays.map Play.name
      | .error .. => []) = ["gather_facts_once", "deploy"] := by decide +kernel
  split at names
  · rename_i p r h
    obtain ⟨_, merges, rfl⟩ : ∃ p ∈ (loud [.facts .new, .merging .new]).passes,
        p = .merging .new := by decide +kernel
    have passes : (loud [.facts .new, .merging .new]).passes.map Pass.name =
        [FactGathering.name, Merging.name] := by decide +kernel
    obtain ⟨-, distinct⟩ := Session.Reachable.plan_distinct (reachable_loud _)
      (by decide +kernel) merges h
    refine ⟨p, r, h, names, fun id u hu => (distinct id u hu).resolve_right ?_⟩
    rintro ⟨f, reversed, -⟩
    simp [reversed, Pass.name, FactGathering.name, Merging.name] at passes
  · cases names

/-- Behind the merging, gathering facts makes groups equal that no longer are compared. -/
theorem not_forall_distinct : ¬ ∀ s : Session, s.Reachable → Pass.Regular s.passes →
    ∀ m, .merging m ∈ s.passes → ∀ bound journal p r,
      (Exec.plan (runWithin bound)).run ⟨s, journal⟩ = .ok p r →
        ∀ id u, r.session.unit? id = some u → u.steps ≠ [] → r.session.Distinct u := by
  intro all
  obtain ⟨_, merges, rfl⟩ : ∃ p ∈ (loud [.merging .new, .facts .new]).passes,
      p = .merging .new := by decide +kernel
  have equal : (match (Exec.plan (runWithin 3)).run ⟨loud [.merging .new, .facts .new], []⟩ with
      | .ok _ r => (r.session.unit? ⟨0⟩).map fun u => (u.steps.isEmpty, u.groups,
          Session.sameKey? (r.session.structuralKey? ⟨0⟩) (r.session.structuralKey? ⟨1⟩))
      | .error .. => none) = some (false, [⟨0⟩, ⟨1⟩], true) := by decide +kernel
  split at equal
  · rename_i p r h
    obtain ⟨u, hu, equal⟩ := Option.map_eq_some_iff.1 equal
    simp only [Prod.mk.injEq, List.isEmpty_eq_false_iff] at equal
    obtain ⟨steps, bindings, same⟩ := equal
    have distinct := all _ (reachable_loud _) (by decide +kernel) .new merges 3 [] p r h ⟨0⟩ u hu
      steps
    rw [Session.Distinct, bindings] at distinct
    exact Bool.false_ne_true ((List.pairwise_pair.1 distinct).symm.trans same)
  · cases equal

end Playbook
