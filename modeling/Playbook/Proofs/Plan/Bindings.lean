import Playbook.Proofs.Plan.Merging
import Playbook.Proofs.Session.Writing

/-! The bindings that merging removes. Only the groups are compared, not what was recorded under
them: a binding goes if an earlier one of the unit has a group with the same key. What a steady
unit recorded under the two is nevertheless the same, run by run, but for the conditions that were
open at each. -/

namespace Playbook

namespace Thinned
variable {α : Type} {same same' : α → α → Prop} {seen l m : List α}

theorem imp_of_mem {P : α → Prop} (himp : ∀ b a, P b → P a → same b a → same' b a)
    (h : Thinned same seen l m) (hs : ∀ b ∈ seen, P b) (hl : ∀ a ∈ l, P a) :
    Thinned same' seen l m := by
  induction h with
  | nil => exact .nil
  | keep _ ih =>
    obtain ⟨ha, hl⟩ := List.forall_mem_cons.1 hl
    exact .keep (ih (List.forall_mem_cons.2 ⟨ha, hs⟩) hl)
  | drop stays repeats _ ih =>
    obtain ⟨ha, hl⟩ := List.forall_mem_cons.1 hl
    exact .drop stays (himp _ _ (hs _ stays) ha repeats) (ih hs hl)

theorem of_pair {a b : α} (h : Thinned same [] [a, b] [a]) : same a b := by
  cases h with
  | keep rest =>
    cases rest with
    | drop stays repeats => simpa [List.mem_singleton.1 stays] using repeats
  | drop stays => cases stays

end Thinned

/-- Under either group the unit has recorded the same recipe, once or more, each time with
conditions of its own. What it recorded under the second it has recorded under the first as well,
but for the variable and the conditions. -/
structure WorkUnit.RecordsAlike (u : WorkUnit) (recipe : Recipe) (i j : GroupId) : Prop where
  runs : ∃ pattern first second, first ≠ [] ∧ second ≠ [] ∧
    (u.stepsFor i).map Step.bare = first.flatMap (recipe pattern) ∧
    (u.stepsFor j).map Step.bare = second.flatMap (recipe pattern)
  emitted : ∀ step ∈ u.stepsFor j, ∃ kept ∈ u.stepsFor i, kept.unguarded = step.unguarded

theorem Recipe.Unconditional.emitted {recipe : Recipe} (h : recipe.Unconditional) {pattern : String}
    {first second : List (List String)} (some : first ≠ []) {steps kept : List Step}
    (hs : steps.map Step.bare = second.flatMap (recipe pattern))
    (hk : kept.map Step.bare = first.flatMap (recipe pattern)) :
    ∀ step ∈ steps, ∃ k ∈ kept, k.unguarded = step.unguarded := by
  intro step hstep
  obtain ⟨conditions', hfirst⟩ := List.exists_mem_of_ne_nil first some
  have written : step.bare ∈ second.flatMap (recipe pattern) := hs ▸ List.mem_map_of_mem hstep
  obtain ⟨conditions, -, written⟩ := List.mem_flatMap.1 written
  have either : step.bare.unguarded ∈ (recipe pattern conditions').map Step.unguarded :=
    h pattern conditions conditions' ▸ List.mem_map_of_mem written
  obtain ⟨b, hb, same⟩ := List.mem_map.1 either
  have repeated : b ∈ kept.map Step.bare := hk ▸ List.mem_flatMap_of_mem hfirst hb
  obtain ⟨k, hmem, rfl⟩ := List.mem_map.1 repeated
  exact ⟨k, hmem, by rwa [k.unguarded_bare, step.unguarded_bare] at same⟩

namespace Session
variable {s : Session} {id : UnitId} {u : WorkUnit}

theorem Repeats.alike {recipe : Recipe} {i j : GroupId} (hi : s.Repeats u recipe i)
    (hj : s.Repeats u recipe j) (unconditional : recipe.Unconditional) (bound_i : i ∈ u.groups)
    (bound_j : j ∈ u.groups)
    (same : sameKey? (s.structuralKey? i) (s.structuralKey? j) = true) :
    u.RecordsAlike recipe i j := by
  obtain ⟨_, first, recorded, known, once⟩ := hi
  obtain ⟨_, second, recorded', known', once'⟩ := hj
  obtain ⟨g, hg, rfl⟩ := known (once bound_i)
  obtain ⟨h, hh, rfl⟩ := known' (once' bound_j)
  obtain ⟨g', hg', keys⟩ := group?_of_sameKey same hh
  obtain rfl : g = g' := Option.some.inj (hg.symm.trans hg')
  simp only [GroupKey.same, Bool.and_eq_true, beq_iff_eq] at keys
  have pattern : g.pattern = h.pattern := keys.1.1.1
  rw [pattern] at recorded
  exact ⟨⟨h.pattern, first, second, once bound_i, once' bound_j, recorded, recorded'⟩,
    unconditional.emitted (once bound_i) recorded' recorded⟩

/-- Each binding that merging takes from a unit comes after one that it keeps, whose group has the
same key; and if the unit is steady and not running, it has recorded alike under the two. -/
theorem Reachable.thinned_bindings_alike (hs : s.Reachable) (hu : s.unit? id = some u) :
    Thinned (fun i j => sameKey? (s.structuralKey? i) (s.structuralKey? j) = true ∧
        ∀ recipe, u.Steady s.settings recipe → id ∉ s.scopes.units.frames →
          u.RecordsAlike recipe i j)
      [] u.groups (s.mergeUnit u).groups := by
  refine (s.thinned_bindings u).imp_of_mem (fun i j hi hj same => ⟨same, ?_⟩)
    (fun _ h => nomatch h) fun _ h => h
  intro recipe steady idle
  have repeats := hs.repeats hu idle steady
  exact (repeats i).alike (repeats j) steady.1 hi hj same

end Session

theorem reachable_again : again.Reachable := Session.reachable_after rfl 4 againScript

theorem unit?_again : ∃ u, again.unit? ⟨0⟩ = some u ∧ u.groups = [⟨0⟩, ⟨1⟩] ∧
    (again.mergeUnit u).groups = [⟨0⟩] ∧ u.body.lines?.isSome = true ∧
    (u.stepsFor ⟨0⟩).map (fun step => step.bare.settings.keys) = [["tags"]] ∧
    (u.stepsFor ⟨1⟩).map (fun step => step.bare.settings.keys) = [["tags", "when"]] := by
  have facts : (again.unit? ⟨0⟩).any (fun u => u.groups = [⟨0⟩, ⟨1⟩] ∧
      (again.mergeUnit u).groups = [⟨0⟩] ∧ u.body.lines?.isSome = true ∧
      (u.stepsFor ⟨0⟩).map (fun step => step.bare.settings.keys) = [["tags"]] ∧
      (u.stepsFor ⟨1⟩).map (fun step => step.bare.settings.keys) = [["tags", "when"]]) = true := by
    decide +kernel
  obtain ⟨u, hu, facts⟩ := Option.any_eq_true _ _ |>.1 facts
  exact ⟨u, hu, of_decide_eq_true facts⟩

/-- The unit that was invoked twice has recorded its step under either group, and emits it. -/
theorem thinned_bindings_alike_again : ∃ u recipe, again.unit? ⟨0⟩ = some u ∧
    u.Steady again.settings recipe ∧ u.RecordsAlike recipe ⟨0⟩ ⟨1⟩ := by
  obtain ⟨u, hu, bindings, merged, body, -⟩ := unit?_again
  obtain ⟨lines, hl⟩ := Option.isSome_iff_exists.1 body
  have steady := WorkUnit.steady_of_lines hl again.settings
  have idle : (⟨0⟩ : UnitId) ∉ again.scopes.units.frames := by decide +kernel
  have thinned := Session.Reachable.thinned_bindings_alike reachable_again hu
  rw [bindings, merged] at thinned
  exact ⟨u, _, hu, steady, thinned.of_pair.2 _ steady idle⟩

theorem not_forall_thinned_bindings : ¬ ∀ s : Session, s.Reachable → ∀ id u, s.unit? id = some u →
    Thinned (fun i j => Session.sameKey? (s.structuralKey? i) (s.structuralKey? j) = true ∧
        (u.stepsFor i).map Step.bare = (u.stepsFor j).map Step.bare)
      [] u.groups (s.mergeUnit u).groups := by
  intro h
  obtain ⟨u, hu, bindings, merged, -, kept, removed⟩ := unit?_again
  have thinned := h again reachable_again ⟨0⟩ u hu
  rw [bindings, merged] at thinned
  have same : (u.stepsFor ⟨0⟩).map (fun step => step.bare.settings.keys) =
      (u.stepsFor ⟨1⟩).map (fun step => step.bare.settings.keys) := by
    simpa [Function.comp_def] using congrArg (List.map (·.settings.keys)) thinned.of_pair.2
  rw [kept, removed] at same
  cases same

end Playbook
