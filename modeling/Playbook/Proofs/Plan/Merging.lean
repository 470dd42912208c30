import Mathlib.Data.List.Flatten
import Playbook.Proofs.Plan.Pipeline
import Playbook.Proofs.Session.Invocation
import Playbook.Proofs.Value.Keys

/-! Merging only takes plays out of a plan. A play goes where the same unit has an earlier one with
the same targets, and the graph, and with it the order of the units, stays as it is. -/

namespace Playbook

/-- The second list is the first without some items, each of which comes after an item that it
repeats and that stays. The items in `seen` stay before both lists. -/
inductive Thinned {α : Type} (same : α → α → Prop) : List α → List α → List α → Prop
  | nil {seen : List α} : Thinned same seen [] []
  | keep {seen l m : List α} {a : α} (rest : Thinned same (a :: seen) l m) :
      Thinned same seen (a :: l) (a :: m)
  | drop {seen l m : List α} {a b : α} (stays : b ∈ seen) (repeats : same b a)
      (rest : Thinned same seen l m) : Thinned same seen (a :: l) m

namespace Thinned
variable {α β κ : Type} {same : α → α → Prop} {seen l m : List α}

theorem sublist (h : Thinned same seen l m) : m.Sublist l := by
  induction h with
  | nil => exact .slnil
  | keep _ ih => exact ih.cons_cons _
  | drop _ _ _ ih => exact ih.cons _

theorem head?_eq (h : Thinned same [] l m) : m.head? = l.head? := by
  cases h with
  | nil => rfl
  | keep => rfl
  | drop stays => cases stays

theorem covers (h : Thinned same seen l m) {a : α} (ha : a ∈ l) :
    a ∈ m ∨ ∃ b, (b ∈ seen ∨ b ∈ m) ∧ same b a := by
  induction h with
  | nil => cases ha
  | keep _ ih =>
    rcases List.mem_cons.1 ha with rfl | ha
    · exact .inl (List.mem_cons_self ..)
    · rcases ih ha with kept | ⟨b, stays, repeats⟩
      · exact .inl (List.mem_cons_of_mem _ kept)
      · refine .inr ⟨b, ?_, repeats⟩
        simpa [or_assoc, or_left_comm] using stays
  | drop stays repeats _ ih =>
    rcases List.mem_cons.1 ha with rfl | ha
    · exact .inr ⟨_, .inl stays, repeats⟩
    · exact ih ha

theorem filterMap {f : α → Option β} {same' : β → β → Prop}
    (carries : ∀ a b x, same b a → f a = some x → ∃ y, f b = some y ∧ same' y x)
    (h : Thinned same seen l m) :
    Thinned same' (seen.filterMap f) (l.filterMap f) (m.filterMap f) := by
  induction h with
  | nil => exact .nil
  | @keep seen l m a _ ih =>
    cases hf : f a with
    | none => simpa [hf] using ih
    | some x =>
      rw [List.filterMap_cons_some hf] at ih
      rw [List.filterMap_cons_some hf, List.filterMap_cons_some hf]
      exact .keep ih
  | @drop seen l m a b stays repeats _ ih =>
    cases hf : f a with
    | none => simpa [hf] using ih
    | some x =>
      obtain ⟨y, hy, again⟩ := carries a b x repeats hf
      rw [List.filterMap_cons_some hf]
      exact .drop (List.mem_filterMap.2 ⟨b, stays, hy⟩) again ih

theorem firstOfEachFrom (same : κ → κ → Bool) (key : α → κ) (seen l : List α) :
    Thinned (fun b a => same (key b) (key a) = true) seen l
      (Playbook.firstOfEachFrom same key (seen.map key) l) := by
  induction l generalizing seen with
  | nil => exact .nil
  | cons a l ih =>
    rw [Playbook.firstOfEachFrom]
    split
    · rename_i repeated
      obtain ⟨_, hb, repeats⟩ := List.any_eq_true.1 repeated
      obtain ⟨b, stays, rfl⟩ := List.mem_map.1 hb
      exact .drop stays repeats (ih seen)
    · exact .keep (ih (a :: seen))

end Thinned

/-- The same value, or another one of the same content. -/
def Value.Agrees (v w : Value) : Prop := v = w ∨ v.same w = true

namespace Attributes
variable {a b c d : Attributes}

/-- Equality as maps from keys to values, in whatever order. -/
def Agrees (a b : Attributes) : Prop := ∀ k, Option.Rel Value.Agrees (a.get? k) (b.get? k)

theorem Agrees.refl (a : Attributes) : a.Agrees a := fun k => by
  cases a.get? k with
  | none => exact .none
  | some v => exact .some (.inl rfl)

theorem Agrees.overlay (h : a.Agrees b) (h' : c.Agrees d) :
    Agrees (a.overlay c) (b.overlay d) := fun k => by
  rw [OrderedMap.get?_overlay, OrderedMap.get?_overlay]
  have upper := h' k
  generalize c.get? k = x, d.get? k = y at upper ⊢
  cases upper with
  | none => exact h k
  | some v => exact .some v

theorem Agrees.filterKeys (h : a.Agrees b) (p : String → Bool) :
    Agrees (a.filterKeys p) (b.filterKeys p) := fun k => by
  rw [OrderedMap.get?_filterKeys, OrderedMap.get?_filterKeys]
  split
  · exact h k
  · exact .none

theorem Matches.agrees (h : a.Matches b) : a.Agrees b := fun k => by
  have same := h k
  generalize a.get? k = x, b.get? k = y at same ⊢
  cases same with
  | none => exact .none
  | some same => exact .some (.inr same)

theorem agrees_of_sameFields
    (h : GroupKey.sameFields (HostGroup.sortedEntries a) (HostGroup.sortedEntries b) = true) :
    a.Agrees b :=
  (sameFields_sortedEntries_iff.1 h).agrees

end Attributes

namespace Play

/-- The same name and hosts, and the same settings and variables as maps. -/
structure Agrees (p q : Play) : Prop where
  name : p.name = q.name
  hosts : p.hosts = q.hosts
  settings : p.settings.Agrees q.settings
  vars : p.vars.Agrees q.vars

theorem agrees_of {g h : HostGroup} (same : g.structuralKey.same h.structuralKey = true)
    (u : WorkUnit) : (of g u).Agrees (of h u) := by
  simp only [GroupKey.same, Bool.and_eq_true, beq_iff_eq] at same
  obtain ⟨⟨⟨pattern, settings⟩, vars⟩, -⟩ := same
  exact {
    name := rfl
    hosts := pattern
    settings := ((Attributes.Agrees.refl u.playSettings).overlay
      (Attributes.agrees_of_sameFields settings)).filterKeys _
    vars := (Attributes.agrees_of_sameFields vars).overlay (Attributes.Agrees.refl u.vars) }

end Play

namespace Session
variable {s : Session} {id : UnitId} {g : Graph UnitId}

theorem getUnit_mergeBindings (s : Session) (id : UnitId) :
    s.mergeBindings.2.getUnit id = (s.getUnit id).map s.mergeUnit := by
  rw [getUnit, getUnit, unit?_mergeBindings]
  cases s.unit? id <;> rfl

theorem unitName_mergeBindings (s : Session) : s.mergeBindings.2.unitName = s.unitName := by
  funext id
  rw [unitName, unitName, unit?_mergeBindings]
  cases s.unit? id <;> rfl

theorem referent_mergeBindings (s : Session) (u : WorkUnit) :
    s.mergeBindings.2.referent (s.mergeUnit u) = s.referent u := by
  funext ref
  cases ref with
  | named name => rfl
  | unit id =>
    simp only [referent, getUnit_mergeBindings]
    cases s.getUnit id <;> rfl

theorem addConstraints_mergeBindings (s : Session) :
    s.mergeBindings.2.addConstraints = s.addConstraints := by
  funext g id
  have connect : s.mergeBindings.2.connect = s.connect := by
    funext g a b
    rw [Session.connect, Session.connect, unitName_mergeBindings]
  rw [addConstraints, addConstraints, getUnit_mergeBindings]
  cases s.getUnit id with
  | error e => rfl
  | ok u =>
    simp only [Except.map, bind, Except.bind, referent_mergeBindings, connect]
    rfl

theorem dependencyGraph_mergeBindings (s : Session) :
    s.mergeBindings.2.dependencyGraph = s.dependencyGraph := by
  rw [dependencyGraph, dependencyGraph, addConstraints_mergeBindings]
  rfl

theorem thinned_bindings (s : Session) (u : WorkUnit) :
    Thinned (fun i j => sameKey? (s.structuralKey? i) (s.structuralKey? j) = true) [] u.groups
      (s.mergeUnit u).groups :=
  .firstOfEachFrom sameKey? s.structuralKey? [] u.groups

theorem group?_of_sameKey {i j : GroupId} {h : HostGroup}
    (same : sameKey? (s.structuralKey? i) (s.structuralKey? j) = true) (hj : s.group? j = some h) :
    ∃ g, s.group? i = some g ∧ g.structuralKey.same h.structuralKey = true := by
  simp only [structuralKey?, hj, Option.map_some] at same
  cases hi : s.group? i with
  | none => simp [hi, sameKey?] at same
  | some g => exact ⟨g, rfl, by simpa [hi, sameKey?] using same⟩

theorem thinned_playsFor (s : Session) (id : UnitId) :
    Thinned Play.Agrees [] (s.playsFor id) (s.mergeBindings.2.playsFor id) := by
  simp only [playsFor, unit?_mergeBindings]
  cases s.unit? id with
  | none => exact .nil
  | some u =>
    have same : (s.mergeUnit u).steps = u.steps := rfl
    simp only [Option.map_some, same]
    split
    · exact .nil
    · have carries (j i : GroupId) (p : Play)
          (repeats : sameKey? (s.structuralKey? i) (s.structuralKey? j) = true)
          (hp : (s.group? j).map (Play.of · u) = some p) :
          ∃ q, (s.group? i).map (Play.of · u) = some q ∧ q.Agrees p := by
        obtain ⟨h, hj, rfl⟩ := Option.map_eq_some_iff.1 hp
        obtain ⟨g, hi, agree⟩ := group?_of_sameKey repeats hj
        exact ⟨Play.of g u, by rw [hi]; rfl, Play.agrees_of agree u⟩
      exact (s.thinned_bindings u).filterMap carries

theorem exists_playsOf_iff : (∃ ps, s.playsOf id = .ok ps) ↔
    ∃ u, s.unit? id = some u ∧ (u.steps = [] ∨ ∀ j ∈ u.groups, ∃ g, s.group? j = some g) := by
  have playOf (u : WorkUnit) (j : GroupId) : (∃ p, (do return Play.of (← s.getGroup j) u) =
      Except.ok (ε := Error) p) ↔ ∃ g, s.group? j = some g := by
    simp only [bind_eq_ok, getGroup_eq_ok]
    exact ⟨fun ⟨_, g, hg, _⟩ => ⟨g, hg⟩, fun ⟨g, hg⟩ => ⟨_, g, hg, rfl⟩⟩
  simp only [playsOf, bind_eq_ok, getUnit_eq_ok]
  rw [exists_comm]
  refine exists_congr fun u => ?_
  rw [exists_and_left]
  refine and_congr_right fun _ => ?_
  by_cases none : u.steps = []
  · simp [none, pure, Except.pure]
  · simp only [List.isEmpty_iff, none, if_false, false_or, mapM_exists_ok, playOf]

theorem declared_of_sameKey {i j : GroupId}
    (same : sameKey? (s.structuralKey? i) (s.structuralKey? j) = true)
    (hi : ∃ g, s.group? i = some g) : ∃ h, s.group? j = some h := by
  obtain ⟨g, hi⟩ := hi
  cases hj : s.group? j with
  | none => simp [structuralKey?, hi, hj, sameKey?] at same
  | some h => exact ⟨h, rfl⟩

theorem exists_playsOf_mergeBindings : (∃ ps, s.mergeBindings.2.playsOf id = .ok ps) ↔
    ∃ ps, s.playsOf id = .ok ps := by
  have declared (u : WorkUnit) : (∀ j ∈ (s.mergeUnit u).groups, ∃ g, s.group? j = some g) ↔
      ∀ j ∈ u.groups, ∃ g, s.group? j = some g := by
    constructor
    · intro kept j hj
      rcases (s.thinned_bindings u).covers hj with stays | ⟨i, stays, same⟩
      · exact kept j stays
      · exact declared_of_sameKey same (kept i (by simpa using stays))
    · exact fun all j hj => all j ((s.thinned_bindings u).sublist.subset hj)
  rw [exists_playsOf_iff, exists_playsOf_iff]
  simp only [unit?_mergeBindings, Option.map_eq_some_iff]
  constructor
  · rintro ⟨_, ⟨u, hu, rfl⟩, h⟩
    exact ⟨u, hu, h.imp_right (declared u).1⟩
  · rintro ⟨u, hu, h⟩
    exact ⟨_, ⟨u, hu, rfl⟩, h.imp_right (declared u).2⟩

theorem planned_mergeBindings (s : Session) (m : Merging) :
    ((∃ p, s.planned [] = .ok p) ↔ ∃ q, s.mergeBindings.2.planned [.merging m] = .ok q) ∧
    ∀ p q, s.planned [] = .ok p → s.mergeBindings.2.planned [.merging m] = .ok q →
      ∃ order : List UnitId, order.Nodup ∧ p.plays = order.flatMap s.playsFor ∧
        q.plays = order.flatMap s.mergeBindings.2.playsFor := by
  have refined : s.mergeBindings.2.planned [.merging m] = s.mergeBindings.2.planned [] := rfl
  have merged {q : Plan} := planned_eq_ok (s := s.mergeBindings.2) (p := q)
  simp only [dependencyGraph_mergeBindings, exists_playsOf_mergeBindings] at merged
  rw [refined]
  constructor
  · constructor
    · rintro ⟨p, hp⟩
      obtain ⟨g, order, graph, sorted, all, -⟩ := planned_eq_ok.1 hp
      exact ⟨⟨_⟩, merged.2 ⟨g, order, graph, sorted, all, rfl⟩⟩
    · rintro ⟨q, hq⟩
      obtain ⟨g, order, graph, sorted, all, -⟩ := merged.1 hq
      exact ⟨⟨_⟩, planned_eq_ok.2 ⟨g, order, graph, sorted, all, rfl⟩⟩
  · intro p q hp hq
    obtain ⟨g, order, graph, sorted, -, plays⟩ := planned_eq_ok.1 hp
    obtain ⟨g', order', graph', sorted', -, kept⟩ := merged.1 hq
    obtain rfl : g = g' := Except.ok.inj (graph.symm.trans graph')
    obtain rfl : order = order' := Except.ok.inj (sorted.symm.trans sorted')
    exact ⟨order, (Graph.sort_eq_ok sorted).nodup, plays, kept⟩

end Session

namespace Exec
open Session
variable {call : Block → Exec Unit} {s : Session} {journal : List Entry} {m : Merging}

theorem plan_eq_ok_of_merging {p : Plan} {r : Run} :
    (plan call).run ⟨{ s with passes := [.merging m] }, journal⟩ = .ok p r ↔
      s.scopes.guards.isEmpty = true ∧
        s.mergeBindings.2.planned [.merging ⟨s.mergeBindings.1⟩] = .ok p ∧
        r = ⟨{ s.mergeBindings.2 with passes := [.merging ⟨s.mergeBindings.1⟩] }, journal⟩ := by
  refine plan_eq_ok (t := (mergeBindings { s with passes := [] }).2) fun _ => ?_
  rw [run_eq_ok, inSession, ends_bind, ends_session]
  refine Ends.within_ok ?_
  simp only [runPasses, runPass, ends_bind, ends_apply, ends_pure]
  exact ⟨s.scopes, rfl, rfl, rfl⟩

end Exec

/-- The pass only takes plays out of a plan. The units come in the same order, each with its plays
but for some that repeat an earlier one that stays. -/
theorem Session.plan_merging (s : Session) (call : Block → Exec Unit) (journal : List Entry)
    (m : Merging) :
    ((∃ p r, (Exec.plan call).run ⟨{ s with passes := [] }, journal⟩ = .ok p r) ↔
      ∃ q r, (Exec.plan call).run ⟨{ s with passes := [.merging m] }, journal⟩ = .ok q r) ∧
    ∀ p r q r', (Exec.plan call).run ⟨{ s with passes := [] }, journal⟩ = .ok p r →
      (Exec.plan call).run ⟨{ s with passes := [.merging m] }, journal⟩ = .ok q r' →
      q.plays.Sublist p.plays ∧ ∃ order : List UnitId, order.Nodup ∧
        p.plays = order.flatMap s.playsFor ∧ q.plays = order.flatMap r'.session.playsFor ∧
        ∀ id ∈ order, (r'.session.playsFor id).head? = (s.playsFor id).head? ∧
          Thinned Play.Agrees [] (s.playsFor id) (r'.session.playsFor id) := by
  simp only [Exec.plan_eq_ok_of_empty, Exec.plan_eq_ok_of_merging]
  obtain ⟨succeeds, kept⟩ := s.planned_mergeBindings ⟨s.mergeBindings.1⟩
  constructor
  · constructor
    · rintro ⟨p, _, closed, planned, rfl⟩
      obtain ⟨q, merged⟩ := succeeds.1 ⟨p, planned⟩
      exact ⟨q, _, closed, merged, rfl⟩
    · rintro ⟨q, _, closed, merged, rfl⟩
      obtain ⟨p, planned⟩ := succeeds.2 ⟨q, merged⟩
      exact ⟨p, _, closed, planned, rfl⟩
  · rintro p _ q _ ⟨-, planned, rfl⟩ ⟨-, merged, rfl⟩
    obtain ⟨order, nodup, hp, hq⟩ := kept p q planned merged
    have thinned := s.thinned_playsFor
    refine ⟨?_, order, nodup, hp, hq, fun id _ => ⟨(thinned id).head?_eq, thinned id⟩⟩
    rw [hp, hq]
    exact List.Sublist.flatMap_right order fun id _ => (thinned id).sublist

/-- A unit that is invoked twice for the same targets, the second time on a condition. -/
def againScript : Block :=
  [.declare (.new "deploy" [.step "command" (.text "one") 1 []]),
    .enter [.withHosts (some "web") .empty [.invoke ⟨0⟩],
      .withHosts (some "web") .empty [.when "c" [.invoke ⟨0⟩]]]]

def again : Session := (Session.initial ⟨false, .bundle, none, []⟩ []).after 4 againScript

theorem plan_merging_again :
    ∃ p r q r', (Exec.plan (runWithin 3)).run ⟨{ again with passes := [] }, []⟩ = .ok p r ∧
      (Exec.plan (runWithin 3)).run ⟨{ again with passes := [.merging .new] }, []⟩ = .ok q r' ∧
      p.plays.length = 2 ∧ q.plays.length = 1 ∧ q.plays.Sublist p.plays := by
  have two : (match (Exec.plan (runWithin 3)).run ⟨{ again with passes := [] }, []⟩ with
      | .ok p _ => p.plays.length
      | .error .. => 0) = 2 := by decide +kernel
  have one : (match (Exec.plan (runWithin 3)).run
      ⟨{ again with passes := [.merging .new] }, []⟩ with
      | .ok p _ => p.plays.length
      | .error .. => 0) = 1 := by decide +kernel
  split at two
  · rename_i p r hp
    split at one
    · rename_i q r' hq
      have kept := (Session.plan_merging again (runWithin 3) [] .new).2 p r q r' hp hq
      exact ⟨p, r, q, r', hp, hq, two, one, kept.1⟩
    · cases one
  · cases two

end Playbook
