import Mathlib.Algebra.GroupWithZero.Nat
import Playbook.Proofs.Plan.Emission
import Playbook.Proofs.Plan.Replanning
import Playbook.Proofs.Value.Equality

/-! What a run of the merging pass computes. It walks over the bindings of each unit with a set of
the keys seen so far; a binding is kept if it adds a key. As equality of keys is transitive, the
set tells of a key whether any binding before has it, also where that binding itself was dropped.
Main statement: the pass leaves each unit the bindings whose key none before them has, counts the
others, changes nothing else, and has nothing to do when it runs again. -/

namespace Playbook

section Novel
variable {α κ : Type} {same : κ → κ → Bool} {key : α → κ} {seen front l : List α}

/-- The items of a list whose key is that of no item before, in the list or in front of it. -/
def novelAfter (same : κ → κ → Bool) (key : α → κ) (front l : List α) : List α :=
  (l.zipIdx.filter fun x => (front ++ l.take x.2).all fun b => !same (key b) (key x.1)).map Prod.fst

theorem novelAfter_cons (same : κ → κ → Bool) (key : α → κ) (front l : List α) (a : α) :
    novelAfter same key front (a :: l) =
      if front.any fun b => same (key b) (key a) then novelAfter same key (front ++ [a]) l
      else a :: novelAfter same key (front ++ [a]) l := by
  have rest : ((l.zipIdx 1).filter fun x => (front ++ (a :: l).take x.2).all fun b =>
      !same (key b) (key x.1)).map Prod.fst = novelAfter same key (front ++ [a]) l := by
    rw [List.zipIdx_succ, List.filter_map, List.map_map, novelAfter]
    simp only [Function.comp_def, List.take_succ_cons, List.append_assoc, List.singleton_append]
  rw [novelAfter, List.zipIdx_cons, List.filter_cons]
  simp only [List.take_zero, List.append_nil, List.all_eq_not_any_not, Bool.not_not] at rest ⊢
  cases front.any fun b => same (key b) (key a) with
  | true => exact rest
  | false => exact congrArg (a :: ·) rest

/-- The keys seen tell which keys there were before, though not every item before is among them. -/
theorem firstOfEachFrom_eq_novelAfter
    (trans : ∀ a b c, same (key a) (key b) = true → same (key b) (key c) = true →
      same (key a) (key c) = true)
    (h : ∀ a, seen.any (fun b => same (key b) (key a)) =
      front.any fun b => same (key b) (key a)) :
    firstOfEachFrom same key (seen.map key) l = novelAfter same key front l := by
  induction l generalizing seen front with
  | nil => rfl
  | cons a l ih =>
    rw [firstOfEachFrom, novelAfter_cons, List.any_map]
    simp only [Function.comp_def, h a]
    by_cases old : (front.any fun b => same (key b) (key a)) = true
    · rw [if_pos old, if_pos old]
      refine ih fun c => ?_
      -- An item before has the key of `a`, so it has every key that `a` has.
      have covers (equal : same (key a) (key c) = true) :
          (front.any fun b => same (key b) (key c)) = true := by
        obtain ⟨b, hb, same⟩ := List.any_eq_true.1 old
        exact List.any_eq_true.2 ⟨b, hb, trans b a c same equal⟩
      rw [h c, List.any_append, List.any_cons, List.any_nil, Bool.or_false]
      cases equal : same (key a) (key c) with
      | true => rw [covers equal, Bool.or_true]
      | false => rw [Bool.or_false]
    · rw [if_neg old, if_neg old]
      refine congrArg (a :: ·) (@ih (a :: seen) _ fun c => ?_)
      rw [List.any_cons, h c, List.any_append, List.any_cons, List.any_nil, Bool.or_false,
        Bool.or_comm]

def novel (same : κ → κ → Bool) (key : α → κ) (l : List α) : List α :=
  (l.zipIdx.filter fun x => (l.take x.2).all fun b => !same (key b) (key x.1)).map Prod.fst

theorem firstOfEach_eq_novel
    (trans : ∀ a b c, same (key a) (key b) = true → same (key b) (key c) = true →
      same (key a) (key c) = true) (l : List α) : firstOfEach same key l = novel same key l := by
  show firstOfEachFrom same key (([] : List α).map key) l = novelAfter same key [] l
  exact firstOfEachFrom_eq_novelAfter trans fun _ => rfl

end Novel

namespace Session
variable {s : Session}

theorem Proper.group? (h : s.Proper) {i : GroupId} {g : HostGroup} (hg : s.group? i = some g) :
    g.Proper :=
  h g (List.mem_of_getElem? hg)

theorem Proper.sameKey?_symm (h : s.Proper) {i j : GroupId}
    (same : sameKey? (s.structuralKey? i) (s.structuralKey? j) = true) :
    sameKey? (s.structuralKey? j) (s.structuralKey? i) = true := by
  rw [structuralKey?, structuralKey?] at *
  cases hi : s.group? i <;> cases hj : s.group? j <;> rw [hi, hj] at same <;> try trivial
  exact (h.group? hi).same_symm (h.group? hj) same

theorem Proper.sameKey?_trans (h : s.Proper) {i j k : GroupId}
    (first : sameKey? (s.structuralKey? i) (s.structuralKey? j) = true)
    (second : sameKey? (s.structuralKey? j) (s.structuralKey? k) = true) :
    sameKey? (s.structuralKey? i) (s.structuralKey? k) = true := by
  rw [structuralKey?, structuralKey?] at *
  cases hi : s.group? i <;> cases hj : s.group? j <;> rw [hi, hj] at first <;>
    cases hk : s.group? k <;> rw [hj, hk] at second <;> try trivial
  exact (h.group? hi).same_trans (h.group? hj) (h.group? hk) first second

def firstBindings (s : Session) (u : WorkUnit) : List GroupId :=
  novel sameKey? s.structuralKey? u.groups

def deduplicated (s : Session) : Session :=
  { s with units := s.units.map fun u => { u with groups := s.firstBindings u } }

def repeatedBindings (s : Session) : Nat :=
  (s.units.map fun u => u.groups.length - (s.firstBindings u).length).sum

theorem Proper.mergeUnit_eq (h : s.Proper) (u : WorkUnit) :
    s.mergeUnit u = { u with groups := s.firstBindings u } := by
  rw [mergeUnit, firstOfEach_eq_novel fun i j k => h.sameKey?_trans, firstBindings]

theorem length_flatMap_sub {us : List WorkUnit} {f : WorkUnit → List GroupId}
    (shorter : ∀ u ∈ us, (f u).length ≤ u.groups.length) :
    (us.flatMap WorkUnit.groups).length - (us.flatMap f).length =
      (us.map fun u => u.groups.length - (f u).length).sum ∧
    (us.flatMap f).length ≤ (us.flatMap WorkUnit.groups).length := by
  induction us with
  | nil => exact ⟨rfl, Nat.le_refl 0⟩
  | cons u us ih =>
    obtain ⟨here, others⟩ := List.forall_mem_cons.1 shorter
    obtain ⟨sum, le⟩ := ih others
    simp only [List.flatMap_cons, List.length_append, List.map_cons, List.sum_cons, ← sum]
    omega

theorem Proper.mergeBindings_eq (h : s.Proper) :
    s.mergeBindings = (s.repeatedBindings, s.deduplicated) := by
  have merged : s.mergeUnit = fun u => { u with groups := s.firstBindings u } :=
    funext h.mergeUnit_eq
  have shorter (u : WorkUnit) (_ : u ∈ s.units) :
      (s.firstBindings u).length ≤ u.groups.length := by
    have kept := congrArg (fun v => v.groups.length) (h.mergeUnit_eq u)
    exact kept ▸ (s.thinned_bindings u).sublist.length_le
  simp only [mergeBindings, merged, List.flatMap_map]
  exact congrArg (·, s.deduplicated) (length_flatMap_sub shorter).1

theorem Proper.thinned_firstBindings (h : s.Proper) (u : WorkUnit) :
    Thinned (fun i j => sameKey? (s.structuralKey? i) (s.structuralKey? j) = true) [] u.groups
      (s.firstBindings u) := by
  have thinned := s.thinned_bindings u
  rwa [h.mergeUnit_eq] at thinned

theorem Proper.pairwise_firstBindings (h : s.Proper) (u : WorkUnit) :
    (s.firstBindings u).Pairwise fun i j =>
      sameKey? (s.structuralKey? i) (s.structuralKey? j) = false ∧
        sameKey? (s.structuralKey? j) (s.structuralKey? i) = false := by
  have distinct := s.distinct_mergeUnit u
  rw [h.mergeUnit_eq] at distinct
  refine distinct.imp fun {i j} differ => ⟨differ, Bool.eq_false_iff.2 fun same => ?_⟩
  rw [h.sameKey?_symm same] at differ
  cases differ

/-- A run of the merging pass leaves each unit those of its bindings whose key no earlier one has,
changes nothing else in the session and counts what went. The keys left are all different, each
binding that went has one with the same key before it that is left, and to run the pass again
changes nothing and counts nothing. -/
theorem Proper.runPass_merging (proper : s.Proper) (call : Block → Exec Unit) (m : Merging)
    (journal : List Entry) :
    (Exec.runPass call (.merging m)).run ⟨s, journal⟩ =
        .ok (.merging ⟨s.repeatedBindings⟩, .ok ()) ⟨s.deduplicated, journal⟩ ∧
      (∀ u, (s.firstBindings u).Pairwise fun i j =>
          sameKey? (s.structuralKey? i) (s.structuralKey? j) = false ∧
            sameKey? (s.structuralKey? j) (s.structuralKey? i) = false) ∧
      (∀ u, Thinned (fun i j => sameKey? (s.structuralKey? i) (s.structuralKey? j) = true) []
          u.groups (s.firstBindings u)) ∧
      (Exec.runPass call (.merging ⟨s.repeatedBindings⟩)).run ⟨s.deduplicated, journal⟩ =
        .ok (.merging ⟨0⟩, .ok ()) ⟨s.deduplicated, journal⟩ := by
  have run {s : Session} (m : Merging) : (Exec.runPass call (.merging m)).run ⟨s, journal⟩ =
      .ok (.merging ⟨s.mergeBindings.1⟩, .ok ()) ⟨s.mergeBindings.2, journal⟩ := rfl
  have again := s.mergeBindings_again
  rw [proper.mergeBindings_eq] at again
  refine ⟨?_, proper.pairwise_firstBindings, proper.thinned_firstBindings, ?_⟩
  · rw [run, proper.mergeBindings_eq]
  · rw [run, again]

/-- Of the bindings of one unit to a group and to its copy one is left, and of those of the other
unit, which are to one group, one. -/
theorem runPass_merging_crowded :
    (Exec.runPass (runWithin 1) (.merging .new)).run ⟨crowded, []⟩ =
        .ok (.merging ⟨3⟩, .ok ()) ⟨crowded.deduplicated, []⟩ ∧
      crowded.units.map WorkUnit.groups = [[⟨0⟩, ⟨0⟩, ⟨1⟩], [⟨2⟩, ⟨2⟩]] ∧
      crowded.deduplicated.units.map WorkUnit.groups = [[⟨0⟩], [⟨2⟩]] ∧
      (Exec.runPass (runWithin 1) (.merging ⟨3⟩)).run ⟨crowded.deduplicated, []⟩ =
        .ok (.merging ⟨0⟩, .ok ()) ⟨crowded.deduplicated, []⟩ := by
  have proper : crowded.Proper := by decide +kernel
  have repeated : crowded.repeatedBindings = 3 := by decide +kernel
  obtain ⟨first, -, -, second⟩ := proper.runPass_merging (runWithin 1) .new []
  rw [repeated] at first second
  exact ⟨first, by decide +kernel, by decide +kernel, second⟩

end Session
end Playbook
