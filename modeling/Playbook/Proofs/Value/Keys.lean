import Mathlib.Data.List.Perm.Basic
import Mathlib.Data.Option.Basic
import Playbook.HostGroup

/-! What a structural key tells of a host group. The entries of a map stand in the key in the order
of their names, and the members by their numbers, so a key does not show in which order any of them
were given. Main statement: two groups have equal keys exactly if their contents are equal. -/

namespace Playbook

namespace Attributes
variable {a b : Attributes}

/-- Equal as finite maps: the same keys, with equal values. -/
def Matches (a b : Attributes) : Prop :=
  ∀ k, Option.Rel (fun v w => v.same w = true) (a.get? k) (b.get? k)

theorem sortedEntries_perm (a : Attributes) : (HostGroup.sortedEntries a).Perm a.entries :=
  List.mergeSort_perm ..

theorem nodup_keys_sortedEntries (a : Attributes) :
    ((HostGroup.sortedEntries a).map Prod.fst).Nodup :=
  (a.sortedEntries_perm.map _).nodup_iff.2 a.distinct

theorem lookup_sortedEntries (a : Attributes) (k : String) :
    (HostGroup.sortedEntries a).lookup k = a.get? k := by
  let sorted : Attributes := ⟨HostGroup.sortedEntries a, a.nodup_keys_sortedEntries⟩
  have same : sorted.get? k = a.get? k := Option.ext fun v => by
    rw [OrderedMap.get?_eq_some, OrderedMap.get?_eq_some]
    exact a.sortedEntries_perm.mem_iff
  exact same

theorem pairwise_sortedEntries (a : Attributes) :
    ((HostGroup.sortedEntries a).map Prod.fst).Pairwise (· ≤ ·) := by
  have le {x y : String × Value} : (!decide (y.1 < x.1)) = true ↔ x.1 ≤ y.1 := by
    rw [Bool.not_eq_true', decide_eq_false_iff_not, String.not_lt]
  have sorted := @List.pairwise_mergeSort _ (fun x y : String × Value => !decide (y.1 < x.1))
    (fun x y z hxy hyz => le.2 (String.le_trans (le.1 hxy) (le.1 hyz)))
    (fun x y => by
      rw [Bool.or_eq_true, le, le]
      exact String.le_total x.1 y.1) a.entries
  exact List.pairwise_map.2 (sorted.imp le.1)

theorem Matches.mem_keys (h : a.Matches b) (k : String) : k ∈ a.keys ↔ k ∈ b.keys := by
  have same := h k
  rw [OrderedMap.mem_keys, OrderedMap.mem_keys]
  generalize a.get? k = v, b.get? k = w at same ⊢
  cases same <;> simp

theorem Matches.keys_sortedEntries (h : a.Matches b) :
    (HostGroup.sortedEntries a).map Prod.fst = (HostGroup.sortedEntries b).map Prod.fst := by
  have perm : a.keys.Perm b.keys :=
    (List.perm_ext_iff_of_nodup a.nodup_keys b.nodup_keys).2 h.mem_keys
  exact List.Perm.eq_of_pairwise (fun _ _ _ _ => String.le_antisymm) a.pairwise_sortedEntries
    b.pairwise_sortedEntries
    (((a.sortedEntries_perm.map _).trans perm).trans (b.sortedEntries_perm.map _).symm)

theorem sameFields_cons (e f : String × Value) (l m : List (String × Value)) :
    GroupKey.sameFields (e :: l) (f :: m) = true ↔
      e.1 = f.1 ∧ e.2.same f.2 = true ∧ GroupKey.sameFields l m = true := by
  simp only [GroupKey.sameFields, List.length_cons, List.zip_cons_cons, List.all_cons,
    Bool.and_eq_true, beq_iff_eq, Nat.add_right_cancel_iff]
  tauto

theorem lookup_of_notMem {l : List (String × Value)} {k : String} (h : k ∉ l.map Prod.fst) :
    l.lookup k = none :=
  List.lookup_eq_none_iff.2 fun _ he => bne_iff_ne.2 fun same => h (same ▸ List.mem_map_of_mem he)

theorem sameFields_iff {l m : List (String × Value)} (hl : (l.map Prod.fst).Nodup)
    (hm : (m.map Prod.fst).Nodup) :
    GroupKey.sameFields l m = true ↔ l.map Prod.fst = m.map Prod.fst ∧
      ∀ k, Option.Rel (fun v w => v.same w = true) (l.lookup k) (m.lookup k) := by
  induction l generalizing m with
  | nil =>
    cases m with
    | nil => exact ⟨fun _ => ⟨rfl, fun _ => .none⟩, fun _ => rfl⟩
    | cons => simp [GroupKey.sameFields]
  | cons e l ih =>
    cases m with
    | nil => simp [GroupKey.sameFields]
    | cons f m =>
      obtain ⟨he, hl⟩ := List.nodup_cons.1 hl
      obtain ⟨hf, hm⟩ := List.nodup_cons.1 hm
      rw [sameFields_cons, ih hl hm]
      constructor
      · rintro ⟨name, content, names, contents⟩
        refine ⟨by rw [List.map_cons, List.map_cons, name, names], fun k => ?_⟩
        rw [List.lookup_cons, List.lookup_cons, name]
        cases k == f.1 with
        | true => exact .some content
        | false => exact contents k
      · rintro ⟨names, contents⟩
        obtain ⟨name, names⟩ := List.cons.inj names
        have first := contents e.1
        rw [List.lookup_cons, List.lookup_cons, name, beq_self_eq_true] at first
        cases first with | some content =>
        refine ⟨name, content, names, fun k => ?_⟩
        by_cases here : k = e.1
        · rw [here, lookup_of_notMem he, name, lookup_of_notMem hf]
          exact .none
        · have other := contents k
          rw [List.lookup_cons, List.lookup_cons, beq_false_of_ne here,
            beq_false_of_ne (name ▸ here)] at other
          exact other

theorem sameFields_sortedEntries_iff : GroupKey.sameFields (HostGroup.sortedEntries a)
    (HostGroup.sortedEntries b) = true ↔ a.Matches b := by
  rw [sameFields_iff a.nodup_keys_sortedEntries b.nodup_keys_sortedEntries]
  simp only [lookup_sortedEntries]
  exact ⟨fun h => h.2, fun h => ⟨h.keys_sortedEntries, h⟩⟩

end Attributes

namespace HostGroup

theorem index_injective : Function.Injective UnitId.index := fun
  | ⟨_⟩, ⟨_⟩, rfl => rfl

theorem members_structuralKey_perm (g : HostGroup) :
    g.structuralKey.members.Perm (g.members.toList.map UnitId.index) := List.mergeSort_perm ..

theorem pairwise_members_structuralKey (g : HostGroup) :
    g.structuralKey.members.Pairwise (· ≤ ·) := by
  have sorted := @List.pairwise_mergeSort _ (fun m n : Nat => decide (m ≤ n))
    (fun _ _ _ hkm hmn => by simp only [decide_eq_true_eq] at *; omega)
    (fun m n => by simp only [Bool.or_eq_true, decide_eq_true_eq]; omega)
    (g.members.toList.map UnitId.index)
  exact sorted.imp of_decide_eq_true

theorem members_structuralKey_iff {g h : HostGroup} :
    g.structuralKey.members = h.structuralKey.members ↔ ∀ u, u ∈ g.members ↔ u ∈ h.members := by
  have members : g.structuralKey.members.Perm h.structuralKey.members ↔
      g.members.toList.Perm h.members.toList := by
    rw [g.members_structuralKey_perm.congr_left, h.members_structuralKey_perm.congr_right]
    exact List.map_perm_map_iff index_injective
  constructor
  · intro same u
    exact (members.1 (.of_eq same)).mem_iff
  · intro same
    refine List.Perm.eq_of_pairwise (fun _ _ _ _ => Nat.le_antisymm)
      g.pairwise_members_structuralKey h.pairwise_members_structuralKey (members.2 ?_)
    exact (List.perm_ext_iff_of_nodup g.members.nodup h.members.nodup).2 same

/-- The structural keys of two groups are equal exactly if the groups have the same pattern, equal
settings, equal variables and the same members, in whatever order these were inserted. -/
theorem same_structuralKey_iff (g h : HostGroup) :
    g.structuralKey.same h.structuralKey = true ↔
      g.pattern = h.pattern ∧ g.settings.Matches h.settings ∧ g.vars.Matches h.vars ∧
        ∀ u, u ∈ g.members ↔ u ∈ h.members := by
  simp only [GroupKey.same, Bool.and_eq_true, beq_iff_eq, and_assoc]
  exact and_congr_right' (and_congr Attributes.sameFields_sortedEntries_iff
    (and_congr Attributes.sameFields_sortedEntries_iff members_structuralKey_iff))

end HostGroup
end Playbook
