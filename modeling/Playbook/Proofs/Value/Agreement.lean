import Playbook.HostGroup

/-! Which values are the same, down to the order of their entries, and which agree with themselves.
A mapping in a document has no key twice; a list of entries could have one, and would then be
compared by the first of its values only. -/

namespace Playbook
namespace Value

mutual

def decEq (v w : Value) : Decidable (v = w) :=
  if h : v.ctorIdx = w.ctorIdx then
    match v, w, h with
    | .null, .null, _ => .isTrue rfl
    | .bool a, .bool b, _ => decidable_of_iff (a = b) (by rw [bool.injEq])
    | .number m, .number n, _ => decidable_of_iff (m = n) (by rw [number.injEq])
    | .text s, .text t, _ => decidable_of_iff (s = t) (by rw [text.injEq])
    | .sequence xs, .sequence ys, _ =>
      have := decEqItems xs ys
      decidable_of_iff (xs = ys) (by rw [sequence.injEq])
    | .mapping es, .mapping fs, _ =>
      have := decEqEntries es fs
      decidable_of_iff (es = fs) (by rw [mapping.injEq])
    | .tagged t x, .tagged u y, _ =>
      have := decEq x y
      decidable_of_iff (t = u ∧ x = y) (by rw [tagged.injEq])
  else .isFalse fun same => h (congrArg Value.ctorIdx same)

def decEqItems : ∀ xs ys : List Value, Decidable (xs = ys)
  | [], [] => .isTrue rfl
  | [], _ :: _ => .isFalse nofun
  | _ :: _, [] => .isFalse nofun
  | x :: xs, y :: ys =>
    have := decEq x y
    have := decEqItems xs ys
    decidable_of_iff (x = y ∧ xs = ys) (by rw [List.cons.injEq])

def decEqEntries : ∀ es fs : List (Value × Value), Decidable (es = fs)
  | [], [] => .isTrue rfl
  | [], _ :: _ => .isFalse nofun
  | _ :: _, [] => .isFalse nofun
  | (k, v) :: es, (l, w) :: fs =>
    have := decEq k l
    have := decEq v w
    have := decEqEntries es fs
    decidable_of_iff ((k = l ∧ v = w) ∧ es = fs) (by rw [List.cons.injEq, Prod.mk.injEq])

end

instance : DecidableEq Value := decEq

mutual

/-- No two keys of a mapping agree, and so for all that stands inside. -/
def proper : Value → Bool
  | .sequence items => properItems items
  | .mapping entries => properEntries entries
  | .tagged _ v => v.proper
  | _ => true

def properItems : List Value → Bool
  | [] => true
  | v :: vs => v.proper && properItems vs

def properEntries : List (Value × Value) → Bool
  | [] => true
  | (k, v) :: es =>
    k.proper && v.proper && (es.all fun e => !k.same e.1 && !e.1.same k) && properEntries es

end

mutual

theorem same_of_proper : ∀ v : Value, v.proper = true → v.same v = true
  | .null, _ => rfl
  | .bool b, _ => by simp [same]
  | .number n, _ => by simp [same, n.same_refl]
  | .text s, _ => by simp [same]
  | .sequence items, h => by
    rw [same]
    exact sameItems_of_proper items h
  | .mapping entries, h => by
    rw [same, beq_self_eq_true, Bool.true_and]
    exact sameEntries_of_proper [] entries h (by simp)
  | .tagged tag v, h => by
    rw [same, beq_self_eq_true, Bool.true_and]
    exact same_of_proper v h

theorem sameItems_of_proper : ∀ items : List Value, properItems items = true →
    sameItems items items = true
  | [], _ => rfl
  | v :: vs, h => by
    simp only [properItems, Bool.and_eq_true] at h
    rw [sameItems, same_of_proper v h.1, sameItems_of_proper vs h.2]
    rfl

theorem sameEntries_of_proper : ∀ front entries : List (Value × Value),
    properEntries entries = true → (∀ f ∈ front, ∀ e ∈ entries, e.1.same f.1 = false) →
    sameEntries entries (front ++ entries) = true
  | _, [], _, _ => rfl
  | front, (k, v) :: es, h, apart => by
    simp only [properEntries, Bool.and_eq_true, List.all_eq_true, Bool.not_eq_true'] at h
    obtain ⟨⟨⟨key, value⟩, fresh⟩, rest⟩ := h
    have absent : front.find? (fun f => k.same f.1) = none :=
      List.find?_eq_none.2 fun f hf => by simp [apart f hf (k, v) (List.mem_cons_self ..)]
    have found : (front ++ (k, v) :: es).find? (fun f => k.same f.1) = some (k, v) := by
      rw [List.find?_append, absent, Option.none_or, List.find?_cons]
      simp only [same_of_proper k key]
    have others := sameEntries_of_proper (front ++ [(k, v)]) es rest fun f hf e he => by
      rcases List.mem_append.1 hf with hf | hf
      · exact apart f hf e (List.mem_cons_of_mem _ he)
      · rw [List.mem_singleton.1 hf]
        exact (fresh e he).2
    rw [List.append_assoc, List.singleton_append] at others
    simp [sameEntries, found, same_of_proper v value, others]

end

end Value

def Attributes.Proper (a : Attributes) : Prop := ∀ v ∈ a.values, v.proper = true

instance (a : Attributes) : Decidable a.Proper :=
  inferInstanceAs (Decidable (∀ v ∈ a.values, v.proper = true))

theorem Attributes.proper_empty : Attributes.Proper .empty := fun _ hv => absurd hv (by simp)

theorem Attributes.Proper.insert {a : Attributes} (h : a.Proper) (key : String) {value : Value}
    (proper : value.proper = true) : Attributes.Proper (a.insert key value) := fun v hv => by
  rcases OrderedMap.mem_values_insert hv with rfl | hv
  · exact proper
  · exact h v hv

namespace HostGroup

structure Proper (g : HostGroup) : Prop where
  settings : g.settings.Proper
  vars : g.vars.Proper

instance (g : HostGroup) : Decidable g.Proper :=
  decidable_of_iff (g.settings.Proper ∧ g.vars.Proper) ⟨fun h => ⟨h.1, h.2⟩, fun h => ⟨h.1, h.2⟩⟩

theorem sameFields_of_proper {a : Attributes} (h : a.Proper) :
    GroupKey.sameFields (sortedEntries a) (sortedEntries a) = true := by
  have self (l : List (String × Value)) (hl : ∀ e ∈ l, e.2.same e.2 = true) :
      GroupKey.sameFields l l = true := by
    simp only [GroupKey.sameFields, beq_self_eq_true, Bool.true_and]
    induction l with
    | nil => rfl
    | cons e l ih =>
      obtain ⟨first, others⟩ := List.forall_mem_cons.1 hl
      simp [first, ih others]
  refine self _ fun e he => Value.same_of_proper e.2 (h e.2 ?_)
  exact List.mem_map_of_mem (List.mem_mergeSort.1 he)

theorem Proper.same_key {g : HostGroup} (h : g.Proper) :
    g.structuralKey.same g.structuralKey = true := by
  simp [GroupKey.same, structuralKey, sameFields_of_proper h.settings, sameFields_of_proper h.vars]

end HostGroup
end Playbook
