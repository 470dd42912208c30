import Mathlib.Data.Fintype.EquivFin
import Mathlib.Data.List.Pairwise
import Playbook.Proofs.Value.Agreement
import Playbook.Proofs.Value.Keys

/-! Equality of content is an equivalence on the values that documents can hold. A mapping is
compared by looking each of its entries up in the other one. As no two keys of a mapping are equal,
no two entries find the same one, so where the mappings are of one size every entry is found. The
keys are values themselves, so symmetry and transitivity need each other, at smaller values. -/

namespace Playbook

theorem Binary64.same_symm {x y : Binary64} (h : x.same y = true) : y.same x = true := by
  simp only [same, Bool.or_eq_true, Bool.and_eq_true, beq_iff_eq] at *
  tauto

theorem Binary64.same_trans {x y z : Binary64} (hxy : x.same y = true) (hyz : y.same z = true) :
    x.same z = true := by
  have apart (x : Binary64) (zero : x.isZero = true) : x.isNaN = false := by
    simp only [isZero, Bool.and_eq_true] at zero
    simp [isNaN, zero.1]
  have := apart y
  simp only [same, Bool.or_eq_true, Bool.and_eq_true, beq_iff_eq] at *
  grind

theorem Number.same_symm {m n : Number} (h : m.same n = true) : n.same m = true := by
  cases m <;> cases n <;> simp only [same, beq_iff_eq, Bool.false_eq_true] at *
  · exact h.symm
  · exact Binary64.same_symm h

theorem Number.same_trans {k m n : Number} (hkm : k.same m = true) (hmn : m.same n = true) :
    k.same n = true := by
  cases k <;> cases m <;> cases n <;> simp only [same, beq_iff_eq, Bool.false_eq_true] at *
  · exact hkm.trans hmn
  · exact Binary64.same_trans hkm hmn

theorem exists_partner {α β : Type} {R : α → β → Prop} {l : List α} {m : List β}
    (length : l.length = m.length) (partner : ∀ i : Fin l.length, ∃ j : Fin m.length, R l[i] m[j])
    (apart : ∀ (i i' : Fin l.length) (j : Fin m.length), R l[i] m[j] → R l[i'] m[j] → i = i') :
    ∀ b ∈ m, ∃ a ∈ l, R a b := by
  choose f hf using partner
  have injective : Function.Injective f := fun i i' same => apart i i' (f i) (hf i) (same ▸ hf i')
  intro b hb
  obtain ⟨j, hj, rfl⟩ := List.getElem_of_mem hb
  obtain ⟨i, found⟩ := injective.surjective_of_finite (finCongr length) ⟨j, hj⟩
  refine ⟨l[i], List.getElem_mem _, ?_⟩
  have := hf i
  rwa [found] at this

namespace Value

structure Settles (P : Value → Prop) : Prop where
  symm {v w : Value} (hv : P v) (hw : P w) : v.same w = true → w.same v = true
  trans {v w x : Value} (hv : P v) (hw : P w) (hx : P x) :
    v.same w = true → w.same x = true → v.same x = true

def Apart (es : List (Value × Value)) : Prop :=
  es.Pairwise fun e f => e.1.same f.1 = false ∧ f.1.same e.1 = false

namespace Settles
variable {P : Value → Prop} (settles : Settles P)
include settles

theorem symm_items : ∀ {xs ys : List Value}, (∀ x ∈ xs, P x) → (∀ y ∈ ys, P y) →
    sameItems xs ys = true → sameItems ys xs = true
  | [], [], _, _, _ => rfl
  | x :: xs, y :: ys, hx, hy, h => by
    obtain ⟨hx, hxs⟩ := List.forall_mem_cons.1 hx
    obtain ⟨hy, hys⟩ := List.forall_mem_cons.1 hy
    simp only [sameItems, Bool.and_eq_true] at h ⊢
    exact ⟨settles.symm hx hy h.1, symm_items hxs hys h.2⟩

theorem trans_items : ∀ {xs ys zs : List Value}, (∀ x ∈ xs, P x) → (∀ y ∈ ys, P y) →
    (∀ z ∈ zs, P z) → sameItems xs ys = true → sameItems ys zs = true → sameItems xs zs = true
  | [], [], [], _, _, _, _, _ => rfl
  | x :: xs, y :: ys, z :: zs, hx, hy, hz, h, h' => by
    obtain ⟨hx, hxs⟩ := List.forall_mem_cons.1 hx
    obtain ⟨hy, hys⟩ := List.forall_mem_cons.1 hy
    obtain ⟨hz, hzs⟩ := List.forall_mem_cons.1 hz
    simp only [sameItems, Bool.and_eq_true] at h h' ⊢
    exact ⟨settles.trans hx hy hz h.1 h'.1, trans_items hxs hys hzs h.2 h'.2⟩

theorem eq_of_same {es : List (Value × Value)} {k : Value} {e f : Value × Value} (hk : P k)
    (hes : ∀ e ∈ es, P e.1) (apart : Apart es) (he : e ∈ es) (hf : f ∈ es)
    (hke : k.same e.1 = true) (hkf : k.same f.1 = true) : e = f := by
  have keys {e f : Value × Value} (he : P e.1) (hf : P f.1) (hke : k.same e.1 = true)
      (hkf : k.same f.1 = true) : e.1.same f.1 = true :=
    settles.trans he hk hf (settles.symm hk he hke) hkf
  have symm : Std.Symm fun e f : Value × Value => e.1.same f.1 = false ∧ f.1.same e.1 = false :=
    ⟨fun _ _ h => h.symm⟩
  by_contra differ
  have := apart.forall he hf differ
  rw [keys (hes e he) (hes f hf) hke hkf] at this
  exact Bool.noConfusion this.1

theorem find?_eq_some {es : List (Value × Value)} {k : Value} {f : Value × Value} (hk : P k)
    (hes : ∀ e ∈ es, P e.1) (apart : Apart es) :
    es.find? (fun e => k.same e.1) = some f ↔ f ∈ es ∧ k.same f.1 = true := by
  constructor
  · exact fun found => ⟨List.mem_of_find?_eq_some found, by simpa using List.find?_some found⟩
  · rintro ⟨hf, same⟩
    cases found : es.find? fun e => k.same e.1 with
    | none => exact absurd same (List.find?_eq_none.1 found f hf)
    | some e =>
      rw [settles.eq_of_same hk hes apart (List.mem_of_find?_eq_some found) hf
        (by simpa using List.find?_some found) same]

theorem sameEntries_iff {es fs : List (Value × Value)} (hes : ∀ e ∈ es, P e.1)
    (hfs : ∀ f ∈ fs, P f.1) (apart : Apart fs) :
    sameEntries es fs = true ↔
      ∀ e ∈ es, ∃ f ∈ fs, e.1.same f.1 = true ∧ e.2.same f.2 = true := by
  induction es with
  | nil => simp [sameEntries]
  | cons e es ih =>
    obtain ⟨he, hes⟩ := List.forall_mem_cons.1 hes
    rw [sameEntries, Bool.and_eq_true, ih hes, List.forall_mem_cons]
    refine and_congr_left' ⟨fun h => ?_, ?_⟩
    · split at h
      · rename_i f found
        obtain ⟨hf, same⟩ := (settles.find?_eq_some he hfs apart).1 found
        exact ⟨f, hf, same, h⟩
      · cases h
    · rintro ⟨f, hf, key, value⟩
      rw [(settles.find?_eq_some he hfs apart).2 ⟨hf, key⟩]
      exact value

theorem symm_entries {es fs : List (Value × Value)} (hes : ∀ e ∈ es, P e.1 ∧ P e.2)
    (hfs : ∀ f ∈ fs, P f.1 ∧ P f.2) (apart : Apart es) (apart' : Apart fs)
    (length : es.length = fs.length) (h : sameEntries es fs = true) :
    sameEntries fs es = true := by
  rw [settles.sameEntries_iff (fun e he => (hes e he).1) (fun f hf => (hfs f hf).1) apart'] at h
  rw [settles.sameEntries_iff (fun f hf => (hfs f hf).1) (fun e he => (hes e he).1) apart]
  let R (e f : Value × Value) : Prop := e.1.same f.1 = true ∧ e.2.same f.2 = true
  have partner (i : Fin es.length) : ∃ j : Fin fs.length, R es[i] fs[j] := by
    obtain ⟨f, hf, same⟩ := h es[i] (List.getElem_mem _)
    obtain ⟨j, hj, rfl⟩ := List.getElem_of_mem hf
    exact ⟨⟨j, hj⟩, same⟩
  have different (i i' : Fin es.length) (j : Fin fs.length) (hi : R es[i] fs[j])
      (hi' : R es[i'] fs[j]) : i = i' := by
    have keys : es[i].1.same es[i'].1 = true := by
      have p := (hes es[i] (List.getElem_mem _)).1
      have p' := (hes es[i'] (List.getElem_mem _)).1
      have q := (hfs fs[j] (List.getElem_mem _)).1
      exact settles.trans p q p' hi.1 (settles.symm p' q hi'.1)
    by_contra differ
    rcases Nat.lt_or_gt_of_ne (Fin.val_ne_of_ne differ) with less | less
    · have := (List.pairwise_iff_getElem.1 apart i i' i.2 i'.2 less).1
      exact Bool.noConfusion (this.symm.trans keys)
    · have := (List.pairwise_iff_getElem.1 apart i' i i'.2 i.2 less).2
      exact Bool.noConfusion (this.symm.trans keys)
  intro f hf
  obtain ⟨e, he, key, value⟩ := exists_partner length partner different f hf
  exact ⟨e, he, settles.symm (hes e he).1 (hfs f hf).1 key,
    settles.symm (hes e he).2 (hfs f hf).2 value⟩

theorem trans_entries {es fs gs : List (Value × Value)} (hes : ∀ e ∈ es, P e.1 ∧ P e.2)
    (hfs : ∀ f ∈ fs, P f.1 ∧ P f.2) (hgs : ∀ g ∈ gs, P g.1 ∧ P g.2) (apart : Apart fs)
    (apart' : Apart gs) (h : sameEntries es fs = true) (h' : sameEntries fs gs = true) :
    sameEntries es gs = true := by
  have left {es : List (Value × Value)} (hes : ∀ e ∈ es, P e.1 ∧ P e.2) (e) (he : e ∈ es) : P e.1 :=
    (hes e he).1
  rw [settles.sameEntries_iff (left hes) (left hfs) apart] at h
  rw [settles.sameEntries_iff (left hfs) (left hgs) apart'] at h'
  rw [settles.sameEntries_iff (left hes) (left hgs) apart']
  intro e he
  obtain ⟨f, hf, key, value⟩ := h e he
  obtain ⟨g, hg, key', value'⟩ := h' f hf
  exact ⟨g, hg, settles.trans (hes e he).1 (hfs f hf).1 (hgs g hg).1 key key',
    settles.trans (hes e he).2 (hfs f hf).2 (hgs g hg).2 value value'⟩

end Settles

theorem proper_of_mem_items {xs : List Value} (h : properItems xs = true) :
    ∀ x ∈ xs, x.proper = true := by
  induction xs with
  | nil => simp
  | cons x xs ih =>
    simp only [properItems, Bool.and_eq_true] at h
    exact List.forall_mem_cons.2 ⟨h.1, ih h.2⟩

theorem proper_of_mem_entries {es : List (Value × Value)} (h : properEntries es = true) :
    Apart es ∧ ∀ e ∈ es, e.1.proper = true ∧ e.2.proper = true := by
  induction es with
  | nil => exact ⟨.nil, by simp⟩
  | cons e es ih =>
    simp only [properEntries, Bool.and_eq_true, List.all_eq_true, Bool.not_eq_true'] at h
    obtain ⟨⟨⟨key, value⟩, fresh⟩, rest⟩ := h
    obtain ⟨apart, proper⟩ := ih rest
    exact ⟨.cons fresh apart, List.forall_mem_cons.2 ⟨⟨key, value⟩, proper⟩⟩

theorem sizeOf_entry {es : List (Value × Value)} {e : Value × Value} (he : e ∈ es) :
    sizeOf e.1 < sizeOf (mapping es) ∧ sizeOf e.2 < sizeOf (mapping es) := by
  obtain ⟨k, v⟩ := e
  have entry := List.sizeOf_lt_of_mem he
  simp only [Prod.mk.sizeOf_spec, mapping.sizeOf_spec] at entry ⊢
  omega

/-- Each of the two laws needs both at smaller values: the entries that agree with an entry of
another mapping are found by their keys. -/
theorem settles_proper (n : Nat) : Settles fun v => v.proper = true ∧ sizeOf v < n := by
  induction n with
  | zero => exact ⟨fun h => absurd h.2 (Nat.not_lt_zero _), fun h => absurd h.2 (Nat.not_lt_zero _)⟩
  | succ n ih =>
    have items {xs : List Value} (proper : (sequence xs).proper = true)
        (size : sizeOf (sequence xs) < n + 1) (x : Value) (hx : x ∈ xs) :
        x.proper = true ∧ sizeOf x < n := by
      have smaller := List.sizeOf_lt_of_mem hx
      simp only [sequence.sizeOf_spec] at size
      exact ⟨proper_of_mem_items proper x hx, by omega⟩
    have entries {es : List (Value × Value)} (proper : (mapping es).proper = true)
        (size : sizeOf (mapping es) < n + 1) (e : Value × Value) (he : e ∈ es) :
        (e.1.proper = true ∧ sizeOf e.1 < n) ∧ e.2.proper = true ∧ sizeOf e.2 < n := by
      have smaller := sizeOf_entry he
      have proper := (proper_of_mem_entries proper).2 e he
      exact ⟨⟨proper.1, by omega⟩, proper.2, by omega⟩
    have inner {t : String} {v : Value} (proper : (tagged t v).proper = true)
        (size : sizeOf (tagged t v) < n + 1) : v.proper = true ∧ sizeOf v < n := by
      simp only [tagged.sizeOf_spec] at size
      exact ⟨proper, by omega⟩
    constructor
    · rintro v w ⟨pv, sv⟩ ⟨pw, sw⟩ h
      cases v <;> cases w <;>
        simp only [same, Bool.and_eq_true, beq_iff_eq, Bool.false_eq_true] at *
      · exact h.symm
      · exact Number.same_symm h
      · exact h.symm
      · exact ih.symm_items (items pv sv) (items pw sw) h
      · exact ⟨h.1.symm, ih.symm_entries (entries pv sv) (entries pw sw)
          (proper_of_mem_entries pv).1 (proper_of_mem_entries pw).1 h.1 h.2⟩
      · exact ⟨h.1.symm, ih.symm (inner pv sv) (inner pw sw) h.2⟩
    · rintro v w x ⟨pv, sv⟩ ⟨pw, sw⟩ ⟨px, sx⟩ h h'
      cases v <;> cases w <;>
        simp only [same, Bool.and_eq_true, beq_iff_eq, Bool.false_eq_true] at h
      all_goals
        cases x <;> simp only [same, Bool.and_eq_true, beq_iff_eq, Bool.false_eq_true] at h' ⊢
      · exact h.trans h'
      · exact Number.same_trans h h'
      · exact h.trans h'
      · exact ih.trans_items (items pv sv) (items pw sw) (items px sx) h h'
      · exact ⟨h.1.trans h'.1, ih.trans_entries (entries pv sv) (entries pw sw) (entries px sx)
          (proper_of_mem_entries pw).1 (proper_of_mem_entries px).1 h.2 h'.2⟩
      · exact ⟨h.1.trans h'.1, ih.trans (inner pv sv) (inner pw sw) (inner px sx) h.2 h'.2⟩

theorem same_symm {v w : Value} (hv : v.proper = true) (hw : w.proper = true)
    (h : v.same w = true) : w.same v = true :=
  (settles_proper (max (sizeOf v) (sizeOf w) + 1)).symm ⟨hv, by omega⟩ ⟨hw, by omega⟩ h

theorem same_trans {v w x : Value} (hv : v.proper = true) (hw : w.proper = true)
    (hx : x.proper = true) (h : v.same w = true) (h' : w.same x = true) : v.same x = true :=
  (settles_proper (max (max (sizeOf v) (sizeOf w)) (sizeOf x) + 1)).trans ⟨hv, by omega⟩
    ⟨hw, by omega⟩ ⟨hx, by omega⟩ h h'

end Value

namespace Attributes
variable {a b c : Attributes}

theorem Proper.get? (h : a.Proper) {k : String} {v : Value} (hv : a.get? k = some v) :
    v.proper = true :=
  h v (List.mem_map_of_mem (OrderedMap.get?_eq_some.1 hv))

theorem Matches.symm (ha : a.Proper) (hb : b.Proper) (h : a.Matches b) : b.Matches a := fun k => by
  have pa (v : Value) (hv : a.get? k = some v) := ha.get? hv
  have pb (v : Value) (hv : b.get? k = some v) := hb.get? hv
  have same := h k
  generalize a.get? k = x, b.get? k = y at pa pb same ⊢
  cases same with
  | none => exact .none
  | some same => exact .some (Value.same_symm (pa _ rfl) (pb _ rfl) same)

theorem Matches.trans (ha : a.Proper) (hb : b.Proper) (hc : c.Proper) (h : a.Matches b)
    (h' : b.Matches c) : a.Matches c := fun k => by
  have pa (v : Value) (hv : a.get? k = some v) := ha.get? hv
  have pb (v : Value) (hv : b.get? k = some v) := hb.get? hv
  have pc (v : Value) (hv : c.get? k = some v) := hc.get? hv
  have first := h k
  have second := h' k
  generalize a.get? k = x, b.get? k = y, c.get? k = z at pa pb pc first second ⊢
  cases first with
  | none => exact second
  | some same =>
    cases second with | some same' =>
    exact .some (Value.same_trans (pa _ rfl) (pb _ rfl) (pc _ rfl) same same')

end Attributes

namespace HostGroup
variable {f g h : HostGroup}

theorem Proper.same_symm (hg : g.Proper) (hh : h.Proper)
    (same : g.structuralKey.same h.structuralKey = true) :
    h.structuralKey.same g.structuralKey = true := by
  simp only [GroupKey.same, Bool.and_eq_true, beq_iff_eq] at *
  obtain ⟨⟨⟨pattern, settings⟩, vars⟩, members⟩ := same
  have fields {a b : Attributes} (ha : a.Proper) (hb : b.Proper)
      (hab : GroupKey.sameFields (sortedEntries a) (sortedEntries b) = true) :
      GroupKey.sameFields (sortedEntries b) (sortedEntries a) = true := by
    rw [Attributes.sameFields_sortedEntries_iff] at *
    exact hab.symm ha hb
  exact ⟨⟨⟨pattern.symm, fields hg.settings hh.settings settings⟩, fields hg.vars hh.vars vars⟩,
    members.symm⟩

theorem Proper.same_trans (hf : f.Proper) (hg : g.Proper) (hh : h.Proper)
    (first : f.structuralKey.same g.structuralKey = true)
    (second : g.structuralKey.same h.structuralKey = true) :
    f.structuralKey.same h.structuralKey = true := by
  simp only [GroupKey.same, Bool.and_eq_true, beq_iff_eq] at *
  obtain ⟨⟨⟨pattern, settings⟩, vars⟩, members⟩ := first
  obtain ⟨⟨⟨pattern', settings'⟩, vars'⟩, members'⟩ := second
  have fields {a b c : Attributes} (ha : a.Proper) (hb : b.Proper) (hc : c.Proper)
      (hab : GroupKey.sameFields (sortedEntries a) (sortedEntries b) = true)
      (hbc : GroupKey.sameFields (sortedEntries b) (sortedEntries c) = true) :
      GroupKey.sameFields (sortedEntries a) (sortedEntries c) = true := by
    rw [Attributes.sameFields_sortedEntries_iff] at *
    exact hab.trans ha hb hc hbc
  exact ⟨⟨⟨pattern.trans pattern', fields hf.settings hg.settings hh.settings settings settings'⟩,
    fields hf.vars hg.vars hh.vars vars vars'⟩, members.trans members'⟩

end HostGroup
end Playbook
