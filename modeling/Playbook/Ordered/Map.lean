/-! Maps that keep the order in which their keys were first inserted. -/

namespace Playbook

/-- Writes an entry: a key that is present keeps its place and takes the new value. -/
def putEntry {κ β : Type} [BEq κ] (k : κ) (v : β) : List (κ × β) → List (κ × β)
  | [] => [(k, v)]
  | e :: l => if e.1 == k then (e.1, v) :: l else e :: putEntry k v l

theorem map_fst_putEntry {κ β : Type} [BEq κ] [LawfulBEq κ] (k : κ) (v : β) (l : List (κ × β)) :
    (putEntry k v l).map Prod.fst =
      if k ∈ l.map Prod.fst then l.map Prod.fst else l.map Prod.fst ++ [k] := by
  induction l with
  | nil => simp [putEntry]
  | cons e l ih =>
    by_cases h : e.1 = k
    · simp [putEntry, h]
    · have h' : k ≠ e.1 := fun e' => h e'.symm
      simp only [putEntry, beq_iff_eq, h, if_false, List.map_cons, ih, List.mem_cons, h', false_or]
      split <;> simp

theorem nodup_putEntry {κ β : Type} [BEq κ] [LawfulBEq κ] (k : κ) (v : β) {l : List (κ × β)}
    (h : (l.map Prod.fst).Nodup) : ((putEntry k v l).map Prod.fst).Nodup := by
  rw [map_fst_putEntry]
  split
  · exact h
  · rename_i hk
    simp only [List.nodup_append, h, List.nodup_cons, List.not_mem_nil, not_false_eq_true,
      List.nodup_nil, and_self, List.mem_singleton, forall_eq, true_and]
    exact fun b hb e => hk (e ▸ hb)

theorem lookup_putEntry {κ β : Type} [BEq κ] [LawfulBEq κ] (k j : κ) (v : β) (l : List (κ × β)) :
    (putEntry k v l).lookup j = if j == k then some v else l.lookup j := by
  induction l with
  | nil =>
    simp only [putEntry, List.lookup_cons, List.lookup_nil]
    cases j == k <;> rfl
  | cons e l ih =>
    obtain ⟨i, b⟩ := e
    by_cases hk : i = k
    · by_cases h : j = k
      · simp [putEntry, hk, h]
      · have : (j == k) = false := by simpa using h
        simp [putEntry, List.lookup_cons, hk, this]
    · by_cases h : j = i
      · subst h
        simp [putEntry, hk]
      · have : (j == i) = false := by simpa using h
        simp [putEntry, List.lookup_cons, hk, this, ih]

theorem putEntry_of_notMem {κ β : Type} [BEq κ] [LawfulBEq κ] {k : κ} (v : β) {l : List (κ × β)}
    (h : k ∉ l.map Prod.fst) : putEntry k v l = l ++ [(k, v)] := by
  induction l with
  | nil => rfl
  | cons e l ih =>
    simp only [List.map_cons, List.mem_cons, not_or] at h
    have : ¬ e.1 = k := fun he => h.1 he.symm
    simp [putEntry, this, ih h.2]

theorem putEntry_putEntry {κ β : Type} [BEq κ] [LawfulBEq κ] (k : κ) (v w : β)
    (l : List (κ × β)) : putEntry k w (putEntry k v l) = putEntry k w l := by
  induction l with
  | nil => simp [putEntry]
  | cons e l ih => by_cases h : e.1 = k <;> simp [putEntry, h, ih]

theorem putEntry_of_mem {κ β : Type} [BEq κ] [LawfulBEq κ] {k : κ} {v : β} {l : List (κ × β)}
    (hd : (l.map Prod.fst).Nodup) (h : (k, v) ∈ l) : putEntry k v l = l := by
  induction l with
  | nil => simp at h
  | cons e l ih =>
    simp only [List.map_cons, List.nodup_cons] at hd
    rcases List.mem_cons.1 h with rfl | h
    · simp [putEntry]
    · have : ¬ e.1 = k := fun he => hd.1 (he ▸ List.mem_map_of_mem (f := Prod.fst) h)
      simp [putEntry, this, ih hd.2 h]

theorem putEntry_comm {κ β : Type} [BEq κ] [LawfulBEq κ] {k j : κ} (v w : β) {l : List (κ × β)}
    (hk : k ∈ l.map Prod.fst) (hj : j ≠ k) :
    putEntry j w (putEntry k v l) = putEntry k v (putEntry j w l) := by
  induction l with
  | nil => simp at hk
  | cons e l ih =>
    by_cases h : e.1 = k
    · have : ¬ k = j := fun e' => hj e'.symm
      simp [putEntry, h, this]
    · have hk : k ∈ l.map Prod.fst := by
        simpa [show ¬ k = e.1 from fun e' => h e'.symm] using hk
      by_cases h' : e.1 = j
      · simp [putEntry, h', hj]
      · simp [putEntry, h, h', ih hk]

theorem filter_putEntry {κ β : Type} [BEq κ] [LawfulBEq κ] {p : κ → Bool} {k : κ} (v : β)
    (hk : p k = true) (l : List (κ × β)) :
    (putEntry k v l).filter (fun e => p e.1) = putEntry k v (l.filter fun e => p e.1) := by
  induction l with
  | nil => simp [putEntry, hk]
  | cons e l ih =>
    by_cases h : e.1 = k
    · simp [putEntry, h, hk]
    · by_cases hp : p e.1 <;> simp [putEntry, h, hp, ih]

theorem filter_putEntry_of_not {κ β : Type} [BEq κ] [LawfulBEq κ] {p : κ → Bool} {k : κ} (v : β)
    (hk : p k = false) (l : List (κ × β)) :
    (putEntry k v l).filter (fun e => p e.1) = l.filter fun e => p e.1 := by
  induction l with
  | nil => simp [putEntry, hk]
  | cons e l ih =>
    by_cases h : e.1 = k
    · simp [putEntry, h, hk]
    · by_cases hp : p e.1 <;> simp [putEntry, h, hp, ih]

structure OrderedMap (κ β : Type) where
  entries : List (κ × β)
  distinct : (entries.map Prod.fst).Nodup

namespace OrderedMap
variable {κ β : Type}

@[ext] theorem ext {m n : OrderedMap κ β} (h : m.entries = n.entries) : m = n := by
  cases m; cases n; cases h; rfl

instance [DecidableEq κ] [DecidableEq β] : DecidableEq (OrderedMap κ β) := fun m n =>
  decidable_of_iff (m.entries = n.entries) ⟨ext, congrArg entries⟩

def empty : OrderedMap κ β := ⟨[], List.nodup_nil⟩

instance : Inhabited (OrderedMap κ β) := ⟨empty⟩

def keys (m : OrderedMap κ β) : List κ := m.entries.map Prod.fst

def values (m : OrderedMap κ β) : List β := m.entries.map Prod.snd

def size (m : OrderedMap κ β) : Nat := m.entries.length

def isEmpty (m : OrderedMap κ β) : Bool := m.entries.isEmpty

@[simp] theorem keys_empty : (empty : OrderedMap κ β).keys = [] := rfl

@[simp] theorem values_empty : (empty : OrderedMap κ β).values = [] := rfl

theorem nodup_keys (m : OrderedMap κ β) : m.keys.Nodup := m.distinct

def filterKeys (m : OrderedMap κ β) (p : κ → Bool) : OrderedMap κ β :=
  ⟨m.entries.filter fun e => p e.1, m.distinct.sublist (List.filter_sublist.map _)⟩

@[simp] theorem entries_filterKeys (m : OrderedMap κ β) (p : κ → Bool) :
    (m.filterKeys p).entries = m.entries.filter fun e => p e.1 := rfl

theorem filterKeys_filterKeys (m : OrderedMap κ β) {p q : κ → Bool}
    (h : ∀ k, q k = true → p k = true) : (m.filterKeys p).filterKeys q = m.filterKeys q := by
  apply ext
  simp only [entries_filterKeys, List.filter_filter]
  refine List.filter_congr fun e _ => ?_
  cases hq : q e.1 with
  | false => rfl
  | true => simp [h e.1 hq]

def mapValues {γ : Type} (m : OrderedMap κ β) (f : κ → β → γ) : OrderedMap κ γ :=
  ⟨m.entries.map fun e => (e.1, f e.1 e.2), by
    simpa [List.map_map, Function.comp_def] using m.distinct⟩

@[simp] theorem keys_mapValues {γ : Type} (m : OrderedMap κ β) (f : κ → β → γ) :
    (m.mapValues f).keys = m.keys := by
  simp [keys, mapValues, List.map_map, Function.comp_def]

variable [DecidableEq κ]

def get? (m : OrderedMap κ β) (k : κ) : Option β := m.entries.lookup k

theorem get?_eq_none {m : OrderedMap κ β} {k : κ} : m.get? k = none ↔ k ∉ m.keys := by
  simp only [get?, List.lookup_eq_none_iff, keys, List.mem_map, not_exists, not_and, bne_iff_ne]
  exact ⟨fun h e he hk => h e he hk.symm, fun h e he hk => h e he hk.symm⟩

theorem get?_eq_some {m : OrderedMap κ β} {k : κ} {v : β} :
    m.get? k = some v ↔ (k, v) ∈ m.entries := by
  simp only [get?, List.lookup_eq_some_iff]
  constructor
  · rintro ⟨l₁, l₂, h, -⟩
    simp [h]
  · intro h
    obtain ⟨l₁, l₂, h⟩ := List.append_of_mem h
    refine ⟨l₁, l₂, h, fun e he => ?_⟩
    have hd := m.distinct
    simp only [h, List.map_append, List.map_cons, List.nodup_append] at hd
    have := hd.2.2 e.1 (List.mem_map_of_mem he) k (by simp)
    simpa using Ne.symm this

theorem ext_get? {m n : OrderedMap κ β} (keys : m.keys = n.keys)
    (same : ∀ k, m.get? k = n.get? k) : m = n := by
  have entries (m : OrderedMap κ β) :
      m.entries.map some = m.keys.map fun k => (m.get? k).map (k, ·) := by
    rw [OrderedMap.keys, List.map_map]
    exact List.map_congr_left fun e he => by simp [get?_eq_some.2 he]
  apply ext
  refine (List.map_inj_right fun _ _ => Option.some.inj).1 ?_
  simp only [entries, keys, same]

theorem get?_filterKeys (m : OrderedMap κ β) (p : κ → Bool) (k : κ) :
    (m.filterKeys p).get? k = if p k then m.get? k else none := by
  have mem (v : β) : (m.filterKeys p).get? k = some v ↔ p k = true ∧ m.get? k = some v := by
    simp [get?_eq_some, and_comm]
  apply Option.ext
  intro v
  rw [mem]
  split <;> simp_all

theorem mem_keys {m : OrderedMap κ β} {k : κ} : k ∈ m.keys ↔ ∃ v, m.get? k = some v := by
  rw [← Option.isSome_iff_exists, ← Option.ne_none_iff_isSome, ne_eq, get?_eq_none,
    Decidable.not_not]

theorem get?_mapValues {γ : Type} (m : OrderedMap κ β) (f : κ → β → γ) (k : κ) :
    (m.mapValues f).get? k = (m.get? k).map (f k) := by
  obtain ⟨l, _⟩ := m
  simp only [get?, mapValues]
  induction l with
  | nil => rfl
  | cons e l ih =>
    obtain ⟨i, b⟩ := e
    by_cases h : k = i
    · simp [h]
    · have : (k == i) = false := by simpa using h
      simpa [List.lookup_cons, this] using ih (List.nodup_cons.1 ‹_›).2

def contains (m : OrderedMap κ β) (k : κ) : Bool := k ∈ m.keys

def insert (m : OrderedMap κ β) (k : κ) (v : β) : OrderedMap κ β :=
  ⟨putEntry k v m.entries, nodup_putEntry k v m.distinct⟩

theorem keys_insert (m : OrderedMap κ β) (k : κ) (v : β) :
    (m.insert k v).keys = if k ∈ m.keys then m.keys else m.keys ++ [k] :=
  map_fst_putEntry k v m.entries

@[simp] theorem mem_keys_insert {m : OrderedMap κ β} {k j : κ} {v : β} :
    j ∈ (m.insert k v).keys ↔ j ∈ m.keys ∨ j = k := by
  rw [keys_insert]
  split
  · rename_i h
    exact ⟨Or.inl, fun hj => hj.elim id fun e => e ▸ h⟩
  · simp

theorem get?_insert (m : OrderedMap κ β) (k j : κ) (v : β) :
    (m.insert k v).get? j = if j = k then some v else m.get? j := by
  simp [get?, insert, lookup_putEntry]

theorem mem_values_insert {m : OrderedMap κ β} {k : κ} {v w : β} (h : w ∈ (m.insert k v).values) :
    w = v ∨ w ∈ m.values := by
  obtain ⟨e, he, rfl⟩ := List.mem_map.1 h
  have hk := get?_eq_some.2 he
  rw [get?_insert] at hk
  split at hk
  · exact .inl (Option.some.inj hk).symm
  · exact .inr (List.mem_map_of_mem (get?_eq_some.1 hk))

theorem insert_insert (m : OrderedMap κ β) (k : κ) (v w : β) :
    (m.insert k v).insert k w = m.insert k w := ext (putEntry_putEntry k v w m.entries)

theorem insert_of_get? {m : OrderedMap κ β} {k : κ} {v : β} (h : m.get? k = some v) :
    m.insert k v = m := ext (putEntry_of_mem m.distinct (get?_eq_some.1 h))

theorem filterKeys_insert (m : OrderedMap κ β) {p : κ → Bool} {k : κ} (v : β) (hk : p k = true) :
    (m.insert k v).filterKeys p = (m.filterKeys p).insert k v :=
  ext (filter_putEntry v hk m.entries)

theorem filterKeys_insert_of_not (m : OrderedMap κ β) {p : κ → Bool} {k : κ} (v : β)
    (hk : p k = false) : (m.insert k v).filterKeys p = m.filterKeys p :=
  ext (filter_putEntry_of_not v hk m.entries)

/-- Entries written one after another: the last value for a key wins, in the key's first place. -/
def insertAll (m : OrderedMap κ β) (l : List (κ × β)) : OrderedMap κ β :=
  l.foldl (fun m e => m.insert e.1 e.2) m

@[simp] theorem insertAll_nil (m : OrderedMap κ β) : m.insertAll [] = m := rfl

@[simp] theorem insertAll_cons (m : OrderedMap κ β) (e : κ × β) (l : List (κ × β)) :
    m.insertAll (e :: l) = (m.insert e.1 e.2).insertAll l := rfl

def ofList (l : List (κ × β)) : OrderedMap κ β := empty.insertAll l

def overlay (m n : OrderedMap κ β) : OrderedMap κ β := m.insertAll n.entries

theorem insertAll_insert {m : OrderedMap κ β} {k : κ} (v : β) {l : List (κ × β)} (hk : k ∈ m.keys)
    (hl : k ∉ l.map Prod.fst) : (m.insert k v).insertAll l = (m.insertAll l).insert k v := by
  induction l generalizing m with
  | nil => rfl
  | cons e l ih =>
    obtain ⟨he, hl⟩ := not_or.1 (mt List.mem_cons.2 hl)
    have swap : (m.insert k v).insert e.1 e.2 = (m.insert e.1 e.2).insert k v :=
      ext (putEntry_comm v e.2 hk (Ne.symm he))
    rw [insertAll_cons, insertAll_cons, swap, ih (mem_keys_insert.2 (.inl hk)) hl]

theorem insertAll_putEntry (m : OrderedMap κ β) (k : κ) (v : β) {l : List (κ × β)}
    (hl : (l.map Prod.fst).Nodup) :
    m.insertAll (putEntry k v l) = (m.insertAll l).insert k v := by
  induction l generalizing m with
  | nil => rfl
  | cons e l ih =>
    obtain ⟨he, hl⟩ := List.nodup_cons.1 hl
    by_cases h : e.1 = k
    · subst h
      rw [insertAll_cons, ← insertAll_insert v (mem_keys_insert.2 (.inr rfl)) he, insert_insert]
      simp [putEntry]
    · simp [putEntry, h, ih _ hl]

theorem overlay_insert (m n : OrderedMap κ β) (k : κ) (v : β) :
    m.overlay (n.insert k v) = (m.overlay n).insert k v := m.insertAll_putEntry k v n.distinct

theorem get?_insertAll (m : OrderedMap κ β) (k : κ) {l : List (κ × β)}
    (hl : (l.map Prod.fst).Nodup) : (m.insertAll l).get? k = (l.lookup k).or (m.get? k) := by
  induction l generalizing m with
  | nil => rfl
  | cons e l ih =>
    obtain ⟨he, hl⟩ := List.nodup_cons.1 hl
    rw [insertAll_cons, ih _ hl, get?_insert, List.lookup_cons]
    by_cases h : k = e.1
    · subst h
      have none : l.lookup e.1 = none := List.lookup_eq_none_iff.2 fun f hf => by
        have : e.1 ≠ f.1 := fun h => he (h ▸ List.mem_map_of_mem hf)
        simpa using this
      simp [none]
    · have : (k == e.1) = false := by simpa using h
      simp [h, this]

theorem get?_overlay (m n : OrderedMap κ β) (k : κ) :
    (m.overlay n).get? k = (n.get? k).or (m.get? k) := m.get?_insertAll k n.distinct

def erase (m : OrderedMap κ β) (k : κ) : OrderedMap κ β := m.filterKeys (· != k)

theorem erase_insert {m : OrderedMap κ β} {k : κ} (v : β) (h : k ∉ m.keys) :
    (m.insert k v).erase k = m := by
  apply ext
  have hk : ∀ e ∈ m.entries, e.1 ≠ k := fun e he hk => h (hk ▸ List.mem_map_of_mem he)
  simpa [erase, insert, putEntry_of_notMem v h, List.filter_append] using hk

end OrderedMap
end Playbook
