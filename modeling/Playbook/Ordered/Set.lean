/-! Distinct elements in the order of their first insertion. -/

namespace Playbook

structure OrderedSet (α : Type) where
  toList : List α
  nodup : toList.Nodup

namespace OrderedSet
variable {α : Type}

@[ext] theorem ext {s t : OrderedSet α} (h : s.toList = t.toList) : s = t := by
  cases s; cases t; cases h; rfl

instance [DecidableEq α] : DecidableEq (OrderedSet α) := fun s t =>
  decidable_of_iff (s.toList = t.toList) ⟨ext, congrArg toList⟩

def empty : OrderedSet α := ⟨[], List.nodup_nil⟩

instance : Inhabited (OrderedSet α) := ⟨empty⟩

instance : Membership α (OrderedSet α) := ⟨fun s a => a ∈ s.toList⟩

theorem mem_def {s : OrderedSet α} {a : α} : a ∈ s ↔ a ∈ s.toList := Iff.rfl

instance [DecidableEq α] (s : OrderedSet α) (a : α) : Decidable (a ∈ s) :=
  inferInstanceAs (Decidable (a ∈ s.toList))

variable [DecidableEq α]

/-- An element that is present keeps its place; a new one comes last. -/
def insert (s : OrderedSet α) (a : α) : OrderedSet α :=
  if h : a ∈ s.toList then s
  else ⟨s.toList ++ [a], by
    simp only [List.nodup_append, s.nodup, List.nodup_cons, List.not_mem_nil, not_false_eq_true,
      List.nodup_nil, and_self, List.mem_singleton, forall_eq, true_and]
    exact fun b hb hab => h (hab ▸ hb)⟩

theorem toList_insert (s : OrderedSet α) (a : α) :
    (s.insert a).toList = if a ∈ s then s.toList else s.toList ++ [a] := by
  unfold insert
  by_cases h : a ∈ s.toList <;> simp [h, mem_def]

@[simp] theorem mem_insert {s : OrderedSet α} {a b : α} : b ∈ s.insert a ↔ b ∈ s ∨ b = a := by
  simp only [mem_def, toList_insert]
  split
  · rename_i h
    exact ⟨Or.inl, fun hb => hb.elim id fun e => e ▸ h⟩
  · simp

theorem insert_of_mem {s : OrderedSet α} {a : α} (h : a ∈ s) : s.insert a = s := by
  apply ext
  rw [toList_insert, if_pos h]

def insertAll (s : OrderedSet α) (l : List α) : OrderedSet α := l.foldl insert s

@[simp] theorem insertAll_nil (s : OrderedSet α) : s.insertAll [] = s := rfl

@[simp] theorem insertAll_cons (s : OrderedSet α) (a : α) (l : List α) :
    s.insertAll (a :: l) = (s.insert a).insertAll l := rfl

@[simp] theorem mem_insertAll {s : OrderedSet α} {l : List α} {b : α} :
    b ∈ s.insertAll l ↔ b ∈ s ∨ b ∈ l := by
  induction l generalizing s with
  | nil => simp
  | cons a l ih => simp [ih, or_assoc]

def ofList (l : List α) : OrderedSet α := empty.insertAll l

@[simp] theorem mem_ofList {l : List α} {b : α} : b ∈ ofList l ↔ b ∈ l := by
  simp only [ofList, mem_insertAll]
  simp [mem_def, empty]

def erase (s : OrderedSet α) (a : α) : OrderedSet α := ⟨s.toList.erase a, s.nodup.erase a⟩

@[simp] theorem toList_erase (s : OrderedSet α) (a : α) :
    (s.erase a).toList = s.toList.erase a := rfl

theorem erase_insert {s : OrderedSet α} {a : α} (h : a ∉ s) : (s.insert a).erase a = s := by
  apply ext
  rw [toList_erase, toList_insert, if_neg h, List.erase_append_right _ h]
  simp

def sameElements (s t : OrderedSet α) : Bool :=
  s.toList.all (· ∈ t.toList) && t.toList.all (· ∈ s.toList)

theorem sameElements_iff {s t : OrderedSet α} :
    s.sameElements t = true ↔ ∀ a, a ∈ s ↔ a ∈ t := by
  simp only [sameElements, Bool.and_eq_true, List.all_eq_true, decide_eq_true_eq]
  exact ⟨fun h a => ⟨h.1 a, h.2 a⟩, fun h => ⟨fun a => (h a).1, fun a => (h a).2⟩⟩

end OrderedSet
end Playbook
