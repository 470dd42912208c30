import Playbook.Id
import Playbook.Ordered.Set
import Playbook.Value

/-! Host groups: a target pattern with settings, variables and the units bound to it. -/

namespace Playbook

structure HostGroup where
  id : GroupId
  pattern : String
  settings : Attributes
  vars : Attributes
  members : OrderedSet UnitId
deriving Inhabited

/-- What two host groups must share to mean the same targets. -/
structure GroupKey where
  pattern : String
  settings : List (String × Value)
  vars : List (String × Value)
  members : List Nat

namespace GroupKey

def sameFields (a b : List (String × Value)) : Bool :=
  a.length == b.length && (a.zip b).all fun p => p.1.1 == p.2.1 && p.1.2.same p.2.2

def same (a b : GroupKey) : Bool :=
  a.pattern == b.pattern && sameFields a.settings b.settings && sameFields a.vars b.vars &&
    a.members == b.members

end GroupKey

namespace HostGroup

def sortedEntries (a : Attributes) : List (String × Value) :=
  a.entries.mergeSort fun x y => !decide (y.1 < x.1)

def structuralKey (g : HostGroup) : GroupKey where
  pattern := g.pattern
  settings := sortedEntries g.settings
  vars := sortedEntries g.vars
  members := (g.members.toList.map UnitId.index).mergeSort

def setSetting (g : HostGroup) (key : String) (value : Value) : HostGroup :=
  { g with settings := g.settings.insert key value }

def setVar (g : HostGroup) (key : String) (value : Value) : HostGroup :=
  { g with vars := g.vars.insert key value }

def addMember (g : HostGroup) (unit : UnitId) : HostGroup :=
  { g with members := g.members.insert unit }

end HostGroup

/-- The items whose key differs from the keys seen and from those of all items before them. -/
def firstOfEachFrom {α κ : Type} (same : κ → κ → Bool) (key : α → κ) (seen : List κ) :
    List α → List α
  | [] => []
  | a :: l =>
    let k := key a
    if seen.any (same · k) then firstOfEachFrom same key seen l
    else a :: firstOfEachFrom same key (k :: seen) l

def firstOfEach {α κ : Type} (same : κ → κ → Bool) (key : α → κ) (l : List α) : List α :=
  firstOfEachFrom same key [] l

theorem firstOfEachFrom_sublist {α κ : Type} (same : κ → κ → Bool) (key : α → κ) (seen : List κ)
    (l : List α) : (firstOfEachFrom same key seen l).Sublist l := by
  induction l generalizing seen with
  | nil => exact .slnil
  | cons a l ih =>
    simp only [firstOfEachFrom]
    split
    · exact (ih seen).cons a
    · exact (ih _).cons_cons a

theorem firstOfEach_sublist {α κ : Type} (same : κ → κ → Bool) (key : α → κ) (l : List α) :
    (firstOfEach same key l).Sublist l := firstOfEachFrom_sublist same key [] l

@[simp] theorem firstOfEach_eq_nil {α κ : Type} {same : κ → κ → Bool} {key : α → κ} {l : List α} :
    firstOfEach same key l = [] ↔ l = [] := by
  cases l <;> simp [firstOfEach, firstOfEachFrom]

end Playbook
