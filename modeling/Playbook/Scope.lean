import Playbook.Id

/-! Nested scopes: for each kind a stack of what has been entered and not yet left. -/

namespace Playbook

inductive ScopeKind where
  | session
  | hostGroup
  | runbook
  | unit
  | guard
deriving DecidableEq

def ScopeKind.text : ScopeKind → String
  | .session => "session"
  | .hostGroup => "host group"
  | .runbook => "runbook"
  | .unit => "runnable"
  | .guard => "guard"

/-- The nesting is broken beyond repair: a scope was left that nobody had entered. -/
structure Fault where
  kind : ScopeKind
deriving DecidableEq

def Fault.message (f : Fault) : String :=
  "exited " ++ f.kind.text ++ " scope that was never entered"

structure ScopeStack (α : Type) where
  frames : List α
deriving DecidableEq

namespace ScopeStack
variable {α : Type}

def empty : ScopeStack α := ⟨[]⟩

instance : Inhabited (ScopeStack α) := ⟨empty⟩

def enter (s : ScopeStack α) (a : α) : ScopeStack α := ⟨a :: s.frames⟩

def exit? (s : ScopeStack α) : Option (α × ScopeStack α) :=
  match s.frames with
  | [] => none
  | a :: r => some (a, ⟨r⟩)

def current? (s : ScopeStack α) : Option α := s.frames.head?

def depth (s : ScopeStack α) : Nat := s.frames.length

def isEmpty (s : ScopeStack α) : Bool := s.frames.isEmpty

/-- The entered values, outermost first. -/
def toList (s : ScopeStack α) : List α := s.frames.reverse

/-- Drops what was entered above a depth. -/
def unwindTo (s : ScopeStack α) (depth : Nat) : ScopeStack α :=
  ⟨s.frames.drop (s.depth - depth)⟩

@[simp] theorem exit?_enter (s : ScopeStack α) (a : α) : (s.enter a).exit? = some (a, s) := rfl

theorem exit?_eq_some {s r : ScopeStack α} {a : α} :
    s.exit? = some (a, r) ↔ s.frames = a :: r.frames := by
  obtain ⟨frames⟩ := s
  obtain ⟨rest⟩ := r
  cases frames <;> simp [exit?]

@[simp] theorem current?_enter (s : ScopeStack α) (a : α) : (s.enter a).current? = some a := rfl

@[simp] theorem depth_enter (s : ScopeStack α) (a : α) : (s.enter a).depth = s.depth + 1 := rfl

@[simp] theorem toList_enter (s : ScopeStack α) (a : α) : (s.enter a).toList = s.toList ++ [a] := by
  simp [enter, toList]

theorem toList_unwindTo (s : ScopeStack α) (depth : Nat) :
    (s.unwindTo depth).toList = s.toList.take depth := by
  simp only [unwindTo, toList, ScopeStack.depth, List.take_reverse]

@[simp] theorem length_toList (s : ScopeStack α) : s.toList.length = s.depth := by
  simp [toList, depth]

theorem unwindTo_of_suffix {s t : ScopeStack α} (h : t.frames <:+ s.frames) :
    s.unwindTo t.depth = t := by
  obtain ⟨above, e⟩ := h
  have : s.depth - t.depth = above.length := by
    rw [depth, depth, ← e, List.length_append, Nat.add_sub_cancel]
  rw [unwindTo, this, ← e, List.drop_left]

@[simp] theorem unwindTo_depth (s : ScopeStack α) : s.unwindTo s.depth = s :=
  unwindTo_of_suffix List.suffix_rfl

end ScopeStack

structure Scopes where
  sessions : ScopeStack SessionId
  hostGroups : ScopeStack GroupId
  runbooks : ScopeStack InstanceId
  units : ScopeStack UnitId
  guards : ScopeStack String
deriving DecidableEq, Inhabited

namespace Scopes

def empty : Scopes := ⟨.empty, .empty, .empty, .empty, .empty⟩

def exit (s : Scopes) : ScopeKind → Except Fault Scopes
  | .session => match s.sessions.exit? with
    | some (_, r) => .ok { s with sessions := r }
    | none => .error ⟨.session⟩
  | .hostGroup => match s.hostGroups.exit? with
    | some (_, r) => .ok { s with hostGroups := r }
    | none => .error ⟨.hostGroup⟩
  | .runbook => match s.runbooks.exit? with
    | some (_, r) => .ok { s with runbooks := r }
    | none => .error ⟨.runbook⟩
  | .unit => match s.units.exit? with
    | some (_, r) => .ok { s with units := r }
    | none => .error ⟨.unit⟩
  | .guard => match s.guards.exit? with
    | some (_, r) => .ok { s with guards := r }
    | none => .error ⟨.guard⟩

theorem exit_eq_ok {s t : Scopes} {kind : ScopeKind} (h : s.exit kind = .ok t) :
    match kind with
    | .session => ∃ a r, s.sessions.frames = a :: r ∧ t = { s with sessions := ⟨r⟩ }
    | .hostGroup => ∃ a r, s.hostGroups.frames = a :: r ∧ t = { s with hostGroups := ⟨r⟩ }
    | .runbook => ∃ a r, s.runbooks.frames = a :: r ∧ t = { s with runbooks := ⟨r⟩ }
    | .unit => ∃ a r, s.units.frames = a :: r ∧ t = { s with units := ⟨r⟩ }
    | .guard => ∃ a r, s.guards.frames = a :: r ∧ t = { s with guards := ⟨r⟩ } := by
  cases kind <;>
  · simp only [exit] at h
    split at h
    · rename_i a r hx
      exact ⟨a, r.frames, ScopeStack.exit?_eq_some.1 hx, (Except.ok.inj h).symm⟩
    · cases h

def isUnwound (s : Scopes) : Bool :=
  s.sessions.isEmpty && s.hostGroups.isEmpty && s.runbooks.isEmpty && s.units.isEmpty &&
    s.guards.isEmpty

def depths (s : Scopes) : List Nat :=
  [s.sessions.depth, s.hostGroups.depth, s.runbooks.depth, s.units.depth, s.guards.depth]

end Scopes
end Playbook
