import Mathlib.Logic.Relation
import Playbook.Proofs.Session.Outcome

/-! The single changes that a session goes through in any run, and the shape of a run as a whole.
A `Move` says everything that can happen at once, with the facts that hold when it does; whatever
every move keeps holds of every session that a run comes by. A `Course` is a run, or part of one,
in which each scope that was entered has been left again: it shows how the moves are nested. A
`Trail` may stop anywhere, also within scopes. -/

namespace Playbook

namespace Session

/-- A change of what is declared or recorded. The open scopes stay as they are. -/
inductive Update (s : Session) : Session → Prop where
  | declare (name : String) (d : Declaration Body) : Update s (s.declareAs name d).2
  | runbook (r : Runbook) (id_eq : r.id = ⟨s.runbooks.length⟩)
      (members : ∀ id ∈ r.members.values, ∃ u, s.unit? id = some u) :
      Update s { s with runbooks := s.runbooks ++ [r] }
  | hosts {pattern : Option String} {settings : Attributes} {id : GroupId} {t : Session}
      (declared : s.declareHosts pattern settings = .ok (id, t)) : Update s t
  | setSetting (id : GroupId) (key : String) (value : Value) :
      Update s (s.modifyGroup id (·.setSetting key value))
  | setVar (id : GroupId) (key : String) (value : Value) :
      Update s (s.modifyGroup id (·.setVar key value))
  | setVars (id : GroupId) (vars : Attributes) : Update s (s.modifyGroup id ({ · with vars }))
  | constrain (id : UnitId) (before after : WorkUnit → OrderedSet UnitRef) :
      Update s (s.modifyUnit id fun u => { u with before := before u, after := after u })
  | record {action : String} {args : Value} {edits : List StepEdit} {step : Step} {t : Session}
      (recorded : s.recordStep action args edits = .ok (step, t)) : Update s t
  | merge : Update s s.mergeBindings.2
  | skipFacts :
      Update s { s with groups := s.groups.map (·.setSetting "gather_facts" (.bool false)) }
  | inst (i : Instance) (id_eq : i.id = ⟨s.instances.length⟩)
      (runbook : ∃ r, s.runbook? i.runbook = some r) (group : ∃ g, s.group? i.group = some g) :
      Update s { s with instances := s.instances ++ [i] }
  | pipeline (passes : List Pass) : Update s { s with passes }

/-- The scopes with one more of them entered. A unit is entered only where it is bound to the
active host group. -/
inductive Entered (s : Session) : ScopeKind → Scopes → Prop where
  | session : Entered s .session { s.scopes with sessions := s.scopes.sessions.enter s.id }
  | hostGroup {id : GroupId} {g : HostGroup} (declared : s.group? id = some g) :
      Entered s .hostGroup { s.scopes with hostGroups := s.scopes.hostGroups.enter id }
  | runbook {id : InstanceId} {i : Instance} (made : s.instance? id = some i) :
      Entered s .runbook { s.scopes with runbooks := s.scopes.runbooks.enter id }
  | unit {id : UnitId} {u : WorkUnit} {group : GroupId} (declared : s.unit? id = some u)
      (active : s.currentGroup? = some group) (bound : group ∈ u.groups) :
      Entered s .unit { s.scopes with units := s.scopes.units.enter id }
  | guard (condition : String) :
      Entered s .guard { s.scopes with guards := s.scopes.guards.enter condition }

inductive Move (s : Session) : Session → Prop where
  | update {t : Session} (h : Update s t) : Move s t
  | bind {id : UnitId} {u : WorkUnit} {group : GroupId} (declared : s.unit? id = some u)
      (active : s.currentGroup? = some group) :
      Move s ((s.modifyUnit id (·.bind group)).modifyGroup group (·.addMember id))
  | enter {kind : ScopeKind} {scopes : Scopes} (h : Entered s kind scopes) :
      Move s { s with scopes }
  | leave {kind : ScopeKind} {scopes : Scopes} (h : s.scopes.exit kind = .ok scopes) :
      Move s { s with scopes }
  | unwind (depth : Nat) :
      Move s { s with scopes := { s.scopes with guards := s.scopes.guards.unwindTo depth } }
  | setFloor (guardFloor : Nat) : Move s { s with guardFloor }

abbrev Moves : Session → Session → Prop := Relation.ReflTransGen Move

abbrev Updates : Session → Session → Prop := Relation.ReflTransGen Update

theorem Updates.moves {s t : Session} (h : Updates s t) : Moves s t :=
  Relation.ReflTransGen.mono (fun _ _ => Move.update) s t h

/-- The session in which the body of a unit starts: the unit is bound and entered, and the
conditions that are open belong to its callers. -/
def begin (s : Session) (id : UnitId) (group : GroupId) : Session :=
  { (s.modifyUnit id (·.bind group)).modifyGroup group (·.addMember id) with
    guardFloor := s.scopes.guards.depth
    scopes := { s.scopes with units := s.scopes.units.enter id } }

def finish (s t : Session) : Session :=
  { t with
    guardFloor := s.guardFloor
    scopes := { t.scopes with guards := t.scopes.guards.unwindTo s.scopes.guards.depth } }

theorem unit?_modifyUnit_self {s : Session} {id : UnitId} {u : WorkUnit}
    (declared : s.unit? id = some u) (f : WorkUnit → WorkUnit) :
    (s.modifyUnit id f).unit? id = some (f u) := by
  rw [unit?_modifyUnit, declared, Option.map_some, if_pos rfl]

theorem unit?_begin {s : Session} {id : UnitId} {u : WorkUnit} (declared : s.unit? id = some u)
    (group : GroupId) : (s.begin id group).unit? id = some (u.bind group) :=
  unit?_modifyUnit_self declared _

theorem unit?_begin_of_ne {s : Session} {i id : UnitId} (other : i ≠ id) (group : GroupId) :
    (s.begin i group).unit? id = s.unit? id := by
  change (s.modifyUnit i (·.bind group)).unit? id = _
  simp only [unit?_modifyUnit, if_neg other, Option.map_id']

theorem group?_begin {s : Session} {group : GroupId} {g : HostGroup}
    (declared : s.group? group = some g) (id : UnitId) :
    (s.begin id group).group? group = some (g.addMember id) := by
  change (s.modifyGroup group (·.addMember id)).group? group = _
  rw [group?_modifyGroup, declared, Option.map_some, if_pos rfl]

end Session

namespace Run

inductive Advance (r : Run) : Run → Prop where
  | move {s : Session} (h : r.session.Move s) : Advance r (r.on s)
  | log (statement : Stmt) (outcome : Except Error Answer) : Advance r (r.log statement outcome)

abbrev Path : Run → Run → Prop := Relation.ReflTransGen Advance

theorem Path.moves {r a : Run} (h : Path r a) : r.session.Moves a.session := by
  induction h with
  | refl => exact .refl
  | tail _ h ih =>
    cases h with
    | move h => exact ih.tail h
    | log => exact ih

theorem Path.begin {r : Run} {id : UnitId} {u : WorkUnit} {group : GroupId}
    (declared : r.session.unit? id = some u) (active : r.session.currentGroup? = some group) :
    Path r (r.on (r.session.begin id group)) := by
  have bound : ((r.session.modifyUnit id (·.bind group)).modifyGroup group
      (·.addMember id)).unit? id = some (u.bind group) := Session.unit?_begin declared group
  have invoked : Path r (r.on ((r.session.modifyUnit id (·.bind group)).modifyGroup group
      (·.addMember id))) := .single (.move (.bind declared active))
  exact (invoked.tail (.move (.setFloor r.session.scopes.guards.depth))).tail
    (.move (.enter (.unit bound active (by simp [WorkUnit.bind]))))

/-- Part of a run in which every scope that was entered has been left. The blocks of statements
stand between the entering and the leaving of a scope; a condition on a block is noted at once when
the block has ended. -/
inductive Course : Run → Run → Prop where
  | refl (r : Run) : Course r r
  | update {r a : Run} {s : Session} (before : Course r a) (h : a.session.Update s) :
      Course r (a.on s)
  | log {r a : Run} (before : Course r a) (statement : Stmt) (outcome : Except Error Answer) :
      Course r (a.log statement outcome)
  | scope {r a b : Run} {kind : ScopeKind} {entered left : Scopes} (before : Course r a)
      (kind_mem : kind = .session ∨ kind = .hostGroup ∨ kind = .runbook)
      (enter : a.session.Entered kind entered)
      (block : Course (a.on { a.session with scopes := entered }) b)
      (leave : b.session.scopes.exit kind = .ok left) :
      Course r (b.on { b.session with scopes := left })
  | openGuard {r a : Run} (before : Course r a) (condition : String) :
      Course r (a.on (a.session.openGuard condition))
  | closeGuard {r a : Run} {left : Scopes} (before : Course r a)
      (own : a.session.ownGuard = .ok ()) (leave : a.session.scopes.exit .guard = .ok left) :
      Course r (a.on { a.session with scopes := left })
  | underGuard {r a b : Run} {left : Scopes} (before : Course r a) (condition : String)
      (statements : Block) (outcome : Except Error Answer)
      (block : Course (a.on (a.session.openGuard condition)) b)
      (leave : b.session.scopes.exit .guard = .ok left) :
      Course r ((b.on { b.session with scopes := left }).log (.when condition statements) outcome)
  | invoke {r a b : Run} {id : UnitId} {u : WorkUnit} {group : GroupId} {left : Scopes}
      (before : Course r a) (declared : a.session.unit? id = some u)
      (active : a.session.currentGroup? = some group) {bound : Nat}
      (ran : (Exec.runBody (runWithin bound) u.body).Concludes (a.on (a.session.begin id group)) b)
      (body : Course (a.on (a.session.begin id group)) b)
      (leave : b.session.scopes.exit .unit = .ok left) :
      Course r (b.on (a.session.finish { b.session with scopes := left }))

namespace Course
variable {r a b : Run}

theorem trans (hra : Course r a) (hab : Course a b) : Course r b := by
  induction hab with
  | refl => exact hra
  | update _ h ih => exact (ih hra).update h
  | log _ t o ih => exact (ih hra).log t o
  | scope _ hk he hb hl ih _ => exact (ih hra).scope hk he hb hl
  | openGuard _ c ih => exact (ih hra).openGuard c
  | closeGuard _ ho hl ih => exact (ih hra).closeGuard ho hl
  | underGuard _ c t o hb hl ih _ => exact (ih hra).underGuard c t o hb hl
  | invoke _ hu hg ran hb hl ih _ => exact (ih hra).invoke hu hg ran hb hl

theorem updates (hra : Course r a) {s : Session} (h : a.session.Updates s) :
    Course r (a.on s) := by
  induction h with
  | refl => exact hra
  | tail _ h ih => exact ih.update h

theorem path (h : Course r a) : Path r a := by
  induction h with
  | refl => exact .refl
  | update _ h ih => exact ih.tail (.move (.update h))
  | log _ t o ih => exact ih.tail (.log t o)
  | scope _ _ he _ hl ih ihb =>
    exact ((ih.tail (.move (.enter he))).trans ihb).tail (.move (.leave hl))
  | openGuard _ c ih => exact ih.tail (.move (.enter (.guard c)))
  | closeGuard _ _ hl ih => exact ih.tail (.move (.leave hl))
  | underGuard _ c t o _ hl ih ihb =>
    exact (((ih.tail (.move (.enter (.guard c)))).trans ihb).tail (.move (.leave hl))).tail
      (.log (.when c t) o)
  | @invoke r a b id u group _ _ hu hg _ _ _ hl ih ihb =>
    exact ((((ih.trans (Path.begin hu hg)).trans ihb).tail (.move (.leave hl))).tail
      (.move (.setFloor a.session.guardFloor))).tail
      (.move (.unwind a.session.scopes.guards.depth))

end Course

/-- A run as far as it has come: each scope that is still open was entered from a course. -/
inductive Trail : Run → Run → Prop where
  | course {r a : Run} (h : Course r a) : Trail r a
  | scope {r a b : Run} {kind : ScopeKind} {entered : Scopes} (before : Course r a)
      (kind_mem : kind = .session ∨ kind = .hostGroup ∨ kind = .runbook)
      (enter : a.session.Entered kind entered)
      (rest : Trail (a.on { a.session with scopes := entered }) b) : Trail r b
  | invoke {r a b : Run} {id : UnitId} {u : WorkUnit} {group : GroupId} (before : Course r a)
      (declared : a.session.unit? id = some u) (active : a.session.currentGroup? = some group)
      (rest : Trail (a.on (a.session.begin id group)) b) : Trail r b

theorem Course.trail {r a b : Run} (h : Course r a) : Trail a b → Trail r b
  | .course hab => .course (h.trans hab)
  | .scope before hk he rest => .scope (h.trans before) hk he rest
  | .invoke before hu hg rest => .invoke (h.trans before) hu hg rest

theorem Trail.path {r a : Run} (h : Trail r a) : Path r a := by
  induction h with
  | course h => exact h.path
  | scope before _ he _ ih => exact (before.path.tail (.move (.enter he))).trans ih
  | invoke before hu hg _ ih => exact (before.path.trans (Path.begin hu hg)).trans ih

theorem Course.noted {r a : Run} (h : Course r a) :
    ∀ e ∈ a.journal, e ∈ r.journal ∨ ∃ b, Trail r b ∧ b.session = e.session := by
  induction h with
  | refl => exact fun _ => .inl
  | update _ _ ih => exact ih
  | log before _ _ ih => exact List.forall_mem_cons.2 ⟨.inr ⟨_, .course before, rfl⟩, ih⟩
  | scope before hk he _ _ ih ihb =>
    intro e hm
    rcases ihb e hm with hm | ⟨b, rest, same⟩
    · exact ih e hm
    · exact .inr ⟨b, .scope before hk he rest, same⟩
  | openGuard _ _ ih => exact ih
  | closeGuard _ _ _ ih => exact ih
  | underGuard before c t o hb hl ih ihb =>
    have whole := Course.underGuard before c t o hb hl
    refine List.forall_mem_cons.2 ⟨.inr ⟨_, .course whole, rfl⟩, fun e hm => ?_⟩
    rcases ihb e hm with hm | ⟨b, rest, same⟩
    · exact ih e hm
    · exact .inr ⟨b, (before.openGuard c).trail rest, same⟩
  | invoke before hu hg _ _ _ ih ihb =>
    intro e hm
    rcases ihb e hm with hm | ⟨b, rest, same⟩
    · exact ih e hm
    · exact .inr ⟨b, .invoke before hu hg rest, same⟩

theorem Trail.noted {r a : Run} (h : Trail r a) :
    ∀ e ∈ a.journal, e ∈ r.journal ∨ ∃ b, Trail r b ∧ b.session = e.session := by
  induction h with
  | course h => exact h.noted
  | scope before hk he _ ih =>
    intro e hm
    rcases ih e hm with hm | ⟨b, rest, same⟩
    · exact before.noted e hm
    · exact .inr ⟨b, .scope before hk he rest, same⟩
  | invoke before hu hg _ ih =>
    intro e hm
    rcases ih e hm with hm | ⟨b, rest, same⟩
    · exact before.noted e hm
    · exact .inr ⟨b, .invoke before hu hg rest, same⟩

end Run
end Playbook
