import Playbook.Proofs.Session.Coherence
import Playbook.Proofs.Session.Dependencies
import Playbook.Proofs.Session.Registration
import Playbook.Proofs.Session.Tracing

/-! What can happen next in a run with notes. A stage is one change of the session together with the
entry that tells of it, if one does, so what the journal says and what the session holds agree after
each stage. A story is any number of stages, and it stands at a stage wherever an entry was made. -/

namespace Playbook
open Session

/-- Nothing that other stages tell: no declaration, no merging, no plan and no note. -/
def Entry.isPlain (e : Entry) : Bool :=
  match e.statement, e.outcome with
  | .declare _, _ | .runbook .., .ok _ | .merge, _ | .plan _, .ok _ => false
  | _, _ => !e.isNote

theorem Entry.not_isNote {e : Entry} (h : e.isPlain) : e.isNote = false := by
  unfold isPlain at h
  split at h
  · cases h
  · cases h
  · cases h
  · cases h
  · simpa using h

def Stmt.constrains : Stmt → Bool
  | .addBefore .. | .addAfter .. => true
  | _ => false

namespace Session

structure Quiet (s t : Session) : Prop where
  units : t.units = s.units
  runbooks : t.runbooks = s.runbooks
  instances : t.instances = s.instances
  members : ∃ n, t.groups.map HostGroup.members =
    s.groups.map HostGroup.members ++ List.replicate n .empty

theorem Quiet.of_eq {s t : Session} (units : t.units = s.units) (runbooks : t.runbooks = s.runbooks)
    (instances : t.instances = s.instances)
    (members : t.groups.map HostGroup.members = s.groups.map HostGroup.members) : s.Quiet t :=
  ⟨units, runbooks, instances, 0, by rw [members, List.replicate_zero, List.append_nil]⟩

structure Made (s : Session) (inst : Instance) : Prop where
  id_eq : inst.id = ⟨s.instances.length⟩
  runbook : ∃ r, s.runbook? inst.runbook = some r
  group : ∃ g, s.group? inst.group = some g
  before : inst.before = ((s.currentInstance?.bind s.instance?).map Instance.before).getD .empty
  after : inst.after = (((s.currentInstance?.bind s.instance?).map Instance.after).getD
    .empty).insertAll s.currentUnit?.toList

def addInstance (s : Session) (inst : Instance) : Session :=
  { s with instances := s.instances ++ [inst] }

/-- An instance reaches a member whose names all resolve. -/
structure Reaches (s : Session) (inst : Instance) (id : UnitId)
    (before after : OrderedSet UnitRef) : Prop where
  made : s.instance? inst.id = some inst
  member : ∃ runbook, s.runbook? inst.runbook = some runbook ∧ id ∈ runbook.members.values ∧
    ∃ u, s.unit? id = some u ∧ runbook.resolve u.name u.before = .ok before ∧
      runbook.resolve u.name u.after = .ok after

/-- The plan is one of the session: it follows the dependency graph with edges that passes have
added. -/
def Plans (s : Session) (p : Plan) : Prop :=
  ∃ g edges, s.dependencyGraph = .ok g ∧ s.planOf (g.linkAll edges) = .ok p

def constrainMember (s : Session) (inst : Instance) (id : UnitId)
    (before after : OrderedSet UnitRef) : Session :=
  s.modifyUnit id ({ · with
    before := before.insertAll (inst.before.toList.map .unit)
    after := after.insertAll (inst.after.toList.map .unit) })

end Session

def FactGathering.declaration : Declaration Body :=
  .new FactGathering.unitName (.step "setup" (.text ""))

namespace Run

/-- One stage of a run with notes. -/
inductive Stage (r : Run) : Run → Prop where
  | quiet {t : Session} (move : r.session.Move t) (quiet : r.session.Quiet t) : Stage r (r.on t)
  | log {statement : Stmt} {outcome : Except Error Answer}
      (plain : Entry.isPlain ⟨statement, r.session, outcome⟩) : Stage r (r.log statement outcome)
  | record {action : String} {args : Value} {edits : List StepEdit} {step : Step} {t : Session}
      (grouped : r.session.currentGroup? ≠ none)
      (recorded : r.session.recordStep action args edits = .ok (step, t)) : Stage r (r.on t)
  | bind {id : UnitId} {u : WorkUnit} {group : GroupId} (declared : r.session.unit? id = some u)
      (active : r.session.currentGroup? = some group) :
      Stage r (r.on ((r.session.modifyUnit id (·.bind group)).modifyGroup group (·.addMember id)))
  | declare (d : Declaration Block) :
      Stage r ((r.on (r.session.declare (Exec.script d)).2).log (.declare d)
        (.ok (.declaredUnit (r.session.declare (Exec.script d)).1)))
  | gather : Stage r (r.on (r.session.declare FactGathering.declaration).2)
  | runbook {name : String} {members : List (Declaration Block)} {setup : Option Block}
      {id : RunbookId} {t : Session}
      (declared : r.session.declareRunbook name setup (members.map Exec.script) = .ok (id, t)) :
      Stage r ((r.on t).log (.runbook name members setup) (.ok (.declaredRunbook id)))
  | constrain {statement : Stmt} (constrains : statement.constrains) (id : UnitId)
      {before after : WorkUnit → OrderedSet UnitRef}
      (keepsBefore : ∀ u, ∀ ref ∈ u.before, ref ∈ before u)
      (keepsAfter : ∀ u, ∀ ref ∈ u.after, ref ∈ after u) :
      Stage r ((r.on (r.session.modifyUnit id fun u =>
        { u with before := before u, after := after u })).log statement (.ok .done))
  | merge (answer : Answer) :
      Stage r ((r.on r.session.mergeBindings.2).log .merge (.ok answer))
  | create {inst : Instance} (made : r.session.Made inst) :
      Stage r ((r.on (r.session.addInstance inst)).log (.instantiate inst.runbook inst.vars)
        (.ok .done))
  | reach {inst : Instance} {id : UnitId} {before after : OrderedSet UnitRef}
      (reaches : r.session.Reaches inst id before after) :
      Stage r ((r.on (r.session.constrainMember inst id before after)).log (.invoke id)
        (.ok (.instantiated inst.id)))
  | plan {p : Plan} {form : PlanForm} {answer : Answer} (plans : r.session.Plans p)
      (answered : Exec.planAnswer form p = .ok answer) :
      Stage r (r.log (.plan form) (.ok answer))

abbrev Story : Run → Run → Prop := Relation.ReflTransGen Stage

variable {r a b : Run}

theorem Stage.moves (h : Stage r b) : r.session.Moves b.session := by
  cases h with
  | quiet move => exact .single move
  | log | plan => exact .refl
  | record _ recorded => exact .single (.update (.record recorded))
  | bind declared active => exact .single (.bind declared active)
  | declare d => exact .single (.update (.declare _ _))
  | gather => exact .single (.update (.declare _ _))
  | runbook declared => exact (Exec.declareRunbook_updates declared).moves
  | constrain _ id => exact .single (.update (.constrain id _ _))
  | merge => exact .single (.update .merge)
  | create made => exact .single (.update (.inst _ made.id_eq made.runbook made.group))
  | reach => exact .single (.update (.constrain _ _ _))

theorem Story.moves (h : Story r b) : r.session.Moves b.session := by
  induction h with
  | refl => exact .refl
  | tail _ h ih => exact ih.trans h.moves

theorem Story.coherent (h : Story r b) (hr : r.session.Coherent) : b.session.Coherent :=
  hr.moves h.moves

theorem Stage.told (h : Stage r b) :
    b.journal = r.journal ∨ ∃ e : Entry, b = ⟨e.session, e :: r.journal⟩ := by
  cases h with
  | quiet | record | bind | gather => exact .inl rfl
  | log | declare | runbook | constrain | merge | create | reach | plan =>
    exact .inr ⟨⟨_, _, _⟩, rfl⟩

theorem Story.at_entry (h : Story r b) {e : Entry} {earlier : List Entry}
    (he : e :: earlier <:+ b.journal) :
    e :: earlier <:+ r.journal ∨ Story r ⟨e.session, e :: earlier⟩ := by
  induction h with
  | refl => exact .inl he
  | tail before last ih =>
    rcases last.told with same | ⟨x, rfl⟩
    · exact ih (same ▸ he)
    · rcases List.suffix_cons_iff.1 he with same | he
      · obtain ⟨rfl, rfl⟩ := List.cons.inj same
        exact .inr (before.tail last)
      · exact ih he

theorem getElem?_append_of_some {α : Type} {l m : List α} {i : Nat} {x : α} (h : l[i]? = some x) :
    (l ++ m)[i]? = some x := by
  obtain ⟨bound, -⟩ := List.getElem?_eq_some_iff.1 h
  rw [List.getElem?_append_left bound, h]

theorem getElem?_singleton_eq_some {α : Type} {a x : α} {k : Nat} (h : [a][k]? = some x) :
    k = 0 ∧ x = a := by
  rw [List.getElem?_singleton] at h
  split at h
  · exact ⟨‹_›, (Option.some.inj h).symm⟩
  · cases h

theorem getElem?_concat_eq_some {α : Type} {l : List α} {a x : α} {k : Nat}
    (h : (l ++ [a])[k]? = some x) : l[k]? = some x ∨ k = l.length ∧ x = a := by
  rw [List.getElem?_append] at h
  split at h
  · exact .inl h
  · obtain ⟨place, same⟩ := getElem?_singleton_eq_some h
    exact .inr ⟨by omega, same⟩

theorem Stage.runbook? (h : Stage r b) {id : RunbookId} {x : Runbook}
    (hx : r.session.runbook? id = some x) : b.session.runbook? id = some x := by
  cases h with
  | quiet _ quiet => rwa [Session.runbook?, on_session, quiet.runbooks]
  | record _ recorded =>
    obtain ⟨_, _, -, -, rfl⟩ := recordStep_eq_ok recorded
    exact hx
  | runbook declared =>
    obtain ⟨_, -, rfl, -⟩ := declareRunbook_eq_ok declared
    exact getElem?_append_of_some hx
  | _ => exact hx

theorem Stage.instance? (h : Stage r b) {id : InstanceId} {x : Instance}
    (hx : r.session.instance? id = some x) : b.session.instance? id = some x := by
  cases h with
  | quiet _ quiet => rwa [Session.instance?, on_session, quiet.instances]
  | record _ recorded =>
    obtain ⟨_, _, -, -, rfl⟩ := recordStep_eq_ok recorded
    exact hx
  | runbook declared =>
    obtain ⟨_, -, rfl, -⟩ := declareRunbook_eq_ok declared
    exact hx
  | create made => exact getElem?_append_of_some hx
  | _ => exact hx

theorem Story.runbook? (h : Story r b) {id : RunbookId} {x : Runbook}
    (hx : r.session.runbook? id = some x) : b.session.runbook? id = some x := by
  induction h with
  | refl => exact hx
  | tail _ h ih => exact h.runbook? ih

theorem Story.instance? (h : Story r b) {id : InstanceId} {x : Instance}
    (hx : r.session.instance? id = some x) : b.session.instance? id = some x := by
  induction h with
  | refl => exact hx
  | tail _ h ih => exact h.instance? ih

end Run
end Playbook
