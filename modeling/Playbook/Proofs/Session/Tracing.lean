import Playbook.Proofs.Session.Outcome

/-! Runs with notes of what happens in the middle of a statement: an instance is made, a member is
reached with all its names resolved, a pass merges bindings. A note stands in the journal like an
entry, and an entry of the script never looks like one. Otherwise such a run is a run like any
other. -/

namespace Playbook

/-- A note bears the statement that would do what is noted, with an answer that this statement
never gives. -/
def Entry.isNote (e : Entry) : Bool :=
  match e.statement, e.outcome with
  | .instantiate .., .ok .done => true
  | .invoke _, .ok (.instantiated _) => true
  | .merge, .ok .done => true
  | _, _ => false

namespace Run

def erase (r : Run) : Run := ⟨r.session, r.journal.filter (!·.isNote)⟩

@[simp] theorem erase_session (r : Run) : r.erase.session = r.session := rfl

theorem log_erase {r : Run} {statement : Stmt} {outcome : Except Error Answer}
    (h : Entry.isNote ⟨statement, r.session, outcome⟩ = false) :
    r.erase.log statement outcome = (r.log statement outcome).erase := by
  simp [erase, log, h]

theorem erase_log {r : Run} {statement : Stmt} {outcome : Except Error Answer}
    (h : Entry.isNote ⟨statement, r.session, outcome⟩ = true) :
    (r.log statement outcome).erase = r.erase := by
  simp [erase, log, h]

end Run

def Transcript.erase (t : Transcript) : Transcript :=
  { t with entries := t.entries.filter (!·.isNote) }

namespace Traced
open Exec

def mark (statement : Stmt) (answer : Answer) : Exec Unit :=
  modify fun r => r.log statement (.ok answer)

variable (call : Block → Exec Unit)

/-- A member counts as reached once its names are resolved and its constraints are in place. -/
def invokeMember (runbook : Runbook) (inst : Instance) (id : UnitId) : Exec Unit := do
  let u ← query (·.getUnit id)
  let before ← ofExcept (runbook.resolve u.name u.before)
  let after ← ofExcept (runbook.resolve u.name u.after)
  let before := before.insertAll (inst.before.toList.map .unit)
  let after := after.insertAll (inst.after.toList.map .unit)
  update (·.modifyUnit id ({ · with before, after }))
  mark (.invoke id) (.instantiated inst.id)
  invoke call id

def populate (runbook : Runbook) (inst : Instance) : Exec Unit := do
  if let some setup := runbook.setup then call setup
  runbook.members.values.forM (invokeMember call runbook inst)

/-- An instance is noted as soon as it is made, before its scope is entered. -/
def instantiate (id : RunbookId) (vars : Attributes) : Exec InstanceId := do
  let s ← session
  let runbook ← ofExcept (s.getRunbook id)
  match s.currentGroup? with
  | none => fail (.refused (.instantiatedOutsideGroup runbook.name))
  | some parent =>
    let group ← perform (·.copyGroup parent)
    update (·.modifyGroup group ({ · with vars }))
    let outer := s.currentInstance?.bind s.instance?
    let before := (outer.map Instance.before).getD .empty
    let after := (outer.map Instance.after).getD .empty
    let after := after.insertAll s.currentUnit?.toList
    let inst : Instance := { id := ⟨s.instances.length⟩, runbook := id, group, vars, before, after }
    update fun s => { s with instances := s.instances ++ [inst] }
    mark (.instantiate id vars) .done
    within .runbook (fun c => { c with runbooks := c.runbooks.enter inst.id }) <|
      inGroup group (populate call runbook inst)
    return inst.id

def runPass : Pass → Exec (Pass × Except Error Unit)
  | .merging _ => do
    let removed ← apply Session.mergeBindings
    mark .merge .done
    return (.merging ⟨removed⟩, .ok ())
  | p => Exec.runPass call p

def runPasses : List Pass → Exec (List Pass × Except Error Unit)
  | [] => return ([], .ok ())
  | p :: ps => do
    let (p, result) ← runPass call p
    match result with
    | .error e => return (p :: ps, .error e)
    | .ok () =>
      let (ps, result) ← runPasses ps
      return (p :: ps, result)

def buildGraph : Exec (Graph UnitId) := do
  let s ← session
  if !s.scopes.guards.isEmpty then fail (.refused (.openGuards s.scopes.guards.depth))
  update ({ · with passes := [] })
  let (passes, result) ← inSession (runPasses call s.passes)
  let graph ← settle do
    ofExcept result
    let s ← session
    let g ← ofExcept s.dependencyGraph
    ofExcept (passes.foldlM (Pass.refine s) g)
  update ({ · with passes })
  ofExcept graph

def plan : Exec Plan := do
  let g ← buildGraph call
  query (·.planOf g)

def step : Stmt → Exec Answer
  | .instantiate runbook vars => .instantiated <$> instantiate call runbook vars
  | .buildGraph => do
    let g ← buildGraph call
    return .graph (.of (← session) g)
  | .plan form => do
    let p ← plan call
    ofExcept (planAnswer form p)
  | t => Exec.step call t

def runBlock : Block → Exec Unit
  | [] => pure ()
  | t :: ts => do
    note t (step call t)
    runBlock ts

def runAll : Block → Exec Unit
  | [] => pure ()
  | t :: ts => do
    discard (settle (note t (step call t)))
    runAll ts

def runWithin : Nat → Block → Exec Unit
  | 0, _ => throw .exhausted
  | bound + 1, block => runBlock (runWithin bound) block

def run (s : Session) (bound : Nat) (script : Block) : Transcript :=
  match (runAll (runWithin bound) script).run ⟨s, []⟩ with
  | .ok _ r => ⟨r.journal.reverse, none⟩
  | .error h r => ⟨r.journal.reverse, some h⟩

theorem ends_mark {r : Run} (statement : Stmt) (answer : Answer) {done : Unit → Run → Prop}
    {failed : Error → Run → Prop} {stopped : Run → Prop} :
    (mark statement answer).Ends r done failed stopped ↔
      done () (r.log statement (.ok answer)) := Iff.rfl

theorem runAll_append (ts us : Block) :
    runAll call (ts ++ us) = (do runAll call ts; runAll call us) := by
  induction ts with
  | nil => rfl
  | cons t ts ih => simp only [List.cons_append, runAll, ih, bind_assoc]

theorem entries_run_of_merging {s : Session} {bound : Nat} {front : Block} {r : Run} {m : Merging}
    (ran : (runAll (runWithin bound) front).run ⟨s, []⟩ = .ok () r)
    (passes : r.session.passes = [.merging m]) (closed : r.session.scopes.guards.isEmpty = true)
    (form : PlanForm) :
    ∃ t e, (run s bound (front ++ [.plan form])).entries =
        r.journal.reverse ++ [⟨.merge, t, .ok .done⟩, e] ∧
      t.units = r.session.units.map r.session.mergeUnit := by
  let entered : Scopes :=
    { r.session.scopes with sessions := r.session.scopes.sessions.enter r.session.id }
  let merged : Session :=
    (Session.mergeBindings { r.session with passes := [], scopes := entered }).2
  have ends : (runAll (runWithin bound) (front ++ [.plan form])).Ends ⟨s, []⟩
      (fun _ b => ∃ e, b.journal = e :: ⟨.merge, merged, .ok .done⟩ :: r.journal)
      (fun _ _ => False) fun _ => False := by
    rw [runAll_append, ends_bind, ends_of_run ran]
    simp only [runAll, step, plan, buildGraph, inSession, within, runPasses, runPass, passes,
      closed, ends_mark, ends_bind, ends_session, ends_discard, ends_note, ends_update, ends_apply,
      ends_settle, ends_leave, ends_pure, ends_ofExcept, ends_query, Bool.not_true,
      Bool.false_eq_true, if_false, Run.on_session, Run.on_journal, Run.log_session,
      Run.log_journal]
    split
    · simp [merged, entered]
    · rename_i stuck
      cases stuck
  refine ⟨merged, ?_⟩
  unfold Ends at ends
  unfold run
  split at ends
  · rename_i ended
    obtain ⟨e, journal⟩ := ends
    exact ⟨e, by simp [ended, journal], rfl⟩
  · exact ends.elim
  · exact ends.elim

end Traced
end Playbook
