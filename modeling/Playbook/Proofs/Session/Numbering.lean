import Mathlib.Data.List.Nodup
import Playbook.Proofs.Session.Calling
import Playbook.Proofs.Session.Writing

/-! The numbers of register variables. One counter serves all units and passes of a session, and it
moves only where a step is recorded, so the steps are numbered from one in the order in which they
were recorded. -/

namespace Playbook

theorem toList_registerName (k : Nat) :
    (registerName k).toList = "runvar".toList ++ (Nat.toDigits 10 k).leftpad 4 '0' := by
  simp [registerName, List.leftpad]

theorem ofDigitChars_leftpad (n k : Nat) :
    Nat.ofDigitChars 10 ((Nat.toDigits 10 k).leftpad n '0') 0 = k := by
  have zeros (m : Nat) : Nat.ofDigitChars 10 (List.replicate m '0') 0 = 0 := by
    induction m with
    | zero => rfl
    | succ m ih => rwa [List.replicate_succ, Nat.ofDigitChars, List.foldl_cons]
  rw [List.leftpad, Nat.ofDigitChars_append, zeros, Nat.ofDigitChars_ten_toDigits]

theorem registerName_injective : Function.Injective registerName := by
  intro i j same
  have digits := congrArg String.toList same
  rw [toList_registerName, toList_registerName] at digits
  have digits := congrArg (Nat.ofDigitChars 10 · 0) (List.append_cancel_left digits)
  simpa only [ofDigitChars_leftpad] using digits

example : [registerName 7, registerName 9999, registerName 10000] =
    ["runvar0007", "runvar9999", "runvar10000"] := by decide

@[simp] theorem Step.register_edits (s : Step) (edits : List StepEdit) :
    (edits.foldl edit s).register = s.register := by
  induction edits generalizing s with
  | nil => rfl
  | cons e edits ih =>
    rw [List.foldl_cons, ih]
    cases e <;> rfl

def Stmt.records : Stmt → Bool
  | .step .. | .getFile .. | .varStep .. | .patternStep .. => true
  | _ => false

namespace Session
variable {s t : Session} {log : List (UnitId × Step)} {id : UnitId} {step : Step}

def stepsOf (s : Session) (id : UnitId) : List Step := ((s.unit? id).map WorkUnit.steps).getD []

/-- The session has come about in some way, in the course of which the units have recorded the steps
of the list, one after another. -/
inductive Recorded : Session → List (UnitId × Step) → Prop
  | initial (settings : Settings) (passes : List Pass) : Recorded (initial settings passes) []
  | record {s t : Session} {log : List (UnitId × Step)} {action : String} {args : Value}
      {edits : List StepEdit} {id : UnitId} {step : Step} (before : Recorded s log)
      (active : s.currentUnit? = some id)
      (recorded : s.recordStep action args edits = .ok (step, t)) : Recorded t (log ++ [(id, step)])
  | other {s t : Session} {log : List (UnitId × Step)} (before : Recorded s log) (move : s.Move t)
      (same : ∀ id, t.stepsOf id = s.stepsOf id) : Recorded t log

theorem map_unit?_modifyUnit {α : Type} (s : Session) (id : UnitId) {f : WorkUnit → WorkUnit}
    {P : WorkUnit → α} (kept : ∀ u, P (f u) = P u) (j : UnitId) :
    ((s.modifyUnit id f).unit? j).map P = (s.unit? j).map P := by
  rw [unit?_modifyUnit, Option.map_map]
  congr 1
  funext u
  rw [Function.comp_apply]
  split
  · exact kept u
  · rfl

theorem stepsOf_modifyUnit (s : Session) (id : UnitId) {f : WorkUnit → WorkUnit}
    (kept : ∀ u, (f u).steps = u.steps) (j : UnitId) :
    (s.modifyUnit id f).stepsOf j = s.stepsOf j := by
  rw [stepsOf, s.map_unit?_modifyUnit id kept, stepsOf]

theorem stepsOf_declareAs (s : Session) (name : String) (d : Declaration Body) (j : UnitId) :
    (s.declareAs name d).2.stepsOf j = s.stepsOf j := by
  rw [stepsOf, unit?_declareAs, stepsOf]
  split
  · rename_i new
    subst new
    rw [unit?_fresh]
    rfl
  · rfl

theorem stepsOf_mergeBindings (s : Session) (j : UnitId) :
    s.mergeBindings.2.stepsOf j = s.stepsOf j := by
  rw [stepsOf, unit?_mergeBindings, stepsOf]
  cases s.unit? j <;> rfl

theorem stepsOf_recordStep {action : String} {args : Value} {edits : List StepEdit}
    (active : s.currentUnit? = some id) (h : s.recordStep action args edits = .ok (step, t)) :
    step.register = registerName s.nextRegister ∧ t.nextRegister = s.nextRegister + 1 ∧
      ∀ j, t.stepsOf j = if id = j then s.stepsOf j ++ [step] else s.stepsOf j := by
  obtain ⟨id', u, active', hu, -⟩ := recordStep_eq_ok h
  obtain rfl := Option.some.inj (active.symm.trans active')
  rw [recordStep_of_active active hu] at h
  obtain ⟨rfl, rfl⟩ := Prod.mk.inj (Except.ok.inj h)
  refine ⟨by simp [freshStep, WorkUnit.newStep], rfl, fun j => ?_⟩
  show (((s.modifyUnit id _).unit? j).map WorkUnit.steps).getD [] = _
  rw [unit?_modifyUnit, stepsOf]
  split
  · rename_i same
    subst same
    rw [hu]
    rfl
  · cases s.unit? j <;> rfl

def HasActive (s : Session) : Prop := ∃ id u, s.currentUnit? = some id ∧ s.unit? id = some u

theorem HasActive.of_recordStep {action : String} {args : Value} {edits : List StepEdit}
    (h : s.recordStep action args edits = .ok (step, t)) : t.HasActive := by
  obtain ⟨id, u, active, hu, rfl⟩ := recordStep_eq_ok h
  exact ⟨id, u.record step, active, unit?_modifyUnit_self hu _⟩

theorem Move.recorded_or (m : s.Move t) :
    (∃ action args edits id step, s.currentUnit? = some id ∧
      s.recordStep action args edits = .ok (step, t)) ∨
    (t.nextRegister = s.nextRegister ∧ ∀ id, t.stepsOf id = s.stepsOf id) := by
  cases m with
  | update u =>
    cases u with
    | record recorded =>
      obtain ⟨id, -, active, -⟩ := recordStep_eq_ok recorded
      exact .inl ⟨_, _, _, id, _, active, recorded⟩
    | declare name d => exact .inr ⟨rfl, s.stepsOf_declareAs name d⟩
    | hosts declared =>
      obtain ⟨p, a, e⟩ := addGroup_of_declareHosts declared
      obtain rfl : _ = t := congrArg Prod.snd e
      exact .inr ⟨rfl, fun _ => rfl⟩
    | constrain id => exact .inr ⟨rfl, s.stepsOf_modifyUnit id fun _ => rfl⟩
    | merge => exact .inr ⟨rfl, s.stepsOf_mergeBindings⟩
    | runbook | setSetting | setVar | setVars | skipFacts | inst | pipeline =>
      exact .inr ⟨rfl, fun _ => rfl⟩
  | @bind id => exact .inr ⟨rfl, s.stepsOf_modifyUnit id fun _ => rfl⟩
  | enter | leave | unwind | setFloor => exact .inr ⟨rfl, fun _ => rfl⟩

namespace Recorded

theorem moves (h : s.Recorded log) (m : s.Moves t) : ∃ more, t.Recorded (log ++ more) := by
  induction m with
  | refl => exact ⟨[], by rwa [List.append_nil]⟩
  | tail _ last ih =>
    obtain ⟨more, before⟩ := ih
    rcases last.recorded_or with ⟨_, _, _, id, step, active, recorded⟩ | ⟨-, same⟩
    · exact ⟨more ++ [(id, step)], by rw [← List.append_assoc]; exact before.record active recorded⟩
    · exact ⟨more, before.other last same⟩

/-- The counter stands behind the steps, the steps are numbered from one, and each is with its
unit. -/
structure Numbered (s : Session) (log : List (UnitId × Step)) : Prop where
  next : s.nextRegister = log.length + 1
  registers : log.map (·.2.register) = (List.range log.length).map fun k => registerName (k + 1)
  steps : ∀ id, s.stepsOf id = (log.filter (·.1 = id)).map Prod.snd

theorem numbered (h : s.Recorded log) : Numbered s log := by
  induction h with
  | initial => exact ⟨rfl, rfl, fun _ => rfl⟩
  | @record s t log _ _ _ id step _ active recorded ih =>
    obtain ⟨register, next, steps⟩ := stepsOf_recordStep active recorded
    refine ⟨by rw [next, ih.next, List.length_append, List.length_singleton], ?_, fun j => ?_⟩
    · rw [List.map_append, ih.registers, List.length_append, List.length_singleton,
        List.range_succ, List.map_append, List.map_singleton, List.map_singleton, register, ih.next]
    · rw [steps, ih.steps, List.filter_append, List.map_append]
      split
      · rename_i same
        rw [List.filter_cons_of_pos (by simpa using same)]
        rfl
      · rename_i other
        rw [List.filter_cons_of_neg (by simpa using other), List.filter_nil, List.map_nil,
          List.append_nil]
  | other _ move same ih =>
    rcases move.recorded_or with ⟨_, _, _, id, step, active, recorded⟩ | ⟨next, -⟩
    · obtain ⟨-, -, steps⟩ := stepsOf_recordStep active recorded
      have grown := (steps id).symm.trans (same id)
      rw [if_pos rfl] at grown
      simp at grown
    · exact ⟨next.trans ih.next, ih.registers, fun j => (same j).trans (ih.steps j)⟩

namespace Numbered
variable (h : Numbered s log)
include h

theorem register {k : Nat} (hk : log[k]? = some (id, step)) :
    step.register = registerName (k + 1) := by
  have bound := (List.getElem?_eq_some_iff.1 hk).1
  have registers := congrArg (·[k]?) h.registers
  simp only [List.getElem?_map, hk, List.getElem?_range bound, Option.map_some] at registers
  exact Option.some.inj registers

theorem nodup : (log.map (·.2.register)).Nodup := by
  rw [h.registers]
  exact List.nodup_range.map fun i j same => Nat.succ.inj (registerName_injective same)

theorem eq_of_register {i j : UnitId} {m n : Nat} {a b : Step} (ha : (s.stepsOf i)[m]? = some a)
    (hb : (s.stepsOf j)[n]? = some b) (same : a.register = b.register) : i = j ∧ m = n := by
  have logged {i : UnitId} {m : Nat} {a : Step} (ha : (s.stepsOf i)[m]? = some a) :
      (i, a) ∈ log := by
    have ha := List.mem_of_getElem? ha
    rw [h.steps] at ha
    obtain ⟨⟨i', _⟩, mine, rfl⟩ := List.mem_map.1 ha
    obtain ⟨mem, own⟩ := List.mem_filter.1 mine
    obtain rfl : i' = i := of_decide_eq_true own
    exact mem
  obtain ⟨rfl, rfl⟩ :=
    Prod.mk.inj (List.inj_on_of_nodup_map h.nodup (logged ha) (logged hb) same)
  have nodup : ((s.stepsOf i).map Step.register).Nodup := by
    rw [h.steps, List.map_map]
    exact h.nodup.sublist (List.filter_sublist.map _)
  have nodup := nodup.of_map
  obtain ⟨hm, ha⟩ := List.getElem?_eq_some_iff.1 ha
  obtain ⟨hn, hb⟩ := List.getElem?_eq_some_iff.1 hb
  exact ⟨rfl, nodup.getElem_inj_iff.1 (ha.trans hb.symm)⟩

end Numbered
end Recorded

theorem Arises.exists_recorded (h : s.Arises) : ∃ log, s.Recorded log := by
  obtain ⟨settings, passes, moves⟩ := h
  obtain ⟨log, recorded⟩ := (Recorded.initial settings passes).moves moves
  exact ⟨_, recorded⟩

end Session

namespace Exec
open Session
variable {call : Block → Exec Unit} {r : Run}

/-- The action either goes well, or it stops where it was started. -/
def AllOrNothing {α : Type} (act : Exec α) (r : Run) : Prop :=
  act.Ends r (fun _ _ => True) (fun _ b => b = r) fun _ => False

theorem AllOrNothing.of_error {α : Type} {act : Exec α} (h : act.AllOrNothing r) {halt : Halt}
    {b : Run} (ran : act.run r = .error halt b) : b = r := by
  cases halt with
  | failed => simpa [AllOrNothing, Ends, ran] using h
  | fault | exhausted => simp [AllOrNothing, Ends, ran] at h

theorem allOrNothing_ofExcept {α : Type} (x : Except Error α) : (ofExcept x).AllOrNothing r :=
  ends_ofExcept.2 ⟨fun _ _ => trivial, fun _ _ => rfl⟩

theorem allOrNothing_recordStep (action : String) (args : Value) (edits : List StepEdit) :
    (recordStep action args edits).AllOrNothing r := by
  simp only [AllOrNothing, recordStep, ends_bind, ends_perform, ends_pure]
  exact allOrNothing_ofExcept _

theorem ends_foldlM_recordStep_of_active {β : Type} (active : r.session.HasActive)
    (action : String) (args : Value) (edits : List StepEdit) (xs : List β)
    (last : Option (String × String)) :
    (xs.foldlM (fun _ _ => some <$> recordStep action args edits) last).Ends r
      (fun _ _ => True) (fun _ _ => False) fun _ => False := by
  induction xs generalizing r last with
  | nil => trivial
  | cons x xs ih =>
    obtain ⟨id, u, current, hu⟩ := active
    have recorded := recordStep_of_active current hu action args edits
    rw [List.foldlM_cons, ends_bind, ends_map, recordStep, ends_bind, ends_perform, recorded,
      ends_ofExcept_ok, ends_pure]
    exact ih (HasActive.of_recordStep recorded) _

theorem allOrNothing_recordSteps (action : String) (args : Value) (count : Nat)
    (edits : List StepEdit) : (recordSteps action args count edits).AllOrNothing r := by
  rw [recordSteps]
  cases List.range count with
  | nil => trivial
  | cons x xs =>
    simp only [AllOrNothing, List.foldlM_cons, ends_bind, ends_map, recordStep, ends_perform,
      ends_pure]
    refine ends_ofExcept.2 ⟨fun p recorded => ?_, fun _ _ => rfl⟩
    exact (ends_foldlM_recordStep_of_active (HasActive.of_recordStep recorded) action args edits xs
      _).imp (fun _ _ h => h) (fun _ _ h => h.elim) fun _ h => h

theorem allOrNothing_step {statement : Stmt} (h : statement.records) :
    (step call statement).AllOrNothing r := by
  cases statement with
  | step action args count edits =>
    simpa [AllOrNothing, step] using allOrNothing_recordSteps action args count edits
  | getFile source args edits =>
    simp only [AllOrNothing, step, ends_bind, ends_query, ends_map]
    exact ends_ofExcept.2 ⟨fun p _ => allOrNothing_recordStep p.1 p.2 edits, fun _ _ => rfl⟩
  | varStep action name edits =>
    simpa [AllOrNothing, step] using allOrNothing_recordStep action _ edits
  | patternStep action edits =>
    simpa [AllOrNothing, step] using allOrNothing_recordStep action _ edits
  | _ => cases h

end Exec

/-- In whatever way a session has come about, its steps are numbered from one in the order in which
they were recorded, so no two of them share a register variable. A statement that fails to record
changes nothing. -/
theorem Session.Arises.registers_counted {s : Session} (h : s.Arises) :
    (∃ log, s.Recorded log) ∧
    (∀ log, s.Recorded log →
      (∀ id, s.stepsOf id = (log.filter (·.1 = id)).map Prod.snd) ∧
      (∀ k id step, log[k]? = some (id, step) →
        step.register.toList = "runvar".toList ++ (Nat.toDigits 10 (k + 1)).leftpad 4 '0') ∧
      s.nextRegister = log.length + 1 ∧ ∀ t, s.Moves t → ∃ more, t.Recorded (log ++ more)) ∧
    (∀ (i j : UnitId) (m n : Nat) a b, (s.stepsOf i)[m]? = some a → (s.stepsOf j)[n]? = some b →
      a.register = b.register → i = j ∧ m = n) ∧
    ∀ call (statement : Stmt) journal halt b, statement.records →
      (Exec.step call statement).run ⟨s, journal⟩ = .error halt b → b = ⟨s, journal⟩ := by
  obtain ⟨log, recorded⟩ := h.exists_recorded
  refine ⟨⟨log, recorded⟩, fun log recorded => ?_, fun i j m n a b ha hb =>
    recorded.numbered.eq_of_register ha hb, fun call statement journal halt b records =>
    (Exec.allOrNothing_step records).of_error⟩
  have numbered := recorded.numbered
  refine ⟨numbered.steps, fun k id step hk => ?_, numbered.next, fun t => recorded.moves⟩
  rw [numbered.register hk, toList_registerName]

/-- A unit that invokes another between its own steps and fails to deliver a file, a step outside of
all units, and a plan for which facts are gathered. -/
def interleavedScript : Block :=
  [.declare (.new "deploy" [.step "command" (.text "one") 1 [], .invoke ⟨1⟩,
      .attempt [.getFile "/" .null []], .step "command" (.text "two") 1 []]),
    .declare (.new "restart" [.step "service" (.text "web") 2 []]),
    .enter [.withHosts (some "web") .empty [.invoke ⟨0⟩]],
    .step "command" .null 1 [],
    .plan .plays]

def interleaved : Session :=
  (Session.initial ⟨false, .bundle, none, []⟩ [.facts .new]).after 6 interleavedScript

theorem registers_counted_interleaved :
    (∃ log, interleaved.Recorded log ∧ log.length = 5 ∧
      interleaved.stepsOf ⟨0⟩ = (log.filter (·.1 = ⟨0⟩)).map Prod.snd) ∧
    (interleaved.stepsOf ⟨0⟩).map Step.register = ["runvar0001", "runvar0004"] ∧
    (interleaved.stepsOf ⟨1⟩).map Step.register = ["runvar0002", "runvar0003"] ∧
    (interleaved.stepsOf ⟨2⟩).map Step.register = ["runvar0005"] ∧
    ∃ halt b, (Exec.step (runWithin 3) (.getFile "/" .null [])).run ⟨interleaved, []⟩ =
      .error halt b ∧ b = ⟨interleaved, []⟩ := by
  have arises : interleaved.Arises := (Session.reachable_after rfl 6 interleavedScript).arises
  obtain ⟨⟨log, recorded⟩, counted, -, unchanged⟩ := arises.registers_counted
  obtain ⟨steps, -, next, -⟩ := counted log recorded
  have five : interleaved.nextRegister = 6 := by decide +kernel
  refine ⟨⟨log, recorded, by omega, steps ⟨0⟩⟩, by decide +kernel, by decide +kernel,
    by decide +kernel, ?_⟩
  have fails : ((Exec.step (runWithin 3) (.getFile "/" .null [])).result?
      ⟨interleaved, []⟩).isNone = true := by decide +kernel
  cases ran : (Exec.step (runWithin 3) (.getFile "/" .null [])).run ⟨interleaved, []⟩ with
  | ok a b =>
    rw [Exec.result?_eq_some.2 ran] at fails
    cases fails
  | error halt b => exact ⟨halt, b, rfl, unchanged _ _ _ _ _ rfl ran⟩

end Playbook
