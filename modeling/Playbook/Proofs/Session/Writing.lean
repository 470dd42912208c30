import Playbook.Proofs.Session.Invocation
import Playbook.Proofs.Session.Repetition

/-! Bodies that are made of step statements. Each of their runs records the same steps, so a unit
with such a body is steady. -/

namespace Playbook

namespace Step

theorem without_set (s : Step) (keys : List String) (key : String) (value : Value) :
    (s.set key value).without keys =
      if key ∈ keys then s.without keys else (s.without keys).set key value := by
  split
  · rename_i h
    simp only [without, set]
    rw [OrderedMap.filterKeys_insert_of_not (p := fun k => decide (k ∉ keys)) _ _
      (by simpa using h)]
  · rename_i h
    simp only [without, set]
    rw [OrderedMap.filterKeys_insert (p := fun k => decide (k ∉ keys)) _ _ (by simpa using h)]

theorem without_edit {s t : Step} {keys : List String} (h : s.without keys = t.without keys)
    (e : StepEdit) : (s.edit e).without keys = (t.edit e).without keys := by
  cases e with
  | expose key register =>
    simp only [without, Step.mk.injEq] at h
    obtain ⟨action, args, settings, vars, -⟩ := h
    simp only [edit, without, action, args, settings, vars]
  | _ => simp only [edit, without_set, h]

theorem without_edits {s t : Step} {keys : List String} (h : s.without keys = t.without keys)
    (edits : List StepEdit) :
    (edits.foldl edit s).without keys = (edits.foldl edit t).without keys := by
  induction edits generalizing s t with
  | nil => exact h
  | cons e edits ih => exact ih (without_edit h e)

@[simp] theorem group_edits (s : Step) (edits : List StepEdit) :
    (edits.foldl edit s).group = s.group := by
  induction edits generalizing s with
  | nil => rfl
  | cons e edits ih =>
    rw [List.foldl_cons, ih]
    cases e <;> rfl

end Step

structure Line where
  action : String
  args : String → Value
  edits : List StepEdit

def Stmt.lines? : Stmt → Option (List Line)
  | .step action args count edits => some (List.replicate count ⟨action, fun _ => args, edits⟩)
  | .patternStep action edits => some [⟨action, .text, edits⟩]
  | _ => none

def Body.lines? : Body → Option (List Line)
  | .script block => List.flatten <$> block.mapM Stmt.lines?
  | .step action args => some [⟨action, fun _ => args, []⟩]

namespace WorkUnit

def write (u : WorkUnit) (pattern : String) (conditions : List String) (l : Line) : Step :=
  (l.edits.foldl Step.edit (u.newStep "" none conditions l.action (l.args pattern))).bare

def recipe (u : WorkUnit) (lines : List Line) : Recipe := fun pattern conditions =>
  lines.map (u.write pattern conditions)

theorem bare_newStep (u : WorkUnit) (register : String) (group : Option GroupId)
    (conditions : List String) (action : String) (args : Value) :
    (u.newStep register group conditions action args).bare =
      (u.newStep "" none conditions action args).bare := by
  simp only [newStep, Step.bare, Step.without]
  split <;> rfl

theorem unguarded_newStep (u : WorkUnit) (conditions : List String) (action : String)
    (args : Value) : (u.newStep "" none conditions action args).unguarded =
      (u.newStep "" none [] action args).unguarded := by
  simp only [newStep, Step.unguarded, Step.without]
  split <;> rfl

theorem unconditional_recipe (u : WorkUnit) (lines : List Line) :
    (u.recipe lines).Unconditional := by
  have written (pattern : String) (conditions : List String) (l : Line) :
      (u.write pattern conditions l).unguarded = (u.write pattern [] l).unguarded := by
    rw [write, write, Step.unguarded_bare, Step.unguarded_bare]
    exact Step.without_edits (u.unguarded_newStep ..) l.edits
  intro pattern conditions conditions'
  simp only [recipe, List.map_map, Function.comp_def, written]

theorem write_congr {u v : WorkUnit} (h : u.SameDeclaration v) : v.write = u.write := by
  funext pattern conditions l
  simp only [write, newStep, shortName, h.name, h.stepSettings]

end WorkUnit

namespace Session
variable {s t w : Session} {id : UnitId} {u : WorkUnit} {j : GroupId} {g : HostGroup}
  {l₁ l₂ lines : List Line}

structure Running (s : Session) (id : UnitId) (u : WorkUnit) (j : GroupId) (g : HostGroup) :
    Prop where
  unit : s.unit? id = some u
  active : s.currentUnit? = some id
  current : s.currentGroup? = some j
  group : s.group? j = some g

/-- Nothing has happened to the running unit but that it recorded some lines. -/
def Writes (s : Session) (id : UnitId) (u : WorkUnit) (j : GroupId) (g : HostGroup)
    (lines : List Line) (t : Session) : Prop :=
  ∃ steps, t.Running id { u with steps := u.steps ++ steps } j g ∧
    t.scopes.guards = s.scopes.guards ∧ (∀ step ∈ steps, step.group = some j) ∧
    steps.map Step.bare = u.recipe lines g.pattern s.scopes.guards.toList

theorem Running.writes_nil (h : s.Running id u j g) : s.Writes id u j g [] s :=
  ⟨[], by simpa using h, rfl, by simp, rfl⟩

theorem Writes.append (h : s.Writes id u j g l₁ t) : ∃ v, t.Running id v j g ∧
    ∀ l₂ w, t.Writes id v j g l₂ w → s.Writes id u j g (l₁ ++ l₂) w := by
  obtain ⟨first, running, guards, own, written⟩ := h
  refine ⟨_, running, ?_⟩
  rintro l₂ w ⟨second, running', guards', own', written'⟩
  refine ⟨first ++ second, by simpa using running', guards'.trans guards, ?_, ?_⟩
  · exact fun step hstep => (List.mem_append.1 hstep).elim (own step) (own' step)
  · have same : ({ u with steps := u.steps ++ first } : WorkUnit).write = u.write :=
      WorkUnit.write_congr ⟨rfl, rfl, rfl⟩
    rw [WorkUnit.recipe, same, guards] at written'
    rw [List.map_append, written, written', WorkUnit.recipe, WorkUnit.recipe, List.map_append]

end Session

namespace Exec
open Session
variable {call : Block → Exec Unit} {r : Run} {id : UnitId} {u : WorkUnit} {j : GroupId}
  {g : HostGroup} {failed : Error → Run → Prop} {stopped : Run → Prop}

theorem ends_recordStep (h : r.session.Running id u j g) (l : Line) :
    (recordStep l.action (l.args g.pattern) l.edits).Ends r
      (fun _ b => r.session.Writes id u j g [l] b.session) failed stopped := by
  rw [recordStep, ends_bind, ends_perform, recordStep_of_active h.active h.unit, ends_ofExcept_ok,
    ends_pure]
  refine ⟨[l.edits.foldl Step.edit (r.session.freshStep u l.action (l.args g.pattern))],
    ⟨?_, h.active, h.current, h.group⟩, rfl, ?_, ?_⟩
  · exact unit?_modifyUnit_self h.unit _
  · simpa [freshStep, WorkUnit.newStep] using h.current
  · exact congrArg (fun step => [step]) (Step.without_edits (u.bare_newStep ..) l.edits)

theorem ends_bind_of_writes {α β : Type} {act : Exec β} {f : β → Exec α} {l₁ l₂ : List Line}
    (first : act.Ends r (fun _ b => r.session.Writes id u j g l₁ b.session) failed stopped)
    (second : ∀ x b v, b.session.Running id v j g →
      (f x).Ends b (fun _ c => b.session.Writes id v j g l₂ c.session) failed stopped) :
    (act >>= f).Ends r (fun _ b => r.session.Writes id u j g (l₁ ++ l₂) b.session)
      failed stopped := by
  rw [ends_bind]
  refine first.imp_done fun x b written => ?_
  obtain ⟨v, running, append⟩ := written.append
  exact (second x b v running).imp_done fun _ _ => append _ _

theorem ends_foldlM_recordStep {β : Type} (h : r.session.Running id u j g) (l : Line) (xs : List β)
    (last : Option (String × String)) :
    (xs.foldlM (fun _ _ => some <$> recordStep l.action (l.args g.pattern) l.edits) last).Ends r
      (fun _ b => r.session.Writes id u j g (List.replicate xs.length l) b.session)
      failed stopped := by
  induction xs generalizing r u last with
  | nil => exact h.writes_nil
  | cons x xs ih =>
    rw [List.foldlM_cons]
    exact ends_bind_of_writes ((ends_map ..).2 (ends_recordStep h l))
      fun last b v running => ih running last

theorem ends_recordSteps (h : r.session.Running id u j g) (l : Line) (count : Nat) :
    (recordSteps l.action (l.args g.pattern) count l.edits).Ends r
      (fun _ b => r.session.Writes id u j g (List.replicate count l) b.session) failed stopped := by
  have length : List.replicate count l = List.replicate (List.range count).length l := by
    rw [List.length_range]
  rw [length]
  exact ends_foldlM_recordStep h l _ none

theorem ends_note_of_lines {t : Stmt} {lines : List Line} (ht : t.lines? = some lines)
    (h : r.session.Running id u j g) :
    (note t (step call t)).Ends r (fun _ b => r.session.Writes id u j g lines b.session)
      failed stopped := by
  rw [ends_note]
  cases t with
  | step action args count edits =>
    obtain rfl := Option.some.inj ht
    exact (ends_map ..).2 (ends_recordSteps h ⟨action, fun _ => args, edits⟩ count)
  | patternStep action edits =>
    obtain rfl := Option.some.inj ht
    simp only [step, ends_bind, ends_session, h.current, Option.bind_some, h.group, Option.map_some,
      Option.getD_some, ends_map]
    exact ends_recordStep h ⟨action, .text, edits⟩
  | _ => cases ht

theorem ends_runBlock_of_lines {block : Block} {lines : List (List Line)}
    (hl : block.mapM Stmt.lines? = some lines) (h : r.session.Running id u j g) :
    (runBlock call block).Ends r
      (fun _ b => r.session.Writes id u j g lines.flatten b.session) failed stopped := by
  induction block generalizing r u lines with
  | nil =>
    obtain rfl : [] = lines := Option.some.inj hl
    exact h.writes_nil
  | cons t ts ih =>
    rw [List.mapM_cons] at hl
    obtain ⟨first, ht, hl⟩ := Option.bind_eq_some_iff.1 hl
    obtain ⟨rest, hr, hl⟩ := Option.bind_eq_some_iff.1 hl
    obtain rfl := Option.some.inj hl
    rw [runBlock]
    exact ends_bind_of_writes (ends_note_of_lines ht h) fun _ b v running => ih hr running

theorem ends_runBody_of_lines {body : Body} {lines : List Line} (hl : body.lines? = some lines)
    (h : r.session.Running id u j g) (bound : Nat) :
    (runBody (runWithin bound) body).Ends r
      (fun _ b => r.session.Writes id u j g lines b.session) failed fun _ => True := by
  cases body with
  | step action args =>
    obtain rfl := Option.some.inj hl
    rw [runBody, ends_discard]
    exact ends_recordStep h ⟨action, fun _ => args, []⟩
  | script block =>
    obtain ⟨lines, hb, rfl⟩ := Option.map_eq_some_iff.1 hl
    cases bound with
    | zero => trivial
    | succ bound => exact ends_runBlock_of_lines hb h

end Exec

/-- A unit whose body is made of step statements is steady. -/
theorem WorkUnit.steady_of_lines {u : WorkUnit} {lines : List Line}
    (hl : u.body.lines? = some lines) (settings : Settings) :
    u.Steady settings (u.recipe lines) := by
  refine ⟨u.unconditional_recipe lines, ?_⟩
  intro bound r b id v j g _ declared same active current group ran
  have running : r.session.Running id v j g := ⟨declared, active, current, group⟩
  have ends : (Exec.runBody (runWithin bound) u.body).Ends r
      (fun _ b => r.session.Writes id v j g lines b.session)
      (fun _ b => r.session.Writes id v j g lines b.session) fun _ => True :=
    Exec.ends_runBody_of_lines hl running bound
  obtain ⟨steps, ended, -, own, written⟩ := ends.of_concludes ran
  refine ⟨_, steps, ended.unit, fun _ hj => hj, rfl, own, ?_⟩
  rw [written, recipe, recipe, write_congr same]

end Playbook
