import Playbook.Proofs.Session.Dependencies
import Playbook.Proofs.Session.Lexical
import Playbook.Proofs.Session.Registration

/-! Structured sessions stay structured whatever is declared and recorded in them, and the stacks
say no more than the surroundings do: each operation makes the same of a session with stacks and of
a bare one in its surroundings. -/

namespace Playbook
open Session

def Entry.bare (e : Entry) : Entry := { e with session := e.session.bare }

def Run.bare (r : Run) : Run := ⟨r.session.bare, r.journal.map Entry.bare⟩

def Transcript.bare (t : Transcript) : Transcript := { t with entries := t.entries.map Entry.bare }

theorem structuredUnit_eq (d : Declaration Block) : structuredUnit d = structuredBlock d.body := by
  cases d
  rw [structuredUnit]

theorem structuredUnits_eq_all (ds : List (Declaration Block)) :
    structuredUnits ds = ds.all fun d => structuredBlock d.body := by
  induction ds with
  | nil => rfl
  | cons d ds ih => rw [structuredUnits, ih, List.all_cons, structuredUnit_eq]

namespace Session
variable {s t : Session}

theorem Structured.of_eq (h : s.Structured)
    (units : t.units.map WorkUnit.body = s.units.map WorkUnit.body)
    (runbooks : t.runbooks = s.runbooks) (passes : t.passes = s.passes) : t.Structured where
  bodies := by
    have := h.bodies
    rw [← List.forall_mem_map (f := WorkUnit.body) (P := fun b => b.structured = true)] at this ⊢
    rwa [units]
  hooks := by rw [runbooks]; exact h.hooks
  passes := by rw [passes]; exact h.passes

theorem Structured.modifyUnit (h : s.Structured) (id : UnitId) {f : WorkUnit → WorkUnit}
    (body : ∀ u, (f u).body = u.body) : (s.modifyUnit id f).Structured :=
  h.of_eq (map_modify body _ _) rfl rfl

theorem Structured.modifyGroup (h : s.Structured) (id : GroupId) (f : HostGroup → HostGroup) :
    (s.modifyGroup id f).Structured := h.of_eq rfl rfl rfl

theorem Structured.declareAs (h : s.Structured) (name : String) {d : Declaration Body}
    (body : d.body.structured) : (s.declareAs name d).2.Structured where
  bodies u hu := by
    rcases List.mem_append.1 hu with hu | hu
    · exact h.bodies u hu
    · obtain rfl := List.mem_singleton.1 hu
      exact body
  hooks := h.hooks
  passes := h.passes

theorem Structured.declareMembers (h : s.Structured) (runbook : String)
    (members : OrderedMap String UnitId) {ds : List (Declaration Body)}
    (bodies : ∀ d ∈ ds, d.body.structured) :
    (s.declareMembers runbook members ds).2.Structured := by
  induction ds generalizing s members with
  | nil => exact h
  | cons d ds ih =>
    obtain ⟨body, bodies⟩ := List.forall_mem_cons.1 bodies
    exact ih (h.declareAs _ body) _ bodies

theorem Structured.declareRunbook (h : s.Structured) {name : String} {setup : Option Block}
    {members : List (Declaration Body)} {id : RunbookId} (hook : structuredHook setup)
    (bodies : ∀ d ∈ members, d.body.structured)
    (declared : s.declareRunbook name setup members = .ok (id, t)) : t.Structured := by
  unfold Session.declareRunbook at declared
  split at declared
  · cases declared
  · obtain ⟨-, rfl⟩ := Prod.mk.inj (Except.ok.inj declared)
    have all := h.declareMembers name .empty bodies
    refine ⟨all.bodies, fun r hr => ?_, all.passes⟩
    rcases List.mem_append.1 hr with hr | hr
    · exact all.hooks r hr
    · obtain rfl := List.mem_singleton.1 hr
      exact hook

theorem Structured.mergeBindings (h : s.Structured) : s.mergeBindings.2.Structured :=
  h.of_eq (by simp [Session.mergeBindings, mergeUnit, Function.comp_def]) rfl rfl

theorem Structured.recordStep (h : s.Structured) {action : String} {args : Value}
    {edits : List StepEdit} {step : Step}
    (recorded : s.recordStep action args edits = .ok (step, t)) : t.Structured := by
  obtain ⟨id, u, -, -, rfl⟩ := recordStep_eq_ok recorded
  exact (h.modifyUnit id (f := (·.record step)) fun _ => rfl).of_eq rfl rfl rfl

theorem Structured.declareHosts (h : s.Structured) {pattern : Option String}
    {settings : Attributes} {id : GroupId}
    (declared : s.declareHosts pattern settings = .ok (id, t)) : t.Structured := by
  obtain ⟨p, a, e⟩ := addGroup_of_declareHosts declared
  obtain rfl : _ = t := congrArg Prod.snd e
  exact h.of_eq rfl rfl rfl

theorem structured_initial (settings : Settings) : (initial settings []).Structured where
  bodies := by simp [initial]
  hooks := by simp [initial]
  passes := by simp [initial]

theorem declareHosts_bare (s : Session) (pattern : Option String) (settings : Attributes) :
    s.scopes.surroundings.declareHosts s.bare pattern settings =
      (s.declareHosts pattern settings).map fun p => (p.1, p.2.bare) := by
  have entered : (ScopeStack.mk [s.id]).isEmpty = false := rfl
  unfold Surroundings.declareHosts Scopes.surroundings Session.declareHosts isActive
  cases s.scopes.sessions.isEmpty with
  | true => rfl
  | false =>
    cases hl : s.settings.localhostOnly with
    | true => simp [bare, hl, entered, addGroup, Except.map]
    | false =>
      cases pattern with
      | none => simp [bare, hl, entered, Except.map]
      | some p => cases hb : Text.isBlank p <;> simp [bare, hl, hb, entered, addGroup, Except.map]

theorem copyGroup_bare (s : Session) (source : GroupId) :
    s.scopes.surroundings.copyGroup s.bare source =
      (s.copyGroup source).map fun p => (p.1, p.2.bare) := by
  unfold Surroundings.copyGroup Session.copyGroup
  show (s.getGroup source >>= _) = (s.getGroup source >>= _).map _
  cases s.getGroup source with
  | error e => rfl
  | ok g => exact s.declareHosts_bare _ _

theorem declareRunbook_bare (s : Session) (name : String) (setup : Option Block)
    (members : List (Declaration Body)) :
    s.bare.declareRunbook name setup members =
      (s.declareRunbook name setup members).map fun p => (p.1, p.2.bare) :=
  declareRunbook_map bare (fun _ _ _ => rfl) (fun _ => rfl) (fun _ _ => rfl) s name setup members

theorem recordStep_bare (s : Session) (action : String) (args : Value) (edits : List StepEdit) :
    s.scopes.surroundings.recordStep s.bare action args edits =
      (s.recordStep action args edits).map fun p => (p.1, p.2.bare) := by
  unfold Surroundings.recordStep
  have sought : s.scopes.surroundings.unit = s.currentUnit? := rfl
  have declared (id : UnitId) : s.bare.getUnit id = s.getUnit id := rfl
  rw [sought]
  cases active : s.currentUnit? with
  | none =>
    simp only [Session.recordStep, active]
    rfl
  | some id =>
    cases hu : s.unit? id with
    | none =>
      have unknown : s.getUnit id = .error (.refused (.unknownUnit id)) := by rw [getUnit, hu]
      simp only [Session.recordStep, active, declared, unknown]
      rfl
    | some u =>
      have known : s.getUnit id = .ok u := getUnit_eq_ok.2 hu
      rw [recordStep_of_active active hu]
      simp only [declared, known]
      rfl

theorem isNone_current? {α : Type} (s : ScopeStack α) : s.current?.isNone = s.isEmpty := by
  obtain ⟨_ | _⟩ := s <;> rfl

theorem surroundings_context (s : Session) : s.scopes.surroundings.context = s.context := by
  have guards : s.scopes.guards.toList.isEmpty = s.scopes.guards.isEmpty := List.isEmpty_reverse ..
  simp only [Surroundings.context, Scopes.surroundings, isNone_current?, guards, Bool.not_not,
    context, isActive, Scopes.isUnwound, currentGroup?, currentUnit?, currentInstance?]

theorem answer_bare (s : Session) (q : Query) :
    s.scopes.surroundings.answer s.bare q = s.answer q := by
  cases q with
  | context => rw [Surroundings.answer, surroundings_context, Session.answer]
  | _ => rfl

end Session

theorem WorkUnit.get?_newStep_when (u : WorkUnit) (register : String) (group : Option GroupId)
    (conditions : List String) (action : String) (args : Value) :
    (u.newStep register group conditions action args).settings.get? "when" =
      if conditions.isEmpty then none else some (.texts conditions) := by
  have plain (tags : Value) : (OrderedMap.ofList [("register", .text register), ("tags", tags)] :
      Attributes).get? "when" = none := by
    have empty : (OrderedMap.empty : Attributes).get? "when" = none := rfl
    simp [OrderedMap.ofList, OrderedMap.get?_insert, empty]
  simp only [newStep]
  split
  · exact plain _
  · rw [OrderedMap.get?_insert, if_pos rfl]

theorem Surroundings.recordStep_eq_ok {env : Surroundings} {s t : Session} {action : String}
    {args : Value} {edits : List StepEdit} {step : Step}
    (h : env.recordStep s action args edits = .ok (step, t)) :
    ∃ id u fresh, env.unit = some id ∧ s.unit? id = some u ∧ t.unit? id = some (u.record step) ∧
      step = edits.foldl Step.edit fresh ∧ fresh.group = env.group ∧
      fresh.settings.get? "when" =
        if env.conditions.isEmpty then none else some (.texts env.conditions) := by
  unfold recordStep at h
  split at h
  · cases h
  · rename_i id active
    obtain ⟨u, hu, h⟩ := bind_eq_ok.1 h
    obtain ⟨rfl, rfl⟩ := Prod.mk.inj (Except.ok.inj h)
    have hu := getUnit_eq_ok.1 hu
    exact ⟨id, u, _, active, hu, unit?_modifyUnit_self hu _, rfl, rfl, u.get?_newStep_when ..⟩

end Playbook
