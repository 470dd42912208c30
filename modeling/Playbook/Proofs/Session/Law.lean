import Playbook.Proofs.Session.Dependencies
import Playbook.Proofs.Session.Restoration

/-! What a run does to host groups and bindings, and which of its statements does it. A law says
what the entries of a run must be like, and what then holds of its sessions throughout. It is sound
if every single change keeps it, given the statement that makes the change. -/

namespace Playbook

namespace Session

/-- The settings, the host groups, the active one and the bindings stay as they are. New units have
no bindings. -/
structure Still (s t : Session) : Prop where
  settings : t.settings = s.settings
  groups : t.groups = s.groups
  hostGroups : t.scopes.hostGroups = s.scopes.hostGroups
  passes : s.passes = [] → t.passes = []
  bindings : ∃ n, t.units.map WorkUnit.groups = s.units.map WorkUnit.groups ++ List.replicate n []

namespace Still
variable {s t u : Session}

theorem of_eq (settings : t.settings = s.settings) (groups : t.groups = s.groups)
    (hostGroups : t.scopes.hostGroups = s.scopes.hostGroups) (passes : t.passes = s.passes)
    (bindings : t.units.map WorkUnit.groups = s.units.map WorkUnit.groups) : s.Still t :=
  ⟨settings, groups, hostGroups, fun none => passes.trans none, 0,
    by rw [bindings, List.replicate_zero, List.append_nil]⟩

theorem refl (s : Session) : s.Still s := .of_eq rfl rfl rfl rfl rfl

theorem trans (h : s.Still t) (h' : t.Still u) : s.Still u where
  settings := h'.settings.trans h.settings
  groups := h'.groups.trans h.groups
  hostGroups := h'.hostGroups.trans h.hostGroups
  passes none := h'.passes (h.passes none)
  bindings := by
    obtain ⟨n, first⟩ := h.bindings
    obtain ⟨m, second⟩ := h'.bindings
    exact ⟨n + m, by rw [second, first, List.append_assoc, List.replicate_append_replicate]⟩

end Still

theorem still_modifyUnit (s : Session) (id : UnitId) {f : WorkUnit → WorkUnit}
    (groups : ∀ u, (f u).groups = u.groups) : s.Still (s.modifyUnit id f) :=
  .of_eq rfl rfl rfl rfl (map_modify groups _ _)

theorem still_constrain (s : Session) (id : UnitId) (before after : WorkUnit → OrderedSet UnitRef) :
    s.Still (s.modifyUnit id fun u => { u with before := before u, after := after u }) :=
  s.still_modifyUnit id fun _ => rfl

theorem still_declareAs (s : Session) (name : String) (d : Declaration Body) :
    s.Still (s.declareAs name d).2 :=
  ⟨rfl, rfl, rfl, fun none => none, 1, List.map_append⟩

theorem still_declareMembers (runbook : String) (ds : List (Declaration Body)) (s : Session)
    (members : OrderedMap String UnitId) : s.Still (s.declareMembers runbook members ds).2 := by
  induction ds generalizing s members with
  | nil => exact .refl s
  | cons d ds ih => exact (s.still_declareAs _ d).trans (ih _ _)

theorem still_declareRunbook {s t : Session} {name : String} {setup : Option Block}
    {members : List (Declaration Body)} {id : RunbookId}
    (h : s.declareRunbook name setup members = .ok (id, t)) : s.Still t := by
  unfold declareRunbook at h
  split at h
  · cases h
  · obtain ⟨-, rfl⟩ := Prod.mk.inj (Except.ok.inj h)
    exact (still_declareMembers name members s .empty).trans (.of_eq rfl rfl rfl rfl rfl)

theorem still_recordStep {s t : Session} {action : String} {args : Value} {edits : List StepEdit}
    {step : Step} (h : s.recordStep action args edits = .ok (step, t)) : s.Still t := by
  obtain ⟨id, u, -, -, rfl⟩ := recordStep_eq_ok h
  have recorded := s.still_modifyUnit id (f := (·.record step)) fun _ => rfl
  exact recorded.trans (.of_eq rfl rfl rfl rfl rfl)

theorem still_leave {s : Session} {kind : ScopeKind} {scopes : Scopes} (h : kind ≠ .hostGroup)
    (left : s.scopes.exit kind = .ok scopes) : s.Still { s with scopes } := by
  have left := Scopes.exit_eq_ok left
  cases kind with
  | hostGroup => exact absurd rfl h
  | session | runbook | unit | guard =>
    obtain ⟨_, _, -, rfl⟩ := left
    exact .of_eq rfl rfl rfl rfl rfl

def under (s : Session) (hostGroups : ScopeStack GroupId) : Session :=
  { s with scopes := { s.scopes with hostGroups } }

end Session

/-- The statement shows that passes have been run since `s`: it has run them itself, or it was made
while they were out of the session to be run. -/
def Entry.Optimizing (s : Session) (e : Entry) : Prop :=
  s.passes ≠ [] ∧ e.session.passes = [] ∨
    match e.statement with
    | .merge => True
    | .gatherFacts trial => trial.times ≠ 0
    | .plan _ | .buildGraph => e.session.passes ≠ [] ∧ e.session.scopes.guards.isEmpty = true
    | _ => False

def Stmt.optimizes : Stmt → Bool
  | .plan _ | .buildGraph | .merge | .gatherFacts _ => true
  | _ => false

def Run.Idle (r b : Run) : Prop := b.journal = r.journal ∧ r.session.Still b.session

def Run.Optimized (r b : Run) : Prop :=
  ∃ since, b.journal = since ++ r.journal ∧ ∃ e ∈ since, e.Optimizing r.session

theorem Run.Optimized.log {r b : Run} (h : r.Optimized b) (statement : Stmt)
    (outcome : Except Error Answer) : r.Optimized (b.log statement outcome) := by
  obtain ⟨since, journal, e, he, optimizing⟩ := h
  exact ⟨_ :: since, by rw [log_journal, journal, List.cons_append], e, List.mem_cons_of_mem _ he,
    optimizing⟩

theorem Run.optimized_log {r b : Run} {statement : Stmt} {outcome : Except Error Answer}
    (journal : r.journal <:+ b.journal)
    (h : Entry.Optimizing r.session ⟨statement, b.session, outcome⟩) :
    r.Optimized (b.log statement outcome) := by
  obtain ⟨since, journal⟩ := journal
  exact ⟨_ :: since, by rw [log_journal, ← journal, List.cons_append], _, List.mem_cons_self .., h⟩

/-- A rule for what a run may do, with what its sessions satisfy as long as it does no more. -/
structure Law where
  fair : Entry → Prop
  apt : GroupId → Prop
  optimizes : Prop
  holds : Session → Prop

namespace Law

/-- Every single change keeps what the law says. -/
structure Sound (L : Law) : Prop where
  still {s t : Session} (hs : L.holds s) (h : s.Still t) : L.holds t
  hosts {s t : Session} {pattern : Option String} {settings : Attributes} {id : GroupId}
    (h : s.declareHosts pattern settings = .ok (id, t)) : L.holds s → L.apt id ∧ L.holds t
  copied {s t : Session} {pattern : Option String} {settings : Attributes} {id : GroupId}
    (h : s.declareHosts pattern settings = .ok (id, t)) (vars : Attributes) :
    L.holds s → L.holds (t.modifyGroup id ({ · with vars }))
  setSetting {s t : Session} {id : GroupId} {key : String} {value : Value}
    (h : L.fair ⟨.setSetting id key value, t, .ok .done⟩) :
    L.holds s → L.holds (s.modifyGroup id (·.setSetting key value))
  setVar {s t : Session} {id : GroupId} {key : String} {value : Value}
    (h : L.fair ⟨.setVar id key value, t, .ok .done⟩) :
    L.holds s → L.holds (s.modifyGroup id (·.setVar key value))
  bind {s : Session} {id : UnitId} {group : GroupId} (h : s.currentGroup? = some group) :
    L.holds s → L.holds ((s.modifyUnit id (·.bind group)).modifyGroup group (·.addMember id))
  enters {id : GroupId} {block : Block} {s : Session} {outcome : Except Error Answer} :
    L.fair ⟨.enterHosts id block, s, outcome⟩ → L.apt id
  enter {s : Session} {id : GroupId} (h : L.apt id) :
    L.holds s → L.holds (s.under (s.scopes.hostGroups.enter id))
  leave {s t : Session} : L.holds s → L.holds t → L.holds (t.under s.scopes.hostGroups)
  permits {s : Session} {e : Entry} : L.holds s → L.fair e → e.Optimizing s → L.optimizes
  pipeline {s t : Session} (h : L.optimizes) (passes : List Pass) (given : s.passes ≠ []) :
    L.holds s → L.holds t → L.holds { t with passes }
  merge {s : Session} (h : L.optimizes) : L.holds s → L.holds s.mergeBindings.2
  skipFacts {s : Session} (h : L.optimizes) : L.holds s →
    L.holds { s with groups := s.groups.map (·.setSetting "gather_facts" (.bool false)) }

variable (L : Law) {r a b : Run} {statement : Stmt} {outcome : Except Error Answer}

/-- From `r` to `b` what the law says is kept, as long as the entries made meanwhile are fair. -/
def Keeps (r b : Run) : Prop :=
  ∃ since, b.journal = since ++ r.journal ∧ ((∀ e ∈ since, L.fair e) → L.holds r.session →
    L.holds b.session ∧ ∀ e ∈ since, L.holds e.session)

/-- A run that has stopped halfway. What it was about to note cannot be judged by its entries, so
only a law that any statement keeps says something of it. -/
def Breaks (r b : Run) : Prop :=
  ∃ since, b.journal = since ++ r.journal ∧ (L.optimizes → (∀ id, L.apt id) →
    (∀ e ∈ since, L.fair e) → L.holds r.session → ∀ e ∈ since, L.holds e.session)

variable {L}

namespace Keeps

theorem of_change {t : Session} (kept : L.holds r.session → L.holds t) : L.Keeps r (r.on t) :=
  ⟨[], rfl, fun _ hr => ⟨kept hr, List.forall_mem_nil _⟩⟩

theorem refl (r : Run) : L.Keeps r r := of_change fun hr => hr

theorem trans (h : L.Keeps r a) (h' : L.Keeps a b) : L.Keeps r b := by
  obtain ⟨before, first, h⟩ := h
  obtain ⟨after, second, h'⟩ := h'
  refine ⟨after ++ before, by rw [second, first, List.append_assoc], fun fair hr => ?_⟩
  obtain ⟨fairAfter, fairBefore⟩ := List.forall_mem_append.1 fair
  obtain ⟨ha, heldBefore⟩ := h fairBefore hr
  obtain ⟨hb, heldAfter⟩ := h' fairAfter ha
  exact ⟨hb, List.forall_mem_append.2 ⟨heldAfter, heldBefore⟩⟩

theorem breaks (h : L.Keeps r b) : L.Breaks r b := by
  obtain ⟨since, journal, h⟩ := h
  exact ⟨since, journal, fun _ _ fair hr => (h fair hr).2⟩

theorem trans_breaks (h : L.Keeps r a) (h' : L.Breaks a b) : L.Breaks r b := by
  obtain ⟨before, first, h⟩ := h
  obtain ⟨after, second, h'⟩ := h'
  refine ⟨after ++ before, by rw [second, first, List.append_assoc],
    fun optimizes all fair hr => ?_⟩
  obtain ⟨fairAfter, fairBefore⟩ := List.forall_mem_append.1 fair
  obtain ⟨ha, heldBefore⟩ := h fairBefore hr
  exact List.forall_mem_append.2 ⟨h' optimizes all fairAfter ha, heldBefore⟩

theorem change (h : L.Keeps r a) {t : Session}
    (kept : L.holds r.session → L.holds a.session → L.holds t) : L.Keeps r (a.on t) := by
  obtain ⟨since, journal, h⟩ := h
  exact ⟨since, journal, fun fair hr => ⟨kept hr (h fair hr).1, (h fair hr).2⟩⟩

theorem of_idle (sound : L.Sound) (h : r.Idle b) : L.Keeps r b :=
  ⟨[], h.1, fun _ hr => ⟨sound.still hr h.2, List.forall_mem_nil _⟩⟩

theorem of_optimized (sound : L.Sound) (strict : ¬ L.optimizes) (h : r.Optimized b) :
    L.Keeps r b := by
  obtain ⟨since, journal, e, he, optimizing⟩ := h
  exact ⟨since, journal, fun fair hr => absurd (sound.permits hr (fair e he) optimizing) strict⟩

theorem of_fair (journal : r.journal <:+ b.journal)
    (h : L.fair ⟨statement, b.session, outcome⟩ → L.Keeps r b) :
    L.Keeps r (b.log statement outcome) := by
  obtain ⟨since, journal⟩ := journal
  refine ⟨⟨statement, b.session, outcome⟩ :: since,
    by rw [Run.log_journal, ← journal, List.cons_append], fun fair hr => ?_⟩
  obtain ⟨told, fair⟩ := List.forall_mem_cons.1 fair
  obtain ⟨_, same, h⟩ := h told
  obtain rfl := List.append_cancel_right (same.symm.trans journal.symm)
  obtain ⟨hb, held⟩ := h fair hr
  exact ⟨hb, List.forall_mem_cons.2 ⟨hb, held⟩⟩

theorem log (h : L.Keeps r b) : L.Keeps r (b.log statement outcome) := by
  obtain ⟨since, journal, -⟩ := id h
  exact of_fair ⟨since, journal.symm⟩ fun _ => h

end Keeps
end Law

end Playbook
