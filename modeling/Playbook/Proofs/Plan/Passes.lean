import Playbook.Proofs.Plan.Facts
import Playbook.Proofs.Plan.Merging

/-! The built-in passes as changes of a session. Neither of them runs a block, and under closed
conditions each does one thing: facts are gathered in the first run of their pass and never again,
and merging merges. A plan by such passes follows from the session that the last of them leaves. -/

namespace Playbook

namespace Pass

inductive Builtin : Pass → Prop
  | facts (f : FactGathering) : Builtin (.facts f)
  | merging (m : Merging) : Builtin (.merging m)

deriving instance DecidableEq for FactGathering, Merging

instance : DecidablePred Builtin := fun
  | .facts f => .isTrue (.facts f)
  | .merging m => .isTrue (.merging m)
  | .idle | .scripted _ => .isFalse fun h => by cases h

instance (p : Pass) (f : FactGathering) : Decidable (p = .facts f) :=
  match p with
  | .facts g => decidable_of_iff (g = f) (by rw [Pass.facts.injEq])
  | .merging _ | .idle | .scripted _ => .isFalse fun h => by cases h

instance (p : Pass) (m : Merging) : Decidable (p = .merging m) :=
  match p with
  | .merging n => decidable_of_iff (n = m) (by rw [Pass.merging.injEq])
  | .facts _ | .idle | .scripted _ => .isFalse fun h => by cases h

/-- A pipeline that settings can name: each of its passes is built in, and none stands twice. -/
structure Regular (ps : List Pass) : Prop where
  builtin : ∀ p ∈ ps, p.Builtin
  nodup : (ps.map name).Nodup

instance (ps : List Pass) : Decidable (Regular ps) :=
  decidable_of_iff ((∀ p ∈ ps, p.Builtin) ∧ (ps.map name).Nodup)
    ⟨fun h => ⟨h.1, h.2⟩, fun h => ⟨h.builtin, h.nodup⟩⟩

theorem regular_default (f : FactGathering) (m : Merging) : Regular [.facts f, .merging m] where
  builtin := by simpa using And.intro (Builtin.facts f) (Builtin.merging m)
  nodup := by simp [name, FactGathering.name, Merging.name]

end Pass

theorem Settings.nodup_of_passProblems {known seen names : List String}
    (h : passProblems known seen names = []) : names.Nodup ∧ ∀ n ∈ names, n ∉ seen := by
  induction names generalizing seen with
  | nil => exact ⟨.nil, by simp⟩
  | cons n names ih =>
    simp only [passProblems, List.append_eq_nil_iff] at h
    obtain ⟨⟨-, new⟩, rest⟩ := h
    have new : n ∉ seen := fun old => by simp [old] at new
    obtain ⟨nodup, fresh⟩ := ih rest
    refine ⟨List.nodup_cons.2 ⟨fun again => fresh n again (List.mem_cons_self ..), nodup⟩, ?_⟩
    exact List.forall_mem_cons.2
      ⟨new, fun k hk old => fresh k hk (List.mem_cons_of_mem _ old)⟩

namespace Registry

theorem get?_builtin {name : String} {kind : PassKind} (h : builtin.get? name = some kind) :
    name = FactGathering.name ∧ kind = .facts ∨ name = Merging.name ∧ kind = .merging := by
  have entries : builtin.entries =
      [(FactGathering.name, .facts), (Merging.name, .merging)] := by decide
  have entry := OrderedMap.get?_eq_some.1 h
  rw [entries] at entry
  simpa using entry

theorem build_eq_ok {c : PassConfig} {p : Pass} (h : builtin.build c = .ok p) :
    p.Builtin ∧ p.name = c.name := by
  rw [build] at h
  cases known : builtin.get? c.name with
  | none => simp [known] at h
  | some kind =>
    rw [known] at h
    rcases get?_builtin known with ⟨name, rfl⟩ | ⟨name, rfl⟩
    · obtain ⟨f, -, rfl⟩ := map_eq_ok.1 h
      exact ⟨.facts f, name.symm⟩
    · obtain ⟨m, -, rfl⟩ := map_eq_ok.1 h
      exact ⟨.merging m, name.symm⟩

theorem pipeline_eq_ok {cs : List PassConfig} {ps : List Pass}
    (h : builtin.pipeline cs = .ok ps) :
    (∀ p ∈ ps, p.Builtin) ∧ ps.map Pass.name = cs.map PassConfig.name := by
  rw [pipeline] at h
  induction cs generalizing ps with
  | nil =>
    obtain rfl : [] = ps := Except.ok.inj h
    exact ⟨by simp, rfl⟩
  | cons c cs ih =>
    rw [List.mapM_cons] at h
    obtain ⟨p, first, h⟩ := bind_eq_ok.1 h
    obtain ⟨ps', others, h⟩ := bind_eq_ok.1 h
    obtain rfl := Except.ok.inj h
    obtain ⟨builtin, name⟩ := build_eq_ok first
    obtain ⟨allBuiltin, names⟩ := ih others
    exact ⟨List.forall_mem_cons.2 ⟨builtin, allBuiltin⟩, by simp [name, names]⟩

end Registry

theorem Session.regular_of_new {settings : Settings} {s : Session} (h : new settings = .ok s) :
    Pass.Regular s.passes := by
  obtain ⟨ps, built, h⟩ := bind_eq_ok.1 h
  obtain ⟨builtin, names⟩ := Registry.pipeline_eq_ok built
  obtain ⟨_, consistent, h⟩ := bind_eq_ok.1 h
  obtain rfl := Except.ok.inj h
  have unproblematic : settings.problems = [] := by
    cases problems : settings.problems with
    | nil => rfl
    | cons => simp [Settings.validate, problems] at consistent
  refine ⟨builtin, ?_⟩
  rw [initial, names]
  exact (Settings.nodup_of_passProblems (List.append_eq_nil_iff.1 unproblematic).2).1

namespace Session

/-- The pass `p` turns the session `s` into `t`, and itself into `q`. -/
inductive Passed (s : Session) : Pass → Pass → Session → Prop
  | known {f : FactGathering} (ran : f.unit ≠ none) : Passed s (.facts f) (.facts f) s
  | gathers {f : FactGathering} (new : f.unit = none)
      (hosts : s.settings.localhostOnly = true ∨ Text.isBlank f.hosts = false) :
      Passed s (.facts f) (.facts { f with unit := some s.factsUnit.id }) (s.gatheredBy f)
  | merges (m : Merging) :
      Passed s (.merging m) (.merging ⟨s.mergeBindings.1⟩) s.mergeBindings.2

inductive PassedAll : Session → List Pass → List Pass → Session → Prop
  | nil (s : Session) : PassedAll s [] [] s
  | cons {s t u : Session} {p q : Pass} {ps qs : List Pass} (first : s.Passed p q t)
      (rest : PassedAll t ps qs u) : PassedAll s (p :: ps) (q :: qs) u

variable {s t : Session} {p q : Pass} {ps qs : List Pass}

theorem Passed.scopes_eq (h : s.Passed p q t) : t.scopes = s.scopes := by
  cases h <;> rfl

theorem Passed.passes_eq (h : s.Passed p q t) : t.passes = s.passes := by
  cases h <;> rfl

theorem PassedAll.scopes_eq (h : s.PassedAll ps qs t) : t.scopes = s.scopes := by
  induction h with
  | nil => rfl
  | cons first _ ih => exact ih.trans first.scopes_eq

theorem PassedAll.passes_eq (h : s.PassedAll ps qs t) : t.passes = s.passes := by
  induction h with
  | nil => rfl
  | cons first _ ih => exact ih.trans first.passes_eq

theorem Passed.rescope (h : s.Passed p q t) (scopes : Scopes) :
    Passed { s with scopes } p q { t with scopes } := by
  cases h with
  | known ran => exact .known ran
  | gathers new hosts => exact .gathers new hosts
  | merges m => exact .merges m

theorem PassedAll.rescope (h : s.PassedAll ps qs t) (scopes : Scopes) :
    PassedAll { s with scopes } ps qs { t with scopes } := by
  induction h with
  | nil => exact .nil _
  | cons first _ ih => exact .cons (first.rescope scopes) ih

variable {f : FactGathering} {id : UnitId}

theorem group?_gatheredBy {j : GroupId} {g : HostGroup} (h : s.group? j = some g) :
    (s.gatheredBy f).group? j = some (g.setSetting "gather_facts" (.bool false)) := by
  simp only [group?, gatheredBy, List.getElem?_map] at h ⊢
  rw [List.getElem?_append_left (List.getElem?_eq_some_iff.1 h).1, h]
  rfl

theorem unit?_gatheredBy {u : WorkUnit} (h : (s.gatheredBy f).unit? id = some u) :
    s.unit? id = some u ∨ u = s.factsUnit := by
  simp only [unit?, gatheredBy, List.getElem?_append] at h ⊢
  split at h
  · exact .inl h
  · exact .inr (by simpa using List.mem_of_getElem? h)

theorem exists_order_of_planned {plan : Plan} (h : s.planned ps = .ok plan) :
    ∃ order : List UnitId, order.Nodup ∧ plan.plays = order.flatMap s.playsFor := by
  obtain ⟨g, -, h⟩ := bind_eq_ok.1 h
  obtain ⟨g', -, h⟩ := bind_eq_ok.1 h
  obtain ⟨order, sorted, -, plays⟩ := planOf_eq_ok.1 h
  exact ⟨order, (Graph.sort_eq_ok sorted).nodup, plays⟩

end Session

namespace Exec
open Session
variable {call : Block → Exec Unit} {r : Run} {f : FactGathering} {p q : Pass} {ps qs : List Pass}

theorem Ends.gatherFacts_blank {done : FactGathering → Run → Prop} {failed : Error → Run → Prop}
    {stopped : Run → Prop} (new : f.unit = none) (active : r.session.isActive = true)
    (elsewhere : r.session.settings.localhostOnly = false) (blank : Text.isBlank f.hosts = true)
    (h : failed (.refused .noPattern)
      (r.on (r.session.declare (.new FactGathering.unitName (.step "setup" (.text "")))).2)) :
    (Exec.gatherFacts call f).Ends r done failed stopped := by
  have refused (settings : Attributes) (s : Session) (hs : s.isActive = true)
      (hl : s.settings.localhostOnly = false) :
      s.declareHosts (some f.hosts) settings = .error (.refused .noPattern) := by
    simp [declareHosts, hs, hl, blank]
  rw [Exec.gatherFacts, if_neg (by simp [new]), ends_bind, ends_apply, ends_bind]
  exact Ends.withHosts_refused (refused _ _ active elsewhere) h

theorem run_runPass_of_passed (call : Block → Exec Unit) {t : Session}
    (active : r.session.isActive = true) (closed : r.session.scopes.guards.isEmpty = true)
    (h : r.session.Passed p q t) :
    (runPass call p).run r = .ok (q, .ok ()) (r.on t) := by
  rw [run_eq_ok]
  cases h with
  | known ran =>
    have ran := Option.isSome_iff_ne_none.2 ran
    simp only [runPass, gatherFacts, ran, if_true, ends_bind, ends_settle]
    exact ⟨rfl, rfl⟩
  | gathers new hosts =>
    simp only [runPass, ends_bind, ends_settle]
    exact Ends.gatherFacts new active closed hosts ⟨rfl, rfl⟩
  | merges m =>
    simp only [runPass, ends_bind, ends_apply]
    exact ⟨rfl, rfl⟩

theorem runPass_cases (call : Block → Exec Unit) (builtin : p.Builtin)
    (active : r.session.isActive = true) :
    (∃ q t, r.session.Passed p q t) ∨ ∃ e b, (runPass call p).run r = .ok (p, .error e) b ∧
      b.session.scopes = r.session.scopes ∧ b.session.groups = r.session.groups := by
  cases builtin with
  | merging m => exact .inl ⟨_, _, .merges m⟩
  | facts f =>
    cases new : f.unit with
    | some unit => exact .inl ⟨_, _, .known (by simp [new])⟩
    | none =>
      cases elsewhere : r.session.settings.localhostOnly with
      | true => exact .inl ⟨_, _, .gathers new (.inl elsewhere)⟩
      | false =>
        cases blank : Text.isBlank f.hosts with
        | false => exact .inl ⟨_, _, .gathers new (.inr blank)⟩
        | true =>
          refine .inr ⟨.refused .noPattern, r.on (r.session.declare
            (.new FactGathering.unitName (.step "setup" (.text "")))).2, run_eq_ok.2 ?_, rfl, rfl⟩
          simp only [runPass, ends_bind, ends_settle]
          exact Ends.gatherFacts_blank new active elsewhere blank ⟨rfl, rfl⟩

theorem run_runPasses_of_passed (call : Block → Exec Unit) {t : Session}
    (active : r.session.isActive = true) (closed : r.session.scopes.guards.isEmpty = true)
    (h : r.session.PassedAll ps qs t) :
    (runPasses call ps).run r = .ok (qs, .ok ()) (r.on t) := by
  induction ps generalizing r qs with
  | nil =>
    cases h
    rfl
  | cons p ps ih =>
    cases h with
    | @cons _ u _ _ q _ qs first rest =>
      have active' : u.isActive = true := by rwa [isActive, first.scopes_eq]
      have closed' : u.scopes.guards.isEmpty = true := by rwa [first.scopes_eq]
      rw [run_eq_ok, runPasses, ends_bind,
        ends_of_run (run_runPass_of_passed call active closed first)]
      simp only [ends_bind]
      rw [ends_of_run (ih (r := r.on u) active' closed' rest)]
      exact ⟨rfl, rfl⟩

theorem runPasses_cases (call : Block → Exec Unit) (builtin : ∀ p ∈ ps, p.Builtin)
    (active : r.session.isActive = true) (closed : r.session.scopes.guards.isEmpty = true) :
    (∃ qs t, r.session.PassedAll ps qs t) ∨ ∃ before stuck qs t e b, ps = before ++ stuck ∧
      r.session.PassedAll before qs t ∧ (runPasses call ps).run r = .ok (qs ++ stuck, .error e) b ∧
      b.session.scopes = r.session.scopes ∧ b.session.groups = t.groups := by
  induction ps generalizing r with
  | nil => exact .inl ⟨_, _, .nil _⟩
  | cons p ps ih =>
    obtain ⟨first, others⟩ := List.forall_mem_cons.1 builtin
    rcases runPass_cases call first active with
      ⟨q, u, passed⟩ | ⟨e, b, ran, scopes, groups⟩
    · have active' : u.isActive = true := by rwa [isActive, passed.scopes_eq]
      have closed' : u.scopes.guards.isEmpty = true := by rwa [passed.scopes_eq]
      have ran := run_runPass_of_passed call active closed passed
      rcases ih (r := r.on u) others active' closed' with
        ⟨qs, t, rest⟩ | ⟨before, stuck, qs, t, e, b, rfl, rest, stopped, scopes, groups⟩
      · exact .inl ⟨_, _, .cons passed rest⟩
      · refine .inr ⟨p :: before, stuck, q :: qs, t, e, b, rfl, .cons passed rest, run_eq_ok.2 ?_,
          scopes.trans passed.scopes_eq, groups⟩
        rw [runPasses, ends_bind, ends_of_run ran]
        simp only [ends_bind]
        rw [ends_of_run stopped]
        exact ⟨rfl, rfl⟩
    · refine .inr ⟨[], p :: ps, [], _, e, b, rfl, .nil _, run_eq_ok.2 ?_, scopes, groups⟩
      rw [runPasses, ends_bind, ends_of_run ran]
      exact ⟨rfl, rfl⟩

variable {s t : Session} {journal : List Entry} {plan : Plan}

theorem run_inSession {α : Type} {act : Exec α} {a : α} {b : Run}
    (h : act.run (r.on { r.session with scopes := { r.session.scopes with
      sessions := r.session.scopes.sessions.enter r.session.id } }) = .ok a b)
    (left : b.session.scopes = { r.session.scopes with
      sessions := r.session.scopes.sessions.enter r.session.id }) :
    (inSession act).run r = .ok a (b.on { b.session with scopes := r.session.scopes }) := by
  rw [run_eq_ok, inSession, ends_bind, ends_session]
  refine Ends.within_ok ?_
  rw [ends_of_run h]
  exact ⟨r.session.scopes, by rw [left]; rfl, rfl, rfl⟩

theorem run_passed (closed : s.scopes.guards.isEmpty = true) (h : s.PassedAll ps qs t) :
    (inSession (runPasses call ps)).run ⟨s, journal⟩ = .ok (qs, .ok ()) ⟨t, journal⟩ := by
  let entered : Scopes := { s.scopes with sessions := s.scopes.sessions.enter s.id }
  have ran := run_runPasses_of_passed call (r := ⟨{ s with scopes := entered }, journal⟩) rfl
    closed (h.rescope entered)
  have back := run_inSession (r := ⟨s, journal⟩) ran rfl
  rw [back]
  simp only [Run.on, ← h.scopes_eq]

/-- A plan by built-in passes ends well exactly if no condition is open, each of the passes does,
and the session that they leave has a plan. -/
theorem plan_eq_ok_of_builtin {r : Run} (builtin : ∀ p ∈ ps, p.Builtin) :
    (Exec.plan call).run ⟨{ s with passes := ps }, journal⟩ = .ok plan r ↔
      s.scopes.guards.isEmpty = true ∧ ∃ qs t, Session.PassedAll { s with passes := [] } ps qs t ∧
        t.planned qs = .ok plan ∧ r = ⟨{ t with passes := qs }, journal⟩ := by
  constructor
  · intro h
    cases closed : s.scopes.guards.isEmpty with
    | false =>
      rw [run_eq_ok, ends_plan_of_open (by exact closed)] at h
      exact h.elim
    | true =>
      let entered : Scopes := { s.scopes with sessions := s.scopes.sessions.enter s.id }
      rcases runPasses_cases call
        (r := ⟨{ s with passes := [], scopes := entered }, journal⟩) builtin rfl closed with
        ⟨qs, t, passed⟩ | ⟨_, _, _, _, _, _, -, -, ran, scopes, -⟩
      · have passed := passed.rescope s.scopes
        obtain ⟨-, planned, rfl⟩ := (plan_eq_ok fun _ => run_passed closed passed).1 h
        exact ⟨rfl, qs, _, passed, planned, rfl⟩
      · have ran := run_inSession (r := ⟨{ s with passes := [] }, journal⟩) ran scopes
        rw [run_eq_ok] at h
        simp only [Exec.plan, buildGraph, ends_bind, ends_session, closed, Bool.not_true,
          Bool.false_eq_true, if_false, ends_update, Run.on] at h
        rw [ends_of_run ran] at h
        exact h.elim
  · rintro ⟨closed, qs, t, passed, planned, rfl⟩
    exact (plan_eq_ok fun _ => run_passed closed passed).2 ⟨closed, planned, rfl⟩

end Exec
end Playbook
