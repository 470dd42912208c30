import Playbook.Proofs.Plan.Facts
import Playbook.Proofs.Session.Conduct

/-! Calls of the pass that gathers facts, over and over. The pass declares its unit before it asks
for the hosts and remembers the unit only at the end, so a call that is refused leaves one more unit
behind, which is bound to nothing, and nothing else; the first call that is not refused declares one
too, and those after it do nothing. -/

namespace Playbook

namespace Session

def newFactsUnit (s : Session) : WorkUnit :=
  .ofDeclaration ⟨s.units.length⟩ FactGathering.unitName
    (.new FactGathering.unitName (.step "setup" (.text "")))

def factsRefusal? (s : Session) (p : FactGathering) : Option Error :=
  if !s.isActive then some (.refused .hostsOutsideSession)
  else if s.settings.localhostOnly then none
  else if Text.isBlank p.hosts then some (.refused .noPattern)
  else none

theorem declareHosts_facts (s : Session) (p : FactGathering) (units : List WorkUnit)
    (attributes : Attributes) :
    match s.factsRefusal? p with
    | some e => declareHosts { s with units } (some p.hosts) attributes = .error e
    | none => ∃ pattern given, declareHosts { s with units } (some p.hosts) attributes =
        .ok (addGroup { s with units } pattern given) := by
  have active : isActive { s with units } = s.isActive := rfl
  simp only [declareHosts, active, factsRefusal?]
  cases s.isActive with
  | false => rfl
  | true =>
    cases s.settings.localhostOnly with
    | true => exact ⟨_, _, rfl⟩
    | false =>
      cases Text.isBlank p.hosts with
      | true => rfl
      | false => exact ⟨_, _, rfl⟩

/-- One call of the pass `p` on the session `s`: how it ends, and what has become of the two. -/
inductive Attempt (s : Session) (p : FactGathering) :
    FactGathering → Except Error Unit → Session → Prop
  | known (ran : p.unit ≠ none) : Attempt s p p (.ok ()) s
  | gathers {t : Session} {u : WorkUnit} (new : p.unit = none) (admitted : s.factsRefusal? p = none)
      (units : t.units = s.units ++ [u]) (name : u.name = FactGathering.unitName) :
      Attempt s p { p with unit := some ⟨s.units.length⟩ } (.ok ()) t
  | refused {e : Error} (new : p.unit = none) (refusal : s.factsRefusal? p = some e) :
      Attempt s p p (.error e) { s with units := s.units ++ [s.newFactsUnit] }

end Session

namespace Exec
open Session
variable {call : Block → Exec Unit} {p q : FactGathering}

theorem Ends.gatherFacts_refused {r : Run} {e : Error} {done : FactGathering → Run → Prop}
    {failed : Error → Run → Prop} {stopped : Run → Prop} (new : p.unit = none)
    (refusal : r.session.factsRefusal? p = some e)
    (h : failed e (r.on { r.session with units := r.session.units ++ [r.session.newFactsUnit] })) :
    (Exec.gatherFacts call p).Ends r done failed stopped := by
  have hosts := r.session.declareHosts_facts p (r.session.units ++ [r.session.newFactsUnit])
    (.ofList [("become", .bool p.becomeRoot)])
  rw [refusal] at hosts
  rw [Exec.gatherFacts, if_neg (by simp [new]), ends_bind, ends_apply, ends_bind]
  exact Ends.withHosts_refused hosts h

theorem Ends.gatherFacts_admitted {r : Run} {done : FactGathering → Run → Prop}
    {failed : Error → Run → Prop} {stopped : Run → Prop} (new : p.unit = none)
    (admitted : r.session.factsRefusal? p = none)
    (h : ∀ t u, t.units = r.session.units ++ [u] → u.name = FactGathering.unitName →
      done { p with unit := some ⟨r.session.units.length⟩ } (r.on t)) :
    (Exec.gatherFacts call p).Ends r done failed stopped := by
  obtain ⟨s, journal⟩ := r
  have hosts := s.declareHosts_facts p (s.units ++ [s.newFactsUnit])
    (.ofList [("become", .bool p.becomeRoot)])
  rw [show s.factsRefusal? p = none from admitted] at hosts
  obtain ⟨pattern, given, hosts⟩ := hosts
  rw [Exec.gatherFacts, if_neg (by simp [new]), ends_bind, ends_apply, ends_bind]
  have known := group?_addGroup { s with units := s.units ++ [s.newFactsUnit] } pattern given
    ⟨s.groups.length⟩
  refine Ends.withHosts_ok hosts (known.trans (if_pos rfl)) ?_
  have declared : (s.units ++ [s.newFactsUnit])[s.units.length]? = some s.newFactsUnit := by simp
  refine Ends.invoke_step (u := s.newFactsUnit) declared rfl rfl ⟨s.scopes, rfl, ?_⟩
  exact h _ _ (modify_length_append ..) rfl

theorem exists_attempt (call : Block → Exec Unit) (p : FactGathering) (r : Run) :
    ∃ q result t, r.session.Attempt p q result t ∧
      (runPass call (.facts p)).run r = .ok (.facts q, result) (r.on t) := by
  cases new : p.unit with
  | some unit =>
    have ran : p.unit ≠ none := by simp [new]
    refine ⟨p, .ok (), r.session, .known ran, run_eq_ok.2 ?_⟩
    simp only [runPass, gatherFacts, new, Option.isSome_some, if_true, ends_bind, ends_settle]
    exact ⟨rfl, rfl⟩
  | none =>
    cases refusal : r.session.factsRefusal? p with
    | some e =>
      refine ⟨p, .error e, _, .refused new refusal, run_eq_ok.2 ?_⟩
      simp only [runPass, ends_bind, ends_settle]
      exact Ends.gatherFacts_refused new refusal ⟨rfl, rfl⟩
    | none =>
      have ends : (runPass call (.facts p)).Ends r (fun x b => ∃ t,
          r.session.Attempt p { p with unit := some ⟨r.session.units.length⟩ } (.ok ()) t ∧
            x = (.facts { p with unit := some ⟨r.session.units.length⟩ }, .ok ()) ∧ b = r.on t)
          (fun _ _ => False) fun _ => False := by
        simp only [runPass, ends_bind, ends_settle]
        exact Ends.gatherFacts_admitted new refusal fun t u units name =>
          ⟨t, .gathers new refusal units name, rfl, rfl⟩
      rcases ends.exists_run with ⟨_, _, ran, t, attempt, rfl, rfl⟩ | ⟨_, _, _, none⟩
      · exact ⟨_, _, t, attempt, ran⟩
      · exact none.elim

theorem attempt_of_run {r b : Run} {result : Except Error Unit}
    (ran : (runPass call (.facts p)).run r = .ok (.facts q, result) b) :
    r.session.Attempt p q result b.session := by
  obtain ⟨q', result', t, attempt, ran'⟩ := exists_attempt call p r
  rw [ran'] at ran
  obtain ⟨passed, rfl⟩ := EStateM.Result.ok.inj ran
  obtain ⟨rfl, rfl⟩ : q' = q ∧ result' = result := by simpa using passed
  exact attempt

end Exec

structure Call where
  before : Session
  after : Session
  result : Except Error Unit

namespace Call

/-- The units that were declared in the call. -/
def declared (c : Call) : List WorkUnit := c.after.units.drop c.before.units.length

def failed (c : Call) : Bool :=
  match c.result with
  | .ok _ => false
  | .error _ => true

end Call

/-- Calls of one pass, wherever they are made. What the pass remembers goes from each to the
next. -/
inductive Calls (call : Block → Exec Unit) : FactGathering → List Call → FactGathering → Prop
  | nil (p : FactGathering) : Calls call p [] p
  | cons {p q q' : FactGathering} {r b : Run} {result : Except Error Unit} {cs : List Call}
      (ran : (Exec.runPass call (.facts p)).run r = .ok (.facts q, result) b)
      (rest : Calls call q cs q') : Calls call p (⟨r.session, b.session, result⟩ :: cs) q'

namespace Session.Attempt
variable {s t : Session} {p q : FactGathering} {result : Except Error Unit}

theorem hosts_eq (h : s.Attempt p q result t) : q.hosts = p.hosts := by
  cases h <;> rfl

theorem names (h : s.Attempt p q result t) :
    ∀ u ∈ Call.declared ⟨s, t, result⟩, u.name = FactGathering.unitName := by
  cases h with
  | known => simp [Call.declared]
  | gathers new admitted units name => simpa [Call.declared, units] using name
  | refused => simp [Call.declared, newFactsUnit, WorkUnit.ofDeclaration]

/-- Each call that declares a unit either fails or is the one that the pass remembers. -/
theorem length_declared (h : s.Attempt p q result t) :
    (Call.declared ⟨s, t, result⟩).length + p.unit.toList.length =
      (if Call.failed ⟨s, t, result⟩ then 1 else 0) + q.unit.toList.length := by
  cases h with
  | known ran =>
    simp [Call.declared, Call.failed]
  | gathers new admitted units => simp [Call.declared, Call.failed, units, new]
  | refused new refusal => simp [Call.declared, Call.failed, new]

theorem failed_iff (h : s.Attempt p q result t) : Call.failed ⟨s, t, result⟩ = true ↔
    p.unit = none ∧ (s.factsRefusal? p).isSome = true := by
  cases h with
  | known ran => simp [Call.failed, ran]
  | gathers new admitted => simp [Call.failed, admitted]
  | refused new refusal => simp [Call.failed, new, refusal]

theorem unit_eq_none_iff (h : s.Attempt p q result t) :
    q.unit = none ↔ p.unit = none ∧ Call.failed ⟨s, t, result⟩ = true := by
  cases h with
  | known ran => simp [Call.failed, ran]
  | gathers new admitted => simp [Call.failed]
  | refused new refusal => simp [Call.failed]

theorem after_of_failed (h : s.Attempt p q result t)
    (failed : Call.failed ⟨s, t, result⟩ = true) :
    t = { s with units := s.units ++ [s.newFactsUnit] } := by
  cases h with
  | known | gathers => simp [Call.failed] at failed
  | refused => rfl

end Session.Attempt

namespace Calls
variable {call : Block → Exec Unit} {p q q' : FactGathering} {cs cs' : List Call}

theorem append (h : Calls call p cs q) (h' : Calls call q cs' q') :
    Calls call p (cs ++ cs') q' := by
  induction h with
  | nil => exact h'
  | cons ran _ ih => exact .cons ran (ih h')

theorem split {front back : List Call} {c : Call} (h : Calls call p (front ++ c :: back) q) :
    ∃ p' q', Calls call p front p' ∧ c.before.Attempt p' q' c.result c.after := by
  induction front generalizing p with
  | nil =>
    cases h with
    | cons ran => exact ⟨p, _, .nil p, Exec.attempt_of_run ran⟩
  | cons d front ih =>
    cases h with
    | cons ran rest =>
      obtain ⟨p', q', calls, attempt⟩ := ih rest
      exact ⟨p', q', .cons ran calls, attempt⟩

theorem hosts_eq (h : Calls call p cs q) : q.hosts = p.hosts := by
  induction h with
  | nil => rfl
  | cons ran _ ih => exact ih.trans (Exec.attempt_of_run ran).hosts_eq

theorem unit_eq_none_iff (h : Calls call p cs q) :
    q.unit = none ↔ p.unit = none ∧ ∀ c ∈ cs, c.failed = true := by
  induction h with
  | nil => simp
  | cons ran _ ih =>
    rw [ih, (Exec.attempt_of_run ran).unit_eq_none_iff, List.forall_mem_cons, and_assoc]

theorem length_declared (h : Calls call p cs q) :
    (cs.flatMap Call.declared).length + p.unit.toList.length =
      cs.countP Call.failed + q.unit.toList.length := by
  induction h with
  | nil => rfl
  | cons ran _ ih =>
    have first := (Exec.attempt_of_run ran).length_declared
    rw [List.flatMap_cons, List.length_append, List.countP_cons]
    omega

end Calls

theorem FactGathering.unit_of_ofSettings {settings : Attributes} {p : FactGathering}
    (h : ofSettings settings = .ok p) : p.unit = none := by
  have kept {q q' : FactGathering} {key : String} {value : Value}
      (h : q.withSetting key value = .ok q') : q'.unit = q.unit := by
    unfold withSetting at h
    split at h
    · split at h
      · rw [← Except.ok.inj h]
      · cases h
    · split at h
      · split at h
        · rw [← Except.ok.inj h]
        · cases h
      · cases h
  have all (entries : List (String × Value)) (q : FactGathering)
      (h : entries.foldlM (fun p e => p.withSetting e.1 e.2) q = .ok p) : p.unit = q.unit := by
    induction entries generalizing q with
    | nil => rw [← Except.ok.inj h]
    | cons e entries ih =>
      rw [List.foldlM_cons] at h
      obtain ⟨q', first, rest⟩ := bind_eq_ok.1 h
      exact (ih q' rest).trans (kept first)
  exact all _ _ h

/-- The pass stands at the place `n` of a pipeline; that has become `passes`, and in between, from
the session `s` to the session `t`, the pass has been called once at the most. -/
def CalledOnce (bound : Nat) (p : FactGathering) (n : Nat) (s t : Session) (passes : List Pass) :
    Prop :=
  ∃ cs q, Calls (runWithin bound) p cs q ∧ cs.length ≤ 1 ∧ passes[n]? = some (.facts q) ∧
    ∀ c ∈ cs, c.before.isActive = true ∧ s.Moves c.before ∧ c.after.Moves t

namespace CalledOnce
variable {bound : Nat} {p : FactGathering} {n : Nat} {s s' t t' : Session} {passes : List Pass}

theorem none (h : passes[n]? = some (.facts p)) : CalledOnce bound p n s t passes :=
  ⟨[], p, .nil p, Nat.zero_le 1, h, by simp⟩

theorem widen (h : CalledOnce bound p n s t passes) (before : s'.Moves s) (after : t.Moves t') :
    CalledOnce bound p n s' t' passes := by
  obtain ⟨cs, q, calls, once, place, between⟩ := h
  refine ⟨cs, q, calls, once, place, fun c hc => ?_⟩
  obtain ⟨active, first, last⟩ := between c hc
  exact ⟨active, before.trans first, last.trans after⟩

end CalledOnce

namespace Exec
open Session
variable {bound : Nat} {p : FactGathering} {n : Nat}

/-- The induction is on the passes up to the place. One before it may fail, and then the pass is not
called. -/
theorem ends_runPasses_calledOnce {ps : List Pass} (place : ps[n]? = some (.facts p)) (r : Run)
    (active : r.session.isActive = true) : (runPasses (runWithin bound) ps).Ends r
      (fun x b => CalledOnce bound p n r.session b.session x.1) (fun _ _ => True)
      fun _ => True := by
  have tame := tame_runWithin bound
  induction ps generalizing n r with
  | nil => cases place
  | cons first ps ih =>
    rw [runPasses, ends_bind]
    cases n with
    | zero =>
      obtain rfl : first = .facts p := Option.some.inj place
      obtain ⟨q, result, t, -, ran⟩ := exists_attempt (runWithin bound) p r
      rw [ends_of_run ran]
      have calls : Calls (runWithin bound) p [⟨r.session, t, result⟩] q := .cons ran (.nil q)
      have called {passes : List Pass} {t' : Session} (later : t.Moves t') :
          CalledOnce bound p 0 r.session t' (.facts q :: passes) :=
        ⟨_, q, calls, Nat.le_refl 1, rfl, by simpa using ⟨active, .refl, later⟩⟩
      cases result with
      | error e => exact called .refl
      | ok =>
        simp only [ends_bind]
        exact (tame_runPasses tame ps (r.on t)).imp (fun _ _ course => called course.path.moves)
          (fun _ _ _ => trivial) fun _ _ => trivial
    | succ n =>
      refine (tame_runPass tame first r).imp (fun x b course => ?_) (fun _ _ _ => trivial)
        fun _ _ => trivial
      obtain ⟨first, _ | _⟩ := x
      · exact CalledOnce.none place
      · have entered : b.session.isActive = true := by
          rw [isActive, course.restored.sessions]
          exact active
        simp only [ends_bind]
        exact (ih place b entered).imp
          (fun _ _ called => called.widen course.path.moves .refl) (fun _ _ _ => trivial)
          fun _ _ => trivial

theorem Ends.inSession_tame {α : Type} {act : Exec α} {r : Run} {done : α → Run → Prop}
    {failed : Error → Run → Prop} (tame : act.Tame)
    (block : act.Ends (r.on { r.session with scopes := { r.session.scopes with
        sessions := r.session.scopes.sessions.enter r.session.id } })
      (fun a b => ∀ left, b.session.scopes.exit .session = .ok left →
        done a (b.on { b.session with scopes := left }))
      (fun _ _ => False) fun _ => True) :
    (inSession act).Ends r done failed fun _ => True := by
  rw [inSession, ends_bind, ends_session]
  refine Ends.within_ok ((block.and (tame.restores _)).imp (fun a b h => ?_)
    (fun _ _ h => h.1) fun _ _ => trivial)
  have left : b.session.scopes.exit .session =
      .ok { b.session.scopes with sessions := r.session.scopes.sessions } := by
    simp only [Scopes.exit, h.2.sessions]
    rfl
  exact ⟨_, left, h.1 _ left⟩

theorem ends_buildGraph_calledOnce {r : Run} (place : r.session.passes[n]? = some (.facts p)) :
    (buildGraph (runWithin bound)).Ends r
      (fun _ b => CalledOnce bound p n r.session b.session b.session.passes)
      (fun _ b => CalledOnce bound p n r.session b.session b.session.passes) fun _ => True := by
  obtain ⟨s, journal⟩ := r
  cases closed : s.scopes.guards.isEmpty with
  | false =>
    simp only [buildGraph, ends_bind, ends_session, closed, Bool.not_false, if_true, ends_fail]
    exact CalledOnce.none place
  | true =>
    refine ends_buildGraph_of_closed
      (P := fun b => CalledOnce bound p n s b.session b.session.passes) closed ?_
    let entered : Scopes := { s.scopes with sessions := s.scopes.sessions.enter s.id }
    let start : Run := ⟨{ s with passes := [], scopes := entered }, journal⟩
    have opened : s.Moves start.session :=
      .tail (.single (.update (.pipeline []))) (.enter .session)
    refine Ends.inSession_tame (tame_runPasses (tame_runWithin bound) s.passes) ?_
    refine ((ends_runPasses_calledOnce place start rfl).and
      (ends_runPasses_configured _ s.passes start)).imp (fun x b h left hl => ?_) (fun _ _ h => h.2)
      fun _ _ => trivial
    exact h.1.widen opened (.tail (.single (.leave hl)) (.update (.pipeline x.1)))

end Exec

/-- From settings that the pass accepts, and whatever happens between its calls: every call comes to
its end, and the units that the calls declare are as many as the calls that fail, and one more if
there is one that does not. A call fails if all before it have failed and the hosts are refused. It
leaves its unit behind then, which is bound to nothing, and changes nothing else. Building a graph
or a plan calls the pass once at the most, and leaves it in its place. -/
theorem FactGathering.calls_counted {settings : Attributes} {p : FactGathering}
    (accepted : ofSettings settings = .ok p) (bound : Nat) :
    (∀ q r, ∃ q' result b,
      (Exec.runPass (runWithin bound) (.facts q)).run r = .ok (.facts q', result) b) ∧
    ∀ cs q, Calls (runWithin bound) p cs q →
      (cs.flatMap Call.declared).length = cs.countP Call.failed + q.unit.toList.length ∧
      (q.unit = none ↔ ∀ c ∈ cs, c.failed = true) ∧
      (∀ front c back, cs = front ++ c :: back →
        (∀ u ∈ c.declared, u.name = unitName) ∧
        (c.failed = true ↔
          (∀ d ∈ front, d.failed = true) ∧ (c.before.factsRefusal? p).isSome = true) ∧
        (c.failed = true → c.after =
          { c.before with units := c.before.units ++ [c.before.newFactsUnit] })) ∧
      ∀ (n : Nat) (r b : Run), r.session.passes[n]? = some (Pass.facts q) →
        (Exec.buildGraph (runWithin bound)).Concludes r b ∨
          (Exec.plan (runWithin bound)).Concludes r b →
        ∃ cs' q', Calls (runWithin bound) p (cs ++ cs') q' ∧ cs'.length ≤ 1 ∧
          b.session.passes[n]? = some (Pass.facts q') ∧ ∀ c ∈ cs', c.before.isActive = true ∧
            r.session.Moves c.before ∧ c.after.Moves b.session := by
  have fresh : p.unit = none := unit_of_ofSettings accepted
  refine ⟨fun q r => ?_, fun cs q calls => ⟨?_, ?_, ?_, ?_⟩⟩
  · obtain ⟨q', result, t, -, ran⟩ := Exec.exists_attempt (runWithin bound) q r
    exact ⟨q', result, r.on t, ran⟩
  · simpa [fresh] using calls.length_declared
  · simpa [fresh] using calls.unit_eq_none_iff
  · rintro front c back rfl
    obtain ⟨p', q', before, attempt⟩ := calls.split
    have same : c.before.factsRefusal? p' = c.before.factsRefusal? p := by
      rw [Session.factsRefusal?, before.hosts_eq, Session.factsRefusal?]
    refine ⟨attempt.names, ?_, attempt.after_of_failed⟩
    rw [attempt.failed_iff, before.unit_eq_none_iff, same]
    simp [fresh]
  · rintro n r b place built
    have called : CalledOnce bound q n r.session b.session b.session.passes := by
      rcases built with built | planned
      · exact (Exec.ends_buildGraph_calledOnce place).of_concludes built
      · exact (Exec.ends_plan_of_buildGraph
          (P := fun b => CalledOnce bound q n r.session b.session b.session.passes)
          (Exec.ends_buildGraph_calledOnce place)).of_concludes planned
    obtain ⟨cs', q', more, once, place', between⟩ := called
    exact ⟨cs', q', calls.append more, once, place', between⟩

/-- Twice the session has not been entered; the third call gathers facts. -/
theorem FactGathering.calls_counted_outside :
    ∃ cs q, Calls (runWithin 1) .new cs q ∧ cs.map Call.failed = [true, true, false] ∧
      (cs.flatMap Call.declared).length = 3 := by
  let s : Session := .initial ⟨false, .bundle, none, []⟩ []
  let t : Session := { s with units := s.units ++ [s.newFactsUnit] }
  let u : Session := { t with units := t.units ++ [t.newFactsUnit] }
  let entered : Session := { u with scopes := { u.scopes with
    sessions := u.scopes.sessions.enter u.id } }
  have accepted : ofSettings .empty = .ok .new := rfl
  obtain ⟨total, counted⟩ := calls_counted accepted 1
  obtain ⟨q, result, b, ran⟩ := total .new ⟨entered, []⟩
  let last : Call := ⟨entered, b.session, result⟩
  have calls : Calls (runWithin 1) .new [⟨s, t, _⟩, ⟨t, u, _⟩, last] q :=
    .cons (r := ⟨s, []⟩) (b := ⟨t, []⟩) rfl (.cons (r := ⟨t, []⟩) (b := ⟨u, []⟩) rfl
      (.cons ran (.nil q)))
  obtain ⟨length, remembered, each, -⟩ := counted _ q calls
  obtain ⟨-, fails, -⟩ := each [_, _] last [] rfl
  have ended : last.failed = false := by
    have admitted : entered.factsRefusal? .new = none := by decide
    rw [← Bool.not_eq_true, fails]
    simp [last, admitted]
  have some : q.unit ≠ none := fun none => by simpa [ended] using remembered.1 none last
  obtain ⟨unit, some⟩ := Option.ne_none_iff_exists'.1 some
  refine ⟨_, q, calls, congrArg ([true, true, ·]) ended, ?_⟩
  rw [length, some]
  exact congrArg (fun failed => [true, true, failed].countP id + 1) ended

/-- The hosts of the pass are blank, and it is called in each of the plans. -/
theorem FactGathering.not_forall_once : ¬ ∀ settings start bound script,
    Session.new settings = .ok start → (∀ t ∈ script, ∃ form, t = Stmt.plan form) →
      ((start.after bound script).units.filter (·.name = unitName)).length ≤ 1 := by
  intro all
  let settings : Settings := ⟨false, .bundle, none, [⟨name, .ofList [("hosts", .text "")]⟩]⟩
  have twice := all settings (.initial settings [.facts ⟨"", true, none⟩]) 2
    [.plan .plays, .plan .plays] rfl (by simp)
  have declared : (((Session.initial settings [.facts ⟨"", true, none⟩]).after 2
      [.plan .plays, .plan .plays]).units.filter (·.name = unitName)).length = 2 := by
    decide +kernel
  omega

end Playbook
