import Playbook.Proofs.Plan.Passes
import Playbook.Proofs.Session.Conduct

/-! Plays that gather no facts of their own. The pass that gathers facts turns that off in every
host group that there is when it first runs. It does nothing in later plans, so groups declared
since gather facts again. -/

namespace Playbook

theorem Play.get?_of {g : HostGroup} {key : String} {value : Value} (free : key ∉ reserved)
    (h : g.settings.get? key = some value) (u : WorkUnit) :
    (of g u).settings.get? key = some value := by
  rw [of, OrderedMap.get?_filterKeys, if_pos (by simpa using free), OrderedMap.get?_overlay, h]
  rfl

theorem HostGroup.get?_setSetting_of {g : HostGroup} {key : String} {value : Value}
    (h : g.settings.get? key = some value) {other : String} {value' : Value}
    (kept : other = key → value' = value) :
    (g.setSetting other value').settings.get? key = some value := by
  rw [setSetting, OrderedMap.get?_insert]
  split
  · rename_i same
    rw [kept same.symm]
  · exact h

def HostGroup.Quiet (g : HostGroup) : Prop := g.settings.get? "gather_facts" = some (.bool false)

def Play.Quiet (p : Play) : Prop := p.settings.get? "gather_facts" = some (.bool false)

theorem Play.quiet_of {g : HostGroup} (h : g.Quiet) (u : WorkUnit) : (of g u).Quiet :=
  get?_of (by decide) h u

/-- The statement does not turn the gathering of facts on in a host group. -/
def Entry.Hushed (e : Entry) : Prop :=
  ∀ id value, e.statement = .setSetting id "gather_facts" value → value = .bool false

namespace HostGroup
variable {g : HostGroup}

theorem Quiet.setSetting (h : g.Quiet) {key : String} {value : Value}
    (hushed : key = "gather_facts" → value = .bool false) : (g.setSetting key value).Quiet :=
  get?_setSetting_of h hushed

theorem quiet_setSetting (g : HostGroup) :
    (g.setSetting "gather_facts" (.bool false)).Quiet := by
  rw [Quiet, HostGroup.setSetting, OrderedMap.get?_insert, if_pos rfl]

end HostGroup

namespace Session
variable {s t : Session} {n : Nat}

def QuietUpTo (n : Nat) (s : Session) : Prop :=
  ∀ id : GroupId, id.index < n → ∃ g, s.group? id = some g ∧ g.Quiet

/-- All host groups are quiet. -/
def AllQuiet (s : Session) : Prop := s.QuietUpTo s.groups.length

theorem allQuiet_iff : s.AllQuiet ↔ ∀ g ∈ s.groups, g.Quiet := by
  constructor
  · intro h g hg
    obtain ⟨i, hi, rfl⟩ := List.mem_iff_getElem.1 hg
    obtain ⟨g, hg, quiet⟩ := h ⟨i⟩ hi
    rw [group?, List.getElem?_eq_getElem hi] at hg
    exact Option.some.inj hg ▸ quiet
  · intro h id hid
    exact ⟨s.groups[id.index], List.getElem?_eq_getElem hid, h _ (List.getElem_mem hid)⟩

theorem QuietUpTo.of_groups (h : s.QuietUpTo n) (same : t.groups = s.groups) : t.QuietUpTo n := by
  simpa only [QuietUpTo, group?, same] using h

theorem QuietUpTo.map (h : s.QuietUpTo n) {f : HostGroup → HostGroup}
    (kept : ∀ g : HostGroup, g.Quiet → (f g).Quiet) :
    QuietUpTo n { s with groups := s.groups.map f } := fun id hid => by
  obtain ⟨g, hg, quiet⟩ := h id hid
  rw [group?] at hg
  exact ⟨f g, by simp [group?, hg], kept g quiet⟩

theorem QuietUpTo.modifyGroup (h : s.QuietUpTo n) (id : GroupId) {f : HostGroup → HostGroup}
    (kept : ∀ g : HostGroup, g.Quiet → (f g).Quiet) : (s.modifyGroup id f).QuietUpTo n :=
  fun j hj => by
    obtain ⟨g, hg, quiet⟩ := h j hj
    rw [group?_modifyGroup, hg]
    refine ⟨_, rfl, ?_⟩
    split
    · exact kept g quiet
    · exact quiet

theorem QuietUpTo.declareHosts (h : s.QuietUpTo n) {pattern : Option String} {settings : Attributes}
    {id : GroupId} (declared : s.declareHosts pattern settings = .ok (id, t)) :
    t.QuietUpTo n := fun j hj => by
  obtain ⟨p, a, added⟩ := addGroup_of_declareHosts declared
  obtain rfl : _ = t := congrArg Prod.snd added
  obtain ⟨g, hg, quiet⟩ := h j hj
  refine ⟨g, ?_, quiet⟩
  simp only [group?, addGroup] at hg ⊢
  rw [List.getElem?_append_left (List.getElem?_eq_some_iff.1 hg).1, hg]

end Session

open Session in
def quietLaw (n : Nat) : Law where
  fair := Entry.Hushed
  apt _ := True
  optimizes := True
  holds := QuietUpTo n

theorem sound_quietLaw (n : Nat) : (quietLaw n).Sound where
  still hs h := hs.of_groups h.groups
  hosts h hs := ⟨trivial, hs.declareHosts h⟩
  copied h _ hs := (hs.declareHosts h).modifyGroup _ fun _ quiet => quiet
  setSetting h hs := hs.modifyGroup _ fun _ quiet => quiet.setSetting fun same => by
    subst same
    exact h _ _ rfl
  setVar _ hs := hs.modifyGroup _ fun _ quiet => quiet
  bind {s id _} _ hs := Session.QuietUpTo.modifyGroup
    (hs.of_groups (t := s.modifyUnit id _) rfl) _ fun _ quiet => quiet
  enters _ := trivial
  enter _ hs := hs.of_groups rfl
  leave _ ht := ht.of_groups rfl
  permits _ _ _ := trivial
  pipeline _ _ _ _ ht := ht.of_groups rfl
  merge _ hs := hs.of_groups rfl
  skipFacts _ hs := hs.map fun _ _ => HostGroup.quiet_setSetting _

namespace Session
variable {s t : Session} {p q : Pass} {ps qs : List Pass}

/-- A pass of the pipeline has gathered facts. -/
def HasGathered (s : Session) : Prop := ∃ f, .facts f ∈ s.passes ∧ f.unit ≠ none

theorem allQuiet_gatheredBy (s : Session) (f : FactGathering) : (s.gatheredBy f).AllQuiet := by
  refine allQuiet_iff.2 fun g hg => ?_
  obtain ⟨h, -, rfl⟩ := List.mem_map.1 hg
  exact h.quiet_setSetting

theorem Passed.allQuiet (h : s.Passed p q t) (hs : s.AllQuiet) : t.AllQuiet := by
  cases h with
  | known => exact hs
  | gathers => exact allQuiet_gatheredBy s _
  | merges => exact QuietUpTo.of_groups hs rfl

theorem PassedAll.allQuiet (h : s.PassedAll ps qs t) (hs : s.AllQuiet) : t.AllQuiet := by
  induction h with
  | nil => exact hs
  | cons first _ ih => exact ih (first.allQuiet hs)

theorem PassedAll.allQuiet_of_ran (h : s.PassedAll ps qs t)
    (new : ∀ f, .facts f ∈ ps → f.unit = none) {f : FactGathering} (hf : .facts f ∈ qs)
    (ran : f.unit ≠ none) : t.AllQuiet := by
  induction h with
  | nil => cases hf
  | cons first rest ih =>
    rcases List.mem_cons.1 hf with rfl | hf
    · cases first with
      | known => exact absurd (new f (List.mem_cons_self ..)) ran
      | gathers => exact rest.allQuiet (allQuiet_gatheredBy _ _)
    · exact ih (fun f hf => new f (List.mem_cons_of_mem _ hf)) hf

end Session

namespace Exec
open Session
variable {call : Block → Exec Unit} {s : Session} {journal : List Entry}

theorem ends_plan_allQuiet (builtin : ∀ p ∈ s.passes, p.Builtin)
    (new : ∀ f, .facts f ∈ s.passes → f.unit = none) : (plan call).Ends ⟨s, journal⟩
      (fun _ b => b.session.HasGathered → b.session.AllQuiet)
      (fun _ b => b.session.HasGathered → b.session.AllQuiet) fun _ => True := by
  cases closed : s.scopes.guards.isEmpty with
  | false =>
    rw [ends_plan_of_open closed]
    rintro ⟨f, hf, ran⟩
    exact absurd (new f hf) ran
  | true =>
    have built : (buildGraph call).Ends ⟨s, journal⟩
        (fun _ b => b.session.HasGathered → b.session.AllQuiet)
        (fun _ b => b.session.HasGathered → b.session.AllQuiet) fun _ => True := by
      refine ends_buildGraph_of_closed (P := fun b => b.session.HasGathered → b.session.AllQuiet)
        closed ?_
      let entered : Scopes := { s.scopes with sessions := s.scopes.sessions.enter s.id }
      let start : Run := ⟨{ s with passes := [], scopes := entered }, journal⟩
      let out : Run := ⟨{ s with passes := [] }, journal⟩
      rcases runPasses_cases call (r := start) builtin rfl closed with
        ⟨qs, t, passed⟩ | ⟨before, stuck, qs, t, e, b, split, passed, ran, scopes, groups⟩
      · rw [ends_of_run (run_inSession (r := out)
          (run_runPasses_of_passed call rfl closed passed) passed.scopes_eq)]
        rintro ⟨f, hf, gathered⟩
        exact QuietUpTo.of_groups (passed.allQuiet_of_ran new hf gathered) rfl
      · rw [ends_of_run (run_inSession (r := out) ran scopes)]
        rintro ⟨f, hf, gathered⟩
        rw [split] at new
        have old : .facts f ∉ stuck := fun hf =>
          gathered (new f (List.mem_append_right _ hf))
        have quiet := passed.allQuiet_of_ran (fun f hf => new f (List.mem_append_left _ hf))
          ((List.mem_append.1 hf).resolve_right old) gathered
        rw [allQuiet_iff, ← groups] at quiet
        exact allQuiet_iff.2 quiet
    rw [plan, ends_bind]
    refine built.imp (fun g b hb => ?_) (fun _ _ h => h) fun _ h => h
    rw [ends_query]
    cases b.session.planOf g <;> exact hb

theorem run_of_run_settle {α : Type} {act : Exec α} {a : α} {r r' : Run}
    (h : (settle act).run r = .ok (.ok a) r') : act.run r = .ok a r' := by
  rw [run_eq_ok, ends_settle] at h
  exact run_eq_ok.2 (h.imp (fun _ _ hb => ⟨Except.ok.inj hb.1, hb.2⟩) (fun _ _ hb => nomatch hb.1)
    fun _ h => h)

end Exec

/-- Once the pass has gathered facts, the plays of that plan gather none of their own. So do those
of later plans, apart from plays for host groups that have been declared in the meantime. -/
theorem Session.plays_quiet {s : Session} (builtin : ∀ p ∈ s.passes, p.Builtin)
    (new : ∀ f, .facts f ∈ s.passes → f.unit = none) {call : Block → Exec Unit}
    {journal : List Entry} {result : Except Error Plan} {r : Run}
    (first : (Exec.settle (Exec.plan call)).run ⟨s, journal⟩ = .ok result r)
    (gathered : r.session.HasGathered) :
    (∀ p, result = .ok p → ∀ play ∈ p.plays, play.Quiet) ∧
      ∀ bound script t, (∀ e ∈ (r.session.run bound script).entries, e.Hushed) →
        t ∈ r.session.states bound script →
        ∀ p r', (Exec.plan (runWithin bound)).run ⟨t, []⟩ = .ok p r' →
          (∀ e ∈ r'.journal, e.Hushed) →
          ∀ play ∈ p.plays, play.Quiet ∨ ∃ id u j g, r'.session.unit? id = some u ∧
            j ∈ u.groups ∧ r'.session.group? j = some g ∧ play = Play.of g u ∧
            r.session.group? j = none := by
  have quiet : r.session.AllQuiet :=
    (Exec.ends_plan_allQuiet builtin new).of_concludes ⟨result, first⟩ gathered
  constructor
  · rintro p rfl play hplay
    obtain ⟨id, u, j, g, -, -, -, hg, rfl⟩ :=
      Exec.exists_of_mem_plays (Exec.run_of_run_settle first) play hplay
    exact Play.quiet_of (allQuiet_iff.1 quiet g (List.mem_of_getElem? hg)) u
  · intro bound script t hushed ht p r' planned silent play hplay
    have sound := sound_quietLaw r.session.groups.length
    obtain ⟨since, journal, kept⟩ :=
      (Exec.obeys_plan sound (Exec.obeys_runWithin_of sound trivial bound) trivial
        ⟨t, []⟩).of_ok planned
    rw [journal, List.append_nil] at silent
    have before := sound.holds_of_mem_states trivial (fun _ => trivial) quiet hushed ht
    have after : r'.session.QuietUpTo r.session.groups.length := (kept silent before).1
    obtain ⟨id, u, j, g, hu, -, hj, hg, rfl⟩ := Exec.exists_of_mem_plays planned play hplay
    by_cases old : j.index < r.session.groups.length
    · obtain ⟨g', hg', quiet⟩ := after j old
      obtain rfl := Option.some.inj (hg'.symm.trans hg)
      exact .inl (Play.quiet_of quiet u)
    · exact .inr ⟨id, u, j, g, hu, hj, hg, rfl, List.getElem?_eq_none (Nat.le_of_not_lt old)⟩

def webScript : Block :=
  [.declare (.new "deploy" [.step "command" (.text "one") 1 []]),
    .enter [.withHosts (some "web") .empty [.invoke ⟨0⟩]]]

def dbScript : Block := [.enter [.withHosts (some "db") .empty [.invoke ⟨0⟩]]]

def gathering : Settings := ⟨false, .bundle, none, [⟨"fact_gathering", .empty⟩]⟩

theorem new_gathering : Session.new gathering = .ok (.initial gathering [.facts .new]) := rfl

def Entry.setsNothing (e : Entry) : Bool :=
  match e.statement with
  | .setSetting .. => false
  | _ => true

theorem hushed_of_all {entries : List Entry} (h : entries.all Entry.setsNothing = true) :
    ∀ e ∈ entries, e.Hushed := fun e he id value same => by
  have told := List.all_eq_true.1 h e he
  rw [Entry.setsNothing, same] at told
  cases told

theorem plays_quiet_gathering :
    ∃ p r p' r', (Exec.settle (Exec.plan (runWithin 4))).run
        ⟨(Session.initial gathering [.facts .new]).after 4 webScript, []⟩ = .ok (.ok p) r ∧
      p.plays.map Play.hosts = ["all", "web"] ∧ (∀ play ∈ p.plays, play.Quiet) ∧
      (Exec.plan (runWithin 4)).run ⟨r.session.after 4 dbScript, []⟩ = .ok p' r' ∧
      p'.plays.map Play.hosts = ["all", "web", "db"] ∧
      ∀ play ∈ p'.plays, play.Quiet ∨ ∃ id u j g, r'.session.unit? id = some u ∧
        j ∈ u.groups ∧ r'.session.group? j = some g ∧ play = Play.of g u ∧
        r.session.group? j = none := by
  have builtin : ∀ q ∈ ((Session.initial gathering [.facts .new]).after 4 webScript).passes,
      q.Builtin := by decide +kernel
  have fresh : ∀ q ∈ ((Session.initial gathering [.facts .new]).after 4 webScript).passes,
      q = .facts .new := by decide +kernel
  have checked : ((Exec.plan (runWithin 4)).result?
      ⟨(Session.initial gathering [.facts .new]).after 4 webScript, []⟩).bind (fun x =>
        ((Exec.plan (runWithin 4)).result? ⟨x.2.session.after 4 dbScript, []⟩).map fun y =>
          (x.1.plays.map Play.hosts, y.1.plays.map Play.hosts,
            decide (∃ q ∈ x.2.session.passes, q = .facts ⟨"all", true, some ⟨1⟩⟩),
            (x.2.session.run 4 dbScript).entries.all Entry.setsNothing, y.2.journal.isEmpty)) =
      some (["all", "web"], ["all", "web", "db"], true, true, true) := by decide +kernel
  obtain ⟨⟨p, r⟩, first, checked⟩ := Option.bind_eq_some_iff.1 checked
  obtain ⟨⟨p', r'⟩, later, checked⟩ := Option.map_eq_some_iff.1 checked
  simp only [Prod.mk.injEq, decide_eq_true_eq, List.isEmpty_iff] at checked
  obtain ⟨hosts, hosts', ⟨_, ran, rfl⟩, hushed, silent⟩ := checked
  have first := Exec.run_settle_of_result? first
  have later := Exec.result?_eq_some.1 later
  obtain ⟨quiet, rest⟩ := Session.plays_quiet builtin
    (fun f hf => (Pass.facts.inj (fresh _ hf)) ▸ rfl) first ⟨_, ran, by simp⟩
  exact ⟨p, r, p', r', first, hosts, quiet p rfl, later, hosts',
    rest 4 dbScript _ (hushed_of_all hushed) (Session.after_mem_states ..) p' r' later
      (by simp [silent])⟩

/-- Groups declared after the first plan gather facts of their own. -/
theorem not_forall_quiet : ¬ ∀ settings start bound script, Session.new settings = .ok start →
    (∃ f, .facts f ∈ start.passes) → (∀ e ∈ (start.run bound script).entries, e.Hushed) →
      ∀ s p, ⟨.plan .plays, s, .ok (.plan p)⟩ ∈ (start.run bound script).entries →
        ∀ play ∈ p.plays, play.Quiet := by
  intro all
  let script : Block := webScript ++ [.plan .plays] ++ dbScript ++ [.plan .plays]
  have hushed : ((Session.initial gathering [.facts .new]).run 4 script).entries.all
      Entry.setsNothing = true := by decide +kernel
  have loud : ((Session.initial gathering [.facts .new]).run 4 script).entries.any (fun e =>
      e.plan?.any fun p => p.plays.any fun play => (play.settings.get? "gather_facts").isNone) =
        true := by decide +kernel
  obtain ⟨⟨statement, s, outcome⟩, he, loud⟩ := List.any_eq_true.1 loud
  obtain ⟨p, answered, loud⟩ := (Option.any_eq_true _ _).1 loud
  obtain ⟨rfl, rfl⟩ := Entry.plan?_eq_some.1 answered
  obtain ⟨play, hplay, loud⟩ := List.any_eq_true.1 loud
  have quiet := all gathering _ 4 script new_gathering ⟨.new, List.mem_cons_self ..⟩
    (hushed_of_all hushed) s p he play hplay
  rw [Play.Quiet] at quiet
  simp [quiet] at loud

end Playbook
