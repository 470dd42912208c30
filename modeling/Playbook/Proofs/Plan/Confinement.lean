import Playbook.Proofs.Plan.Instantiation
import Playbook.Proofs.Plan.Silence
import Playbook.Proofs.Session.Calling
import Playbook.Proofs.Session.Persistence

/-! Runs that stay on this machine. There are several ways to declare a host group, and with
`localhostOnly` each of them aims the group at this machine and lets it connect locally. Neither a
unit nor a plan undoes that. -/

namespace Playbook

/-- The statement does not let a host group connect in another way than locally. -/
def Entry.Unplugged (e : Entry) : Prop :=
  ∀ id value, e.statement = .setSetting id "connection" value → value = .text "local"

theorem Play.eq_of_mem_fields {g : HostGroup} {u : WorkUnit} {v : Value}
    (h : ("hosts", v) ∈ (of g u).fields) : v = .text (of g u).hosts := by
  have reserved : ("hosts", v) ∉ (of g u).settings.entries := by
    rw [of, OrderedMap.entries_filterKeys, List.mem_filter]
    simp [Play.reserved]
  simpa [fields, reserved] using h

namespace Session
variable {s t : Session}

/-- Everything stays on this machine, and all host groups connect locally. -/
structure ConnectsLocally (s : Session) : Prop where
  home : s.settings.localhostOnly = true
  groups : ∀ g ∈ s.groups, g.settings.get? "connection" = some (.text "local")

namespace ConnectsLocally

theorem of_eq (h : s.ConnectsLocally) (settings : t.settings = s.settings)
    (groups : t.groups = s.groups) : t.ConnectsLocally :=
  ⟨settings ▸ h.home, groups ▸ h.groups⟩

theorem map (h : s.ConnectsLocally) {f : HostGroup → HostGroup}
    (kept : ∀ g : HostGroup, g.settings.get? "connection" = some (.text "local") →
      (f g).settings.get? "connection" = some (.text "local")) :
    ConnectsLocally { s with groups := s.groups.map f } := by
  refine ⟨h.home, fun g hg => ?_⟩
  obtain ⟨old, hold, rfl⟩ := List.mem_map.1 hg
  exact kept old (h.groups old hold)

theorem modifyGroup (h : s.ConnectsLocally) (id : GroupId) {f : HostGroup → HostGroup}
    (kept : ∀ g : HostGroup, g.settings.get? "connection" = some (.text "local") →
      (f g).settings.get? "connection" = some (.text "local")) :
    (s.modifyGroup id f).ConnectsLocally := by
  refine ⟨h.home, fun g hg => ?_⟩
  obtain ⟨j, hj⟩ := List.getElem?_of_mem hg
  have hj : (s.modifyGroup id f).group? ⟨j⟩ = some g := hj
  rw [group?_modifyGroup] at hj
  obtain ⟨old, known, rfl⟩ := Option.map_eq_some_iff.1 hj
  have connects := h.groups old (List.mem_of_getElem? known)
  split
  · exact kept old connects
  · exact connects

theorem declareHosts (h : s.ConnectsLocally) {pattern : Option String} {settings : Attributes}
    {id : GroupId} (declared : s.declareHosts pattern settings = .ok (id, t)) :
    t.ConnectsLocally := by
  rcases declareHosts_cases declared with ⟨-, e⟩ | ⟨away, -⟩
  · obtain rfl := congrArg Prod.snd e
    refine ⟨h.home, fun g hg => ?_⟩
    rcases List.mem_append.1 hg with hg | hg
    · exact h.groups g hg
    · rw [List.mem_singleton.1 hg, OrderedMap.get?_insert, if_pos rfl]
  · exact absurd (away.symm.trans h.home) (by decide)

end ConnectsLocally
end Session

open Session in
def localLaw : Law where
  fair := Entry.Unplugged
  apt _ := True
  optimizes := True
  holds := ConnectsLocally

theorem sound_localLaw : localLaw.Sound where
  still hs h := hs.of_eq h.settings h.groups
  hosts h hs := ⟨trivial, hs.declareHosts h⟩
  copied h _ hs := (hs.declareHosts h).modifyGroup _ fun _ connects => connects
  setSetting h hs := hs.modifyGroup _ fun _ connects =>
    HostGroup.get?_setSetting_of connects fun same => by
      subst same
      exact h _ _ rfl
  setVar _ hs := hs.modifyGroup _ fun _ connects => connects
  bind {s id _} _ hs := Session.ConnectsLocally.modifyGroup
    (hs.of_eq (t := s.modifyUnit id _) rfl rfl) _ fun _ connects => connects
  enters _ := trivial
  enter _ hs := hs.of_eq rfl rfl
  leave _ ht := ht.of_eq rfl rfl
  permits _ _ _ := trivial
  pipeline _ _ _ _ ht := ht.of_eq rfl rfl
  merge _ hs := hs.of_eq rfl rfl
  skipFacts _ hs := hs.map fun _ connects =>
    HostGroup.get?_setSetting_of connects fun same => absurd same (by decide)

theorem Session.plans_of_mem_entries {settings : Settings} {passes : List Pass} {bound : Nat}
    {script : Block} {e : Entry} (he : e ∈ ((initial settings passes).run bound script).entries)
    {form : PlanForm} {answer : Answer} (statement : e.statement = .plan form)
    (outcome : e.outcome = .ok answer) :
    ∃ p, Exec.planAnswer form p = .ok answer ∧ e.session.Plans p := by
  have sheltered := sheltered_initial settings passes
  obtain ⟨same, r, story, entries⟩ :=
    Traced.run_told (initial settings passes) bound script sheltered
  rw [← same] at he
  have told : e ∈ r.journal := by
    rw [← List.mem_reverse, ← entries]
    exact List.mem_of_mem_filter he
  have accounts := story.accounts fun _ he => absurd he List.not_mem_nil
  exact (accounts e told).planned form answer statement outcome

/-- Whatever a script does with `localhostOnly`, all plays of its plans run on this machine. They
connect locally, unless a statement has set the connection of a host group to something else. -/
theorem Session.plans_confined {settings : Settings} (home : settings.localhostOnly = true)
    (passes : List Pass) (bound : Nat) (script : Block) {e : Entry}
    (he : e ∈ ((initial settings passes).run bound script).entries) {form : PlanForm}
    {answer : Answer} (statement : e.statement = .plan form) (outcome : e.outcome = .ok answer) :
    (∃ p, Exec.planAnswer form p = .ok answer ∧ e.session.Plans p) ∧
      ∀ p, e.session.Plans p → ∀ play ∈ p.plays,
        play.hosts = "localhost" ∧ (∀ v, ("hosts", v) ∈ play.fields → v = .text "localhost") ∧
        ((∀ x ∈ ((initial settings passes).run bound script).entries, x.Unplugged) →
          play.settings.get? "connection" = some (.text "local")) := by
  refine ⟨plans_of_mem_entries he statement outcome, ?_⟩
  have visited : e.session ∈ (initial settings passes).states bound script :=
    List.mem_cons_of_mem _ (List.mem_map_of_mem he)
  obtain ⟨r, trail, reached⟩ := exists_trail_of_mem_states visited
  have moves : (initial settings passes).Moves e.session := reached ▸ trail.path.moves
  have stays : e.session.settings.localhostOnly = true := by
    rw [moves.persists.settings]
    exact home
  rintro p ⟨g, edges, -, planned⟩ play hplay
  obtain ⟨id, u, j, group, hu, -, hj, hgroup, rfl⟩ := exists_of_planOf planned play hplay
  have hosts : (Play.of group u).hosts = "localhost" :=
    Arises.homebound ⟨settings, passes, moves⟩ stays j group hgroup
  refine ⟨hosts, fun v hv => hosts ▸ Play.eq_of_mem_fields hv, fun unplugged => ?_⟩
  have connects := sound_localLaw.holds_of_mem_states trivial (fun _ => trivial)
    (s := initial settings passes) ⟨home, fun _ hg => absurd hg List.not_mem_nil⟩ unplugged visited
  exact Play.get?_of (by decide) (connects.groups group (List.mem_of_getElem? hgroup)) u

def Entry.keepsConnection (e : Entry) : Bool :=
  match e.statement with
  | .setSetting _ key _ => key ≠ "connection"
  | _ => true

theorem Entry.unplugged_of_keepsConnection {e : Entry} (h : e.keepsConnection = true) :
    e.Unplugged := fun id value same => by
  rw [keepsConnection, same] at h
  exact absurd rfl (of_decide_eq_true h)

/-- A unit whose plays would go elsewhere, a host group for other machines, and a runbook that is
instantiated under it. -/
def remoteScript : Block :=
  [.declare { Declaration.new "deploy" [.step "command" (.text "one") 1 [], .instantiate ⟨0⟩ .empty]
      with playSettings := .ofList [("hosts", .text "db"), ("connection", .text "ssh")] },
    .runbook "base" [.new "install" [.step "command" (.text "two") 1 []]] none,
    .enter [.withHosts (some "web") (.ofList [("connection", .text "ssh")])
      [.setSetting ⟨0⟩ "serial" (.integer 1), .invoke ⟨0⟩]],
    .plan .plays]

def remotePasses : List Pass := [.facts { FactGathering.new with hosts := "db" }, .merging .new]

theorem plans_confined_remoteScript :
    ∃ e p, e ∈ ((Session.initial ⟨true, .bundle, none, []⟩ remotePasses).run 5
        remoteScript).entries ∧ e.outcome = .ok (.plan p) ∧
      p.plays.map Play.name = ["gather_facts_once", "deploy", "base.install"] ∧
      ∀ play ∈ p.plays, play.hosts = "localhost" ∧
        play.settings.get? "connection" = some (.text "local") := by
  have planned : (((Session.initial ⟨true, .bundle, none, []⟩ remotePasses).run 5
      remoteScript).entries.getLast?.bind Entry.plan?).map (fun p => p.plays.map Play.name) =
        some ["gather_facts_once", "deploy", "base.install"] := by decide +kernel
  have unplugged : ((Session.initial ⟨true, .bundle, none, []⟩ remotePasses).run 5
      remoteScript).entries.all Entry.keepsConnection = true := by decide +kernel
  obtain ⟨p, answered, names⟩ := Option.map_eq_some_iff.1 planned
  obtain ⟨e, last, answered⟩ := Option.bind_eq_some_iff.1 answered
  obtain ⟨statement, outcome⟩ := Entry.plan?_eq_some.1 answered
  have told := List.mem_of_getLast? last
  obtain ⟨⟨p', answered, plans⟩, confined⟩ :=
    Session.plans_confined rfl remotePasses 5 remoteScript told statement outcome
  obtain rfl : p' = p := by cases answered; rfl
  refine ⟨e, p', told, outcome, names, fun play hplay => ?_⟩
  obtain ⟨hosts, -, connects⟩ := confined p' plans play hplay
  exact ⟨hosts, connects fun x hx =>
    Entry.unplugged_of_keepsConnection (List.all_eq_true.1 unplugged x hx)⟩

end Playbook
