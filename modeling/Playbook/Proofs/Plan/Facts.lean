import Playbook.Proofs.Plan.Pipeline
import Playbook.Proofs.Plan.Rooting
import Playbook.Proofs.Session.Invocation

/-! Gathering facts refines the plan. The pass adds one unit with one step, in a host group of its
own, and puts it before all roots; the plays that a session has without the pass follow it as they
are, but for one setting. -/

namespace Playbook

theorem mapM_map_ok {ε α β : Type} {f f' : α → Except ε β} {h : β → β}
    (hf : ∀ a b, f a = .ok b → f' a = .ok (h b)) {l : List α} {bs : List β}
    (hl : l.mapM f = .ok bs) : l.mapM f' = .ok (bs.map h) := by
  induction l generalizing bs with
  | nil =>
    obtain rfl : [] = bs := Except.ok.inj hl
    rfl
  | cons a l ih =>
    rw [List.mapM_cons] at hl
    obtain ⟨b, hb, hl⟩ := bind_eq_ok.1 hl
    obtain ⟨bs', hbs, hl⟩ := bind_eq_ok.1 hl
    obtain rfl := Except.ok.inj hl
    rw [List.mapM_cons, hf a b hb, ih hbs]
    rfl

theorem foldlM_mono {ε α β : Type} {f f' : β → α → Except ε β}
    (hf : ∀ b a c, f b a = .ok c → f' b a = .ok c) {l : List α} {b c : β}
    (h : l.foldlM f b = .ok c) : l.foldlM f' b = .ok c := by
  induction l generalizing b with
  | nil => exact h
  | cons a l ih =>
    rw [List.foldlM_cons] at h
    obtain ⟨b', hb, h⟩ := bind_eq_ok.1 h
    rw [List.foldlM_cons, hf b a b' hb]
    exact ih h

theorem modify_length_append {α : Type} (l : List α) (a : α) (f : α → α) :
    (l ++ [a]).modify l.length f = l ++ [f a] := by
  induction l with
  | nil => rfl
  | cons b l ih => simpa using ih

namespace Play

/-- The play with one of its settings replaced, or added behind the others. -/
def setSetting (p : Play) (key : String) (value : Value) : Play :=
  { p with settings := p.settings.insert key value }

theorem of_setSetting (group : HostGroup) (unit : WorkUnit) {key : String} (value : Value)
    (free : key ∉ reserved) :
    of (group.setSetting key value) unit = (of group unit).setSetting key value := by
  simp only [of, setSetting, HostGroup.setSetting, OrderedMap.overlay_insert]
  rw [OrderedMap.filterKeys_insert _ _ (by simpa using free)]

def withoutFacts (p : Play) : Play := p.setSetting "gather_facts" (.bool false)

end Play

namespace Session
variable {s t : Session} {g : Graph UnitId} {id : UnitId} {p : Plan}

def factsStep (s : Session) : Step where
  action := "setup"
  args := .text ""
  settings := .ofList [("register", .text (registerName s.nextRegister)),
    ("tags", .texts [FactGathering.unitName])]
  vars := .empty
  register := registerName s.nextRegister
  group := some ⟨s.groups.length⟩

def factsGroup (s : Session) : HostGroup where
  id := ⟨s.groups.length⟩
  pattern := if s.settings.localhostOnly then localhost else "all"
  settings :=
    let become : Attributes := .ofList [("become", .bool true)]
    if s.settings.localhostOnly then become.insert "connection" (.text "local") else become
  vars := .empty
  members := .ofList [⟨s.units.length⟩]

def factsUnit (s : Session) : WorkUnit where
  id := ⟨s.units.length⟩
  name := FactGathering.unitName
  body := .step "setup" (.text "")
  groups := [⟨s.groups.length⟩]
  steps := [s.factsStep]
  before := .empty
  after := .empty
  stepSettings := .empty
  playSettings := .empty
  vars := .empty
  invocations := 1

def factsDone (s : Session) : FactGathering :=
  { FactGathering.new with unit := some s.factsUnit.id }

def gathered (s : Session) : Session :=
  { s with
    units := s.units ++ [s.factsUnit]
    groups := (s.groups ++ [s.factsGroup]).map (·.setSetting "gather_facts" (.bool false))
    nextRegister := s.nextRegister + 1 }

def factsGroupBy (s : Session) (f : FactGathering) : HostGroup where
  id := ⟨s.groups.length⟩
  pattern := if s.settings.localhostOnly then localhost else f.hosts
  settings :=
    let become : Attributes := .ofList [("become", .bool f.becomeRoot)]
    if s.settings.localhostOnly then become.insert "connection" (.text "local") else become
  vars := .empty
  members := .ofList [⟨s.units.length⟩]

def gatheredBy (s : Session) (f : FactGathering) : Session :=
  { s with
    units := s.units ++ [s.factsUnit]
    groups := (s.groups ++ [s.factsGroupBy f]).map (·.setSetting "gather_facts" (.bool false))
    nextRegister := s.nextRegister + 1 }

theorem unit?_gathered {u : WorkUnit} (h : s.unit? id = some u) :
    s.gathered.unit? id = some u := by
  simp only [unit?, gathered] at h ⊢
  rw [List.getElem?_append_left (List.getElem?_eq_some_iff.1 h).1, h]

theorem unit?_gathered_last : s.gathered.unit? s.factsUnit.id = some s.factsUnit := by
  simp [unit?, gathered, factsUnit]

theorem group?_gathered {j : GroupId} {group : HostGroup} (h : s.group? j = some group) :
    s.gathered.group? j = some (group.setSetting "gather_facts" (.bool false)) := by
  simp only [group?, gathered, List.getElem?_map] at h ⊢
  rw [List.getElem?_append_left (List.getElem?_eq_some_iff.1 h).1, h]
  rfl

theorem group?_gathered_last : s.gathered.group? s.factsGroup.id =
    some (s.factsGroup.setSetting "gather_facts" (.bool false)) := by
  simp [group?, gathered, factsGroup]

theorem boundUnits_gathered : s.gathered.boundUnits = s.boundUnits ++ [s.factsUnit.id] := by
  simp only [boundUnits, gathered, List.flatMap_map, List.flatMap_append]
  rfl

theorem addConstraints_gathered {g' : Graph UnitId} (h : s.addConstraints g id = .ok g') :
    s.gathered.addConstraints g id = .ok g' := by
  have referent (u : WorkUnit) (ref : UnitRef) (a : UnitId) (h : s.referent u ref = .ok a) :
      s.gathered.referent u ref = .ok a := by
    obtain ⟨rfl, v, hv⟩ := referent_eq_ok h
    simp only [Session.referent, getUnit, unit?_gathered hv]
    rfl
  have connect (g : Graph UnitId) (a b : UnitId) (c : Graph UnitId)
      (h : s.connect g a b = .ok c) : s.gathered.connect g a b = .ok c :=
    connect_eq_ok_iff.2 (connect_eq_ok_iff.1 h)
  obtain ⟨u, hu, h⟩ := bind_eq_ok.1 h
  obtain ⟨g₁, before, after⟩ := bind_eq_ok.1 h
  refine bind_eq_ok.2 ⟨u, getUnit_eq_ok.2 (unit?_gathered (getUnit_eq_ok.1 hu)),
    bind_eq_ok.2 ⟨g₁, foldlM_mono (fun g ref c h => ?_) before,
      foldlM_mono (fun g ref c h => ?_) after⟩⟩
  · obtain ⟨a, ha, h⟩ := bind_eq_ok.1 h
    exact bind_eq_ok.2 ⟨a, referent u ref a ha, connect g id a c h⟩
  · obtain ⟨a, ha, h⟩ := bind_eq_ok.1 h
    exact bind_eq_ok.2 ⟨a, referent u ref a ha, connect g a id c h⟩

theorem dependencyGraph_gathered (h : s.dependencyGraph = .ok g) :
    s.gathered.dependencyGraph = .ok (g.addNode s.factsUnit.id) := by
  rw [dependencyGraph, boundUnits_gathered, List.foldlM_append,
    foldlM_mono (fun _ _ _ => addConstraints_gathered) h]
  simp only [List.foldlM_cons, List.foldlM_nil]
  simp only [addConstraints, getUnit, unit?_gathered_last]
  rfl

theorem declared_of_planOf (h : s.planOf g = .ok p) (hid : id ∈ g.nodes) :
    ∃ u, s.unit? id = some u := by
  obtain ⟨order, sorted, all, -⟩ := planOf_eq_ok.1 h
  obtain ⟨_, hid⟩ := all id (((Graph.sort_eq_ok sorted).mem_iff id).2 hid)
  exact (playsOf_eq_ok hid).2

theorem factsUnit_fresh (h : s.planOf g = .ok p) : s.factsUnit.id ∉ g.nodes := by
  intro hid
  obtain ⟨u, hu⟩ := declared_of_planOf h hid
  simp [unit?, factsUnit] at hu

theorem closed_of_dependencyGraph (h : s.dependencyGraph = .ok g) : g.Closed := by
  obtain ⟨edges, nodes⟩ := dependencyGraph_eq_ok h
  exact fun a b edge => (nodes b).2 (.inr ⟨a, .inr ((edges a b).1 edge)⟩)

theorem playsOf_gathered {plays : List Play} (h : s.playsOf id = .ok plays) :
    s.gathered.playsOf id = .ok (plays.map Play.withoutFacts) := by
  obtain ⟨u, hu, h⟩ := bind_eq_ok.1 h
  refine bind_eq_ok.2 ⟨u, getUnit_eq_ok.2 (unit?_gathered (getUnit_eq_ok.1 hu)), ?_⟩
  split
  · rename_i none
    rw [if_pos none] at h
    obtain rfl : [] = plays := Except.ok.inj h
    rfl
  · rename_i some
    rw [if_neg some] at h
    refine mapM_map_ok (fun j q hq => ?_) h
    obtain ⟨group, hg, hq⟩ := bind_eq_ok.1 hq
    obtain rfl : Play.of group u = q := Except.ok.inj hq
    refine bind_eq_ok.2 ⟨_, getGroup_eq_ok.2 (group?_gathered (getGroup_eq_ok.1 hg)), ?_⟩
    exact congrArg Except.ok (Play.of_setSetting group u _ (by decide))

/-- The play of the unit that gathers facts. -/
def factsPlay (s : Session) : Play :=
  (Play.of s.factsGroup s.factsUnit).withoutFacts

theorem steps_factsPlay : s.factsPlay.steps = [s.factsStep.render .empty] := by
  have own : s.factsStep.group = some s.factsGroup.id := rfl
  simp [factsPlay, Play.withoutFacts, Play.setSetting, Play.of, WorkUnit.stepsFor, factsUnit, own]

theorem get?_factsStep (key : String) : (s.factsStep.render .empty).get? key =
    if key = "name" then some (.text s.factsStep.label)
    else if key = "setup" then some (.text "")
    else s.factsStep.settings.get? key := by
  have overlaid : (OrderedMap.empty : Attributes).overlay s.factsStep.settings =
      s.factsStep.settings := rfl
  have none : s.factsStep.vars.isEmpty = true := rfl
  simp only [Step.render, overlaid, none, if_true, OrderedMap.get?_insert]
  rfl

theorem playsOf_gathered_last : s.gathered.playsOf s.factsUnit.id = .ok [s.factsPlay] := by
  have free : "gather_facts" ∉ Play.reserved := by decide
  have group : s.gathered.getGroup ⟨s.groups.length⟩ =
      .ok (s.factsGroup.setSetting "gather_facts" (.bool false)) :=
    getGroup_eq_ok.2 group?_gathered_last
  rw [factsPlay, Play.withoutFacts, ← Play.of_setSetting _ _ _ free]
  simp only [playsOf, getUnit_eq_ok.2 unit?_gathered_last]
  simp only [factsUnit, group, bind, Except.bind, List.isEmpty_cons, List.mapM_cons, List.mapM_nil]
  rfl

theorem planOf_gathered (closed : g.Closed) (h : s.planOf g = .ok p) :
    s.gathered.planOf ((g.addNode s.factsUnit.id).anchor s.factsUnit.id) =
      .ok ⟨s.factsPlay :: p.plays.map Play.withoutFacts⟩ := by
  have fresh := factsUnit_fresh h
  obtain ⟨order, sorted, all, e⟩ := planOf_eq_ok.1 h
  have first : s.gathered.playsFor s.factsUnit.id = [s.factsPlay] :=
    (playsOf_eq_ok playsOf_gathered_last).1.symm
  have others : order.flatMap s.gathered.playsFor =
      order.flatMap fun id => (s.playsFor id).map Play.withoutFacts :=
    List.flatMap_congr fun id hid => by
      obtain ⟨ps, hps⟩ := all id hid
      rw [← (playsOf_eq_ok hps).1, (playsOf_eq_ok (playsOf_gathered hps)).1]
  refine planOf_eq_ok.2 ⟨_, Graph.sort_anchor closed fresh sorted, ?_, ?_⟩
  · refine List.forall_mem_cons.2 ⟨⟨_, playsOf_gathered_last⟩, fun id hid => ?_⟩
    obtain ⟨ps, hps⟩ := all id hid
    exact ⟨_, playsOf_gathered hps⟩
  · rw [List.flatMap_cons, first, others, e, List.map_flatMap]
    rfl

theorem planned_gathered (h : s.planned [] = .ok p) : s.gathered.planned [.facts s.factsDone] =
    .ok ⟨s.factsPlay :: p.plays.map Play.withoutFacts⟩ := by
  obtain ⟨g, graph, plan⟩ := bind_eq_ok.1 h
  have closed := closed_of_dependencyGraph graph
  have fresh := factsUnit_fresh plan
  obtain ⟨order, sorted, -⟩ := planOf_eq_ok.1 plan
  have sound : (g.addNode s.factsUnit.id).Sound :=
    Graph.Sound.addNode ⟨closed, Graph.Acyclic.of_sort sorted⟩ s.factsUnit.id
  have source (x : UnitId) : ¬ (g.addNode s.factsUnit.id).Edge x s.factsUnit.id := by
    rw [Graph.edge_addNode]
    exact Graph.not_edge_to_fresh closed fresh x
  rw [planned, dependencyGraph_gathered graph]
  refine bind_eq_ok.2 ⟨_, rfl, bind_eq_ok.2 ⟨_, ?_, planOf_gathered closed plan⟩⟩
  rw [List.foldlM_cons, (refine_facts_eq_ok sound.acyclic rfl).2 ⟨source, rfl⟩]
  rfl

end Session

namespace Exec
open Session
variable {call : Block → Exec Unit} {r : Run} {failed : Error → Run → Prop} {stopped : Run → Prop}

theorem declareHosts_eq_ok {s : Session} {pattern : String} {settings : Attributes}
    (active : s.isActive = true)
    (hosts : s.settings.localhostOnly = true ∨ Text.isBlank pattern = false) :
    s.declareHosts (some pattern) settings = .ok
      (if s.settings.localhostOnly then
        s.addGroup localhost (settings.insert "connection" (.text "local"))
      else s.addGroup pattern settings) := by
  cases local? : s.settings.localhostOnly with
  | true => simp [declareHosts, active, local?]
  | false => simp [declareHosts, active, local?, hosts.resolve_left (by simp [local?])]

theorem Ends.gatherFacts {f : FactGathering} {done : FactGathering → Run → Prop}
    (new : f.unit = none) (active : r.session.isActive = true)
    (closed : r.session.scopes.guards.isEmpty = true)
    (hosts : r.session.settings.localhostOnly = true ∨ Text.isBlank f.hosts = false)
    (h : done { f with unit := some r.session.factsUnit.id }
      (r.on (r.session.gatheredBy f))) :
    (Exec.gatherFacts call f).Ends r done failed stopped := by
  obtain ⟨s, journal⟩ := r
  let u : WorkUnit := { s.factsUnit with groups := [], steps := [], invocations := 0 }
  let g : HostGroup := { s.factsGroupBy f with members := .empty }
  let t : Session := { s with units := s.units ++ [u] }
  have hosts : t.declareHosts (some f.hosts) (.ofList [("become", .bool f.becomeRoot)]) =
      .ok (g.id, { t with groups := t.groups ++ [g] }) := by
    rw [declareHosts_eq_ok (s := t) active hosts]
    cases local? : s.settings.localhostOnly <;> simp [t, g, local?, addGroup, factsGroupBy]
  rw [Exec.gatherFacts, if_neg (by simp [new]), ends_bind, ends_apply, ends_bind]
  refine Ends.withHosts_ok hosts (g := g) (by simp [t, g, group?, factsGroupBy]) ?_
  have declared : (s.units ++ [u])[s.units.length]? = some u := by simp
  refine Ends.invoke_step (u := u) declared rfl rfl ⟨s.scopes, rfl, ?_⟩
  let v : Session := { t with
    groups := t.groups ++ [g]
    scopes := { t.scopes with hostGroups := t.scopes.hostGroups.enter g.id } }
  have step : v.freshStep u "setup" (.text "") = s.factsStep := by
    have name : WorkUnit.lastSegment FactGathering.unitName = FactGathering.unitName := by decide
    have none : v.scopes.guards.toList.isEmpty = true := (List.isEmpty_reverse ..).trans closed
    simp only [freshStep, WorkUnit.newStep, none, if_true, WorkUnit.shortName]
    simp only [u, factsUnit, name]
    rfl
  have units : t.units.modify s.units.length
      (fun w => (w.bind g.id).record (v.freshStep u "setup" (.text ""))) =
      s.units ++ [s.factsUnit] := by
    rw [step]
    exact modify_length_append ..
  have groups : v.groups.modify s.groups.length (·.addMember s.factsUnit.id) =
      s.groups ++ [s.factsGroupBy f] := modify_length_append ..
  rw [gatheredBy, ← units, ← groups] at h
  exact h

theorem plan_eq_ok_of_facts {s : Session} {journal : List Entry} {p : Plan} :
    (plan call).run ⟨{ s with passes := [.facts .new] }, journal⟩ = .ok p r ↔
      s.scopes.guards.isEmpty = true ∧ s.gathered.planned [.facts s.factsDone] = .ok p ∧
        r = ⟨{ s.gathered with passes := [.facts s.factsDone] }, journal⟩ := by
  refine plan_eq_ok (t := gathered { s with passes := [] }) fun closed => ?_
  rw [run_eq_ok, inSession, ends_bind, ends_session]
  refine Ends.within_ok ?_
  simp only [runPasses, runPass, ends_bind, ends_settle]
  have somewhere : Text.isBlank FactGathering.new.hosts = false := by decide
  refine Ends.gatherFacts rfl rfl closed (.inr somewhere) ?_
  exact ⟨s.scopes, rfl, rfl, rfl⟩

end Exec

/-- With the pass, the plan is the plan without it behind one play more, with one setting changed
in every play. -/
theorem Session.plan_facts {s : Session} {call : Block → Exec Unit} {journal : List Entry}
    {p : Plan} {r : Run}
    (h : (Exec.plan call).run ⟨{ s with passes := [] }, journal⟩ = .ok p r) :
    ∃ first r', (Exec.plan call).run ⟨{ s with passes := [.facts .new] }, journal⟩ =
        .ok ⟨first :: p.plays.map (·.setSetting "gather_facts" (.bool false))⟩ r' ∧
      first.name = "gather_facts_once" ∧
      first.hosts = (if s.settings.localhostOnly then "localhost" else "all") ∧
      ∃ step, first.steps = [step] ∧ step.get? "setup" = some (.text "") ∧
        step.get? "when" = none := by
  obtain ⟨closed, planned, -⟩ := Exec.plan_eq_ok_of_empty.1 h
  have run : (Exec.plan call).run ⟨{ s with passes := [.facts .new] }, journal⟩ =
      .ok ⟨s.factsPlay :: p.plays.map Play.withoutFacts⟩ _ :=
    Exec.plan_eq_ok_of_facts.2 ⟨closed, planned_gathered planned, rfl⟩
  refine ⟨s.factsPlay, _, run, rfl, rfl, _, steps_factsPlay, ?_, ?_⟩
  · rw [get?_factsStep]
    rfl
  · rw [get?_factsStep]
    rfl

theorem plan_facts_waitingScript :
    ∃ p r first r', (Exec.plan (runWithin 3)).run ⟨{ (Session.initial ⟨false, .bundle, none, []⟩
        []).after 4 waitingScript with passes := [] }, []⟩ = .ok p r ∧
      p.plays.map Play.name = ["db", "app"] ∧
      (Exec.plan (runWithin 3)).run ⟨{ (Session.initial ⟨false, .bundle, none, []⟩
        []).after 4 waitingScript with passes := [.facts .new] }, []⟩ =
          .ok ⟨first :: p.plays.map (·.setSetting "gather_facts" (.bool false))⟩ r' ∧
      first.hosts = "all" := by
  have names : (match (Exec.plan (runWithin 3)).run ⟨{ (Session.initial ⟨false, .bundle, none, []⟩
      []).after 4 waitingScript with passes := [] }, []⟩ with
      | .ok p _ => p.plays.map Play.name
      | .error .. => []) = ["db", "app"] := by decide +kernel
  have anywhere : ((Session.initial ⟨false, .bundle, none, []⟩ []).after 4
      waitingScript).settings.localhostOnly = false := by decide +kernel
  split at names
  · rename_i p r h
    obtain ⟨first, r', run, -, hosts, -⟩ := Session.plan_facts h
    rw [anywhere] at hosts
    exact ⟨p, r, first, r', h, names, run, hosts⟩
  · cases names

end Playbook
