import Playbook.Proofs.Session.Persistence
import Playbook.Proofs.Session.Restoration

/-! What a unit records over and over. Where the body of a unit always records the same steps, its
steps under each host group are those of the body, once for each invocation that came to its end
under that group; they differ in nothing but the names of their variables and the conditions that
were open. -/

namespace Playbook

namespace Step

def without (s : Step) (keys : List String) : Step :=
  { s with settings := s.settings.filterKeys (· ∉ keys), register := "", group := none }

def bare (s : Step) : Step := s.without ["register"]

def unguarded (s : Step) : Step := s.without ["register", "when"]

theorem without_without (s : Step) {keys more : List String} (h : keys ⊆ more) :
    (s.without keys).without more = s.without more := by
  simp only [without]
  rw [OrderedMap.filterKeys_filterKeys]
  intro k hk
  simp only [decide_eq_true_eq] at hk ⊢
  exact fun hm => hk (h hm)

theorem unguarded_bare (s : Step) : s.bare.unguarded = s.unguarded :=
  s.without_without (by simp)

end Step

/-- Bare steps by the pattern of the host group and the open conditions. -/
abbrev Recipe := String → List String → List Step

/-- The open conditions have no part in the steps but for the condition of each. -/
def Recipe.Unconditional (recipe : Recipe) : Prop := ∀ pattern conditions conditions',
  (recipe pattern conditions).map Step.unguarded = (recipe pattern conditions').map Step.unguarded

/-- However and wherever a body declared like that of `u` is run, it records the steps of the
recipe for the active host group and no others, and the unit is not invoked again within it. -/
def WorkUnit.Steady (u : WorkUnit) (settings : Settings) (recipe : Recipe) : Prop :=
  recipe.Unconditional ∧
  ∀ (bound : Nat) (r b : Run) (id : UnitId) (v : WorkUnit) (j : GroupId) (g : HostGroup),
    r.session.settings = settings → r.session.unit? id = some v → u.SameDeclaration v →
    r.session.currentUnit? = some id → r.session.currentGroup? = some j →
    r.session.group? j = some g →
    (Exec.runBody (runWithin bound) u.body).Concludes r b →
    ∃ w steps, b.session.unit? id = some w ∧ w.groups ⊆ v.groups ∧ w.steps = v.steps ++ steps ∧
      (∀ step ∈ steps, step.group = some j) ∧
      steps.map Step.bare = recipe g.pattern r.session.scopes.guards.toList

namespace Session
variable {s t : Session} {id : UnitId} {u v : WorkUnit} {recipe : Recipe} {j : GroupId}

/-- Under the group `j` the unit has recorded the recipe a number of times, each with conditions of
its own. Where the unit is bound to the group, it has done so at least once. -/
def Repeats (s : Session) (u : WorkUnit) (recipe : Recipe) (j : GroupId) : Prop :=
  ∃ pattern conditions, (u.stepsFor j).map Step.bare = conditions.flatMap (recipe pattern) ∧
    (conditions ≠ [] → ∃ g, s.group? j = some g ∧ g.pattern = pattern) ∧
    (j ∈ u.groups → conditions ≠ [])

theorem Repeats.persist (h : s.Repeats u recipe j) (persists : s.Persists t)
    (steps : v.steps = u.steps) (groups : v.groups ⊆ u.groups) : t.Repeats v recipe j := by
  obtain ⟨pattern, conditions, recorded, known, bound⟩ := h
  refine ⟨pattern, conditions, ?_, fun some => ?_, fun hj => bound (groups hj)⟩
  · rw [WorkUnit.stepsFor, steps]
    exact recorded
  · obtain ⟨g, hg, rfl⟩ := known some
    exact persists.group j g hg

theorem repeats_of_nil (steps : u.steps = []) (groups : u.groups = []) : s.Repeats u recipe j :=
  ⟨"", [], by simp [WorkUnit.stepsFor, steps], fun h => absurd rfl h,
    fun hj => by simp [groups] at hj⟩

theorem Repeats.again (h : s.Repeats u recipe j) (persists : s.Persists t) {i : GroupId}
    {g : HostGroup} (hg : s.group? i = some g) {steps : List Step} {conditions : List String}
    (groups : v.groups ⊆ u.groups ++ [i]) (appended : v.steps = u.steps ++ steps)
    (own : ∀ step ∈ steps, step.group = some i)
    (followed : steps.map Step.bare = recipe g.pattern conditions) : t.Repeats v recipe j := by
  obtain ⟨pattern, runs, recorded, known, bound⟩ := h
  by_cases hj : j = i
  · subst hj
    have all : steps.filter (fun step => step.group = some j) = steps :=
      List.filter_eq_self.2 fun step hstep => decide_eq_true (own step hstep)
    have earlier : (u.stepsFor j).map Step.bare = runs.flatMap (recipe g.pattern) := by
      by_cases none : runs = []
      · rw [recorded, none]
        rfl
      · obtain ⟨g', hg', rfl⟩ := known none
        rw [Option.some.inj (hg.symm.trans hg')]
        exact recorded
    refine ⟨g.pattern, runs ++ [conditions], ?_, fun _ => persists.group j g hg, fun _ => by simp⟩
    rw [WorkUnit.stepsFor, appended, List.filter_append, all, List.map_append, followed]
    rw [WorkUnit.stepsFor] at earlier
    rw [earlier, List.flatMap_append, List.flatMap_singleton]
  · have none : steps.filter (fun step => step.group = some j) = [] :=
      List.filter_eq_nil_iff.2 fun step hstep => by
        rw [own step hstep]
        simpa using Ne.symm hj
    refine ⟨pattern, runs, ?_, fun some => ?_, fun hm => bound ?_⟩
    · rw [WorkUnit.stepsFor, appended, List.filter_append, none, List.append_nil]
      exact recorded
    · obtain ⟨g', hg', rfl⟩ := known some
      exact persists.group j g' hg'
    · simpa [hj] using groups hm

theorem Update.unit_cases (h : Update s t) (idle : s.currentUnit? ≠ some id)
    (hv : t.unit? id = some v) : v.steps = [] ∧ v.groups = [] ∨
      ∃ u, s.unit? id = some u ∧ v.steps = u.steps ∧ v.groups ⊆ u.groups := by
  cases h with
  | declare name d =>
    rw [unit?_declareAs] at hv
    split at hv
    · obtain rfl := Option.some.inj hv
      exact .inl ⟨rfl, rfl⟩
    · exact .inr ⟨v, hv, rfl, fun _ hj => hj⟩
  | hosts declared =>
    obtain ⟨p, a, e⟩ := addGroup_of_declareHosts declared
    obtain rfl : _ = t := congrArg Prod.snd e
    exact .inr ⟨v, hv, rfl, fun _ hj => hj⟩
  | constrain j before after =>
    rw [unit?_modifyUnit] at hv
    obtain ⟨u, hu, rfl⟩ := Option.map_eq_some_iff.1 hv
    refine .inr ⟨u, hu, ?_⟩
    split <;> exact ⟨rfl, fun _ hj => hj⟩
  | record recorded =>
    obtain ⟨j, _, active, -, rfl⟩ := recordStep_eq_ok recorded
    have other : j ≠ id := fun e => idle (e ▸ active)
    change (s.modifyUnit j _).unit? id = some v at hv
    rw [unit?_modifyUnit] at hv
    obtain ⟨u, hu, rfl⟩ := Option.map_eq_some_iff.1 hv
    exact .inr ⟨u, hu, by rw [if_neg other], by rw [if_neg other]; exact fun _ hj => hj⟩
  | merge =>
    rw [unit?_mergeBindings] at hv
    obtain ⟨u, hu, rfl⟩ := Option.map_eq_some_iff.1 hv
    exact .inr ⟨u, hu, rfl, (firstOfEach_sublist ..).subset⟩
  | setSetting | setVar | setVars | runbook | skipFacts | inst | pipeline =>
    exact .inr ⟨v, hv, rfl, fun _ hj => hj⟩

/-- The unit `id`, if it has been declared like `u`, has repeated the recipe under each host group.
So it has while it is not running. -/
structure Regular (s : Session) (id : UnitId) (u : WorkUnit) (settings : Settings)
    (recipe : Recipe) : Prop where
  coherent : s.Coherent
  settings : s.settings = settings
  repeats : ∀ v, s.unit? id = some v → u.SameDeclaration v → ∀ j, s.Repeats v recipe j

variable {settings : Settings}

theorem regular_initial (passes : List Pass) :
    (initial settings passes).Regular id u settings recipe where
  coherent := coherent_initial settings passes
  settings := rfl
  repeats v hv := by simp [initial, unit?] at hv

theorem Regular.moves (h : s.Regular id u settings recipe) (moves : s.Moves t)
    (units : ∀ v, t.unit? id = some v → v.steps = [] ∧ v.groups = [] ∨
      ∃ u, s.unit? id = some u ∧ v.steps = u.steps ∧ v.groups ⊆ u.groups) :
    t.Regular id u settings recipe where
  coherent := h.coherent.moves moves
  settings := moves.persists.settings.trans h.settings
  repeats v hv same j := by
    rcases units v hv with ⟨steps, groups⟩ | ⟨w, hw, steps, groups⟩
    · exact repeats_of_nil steps groups
    · obtain ⟨v', hv', kept⟩ := moves.persists.unit id w hw
      obtain rfl : v = v' := Option.some.inj (hv.symm.trans hv')
      exact (h.repeats w hw (same.trans kept.symm) j).persist moves.persists steps groups

theorem Regular.begin (h : s.Regular id u settings recipe) {i : UnitId} {group : GroupId}
    (other : i ≠ id) (moves : s.Moves (s.begin i group)) :
    (s.begin i group).Regular id u settings recipe := by
  refine h.moves moves fun v hv => .inr ⟨v, ?_, rfl, fun _ hj => hj⟩
  rwa [unit?_begin_of_ne other] at hv

end Session

namespace Run
open Session
variable {a b : Run} {id : UnitId} {u : WorkUnit} {settings : Settings} {recipe : Recipe}

/-- The unit itself has been invoked. Its body adds the recipe once, whatever else it does. -/
theorem Course.regular_invoke (steady : u.Steady settings recipe) {v : WorkUnit} {group : GroupId}
    (regular : a.session.Regular id u settings recipe) (declared : a.session.unit? id = some v)
    (active : a.session.currentGroup? = some group) {bound : Nat}
    (ran : (Exec.runBody (runWithin bound) v.body).Concludes (a.on (a.session.begin id group)) b)
    (moves : a.session.Moves b.session) : b.session.Regular id u settings recipe where
  coherent := regular.coherent.moves moves
  settings := moves.persists.settings.trans regular.settings
  repeats w' hw' same j := by
    obtain ⟨_, hv', kept⟩ := moves.persists.unit id v declared
    obtain rfl := Option.some.inj (hw'.symm.trans hv')
    have declaredAlike : u.SameDeclaration v := same.trans kept.symm
    obtain ⟨g, hg⟩ := regular.coherent.entered group (List.mem_of_mem_head? active)
    have bound? : (a.session.begin id group).unit? id = some (v.bind group) :=
      unit?_begin declared group
    have joined : (a.session.begin id group).group? group = some (g.addMember id) :=
      group?_begin hg id
    rw [declaredAlike.body] at ran
    obtain ⟨w, steps, hw, groups, appended, own, followed⟩ :=
      steady.2 bound (a.on (a.session.begin id group)) b id (v.bind group) group (g.addMember id)
        regular.settings bound? (declaredAlike.trans ⟨rfl, rfl, rfl⟩) rfl active joined ran
    obtain rfl : w' = w := Option.some.inj (hw'.symm.trans hw)
    exact (regular.repeats v declared declaredAlike j).again moves.persists hg groups appended own
      followed

/-- While the unit is running nothing is said of it. -/
theorem obligation_regular (steady : u.Steady settings recipe) :
    Obligation id fun running s => running = [] → s.Regular id u settings recipe where
  update owed hu idle none :=
    (owed none).moves (.single (.update hu)) fun _ => hu.unit_cases (idle none)
  scopes owed moves none := (owed none).moves moves fun v hv => .inr ⟨v, hv, rfl, fun _ hj => hj⟩
  other owed other moves none := (owed none).begin other moves
  own _ _ _ := nofun
  met owed declared active _ ran body _ none :=
    Course.regular_invoke steady (owed none) declared active ran
      ((Path.begin declared active).moves.trans body.path.moves)

end Run

theorem Session.Reachable.repeats {s : Session} (hs : s.Reachable) {id : UnitId} {u : WorkUnit}
    (hu : s.unit? id = some u) (idle : id ∉ s.scopes.units.frames) {recipe : Recipe}
    (steady : u.Steady s.settings recipe) (j : GroupId) : s.Repeats u recipe j := by
  obtain ⟨settings, passes, r, trail, rfl⟩ := hs.exists_trail
  have same : r.session.settings = settings := trail.path.moves.persists.settings
  rw [same] at steady
  have regular : r.session.Regular id u settings recipe :=
    (Run.obligation_regular steady).trail trail (fun _ => regular_initial passes) idle rfl
  exact regular.repeats u hu (.refl u) j

end Playbook
