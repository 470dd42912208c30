import Playbook.Proofs.Plan.Emission

/-! Which constraints a plan heeds. Those of bound units all count, and a chain of them keeps its
order through units that were never invoked. Those of other units do not. -/

namespace Playbook

theorem foldlM_congr {ε α β : Type} {f f' : β → α → Except ε β} {l : List α}
    (h : ∀ b, ∀ a ∈ l, f b a = f' b a) (b : β) : l.foldlM f b = l.foldlM f' b := by
  induction l generalizing b with
  | nil => rfl
  | cons a l ih =>
    obtain ⟨first, others⟩ : (∀ b, f b a = f' b a) ∧ ∀ b, ∀ a ∈ l, f b a = f' b a :=
      ⟨fun b => h b a (List.mem_cons_self ..), fun b a ha => h b a (List.mem_cons_of_mem _ ha)⟩
    rw [List.foldlM_cons, List.foldlM_cons, first]
    exact bind_congr fun b => ih others b

namespace Session
variable {s : Session} {id : UnitId} {a c : UnitId} {order : List UnitId}

/-- A constraint of a unit, bound or not, puts `a` before `b`. -/
def Declares (s : Session) (a b : UnitId) : Prop := ∃ id, s.Demands id a b

instance (s : Session) (id a b : UnitId) : Decidable (s.Demands id a b) :=
  decidable_of_iff (∃ u ∈ s.unit? id, id = a ∧ .unit b ∈ u.before ∨ id = b ∧ .unit a ∈ u.after)
    Iff.rfl

instance (s : Session) (a b : UnitId) : Decidable (s.Precedes a b) :=
  inferInstanceAs (Decidable (∃ id ∈ s.boundUnits, s.Demands id a b))

def reconstrain (s : Session) (id : UnitId) (before after : OrderedSet UnitRef) : Session :=
  s.modifyUnit id fun u => { u with before, after }

theorem unit_of_mem_origins {o : Origin} (h : o ∈ order.flatMap s.originsFor) :
    o.unit ∈ order := by
  obtain ⟨id, hid, ho⟩ := List.mem_flatMap.1 h
  rwa [(mem_originsFor.1 ho).1]

theorem lt_of_sublist_order (nodup : order.Nodup) (before : [a, c].Sublist order) {m n : Nat}
    {o o' : Origin} (hm : (order.flatMap s.originsFor)[m]? = some o)
    (hn : (order.flatMap s.originsFor)[n]? = some o') (ha : o.unit = a) (hc : o'.unit = c) :
    m < n := by
  obtain ⟨front, back, rfl, first, second⟩ := List.cons_sublist_iff.1 before
  have second : c ∈ back := List.singleton_sublist.1 second
  have apart := List.disjoint_of_nodup_append nodup
  rw [List.flatMap_append] at hm hn
  have early : m < (front.flatMap s.originsFor).length := by
    by_contra late
    rw [List.getElem?_append_right (Nat.le_of_not_lt late)] at hm
    exact apart first (ha ▸ unit_of_mem_origins (List.mem_of_getElem? hm))
  have late : (front.flatMap s.originsFor).length ≤ n := by
    by_contra early
    rw [List.getElem?_append_left (Nat.lt_of_not_le early)] at hn
    exact apart (hc ▸ unit_of_mem_origins (List.mem_of_getElem? hn)) second
  exact Nat.lt_of_lt_of_le early late

theorem index_lt_of_unitName (h : s.unitName id ≠ "") : id.index < s.units.length := by
  by_contra undeclared
  refine h ?_
  rw [unitName, unit?, List.getElem?_eq_none (Nat.le_of_not_lt undeclared)]
  rfl

theorem Emits.unitNames {p : Plan} {origins : List Origin} (h : s.Emits p origins) :
    p.plays.map Play.name = origins.map fun o => s.unitName o.unit := by
  have named : ∀ o ∈ origins, (s.playOf? o).map Play.name = some (s.unitName o.unit) := by
    intro o ho
    have emitted : s.playOf? o ∈ p.plays.map some := h.plays ▸ List.mem_map_of_mem ho
    obtain ⟨q, -, hq⟩ := List.mem_map.1 emitted
    obtain ⟨g, u, -, hu, rfl⟩ := playOf?_eq_some.1 hq.symm
    rw [← hq, unitName, hu]
    rfl
  refine List.map_injective_iff.2 (Option.some_injective _) ?_
  calc (p.plays.map Play.name).map some
      = (p.plays.map some).map (Option.map Play.name) := by rw [List.map_map, List.map_map]; rfl
    _ = origins.map fun o => (s.playOf? o).map Play.name := by
      rw [h.plays, List.map_map]
      rfl
    _ = (origins.map fun o => s.unitName o.unit).map some := by
      rw [List.map_map]
      exact List.map_congr_left named

section Unbound
variable (s id) (before after : OrderedSet UnitRef)

theorem getUnit_reconstrain (j : UnitId) : (s.reconstrain id before after).getUnit j =
    (s.getUnit j).map fun u => if id = j then { u with before, after } else u := by
  rw [getUnit, getUnit, reconstrain, unit?_modifyUnit]
  cases s.unit? j <;> rfl

theorem unitName_reconstrain : (s.reconstrain id before after).unitName = s.unitName := by
  funext j
  rw [unitName, unitName, reconstrain, unit?_modifyUnit]
  cases s.unit? j with
  | none => rfl
  | some u =>
    simp only [Option.map_some, Option.getD_some]
    split <;> rfl

theorem connect_reconstrain : (s.reconstrain id before after).connect = s.connect := by
  funext g a b
  rw [connect, connect, unitName_reconstrain]

theorem referent_reconstrain : (s.reconstrain id before after).referent = s.referent := by
  funext u ref
  cases ref with
  | named name => rfl
  | unit j =>
    simp only [referent, getUnit_reconstrain]
    cases s.getUnit j <;> rfl

theorem playsOf_reconstrain : (s.reconstrain id before after).playsOf = s.playsOf := by
  funext j
  rw [playsOf, playsOf, getUnit_reconstrain]
  cases s.getUnit j with
  | error e => rfl
  | ok u =>
    by_cases same : id = j
    · simp only [Except.map, same, if_true]
      rfl
    · simp only [Except.map, same, if_false]
      rfl

variable {s id}

theorem dependencyGraph_reconstrain (unbound : id ∉ s.boundUnits) :
    (s.reconstrain id before after).dependencyGraph = s.dependencyGraph := by
  have bound : (s.reconstrain id before after).boundUnits = s.boundUnits := rfl
  rw [dependencyGraph, dependencyGraph, bound]
  refine foldlM_congr (fun g j hj => ?_) _
  have other : id ≠ j := fun same => unbound (same ▸ hj)
  rw [addConstraints, addConstraints, getUnit_reconstrain, connect_reconstrain,
    referent_reconstrain]
  simp only [other, if_false]
  cases s.getUnit j <;> rfl

theorem planned_reconstrain (unbound : id ∉ s.boundUnits) :
    (s.reconstrain id before after).planned [] = s.planned [] := by
  have planOf : (s.reconstrain id before after).planOf = s.planOf := by
    funext g
    rw [Session.planOf, Session.planOf, playsOf_reconstrain]
  simp only [planned, dependencyGraph_reconstrain before after unbound, planOf, List.foldlM_nil]

end Unbound
end Session

/-- In a plan without passes, every play of a unit comes before those of the units that a chain of
constraints puts behind it. The units in the middle need not be invoked, but each constraint must be
one of a bound unit: those of other units change nothing. -/
theorem Session.Arises.plan_keeps_chains {s : Session} (hs : s.Arises) (none : s.passes = [])
    {call : Block → Exec Unit} {journal : List Entry} {p : Plan} {r : Run}
    (h : (Exec.plan call).run ⟨s, journal⟩ = .ok p r) :
    (∃ origins, s.Emits p origins ∧ ∀ a c, Relation.TransGen s.Precedes a c →
      ∀ (m n : Nat) o o', origins[m]? = some o → origins[n]? = some o' → o.unit = a → o'.unit = c →
        m < n) ∧
    ∀ id ∉ s.boundUnits, ∀ before after, ∃ r',
      (Exec.plan call).run ⟨s.reconstrain id before after, journal⟩ = .ok p r' := by
  obtain ⟨closed, planned, -⟩ := (Exec.plan_eq_ok_of_no_passes none).1 h
  constructor
  · obtain ⟨g, order, graph, sorted⟩ := planned_eq_ok.1 planned
    have emitted : s.planOf (g.linkAll []) = .ok p := planOf_eq_ok.2 ⟨order, sorted⟩
    obtain ⟨order, follows⟩ := hs.coherent.follows graph emitted
    exact ⟨_, emits_of_order hs.coherent follows.plays, fun a c chain m n o o' hm hn =>
      lt_of_sublist_order follows.nodup (follows.ordered a c chain) hm hn⟩
  · intro id unbound before after
    have same := planned_reconstrain before after unbound
    exact ⟨_, (Exec.plan_eq_ok_of_no_passes (s := s.reconstrain id before after) none).2
      ⟨closed, same.trans planned, rfl⟩⟩

/-- A chain whose middle unit is known to no host group and waits for its predecessor itself. -/
def severedScript : Block :=
  [.declare (.new "prepare" [.step "command" (.text "one") 1 []]),
    .declare { Declaration.new "store" [.step "command" (.text "two") 1 []] with
      after := [.unit ⟨0⟩] },
    .declare { Declaration.new "check" [.step "command" (.text "three") 1 []] with
      after := [.unit ⟨1⟩] },
    .declare { Declaration.new "serve" [.step "command" (.text "four") 1 []] with
      after := [.unit ⟨2⟩] },
    .enter [.withHosts (some "web") .empty [.invoke ⟨3⟩, .invoke ⟨1⟩, .invoke ⟨0⟩]]]

def severed : Session := (Session.initial ⟨false, .bundle, none, []⟩ []).after 5 severedScript

theorem unit_of_severed {name : String} (given : name ≠ "") {i : Nat}
    (unique : ∀ j < 4, severed.unitName ⟨j⟩ = name → j = i) {id : UnitId}
    (h : severed.unitName id = name) : id = ⟨i⟩ := by
  have declared : severed.units.length = 4 := by decide +kernel
  have known := Session.index_lt_of_unitName (h ▸ given)
  rw [declared] at known
  exact congrArg UnitId.mk (unique id.index known h)

theorem not_forall_chains : ¬ ∀ s : Session, s.Reachable → s.passes = [] → ∀ bound journal p r,
    (Exec.plan (runWithin bound)).run ⟨s, journal⟩ = .ok p r → ∃ origins, s.Emits p origins ∧
      ∀ a c, Relation.TransGen s.Declares a c → ∀ (m n : Nat) o o', origins[m]? = some o →
        origins[n]? = some o' → o.unit = a → o'.unit = c → m < n := by
  intro all
  have names : ((Exec.plan (runWithin 3)).result? ⟨severed, []⟩).map (fun x =>
      x.1.plays.map Play.name) = some ["prepare", "serve", "store"] := by decide +kernel
  obtain ⟨⟨p, r⟩, planned, names⟩ := Option.map_eq_some_iff.1 names
  have none : severed.passes = [] := List.isEmpty_iff.1 (by decide +kernel)
  obtain ⟨origins, emits, ordered⟩ := all severed (Session.reachable_after rfl 5 severedScript) none
    3 [] p r (Exec.result?_eq_some.1 planned)
  have chain : Relation.TransGen severed.Declares ⟨1⟩ ⟨3⟩ := by
    have store : severed.Declares ⟨1⟩ ⟨2⟩ := ⟨⟨2⟩, by decide +kernel⟩
    have serve : severed.Declares ⟨2⟩ ⟨3⟩ := ⟨⟨3⟩, by decide +kernel⟩
    exact .tail (.single store) serve
  have units := emits.unitNames.symm.trans names
  obtain ⟨x, c, a, rfl⟩ := List.length_eq_three.1 (by simpa using congrArg List.length units)
  simp only [List.map_cons, List.map_nil, List.cons.injEq, and_true] at units
  obtain ⟨-, serve, store⟩ := units
  have late := ordered ⟨1⟩ ⟨3⟩ chain 2 1 a c rfl rfl
    (unit_of_severed (by decide) (by decide +kernel) store)
    (unit_of_severed (by decide) (by decide +kernel) serve)
  exact absurd late (by decide)

/-- A unit that no host group knows stands between two that name it, and the later of those is
invoked first. -/
def bridgedScript : Block :=
  [.declare { Declaration.new "store" [.step "command" (.text "one") 1 []] with
      before := [.unit ⟨1⟩] },
    .declare (.new "check" [.step "command" (.text "two") 1 []]),
    .declare { Declaration.new "serve" [.step "command" (.text "three") 1 []] with
      after := [.unit ⟨1⟩] },
    .enter [
      .withHosts (some "web") .empty [.invoke ⟨2⟩],
      .withHosts (some "db") .empty [.invoke ⟨2⟩, .invoke ⟨0⟩]]]

def bridged : Session := (Session.initial ⟨false, .bundle, none, []⟩ []).after 5 bridgedScript

theorem plan_keeps_chains_bridged :
    ∃ p r origins, (Exec.plan (runWithin 3)).run ⟨bridged, []⟩ = .ok p r ∧
      p.plays.map Play.name = ["store", "serve", "serve"] ∧ bridged.Emits p origins ∧
      (∀ (m n : Nat) o o', origins[m]? = some o → origins[n]? = some o' → o.unit = ⟨0⟩ →
        o'.unit = ⟨2⟩ → m < n) ∧
      ∃ r', (Exec.plan (runWithin 3)).run ⟨bridged.reconstrain ⟨1⟩ (.ofList [.unit ⟨0⟩])
        (.ofList [.unit ⟨2⟩]), []⟩ = .ok p r' := by
  have arises : bridged.Arises := (Session.reachable_after rfl 5 bridgedScript).arises
  have bound : bridged.boundUnits = [⟨2⟩, ⟨2⟩, ⟨0⟩] := by decide +kernel
  have chain : Relation.TransGen bridged.Precedes ⟨0⟩ ⟨2⟩ := by
    have store : bridged.Precedes ⟨0⟩ ⟨1⟩ := by decide +kernel
    have serve : bridged.Precedes ⟨1⟩ ⟨2⟩ := by decide +kernel
    exact .tail (.single store) serve
  have names : ((Exec.plan (runWithin 3)).result? ⟨bridged, []⟩).map (fun x =>
      x.1.plays.map Play.name) = some ["store", "serve", "serve"] := by decide +kernel
  obtain ⟨⟨p, r⟩, planned, names⟩ := Option.map_eq_some_iff.1 names
  have planned := Exec.result?_eq_some.1 planned
  have none : bridged.passes = [] := List.isEmpty_iff.1 (by decide +kernel)
  obtain ⟨⟨origins, emits, ordered⟩, others⟩ := arises.plan_keeps_chains none planned
  exact ⟨p, r, origins, planned, names, emits, ordered ⟨0⟩ ⟨2⟩ chain,
    others ⟨1⟩ (by simp [bound]) _ _⟩

end Playbook
