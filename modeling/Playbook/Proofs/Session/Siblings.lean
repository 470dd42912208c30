import Playbook.Proofs.Session.Consistency
import Playbook.Proofs.Session.Populating
import Playbook.Proofs.Session.Rejection

/-! The members of a runbook in another order. They get other handles then, and their names are
resolved at other moments; but a name means the same sibling before as after, so the constraints,
told by names, are those that the declarations state. -/

namespace Playbook

def Declaration.Names (d : Declaration Body) (n : String) : Prop :=
  .named n ∈ d.before ∨ .named n ∈ d.after

def Session.namedEdges (s : Session) (g : Graph UnitId) : List (String × String) :=
  g.edges.map fun e => (s.unitName e.1, s.unitName e.2)

namespace Members
open Session

/-- By what the members declare, the one of the first name runs before the one of the second. -/
def Orders (ds : List (Declaration Body)) (m n : String) : Prop :=
  ∃ d ∈ ds, d.name = m ∧ .named n ∈ d.before ∨ d.name = n ∧ .named m ∈ d.after

def Closed (ds : List (Declaration Body)) : Prop :=
  ∀ d ∈ ds, ∀ n, d.Names n → n ∈ ds.map Declaration.name

def Bears (ds : List (Declaration Body)) (n : String) (id : UnitId) : Prop :=
  ∃ d, ds[id.index]? = some d ∧ d.name = n

def Resolved (ds : List (Declaration Body)) (refs : List UnitRef) (out : OrderedSet UnitRef) :
    Prop :=
  ∀ y, y ∈ out ↔ ∃ n id, .named n ∈ refs ∧ Bears ds n id ∧ y = .unit id

/-- The units of a session in which all there is are the members of a runbook that has been called:
they are bound, and have the constraints that they were declared with. -/
structure Wired (name : String) (ds : List (Declaration Body)) (units : List WorkUnit) : Prop where
  length : units.length = ds.length
  member : ∀ (k : Nat) (d : Declaration Body), ds[k]? = some d → ∃ u : WorkUnit,
    units[k]? = some u ∧ u.name = Runbook.qualified name d.name ∧ u.groups ≠ [] ∧
      Resolved ds d.before u.before ∧ Resolved ds d.after u.after

section
variable {ds ds' : List (Declaration Body)} {m n : String} {id : UnitId}

theorem Closed.perm (h : Closed ds) (perm : ds.Perm ds') : Closed ds' := fun d hd n hn =>
  (perm.map Declaration.name).mem_iff.1 (h d (perm.mem_iff.2 hd) n hn)

theorem orders_of_perm (perm : ds.Perm ds') : Orders ds' = Orders ds := by
  funext m n
  simp only [Orders, perm.mem_iff]

theorem Closed.orders (h : Closed ds) (orders : Orders ds m n) :
    m ∈ ds.map Declaration.name ∧ n ∈ ds.map Declaration.name := by
  obtain ⟨d, hd, ⟨rfl, hn⟩ | ⟨rfl, hm⟩⟩ := orders
  · exact ⟨List.mem_map_of_mem hd, h d hd n (.inl hn)⟩
  · exact ⟨h d hd m (.inr hm), List.mem_map_of_mem hd⟩

theorem bears_idxOf (h : n ∈ ds.map Declaration.name) :
    Bears ds n ⟨(ds.map Declaration.name).idxOf n⟩ := by
  have found : (ds.map Declaration.name)[(ds.map Declaration.name).idxOf n]? = some n :=
    List.getElem?_idxOf h
  rw [List.getElem?_map] at found
  exact Option.map_eq_some_iff.1 found

theorem Bears.mem (h : Bears ds n id) : n ∈ ds.map Declaration.name := by
  obtain ⟨d, hd, rfl⟩ := h
  exact List.mem_map_of_mem (List.mem_of_getElem? hd)

theorem Bears.unique {d : Declaration Body} (distinct : (ds.map Declaration.name).Nodup)
    (h : Bears ds d.name id) (hd : d ∈ ds) : ds[id.index]? = some d := by
  obtain ⟨e, he, same⟩ := h
  rwa [List.inj_on_of_nodup_map distinct (List.mem_of_getElem? he) hd same] at he

end

namespace Wired
variable {s : Session} {name : String} {ds : List (Declaration Body)} {a b : UnitId}

theorem exists_declaration (h : Wired name ds s.units) {u : WorkUnit} (hu : s.unit? a = some u) :
    ∃ d, ds[a.index]? = some d ∧ u.name = Runbook.qualified name d.name ∧ u.groups ≠ [] ∧
      Resolved ds d.before u.before ∧ Resolved ds d.after u.after := by
  have known : a.index < ds.length := h.length ▸ (List.getElem?_eq_some_iff.1 hu).1
  obtain ⟨v, hv, facts⟩ := h.member a.index _ (List.getElem?_eq_getElem known)
  obtain rfl := Option.some.inj (hv.symm.trans hu)
  exact ⟨_, List.getElem?_eq_getElem known, facts⟩

theorem unitName (h : Wired name ds s.units) {m : String} (bears : Bears ds m a) :
    s.unitName a = Runbook.qualified name m := by
  obtain ⟨d, hd, rfl⟩ := bears
  obtain ⟨u, hu, named, -⟩ := h.member a.index d hd
  have known : s.unit? a = some u := hu
  rw [Session.unitName, known, Option.map_some, Option.getD_some, named]

theorem bound (h : Wired name ds s.units) (arises : s.Arises) {d : Declaration Body}
    (hd : ds[a.index]? = some d) : a ∈ s.boundUnits := by
  obtain ⟨u, hu, -, groups, -⟩ := h.member a.index d hd
  obtain ⟨j, hj⟩ := List.exists_mem_of_ne_nil _ groups
  obtain ⟨g, hg, member⟩ := arises.coherent.bound a u hu j hj
  exact List.mem_flatMap.2 ⟨g, List.mem_of_getElem? hg, member⟩

theorem precedes_iff (h : Wired name ds s.units) (arises : s.Arises)
    (distinct : (ds.map Declaration.name).Nodup) :
    s.Precedes a b ↔ ∃ m n, Orders ds m n ∧ Bears ds m a ∧ Bears ds n b := by
  constructor
  · rintro ⟨id, -, u, hu, ⟨rfl, hb⟩ | ⟨rfl, ha⟩⟩
    · obtain ⟨d, hd, -, -, before, -⟩ := h.exists_declaration hu
      obtain ⟨n, j, named, bears, same⟩ := (before _).1 hb
      obtain rfl := UnitRef.unit.inj same
      exact ⟨d.name, n, ⟨d, List.mem_of_getElem? hd, .inl ⟨rfl, named⟩⟩, ⟨d, hd, rfl⟩, bears⟩
    · obtain ⟨d, hd, -, -, -, after⟩ := h.exists_declaration hu
      obtain ⟨m, j, named, bears, same⟩ := (after _).1 ha
      obtain rfl := UnitRef.unit.inj same
      exact ⟨m, d.name, ⟨d, List.mem_of_getElem? hd, .inr ⟨rfl, named⟩⟩, bears, ⟨d, hd, rfl⟩⟩
  · rintro ⟨m, n, ⟨d, mem, ⟨rfl, hn⟩ | ⟨rfl, hm⟩⟩, bearsA, bearsB⟩
    · have hd := bearsA.unique distinct mem
      obtain ⟨u, hu, -, -, before, -⟩ := h.member a.index d hd
      exact precedes_of_before (h.bound arises hd) hu ((before _).2 ⟨n, b, hn, bearsB, rfl⟩)
    · have hd := bearsB.unique distinct mem
      obtain ⟨u, hu, -, -, -, after⟩ := h.member b.index d hd
      exact precedes_of_after (h.bound arises hd) hu ((after _).2 ⟨m, a, hm, bearsA, rfl⟩)

theorem refers (h : Wired name ds s.units) {u : WorkUnit} {ref : UnitRef}
    (refers : s.Refers u ref) : ∃ x v, ref = .unit x ∧ s.unit? x = some v := by
  obtain ⟨⟨id, -, hu⟩, constraint⟩ := refers
  obtain ⟨d, -, -, -, before, after⟩ := h.exists_declaration hu
  obtain ⟨n, j, bears, rfl⟩ : ∃ n j, Bears ds n j ∧ ref = .unit j := by
    rcases constraint with hb | ha
    · obtain ⟨n, j, -, bears, same⟩ := (before _).1 hb
      exact ⟨n, j, bears, same⟩
    · obtain ⟨n, j, -, bears, same⟩ := (after _).1 ha
      exact ⟨n, j, bears, same⟩
  obtain ⟨e, he, -⟩ := bears
  obtain ⟨v, hv, -⟩ := h.member j.index e he
  exact ⟨j, v, rfl, hv⟩

theorem cyclic_iff (h : Wired name ds s.units) (arises : s.Arises)
    (distinct : (ds.map Declaration.name).Nodup) (closed : Closed ds) :
    (∃ a, Relation.TransGen s.Precedes a a) ↔ ∃ m, Relation.TransGen (Orders ds) m m := by
  constructor
  · rintro ⟨a, cycle⟩
    let nameOf (id : UnitId) : String := (ds[id.index]?.map Declaration.name).getD ""
    have named {n : String} {id : UnitId} (bears : Bears ds n id) : nameOf id = n := by
      obtain ⟨d, hd, rfl⟩ := bears
      simp [nameOf, hd]
    refine ⟨nameOf a, cycle.lift nameOf fun x y precedes => ?_⟩
    obtain ⟨m, n, orders, bearsX, bearsY⟩ := (h.precedes_iff arises distinct).1 precedes
    show Orders ds (nameOf x) (nameOf y)
    rwa [named bearsX, named bearsY]
  · rintro ⟨m, cycle⟩
    let unitOf (n : String) : UnitId := ⟨(ds.map Declaration.name).idxOf n⟩
    refine ⟨unitOf m, cycle.lift unitOf fun x y orders => ?_⟩
    obtain ⟨hx, hy⟩ := closed.orders orders
    exact (h.precedes_iff arises distinct).2 ⟨x, y, orders, bears_idxOf hx, bears_idxOf hy⟩

theorem dependencyGraph (h : Wired name ds s.units) (arises : s.Arises)
    (distinct : (ds.map Declaration.name).Nodup) (closed : Closed ds) :
    ((∃ m, Relation.TransGen (Orders ds) m m) ∧ ∃ x y, s.dependencyGraph = .error (.cycle x y)) ∨
    ((∀ m, ¬ Relation.TransGen (Orders ds) m m) ∧ ∃ g, s.dependencyGraph = .ok g ∧
      ∀ e, e ∈ s.namedEdges g ↔ ∃ m n, Orders ds m n ∧
        e = (Runbook.qualified name m, Runbook.qualified name n)) := by
  obtain ⟨consistent, edges, obstacle, -⟩ := arises.dependencyGraph_iff
  have cyclic := h.cyclic_iff arises distinct closed
  cases answer : s.dependencyGraph with
  | error e =>
    refine .inl ?_
    cases obstacle e answer with
    | unresolved refers =>
      obtain ⟨x, v, same, -⟩ := h.refers refers
      cases same
    | undeclared refers unknown =>
      obtain ⟨x, v, same, known⟩ := h.refers refers
      obtain rfl := UnitRef.unit.inj same
      exact absurd (unknown.symm.trans known) nofun
    | cycle edge back => exact ⟨cyclic.1 ⟨_, .head' edge back⟩, _, _, rfl⟩
  | ok g =>
    refine .inr ⟨fun m cycle => ?_, g, rfl, fun e => ?_⟩
    · obtain ⟨a, cycle⟩ := cyclic.2 ⟨m, cycle⟩
      exact (consistent.1 ⟨g, answer⟩).2 a cycle
    · have precedes (x y : UnitId) : (x, y) ∈ g.edges ↔
          ∃ m n, Orders ds m n ∧ Bears ds m x ∧ Bears ds n y :=
        ((edges g answer).1 x y).trans (h.precedes_iff arises distinct)
      rw [namedEdges, List.mem_map]
      constructor
      · rintro ⟨⟨x, y⟩, edge, rfl⟩
        obtain ⟨m, n, orders, bearsX, bearsY⟩ := (precedes x y).1 edge
        exact ⟨m, n, orders, by rw [h.unitName bearsX, h.unitName bearsY]⟩
      · rintro ⟨m, n, orders, rfl⟩
        obtain ⟨hm, hn⟩ := closed.orders orders
        refine ⟨_, (precedes _ _).2 ⟨m, n, orders, bears_idxOf hm, bears_idxOf hn⟩, ?_⟩
        rw [h.unitName (bears_idxOf hm), h.unitName (bears_idxOf hn)]

end Wired

section
variable {name : String} {ds : List (Declaration Body)} {s t : Session} {x : Runbook}
  {inst : Instance}

structure Fresh (name : String) (ds : List (Declaration Body)) (x : Runbook)
    (units : List WorkUnit) : Prop where
  units : units = ds.mapIdx fun k d => .ofDeclaration ⟨k⟩ (Runbook.qualified name d.name) d
  setup : x.setup = none
  names : ∀ n id, x.members.get? n = some id ↔ Bears ds n id
  once : x.members.values.Nodup

theorem Fresh.unit? (h : Fresh name ds x s.units) (id : UnitId) : s.unit? id =
    ds[id.index]?.map fun d => .ofDeclaration id (Runbook.qualified name d.name) d := by
  rw [Session.unit?, h.units, List.getElem?_mapIdx]

theorem Fresh.get?_eq_none (h : Fresh name ds x s.units) {n : String}
    (none : x.members.get? n = none) : n ∉ ds.map Declaration.name := fun mem => by
  have known := (h.names n _).2 (bears_idxOf mem)
  rw [none] at known
  cases known

theorem Fresh.resolve (h : Fresh name ds x s.units) {refs : List UnitRef} {unit : String}
    {out : OrderedSet UnitRef} (named : ∀ ref ∈ refs, ∃ n, ref = .named n)
    (resolved : x.resolve unit (.ofList refs) = .ok out) :
    (∀ n, .named n ∈ refs → n ∈ ds.map Declaration.name) ∧ Resolved ds refs out := by
  obtain ⟨all, mem⟩ := Runbook.resolve_eq_ok resolved
  have bears {n : String} {y : UnitRef} (resolved : x.resolveRef unit (.named n) = .ok y) :
      ∃ id, Bears ds n id ∧ y = .unit id := by
    simp only [Runbook.resolveRef] at resolved
    split at resolved
    · rename_i id known
      exact ⟨id, (h.names n id).1 known, (Except.ok.inj resolved).symm⟩
    · cases resolved
  constructor
  · intro n hn
    obtain ⟨y, resolved⟩ := all (.named n) (OrderedSet.mem_ofList.2 hn)
    obtain ⟨id, bears, -⟩ := bears resolved
    exact bears.mem
  · intro y
    rw [mem]
    constructor
    · rintro ⟨ref, href, resolved⟩
      obtain ⟨n, rfl⟩ := named ref (OrderedSet.mem_ofList.1 href)
      obtain ⟨id, bears, rfl⟩ := bears resolved
      exact ⟨n, id, OrderedSet.mem_ofList.1 href, bears, rfl⟩
    · rintro ⟨n, id, hn, bears, rfl⟩
      refine ⟨.named n, OrderedSet.mem_ofList.2 hn, ?_⟩
      rw [Runbook.resolveRef, (h.names n id).2 bears]

theorem Fresh.wired (h : Fresh name ds x s.units) (before : inst.before = .empty)
    (after : inst.after = .empty)
    (named : ∀ d ∈ ds, ∀ ref ∈ d.before ++ d.after, ∃ n, ref = .named n)
    (populates : s.Populates x inst x.members.values t) : Closed ds ∧ Wired name ds t.units := by
  have reached (k : Nat) (d : Declaration Body) (hd : ds[k]? = some d) :
      (∀ n, d.Names n → n ∈ ds.map Declaration.name) ∧ ∃ u : WorkUnit, t.units[k]? = some u ∧
        u.name = Runbook.qualified name d.name ∧ u.groups ≠ [] ∧ Resolved ds d.before u.before ∧
          Resolved ds d.after u.after := by
    have known : s.unit? ⟨k⟩ = some (.ofDeclaration ⟨k⟩ (Runbook.qualified name d.name) d) := by
      rw [h.unit?, hd, Option.map_some]
    have member : ⟨k⟩ ∈ x.members.values :=
      List.mem_map_of_mem (OrderedMap.get?_eq_some.1 ((h.names d.name ⟨k⟩).2 ⟨d, hd, rfl⟩))
    obtain ⟨u, hu, reaching⟩ := populates.member ⟨k⟩ member _ known
    obtain ⟨resolvedBefore, resolvedAfter, hb, ha, sameBefore, sameAfter⟩ := reaching.constraints
    have mem := List.mem_of_getElem? hd
    obtain ⟨closedBefore, resolvesBefore⟩ :=
      h.resolve (fun ref href => named d mem ref (List.mem_append_left _ href)) hb
    obtain ⟨closedAfter, resolvesAfter⟩ :=
      h.resolve (fun ref href => named d mem ref (List.mem_append_right _ href)) ha
    rw [before] at sameBefore
    rw [after] at sameAfter
    exact ⟨fun n hn => hn.elim (closedBefore n) (closedAfter n), u, hu, reaching.name,
      reaching.bound, sameBefore ▸ resolvesBefore, sameAfter ▸ resolvesAfter⟩
  refine ⟨fun d hd => ?_, ?_, fun k d hd => (reached k d hd).2⟩
  · obtain ⟨k, hk⟩ := List.mem_iff_getElem?.1 hd
    exact (reached k d hk).1
  · rw [populates.length, h.units, List.length_mapIdx]

theorem Fresh.not_closed (h : Fresh name ds x s.units) {ids : List UnitId} {e : Error}
    (misses : s.Misses x ids e) : ¬ Closed ds ∧ ∃ u n, e = .unresolved x.name u n := by
  obtain ⟨-, known, named, none⟩ := misses
  refine ⟨fun closed => ?_, _, _, rfl⟩
  rw [h.unit?] at known
  obtain ⟨d, hd, rfl⟩ := Option.map_eq_some_iff.1 known
  refine h.get?_eq_none none (closed d (List.mem_of_getElem? hd) _ ?_)
  exact named.imp OrderedSet.mem_ofList.1 OrderedSet.mem_ofList.1

theorem fresh_of_entries {members : OrderedMap String UnitId}
    (entries : members.entries = ds.mapIdx fun k d => (d.name, ⟨k⟩)) (id : RunbookId) :
    Fresh name ds ⟨id, name, none, members⟩
      (ds.mapIdx fun k d => .ofDeclaration ⟨k⟩ (Runbook.qualified name d.name) d) where
  units := rfl
  setup := rfl
  names n id := by
    rw [OrderedMap.get?_eq_some, entries, List.mem_mapIdx]
    constructor
    · rintro ⟨k, hk, same⟩
      obtain ⟨rfl, rfl⟩ := Prod.mk.inj same
      exact ⟨_, List.getElem?_eq_getElem hk, rfl⟩
    · rintro ⟨d, hd, rfl⟩
      obtain ⟨hk, rfl⟩ := List.getElem?_eq_some_iff.1 hd
      exact ⟨id.index, hk, rfl⟩
  once := by
    have numbered : members.values.map UnitId.index = List.range ds.length := by
      rw [OrderedMap.values, entries]
      exact List.ext_getElem (by simp) fun k _ _ => by simp
    exact .of_map _ (numbered ▸ List.nodup_range)

end

end Members

namespace Exec
open Session

variable {bound : Nat} {name : String} {ds : List (Declaration Body)}

section
variable {bound : Nat} {name : String} {ds : List (Declaration Body)} {r : Run} {id : RunbookId}
  {x : Runbook}

/-- A call outside of all instances and units: each of the members has its turn, or one of them
refers to a name that nobody bears. -/
theorem ends_instantiate_fresh {parent : GroupId} (arises : r.session.Arises)
    (known : r.session.runbook? id = some x) (fresh : Members.Fresh name ds x r.session.units)
    (entered : r.session.isActive = true) (current : r.session.currentGroup? = some parent)
    (alone : r.session.currentInstance? = none) (idle : r.session.currentUnit? = none)
    (named : ∀ d ∈ ds, ∀ ref ∈ d.before ++ d.after, ∃ n, ref = .named n)
    (records : ∀ d ∈ ds, d.body.OnlyRecords bound r.session.settings) (vars : Attributes) :
    (instantiate (runWithin bound) id vars).Ends r
      (fun _ b => Members.Closed ds ∧ Members.Wired name ds b.session.units)
      (fun e _ => ¬ Members.Closed ds ∧ ∃ u n, e = .unresolved x.name u n) fun _ => False := by
  obtain ⟨g, declared⟩ := arises.coherent.entered parent (List.mem_of_mem_head? current)
  obtain ⟨p, copied⟩ := (decides_copyGroup arises declared).permitted (by simp [entered])
  have outside : (r.session.newInstance id vars).before = .empty ∧
      (r.session.newInstance id vars).after = .empty := by
    simp [newInstance, alone, idle]
  refine Ends.instantiate arises.homebound id vars (fun e rejected => ?_) ?_
  · exact absurd copied (rejected x parent p known current)
  · intro runbook _ active known' _ _ moves
    obtain rfl := Option.some.inj (known.symm.trans known')
    have unfolded : populate (runWithin bound) x (r.session.newInstance id vars) =
        x.members.values.forM
          (invokeMember (runWithin bound) x (r.session.newInstance id vars)) := by
      rw [populate, fresh.setup]
    have begun : Members.Fresh name ds x (r.session.instantiating id active vars).units := fresh
    have grouped : (r.session.instantiating id active vars).currentGroup? ≠ none :=
      Option.some_ne_none _
    rw [unfolded]
    refine (ends_forM_invokeMember fresh.once grouped fun j hj => ?_).imp (fun _ b populates => ?_)
      (fun e _ misses => begun.not_closed misses) fun _ h => h
    · obtain ⟨⟨n, j⟩, entry, rfl⟩ := List.mem_map.1 hj
      obtain ⟨d, hd, rfl⟩ := (fresh.names n j).1 (OrderedMap.get?_eq_some.2 entry)
      refine ⟨.ofDeclaration j (Runbook.qualified name d.name) d, ?_,
        records d (List.mem_of_getElem? hd)⟩
      exact (begun.unit? j).trans (by rw [hd, Option.map_some])
    · have wired : Members.Closed ds ∧ Members.Wired name ds b.session.units :=
        begun.wired outside.1 outside.2 named populates
      exact wired

theorem ends_inSession_fresh {pattern : Option String} (arises : r.session.Arises)
    (known : r.session.runbook? id = some x) (fresh : Members.Fresh name ds x r.session.units)
    (alone : r.session.currentInstance? = none) (idle : r.session.currentUnit? = none)
    (named : ∀ d ∈ ds, ∀ ref ∈ d.before ++ d.after, ∃ n, ref = .named n)
    (records : ∀ d ∈ ds, d.body.OnlyRecords bound r.session.settings)
    (hosts : r.session.settings.localhostOnly = true ∨
      ∃ p, pattern = some p ∧ Text.isBlank p = false) (attributes vars : Attributes) :
    (inSession (withHosts pattern attributes (instantiate (runWithin bound) id vars))).Ends r
      (fun _ b => Members.Closed ds ∧ Members.Wired name ds b.session.units)
      (fun e _ => ¬ Members.Closed ds ∧ ∃ u n, e = .unresolved x.name u n) fun _ => False := by
  let s : Session := { r.session with scopes := { r.session.scopes with
    sessions := r.session.scopes.sessions.enter r.session.id } }
  have permitted : ¬ s.ForbidsHosts pattern := by
    rintro (inactive | ⟨away, blank⟩)
    · cases inactive
    · rcases hosts with home | ⟨p, rfl, named⟩
      · exact absurd (home.symm.trans away) nofun
      · exact absurd (named.symm.trans (blank p rfl)) nofun
  obtain ⟨⟨group, t⟩, hosted⟩ := (s.decides_declareHosts pattern attributes).permitted permitted
  obtain ⟨p, a, added⟩ := addGroup_of_declareHosts hosted
  obtain ⟨rfl, rfl⟩ := Prod.mk.inj added
  have grouped := s.group?_addGroup p a (s.addGroup p a).1
  rw [if_pos rfl] at grouped
  let under : Session := (s.addGroup p a).2.under (s.scopes.hostGroups.enter (s.addGroup p a).1)
  have moves : r.session.Moves under :=
    ((Relation.ReflTransGen.single (.enter .session)).tail (.update (.hosts hosted))).tail
      (.enter (.hostGroup grouped))
  have tame := tame_instantiate (tame_runWithin bound) id vars
  refine Ends.inSession_left (tame.withHosts pattern attributes)
    (Ends.withHosts_left tame hosted ?_)
  exact ends_instantiate_fresh (r := r.on under) (arises.moves moves) known fresh rfl rfl alone idle
    named records vars

end

/-- Declares a runbook of the members and calls it once, under a host group. -/
def callOnce (bound : Nat) (name : String) (ds : List (Declaration Body))
    (pattern : Option String) (attributes vars : Attributes) : Exec InstanceId := do
  let id ← perform (·.declareRunbook name none ds)
  inSession (withHosts pattern attributes (instantiate (runWithin bound) id vars))

variable {bound : Nat} {ds : List (Declaration Body)} {settings : Settings}
  {pattern : Option String}

theorem tame_callOnce (name : String) (attributes vars : Attributes) :
    (callOnce bound name ds pattern attributes vars).Tame :=
  (tame_perform fun _ _ _ => declareRunbook_updates).bind fun id =>
    ((tame_instantiate (tame_runWithin bound) id vars).withHosts pattern attributes).inSession

theorem ends_callOnce (name : String) (distinct : (ds.map Declaration.name).Nodup)
    (named : ∀ d ∈ ds, ∀ ref ∈ d.before ++ d.after, ∃ n, ref = .named n)
    (records : ∀ d ∈ ds, d.body.OnlyRecords bound settings)
    (hosts : settings.localhostOnly = true ∨ ∃ p, pattern = some p ∧ Text.isBlank p = false)
    (passes : List Pass) (attributes vars : Attributes) :
    (callOnce bound name ds pattern attributes vars).Ends ⟨initial settings passes, []⟩
      (fun _ b => Members.Closed ds ∧ Members.Wired name ds b.session.units ∧ b.session.Arises)
      (fun e _ => ¬ Members.Closed ds ∧ ∃ u n, e = .unresolved name u n) fun _ => False := by
  obtain ⟨members, declared, entries⟩ :=
    (initial settings passes).declareRunbook_of_nodup name none distinct
  let x : Runbook := ⟨⟨0⟩, name, none, members⟩
  let s : Session := { initial settings passes with
    units := (initial settings passes).memberUnits name ds
    runbooks := [x] }
  replace declared : (initial settings passes).declareRunbook name none ds = .ok (⟨0⟩, s) :=
    declared
  have arises : s.Arises := ⟨settings, passes, (declareRunbook_updates declared).moves⟩
  have units : s.units =
      ds.mapIdx fun k d => .ofDeclaration ⟨k⟩ (Runbook.qualified name d.name) d := by
    simp [s, memberUnits, initial]
  have fresh : Members.Fresh name ds x s.units :=
    units ▸ Members.fresh_of_entries (by simpa [initial] using entries) ⟨0⟩
  have called : (callOnce bound name ds pattern attributes vars).Ends ⟨initial settings passes, []⟩
      (fun _ b => Members.Closed ds ∧ Members.Wired name ds b.session.units)
      (fun e _ => ¬ Members.Closed ds ∧ ∃ u n, e = .unresolved name u n) fun _ => False := by
    rw [callOnce, ends_bind, ends_perform, declared, ends_ofExcept_ok]
    exact ends_inSession_fresh (r := ⟨s, []⟩) (x := x) arises rfl fresh rfl rfl named records hosts
      attributes vars
  exact (called.and (tame_callOnce name attributes vars _)).imp
    (fun _ _ h => ⟨h.1.1, h.1.2, settings, passes, h.2.path.moves⟩) (fun _ _ h => h.1)
    fun _ h => h.1

/-- A runbook is called on new sessions, its members once in the one order and once in another. They
bear different names, refer to one another by name and do nothing but record steps. If one of these
names is not that of a member, either call fails on an unresolved name. Otherwise both come to their
end, and if the constraints, as declared, close a cycle, neither session has a dependency graph.
If they do not, both have one, and by name the edges are the same: the declared constraints. -/
theorem callOnce_of_perm (name : String) {ds' : List (Declaration Body)} (perm : ds.Perm ds')
    (distinct : (ds.map Declaration.name).Nodup)
    (named : ∀ d ∈ ds, ∀ ref ∈ d.before ++ d.after, ∃ n, ref = .named n)
    (records : ∀ d ∈ ds, d.body.OnlyRecords bound settings)
    (hosts : settings.localhostOnly = true ∨ ∃ p, pattern = some p ∧ Text.isBlank p = false)
    (passes : List Pass) (attributes vars : Attributes) :
    let outcome (l : List (Declaration Body)) :=
      (callOnce bound name l pattern attributes vars).run ⟨initial settings passes, []⟩
    (¬ Members.Closed ds ∧ (∃ u n b, outcome ds = .error (.failed (.unresolved name u n)) b) ∧
      ∃ u n b, outcome ds' = .error (.failed (.unresolved name u n)) b) ∨
    (Members.Closed ds ∧ ∃ i b i' b', outcome ds = .ok i b ∧ outcome ds' = .ok i' b' ∧
      (((∃ m, Relation.TransGen (Members.Orders ds) m m) ∧
        (∃ x y, b.session.dependencyGraph = .error (.cycle x y)) ∧
        ∃ x y, b'.session.dependencyGraph = .error (.cycle x y)) ∨
      ((∀ m, ¬ Relation.TransGen (Members.Orders ds) m m) ∧ ∃ g g',
        b.session.dependencyGraph = .ok g ∧ b'.session.dependencyGraph = .ok g' ∧
        (∀ e, e ∈ b.session.namedEdges g ↔ ∃ m n, Members.Orders ds m n ∧
          e = (Runbook.qualified name m, Runbook.qualified name n)) ∧
        ∀ e, e ∈ b'.session.namedEdges g' ↔ ∃ m n, Members.Orders ds m n ∧
          e = (Runbook.qualified name m, Runbook.qualified name n)))) := by
  intro outcome
  have distinct' : (ds'.map Declaration.name).Nodup :=
    (perm.map Declaration.name).nodup_iff.1 distinct
  have closed : Members.Closed ds' ↔ Members.Closed ds := ⟨(·.perm perm.symm), (·.perm perm)⟩
  have first : (callOnce bound name ds pattern attributes vars).Ends _ _ _ _ :=
    ends_callOnce name distinct named records hosts passes attributes vars
  have second : (callOnce bound name ds' pattern attributes vars).Ends _ _ _ _ :=
    ends_callOnce name distinct' (fun d hd => named d (perm.mem_iff.2 hd))
      (fun d hd => records d (perm.mem_iff.2 hd)) hosts passes attributes vars
  rw [closed] at second
  rcases first.exists_run with
    ⟨i, b, ran, isClosed, wired, arises⟩ | ⟨_, b, ran, missing, u, n, rfl⟩
  · rcases second.exists_run with ⟨i', b', ran', -, wired', arises'⟩ | ⟨_, _, _, missing, -⟩
    · have graph := wired.dependencyGraph arises distinct isClosed
      have graph' := wired'.dependencyGraph arises' distinct' (closed.2 isClosed)
      rw [Members.orders_of_perm perm] at graph'
      refine .inr ⟨isClosed, i, b, i', b', ran, ran', ?_⟩
      rcases graph with ⟨cyclic, refused⟩ | ⟨acyclic, g, built, edges⟩
      · rcases graph' with ⟨-, refused'⟩ | ⟨acyclic, -⟩
        · exact .inl ⟨cyclic, refused, refused'⟩
        · exact (cyclic.elim acyclic).elim
      · rcases graph' with ⟨cyclic, -⟩ | ⟨-, g', built', edges'⟩
        · exact (cyclic.elim acyclic).elim
        · exact .inr ⟨acyclic, g, g', built, built', edges, edges'⟩
    · exact absurd isClosed missing
  · rcases second.exists_run with ⟨_, _, _, isClosed, -⟩ | ⟨_, b', ran', -, u', n', rfl⟩
    · exact absurd isClosed missing
    · exact .inl ⟨missing, ⟨u, n, b, ran⟩, u', n', b', ran'⟩

/-- Each member but the last refers to the one after it, and the last to the one before it: the
last two state the same constraint. -/
def deployment : List (Declaration Body) :=
  [{ Declaration.new "check" (.step "command" (.text "three")) with after := [.named "start"] },
    { Declaration.new "start" (.script [.step "command" (.text "two") 1 []]) with
      after := [.named "fetch"] },
    { Declaration.new "fetch" (.step "command" (.text "one")) with before := [.named "start"] }]

theorem orders_deployment {m n : String} : Members.Orders deployment m n ↔
    (m, n) = ("fetch", "start") ∨ (m, n) = ("start", "check") := by
  simp [Members.Orders, deployment, Declaration.new]
  grind

theorem callOnce_of_perm_deployment :
    let outcome (l : List (Declaration Body)) :=
      (callOnce 2 "site" l none .empty .empty).run ⟨initial ⟨true, .bundle, none, []⟩ [], []⟩
    ∃ i b i' b' g g', outcome deployment = .ok i b ∧ outcome deployment.reverse = .ok i' b' ∧
      b.session.dependencyGraph = .ok g ∧ b'.session.dependencyGraph = .ok g' ∧
      (∀ e, e ∈ b.session.namedEdges g ↔ e ∈ b'.session.namedEdges g') ∧
      ("site.fetch", "site.start") ∈ b.session.namedEdges g ∧
      ("site.start", "site.check") ∈ b.session.namedEdges g := by
  intro outcome
  have records : ∀ d ∈ deployment, d.body.OnlyRecords 2 ⟨true, .bundle, none, []⟩ := by
    simp only [deployment, List.forall_mem_cons]
    exact ⟨Body.onlyRecords_step _ _ _ _, Body.onlyRecords_script 1 _ (by simp [Stmt.isStep]),
      Body.onlyRecords_step _ _ _ _, by simp⟩
  have named : ∀ d ∈ deployment, ∀ ref ∈ d.before ++ d.after, ∃ n, ref = .named n := by
    simp [deployment, Declaration.new]
  have built : ((callOnce 2 "site" deployment none .empty .empty).result?
      ⟨initial ⟨true, .bundle, none, []⟩ [], []⟩).map
        (fun p => p.2.session.dependencyGraph.toOption.isSome) = some true := by decide +kernel
  obtain ⟨⟨i₀, b₀⟩, ran₀, built⟩ := Option.map_eq_some_iff.1 built
  replace ran₀ : outcome deployment = .ok i₀ b₀ := result?_eq_some.1 ran₀
  rcases callOnce_of_perm "site" (List.reverse_perm deployment).symm (by decide) named records
    (.inl rfl) [] .empty .empty with ⟨-, ⟨_, _, _, failed⟩, -⟩ | ⟨-, i, b, i', b', ran, ran', graph⟩
  · exact nomatch ran₀.symm.trans failed
  · obtain ⟨rfl, rfl⟩ := EStateM.Result.ok.inj (ran₀.symm.trans ran)
    rcases graph with ⟨-, ⟨_, _, refused⟩, -⟩ | ⟨-, g, g', graph, graph', edges, edges'⟩
    · rw [refused] at built
      cases built
    · refine ⟨i₀, b₀, i', b', g, g', ran, ran', graph, graph', fun e => ?_, ?_, ?_⟩
      · rw [edges, edges']
      · exact (edges _).2 ⟨"fetch", "start", orders_deployment.2 (.inl rfl), rfl⟩
      · exact (edges _).2 ⟨"start", "check", orders_deployment.2 (.inr rfl), rfl⟩

end Exec
end Playbook
