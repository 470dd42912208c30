import Playbook.Proofs.Session.Telling

/-! How the constraints of a unit come about. They are those of its declaration until the unit is
reached as the member of an instance; from then on all names are resolved, and the constraints of
every instance that reached it have been added, in whatever order and however deep within one
another. -/

namespace Playbook
open Session

theorem mem_of_mapM {ε α β : Type} {f : α → Except ε β} {l : List α} {bs : List β}
    (h : l.mapM f = .ok bs) :
    (∀ a ∈ l, ∃ b, f a = .ok b) ∧ ∀ b, b ∈ bs ↔ ∃ a ∈ l, f a = .ok b := by
  induction l generalizing bs with
  | nil =>
    obtain rfl : [] = bs := Except.ok.inj h
    simp
  | cons a l ih =>
    rw [List.mapM_cons] at h
    obtain ⟨b, hb, h⟩ := bind_eq_ok.1 h
    obtain ⟨bs', hbs, h⟩ := bind_eq_ok.1 h
    obtain rfl := Except.ok.inj h
    obtain ⟨all, mem⟩ := ih hbs
    refine ⟨List.forall_mem_cons.2 ⟨⟨b, hb⟩, all⟩, fun c => ?_⟩
    rw [List.mem_cons, mem]
    simp only [List.mem_cons, exists_eq_or_imp, hb, Except.ok.injEq]
    exact or_congr_left eq_comm

theorem mapM_cases {ε α β : Type} (f : α → Except ε β) (l : List α) :
    (∃ a ∈ l, ∃ e, f a = .error e ∧ l.mapM f = .error e) ∨ ∃ bs, l.mapM f = .ok bs := by
  induction l with
  | nil => exact .inr ⟨[], rfl⟩
  | cons a l ih =>
    rw [List.mapM_cons]
    cases ha : f a with
    | error e => exact .inl ⟨a, List.mem_cons_self .., e, ha, rfl⟩
    | ok b =>
      rcases ih with ⟨c, hc, e, he, h⟩ | ⟨bs, h⟩
      · exact .inl ⟨c, List.mem_cons_of_mem _ hc, e, he, by rw [h]; rfl⟩
      · exact .inr ⟨b :: bs, by rw [h]; rfl⟩

namespace Runbook
variable {x : Runbook} {name : String}

theorem resolve_eq_ok {refs out : OrderedSet UnitRef} (h : x.resolve name refs = .ok out) :
    (∀ ref ∈ refs, ∃ y, x.resolveRef name ref = .ok y) ∧
      ∀ y, y ∈ out ↔ ∃ ref ∈ refs, x.resolveRef name ref = .ok y := by
  unfold resolve at h
  cases hm : refs.toList.mapM (x.resolveRef name) with
  | error e => rw [hm] at h; cases h
  | ok l =>
    rw [hm] at h
    obtain rfl := Except.ok.inj h
    obtain ⟨all, mem⟩ := mem_of_mapM hm
    exact ⟨all, fun y => OrderedSet.mem_ofList.trans (mem y)⟩

theorem resolveRef_eq_error {ref : UnitRef} {e : Error} (h : x.resolveRef name ref = .error e) :
    ∃ n, ref = .named n ∧ x.members.get? n = none ∧ e = .unresolved x.name name n := by
  cases ref with
  | unit id => cases h
  | named n =>
    simp only [resolveRef] at h
    split at h
    · cases h
    · exact ⟨n, rfl, ‹_›, (Except.error.inj h).symm⟩

theorem resolve_cases (x : Runbook) (name : String) (refs : OrderedSet UnitRef) :
    (∃ n, .named n ∈ refs ∧ x.members.get? n = none ∧
      x.resolve name refs = .error (.unresolved x.name name n)) ∨
    ∃ out, x.resolve name refs = .ok out := by
  unfold resolve
  rcases mapM_cases (x.resolveRef name) refs.toList with ⟨ref, href, e, he, h⟩ | ⟨bs, h⟩
  · obtain ⟨n, rfl, none, rfl⟩ := resolveRef_eq_error he
    exact .inl ⟨n, href, none, by rw [h]; rfl⟩
  · exact .inr ⟨_, by rw [h]; rfl⟩

theorem resolveRef_eq_ok {ref y : UnitRef} (h : x.resolveRef name ref = .ok y) :
    ∃ id, y = .unit id := by
  cases ref with
  | unit id => exact ⟨id, (Except.ok.inj h).symm⟩
  | named n =>
    simp only [resolveRef] at h
    split at h
    · exact ⟨_, (Except.ok.inj h).symm⟩
    · cases h

end Runbook

namespace Run

/-- The references with which a unit was declared, before and after, as the journal tells. The unit
that gathers facts is declared by a pass and has none. -/
inductive DeclaredWith (r : Run) (id : UnitId) : List UnitRef → List UnitRef → Prop where
  | unit {e : Entry} {d : Declaration Block} (told : e ∈ r.journal)
      (statement : e.statement = .declare d) (outcome : e.outcome = .ok (.declaredUnit id)) :
      DeclaredWith r id d.before d.after
  | member {e : Entry} {name : String} {members : List (Declaration Block)} {setup : Option Block}
      {runbook : RunbookId} {x : Runbook} {d : Declaration Block} (told : e ∈ r.journal)
      (statement : e.statement = .runbook name members setup)
      (outcome : e.outcome = .ok (.declaredRunbook runbook))
      (known : r.session.runbook? runbook = some x) (declared : d ∈ members)
      (named : x.members.get? d.name = some id) : DeclaredWith r id d.before d.after
  | gathering {u : WorkUnit} (known : r.session.unit? id = some u)
      (body : u.body = FactGathering.declaration.body) : DeclaredWith r id [] []

/-- The instance reached the unit as its member, and all names of the unit were resolved. -/
def Reached (r : Run) (i : InstanceId) (id : UnitId) : Prop :=
  ∃ e ∈ r.journal, e.statement = .invoke id ∧ e.outcome = .ok (.instantiated i)

abbrev reach (r : Run) (inst : Instance) (id : UnitId) (before after : OrderedSet UnitRef) : Run :=
  (r.on (r.session.constrainMember inst id before after)).log (.invoke id)
    (.ok (.instantiated inst.id))

/-- In one direction: every declared reference resolves to a sibling, and the constraints are what
they resolve to, with the units of the instances that reached the unit. -/
structure Gathers (r : Run) (x : Runbook) (id : UnitId) (name : String) (declared : List UnitRef)
    (side : Instance → OrderedSet UnitId) (refs : OrderedSet UnitRef) : Prop where
  resolved : ∀ ref ∈ declared, ∃ y, x.resolveRef name ref = .ok y
  mem_iff : ∀ y, y ∈ refs ↔ (∃ ref ∈ declared, x.resolveRef name ref = .ok y) ∨
    ∃ i inst j, r.Reached i id ∧ r.session.instance? i = some inst ∧ j ∈ side inst ∧ y = .unit j
  unnamed : ∀ n, .named n ∉ refs

/-- How the constraints of a unit come about. -/
structure Constrained (r : Run) (id : UnitId) (u : WorkUnit) (before after : List UnitRef) :
    Prop where
  unreached : (∀ i, ¬ r.Reached i id) → u.before = .ofList before ∧ u.after = .ofList after
  reached : ∀ i, r.Reached i id → ∃ inst x, r.session.instance? i = some inst ∧
    r.session.runbook? inst.runbook = some x ∧ id ∈ x.members.values ∧
    r.Gathers x id u.name before Instance.before u.before ∧
    r.Gathers x id u.name after Instance.after u.after

def Creates (r : Run) (inst : Instance) : Prop :=
  ∃ e ∈ r.journal, e.statement = .instantiate inst.runbook inst.vars ∧ e.outcome = .ok .done ∧
    ∃ s : Session, s.Made inst ∧ e.session = s.addInstance inst

/-- What a run keeps of constraints, as long as nobody adds any. -/
structure Accumulates (r : Run) : Prop where
  known : ∀ k x, r.session.runbook? k = some x → ∀ id ∈ x.members.values,
    id.index < r.session.units.length
  apart : ∀ k k' x x' id, r.session.runbook? k = some x → r.session.runbook? k' = some x' →
    id ∈ x.members.values → id ∈ x'.members.values → x = x'
  unit : ∀ id u, r.session.unit? id = some u → ∃ before after,
    r.DeclaredWith id before after ∧ r.Constrained id u before after
  reached : ∀ i id, r.Reached i id → ∃ u, r.session.unit? id = some u
  inst : ∀ i inst, r.session.instance? i = some inst → r.Creates inst

variable {r b : Run}

/-- No constraint is changed. What is new has been declared and is not yet reached. -/
structure Unmoved (r b : Run) : Prop where
  unit : ∀ id v, b.session.unit? id = some v →
    (∃ u, r.session.unit? id = some u ∧ v.name = u.name ∧ v.body = u.body ∧
      v.before = u.before ∧ v.after = u.after) ∨
    r.session.unit? id = none ∧ ∃ before after, b.DeclaredWith id before after ∧
      v.before = .ofList before ∧ v.after = .ofList after
  kept : ∀ id u, r.session.unit? id = some u → ∃ v, b.session.unit? id = some v ∧ v.body = u.body
  runbook : ∀ k x, b.session.runbook? k = some x → r.session.runbook? k = some x ∨
    k = ⟨r.session.runbooks.length⟩ ∧ ∀ id ∈ x.members.values,
      r.session.units.length ≤ id.index ∧ id.index < b.session.units.length
  reached : ∀ i id, b.Reached i id → r.Reached i id
  inst : ∀ i inst, b.session.instance? i = some inst → r.session.instance? i = some inst ∨
    b.Creates inst

theorem Stage.mem_journal (h : Stage r b) {e : Entry} (he : e ∈ r.journal) : e ∈ b.journal := by
  rcases h.told with same | ⟨_, rfl⟩
  · rwa [same]
  · exact List.mem_cons_of_mem _ he

theorem DeclaredWith.stage {id : UnitId} {before after : List UnitRef}
    (h : r.DeclaredWith id before after) (next : Stage r b)
    (kept : ∀ u, r.session.unit? id = some u → ∃ v, b.session.unit? id = some v ∧ v.body = u.body) :
    b.DeclaredWith id before after := by
  cases h with
  | unit told statement outcome => exact .unit (next.mem_journal told) statement outcome
  | member told statement outcome known declared named =>
    exact .member (next.mem_journal told) statement outcome (next.runbook? known) declared named
  | gathering known body =>
    obtain ⟨v, hv, same⟩ := kept _ known
    exact .gathering hv (same.trans body)

theorem Creates.stage {inst : Instance} (h : r.Creates inst) (next : Stage r b) :
    b.Creates inst := by
  obtain ⟨e, told, rest⟩ := h
  exact ⟨e, next.mem_journal told, rest⟩

theorem Reached.stage {i : InstanceId} {id : UnitId} (h : r.Reached i id) (next : Stage r b) :
    b.Reached i id := by
  obtain ⟨e, told, rest⟩ := h
  exact ⟨e, next.mem_journal told, rest⟩

theorem Gathers.stage {x : Runbook} {id : UnitId} {name : String} {declared : List UnitRef}
    {side : Instance → OrderedSet UnitId} {refs : OrderedSet UnitRef}
    (h : r.Gathers x id name declared side refs) (next : Stage r b)
    (made : ∀ i, r.Reached i id → ∃ inst, r.session.instance? i = some inst)
    (reached : ∀ i, b.Reached i id → r.Reached i id) :
    b.Gathers x id name declared side refs := by
  refine ⟨h.resolved, fun y => (h.mem_iff y).trans (or_congr_right ?_), h.unnamed⟩
  constructor
  · rintro ⟨i, inst, j, hi, hinst, hj, rfl⟩
    exact ⟨i, inst, j, hi.stage next, next.instance? hinst, hj, rfl⟩
  · rintro ⟨i, inst, j, hi, hinst, hj, rfl⟩
    obtain ⟨inst', hinst'⟩ := made i (reached i hi)
    obtain rfl := Option.some.inj ((next.instance? hinst').symm.trans hinst)
    exact ⟨i, inst', j, reached i hi, hinst', hj, rfl⟩

theorem Constrained.stage {id : UnitId} {u v : WorkUnit} {before after : List UnitRef}
    (h : r.Constrained id u before after) (next : Stage r b)
    (reached : ∀ i, b.Reached i id → r.Reached i id) (name : v.name = u.name)
    (sameBefore : v.before = u.before) (sameAfter : v.after = u.after) :
    b.Constrained id v before after := by
  have made (i : InstanceId) (hi : r.Reached i id) : ∃ inst, r.session.instance? i = some inst := by
    obtain ⟨inst, _, hinst, -⟩ := h.reached i hi
    exact ⟨inst, hinst⟩
  refine ⟨fun unreached => ?_, fun i hi => ?_⟩
  · rw [sameBefore, sameAfter]
    exact h.unreached fun i hi => unreached i (hi.stage next)
  · obtain ⟨inst, x, hinst, hx, member, gb, ga⟩ := h.reached i (reached i hi)
    rw [name, sameBefore, sameAfter]
    exact ⟨inst, x, next.instance? hinst, next.runbook? hx, member,
      gb.stage next made reached, ga.stage next made reached⟩

theorem Accumulates.unmoved (h : r.Accumulates) (next : Stage r b) (still : Unmoved r b) :
    b.Accumulates := by
  have bounded : r.session.units.length ≤ b.session.units.length := by
    refine Nat.le_of_not_lt fun shorter => ?_
    have old := List.getElem?_eq_getElem shorter
    obtain ⟨v, hv, -⟩ := still.kept ⟨b.session.units.length⟩ _ old
    exact absurd hv (by simp [Session.unit?])
  refine ⟨fun k x hx id hid => ?_, fun k k' x x' id hx hx' hid hid' => ?_, fun id v hv => ?_,
    fun i id hi => ?_, fun i inst hinst => ?_⟩
  · rcases still.runbook k x hx with old | ⟨-, new⟩
    · exact Nat.lt_of_lt_of_le (h.known k x old id hid) bounded
    · exact (new id hid).2
  · rcases still.runbook k x hx with old | ⟨rfl, new⟩
    · rcases still.runbook k' x' hx' with old' | ⟨rfl, new'⟩
      · exact h.apart k k' x x' id old old' hid hid'
      · exact absurd (h.known k x old id hid) (Nat.not_lt.2 (new' id hid').1)
    · rcases still.runbook k' x' hx' with old' | ⟨rfl, -⟩
      · exact absurd (h.known k' x' old' id hid') (Nat.not_lt.2 (new id hid).1)
      · exact Option.some.inj (hx.symm.trans hx')
  · rcases still.unit id v hv with ⟨u, hu, name, -, sameBefore, sameAfter⟩ | ⟨fresh, before, after,
      declared, hb, ha⟩
    · obtain ⟨before, after, declared, constrained⟩ := h.unit id u hu
      refine ⟨before, after, declared.stage next fun u hu => ?_,
        constrained.stage next (fun i => still.reached i id) name sameBefore sameAfter⟩
      exact still.kept id u hu
    · refine ⟨before, after, declared, fun _ => ⟨hb, ha⟩, fun i hi => ?_⟩
      obtain ⟨u, hu⟩ := h.reached i id (still.reached i id hi)
      exact absurd (hu.symm.trans fresh) (Option.some_ne_none u)
  · obtain ⟨u, hu⟩ := h.reached i id (still.reached i id hi)
    obtain ⟨v, hv, -⟩ := still.kept id u hu
    exact ⟨v, hv⟩
  · rcases still.inst i inst hinst with old | new
    · exact (h.inst i inst old).stage next
    · exact new

theorem reached_of_log {e : Entry} {i : InstanceId} {id : UnitId}
    (journal : b.journal = e :: r.journal)
    (other : ∀ id i, e.statement = .invoke id → e.outcome ≠ .ok (.instantiated i))
    (h : b.Reached i id) : r.Reached i id := by
  obtain ⟨x, told, statement, outcome⟩ := h
  rw [journal] at told
  rcases List.mem_cons.1 told with rfl | told
  · exact absurd outcome (other id i statement)
  · exact ⟨x, told, statement, outcome⟩

theorem Unmoved.of_map {f : UnitId → WorkUnit → WorkUnit}
    (units : ∀ id, b.session.unit? id = (r.session.unit? id).map (f id))
    (same : ∀ id u, (f id u).name = u.name ∧ (f id u).body = u.body ∧
      (f id u).before = u.before ∧ (f id u).after = u.after)
    (runbooks : b.session.runbooks = r.session.runbooks)
    (instances : b.session.instances = r.session.instances)
    (reached : ∀ i id, b.Reached i id → r.Reached i id) : Unmoved r b where
  unit id v hv := by
    rw [units] at hv
    obtain ⟨u, hu, rfl⟩ := Option.map_eq_some_iff.1 hv
    exact .inl ⟨u, hu, same id u⟩
  kept id u hu := ⟨f id u, by rw [units, hu]; rfl, (same id u).2.1⟩
  runbook k x hx := .inl (by rwa [Session.runbook?, runbooks] at hx)
  reached := reached
  inst i inst hinst := .inl (by rwa [Session.instance?, instances] at hinst)

theorem Unmoved.of_append {new : List WorkUnit} (units : b.session.units = r.session.units ++ new)
    (declared : ∀ k v, new[k]? = some v → ∃ before after,
      b.DeclaredWith ⟨r.session.units.length + k⟩ before after ∧ v.before = .ofList before ∧
        v.after = .ofList after)
    (runbook : ∀ k x, b.session.runbook? k = some x → r.session.runbook? k = some x ∨
      k = ⟨r.session.runbooks.length⟩ ∧ ∀ id ∈ x.members.values,
        r.session.units.length ≤ id.index ∧ id.index < b.session.units.length)
    (instances : b.session.instances = r.session.instances)
    (reached : ∀ i id, b.Reached i id → r.Reached i id) : Unmoved r b where
  unit id v hv := by
    rw [Session.unit?, units, List.getElem?_append] at hv
    split at hv
    · exact .inl ⟨v, hv, rfl, rfl, rfl, rfl⟩
    · rename_i beyond
      have place : (⟨r.session.units.length + (id.index - r.session.units.length)⟩ : UnitId) =
          id := congrArg UnitId.mk (Nat.add_sub_cancel' (Nat.le_of_not_lt beyond))
      have fresh := declared _ v hv
      rw [place] at fresh
      exact .inr ⟨List.getElem?_eq_none (Nat.le_of_not_lt beyond), fresh⟩
  kept id u hu := ⟨u, by rw [Session.unit?, units]; exact getElem?_append_of_some hu, rfl⟩
  runbook := runbook
  reached := reached
  inst i inst hinst := .inl (by rwa [Session.instance?, instances] at hinst)

theorem Stage.unmoved (h : Stage r b)
    (spontaneous : ∀ e ∈ b.journal, e.statement.constrains = false)
    (unreached : ∀ inst id before after, r.session.Reaches inst id before after →
      b ≠ r.reach inst id before after) : Unmoved r b := by
  have told (i : InstanceId) (id : UnitId) (h : r.Reached i id) : r.Reached i id := h
  cases h with
  | quiet _ quiet =>
    refine .of_map (f := fun _ u => u) (fun id => ?_) (fun _ _ => ⟨rfl, rfl, rfl, rfl⟩)
      quiet.runbooks quiet.instances told
    rw [Option.map_id', Session.unit?, on_session, quiet.units]
    rfl
  | @log statement outcome plain =>
    refine .of_map (f := fun _ u => u) (fun id => Option.map_id'.symm)
      (fun _ _ => ⟨rfl, rfl, rfl, rfl⟩) rfl rfl fun i id => reached_of_log rfl ?_
    rintro id i (rfl : statement = _) (rfl : outcome = _)
    cases plain
  | record grouped recorded =>
    obtain ⟨id, u, -, -, rfl⟩ := recordStep_eq_ok recorded
    refine .of_map (fun j => unit?_modifyUnit ..) (fun j u => ?_) rfl rfl told
    split <;> exact ⟨rfl, rfl, rfl, rfl⟩
  | bind =>
    refine .of_map (fun j => unit?_modifyUnit ..) (fun j u => ?_) rfl rfl told
    split <;> exact ⟨rfl, rfl, rfl, rfl⟩
  | declare d =>
    refine .of_append rfl (fun k v hv => ?_) (fun k x hx => .inl hx) rfl
      fun i id => reached_of_log rfl fun _ _ h => by cases h
    obtain ⟨rfl, rfl⟩ := getElem?_singleton_eq_some hv
    exact ⟨d.before, d.after, .unit (List.mem_cons_self ..) rfl rfl, rfl, rfl⟩
  | gather =>
    refine .of_append rfl (fun k v hv => ?_) (fun k x hx => .inl hx) rfl told
    obtain ⟨rfl, rfl⟩ := getElem?_singleton_eq_some hv
    exact ⟨[], [], .gathering List.getElem?_concat_length rfl, rfl, rfl⟩
  | @runbook name members setup id t declared =>
    obtain ⟨map, rfl, rfl, named, values⟩ := declareRunbook_eq_ok declared
    refine .of_append rfl (fun k v hv => ?_) (fun k x hx => ?_) rfl
      fun i id => reached_of_log rfl fun _ _ h => by cases h
    · rw [memberUnits, List.getElem?_mapIdx, List.getElem?_map, Option.map_map] at hv
      obtain ⟨d, hd, rfl⟩ := Option.map_eq_some_iff.1 hv
      have place := named k (Exec.script d) (by rw [List.getElem?_map, hd]; rfl)
      exact ⟨d.before, d.after, .member (List.mem_cons_self ..) rfl rfl List.getElem?_concat_length
        (List.mem_of_getElem? hd) place, rfl, rfl⟩
    · rcases getElem?_concat_eq_some hx with old | ⟨last, rfl⟩
      · exact .inl old
      · refine .inr ⟨congrArg RunbookId.mk last, fun id hid => ?_⟩
        simpa [memberUnits] using values id hid
  | constrain constrains =>
    exact absurd (spontaneous _ (List.mem_cons_self ..)) (by simp [constrains])
  | merge answer =>
    exact .of_map (f := fun _ => r.session.mergeUnit) r.session.unit?_mergeBindings
      (fun _ _ => ⟨rfl, rfl, rfl, rfl⟩) rfl rfl
      fun i id => reached_of_log rfl fun _ _ h => by cases h
  | @create inst made =>
    have created : Creates ((r.on (r.session.addInstance inst)).log
        (.instantiate inst.runbook inst.vars) (.ok .done)) inst :=
      ⟨_, List.mem_cons_self .., rfl, rfl, r.session, made, rfl⟩
    refine ⟨fun id v hv => .inl ⟨v, hv, rfl, rfl, rfl, rfl⟩, fun id u hu => ⟨u, hu, rfl⟩,
      fun k x hx => .inl hx, fun i id => reached_of_log rfl fun _ _ h => (by cases h),
      fun i x hx => ?_⟩
    rcases getElem?_concat_eq_some hx with old | ⟨-, rfl⟩
    · exact .inl old
    · exact .inr created
  | reach reaches => exact absurd rfl (unreached _ _ _ _ reaches)
  | plan =>
    exact .of_map (f := fun _ u => u) (fun id => Option.map_id'.symm)
      (fun _ _ => ⟨rfl, rfl, rfl, rfl⟩) rfl rfl
      fun i id => reached_of_log rfl fun _ _ h => by cases h

theorem mem_resolved {x : Runbook} {id : UnitId} {name : String} {declared : List UnitRef}
    {side : Instance → OrderedSet UnitId} {refs out : OrderedSet UnitRef}
    (resolved : x.resolve name refs = .ok out)
    (unreached : (∀ i, ¬ r.Reached i id) → refs = .ofList declared)
    (reached : ∀ i, r.Reached i id → r.Gathers x id name declared side refs) :
    (∀ ref ∈ declared, ∃ y, x.resolveRef name ref = .ok y) ∧
      ∀ y, y ∈ out ↔ (∃ ref ∈ declared, x.resolveRef name ref = .ok y) ∨
        ∃ i inst j, r.Reached i id ∧ r.session.instance? i = some inst ∧ j ∈ side inst ∧
          y = .unit j := by
  obtain ⟨all, mem⟩ := Runbook.resolve_eq_ok resolved
  by_cases ever : ∃ i, r.Reached i id
  · -- the names have been resolved before, so this time nothing changes
    obtain ⟨i, hi⟩ := ever
    have gathers := reached i hi
    refine ⟨gathers.resolved, fun y => Iff.trans ?_ (gathers.mem_iff y)⟩
    rw [mem]
    constructor
    · rintro ⟨ref, href, resolved⟩
      cases ref with
      | named n => exact absurd href (gathers.unnamed n)
      | unit j =>
        obtain rfl := Except.ok.inj resolved
        exact href
    · intro hy
      cases y with
      | named n => exact absurd hy (gathers.unnamed n)
      | unit j => exact ⟨.unit j, hy, rfl⟩
  · have never (i : InstanceId) (hi : r.Reached i id) : False := ever ⟨i, hi⟩
    obtain rfl := unreached never
    refine ⟨fun ref href => all ref (OrderedSet.mem_ofList.2 href), fun y => ?_⟩
    rw [mem]
    constructor
    · rintro ⟨ref, href, resolved⟩
      exact .inl ⟨ref, OrderedSet.mem_ofList.1 href, resolved⟩
    · rintro (⟨ref, href, resolved⟩ | ⟨i, -, -, hi, -⟩)
      · exact ⟨ref, OrderedSet.mem_ofList.2 href, resolved⟩
      · exact (never i hi).elim

theorem Gathers.reach {x : Runbook} {id : UnitId} {name : String} {declared : List UnitRef}
    {side : Instance → OrderedSet UnitId} {refs out : OrderedSet UnitRef} {inst : Instance}
    (resolved : x.resolve name refs = .ok out)
    (unreached : (∀ i, ¬ r.Reached i id) → refs = .ofList declared)
    (reached : ∀ i, r.Reached i id → r.Gathers x id name declared side refs)
    (instances : ∀ i, b.session.instance? i = r.session.instance? i)
    (made : r.session.instance? inst.id = some inst)
    (now : ∀ i, b.Reached i id ↔ r.Reached i id ∨ i = inst.id) :
    b.Gathers x id name declared side (out.insertAll ((side inst).toList.map .unit)) := by
  obtain ⟨all, mem⟩ := mem_resolved resolved unreached reached
  have mem_iff (y : UnitRef) : y ∈ out.insertAll ((side inst).toList.map .unit) ↔
      (∃ ref ∈ declared, x.resolveRef name ref = .ok y) ∨
        ∃ i inst j, b.Reached i id ∧ b.session.instance? i = some inst ∧ j ∈ side inst ∧
          y = .unit j := by
    rw [OrderedSet.mem_insertAll, mem, or_assoc]
    refine or_congr_right ?_
    simp only [now, instances, List.mem_map]
    constructor
    · rintro (⟨i, inst', j, hi, rest⟩ | ⟨j, hj, rfl⟩)
      · exact ⟨i, inst', j, .inl hi, rest⟩
      · exact ⟨inst.id, inst, j, .inr rfl, made, hj, rfl⟩
    · rintro ⟨i, inst', j, hi | rfl, hinst, hj, rfl⟩
      · exact .inl ⟨i, inst', j, hi, hinst, hj, rfl⟩
      · obtain rfl := Option.some.inj (made.symm.trans hinst)
        exact .inr ⟨j, hj, rfl⟩
  refine ⟨all, mem_iff, fun n hn => ?_⟩
  rcases (mem_iff _).1 hn with ⟨ref, -, resolved⟩ | ⟨-, -, j, -, -, -, same⟩
  · obtain ⟨j, same⟩ := Runbook.resolveRef_eq_ok resolved
    cases same
  · cases same

section reach
variable {inst : Instance} {id j : UnitId} {i : InstanceId} {before after : OrderedSet UnitRef}

theorem reached_reach : (r.reach inst id before after).Reached i j ↔
    r.Reached i j ∨ j = id ∧ i = inst.id := by
  constructor
  · rintro ⟨e, told, statement, outcome⟩
    rcases List.mem_cons.1 told with rfl | told
    · cases statement
      cases outcome
      exact .inr ⟨rfl, rfl⟩
    · exact .inl ⟨e, told, statement, outcome⟩
  · rintro (⟨e, told, rest⟩ | ⟨rfl, rfl⟩)
    · exact ⟨e, List.mem_cons_of_mem _ told, rest⟩
    · exact ⟨_, List.mem_cons_self .., rfl, rfl⟩

theorem unit?_reach : (r.reach inst id before after).session.unit? j =
    (r.session.unit? j).map fun u => if id = j then
      { u with
        before := before.insertAll (inst.before.toList.map .unit)
        after := after.insertAll (inst.after.toList.map .unit) } else u :=
  unit?_modifyUnit ..

theorem unit_kept_reach {u : WorkUnit} (hu : r.session.unit? j = some u) :
    ∃ v, (r.reach inst id before after).session.unit? j = some v ∧ v.body = u.body := by
  refine ⟨_, by rw [unit?_reach, hu]; rfl, ?_⟩
  split <;> rfl

theorem Constrained.reach (h : r.Accumulates) {u : WorkUnit}
    {declaredBefore declaredAfter : List UnitRef}
    (reaches : r.session.Reaches inst id before after) (hu : r.session.unit? id = some u)
    (constrained : r.Constrained id u declaredBefore declaredAfter) :
    (r.reach inst id before after).Constrained id
      { u with
        before := before.insertAll (inst.before.toList.map .unit)
        after := after.insertAll (inst.after.toList.map .unit) } declaredBefore declaredAfter := by
  obtain ⟨made, x, hx, member, v, hv, hb, ha⟩ := reaches
  obtain rfl := Option.some.inj (hv.symm.trans hu)
  -- whatever instance has reached the unit, it is one of the same runbook
  have earlier (i : InstanceId) (hi : r.Reached i id) :
      (∃ inst, r.session.instance? i = some inst ∧ r.session.runbook? inst.runbook = some x) ∧
        r.Gathers x id v.name declaredBefore Instance.before v.before ∧
        r.Gathers x id v.name declaredAfter Instance.after v.after := by
    obtain ⟨inst', x', hinst', hx', member', gathers⟩ := constrained.reached i hi
    obtain rfl := h.apart _ _ x x' id hx hx' member member'
    exact ⟨⟨inst', hinst', hx'⟩, gathers⟩
  have now (i : InstanceId) : (r.reach inst id before after).Reached i id ↔
      r.Reached i id ∨ i = inst.id := by
    rw [reached_reach, and_iff_right rfl]
  have gathersBefore :
      (r.reach inst id before after).Gathers x id v.name declaredBefore Instance.before _ :=
    .reach hb (fun never => (constrained.unreached never).1)
      (fun i hi => (earlier i hi).2.1) (fun _ => rfl) made now
  have gathersAfter :
      (r.reach inst id before after).Gathers x id v.name declaredAfter Instance.after _ :=
    .reach ha (fun never => (constrained.unreached never).2)
      (fun i hi => (earlier i hi).2.2) (fun _ => rfl) made now
  refine ⟨fun never => absurd ((now _).2 (.inr rfl)) (never _), fun i hi => ?_⟩
  rcases (now i).1 hi with hi | rfl
  · obtain ⟨⟨inst', hinst', hx'⟩, -⟩ := earlier i hi
    exact ⟨inst', x, hinst', hx', member, gathersBefore, gathersAfter⟩
  · exact ⟨inst, x, made, hx, member, gathersBefore, gathersAfter⟩

theorem Accumulates.reach (h : r.Accumulates) (reaches : r.session.Reaches inst id before after) :
    (r.reach inst id before after).Accumulates := by
  have next := Stage.reach reaches
  refine ⟨fun k y hy j hj => ?_, h.apart, fun j v hv => ?_, fun i j hi => ?_,
    fun i y hy => (h.inst i y hy).stage next⟩
  · simpa [constrainMember, modifyUnit] using h.known k y hy j hj
  · rw [unit?_reach] at hv
    obtain ⟨w, hw, rfl⟩ := Option.map_eq_some_iff.1 hv
    obtain ⟨declaredBefore, declaredAfter, declared, constrained⟩ := h.unit j w hw
    refine ⟨declaredBefore, declaredAfter, declared.stage next fun _ => unit_kept_reach, ?_⟩
    split
    · rename_i same
      subst same
      exact .reach h reaches hw constrained
    · rename_i other
      refine constrained.stage next (fun i hi => ?_) rfl rfl rfl
      exact (reached_reach.1 hi).resolve_right fun e => other e.1.symm
  · rcases reached_reach.1 hi with hi | ⟨rfl, -⟩
    · obtain ⟨w, hw⟩ := h.reached i j hi
      obtain ⟨v, hv, -⟩ := unit_kept_reach hw
      exact ⟨v, hv⟩
    · obtain ⟨-, x, -, -, u, hu, -⟩ := reaches
      obtain ⟨v, hv, -⟩ := unit_kept_reach hu
      exact ⟨v, hv⟩

end reach

theorem Accumulates.stage (h : r.Accumulates) (next : Stage r b)
    (spontaneous : ∀ e ∈ b.journal, e.statement.constrains = false) : b.Accumulates := by
  by_cases reached : ∃ inst id before after, r.session.Reaches inst id before after ∧
      b = r.reach inst id before after
  · obtain ⟨inst, id, before, after, reaches, rfl⟩ := reached
    exact h.reach reaches
  · exact h.unmoved next (next.unmoved spontaneous fun inst id before after reaches same =>
      reached ⟨inst, id, before, after, reaches, same⟩)

theorem Story.accumulates (h : Story r b) (accumulates : r.Accumulates)
    (spontaneous : ∀ e ∈ b.journal, e.statement.constrains = false) : b.Accumulates := by
  induction h with
  | refl => exact accumulates
  | tail before next ih =>
    exact (ih fun e he => spontaneous e (next.mem_journal he)).stage next spontaneous

theorem accumulates_initial (settings : Settings) (passes : List Pass) :
    Accumulates ⟨initial settings passes, []⟩ := by
  constructor <;> simp [initial, Session.unit?, Session.runbook?, Session.instance?, Reached]

end Run

theorem Exec.invokeMember_cases (call : Block → Exec Unit) (x : Runbook) (inst : Instance)
    {id : UnitId} {r : Run} {u : WorkUnit} (hu : r.session.unit? id = some u) :
    (∃ n, (.named n ∈ u.before ∨ .named n ∈ u.after) ∧ x.members.get? n = none ∧
      (invokeMember call x inst id).run r =
        .error (.failed (.unresolved x.name u.name n)) r) ∨
    ∃ before after, x.resolve u.name u.before = .ok before ∧
      x.resolve u.name u.after = .ok after ∧
      (invokeMember call x inst id).run r =
        (invoke call id).run (r.on (r.session.constrainMember inst id before after)) := by
  have known : r.session.getUnit id = .ok u := by rw [getUnit, hu]
  have looked : (invokeMember call x inst id).run r = (do
      let u ← ofExcept (r.session.getUnit id)
      let before ← ofExcept (x.resolve u.name u.before)
      let after ← ofExcept (x.resolve u.name u.after)
      update (·.constrainMember inst id before after)
      invoke call id).run r := rfl
  rw [looked, known]
  simp only [ofExcept, pure_bind]
  rcases x.resolve_cases u.name u.before with ⟨n, hn, none, hb⟩ | ⟨before, hb⟩
  · exact .inl ⟨n, .inl hn, none, by rw [hb]; rfl⟩
  · simp only [hb, pure_bind]
    rcases x.resolve_cases u.name u.after with ⟨n, hn, none, ha⟩ | ⟨after, ha⟩
    · exact .inl ⟨n, .inr hn, none, by rw [ha]; rfl⟩
    · exact .inr ⟨before, after, rfl, ha, by rw [ha]; rfl⟩

theorem Exec.Ends.invokeMember {call : Block → Exec Unit} {x : Runbook} {inst : Instance} {r : Run}
    {id : UnitId} {u : WorkUnit} {done : Unit → Run → Prop} {failed : Error → Run → Prop}
    {stopped : Run → Prop} (known : r.session.unit? id = some u)
    (missing : ∀ n, (.named n ∈ u.before ∨ .named n ∈ u.after) → x.members.get? n = none →
      failed (.unresolved x.name u.name n) r)
    (resolved : ∀ before after, x.resolve u.name u.before = .ok before →
      x.resolve u.name u.after = .ok after → (Exec.invoke call id).Ends
        (r.on (r.session.constrainMember inst id before after)) done failed stopped) :
    (Exec.invokeMember call x inst id).Ends r done failed stopped := by
  rcases Exec.invokeMember_cases call x inst known with
    ⟨n, named, none, ran⟩ | ⟨before, after, hb, ha, ran⟩
  · rw [Exec.Ends, ran]
    exact missing n named none
  · rw [Exec.Ends, ran]
    exact resolved before after hb ha

/-- Wherever a run stands that has added no constraints, those of each unit are the declared ones
until an instance reaches it, and then the resolved ones together with the units of all instances
that reached it; each instance has taken its units from where it was made. A member of which a name
is not resolved is left as it is. -/
theorem Traced.constraints_upTo (settings : Settings) (passes : List Pass) (bound : Nat)
    (script : Block) (n : Nat)
    (spontaneous : ∀ e ∈ (upTo (initial settings passes) bound script n).journal,
      e.statement.constrains = false) :
    (run (initial settings passes) bound script).erase =
        (initial settings passes).run bound script ∧
      (∀ id u, (upTo (initial settings passes) bound script n).session.unit? id = some u →
        ∃ before after,
          (upTo (initial settings passes) bound script n).DeclaredWith id before after ∧
          (upTo (initial settings passes) bound script n).Constrained id u before after) ∧
      (∀ i inst, (upTo (initial settings passes) bound script n).session.instance? i = some inst →
        (upTo (initial settings passes) bound script n).Creates inst) ∧
      ∀ (call : Block → Exec Unit) (x : Runbook) (inst : Instance) (id : UnitId) (r : Run)
        (u : WorkUnit), r.session.unit? id = some u →
        (∃ n, (.named n ∈ u.before ∨ .named n ∈ u.after) ∧ x.members.get? n = none ∧
          (Exec.invokeMember call x inst id).run r =
            .error (.failed (.unresolved x.name u.name n)) r) ∨
        ∃ before after, x.resolve u.name u.before = .ok before ∧
          x.resolve u.name u.after = .ok after ∧
          (Exec.invokeMember call x inst id).run r =
            (Exec.invoke call id).run (r.on (r.session.constrainMember inst id before after)) := by
  have sheltered := sheltered_initial settings passes
  have accumulates := (story_upTo _ bound script sheltered n).accumulates
    (Run.accumulates_initial settings passes) spontaneous
  exact ⟨run_erase _ bound script sheltered, accumulates.unit, accumulates.inst,
    fun call x inst _ _ _ hu => Exec.invokeMember_cases call x inst hu⟩

/-- A runbook used twice, once by a member of another runbook. One of its members refers to a
sibling by name. -/
def reusedRunbookScript : Block :=
  [.runbook "base" [.new "install" [.step "command" (.text "one") 1 []],
      { Declaration.new "start" [.step "command" (.text "two") 1 []] with
        after := [.named "install"] }] none,
    .runbook "site" [.new "deploy" [.instantiate ⟨0⟩ .empty]] none,
    .enter [.withHosts (some "web") .empty [.instantiate ⟨0⟩ .empty, .instantiate ⟨1⟩ .empty]]]

theorem constraints_upTo_reusedRunbookScript :
    ∃ u, (Traced.upTo (initial ⟨false, .bundle, none, []⟩ []) 6 reusedRunbookScript
        16).session.unit? ⟨1⟩ = some u ∧ u.after.toList = [.unit ⟨0⟩, .unit ⟨2⟩] ∧
      ∃ before after, (Traced.upTo (initial ⟨false, .bundle, none, []⟩ []) 6 reusedRunbookScript
          16).DeclaredWith ⟨1⟩ before after ∧
        (Traced.upTo (initial ⟨false, .bundle, none, []⟩ []) 6 reusedRunbookScript
          16).Constrained ⟨1⟩ u before after := by
  have constraints : ((Traced.upTo (initial ⟨false, .bundle, none, []⟩ []) 6 reusedRunbookScript
      16).session.unit? ⟨1⟩).map (·.after.toList) = some [.unit ⟨0⟩, .unit ⟨2⟩] := by
    decide +kernel
  have spontaneous : ((Traced.upTo (initial ⟨false, .bundle, none, []⟩ []) 6 reusedRunbookScript
      16).journal.all fun e => !e.statement.constrains) = true := by
    decide +kernel
  obtain ⟨u, hu, after⟩ := Option.map_eq_some_iff.1 constraints
  refine ⟨u, hu, after, (Traced.constraints_upTo _ _ 6 reusedRunbookScript 16
    fun e he => ?_).2.1 ⟨1⟩ u hu⟩
  simpa using List.all_eq_true.1 spontaneous e he

end Playbook
