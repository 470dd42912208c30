import Mathlib.Data.List.Flatten
import Playbook.Proofs.Session.Accumulation

/-! Plans with runbooks that units instantiate. The members of an instance follow the unit that was
active where the instance was made. They need not come before the other units that follow it. -/

namespace Playbook
open Session

def Session.Awaits (s : Session) (j m : UnitId) : Prop :=
  ∃ u, s.unit? m = some u ∧ .unit j ∈ u.after

theorem Session.Awaits.of_map {s t : Session} {j m : UnitId} {f : UnitId → WorkUnit → WorkUnit}
    (h : s.Awaits j m) (units : ∀ id, t.unit? id = (s.unit? id).map (f id))
    (keeps : ∀ u, s.unit? m = some u → .unit j ∈ u.after → .unit j ∈ (f m u).after) :
    t.Awaits j m := by
  obtain ⟨u, hu, hj⟩ := h
  exact ⟨f m u, by rw [units, hu]; rfl, keeps u hu hj⟩

theorem Session.Awaits.of_append {s t : Session} {j m : UnitId} (h : s.Awaits j m)
    (new : List WorkUnit) (units : t.units = s.units ++ new) : t.Awaits j m := by
  obtain ⟨u, hu, hj⟩ := h
  exact ⟨u, by rw [Session.unit?, units]; exact Run.getElem?_append_of_some hu, hj⟩

namespace Run
variable {r b : Run} {j m : UnitId}

theorem awaits_of_reaches {inst : Instance} {before after : OrderedSet UnitRef}
    (reaches : r.session.Reaches inst m before after) (hj : j ∈ inst.after) :
    (r.session.constrainMember inst m before after).Awaits j m := by
  obtain ⟨-, -, -, -, u, hu, -⟩ := reaches
  refine ⟨_, Session.unit?_modifyUnit_self hu _, ?_⟩
  exact OrderedSet.mem_insertAll.2 (.inr (List.mem_map_of_mem hj))

theorem Stage.awaits (h : Stage r b) (waits : r.session.Awaits j m) : b.session.Awaits j m := by
  have modified (id : UnitId) {f : WorkUnit → WorkUnit}
      (keeps : ∀ u, r.session.unit? id = some u → .unit j ∈ u.after → .unit j ∈ (f u).after) :
      (r.session.modifyUnit id f).Awaits j m := by
    refine waits.of_map (fun i => unit?_modifyUnit ..) fun u hu hj => ?_
    split
    · rename_i same
      exact keeps u (same ▸ hu) hj
    · exact hj
  cases h with
  | quiet _ quiet => exact waits.of_append [] (by rw [List.append_nil]; exact quiet.units)
  | log | create | plan => exact waits
  | record _ recorded =>
    obtain ⟨id, _, -, -, rfl⟩ := recordStep_eq_ok recorded
    exact modified id (f := (·.record _)) fun _ _ hj => hj
  | bind => exact modified _ (f := (·.bind _)) fun _ _ hj => hj
  | declare | gather => exact waits.of_append _ rfl
  | runbook declared =>
    obtain ⟨_, -, rfl, -⟩ := declareRunbook_eq_ok declared
    exact waits.of_append _ rfl
  | constrain _ id _ keepsAfter => exact modified id fun u _ hj => keepsAfter u _ hj
  | merge => exact waits.of_map r.session.unit?_mergeBindings fun _ _ hj => hj
  | reach reaches =>
    obtain ⟨-, x, -, -, u, hu, -, resolved⟩ := reaches
    refine modified _ fun v hv hj => OrderedSet.mem_insertAll.2 (.inl ?_)
    obtain rfl := Option.some.inj (hu.symm.trans hv)
    exact ((Runbook.resolve_eq_ok resolved).2 _).2 ⟨_, hj, rfl⟩

/-- What the notes tell, and the plans. A member that an instance reached waits for the units that
the instance follows. -/
structure Accounts (r : Run) (e : Entry) : Prop where
  reached : ∀ i id, e.statement = .invoke id → e.outcome = .ok (.instantiated i) →
    ∃ inst, r.session.instance? i = some inst ∧ ∀ j ∈ inst.after, r.session.Awaits j id
  created : ∀ runbook vars, e.statement = .instantiate runbook vars → e.outcome = .ok .done →
    ∃ (s : Session) (inst : Instance), s.Made inst ∧ e.session = s.addInstance inst ∧
      r.session.instance? inst.id = some inst
  planned : ∀ form answer, e.statement = .plan form → e.outcome = .ok answer →
    ∃ p, Exec.planAnswer form p = .ok answer ∧ e.session.Plans p

theorem Accounts.stage {e : Entry} (h : r.Accounts e) (next : Stage r b) : b.Accounts e where
  reached i id statement outcome := by
    obtain ⟨inst, hinst, waits⟩ := h.reached i id statement outcome
    exact ⟨inst, next.instance? hinst, fun j hj => next.awaits (waits j hj)⟩
  created runbook vars statement outcome := by
    obtain ⟨s, inst, made, added, known⟩ := h.created runbook vars statement outcome
    exact ⟨s, inst, made, added, next.instance? known⟩
  planned := h.planned

theorem Accounts.of_other {e : Entry} (invoke : ∀ id, e.statement ≠ .invoke id)
    (instantiate : ∀ runbook vars, e.statement ≠ .instantiate runbook vars)
    (plan : ∀ form, e.statement ≠ .plan form) : r.Accounts e where
  reached _ id statement := absurd statement (invoke id)
  created runbook vars statement := absurd statement (instantiate runbook vars)
  planned form _ statement := absurd statement (plan form)

theorem Stage.accounts_told (h : Stage r b) : b.journal = r.journal ∨
    ∃ e, b.journal = e :: r.journal ∧ b.Accounts e := by
  cases h with
  | quiet | record | bind | gather => exact .inl rfl
  | log plain =>
    refine .inr ⟨_, rfl, ?_, ?_, ?_⟩
    · rintro _ _ rfl rfl
      cases plain
    · rintro _ _ rfl rfl
      cases plain
    · rintro _ _ rfl rfl
      cases plain
  | declare | runbook | merge => exact .inr ⟨_, rfl, .of_other nofun nofun nofun⟩
  | @constrain statement constrains =>
    refine .inr ⟨_, rfl, .of_other ?_ ?_ ?_⟩
    · rintro _ (rfl : statement = _)
      cases constrains
    · rintro _ _ (rfl : statement = _)
      cases constrains
    · rintro _ (rfl : statement = _)
      cases constrains
  | create made =>
    refine .inr ⟨_, rfl, fun _ _ h => (nomatch h), fun _ _ _ _ => ⟨_, _, made, rfl, ?_⟩,
      fun _ _ h => (nomatch h)⟩
    rw [made.id_eq]
    exact List.getElem?_concat_length
  | reach reaches =>
    refine .inr ⟨_, rfl, ?_, fun _ _ h => (nomatch h), fun _ _ h => (nomatch h)⟩
    rintro _ _ ⟨⟩ ⟨⟩
    exact ⟨_, reaches.made, fun j hj => awaits_of_reaches reaches hj⟩
  | plan plans answered =>
    refine .inr ⟨_, rfl, fun _ _ h => (nomatch h), fun _ _ h => (nomatch h), ?_⟩
    rintro _ _ ⟨⟩ ⟨⟩
    exact ⟨_, answered, plans⟩

theorem Story.accounts (h : Story r b) (accounts : ∀ e ∈ r.journal, r.Accounts e) :
    ∀ e ∈ b.journal, b.Accounts e := by
  induction h with
  | refl => exact accounts
  | tail before next ih =>
    intro e he
    rcases next.accounts_told with same | ⟨x, journal, told⟩
    · exact (ih e (same ▸ he)).stage next
    · rw [journal] at he
      rcases List.mem_cons.1 he with rfl | he
      · exact told
      · exact (ih e he).stage next

def Instantiates (r : Run) (u : UnitId) (i : InstanceId) : Prop :=
  ∃ e ∈ r.journal, (∃ runbook vars, e.statement = .instantiate runbook vars) ∧
    e.outcome = .ok .done ∧ e.session.currentUnit? = some u ∧
    e.session.instances.getLast?.map Instance.id = some i

/-- The second unit was invoked while the first was active, itself or further out. -/
def InvokedUnder (r : Run) (u x : UnitId) : Prop :=
  ∃ e ∈ r.journal, e.statement = .invoke x ∧ u ∈ e.session.scopes.units.frames

instance (t : Stmt) (id : UnitId) : Decidable (t = .invoke id) :=
  decidable_of_iff ((match t with | .invoke i => some i | _ => none) = some id)
    (by cases t <;> simp)

instance (t : Stmt) : Decidable (∃ runbook vars, t = .instantiate runbook vars) :=
  decidable_of_iff ((match t with | .instantiate .. => true | _ => false) = true)
    (by cases t <;> simp)

instance (outcome : Except Error Answer) : Decidable (outcome = .ok .done) :=
  decidable_of_iff ((match outcome with | .ok .done => true | _ => false) = true)
    (by rcases outcome with _ | answer <;> [simp; cases answer <;> simp])

instance (outcome : Except Error Answer) (i : InstanceId) :
    Decidable (outcome = .ok (.instantiated i)) :=
  decidable_of_iff ((match outcome with | .ok (.instantiated j) => some j | _ => none) = some i)
    (by rcases outcome with _ | answer <;> [simp; cases answer <;> simp])

instance (r : Run) (i : InstanceId) (id : UnitId) : Decidable (r.Reached i id) :=
  inferInstanceAs (Decidable (∃ e ∈ r.journal, _ ∧ _))

instance (r : Run) (u : UnitId) (i : InstanceId) : Decidable (r.Instantiates u i) :=
  inferInstanceAs (Decidable (∃ e ∈ r.journal, _ ∧ _ ∧ _ ∧ _))

instance (r : Run) (u x : UnitId) : Decidable (r.InvokedUnder u x) :=
  inferInstanceAs (Decidable (∃ e ∈ r.journal, _ ∧ _))

theorem Instantiates.follows {u : UnitId} {i : InstanceId} (h : r.Instantiates u i)
    (accounts : ∀ e ∈ r.journal, r.Accounts e) :
    ∃ inst, r.session.instance? i = some inst ∧ u ∈ inst.after := by
  obtain ⟨e, told, ⟨runbook, vars, statement⟩, outcome, active, last⟩ := h
  obtain ⟨s, inst, made, added, known⟩ := (accounts e told).created runbook vars statement outcome
  rw [added] at active last
  have same : inst.id = i := by simpa [addInstance] using last
  refine ⟨inst, same ▸ known, ?_⟩
  have active : s.currentUnit? = some u := active
  rw [made.after, active]
  exact OrderedSet.mem_insertAll.2 (.inr (List.mem_singleton_self u))

theorem Instantiates.awaits {u m : UnitId} {i : InstanceId} (h : r.Instantiates u i)
    (reached : r.Reached i m) (accounts : ∀ e ∈ r.journal, r.Accounts e) :
    r.session.Awaits u m := by
  obtain ⟨inst, hinst, follows⟩ := h.follows accounts
  obtain ⟨e, told, statement, outcome⟩ := reached
  obtain ⟨inst', hinst', waits⟩ := (accounts e told).reached i m statement outcome
  obtain rfl := Option.some.inj (hinst.symm.trans hinst')
  exact waits u follows

end Run

theorem Session.Awaits.precedes {s : Session} {j m : UnitId} (h : s.Awaits j m)
    (bound : m ∈ s.boundUnits) : s.Precedes j m := by
  obtain ⟨u, hu, hj⟩ := h
  exact ⟨m, bound, u, hu, .inr ⟨rfl, hj⟩⟩

theorem Session.Follows.sublist_plays {s : Session} {p : Plan} {order : List UnitId} {a b : UnitId}
    (h : s.Follows p order) (hab : [a, b].Sublist order) :
    (s.playsFor a ++ s.playsFor b).Sublist p.plays := by
  have plays := List.Sublist.flatMap hab s.playsFor
  simpa [h.plays] using plays

/-- Wherever a run has just made a plan, the members that an instance reached come after the unit
that was active where the instance was made, as all that waits for that unit does. -/
theorem Traced.members_follow (settings : Settings) (passes : List Pass) (bound : Nat)
    (script : Block) (n : Nat) {e : Entry} {form : PlanForm} {answer : Answer}
    (last : (upTo (initial settings passes) bound script n).journal.head? = some e)
    (statement : e.statement = .plan form) (outcome : e.outcome = .ok answer) :
    (run (initial settings passes) bound script).erase =
        (initial settings passes).run bound script ∧
      ∃ p order, Exec.planAnswer form p = .ok answer ∧ e.session.Follows p order ∧
        ∀ u i, (upTo (initial settings passes) bound script n).Instantiates u i →
          (∀ m, (upTo (initial settings passes) bound script n).Reached i m →
            m ∈ e.session.boundUnits → [u, m].Sublist order) ∧
          ∀ x, e.session.Precedes u x → [u, x].Sublist order := by
  have sheltered := sheltered_initial settings passes
  have story := story_upTo _ bound script sheltered n
  have accounts := story.accounts fun _ he => absurd he List.not_mem_nil
  have coherent := story.coherent (coherent_initial settings passes)
  have here := session_upTo _ bound script n last
  obtain ⟨p, answered, g, edges, graph, planned⟩ :=
    (accounts e (List.mem_of_mem_head? last)).planned form answer statement outcome
  obtain ⟨order, follows⟩ := (here ▸ coherent).follows graph planned
  refine ⟨run_erase _ bound script sheltered, p, order, answered, follows, fun u i made =>
    ⟨fun m reached member => ?_, fun x hx => follows.ordered u x (.single hx)⟩⟩
  have awaits : e.session.Awaits u m := here ▸ made.awaits reached accounts
  exact follows.ordered u m (.single (awaits.precedes member))

/-- A unit that instantiates a runbook, and another unit that follows it. -/
def followedScript : Block :=
  [.runbook "base" [.new "install" [.step "command" (.text "one") 1 []]] none,
    .declare (.new "deploy" [.instantiate ⟨0⟩ .empty, .step "command" (.text "two") 1 []]),
    .declare { Declaration.new "verify" [.step "command" (.text "three") 1 []] with
      after := [.unit ⟨1⟩] },
    .enter [.withHosts (some "web") .empty [.invoke ⟨1⟩, .invoke ⟨2⟩]],
    .plan .plays]

def followed : Run :=
  Traced.upTo (initial ⟨false, .bundle, none, []⟩ []) 5 followedScript 14

theorem last_followed : ∃ e p, followed.journal.head? = some e ∧ e.statement = .plan .plays ∧
    e.outcome = .ok (.plan p) ∧ p.plays.map Play.name = ["deploy", "verify", "base.install"] := by
  have planned : (followed.journal.head?.bind Entry.plan?).map (fun p => p.plays.map Play.name) =
      some ["deploy", "verify", "base.install"] := by decide +kernel
  obtain ⟨p, answered, names⟩ := Option.map_eq_some_iff.1 planned
  obtain ⟨e, last, answered⟩ := Option.bind_eq_some_iff.1 answered
  obtain ⟨statement, outcome⟩ := Entry.plan?_eq_some.1 answered
  exact ⟨e, p, last, statement, outcome, names⟩

theorem instantiates_followed : followed.Instantiates ⟨1⟩ ⟨0⟩ := by decide +kernel

theorem reached_followed : followed.Reached ⟨0⟩ ⟨0⟩ := by decide +kernel

theorem boundUnits_followed : followed.session.boundUnits = [⟨1⟩, ⟨2⟩, ⟨0⟩] := by decide +kernel

theorem precedes_followed : followed.session.Precedes ⟨1⟩ ⟨2⟩ := by
  have after : (followed.session.unit? ⟨2⟩).map (·.after.toList) = some [.unit ⟨1⟩] := by
    decide +kernel
  obtain ⟨u, hu, after⟩ := Option.map_eq_some_iff.1 after
  have awaits : followed.session.Awaits ⟨1⟩ ⟨2⟩ :=
    ⟨u, hu, by rw [OrderedSet.mem_def, after]; exact List.mem_singleton_self _⟩
  exact awaits.precedes (by simp [boundUnits_followed])

theorem not_forall_members_between : ¬ ∀ (settings : Settings) (passes : List Pass) (bound : Nat)
    (script : Block) (n : Nat) (e : Entry) (form : PlanForm) (answer : Answer),
    (Traced.upTo (initial settings passes) bound script n).journal.head? = some e →
    e.statement = .plan form → e.outcome = .ok answer →
    ∃ p order, Exec.planAnswer form p = .ok answer ∧ e.session.Follows p order ∧
      ∀ u i, (Traced.upTo (initial settings passes) bound script n).Instantiates u i →
        ∀ m, (Traced.upTo (initial settings passes) bound script n).Reached i m →
          m ∈ e.session.boundUnits → ∀ x, e.session.Precedes u x → u ∈ e.session.boundUnits →
          x ∈ e.session.boundUnits →
          ¬ (Traced.upTo (initial settings passes) bound script n).InvokedUnder u x →
          [u, m].Sublist order ∧ [m, x].Sublist order := by
  intro all
  obtain ⟨e, p, last, statement, outcome, names⟩ := last_followed
  obtain ⟨p', order, answered, follows, between⟩ :=
    all ⟨false, .bundle, none, []⟩ [] 5 followedScript 14 e .plays (.plan p) last statement outcome
  obtain rfl : p' = p := by cases answered; rfl
  have here : followed.session = e.session := Traced.session_upTo _ 5 followedScript 14 last
  have bound : e.session.boundUnits = [⟨1⟩, ⟨2⟩, ⟨0⟩] := here ▸ boundUnits_followed
  have member : (followed.session.playsFor ⟨0⟩ ++ followed.session.playsFor ⟨2⟩).map Play.name =
      ["base.install", "verify"] := by decide +kernel
  have apart : ¬ followed.InvokedUnder ⟨1⟩ ⟨2⟩ := by decide +kernel
  rw [here] at member
  obtain ⟨-, wrong⟩ := between ⟨1⟩ ⟨0⟩ instantiates_followed ⟨0⟩ reached_followed (by simp [bound])
    ⟨2⟩ (here ▸ precedes_followed) (by simp [bound]) (by simp [bound]) apart
  have shown := (follows.sublist_plays wrong).map Play.name
  rw [member, names] at shown
  exact absurd shown (by decide)

theorem members_follow_followed : ∃ e p order, followed.journal.head? = some e ∧
    p.plays.map Play.name = ["deploy", "verify", "base.install"] ∧ e.session.Follows p order ∧
    [⟨1⟩, ⟨0⟩].Sublist order ∧ [⟨1⟩, ⟨2⟩].Sublist order := by
  obtain ⟨e, p, last, statement, outcome, names⟩ := last_followed
  obtain ⟨-, p', order, answered, follows, ordered⟩ :=
    Traced.members_follow ⟨false, .bundle, none, []⟩ [] 5 followedScript 14 last statement outcome
  obtain rfl : p' = p := by cases answered; rfl
  have here : followed.session = e.session := Traced.session_upTo _ 5 followedScript 14 last
  have bound : e.session.boundUnits = [⟨1⟩, ⟨2⟩, ⟨0⟩] := here ▸ boundUnits_followed
  obtain ⟨members, others⟩ := ordered ⟨1⟩ ⟨0⟩ instantiates_followed
  exact ⟨e, p', order, last, names, follows, members ⟨0⟩ reached_followed (by simp [bound]),
    others ⟨2⟩ (here ▸ precedes_followed)⟩

end Playbook
