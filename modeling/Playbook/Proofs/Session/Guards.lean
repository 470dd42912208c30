import Playbook.Proofs.Session.Coherence

/-! The conditions that a unit finds open when it is invoked. The explicit closing of a condition
stops at them and so does the unwinding at the end of the unit, but a block under a condition takes
off whatever is innermost when it ends. Where its own condition has been closed inside of it, that
is a condition of somebody else. -/

namespace Playbook

def Entry.OfWhen (e : Entry) : Prop := ∃ condition block, e.statement = .when condition block

namespace Session
variable {s t : Session}

theorem Update.scopes_and_floor (h : Update s t) :
    t.scopes = s.scopes ∧ t.guardFloor = s.guardFloor := by
  cases h with
  | hosts declared =>
    obtain ⟨p, a, e⟩ := addGroup_of_declareHosts declared
    obtain rfl : _ = t := congrArg Prod.snd e
    exact ⟨rfl, rfl⟩
  | record recorded =>
    obtain ⟨_, _, -, -, rfl⟩ := recordStep_eq_ok recorded
    exact ⟨rfl, rfl⟩
  | _ => exact ⟨rfl, rfl⟩

theorem Updates.scopes_eq (h : Updates s t) : t.scopes = s.scopes := by
  induction h with
  | refl => rfl
  | tail _ h ih => exact h.scopes_and_floor.1.trans ih

theorem guards_of_exit {scopes : Scopes} {kind : ScopeKind} (h : s.scopes.exit kind = .ok scopes)
    (hk : kind ≠ .guard) : scopes.guards = s.scopes.guards := by
  have left := Scopes.exit_eq_ok h
  cases kind with
  | guard => exact absurd rfl hk
  | _ =>
    obtain ⟨_, _, -, rfl⟩ := left
    rfl

theorem guards_of_entered {scopes : Scopes} {kind : ScopeKind} (h : s.Entered kind scopes)
    (hk : kind ≠ .guard) : scopes.guards = s.scopes.guards := by
  cases h with
  | guard => exact absurd rfl hk
  | _ => rfl

theorem floor_lt_of_ownGuard (h : s.ownGuard = .ok ()) (pos : 0 < s.scopes.guards.depth) :
    s.guardFloor < s.scopes.guards.depth := by
  rcases Nat.lt_or_ge s.guardFloor s.scopes.guards.depth with above | below
  · exact above
  · simp [ownGuard, pos, below] at h

end Session

namespace Run
variable {r a : Run} {base : List String}

/-- No block under a condition ended with fewer conditions open than the given number. -/
def Sparing (depth : Nat) (r : Run) : Prop :=
  ∀ e ∈ r.journal, e.OfWhen → depth ≤ e.session.scopes.guards.depth

/-- The given conditions are and have been open all the time, and nobody may close them. -/
structure Safe (base : List String) (r : Run) : Prop where
  held : base <:+ r.session.scopes.guards.frames
  floor : base.length ≤ r.session.guardFloor
  noted : ∀ e ∈ r.journal, base <:+ e.session.scopes.guards.frames

/-- The run has come back to the conditions of `s`, which were open beneath all others meanwhile. -/
structure Respects (s : Session) (r : Run) : Prop where
  restored : r.session.scopes.guards = s.scopes.guards
  kept : ∀ e ∈ r.journal, s.scopes.guards.toList <+: e.session.scopes.guards.toList

theorem Path.journal_suffix (h : Path r a) : r.journal <:+ a.journal := by
  induction h with
  | refl => exact List.suffix_rfl
  | tail _ step ih =>
    cases step with
    | move => exact ih
    | log => exact ih.trans (List.suffix_cons ..)

theorem Course.sparing {depth : Nat} (h : Course r a) (spares : a.Sparing depth) :
    r.Sparing depth := fun e he => spares e (h.path.journal_suffix.subset he)

theorem Safe.on (h : r.Safe base) {s : Session}
    (guards : s.scopes.guards = r.session.scopes.guards) (floor : base.length ≤ s.guardFloor) :
    (r.on s).Safe base where
  held := by rw [on_session, guards]; exact h.held
  floor := floor
  noted := h.noted

theorem Safe.log (h : r.Safe base) (statement : Stmt) (outcome : Except Error Answer) :
    (r.log statement outcome).Safe base where
  held := h.held
  floor := h.floor
  noted := List.forall_mem_cons.2 ⟨h.held, h.noted⟩

theorem Safe.drop (h : r.Safe base) {s : Session}
    (guards : s.scopes.guards.frames <:+ r.session.scopes.guards.frames)
    (left : base.length ≤ s.scopes.guards.depth) (floor : base.length ≤ s.guardFloor) :
    (r.on s).Safe base where
  held := List.suffix_of_suffix_length_le h.held guards left
  floor := floor
  noted := h.noted

theorem Safe.openGuard (h : r.Safe base) (condition : String) :
    (r.on (r.session.openGuard condition)).Safe base where
  held := h.held.trans (List.suffix_cons ..)
  floor := h.floor
  noted := h.noted

theorem Safe.begin (h : r.Safe base) (id : UnitId) (group : GroupId) :
    (r.on (r.session.begin id group)).Safe base where
  held := h.held
  floor := h.held.length_le
  noted := h.noted

theorem Safe.course (safe : r.Safe base) (h : Course r a) (spares : a.Sparing base.length) :
    a.Safe base := by
  induction h with
  | refl => exact safe
  | update _ hu ih =>
    have kept := ih safe spares
    obtain ⟨scopes, floor⟩ := hu.scopes_and_floor
    exact kept.on (by rw [scopes]) (by rw [floor]; exact kept.floor)
  | log before t o ih =>
    exact (ih safe fun e he => spares e (List.mem_cons_of_mem _ he)).log t o
  | @scope r a b kind entered left before hk he block hl ih ihb =>
    have notGuard : kind ≠ .guard := by rcases hk with rfl | rfl | rfl <;> decide
    have kept := ih safe (block.sparing spares)
    have ended := ihb (kept.on (Session.guards_of_entered he notGuard) kept.floor) spares
    exact ended.on (Session.guards_of_exit hl notGuard) ended.floor
  | openGuard _ c ih => exact (ih safe spares).openGuard c
  | @closeGuard r a left before ho hl ih =>
    have kept := ih safe spares
    obtain ⟨_, rest, frames, rfl⟩ := Scopes.exit_eq_ok hl
    have depth : a.session.scopes.guards.depth = rest.length + 1 := congrArg List.length frames
    have above := Session.floor_lt_of_ownGuard ho (by omega)
    have floor := kept.floor
    refine kept.drop (frames ▸ List.suffix_cons ..) ?_ floor
    show base.length ≤ rest.length
    omega
  | underGuard before c t o block hl ih ihb =>
    have kept := ih safe (block.sparing fun e he => spares e (List.mem_cons_of_mem _ he))
    have ended := ihb (kept.openGuard c) fun e he => spares e (List.mem_cons_of_mem _ he)
    obtain ⟨_, rest, frames, rfl⟩ := Scopes.exit_eq_ok hl
    have left := spares _ (List.mem_cons_self ..) ⟨c, t, rfl⟩
    exact (ended.drop (frames ▸ List.suffix_cons ..) left ended.floor).log (.when c t) o
  | @invoke r a b id u group left before hu hg bound ran block hl ih ihb =>
    have kept := ih safe (block.sparing spares)
    have ended := ihb (kept.begin id group) spares
    have guards : left.guards = b.session.scopes.guards := Session.guards_of_exit hl (by decide)
    refine ended.drop ?_ ?_ kept.floor
    · rw [← guards]
      exact List.drop_suffix ..
    · have outer := kept.held.length_le
      have inner := ended.held.length_le
      simp only [Session.finish, ScopeStack.unwindTo, ScopeStack.depth, List.length_drop, guards]
      omega

end Run

namespace Exec

theorem ends_invoke_sparing (s : Session) (id : UnitId) (bound : Nat) :
    (settle (invoke (runWithin bound) id)).Ends ⟨s, []⟩
      (fun _ r => r.Sparing s.scopes.guards.depth → r.Respects s) (fun _ _ => True)
      fun _ => True := by
  rw [ends_settle]
  let base := s.scopes.guards.frames
  refine Ends.invoke (fun b => b.Sparing base.length → b.Safe base)
    (fun _ => ⟨rfl, by simp⟩) (fun u group _ _ => ?_) (fun b scopes hb hl spares => ?_)
    fun _ _ => trivial
  · have began : ((Run.mk s []).on (s.begin id group)).Safe base :=
      ⟨List.suffix_rfl, Nat.le_refl _, by simp⟩
    exact (tame_runBody (tame_runWithin bound) u.body _).imp
      (fun _ _ course spares => began.course course spares)
      (fun _ _ course spares => began.course course spares) fun _ _ => trivial
  · have safe := hb spares
    have guards : scopes.guards = b.session.scopes.guards := Session.guards_of_exit hl (by decide)
    refine ⟨?_, fun e he => List.reverse_prefix.2 (safe.noted e he)⟩
    -- what stands above the caller's conditions is unwound
    show scopes.guards.unwindTo s.scopes.guards.depth = s.scopes.guards
    rw [guards]
    exact ScopeStack.unwindTo_of_suffix safe.held

/-- A unit respects the conditions of its caller exactly if no block under a condition takes off
one of them. -/
theorem respects_iff_sparing {s : Session} {id : UnitId} {bound : Nat}
    {result : Except Error Unit} {r : Run}
    (h : (settle (invoke (runWithin bound) id)).run ⟨s, []⟩ = .ok result r) :
    r.Respects s ↔ r.Sparing s.scopes.guards.depth := by
  constructor
  · rintro ⟨-, kept⟩ e he -
    simpa using (kept e he).length_le
  · intro spares
    exact (ends_invoke_sparing s id bound).of_ok h spares

/-- A unit closes its own condition from within, so that the block takes off another one when it
ends. Just before the unit is invoked, the script asks for the context. -/
def overdrawnScript : Block :=
  [.declare (.new "inner" [.when "c" [.closeGuard]]), .openGuard "a",
    .enter [.withHosts none .empty [.ask .context, .invoke ⟨0⟩]]]

theorem overdrawn : ∃ (s : Session) (r : Run), s.Reachable ∧ s.scopes.guards.toList = ["a"] ∧
    (settle (invoke (runWithin 3) ⟨0⟩)).run ⟨s, []⟩ = .ok (.ok ()) r ∧
    r.session.scopes.guards.toList = [] := by
  have run : (((Session.initial ⟨true, .bundle, none, []⟩ []).run 5
      overdrawnScript).entries[2]?.map fun e => (e.session.scopes.guards.toList,
        ((invoke (runWithin 3) ⟨0⟩).result? ⟨e.session, []⟩).map fun x =>
          x.2.session.scopes.guards.toList)) = some (["a"], some []) := by decide +kernel
  obtain ⟨e, he, guards⟩ := Option.map_eq_some_iff.1 run
  obtain ⟨before, after⟩ := Prod.mk.inj guards
  obtain ⟨⟨_, r⟩, h, after⟩ := Option.map_eq_some_iff.1 after
  exact ⟨e.session, r, Session.reachable_of_getElem? rfl he, before, run_settle_of_result? h, after⟩

theorem respects_iff_sparing_overdrawn : ∃ (s : Session) (r : Run),
    (settle (invoke (runWithin 3) ⟨0⟩)).run ⟨s, []⟩ = .ok (.ok ()) r ∧
    (r.Respects s ↔ r.Sparing s.scopes.guards.depth) := by
  obtain ⟨s, r, -, -, h, -⟩ := overdrawn
  exact ⟨s, r, h, respects_iff_sparing h⟩

theorem not_forall_restored : ¬ ∀ s : Session, s.Reachable → ∀ id bound result r,
    (settle (invoke (runWithin bound) id)).run ⟨s, []⟩ = .ok result r →
      r.session.scopes.guards = s.scopes.guards := by
  intro all
  obtain ⟨s, r, reachable, before, h, after⟩ := overdrawn
  have same := all s reachable ⟨0⟩ 3 (.ok ()) r h
  rw [same, before] at after
  exact absurd after (by decide)

end Exec
end Playbook
