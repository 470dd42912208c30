import Playbook.Proofs.Session.Outcome

/-! Two actions side by side. Along a map of runs, one mirrors the other if from the image of a run
it does what the other does from the run itself: it gives the same answer or the same error, and
ends in the image of the run in which the other ends. -/

namespace Playbook.Exec
variable {α β : Type}

/-- The outcome of an action, in the image of the run where it ended. -/
def image (f : Run → Run) : EStateM.Result Halt Run α → EStateM.Result Halt Run α
  | .ok a r => .ok a (f r)
  | .error h r => .error h (f r)

theorem image_id (x : EStateM.Result Halt Run α) : image id x = x := by
  cases x <;> rfl

theorem run_perform (g : Session → Except Error (α × Session)) (r : Run) :
    (perform g).run r = match g r.session with
      | .ok p => .ok p.1 (r.on p.2)
      | .error e => .error (.failed e) r := by
  have looked : (perform g).run r = (do
      let p ← ofExcept (g r.session)
      update fun _ => p.2
      return p.1).run r := rfl
  rw [looked]
  cases g r.session <;> rfl

theorem run_leave (kind : ScopeKind) (r : Run) :
    (leave kind).run r = match r.session.scopes.exit kind with
      | .ok scopes => .ok () (r.on { r.session with scopes })
      | .error fault => .error (.fault fault) r := by
  rw [leave, EStateM.run_bind]
  show (match r.session.scopes.exit kind with
    | .ok scopes => update ({ · with scopes })
    | .error fault => throw (.fault fault) : Exec Unit).run r = _
  cases r.session.scopes.exit kind <;> rfl

theorem run_settle_bind (act : Exec α) (after : Except Error α → Exec β) (r : Run) :
    (settle act >>= after).run r = match act.run r with
      | .ok a b => (after (.ok a)).run b
      | .error (.failed e) b => (after (.error e)).run b
      | .error h b => .error h b := by
  rw [EStateM.run_bind, run_settle]
  cases act.run r with
  | ok => rfl
  | error h b => cases h <;> rfl

theorem run_settle_within (kind : ScopeKind) (enter : Scopes → Scopes) (act : Exec α) (r : Run) :
    (settle (within kind enter act)).run r =
      match (settle act).run (r.on { r.session with scopes := enter r.session.scopes }) with
      | .ok result t => match t.session.scopes.exit kind with
        | .ok scopes => .ok result (t.on { t.session with scopes })
        | .error fault => .error (.fault fault) t
      | .error halt t => .error halt t := by
  have left (result : Except Error α) (t : Run) :
      (settle (do leave kind; ofExcept result)).run t =
        match t.session.scopes.exit kind with
        | .ok scopes => .ok result (t.on { t.session with scopes })
        | .error fault => .error (.fault fault) t := by
    rw [run_settle, EStateM.run_bind, run_leave]
    cases t.session.scopes.exit kind with
    | error => rfl
    | ok => cases result <;> rfl
  let entered := r.on { r.session with scopes := enter r.session.scopes }
  have ran : (within kind enter act).run r =
      (settle act >>= fun result => do leave kind; ofExcept result).run entered := rfl
  rw [run_settle, ran, run_settle_bind, run_settle]
  cases act.run entered with
  | ok a t => exact (run_settle ..).symm.trans (left (.ok a) t)
  | error halt t =>
    cases halt with
    | failed e => exact (run_settle ..).symm.trans (left (.error e) t)
    | fault | exhausted => rfl

/-- From `r` the action `act` ends as `done`, `failed` and `stopped` say, and from the image of `r`
the action `shadow` does the same. -/
structure Mirrors (f : Run → Run) (act shadow : Exec α) (r : Run) (done : α → Run → Prop)
    (failed stopped : Run → Prop) : Prop where
  same : shadow.run (f r) = image f (act.run r)
  ends : act.Ends r done (fun _ => failed) stopped

variable {f : Run → Run} {r : Run} {done : α → Run → Prop} {failed stopped : Run → Prop}

namespace Mirrors

/-- Where the shadow ends, so does the action of which it is one. -/
theorem ends_act {act shadow : Exec α} {done' : α → Run → Prop} {failed' : Error → Run → Prop}
    {stopped' : Run → Prop} (h : Mirrors f act shadow r done failed stopped)
    (ends : shadow.Ends (f r) done' failed' stopped') :
    act.Ends r (fun a b => done' a (f b)) (fun e b => failed' e (f b)) fun b => stopped' (f b) := by
  unfold Ends at *
  rw [h.same] at ends
  cases ran : act.run r with
  | ok a b => rwa [ran] at ends
  | error halt b =>
    rw [ran] at ends
    cases halt <;> exact ends

theorem imp {act shadow : Exec α} {done' : α → Run → Prop} {failed' stopped' : Run → Prop}
    (h : Mirrors f act shadow r done failed stopped) (hd : ∀ a b, done a b → done' a b)
    (hf : ∀ b, failed b → failed' b) (hs : ∀ b, stopped b → stopped' b) :
    Mirrors f act shadow r done' failed' stopped' :=
  ⟨h.same, h.ends.imp hd (fun _ => hf) hs⟩

theorem of_ends {act : Exec α} (h : act.Ends r done (fun _ => failed) stopped) :
    Mirrors id act act r done failed stopped := ⟨(image_id _).symm, h⟩

theorem pure {a : α} (h : done a r) : Mirrors f (pure a) (pure a) r done failed stopped :=
  ⟨rfl, h⟩

theorem fail {e : Error} (h : failed r) :
    Mirrors f (Exec.fail e) (Exec.fail e) r done failed stopped := ⟨rfl, h⟩

theorem exhausted (h : stopped r) :
    Mirrors f (throw .exhausted) (throw .exhausted) r done failed stopped := ⟨rfl, h⟩

theorem ofExcept {x : Except Error α} (ok : ∀ a, x = .ok a → done a r)
    (error : ∀ e, x = .error e → failed r) :
    Mirrors f (ofExcept x) (ofExcept x) r done failed stopped := by
  cases x with
  | ok a => exact pure (ok a rfl)
  | error e => exact fail (error e rfl)

theorem bind {act shadow : Exec β} {k k' : β → Exec α} {mid : β → Run → Prop}
    (h : Mirrors f act shadow r mid failed stopped)
    (hk : ∀ b r', mid b r' → Mirrors f (k b) (k' b) r' done failed stopped) :
    Mirrors f (act >>= k) (shadow >>= k') r done failed stopped := by
  obtain ⟨same, ends⟩ := h
  refine ⟨?_, (ends_bind ..).2 (ends.imp_done fun b r' hm => (hk b r' hm).ends)⟩
  simp only [EStateM.run, Bind.bind, EStateM.bind] at same ⊢
  rw [same]
  cases e : act r with
  | error => rfl
  | ok b r' => exact (hk b r' (ends.of_ok e)).same

theorem map {act shadow : Exec β} {g : β → α}
    (h : Mirrors f act shadow r (fun b => done (g b)) failed stopped) :
    Mirrors f (g <$> act) (g <$> shadow) r done failed stopped := by
  obtain ⟨same, ends⟩ := h
  refine ⟨?_, (ends_map ..).2 ends⟩
  simp only [EStateM.run, Functor.map, EStateM.map] at same ⊢
  rw [same]
  cases act r <;> rfl

theorem discard {done : PUnit → Run → Prop} {act shadow : Exec β}
    (h : Mirrors f act shadow r (fun _ => done ⟨⟩) failed stopped) :
    Mirrors f (discard act) (discard shadow) r done failed stopped := h.map

theorem settle {done : Except Error α → Run → Prop} {act shadow : Exec α}
    (h : Mirrors f act shadow r (fun a => done (.ok a)) (fun b => ∀ e, done (.error e) b) stopped) :
    Mirrors f (settle act) (settle shadow) r done failed stopped := by
  obtain ⟨same, ends⟩ := h
  refine ⟨?_, (ends_settle ..).2 (ends.imp (fun _ _ hd => hd) (fun e _ hb => hb e) fun _ hs => hs)⟩
  rw [run_settle, run_settle, same]
  cases act.run r with
  | ok => rfl
  | error h r' => cases h <;> rfl

theorem session {k k' : Session → Exec α}
    (h : Mirrors f (k r.session) (k' (f r).session) r done failed stopped) :
    Mirrors f (session >>= k) (session >>= k') r done failed stopped :=
  ⟨h.same, (ends_bind ..).2 h.ends⟩

theorem look {k : Session → Exec α} {shadow : Exec α}
    (h : Mirrors f (k r.session) shadow r done failed stopped) :
    Mirrors f (Exec.session >>= k) shadow r done failed stopped :=
  ⟨h.same, (ends_bind ..).2 h.ends⟩

theorem update {done : Unit → Run → Prop} {g g' : Session → Session}
    (image : (f r).on (g' (f r).session) = f (r.on (g r.session)))
    (h : done () (r.on (g r.session))) :
    Mirrors f (update g) (update g') r done failed stopped :=
  ⟨congrArg (EStateM.Result.ok ()) image, h⟩

theorem query {g g' : Session → Except Error α} (image : g' (f r).session = g r.session)
    (ok : ∀ a, g r.session = .ok a → done a r) (error : ∀ e, g r.session = .error e → failed r) :
    Mirrors f (query g) (query g') r done failed stopped := by
  refine session ?_
  rw [image]
  exact ofExcept ok error

theorem perform {g g' : Session → Except Error (α × Session)} {t : Session → Session}
    (image : g' (f r).session = (g r.session).map fun p => (p.1, t p.2))
    (on : ∀ s, (f r).on (t s) = f (r.on s))
    (ok : ∀ a s, g r.session = .ok (a, s) → done a (r.on s))
    (error : ∀ e, g r.session = .error e → failed r) :
    Mirrors f (perform g) (perform g') r done failed stopped := by
  refine ⟨?_, (ends_perform ..).2 (ends_ofExcept.2 ⟨fun p hp => ok p.1 p.2 hp, error⟩)⟩
  rw [run_perform, run_perform, image]
  cases g r.session with
  | error e => rfl
  | ok p => exact congrArg (EStateM.Result.ok p.1) (on p.2)

theorem note {done : Unit → Run → Prop} {statement : Stmt} {act shadow : Exec Answer}
    (h : Mirrors f act shadow r
      (fun a b => (f b).log statement (.ok a) = f (b.log statement (.ok a)) ∧
        done () (b.log statement (.ok a)))
      (fun b => ∀ e, (f b).log statement (.error e) = f (b.log statement (.error e)) ∧
        failed (b.log statement (.error e))) stopped) :
    Mirrors f (note statement act) (note statement shadow) r done failed stopped := by
  have settled : Mirrors f (Exec.settle act) (Exec.settle shadow) r
      (fun outcome b => (f b).log statement outcome = f (b.log statement outcome) ∧
        match outcome with
        | .ok _ => done () (b.log statement outcome)
        | .error _ => failed (b.log statement outcome)) failed stopped := settle h
  refine settled.bind fun outcome b hb => ?_
  obtain ⟨kept, hb⟩ := hb
  have noted : Mirrors f (modify fun c => c.log statement outcome)
      (modify fun c => c.log statement outcome) b (fun _ c => c = b.log statement outcome)
      failed stopped :=
    ⟨congrArg (EStateM.Result.ok PUnit.unit) kept, rfl⟩
  refine noted.bind ?_
  rintro _ _ rfl
  cases outcome with
  | ok a => exact discard (pure hb)
  | error e => exact discard (fail hb)

theorem prepare {act shadow : Exec α} {g : Session → Session}
    (hidden : f (r.on (g r.session)) = f r)
    (h : Mirrors f act shadow (r.on (g r.session)) done failed stopped) :
    Mirrors f (do Exec.update g; act) shadow r done failed stopped := by
  refine ⟨?_, (ends_bind ..).2 h.ends⟩
  rw [← hidden, h.same]
  rfl

theorem conclude {act shadow : Exec α} {after : Except Error α → Exec α} {mid : α → Run → Prop}
    {bad : Run → Prop} (h : Mirrors f act shadow r mid bad stopped)
    (ok : ∀ a b, mid a b → ∃ c, (after (.ok a)).run b = .ok a c ∧ f c = f b ∧ done a c)
    (error : ∀ e b, bad b →
      ∃ c, (after (.error e)).run b = .error (.failed e) c ∧ f c = f b ∧ failed c) :
    Mirrors f (Exec.settle act >>= after) shadow r done failed stopped := by
  obtain ⟨same, ends⟩ := h
  have run := run_settle_bind act after r
  have mirrored {x : EStateM.Result Halt Run α} (e : (Exec.settle act >>= after).run r = x)
      (kept : image f (act.run r) = image f x) :
      shadow.run (f r) = image f ((Exec.settle act >>= after).run r) := by
    rw [same, e, kept]
  unfold Ends at ends
  cases e : act.run r with
  | ok a b =>
    rw [e] at ends run
    obtain ⟨c, ran, kept, hd⟩ := ok a b ends
    have ended := run.trans ran
    refine ⟨mirrored ended (e ▸ congrArg (EStateM.Result.ok a) kept.symm), ?_⟩
    unfold Ends
    rwa [ended]
  | error h b =>
    rw [e] at ends run
    cases h with
    | failed x =>
      obtain ⟨c, ran, kept, hf⟩ := error x b ends
      have ended := run.trans ran
      refine ⟨mirrored ended (e ▸ congrArg (EStateM.Result.error _) kept.symm), ?_⟩
      unfold Ends
      rwa [ended]
    | fault | exhausted =>
      refine ⟨mirrored run (by rw [e]), ?_⟩
      unfold Ends
      rwa [run]

end Mirrors
end Playbook.Exec
