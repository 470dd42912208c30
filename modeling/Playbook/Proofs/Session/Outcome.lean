import Playbook.Session.Execution

/-! The ways in which an action can end, as conditions on where it started. Each of the actions of
which runs are made has one equation, so a condition on a larger action is worked out piece by
piece: `simp` carries it backwards through the action. -/

namespace Playbook

namespace Run

def on (r : Run) (s : Session) : Run := { r with session := s }

def log (r : Run) (statement : Stmt) (outcome : Except Error Answer) : Run :=
  { r with journal := ⟨statement, r.session, outcome⟩ :: r.journal }

@[simp] theorem on_session (r : Run) (s : Session) : (r.on s).session = s := rfl

@[simp] theorem on_journal (r : Run) (s : Session) : (r.on s).journal = r.journal := rfl

@[simp] theorem log_session (r : Run) (statement : Stmt) (outcome : Except Error Answer) :
    (r.log statement outcome).session = r.session := rfl

@[simp] theorem log_journal (r : Run) (statement : Stmt) (outcome : Except Error Answer) :
    (r.log statement outcome).journal = ⟨statement, r.session, outcome⟩ :: r.journal := rfl

end Run

namespace Exec
variable {α β : Type}

/-- From `r` the action ends well only as `done` says, fails only as `failed` says, and stops for
any other reason only as `stopped` says. -/
def Ends (act : Exec α) (r : Run) (done : α → Run → Prop) (failed : Error → Run → Prop)
    (stopped : Run → Prop) : Prop :=
  match act.run r with
  | .ok a r' => done a r'
  | .error (.failed e) r' => failed e r'
  | .error _ r' => stopped r'

variable {r : Run} {done : α → Run → Prop} {failed : Error → Run → Prop} {stopped : Run → Prop}

theorem Ends.imp {act : Exec α} {done' : α → Run → Prop} {failed' : Error → Run → Prop}
    {stopped' : Run → Prop} (h : act.Ends r done failed stopped)
    (hd : ∀ a r, done a r → done' a r) (hf : ∀ e r, failed e r → failed' e r)
    (hs : ∀ r, stopped r → stopped' r) : act.Ends r done' failed' stopped' := by
  unfold Ends at *
  split at h
  · exact hd _ _ h
  · exact hf _ _ h
  · exact hs _ h

theorem Ends.imp_done {act : Exec α} {done' : α → Run → Prop}
    (h : act.Ends r done failed stopped) (hd : ∀ a r, done a r → done' a r) :
    act.Ends r done' failed stopped :=
  h.imp hd (fun _ _ hf => hf) fun _ hs => hs

theorem Ends.and {act : Exec α} {done' : α → Run → Prop} {failed' : Error → Run → Prop}
    {stopped' : Run → Prop} (h : act.Ends r done failed stopped)
    (h' : act.Ends r done' failed' stopped') :
    act.Ends r (fun a b => done a b ∧ done' a b) (fun e b => failed e b ∧ failed' e b)
      fun b => stopped b ∧ stopped' b := by
  unfold Ends at *
  split at h <;> exact ⟨h, by simp_all⟩

theorem Ends.of_forall {act : Exec α} (hd : ∀ a r, done a r) (hf : ∀ e r, failed e r)
    (hs : ∀ r, stopped r) : act.Ends r done failed stopped := by
  unfold Ends
  split
  · exact hd _ _
  · exact hf _ _
  · exact hs _

theorem Ends.of_ok {act : Exec α} {a : α} {r' : Run} (h : act.Ends r done failed stopped)
    (ok : act.run r = .ok a r') : done a r' := by
  simpa [Ends, ok] using h

theorem ends_of_run {act : Exec α} {a : α} {r' : Run} (h : act.run r = .ok a r') :
    act.Ends r done failed stopped ↔ done a r' := by
  simp [Ends, h]

theorem Ends.exists_run {act : Exec α} (h : act.Ends r done failed fun _ => False) :
    (∃ a b, act.run r = .ok a b ∧ done a b) ∨
      ∃ e b, act.run r = .error (.failed e) b ∧ failed e b := by
  unfold Ends at h
  split at h
  · exact .inl ⟨_, _, ‹_›, h⟩
  · exact .inr ⟨_, _, ‹_›, h⟩
  · exact h.elim

@[simp] theorem ends_pure (a : α) : (pure a : Exec α).Ends r done failed stopped ↔ done a r :=
  Iff.rfl

@[simp] theorem ends_bind (act : Exec β) (f : β → Exec α) :
    (act >>= f).Ends r done failed stopped ↔
      act.Ends r (fun b r' => (f b).Ends r' done failed stopped) failed stopped := by
  simp only [Ends, EStateM.run, bind, EStateM.bind]
  cases act r with
  | ok b r' => rfl
  | error h r' => cases h <;> rfl

@[simp] theorem ends_map (act : Exec β) (f : β → α) :
    (f <$> act).Ends r done failed stopped ↔
      act.Ends r (fun b r' => done (f b) r') failed stopped := by
  simp only [Ends, EStateM.run, Functor.map, EStateM.map]
  cases act r with
  | ok b r' => rfl
  | error h r' => cases h <;> rfl

@[simp] theorem ends_discard {failed : Error → Run → Prop} {done : PUnit → Run → Prop}
    (act : Exec β) : (discard act).Ends r done failed stopped ↔
      act.Ends r (fun _ r' => done ⟨⟩ r') failed stopped :=
  ends_map act _

@[simp] theorem ends_fail (e : Error) :
    (fail e : Exec α).Ends r done failed stopped ↔ failed e r := Iff.rfl

@[simp] theorem ends_fault (f : Fault) :
    (throw (.fault f) : Exec α).Ends r done failed stopped ↔ stopped r := Iff.rfl

@[simp] theorem ends_exhausted :
    (throw .exhausted : Exec α).Ends r done failed stopped ↔ stopped r := Iff.rfl

@[simp] theorem ends_ofExcept_ok (a : α) :
    (ofExcept (.ok a)).Ends r done failed stopped ↔ done a r := Iff.rfl

@[simp] theorem ends_ofExcept_error (e : Error) :
    (ofExcept (.error e) : Exec α).Ends r done failed stopped ↔ failed e r := Iff.rfl

theorem ends_ofExcept {x : Except Error α} : (ofExcept x).Ends r done failed stopped ↔
    (∀ a, x = .ok a → done a r) ∧ ∀ e, x = .error e → failed e r := by
  cases x <;> simp

@[simp] theorem ends_session {done : Session → Run → Prop} :
    session.Ends r done failed stopped ↔ done r.session r := Iff.rfl

@[simp] theorem ends_update {done : Unit → Run → Prop} (f : Session → Session) :
    (update f).Ends r done failed stopped ↔ done () (r.on (f r.session)) := Iff.rfl

@[simp] theorem ends_query (f : Session → Except Error α) :
    (query f).Ends r done failed stopped ↔
      (ofExcept (f r.session)).Ends r done failed stopped := Iff.rfl

@[simp] theorem ends_perform (f : Session → Except Error (α × Session)) :
    (perform f).Ends r done failed stopped ↔
      (ofExcept (f r.session)).Ends r
        (fun p r => done p.1 (r.on p.2)) failed stopped := by
  simp only [perform, ends_bind, ends_query, ends_update, ends_pure]

@[simp] theorem ends_apply (f : Session → α × Session) :
    (apply f).Ends r done failed stopped ↔
      done (f r.session).1 (r.on (f r.session).2) := by
  simp only [apply, ends_perform, ends_ofExcept_ok]

theorem run_settle (act : Exec α) (r : Run) : (settle act).run r = match act.run r with
    | .ok a b => .ok (.ok a) b
    | .error (.failed e) b => .ok (.error e) b
    | .error h b => .error h b := by
  simp only [settle, EStateM.run, tryCatch, tryCatchThe, MonadExceptOf.tryCatch]
  delta EStateM.tryCatch
  simp only [Functor.map, EStateM.map]
  cases act r with
  | ok b r' => rfl
  | error h r' => cases h <;> rfl

@[simp] theorem ends_settle {done : Except Error α → Run → Prop} (act : Exec α) :
    (settle act).Ends r done failed stopped ↔
      act.Ends r (fun a => done (.ok a)) (fun e => done (.error e)) stopped := by
  rw [Ends, Ends, run_settle]
  cases act.run r with
  | ok b r' => rfl
  | error h r' => cases h <;> rfl

theorem ends_leave {done : Unit → Run → Prop} (kind : ScopeKind) :
    (leave kind).Ends r done failed stopped ↔
      match r.session.scopes.exit kind with
      | .ok scopes => done () (r.on { r.session with scopes })
      | .error _ => stopped r := by
  simp only [leave, ends_bind, ends_session]
  cases r.session.scopes.exit kind <;> simp

@[simp] theorem ends_note {done : Unit → Run → Prop} (statement : Stmt) (act : Exec Answer) :
    (note statement act).Ends r done failed stopped ↔
      act.Ends r (fun a r' => done () (r'.log statement (.ok a)))
        (fun e r' => failed e (r'.log statement (.error e))) stopped := by
  simp only [note, ends_bind, ends_settle, ends_discard]
  rfl

def result? (act : Exec α) (r : Run) : Option (α × Run) :=
  match act.run r with
  | .ok a b => some (a, b)
  | .error .. => none

theorem result?_eq_some {act : Exec α} {a : α} {b : Run} :
    act.result? r = some (a, b) ↔ act.run r = .ok a b := by
  unfold result?
  cases act.run r <;> simp

theorem run_settle_of_result? {act : Exec α} {a : α} {b : Run}
    (h : act.result? r = some (a, b)) : (settle act).run r = .ok (.ok a) b := by
  rw [run_settle, result?_eq_some.1 h]

/-- From `r` the action comes to an end in `b`, be it a good one or a failure. -/
def Concludes (act : Exec α) (r b : Run) : Prop := ∃ result, (settle act).run r = .ok result b

theorem Ends.concludes {act : Exec α} (h : act.Ends r done failed stopped) :
    act.Ends r (fun a b => act.Concludes r b ∧ done a b) (fun e b => act.Concludes r b ∧ failed e b)
      stopped := by
  have settled : (settle act).Ends r (fun _ => act.Concludes r) (fun _ _ => True)
      fun _ => True := by
    unfold Ends
    split
    · rename_i result b ran
      exact ⟨result, ran⟩
    · trivial
    · trivial
  exact (((ends_settle act).1 settled).and h).imp (fun _ _ hb => hb) (fun _ _ hb => hb)
    fun _ hs => hs.2

theorem Ends.of_concludes {act : Exec α} {post : Run → Prop}
    (h : act.Ends r (fun _ => post) (fun _ => post) stopped) {b : Run}
    (concluded : act.Concludes r b) : post b := by
  obtain ⟨result, ran⟩ := concluded
  have settled : (settle act).Ends r (fun _ => post) (fun _ _ => True) stopped :=
    (ends_settle act).2 h
  exact settled.of_ok ran

variable {mid post : Run → Prop}

theorem Ends.within {act : Exec α} {kind : ScopeKind} {enter : Scopes → Scopes}
    (block : act.Ends (r.on { r.session with scopes := enter r.session.scopes })
      (fun _ => mid) (fun _ => mid) stopped)
    (left : ∀ b scopes, mid b → b.session.scopes.exit kind = .ok scopes →
      post (b.on { b.session with scopes }))
    (fault : ∀ b, mid b → stopped b) :
    (within kind enter act).Ends r (fun _ => post) (fun _ => post) stopped := by
  have leave (b : Run) (x : Except Error α) (hb : mid b) :
      (leave kind).Ends b (fun _ b => (ofExcept x).Ends b (fun _ => post) (fun _ => post) stopped)
        (fun _ => post) stopped := by
    rw [ends_leave]
    split
    · rename_i scopes hl
      cases x with
      | ok a => exact left b scopes hb hl
      | error e => exact left b scopes hb hl
    · exact fault b hb
  simp only [Exec.within, ends_bind, ends_update, ends_settle]
  exact block.imp (fun _ b => leave b _) (fun _ b => leave b _) fun _ hs => hs

end Exec
end Playbook
