import Playbook.Proofs.Session.Conduct
import Playbook.Proofs.Session.Mirror

/-! Conditions that last. A condition is closed by a statement of its own, or at the end of a block
that was put under one, and both are noted. So as long as no entry shows fewer than so many
conditions open, that many of the lowest are the same: what blocks and units open and close in the
meantime stands above them. -/

namespace Playbook
open Session

/-- The given conditions stay open beneath all others while no fewer are open. -/
def lasting (base : List String) : Law where
  fair e := base.length ≤ e.session.scopes.guards.depth
  apt _ := True
  optimizes := True
  holds s := base <+: s.scopes.guards.toList

namespace ScopeStack
variable {α : Type} {s t : ScopeStack α} {base : List α}

theorem toList_of_frames {a : α} {rest : List α} (h : s.frames = a :: rest) :
    s.toList = (⟨rest⟩ : ScopeStack α).toList ++ [a] := by
  simp [toList, h]

theorem prefix_of_popped {a : α} {rest : List α} (h : s.frames = a :: rest)
    (held : base <+: s.toList) (left : base.length ≤ rest.length) :
    base <+: (⟨rest⟩ : ScopeStack α).toList := by
  rw [toList_of_frames h] at held
  exact List.prefix_of_prefix_length_le held (List.prefix_append ..) (by simpa [toList] using left)

theorem prefix_unwindTo {depth : Nat} (held : base <+: s.toList) (left : base.length ≤ depth) :
    base <+: (s.unwindTo depth).toList := by
  rw [toList_unwindTo]
  exact List.prefix_take_iff.2 ⟨held, left⟩

end ScopeStack

namespace Exec
variable {α β : Type} {base : List String} {r : Run}

theorem lasts_update {f : Session → Session} (h : ∀ s, Update s (f s)) :
    (update f).Obeys (lasting base) := fun r => .of_change fun held => by
  show base <+: (f r.session).scopes.guards.toList
  rw [(h r.session).scopes_and_floor.1]
  exact held

theorem lasts_perform {f : Session → Except Error (α × Session)}
    (h : ∀ s a t, f s = .ok (a, t) → Updates s t) : (perform f).Obeys (lasting base) := fun r => by
  rw [ends_perform]
  cases hf : f r.session with
  | error e => exact .refl r
  | ok p =>
    refine .of_change fun held => ?_
    show base <+: p.2.scopes.guards.toList
    rw [(h _ _ _ hf).scopes_eq]
    exact held

theorem lasts_apply {f : Session → α × Session} (h : ∀ s, Update s (f s).2) :
    (apply f).Obeys (lasting base) :=
  lasts_perform fun s a t e => by
    obtain rfl : (f s).2 = t := by simpa using congrArg Prod.snd (Except.ok.inj e)
    exact .single (h s)

theorem Obeys.lasts_within {act : Exec α} (h : act.Obeys (lasting base)) {kind : ScopeKind}
    {enter : Scopes → Scopes} (notGuard : kind ≠ .guard) (same : ∀ c, (enter c).guards = c.guards) :
    (Exec.within kind enter act).Obeys (lasting base) := fun r =>
  Ends.within (h.after (.of_change fun held => by
      show base <+: (enter r.session.scopes).guards.toList
      rw [same]
      exact held))
    (fun b scopes hb left => hb.change fun _ held => by
      show base <+: scopes.guards.toList
      rw [guards_of_exit left notGuard]
      exact held)
    fun _ => Law.Keeps.breaks

theorem Obeys.lasts_inSession {act : Exec α} (h : act.Obeys (lasting base)) :
    (Exec.inSession act).Obeys (lasting base) :=
  obeys_session.bind fun _ => h.lasts_within (by decide) fun _ => rfl

theorem Obeys.lasts_inGroup {act : Exec α} (h : act.Obeys (lasting base)) (id : GroupId) :
    (Exec.inGroup id act).Obeys (lasting base) :=
  (obeys_query _).discard.bind fun _ => h.lasts_within (by decide) fun _ => rfl

theorem Obeys.lasts_withHosts {act : Exec α} (h : act.Obeys (lasting base))
    (pattern : Option String) (settings : Attributes) :
    (Exec.withHosts pattern settings act).Obeys (lasting base) :=
  (lasts_perform fun _ _ _ => declareHosts_updates).bind fun id => h.lasts_inGroup id

theorem lasts_openGuard (condition : String) :
    (update (·.openGuard condition)).Obeys (lasting base) := fun r => .of_change fun held => by
  show base <+: (r.session.scopes.guards.enter condition).toList
  rw [ScopeStack.toList_enter]
  exact held.trans (List.prefix_append ..)

theorem keeps_pop {b : Run} {scopes : Scopes} {statement : Stmt} {outcome : Except Error Answer}
    (kept : (lasting base).Keeps r b) (left : b.session.scopes.exit .guard = .ok scopes) :
    (lasting base).Keeps r ((b.on { b.session with scopes }).log statement outcome) := by
  obtain ⟨since, journal, -⟩ := id kept
  obtain ⟨_, rest, frames, rfl⟩ := Scopes.exit_eq_ok left
  exact .of_fair ⟨since, journal.symm⟩ fun fair =>
    kept.change fun _ held => ScopeStack.prefix_of_popped frames held fair

theorem lasts_closeGuard {call : Block → Exec Unit} :
    (note .closeGuard (step call .closeGuard)).Obeys (lasting base) := fun r => by
  simp only [step, closeGuard, ends_note, ends_map, ends_bind, ends_query, ends_session, ends_leave,
    ends_pure]
  cases r.session.ownGuard with
  | error e => exact (Law.Keeps.refl r).log
  | ok _ =>
    rw [ends_ofExcept_ok]
    split
    · rename_i left
      exact keeps_pop (.refl r) left
    · exact (Law.Keeps.refl r).breaks

theorem lasts_when {call : Block → Exec Unit} {block : Block}
    (h : (call block).Obeys (lasting base)) (condition : String) :
    (note (.when condition block) (step call (.when condition block))).Obeys (lasting base) :=
  fun r => by
    have opened : (lasting base).Keeps r (r.on (r.session.openGuard condition)) :=
      lasts_openGuard condition r
    have ended : (underGuard condition (call block)).Ends r
        (fun _ c => ∀ outcome, (lasting base).Keeps r (c.log (.when condition block) outcome))
        (fun _ c => ∀ outcome, (lasting base).Keeps r (c.log (.when condition block) outcome))
        ((lasting base).Breaks r) :=
      Ends.within (h.after opened) (fun _ _ hb left _ => keeps_pop hb left)
        fun _ => Law.Keeps.breaks
    rw [step, ends_note, ends_bind]
    exact ended.imp (fun _ _ hb => hb _) (fun _ _ hb => hb _) fun _ hs => hs

theorem lasts_recordStep (action : String) (args : Value) (edits : List StepEdit) :
    (recordStep action args edits).Obeys (lasting base) :=
  (lasts_perform fun _ _ _ h => .single (.record h)).bind fun _ => obeys_pure _

theorem lasts_recordSteps (action : String) (args : Value) (count : Nat) (edits : List StepEdit) :
    (recordSteps action args count edits).Obeys (lasting base) :=
  obeys_foldlM (fun _ _ => (lasts_recordStep action args edits).map some) _ _

theorem lasts_modify {act : Exec β} (h : act.Obeys (lasting base)) {f : Session → Session}
    (hf : ∀ s, Update s (f s)) :
    Exec.Obeys (lasting base) (do discard act; update f; return Answer.done) :=
  h.discard.bind fun _ => (lasts_update hf).bind fun _ => obeys_pure _

section Nested
variable {bound : Nat} (hc : ∀ block, (runWithin bound block).Obeys (lasting base))
include hc

theorem lasts_runBody : ∀ body, (runBody (runWithin bound) body).Obeys (lasting base)
  | .script block => hc block
  | .step action args => (lasts_recordStep action args []).discard

theorem lasts_invoke (id : UnitId) : (invoke (runWithin bound) id).Obeys (lasting base) :=
  fun r => by
    refine Ends.invoke ((lasting base).Keeps r) (.refl r) (fun u group _ _ => ?_)
      (fun b scopes hb left => hb.change fun outer inner => ?_) fun _ => Law.Keeps.breaks
    · exact (lasts_runBody hc u.body).after (.of_change fun held => held)
    · have guards : scopes.guards = b.session.scopes.guards := guards_of_exit left (by decide)
      show base <+: (scopes.guards.unwindTo r.session.scopes.guards.depth).toList
      rw [guards]
      exact ScopeStack.prefix_unwindTo inner (by simpa using outer.length_le)

theorem lasts_invokeMember (runbook : Runbook) (inst : Instance) (id : UnitId) :
    (invokeMember (runWithin bound) runbook inst id).Obeys (lasting base) :=
  (obeys_query _).bind fun _ => (obeys_ofExcept _).bind fun _ => (obeys_ofExcept _).bind fun _ =>
    (lasts_update fun _ => .constrain id _ _).bind fun _ => lasts_invoke hc id

theorem lasts_populate (runbook : Runbook) (inst : Instance) :
    (populate (runWithin bound) runbook inst).Obeys (lasting base) := by
  unfold populate
  split
  · exact (hc _).bind fun _ => obeys_forM (lasts_invokeMember hc runbook inst) _
  · exact obeys_forM (lasts_invokeMember hc runbook inst) _

theorem lasts_instantiate (id : RunbookId) (vars : Attributes) :
    (instantiate (runWithin bound) id vars).Obeys (lasting base) := by
  have copied {s t : Session} {parent group : GroupId} (h : s.copyGroup parent = .ok (group, t)) :
      Updates s t := by
    obtain ⟨_, _, declared⟩ := declareHosts_of_copyGroup h
    exact declareHosts_updates declared
  have made (inst : Instance) : (update fun s =>
      { s with instances := s.instances ++ [inst] }).Obeys (lasting base) :=
    fun _ => .of_change fun held => held
  refine obeys_session.bind fun s => (obeys_ofExcept _).bind fun runbook => ?_
  split
  · exact obeys_fail _
  · refine (lasts_perform fun _ _ _ => copied).bind fun group =>
      (lasts_update fun _ => .setVars group vars).bind fun _ => (made _).bind fun _ =>
      Obeys.bind ?_ fun _ => obeys_pure _
    exact ((lasts_populate hc runbook _).lasts_inGroup group).lasts_within (by decide) fun _ => rfl

theorem lasts_gatherFacts (p : FactGathering) :
    (gatherFacts (runWithin bound) p).Obeys (lasting base) := by
  unfold gatherFacts
  split
  · exact obeys_pure p
  · exact (lasts_apply fun _ => .declare _ _).bind fun _ =>
      ((lasts_invoke hc _).lasts_withHosts _ _).bind fun _ =>
      (lasts_update fun _ => .skipFacts).bind fun _ => obeys_pure _

theorem lasts_runPass : ∀ p : Pass, (runPass (runWithin bound) p).Obeys (lasting base)
  | .facts p => (lasts_gatherFacts hc p).settle.bind fun
    | .ok _ => obeys_pure _
    | .error _ => obeys_pure _
  | .merging _ => (lasts_apply fun _ => .merge).bind fun _ => obeys_pure _
  | .idle => obeys_pure _
  | .scripted p => (hc p.block).settle.bind fun _ => obeys_session.bind fun _ => obeys_pure _

theorem lasts_runPasses : ∀ ps : List Pass, (runPasses (runWithin bound) ps).Obeys (lasting base)
  | [] => obeys_pure _
  | p :: ps => (lasts_runPass hc p).bind fun
    | (_, .error _) => obeys_pure _
    | (_, .ok ()) => (lasts_runPasses ps).bind fun _ => obeys_pure _

theorem lasts_buildGraph : (buildGraph (runWithin bound)).Obeys (lasting base) := by
  unfold buildGraph
  refine obeys_session.bind fun s => ?_
  split
  · exact obeys_fail _
  · exact (lasts_update fun _ => .pipeline []).bind fun _ =>
      (lasts_runPasses hc s.passes).lasts_inSession.bind fun p =>
      ((obeys_ofExcept p.2).bind fun _ => obeys_session.bind fun _ =>
        (obeys_ofExcept _).bind fun _ => obeys_ofExcept _).settle.bind fun _ =>
      (lasts_update fun _ => .pipeline p.1).bind fun _ => obeys_ofExcept _

theorem lasts_repeatFacts :
    ∀ (n : Nat) (p : FactGathering), (repeatFacts (runWithin bound) n p).Obeys (lasting base)
  | 0, p => obeys_pure p
  | n + 1, p => (lasts_gatherFacts hc p).bind fun p => lasts_repeatFacts n p

theorem lasts_noted (t : Stmt) : (note t (step (runWithin bound) t)).Obeys (lasting base) := by
  cases t with
  | «when» condition block => exact lasts_when (hc block) condition
  | closeGuard => exact lasts_closeGuard
  | declare d => exact obeys_note _ ((lasts_apply fun _ => .declare _ _).map _)
  | runbook => exact obeys_note _ ((lasts_perform fun _ _ _ => declareRunbook_updates).map _)
  | hosts => exact obeys_note _ ((lasts_perform fun _ _ _ => declareHosts_updates).map _)
  | setSetting group key value =>
    exact obeys_note _ (lasts_modify (obeys_query _) fun _ => .setSetting group key value)
  | setVar group key value =>
    exact obeys_note _ (lasts_modify (obeys_query _) fun _ => .setVar group key value)
  | addBefore unit | addAfter unit =>
    exact obeys_note _ (lasts_modify (obeys_query _) fun _ => .constrain unit _ _)
  | enter block => exact obeys_note _ ((hc block).lasts_inSession.bind fun _ => obeys_pure _)
  | enterHosts group block =>
    exact obeys_note _ (((hc block).lasts_inGroup group).bind fun _ => obeys_pure _)
  | withHosts pattern settings block =>
    exact obeys_note _ (((hc block).bind fun _ => obeys_session.bind fun _ =>
      obeys_pure _).lasts_withHosts _ _)
  | openGuard condition =>
    exact obeys_note _ ((lasts_openGuard condition).bind fun _ => obeys_pure _)
  | invoke unit => exact obeys_note _ ((lasts_invoke hc unit).bind fun _ => obeys_pure _)
  | instantiate runbook vars => exact obeys_note _ ((lasts_instantiate hc runbook vars).map _)
  | step action args count edits =>
    exact obeys_note _ ((lasts_recordSteps action args count edits).map _)
  | getFile =>
    exact obeys_note _ ((obeys_query _).bind fun _ => (lasts_recordStep _ _ _).map _)
  | varStep | patternStep =>
    exact obeys_note _ (obeys_session.bind fun _ => (lasts_recordStep _ _ _).map _)
  | fail error => exact obeys_note _ (obeys_fail error)
  | attempt block =>
    refine obeys_note _ ((hc block).settle.bind fun result => ?_)
    cases result <;> exact obeys_pure _
  | ifInvokedLess | ifVar =>
    exact obeys_note _ (obeys_session.bind fun _ => obeys_flagged hc _ _)
  | ask q => exact obeys_note _ (obeys_query _)
  | buildGraph =>
    exact obeys_note _ ((lasts_buildGraph hc).bind fun _ => obeys_session.bind fun _ =>
      obeys_pure _)
  | merge => exact obeys_note _ ((lasts_apply fun _ => .merge).map _)
  | gatherFacts => exact obeys_note _ (obeys_tryFacts (lasts_repeatFacts hc _))
  | plan => exact obeys_note _ (((lasts_buildGraph hc).bind fun _ => obeys_query _).bind fun _ =>
      obeys_ofExcept _)

theorem lasts_runBlock : ∀ block, (runBlock (runWithin bound) block).Obeys (lasting base)
  | [] => obeys_pure _
  | t :: ts => (lasts_noted hc t).bind fun _ => lasts_runBlock ts

end Nested

/-- As long as no statement ends with fewer conditions open, the lowest are those of the start. -/
theorem lasts_runWithin :
    ∀ (bound : Nat) (block : Block), (runWithin bound block).Obeys (lasting base)
  | 0, _ => obeys_exhausted
  | bound + 1, block => lasts_runBlock (lasts_runWithin bound) block

end Exec

namespace Run

/-- The least number of conditions that were open at a time, from a start with so many of them on,
as the entries tell. -/
def lowest (r : Run) (start : Nat) : Nat :=
  (r.journal.map fun e => e.session.scopes.guards.depth).foldl min start

def opened (r : Run) (start : Nat) : List String :=
  r.session.scopes.guards.toList.drop (r.lowest start)

/-- A block under a condition has run to `t`, and `r` is where it is left: open are the conditions
of `s` that the block has not closed, and above them those that it has opened and not closed. -/
def EndsOwn (s : Session) (t r : Run) : Prop :=
  r.session.scopes.guards.toList =
    s.scopes.guards.toList.take (t.lowest (s.scopes.guards.depth + 1)) ++
      t.opened (s.scopes.guards.depth + 1)

theorem le_lowest {r : Run} {start n : Nat} : n ≤ r.lowest start ↔
    n ≤ start ∧ ∀ e ∈ r.journal, n ≤ e.session.scopes.guards.depth := by
  unfold lowest
  induction r.journal generalizing start with
  | nil => simp
  | cons e es ih =>
    rw [List.map_cons, List.foldl_cons, ih, List.forall_mem_cons, le_min_iff, and_assoc]

end Run

namespace Exec

/-- A block leaves those conditions on which it found open that at no time were closed, and the
conditions that it has opened stand above them. -/
theorem conditions_of_block {s : Session} {bound : Nat} {block : Block}
    {result : Except Error Unit} {t : Run}
    (h : (settle (runWithin bound block)).run ⟨s, []⟩ = .ok result t) :
    t.session.scopes.guards.toList =
      s.scopes.guards.toList.take (t.lowest s.scopes.guards.depth) ++
        t.opened s.scopes.guards.depth := by
  let n := t.lowest s.scopes.guards.depth
  let base := s.scopes.guards.toList.take n
  obtain ⟨start, noted⟩ := Run.le_lowest.1 (Nat.le_refl n)
  have length : base.length = n := by
    rw [List.length_take, ScopeStack.length_toList, min_eq_left start]
  have keeps : (lasting base).Keeps ⟨s, []⟩ t :=
    Ends.of_concludes (lasts_runWithin bound block ⟨s, []⟩) ⟨result, h⟩
  obtain ⟨since, journal, keeps⟩ := keeps
  rw [List.append_nil] at journal
  have fair (e : Entry) (he : e ∈ since) : (lasting base).fair e := by
    show base.length ≤ e.session.scopes.guards.depth
    rw [length]
    exact noted e (journal ▸ he)
  obtain ⟨held, -⟩ := keeps fair (List.take_prefix ..)
  have lowest : base = t.session.scopes.guards.toList.take n := by
    rw [← length]
    exact List.prefix_iff_eq_take.1 held
  show _ = base ++ t.session.scopes.guards.toList.drop n
  rw [lowest, List.take_append_drop]

theorem dropLast_cons_eq_self {c : String} {l : List String} :
    (c :: l).dropLast = l ↔ ∀ x ∈ l, x = c := by
  induction l generalizing c with
  | nil => simp
  | cons x l ih =>
    rw [List.dropLast_cons_cons, List.cons.injEq, ih, List.forall_mem_cons]
    constructor
    · rintro ⟨rfl, all⟩
      exact ⟨rfl, all⟩
    · rintro ⟨rfl, all⟩
      exact ⟨rfl, all⟩

/-- Of a stack whose innermost condition goes: the one that stood above `outer` is gone, and it
alone, if it was never closed and all that stand above it have its name. -/
theorem popped_eq_iff {outer opened popped : List String} {condition innermost : String} {n : Nat}
    (stack : popped ++ [innermost] = (outer ++ [condition]).take n ++ opened)
    (le : n ≤ outer.length + 1) :
    popped = outer.take n ++ opened ↔ n = outer.length + 1 ∧ ∀ x ∈ opened, x = condition := by
  have length := congrArg List.length stack
  simp only [List.length_append, List.length_take, List.length_singleton, min_eq_left le] at length
  by_cases whole : n = outer.length + 1
  · have own : popped = outer ++ (condition :: opened).dropLast := by
      rw [whole, List.take_of_length_le (by simp), List.append_assoc,
        List.singleton_append] at stack
      rw [← List.dropLast_append_of_ne_nil (List.cons_ne_nil condition opened), ← stack,
        List.dropLast_concat]
    rw [own, whole, List.take_of_length_le (Nat.le_succ _), List.append_cancel_left_eq,
      dropLast_cons_eq_self]
    exact (and_iff_right rfl).symm
  · -- one of those that the block closed cannot be closed again, so another one is
    refine iff_of_false (fun same => ?_) fun h => whole h.1
    have short := congrArg List.length same
    rw [List.length_append, List.length_take] at short
    omega

/-- What a block under a condition ends is the innermost condition, whichever that is. Its own one
has ended, and no other has, exactly if the block has closed none that it found open, its own
included, and has left none of another name open. -/
theorem endsOwn_iff {s : Session} {condition : String} {bound : Nat} {block : Block}
    {result : Except Error Unit} {r : Run}
    (h : (settle (underGuard condition (runWithin bound block))).run ⟨s, []⟩ = .ok result r) :
    ∃ t : Run, (settle (runWithin bound block)).run ⟨s.openGuard condition, []⟩ = .ok result t ∧
      r.session.scopes.guards.toList = t.session.scopes.guards.toList.dropLast ∧
      (t.EndsOwn s r ↔ t.lowest (s.scopes.guards.depth + 1) = s.scopes.guards.depth + 1 ∧
        ∀ x ∈ t.opened (s.scopes.guards.depth + 1), x = condition) := by
  rw [underGuard, run_settle_within] at h
  split at h
  · rename_i result' t ran
    split at h
    · rename_i scopes left
      obtain ⟨rfl, rfl⟩ : result' = result ∧ t.on { t.session with scopes } = r := by
        simpa using h
      obtain ⟨x, rest, frames, rfl⟩ := Scopes.exit_eq_ok left
      have popped := ScopeStack.toList_of_frames frames
      refine ⟨t, ran, by rw [popped, List.dropLast_concat]; rfl, ?_⟩
      have block := conditions_of_block ran
      simp only [ScopeStack.toList_enter, ScopeStack.depth_enter, popped] at block
      have le := (Run.le_lowest.1 (Nat.le_refl (t.lowest (s.scopes.guards.depth + 1)))).1
      unfold Run.EndsOwn
      rw [← ScopeStack.length_toList] at block le ⊢
      exact popped_eq_iff block le
    · cases h
  · cases h

theorem swapped : ∃ (s : Session) (r t : Run), s.Reachable ∧ s.scopes.guards.toList = [] ∧
    (settle (underGuard "c" (runWithin 1 [.openGuard "x"]))).run ⟨s, []⟩ = .ok (.ok ()) r ∧
    (settle (runWithin 1 [.openGuard "x"])).run ⟨s.openGuard "c", []⟩ = .ok (.ok ()) t ∧
    t.opened 1 = ["x"] ∧ r.session.scopes.guards.toList = ["c"] := by
  let s := Session.initial ⟨true, .bundle, none, []⟩ []
  have inner : ((runWithin 1 [.openGuard "x"]).result? ⟨s.openGuard "c", []⟩).map
      (fun x => x.2.opened 1) = some ["x"] := by decide +kernel
  have outer : ((underGuard "c" (runWithin 1 [.openGuard "x"])).result? ⟨s, []⟩).map
      (fun x => x.2.session.scopes.guards.toList) = some ["c"] := by decide +kernel
  obtain ⟨⟨_, t⟩, ran, opened⟩ := Option.map_eq_some_iff.1 inner
  obtain ⟨⟨_, r⟩, left, guards⟩ := Option.map_eq_some_iff.1 outer
  exact ⟨s, r, t, Session.reachable_after rfl 1 [], rfl, run_settle_of_result? left,
    run_settle_of_result? ran, opened, guards⟩

theorem endsOwn_iff_swapped : ∃ (s : Session) (r t : Run),
    (settle (underGuard "c" (runWithin 1 [.openGuard "x"]))).run ⟨s, []⟩ = .ok (.ok ()) r ∧
    (settle (runWithin 1 [.openGuard "x"])).run ⟨s.openGuard "c", []⟩ = .ok (.ok ()) t ∧
    (t.EndsOwn s r ↔ t.lowest (s.scopes.guards.depth + 1) = s.scopes.guards.depth + 1 ∧
      ∀ x ∈ t.opened (s.scopes.guards.depth + 1), x = "c") := by
  obtain ⟨s, r, _, -, -, left, -⟩ := swapped
  obtain ⟨t, ran, -, ends⟩ := endsOwn_iff left
  exact ⟨s, r, t, left, ran, ends⟩

theorem not_forall_endsOwn : ¬ ∀ s : Session, s.Reachable → ∀ condition bound block result r t,
    (settle (underGuard condition (runWithin bound block))).run ⟨s, []⟩ = .ok result r →
      (settle (runWithin bound block)).run ⟨s.openGuard condition, []⟩ = .ok result t →
      t.EndsOwn s r := by
  intro all
  obtain ⟨s, r, t, reachable, none, left, ran, opened, guards⟩ := swapped
  have same := all s reachable "c" 1 _ (.ok ()) r t left ran
  have empty : s.scopes.guards.depth = 0 := by rw [← ScopeStack.length_toList, none]; rfl
  rw [Run.EndsOwn, guards, none, empty, opened, List.take_nil] at same
  exact absurd same (by decide)

end Exec
end Playbook
