import Playbook.Proofs.Session.Rejection

/-! How files are delivered. The settings of a session are checked when it is made and stay as they
are, so where files are fetched it is always known from where. The place that a file comes from and
its path meet in exactly one slash, however many there are on either side. -/

namespace Playbook

namespace Text

theorem dropLeading_spec (c : Char) (s : String) :
    (∃ n, s.toList = List.replicate n c ++ (dropLeading (· = c) s).toList) ∧
      (dropLeading (· = c) s).toList.head? ≠ some c := by
  rw [dropLeading, String.toList_ofList]
  constructor
  · have all : s.toList.takeWhile (· = c) =
        List.replicate (s.toList.takeWhile (· = c)).length c :=
      List.eq_replicate_of_mem fun d hd =>
        of_decide_eq_true (List.all_eq_true.1 List.all_takeWhile d hd)
    exact ⟨_, by rw [← all, List.takeWhile_append_dropWhile]⟩
  · intro head
    have stops := List.head?_dropWhile_not (· = c) s.toList
    simp [head] at stops

theorem dropTrailing_spec (c : Char) (s : String) :
    (∃ n, s.toList = (dropTrailing (· = c) s).toList ++ List.replicate n c) ∧
      (dropTrailing (· = c) s).toList.getLast? ≠ some c := by
  obtain ⟨⟨n, front⟩, head⟩ := dropLeading_spec c (String.ofList s.toList.reverse)
  have turned : (dropTrailing (· = c) s).toList =
      (dropLeading (· = c) (String.ofList s.toList.reverse)).toList.reverse := by
    simp [dropTrailing, dropLeading]
  rw [turned, List.getLast?_reverse]
  refine ⟨⟨n, ?_⟩, head⟩
  rw [String.toList_ofList] at front
  have whole := congrArg List.reverse front
  rwa [List.reverse_reverse, List.reverse_append, List.reverse_replicate] at whole

end Text

/-- The entries with one of them set: it takes its new value where the key stands, or comes last.
All others stay what and where they are. -/
inductive Sets {κ β : Type} (key : κ) (value : β) : List (κ × β) → List (κ × β) → Prop
  | replace (front back : List (κ × β)) (old : β) (first : key ∉ front.map Prod.fst) :
      Sets key value (front ++ (key, old) :: back) (front ++ (key, value) :: back)
  | append (entries : List (κ × β)) (absent : key ∉ entries.map Prod.fst) :
      Sets key value entries (entries ++ [(key, value)])

theorem sets_putEntry {κ β : Type} [BEq κ] {key : κ} (apart : ∀ j : κ, (j == key) = true ↔ j = key)
    (value : β) (entries : List (κ × β)) : Sets key value entries (putEntry key value entries) := by
  induction entries with
  | nil => exact .append [] List.not_mem_nil
  | cons e entries ih =>
    by_cases here : e.1 = key
    · obtain ⟨k, old⟩ := e
      subst here
      rw [putEntry, if_pos ((apart _).2 rfl)]
      exact .replace [] entries old List.not_mem_nil
    · have other {l : List (κ × β)} (absent : key ∉ l.map Prod.fst) :
          key ∉ (e :: l).map Prod.fst := List.not_mem_cons_of_ne_of_not_mem (Ne.symm here) absent
      rw [putEntry, if_neg fun same => here ((apart _).1 same)]
      generalize putEntry key value entries = set at ih
      cases ih with
      | replace front back old first => exact .replace (e :: front) back old (other first)
      | append _ absent => exact .append (e :: entries) (other absent)

theorem Value.beq_text (v : Value) (t : String) : (v == .text t) = true ↔ v = .text t := by
  change v.same (.text t) = true ↔ _
  cases v <;> simp [same]

theorem Step.call_edits (s : Step) (edits : List StepEdit) :
    (edits.foldl edit s).action = s.action ∧ (edits.foldl edit s).args = s.args := by
  induction edits generalizing s with
  | nil => exact ⟨rfl, rfl⟩
  | cons e edits ih =>
    obtain ⟨action, args⟩ := ih (s.edit e)
    rw [List.foldl_cons, action, args]
    cases e <;> exact ⟨rfl, rfl⟩

/-- The action that delivers a file, the argument that tells it where the file comes from, and the
place that all files come from. -/
inductive Settings.Origin (s : Settings) : String → String → String → Prop
  | bundle (delivery : s.delivery = .bundle) : Origin s "copy" "src" "bundle-out"
  | fetch {url base : String} {slashes : Nat} (delivery : s.delivery = .fetch)
      (known : s.baseUrl = some url)
      (split : url.toList = base.toList ++ List.replicate slashes '/')
      (bare : base.toList.getLast? ≠ some '/') : Origin s "get_url" "url" base

/-- The action and the arguments of a step that delivers a file, made of the arguments given. -/
inductive Settings.Delivers (s : Settings) (source : String) (args : Value) :
    String → Value → Prop
  | intro {action key base rest : String} {slashes : Nat} {old new : List (Value × Value)}
      (origin : s.Origin action key base)
      (split : source.toList = List.replicate slashes '/' ++ rest.toList) (path : rest ≠ "")
      (bare : rest.toList.head? ≠ some '/')
      (given : args = .null ∧ old = [] ∨ args = .mapping old)
      (sets : Sets (.text key) (.text (base ++ "/" ++ rest)) old new) :
      Delivers s source args action (.mapping new)

/-- Why no step is recorded that delivers a file. -/
inductive Undelivered (s : Session) (source : String) (args : Value) : Refusal → Prop
  | noPath (slashes : ∀ c ∈ source.toList, c = '/') : Undelivered s source args .noSourcePath
  | noMapping (null : args ≠ .null) (mapping : ∀ entries, args ≠ .mapping entries) :
      Undelivered s source args (.argumentsNotMapping args)
  | outside (idle : s.currentUnit? = none) (action : String) :
      Undelivered s source args (.stepOutsideUnit action)

namespace Session
variable {s : Session}

theorem argumentEntries_cases (args : Value) :
    (∃ old, argumentEntries args = .ok old ∧ (args = .null ∧ old = [] ∨ args = .mapping old)) ∨
      argumentEntries args = .error (.refused (.argumentsNotMapping args)) ∧ args ≠ .null ∧
        ∀ entries, args ≠ .mapping entries := by
  cases args with
  | null => exact .inl ⟨[], rfl, .inl ⟨rfl, rfl⟩⟩
  | mapping entries => exact .inl ⟨entries, rfl, .inr rfl⟩
  | _ => exact .inr ⟨rfl, nofun, nofun⟩

theorem fileStep_cases (valid : s.settings.validate = .ok ()) (source : String) (args : Value) :
    (∃ action sent, s.fileStep source args = .ok (action, sent) ∧
      s.settings.Delivers source args action sent) ∨
    ∃ reason, s.fileStep source args = .error (.refused reason) ∧
      Undelivered s source args reason := by
  -- from here on, all that is known of the path is how the source is split
  obtain ⟨⟨slashes, split⟩, bare⟩ := Text.dropLeading_spec '/' source
  unfold fileStep
  generalize Text.dropLeading (· = '/') source = rest at split bare
  by_cases path : rest = ""
  · subst path
    refine .inr ⟨.noSourcePath, rfl, .noPath fun c hc => ?_⟩
    rw [split] at hc
    exact List.eq_of_mem_replicate (by simpa using hc)
  have some : ¬ rest.isEmpty = true := fun e => path (String.isEmpty_iff.1 e)
  rw [if_neg some]
  rcases argumentEntries_cases args with ⟨old, read, given⟩ | ⟨refused, null, mapping⟩
  · have deliver {action key base : String} (origin : s.settings.Origin action key base) :
        s.settings.Delivers source args action
          (.mapping (putEntry (.text key) (.text (base ++ "/" ++ rest)) old)) :=
      .intro origin split path bare given (sets_putEntry (fun v => v.beq_text key) _ old)
    rw [read]
    cases delivery : s.settings.delivery with
    | bundle => exact .inl ⟨_, _, rfl, deliver (.bundle delivery)⟩
    | fetch =>
      -- valid settings have a URL here, so the refusal for want of one is never reached
      obtain ⟨url, known⟩ := baseUrl_of_valid valid delivery
      obtain ⟨⟨n, whole⟩, ends⟩ := Text.dropTrailing_spec '/' url
      rw [known]
      exact .inl ⟨_, _, rfl, deliver (.fetch delivery known whole ends)⟩
  · rw [refused]
    exact .inr ⟨_, rfl, .noMapping null mapping⟩

/-- At no point of a run is a file refused for want of a URL. Where it is refused, nothing changes.
Otherwise the active unit has one more step, the last one, and that delivers the file. -/
theorem getFile_delivers {settings : Settings} {start : Session}
    (made : new settings = .ok start ∨ ∃ passes, withPasses settings passes = .ok start)
    (m : start.Moves s) (call : Block → Exec Unit) (journal : List Entry) (source : String)
    (args : Value) (edits : List StepEdit) :
    (Exec.step call (.getFile source args edits)).Ends ⟨s, journal⟩
      (fun answer r => ∃ id u step, s.currentUnit? = some id ∧ s.unit? id = some u ∧
        r.session.currentUnit? = some id ∧ r.session.unit? id = some (u.record step) ∧
        settings.Delivers source args step.action step.args ∧
        answer = .delivered step.action (step.register, step.label))
      (fun e r => r = ⟨s, journal⟩ ∧ e ≠ .refused .unsetBaseUrl ∧
        ∃ reason, e = .refused reason ∧ Undelivered s source args reason)
      fun _ => False := by
  obtain ⟨passes, made⟩ : ∃ passes, withPasses settings passes = .ok start := by
    rcases made with made | made
    · obtain ⟨passes, -, made⟩ := bind_eq_ok.1 made
      exact ⟨passes, made⟩
    · exact made
  -- checked when the session was made, and the same ever since
  obtain ⟨_, valid, -⟩ := bind_eq_ok.1 made
  obtain rfl := withPasses_eq_ok made
  have kept : s.settings = settings := m.persists.settings
  have coherent := (coherent_initial settings passes).moves m
  subst kept
  rw [Exec.step, Exec.ends_bind, Exec.ends_query]
  rcases fileStep_cases valid source args with
    ⟨action, sent, made, delivers⟩ | ⟨reason, refused, why⟩
  · rw [made, Exec.ends_ofExcept_ok, Exec.ends_map]
    cases active : s.currentUnit? with
    | none =>
      rw [Exec.ends_recordStep_of_idle active]
      exact ⟨rfl, by simp, _, rfl, .outside active action⟩
    | some id =>
      obtain ⟨u, known, -⟩ := coherent.active id (List.mem_of_mem_head? active)
      obtain ⟨sameAction, sameArgs⟩ := (s.freshStep u action sent).call_edits edits
      rw [Exec.recordStep, Exec.ends_bind, Exec.ends_perform, recordStep_of_active active known,
        Exec.ends_ofExcept_ok, Exec.ends_pure]
      refine ⟨id, u, edits.foldl Step.edit (s.freshStep u action sent), rfl, known, active,
        unit?_modifyUnit_self known _, ?_, ?_⟩
      · rw [sameAction, sameArgs]
        exact delivers
      · rw [sameAction]
        rfl
  · rw [refused, Exec.ends_ofExcept_error]
    refine ⟨rfl, ?_, reason, rfl, why⟩
    cases why <;> simp

def fetchingSettings : Settings :=
  ⟨true, .fetch, some "https://bundles.example.net/v3//", [.named "merge_host_groups"]⟩

def askingScript : Block :=
  [.declare (.new "deploy" [.ask .context]), .enter [.withHosts none .empty [.invoke ⟨0⟩]]]

def vaultArguments : Value :=
  .mapping [(.text "url", .null), (.text "dest", .text "/etc/vault.hcl")]

/-- The argument of the caller is overridden where it stands. -/
theorem getFile_delivers_vault : ∃ start s : Session, new fetchingSettings = .ok start ∧
    start.Moves s ∧ ∃ u step r, s.unit? ⟨0⟩ = some u ∧
      (Exec.step (runWithin 1) (.getFile "//files/vault.hcl" vaultArguments [])).run ⟨s, []⟩ =
        .ok (.delivered "get_url" ("runvar0001",
          "get_url(url=https://bundles.example.net/v3/files/vault.hcl, dest=/etc/vault.hcl)")) r ∧
      r.session.unit? ⟨0⟩ = some (u.record step) ∧
      fetchingSettings.Delivers "//files/vault.hcl" vaultArguments step.action step.args := by
  have made : new fetchingSettings = .ok (initial fetchingSettings [.merging .new]) := rfl
  let send : Exec Answer :=
    Exec.step (runWithin 1) (.getFile "//files/vault.hcl" vaultArguments [])
  have run : (((initial fetchingSettings [.merging .new]).run 5 askingScript).entries[1]?.map
      fun e => (e.session.currentUnit?, match send.run ⟨e.session, []⟩ with
        | .ok (.delivered action recorded) _ => some (action, recorded)
        | _ => none)) = some (some ⟨0⟩, some ("get_url", "runvar0001",
          "get_url(url=https://bundles.example.net/v3/files/vault.hcl, dest=/etc/vault.hcl)")) := by
    decide +kernel
  obtain ⟨e, he, found⟩ := Option.map_eq_some_iff.1 run
  obtain ⟨active, found⟩ := Prod.mk.inj found
  split at found
  · rename_i action recorded r sent
    obtain ⟨rfl, rfl⟩ := Prod.mk.inj (Option.some.inj found)
    have moves : (initial fetchingSettings [.merging .new]).Moves e.session :=
      moves_of_mem_states (List.mem_cons_of_mem _ (List.mem_map_of_mem (List.mem_of_getElem? he)))
    obtain ⟨id, u, step, current, known, -, now, delivers, -⟩ :=
      (getFile_delivers (.inl made) moves (runWithin 1) [] "//files/vault.hcl" vaultArguments
        []).of_ok sent
    obtain rfl := Option.some.inj (active.symm.trans current)
    exact ⟨_, e.session, made, moves, u, step, r, known, sent, now, delivers⟩
  · cases found

end Session
end Playbook
