import Playbook.Proofs.Plan.Passes
import Playbook.Proofs.Session.Rejection
import Playbook.Proofs.Session.Renaming

/-! Which settings a session can be made with. The passes are built first, each from settings of its
own, and then the settings are checked as a whole. Every part of this refuses under one condition
and under no other, so together they accept exactly the settings that are consistent. -/

namespace Playbook

namespace Decides
variable {α β : Type} {p q : Prop}

theorem exists_iff {x : Except Error α} (h : Decides p x) : (∃ a, x = .ok a) ↔ ¬ p := by
  cases h with
  | refuses h => simp [h]
  | permits h a => simp [h]

theorem error {x : Except Error α} (h : Decides p x) {e : Error} (he : x = .error e) :
    ∃ reason, e = .refused reason := by
  subst he
  cases h with | refuses _ reason => exact ⟨reason, rfl⟩

theorem map {x : Except Error α} (h : Decides p x) (f : α → β) : Decides p (f <$> x) := by
  cases h with
  | refuses h reason => exact .refuses h reason
  | permits h a => exact .permits h (f a)

theorem bind {x : Except Error α} {f : α → Except Error β} (h : Decides p x)
    (rest : ∀ a, x = .ok a → Decides q (f a)) : Decides (p ∨ q) (x >>= f) := by
  cases h with
  | refuses h reason => exact .refuses (.inl h) reason
  | permits h a => exact (rest a rfl).congr (or_iff_right h).symm

theorem foldlM {bad : α → Prop} {f : β → α → Except Error β} (h : ∀ b a, Decides (bad a) (f b a))
    (l : List α) (b : β) : Decides (∃ a ∈ l, bad a) (l.foldlM f b) := by
  induction l generalizing b with
  | nil => exact .permits (by simp) b
  | cons a l ih =>
    rw [List.foldlM_cons]
    exact ((h b a).bind fun c _ => ih c).congr (by simp)

theorem mapM {bad : α → Prop} {f : α → Except Error β} (h : ∀ a, Decides (bad a) (f a))
    (l : List α) : Decides (∃ a ∈ l, bad a) (l.mapM f) := by
  induction l with
  | nil => exact .permits (by simp) []
  | cons a l ih =>
    rw [List.mapM_cons]
    exact ((h a).bind fun b _ => ih.map (b :: ·)).congr (by simp)

end Decides

namespace FactGathering

def Takes (key : String) (value : Value) : Prop :=
  key = "hosts" ∧ (∃ pattern, value = .text pattern) ∨
    key = "become" ∧ ∃ becomeRoot, value = .bool becomeRoot

theorem decides_withSetting (p : FactGathering) (key : String) (value : Value) :
    Decides (¬ Takes key value) (p.withSetting key value) := by
  unfold withSetting
  split
  · subst key
    cases value with
    | text pattern => exact .permits (by simp [Takes]) _
    | _ => exact .refuses (by simp [Takes]) _
  · rename_i hosts
    split
    · subst key
      cases value with
      | bool becomeRoot => exact .permits (by simp [Takes]) _
      | _ => exact .refuses (by simp [Takes]) _
    · rename_i become
      exact .refuses (by simp [Takes, hosts, become]) _

theorem decides_ofSettings (settings : Attributes) :
    Decides (¬ ∀ key value, settings.get? key = some value → Takes key value)
      (ofSettings settings) := by
  refine (Decides.foldlM (fun p e => p.decides_withSetting e.1 e.2) settings.entries new).congr ?_
  simp [OrderedMap.get?_eq_some]

end FactGathering

theorem Merging.decides_ofSettings (settings : Attributes) :
    Decides (settings ≠ .empty) (ofSettings settings) := by
  unfold ofSettings
  split
  · rename_i none
    exact .permits (not_not.2 (OrderedMap.ext (List.map_eq_nil_iff.1 none))) _
  · rename_i some
    exact .refuses (fun none => by rw [none] at some; cases some) _

structure PassConfig.Fits (c : PassConfig) : Prop where
  known : c.name = FactGathering.name ∨ c.name = Merging.name
  facts : c.name = FactGathering.name → ∀ key value,
    c.settings.get? key = some value → FactGathering.Takes key value
  merging : c.name = Merging.name → c.settings = .empty

namespace Registry

theorem mem_keys_builtin {name : String} :
    name ∈ builtin.keys ↔ name = FactGathering.name ∨ name = Merging.name := by
  rw [keys_builtin]
  simp [FactGathering.name, Merging.name]

theorem decides_build (c : PassConfig) : Decides (¬ c.Fits) (builtin.build c) := by
  have apart : FactGathering.name ≠ Merging.name := by decide
  rw [build]
  cases known : builtin.get? c.name with
  | none =>
    exact .refuses (fun h => OrderedMap.get?_eq_none.1 known (mem_keys_builtin.2 h.known)) _
  | some kind =>
    rcases get?_builtin known with ⟨name, rfl⟩ | ⟨name, rfl⟩
    · refine ((FactGathering.decides_ofSettings c.settings).map Pass.facts).congr (not_congr ?_)
      exact ⟨fun h => ⟨.inl name, fun _ => h, fun other => absurd (name.symm.trans other) apart⟩,
        fun h => h.facts name⟩
    · refine ((Merging.decides_ofSettings c.settings).map Pass.merging).congr (not_congr ?_)
      exact ⟨fun h => ⟨.inr name, fun other => absurd (other.symm.trans name) apart, fun _ => h⟩,
        fun h => h.merging name⟩

theorem decides_pipeline (cs : List PassConfig) :
    Decides (∃ c ∈ cs, ¬ c.Fits) (builtin.pipeline cs) :=
  Decides.mapM decides_build cs

end Registry

namespace Settings

theorem decides_validate (s : Settings) : Decides (s.problems ≠ []) s.validate := by
  rw [validate]
  split
  · rename_i none
    exact .permits (not_not.2 none) ()
  · rename_i some
    exact .refuses some _

theorem urlProblems_eq_nil (s : Settings) : s.urlProblems = [] ↔
    (s.delivery = .fetch → ∃ url, s.baseUrl = some url ∧ Text.isBlank url = false) := by
  unfold urlProblems
  cases s.delivery with
  | bundle => simp
  | fetch => cases s.baseUrl <;> simp

/-- Where files are fetched, they are fetched from somewhere. Each pass is configured once, as it
can be. -/
structure Consistent (s : Settings) : Prop where
  url : s.delivery = .fetch → ∃ url, s.baseUrl = some url ∧ Text.isBlank url = false
  fits : ∀ c ∈ s.passes, c.Fits
  once : (s.passes.map PassConfig.name).Nodup

theorem consistent_iff (s : Settings) :
    s.Consistent ↔ s.problems = [] ∧ ∀ c ∈ s.passes, c.Fits := by
  rw [problems_eq_nil, urlProblems_eq_nil]
  constructor
  · intro h
    exact ⟨⟨h.url, fun c hc => Registry.mem_keys_builtin.2 (h.fits c hc).known, h.once⟩, h.fits⟩
  · rintro ⟨⟨url, names⟩, fits⟩
    exact ⟨url, fits, names.nodup⟩

end Settings

theorem Session.decides_new (s : Settings) : Decides (¬ s.Consistent) (new s) := by
  -- the check is the same for every pipeline
  have validated (ps : List Pass) : Decides (s.problems ≠ []) (withPasses s ps) :=
    s.decides_validate.map fun _ => initial s ps
  refine ((Registry.decides_pipeline s.passes).bind fun ps _ => validated ps).congr ?_
  rw [Settings.consistent_iff, not_and_or, or_comm]
  simp

/-- The constructor of the pass that is named, if there is one, takes the settings. -/
structure PassConfig.Accepted (c : PassConfig) : Prop where
  facts : c.name = FactGathering.name → ∃ p, FactGathering.ofSettings c.settings = .ok p
  merging : c.name = Merging.name → ∃ p, Merging.ofSettings c.settings = .ok p

theorem PassConfig.fits_iff (c : PassConfig) :
    c.Fits ↔ c.name ∈ Registry.builtin.keys ∧ c.Accepted := by
  have facts := (FactGathering.decides_ofSettings c.settings).exists_iff
  have merging := (Merging.decides_ofSettings c.settings).exists_iff
  rw [not_not] at facts merging
  rw [Registry.mem_keys_builtin]
  constructor
  · intro h
    exact ⟨h.known, fun name => facts.2 (h.facts name), fun name => merging.2 (h.merging name)⟩
  · rintro ⟨known, h⟩
    exact ⟨known, fun name => facts.1 (h.facts name), fun name => merging.1 (h.merging name)⟩

/-- A session is made exactly if the settings pass their check and each pass that they list takes
its own settings, which is to say that they are consistent. Its passes are those listed, in their
order. Any other settings are refused. -/
theorem Session.new_ok_iff_consistent (s : Settings) :
    ((∃ t, new s = .ok t) ↔ s.problems = [] ∧ ∀ c ∈ s.passes, c.Accepted) ∧
    ((∃ t, new s = .ok t) ↔ s.Consistent) ∧
    (∀ t, new s = .ok t → t.passNames = s.passes.map PassConfig.name) ∧
    ∀ e, new s = .error e → ∃ reason, e = .refused reason := by
  have made : (∃ t, new s = .ok t) ↔ s.Consistent := by
    rw [(decides_new s).exists_iff, not_not]
  refine ⟨?_, made, ?_, fun e he => (decides_new s).error he⟩
  · rw [made, Settings.consistent_iff]
    refine and_congr_right fun valid => forall₂_congr fun c hc => ?_
    have known := (s.problems_eq_nil.1 valid).2.known c hc
    rw [c.fits_iff, and_iff_right known]
  · intro t ht
    obtain ⟨ps, built, ht⟩ := bind_eq_ok.1 ht
    obtain rfl := withPasses_eq_ok ht
    exact (Registry.pipeline_eq_ok built).2

end Playbook
