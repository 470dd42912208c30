import Playbook.Proofs.Session.Moves

/-! What has been declared stays declared. Units keep their bodies, names and defaults for steps,
host groups keep their patterns, and a session keeps its settings and its instances; no move takes
one of them back. -/

namespace Playbook

/-- `v` was declared like `u`, whatever has become of the two since. -/
structure WorkUnit.SameDeclaration (u v : WorkUnit) : Prop where
  body : v.body = u.body
  name : v.name = u.name
  stepSettings : v.stepSettings = u.stepSettings

namespace WorkUnit.SameDeclaration
variable {u v w : WorkUnit}

theorem refl (u : WorkUnit) : u.SameDeclaration u := ⟨rfl, rfl, rfl⟩

theorem symm (h : u.SameDeclaration v) : v.SameDeclaration u :=
  ⟨h.body.symm, h.name.symm, h.stepSettings.symm⟩

theorem trans (h : u.SameDeclaration v) (h' : v.SameDeclaration w) : u.SameDeclaration w :=
  ⟨h'.body.trans h.body, h'.name.trans h.name, h'.stepSettings.trans h.stepSettings⟩

end WorkUnit.SameDeclaration

namespace Session
variable {s t v : Session}

structure Persists (s t : Session) : Prop where
  settings : t.settings = s.settings
  unit : ∀ id u, s.unit? id = some u → ∃ v, t.unit? id = some v ∧ u.SameDeclaration v
  group : ∀ id g, s.group? id = some g → ∃ h, t.group? id = some h ∧ h.pattern = g.pattern

namespace Persists

theorem of_eq (settings : t.settings = s.settings) (units : t.units = s.units)
    (groups : t.groups = s.groups) : s.Persists t where
  settings := settings
  unit id u hu := ⟨u, by rw [unit?, units]; exact hu, .refl u⟩
  group id g hg := ⟨g, by rw [group?, groups]; exact hg, rfl⟩

theorem refl (s : Session) : s.Persists s := of_eq rfl rfl rfl

theorem trans (hst : s.Persists t) (htv : t.Persists v) : s.Persists v where
  settings := htv.settings.trans hst.settings
  unit id u hu := by
    obtain ⟨u', hu', same⟩ := hst.unit id u hu
    obtain ⟨w, hw, same'⟩ := htv.unit id u' hu'
    exact ⟨w, hw, same.trans same'⟩
  group id g hg := by
    obtain ⟨g', hg', same⟩ := hst.group id g hg
    obtain ⟨h, hh, same'⟩ := htv.group id g' hg'
    exact ⟨h, hh, same'.trans same⟩

theorem of_units (settings : t.settings = s.settings) (groups : t.groups = s.groups)
    {f : UnitId → WorkUnit → WorkUnit} (units : ∀ id, t.unit? id = (s.unit? id).map (f id))
    (same : ∀ id (u : WorkUnit), u.SameDeclaration (f id u)) : s.Persists t where
  settings := settings
  unit id u hu := ⟨f id u, by rw [units, hu]; rfl, same id u⟩
  group id g hg := ⟨g, by rw [group?, groups]; exact hg, rfl⟩

end Persists

theorem modifyUnit_persists (s : Session) (id : UnitId) {f : WorkUnit → WorkUnit}
    (same : ∀ u : WorkUnit, u.SameDeclaration (f u)) : s.Persists (s.modifyUnit id f) := by
  refine .of_units rfl rfl (fun j => s.unit?_modifyUnit id j f) fun j u => ?_
  split
  · exact same u
  · exact .refl u

theorem modifyGroup_persists (s : Session) (id : GroupId) {f : HostGroup → HostGroup}
    (same : ∀ g, (f g).pattern = g.pattern) : s.Persists (s.modifyGroup id f) where
  settings := rfl
  unit id u hu := ⟨u, hu, .refl u⟩
  group j g hg := by
    refine ⟨_, by rw [group?_modifyGroup, hg]; rfl, ?_⟩
    split
    · exact same g
    · rfl

theorem declareAs_persists (s : Session) (name : String) (d : Declaration Body) :
    s.Persists (s.declareAs name d).2 where
  settings := rfl
  unit id u hu := by
    have old : id ≠ (s.declareAs name d).1 := by
      rintro rfl
      simp [unit?_fresh] at hu
    exact ⟨u, by rw [unit?_declareAs, if_neg old, hu], .refl u⟩
  group id g hg := ⟨g, hg, rfl⟩

theorem addGroup_persists (s : Session) (pattern : String) (settings : Attributes) :
    s.Persists (s.addGroup pattern settings).2 where
  settings := rfl
  unit id u hu := ⟨u, hu, .refl u⟩
  group id g hg := by
    have old : id ≠ (s.addGroup pattern settings).1 := by
      rintro rfl
      simp [group?_fresh] at hg
    exact ⟨g, by rw [group?_addGroup, if_neg old, hg], rfl⟩

theorem Update.persists (h : Update s t) : s.Persists t := by
  cases h with
  | declare name d => exact s.declareAs_persists name d
  | hosts declared =>
    obtain ⟨p, a, e⟩ := addGroup_of_declareHosts declared
    obtain rfl : _ = t := congrArg Prod.snd e
    exact s.addGroup_persists p a
  | setSetting id => exact s.modifyGroup_persists id fun _ => rfl
  | setVar id => exact s.modifyGroup_persists id fun _ => rfl
  | setVars id => exact s.modifyGroup_persists id fun _ => rfl
  | constrain id => exact s.modifyUnit_persists id fun u => ⟨rfl, rfl, rfl⟩
  | @record _ _ _ step _ recorded =>
    obtain ⟨id, u, -, -, rfl⟩ := recordStep_eq_ok recorded
    have recorded := s.modifyUnit_persists id (f := (·.record step)) fun _ => ⟨rfl, rfl, rfl⟩
    exact recorded.trans (.of_eq rfl rfl rfl)
  | merge =>
    exact .of_units (f := fun _ => s.mergeUnit) rfl rfl s.unit?_mergeBindings
      fun _ _ => ⟨rfl, rfl, rfl⟩
  | skipFacts =>
    exact {
      settings := rfl
      unit := fun id u hu => ⟨u, hu, .refl u⟩
      group := fun id g hg => ⟨g.setSetting "gather_facts" (.bool false), by
        simp only [group?, List.getElem?_map] at hg ⊢
        rw [hg]
        rfl, rfl⟩ }
  | runbook | inst | pipeline => exact .of_eq rfl rfl rfl

theorem Move.persists (h : s.Move t) : s.Persists t := by
  cases h with
  | update h => exact h.persists
  | @bind id u group =>
    have bound := s.modifyUnit_persists id (f := (·.bind group)) fun _ => ⟨rfl, rfl, rfl⟩
    exact bound.trans (modifyGroup_persists _ group (f := (·.addMember id)) fun _ => rfl)
  | enter | leave | unwind | setFloor => exact .of_eq rfl rfl rfl

theorem Moves.persists (h : s.Moves t) : s.Persists t := by
  induction h with
  | refl => exact .refl s
  | tail _ h ih => exact ih.trans h.persists

theorem Moves.instance? (m : s.Moves t) {id : InstanceId} {i : Instance}
    (h : s.instance? id = some i) : t.instance? id = some i := by
  induction m with
  | refl => exact h
  | tail _ last ih =>
    cases last with
    | bind | enter | leave | unwind | setFloor => exact ih
    | update u =>
      cases u with
      | inst => exact (List.getElem?_append_left (List.getElem?_eq_some_iff.1 ih).1).trans ih
      | hosts declared =>
        obtain ⟨p, a, added⟩ := addGroup_of_declareHosts declared
        obtain rfl := congrArg Prod.snd added
        exact ih
      | record recorded =>
        obtain ⟨_, _, -, -, rfl⟩ := recordStep_eq_ok recorded
        exact ih
      | declare | runbook | setSetting | setVar | setVars | constrain | merge | skipFacts
        | pipeline => exact ih

end Session
end Playbook
