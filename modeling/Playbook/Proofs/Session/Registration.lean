import Playbook.Session.Basic

/-! What the declaration of a runbook makes: one new unit for each member, in order, and a record
under which name each of them is known. -/

namespace Playbook

theorem Runbook.repeated?_eq_none {seen names : List String} :
    Runbook.repeated? seen names = none ↔ names.Nodup ∧ ∀ n ∈ names, n ∉ seen := by
  induction names generalizing seen with
  | nil => simp [repeated?]
  | cons n l ih =>
    rw [repeated?, List.nodup_cons, List.forall_mem_cons]
    split
    · rename_i old
      simp [old]
    · rename_i new
      simp only [ih, List.mem_cons, not_or, forall_and]
      constructor
      · rintro ⟨nodup, apart, fresh⟩
        exact ⟨⟨fun hn => apart n hn rfl, nodup⟩, new, fresh⟩
      · rintro ⟨⟨apart, nodup⟩, -, fresh⟩
        exact ⟨nodup, fun m hm same => apart (same ▸ hm), fresh⟩

namespace Session
variable {s t : Session}

/-- Maps of sessions that go along with the declaration of one unit go along with that of the
members of a runbook. -/
theorem declareMembers_map (φ : Session → Session)
    (along : ∀ (s : Session) (name : String) (d : Declaration Body),
      (φ s).declareAs name d = ((s.declareAs name d).1, φ (s.declareAs name d).2))
    (s : Session) (runbook : String) (members : OrderedMap String UnitId)
    (ds : List (Declaration Body)) : (φ s).declareMembers runbook members ds =
      ((s.declareMembers runbook members ds).1, φ (s.declareMembers runbook members ds).2) := by
  induction ds generalizing s members with
  | nil => rfl
  | cons d ds ih =>
    rw [declareMembers, along]
    exact ih (s.declareAs (Runbook.qualified runbook d.name) d).2 _

theorem declareRunbook_map (φ : Session → Session)
    (along : ∀ (s : Session) (name : String) (d : Declaration Body),
      (φ s).declareAs name d = ((s.declareAs name d).1, φ (s.declareAs name d).2))
    (runbooks : ∀ s, (φ s).runbooks = s.runbooks)
    (recorded : ∀ s runbooks, φ { s with runbooks } = { φ s with runbooks })
    (s : Session) (name : String) (setup : Option Block) (members : List (Declaration Body)) :
    (φ s).declareRunbook name setup members =
      (s.declareRunbook name setup members).map fun p => (p.1, φ p.2) := by
  unfold declareRunbook
  split
  · rfl
  · simp only [declareMembers_map φ along, runbooks]
    exact congrArg (fun t => Except.ok (_, t)) (recorded _ _).symm

def memberUnits (s : Session) (runbook : String) (ds : List (Declaration Body)) : List WorkUnit :=
  ds.mapIdx fun k d =>
    .ofDeclaration ⟨s.units.length + k⟩ (Runbook.qualified runbook d.name) d

theorem declareMembers_snd (s : Session) (runbook : String) (members : OrderedMap String UnitId)
    (ds : List (Declaration Body)) : (s.declareMembers runbook members ds).2 =
      { s with units := s.units ++ s.memberUnits runbook ds } := by
  induction ds generalizing s members with
  | nil => simp [declareMembers, memberUnits]
  | cons d ds ih =>
    have next : s.memberUnits runbook (d :: ds) =
        .ofDeclaration ⟨s.units.length⟩ (Runbook.qualified runbook d.name) d ::
          (s.declareAs (Runbook.qualified runbook d.name) d).2.memberUnits runbook ds := by
      simp [memberUnits, declareAs, List.mapIdx_cons, Nat.add_assoc, Nat.add_comm 1]
    rw [declareMembers, ih, next]
    simp [declareAs]

theorem entries_declareMembers (runbook : String) {members : OrderedMap String UnitId}
    {ds : List (Declaration Body)} (nodup : (ds.map Declaration.name).Nodup)
    (fresh : ∀ d ∈ ds, d.name ∉ members.keys) :
    (s.declareMembers runbook members ds).1.entries =
      members.entries ++ ds.mapIdx fun k d => (d.name, ⟨s.units.length + k⟩) := by
  induction ds generalizing s members with
  | nil => simp [declareMembers]
  | cons d ds ih =>
    obtain ⟨apart, nodup⟩ := List.nodup_cons.1 nodup
    obtain ⟨new, fresh⟩ := List.forall_mem_cons.1 fresh
    rw [declareMembers, ih nodup fun e he known => ?_]
    · show putEntry d.name _ members.entries ++ _ = _
      rw [putEntry_of_notMem _ new]
      simp [declareAs, List.mapIdx_cons, Nat.add_assoc, Nat.add_comm 1]
    · rcases OrderedMap.mem_keys_insert.1 known with old | same
      · exact fresh e he old
      · exact apart (same ▸ List.mem_map_of_mem he)

theorem declareRunbook_of_nodup (name : String) (setup : Option Block)
    {ds : List (Declaration Body)} (nodup : (ds.map Declaration.name).Nodup) :
    ∃ members : OrderedMap String UnitId,
      s.declareRunbook name setup ds = .ok (⟨s.runbooks.length⟩, { s with
        units := s.units ++ s.memberUnits name ds
        runbooks := s.runbooks ++ [{ id := ⟨s.runbooks.length⟩, name, setup, members }] }) ∧
      members.entries = ds.mapIdx fun k d => (d.name, ⟨s.units.length + k⟩) := by
  have distinct : Runbook.repeated? [] (ds.map Declaration.name) = none :=
    Runbook.repeated?_eq_none.2 ⟨nodup, by simp⟩
  refine ⟨(s.declareMembers name .empty ds).1, ?_, ?_⟩
  · simp only [declareRunbook, distinct]
    rw [declareMembers_snd]
  · rw [entries_declareMembers name nodup (by simp)]
    rfl

theorem declareRunbook_eq_ok {name : String} {setup : Option Block}
    {ds : List (Declaration Body)} {id : RunbookId}
    (h : s.declareRunbook name setup ds = .ok (id, t)) :
    ∃ members : OrderedMap String UnitId, id = ⟨s.runbooks.length⟩ ∧
      t = { s with
        units := s.units ++ s.memberUnits name ds
        runbooks := s.runbooks ++ [{ id, name, setup, members }] } ∧
      (∀ k d, ds[k]? = some d → members.get? d.name = some ⟨s.units.length + k⟩) ∧
      ∀ j ∈ members.values, s.units.length ≤ j.index ∧ j.index < s.units.length + ds.length := by
  have nodup : (ds.map Declaration.name).Nodup := by
    unfold declareRunbook at h
    split at h
    · cases h
    · rename_i distinct
      exact (Runbook.repeated?_eq_none.1 distinct).1
  obtain ⟨members, declared, entries⟩ := s.declareRunbook_of_nodup name setup nodup
  obtain ⟨rfl, rfl⟩ := Prod.mk.inj (Except.ok.inj (declared.symm.trans h))
  refine ⟨members, rfl, rfl, fun k d hd => ?_, fun j hj => ?_⟩
  · obtain ⟨hk, rfl⟩ := List.getElem?_eq_some_iff.1 hd
    rw [OrderedMap.get?_eq_some, entries]
    exact List.mem_mapIdx.2 ⟨k, hk, rfl⟩
  · rw [OrderedMap.values, entries] at hj
    obtain ⟨e, he, rfl⟩ := List.mem_map.1 hj
    obtain ⟨k, hk, rfl⟩ := List.mem_mapIdx.1 he
    exact ⟨Nat.le_add_right .., Nat.add_lt_add_left hk _⟩

end Session
end Playbook
