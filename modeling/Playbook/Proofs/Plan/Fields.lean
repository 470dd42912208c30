import Playbook.Proofs.Plan.Order
import Playbook.Proofs.Value.Keys

/-! What a play says, as the mapping that it is written as. The settings of authors stand between
the entries that the play makes itself, and none of them has the name of one. So every key stands
once, whatever was set, and what the play is can be read back from its entries. -/

namespace Playbook

namespace Attributes
variable {a b : Attributes}

theorem entryValue_injective :
    Function.Injective fun e : String × Value => (Value.text e.1, e.2) := fun e f same => by
  obtain ⟨key, value⟩ := Prod.mk.inj same
  exact Prod.ext (Value.text.inj key) value

theorem toValue_injective : Function.Injective toValue := fun a b same => by
  refine OrderedMap.ext (List.map_injective_iff.2 entryValue_injective ?_)
  exact Value.mapping.inj same

theorem find?_toValue (l : List (String × Value)) (k : String) :
    (l.map fun e => (Value.text e.1, e.2)).find? (fun f => (Value.text k).same f.1) =
      (l.lookup k).map (Value.text k, ·) := by
  induction l with
  | nil => rfl
  | cons e l ih =>
    rw [List.map_cons, List.find?_cons, List.lookup_cons, ih]
    by_cases here : k = e.1
    · simp [here, Value.same]
    · simp [beq_false_of_ne here, Value.same]

theorem sameEntries_toValue_iff (l m : List (String × Value)) :
    Value.sameEntries (l.map fun e => (.text e.1, e.2)) (m.map fun e => (.text e.1, e.2)) = true ↔
      ∀ e ∈ l, ∃ w, m.lookup e.1 = some w ∧ e.2.same w = true := by
  induction l with
  | nil => simp [Value.sameEntries]
  | cons e l ih =>
    rw [List.map_cons, Value.sameEntries, Bool.and_eq_true, ih, List.forall_mem_cons,
      find?_toValue]
    cases m.lookup e.1 <;> simp

/-- Mappings of equal content are equal as finite maps: where all keys of one are keys of the other
and there are as many, the keys are the same. -/
theorem matches_of_same (h : a.same b = true) : a.Matches b := by
  rw [same, toValue, toValue, Value.same, Bool.and_eq_true, sameEntries_toValue_iff, beq_iff_eq,
    List.length_map, List.length_map] at h
  obtain ⟨size, entries⟩ := h
  have found (k : String) (v : Value) (hv : a.get? k = some v) :
      ∃ w, b.get? k = some w ∧ v.same w = true := entries (k, v) (OrderedMap.get?_eq_some.1 hv)
  have keys : a.keys ⊆ b.keys := fun k hk => by
    obtain ⟨v, hv⟩ := OrderedMap.mem_keys.1 hk
    obtain ⟨w, hw, -⟩ := found k v hv
    exact OrderedMap.mem_keys.2 ⟨w, hw⟩
  have perm : a.keys.Perm b.keys := by
    refine (List.subperm_of_subset a.nodup_keys keys).perm_of_length_le ?_
    rw [OrderedMap.keys, OrderedMap.keys, List.length_map, List.length_map, size]
  intro k
  cases hv : a.get? k with
  | none =>
    have absent : b.get? k = none :=
      OrderedMap.get?_eq_none.2 fun hk => OrderedMap.get?_eq_none.1 hv (perm.mem_iff.2 hk)
    rw [absent]
    exact .none
  | some v =>
    obtain ⟨w, hw, content⟩ := found k v hv
    rw [hw]
    exact .some content

theorem sameFields_append {l m l' m' : List (String × Value)} (size : l.length = m.length)
    (h : GroupKey.sameFields (l ++ l') (m ++ m') = true) :
    GroupKey.sameFields l m = true ∧ GroupKey.sameFields l' m' = true := by
  induction l generalizing m with
  | nil =>
    obtain rfl := List.length_eq_zero_iff.1 size.symm
    exact ⟨rfl, h⟩
  | cons e l ih =>
    cases m with
    | nil => cases size
    | cons f m =>
      rw [List.cons_append, List.cons_append, sameFields_cons] at h
      obtain ⟨name, content, rest⟩ := h
      obtain ⟨front, back⟩ := ih (Nat.succ.inj size) rest
      exact ⟨(sameFields_cons e f l m).2 ⟨name, content, front⟩, back⟩

end Attributes

namespace Play
variable {p q : Play} {g : HostGroup} {u : WorkUnit}

def written (entries : List (String × Value)) : Value :=
  .mapping (entries.map fun e => (.text e.1, e.2))

theorem written_injective : Function.Injective written := fun _ _ same =>
  List.map_injective_iff.2 Attributes.entryValue_injective (Value.mapping.inj same)

theorem fields_injective : Function.Injective fields := fun p q same => by
  obtain ⟨front, back⟩ := List.append_inj' same rfl
  obtain ⟨names, settings⟩ := List.append_inj front rfl
  simp only [List.cons.injEq, Prod.mk.injEq, Value.text.injEq, Value.sequence.injEq, true_and,
    and_true] at names back
  have steps := List.map_injective_iff.2 Attributes.toValue_injective back.2
  calc p = ⟨p.name, p.hosts, p.settings, p.vars, p.steps⟩ := rfl
    _ = q := by
      rw [names.1, names.2, OrderedMap.ext settings, Attributes.toValue_injective back.1, steps]

/-- The same in content: settings, variables and steps are equal as maps. -/
structure Same (p q : Play) : Prop where
  name : p.name = q.name
  hosts : p.hosts = q.hosts
  settings : p.settings.Matches q.settings
  vars : p.vars.Matches q.vars
  steps : List.Forall₂ Attributes.Matches p.steps q.steps

theorem forall₂_matches {as bs : List Attributes}
    (h : Value.sameItems (as.map Attributes.toValue) (bs.map Attributes.toValue) = true) :
    List.Forall₂ Attributes.Matches as bs := by
  induction as generalizing bs with
  | nil =>
    cases bs with
    | nil => exact .nil
    | cons => cases h
  | cons a as ih =>
    cases bs with
    | nil => cases h
    | cons b bs =>
      rw [List.map_cons, List.map_cons, Value.sameItems, Bool.and_eq_true] at h
      exact .cons (Attributes.matches_of_same h.1) (ih h.2)

theorem same_of_sameFields (h : GroupKey.sameFields p.fields q.fields = true) : p.Same q := by
  have sizes : p.fields.length = q.fields.length := by
    rw [GroupKey.sameFields, Bool.and_eq_true] at h
    exact beq_iff_eq.1 h.1
  simp only [fields, List.length_append, List.length_cons, List.length_nil] at sizes
  obtain ⟨front, back⟩ := Attributes.sameFields_append (by simp; omega) h
  obtain ⟨names, settings⟩ := Attributes.sameFields_append (by simp) front
  simp only [Attributes.sameFields_cons, Value.same, beq_iff_eq, true_and] at names back
  have contents := (Attributes.sameFields_iff p.settings.distinct q.settings.distinct).1 settings
  exact ⟨names.1, names.2.1, contents.2, Attributes.matches_of_same back.1,
    forall₂_matches back.2.1⟩

theorem mem_fields {e : String × Value} : e ∈ p.fields ↔
    e = ("name", .text p.name) ∨ e = ("hosts", .text p.hosts) ∨ e ∈ p.settings.entries ∨
      e = ("vars", p.vars.toValue) ∨ e = ("tasks", .sequence (p.steps.map Attributes.toValue)) := by
  simp [fields]

theorem notMem_keys_settings_of {k : String} (h : k ∈ reserved) :
    k ∉ (of g u).settings.keys := by
  rw [← OrderedMap.get?_eq_none, of, OrderedMap.get?_filterKeys, if_neg (by simpa using h)]

theorem get?_settings_of {k : String} (free : k ∉ reserved) :
    (of g u).settings.get? k = (g.settings.get? k).or (u.playSettings.get? k) := by
  rw [of, OrderedMap.get?_filterKeys, if_pos (by simpa using free), OrderedMap.get?_overlay]

theorem nodup_fields_of (g : HostGroup) (u : WorkUnit) :
    ((of g u).fields.map Prod.fst).Nodup := by
  have keys : ((of g u).fields.map Prod.fst).Perm ((of g u).settings.keys ++ reserved) := by
    have moved : (["name", "hosts"] ++ (of g u).settings.keys ++ ["vars", "tasks"]).Perm
        ((of g u).settings.keys ++ ["name", "hosts"] ++ ["vars", "tasks"]) :=
      List.perm_append_comm.append_right _
    simpa [fields, OrderedMap.keys, reserved] using moved
  refine keys.nodup_iff.2 (List.nodup_append.2 ⟨OrderedMap.nodup_keys _, by decide, ?_⟩)
  rintro k set _ made rfl
  exact notMem_keys_settings_of made set

/-- The entries say of a unit and a group that it is bound to what a play for them has to say. Of
each name they say one thing only. -/
structure Presents (entries : List (String × Value)) (g : HostGroup) (u : WorkUnit) : Prop where
  nodup : (entries.map Prod.fst).Nodup
  name : ("name", .text u.name) ∈ entries
  hosts : ("hosts", .text g.pattern) ∈ entries
  vars : ∃ vars : Attributes, ("vars", vars.toValue) ∈ entries ∧
    ∀ k, vars.get? k = (u.vars.get? k).or (g.vars.get? k)
  tasks : ("tasks", .sequence ((u.stepsFor g.id).map fun step =>
    Attributes.toValue (step.render u.stepSettings))) ∈ entries
  others : ∀ k, k ∉ reserved → ∀ v,
    (k, v) ∈ entries ↔ (g.settings.get? k).or (u.playSettings.get? k) = some v

theorem presents_fields_of (g : HostGroup) (u : WorkUnit) : Presents (of g u).fields g u where
  nodup := nodup_fields_of g u
  name := mem_fields.2 (.inl rfl)
  hosts := mem_fields.2 (.inr (.inl rfl))
  vars := ⟨(of g u).vars, mem_fields.2 (.inr (.inr (.inr (.inl rfl)))),
    fun k => OrderedMap.get?_overlay g.vars u.vars k⟩
  tasks := by
    refine mem_fields.2 (.inr (.inr (.inr (.inr ?_))))
    rw [of, List.map_map]
    rfl
  others k free v := by
    simp only [reserved, List.mem_cons, List.not_mem_nil, or_false, not_or] at free
    rw [← get?_settings_of (by simpa [reserved] using free), OrderedMap.get?_eq_some, mem_fields]
    simp [free]

end Play

namespace Json

theorem keys_ofEntries {entries : List (String × Value)} {members : List (String × Json)}
    (h : ofEntries (entries.map fun e => (.text e.1, e.2)) = .ok members) :
    members.map Prod.fst = entries.map Prod.fst := by
  induction entries generalizing members with
  | nil =>
    obtain rfl := Except.ok.inj h
    rfl
  | cons e entries ih =>
    rw [List.map_cons, ofEntries] at h
    obtain ⟨key, hk, h⟩ := bind_eq_ok.1 h
    obtain ⟨j, -, h⟩ := bind_eq_ok.1 h
    obtain ⟨rest, hr, h⟩ := bind_eq_ok.1 h
    obtain rfl := Except.ok.inj h
    obtain rfl : e.1 = key := Except.ok.inj hk
    rw [List.map_cons, List.map_cons, ih hr]

theorem ofValue_written {entries : List (String × Value)} {json : Json}
    (h : ofValue (Play.written entries) = .ok json) :
    ∃ members, json = .object members ∧ members.map Prod.fst = entries.map Prod.fst := by
  rw [Play.written, ofValue] at h
  obtain ⟨members, made, rfl⟩ := map_eq_ok.1 h
  exact ⟨members, rfl, keys_ofEntries made⟩

end Json

/-- Every play of a plan is written as a mapping in which no key stands twice, in JSON as well: the
entries that a play makes itself are those of its unit and its group, whatever settings there are,
and each other one is the group's setting of that name or, where the group has none, the unit's. A
play can be read back from its entries, and from their contents as far as contents go. -/
theorem Exec.plays_unambiguous {call : Block → Exec Unit} {r r' : Run} {p : Plan}
    (h : (plan call).run r = .ok p r') :
    (∀ play ∈ p.plays, ∃ id u j g, r'.session.unit? id = some u ∧ j ∈ u.groups ∧
      r'.session.group? j = some g ∧ ∃ entries, play.toValue = Play.written entries ∧
        Play.Presents entries g u ∧
        ∀ json, Json.ofValue play.toValue = .ok json →
          ∃ members, json = .object members ∧ members.map Prod.fst = entries.map Prod.fst) ∧
    ∀ play other : Play, (play.toValue = other.toValue → play = other) ∧
      (GroupKey.sameFields play.fields other.fields = true → play.Same other) := by
  refine ⟨fun play hplay => ?_, fun play other => ⟨fun same => ?_, Play.same_of_sameFields⟩⟩
  · obtain ⟨id, u, j, g, hu, -, hj, hg, rfl⟩ := exists_of_mem_plays h play hplay
    exact ⟨id, u, j, g, hu, hj, hg, _, rfl, Play.presents_fields_of g u,
      fun _ => Json.ofValue_written⟩
  · exact Play.fields_injective (Play.written_injective same)

/-- A unit and a host group that both set what a play makes itself, and the same thing otherwise. -/
def greedyScript : Block :=
  [.declare { Declaration.new "deploy" [.step "command" (.text "one") 1 []] with
      playSettings := .ofList [("name", .text "all"), ("hosts", .text "db"),
        ("become", .bool true), ("serial", .integer 1)]
      vars := .ofList [("datacenter", .text "dc3")] },
    .enter [
      .withHosts (some "web") (.ofList [("tasks", .null), ("vars", .text "none"),
        ("become", .bool false)])
        [.setVar ⟨0⟩ "datacenter" (.text "dh2"), .invoke ⟨0⟩]]]

theorem plays_unambiguous_greedyScript :
    ∃ p r, (Exec.plan (runWithin 3)).run ⟨(Session.initial ⟨false, .bundle, none, []⟩ []).after 4
        greedyScript, []⟩ = .ok p r ∧
      p.plays.map (fun play => (play.hosts, play.fields.map Prod.fst)) =
        [("web", ["name", "hosts", "become", "serial", "vars", "tasks"])] ∧
      ∀ play ∈ p.plays, ∃ id u j g, r.session.unit? id = some u ∧ j ∈ u.groups ∧
        r.session.group? j = some g ∧ ∃ entries, play.toValue = Play.written entries ∧
          Play.Presents entries g u := by
  have keys : ((Exec.plan (runWithin 3)).result? ⟨(Session.initial ⟨false, .bundle, none, []⟩
      []).after 4 greedyScript, []⟩).map (fun x =>
        x.1.plays.map fun play => (play.hosts, play.fields.map Prod.fst)) =
      some [("web", ["name", "hosts", "become", "serial", "vars", "tasks"])] := by decide +kernel
  obtain ⟨⟨p, r⟩, planned, keys⟩ := Option.map_eq_some_iff.1 keys
  have planned := Exec.result?_eq_some.1 planned
  refine ⟨p, r, planned, keys, fun play hplay => ?_⟩
  obtain ⟨id, u, j, g, hu, hj, hg, entries, written, presents, -⟩ :=
    (Exec.plays_unambiguous planned).1 play hplay
  exact ⟨id, u, j, g, hu, hj, hg, entries, written, presents⟩

end Playbook
