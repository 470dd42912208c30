import Mathlib.Logic.Basic
import Mathlib.Tactic.SplitIfs
import Playbook.Proofs.Session.Dependencies

/-! The braces in the labels of steps. The engine evaluates what stands in braces, so a label has
brackets in place of those of the values. The keys of arguments are shown as they are, though, and
bring their braces along. -/

namespace Playbook

namespace Text
variable {s : String}

def braces (s : String) : List Char := s.toList.filter fun c => c = '\x7b' || c = '\x7d'

theorem mem_braces {c : Char} : c ∈ braces s ↔ c ∈ s.toList ∧ (c = '\x7b' ∨ c = '\x7d') := by
  simp [braces]

theorem braces_eq_nil : braces s = [] ↔ '\x7b' ∉ s.toList ∧ '\x7d' ∉ s.toList := by
  rw [List.eq_nil_iff_forall_not_mem]
  simp only [mem_braces]
  grind

@[simp] theorem braces_append (s t : String) : braces (s ++ t) = braces s ++ braces t := by
  simp [braces]

theorem braces_intercalate {sep : String} (none : braces sep = []) (l : List String) :
    braces (sep.intercalate l) = l.flatMap braces := by
  induction l with
  | nil => rfl
  | cons s l ih =>
    cases l with
    | nil => simp
    | cons t l =>
      rw [String.intercalate_cons_cons, braces_append, braces_append, none, ih, List.append_nil]
      exact List.flatMap_cons.symm

theorem braces_join (l : List String) : braces (String.join l) = l.flatMap braces := by
  induction l with
  | nil => rfl
  | cons s l ih => rw [String.join_cons, braces_append, ih, List.flatMap_cons]

theorem flatMap_braces (l : List Char) :
    (l.flatMap fun c => braces c.toString) = braces (String.ofList l) := by
  induction l with
  | nil => rfl
  | cons c l ih =>
    rw [List.flatMap_cons, ih, ← braces_append]
    exact congrArg braces String.ofList_cons.symm

theorem braces_ofList_of_digits {l : List Char} (digits : ∀ c ∈ l, c.isDigit = true) :
    braces (String.ofList l) = [] := by
  rw [braces_eq_nil, String.toList_ofList]
  exact ⟨fun h => absurd (digits _ h) (by decide), fun h => absurd (digits _ h) (by decide)⟩

end Text

open Text

theorem braces_natural (n : Nat) : braces (toString n) = [] := by
  refine braces_ofList_of_digits fun c hc => ?_
  exact Nat.isDigit_of_mem_toDigits (by decide) (by decide) hc

theorem braces_integer (n : Int) : braces (toString n) = [] := by
  cases n with
  | ofNat n => exact braces_natural n
  | negSucc n => exact (braces_append "-" _).trans (braces_natural (n + 1))

namespace Decimal.Layout
variable {f : Layout}

theorem braces_zeros (n : Nat) : braces (zeros n) = [] := by
  refine braces_ofList_of_digits fun c hc => ?_
  rw [List.eq_of_mem_replicate hc]
  decide

theorem braces_place (exponent : braces f.positiveExponent = []) {digits : List Char}
    (h : ∀ c ∈ digits, c.isDigit = true) (p : Int) : braces (f.place digits p) = [] := by
  have part {l : List Char} (sub : l ⊆ digits) : braces (String.ofList l) = [] :=
    braces_ofList_of_digits fun c hc => h c (sub hc)
  have front (n : Nat) := part (digits.take_subset n)
  have back (n : Nat) := part (digits.drop_subset n)
  have whole := part (List.Subset.refl digits)
  have marks : braces ".0" = [] ∧ braces "." = [] ∧ braces "0." = [] ∧ braces "e-" = [] ∧
      braces "" = [] := by decide
  simp only [place, apply_ite braces, braces_append, marks, front, back, whole, exponent,
    braces_zeros, braces_natural, List.append_nil, ite_self]

theorem braces_write (exponent : braces f.positiveExponent = []) (x : Binary64) :
    braces (f.write x) = [] := by
  have digits (n : Nat) : ∀ c ∈ ((Nat.toDigits 10 n).reverse.dropWhile (· = '0')).reverse,
      c.isDigit = true := fun c hc => by
    have kept := (List.dropWhile_sublist _).subset (List.mem_reverse.1 hc)
    exact Nat.isDigit_of_mem_toDigits (by decide) (by decide) (List.mem_reverse.1 kept)
  have marks : braces "-" = [] ∧ braces "" = [] ∧ braces "0.0" = [] := by decide
  simp [write, apply_ite braces, marks, braces_place exponent (digits _)]

end Decimal.Layout

theorem Number.braces_text (n : Number) : braces n.text = [] := by
  cases n with
  | integer n => exact braces_integer n
  | real x =>
    have marks : braces ".nan" = [] ∧ braces "-.inf" = [] ∧ braces ".inf" = [] := by decide
    have plain : braces (Decimal.plain.write x) = [] := Decimal.Layout.braces_write (by decide) x
    simp [text, apply_ite braces, marks, plain]

/-- A value whose text in a label has braces: a text that has some itself, a sequence with such an
item, or what JSON writes as an object. -/
inductive Value.Braced : Value → Prop
  | text {t : String} (h : braces t ≠ []) : Braced (.text t)
  | item {items : List Value} {v : Value} (mem : v ∈ items) (h : Braced v) :
      Braced (.sequence items)
  | mapping (entries : List (Value × Value)) : Braced (.mapping entries)
  | tagged (tag : String) (v : Value) : Braced (.tagged tag v)

namespace Json

theorem braces_escapeChar (c : Char) : braces (escapeChar c) = braces c.toString := by
  have low (n : Nat) (h : n < 0x20) : braces ("\\u" ++ Text.hexPadded 4 n) = [] := by
    revert n
    decide
  unfold escapeChar
  -- no brace is among the characters that are escaped
  split_ifs with _ _ _ _ _ _ _ below
  all_goals try (subst c; decide)
  · rw [low _ below, eq_comm]
    refine List.eq_nil_iff_forall_not_mem.2 fun d hd => ?_
    obtain ⟨mem, brace⟩ := mem_braces.1 hd
    obtain rfl : d = c := by simpa using mem
    rcases brace with rfl | rfl <;> exact absurd below (by decide)
  · rfl

theorem braces_quote (s : String) : braces (quote s) = braces s := by
  have mark : braces "\"" = [] := by decide
  rw [quote, braces_append, braces_append, braces_join, List.flatMap_map, mark]
  simp only [braces_escapeChar, flatMap_braces, String.ofList_toList, List.nil_append,
    List.append_nil]

theorem braces_ofReal (x : Binary64) : braces (ofReal x).compact = [] := by
  unfold ofReal
  split
  · exact Decimal.Layout.braces_write (by decide) x
  · decide

theorem braces_object (members : List (String × Json)) :
    braces (object members).compact ≠ [] := by
  have opened : braces "\x7b" = ['\x7b'] := by decide
  rw [compact, braces_append, braces_append, opened]
  simp

mutual

theorem braces_compact_iff : ∀ (v : Value) (j : Json), ofValue v = .ok j →
    (braces j.compact ≠ [] ↔ v.Braced)
  | .null, j, h => by
    obtain rfl := Except.ok.inj h
    exact iff_of_false (by decide) nofun
  | .bool b, j, h => by
    obtain rfl := Except.ok.inj h
    exact iff_of_false (by cases b <;> decide) nofun
  | .number (.integer n), j, h => by
    obtain rfl := Except.ok.inj h
    exact iff_of_false (absurd (braces_integer n)) nofun
  | .number (.real x), j, h => by
    obtain rfl := Except.ok.inj h
    exact iff_of_false (absurd (braces_ofReal x)) nofun
  | .text t, j, h => by
    obtain rfl := Except.ok.inj h
    rw [compact, braces_quote]
    exact ⟨.text, fun | .text h => h⟩
  | .sequence items, j, h => by
    obtain ⟨js, written, rfl⟩ := map_eq_ok.1 h
    have marks : braces "[" = [] ∧ braces "]" = [] := by decide
    rw [compact, braces_append, braces_append, braces_intercalate (by decide), marks.1, marks.2,
      List.nil_append, List.append_nil]
    exact (braces_compactItems_iff items js written).trans
      ⟨fun ⟨v, mem, h⟩ => .item mem h, fun | .item mem h => ⟨_, mem, h⟩⟩
  | .mapping entries, j, h => by
    obtain ⟨members, -, rfl⟩ := map_eq_ok.1 h
    exact iff_of_true (braces_object members) (.mapping entries)
  | .tagged tag v, j, h => by
    obtain ⟨inner, -, rfl⟩ := map_eq_ok.1 h
    exact iff_of_true (braces_object _) (.tagged tag v)

theorem braces_compactItems_iff : ∀ (items : List Value) (js : List Json), ofItems items = .ok js →
    ((compactItems js).flatMap braces ≠ [] ↔ ∃ v ∈ items, v.Braced)
  | [], js, h => by
    obtain rfl := Except.ok.inj h
    simp [compactItems]
  | v :: vs, js, h => by
    obtain ⟨j, written, h⟩ := bind_eq_ok.1 h
    obtain ⟨js, others, h⟩ := bind_eq_ok.1 h
    obtain rfl := Except.ok.inj h
    simp only [compactItems, List.flatMap_cons, ne_eq, List.append_eq_nil_iff, not_and_or,
      List.mem_cons, exists_eq_or_imp]
    exact or_congr (braces_compact_iff v j written) (braces_compactItems_iff vs js others)

end

end Json

namespace Step

theorem braces_withoutBraces (s : String) : braces (withoutBraces s) = [] :=
  braces_eq_nil.2 (brace_notMem_withoutBraces s)

theorem braces_shown_iff (v : Value) :
    braces (shown v) ≠ [] ↔ v.Braced ∧ ∃ j, Json.ofValue v = .ok j := by
  have structured (written : ∀ j, Json.ofValue v = .ok j → shown v = j.compact)
      (otherwise : ∀ e, Json.ofValue v = .error e → shown v = "") :
      braces (shown v) ≠ [] ↔ v.Braced ∧ ∃ j, Json.ofValue v = .ok j := by
    cases made : Json.ofValue v with
    | ok j =>
      rw [written j made]
      simpa using Json.braces_compact_iff v j made
    | error e =>
      rw [otherwise e made]
      exact iff_of_false (absurd rfl) (by simp)
  cases v with
  | text t =>
    refine ⟨fun h => ⟨.text h, _, rfl⟩, ?_⟩
    rintro ⟨⟨h⟩, -⟩
    exact h
  | null => exact iff_of_false (absurd rfl) (by rintro ⟨⟨⟩, -⟩)
  | bool b => exact iff_of_false (absurd (by cases b <;> rfl)) (by rintro ⟨⟨⟩, -⟩)
  | number n => exact iff_of_false (absurd n.braces_text) (by rintro ⟨⟨⟩, -⟩)
  | sequence | mapping | tagged =>
    exact structured (fun j made => by simp [shown, made]) fun e made => by simp [shown, made]

end Step

def Value.argumentKeys : Value → List Value
  | .mapping entries => entries.map Prod.fst
  | _ => []

namespace Step

theorem braces_shownArgs (args : Value) :
    braces (shownArgs args) = args.argumentKeys.flatMap fun k => braces (shown k) := by
  cases args with
  | mapping entries =>
    have entry (e : Value × Value) : braces (shown e.1 ++ "=" ++ withoutBraces (shown e.2)) =
        braces (shown e.1) := by
      have mark : braces "=" = [] := by decide
      rw [braces_append, braces_append, mark, braces_withoutBraces, List.append_nil,
        List.append_nil]
    rw [shownArgs, braces_intercalate (by decide), List.flatMap_map, Value.argumentKeys,
      List.flatMap_map]
    simp only [entry]
  | null => rfl
  | _ => exact braces_withoutBraces _

theorem braces_label (s : Step) :
    braces s.label = braces s.action ++ s.args.argumentKeys.flatMap fun k => braces (shown k) := by
  have marks : braces "(" = [] ∧ braces ")" = [] := by decide
  rw [label, braces_append, braces_append, braces_append, marks.1, marks.2, braces_shownArgs,
    List.append_nil, List.append_nil]

/-- With an action that has no braces, the name of a step has those of the keys of its arguments, as
they are shown, and no others: whatever the values are, it is free of braces unless some key is a
value of the kinds named. -/
theorem name_braced_iff (s : Step) (defaults : Attributes) (clean : braces s.action = []) :
    ∃ name, (s.render defaults).get? "name" = some (.text name) ∧
      braces name = s.args.argumentKeys.flatMap (fun k => braces (shown k)) ∧
      (braces name ≠ [] ↔
        ∃ k ∈ s.args.argumentKeys, k.Braced ∧ ∃ j, Json.ofValue k = .ok j) := by
  have whole := s.braces_label
  rw [clean, List.nil_append] at whole
  refine ⟨s.label, ?_, whole, ?_⟩
  · rw [render, OrderedMap.get?_insert, if_pos rfl]
  · simp only [whole, ne_eq, List.flatMap_eq_nil_iff, not_forall, exists_prop, ← braces_shown_iff]

def templatedKeyStep : Step where
  action := "debug"
  args := .mapping [(.text (templated "x"), .text "v"), (.text "msg", .text (templated "y"))]
  settings := .empty
  vars := .empty
  register := registerName 1
  group := none

theorem name_braced_iff_templatedKey : braces templatedKeyStep.action = [] ∧
    ∃ name, (templatedKeyStep.render .empty).get? "name" = some (.text name) ∧
      braces name = ['\x7b', '\x7b', '\x7d', '\x7d'] := by
  obtain ⟨name, emitted, keys, -⟩ := templatedKeyStep.name_braced_iff .empty (by decide)
  exact ⟨by decide, name, emitted, keys.trans (by decide)⟩

theorem not_forall_name : ¬ ∀ (s : Step) (defaults : Attributes) (name : String),
    '\x7b' ∉ s.action.toList ∧ '\x7d' ∉ s.action.toList →
    (s.render defaults).get? "name" = some (.text name) →
    '\x7b' ∉ name.toList ∧ '\x7d' ∉ name.toList := by
  intro all
  have emitted : (templatedKeyStep.render .empty).get? "name" =
      some (.text "debug(\x7b\x7b x \x7d\x7d=v, msg=[[ y ]])") := rfl
  exact absurd (all templatedKeyStep .empty _ (by decide) emitted) (by decide)

end Step
end Playbook
