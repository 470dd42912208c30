import Playbook.Id
import Playbook.Json

/-! Step records: one action of the automation engine each, with its arguments. -/

namespace Playbook

structure Step where
  action : String
  args : Value
  settings : Attributes
  vars : Attributes
  register : String
  group : Option GroupId
deriving Inhabited

inductive StepEdit where
  | set (key : String) (value : Value)
  | when (condition : String)
  | runOnce
  | on (target : String)
  | onAll (targets : String)
  | expose (key register : String)

/-- The `k`-th register variable: its number has at least four digits. -/
def registerName (k : Nat) : String :=
  let digits := Nat.toDigits 10 k
  "runvar" ++ String.ofList (List.replicate (4 - digits.length) '0' ++ digits)

def templated (expression : String) : String := "\x7b\x7b " ++ expression ++ " \x7d\x7d"

namespace Step

def set (s : Step) (key : String) (value : Value) : Step :=
  { s with settings := s.settings.insert key value }

def edit (s : Step) : StepEdit → Step
  | .set key value => s.set key value
  | .when condition => s.set "when" (.text condition)
  | .runOnce => s.set "run_once" (.bool true)
  | .on target => s.set "delegate_to" (.text target)
  | .onAll targets =>
    (s.set "delegate_to" (.text (templated "item"))).set "loop" (.text targets)
  | .expose key register =>
    { s with vars := s.vars.insert key (.text (templated register)) }

/-- A value inside a label. What JSON cannot write is left out. -/
def shown : Value → String
  | .text s => s
  | .bool b => toString b
  | .number n => n.text
  | .null => "None"
  | v => match Json.ofValue v with
    | .ok j => j.compact
    | .error _ => ""

def bracket (c : Char) : Char :=
  if c = '\x7b' then '[' else if c = '\x7d' then ']' else c

/-- Square brackets in place of braces, which the engine would evaluate. -/
def withoutBraces (s : String) : String := String.ofList (s.toList.map bracket)

theorem bracket_ne (c : Char) : bracket c ≠ '\x7b' ∧ bracket c ≠ '\x7d' := by
  unfold bracket
  split
  · decide
  · split
    · decide
    · exact ⟨‹_›, ‹_›⟩

theorem brace_notMem_withoutBraces (s : String) :
    '\x7b' ∉ (withoutBraces s).toList ∧ '\x7d' ∉ (withoutBraces s).toList := by
  simp only [withoutBraces, String.toList_ofList, List.mem_map, not_exists, not_and]
  exact ⟨fun c _ => (bracket_ne c).1, fun c _ => (bracket_ne c).2⟩

def shownArgs : Value → String
  | .mapping entries =>
    ", ".intercalate (entries.map fun e => shown e.1 ++ "=" ++ withoutBraces (shown e.2))
  | .null => ""
  | v => withoutBraces (shown v)

/-- The name under which the step is emitted, such as `apt(name=vault)`. -/
def label (s : Step) : String := s.action ++ "(" ++ shownArgs s.args ++ ")"

/-- The step as the engine reads it: its settings over the defaults, then its action, its variables
if it has any, and its label. -/
def render (s : Step) (defaults : Attributes) : Attributes :=
  let body := (defaults.overlay s.settings).insert s.action s.args
  let body := if s.vars.isEmpty then body else body.insert "vars" s.vars.toValue
  body.insert "name" (.text s.label)

end Step
end Playbook
