import Playbook.Decimal.Layout
import Playbook.Ordered.Map

/-! Data as authors write it: scalars, sequences, mappings in order and tagged values. -/

namespace Playbook

inductive Number where
  | integer (n : Int)
  | real (x : Binary64)
deriving DecidableEq, Inhabited

namespace Number

/-- An integer never equals a real number. -/
def same : Number → Number → Bool
  | .integer m, .integer n => m == n
  | .real x, .real y => x.same y
  | _, _ => false

theorem same_refl (n : Number) : n.same n := by
  cases n <;> simp [same, Binary64.same_refl]

def text : Number → String
  | .integer n => toString n
  | .real x =>
    if x.isFinite then Decimal.plain.write x
    else if x.isNaN then ".nan"
    else if x.isNegative then "-.inf"
    else ".inf"

end Number

inductive Value where
  | null
  | bool (b : Bool)
  | number (n : Number)
  | text (s : String)
  | sequence (items : List Value)
  | mapping (entries : List (Value × Value))
  | tagged (tag : String) (value : Value)
deriving Inhabited

namespace Value

def integer (n : Int) : Value := .number (.integer n)

def real (x : Binary64) : Value := .number (.real x)

/-- A tag's name without its leading exclamation mark. A lone mark is its own name. -/
def bareTag (tag : String) : String :=
  match tag.toList with
  | '!' :: c :: r => String.ofList (c :: r)
  | _ => tag

mutual

/-- Equality of content: mappings agree when they hold equal entries in any order, sequences item
by item. -/
def same : Value → Value → Bool
  | .null, .null => true
  | .bool a, .bool b => a == b
  | .number m, .number n => m.same n
  | .text s, .text t => s == t
  | .sequence xs, .sequence ys => sameItems xs ys
  | .mapping es, .mapping fs => es.length == fs.length && sameEntries es fs
  | .tagged t v, .tagged u w => bareTag t == bareTag u && same v w
  | _, _ => false

def sameItems : List Value → List Value → Bool
  | [], [] => true
  | x :: xs, y :: ys => same x y && sameItems xs ys
  | _, _ => false

def sameEntries : List (Value × Value) → List (Value × Value) → Bool
  | [], _ => true
  | (k, v) :: es, fs =>
    (match fs.find? fun f => same k f.1 with
      | some f => same v f.2
      | none => false) && sameEntries es fs

end

instance : BEq Value := ⟨same⟩

def ofEntries (entries : List (Value × Value)) : Value :=
  .mapping (entries.foldl (fun es e => putEntry e.1 e.2 es) [])

def ofFields (fields : List (String × Value)) : Value :=
  ofEntries (fields.map fun f => (.text f.1, f.2))

def texts (items : List String) : Value := .sequence (items.map .text)

def textLength? : Value → Option Nat
  | .text s => some s.length
  | _ => none

end Value

/-- Named values in the order in which the names were first given. -/
abbrev Attributes := OrderedMap String Value

namespace Attributes

def toValue (a : Attributes) : Value := .mapping (a.entries.map fun e => (.text e.1, e.2))

def same (a b : Attributes) : Bool := a.toValue.same b.toValue

end Attributes
end Playbook
