import Playbook.Value

/-! Which values have a form as a document. A tagged value is announced in the same way as a mapping
of one entry, with the tag for its key; hence such a mapping begins only when its key does. -/

namespace Playbook.Yaml

inductive PrintError where
  | tagInsideTag
  /-- A mapping of one entry whose key is announced before the mapping has begun. -/
  | mappingNotBegun
deriving DecidableEq

def PrintError.message : PrintError → String
  | .tagInsideTag => "serializing nested enums in YAML is not supported yet"
  | .mappingNotBegun => "expected SCALAR, SEQUENCE-START, MAPPING-START, or ALIAS"

inductive Place where
  | item
  | key
  | value
deriving DecidableEq

def Place.next : Place → Place
  | item => item
  | key => value
  | value => key

inductive Announced where
  | nothing
  | mapping
  | tag
deriving DecidableEq

structure Progress where
  announced : Announced
  places : List Place

namespace Progress

def start : Progress := ⟨.nothing, []⟩

def take : List Place → List Place
  | [] => []
  | p :: ps => p.next :: ps

def settled (p : Progress) : List Place :=
  if p.announced = .mapping then .key :: take p.places else p.places

def scalar (p : Progress) : Progress := ⟨.nothing, take p.settled⟩

def begin (p : Progress) (first : Place) : Progress := ⟨.nothing, first :: take p.settled⟩

def endSequence (p : Progress) : Progress := ⟨.nothing, p.places.drop 1⟩

def endMapping (p : Progress) : Except PrintError Progress :=
  match p.places with
  | .key :: ps => .ok ⟨.nothing, ps⟩
  | _ => .error .mappingNotBegun

mutual

def value (p : Progress) : Value → Except PrintError Progress
  | .null | .bool _ | .number _ | .text _ => .ok p.scalar
  | .sequence vs => endSequence <$> items (p.begin .item) vs
  | .mapping [(k, v)] => do
    let p := if p.announced = .tag then p.begin .key else { p with announced := .mapping }
    endMapping (← value (← value p k) v)
  | .mapping es => do endMapping (← entries (p.begin .key) es)
  | .tagged _ v =>
    if p.announced = .tag then .error .tagInsideTag else value { p with announced := .tag } v

def items (p : Progress) : List Value → Except PrintError Progress
  | [] => .ok p
  | v :: vs => do items (← value p v) vs

def entries (p : Progress) : List (Value × Value) → Except PrintError Progress
  | [] => .ok p
  | (k, v) :: es => do entries (← value (← value p k) v) es

end
end Progress

/-- Whether a value can be written, and else the first reason why it cannot. -/
def checkWritable (v : Value) : Except PrintError Unit := do
  let _ ← Progress.start.value v

end Playbook.Yaml
