import Playbook.Yaml.Scalar
import Playbook.Yaml.Tag
import Playbook.Yaml.Writable

/-! Values as documents in block style. A sequence below a key is not indented, one inside another
sequence is; lines are never folded. -/

namespace Playbook.Yaml

def tagText (tag : String) : String := (Tag.ofValueTag tag).text

/-- Ends a line that no literal break has ended. -/
def endLine (s : String) : String :=
  if s.toList.getLast?.any isBreak then s else s ++ "\n"

def stacked (indent : Nat) : List String → String
  | [] => ""
  | [e] => e
  | e :: es => endLine e ++ blanks indent ++ stacked indent es

def isBlock : Value → Bool
  | .sequence items => !items.isEmpty
  | .mapping entries => !entries.isEmpty
  | _ => false

def keyText? (indent : Nat) : Value → Option (String × Nat)
  | .null => some ("null", 4)
  | .bool b => some (toString b, (toString b).utf8ByteSize)
  | .number n => some (n.text, n.text.utf8ByteSize)
  | .text s => if s.toList.any isBreak then none else some (scalar indent s, s.utf8ByteSize)
  | .sequence [] => some ("[]", 0)
  | .mapping [] => some ("\x7b\x7d", 0)
  | .tagged tag v =>
    (keyText? indent v).map fun k => (tagText tag ++ " " ++ k.1, (Tag.ofValueTag tag).length + k.2)
  | _ => none

/-- The text of a key that fits before its colon, which takes at most 128 bytes. -/
def simpleKey? (indent : Nat) (v : Value) : Option String :=
  match keyText? indent v with
  | some (text, size) => if size ≤ 128 then some text else none
  | none => none

mutual

/-- A value after the indicator of an item or, in a mapping, of a key or value, where the collection
is indented by `indent`. -/
def inEntry (inMapping : Bool) (indent : Nat) : Value → String
  | .null => "null"
  | .bool b => toString b
  | .number n => n.text
  | .text s => scalar indent s
  | .sequence [] => "[]"
  | .sequence (v :: vs) => stacked (indent + 2) (items (indent + 2) (v :: vs))
  | .mapping [] => "\x7b\x7d"
  | .mapping (e :: es) => stacked (indent + 2) (members (indent + 2) (e :: es))
  | .tagged tag v =>
    if inMapping then tagText tag ++ afterKey indent v
    else
      tagText tag ++ (if isBlock v then "\n" ++ blanks (indent + 2) else " ") ++
        inEntry false indent v

def afterKey (indent : Nat) : Value → String
  | .null => " null"
  | .bool b => " " ++ toString b
  | .number n => " " ++ n.text
  | .text s => " " ++ scalar indent s
  | .sequence [] => " []"
  | .sequence (v :: vs) => "\n" ++ blanks indent ++ stacked indent (items indent (v :: vs))
  | .mapping [] => " \x7b\x7d"
  | .mapping (e :: es) =>
    "\n" ++ blanks (indent + 2) ++ stacked (indent + 2) (members (indent + 2) (e :: es))
  | .tagged tag v => " " ++ tagText tag ++ afterKey indent v

def items (indent : Nat) : List Value → List String
  | [] => []
  | v :: vs => ("- " ++ inEntry false indent v) :: items indent vs

/-- The entries of a mapping whose keys stand after `indent` blanks. A key that is not simple is
marked by a question mark. -/
def members (indent : Nat) : List (Value × Value) → List String
  | [] => []
  | (k, v) :: es =>
    let entry := match simpleKey? indent k with
      | some key => key ++ ":" ++ afterKey indent v
      | none =>
        endLine ("? " ++ inEntry true indent k) ++ blanks indent ++ ": " ++ inEntry true indent v
    entry :: members indent es

end

def document (v : Value) : Except PrintError String := do
  checkWritable v
  return endLine (match v with
    | .sequence (x :: xs) => stacked 0 (items 0 (x :: xs))
    | .mapping (e :: es) => stacked 0 (members 0 (e :: es))
    | v => inEntry false 0 v)

end Playbook.Yaml
