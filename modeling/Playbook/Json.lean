import Playbook.Value
import Playbook.Text.Quoted

/-! JSON documents, in one line or indented. -/

namespace Playbook

/-- A number is kept as its text, and an object as its members in order. -/
inductive Json where
  | null
  | bool (b : Bool)
  | number (text : String)
  | string (s : String)
  | array (items : List Json)
  | object (members : List (String × Json))
deriving Inhabited

namespace Json

def escapeChar (c : Char) : String :=
  if c = '"' then "\\\""
  else if c = '\\' then "\\\\"
  else if c = '\x08' then "\\b"
  else if c = '\x0c' then "\\f"
  else if c = '\n' then "\\n"
  else if c = '\r' then "\\r"
  else if c = '\t' then "\\t"
  else if c.toNat < 0x20 then "\\u" ++ Text.hexPadded 4 c.toNat
  else c.toString

def quote (s : String) : String := "\"" ++ String.join (s.toList.map escapeChar) ++ "\""

mutual

def compact : Json → String
  | .null => "null"
  | .bool b => toString b
  | .number t => t
  | .string s => quote s
  | .array items => "[" ++ ",".intercalate (compactItems items) ++ "]"
  | .object members => "\x7b" ++ ",".intercalate (compactMembers members) ++ "\x7d"

def compactItems : List Json → List String
  | [] => []
  | v :: vs => compact v :: compactItems vs

def compactMembers : List (String × Json) → List String
  | [] => []
  | (k, v) :: ms => (quote k ++ ":" ++ compact v) :: compactMembers ms

end

def newline (depth : Nat) : String := "\n" ++ String.ofList (List.replicate (2 * depth) ' ')

mutual

def pretty (depth : Nat) : Json → String
  | .null => "null"
  | .bool b => toString b
  | .number t => t
  | .string s => quote s
  | .array [] => "[]"
  | .array (v :: vs) =>
    "[" ++ prettyItems depth (v :: vs) ++ newline depth ++ "]"
  | .object [] => "\x7b\x7d"
  | .object (m :: ms) =>
    "\x7b" ++ prettyMembers depth (m :: ms) ++ newline depth ++ "\x7d"

def prettyItems (depth : Nat) : List Json → String
  | [] => ""
  | v :: vs =>
    newline (depth + 1) ++ pretty (depth + 1) v ++
      (if vs.isEmpty then "" else ",") ++ prettyItems depth vs

def prettyMembers (depth : Nat) : List (String × Json) → String
  | [] => ""
  | (k, v) :: ms =>
    newline (depth + 1) ++ quote k ++ ": " ++ pretty (depth + 1) v ++
      (if ms.isEmpty then "" else ",") ++ prettyMembers depth ms

end

inductive KeyError where
  | notText
  | notFinite
deriving DecidableEq

def KeyError.message : KeyError → String
  | .notText => "key must be a string"
  | .notFinite => "float key must be finite (got NaN or +/-inf)"

/-- A real number without a JSON form is written as null. -/
def ofReal (x : Binary64) : Json :=
  if x.isFinite then .number (Decimal.signed.write x) else .null

def keyOf : Value → Except KeyError String
  | .text s => .ok s
  | .bool b => .ok (toString b)
  | .number (.integer n) => .ok (toString n)
  | .number (.real x) => if x.isFinite then .ok (Decimal.signed.write x) else .error .notFinite
  | _ => .error .notText

mutual

/-- The form of a value; a tagged value becomes an object with the tag as its only key. The first
key that cannot be written decides the error. -/
def ofValue : Value → Except KeyError Json
  | .null => .ok .null
  | .bool b => .ok (.bool b)
  | .number (.integer n) => .ok (.number (toString n))
  | .number (.real x) => .ok (ofReal x)
  | .text s => .ok (.string s)
  | .sequence items => .array <$> ofItems items
  | .mapping entries => .object <$> ofEntries entries
  | .tagged tag v => do return .object [("!" ++ Value.bareTag tag, ← ofValue v)]

def ofItems : List Value → Except KeyError (List Json)
  | [] => .ok []
  | v :: vs => do
    let j ← ofValue v
    return j :: (← ofItems vs)

def ofEntries : List (Value × Value) → Except KeyError (List (String × Json))
  | [] => .ok []
  | (k, v) :: es => do
    let key ← keyOf k
    let j ← ofValue v
    return (key, j) :: (← ofEntries es)

end

end Json
end Playbook
