import Playbook.Decimal.Layout

/-! What a plain scalar stands for: null, a truth value, a number or its own text. -/

namespace Playbook.Yaml

inductive Plain where
  | null
  | bool (b : Bool)
  | integer (n : Int)
  | real (x : Binary64)
  | text
deriving DecidableEq

namespace Plain

def isNull (s : String) : Bool := ["null", "Null", "NULL", "~"].contains s

def bool? (s : String) : Option Bool :=
  if ["true", "True", "TRUE"].contains s then some true
  else if ["false", "False", "FALSE"].contains s then some false
  else none

def digit? (base : Nat) (c : Char) : Option Nat :=
  let v :=
    if c.isDigit then c.toNat - '0'.toNat
    else if 'a' ≤ c && c ≤ 'f' then c.toNat - 'a'.toNat + 10
    else if 'A' ≤ c && c ≤ 'F' then c.toNat - 'A'.toNat + 10
    else base
  if v < base then some v else none

def natural? (base : Nat) (digits : List Char) : Option Nat :=
  if digits.isEmpty then none
  else digits.foldl (fun n c => do return base * (← n) + (← digit? base c)) (some 0)

/-- Digits after a leading zero: a text, although it looks like a number. -/
def isPaddedDigits (s : String) : Bool :=
  match (Decimal.splitSign s.toList).2 with
  | '0' :: c :: r => (c :: r).all Char.isDigit
  | _ => false

def magnitude? (s : String) : Option Nat :=
  match (Decimal.splitSign s.toList).2 with
  | '0' :: 'x' :: r => natural? 16 r
  | '0' :: 'o' :: r => natural? 8 r
  | '0' :: 'b' :: r => natural? 2 r
  | r => if isPaddedDigits s then none else natural? 10 r

/-- Integers of up to 128 bits, with base sixteen, eight and two after `0x`, `0o` and `0b`. -/
def integer? (s : String) : Option Int :=
  (magnitude? s).bind fun n =>
    if (Decimal.splitSign s.toList).1 then
      if n ≤ Nat.pow 2 127 then some (-(n : Int)) else none
    else if n < Nat.pow 2 128 then some n else none

def real? (s : String) : Option Binary64 :=
  let unsigned := match s.toList with
    | '+' :: r => String.ofList r
    | _ => s
  if [".inf", ".Inf", ".INF"].contains unsigned then some (.infinity false)
  else if ["-.inf", "-.Inf", "-.INF"].contains s then some (.infinity true)
  else if [".nan", ".NaN", ".NAN"].contains s then some .nan
  else (Decimal.read? s.toList).filter (·.isFinite)

def read (s : String) : Plain :=
  if s.isEmpty || isNull s then .null
  else if let some b := bool? s then .bool b
  else if let some n := integer? s then .integer n
  else if isPaddedDigits s then .text
  else if let some x := real? s then .real x
  else .text

end Plain
end Playbook.Yaml
