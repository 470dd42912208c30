import Playbook.Decimal.Shortest

/-! How the shortest decimal of a number is laid out as text, and how a decimal text is read. -/

namespace Playbook.Decimal

/-- Point places above `lowest` and up to `highest` are written without an exponent. -/
structure Layout where
  lowest : Int
  highest : Int
  positiveExponent : String

namespace Layout

def zeros (n : Nat) : String := String.ofList (List.replicate n '0')

/-- Digits without trailing zeros, with the decimal point `place` digits after their start. -/
def place (f : Layout) (digits : List Char) (place : Int) : String :=
  let n : Int := digits.length
  if n ≤ place && place ≤ f.highest then
    String.ofList digits ++ zeros (place - n).toNat ++ ".0"
  else if 0 < place && place ≤ f.highest then
    String.ofList (digits.take place.toNat) ++ "." ++ String.ofList (digits.drop place.toNat)
  else if f.lowest < place && place ≤ 0 then
    "0." ++ zeros (-place).toNat ++ String.ofList digits
  else
    let mantissa := String.ofList (digits.take 1) ++
      if n = 1 then "" else "." ++ String.ofList (digits.drop 1)
    let e := place - 1
    mantissa ++ (if e < 0 then "e-" else f.positiveExponent) ++ toString e.natAbs

def write (f : Layout) (x : Binary64) : String :=
  (if x.isNegative then "-" else "") ++
    if x.isZero then "0.0"
    else
      let d := x.shortest
      let all := Nat.toDigits 10 d.digits
      let digits := (all.reverse.dropWhile (· = '0')).reverse
      f.place digits (d.exponent + all.length)

end Layout

def plain : Layout := ⟨-5, 16, "e"⟩

def signed : Layout := ⟨-5, 16, "e+"⟩

def valueOf (digits : List Char) : Nat :=
  digits.foldl (fun n c => 10 * n + (c.toNat - '0'.toNat)) 0

def splitSign : List Char → Bool × List Char
  | '-' :: r => (true, r)
  | '+' :: r => (false, r)
  | r => (false, r)

def readExponent? : List Char → Option Int
  | [] => some 0
  | c :: r =>
    let (negative, digits) := splitSign r
    if (c = 'e' || c = 'E') && !digits.isEmpty && digits.all Char.isDigit then
      some (if negative then -(valueOf digits : Int) else valueOf digits)
    else none

/-- A decimal with digits on at least one side of an optional point. A value out of range reads as
an infinity. -/
def read? (text : List Char) : Option Binary64 :=
  let (negative, r) := splitSign text
  let whole := r.takeWhile Char.isDigit
  let r := r.dropWhile Char.isDigit
  let (places, r) := match r with
    | '.' :: r => (r.takeWhile Char.isDigit, r.dropWhile Char.isDigit)
    | r => ([], r)
  if whole.isEmpty && places.isEmpty then none
  else (readExponent? r).map fun e =>
    .ofDecimal negative (valueOf (whole ++ places)) (e - places.length)

end Playbook.Decimal
