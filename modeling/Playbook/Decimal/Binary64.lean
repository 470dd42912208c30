/-! Binary floating-point numbers of 64 bits, as bits with an exact reading.
A finite number is `significand * 2 ^ exponent`, up to its sign. -/

namespace Playbook

/-- One bit of sign, eleven of exponent and fifty-two of fraction. -/
structure Binary64 where
  bits : UInt64
deriving DecidableEq, Inhabited

namespace Binary64

def isNegative (x : Binary64) : Bool := Nat.pow 2 63 ≤ x.bits.toNat

def exponentField (x : Binary64) : Nat := x.bits.toNat / Nat.pow 2 52 % Nat.pow 2 11

def fraction (x : Binary64) : Nat := x.bits.toNat % Nat.pow 2 52

def isFinite (x : Binary64) : Bool := x.exponentField != 2047

def isNaN (x : Binary64) : Bool := !x.isFinite && x.fraction != 0

def significand (x : Binary64) : Nat :=
  if x.exponentField = 0 then x.fraction else Nat.pow 2 52 + x.fraction

def exponent (x : Binary64) : Int :=
  if x.exponentField = 0 then -1074 else (x.exponentField : Int) - 1075

def isZero (x : Binary64) : Bool := x.isFinite && x.significand == 0

/-- Equal as values: the zeros agree, and so does every NaN with every other. -/
def same (x y : Binary64) : Bool :=
  x == y || (x.isNaN && y.isNaN) || (x.isZero && y.isZero)

theorem same_refl (x : Binary64) : x.same x := by simp [same]

def ofMagnitude (negative : Bool) (magnitude : Nat) : Binary64 :=
  ⟨.ofNat ((if negative then Nat.pow 2 63 else 0) + magnitude)⟩

def infinity (negative : Bool) : Binary64 := ofMagnitude negative (2047 * Nat.pow 2 52)

def nan : Binary64 := ofMagnitude false (2047 * Nat.pow 2 52 + Nat.pow 2 51)

def roundHalfEven (num den : Nat) : Nat :=
  let q := num / den
  let r := num % den
  if 2 * r < den then q
  else if den < 2 * r then q + 1
  else if q % 2 = 0 then q else q + 1

/-- The greatest `e` with `2 ^ e ≤ num / den`, for positive numbers. -/
def floorLog2 (num den : Nat) : Int :=
  let e : Int := (num.log2 : Int) - den.log2
  if den * Nat.pow 2 e.toNat ≤ num * Nat.pow 2 (-e).toNat then e else e - 1

/-- The binary64 number nearest to a quotient. A quotient beyond the greatest finite number
becomes an infinity. -/
def ofRatio (negative : Bool) (num den : Nat) : Binary64 :=
  if num = 0 then ofMagnitude negative 0
  else
    let q := max (floorLog2 num den - 52) (-1074)
    let m := roundHalfEven (num * Nat.pow 2 (-q).toNat) (den * Nat.pow 2 q.toNat)
    let magnitude := if m < Nat.pow 2 52 then m else (q + 1074).toNat * Nat.pow 2 52 + m
    ofMagnitude negative (min magnitude (2047 * Nat.pow 2 52))

def ofDecimal (negative : Bool) (digits : Nat) (exponent : Int) : Binary64 :=
  let size := (digits.log2 : Int) / 3 + exponent
  if digits = 0 || size < -500 then ofMagnitude negative 0
  else if 400 < exponent then infinity negative
  else ofRatio negative (digits * Nat.pow 10 exponent.toNat) (Nat.pow 10 (-exponent).toNat)

example : (ofDecimal false 1 (-1)).bits = 0x3FB999999999999A := by decide
example : (ofDecimal true 9007199254740993 0).bits = 0xC340000000000000 := by decide
example : (ofDecimal false 25 (-1)).bits = 0x4004000000000000 := by decide

end Binary64
end Playbook
