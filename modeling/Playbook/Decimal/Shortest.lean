import Playbook.Decimal.Binary64

/-! The fewest decimal digits that read back as a given binary64 number.
Digits are sought on the grids of one, two, … seventeen places; the first grid that has a point
among the reals that round to the number wins. -/

namespace Playbook

structure DecimalPoint where
  digits : Nat
  exponent : Int
deriving DecidableEq, Inhabited, Repr

namespace Binary64

/-- Whether the real numbers next below `x` lie closer than those next above: `x` is then the
least number with its exponent. -/
def narrowBelow (x : Binary64) : Bool := x.fraction == 0 && 1 < x.exponentField

def decimalPlace (x : Binary64) : Int :=
  let scaled :=
    x.significand * Nat.pow 2 x.exponent.toNat * Nat.pow 10 400 / Nat.pow 2 (-x.exponent).toNat
  ((Nat.toDigits 10 scaled).length : Int) - 400

/-- A point of the grid of `10 ^ g` that rounds to `x`: of two, the nearer one, and of two that are
equally near the even one. -/
def gridPoint? (x : Binary64) (g : Int) : Option Nat :=
  let m := x.significand
  let e := x.exponent - 2
  let a := Nat.pow 2 e.toNat * Nat.pow 10 (-g).toNat
  let b := Nat.pow 2 (-e).toNat * Nat.pow 10 g.toNat
  let low := (4 * m - if x.narrowBelow then 1 else 2) * a
  let high := (4 * m + 2) * a
  let isHit (c : Nat) : Bool :=
    if m % 2 = 0 then low ≤ c * b && c * b ≤ high else low < c * b && c * b < high
  let c := 4 * m * a / b
  let below := 4 * m * a - c * b
  let above := (c + 1) * b - 4 * m * a
  match isHit c, isHit (c + 1) with
  | true, true =>
    some (if below < above then c else if above < below then c + 1 else c + c % 2)
  | true, false => some c
  | false, true => some (c + 1)
  | false, false => none

def shortestFrom (x : Binary64) (place : Int) : Nat → Nat → DecimalPoint
  | 0, n => ⟨(x.gridPoint? (place - n)).getD 0, place - n⟩
  | left + 1, n =>
    match x.gridPoint? (place - n) with
    | some c => ⟨c, place - n⟩
    | none => shortestFrom x place left (n + 1)

/-- The shortest decimal that reads back as the size of a finite number other than zero. -/
def shortest (x : Binary64) : DecimalPoint := shortestFrom x x.decimalPlace 16 1

end Binary64
end Playbook
