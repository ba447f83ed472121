import NavDirections.Number.Decimal

/-!
# Binary floating point

A format fixes how many significant bits a number has and how far its exponent reaches.
`BinaryFormat.round?` takes a quotient to the nearest number of a format, ties to the even one, and
fails where that lies past the largest; it computes with natural numbers only.
-/

namespace NavDirections

structure Dyadic where
  mantissa : Nat
  exponent : Int
deriving DecidableEq

/-- The shape of a binary format: the significant bits, and the exponents of the last bit of its
smallest and largest numbers. -/
structure BinaryFormat where
  precision : Nat
  least : Int
  greatest : Int

def binary64 : BinaryFormat := ⟨53, -1074, 971⟩

def binary32 : BinaryFormat := ⟨24, -149, 104⟩

def Dyadic.ratio (x : Dyadic) : Nat × Nat :=
  if 0 ≤ x.exponent then (x.mantissa * Nat.pow 2 x.exponent.toNat, 1)
  else (x.mantissa, Nat.pow 2 (-x.exponent).toNat)

/-- The natural number nearest to `num / den`, the even one of two equally near. -/
def roundDiv (num den : Nat) : Nat :=
  let q := num / den
  let r := num % den
  if den < 2 * r ∨ (2 * r = den ∧ q % 2 = 1) then q + 1 else q

/-- The quotient `num / (den * 2 ^ e)` as numerator and denominator. -/
def scaleDown (e : Int) (num den : Nat) : Nat × Nat :=
  if 0 ≤ e then (num, den * Nat.pow 2 e.toNat) else (num * Nat.pow 2 (-e).toNat, den)

/-- The largest `e` with `2 ^ e ≤ num / den`, for positive `num` and `den`. -/
def floorLog2 (num den : Nat) : Int :=
  let e : Int := (num.log2 : Int) - den.log2
  let (n, d) := scaleDown e num den
  if d ≤ n then e else e - 1

namespace BinaryFormat

/-- The number of the format nearest to `num / den`, ties to even; none past the largest. -/
def round? (f : BinaryFormat) (num den : Nat) : Option Dyadic :=
  if num = 0 then some ⟨0, f.least⟩
  else
    let e := max f.least (floorLog2 num den - (f.precision - 1))
    let (n, d) := scaleDown e num den
    let m := roundDiv n d
    let x : Dyadic :=
      if m = Nat.pow 2 f.precision then ⟨Nat.pow 2 (f.precision - 1), e + 1⟩ else ⟨m, e⟩
    if f.greatest < x.exponent then none else some x

/-- The number of the format nearest to a decimal.  The first two answers need no arithmetic: a
number with that many digits before the point is too large, one with that many zeros after it is
nearer to zero than to the smallest. -/
def ofDecimal? (f : BinaryFormat) (d : Decimal) : Option Dyadic :=
  let top : Int := decimalLength d.digits + d.exponent
  if d.digits = 0 ∨ top < f.least then some ⟨0, f.least⟩
  else if f.greatest + f.precision < top - 1 then none
  else f.round? d.ratio.1 d.ratio.2

end BinaryFormat

/-- A double precision number, an infinity, or the value that is no number. -/
inductive Floating where
  | finite (negative : Bool) (magnitude : Dyadic)
  | infinite (negative : Bool)
  | undefined
deriving DecidableEq

namespace Floating

/-- The double nearest to a signed decimal; infinite past the largest. -/
def ofDecimal (negative : Bool) (d : Decimal) : Floating :=
  match binary64.ofDecimal? d with
  | some x => .finite negative x
  | none => .infinite negative

/-- Is it a zero of either sign? -/
def isZero : Floating → Bool
  | .finite _ x => x.mantissa == 0
  | _ => false

/-- The integer that the number equals, if there is one. -/
def toInt? : Floating → Option Int
  | .finite negative x =>
    let (n, d) := x.ratio
    if n % d = 0 then some (if negative then -(n / d : Nat) else (n / d : Nat)) else none
  | _ => none

end Floating
end NavDirections
