import NavDirections.Number.Binary

/-!
# Shortest decimals

A double is written with the fewest digits that read back as the same double, and of those with the
ones nearest to it.  Point notation serves while the point falls within or next to the digits; very
large and very small numbers take a power of ten.
-/

namespace NavDirections

namespace Dyadic

/-- The `k` with `10 ^ (k - 1) ≤ x < 10 ^ k`, for positive `x`. -/
def decimalTop (x : Dyadic) : Int :=
  let (n, d) := x.ratio
  if d ≤ n then decimalLength (n / d) else 1 - decimalLength ((d - 1) / n)

/-- The two neighbours of `x` on the grid of multiples of `10 ^ e`, the nearer first. -/
def gridNeighbours (x : Dyadic) (e : Int) : List Decimal :=
  let (n, d) := x.ratio
  let (n, d) := if 0 ≤ e then (n, d * Nat.pow 10 e.toNat) else (n * Nat.pow 10 (-e).toNat, d)
  let below := n / d
  if 2 * (n % d) < d ∨ (2 * (n % d) = d ∧ below % 2 = 0) then [⟨below, e⟩, ⟨below + 1, e⟩]
  else [⟨below + 1, e⟩, ⟨below, e⟩]

/-- All digits of `x`, however many. -/
def exactDecimal (x : Dyadic) : Decimal :=
  if 0 ≤ x.exponent then ⟨x.mantissa * Nat.pow 2 x.exponent.toNat, 0⟩
  else ⟨x.mantissa * Nat.pow 5 (-x.exponent).toNat, x.exponent⟩

/-- The nearest decimal of the fewest digits that reads back as `x`, trying digit counts up from
`count`. -/
def shortestFrom (f : BinaryFormat) (x : Dyadic) : (tries count : Nat) → Decimal
  | 0, _ => x.exactDecimal
  | tries + 1, count =>
    match (x.gridNeighbours (x.decimalTop - count)).find? (fun d => f.ofDecimal? d == some x) with
    | some d => d
    | none => shortestFrom f x tries (count + 1)

/-- The nearest decimal of the fewest digits that reads back as `x`; seventeen always do for a
double. -/
def shortest (x : Dyadic) : Decimal :=
  if x.mantissa = 0 then ⟨0, 0⟩ else shortestFrom binary64 x 17 1

theorem shortestFrom_reads_back (f : BinaryFormat) (x : Dyadic) (tries count : Nat)
    (h : f.ofDecimal? x.exactDecimal = some x) :
    f.ofDecimal? (shortestFrom f x tries count) = some x := by
  induction tries generalizing count with
  | zero => exact h
  | succ tries ih =>
    rw [shortestFrom]
    split
    next d found => simpa using List.find?_some found
    next => exact ih (count + 1)

end Dyadic

def Decimal.trimZeros (d : Decimal) : Decimal :=
  let digits := Nat.toDigits 10 d.digits
  let kept := (digits.reverse.dropWhile (· == '0')).reverse
  if kept.isEmpty then ⟨0, 0⟩
  else ⟨Decimal.ofDigits 10 (kept.map (·.toNat - 0x30)),
    d.exponent + (digits.length - kept.length : Nat)⟩

/-- A numeral in point notation while its point falls at most four places before the first digit
and at most sixteen places after it, else with a power of ten of at least two digits. -/
def Decimal.text (d : Decimal) : Text :=
  let d := d.trimZeros
  let digits := Text.ofNat d.digits
  let count : Int := digits.length
  let point := count + d.exponent
  let zeros (n : Int) : Text := List.replicate n.toNat ('0' : CodePoint)
  if d.digits = 0 then "0.0"
  else if -4 < point ∧ point ≤ 0 then "0." ++ zeros (-point) ++ digits
  else if 0 < point ∧ point ≤ 16 then
    if count ≤ point then digits ++ zeros (point - count) ++ ".0"
    else digits.take point.toNat ++ "." ++ digits.drop point.toNat
  else
    let power := point - 1
    let size := Text.ofNat power.natAbs
    let fraction : Text := if count = 1 then [] else ("." : Text) ++ digits.drop 1
    let mark : Text := if power < 0 then "e-" else "e+"
    digits.take 1 ++ fraction ++ mark ++ zeros (2 - size.length) ++ size

/-- The text of a double: the shortest numeral that reads back, or a word. -/
def Floating.text : Floating → Text
  | .finite negative x => if negative then ("-" : Text) ++ x.shortest.text else x.shortest.text
  | .infinite negative => if negative then "-inf" else "inf"
  | .undefined => "nan"

end NavDirections
