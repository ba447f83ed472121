import NavDirections.Text.Basic
import NavDirections.Text.Blank

/-!
# Decimal numerals

A decimal numeral stands for `digits * 10 ^ exponent`.  `Decimal.scan?` reads one from text: an
optional sign, digits with an optional point among them, and an optional power of ten.  Digits of
any script count, and a single underscore may separate two digits.  The text of an integer may have
white space around it as well, but no point and no power; there is a limit on the number of its
digits, both for reading and for writing.
-/

namespace NavDirections

structure Decimal where
  digits : Nat
  exponent : Int
deriving DecidableEq

/-- The number of decimal digits of `n`; zero has one. -/
def decimalLength (n : Nat) : Nat := (Nat.toDigits 10 n).length

namespace Decimal

def ratio (d : Decimal) : Nat × Nat :=
  if 0 ≤ d.exponent then (d.digits * Nat.pow 10 d.exponent.toNat, 1)
  else (d.digits, Nat.pow 10 (-d.exponent).toNat)

def ofDigits (base : Nat) (digits : List Nat) : Nat :=
  digits.foldl (fun n d => n * base + d) 0

/-- The digits that a text begins with, and the rest. -/
def spanDigits (t : Text) : List Nat × Text :=
  ((t.takeWhile CodePoint.isAsciiDigit).map (·.val - 0x30), t.dropWhile CodePoint.isAsciiDigit)

/-- A digit of any script as the ASCII digit of its value. -/
def plainDigit (c : CodePoint) : CodePoint :=
  match c.digitValue? with
  | some v => if h : v < 10 then ⟨0x30 + v, by omega⟩ else c
  | none => c

/-- The text without its underscores, each of which has to stand between two digits. -/
def dropUnderscores? (afterDigit : Bool) : Text → Option Text
  | [] => some []
  | c :: rest =>
    if c = '_' then
      if afterDigit && (rest.head?.map CodePoint.isAsciiDigit).getD false then
        dropUnderscores? false rest
      else none
    else (dropUnderscores? c.isAsciiDigit rest).map (c :: ·)

/-- An optional sign; is it a minus? -/
def scanSign : Text → Bool × Text
  | [] => (false, [])
  | c :: rest =>
    if c = '-' then (true, rest) else if c = '+' then (false, rest) else (false, c :: rest)

/-- The power of ten that ends a numeral: nothing, or `e`, an optional sign and digits. -/
def scanPower? : Text → Option Int
  | [] => some 0
  | c :: rest =>
    if c = 'e' ∨ c = 'E' then
      let (negative, rest) := scanSign rest
      match spanDigits rest with
      | ([], _) => none
      | (digits, []) =>
        let n : Int := ofDigits 10 digits
        some (if negative then -n else n)
      | (_, _ :: _) => none
    else none

/-- A numeral without its sign, in ASCII digits. -/
def scanUnsigned? (t : Text) : Option Decimal :=
  let (whole, rest) := spanDigits t
  let (fraction, rest) :=
    match rest with
    | c :: rest' => if c = '.' then spanDigits rest' else ([], rest)
    | [] => ([], [])
  if whole.isEmpty && fraction.isEmpty then none
  else (scanPower? rest).map fun power =>
    ⟨ofDigits 10 (whole ++ fraction), power - fraction.length⟩

def scan? (t : Text) : Option (Bool × Decimal) := do
  let t ← dropUnderscores? false (t.map plainDigit)
  let (negative, rest) := scanSign t
  let d ← scanUnsigned? rest
  return (negative, d)

end Decimal

/-! ### Integers -/

def integerDigitLimit : Nat := 4300

/-- The complaint about an integer with too many digits; their number is told where it is known. -/
def hugeIntegerMessage (digits : Option Nat) : Text :=
  "Exceeds the limit (4300 digits) for integer string conversion"
    ++ ((digits.map fun count => ": value has " ++ Text.ofNat count ++ " digits").getD [])
    ++ "; use sys.set_int_max_str_digits() to increase the limit"

namespace Integer

/-- White space that may stand around a number; the information separators may not. -/
def isPadding (c : CodePoint) : Bool := c.isBlank && !(0x1c ≤ c.val && c.val ≤ 0x1f)

def trim (t : Text) : Text := ((t.dropWhile isPadding).reverse.dropWhile isPadding).reverse

def scan? (t : Text) : Option Int := do
  let t ← Decimal.dropUnderscores? false ((trim t).map Decimal.plainDigit)
  let (negative, rest) := Decimal.scanSign t
  let (digits, after) := Decimal.spanDigits rest
  let n : Int := Decimal.ofDigits 10 digits
  if digits.isEmpty || !after.isEmpty || integerDigitLimit < digits.length then none
  else some (if negative then -n else n)

def isWritable (n : Int) : Bool := decide ((Text.ofNat n.natAbs).length ≤ integerDigitLimit)

end Integer
end NavDirections
