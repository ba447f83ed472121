import NavDirections.Declaration.Statement
import NavDirections.Graph.Fault
import NavDirections.Graph.Naming
import NavDirections.Json.Reader
import NavDirections.Number.Shortest

/-!
# Default values as literals

Turns the default of an argument into an expression of the generated code.  Each type has its own
form of default; a text that does not have it, or a number out of range, is a model fault.
-/

namespace NavDirections

/-- Why a default has no literal: a model fault, more digits than an integer may have, or a value that
no message can show. -/
inductive LiteralFault where
  | model (f : ModelFault)
  | hugeInteger (digits : Nat)
  | kind (k : KindFault)

/-- The text that stands for the null reference in a graph. -/
def nullText : Text := "@null"

namespace Literal

abbrev Result := Except LiteralFault Text

def invalid (value : Text) (type : ArgumentType) : Result :=
  .error (.model (.invalidLiteral value type))

def outOfRange (value : Text) (type : ArgumentType) : Result :=
  .error (.model (.outOfRange value type))

structure Numeral where
  negative : Bool
  isHex : Bool
  digits : List Nat

def digitValues? (digit? : CodePoint → Option Nat) (t : Text) : Option (List Nat) :=
  if t.isEmpty then none else t.mapM digit?

def decimalValue? (c : CodePoint) : Option Nat :=
  if c.isAsciiDigit then some (c.val - 0x30) else none

/-- The digits of a numeral behind its sign: hexadecimal ones after `0x`, else decimal ones. -/
def scanUnsigned? (negative : Bool) (t : Text) : Option Numeral :=
  let decimal := (digitValues? decimalValue? t).map (⟨negative, false, ·⟩)
  match t with
  | z :: x :: digits =>
    if z = '0' ∧ (x = 'x' ∨ x = 'X') then
      (digitValues? CodePoint.hexValue? digits).map (⟨negative, true, ·⟩)
    else decimal
  | _ => decimal

/-- The numeral that a text is; one line feed at its end is passed over. -/
def Numeral.scan? (value : Text) : Option Numeral :=
  match value.dropFinalLineFeed with
  | c :: rest => if c = '-' then scanUnsigned? true rest else scanUnsigned? false (c :: rest)
  | [] => none

namespace Numeral

def magnitude (n : Numeral) : Nat := Decimal.ofDigits (if n.isHex then 16 else 10) n.digits

/-- The largest magnitude of a numeral for a width: hexadecimal ones without a sign may use all
bits, and negative ones reach one further than positive ones. -/
def limit (n : Numeral) (bits : Nat) : Nat :=
  if n.negative then Nat.pow 2 (bits - 1)
  else if n.isHex then Nat.pow 2 bits - 1
  else Nat.pow 2 (bits - 1) - 1

/-- The decimal form with no leading zero; zero has no sign. -/
def decimalText (n : Numeral) : Text :=
  Text.ofInt (if n.negative then -n.magnitude else n.magnitude)

end Numeral

def integral (bits : Nat) (value : Text) (type : ArgumentType) : Result :=
  match Numeral.scan? value with
  | none => invalid value type
  | some n =>
    if !n.isHex && integerDigitLimit < n.digits.length then .error (.hugeInteger n.digits.length)
    else if n.limit bits < n.magnitude then outOfRange value type
    else .ok (if n.isHex then value else n.decimalText)

/-- The text without its last code point, where that is one of two letters. -/
def dropSuffix (small capital : CodePoint) (t : Text) : Text :=
  match t.getLast? with
  | some c => if c = small ∨ c = capital then t.dropLast else t
  | none => t

/-- A long integer, with or without an `L` at its end. -/
def long (value : Text) (type : ArgumentType) : Result :=
  (integral 64 (dropSuffix 'l' 'L' value) type).map (· ++ "L")

/-- Does a double stay finite in single precision, and apart from zero unless it is zero? -/
def fitsSingle (x : Dyadic) : Bool :=
  match binary32.round? x.ratio.1 x.ratio.2 with
  | some y => x.mantissa == 0 || y.mantissa != 0
  | none => false

def float (value : Text) (type : ArgumentType) : Result :=
  match Decimal.scan? (dropSuffix 'f' 'F' value) with
  | none => invalid value type
  | some (negative, d) =>
    match Floating.ofDecimal negative d with
    | .finite negative x =>
      if fitsSingle x then .ok ((Floating.finite negative x).text ++ "F")
      else outOfRange value type
    | _ => invalid value type

def boolean (value : Text) (type : ArgumentType) : Result :=
  if value = ("true" : Text) ∨ value = ("false" : Text) then .ok value else invalid value type

def string (value : Text) : Text :=
  if value = nullText then "null" else StringLiteral.encode value

/-- A reference to a resource: an optional package, the type of the resource and its name. -/
structure Reference where
  package : Option Text
  type : Text
  name : Text

/-- A letter or underscore, as packages and resource names begin. -/
def startsWord (c : CodePoint) : Bool := c.isAsciiLetter || c == '_'

/-- A small ASCII letter or underscore, of which resource types consist. -/
def isTypeLetter (c : CodePoint) : Bool := (0x61 ≤ c.val && c.val ≤ 0x7a) || c == '_'

/-- The type and name of a reference, around its slash. -/
def scanTypeAndName? (package : Option Text) (t : Text) : Option Reference :=
  match t.cutFirst? '/' with
  | some (type, name) =>
    if type.hasShape isTypeLetter isTypeLetter && name.hasShape startsWord CodePoint.isWord then
      some ⟨package, type, name⟩
    else none
  | none => none

/-- The reference that a text is; one line feed at its end is passed over. -/
def Reference.scan? (value : Text) : Option Reference :=
  match value.dropFinalLineFeed with
  | [] => none
  | c :: rest =>
    if c = '@' then
      match Text.cutFirst? ':' rest with
      | some (package, rest) =>
        if Text.hasShape startsWord (fun c => c.isWord || c == '.') package then
          scanTypeAndName? (some package) rest
        else none
      | none => scanTypeAndName? none rest
    else none

def reference (value : Text) (type : ArgumentType) (applicationId : Text) : Result :=
  if value = ("0" : Text) then .ok "0"
  else match Reference.scan? value with
    | none => invalid value type
    | some r =>
      let package := r.package.getD applicationId
      if package.isEmpty then .error (.model (.referenceWithoutPackage value))
      else .ok (package ++ ".R." ++ r.type ++ "." ++ r.name)

def enumeration (value : Text) (type : ArgumentType) : Result :=
  if value = nullText then .ok "null"
  else if value.isIdentifierLike then .ok (type.className ++ "." ++ value)
  else invalid value type

def onlyNull (value : Text) (type : ArgumentType) : Result :=
  if value = nullText then .ok "null" else .error (.model (.onlyNull value type))

end Literal
end NavDirections
