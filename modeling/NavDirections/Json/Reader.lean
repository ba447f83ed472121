import NavDirections.Json.Basic
import NavDirections.Number.Decimal
import NavDirections.Text.Utf8

/-!
# Reading JSON

A recursive descent over the code points.  Beyond the standard the reader takes `NaN`, `Infinity`
and `-Infinity`, lets the last of several equal keys win, keeps surrogates that stand alone, and
refuses integers of more than 4300 digits and values nested too deep.  A fault records how much of the
text was left at the place it names, so that its position follows from the length of the whole.

How deep is too deep depends on the calls that the reader is under, so the limit is a parameter.  It
is the only limit of that kind here: other walks, over destinations inside each other, over the values
of settings that are saved and over the parents of a directory, are taken to go as deep as they have
to.
-/

namespace NavDirections

inductive JsonProblem where
  | byteOrderMark
  | expectedValue
  | expectedKey
  | expectedColon
  | expectedComma
  | extraData
  | unterminatedText
  | controlCharacter
  | badEscape
  | badUnicodeEscape
deriving DecidableEq

/-- Why a text is not read: a problem with so much text left, an integer with too many digits, or
too many lists and objects inside each other. -/
inductive ReadFault where
  | malformed (problem : JsonProblem) (left : Nat)
  | hugeInteger (digits : Nat)
  | tooDeep
deriving DecidableEq

namespace JsonProblem

def message : JsonProblem → Text
  | byteOrderMark => "Unexpected UTF-8 BOM (decode using utf-8-sig)"
  | expectedValue => "Expecting value"
  | expectedKey => "Expecting property name enclosed in double quotes"
  | expectedColon => "Expecting ':' delimiter"
  | expectedComma => "Expecting ',' delimiter"
  | extraData => "Extra data"
  | unterminatedText => "Unterminated string starting at"
  | controlCharacter => "Invalid control character at"
  | badEscape => "Invalid \\escape"
  | badUnicodeEscape => "Invalid \\uXXXX escape"

end JsonProblem

/-- A problem with its place: line and column counted from one, and the number of code points
before it. -/
structure JsonSyntaxError where
  problem : JsonProblem
  line : Nat
  column : Nat
  position : Nat
deriving DecidableEq

namespace JsonSyntaxError

/-- A problem after `position` code points of a document. -/
def inDocument (document : Text) (problem : JsonProblem) (position : Nat) : JsonSyntaxError :=
  let before := document.take position
  let column := match Text.cutLast? '\n' before with
    | some (_, line) => line.length + 1
    | none => position + 1
  ⟨problem, before.count (CodePoint.ofChar '\n') + 1, column, position⟩

def message (e : JsonSyntaxError) : Text :=
  e.problem.message ++ ": line " ++ Text.ofNat e.line ++ " column " ++ Text.ofNat e.column
    ++ " (char " ++ Text.ofNat e.position ++ ")"

end JsonSyntaxError

namespace Json

def failAt {α : Type} (problem : JsonProblem) (rest : Text) : Except ReadFault α :=
  .error (.malformed problem rest.length)

/-- The four blanks that may stand between tokens. -/
def isSpace (c : CodePoint) : Bool := c == ' ' || c == '\t' || c == '\n' || c == '\r'

def skipSpace (t : Text) : Text := t.dropWhile isSpace

def escapeValue? (c : CodePoint) : Option CodePoint :=
  if c = '"' then some '"'
  else if c = '\\' then some '\\'
  else if c = '/' then some '/'
  else if c = 'b' then some '\x08'
  else if c = 'f' then some '\x0c'
  else if c = 'n' then some '\n'
  else if c = 'r' then some '\r'
  else if c = 't' then some '\t'
  else none

def codeUnit? (a b c d : CodePoint) : Option CodePoint := do
  let w ← a.hexValue?
  let x ← b.hexValue?
  let y ← c.hexValue?
  let z ← d.hexValue?
  let n := ((w * 16 + x) * 16 + y) * 16 + z
  if h : n < 0x110000 then some ⟨n, h⟩ else none

def joinSurrogates? (high low : CodePoint) : Option CodePoint :=
  if 0xd800 ≤ high.val ∧ high.val < 0xdc00 ∧ 0xdc00 ≤ low.val ∧ low.val < 0xe000 then
    let n := 0x10000 + (high.val - 0xd800) * 0x400 + (low.val - 0xdc00)
    if h : n < 0x110000 then some ⟨n, h⟩ else none
  else none

/-- The unit of an escape of the form `\uXXXX` and the text after it; `t` is the text from the
letter on, and at least one more code point has to follow the digits. -/
def readUnit (t : Text) : Except ReadFault (CodePoint × Text) :=
  match t with
  | _ :: w :: x :: y :: z :: next :: more =>
    match codeUnit? w x y z with
    | some unit => .ok (unit, next :: more)
    | none => failAt .badUnicodeEscape t
  | _ => failAt .badUnicodeEscape t

/-- The rest from the letter on, where an escape `\uXXXX` follows that ends before the text does. -/
def unitAhead? (t : Text) : Option Text :=
  match t with
  | s :: u :: rest => if s = '\\' ∧ u = 'u' ∧ 5 ≤ rest.length then some (u :: rest) else none
  | _ => none

/-- The code point of an escape and the text after it; `t` is the text after the backslash.  Two
units that form a surrogate pair are one code point. -/
def readEscape (t : Text) : Except ReadFault (CodePoint × Text) :=
  match t with
  | [] => failAt .badEscape t
  | e :: rest =>
    if e = 'u' then do
      let (unit, after) ← readUnit t
      if 0xd800 ≤ unit.val && unit.val < 0xdc00 then
        match unitAhead? after with
        | none => .ok (unit, after)
        | some fromLetter => do
          let (unit', after') ← readUnit fromLetter
          match joinSurrogates? unit unit' with
          | some joined => .ok (joined, after')
          | none => .ok (unit, after)
      else .ok (unit, after)
    else
      match escapeValue? e with
      | some value => .ok (value, rest)
      | none => .error (.malformed .badEscape (t.length + 1))

theorem readUnit_shorter {t after : Text} {unit : CodePoint}
    (h : readUnit t = .ok (unit, after)) : after.length < t.length := by
  unfold readUnit at h
  split at h
  · split at h
    · simp only [Except.ok.injEq, Prod.mk.injEq] at h
      obtain ⟨-, rfl⟩ := h
      simp only [List.length_cons]
      omega
    · simp [failAt] at h
  · simp [failAt] at h

theorem unitAhead?_length {t fromLetter : Text} (h : unitAhead? t = some fromLetter) :
    fromLetter.length < t.length := by
  unfold unitAhead? at h
  split at h
  · split at h
    · simp only [Option.some.injEq] at h
      subst h
      simp
    · simp at h
  · simp at h

theorem readEscape_shorter {t after : Text} {c : CodePoint}
    (h : readEscape t = .ok (c, after)) : after.length < t.length := by
  unfold readEscape at h
  split at h
  · simp [failAt] at h
  next e rest =>
    split at h
    · cases hu : readUnit (e :: rest) with
      | error f => simp [hu, bind, Except.bind] at h
      | ok found =>
        obtain ⟨unit, afterUnit⟩ := found
        have shorter := readUnit_shorter hu
        simp only [hu, bind, Except.bind] at h
        split at h
        · split at h
          · simp only [Except.ok.injEq, Prod.mk.injEq] at h
            obtain ⟨-, rfl⟩ := h
            exact shorter
          next fromLetter ahead =>
            have ahead := unitAhead?_length ahead
            cases hu' : readUnit fromLetter with
            | error f => simp [hu'] at h
            | ok found' =>
              obtain ⟨unit', after'⟩ := found'
              have shorter' := readUnit_shorter hu'
              simp only [hu'] at h
              split at h <;> simp only [Except.ok.injEq, Prod.mk.injEq] at h <;>
                obtain ⟨-, rfl⟩ := h <;> omega
        · simp only [Except.ok.injEq, Prod.mk.injEq] at h
          obtain ⟨-, rfl⟩ := h
          exact shorter
    · split at h
      · simp only [Except.ok.injEq, Prod.mk.injEq] at h
        obtain ⟨-, rfl⟩ := h
        simp
      · simp at h

/-- The text up to the closing quote; `start` is the text from the opening quote on. -/
def readText (start : Text) (t : Text) : Except ReadFault (Text × Text) :=
  match t with
  | [] => failAt .unterminatedText start
  | c :: rest =>
    if c = '"' then .ok ([], rest)
    else if c = '\\' then
      if rest = [] then failAt .unterminatedText start
      else
        match h : readEscape rest with
        | .error fault => .error fault
        | .ok (value, after) => do
          have := readEscape_shorter h
          let (found, after) ← readText start after
          .ok (value :: found, after)
    else if c.val < 0x20 then failAt .controlCharacter t
    else do
      let (found, after) ← readText start rest
      .ok (c :: found, after)
termination_by t.length

/-- The digits of a fraction: a point and at least one digit. -/
def readFraction (t : Text) : Option (List Nat × Text) :=
  match t with
  | c :: rest =>
    if c = '.' then
      match Decimal.spanDigits rest with
      | ([], _) => none
      | found => some found
    else none
  | [] => none

/-- The power of ten that a numeral ends with: `e`, an optional sign and at least one digit. -/
def readPower (t : Text) : Option (Int × Text) :=
  match t with
  | c :: rest =>
    if c = 'e' ∨ c = 'E' then
      let (negative, rest) := Decimal.scanSign rest
      match Decimal.spanDigits rest with
      | ([], _) => none
      | (digits, rest) =>
        let n : Int := Decimal.ofDigits 10 digits
        some (if negative then -n else n, rest)
    else none
  | [] => none

/-- The digits of the whole part: a single zero, or digits that begin with another one. -/
def readWhole (t : Text) : Option (List Nat × Text) :=
  match t with
  | c :: rest =>
    if c = '0' then some ([0], rest)
    else
      match Decimal.spanDigits t with
      | ([], _) => none
      | found => some found
  | [] => none

def readUnsigned (negative : Bool) (t : Text) : Option (Except ReadFault (Json × Text)) :=
  (readWhole t).map fun (whole, rest) =>
    match readFraction rest, readPower rest with
    | none, none =>
      if integerDigitLimit < whole.length then .error (.hugeInteger whole.length)
      else
        let n : Int := Decimal.ofDigits 10 whole
        .ok (int (if negative then -n else n), rest)
    | none, some (power, rest) =>
      .ok (float (.ofDecimal negative ⟨Decimal.ofDigits 10 whole, power⟩), rest)
    | some (fraction, rest), _ =>
      let digits := Decimal.ofDigits 10 (whole ++ fraction)
      match readPower rest with
      | none => .ok (float (.ofDecimal negative ⟨digits, -fraction.length⟩), rest)
      | some (power, rest) =>
        .ok (float (.ofDecimal negative ⟨digits, power - fraction.length⟩), rest)

def readNumber (t : Text) : Option (Except ReadFault (Json × Text)) :=
  match t with
  | c :: rest =>
    if c = '-' then
      match Text.dropStart? "Infinity" rest with
      | some after => some (.ok (float (.infinite true), after))
      | none => readUnsigned true rest
    else readUnsigned false t
  | [] => none

def keywords : List (Text × Json) :=
  [("null", null), ("true", bool true), ("false", bool false), ("NaN", float .undefined),
   ("Infinity", float (.infinite false))]

def readScalar (t : Text) : Except ReadFault (Json × Text) :=
  match keywords.findSome? fun (word, value) => (Text.dropStart? word t).map (value, ·) with
  | some found => .ok found
  | none =>
    match readNumber t with
    | some result => result
    | none => failAt .expectedValue t

mutual

/-- The value that a text begins with, nested at most `levels` deep. -/
def readValue : (fuel levels : Nat) → Text → Except ReadFault (Json × Text)
  | 0, _, t => failAt .expectedValue t
  | fuel + 1, levels, t =>
    match t with
    | [] => failAt .expectedValue t
    | c :: rest =>
      if c = '"' then do
        let (found, after) ← readText t rest
        .ok (text found, after)
      else if c = '{' then
        if levels = 0 then .error .tooDeep
        else match skipSpace rest with
          | d :: after =>
            if d = '}' then .ok (object [], after)
            else do
              let (fields, after) ← readFields fuel (levels - 1) [] (d :: after)
              .ok (object fields, after)
          | [] => failAt .expectedKey []
      else if c = '[' then
        if levels = 0 then .error .tooDeep
        else match skipSpace rest with
          | d :: after =>
            if d = ']' then .ok (array [], after)
            else do
              let (items, after) ← readItems fuel (levels - 1) (d :: after)
              .ok (array items, after)
          | [] => failAt .expectedValue []
      else readScalar t

/-- The items of a list, from the first one to the closing bracket. -/
def readItems : (fuel levels : Nat) → Text → Except ReadFault (List Json × Text)
  | 0, _, t => failAt .expectedValue t
  | fuel + 1, levels, t => do
    let (item, after) ← readValue fuel levels t
    match skipSpace after with
    | c :: after =>
      if c = ']' then .ok ([item], after)
      else if c = ',' then do
        let (items, after) ← readItems fuel levels (skipSpace after)
        .ok (item :: items, after)
      else failAt .expectedComma (c :: after)
    | [] => failAt .expectedComma []

/-- The entries of an object, from the first key to the closing brace, put over `fields`. -/
def readFields : (fuel levels : Nat) → (fields : List (Text × Json)) → Text →
    Except ReadFault (List (Text × Json) × Text)
  | 0, _, _, t => failAt .expectedKey t
  | fuel + 1, levels, fields, t =>
    match t with
    | [] => failAt .expectedKey t
    | c :: rest =>
      if c = '"' then do
        let (key, after) ← readText t rest
        match skipSpace after with
        | [] => failAt .expectedColon []
        | d :: after =>
          if d = ':' then do
            let (value, after) ← readValue fuel levels (skipSpace after)
            let fields := insert key value fields
            match skipSpace after with
            | c :: after =>
              if c = '}' then .ok (fields, after)
              else if c = ',' then readFields fuel levels fields (skipSpace after)
              else failAt .expectedComma (c :: after)
            | [] => failAt .expectedComma []
          else failAt .expectedColon (d :: after)
      else failAt .expectedKey t

end

/-! ### Documents -/

inductive DocumentFault where
  | syntaxError (e : JsonSyntaxError)
  | hugeInteger (digits : Nat)
  | tooDeep
deriving DecidableEq

def DocumentFault.ofRead (document : Text) : ReadFault → DocumentFault
  | .malformed problem left =>
    .syntaxError (.inDocument document problem (document.length - left))
  | .hugeInteger digits => .hugeInteger digits
  | .tooDeep => .tooDeep

/-- The value that a text begins with after its blanks, where nothing but blanks follows it.  Lists
and objects may be nested up to `depth`.  A call of the reader takes at least one code point from
the text or is the only one at its place, so twice the length bounds the depth of the calls. -/
def readWholeText (depth : Nat) (document : Text) : Except ReadFault Json := do
  let (value, rest) ← readValue (2 * document.length + 2) depth (skipSpace document)
  match skipSpace rest with
  | [] => .ok value
  | more => failAt .extraData more

def parse (depth : Nat) (document : Text) : Except DocumentFault Json :=
  if document.head?.any (·.val == 0xfeff) then
    .error (.syntaxError (.inDocument document .byteOrderMark 0))
  else (readWholeText depth document).mapError (DocumentFault.ofRead document)

end Json
end NavDirections
