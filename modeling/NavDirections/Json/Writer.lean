import NavDirections.Json.Basic
import NavDirections.Number.Shortest
import NavDirections.Text.Quoted

/-!
# Writing JSON

Values on several lines, each level two blanks deeper; empty lists and objects stay on one.  All
text but control characters, quotes and backslashes is written as it is.
-/

namespace NavDirections.Json

def escapeOne (c : CodePoint) : Text :=
  if c = '"' then "\\\""
  else if c = '\\' then "\\\\"
  else if c = '\n' then "\\n"
  else if c = '\r' then "\\r"
  else if c = '\t' then "\\t"
  else if c = '\x0c' then "\\f"
  else if c = '\x08' then "\\b"
  else if c.val < 0x20 then "\\u" ++ hexDigits 4 c.val
  else [c]

def writeText (t : Text) : Text := ("\"" : Text) ++ t.flatMap escapeOne ++ "\""

/-- A floating-point number; the values that are no numbers have words of their own. -/
def writeFloat : Floating → Text
  | .undefined => "NaN"
  | .infinite false => "Infinity"
  | .infinite true => "-Infinity"
  | x => x.text

def newLine (level : Nat) : Text := '\n' :: List.replicate (2 * level) (CodePoint.ofChar ' ')

mutual

/-- A value whose lines after the first stand at `level`. -/
def writeAt (level : Nat) : Json → Text
  | null => "null"
  | bool b => if b then "true" else "false"
  | int n => Text.ofInt n
  | float x => writeFloat x
  | text t => writeText t
  | array [] => "[]"
  | array (item :: rest) =>
    "[" ++ newLine (level + 1) ++ writeAt (level + 1) item ++ writeItems (level + 1) rest
      ++ newLine level ++ "]"
  | object [] => "\x7b\x7d"
  | object ((key, value) :: rest) =>
    "\x7b" ++ newLine (level + 1) ++ writeText key ++ ": " ++ writeAt (level + 1) value
      ++ writeFields (level + 1) rest ++ newLine level ++ "\x7d"

/-- The items after the first one, each after a comma and a new line. -/
def writeItems (level : Nat) : List Json → Text
  | [] => []
  | item :: rest => "," ++ newLine level ++ writeAt level item ++ writeItems level rest

/-- The entries after the first one, each after a comma and a new line. -/
def writeFields (level : Nat) : List (Text × Json) → Text
  | [] => []
  | (key, value) :: rest =>
    "," ++ newLine level ++ writeText key ++ ": " ++ writeAt level value ++ writeFields level rest

end

def write (v : Json) : Text := writeAt 0 v

end NavDirections.Json
