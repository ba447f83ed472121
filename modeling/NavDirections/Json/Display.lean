import NavDirections.Json.Basic
import NavDirections.Number.Decimal
import NavDirections.Number.Shortest
import NavDirections.Text.Quoted

/-!
# Values in messages

How a message shows a JSON value: text in quotes, lists in brackets, objects in braces in the order
of their entries.  A value that is only text stands for itself where no quotes are wanted.  No text
shows a value that holds an integer with too many digits.
-/

namespace NavDirections.Json

mutual

/-- A value as a message shows it, text in quotes. -/
def display : Json → Text
  | null => "None"
  | bool b => if b then "True" else "False"
  | int n => Text.ofInt n
  | float x => x.text
  | text t => t.quoted
  | array items => "[" ++ Text.joinWith ", " (displayItems items) ++ "]"
  | object fields => "\x7b" ++ Text.joinWith ", " (displayFields fields) ++ "\x7d"

def displayItems : List Json → List Text
  | [] => []
  | item :: rest => display item :: displayItems rest

def displayFields : List (Text × Json) → List Text
  | [] => []
  | (key, value) :: rest => (key.quoted ++ ": " ++ display value) :: displayFields rest

end

/-- The value as plain text: text as it is, anything else as a message shows it. -/
def plain : Json → Text
  | text t => t
  | v => v.display

mutual

/-- Have all integers in the value few enough digits to be written? -/
def isWritable : Json → Bool
  | int n => Integer.isWritable n
  | array items => areWritable items
  | object fields => areWritableFields fields
  | _ => true

def areWritable : List Json → Bool
  | [] => true
  | item :: rest => isWritable item && areWritable rest

def areWritableFields : List (Text × Json) → Bool
  | [] => true
  | (_, value) :: rest => isWritable value && areWritableFields rest

end

end NavDirections.Json
