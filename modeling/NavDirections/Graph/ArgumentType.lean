import NavDirections.Text.Blank
import NavDirections.Text.Quoted

/-!
# Argument types

The types that an action argument may have, as a navigation graph spells them: a tag, `[]` behind
it for an array, and the class for the tags that need one.
-/

namespace NavDirections

inductive TypeTag where
  | integer
  | long
  | float
  | boolean
  | string
  | reference
  | enumeration
  | parcelable
  | serializable
  /-- A tag that no graph document can name. -/
  | unlisted (name : Text)
deriving DecidableEq

namespace TypeTag

def all : List TypeTag :=
  [integer, long, float, boolean, string, reference, enumeration, parcelable, serializable]

/-- How a graph document spells a tag. -/
def spelling : TypeTag → Text
  | integer => "integer"
  | long => "long"
  | float => "float"
  | boolean => "boolean"
  | string => "string"
  | reference => "reference"
  | enumeration => "enum"
  | parcelable => "parcelable"
  | serializable => "serializable"
  | unlisted name => name

def ofSpelling? (name : Text) : Option TypeTag := all.find? (·.spelling == name)

/-- Values of these tags are objects of a class that the argument has to name. -/
def needsClass : TypeTag → Bool
  | enumeration | parcelable | serializable => true
  | _ => false

end TypeTag

structure ArgumentType where
  tag : TypeTag
  isArray : Bool
  className : Text
deriving DecidableEq

namespace ArgumentType

/-- The type as messages name it: its class or tag, with brackets for an array. -/
def displayName (t : ArgumentType) : Text :=
  let base := if t.tag.needsClass then t.className else t.tag.spelling
  if t.isArray then base ++ "[]" else base

def describe (t : ArgumentType) : Text :=
  "ArgumentType(tag=" ++ t.tag.spelling.quoted
    ++ ", is_array=" ++ (if t.isArray then ("True" : Text) else "False")
    ++ ", class_name=" ++ t.className.quoted ++ ")"

def spelling (t : ArgumentType) : Text :=
  if t.isArray then t.tag.spelling ++ "[]" else t.tag.spelling

/-- The type of a spelling and a class name; white space around the spelling does not count. -/
def ofSpelling? (spelling className : Text) : Option ArgumentType :=
  let name := spelling.strip
  match Text.dropEnd? "[]" name with
  | some tag => (TypeTag.ofSpelling? tag).map (⟨·, true, className⟩)
  | none => (TypeTag.ofSpelling? name).map (⟨·, false, className⟩)

end ArgumentType
end NavDirections
