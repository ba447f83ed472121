import NavDirections.Graph.Literal

/-!
# The catalog of argument types

For each tag the type of its fields and parameters, the operation that stores a value of it in the
container, and the form of its defaults.  Only types that pass `ArgumentType.check` have an entry.
-/

namespace NavDirections

def stringClass : ClassName := ⟨"java.lang", "String"⟩

namespace TypeTag

/-- The type of single values of a tag, except where the argument names a class. -/
def fieldType : TypeTag → TypeName
  | integer | reference => .plain "int"
  | long => .plain "long"
  | float => .plain "float"
  | boolean => .plain "boolean"
  | _ => .ofClass stringClass

def putOperation : TypeTag → Text
  | integer | reference => "putInt"
  | long => "putLong"
  | float => "putFloat"
  | boolean => "putBoolean"
  | parcelable => "putParcelable"
  | enumeration | serializable => "putSerializable"
  | string | unlisted _ => "putString"

/-- The operation that stores an array, for the tags that may have one. -/
def arrayPutOperation? : TypeTag → Option Text
  | integer => some "putIntArray"
  | long => some "putLongArray"
  | float => some "putFloatArray"
  | boolean => some "putBooleanArray"
  | string => some "putStringArray"
  | parcelable => some "putParcelableArray"
  | enumeration | serializable => some "putSerializable"
  | reference | unlisted _ => none

end TypeTag

namespace ArgumentType

/-- What keeps a type out of the catalog, if anything does. -/
def check (t : ArgumentType) : Except ModelFault Unit :=
  if !TypeTag.all.contains t.tag then .error (.unlistedType t)
  else if t.tag.needsClass && t.className.isEmpty then .error (.classNeeded t.tag)
  else if !t.tag.needsClass && !t.className.isEmpty then .error (.classRefused t.tag)
  else if t.isArray && t.tag.arrayPutOperation?.isNone then .error (.arrayRefused t.tag)
  else .ok ()

def representation (t : ArgumentType) : Except ModelFault TypeName := do
  t.check
  let base : TypeName :=
    if t.tag.needsClass then .ofClass (.bestGuess t.className) else t.tag.fieldType
  return if t.isArray then .array base else base

def putOperation (t : ArgumentType) : Except ModelFault Text := do
  t.check
  return if t.isArray then t.tag.arrayPutOperation?.getD t.tag.putOperation
    else t.tag.putOperation

/-- The literal of a default that is text, for a type of the catalog. -/
def literalOf (t : ArgumentType) (value applicationId : Text) : Except LiteralFault Text :=
  if t.isArray then Literal.onlyNull value t
  else match t.tag with
    | .integer => Literal.integral 32 value t
    | .long => Literal.long value t
    | .float => Literal.float value t
    | .boolean => Literal.boolean value t
    | .string => .ok (Literal.string value)
    | .reference => Literal.reference value t applicationId
    | .enumeration => Literal.enumeration value t
    | .parcelable | .serializable | .unlisted _ => Literal.onlyNull value t

def literal (t : ArgumentType) (value : Json) (applicationId : Text) :
    Except LiteralFault Text :=
  match t.check, value with
  | .error f, _ => .error (.model f)
  | .ok (), .text value => t.literalOf value applicationId
  | .ok (), value =>
    match PartFault.refuse (.defaultNotText value) with
    | .model f => .error (.model f)
    | .kind k => .error (.kind k)

end ArgumentType

/-- The tags for which a catalog with the rows `present` has none. -/
def missingRows (present : List TypeTag) : List TypeTag :=
  TypeTag.all.filter fun tag => !present.contains tag

def missingRowsMessage (missing : List TypeTag) : Text :=
  "Type catalog has no entry for: " ++ Text.joinWith ", " (missing.map (·.spelling))

end NavDirections
