import NavDirections.Graph.ArgumentType
import NavDirections.Json.Display
import NavDirections.Text.Lines

/-!
# Faults of a navigation graph

Every way in which a graph can be wrong is a `ModelFault`.  While a fault travels outwards from an
argument over its action to the destination, the parts of its location that are still unknown are
filled in.  A step that meets a value of a kind or size it cannot handle ends with a `KindFault`
instead, and so does one that would write a message about an integer with too many digits.
-/

namespace NavDirections

/-- Where in the graph a fault lies.  A destination or argument may bear a name that is no text. -/
structure Location where
  destination : Option Json
  action : Option Text
  argument : Option Json

namespace Location

def isWritable (l : Location) : Bool :=
  l.destination.all Json.isWritable && l.argument.all Json.isWritable

def unknown : Location := ⟨none, none, none⟩

def atDestination (name : Json) : Location := ⟨some name, none, none⟩

def atAction (name : Text) : Location := ⟨none, some name, none⟩

def atArgument (name : Json) : Location := ⟨none, none, some name⟩

/-- The location with what it leaves open taken from an enclosing one. -/
def within (inner outer : Location) : Location :=
  ⟨inner.destination <|> outer.destination, inner.action <|> outer.action,
    inner.argument <|> outer.argument⟩

def describe (l : Location) : Text :=
  Text.joinWith ", " <|
    (l.destination.map fun name => ("destination=" : Text) ++ name.plain).toList
      ++ (l.action.map fun name => ("action=" : Text) ++ name).toList
      ++ (l.argument.map fun name => ("argument=" : Text) ++ name.plain).toList

/-- A message with the location behind it, where anything is known. -/
def annotate (l : Location) (message : Text) : Text :=
  let place := l.describe
  if place.isEmpty then message else message ++ " (" ++ place ++ ")"

end Location

inductive DocumentPart where
  | graph
  | destination
  | destinationId
  | action
  | actionId
  | actionDestination
  | argument
deriving DecidableEq

def DocumentPart.title : DocumentPart → Text
  | graph => "Navigation graph"
  | destination => "Destination"
  | destinationId => "Destination id"
  | action => "Action"
  | actionId => "Action id"
  | actionDestination => "Action destination"
  | argument => "Argument"

inductive ModelFault where
  | emptyIdName
  | idWithoutPackage (name : Text)
  | emptyArgumentName
  | defaultNotText (value : Json)
  | duplicateArgument (name : Json)
  | notAnObject (part : DocumentPart) (value : Json)
  | missingEntry (part : DocumentPart) (key : Text)
  | noPackage (part : DocumentPart) (name : Json)
  | unsupportedDefault (value : Json)
  | destinationsNotAList
  | unknownType (spelling : Text)
  | unlistedType (type : ArgumentType)
  | classNeeded (tag : TypeTag)
  | classRefused (tag : TypeTag)
  | arrayRefused (tag : TypeTag)
  | invalidLiteral (value : Text) (type : ArgumentType)
  | outOfRange (value : Text) (type : ArgumentType)
  | referenceWithoutPackage (value : Text)
  | onlyNull (value : Text) (type : ArgumentType)
  | namelessDestination
  | duplicateAction

def ModelFault.message : ModelFault → Text
  | emptyIdName => "Id name must not be empty"
  | idWithoutPackage name => "Id '" ++ name ++ "' has no package"
  | emptyArgumentName => "Argument name must not be empty"
  | defaultNotText value => "Default value must be a string, got " ++ value.display
  | duplicateArgument name => "Duplicate argument name " ++ name.display
  | notAnObject part value => part.title ++ " must be a JSON object, got " ++ value.kindName
  | missingEntry part key => part.title ++ " is missing '" ++ key ++ "'"
  | noPackage part name =>
    part.title ++ " '" ++ name.plain ++ "' has no package and no application id was given"
  | unsupportedDefault value => "Unsupported default value " ++ value.display
  | destinationsNotAList => "'destinations' must be a list"
  | unknownType spelling => "Unsupported argument type: " ++ spelling.quoted
  | unlistedType type => "Unsupported argument type: " ++ type.describe
  | classNeeded tag => tag.spelling ++ " argument type needs a class name"
  | classRefused tag => tag.spelling ++ " argument type does not take a class name"
  | arrayRefused tag => "Arrays of " ++ tag.spelling ++ " are not supported"
  | invalidLiteral value type =>
    "Default value " ++ value.quoted ++ " is not a valid " ++ type.displayName ++ " literal"
  | outOfRange value type =>
    "Default value " ++ value.quoted ++ " is out of range for " ++ type.displayName
  | referenceWithoutPackage value =>
    "Reference " ++ value.quoted ++ " has no package and no application id was given"
  | onlyNull value type =>
    type.displayName ++ " arguments only accept @null as default, got " ++ value.quoted
  | namelessDestination => "Destination with actions should have either name or id"
  | duplicateAction => "Duplicate action id"

def ModelFault.isWritable : ModelFault → Bool
  | defaultNotText value | unsupportedDefault value => value.isWritable
  | duplicateArgument name | noPackage _ name => name.isWritable
  | _ => true

structure ModelError where
  fault : ModelFault
  location : Location

namespace ModelError

def message (e : ModelError) : Text := e.location.annotate e.fault.message

def within (outer : Location) (e : ModelError) : ModelError :=
  { e with location := e.location.within outer }

end ModelError

/-- A fault whose place is not known yet. -/
def ModelFault.unlocated (f : ModelFault) : ModelError := ⟨f, .unknown⟩

/-! ### Values of the wrong kind -/

/-- A step met a value of a kind or size that it cannot handle. -/
inductive KindFault where
  /-- An operation does not take values of that kind. -/
  | operand
  /-- Values of that kind do not have the operation asked of them. -/
  | member
  /-- A text would be too long. -/
  | size (f : SizeFault)
  /-- An integer has too many digits to be written. -/
  | hugeInteger
deriving DecidableEq

namespace Json

/-- The value as plain text, if it can be written. -/
def written (v : Json) : Except KindFault Text :=
  if v.isWritable then .ok v.plain else .error .hugeInteger

def shown (v : Json) : Except KindFault Text :=
  if v.isWritable then .ok v.display else .error .hugeInteger

theorem written_ok {v : Json} {t : Text} :
    v.written = .ok t ↔ v.isWritable = true ∧ t = v.plain := by
  unfold written
  split
  next h => simp [h, eq_comm]
  next h => simp [h]

end Json

def ModelError.written (e : ModelError) : Except KindFault Text :=
  if e.location.isWritable then .ok e.message else .error .hugeInteger

inductive GraphFault where
  | model (e : ModelError)
  | kind (k : KindFault)

/-- Why a part of a graph is refused, apart from where it lies. -/
inductive PartFault where
  | model (f : ModelFault)
  | kind (k : KindFault)

namespace PartFault

/-- The refusal for a model fault, the message of which is written at once. -/
def refuse (f : ModelFault) : PartFault :=
  if f.isWritable then model f else kind .hugeInteger

/-- The fault of a part at its place. -/
def located (l : Location) : PartFault → GraphFault
  | model f => .model ⟨f, l⟩
  | kind k => .kind k

def unlocated (f : PartFault) : GraphFault := f.located .unknown

end PartFault

def GraphFault.within (outer : Location) : GraphFault → GraphFault
  | model e => model (e.within outer)
  | kind k => kind k

end NavDirections
