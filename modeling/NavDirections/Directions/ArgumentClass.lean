import NavDirections.Directions.Fault
import NavDirections.Graph.Catalog

/-!
# Classes that hold arguments

For a list of arguments the class has one field each, a constructor for the required ones, a setter
for each optional one, and a method that puts all of them into a container.  Types and defaults are
resolved first; a name that is no text gets in the way only where a member is built with it.
-/

namespace NavDirections

/-- An argument with its name as given, its type, the operation that stores it, and the literal of
its default. -/
structure HeldArgument where
  given : Json
  type : TypeName
  putOperation : Text
  initializer : Option Text

namespace HeldArgument

/-- The name in the members of the class. -/
def name (a : HeldArgument) : Text := a.given.plain

def isRequired (a : HeldArgument) : Bool := a.initializer.isNone

def parameter (a : HeldArgument) : Parameter := ⟨a.name, a.type⟩

/-- The field of the argument; a required one is final, an optional one starts with its default. -/
def field (a : HeldArgument) : Field :=
  let modifiers := if a.isRequired then [.privateAccess, .final] else [.privateAccess]
  ⟨a.name, a.type, Modifier.arrange modifiers, a.initializer⟩

def assignment (a : HeldArgument) : Statement :=
  ⟨"this.$N = $N", [.text a.name, .text a.name]⟩

/-- The method that sets an optional argument and returns the object of `owner`. -/
def setter (owner : ClassName) (a : HeldArgument) : Method :=
  { name := setterName a.name
    modifiers := [.publicAccess]
    parameters := [a.parameter]
    returns := some (.ofClass owner)
    statements := [a.assignment, ⟨"return this", []⟩]
    isConstructor := false }

/-- Puts the argument into the container of a variable under its own name. -/
def put (container : Text) (a : HeldArgument) : Statement :=
  ⟨"$N.$N($S, $N)", [.text container, .text a.putOperation, .text a.name, .text a.name]⟩

end HeldArgument

/-- The type and default of an argument, checked against the catalog.  Its name has to be one that
can be told apart from others. -/
def ActionArgument.hold (applicationId : Text) (a : ActionArgument) :
    Except DirectionsFault HeldArgument :=
  let located (f : ModelFault) : DirectionsFault := .model ⟨f, .atArgument a.name⟩
  do
    let type ← a.type.representation.mapError located
    let putOperation ← a.type.putOperation.mapError located
    if !a.name.isScalar then .error (.kind .operand) else
    let initializer ← match a.default with
      | none => .ok none
      | some value =>
        ((a.type.literal (.text value) applicationId).map some).mapError fun
          | .model f => located f
          | .hugeInteger digits => .breakdown (.hugeInteger digits)
          | .kind k => .kind k
    .ok ⟨a.name, type, putOperation, initializer⟩

def containerVariable : Text := "__outBundle"

abbrev ArgumentList := List HeldArgument

namespace ArgumentList

def required (args : ArgumentList) : List HeldArgument := args.filter (·.isRequired)

def optional (args : ArgumentList) : List HeldArgument := args.filter (!·.isRequired)

def fields (args : ArgumentList) : List Field := args.map HeldArgument.field

/-- Takes the required arguments and assigns them. -/
def constructorOf (args : ArgumentList) (className : Text) : Method :=
  { name := className
    modifiers := [.publicAccess]
    parameters := (required args).map (·.parameter)
    returns := none
    statements := (required args).map (·.assignment)
    isConstructor := true }

def setters (args : ArgumentList) (owner : ClassName) : List Method :=
  (optional args).map (·.setter owner)

def containerMethod (args : ArgumentList) (container : ClassName) : Method :=
  let type : TypeName := .ofClass container
  { name := "getArguments"
    modifiers := [.publicAccess]
    parameters := []
    returns := some type
    statements :=
      [⟨"$T $N = new $T()", [.type type, .text containerVariable, .type type]⟩]
        ++ args.map (·.put containerVariable)
        ++ [⟨"return $N", [.text containerVariable]⟩]
    isConstructor := false }

/-- A method whose statements name some of the arguments, if their names can be written. -/
def build (named : List HeldArgument) (m : Method) : Except Breakdown Method := do
  let _ ← (named.mapM fun a : HeldArgument => a.given.written).mapError .kind
  m.checked.mapError .statement

def buildConstructor (args : ArgumentList) (className : Text) : Except Breakdown Method :=
  build (required args) (args.constructorOf className)

/-- The setter of an optional argument is named after it, so that its name has to be text. -/
def buildSetter (owner : ClassName) (a : HeldArgument) : Except Breakdown Method :=
  if a.given.text?.isNone then .error (.kind .operand) else build [a] (a.setter owner)

def buildSetters (args : ArgumentList) (owner : ClassName) : Except Breakdown (List Method) :=
  (optional args).mapM (buildSetter owner)

def buildContainerMethod (args : ArgumentList) (container : ClassName) : Except Breakdown Method :=
  build args (args.containerMethod container)

end ArgumentList

/-- The arguments of a class, which have different names. -/
def holdArguments (applicationId : Text) (args : List ActionArgument) :
    Except DirectionsFault ArgumentList :=
  args.mapM (·.hold applicationId)

/-- The last argument of a name. -/
def lastNamed? (name : Json) (args : ArgumentList) : Option HeldArgument :=
  args.reverse.find? (·.given.sameScalar name)

/-- Lets the last type of a name count for all arguments of that name, and the last default for all
of them that have one. -/
def settleNames (args : ArgumentList) : ArgumentList :=
  args.map fun a =>
    { a with
      type := ((lastNamed? a.given args).map (·.type)).getD a.type
      initializer :=
        if a.isRequired then none
        else (lastNamed? a.given (ArgumentList.optional args)).bind (·.initializer) }

/-- The arguments of a class, where names may be repeated. -/
def holdRepeated (applicationId : Text) (args : List ActionArgument) :
    Except DirectionsFault ArgumentList :=
  (holdArguments applicationId args).map settleNames

end NavDirections
