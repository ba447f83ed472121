import NavDirections.Directions.ArgumentClass

/-!
# Directions classes

A destination with actions gets a class that holds its directions: for each action a nested class
with the arguments, and a factory method named after the action.
-/

namespace NavDirections

structure HostClasses where
  navDirections : ClassName
  navOptions : ClassName
  container : ClassName

/-- The classes of a navigation package, with the container under its full name. -/
def HostClasses.of (navigationPackage containerClass : Text) : HostClasses :=
  ⟨⟨navigationPackage, "NavDirections"⟩, ⟨navigationPackage, "NavOptions"⟩,
    .bestGuess containerClass⟩

def destinationIdMethod (destination : Option ResourceId) : Method :=
  { name := "getDestinationId"
    modifiers := [.publicAccess]
    parameters := []
    returns := some (.plain "int")
    statements := [⟨"return $L", [.text (idAccessor destination)]⟩]
    isConstructor := false }

def optionsMethod (options : ClassName) : Method :=
  { name := "getOptions"
    modifiers := [.publicAccess]
    parameters := []
    returns := some (.ofClass options)
    statements := [⟨"return null", []⟩]
    isConstructor := false }

/-- The class of an action with its fields, constructor, setters and container method. -/
def Action.classWith (a : Action) (host : HostClasses) (fields : List Field) (constructor : Method)
    (setters : List Method) (containerMethod : Method) : ClassDecl :=
  { name := actionClassName a.id
    modifiers := [.publicAccess, .static]
    superinterfaces := [.ofClass host.navDirections]
    fields
    methods :=
      [constructor] ++ setters
        ++ [containerMethod, destinationIdMethod a.destination, optionsMethod host.navOptions]
    types := [] }

def Action.classOf (a : Action) (host : HostClasses) (args : ArgumentList) : ClassDecl :=
  let name := actionClassName a.id
  a.classWith host args.fields (args.constructorOf name) (args.setters ⟨[], name⟩)
    (args.containerMethod host.container)

def Action.buildClass (a : Action) (host : HostClasses) (args : ArgumentList) :
    Except Breakdown ClassDecl := do
  let name := actionClassName a.id
  let constructor ← args.buildConstructor name
  let setters ← args.buildSetters ⟨[], name⟩
  let containerMethod ← args.buildContainerMethod host.container
  .ok (a.classWith host args.fields constructor setters containerMethod)

def Action.directionsClass (a : Action) (applicationId : Text) (host : HostClasses) :
    Except DirectionsFault ClassDecl :=
  Except.mapError (.within (.atAction a.id.name)) do
    let args ← holdArguments applicationId a.args
    (a.buildClass host args).mapError .breakdown

def factory (a : Action) (nested : ClassDecl) : Method :=
  let parameters := (nested.constructor?.map (·.parameters)).getD []
  let type : TypeName := .ofClass ⟨[], nested.name⟩
  { name := a.id.name
    modifiers := [.publicAccess, .static]
    parameters
    returns := some type
    statements :=
      [⟨"return new $T($L)",
        [.type type, .text (Text.joinWith ", " (parameters.map (·.name)))]⟩]
    isConstructor := false }

/-- The first id name that occurs before it or among `seen`. -/
def firstRepeated? (seen : List Text) : List Text → Option Text
  | [] => none
  | name :: rest => if seen.contains name then some name else firstRepeated? (name :: seen) rest

/-- Has a required argument of the action a name that is no text?  Then its factory cannot pass
it on. -/
def Action.hasUnnamedRequired (a : Action) : Bool :=
  a.args.any fun x => !x.isOptional && x.name.text?.isNone

def Destination.holder (d : Destination) (name : Text) (applicationId : Text)
    (host : HostClasses) : Except DirectionsFault ClassDecl :=
  match firstRepeated? [] (d.actions.map (·.id.name)) with
  | some repeated => .error (.model ⟨.duplicateAction, .atAction repeated⟩)
  | none => do
    let types ← d.actions.mapM (·.directionsClass applicationId host)
    if d.actions.any (·.hasUnnamedRequired) then .error (.kind .operand)
    else
      .ok
        { name
          modifiers := [.publicAccess]
          superinterfaces := []
          fields := []
          methods := (d.actions.zip types).map fun (a, nested) => factory a nested
          types }

def Destination.className (d : Destination) (applicationId : Text) :
    Except DirectionsFault ClassName :=
  (directionsClassName d applicationId).mapError fun
    | .nameless => .model (ModelFault.unlocated .namelessDestination)
    | .notText => .kind .member

def Destination.directionsFile (d : Destination) (applicationId : Text) (host : HostClasses) :
    Except DirectionsFault DirectionsFile :=
  Except.mapError (.within (.atDestination d.label)) do
    let className ← d.className applicationId
    let decl ← d.holder className.simple applicationId host
    .ok ⟨className, decl⟩

/-- Adds a label to those of a class name. -/
def addOwner (name : Text) (label : Json) : List Collision → List Collision
  | [] => [⟨name, [label]⟩]
  | c :: rest =>
    if c.name = name then ⟨c.name, c.labels ++ [label]⟩ :: rest
    else c :: addOwner name label rest

/-- Every class name with the labels that get it, in the order of first appearance. -/
def owners (files : List (Text × Json)) : List Collision :=
  files.foldl (fun found (name, label) => addOwner name label found) []

/-- The class names that more than one label gets. -/
def collisions (files : List (Text × Json)) : List Collision :=
  (owners files).filter (1 < ·.labels.length)

/-- The files of all destinations that have actions, parents before their children. -/
def NavigationGraph.directionsFiles (g : NavigationGraph) (applicationId : Text)
    (host : HostClasses) : Except DirectionsFault (List DirectionsFile) := do
  let acting := g.walk.filter (!·.actions.isEmpty)
  let files ← acting.mapM (·.directionsFile applicationId host)
  match collisions ((files.map (·.className.canonical)).zip (acting.map (·.label))) with
  | [] => .ok files
  | found => .error (.reported (.collision found))

end NavDirections
