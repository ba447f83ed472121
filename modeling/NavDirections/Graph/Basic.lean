import NavDirections.Graph.Fault

/-!
# Navigation graphs

A graph is a tree of destinations; each has actions that lead elsewhere and take typed arguments.
The types carry what their makers check: ids are complete, arguments have names, and no two
arguments of an action have the same one.
-/

namespace NavDirections

/-- A resource id: a name in a package, neither of them empty. -/
structure ResourceId where
  package : Text
  name : Text
  package_ne : package ≠ []
  name_ne : name ≠ []
deriving DecidableEq

namespace ResourceId

def make (package name : Text) : Except ModelFault ResourceId :=
  if hn : name = [] then .error .emptyIdName
  else if hp : package = [] then .error (.idWithoutPackage name)
  else .ok ⟨package, name, hp, hn⟩

def describe (i : ResourceId) : Text := i.package ++ ":id/" ++ i.name

end ResourceId

/-- An argument of an action; it is optional exactly when it has a default.  A document may put
any value in place of the name, as long as it is not an empty one. -/
structure ActionArgument where
  name : Json
  type : ArgumentType
  default : Option Text
  name_given : name.isGiven = true

namespace ActionArgument

def isOptional (a : ActionArgument) : Bool := a.default.isSome

def make (name : Json) (type : ArgumentType) (default : Option Json) :
    Except GraphFault ActionArgument :=
  if h : name.isGiven = true then
    match default with
    | none => .ok ⟨name, type, none, h⟩
    | some (.text t) => .ok ⟨name, type, some t, h⟩
    | some v => .error ((PartFault.refuse (.defaultNotText v)).located (.atArgument name))
  else .error (.model (ModelFault.unlocated .emptyArgumentName))

end ActionArgument

inductive NameClash where
  | repeated (name : Json)
  | notScalar

/-- The first name that occurs before it or among `seen`, or that is no scalar. -/
def firstClash? (seen : List Json) : List Json → Option NameClash
  | [] => none
  | name :: rest =>
    if name.isScalar then
      if seen.any (·.sameScalar name) then some (.repeated name)
      else firstClash? (name :: seen) rest
    else some .notScalar

/-- An action of a destination; without a destination of its own it leads nowhere. -/
structure Action where
  id : ResourceId
  destination : Option ResourceId
  args : List ActionArgument
  distinct : firstClash? [] (args.map (·.name)) = none

namespace Action

def make (id : ResourceId) (destination : Option ResourceId) (args : List ActionArgument) :
    Except GraphFault Action :=
  match h : firstClash? [] (args.map (·.name)) with
  | none => .ok ⟨id, destination, args, h⟩
  | some (.repeated name) =>
    .error ((PartFault.refuse (.duplicateArgument name)).located ⟨none, some id.name, some name⟩)
  | some .notScalar => .error (.kind .operand)

end Action

/-- A node of the graph with the destinations inside it.  An empty name stands for none. -/
structure Destination where
  name : Json
  id : Option ResourceId
  actions : List Action
  nested : List Destination

namespace Destination

/-- How messages name the destination: by its name, else by its id. -/
def label (d : Destination) : Json :=
  if d.name.isGiven then d.name
  else match d.id with
    | some id => .text id.describe
    | none => .text "<anonymous destination>"

mutual

/-- The destination and all inside it, parents before their children. -/
def walk : Destination → List Destination
  | ⟨name, id, actions, nested⟩ => ⟨name, id, actions, nested⟩ :: walkAll nested

def walkAll : List Destination → List Destination
  | [] => []
  | d :: rest => walk d ++ walkAll rest

end

end Destination

structure NavigationGraph where
  destinations : List Destination

namespace NavigationGraph

def walk (g : NavigationGraph) : List Destination := Destination.walkAll g.destinations

def actionCount (g : NavigationGraph) : Nat := (g.walk.flatMap (·.actions)).length

/-- All actions with their destinations, in the order of the walk. -/
def actions (g : NavigationGraph) : List (Destination × Action) :=
  g.walk.flatMap fun d => d.actions.map (d, ·)

def arguments (g : NavigationGraph) : List (Destination × Action × ActionArgument) :=
  g.walk.flatMap fun d => d.actions.flatMap fun a => a.args.map fun x => (d, a, x)

end NavigationGraph
end NavDirections
