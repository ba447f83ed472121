import NavDirections.Graph.Basic

/-!
# Graph documents

Builds a graph from its JSON form: a list of destinations, or an object with one under
`destinations`.  Ids without a package belong to the application.  Wherever a list is expected a
text or an object may stand too and counts as the list of its characters or keys, none of which is
an object.
-/

namespace NavDirections.Document

def items : Json → Except KindFault (List Json)
  | .array items => .ok items
  | .text t => .ok (t.map fun c => .text [c])
  | .object fields => .ok (fields.map fun (key, _) => .text key)
  | _ => .error .operand

/-- The items of an entry that stands for a list; there are none where it is missing. -/
def itemsOf (key : Text) (fields : List (Text × Json)) : Except GraphFault (List Json) :=
  match Json.find? key fields with
  | none => .ok []
  | some v => (items v).mapError .kind

def fieldsOf (part : DocumentPart) : Json → Except ModelFault (List (Text × Json))
  | .object fields => .ok fields
  | v => .error (.notAnObject part v)

def located (at' : Json → Location) (name : Json) : Location :=
  if name.isGiven then at' name else .unknown

/-- What stands for the package of an id: its own, or that of the application. -/
def packageValue (applicationId : Json) (fields : List (Text × Json)) : Json :=
  ((Json.find? "package" fields).filter Json.isGiven).getD applicationId

/-- The id that a value stands for; null stands for none. -/
def idOf (part : DocumentPart) (applicationId : Json) :
    Option Json → Except PartFault (Option ResourceId)
  | none | some .null => .ok none
  | some v => do
    let fields ← (fieldsOf part v).mapError .model
    match Json.find? "name" fields with
    | none => .error (.model (.missingEntry part "name"))
    | some name =>
      let package ← (packageValue applicationId fields).written.mapError .kind
      if package.isEmpty then .error (.refuse (.noPackage part name))
      else
        let text ← name.written.mapError .kind
        ((ResourceId.make package text).map some).mapError .model

def defaultText : Json → Except PartFault Text
  | .null => .ok "@null"
  | .bool b => .ok (if b then "true" else "false")
  | .int n => (Json.int n).written.mapError .kind
  | .float x => .ok x.text
  | .text t => .ok t
  | v => .error (.refuse (.unsupportedDefault v))

def defaultOf (fields : List (Text × Json)) : Except PartFault (Option Text) :=
  match Json.find? "default" fields with
  | none => .ok none
  | some value => (defaultText value).map some

def typeOf (spelling : Json) (fields : List (Text × Json)) : Except PartFault ArgumentType := do
  let spelling ← spelling.written.mapError .kind
  let className ← ((Json.find? "class" fields).getD (.text [])).written.mapError .kind
  match ArgumentType.ofSpelling? spelling className with
  | some type => .ok type
  | none => .error (.model (.unknownType spelling))

def argumentOf (v : Json) : Except GraphFault ActionArgument := do
  let fields ← (fieldsOf .argument v).mapError fun f => .model f.unlocated
  let name := (Json.find? "name" fields).getD (.text [])
  Except.mapError (GraphFault.within (located .atArgument name)) do
    match Json.find? "type" fields with
    | none => .error (.model (ModelFault.unlocated (.missingEntry .argument "type")))
    | some spelling =>
      let type ← (typeOf spelling fields).mapError PartFault.unlocated
      let default ← (defaultOf fields).mapError PartFault.unlocated
      ActionArgument.make name type (default.map .text)

def actionOf (applicationId : Json) (v : Json) : Except GraphFault Action := do
  let fields ← (fieldsOf .action v).mapError fun f => .model f.unlocated
  match ← (idOf .actionId applicationId (Json.find? "id" fields)).mapError PartFault.unlocated with
  | none => .error (.model (ModelFault.unlocated (.missingEntry .action "id")))
  | some id =>
    Except.mapError (GraphFault.within (.atAction id.name)) do
      let args ← (← itemsOf "arguments" fields).mapM argumentOf
      let destination ← (idOf .actionDestination applicationId
        (Json.find? "destination" fields)).mapError PartFault.unlocated
      Action.make id destination args

def labelOf (name : Json) (id : Option ResourceId) : Location :=
  if name.isGiven then .atDestination name
  else match id with
    | some id => .atDestination (.text id.describe)
    | none => .unknown

structure DestinationHead where
  name : Json
  id : Option ResourceId

def headOf (applicationId : Json) (fields : List (Text × Json)) :
    Except GraphFault DestinationHead :=
  let name := match Json.find? "name" fields with
    | some v => if v.isGiven then v else .text []
    | none => .text []
  match idOf .destinationId applicationId (Json.find? "id" fields) with
  | .ok id => .ok ⟨name, id⟩
  | .error f => .error (f.located (located .atDestination name))

def noDestination (v : Json) : GraphFault :=
  .model (ModelFault.unlocated (.notAnObject .destination v))

mutual

def destinationOf (applicationId : Json) : Json → Except GraphFault Destination
  | .object fields => do
    let head ← headOf applicationId fields
    Except.mapError (GraphFault.within (labelOf head.name head.id)) do
      let actions ← (← itemsOf "actions" fields).mapM (actionOf applicationId)
      let nested ← nestedIn applicationId fields
      .ok ⟨head.name, head.id, actions, nested⟩
  | v => .error (noDestination v)

def nestedIn (applicationId : Json) :
    List (Text × Json) → Except GraphFault (List Destination)
  | [] => .ok []
  | (key, value) :: rest =>
    if key = "nested" then destinationsUnder applicationId value
    else nestedIn applicationId rest

def destinationsUnder (applicationId : Json) : Json → Except GraphFault (List Destination)
  | .array items => destinationsOf applicationId items
  | .text [] => .ok []
  | .text (c :: _) => .error (noDestination (.text [c]))
  | .object [] => .ok []
  | .object ((key, _) :: _) => .error (noDestination (.text key))
  | _ => .error (.kind .operand)

def destinationsOf (applicationId : Json) : List Json → Except GraphFault (List Destination)
  | [] => .ok []
  | v :: rest => do
    let d ← destinationOf applicationId v
    let others ← destinationsOf applicationId rest
    .ok (d :: others)

end

def destinationList (document : Json) : Except ModelFault (List Json) :=
  match document with
  | .array items => .ok items
  | v => do
    let fields ← fieldsOf .graph v
    match Json.find? "destinations" fields with
    | none => .ok []
    | some (.array items) => .ok items
    | some _ => .error .destinationsNotAList

end NavDirections.Document

namespace NavDirections

def NavigationGraph.ofDocument (document : Json) (applicationId : Json) :
    Except GraphFault NavigationGraph := do
  let items ← (Document.destinationList document).mapError fun f => .model f.unlocated
  let destinations ← Document.destinationsOf applicationId items
  .ok ⟨destinations⟩

end NavDirections
