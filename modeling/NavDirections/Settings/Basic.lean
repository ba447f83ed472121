import NavDirections.Graph.Fault
import NavDirections.Graph.Naming
import NavDirections.Json.Writer
import NavDirections.Text.Lines

/-!
# Settings

What a user can choose.  The values are kept as they were given, of whatever kind they are; each is
looked at only when it is used.  Entries that are no settings end up in a collection of their own.
-/

namespace NavDirections

/-- A value under a name that need not be text. -/
abbrev NamedValue := Json × Json

/-- The custom settings: as given, or with other entries over them. -/
inductive CustomSettings where
  | given (v : Json)
  | collected (values : List NamedValue)

structure Settings where
  applicationId : Json
  outputDir : Json
  indentSize : Json
  useTabs : Json
  lineEnding : Json
  addComments : Json
  navigationPackage : Json
  containerClass : Json
  custom : CustomSettings

namespace NamedValue

def nameText : Json → Text
  | .text t => t
  | .null => "null"
  | .bool b => if b then "true" else "false"
  | .float x => Json.writeFloat x
  | v => v.plain

/-- Puts a value under a name, in place of an earlier one; the name that came first stays. -/
def insert (name value : Json) : List NamedValue → List NamedValue
  | [] => [(name, value)]
  | (n, v) :: rest =>
    if n.sameScalar name then (n, value) :: rest else (n, v) :: insert name value rest

/-- The first values with those of the second put over them, one by one. -/
def overlay (base upper : List NamedValue) : List NamedValue :=
  upper.foldl (fun values (name, value) => insert name value values) base

def ofFields (fields : List (Text × Json)) : List NamedValue :=
  fields.map fun (key, value) => (.text key, value)

def toObject (values : List NamedValue) : Json :=
  .object (values.map fun (name, value) => (nameText name, value))

end NamedValue

def CustomSettings.toJson : CustomSettings → Json
  | given v => v
  | collected values => NamedValue.toObject values

namespace Settings

def defaultNavigationPackage : Text := "android.arch.navigation"

def defaultContainerClass : Text := "android.os.Bundle"

def default : Settings where
  applicationId := .text []
  outputDir := .null
  indentSize := .int 4
  useTabs := .bool false
  lineEnding := .text "\n"
  addComments := .bool true
  navigationPackage := .text defaultNavigationPackage
  containerClass := .text defaultContainerClass
  custom := .given (.object [])

/-- The settings by name in their customary order, apart from the custom ones. -/
def entries (s : Settings) : List (Text × Json) :=
  [("application_id", s.applicationId), ("output_dir", s.outputDir),
   ("indent_size", s.indentSize), ("use_tabs", s.useTabs), ("line_ending", s.lineEnding),
   ("add_comments", s.addComments), ("navigation_package", s.navigationPackage),
   ("container_class", s.containerClass)]

def customKey : Text := "custom"

/-- Is an entry a setting of its own? -/
def isDeclared (key : Text) : Bool := (default.entries.lookup key).isSome || key == customKey

/-- Why entries are no settings: the custom ones are no collection. -/
inductive EntryFault where
  /-- An item that should be a pair has another length. -/
  | notAPair (position length : Nat)
  | kind (k : KindFault)

def notAPairMessage (position length : Nat) : Text :=
  "dictionary update sequence element #" ++ Text.ofNat position ++ " has length "
    ++ Text.ofNat length ++ "; 2 is required"

def pairOf (position : Nat) (item : Json) : Except EntryFault NamedValue :=
  let parts : Except EntryFault (List Json) := match item with
    | .array items => .ok items
    | .text t => .ok (t.map fun c => .text [c])
    | .object fields => .ok (fields.map fun (key, _) => .text key)
    | _ => .error (.kind .operand)
  parts.bind fun
    | [name, value] => if name.isScalar then .ok (name, value) else .error (.kind .operand)
    | parts => .error (.notAPair position parts.length)

def pairsOf (position : Nat) : List Json → Except EntryFault (List NamedValue)
  | [] => .ok []
  | item :: rest => do
    let pair ← pairOf position item
    let others ← pairsOf (position + 1) rest
    .ok (pair :: others)

def collection : Json → Except EntryFault (List NamedValue)
  | .object fields => .ok (NamedValue.ofFields fields)
  | .array items => (pairsOf 0 items).map (NamedValue.overlay [])
  | .text [] => .ok []
  | .text (_ :: _) => .error (.notAPair 0 1)
  | _ => .error (.kind .operand)

/-- The settings of some entries.  What is no setting of its own goes over the custom ones. -/
def ofEntries (fields : List (Text × Json)) : Except EntryFault Settings := do
  let value (key : Text) (otherwise : Json) : Json := (Json.find? key fields).getD otherwise
  let given := value customKey default.custom.toJson
  let unknown := fields.filter fun (key, _) => !isDeclared key
  let custom : CustomSettings ←
    if unknown.isEmpty then .ok (.given given)
    else
      (collection given).map fun base =>
        .collected (NamedValue.overlay base (NamedValue.ofFields unknown))
  .ok
    { applicationId := value "application_id" default.applicationId
      outputDir := value "output_dir" default.outputDir
      indentSize := value "indent_size" default.indentSize
      useTabs := value "use_tabs" default.useTabs
      lineEnding := value "line_ending" default.lineEnding
      addComments := value "add_comments" default.addComments
      navigationPackage := value "navigation_package" default.navigationPackage
      containerClass := value "container_class" default.containerClass
      custom }

/-- The settings of several layers of entries, later ones over earlier ones. -/
def ofLayers (layers : List (List (Text × Json))) : Except EntryFault Settings :=
  ofEntries (layers.foldl Json.overlay [])

def customValues (s : Settings) : Except EntryFault (List NamedValue) :=
  match s.custom with
  | .given v => collection v
  | .collected values => .ok values

/-- What a settings file holds: the settings in customary order with the custom ones over them. -/
def fileValue (s : Settings) : Except EntryFault Json :=
  s.customValues.map fun values =>
    NamedValue.toObject (NamedValue.overlay (NamedValue.ofFields s.entries) values)

def forApplication (s : Settings) (applicationId : Text) : Settings :=
  if applicationId.isEmpty then s else { s with applicationId := .text applicationId }

/-- The indentation of one level: a tab, or blanks. -/
def indentation (s : Settings) : Except KindFault Indentation :=
  if s.useTabs.isGiven then .ok .tab
  else match s.indentSize with
    | .int n =>
      match Text.repeatFault? n " " with
      | some fault => .error (.size fault)
      | none => .ok (.blanks n.toNat)
    | .bool b => .ok (.blanks (if b then 1 else 0))
    | _ => .error .operand

def applicationName (s : Settings) : Text :=
  if s.applicationId.isGiven then s.applicationId.plain else []

/-! ### Validation -/

/-- Is the text a package: identifiers between dots?  One line feed at its end is passed over. -/
def isPackage (t : Text) : Bool :=
  (t.dropFinalLineFeed.splitOn '.').all
    (Text.hasShape (fun c => c.isAsciiLetter || c == '_') CodePoint.isWord)

def packageWarning (name : Text) : Json → Except KindFault (List Text)
  | .text t => .ok (if isPackage t then [] else ["Invalid " ++ name ++ ": " ++ t])
  | _ => .error .operand

def isBelowOne : Json → Except KindFault Bool
  | .bool b => .ok !b
  | .int n => .ok (n < 1)
  | .float (.finite negative x) => .ok (negative || x.ratio.1 < x.ratio.2)
  | .float (.infinite negative) => .ok negative
  | .float .undefined => .ok false
  | _ => .error .operand

def warnings (s : Settings) : Except KindFault (List Text) := do
  let application ←
    if s.applicationId.isGiven then packageWarning "application_id" s.applicationId
    else
      .ok ["No application_id set - destinations named '.Name' will be generated in "
        ++ "the default package"]
  let navigation ← packageWarning "navigation_package" s.navigationPackage
  let container ← packageWarning "container_class" s.containerClass
  let below ← isBelowOne s.indentSize
  let indent : List Text ←
    if below then s.indentSize.written.map fun size => ["Invalid indent_size: " ++ size] else .ok []
  let ending : List Text ← match s.lineEnding with
    | .text ['\n'] | .text ['\r', '\n'] => .ok []
    | v => v.shown.map fun ending => ["Unusual line_ending: " ++ ending]
  .ok (application ++ navigation ++ container ++ indent ++ ending)

end Settings
end NavDirections
