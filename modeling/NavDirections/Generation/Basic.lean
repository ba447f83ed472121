import NavDirections.Directions.Basic
import NavDirections.Graph.Basic
import NavDirections.Graph.Document
import NavDirections.Graph.Naming
import NavDirections.Settings.Basic
import NavDirections.Source.Layout

/-!
# Generating sources

From a graph and settings to the sources by path, with warnings and figures about the run.  A graph
with names that cannot serve as names of the generated code still has directions, but each such name
is warned about.  Faults of the graph and collisions of class names make a failed generation; values
of the wrong kind end the run.
-/

namespace NavDirections

namespace NavigationGraph

def actionWarning (d : Destination) (a : Action) : Except KindFault (List Text) :=
  if isUsableName a.id.name then .ok []
  else d.label.written.map fun label =>
    ["Action id '" ++ a.id.name ++ "' in " ++ label ++ " is not a valid Java method name"]

def argumentWarning (d : Destination) (a : Action) (x : ActionArgument) :
    Except KindFault (List Text) :=
  match x.name with
  | .text name =>
    if isUsableName name then .ok []
    else d.label.written.map fun label =>
      ["Argument '" ++ name ++ "' of " ++ label ++ "." ++ a.id.name
        ++ " is not a valid Java identifier"]
  | _ => .error .operand

/-- The warnings about a graph: first those about actions, then those about arguments, each in the
order of the graph. -/
def warnings (g : NavigationGraph) : Except KindFault (List Text) := do
  let actions ← g.actions.mapM fun (d, a) => actionWarning d a
  let arguments ← g.arguments.mapM fun (d, a, x) => argumentWarning d a x
  .ok (actions.flatten ++ arguments.flatten)

end NavigationGraph

/-- Sources by path, in order; a path appears once. -/
abbrev Sources := List (Text × Text)

/-- Puts a source under a path, in place of an earlier one. -/
def Sources.insert (path source : Text) : Sources → Sources
  | [] => [(path, source)]
  | (p, s) :: rest => if p = path then (p, source) :: rest else (p, s) :: insert path source rest

theorem Sources.lookup_insert (path path' source : Text) (sources : Sources) :
    (Sources.insert path source sources).lookup path' =
      if path' = path then some source else sources.lookup path' := by
  induction sources with
  | nil =>
    by_cases h : path' = path
    · simp [Sources.insert, h]
    · have hne : (path' == path) = false := by simpa using h
      simp [Sources.insert, List.lookup_cons, h, hne]
  | cons entry rest ih =>
    obtain ⟨p, s⟩ := entry
    by_cases hp : p = path
    · by_cases h : path' = path
      · simp [Sources.insert, hp, h]
      · have hne : (path' == path) = false := by simpa using h
        simp [Sources.insert, List.lookup_cons, hp, h, hne]
    · by_cases h : path' = p
      · subst h
        simp [Sources.insert, hp]
      · have hne : (path' == p) = false := by simpa using h
        simp [Sources.insert, List.lookup_cons, hp, hne, ih]

structure Generation where
  sources : Sources
  warnings : List Text
  metadata : List (Text × Json)

inductive GenerationFailure where
  | document (e : ModelError)
  | graph (e : GenerationError)

namespace GenerationFailure

def cause : GenerationFailure → GenerationError
  | document e => .model e
  | graph e => e

def message : GenerationFailure → Text
  | document e => "Invalid navigation graph: " ++ e.message
  | graph e => "Code generation failed: " ++ e.message

end GenerationFailure

namespace Settings

/-- The platform classes.  The container has to be named by text. -/
def hostClasses (s : Settings) : Except KindFault HostClasses :=
  match s.containerClass with
  | .text container =>
    .ok (.of (if s.navigationPackage.isGiven then s.navigationPackage.plain else []) container)
  | _ => .error .member

/-- The platform classes whose package is named by something else than text, so that no file is in
it. -/
def outsideClasses (s : Settings) : List ClassName :=
  match s.navigationPackage, s.hostClasses with
  | .text _, _ | _, .error _ => []
  | _, .ok host => [host.navDirections, host.navOptions]

def sourceStyle (s : Settings) : Except KindFault SourceStyle :=
  s.indentation.map (⟨s.addComments.isGiven, ·, s.outsideClasses⟩)

/-- A text cleaned up, with the line ending of the settings. -/
def format (s : Settings) (code : Text) : Except KindFault Text :=
  match s.lineEnding with
  | .text ending => .ok (Source.cleanUp ending code)
  | _ => .error .member

def describe (s : Settings) (g : NavigationGraph) :
    Except DirectionsFault (List DirectionsFile) := do
  let host ← s.hostClasses.mapError .kind
  g.directionsFiles s.applicationName host

def source (s : Settings) (style : SourceStyle) (f : DirectionsFile) : Except Breakdown Text := do
  let text ← style.fileText f
  (s.format text).mapError .kind

/-- Does a destination take its package from the application id? -/
def takesApplicationId (d : Destination) : Bool :=
  match d.name with
  | .text name => (name.cutLast? '.').any (·.1.isEmpty)
  | _ => false

/-- The path of the file of a destination.  An application id that is no text is no path. -/
def sourcePath (s : Settings) (d : Destination) (f : DirectionsFile) : Except Breakdown Text :=
  if takesApplicationId d && s.applicationId.text?.isNone then .error (.kind .member)
  else .ok f.className.sourcePath.text

/-- The path and source of the file of a destination.  Classes of a navigation package that is an
array or an object cannot be told apart. -/
def sourceFile (s : Settings) (style : SourceStyle) (f : DirectionsFile) (d : Destination) :
    Except Breakdown (Text × Text) := do
  if !s.navigationPackage.isScalar then .error (.kind .operand) else
  let text ← s.source style f
  let path ← s.sourcePath d f
  .ok (path, text)

def sources (s : Settings) (style : SourceStyle) (g : NavigationGraph) :
    Except DirectionsFault Sources := do
  let files ← s.describe g
  let acting := g.walk.filter (!·.actions.isEmpty)
  let pairs ← ((files.zip acting).mapM fun (f, d) => s.sourceFile style f d).mapError .breakdown
  .ok (pairs.foldl (fun found (path, text) => Sources.insert path text found) [])

def metadata (s : Settings) (g : NavigationGraph) (files : Nat) : List (Text × Json) :=
  [("language", .text "java"), ("file_extension", .text sourceExtension),
   ("application_id", s.applicationId), ("destination_count", .int g.walk.length),
   ("action_count", .int g.actionCount), ("file_count", .int files)]

def generate (s : Settings) (g : NavigationGraph) :
    Except Breakdown (Except GenerationFailure Generation) := do
  let style ← s.sourceStyle.mapError .kind
  let warnings ← g.warnings.mapError .kind
  match s.sources style g with
  | .ok sources => .ok (.ok ⟨sources, warnings, s.metadata g sources.length⟩)
  | .error (.reported e) => (e.written.mapError .kind).map fun _ => .error (.graph e)
  | .error (.breakdown b) => .error b

def generateDocument (s : Settings) (document : Json) :
    Except Breakdown (Except GenerationFailure Generation) := do
  let _ ← s.sourceStyle.mapError .kind
  match NavigationGraph.ofDocument document s.applicationId with
  | .ok g => s.generate g
  | .error (.model e) => (e.written.mapError .kind).map fun _ => .error (.document e)
  | .error (.kind k) => .error (.kind k)

end Settings

end NavDirections
