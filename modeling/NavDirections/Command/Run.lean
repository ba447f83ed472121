import NavDirections.Command.Options
import NavDirections.Command.Report

/-!
# Running commands

Both commands put the settings together and load a graph.  Then one generates sources and writes or
prints them, and the other lists the directions classes.  Files are touched only when sources are
written, which is the last thing that can fail.
-/

namespace NavDirections

/-- What a run finds around it: files, standard input, what becomes of a request if it makes one,
how deep a document may be nested for the reader, and what the console shows. -/
structure Surroundings where
  files : FileTree
  input : Text
  outcome : RequestOutcome
  depth : Nat
  shows : Console

namespace Options

/-- The text of an option, where it is not empty, as a setting. -/
def givenText (key : Text) : Option Text → List (Text × Json)
  | some (c :: rest) => [(key, .text (c :: rest))]
  | _ => []

/-- The number of an option, where it is not zero, as a setting. -/
def givenNumber (key : Text) : Option Int → List (Text × Json)
  | some n => if n = 0 then [] else [(key, .int n)]
  | _ => []

def overrides (o : Options) : List (Text × Json) :=
  let comments : List (Text × Json) := if o.noComments then [("add_comments", .bool false)] else []
  givenText "application_id" o.applicationId ++ givenText "output_dir" o.outputDir ++ comments
    ++ givenNumber "indent_size" o.indentSize
    ++ givenText "navigation_package" o.navigationPackage

def givenPath : Option Text → Option FilePath
  | some (c :: rest) => some (.ofText (c :: rest))
  | _ => .none

/-- The settings of a run.  They have to be of kinds that can be validated. -/
def settings (o : Options) (depth : Nat) (files : FileTree) : Except CommandFault Settings := do
  let s ← (Settings.load depth files (givenPath o.config) o.overrides).mapError .settings
  let _ ← s.warnings.mapError fun k => .breakdown (.kind k)
  .ok s

end Options

structure LoadedGraph where
  source : Option Text
  graph : NavigationGraph

def inputName : Text := "<stdin>"

def readInput (depth : Nat) (input : Text) (applicationId : Json) :
    Except CommandFault LoadedGraph := do
  let document ← (Json.parse depth input).mapError fun
    | .syntaxError e => .command (.invalidInput e)
    | .hugeInteger digits => .load (.hugeInteger digits)
    | .tooDeep => .load .tooDeep
  let graph ← (graphOfSource document inputName applicationId).mapError .load
  .ok ⟨none, graph⟩

/-- The graph of a run: from a file or URL, else from standard input. -/
def loadInput (o : Options) (w : Surroundings) (applicationId : Json) :
    Except CommandFault LoadedGraph :=
  let file := o.file.getD []
  let url := o.url.getD []
  if !file.isEmpty || !url.isEmpty then
    ((loadGraph w.depth w.files w.outcome file url applicationId).mapError .load).map
      fun (source, graph) => ⟨some source, graph⟩
  else if o.stdin then readInput w.depth w.input applicationId
  else .error (.command .noInput)

def sourceLine (source : Text) : Printed := .line [.plain ("📄 Loaded: " ++ source)]

def LoadedGraph.notice (l : LoadedGraph) : List Printed := (l.source.map sourceLine).toList

structure Prepared where
  settings : Settings
  loaded : LoadedGraph

namespace Prepared

/-- Puts the settings together, loads the graph and announces its source. -/
def make (o : Options) (w : Surroundings) : Except CommandFault Prepared := do
  let s ← o.settings w.depth w.files
  let loaded ← loadInput o w s.applicationId
  match loaded.notice.find? (!w.shows ·) with
  | some p => .error (.unshown p)
  | none => .ok ⟨s, loaded⟩

def notice (p : Prepared) : List Printed := p.loaded.notice

end Prepared

/-- The generation of a run, which needs a directory unless nothing is to be written. -/
def produce (o : Options) (p : Prepared) :
    Except CommandFault (Except GenerationFailure Generation) :=
  if !o.dryRun && !p.settings.outputDir.isGiven then .error (.command .noOutputDir)
  else (p.settings.generate p.loaded.graph).mapError .breakdown

/-- The output directory, which has to be named by text. -/
def Settings.outputPath (s : Settings) : Except CommandFault FilePath :=
  match s.outputDir with
  | .text t => .ok (.ofText t)
  | _ => .error (.breakdown (.kind .operand))

namespace Generation

def figureTitle (key : Text) : Text := Text.joinWith " " ((key.splitOn '_').map capitalize)

/-- A row of the figures, if its value can be written. -/
def figureRow (key : Text) (value : Json) : Except CommandFault (List Text) :=
  (value.written.map fun text => [figureTitle key, text]).mapError fun k => .breakdown (.kind k)

def figures (g : Generation) : Except CommandFault Printed :=
  (g.metadata.mapM fun (key, value) => figureRow key value).map
    (.table "📊 Generation Metadata" ["Property", "Value"])

def warningLine (warning : Text) : Printed :=
  .line [.plain "  ", .inColour .yellow "•", .plain (" " ++ warning)]

def warningLines (g : Generation) : List Printed :=
  if g.warnings.isEmpty then []
  else .line [.plain "\n", .inColour .yellow "⚠️  Warnings:"] :: g.warnings.map warningLine

def epilogue (g : Generation) (verbose : Bool) : List (Except CommandFault Printed) :=
  (if verbose then [g.figures] else []) ++ g.warningLines.map .ok

def listing (g : Generation) : List Printed :=
  g.sources.map fun (path, code) => .source path code

end Generation

def writtenLine (count : Nat) (root : FilePath) : Printed :=
  .line [.inColour .green "✓", .plain (" Generated " ++ Text.ofNat count ++ " file(s) in "),
    .inColour .cyan root.text]

def deliver (o : Options) (w : Surroundings) (p : Prepared) (g : Generation) : Report :=
  if o.dryRun then
    .print w.shows p.notice w.files 0 (g.listing.map .ok ++ g.epilogue o.verbose)
  else match p.settings.outputPath with
    | .error f => .fault w.shows p.notice f w.files
    | .ok root =>
      match g.sources.write w.files root with
      | (files, .error f) => .fault w.shows p.notice (.output f) files
      | (files, .ok written) =>
        .print w.shows p.notice files 0
          (.ok (writtenLine written.length root) :: g.epilogue o.verbose)

def runGenerate (o : Options) (w : Surroundings) : Report :=
  match Prepared.make o w with
  | .error f => .fault w.shows [] f w.files
  | .ok p =>
    match produce o p with
    | .error f => .fault w.shows p.notice f w.files
    | .ok (.error failure) =>
      .failure w.shows p.notice
        [.inColour .red "✗ Code generation failed:", .plain (" " ++ failure.message)] w.files
    | .ok (.ok g) => deliver o w p g

def Method.parameterList (m : Method) : Text :=
  Text.joinWith ", " (m.parameters.map fun p => p.type.fullName ++ " " ++ p.name)

/-- The destination that a nested class leads to, as the expression that it returns. -/
def ClassDecl.destinationText (nested : ClassDecl) : Text :=
  match nested.method "getDestinationId" with
  | .ok m =>
    match m.fullBody with
    | .ok (statement :: _) => (Text.dropStart? "return " statement).getD statement
    | _ => []
  | .error _ => []

/-- One row for each nested class of a file: the class, the factory and the destination. -/
def DirectionsFile.rows (f : DirectionsFile) : List (List Text) :=
  (f.decl.methods.zip f.decl.types).map fun (factory, nested) =>
    [f.className.canonical, factory.name ++ "(" ++ factory.parameterList ++ ")",
      nested.destinationText]

def classTable (files : List DirectionsFile) : Printed :=
  .table "🧭 Directions Classes" ["Class", "Factory", "Destination Id"]
    (files.flatMap (·.rows))

/-- The descriptions of a run.  The style of the sources has to be valid though it does not show. -/
def describeAll (p : Prepared) : Except DirectionsFault (List DirectionsFile) := do
  let _ ← p.settings.sourceStyle.mapError .kind
  p.settings.describe p.loaded.graph

def faultLine (e : GenerationError) : Except CommandFault Printed :=
  (e.written.map fun message => Printed.line [.inColour .red ("✗ " ++ message)]).mapError
    fun k => .breakdown (.kind k)

def runInspect (o : Options) (w : Surroundings) : Report :=
  match Prepared.make o w with
  | .error f => .fault w.shows [] f w.files
  | .ok p =>
    match describeAll p with
    | .error (.reported e) => .print w.shows p.notice w.files 1 [faultLine e]
    | .error (.breakdown b) => .fault w.shows p.notice (.breakdown b) w.files
    | .ok [] =>
      .print w.shows p.notice w.files 0
        [.ok (.line [.inColour .yellow "No destination declares actions."])]
    | .ok files => .print w.shows p.notice w.files 0 [.ok (classTable files)]

/-! ### The program -/

def versionText : Text := "safeargs 0.1.0"

def run (args : List Text) (w : Surroundings) : Report :=
  match readCommandLine args with
  | .error stop => ⟨[], w.files, .exit stop.code⟩
  | .ok ⟨command, o⟩ =>
    if o.logLevel.isNone then .fault w.shows [] (.breakdown (.kind .operand)) w.files
    else match command with
      | none => ⟨[], w.files, .exit 1⟩
      | some .generate => runGenerate o w
      | some .inspect => runInspect o w

end NavDirections
