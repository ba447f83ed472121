import NavDirections.FileTree.Basic
import NavDirections.Number.Decimal
import NavDirections.Template.Layout
import NavDirections.Text.Quoted

/-!
# Template engines

An engine finds templates by name: in memory, or in a directory.  The first template that is added
to an engine over a directory turns it into one in memory.  The language that templates are written
in is a parameter: how a source is compiled, and what a template shows, which may load others.
-/

namespace NavDirections

inductive TemplateProblem where
  | notFound (name : Text)
  | notInDirectory (name directory : Text)
  | notUtf8 (f : MalformedBytes)
  /-- The source is not in the language. -/
  | malformed (message : Text)
  | ownNameGiven
  | undefined (name : Text)
  | size (f : SizeFault)
  | hugeInteger
  /-- Anything else that a language has against rendering. -/
  | refused (message : Text)
deriving DecidableEq

/-- The name under which a template knows itself, so that no value may be given for it. -/
def templateOwnName : Text := "self"

namespace TemplateProblem

def message : TemplateProblem → Text
  | notFound name => name
  | notInDirectory name directory =>
    name.quoted ++ " not found in search path: " ++ directory.quoted
  | notUtf8 f => f.message
  | malformed message => message
  | ownNameGiven => "Template.render() got multiple values for argument 'self'"
  | undefined name => name.quoted ++ " is undefined"
  | size f => f.message
  | hugeInteger => hugeIntegerMessage none
  | refused message => message

def isMissing : TemplateProblem → Bool
  | notFound _ | notInDirectory _ _ => true
  | _ => false

end TemplateProblem

/-- What a template is compiled with: the indentation of one level, its own name, if it has one, and
whether values are escaped. -/
structure TemplateSetting where
  unit : Text
  name : Option Text
  escape : Bool

/-- A language of templates that show values.  A source that is not compiled has a message about it.
A template that is rendered may load others. -/
structure TemplateLanguage (τ ν : Type) where
  compile (setting : TemplateSetting) (source : Text) : Except Text τ
  render (load : Text → Except TemplateProblem τ) (values : List (Text × ν))
    (template : τ) : Except TemplateProblem Text

inductive TemplateStore where
  | memory (sources : List (Text × Text))
  | directory (path : FilePath)

/-- A store with the indentation that filters use. -/
structure TemplateEngine where
  unit : Text
  store : TemplateStore

namespace TemplateEngine

/-- An engine over a directory, or in memory where there is nothing at the path. -/
def create (t : FileTree) (directory : Option FilePath) (unit : Text) :
    Except SystemFault TemplateEngine :=
  match directory with
  | some path => (t.hasEntry path).map fun found =>
    ⟨unit, if found then .directory path else .memory []⟩
  | none => .ok ⟨unit, .memory []⟩

/-- The names of a template's path; one that leads out of the directory is none. -/
def pathNames? (name : Text) : Option (List Text) :=
  let names := name.splitOn '/'
  if names.any (· == Text.ofString "..") then none else some (names.filter FilePath.isName)

def source (e : TemplateEngine) (t : FileTree) (name : Text) : Except TemplateProblem Text :=
  match e.store with
  | .memory sources =>
    match sources.lookup name with
    | some source => .ok source
    | none => .error (.notFound name)
  | .directory path =>
    match pathNames? name with
    | none => .error (.notFound name)
    | some names =>
      match t.read (path.join ⟨[], names⟩) with
      | .ok content => (Text.ofUtf8 content).mapError .notUtf8
      | .error _ => .error (.notInDirectory name path.text)

/-- Adds a template in memory, in place of an earlier one of its name. -/
def add (e : TemplateEngine) (name source : Text) : TemplateEngine :=
  let sources := match e.store with
    | .memory sources => sources
    | .directory _ => []
  { e with store := .memory ((name, source) :: sources) }

def addAll (e : TemplateEngine) (templates : List (Text × Text)) : TemplateEngine :=
  templates.foldl (fun e (name, source) => e.add name source) e

section Language

variable {τ ν : Type} (l : TemplateLanguage τ ν)

/-- Templates with these ends of their names are markup, in letters of either case. -/
def isMarkup (name : Text) : Bool :=
  let name := name.map CodePoint.toAsciiLower
  Text.endsWith name ".html" || Text.endsWith name ".xml"

def template (e : TemplateEngine) (t : FileTree) (name : Text) : Except TemplateProblem τ := do
  let source ← e.source t name
  (l.compile ⟨e.unit, some name, isMarkup name⟩ source).mapError .malformed

/-- Is there a template of the name?  There is no answer about one that is not compiled. -/
def hasTemplate (e : TemplateEngine) (t : FileTree) (name : Text) : Except TemplateProblem Bool :=
  match e.template l t name with
  | .ok _ => .ok true
  | .error p => if p.isMissing then .ok false else .error p

def renderTemplate (e : TemplateEngine) (t : FileTree) (values : List (Text × ν))
    (template : τ) : Except TemplateProblem Text :=
  if values.any (·.1 == templateOwnName) then .error .ownNameGiven
  else l.render (e.template l t) values template

def render (e : TemplateEngine) (t : FileTree) (name : Text) (values : List (Text × ν)) :
    Except TemplateProblem Text :=
  e.template l t name >>= e.renderTemplate l t values

def renderSource (e : TemplateEngine) (t : FileTree) (source : Text)
    (values : List (Text × ν)) : Except TemplateProblem Text :=
  (l.compile ⟨e.unit, none, false⟩ source).mapError .malformed >>= e.renderTemplate l t values

def failureMessage (name : Option Text) (p : TemplateProblem) : Text :=
  "Failed to render template " ++ name.getD "string" ++ ": " ++ p.message

/-- Adds a template unless there is one of its name. -/
def addMissing (e : TemplateEngine) (t : FileTree) (name source : Text) :
    Except TemplateProblem TemplateEngine :=
  (e.hasTemplate l t name).map fun found => if found then e else e.add name source

/-- Adds the templates that a generator brings along, one after another, as far as they are missing
when their turn comes. -/
def register (e : TemplateEngine) (t : FileTree) (templates : List (Text × Text)) :
    Except TemplateProblem TemplateEngine :=
  templates.foldlM (fun e (name, source) => e.addMissing l t name source) e

def layoutTemplates : List Text := ["file.java.j2", "type.java.j2", "method.java.j2"]

/-- Adds what an engine lacks of the templates of the layout. -/
def registerLayout (e : TemplateEngine) (t : FileTree) : Except TemplateProblem TemplateEngine :=
  e.register l t (layoutTemplates.zip [LayoutTemplate.file.source, LayoutTemplate.type.source,
    LayoutTemplate.method.source])

end Language

end TemplateEngine
end NavDirections
