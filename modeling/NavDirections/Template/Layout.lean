import NavDirections.Text.Lines

/-!
# Layouts

The templates of source files.  A layout has lines with places for texts, lines that stand only
where something is given, and lines for each text of a list.  Its source spells it in the template
language, where a tag has a line to itself and leaves nothing of it behind; a line feed at the end
of the source does not count.
-/

namespace NavDirections

/-- A filter without options: one level of indentation, or the usual comment mark. -/
inductive LayoutFilter where
  | indent
  | comment

inductive LayoutPiece where
  | plain (t : Text)
  /-- The text of a name, through a filter if there is one. -/
  | shown (name : Text) (filter : Option LayoutFilter)

inductive LayoutPart where
  | line (pieces : List LayoutPiece)
  /-- Stands where the name is given and not empty. -/
  | given (name : Text) (parts : List LayoutPart)
  /-- Stands once for each text of a list, under the name of an item. -/
  | each (item list : Text) (parts : List LayoutPart)
  /-- Stands for every text of the list but the first. -/
  | between (parts : List LayoutPart)

structure LayoutTemplate where
  parts : List LayoutPart
  /-- The last line, which ends with the template. -/
  last : List LayoutPiece
  /-- Has the source a line feed behind the last line? -/
  ended : Bool

def LayoutFilter.spelling : LayoutFilter → Text
  | indent => "indent"
  | comment => "comment"

def LayoutPiece.source : LayoutPiece → Text
  | plain t => t
  | shown name none => "\x7b\x7b " ++ name ++ " \x7d\x7d"
  | shown name (some filter) => "\x7b\x7b " ++ name ++ " | " ++ filter.spelling ++ " \x7d\x7d"

namespace LayoutPart

def tag (t : Text) : Text := "\x7b% " ++ t ++ " %\x7d"

mutual

def sourceLines : LayoutPart → List Text
  | line pieces => [pieces.flatMap LayoutPiece.source]
  | given name parts => [tag ("if " ++ name)] ++ sourcesLines parts ++ [tag "endif"]
  | each item list parts =>
    [tag ("for " ++ item ++ " in " ++ list)] ++ sourcesLines parts ++ [tag "endfor"]
  | between parts => [tag "if not loop.first"] ++ sourcesLines parts ++ [tag "endif"]

def sourcesLines : List LayoutPart → List Text
  | [] => []
  | part :: rest => sourceLines part ++ sourcesLines rest

end

end LayoutPart

def LayoutTemplate.source (l : LayoutTemplate) : Text :=
  Text.ofLines (LayoutPart.sourcesLines l.parts ++ [l.last.flatMap LayoutPiece.source]) ++
    if l.ended then ("\n" : Text) else []

inductive LayoutValue where
  | nothing
  | text (t : Text)
  | texts (ts : List Text)

def LayoutValue.isGiven : LayoutValue → Bool
  | nothing => false
  | text t => !t.isEmpty
  | texts ts => !ts.isEmpty

/-- The indentation of one level, the names, and whether the first text of a list is at hand. -/
structure LayoutContext where
  unit : Text
  values : List (Text × LayoutValue)
  isFirst : Bool

namespace LayoutContext

def value (c : LayoutContext) (name : Text) : LayoutValue := (c.values.lookup name).getD .nothing

def textOf (c : LayoutContext) (name : Text) : Text :=
  match c.value name with
  | .text t => t
  | .nothing | .texts _ => []

def textsOf (c : LayoutContext) (name : Text) : List Text :=
  match c.value name with
  | .texts ts => ts
  | .nothing | .text _ => []

def forItem (c : LayoutContext) (item t : Text) (isFirst : Bool) : LayoutContext :=
  { c with values := (item, .text t) :: c.values, isFirst }

def filtered (c : LayoutContext) (t : Text) : Option LayoutFilter → Text
  | none => t
  | some .indent => t.indentWith c.unit
  | some .comment => t.comment "//"

def piece (c : LayoutContext) : LayoutPiece → Text
  | .plain t => t
  | .shown name filter => c.filtered (c.textOf name) filter

def line (c : LayoutContext) (pieces : List LayoutPiece) : Text := pieces.flatMap c.piece

end LayoutContext

namespace LayoutPart

mutual

/-- The lines that a part leaves; those of a text with line feeds count as one. -/
def lines (c : LayoutContext) : LayoutPart → List Text
  | line pieces => [c.line pieces]
  | given name parts => if (c.value name).isGiven then linesOf c parts else []
  | each item list parts =>
    (c.textsOf list).zipIdx.flatMap fun (t, i) => linesOf (c.forItem item t (i == 0)) parts
  | between parts => if c.isFirst then [] else linesOf c parts

def linesOf (c : LayoutContext) : List LayoutPart → List Text
  | [] => []
  | part :: rest => lines c part ++ linesOf c rest

end

end LayoutPart

namespace LayoutTemplate

def endLine (line : Text) : Text := line ++ "\n"

def render (l : LayoutTemplate) (unit : Text) (values : List (Text × LayoutValue)) : Text :=
  let c : LayoutContext := ⟨unit, values, false⟩
  (LayoutPart.linesOf c l.parts).flatMap endLine ++ c.line l.last

/-- The lines of a file: the notice, the package, the imports and the class. -/
def file : LayoutTemplate where
  parts :=
    [.given "header" [.line [.shown "header" (some .comment)]],
     .given "package_name" [.line [.plain "package ", .shown "package_name" none, .plain ";"],
      .line []],
     .each "name" "imports" [.line [.plain "import ", .shown "name" none, .plain ";"]],
     .given "imports" [.line []]]
  last := [.shown "type_source" none]
  ended := true

/-- A class with its members between braces. -/
def type : LayoutTemplate where
  parts :=
    [.line [.shown "declaration" none, .plain " \x7b"],
     .each "block" "blocks" [.between [.line []], .line [.shown "block" (some .indent)]]]
  last := [.plain "\x7d"]
  ended := false

/-- A method with its statements between braces. -/
def method : LayoutTemplate where
  parts :=
    [.line [.shown "signature" none, .plain " \x7b"],
     .each "statement" "statements" [.line [.shown "statement" (some .indent), .plain ";"]]]
  last := [.plain "\x7d"]
  ended := false

end LayoutTemplate
end NavDirections
