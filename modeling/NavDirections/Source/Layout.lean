import NavDirections.Declaration.Class
import NavDirections.Directions.Fault
import NavDirections.FileTree.Path
import NavDirections.Source.Imports
import NavDirections.Template.Layout

/-!
# Source files

The file of a class lies in the directory of its package.  It holds the class with the package and
the imports: members are printed by themselves and moved one level deeper into the braces of their
class; one blank line stands between members, and fields stand together.  What has been printed is
cleaned up line by line.
-/

namespace NavDirections

def sourceExtension : Text := ".java"

def packageSegments (package : Text) : List Text := (package.splitOn '.').filter (!·.isEmpty)

def ClassName.sourcePath (c : ClassName) : FilePath :=
  (packageSegments c.package ++ [c.simple ++ sourceExtension]).foldl
    (fun path part => path.join (.ofText part)) ⟨[], []⟩

/-- The choices of style that the layout leaves open, and the classes that are outside every
package of a file. -/
structure SourceStyle where
  comments : Bool
  indentation : Indentation
  outside : List ClassName

def generatedNotice : Text := "Generated by safeargs from the navigation graph. Do not edit."

namespace ClassDecl

/-- The types in a method, in the order in which imports are chosen; nothing where a statement has
too few arguments. -/
def methodTypes (m : Method) : Option (List TypeName) := do
  let inStatements ← m.statements.mapM (·.typeArguments?)
  return m.returns.toList ++ m.parameters.map (·.type)
    ++ inStatements.flatten.filterMap SlotValue.type?

mutual

/-- The types in a class, in the order in which imports are chosen. -/
def types? : ClassDecl → Option (List TypeName)
  | ⟨_, _, superinterfaces, fields, methods, types⟩ => do
    let inMethods ← methods.mapM methodTypes
    let inTypes ← typesList? types
    return superinterfaces ++ fields.map (·.type) ++ inMethods.flatten ++ inTypes

def typesList? : List ClassDecl → Option (List TypeName)
  | [] => some []
  | d :: rest => do
    let first ← types? d
    let others ← typesList? rest
    return first ++ others

end

end ClassDecl

namespace SourceStyle

def layOutMethod (style : SourceStyle) (signature : Text) (statements : List Text) : Text :=
  LayoutTemplate.method.render style.indentation.text
    [("signature", .text signature), ("statements", .texts statements)]

def layOutClass (style : SourceStyle) (declaration : Text) (members : List Text) : Text :=
  LayoutTemplate.type.render style.indentation.text
    [("declaration", .text declaration), ("blocks", .texts members)]

def layOutFile (style : SourceStyle) (package : Text) (imports : List Text) (type : Text) : Text :=
  LayoutTemplate.file.render style.indentation.text
    [("header", if style.comments then .text generatedNotice else .nothing),
     ("package_name", .text package), ("imports", .texts imports), ("type_source", .text type)]

/-- The spelling of a type that stands by itself, which may not be left open. -/
def nameText (spell : TypeName → Text) : TypeName → Except Breakdown Text
  | .absent => .error (.kind .operand)
  | t => .ok (spell t)

def fieldText (spell : TypeName → Text) (f : Field) : Except Breakdown Text := do
  let type ← nameText spell f.type
  let words := f.modifiers.map (·.keyword) ++ [type, f.name]
  let start := match f.initializer with
    | some value => " = " ++ value
    | none => []
  .ok (Text.joinWith " " words ++ start ++ ";")

def parameterText (spell : TypeName → Text) (p : Parameter) : Text := spell p.type ++ " " ++ p.name

/-- The type that a method returns; a type without a name is none. -/
def returnText (spell : TypeName → Text) : Option TypeName → Text
  | none | some (.plain []) => "void"
  | some t => spell t

def signature (spell : TypeName → Text) (m : Method) : Text :=
  let result := if m.isConstructor then [] else [returnText spell m.returns]
  let parameters := Text.joinWith ", " (m.parameters.map (parameterText spell))
  Text.joinWith " "
    (m.modifiers.map (·.keyword) ++ result ++ [m.name ++ "(" ++ parameters ++ ")"])

/-- What fills a type slot, spelled; a value that is no type leaves nothing. -/
def slotText (spell : TypeName → Text) (a : SlotValue) : Text := (a.type?.map spell).getD []

/-- A statement without its semicolon.  Its type slots have to hold types. -/
def statementText (spell : TypeName → Text) (s : Statement) : Except Breakdown Text := do
  let text ← (s.render (slotText spell)).mapError .statement
  if ((s.typeArguments?.getD []).all (·.type?.isSome)) then .ok text else .error (.kind .operand)

def methodText (style : SourceStyle) (spell : TypeName → Text) (m : Method) :
    Except Breakdown Text := do
  let statements ← m.statements.mapM (statementText spell)
  .ok (style.layOutMethod (signature spell m) statements)

def classHead (spell : TypeName → Text) (d : ClassDecl) : Except Breakdown Text := do
  let interfaces ← d.superinterfaces.mapM (nameText spell)
  let words := Text.joinWith " " (d.modifiers.map (·.keyword) ++ [("class" : Text), d.name])
  .ok (if interfaces.isEmpty then words
    else words ++ " implements " ++ Text.joinWith ", " interfaces)

def fieldGroup (spell : TypeName → Text) (fields : List Field) : Except Breakdown (List Text) := do
  let lines ← fields.mapM (fieldText spell)
  .ok (if lines.isEmpty then [] else [Text.ofLines lines])

mutual

def classText (style : SourceStyle) (spell : TypeName → Text) :
    ClassDecl → Except Breakdown Text
  | ⟨name, modifiers, superinterfaces, fields, methods, types⟩ => do
    let head ← classHead spell ⟨name, modifiers, superinterfaces, fields, methods, types⟩
    let fieldTexts ← fieldGroup spell fields
    let methodTexts ← methods.mapM (style.methodText spell)
    let typeTexts ← classTexts style spell types
    .ok (style.layOutClass head (fieldTexts ++ methodTexts ++ typeTexts))

def classTexts (style : SourceStyle) (spell : TypeName → Text) :
    List ClassDecl → Except Breakdown (List Text)
  | [] => .ok []
  | d :: rest => do
    let first ← classText style spell d
    let others ← classTexts style spell rest
    .ok (first :: others)

end

/-- The imports of a file, chosen for all its types before anything is printed. -/
def importsOf (style : SourceStyle) (f : DirectionsFile) : Except Breakdown Imports :=
  match f.decl.types? with
  | some types =>
    .ok ((Imports.start f.className.package style.outside f.decl.declaredNames).addAll types)
  | none => .error .argumentsRanOut

def fileText (style : SourceStyle) (f : DirectionsFile) : Except Breakdown Text := do
  let imports ← style.importsOf f
  let text ← style.classText imports.spell f.decl
  .ok (style.layOutFile f.className.package imports.sorted text)

end SourceStyle

/-- The imports of a file while it is printed, and the types asked for so far. -/
structure Journal where
  imports : Imports
  asked : List TypeName

namespace Journal

def ask (type : TypeName) : StateM Journal Text := fun j =>
  ((j.imports.name type).2, ⟨(j.imports.name type).1, j.asked ++ [type]⟩)

def askSlot (a : SlotValue) : StateM Journal Text :=
  match a.type? with
  | some type => ask type
  | none => pure []

end Journal

/-- A text that is printed piece by piece.  What was asked for stays asked for if printing fails. -/
abbrev Printing := ExceptT Breakdown (StateM Journal)

namespace Printing

def spelling (type : TypeName) : Printing Text := ExceptT.lift (Journal.ask type)

def typeText (type : TypeName) : Printing Text := do
  let text ← spelling type
  if type = .absent then throw (.kind .operand) else return text

def fieldText (f : Field) : Printing Text := do
  let type ← typeText f.type
  let words := f.modifiers.map (·.keyword) ++ [type, f.name]
  let start := match f.initializer with
    | some value => " = " ++ value
    | none => []
  return Text.joinWith " " words ++ start ++ ";"

def parameterText (p : Parameter) : Printing Text := do
  let type ← spelling p.type
  return type ++ " " ++ p.name

def returnText : Option TypeName → Printing Text
  | none | some (.plain []) => return "void"
  | some t => spelling t

def returnWords (m : Method) : Printing (List Text) := do
  if m.isConstructor then return []
  else
    let type ← returnText m.returns
    return [type]

def signature (m : Method) : Printing Text := do
  let result ← returnWords m
  let parameters ← m.parameters.mapM parameterText
  return Text.joinWith " " (m.modifiers.map (·.keyword) ++ result ++
    [m.name ++ "(" ++ Text.joinWith ", " parameters ++ ")"])

def statementText (s : Statement) : Printing Text := do
  let text ← ExceptT.mk ((·.mapError .statement) <$> s.renderWith Journal.askSlot)
  if (s.typeArguments?.getD []).all (·.type?.isSome) then return text
  else throw (.kind .operand)

def methodText (style : SourceStyle) (m : Method) : Printing Text := do
  let head ← signature m
  let statements ← m.statements.mapM statementText
  return style.layOutMethod head statements

/-- All interfaces are asked for before one that is open is noticed. -/
def interfaceTexts (types : List TypeName) : Printing (List Text) := do
  let texts ← types.mapM spelling
  if .absent ∈ types then throw (.kind .operand) else return texts

def classHead (d : ClassDecl) : Printing Text := do
  let interfaces ← interfaceTexts d.superinterfaces
  let words := Text.joinWith " " (d.modifiers.map (·.keyword) ++ [("class" : Text), d.name])
  return if interfaces.isEmpty then words
    else words ++ " implements " ++ Text.joinWith ", " interfaces

def fieldGroup (fields : List Field) : Printing (List Text) := do
  let lines ← fields.mapM fieldText
  return if lines.isEmpty then [] else [Text.ofLines lines]

mutual

def classText (style : SourceStyle) : ClassDecl → Printing Text
  | ⟨name, modifiers, superinterfaces, fields, methods, types⟩ => do
    let head ← classHead ⟨name, modifiers, superinterfaces, fields, methods, types⟩
    let fieldTexts ← fieldGroup fields
    let methodTexts ← methods.mapM (methodText style)
    let typeTexts ← classTexts style types
    return style.layOutClass head (fieldTexts ++ methodTexts ++ typeTexts)

def classTexts (style : SourceStyle) : List ClassDecl → Printing (List Text)
  | [] => return []
  | d :: rest => do
    let first ← classText style d
    let others ← classTexts style rest
    return first :: others

end

/-- Prints a class in a file with the given imports: the text, or why there is none, and what became
of the imports. -/
def start (x : Printing Text) (imports : Imports) : Except Breakdown Text × Journal :=
  x.run.run ⟨imports, []⟩

/-- A file whose imports are written down when its class has been printed. -/
def fileText (style : SourceStyle) (f : DirectionsFile) : Except Breakdown Text := do
  let imports ← style.importsOf f
  let printed := (classText style f.decl).start imports
  let text ← printed.1
  .ok (style.layOutFile f.className.package printed.2.imports.sorted text)

end Printing

/-! ### Cleaning up -/

namespace Source

/-- Keeps the first of several empty lines in a row; `afterEmpty` tells whether one precedes. -/
def collapse (afterEmpty : Bool) : List Text → List Text
  | [] => []
  | line :: rest =>
    if line.isEmpty then
      if afterEmpty then collapse true rest else line :: collapse true rest
    else line :: collapse false rest

/-- The lines up to the last one that is not empty. -/
def dropEmptyEnd : List Text → List Text
  | [] => []
  | line :: rest =>
    match dropEmptyEnd rest with
    | [] => if line.isEmpty then [] else [line]
    | next :: more => line :: next :: more

def cleanLines (t : Text) : List Text := dropEmptyEnd (collapse false (t.lines.map Text.stripEnd))

/-- The cleaned text, each line of it followed by `ending`; a text without lines is one ending. -/
def cleanUp (ending t : Text) : Text := Text.joinWith ending (cleanLines t) ++ ending

end Source

end NavDirections
