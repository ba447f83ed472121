import NavDirections.Declaration.TypeName
import NavDirections.Graph.Basic
import NavDirections.Text.Word

/-!
# Names of generated members

How the names of destinations, actions and arguments become names of classes and methods, and which
names the generated code can use.
-/

namespace NavDirections

def CodePoint.startsIdentifier (c : CodePoint) : Bool := c.isAsciiLetter || c == '_' || c == '$'

def CodePoint.continuesIdentifier (c : CodePoint) : Bool := c.isWord || c == '$'

namespace Text

def dropFinalLineFeed (t : Text) : Text := (dropEnd? "\n" t).getD t

/-- Does the text begin with a code point of the first class and go on with those of the
second? -/
def hasShape (first others : CodePoint → Bool) : Text → Bool
  | [] => false
  | c :: rest => first c && rest.all others

/-- Does the text have the form of an identifier?  One line feed at its end is passed over. -/
def isIdentifierLike (t : Text) : Bool :=
  t.dropFinalLineFeed.hasShape CodePoint.startsIdentifier CodePoint.continuesIdentifier

end Text

/-- The words that the generated language keeps for itself. -/
def reservedWords : List Text :=
  (["abstract", "assert", "boolean", "break", "byte", "case", "catch", "char", "class", "const",
    "continue", "default", "do", "double", "else", "enum", "extends", "final", "finally", "float",
    "for", "goto", "if", "implements", "import", "instanceof", "int", "interface", "long",
    "native", "new", "package", "private", "protected", "public", "return", "short", "static",
    "strictfp", "super", "switch", "synchronized", "this", "throw", "throws", "transient", "try",
    "void", "volatile", "while", "true", "false", "null", "var", "record", "yield"]
    : List String).map Text.ofString

def isUsableName (t : Text) : Bool := t.isIdentifierLike && !reservedWords.contains t

/-- The name with its first letter in title form, where it is a small one. -/
def capitalize : Text → Text
  | [] => []
  | c :: rest => if c.isLower then c.toTitle :: rest else c :: rest

def setterName (argument : Text) : Text := "set" ++ capitalize argument

def actionClassName (id : ResourceId) : Text := capitalize id.name

/-- The expression for the value of an id at run time; zero where there is none. -/
def idAccessor : Option ResourceId → Text
  | none => "0"
  | some id => id.package ++ ".R.id." ++ id.name

def directionsSuffix : Text := "Directions"

/-- The package and simple name of a dotted name.  A name that begins with its only dot belongs to
the application. -/
def splitName (applicationId name : Text) : ClassName :=
  match name.cutLast? '.' with
  | none => ⟨[], name⟩
  | some (package, simple) => ⟨if package.isEmpty then applicationId else package, simple⟩

/-- Why a destination has no class name. -/
inductive NamingFault where
  | nameless
  | notText

def directionsClassName (d : Destination) (applicationId : Text) :
    Except NamingFault ClassName :=
  if d.name.isGiven then
    match d.name with
    | .text name =>
      let c := splitName applicationId name
      .ok { c with simple := c.simple ++ directionsSuffix }
    | _ => .error .notText
  else match d.id with
    | some id => .ok ⟨id.package, capitalize id.name ++ directionsSuffix⟩
    | none => .error .nameless

end NavDirections
