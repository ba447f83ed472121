import NavDirections.Declaration.Class

/-!
# Imports

Decides how each class is spelled inside one file.  A class goes by its short name and is imported
while that name is free; where the file declares a class of the name, or an earlier class has it,
the full name is used.
-/

namespace NavDirections

/-- The spellings chosen so far in a file: whom each short name belongs to, how each class is
spelled, and what is imported.  The names that the file declares belong to nobody.  Some classes are
outside the file's package even if theirs has the same name. -/
structure Imports where
  package : Text
  outside : List ClassName
  owners : List (Text × Text)
  spellings : List (ClassName × Text)
  imported : List Text

namespace Imports

/-- Nothing is spelled yet in a file of a package that declares some names. -/
def start (package : Text) (outside : List ClassName) (declared : List Text) : Imports :=
  ⟨package, outside, declared.map (·, []), [], []⟩

def spelling? (t : Imports) (c : ClassName) : Option Text := t.spellings.lookup c

def owner? (t : Imports) (short : Text) : Option Text := t.owners.lookup short

/-- A type as the file spells it; a class without a spelling goes by its full name. -/
def spell (t : Imports) : TypeName → Text
  | .plain name => name
  | .ofClass c => (t.spelling? c).getD c.canonical
  | .array component => t.spell component ++ "[]"
  | .absent => TypeName.absent.fullName

def sorted (t : Imports) : List Text := t.imported.mergeSort (fun a b => !decide (b < a))

/-- The package whose classes need no import. -/
def languagePackage : Text := "java.lang"

/-- The name that a class claims in the file, and its spelling if the name is free.  Inside its own
package a nested class goes by its outermost class, elsewhere by its own name. -/
def shortNames (t : Imports) (c : ClassName) : Text × Text :=
  if c.package = t.package then
    (((c.simple.cutFirst? '.').map (·.1)).getD c.simple, c.simple)
  else (c.reference, c.reference)

def insertName (name : Text) (names : List Text) : List Text :=
  if names.contains name then names else names ++ [name]

/-- Does a class need no import?  Those of the language and of the file's own package do not. -/
def isAtHand (t : Imports) (c : ClassName) : Bool :=
  c.package == languagePackage || (c.package == t.package && !t.outside.contains c)

/-- Chooses the spelling of a class, unless it has one already.  A class without a package is one
of the file itself. -/
def addClass (t : Imports) (c : ClassName) : Imports :=
  if (t.spelling? c).isSome then t
  else if c.package = [] then { t with spellings := (c, c.simple) :: t.spellings }
  else
    let (short, spelled) := t.shortNames c
    if (t.owner? short).all (· == c.canonical) then
      { t with
        owners := (short, c.canonical) :: t.owners
        spellings := (c, spelled) :: t.spellings
        imported := if t.isAtHand c then t.imported else insertName c.canonical t.imported }
    else { t with spellings := (c, c.canonical) :: t.spellings }

def add (t : Imports) (type : TypeName) : Imports :=
  match type.class? with
  | some c => t.addClass c
  | none => t

def name (t : Imports) (type : TypeName) : Imports × Text :=
  let chosen := t.add type
  (chosen, chosen.spell type)

def addAll (t : Imports) (types : List TypeName) : Imports := types.foldl add t

end Imports
end NavDirections
