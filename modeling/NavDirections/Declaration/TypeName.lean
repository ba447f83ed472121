import NavDirections.Text.Case

/-!
# Names of types

A class is known by its package and its name inside the package, which is dotted for nested
classes.  Types are classes, arrays, and names that stand for themselves such as `int`.
-/

namespace NavDirections

/-- A class by package and name; the name of a nested class is dotted. -/
structure ClassName where
  package : Text
  simple : Text
deriving DecidableEq

namespace ClassName

/-- The full name; a class of the empty package has no dot in front. -/
def canonical (c : ClassName) : Text :=
  if c.package = [] then c.simple else c.package ++ "." ++ c.simple

/-- The last segment of the name, by which an imported class is known. -/
def reference (c : ClassName) : Text :=
  match c.simple.cutLast? '.' with
  | some (_, last) => last
  | none => c.simple

/-- Does a segment look like the name of a class? -/
def isCapitalized (segment : Text) : Bool := (segment.head?.map CodePoint.isUpper).getD false

/-- Cuts the segments of a full name in front of the first capitalized one, or in front of the
last where none is. -/
def splitSegments : List Text → List Text × List Text
  | [] => ([], [])
  | [last] => ([], [last])
  | segment :: next :: rest =>
    if isCapitalized segment then ([], segment :: next :: rest)
    else
      let (package, simple) := splitSegments (next :: rest)
      (segment :: package, simple)

/-- The class that a full name most likely denotes: its package ends before the first capitalized
segment. -/
def bestGuess (canonical : Text) : ClassName :=
  let (package, simple) := splitSegments (canonical.splitOn '.')
  ⟨Text.joinWith "." package, Text.joinWith "." simple⟩

theorem splitSegments_append (segments : List Text) :
    (splitSegments segments).1 ++ (splitSegments segments).2 = segments := by
  fun_induction splitSegments segments with
  | case1 => rfl
  | case2 => rfl
  | case3 => rfl
  | case4 segment next rest _ package simple h ih => simpa [h] using ih

end ClassName

/-- A type: a name that stands for itself, a class, or an array of a type.  A description may leave
a type open. -/
inductive TypeName where
  | plain (name : Text)
  | ofClass (c : ClassName)
  | array (component : TypeName)
  | absent
deriving DecidableEq

def TypeName.fullName : TypeName → Text
  | plain name => name
  | ofClass c => c.canonical
  | array component => component.fullName ++ "[]"
  | absent => "None"

/-- The class that a type is, or is an array of. -/
def TypeName.class? : TypeName → Option ClassName
  | plain _ | absent => none
  | ofClass c => some c
  | array component => component.class?

end NavDirections
