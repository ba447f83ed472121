import NavDirections.Text.Basic

/-!
# Paths

A path is a root and the names below it.  Doubled slashes and names of one dot do not count; two
dots stay, because what they mean depends on the files.
-/

namespace NavDirections

/-- A path; its root is empty for a relative path, else one slash or two. -/
structure FilePath where
  root : Text
  names : List Text
deriving DecidableEq

namespace FilePath

/-- Names that count: neither empty nor a single dot. -/
def isName (name : Text) : Bool := !name.isEmpty && name != Text.ofString "."

def namesOf (t : Text) : List Text := (t.splitOn '/').filter isName

/-- The path of a text.  Exactly two slashes in front are kept as they are. -/
def ofText (t : Text) : FilePath :=
  let slashes := (t.takeWhile fun c : CodePoint => c == '/').length
  let root : Text := if slashes = 0 then [] else if slashes = 2 then "//" else "/"
  ⟨root, namesOf t⟩

/-- The second path below the first; one with a root stands for itself. -/
def join (a b : FilePath) : FilePath := if b.root.isEmpty then ⟨a.root, a.names ++ b.names⟩ else b

/-- The text of a path; that of nothing is a dot. -/
def text (p : FilePath) : Text :=
  let t := p.root ++ Text.joinWith "/" p.names
  if t.isEmpty then "." else t

/-- Does a name of the path hold a null?  The system takes no such path. -/
def hasNull (p : FilePath) : Bool := p.names.any (·.contains 0)

def parent (p : FilePath) : FilePath := ⟨p.root, p.names.dropLast⟩

/-- The last name, from its last dot on, where that is neither its first nor its last letter. -/
def suffix (p : FilePath) : Text :=
  match p.names.getLast? with
  | none => []
  | some name => match name.cutLast? '.' with
    | some (before, after) => if before.isEmpty || after.isEmpty then [] else '.' :: after
    | none => []

/-- Does the path end in `.json`, in letters of either case? -/
def isJson (p : FilePath) : Bool := p.suffix.map CodePoint.toAsciiLower == Text.ofString ".json"

end FilePath
end NavDirections
