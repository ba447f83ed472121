import NavDirections.FileTree.Path
import NavDirections.Text.Quoted
import NavDirections.Text.Utf8

/-!
# File trees

Files and directories below a working directory, without links.  Reading, writing and making
directories are functions on the tree; a path is followed name by name, and all of its names but the
last have to be directories.  Names and paths may not be too long, and a path with a null in it is
not followed at all.

Two things are simpler than in a system.  A path with a surrogate that stands alone names a file like
any other, where a system may have no bytes for it.  And a path that leaves the working directory and
comes back to it by its name leads to another place, as the name of that directory is not known here.
-/

namespace NavDirections

inductive SystemProblem where
  | missing
  | exists
  | notADirectory
  | isADirectory
  | nameTooLong
deriving DecidableEq

def SystemProblem.number : SystemProblem → Nat
  | missing => 2
  | «exists» => 17
  | notADirectory => 20
  | isADirectory => 21
  | nameTooLong => 36

def SystemProblem.words : SystemProblem → Text
  | missing => "No such file or directory"
  | «exists» => "File exists"
  | notADirectory => "Not a directory"
  | isADirectory => "Is a directory"
  | nameTooLong => "File name too long"

structure SystemFault where
  problem : SystemProblem
  path : FilePath
deriving DecidableEq

def SystemFault.message (f : SystemFault) : Text :=
  "[Errno " ++ Text.ofNat f.problem.number ++ "] " ++ f.problem.words ++ ": "
    ++ f.path.text.quoted

/-- Why a file is not opened or a directory not made. -/
inductive AccessFault where
  | system (f : SystemFault)
  | nullInPath
deriving DecidableEq

def nullInPathMessage : Text := "embedded null byte"

inductive FileEntry where
  | file (content : Bytes)
  | directory
deriving DecidableEq

/-- A place: the names that lead there from the working directory.  Two dots in front lead out of
it, a slash in front to the root of the system. -/
abbrev Place := List Text

structure FileTree where
  entries : List (Place × FileEntry)
deriving DecidableEq

namespace Place

/-- Two dots, the name of an enclosing directory. -/
def dots : Text := ".."

/-- One slash, the name of the root. -/
def slash : Text := "/"

def parent (p : Place) : Place :=
  if p = [slash] then p
  else if p = [] ∨ p.getLast? = some dots then p ++ [dots]
  else p.dropLast

/-- The working directory, the directories around it and the root are always there. -/
def alwaysThere (p : Place) : Bool := p == [slash] || p.all (· == dots)

end Place

namespace FileTree

def empty : FileTree := ⟨[]⟩

def get? (t : FileTree) (p : Place) : Option FileEntry :=
  if Place.alwaysThere p then some .directory else t.entries.lookup p

def set (t : FileTree) (p : Place) (e : FileEntry) : FileTree :=
  ⟨(p, e) :: t.entries.filter (·.1 != p)⟩

/-- An entry is found where it was put, and every other one stays. -/
theorem get?_set (t : FileTree) (p q : Place) (e : FileEntry) (hq : Place.alwaysThere q = false) :
    (t.set p e).get? q = if q = p then some e else t.get? q := by
  simp only [get?, set, hq, Bool.false_eq_true, if_false]
  by_cases h : q = p
  · simp [h]
  · have hne : (q == p) = false := by simpa using h
    simp only [List.lookup_cons, hne, h, if_false]
    induction t.entries with
    | nil => rfl
    | cons entry rest ih =>
      obtain ⟨k, v⟩ := entry
      by_cases hk : k = p
      · have hqk : (q == k) = false := by simpa [hk] using h
        simpa [List.lookup_cons, hk, hne] using ih
      · by_cases hqk : q = k
        · simp [hk, hqk]
        · have hqk' : (q == k) = false := by simpa using hqk
          simpa [List.lookup_cons, hk, hqk'] using ih

/-- The most bytes of a name. -/
def nameLimit : Nat := 255

/-- The most bytes of a path. -/
def pathLimit : Nat := 4095

def byteCount (t : Text) : Nat := (t.flatMap CodePoint.toUtf8).length

/-- Goes from a directory through the names of a path. -/
def follow (t : FileTree) : Place → List Text → Except SystemProblem Place
  | p, [] => .ok p
  | p, name :: rest =>
    match t.get? p with
    | some .directory =>
      if nameLimit < byteCount name then .error .nameTooLong
      else follow t (if name = Place.dots then Place.parent p else p ++ [name]) rest
    | some (.file _) => .error .notADirectory
    | none => .error .missing

/-- The place of a path; nothing needs to lie there. -/
def place (t : FileTree) (path : FilePath) : Except SystemFault Place :=
  if pathLimit < byteCount path.text then .error ⟨.nameTooLong, path⟩
  else
    (t.follow (if path.root.isEmpty then [] else [Place.slash]) path.names).mapError (⟨·, path⟩)

/-! ### Operations -/

/-- Does anything lie at the path?  A path that is too long has no answer. -/
def hasEntry (t : FileTree) (path : FilePath) : Except SystemFault Bool :=
  if path.hasNull then .ok false
  else match t.place path with
    | .ok p => .ok (t.get? p).isSome
    | .error fault => if fault.problem = .nameTooLong then .error fault else .ok false

def hasDirectory (t : FileTree) (path : FilePath) : Bool :=
  match t.place path with
  | .ok p => t.get? p == some .directory
  | .error _ => false

def read (t : FileTree) (path : FilePath) : Except SystemFault Bytes := do
  let p ← t.place path
  match t.get? p with
  | some (.file content) => .ok content
  | some .directory => .error ⟨.isADirectory, path⟩
  | none => .error ⟨.missing, path⟩

def target (t : FileTree) (path : FilePath) : Except AccessFault Place :=
  if path.hasNull then .error .nullInPath else (t.place path).mapError .system

/-- Writes the file at the path, new or in place of an old one. -/
def write (t : FileTree) (path : FilePath) (content : Bytes) : Except AccessFault FileTree := do
  let p ← t.target path
  match t.get? p with
  | some .directory => .error (.system ⟨.isADirectory, path⟩)
  | _ => .ok (t.set p (.file content))

/-- Makes a directory where nothing lies yet. -/
def makeDirectory (t : FileTree) (path : FilePath) : Except AccessFault FileTree := do
  let p ← t.target path
  match t.get? p with
  | some _ => .error (.system ⟨.exists, path⟩)
  | none => .ok (t.set p .directory)

/-- A tree after an attempt, and what stopped the attempt, if anything did. -/
structure Attempt where
  tree : FileTree
  fault : Option AccessFault
deriving DecidableEq

def ensureDirectory (t : FileTree) (path : FilePath) : Attempt :=
  match t.makeDirectory path with
  | .ok t => ⟨t, none⟩
  | .error fault => ⟨t, if t.hasDirectory path then none else some fault⟩

/-- Makes a directory and those around it, unless they are there.  `count` bounds the number of
names of the path. -/
def makeDirectoriesFrom : (count : Nat) → FileTree → FilePath → Attempt
  | 0, t, path => t.ensureDirectory path
  | count + 1, t, path =>
    match t.makeDirectory path with
    | .ok t => ⟨t, none⟩
    | .error fault =>
      if fault = .system ⟨.missing, path⟩ ∧ path.names ≠ [] then
        let outer := makeDirectoriesFrom count t path.parent
        match outer.fault with
        | none => outer.tree.ensureDirectory path
        | some _ => outer
      else ⟨t, if t.hasDirectory path then none else some fault⟩

def makeDirectories (t : FileTree) (path : FilePath) : Attempt :=
  makeDirectoriesFrom path.names.length t path

/-- Writes the file at the path, in directories that are made as needed. -/
def writeDeep (t : FileTree) (path : FilePath) (content : Bytes) : Attempt :=
  let made := t.makeDirectories path.parent
  match made.fault with
  | some _ => made
  | none => match made.tree.write path content with
    | .ok t => ⟨t, none⟩
    | .error fault => ⟨made.tree, some fault⟩

end FileTree
end NavDirections
