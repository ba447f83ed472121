import NavDirections.FileTree.Basic
import NavDirections.Generation.Basic

/-!
# Writing sources

Sources are written below an output directory.  All of them are turned into bytes before the first
file is touched, so a text that has no UTF-8 form leaves the files as they are.
-/

namespace NavDirections

inductive OutputError where
  | notEncodable (path : Text) (f : LoneSurrogates)
  | system (target : FilePath) (f : SystemFault)

def OutputError.message : OutputError → Text
  | notEncodable path f => "Cannot encode " ++ path ++ " as UTF-8: " ++ f.message
  | system target f => "Error writing " ++ target.text ++ ": " ++ f.message

/-- Why the writing of sources ends: with a report, or at a path with a null in it. -/
inductive OutputFault where
  | reported (e : OutputError)
  | nullInPath

namespace OutputFault

def ofAccess (target : FilePath) : AccessFault → OutputFault
  | .system f => .reported (.system target f)
  | .nullInPath => .nullInPath

end OutputFault

structure OutputFile where
  target : FilePath
  content : Bytes
deriving DecidableEq

namespace Sources

def encode (root : FilePath) : Sources → Except OutputError (List OutputFile)
  | [] => .ok []
  | (path, source) :: rest => do
    let content ← source.toUtf8.mapError (.notEncodable path)
    let files ← encode root rest
    .ok (⟨root.join (.ofText path), content⟩ :: files)

end Sources

/-- Writes files in turn until one fails.  The answer holds the tree and the paths written. -/
def writeFiles (t : FileTree) : List OutputFile → FileTree × Except OutputFault (List FilePath)
  | [] => (t, .ok [])
  | file :: rest =>
    let attempt := t.writeDeep file.target file.content
    match attempt.fault with
    | some fault => (attempt.tree, .error (.ofAccess file.target fault))
    | none =>
      let (t, written) := writeFiles attempt.tree rest
      (t, written.map (file.target :: ·))

def Sources.write (sources : Sources) (t : FileTree) (root : FilePath) :
    FileTree × Except OutputFault (List FilePath) :=
  match sources.encode root with
  | .ok files => writeFiles t files
  | .error e => (t, .error (.reported e))

end NavDirections
