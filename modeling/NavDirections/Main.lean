import NavDirections.Command.Run

/-!
# The program on a real system

Looks up the files that a run may touch, runs the program on them, and carries out what it reports.
Everything that is decided is decided by `run`; the first run here only tells which files to look up
for the second.
-/

namespace NavDirections.System

/-- The characters of a text; a surrogate has none and becomes a replacement character. -/
def stringOf (t : Text) : String := String.ofList (t.map fun c => c.toChar?.getD '\ufffd')

def pathOf (p : Place) : FilePath := .ofText (Text.joinWith Place.slash p)

/-- What an open file holds: a directory can be opened like a file, but not be read. -/
def handleEntry (handle : IO.FS.Handle) : IO FileEntry :=
  try return .file (← handle.readBinToEnd).toList catch _ => return .directory

def diskEntry (path : FilePath) : IO (Option FileEntry) :=
  try return some (← handleEntry (← IO.FS.Handle.mk (stringOf path.text) .read))
  catch _ => return none

def lookUp (t : FileTree) (path : FilePath) : IO FileTree := do
  let mut tree := t
  for count in List.range path.names.length do
    let outer : FilePath := ⟨path.root, path.names.take (count + 1)⟩
    if let .ok place := tree.place outer then
      if let some entry ← diskEntry outer then
        tree := tree.set place entry
  return tree

def changes (before after : FileTree) : List (Place × FileEntry) :=
  (after.entries.filter fun (p, e) => before.entries.lookup p != some e).reverse

def store (p : Place) : FileEntry → IO Unit
  | .directory => IO.FS.createDirAll (stringOf (pathOf p).text)
  | .file content => IO.FS.writeBinFile (stringOf (pathOf p).text) ⟨content.toArray⟩

/-- Brackets nest at most as deep as a document is long, so this is no limit. -/
def depthOf (files : FileTree) (input : String) : Nat :=
  files.entries.foldl (fun depth (_, entry) =>
    match entry with
    | .directory => depth
    | .file content => max depth content.length) input.length

def colourCode : Colour → String
  | .red => "\x1b[31m"
  | .green => "\x1b[32m"
  | .yellow => "\x1b[33m"
  | .cyan => "\x1b[36m"

def showPiece (p : Piece) : String :=
  match p.colour with
  | some c => colourCode c ++ stringOf p.text ++ "\x1b[0m"
  | none => stringOf p.text

/-- A row of a table with its cells filled up to the widths of the columns. -/
def showRow (widths : List Nat) (cells : List Text) : String :=
  let padded := (cells.zip widths).map fun (cell, width) =>
    stringOf cell ++ String.ofList (List.replicate (width - cell.length) ' ')
  String.intercalate "  " padded

/-- What is printed, as lines of the terminal. -/
def showPrinted : Printed → List String
  | .line pieces => [String.join (pieces.map showPiece)]
  | .source path code => ["--- " ++ stringOf path ++ " ---", stringOf code]
  | .table title columns rows =>
    let widths := columns.zipIdx.map fun (column, i) =>
      rows.foldl (fun width row => max width ((row[i]?.getD []).length)) column.length
    stringOf title :: (columns :: rows).map (showRow widths)

/-- How the program is called. -/
def usage : String :=
  "usage: safeargs [-h] [--version] [--log-level LEVEL] \x7bgenerate,inspect\x7d ..."

partial def readAll (stream : IO.FS.Stream) (start : String) : IO String := do
  let line ← stream.getLine
  if line.isEmpty then return start else readAll stream (start ++ line)

end NavDirections.System

open NavDirections NavDirections.System in
/-- Runs the program with the arguments of the command line.  There is no network here, so every
request fails to connect; and the terminal takes no text for markup, so it shows everything. -/
def main (args : List String) : IO UInt32 := do
  let args := args.map Text.ofString
  let choice := readCommandLine args
  let named : List FilePath := match choice with
    | .ok ⟨some _, o⟩ => (o.file.toList ++ o.config.toList).map FilePath.ofText
    | _ => []
  let input ← match choice with
    | .ok ⟨some _, o⟩ => if o.stdin then readAll (← IO.getStdin) "" else pure ""
    | _ => pure ""
  let files ← named.foldlM lookUp FileTree.empty
  let surroundings : Surroundings :=
    ⟨files, Text.ofString input, .failed .connection, depthOf files input, fun _ => true⟩
  let touched := changes files (run args surroundings).files
  let files ← (touched.map fun (p, _) => pathOf p).foldlM lookUp files
  let report := run args { surroundings with files }
  for (place, entry) in changes files report.files do
    store place entry
  for printed in report.printed do
    for line in showPrinted printed do
      IO.println line
  match choice with
  | .error .version => IO.println (stringOf versionText)
  | .error .help | .ok ⟨none, _⟩ => IO.println usage
  | .error .badUsage => IO.eprintln usage
  | .ok ⟨some _, _⟩ => pure ()
  match report.ending with
  | .exit code => return .ofNat code
  | .broken _ =>
    IO.eprintln "safeargs: a value of the wrong kind, or one that cannot be read, ended the run"
    return 1
