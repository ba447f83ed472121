import NavDirections.Generation.Output
import NavDirections.Loading.Basic
import NavDirections.Settings.File

/-!
# Reports

What a run of the program prints, in order, what it leaves behind, and how it ends.  Lines consist
of pieces with a colour each, and the markup of a piece puts the name of its colour around it in
brackets.  The console finds brackets in the texts themselves as well and takes them for markup; it
refuses what does not fit together, such as an end without a beginning, and that ends the run.
-/

namespace NavDirections

inductive Colour where
  | red
  | green
  | yellow
  | cyan
deriving DecidableEq

def Colour.name : Colour → Text
  | red => "red"
  | green => "green"
  | yellow => "yellow"
  | cyan => "cyan"

structure Piece where
  colour : Option Colour
  text : Text
deriving DecidableEq

namespace Piece

/-- A piece in the colour of its surroundings. -/
def plain (t : Text) : Piece := ⟨none, t⟩

def inColour (c : Colour) (t : Text) : Piece := ⟨some c, t⟩

def markup (p : Piece) : Text :=
  match p.colour with
  | some c => "[" ++ c.name ++ "]" ++ p.text ++ "[/" ++ c.name ++ "]"
  | none => p.text

end Piece

inductive Printed where
  | line (pieces : List Piece)
  | source (path code : Text)
  | table (title : Text) (columns : List Text) (rows : List (List Text))
deriving DecidableEq

/-- What the console is able to show. -/
abbrev Console := Printed → Bool

inductive CommandError where
  | invalidInput (e : JsonSyntaxError)
  | noInput
  | noOutputDir

def CommandError.message : CommandError → Text
  | invalidInput e => "Invalid JSON input: " ++ e.message
  | noInput => "Input source required (file, --url, or --stdin)"
  | noOutputDir => "--output-dir is required unless --dry-run is given"

inductive CommandFault where
  | command (e : CommandError)
  | settings (f : SettingsFault)
  | load (f : LoadFault)
  | output (f : OutputFault)
  | breakdown (b : Breakdown)
  /-- The console refuses this. -/
  | unshown (p : Printed)

def CommandFault.message? : CommandFault → Option Text
  | command e => some e.message
  | settings (.reported e) => some e.message
  | load (.reported e) => some e.message
  | output (.reported e) => some e.message
  | settings _ | load _ | output _ | breakdown _ | unshown _ => none

/-- How a run ends: with an exit code, or with a fault that nothing handles. -/
inductive Ending where
  | exit (code : Nat)
  | broken (f : CommandFault)

/-- What a run prints, the files after it, and how it ends. -/
structure Report where
  printed : List Printed
  files : FileTree
  ending : Ending

namespace Report

/-- Prints one thing after another and ends with a code.  What cannot be put into words or is not
shown ends the run there and then. -/
def print (shows : Console) (printed : List Printed) (files : FileTree) (code : Nat) :
    List (Except CommandFault Printed) → Report
  | [] => ⟨printed, files, .exit code⟩
  | .error f :: _ => ⟨printed, files, .broken f⟩
  | .ok p :: rest =>
    if shows p then print shows (printed ++ [p]) files code rest
    else ⟨printed, files, .broken (.unshown p)⟩

def failure (shows : Console) (printed : List Printed) (pieces : List Piece) (files : FileTree) :
    Report :=
  print shows printed files 1 [.ok (.line pieces)]

/-- A run that a fault ends: one that has a wording is printed. -/
def fault (shows : Console) (printed : List Printed) (f : CommandFault) (files : FileTree) :
    Report :=
  match f.message? with
  | some message => failure shows printed [.inColour .red "✗ Error:", .plain (" " ++ message)] files
  | none => ⟨printed, files, .broken f⟩

end Report

end NavDirections
