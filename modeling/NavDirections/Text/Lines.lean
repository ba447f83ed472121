import NavDirections.Text.Basic
import NavDirections.Text.Blank

/-!
# Lines

Text as lines that end with a line feed.  Indenting and commenting work line by line and leave
blank lines bare.
-/

namespace NavDirections

inductive SizeFault where
  /-- The count of copies is no size of anything. -/
  | countOutOfRange
  | copies
  | parts
deriving DecidableEq

def SizeFault.message : SizeFault → Text
  | countOutOfRange => "cannot fit 'int' into an index-sized integer"
  | copies => "repeated string is too long"
  | parts => "strings are too large to concat"

namespace Text

def sizeLimit : Nat := Nat.pow 2 63

def repeatFault? (count : Int) (t : Text) : Option SizeFault :=
  if count < -(sizeLimit : Int) ∨ (sizeLimit : Int) ≤ count then some .countOutOfRange
  else if 1 < count ∧ sizeLimit ≤ count.toNat * t.length then some .copies
  else none

/-- As many copies of a text as `count` says, where they are not too many. -/
def repeated (count : Int) (t : Text) : Except SizeFault Text :=
  match repeatFault? count t with
  | some fault => .error fault
  | none => .ok (copies count t)

end Text

inductive Indentation where
  | tab
  | blanks (count : Nat)
deriving DecidableEq

def Indentation.text : Indentation → Text
  | tab => "\t"
  | blanks count => List.replicate count (CodePoint.ofChar ' ')

namespace Text

/-- The lines of a text; there is always at least one. -/
def lines (t : Text) : List Text := t.splitOn '\n'

def ofLines (lines : List Text) : Text := joinWith "\n" lines

/-- The text of some lines, where they are not too long together. -/
def ofLinesWithin (lines : List Text) : Except SizeFault Text :=
  if (ofLines lines).length < sizeLimit then .ok (ofLines lines) else .error .parts

/-- The text with a line feed for every line end of another form. -/
def unifyLineEnds : Text → Text
  | [] => []
  | [c] => [if c = '\r' then '\n' else c]
  | c :: d :: rest =>
    if c = '\r' then
      if d = '\n' then '\n' :: unifyLineEnds rest else '\n' :: unifyLineEnds (d :: rest)
    else c :: unifyLineEnds (d :: rest)

/-- A line behind an indentation; a blank one is emptied. -/
def indentLine (indentation line : Text) : Text := if line.isBlank then [] else indentation ++ line

def indentWith (t indentation : Text) : Text := ofLines (t.lines.map (indentLine indentation))

def indentWithin (t indentation : Text) : Except SizeFault Text :=
  ofLinesWithin (t.lines.map (indentLine indentation))

/-- Every line some levels deeper, a level being one `unit`. -/
def indent (t : Text) (unit : Text) (levels : Int) : Text := t.indentWith (copies levels unit)

/-- A line behind a comment mark; of a blank one only the mark is left. -/
def commentLine (mark line : Text) : Text := if line.isBlank then mark else mark ++ " " ++ line

def comment (t mark : Text) : Text := ofLines (t.lines.map (commentLine mark))

def commentWithin (t mark : Text) : Except SizeFault Text :=
  ofLinesWithin (t.lines.map (commentLine mark))

end Text

end NavDirections
