import NavDirections.Graph.Fault
import NavDirections.Json.Display
import NavDirections.Text.Lines

/-!
# Filters

A filter works on the text of a value line by line: it indents the lines, or makes comments of them.
Inside a template its options are numbers and texts; called by itself it takes options of any kind,
as long as they can do what is asked of them.
-/

namespace NavDirections

inductive TemplateFilter where
  | indent (levels : Int)
  | comment (mark : Text)
deriving DecidableEq

namespace TemplateFilter

def defaultMark : Text := "//"

/-- Applies a filter, with the indentation of one level. -/
def apply (unit t : Text) : TemplateFilter → Except SizeFault Text
  | indent levels => Text.repeated levels unit >>= t.indentWithin
  | comment mark => t.commentWithin mark

end TemplateFilter

namespace ValueFilter

/-- An indentation some levels deep, which is of use in front of a line only if it is text. -/
inductive Repetition where
  | text (t : Text)
  | noText
deriving DecidableEq

/-- The count that a value is, truth values being zero and one. -/
def count? : Json → Option Int
  | .int n => some n
  | .bool b => some (if b then 1 else 0)
  | _ => none

def isNumber : Json → Bool
  | .int _ | .bool _ | .float _ => true
  | _ => false

def repeatText (t : Text) (times : Json) : Except KindFault Repetition :=
  match count? times with
  | some n => ((Text.repeated n t).mapError .size).map .text
  | none => .error .operand

def repeatList (times : Json) : Except KindFault Repetition :=
  match count? times with
  | some n =>
    match Text.repeatFault? n [] with
    | some fault => .error (.size fault)
    | none => .ok .noText
  | none => .error .operand

/-- One value as many times over as the other says, or the product of two numbers. -/
def repetition (unit levels : Json) : Except KindFault Repetition :=
  match unit, levels with
  | .text t, times | times, .text t => repeatText t times
  | .array _, times | times, .array _ => repeatList times
  | a, b => if isNumber a && isNumber b then .ok .noText else .error .operand

def indent (value unit levels : Json) : Except KindFault Text := do
  match ← repetition unit levels with
  | .text indentation => ((← value.written).indentWithin indentation).mapError .size
  | .noText =>
    let text ← value.written
    if text.lines.all Text.isBlank then .ok (text.indentWith []) else .error .operand

/-- Every line of a value behind a comment mark, which has to be text for a blank line. -/
def comment (value mark : Json) : Except KindFault Text := do
  let text ← value.written
  let mark' ← if text.lines.all Text.isBlank then .ok mark.plain else mark.written
  if mark.text?.isNone && text.lines.any Text.isBlank then .error .operand
  else (text.commentWithin mark').mapError .size

end ValueFilter
end NavDirections
