import NavDirections.Template.Engine
import NavDirections.Template.Filter

/-!
# Places for values

A fragment of the usual language of templates: text with places for values, written
`\x7b\x7b name \x7d\x7d`, each with filters that work on its text one after another.  Some names stand for
constants, and some mean something wherever no value is given for them.  A template ends without the
line feed that its source ends with.  Statements, comments and other expressions are no part of the
fragment, which refuses every source that has them; nothing in it loads another template.
-/

namespace NavDirections

inductive TemplateOperand where
  | constant (t : Text)
  | named (name : Text)
deriving DecidableEq

namespace TemplateOperand

/-- The names of constants, with the text of each. -/
def constants : List (Text × Text) :=
  [("true", "True"), ("True", "True"), ("false", "False"), ("False", "False"), ("none", "None"),
   ("None", "None")]

def ofName (name : Text) : TemplateOperand :=
  match constants.lookup name with
  | some t => constant t
  | none => named name

end TemplateOperand

inductive TemplatePart where
  | plain (t : Text)
  | value (operand : TemplateOperand) (filters : List TemplateFilter)
deriving DecidableEq

structure Template where
  setting : TemplateSetting
  parts : List TemplatePart

namespace Template

/-- The text with line feeds for all line ends, and without one of them at its end. -/
def normalize (source : Text) : Text :=
  let unified := Text.unifyLineEnds source
  (Text.dropEnd? "\n" unified).getD unified

def number? (t : Text) : Option Int :=
  let digits? (t : Text) : Option Nat :=
    if t.isEmpty || !t.all CodePoint.isAsciiDigit || (Text.startsWith t "0" && t ≠ "0") ||
      integerDigitLimit < t.length then none
    else some (t.foldl (fun n c => n * 10 + (c.val - 0x30)) 0)
  match Text.dropStart? "-" t with
  | some rest => (digits? rest).map fun n => -(n : Int)
  | none => (digits? t).map fun n => (n : Int)

/-- The text between two quotes of one kind, with no quote or backslash inside. -/
def literal? (t : Text) : Option Text :=
  match t with
  | [] => none
  | quote :: rest =>
    if quote = '"' ∨ quote = '\'' then
      (Text.dropEnd? [quote] rest).filter fun inside =>
        !inside.contains quote && !inside.contains (CodePoint.ofChar '\\')
    else none

/-- The filter of a name and the text of its option, which may be empty. -/
def filterOf? (name option : Text) : Option TemplateFilter :=
  if name = ("indent" : Text) then
    if option.isEmpty then some (.indent 1) else (number? option).map .indent
  else if name = ("comment" : Text) then
    if option.isEmpty then some (.comment TemplateFilter.defaultMark)
    else (literal? option).map .comment
  else none

def filter? (t : Text) : Option TemplateFilter :=
  let t := t.strip
  match t.cutFirst? '(' with
  | some (name, rest) => (Text.dropEnd? ")" rest).bind fun option => filterOf? name.strip option.strip
  | none => filterOf? t []

/-- Names that are no places for values in the whole language. -/
def reservedNames : List Text :=
  ["and", "or", "not", "if", "else", "is", "in", "lipsum", "cycler", "joiner", "namespace"]

def isPlaceName (t : Text) : Bool :=
  !t.isEmpty && t.all (fun c => c.isAsciiLetter || c.isAsciiDigit || c == '_') &&
    !(t.head?.any (·.isAsciiDigit)) && !reservedNames.contains t

def value? (t : Text) : Option TemplatePart :=
  match t.splitOn '|' with
  | [] => none
  | name :: filters => do
    let filters ← filters.mapM filter?
    let name := name.strip
    if isPlaceName name then some (.value (.ofName name) filters) else none

/-- The text before and after the first occurrence of a mark of two equal braces. -/
def cutAt? (mark : CodePoint) : Text → Option (Text × Text)
  | [] | [_] => none
  | c :: d :: rest =>
    if c = mark ∧ d = mark then some ([], rest)
    else (cutAt? mark (d :: rest)).map fun (before, after) => (c :: before, after)

theorem cutAt?_length {mark : CodePoint} {t before after : Text}
    (h : cutAt? mark t = some (before, after)) : after.length + 2 ≤ t.length := by
  induction t generalizing before with
  | nil => simp [cutAt?] at h
  | cons c rest ih =>
    cases rest with
    | nil => simp [cutAt?] at h
    | cons d rest =>
      simp only [cutAt?] at h
      split at h
      · simp only [Option.some.injEq, Prod.mk.injEq] at h
        obtain ⟨-, rfl⟩ := h
        simp
      · simp only [Option.map_eq_some_iff, Prod.mk.injEq] at h
        obtain ⟨⟨b, a⟩, hcut, -, rfl⟩ := h
        have := ih hcut
        simp only [List.length_cons] at this ⊢
        omega

def parts? (t : Text) : Option (List TemplatePart) :=
  match ho : cutAt? '{' t with
  | none => some [.plain t]
  | some (before, rest) =>
    match hc : cutAt? '}' rest with
    | none => none
    | some (inside, after) => do
      have := cutAt?_length ho
      have := cutAt?_length hc
      let value ← value? inside
      let others ← parts? after
      return .plain before :: value :: others
termination_by t.length
decreasing_by omega

/-- Does a statement or a comment begin anywhere in the text? -/
def hasTag : Text → Bool
  | c :: d :: rest => (c == '\x7b' && (d == '%' || d == '#')) || hasTag (d :: rest)
  | _ => false

def ofSource (source : Text) : Option (List TemplatePart) :=
  if hasTag source then none else parts? (normalize source)

/-! ### Rendering -/

def escapeMarkup (c : CodePoint) : Text :=
  if c = '&' then "&amp;"
  else if c = '<' then "&lt;"
  else if c = '>' then "&gt;"
  else if c = '"' then "&#34;"
  else if c = '\'' then "&#39;"
  else [c]

end Template

structure TemplateContext extends TemplateSetting where
  values : List (Text × Json)

namespace TemplateContext

/-- What names mean where no value is given for them. -/
def inherent (c : TemplateContext) : List (Text × Text) :=
  [(templateOwnName, "<TemplateReference " ++ (c.name.map Text.quoted).getD "None" ++ ">"),
   ("range", "<class 'range'>"), ("dict", "<class 'dict'>")]

def textOf (c : TemplateContext) : TemplateOperand → Except TemplateProblem Text
  | .constant t => .ok t
  | .named name =>
    match Json.find? name c.values, c.inherent.lookup name with
    | some v, _ => if v.isWritable then .ok v.plain else .error .hugeInteger
    | none, some t => .ok t
    | none, none => .error (.undefined name)

end TemplateContext

namespace Template

def renderPart (c : TemplateContext) : TemplatePart → Except TemplateProblem Text
  | .plain t => .ok t
  | .value operand filters => do
    let start ← c.textOf operand
    let t ← (filters.foldlM (TemplateFilter.apply c.unit) start).mapError .size
    .ok (if c.escape then t.flatMap escapeMarkup else t)

/-- The fragment as a language. -/
def fragment : TemplateLanguage Template Json where
  compile setting source :=
    match ofSource source with
    | some parts => .ok ⟨setting, parts⟩
    | none => .error "malformed template"
  render _ values template :=
    (template.parts.mapM (renderPart ⟨template.setting, values⟩)).map List.flatten

end Template
end NavDirections
