import NavDirections.Declaration.TypeName
import NavDirections.Number.Decimal
import NavDirections.Text.Quoted

/-!
# Statements

A statement is a format with slots and the arguments that fill them from left to right.  `$T` takes
a type, `$N` a name, `$L` a literal text, `$S` a text to be quoted, and `$$` is a dollar sign.  In
quoted text control characters and surrogates are written as unicode escapes, so that it stays on
one line and can always be stored as UTF-8.
-/

namespace NavDirections

namespace StringLiteral

def escapeLetter? (c : CodePoint) : Option CodePoint :=
  if c = '\x08' then some 'b'
  else if c = '\t' then some 't'
  else if c = '\n' then some 'n'
  else if c = '\x0c' then some 'f'
  else if c = '\r' then some 'r'
  else if c = '"' then some '"'
  else if c = '\\' then some '\\'
  else none

/-- A code point that may not stand for itself: a control character or a surrogate. -/
def needsUnicodeEscape (c : CodePoint) : Bool :=
  c.val < 0x20 || (0x7f ≤ c.val && c.val ≤ 0x9f) || c.isSurrogate

def escapeOne (c : CodePoint) : Text :=
  match escapeLetter? c with
  | some letter => ['\\', letter]
  | none => if needsUnicodeEscape c then "\\u" ++ hexDigits 4 c.val else [c]

def encode (t : Text) : Text := ("\"" : Text) ++ t.flatMap escapeOne ++ "\""

end StringLiteral

inductive SlotValue where
  | text (t : Text)
  | number (n : Int)
  | type (t : TypeName)
  | absent
deriving DecidableEq

namespace SlotValue

/-- The argument as plain text, types with full class names. -/
def plain : SlotValue → Text
  | text t => t
  | number n => Text.ofInt n
  | type t => t.fullName
  | absent => "None"

def isWritable : SlotValue → Bool
  | number n => Integer.isWritable n
  | _ => true

/-- The type that an argument is; a text names one that stands for itself. -/
def type? : SlotValue → Option TypeName
  | text t => some (.plain t)
  | type t => some t
  | _ => none

/-- The argument as a quoted text; nothing is the null literal. -/
def quoted : SlotValue → Text
  | absent => "null"
  | a => StringLiteral.encode a.plain

end SlotValue

inductive Slot where
  | type
  | plain
  | quoted
deriving DecidableEq

/-- The slot that a letter after a dollar sign stands for. -/
def Slot.ofLetter? (c : CodePoint) : Option Slot :=
  if c = 'T' then some .type
  else if c = 'N' ∨ c = 'L' then some .plain
  else if c = 'S' then some .quoted
  else none

structure Statement where
  format : Text
  args : List SlotValue
deriving DecidableEq

/-- Why a format and its arguments do not go together, or an argument cannot be written.  A dollar
sign that ends the format has no letter. -/
inductive StatementFault where
  | missingArgument (letter : Option CodePoint) (format : Text)
  | unknownSlot (letter : Option CodePoint) (format : Text)
  | unusedArguments (format : Text)
  | hugeInteger
deriving DecidableEq

def StatementFault.message : StatementFault → Text
  | missingArgument letter format =>
    "Missing argument for $" ++ letter.toList ++ " in " ++ format.quoted
  | unknownSlot letter format =>
    "Unknown placeholder $" ++ letter.toList ++ " in " ++ format.quoted
  | unusedArguments format => "Unused arguments for " ++ format.quoted
  | hugeInteger => hugeIntegerMessage none

def SlotValue.written (a : SlotValue) : Except StatementFault Text :=
  if a.isWritable then .ok a.plain else .error .hugeInteger

/-- The text that an argument leaves in a slot. -/
def Slot.fill (namer : SlotValue → Except StatementFault Text) (a : SlotValue) :
    Slot → Except StatementFault Text
  | .type => namer a
  | .plain => a.written
  | .quoted => a.written.map fun _ => a.quoted

/-- The same where naming a type is an action. -/
def Slot.fillWith {m : Type → Type} [Monad m] (namer : SlotValue → m Text) (a : SlotValue) :
    Slot → m (Except StatementFault Text)
  | .type => Except.ok <$> namer a
  | .plain => pure a.written
  | .quoted => pure (a.written.map fun _ => a.quoted)

namespace Statement

/-- Fills the slots of `format`, a tail of `whole`, from `args`. -/
def renderFrom (whole : Text) (namer : SlotValue → Except StatementFault Text) :
    (format : Text) → (args : List SlotValue) → Except StatementFault Text
  | [], [] => .ok []
  | [], _ :: _ => .error (.unusedArguments whole)
  | [c], args =>
    if c = '$' then
      match args with
      | [] => .error (.missingArgument none whole)
      | _ :: _ => .error (.unknownSlot none whole)
    else (renderFrom whole namer [] args).map (c :: ·)
  | c :: letter :: rest, args =>
    if c = '$' then
      if letter = '$' then (renderFrom whole namer rest args).map (c :: ·)
      else
        match args with
        | [] => .error (.missingArgument (some letter) whole)
        | a :: args =>
          match Slot.ofLetter? letter with
          | none => .error (.unknownSlot (some letter) whole)
          | some slot => do
            let shown ← slot.fill namer a
            (renderFrom whole namer rest args).map (shown ++ ·)
    else (renderFrom whole namer (letter :: rest) args).map (c :: ·)

def render (namer : SlotValue → Text) (s : Statement) : Except StatementFault Text :=
  renderFrom s.format (.ok ∘ namer) s.format s.args

def fullText (s : Statement) : Except StatementFault Text :=
  renderFrom s.format SlotValue.written s.format s.args

/-- Fills the slots of `format` as `renderFrom` does, with a namer that acts when it is called. -/
def renderFromWith {m : Type → Type} [Monad m] (whole : Text) (namer : SlotValue → m Text) :
    (format : Text) → (args : List SlotValue) → m (Except StatementFault Text)
  | [], [] => pure (.ok [])
  | [], _ :: _ => pure (.error (.unusedArguments whole))
  | [c], args =>
    if c = '$' then
      match args with
      | [] => pure (.error (.missingArgument none whole))
      | _ :: _ => pure (.error (.unknownSlot none whole))
    else (·.map (c :: ·)) <$> renderFromWith whole namer [] args
  | c :: letter :: rest, args =>
    if c = '$' then
      if letter = '$' then (·.map (c :: ·)) <$> renderFromWith whole namer rest args
      else
        match args with
        | [] => pure (.error (.missingArgument (some letter) whole))
        | a :: args =>
          match Slot.ofLetter? letter with
          | none => pure (.error (.unknownSlot (some letter) whole))
          | some slot => do
            match ← slot.fillWith namer a with
            | .error fault => pure (.error fault)
            | .ok shown => (·.map (shown ++ ·)) <$> renderFromWith whole namer rest args
    else (·.map (c :: ·)) <$> renderFromWith whole namer (letter :: rest) args

/-- The text of a statement whose types are named by actions. -/
def renderWith {m : Type → Type} [Monad m] (namer : SlotValue → m Text) (s : Statement) :
    m (Except StatementFault Text) :=
  renderFromWith s.format namer s.format s.args

/-- A statement whose format and arguments go together. -/
def of (format : Text) (args : List SlotValue) : Except StatementFault Statement :=
  (fullText ⟨format, args⟩).map fun _ => ⟨format, args⟩

/-- The arguments of the type slots of `format`; nothing where the arguments run out. -/
def typeArgumentsFrom : (format : Text) → (args : List SlotValue) → Option (List SlotValue)
  | [], _ => some []
  | [c], args => if c = '$' ∧ args = [] then none else some []
  | c :: letter :: rest, args =>
    if c = '$' then
      if letter = '$' then typeArgumentsFrom rest args
      else
        match args with
        | [] => none
        | a :: args =>
          (typeArgumentsFrom rest args).map fun found =>
            if letter = 'T' then a :: found else found
    else typeArgumentsFrom (letter :: rest) args

def typeArguments? (s : Statement) : Option (List SlotValue) := typeArgumentsFrom s.format s.args

end Statement

end NavDirections
