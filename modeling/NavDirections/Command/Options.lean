import NavDirections.Number.Decimal

/-!
# Options

Reads the arguments of the command line.  Each argument is first classified by its form alone: an
option, possibly with a value attached, or a plain argument.  Long options may be shortened as far
as they stay unique, and everything behind two dashes is plain.  Then the arguments are taken in
order, so that a request for help counts unless something before it is wrong.
-/

namespace NavDirections

inductive OptionKey where
  | help
  | version
  | logLevel
  | url
  | stdin
  | applicationId
  | config
  | outputDir
  | dryRun
  | noComments
  | indentSize
  | navigationPackage
  | verbose
deriving DecidableEq

def OptionKey.takesValue : OptionKey → Bool
  | logLevel | url | applicationId | config | outputDir | indentSize | navigationPackage => true
  | help | version | stdin | dryRun | noComments | verbose => false

abbrev OptionTable := List (Text × OptionKey)

def generalOptions : OptionTable :=
  [("-h", .help), ("--help", .help), ("--version", .version), ("--log-level", .logLevel)]

def inputOptions : OptionTable :=
  [("-h", .help), ("--help", .help), ("--url", .url), ("--stdin", .stdin),
   ("--application-id", .applicationId), ("--app-id", .applicationId), ("--config", .config)]

def generateOptions : OptionTable :=
  let own : OptionTable :=
    [("--output-dir", .outputDir), ("-o", .outputDir), ("--dry-run", .dryRun),
     ("--no-comments", .noComments), ("--indent-size", .indentSize),
     ("--navigation-package", .navigationPackage), ("--verbose", .verbose)]
  inputOptions ++ own

inductive Command where
  | generate
  | inspect
deriving DecidableEq

namespace Command

def ofName? (name : Text) : Option Command :=
  if name = ("generate" : Text) then some generate
  else if name = ("inspect" : Text) then some inspect
  else none

def options : Command → OptionTable
  | generate => generateOptions
  | inspect => inputOptions

end Command

/-- A value in the same argument as its option. -/
inductive AttachedValue where
  | nothing
  | equals (value : Text)
  /-- Right behind the letter of a short option. -/
  | direct (value : Text)
deriving DecidableEq

inductive ArgumentForm where
  | plain
  | separator
  | known (key : OptionKey) (value : AttachedValue)
  | unknown
deriving DecidableEq

abbrev ClassifiedArgument := Text × ArgumentForm

/-- A minus and a decimal number, with an optional line feed at the end. -/
def isNegativeNumber (t : Text) : Bool :=
  let isDigit (c : CodePoint) : Bool := c.digitValue?.isSome
  match (Text.dropEnd? "\n" t).getD t with
  | c :: number =>
    c == '-' && match Text.cutFirst? '.' number with
      | some (whole, fraction) => whole.all isDigit && !fraction.isEmpty && fraction.all isDigit
      | none => !number.isEmpty && number.all isDigit
  | [] => false

namespace OptionTable

/-- The options that an argument may stand for when it is none of the spellings: those that it
begins, or the short one that begins it. -/
def candidates (table : OptionTable) (arg : Text) : List ArgumentForm :=
  if arg.startsWith (Text.ofString "--") then
    let (start, value) := match arg.cutFirst? '=' with
      | some (start, value) => (start, AttachedValue.equals value)
      | none => (arg, .nothing)
    (table.filter fun (spelling, _) => spelling.startsWith start).map fun (_, key) =>
      .known key value
  else
    (table.filter fun (spelling, _) => spelling == arg.take 2).map fun (_, key) =>
      .known key (.direct (arg.drop 2))

/-- Is a spelling one letter behind one dash? -/
def isShort (spelling : Text) : Bool := !spelling.startsWith (Text.ofString "--")

/-- The option and value of an argument with an equals sign behind a whole spelling; behind a short
one the sign makes no difference. -/
def assignment? (table : OptionTable) (arg : Text) : Option ArgumentForm := do
  let (spelling, value) ← arg.cutFirst? '='
  let key ← table.lookup spelling
  return .known key (if isShort spelling then .direct value else .equals value)

/-- The form of an argument; there is none if it may stand for several options. -/
def form? (table : OptionTable) (arg : Text) : Option ArgumentForm :=
  if arg.length < 2 || arg.head? != some (CodePoint.ofChar '-') then some .plain
  else match table.lookup arg, table.assignment? arg, table.candidates arg with
    | some key, _, _ => some (.known key .nothing)
    | none, some form, _ => some form
    | none, none, [form] => some form
    | none, none, [] =>
      if isNegativeNumber arg || arg.contains (CodePoint.ofChar ' ') then some .plain
      else some .unknown
    | none, none, _ => none

/-- Two dashes, behind which everything is plain. -/
def separator : Text := "--"

def classify? (table : OptionTable) : List Text → Option (List ClassifiedArgument)
  | [] => some []
  | arg :: rest =>
    if arg = separator then some ((arg, .separator) :: rest.map (·, .plain))
    else do
      let form ← table.form? arg
      let others ← classify? table rest
      return (arg, form) :: others

/-- Are the letters behind a short option short options themselves?  One that takes a value has the
letters after it, or else the next argument, for its value. -/
def lettersFit (table : OptionTable) (plainFollows : Bool) : Text → Bool
  | [] => true
  | c :: letters =>
    match table.lookup [CodePoint.ofChar '-', c] with
    | none => false
    | some key =>
      if key.takesValue then !letters.isEmpty || plainFollows
      else lettersFit table plainFollows letters

end OptionTable

/-- What the user has chosen.  The level of the log may have been taken away again. -/
structure Options where
  logLevel : Option Text
  file : Option Text
  url : Option Text
  stdin : Bool
  applicationId : Option Text
  config : Option Text
  outputDir : Option Text
  dryRun : Bool
  noComments : Bool
  indentSize : Option Int
  navigationPackage : Option Text
  verbose : Bool

inductive Stop where
  | help
  | version
  | badUsage
deriving DecidableEq

def Stop.code : Stop → Nat
  | help | version => 0
  | badUsage => 2

namespace Options

def none : Options where
  logLevel := some "WARNING"
  file := .none
  url := .none
  stdin := false
  applicationId := .none
  config := .none
  outputDir := .none
  dryRun := false
  noComments := false
  indentSize := .none
  navigationPackage := .none
  verbose := false

def logLevels : List Text := ["DEBUG", "INFO", "WARNING", "ERROR"]

def setFile (o : Options) (file : Text) : Except Stop Options :=
  if o.url.isSome || o.stdin then .error .badUsage else .ok { o with file := some file }

def setValue (o : Options) (key : OptionKey) (value : Text) : Except Stop Options :=
  match key with
  | .logLevel =>
    if logLevels.contains value then .ok { o with logLevel := some value } else .error .badUsage
  | .url =>
    if o.file.isSome || o.stdin then .error .badUsage else .ok { o with url := some value }
  | .applicationId => .ok { o with applicationId := some value }
  | .config => .ok { o with config := some value }
  | .outputDir => .ok { o with outputDir := some value }
  | .indentSize =>
    match Integer.scan? value with
    | some n => .ok { o with indentSize := some n }
    | _ => .error .badUsage
  | .navigationPackage => .ok { o with navigationPackage := some value }
  | .help | .version | .stdin | .dryRun | .noComments | .verbose => .error .badUsage

/-- Takes an option without a value. -/
def setFlag (o : Options) (key : OptionKey) : Except Stop Options :=
  match key with
  | .help => .error .help
  | .version => .error .version
  | .stdin =>
    if o.file.isSome || o.url.isSome then .error .badUsage else .ok { o with stdin := true }
  | .dryRun => .ok { o with dryRun := true }
  | .noComments => .ok { o with noComments := true }
  | .verbose => .ok { o with verbose := true }
  | .logLevel | .url | .applicationId | .config | .outputDir | .indentSize
  | .navigationPackage => .error .badUsage

/-- Takes an option without the value that it should have.  That counts as a choice of nothing. -/
def clearValue (o : Options) (key : OptionKey) : Except Stop Options :=
  match key with
  | .logLevel => .ok { o with logLevel := .none }
  | .indentSize => .ok { o with indentSize := some 0 }
  | key => o.setValue key []

/-- Takes an option with a value attached to it; two dashes are no value. -/
def setAttachedValue (o : Options) (key : OptionKey) (value : Text) : Except Stop Options :=
  if value = OptionTable.separator then o.clearValue key else o.setValue key value

/-- Takes an option with what is attached to it.  The only flag that letters may follow asks for
help, so those letters have no effect of their own. -/
def setAttached (table : OptionTable) (o : Options) (key : OptionKey) (plainFollows : Bool) :
    AttachedValue → Except Stop Options
  | .nothing => o.setFlag key
  | .equals value => if key.takesValue then o.setAttachedValue key value else .error .badUsage
  | .direct value =>
    if key.takesValue then o.setAttachedValue key value
    else if !value.isEmpty && table.lettersFit plainFollows value then o.setFlag key
    else .error .badUsage

end Options

/-! ### Reading -/

def plainFollows : List ClassifiedArgument → Bool
  | (_, .plain) :: _ => true
  | _ => false

/-- Reads the arguments of a command.  Its only plain argument is a file.  The answer also tells
whether some argument was not understood. -/
def readOptions (table : OptionTable) (o : Options) (surplus : Bool) :
    List ClassifiedArgument → Except Stop (Options × Bool)
  | [] => .ok (o, surplus)
  | (_, .unknown) :: rest => readOptions table o true rest
  | (_, .known key .nothing) :: rest =>
    if key.takesValue then
      match rest with
      | (value, .plain) :: rest => do readOptions table (← o.setValue key value) surplus rest
      | _ => .error .badUsage
    else do readOptions table (← o.setFlag key) surplus rest
  | (_, .known key value) :: rest => do
    readOptions table (← o.setAttached table key (plainFollows rest) value) surplus rest
  | (arg, .plain) :: (_, .separator) :: rest =>
    if o.file.isSome then .ok (o, true)
    else do .ok (← o.setFile arg, surplus || !rest.isEmpty)
  | (arg, .plain) :: rest =>
    if o.file.isSome then readOptions table o true rest
    else do readOptions table (← o.setFile arg) surplus rest
  | (_, .separator) :: (arg, _) :: rest =>
    if o.file.isSome then .ok (o, true)
    else do .ok (← o.setFile arg, surplus || !rest.isEmpty)
  | [(_, .separator)] => .ok (o, surplus || o.file.isSome)

def readCommand (c : Command) (o : Options) (surplus : Bool) (args : List Text) :
    Except Stop Options :=
  match c.options.classify? args with
  | none => .error .badUsage
  | some args => do
    let (o, surplus) ← readOptions c.options o surplus args
    if surplus then .error .badUsage else .ok o

structure CommandLine where
  command : Option Command
  options : Options

/-- Reads the arguments up to the name of a command, if there is one. -/
def readGeneral (o : Options) (surplus : Bool) :
    List ClassifiedArgument → Except Stop CommandLine
  | [] => if surplus then .error .badUsage else .ok ⟨none, o⟩
  | (_, .unknown) :: rest => readGeneral o true rest
  | (_, .known key .nothing) :: rest =>
    if key.takesValue then
      match rest with
      | (value, .plain) :: rest => do readGeneral (← o.setValue key value) surplus rest
      | _ => .error .badUsage
    else do readGeneral (← o.setFlag key) surplus rest
  | (_, .known key value) :: rest => do
    readGeneral (← o.setAttached generalOptions key (plainFollows rest) value) surplus rest
  | (name, .plain) :: rest =>
    match Command.ofName? name with
    | some c => (readCommand c o surplus (rest.map (·.1))).map (⟨some c, ·⟩)
    | none => .error .badUsage
  | (_, .separator) :: _ => .error .badUsage

def readCommandLine (args : List Text) : Except Stop CommandLine :=
  match generalOptions.classify? args with
  | some args => readGeneral .none false args
  | none => .error .badUsage

end NavDirections
