import NavDirections.Text.Quoted

/-!
# Logging

Levels of the log go by number; some of the numbers have names.  Two more names of the log mean
something else than a level and are refused.  All loggers are below one of their own.
-/

namespace NavDirections

namespace LogLevel

def named : List (Text × Int) :=
  [("CRITICAL", 50), ("FATAL", 50), ("ERROR", 40), ("WARNING", 30), ("WARN", 30), ("INFO", 20),
   ("DEBUG", 10), ("NOTSET", 0)]

/-- The level where nothing else is known. -/
def default : Int := 30

/-- The capital of a letter whose capital is ASCII: the dotless i and the long s have such a capital
too, and a joined s and t have two. -/
def capital (c : CodePoint) : Text :=
  if h : 0x61 ≤ c.val ∧ c.val ≤ 0x7a then [⟨c.val - 0x20, by omega⟩]
  else if c = 'ı' then "I"
  else if c = 'ſ' then "S"
  else if c = 'ﬅ' ∨ c = 'ﬆ' then "ST"
  else [c]

/-- Why a name gives no level: it names a text, which is none, or a table. -/
inductive Fault where
  | unknown (value : Text)
  | notALevel
deriving DecidableEq

def unknownMessage (value : Text) : Text := "Unknown level: " ++ value.quoted

/-- The names that mean something else: the format of a line, and the table of formats. -/
def refused : List (Text × Fault) :=
  [("BASIC_FORMAT", .unknown "%(levelname)s:%(name)s:%(message)s"), ("_STYLES", .notALevel)]

/-- The number of a level from its name in letters of either case. -/
def ofName (name : Text) : Except Fault Int :=
  let capitals := name.flatMap capital
  match refused.lookup capitals with
  | some fault => .error fault
  | none => .ok ((named.lookup capitals).getD default)

end LogLevel

namespace Logger

/-- The name of the logger above all others. -/
def top : Text := "safeargs"

/-- The full name of a logger: names that do not begin with the top one are put below it. -/
def fullName (name : Text) : Text :=
  if name = top ∨ name.startsWith (top ++ ".") then name else top ++ "." ++ name

end Logger
end NavDirections
