import NavDirections.Directions.Basic
import NavDirections.Proofs.Lookup
import NavDirections.Proofs.Success

/-!
# Running generated classes

The statements of generated methods as instructions, and what a class does with them: it makes
objects from given values, sets their fields, and puts fields into a container.  A local variable or
a parameter hides a field of the same name, while `this.x` is always the field.
-/

namespace NavDirections

inductive Instruction where
  | assign (field source : Text)
  | returnThis
  | declare (name : Text)
  | put (receiver key source : Text)
  | returnVariable (name : Text)
  | returnNew (type : TypeName) (names : List Text)

/-- The names of a list that is written with `, ` between neighbours. -/
def listedNames : Text → List Text
  | [] => [[]]
  | [c] => [[c]]
  | c :: d :: rest =>
    if c = ',' ∧ d = ' ' then [] :: listedNames rest
    else match listedNames (d :: rest) with
      | [] => [[c]]
      | name :: names => (c :: name) :: names

theorem listedNames_ne_nil (t : Text) : listedNames t ≠ [] := by
  match t with
  | [] => simp [listedNames]
  | [c] => simp [listedNames]
  | c :: d :: rest =>
    rw [listedNames]
    split
    · simp
    · split <;> simp

/-- The code point before a list of names belongs to the first of them. -/
theorem listedNames_cons {c d : CodePoint} {rest name : Text} {names : List Text}
    (h : ¬(c = ',' ∧ d = ' ')) (hrest : listedNames (d :: rest) = name :: names) :
    listedNames (c :: d :: rest) = (c :: name) :: names := by
  rw [listedNames, if_neg h, hrest]

/-- A text before the mark is listed on its own: no mark begins in the one and ends in the other. -/
theorem listedNames_append (t rest : Text) :
    listedNames (t ++ ", " ++ rest) = listedNames t ++ listedNames rest := by
  have hmark : listedNames (", " ++ rest) = [] :: listedNames rest := by
    show listedNames (',' :: ' ' :: rest) = _
    rw [listedNames, if_pos ⟨rfl, rfl⟩]
  match t with
  | [] => exact hmark
  | [c] =>
    have hc : ¬(c = (',' : CodePoint) ∧ (',' : CodePoint) = ' ') := fun h => absurd h.2 (by decide)
    exact listedNames_cons hc hmark
  | c :: d :: t =>
    by_cases h : c = ',' ∧ d = ' '
    · have ih := listedNames_append t rest
      show listedNames (c :: d :: (t ++ ", " ++ rest)) = _
      rw [listedNames, if_pos h, listedNames, if_pos h, ih]
      rfl
    · have ih := listedNames_append (d :: t) rest
      obtain ⟨name, names, ht⟩ := List.exists_cons_of_ne_nil (listedNames_ne_nil (d :: t))
      rw [ht] at ih
      rw [listedNames_cons h ht]
      exact listedNames_cons h ih

theorem listedNames_joinWith {names : List Text} (h : names ≠ []) :
    listedNames (Text.joinWith ", " names) = names.flatMap listedNames := by
  match names with
  | [] => exact absurd rfl h
  | [name] => simp [Text.joinWith]
  | name :: next :: rest =>
    rw [Text.joinWith, listedNames_append, listedNames_joinWith (List.cons_ne_nil next rest)]
    rfl

theorem hasPart_mark_cons (c d : CodePoint) (rest : Text) :
    Text.hasPart ", " (c :: d :: rest) =
      (decide (c = ',' ∧ d = ' ') || Text.hasPart ", " (d :: rest)) := by
  have hstart : Text.startsWith (c :: d :: rest) ", " = decide (c = ',' ∧ d = ' ') := by
    show (Text.dropStart? (',' :: ' ' :: []) (c :: d :: rest)).isSome = _
    by_cases hc : (',' : CodePoint) = c
    · by_cases hd : (' ' : CodePoint) = d
      · simp [Text.dropStart?, ← hc, ← hd]
      · simp [Text.dropStart?, ← hc, hd, Ne.symm hd]
    · simp [Text.dropStart?, hc, Ne.symm hc]
  rw [Text.hasPart, hstart]

theorem hasPart_mark_single (c : CodePoint) : Text.hasPart ", " [c] = false := by
  show (Text.startsWith [c] (',' :: ' ' :: []) || false) = false
  by_cases hc : (',' : CodePoint) = c
  · simp [Text.startsWith, Text.dropStart?, hc]
  · simp [Text.startsWith, Text.dropStart?, hc]

/-- A text without the mark is one name; with the mark it is taken for more. -/
theorem listedNames_of_hasPart (t : Text) :
    if Text.hasPart ", " t then 1 < (listedNames t).length else listedNames t = [t] := by
  induction t using listedNames.induct with
  | case1 => rfl
  | case2 c =>
    rw [hasPart_mark_single]
    rfl
  | case3 c d rest h _ =>
    rw [hasPart_mark_cons, decide_eq_true h, Bool.true_or, if_pos rfl, listedNames, if_pos h,
      List.length_cons]
    have := List.length_pos_iff.mpr (listedNames_ne_nil rest)
    omega
  | case4 c d rest _ hrest _ => exact absurd hrest (listedNames_ne_nil (d :: rest))
  | case5 c d rest h name names hrest ih =>
    rw [hasPart_mark_cons, decide_eq_false h, Bool.false_or, listedNames_cons h hrest]
    rw [hrest] at ih
    split at ih
    next hpart =>
      rw [if_pos hpart]
      exact ih
    next hpart =>
      rw [if_neg hpart]
      cases ih
      rfl

/-- The names between the parentheses of a call; between `(` and `)` there are none. -/
def argumentNames (t : Text) : List Text := if t.isEmpty then [] else listedNames t

theorem argumentNames_joinWith {names : List Text} (hnames : ∀ name ∈ names, name ≠ []) :
    argumentNames (Text.joinWith ", " names) = names.flatMap listedNames := by
  match names with
  | [] => rfl
  | name :: rest =>
    have hne : Text.joinWith ", " (name :: rest) ≠ [] := by
      have hname := hnames name List.mem_cons_self
      cases rest with
      | nil => exact hname
      | cons next rest => simp [Text.joinWith, hname]
    rw [argumentNames, if_neg (by simpa using hne), listedNames_joinWith (List.cons_ne_nil _ _)]

theorem argumentNames_of_unmarked {names : List Text} (hnames : ∀ name ∈ names, name ≠ [])
    (hmarks : ∀ name ∈ names, Text.hasPart ", " name = false) :
    argumentNames (Text.joinWith ", " names) = names := by
  have hone : ∀ name ∈ names, listedNames name = [name] := by
    intro name hname
    have hlisted := listedNames_of_hasPart name
    rwa [if_neg (by rw [hmarks name hname]; exact Bool.false_ne_true)] at hlisted
  rw [argumentNames_joinWith hnames, List.flatMap_congr hone, List.flatMap_singleton']

theorem length_lt_argumentNames {names : List Text} (hnames : ∀ name ∈ names, name ≠ [])
    {marked : Text} (hmem : marked ∈ names) (hmark : Text.hasPart ", " marked = true) :
    names.length < (argumentNames (Text.joinWith ", " names)).length := by
  rw [argumentNames_joinWith hnames]
  clear hnames
  have hpos (name : Text) : 0 < (listedNames name).length :=
    List.length_pos_iff.mpr (listedNames_ne_nil name)
  have hle (names : List Text) : names.length ≤ (names.flatMap listedNames).length := by
    induction names with
    | nil => exact Nat.zero_le _
    | cons name rest ih =>
      rw [List.flatMap_cons, List.length_append, List.length_cons]
      have := hpos name
      omega
  induction names with
  | nil => cases hmem
  | cons name rest ih =>
    rw [List.flatMap_cons, List.length_append, List.length_cons]
    rcases List.mem_cons.mp hmem with rfl | hrest
    · have hlisted := listedNames_of_hasPart marked
      rw [if_pos hmark] at hlisted
      have := hle rest
      omega
    · have := hpos name
      have := ih hrest
      omega

/-- The instruction of a statement, for those that handle fields and arguments. -/
def Statement.instruction? (s : Statement) : Option Instruction :=
  if s.format = ("this.$N = $N" : Text) then
    match s.args with
    | [.text field, .text source] => some (.assign field source)
    | _ => none
  else if s.format = ("return this" : Text) then
    match s.args with
    | [] => some .returnThis
    | _ => none
  else if s.format = ("$T $N = new $T()" : Text) then
    match s.args with
    | [.type t, .text name, .type u] => if t = u then some (.declare name) else none
    | _ => none
  else if s.format = ("$N.$N($S, $N)" : Text) then
    match s.args with
    | [.text receiver, .text _, .text key, .text source] => some (.put receiver key source)
    | _ => none
  else if s.format = ("return $N" : Text) then
    match s.args with
    | [.text name] => some (.returnVariable name)
    | _ => none
  else if s.format = ("return new $T($L)" : Text) then
    match s.args with
    | [.type t, .text names] => some (.returnNew t (argumentNames names))
    | _ => none
  else none

/-- What a variable stands for: a value from outside, the value of an initial expression, the
container of the method that runs, or nothing yet. -/
inductive Value (V : Type) where
  | given (v : V)
  | literal (expression : Text)
  | container
  | unset

abbrev Bindings (V : Type) := List (Text × Value V)

namespace Bindings

variable {V : Type}

/-- Changes the value of a variable that there is. -/
def assign? (name : Text) (v : Value V) : Bindings V → Option (Bindings V)
  | [] => none
  | (n, w) :: rest =>
    if n = name then some ((n, v) :: rest) else (assign? name v rest).map ((n, w) :: ·)

/-- Replaces the value under a key, or adds an entry at the end. -/
def put (key : Text) (v : Value V) : Bindings V → Bindings V
  | [] => [(key, v)]
  | (k, w) :: rest => if k = key then (k, v) :: rest else (k, w) :: put key v rest

section Tables

variable {α : Type} {key : α → Text} {value : α → Value V} {xs : List α} {x : α}

theorem assign?_table (hkeys : (xs.map key).Nodup) (hx : x ∈ xs) (v : Value V) :
    assign? (key x) v (xs.map fun y => (key y, value y)) =
      some (xs.map fun y => (key y, if key y = key x then v else value y)) := by
  induction xs with
  | nil => cases hx
  | cons y ys ih =>
    rw [List.map_cons, List.nodup_cons] at hkeys
    rw [List.map_cons, assign?, List.map_cons]
    by_cases h : key y = key x
    · have hrest : ∀ z ∈ ys, key z ≠ key x := fun z hz hzx =>
        hkeys.1 (h.trans hzx.symm ▸ List.mem_map_of_mem hz)
      rw [if_pos h, if_pos h]
      congr 2
      refine List.map_congr_left fun z hz => ?_
      rw [if_neg (hrest z hz)]
    · have hx : x ∈ ys := by
        rcases List.mem_cons.mp hx with rfl | hx
        · exact absurd rfl h
        · exact hx
      rw [if_neg h, if_neg h, ih hkeys.2 hx]
      rfl

end Tables

theorem put_of_notMem {key : Text} {v : Value V} {entries : Bindings V}
    (h : key ∉ entries.map Prod.fst) : put key v entries = entries ++ [(key, v)] := by
  induction entries with
  | nil => rfl
  | cons entry rest ih =>
    obtain ⟨k, w⟩ := entry
    rw [List.map_cons, List.mem_cons, not_or] at h
    rw [put, if_neg (Ne.symm h.1), ih h.2]
    rfl

theorem lookup_zip_given (names : List Text) (values : List V) (name : Text) :
    (names.zip (values.map Value.given)).lookup name =
      ((names.zip values).lookup name).map Value.given := by
  induction names generalizing values with
  | nil => rfl
  | cons n names ih =>
    cases values with
    | nil => rfl
    | cons v vs =>
      rw [List.map_cons, List.zip_cons_cons, List.zip_cons_cons, List.lookup_cons,
        List.lookup_cons, ih]
      cases name == n <;> rfl

end Bindings

/-- Where a method is: its parameters and variables, the fields of its object, and what its
container holds. -/
structure Frame (V : Type) where
  locals : Bindings V
  fields : Bindings V
  entries : Bindings V

/-- A name stands for a local variable before a field. -/
def Frame.valueOf? {V : Type} (f : Frame V) (name : Text) : Option (Value V) :=
  (f.locals.lookup name).or (f.fields.lookup name)

/-- What a method gives back: its object as it is then, the container, or a class to make an object
of and the values for that. -/
inductive Result (V : Type) where
  | object (fields : Bindings V)
  | container (entries : Bindings V)
  | creation (type : TypeName) (values : List (Value V))

/-- The result of the instructions from a frame on; after the last one the object is given back. -/
def runAll {V : Type} : List Instruction → Frame V → Option (Result V)
  | [], f => some (.object f.fields)
  | .assign field source :: rest, f => do
    let v ← f.valueOf? source
    let fields ← f.fields.assign? field v
    runAll rest { f with fields }
  | .returnThis :: _, f => some (.object f.fields)
  | .declare name :: rest, f =>
    if (f.locals.lookup name).isSome then none
    else runAll rest ⟨(name, .container) :: f.locals, f.fields, []⟩
  | .put receiver key source :: rest, f =>
    match f.valueOf? receiver with
    | some .container => do
      let v ← f.valueOf? source
      runAll rest { f with entries := f.entries.put key v }
    | _ => none
  | .returnVariable name :: _, f =>
    match f.valueOf? name with
    | some .container => some (.container f.entries)
    | _ => none
  | .returnNew type names :: _, f => do
    let values ← names.mapM f.valueOf?
    some (.creation type values)

theorem runAll_assign {V : Type} {f : Frame V} {field source : Text} {v : Value V}
    {fields : Bindings V} (hvalue : f.valueOf? source = some v)
    (hassign : f.fields.assign? field v = some fields) (rest : List Instruction) :
    runAll (.assign field source :: rest) f = runAll rest { f with fields } := by
  rw [runAll, hvalue, Option.bind_eq_bind, Option.bind_some, hassign]
  rfl

theorem runAll_put {V : Type} {f : Frame V} {receiver key source : Text} {v : Value V}
    (hreceiver : f.valueOf? receiver = some .container) (hvalue : f.valueOf? source = some v)
    (rest : List Instruction) :
    runAll (.put receiver key source :: rest) f =
      runAll rest { f with entries := f.entries.put key v } := by
  rw [runAll, hreceiver]
  simp only [hvalue]
  rfl

/-- The result of a method on an object with the given fields. -/
def Method.run {V : Type} (m : Method) (fields : Bindings V) (values : List (Value V)) :
    Option (Result V) :=
  if m.parameters.length = values.length then do
    let instructions ← m.statements.mapM (·.instruction?)
    runAll instructions ⟨(m.parameters.map (·.name)).zip values, fields, []⟩
  else none

theorem Method.run_eq {V : Type} {m : Method} {values : List (Value V)}
    {instructions : List Instruction} (hlength : m.parameters.length = values.length)
    (hstatements : List.Forall₂ (fun s i => s.instruction? = some i) m.statements instructions)
    (fields : Bindings V) :
    m.run fields values =
      runAll instructions ⟨(m.parameters.map (·.name)).zip values, fields, []⟩ := by
  rw [run, if_pos hlength, Success.mapM_some.mpr hstatements]
  rfl

theorem Method.run_of_length_ne {V : Type} {m : Method} {values : List (Value V)}
    (hlength : m.parameters.length ≠ values.length) (fields : Bindings V) :
    m.run fields values = none := if_neg hlength

/-! ### Classes -/

def Field.initial {V : Type} (f : Field) : Text × Value V :=
  (f.name, match f.initializer with
    | some expression => .literal expression
    | none => .unset)

namespace ClassDecl

variable {V : Type}

def create (d : ClassDecl) (values : List (Value V)) : Option (Bindings V) := do
  let m ← d.constructor?
  match ← m.run (d.fields.map Field.initial) values with
  | .object fields => some fields
  | _ => none

/-- The fields of the object that a static method of the holding class makes; the object has to be
one of this class. -/
def createBy (d : ClassDecl) (maker : Method) (values : List V) : Option (Bindings V) := do
  match ← maker.run [] (values.map .given) with
  | .creation type values => if type = .ofClass ⟨[], d.name⟩ then d.create values else none
  | _ => none

/-- The setter of a field is told from others of its name by its parameter. -/
def setter? (d : ClassDecl) (name : Text) : Option Method :=
  d.methods.find? fun m =>
    m.name == setterName name && m.parameters.map (·.name) == [name] && !m.isConstructor

def callSetter (d : ClassDecl) (fields : Bindings V) (call : Text × V) : Option (Bindings V) := do
  let m ← d.setter? call.1
  match ← m.run fields [.given call.2] with
  | .object fields => some fields
  | _ => none

/-- The entries of the container that an object gives for its arguments. -/
def entries (d : ClassDecl) (fields : Bindings V) : Option (Bindings V) := do
  let m ← (d.method "getArguments").toOption
  match ← m.run fields [] with
  | .container entries => some entries
  | _ => none

/-- The entries of the container after an object was made and setters were called on it, one after
another. -/
def runThrough (d : ClassDecl) (maker : Method) (values : List V) (calls : List (Text × V)) :
    Option (Bindings V) := do
  let made ← d.createBy maker values
  let changed ← calls.foldlM d.callSetter made
  d.entries changed

end ClassDecl
end NavDirections
