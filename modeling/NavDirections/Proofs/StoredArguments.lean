import NavDirections.Proofs.Execution
import NavDirections.Proofs.HeldArguments
import Mathlib.Data.List.Nodup

/-!
# What a generated class stores

The class of an action is made from the values of its required arguments, its setters change the
optional ones, and its container gets all of them.  Every member is run on a table that gives each
held argument its value.
-/

namespace NavDirections

open Success

variable {V : Type}

theorem HeldArgument.instruction?_assignment (h : HeldArgument) :
    h.assignment.instruction? = some (.assign h.name h.name) := rfl

theorem HeldArgument.instruction?_put (h : HeldArgument) (container : Text) :
    (h.put container).instruction? = some (.put container h.name h.name) := rfl

theorem find?_of_unique {α : Type} {p : α → Bool} {xs : List α} {x : α} (hx : x ∈ xs)
    (hp : p x = true) (hunique : ∀ y ∈ xs, p y = true → y = x) : xs.find? p = some x := by
  cases h : xs.find? p with
  | none => exact absurd hp (List.find?_eq_none.mp h x hx)
  | some y => rw [hunique y (List.mem_of_find?_eq_some h) (List.find?_some h)]

theorem Action.constructor?_classOf (a : Action) (host : HostClasses) (held : ArgumentList) :
    (a.classOf host held).constructor? = some (held.constructorOf (actionClassName a.id)) := rfl

theorem Action.method_classOf (a : Action) (host : HostClasses) (held : ArgumentList) :
    (a.classOf host held).method "getArguments" = .ok (held.containerMethod host.container) := by
  have hfind : (a.classOf host held).methods.find?
      (fun m => m.name == ("getArguments" : Text) && !m.isConstructor) =
        some (held.containerMethod host.container) := by
    have hself : (("getArguments" : Text) == "getArguments" && !false) = true := by decide
    have hid : (("getDestinationId" : Text) == "getArguments" && !false) = false := by decide
    have hoptions : (("getOptions" : Text) == "getArguments" && !false) = false := by decide
    refine find?_of_unique (mem_methods_classOf.mpr (.inr (.inr (.inl rfl)))) hself ?_
    intro m hm hp
    rcases mem_methods_classOf.mp hm with rfl | ⟨h, -, rfl⟩ | rfl | rfl | rfl
    · simp [ArgumentList.constructorOf] at hp
    · have hname : setterName h.name ≠ ("getArguments" : Text) := by
        intro heq
        have hfirst : some ('s' : CodePoint) = some ('g' : CodePoint) := congrArg List.head? heq
        exact absurd hfirst (by decide)
      simp [HeldArgument.setter, hname] at hp
    · rfl
    · exact absurd (hid.symm.trans hp) (by decide)
    · exact absurd (hoptions.symm.trans hp) (by decide)
  rw [ClassDecl.method, hfind]

theorem Action.setter?_classOf {a : Action} {host : HostClasses} {held : ArgumentList}
    (hnames : (held.map (·.name)).Nodup) {h : HeldArgument}
    (hh : h ∈ ArgumentList.optional held) :
    (a.classOf host held).setter? h.name = some (h.setter ⟨[], actionClassName a.id⟩) := by
  refine find?_of_unique (mem_methods_classOf.mpr (.inr (.inl ⟨h, hh, rfl⟩))) ?_ ?_
  · simp [HeldArgument.setter, HeldArgument.parameter]
  intro m hm hp
  rcases mem_methods_classOf.mp hm with rfl | ⟨k, hk, rfl⟩ | rfl | rfl | rfl
  · simp [ArgumentList.constructorOf] at hp
  · have hname : k.name = h.name := by
      simp only [HeldArgument.setter, HeldArgument.parameter, List.map_cons, List.map_nil,
        Bool.and_eq_true, beq_iff_eq, List.cons.injEq, and_true] at hp
      exact hp.1.2
    rw [List.inj_on_of_nodup_map hnames (List.mem_of_mem_filter hk) (List.mem_of_mem_filter hh)
      hname]
  · simp [ArgumentList.containerMethod] at hp
  · simp [destinationIdMethod] at hp
  · simp [optionsMethod] at hp

def ArgumentList.table (held : ArgumentList) (value : HeldArgument → Value V) : Bindings V :=
  held.map fun h => (h.name, value h)

theorem ArgumentList.table_inj {held : ArgumentList} {value other : HeldArgument → Value V} :
    held.table value = held.table other ↔ ∀ h ∈ held, value h = other h := by
  rw [table, table, List.map_inj_left]
  simp only [Prod.mk.injEq, true_and]

/-- The names of the parameters of the constructor. -/
def ArgumentList.requiredNames (held : ArgumentList) : List Text := (required held).map (·.name)

theorem ArgumentList.length_requiredNames (held : ArgumentList) :
    held.requiredNames.length = (required held).length := List.length_map _

/-- The parameters of the constructor with the values that they got. -/
def ArgumentList.passed (held : ArgumentList) (values : List (Value V)) : Bindings V :=
  held.requiredNames.zip values

theorem runAll_puts {ks : ArgumentList} (hks : (ks.map (·.name)).Nodup) {container : Text}
    {locals fields : Bindings V} {shown : HeldArgument → Value V}
    (hcontainer : ∀ e, Frame.valueOf? ⟨locals, fields, e⟩ container = some .container)
    (hshown : ∀ k ∈ ks, ∀ e, Frame.valueOf? ⟨locals, fields, e⟩ k.name = some (shown k))
    (entries : Bindings V) (hfresh : ∀ k ∈ ks, k.name ∉ entries.map Prod.fst)
    (rest : List Instruction) :
    runAll (ks.map (fun k => .put container k.name k.name) ++ rest) ⟨locals, fields, entries⟩ =
      runAll rest ⟨locals, fields, entries ++ ArgumentList.table ks shown⟩ := by
  induction ks generalizing entries with
  | nil => simp [ArgumentList.table]
  | cons k ks ih =>
    rw [List.map_cons, List.nodup_cons] at hks
    have hput : entries.put k.name (shown k) = entries ++ [(k.name, shown k)] :=
      Bindings.put_of_notMem (hfresh k List.mem_cons_self)
    rw [List.map_cons, List.cons_append,
      runAll_put (hcontainer entries) (hshown k List.mem_cons_self entries), hput]
    rw [ih hks.2 (fun j hj => hshown j (List.mem_cons_of_mem k hj)), List.append_assoc]
    · rfl
    · intro j hj hmem
      rw [List.map_append, List.mem_append] at hmem
      rcases hmem with hmem | hmem
      · exact hfresh j (List.mem_cons_of_mem k hj) hmem
      · have hjk : j.name = k.name := by simpa using hmem
        exact hks.1 (hjk ▸ List.mem_map_of_mem hj)

def lastCall? (name : Text) : List (Text × V) → Option V
  | [] => none
  | (n, v) :: rest => (lastCall? name rest).or (if n = name then some v else none)

section Runs

variable {held : ArgumentList} (hnames : (held.map (·.name)).Nodup)

include hnames

theorem ArgumentList.name_inj {h k : HeldArgument} (hh : h ∈ held) (hk : k ∈ held) :
    h.name = k.name ↔ h = k :=
  ⟨List.inj_on_of_nodup_map hnames hh hk, congrArg _⟩

open scoped Classical in
/-- Assignments from parameters change the fields of these names and no others. -/
theorem runAll_assignments {ks : ArgumentList} (hks : ∀ k ∈ ks, k ∈ held) {locals : Bindings V}
    {taken : HeldArgument → Value V} (hlocals : ∀ k ∈ ks, locals.lookup k.name = some (taken k))
    (value : HeldArgument → Value V) (entries : Bindings V) (rest : List Instruction) :
    runAll (ks.map (fun k => .assign k.name k.name) ++ rest)
        ⟨locals, held.table value, entries⟩ =
      runAll rest ⟨locals, held.table fun k => if k ∈ ks then taken k else value k, entries⟩ := by
  induction ks generalizing value with
  | nil => simp
  | cons k ks ih =>
    have hk := hks k List.mem_cons_self
    have hvalue : Frame.valueOf? ⟨locals, held.table value, entries⟩ k.name = some (taken k) := by
      rw [Frame.valueOf?, hlocals k List.mem_cons_self]
      rfl
    have hassign : Bindings.assign? k.name (taken k) (held.table value) =
        some (held.table fun y => if y.name = k.name then taken k else value y) :=
      Bindings.assign?_table hnames hk (taken k)
    rw [List.map_cons, List.cons_append, runAll_assign hvalue hassign]
    rw [ih (fun j hj => hks j (List.mem_cons_of_mem k hj))
      (fun j hj => hlocals j (List.mem_cons_of_mem k hj))]
    congr 2
    refine ArgumentList.table_inj.mpr fun j hj => ?_
    simp only [ArgumentList.name_inj hnames hj hk]
    by_cases hjks : j ∈ ks
    · simp [hjks]
    · by_cases hjk : j = k
      · simp [hjk]
      · simp [hjks, hjk]

/-- The value of a field after the constructor ran: its default, or what the parameter got. -/
def HeldArgument.startValue (parameters : Bindings V) (h : HeldArgument) : Value V :=
  match h.initializer with
  | some expression => .literal expression
  | none => (parameters.lookup h.name).getD .unset

theorem ArgumentList.requiredNames_nodup : held.requiredNames.Nodup :=
  (List.filter_sublist.map _).nodup hnames

theorem ArgumentList.lookup_passed {values : List (Value V)}
    (hlength : (ArgumentList.required held).length = values.length) {k : HeldArgument}
    (hk : k ∈ ArgumentList.required held) :
    (held.passed values).lookup k.name = some (k.startValue (held.passed values)) := by
  have hcount : held.requiredNames.length = values.length :=
    held.length_requiredNames.trans hlength
  have hzip := lookup_zip (requiredNames_nodup hnames) hcount
  obtain ⟨v, -, hv⟩ := partner_of_mem_left hzip (List.mem_map_of_mem hk)
  have hinit : k.initializer = none := by
    have hrequired : k.isRequired = true := List.of_mem_filter hk
    simpa [HeldArgument.isRequired] using hrequired
  rw [HeldArgument.startValue, hinit, passed, hv]
  rfl

/-- The constructor leaves every field with its default or with what the parameter got. -/
theorem create_classOf (a : Action) (host : HostClasses) {values : List (Value V)}
    (hlength : (ArgumentList.required held).length = values.length) :
    (a.classOf host held).create values =
      some (held.table (HeldArgument.startValue (held.passed values))) := by
  have hrequired : ∀ k ∈ ArgumentList.required held, k ∈ held := fun k hk =>
    List.mem_of_mem_filter hk
  have hstatements : List.Forall₂ (fun s i => s.instruction? = some i)
      (held.constructorOf (actionClassName a.id)).statements
      ((ArgumentList.required held).map fun k => .assign k.name k.name) :=
    List.forall₂_map_left_iff.mpr (List.forall₂_map_right_iff.mpr
      (List.forall₂_same.mpr fun k _ => k.instruction?_assignment))
  have hparams : (held.constructorOf (actionClassName a.id)).parameters.length = values.length :=
    (List.length_map _).trans hlength
  have hnamesOf : (held.constructorOf (actionClassName a.id)).parameters.map (·.name) =
      held.requiredNames := List.map_map
  have hfields : (a.classOf host held).fields.map Field.initial =
      held.table fun h => (h.field.initial (V := V)).2 := List.map_map
  have hassigned := runAll_assignments hnames hrequired
    (fun k hk => ArgumentList.lookup_passed hnames hlength hk) (fun h => (h.field.initial).2) [] []
  rw [List.append_nil] at hassigned
  rw [ClassDecl.create, a.constructor?_classOf, Option.bind_eq_bind, Option.bind_some, hfields,
    Method.run_eq hparams hstatements, hnamesOf, ← ArgumentList.passed, hassigned]
  show some (held.table _) = some (held.table _)
  refine congrArg some (ArgumentList.table_inj.mpr fun h hh => ?_)
  by_cases hreq : h ∈ ArgumentList.required held
  · exact if_pos hreq
  · have hinit : h.isRequired = false := by
      by_contra hr
      exact hreq (List.mem_filter.mpr ⟨hh, by simpa using hr⟩)
    obtain ⟨expression, he⟩ : ∃ e, h.initializer = some e := by
      simpa [HeldArgument.isRequired, Option.isNone_eq_false_iff, Option.isSome_iff_exists]
        using hinit
    simp only [if_neg hreq, HeldArgument.startValue, Field.initial, HeldArgument.field, he]

theorem callSetter_classOf (a : Action) (host : HostClasses) {h : HeldArgument}
    (hh : h ∈ ArgumentList.optional held) (v : V) (value : HeldArgument → Value V) :
    (a.classOf host held).callSetter (held.table value) (h.name, v) =
      some (held.table fun k => if k.name = h.name then .given v else value k) := by
  have hmem : h ∈ held := List.mem_of_mem_filter hh
  have hstatements : List.Forall₂ (fun s i => s.instruction? = some i)
      (h.setter ⟨[], actionClassName a.id⟩).statements
      [.assign h.name h.name, .returnThis] :=
    .cons h.instruction?_assignment (.cons rfl .nil)
  have hassign : Bindings.assign? h.name (.given v) (held.table value) =
      some (held.table fun k => if k.name = h.name then .given v else value k) :=
    Bindings.assign?_table hnames hmem (.given v)
  have hvalue : Frame.valueOf? ⟨[(h.name, .given v)], held.table value, []⟩ h.name =
      some (.given v) := by
    rw [Frame.valueOf?, List.lookup_cons_self]
    rfl
  have hrun : (h.setter ⟨[], actionClassName a.id⟩).run (held.table value) [.given v] =
      some (.object (held.table fun k => if k.name = h.name then .given v else value k)) := by
    rw [Method.run_eq rfl hstatements]
    exact runAll_assign hvalue hassign [.returnThis]
  rw [ClassDecl.callSetter, Action.setter?_classOf hnames hh, Option.bind_eq_bind,
    Option.bind_some, hrun]
  rfl

/-- The container gets every argument under its name.  The variable of the container hides a field
of that name, so the entry of such an argument is the container itself. -/
theorem entries_classOf (a : Action) (host : HostClasses) (value : HeldArgument → Value V) :
    (a.classOf host held).entries (held.table value) = some (held.table fun h =>
      if h.name = containerVariable then .container else value h) := by
  have hstatements : List.Forall₂ (fun s i => s.instruction? = some i)
      (held.containerMethod host.container).statements
      (.declare containerVariable ::
        (held.map (fun h => .put containerVariable h.name h.name) ++
          [.returnVariable containerVariable])) := by
    refine .cons (if_pos rfl) (List.rel_append ?_ (.cons rfl .nil))
    exact List.forall₂_map_left_iff.mpr (List.forall₂_map_right_iff.mpr
      (List.forall₂_same.mpr fun h _ => h.instruction?_put containerVariable))
  have hcontainer (e : Bindings V) :
      Frame.valueOf? ⟨[(containerVariable, .container)], held.table value, e⟩ containerVariable =
        some .container := by
    rw [Frame.valueOf?, List.lookup_cons_self]
    rfl
  have hshown : ∀ h ∈ held, ∀ e : Bindings V,
      Frame.valueOf? ⟨[(containerVariable, .container)], held.table value, e⟩ h.name =
        some (if h.name = containerVariable then .container else value h) := by
    intro h hh e
    by_cases hname : h.name = containerVariable
    · rw [hname, if_pos rfl]
      exact hcontainer e
    · have hfield : (held.table value).lookup h.name = some (value h) :=
        lookup_table hnames hh
      rw [Frame.valueOf?, lookup_cons_ne hname, if_neg hname]
      exact hfield
  have hrun : (held.containerMethod host.container).run (held.table value) [] =
      some (.container (held.table fun h =>
        if h.name = containerVariable then .container else value h)) := by
    rw [Method.run_eq rfl hstatements]
    show runAll _ ⟨[(containerVariable, .container)], held.table value, []⟩ = _
    rw [runAll_puts hnames hcontainer hshown [] (fun h _ => List.not_mem_nil), List.nil_append,
      runAll, hcontainer]
  rw [ClassDecl.entries, a.method_classOf host held]
  show (Method.run _ _ _).bind _ = _
  rw [hrun]
  rfl

def HeldArgument.currentValue (parameters : Bindings V) (calls : List (Text × V))
    (h : HeldArgument) : Value V :=
  match lastCall? h.name calls with
  | some v => .given v
  | none => h.startValue parameters

theorem foldlM_callSetter (a : Action) (host : HostClasses) {calls : List (Text × V)}
    (hcalls : ∀ c ∈ calls, ∃ h ∈ ArgumentList.optional held, h.name = c.1)
    (value : HeldArgument → Value V) :
    calls.foldlM (a.classOf host held).callSetter (held.table value) =
      some (held.table fun h => match lastCall? h.name calls with
        | some v => .given v
        | none => value h) := by
  induction calls generalizing value with
  | nil => rfl
  | cons c calls ih =>
    obtain ⟨name, v⟩ := c
    obtain ⟨h, hh, rfl⟩ := hcalls (name, v) List.mem_cons_self
    rw [List.foldlM_cons, callSetter_classOf hnames a host hh, Option.bind_eq_bind,
      Option.bind_some, ih fun c hc => hcalls c (List.mem_cons_of_mem _ hc)]
    refine congrArg some (ArgumentList.table_inj.mpr fun k _ => ?_)
    simp only [lastCall?, eq_comm (a := h.name)]
    cases hlast : lastCall? k.name calls with
    | some w => rfl
    | none =>
      by_cases hname : k.name = h.name
      · simp [hname]
      · simp [hname]

end Runs

/-! ### Making objects -/

theorem create_of_length_ne (a : Action) (host : HostClasses) {held : ArgumentList}
    {values : List (Value V)} (hlength : (ArgumentList.required held).length ≠ values.length) :
    (a.classOf host held).create values = none := by
  have hparams : (held.constructorOf (actionClassName a.id)).parameters.length ≠ values.length :=
    fun h => hlength ((List.length_map _).symm.trans h)
  rw [ClassDecl.create, a.constructor?_classOf, Option.bind_eq_bind, Option.bind_some,
    Method.run_of_length_ne hparams]
  rfl

theorem factory_run (a : Action) (host : HostClasses) {held : ArgumentList}
    {values : List (Value V)} (hlength : (ArgumentList.required held).length = values.length) :
    (factory a (a.classOf host held)).run [] values =
      ((argumentNames (Text.joinWith ", " held.requiredNames)).mapM
        fun name => (held.passed values).lookup name).map
          (.creation (.ofClass ⟨[], actionClassName a.id⟩)) := by
  have hparams : (factory a (a.classOf host held)).parameters.map (·.name) =
      held.requiredNames := List.map_map
  have hstatements : List.Forall₂ (fun s i => s.instruction? = some i)
      (factory a (a.classOf host held)).statements
      [.returnNew (.ofClass ⟨[], actionClassName a.id⟩) (argumentNames (Text.joinWith ", "
        ((factory a (a.classOf host held)).parameters.map (·.name))))] := .cons rfl .nil
  have hvalueOf : Frame.valueOf? (V := V) ⟨held.passed values, [], []⟩ =
      fun name => (held.passed values).lookup name := funext fun name => Option.or_none
  rw [Method.run_eq ((List.length_map _).trans hlength) hstatements, hparams,
    ← ArgumentList.passed, runAll, hvalueOf, Option.map_eq_bind]
  rfl

theorem ArgumentList.requiredNames_ne_nil {held : ArgumentList}
    (hgiven : ∀ h ∈ held, h.name ≠ []) : ∀ name ∈ held.requiredNames, name ≠ [] := by
  intro name hname
  obtain ⟨h, hh, rfl⟩ := List.mem_map.mp hname
  exact hgiven h (List.mem_of_mem_filter hh)

section Factory

variable (a : Action) (host : HostClasses) {held : ArgumentList}
  (hgiven : ∀ h ∈ held, h.name ≠ []) {values : List V}
  (hlength : (ArgumentList.required held).length = values.length)

include hgiven hlength

theorem createBy_of_unmarked (hnames : (held.map (·.name)).Nodup)
    (hmarks : ∀ h ∈ ArgumentList.required held, Text.hasPart ", " h.name = false) :
    (a.classOf host held).createBy (factory a (a.classOf host held)) values =
      some (held.table (HeldArgument.startValue (held.passed (values.map .given)))) := by
  have hlength : (ArgumentList.required held).length = (values.map Value.given).length := by
    rw [hlength, List.length_map]
  have hcount : held.requiredNames.length = (values.map Value.given).length :=
    held.length_requiredNames.trans hlength
  have hmarks : ∀ name ∈ held.requiredNames, Text.hasPart ", " name = false := by
    intro name hname
    obtain ⟨h, hh, rfl⟩ := List.mem_map.mp hname
    exact hmarks h hh
  have hread : held.requiredNames.mapM
      (fun name => (held.passed (values.map .given)).lookup name) = some (values.map .given) :=
    mapM_some.mpr (lookup_zip (ArgumentList.requiredNames_nodup hnames) hcount)
  rw [ClassDecl.createBy, factory_run a host hlength,
    argumentNames_of_unmarked (ArgumentList.requiredNames_ne_nil hgiven) hmarks, hread]
  exact (if_pos rfl).trans (create_classOf hnames a host hlength)

/-- A name that reads as several gives the constructor more values than it takes. -/
theorem createBy_of_marked {h : HeldArgument} (hh : h ∈ ArgumentList.required held)
    (hmark : Text.hasPart ", " h.name = true) :
    (a.classOf host held).createBy (factory a (a.classOf host held)) values = none := by
  have hlength : (ArgumentList.required held).length = (values.map Value.given).length := by
    rw [hlength, List.length_map]
  have hmore := length_lt_argumentNames (ArgumentList.requiredNames_ne_nil hgiven)
    (List.mem_map_of_mem hh) hmark
  rw [held.length_requiredNames] at hmore
  rw [ClassDecl.createBy, factory_run a host hlength]
  cases hread : (argumentNames (Text.joinWith ", " held.requiredNames)).mapM
      fun name => (held.passed (values.map Value.given)).lookup name with
  | none => rfl
  | some others =>
    have hcount := (mapM_some.mp hread).length_eq
    have hne : (ArgumentList.required held).length ≠ others.length := by
      rw [← hcount]
      exact Nat.ne_of_lt hmore
    exact (if_pos rfl).trans (create_of_length_ne a host hne)

end Factory

theorem HeldArgument.currentValue_ne_container (held : ArgumentList) (values : List V)
    (calls : List (Text × V)) (h : HeldArgument) :
    h.currentValue (held.passed (values.map .given)) calls ≠ .container := by
  rw [currentValue, startValue, ArgumentList.passed, Bindings.lookup_zip_given]
  cases lastCall? h.name calls with
  | some v => exact nofun
  | none =>
    cases h.initializer with
    | some literal => exact nofun
    | none => cases (held.requiredNames.zip values).lookup h.name <;> exact nofun

/-- A class that can make objects stores the value of every field, apart from one that has the name
of the container variable. -/
theorem runThrough_classOf (a : Action) (host : HostClasses) {held : ArgumentList}
    (hnames : (held.map (·.name)).Nodup) (hgiven : ∀ h ∈ held, h.name ≠ []) {values : List V}
    (hlength : (ArgumentList.required held).length = values.length) {calls : List (Text × V)}
    (hcalls : ∀ c ∈ calls, ∃ h ∈ ArgumentList.optional held, h.name = c.1) :
    (a.classOf host held).runThrough (factory a (a.classOf host held)) values calls =
      if ∀ h ∈ ArgumentList.required held, Text.hasPart ", " h.name = false then
        some (held.table fun h =>
          if h.name = containerVariable then .container
          else h.currentValue (held.passed (values.map .given)) calls)
      else none := by
  rw [ClassDecl.runThrough]
  split
  next hmarks =>
    rw [createBy_of_unmarked a host hgiven hlength hnames hmarks, Option.bind_eq_bind,
      Option.bind_some, foldlM_callSetter hnames a host hcalls]
    exact entries_classOf hnames a host _
  next hmarks =>
    obtain ⟨h, hh, hmark⟩ : ∃ h ∈ ArgumentList.required held, Text.hasPart ", " h.name = true := by
      by_contra hnone
      refine hmarks fun h hh => ?_
      by_contra hmark
      exact hnone ⟨h, hh, by simpa using hmark⟩
    rw [createBy_of_marked a host hgiven hlength hh hmark]
    rfl

/-! ### Actions -/

namespace Action

/-- The names of the arguments without a default. -/
def requiredNames (a : Action) : List Text :=
  (a.args.filter (!·.isOptional)).map (·.name.plain)

def optionalNames (a : Action) : List Text := (a.args.filter (·.isOptional)).map (·.name.plain)

/-- The value that an argument has after an object was made from `values` and the calls followed:
the value at its place, the last one that was set, or its default literal. -/
def storedValue (a : Action) (applicationId : Text) (values : List V) (calls : List (Text × V))
    (x : ActionArgument) : Value V :=
  match x.default with
  | none => match (a.requiredNames.zip values).lookup x.name.plain with
    | some v => .given v
    | none => .unset
  | some default => match lastCall? x.name.plain calls with
    | some v => .given v
    | none => match x.type.literal (.text default) applicationId with
      | .ok literal => .literal literal
      | .error _ => .unset

end Action

theorem lastCall?_eq_none {name : Text} {calls : List (Text × V)}
    (h : ∀ c ∈ calls, c.1 ≠ name) : lastCall? name calls = none := by
  induction calls with
  | nil => rfl
  | cons c rest ih =>
    rw [lastCall?, ih fun c hc => h c (List.mem_cons_of_mem _ hc), Option.none_or,
      if_neg (h c List.mem_cons_self)]

namespace Action

variable {a : Action} {applicationId : Text} {held : ArgumentList}

/-- What the fields of an object hold after the calls is what the arguments ask for. -/
theorem storedValue_held (hheld : a.Holds applicationId held)
    (hnamed : a.hasUnnamedRequired = false) (values : List V) {calls : List (Text × V)}
    (hcalls : ∀ c ∈ calls, c.1 ∈ a.optionalNames) :
    a.args.map (fun x => (x.name.plain, a.storedValue applicationId values calls x)) =
      held.table (HeldArgument.currentValue (held.passed (values.map .given)) calls) := by
  have hall := hheld.arguments
  have hdistinct := a.names_nodup (name_isText hheld hnamed)
  have hrequired : a.requiredNames = held.requiredNames :=
    HeldArgument.Holds.names_required hall
  -- Calls are about optional names, and no required argument has one of these.
  have huncalled : ∀ x ∈ a.args, x.default = none → lastCall? x.name.plain calls = none := by
    intro x hx hd
    refine lastCall?_eq_none fun c hc hname => ?_
    obtain ⟨y, hy, hyname⟩ := List.mem_map.mp (hcalls c hc)
    have hyx : y = x := List.inj_on_of_nodup_map hdistinct (List.mem_of_mem_filter hy) hx
      (hyname.trans hname)
    have hoptional : y.isOptional = true := List.of_mem_filter hy
    rw [hyx, ActionArgument.isOptional, hd] at hoptional
    cases hoptional
  have hpairs := (List.forall₂_and_left _ _).mpr ⟨huncalled, hall⟩
  rw [ArgumentList.table, ← List.forall₂_eq_eq_eq, List.forall₂_map_left_iff,
    List.forall₂_map_right_iff]
  refine hpairs.imp fun x h hxh => Prod.ext hxh.2.name.symm ?_
  obtain ⟨huncalled, hxh⟩ := hxh
  rw [storedValue, HeldArgument.currentValue, HeldArgument.startValue, hxh.name]
  rcases hxh.initializer with ⟨hd, hi⟩ | ⟨default, literal, hd, hi, hliteral⟩
  · rw [hd, huncalled hd, hi, hrequired, ArgumentList.passed, Bindings.lookup_zip_given]
    cases (held.requiredNames.zip values).lookup x.name.plain <;> rfl
  · rw [hd, hi]
    cases hlast : lastCall? x.name.plain calls with
    | some v => rfl
    | none => simp only [hliteral]

/-- The values that a class stores are those of its arguments exactly when no argument bears the
name of the container variable and the factory can list its parameters.  The holder of the class
makes sure that these have text for names. -/
theorem runThrough_eq_storedValues_iff {host : HostClasses} {nested : ClassDecl}
    (hclass : a.directionsClass applicationId host = .ok nested)
    (hnamed : a.hasUnnamedRequired = false) {values : List V}
    (hvalues : values.length = a.requiredNames.length) {calls : List (Text × V)}
    (hcalls : ∀ c ∈ calls, c.1 ∈ a.optionalNames) :
    nested.runThrough (factory a nested) values calls =
        some (a.args.map fun x => (x.name.plain, a.storedValue applicationId values calls x)) ↔
      (∀ x ∈ a.args, x.name.plain ≠ containerVariable) ∧
        ∀ name ∈ a.requiredNames, Text.hasPart ", " name = false := by
  obtain ⟨held, hheld, rfl⟩ := Action.directionsClass_ok.mp hclass
  have hall := hheld.arguments
  have hnames := held_names_nodup hheld hnamed
  have hgiven := held_name_ne_nil hheld hnamed
  have hrequired : a.requiredNames = held.requiredNames :=
    HeldArgument.Holds.names_required hall
  have hoptional : a.optionalNames = (ArgumentList.optional held).map (·.name) :=
    HeldArgument.Holds.names_optional hall
  have hlength : (ArgumentList.required held).length = values.length := by
    rw [hvalues, hrequired, held.length_requiredNames]
  have hcalled : ∀ c ∈ calls, ∃ h ∈ ArgumentList.optional held, h.name = c.1 := by
    intro c hc
    have hmem := hcalls c hc
    rw [hoptional] at hmem
    exact List.mem_map.mp hmem
  have hmarks : (∀ name ∈ a.requiredNames, Text.hasPart ", " name = false) ↔
      ∀ h ∈ ArgumentList.required held, Text.hasPart ", " h.name = false := by
    rw [hrequired, ArgumentList.requiredNames, List.forall_mem_map]
  have hcontainer : (∀ x ∈ a.args, x.name.plain ≠ containerVariable) ↔
      ∀ h ∈ held, h.name ≠ containerVariable := by
    have heq := HeldArgument.Holds.names_held hall
    rw [← List.forall_mem_map (f := fun x : ActionArgument => x.name.plain)
      (P := fun name => name ≠ containerVariable), heq, List.forall_mem_map]
  have hstored := storedValue_held hheld hnamed values hcalls
  rw [hmarks, hcontainer, hstored,
    runThrough_classOf a host hnames hgiven hlength hcalled]
  split
  next hfree =>
    rw [and_iff_left hfree, Option.some.injEq, ArgumentList.table_inj]
    constructor
    · intro heq h hh hname
      have hvalue := heq h hh
      rw [if_pos hname] at hvalue
      exact h.currentValue_ne_container _ values calls hvalue.symm
    · intro hfresh h hh
      exact if_neg (hfresh h hh)
  next hmarked =>
    exact iff_of_false (by simp) fun h => hmarked h.2

/-- An action that takes a number and may take a label. -/
def showUser : Action where
  id := ⟨"com.app", "showUser", by decide, by decide⟩
  destination := none
  args :=
    [⟨.text "userId", ⟨.integer, false, []⟩, none, rfl⟩,
      ⟨.text "label", ⟨.string, false, []⟩, some "none", rfl⟩]
  distinct := rfl

theorem showUser_stores_both :
    ∃ nested,
      showUser.directionsClass "com.app" (.of "androidx.navigation" "android.os.Bundle") =
        .ok nested ∧
      nested.runThrough (factory showUser nested) [7]
          [(Text.ofString "label", 8), (Text.ofString "label", 9)] =
        some [(Text.ofString "userId", Value.given 7),
          (Text.ofString "label", Value.given (9 : Nat))] := by
  obtain ⟨nested, hclass⟩ : ∃ nested, showUser.directionsClass "com.app"
      (.of "androidx.navigation" "android.os.Bundle") = .ok nested := ⟨_, rfl⟩
  have hvalues : [7].length = showUser.requiredNames.length := rfl
  have hcalls : ∀ c ∈ [(Text.ofString "label", 8), (Text.ofString "label", 9)],
      c.1 ∈ showUser.optionalNames := by decide
  refine ⟨nested, hclass, ?_⟩
  exact (runThrough_eq_storedValues_iff hclass rfl hvalues hcalls).mpr ⟨by decide, by decide⟩

/-- An action whose argument has the name of the container variable. -/
def passBundle : Action where
  id := ⟨"com.app", "passBundle", by decide, by decide⟩
  destination := none
  args := [⟨.text containerVariable, ⟨.integer, false, []⟩, none, rfl⟩]
  distinct := rfl

theorem passBundle_stores_container :
    ∃ nested,
      passBundle.directionsClass "com.app" (.of "androidx.navigation" "android.os.Bundle") =
        .ok nested ∧
      nested.runThrough (factory passBundle nested) [(7 : Nat)] [] ≠
        some (passBundle.args.map fun x =>
          (x.name.plain, passBundle.storedValue "com.app" [7] [] x)) := by
  refine ⟨_, rfl, ?_⟩
  have hne : some [(containerVariable, (Value.container : Value Nat))] ≠
      some [(containerVariable, .given 7)] := nofun
  exact hne

end Action
end NavDirections
