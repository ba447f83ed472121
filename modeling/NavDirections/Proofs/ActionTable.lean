import NavDirections.Proofs.GenerateEffects
import NavDirections.Proofs.MemberShapes
import NavDirections.Proofs.ObscuredNames

/-!
# The table of actions

The command that lists classes takes its rows from the finished descriptions: a factory, the nested
class at the same place, and what that class returns as its destination.  They are the actions of
the graph one by one, in the order of the walk.
-/

namespace NavDirections

open Success

/-- A parameter as the table shows it: the type of the argument by its full name, and the name. -/
def ActionArgument.IsShown (x : ActionArgument) (shown : Text) : Prop :=
  ∃ type name, x.type.representation = .ok type ∧ x.name = .text name ∧
    shown = type.fullName ++ " " ++ name

/-- The row of an action: the class of the destination, the factory with the required arguments in
order, and the accessor of the id that the action leads to. -/
def Action.IsRow (applicationId : Text) (d : Destination) (a : Action) (row : List Text) : Prop :=
  ∃ className shown, d.className applicationId = .ok className ∧
    List.Forall₂ ActionArgument.IsShown (a.args.filter (!·.isOptional)) shown ∧
    row = [className.canonical, a.id.name ++ "(" ++ Text.joinWith ", " shown ++ ")",
      idAccessor a.destination]

theorem NavigationGraph.length_actions (g : NavigationGraph) :
    g.actions.length = g.actionCount := by
  simp [actions, actionCount, List.length_flatMap]

theorem NavigationGraph.actions_eq_acting (g : NavigationGraph) :
    g.actions = g.acting.flatMap fun d => d.actions.map (d, ·) := by
  unfold actions acting
  induction g.walk with
  | nil => rfl
  | cons d rest ih =>
    rw [List.flatMap_cons, ih, List.filter_cons]
    -- A destination without actions has no class, and would have no rows either.
    cases hactions : d.actions with
    | nil => simp
    | cons a more => simp [hactions]

theorem zip_factories (actions : List Action) (types : List ClassDecl) :
    ((actions.zip types).map fun (a, nested) => factory a nested).zip types =
      (actions.zip types).map fun (a, nested) => (factory a nested, nested) := by
  induction actions generalizing types with
  | nil => rfl
  | cons a actions ih =>
    cases types with
    | nil => rfl
    | cons nested types => simp [ih]

theorem forall₂_map_zip {α β γ : Type} {R : α → β → Prop} {S : α → γ → Prop} (f : α → β → γ)
    {xs : List α} {ys : List β} (h : List.Forall₂ R xs ys) (hf : ∀ x y, R x y → S x (f x y)) :
    List.Forall₂ S xs ((xs.zip ys).map fun entry => f entry.1 entry.2) := by
  induction h with
  | nil => exact .nil
  | cons hxy _ ih => exact .cons (hf _ _ hxy) ih

theorem Action.shown_parameters {a : Action} {applicationId : Text} {held : ArgumentList}
    (hheld : a.Holds applicationId held) (hnamed : a.hasUnnamedRequired = false)
    (host : HostClasses) :
    List.Forall₂ ActionArgument.IsShown (a.args.filter (!·.isOptional))
      ((factory a (a.classOf host held)).parameters.map fun p =>
        p.type.fullName ++ " " ++ p.name) := by
  have hmembers : a.HasMembers applicationId host held (a.classOf host held) :=
    Action.hasMembers hheld hnamed
  have hparameters : (factory a (a.classOf host held)).parameters =
      ((a.classOf host held).fields.filter (·.isFinal)).map Field.parameter :=
    factory_passes.parameters.trans hmembers.constructor.parameters
  rw [hparameters, List.map_map, List.forall₂_map_right_iff]
  apply hmembers.required.imp
  intro x f hx
  exact ⟨f.type, f.name, hx.type, hx.name, rfl⟩

theorem Action.isRow {a : Action} {d : Destination} {applicationId : Text} {host : HostClasses}
    {className : ClassName} {nested : ClassDecl}
    (hname : d.className applicationId = .ok className)
    (hnested : a.directionsClass applicationId host = .ok nested)
    (hnamed : a.hasUnnamedRequired = false) :
    a.IsRow applicationId d [className.canonical,
      (factory a nested).name ++ "(" ++ (factory a nested).parameterList ++ ")",
      nested.destinationText] := by
  obtain ⟨held, hheld, rfl⟩ := Action.directionsClass_ok.mp hnested
  refine ⟨className, _, hname, Action.shown_parameters hheld hnamed host, ?_⟩
  rw [Action.destinationText_classOf]
  rfl

theorem Destination.rows_directionsFile {d : Destination} {applicationId : Text}
    {host : HostClasses} {f : DirectionsFile} (h : d.directionsFile applicationId host = .ok f) :
    List.Forall₂ (Action.IsRow applicationId d) d.actions f.rows := by
  obtain ⟨hname, hholds⟩ := Destination.directionsFile_ok.mp h
  have hmethods : f.decl.methods = (d.actions.zip f.decl.types).map fun (a, nested) =>
      factory a nested := congrArg ClassDecl.methods hholds.decl
  have hrows : f.rows = (d.actions.zip f.decl.types).map fun entry =>
      [f.className.canonical, (factory entry.1 entry.2).name ++ "(" ++
        (factory entry.1 entry.2).parameterList ++ ")", entry.2.destinationText] := by
    rw [DirectionsFile.rows, hmethods, zip_factories, List.map_map]
    rfl
  rw [hrows]
  apply forall₂_map_zip (fun a nested => [f.className.canonical, (factory a nested).name ++ "(" ++
    (factory a nested).parameterList ++ ")", nested.destinationText])
    ((List.forall₂_and_left _ _).mpr ⟨hholds.named, hholds.types⟩)
  intro a nested ha
  exact Action.isRow hname ha.2 ha.1

theorem NavigationGraph.rows_directionsFiles {g : NavigationGraph} {applicationId : Text}
    {host : HostClasses} {files : List DirectionsFile}
    (h : g.directionsFiles applicationId host = .ok files) :
    List.Forall₂ (fun entry row => entry.2.IsRow applicationId entry.1 row) g.actions
      (files.flatMap (·.rows)) := by
  have hfiles := (NavigationGraph.directionsFiles_ok.mp h).1
  rw [NavigationGraph.actions_eq_acting]
  apply List.rel_flatMap hfiles
  intro d f hf
  rw [List.forall₂_map_left_iff]
  exact Destination.rows_directionsFile hf

theorem describeAll_ok {p : Prepared} {files : List DirectionsFile} :
    describeAll p = .ok files ↔ (∃ style, p.settings.sourceStyle = .ok style) ∧
      p.settings.describe p.loaded.graph = .ok files := by
  unfold describeAll
  rw [bind_ok]
  simp only [mapError_ok, exists_and_right]

theorem describeAll_reported {p : Prepared} {e : GenerationError} :
    describeAll p = .error (.reported e) ↔ (∃ style, p.settings.sourceStyle = .ok style) ∧
      p.settings.describe p.loaded.graph = .error (.reported e) := by
  unfold describeAll
  cases p.settings.sourceStyle with
  | error k => simp [Except.mapError, bind, Except.bind, DirectionsFault.kind]
  | ok style => simp [Except.mapError, bind, Except.bind]

theorem Report.breakdown_ending (shows : Console) (printed : List Printed) (b : Breakdown)
    (files : FileTree) :
    (Report.fault shows printed (.breakdown b) files).ending = .broken (.breakdown b) := rfl

section Run

variable {args : List Text} {o : Options} {w : Surroundings} {p : Prepared}

theorem run_inspect (hargs : readCommandLine args = .ok ⟨some .inspect, o⟩)
    (hlevel : o.logLevel.isSome = true) : run args w = runInspect o w := by
  obtain ⟨level, hlevel⟩ := Option.isSome_iff_exists.mp hlevel
  simp [run, hargs, hlevel]

theorem runInspect_files (hmake : Prepared.make o w = .ok p) {files : List DirectionsFile}
    (hfiles : describeAll p = .ok files) (hne : files ≠ []) :
    runInspect o w = .print w.shows p.notice w.files 0 [.ok (classTable files)] := by
  obtain ⟨f, rest, rfl⟩ := List.exists_cons_of_ne_nil hne
  rw [runInspect, hmake]
  simp only [hfiles]

theorem runInspect_exit_one (hmake : Prepared.make o w = .ok p) :
    (runInspect o w).ending = .exit 1 ↔ ∃ e, describeAll p = .error (.reported e) ∧
      Report.IsShown w.shows (faultLine e) := by
  rw [runInspect, hmake]
  dsimp only
  cases describeAll p with
  | error fault =>
    cases fault with
    | reported e => simp [Report.print_ending]
    | breakdown b => simp [Report.breakdown_ending]
  | ok files => cases files <;> simp [Report.print_ending]

/-- Where a loaded graph has classes, the command ends with printing a table with one row for each
action of the graph.  It ends with one just where the generator can be made and reports a fault of
the graph, and the console shows the line about that. -/
theorem run_inspect_rows (hargs : readCommandLine args = .ok ⟨some .inspect, o⟩)
    (hlevel : o.logLevel.isSome = true) (hmake : Prepared.make o w = .ok p) :
    (∀ style files, p.settings.sourceStyle = .ok style →
      p.settings.describe p.loaded.graph = .ok files → files ≠ [] →
      ∃ rows,
        run args w = .print w.shows p.notice w.files 0 [.ok (.table "🧭 Directions Classes"
          ["Class", "Factory", "Destination Id"] rows)] ∧
        rows.length = p.loaded.graph.actionCount ∧
        List.Forall₂ (fun entry row => entry.2.IsRow p.settings.applicationName entry.1 row)
          p.loaded.graph.actions rows) ∧
    ((run args w).ending = .exit 1 ↔
      (∃ style, p.settings.sourceStyle = .ok style) ∧
        ∃ e, p.settings.describe p.loaded.graph = .error (.reported e) ∧
          Report.IsShown w.shows (faultLine e)) := by
  rw [run_inspect hargs hlevel]
  constructor
  · intro style files hstyle hfiles hne
    obtain ⟨host, -, hdescribed⟩ := Settings.describe_ok.mp hfiles
    have hrows := NavigationGraph.rows_directionsFiles hdescribed
    have hall := describeAll_ok.mpr ⟨⟨style, hstyle⟩, hfiles⟩
    refine ⟨files.flatMap DirectionsFile.rows, runInspect_files hmake hall hne, ?_, hrows⟩
    rw [← hrows.length_eq, NavigationGraph.length_actions]
  · rw [runInspect_exit_one hmake]
    simp only [describeAll_reported, and_assoc, exists_and_left]

end Run

theorem open_ne_nil : ("open" : Text) ≠ [] := by decide

/-- An action with a required argument between two optional ones. -/
def openAction : Action :=
  ⟨⟨"app", "open", app_ne_nil, open_ne_nil⟩,
    some ⟨"app", "details", app_ne_nil, Action.details_ne_nil⟩,
    [⟨.text "page", ⟨.integer, false, []⟩, some "1", rfl⟩,
      ⟨.text "items", ⟨.string, true, []⟩, none, rfl⟩,
      ⟨.text "title", ⟨.string, false, []⟩, some "@null", rfl⟩], rfl⟩

def openGraph : NavigationGraph := ⟨[⟨.text ".Main", none, [openAction], []⟩]⟩

def openArgument (name type : Text) (default : List (Text × Json)) : Json :=
  .object (("name", .text name) :: ("type", .text type) :: default)

def openArguments : Json :=
  .array [openArgument "page" "integer" [("default", .int 1)], openArgument "items" "string[]" [],
    openArgument "title" "string" [("default", .null)]]

def openDocument : Json :=
  .array [.object [("name", .text ".Main"), ("actions", .array [.object
    [("id", .object [("name", .text "open")]), ("destination", .object [("name", .text "details")]),
     ("arguments", openArguments)]])]]

theorem openArgument_readable {name type : Text} {default : List (Text × Json)}
    (hkeys : (("name" : Text) :: ("type" : Text) :: default.map Prod.fst).Nodup)
    (hdefault : ∀ entry ∈ default, Json.Readable 1 entry.2) :
    Json.Readable 2 (openArgument name type default) := by
  unfold openArgument
  refine .object (by exact hkeys) ?_
  exact List.forall_mem_cons.mpr ⟨.text name, List.forall_mem_cons.mpr ⟨.text type, hdefault⟩⟩

theorem openArguments_readable : Json.Readable 3 openArguments := by
  apply Json.Readable.array
  simp only [List.forall_mem_cons]
  refine ⟨openArgument_readable (by decide) ?_, openArgument_readable (by decide) ?_,
    openArgument_readable (by decide) ?_, by simp⟩
  · exact List.forall_mem_singleton.mpr (.int (by decide))
  · simp
  · exact List.forall_mem_singleton.mpr .null

theorem openDocument_readable : Json.Readable 7 openDocument := by
  have hname (t : Text) : Json.Readable 3 (.object [("name", .text t)]) :=
    .object (List.nodup_singleton _) (List.forall_mem_singleton.mpr (.text t))
  have haction : Json.Readable 4 (.object [("id", .object [("name", .text "open")]),
      ("destination", .object [("name", .text "details")]), ("arguments", openArguments)]) :=
    .object (by decide) (List.forall_mem_cons.mpr ⟨hname _, List.forall_mem_cons.mpr
      ⟨hname _, List.forall_mem_singleton.mpr openArguments_readable⟩⟩)
  exact .screen haction

def openOptions : Options := { Options.none with stdin := true, applicationId := some "app" }

def openSettings : Settings := { Settings.default with applicationId := .text "app" }

def openSurroundings : Surroundings :=
  ⟨.empty, Json.write openDocument, .failed .timeout, 7, fun _ => true⟩

theorem open_is_listed :
    readCommandLine ["inspect", "--stdin", "--app-id", "app"] = .ok ⟨some .inspect, openOptions⟩ ∧
    run ["inspect", "--stdin", "--app-id", "app"] openSurroundings =
      ⟨[.table "🧭 Directions Classes" ["Class", "Factory", "Destination Id"]
        [["app.MainDirections", "open(java.lang.String[] items)", "app.R.id.details"]]], .empty,
        .exit 0⟩ := by
  have hargs : readCommandLine ["inspect", "--stdin", "--app-id", "app"] =
      .ok ⟨some .inspect, openOptions⟩ := rfl
  have hgraph : NavigationGraph.ofDocument openDocument (.text "app") = .ok openGraph := rfl
  have hmake : Prepared.make openOptions openSurroundings =
      .ok ⟨openSettings, none, openGraph⟩ := by
    have hdocument := Json.parse_write openDocument_readable
    have hread : readInput 7 (Json.write openDocument) (.text "app") = .ok ⟨none, openGraph⟩ :=
      readInput_ok.mpr ⟨rfl, openDocument, hdocument, hgraph⟩
    exact Prepared.make_ok.mpr ⟨rfl, hread, nofun⟩
  obtain ⟨file, hfiles⟩ : ∃ file, openSettings.describe openGraph = .ok [file] := ⟨_, rfl⟩
  obtain ⟨rows, hrun, -, hrows⟩ :=
    (run_inspect_rows hargs rfl hmake).1 ⟨true, .blanks 4, []⟩ [file] rfl hfiles
      (List.cons_ne_nil _ _)
  refine ⟨hargs, ?_⟩
  rw [hrun]
  cases hrows with
  | cons hrow hnone =>
    cases hnone
    obtain ⟨className, shown, hname, hshown, rfl⟩ := hrow
    cases hname
    cases hshown with
    | cons hitems hnone =>
      cases hnone
      obtain ⟨type, name, htype, hname, rfl⟩ := hitems
      cases htype
      cases hname
      rfl

/-! ### A tag in a default -/

/-- A screen whose action takes a count that is the end of a tag. -/
def taggedDocument : Json :=
  .array [.object [("name", .text "app.Main"), ("actions", .array [.object
    [("id", .object [("package", .text "app"), ("name", .text "go")]),
     ("arguments", .array [openArgument "n" "integer" [("default", .text "[/b]")]])]])]]

theorem taggedDocument_readable : Json.Readable 7 taggedDocument := by
  have hid : Json.Readable 3 (.object [("package", .text "app"), ("name", .text "go")]) :=
    .object (by decide) (List.forall_mem_cons.mpr ⟨.text _, List.forall_mem_singleton.mpr (.text _)⟩)
  have hargument : Json.Readable 2 (openArgument "n" "integer" [("default", .text "[/b]")]) :=
    openArgument_readable (by decide) (List.forall_mem_singleton.mpr (.text _))
  have harguments := Json.Readable.array (List.forall_mem_singleton.mpr hargument)
  exact .screen (.object (by decide)
    (List.forall_mem_cons.mpr ⟨hid, List.forall_mem_singleton.mpr harguments⟩))

def taggedFault : GenerationError :=
  .model ⟨.invalidLiteral "[/b]" ⟨.integer, false, []⟩,
    ⟨some (.text "app.Main"), some "go", some (.text "n")⟩⟩

/-- The line about the fault, which has the tag in it. -/
def taggedLine : Printed :=
  .line [.inColour .red ("✗ Default value '[/b]' is not a valid integer literal " ++
    "(destination=app.Main, action=go, argument=n)")]

def taggedSurroundings : Surroundings :=
  ⟨.empty, Json.write taggedDocument, .failed .timeout, 7, (· != taggedLine)⟩

/-- Where the console refuses the line about a fault, since a tag ends in it that nothing begins, the
command has no exit code. -/
theorem tagged_fault_has_no_code :
    ∃ graph, NavigationGraph.ofDocument taggedDocument (.text []) = .ok graph ∧
      Settings.default.describe graph = .error (.reported taggedFault) ∧
      (run ["inspect", "--stdin"] taggedSurroundings).ending = .broken (.unshown taggedLine) := by
  obtain ⟨graph, hgraph, hfault⟩ : ∃ graph,
      NavigationGraph.ofDocument taggedDocument (.text []) = .ok graph ∧
        Settings.default.describe graph = .error (.reported taggedFault) := ⟨_, rfl, rfl⟩
  let o : Options := { Options.none with stdin := true }
  have hargs : readCommandLine ["inspect", "--stdin"] = .ok ⟨some .inspect, o⟩ := rfl
  have hread : readInput 7 (Json.write taggedDocument) (.text []) = .ok ⟨none, graph⟩ :=
    readInput_ok.mpr ⟨rfl, taggedDocument, Json.parse_write taggedDocument_readable, hgraph⟩
  have hmake : Prepared.make o taggedSurroundings = .ok ⟨Settings.default, none, graph⟩ :=
    Prepared.make_ok.mpr ⟨rfl, hread, nofun⟩
  have hall : describeAll ⟨Settings.default, none, graph⟩ = .error (.reported taggedFault) :=
    describeAll_reported.mpr ⟨⟨_, rfl⟩, hfault⟩
  have hline : faultLine taggedFault = .ok taggedLine := congrArg Except.ok (by decide +kernel)
  refine ⟨graph, hgraph, hfault, ?_⟩
  rw [run_inspect hargs rfl, runInspect, hmake]
  simp only [hall, hline]
  rfl

end NavDirections
