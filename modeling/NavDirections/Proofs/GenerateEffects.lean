import NavDirections.Command.Run
import NavDirections.Proofs.DocumentFaults
import NavDirections.Proofs.GeneratedSources
import NavDirections.Proofs.JsonReading

/-!
# Effects of generating

What the command that generates sources does to the files.  It leaves them alone in a dry run and
where anything fails in front of the writing.  Where it reports success, they are what writing the
sources of the document makes of them.
-/

namespace NavDirections

open Success

/-- A run tells its user that it succeeded, by its exit code or by the line about written sources. -/
def Report.ClaimsSuccess (r : Report) : Prop :=
  r.ending = .exit 0 ∨ ∃ count root, writtenLine count root ∈ r.printed

namespace Report

/-- Something can be printed: it has been put into words, and the console shows it. -/
def IsShown (shows : Console) (step : Except CommandFault Printed) : Prop :=
  ∃ p, step = .ok p ∧ shows p = true

variable {shows : Console} {printed : List Printed} {f : CommandFault} {files : FileTree}
  {code : Nat} {steps : List (Except CommandFault Printed)} {pieces : List Piece}

@[simp] theorem print_files : (print shows printed files code steps).files = files := by
  induction steps generalizing printed with
  | nil => rfl
  | cons step rest ih =>
    cases step with
    | error f => rfl
    | ok p =>
      rw [print]
      split
      · exact ih
      · rfl

/-- A run ends with a code just if everything in front of that can be printed. -/
theorem print_ending {c : Nat} :
    (print shows printed files code steps).ending = .exit c ↔
      c = code ∧ ∀ step ∈ steps, IsShown shows step := by
  induction steps generalizing printed with
  | nil => simp [print, eq_comm]
  | cons step rest ih =>
    rw [List.forall_mem_cons]
    cases step with
    | error f => exact iff_of_false nofun fun ⟨_, ⟨_, h, _⟩, _⟩ => nomatch h
    | ok p =>
      rw [print]
      split
      next hp => rw [ih, and_iff_right (show IsShown shows (.ok p) from ⟨p, rfl, hp⟩)]
      next hp =>
        refine iff_of_false nofun ?_
        rintro ⟨-, ⟨q, hq, hshown⟩, -⟩
        cases hq
        exact hp hshown

theorem mem_of_mem_print {p : Printed} (h : p ∈ (print shows printed files code steps).printed) :
    p ∈ printed ∨ .ok p ∈ steps := by
  induction steps generalizing printed with
  | nil => exact .inl h
  | cons step rest ih =>
    cases step with
    | error f => exact .inl h
    | ok q =>
      rw [print] at h
      split at h
      · rcases ih h with hp | hp
        · rcases List.mem_append.mp hp with hp | hp
          · exact .inl hp
          · exact .inr (List.mem_singleton.mp hp ▸ List.mem_cons_self)
        · exact .inr (List.mem_cons_of_mem _ hp)
      · exact .inl h

@[simp] theorem failure_files : (failure shows printed pieces files).files = files := print_files

@[simp] theorem fault_files : (fault shows printed f files).files = files := by
  unfold fault
  split
  · exact failure_files
  · rfl

theorem fault_ending {c : Nat} (h : (fault shows printed f files).ending = .exit c) : c = 1 := by
  unfold fault at h
  split at h
  · exact (print_ending.mp h).1
  · cases h

theorem writtenLine_ne_line {count : Nat} {root : FilePath} (h : pieces.length < 3) :
    writtenLine count root ≠ .line pieces := by
  intro heq
  have hpieces := Printed.line.inj heq
  rw [← hpieces] at h
  simp at h

theorem failure_claims_nothing (hpieces : pieces.length < 3)
    (h : ∀ count root, writtenLine count root ∉ printed) :
    ¬(failure shows printed pieces files).ClaimsSuccess := by
  rintro (hending | ⟨count, root, hmem⟩)
  · exact absurd (print_ending.mp hending).1 (by decide)
  · rcases mem_of_mem_print hmem with hmem | hmem
    · exact h count root hmem
    · exact writtenLine_ne_line hpieces (Except.ok.inj (List.mem_singleton.mp hmem))

theorem fault_claims_nothing (h : ∀ count root, writtenLine count root ∉ printed) :
    ¬(fault shows printed f files).ClaimsSuccess := by
  unfold fault
  split
  next message hmessage => exact failure_claims_nothing (by simp) h
  next hmessage =>
    rintro (hending | ⟨count, root, hmem⟩)
    · cases hending
    · exact h count root hmem

end Report

theorem Prepared.writtenLine_notMem_notice (p : Prepared) (count : Nat) (root : FilePath) :
    writtenLine count root ∉ p.notice := by
  intro hmem
  obtain ⟨source, -, hline⟩ : ∃ source, p.loaded.source = some source ∧
      sourceLine source = writtenLine count root := by
    simpa [notice, LoadedGraph.notice] using hmem
  exact Report.writtenLine_ne_line (by simp) hline.symm

theorem loadDocument_ok {depth : Nat} {t : FileTree} {outcome : RequestOutcome}
    {file url source : Text} {document : Json} :
    loadDocument depth t outcome file url = .ok (source, document) ↔
      (file ≠ [] ∧ url = [] ∧ source = (FilePath.ofText file).text ∧
        loadFile depth t (.ofText file) = .ok document) ∨
      (file = [] ∧ url ≠ [] ∧ source = url ∧ loadUrl depth outcome url = .ok document) := by
  have hnamed {r : Except LoadFault Json} {name : Text} :
      r.map (name, ·) = .ok (source, document) ↔ source = name ∧ r = .ok document := by
    rw [map_ok]
    constructor
    · rintro ⟨found, hfound, heq⟩
      cases heq
      exact ⟨rfl, hfound⟩
    · rintro ⟨rfl, hfound⟩
      exact ⟨document, hfound, rfl⟩
  cases file <;> cases url <;> simp [loadDocument, hnamed]

theorem loadGraph_ok {depth : Nat} {t : FileTree} {outcome : RequestOutcome}
    {file url source : Text} {applicationId : Json} {graph : NavigationGraph} :
    loadGraph depth t outcome file url applicationId = .ok (source, graph) ↔
      ∃ document, loadDocument depth t outcome file url = .ok (source, document) ∧
        NavigationGraph.ofDocument document applicationId = .ok graph := by
  constructor
  · intro h
    obtain ⟨⟨name, document⟩, hdocument, h⟩ := bind_ok.mp h
    obtain ⟨found, hgraph, h⟩ := bind_ok.mp h
    cases h
    exact ⟨document, hdocument, Document.graphOfSource_ok.mp hgraph⟩
  · rintro ⟨document, hdocument, hgraph⟩
    exact bind_ok.mpr ⟨(source, document), hdocument,
      bind_ok.mpr ⟨graph, Document.graphOfSource_ok.mpr hgraph, rfl⟩⟩

theorem readInput_ok {depth : Nat} {input : Text} {applicationId : Json} {loaded : LoadedGraph} :
    readInput depth input applicationId = .ok loaded ↔
      loaded.source = none ∧ ∃ document, Json.parse depth input = .ok document ∧
        NavigationGraph.ofDocument document applicationId = .ok loaded.graph := by
  constructor
  · intro h
    obtain ⟨document, hdocument, h⟩ := bind_ok.mp h
    obtain ⟨graph, hgraph, h⟩ := bind_ok.mp h
    cases h
    exact ⟨rfl, document, mapError_ok.mp hdocument,
      Document.graphOfSource_ok.mp (mapError_ok.mp hgraph)⟩
  · obtain ⟨source, graph⟩ := loaded
    rintro ⟨rfl, document, hdocument, hgraph⟩
    refine bind_ok.mpr ⟨document, mapError_ok.mpr hdocument, bind_ok.mpr ⟨graph, ?_, rfl⟩⟩
    exact mapError_ok.mpr (Document.graphOfSource_ok.mpr hgraph)

namespace Options

/-- The document that a run takes its graph from.  Standard input serves where neither a file nor a
URL is named. -/
inductive Reads (o : Options) (w : Surroundings) : Json → Prop
  | file {document : Json} (hfile : o.file.getD [] ≠ []) (hurl : o.url.getD [] = [])
      (h : loadFile w.depth w.files (.ofText (o.file.getD [])) = .ok document) : Reads o w document
  | url {document : Json} (hfile : o.file.getD [] = []) (hurl : o.url.getD [] ≠ [])
      (h : loadUrl w.depth w.outcome (o.url.getD []) = .ok document) : Reads o w document
  | input {document : Json} (hfile : o.file.getD [] = []) (hurl : o.url.getD [] = [])
      (hstdin : o.stdin = true) (h : Json.parse w.depth w.input = .ok document) : Reads o w document

/-- The source that a run names: its file or its URL, while standard input goes unnamed. -/
def namedSource (o : Options) : Option Text :=
  if o.file.getD [] ≠ [] then some (FilePath.ofText (o.file.getD [])).text
  else if o.url.getD [] ≠ [] then some (o.url.getD [])
  else .none

section Input

variable {o : Options} {w : Surroundings} {document : Json}

theorem loadDocument_iff {name : Text} (h : o.file.getD [] ≠ [] ∨ o.url.getD [] ≠ []) :
    loadDocument w.depth w.files w.outcome (o.file.getD []) (o.url.getD []) =
        .ok (name, document) ↔ o.namedSource = some name ∧ o.Reads w document := by
  rw [loadDocument_ok, namedSource]
  constructor
  · rintro (⟨hfile, hurl, rfl, hread⟩ | ⟨hfile, hurl, rfl, hread⟩)
    · exact ⟨if_pos hfile, .file hfile hurl hread⟩
    · rw [if_neg (not_not_intro hfile), if_pos hurl]
      exact ⟨rfl, .url hfile hurl hread⟩
  · rintro ⟨hname, hreads⟩
    cases hreads with
    | file hfile hurl hread =>
      rw [if_pos hfile, Option.some.injEq] at hname
      exact .inl ⟨hfile, hurl, hname.symm, hread⟩
    | url hfile hurl hread =>
      rw [if_neg (not_not_intro hfile), if_pos hurl, Option.some.injEq] at hname
      exact .inr ⟨hfile, hurl, hname.symm, hread⟩
    | input hfile hurl => exact absurd h (not_or.mpr ⟨not_not_intro hfile, not_not_intro hurl⟩)

theorem reads_unnamed_iff (hfile : o.file.getD [] = []) (hurl : o.url.getD [] = []) :
    o.Reads w document ↔ o.stdin = true ∧ Json.parse w.depth w.input = .ok document := by
  constructor
  · intro h
    cases h with
    | file hne => exact absurd hfile hne
    | url _ hne => exact absurd hurl hne
    | input _ _ hstdin hread => exact ⟨hstdin, hread⟩
  · rintro ⟨hstdin, hread⟩
    exact .input hfile hurl hstdin hread

end Input
end Options

/-- A run has a graph exactly if there is a document to read, and the document describes it. -/
theorem loadInput_ok {o : Options} {w : Surroundings} {applicationId : Json}
    {loaded : LoadedGraph} :
    loadInput o w applicationId = .ok loaded ↔ loaded.source = o.namedSource ∧
      ∃ document, o.Reads w document ∧
        NavigationGraph.ofDocument document applicationId = .ok loaded.graph := by
  by_cases hnamed : o.file.getD [] ≠ [] ∨ o.url.getD [] ≠ []
  · have hgiven : (!(o.file.getD []).isEmpty || !(o.url.getD []).isEmpty) = true := by
      simpa [List.isEmpty_iff] using hnamed
    rw [loadInput, if_pos hgiven, map_ok]
    constructor
    · rintro ⟨⟨name, graph⟩, hgraph, rfl⟩
      obtain ⟨document, hdocument, hgraph⟩ := loadGraph_ok.mp (mapError_ok.mp hgraph)
      obtain ⟨hname, hreads⟩ := (Options.loadDocument_iff hnamed).mp hdocument
      exact ⟨hname.symm, document, hreads, hgraph⟩
    · obtain ⟨source, graph⟩ := loaded
      rintro ⟨rfl, document, hreads, hgraph⟩
      obtain ⟨name, hname⟩ : ∃ name, o.namedSource = some name := by
        unfold Options.namedSource
        split
        · exact ⟨_, rfl⟩
        next hfile => exact ⟨_, if_pos (hnamed.resolve_left hfile)⟩
      have hdocument := (Options.loadDocument_iff hnamed).mpr ⟨hname, hreads⟩
      refine ⟨(name, graph), mapError_ok.mpr (loadGraph_ok.mpr ⟨document, hdocument, hgraph⟩), ?_⟩
      rw [hname]
  · obtain ⟨hfile, hurl⟩ := not_or.mp hnamed
    rw [not_not] at hfile hurl
    have hname : o.namedSource = none := by
      rw [Options.namedSource, if_neg (not_not_intro hfile), if_neg (not_not_intro hurl)]
    have hinput : loadInput o w applicationId =
        if o.stdin then readInput w.depth w.input applicationId else .error (.command .noInput) := by
      rw [loadInput, hfile, hurl]
      rfl
    simp only [hinput, hname, Options.reads_unnamed_iff hfile hurl]
    cases o.stdin with
    | false => simp
    | true => simp [readInput_ok]

/-- A document is turned into the sources that its graph is turned into. -/
theorem Settings.generateDocument_ok {s : Settings} {document : Json} {result : Generation} :
    s.generateDocument document = .ok (.ok result) ↔
      ∃ graph, NavigationGraph.ofDocument document s.applicationId = .ok graph ∧
        s.generate graph = .ok (.ok result) := by
  constructor
  · intro h
    obtain ⟨style, -, h⟩ := bind_ok.mp h
    split at h
    next graph hgraph => exact ⟨graph, hgraph, h⟩
    next e he =>
      obtain ⟨_, _, h⟩ := map_ok.mp h
      cases h
    next k hk => cases h
  · rintro ⟨graph, hgraph, hgenerate⟩
    obtain ⟨style, hstyle⟩ := sourceStyle_of_generate hgenerate
    refine bind_ok.mpr ⟨style, mapError_ok.mpr hstyle, ?_⟩
    rw [hgraph]
    exact hgenerate

/-! ### Effects -/

namespace Options

/-- Something fails in front of the writing: the settings, the graph, the choice of a directory, or
the generation. -/
inductive FailsEarly (o : Options) (w : Surroundings) : Prop
  | settings {f : CommandFault} (h : o.settings w.depth w.files = .error f) : FailsEarly o w
  | graph {s : Settings} {f : CommandFault} (hs : o.settings w.depth w.files = .ok s)
      (h : loadInput o w s.applicationId = .error f) : FailsEarly o w
  | directory {s : Settings} (hs : o.settings w.depth w.files = .ok s) (hdry : o.dryRun = false)
      (h : s.outputDir.isGiven = false) : FailsEarly o w
  | generation {s : Settings} {loaded : LoadedGraph} (hs : o.settings w.depth w.files = .ok s)
      (hloaded : loadInput o w s.applicationId = .ok loaded)
      (h : ∀ result, s.generate loaded.graph ≠ .ok (.ok result)) : FailsEarly o w

/-- What is printed about sources that were written: where their graph comes from, how many they are,
and what follows. -/
def successLines (o : Options) (g : Generation) (count : Nat) (root : FilePath) :
    List (Except CommandFault Printed) :=
  (o.namedSource.map fun source => .ok (sourceLine source)).toList ++
    .ok (writtenLine count root) :: g.epilogue o.verbose

theorem successLines_worded (o : Options) (hverbose : o.verbose = false) {g : Generation}
    {count : Nat} {root : FilePath} :
    ∀ step ∈ o.successLines g count root, ∃ p, step = .ok p := by
  intro step hstep
  simp only [successLines, Generation.epilogue, hverbose, Bool.false_eq_true, if_false,
    List.nil_append, List.mem_append, Option.mem_toList, Option.map_eq_some_iff, List.mem_cons,
    List.mem_map] at hstep
  rcases hstep with ⟨source, -, rfl⟩ | rfl | ⟨p, -, rfl⟩
  · exact ⟨_, rfl⟩
  · exact ⟨_, rfl⟩
  · exact ⟨p, rfl⟩

/-- The sources of the document that is read are written below the configured directory, which
leaves the files as given, and all that is to be said about it can be printed. -/
inductive Writes (o : Options) (w : Surroundings) : FileTree → Prop
  | sources {s : Settings} {document : Json} {result : Generation} {directory : Text}
      {written : List FilePath} {files : FileTree}
      (hs : o.settings w.depth w.files = .ok s)
      (hreads : o.Reads w document)
      (hgenerate : s.generateDocument document = .ok (.ok result))
      (hdirectory : s.outputDir = .text directory) (hgiven : directory ≠ [])
      (hwrite : result.sources.write w.files (.ofText directory) = (files, .ok written))
      (hshown : ∀ step ∈ o.successLines result written.length (.ofText directory),
        Report.IsShown w.shows step) :
      Writes o w files

end Options

section Run

variable {o : Options} {w : Surroundings} {p : Prepared} {result : Generation}

theorem Prepared.make_ok :
    make o w = .ok p ↔ o.settings w.depth w.files = .ok p.settings ∧
      loadInput o w p.settings.applicationId = .ok p.loaded ∧
        ∀ printed ∈ p.notice, w.shows printed = true := by
  constructor
  · intro h
    obtain ⟨s, hs, h⟩ := bind_ok.mp h
    obtain ⟨loaded, hloaded, h⟩ := bind_ok.mp h
    split at h
    · cases h
    next hnone =>
      cases h
      exact ⟨hs, hloaded, by simpa [notice] using hnone⟩
  · rintro ⟨hs, hloaded, hshown⟩
    refine bind_ok.mpr ⟨p.settings, hs, bind_ok.mpr ⟨p.loaded, hloaded, ?_⟩⟩
    have hnone : p.loaded.notice.find? (!w.shows ·) = none := by simpa [notice] using hshown
    rw [hnone]

theorem produce_ok :
    produce o p = .ok (.ok result) ↔
      (o.dryRun = true ∨ p.settings.outputDir.isGiven = true) ∧
        p.settings.generate p.loaded.graph = .ok (.ok result) := by
  unfold produce
  cases hdry : o.dryRun <;> cases hgiven : p.settings.outputDir.isGiven <;> simp [mapError_ok]

theorem Options.FailsEarly.stops (h : o.FailsEarly w) (hmake : Prepared.make o w = .ok p)
    (hproduce : produce o p = .ok (.ok result)) : False := by
  obtain ⟨hsettings, hload, -⟩ := Prepared.make_ok.mp hmake
  obtain ⟨hdirectory, hgenerate⟩ := produce_ok.mp hproduce
  cases h with
  | settings h => simp [h] at hsettings
  | graph hs h =>
    cases hs.symm.trans hsettings
    simp [h] at hload
  | directory hs hdry h =>
    cases hs.symm.trans hsettings
    simp [hdry, h] at hdirectory
  | generation hs hloaded h =>
    cases hs.symm.trans hsettings
    cases hloaded.symm.trans hload
    exact h result hgenerate

/-- Without a generation to deliver, a run touches nothing and claims nothing. -/
theorem runGenerate_quiet
    (h : ∀ p result, Prepared.make o w = .ok p → produce o p ≠ .ok (.ok result)) :
    (runGenerate o w).files = w.files ∧ ¬(runGenerate o w).ClaimsSuccess := by
  unfold runGenerate
  split
  · exact ⟨Report.fault_files, Report.fault_claims_nothing (by simp)⟩
  next p hmake =>
    have hnotice := p.writtenLine_notMem_notice
    split
    · exact ⟨Report.fault_files, Report.fault_claims_nothing hnotice⟩
    · exact ⟨Report.failure_files, Report.failure_claims_nothing (by simp) hnotice⟩
    next result hproduce => exact absurd hproduce (h p result hmake)

theorem runGenerate_deliver (hmake : Prepared.make o w = .ok p)
    (hproduce : produce o p = .ok (.ok result)) :
    runGenerate o w = deliver o w p result := by
  rw [runGenerate, hmake]
  simp only [hproduce]

theorem deliver_dry (hdry : o.dryRun = true) : (deliver o w p result).files = w.files := by
  rw [deliver, if_pos hdry]
  exact Report.print_files

/-- A delivery succeeds exactly if the writing of the sources does and all that follows can be
printed, and leaves what the writing leaves. -/
theorem deliver_success (hdry : o.dryRun = false) {after : FileTree} :
    (deliver o w p result).ending = .exit 0 ∧ (deliver o w p result).files = after ↔
      ∃ directory written, p.settings.outputDir = .text directory ∧
        result.sources.write w.files (.ofText directory) = (after, .ok written) ∧
        ∀ step ∈ .ok (writtenLine written.length (.ofText directory)) :: result.epilogue o.verbose,
          Report.IsShown w.shows step := by
  have hfault {printed : List Printed} {f : CommandFault} {files : FileTree} :
      (Report.fault w.shows printed f files).ending ≠ .exit 0 :=
    fun h => absurd (Report.fault_ending h) (by decide)
  rw [deliver, if_neg (Bool.eq_false_iff.mp hdry)]
  unfold Settings.outputPath
  cases hdirectory : p.settings.outputDir with
  | text directory =>
    simp only [Json.text.injEq, exists_and_left, exists_eq_left']
    split
    next after' f hwrite => simp [hwrite, hfault]
    next after' written hwrite =>
      rw [Report.print_ending, Report.print_files, hwrite]
      constructor
      · rintro ⟨⟨-, hshown⟩, rfl⟩
        exact ⟨written, rfl, hshown⟩
      · rintro ⟨written', heq, hshown⟩
        cases heq
        exact ⟨⟨rfl, hshown⟩, rfl⟩
  | null | bool _ | int _ | float _ | array _ | object _ => simp [hfault]

theorem runGenerate_dry (hdry : o.dryRun = true) : (runGenerate o w).files = w.files := by
  by_cases h : ∃ p result, Prepared.make o w = .ok p ∧ produce o p = .ok (.ok result)
  · obtain ⟨p, result, hmake, hproduce⟩ := h
    rw [runGenerate_deliver hmake hproduce, deliver_dry hdry]
  · have hquiet := runGenerate_quiet (o := o) (w := w) fun p result hmake hproduce =>
      h ⟨p, result, hmake, hproduce⟩
    exact hquiet.1

/-- The lines of a success are the announcement of the source and those behind it. -/
theorem successLines_shown (loaded : LoadedGraph) (hsource : loaded.source = o.namedSource)
    {count : Nat} {root : FilePath} :
    (∀ step ∈ o.successLines result count root, Report.IsShown w.shows step) ↔
      (∀ printed ∈ loaded.notice, w.shows printed = true) ∧
        ∀ step ∈ .ok (writtenLine count root) :: result.epilogue o.verbose,
          Report.IsShown w.shows step := by
  rw [Options.successLines, List.forall_mem_append, LoadedGraph.notice, hsource]
  refine and_congr_left fun _ => ?_
  simp [Report.IsShown]

theorem runGenerate_success (hdry : o.dryRun = false) {after : FileTree} :
    (runGenerate o w).ending = .exit 0 ∧ (runGenerate o w).files = after ↔ o.Writes w after := by
  constructor
  · rintro ⟨hending, hfiles⟩
    obtain ⟨p, result, hmake, hproduce⟩ :
        ∃ p result, Prepared.make o w = .ok p ∧ produce o p = .ok (.ok result) := by
      by_contra h
      have hquiet := runGenerate_quiet (o := o) (w := w) fun p result hmake hproduce =>
        h ⟨p, result, hmake, hproduce⟩
      exact hquiet.2 (.inl hending)
    rw [runGenerate_deliver hmake hproduce] at hending hfiles
    obtain ⟨directory, written, hdirectory, hwrite, hshown⟩ :=
      (deliver_success hdry).mp ⟨hending, hfiles⟩
    obtain ⟨hs, hload, hnotice⟩ := Prepared.make_ok.mp hmake
    obtain ⟨hgiven, hgenerate⟩ := produce_ok.mp hproduce
    obtain ⟨hsource, document, hreads, hdocument⟩ := loadInput_ok.mp hload
    have hresult : p.settings.generateDocument document = .ok (.ok result) :=
      Settings.generateDocument_ok.mpr ⟨p.loaded.graph, hdocument, hgenerate⟩
    refine .sources hs hreads hresult hdirectory ?_ hwrite
      ((successLines_shown _ hsource).mpr ⟨hnotice, hshown⟩)
    rintro rfl
    simp [hdry, hdirectory, Json.isGiven] at hgiven
  · rintro ⟨hs, hreads, hresult, hdirectory, hgiven, hwrite, hshown⟩
    rename_i s document result directory written
    obtain ⟨graph, hdocument, hgenerate⟩ := Settings.generateDocument_ok.mp hresult
    let p : Prepared := ⟨s, o.namedSource, graph⟩
    have hload : loadInput o w s.applicationId = .ok p.loaded :=
      loadInput_ok.mpr ⟨rfl, document, hreads, hdocument⟩
    have hlines := (successLines_shown p.loaded rfl).mp hshown
    have hmake : Prepared.make o w = .ok p := Prepared.make_ok.mpr ⟨hs, hload, hlines.1⟩
    have hisGiven : s.outputDir.isGiven = true := by simp [hdirectory, Json.isGiven, hgiven]
    have hproduce : produce o p = .ok (.ok result) := produce_ok.mpr ⟨.inr hisGiven, hgenerate⟩
    rw [runGenerate_deliver hmake hproduce]
    exact (deliver_success hdry).mpr ⟨_, _, hdirectory, hwrite, hlines.2⟩

end Run

theorem run_generate {args : List Text} {o : Options}
    (h : readCommandLine args = .ok ⟨some .generate, o⟩) (w : Surroundings) :
    run args w =
      if o.logLevel.isNone then .fault w.shows [] (.breakdown (.kind .operand)) w.files
      else runGenerate o w := by
  rw [run, h]

/-- What the arguments of the command do to the files.  Arguments that ask for no command leave them
alone, a dry run does, and so does whatever fails in front of the writing, without a claim of
success.  Else success means that the sources of the document were written as they are, and that the
console showed what is said about it. -/
theorem run_generate_effects (args : List Text) (w : Surroundings) :
    (∀ stop, readCommandLine args = .error stop →
      run args w = ⟨[], w.files, .exit stop.code⟩) ∧
    ∀ o, readCommandLine args = .ok ⟨some .generate, o⟩ →
      (o.dryRun = true → (run args w).files = w.files) ∧
      (o.FailsEarly w → (run args w).files = w.files ∧ ¬(run args w).ClaimsSuccess) ∧
      (o.dryRun = false → ∀ after,
        (run args w).ending = .exit 0 ∧ (run args w).files = after ↔
          o.logLevel.isSome = true ∧ o.Writes w after) := by
  refine ⟨fun stop hstop => by rw [run, hstop], fun o hargs => ?_⟩
  rw [run_generate hargs w]
  cases hlevel : o.logLevel with
  | none =>
    have hquiet : ¬(Report.fault w.shows [] (.breakdown (.kind .operand)) w.files).ClaimsSuccess :=
      Report.fault_claims_nothing (by simp)
    refine ⟨fun _ => rfl, fun _ => ⟨rfl, hquiet⟩, fun _ after => ?_⟩
    exact iff_of_false (fun h => hquiet (.inl h.1)) (by simp)
  | some level =>
    refine ⟨runGenerate_dry, fun hfails => ?_, fun hdry after => ?_⟩
    · exact runGenerate_quiet fun p result hmake hproduce => hfails.stops hmake hproduce
    · simpa using runGenerate_success hdry

/-! ### One screen -/

def screenDocument : Json :=
  .array [.object [("name", .text "app.Main"), ("actions", .array [.object
    [("id", .object [("package", .text "app"), ("name", .text "show")])]])]]

theorem Json.Readable.screen {depth : Nat} {name : Text} {action : Json}
    (h : Json.Readable depth action) :
    Json.Readable (depth + 3)
      (.array [.object [("name", .text name), ("actions", .array [action])]]) := by
  have hkeys : ([("name" : Text), "actions"] : List Text).Nodup := by decide
  have hactions := Json.Readable.array (List.forall_mem_singleton.mpr h)
  have hscreen : Json.Readable (depth + 2)
      (.object [("name", .text name), ("actions", .array [action])]) :=
    .object hkeys (List.forall_mem_cons.mpr ⟨.text _, List.forall_mem_singleton.mpr hactions⟩)
  exact .array (List.forall_mem_singleton.mpr hscreen)

theorem screenDocument_readable : Json.Readable 6 screenDocument := by
  have hid : Json.Readable 2 (.object [("package", .text "app"), ("name", .text "show")]) :=
    .object (by decide) (List.forall_mem_cons.mpr ⟨.text _, List.forall_mem_singleton.mpr (.text _)⟩)
  exact .screen (.object (List.nodup_singleton _) (List.forall_mem_singleton.mpr hid))

/-- A command that writes the sources of the document it is given. -/
def screenArguments : List Text :=
  ["generate", "--stdin", "-o", "out", "--navigation-package", "app"]

def screenSurroundings : Surroundings :=
  ⟨.empty, Json.write screenDocument, .failed .timeout, 6, fun _ => true⟩

theorem app_ne_nil : ("app" : Text) ≠ [] := by decide

def screenGraph : NavigationGraph :=
  ⟨[⟨.text "app.Main", none, [.bare ⟨"app", "show", app_ne_nil, by decide⟩], []⟩]⟩

def screenSettings : Settings :=
  { Settings.default with outputDir := .text "out", navigationPackage := .text "app" }

def screenOptions : Options :=
  { Options.none with stdin := true, outputDir := some "out", navigationPackage := some "app" }

def screenStyle : SourceStyle := ⟨true, .blanks 4, []⟩

def screenFile : DirectionsFile :=
  ((screenSettings.describe screenGraph).toOption.getD []).headD ⟨⟨[], []⟩, ⟨[], [], [], [], [], []⟩⟩

theorem screen_described : screenSettings.describe screenGraph = .ok [screenFile] := rfl

def screenImports : Imports :=
  (Imports.start "app" [] screenFile.decl.declaredNames).addAll (screenFile.decl.types?.getD [])

theorem screenImports_sorted : screenImports.sorted = [("android.os.Bundle" : Text)] := by
  have himported : screenImports.imported = [("android.os.Bundle" : Text)] := by decide +kernel
  rw [Imports.sorted, himported, List.mergeSort_singleton]

def screenText : Text :=
  screenStyle.layOutFile "app" ["android.os.Bundle"]
    ((screenStyle.classText screenImports.spell screenFile.decl).toOption.getD [])

def screenSources : Sources := [("app/MainDirections.java", Source.cleanUp "\n" screenText)]

theorem screen_source : screenSettings.source screenStyle screenFile =
    .ok (Source.cleanUp "\n" screenText) := by
  have hprintable := Settings.describe_printable screen_described screenFile List.mem_cons_self
  obtain ⟨types, htypes⟩ := ClassDecl.types?_some _ hprintable
  obtain ⟨body, hbody⟩ := screenStyle.classText_ok screenImports.spell screenFile.decl hprintable
  have himports : screenStyle.importsOf screenFile = .ok screenImports := by
    rw [SourceStyle.importsOf, screenImports, htypes]
    rfl
  have htext : screenStyle.fileText screenFile = .ok screenText := by
    refine bind_ok.mpr ⟨screenImports, himports, bind_ok.mpr ⟨body, hbody, ?_⟩⟩
    rw [screenText, screenImports_sorted, hbody]
    rfl
  exact Settings.source_ok.mpr ⟨screenText, htext, rfl⟩

theorem screen_generates : ∃ result, screenSettings.generate screenGraph = .ok (.ok result) ∧
    result.sources = screenSources := by
  obtain ⟨warnings, hwarnings⟩ := Settings.describe_warnings screen_described
  have hsources : screenSettings.sources screenStyle screenGraph = .ok screenSources := by
    refine (Settings.sources_ok screen_described).mpr ⟨.inr ⟨rfl, rfl, fun _ _ _ => rfl⟩, ?_⟩
    exact ⟨screenSources, .cons ⟨by decide +kernel, screen_source⟩ .nil, rfl⟩
  exact ⟨⟨screenSources, warnings, screenSettings.metadata screenGraph screenSources.length⟩,
    (Settings.generate_ok rfl screen_described).mpr ⟨hsources, hwarnings, rfl⟩, rfl⟩

theorem screen_is_written :
    readCommandLine screenArguments = .ok ⟨some .generate, screenOptions⟩ ∧
    (run screenArguments screenSurroundings).ending = .exit 0 ∧
    ((run screenArguments screenSurroundings).files.get?
      ["out", "app", "MainDirections.java"]).isSome = true := by
  have hargs : readCommandLine screenArguments = .ok ⟨some .generate, screenOptions⟩ := rfl
  have hdocument := Json.parse_write screenDocument_readable
  have hgraph : NavigationGraph.ofDocument screenDocument (.text []) = .ok screenGraph := rfl
  obtain ⟨result, hgenerate, hsources⟩ := screen_generates
  obtain ⟨after, written, hwrite, hthere⟩ : ∃ after written,
      screenSources.write .empty (.ofText "out") = (after, .ok written) ∧
        (after.get? ["out", "app", "MainDirections.java"]).isSome = true := by
    have hdone : (screenSources.write .empty (.ofText "out")).2.toOption.isSome = true := by
      decide +kernel
    have hthere : ((screenSources.write .empty (.ofText "out")).1.get?
        ["out", "app", "MainDirections.java"]).isSome = true := by
      decide +kernel
    cases hresult : screenSources.write .empty (.ofText "out") with
    | mk after outcome =>
      rw [hresult] at hdone hthere
      cases outcome with
      | error fault => cases hdone
      | ok written => exact ⟨after, written, rfl, hthere⟩
  have hwrites : screenOptions.Writes screenSurroundings after :=
    .sources rfl (.input rfl rfl rfl hdocument)
      (Settings.generateDocument_ok.mpr ⟨screenGraph, hgraph, hgenerate⟩) rfl (by decide)
      (hsources ▸ hwrite) fun step hstep => by
        obtain ⟨p, rfl⟩ := screenOptions.successLines_worded rfl step hstep
        exact ⟨p, rfl, rfl⟩
  have heffects := (run_generate_effects screenArguments screenSurroundings).2 screenOptions hargs
  obtain ⟨hending, hfiles⟩ := (heffects.2.2 rfl after).mpr ⟨rfl, hwrites⟩
  exact ⟨hargs, hending, hfiles ▸ hthere⟩

end NavDirections
