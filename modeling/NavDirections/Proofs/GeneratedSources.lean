import NavDirections.Generation.Basic
import NavDirections.Proofs.Rendering
import NavDirections.Proofs.SourcePaths
import Mathlib.Data.List.Dedup

/-!
# The sources of a generation

A described graph has a source for each of its files.  Whether the sources keep an entry for each of
these depends on their paths: the classes have different full names, and may still share a file.
-/

namespace NavDirections

open Success

namespace Sources

/-- Puts sources under their paths, one after another. -/
def collect (pairs : List (Text × Text)) : Sources :=
  pairs.foldl (fun found pair => insert pair.1 pair.2 found) []

theorem keys_insert_of_mem {path : Text} {sources : Sources} (h : path ∈ sources.map Prod.fst)
    (source : Text) : (insert path source sources).map Prod.fst = sources.map Prod.fst := by
  induction sources with
  | nil => cases h
  | cons entry rest ih =>
    obtain ⟨p, s⟩ := entry
    rw [insert]
    by_cases hp : p = path
    · rw [if_pos hp, List.map_cons, List.map_cons, hp]
    · rw [List.map_cons, List.mem_cons, or_iff_right (Ne.symm hp)] at h
      rw [if_neg hp, List.map_cons, List.map_cons, ih h]

theorem insert_of_notMem {path : Text} {sources : Sources} (h : path ∉ sources.map Prod.fst)
    (source : Text) : insert path source sources = sources ++ [(path, source)] := by
  induction sources with
  | nil => rfl
  | cons entry rest ih =>
    obtain ⟨p, s⟩ := entry
    rw [List.map_cons, List.mem_cons, not_or] at h
    rw [insert, if_neg (Ne.symm h.1), ih h.2]
    rfl

theorem collect_of_nodup {pairs : List (Text × Text)} (h : (pairs.map Prod.fst).Nodup) :
    collect pairs = pairs := by
  have hfold (found : Sources) (hfresh : ∀ p ∈ pairs, p.1 ∉ found.map Prod.fst) :
      pairs.foldl (fun found pair => insert pair.1 pair.2 found) found = found ++ pairs := by
    induction pairs generalizing found with
    | nil => rw [List.foldl_nil, List.append_nil]
    | cons pair rest ih =>
      rw [List.map_cons, List.nodup_cons] at h
      have hput : insert pair.1 pair.2 found = found ++ [pair] :=
        insert_of_notMem (hfresh pair List.mem_cons_self) pair.2
      refine (congrArg (List.foldl _ · rest) hput).trans ?_
      rw [ih h.2, List.append_assoc, List.singleton_append]
      intro p hp hmem
      rw [List.map_append, List.mem_append] at hmem
      rcases hmem with hmem | hmem
      · exact hfresh p (List.mem_cons_of_mem pair hp) hmem
      · have hsame : p.1 = pair.1 := List.mem_singleton.mp hmem
        exact h.1 (hsame ▸ List.mem_map_of_mem hp)
  exact hfold [] fun _ _ h => nomatch h

theorem keys_collect (pairs : List (Text × Text)) :
    ((collect pairs).map Prod.fst).Nodup ∧
      ∀ path, path ∈ (collect pairs).map Prod.fst ↔ path ∈ pairs.map Prod.fst := by
  have hfold (found : Sources) (h : (found.map Prod.fst).Nodup) :
      ((pairs.foldl (fun found pair => insert pair.1 pair.2 found) found).map
          Prod.fst).Nodup ∧
        ∀ path, path ∈ (pairs.foldl (fun found pair => insert pair.1 pair.2 found)
          found).map Prod.fst ↔ path ∈ found.map Prod.fst ∨ path ∈ pairs.map Prod.fst := by
    induction pairs generalizing found with
    | nil => exact ⟨h, fun path => by simp⟩
    | cons pair rest ih =>
      by_cases hold : pair.1 ∈ found.map Prod.fst
      · have hkeys := keys_insert_of_mem hold pair.2
        obtain ⟨hnodup, hmem⟩ := ih (insert pair.1 pair.2 found) (hkeys ▸ h)
        refine ⟨hnodup, fun path => ?_⟩
        rw [List.foldl_cons, hmem, hkeys, List.map_cons, List.mem_cons]
        constructor
        · rintro (hfound | hrest)
          · exact .inl hfound
          · exact .inr (.inr hrest)
        · rintro (hfound | rfl | hrest)
          · exact .inl hfound
          · exact .inl hold
          · exact .inr hrest
      · have hput := insert_of_notMem hold pair.2
        have hfresh : ((found ++ [pair]).map Prod.fst).Nodup := by
          rw [List.map_append, List.nodup_append]
          refine ⟨h, List.nodup_singleton _, fun a ha b hb hab => hold ?_⟩
          rw [← List.mem_singleton.mp hb, ← hab]
          exact ha
        obtain ⟨hnodup, hmem⟩ := ih (found ++ [pair]) hfresh
        rw [List.foldl_cons, hput]
        refine ⟨hnodup, fun path => ?_⟩
        rw [hmem, List.map_append, List.mem_append, List.map_singleton, List.mem_singleton,
          List.map_cons, List.mem_cons, or_assoc]
  obtain ⟨hnodup, hmem⟩ := hfold [] .nil
  refine ⟨hnodup, fun path => ?_⟩
  rw [collect, hmem]
  exact or_iff_right (fun h => nomatch h)

theorem length_collect_iff (pairs : List (Text × Text)) :
    (collect pairs).length = pairs.length ↔ (pairs.map Prod.fst).Nodup := by
  constructor
  · intro h
    obtain ⟨hnodup, hmem⟩ := keys_collect pairs
    have hperm : ((collect pairs).map Prod.fst).Perm (pairs.map Prod.fst).dedup := by
      rw [List.perm_ext_iff_of_nodup hnodup (List.nodup_dedup _)]
      intro path
      rw [hmem, List.mem_dedup]
    have hlength : (pairs.map Prod.fst).dedup.length = (pairs.map Prod.fst).length := by
      rw [← hperm.length_eq, List.length_map, List.length_map, h]
    exact List.dedup_eq_self.mp ((List.dedup_sublist _).eq_of_length hlength)
  · intro h
    rw [collect_of_nodup h]

end Sources

/-! ### Files of a graph -/

namespace Settings

variable {s : Settings} {g : NavigationGraph} {style : SourceStyle}
  {files : List DirectionsFile}

theorem describe_ok : s.describe g = .ok files ↔
    ∃ host, s.hostClasses = .ok host ∧ g.directionsFiles s.applicationName host = .ok files := by
  rw [describe, bind_ok]
  simp only [mapError_ok]

theorem describe_canonical_nodup (h : s.describe g = .ok files) :
    (files.map (·.className.canonical)).Nodup := by
  obtain ⟨host, -, hfiles⟩ := describe_ok.mp h
  exact (NavigationGraph.directionsFiles_ok.mp hfiles).2

theorem describe_length (h : s.describe g = .ok files) : files.length = g.acting.length := by
  obtain ⟨host, -, hfiles⟩ := describe_ok.mp h
  exact (NavigationGraph.directionsFiles_ok.mp hfiles).1.length_eq.symm

theorem describe_printable (h : s.describe g = .ok files) : ∀ f ∈ files, f.decl.Printable := by
  intro f hf
  obtain ⟨host, -, hfiles⟩ := describe_ok.mp h
  obtain ⟨d, -, hd⟩ := partner_of_mem_right (NavigationGraph.directionsFiles_ok.mp hfiles).1 hf
  exact (Destination.directionsFile_ok.mp hd).2.printable

/-- Where labels can be written and arguments have text for names, nothing stops the warnings. -/
theorem warnings_total (h : ∀ d ∈ g.walk, ∀ a ∈ d.actions, d.label.isWritable = true ∧
    ∀ x ∈ a.args, x.name.text?.isSome = true) : ∃ warnings, g.warnings = .ok warnings := by
  have hwritten {d : Destination} (hd : d.label.isWritable = true) (message : Text → List Text) :
      ∃ texts, d.label.written.map message = .ok texts :=
    ⟨_, map_ok.mpr ⟨_, Json.written_ok.mpr ⟨hd, rfl⟩, rfl⟩⟩
  have hactions : ∀ entry ∈ g.actions, ∃ texts,
      NavigationGraph.actionWarning entry.1 entry.2 = .ok texts := by
    intro entry hentry
    obtain ⟨d, hd, hentry⟩ := List.mem_flatMap.mp hentry
    obtain ⟨a, ha, rfl⟩ := List.mem_map.mp hentry
    unfold NavigationGraph.actionWarning
    split
    · exact ⟨_, rfl⟩
    · exact hwritten (h d hd a ha).1 _
  have harguments : ∀ entry ∈ g.arguments, ∃ texts,
      NavigationGraph.argumentWarning entry.1 entry.2.1 entry.2.2 = .ok texts := by
    intro entry hentry
    obtain ⟨d, hd, hentry⟩ := List.mem_flatMap.mp hentry
    obtain ⟨a, ha, hentry⟩ := List.mem_flatMap.mp hentry
    obtain ⟨x, hx, rfl⟩ := List.mem_map.mp hentry
    obtain ⟨hlabel, hnames⟩ := h d hd a ha
    obtain ⟨t, ht⟩ := Json.eq_text (hnames x hx)
    simp only [NavigationGraph.argumentWarning, ht]
    split
    · exact ⟨_, rfl⟩
    · exact hwritten hlabel _
  obtain ⟨inActions, hinActions⟩ := mapM_total hactions
  obtain ⟨inArguments, hinArguments⟩ := mapM_total harguments
  exact ⟨_, bind_ok.mpr ⟨inActions, hinActions, bind_ok.mpr ⟨inArguments, hinArguments, rfl⟩⟩⟩

/-- The destinations of a described graph that have actions have text for labels, and so have their
arguments for names: nothing stops the warnings. -/
theorem describe_warnings (h : s.describe g = .ok files) :
    ∃ warnings, g.warnings = .ok warnings := by
  obtain ⟨host, -, hfiles⟩ := describe_ok.mp h
  have hall := (NavigationGraph.directionsFiles_ok.mp hfiles).1
  refine warnings_total fun d hd a ha => ?_
  have hacting : d ∈ g.acting := by
    refine List.mem_filter.mpr ⟨hd, ?_⟩
    rw [Bool.not_eq_true', List.isEmpty_eq_false_iff]
    exact List.ne_nil_of_mem ha
  obtain ⟨f, -, hf⟩ := partner_of_mem_left hall hacting
  obtain ⟨hname, hholds⟩ := Destination.directionsFile_ok.mp hf
  obtain ⟨nested, -, hnested⟩ := partner_of_mem_left hholds.types ha
  obtain ⟨held, hheld, -⟩ := Action.directionsClass_ok.mp hnested
  exact ⟨Json.isWritable_of_text (Destination.label_isText hname),
    a.name_isText hheld (hholds.named a ha)⟩

/-! ### Sources of files -/

/-- The settings are of the kinds that the files of a graph ask for. -/
def CanWrite (s : Settings) (g : NavigationGraph) : Prop :=
  g.acting = [] ∨ s.navigationPackage.isScalar = true ∧ s.lineEnding.text?.isSome = true ∧
    ∀ d ∈ g.acting, takesApplicationId d = true → s.applicationId.text?.isSome = true

theorem format_ok {code : Text} :
    (∃ text, s.format code = .ok text) ↔ s.lineEnding.text?.isSome = true := by
  rw [format]
  cases s.lineEnding <;> simp [Json.text?]

theorem source_ok {f : DirectionsFile} {text : Text} : s.source style f = .ok text ↔
    ∃ code, style.fileText f = .ok code ∧ s.format code = .ok text := by
  rw [source, bind_ok]
  simp only [mapError_ok]

theorem sourcePath_ok {d : Destination} {f : DirectionsFile} {path : Text} :
    s.sourcePath d f = .ok path ↔
      (takesApplicationId d = true → s.applicationId.text?.isSome = true) ∧
        path = f.className.sourcePath.text := by
  rw [sourcePath]
  cases htakes : takesApplicationId d with
  | false =>
    rw [Bool.false_and, if_neg Bool.false_ne_true, Except.ok.injEq,
      and_iff_right (fun h => nomatch h)]
    exact eq_comm
  | true =>
    cases htext : s.applicationId.text? with
    | none => simp
    | some id =>
      have hsome : true = true → (some id).isSome = true := fun _ => rfl
      rw [Option.isNone_some, Bool.and_false, if_neg Bool.false_ne_true, Except.ok.injEq,
        and_iff_right hsome]
      exact eq_comm

theorem sourceFile_ok {d : Destination} {f : DirectionsFile} {entry : Text × Text} :
    s.sourceFile style f d = .ok entry ↔
      s.navigationPackage.isScalar = true ∧ s.source style f = .ok entry.2 ∧
        s.sourcePath d f = .ok entry.1 := by
  rw [sourceFile]
  cases s.navigationPackage.isScalar with
  | false => simp
  | true =>
    rw [Bool.not_true, if_neg Bool.false_ne_true, and_iff_right rfl, bind_ok]
    constructor
    · rintro ⟨text, htext, h⟩
      obtain ⟨path, hpath, h⟩ := bind_ok.mp h
      cases h
      exact ⟨htext, hpath⟩
    · rintro ⟨htext, hpath⟩
      exact ⟨entry.2, htext, bind_ok.mpr ⟨entry.1, hpath, rfl⟩⟩

theorem mapM_sourceFile_ok {marked : List (DirectionsFile × Destination)}
    {pairs : List (Text × Text)} :
    marked.mapM (fun fd => s.sourceFile style fd.1 fd.2) = .ok pairs ↔
      (marked = [] ∨ s.navigationPackage.isScalar = true ∧ s.lineEnding.text?.isSome = true ∧
        ∀ fd ∈ marked, takesApplicationId fd.2 = true → s.applicationId.text?.isSome = true) ∧
      List.Forall₂ (fun fd entry => entry.1 = fd.1.className.sourcePath.text ∧
        s.source style fd.1 = .ok entry.2) marked pairs := by
  rw [mapM_ok]
  constructor
  · intro hpairs
    have hall := hpairs
    refine ⟨?_, hpairs.imp fun fd entry hentry => ?_⟩
    · cases hpairs with
      | nil => exact .inl rfl
      | @cons fd entry rest entries hentry _ =>
        obtain ⟨hscalar, hsource, -⟩ := sourceFile_ok.mp hentry
        obtain ⟨code, -, hformat⟩ := source_ok.mp hsource
        refine .inr ⟨hscalar, format_ok.mp ⟨entry.2, hformat⟩, fun fd' hfd' => ?_⟩
        obtain ⟨entry', -, hentry'⟩ := partner_of_mem_left hall hfd'
        exact (sourcePath_ok.mp (sourceFile_ok.mp hentry').2.2).1
    · obtain ⟨-, hsource, hpath⟩ := sourceFile_ok.mp hentry
      exact ⟨(sourcePath_ok.mp hpath).2, hsource⟩
  · rintro ⟨rfl | ⟨hscalar, -, hids⟩, hpairs⟩
    · cases hpairs
      exact .nil
    · refine ((List.forall₂_and_left _ _).mpr ⟨hids, hpairs⟩).imp fun fd entry hentry => ?_
      exact sourceFile_ok.mpr
        ⟨hscalar, hentry.2.2, sourcePath_ok.mpr ⟨hentry.1, hentry.2.1⟩⟩

/-- Every file has an entry of its own in order: its source under its path. -/
def EntryPerFile (s : Settings) (style : SourceStyle) (files : List DirectionsFile)
    (sources : Sources) : Prop :=
  List.Forall₂ (fun (f : DirectionsFile) (entry : Text × Text) =>
    entry.1 = f.className.sourcePath.text ∧ s.source style f = .ok entry.2) files sources

theorem EntryPerFile.paths {pairs : List (Text × Text)} (h : s.EntryPerFile style files pairs) :
    pairs.map Prod.fst = files.map (·.className.sourcePath.text) := by
  induction h with
  | nil => rfl
  | cons hentry _ ih => rw [List.map_cons, List.map_cons, hentry.1, ih]

theorem sources_ok (h : s.describe g = .ok files) {sources : Sources} :
    s.sources style g = .ok sources ↔
      s.CanWrite g ∧ ∃ pairs, s.EntryPerFile style files pairs ∧ sources = .collect pairs := by
  have hlength := describe_length h
  have hfiles : (files.zip g.acting).map Prod.fst = files :=
    List.map_fst_zip (Nat.le_of_eq hlength)
  have hacting : (files.zip g.acting).map Prod.snd = g.acting :=
    List.map_snd_zip (Nat.le_of_eq hlength.symm)
  have hempty : files.zip g.acting = [] ↔ g.acting = [] := by
    rw [← List.map_eq_nil_iff (f := Prod.snd), hacting]
  have hids (p : Destination → Prop) : (∀ fd ∈ files.zip g.acting, p fd.2) ↔
      ∀ d ∈ g.acting, p d := by
    conv_rhs => rw [← hacting]
    exact List.forall_mem_map.symm
  have hentries {pairs : List (Text × Text)} : s.EntryPerFile style files pairs ↔
      List.Forall₂ (fun fd entry => entry.1 = fd.1.className.sourcePath.text ∧
        s.source style fd.1 = .ok entry.2) (files.zip g.acting) pairs := by
    rw [EntryPerFile]
    conv_lhs => rw [← hfiles]
    exact List.forall₂_map_left_iff
  have hsources : s.sources style g =
      ((files.zip g.acting).mapM fun fd => s.sourceFile style fd.1 fd.2).mapError .breakdown >>=
        fun pairs => .ok (.collect pairs) := by
    rw [Settings.sources, h]
    rfl
  rw [hsources, bind_ok, CanWrite, ← hempty,
    ← hids fun d => takesApplicationId d = true → s.applicationId.text?.isSome = true]
  constructor
  · rintro ⟨pairs, hpairs, hcollect⟩
    obtain ⟨hwrite, hentry⟩ := mapM_sourceFile_ok.mp (mapError_ok.mp hpairs)
    cases hcollect
    exact ⟨hwrite, pairs, hentries.mpr hentry, rfl⟩
  · rintro ⟨hwrite, pairs, hentry, rfl⟩
    exact ⟨pairs, mapError_ok.mpr (mapM_sourceFile_ok.mpr ⟨hwrite, hentries.mp hentry⟩), rfl⟩

theorem exists_entryPerFile (style : SourceStyle) (h : s.describe g = .ok files)
    (hwrite : s.CanWrite g) : ∃ pairs, s.EntryPerFile style files pairs := by
  rcases hwrite with hacting | ⟨-, hending, -⟩
  · have hnone : files = [] := by
      rw [← List.length_eq_zero_iff, describe_length h, hacting]
      rfl
    exact ⟨[], hnone ▸ .nil⟩
  · have hentry : ∀ f ∈ files, ∃ entry : Text × Text,
        (s.source style f).map (Prod.mk f.className.sourcePath.text) = .ok entry := by
      intro f hf
      obtain ⟨code, hcode⟩ := style.fileText_ok (describe_printable h f hf)
      obtain ⟨text, htext⟩ : ∃ text, s.format code = .ok text := format_ok.mpr hending
      have hsource : s.source style f = .ok text := source_ok.mpr ⟨code, hcode, htext⟩
      exact ⟨_, map_ok.mpr ⟨text, hsource, rfl⟩⟩
    obtain ⟨pairs, hpairs⟩ := mapM_total hentry
    refine ⟨pairs, (mapM_ok.mp hpairs).imp fun f entry hf => ?_⟩
    obtain ⟨text, htext, rfl⟩ := map_ok.mp hf
    exact ⟨rfl, htext⟩

theorem sourceStyle_of_generate {result : Except GenerationFailure Generation}
    (h : s.generate g = .ok result) : ∃ style, s.sourceStyle = .ok style := by
  obtain ⟨style, hstyle, -⟩ := bind_ok.mp h
  exact ⟨style, mapError_ok.mp hstyle⟩

theorem generate_ok (hstyle : s.sourceStyle = .ok style) (h : s.describe g = .ok files)
    {result : Generation} :
    s.generate g = .ok (.ok result) ↔ s.sources style g = .ok result.sources ∧
      g.warnings = .ok result.warnings ∧
        result.metadata = s.metadata g result.sources.length := by
  obtain ⟨warnings, hwarnings⟩ := describe_warnings h
  rw [generate, hstyle, hwarnings]
  simp only [Except.mapError, bind, Except.bind]
  cases hsources : s.sources style g with
  | error e =>
    rw [show (Except.error e = Except.ok result.sources) ↔ False by simp, false_and, iff_false]
    cases e with
    | reported e =>
      simp only [Except.map]
      split <;> simp
    | breakdown b => simp
  | ok sources =>
    obtain ⟨found, messages, figures⟩ := result
    simp only [Except.ok.injEq, Generation.mk.injEq]
    constructor
    · rintro ⟨rfl, rfl, rfl⟩
      exact ⟨rfl, rfl, rfl⟩
    · rintro ⟨rfl, rfl, rfl⟩
      exact ⟨rfl, rfl, rfl⟩

theorem paths_nodup_iff (files : List DirectionsFile) :
    (files.map (·.className.sourcePath.text)).Nodup ↔
      files.Pairwise fun f f' => ¬f.className.SharesFile f'.className := by
  rw [List.Nodup, List.pairwise_map]
  refine List.Pairwise.iff fun f f' => ?_
  rw [ClassName.sharesFile_iff]

theorem lookup_file_count (s : Settings) (g : NavigationGraph) (count : Nat) :
    (s.metadata g count).lookup ("file_count" : Text) = some (.int count) := rfl

/-- The classes of a graph have different full names, and settings of the right kinds give them
sources.  The sources have an entry for each file, and as many as there are acting destinations,
exactly when no two of the classes share a file. -/
theorem generate_file_count_iff (hfiles : s.describe g = .ok files) :
    (files.map (·.className.canonical)).Nodup ∧
      ((∃ result, s.generate g = .ok (.ok result)) ↔
        (∃ style, s.sourceStyle = .ok style) ∧ s.CanWrite g) ∧
      ∀ result, s.generate g = .ok (.ok result) → ∃ style, s.sourceStyle = .ok style ∧
        (result.metadata.lookup ("file_count" : Text) = some (.int g.acting.length) ↔
          files.Pairwise fun f f' => ¬f.className.SharesFile f'.className) ∧
        (s.EntryPerFile style files result.sources ↔
          files.Pairwise fun f f' => ¬f.className.SharesFile f'.className) := by
  refine ⟨describe_canonical_nodup hfiles, ⟨?_, ?_⟩, fun result hresult => ?_⟩
  · rintro ⟨result, hresult⟩
    obtain ⟨style, hstyle⟩ := sourceStyle_of_generate hresult
    have hsources := ((generate_ok hstyle hfiles).mp hresult).1
    exact ⟨⟨style, hstyle⟩, ((sources_ok hfiles).mp hsources).1⟩
  · rintro ⟨⟨style, hstyle⟩, hwrite⟩
    obtain ⟨pairs, hpairs⟩ := exists_entryPerFile style hfiles hwrite
    obtain ⟨warnings, hwarnings⟩ := describe_warnings hfiles
    exact ⟨⟨.collect pairs, warnings, s.metadata g (Sources.collect pairs).length⟩,
      (generate_ok hstyle hfiles).mpr
        ⟨(sources_ok hfiles).mpr ⟨hwrite, pairs, hpairs, rfl⟩, hwarnings, rfl⟩⟩
  · obtain ⟨style, hstyle⟩ := sourceStyle_of_generate hresult
    obtain ⟨hsources, -, hmetadata⟩ := (generate_ok hstyle hfiles).mp hresult
    obtain ⟨-, pairs, hpairs, hcollect⟩ := (sources_ok hfiles).mp hsources
    have hcount : g.acting.length = pairs.length := by
      rw [← describe_length hfiles, hpairs.length_eq]
    have hpaths := paths_nodup_iff files
    rw [← hpairs.paths] at hpaths
    rw [hmetadata, lookup_file_count, hcollect, hcount, ← hpaths]
    refine ⟨style, hstyle, ?_, fun hentry => ?_, fun hnodup => ?_⟩
    · rw [← Sources.length_collect_iff, Option.some.injEq, Json.int.injEq, Int.ofNat_inj]
    · rw [hpairs.paths, ← hentry.paths]
      exact (Sources.keys_collect pairs).1
    · rw [Sources.collect_of_nodup hnodup]
      exact hpairs

/-- A graph of two destinations with one action each. -/
def twoScreens (first second : Text) : NavigationGraph :=
  let go : Action := ⟨⟨"app", "go", by decide, by decide⟩, none, [], rfl⟩
  ⟨[⟨.text first, none, [go], []⟩, ⟨.text second, none, [go], []⟩]⟩

theorem twoScreens_keep_both_files :
    ∃ result, default.generate (twoScreens "app.Main" "app.Details") = .ok (.ok result) ∧
      result.metadata.lookup ("file_count" : Text) = some (.int 2) := by
  obtain ⟨files, hfiles, hshared⟩ : ∃ files,
      default.describe (twoScreens "app.Main" "app.Details") = .ok files ∧
        files.Pairwise fun f f' => ¬f.className.SharesFile f'.className := by
    refine ⟨_, rfl, ?_⟩
    decide
  obtain ⟨-, hwrites, hcounts⟩ := generate_file_count_iff hfiles
  obtain ⟨result, hresult⟩ := hwrites.mpr ⟨⟨_, rfl⟩, .inr ⟨rfl, rfl, fun _ _ _ => rfl⟩⟩
  obtain ⟨style, -, hcount, -⟩ := hcounts result hresult
  exact ⟨result, hresult, hcount.mpr hshared⟩

/-- Packages that differ in an empty segment have one directory, so the second source takes the
place of the first. -/
theorem empty_segment_loses_file :
    ∃ files result, default.describe (twoScreens "a..b.Foo" "a.b.Foo") = .ok files ∧
      files.map (·.className.canonical) =
        (["a..b.FooDirections", "a.b.FooDirections"] : List Text) ∧
      default.generate (twoScreens "a..b.Foo" "a.b.Foo") = .ok (.ok result) ∧
      result.sources.map Prod.fst = (["a/b/FooDirections.java"] : List Text) ∧
      result.metadata.lookup ("file_count" : Text) = some (.int 1) ∧
      (twoScreens "a..b.Foo" "a.b.Foo").acting.length = 2 := by
  obtain ⟨files, hfiles, hnames, hpaths⟩ : ∃ files,
      default.describe (twoScreens "a..b.Foo" "a.b.Foo") = .ok files ∧
        files.map (·.className.canonical) =
          (["a..b.FooDirections", "a.b.FooDirections"] : List Text) ∧
        files.map (·.className.sourcePath.text) =
          (["a/b/FooDirections.java", "a/b/FooDirections.java"] : List Text) := by
    refine ⟨_, rfl, ?_, ?_⟩
    · decide
    · decide
  have hstyle : default.sourceStyle = .ok ⟨true, .blanks 4, []⟩ := rfl
  have hwrite : default.CanWrite (twoScreens "a..b.Foo" "a.b.Foo") :=
    .inr ⟨rfl, rfl, fun _ _ _ => rfl⟩
  obtain ⟨pairs, hpairs⟩ := exists_entryPerFile ⟨true, .blanks 4, []⟩ hfiles hwrite
  obtain ⟨warnings, hwarnings⟩ := describe_warnings hfiles
  obtain ⟨hnodup, hmem⟩ := Sources.keys_collect pairs
  have hperm : ((Sources.collect pairs).map Prod.fst).Perm
      (["a/b/FooDirections.java"] : List Text) := by
    rw [List.perm_ext_iff_of_nodup hnodup (List.nodup_singleton _)]
    intro path
    rw [hmem, hpairs.paths, hpaths]
    simp
  have hkeys := List.perm_singleton.mp hperm
  have hlength : (Sources.collect pairs).length = 1 := by
    rw [← List.length_map Prod.fst, hkeys]
    rfl
  refine ⟨files, ⟨.collect pairs, warnings,
    default.metadata (twoScreens "a..b.Foo" "a.b.Foo") (Sources.collect pairs).length⟩,
    hfiles, hnames, ?_, hkeys, ?_, rfl⟩
  · exact (generate_ok hstyle hfiles).mpr
      ⟨(sources_ok hfiles).mpr ⟨hwrite, pairs, hpairs, rfl⟩, hwarnings, rfl⟩
  · rw [hlength]
    rfl

end Settings
end NavDirections
