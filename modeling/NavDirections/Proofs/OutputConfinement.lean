import NavDirections.Generation.Output
import NavDirections.Proofs.GeneratedSources
import NavDirections.Proofs.Segments

/-!
# Sources stay below the output directory

A path that neither starts at a root nor has a segment of two dots leads below the directory it is
joined to.  The paths of generated sources are such paths unless a destination puts a slash in front
of a part of its class, or two dots between slashes into the id it is named after.
-/

namespace NavDirections

open Success

namespace Text

/-- A path that is relative and does not lead upwards. -/
def IsInner (t : Text) : Prop := t.head? ≠ some ('/' : CodePoint) ∧ Place.dots ∉ t.splitOn '/'

instance (t : Text) : Decidable t.IsInner := inferInstanceAs (Decidable (_ ∧ _))

/-- A tail without the mark is added to the last piece and leaves the others alone. -/
theorem splitOn_append_tail (mark : CodePoint) (t : Text) :
    ∃ init last, ∀ tail, mark ∉ tail → splitOn mark (t ++ tail) = init ++ [last ++ tail] := by
  -- The last piece grows at its front until the first mark comes; later code points go elsewhere.
  induction t with
  | nil => exact ⟨[], [], fun tail h => splitOn_of_notMem h⟩
  | cons c rest ih =>
    obtain ⟨init, last, ih⟩ := ih
    by_cases hc : c = mark
    · refine ⟨[] :: init, last, fun tail h => ?_⟩
      rw [List.cons_append, splitOn, if_pos hc, ih tail h]
      rfl
    · cases init with
      | nil =>
        refine ⟨[], c :: last, fun tail h => ?_⟩
        rw [List.cons_append, splitOn, if_neg hc, ih tail h]
        rfl
      | cons first pieces =>
        refine ⟨(c :: first) :: pieces, last, fun tail h => ?_⟩
        rw [List.cons_append, splitOn, if_neg hc, ih tail h]
        rfl

/-- A piece that ends with more than two code points is not two dots, whatever they are. -/
theorem dots_mem_splitOn_append_iff (t : Text) {tail tail' : Text}
    (h : ('/' : CodePoint) ∉ tail) (hlength : 2 < tail.length)
    (h' : ('/' : CodePoint) ∉ tail') (hlength' : 2 < tail'.length) :
    Place.dots ∈ splitOn '/' (t ++ tail) ↔ Place.dots ∈ splitOn '/' (t ++ tail') := by
  obtain ⟨init, last, hsplit⟩ := splitOn_append_tail '/' t
  have hlong (long : Text) (hlong : 2 < long.length) : Place.dots ≠ last ++ long := by
    intro heq
    have hcount := congrArg List.length heq
    rw [List.length_append] at hcount
    have hdots : Place.dots.length = 2 := rfl
    omega
  rw [hsplit tail h, hsplit tail' h', List.mem_append, List.mem_append, List.mem_singleton,
    List.mem_singleton, or_iff_left (hlong tail hlength), or_iff_left (hlong tail' hlength')]

theorem dots_notMem_splitOn_of_dotless {t : Text} (h : ('.' : CodePoint) ∉ t) :
    Place.dots ∉ splitOn '/' t := by
  intro hmem
  have hdot : ('.' : CodePoint) ∈ Place.dots := by decide
  exact h (mem_of_mem_splitOn hmem hdot).1

end Text

namespace FilePath

theorem root_eq_nil_iff (t : Text) : (ofText t).root = [] ↔ t.head? ≠ some ('/' : CodePoint) := by
  cases t with
  | nil => exact iff_of_true rfl (Option.some_ne_none _).symm
  | cons c rest =>
    rw [List.head?_cons, ne_eq, Option.some.injEq]
    by_cases hc : c = '/'
    · refine iff_of_false ?_ (not_not_intro hc)
      have hcount : ((c :: rest).takeWhile fun d : CodePoint => d == '/').length =
          (rest.takeWhile fun d : CodePoint => d == '/').length + 1 := by
        rw [List.takeWhile_cons, hc, beq_self_eq_true, if_pos rfl, List.length_cons]
      rw [ofText, hcount]
      dsimp only
      rw [if_neg (Nat.succ_ne_zero _)]
      split
      · exact List.cons_ne_nil _ _
      · exact List.cons_ne_nil _ _
    · exact iff_of_true (congrArg root (ofText_slashes 0 hc rest)) hc

theorem isInner_iff (t : Text) :
    t.IsInner ↔ (ofText t).root = [] ∧ Place.dots ∉ (ofText t).names := by
  have hnames : Place.dots ∈ (ofText t).names ↔ Place.dots ∈ t.splitOn '/' := by
    have hname : isName Place.dots = true := by decide
    exact List.mem_filter.trans (and_iff_left hname)
  rw [Text.IsInner, root_eq_nil_iff, hnames]

theorem leadingRoot_lastRooted_ne_nil {parts : List Text}
    (h : parts.any (fun t => !(ofText t).root.isEmpty) = true) :
    leadingRoot (lastRooted parts) ≠ [] := by
  induction parts with
  | nil => cases h
  | cons part rest ih =>
    rw [lastRooted]
    split
    next hrest => exact ih hrest
    next hrest =>
      rw [List.any_cons, Bool.eq_false_iff.mpr hrest, Bool.or_false] at h
      have hroot : (ofText part).root ≠ [] := by simpa using h
      exact hroot

theorem foldl_join_isInner_iff (parts : List Text) :
    ((parts.foldl (fun (path : FilePath) part => path.join (ofText part)) ⟨[], []⟩).root = [] ∧
      Place.dots ∉
        (parts.foldl (fun (path : FilePath) part => path.join (ofText part)) ⟨[], []⟩).names) ↔
      ∀ part ∈ parts, part.IsInner := by
  rw [foldl_join]
  split
  next hrooted =>
    refine iff_of_false (fun h => leadingRoot_lastRooted_ne_nil hrooted h.1) fun h => ?_
    obtain ⟨part, hpart, hroot⟩ := List.any_eq_true.mp hrooted
    have hnil := ((isInner_iff part).mp (h part hpart)).1
    rw [hnil] at hroot
    cases hroot
  next hrootless =>
    rw [List.nil_append, List.mem_flatMap]
    constructor
    · intro h part hpart
      have hroot := List.any_eq_false.mp (Bool.eq_false_iff.mpr hrootless) part hpart
      have hnil : (ofText part).root = [] := by simpa using hroot
      exact (isInner_iff part).mpr ⟨hnil, fun hmem => h.2 ⟨part, hpart, hmem⟩⟩
    · intro h
      refine ⟨rfl, ?_⟩
      rintro ⟨part, hpart, hmem⟩
      exact ((isInner_iff part).mp (h part hpart)).2 hmem

end FilePath

namespace ClassName

/-- No part of the class starts with a slash, and none has two dots between slashes. -/
structure KeepsInside (c : ClassName) : Prop where
  package : ∀ segment ∈ packageSegments c.package, segment.head? ≠ some ('/' : CodePoint)
  simple : c.simple.IsInner

theorem sourcePath_isInner_iff {c : ClassName} {before : Text}
    (hsimple : c.simple = before ++ directionsSuffix) :
    c.sourcePath.text.IsInner ↔ c.KeepsInside := by
  have hpath : c.sourcePath.text.IsInner ↔ ∀ part ∈ c.parts, part.IsInner := by
    rw [FilePath.isInner_iff, c.sourcePath_proper.ofText_text c.sourcePath_names_ne_nil]
    exact FilePath.foldl_join_isInner_iff c.parts
  have hsegment : ∀ segment ∈ packageSegments c.package,
      segment.IsInner ↔ segment.head? ≠ some ('/' : CodePoint) := by
    intro segment hmem
    have hdotless := Text.mark_notMem_of_mem_splitOn (List.mem_filter.mp hmem).1
    exact and_iff_left (Text.dots_notMem_splitOn_of_dotless hdotless)
  have hlast : (c.simple ++ sourceExtension).IsInner ↔ c.simple.IsInner := by
    have hhead : (c.simple ++ sourceExtension).head? = c.simple.head? := by
      rw [hsimple]
      cases before with
      | nil => rfl
      | cons b before => rfl
    have hdots : Place.dots ∈ Text.splitOn '/' (before ++ (directionsSuffix ++ sourceExtension)) ↔
        Place.dots ∈ Text.splitOn '/' (before ++ directionsSuffix) :=
      Text.dots_mem_splitOn_append_iff before (by decide) (by decide) (by decide) (by decide)
    rw [Text.IsInner, Text.IsInner, hhead, hsimple, List.append_assoc, hdots]
  rw [hpath, parts, List.forall_mem_append, List.forall_mem_singleton, hlast]
  constructor
  · intro h
    exact ⟨fun segment hmem => (hsegment segment hmem).mp (h.1 segment hmem), h.2⟩
  · intro h
    exact ⟨fun segment hmem => (hsegment segment hmem).mpr (h.package segment hmem), h.simple⟩

end ClassName

theorem Destination.simple_of_className {d : Destination} {applicationId : Text} {c : ClassName}
    (h : d.className applicationId = .ok c) : ∃ before, c.simple = before ++ directionsSuffix := by
  have hnaming := mapError_ok.mp h
  unfold directionsClassName at hnaming
  split at hnaming
  · split at hnaming
    · cases hnaming
      exact ⟨_, rfl⟩
    · cases hnaming
  · split at hnaming
    · cases hnaming
      exact ⟨_, rfl⟩
    · cases hnaming

theorem dot_notMem_splitName_simple (applicationId name : Text) :
    ('.' : CodePoint) ∉ (splitName applicationId name).simple := by
  unfold splitName
  split
  next hcut => exact Text.cutLast?_eq_none_iff.mp hcut
  next hcut => exact (Text.cutLast?_eq_some_iff.mp hcut).2

/-- The class of a named destination leads out only by a slash in front of a part, because its
simple name has no dots. -/
theorem Destination.keepsInside_iff_of_named {d : Destination} {applicationId name : Text}
    {c : ClassName} (hname : d.name = .text name) (hgiven : d.name.isGiven = true)
    (h : d.className applicationId = .ok c) :
    c.KeepsInside ↔
      ∀ part ∈ c.simple :: packageSegments c.package, part.head? ≠ some ('/' : CodePoint) := by
  have hsimple : c.simple = (splitName applicationId name).simple ++ directionsSuffix := by
    have hnaming := mapError_ok.mp h
    rw [directionsClassName, if_pos hgiven, hname] at hnaming
    cases hnaming
    rfl
  have hdotless : ('.' : CodePoint) ∉ c.simple := by
    rw [hsimple, List.mem_append, not_or]
    exact ⟨dot_notMem_splitName_simple applicationId name, by decide⟩
  have hdots := Text.dots_notMem_splitOn_of_dotless hdotless
  rw [List.forall_mem_cons]
  constructor
  · intro hkeeps
    exact ⟨hkeeps.simple.1, hkeeps.package⟩
  · intro hslash
    exact ⟨hslash.2, hslash.1, hdots⟩

namespace Place

def step (p : Place) (name : Text) : Place := if name = dots then p.parent else p ++ [name]

/-- The second place lies below the first: names lead there that are neither two dots nor a root. -/
def Encloses (outer p : Place) : Prop :=
  ∃ names, names ≠ [] ∧ dots ∉ names ∧ slash ∉ names ∧ p = outer ++ names

theorem foldl_step_of_dotsless {names : List Text} (h : dots ∉ names) (p : Place) :
    names.foldl step p = p ++ names := by
  induction names generalizing p with
  | nil => rw [List.foldl_nil, List.append_nil]
  | cons name rest ih =>
    rw [List.mem_cons, not_or] at h
    rw [List.foldl_cons, step, if_neg (Ne.symm h.1), ih h.2, List.append_assoc,
      List.singleton_append]

end Place

/-- The place that a path leads to where all directories on the way are there. -/
def FilePath.landing (path : FilePath) : Place :=
  path.names.foldl Place.step (if path.root.isEmpty then [] else [Place.slash])

/-- The path leads through the place: it is where the path or a directory on its way lies. -/
def FilePath.Passes (path : FilePath) (p : Place) : Prop :=
  ∃ count, p = FilePath.landing ⟨path.root, path.names.take count⟩

namespace FilePath

theorem slash_notMem_names (t : Text) : Place.slash ∉ (ofText t).names := by
  intro hmem
  have hmark : ('/' : CodePoint) ∈ Place.slash := by decide
  exact Text.mark_notMem_of_mem_splitOn (List.mem_filter.mp hmem).1 hmark

theorem passes_landing (path : FilePath) : path.Passes path.landing :=
  ⟨path.names.length, by rw [List.take_length]⟩

theorem Passes.of_parent {path : FilePath} {p : Place} (h : path.parent.Passes p) :
    path.Passes p := by
  obtain ⟨count, rfl⟩ := h
  refine ⟨min count (path.names.length - 1), ?_⟩
  rw [parent, List.dropLast_eq_take, List.take_take]

theorem landing_append {names : List Text} (h : Place.dots ∉ names) (path : FilePath) :
    landing ⟨path.root, path.names ++ names⟩ = path.landing ++ names := by
  rw [landing, List.foldl_append]
  exact Place.foldl_step_of_dotsless h path.landing

theorem landing_join_ofText {key : Text} (h : key.IsInner) (root : FilePath) :
    (root.join (ofText key)).landing = root.landing ++ (ofText key).names := by
  obtain ⟨hroot, hdots⟩ := (isInner_iff key).mp h
  rw [join, hroot, List.isEmpty_nil, if_pos rfl, landing_append hdots]

/-- On its way to an inner path below a root one comes to the root first, and then stays below. -/
theorem passes_join_ofText {key : Text} (h : key.IsInner) {root : FilePath} {p : Place}
    (hp : (root.join (ofText key)).Passes p) : root.Passes p ∨ root.landing.Encloses p := by
  obtain ⟨hroot, hdots⟩ := (isInner_iff key).mp h
  obtain ⟨count, rfl⟩ := hp
  rw [join, hroot, List.isEmpty_nil, if_pos rfl, List.take_append]
  have hinner : Place.dots ∉ (ofText key).names.take (count - root.names.length) :=
    fun hmem => hdots (List.mem_of_mem_take hmem)
  cases hbelow : (ofText key).names.take (count - root.names.length) with
  | nil =>
    rw [List.append_nil]
    exact .inl ⟨count, rfl⟩
  | cons name rest =>
    have hlong : root.names.length ≤ count := by
      by_contra hshort
      rw [Nat.sub_eq_zero_of_le (by omega), List.take_zero] at hbelow
      cases hbelow
    rw [List.take_of_length_le hlong, ← hbelow]
    exact .inr ⟨_, hbelow ▸ List.cons_ne_nil name rest, hinner,
      fun hmem => slash_notMem_names key (List.mem_of_mem_take hmem), landing_append hinner root⟩

end FilePath

namespace FileTree

theorem follow_ok {t : FileTree} {p q : Place} {names : List Text} (h : t.follow p names = .ok q) :
    q = names.foldl Place.step p := by
  induction names generalizing p with
  | nil =>
    cases h
    rfl
  | cons name rest ih =>
    rw [follow] at h
    split at h
    · split at h
      · cases h
      · exact ih h
    · cases h
    · cases h

theorem place_ok {t : FileTree} {path : FilePath} {p : Place} (h : t.place path = .ok p) :
    p = path.landing := by
  unfold place at h
  split at h
  · cases h
  · exact follow_ok (mapError_ok.mp h)

theorem target_ok {t : FileTree} {path : FilePath} {p : Place} (h : t.target path = .ok p) :
    p = path.landing := by
  unfold target at h
  split at h
  · cases h
  · exact place_ok (mapError_ok.mp h)

/-! ### Writing below a directory -/

/-- Outside of some places nothing is changed, but that directories which are missing on the way
there are made. -/
def ChangedOnly (way inside : Place → Prop) (t t' : FileTree) : Prop :=
  ∀ p, t'.get? p = t.get? p ∨ (way p ∧ t.get? p = none ∧ t'.get? p = some .directory) ∨ inside p

variable {way inside : Place → Prop} {t t' : FileTree}

theorem ChangedOnly.refl (way inside : Place → Prop) (t : FileTree) : t.ChangedOnly way inside t :=
  fun _ => .inl rfl

theorem ChangedOnly.trans {t'' : FileTree} (h : t.ChangedOnly way inside t')
    (h' : t'.ChangedOnly way inside t'') : t.ChangedOnly way inside t'' := by
  intro p
  rcases h p with hsame | ⟨hway, hnone, hmade⟩ | hinside
  · rw [← hsame]
    exact h' p
  -- What was made is not missing any more, so it is not made a second time.
  · rcases h' p with hsame' | ⟨-, hnone', -⟩ | hinside'
    · exact .inr (.inl ⟨hway, hnone, hsame'.trans hmade⟩)
    · rw [hmade] at hnone'
      cases hnone'
    · exact .inr (.inr hinside')
  · exact .inr (.inr hinside)

theorem get?_set_of_ne {p q : Place} (h : q ≠ p) (e : FileEntry) :
    (t.set p e).get? q = t.get? q := by
  cases hq : Place.alwaysThere q with
  | true => rw [get?, get?, hq, if_pos rfl, if_pos rfl]
  | false => rw [get?_set t p q e hq, if_neg h]

theorem makeDirectory_changes {path : FilePath} (h : t.makeDirectory path = .ok t')
    (hpath : way path.landing ∨ inside path.landing) : t.ChangedOnly way inside t' := by
  obtain ⟨p, hp, hset⟩ := bind_ok.mp h
  split at hset
  · cases hset
  next hnone =>
    cases hset
    intro q
    by_cases hq : q = p
    · rw [← target_ok hp, ← hq] at hpath
      refine .inr (hpath.imp_left fun hway => ⟨hway, hq ▸ hnone, ?_⟩)
      have hfree : Place.alwaysThere p = false := by
        by_contra hthere
        rw [get?, if_pos (Bool.not_eq_false _ ▸ hthere)] at hnone
        cases hnone
      rw [hq, get?_set t p p _ hfree, if_pos rfl]
    · exact .inl (get?_set_of_ne hq .directory)

theorem write_changes {path : FilePath} {content : Bytes} (h : t.write path content = .ok t')
    (hinside : inside path.landing) : t.ChangedOnly way inside t' := by
  obtain ⟨p, hp, hset⟩ := bind_ok.mp h
  split at hset
  · cases hset
  · cases hset
    intro q
    by_cases hq : q = p
    · exact .inr (.inr (hq ▸ target_ok hp ▸ hinside))
    · exact .inl (get?_set_of_ne hq _)

theorem ensureDirectory_changes (t : FileTree) {path : FilePath}
    (hpath : way path.landing ∨ inside path.landing) :
    t.ChangedOnly way inside (t.ensureDirectory path).tree := by
  unfold ensureDirectory
  split
  next t' hmade => exact makeDirectory_changes hmade hpath
  next => exact .refl way inside t

theorem makeDirectoriesFrom_changes (count : Nat) (t : FileTree) {path : FilePath}
    (hpath : ∀ p, path.Passes p → way p ∨ inside p) :
    t.ChangedOnly way inside (makeDirectoriesFrom count t path).tree := by
  have hhere := hpath _ path.passes_landing
  -- The directories around the path are on the way of the path itself.
  induction count generalizing path with
  | zero => exact ensureDirectory_changes t hhere
  | succ count ih =>
    have hparent : ∀ p, path.parent.Passes p → way p ∨ inside p := fun p hp => hpath p hp.of_parent
    have houter := ih hparent (hparent _ path.parent.passes_landing)
    unfold makeDirectoriesFrom
    split
    next t' hmade => exact makeDirectory_changes hmade hhere
    next =>
      split
      · dsimp only
        split
        · exact houter.trans (ensureDirectory_changes _ hhere)
        · exact houter
      · exact .refl way inside t

theorem writeDeep_changes {path : FilePath} (content : Bytes)
    (hpath : ∀ p, path.Passes p → way p ∨ inside p) (hinside : inside path.landing) :
    t.ChangedOnly way inside (t.writeDeep path content).tree := by
  have hmade : t.ChangedOnly way inside (t.makeDirectories path.parent).tree :=
    makeDirectoriesFrom_changes _ t fun p hp => hpath p hp.of_parent
  unfold writeDeep
  dsimp only
  split
  · exact hmade
  · split
    next t' hwrite => exact hmade.trans (write_changes hwrite hinside)
    next => exact hmade

end FileTree

/-- However far the writing of files gets, it changes only the places of these files and the way
there. -/
theorem writeFiles_changes {way inside : Place → Prop} {files : List OutputFile}
    (h : ∀ file ∈ files, (∀ p, file.target.Passes p → way p ∨ inside p) ∧
      inside file.target.landing) (t : FileTree) :
    t.ChangedOnly way inside (writeFiles t files).1 := by
  induction files generalizing t with
  | nil => exact .refl way inside t
  | cons file rest ih =>
    obtain ⟨hpath, hinside⟩ := h file List.mem_cons_self
    have hfirst : t.ChangedOnly way inside (t.writeDeep file.target file.content).tree :=
      FileTree.writeDeep_changes file.content hpath hinside
    unfold writeFiles
    dsimp only
    split
    · exact hfirst
    · exact hfirst.trans (ih (fun f hf => h f (List.mem_cons_of_mem file hf)) _)

theorem Sources.targets_of_encode {sources : Sources} {root : FilePath} {files : List OutputFile}
    (h : sources.encode root = .ok files) :
    files.map (·.target) = sources.map fun entry => root.join (.ofText entry.1) := by
  induction sources generalizing files with
  | nil =>
    cases h
    rfl
  | cons entry rest ih =>
    obtain ⟨content, -, h⟩ := bind_ok.mp h
    obtain ⟨others, hothers, h⟩ := bind_ok.mp h
    cases h
    rw [List.map_cons, List.map_cons, ih hothers]

theorem Sources.write_changes {sources : Sources} {root : FilePath}
    (hinner : ∀ key ∈ sources.map Prod.fst, key.IsInner)
    (hbelow : ∀ key ∈ sources.map Prod.fst,
      root.landing.Encloses (root.join (.ofText key)).landing) (t : FileTree) :
    t.ChangedOnly root.Passes root.landing.Encloses (sources.write t root).1 := by
  unfold write
  split
  next files hfiles =>
    refine writeFiles_changes (fun file hfile => ?_) t
    have htarget : file.target ∈ files.map (·.target) := List.mem_map_of_mem hfile
    rw [targets_of_encode hfiles] at htarget
    obtain ⟨entry, hentry, heq⟩ := List.mem_map.mp htarget
    have hkey : entry.1 ∈ sources.map Prod.fst := List.mem_map_of_mem hentry
    rw [← heq]
    exact ⟨fun p => FilePath.passes_join_ofText (hinner entry.1 hkey), hbelow entry.1 hkey⟩
  next => exact .refl _ _ t

/-! ### Generated sources -/

namespace Settings

variable {s : Settings} {g : NavigationGraph} {style : SourceStyle}
  {files : List DirectionsFile} {result : Generation}

theorem describe_of_generate (h : s.generate g = .ok (.ok result)) :
    ∃ files, s.describe g = .ok files := by
  obtain ⟨style, -, h⟩ := bind_ok.mp h
  obtain ⟨warnings, -, h⟩ := bind_ok.mp h
  cases hsources : s.sources style g with
  | error e =>
    rw [hsources] at h
    cases e with
    | reported e =>
      obtain ⟨_, -, h⟩ := map_ok.mp h
      cases h
    | breakdown b => cases h
  | ok sources =>
    obtain ⟨files, hfiles, -⟩ := bind_ok.mp hsources
    exact ⟨files, hfiles⟩

theorem keys_of_generate (h : s.generate g = .ok (.ok result)) (hfiles : s.describe g = .ok files)
    (key : Text) : key ∈ result.sources.map Prod.fst ↔
      key ∈ files.map (·.className.sourcePath.text) := by
  obtain ⟨style, hstyle⟩ := sourceStyle_of_generate h
  obtain ⟨hsources, -, -⟩ := (generate_ok hstyle hfiles).mp h
  obtain ⟨-, pairs, hpairs, hcollect⟩ := (sources_ok hfiles).mp hsources
  rw [hcollect, (Sources.keys_collect pairs).2, hpairs.paths]

theorem exists_generate (hstyle : s.sourceStyle = .ok style) (hfiles : s.describe g = .ok files)
    (hwrite : s.CanWrite g) : ∃ result, s.generate g = .ok (.ok result) := by
  obtain ⟨pairs, hpairs⟩ := exists_entryPerFile style hfiles hwrite
  obtain ⟨warnings, hwarnings⟩ := describe_warnings hfiles
  exact ⟨⟨.collect pairs, warnings, s.metadata g (Sources.collect pairs).length⟩,
    (generate_ok hstyle hfiles).mpr
      ⟨(sources_ok hfiles).mpr ⟨hwrite, pairs, hpairs, rfl⟩, hwarnings, rfl⟩⟩

/-- The paths of the sources have a property exactly when those of all acting destinations do. -/
theorem forall_keys_iff (h : s.generate g = .ok (.ok result)) (inner : Text → Prop) :
    (∀ key ∈ result.sources.map Prod.fst, inner key) ↔
      ∀ d ∈ g.acting, ∀ c, d.className s.applicationName = .ok c → inner c.sourcePath.text := by
  obtain ⟨files, hfiles⟩ := describe_of_generate h
  obtain ⟨host, -, hdescribed⟩ := describe_ok.mp hfiles
  have hall := (NavigationGraph.directionsFiles_ok.mp hdescribed).1
  constructor
  · intro hinner d hd c hc
    obtain ⟨f, hf, hfile⟩ := partner_of_mem_left hall hd
    have hsame : c = f.className :=
      Except.ok.inj (hc.symm.trans (Destination.directionsFile_ok.mp hfile).1)
    refine hinner _ ((keys_of_generate h hfiles _).mpr ?_)
    exact List.mem_map.mpr ⟨f, hf, by rw [hsame]⟩
  · intro hinner key hkey
    obtain ⟨f, hf, rfl⟩ := List.mem_map.mp ((keys_of_generate h hfiles key).mp hkey)
    obtain ⟨d, hd, hfile⟩ := partner_of_mem_right hall hf
    exact hinner d hd f.className (Destination.directionsFile_ok.mp hfile).1

/-- The paths of generated sources are relative without two dots exactly when the class of no acting
destination leads out.  Below any output directory such paths lead to places inside it, and writing
the sources changes nothing outside but that directories missing on the way there are made. -/
theorem generate_stays_inside_iff (h : s.generate g = .ok (.ok result)) :
    ((∀ key ∈ result.sources.map Prod.fst, key.IsInner) ↔
        ∀ d ∈ g.acting, ∀ c, d.className s.applicationName = .ok c → c.KeepsInside) ∧
      ((∀ key ∈ result.sources.map Prod.fst, key.IsInner) → ∀ (t : FileTree) (root : FilePath),
        (∀ key ∈ result.sources.map Prod.fst,
          root.landing.Encloses (root.join (.ofText key)).landing) ∧
        t.ChangedOnly root.Passes root.landing.Encloses (result.sources.write t root).1) := by
  constructor
  · rw [forall_keys_iff h]
    refine forall₄_congr fun d _ c hc => ?_
    obtain ⟨before, hsimple⟩ := Destination.simple_of_className hc
    exact ClassName.sourcePath_isInner_iff hsimple
  · intro hinner t root
    have hnames : ∀ key ∈ result.sources.map Prod.fst, (FilePath.ofText key).names ≠ [] := by
      refine (forall_keys_iff h _).mpr fun d _ c _ => ?_
      rw [c.sourcePath_proper.ofText_text c.sourcePath_names_ne_nil]
      exact c.sourcePath_names_ne_nil
    have hlanding : ∀ key ∈ result.sources.map Prod.fst,
        root.landing.Encloses (root.join (.ofText key)).landing := by
      intro key hkey
      have hdots := ((FilePath.isInner_iff key).mp (hinner key hkey)).2
      exact ⟨(FilePath.ofText key).names, hnames key hkey, hdots,
        FilePath.slash_notMem_names key, FilePath.landing_join_ofText (hinner key hkey) root⟩
    exact ⟨hlanding, Sources.write_changes hinner hlanding t⟩

/-- A screen with one action that is named after its id. -/
def screenOf (id action : ResourceId) : NavigationGraph :=
  ⟨[⟨.text [], some id, [.bare action], []⟩]⟩

theorem home_screen_stays_inside :
    ∃ result, default.generate (screenOf ⟨"app", "home", by decide, by decide⟩
        ⟨"app", "go", by decide, by decide⟩) = .ok (.ok result) ∧
      ∀ key ∈ result.sources.map Prod.fst, key.IsInner := by
  obtain ⟨files, hfiles⟩ : ∃ files,
      default.describe (screenOf ⟨"app", "home", by decide, by decide⟩
        ⟨"app", "go", by decide, by decide⟩) = .ok files := ⟨_, rfl⟩
  have hstyle : default.sourceStyle = .ok ⟨true, .blanks 4, []⟩ := rfl
  obtain ⟨result, hresult⟩ := exists_generate hstyle hfiles (.inr ⟨rfl, rfl, fun _ _ _ => rfl⟩)
  refine ⟨result, hresult, (generate_stays_inside_iff hresult).1.mpr ?_⟩
  intro d hd c hc
  rw [List.mem_singleton.mp hd] at hc
  cases hc
  exact ⟨by decide, by decide⟩

/-- An id may hold slashes and dots, and then its source goes outside of the output directory. -/
theorem dotted_id_leads_out :
    ∃ result, default.generate (screenOf ⟨"app", "../../x", by decide, by decide⟩
        ⟨"app", "go", by decide, by decide⟩) = .ok (.ok result) ∧
      ("app/../../xDirections.java" : Text) ∈ result.sources.map Prod.fst ∧
      ¬Text.IsInner "app/../../xDirections.java" ∧
      ¬(FilePath.ofText "out").landing.Encloses
        ((FilePath.ofText "out").join (.ofText "app/../../xDirections.java")).landing := by
  obtain ⟨files, hfiles, hpaths⟩ : ∃ files,
      default.describe (screenOf ⟨"app", "../../x", by decide, by decide⟩
        ⟨"app", "go", by decide, by decide⟩) = .ok files ∧
        ("app/../../xDirections.java" : Text) ∈ files.map (·.className.sourcePath.text) := by
    refine ⟨_, rfl, ?_⟩
    decide
  have hstyle : default.sourceStyle = .ok ⟨true, .blanks 4, []⟩ := rfl
  obtain ⟨result, hresult⟩ := exists_generate hstyle hfiles (.inr ⟨rfl, rfl, fun _ _ _ => rfl⟩)
  refine ⟨result, hresult, (keys_of_generate hresult hfiles _).mpr hpaths, by decide, ?_⟩
  rintro ⟨names, -, -, -, hlanding⟩
  have hplace : ((FilePath.ofText "out").join (.ofText "app/../../xDirections.java")).landing =
      (["xDirections.java"] : List Text) := by decide
  have hout : (FilePath.ofText "out").landing = (["out"] : List Text) := by decide
  rw [hplace, hout] at hlanding
  exact absurd (List.cons.inj hlanding).1 (by decide)

end Settings
end NavDirections
