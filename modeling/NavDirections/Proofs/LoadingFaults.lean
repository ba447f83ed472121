import NavDirections.Loading.Basic
import NavDirections.Proofs.ReaderLimits

/-!
# What loading answers

A loader gives the value that the source holds or reports why there is none.  It breaks down instead
at a path that is too long, at bytes that are no text, at a URL that has no parts, and at a document
beyond the limits of the reader.
-/

namespace NavDirections

open Success Failure

/-- The bytes at the path are the text of the document. -/
def FileTree.HoldsDocument (t : FileTree) (path : FilePath) (document : Text) : Prop :=
  ∃ bytes text, t.read path = .ok bytes ∧ Text.ofUtf8 bytes = .ok text ∧
    document = Text.unifyLineEnds text

inductive FileAnswer (depth : Nat) (t : FileTree) (path : FilePath) : Except LoadFault Json → Prop
  | value {document : Text} {v : Json} (hholds : t.HoldsDocument path document)
      (h : Json.parse depth document = .ok v) : FileAnswer depth t path (.ok v)
  | notFound (h : t.hasEntry path = .ok false) :
      FileAnswer depth t path (.error (.reported (.fileNotFound path)))
  | unreadable {f : SystemFault} (h : t.read path = .error f) :
      FileAnswer depth t path (.error (.reported (.unreadableFile path f)))
  | invalid {document : Text} {e : JsonSyntaxError} (hholds : t.HoldsDocument path document)
      (h : Json.parse depth document = .error (.syntaxError e)) :
      FileAnswer depth t path (.error (.reported (.invalidFile path e)))

inductive StrayFile (depth : Nat) (t : FileTree) (path : FilePath) : Prop
  | path {f : SystemFault} (hnull : path.hasNull = false) (hplace : t.place path = .error f)
      (h : f.problem = .nameTooLong)
  | bytes {bytes : Bytes} {f : MalformedBytes} (hthere : t.hasEntry path = .ok true)
      (hread : t.read path = .ok bytes) (h : Text.ofUtf8 bytes = .error f)
  | document {document : Text} (hthere : t.hasEntry path = .ok true)
      (hholds : t.HoldsDocument path document) (h : Json.ExceedsLimits depth document)

variable {depth : Nat} {t : FileTree} {path : FilePath}

theorem FileTree.hasEntry_error {f : SystemFault} :
    t.hasEntry path = .error f ↔
      path.hasNull = false ∧ t.place path = .error f ∧ f.problem = .nameTooLong := by
  unfold hasEntry
  cases hnull : path.hasNull with
  | true => simp
  | false =>
    cases hplace : t.place path with
    | ok p => simp
    | error g =>
      by_cases hlong : g.problem = .nameTooLong
      · simp only [Bool.false_eq_true, if_false, if_pos hlong, Except.error.injEq, true_and]
        constructor
        · rintro rfl
          exact ⟨rfl, hlong⟩
        · exact And.left
      · simp only [Bool.false_eq_true, if_false, if_neg hlong, Except.error.injEq, true_and]
        refine iff_of_false nofun ?_
        rintro ⟨rfl, hlong'⟩
        exact hlong hlong'

theorem FileAnswer.reported {f : LoadFault} (h : FileAnswer depth t path (.error f)) :
    ∃ e, f = .reported e := by
  cases h with
  | notFound _ => exact ⟨_, rfl⟩
  | unreadable _ => exact ⟨_, rfl⟩
  | invalid _ _ => exact ⟨_, rfl⟩

theorem FileTree.HoldsDocument.readJson {document : Text} (h : t.HoldsDocument path document) :
    t.readJson depth path = (Json.parse depth document).mapError .document := by
  obtain ⟨bytes, text, hread, htext, rfl⟩ := h
  simp only [FileTree.readJson, hread, htext, Except.mapError, bind, Except.bind]

theorem fileAnswer_of_not_stray (h : ¬StrayFile depth t path) :
    FileAnswer depth t path (loadFile depth t path) := by
  unfold loadFile
  split
  next f hentry =>
    obtain ⟨hnull, hplace, hlong⟩ := FileTree.hasEntry_error.mp hentry
    exact absurd (.path hnull hplace hlong) h
  next hentry => exact .notFound hentry
  next hthere =>
    cases hread : t.read path with
    | error f =>
      rw [FileTree.readJson, hread]
      exact .unreadable hread
    | ok bytes =>
      cases htext : Text.ofUtf8 bytes with
      | error f => exact absurd (.bytes hthere hread htext) h
      | ok text =>
        have hholds : t.HoldsDocument path (Text.unifyLineEnds text) :=
          ⟨bytes, text, hread, htext, rfl⟩
        rw [hholds.readJson]
        cases hparse : Json.parse depth (Text.unifyLineEnds text) with
        | ok v => exact .value hholds hparse
        | error f =>
          cases f with
          | syntaxError e => exact .invalid hholds hparse
          | hugeInteger digits =>
            exact absurd (.document hthere hholds (.inl ⟨digits, hparse⟩)) h
          | tooDeep => exact absurd (.document hthere hholds (.inr hparse)) h

theorem StrayFile.breaks (h : StrayFile depth t path) :
    ∃ f, loadFile depth t path = .error f ∧ ∀ e, f ≠ .reported e := by
  cases h with
  | @path f hnull hplace hlong =>
    refine ⟨.system f, ?_, fun _ h => nomatch h⟩
    rw [loadFile, FileTree.hasEntry_error.mpr ⟨hnull, hplace, hlong⟩]
  | @bytes bytes f hthere hread htext =>
    refine ⟨.notUtf8 f, ?_, fun _ h => nomatch h⟩
    simp only [loadFile, hthere, FileTree.readJson, hread, htext, Except.mapError, bind, Except.bind]
  | document hthere hholds hlimits =>
    obtain ⟨digits, hparse⟩ | hparse := hlimits
    · refine ⟨.hugeInteger digits, ?_, fun _ h => nomatch h⟩
      simp only [loadFile, hthere, hholds.readJson, hparse, Except.mapError]
    · refine ⟨.tooDeep, ?_, fun _ h => nomatch h⟩
      simp only [loadFile, hthere, hholds.readJson, hparse, Except.mapError]

theorem fileAnswer_iff :
    FileAnswer depth t path (loadFile depth t path) ↔ ¬StrayFile depth t path := by
  refine ⟨fun hanswer hstray => ?_, fileAnswer_of_not_stray⟩
  obtain ⟨f, hf, hbreak⟩ := hstray.breaks
  rw [hf] at hanswer
  obtain ⟨e, rfl⟩ := hanswer.reported
  exact hbreak e rfl

/-- Neither the path nor a name of it is too long. -/
structure FilePath.IsShort (path : FilePath) : Prop where
  path_le : FileTree.byteCount path.text ≤ FileTree.pathLimit
  names_le : ∀ name ∈ path.names, FileTree.byteCount name ≤ FileTree.nameLimit

theorem FileTree.follow_short {p : Place} {names : List Text} {problem : SystemProblem}
    (h : ∀ name ∈ names, byteCount name ≤ nameLimit) (hfollow : t.follow p names = .error problem) :
    problem ≠ .nameTooLong := by
  induction names generalizing p with
  | nil => cases hfollow
  | cons name rest ih =>
    obtain ⟨hname, hrest⟩ := List.forall_mem_cons.mp h
    rw [follow] at hfollow
    split at hfollow
    · rw [if_neg (Nat.not_lt.mpr hname)] at hfollow
      exact ih hrest hfollow
    · cases hfollow
      exact nofun
    · cases hfollow
      exact nofun

theorem FileTree.place_short {f : SystemFault} (h : path.IsShort)
    (hplace : t.place path = .error f) : f.problem ≠ .nameTooLong := by
  unfold place at hplace
  rw [if_neg (Nat.not_lt.mpr h.path_le)] at hplace
  obtain ⟨problem, hfollow, rfl⟩ := mapError_error.mp hplace
  exact follow_short h.names_le hfollow

/-- At a short path that leads to no file, or to one with a moderate document, loading does not
break down. -/
theorem not_strayFile (hpath : path.IsShort)
    (hdocument : ∀ bytes, t.read path = .ok bytes →
      ∃ text, Text.ofUtf8 bytes = .ok text ∧ Json.Moderate depth (Text.unifyLineEnds text)) :
    ¬StrayFile depth t path := by
  rintro (⟨-, hplace, hlong⟩ | ⟨-, hread, hfault⟩ | ⟨-, ⟨bytes, text, hread, htext, rfl⟩, hlimits⟩)
  · exact FileTree.place_short hpath hplace hlong
  · obtain ⟨text, htext, -⟩ := hdocument _ hread
    cases hfault.symm.trans htext
  · obtain ⟨text', htext', hmoderate⟩ := hdocument bytes hread
    cases htext.symm.trans htext'
    exact hmoderate.not_exceedsLimits hlimits

def Url.IsComplete (url : Text) : Prop :=
  ∃ parts, Url.parts url = .ok parts ∧ parts.scheme ≠ [] ∧ parts.authority ≠ []

/-- The value of the answer to a request, or a report about the URL. -/
inductive UrlAnswer (depth : Nat) (outcome : RequestOutcome) (url : Text) : Except LoadFault Json → Prop
  | value {status : Int} {body : Text} {v : Json} (hurl : Url.IsComplete url)
      (houtcome : outcome = .answered status body) (hstatus : ¬(400 ≤ status ∧ status < 600))
      (h : Json.parse depth body = .ok v) : UrlAnswer depth outcome url (.ok v)
  | error {e : LoadError} (h : ∀ path, e ≠ .fileNotFound path) :
      UrlAnswer depth outcome url (.error (.reported e))

inductive StrayUrl (depth : Nat) (outcome : RequestOutcome) (url : Text) : Prop
  | url {f : UrlFault} (h : Url.parts url = .error f)
  | failure {k : KindFault} (hurl : Url.IsComplete url) (h : outcome = .failed (.incomplete k))
  | document {status : Int} {body : Text} (hurl : Url.IsComplete url)
      (houtcome : outcome = .answered status body) (hstatus : ¬(400 ≤ status ∧ status < 600))
      (h : Json.ExceedsLimits depth body)

variable {outcome : RequestOutcome} {url : Text}

theorem checkUrl_ok : checkUrl url = .ok () ↔ Url.IsComplete url := by
  unfold checkUrl Url.IsComplete
  cases Url.parts url with
  | error f => simp [Except.mapError, bind, Except.bind]
  | ok parts =>
    simp only [Except.mapError, bind, Except.bind, Except.ok.injEq, exists_eq_left', Bool.or_eq_true,
      List.isEmpty_iff, ne_eq, ← not_or]
    by_cases hempty : parts.scheme = [] ∨ parts.authority = []
    · simp [hempty]
    · simp [hempty, pure, Except.pure]

theorem checkUrl_error {f : LoadFault} (h : checkUrl url = .error f) :
    f = .reported (.invalidUrl url) ∨ ∃ g, Url.parts url = .error g := by
  rcases bind_error.mp h with h | ⟨parts, -, h⟩
  · obtain ⟨g, hg, -⟩ := mapError_error.mp h
    exact .inr ⟨g, hg⟩
  · split at h
    · exact .inl (Except.error.inj h).symm
    · cases h

theorem UrlAnswer.reported {f : LoadFault} (h : UrlAnswer depth outcome url (.error f)) :
    ∃ e, f = .reported e := by
  cases h with
  | error _ => exact ⟨_, rfl⟩

theorem urlAnswer_of_not_stray (h : ¬StrayUrl depth outcome url) :
    UrlAnswer depth outcome url (loadUrl depth outcome url) := by
  cases hcheck : checkUrl url with
  | error f =>
    obtain rfl | ⟨g, hg⟩ := checkUrl_error hcheck
    · rw [loadUrl, hcheck]
      exact .error fun _ h => nomatch h
    · exact absurd (.url hg) h
  | ok _ =>
    have hurl := checkUrl_ok.mp hcheck
    rw [loadUrl, hcheck]
    cases outcome with
    | failed failure =>
      cases failure with
      | timeout | connection | other reason => exact .error fun _ h => nomatch h
      | incomplete k => exact absurd (.failure hurl rfl) h
    | answered status body =>
      dsimp only [bind, Except.bind, jsonOfOutcome]
      split
      next => exact .error fun _ h => nomatch h
      next hstatus =>
        cases hparse : Json.parse depth body with
        | ok v => exact .value hurl rfl hstatus hparse
        | error f =>
          cases f with
          | syntaxError e => exact .error fun _ h => nomatch h
          | hugeInteger digits =>
            exact absurd (.document hurl rfl hstatus (.inl ⟨digits, hparse⟩)) h
          | tooDeep => exact absurd (.document hurl rfl hstatus (.inr hparse)) h

theorem StrayUrl.breaks (h : StrayUrl depth outcome url) :
    ∃ f, loadUrl depth outcome url = .error f ∧ ∀ e, f ≠ .reported e := by
  cases h with
  | @url f hparts =>
    refine ⟨.malformedUrl f, ?_, fun _ h => nomatch h⟩
    simp only [loadUrl, checkUrl, hparts, Except.mapError, bind, Except.bind]
  | @failure k hurl houtcome =>
    refine ⟨.kind k, ?_, fun _ h => nomatch h⟩
    rw [loadUrl, checkUrl_ok.mpr hurl, houtcome]
    rfl
  | document hurl houtcome hstatus hlimits =>
    rw [loadUrl, checkUrl_ok.mpr hurl, houtcome]
    dsimp only [bind, Except.bind, jsonOfOutcome]
    rw [if_neg hstatus]
    obtain ⟨digits, hparse⟩ | hparse := hlimits
    · exact ⟨.hugeInteger digits, by rw [hparse, Except.mapError], fun _ h => nomatch h⟩
    · exact ⟨.tooDeep, by rw [hparse, Except.mapError], fun _ h => nomatch h⟩

theorem urlAnswer_iff :
    UrlAnswer depth outcome url (loadUrl depth outcome url) ↔ ¬StrayUrl depth outcome url := by
  refine ⟨fun hanswer hstray => ?_, urlAnswer_of_not_stray⟩
  obtain ⟨f, hf, hbreak⟩ := hstray.breaks
  rw [hf] at hanswer
  obtain ⟨e, rfl⟩ := hanswer.reported
  exact hbreak e rfl

/-- Neither a bracket nor a code point that folds to a delimiter is in the text. -/
def Url.IsPlain (url : Text) : Prop :=
  ∀ c ∈ url, c ≠ '[' ∧ c ≠ ']' ∧ c.val ∉ Url.foldedDelimiters

theorem Url.IsPlain.of_subset {t : Text} (h : IsPlain url) (ht : t ⊆ url) : IsPlain t :=
  fun c hc => h c (ht hc)

theorem Url.checkAuthority_plain {authority : Text} (h : IsPlain authority) :
    checkAuthority authority = .ok () := by
  have hopens : authority.contains (CodePoint.ofChar '[') = false := by
    rw [List.contains_eq_mem, decide_eq_false_iff_not]
    exact fun hmem => (h _ hmem).1 rfl
  have hcloses : authority.contains (CodePoint.ofChar ']') = false := by
    rw [List.contains_eq_mem, decide_eq_false_iff_not]
    exact fun hmem => (h _ hmem).2.1 rfl
  have hfolds : (authority.any fun c => foldedDelimiters.contains c.val) = false := by
    rw [List.any_eq_false]
    intro c hc
    rw [List.contains_eq_mem, decide_eq_true_eq]
    exact (h c hc).2.2
  rw [checkAuthority, hopens, hcloses, hfolds]
  rfl

theorem Url.cutScheme_subset (t : Text) : (cutScheme t).2 ⊆ t := by
  unfold cutScheme
  split
  next scheme rest hcut =>
    split
    · rw [(Text.cutFirst?_eq_some_iff.mp hcut).1]
      exact fun c hc => List.mem_append_right _ (List.mem_cons_of_mem _ hc)
    · exact List.Subset.refl t
  next => exact List.Subset.refl t

theorem Url.parts_plain (h : IsPlain url) : ∃ parts, Url.parts url = .ok parts := by
  unfold parts
  dsimp only
  generalize hkept : (url.dropWhile fun c => c.val ≤ 0x20).filter (fun c : CodePoint =>
    c != '\t' && c != '\r' && c != '\n') = kept
  have hurl : kept ⊆ url :=
    hkept ▸ List.Subset.trans List.filter_sublist.subset (List.dropWhile_subset _)
  have hrest := List.Subset.trans (cutScheme_subset kept) hurl
  split
  next rest hslashes =>
    have hauthority : IsPlain (rest.takeWhile fun c => !endsAuthority c) := by
      refine h.of_subset fun c hc => hrest ?_
      rw [Text.dropStart?_eq_some_iff.mp hslashes]
      exact List.mem_append_right _ (List.takeWhile_subset _ hc)
    rw [checkAuthority_plain hauthority]
    exact ⟨_, rfl⟩
  next => exact ⟨_, rfl⟩

/-- A plain URL, of which a response comes with a moderate body, does not break loading down. -/
theorem not_strayUrl (hurl : Url.IsPlain url) (hfailure : ∀ k, outcome ≠ .failed (.incomplete k))
    (hbody : ∀ status body, outcome = .answered status body → Json.Moderate depth body) :
    ¬StrayUrl depth outcome url := by
  rintro (hparts | ⟨-, houtcome⟩ | ⟨-, houtcome, -, hlimits⟩)
  · obtain ⟨parts, hparts'⟩ := Url.parts_plain hurl
    cases hparts.symm.trans hparts'
  · exact hfailure _ houtcome
  · exact (hbody _ _ houtcome).not_exceedsLimits hlimits

/-! ### Loaders -/

/-- Both loaders give the value or a report exactly where they do not break down, and a file counts
as not found only where nothing lies at the path.  They break down in none of the plain cases. -/
theorem loaders_answer_iff (depth : Nat) (t : FileTree) (path : FilePath) (outcome : RequestOutcome)
    (url : Text) :
    (FileAnswer depth t path (loadFile depth t path) ↔ ¬StrayFile depth t path) ∧
    (UrlAnswer depth outcome url (loadUrl depth outcome url) ↔ ¬StrayUrl depth outcome url) ∧
    (path.IsShort →
      (∀ bytes, t.read path = .ok bytes →
        ∃ text, Text.ofUtf8 bytes = .ok text ∧ Json.Moderate depth (Text.unifyLineEnds text)) →
      ¬StrayFile depth t path) ∧
    (Url.IsPlain url → (∀ k, outcome ≠ .failed (.incomplete k)) →
      (∀ status body, outcome = .answered status body → Json.Moderate depth body) →
      ¬StrayUrl depth outcome url) :=
  ⟨fileAnswer_iff, urlAnswer_iff, not_strayFile, not_strayUrl⟩

/-- A file with a byte that begins no code point is not reported. -/
theorem stray_byte_escapes :
    let t : FileTree := ⟨[(["graph.json"], .file [0xff])]⟩
    loadFile 8 t (.ofText "graph.json") = .error (.notUtf8 ⟨0xff, 0, 0, .noStart⟩) ∧
      ¬FileAnswer 8 t (.ofText "graph.json") (loadFile 8 t (.ofText "graph.json")) := by
  intro t
  have hthere : t.hasEntry (.ofText "graph.json") = .ok true := rfl
  have hread : t.read (.ofText "graph.json") = .ok [0xff] := rfl
  have hfault : Text.ofUtf8 [0xff] = .error ⟨0xff, 0, 0, .noStart⟩ := by
    rw [Text.ofUtf8, Text.ofUtf8From]
    rfl
  refine ⟨?_, fun hanswer => fileAnswer_iff.mp hanswer (.bytes hthere hread hfault)⟩
  simp only [loadFile, hthere, FileTree.readJson, hread, hfault, Except.mapError, bind, Except.bind]

end NavDirections
