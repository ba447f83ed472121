import NavDirections.Proofs.WrittenDocuments

/-!
# Sources in files

All sources are turned into bytes first, and then written one after the other.  After each step the
tree holds what was written last at each target, and differs from the first tree besides only in
directories that were missing on the way.  So where the writing breaks off, the files in front are
written and those behind are not.
-/

namespace NavDirections

open Success Failure

theorem FilePath.Passes.parent_or_landing {path : FilePath} {p : Place} (h : path.Passes p) :
    path.parent.Passes p ∨ p = path.landing := by
  obtain ⟨count, rfl⟩ := h
  by_cases hlong : path.names.length ≤ count
  · rw [List.take_of_length_le hlong]
    exact .inr rfl
  · refine .inl ⟨count, ?_⟩
    have hshort : min count (path.names.length - 1) = count := by omega
    rw [parent, List.dropLast_eq_take, List.take_take, hshort]

namespace FileTree

variable {way way' inside inside' : Place → Prop} {t t' t'' : FileTree}

theorem ChangedOnly.mono (h : t.ChangedOnly way inside t') (hway : ∀ p, way p → way' p)
    (hinside : ∀ p, inside p → inside' p) : t.ChangedOnly way' inside' t' := fun p =>
  (h p).imp_right fun h => h.imp (fun hmade => ⟨hway p hmade.1, hmade.2⟩) (hinside p)

theorem ChangedOnly.get?_eq (h : t.ChangedOnly way inside t') {p : Place} {e : FileEntry}
    (hp : t.get? p = some e) (hinside : ¬inside p) : t'.get? p = some e := by
  obtain hsame | ⟨-, hnone, -⟩ | hchanged := h p
  · exact hsame.trans hp
  · cases hp.symm.trans hnone
  · exact absurd hchanged hinside

theorem ChangedOnly.keepsDirectories (h : t.ChangedOnly way (fun _ => False) t') :
    t.KeepsDirectories t' := fun _ hp => h.get?_eq hp id

theorem makeDirectories_changes (t : FileTree) (path : FilePath) :
    t.ChangedOnly path.Passes (fun _ => False) (t.makeDirectories path).tree :=
  makeDirectoriesFrom_changes _ t fun _ => .inl

theorem writeDeep_ok {path : FilePath} {content : Bytes}
    (h : t.writeDeep path content = ⟨t', none⟩) :
    t.KeepsDirectories t' ∧ t'.place path = .ok path.landing ∧
      t'.get? path.landing = some (.file content) := by
  have hkept := (t.makeDirectories_changes path.parent).keepsDirectories
  unfold writeDeep at h
  dsimp only at h
  split at h
  next fault hfault =>
    rw [h] at hfault
    cases hfault
  next =>
    split at h
    next made hwrite =>
      cases h
      obtain ⟨p, -, hplace, hdirectory, rfl⟩ := write_ok hwrite
      obtain rfl := place_ok hplace
      exact ⟨hkept.trans (keepsDirectories_set hdirectory content),
        place_set hdirectory content hplace, get?_set_file hdirectory content⟩
    next => cases h

theorem writeDeep_fault {path : FilePath} {content : Bytes} {fault : AccessFault}
    (h : t.writeDeep path content = ⟨t', some fault⟩) :
    t.ChangedOnly path.parent.Passes (fun _ => False) t' := by
  have hmade := t.makeDirectories_changes path.parent
  unfold writeDeep at h
  dsimp only at h
  split at h
  next =>
    rw [h] at hmade
    exact hmade
  next =>
    split at h
    next => cases h
    next =>
      cases h
      exact hmade

/-- What a tree holds after files were written into it and more targets tried. -/
structure Received (written : List OutputFile) (tried : List FilePath) (t t' : FileTree) :
    Prop where
  /-- The target of a written file leads to its place. -/
  places : ∀ file ∈ written, t'.place file.target = .ok file.target.landing
  /-- There lies what was written last. -/
  contents : ∀ before last after, written = before ++ last :: after →
    (∀ later ∈ after, later.target.landing ≠ last.target.landing) →
      t'.get? last.target.landing = some (.file last.content)
  /-- Everywhere else nothing is changed, but for new directories around the tried targets. -/
  others : t.ChangedOnly (fun p => ∃ target ∈ tried, target.parent.Passes p)
    (fun p => ∃ file ∈ written, file.target.landing = p) t'
  directories : t.KeepsDirectories t'

namespace Received

variable {written : List OutputFile} {tried : List FilePath}

theorem nothing (t : FileTree) : t.Received [] [] t where
  places := nofun
  contents before last after h := by simp at h
  others := .refl _ _ t
  directories := fun _ => id

theorem attempt (h : t.Received written tried t') {path : FilePath}
    (hfault : t'.ChangedOnly path.parent.Passes (fun _ => False) t'') :
    t.Received written (tried ++ [path]) t'' where
  places file hfile := hfault.keepsDirectories.place (h.places file hfile)
  contents before last after hsplit hlast :=
    hfault.get?_eq (h.contents before last after hsplit hlast) id
  others := by
    refine (h.others.mono ?_ fun _ => id).trans (hfault.mono ?_ fun _ => False.elim)
    · rintro p ⟨target, htarget, hpasses⟩
      exact ⟨target, List.mem_append_left _ htarget, hpasses⟩
    · intro p hpasses
      exact ⟨path, List.mem_append_right _ (List.mem_singleton_self path), hpasses⟩
  directories := h.directories.trans hfault.keepsDirectories

/-- A file that is written overwrites what was written at the same place. -/
theorem add (h : t.Received written tried t') {file : OutputFile}
    (hwrite : t'.writeDeep file.target file.content = ⟨t'', none⟩) :
    t.Received (written ++ [file]) (tried ++ [file.target]) t'' := by
  obtain ⟨hkept, hplace, hcontent⟩ := writeDeep_ok hwrite
  have hchanged : t'.ChangedOnly file.target.parent.Passes (file.target.landing = ·) t'' := by
    have hpath : ∀ p, file.target.Passes p →
        file.target.parent.Passes p ∨ file.target.landing = p :=
      fun p hp => hp.parent_or_landing.imp_right Eq.symm
    have hstep := writeDeep_changes (t := t') file.content hpath rfl
    rwa [hwrite] at hstep
  constructor
  case places =>
    intro other hother
    rcases List.mem_append.mp hother with hother | hother
    · exact hkept.place (h.places other hother)
    · rw [List.mem_singleton.mp hother]
      exact hplace
  case contents =>
    intro before last after hsplit hlast
    rcases List.eq_nil_or_concat' after with rfl | ⟨after, final, rfl⟩
    · obtain ⟨-, hfinal⟩ := List.append_inj' hsplit rfl
      cases hfinal
      exact hcontent
    · rw [← List.cons_append, ← List.append_assoc] at hsplit
      obtain ⟨hwritten, hfinal⟩ := List.append_inj' hsplit rfl
      cases hfinal
      have hearlier := h.contents before last after hwritten fun later hlater =>
        hlast later (List.mem_append_left _ hlater)
      exact hchanged.get?_eq hearlier (hlast file (List.mem_append_right _ List.mem_cons_self))
  case others =>
    refine (h.others.mono ?_ ?_).trans (hchanged.mono ?_ ?_)
    · rintro p ⟨target, htarget, hpasses⟩
      exact ⟨target, List.mem_append_left _ htarget, hpasses⟩
    · rintro p ⟨other, hother, hp⟩
      exact ⟨other, List.mem_append_left _ hother, hp⟩
    · intro p hpasses
      exact ⟨file.target, List.mem_append_right _ (List.mem_singleton_self _), hpasses⟩
    · intro p hp
      exact ⟨file, List.mem_append_right _ (List.mem_singleton_self file), hp⟩
  case directories => exact h.directories.trans hkept

theorem read_eq (h : t.Received written tried t') {before after : List OutputFile}
    {last file : OutputFile} (hsplit : written = before ++ last :: after)
    (hlast : ∀ later ∈ after, later.target.landing ≠ last.target.landing) (hfile : file ∈ written)
    (hsame : file.target.landing = last.target.landing) :
    t'.read file.target = .ok last.content := by
  refine bind_ok.mpr ⟨_, h.places file hfile, ?_⟩
  rw [hsame, h.contents before last after hsplit hlast]

end Received

end FileTree

/-- Writing breaks off at a file: those in front of it are written, and then it fails. -/
def BreaksOffAt (t : FileTree) (before : List OutputFile) (file : OutputFile) (fault : AccessFault)
    (t' : FileTree) : Prop :=
  ∃ between, writeFiles t before = (between, .ok (before.map (·.target))) ∧
    between.writeDeep file.target file.content = ⟨t', some fault⟩

variable {t t' : FileTree} {file : OutputFile} {files rest : List OutputFile}
  {written : List FilePath}

theorem writeFiles_cons_ok :
    writeFiles t (file :: rest) = (t', .ok written) ↔
      ∃ between others, t.writeDeep file.target file.content = ⟨between, none⟩ ∧
        writeFiles between rest = (t', .ok others) ∧ written = file.target :: others := by
  rw [writeFiles]
  cases hstep : t.writeDeep file.target file.content with
  | mk between fault =>
    cases fault with
    | some fault => simp
    | none =>
      cases hrest : writeFiles between rest with
      | mk last result => cases result <;> simp [Except.map, hrest, eq_comm]

theorem writeFiles_cons_error {e : OutputFault} :
    writeFiles t (file :: rest) = (t', .error e) ↔
      (∃ fault, t.writeDeep file.target file.content = ⟨t', some fault⟩ ∧
          e = .ofAccess file.target fault) ∨
        ∃ between, t.writeDeep file.target file.content = ⟨between, none⟩ ∧
          writeFiles between rest = (t', .error e) := by
  rw [writeFiles]
  cases hstep : t.writeDeep file.target file.content with
  | mk between fault =>
    cases fault with
    | some fault => simp [eq_comm]
    | none =>
      cases hrest : writeFiles between rest with
      | mk last result => cases result <;> simp [Except.map, hrest]

theorem writeFiles_received {done : List OutputFile} {start : FileTree}
    (h : start.Received done (done.map (·.target)) t)
    (hrun : writeFiles t files = (t', .ok written)) :
    written = files.map (·.target) ∧
      start.Received (done ++ files) ((done ++ files).map (·.target)) t' := by
  -- The invariant goes along with the files that are done.
  induction files generalizing t done written with
  | nil =>
    cases hrun
    rw [List.append_nil]
    exact ⟨rfl, h⟩
  | cons file rest ih =>
    obtain ⟨between, others, hstep, hrest, rfl⟩ := writeFiles_cons_ok.mp hrun
    have hnext : start.Received (done ++ [file]) ((done ++ [file]).map (·.target)) between := by
      rw [List.map_append]
      exact h.add hstep
    obtain ⟨rfl, hreceived⟩ := ih hnext hrest
    rw [List.append_assoc, List.singleton_append] at hreceived
    exact ⟨rfl, hreceived⟩

/-- An error comes from the file at which the writing breaks off, whatever is behind it. -/
theorem writeFiles_error {e : OutputFault} :
    writeFiles t files = (t', .error e) ↔
      ∃ before file after fault, files = before ++ file :: after ∧
        BreaksOffAt t before file fault t' ∧ e = .ofAccess file.target fault := by
  constructor
  · intro h
    induction files generalizing t with
    | nil => cases h
    | cons first rest ih =>
      obtain ⟨fault, hstep, rfl⟩ | ⟨between, hstep, hrest⟩ := writeFiles_cons_error.mp h
      · exact ⟨[], first, rest, fault, rfl, ⟨t, rfl, hstep⟩, rfl⟩
      · obtain ⟨before, file, after, fault, rfl, ⟨last, hbefore, hfile⟩, rfl⟩ := ih hrest
        refine ⟨first :: before, file, after, fault, rfl, ⟨last, ?_, hfile⟩, rfl⟩
        exact writeFiles_cons_ok.mpr ⟨between, _, hstep, hbefore, rfl⟩
  · rintro ⟨before, file, after, fault, rfl, ⟨last, hbefore, hfile⟩, rfl⟩
    induction before generalizing t with
    | nil =>
      cases hbefore
      exact writeFiles_cons_error.mpr (.inl ⟨fault, hfile, rfl⟩)
    | cons first before ih =>
      obtain ⟨between, others, hstep, hrest, hothers⟩ := writeFiles_cons_ok.mp hbefore
      obtain ⟨-, rfl⟩ := List.cons.inj hothers
      exact writeFiles_cons_error.mpr (.inr ⟨between, hstep, ih hrest⟩)

/-- Where writing breaks off, the files in front have been received, and the target itself was
tried. -/
theorem BreaksOffAt.received {before : List OutputFile} {fault : AccessFault}
    (h : BreaksOffAt t before file fault t') :
    t.Received before ((before ++ [file]).map (·.target)) t' := by
  obtain ⟨between, hbefore, hfile⟩ := h
  obtain ⟨-, hreceived⟩ := writeFiles_received (.nothing t) hbefore
  rw [List.map_append]
  exact hreceived.attempt (FileTree.writeDeep_fault hfile)

/-! ### Sources -/

namespace Sources

variable {sources : Sources} {root : FilePath}

/-- The files that sources stand for: a text as bytes at its path below the root. -/
def EncodedAs (root : FilePath) : Sources → List OutputFile → Prop :=
  List.Forall₂ fun entry file =>
    file.target = root.join (.ofText entry.1) ∧ entry.2.toUtf8 = .ok file.content

def encodeFile (root : FilePath) (entry : Text × Text) : Except OutputError OutputFile :=
  (entry.2.toUtf8.mapError (.notEncodable entry.1)).map fun content =>
    ⟨root.join (.ofText entry.1), content⟩

theorem encodeFile_ok {entry : Text × Text} :
    encodeFile root entry = .ok file ↔
      file.target = root.join (.ofText entry.1) ∧ entry.2.toUtf8 = .ok file.content := by
  obtain ⟨target, content⟩ := file
  unfold encodeFile
  cases entry.2.toUtf8 with
  | error f => simp [Except.mapError, Except.map]
  | ok bytes => simp [Except.mapError, Except.map, eq_comm]

theorem encodeFile_error {entry : Text × Text} {e : OutputError} :
    encodeFile root entry = .error e ↔
      ∃ f, entry.2.toUtf8 = .error f ∧ e = .notEncodable entry.1 f := by
  rw [encodeFile, map_error, mapError_error]
  exact exists_congr fun f => and_congr_right fun _ => eq_comm

theorem encode_eq (sources : Sources) (root : FilePath) :
    sources.encode root = sources.mapM (encodeFile root) := by
  induction sources with
  | nil => rfl
  | cons entry rest ih =>
    rw [encode, ih, List.mapM_cons, encodeFile]
    cases entry.2.toUtf8 <;> rfl

theorem encode_ok : sources.encode root = .ok files ↔ EncodedAs root sources files := by
  rw [encode_eq, mapM_ok]
  simp only [encodeFile_ok, EncodedAs]

theorem encode_error {e : OutputError} :
    sources.encode root = .error e ↔
      ∃ before path text after f, sources = before ++ (path, text) :: after ∧
        (∀ entry ∈ before, ∃ bytes, entry.2.toUtf8 = .ok bytes) ∧ text.toUtf8 = .error f ∧
        e = .notEncodable path f := by
  rw [encode_eq, mapM_error]
  constructor
  · rintro ⟨before, ⟨path, text⟩, after, files, rfl, hbefore, hfile⟩
    obtain ⟨f, hf, rfl⟩ := encodeFile_error.mp hfile
    refine ⟨before, path, text, after, f, rfl, fun entry hentry => ?_, hf, rfl⟩
    obtain ⟨file, -, hfile⟩ := partner_of_mem_left (mapM_ok.mp hbefore) hentry
    exact ⟨file.content, (encodeFile_ok.mp hfile).2⟩
  · rintro ⟨before, path, text, after, f, rfl, hbefore, hf, rfl⟩
    obtain ⟨files, hfiles⟩ := mapM_total (f := encodeFile root) fun entry hentry => by
      obtain ⟨bytes, hbytes⟩ := hbefore entry hentry
      exact ⟨⟨_, bytes⟩, encodeFile_ok.mpr ⟨rfl, hbytes⟩⟩
    exact ⟨before, (path, text), after, files, rfl, hfiles, encodeFile_error.mpr ⟨f, hf, rfl⟩⟩

/-- If a text has no bytes, writing names the first such source and leaves the tree as it is.  Else
it gives all targets in order and the tree has received all files, or it breaks off at a file and
names that one: then the tree has received the files in front of it, and whatever files are behind
it make no difference. -/
theorem write_exact (sources : Sources) (root : FilePath) (t : FileTree) :
    (∀ before path text after f, sources = before ++ (path, text) :: after →
      (∀ entry ∈ before, ∃ bytes, entry.2.toUtf8 = .ok bytes) → text.toUtf8 = .error f →
        sources.write t root = (t, .error (.reported (.notEncodable path f)))) ∧
    ∀ files, EncodedAs root sources files →
      (∀ t' written, sources.write t root = (t', .ok written) →
        written = files.map (·.target) ∧ t.Received files (files.map (·.target)) t') ∧
      (∀ t' e, sources.write t root = (t', .error e) ↔
        ∃ before file after fault, files = before ++ file :: after ∧
          BreaksOffAt t before file fault t' ∧ e = .ofAccess file.target fault) ∧
      ∀ before file fault t', BreaksOffAt t before file fault t' →
        t.Received before ((before ++ [file]).map (·.target)) t' := by
  constructor
  · intro before path text after f hsources hbefore hf
    have hencode : sources.encode root = .error (.notEncodable path f) :=
      encode_error.mpr ⟨before, path, text, after, f, hsources, hbefore, hf, rfl⟩
    rw [write, hencode]
  · intro files hfiles
    rw [write, encode_ok.mpr hfiles]
    refine ⟨fun t' written h => ?_, fun t' e => writeFiles_error, fun before file fault t' h => ?_⟩
    · exact writeFiles_received (.nothing t) h
    · exact h.received

/-- Two classes of different packages, each in a directory of its own. -/
theorem two_sources_are_written :
    let sources : Sources := [("a/One.java", "x"), ("b/Two.java", "y")]
    let files : List OutputFile :=
      [⟨.ofText "out/a/One.java", [120]⟩, ⟨.ofText "out/b/Two.java", [121]⟩]
    ∃ after, sources.write .empty (.ofText "out") = (after, .ok (files.map (·.target))) ∧
      EncodedAs (.ofText "out") sources files ∧
      FileTree.empty.Received files (files.map (·.target)) after ∧
      after.get? ["out", "a", "One.java"] = some (.file [120]) ∧
      after.get? ["out", "b", "Two.java"] = some (.file [121]) := by
  intro sources files
  obtain ⟨after, hwrite, hone, htwo⟩ : ∃ after,
      sources.write .empty (.ofText "out") = (after, .ok (files.map (·.target))) ∧
        after.get? ["out", "a", "One.java"] = some (.file [120]) ∧
        after.get? ["out", "b", "Two.java"] = some (.file [121]) :=
    ⟨_, rfl, rfl, rfl⟩
  have hfiles : EncodedAs (.ofText "out") sources files :=
    .cons ⟨rfl, rfl⟩ (.cons ⟨rfl, rfl⟩ .nil)
  have hreceived := ((write_exact sources (.ofText "out") .empty).2 files hfiles).1 after _ hwrite
  exact ⟨after, hwrite, hfiles, hreceived.2, hone, htwo⟩

/-- No source lies below another one: the first is written, and the second is named. -/
example : write [("a", "x"), ("a/b", "y")] .empty (.ofText "out") =
    (⟨[(["out", "a"], .file [120]), (["out"], .directory)]⟩,
      .error (.reported (.system (.ofText "out/a/b") ⟨.exists, .ofText "out/a"⟩))) := rfl

end Sources

end NavDirections
