import NavDirections.Source.Layout
import Mathlib.Data.List.Basic

/-!
# Paths of source files

Which classes get the same file.  Empty segments of a package have no directory of their own, a
slash inside a name cuts it into more names, and a part that begins with a slash drops those before
it.
-/

namespace NavDirections

namespace Text

theorem mem_of_mem_splitOn {mark c : CodePoint} {t piece : Text} (h : piece ∈ splitOn mark t)
    (hc : c ∈ piece) : c ∈ t ∧ c ≠ mark := by
  induction t generalizing piece with
  | nil =>
    rw [List.mem_singleton.mp h] at hc
    cases hc
  | cons d rest ih =>
    rw [splitOn] at h
    split at h
    · rcases List.mem_cons.mp h with rfl | h
      · cases hc
      · exact (ih h hc).imp (List.mem_cons_of_mem d) id
    next hd =>
      cases hrest : splitOn mark rest with
      | nil => exact absurd hrest (splitOn_ne_nil mark rest)
      | cons first pieces =>
        rw [hrest] at h ih
        rcases List.mem_cons.mp h with rfl | h
        · rcases List.mem_cons.mp hc with rfl | hc
          · exact ⟨List.mem_cons_self, hd⟩
          · exact (ih List.mem_cons_self hc).imp (List.mem_cons_of_mem d) id
        · exact (ih (List.mem_cons_of_mem first h) hc).imp (List.mem_cons_of_mem d) id

theorem exists_piece_of_mem {mark c : CodePoint} {t : Text} (hc : c ∈ t) (hne : c ≠ mark) :
    ∃ piece ∈ splitOn mark t, c ∈ piece := by
  induction t with
  | nil => cases hc
  | cons d rest ih =>
    rw [splitOn]
    split
    next hd =>
      rcases List.mem_cons.mp hc with rfl | hc
      · exact absurd hd hne
      · obtain ⟨piece, hpiece, hmem⟩ := ih hc
        exact ⟨piece, List.mem_cons_of_mem [] hpiece, hmem⟩
    · cases hrest : splitOn mark rest with
      | nil => exact absurd hrest (splitOn_ne_nil mark rest)
      | cons first pieces =>
        rw [hrest] at ih
        rcases List.mem_cons.mp hc with rfl | hc
        · exact ⟨c :: first, List.mem_cons_self, List.mem_cons_self⟩
        · obtain ⟨piece, hpiece, hmem⟩ := ih hc
          rcases List.mem_cons.mp hpiece with rfl | hpiece
          · exact ⟨d :: piece, List.mem_cons_self, List.mem_cons_of_mem d hmem⟩
          · exact ⟨piece, List.mem_cons_of_mem _ hpiece, hmem⟩

theorem mark_notMem_of_mem_splitOn {mark : CodePoint} {t piece : Text}
    (h : piece ∈ splitOn mark t) : mark ∉ piece :=
  fun hmark => (mem_of_mem_splitOn h hmark).2 rfl

theorem splitOn_of_notMem {mark : CodePoint} {t : Text} (h : mark ∉ t) : splitOn mark t = [t] := by
  induction t with
  | nil => rfl
  | cons c rest ih =>
    rw [List.mem_cons, not_or] at h
    rw [splitOn, if_neg (Ne.symm h.1), ih h.2]

theorem splitOn_append_cons (mark : CodePoint) (before rest : Text) :
    splitOn mark (before ++ mark :: rest) = splitOn mark before ++ splitOn mark rest := by
  induction before with
  | nil =>
    rw [List.nil_append, splitOn.eq_2, if_pos rfl]
    rfl
  | cons c before ih =>
    rw [List.cons_append, splitOn, splitOn, ih]
    split
    · rfl
    · cases hsplit : splitOn mark before with
      | nil => exact absurd hsplit (splitOn_ne_nil mark before)
      | cons first pieces => rfl

theorem splitOn_append {mark : CodePoint} {t : Text} (h : mark ∉ t) (rest : Text) :
    splitOn mark (t ++ mark :: rest) = t :: splitOn mark rest := by
  rw [splitOn_append_cons, splitOn_of_notMem h, List.singleton_append]

theorem exists_piece_append {mark : CodePoint} {tail : Text} (h : mark ∉ tail) (t : Text) :
    ∃ before, before ++ tail ∈ splitOn mark (t ++ tail) := by
  induction t with
  | nil => exact ⟨[], by rw [List.nil_append, splitOn_of_notMem h]; exact List.mem_cons_self⟩
  | cons c t ih =>
    obtain ⟨before, hbefore⟩ := ih
    rw [List.cons_append, splitOn]
    split
    · exact ⟨before, List.mem_cons_of_mem [] hbefore⟩
    · cases hrest : splitOn mark (t ++ tail) with
      | nil => exact absurd hrest (splitOn_ne_nil mark _)
      | cons first pieces =>
        rw [hrest] at hbefore
        rcases List.mem_cons.mp hbefore with rfl | hbefore
        · exact ⟨c :: before, List.mem_cons_self⟩
        · exact ⟨before, List.mem_cons_of_mem _ hbefore⟩

theorem splitOn_joinWith {mark : CodePoint} {pieces : List Text} (hne : pieces ≠ [])
    (h : ∀ piece ∈ pieces, mark ∉ piece) : splitOn mark (joinWith [mark] pieces) = pieces := by
  match pieces with
  | [] => exact absurd rfl hne
  | [piece] => exact splitOn_of_notMem (h piece List.mem_cons_self)
  | piece :: next :: pieces =>
    have hrest := splitOn_joinWith (List.cons_ne_nil next pieces)
      fun p hp => h p (List.mem_cons_of_mem piece hp)
    rw [joinWith, List.append_assoc, List.singleton_append,
      splitOn_append (h piece List.mem_cons_self), hrest]

end Text

namespace FilePath

/-- The root of a path is nothing but slashes, and its names have none. -/
structure Proper (p : FilePath) : Prop where
  root : p.root = [] ∨ p.root = ("/" : Text) ∨ p.root = ("//" : Text)
  names : ∀ name ∈ p.names, isName name = true ∧ ('/' : CodePoint) ∉ name

theorem ofText_proper (t : Text) : (ofText t).Proper := by
  refine ⟨?_, fun name h => ?_⟩
  · rw [ofText]
    dsimp only
    split
    · exact .inl rfl
    · split
      · exact .inr (.inr rfl)
      · exact .inr (.inl rfl)
  · obtain ⟨hpiece, hname⟩ := List.mem_filter.mp h
    exact ⟨hname, Text.mark_notMem_of_mem_splitOn hpiece⟩

theorem Proper.join {p q : FilePath} (hp : p.Proper) (hq : q.Proper) : (p.join q).Proper := by
  rw [FilePath.join]
  split
  · refine ⟨hp.root, fun name h => ?_⟩
    rcases List.mem_append.mp h with h | h
    · exact hp.names name h
    · exact hq.names name h
  · exact hq

theorem ofText_slashes (slashes : Nat) {c : CodePoint} (hc : c ≠ '/') (rest : Text) :
    ofText (List.replicate slashes ('/' : CodePoint) ++ c :: rest) =
      ⟨if slashes = 0 then [] else if slashes = 2 then "//" else "/", namesOf (c :: rest)⟩ := by
  have hcount : (List.replicate slashes ('/' : CodePoint) ++ c :: rest).takeWhile
      (fun d : CodePoint => d == '/') = List.replicate slashes ('/' : CodePoint) := by
    rw [List.takeWhile_append_of_pos (by simp), List.takeWhile_cons, beq_false_of_ne hc]
    simp
  have hnames : namesOf (List.replicate slashes ('/' : CodePoint) ++ c :: rest) =
      namesOf (c :: rest) := by
    clear hcount
    induction slashes with
    | zero => rfl
    | succ n ih =>
      rw [List.replicate_succ, List.cons_append, namesOf, Text.splitOn, if_pos rfl,
        List.filter_cons]
      exact ih
  rw [ofText, hcount, hnames, List.length_replicate]

theorem Proper.namesOf_joinWith {p : FilePath} (hp : p.Proper) (hne : p.names ≠ []) :
    namesOf (Text.joinWith "/" p.names) = p.names := by
  have hsplit := Text.splitOn_joinWith hne fun name h => (hp.names name h).2
  rw [namesOf]
  refine (congrArg (List.filter isName) hsplit).trans ?_
  exact List.filter_eq_self.mpr fun name h => (hp.names name h).1

theorem Proper.joinWith_eq_cons {p : FilePath} (hp : p.Proper) (hne : p.names ≠ []) :
    ∃ c rest, Text.joinWith "/" p.names = c :: rest ∧ c ≠ ('/' : CodePoint) := by
  obtain ⟨name, names, hnames⟩ := List.exists_cons_of_ne_nil hne
  obtain ⟨hname, hslash⟩ := hp.names name (hnames ▸ List.mem_cons_self)
  cases name with
  | nil => cases hname
  | cons c rest =>
    have hc : c ≠ ('/' : CodePoint) := fun h => hslash (h ▸ List.mem_cons_self)
    rw [hnames]
    cases names with
    | nil => exact ⟨c, rest, rfl, hc⟩
    | cons next names => exact ⟨c, _, rfl, hc⟩

theorem Proper.ofText_text {p : FilePath} (hp : p.Proper) (hne : p.names ≠ []) :
    ofText p.text = p := by
  obtain ⟨c, rest, hbody, hc⟩ := hp.joinWith_eq_cons hne
  have htext : p.text = p.root ++ Text.joinWith "/" p.names := by
    rw [text]
    rw [hbody]
    exact if_neg (by simp)
  have hnames := hp.namesOf_joinWith hne
  rw [hbody] at hnames
  rw [htext, hbody]
  rcases hp.root with hroot | hroot | hroot
  · rw [hroot]
    refine (ofText_slashes 0 hc rest).trans ?_
    rw [hnames]
    exact congrArg (FilePath.mk · p.names) hroot.symm
  · rw [hroot]
    refine (ofText_slashes 1 hc rest).trans ?_
    rw [hnames]
    exact congrArg (FilePath.mk · p.names) hroot.symm
  · rw [hroot]
    refine (ofText_slashes 2 hc rest).trans ?_
    rw [hnames]
    exact congrArg (FilePath.mk · p.names) hroot.symm

theorem Proper.text_inj {p q : FilePath} (hp : p.Proper) (hq : q.Proper) (hpn : p.names ≠ [])
    (hqn : q.names ≠ []) : p.text = q.text ↔ p = q := by
  constructor
  · intro h
    rw [← hp.ofText_text hpn, h, hq.ofText_text hqn]
  · rintro rfl
    rfl

/-- The parts that count in a join: those from the last one on that has a root. -/
def lastRooted : List Text → List Text
  | [] => []
  | part :: rest =>
    if rest.any (fun t => !(ofText t).root.isEmpty) then lastRooted rest else part :: rest

def leadingRoot : List Text → Text
  | [] => []
  | part :: _ => (ofText part).root

theorem foldl_join (parts : List Text) (start : FilePath) :
    parts.foldl (fun (path : FilePath) part => path.join (ofText part)) start =
      if parts.any (fun t => !(ofText t).root.isEmpty) then
        ⟨leadingRoot (lastRooted parts), (lastRooted parts).flatMap namesOf⟩
      else ⟨start.root, start.names ++ parts.flatMap namesOf⟩ := by
  induction parts generalizing start with
  | nil => simp
  | cons part rest ih =>
    rw [List.foldl_cons, ih, lastRooted, List.any_cons]
    by_cases hrest : rest.any (fun t => !(ofText t).root.isEmpty) = true
    · rw [if_pos hrest, hrest, Bool.or_true, if_pos rfl, if_pos rfl]
    · rw [if_neg hrest, if_neg hrest, Bool.eq_false_iff.mpr hrest, Bool.or_false, join]
      by_cases hpart : (ofText part).root.isEmpty = true
      · rw [if_pos hpart, hpart, List.flatMap_cons, ← List.append_assoc]
        rfl
      · rw [if_neg hpart, Bool.eq_false_iff.mpr hpart, Bool.not_false, if_pos rfl,
          List.flatMap_cons]
        rfl

theorem lastRooted_of_rootless {parts : List Text}
    (h : parts.any (fun t => !(ofText t).root.isEmpty) = false) : lastRooted parts = parts := by
  cases parts with
  | nil => rfl
  | cons part rest =>
    rw [List.any_cons, Bool.or_eq_false_iff] at h
    rw [lastRooted, h.2, if_neg Bool.false_ne_true]

theorem foldl_join_nil (parts : List Text) :
    parts.foldl (fun (path : FilePath) part => path.join (ofText part)) ⟨[], []⟩ =
      ⟨leadingRoot (lastRooted parts), (lastRooted parts).flatMap namesOf⟩ := by
  rw [foldl_join]
  split
  · rfl
  next h =>
    have hrootless := Bool.eq_false_iff.mpr h
    rw [lastRooted_of_rootless hrootless, List.nil_append]
    cases parts with
    | nil => rfl
    | cons part rest =>
      rw [List.any_cons, Bool.or_eq_false_iff] at hrootless
      have hroot : (ofText part).root = [] := by simpa using hrootless.1
      rw [leadingRoot, hroot]

theorem lastRooted_append (parts : List Text) (last : Text) :
    ∃ before, lastRooted (parts ++ [last]) = before ++ [last] := by
  induction parts with
  | nil => exact ⟨[], rfl⟩
  | cons part rest ih =>
    rw [List.cons_append, lastRooted]
    split
    · exact ih
    · exact ⟨part :: rest, rfl⟩

theorem root_of_slashless {t : Text} (h : ('/' : CodePoint) ∉ t) : (ofText t).root = [] := by
  cases t with
  | nil => rfl
  | cons c rest =>
    have hc : c ≠ ('/' : CodePoint) := fun hc => h (hc ▸ List.mem_cons_self)
    exact congrArg root (ofText_slashes 0 hc rest)

theorem namesOf_of_slashless {t : Text} (hname : isName t = true) (h : ('/' : CodePoint) ∉ t) :
    namesOf t = [t] := by
  rw [namesOf, Text.splitOn_of_notMem h]
  exact List.filter_eq_self.mpr fun name hn => List.mem_singleton.mp hn ▸ hname

theorem lastRooted_of_names {parts : List Text}
    (h : ∀ part ∈ parts, isName part = true ∧ ('/' : CodePoint) ∉ part) :
    lastRooted parts = parts ∧ leadingRoot parts = [] ∧ parts.flatMap namesOf = parts := by
  refine ⟨lastRooted_of_rootless ?_, ?_, ?_⟩
  · refine List.any_eq_false.mpr fun part hpart => ?_
    rw [root_of_slashless (h part hpart).2]
    exact Bool.false_ne_true
  · cases parts with
    | nil => rfl
    | cons part rest => exact root_of_slashless (h part List.mem_cons_self).2
  · rw [List.flatMap_congr fun part hpart => namesOf_of_slashless (h part hpart).1 (h part hpart).2,
      List.flatMap_singleton']

end FilePath

/-! ### Files of classes -/

namespace ClassName

/-- The parts that the path of a class is joined from. -/
def parts (c : ClassName) : List Text :=
  packageSegments c.package ++ [c.simple ++ sourceExtension]

/-- Two classes share a file if the same root and the same names are left of their parts. -/
def SharesFile (c d : ClassName) : Prop :=
  FilePath.leadingRoot (FilePath.lastRooted c.parts) =
      FilePath.leadingRoot (FilePath.lastRooted d.parts) ∧
    (FilePath.lastRooted c.parts).flatMap FilePath.namesOf =
      (FilePath.lastRooted d.parts).flatMap FilePath.namesOf

instance (c d : ClassName) : Decidable (c.SharesFile d) := inferInstanceAs (Decidable (_ ∧ _))

theorem sourcePath_eq (c : ClassName) : c.sourcePath =
    ⟨FilePath.leadingRoot (FilePath.lastRooted c.parts),
      (FilePath.lastRooted c.parts).flatMap FilePath.namesOf⟩ :=
  FilePath.foldl_join_nil c.parts

theorem sourcePath_proper (c : ClassName) : c.sourcePath.Proper := by
  have hfold (parts : List Text) (start : FilePath) (h : start.Proper) :
      (parts.foldl (fun path part => path.join (.ofText part)) start).Proper := by
    induction parts generalizing start with
    | nil => exact h
    | cons part rest ih => exact ih _ (h.join (FilePath.ofText_proper part))
  exact hfold c.parts ⟨[], []⟩ ⟨.inl rfl, fun _ h => nomatch h⟩

theorem isName_sourceExtension (before : Text) :
    FilePath.isName (before ++ sourceExtension) = true := by
  have hlength : 1 < (before ++ sourceExtension).length := by
    rw [List.length_append]
    exact Nat.lt_of_lt_of_le (by decide) (Nat.le_add_left _ _)
  rw [FilePath.isName, Bool.and_eq_true, Bool.not_eq_true', List.isEmpty_eq_false_iff,
    bne_iff_ne]
  constructor
  · intro h
    rw [h] at hlength
    cases hlength
  · intro h
    rw [h] at hlength
    exact absurd hlength (by decide)

theorem sourcePath_names_ne_nil (c : ClassName) : c.sourcePath.names ≠ [] := by
  obtain ⟨kept, hkept⟩ :=
    FilePath.lastRooted_append (packageSegments c.package) (c.simple ++ sourceExtension)
  obtain ⟨before, hbefore⟩ : ∃ before,
      before ++ sourceExtension ∈ Text.splitOn '/' (c.simple ++ sourceExtension) :=
    Text.exists_piece_append (by decide) c.simple
  have hname : before ++ sourceExtension ∈ FilePath.namesOf (c.simple ++ sourceExtension) :=
    List.mem_filter.mpr ⟨hbefore, isName_sourceExtension before⟩
  have hnames : c.sourcePath.names = (FilePath.lastRooted c.parts).flatMap FilePath.namesOf :=
    congrArg FilePath.names c.sourcePath_eq
  rw [hnames, parts, hkept]
  refine List.ne_nil_of_mem (a := before ++ sourceExtension) ?_
  exact List.mem_flatMap.mpr ⟨_, List.mem_append_right kept List.mem_cons_self, hname⟩

theorem sharesFile_iff (c d : ClassName) :
    c.SharesFile d ↔ c.sourcePath.text = d.sourcePath.text := by
  rw [c.sourcePath_proper.text_inj d.sourcePath_proper c.sourcePath_names_ne_nil
    d.sourcePath_names_ne_nil, c.sourcePath_eq, d.sourcePath_eq, FilePath.mk.injEq, SharesFile]

theorem parts_of_slashless {c : ClassName} (hpackage : ('/' : CodePoint) ∉ c.package)
    (hsimple : ('/' : CodePoint) ∉ c.simple) :
    ∀ part ∈ c.parts, FilePath.isName part = true ∧ ('/' : CodePoint) ∉ part := by
  intro part hpart
  rcases List.mem_append.mp hpart with h | h
  · obtain ⟨hpiece, hne⟩ := List.mem_filter.mp h
    have hdot := Text.mark_notMem_of_mem_splitOn hpiece
    refine ⟨?_, fun hslash => hpackage (Text.mem_of_mem_splitOn hpiece hslash).1⟩
    rw [FilePath.isName, hne, Bool.true_and, bne_iff_ne]
    rintro rfl
    exact hdot List.mem_cons_self
  · rw [List.mem_singleton.mp h]
    refine ⟨isName_sourceExtension c.simple, fun hslash => ?_⟩
    rcases List.mem_append.mp hslash with hslash | hslash
    · exact hsimple hslash
    · exact absurd hslash (by decide)

/-- Without slashes, classes share a file exactly when they have the same simple name and their
packages have the same segments, apart from empty ones. -/
theorem sharesFile_iff_of_slashless {c d : ClassName}
    (hc : ('/' : CodePoint) ∉ c.package ∧ ('/' : CodePoint) ∉ c.simple)
    (hd : ('/' : CodePoint) ∉ d.package ∧ ('/' : CodePoint) ∉ d.simple) :
    c.SharesFile d ↔
      packageSegments c.package = packageSegments d.package ∧ c.simple = d.simple := by
  obtain ⟨hkeptc, hrootc, hnamesc⟩ := FilePath.lastRooted_of_names (parts_of_slashless hc.1 hc.2)
  obtain ⟨hkeptd, hrootd, hnamesd⟩ := FilePath.lastRooted_of_names (parts_of_slashless hd.1 hd.2)
  rw [SharesFile, hkeptc, hkeptd, hrootc, hrootd, hnamesc, hnamesd, and_iff_right rfl, parts, parts]
  constructor
  · intro h
    obtain ⟨hpackage, hlast⟩ := List.append_inj' h rfl
    exact ⟨hpackage, List.append_cancel_right (List.singleton_inj.mp hlast)⟩
  · rintro ⟨hpackage, hsimple⟩
    rw [hpackage, hsimple]

end ClassName
end NavDirections
