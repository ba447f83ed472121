import NavDirections.Proofs.NameResolution

/-!
# The import section of a file

Whatever a file asks of its imports, and however often it looks at them in between, they can stand in
it as they are: they are sorted, no two of them and no class of the file share a name, and they are
the classes of other packages that the file knows by their last segments.
-/

namespace NavDirections

/-- The classes that have to be imported before their last segment is enough. -/
def ClassName.IsForeign (package : Text) (c : ClassName) : Prop :=
  c.package ≠ [] ∧ c.package ≠ Imports.languagePackage ∧ c.package ≠ package

instance (package : Text) (c : ClassName) : Decidable (c.IsForeign package) :=
  inferInstanceAs (Decidable (_ ∧ _ ∧ _))

namespace Imports

inductive Call where
  | request (r : Request)
  | look
deriving DecidableEq

/-- What one call leaves behind; a look changes nothing. -/
def next (t : Imports) : Call → Imports
  | .request r => (t.serve [r]).1
  | .look => t

def after (t : Imports) (calls : List Call) : Imports := calls.foldl next t

theorem next_request (t : Imports) (r : Request) : t.next (.request r) = t.add r.type :=
  serve_cons t r []

theorem after_append (t : Imports) (calls later : List Call) :
    t.after (calls ++ later) = (t.after calls).after later := List.foldl_append

theorem sorted_not_gt (t : Imports) : t.sorted.Pairwise (fun i j => ¬j < i) := by
  have hsorted : t.sorted.Pairwise (fun i j => (!decide (j < i)) = true) := by
    unfold sorted
    apply List.pairwise_mergeSort
    · intro a b c hab hbc
      simp only [Bool.not_eq_true', decide_eq_false_iff_not, List.not_lt] at hab hbc ⊢
      exact List.le_trans hab hbc
    · intro a b
      simp only [Bool.or_eq_true, Bool.not_eq_true', decide_eq_false_iff_not, List.not_lt]
      exact List.le_total a b
  apply hsorted.imp
  intro i j hij
  simpa using hij

theorem nodup_insertName {names : List Text} (h : names.Nodup) (name : Text) :
    (insertName name names).Nodup := by
  unfold insertName
  split
  · exact h
  next hnew =>
    have hmem : name ∉ names := by simpa using hnew
    rw [List.nodup_append]
    refine ⟨h, List.pairwise_singleton _ name, ?_⟩
    intro a ha b hb heq
    rw [heq, List.mem_singleton.mp hb] at ha
    exact hmem ha

theorem sorted_nodup {t : Imports} (h : t.imported.Nodup) : t.sorted.Nodup :=
  (List.mergeSort_perm t.imported _).nodup_iff.mpr h

theorem sorted_lt {t : Imports} (h : t.imported.Nodup) : t.sorted.Pairwise (· < ·) := by
  have hboth := (sorted_not_gt t).and (sorted_nodup h)
  apply hboth.imp
  rintro i j ⟨hle, hne⟩
  by_contra hlt
  exact hne (List.le_antisymm (List.not_lt.mp hle) (List.not_lt.mp hlt))

theorem canonical_of_unpackaged {c : ClassName} (h : c.package = []) : c.canonical = c.simple := by
  simp [ClassName.canonical, h]

/-- A class without a package is spelled by its name, which is its full name. -/
theorem addClass_unpackaged {c : ClassName} (hc : c.package = []) (t : Imports) :
    t.addClass c = t ∧ (∃ spelling, t.spelling? c = some spelling) ∨
      t.addClass c = { t with spellings := (c, c.canonical) :: t.spellings } ∧
        t.spelling? c = none := by
  cases hs : t.spelling? c with
  | some spelling => simp [addClass, hs]
  | none => simp [addClass, hs, hc, canonical_of_unpackaged hc]

theorem addClass_step (t : Imports) (c : ClassName) : Added t c (t.addClass c) := by
  by_cases hc : c.package = []
  · rcases addClass_unpackaged hc t with ⟨heq, spelling, hs⟩ | ⟨heq, hnew⟩
    · rw [heq]
      exact .known hs
    · rw [heq]
      exact .full hnew
  · exact addClass_added hc t

theorem next_extends (t : Imports) (call : Call) : Extends t (t.next call) := by
  cases call with
  | look => exact Extends.refl t
  | request r =>
    rw [next_request]
    unfold add
    cases r.type.class? with
    | none => exact Extends.refl t
    | some c => exact (addClass_step t c).extends

theorem after_extends (t : Imports) (calls : List Call) : Extends t (t.after calls) := by
  induction calls generalizing t with
  | nil => exact Extends.refl t
  | cons call rest ih => exact (next_extends t call).trans (ih (t.next call))

/-- Declared names belong to nobody, an import owns its last segment, and the imports are the classes
of other packages that go by that segment. -/
structure InStep (declared : List Text) (t : Imports) : Prop where
  outside : t.outside = []
  nodup : t.imported.Nodup
  declared_owner : ∀ name ∈ declared, t.owner? name = some []
  imported_owner : ∀ name ∈ t.imported, t.owner? name.lastSegment = some name
  mem_imported : ∀ name, name ∈ t.imported ↔
    ∃ c, c.IsForeign t.package ∧ t.spelling? c = some c.reference ∧ c.canonical = name

theorem start_inStep (package : Text) (declared : List Text) :
    InStep declared (start package [] declared) where
  outside := rfl
  nodup := List.nodup_nil
  declared_owner := fun _ h => lookup_declared h
  imported_owner := fun _ h => nomatch h
  mem_imported := by
    intro name
    simp [start, spelling?]

theorem isAtHand_iff {t : Imports} (h : t.outside = []) {c : ClassName} (hc : c.package ≠ []) :
    t.isAtHand c = false ↔ c.IsForeign t.package := by
  simp [isAtHand, ClassName.IsForeign, h, hc]

theorem reference_ne_canonical {c : ClassName} (hc : c.package ≠ []) :
    c.reference ≠ c.canonical := by
  intro heq
  have hdot := ClassName.dot_mem_canonical hc
  rw [← heq] at hdot
  exact Text.dot_not_mem_lastSegment c.simple hdot

namespace InStep

variable {declared : List Text} {t : Imports} {c : ClassName}

theorem full (ht : InStep declared t) (hnew : t.spelling? c = none) :
    InStep declared { t with spellings := (c, c.canonical) :: t.spellings } := by
  refine ⟨ht.outside, ht.nodup, ht.declared_owner, ht.imported_owner, ?_⟩
  intro name
  rw [ht.mem_imported]
  constructor
  · intro h
    obtain ⟨d, hd, hs, rfl⟩ := h
    exact ⟨d, hd, (Added.full hnew).extends.spelling hs, rfl⟩
  · intro h
    obtain ⟨d, hd, hs, rfl⟩ := h
    -- The class itself does not count: there is a dot in its full name and none in its reference.
    by_cases heq : d = c
    · subst heq
      have hspelling : d.canonical = d.reference :=
        Option.some.inj (List.lookup_cons_self.symm.trans hs)
      exact absurd hspelling.symm (reference_ne_canonical hd.1)
    · exact ⟨d, hd, (lookup_cons_ne heq).symm.trans hs, rfl⟩

/-- A class that gets its short name is imported exactly if it is one of another package. -/
theorem short (ht : InStep declared t) (hc : c.package ≠ []) (hnew : t.spelling? c = none)
    (hfree : ∀ owner, t.owner? (t.shortNames c).1 = some owner → owner = c.canonical) :
    InStep declared
      { t with
        owners := ((t.shortNames c).1, c.canonical) :: t.owners
        spellings := (c, (t.shortNames c).2) :: t.spellings
        imported := if t.isAtHand c then t.imported else insertName c.canonical t.imported } := by
  have hext := (Added.short hnew hfree).extends
  have hmem (name : Text) :
      (name ∈ if t.isAtHand c then t.imported else insertName c.canonical t.imported) ↔
        name ∈ t.imported ∨ c.IsForeign t.package ∧ name = c.canonical := by
    have hhand := isAtHand_iff ht.outside hc
    cases h : t.isAtHand c with
    | true =>
      have hnot : ¬c.IsForeign t.package := by simp [← hhand, h]
      simp [hnot]
    | false =>
      have hforeign := hhand.mp h
      simp [hforeign, mem_insertName, or_comm]
  -- Only the classes of the file's own package go by another segment than the last.
  have hnames (h : c.IsForeign t.package) : t.shortNames c = (c.reference, c.reference) := by
    simp only [shortNames, if_neg h.2.2]
  refine ⟨ht.outside, ?_, ?_, ?_, ?_⟩
  · show (if t.isAtHand c then t.imported else insertName c.canonical t.imported).Nodup
    split
    · exact ht.nodup
    · exact nodup_insertName ht.nodup c.canonical
  · intro name hname
    exact hext.owner (ht.declared_owner name hname)
  · intro name hname
    rcases (hmem name).mp hname with hold | ⟨hforeign, heq⟩
    · exact hext.owner (ht.imported_owner name hold)
    · rw [heq, ClassName.lastSegment_canonical hc, hnames hforeign]
      exact List.lookup_cons_self
  · intro name
    refine (hmem name).trans ?_
    rw [ht.mem_imported]
    constructor
    · intro h
      rcases h with ⟨d, hd, hs, rfl⟩ | ⟨hforeign, rfl⟩
      · exact ⟨d, hd, hext.spelling hs, rfl⟩
      · refine ⟨c, hforeign, ?_, rfl⟩
        rw [hnames hforeign]
        exact List.lookup_cons_self
    · intro h
      obtain ⟨d, hd, hs, rfl⟩ := h
      by_cases heq : d = c
      · exact .inr ⟨heq ▸ hd, by rw [heq]⟩
      · exact .inl ⟨d, hd, (lookup_cons_ne heq).symm.trans hs, rfl⟩

theorem addClass (ht : InStep declared t) (c : ClassName) : InStep declared (t.addClass c) := by
  by_cases hc : c.package = []
  · rcases addClass_unpackaged hc t with ⟨heq, -⟩ | ⟨heq, hnew⟩
    · rw [heq]
      exact ht
    · rw [heq]
      exact ht.full hnew
  · have hstep := addClass_added hc t
    generalize t.addClass c = later at hstep
    cases hstep with
    | known => exact ht
    | short hnew hfree => exact ht.short hc hnew hfree
    | full hnew => exact ht.full hnew

theorem next (ht : InStep declared t) (call : Call) : InStep declared (t.next call) := by
  cases call with
  | look => exact ht
  | request r =>
    rw [next_request]
    unfold add
    cases r.type.class? with
    | none => exact ht
    | some c => exact ht.addClass c

theorem after (ht : InStep declared t) (calls : List Call) : InStep declared (t.after calls) := by
  induction calls generalizing t with
  | nil => exact ht
  | cons call rest ih => exact ih (ht.next call)

theorem mem_sorted (ht : InStep declared t) (name : Text) :
    name ∈ t.sorted ↔
      ∃ c, c.IsForeign t.package ∧ t.spelling? c = some c.reference ∧ c.canonical = name :=
  Imports.mem_sorted.trans (ht.mem_imported name)

theorem owner (ht : InStep declared t) {name : Text} (h : name ∈ t.sorted) :
    t.owner? name.lastSegment = some name :=
  ht.imported_owner name (Imports.mem_sorted.mp h)

end InStep

/-! ### Whole runs -/

/-- What may stand in the import section of a file of a package that declares some names, where
classes have the given spellings. -/
structure IsSection (package : Text) (declared : List Text) (spelling? : ClassName → Option Text)
    (names : List Text) : Prop where
  sorted : names.Pairwise (· < ·)
  apart : names.Pairwise (fun i j => i.lastSegment ≠ j.lastSegment)
  undeclared : ∀ i ∈ names, i.lastSegment ∉ declared
  mem_iff : ∀ i, i ∈ names ↔
    ∃ c, c.IsForeign package ∧ spelling? c = some c.reference ∧ c.canonical = i

theorem InStep.isSection {declared : List Text} {t : Imports} (ht : InStep declared t) :
    IsSection t.package declared t.spelling? t.sorted := by
  have hsorted := sorted_lt ht.nodup
  refine ⟨hsorted, ?_, ?_, ht.mem_sorted⟩
  · apply hsorted.imp_of_mem
    intro i j hi hj hlt heq
    have hown := ht.owner hi
    rw [heq, ht.owner hj] at hown
    rw [Option.some.inj hown] at hlt
    exact List.lt_irrefl i hlt
  · intro i hi hdeclared
    -- Declared names are owned by the empty name, and the name of an import has a dot.
    have hnobody := ht.declared_owner _ hdeclared
    rw [ht.owner hi] at hnobody
    obtain ⟨c, hc, -, rfl⟩ := (ht.mem_sorted i).mp hi
    have hdot := ClassName.dot_mem_canonical hc.1
    rw [Option.some.inj hnobody] at hdot
    cases hdot

/-- However a file has used its imports so far, they are a legal section: sorted, with different last
segments that the file does not declare, and just the classes of other packages that go by their last
segment.  Whatever comes later leaves the imports and every spelling in place. -/
theorem imports_stay_legal (package : Text) (declared : List Text) (calls : List Call) :
    IsSection package declared ((start package [] declared).after calls).spelling?
        ((start package [] declared).after calls).sorted ∧
      ∀ later,
        ((start package [] declared).after calls).sorted ⊆
          ((start package [] declared).after (calls ++ later)).sorted ∧
        ∀ c spelling, ((start package [] declared).after calls).spelling? c = some spelling →
          ((start package [] declared).after (calls ++ later)).spelling? c = some spelling := by
  have hstart := start_inStep package declared
  have hpackage : ((start package [] declared).after calls).package = package :=
    (after_extends (start package [] declared) calls).package
  have hsection := (hstart.after calls).isSection
  rw [hpackage] at hsection
  refine ⟨hsection, ?_⟩
  intro later
  have hext := after_extends ((start package [] declared).after calls) later
  rw [after_append]
  constructor
  · intro i hi
    exact mem_sorted.mpr (hext.imported (mem_sorted.mp hi))
  · intro c spelling hs
    exact hext.spelling hs

/-- Of two classes with the same last segment the first one is imported, and the other one goes by its
full name, also when it is asked for again. -/
theorem first_shade_is_imported :
    let one : ClassName := ⟨"com.one", "Shade"⟩
    let two : ClassName := ⟨"com.two", "Shade"⟩
    let calls : List Call :=
      [.request (.add (.ofClass one)), .request (.name (.ofClass two)), .look]
    let t := (start "com.app" [] ["Main"]).after calls
    let later := (start "com.app" [] ["Main"]).after
      (calls ++ [.request (.name (.ofClass two)), .look])
    t.sorted = [("com.one.Shade" : Text)] ∧ IsSection "com.app" ["Main"] t.spelling? t.sorted ∧
      ("com.one.Shade" : Text) ∈ later.sorted ∧ later.spelling? one = some "Shade" ∧
      later.spelling? two = some "com.two.Shade" := by
  intro one two calls t later
  have hsorted : t.sorted = [("com.one.Shade" : Text)] := by
    have himported : t.imported = [("com.one.Shade" : Text)] := by decide +kernel
    rw [sorted, himported, List.mergeSort_singleton]
  obtain ⟨hsection, hlater⟩ := imports_stay_legal "com.app" ["Main"] calls
  obtain ⟨hkept, hspelled⟩ := hlater [.request (.name (.ofClass two)), .look]
  refine ⟨hsorted, hsection, hkept ?_, hspelled one "Shade" (by decide +kernel),
    hspelled two "com.two.Shade" (by decide +kernel)⟩
  rw [hsorted]
  exact List.mem_singleton_self _

end Imports
end NavDirections
