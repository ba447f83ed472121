import NavDirections.Proofs.Lookup
import NavDirections.Proofs.Segments
import NavDirections.Graph.Catalog
import NavDirections.Source.Imports
import Mathlib.Data.List.Basic

/-!
# What the spellings of a file mean

A compiler reads a class name in a file from left to right: the first segment is a class of the
file, an import, a class of the same package or one of the language, and the other segments select
nested classes.  The collected imports make a spelling mean its class, except for classes of the
language that are nested or that a class of the file's package has the name of, and for own classes
whose dotted name reads as another one.
-/

namespace NavDirections

/-- What a spelling stands for: a class that the file declares, or the class of a full name. -/
inductive Meaning where
  | declared (name : Text)
  | named (canonical : Text)
deriving DecidableEq

/-- The nested class that further segments select. -/
def Meaning.select (segments : Text) : Meaning → Meaning
  | declared name => .declared (name ++ segments)
  | named canonical => .named (canonical ++ segments)

/-- What the meaning of a name in a file depends on. -/
structure FileScope where
  package : Text
  declared : List Text
  imports : List Text
  mentioned : List ClassName
deriving DecidableEq

namespace FileScope

/-- Does the file mention a class of its package whose outermost class has the name? -/
def holdsClass (f : FileScope) (name : Text) : Bool :=
  f.mentioned.any fun c => c.package == f.package && c.simple.firstSegment == name

def meaning (f : FileScope) (name : Text) : Meaning :=
  if name ∈ f.declared then .declared name
  else match f.imports.find? (·.lastSegment == name) with
    | some canonical => .named canonical
    | none =>
      .named (ClassName.canonical
        ⟨if f.holdsClass name then f.package else Imports.languagePackage, name⟩)

/-- What a spelling means: a class of which it is the full name, else what its first segment
leads to. -/
def resolve (f : FileScope) (spelling : Text) : Meaning :=
  if ∃ c ∈ f.mentioned, c.canonical = spelling then .named spelling
  else (f.meaning spelling.firstSegment).select spelling.laterSegments

/-- A class of the language whose last segment leads elsewhere: it is not imported, and the name
belongs to a class of the file's package, or would belong to another class of the language because
the class is nested. -/
def LosesLanguageClass (f : FileScope) (c : ClassName) : Prop :=
  c.package = Imports.languagePackage ∧ f.package ≠ Imports.languagePackage ∧
    c.canonical ∉ f.imports ∧
    if f.holdsClass c.reference then ClassName.canonical ⟨f.package, c.reference⟩ ≠ c.canonical
    else c.reference ≠ c.simple

/-- A nested class of the file's package whose dotted name leads elsewhere: it is the full name of
another class, or begins with a segment that is imported. -/
def HidesOwnClass (f : FileScope) (c : ClassName) : Prop :=
  c.package = f.package ∧
    ((∃ other ∈ f.mentioned, other.canonical = c.simple) ∨
      (c.canonical ∈ f.imports ∧ c.simple.firstSegment = c.reference ∧ c.reference ≠ c.simple))

instance (f : FileScope) (c : ClassName) : Decidable (f.LosesLanguageClass c) :=
  inferInstanceAs (Decidable (_ ∧ _ ∧ _ ∧ ite _ _ _))

instance (f : FileScope) (c : ClassName) : Decidable (f.HidesOwnClass c) :=
  inferInstanceAs (Decidable (_ ∧ (_ ∨ _)))

end FileScope

namespace Imports

/-- A type is registered, or its spelling asked for. -/
inductive Request where
  | add (type : TypeName)
  | name (type : TypeName)
deriving DecidableEq

def Request.type : Request → TypeName
  | add type | name type => type

/-- Serves requests in turn; the spellings given out come with their types. -/
def serve (t : Imports) : List Request → Imports × List (TypeName × Text)
  | [] => (t, [])
  | .add type :: rest => (t.add type).serve rest
  | .name type :: rest =>
    let named := t.name type
    let served := named.1.serve rest
    (served.1, (type, named.2) :: served.2)

def mentioned (requests : List Request) : List ClassName :=
  requests.filterMap (·.type.class?)

/-- Serves requests for a file of a package that declares some names. -/
def collect (package : Text) (declared : List Text) (requests : List Request) :
    Imports × List (TypeName × Text) :=
  (start package [] declared).serve requests

/-- The file in which the spellings given out stand. -/
def fileScope (package : Text) (declared : List Text) (requests : List Request) : FileScope :=
  ⟨package, declared, (collect package declared requests).1.sorted, mentioned requests⟩

theorem mem_mentioned {requests : List Request} {c : ClassName} :
    c ∈ mentioned requests ↔ ∃ r ∈ requests, r.type.class? = some c := List.mem_filterMap

theorem mem_sorted {t : Imports} {name : Text} : name ∈ t.sorted ↔ name ∈ t.imported := by
  simp [sorted]

structure Extends (t later : Imports) : Prop where
  package : later.package = t.package
  outside : later.outside = t.outside
  owner : ∀ {name owner}, t.owner? name = some owner → later.owner? name = some owner
  spelling : ∀ {c spelling}, t.spelling? c = some spelling → later.spelling? c = some spelling
  imported : ∀ {name}, name ∈ t.imported → name ∈ later.imported

theorem Extends.refl (t : Imports) : Extends t t := ⟨rfl, rfl, id, id, id⟩

theorem Extends.trans {a b c : Imports} (hab : Extends a b) (hbc : Extends b c) : Extends a c where
  package := hbc.package.trans hab.package
  outside := hbc.outside.trans hab.outside
  owner := fun h => hbc.owner (hab.owner h)
  spelling := fun h => hbc.spelling (hab.spelling h)
  imported := fun h => hbc.imported (hab.imported h)

theorem mem_insertName {name x : Text} {names : List Text} :
    x ∈ insertName name names ↔ x = name ∨ x ∈ names := by
  by_cases h : name ∈ names
  · simp only [insertName, List.contains_eq_mem, h, decide_true, if_true]
    exact ⟨Or.inr, fun hx => hx.elim (fun heq => heq ▸ h) id⟩
  · simp [insertName, h, or_comm]

/-- How a class of a package comes to its spelling: it has one, its short name is free, or it goes
by its full name. -/
inductive Added (t : Imports) (c : ClassName) : Imports → Prop where
  | known {spelling : Text} (h : t.spelling? c = some spelling) : Added t c t
  | short (hnew : t.spelling? c = none)
      (hfree : ∀ owner, t.owner? (t.shortNames c).1 = some owner → owner = c.canonical) :
      Added t c
        { t with
          owners := ((t.shortNames c).1, c.canonical) :: t.owners
          spellings := (c, (t.shortNames c).2) :: t.spellings
          imported := if t.isAtHand c then t.imported else insertName c.canonical t.imported }
  | full (hnew : t.spelling? c = none) :
      Added t c { t with spellings := (c, c.canonical) :: t.spellings }

theorem addClass_added {c : ClassName} (hc : c.package ≠ []) (t : Imports) :
    Added t c (t.addClass c) := by
  cases hs : t.spelling? c with
  | some spelling =>
    have heq : t.addClass c = t := by simp [addClass, hs]
    rw [heq]
    exact .known hs
  | none =>
    by_cases hfree : (t.owner? (t.shortNames c).1).all (· == c.canonical)
    · have hall : ∀ owner, t.owner? (t.shortNames c).1 = some owner → owner = c.canonical := by
        simpa [Option.all_eq_true] using hfree
      have hstep := Added.short hs hall
      simpa [addClass, hs, hc, hfree] using hstep
    · have hstep := Added.full hs
      simpa [addClass, hs, hc, hfree] using hstep

theorem Added.extends {t later : Imports} {c : ClassName} (h : Added t c later) :
    Extends t later := by
  cases h with
  | known => exact Extends.refl t
  | short hnew hfree =>
    refine ⟨rfl, rfl, ?_, ?_, ?_⟩
    · intro name owner hname
      by_cases heq : name = (t.shortNames c).1
      · subst heq
        simp [owner?, hfree owner hname]
      · exact (lookup_cons_ne heq).trans hname
    · intro d spelling hd
      by_cases heq : d = c
      · rw [heq, hnew] at hd
        cases hd
      · exact (lookup_cons_ne heq).trans hd
    · intro name hname
      show name ∈ if t.isAtHand c then t.imported else insertName c.canonical t.imported
      split
      · exact hname
      · exact mem_insertName.2 (Or.inr hname)
  | full hnew =>
    refine ⟨rfl, rfl, id, ?_, id⟩
    intro d spelling hd
    by_cases heq : d = c
    · rw [heq, hnew] at hd
      cases hd
    · exact (lookup_cons_ne heq).trans hd

theorem Added.spelled {t later : Imports} {c : ClassName} (h : Added t c later) :
    ∃ spelling, later.spelling? c = some spelling := by
  cases h with
  | known h => exact ⟨_, h⟩
  | short => exact ⟨_, List.lookup_cons_self⟩
  | full => exact ⟨_, List.lookup_cons_self⟩

/-- The class owns its short name, goes by it, and is imported unless it is at hand. -/
def GoesShort (t : Imports) (c : ClassName) (spelling : Text) : Prop :=
  spelling = (t.shortNames c).2 ∧ t.owner? (t.shortNames c).1 = some c.canonical ∧
    (t.isAtHand c = true ∨ c.canonical ∈ t.imported)

/-- Declared names belong to nobody, an import owns its last segment, and what has a spelling goes
by its full name or owns its short one. -/
structure Sound (declared : List Text) (t : Imports) : Prop where
  outside : t.outside = []
  declared_owner : ∀ name ∈ declared, t.owner? name = some []
  imported_owner : ∀ name ∈ t.imported, t.owner? name.lastSegment = some name
  spelled : ∀ {c spelling}, t.spelling? c = some spelling →
    spelling = c.canonical ∨ GoesShort t c spelling

theorem Extends.shortNames {t later : Imports} (h : Extends t later) (c : ClassName) :
    later.shortNames c = t.shortNames c := by
  simp only [Imports.shortNames, h.package]

theorem Extends.goesShort {t later : Imports} (h : Extends t later) {c : ClassName}
    {spelling : Text} (hs : GoesShort t c spelling) : GoesShort later c spelling := by
  obtain ⟨hspelling, howner, hhand⟩ := hs
  refine ⟨by rw [h.shortNames, hspelling], by rw [h.shortNames]; exact h.owner howner, ?_⟩
  rcases hhand with hhand | hmem
  · exact Or.inl (by simpa only [isAtHand, h.package, h.outside] using hhand)
  · exact Or.inr (h.imported hmem)

theorem lookup_declared {declared : List Text} {name : Text} (h : name ∈ declared) :
    (declared.map (·, ([] : Text))).lookup name = some [] := by
  induction declared with
  | nil => cases h
  | cons d declared ih =>
    by_cases heq : name = d
    · simp [heq]
    · rw [List.map_cons, lookup_cons_ne heq]
      exact ih ((List.mem_cons.1 h).resolve_left heq)

theorem start_sound (package : Text) (declared : List Text) :
    Sound declared (start package [] declared) where
  outside := rfl
  declared_owner := fun _ h => lookup_declared h
  imported_owner := fun _ h => nomatch h
  spelled := fun h => nomatch h

/-- The short name of a class that needs an import is its last segment. -/
theorem shortNames_of_not_atHand {t : Imports} (hout : t.outside = []) {c : ClassName}
    (h : t.isAtHand c = false) : (t.shortNames c).1 = c.reference := by
  have hpackage : c.package ≠ t.package := by
    simp only [isAtHand, hout, List.contains_nil, Bool.not_false, Bool.and_true,
      Bool.or_eq_false_iff, beq_eq_false_iff_ne] at h
    exact h.2
  simp only [shortNames, if_neg hpackage]

theorem Added.sound {declared : List Text} {t later : Imports} {c : ClassName}
    (hc : c.package ≠ []) (h : Added t c later) (ht : Sound declared t) :
    Sound declared later := by
  have hext := h.extends
  refine ⟨hext.outside.trans ht.outside, fun name hn => hext.owner (ht.declared_owner name hn),
    ?_, ?_⟩
  · intro name hname
    cases h with
    | known => exact ht.imported_owner name hname
    | full => exact ht.imported_owner name hname
    | short hnew hfree =>
      cases hhand : t.isAtHand c with
      | true =>
        simp only [hhand, if_true] at hname
        exact hext.owner (ht.imported_owner name hname)
      | false =>
        simp only [hhand, Bool.false_eq_true, if_false] at hname
        rcases mem_insertName.1 hname with rfl | hmem
        · rw [ClassName.lastSegment_canonical hc,
            ← shortNames_of_not_atHand ht.outside hhand]
          exact List.lookup_cons_self
        · exact hext.owner (ht.imported_owner name hmem)
  · intro d spelling hd
    -- Only the spelling of `c` itself can be new.
    by_cases hold : t.spelling? d = some spelling
    · exact (ht.spelled hold).imp id hext.goesShort
    cases h with
    | known => exact absurd hd hold
    | short hnew hfree =>
      by_cases heq : d = c
      · subst heq
        have hspelling : (t.shortNames d).2 = spelling :=
          Option.some.inj (List.lookup_cons_self.symm.trans hd)
        refine Or.inr ⟨hspelling.symm, List.lookup_cons_self, ?_⟩
        cases hhand : t.isAtHand d with
        | true => exact Or.inl hhand
        | false => exact Or.inr (by simp [mem_insertName])
      · exact absurd ((lookup_cons_ne heq).symm.trans hd) hold
    | full hnew =>
      by_cases heq : d = c
      · subst heq
        exact Or.inl (Option.some.inj (List.lookup_cons_self.symm.trans hd)).symm
      · exact absurd ((lookup_cons_ne heq).symm.trans hd) hold

def Request.HasPackage (r : Request) : Prop := ∀ c, r.type.class? = some c → c.package ≠ []

theorem add_extends {type : TypeName} (h : ∀ c, type.class? = some c → c.package ≠ [])
    (t : Imports) : Extends t (t.add type) := by
  cases hc : type.class? with
  | none => simpa only [add, hc] using Extends.refl t
  | some c => simpa only [add, hc] using (addClass_added (h c hc) t).extends

theorem add_sound {declared : List Text} {type : TypeName}
    (h : ∀ c, type.class? = some c → c.package ≠ []) {t : Imports} (ht : Sound declared t) :
    Sound declared (t.add type) := by
  cases hc : type.class? with
  | none => simpa only [add, hc] using ht
  | some c => simpa only [add, hc] using (addClass_added (h c hc) t).sound (h c hc) ht

theorem add_spelled {type : TypeName} {c : ClassName} (hc : type.class? = some c)
    (h : c.package ≠ []) (t : Imports) : ∃ spelling, (t.add type).spelling? c = some spelling := by
  simpa only [add, hc] using (addClass_added h t).spelled

theorem serve_cons (t : Imports) (r : Request) (rest : List Request) :
    (t.serve (r :: rest)).1 = ((t.add r.type).serve rest).1 := by
  cases r <;> rfl

theorem serve_extends {requests : List Request} (h : ∀ r ∈ requests, r.HasPackage) (t : Imports) :
    Extends t (t.serve requests).1 := by
  induction requests generalizing t with
  | nil => exact Extends.refl t
  | cons r rest ih =>
    rw [serve_cons]
    exact (add_extends (h r List.mem_cons_self) t).trans
      (ih (fun x hx => h x (List.mem_cons_of_mem _ hx)) _)

theorem serve_sound {declared : List Text} {requests : List Request}
    (h : ∀ r ∈ requests, r.HasPackage) {t : Imports} (ht : Sound declared t) :
    Sound declared (t.serve requests).1 := by
  induction requests generalizing t with
  | nil => exact ht
  | cons r rest ih =>
    rw [serve_cons]
    exact ih (fun x hx => h x (List.mem_cons_of_mem _ hx)) (add_sound (h r List.mem_cons_self) ht)

theorem serve_spelled {requests : List Request} (h : ∀ r ∈ requests, r.HasPackage) (t : Imports)
    {c : ClassName} (hc : c ∈ mentioned requests) :
    ∃ spelling, (t.serve requests).1.spelling? c = some spelling := by
  obtain ⟨r, hr, hrc⟩ := mem_mentioned.1 hc
  induction requests generalizing t with
  | nil => cases hr
  | cons first rest ih =>
    have hrest : ∀ x ∈ rest, x.HasPackage := fun x hx => h x (List.mem_cons_of_mem _ hx)
    rw [serve_cons]
    rcases List.mem_cons.1 hr with rfl | hmem
    · obtain ⟨spelling, hs⟩ := add_spelled hrc (h r List.mem_cons_self c hrc) t
      exact ⟨spelling, (serve_extends hrest _).spelling hs⟩
    · exact ih hrest _ (mem_mentioned.2 ⟨r, hmem, hrc⟩) hmem

/-- A type whose class has a spelling is spelled the same way ever after. -/
theorem Extends.spell {t later : Imports} (h : Extends t later) {type : TypeName}
    (hspelled : ∀ c, type.class? = some c → ∃ spelling, t.spelling? c = some spelling) :
    later.spell type = t.spell type := by
  induction type with
  | plain name => rfl
  | absent => rfl
  | ofClass c =>
    obtain ⟨spelling, hs⟩ := hspelled c rfl
    simp only [Imports.spell, hs, h.spelling hs]
  | array component ih =>
    simp only [Imports.spell, ih hspelled]

theorem serve_answers {requests : List Request} (h : ∀ r ∈ requests, r.HasPackage) (t : Imports)
    {answer : TypeName × Text} (ha : answer ∈ (t.serve requests).2) :
    answer.2 = (t.serve requests).1.spell answer.1 := by
  induction requests generalizing t with
  | nil => cases ha
  | cons r rest ih =>
    have hrest : ∀ x ∈ rest, x.HasPackage := fun x hx => h x (List.mem_cons_of_mem _ hx)
    have hr := h r List.mem_cons_self
    rw [serve_cons]
    cases r with
    | add type => exact ih hrest _ ha
    | name type =>
      rcases List.mem_cons.1 ha with rfl | hmem
      · refine ((serve_extends hrest (t.add type)).spell ?_).symm
        exact fun c hc => add_spelled hc (hr c hc) t
      · exact ih hrest _ hmem

/-! ### What owned names mean -/

theorem find?_sorted_eq_some_iff {declared : List Text} {t : Imports} (ht : Sound declared t)
    {name owner : Text} (ho : t.owner? name = some owner) {i : Text} :
    t.sorted.find? (·.lastSegment == name) = some i ↔
      i = owner ∧ owner ∈ t.sorted ∧ owner.lastSegment = name := by
  have honly : ∀ i ∈ t.sorted, i.lastSegment = name → i = owner := by
    intro i hi hlast
    have hown := ht.imported_owner i (mem_sorted.1 hi)
    rw [hlast, ho] at hown
    exact (Option.some.inj hown).symm
  constructor
  · intro hfind
    have hmem := List.mem_of_find?_eq_some hfind
    have hlast : i.lastSegment = name := by simpa using List.find?_some hfind
    have heq := honly i hmem hlast
    subst heq
    exact ⟨rfl, hmem, hlast⟩
  · rintro ⟨rfl, hmem, hlast⟩
    cases hfind : t.sorted.find? (·.lastSegment == name) with
    | some j =>
      have hj : j.lastSegment = name := by simpa using List.find?_some hfind
      rw [honly j (List.mem_of_find?_eq_some hfind) hj]
    | none => exact absurd hlast (by simpa using List.find?_eq_none.1 hfind i hmem)

/-- The scope of a file whose imports are those of a state. -/
def scopeOf (t : Imports) (declared : List Text) (classes : List ClassName) : FileScope :=
  ⟨t.package, declared, t.sorted, classes⟩

variable {t : Imports} {declared : List Text} {classes : List ClassName} {c : ClassName}

theorem owned_not_declared (ht : Sound declared t) (hc : c.package ≠ []) {name : Text}
    (ho : t.owner? name = some c.canonical) : name ∉ declared := by
  intro hmem
  have hnobody := ht.declared_owner name hmem
  rw [ho] at hnobody
  have hdot := ClassName.dot_mem_canonical hc
  rw [Option.some.inj hnobody] at hdot
  cases hdot

/-- A name that a class owns means that class if it is imported under the name. -/
theorem meaning_imported (ht : Sound declared t) (hc : c.package ≠ []) {name : Text}
    (ho : t.owner? name = some c.canonical) (himport : c.canonical ∈ t.sorted)
    (hname : c.reference = name) :
    (scopeOf t declared classes).meaning name = .named c.canonical := by
  have hfind : t.sorted.find? (·.lastSegment == name) = some c.canonical := by
    rw [find?_sorted_eq_some_iff ht ho, ClassName.lastSegment_canonical hc]
    exact ⟨rfl, himport, hname⟩
  simp only [FileScope.meaning, scopeOf, if_neg (owned_not_declared ht hc ho), hfind]

/-- A name that a class owns without an import means an outermost class of the file's package, else
one of the language. -/
theorem meaning_not_imported (ht : Sound declared t) (hc : c.package ≠ []) {name : Text}
    (ho : t.owner? name = some c.canonical)
    (himport : ¬(c.canonical ∈ t.sorted ∧ c.reference = name)) :
    (scopeOf t declared classes).meaning name = .named (ClassName.canonical
      ⟨if (scopeOf t declared classes).holdsClass name then t.package else languagePackage,
        name⟩) := by
  have hfind : t.sorted.find? (·.lastSegment == name) = none := by
    cases hfind : t.sorted.find? (·.lastSegment == name) with
    | none => rfl
    | some i =>
      rw [find?_sorted_eq_some_iff ht ho, ClassName.lastSegment_canonical hc] at hfind
      exact absurd hfind.2 himport
  simp only [FileScope.meaning, scopeOf, if_neg (owned_not_declared ht hc ho), hfind]

theorem not_canonical_of_dotless (hclasses : ∀ d ∈ classes, d.package ≠ []) {name : Text}
    (h : CodePoint.ofChar '.' ∉ name) :
    ¬∃ d ∈ (scopeOf t declared classes).mentioned, d.canonical = name := by
  rintro ⟨d, hd, rfl⟩
  exact h (ClassName.dot_mem_canonical (hclasses d hd))

theorem canonical_inj_simple {package a b : Text} (h : package ≠ []) :
    ClassName.canonical ⟨package, a⟩ = ClassName.canonical ⟨package, b⟩ ↔ a = b := by
  constructor
  · intro heq
    rw [ClassName.canonical_of_package h, ClassName.canonical_of_package h] at heq
    simpa using heq
  · rintro rfl
    rfl

theorem languagePackage_ne : languagePackage ≠ [] := by decide

theorem resolve_reference (ht : Sound declared t) (hclasses : ∀ d ∈ classes, d.package ≠ [])
    (hc : c.package ≠ []) (hother : c.package ≠ t.package)
    (hshort : GoesShort t c c.reference) :
    (scopeOf t declared classes).resolve c.reference = .named c.canonical ↔
      ¬(scopeOf t declared classes).LosesLanguageClass c := by
  obtain ⟨-, howner, hhand⟩ := hshort
  have hname : (t.shortNames c).1 = c.reference := by simp only [shortNames, if_neg hother]
  rw [hname] at howner
  have hdot : CodePoint.ofChar '.' ∉ c.reference := Text.dot_not_mem_lastSegment c.simple
  have hresolve : (scopeOf t declared classes).resolve c.reference =
      (scopeOf t declared classes).meaning c.reference := by
    rw [FileScope.resolve, if_neg (not_canonical_of_dotless hclasses hdot),
      Text.firstSegment_of_not_mem hdot, Text.laterSegments_of_not_mem hdot]
    cases (scopeOf t declared classes).meaning c.reference <;> simp [Meaning.select]
  rw [hresolve]
  by_cases himport : c.canonical ∈ t.sorted
  · rw [meaning_imported ht hc howner himport rfl]
    simp [himport, FileScope.LosesLanguageClass, scopeOf]
  rw [meaning_not_imported ht hc howner fun h => himport h.1]
  -- What another package has at hand without an import can only be a class of the language.
  have hlanguage : c.package = languagePackage := by
    rcases hhand with hhand | hmem
    · simpa [isAtHand, ht.outside, hother] using hhand
    · exact absurd (mem_sorted.2 hmem) himport
  have hfile : (scopeOf t declared classes).package ≠ languagePackage := by
    rw [← hlanguage]
    exact hother.symm
  have hcanonical : c.canonical = ClassName.canonical ⟨languagePackage, c.simple⟩ := by
    rw [← hlanguage]
  simp only [Meaning.named.injEq, FileScope.LosesLanguageClass, hlanguage, hfile, ne_eq,
    not_false_eq_true, true_and]
  cases hholds : (scopeOf t declared classes).holdsClass c.reference with
  | true => simp [scopeOf, himport]
  | false =>
    have hinj : ClassName.canonical ⟨languagePackage, c.reference⟩ = c.canonical ↔
        c.reference = c.simple := by
      rw [hcanonical]
      exact canonical_inj_simple languagePackage_ne
    simp [scopeOf, himport, hinj]

theorem resolve_simple (ht : Sound declared t) (hclasses : ∀ d ∈ classes, d.package ≠ [])
    (hmem : c ∈ classes) (hown : c.package = t.package)
    (howner : t.owner? c.simple.firstSegment = some c.canonical) :
    (scopeOf t declared classes).resolve c.simple = .named c.canonical ↔
      ¬(scopeOf t declared classes).HidesOwnClass c := by
  have hc := hclasses c hmem
  by_cases hfull : ∃ d ∈ classes, d.canonical = c.simple
  · have hne := ClassName.canonical_ne_simple hc
    simp [FileScope.resolve, FileScope.HidesOwnClass, scopeOf, hfull, hown, hne.symm]
  have hresolve : (scopeOf t declared classes).resolve c.simple =
      ((scopeOf t declared classes).meaning c.simple.firstSegment).select
        c.simple.laterSegments := by
    rw [FileScope.resolve, if_neg]
    exact hfull
  have hholds : (scopeOf t declared classes).holdsClass c.simple.firstSegment = true :=
    List.any_eq_true.2 ⟨c, hmem, by simp [scopeOf, hown]⟩
  rw [hresolve]
  -- An own class is imported only through a class of another package with the same full name.
  by_cases himport : c.canonical ∈ t.sorted ∧ c.reference = c.simple.firstSegment
  · have hnested : c.simple.laterSegments = [] ↔ c.reference = c.simple := by
      rw [Text.laterSegments_eq_nil_iff, himport.2]
    rw [meaning_imported ht hc howner himport.1 himport.2]
    simp only [Meaning.select, Meaning.named.injEq, FileScope.HidesOwnClass, scopeOf]
    rw [List.append_right_eq_self, hnested]
    simp [hown, hfull, himport.1, himport.2.symm]
  · have hcanonical : ClassName.canonical ⟨t.package, c.simple.firstSegment⟩
        ++ c.simple.laterSegments = c.canonical := by
      rw [ClassName.canonical_of_package hc, ClassName.canonical_of_package (hown ▸ hc), hown,
        List.append_assoc, List.cons_append, Text.firstSegment_append_laterSegments]
    have hhides : ¬(scopeOf t declared classes).HidesOwnClass c := by
      rintro ⟨-, hother | ⟨hmem, hfirst, -⟩⟩
      · exact hfull hother
      · exact himport ⟨hmem, hfirst.symm⟩
    rw [meaning_not_imported ht hc howner himport, hholds, if_pos rfl]
    simp only [Meaning.select, hcanonical, hhides, not_false_eq_true]

theorem resolve_iff (ht : Sound declared t) (hclasses : ∀ d ∈ classes, d.package ≠ [])
    (hmem : c ∈ classes) {spelling : Text} (hs : t.spelling? c = some spelling) :
    (scopeOf t declared classes).resolve spelling = .named c.canonical ↔
      spelling = c.canonical ∨
        ¬((scopeOf t declared classes).LosesLanguageClass c ∨
          (scopeOf t declared classes).HidesOwnClass c) := by
  have hc := hclasses c hmem
  rcases ht.spelled hs with rfl | hshort
  · have hmentioned : ∃ d ∈ classes, d.canonical = c.canonical := ⟨c, hmem, rfl⟩
    simp [FileScope.resolve, scopeOf, hmentioned]
  have hboth := hshort
  obtain ⟨hspelling, howner, -⟩ := hboth
  by_cases hown : c.package = t.package
  · have hnames : t.shortNames c = (c.simple.firstSegment, c.simple) := by
      simp only [shortNames, if_pos hown, Text.firstSegment]
    rw [hnames] at hspelling howner
    subst hspelling
    have hlanguage : ¬(scopeOf t declared classes).LosesLanguageClass c :=
      fun hl => hl.2.1 (hown.symm.trans hl.1)
    have hne := (ClassName.canonical_ne_simple hc).symm
    rw [resolve_simple ht hclasses hmem hown howner]
    simp only [hlanguage, hne, false_or]
  · have hnames : (t.shortNames c).2 = c.reference := by
      simp only [shortNames, if_neg hown]
    rw [hnames] at hspelling
    subst hspelling
    have hhides : ¬(scopeOf t declared classes).HidesOwnClass c := fun hh => hown hh.1
    have hne : c.reference ≠ c.canonical := by
      intro heq
      have hdot := ClassName.dot_mem_canonical hc
      rw [← heq] at hdot
      exact Text.dot_not_mem_lastSegment c.simple hdot
    rw [resolve_reference ht hclasses hc hown hshort]
    simp only [hhides, hne, or_false, false_or]

/-! ### The whole run -/

/-- In the file that the requests lead to, a spelling once given out stays, and it means its class
exactly if it is the full name or nothing leads the short one elsewhere. -/
theorem resolve_spelling_iff (package : Text) (declared : List Text) (requests : List Request)
    (h : ∀ c ∈ mentioned requests, c.package ≠ []) :
    (∀ answer ∈ (collect package declared requests).2,
      answer.2 = (collect package declared requests).1.spell answer.1) ∧
    ∀ c ∈ mentioned requests, ∃ spelling,
      (collect package declared requests).1.spelling? c = some spelling ∧
      ((fileScope package declared requests).resolve spelling = .named c.canonical ↔
        spelling = c.canonical ∨
          ¬((fileScope package declared requests).LosesLanguageClass c ∨
            (fileScope package declared requests).HidesOwnClass c)) := by
  have hreq : ∀ r ∈ requests, r.HasPackage := fun r hr c hrc => h c (mem_mentioned.2 ⟨r, hr, hrc⟩)
  have hsound : Sound declared (collect package declared requests).1 :=
    serve_sound hreq (start_sound package declared)
  have hpackage : (collect package declared requests).1.package = package :=
    (serve_extends hreq (start package [] declared)).package
  have hscope : fileScope package declared requests =
      scopeOf (collect package declared requests).1 declared (mentioned requests) := by
    rw [fileScope, scopeOf, hpackage]
  refine ⟨fun answer ha => serve_answers hreq _ ha, ?_⟩
  intro c hc
  obtain ⟨spelling, hs⟩ := serve_spelled hreq (start package [] declared) hc
  refine ⟨spelling, hs, ?_⟩
  rw [hscope]
  exact resolve_iff hsound h hc hs

/-- Two classes of one short name, an own nested class and a class of the language. -/
def userRequests : List Request :=
  [.name (.array (.ofClass ⟨"com.example", "Outer.User"⟩)), .add (.ofClass ⟨"org.other", "User"⟩),
    .name (.ofClass ⟨"com.app", "Local.Part"⟩), .name (.ofClass stringClass)]

theorem resolve_spelling_iff_users :
    (∀ c ∈ mentioned userRequests, c.package ≠ []) ∧
    ∀ c ∈ mentioned userRequests, ∃ spelling,
      (collect "com.app" ["MainDirections"] userRequests).1.spelling? c = some spelling ∧
      (fileScope "com.app" ["MainDirections"] userRequests).resolve spelling
        = .named c.canonical := by
  have hpackage : ∀ c ∈ mentioned userRequests, c.package ≠ [] := by decide
  have hclear : ∀ c ∈ mentioned userRequests,
      ¬((fileScope "com.app" ["MainDirections"] userRequests).LosesLanguageClass c ∨
        (fileScope "com.app" ["MainDirections"] userRequests).HidesOwnClass c) := by
    decide +kernel
  refine ⟨hpackage, fun c hc => ?_⟩
  obtain ⟨spelling, hs, hiff⟩ :=
    (resolve_spelling_iff "com.app" ["MainDirections"] userRequests hpackage).2 c hc
  exact ⟨spelling, hs, hiff.2 (Or.inr (hclear c hc))⟩

/-- A nested class of the language goes by its last segment without an import, which means another
class of the language. -/
theorem nested_language_class_misread :
    (collect "com.app" [] [.name (.ofClass ⟨"java.lang", "Thread.State"⟩)]).2
        = [(TypeName.ofClass ⟨"java.lang", "Thread.State"⟩, Text.ofString "State")] ∧
      (fileScope "com.app" [] [.name (.ofClass ⟨"java.lang", "Thread.State"⟩)]).resolve "State"
        ≠ .named (ClassName.canonical ⟨"java.lang", "Thread.State"⟩) := by
  constructor
  · decide
  · decide +kernel

end Imports
end NavDirections
