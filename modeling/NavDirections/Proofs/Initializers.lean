import NavDirections.Graph.Catalog
import NavDirections.Proofs.LiteralReading
import NavDirections.Proofs.NumeralValues
import NavDirections.Proofs.Segments
import NavDirections.Proofs.SourcePaths

/-!
# Defaults as initializers

Which texts a compiler takes for the initial value of a field.  The literal of a default is such a
text for the type of its field, provided that the names it is made of are names, and apart from line
feeds behind hexadecimal digits.
-/

namespace NavDirections

open Success

def CodePoint.EndsLine (c : CodePoint) : Prop := c = '\n' ∨ c = '\r'

theorem Text.notMem_of_hasShape {first others : CodePoint → Bool} {t : Text} {c : CodePoint}
    (h : t.hasShape first others = true) (hfirst : first c = false) (hothers : others c = false) :
    c ∉ t := by
  cases t with
  | nil => cases h
  | cons d rest =>
    obtain ⟨hd, hrest⟩ := Bool.and_eq_true_iff.mp h
    rw [List.mem_cons, not_or]
    constructor
    · rintro rfl
      rw [hfirst] at hd
      cases hd
    · intro hmem
      have hc := List.all_eq_true.mp hrest c hmem
      rw [hothers] at hc
      cases hc

/-- What a compiler takes for a name: the code points it begins with, those it goes on with, and
the words that are no names. -/
structure NameRules where
  starts : CodePoint → Bool
  continues : CodePoint → Bool
  reserved : List Text
  starts_continues : ∀ c, starts c = true → continues c = true
  dot : continues '.' = false
  lineEnd : ∀ c : CodePoint, c.EndsLine → continues c = false

namespace NameRules

variable {rules : NameRules} {t : Text} {c : CodePoint}

def IsName (rules : NameRules) (t : Text) : Prop :=
  t.hasShape rules.starts rules.continues = true ∧ t ∉ rules.reserved

def IsQualified (rules : NameRules) (t : Text) : Prop :=
  ∀ piece ∈ t.splitOn '.', rules.IsName piece

instance (rules : NameRules) (t : Text) : Decidable (rules.IsName t) :=
  inferInstanceAs (Decidable (_ ∧ _))

instance (rules : NameRules) (t : Text) : Decidable (rules.IsQualified t) :=
  inferInstanceAs (Decidable (∀ piece ∈ t.splitOn '.', rules.IsName piece))

/-- Names of ASCII letters, digits, underscores and dollar signs. -/
def ascii : NameRules where
  starts := CodePoint.startsIdentifier
  continues c := c.startsIdentifier || c.isAsciiDigit
  reserved := reservedWords
  starts_continues c h := by rw [h, Bool.true_or]
  dot := rfl
  lineEnd c h := by rcases h with rfl | rfl <;> rfl

theorem IsName.notMem (h : rules.IsName t) (hc : rules.continues c = false) : c ∉ t := by
  refine Text.notMem_of_hasShape h.1 ?_ hc
  by_contra hstarts
  rw [rules.starts_continues c (by simpa using hstarts)] at hc
  cases hc

theorem IsQualified.notMem (h : rules.IsQualified t) (hc : rules.continues c = false)
    (hdot : c ≠ '.') : c ∉ t := by
  intro hmem
  obtain ⟨piece, hpiece, hinside⟩ := Text.exists_piece_of_mem hmem hdot
  exact (h piece hpiece).notMem hc hinside

theorem isQualified_append_dot {before after : Text} :
    rules.IsQualified (before ++ CodePoint.ofChar '.' :: after) ↔
      rules.IsQualified before ∧ rules.IsQualified after := by
  unfold IsQualified
  rw [Text.splitOn_append_cons, List.forall_mem_append]

theorem not_isQualified_nil : ¬rules.IsQualified [] := by
  intro h
  have hempty : [] ∈ Text.splitOn '.' [] := List.mem_cons_self
  exact Bool.false_ne_true (h [] hempty).1

theorem not_isQualified_dot : ¬rules.IsQualified (CodePoint.ofChar '.' :: t) := by
  intro h
  have hempty : rules.IsQualified ([] ++ CodePoint.ofChar '.' :: t) := h
  exact not_isQualified_nil (isQualified_append_dot.mp hempty).1

theorem IsQualified.canonical_bestGuess (h : rules.IsQualified t) :
    (ClassName.bestGuess t).canonical = t := by
  refine ClassName.canonical_bestGuess fun hdot => ?_
  obtain ⟨rest, rfl⟩ := List.head?_eq_some_iff.mp hdot
  exact not_isQualified_dot h

end NameRules

/-! ### Initializers -/

open Literal in
/-- The texts that initialize a field of a type, for an argument of a tag. -/
inductive Initializes (rules : NameRules) : TypeTag → TypeName → Text → Prop
  | integer {text : Text} (h : IsInteger 32 text) :
      Initializes rules .integer (.plain "int") text
  | long {body : Text} (h : IsInteger 64 body) :
      Initializes rules .long (.plain "long") (body ++ "L")
  | float {sign body : Text} (hsign : sign = [] ∨ sign = ("-" : Text)) (h : IsFloating body) :
      Initializes rules .float (.plain "float") (sign ++ body ++ "F")
  | boolean {text : Text} (h : text = ("true" : Text) ∨ text = ("false" : Text)) :
      Initializes rules .boolean (.plain "boolean") text
  | string {text : Text} {units : List CodeUnit}
      (hread : StringLiteral.read text = some (units, []))
      (hline : ∀ c ∈ text, ¬c.EndsLine) :
      Initializes rules .string (.ofClass stringClass) text
  | zero : Initializes rules .reference (.plain "int") "0"
  | resource {package type name : Text} (hpackage : rules.IsQualified package)
      (htype : rules.IsName type) (hname : rules.IsName name) :
      Initializes rules .reference (.plain "int") (package ++ ".R." ++ type ++ "." ++ name)
  | constant {c : ClassName} {name : Text} (hclass : rules.IsQualified c.canonical)
      (hname : rules.IsName name) :
      Initializes rules .enumeration (.ofClass c) (c.canonical ++ "." ++ name)
  | nullObject {tag : TypeTag} {c : ClassName} (h : tag = .string ∨ tag.needsClass = true) :
      Initializes rules tag (.ofClass c) "null"
  | nullArray {tag : TypeTag} {component : TypeName} :
      Initializes rules tag (.array component) "null"

namespace Initializes

variable {rules : NameRules} {tag : TypeTag} {type : TypeName} {text : Text}

theorem lineless (h : Initializes rules tag type text) : ∀ c ∈ text, ¬c.EndsLine := by
  intro c hc hend
  -- What ends a line is no digit, no mark of a numeral and no part of a name.
  have hfixed (t : Text) (hfeed : ('\n' : CodePoint) ∉ t) (hreturn : ('\r' : CodePoint) ∉ t) :
      c ∉ t := by
    rcases hend with rfl | rfl
    · exact hfeed
    · exact hreturn
  have hdigit : c.hexValue? = none := by
    rcases hend with rfl | rfl
    · rfl
    · rfl
  have hne (d : CodePoint) (hfeed : ('\n' : CodePoint) ≠ d) (hreturn : ('\r' : CodePoint) ≠ d) :
      c ≠ d := by
    rcases hend with rfl | rfl
    · exact hfeed
    · exact hreturn
  have hname := rules.lineEnd c hend
  have hinteger {bits : Nat} {t : Text} (ht : Literal.IsInteger bits t) : c ∉ t :=
    ht.notMem hdigit (hne '-' (by decide) (by decide)) (hne 'x' (by decide) (by decide))
      (hne 'X' (by decide) (by decide))
  have hdot : c ≠ '.' := hne '.' (by decide) (by decide)
  cases h with
  | integer h => exact hinteger h hc
  | long h =>
    rcases List.mem_append.mp hc with hc | hc
    · exact hinteger h hc
    · exact hfixed "L" (by decide) (by decide) hc
  | @float sign body hsign hbody =>
    rcases List.mem_append.mp hc with hc | hc
    · rcases List.mem_append.mp hc with hc | hc
      · rcases hsign with rfl | rfl
        · cases hc
        · exact hfixed "-" (by decide) (by decide) hc
      · exact hbody.notMem hdigit hdot (hne '+' (by decide) (by decide))
          (hne '-' (by decide) (by decide)) hc
    · exact hfixed "F" (by decide) (by decide) hc
  | boolean h =>
    rcases h with rfl | rfl
    · exact hfixed "true" (by decide) (by decide) hc
    · exact hfixed "false" (by decide) (by decide) hc
  | string _ hline => exact hline c hc hend
  | zero => exact hfixed "0" (by decide) (by decide) hc
  | @resource package type name hpackage htype hresource =>
    simp only [List.mem_append] at hc
    rcases hc with (((hc | hc) | hc) | hc) | hc
    · exact hpackage.notMem hname hdot hc
    · exact hfixed ".R." (by decide) (by decide) hc
    · exact htype.notMem hname hc
    · exact hfixed "." (by decide) (by decide) hc
    · exact hresource.notMem hname hc
  | constant hclass hconstant =>
    simp only [List.mem_append] at hc
    rcases hc with (hc | hc) | hc
    · exact hclass.notMem hname hdot hc
    · exact hfixed "." (by decide) (by decide) hc
    · exact hconstant.notMem hname hc
  | nullObject _ => exact hfixed "null" (by decide) (by decide) hc
  | nullArray => exact hfixed "null" (by decide) (by decide) hc

end Initializes

/-! ### Literals of defaults -/

namespace Literal

variable {rules : NameRules} {value text applicationId : Text} {type : ArgumentType}

def NamesResource (rules : NameRules) (applicationId : Text) (r : Reference) : Prop :=
  rules.IsQualified (r.package.getD applicationId) ∧ rules.IsName r.type ∧ rules.IsName r.name

/-- The condition on which the literal of a default is an initializer.  Numerals may have no line
feed behind hexadecimal digits; where names go into the literal they have to be names. -/
def WellSpelled (rules : NameRules) (type : ArgumentType) (value applicationId : Text) : Prop :=
  type.isArray = true ∨ match type.tag with
    | .integer | .long => ¬KeepsLineFeed value
    | .reference => value = ("0" : Text) ∨
        ∃ r, Reference.scan? value = some r ∧ NamesResource rules applicationId r
    | .enumeration => value = nullText ∨ rules.IsQualified type.className ∧ rules.IsName value
    | _ => True

/-- Whether the literal of a default is an initializer, and that null goes to no plain type. -/
structure Fits (rules : NameRules) (tag : TypeTag) (field : TypeName) (text : Text)
    (spelled : Prop) : Prop where
  initializes : Initializes rules tag field text ↔ spelled
  null : text = ("null" : Text) → ∀ name, field ≠ .plain name

theorem lineFeed_notMem {tag : TypeTag} {field : TypeName}
    (h : Initializes rules tag field text) : ('\n' : CodePoint) ∉ text :=
  fun hfeed => h.lineless _ hfeed (.inl rfl)

theorem integral_fits (h : integral 32 value type = .ok text) :
    Fits rules .integer (.plain "int") text (¬KeepsLineFeed value) := by
  rcases integral_form (by decide) h with ⟨hfree, hinteger⟩ | ⟨hkeeps, hfeed⟩
  · refine ⟨iff_of_true (.integer hinteger) hfree, ?_⟩
    rintro rfl
    have hletter : ('n' : CodePoint) ∉ ("null" : Text) :=
      hinteger.notMem rfl (by decide) (by decide) (by decide)
    exact absurd List.mem_cons_self hletter
  · refine ⟨iff_of_false (fun hform => lineFeed_notMem hform hfeed) (not_not_intro hkeeps), ?_⟩
    rintro rfl
    exact absurd hfeed (by decide)

theorem concat_ne_null (t : Text) {last : CodePoint} (h : last ≠ 'l') :
    t ++ [last] ≠ ("null" : Text) := by
  intro hnull
  have hlast := congrArg List.getLast? hnull
  rw [List.getLast?_concat] at hlast
  exact h (Option.some.inj hlast)

theorem long_fits (h : long value type = .ok text) :
    Fits rules .long (.plain "long") text (¬KeepsLineFeed value) := by
  obtain ⟨body, rfl, hform⟩ := long_form h
  refine ⟨?_, fun hnull => absurd hnull (concat_ne_null body (by decide))⟩
  rcases hform with ⟨hfree, hinteger⟩ | ⟨hkeeps, hfeed⟩
  · exact iff_of_true (.long hinteger) hfree
  · refine iff_of_false (fun hform => ?_) (not_not_intro hkeeps)
    exact lineFeed_notMem hform (List.mem_append_left _ hfeed)

theorem float_fits (h : float value type = .ok text) :
    Fits rules .float (.plain "float") text True := by
  obtain ⟨sign, body, rfl, hsign, hbody⟩ := float_form h
  refine ⟨iff_of_true (.float hsign hbody) trivial, fun hnull => ?_⟩
  exact absurd hnull (concat_ne_null (sign ++ body) (by decide))

theorem boolean_fits (h : boolean value type = .ok text) :
    Fits rules .boolean (.plain "boolean") text True := by
  unfold boolean at h
  split at h
  next htruth =>
    cases h
    refine ⟨iff_of_true (.boolean htruth) trivial, ?_⟩
    rintro rfl
    exact absurd htruth (by decide)
  · cases h

theorem string_fits (value : Text) :
    Fits rules .string (.ofClass stringClass) (string value) True := by
  refine ⟨iff_of_true ?_ trivial, fun _ _ => nofun⟩
  unfold string
  split
  · exact .nullObject (.inl rfl)
  · refine .string (StringLiteral.read_encoded value) fun c hc => ?_
    obtain ⟨hfeed, hreturn, -⟩ := StringLiteral.mem_encode hc
    exact not_or.mpr ⟨hfeed, hreturn⟩

theorem isWord_dot : CodePoint.isWord '.' = false := by decide +kernel

theorem scan?_dotless {r : Reference} (h : Reference.scan? value = some r) :
    ('.' : CodePoint) ∉ r.type ∧ ('.' : CodePoint) ∉ r.name := by
  have hparts {package : Option Text} {t : Text} (ht : scanTypeAndName? package t = some r) :
      ('.' : CodePoint) ∉ r.type ∧ ('.' : CodePoint) ∉ r.name := by
    unfold scanTypeAndName? at ht
    split at ht
    · split at ht
      next hshape =>
        cases ht
        obtain ⟨htype, hname⟩ := Bool.and_eq_true_iff.mp hshape
        exact ⟨Text.notMem_of_hasShape htype rfl rfl,
          Text.notMem_of_hasShape hname rfl isWord_dot⟩
      · cases ht
    · cases ht
  unfold Reference.scan? at h
  split at h
  · cases h
  · split at h
    · split at h
      · split at h
        · exact hparts h
        · cases h
      · exact hparts h
    · cases h

theorem reference_ok (h : reference value type applicationId = .ok text) :
    (value = ("0" : Text) ∧ text = ("0" : Text)) ∨
      ∃ r, value ≠ ("0" : Text) ∧ Reference.scan? value = some r ∧
        text = r.package.getD applicationId ++ ".R." ++ r.type ++ "." ++ r.name := by
  unfold reference at h
  split at h
  next hzero =>
    cases h
    exact .inl ⟨hzero, rfl⟩
  next hzero =>
    split at h
    · cases h
    next r hscan =>
      dsimp only at h
      split at h
      · cases h
      · cases h
        exact .inr ⟨r, hzero, hscan, rfl⟩

theorem resource_of_initializes (h : Initializes rules .reference (.plain "int") text) :
    text = ("0" : Text) ∨ ∃ package type name, text = package ++ ".R." ++ type ++ "." ++ name ∧
      rules.IsQualified package ∧ rules.IsName type ∧ rules.IsName name := by
  cases h with
  | zero => exact .inl rfl
  | resource hpackage htype hname => exact .inr ⟨_, _, _, rfl, hpackage, htype, hname⟩

theorem resource_inj {package package' type type' name name' : Text}
    (h : package ++ ".R." ++ type ++ "." ++ name = package' ++ ".R." ++ type' ++ "." ++ name')
    (htype : ('.' : CodePoint) ∉ type) (htype' : ('.' : CodePoint) ∉ type')
    (hname : ('.' : CodePoint) ∉ name) (hname' : ('.' : CodePoint) ∉ name') :
    package = package' ∧ type = type' ∧ name = name' := by
  have hmark (t : Text) : t ++ ".R." = t ++ ".R" ++ "." := (List.append_assoc t ".R" ".").symm
  obtain ⟨hbefore, hlast⟩ := Text.append_dot_inj h hname hname'
  rw [hmark, hmark] at hbefore
  obtain ⟨hpackage, hmiddle⟩ := Text.append_dot_inj hbefore htype htype'
  exact ⟨List.append_cancel_right hpackage, hmiddle, hlast⟩

theorem dotted_ne {t : Text} (a b : Text) (ht : ('.' : CodePoint) ∉ t) : a ++ "." ++ b ≠ t := by
  rintro rfl
  exact ht (List.mem_append_left b (List.mem_append_right a List.mem_cons_self))

theorem reference_fits (h : reference value type applicationId = .ok text) :
    Fits rules .reference (.plain "int") text
      (value = ("0" : Text) ∨
        ∃ r, Reference.scan? value = some r ∧ NamesResource rules applicationId r) := by
  rcases reference_ok h with ⟨hzero, rfl⟩ | ⟨r, hzero, hscan, rfl⟩
  · exact ⟨iff_of_true .zero (.inl hzero), fun hnull => absurd hnull (by decide)⟩
  obtain ⟨htype, hname⟩ := scan?_dotless hscan
  refine ⟨⟨fun hform => ?_, ?_⟩, fun hnull => absurd hnull (dotted_ne _ _ (by decide))⟩
  · rcases resource_of_initializes hform with htext | ⟨package', type', name', htext, hnames⟩
    · exact absurd htext (dotted_ne _ _ (by decide))
    -- The last two parts have no dots, so the literal falls apart in one way only.
    · obtain ⟨hpackage', htype', hname'⟩ := hnames
      obtain ⟨rfl, rfl, rfl⟩ :=
        resource_inj htext htype (htype'.notMem rules.dot) hname (hname'.notMem rules.dot)
      exact .inr ⟨r, hscan, hpackage', htype', hname'⟩
  · rintro (hvalue | ⟨r', hscan', hpackage, htype, hname⟩)
    · exact absurd hvalue hzero
    · rw [hscan] at hscan'
      cases hscan'
      exact .resource hpackage htype hname

theorem constant_of_initializes {c : ClassName}
    (h : Initializes rules .enumeration (.ofClass c) text) :
    text = ("null" : Text) ∨ ∃ name, text = c.canonical ++ "." ++ name ∧
      rules.IsQualified c.canonical ∧ rules.IsName name := by
  cases h with
  | constant hclass hname => exact .inr ⟨_, rfl, hclass, hname⟩
  | nullObject _ => exact .inl rfl

theorem dot_notMem_of_isIdentifierLike (h : value.isIdentifierLike = true) :
    ('.' : CodePoint) ∉ value := by
  have hcontinues : CodePoint.continuesIdentifier '.' = false := by
    rw [CodePoint.continuesIdentifier, isWord_dot]
    rfl
  have hbody := Text.notMem_of_hasShape h rfl hcontinues
  rcases dropFinalLineFeed_cases value with hsame | hcut
  · rwa [hsame] at hbody
  · rw [hcut, List.mem_append, not_or]
    exact ⟨hbody, by decide⟩

theorem enumeration_fits (h : enumeration value type = .ok text) :
    Fits rules .enumeration (.ofClass (.bestGuess type.className)) text
      (value = nullText ∨ rules.IsQualified type.className ∧ rules.IsName value) := by
  refine ⟨?_, fun _ _ => nofun⟩
  unfold enumeration at h
  split at h
  next hnull =>
    cases h
    exact iff_of_true (.nullObject (.inr rfl)) (.inl hnull)
  next hnull =>
    split at h
    next hidentifier =>
      cases h
      have hdot := dot_notMem_of_isIdentifierLike hidentifier
      rw [or_iff_right hnull]
      constructor
      · intro hform
        rcases constant_of_initializes hform with htext | ⟨name, htext, hclass, hname⟩
        · exact absurd htext (dotted_ne _ _ (by decide))
        · obtain ⟨hsame, rfl⟩ := Text.append_dot_inj htext hdot (hname.notMem rules.dot)
          exact ⟨hsame ▸ hclass, hname⟩
      · rintro ⟨hclass, hname⟩
        have hguess := hclass.canonical_bestGuess
        have hconstant := Initializes.constant (hguess.symm ▸ hclass) hname
        rwa [hguess] at hconstant
    · cases h

theorem onlyNull_eq (h : onlyNull value type = .ok text) : text = ("null" : Text) := by
  unfold onlyNull at h
  split at h
  · cases h
    rfl
  · cases h

end Literal

namespace ArgumentType

theorem tag_of_check {t : ArgumentType} (h : t.check = .ok ()) : t.tag ∈ TypeTag.all := by
  unfold check at h
  split at h
  · cases h
  next hlisted => simpa using hlisted

theorem literal_ok {t : ArgumentType} {value applicationId text : Text}
    (h : t.literal (.text value) applicationId = .ok text) :
    t.check = .ok () ∧ t.literalOf value applicationId = .ok text := by
  unfold literal at h
  cases hcheck : t.check with
  | error f =>
    rw [hcheck] at h
    cases h
  | ok _ =>
    rw [hcheck] at h
    exact ⟨rfl, h⟩

def baseType (t : ArgumentType) : TypeName :=
  if t.tag.needsClass then .ofClass (.bestGuess t.className) else t.tag.fieldType

theorem representation_of_check {t : ArgumentType} (h : t.check = .ok ()) :
    t.representation = .ok (if t.isArray then .array t.baseType else t.baseType) := by
  rw [representation, h]
  rfl

open Literal in
theorem literalOf_fits (rules : NameRules) {t : ArgumentType} {value applicationId text : Text}
    (hsingle : t.isArray = false) (htag : t.tag ∈ TypeTag.all)
    (h : t.literalOf value applicationId = .ok text) :
    Fits rules t.tag t.baseType text (WellSpelled rules t value applicationId) := by
  obtain ⟨tag, isArray, className⟩ := t
  cases hsingle
  have hspelled (condition : Prop) : (false = true ∨ condition) = condition := by simp
  unfold WellSpelled
  rw [hspelled]
  cases tag with
  | integer => exact integral_fits h
  | long => exact long_fits h
  | float => exact float_fits h
  | boolean => exact boolean_fits h
  | string =>
    cases h
    exact string_fits value
  | reference => exact reference_fits h
  | enumeration => exact enumeration_fits h
  | parcelable =>
    rw [onlyNull_eq h]
    exact ⟨iff_of_true (.nullObject (.inr rfl)) trivial, fun _ _ => nofun⟩
  | serializable =>
    rw [onlyNull_eq h]
    exact ⟨iff_of_true (.nullObject (.inr rfl)) trivial, fun _ _ => nofun⟩
  | unlisted name => simp [TypeTag.all] at htag

/-- The literal of a default goes into a field of the type that the catalog gives, where it is an
initializer exactly when the default is well spelled; then it stands on one line.  Null is given to
no plain type. -/
theorem literal_initializes_iff (rules : NameRules) {t : ArgumentType}
    {value applicationId text : Text} (h : t.literal (.text value) applicationId = .ok text) :
    ∃ field, t.representation = .ok field ∧
      (Initializes rules t.tag field text ↔ Literal.WellSpelled rules t value applicationId) ∧
      (Initializes rules t.tag field text → ∀ c ∈ text, ¬c.EndsLine) ∧
      (text = ("null" : Text) → ∀ name, field ≠ .plain name) := by
  obtain ⟨hcheck, hliteral⟩ := literal_ok h
  refine ⟨_, representation_of_check hcheck, ?_⟩
  cases harray : t.isArray with
  | true =>
    have hnull : text = ("null" : Text) := by
      unfold literalOf at hliteral
      rw [harray, if_pos rfl] at hliteral
      exact Literal.onlyNull_eq hliteral
    rw [hnull, if_pos rfl]
    exact ⟨iff_of_true .nullArray (.inl harray), Initializes.lineless, fun _ _ => nofun⟩
  | false =>
    have hfits := literalOf_fits rules harray (tag_of_check hcheck) hliteral
    rw [if_neg Bool.false_ne_true]
    exact ⟨hfits.initializes, Initializes.lineless, hfits.null⟩

/-- The default of an enumeration is a constant of its class. -/
theorem red_initializes :
    ArgumentType.literal ⟨.enumeration, false, "com.app.Color"⟩ (.text "RED") [] =
        .ok "com.app.Color.RED" ∧
      ∃ field, ArgumentType.representation ⟨.enumeration, false, "com.app.Color"⟩ = .ok field ∧
        Initializes .ascii .enumeration field "com.app.Color.RED" := by
  have hliteral : ArgumentType.literal ⟨.enumeration, false, "com.app.Color"⟩ (.text "RED") [] =
      .ok "com.app.Color.RED" := rfl
  obtain ⟨field, hfield, hform, -, -⟩ := literal_initializes_iff .ascii hliteral
  refine ⟨hliteral, field, hfield, hform.mpr (.inr (.inr ?_))⟩
  decide

/-- Hexadecimal digits are given back as they came, with the line feed that was passed over. -/
theorem line_feed_is_kept :
    (⟨.integer, false, []⟩ : ArgumentType).literal (.text "0x10\n") [] = .ok "0x10\n" ∧
      ∀ rules field, ¬Initializes rules .integer field "0x10\n" := by
  refine ⟨rfl, fun rules field hform => ?_⟩
  exact hform.lineless '\n' (by decide) (.inl rfl)

end ArgumentType
end NavDirections
