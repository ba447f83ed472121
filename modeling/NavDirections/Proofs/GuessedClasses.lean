import NavDirections.Proofs.HeldArguments
import NavDirections.Proofs.ImportSection
import NavDirections.Proofs.Initializers

/-!
# Classes guessed from their names

A class that is guessed from a full name has that name again, with one exception: a dot in front of
the class is taken for the end of an empty package, and is lost.  The types of fields and the
container of a file are guessed in this way, while the literals of enumerations repeat the name of
the class as it was given.
-/

namespace NavDirections

open Success

/-- The name begins with a dot, and what follows is a name without dots or one that begins with a
capital. -/
def Text.LosesDot (name : Text) : Prop :=
  name.head? = some (CodePoint.ofChar '.') ∧
    (CodePoint.ofChar '.' ∉ name.tail ∨ ClassName.isCapitalized name.tail = true)

instance (name : Text) : Decidable name.LosesDot := inferInstanceAs (Decidable (_ ∧ _))

namespace ClassName

theorem isUpper_dot : CodePoint.isUpper '.' = false := by decide +kernel

/-- Whether a dotted name begins with a capital is seen from its first segment. -/
theorem isCapitalized_append_dot (segment after : Text) :
    isCapitalized (segment ++ CodePoint.ofChar '.' :: after) = isCapitalized segment := by
  cases segment with
  | nil => exact isUpper_dot
  | cons c segment => rfl

/-- All of a name belongs to the class where there is one segment, or the first is capitalized. -/
theorem splitSegments_splitOn_fst_eq_nil_iff (name : Text) :
    (splitSegments (name.splitOn '.')).1 = [] ↔
      CodePoint.ofChar '.' ∉ name ∨ isCapitalized name = true := by
  by_cases hdot : CodePoint.ofChar '.' ∈ name
  · rw [or_iff_right (not_not_intro hdot)]
    obtain ⟨segment, after, rfl, hsegment⟩ := List.eq_append_cons_of_mem hdot
    rw [isCapitalized_append_dot, Text.splitOn_append hsegment]
    obtain ⟨next, rest, hnext⟩ := List.exists_cons_of_ne_nil (Text.splitOn_ne_nil '.' after)
    rw [hnext, splitSegments]
    split
    next hcapital => simp [hcapital]
    next hsmall => simp [hsmall]
  · rw [Text.splitOn_of_notMem hdot]
    exact iff_of_true rfl (.inl hdot)

/-- Behind a dot a name is cut as it would be by itself, with an empty segment in front. -/
theorem bestGuess_dot (rest : Text) :
    bestGuess (CodePoint.ofChar '.' :: rest) =
      ⟨Text.joinWith "." ([] :: (splitSegments (rest.splitOn '.')).1),
        Text.joinWith "." (splitSegments (rest.splitOn '.')).2⟩ := by
  have hsplit : Text.splitOn '.' (CodePoint.ofChar '.' :: rest) = [] :: rest.splitOn '.' :=
    Text.splitOn_append (t := []) List.not_mem_nil rest
  obtain ⟨next, more, hnext⟩ := List.exists_cons_of_ne_nil (Text.splitOn_ne_nil '.' rest)
  rw [bestGuess, hsplit, hnext]
  rfl

/-- A name behind a dot keeps the dot where something of the name belongs to the package. -/
theorem canonical_bestGuess_dot (rest : Text) :
    (bestGuess (CodePoint.ofChar '.' :: rest)).canonical =
      if (splitSegments (rest.splitOn '.')).1 = [] then rest else CodePoint.ofChar '.' :: rest := by
  have hsegments := splitSegments_append (rest.splitOn '.')
  have hsimple := splitSegments_snd_ne_nil (Text.splitOn_ne_nil '.' rest)
  have hjoin := Text.joinWith_splitOn '.' rest
  rw [bestGuess_dot]
  generalize splitSegments (rest.splitOn '.') = split at hsegments hsimple
  obtain ⟨package, simple⟩ := split
  dsimp only at hsegments hsimple ⊢
  rw [← hsegments] at hjoin
  cases package with
  | nil => exact hjoin
  | cons segment package =>
    rw [if_neg (List.cons_ne_nil _ _)]
    rw [Text.joinWith_append _ (List.cons_ne_nil _ _) hsimple] at hjoin
    exact congrArg (CodePoint.ofChar '.' :: ·) hjoin

/-- A guessed class has the name that it was guessed from, unless the name loses its dot. -/
theorem canonical_bestGuess_iff (name : Text) :
    (bestGuess name).canonical = name ↔ ¬name.LosesDot := by
  by_cases hdot : name.head? = some (CodePoint.ofChar '.')
  · obtain ⟨rest, rfl⟩ := List.head?_eq_some_iff.mp hdot
    have hloses : Text.LosesDot (CodePoint.ofChar '.' :: rest) ↔
        (splitSegments (Text.splitOn '.' rest)).1 = [] := by
      rw [splitSegments_splitOn_fst_eq_nil_iff]
      exact and_iff_right rfl
    rw [canonical_bestGuess_dot, hloses]
    split
    next hpackage => exact iff_of_false List.ne_cons_self (not_not_intro hpackage)
    next hpackage => exact iff_of_true rfl hpackage
  · exact iff_of_true (canonical_bestGuess hdot) fun h => hdot h.1

theorem package_bestGuess_of_losesDot {name : Text} (h : name.LosesDot) :
    (bestGuess name).package = [] := by
  obtain ⟨hdot, hrest⟩ := h
  obtain ⟨rest, rfl⟩ := List.head?_eq_some_iff.mp hdot
  rw [bestGuess_dot, (splitSegments_splitOn_fst_eq_nil_iff rest).mpr hrest]
  rfl

end ClassName

/-- The type of the field and the default of an argument name the class that the argument has: the
default is null or a constant of that class. -/
def HeldArgument.NamesClassOf (h : HeldArgument) (a : ActionArgument) : Prop :=
  ∃ c, h.field.type.class? = some c ∧ c.canonical = a.type.className ∧
    ∀ value text, a.default = some value → h.field.initializer = some text →
      text = ("null" : Text) ∨ text = c.canonical ++ "." ++ value

section

variable {applicationId value text : Text} {a : ActionArgument} {h : HeldArgument}

theorem ArgumentType.class?_of_representation {t : ArgumentType} {type : TypeName}
    (ht : t.representation = .ok type) (hclass : t.tag.needsClass = true) :
    type.class? = some (.bestGuess t.className) := by
  obtain ⟨-, -, htype⟩ := bind_ok.mp ht
  rw [if_pos hclass] at htype
  cases htype
  cases t.isArray <;> rfl

/-- Where a class is needed, a default is null or a constant written behind the class. -/
theorem ArgumentType.literal_of_needsClass {t : ArgumentType} (hclass : t.tag.needsClass = true)
    (hliteral : t.literal (.text value) applicationId = .ok text) :
    text = ("null" : Text) ∨ text = t.className ++ "." ++ value := by
  obtain ⟨-, hof⟩ := literal_ok hliteral
  rw [literalOf] at hof
  split at hof
  · exact .inl (Literal.onlyNull_eq hof)
  · cases htag : t.tag with
    | enumeration =>
      rw [htag] at hof
      dsimp only at hof
      unfold Literal.enumeration at hof
      split at hof
      · cases hof
        exact .inl rfl
      · split at hof
        · cases hof
          exact .inr rfl
        · cases hof
    | parcelable | serializable =>
      rw [htag] at hof
      exact .inl (Literal.onlyNull_eq hof)
    | integer | long | float | boolean | string | reference | unlisted =>
      rw [htag] at hclass
      cases hclass

/-- An argument that needs a class is held with that class, unless its name loses a dot. -/
theorem HeldArgument.Holds.namesClassOf_iff (hx : h.Holds applicationId a)
    (hclass : a.type.tag.needsClass = true) :
    h.NamesClassOf a ↔ ¬a.type.className.LosesDot := by
  have htype : h.field.type.class? = some (.bestGuess a.type.className) :=
    ArgumentType.class?_of_representation hx.type hclass
  rw [← ClassName.canonical_bestGuess_iff]
  constructor
  · rintro ⟨c, hc, hname, -⟩
    rw [htype] at hc
    cases hc
    exact hname
  · intro hname
    refine ⟨_, htype, hname, ?_⟩
    rw [hname]
    intro value text hvalue htext
    rcases hx.initializer with ⟨hnone, -⟩ | ⟨value', text', hvalue', htext', hliteral⟩
    · rw [hnone] at hvalue
      cases hvalue
    · rw [hvalue'] at hvalue
      cases hvalue
      have hsame : h.field.initializer = some text' := htext'
      rw [hsame] at htext
      cases htext
      exact ArgumentType.literal_of_needsClass hclass hliteral

end

/-- Asking for a guessed class imports nothing but the name that it was guessed from. -/
theorem Imports.imported_addClass_bestGuess (t : Imports) {container name : Text}
    (h : name ∈ (t.addClass (.bestGuess container)).imported) :
    name ∈ t.imported ∨ name = container := by
  by_cases hloses : container.LosesDot
  · rcases addClass_unpackaged (ClassName.package_bestGuess_of_losesDot hloses) t with
      ⟨heq, -⟩ | ⟨heq, -⟩
    · rw [heq] at h
      exact .inl h
    · rw [heq] at h
      exact .inl h
  · have hname := (ClassName.canonical_bestGuess_iff container).mpr hloses
    have hstep := addClass_step t (.bestGuess container)
    generalize t.addClass (.bestGuess container) = later at h hstep
    cases hstep with
    | known hs => exact .inl h
    | full hnew => exact .inl h
    | short hnew hfree =>
      dsimp only at h
      split at h
      · exact .inl h
      · rw [hname] at h
        exact (mem_insertName.mp h).symm

/-! ### Guesses that keep the name -/

/-- A name gives back itself through the class that is guessed from it exactly when it loses no dot.
The same decides whether the field and the default of an argument name the argument's class, and
whether the container is the one that was chosen; what is imported for it is never another one. -/
theorem ClassName.guess_keeps_name_iff (name : Text) :
    ((bestGuess name).canonical = name ↔ ¬name.LosesDot) ∧
      (∀ (applicationId : Text) (a : ActionArgument) (h : HeldArgument),
        a.type.className = name → a.type.tag.needsClass = true → a.hold applicationId = .ok h →
          (h.NamesClassOf a ↔ ¬name.LosesDot)) ∧
      ∀ navigationPackage : Text,
        let container := (HostClasses.of navigationPackage name).container
        (container.canonical = name ↔ ¬name.LosesDot) ∧
          ∀ (t : Imports) (imported : Text), imported ∈ (t.add (.ofClass container)).imported →
            imported ∈ t.imported ∨ imported = name := by
  refine ⟨canonical_bestGuess_iff name, ?_, ?_⟩
  · rintro applicationId a h rfl hclass hhold
    exact (ActionArgument.hold_ok.mp hhold).namesClassOf_iff hclass
  · intro navigationPackage
    exact ⟨canonical_bestGuess_iff name, fun t _ => t.imported_addClass_bestGuess⟩

/-- An argument named `tint` of an enumeration. -/
def ActionArgument.tint (className constant : Text) : ActionArgument :=
  ⟨.text "tint", ⟨.enumeration, false, className⟩, some constant, rfl⟩

def HeldArgument.tint (c : ClassName) (initializer : Text) : HeldArgument :=
  ⟨"tint", .ofClass c, "putSerializable", some initializer⟩

theorem red_is_in_its_class :
    (ActionArgument.tint "com.example.Color" "RED").hold "com.app" =
        .ok (.tint ⟨"com.example", "Color"⟩ "com.example.Color.RED") ∧
      (HeldArgument.tint ⟨"com.example", "Color"⟩ "com.example.Color.RED").NamesClassOf
        (.tint "com.example.Color" "RED") := by
  have hhold : (ActionArgument.tint "com.example.Color" "RED").hold "com.app" =
      .ok (.tint ⟨"com.example", "Color"⟩ "com.example.Color.RED") := rfl
  exact ⟨hhold, ((ClassName.guess_keeps_name_iff _).2.1 _ _ _ rfl rfl hhold).mpr (by decide)⟩

/-- The dot in front of a class is lost to the type of the field, and stays in the default. -/
theorem leading_dot_is_lost :
    (ClassName.bestGuess ".Color").canonical = "Color" ∧
      (ActionArgument.tint ".Color" "RED").hold "com.app" =
        .ok (.tint ⟨[], "Color"⟩ ".Color.RED") ∧
      ¬(HeldArgument.tint ⟨[], "Color"⟩ ".Color.RED").NamesClassOf (.tint ".Color" "RED") := by
  refine ⟨rfl, rfl, ?_⟩
  rintro ⟨c, hc, hname, -⟩
  cases hc
  exact absurd hname (by decide)

end NavDirections
