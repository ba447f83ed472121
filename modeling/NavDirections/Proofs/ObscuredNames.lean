import NavDirections.Command.Run
import NavDirections.Proofs.Initializers
import NavDirections.Proofs.StoredArguments

/-!
# Names that fields obscure

A dotted name that stands for a value is read from its leftmost segment on.  Where a field of the
class has that name, the segment is the field, whatever packages and classes there are.  The class
of an action writes dotted names for the id of its destination and for the defaults of references
and enumerations.
-/

namespace NavDirections

open Success

theorem Text.firstSegment_append (before rest : Text) :
    (before ++ CodePoint.ofChar '.' :: rest).firstSegment = before.firstSegment := by
  cases hcut : before.cutFirst? '.' with
  | none =>
    have hdot : CodePoint.ofChar '.' ∉ before := cutFirst?_eq_none_iff.mp hcut
    have happend : (before ++ CodePoint.ofChar '.' :: rest).cutFirst? '.' = some (before, rest) :=
      cutFirst?_eq_some_iff.mpr ⟨rfl, hdot⟩
    rw [firstSegment, firstSegment, happend, hcut]
    rfl
  | some cut =>
    obtain ⟨first, later⟩ := cut
    obtain ⟨hbefore, hdot⟩ := cutFirst?_eq_some_iff.mp hcut
    have happend : (before ++ CodePoint.ofChar '.' :: rest).cutFirst? '.' =
        some (first, later ++ CodePoint.ofChar '.' :: rest) := by
      refine cutFirst?_eq_some_iff.mpr ⟨?_, hdot⟩
      rw [hbefore, List.append_assoc, List.cons_append]
    rw [firstSegment, firstSegment, happend, hcut]
    rfl

/-- A field of the class has the name that a dotted name begins with, and is what it denotes. -/
def ClassDecl.Obscures (d : ClassDecl) (value : Text) : Prop :=
  ∃ f ∈ d.fields, f.name = value.firstSegment

/-- Defaults of these tags stand for resources and constants by their dotted names. -/
def TypeTag.isNamed : TypeTag → Bool
  | reference | enumeration => true
  | _ => false

/-- The dotted names that the class of an action writes for values: what it returns as the id of the
destination, and what fields of named types start with. -/
inductive Action.DottedValue (a : Action) (d : ClassDecl) : Text → Prop
  | destination (hdot : CodePoint.ofChar '.' ∈ d.destinationText) :
      DottedValue a d d.destinationText
  | initializer {x : ActionArgument} {f : Field} {value : Text}
      (hmem : (x, f) ∈ a.args.zip d.fields) (hnamed : x.type.tag.isNamed = true)
      (hinit : f.initializer = some value) (hdot : CodePoint.ofChar '.' ∈ value) :
      DottedValue a d value

/-- No argument has the name that the package of the destination begins with, nor the one that the
package of a reference or the class of a constant begins with. -/
structure Action.LeavesNamesFree (a : Action) (applicationId : Text) : Prop where
  destination : ∀ id, a.destination = some id →
    id.package.firstSegment ∉ a.args.map (·.name.plain)
  reference : ∀ x ∈ a.args, ∀ value r, x.type.tag = .reference → x.default = some value →
    Literal.Reference.scan? value = some r →
      (r.package.getD applicationId).firstSegment ∉ a.args.map (·.name.plain)
  constant : ∀ x ∈ a.args, ∀ value, x.type.tag = .enumeration → x.default = some value →
    value ≠ nullText → x.type.className.firstSegment ∉ a.args.map (·.name.plain)

theorem destinationIdMethod_fullBody (destination : Option ResourceId) :
    (destinationIdMethod destination).fullBody = .ok ["return " ++ idAccessor destination] := by
  have htext : ("return " : Text) ++ (idAccessor destination ++ ([] : Text)) =
      "return " ++ idAccessor destination := by
    rw [List.append_nil]
  rw [← htext]
  rfl

theorem Action.destinationText_classOf (a : Action) (host : HostClasses) (held : ArgumentList) :
    (a.classOf host held).destinationText = idAccessor a.destination := by
  have hfind : (a.classOf host held).methods.find?
      (fun m => m.name == ("getDestinationId" : Text) && !m.isConstructor) =
        some (destinationIdMethod a.destination) := by
    have harguments : (("getArguments" : Text) == "getDestinationId" && !false) = false := by decide
    have hoptions : (("getOptions" : Text) == "getDestinationId" && !false) = false := by decide
    have hself : (("getDestinationId" : Text) == "getDestinationId" && !false) = true := by decide
    refine find?_of_unique (mem_methods_classOf.mpr (.inr (.inr (.inr (.inl rfl))))) hself ?_
    intro m hm hp
    rcases mem_methods_classOf.mp hm with rfl | ⟨h, -, rfl⟩ | rfl | rfl | rfl
    · simp [ArgumentList.constructorOf] at hp
    · have hname : setterName h.name ≠ ("getDestinationId" : Text) := by
        intro heq
        have hfirst : some ('s' : CodePoint) = some ('g' : CodePoint) := congrArg List.head? heq
        exact absurd hfirst (by decide)
      simp [HeldArgument.setter, hname] at hp
    · exact absurd (harguments.symm.trans hp) (by decide)
    · rfl
    · exact absurd (hoptions.symm.trans hp) (by decide)
  have hmethod : (a.classOf host held).method "getDestinationId" =
      .ok (destinationIdMethod a.destination) := by
    rw [ClassDecl.method, hfind]
  have hdrop : Text.dropStart? "return " ("return " ++ idAccessor a.destination) =
      some (idAccessor a.destination) := Text.dropStart?_eq_some_iff.mpr rfl
  rw [ClassDecl.destinationText, hmethod]
  dsimp only
  rw [destinationIdMethod_fullBody]
  show (Text.dropStart? "return " ("return " ++ idAccessor a.destination)).getD _ = _
  rw [hdrop]
  rfl

theorem firstSegment_idAccessor (id : ResourceId) :
    (idAccessor (some id)).firstSegment = id.package.firstSegment := by
  have hdot : idAccessor (some id) = id.package ++ CodePoint.ofChar '.' :: ("R.id." ++ id.name) := by
    simp [idAccessor, Text.ofString]
  rw [hdot, Text.firstSegment_append]

namespace Literal

variable {value text applicationId : Text} {type : ArgumentType}

theorem firstSegment_resource (package type name : Text) :
    (package ++ ".R." ++ type ++ "." ++ name).firstSegment = package.firstSegment := by
  have hdot : package ++ ".R." ++ type ++ "." ++ name =
      package ++ CodePoint.ofChar '.' :: ("R." ++ type ++ "." ++ name) := by
    simp [Text.ofString]
  rw [hdot, Text.firstSegment_append]

/-- The literal of a reference is dotted exactly when the default is no zero, and then begins as its
package does. -/
theorem reference_dotted (h : reference value type applicationId = .ok text) :
    (CodePoint.ofChar '.' ∈ text ↔ ∃ r, Reference.scan? value = some r) ∧
      ∀ r, Reference.scan? value = some r →
        text.firstSegment = (r.package.getD applicationId).firstSegment := by
  have hzero : Reference.scan? "0" = none := rfl
  rcases reference_ok h with ⟨rfl, rfl⟩ | ⟨r, -, hscan, rfl⟩
  · constructor
    · refine iff_of_false (by decide) ?_
      rintro ⟨r, hr⟩
      rw [hzero] at hr
      cases hr
    · intro r hr
      rw [hzero] at hr
      cases hr
  · constructor
    · refine iff_of_true ?_ ⟨r, hscan⟩
      simp [Text.ofString]
    · intro r' hr'
      rw [hscan] at hr'
      cases hr'
      exact firstSegment_resource _ _ _

/-- The literal of a constant is dotted exactly when it is not null, and then begins as the class
does. -/
theorem enumeration_dotted (h : enumeration value type = .ok text) :
    (CodePoint.ofChar '.' ∈ text ↔ value ≠ nullText) ∧
      (value ≠ nullText → text.firstSegment = type.className.firstSegment) := by
  unfold enumeration at h
  split at h
  next hnull =>
    cases h
    exact ⟨iff_of_false (by decide) (not_not_intro hnull), fun hne => absurd hnull hne⟩
  next hnull =>
    split at h
    · cases h
      have hdot : type.className ++ "." ++ value =
          type.className ++ CodePoint.ofChar '.' :: value := by
        simp [Text.ofString]
      rw [hdot, Text.firstSegment_append]
      exact ⟨iff_of_true (by simp) hnull, fun _ => rfl⟩
    · cases h

theorem onlyNull_dotless (h : onlyNull value type = .ok text) :
    value = nullText ∧ CodePoint.ofChar '.' ∉ text := by
  have htext := onlyNull_eq h
  unfold onlyNull at h
  split at h
  next hnull =>
    rw [htext]
    exact ⟨hnull, by decide⟩
  · cases h

end Literal

namespace ArgumentType

variable {type : ArgumentType} {value text applicationId : Text}

open Literal

theorem reference_literal_dotted (htag : type.tag = .reference)
    (h : type.literal (.text value) applicationId = .ok text) :
    (CodePoint.ofChar '.' ∈ text ↔ ∃ r, Reference.scan? value = some r) ∧
      ∀ r, Reference.scan? value = some r →
        text.firstSegment = (r.package.getD applicationId).firstSegment := by
  obtain ⟨-, hliteral⟩ := literal_ok h
  unfold literalOf at hliteral
  split at hliteral
  · obtain ⟨rfl, hdot⟩ := onlyNull_dotless hliteral
    have hscan : Reference.scan? nullText = none := rfl
    rw [hscan]
    exact ⟨iff_of_false hdot (by simp), fun r hr => nomatch hr⟩
  · rw [htag] at hliteral
    exact reference_dotted hliteral

theorem enumeration_literal_dotted (htag : type.tag = .enumeration)
    (h : type.literal (.text value) applicationId = .ok text) :
    (CodePoint.ofChar '.' ∈ text ↔ value ≠ nullText) ∧
      (value ≠ nullText → text.firstSegment = type.className.firstSegment) := by
  obtain ⟨-, hliteral⟩ := literal_ok h
  unfold literalOf at hliteral
  split at hliteral
  · obtain ⟨hnull, hdot⟩ := onlyNull_dotless hliteral
    exact ⟨iff_of_false hdot (not_not_intro hnull), fun hne => absurd hnull hne⟩
  · rw [htag] at hliteral
    exact enumeration_dotted hliteral

end ArgumentType

/-! ### Classes of actions -/

namespace Action

variable {a : Action} {applicationId : Text} {host : HostClasses} {d : ClassDecl}

theorem mem_zip_fields {args : List ActionArgument} {held : ArgumentList}
    (hall : List.Forall₂ (fun x h => HeldArgument.Holds applicationId x h) args held)
    {x : ActionArgument} {f : Field} :
    (x, f) ∈ args.zip held.fields ↔
      ∃ h, (x, h) ∈ args.zip held ∧ HeldArgument.Holds applicationId x h ∧ f = h.field := by
  rw [ArgumentList.fields, List.zip_map_right, List.mem_map]
  constructor
  · rintro ⟨⟨x', h⟩, hzip, heq⟩
    cases heq
    exact ⟨h, hzip, (List.forall₂_zip hall) hzip, rfl⟩
  · rintro ⟨h, hzip, -, rfl⟩
    exact ⟨(x, h), hzip, rfl⟩

theorem exists_mem_zip {args : List ActionArgument} {held : ArgumentList}
    (hlength : args.length = held.length) {x : ActionArgument} (hx : x ∈ args) :
    ∃ h, (x, h) ∈ args.zip held := by
  have hnames : (args.zip held).map Prod.fst = args := List.map_fst_zip hlength.le
  rw [← hnames] at hx
  obtain ⟨⟨x', h⟩, hmem, rfl⟩ := List.mem_map.mp hx
  exact ⟨h, hmem⟩

/-- A field obscures a name exactly when an argument has the name that it begins with. -/
theorem obscures_classOf {held : ArgumentList}
    (hall : List.Forall₂ (fun x h => HeldArgument.Holds applicationId x h) a.args held)
    (value : Text) :
    (a.classOf host held).Obscures value ↔ value.firstSegment ∈ a.args.map (·.name.plain) := by
  have hfields : (a.classOf host held).fields.map (·.name) = a.args.map (·.name.plain) := by
    rw [HeldArgument.Holds.names_held hall]
    show (held.map HeldArgument.field).map (·.name) = _
    rw [List.map_map]
    rfl
  rw [← hfields, List.mem_map]
  exact Iff.rfl

/-- What an argument with a default of a named type starts with, where that is a dotted name. -/
theorem dotted_initializer (host : HostClasses) {held : ArgumentList}
    (hall : List.Forall₂ (fun x h => HeldArgument.Holds applicationId x h) a.args held)
    {x : ActionArgument} (hx : x ∈ a.args) (hnamed : x.type.tag.isNamed = true) {value : Text}
    (hdefault : x.default = some value)
    (hdotted : ∀ text, x.type.literal (.text value) applicationId = .ok text →
      CodePoint.ofChar '.' ∈ text) :
    ∃ text, x.type.literal (.text value) applicationId = .ok text ∧
      a.DottedValue (a.classOf host held) text := by
  obtain ⟨h, hzip⟩ := exists_mem_zip hall.length_eq hx
  have hholds : HeldArgument.Holds applicationId x h := (List.forall₂_zip hall) hzip
  rcases hholds.initializer with ⟨hnone, -⟩ | ⟨value', text, hvalue, hinit, hliteral⟩
  · rw [hdefault] at hnone
    cases hnone
  · rw [hdefault] at hvalue
    cases hvalue
    have hfield : (x, h.field) ∈ a.args.zip (a.classOf host held).fields :=
      (mem_zip_fields hall).mpr ⟨h, hzip, hholds, rfl⟩
    exact ⟨text, hliteral, .initializer hfield hnamed hinit (hdotted text hliteral)⟩

theorem LeavesNamesFree.literal (hfree : a.LeavesNamesFree applicationId) {x : ActionArgument}
    (hx : x ∈ a.args) (hnamed : x.type.tag.isNamed = true) {value text : Text}
    (hdefault : x.default = some value)
    (hliteral : x.type.literal (.text value) applicationId = .ok text)
    (hdot : CodePoint.ofChar '.' ∈ text) : text.firstSegment ∉ a.args.map (·.name.plain) := by
  cases htag : x.type.tag with
  | reference =>
    obtain ⟨hiff, hfirst⟩ := ArgumentType.reference_literal_dotted htag hliteral
    obtain ⟨r, hscan⟩ := hiff.mp hdot
    rw [hfirst r hscan]
    exact hfree.reference x hx value r htag hdefault hscan
  | enumeration =>
    obtain ⟨hiff, hfirst⟩ := ArgumentType.enumeration_literal_dotted htag hliteral
    have hne := hiff.mp hdot
    rw [hfirst hne]
    exact hfree.constant x hx value htag hdefault hne
  | _ =>
    rw [htag] at hnamed
    cases hnamed

/-- No dotted name in the class of an action is obscured by a field exactly when no argument has the
name that the package of the destination, the package of a reference or the class of a constant
begins with. -/
theorem dotted_values_unobscured_iff (h : a.directionsClass applicationId host = .ok d) :
    (∀ value, a.DottedValue d value → ¬d.Obscures value) ↔ a.LeavesNamesFree applicationId := by
  obtain ⟨held, hheld, rfl⟩ := Action.directionsClass_ok.mp h
  have hall := hheld.arguments
  have hdestination := a.destinationText_classOf host held
  constructor
  · intro hfree
    have hnames {value : Text} (hvalue : a.DottedValue (a.classOf host held) value) :
        value.firstSegment ∉ a.args.map (·.name.plain) :=
      fun hmem => hfree value hvalue ((obscures_classOf hall value).mpr hmem)
    refine ⟨fun id hid => ?_, fun x hx value r htag hdefault hscan => ?_,
      fun x hx value htag hdefault hne => ?_⟩
    · have hdot : CodePoint.ofChar '.' ∈ (a.classOf host held).destinationText := by
        rw [hdestination, hid]
        simp [idAccessor, Text.ofString]
      have hfirst := hnames (.destination hdot)
      rwa [hdestination, hid, firstSegment_idAccessor] at hfirst
    · obtain ⟨text, hliteral, hvalue⟩ := dotted_initializer host hall hx
        (by rw [htag]; rfl) hdefault fun text hliteral =>
          (ArgumentType.reference_literal_dotted htag hliteral).1.mpr ⟨r, hscan⟩
      rw [← (ArgumentType.reference_literal_dotted htag hliteral).2 r hscan]
      exact hnames hvalue
    · obtain ⟨text, hliteral, hvalue⟩ := dotted_initializer host hall hx
        (by rw [htag]; rfl) hdefault fun text hliteral =>
          (ArgumentType.enumeration_literal_dotted htag hliteral).1.mpr hne
      rw [← (ArgumentType.enumeration_literal_dotted htag hliteral).2 hne]
      exact hnames hvalue
  · intro hfree value hvalue
    rw [obscures_classOf hall]
    cases hvalue with
    | destination hdot =>
      rw [hdestination] at hdot ⊢
      cases hid : a.destination with
      | none =>
        rw [hid] at hdot
        exact absurd hdot (by decide)
      | some id =>
        rw [firstSegment_idAccessor]
        exact hfree.destination id hid
    | @initializer x f _ hmem hnamed hinit hdot =>
      obtain ⟨k, hzip, hholds, rfl⟩ := (mem_zip_fields hall).mp hmem
      have hx : x ∈ a.args := (List.of_mem_zip hzip).1
      rcases hholds.initializer with ⟨-, hnone⟩ | ⟨default, text, hdefault, hsome, hliteral⟩
      · have hinit' : k.initializer = some value := hinit
        rw [hnone] at hinit'
        cases hinit'
      · have hinit' : k.initializer = some value := hinit
        rw [hsome] at hinit'
        cases hinit'
        exact hfree.literal hx hnamed hdefault hliteral hdot

theorem com_app_ne_nil : ("com.app" : Text) ≠ [] := by decide

theorem show_ne_nil : ("show" : Text) ≠ [] := by decide

theorem details_ne_nil : ("details" : Text) ≠ [] := by decide

/-- An action that leads to the details of an application and takes some arguments. -/
def toDetails (args : List ActionArgument) (h : firstClash? [] (args.map (·.name)) = none) :
    Action :=
  ⟨⟨"com.app", "show", com_app_ne_nil, show_ne_nil⟩,
    some ⟨"com.app", "details", com_app_ne_nil, details_ne_nil⟩, args, h⟩

def iconAndShade : List ActionArgument :=
  [⟨.text "icon", ⟨.reference, false, []⟩, some "@drawable/star", rfl⟩,
   ⟨.text "shade", ⟨.enumeration, false, "com.app.Shade"⟩, some "DARK", rfl⟩]

theorem icon_and_shade_obscure_nothing :
    ∃ d, (toDetails iconAndShade rfl).directionsClass "com.app"
        (.of "androidx.navigation" "android.os.Bundle") = .ok d ∧
      ∀ value, (toDetails iconAndShade rfl).DottedValue d value → ¬d.Obscures value := by
  obtain ⟨d, hd⟩ : ∃ d, (toDetails iconAndShade rfl).directionsClass "com.app"
      (.of "androidx.navigation" "android.os.Bundle") = .ok d :=
    ⟨_, directionsClass_of_text (by decide) rfl⟩
  refine ⟨d, hd, (dotted_values_unobscured_iff hd).mpr ⟨?_, ?_, ?_⟩⟩
  · intro id hid
    cases hid
    decide
  · intro x hx value r htag hdefault hscan
    rcases List.mem_cons.mp hx with rfl | hx
    · cases hdefault
      cases hscan
      decide
    · rw [List.mem_singleton.mp hx] at htag
      cases htag
  · intro x hx value htag hdefault hne
    rcases List.mem_cons.mp hx with rfl | hx
    · cases htag
    · rw [List.mem_singleton.mp hx]
      decide

/-- An argument may have the first name of the package, and then the id of the destination is read
from its field. -/
theorem argument_obscures_package :
    ∃ d, (toDetails [⟨.text "com", ⟨.integer, false, []⟩, none, rfl⟩] rfl).directionsClass "com.app"
        (.of "androidx.navigation" "android.os.Bundle") = .ok d ∧
      (toDetails [⟨.text "com", ⟨.integer, false, []⟩, none, rfl⟩] rfl).DottedValue d
        "com.app.R.id.details" ∧ d.Obscures "com.app.R.id.details" := by
  refine ⟨_, directionsClass_of_text (by decide) rfl, ?_, ?_⟩
  · exact .destination (by decide)
  · exact ⟨_, List.mem_cons_self, by decide⟩

end Action
end NavDirections
