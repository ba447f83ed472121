import NavDirections.Proofs.DescribedFiles

/-!
# Names of nested classes

The class of an action has the name of its id, with the first letter in title form.  The ids of one
destination are different, but two that differ only in the case of their first letter still get one
name, and an id may get the name of the class that holds it.
-/

namespace NavDirections

open Success

/-- The letter that opens the name of a class, for the one that opens an id. -/
def CodePoint.opening (c : CodePoint) : CodePoint := if c.isLower then c.toTitle else c

theorem capitalize_cons (c : CodePoint) (rest : Text) :
    capitalize (c :: rest) = c.opening :: rest := by
  rw [capitalize, CodePoint.opening]
  split
  · rfl
  · rfl

/-- Does a class of the second name belong to an id of the first? -/
def OpensAs : Text → Text → Prop
  | c :: rest, d :: rest' => c.opening = d ∧ rest = rest'
  | _, _ => False

instance : DecidableRel OpensAs
  | _ :: _, _ :: _ => inferInstanceAs (Decidable (_ ∧ _))
  | [], _ => .isFalse not_false
  | _ :: _, [] => .isFalse not_false

theorem capitalize_eq_iff {id : Text} (hid : id ≠ []) (name : Text) :
    capitalize id = name ↔ OpensAs id name := by
  cases id with
  | nil => exact absurd rfl hid
  | cons c rest =>
    rw [capitalize_cons]
    cases name with
    | nil => exact iff_of_false (List.cons_ne_nil _ _) not_false
    | cons d rest' => rw [List.cons.injEq, OpensAs]

/-- Different ids that get one class name: only their first letters differ, and these have the same
title form. -/
def DifferInOpening : Text → Text → Prop
  | c :: rest, d :: rest' => c ≠ d ∧ c.opening = d.opening ∧ rest = rest'
  | _, _ => False

instance : DecidableRel DifferInOpening
  | _ :: _, _ :: _ => inferInstanceAs (Decidable (_ ∧ _))
  | [], _ => .isFalse not_false
  | _ :: _, [] => .isFalse not_false

theorem capitalize_eq_capitalize_iff {a b : Text} (ha : a ≠ []) (hb : b ≠ []) (hne : a ≠ b) :
    capitalize a = capitalize b ↔ DifferInOpening a b := by
  obtain ⟨c, rest, rfl⟩ := List.exists_cons_of_ne_nil ha
  obtain ⟨d, rest', rfl⟩ := List.exists_cons_of_ne_nil hb
  rw [capitalize_cons, capitalize_cons, List.cons.injEq, DifferInOpening]
  constructor
  · intro h
    have hfirst : c ≠ d := by
      intro hcd
      apply hne
      rw [hcd, h.2]
    exact ⟨hfirst, h⟩
  · intro h
    exact h.2

variable {d : Destination} {name applicationId : Text} {host : HostClasses} {decl : ClassDecl}

theorem Action.name_of_directionsClass {a : Action} {nested : ClassDecl}
    (h : a.directionsClass applicationId host = .ok nested) :
    nested.name = capitalize a.id.name := by
  obtain ⟨held, -, rfl⟩ := Action.directionsClass_ok.mp h
  rfl

theorem Destination.Holds.names (h : d.Holds name applicationId host decl) :
    decl.types.map (·.name) = d.actions.map fun a => capitalize a.id.name := by
  have hname : List.Forall₂ (fun (a : Action) (t : ClassDecl) => capitalize a.id.name = t.name)
      d.actions decl.types :=
    h.types.imp fun _ _ ht => (Action.name_of_directionsClass ht).symm
  exact (List.forall₂_eq_eq_eq ▸ List.forall₂_map_left_iff.mpr
    (List.forall₂_map_right_iff.mpr hname)).symm

/-- The nested classes of a destination are named after its ids in order.  Their names are different
exactly when no two ids differ in their first letter alone, with one title form for both, and none
is the name of the holding class exactly when no id opens as that. -/
theorem Destination.nested_names_distinct_iff (h : d.holder name applicationId host = .ok decl) :
    decl.types.map (·.name) = d.actions.map (fun a => capitalize a.id.name) ∧
      ((decl.types.map (·.name)).Nodup ↔
        d.actions.Pairwise fun a b => ¬DifferInOpening a.id.name b.id.name) ∧
      (decl.name ∉ decl.types.map (·.name) ↔ ∀ a ∈ d.actions, ¬OpensAs a.id.name name) := by
  have hholds := holder_ok.mp h
  have hnames := hholds.names
  refine ⟨hnames, ?_, ?_⟩
  · have hids : d.actions.Pairwise fun a b => a.id.name ≠ b.id.name :=
      List.pairwise_map.mp hholds.ids
    have hpair {a b : Action} (hab : a.id.name ≠ b.id.name) :
        capitalize a.id.name ≠ capitalize b.id.name ↔ ¬DifferInOpening a.id.name b.id.name :=
      not_congr (capitalize_eq_capitalize_iff a.id.name_ne b.id.name_ne hab)
    rw [hnames, List.Nodup, List.pairwise_map]
    constructor
    · intro hnodup
      exact hids.imp₂ (fun _ _ hab hne => (hpair hab).mp hne) hnodup
    · intro hopening
      exact hids.imp₂ (fun _ _ hab hdiffer => (hpair hab).mpr hdiffer) hopening
  · have hdecl : decl.name = name := by rw [hholds.decl]
    rw [hnames, hdecl, List.mem_map, not_exists]
    refine forall_congr' fun a => ?_
    rw [not_and, capitalize_eq_iff a.id.name_ne]

def homeScreen (ids : List ResourceId) : Destination :=
  ⟨.text "app.Home", none, ids.map .bare, []⟩

theorem next_and_previous_have_own_classes :
    ∃ decl, (homeScreen [⟨"app", "next", by decide, by decide⟩,
        ⟨"app", "previous", by decide, by decide⟩]).holder "HomeDirections" "app"
          (.of "androidx.navigation" "android.os.Bundle") = .ok decl ∧
      (decl.types.map (·.name)).Nodup ∧ decl.name ∉ decl.types.map (·.name) := by
  obtain ⟨decl, hdecl⟩ : ∃ decl, (homeScreen [⟨"app", "next", by decide, by decide⟩,
      ⟨"app", "previous", by decide, by decide⟩]).holder "HomeDirections" "app"
        (.of "androidx.navigation" "android.os.Bundle") = .ok decl := ⟨_, rfl⟩
  obtain ⟨-, hnodup, hholder⟩ := Destination.nested_names_distinct_iff hdecl
  refine ⟨decl, hdecl, hnodup.mpr ?_, hholder.mpr ?_⟩
  · decide
  · decide

/-- Ids that pass as different get one class, and one gets that of the destination. -/
theorem opening_capital_repeats_class :
    ∃ decl, (homeScreen [⟨"app", "foo", by decide, by decide⟩,
        ⟨"app", "Foo", by decide, by decide⟩,
        ⟨"app", "homeDirections", by decide, by decide⟩]).directionsFile "app"
          (.of "androidx.navigation" "android.os.Bundle") =
        .ok ⟨⟨"app", "HomeDirections"⟩, decl⟩ ∧
      decl.types.map (·.name) = (["Foo", "Foo", "HomeDirections"] : List Text) ∧
      decl.name = ("HomeDirections" : Text) := by
  refine ⟨_, rfl, ?_, rfl⟩
  decide

end NavDirections
