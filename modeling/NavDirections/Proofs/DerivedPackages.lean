import NavDirections.Proofs.Initializers

/-!
# Packages from the names of destinations

The class of a destination lies in the package that its name begins with.  A name that begins with a
dot is meant relative to the application, which works out where that dot is its only one.
-/

namespace NavDirections

namespace NameRules

/-- The unnamed package, or one with a qualified name. -/
def IsPackage (rules : NameRules) (p : Text) : Prop := p = [] ∨ rules.IsQualified p

/-- The names of destinations: qualified names, and those behind a dot. -/
inductive NamesDestination (rules : NameRules) : Text → Prop
  | absolute {name : Text} (h : rules.IsQualified name) : NamesDestination rules name
  | relative {name : Text} (h : rules.IsQualified name) :
      NamesDestination rules (CodePoint.ofChar '.' :: name)

end NameRules

def Text.IsAtOrBelow (root p : Text) : Prop :=
  p = root ∨ ∃ below, p = root ++ CodePoint.ofChar '.' :: below

/-- The name begins with a dot, and has another one. -/
def Text.IsDeeplyRelative (name : Text) : Prop :=
  ∃ rest, name = CodePoint.ofChar '.' :: rest ∧ CodePoint.ofChar '.' ∈ rest

theorem NameRules.IsQualified.not_atOrBelow_dot {rules : NameRules} {root p : Text}
    (h : rules.IsQualified root) : ¬root.IsAtOrBelow (CodePoint.ofChar '.' :: p) := by
  intro hp
  cases root with
  | nil => exact not_isQualified_nil h
  | cons c rest =>
    have hc : c = '.' := by
      rcases hp with hp | ⟨below, hp⟩
      · exact (List.cons.inj hp).1.symm
      · exact (List.cons.inj hp).1.symm
    rw [hc] at h
    exact not_isQualified_dot h

theorem splitName_of_notMem {name : Text} (applicationId : Text) (h : CodePoint.ofChar '.' ∉ name) :
    splitName applicationId name = ⟨[], name⟩ := by
  rw [splitName, Text.cutLast?_eq_none_iff.mpr h]

theorem splitName_append (applicationId before : Text) {simple : Text}
    (h : CodePoint.ofChar '.' ∉ simple) :
    splitName applicationId (before ++ CodePoint.ofChar '.' :: simple) =
      ⟨if before.isEmpty then applicationId else before, simple⟩ := by
  rw [splitName, Text.cutLast?_eq_some_iff.mpr ⟨rfl, h⟩]

theorem Text.exists_last_dot {t : Text} (h : CodePoint.ofChar '.' ∈ t) :
    ∃ before after, t = before ++ CodePoint.ofChar '.' :: after ∧ CodePoint.ofChar '.' ∉ after := by
  cases hcut : t.cutLast? '.' with
  | none => exact absurd h (cutLast?_eq_none_iff.mp hcut)
  | some cut => exact ⟨cut.1, cut.2, cutLast?_eq_some_iff.mp hcut⟩

section

variable {rules : NameRules} {applicationId name : Text}

theorem isPackage_splitName_of_qualified (hname : rules.IsQualified name) :
    rules.IsPackage (splitName applicationId name).package := by
  by_cases hdot : CodePoint.ofChar '.' ∈ name
  · obtain ⟨before, after, rfl, hafter⟩ := Text.exists_last_dot hdot
    have hbefore := (NameRules.isQualified_append_dot.mp hname).1
    have hne : before ≠ [] := by
      intro hnil
      rw [hnil] at hbefore
      exact NameRules.not_isQualified_nil hbefore
    rw [splitName_append _ _ hafter, if_neg (by simpa using hne)]
    exact .inr hbefore
  · rw [splitName_of_notMem _ hdot]
    exact .inl rfl

theorem splitName_relative (applicationId : Text) (h : CodePoint.ofChar '.' ∉ name) :
    (splitName applicationId (CodePoint.ofChar '.' :: name)).package = applicationId := by
  have hsplit := splitName_append applicationId [] h
  rw [List.nil_append] at hsplit
  rw [hsplit]
  rfl

theorem splitName_deeplyRelative (applicationId : Text) (h : CodePoint.ofChar '.' ∈ name) :
    ∃ below, (splitName applicationId (CodePoint.ofChar '.' :: name)).package =
      CodePoint.ofChar '.' :: below := by
  obtain ⟨before, after, rfl, hafter⟩ := Text.exists_last_dot h
  -- The cut is at the last dot, so what is before it is not empty and no application is asked for.
  have hsplit := splitName_append applicationId (CodePoint.ofChar '.' :: before) hafter
  rw [List.cons_append] at hsplit
  rw [hsplit]
  exact ⟨before, rfl⟩

theorem splitName_package_iff (happlication : rules.IsQualified applicationId)
    (hname : rules.NamesDestination name) :
    (rules.IsPackage (splitName applicationId name).package ↔ ¬name.IsDeeplyRelative) ∧
      (name.head? = some (CodePoint.ofChar '.') →
        (applicationId.IsAtOrBelow (splitName applicationId name).package ↔
          ¬name.IsDeeplyRelative)) := by
  cases hname with
  | absolute hqualified =>
    have hhead : name.head? ≠ some (CodePoint.ofChar '.') := by
      intro hdot
      obtain ⟨rest, rfl⟩ := List.head?_eq_some_iff.mp hdot
      exact NameRules.not_isQualified_dot hqualified
    have hflat : ¬name.IsDeeplyRelative := by
      rintro ⟨rest, rfl, -⟩
      exact hhead rfl
    exact ⟨iff_of_true (isPackage_splitName_of_qualified hqualified) hflat,
      fun hdot => absurd hdot hhead⟩
  | @relative rest hqualified =>
    have hdeep : Text.IsDeeplyRelative (CodePoint.ofChar '.' :: rest) ↔
        CodePoint.ofChar '.' ∈ rest := by
      simp [Text.IsDeeplyRelative]
    rw [hdeep]
    by_cases hdot : CodePoint.ofChar '.' ∈ rest
    · obtain ⟨below, hpackage⟩ := splitName_deeplyRelative applicationId hdot
      have hno : ¬rules.IsPackage (CodePoint.ofChar '.' :: below) := by
        intro h
        rcases h with h | h
        · cases h
        · exact NameRules.not_isQualified_dot h
      rw [hpackage]
      exact ⟨iff_of_false hno (not_not.mpr hdot),
        fun _ => iff_of_false happlication.not_atOrBelow_dot (not_not.mpr hdot)⟩
    · rw [splitName_relative applicationId hdot]
      exact ⟨iff_of_true (.inr happlication) hdot, fun _ => iff_of_true (.inl rfl) hdot⟩

/-- The package of a destination's class is well formed, and in the application for a name that
begins with a dot, exactly when no other dot follows that one. -/
theorem Destination.derived_package_iff {d : Destination} (hd : d.name = .text name)
    (hname : rules.NamesDestination name) (happlication : rules.IsQualified applicationId) :
    ∃ c, directionsClassName d applicationId = .ok c ∧
      (rules.IsPackage c.package ↔ ¬name.IsDeeplyRelative) ∧
      (name.head? = some (CodePoint.ofChar '.') →
        (applicationId.IsAtOrBelow c.package ↔ ¬name.IsDeeplyRelative)) := by
  have hgiven : d.name.isGiven = true := by
    rw [hd]
    cases hname with
    | absolute hqualified =>
      cases name with
      | nil => exact absurd hqualified NameRules.not_isQualified_nil
      | cons c rest => rfl
    | relative hqualified => rfl
  let c := splitName applicationId name
  refine ⟨⟨c.package, c.simple ++ directionsSuffix⟩, ?_, splitName_package_iff happlication hname⟩
  rw [directionsClassName, if_pos hgiven, hd]

end

def Destination.ofName (name : Text) : Destination := ⟨.text name, none, [], []⟩

theorem relative_name_is_in_application :
    ∃ c, directionsClassName (.ofName ".Name") "com.app" = .ok c ∧
      NameRules.ascii.IsPackage c.package ∧ Text.IsAtOrBelow "com.app" c.package := by
  have hqualified : NameRules.ascii.IsQualified "Name" := by decide
  have happlication : NameRules.ascii.IsQualified "com.app" := by decide
  have hflat : ¬Text.IsDeeplyRelative ".Name" := by
    rintro ⟨rest, hrest, hdot⟩
    rw [← (List.cons.inj hrest).2] at hdot
    exact absurd hdot (by decide)
  have hd : (Destination.ofName ".Name").name = .text ".Name" := rfl
  obtain ⟨c, hc, hpackage, hplace⟩ :=
    Destination.derived_package_iff hd (.relative hqualified) happlication
  exact ⟨c, hc, hpackage.mpr hflat, (hplace rfl).mpr hflat⟩

/-- The first dot of a name stays in front of its package, so it is no name of one. -/
theorem deeply_relative_name_keeps_dot :
    NameRules.ascii.NamesDestination ".sub.Name" ∧ NameRules.ascii.IsQualified "com.app" ∧
      ∃ c, directionsClassName (.ofName ".sub.Name") "com.app" = .ok c ∧
        ¬NameRules.ascii.IsPackage c.package ∧ ¬Text.IsAtOrBelow "com.app" c.package := by
  have hqualified : NameRules.ascii.IsQualified "sub.Name" := by decide
  have happlication : NameRules.ascii.IsQualified "com.app" := by decide
  have hpackage : ¬NameRules.ascii.IsPackage ".sub" := by
    intro h
    rcases h with h | h
    · cases h
    · exact absurd h (by decide)
  exact ⟨.relative hqualified, happlication, ⟨".sub", "NameDirections"⟩, rfl, hpackage,
    happlication.not_atOrBelow_dot⟩

end NavDirections
