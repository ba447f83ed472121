import NavDirections.Proofs.NestedNames

/-!
# Methods that clash

The class of an action has a setter for each optional argument beside methods of fixed names.  A
setter is named after its argument with the first letter in title form, so arguments whose names
differ in that letter alone may get one name for their setters.  Their types decide whether these
are overloads of each other or clash.
-/

namespace NavDirections

open Success

def CodePoint.IsAsciiSmall (c : CodePoint) : Prop := 0x61 ≤ c.val ∧ c.val ≤ 0x7a

theorem titleRuns_not_small {run : TitleRun} (h : run ∈ titleRuns) :
    run.title + (run.letters.last - run.letters.first) < 0x61 ∨
      0x7a < run.title ∧ run.title + (run.letters.last - run.letters.first) < 0x110000 := by
  have hall : titleRuns.all (fun run =>
      run.title + (run.letters.last - run.letters.first) < 0x61 ||
        (0x7a < run.title && run.title + (run.letters.last - run.letters.first) < 0x110000)) =
      true := by decide
  simpa using List.all_eq_true.mp hall run h

theorem CodePoint.contains_of_small {c : CodePoint} (h : c.IsAsciiSmall) :
    (Stride.mk 0x61 0x7a 1).contains c.val = true := by
  have hlow : 0x61 ≤ c.val := h.1
  have hhigh : c.val ≤ 0x7a := h.2
  simp [Stride.contains, hlow, hhigh, Nat.mod_one]

theorem CodePoint.toTitle_not_small (c : CodePoint) : ¬c.toTitle.IsAsciiSmall := by
  unfold toTitle
  split
  next run hfind =>
    have hrun := titleRuns_not_small (List.mem_of_find?_eq_some hfind)
    have hcontains := List.find?_some hfind
    simp only [Stride.contains, Bool.and_eq_true, decide_eq_true_eq] at hcontains
    have hfirst := hcontains.1.1
    have hlast := hcontains.1.2
    have ht : run.title + (c.val - run.letters.first) < 0x110000 := by omega
    dsimp only
    rw [dif_pos ht]
    simp only [IsAsciiSmall]
    omega
  next hnone =>
    intro hsmall
    have hmiss := List.find?_eq_none.mp hnone _ (show TitleRun.mk ⟨0x61, 0x7a, 1⟩ 0x41 ∈ titleRuns
      from List.mem_cons_self)
    exact hmiss (contains_of_small hsmall)

theorem CodePoint.opening_not_small (c : CodePoint) : ¬c.opening.IsAsciiSmall := by
  unfold opening
  split
  · exact c.toTitle_not_small
  next hlower =>
    intro hsmall
    apply hlower
    exact List.any_eq_true.mpr ⟨_, List.mem_cons_self, contains_of_small hsmall⟩

theorem capitalize_ne {name t : Text} {c : CodePoint} (ht : t.head? = some c)
    (hc : c.IsAsciiSmall) : capitalize name ≠ t := by
  intro heq
  cases name with
  | nil =>
    rw [← heq] at ht
    cases ht
  | cons d rest =>
    rw [capitalize_cons] at heq
    rw [← heq] at ht
    have hopening : d.opening = c := Option.some.inj ht
    exact d.opening_not_small (hopening ▸ hc)

theorem setterName_ne {name t : Text} (ht : t.head? ≠ some ('s' : CodePoint)) :
    setterName name ≠ t := by
  intro heq
  apply ht
  rw [← heq]
  rfl

/-- Arguments of different names have one setter name exactly when only the first letters of their
names differ, with one title form for both. -/
theorem setterName_eq_setterName_iff {a b : Text} (hne : a ≠ b) :
    setterName a = setterName b ↔ DifferInOpening a b := by
  have hnil : capitalize [] = [] := rfl
  unfold setterName
  rw [List.append_right_inj]
  cases a with
  | nil =>
    cases b with
    | nil => exact absurd rfl hne
    | cons d rest => simp [hnil, capitalize_cons, DifferInOpening]
  | cons c rest =>
    cases b with
    | nil => simp [hnil, capitalize_cons, DifferInOpening]
    | cons d rest' =>
      exact capitalize_eq_capitalize_iff (List.cons_ne_nil _ _) (List.cons_ne_nil _ _) hne

/-- Two methods with one name and with parameters of the same types.  Which types are the same is
for the compiler to say. -/
def Method.Clashes (same : TypeName → TypeName → Prop) (m m' : Method) : Prop :=
  m.name = m'.name ∧ List.Forall₂ (fun p q => same p.type q.type) m.parameters m'.parameters

variable {same : TypeName → TypeName → Prop}

theorem Method.not_clashes_of_name {m m' : Method} (h : m.name ≠ m'.name) :
    ¬m.Clashes same m' := fun hclash => h hclash.1

theorem HeldArgument.setter_clashes_iff {owner : ClassName} {h k : HeldArgument}
    (hne : h.name ≠ k.name) : (h.setter owner).Clashes same (k.setter owner) ↔
      DifferInOpening h.name k.name ∧ same h.type k.type := by
  have hname : (h.setter owner).name = (k.setter owner).name ↔ DifferInOpening h.name k.name :=
    setterName_eq_setterName_iff hne
  have htypes : List.Forall₂ (fun p q : Parameter => same p.type q.type)
      (h.setter owner).parameters (k.setter owner).parameters ↔ same h.type k.type := by
    simp [setter, parameter]
  rw [Method.Clashes, hname, htypes]

/-- Only setters can clash with each other: the constructor opens with a letter in title form, and
the fixed methods are no setters. -/
theorem Action.methods_clash_iff (a : Action) (host : HostClasses) (held : ArgumentList) :
    (a.classOf host held).methods.Pairwise (fun m m' => ¬m.Clashes same m') ↔
      (held.setters ⟨[], actionClassName a.id⟩).Pairwise fun m m' => ¬m.Clashes same m' := by
  have hconstructor {m : Method} {c : CodePoint} (hm : m.name.head? = some c)
      (hc : c.IsAsciiSmall) :
      ¬(held.constructorOf (actionClassName a.id)).Clashes same m :=
    Method.not_clashes_of_name (capitalize_ne hm hc)
  have hsetter {m : Method} (hm : m.name.head? ≠ some ('s' : CodePoint)) :
      ∀ s ∈ held.setters ⟨[], actionClassName a.id⟩, ¬s.Clashes same m := by
    intro s hs
    obtain ⟨h, -, rfl⟩ := List.mem_map.mp hs
    exact Method.not_clashes_of_name (setterName_ne hm)
  have hfixed : [held.containerMethod host.container, destinationIdMethod a.destination,
      optionsMethod host.navOptions].Pairwise fun m m' => ¬m.Clashes same m' := by
    have hnames : (["getArguments", "getDestinationId", "getOptions"] : List Text).Nodup := by
      decide
    have hpairs : [held.containerMethod host.container, destinationIdMethod a.destination,
        optionsMethod host.navOptions].Pairwise fun m m' => m.name ≠ m'.name :=
      List.pairwise_map.mp hnames
    exact hpairs.imp fun h => Method.not_clashes_of_name h
  constructor
  · intro h
    exact (List.pairwise_append.mp (List.pairwise_append.mp h).1).2.1
  · -- Methods of different groups have names that differ in the first letter.
    intro h
    refine List.pairwise_append.mpr ⟨List.pairwise_append.mpr
      ⟨List.pairwise_singleton _ _, h, ?_⟩, hfixed, ?_⟩
    · intro m hm s hs
      rw [List.mem_singleton.mp hm]
      obtain ⟨k, -, rfl⟩ := List.mem_map.mp hs
      exact hconstructor (c := 's') rfl ⟨by decide, by decide⟩
    · intro m hm f hf
      have hhead : f.name.head? = some ('g' : CodePoint) := by
        simp only [List.mem_cons, List.not_mem_nil, or_false] at hf
        rcases hf with rfl | rfl | rfl
        · rfl
        · rfl
        · rfl
      rcases List.mem_append.mp hm with hm | hm
      · rw [List.mem_singleton.mp hm]
        exact hconstructor hhead ⟨by decide, by decide⟩
      · refine hsetter ?_ m hm
        rw [hhead]
        decide

/-! ### Arguments -/

theorem pairwise_iff_of_forall₂ {α β : Type} {R : α → β → Prop} {P : α → α → Prop}
    {Q : β → β → Prop} {xs : List α} {ys : List β} (h : List.Forall₂ R xs ys)
    (hpq : ∀ x y x' y', R x y → R x' y' → (P x x' ↔ Q y y')) : xs.Pairwise P ↔ ys.Pairwise Q := by
  induction h with
  | nil => simp
  | @cons x y xs ys hxy hrest ih =>
    rw [List.pairwise_cons, List.pairwise_cons, ih]
    refine and_congr_left fun _ => ?_
    constructor
    · intro hx y' hy'
      obtain ⟨x', hx', hxy'⟩ := partner_of_mem_right hrest hy'
      exact (hpq x y x' y' hxy hxy').mp (hx x' hx')
    · intro hy x' hx'
      obtain ⟨y', hy', hxy'⟩ := partner_of_mem_left hrest hx'
      exact (hpq x y x' y' hxy hxy').mpr (hy y' hy')

/-- Two optional arguments of the same type whose names differ in the first letter alone, with one
title form for both. -/
structure ActionArgument.SharesSetter (same : TypeName → TypeName → Prop) (x y : ActionArgument) :
    Prop where
  optional : x.isOptional = true ∧ y.isOptional = true
  names : DifferInOpening x.name.plain y.name.plain
  types : ∃ type type', x.type.representation = .ok type ∧ y.type.representation = .ok type' ∧
    same type type'

theorem HeldArgument.Holds.sharesSetter_iff {applicationId : Text} {x y : ActionArgument}
    {h k : HeldArgument} (hx : h.Holds applicationId x) (hy : k.Holds applicationId y) :
    x.SharesSetter same y ↔ (!h.isRequired) = true ∧ (!k.isRequired) = true ∧
      DifferInOpening h.name k.name ∧ same h.type k.type := by
  rw [hx.isRequired_eq, hy.isRequired_eq, Bool.not_not, Bool.not_not, hx.name, hy.name]
  constructor
  · rintro ⟨⟨hox, hoy⟩, hnames, type, type', htype, htype', hsame⟩
    rw [hx.type] at htype
    rw [hy.type] at htype'
    cases htype
    cases htype'
    exact ⟨hox, hoy, hnames, hsame⟩
  · rintro ⟨hox, hoy, hnames, hsame⟩
    exact ⟨⟨hox, hoy⟩, hnames, h.type, k.type, hx.type, hy.type, hsame⟩

/-- No two methods of the class of an action clash exactly when no two of its arguments share their
setter.  This holds whatever types count as the same. -/
theorem Action.methods_distinct_iff {a : Action} {applicationId : Text} {host : HostClasses}
    {decl : ClassDecl} (same : TypeName → TypeName → Prop)
    (h : a.directionsClass applicationId host = .ok decl) :
    decl.methods.Pairwise (fun m m' => ¬m.Clashes same m') ↔
      a.args.Pairwise fun x y => ¬x.SharesSetter same y := by
  obtain ⟨held, hheld, rfl⟩ := Action.directionsClass_ok.mp h
  have hnames : (ArgumentList.optional held).Pairwise fun h k => h.name ≠ k.name :=
    List.pairwise_map.mp (a.optional_names_nodup hheld)
  have hclash : (ArgumentList.optional held).Pairwise (fun h k =>
      ¬(h.setter ⟨[], actionClassName a.id⟩).Clashes same
        (k.setter ⟨[], actionClassName a.id⟩)) ↔
      (ArgumentList.optional held).Pairwise fun h k =>
        ¬(DifferInOpening h.name k.name ∧ same h.type k.type) := by
    constructor
    · intro hall
      exact hnames.imp₂ (fun _ _ hne hno => (HeldArgument.setter_clashes_iff hne).not.mp hno) hall
    · intro hall
      exact hnames.imp₂ (fun _ _ hne hno => (HeldArgument.setter_clashes_iff hne).not.mpr hno) hall
  rw [methods_clash_iff, ArgumentList.setters, List.pairwise_map, hclash, ArgumentList.optional,
    List.pairwise_filter]
  refine (pairwise_iff_of_forall₂ hheld.arguments fun x h y k hx hy => ?_).symm
  rw [hx.sharesSetter_iff hy]
  simp only [not_and]

/-- An action with two optional arguments of the given names and types. -/
def twoDefaults (first second : Text) (type type' : ArgumentType) (default default' : Text)
    (hfirst : (Json.text first).isGiven = true) (hsecond : (Json.text second).isGiven = true)
    (hnames : firstClash? [] [.text first, .text second] = none) : Action where
  id := ⟨"kiosk", "pay", by decide, by decide⟩
  destination := none
  args := [⟨.text first, type, some default, hfirst⟩, ⟨.text second, type', some default', hsecond⟩]
  distinct := hnames

theorem overloads_are_distinct :
    ∃ decl, (twoDefaults "user" "User" ⟨.integer, false, []⟩ ⟨.string, false, []⟩ "0" "@null" rfl rfl
        rfl).directionsClass "kiosk" (.of "androidx.navigation" "android.os.Bundle") = .ok decl ∧
      decl.methods.Pairwise fun m m' => ¬m.Clashes (fun t u => t.fullName = u.fullName) m' := by
  obtain ⟨decl, hdecl⟩ : ∃ decl, (twoDefaults "user" "User" ⟨.integer, false, []⟩
      ⟨.string, false, []⟩ "0" "@null" rfl rfl rfl).directionsClass "kiosk"
        (.of "androidx.navigation" "android.os.Bundle") = .ok decl := ⟨_, rfl⟩
  refine ⟨decl, hdecl, (Action.methods_distinct_iff _ hdecl).mpr ?_⟩
  refine List.pairwise_pair.mpr fun hshares => ?_
  obtain ⟨type, type', htype, htype', hsame⟩ := hshares.types
  cases htype
  cases htype'
  exact absurd hsame (by decide)

/-- Two arguments that pass as different get one setter. -/
theorem opening_capital_repeats_setter :
    ∃ decl, (twoDefaults "foo" "Foo" ⟨.integer, false, []⟩ ⟨.integer, false, []⟩ "1" "2" rfl rfl
        rfl).directionsClass "kiosk" (.of "androidx.navigation" "android.os.Bundle") = .ok decl ∧
      ¬decl.methods.Pairwise fun m m' => ¬m.Clashes (fun t u => t = u) m' := by
  refine ⟨_, rfl, fun hall => ?_⟩
  have hsetters := (Action.methods_clash_iff _ _ _).mp hall
  refine List.pairwise_pair.mp hsetters ⟨?_, .cons rfl .nil⟩
  decide

end NavDirections
