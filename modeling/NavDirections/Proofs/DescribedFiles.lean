import NavDirections.Proofs.HeldArguments
import Mathlib.Data.List.Induction
import Mathlib.Data.List.Nodup

/-!
# The files that a graph describes

What the classes of destinations consist of once they are described, and that a whole graph is
described exactly when each of its acting destinations is and no two of them share a class.
-/

namespace NavDirections

open Success

/-- The labels that a name has among some owners. -/
def labelsOf (name : Text) (found : List Collision) : List Json :=
  ((found.find? (·.name = name)).map (·.labels)).getD []

theorem labelsOf_addOwner (name other : Text) (label : Json) (found : List Collision) :
    labelsOf other (addOwner name label found) =
      if name = other then labelsOf other found ++ [label] else labelsOf other found := by
  induction found with
  | nil =>
    by_cases h : name = other <;> simp [addOwner, labelsOf, h]
  | cons c rest ih =>
    rw [addOwner]
    by_cases hc : c.name = name
    · by_cases h : name = other
      · simp [labelsOf, hc, h]
      · simp [labelsOf, hc, h]
    · rw [if_neg hc]
      by_cases ho : c.name = other
      · have hne : name ≠ other := fun h => hc (ho.trans h.symm)
        simp [labelsOf, ho, hne]
      · simp only [labelsOf, List.find?_cons, ho, decide_false] at ih ⊢
        exact ih

theorem names_addOwner (name : Text) (label : Json) (found : List Collision) :
    name ∈ found.map (·.name) ∧
        (addOwner name label found).map (·.name) = found.map (·.name) ∨
      name ∉ found.map (·.name) ∧
        (addOwner name label found).map (·.name) = found.map (·.name) ++ [name] := by
  induction found with
  | nil => exact .inr ⟨List.not_mem_nil, rfl⟩
  | cons c rest ih =>
    rw [addOwner, List.map_cons, List.mem_cons]
    by_cases hc : c.name = name
    · rw [if_pos hc, List.map_cons]
      exact .inl ⟨.inl hc.symm, rfl⟩
    · rw [if_neg hc, List.map_cons, or_iff_right (Ne.symm hc)]
      rcases ih with ⟨hold, hnames⟩ | ⟨hnew, hnames⟩
      · exact .inl ⟨hold, by rw [hnames]⟩
      · exact .inr ⟨hnew, by rw [hnames, List.cons_append]⟩

theorem owners_concat (files : List (Text × Json)) (file : Text × Json) :
    owners (files ++ [file]) = addOwner file.1 file.2 (owners files) := by
  rw [owners, List.foldl_append, List.foldl_cons, List.foldl_nil, owners]

theorem mem_names_owners {name : Text} {files : List (Text × Json)} :
    name ∈ (owners files).map (·.name) ↔ name ∈ files.map (·.1) := by
  induction files using List.reverseRecOn with
  | nil => exact Iff.rfl
  | append_singleton files file ih =>
    rw [owners_concat, List.map_append, List.mem_append, List.map_singleton, ← ih]
    rcases names_addOwner file.1 file.2 (owners files) with ⟨hold, hnames⟩ | ⟨-, hnames⟩
    · rw [hnames]
      refine (or_iff_left_of_imp fun hname => ?_).symm
      rw [List.mem_singleton.mp hname]
      exact hold
    · rw [hnames, List.mem_append]

/-- One name appears among some files before another does. -/
def AppearsBefore (files : List (Text × Json)) (first later : Text) : Prop :=
  ∃ before after, files = before ++ after ∧ first ∈ before.map (·.1) ∧ later ∉ before.map (·.1)

theorem names_owners_ordered (files : List (Text × Json)) :
    ((owners files).map (·.name)).Pairwise (AppearsBefore files) := by
  induction files using List.reverseRecOn with
  | nil => exact .nil
  | append_singleton files file ih =>
    have hkeep : ((owners files).map (·.name)).Pairwise (AppearsBefore (files ++ [file])) := by
      refine ih.imp fun {a b} hab => ?_
      obtain ⟨before, after, hfiles, ha, hb⟩ := hab
      exact ⟨before, after ++ [file], by rw [hfiles, List.append_assoc], ha, hb⟩
    rw [owners_concat]
    rcases names_addOwner file.1 file.2 (owners files) with ⟨-, hnames⟩ | ⟨hnew, hnames⟩
    · rw [hnames]
      exact hkeep
    · rw [hnames, List.pairwise_append]
      refine ⟨hkeep, List.pairwise_singleton _ _, fun a ha b hb => ?_⟩
      rw [List.mem_singleton.mp hb]
      exact ⟨files, [file], rfl, mem_names_owners.mp ha, fun h => hnew (mem_names_owners.mpr h)⟩

theorem names_owners_nodup (files : List (Text × Json)) :
    ((owners files).map (·.name)).Nodup := by
  refine (names_owners_ordered files).imp fun {a b} hab => ?_
  obtain ⟨before, after, -, ha, hb⟩ := hab
  exact fun heq => hb (heq ▸ ha)

/-- Every name is found with all the labels that get it, in their order. -/
theorem labelsOf_owners (name : Text) (files : List (Text × Json)) :
    labelsOf name (owners files) = (files.filter (·.1 = name)).map (·.2) := by
  have hfold (found : List Collision) :
      labelsOf name (files.foldl (fun found file => addOwner file.1 file.2 found) found) =
        labelsOf name found ++ (files.filter (·.1 = name)).map (·.2) := by
    induction files generalizing found with
    | nil => simp
    | cons file rest ih =>
      rw [List.foldl_cons, ih, labelsOf_addOwner, List.filter_cons]
      by_cases h : file.1 = name
      · simp [h]
      · simp [h]
  exact hfold []

theorem labelsOf_of_mem {c : Collision} {found : List Collision}
    (hnames : (found.map (·.name)).Nodup) (hc : c ∈ found) : labelsOf c.name found = c.labels := by
  have hfind : found.find? (·.name = c.name) = some c := by
    cases hf : found.find? (·.name = c.name) with
    | none => simpa using List.find?_eq_none.mp hf c hc
    | some other =>
      have hname : other.name = c.name := by simpa using List.find?_some hf
      rw [List.inj_on_of_nodup_map hnames (List.mem_of_find?_eq_some hf) hc hname]
  rw [labelsOf, hfind]
  rfl

/-- There is no collision exactly when no two files have the same name. -/
theorem collisions_eq_nil_iff (files : List (Text × Json)) :
    collisions files = [] ↔ (files.map (·.1)).Nodup := by
  have hcount (name : Text) :
      (labelsOf name (owners files)).length = (files.map (·.1)).count name := by
    rw [labelsOf_owners, List.length_map, List.count_eq_countP, List.countP_map,
      List.countP_eq_length_filter]
    exact congrArg List.length (List.filter_congr fun file _ => Bool.eq_iff_iff.mpr (by simp))
  rw [collisions, List.filter_eq_nil_iff, List.nodup_iff_count_le_one]
  constructor
  · intro h name
    rw [← hcount]
    by_contra hmore
    cases hfind : (owners files).find? (·.name = name) with
    | none => simp [labelsOf, hfind] at hmore
    | some c =>
      have hlabels := h c (List.mem_of_find?_eq_some hfind)
      simp only [labelsOf, hfind, Option.map_some, Option.getD_some] at hmore
      exact hlabels (by simpa using hmore)
  · intro h c hc hmore
    have hlabels := h c.name
    rw [← hcount, labelsOf_of_mem (names_owners_nodup files) hc] at hlabels
    have : 1 < c.labels.length := by simpa using hmore
    omega

theorem firstRepeated?_ne_none {seen names : List Text} {name : Text} (hname : name ∈ names)
    (hseen : name ∈ seen) : firstRepeated? seen names ≠ none := by
  induction names generalizing seen with
  | nil => cases hname
  | cons n names ih =>
    rw [firstRepeated?]
    split
    · exact nofun
    next hn =>
      rcases List.mem_cons.mp hname with rfl | hname
      · exact absurd (List.contains_iff_mem.mpr hseen) hn
      · exact ih hname (List.mem_cons_of_mem n hseen)

theorem firstRepeated?_eq_none {seen names : List Text} (hseen : ∀ n ∈ names, n ∉ seen) :
    firstRepeated? seen names = none ↔ names.Nodup := by
  induction names generalizing seen with
  | nil => simp [firstRepeated?]
  | cons name rest ih =>
    have hname : seen.contains name = false := by simpa using hseen name List.mem_cons_self
    rw [firstRepeated?, hname, if_neg Bool.false_ne_true, List.nodup_cons]
    by_cases hrest : name ∈ rest
    · refine iff_of_false ?_ fun h => h.1 hrest
      intro h
      exact firstRepeated?_ne_none hrest List.mem_cons_self h
    · rw [and_iff_right hrest]
      refine ih fun n hn hmem => ?_
      rcases List.mem_cons.mp hmem with rfl | hmem
      · exact hrest hn
      · exact hseen n (List.mem_cons_of_mem name hn) hmem

/-- The class of a destination has a class for each action and a factory for each of these. -/
structure Destination.Holds (d : Destination) (name applicationId : Text) (host : HostClasses)
    (decl : ClassDecl) : Prop where
  ids : (d.actions.map (·.id.name)).Nodup
  named : ∀ a ∈ d.actions, a.hasUnnamedRequired = false
  types : List.Forall₂ (fun a t => a.directionsClass applicationId host = .ok t) d.actions
    decl.types
  decl : decl = ⟨name, [.publicAccess], [], [],
    (d.actions.zip decl.types).map fun (a, nested) => factory a nested, decl.types⟩

theorem Destination.holder_ok {d : Destination} {name applicationId : Text} {host : HostClasses}
    {decl : ClassDecl} :
    d.holder name applicationId host = .ok decl ↔ d.Holds name applicationId host decl := by
  have hids : firstRepeated? [] (d.actions.map (·.id.name)) = none ↔
      (d.actions.map (·.id.name)).Nodup := firstRepeated?_eq_none fun _ _ h => nomatch h
  rw [holder]
  constructor
  · intro h
    split at h
    · cases h
    next hnone =>
      obtain ⟨types, htypes, h⟩ := bind_ok.mp h
      split at h
      · cases h
      next hnamed =>
        cases h
        refine ⟨hids.mp hnone, fun a ha => ?_, mapM_ok.mp htypes, rfl⟩
        have hall := List.any_eq_false.mp (Bool.eq_false_iff.mpr hnamed) a ha
        simpa using hall
  · intro h
    rw [hids.mpr h.ids]
    refine bind_ok.mpr ⟨decl.types, mapM_ok.mpr h.types, ?_⟩
    rw [if_neg, h.decl]
    rw [List.any_eq_true]
    rintro ⟨a, ha, hunnamed⟩
    rw [h.named a ha] at hunnamed
    cases hunnamed

theorem Destination.label_isText {d : Destination} {applicationId : Text} {c : ClassName}
    (h : d.className applicationId = .ok c) : d.label.text?.isSome = true := by
  rw [className, mapError_ok, directionsClassName] at h
  rw [label]
  split at h
  next hgiven =>
    rw [if_pos hgiven]
    split at h
    next name hname => simp [hname, Json.text?]
    · cases h
  next hgiven =>
    rw [if_neg hgiven]
    split at h
    next id hid => simp [hid, Json.text?]
    · cases h

theorem Destination.directionsFile_ok {d : Destination} {applicationId : Text} {host : HostClasses}
    {f : DirectionsFile} :
    d.directionsFile applicationId host = .ok f ↔
      d.className applicationId = .ok f.className ∧
        d.Holds f.className.simple applicationId host f.decl := by
  rw [directionsFile, mapError_ok, bind_ok]
  constructor
  · rintro ⟨className, hname, h⟩
    obtain ⟨decl, hdecl, hf⟩ := bind_ok.mp h
    cases hf
    exact ⟨hname, holder_ok.mp hdecl⟩
  · rintro ⟨hname, hdecl⟩
    exact ⟨f.className, hname, bind_ok.mpr ⟨f.decl, holder_ok.mpr hdecl, rfl⟩⟩

/-! ### Whole graphs -/

def NavigationGraph.acting (g : NavigationGraph) : List Destination :=
  g.walk.filter (!·.actions.isEmpty)

/-- There is one file for each acting destination, and no two have the same full name. -/
theorem NavigationGraph.directionsFiles_ok {g : NavigationGraph} {applicationId : Text}
    {host : HostClasses} {files : List DirectionsFile} :
    g.directionsFiles applicationId host = .ok files ↔
      List.Forall₂ (fun d f => d.directionsFile applicationId host = .ok f) g.acting files ∧
        (files.map (·.className.canonical)).Nodup := by
  have hfree {files : List DirectionsFile} (h : files.length = g.acting.length) :
      collisions ((files.map (·.className.canonical)).zip (g.acting.map (·.label))) = [] ↔
        (files.map (·.className.canonical)).Nodup := by
    rw [collisions_eq_nil_iff, List.map_fst_zip (by simp [h])]
  rw [directionsFiles, bind_ok]
  constructor
  · rintro ⟨others, hothers, h⟩
    have hall := mapM_ok.mp hothers
    split at h
    next hnone =>
      cases h
      exact ⟨hall, (hfree hall.length_eq.symm).mp hnone⟩
    · cases h
  · rintro ⟨hall, hnames⟩
    refine ⟨files, mapM_ok.mpr hall, ?_⟩
    have hnone := (hfree hall.length_eq.symm).mpr hnames
    rw [acting] at hnone
    rw [hnone]

end NavDirections
