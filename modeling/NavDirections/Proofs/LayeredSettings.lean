import NavDirections.Command.Run
import NavDirections.Proofs.SavedSettings

/-!
# Settings in layers

The settings of a run come from its options, from a settings file and from the defaults, each put
over those behind it.  An option with an empty text or the number zero is passed over, so what it
says is lost unless the layers behind it say the same.
-/

namespace NavDirections

open Success

namespace Json

variable {fields base upper : List (Text × Json)}

theorem find?_overlay (h : (upper.map Prod.fst).Nodup) (key : Text) :
    find? key (overlay base upper) = (find? key upper).or (find? key base) := by
  induction upper generalizing base with
  | nil => rfl
  | cons entry upper ih =>
    obtain ⟨k, v⟩ := entry
    obtain ⟨hnew, hrest⟩ := List.nodup_cons.mp h
    show find? key (overlay (insert k v base) upper) = _
    rw [ih hrest, find?_insert]
    by_cases hk : k = key
    · subst hk
      rw [find?_eq_none hnew]
      simp [find?]
    · simp [find?, hk]

theorem find?_filter_keys (p : Text → Bool) (key : Text) (fields : List (Text × Json)) :
    find? key (fields.filter fun entry => p entry.1) =
      if p key then find? key fields else none := by
  induction fields with
  | nil => simp [find?]
  | cons entry fields ih =>
    obtain ⟨k, v⟩ := entry
    by_cases hk : k = key
    · subst hk
      cases hp : p k with
      | true => simp [hp, find?]
      | false => simp [hp, ih]
    · cases hp : p k with
      | true => simp [hp, find?, hk, ih]
      | false => simp [hp, find?, hk, ih]

theorem find?_filter_values (h : (fields.map Prod.fst).Nodup) (p : Json → Bool) (key : Text) :
    find? key (fields.filter fun entry => p entry.2) = (find? key fields).filter p := by
  induction fields with
  | nil => rfl
  | cons entry fields ih =>
    obtain ⟨k, v⟩ := entry
    obtain ⟨hnew, hrest⟩ := List.nodup_cons.mp h
    have hfields := ih hrest
    by_cases hk : k = key
    · subst hk
      rw [find?_eq_none hnew] at hfields
      cases hp : p v with
      | true => simp [hp, find?, Option.filter]
      | false => simp [hp, find?, hfields, Option.filter]
    · cases hp : p v with
      | true => simp [hp, find?, hk, hfields]
      | false => simp [hp, find?, hk, hfields]

theorem filter_overlay {p : Text → Bool} (h : ∀ key ∈ upper.map Prod.fst, p key = false) :
    (overlay base upper).filter (fun entry => p entry.1) = base.filter fun entry => p entry.1 := by
  have hinsert {key : Text} (hkey : p key = false) (value : Json) (fields : List (Text × Json)) :
      (insert key value fields).filter (fun entry => p entry.1) =
        fields.filter fun entry => p entry.1 := by
    induction fields with
    | nil => simp [insert, hkey]
    | cons entry fields ih =>
      obtain ⟨k, v⟩ := entry
      by_cases hk : k = key
      · simp [insert, hk, hkey]
      · cases hp : p k with
        | true => simp [insert, hk, hp, ih]
        | false => simp [insert, hk, hp, ih]
  induction upper generalizing base with
  | nil => rfl
  | cons entry upper ih =>
    rw [List.map_cons, List.forall_mem_cons] at h
    exact (ih h.2).trans (hinsert h.1 entry.2 base)

end Json

namespace Settings

def customFields (fields : List (Text × Json)) : List (Text × Json) :=
  match Json.find? customKey fields with
  | some (.object custom) => custom
  | _ => []

/-- The settings have what is given directly, else what the file has, else the default.  The custom
ones have the entries of the file that are no settings, and behind these its custom ones. -/
structure IsLayered (s : Settings) (given fields : List (Text × Json)) : Prop where
  entries : s.entries = default.entries.map fun entry =>
    (entry.1, ((Json.find? entry.1 given).or (Json.find? entry.1 fields)).getD entry.2)
  custom : ∃ custom, s.custom.mapping? = some (NamedValue.ofFields custom) ∧
    (custom.map Prod.fst).Nodup ∧ ∀ key, Json.find? key custom =
      (if isDeclared key then none else Json.find? key fields).or
        (Json.find? key (customFields fields))

theorem HasCustom.mapping {fields custom : List (Text × Json)} {c : CustomSettings}
    (h : HasCustom fields c) (hgiven : givenCustom fields = .object custom) :
    c.mapping? = some (NamedValue.ofFields (Json.overlay custom (unknown fields))) := by
  cases h with
  | given hnone =>
    rw [hnone, hgiven]
    rfl
  | collected _ hbase =>
    rw [hgiven] at hbase
    cases hbase
    exact congrArg some (NamedValue.overlay_ofFields custom _)

section

variable {fields upper : List (Text × Json)} {levels : Nat}

theorem givenCustom_eq
    (h : ∀ v, Json.find? customKey fields = some v → ∃ custom, v = .object custom) :
    givenCustom fields = .object (customFields fields) := by
  unfold givenCustom customFields
  cases hfind : Json.find? customKey fields with
  | none => rfl
  | some v =>
    obtain ⟨custom, rfl⟩ := h v hfind
    rfl

theorem customFields_nodup (h : Json.AreReadable levels fields) :
    ((customFields fields).map Prod.fst).Nodup := by
  unfold customFields
  split
  next custom hfind =>
    have hcustom := h.values _ (Json.mem_of_find? hfind)
    cases hcustom with
    | object keys _ => exact keys
  next => exact List.nodup_nil

theorem isLayered_of_entries (hfields : Json.AreReadable levels fields)
    (hcustom : ∀ v, Json.find? customKey fields = some v → ∃ custom, v = .object custom)
    (hupper : (upper.map Prod.fst).Nodup)
    (hkeys : ∀ key ∈ upper.map Prod.fst, key ∈ default.entries.map Prod.fst) :
    ∃ s, ofEntries (Json.overlay fields upper) = .ok s ∧ s.IsLayered upper fields := by
  -- What is given directly neither replaces the custom settings nor adds to them.
  have hnone : Json.find? customKey upper = none := by
    apply Json.find?_eq_none
    intro hmem
    exact absurd (hkeys customKey hmem) (by decide)
  have hgiven : givenCustom (Json.overlay fields upper) = .object (customFields fields) := by
    rw [← givenCustom_eq hcustom, givenCustom, Json.find?_overlay hupper, hnone]
    rfl
  have hunknown : unknown (Json.overlay fields upper) = unknown fields := by
    have hdeclared : ∀ key ∈ upper.map Prod.fst, (!isDeclared key) = false := by
      intro key hkey
      rw [isDeclared_of_mem_keys (s := default) (hkeys key hkey)]
      rfl
    exact Json.filter_overlay hdeclared
  obtain ⟨s, hs⟩ := ofEntries_total (congrArg collection hgiven)
  obtain ⟨hentries, hmapping⟩ := ofEntries_ok hs
  have hnew := (areReadable_unknown hfields).keys
  refine ⟨s, hs, ?_, Json.overlay (customFields fields) (unknown fields), ?_, ?_, fun key => ?_⟩
  · rw [hentries]
    apply List.map_congr_left
    intro entry _
    rw [Json.find?_overlay hupper]
  · rw [hmapping.mapping hgiven, hunknown]
  · exact Json.nodup_keys_overlay (customFields_nodup hfields) _
  · have hfind := Json.find?_filter_keys (fun key => !isDeclared key) key fields
    rw [Json.find?_overlay hnew, unknown, hfind]
    cases isDeclared key with
    | true => rfl
    | false => rfl

end

end Settings

/-! ### Options -/

namespace Options

/-- The settings that the options name, whatever they say. -/
def given (o : Options) : List (Text × Json) :=
  let text (key : Text) (t : Option Text) : List (Text × Json) :=
    (t.map fun t => (key, .text t)).toList
  let comments : List (Text × Json) := if o.noComments then [("add_comments", .bool false)] else []
  let indent : List (Text × Json) :=
    (o.indentSize.map fun n => (("indent_size" : Text), Json.int n)).toList
  text "application_id" o.applicationId ++ text "output_dir" o.outputDir ++ comments ++ indent
    ++ text "navigation_package" o.navigationPackage

/-- The empty text and zero pass for options that are not there. -/
def isPassedOver : Json → Bool
  | .text [] => true
  | .int n => n == 0
  | _ => false

theorem overrides_eq (o : Options) :
    o.overrides = o.given.filter fun entry => !isPassedOver entry.2 := by
  have htext (key : Text) (t : Option Text) : givenText key t =
      (t.map fun t => (key, Json.text t)).toList.filter fun entry => !isPassedOver entry.2 := by
    cases t with
    | none => rfl
    | some t => cases t <;> rfl
  have hnumber (key : Text) (n : Option Int) : givenNumber key n =
      (n.map fun n => (key, Json.int n)).toList.filter fun entry => !isPassedOver entry.2 := by
    cases n with
    | none => rfl
    | some n =>
      by_cases hn : n = 0
      · simp [givenNumber, isPassedOver, hn]
      · simp [givenNumber, isPassedOver, hn]
  unfold overrides given
  simp only [List.filter_append, htext, hnumber]
  cases o.noComments with
  | true => rfl
  | false => rfl

theorem keys_given (o : Options) : (o.given.map Prod.fst).Sublist
    ["application_id", "output_dir", "add_comments", "indent_size", "navigation_package"] := by
  have hone {α : Type} (key : Text) (value : α → Json) (a : Option α) :
      ((a.map fun a => (key, value a)).toList.map Prod.fst).Sublist [key] := by
    cases a with
    | none => exact List.nil_sublist _
    | some a => exact List.Sublist.refl _
  have hcomments : ((if o.noComments then [(("add_comments" : Text), Json.bool false)]
      else []).map Prod.fst).Sublist ["add_comments"] := by
    cases o.noComments with
    | true => exact List.Sublist.refl _
    | false => exact List.nil_sublist _
  unfold given
  simp only [List.map_append]
  exact ((((hone _ _ _).append (hone _ _ _)).append hcomments).append (hone _ _ _)).append
    (hone _ _ _)

theorem given_nodup (o : Options) : (o.given.map Prod.fst).Nodup :=
  o.keys_given.nodup (by decide)

theorem keys_overrides (o : Options) :
    (o.overrides.map Prod.fst).Sublist (o.given.map Prod.fst) := by
  rw [overrides_eq]
  exact List.filter_sublist.map Prod.fst

/-- Without a settings file there are no entries of it. -/
def FileHas (o : Options) (depth : Nat) (files : FileTree) (fields : List (Text × Json)) : Prop :=
  match givenPath o.config with
  | some path => Settings.readEntries depth files path = .ok fields
  | .none => fields = []

theorem isLayered_given_iff {o : Options} {fields : List (Text × Json)} {s : Settings}
    (h : s.IsLayered o.overrides fields) : s.IsLayered o.given fields ↔
      ∀ entry ∈ Settings.default.entries, ∀ v, Json.find? entry.1 o.given = some v →
        isPassedOver v = true → (Json.find? entry.1 fields).getD entry.2 = v := by
  have hfind (key : Text) : Json.find? key o.overrides =
      (Json.find? key o.given).filter fun v => !isPassedOver v := by
    rw [overrides_eq]
    exact Json.find?_filter_values o.given_nodup (fun v => !isPassedOver v) key
  have hentry (entry : Text × Json) :
      (((Json.find? entry.1 o.overrides).or (Json.find? entry.1 fields)).getD entry.2 =
        ((Json.find? entry.1 o.given).or (Json.find? entry.1 fields)).getD entry.2) ↔
      ∀ v, Json.find? entry.1 o.given = some v → isPassedOver v = true →
        (Json.find? entry.1 fields).getD entry.2 = v := by
    rw [hfind]
    cases hgiven : Json.find? entry.1 o.given with
    | none => simp
    | some v =>
      cases hv : isPassedOver v with
      | true => simp [hv, Option.filter]
      | false => simp [hv, Option.filter]
  -- Both layers on top give lists with the keys of the defaults, which agree entry by entry.
  have hlayered : s.IsLayered o.given fields ↔ ∀ entry ∈ Settings.default.entries,
      ((Json.find? entry.1 o.overrides).or (Json.find? entry.1 fields)).getD entry.2 =
        ((Json.find? entry.1 o.given).or (Json.find? entry.1 fields)).getD entry.2 := by
    constructor
    · intro hall entry hmem
      have hmap := List.map_inj_left.mp (h.entries.symm.trans hall.entries) entry hmem
      exact (Prod.mk.inj hmap).2
    · intro hall
      refine ⟨h.entries.trans (List.map_congr_left fun entry hmem => ?_), h.custom⟩
      rw [hall entry hmem]
  rw [hlayered]
  exact forall₂_congr fun entry _ => hentry entry

/-- The settings of a run are those of its options, its file and the defaults in this order, except
where an option with an empty text or zero is passed over. -/
theorem settings_layered_iff {o : Options} {depth : Nat} {files : FileTree} {fields : List (Text × Json)}
    (hfields : o.FileHas depth files fields)
    (hcustom : ∀ v, Json.find? Settings.customKey fields = some v → ∃ custom, v = .object custom) :
    ∃ s, Settings.load depth files (givenPath o.config) o.overrides = .ok s ∧
      o.settings depth files = (s.warnings.mapError fun k => .breakdown (.kind k)).map (fun _ => s) ∧
      (s.IsLayered o.given fields ↔
        ∀ entry ∈ Settings.default.entries, ∀ v, Json.find? entry.1 o.given = some v →
          isPassedOver v = true → (Json.find? entry.1 fields).getD entry.2 = v) := by
  obtain ⟨levels, hreadable⟩ : ∃ levels, Json.AreReadable levels fields := by
    unfold FileHas at hfields
    split at hfields
    · obtain ⟨levels, -, hread⟩ := Settings.readEntries_readable hfields
      exact ⟨levels, hread⟩
    · rw [hfields]
      exact ⟨0, .nil⟩
  have hkeys : ∀ key ∈ o.overrides.map Prod.fst, key ∈ Settings.default.entries.map Prod.fst := by
    intro key hkey
    have hall : (["application_id", "output_dir", "add_comments", "indent_size",
        "navigation_package"] : List Text).all
          (Settings.default.entries.map Prod.fst).contains = true := by decide
    have hnamed := (o.keys_overrides.trans o.keys_given).subset hkey
    simpa using List.all_eq_true.mp hall key hnamed
  obtain ⟨s, hs, hlayered⟩ := Settings.isLayered_of_entries hreadable hcustom
    (o.keys_overrides.nodup o.given_nodup) hkeys
  have hload : Settings.load depth files (givenPath o.config) o.overrides = .ok s := by
    have hlayers : Settings.ofLayers [fields, o.overrides] = .ok s := by
      show Settings.ofEntries (Json.overlay (Json.overlay [] fields) o.overrides) = .ok s
      have hfresh : Json.overlay [] fields = fields := Json.overlay_of_fresh hreadable.keys
      rwa [hfresh]
    unfold FileHas at hfields
    cases hpath : givenPath o.config with
    | some path =>
      rw [hpath] at hfields
      exact Settings.load_file_ok.mpr ⟨fields, hfields, hlayers⟩
    | none =>
      rw [hpath] at hfields
      rw [hfields] at hlayers
      exact Settings.load_plain_ok.mpr hlayers
  refine ⟨s, hload, ?_, isLayered_given_iff hlayered⟩
  rw [settings, hload]
  show (s.warnings.mapError _ >>= fun _ => .ok s) = _
  cases s.warnings with
  | error k => rfl
  | ok texts => rfl

def fileEntries : List (Text × Json) :=
  [("indent_size", .int 8), ("level", .int 2), ("custom", .object [("level", .int 1)])]

def smallIndent : Options :=
  { Options.none with stdin := true, config := some "s.json", indentSize := some 2 }

theorem fileEntries_stored :
    ∃ files, Settings.readEntries 2 files (.ofText "s.json") = .ok fileEntries := by
  have hreadable : ∀ entry ∈ fileEntries, Json.Readable 1 entry.2 := by
    refine List.forall_mem_cons.mpr ⟨.int (by decide), List.forall_mem_cons.mpr
      ⟨.int (by decide), List.forall_mem_singleton.mpr ?_⟩⟩
    exact .object (List.nodup_singleton _) (List.forall_mem_singleton.mpr (.int (by decide)))
  obtain ⟨bytes, hbytes⟩ : ∃ bytes, (Json.write (.object fileEntries)).toUtf8 = .ok bytes :=
    ⟨_, rfl⟩
  obtain ⟨saved, hwrite⟩ : ∃ saved, FileTree.empty.write (.ofText "s.json") bytes = .ok saved :=
    ⟨_, rfl⟩
  have hjson := FileTree.readJson_of_write hreadable hbytes hwrite
  exact ⟨saved, Settings.readEntries_of_write rfl hwrite hjson⟩

theorem small_indent_is_over_file :
    readCommandLine ["generate", "--stdin", "--config", "s.json", "--indent-size", "2"] =
      .ok ⟨some .generate, smallIndent⟩ ∧
    ∃ files s, Settings.readEntries 2 files (.ofText "s.json") = .ok fileEntries ∧
      Settings.load 2 files (givenPath smallIndent.config) smallIndent.overrides = .ok s ∧
      s.IsLayered smallIndent.given fileEntries := by
  have hcustom : ∀ v, Json.find? Settings.customKey fileEntries = some v →
      ∃ custom, v = .object custom := by
    intro v hv
    cases hv
    exact ⟨_, rfl⟩
  obtain ⟨files, hfiles⟩ := fileEntries_stored
  have hfields : smallIndent.FileHas 2 files fileEntries := hfiles
  obtain ⟨s, hload, -, hlayered⟩ := settings_layered_iff hfields hcustom
  refine ⟨rfl, files, s, hfiles, hload, hlayered.mpr fun entry hentry v hv hover => ?_⟩
  have hgiven : smallIndent.given = [(("indent_size" : Text), .int 2)] := rfl
  have hmem := Json.mem_of_find? hv
  rw [hgiven, List.mem_singleton] at hmem
  cases (Prod.mk.inj hmem).2
  cases hover

def noIndent : Options :=
  { Options.none with stdin := true, dryRun := true, indentSize := some 0 }

/-- The indentation that is asked for is zero, and the default is taken. -/
theorem zero_indent_is_lost :
    readCommandLine ["generate", "--stdin", "--dry-run", "--indent-size", "0"] =
      .ok ⟨some .generate, noIndent⟩ ∧
    Settings.load 0 .empty (givenPath noIndent.config) noIndent.overrides = .ok .default ∧
    ¬Settings.default.IsLayered noIndent.given [] := by
  refine ⟨rfl, rfl, fun h => ?_⟩
  have hindent := congrArg (List.lookup ("indent_size" : Text)) h.entries
  have hvalue : Json.int 4 = Json.int 0 := Option.some.inj hindent
  cases hvalue

end Options
end NavDirections
