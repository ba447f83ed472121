import NavDirections.Proofs.NamedValues
import NavDirections.Proofs.WrittenDocuments

/-!
# Saved settings

Settings that are saved to a file and loaded from it come back if their custom settings are a
mapping from names that are no settings themselves, and if no text of theirs holds a surrogate; and
only then.  A file has one object for both kinds of entries, so a custom one with the name of a
setting takes its place, and one named like the whole collection becomes the collection.
-/

namespace NavDirections

open Success

namespace CustomSettings

/-- The mapping that custom settings are, if they are one. -/
def mapping? : CustomSettings → Option (List NamedValue)
  | given (.object fields) => some (NamedValue.ofFields fields)
  | given _ => none
  | collected values => some values

/-- The same custom settings: mappings with the same values under all names, in whatever order, or
the same value that is no mapping. -/
def Agrees (a b : CustomSettings) : Prop :=
  a = b ∨ ∃ x y, a.mapping? = some x ∧ b.mapping? = some y ∧
    ∀ name, NamedValue.find? name x = NamedValue.find? name y

def IsStorable (c : CustomSettings) : Prop :=
  ∃ fields, c.mapping? = some (NamedValue.ofFields fields) ∧
    ∀ key ∈ fields.map Prod.fst, Settings.isDeclared key = false

end CustomSettings

namespace Settings

structure Agrees (s s' : Settings) : Prop where
  entries : s.entries = s'.entries
  custom : s.custom.Agrees s'.custom

def IsEncodable (s : Settings) : Prop :=
  ∀ v ∈ s.custom.toJson :: s.entries.map Prod.snd, v.IsEncodable

/-- Saving the settings to a file and loading them from there gives settings that agree. -/
def Reloads (s : Settings) (depth : Nat) (t : FileTree) (path : FilePath) : Prop :=
  ∃ saved s', s.save t path = .ok saved ∧
    Settings.load depth saved (some path) [] = .ok s' ∧ s'.Agrees s

end Settings

namespace Settings

theorem collection_of_mapping {v : Json} {values : List NamedValue}
    (h : (CustomSettings.given v).mapping? = some values) : collection v = .ok values := by
  cases v with
  | object fields =>
    cases h
    rfl
  | _ => cases h

def unknown (fields : List (Text × Json)) : List (Text × Json) :=
  fields.filter fun entry => !isDeclared entry.1

def givenCustom (fields : List (Text × Json)) : Json :=
  (Json.find? customKey fields).getD default.custom.toJson

inductive HasCustom (fields : List (Text × Json)) : CustomSettings → Prop
  | given (h : unknown fields = []) : HasCustom fields (.given (givenCustom fields))
  | collected {base : List NamedValue} (h : unknown fields ≠ [])
    (hbase : collection (givenCustom fields) = .ok base) :
    HasCustom fields (.collected (NamedValue.overlay base (NamedValue.ofFields (unknown fields))))

theorem ofEntries_ok {fields : List (Text × Json)} {s : Settings} (h : ofEntries fields = .ok s) :
    s.entries = default.entries.map (fun entry =>
      (entry.1, (Json.find? entry.1 fields).getD entry.2)) ∧ HasCustom fields s.custom := by
  unfold ofEntries at h
  dsimp only at h
  split at h
  next hnone =>
    obtain ⟨custom, hcustom, hs⟩ := bind_ok.mp h
    cases hcustom
    cases hs
    exact ⟨rfl, .given (List.isEmpty_iff.mp hnone)⟩
  next hsome =>
    obtain ⟨custom, hcustom, hs⟩ := bind_ok.mp h
    obtain ⟨base, hbase, rfl⟩ := map_ok.mp hcustom
    cases hs
    exact ⟨rfl, .collected (fun hnone => hsome (List.isEmpty_iff.mpr hnone)) hbase⟩

theorem ofEntries_total {fields : List (Text × Json)} {base : List NamedValue}
    (h : collection (givenCustom fields) = .ok base) : ∃ s, ofEntries fields = .ok s := by
  unfold ofEntries
  dsimp only
  split
  · exact ⟨_, bind_ok.mpr ⟨_, rfl, rfl⟩⟩
  · exact ⟨_, bind_ok.mpr ⟨_, map_ok.mpr ⟨base, h, rfl⟩, rfl⟩⟩

/-- Settings with values that reading gives, and custom ones with different names. -/
structure IsRead (levels : Nat) (s : Settings) : Prop where
  entries : ∀ entry ∈ s.entries, Json.Readable levels entry.2
  values : ∀ values, s.customValues = .ok values →
    ∀ x ∈ values, NamedValue.IsReadable levels x
  distinct : ∀ values, s.custom.mapping? = some values → NamedValue.AreDistinct values

theorem readable_default {levels : Nat} :
    ∀ entry ∈ default.entries, Json.Readable levels entry.2 := by
  intro entry hentry
  simp only [entries, List.mem_cons, List.not_mem_nil, or_false] at hentry
  obtain rfl | rfl | rfl | rfl | rfl | rfl | rfl | rfl := hentry
  · exact .text _
  · exact .null
  · exact .int (by decide)
  · exact .bool _
  · exact .text _
  · exact .bool _
  · exact .text _
  · exact .text _

section ReadableEntries

variable {levels : Nat} {fields : List (Text × Json)} (hfields : Json.AreReadable levels fields)

include hfields

theorem readable_find?_getD (key : Text) {otherwise : Json}
    (hother : Json.Readable levels otherwise) :
    Json.Readable levels ((Json.find? key fields).getD otherwise) := by
  cases hfind : Json.find? key fields with
  | none => exact hother
  | some v => exact hfields.values _ (Json.mem_of_find? hfind)

theorem areReadable_unknown : Json.AreReadable levels (unknown fields) := by
  refine ⟨?_, fun entry hentry => hfields.values entry (List.mem_filter.mp hentry).1⟩
  exact hfields.keys.sublist (List.filter_sublist.map Prod.fst)

end ReadableEntries

theorem isRead_of_entries {levels : Nat} {fields : List (Text × Json)} {s : Settings}
    (h : ofEntries fields = .ok s) (hfields : Json.AreReadable (levels + 1) fields) :
    IsRead (levels + 1) s := by
  obtain ⟨hentries, hcustom⟩ := ofEntries_ok h
  have hgiven : Json.Readable (levels + 1) (givenCustom fields) :=
    readable_find?_getD hfields customKey (.object List.nodup_nil nofun)
  refine ⟨?_, ?_, ?_⟩
  · rw [hentries]
    intro entry hentry
    obtain ⟨⟨key, otherwise⟩, hmem, rfl⟩ := List.mem_map.mp hentry
    exact readable_find?_getD hfields key (readable_default _ hmem)
  · intro values hvalues
    unfold customValues at hvalues
    generalize s.custom = custom at hcustom hvalues
    cases hcustom with
    | given _ => exact readable_of_collection hvalues hgiven
    | collected _ hbase =>
      cases hvalues
      refine NamedValue.isReadable_overlay (readable_of_collection hbase hgiven) fun x hx => ?_
      obtain ⟨entry, hentry, rfl⟩ := List.mem_map.mp hx
      exact ⟨rfl, (areReadable_unknown hfields).values entry hentry⟩
  · intro values hvalues
    generalize s.custom = custom at hcustom hvalues
    cases hcustom with
    | given _ => exact distinct_of_collection (collection_of_mapping hvalues) hgiven
    | collected _ hbase =>
      cases hvalues
      exact (distinct_of_collection hbase hgiven).overlay _

theorem load_file_ok {depth : Nat} {t : FileTree} {path : FilePath} {overrides : List (Text × Json)}
    {s : Settings} : Settings.load depth t (some path) overrides = .ok s ↔
      ∃ fields, readEntries depth t path = .ok fields ∧ ofLayers [fields, overrides] = .ok s := by
  show (readEntries depth t path >>= fun fields =>
    (ofLayers [fields, overrides]).mapError SettingsFault.entries) = .ok s ↔ _
  rw [bind_ok]
  simp only [mapError_ok]

theorem load_plain_ok {depth : Nat} {t : FileTree} {overrides : List (Text × Json)} {s : Settings} :
    Settings.load depth t none overrides = .ok s ↔ ofLayers [[], overrides] = .ok s :=
  mapError_ok

theorem readEntries_ok {depth : Nat} {t : FileTree} {path : FilePath} {fields : List (Text × Json)}
    (h : readEntries depth t path = .ok fields) : t.readJson depth path = .ok (.object fields) := by
  unfold readEntries at h
  split at h
  · cases h
  · cases h
  · split at h
    · cases h
    · split at h
      next hread =>
        cases h
        exact hread
      all_goals cases h

theorem readEntries_readable {t : FileTree} {path : FilePath} {fields : List (Text × Json)}
    {depth : Nat} (h : readEntries depth t path = .ok fields) :
    ∃ levels, depth = levels + 1 ∧ Json.AreReadable levels fields := by
  obtain ⟨bytes, -, hread⟩ := bind_ok.mp (readEntries_ok h)
  obtain ⟨document, -, hparse⟩ := bind_ok.mp hread
  have hobject := Json.readable_of_parse (mapError_ok.mp hparse)
  cases hobject with
  | object keys values => exact ⟨_, rfl, keys, values⟩

theorem isRead_of_load {t : FileTree} {file : Option FilePath} {overrides : List (Text × Json)}
    {s : Settings} {levels : Nat} (hoverrides : Json.Readable (levels + 1 + 1) (.object overrides))
    (h : Settings.load (levels + 1 + 1) t file overrides = .ok s) : IsRead (levels + 1) s := by
  have hlayers {fields : List (Text × Json)} (hfields : Json.AreReadable (levels + 1) fields)
      (hs : ofLayers [fields, overrides] = .ok s) : IsRead (levels + 1) s := by
    refine isRead_of_entries hs ?_
    cases hoverrides with
    | object _ values => exact (Json.AreReadable.nil.overlay hfields.values).overlay values
  cases file with
  | none => exact hlayers .nil (load_plain_ok.mp h)
  | some path =>
    obtain ⟨fields, hfields, hs⟩ := load_file_ok.mp h
    obtain ⟨levels', hlevels, hread⟩ := readEntries_readable hfields
    cases hlevels
    exact hlayers hread hs

/-! ### Saving -/

/-- The entries of the object that is saved, equal keys among them where names have the same
text. -/
def savedFields (s : Settings) (values : List NamedValue) : List (Text × Json) :=
  (NamedValue.overlay (NamedValue.ofFields s.entries) values).map fun x =>
    (NamedValue.nameText x.1, x.2)

theorem fileValue_eq (s : Settings) :
    s.fileValue = s.customValues.map fun values => .object (s.savedFields values) := rfl

theorem savedFields_readable {levels : Nat} {s : Settings} (hs : IsRead levels s)
    {values : List NamedValue} (hvalues : s.customValues = .ok values) :
    ∀ entry ∈ s.savedFields values, Json.Readable levels entry.2 := by
  intro entry hentry
  obtain ⟨x, hx, rfl⟩ := List.mem_map.mp hentry
  refine (NamedValue.isReadable_overlay (fun y hy => ?_) (hs.values values hvalues) x hx).value
  obtain ⟨entry, hentry, rfl⟩ := List.mem_map.mp hy
  exact ⟨rfl, hs.entries entry hentry⟩

theorem readEntries_of_write {depth : Nat} {t saved : FileTree} {path : FilePath} {bytes : Bytes}
    {fields : List (Text × Json)} (hjson : path.isJson = true)
    (h : t.write path bytes = .ok saved)
    (hread : saved.readJson depth path = .ok (.object fields)) :
    readEntries depth saved path = .ok fields := by
  unfold readEntries
  rw [FileTree.hasEntry_of_write h, hjson, hread]
  rfl

theorem reloads_iff_of_fields {levels : Nat} {s : Settings} (hs : IsRead levels s)
    {t emptied : FileTree} {path : FilePath}
    (hjson : path.isJson = true) (hwrite : t.write path [] = .ok emptied) :
    s.Reloads (levels + 1) t path ↔ ∃ values s', s.customValues = .ok values ∧
      Json.IsEncodable (.object (s.savedFields values)) ∧
      ofEntries (Json.overlay [] (s.savedFields values)) = .ok s' ∧ s'.Agrees s := by
  have hlayers {values : List NamedValue} (hvalues : s.customValues = .ok values) :
      ofLayers [Json.overlay [] (s.savedFields values), []] =
        ofEntries (Json.overlay [] (s.savedFields values)) := by
    have hread := Json.AreReadable.nil.overlay (savedFields_readable hs hvalues)
    show ofEntries (Json.overlay [] (Json.overlay [] (s.savedFields values))) = _
    rw [Json.overlay_of_fresh (show (([] ++ Json.overlay [] (s.savedFields values)).map
      Prod.fst).Nodup from hread.keys), List.nil_append]
  constructor
  · rintro ⟨saved, s', hsave, hload, hagrees⟩
    obtain ⟨value, hvalue, h⟩ := bind_ok.mp hsave
    rw [mapError_ok, fileValue_eq] at hvalue
    obtain ⟨values, hvalues, rfl⟩ := map_ok.mp hvalue
    obtain ⟨emptied', hemptied, h⟩ := bind_ok.mp h
    obtain ⟨bytes, hbytes, h⟩ := bind_ok.mp h
    have hreadable := savedFields_readable hs hvalues
    have hjsonRead := FileTree.readJson_of_write hreadable (mapError_ok.mp hbytes)
      (mapError_ok.mp h)
    obtain ⟨fields, hfields, hlayered⟩ := load_file_ok.mp hload
    have heq := (readEntries_ok hfields).symm.trans hjsonRead
    cases heq
    rw [hlayers hvalues] at hlayered
    exact ⟨values, s', hvalues, (Json.exists_bytes_iff hreadable).mp ⟨bytes, mapError_ok.mp hbytes⟩,
      hlayered, hagrees⟩
  · rintro ⟨values, s', hvalues, hencodable, hentries, hagrees⟩
    have hreadable := savedFields_readable hs hvalues
    obtain ⟨bytes, hbytes⟩ := (Json.exists_bytes_iff hreadable).mpr hencodable
    obtain ⟨saved, hsaved⟩ := FileTree.write_again hwrite bytes
    have hjsonRead := FileTree.readJson_of_write hreadable hbytes hsaved
    refine ⟨saved, s', ?_, load_file_ok.mpr ⟨_, readEntries_of_write hjson hsaved hjsonRead, ?_⟩,
      hagrees⟩
    · refine bind_ok.mpr ⟨_, mapError_ok.mpr (map_ok.mpr ⟨values, hvalues, rfl⟩), ?_⟩
      refine bind_ok.mpr ⟨emptied, mapError_ok.mpr hwrite, ?_⟩
      exact bind_ok.mpr ⟨bytes, mapError_ok.mpr hbytes, mapError_ok.mpr hsaved⟩
    · rw [hlayers hvalues]
      exact hentries

/-! ### Custom settings that are stored -/

theorem keys_entries (s : Settings) : s.entries.map Prod.fst = default.entries.map Prod.fst := rfl

theorem isDeclared_of_mem_keys {s : Settings} {key : Text} (h : key ∈ s.entries.map Prod.fst) :
    isDeclared key = true := by
  have hall : (default.entries.map Prod.fst).all isDeclared = true := by decide
  exact List.all_eq_true.mp hall key h

theorem customValues_of_mapping {s : Settings} {values : List NamedValue}
    (h : s.custom.mapping? = some values) : s.customValues = .ok values := by
  unfold customValues
  cases hcustom : s.custom with
  | given v =>
    rw [hcustom] at h
    exact collection_of_mapping h
  | collected values' =>
    rw [hcustom] at h
    cases h
    rfl

theorem toJson_of_mapping {c : CustomSettings} {fields : List (Text × Json)}
    (h : c.mapping? = some (NamedValue.ofFields fields)) : c.toJson = .object fields := by
  cases c with
  | given v =>
    cases v with
    | object fields' =>
      have heq := congrArg NamedValue.toObject (Option.some.inj h)
      rwa [NamedValue.toObject_ofFields, NamedValue.toObject_ofFields] at heq
    | _ => cases h
  | collected values =>
    cases h
    exact NamedValue.toObject_ofFields fields

theorem savedFields_ofFields (s : Settings) (fields : List (Text × Json)) :
    s.savedFields (NamedValue.ofFields fields) = Json.overlay s.entries fields := by
  unfold savedFields
  rw [NamedValue.overlay_ofFields, NamedValue.ofFields, List.map_map]
  exact List.map_id _

theorem nodup_saved {levels : Nat} {s : Settings} (hs : IsRead levels s)
    {fields : List (Text × Json)} (hmapping : s.custom.mapping? = some (NamedValue.ofFields fields))
    (hkeys : ∀ key ∈ fields.map Prod.fst, isDeclared key = false) :
    ((s.entries ++ fields).map Prod.fst).Nodup := by
  have hdistinct := NamedValue.areDistinct_ofFields.mp (hs.distinct _ hmapping)
  rw [List.map_append, List.nodup_append]
  refine ⟨?_, hdistinct, fun key hkey key' hkey' => ?_⟩
  · rw [keys_entries]
    decide
  · rintro rfl
    have hdeclared := isDeclared_of_mem_keys hkey
    rw [hkeys key hkey'] at hdeclared
    cases hdeclared

theorem unknown_saved (s : Settings) {fields : List (Text × Json)}
    (hkeys : ∀ key ∈ fields.map Prod.fst, isDeclared key = false) :
    unknown (s.entries ++ fields) = fields := by
  unfold unknown
  rw [List.filter_append, List.filter_eq_nil_iff.mpr, List.filter_eq_self.mpr, List.nil_append]
  · intro entry hentry
    rw [hkeys entry.1 (List.mem_map_of_mem hentry)]
    rfl
  · intro entry hentry
    rw [isDeclared_of_mem_keys (List.mem_map_of_mem hentry)]
    exact Bool.false_ne_true

theorem givenCustom_saved (s : Settings) {fields : List (Text × Json)}
    (hkeys : ∀ key ∈ fields.map Prod.fst, isDeclared key = false) :
    givenCustom (s.entries ++ fields) = .object [] := by
  have hentries : customKey ∉ s.entries.map Prod.fst := by
    rw [keys_entries]
    decide
  have hfields : customKey ∉ fields.map Prod.fst := by
    intro hmem
    have hdeclared : isDeclared customKey = true := by decide
    rw [hkeys customKey hmem] at hdeclared
    cases hdeclared
  have hnone : Json.find? customKey (s.entries ++ fields) = none := by
    apply Json.find?_eq_none
    rw [List.map_append, List.mem_append, not_or]
    exact ⟨hentries, hfields⟩
  unfold givenCustom
  rw [hnone]
  rfl

theorem entries_saved (s : Settings) (fields : List (Text × Json)) :
    default.entries.map (fun entry =>
      (entry.1, (Json.find? entry.1 (s.entries ++ fields)).getD entry.2)) = s.entries :=
  rfl

/-- Entries with the custom ones behind them are loaded as the settings that they were saved for. -/
theorem agrees_of_saved {s s' : Settings} {fields : List (Text × Json)}
    (hmapping : s.custom.mapping? = some (NamedValue.ofFields fields))
    (hkeys : ∀ key ∈ fields.map Prod.fst, isDeclared key = false)
    (hfields : (fields.map Prod.fst).Nodup)
    (h : ofEntries (s.entries ++ fields) = .ok s') : s'.Agrees s := by
  obtain ⟨hentries, hcustom⟩ := ofEntries_ok h
  refine ⟨hentries.trans (entries_saved s fields), ?_⟩
  generalize s'.custom = custom at hcustom
  cases hcustom with
  | given hnone =>
    rw [unknown_saved s hkeys] at hnone
    rw [givenCustom_saved s hkeys]
    rw [hnone] at hmapping
    exact .inr ⟨_, _, rfl, hmapping, fun _ => rfl⟩
  | collected _ hbase =>
    rw [givenCustom_saved s hkeys] at hbase
    cases hbase
    have hoverlay : NamedValue.overlay (NamedValue.ofFields [])
        (NamedValue.ofFields (unknown (s.entries ++ fields))) = NamedValue.ofFields fields := by
      rw [NamedValue.overlay_ofFields, unknown_saved s hkeys,
        Json.overlay_of_fresh (show (([] ++ fields).map Prod.fst).Nodup from hfields),
        List.nil_append]
    exact .inr ⟨_, _, rfl, hmapping, fun name => congrArg (NamedValue.find? name) hoverlay⟩

theorem isEncodable_saved {s : Settings} {fields : List (Text × Json)}
    (hmapping : s.custom.mapping? = some (NamedValue.ofFields fields)) :
    Json.IsEncodable (.object (s.entries ++ fields)) ↔ s.IsEncodable := by
  have hnames : ∀ key ∈ s.entries.map Prod.fst, ∀ c ∈ key, c.isSurrogate = false := by
    have hall : (default.entries.map Prod.fst).all (·.all (!·.isSurrogate)) = true := by decide
    intro key hkey c hc
    have hplain := List.all_eq_true.mp (List.all_eq_true.mp hall key hkey) c hc
    rwa [Bool.not_eq_true'] at hplain
  unfold IsEncodable
  rw [toJson_of_mapping hmapping, List.forall_mem_cons, Json.isEncodable_object,
    Json.isEncodable_object, List.forall_mem_append, and_comm]
  refine and_congr_right fun _ => ⟨fun h v hv => ?_, fun h entry hentry => ?_⟩
  · obtain ⟨entry, hentry, rfl⟩ := List.mem_map.mp hv
    exact (h entry hentry).2
  · exact ⟨hnames _ (List.mem_map_of_mem hentry), h _ (List.mem_map_of_mem hentry)⟩

theorem isStorable_of_agrees {c c' : CustomSettings} {fields : List (Text × Json)}
    (h : c'.mapping? = some (NamedValue.ofFields fields))
    (hkeys : ∀ key ∈ fields.map Prod.fst, isDeclared key = false) (hagrees : c'.Agrees c)
    (hnames : ∀ values, c.mapping? = some values → ∀ x ∈ values, x.1.isScalar = true) :
    c.IsStorable := by
  obtain rfl | ⟨x, y, hx, hy, hsame⟩ := hagrees
  · exact ⟨fields, h, hkeys⟩
  · rw [h] at hx
    cases hx
    have hname : ∀ z ∈ y, ∃ key ∈ fields.map Prod.fst, z.1 = .text key := by
      intro z hz
      obtain ⟨w, hw⟩ := NamedValue.exists_find? (hnames y hy z hz) hz
      rw [← hsame] at hw
      obtain ⟨n, hn, hsameName⟩ := NamedValue.find?_eq_some hw
      obtain ⟨⟨key, value⟩, hentry, hentryEq⟩ := List.mem_map.mp hn
      cases hentryEq
      exact ⟨key, List.mem_map_of_mem hentry, Json.text_sameScalar_iff.mp hsameName⟩
    obtain ⟨fields', rfl, hin⟩ := NamedValue.exists_ofFields hname
    exact ⟨fields', hy, fun key hkey => hkeys key (hin key hkey)⟩

theorem mem_of_saved_custom {levels : Nat} {s : Settings} (hs : IsRead levels s)
    {values : List NamedValue} (hvalues : s.customValues = .ok values) {v : Json}
    (h : (customKey, v) ∈ s.savedFields values) : (Json.text customKey, v) ∈ values := by
  obtain ⟨x, hx, hpair⟩ := List.mem_map.mp h
  obtain ⟨hname, rfl⟩ := Prod.mk.inj hpair
  have hentries : customKey ∉ s.entries.map Prod.fst := by
    rw [keys_entries]
    decide
  rcases NamedValue.mem_overlay hx with hbase | ⟨y, hy, hvalue, hsame⟩
  · obtain ⟨entry, hentry, rfl⟩ := List.mem_map.mp hbase
    have hkey : entry.1 = customKey := hname
    exact absurd (hkey ▸ List.mem_map_of_mem (f := Prod.fst) hentry) hentries
  · have hyName : y.1 = .text customKey := by
      rcases hsame with heq | hsame
      · exact NamedValue.nameText_eq_custom (hs.values values hvalues y hy).name (heq ▸ hname)
      · have hx1 := NamedValue.nameText_eq_custom (Json.isScalar_of_same hsame) hname
        rw [hx1] at hsame
        exact Json.text_sameScalar_iff.mp hsame
    rw [hvalue, ← hyName]
    exact hy

/-- No value of the custom settings is the collection that they came from. -/
theorem custom_not_inside {fields : List (Text × Json)} {s : Settings}
    (h : HasCustom fields s.custom) {values : List NamedValue}
    (hvalues : s.customValues = .ok values) :
    (Json.text customKey, givenCustom fields) ∉ values := by
  intro hmem
  unfold customValues at hvalues
  generalize s.custom = custom at h hvalues
  cases h with
  | given _ => exact lt_irrefl _ (sizeOf_of_mem_collection hvalues hmem)
  | collected _ hbase =>
    cases hvalues
    rcases NamedValue.mem_overlay hmem with hold | ⟨y, hy, hvalue, hname⟩
    · exact lt_irrefl _ (sizeOf_of_mem_collection hbase hold)
    · obtain ⟨⟨key, value⟩, hentry, rfl⟩ := List.mem_map.mp hy
      have hkey : key = customKey := by
        rcases hname with heq | hsame
        · exact (Json.text.inj heq).symm
        · exact Json.text.inj (Json.text_sameScalar_iff.mp hsame)
      have hunknown := (List.mem_filter.mp hentry).2
      have hdeclared : isDeclared customKey = true := by decide
      rw [hkey, hdeclared] at hunknown
      cases hunknown

/-- What agrees with the settings that were saved has nothing under the key of the collection. -/
theorem find?_custom_of_agrees {levels : Nat} {s s' : Settings} (hs : IsRead levels s)
    {values : List NamedValue} (hvalues : s.customValues = .ok values)
    (h : ofEntries (Json.overlay [] (s.savedFields values)) = .ok s') (hagrees : s'.Agrees s) :
    Json.find? customKey (Json.overlay [] (s.savedFields values)) = none := by
  obtain ⟨-, hcustom⟩ := ofEntries_ok h
  by_contra hsome
  obtain ⟨v, hv⟩ := Option.ne_none_iff_exists'.mp hsome
  have hgiven : givenCustom (Json.overlay [] (s.savedFields values)) = v := by
    unfold givenCustom
    rw [hv]
    rfl
  have hmem : (Json.text customKey, v) ∈ values := by
    rcases Json.mem_overlay (Json.mem_of_find? hv) with hnone | hsaved
    · cases hnone
    · exact mem_of_saved_custom hs hvalues hsaved
  obtain heq | ⟨x, y, hx, hy, hsame⟩ := hagrees.custom
  · have hread : s'.customValues = .ok values := by
      rw [← hvalues]
      unfold customValues
      rw [heq]
    exact custom_not_inside hcustom hread (hgiven ▸ hmem)
  · have hy' := customValues_of_mapping hy
    rw [hvalues] at hy'
    cases hy'
    have hfind := (hs.distinct values hy).find? rfl hmem
    rw [← hsame] at hfind
    obtain ⟨n, hn, hname⟩ := NamedValue.find?_eq_some hfind
    rw [Json.sameScalar_text_iff.mp hname, ← hgiven] at hn
    exact custom_not_inside hcustom (customValues_of_mapping hx) hn

/-- Custom settings come back only where they are stored apart from the settings. -/
theorem isStorable_of_saved {levels : Nat} {s s' : Settings} (hs : IsRead levels s)
    {values : List NamedValue} (hvalues : s.customValues = .ok values)
    (h : ofEntries (Json.overlay [] (s.savedFields values)) = .ok s') (hagrees : s'.Agrees s) :
    s.custom.IsStorable := by
  obtain ⟨-, hcustom⟩ := ofEntries_ok h
  have hgiven : givenCustom (Json.overlay [] (s.savedFields values)) = .object [] := by
    unfold givenCustom
    rw [find?_custom_of_agrees hs hvalues h hagrees]
    rfl
  have hmapping : ∃ fields, s'.custom.mapping? = some (NamedValue.ofFields fields) ∧
      ∀ key ∈ fields.map Prod.fst, isDeclared key = false := by
    generalize s'.custom = custom at hcustom
    cases hcustom with
    | given _ =>
      rw [hgiven]
      exact ⟨[], rfl, nofun⟩
    | collected _ hbase =>
      rw [hgiven] at hbase
      cases hbase
      refine ⟨_, congrArg some (NamedValue.overlay_ofFields [] _), fun key hkey => ?_⟩
      obtain ⟨entry, hentry, rfl⟩ := List.mem_map.mp hkey
      rcases Json.mem_overlay hentry with hnone | hunknown
      · cases hnone
      · have hkey := (List.mem_filter.mp hunknown).2
        rwa [Bool.not_eq_true'] at hkey
  obtain ⟨fields, hfields, hkeys⟩ := hmapping
  refine isStorable_of_agrees hfields hkeys hagrees.custom fun values' hvalues' x hx => ?_
  exact (hs.values values' (customValues_of_mapping hvalues') x hx).name

/-- Loaded settings come back from the file they are saved to exactly where their custom ones are
a mapping from names that are no settings, and no text of theirs holds a surrogate. -/
theorem reloads_iff {t : FileTree} {file : Option FilePath} {overrides : List (Text × Json)}
    {s : Settings} {levels : Nat} (hoverrides : Json.Readable (levels + 2) (.object overrides))
    (hload : Settings.load (levels + 2) t file overrides = .ok s) {t' emptied : FileTree} {path : FilePath}
    (hjson : path.isJson = true) (hwrite : t'.write path [] = .ok emptied) :
    s.Reloads (levels + 2) t' path ↔ s.custom.IsStorable ∧ s.IsEncodable := by
  have hs := isRead_of_load hoverrides hload
  rw [reloads_iff_of_fields hs hjson hwrite]
  have hsaved {fields : List (Text × Json)}
      (hmapping : s.custom.mapping? = some (NamedValue.ofFields fields))
      (hkeys : ∀ key ∈ fields.map Prod.fst, isDeclared key = false) :
      s.savedFields (NamedValue.ofFields fields) = s.entries ++ fields :=
    (savedFields_ofFields s fields).trans (Json.overlay_of_fresh (nodup_saved hs hmapping hkeys))
  constructor
  · rintro ⟨values, s', hvalues, hencodable, hentries, hagrees⟩
    have hstorable := isStorable_of_saved hs hvalues hentries hagrees
    obtain ⟨fields, hmapping, hkeys⟩ := hstorable
    have hvalues' := customValues_of_mapping hmapping
    rw [hvalues] at hvalues'
    cases hvalues'
    rw [hsaved hmapping hkeys, isEncodable_saved hmapping] at hencodable
    exact ⟨⟨fields, hmapping, hkeys⟩, hencodable⟩
  · rintro ⟨⟨fields, hmapping, hkeys⟩, hencodable⟩
    have hnodup := nodup_saved hs hmapping hkeys
    have hfields := hsaved hmapping hkeys
    have hoverlay : Json.overlay [] (s.entries ++ fields) = s.entries ++ fields :=
      Json.overlay_of_fresh (show (([] ++ (s.entries ++ fields)).map Prod.fst).Nodup from hnodup)
    have hbase : collection (givenCustom (s.entries ++ fields)) = .ok [] := by
      rw [givenCustom_saved s hkeys]
      rfl
    obtain ⟨s', hs'⟩ := ofEntries_total hbase
    refine ⟨NamedValue.ofFields fields, s', customValues_of_mapping hmapping, ?_, ?_, ?_⟩
    · rw [hfields]
      exact (isEncodable_saved hmapping).mpr hencodable
    · rw [hfields, hoverlay]
      exact hs'
    · exact agrees_of_saved hmapping hkeys
        (NamedValue.areDistinct_ofFields.mp (hs.distinct _ hmapping)) hs'

def withCustom (fields : List (Text × Json)) : Settings :=
  { default with custom := .given (.object fields) }

theorem load_custom (depth : Nat) (fields : List (Text × Json)) :
    Settings.load depth .empty none [("custom", .object fields)] = .ok (withCustom fields) :=
  rfl

theorem readable_custom {levels : Nat} {fields : List (Text × Json)}
    (h : Json.AreReadable levels fields) :
    Json.Readable (levels + 1 + 1) (.object [("custom", .object fields)]) :=
  .object (List.nodup_singleton _) (List.forall_mem_singleton.mpr (.object h.keys h.values))

theorem isEncodable_withCustom {fields : List (Text × Json)}
    (h : Json.IsEncodable (.object fields)) : (withCustom fields).IsEncodable := by
  refine List.forall_mem_cons.mpr ⟨h, fun v hv => ?_⟩
  simp only [withCustom, entries, default, List.map_cons, List.map_nil, List.mem_cons,
    List.not_mem_nil, or_false] at hv
  obtain rfl | rfl | rfl | rfl | rfl | rfl | rfl | rfl := hv
  · exact Json.isEncodable_text (by decide)
  · exact nofun
  · exact nofun
  · exact nofun
  · exact Json.isEncodable_text (by decide)
  · exact nofun
  · exact Json.isEncodable_text (by decide)
  · exact Json.isEncodable_text (by decide)

theorem flavor_reloads : (withCustom [("flavor", .text "debug"), ("retries", .int 3)]).Reloads 2
    .empty (.ofText "saved.json") := by
  have hfields : Json.AreReadable 0 [("flavor", .text "debug"), ("retries", .int 3)] :=
    ⟨by decide, List.forall_mem_cons.mpr
      ⟨.text _, List.forall_mem_singleton.mpr (.int (by decide))⟩⟩
  have hencodable : Json.IsEncodable
      (.object [("flavor", .text "debug"), ("retries", .int 3)]) := by
    have hflavor : Json.IsEncodable (.text "flavor") := Json.isEncodable_text (by decide)
    have hretries : Json.IsEncodable (.text "retries") := Json.isEncodable_text (by decide)
    exact Json.isEncodable_object.mpr (List.forall_mem_cons.mpr
      ⟨⟨hflavor _ .text, Json.isEncodable_text (by decide)⟩,
        List.forall_mem_singleton.mpr ⟨hretries _ .text, nofun⟩⟩)
  refine (reloads_iff (readable_custom hfields) (load_custom 2 _) rfl rfl).mpr
    ⟨⟨_, rfl, ?_⟩, isEncodable_withCustom hencodable⟩
  exact List.forall_mem_cons.mpr ⟨by decide, List.forall_mem_singleton.mpr (by decide)⟩

/-- A custom entry with the name of a setting is lost. -/
theorem custom_indent_lost :
    Settings.load 2 .empty none [("custom", .object [("indent_size", .int 9)])] =
      .ok (withCustom [("indent_size", .int 9)]) ∧
    ¬(withCustom [("indent_size", .int 9)]).Reloads 2 .empty (.ofText "saved.json") := by
  have hfields : Json.AreReadable 0 [("indent_size", .int 9)] :=
    ⟨List.nodup_singleton _, List.forall_mem_singleton.mpr (.int (by decide))⟩
  have hs := isRead_of_load (readable_custom hfields) (load_custom 2 [("indent_size", .int 9)])
  refine ⟨load_custom 2 _, fun hreloads => ?_⟩
  obtain ⟨values, s', hvalues, -, hentries, hagrees⟩ :=
    (reloads_iff_of_fields hs rfl rfl).mp hreloads
  obtain ⟨fields, hmapping, hkeys⟩ := isStorable_of_saved hs hvalues hentries hagrees
  have heq := toJson_of_mapping hmapping
  cases heq
  have hdeclared : isDeclared "indent_size" = true := by decide
  rw [hkeys "indent_size" List.mem_cons_self] at hdeclared
  cases hdeclared

end Settings
end NavDirections
