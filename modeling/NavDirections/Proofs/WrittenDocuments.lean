import NavDirections.Proofs.ByteReading
import NavDirections.Proofs.JsonReading
import NavDirections.Proofs.OutputConfinement
import NavDirections.Settings.File

/-!
# Documents in files

A document that was written to a file is read from there: the tree gives back the bytes, the bytes
the text, and the text the value.  Only a surrogate in one of the texts of the value keeps it from
being written.
-/

namespace NavDirections

open Success

namespace Json

/-- The texts in a value, the keys of its objects among them. -/
inductive HasText (t : Text) : Json → Prop
  | text : HasText t (text t)
  | item {items : List Json} {v : Json} (hmem : v ∈ items) (h : HasText t v) :
    HasText t (array items)
  | key {fields : List (Text × Json)} {v : Json} (hmem : (t, v) ∈ fields) :
    HasText t (object fields)
  | value {fields : List (Text × Json)} {key : Text} {v : Json} (hmem : (key, v) ∈ fields)
    (h : HasText t v) : HasText t (object fields)

def IsEncodable (v : Json) : Prop := ∀ t, HasText t v → ∀ c ∈ t, c.isSurrogate = false

theorem isEncodable_text {t : Text} (h : t.all (!·.isSurrogate) = true) :
    IsEncodable (text t) := by
  intro t' ht c hc
  cases ht
  have hplain := List.all_eq_true.mp h c hc
  rwa [Bool.not_eq_true'] at hplain

theorem isEncodable_object {fields : List (Text × Json)} : IsEncodable (object fields) ↔
    ∀ entry ∈ fields, (∀ c ∈ entry.1, c.isSurrogate = false) ∧ IsEncodable entry.2 := by
  constructor
  · intro h entry hentry
    exact ⟨h _ (.key hentry), fun t ht => h t (.value hentry ht)⟩
  · intro h t ht
    cases ht with
    | key hentry => exact (h _ hentry).1
    | value hentry ht => exact (h _ hentry).2 t ht

/-- Code points that come from nowhere but the texts of a value, if they come at all. -/
def IsForeign (c : CodePoint) : Prop := 0x7f ≤ c.val ∨ c = '\r'

instance : DecidablePred IsForeign := fun c =>
  inferInstanceAs (Decidable (0x7f ≤ c.val ∨ c = '\r'))

variable {c : CodePoint}

theorem IsForeign.notMem (hc : IsForeign c) {t : Text}
    (ht : t.all (fun d => d.val < 0x7f && d != '\r') = true) : c ∉ t := by
  intro hmem
  have hown := List.all_eq_true.mp ht c hmem
  simp only [Bool.and_eq_true, decide_eq_true_eq, bne_iff_ne] at hown
  rcases hc with hlarge | hreturn
  · omega
  · exact hown.2 hreturn

theorem IsForeign.ne (hc : IsForeign c) {d : CodePoint} (hd : ¬IsForeign d) : c ≠ d := by
  rintro rfl
  exact hd hc

theorem IsForeign.hexValue? (hc : IsForeign c) : c.hexValue? = none := by
  rcases hc with hlarge | rfl
  · unfold CodePoint.hexValue?
    simp only [CodePoint.isAsciiDigit, Bool.and_eq_true, decide_eq_true_eq]
    rw [if_neg (by omega), if_neg (by omega), if_neg (by omega)]
  · rfl

theorem IsForeign.notMem_newLine (hc : IsForeign c) (level : Nat) : c ∉ newLine level := by
  refine hc.notMem (List.all_eq_true.mpr fun d hd => ?_)
  rcases List.mem_cons.mp hd with rfl | hd
  · decide
  · rw [List.eq_of_mem_replicate hd]
    decide

theorem IsForeign.notMem_ofInt (hc : IsForeign c) (n : Int) : c ∉ Text.ofInt n := by
  have hdigits : c ∉ Text.ofNat n.natAbs := (ofNat_isDecimal n.natAbs).notMem hc.hexValue?
  have hminus : c ≠ '-' := hc.ne (by decide)
  rw [ofInt_eq]
  split
  · rw [List.mem_cons, not_or]
    exact ⟨hminus, hdigits⟩
  · exact hdigits

theorem IsForeign.notMem_writeFloat (hc : IsForeign c) (x : Floating) : c ∉ writeFloat x := by
  cases x with
  | undefined => exact hc.notMem (by decide)
  | infinite negative => cases negative <;> exact hc.notMem (by decide)
  | finite negative x =>
    have hbody : c ∉ x.shortest.text := (Literal.decimal_text_isFloating x.shortest).notMem
      hc.hexValue? (hc.ne (by decide)) (hc.ne (by decide)) (hc.ne (by decide))
    cases negative with
    | false => exact hbody
    | true => exact List.not_mem_cons_of_ne_of_not_mem (hc.ne (by decide)) hbody

theorem IsForeign.notMem_hexDigits (hc : IsForeign c) {n : Nat} (h : n < 0x10000) :
    c ∉ hexDigits 4 n := by
  rw [UnicodeEscape.hexDigits_four h]
  intro hmem
  obtain ⟨digit, hdigit, rfl⟩ := List.mem_map.mp hmem
  have hlt : digit < 16 := by
    simp only [List.mem_cons, List.not_mem_nil, or_false] at hdigit
    omega
  revert hc
  interval_cases digit <;> decide

theorem mem_escapeOne (hc : IsForeign c) (d : CodePoint) :
    c ∈ escapeOne d ↔ c = d ∧ c ≠ '\r' := by
  have hescape {letters : Text} (hletters : c ∉ letters) (hd : ¬IsForeign d ∨ d = '\r') :
      c ∈ letters ↔ c = d ∧ c ≠ '\r' := by
    refine iff_of_false hletters fun ⟨heq, hne⟩ => ?_
    rcases hd with hown | hreturn
    · exact hc.ne hown heq
    · exact hne (heq.trans hreturn)
  unfold escapeOne
  split
  next hd => exact hescape (hc.notMem (by decide)) (by rw [hd]; decide)
  split
  next hd => exact hescape (hc.notMem (by decide)) (by rw [hd]; decide)
  split
  next hd => exact hescape (hc.notMem (by decide)) (by rw [hd]; decide)
  split
  next hd => exact hescape (hc.notMem (by decide)) (by rw [hd]; decide)
  split
  next hd => exact hescape (hc.notMem (by decide)) (by rw [hd]; decide)
  split
  next hd => exact hescape (hc.notMem (by decide)) (by rw [hd]; decide)
  split
  next hd => exact hescape (hc.notMem (by decide)) (by rw [hd]; decide)
  next _ _ _ hreturn _ _ _ =>
    split
    next hcontrol =>
      have hown : ¬IsForeign d := not_or.mpr ⟨by omega, hreturn⟩
      refine hescape ?_ (.inl hown)
      rw [List.mem_append, not_or]
      exact ⟨hc.notMem (by decide), hc.notMem_hexDigits (by omega)⟩
    next =>
      rw [List.mem_singleton]
      constructor
      · rintro rfl
        exact ⟨rfl, hreturn⟩
      · exact And.left

theorem mem_writeText (hc : IsForeign c) (t : Text) : c ∈ writeText t ↔ c ∈ t ∧ c ≠ '\r' := by
  have hquote : c ∉ ("\"" : Text) := hc.notMem (by decide)
  unfold writeText
  rw [List.mem_append, List.mem_append, or_iff_right hquote, or_iff_left hquote, List.mem_flatMap]
  constructor
  · rintro ⟨d, hd, hmem⟩
    obtain ⟨rfl, hreturn⟩ := (mem_escapeOne hc d).mp hmem
    exact ⟨hd, hreturn⟩
  · rintro ⟨hmem, hreturn⟩
    exact ⟨c, hmem, (mem_escapeOne hc c).mpr ⟨rfl, hreturn⟩⟩

theorem mem_writeItems (hc : IsForeign c) (level : Nat) (items : List Json) :
    c ∈ writeItems level items ↔ ∃ v ∈ items, c ∈ writeAt level v := by
  have hcomma : c ∉ ("," : Text) := hc.notMem (by decide)
  induction items with
  | nil => simp [writeItems]
  | cons item items ih =>
    simp only [writeItems, List.mem_append, hcomma, hc.notMem_newLine level, false_or, ih,
      List.mem_cons, exists_eq_or_imp]

theorem mem_writeFields (hc : IsForeign c) (level : Nat) (fields : List (Text × Json)) :
    c ∈ writeFields level fields ↔
      ∃ entry ∈ fields, c ∈ writeText entry.1 ∨ c ∈ writeAt level entry.2 := by
  have hcomma : c ∉ ("," : Text) := hc.notMem (by decide)
  have hcolon : c ∉ (": " : Text) := hc.notMem (by decide)
  induction fields with
  | nil => simp [writeFields]
  | cons entry fields ih =>
    simp only [writeFields, List.mem_append, hcomma, hcolon, hc.notMem_newLine level, false_or,
      or_false, ih, List.mem_cons, exists_eq_or_imp]

theorem mem_writeAt_array (hc : IsForeign c) (level : Nat) (items : List Json) :
    c ∈ writeAt level (array items) ↔ ∃ v ∈ items, c ∈ writeAt (level + 1) v := by
  cases items with
  | nil =>
    have hempty : c ∉ writeAt level (array []) := hc.notMem rfl
    simp [hempty]
  | cons item items =>
    have hopen : c ∉ ("[" : Text) := hc.notMem (by decide)
    have hclose : c ∉ ("]" : Text) := hc.notMem (by decide)
    simp only [writeAt, List.mem_append, hopen, hclose, hc.notMem_newLine, false_or, or_false,
      mem_writeItems hc, List.mem_cons, exists_eq_or_imp]

theorem mem_writeAt_object (hc : IsForeign c) (level : Nat) (fields : List (Text × Json)) :
    c ∈ writeAt level (object fields) ↔
      ∃ entry ∈ fields, c ∈ writeText entry.1 ∨ c ∈ writeAt (level + 1) entry.2 := by
  cases fields with
  | nil =>
    have hempty : c ∉ writeAt level (object []) := hc.notMem rfl
    simp [hempty]
  | cons entry fields =>
    have hopen : c ∉ ("\x7b" : Text) := hc.notMem (by decide)
    have hclose : c ∉ ("\x7d" : Text) := hc.notMem (by decide)
    have hcolon : c ∉ (": " : Text) := hc.notMem (by decide)
    simp only [writeAt, List.mem_append, hopen, hclose, hcolon, hc.notMem_newLine, false_or,
      or_false, mem_writeFields hc, List.mem_cons, exists_eq_or_imp]

/-- Of the texts of a value all such code points are written, apart from the carriage return. -/
def ShowsTexts (c : CodePoint) (v : Json) : Prop :=
  ∀ level, c ∈ writeAt level v ↔ (∃ t, HasText t v ∧ c ∈ t) ∧ c ≠ '\r'

theorem ShowsTexts.none {v : Json} (hwritten : ∀ level, c ∉ writeAt level v)
    (htexts : ∀ t, ¬HasText t v) : ShowsTexts c v :=
  fun level => iff_of_false (hwritten level) fun ⟨⟨t, ht, _⟩, _⟩ => htexts t ht

theorem ShowsTexts.array (hc : IsForeign c) {items : List Json}
    (h : ∀ v ∈ items, ShowsTexts c v) : ShowsTexts c (array items) := by
  intro level
  rw [mem_writeAt_array hc]
  constructor
  · rintro ⟨v, hv, hmem⟩
    obtain ⟨⟨t, ht, hct⟩, hreturn⟩ := (h v hv _).mp hmem
    exact ⟨⟨t, .item hv ht, hct⟩, hreturn⟩
  · rintro ⟨⟨t, ht, hct⟩, hreturn⟩
    cases ht with
    | item hv ht => exact ⟨_, hv, (h _ hv _).mpr ⟨⟨t, ht, hct⟩, hreturn⟩⟩

theorem ShowsTexts.object (hc : IsForeign c) {fields : List (Text × Json)}
    (h : ∀ entry ∈ fields, ShowsTexts c entry.2) : ShowsTexts c (object fields) := by
  intro level
  rw [mem_writeAt_object hc]
  constructor
  · rintro ⟨⟨key, value⟩, hentry, hmem⟩
    rcases hmem with hkey | hvalue
    · obtain ⟨hct, hreturn⟩ := (mem_writeText hc key).mp hkey
      exact ⟨⟨key, .key hentry, hct⟩, hreturn⟩
    · obtain ⟨⟨t, ht, hct⟩, hreturn⟩ := (h _ hentry _).mp hvalue
      exact ⟨⟨t, .value hentry ht, hct⟩, hreturn⟩
  · rintro ⟨⟨t, ht, hct⟩, hreturn⟩
    cases ht with
    | key hentry => exact ⟨_, hentry, .inl ((mem_writeText hc t).mpr ⟨hct, hreturn⟩)⟩
    | value hentry ht => exact ⟨_, hentry, .inr ((h _ hentry _).mpr ⟨⟨t, ht, hct⟩, hreturn⟩)⟩

theorem showsTexts_of_readable {levels : Nat} {v : Json} (h : Readable levels v)
    (hc : IsForeign c) : ShowsTexts c v := by
  induction h with
  | null => exact .none (fun _ => hc.notMem (t := "null") (by decide)) nofun
  | bool b =>
    cases b with
    | false => exact .none (fun _ => hc.notMem (t := "false") (by decide)) nofun
    | true => exact .none (fun _ => hc.notMem (t := "true") (by decide)) nofun
  | @int _ n hn => exact .none (fun _ => hc.notMem_ofInt n) nofun
  | @float _ x hx => exact .none (fun _ => hc.notMem_writeFloat x) nofun
  | text t =>
    intro level
    refine (mem_writeText hc t).trans (and_congr_left fun _ => ⟨fun hct => ⟨t, .text, hct⟩, ?_⟩)
    rintro ⟨t', ht', hct⟩
    cases ht'
    exact hct
  | array _ ih => exact .array hc ih
  | object _ _ ih => exact .object hc ih

/-- Entries whose values are readable can be written as bytes exactly where no text of theirs holds
a surrogate. -/
theorem exists_bytes_iff {levels : Nat} {fields : List (Text × Json)}
    (h : ∀ entry ∈ fields, Readable levels entry.2) :
    (∃ bytes, (write (.object fields)).toUtf8 = .ok bytes) ↔ IsEncodable (.object fields) := by
  rw [Text.exists_toUtf8_iff]
  have hshows {c : CodePoint} (hc : c.isSurrogate = true) :
      c ∈ write (.object fields) ↔ ∃ t, HasText t (.object fields) ∧ c ∈ t := by
    have hlarge : 0xd800 ≤ c.val := by
      simp only [CodePoint.isSurrogate, Bool.and_eq_true, decide_eq_true_eq] at hc
      exact hc.1
    have hforeign : IsForeign c := .inl (by omega)
    have hreturn : c ≠ '\r' := by
      rintro rfl
      cases hc
    exact (ShowsTexts.object hforeign
      (fun entry hentry => showsTexts_of_readable (h entry hentry) hforeign) 0).trans
        (and_iff_left hreturn)
  constructor
  · intro hwritten t ht c hct
    refine Bool.eq_false_iff.mpr fun hc => ?_
    exact Bool.eq_false_iff.mp (hwritten c ((hshows hc).mpr ⟨t, ht, hct⟩)) hc
  · intro htexts c hwritten
    refine Bool.eq_false_iff.mpr fun hc => ?_
    obtain ⟨t, ht, hct⟩ := (hshows hc).mp hwritten
    exact Bool.eq_false_iff.mp (htexts t ht c hct) hc

end Json

namespace Text

theorem unifyLineEnds_of_notMem {t : Text} (h : ('\r' : CodePoint) ∉ t) : unifyLineEnds t = t := by
  induction t with
  | nil => rfl
  | cons c t ih =>
    rw [List.mem_cons, not_or] at h
    have hc : c ≠ '\r' := Ne.symm h.1
    cases t with
    | nil =>
      rw [unifyLineEnds, if_neg hc]
    | cons d t => rw [unifyLineEnds, if_neg hc, ih h.2]

end Text

/-! ### Files -/

namespace FileTree

variable {t t' : FileTree} {path : FilePath} {p : Place}

def KeepsDirectories (t t' : FileTree) : Prop :=
  ∀ p, t.get? p = some .directory → t'.get? p = some .directory

theorem KeepsDirectories.trans {t'' : FileTree} (h : t.KeepsDirectories t')
    (h' : t'.KeepsDirectories t'') : t.KeepsDirectories t'' := fun p hp => h' p (h p hp)

theorem keepsDirectories_set (hp : t.get? p ≠ some .directory) (content : Bytes) :
    t.KeepsDirectories (t.set p (.file content)) := by
  intro q hq
  have hne : q ≠ p := by
    rintro rfl
    exact hp hq
  rw [get?_set_of_ne hne, hq]

theorem KeepsDirectories.follow (h : t.KeepsDirectories t') {q r : Place} {names : List Text}
    (hfollow : t.follow q names = .ok r) : t'.follow q names = .ok r := by
  induction names generalizing q with
  | nil => exact hfollow
  | cons name names ih =>
    unfold FileTree.follow at hfollow ⊢
    split at hfollow
    next hdirectory =>
      rw [h q hdirectory]
      dsimp only
      split at hfollow
      · cases hfollow
      next hlength =>
        rw [if_neg hlength]
        exact ih hfollow
    next => cases hfollow
    next => cases hfollow

theorem KeepsDirectories.place (h : t.KeepsDirectories t') {q : Place}
    (hplace : t.place path = .ok q) : t'.place path = .ok q := by
  unfold FileTree.place at hplace ⊢
  split at hplace
  · cases hplace
  next hlength =>
    rw [if_neg hlength]
    exact mapError_ok.mpr (h.follow (mapError_ok.mp hplace))

theorem place_set (hp : t.get? p ≠ some .directory) (content : Bytes) {q : Place}
    (h : t.place path = .ok q) : (t.set p (.file content)).place path = .ok q :=
  (keepsDirectories_set hp content).place h

theorem write_ok {content : Bytes} (h : t.write path content = .ok t') :
    ∃ p, path.hasNull = false ∧ t.place path = .ok p ∧ t.get? p ≠ some .directory ∧
      t' = t.set p (.file content) := by
  obtain ⟨p, htarget, hset⟩ := bind_ok.mp h
  unfold target at htarget
  split at htarget
  · cases htarget
  next hnull =>
    split at hset
    · cases hset
    next hdirectory =>
      exact ⟨p, Bool.eq_false_iff.mpr hnull, mapError_ok.mp htarget, hdirectory,
        (Except.ok.inj hset).symm⟩

theorem get?_set_file (hp : t.get? p ≠ some .directory) (content : Bytes) :
    (t.set p (.file content)).get? p = some (.file content) := by
  have hplain : Place.alwaysThere p = false := by
    refine Bool.eq_false_iff.mpr fun hthere => hp ?_
    rw [get?, if_pos hthere]
  rw [get?_set t p p _ hplain, if_pos rfl]

/-- A file that was written holds what was written, and can be written again. -/
theorem write_again {content : Bytes} (h : t.write path content = .ok t') (content' : Bytes) :
    ∃ t'', t'.write path content' = .ok t'' := by
  obtain ⟨p, hnull, hplace, hdirectory, rfl⟩ := write_ok h
  have htarget : (t.set p (.file content)).target path = .ok p := by
    unfold target
    rw [hnull]
    exact mapError_ok.mpr (place_set hdirectory content hplace)
  refine ⟨(t.set p (.file content)).set p (.file content'), bind_ok.mpr ⟨p, htarget, ?_⟩⟩
  rw [get?_set_file hdirectory]

theorem read_of_write {content : Bytes} (h : t.write path content = .ok t') :
    t'.read path = .ok content := by
  obtain ⟨p, hnull, hplace, hdirectory, rfl⟩ := write_ok h
  refine bind_ok.mpr ⟨p, place_set hdirectory content hplace, ?_⟩
  rw [get?_set_file hdirectory]

theorem hasEntry_of_write {content : Bytes} (h : t.write path content = .ok t') :
    t'.hasEntry path = .ok true := by
  obtain ⟨p, hnull, hplace, hdirectory, rfl⟩ := write_ok h
  unfold hasEntry
  rw [if_neg (Bool.eq_false_iff.mp hnull), place_set hdirectory content hplace]
  dsimp only
  rw [get?_set_file hdirectory]
  rfl

/-- Entries with readable values that were written to a file are read from it. -/
theorem readJson_of_write {levels : Nat} {fields : List (Text × Json)}
    (hfields : ∀ entry ∈ fields, Json.Readable levels entry.2)
    {bytes : Bytes} (hbytes : (Json.write (.object fields)).toUtf8 = .ok bytes)
    (h : t.write path bytes = .ok t') :
    t'.readJson (levels + 1) path = .ok (.object (Json.overlay [] fields)) := by
  have hreturn : ('\r' : CodePoint) ∉ Json.write (.object fields) := by
    have hforeign : Json.IsForeign '\r' := .inr rfl
    intro hmem
    have hshown := (Json.ShowsTexts.object hforeign (fun entry hentry =>
      Json.showsTexts_of_readable (hfields entry hentry) hforeign) 0).mp hmem
    exact hshown.2 rfl
  unfold readJson
  refine bind_ok.mpr ⟨bytes, mapError_ok.mpr (read_of_write h), ?_⟩
  refine bind_ok.mpr ⟨_, mapError_ok.mpr (Text.ofUtf8_toUtf8 hbytes), ?_⟩
  rw [Text.unifyLineEnds_of_notMem hreturn]
  exact mapError_ok.mpr (Json.parse_write_object hfields)

end FileTree
end NavDirections
