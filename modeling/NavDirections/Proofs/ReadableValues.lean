import NavDirections.Proofs.JsonReading

/-!
# What reading gives

Reading a document gives a readable value: its integers have no more digits than are read, its
floating-point numbers are doubles, no two keys of an object are equal, and it is nested no deeper
than is read.  With the converse these are the values that documents hold.
-/

namespace NavDirections.Json

open Decimal Success

variable {rest t : Text}

/-! ### Words and numbers -/

theorem decimalLength_places {t : Text} (h : ∀ c ∈ t, c.isAsciiDigit = true) :
    decimalLength (ofDigits 10 (places t)) ≤ max 1 t.length := by
  have hbound : ofDigits 10 (places t) < 10 ^ t.length := by
    induction t using List.reverseRecOn with
    | nil => decide
    | append_singleton t c ih =>
      have hc := h c (List.mem_append_right t List.mem_cons_self)
      have ht := ih fun d hd => h d (List.mem_append_left [c] hd)
      simp only [CodePoint.isAsciiDigit, Bool.and_eq_true, decide_eq_true_eq] at hc
      have hlast : ofDigits 10 (places [c]) = c.val - 0x30 := by simp [places, ofDigits]
      rw [places_append, ofDigits_append, hlast, List.length_append, Nat.pow_add]
      simp only [length_places, List.length_singleton, Nat.pow_one]
      omega
  refine (decimalLength_le_iff (by omega)).mpr (hbound.trans_le ?_)
  exact Nat.pow_le_pow_right (by decide) (le_max_right 1 t.length)

theorem isDouble_ofDecimal (negative : Bool) (d : Decimal) :
    IsDouble (.ofDecimal negative d) := by
  unfold Floating.ofDecimal
  split
  next x hx => exact BinaryFormat.has_of_ofDecimal? (by decide) (by decide) hx
  next => trivial

theorem spanDigits_digits {ds : List Nat} (h : spanDigits t = (ds, rest)) :
    ∃ u : Text, (∀ c ∈ u, c.isAsciiDigit = true) ∧ places u = ds := by
  obtain ⟨hds, -⟩ := Prod.mk.inj h
  exact ⟨t.takeWhile CodePoint.isAsciiDigit, fun c hc => List.mem_takeWhile_imp hc, hds⟩

theorem readWhole_length {whole : List Nat} (h : readWhole t = some (whole, rest)) :
    decimalLength (ofDigits 10 whole) ≤ whole.length := by
  unfold readWhole at h
  split at h
  next c more =>
    split at h
    · obtain ⟨rfl, -⟩ := Prod.mk.inj (Option.some.inj h)
      decide
    · split at h
      next => cases h
      next found hne =>
        obtain ⟨u, hu, hplaces⟩ := spanDigits_digits (Option.some.inj h)
        have hlength := decimalLength_places hu
        have hpos : u.length ≠ 0 := by
          intro hzero
          rw [List.eq_nil_of_length_eq_zero hzero] at hplaces
          exact hne _ (by rw [Option.some.inj h, ← hplaces]; rfl)
        rw [← hplaces, length_places]
        omega
  next => cases h

theorem readUnsigned_readable {negative : Bool} {v : Json} (levels : Nat)
    (h : readUnsigned negative t = some (.ok (v, rest))) : Readable levels v := by
  unfold readUnsigned at h
  obtain ⟨⟨whole, more⟩, hwhole, hread⟩ := Option.map_eq_some_iff.mp h
  dsimp only at hread
  split at hread
  · split at hread
    · cases hread
    next hlimit =>
      obtain ⟨rfl, -⟩ := Prod.mk.inj (Except.ok.inj hread)
      have hlength := readWhole_length hwhole
      refine .int ?_
      split <;> simp only [Int.natAbs_neg, Int.natAbs_natCast] <;> omega
  · obtain ⟨rfl, -⟩ := Prod.mk.inj (Except.ok.inj hread)
    exact .float (isDouble_ofDecimal _ _)
  · split at hread
    all_goals
      obtain ⟨rfl, -⟩ := Prod.mk.inj (Except.ok.inj hread)
      exact .float (isDouble_ofDecimal _ _)

theorem readScalar_readable {v : Json} (levels : Nat) (h : readScalar t = .ok (v, rest)) :
    Readable levels v := by
  unfold readScalar at h
  split at h
  next found hfound =>
    obtain ⟨⟨word, value⟩, hmem, hvalue⟩ := List.exists_of_findSome?_eq_some hfound
    obtain ⟨after, -, hpair⟩ := Option.map_eq_some_iff.mp hvalue
    rw [Except.ok.inj h] at hpair
    obtain ⟨rfl, -⟩ := Prod.mk.inj hpair
    simp only [keywords, List.mem_cons, List.not_mem_nil, or_false, Prod.mk.injEq] at hmem
    obtain ⟨-, rfl⟩ | ⟨-, rfl⟩ | ⟨-, rfl⟩ | ⟨-, rfl⟩ | ⟨-, rfl⟩ := hmem
    · exact .null
    · exact .bool true
    · exact .bool false
    · exact .float trivial
    · exact .float trivial
  next =>
    split at h
    next result hnumber =>
      rw [h] at hnumber
      unfold readNumber at hnumber
      split at hnumber
      next c more =>
        split at hnumber
        · split at hnumber
          · obtain ⟨rfl, -⟩ := Prod.mk.inj (Except.ok.inj (Option.some.inj hnumber))
            exact .float trivial
          · exact readUnsigned_readable levels hnumber
        · exact readUnsigned_readable levels hnumber
      next => cases hnumber
    next => cases h

theorem mem_insert {key : Text} {value : Json} {fields : List (Text × Json)}
    {entry : Text × Json} (h : entry ∈ insert key value fields) :
    entry = (key, value) ∨ entry ∈ fields := by
  induction fields with
  | nil => exact .inl (List.mem_singleton.mp h)
  | cons first fields ih =>
    obtain ⟨k, v⟩ := first
    rw [insert] at h
    split at h
    next hk =>
      rcases List.mem_cons.mp h with heq | hmem
      · exact .inl (hk ▸ heq)
      · exact .inr (List.mem_cons_of_mem _ hmem)
    next =>
      rcases List.mem_cons.mp h with rfl | hmem
      · exact .inr List.mem_cons_self
      · exact (ih hmem).imp_right (List.mem_cons_of_mem _)

theorem mem_overlay {base upper : List (Text × Json)} {entry : Text × Json}
    (h : entry ∈ overlay base upper) : entry ∈ base ∨ entry ∈ upper := by
  induction upper generalizing base with
  | nil => exact .inl h
  | cons first upper ih =>
    rcases ih (show entry ∈ overlay (insert first.1 first.2 base) upper from h) with hbase | hupper
    · rcases mem_insert hbase with heq | hold
      · exact .inr (heq ▸ List.mem_cons_self)
      · exact .inl hold
    · exact .inr (List.mem_cons_of_mem _ hupper)

theorem keys_insert (key : Text) (value : Json) (fields : List (Text × Json)) :
    (insert key value fields).map Prod.fst =
      if key ∈ fields.map Prod.fst then fields.map Prod.fst
      else fields.map Prod.fst ++ [key] := by
  induction fields with
  | nil => rfl
  | cons first fields ih =>
    obtain ⟨k, v⟩ := first
    rw [insert]
    by_cases hk : k = key
    · simp [hk]
    · rw [if_neg hk, List.map_cons, ih]
      have hne : ¬key = k := Ne.symm hk
      by_cases hmem : key ∈ fields.map Prod.fst <;> simp [hmem, hne]

theorem nodup_keys_insert {fields : List (Text × Json)} (h : (fields.map Prod.fst).Nodup)
    (key : Text) (value : Json) : ((insert key value fields).map Prod.fst).Nodup := by
  rw [keys_insert]
  split
  next => exact h
  next hnew =>
    refine List.nodup_append.mpr ⟨h, List.nodup_singleton key, fun a ha b hb => ?_⟩
    rw [List.mem_singleton.mp hb]
    rintro rfl
    exact hnew ha

theorem nodup_keys_overlay {base : List (Text × Json)} (h : (base.map Prod.fst).Nodup)
    (upper : List (Text × Json)) : ((overlay base upper).map Prod.fst).Nodup := by
  induction upper generalizing base with
  | nil => exact h
  | cons entry upper ih => exact ih (nodup_keys_insert h entry.1 entry.2)

/-- Entries that are readable, no two of them with the same key. -/
structure AreReadable (levels : Nat) (fields : List (Text × Json)) : Prop where
  keys : (fields.map Prod.fst).Nodup
  values : ∀ entry ∈ fields, Readable levels entry.2

theorem AreReadable.nil {levels : Nat} : AreReadable levels [] := ⟨List.nodup_nil, List.forall_mem_nil _⟩

theorem AreReadable.insert {levels : Nat} {fields : List (Text × Json)}
    (h : AreReadable levels fields) (key : Text) {value : Json} (hvalue : Readable levels value) :
    AreReadable levels (insert key value fields) := by
  refine ⟨nodup_keys_insert h.keys key value, fun entry hentry => ?_⟩
  rcases mem_insert hentry with heq | hmem
  · rw [heq]
    exact hvalue
  · exact h.values entry hmem

theorem AreReadable.overlay {levels : Nat} {base upper : List (Text × Json)}
    (h : AreReadable levels base) (hupper : ∀ entry ∈ upper, Readable levels entry.2) :
    AreReadable levels (overlay base upper) := by
  induction upper generalizing base with
  | nil => exact h
  | cons entry upper ih =>
    obtain ⟨hentry, hrest⟩ := List.forall_mem_cons.mp hupper
    exact ih (h.insert entry.1 hentry) hrest

/-- What the three readers of values give with some fuel is readable. -/
structure ReadsReadable (fuel : Nat) : Prop where
  value : ∀ levels t v rest, readValue fuel levels t = .ok (v, rest) → Readable levels v
  items : ∀ levels t items rest, readItems fuel levels t = .ok (items, rest) →
    ∀ v ∈ items, Readable levels v
  fields : ∀ levels found t fields rest, readFields fuel levels found t = .ok (fields, rest) →
    AreReadable levels found → AreReadable levels fields

theorem ReadsReadable.value_succ {fuel : Nat} (ih : ReadsReadable fuel) (levels : Nat) (t : Text)
    (v : Json) (rest : Text) (h : readValue (fuel + 1) levels t = .ok (v, rest)) :
    Readable levels v := by
  unfold readValue at h
  dsimp only at h
  split at h
  next => cases h
  next c more =>
    split at h
    · obtain ⟨⟨text, after⟩, -, hv⟩ := bind_ok.mp h
      obtain ⟨rfl, -⟩ := Prod.mk.inj (Except.ok.inj hv)
      exact .text text
    split at h
    · split at h
      next => cases h
      next hlevels =>
        obtain ⟨levels, rfl⟩ := Nat.exists_eq_succ_of_ne_zero hlevels
        split at h
        next d after _ =>
          split at h
          · obtain ⟨rfl, -⟩ := Prod.mk.inj (Except.ok.inj h)
            exact .object List.nodup_nil (List.forall_mem_nil _)
          · obtain ⟨⟨fields, after⟩, hfields, hv⟩ := bind_ok.mp h
            obtain ⟨rfl, -⟩ := Prod.mk.inj (Except.ok.inj hv)
            have hread := ih.fields _ _ _ _ _ hfields .nil
            exact .object hread.keys hread.values
        next => cases h
    split at h
    · split at h
      next => cases h
      next hlevels =>
        obtain ⟨levels, rfl⟩ := Nat.exists_eq_succ_of_ne_zero hlevels
        split at h
        next d after _ =>
          split at h
          · obtain ⟨rfl, -⟩ := Prod.mk.inj (Except.ok.inj h)
            exact .array (List.forall_mem_nil _)
          · obtain ⟨⟨items, after⟩, hitems, hv⟩ := bind_ok.mp h
            obtain ⟨rfl, -⟩ := Prod.mk.inj (Except.ok.inj hv)
            exact .array (ih.items _ _ _ _ hitems)
        next => cases h
    · exact readScalar_readable levels h

theorem ReadsReadable.items_succ {fuel : Nat} (ih : ReadsReadable fuel) (levels : Nat) (t : Text)
    (items : List Json) (rest : Text) (h : readItems (fuel + 1) levels t = .ok (items, rest)) :
    ∀ v ∈ items, Readable levels v := by
  unfold readItems at h
  dsimp only at h
  obtain ⟨⟨item, after⟩, hitem, h⟩ := bind_ok.mp h
  have hreadable := ih.value _ _ _ _ hitem
  dsimp only at h
  split at h
  next c more _ =>
    split at h
    · obtain ⟨rfl, -⟩ := Prod.mk.inj (Except.ok.inj h)
      exact List.forall_mem_singleton.mpr hreadable
    split at h
    · obtain ⟨⟨others, after⟩, hothers, hv⟩ := bind_ok.mp h
      obtain ⟨rfl, -⟩ := Prod.mk.inj (Except.ok.inj hv)
      exact List.forall_mem_cons.mpr ⟨hreadable, ih.items _ _ _ _ hothers⟩
    · cases h
  next => cases h

theorem ReadsReadable.fields_succ {fuel : Nat} (ih : ReadsReadable fuel) (levels : Nat)
    (found : List (Text × Json)) (t : Text) (fields : List (Text × Json)) (rest : Text)
    (h : readFields (fuel + 1) levels found t = .ok (fields, rest))
    (hfound : AreReadable levels found) : AreReadable levels fields := by
  unfold readFields at h
  dsimp only at h
  split at h
  next => cases h
  next c more =>
    split at h
    · obtain ⟨⟨key, after⟩, -, h⟩ := bind_ok.mp h
      dsimp only at h
      split at h
      next => cases h
      next d after _ =>
        split at h
        · obtain ⟨⟨value, after⟩, hvalue, h⟩ := bind_ok.mp h
          have hinserted := hfound.insert key (ih.value _ _ _ _ hvalue)
          dsimp only at h
          split at h
          next c after _ =>
            split at h
            · obtain ⟨rfl, -⟩ := Prod.mk.inj (Except.ok.inj h)
              exact hinserted
            split at h
            · exact ih.fields _ _ _ _ _ h hinserted
            · cases h
          next => cases h
        · cases h
    · cases h

theorem readsReadable (fuel : Nat) : ReadsReadable fuel := by
  induction fuel with
  | zero =>
    refine ⟨fun levels t v rest h => ?_, fun levels t items rest h => ?_,
      fun levels found t fields rest h => ?_⟩
    · unfold readValue at h
      cases h
    · unfold readItems at h
      cases h
    · unfold readFields at h
      cases h
  | succ fuel ih => exact ⟨ih.value_succ, ih.items_succ, ih.fields_succ⟩

theorem readable_of_parse {depth : Nat} {document : Text} {v : Json}
    (h : parse depth document = .ok v) : Readable depth v := by
  unfold parse at h
  split at h
  · cases h
  · have hread := mapError_ok.mp h
    unfold readWholeText at hread
    obtain ⟨⟨value, rest⟩, hvalue, hend⟩ := bind_ok.mp hread
    dsimp only at hend
    split at hend
    · cases hend
      exact (readsReadable _).value _ _ _ _ hvalue
    · cases hend

/-- The values that documents hold are the readable ones, and each is held by what is written for
it. -/
theorem readable_iff {depth : Nat} {v : Json} :
    Readable depth v ↔ ∃ document, parse depth document = .ok v :=
  ⟨fun h => ⟨write v, parse_write h⟩, fun ⟨_, h⟩ => readable_of_parse h⟩

end NavDirections.Json
