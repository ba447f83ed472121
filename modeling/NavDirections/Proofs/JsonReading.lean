import NavDirections.Proofs.LiteralReading
import NavDirections.Proofs.NumeralReading
import NavDirections.Proofs.Success

/-!
# Reading documents back

What is written for a value is read as that value, if the value is readable: no two keys of an object
are equal, floating-point numbers are doubles, and there are no more digits and levels than are read.
Entries with equal keys are read as well, the later ones in place of the earlier ones.
-/

namespace NavDirections.Json

open Decimal Success

variable {start rest t : Text}

theorem readText_quote : readText start (('"' : CodePoint) :: rest) = .ok ([], rest) := by
  rw [readText]
  exact if_pos rfl

theorem readText_plain {c : CodePoint} {found after : Text} (hquote : c ≠ '"') (hslash : c ≠ '\\')
    (hcontrol : ¬c.val < 0x20) (h : readText start rest = .ok (found, after)) :
    readText start (c :: rest) = .ok (c :: found, after) := by
  rw [readText, if_neg hquote, if_neg hslash, if_neg hcontrol, h]
  rfl

theorem readText_escape {value : CodePoint} {more found after : Text}
    (hescape : readEscape t = .ok (value, more)) (h : readText start more = .ok (found, after)) :
    readText start (('\\' : CodePoint) :: t) = .ok (value :: found, after) := by
  have hne : t ≠ [] := by
    rintro rfl
    cases hescape
  have hquote : CodePoint.ofChar '\\' ≠ '"' := by decide
  rw [readText, if_neg hquote, if_pos rfl, if_neg hne]
  split
  next fault hfault => rw [hescape] at hfault; cases hfault
  next value' more' hread =>
    rw [hescape] at hread
    cases hread
    rw [h]
    rfl

theorem readEscape_unit {c : CodePoint} (h : c.val < 0xd800) (hrest : rest ≠ []) :
    readEscape (('u' : CodePoint) :: (hexDigits 4 c.val ++ rest)) = .ok (c, rest) := by
  obtain ⟨next, more, rfl⟩ := List.exists_cons_of_ne_nil hrest
  have ha : c.val / 0x1000 < 16 := by omega
  have hb : c.val / 0x100 % 16 < 16 := by omega
  have hc : c.val / 0x10 % 16 < 16 := by omega
  have hd : c.val % 16 < 16 := by omega
  have hvalue {d : Nat} (hd : d < 16) : (CodePoint.ofChar d.digitChar).hexValue? = some d := by
    interval_cases d <;> rfl
  have hsum : ((c.val / 0x1000 * 16 + c.val / 0x100 % 16) * 16 + c.val / 0x10 % 16) * 16 +
      c.val % 16 = c.val := by omega
  have hunit : readUnit (('u' : CodePoint) :: (hexDigits 4 c.val ++ next :: more)) =
      .ok (c, next :: more) := by
    rw [UnicodeEscape.hexDigits_four (by omega)]
    simp only [List.map_cons, List.map_nil, List.cons_append, List.nil_append, readUnit,
      codeUnit?, hvalue ha, hvalue hb, hvalue hc, hvalue hd, Option.bind_eq_bind,
      Option.bind_some, hsum, c.isLt, dite_true]
  have hsurrogate : ¬(0xd800 ≤ c.val && c.val < 0xdc00) = true := by
    simp only [Bool.and_eq_true, decide_eq_true_eq, not_and]
    omega
  unfold readEscape
  dsimp only
  rw [if_pos rfl, hunit]
  exact if_neg hsurrogate

theorem readText_escapeOne (c : CodePoint) {found after : Text}
    (h : readText start rest = .ok (found, after)) :
    readText start (escapeOne c ++ rest) = .ok (c :: found, after) := by
  have hne : rest ≠ [] := by
    rintro rfl
    rw [readText] at h
    cases h
  unfold escapeOne
  split
  next hc => exact hc ▸ readText_escape rfl h
  split
  next hc => exact hc ▸ readText_escape rfl h
  split
  next hc => exact hc ▸ readText_escape rfl h
  split
  next hc => exact hc ▸ readText_escape rfl h
  split
  next hc => exact hc ▸ readText_escape rfl h
  split
  next hc => exact hc ▸ readText_escape rfl h
  split
  next hc => exact hc ▸ readText_escape rfl h
  next hquote hslash _ _ _ _ _ =>
    split
    next hcontrol => exact readText_escape (readEscape_unit (by omega) hne) h
    next hcontrol => exact readText_plain hquote hslash hcontrol h

theorem readText_write (t : Text) :
    readText start (t.flatMap escapeOne ++ ('"' : CodePoint) :: rest) = .ok (t, rest) := by
  induction t with
  | nil => exact readText_quote
  | cons c t ih =>
    rw [List.flatMap_cons, List.append_assoc]
    exact readText_escapeOne c ih

def opens (c : CodePoint) : Bool :=
  c.isAsciiDigit || ("-ntfNI\"[\x7b" : Text).contains c

theorem keywords_of_number {c : CodePoint} (h : c.isAsciiDigit = true ∨ c = '-') (more : Text) :
    keywords.findSome? (fun (word, value) => (Text.dropStart? word (c :: more)).map (value, ·)) =
      none := by
  have hletter : ∀ letter ∈ ("ntfNI" : Text), letter ≠ c := by
    rintro letter hmem rfl
    have hnone : ("ntfNI" : Text).all (fun c => !(c.isAsciiDigit || c == '-')) = true := by decide
    have hc := List.all_eq_true.mp hnone letter hmem
    rw [Bool.not_eq_true', Bool.or_eq_false_iff] at hc
    rcases h with hdigit | hminus
    · exact absurd hdigit (Bool.eq_false_iff.mp hc.1)
    · exact absurd hminus (by simpa using hc.2)
  refine List.findSome?_eq_none_iff.mpr fun ⟨word, value⟩ hmem => ?_
  obtain ⟨letter, rest, hword, hin⟩ : ∃ letter rest, word = letter :: rest ∧
      letter ∈ ("ntfNI" : Text) := by
    simp only [keywords, List.mem_cons, List.not_mem_nil, or_false, Prod.mk.injEq] at hmem
    obtain ⟨rfl, -⟩ | ⟨rfl, -⟩ | ⟨rfl, -⟩ | ⟨rfl, -⟩ | ⟨rfl, -⟩ := hmem <;>
      exact ⟨_, _, rfl, by decide⟩
  rw [hword]
  exact congrArg (Option.map _) (if_neg (hletter letter hin))

theorem readScalar_signed (negative : Bool) {body : Text} {result : Except ReadFault (Json × Text)}
    (hhead : ∃ c more, body = c :: more ∧ c.isAsciiDigit = true)
    (h : readUnsigned negative (body ++ rest) = some result) :
    readScalar ((if negative then ('-' : CodePoint) :: body else body) ++ rest) = result := by
  obtain ⟨c, more, rfl, hdigit⟩ := hhead
  cases negative with
  | false =>
    have hminus : c ≠ '-' := by
      rintro rfl
      cases hdigit
    show readScalar (c :: (more ++ rest)) = result
    unfold readScalar
    rw [keywords_of_number (.inl hdigit)]
    dsimp only [readNumber]
    rw [if_neg hminus, ← List.cons_append, h]
  | true =>
    have hletter : ('I' : CodePoint) ≠ c := by
      rintro rfl
      cases hdigit
    have hword : Text.dropStart? "Infinity" (c :: (more ++ rest)) = none := if_neg hletter
    show readScalar ('-' :: c :: (more ++ rest)) = result
    unfold readScalar
    rw [keywords_of_number (.inr rfl)]
    dsimp only [readNumber]
    rw [if_pos rfl, hword]
    dsimp only
    rw [← List.cons_append, h]

theorem exists_digit (h : IsDigits 10 t) : ∃ c more, t = c :: more ∧ c.isAsciiDigit = true := by
  obtain ⟨c, more, rfl⟩ := List.exists_cons_of_ne_nil h.ne_nil
  exact ⟨c, more, rfl, (h.digit c List.mem_cons_self).isAsciiDigit⟩

theorem exists_digit_of_floating (h : Literal.IsFloating t) :
    ∃ c more, t = c :: more ∧ c.isAsciiDigit = true := by
  obtain ⟨hwhole, -, -⟩ := h
  obtain ⟨c, more, rfl, hc⟩ := exists_digit hwhole
  exact ⟨c, _, rfl, hc⟩

theorem ofInt_eq (n : Int) : Text.ofInt n =
    if decide (n < 0) then ('-' : CodePoint) :: Text.ofNat n.natAbs else Text.ofNat n.natAbs := by
  cases n with
  | ofNat n => rfl
  | negSucc n =>
    rw [if_pos (decide_eq_true (Int.negSucc_lt_zero n))]
    rfl

theorem readScalar_int {n : Int} (hn : decimalLength n.natAbs ≤ integerDigitLimit)
    (hrest : EndsNumeral rest) : readScalar (Text.ofInt n ++ rest) = .ok (int n, rest) := by
  have hdecimal := ofNat_isDecimal n.natAbs
  have hlength : ¬integerDigitLimit < (Text.ofNat n.natAbs).length := by
    rw [← length_toDigits]
    exact not_lt.mpr hn
  have hread := readUnsigned_whole (decide (n < 0)) hdecimal hrest
  have hvalue : (if decide (n < 0) = true then -(n.natAbs : Int) else n.natAbs) = n := by
    split
    next h =>
      have := of_decide_eq_true h
      omega
    next h =>
      have := of_decide_eq_false (Bool.eq_false_iff.mpr h)
      omega
  rw [if_neg hlength, digitsValue_ofNat, hvalue] at hread
  rw [ofInt_eq]
  exact readScalar_signed _ (exists_digit hdecimal.toIsDigits) hread

/-- A finite value is a double precision number. -/
def IsDouble : Floating → Prop
  | .finite _ x => binary64.Has x
  | _ => True

theorem readScalar_float {x : Floating} (hx : IsDouble x) (hrest : EndsNumeral rest) :
    readScalar (writeFloat x ++ rest) = .ok (float x, rest) := by
  cases x with
  | undefined => rfl
  | infinite negative => cases negative <;> rfl
  | finite negative x =>
    have hread := readUnsigned_text negative x.shortest hrest
    have hsame : Floating.ofDecimal negative x.shortest = .finite negative x := by
      unfold Floating.ofDecimal
      rw [Dyadic.ofDecimal?_shortest hx]
    rw [hsame] at hread
    exact readScalar_signed negative
      (exists_digit_of_floating (Literal.decimal_text_isFloating x.shortest)) hread

theorem opens_of_digit {c : CodePoint} (h : c.isAsciiDigit = true) : opens c = true := by
  rw [opens, h, Bool.true_or]

theorem writeAt_head (level : Nat) (v : Json) :
    ∃ c more, writeAt level v = c :: more ∧ opens c = true := by
  cases v with
  | null => exact ⟨_, _, rfl, by decide⟩
  | bool b => cases b <;> exact ⟨_, _, rfl, by decide⟩
  | int n =>
    obtain ⟨c, more, hmore, hdigit⟩ := exists_digit (ofNat_isDecimal n.natAbs).toIsDigits
    show ∃ c more, Text.ofInt n = c :: more ∧ opens c = true
    rw [ofInt_eq, hmore]
    split
    · exact ⟨_, _, rfl, by decide⟩
    · exact ⟨c, more, rfl, opens_of_digit hdigit⟩
  | float x =>
    show ∃ c more, writeFloat x = c :: more ∧ opens c = true
    cases x with
    | undefined => exact ⟨_, _, rfl, by decide⟩
    | infinite negative => cases negative <;> exact ⟨_, _, rfl, by decide⟩
    | finite negative x =>
      cases negative with
      | true => exact ⟨_, _, rfl, by decide⟩
      | false =>
        obtain ⟨c, more, hmore, hdigit⟩ :=
          exists_digit_of_floating (Literal.decimal_text_isFloating x.shortest)
        exact ⟨c, more, hmore, opens_of_digit hdigit⟩
  | text t => exact ⟨_, _, rfl, by decide⟩
  | array items => cases items <;> exact ⟨_, _, rfl, by decide⟩
  | object fields => cases fields <;> exact ⟨_, _, rfl, by decide⟩

theorem writeAt_length_pos (level : Nat) (v : Json) : 0 < (writeAt level v).length := by
  obtain ⟨c, more, hmore, -⟩ := writeAt_head level v
  rw [hmore]
  exact Nat.succ_pos _

theorem opens_lt {c : CodePoint} (h : opens c = true) : c.val < 0x7f := by
  rcases Bool.or_eq_true_iff.mp h with hdigit | hmark
  · simp only [CodePoint.isAsciiDigit, Bool.and_eq_true, decide_eq_true_eq] at hdigit
    omega
  · have hsmall : ("-ntfNI\"[\x7b" : Text).all (·.val < 0x7f) = true := by decide
    exact of_decide_eq_true (List.all_eq_true.mp hsmall c (List.contains_iff_mem.mp hmark))

theorem not_isSpace_of_opens {c : CodePoint} (h : opens c = true) : isSpace c = false := by
  refine Bool.eq_false_iff.mpr fun hc => ?_
  simp only [isSpace, Bool.or_eq_true, beq_iff_eq] at hc
  rcases hc with ((rfl | rfl) | rfl) | rfl <;> exact absurd h (by decide)

theorem skipSpace_cons {c : CodePoint} (h : isSpace c = false) (more : Text) :
    skipSpace (c :: more) = c :: more :=
  List.dropWhile_cons_of_neg (by rw [h]; exact Bool.false_ne_true)

theorem skipSpace_newLine (level : Nat) (t : Text) : skipSpace (newLine level ++ t) = skipSpace t := by
  refine List.dropWhile_append_of_pos fun c hc => ?_
  rcases List.mem_cons.mp hc with rfl | hc
  · rfl
  · rw [List.eq_of_mem_replicate hc]
    rfl

theorem skipSpace_key (key t : Text) : skipSpace (writeText key ++ t) = writeText key ++ t :=
  skipSpace_cons rfl _

theorem skipSpace_value (level : Nat) (v : Json) (t : Text) :
    skipSpace (writeAt level v ++ t) = writeAt level v ++ t := by
  obtain ⟨c, more, hmore, hc⟩ := writeAt_head level v
  rw [hmore]
  exact skipSpace_cons (not_isSpace_of_opens hc) _

theorem endsNumeral_newLine (level : Nat) (t : Text) : EndsNumeral (newLine level ++ t) := by
  intro c hc
  cases hc
  decide

/-! ### Values -/

/-- What reading gives within some levels of lists and objects. -/
inductive Readable : Nat → Json → Prop
  | null {levels : Nat} : Readable levels null
  | bool {levels : Nat} (b : Bool) : Readable levels (bool b)
  | int {levels : Nat} {n : Int} (h : decimalLength n.natAbs ≤ integerDigitLimit) :
    Readable levels (int n)
  | float {levels : Nat} {x : Floating} (h : IsDouble x) : Readable levels (float x)
  | text {levels : Nat} (t : Text) : Readable levels (text t)
  | array {levels : Nat} {items : List Json} (h : ∀ v ∈ items, Readable levels v) :
    Readable (levels + 1) (array items)
  | object {levels : Nat} {fields : List (Text × Json)} (keys : (fields.map Prod.fst).Nodup)
    (h : ∀ entry ∈ fields, Readable levels entry.2) : Readable (levels + 1) (object fields)

theorem Readable.mono {levels levels' : Nat} {v : Json} (h : Readable levels v)
    (hle : levels ≤ levels') : Readable levels' v := by
  induction h generalizing levels' with
  | null => exact .null
  | bool b => exact .bool b
  | int hn => exact .int hn
  | float hx => exact .float hx
  | text t => exact .text t
  | array _ ih =>
    obtain ⟨levels', rfl⟩ := Nat.exists_eq_succ_of_ne_zero (show levels' ≠ 0 by omega)
    exact .array fun v hv => ih v hv (by omega)
  | object keys _ ih =>
    obtain ⟨levels', rfl⟩ := Nat.exists_eq_succ_of_ne_zero (show levels' ≠ 0 by omega)
    exact .object keys fun entry hentry => ih entry hentry (by omega)

/-- Reading gives back what was written for the value, whatever follows it. -/
def ReadsBack (levels level : Nat) (v : Json) : Prop :=
  ∀ fuel rest, 2 * (writeAt level v).length ≤ fuel → EndsNumeral rest →
    readValue fuel levels (writeAt level v ++ rest) = .ok (v, rest)

theorem readValue_scalar {fuel levels : Nat} {found : Json × Text} (hfuel : 0 < fuel)
    (h : readScalar t = .ok found) : readValue fuel levels t = .ok found := by
  obtain ⟨fuel, rfl⟩ := Nat.exists_eq_succ_of_ne_zero hfuel.ne'
  cases t with
  | nil => cases h
  | cons c more =>
    have hrefused (mark : CodePoint) (hmark : readScalar (mark :: more) =
        failAt .expectedValue (mark :: more)) : c ≠ mark := by
      rintro rfl
      rw [hmark] at h
      cases h
    rw [readValue]
    dsimp only
    rw [if_neg (hrefused '"' rfl), if_neg (hrefused '\x7b' rfl), if_neg (hrefused '[' rfl)]
    exact h

theorem endsNumeral_comma (t : Text) : EndsNumeral ((',' : CodePoint) :: t) := by
  intro c hc
  cases hc
  decide

/-- The items from one of them on, with the closing bracket behind them. -/
theorem readItems_write {levels level : Nat} (outer : Nat) {items : List Json} (item : Json)
    (h : ∀ v ∈ item :: items, ReadsBack levels level v) (rest : Text) {fuel : Nat}
    (hfuel : 2 * ((writeAt level item).length + (writeItems level items).length) < fuel) :
    readItems fuel levels (writeAt level item ++ (writeItems level items ++ (newLine outer ++
      (']' : CodePoint) :: rest))) = .ok (item :: items, rest) := by
  induction items generalizing item fuel with
  | nil =>
    obtain ⟨fuel, rfl⟩ := Nat.exists_eq_succ_of_ne_zero (Nat.ne_zero_of_lt hfuel)
    have hitem := h item List.mem_cons_self fuel (newLine outer ++ (']' : CodePoint) :: rest)
      (by omega) (endsNumeral_newLine outer _)
    rw [readItems, writeItems, List.nil_append]
    refine bind_ok.mpr ⟨_, hitem, ?_⟩
    dsimp only
    rw [skipSpace_newLine, skipSpace_cons rfl]
    rfl
  | cons next items ih =>
    obtain ⟨fuel, rfl⟩ := Nat.exists_eq_succ_of_ne_zero (Nat.ne_zero_of_lt hfuel)
    have hlength : (writeItems level (next :: items)).length = 1 + (newLine level).length +
        (writeAt level next).length + (writeItems level items).length := by
      simp only [writeItems, List.length_append]
      rfl
    have hitems := ih next (fun v hv => h v (List.mem_cons_of_mem item hv))
      (show 2 * ((writeAt level next).length + (writeItems level items).length) < fuel by omega)
    have htext : writeItems level (next :: items) ++ (newLine outer ++ (']' : CodePoint) :: rest) =
        (',' : CodePoint) :: (newLine level ++ (writeAt level next ++ (writeItems level items ++
          (newLine outer ++ (']' : CodePoint) :: rest)))) := by
      simp only [writeItems, List.append_assoc]
      rfl
    rw [readItems, htext]
    refine bind_ok.mpr ⟨_, h item List.mem_cons_self fuel _ (by omega) (endsNumeral_comma _), ?_⟩
    dsimp only
    rw [skipSpace_cons rfl]
    dsimp only
    rw [if_neg (by decide), if_pos rfl, skipSpace_newLine, skipSpace_value]
    exact bind_ok.mpr ⟨_, hitems, rfl⟩

/-- One entry, and either the closing brace behind it or a comma and the entries that follow. -/
theorem readFields_entry {fuel levels level : Nat} {found : List (Text × Json)} {key more : Text}
    {value : Json} {result : List (Text × Json) × Text}
    (hvalue : readValue fuel levels (writeAt level value ++ more) = .ok (value, more))
    (hmore : (∃ rest, skipSpace more = ('\x7d' : CodePoint) :: rest ∧
        (insert key value found, rest) = result) ∨
      ∃ after, skipSpace more = (',' : CodePoint) :: after ∧
        readFields fuel levels (insert key value found) (skipSpace after) = .ok result) :
    readFields (fuel + 1) levels found (writeText key ++ ((':' : CodePoint) :: ' ' ::
      (writeAt level value ++ more))) = .ok result := by
  have htext : writeText key ++ ((':' : CodePoint) :: ' ' :: (writeAt level value ++ more)) =
      ('"' : CodePoint) :: (key.flatMap escapeOne ++ ('"' : CodePoint) :: ':' :: ' ' ::
        (writeAt level value ++ more)) := by
    simp only [writeText, List.append_assoc]
    rfl
  have hblank : skipSpace ((' ' : CodePoint) :: (writeAt level value ++ more)) =
      writeAt level value ++ more := skipSpace_value level value more
  rw [htext, readFields]
  dsimp only
  rw [if_pos rfl]
  refine bind_ok.mpr ⟨_, readText_write key, ?_⟩
  dsimp only
  rw [skipSpace_cons rfl]
  dsimp only
  rw [if_pos rfl, hblank]
  refine bind_ok.mpr ⟨_, hvalue, ?_⟩
  dsimp only
  rcases hmore with ⟨rest, hclose, hresult⟩ | ⟨after, hcomma, hfields⟩
  · rw [hclose]
    exact congrArg Except.ok hresult
  · rw [hcomma]
    dsimp only
    rw [if_neg (by decide), if_pos rfl]
    exact hfields

/-- The entries from one of them on, with the closing brace behind them. -/
theorem readFields_write {levels level : Nat} (outer : Nat) {fields : List (Text × Json)}
    (key : Text) (value : Json)
    (h : ∀ entry ∈ (key, value) :: fields, ReadsBack levels level entry.2)
    (found : List (Text × Json)) (rest : Text) {fuel : Nat}
    (hfuel : 2 * ((writeText key).length + (writeAt level value).length +
      (writeFields level fields).length) < fuel) :
    readFields fuel levels found (writeText key ++ ((':' : CodePoint) :: ' ' ::
      (writeAt level value ++ (writeFields level fields ++ (newLine outer ++
        ('\x7d' : CodePoint) :: rest))))) =
        .ok (overlay found ((key, value) :: fields), rest) := by
  induction fields generalizing key value found fuel with
  | nil =>
    obtain ⟨fuel, rfl⟩ := Nat.exists_eq_succ_of_ne_zero (Nat.ne_zero_of_lt hfuel)
    have hvalue := h (key, value) List.mem_cons_self fuel
      (newLine outer ++ ('\x7d' : CodePoint) :: rest) (by dsimp only; omega)
      (endsNumeral_newLine outer _)
    rw [writeFields, List.nil_append]
    refine readFields_entry hvalue (.inl ⟨rest, ?_, rfl⟩)
    rw [skipSpace_newLine, skipSpace_cons rfl]
  | cons next fields ih =>
    obtain ⟨fuel, rfl⟩ := Nat.exists_eq_succ_of_ne_zero (Nat.ne_zero_of_lt hfuel)
    obtain ⟨key', value'⟩ := next
    have hlength : (writeFields level ((key', value') :: fields)).length =
        1 + (newLine level).length + (writeText key').length + 2 +
          (writeAt level value').length + (writeFields level fields).length := by
      simp only [writeFields, List.length_append]
      rfl
    have hfields := ih key' value' (fun v hv => h v (List.mem_cons_of_mem _ hv))
      (insert key value found)
      (show 2 * ((writeText key').length + (writeAt level value').length +
        (writeFields level fields).length) < fuel by omega)
    have htext : writeFields level ((key', value') :: fields) ++
        (newLine outer ++ ('\x7d' : CodePoint) :: rest) =
        (',' : CodePoint) :: (newLine level ++ (writeText key' ++ ((':' : CodePoint) :: ' ' ::
          (writeAt level value' ++ (writeFields level fields ++ (newLine outer ++
            ('\x7d' : CodePoint) :: rest)))))) := by
      simp only [writeFields, List.append_assoc]
      rfl
    have hvalue := h (key, value) List.mem_cons_self fuel (writeFields level ((key', value') ::
      fields) ++ (newLine outer ++ ('\x7d' : CodePoint) :: rest)) (by dsimp only; omega)
      (htext ▸ endsNumeral_comma _)
    refine readFields_entry hvalue (.inr ⟨_, (congrArg skipSpace htext).trans
      (skipSpace_cons rfl _), ?_⟩)
    rw [skipSpace_newLine, skipSpace_key]
    exact hfields

theorem insert_of_fresh {key : Text} {fields : List (Text × Json)}
    (h : key ∉ fields.map Prod.fst) (value : Json) :
    insert key value fields = fields ++ [(key, value)] := by
  induction fields with
  | nil => rfl
  | cons entry fields ih =>
    rw [List.map_cons, List.mem_cons, not_or] at h
    rw [insert, if_neg (Ne.symm h.1), ih h.2]
    rfl

theorem overlay_of_fresh {base upper : List (Text × Json)}
    (h : ((base ++ upper).map Prod.fst).Nodup) : overlay base upper = base ++ upper := by
  induction upper generalizing base with
  | nil => exact (List.append_nil base).symm
  | cons entry upper ih =>
    obtain ⟨key, value⟩ := entry
    have hfresh : key ∉ base.map Prod.fst := by
      rw [List.map_append, List.nodup_append] at h
      intro hmem
      exact h.2.2 key hmem key List.mem_cons_self rfl
    show overlay (insert key value base) upper = _
    rw [insert_of_fresh hfresh, ih (by rwa [List.append_assoc]), List.append_assoc]
    rfl

/-- A list of entries is read with the later of two equal keys in place of the earlier one. -/
theorem readValue_object {levels level : Nat} {fields : List (Text × Json)}
    (h : ∀ entry ∈ fields, ReadsBack levels (level + 1) entry.2) {fuel : Nat} (rest : Text)
    (hfuel : 2 * (writeAt level (object fields)).length ≤ fuel) :
    readValue fuel (levels + 1) (writeAt level (object fields) ++ rest) =
      .ok (object (overlay [] fields), rest) := by
  have hlength := writeAt_length_pos level (object fields)
  obtain ⟨fuel, rfl⟩ := Nat.exists_eq_succ_of_ne_zero (show fuel ≠ 0 by omega)
  cases fields with
  | nil =>
    show readValue (fuel + 1) (levels + 1) ('\x7b' :: '\x7d' :: rest) = _
    rw [readValue]
    rfl
  | cons entry fields =>
    obtain ⟨key, value⟩ := entry
    have htext : writeAt level (object ((key, value) :: fields)) ++ rest =
        ('\x7b' : CodePoint) :: (newLine (level + 1) ++ (writeText key ++ ((':' : CodePoint) ::
          ' ' :: (writeAt (level + 1) value ++ (writeFields (level + 1) fields ++
            (newLine level ++ ('\x7d' : CodePoint) :: rest)))))) := by
      simp only [writeAt, List.append_assoc]
      rfl
    have hparts : (writeText key).length + (writeAt (level + 1) value).length +
        (writeFields (level + 1) fields).length <
          (writeAt level (object ((key, value) :: fields))).length := by
      simp only [writeAt, List.length_append]
      have hbrace : ("\x7b" : Text).length = 1 := rfl
      omega
    have hfields := readFields_write level key value h [] rest
      (show 2 * ((writeText key).length + (writeAt (level + 1) value).length +
        (writeFields (level + 1) fields).length) < fuel by omega)
    rw [htext, readValue]
    dsimp only
    rw [if_neg (by decide), if_pos rfl, if_neg (Nat.succ_ne_zero levels), skipSpace_newLine,
      skipSpace_key, Nat.add_sub_cancel]
    exact bind_ok.mpr ⟨_, hfields, rfl⟩

theorem readValue_array {levels level : Nat} {items : List Json}
    (h : ∀ v ∈ items, ReadsBack levels (level + 1) v) {fuel : Nat} (rest : Text)
    (hfuel : 2 * (writeAt level (array items)).length ≤ fuel) :
    readValue fuel (levels + 1) (writeAt level (array items) ++ rest) =
      .ok (array items, rest) := by
  have hlength := writeAt_length_pos level (array items)
  obtain ⟨fuel, rfl⟩ := Nat.exists_eq_succ_of_ne_zero (show fuel ≠ 0 by omega)
  cases items with
  | nil =>
    show readValue (fuel + 1) (levels + 1) ('[' :: ']' :: rest) = _
    rw [readValue]
    rfl
  | cons item items =>
    have htext : writeAt level (array (item :: items)) ++ rest =
        ('[' : CodePoint) :: (newLine (level + 1) ++ (writeAt (level + 1) item ++
          (writeItems (level + 1) items ++ (newLine level ++ (']' : CodePoint) :: rest)))) := by
      simp only [writeAt, List.append_assoc]
      rfl
    have hparts : (writeAt (level + 1) item).length + (writeItems (level + 1) items).length <
        (writeAt level (array (item :: items))).length := by
      simp only [writeAt, List.length_append]
      have hbracket : ("[" : Text).length = 1 := rfl
      omega
    have hitems := readItems_write level item h rest
      (show 2 * ((writeAt (level + 1) item).length + (writeItems (level + 1) items).length) < fuel
        by omega)
    obtain ⟨c, more, hmore, hopens⟩ := writeAt_head (level + 1) item
    have hc : c ≠ ']' := by
      rintro rfl
      exact absurd hopens (by decide)
    rw [htext, readValue]
    dsimp only
    rw [if_neg (by decide), if_neg (by decide), if_pos rfl, if_neg (Nat.succ_ne_zero levels),
      skipSpace_newLine, skipSpace_value, Nat.add_sub_cancel]
    rw [hmore] at hitems ⊢
    dsimp only [List.cons_append]
    rw [if_neg hc]
    exact bind_ok.mpr ⟨_, hitems, rfl⟩

theorem readsBack_of_readable {levels : Nat} {v : Json} (h : Readable levels v) (level : Nat) :
    ReadsBack levels level v := by
  induction h generalizing level with
  | null =>
    intro fuel rest hfuel hrest
    have hlength := writeAt_length_pos level .null
    exact readValue_scalar (by omega) rfl
  | bool b =>
    intro fuel rest hfuel hrest
    have hlength := writeAt_length_pos level (.bool b)
    cases b <;> exact readValue_scalar (by omega) rfl
  | @int _ n hn =>
    intro fuel rest hfuel hrest
    have hlength := writeAt_length_pos level (.int n)
    exact readValue_scalar (by omega) (readScalar_int hn hrest)
  | @float _ x hx =>
    intro fuel rest hfuel hrest
    have hlength := writeAt_length_pos level (.float x)
    exact readValue_scalar (by omega) (readScalar_float hx hrest)
  | text t =>
    intro fuel rest hfuel hrest
    have hlength := writeAt_length_pos level (.text t)
    obtain ⟨fuel, rfl⟩ := Nat.exists_eq_succ_of_ne_zero (show fuel ≠ 0 by omega)
    have htext : writeAt level (.text t) ++ rest =
        ('"' : CodePoint) :: (t.flatMap escapeOne ++ ('"' : CodePoint) :: rest) := by
      simp only [writeAt, writeText, List.append_assoc]
      rfl
    rw [htext, readValue]
    dsimp only
    rw [if_pos rfl]
    exact bind_ok.mpr ⟨_, readText_write t, rfl⟩
  | array _ ih =>
    intro fuel rest hfuel _
    exact readValue_array (fun v hv => ih v hv (level + 1)) rest hfuel
  | @object _ fields keys _ ih =>
    intro fuel rest hfuel _
    have hread := readValue_object (fun entry hentry => ih entry hentry (level + 1)) rest hfuel
    have hkeys : (([] ++ fields).map Prod.fst).Nodup := keys
    rwa [overlay_of_fresh hkeys, List.nil_append] at hread

/-! ### Documents -/

theorem parse_of_readValue {depth : Nat} {v w : Json} (h : ∀ fuel, 2 * (write v).length ≤ fuel →
    readValue fuel depth (write v ++ []) = .ok (w, [])) : parse depth (write v) = .ok w := by
  obtain ⟨c, more, hmore, hopens⟩ := writeAt_head 0 v
  have hmark : ¬(write v).head?.any (·.val == 0xfeff) = true := by
    have hlt := opens_lt hopens
    show ¬(writeAt 0 v).head?.any (·.val == 0xfeff) = true
    rw [hmore]
    simp only [List.head?_cons, Option.any_some, beq_iff_eq]
    omega
  have hblank : skipSpace (write v) = write v ++ [] := by
    rw [List.append_nil]
    show skipSpace (writeAt 0 v) = writeAt 0 v
    rw [hmore]
    exact skipSpace_cons (not_isSpace_of_opens hopens) more
  unfold parse
  rw [if_neg hmark, mapError_ok]
  unfold readWholeText
  rw [hblank]
  exact bind_ok.mpr ⟨_, h _ (by omega), rfl⟩

theorem parse_write {depth : Nat} {v : Json} (h : Readable depth v) :
    parse depth (write v) = .ok v :=
  parse_of_readValue fun fuel hfuel => readsBack_of_readable h 0 fuel [] hfuel nofun

theorem parse_write_object {levels : Nat} {fields : List (Text × Json)}
    (h : ∀ entry ∈ fields, Readable levels entry.2) :
    parse (levels + 1) (write (.object fields)) = .ok (.object (overlay [] fields)) := by
  refine parse_of_readValue fun fuel hfuel => ?_
  exact readValue_object (fun entry hentry => readsBack_of_readable (h entry hentry) 1) [] hfuel

end NavDirections.Json
