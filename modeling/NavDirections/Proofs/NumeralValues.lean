import NavDirections.Proofs.NumeralForms
import NavDirections.Proofs.Rounding
import Mathlib.Data.List.TakeWhile

/-!
# Values of numerals

The numerals that decimals are written as denote decimals of the same value: the text of a decimal
moves the point and drops zeros, but the number stays.  Floating-point defaults become such numerals,
with their suffix.
-/

namespace NavDirections

variable {t u : Text}

theorem CodePoint.IsDigit.isAsciiDigit {c : CodePoint} (h : c.IsDigit 10) :
    c.isAsciiDigit = true := by
  obtain ⟨d, hd, hlt⟩ := h
  unfold hexValue? at hd
  split at hd
  next hdigit => exact hdigit
  next =>
    split at hd
    next hletter =>
      simp only [Bool.and_eq_true, decide_eq_true_eq] at hletter
      have := Option.some.inj hd
      omega
    next =>
      split at hd
      next hletter =>
        simp only [Bool.and_eq_true, decide_eq_true_eq] at hletter
        have := Option.some.inj hd
        omega
      next => cases hd

theorem CodePoint.IsDigit.value {c : CodePoint} (h : c.IsDigit 10) :
    c.hexValue?.getD 0 = c.val - 0x30 := by
  unfold hexValue?
  rw [if_pos h.isAsciiDigit]
  rfl

theorem IsDigits.isDecimal (h : IsDigits 10 t) (hhead : t.head? ≠ some ('0' : CodePoint)) :
    IsDecimal t := by
  refine ⟨h, fun rest hrest => ?_⟩
  rw [hrest] at hhead
  exact absurd rfl hhead

theorem IsDecimal.head_ne_zero (h : IsDecimal t) (hvalue : digitsValue 10 t ≠ 0) :
    t.head? ≠ some ('0' : CodePoint) := by
  intro hhead
  obtain ⟨more, hmore⟩ := List.head?_eq_some_iff.mp hhead
  rw [hmore, h.leading more hmore] at hvalue
  exact hvalue rfl

namespace Decimal

theorem ofDigits_append (ds es : List Nat) :
    ofDigits 10 (ds ++ es) = ofDigits 10 ds * 10 ^ es.length + ofDigits 10 es := by
  induction es using List.reverseRecOn with
  | nil => simp [ofDigits]
  | append_singleton es e ih =>
    have hlast (ds : List Nat) : ofDigits 10 (ds ++ [e]) = ofDigits 10 ds * 10 + e := by
      simp [ofDigits]
    rw [← List.append_assoc, hlast, hlast, ih, List.length_append, List.length_singleton,
      Nat.pow_succ]
    ring

theorem ofDigits_zeros (ds : List Nat) (count : Nat) :
    ofDigits 10 (ds ++ List.replicate count 0) = ofDigits 10 ds * 10 ^ count := by
  have hzeros : ofDigits 10 (List.replicate count 0) = 0 := by
    induction count with
    | zero => rfl
    | succ count ih => simpa [List.replicate_succ, ofDigits] using ih
  rw [ofDigits_append, hzeros, List.length_replicate, Nat.add_zero]

theorem ofDigits_leading (count : Nat) (ds : List Nat) :
    ofDigits 10 (List.replicate count 0 ++ ds) = ofDigits 10 ds := by
  have hzeros := ofDigits_zeros [] count
  rw [List.nil_append] at hzeros
  rw [ofDigits_append, hzeros]
  simp [ofDigits]

def places (t : Text) : List Nat := t.map (·.val - 0x30)

theorem ofDigits_places (h : ∀ c ∈ t, c.IsDigit 10) :
    ofDigits 10 (places t) = digitsValue 10 t := by
  unfold digitsValue places
  congr 1
  apply List.map_congr_left
  intro c hc
  exact (h c hc).value.symm

@[simp]
theorem places_append (t u : Text) : places (t ++ u) = places t ++ places u := List.map_append

@[simp]
theorem length_places (t : Text) : (places t).length = t.length := List.length_map _

theorem digitsValue_zeros (t : Text) (count : Nat) :
    digitsValue 10 (t ++ List.replicate count ('0' : CodePoint)) =
      digitsValue 10 t * 10 ^ count := by
  unfold digitsValue
  rw [List.map_append, List.map_replicate]
  exact ofDigits_zeros _ count

theorem digitsValue_leading (count : Nat) (t : Text) :
    digitsValue 10 (List.replicate count ('0' : CodePoint) ++ t) = digitsValue 10 t := by
  unfold digitsValue
  rw [List.map_append, List.map_replicate]
  exact ofDigits_leading count _

theorem length_toDigits (n : Nat) : (Nat.toDigits 10 n).length = (Text.ofNat n).length :=
  (List.length_map _).symm

theorem trimZeros_value (d : Decimal) : d.trimZeros.value = d.value := by
  obtain ⟨n, e⟩ := d
  have hvalue : ofDigits 10 ((Nat.toDigits 10 n).map (·.toNat - 0x30)) = n := by
    have h := (ofDigits_places (ofNat_isDecimal n).digit).trans (digitsValue_ofNat n)
    rwa [places, Text.ofNat, List.map_map] at h
  unfold trimZeros
  dsimp only
  generalize hdigits : Nat.toDigits 10 n = digits at hvalue
  set zeros := (digits.reverse.takeWhile (· == '0')).reverse with hzeros
  set kept := (digits.reverse.dropWhile (· == '0')).reverse with hkept
  have hsplit : digits = kept ++ zeros := by
    rw [hkept, hzeros, ← List.reverse_append, List.takeWhile_append_dropWhile, List.reverse_reverse]
  have hall : zeros = List.replicate zeros.length '0' := by
    refine List.eq_replicate_of_mem fun c hc => ?_
    have hmem := List.mem_reverse.mp (hzeros ▸ hc)
    simpa using List.mem_takeWhile_imp hmem
  have hn : n = ofDigits 10 (kept.map (·.toNat - 0x30)) * 10 ^ zeros.length := by
    rw [hsplit, hall, List.map_append, List.map_replicate] at hvalue
    have hshift := ofDigits_zeros (kept.map (·.toNat - 0x30)) zeros.length
    rw [← hshift]
    simpa using hvalue.symm
  split
  next hnone =>
    have hzero : n = 0 := by
      rw [hn, List.isEmpty_iff.mp hnone]
      exact Nat.zero_mul _
    exact (digits_eq_zero.mp rfl).trans (digits_eq_zero.mp hzero).symm
  next =>
    have hcount : digits.length - kept.length = zeros.length := by
      rw [hsplit, List.length_append]
      omega
    have hshift := value_shift (ofDigits 10 (kept.map (·.toNat - 0x30))) zeros.length
      (e + zeros.length)
    rw [← hn, Int.add_sub_cancel] at hshift
    rw [hcount]
    exact hshift.symm

end Decimal

inductive IsPowerOf : Text → Int → Prop
  | plus {digits : Text} (h : IsDigits 10 digits) :
    IsPowerOf ('e' :: '+' :: digits) (digitsValue 10 digits)
  | minus {digits : Text} (h : IsDigits 10 digits) :
    IsPowerOf ('e' :: '-' :: digits) (-digitsValue 10 digits)

/-- A numeral with a fraction or a power of ten, and the decimal that it denotes. -/
inductive Denotes : Text → Decimal → Prop
  | point {whole fraction : Text} (hwhole : IsDecimal whole) (hfraction : IsDigits 10 fraction) :
    Denotes (whole ++ ('.' : CodePoint) :: fraction)
      ⟨digitsValue 10 (whole ++ fraction), -fraction.length⟩
  | power {whole tail : Text} {e : Int} (hwhole : IsDecimal whole) (hend : IsPowerOf tail e) :
    Denotes (whole ++ tail) ⟨digitsValue 10 whole, e⟩
  | both {whole fraction tail : Text} {e : Int} (hwhole : IsDecimal whole)
    (hfraction : IsDigits 10 fraction) (hend : IsPowerOf tail e) :
    Denotes (whole ++ ('.' : CodePoint) :: (fraction ++ tail))
      ⟨digitsValue 10 (whole ++ fraction), e - fraction.length⟩

theorem isPowerOf_mark (n : Int) (zeros : Nat) :
    IsPowerOf ((if n < 0 then ("e-" : Text) else "e+") ++
      (List.replicate zeros ('0' : CodePoint) ++ Text.ofNat n.natAbs)) n := by
  have hdigits : IsDigits 10 (List.replicate zeros ('0' : CodePoint) ++ Text.ofNat n.natAbs) :=
    .append (Literal.zeros_isDigit zeros) (ofNat_isDecimal n.natAbs).toIsDigits
  have hvalue : digitsValue 10 (List.replicate zeros ('0' : CodePoint) ++ Text.ofNat n.natAbs) =
      n.natAbs := by
    rw [Decimal.digitsValue_leading, digitsValue_ofNat]
  split
  next hneg =>
    have hminus := IsPowerOf.minus hdigits
    rw [hvalue, Int.ofNat_natAbs_of_nonpos hneg.le, Int.neg_neg] at hminus
    exact hminus
  next hpos =>
    have hplus := IsPowerOf.plus hdigits
    rw [hvalue, Int.natAbs_of_nonneg (not_lt.mp hpos)] at hplus
    exact hplus

theorem isDecimal_zero : IsDecimal ("0" : Text) := ofNat_isDecimal 0

/-- Zeros before the digits change neither the number nor the place of the point. -/
theorem denotes_leading (n count : Nat) :
    Denotes (("0." : Text) ++ List.replicate count ('0' : CodePoint) ++ Text.ofNat n)
      ⟨n, -(count + (Text.ofNat n).length : Int)⟩ := by
  have hfraction : IsDigits 10 (List.replicate count ('0' : CodePoint) ++ Text.ofNat n) :=
    .append (Literal.zeros_isDigit count) (ofNat_isDecimal n).toIsDigits
  have hvalue : digitsValue 10 (("0" : Text) ++
      (List.replicate count ('0' : CodePoint) ++ Text.ofNat n)) = n :=
    (Decimal.digitsValue_leading (count + 1) (Text.ofNat n)).trans (digitsValue_ofNat n)
  have hlength : (List.replicate count ('0' : CodePoint) ++ Text.ofNat n).length =
      count + (Text.ofNat n).length := by
    rw [List.length_append, List.length_replicate]
  have h := Denotes.point isDecimal_zero hfraction
  rw [hvalue, hlength] at h
  rw [List.append_assoc]
  exact h

/-- Zeros up to the point and the one behind it make the number longer by as many places. -/
theorem denotes_trailing {n : Nat} (hn : n ≠ 0) (count : Nat) :
    Denotes (Text.ofNat n ++ List.replicate count ('0' : CodePoint) ++ (".0" : Text))
      ⟨n * 10 ^ (count + 1), count - (count + 1 : Nat)⟩ := by
  have hdecimal := ofNat_isDecimal n
  have hwhole : IsDecimal (Text.ofNat n ++ List.replicate count ('0' : CodePoint)) := by
    refine (hdecimal.append_right (Literal.zeros_isDigit count)).isDecimal ?_
    rw [List.head?_append_of_ne_nil _ hdecimal.ne_nil]
    exact hdecimal.head_ne_zero (by rwa [digitsValue_ofNat])
  have hlast : List.replicate count ('0' : CodePoint) ++ ("0" : Text) =
      List.replicate (count + 1) ('0' : CodePoint) :=
    List.replicate_succ'.symm
  have hvalue : digitsValue 10 (Text.ofNat n ++ List.replicate count ('0' : CodePoint) ++
      ("0" : Text)) = n * 10 ^ (count + 1) := by
    rw [List.append_assoc, hlast, Decimal.digitsValue_zeros, digitsValue_ofNat]
  have hexponent : -(("0" : Text).length : Int) = count - (count + 1 : Nat) := by
    have hone : ("0" : Text).length = 1 := rfl
    omega
  have h := Denotes.point hwhole isDecimal_zero.toIsDigits
  rwa [hvalue, hexponent] at h

theorem denotes_inside {n : Nat} (hn : n ≠ 0) {place : Nat} (hplace : 0 < place)
    (hlength : place < (Text.ofNat n).length) :
    Denotes ((Text.ofNat n).take place ++ ("." : Text) ++ (Text.ofNat n).drop place)
      ⟨n, place - (Text.ofNat n).length⟩ := by
  have hdecimal := ofNat_isDecimal n
  have hwhole : IsDecimal ((Text.ofNat n).take place) := by
    refine (hdecimal.take hplace).isDecimal ?_
    rw [List.head?_take, if_neg hplace.ne']
    exact hdecimal.head_ne_zero (by rwa [digitsValue_ofNat])
  have hexponent : -(((Text.ofNat n).drop place).length : Int) =
      place - (Text.ofNat n).length := by
    rw [List.length_drop]
    omega
  have h := Denotes.point hwhole (hdecimal.drop hlength)
  rw [List.take_append_drop, digitsValue_ofNat, hexponent] at h
  rw [List.append_assoc]
  exact h

/-- One digit, the others behind a point if there are any, and a power of ten. -/
theorem denotes_scientific {n : Nat} (hn : n ≠ 0) {tail : Text} {e : Int}
    (hend : IsPowerOf tail e) :
    Denotes ((Text.ofNat n).take 1 ++
      (if ((Text.ofNat n).length : Int) = 1 then [] else ("." : Text) ++ (Text.ofNat n).drop 1) ++
      tail) ⟨n, e + 1 - (Text.ofNat n).length⟩ := by
  have hdecimal := ofNat_isDecimal n
  have hpositive : 0 < (Text.ofNat n).length := List.length_pos_of_ne_nil hdecimal.ne_nil
  split
  next hone =>
    have hshort : (Text.ofNat n).take 1 = Text.ofNat n := List.take_of_length_le (by omega)
    have hexponent : e + 1 - (Text.ofNat n).length = e := by omega
    have h := Denotes.power hdecimal hend
    rw [digitsValue_ofNat] at h
    rwa [hshort, hexponent, List.append_nil]
  next hmany =>
    have hwhole : IsDecimal ((Text.ofNat n).take 1) := by
      refine (hdecimal.take Nat.one_pos).isDecimal ?_
      rw [List.head?_take, if_neg Nat.one_ne_zero]
      exact hdecimal.head_ne_zero (by rwa [digitsValue_ofNat])
    have hexponent : e - (((Text.ofNat n).drop 1).length : Int) =
        e + 1 - (Text.ofNat n).length := by
      rw [List.length_drop]
      omega
    have h := Denotes.both hwhole (hdecimal.drop (show 1 < _ by omega)) hend
    rw [List.take_append_drop, digitsValue_ofNat, hexponent] at h
    rw [List.append_assoc, List.append_assoc]
    exact h

/-- The text of a decimal denotes a decimal of its value, in point notation or with a power. -/
theorem denotes_text (d : Decimal) :
    ∃ written, Denotes d.text written ∧ written.value = d.value := by
  rw [← d.trimZeros_value]
  unfold Decimal.text
  dsimp only
  generalize d.trimZeros = e
  obtain ⟨n, x⟩ := e
  dsimp only
  split
  next hn =>
    have hzero := Denotes.point isDecimal_zero isDecimal_zero.toIsDigits
    exact ⟨_, hzero, (Decimal.digits_eq_zero.mp rfl).trans (Decimal.digits_eq_zero.mp hn).symm⟩
  next hn =>
  split
  next hpoint =>
    refine ⟨_, denotes_leading n _, ?_⟩
    congr 2
    omega
  split
  next hpoint =>
    split
    next hcount =>
      refine ⟨_, denotes_trailing hn _, ?_⟩
      rw [Decimal.value_shift]
      congr 2
      omega
    next hcount =>
      refine ⟨_, denotes_inside hn (by omega) (by omega), ?_⟩
      congr 2
      omega
  next hfar =>
    have hend := isPowerOf_mark ((Text.ofNat n).length + x - 1)
      (2 - (Text.ofNat ((Text.ofNat n).length + x - 1 : Int).natAbs).length : Int).toNat
    refine ⟨⟨n, x⟩, ?_, rfl⟩
    have h := denotes_scientific hn hend
    have hexponent : ((Text.ofNat n).length + x - 1 : Int) + 1 - (Text.ofNat n).length = x := by
      omega
    rw [hexponent] at h
    simp only [List.append_assoc] at h ⊢
    exact h

/-! ### Literals -/

theorem IsPowerOf.isPower {tail : Text} {e : Int} (h : IsPowerOf tail e) :
    Literal.IsPower tail := by
  cases h with
  | plus hdigits => exact .inr ⟨'+', _, rfl, .inl rfl, hdigits⟩
  | minus hdigits => exact .inr ⟨'-', _, rfl, .inr rfl, hdigits⟩

theorem Denotes.isFloating {d : Decimal} (h : Denotes t d) : Literal.IsFloating t := by
  cases h with
  | point hwhole hfraction => exact .pointed hwhole.toIsDigits hfraction
  | power hwhole htail =>
    have hparts := Literal.IsFloating.parts hwhole.toIsDigits (.inl rfl) htail.isPower
    rwa [List.append_nil] at hparts
  | both hwhole hfraction htail =>
    have hparts :=
      Literal.IsFloating.parts hwhole.toIsDigits (.inr ⟨_, rfl, hfraction⟩) htail.isPower
    rwa [List.append_assoc] at hparts

namespace Literal

theorem decimal_text_isFloating (d : Decimal) : IsFloating d.text := by
  obtain ⟨written, hwritten, -⟩ := denotes_text d
  exact hwritten.isFloating

theorem floating_text (negative : Bool) (x : Dyadic) :
    ∃ sign body, (Floating.finite negative x).text = sign ++ body ∧
      (sign = [] ∨ sign = ("-" : Text)) ∧ IsFloating body := by
  unfold Floating.text
  cases negative with
  | false => exact ⟨[], _, rfl, .inl rfl, decimal_text_isFloating x.shortest⟩
  | true => exact ⟨"-", _, rfl, .inr rfl, decimal_text_isFloating x.shortest⟩

/-- What a floating-point default becomes is a numeral with its suffix. -/
theorem float_form {value text : Text} {type : ArgumentType} (h : float value type = .ok text) :
    ∃ sign body, text = sign ++ body ++ ("F" : Text) ∧ (sign = [] ∨ sign = ("-" : Text)) ∧
      IsFloating body := by
  unfold float at h
  split at h
  · cases h
  · split at h
    next negative x _ =>
      split at h
      · cases h
        obtain ⟨sign, body, htext, hsign, hbody⟩ := floating_text negative x
        exact ⟨sign, body, by rw [htext], hsign, hbody⟩
      · cases h
    · cases h

end Literal
end NavDirections
