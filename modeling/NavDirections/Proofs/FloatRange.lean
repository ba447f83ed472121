import NavDirections.Proofs.Initializers
import NavDirections.Proofs.NearestNumbers

/-!
# The range of floating-point defaults

A default is read as a double, which is checked for single precision and written anew.  The number
in the default and the one in the literal stay within the range of single precision, and neither is
lost to zero unless the default is too small for a double: then it is taken for zero without a
check.
-/

namespace NavDirections

variable {f : BinaryFormat} {q : ℚ} {x : Dyadic}

namespace BinaryFormat

/-- The rational is rounded to a number that is not past the largest of the format. -/
def Holds (f : BinaryFormat) (q : ℚ) : Prop := ∃ x, f.Rounds q x ∧ x.exponent ≤ f.greatest

def Vanishes (f : BinaryFormat) (q : ℚ) : Prop := ∃ x, f.Rounds q x ∧ x.mantissa = 0

theorem holds_iff (hp : 1 < f.precision) (hf : f.least ≤ f.greatest) (hq : 0 ≤ q) :
    f.Holds q ↔ 2 * q < f.last.value + f.beyond.value := by
  constructor
  · rintro ⟨x, hx, hle⟩
    exact (hx.le_greatest_iff (by omega) hf).mp hle
  · intro h
    obtain ⟨x, hx, -⟩ := existsUnique_rounds hp hq
    exact ⟨x, hx, (hx.le_greatest_iff (by omega) hf).mpr h⟩

theorem vanishes_iff (hp : 1 < f.precision) (hq : 0 ≤ q) :
    f.Vanishes q ↔ 2 * q ≤ 2 ^ f.least := by
  constructor
  · rintro ⟨x, hx, hzero⟩
    exact (hx.mantissa_eq_zero_iff hp hq).mp hzero
  · exact fun h => ⟨_, rounds_zero hq h, rfl⟩

end BinaryFormat

namespace Literal

theorem fitsSingle_iff : fitsSingle x = true ↔
    binary32.Holds x.value ∧ (binary32.Vanishes x.value → x.mantissa = 0) := by
  have hround (y : Dyadic) : binary32.round? x.ratio.1 x.ratio.2 = some y ↔
      binary32.Rounds x.value y ∧ y.exponent ≤ binary32.greatest := by
    rw [BinaryFormat.round?_eq_some_iff (by decide) (by decide) x.ratio_den_pos, x.ratio_value]
  unfold fitsSingle
  cases hsingle : binary32.round? x.ratio.1 x.ratio.2 with
  | none =>
    refine iff_of_false nofun ?_
    rintro ⟨⟨y, hy⟩, -⟩
    rw [(hround y).mpr hy] at hsingle
    cases hsingle
  | some y =>
    have hy := (hround y).mp hsingle
    have hvanishes : binary32.Vanishes x.value ↔ y.mantissa = 0 := by
      constructor
      · rintro ⟨z, hz, hzero⟩
        rwa [hy.1.unique hz (by decide) x.value_nonneg]
      · exact fun hzero => ⟨y, hy.1, hzero⟩
    rw [hvanishes]
    simp only [Bool.or_eq_true, beq_iff_eq, bne_iff_ne, ne_eq]
    rw [and_iff_right ⟨y, hy⟩]
    tauto

/-- The middle between the largest number of single precision and the next one is a double, so that
a number keeps to its side of it when it is rounded to a double. -/
theorem holds_of_double (h : binary64.Rounds q x) (hq : 0 ≤ q) (hx : binary32.Holds x.value) :
    binary32.Holds q := by
  have hmiddle : binary64.Admits ⟨(2 ^ 25 - 1) * 2 ^ 28, 75⟩ := ⟨by decide, by decide, by decide⟩
  have hvalue : 2 * Dyadic.value ⟨(2 ^ 25 - 1) * 2 ^ 28, 75⟩ =
      binary32.last.value + binary32.beyond.value := by
    rw [BinaryFormat.last_value, BinaryFormat.beyond_value (by decide)]
    norm_num [Dyadic.value, binary32]
  rw [BinaryFormat.holds_iff (by decide) (by decide) x.value_nonneg, ← hvalue] at hx
  rw [BinaryFormat.holds_iff (by decide) (by decide) hq, ← hvalue]
  by_contra hlarge
  linarith [h.le_value hmiddle (by linarith)]

theorem vanishes_double (h : binary64.Rounds q x) (hq : 0 ≤ q) (hvanishes : binary32.Vanishes q) :
    binary32.Vanishes x.value := by
  have hhalf : binary64.Admits ⟨2 ^ 52, -202⟩ := ⟨by decide, by decide, by decide⟩
  have hvalue : 2 * Dyadic.value ⟨2 ^ 52, -202⟩ = 2 ^ binary32.least := by
    norm_num [Dyadic.value, binary32]
  rw [BinaryFormat.vanishes_iff (by decide) hq, ← hvalue] at hvanishes
  rw [BinaryFormat.vanishes_iff (by decide) x.value_nonneg, ← hvalue]
  linarith [h.value_le hhalf (by linarith)]

/-! ### Literals -/

theorem float_ok {value text : Text} {type : ArgumentType} (h : float value type = .ok text) :
    ∃ negative d x, Decimal.scan? (dropSuffix 'f' 'F' value) = some (negative, d) ∧
      binary64.ofDecimal? d = some x ∧ fitsSingle x = true ∧
      text = (Floating.finite negative x).text ++ "F" := by
  unfold float at h
  split at h
  · cases h
  next negative d hscan =>
    unfold Floating.ofDecimal at h
    cases hdouble : binary64.ofDecimal? d with
    | none =>
      rw [hdouble] at h
      cases h
    | some x =>
      rw [hdouble] at h
      dsimp only at h
      split at h
      next hfits =>
        cases h
        exact ⟨negative, d, x, hscan, hdouble, hfits, rfl⟩
      · cases h

theorem signed_text (negative : Bool) (x : Dyadic) : (Floating.finite negative x).text =
    (if negative then ("-" : Text) else []) ++ x.shortest.text := by
  cases negative with
  | false => rfl
  | true => rfl

/-- A number read as an accepted double is in the range of single precision, and it is lost to zero
only where the double is zero. -/
theorem accepted_double {d : Decimal} (hdouble : binary64.ofDecimal? d = some x)
    (hfits : fitsSingle x = true) :
    binary32.Holds d.value ∧ (binary32.Vanishes d.value → x.mantissa = 0) := by
  have hrounds := BinaryFormat.rounds_of_ofDecimal? (by decide) (by decide) (by decide) hdouble
  obtain ⟨hholds, hzero⟩ := fitsSingle_iff.mp hfits
  exact ⟨holds_of_double hrounds d.value_nonneg hholds,
    fun hvanishes => hzero (vanishes_double hrounds d.value_nonneg hvanishes)⟩

theorem zero_double_iff {d : Decimal} (hdouble : binary64.ofDecimal? d = some x) :
    x.mantissa = 0 ↔ d.value ≤ 2 ^ (-1075 : ℤ) := by
  have hrounds := BinaryFormat.rounds_of_ofDecimal? (by decide) (by decide) (by decide) hdouble
  have htwice : (2 : ℚ) ^ binary64.least = 2 * 2 ^ (-1075 : ℤ) := by
    rw [← two_zpow_succ]
    rfl
  rw [hrounds.mantissa_eq_zero_iff (by decide) d.value_nonneg, htwice]
  constructor
  · intro h
    linarith
  · intro h
    linarith

end Literal

/-- The number in an accepted default and the one in its literal are within the range of single
precision.  Neither is lost to zero, unless the default is so small that it is read as zero. -/
theorem ArgumentType.float_stays_in_range {value applicationId text : Text}
    (h : ArgumentType.literal ⟨.float, false, []⟩ (.text value) applicationId = .ok text) :
    ∃ negative d body written,
      Decimal.scan? (Literal.dropSuffix 'f' 'F' value) = some (negative, d) ∧
      text = (if negative then ("-" : Text) else []) ++ body ++ "F" ∧ Denotes body written ∧
      binary32.Holds d.value ∧ binary32.Holds written.value ∧
      ((binary32.Vanishes d.value → d.value = 0) ∧ (binary32.Vanishes written.value → d.value = 0) ↔
        ¬(0 < d.value ∧ d.value ≤ 2 ^ (-1075 : ℤ))) := by
  replace h : Literal.float value _ = .ok text := h
  obtain ⟨negative, d, x, hscan, hdouble, hfits, rfl⟩ := Literal.float_ok h
  obtain ⟨written, hwritten, hvalue⟩ := denotes_text x.shortest
  have hshortest : binary64.ofDecimal? x.shortest = some x :=
    Dyadic.ofDecimal?_shortest (BinaryFormat.has_of_ofDecimal? (by decide) (by decide) hdouble)
  obtain ⟨hholds, hlost⟩ := Literal.accepted_double hdouble hfits
  obtain ⟨hholds', hlost'⟩ := Literal.accepted_double hshortest hfits
  refine ⟨negative, d, _, written, hscan, by rw [Literal.signed_text], hwritten, hholds, ?_, ?_⟩
  · rwa [hvalue]
  · rw [hvalue]
    have hsmall := Literal.zero_double_iff hdouble
    have hnonneg := d.value_nonneg
    constructor
    · rintro ⟨hzero, -⟩ ⟨hpos, htiny⟩
      -- What a double takes for zero is far below the least number of single precision.
      have hvanishes : binary32.Vanishes d.value := by
        rw [BinaryFormat.vanishes_iff (by decide) hnonneg]
        have hbound : (2 : ℚ) ^ (-1075 + 1 : ℤ) ≤ 2 ^ binary32.least := two_zpow_le.mpr (by decide)
        rw [two_zpow_succ] at hbound
        linarith
      exact hpos.ne' (hzero hvanishes)
    · intro hnot
      have hzero (hx : x.mantissa = 0) : d.value = 0 := by
        by_contra hne
        exact hnot ⟨lt_of_le_of_ne hnonneg (Ne.symm hne), hsmall.mp hx⟩
      exact ⟨fun hvanishes => hzero (hlost hvanishes), fun hvanishes => hzero (hlost' hvanishes)⟩

/-- A tenth is kept, with its own digits. -/
theorem ArgumentType.tenth_stays_in_range :
    ArgumentType.literal ⟨.float, false, []⟩ (.text "0.1f") [] = .ok "0.1F" ∧
      binary32.Holds (Decimal.value ⟨1, -1⟩) ∧ ¬binary32.Vanishes (Decimal.value ⟨1, -1⟩) := by
  have hliteral : ArgumentType.literal ⟨.float, false, []⟩ (.text "0.1f") [] = .ok "0.1F" :=
    Success.of_toOption (by decide +kernel)
  have hread : Decimal.scan? (Literal.dropSuffix 'f' 'F' "0.1f") = some (false, ⟨1, -1⟩) := by
    decide +kernel
  obtain ⟨negative, d, body, written, hscan, -, -, hholds, -, hlost⟩ :=
    float_stays_in_range hliteral
  rw [hread] at hscan
  cases hscan
  have hlarge : ¬Decimal.value ⟨1, -1⟩ ≤ 2 ^ (-1075 : ℤ) := by
    have hbound : (2 : ℚ) ^ (-1075 : ℤ) < 2 ^ (-4 : ℤ) := two_zpow_lt.mpr (by decide)
    have hvalue : (2 : ℚ) ^ (-4 : ℤ) < Decimal.value ⟨1, -1⟩ := by norm_num [Decimal.value]
    exact not_le.mpr (hbound.trans hvalue)
  refine ⟨hliteral, hholds, fun hvanishes => ?_⟩
  have hzero := (hlost.mpr fun h => hlarge h.2).1 hvanishes
  exact absurd (Decimal.digits_eq_zero.mpr hzero) (by decide)

/-- A number that is too small even for a double is taken for zero. -/
theorem ArgumentType.tiny_float_becomes_zero :
    ArgumentType.literal ⟨.float, false, []⟩ (.text "1e-400") [] = .ok "0.0F" ∧
      Decimal.scan? (Literal.dropSuffix 'f' 'F' "1e-400") = some (false, ⟨1, -400⟩) ∧
      Decimal.value ⟨1, -400⟩ ≠ 0 ∧ binary32.Vanishes (Decimal.value ⟨1, -400⟩) := by
  refine ⟨Success.of_toOption (by decide +kernel), by decide +kernel, ?_, ?_⟩
  · intro hzero
    exact absurd (Decimal.digits_eq_zero.mpr hzero) (by decide)
  · have hvalue : Decimal.value ⟨1, -400⟩ ≤ 2 ^ (-400 : ℤ) := by
      rw [Decimal.value, Nat.cast_one, one_mul]
      exact ten_zpow_le_two_zpow (by decide)
    have hbound : (2 : ℚ) ^ (-400 + 1 : ℤ) ≤ 2 ^ binary32.least := two_zpow_le.mpr (by decide)
    rw [two_zpow_succ] at hbound
    rw [BinaryFormat.vanishes_iff (by decide) (Decimal.value_nonneg _)]
    linarith

end NavDirections
