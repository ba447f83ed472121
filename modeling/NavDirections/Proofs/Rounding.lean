import NavDirections.Number.Shortest
import Mathlib.Algebra.Order.Field.Power
import Mathlib.Data.Nat.Log
import Mathlib.Data.Rat.Cast.Order
import Mathlib.Tactic.FieldSimp
import Mathlib.Tactic.Linarith
import Mathlib.Tactic.NormNum
import Mathlib.Tactic.Positivity
import Mathlib.Tactic.Ring

/-!
# Rounding to a binary format

The double that a decimal is read as depends on the value of the decimal alone.  A number of the
format is rounded to itself, so all its digits read back as the number, and with them the shortest
decimal that is written for it.
-/

namespace NavDirections

def Dyadic.value (x : Dyadic) : ℚ := x.mantissa * 2 ^ x.exponent

def Decimal.value (d : Decimal) : ℚ := d.digits * 10 ^ d.exponent

theorem zpow_of_nonneg {b : ℚ} {e : ℤ} (h : 0 ≤ e) : b ^ e = b ^ e.toNat := by
  rw [← zpow_natCast, Int.toNat_of_nonneg h]

theorem zpow_of_neg {b : ℚ} {e : ℤ} (h : ¬0 ≤ e) : b ^ e = (b ^ (-e).toNat)⁻¹ := by
  rw [← zpow_natCast, Int.toNat_of_nonneg (by omega), zpow_neg, inv_inv]

theorem Decimal.ratio_den_pos (d : Decimal) : 0 < d.ratio.2 := by
  unfold ratio
  split
  · exact Nat.one_pos
  · exact Nat.pow_pos (by decide)

theorem Decimal.ratio_value (d : Decimal) : (d.ratio.1 : ℚ) / d.ratio.2 = d.value := by
  unfold ratio value
  split
  next h => simp [zpow_of_nonneg h]
  next h => simp [zpow_of_neg h, div_eq_mul_inv]

theorem Dyadic.ratio_den_pos (x : Dyadic) : 0 < x.ratio.2 := by
  unfold ratio
  split
  · exact Nat.one_pos
  · exact Nat.pow_pos (by decide)

theorem Dyadic.ratio_value (x : Dyadic) : (x.ratio.1 : ℚ) / x.ratio.2 = x.value := by
  unfold ratio value
  split
  next h => simp [zpow_of_nonneg h]
  next h => simp [zpow_of_neg h, div_eq_mul_inv]

theorem Decimal.value_nonneg (d : Decimal) : 0 ≤ d.value := by
  unfold value
  positivity

theorem Dyadic.value_nonneg (x : Dyadic) : 0 ≤ x.value := by
  unfold value
  positivity

variable {num den num' den' : Nat}

theorem scaleDown_den_pos (e : Int) (num : Nat) (hden : 0 < den) :
    0 < (scaleDown e num den).2 := by
  unfold scaleDown
  split
  · exact Nat.mul_pos hden (Nat.pow_pos (by decide))
  · exact hden

theorem scaleDown_value (e : Int) (num den : Nat) :
    ((scaleDown e num den).1 : ℚ) / (scaleDown e num den).2 = (num : ℚ) / den / 2 ^ e := by
  unfold scaleDown
  split
  next h => simp [zpow_of_nonneg h, div_div]
  next h =>
    simp only [zpow_of_neg h, div_inv_eq_mul, Nat.pow_eq]
    push_cast
    ring

theorem cross_of_value (hden : 0 < den) (hden' : 0 < den')
    (h : (num : ℚ) / den = (num' : ℚ) / den') : num * den' = num' * den := by
  have hd : (den : ℚ) ≠ 0 := by positivity
  have hd' : (den' : ℚ) ≠ 0 := by positivity
  have hcross := (div_eq_div_iff hd hd').mp h
  exact_mod_cast hcross

theorem div_eq_of_cross (hden : 0 < den) (hden' : 0 < den') (h : num * den' = num' * den) :
    num / den = num' / den' := by
  have hleft : num / den = num * den' / (den * den') := (Nat.mul_div_mul_right num den hden').symm
  have hright : num' / den' = num' * den / (den' * den) := (Nat.mul_div_mul_right num' den' hden).symm
  rw [hleft, hright, h, Nat.mul_comm den den']

theorem mod_of_cross (hden : 0 < den) (hden' : 0 < den') (h : num * den' = num' * den) :
    num % den * den' = num' % den' * den := by
  have hsame := div_eq_of_cross hden hden' h
  have hsplit := congrArg (· * den') (Nat.div_add_mod num den)
  have hsplit' := congrArg (· * den) (Nat.div_add_mod num' den')
  simp only [Nat.add_mul] at hsplit hsplit'
  rw [← hsame] at hsplit'
  have hwhole : den * (num / den) * den' = den' * (num / den) * den := by ring
  omega

theorem roundDiv_of_cross (hden : 0 < den) (hden' : 0 < den') (h : num * den' = num' * den) :
    roundDiv num den = roundDiv num' den' := by
  have hsame := div_eq_of_cross hden hden' h
  have hrest := mod_of_cross hden hden' h
  have hlt : den < 2 * (num % den) ↔ den' < 2 * (num' % den') := by
    constructor
    · intro hlt
      have hscaled : den * den' < 2 * (num % den) * den' := (Nat.mul_lt_mul_right hden').mpr hlt
      rw [Nat.mul_assoc, hrest, ← Nat.mul_assoc, Nat.mul_comm den den'] at hscaled
      exact (Nat.mul_lt_mul_right hden).mp hscaled
    · intro hlt
      have hscaled : den' * den < 2 * (num' % den') * den := (Nat.mul_lt_mul_right hden).mpr hlt
      rw [Nat.mul_assoc, ← hrest, ← Nat.mul_assoc, Nat.mul_comm den' den] at hscaled
      exact (Nat.mul_lt_mul_right hden').mp hscaled
  have heq : 2 * (num % den) = den ↔ 2 * (num' % den') = den' := by
    constructor
    · intro heq
      have hscaled : 2 * (num % den) * den' = den * den' := by rw [heq]
      rw [Nat.mul_assoc, hrest, ← Nat.mul_assoc, Nat.mul_comm den den'] at hscaled
      exact Nat.eq_of_mul_eq_mul_right hden hscaled
    · intro heq
      have hscaled : 2 * (num' % den') * den = den' * den := by rw [heq]
      rw [Nat.mul_assoc, ← hrest, ← Nat.mul_assoc, Nat.mul_comm den' den] at hscaled
      exact Nat.eq_of_mul_eq_mul_right hden' hscaled
  unfold roundDiv
  simp only [hsame, hlt, heq]

theorem roundDiv_mul (m : Nat) (hden : 0 < den) : roundDiv (m * den) den = m := by
  have hdiv : m * den / den = m := Nat.mul_div_cancel m hden
  have hmod : m * den % den = 0 := Nat.mul_mod_left m den
  unfold roundDiv
  rw [hdiv, hmod]
  exact if_neg (by omega)

theorem le_roundDiv {m : Nat} (hden : 0 < den) (h : m * den ≤ num) : m ≤ roundDiv num den := by
  have hdiv : m ≤ num / den := (Nat.le_div_iff_mul_le hden).mpr h
  unfold roundDiv
  dsimp only
  split <;> omega

theorem roundDiv_le {m : Nat} (hden : 0 < den) (h : num < m * den) : roundDiv num den ≤ m := by
  have hdiv : num / den < m := (Nat.div_lt_iff_lt_mul hden).mpr h
  unfold roundDiv
  dsimp only
  split <;> omega

theorem two_zpow_pos (e : ℤ) : (0 : ℚ) < 2 ^ e := by positivity

theorem two_zpow_succ (e : ℤ) : (2 : ℚ) ^ (e + 1) = 2 * 2 ^ e := by
  rw [zpow_add_one₀ (by norm_num), mul_comm]

theorem log2_bounds {n : Nat} (h : 0 < n) :
    (2 : ℚ) ^ (n.log2 : ℤ) ≤ n ∧ (n : ℚ) < 2 ^ ((n.log2 : ℤ) + 1) := by
  have hlow : 2 ^ n.log2 ≤ n := Nat.log2_self_le (by omega)
  have hhigh : n < 2 ^ (n.log2 + 1) := Nat.lt_log2_self
  constructor
  · exact_mod_cast hlow
  · exact_mod_cast hhigh

theorem floorLog2_bounds (hnum : 0 < num) (hden : 0 < den) :
    (2 : ℚ) ^ floorLog2 num den ≤ (num : ℚ) / den ∧
      (num : ℚ) / den < 2 ^ (floorLog2 num den + 1) := by
  obtain ⟨hnumLow, hnumHigh⟩ := log2_bounds hnum
  obtain ⟨hdenLow, hdenHigh⟩ := log2_bounds hden
  have hdenPos : (0 : ℚ) < den := by exact_mod_cast hden
  have hnumPos : (0 : ℚ) < num := by exact_mod_cast hnum
  set e : ℤ := (num.log2 : ℤ) - den.log2 with he
  have hlow : (2 : ℚ) ^ (e - 1) ≤ (num : ℚ) / den := by
    rw [le_div_iff₀ hdenPos]
    calc (2 : ℚ) ^ (e - 1) * den ≤ 2 ^ (e - 1) * 2 ^ ((den.log2 : ℤ) + 1) := by gcongr
      _ = 2 ^ (num.log2 : ℤ) := by
        rw [← zpow_add₀ (by norm_num)]
        congr 1
        omega
      _ ≤ num := hnumLow
  have hhigh : (num : ℚ) / den < 2 ^ (e + 1) := by
    rw [div_lt_iff₀ hdenPos]
    calc (num : ℚ) < 2 ^ ((num.log2 : ℤ) + 1) := hnumHigh
      _ = 2 ^ (e + 1) * 2 ^ (den.log2 : ℤ) := by
        rw [← zpow_add₀ (by norm_num)]
        congr 1
        omega
      _ ≤ 2 ^ (e + 1) * den := by gcongr
  have hscaled := scaleDown_value e num den
  have hscaledPos := scaleDown_den_pos e num hden
  have hcompare : (scaleDown e num den).2 ≤ (scaleDown e num den).1 ↔
      (2 : ℚ) ^ e ≤ (num : ℚ) / den := by
    have hd : (0 : ℚ) < (scaleDown e num den).2 := by exact_mod_cast hscaledPos
    have hcast : (scaleDown e num den).2 ≤ (scaleDown e num den).1 ↔
        ((scaleDown e num den).2 : ℚ) ≤ (scaleDown e num den).1 := Nat.cast_le.symm
    rw [hcast, ← one_le_div hd, hscaled, one_le_div (two_zpow_pos e)]
  have hfloor : floorLog2 num den =
      if (scaleDown e num den).2 ≤ (scaleDown e num den).1 then e else e - 1 := rfl
  rw [hfloor]
  split
  next h => exact ⟨hcompare.mp h, hhigh⟩
  next h =>
    have hbelow : (num : ℚ) / den < 2 ^ e := not_le.mp fun hle => h (hcompare.mpr hle)
    exact ⟨hlow, by rwa [Int.sub_add_cancel]⟩

theorem two_zpow_lt {a b : ℤ} : (2 : ℚ) ^ a < 2 ^ b ↔ a < b :=
  zpow_lt_zpow_iff_right₀ (by norm_num)

theorem two_zpow_le {a b : ℤ} : (2 : ℚ) ^ a ≤ 2 ^ b ↔ a ≤ b :=
  zpow_le_zpow_iff_right₀ (by norm_num)

theorem floorLog2_eq (hnum : 0 < num) (hden : 0 < den) {e : ℤ}
    (hlow : (2 : ℚ) ^ e ≤ (num : ℚ) / den) (hhigh : (num : ℚ) / den < 2 ^ (e + 1)) :
    floorLog2 num den = e := by
  obtain ⟨hlow', hhigh'⟩ := floorLog2_bounds hnum hden
  have hle := two_zpow_lt.mp (hlow'.trans_lt hhigh)
  have hge := two_zpow_lt.mp (hlow.trans_lt hhigh')
  omega

theorem floorLog2_congr (hnum : 0 < num) (hden : 0 < den) (hnum' : 0 < num') (hden' : 0 < den')
    (h : (num : ℚ) / den = (num' : ℚ) / den') : floorLog2 num den = floorLog2 num' den' := by
  obtain ⟨hlow, hhigh⟩ := floorLog2_bounds hnum' hden'
  rw [← h] at hlow hhigh
  exact floorLog2_eq hnum hden hlow hhigh

theorem decimalLength_le_iff {n k : Nat} (hk : 0 < k) : decimalLength n ≤ k ↔ n < 10 ^ k :=
  Nat.length_toDigits_le_iff (by decide) hk

theorem decimalLength_pos (n : Nat) : 0 < decimalLength n := Nat.length_toDigits_pos

theorem decimalLength_bounds {n : Nat} (h : 0 < n) :
    10 ^ (decimalLength n - 1) ≤ n ∧ n < 10 ^ decimalLength n := by
  have hpos := decimalLength_pos n
  refine ⟨?_, (decimalLength_le_iff hpos).mp le_rfl⟩
  rcases Nat.lt_or_ge 1 (decimalLength n) with hlong | hshort
  · refine not_lt.mp fun hlt => ?_
    have := (decimalLength_le_iff (by omega)).mpr hlt
    omega
  · have hone : decimalLength n - 1 = 0 := by omega
    rw [hone]
    exact h

theorem Decimal.value_bounds {d : Decimal} (h : 0 < d.digits) :
    (10 : ℚ) ^ ((decimalLength d.digits : ℤ) + d.exponent - 1) ≤ d.value ∧
      d.value < 10 ^ ((decimalLength d.digits : ℤ) + d.exponent) := by
  obtain ⟨hlow, hhigh⟩ := decimalLength_bounds h
  have hpos := decimalLength_pos d.digits
  have hten : (0 : ℚ) < 10 ^ d.exponent := by positivity
  have hcount : (decimalLength d.digits : ℤ) + d.exponent - 1 =
      ((decimalLength d.digits - 1 : ℕ) : ℤ) + d.exponent := by omega
  have hlow' : ((10 ^ (decimalLength d.digits - 1) : ℕ) : ℚ) ≤ d.digits := by exact_mod_cast hlow
  have hhigh' : (d.digits : ℚ) < ((10 ^ decimalLength d.digits : ℕ) : ℚ) := by exact_mod_cast hhigh
  unfold Decimal.value
  rw [hcount, zpow_add₀ (by norm_num), zpow_add₀ (by norm_num), zpow_natCast, zpow_natCast]
  push_cast at hlow' hhigh'
  exact ⟨(mul_le_mul_iff_left₀ hten).mpr hlow', (mul_lt_mul_iff_left₀ hten).mpr hhigh'⟩

/-- Below one, a power of ten lies below the power of two of the same exponent. -/
theorem ten_zpow_le_two_zpow {e : ℤ} (h : e ≤ 0) : (10 : ℚ) ^ e ≤ 2 ^ e := by
  obtain ⟨k, rfl⟩ := Int.exists_eq_neg_ofNat h
  rw [zpow_neg, zpow_neg, zpow_natCast, zpow_natCast]
  gcongr
  norm_num

theorem ten_zpow_lt {a b : ℤ} : (10 : ℚ) ^ a < 10 ^ b ↔ a < b :=
  zpow_lt_zpow_iff_right₀ (by norm_num)

theorem Decimal.digits_eq_zero {d : Decimal} : d.digits = 0 ↔ d.value = 0 := by
  have hten : (10 : ℚ) ^ d.exponent ≠ 0 := by positivity
  rw [value, mul_eq_zero_iff_right hten, Nat.cast_eq_zero]

theorem Decimal.value_shift (n k : Nat) (e : Int) :
    Decimal.value ⟨n * 10 ^ k, e - k⟩ = Decimal.value ⟨n, e⟩ := by
  unfold Decimal.value
  have hten : (10 : ℚ) ≠ 0 := by norm_num
  push_cast
  rw [zpow_sub₀ hten, zpow_natCast]
  field_simp

/-- A number as the format has it: the mantissa fits, and is as long as it can be unless the exponent
is the least one. -/
structure BinaryFormat.Has (f : BinaryFormat) (x : Dyadic) : Prop where
  least_le : f.least ≤ x.exponent
  le_greatest : x.exponent ≤ f.greatest
  fits : x.mantissa < 2 ^ f.precision
  normal : x.exponent = f.least ∨ 2 ^ (f.precision - 1) ≤ x.mantissa

/-- A number as the format would have it if exponents could be arbitrarily large. -/
structure BinaryFormat.Admits (f : BinaryFormat) (x : Dyadic) : Prop where
  least_le : f.least ≤ x.exponent
  fits : x.mantissa < 2 ^ f.precision
  normal : x.exponent = f.least ∨ 2 ^ (f.precision - 1) ≤ x.mantissa

namespace BinaryFormat

variable {f : BinaryFormat}

theorem Has.admits {x : Dyadic} (h : f.Has x) : f.Admits x := ⟨h.least_le, h.fits, h.normal⟩

theorem Admits.has {x : Dyadic} (h : f.Admits x) (hle : x.exponent ≤ f.greatest) : f.Has x :=
  ⟨h.least_le, hle, h.fits, h.normal⟩

/-- The exponent at which a quotient is cut off. -/
def cutOff (f : BinaryFormat) (num den : Nat) : Int :=
  max f.least (floorLog2 num den - (f.precision - 1))

/-- The number with a rounded mantissa, which may have grown by one bit. -/
def carried (f : BinaryFormat) (m : Nat) (e : Int) : Dyadic :=
  if m = Nat.pow 2 f.precision then ⟨Nat.pow 2 (f.precision - 1), e + 1⟩ else ⟨m, e⟩

/-- The mantissa that a quotient is rounded to at its cut-off. -/
def cutMantissa (f : BinaryFormat) (num den : Nat) : Nat :=
  let e := f.cutOff num den
  roundDiv (scaleDown e num den).1 (scaleDown e num den).2

def nearest (f : BinaryFormat) (num den : Nat) : Dyadic :=
  f.carried (f.cutMantissa num den) (f.cutOff num den)

theorem round?_eq (hnum : 0 < num) : f.round? num den =
    if f.greatest < (f.nearest num den).exponent then none else some (f.nearest num den) := by
  rw [round?, if_neg (by omega)]
  rfl

theorem round?_congr (hden : 0 < den) (hden' : 0 < den')
    (h : (num : ℚ) / den = (num' : ℚ) / den') : f.round? num den = f.round? num' den' := by
  have hcross := cross_of_value hden hden' h
  rcases Nat.eq_zero_or_pos num with hzero | hnum
  · have hzero' : num' = 0 := by
      rw [hzero, Nat.zero_mul] at hcross
      exact (Nat.mul_eq_zero.mp hcross.symm).resolve_right (by omega)
    rw [hzero, hzero']
    rfl
  · have hnum' : 0 < num' := by
      rcases Nat.eq_zero_or_pos num' with hzero | hpos
      · rw [hzero, Nat.zero_mul] at hcross
        have := Nat.mul_pos hnum hden'
        omega
      · exact hpos
    have hcut : f.cutOff num den = f.cutOff num' den' := by
      rw [cutOff, cutOff, floorLog2_congr hnum hden hnum' hden' h]
    have hvalues := scaleDown_value (f.cutOff num' den') num den
    rw [h, ← scaleDown_value (f.cutOff num' den') num' den'] at hvalues
    have hpos := scaleDown_den_pos (f.cutOff num' den') num hden
    have hpos' := scaleDown_den_pos (f.cutOff num' den') num' hden'
    have hround : f.cutMantissa num den = f.cutMantissa num' den' := by
      unfold cutMantissa
      rw [hcut]
      exact roundDiv_of_cross hpos hpos' (cross_of_value hpos hpos' hvalues)
    have hnearest : f.nearest num den = f.nearest num' den' := by
      rw [nearest, nearest, hcut, hround]
    rw [round?_eq hnum, round?_eq hnum', hnearest]

theorem two_pow_precision (hp : 0 < f.precision) :
    2 ^ f.precision = 2 * 2 ^ (f.precision - 1) := by
  rw [← Nat.pow_succ']
  congr 1
  omega

theorem Admits.value_lt {x : Dyadic} (h : f.Admits x) :
    x.value < 2 ^ (x.exponent + f.precision) := by
  have hfits : (x.mantissa : ℚ) < 2 ^ (f.precision : ℤ) := by exact_mod_cast h.fits
  rw [Dyadic.value, add_comm, zpow_add₀ (by norm_num)]
  exact (mul_lt_mul_iff_left₀ (two_zpow_pos x.exponent)).mpr hfits

theorem le_value_of_long {x : Dyadic} (hp : 0 < f.precision)
    (hlong : 2 ^ (f.precision - 1) ≤ x.mantissa) :
    (2 : ℚ) ^ (x.exponent + (f.precision - 1)) ≤ x.value := by
  have hlong' : ((2 ^ (f.precision - 1) : ℕ) : ℚ) ≤ x.mantissa := by exact_mod_cast hlong
  have hcast : ((2 ^ (f.precision - 1) : ℕ) : ℚ) = 2 ^ ((f.precision : ℤ) - 1) := by
    have hcount : (f.precision : ℤ) - 1 = ((f.precision - 1 : ℕ) : ℤ) := by omega
    rw [hcount]
    norm_cast
  rw [hcast] at hlong'
  rw [Dyadic.value, add_comm, zpow_add₀ (by norm_num)]
  exact (mul_le_mul_iff_left₀ (two_zpow_pos x.exponent)).mpr hlong'

theorem Has.cutOff_eq {x : Dyadic} (h : f.Has x) (hp : 0 < f.precision) (hnum : 0 < num)
    (hden : 0 < den) (hvalue : (num : ℚ) / den = x.value) : f.cutOff num den = x.exponent := by
  obtain ⟨hlow, hhigh⟩ := floorLog2_bounds hnum hden
  have hupper := two_zpow_lt.mp ((hlow.trans_eq hvalue).trans_lt h.admits.value_lt)
  have hleast := h.least_le
  unfold cutOff
  rcases h.normal with hexponent | hlong
  · omega
  · have hfull := le_value_of_long hp hlong
    have hlower := two_zpow_lt.mp (hfull.trans_lt (hvalue.symm.trans_lt hhigh))
    omega

theorem Has.round? {x : Dyadic} (h : f.Has x) (hp : 0 < f.precision) (hden : 0 < den)
    (hvalue : (num : ℚ) / den = x.value) (hmantissa : 0 < x.mantissa) :
    f.round? num den = some x := by
  have hpositive : 0 < x.value := by
    have hm : (0 : ℚ) < x.mantissa := by exact_mod_cast hmantissa
    exact mul_pos hm (two_zpow_pos x.exponent)
  have hnum : 0 < num := by
    rcases Nat.eq_zero_or_pos num with hzero | hpos
    · rw [hzero, Nat.cast_zero, zero_div] at hvalue
      exact absurd hvalue hpositive.ne
    · exact hpos
  have hcut := h.cutOff_eq hp hnum hden hvalue
  have hscaled := scaleDown_value x.exponent num den
  have hpos := scaleDown_den_pos x.exponent num hden
  have hround : f.cutMantissa num den = x.mantissa := by
    have hquotient : ((scaleDown x.exponent num den).1 : ℚ) / (scaleDown x.exponent num den).2 =
        ((x.mantissa * 1 : ℕ) : ℚ) / (1 : ℕ) := by
      rw [hscaled, hvalue, Dyadic.value, mul_div_assoc, div_self (two_zpow_pos x.exponent).ne']
      simp
    unfold cutMantissa
    rw [hcut, roundDiv_of_cross hpos Nat.one_pos (cross_of_value hpos Nat.one_pos hquotient)]
    exact roundDiv_mul x.mantissa Nat.one_pos
  have hfits : x.mantissa ≠ Nat.pow 2 f.precision := h.fits.ne
  have hnearest : f.nearest num den = x := by
    rw [nearest, hround, hcut, carried, if_neg hfits]
  rw [round?_eq hnum, hnearest, if_neg (not_lt.mpr h.le_greatest)]

theorem cutMantissa_le (hnum : 0 < num) (hden : 0 < den) :
    f.cutMantissa num den ≤ 2 ^ f.precision := by
  obtain ⟨-, hhigh⟩ := floorLog2_bounds hnum hden
  have hpos := scaleDown_den_pos (f.cutOff num den) num hden
  have hposCast : (0 : ℚ) < (scaleDown (f.cutOff num den) num den).2 := by exact_mod_cast hpos
  have hbelow : (num : ℚ) / den / 2 ^ f.cutOff num den < 2 ^ (f.precision : ℤ) := by
    rw [div_lt_iff₀ (two_zpow_pos _), ← zpow_add₀ (by norm_num)]
    refine hhigh.trans_le (two_zpow_le.mpr ?_)
    have hcut := le_max_right f.least (floorLog2 num den - (f.precision - 1))
    rw [← cutOff] at hcut
    omega
  rw [← scaleDown_value, div_lt_iff₀ hposCast] at hbelow
  exact roundDiv_le hpos (by exact_mod_cast hbelow)

theorem le_cutMantissa (hp : 0 < f.precision) (hnum : 0 < num) (hden : 0 < den) :
    f.cutOff num den = f.least ∨ 2 ^ (f.precision - 1) ≤ f.cutMantissa num den := by
  rcases eq_or_lt_of_le (le_max_left f.least (floorLog2 num den - (f.precision - 1))) with heq | hlt
  · exact .inl heq.symm
  · right
    obtain ⟨hlow, -⟩ := floorLog2_bounds hnum hden
    have hpos := scaleDown_den_pos (f.cutOff num den) num hden
    have hposCast : (0 : ℚ) < (scaleDown (f.cutOff num den) num den).2 := by exact_mod_cast hpos
    have hexponent : f.cutOff num den = floorLog2 num den - (f.precision - 1) := by
      unfold cutOff
      omega
    have habove : (2 : ℚ) ^ ((f.precision : ℤ) - 1) ≤ (num : ℚ) / den / 2 ^ f.cutOff num den := by
      rw [le_div_iff₀ (two_zpow_pos _), ← zpow_add₀ (by norm_num)]
      refine (two_zpow_le.mpr ?_).trans hlow
      omega
    have hcount : (f.precision : ℤ) - 1 = ((f.precision - 1 : ℕ) : ℤ) := by omega
    rw [← scaleDown_value, le_div_iff₀ hposCast, hcount] at habove
    exact le_roundDiv hpos (by exact_mod_cast habove)

theorem admits_zero (f : BinaryFormat) : f.Admits ⟨0, f.least⟩ :=
  ⟨le_rfl, Nat.pow_pos (by decide), .inl rfl⟩

theorem admits_nearest (hp : 0 < f.precision) (hnum : 0 < num) (hden : 0 < den) :
    f.Admits (f.nearest num den) := by
  have hleast : f.least ≤ f.cutOff num den := le_max_left _ _
  have hgrown : 2 ^ (f.precision - 1) < 2 ^ f.precision := by
    have htwice := two_pow_precision hp
    have := Nat.pow_pos (n := f.precision - 1) (show 0 < 2 by decide)
    omega
  unfold nearest carried
  split
  next hcarry => exact ⟨by dsimp only; omega, hgrown, .inr le_rfl⟩
  next hcarry =>
    exact ⟨hleast, lt_of_le_of_ne (cutMantissa_le hnum hden) hcarry, le_cutMantissa hp hnum hden⟩

theorem has_of_round? {x : Dyadic} (hp : 0 < f.precision) (hf : f.least ≤ f.greatest)
    (hden : 0 < den) (h : f.round? num den = some x) : f.Has x := by
  rcases Nat.eq_zero_or_pos num with hzero | hnum
  · rw [BinaryFormat.round?, if_pos hzero] at h
    rw [← Option.some.inj h]
    exact (admits_zero f).has hf
  rw [round?_eq hnum] at h
  split at h
  · cases h
  next hgreatest =>
    rw [← Option.some.inj h]
    exact (admits_nearest hp hnum hden).has (not_lt.mp hgreatest)

/-! ### Decimals -/

theorem ofDecimal?_of_zero {d : Decimal} (h : d.digits = 0) : f.ofDecimal? d = some ⟨0, f.least⟩ := by
  rw [ofDecimal?, if_pos (.inl h)]

theorem ofDecimal?_congr {d d' : Decimal} (h : d.value = d'.value) :
    f.ofDecimal? d = f.ofDecimal? d' := by
  rcases Nat.eq_zero_or_pos d.digits with hzero | hpos
  · have hzero' := Decimal.digits_eq_zero.mpr (h ▸ Decimal.digits_eq_zero.mp hzero)
    exact (ofDecimal?_of_zero hzero).trans (ofDecimal?_of_zero hzero').symm
  · have hpos' : 0 < d'.digits := by
      refine Nat.pos_of_ne_zero fun hzero => hpos.ne' ?_
      exact Decimal.digits_eq_zero.mpr (h ▸ Decimal.digits_eq_zero.mp hzero)
    obtain ⟨hlow, hhigh⟩ := Decimal.value_bounds hpos
    obtain ⟨hlow', hhigh'⟩ := Decimal.value_bounds hpos'
    rw [h] at hlow hhigh
    have hle := ten_zpow_lt.mp (hlow.trans_lt hhigh')
    have hge := ten_zpow_lt.mp (hlow'.trans_lt hhigh)
    have htop : (decimalLength d.digits : ℤ) + d.exponent =
        decimalLength d'.digits + d'.exponent := by omega
    have hratio := d.ratio_value.trans (h.trans d'.ratio_value.symm)
    have hround : f.round? d.ratio.1 d.ratio.2 = f.round? d'.ratio.1 d'.ratio.2 :=
      round?_congr d.ratio_den_pos d'.ratio_den_pos hratio
    unfold ofDecimal?
    dsimp only
    rw [htop, hround]
    simp only [hpos.ne', hpos'.ne']

theorem has_of_ofDecimal? {d : Decimal} {x : Dyadic} (hp : 0 < f.precision)
    (hf : f.least ≤ f.greatest) (h : f.ofDecimal? d = some x) : f.Has x := by
  unfold ofDecimal? at h
  dsimp only at h
  split at h
  · rw [← Option.some.inj h]
    exact (admits_zero f).has hf
  · split at h
    · cases h
    · exact has_of_round? hp hf d.ratio_den_pos h

theorem Has.ofDecimal? {x : Dyadic} {d : Decimal} (h : f.Has x) (hp : 0 < f.precision)
    (hleast : f.least ≤ 0) (hgreatest : 0 ≤ f.greatest + f.precision) (hm : 0 < x.mantissa)
    (hvalue : d.value = x.value) : f.ofDecimal? d = some x := by
  have hone : (1 : ℚ) ≤ x.mantissa := by exact_mod_cast hm
  have hxLow : (2 : ℚ) ^ x.exponent ≤ x.value := by
    unfold Dyadic.value
    calc (2 : ℚ) ^ x.exponent = 1 * 2 ^ x.exponent := (one_mul _).symm
      _ ≤ x.mantissa * 2 ^ x.exponent := by gcongr
  have hdigits : 0 < d.digits := by
    rcases Nat.eq_zero_or_pos d.digits with hzero | hpos
    · have hpositive := (two_zpow_pos x.exponent).trans_le hxLow
      rw [← hvalue, Decimal.value, hzero] at hpositive
      simp at hpositive
    · exact hpos
  obtain ⟨hlow, hhigh⟩ := Decimal.value_bounds hdigits
  set top : ℤ := (decimalLength d.digits : ℤ) + d.exponent with htop
  have hnotSmall : ¬top < f.least := by
    intro hlt
    have htwo := ten_zpow_le_two_zpow (show top ≤ 0 by omega)
    have hbelow := (hxLow.trans_eq hvalue.symm).trans_lt (hhigh.trans_le htwo)
    have := two_zpow_lt.mp hbelow
    have := h.least_le
    omega
  have hnotLarge : ¬f.greatest + f.precision < top - 1 := by
    intro hlt
    obtain ⟨k, hk⟩ := Int.eq_ofNat_of_zero_le (show 0 ≤ top - 1 by omega)
    have htwo : (2 : ℚ) ^ (top - 1) ≤ 10 ^ (top - 1) := by
      rw [hk]
      simp only [zpow_natCast]
      gcongr
      norm_num
    have habove := (htwo.trans hlow).trans_lt (hvalue.trans_lt h.admits.value_lt)
    have := two_zpow_lt.mp habove
    have := h.le_greatest
    omega
  have hnotZero : ¬(d.digits = 0 ∨ top < f.least) := not_or.mpr ⟨hdigits.ne', hnotSmall⟩
  have hratio : (d.ratio.1 : ℚ) / d.ratio.2 = x.value := d.ratio_value.trans hvalue
  unfold BinaryFormat.ofDecimal?
  dsimp only
  rw [← htop, if_neg hnotZero, if_neg hnotLarge]
  exact h.round? hp d.ratio_den_pos hratio hm

end BinaryFormat

/-! ### Doubles -/

namespace Dyadic

theorem exactDecimal_value (x : Dyadic) : x.exactDecimal.value = x.value := by
  unfold exactDecimal Decimal.value value
  split
  next h => simp [zpow_of_nonneg h]
  next h =>
    have hten (n : Nat) : (10 : ℚ) ^ n = 5 ^ n * 2 ^ n := by rw [← mul_pow]; norm_num
    simp only [zpow_of_neg h, hten, Nat.pow_eq, Nat.cast_mul, Nat.cast_pow, Nat.cast_ofNat]
    field_simp

theorem ofDecimal?_shortest {x : Dyadic} (h : binary64.Has x) :
    binary64.ofDecimal? x.shortest = some x := by
  unfold shortest
  split
  next hzero =>
    have hexponent : x.exponent = binary64.least := by
      rcases h.normal with heq | hlong
      · exact heq
      · rw [hzero] at hlong
        exact absurd hlong (by decide)
    obtain ⟨m, e⟩ := x
    subst hzero hexponent
    rfl
  next hpos =>
    refine shortestFrom_reads_back binary64 x 17 1 ?_
    exact h.ofDecimal? (by decide) (by decide) (by decide) (Nat.pos_of_ne_zero hpos)
      x.exactDecimal_value

end Dyadic
end NavDirections
