import NavDirections.Proofs.Rounding

/-!
# The number nearest to a rational

A rational is rounded to the nearest number of a format, and to the one with an even mantissa where
two are equally near.  Exponents are not limited in this: a rational is too large for the format if
the number it would be rounded to is.
-/

namespace NavDirections

structure BinaryFormat.Rounds (f : BinaryFormat) (q : ℚ) (x : Dyadic) : Prop where
  admits : f.Admits x
  nearest : ∀ y, f.Admits y → |q - x.value| ≤ |q - y.value|
  even : ∀ y, f.Admits y → |q - y.value| = |q - x.value| → y = x ∨ x.mantissa % 2 = 0

variable {f : BinaryFormat} {q : ℚ} {x y z : Dyadic} {num den : Nat}

theorem roundDiv_error (num : Nat) (hden : 0 < den) :
    |(num : ℚ) / den - roundDiv num den| ≤ 1 / 2 ∧
      (|(num : ℚ) / den - roundDiv num den| = 1 / 2 → roundDiv num den % 2 = 0) := by
  have hdenCast : (0 : ℚ) < den := by exact_mod_cast hden
  set whole := num / den with hwhole
  set rest : ℚ := (num % den : ℕ) / den with hrest
  have hsplit : (num : ℚ) / den = whole + rest := by
    rw [hrest, div_eq_iff hdenCast.ne', add_mul, div_mul_cancel₀ _ hdenCast.ne']
    exact_mod_cast (Nat.div_add_mod' num den).symm
  have hnonneg : 0 ≤ rest := by positivity
  have hlt : rest < 1 := by
    rw [hrest, div_lt_one hdenCast]
    exact_mod_cast Nat.mod_lt num hden
  have hup : den < 2 * (num % den) ↔ 1 < 2 * rest := by
    rw [hrest, mul_div_assoc', lt_div_iff₀ hdenCast, one_mul]
    exact_mod_cast Iff.rfl
  have hhalf : 2 * (num % den) = den ↔ 2 * rest = 1 := by
    rw [hrest, mul_div_assoc', div_eq_one_iff_eq hdenCast.ne']
    exact_mod_cast Iff.rfl
  have hround : roundDiv num den =
      if 1 < 2 * rest ∨ (2 * rest = 1 ∧ whole % 2 = 1) then whole + 1 else whole := by
    unfold roundDiv
    simp only [hup, hhalf, hwhole]
  rw [hround, hsplit]
  split
  next hcase =>
    have hdist : |(whole : ℚ) + rest - (whole + 1 : ℕ)| = 1 - rest := by
      push_cast
      rw [abs_sub_comm, abs_of_nonneg (by linarith)]
      ring
    rw [hdist]
    rcases hcase with hmore | ⟨hsame, hodd⟩
    · exact ⟨by linarith, fun heq => by linarith⟩
    · exact ⟨by linarith, fun _ => by omega⟩
  next hcase =>
    obtain ⟨hless, heven⟩ := not_or.mp hcase
    have hdist : |(whole : ℚ) + rest - whole| = rest := by
      rw [add_sub_cancel_left, abs_of_nonneg hnonneg]
    rw [hdist]
    refine ⟨by linarith, fun heq => ?_⟩
    have hsame : 2 * rest = 1 := by linarith
    have hodd : ¬whole % 2 = 1 := fun hodd => heven ⟨hsame, hodd⟩
    omega

/-- A quotient is rounded to the nearest natural number, the even one of two equally near. -/
theorem roundDiv_nearest (num : Nat) (hden : 0 < den) (n : Nat) :
    |(num : ℚ) / den - roundDiv num den| ≤ |(num : ℚ) / den - n| ∧
      (|(num : ℚ) / den - n| = |(num : ℚ) / den - roundDiv num den| →
        n = roundDiv num den ∨ (roundDiv num den % 2 = 0 ∧ n % 2 = 1)) := by
  obtain ⟨herror, heven⟩ := roundDiv_error num hden
  generalize roundDiv num den = m at *
  generalize (num : ℚ) / den = s at *
  by_cases hsame : n = m
  · rw [hsame]
    exact ⟨le_rfl, fun _ => .inl rfl⟩
  -- Different natural numbers are one apart, and the rounded one is at most half of that away.
  have hapart : (1 : ℚ) ≤ |(n : ℚ) - m| := by
    have hint : 0 < |(n : ℤ) - m| := abs_pos.mpr (sub_ne_zero.mpr (by exact_mod_cast hsame))
    exact_mod_cast hint
  have htriangle : |(n : ℚ) - m| ≤ |s - n| + |s - m| := by
    rw [abs_sub_comm s n]
    exact abs_sub_le (n : ℚ) s m
  refine ⟨by linarith, fun heq => .inr ?_⟩
  have htie : |s - m| = 1 / 2 := by linarith
  have hone : |(n : ℚ) - m| = 1 := by linarith
  have hm := heven htie
  have hneighbours : |(n : ℤ) - m| = 1 := by exact_mod_cast hone
  refine ⟨hm, ?_⟩
  rcases (abs_eq zero_le_one).mp hneighbours with habove | hbelow
  · omega
  · omega

namespace BinaryFormat

theorem Admits.eq_of_value (hp : 0 < f.precision) (hx : f.Admits x) (hy : f.Admits y)
    (h : x.value = y.value) : x = y := by
  have hle : ∀ x y : Dyadic, f.Admits x → f.Admits y → x.value = y.value →
      y.exponent ≤ x.exponent := by
    intro x y hx hy h
    by_contra hlt
    have hleast := hx.least_le
    have hlong := hy.normal.resolve_left (by omega)
    have hvalue := (le_value_of_long hp hlong).trans_lt (h.symm.trans_lt hx.value_lt)
    have := two_zpow_lt.mp hvalue
    omega
  have hexponent : x.exponent = y.exponent := le_antisymm (hle y x hy hx h.symm) (hle x y hx hy h)
  obtain ⟨m, e⟩ := x
  obtain ⟨n, e'⟩ := y
  dsimp only at hexponent
  subst hexponent
  have hmantissa : (m : ℚ) = n := mul_right_cancel₀ (two_zpow_pos e).ne' h
  rw [Nat.cast_inj.mp hmantissa]

theorem value_eq_multiple {e : ℤ} (h : e ≤ y.exponent) :
    ∃ k : Nat, y.exponent = e + k ∧ y.value = (y.mantissa * 2 ^ k : ℕ) * 2 ^ e := by
  obtain ⟨k, hk⟩ := Int.eq_ofNat_of_zero_le (show 0 ≤ y.exponent - e by omega)
  have hexponent : y.exponent = e + k := by omega
  refine ⟨k, hexponent, ?_⟩
  rw [Dyadic.value, hexponent, zpow_add₀ (by norm_num), zpow_natCast]
  push_cast
  ring

theorem nearest_value (hp : 0 < f.precision) (num den : Nat) :
    (f.nearest num den).value = f.cutMantissa num den * 2 ^ f.cutOff num den := by
  unfold nearest carried Dyadic.value
  split
  next hcarry =>
    have hgrown : (2 : ℚ) ^ f.precision = 2 * 2 ^ (f.precision - 1) := by
      exact_mod_cast two_pow_precision hp
    rw [hcarry, zpow_add₀ (by norm_num), zpow_one]
    simp only [Nat.pow_eq, Nat.cast_pow, Nat.cast_ofNat]
    rw [hgrown]
    ring
  next => rfl

theorem nearest_even (hp : 1 < f.precision) (h : f.cutMantissa num den % 2 = 0) :
    (f.nearest num den).mantissa % 2 = 0 := by
  unfold nearest carried
  split
  next =>
    obtain ⟨k, hk⟩ := Nat.exists_eq_succ_of_ne_zero (show f.precision - 1 ≠ 0 by omega)
    rw [hk, Nat.pow_eq, Nat.pow_succ]
    exact Nat.mul_mod_left _ _
  next => exact h

/-- No number is nearer to a quotient than the one it is rounded to, and of two equally near only
that one is even. -/
theorem nearest_distance (hp : 1 < f.precision) (hnum : 0 < num) (hden : 0 < den)
    (hy : f.Admits y) :
    |(num : ℚ) / den - (f.nearest num den).value| ≤ |(num : ℚ) / den - y.value| ∧
      (|(num : ℚ) / den - y.value| = |(num : ℚ) / den - (f.nearest num den).value| →
        y = f.nearest num den ∨ ((f.nearest num den).mantissa % 2 = 0 ∧ y.mantissa % 2 = 1)) := by
  have hpos : 0 < f.precision := by omega
  set e := f.cutOff num den with he
  have htwo := two_zpow_pos e
  have hscaled := scaleDown_value e num den
  have hden' := scaleDown_den_pos e num hden
  -- Distances are measured in units of the last bit at the cut-off.
  have hdistance (n : Nat) : |(num : ℚ) / den - n * 2 ^ e| =
      |((scaleDown e num den).1 : ℚ) / (scaleDown e num den).2 - n| * 2 ^ e := by
    rw [hscaled, ← abs_of_pos htwo, ← abs_mul, abs_of_pos htwo, sub_mul, div_mul_cancel₀ _ htwo.ne']
  have hround (n : Nat) := roundDiv_nearest (scaleDown e num den).1 hden' n
  have hvalue := nearest_value hpos num den
  have hmantissa : f.cutMantissa num den =
      roundDiv (scaleDown e num den).1 (scaleDown e num den).2 := rfl
  rw [← he, hmantissa] at hvalue
  rcases le_or_gt e y.exponent with hgrid | hfine
  · obtain ⟨k, hexponent, hmultiple⟩ := value_eq_multiple hgrid
    obtain ⟨hnearest, htie⟩ := hround (y.mantissa * 2 ^ k)
    rw [hvalue, hmultiple, hdistance, hdistance]
    refine ⟨by gcongr, fun heq => ?_⟩
    rcases htie (mul_right_cancel₀ htwo.ne' heq) with hsame | ⟨heven, hodd⟩
    · refine .inl (hy.eq_of_value hpos (admits_nearest hpos hnum hden) ?_)
      rw [hmultiple, hvalue, hsame]
    · refine .inr ⟨nearest_even hp (hmantissa ▸ heven), ?_⟩
      exact Nat.odd_iff.mp (Nat.odd_mul.mp (Nat.odd_iff.mpr hodd)).1
  -- Numbers with finer bits lie below the power of two that begins the range of the quotient.
  · have hleast := hy.least_le
    have hexponent : e + (f.precision - 1) = floorLog2 num den := by
      have hmax : e = max f.least (floorLog2 num den - (f.precision - 1)) := rfl
      omega
    obtain ⟨hlow, -⟩ := floorLog2_bounds hnum hden
    rw [← hexponent] at hlow
    have hbelow : y.value < 2 ^ (e + (f.precision - 1)) :=
      hy.value_lt.trans_le (two_zpow_le.mpr (by omega))
    have hfirst : ((2 ^ (f.precision - 1) : ℕ) : ℚ) * 2 ^ e = 2 ^ (e + (f.precision - 1)) := by
      have hcount : (f.precision : ℤ) - 1 = ((f.precision - 1 : ℕ) : ℤ) := by omega
      rw [hcount, add_comm, zpow_add₀ (by norm_num)]
      push_cast
      rfl
    have hfar : |(num : ℚ) / den - (f.nearest num den).value| < |(num : ℚ) / den - y.value| := by
      calc |(num : ℚ) / den - (f.nearest num den).value|
          ≤ |(num : ℚ) / den - (2 ^ (f.precision - 1) : ℕ) * 2 ^ e| := by
            rw [hvalue, hdistance, hdistance]
            exact mul_le_mul_of_nonneg_right (hround _).1 htwo.le
        _ = (num : ℚ) / den - 2 ^ (e + (f.precision - 1)) := by
            rw [hfirst, abs_of_nonneg (by linarith)]
        _ < (num : ℚ) / den - y.value := by linarith
        _ ≤ |(num : ℚ) / den - y.value| := le_abs_self _
    exact ⟨hfar.le, fun heq => absurd heq hfar.ne'⟩

theorem rounds_nearest (hp : 1 < f.precision) (hnum : 0 < num) (hden : 0 < den) :
    f.Rounds ((num : ℚ) / den) (f.nearest num den) where
  admits := admits_nearest (by omega) hnum hden
  nearest _ hy := (nearest_distance hp hnum hden hy).1
  even _ hy heq := ((nearest_distance hp hnum hden hy).2 heq).imp_right And.left

/-- Rounding a quotient gives the one number that the quotient is rounded to. -/
theorem rounds_iff_nearest (hp : 1 < f.precision) (hnum : 0 < num) (hden : 0 < den) :
    f.Rounds ((num : ℚ) / den) x ↔ x = f.nearest num den := by
  have hnearest := rounds_nearest hp hnum hden
  constructor
  · intro h
    have hsame := le_antisymm (h.nearest _ hnearest.admits) (hnearest.nearest x h.admits)
    rcases (nearest_distance hp hnum hden h.admits).2 hsame with heq | ⟨-, hodd⟩
    · exact heq
    · rcases h.even _ hnearest.admits hsame.symm with heq | heven
      · exact heq.symm
      · omega
  · rintro rfl
    exact hnearest

theorem Admits.le_value (hx : f.Admits x) (hpos : 0 < x.mantissa) : 2 ^ f.least ≤ x.value := by
  have hone : (1 : ℚ) ≤ x.mantissa := by exact_mod_cast hpos
  calc (2 : ℚ) ^ f.least ≤ 2 ^ x.exponent := two_zpow_le.mpr hx.least_le
    _ ≤ x.mantissa * 2 ^ x.exponent := le_mul_of_one_le_left (two_zpow_pos _).le hone

theorem value_of_zero (h : x.mantissa = 0) : x.value = 0 := by
  rw [Dyadic.value, h, Nat.cast_zero, zero_mul]

/-- Rationals up to half of the least positive number are rounded to zero. -/
theorem rounds_zero (hq : 0 ≤ q) (h : 2 * q ≤ 2 ^ f.least) : f.Rounds q ⟨0, f.least⟩ := by
  refine ⟨admits_zero f, fun y hy => ?_, fun _ _ _ => .inr rfl⟩
  rw [value_of_zero rfl, sub_zero, abs_of_nonneg hq]
  rcases Nat.eq_zero_or_pos y.mantissa with hzero | hpos
  · rw [value_of_zero hzero, sub_zero, abs_of_nonneg hq]
  · have hfar := hy.le_value hpos
    rw [abs_sub_comm]
    exact le_trans (by linarith) (le_abs_self _)

theorem rounds_of_zero (hp : 0 < f.precision) : f.Rounds 0 x ↔ x = ⟨0, f.least⟩ := by
  constructor
  · intro h
    have hnone := h.nearest _ (admits_zero f)
    rw [value_of_zero (x := ⟨0, f.least⟩) rfl, sub_zero, abs_zero, zero_sub, abs_neg] at hnone
    have hvalue := abs_nonpos_iff.mp hnone
    exact h.admits.eq_of_value hp (admits_zero f) (hvalue.trans (value_of_zero rfl).symm)
  · rintro rfl
    exact rounds_zero le_rfl (by rw [mul_zero]; exact (two_zpow_pos _).le)

theorem round?_eq_some_iff (hp : 1 < f.precision) (hf : f.least ≤ f.greatest) (hden : 0 < den) :
    f.round? num den = some x ↔ f.Rounds ((num : ℚ) / den) x ∧ x.exponent ≤ f.greatest := by
  rcases Nat.eq_zero_or_pos num with hzero | hnum
  · rw [BinaryFormat.round?, if_pos hzero, hzero, Nat.cast_zero, zero_div,
      rounds_of_zero (by omega), Option.some.injEq, eq_comm, iff_self_and]
    rintro rfl
    exact hf
  · rw [round?_eq hnum, rounds_iff_nearest hp hnum hden]
    split
    next hlarge =>
      refine iff_of_false (Option.some_ne_none x).symm ?_
      rintro ⟨rfl, hle⟩
      omega
    next hsmall =>
      rw [Option.some.injEq, eq_comm, iff_self_and]
      rintro rfl
      omega

theorem exists_quotient (hq : 0 ≤ q) : ∃ num den : Nat, 0 < den ∧ q = (num : ℚ) / den := by
  refine ⟨q.num.toNat, q.den, q.den_pos, ?_⟩
  have hnum : ((q.num.toNat : ℤ) : ℚ) = q.num := by
    rw [Int.toNat_of_nonneg (Rat.num_nonneg.mpr hq)]
  rw [← Int.cast_natCast, hnum]
  exact (Rat.num_div_den q).symm

theorem existsUnique_rounds (hp : 1 < f.precision) (hq : 0 ≤ q) : ∃! x, f.Rounds q x := by
  obtain ⟨num, den, hden, rfl⟩ := exists_quotient hq
  rcases Nat.eq_zero_or_pos num with hzero | hnum
  · rw [hzero, Nat.cast_zero, zero_div]
    exact ⟨_, (rounds_of_zero (by omega)).mpr rfl, fun x hx => (rounds_of_zero (by omega)).mp hx⟩
  · exact ⟨_, rounds_nearest hp hnum hden, fun x hx => (rounds_iff_nearest hp hnum hden).mp hx⟩

/-- The number that a decimal is read as is the one that its value is rounded to. -/
theorem rounds_of_ofDecimal? {d : Decimal} (hp : 1 < f.precision) (hf : f.least ≤ f.greatest)
    (hleast : f.least ≤ 0) (h : f.ofDecimal? d = some x) : f.Rounds d.value x := by
  unfold ofDecimal? at h
  dsimp only at h
  split at h
  next hnone =>
    rw [← Option.some.inj h]
    apply rounds_zero d.value_nonneg
    by_cases hzero : d.digits = 0
    · rw [Decimal.digits_eq_zero.mp hzero, mul_zero]
      exact (two_zpow_pos _).le
    · have hsmall := hnone.resolve_left hzero
      obtain ⟨-, hhigh⟩ := Decimal.value_bounds (Nat.pos_of_ne_zero hzero)
      have hpower :=
        ten_zpow_le_two_zpow (show (decimalLength d.digits : ℤ) + d.exponent ≤ 0 by omega)
      have hdouble : (2 : ℚ) ^ f.least = 2 * 2 ^ (f.least - 1) := by
        rw [zpow_sub_one₀ (by norm_num)]
        field_simp
      have hbound : (2 : ℚ) ^ ((decimalLength d.digits : ℤ) + d.exponent) ≤ 2 ^ (f.least - 1) :=
        two_zpow_le.mpr (by omega)
      rw [hdouble]
      linarith
  next =>
    split at h
    · cases h
    · have hrounds := ((round?_eq_some_iff hp hf d.ratio_den_pos).mp h).1
      rwa [d.ratio_value] at hrounds

/-! ### Order -/

theorem Rounds.value_le (h : f.Rounds q x) (hz : f.Admits z) (hq : q ≤ z.value) :
    x.value ≤ z.value := by
  by_contra hlt
  rw [not_le] at hlt
  have hnear := h.nearest z hz
  rw [abs_sub_comm q, abs_sub_comm q, abs_of_nonneg (by linarith), abs_of_nonneg (by linarith)]
    at hnear
  linarith

theorem Rounds.le_value (h : f.Rounds q x) (hz : f.Admits z) (hq : z.value ≤ q) :
    z.value ≤ x.value := by
  by_contra hlt
  rw [not_le] at hlt
  have hnear := h.nearest z hz
  rw [abs_of_nonneg (by linarith), abs_of_nonneg (by linarith)] at hnear
  linarith

theorem Rounds.unique (hx : f.Rounds q x) (hy : f.Rounds q y) (hp : 1 < f.precision) (hq : 0 ≤ q) :
    x = y := (existsUnique_rounds hp hq).unique hx hy

/-! ### The ends of the range -/

/-- Just the rationals up to half of the least positive number are rounded to zero. -/
theorem Rounds.mantissa_eq_zero_iff (h : f.Rounds q x) (hp : 1 < f.precision) (hq : 0 ≤ q) :
    x.mantissa = 0 ↔ 2 * q ≤ 2 ^ f.least := by
  constructor
  · intro hzero
    have hone : f.Admits ⟨1, f.least⟩ := ⟨le_rfl, Nat.one_lt_two_pow (by omega), .inl rfl⟩
    have hvalue : Dyadic.value ⟨1, f.least⟩ = 2 ^ f.least := by simp [Dyadic.value]
    have hnear := h.nearest _ hone
    have hpos := two_zpow_pos f.least
    rw [hvalue, value_of_zero hzero, sub_zero, abs_of_nonneg hq] at hnear
    rcases le_or_gt q (2 ^ f.least) with hle | hgt
    · rw [abs_sub_comm, abs_of_nonneg (by linarith)] at hnear
      linarith
    · rw [abs_of_pos (by linarith)] at hnear
      linarith
  · intro hsmall
    rw [h.unique (rounds_zero hq hsmall) hp hq]

def last (f : BinaryFormat) : Dyadic := ⟨2 ^ f.precision - 1, f.greatest⟩

/-- The number that would follow the largest one. -/
def beyond (f : BinaryFormat) : Dyadic := ⟨2 ^ (f.precision - 1), f.greatest + 1⟩

theorem admits_last (hp : 0 < f.precision) (hf : f.least ≤ f.greatest) : f.Admits f.last := by
  have htwice := two_pow_precision hp
  have hpos : 0 < 2 ^ (f.precision - 1) := Nat.two_pow_pos _
  exact ⟨hf, by dsimp only [last]; omega, .inr (by dsimp only [last]; omega)⟩

theorem admits_beyond (hp : 0 < f.precision) (hf : f.least ≤ f.greatest) : f.Admits f.beyond := by
  have htwice := two_pow_precision hp
  have hpos : 0 < 2 ^ (f.precision - 1) := Nat.two_pow_pos _
  exact ⟨by dsimp only [beyond]; omega, by dsimp only [beyond]; omega, .inr le_rfl⟩

theorem last_value (f : BinaryFormat) :
    f.last.value = 2 ^ (f.greatest + f.precision) - 2 ^ f.greatest := by
  have hpos : 1 ≤ 2 ^ f.precision := Nat.one_le_two_pow
  rw [Dyadic.value, last, Nat.cast_sub hpos, zpow_add₀ (by norm_num), zpow_natCast]
  push_cast
  ring

theorem beyond_value (hp : 0 < f.precision) :
    f.beyond.value = 2 ^ (f.greatest + f.precision) := by
  have htwice : (2 : ℚ) ^ f.precision = 2 * 2 ^ (f.precision - 1) := by
    exact_mod_cast two_pow_precision hp
  rw [Dyadic.value, beyond, zpow_add₀ (by norm_num), zpow_add₀ (by norm_num), zpow_natCast, htwice]
  push_cast
  ring

theorem Admits.value_le_last (hx : f.Admits x) (hle : x.exponent ≤ f.greatest) :
    x.value ≤ f.last.value := by
  have hmantissa : x.mantissa ≤ 2 ^ f.precision - 1 := by
    have := hx.fits
    omega
  have hcast : (x.mantissa : ℚ) ≤ (2 ^ f.precision - 1 : ℕ) := by exact_mod_cast hmantissa
  exact mul_le_mul hcast (two_zpow_le.mpr hle) (two_zpow_pos _).le (by positivity)

theorem Admits.beyond_le_value (hx : f.Admits x) (hp : 0 < f.precision) (hf : f.least ≤ f.greatest)
    (hlt : f.greatest < x.exponent) : f.beyond.value ≤ x.value := by
  have hlong := hx.normal.resolve_left (by omega)
  rw [beyond_value hp]
  exact (two_zpow_le.mpr (by omega)).trans (le_value_of_long hp hlong)

/-- Just the rationals below the middle between the largest number and the one that would follow it
stay within the format: the middle is rounded up, to the even one. -/
theorem Rounds.le_greatest_iff (h : f.Rounds q x) (hp : 0 < f.precision)
    (hf : f.least ≤ f.greatest) : x.exponent ≤ f.greatest ↔ 2 * q < f.last.value + f.beyond.value := by
  have hlast := admits_last hp hf
  have hbeyond := admits_beyond hp hf
  have hgap : f.last.value < f.beyond.value := by
    rw [last_value, beyond_value hp]
    linarith [two_zpow_pos f.greatest]
  constructor
  · intro hle
    by_contra hlarge
    rw [not_lt] at hlarge
    have hx := h.admits.value_le_last hle
    have hbelow : q < f.beyond.value := by
      by_contra hge
      linarith [h.le_value hbeyond (not_lt.mp hge)]
    have hnear := h.nearest _ hbeyond
    rw [abs_of_nonneg (by linarith), abs_sub_comm, abs_of_nonneg (by linarith)] at hnear
    have hsame : x.value = f.last.value := by linarith
    have hxlast := h.admits.eq_of_value hp hlast hsame
    have htie : |q - f.beyond.value| = |q - x.value| := by
      rw [abs_sub_comm, abs_of_nonneg (by linarith), abs_of_nonneg (by linarith)]
      linarith
    rcases h.even _ hbeyond htie with heq | heven
    · rw [← heq] at hle
      have : f.greatest + 1 ≤ f.greatest := hle
      omega
    · rw [hxlast] at heven
      have htwice := two_pow_precision hp
      have hpos : 0 < 2 ^ (f.precision - 1) := Nat.two_pow_pos _
      dsimp only [last] at heven
      omega
  · intro hsmall
    by_contra hlt
    have hx := h.admits.beyond_le_value hp hf (not_le.mp hlt)
    rcases le_or_gt q f.last.value with hle | hgt
    · linarith [h.value_le hlast hle]
    · have hnear := h.nearest _ hlast
      rw [abs_sub_comm, abs_of_nonneg (by linarith), abs_of_nonneg (by linarith)] at hnear
      linarith

end BinaryFormat
end NavDirections
