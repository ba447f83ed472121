import NavDirections.Graph.Literal
import NavDirections.Proofs.Success
import Mathlib.Tactic.IntervalCases

/-!
# Forms of numerals

The numerals that a compiler takes for integers and floating-point numbers.  Integer defaults become
such numerals, apart from hexadecimal ones with a line feed behind them, which keep it.
-/

namespace NavDirections

open Success

def CodePoint.IsDigit (base : Nat) (c : CodePoint) : Prop := ∃ d, c.hexValue? = some d ∧ d < base

structure IsDigits (base : Nat) (t : Text) : Prop where
  ne_nil : t ≠ []
  digit : ∀ c ∈ t, c.IsDigit base

def digitsValue (base : Nat) (t : Text) : Nat :=
  Decimal.ofDigits base (t.map fun c => c.hexValue?.getD 0)

variable {base : Nat} {t u : Text}

theorem IsDigits.notMem (h : IsDigits base t) {c : CodePoint} (hc : c.hexValue? = none) :
    c ∉ t := by
  intro hmem
  obtain ⟨d, hd, -⟩ := h.digit c hmem
  rw [hc] at hd
  cases hd

theorem IsDigits.append (ht : ∀ c ∈ t, c.IsDigit base) (hu : IsDigits base u) :
    IsDigits base (t ++ u) := by
  refine ⟨List.append_ne_nil_of_right_ne_nil t hu.ne_nil, fun c hc => ?_⟩
  rcases List.mem_append.mp hc with hc | hc
  · exact ht c hc
  · exact hu.digit c hc

theorem IsDigits.append_right (ht : IsDigits base t) (hu : ∀ c ∈ u, c.IsDigit base) :
    IsDigits base (t ++ u) := by
  refine ⟨List.append_ne_nil_of_left_ne_nil ht.ne_nil u, fun c hc => ?_⟩
  rcases List.mem_append.mp hc with hc | hc
  · exact ht.digit c hc
  · exact hu c hc

theorem IsDigits.take (h : IsDigits base t) {count : Nat} (hcount : 0 < count) :
    IsDigits base (t.take count) := by
  refine ⟨fun hnil => ?_, fun c hc => h.digit c (List.mem_of_mem_take hc)⟩
  rcases List.take_eq_nil_iff.mp hnil with hzero | hnone
  · omega
  · exact h.ne_nil hnone

theorem IsDigits.drop (h : IsDigits base t) {count : Nat} (hcount : count < t.length) :
    IsDigits base (t.drop count) := by
  refine ⟨fun hnil => ?_, fun c hc => h.digit c (List.mem_of_mem_drop hc)⟩
  have hlength := List.drop_eq_nil_iff.mp hnil
  omega

theorem digitsValue_concat (t : Text) {c : CodePoint} {d : Nat} (hc : c.hexValue? = some d) :
    digitsValue base (t ++ [c]) = digitsValue base t * base + d := by
  unfold digitsValue Decimal.ofDigits
  rw [List.map_append, List.foldl_append, List.map_singleton, List.foldl_cons, List.foldl_nil, hc]
  rfl

/-- A decimal numeral as a compiler takes it: a zero in front is the whole of it. -/
structure IsDecimal (t : Text) : Prop extends IsDigits 10 t where
  leading : ∀ rest, t = ('0' : CodePoint) :: rest → rest = []

theorem hexValue?_digitChar {d : Nat} (h : d < 10) :
    (CodePoint.ofChar d.digitChar).hexValue? = some d := by
  interval_cases d <;> rfl

theorem ofNat_of_lt {n : Nat} (h : n < 10) : Text.ofNat n = [CodePoint.ofChar n.digitChar] := by
  rw [Text.ofNat, Nat.toDigits_of_lt_base h]
  rfl

theorem ofNat_of_ge {n : Nat} (h : 10 ≤ n) :
    Text.ofNat n = Text.ofNat (n / 10) ++ [CodePoint.ofChar (n % 10).digitChar] := by
  rw [Text.ofNat, Text.ofNat, Nat.toDigits_of_base_le (by decide) h, List.map_append]
  rfl

theorem digitsValue_ofNat (n : Nat) : digitsValue 10 (Text.ofNat n) = n := by
  induction n using Nat.strongRecOn with
  | ind n ih =>
    rcases Nat.lt_or_ge n 10 with h | h
    · have hone : digitsValue 10 ([] ++ [CodePoint.ofChar n.digitChar]) = 0 * 10 + n :=
        digitsValue_concat [] (hexValue?_digitChar h)
      rw [ofNat_of_lt h]
      simpa using hone
    · have hlast : n % 10 < 10 := by omega
      rw [ofNat_of_ge h, digitsValue_concat _ (hexValue?_digitChar hlast), ih (n / 10) (by omega)]
      omega

theorem ofNat_isDecimal (n : Nat) : IsDecimal (Text.ofNat n) := by
  induction n using Nat.strongRecOn with
  | ind n ih =>
    rcases Nat.lt_or_ge n 10 with h | h
    · rw [ofNat_of_lt h]
      refine ⟨⟨List.cons_ne_nil _ _, fun c hc => ?_⟩, fun rest hrest => ?_⟩
      · rw [List.mem_singleton.mp hc]
        exact ⟨n, hexValue?_digitChar h, h⟩
      · exact (List.cons.inj hrest).2.symm
    · obtain ⟨hdigits, hleading⟩ := ih (n / 10) (by omega)
      have hlast : n % 10 < 10 := by omega
      rw [ofNat_of_ge h]
      refine ⟨.append hdigits.digit ⟨List.cons_ne_nil _ _, fun c hc => ?_⟩, fun rest hrest => ?_⟩
      · rw [List.mem_singleton.mp hc]
        exact ⟨n % 10, hexValue?_digitChar hlast, hlast⟩
      -- A zero in front would be the whole of the digits of `n / 10`, which is not zero.
      · obtain ⟨c, more, hmore⟩ := List.exists_cons_of_ne_nil hdigits.ne_nil
        rw [hmore, List.cons_append] at hrest
        have hc := (List.cons.inj hrest).1
        rw [hc] at hmore
        have hzero : digitsValue 10 (Text.ofNat (n / 10)) = 0 := by
          rw [hmore, hleading more hmore]
          rfl
        rw [digitsValue_ofNat] at hzero
        omega

namespace Literal

/-- An integer as a compiler takes it for a width: decimal ones within the signed range, hexadecimal
ones within the unsigned one. -/
inductive IsInteger (bits : Nat) : Text → Prop
  | decimal {digits : Text} (hdigits : IsDecimal digits)
      (hvalue : digitsValue 10 digits < 2 ^ (bits - 1)) : IsInteger bits digits
  | negative {digits : Text} (hdigits : IsDecimal digits)
      (hvalue : digitsValue 10 digits ≤ 2 ^ (bits - 1)) : IsInteger bits ('-' :: digits)
  | hexadecimal {sign : Text} {mark : CodePoint} {digits : Text}
      (hsign : sign = [] ∨ sign = ("-" : Text)) (hmark : mark = 'x' ∨ mark = 'X')
      (hdigits : IsDigits 16 digits) (hvalue : digitsValue 16 digits < 2 ^ bits) :
      IsInteger bits (sign ++ ('0' : CodePoint) :: mark :: digits)

theorem IsInteger.notMem {bits : Nat} {c : CodePoint} (h : IsInteger bits t)
    (hdigit : c.hexValue? = none) (hminus : c ≠ '-') (hsmall : c ≠ 'x') (hcapital : c ≠ 'X') :
    c ∉ t := by
  have hzero : c ≠ '0' := by
    rintro rfl
    cases hdigit
  cases h with
  | decimal hdigits _ => exact hdigits.notMem hdigit
  | negative hdigits _ =>
    rw [List.mem_cons, not_or]
    exact ⟨hminus, hdigits.notMem hdigit⟩
  | @hexadecimal sign mark digits hsign hmark hdigits _ =>
    have hmarked : c ≠ mark := by
      rcases hmark with rfl | rfl
      · exact hsmall
      · exact hcapital
    have hsigned : c ∉ sign := by
      rcases hsign with rfl | rfl
      · exact nofun
      · exact fun hmem => hminus (List.mem_singleton.mp hmem)
    rw [List.mem_append, List.mem_cons, List.mem_cons, not_or, not_or, not_or]
    exact ⟨hsigned, hzero, hmarked, hdigits.notMem hdigit⟩

/-! ### Reading integers -/

theorem hexValue?_lt {c : CodePoint} {d : Nat} (h : c.hexValue? = some d) : d < 16 := by
  unfold CodePoint.hexValue? CodePoint.isAsciiDigit at h
  split_ifs at h with h1 h2 h3
  · simp only [Bool.and_eq_true, decide_eq_true_eq, Option.some.injEq] at h1 h
    omega
  · simp only [Bool.and_eq_true, decide_eq_true_eq, Option.some.injEq] at h2 h
    omega
  · simp only [Bool.and_eq_true, decide_eq_true_eq, Option.some.injEq] at h3 h
    omega

theorem digitValues?_some {digit? : CodePoint → Option Nat} {ds : List Nat}
    (h : digitValues? digit? t = some ds) :
    t ≠ [] ∧ List.Forall₂ (fun c d => digit? c = some d) t ds := by
  unfold digitValues? at h
  split at h
  · cases h
  next hempty =>
    refine ⟨?_, mapM_some.mp h⟩
    rintro rfl
    exact hempty rfl

theorem isDigits_of_hexValues {ds : List Nat} (h : digitValues? CodePoint.hexValue? t = some ds) :
    IsDigits 16 t ∧ digitsValue 16 t = Decimal.ofDigits 16 ds := by
  obtain ⟨hne, hvalues⟩ := digitValues?_some h
  refine ⟨⟨hne, fun c hc => ?_⟩, ?_⟩
  · obtain ⟨d, -, hd⟩ := partner_of_mem_left hvalues hc
    exact ⟨d, hd, hexValue?_lt hd⟩
  · have hmap : t.map (fun c => c.hexValue?.getD 0) = ds := by
      clear h hne
      induction hvalues with
      | nil => rfl
      | cons hd _ ih => rw [List.map_cons, hd, ih]; rfl
    rw [digitsValue, hmap]

/-- A numeral without its sign is decimal, or hexadecimal behind a zero and an `x`. -/
theorem scanUnsigned?_some {negative : Bool} {n : Numeral} (h : scanUnsigned? negative t = some n) :
    (digitValues? decimalValue? t = some n.digits ∧ n.isHex = false) ∨
      ∃ mark digits, t = ('0' : CodePoint) :: mark :: digits ∧ (mark = 'x' ∨ mark = 'X') ∧
        digitValues? CodePoint.hexValue? digits = some n.digits ∧ n.isHex = true := by
  have hdecimal (hmap : (digitValues? decimalValue? t).map (Numeral.mk negative false ·) = some n) :
      digitValues? decimalValue? t = some n.digits ∧ n.isHex = false := by
    obtain ⟨ds, hds, rfl⟩ := Option.map_eq_some_iff.mp hmap
    exact ⟨hds, rfl⟩
  unfold scanUnsigned? at h
  dsimp only at h
  split at h
  next zero mark digits =>
    split at h
    next hmark =>
      obtain ⟨ds, hds, rfl⟩ := Option.map_eq_some_iff.mp h
      exact .inr ⟨mark, digits, by rw [hmark.1], hmark.2, hds, rfl⟩
    · exact .inl (hdecimal h)
  · exact .inl (hdecimal h)

theorem scan?_some {value : Text} {n : Numeral} (h : Numeral.scan? value = some n) :
    ∃ sign body negative, value.dropFinalLineFeed = sign ++ body ∧
      (sign = [] ∨ sign = ("-" : Text)) ∧ scanUnsigned? negative body = some n := by
  unfold Numeral.scan? at h
  split at h
  next c rest hvalue =>
    split at h
    next hminus =>
      exact ⟨"-", rest, true, by rw [hvalue, hminus]; rfl, .inr rfl, h⟩
    · exact ⟨[], c :: rest, false, hvalue, .inl rfl, h⟩
  · cases h

theorem dropFinalLineFeed_cases (t : Text) :
    t.dropFinalLineFeed = t ∨ t = t.dropFinalLineFeed ++ ("\n" : Text) := by
  unfold Text.dropFinalLineFeed
  cases h : Text.dropEnd? "\n" t with
  | none => exact .inl rfl
  | some rest => exact .inr (Text.dropEnd?_eq_some_iff.mp h)

theorem dropFinalLineFeed_of_notMem {t : Text} (h : ('\n' : CodePoint) ∉ t) :
    t.dropFinalLineFeed = t := by
  rcases dropFinalLineFeed_cases t with hsame | hcut
  · exact hsame
  · refine absurd ?_ h
    rw [hcut]
    exact List.mem_append_right _ List.mem_cons_self

theorem dropFinalLineFeed_append (t : Text) : (t ++ ("\n" : Text)).dropFinalLineFeed = t := by
  rw [Text.dropFinalLineFeed, Text.dropEnd?_eq_some_iff.mpr rfl]
  rfl

theorem integral_ok {bits : Nat} {value text : Text} {type : ArgumentType}
    (h : integral bits value type = .ok text) :
    ∃ n, Numeral.scan? value = some n ∧ n.magnitude ≤ n.limit bits ∧
      text = if n.isHex then value else n.decimalText := by
  unfold integral at h
  split at h
  · cases h
  next n hscan =>
    split at h
    · cases h
    · split at h
      · cases h
      next hlimit =>
        cases h
        exact ⟨n, hscan, Nat.not_lt.mp hlimit, rfl⟩

theorem decimalText_isInteger {bits : Nat} {n : Numeral} (hdecimal : n.isHex = false)
    (hlimit : n.magnitude ≤ n.limit bits) : IsInteger bits n.decimalText := by
  have hpositive : 0 < 2 ^ (bits - 1) := Nat.two_pow_pos _
  have hplain (m : Nat) (hm : m < 2 ^ (bits - 1)) : IsInteger bits (Text.ofNat m) :=
    .decimal (ofNat_isDecimal m) (by rwa [digitsValue_ofNat])
  unfold Numeral.decimalText
  cases hnegative : n.negative with
  | false =>
    have hbound : n.magnitude ≤ 2 ^ (bits - 1) - 1 := by
      simpa [Numeral.limit, hnegative, hdecimal] using hlimit
    exact hplain n.magnitude (by omega)
  | true =>
    have hbound : n.magnitude ≤ 2 ^ (bits - 1) := by
      simpa [Numeral.limit, hnegative] using hlimit
    rw [if_pos rfl]
    cases hmagnitude : n.magnitude with
    | zero => exact hplain 0 hpositive
    | succ m =>
      have hvalue : digitsValue 10 (Text.ofNat (m + 1)) ≤ 2 ^ (bits - 1) := by
        rwa [digitsValue_ofNat, ← hmagnitude]
      exact .negative (ofNat_isDecimal (m + 1)) hvalue

/-- A line feed behind hexadecimal digits, which are kept as they are spelled. -/
def KeepsLineFeed (value : Text) : Prop :=
  ('\n' : CodePoint) ∈ value ∧ (('x' : CodePoint) ∈ value ∨ ('X' : CodePoint) ∈ value)

instance (value : Text) : Decidable (KeepsLineFeed value) := inferInstanceAs (Decidable (_ ∧ _))

theorem decimalValue?_eq_none {c : CodePoint} (h : c.isAsciiDigit = false) :
    decimalValue? c = none := by
  rw [decimalValue?, h, if_neg Bool.false_ne_true]

theorem not_keepsLineFeed_of_decimal {value sign body : Text} {ds : List Nat}
    (hbody : value.dropFinalLineFeed = sign ++ body) (hsign : sign = [] ∨ sign = ("-" : Text))
    (hdigits : digitValues? decimalValue? body = some ds) : ¬KeepsLineFeed value := by
  have hletter (c : CodePoint) (hdigit : c.isAsciiDigit = false) (hminus : c ≠ '-')
      (hfeed : c ≠ '\n') : c ∉ value := by
    have hkept : c ∉ value.dropFinalLineFeed := by
      rw [hbody, List.mem_append, not_or]
      constructor
      · rcases hsign with rfl | rfl
        · exact nofun
        · exact fun hmem => hminus (List.mem_singleton.mp hmem)
      · intro hmem
        obtain ⟨d, -, hd⟩ := partner_of_mem_left (digitValues?_some hdigits).2 hmem
        rw [decimalValue?_eq_none hdigit] at hd
        cases hd
    rcases dropFinalLineFeed_cases value with hsame | hcut
    · rwa [hsame] at hkept
    · rw [hcut, List.mem_append, not_or]
      exact ⟨hkept, fun hmem => hfeed (List.mem_singleton.mp hmem)⟩
  rintro ⟨-, hsmall | hcapital⟩
  · exact hletter _ (by decide) (by decide) (by decide) hsmall
  · exact hletter _ (by decide) (by decide) (by decide) hcapital

theorem limit_lt {bits : Nat} (hbits : 0 < bits) {n : Numeral} (hhex : n.isHex = true) :
    n.limit bits < 2 ^ bits := by
  have hpow : 2 ^ bits = 2 * 2 ^ (bits - 1) := by
    rw [← Nat.pow_succ', Nat.succ_eq_add_one, Nat.sub_add_cancel hbits]
  have hpositive : 0 < 2 ^ (bits - 1) := Nat.two_pow_pos _
  unfold Numeral.limit
  rw [hhex, if_pos rfl]
  simp only [Nat.pow_eq]
  split
  · omega
  · omega

/-- What an integer default becomes is an integer as a compiler takes it, or has kept a line feed
behind its hexadecimal digits. -/
theorem integral_form {bits : Nat} (hbits : 0 < bits) {value text : Text} {type : ArgumentType}
    (h : integral bits value type = .ok text) :
    (¬KeepsLineFeed value ∧ IsInteger bits text) ∨
      (KeepsLineFeed value ∧ ('\n' : CodePoint) ∈ text) := by
  obtain ⟨n, hscan, hlimit, htext⟩ := integral_ok h
  obtain ⟨sign, body, negative, hbody, hsign, hunsigned⟩ := scan?_some hscan
  rcases scanUnsigned?_some hunsigned with
    ⟨hdigits, hdecimal⟩ | ⟨mark, digits, hmarked, hmark, hdigits, hhex⟩
  -- Decimal digits are written anew; hexadecimal ones stay as they came, line feed and all.
  · rw [htext, hdecimal, if_neg Bool.false_ne_true]
    exact .inl ⟨not_keepsLineFeed_of_decimal hbody hsign hdigits,
      decimalText_isInteger hdecimal hlimit⟩
  · obtain ⟨hvalid, hvalue⟩ := isDigits_of_hexValues hdigits
    rw [htext, hhex, if_pos rfl]
    rw [hmarked] at hbody
    rcases dropFinalLineFeed_cases value with hsame | hcut
    · have hmagnitude : n.magnitude = digitsValue 16 digits := by
        rw [hvalue, Numeral.magnitude, hhex, if_pos rfl]
      have hbound := Nat.lt_of_le_of_lt hlimit (limit_lt hbits hhex)
      have hinteger : IsInteger bits value := by
        rw [← hsame, hbody]
        exact .hexadecimal hsign hmark hvalid (hmagnitude ▸ hbound)
      refine .inl ⟨fun hkeeps => ?_, hinteger⟩
      exact hinteger.notMem (by decide) (by decide) (by decide) (by decide) hkeeps.1
    · have hfeed : ('\n' : CodePoint) ∈ value := by
        rw [hcut]
        exact List.mem_append_right _ List.mem_cons_self
      have hmem : mark ∈ value := by
        rw [hcut, hbody]
        simp
      refine .inr ⟨⟨hfeed, ?_⟩, hfeed⟩
      rcases hmark with rfl | rfl
      · exact .inl hmem
      · exact .inr hmem

theorem mem_dropSuffix_iff {small capital c : CodePoint} (hsmall : c ≠ small)
    (hcapital : c ≠ capital) (t : Text) : c ∈ dropSuffix small capital t ↔ c ∈ t := by
  unfold dropSuffix
  split
  next last hlast =>
    split
    next hsuffix =>
      obtain ⟨init, rfl⟩ := List.getLast?_eq_some_iff.mp hlast
      have hne : c ≠ last := by
        rcases hsuffix with rfl | rfl
        · exact hsmall
        · exact hcapital
      rw [List.dropLast_concat, List.mem_append, List.mem_singleton, or_iff_left hne]
    · exact Iff.rfl
  · exact Iff.rfl

/-- A long default is an integer with a suffix; which one it had makes no difference. -/
theorem long_form {value text : Text} {type : ArgumentType} (h : long value type = .ok text) :
    ∃ body, text = body ++ ("L" : Text) ∧
      ((¬KeepsLineFeed value ∧ IsInteger 64 body) ∨
        (KeepsLineFeed value ∧ ('\n' : CodePoint) ∈ body)) := by
  obtain ⟨body, hbody, rfl⟩ := map_ok.mp h
  have hkeeps : KeepsLineFeed (dropSuffix 'l' 'L' value) ↔ KeepsLineFeed value := by
    unfold KeepsLineFeed
    rw [mem_dropSuffix_iff (by decide) (by decide), mem_dropSuffix_iff (by decide) (by decide),
      mem_dropSuffix_iff (by decide) (by decide)]
  refine ⟨body, rfl, ?_⟩
  rw [← hkeeps]
  exact integral_form (by decide) hbody

/-! ### Floating point -/

def IsFraction (t : Text) : Prop := t = [] ∨ ∃ digits, t = ('.' : CodePoint) :: digits ∧
  IsDigits 10 digits

def IsPower (t : Text) : Prop := t = [] ∨ ∃ sign digits, t = ('e' : CodePoint) :: sign :: digits ∧
  (sign = '+' ∨ sign = '-') ∧ IsDigits 10 digits

/-- A decimal numeral with a fraction and a power of ten, each of which may be missing. -/
inductive IsFloating : Text → Prop
  | parts {whole fraction power : Text} (hwhole : IsDigits 10 whole)
      (hfraction : IsFraction fraction) (hpower : IsPower power) :
      IsFloating (whole ++ fraction ++ power)

theorem IsFloating.pointed {whole digits : Text} (hwhole : IsDigits 10 whole)
    (hdigits : IsDigits 10 digits) : IsFloating (whole ++ ('.' : CodePoint) :: digits) := by
  have hparts := IsFloating.parts hwhole (.inr ⟨digits, rfl, hdigits⟩) (.inl rfl)
  rwa [List.append_nil] at hparts

theorem IsFloating.notMem (h : IsFloating t) {c : CodePoint} (hdigit : c.hexValue? = none)
    (hpoint : c ≠ '.') (hplus : c ≠ '+') (hminus : c ≠ '-') : c ∉ t := by
  obtain ⟨hwhole, hfraction, hpower⟩ := h
  have hmark : c ≠ 'e' := by
    rintro rfl
    cases hdigit
  rw [List.mem_append, List.mem_append, not_or, not_or]
  refine ⟨⟨hwhole.notMem hdigit, ?_⟩, ?_⟩
  · rcases hfraction with rfl | ⟨digits, rfl, hdigits⟩
    · exact nofun
    · rw [List.mem_cons, not_or]
      exact ⟨hpoint, hdigits.notMem hdigit⟩
  · rcases hpower with rfl | ⟨sign, digits, rfl, hsign, hdigits⟩
    · exact nofun
    · have hsigned : c ≠ sign := by
        rcases hsign with rfl | rfl
        · exact hplus
        · exact hminus
      rw [List.mem_cons, List.mem_cons, not_or, not_or]
      exact ⟨hmark, hsigned, hdigits.notMem hdigit⟩

theorem zeros_isDigit (count : Nat) :
    ∀ c ∈ List.replicate count ('0' : CodePoint), c.IsDigit 10 := by
  intro c hc
  rw [List.eq_of_mem_replicate hc]
  exact ⟨0, rfl, by decide⟩

end Literal
end NavDirections
