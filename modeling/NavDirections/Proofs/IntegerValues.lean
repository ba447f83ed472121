import NavDirections.Proofs.Breakdowns
import NavDirections.Proofs.HeldArguments
import NavDirections.Proofs.NumeralValues

/-!
# Values of integer defaults

A default writes an integer in decimal or hexadecimal digits.  It is accepted exactly within the
range of its type, and a compiler that reads what it becomes gets the same integer, up to a multiple
of two to the number of bits.
-/

namespace NavDirections

open Success

instance (base : Nat) (c : CodePoint) : Decidable (c.IsDigit base) :=
  decidable_of_iff (c.hexValue?.any (· < base) = true) (by
    rw [Option.any_eq_true]
    simp only [CodePoint.IsDigit, decide_eq_true_eq])

-- The digits are looked at one by one: code points are finitely many, and would all be tried.
instance (base : Nat) (t : Text) : Decidable (IsDigits base t) :=
  decidable_of_iff (t ≠ [] ∧ t.all (fun c => decide (c.IsDigit base)) = true) (by
    rw [List.all_eq_true]
    simp only [decide_eq_true_eq]
    exact ⟨fun h => ⟨h.1, h.2⟩, fun h => ⟨h.ne_nil, h.digit⟩⟩)

/-- The base and the digits of a literal.  Behind a zero there is an `x` and hexadecimal digits, or
the digits are octal. -/
def literalParts (t : Text) : Nat × Text :=
  match t with
  | zero :: mark :: digits =>
    if zero = '0' then
      if mark = 'x' ∨ mark = 'X' then (16, digits) else (8, mark :: digits)
    else (10, t)
  | _ => (10, t)

/-- The largest integer that a literal may have.  Decimal ones are signed, and the one of the least
integer stands behind a minus only; the others use all bits. -/
def literalLimit (bits base : Nat) (negated : Bool) : Nat :=
  if base = 10 then if negated then 2 ^ (bits - 1) else 2 ^ (bits - 1) - 1 else 2 ^ bits - 1

def readLiteral? (bits : Nat) (negated : Bool) (t : Text) : Option (BitVec bits) :=
  let (base, digits) := literalParts t
  if IsDigits base digits ∧ digitsValue base digits ≤ literalLimit bits base negated then
    some (BitVec.ofNat bits (digitsValue base digits))
  else none

/-- The bits of a literal, or of one behind a minus. -/
def readExpression? (bits : Nat) : Text → Option (BitVec bits)
  | c :: t =>
    if c = '-' then (readLiteral? bits true t).map (-·) else readLiteral? bits false (c :: t)
  | [] => none

inductive IntegerType where
  | int
  | long

namespace IntegerType

def bits : IntegerType → Nat
  | int => 32
  | long => 64

/-- The arguments that hold integers of the type. -/
def argumentType : IntegerType → ArgumentType
  | int => ⟨.integer, false, []⟩
  | long => ⟨.long, false, []⟩

/-- What may stand behind the digits of a default. -/
def suffixes : IntegerType → List Text
  | int => [[]]
  | long => [[], "l", "L"]

def mark : IntegerType → Text
  | int => []
  | long => "L"

def read? (w : IntegerType) (t : Text) : Option (BitVec w.bits) :=
  (Text.dropEnd? w.mark t).bind (readExpression? w.bits)

end IntegerType

namespace Literal

/-- An optional minus, and decimal digits or hexadecimal ones behind a zero and an `x`. -/
structure Spelling where
  negative : Bool
  mark : Option CodePoint
  digits : Text
  mark_eq : ∀ c ∈ mark, c = 'x' ∨ c = 'X'
  isDigits : IsDigits (if mark.isSome then 16 else 10) digits

namespace Spelling

def isHex (s : Spelling) : Bool := s.mark.isSome

def sign (s : Spelling) : Text := if s.negative then "-" else []

def unsigned (s : Spelling) : Text :=
  match s.mark with
  | some c => ('0' : CodePoint) :: c :: s.digits
  | none => s.digits

def text (s : Spelling) : Text := s.sign ++ s.unsigned

def magnitude (s : Spelling) : Nat := digitsValue (if s.isHex then 16 else 10) s.digits

def value (s : Spelling) : Int := if s.negative then -s.magnitude else s.magnitude

/-- The range of hexadecimal digits without a minus is unsigned. -/
def InRange (s : Spelling) (bits : Nat) : Prop :=
  if s.isHex ∧ ¬s.negative then 0 ≤ s.value ∧ s.value ≤ 2 ^ bits - 1
  else -2 ^ (bits - 1) ≤ s.value ∧ s.value ≤ 2 ^ (bits - 1) - 1

def IsShort (s : Spelling) : Prop := s.isHex = false → s.digits.length ≤ integerDigitLimit

def numeral (s : Spelling) : Numeral :=
  ⟨s.negative, s.isHex, s.digits.map fun c => c.hexValue?.getD 0⟩

theorem numeral_magnitude (s : Spelling) : s.numeral.magnitude = s.magnitude := rfl

theorem inRange_iff {s : Spelling} {bits : Nat} :
    s.InRange bits ↔ s.numeral.magnitude ≤ s.numeral.limit bits := by
  have hhalf : 0 < 2 ^ (bits - 1) := Nat.two_pow_pos _
  have hfull : 0 < 2 ^ bits := Nat.two_pow_pos _
  have hcast (n : Nat) : (2 : Int) ^ n = (2 ^ n : Nat) := by push_cast; rfl
  rw [numeral_magnitude]
  unfold InRange value Numeral.limit numeral
  simp only [Nat.pow_eq, hcast]
  generalize 2 ^ bits = full at *
  generalize 2 ^ (bits - 1) = half at *
  cases s.negative with
  | true =>
    simp only [not_true_eq_false, and_false, if_false, if_true]
    omega
  | false =>
    cases s.isHex with
    | true =>
      simp only [Bool.false_eq_true, not_false_eq_true, and_true, if_true, if_false]
      omega
    | false =>
      simp only [Bool.false_eq_true, false_and, if_false]
      omega

theorem digitValues?_of_digits {digit? : CodePoint → Option Nat} {t : Text} (hne : t ≠ [])
    (h : ∀ c ∈ t, digit? c = some (c.hexValue?.getD 0)) :
    digitValues? digit? t = some (t.map fun c => c.hexValue?.getD 0) := by
  rw [digitValues?, if_neg (by simpa using hne), mapM_some, List.forall₂_map_right_iff,
    List.forall₂_same]
  exact h

theorem hexValues_of_digits {t : Text} (h : IsDigits 16 t) :
    digitValues? CodePoint.hexValue? t = some (t.map fun c => c.hexValue?.getD 0) := by
  apply digitValues?_of_digits h.ne_nil
  intro c hc
  obtain ⟨d, hd, -⟩ := h.digit c hc
  rw [hd]
  rfl

theorem decimalValues_of_digits {t : Text} (h : IsDigits 10 t) :
    digitValues? decimalValue? t = some (t.map fun c => c.hexValue?.getD 0) := by
  apply digitValues?_of_digits h.ne_nil
  intro c hc
  rw [decimalValue?, if_pos (h.digit c hc).isAsciiDigit, (h.digit c hc).value]

theorem isDigits_of_decimalValues {t : Text} {ds : List Nat}
    (h : digitValues? decimalValue? t = some ds) : IsDigits 10 t := by
  obtain ⟨hne, hvalues⟩ := digitValues?_some h
  refine ⟨hne, fun c hc => ?_⟩
  obtain ⟨d, -, hd⟩ := partner_of_mem_left hvalues hc
  have hdigit := decimalValue?_some hd
  refine ⟨c.val - 0x30, if_pos hdigit, ?_⟩
  simp only [CodePoint.isAsciiDigit, Bool.and_eq_true, decide_eq_true_eq] at hdigit
  omega

theorem scanUnsigned?_unsigned (s : Spelling) :
    scanUnsigned? s.negative s.unsigned = some s.numeral := by
  obtain ⟨negative, mark, digits, hmark, hdigits⟩ := s
  cases mark with
  | some c =>
    unfold scanUnsigned? unsigned
    simp only [hmark c rfl, and_true, if_true, hexValues_of_digits hdigits]
    rfl
  | none =>
    replace hdigits : IsDigits 10 digits := hdigits
    have hscan := decimalValues_of_digits hdigits
    unfold scanUnsigned? unsigned
    simp only [hscan]
    split
    -- Decimal digits are not taken for a mark and what follows it.
    next zero second rest =>
      rw [if_neg]
      · rfl
      · rintro ⟨-, rfl | rfl⟩
        · exact hdigits.notMem (c := 'x') rfl (by simp)
        · exact hdigits.notMem (c := 'X') rfl (by simp)
    · rfl

theorem sign_eq (s : Spelling) : s.sign = [] ∨ s.sign = ("-" : Text) := by
  unfold sign
  cases s.negative with
  | true => exact .inr rfl
  | false => exact .inl rfl

theorem notMem_unsigned (s : Spelling) {c : CodePoint} (hdigit : c.hexValue? = none)
    (hsmall : c ≠ 'x') (hcapital : c ≠ 'X') : c ∉ s.unsigned := by
  have hdigits := s.isDigits.notMem hdigit
  have hzero : c ≠ '0' := by
    rintro rfl
    cases hdigit
  unfold unsigned
  split
  next mark hmark =>
    have hmarked : c ≠ mark := by
      rcases s.mark_eq mark hmark with rfl | rfl
      · exact hsmall
      · exact hcapital
    simp [hzero, hmarked, hdigits]
  · exact hdigits

theorem notMem_text (s : Spelling) {c : CodePoint} (hdigit : c.hexValue? = none) (hminus : c ≠ '-')
    (hsmall : c ≠ 'x') (hcapital : c ≠ 'X') : c ∉ s.text := by
  have hsign : c ∉ s.sign := by
    rcases s.sign_eq with h | h
    · simp [h]
    · simpa [h, Text.ofString] using hminus
  rw [text, List.mem_append, not_or]
  exact ⟨hsign, s.notMem_unsigned hdigit hsmall hcapital⟩

theorem unsigned_cons (s : Spelling) : ∃ c rest, s.unsigned = c :: rest ∧ c ≠ '-' := by
  have hne : s.unsigned ≠ [] := by
    unfold unsigned
    split
    · exact List.cons_ne_nil _ _
    · exact s.isDigits.ne_nil
  obtain ⟨c, rest, h⟩ := List.exists_cons_of_ne_nil hne
  refine ⟨c, rest, h, ?_⟩
  rintro rfl
  exact s.notMem_unsigned (c := '-') rfl (by decide) (by decide) (by simp [h])

theorem scan?_text (s : Spelling) : Numeral.scan? s.text = some s.numeral := by
  have hline := s.notMem_text (c := '\n') rfl (by decide) (by decide) (by decide)
  have hscan := s.scanUnsigned?_unsigned
  rw [Numeral.scan?, dropFinalLineFeed_of_notMem hline, text, sign]
  cases hnegative : s.negative with
  | true =>
    rw [hnegative] at hscan
    exact hscan
  | false =>
    obtain ⟨c, rest, hunsigned, hc⟩ := s.unsigned_cons
    rw [hnegative, hunsigned] at hscan
    rw [hunsigned]
    exact (if_neg hc).trans hscan

theorem exists_text_iff {v : Text} (hline : ('\n' : CodePoint) ∉ v) :
    (∃ n, Numeral.scan? v = some n) ↔ ∃ s : Spelling, v = s.text := by
  constructor
  · rintro ⟨n, hn⟩
    obtain ⟨sign, body, negative, hvalue, hsign, hbody⟩ := scan?_some hn
    rw [dropFinalLineFeed_of_notMem hline] at hvalue
    have hnegative : ∃ negative : Bool, sign = if negative then ("-" : Text) else [] := by
      rcases hsign with rfl | rfl
      · exact ⟨false, rfl⟩
      · exact ⟨true, rfl⟩
    obtain ⟨negative, rfl⟩ := hnegative
    rcases scanUnsigned?_some hbody with ⟨hdigits, -⟩ | ⟨mark, digits, rfl, hmark, hdigits, -⟩
    · exact ⟨⟨negative, none, body, nofun, isDigits_of_decimalValues hdigits⟩, hvalue⟩
    · have hmarked : ∀ c ∈ some mark, c = 'x' ∨ c = 'X' := by
        rintro _ ⟨⟩
        exact hmark
      exact ⟨⟨negative, some mark, digits, hmarked, (isDigits_of_hexValues hdigits).1⟩, hvalue⟩
  · rintro ⟨s, rfl⟩
    exact ⟨s.numeral, s.scan?_text⟩

/-- What the spelling becomes: hexadecimal digits stay as they are. -/
def emitted (s : Spelling) : Text := if s.isHex then s.text else Text.ofInt s.value

theorem integral_text (s : Spelling) (bits : Nat) (type : ArgumentType) :
    (s.IsShort ∧ s.InRange bits ∧ integral bits s.text type = .ok s.emitted) ∨
      (s.IsShort ∧ ¬s.InRange bits ∧ integral bits s.text type = outOfRange s.text type) ∨
      (¬s.IsShort ∧ integral bits s.text type = .error (.hugeInteger s.digits.length)) := by
  have hlength : s.numeral.digits.length = s.digits.length := List.length_map _
  have hshort : s.IsShort ↔
      ¬(!s.numeral.isHex && decide (integerDigitLimit < s.numeral.digits.length)) = true := by
    rw [hlength]
    show (s.isHex = false → _) ↔ ¬(!s.isHex && _) = true
    cases s.isHex with
    | true => simp
    | false => simp
  rw [inRange_iff, hshort]
  unfold integral
  simp only [s.scan?_text]
  split
  next hhuge => exact .inr (.inr ⟨not_not_intro hhuge, by rw [hlength]⟩)
  next hhuge =>
    split
    next hlimit => exact .inr (.inl ⟨hhuge, Nat.not_le.mpr hlimit, rfl⟩)
    next hlimit => exact .inl ⟨hhuge, Nat.not_lt.mp hlimit, rfl⟩

theorem literalParts_of_isDecimal {t : Text} (h : IsDecimal t) : literalParts t = (10, t) := by
  unfold literalParts
  split
  next zero mark digits =>
    rw [if_neg]
    rintro rfl
    exact nomatch h.leading _ rfl
  · rfl

theorem readLiteral?_ofNat {bits n : Nat} {negated : Bool} (h : n ≤ literalLimit bits 10 negated) :
    readLiteral? bits negated (Text.ofNat n) = some (BitVec.ofNat bits n) := by
  have hdecimal := ofNat_isDecimal n
  unfold readLiteral?
  rw [literalParts_of_isDecimal hdecimal]
  simp only [digitsValue_ofNat]
  exact if_pos ⟨hdecimal.toIsDigits, h⟩

theorem readExpression?_of_ne {bits : Nat} {t : Text} (hne : t ≠ [])
    (hminus : ('-' : CodePoint) ∉ t) : readExpression? bits t = readLiteral? bits false t := by
  obtain ⟨c, rest, rfl⟩ := List.exists_cons_of_ne_nil hne
  rw [List.mem_cons, not_or] at hminus
  exact if_neg (Ne.symm hminus.1)

theorem readExpression?_ofInt {bits : Nat} {n : Int} (hleast : -2 ^ (bits - 1) ≤ n)
    (hmost : n ≤ 2 ^ (bits - 1) - 1) :
    readExpression? bits (Text.ofInt n) = some (BitVec.ofInt bits n) := by
  have hcast : (2 : Int) ^ (bits - 1) = (2 ^ (bits - 1) : Nat) := by push_cast; rfl
  rw [hcast] at hleast hmost
  cases n with
  | ofNat m =>
    have hdigits := (ofNat_isDecimal m).toIsDigits
    have hlimit : m ≤ literalLimit bits 10 false := by
      simp only [literalLimit, if_true, Bool.false_eq_true, if_false]
      rw [Int.ofNat_eq_natCast] at hmost
      omega
    show readExpression? bits (Text.ofNat m) = _
    rw [readExpression?_of_ne hdigits.ne_nil (hdigits.notMem rfl), readLiteral?_ofNat hlimit]
    rfl
  | negSucc m =>
    have hlimit : m + 1 ≤ literalLimit bits 10 true := by
      simp only [literalLimit, if_true]
      omega
    show (readLiteral? bits true (Text.ofNat (m + 1))).map (-·) = _
    rw [readLiteral?_ofNat hlimit, Option.map_some, Int.negSucc_eq, BitVec.ofInt_neg]
    rfl

theorem literalParts_unsigned {s : Spelling} (hhex : s.isHex = true) :
    literalParts s.unsigned = (16, s.digits) := by
  obtain ⟨negative, mark, digits, hmark, hdigits⟩ := s
  cases mark with
  | none => cases hhex
  | some c =>
    unfold unsigned literalParts
    dsimp only
    rw [if_pos rfl, if_pos (hmark c rfl)]

theorem readLiteral?_unsigned {s : Spelling} {bits : Nat} {negated : Bool} (hhex : s.isHex = true)
    (h : s.magnitude < 2 ^ bits) :
    readLiteral? bits negated s.unsigned = some (BitVec.ofNat bits s.magnitude) := by
  have hdigits := s.isDigits
  have hmagnitude : s.magnitude = digitsValue 16 s.digits := by rw [magnitude, if_pos hhex]
  rw [if_pos (show s.mark.isSome = true from hhex)] at hdigits
  rw [hmagnitude] at h ⊢
  unfold readLiteral?
  rw [literalParts_unsigned hhex]
  refine if_pos ⟨hdigits, ?_⟩
  show _ ≤ 2 ^ bits - 1
  omega

theorem readExpression?_hex {s : Spelling} {bits : Nat} (hbits : 0 < bits) (hhex : s.isHex = true)
    (hrange : s.InRange bits) :
    readExpression? bits s.text = some (BitVec.ofInt bits s.value) := by
  have hlimit : s.magnitude < 2 ^ bits :=
    Nat.lt_of_le_of_lt (inRange_iff.mp hrange) (limit_lt hbits hhex)
  rw [text, sign, value]
  cases s.negative with
  | true =>
    show (readLiteral? bits true s.unsigned).map (-·) = _
    rw [readLiteral?_unsigned hhex hlimit, Option.map_some, if_pos rfl, BitVec.ofInt_neg,
      BitVec.ofInt_natCast]
  | false =>
    obtain ⟨c, rest, hunsigned, -⟩ := s.unsigned_cons
    have hminus := s.notMem_unsigned (c := '-') rfl (by decide) (by decide)
    show readExpression? bits s.unsigned = some (BitVec.ofInt bits s.magnitude)
    rw [readExpression?_of_ne (by simp [hunsigned]) hminus, readLiteral?_unsigned hhex hlimit,
      BitVec.ofInt_natCast]

theorem readExpression?_emitted {s : Spelling} {bits : Nat} (hbits : 0 < bits)
    (hrange : s.InRange bits) :
    readExpression? bits s.emitted = some (BitVec.ofInt bits s.value) := by
  unfold emitted
  cases hhex : s.isHex with
  | true => exact readExpression?_hex hbits hhex hrange
  | false =>
    simp only [InRange, hhex, Bool.false_eq_true, false_and, if_false] at hrange
    exact readExpression?_ofInt hrange.1 hrange.2

/-! ### Decimal spellings of integers -/

def ofInt (n : Int) : Spelling where
  negative := decide (n < 0)
  mark := none
  digits := Text.ofNat n.natAbs
  mark_eq := nofun
  isDigits := (ofNat_isDecimal n.natAbs).toIsDigits

theorem text_ofInt (n : Int) : (ofInt n).text = Text.ofInt n := by
  cases n with
  | ofNat m =>
    simp [text, sign, unsigned, ofInt, Text.ofInt]
  | negSucc m =>
    have hsign : Int.negSucc m < 0 := Int.negSucc_lt_zero m
    simp [text, sign, unsigned, ofInt, hsign, Text.ofInt, Text.ofString]

theorem value_ofInt (n : Int) : (ofInt n).value = n := by
  have hmagnitude : (ofInt n).magnitude = n.natAbs := digitsValue_ofNat _
  rw [value, hmagnitude]
  show (if decide (n < 0) = true then _ else _) = _
  simp only [decide_eq_true_eq]
  omega

theorem inRange_ofInt {n : Int} {bits : Nat} :
    (ofInt n).InRange bits ↔ -2 ^ (bits - 1) ≤ n ∧ n ≤ 2 ^ (bits - 1) - 1 := by
  unfold InRange
  rw [value_ofInt, if_neg]
  exact fun h => nomatch h.1

theorem isShort_ofInt {n : Int} (h : decimalLength n.natAbs ≤ integerDigitLimit) :
    (ofInt n).IsShort := by
  intro _
  show (Text.ofNat n.natAbs).length ≤ _
  rw [Text.ofNat, List.length_map]
  exact h

theorem emitted_ofInt (n : Int) : (ofInt n).emitted = Text.ofInt n := by
  rw [emitted, value_ofInt]
  rfl

end Spelling
end Literal

/-! ### Defaults of both types -/

namespace IntegerType

open Literal

variable {w : IntegerType} {s : Spelling} {suffix : Text} {applicationId : Text}

theorem bits_pos (w : IntegerType) : 0 < w.bits := by
  cases w with
  | int => decide
  | long => decide

theorem literal_text (hsuffix : suffix ∈ w.suffixes) :
    w.argumentType.literal (.text (s.text ++ suffix)) applicationId =
      (integral w.bits s.text w.argumentType).map (· ++ w.mark) := by
  cases w with
  | int =>
    rw [List.mem_singleton.mp hsuffix, List.append_nil]
    show integral 32 s.text _ = (integral 32 s.text _).map (· ++ [])
    cases integral 32 s.text _ with
    | error f => rfl
    | ok t => simp [Except.map]
  | long =>
    have hdrop : dropSuffix 'l' 'L' (s.text ++ suffix) = s.text := by
      have hsmall := s.notMem_text (c := 'l') rfl (by decide) (by decide) (by decide)
      have hcapital := s.notMem_text (c := 'L') rfl (by decide) (by decide) (by decide)
      simp only [suffixes, List.mem_cons, List.not_mem_nil, or_false] at hsuffix
      rcases hsuffix with rfl | rfl | rfl
      · rw [List.append_nil, dropSuffix_of_notMem hsmall hcapital]
      · exact dropSuffix_concat (.inl rfl) s.text
      · exact dropSuffix_concat (.inr rfl) s.text
    show Literal.long (s.text ++ suffix) _ = _
    rw [Literal.long, hdrop]
    rfl

theorem read?_append_mark (t : Text) : w.read? (t ++ w.mark) = readExpression? w.bits t := by
  have hdrop : Text.dropEnd? w.mark (t ++ w.mark) = some t := Text.dropEnd?_eq_some_iff.mpr rfl
  rw [read?, hdrop, Option.bind_some]

/-- A default is accepted where it is short and in range, and else out of range or too long. -/
theorem literal_cases (s : Spelling) (applicationId : Text) (hsuffix : suffix ∈ w.suffixes) :
    (s.IsShort ∧ s.InRange w.bits ∧
      w.argumentType.literal (.text (s.text ++ suffix)) applicationId = .ok (s.emitted ++ w.mark)) ∨
    (s.IsShort ∧ ¬s.InRange w.bits ∧
      w.argumentType.literal (.text (s.text ++ suffix)) applicationId =
        outOfRange s.text w.argumentType) ∨
    (¬s.IsShort ∧ w.argumentType.literal (.text (s.text ++ suffix)) applicationId =
      .error (.hugeInteger s.digits.length)) := by
  rw [literal_text hsuffix]
  rcases s.integral_text w.bits w.argumentType with
    ⟨hshort, hrange, h⟩ | ⟨hshort, hrange, h⟩ | ⟨hshort, h⟩
  · exact .inl ⟨hshort, hrange, by rw [h]; rfl⟩
  · exact .inr (.inl ⟨hshort, hrange, by rw [h]; rfl⟩)
  · exact .inr (.inr ⟨hshort, by rw [h]; rfl⟩)

theorem of_literal_ok {text : Text} (hsuffix : suffix ∈ w.suffixes)
    (h : w.argumentType.literal (.text (s.text ++ suffix)) applicationId = .ok text) :
    s.IsShort ∧ s.InRange w.bits ∧ text = s.emitted ++ w.mark := by
  rcases literal_cases s applicationId hsuffix with
    ⟨hshort, hrange, hok⟩ | ⟨-, -, herror⟩ | ⟨-, herror⟩
  · rw [hok] at h
    exact ⟨hshort, hrange, (Except.ok.inj h).symm⟩
  · rw [herror] at h
    cases h
  · rw [herror] at h
    cases h

theorem spelled_of_literal {v text : Text} (hline : ('\n' : CodePoint) ∉ v)
    (h : w.argumentType.literal (.text v) applicationId = .ok text) :
    ∃ s suffix, suffix ∈ w.suffixes ∧ v = Spelling.text s ++ suffix := by
  cases w with
  | int =>
    replace h : integral 32 v _ = .ok text := h
    obtain ⟨n, hscan, -⟩ := integral_ok h
    obtain ⟨s, rfl⟩ := (Spelling.exists_text_iff hline).mp ⟨n, hscan⟩
    exact ⟨s, [], List.mem_singleton.mpr rfl, (List.append_nil _).symm⟩
  | long =>
    replace h : Literal.long v _ = .ok text := h
    obtain ⟨body, hbody, -⟩ := map_ok.mp h
    obtain ⟨n, hscan, -⟩ := integral_ok hbody
    obtain ⟨suffix, hv, hsuffix⟩ := dropSuffix_cases 'l' 'L' v
    have hkept : ('\n' : CodePoint) ∉ dropSuffix 'l' 'L' v := by
      rw [hv, List.mem_append, not_or] at hline
      exact hline.1
    obtain ⟨s, hs⟩ := (Spelling.exists_text_iff hkept).mp ⟨n, hscan⟩
    refine ⟨s, suffix, ?_, hs ▸ hv⟩
    rcases hsuffix with rfl | rfl | rfl
    · simp [suffixes]
    · simp [suffixes, Text.ofString]
    · simp [suffixes, Text.ofString]

theorem accepted_iff {v : Text} (hline : ('\n' : CodePoint) ∉ v) :
    (∃ text, w.argumentType.literal (.text v) applicationId = .ok text) ↔
      ∃ s suffix, suffix ∈ w.suffixes ∧ v = Spelling.text s ++ suffix ∧
        s.IsShort ∧ s.InRange w.bits := by
  constructor
  · rintro ⟨text, h⟩
    obtain ⟨s, suffix, hsuffix, rfl⟩ := spelled_of_literal hline h
    obtain ⟨hshort, hrange, -⟩ := of_literal_ok hsuffix h
    exact ⟨s, suffix, hsuffix, rfl, hshort, hrange⟩
  · rintro ⟨s, suffix, hsuffix, rfl, hshort, hrange⟩
    rcases literal_cases s applicationId hsuffix with ⟨-, -, h⟩ | ⟨-, hout, -⟩ | ⟨hlong, -⟩
    · exact ⟨_, h⟩
    · exact absurd hrange hout
    · exact absurd hshort hlong

theorem read?_literal {text : Text} (hsuffix : suffix ∈ w.suffixes)
    (h : w.argumentType.literal (.text (s.text ++ suffix)) applicationId = .ok text) :
    w.read? text = some (BitVec.ofInt w.bits s.value) := by
  obtain ⟨-, hrange, rfl⟩ := of_literal_ok hsuffix h
  rw [read?_append_mark, Spelling.readExpression?_emitted w.bits_pos hrange]

/-! ### Integers in a document -/

def Holds (w : IntegerType) (n : Int) : Prop := -2 ^ (w.bits - 1) ≤ n ∧ n ≤ 2 ^ (w.bits - 1) - 1

theorem toInt_ofInt {n : Int} (h : w.Holds n) : (BitVec.ofInt w.bits n).toInt = n := by
  obtain ⟨hleast, hmost⟩ := h
  rw [BitVec.toInt_ofInt]
  apply Int.bmod_eq_of_le
  all_goals cases w
  all_goals simp only [bits] at *
  all_goals omega

theorem default_of_argumentOf {fields : List (Text × Json)} {x : ActionArgument} {n : Int}
    (h : Document.argumentOf (.object fields) = .ok x)
    (hdefault : Json.find? "default" fields = some (.int n)) : x.default = some (Text.ofInt n) := by
  obtain ⟨fields', hfields, h⟩ := bind_ok.mp h
  cases Document.fieldsOf_ok.mp (mapError_ok.mp hfields)
  replace h := mapError_ok.mp h
  split at h
  · cases h
  · obtain ⟨type, -, h⟩ := bind_ok.mp h
    obtain ⟨default, hread, hmake⟩ := bind_ok.mp h
    obtain ⟨t, ht, rfl⟩ : ∃ t, Document.defaultText (.int n) = .ok t ∧ default = some t := by
      have hfound := mapError_ok.mp hread
      unfold Document.defaultOf at hfound
      rw [hdefault] at hfound
      obtain ⟨t, ht, hsome⟩ := map_ok.mp hfound
      exact ⟨t, ht, hsome.symm⟩
    obtain rfl : t = Text.ofInt n := by
      have hwritten := mapError_ok.mp ht
      unfold Json.written at hwritten
      split at hwritten
      · exact (Except.ok.inj hwritten).symm
      · cases hwritten
    unfold ActionArgument.make at hmake
    split at hmake
    · cases hmake
      rfl
    · cases hmake

theorem hold_default {x : ActionArgument} {value : Text} (applicationId : Text)
    (htype : x.type = w.argumentType) (hname : x.name.isScalar = true)
    (hdefault : x.default = some value) :
    x.hold applicationId =
      match w.argumentType.literal (.text value) applicationId with
      | .ok text => .ok ⟨x.name, w.argumentType.tag.fieldType,
          w.argumentType.tag.putOperation, some text⟩
      | .error (.model f) => .error (.model ⟨f, .atArgument x.name⟩)
      | .error (.hugeInteger digits) => .error (.breakdown (.hugeInteger digits))
      | .error (.kind k) => .error (.kind k) := by
  unfold ActionArgument.hold
  simp only [htype, hname, hdefault, Bool.not_true, Bool.false_eq_true, if_false]
  have hcheck : w.argumentType.check = .ok () := by cases w <;> rfl
  rw [ArgumentType.representation, ArgumentType.putOperation, hcheck]
  cases w.argumentType.literal (.text value) applicationId with
  | ok text => cases w <;> rfl
  | error f => cases f <;> rfl

/-- An integer of a document is held where it is in range, with an initializer that has its value;
else it is a fault. -/
theorem hold_integer {fields : List (Text × Json)} {x : ActionArgument} {n : Int}
    (applicationId : Text) (h : Document.argumentOf (.object fields) = .ok x)
    (hdefault : Json.find? "default" fields = some (.int n))
    (hdigits : decimalLength n.natAbs ≤ integerDigitLimit) (htype : x.type = w.argumentType)
    (hname : x.name.isScalar = true) :
    (w.Holds n ∧ ∃ held text, x.hold applicationId = .ok held ∧ held.initializer = some text ∧
      (w.read? text).map BitVec.toInt = some n) ∨
    (¬w.Holds n ∧ x.hold applicationId =
      .error (.model ⟨.outOfRange (Text.ofInt n) w.argumentType, .atArgument x.name⟩)) := by
  have hnone : [] ∈ w.suffixes := by
    cases w with
    | int => exact List.mem_cons_self
    | long => exact List.mem_cons_self
  have hheld := hold_default applicationId htype hname (default_of_argumentOf h hdefault)
  have hcases := literal_cases (.ofInt n) applicationId hnone
  simp only [List.append_nil, Spelling.text_ofInt, Spelling.inRange_ofInt,
    Spelling.emitted_ofInt] at hcases
  rcases hcases with ⟨-, hrange, hok⟩ | ⟨-, hrange, herror⟩ | ⟨hlong, -⟩
  · rw [hok] at hheld
    refine .inl ⟨hrange, _, _, hheld, rfl, ?_⟩
    rw [read?_append_mark, Spelling.readExpression?_ofInt hrange.1 hrange.2, Option.map_some,
      toInt_ofInt hrange]
  · rw [herror] at hheld
    exact .inr ⟨hrange, hheld⟩
  · exact absurd (Spelling.isShort_ofInt hdigits) hlong

/-- A default of one line is accepted exactly if it spells an integer of its range, and a compiler
reads that integer, up to the bits, in what it becomes.  An integer of a document gets an
initializer of its value exactly if it is in range, and a fault exactly if it is not; the name of the
argument is a scalar, as all names in an action are. -/
theorem integers_keep_value (w : IntegerType) (applicationId : Text) :
    (∀ v : Text, ('\n' : CodePoint) ∉ v →
      ((∃ text, w.argumentType.literal (.text v) applicationId = .ok text) ↔
        ∃ s suffix, suffix ∈ w.suffixes ∧ v = Spelling.text s ++ suffix ∧
          s.IsShort ∧ s.InRange w.bits) ∧
      ∀ s suffix text, suffix ∈ w.suffixes → v = Spelling.text s ++ suffix →
        w.argumentType.literal (.text v) applicationId = .ok text →
        w.read? text = some (BitVec.ofInt w.bits s.value)) ∧
    ∀ fields x n, Document.argumentOf (.object fields) = .ok x →
      Json.find? "default" fields = some (.int n) → decimalLength n.natAbs ≤ integerDigitLimit →
      x.type = w.argumentType → x.name.isScalar = true →
      ((∃ held text, x.hold applicationId = .ok held ∧ held.initializer = some text ∧
          (w.read? text).map BitVec.toInt = some n) ↔ w.Holds n) ∧
      ((∃ e, x.hold applicationId = .error (.model e)) ↔ ¬w.Holds n) := by
  constructor
  · intro v hline
    refine ⟨accepted_iff hline, ?_⟩
    rintro s suffix text hsuffix rfl htext
    exact read?_literal hsuffix htext
  · intro fields x n h hdefault hdigits htype hname
    rcases hold_integer applicationId h hdefault hdigits htype hname with
      ⟨hrange, held, text, hheld, hkept⟩ | ⟨hrange, herror⟩
    · refine ⟨iff_of_true ⟨held, text, hheld, hkept⟩ hrange, iff_of_false ?_ (not_not_intro hrange)⟩
      rintro ⟨e, he⟩
      rw [hheld] at he
      cases he
    · refine ⟨iff_of_false ?_ hrange, iff_of_true ⟨_, herror⟩ hrange⟩
      rintro ⟨held, text, hheld, -⟩
      rw [herror] at hheld
      cases hheld

def leastHex : Spelling := ⟨true, some 'x', "80000000", by simp, by decide⟩

/-- The document of an argument with the least long integer for its default. -/
def leastFields : List (Text × Json) :=
  [("name", .text "id"), ("type", .text "long"), ("default", .int (-9223372036854775808))]

def leastArgument : ActionArgument :=
  ⟨.text "id", ⟨.long, false, []⟩, some "-9223372036854775808", rfl⟩

/-- The least integers, one of them in hexadecimal digits and the other from a document. -/
theorem least_integers_are_read :
    (∃ text, int.argumentType.literal (.text "-0x80000000") [] = .ok text ∧
      int.read? text = some (BitVec.ofInt 32 (-2147483648))) ∧
    Document.argumentOf (.object leastFields) = .ok leastArgument ∧
    ∃ held text, leastArgument.hold [] = .ok held ∧ held.initializer = some text ∧
      (long.read? text).map BitVec.toInt = some (-9223372036854775808) := by
  obtain ⟨hspelled, hread⟩ := (integers_keep_value int []).1 "-0x80000000" (by decide)
  have hrange : leastHex.InRange 32 := Spelling.inRange_iff.mpr (by decide)
  obtain ⟨text, htext⟩ :=
    hspelled.mpr ⟨leastHex, [], List.mem_singleton.mpr rfl, rfl, nofun, hrange⟩
  have hbits := hread leastHex [] text (List.mem_singleton.mpr rfl) rfl htext
  have hargument : Document.argumentOf (.object leastFields) = .ok leastArgument := rfl
  have hinteger := (integers_keep_value long []).2 leastFields leastArgument
    (-9223372036854775808) hargument rfl (by decide) rfl rfl
  exact ⟨⟨text, htext, hbits⟩, hargument, hinteger.1.mpr ⟨by decide, by decide⟩⟩

end IntegerType
end NavDirections
