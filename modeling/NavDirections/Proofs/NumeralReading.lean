import NavDirections.Json.Reader
import NavDirections.Json.Writer
import NavDirections.Proofs.NumeralValues

/-!
# Reading numerals back

A reader of documents takes the text of an integer for that integer, and the text of a double for
that double.
-/

namespace NavDirections

variable {t u rest : Text}

namespace Decimal

/-- Does a text go on with something else than a digit? -/
def StopsDigits (rest : Text) : Prop := ∀ c ∈ rest.head?, c.isAsciiDigit = false

theorem spanDigits_append (ht : ∀ c ∈ t, c.IsDigit 10) (hrest : StopsDigits rest) :
    spanDigits (t ++ rest) = (places t, rest) := by
  have hall : ∀ c ∈ t, c.isAsciiDigit = true := fun c hc => (ht c hc).isAsciiDigit
  have hstop : rest.takeWhile CodePoint.isAsciiDigit = [] ∧
      rest.dropWhile CodePoint.isAsciiDigit = rest := by
    cases rest with
    | nil => exact ⟨rfl, rfl⟩
    | cons c rest =>
      have hc := hrest c rfl
      simp [hc]
  unfold spanDigits
  rw [List.takeWhile_append_of_pos hall, List.dropWhile_append_of_pos hall, hstop.1, hstop.2,
    List.append_nil]
  rfl

end Decimal

namespace Json

open Decimal

/-- Does nothing in front of the text belong to a numeral? -/
def EndsNumeral (rest : Text) : Prop :=
  ∀ c ∈ rest.head?, c.isAsciiDigit = false ∧ c ≠ '.' ∧ c ≠ 'e' ∧ c ≠ 'E'

theorem EndsNumeral.stops (h : EndsNumeral rest) : StopsDigits rest := fun c hc => (h c hc).1

theorem readFraction_of_ends (h : EndsNumeral rest) : readFraction rest = none := by
  cases rest with
  | nil => rfl
  | cons c rest => exact if_neg (h c rfl).2.1

theorem readPower_of_ends (h : EndsNumeral rest) : readPower rest = none := by
  cases rest with
  | nil => rfl
  | cons c rest => exact if_neg (not_or.mpr (h c rfl).2.2)

theorem readWhole_append (ht : IsDecimal t) (hrest : StopsDigits rest) :
    readWhole (t ++ rest) = some (places t, rest) := by
  obtain ⟨c, more, rfl⟩ := List.exists_cons_of_ne_nil ht.ne_nil
  show readWhole (c :: (more ++ rest)) = _
  unfold readWhole
  dsimp only
  split
  next hzero =>
    rw [ht.leading more (by rw [hzero]), hzero]
    rfl
  next =>
    rw [← List.cons_append, spanDigits_append ht.digit hrest]
    rfl

theorem readFraction_point (ht : IsDigits 10 t) (hrest : StopsDigits rest) :
    readFraction (('.' : CodePoint) :: (t ++ rest)) = some (places t, rest) := by
  obtain ⟨c, more, rfl⟩ := List.exists_cons_of_ne_nil ht.ne_nil
  unfold readFraction
  dsimp only
  rw [if_pos rfl, spanDigits_append ht.digit hrest]
  rfl

theorem readPower_append {tail : Text} {e : Int} (ht : IsPowerOf tail e)
    (hrest : StopsDigits rest) : readPower (tail ++ rest) = some (e, rest) := by
  cases ht with
  | @plus digits h =>
    have hspan := spanDigits_append h.digit hrest
    have hvalue := ofDigits_places h.digit
    obtain ⟨c, more, rfl⟩ := List.exists_cons_of_ne_nil h.ne_nil
    have hsign : scanSign ('+' :: (c :: more ++ rest)) = (false, c :: more ++ rest) := rfl
    show readPower ('e' :: '+' :: (c :: more ++ rest)) = _
    unfold readPower
    dsimp only
    rw [if_pos (.inl rfl), hsign, hspan]
    show some ((ofDigits 10 (places (c :: more)) : Int), rest) = _
    rw [hvalue]
  | @minus digits h =>
    have hspan := spanDigits_append h.digit hrest
    have hvalue := ofDigits_places h.digit
    obtain ⟨c, more, rfl⟩ := List.exists_cons_of_ne_nil h.ne_nil
    have hsign : scanSign ('-' :: (c :: more ++ rest)) = (true, c :: more ++ rest) := rfl
    show readPower ('e' :: '-' :: (c :: more ++ rest)) = _
    unfold readPower
    dsimp only
    rw [if_pos (.inl rfl), hsign, hspan]
    show some (-(ofDigits 10 (places (c :: more)) : Int), rest) = _
    rw [hvalue]

theorem stopsDigits_power {tail : Text} {e : Int} (ht : IsPowerOf tail e) (t : Text) :
    StopsDigits (tail ++ t) := by
  intro c hc
  cases ht with
  | plus _ => cases hc; rfl
  | minus _ => cases hc; rfl

theorem readFraction_of_power {tail : Text} {e : Int} (ht : IsPowerOf tail e) (t : Text) :
    readFraction (tail ++ t) = none := by
  cases ht with
  | plus _ => rfl
  | minus _ => rfl

theorem readUnsigned_whole (negative : Bool) (ht : IsDecimal t) (hrest : EndsNumeral rest) :
    readUnsigned negative (t ++ rest) = some (
      if integerDigitLimit < t.length then .error (.hugeInteger t.length)
      else .ok (int (if negative then -(digitsValue 10 t : Int) else digitsValue 10 t), rest)) := by
  unfold readUnsigned
  rw [readWhole_append ht hrest.stops, Option.map_some]
  dsimp only
  rw [readFraction_of_ends hrest, readPower_of_ends hrest]
  dsimp only
  rw [length_places, ofDigits_places ht.digit]

theorem readUnsigned_point (negative : Bool) (ht : IsDecimal t) (hu : IsDigits 10 u)
    (hrest : StopsDigits rest) :
    readUnsigned negative (t ++ ('.' : CodePoint) :: (u ++ rest)) = some (
      match readPower rest with
      | none => .ok (float (.ofDecimal negative ⟨digitsValue 10 (t ++ u), -u.length⟩), rest)
      | some (power, rest) =>
        .ok (float (.ofDecimal negative ⟨digitsValue 10 (t ++ u), power - u.length⟩), rest)) := by
  have hstops : StopsDigits (('.' : CodePoint) :: (u ++ rest)) := by
    intro c hc
    cases hc
    rfl
  have hdigits : ∀ c ∈ t ++ u, c.IsDigit 10 := (ht.append_right hu.digit).digit
  unfold readUnsigned
  rw [readWhole_append ht hstops, Option.map_some]
  dsimp only
  rw [readFraction_point hu hrest]
  dsimp only
  cases readPower rest with
  | none =>
    dsimp only
    rw [← places_append, ofDigits_places hdigits, length_places]
  | some found =>
    dsimp only
    rw [← places_append, ofDigits_places hdigits, length_places]

/-- A numeral with a fraction or a power of ten is read as the double nearest to what it denotes. -/
theorem readUnsigned_of_denotes (negative : Bool) {d : Decimal} (ht : Denotes t d)
    (hrest : EndsNumeral rest) :
    readUnsigned negative (t ++ rest) = some (.ok (float (.ofDecimal negative d), rest)) := by
  cases ht with
  | @point whole fraction hwhole hfraction =>
    rw [List.append_assoc, List.cons_append,
      readUnsigned_point negative hwhole hfraction hrest.stops, readPower_of_ends hrest]
  | @power whole tail e hwhole htail =>
    rw [List.append_assoc]
    unfold readUnsigned
    rw [readWhole_append hwhole (stopsDigits_power htail _), Option.map_some]
    dsimp only
    rw [readFraction_of_power htail, readPower_append htail hrest.stops]
    dsimp only
    rw [ofDigits_places hwhole.digit]
  | @both whole fraction tail e hwhole hfraction htail =>
    rw [List.append_assoc, List.cons_append, List.append_assoc,
      readUnsigned_point negative hwhole hfraction (stopsDigits_power htail _),
      readPower_append htail hrest.stops]

theorem readUnsigned_text (negative : Bool) (d : Decimal) (hrest : EndsNumeral rest) :
    readUnsigned negative (d.text ++ rest) =
      some (.ok (float (.ofDecimal negative d), rest)) := by
  obtain ⟨written, hwritten, hvalue⟩ := denotes_text d
  have hsame : Floating.ofDecimal negative written = .ofDecimal negative d := by
    unfold Floating.ofDecimal
    rw [BinaryFormat.ofDecimal?_congr hvalue]
  rw [readUnsigned_of_denotes negative hwritten hrest, hsame]

end Json
end NavDirections
