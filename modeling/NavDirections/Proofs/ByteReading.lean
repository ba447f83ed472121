import NavDirections.Proofs.Success
import NavDirections.Text.Utf8
import Mathlib.Tactic.IntervalCases

/-!
# Reading bytes back

The bytes of a text without surrogates are read as that text.  The first byte of each form tells
how many follow, and the range that it leaves for the next one holds what is written there.
-/

namespace NavDirections

open Success

namespace CodePoint

theorem toNat_byte {n : Nat} (h : n < 0x100) : (UInt8.ofNat n).toNat = n := by
  rw [UInt8.toNat_ofNat']
  exact Nat.mod_eq_of_lt h

theorem toNat_continuation (n : Nat) : (continuation n).toNat = 0x80 + n % 64 :=
  toNat_byte (by omega)

end CodePoint

namespace LeadByte

open CodePoint

theorem readMore_continuation (value good more n : Nat) {least greatest : Nat} (rest : Bytes)
    (hleast : least ≤ 0x80 + n % 64) (hgreatest : 0x80 + n % 64 ≤ greatest) :
    readMore value good (more + 1) least greatest (continuation n :: rest) =
      readMore (value * 64 + n % 64) (good + 1) more 0x80 0xbf rest := by
  rw [readMore, toNat_continuation, if_pos ⟨hleast, hgreatest⟩, Nat.add_sub_cancel_left]

theorem read_of_readMore {lead : LeadByte} {bytes rest : Bytes} {c : CodePoint} {n : Nat}
    (h : readMore lead.bits 1 lead.more lead.least lead.greatest bytes = .ok (n, rest))
    (hn : n = c.val) : lead.read bytes = .ok (c, rest) := by
  subst hn
  unfold read
  rw [h]
  exact dif_pos c.isLt

theorem ofByte?_two {n : Nat} (hlow : 2 ≤ n) (hhigh : n < 32) :
    ofByte? (.ofNat (0xc0 + n)) = some ⟨n, 1, 0x80, 0xbf⟩ := by
  unfold ofByte?
  rw [toNat_byte (by omega)]
  dsimp only
  rw [if_pos (by omega), Nat.add_sub_cancel_left]

theorem ofByte?_three {n : Nat} (h : n < 16) :
    ofByte? (.ofNat (0xe0 + n)) = some ⟨n, 2, if n = 0 then 0xa0 else 0x80,
      if n = 13 then 0x9f else 0xbf⟩ := by
  interval_cases n <;> rfl

theorem ofByte?_four {n : Nat} (h : n < 5) :
    ofByte? (.ofNat (0xf0 + n)) = some ⟨n, 3, if n = 0 then 0x90 else 0x80,
      if n = 4 then 0x8f else 0xbf⟩ := by
  interval_cases n <;> rfl

end LeadByte

namespace Text

open CodePoint LeadByte

theorem ofUtf8From_short (position : Nat) {n : Nat} (h : n < 0x80) (rest : Bytes) :
    ofUtf8From position (.ofNat n :: rest) =
      (ofUtf8From (position + 1) rest).map (⟨n, by omega⟩ :: ·) := by
  have hn := toNat_byte (show n < 0x100 by omega)
  have hvalue : (⟨(UInt8.ofNat n).toNat, by omega⟩ : CodePoint) = ⟨n, by omega⟩ := Fin.ext hn
  rw [ofUtf8From, dif_pos (by omega), hvalue]

theorem ofUtf8From_long (position : Nat) {a : UInt8} {rest after : Bytes} {lead : LeadByte}
    {c : CodePoint} (ha : ¬a.toNat < 0x80) (hlead : ofByte? a = some lead)
    (hread : lead.read rest = .ok (c, after)) :
    ofUtf8From position (a :: rest) =
      (ofUtf8From (position + 1 + lead.more) after).map (c :: ·) := by
  rw [ofUtf8From, dif_neg ha]
  split
  next hnone => rw [hlead] at hnone; cases hnone
  next lead' hlead' =>
    rw [hlead] at hlead'
    cases hlead'
    split
    next fault hfault => rw [hread] at hfault; cases hfault
    next c' after' hread' =>
      rw [hread] at hread'
      cases hread'
      rfl

theorem ofUtf8From_toUtf8 {c : CodePoint} (h : c.isSurrogate = false) (position : Nat)
    (rest : Bytes) :
    ofUtf8From position (c.toUtf8 ++ rest) =
      (ofUtf8From (position + c.toUtf8.length) rest).map (c :: ·) := by
  have hplain : ¬(0xd800 ≤ c.val ∧ c.val ≤ 0xdfff) := by
    simpa [isSurrogate] using h
  have hlt := c.isLt
  unfold CodePoint.toUtf8
  dsimp only
  split
  · exact ofUtf8From_short position (by assumption) rest
  split
  · refine ofUtf8From_long position ?_ (ofByte?_two (by omega) (by omega)) ?_
    · rw [toNat_byte (by omega)]
      omega
    · refine read_of_readMore (readMore_continuation _ _ _ _ _ ?_ ?_) ?_ <;> dsimp only <;> omega
  split
  · refine ofUtf8From_long position ?_ (ofByte?_three (by omega)) ?_
    · rw [toNat_byte (by omega)]
      omega
    -- Neither an overlong form nor a surrogate: the second byte is in the range of the first.
    · have hleast : (if c.val / 4096 = 0 then 0xa0 else 0x80) ≤ 0x80 + c.val / 64 % 64 := by
        split <;> omega
      have hgreatest : 0x80 + c.val / 64 % 64 ≤ if c.val / 4096 = 13 then 0x9f else 0xbf := by
        split <;> omega
      refine read_of_readMore ((readMore_continuation _ _ _ _ _ hleast hgreatest).trans
        (readMore_continuation _ _ _ _ _ (by omega) (by omega))) ?_
      dsimp only
      omega
  · refine ofUtf8From_long position ?_ (ofByte?_four (by omega)) ?_
    · rw [toNat_byte (by omega)]
      omega
    · have hleast : (if c.val / 262144 = 0 then 0x90 else 0x80) ≤ 0x80 + c.val / 4096 % 64 := by
        split <;> omega
      have hgreatest : 0x80 + c.val / 4096 % 64 ≤ if c.val / 262144 = 4 then 0x8f else 0xbf := by
        split <;> omega
      refine read_of_readMore ((readMore_continuation _ _ _ _ _ hleast hgreatest).trans
        ((readMore_continuation _ _ _ _ _ (by omega) (by omega)).trans
          (readMore_continuation _ _ _ _ _ (by omega) (by omega)))) ?_
      dsimp only
      omega

theorem ofUtf8From_flatMap {t : Text} (h : ∀ c ∈ t, c.isSurrogate = false) (position : Nat) :
    ofUtf8From position (t.flatMap CodePoint.toUtf8) = .ok t := by
  induction t generalizing position with
  | nil => rw [List.flatMap_nil, ofUtf8From]
  | cons c t ih =>
    have ht : ∀ d ∈ t, d.isSurrogate = false := fun d hd => h d (List.mem_cons_of_mem c hd)
    rw [List.flatMap_cons, ofUtf8From_toUtf8 (h c List.mem_cons_self), ih ht]
    rfl

theorem ofUtf8_toUtf8 {t : Text} {bytes : Bytes} (h : t.toUtf8 = .ok bytes) :
    ofUtf8 bytes = .ok t := by
  unfold toUtf8 at h
  split at h
  next => cases h
  next hnone =>
    rw [← Except.ok.inj h]
    exact ofUtf8From_flatMap ((loneSurrogates?_eq_none_iff 0 t).mp hnone) 0

theorem exists_toUtf8_iff {t : Text} :
    (∃ bytes, t.toUtf8 = .ok bytes) ↔ ∀ c ∈ t, c.isSurrogate = false := by
  rw [← loneSurrogates?_eq_none_iff 0 t]
  unfold toUtf8
  cases loneSurrogates? 0 t with
  | none => exact iff_of_true ⟨_, rfl⟩ rfl
  | some fault => exact iff_of_false (fun ⟨_, h⟩ => nomatch h) nofun

end Text
end NavDirections
