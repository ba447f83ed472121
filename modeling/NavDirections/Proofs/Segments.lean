import NavDirections.Declaration.TypeName
import Mathlib.Tactic.ByContra
import Mathlib.Tactic.SplitIfs

/-!
# Segments of dotted names

What the cuts of a text at its first and at its last mark are, and the first and last segments of
dotted names.
-/

namespace NavDirections

namespace Text

theorem cutFirst?_eq_none_iff {mark : CodePoint} {t : Text} :
    cutFirst? mark t = none ↔ mark ∉ t := by
  induction t with
  | nil => simp [cutFirst?]
  | cons c rest ih =>
    by_cases h : c = mark
    · simp [cutFirst?, h]
    · simp [cutFirst?, h, Ne.symm h, ih]

theorem cutLast?_eq_none_iff {mark : CodePoint} {t : Text} :
    cutLast? mark t = none ↔ mark ∉ t := by
  induction t with
  | nil => simp [cutLast?]
  | cons c rest ih =>
    cases hrest : cutLast? mark rest with
    | none =>
      have hmem := ih.1 hrest
      by_cases h : c = mark
      · simp [cutLast?, hrest, h]
      · simp [cutLast?, hrest, h, Ne.symm h, hmem]
    | some cut =>
      have hmem : mark ∈ rest := by
        by_contra hn
        rw [ih.2 hn] at hrest
        cases hrest
      simp [cutLast?, hrest, hmem]

theorem cutLast?_eq_some_iff {mark : CodePoint} {t before after : Text} :
    cutLast? mark t = some (before, after) ↔ t = before ++ mark :: after ∧ mark ∉ after := by
  induction t generalizing before after with
  | nil => simp [cutLast?]
  | cons c rest ih =>
    cases hrest : cutLast? mark rest with
    | none =>
      have hmem : mark ∉ rest := cutLast?_eq_none_iff.1 hrest
      cases before with
      | nil =>
        simp only [cutLast?, hrest, List.nil_append, List.cons.injEq]
        constructor
        · intro h
          split_ifs at h with hc
          simp only [Option.some.injEq, Prod.mk.injEq, true_and] at h
          exact ⟨⟨hc, h⟩, h ▸ hmem⟩
        · rintro ⟨⟨rfl, rfl⟩, -⟩
          simp
      | cons b before =>
        simp only [cutLast?, hrest, List.cons_append, List.cons.injEq]
        constructor
        · intro h
          split_ifs at h with hc
          simp at h
        · rintro ⟨⟨-, rfl⟩, -⟩
          simp at hmem
    | some cut =>
      obtain ⟨b, a⟩ := cut
      have hcut := ih.1 hrest
      simp only [cutLast?, hrest, Option.some.injEq, Prod.mk.injEq]
      constructor
      · rintro ⟨rfl, rfl⟩
        exact ⟨by rw [hcut.1]; rfl, hcut.2⟩
      · rintro ⟨heq, hafter⟩
        cases before with
        | nil =>
          simp only [List.nil_append, List.cons.injEq] at heq
          exact absurd (heq.2 ▸ hcut.1 ▸ by simp) hafter
        | cons d before =>
          simp only [List.cons_append, List.cons.injEq] at heq
          have h := ih.2 ⟨heq.2, hafter⟩
          rw [hrest] at h
          simp only [Option.some.injEq, Prod.mk.injEq] at h
          exact ⟨by rw [h.1, heq.1], h.2⟩

def firstSegment (t : Text) : Text := ((t.cutFirst? '.').map (·.1)).getD t

/-- What follows the first segment, with the dot in front. -/
def laterSegments (t : Text) : Text :=
  match t.cutFirst? '.' with
  | some (_, rest) => '.' :: rest
  | none => []

def lastSegment (t : Text) : Text :=
  match t.cutLast? '.' with
  | some (_, last) => last
  | none => t

theorem firstSegment_append_laterSegments (t : Text) :
    firstSegment t ++ laterSegments t = t := by
  cases h : t.cutFirst? '.' with
  | none => simp [firstSegment, laterSegments, h]
  | some cut => simpa [firstSegment, laterSegments, h] using (cutFirst?_eq_some_iff.1 h).1.symm

theorem dot_not_mem_lastSegment (t : Text) : CodePoint.ofChar '.' ∉ lastSegment t := by
  cases h : t.cutLast? '.' with
  | none => simpa [lastSegment, h] using cutLast?_eq_none_iff.1 h
  | some cut => simpa [lastSegment, h] using (cutLast?_eq_some_iff.1 h).2

theorem firstSegment_of_not_mem {t : Text} (h : CodePoint.ofChar '.' ∉ t) : firstSegment t = t := by
  simp [firstSegment, cutFirst?_eq_none_iff.2 h]

theorem laterSegments_of_not_mem {t : Text} (h : CodePoint.ofChar '.' ∉ t) :
    laterSegments t = [] := by
  simp [laterSegments, cutFirst?_eq_none_iff.2 h]

theorem laterSegments_eq_nil_iff {t : Text} :
    laterSegments t = [] ↔ firstSegment t = t := by
  constructor
  · intro h
    have happend := firstSegment_append_laterSegments t
    rwa [h, List.append_nil] at happend
  · intro h
    have happend := firstSegment_append_laterSegments t
    rw [h] at happend
    exact List.append_right_eq_self.1 happend

theorem lastSegment_append (package simple : Text) :
    lastSegment (package ++ CodePoint.ofChar '.' :: simple) = lastSegment simple := by
  cases h : simple.cutLast? '.' with
  | none =>
    have hmem : CodePoint.ofChar '.' ∉ simple := cutLast?_eq_none_iff.1 h
    have hcut : (package ++ CodePoint.ofChar '.' :: simple).cutLast? '.' = some (package, simple) :=
      cutLast?_eq_some_iff.2 ⟨rfl, hmem⟩
    simp [lastSegment, h, hcut]
  | some cut =>
    obtain ⟨before, last⟩ := cut
    obtain ⟨hsimple, hmem⟩ := cutLast?_eq_some_iff.1 h
    have hcut : (package ++ CodePoint.ofChar '.' :: simple).cutLast? '.'
        = some (package ++ CodePoint.ofChar '.' :: before, last) :=
      cutLast?_eq_some_iff.2 ⟨by simp [hsimple], hmem⟩
    simp [lastSegment, h, hcut]

theorem append_dot_inj {a b a' b' : Text}
    (h : a ++ ("." : Text) ++ b = a' ++ ("." : Text) ++ b') (hb : ('.' : CodePoint) ∉ b)
    (hb' : ('.' : CodePoint) ∉ b') : a = a' ∧ b = b' := by
  have hcut : cutLast? '.' (a ++ ("." : Text) ++ b) = some (a, b) :=
    cutLast?_eq_some_iff.mpr ⟨List.append_assoc a _ b, hb⟩
  have hcut' : cutLast? '.' (a' ++ ("." : Text) ++ b') = some (a', b') :=
    cutLast?_eq_some_iff.mpr ⟨List.append_assoc a' _ b', hb'⟩
  rw [h, hcut'] at hcut
  cases hcut
  exact ⟨rfl, rfl⟩

theorem joinWith_append (mark : Text) {pieces others : List Text} (h : pieces ≠ [])
    (hothers : others ≠ []) :
    joinWith mark (pieces ++ others) = joinWith mark pieces ++ mark ++ joinWith mark others := by
  match pieces with
  | [] => exact absurd rfl h
  | [piece] =>
    obtain ⟨other, rest, rfl⟩ := List.exists_cons_of_ne_nil hothers
    rfl
  | piece :: next :: rest =>
    have hrest := joinWith_append mark (List.cons_ne_nil next rest) hothers
    rw [List.cons_append] at hrest
    rw [List.cons_append, List.cons_append, joinWith, hrest, joinWith]
    simp only [List.append_assoc]

theorem joinWith_eq_nil {mark : CodePoint} {pieces : List Text}
    (h : joinWith [mark] pieces = []) : pieces = [] ∨ pieces = [[]] := by
  match pieces with
  | [] => exact .inl rfl
  | [piece] => exact .inr (congrArg (fun p => [p]) h)
  | piece :: next :: rest =>
    rw [joinWith] at h
    simp at h

end Text

namespace ClassName

theorem reference_eq (c : ClassName) : c.reference = Text.lastSegment c.simple := rfl

theorem canonical_of_package {c : ClassName} (h : c.package ≠ []) :
    c.canonical = c.package ++ CodePoint.ofChar '.' :: c.simple := by
  simp [canonical, h, Text.ofString]

theorem lastSegment_canonical {c : ClassName} (h : c.package ≠ []) :
    Text.lastSegment c.canonical = c.reference := by
  rw [canonical_of_package h, Text.lastSegment_append, reference_eq]

theorem dot_mem_canonical {c : ClassName} (h : c.package ≠ []) :
    CodePoint.ofChar '.' ∈ c.canonical := by
  simp [canonical_of_package h]

theorem canonical_ne_simple {c : ClassName} (h : c.package ≠ []) : c.canonical ≠ c.simple := by
  intro heq
  have hlen := congrArg List.length heq
  rw [canonical_of_package h, List.length_append, List.length_cons] at hlen
  omega

/-! ### Guessed classes -/

theorem splitSegments_snd_ne_nil {segments : List Text} (h : segments ≠ []) :
    (splitSegments segments).2 ≠ [] := by
  fun_induction splitSegments segments with
  | case1 => exact absurd rfl h
  | case2 => exact List.cons_ne_nil _ _
  | case3 => exact List.cons_ne_nil _ _
  | case4 segment next rest _ package simple hsplit ih =>
    rw [hsplit] at ih
    exact ih (List.cons_ne_nil _ _)

/-- A class that is guessed from a name has that name, unless the name begins with a dot. -/
theorem canonical_bestGuess {name : Text} (h : name.head? ≠ some ('.' : CodePoint)) :
    (bestGuess name).canonical = name := by
  have hsegments := splitSegments_append (name.splitOn '.')
  have hsimple := splitSegments_snd_ne_nil (Text.splitOn_ne_nil '.' name)
  have hjoin := Text.joinWith_splitOn '.' name
  unfold bestGuess canonical
  generalize splitSegments (name.splitOn '.') = split at hsegments hsimple
  obtain ⟨package, simple⟩ := split
  dsimp only at hsegments hsimple ⊢
  rw [← hsegments] at hjoin
  split
  next hnone =>
    rcases Text.joinWith_eq_nil hnone with rfl | rfl
    · exact hjoin
    · rw [Text.joinWith_append _ (List.cons_ne_nil _ _) hsimple] at hjoin
      exact absurd (congrArg List.head? hjoin.symm) h
  next hsome =>
    have hpackage : package ≠ [] := by
      rintro rfl
      exact hsome rfl
    rw [Text.joinWith_append _ hpackage hsimple] at hjoin
    exact hjoin

end ClassName
end NavDirections
