import NavDirections.Proofs.SourcePaths
import NavDirections.Source.Layout
import Mathlib.Data.List.Chain

/-!
# Lines of texts

How the lines of a text come from its parts, and which lines cleaning up leaves as they are: those
that end in something visible, with single blank lines between them.
-/

namespace NavDirections

def Text.IsLine (t : Text) : Prop := CodePoint.ofChar '\n' ∉ t

namespace Text

instance (t : Text) : Decidable t.IsLine := inferInstanceAs (Decidable (¬_))

theorem isLine_append {a b : Text} : (a ++ b).IsLine ↔ a.IsLine ∧ b.IsLine := by
  simp [IsLine]

theorem isLine_joinWith {mark : Text} (hmark : mark.IsLine) {pieces : List Text}
    (h : ∀ piece ∈ pieces, piece.IsLine) : (joinWith mark pieces).IsLine := by
  match pieces with
  | [] => exact List.not_mem_nil
  | [piece] => exact h piece List.mem_cons_self
  | piece :: next :: pieces =>
    have hrest : (joinWith mark (next :: pieces)).IsLine :=
      isLine_joinWith hmark fun p hp => h p (List.mem_cons_of_mem piece hp)
    have hpiece : piece.IsLine := h piece List.mem_cons_self
    rw [joinWith, isLine_append, isLine_append]
    exact ⟨⟨hpiece, hmark⟩, hrest⟩

theorem lines_append (a b : Text) :
    (a ++ CodePoint.ofChar '\n' :: b).lines = a.lines ++ b.lines := splitOn_append_cons '\n' a b

theorem lines_of_isLine {t : Text} (h : t.IsLine) : t.lines = [t] := splitOn_of_notMem h

theorem lines_ofLines {ls : List Text} (hne : ls ≠ []) (h : ∀ l ∈ ls, l.IsLine) :
    (ofLines ls).lines = ls := splitOn_joinWith hne h

theorem isLine_of_mem_lines {t l : Text} (h : l ∈ t.lines) : l.IsLine := mark_notMem_of_mem_splitOn h

theorem lines_indentWith {unit : Text} (hunit : unit.IsLine) (t : Text) :
    (t.indentWith unit).lines = t.lines.map (indentLine unit) := by
  refine lines_ofLines ?_ ?_
  · have hne : t.lines ≠ [] := splitOn_ne_nil '\n' t
    simpa using hne
  · intro l hl
    obtain ⟨line, hline, rfl⟩ := List.mem_map.mp hl
    rw [indentLine]
    split
    · exact List.not_mem_nil
    · exact isLine_append.mpr ⟨hunit, isLine_of_mem_lines hline⟩

theorem lines_flatMap_endLine (texts : List Text) (t : Text) :
    lines (texts.flatMap LayoutTemplate.endLine ++ t) = texts.flatMap lines ++ t.lines := by
  induction texts with
  | nil => rfl
  | cons first texts ih =>
    have hfirst : (first :: texts).flatMap LayoutTemplate.endLine ++ t =
        first ++ CodePoint.ofChar '\n' :: (texts.flatMap LayoutTemplate.endLine ++ t) := by
      rw [List.flatMap_cons, LayoutTemplate.endLine]
      show first ++ [CodePoint.ofChar '\n'] ++ _ ++ t = _
      simp
    rw [hfirst, lines_append, ih, List.flatMap_cons, List.append_assoc]

/-- The text ends in a code point that is no white space. -/
def IsFirm (t : Text) : Prop := ∃ before c, t = before ++ [c] ∧ c.isBlank = false

theorem IsFirm.append {t : Text} (h : t.IsFirm) (before : Text) : (before ++ t).IsFirm := by
  obtain ⟨start, c, rfl, hc⟩ := h
  exact ⟨before ++ start, c, by rw [List.append_assoc], hc⟩

theorem IsFirm.ne_nil {t : Text} (h : t.IsFirm) : t ≠ [] := by
  obtain ⟨start, c, rfl, -⟩ := h
  simp

theorem IsFirm.not_blank {t : Text} (h : t.IsFirm) : t.isBlank = false := by
  obtain ⟨start, c, rfl, hc⟩ := h
  simp [isBlank, hc]

theorem IsFirm.stripEnd_eq {t : Text} (h : t.IsFirm) : t.stripEnd = t := by
  obtain ⟨start, c, rfl, hc⟩ := h
  induction start with
  | nil => rw [List.nil_append, stripEnd_cons, if_neg (by simp [hc])]; rfl
  | cons d start ih =>
    rw [List.cons_append, stripEnd_cons, ih, if_neg (by simp)]

theorem IsFirm.indentLine_eq {t : Text} (h : t.IsFirm) (unit : Text) :
    indentLine unit t = unit ++ t := by
  rw [indentLine, h.not_blank]
  rfl

end Text

/-! ### Clean lines -/

namespace Source

/-- Lines that cleaning leaves alone: they end in something visible or are empty, no two empty ones
are neighbours, and neither the first nor the last is empty. -/
structure IsClean (ls : List Text) : Prop where
  trimmed : ∀ l ∈ ls, l.stripEnd = l
  apart : ls.IsChain fun a b => a ≠ [] ∨ b ≠ []
  head : ∀ l ∈ ls.head?, l ≠ []
  last : ∀ l ∈ ls.getLast?, l ≠ []

namespace IsClean

variable {a b : List Text}

theorem of_firm (h : ∀ l ∈ a, l.IsFirm) : IsClean a where
  trimmed := fun l hl => (h l hl).stripEnd_eq
  apart := by
    refine List.Pairwise.isChain (List.pairwise_iff_forall_sublist.mpr fun hsub => ?_)
    exact .inl (h _ (hsub.subset List.mem_cons_self)).ne_nil
  head := fun l hl => (h l (List.mem_of_mem_head? hl)).ne_nil
  last := fun l hl => (h l (List.mem_of_getLast? hl)).ne_nil

theorem append (ha : IsClean a) (hb : IsClean b) : IsClean (a ++ b) where
  trimmed := by
    intro l hl
    rcases List.mem_append.mp hl with hl | hl
    · exact ha.trimmed l hl
    · exact hb.trimmed l hl
  apart := List.isChain_append.mpr ⟨ha.apart, hb.apart, fun x hx _ _ => .inl (ha.last x hx)⟩
  head := by
    intro l hl
    cases a with
    | nil => exact hb.head l hl
    | cons first a => exact ha.head l hl
  last := by
    intro l hl
    rw [List.getLast?_append] at hl
    cases hlast : b.getLast? with
    | none =>
      rw [hlast] at hl
      exact ha.last l hl
    | some m =>
      rw [hlast] at hl
      cases Option.some.inj hl
      exact hb.last _ hlast

theorem append_blank (ha : IsClean a) (hb : IsClean b) (hane : a ≠ []) (hbne : b ≠ []) :
    IsClean (a ++ [] :: b) where
  trimmed := by
    intro l hl
    rcases List.mem_append.mp hl with hl | hl
    · exact ha.trimmed l hl
    · rcases List.mem_cons.mp hl with rfl | hl
      · rfl
      · exact hb.trimmed l hl
  apart := by
    have hblank : ([] :: b).IsChain fun a b => a ≠ [] ∨ b ≠ [] :=
      List.isChain_cons.mpr ⟨fun y hy => .inr (hb.head y hy), hb.apart⟩
    exact List.isChain_append.mpr ⟨ha.apart, hblank, fun x hx _ _ => .inl (ha.last x hx)⟩
  head := by
    intro l hl
    cases a with
    | nil => exact absurd rfl hane
    | cons first a => exact ha.head l hl
  last := by
    intro l hl
    obtain ⟨m, rest, rfl⟩ := List.exists_cons_of_ne_nil hbne
    rw [List.getLast?_append, List.getLast?_cons_cons] at hl
    cases hlast : (m :: rest).getLast? with
    | none => simp at hlast
    | some m' =>
      rw [hlast] at hl
      cases Option.some.inj hl
      exact hb.last _ hlast

end IsClean

theorem collapse_of_chain {ls : List Text} (h : ls.IsChain fun a b => a ≠ [] ∨ b ≠ [])
    (afterEmpty : Bool) (hhead : afterEmpty = true → ∀ l ∈ ls.head?, l ≠ []) :
    collapse afterEmpty ls = ls := by
  induction ls generalizing afterEmpty with
  | nil => rfl
  | cons l rest ih =>
    obtain ⟨hnext, hrest⟩ := List.isChain_cons.mp h
    cases l with
    | nil =>
      have hfirst : afterEmpty = false := by
        cases afterEmpty with
        | false => rfl
        | true => exact absurd rfl (hhead rfl [] rfl)
      have hrestHead : true = true → ∀ y ∈ rest.head?, y ≠ [] := fun _ y hy =>
        (hnext y hy).resolve_left fun hne => hne rfl
      subst hfirst
      show [] :: collapse true rest = [] :: rest
      rw [ih hrest true hrestHead]
    | cons c more =>
      show (c :: more) :: collapse false rest = (c :: more) :: rest
      rw [ih hrest false nofun]

theorem dropEmptyEnd_of_last {ls : List Text} (h : ∀ l ∈ ls.getLast?, l ≠ []) :
    dropEmptyEnd ls = ls := by
  induction ls with
  | nil => rfl
  | cons l rest ih =>
    cases rest with
    | nil =>
      have hl : l ≠ [] := h l rfl
      simp [dropEmptyEnd, hl]
    | cons m rest =>
      rw [List.getLast?_cons_cons] at h
      rw [dropEmptyEnd, ih h]

/-- Cleaning a text of clean lines only changes the line ends, and adds one. -/
theorem cleanUp_of_clean {t : Text} (h : IsClean t.lines) (ending : Text) :
    cleanUp ending t = Text.joinWith ending t.lines ++ ending := by
  have hstrip : t.lines.map Text.stripEnd = t.lines := by
    have hid := List.map_congr_left (g := id) h.trimmed
    rw [hid, List.map_id]
  rw [cleanUp, cleanLines, hstrip, collapse_of_chain h.apart false nofun,
    dropEmptyEnd_of_last h.last]

end Source

end NavDirections
