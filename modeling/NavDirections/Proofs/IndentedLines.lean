import NavDirections.Proofs.CleanLines
import NavDirections.Proofs.Success
import NavDirections.Template.Places
import Mathlib.Algebra.Order.Ring.Nat

/-!
# Indented lines

Indenting keeps the lines of a text apart: a blank one becomes empty, and any other stands behind as
many units as there are levels.  A text that is indented again stands as deep as both times
together, wherever a unit can be repeated so often at all.
-/

namespace NavDirections

namespace Text

variable {unit : Text} {a b : Nat}

theorem copies_natCast (n : Nat) (t : Text) : copies n t = (List.replicate n t).flatten :=
  copies_eq n t

theorem copies_add (a b : Nat) (t : Text) : copies (a + b : Nat) t = copies a t ++ copies b t := by
  simp only [copies_natCast, List.replicate_add, List.flatten_append]

theorem isLine_copies (hunit : unit.IsLine) (n : Nat) : (copies n unit).IsLine := by
  rw [copies_natCast]
  intro hmem
  obtain ⟨copy, hcopy, hmem⟩ := List.mem_flatten.mp hmem
  rw [List.eq_of_mem_replicate hcopy] at hmem
  exact hunit hmem

/-- A line that is not blank is not blank behind an indentation either. -/
theorem indentLine_indentLine (first second line : Text) :
    indentLine second (indentLine first line) = indentLine (second ++ first) line := by
  cases hblank : line.isBlank with
  | true =>
    rw [indentLine, indentLine, indentLine, hblank]
    rfl
  | false =>
    have hdeeper : (first ++ line).isBlank = false := by
      rw [isBlank, List.all_append]
      exact Bool.and_eq_false_iff.mpr (.inr hblank)
    simp only [indentLine, hblank, hdeeper, Bool.false_eq_true, if_false, List.append_assoc]

theorem indentWith_indentWith {first : Text} (hfirst : first.IsLine) (second t : Text) :
    (t.indentWith first).indentWith second = t.indentWith (second ++ first) := by
  have hlines : (t.indentWith first).lines.map (indentLine second) =
      t.lines.map (indentLine (second ++ first)) := by
    rw [lines_indentWith hfirst, List.map_map]
    exact List.map_congr_left fun line _ => indentLine_indentLine first second line
  rw [indentWith, hlines, indentWith]

theorem indent_indent (hunit : unit.IsLine) (t : Text) (a b : Nat) :
    (t.indent unit a).indent unit b = t.indent unit (a + b : Nat) := by
  rw [indent, indent, indentWith_indentWith (isLine_copies hunit a), ← copies_add, Nat.add_comm,
    indent]

theorem lines_indent (hunit : unit.IsLine) (t : Text) (n : Nat) :
    (t.indent unit n).lines =
      t.lines.map fun line =>
        if line.isBlank then [] else (List.replicate n unit).flatten ++ line := by
  rw [indent, lines_indentWith (isLine_copies hunit n), copies_natCast]
  rfl

/-- A text can be repeated that often: the count and the length of the copies are sizes. -/
def IsRepeatable (unit : Text) (n : Nat) : Prop :=
  n < sizeLimit ∧ (n ≤ 1 ∨ n * unit.length < sizeLimit)

instance (unit : Text) (n : Nat) : Decidable (unit.IsRepeatable n) :=
  inferInstanceAs (Decidable (_ ∧ (_ ∨ _)))

theorem repeatFault?_eq_none_iff {n : Nat} : repeatFault? n unit = none ↔ unit.IsRepeatable n := by
  rw [repeatFault?, IsRepeatable, Int.toNat_natCast]
  constructor
  · intro h
    split at h
    · cases h
    next hcount =>
      split at h
      · cases h
      next hcopies => exact ⟨by omega, by omega⟩
  · rintro ⟨hcount, hcopies⟩
    rw [if_neg (by omega), if_neg (by omega)]

theorem IsRepeatable.mono (h : unit.IsRepeatable b) (hab : a ≤ b) : unit.IsRepeatable a := by
  refine ⟨Nat.lt_of_le_of_lt hab h.1, ?_⟩
  rcases h.2 with hsmall | hcopies
  · exact .inl (hab.trans hsmall)
  · exact .inr (Nat.lt_of_le_of_lt (Nat.mul_le_mul_right unit.length hab) hcopies)

theorem repeated_ok {n : Nat} (h : unit.IsRepeatable n) : repeated n unit = .ok (copies n unit) := by
  rw [repeated, repeatFault?_eq_none_iff.mpr h]

theorem repeated_error {n : Nat} (h : ¬unit.IsRepeatable n) :
    ∃ fault, repeated n unit = .error fault := by
  obtain ⟨fault, hfault⟩ := Option.ne_none_iff_exists'.mp (repeatFault?_eq_none_iff.not.mpr h)
  exact ⟨fault, by rw [repeated, hfault]⟩

theorem length_ofLines_le {first second : Text → Text}
    (h : ∀ line, (first line).length ≤ (second line).length) (lines : List Text) :
    (ofLines (lines.map first)).length ≤ (ofLines (lines.map second)).length := by
  induction lines with
  | nil => exact Nat.le_refl 0
  | cons line rest ih =>
    cases rest with
    | nil => exact h line
    | cons next rest =>
      have hline := h line
      simp only [ofLines, List.map_cons, joinWith, List.length_append] at ih ⊢
      omega

theorem length_copies_le (hab : a ≤ b) : (copies a unit).length ≤ (copies b unit).length := by
  obtain ⟨c, rfl⟩ := Nat.exists_eq_add_of_le hab
  rw [copies_add, List.length_append]
  exact Nat.le_add_right _ _

theorem length_indent_le (t : Text) (hab : a ≤ b) :
    (t.indent unit a).length ≤ (t.indent unit b).length := by
  refine length_ofLines_le (fun line => ?_) t.lines
  have hcopies : (copies a unit).length ≤ (copies b unit).length := length_copies_le hab
  cases hblank : line.isBlank with
  | true => simp [indentLine, hblank]
  | false =>
    simp only [indentLine, hblank, Bool.false_eq_true, if_false, List.length_append]
    omega

end Text

namespace TemplateFilter

open Text (IsRepeatable)

variable {unit : Text} {a b n : Nat}

/-- The units and the text behind them have sizes. -/
def Fits (unit t : Text) (n : Nat) : Prop :=
  unit.IsRepeatable n ∧ (t.indent unit n).length < Text.sizeLimit

instance (unit t : Text) (n : Nat) : Decidable (Fits unit t n) :=
  inferInstanceAs (Decidable (_ ∧ _))

theorem Fits.mono {t : Text} (h : Fits unit t b) (hab : a ≤ b) : Fits unit t a :=
  ⟨h.1.mono hab, Nat.lt_of_le_of_lt (Text.length_indent_le t hab) h.2⟩

theorem indent_ok {t : Text} (h : Fits unit t n) :
    (indent n).apply unit t = .ok (t.indent unit n) := by
  rw [apply, Text.repeated_ok h.1]
  exact if_pos h.2

theorem indent_error {t : Text} (h : ¬Fits unit t n) :
    ∃ fault, (indent n).apply unit t = .error fault := by
  rw [apply]
  by_cases hunit : unit.IsRepeatable n
  · rw [Text.repeated_ok hunit]
    exact ⟨.parts, if_neg fun hlength => h ⟨hunit, hlength⟩⟩
  · obtain ⟨fault, hfault⟩ := Text.repeated_error hunit
    rw [hfault]
    exact ⟨fault, rfl⟩

theorem indent_add (hunit : unit.IsLine) {t : Text} (h : Fits unit t (a + b)) :
    (indent a).apply unit t >>= (indent b).apply unit = (indent (a + b : Nat)).apply unit t := by
  have hfirst : Fits unit t a := h.mono (Nat.le_add_right a b)
  have hsecond : Fits unit (t.indent unit a) b :=
    ⟨h.1.mono (Nat.le_add_left b a), (Text.indent_indent hunit t a b).symm ▸ h.2⟩
  rw [indent_ok hfirst, indent_ok h, ← Text.indent_indent hunit t a b]
  exact indent_ok hsecond

theorem foldlM_indent (hunit : unit.IsLine) {t : Text} {rest : List Nat}
    (h : Fits unit t (a + rest.sum)) :
    ((a :: rest).map fun n : Nat => indent n).foldlM (apply unit) t =
      (indent (a + rest.sum : Nat)).apply unit t := by
  induction rest generalizing a with
  | nil => simp
  | cons b rest ih =>
    rw [List.sum_cons, ← Nat.add_assoc] at h ⊢
    have hstart : Fits unit t (a + b) := h.mono (Nat.le_add_right _ rest.sum)
    have hrest := ih h
    simp only [List.map_cons, List.foldlM_cons] at hrest ⊢
    rw [← hrest, ← indent_add hunit hstart, bind_assoc]

/-- Indenting gives a text exactly where the sizes allow it.  It keeps the lines apart, empties the
blank ones and puts the units in front of the others.  To indent twice is to indent once by all
levels, wherever that gives a text. -/
theorem indent_levels_add (hunit : unit.IsLine) (t : Text) :
    (∀ n : Nat, Fits unit t n → ∃ u, (indent n).apply unit t = .ok u ∧
      u.lines = t.lines.map fun line =>
        if line.isBlank then [] else (List.replicate n unit).flatten ++ line) ∧
    (∀ n : Nat, ¬Fits unit t n → ∃ fault, (indent n).apply unit t = .error fault) ∧
    ∀ a b : Nat, Fits unit t (a + b) →
      (indent a).apply unit t >>= (indent b).apply unit = (indent (a + b : Nat)).apply unit t := by
  refine ⟨fun n h => ?_, fun n h => indent_error h, fun a b h => indent_add hunit h⟩
  exact ⟨t.indent unit n, indent_ok h, Text.lines_indent hunit t n⟩

/-- A blank line between two others, two levels deep. -/
theorem two_levels_are_added :
    Text.IsLine "  " ∧ Fits "  " "a;\n \nb;" (1 + 1) ∧
    ((indent (1 : Nat)).apply "  " "a;\n \nb;" >>= (indent (1 : Nat)).apply "  ") =
      (indent (1 + 1 : Nat)).apply "  " "a;\n \nb;" ∧
    ∃ u, (indent (1 + 1 : Nat)).apply "  " "a;\n \nb;" = .ok u ∧
      u.lines = (["    a;", "", "    b;"] : List String).map Text.ofString := by
  have hunit : Text.IsLine "  " := by decide
  have htwo : Fits "  " "a;\n \nb;" (1 + 1) := by decide
  obtain ⟨hlines, -, htwice⟩ := indent_levels_add hunit "a;\n \nb;"
  obtain ⟨u, hu, hulines⟩ := hlines (1 + 1) htwo
  refine ⟨hunit, htwo, htwice 1 1 htwo, u, hu, hulines.trans ?_⟩
  decide

/-- One level is too many where the two together are no size of anything any more. -/
theorem last_level_is_refused :
    ((indent (2 ^ 63 - 1 : Nat)).apply [] "a" >>= (indent (1 : Nat)).apply []) = .ok "a" ∧
      (indent (2 ^ 63 - 1 + 1 : Nat)).apply [] "a" = .error .countOutOfRange := by
  have hnothing (n : Nat) : Text.indent "a" [] n = "a" := by
    rw [Text.indent, Text.copies_natCast, List.flatten_replicate_nil]
    decide
  have hfits {n : Nat} (hn : IsRepeatable [] n) : Fits [] "a" n := by
    refine ⟨hn, ?_⟩
    rw [hnothing]
    decide
  constructor
  · rw [indent_ok (hfits (by decide)), hnothing]
    exact (indent_ok (hfits (by decide))).trans (congrArg Except.ok (hnothing 1))
  · rfl

end TemplateFilter

/-! ### Places of values -/

/-- A value with several indentations behind it is shown like one with all their levels in one. -/
theorem Template.renderPart_indents (c : TemplateContext) (operand : TemplateOperand)
    (hunit : c.unit.IsLine) {a : Nat} {rest : List Nat}
    (h : ∀ t, c.textOf operand = .ok t → TemplateFilter.Fits c.unit t (a + rest.sum)) :
    renderPart c (.value operand ((a :: rest).map fun n : Nat => .indent n)) =
      renderPart c (.value operand [.indent (a + rest.sum : Nat)]) := by
  have hone (filter : TemplateFilter) (t : Text) :
      [filter].foldlM (TemplateFilter.apply c.unit) t = filter.apply c.unit t := by
    simp
  rw [renderPart, renderPart]
  cases hstart : c.textOf operand with
  | error problem => rfl
  | ok t =>
    show (Except.mapError _ _ >>= _) = (Except.mapError _ _ >>= _)
    rw [TemplateFilter.foldlM_indent hunit (h t hstart), hone]

/-- Called by itself, the filter does to a text what it does in a template. -/
theorem ValueFilter.indent_text (t unit : Text) (levels : Int) :
    ValueFilter.indent (.text t) (.text unit) (.int levels) =
      ((TemplateFilter.indent levels).apply unit t).mapError .size := by
  have hrepetition : repetition (.text unit) (.int levels) =
      ((Text.repeated levels unit).mapError .size).map .text := rfl
  rw [ValueFilter.indent, hrepetition, TemplateFilter.apply]
  cases Text.repeated levels unit <;> rfl

end NavDirections
