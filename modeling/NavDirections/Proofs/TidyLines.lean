import NavDirections.Generation.Basic
import NavDirections.Proofs.CleanLines

/-!
# Cleaned texts

What cleaning up a text leaves of it: the lines that show something, in order and without the white
space at their ends, and one blank line wherever the text has some in front of such a line.  A text
that has been cleaned stays as it is.
-/

namespace NavDirections

namespace Text

theorem isBlank_append {a b : Text} : (a ++ b).isBlank = (a.isBlank && b.isBlank) :=
  List.all_append

theorem stripEnd_append_blanks (t : Text) :
    ∃ blanks, t = t.stripEnd ++ blanks ∧ blanks.isBlank = true := by
  induction t with
  | nil => exact ⟨[], rfl, rfl⟩
  | cons c rest ih =>
    obtain ⟨blanks, hrest, hblanks⟩ := ih
    rw [stripEnd_cons]
    split
    next h =>
      rw [h.2, List.nil_append] at hrest
      refine ⟨c :: rest, rfl, ?_⟩
      rw [isBlank, List.all_cons, h.1]
      exact hrest ▸ hblanks
    next h => exact ⟨blanks, congrArg (c :: ·) hrest, hblanks⟩

theorem stripEnd_eq_nil_or_isFirm (t : Text) : t.stripEnd = [] ∨ t.stripEnd.IsFirm := by
  induction t with
  | nil => exact .inl rfl
  | cons c rest ih =>
    rw [stripEnd_cons]
    split
    next h => exact .inl rfl
    next h =>
      right
      rcases ih with hnil | hfirm
      · rw [hnil]
        exact ⟨[], c, rfl, by simpa [hnil] using h⟩
      · exact hfirm.append [c]

theorem isBlank_stripEnd (t : Text) : t.stripEnd.isBlank = t.isBlank := by
  obtain ⟨blanks, ht, hblanks⟩ := stripEnd_append_blanks t
  have h := congrArg isBlank ht
  rw [isBlank_append, hblanks, Bool.and_true] at h
  exact h.symm

theorem isLine_stripEnd {t : Text} (h : t.IsLine) : t.stripEnd.IsLine := by
  obtain ⟨blanks, ht, -⟩ := stripEnd_append_blanks t
  rw [ht] at h
  exact (isLine_append.mp h).1

theorem stripEnd_append {t blanks : Text} (ht : t = [] ∨ t.IsFirm)
    (hblanks : blanks.isBlank = true) : (t ++ blanks).stripEnd = t := by
  have hnone : blanks.stripEnd = [] := (stripEnd_eq_nil_iff blanks).mpr hblanks
  rcases ht with rfl | ⟨start, c, rfl, hc⟩
  · exact hnone
  · induction start with
    | nil =>
      show stripEnd (c :: blanks) = _
      rw [stripEnd_cons, hnone, if_neg (by simp [hc])]
      rfl
    | cons d start ih =>
      show stripEnd (d :: (start ++ [c] ++ blanks)) = _
      rw [stripEnd_cons, ih, if_neg (by simp)]
      rfl

end Text

namespace Source

/-- The lines that show something, each behind the number of blank lines right in front of it, of
which `passed` are in front of the list. -/
def shownFrom (passed : Nat) : List Text → List (Nat × Text)
  | [] => []
  | l :: rest => if l.isBlank then shownFrom (passed + 1) rest else (passed, l) :: shownFrom 0 rest

def shown (ls : List Text) : List (Nat × Text) := shownFrom 0 ls

/-- The lines `ls` are the given ones tidied up. -/
structure Tidies (given ls : List Text) : Prop where
  isLine : ∀ l ∈ ls, l.IsLine
  /-- No line ends in white space, so that a blank one is empty. -/
  trimmed : ∀ l ∈ ls, l = [] ∨ l.IsFirm
  /-- No two blank lines are neighbours. -/
  apart : ls.IsChain fun a b => a ≠ [] ∨ b ≠ []
  /-- The last line shows something. -/
  last : ∀ l ∈ ls.getLast?, l ≠ []
  empty_iff : ls = [] ↔ ∀ l ∈ given, l.isBlank = true
  /-- Every line that shows something stays in its order, without white space behind it, and one
  blank line in front of it stands for any number of them. -/
  shown : List.Forall₂ (fun before after => after.1 = min before.1 1 ∧
    ∃ blanks : Text, before.2 = after.2 ++ blanks ∧ blanks.isBlank = true) (shown given) (shown ls)

theorem shownFrom_eq_nil_iff {passed : Nat} {ls : List Text} :
    shownFrom passed ls = [] ↔ ∀ l ∈ ls, l.isBlank = true := by
  induction ls generalizing passed with
  | nil => simp [shownFrom]
  | cons l rest ih =>
    rw [shownFrom]
    split
    next h => simp [ih, h]
    next h => simp [h]

theorem shownFrom_map_stripEnd (passed : Nat) (ls : List Text) :
    shownFrom passed (ls.map Text.stripEnd) =
      (shownFrom passed ls).map fun p => (p.1, p.2.stripEnd) := by
  induction ls generalizing passed with
  | nil => rfl
  | cons l rest ih =>
    rw [List.map_cons, shownFrom, shownFrom, Text.isBlank_stripEnd]
    split
    · exact ih (passed + 1)
    · rw [ih, List.map_cons]

/-- Collapsing shortens every gap to one line.  Of the gap that is under way one line has been kept
already, if it has any. -/
theorem shownFrom_collapse {ls : List Text} (h : ∀ l ∈ ls, l = [] ∨ l.IsFirm) (passed : Nat) :
    shownFrom (min passed 1) (collapse (decide (0 < passed)) ls) =
      (shownFrom passed ls).map fun p => (min p.1 1, p.2) := by
  induction ls generalizing passed with
  | nil => rfl
  | cons l rest ih =>
    have hrest := ih fun l' hl' => h l' (List.mem_cons_of_mem l hl')
    rcases h l List.mem_cons_self with rfl | hfirm
    · have hnext := hrest (passed + 1)
      rw [decide_eq_true (Nat.succ_pos passed), Nat.min_eq_right (Nat.succ_pos passed)] at hnext
      rw [shownFrom, if_pos (show Text.isBlank [] = true from rfl), ← hnext]
      cases passed with
      | zero => rfl
      | succ n => rw [Nat.min_eq_right (Nat.succ_pos n)]; rfl
    · have hne : l.isEmpty = false := by simpa using hfirm.ne_nil
      have hfirst := hrest 0
      rw [collapse, hne]
      show shownFrom _ (l :: collapse false rest) = _
      rw [shownFrom, shownFrom, hfirm.not_blank]
      exact congrArg ((min passed 1, l) :: ·) hfirst

theorem dropEmptyEnd_cons (l : Text) (rest : List Text) :
    dropEmptyEnd (l :: rest) =
      if l = [] ∧ dropEmptyEnd rest = [] then [] else l :: dropEmptyEnd rest := by
  rw [dropEmptyEnd]
  cases dropEmptyEnd rest with
  | nil => cases l <;> rfl
  | cons next more => simp

theorem shownFrom_dropEmptyEnd (passed : Nat) (ls : List Text) :
    shownFrom passed (dropEmptyEnd ls) = shownFrom passed ls := by
  induction ls generalizing passed with
  | nil => rfl
  | cons l rest ih =>
    rw [dropEmptyEnd_cons]
    split
    next h =>
      have hrest := ih (passed + 1)
      rw [h.2] at hrest
      rw [h.1]
      exact hrest
    next h => rw [shownFrom, shownFrom, ih, ih]

/-- What is shown stays, without white space behind it and with shorter gaps. -/
theorem shown_cleanLines (t : Text) :
    shown (cleanLines t) = (shown t.lines).map fun p => (min p.1 1, p.2.stripEnd) := by
  have htrimmed : ∀ l ∈ t.lines.map Text.stripEnd, l = [] ∨ l.IsFirm := by
    intro l hl
    obtain ⟨line, -, rfl⟩ := List.mem_map.mp hl
    exact line.stripEnd_eq_nil_or_isFirm
  have hcollapse := shownFrom_collapse htrimmed 0
  rw [shownFrom_map_stripEnd, List.map_map] at hcollapse
  rw [shown, cleanLines, shownFrom_dropEmptyEnd]
  exact hcollapse

theorem collapse_sublist (afterEmpty : Bool) (ls : List Text) :
    (collapse afterEmpty ls).Sublist ls := by
  induction ls generalizing afterEmpty with
  | nil => exact List.Sublist.slnil
  | cons l rest ih =>
    rw [collapse]
    split
    · split
      · exact (ih true).cons l
      · exact (ih true).cons_cons l
    · exact (ih false).cons_cons l

theorem collapse_apart (afterEmpty : Bool) (ls : List Text) :
    (collapse afterEmpty ls).IsChain (fun a b => a ≠ [] ∨ b ≠ []) ∧
      (afterEmpty = true → ∀ l ∈ (collapse afterEmpty ls).head?, l ≠ []) := by
  induction ls generalizing afterEmpty with
  | nil => exact ⟨.nil, fun _ l hl => nomatch hl⟩
  | cons l rest ih =>
    rw [collapse]
    split
    next hempty =>
      split
      next hafter => exact ⟨(ih true).1, fun _ => (ih true).2 rfl⟩
      next hafter =>
        refine ⟨List.isChain_cons.mpr ⟨fun y hy => .inr ((ih true).2 rfl y hy), (ih true).1⟩, ?_⟩
        exact fun h => absurd h hafter
    next hshows =>
      have hne : l ≠ [] := by simpa using hshows
      refine ⟨List.isChain_cons.mpr ⟨fun _ _ => .inl hne, (ih false).1⟩, ?_⟩
      rintro - y hy
      cases hy
      exact hne

theorem dropEmptyEnd_isPrefix (ls : List Text) : dropEmptyEnd ls <+: ls := by
  induction ls with
  | nil => exact List.prefix_rfl
  | cons l rest ih =>
    rw [dropEmptyEnd_cons]
    split
    · exact List.nil_prefix
    · exact List.prefix_cons_inj l |>.mpr ih

theorem getLast?_dropEmptyEnd (ls : List Text) : ∀ l ∈ (dropEmptyEnd ls).getLast?, l ≠ [] := by
  induction ls with
  | nil => exact fun _ h => nomatch h
  | cons l rest ih =>
    rw [dropEmptyEnd_cons]
    split
    · exact fun _ h => nomatch h
    next h =>
      cases hrest : dropEmptyEnd rest with
      | nil =>
        rintro m hm
        cases hm
        exact fun hl => h ⟨hl, hrest⟩
      | cons next more =>
        rw [List.getLast?_cons_cons, ← hrest]
        exact ih

theorem cleanLines_tidies (t : Text) : Tidies t.lines (cleanLines t) := by
  have hkept := dropEmptyEnd_isPrefix (collapse false (t.lines.map Text.stripEnd))
  have hmem : ∀ l ∈ cleanLines t, ∃ line ∈ t.lines, line.stripEnd = l := fun l hl =>
    List.mem_map.mp ((collapse_sublist false _).subset (hkept.subset hl))
  have htrimmed : ∀ l ∈ cleanLines t, l = [] ∨ l.IsFirm := by
    intro l hl
    obtain ⟨line, -, rfl⟩ := hmem l hl
    exact line.stripEnd_eq_nil_or_isFirm
  have hlast : ∀ l ∈ (cleanLines t).getLast?, l ≠ [] := getLast?_dropEmptyEnd _
  have hapart : (cleanLines t).IsChain (fun a b => a ≠ [] ∨ b ≠ []) := by
    obtain ⟨dropped, hdropped⟩ := hkept
    have hall := (collapse_apart false (t.lines.map Text.stripEnd)).1
    rw [← hdropped] at hall
    exact hall.left_of_append
  refine ⟨?_, htrimmed, hapart, hlast, ?_, ?_⟩
  · intro l hl
    obtain ⟨line, hline, rfl⟩ := hmem l hl
    exact Text.isLine_stripEnd (Text.isLine_of_mem_lines hline)
  · rw [← @shownFrom_eq_nil_iff 0]
    have hshown := shown_cleanLines t
    constructor
    · intro hnil
      rw [hnil] at hshown
      exact List.map_eq_nil_iff.mp hshown.symm
    · intro hnil
      rw [shown, shown, hnil] at hshown
      have hblank := shownFrom_eq_nil_iff.mp hshown
      by_contra hne
      have hl := List.getLast_mem hne
      have hend := hlast _ (List.getLast?_eq_getLast_of_ne_nil hne)
      have hfirm := (htrimmed _ hl).resolve_left hend
      have hno := hblank _ hl
      rw [hfirm.not_blank] at hno
      cases hno
  · rw [shown_cleanLines, List.forall₂_map_right_iff]
    exact List.forall₂_same.mpr fun p _ => ⟨rfl, p.2.stripEnd_append_blanks⟩

/-! ### Cleaning again -/

theorem lines_joinWith_ending {carriage : Text} (hcarriage : carriage.IsLine) {ls : List Text}
    (hne : ls ≠ []) (h : ∀ l ∈ ls, l.IsLine) :
    (Text.joinWith (carriage ++ "\n") ls ++ (carriage ++ "\n")).lines =
      ls.map (· ++ carriage) ++ [[]] := by
  have hended : ∀ l : Text, l.IsLine → ∀ rest : Text,
      (l ++ (carriage ++ "\n") ++ rest).lines = (l ++ carriage) :: rest.lines := by
    intro l hl rest
    have happend := Text.lines_append (l ++ carriage) rest
    rw [Text.lines_of_isLine (Text.isLine_append.mpr ⟨hl, hcarriage⟩)] at happend
    rw [← List.append_assoc, List.append_assoc (l ++ carriage)]
    exact happend
  match ls with
  | [] => exact absurd rfl hne
  | [l] =>
    have hlast := hended l (h l List.mem_cons_self) []
    rw [List.append_nil] at hlast
    exact hlast
  | l :: next :: more =>
    have hrest := lines_joinWith_ending hcarriage (List.cons_ne_nil next more)
      fun l' hl' => h l' (List.mem_cons_of_mem l hl')
    rw [Text.joinWith, List.append_assoc (l ++ _), hended l (h l List.mem_cons_self), hrest]
    rfl

theorem dropEmptyEnd_append_nil (ls : List Text) : dropEmptyEnd (ls ++ [[]]) = dropEmptyEnd ls := by
  induction ls with
  | nil => rfl
  | cons l rest ih => rw [List.cons_append, dropEmptyEnd_cons, dropEmptyEnd_cons, ih]

/-- Tidy lines come back from the text that they are written to, whichever white space the line
ends have in front of their line feeds. -/
theorem Tidies.cleanLines_joinWith {given ls : List Text} (h : Tidies given ls) {carriage : Text}
    (hcarriage : carriage.IsLine) (hblank : carriage.isBlank = true) :
    cleanLines (Text.joinWith (carriage ++ "\n") ls ++ (carriage ++ "\n")) = ls := by
  by_cases hne : ls = []
  · have hlines : (carriage ++ CodePoint.ofChar '\n' :: []).lines = [carriage, []] := by
      rw [Text.lines_append, Text.lines_of_isLine hcarriage]
      rfl
    have hstrip : carriage.stripEnd = [] := (Text.stripEnd_eq_nil_iff carriage).mpr hblank
    subst hne
    show dropEmptyEnd (collapse false
      ((carriage ++ CodePoint.ofChar '\n' :: []).lines.map Text.stripEnd)) = []
    rw [hlines, List.map_cons, hstrip]
    rfl
  · have hstrip : (ls.map (· ++ carriage)).map Text.stripEnd = ls := by
      have hid : ∀ l ∈ ls, (l ++ carriage).stripEnd = id l := fun l hl =>
        Text.stripEnd_append (h.trimmed l hl) hblank
      rw [List.map_map]
      exact (List.map_congr_left hid).trans (List.map_id ls)
    have hchain : (ls ++ [[]]).IsChain fun a b => a ≠ [] ∨ b ≠ [] :=
      List.isChain_append.mpr ⟨h.apart, .singleton _, fun l hl _ _ => .inl (h.last l hl)⟩
    rw [cleanLines, lines_joinWith_ending hcarriage hne h.isLine, List.map_append, hstrip]
    show dropEmptyEnd (collapse false (ls ++ [[]])) = ls
    rw [collapse_of_chain hchain false (fun h => absurd h Bool.false_ne_true),
      dropEmptyEnd_append_nil, dropEmptyEnd_of_last h.last]

end Source

/-- Formatting gives the tidied lines, each of them ended alike, or a single line end where nothing
is shown; what has been formatted is not changed by formatting it again. -/
theorem Settings.format_tidies {s : Settings} {ending : Text} (hs : s.lineEnding = .text ending)
    (hending : ending = ("\n" : Text) ∨ ending = ("\r\n" : Text)) (code : Text) :
    ∃ ls, s.format code = .ok (Text.joinWith ending ls ++ ending) ∧ Source.Tidies code.lines ls ∧
      s.format (Text.joinWith ending ls ++ ending) = .ok (Text.joinWith ending ls ++ ending) := by
  have hformat : ∀ t, s.format t = .ok (Source.cleanUp ending t) := by
    intro t
    rw [format, hs]
  obtain ⟨carriage, rfl, hcarriage, hblank⟩ :
      ∃ carriage : Text, ending = carriage ++ "\n" ∧ carriage.IsLine ∧ carriage.isBlank = true := by
    rcases hending with rfl | rfl
    · exact ⟨[], rfl, by decide, rfl⟩
    · exact ⟨"\r", rfl, by decide, by decide⟩
  have htidies := Source.cleanLines_tidies code
  refine ⟨Source.cleanLines code, hformat code, htidies, ?_⟩
  rw [hformat, Source.cleanUp, htidies.cleanLines_joinWith hcarriage hblank]

theorem two_letters_are_tidied :
    Settings.default.lineEnding = .text "\n" ∧ ∃ ls,
      Settings.default.format "\n\na  \n\n\n\nb\t\n\n" = .ok (Text.joinWith "\n" ls ++ "\n") ∧
        Source.Tidies (Text.lines "\n\na  \n\n\n\nb\t\n\n") ls ∧
        Text.joinWith "\n" ls ++ "\n" = ("\na\n\nb\n" : Text) := by
  have hending : Settings.default.lineEnding = .text "\n" := rfl
  obtain ⟨ls, hls, htidies, -⟩ :=
    Settings.format_tidies hending (.inl rfl) "\n\na  \n\n\n\nb\t\n\n"
  refine ⟨hending, ls, hls, htidies, ?_⟩
  have hresult : Settings.default.format "\n\na  \n\n\n\nb\t\n\n" = .ok "\na\n\nb\n" := by
    decide
  rw [hresult] at hls
  exact (Except.ok.inj hls).symm

end NavDirections
