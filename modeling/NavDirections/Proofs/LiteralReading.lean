import NavDirections.Declaration.Statement
import NavDirections.Text.Utf8
import Mathlib.Tactic.IntervalCases

/-!
# Reading string literals back

A compiler reads source text as UTF-16 code units and in two passes.  The first replaces unicode
escapes: a backslash begins one if an even number of backslashes stands right before it and `u`
follows.  The second reads the literal with its one-letter escapes.  What `StringLiteral.encode`
writes comes back through both passes, whatever the text.
-/

namespace NavDirections

abbrev CodeUnit := Fin 0x10000

namespace CodeUnit

def ofAscii (c : Char) : CodeUnit := Fin.ofNat 0x10000 c.toNat

instance : Coe Char CodeUnit := ⟨ofAscii⟩

def hexValue? (u : CodeUnit) : Option Nat := CodePoint.hexValue? ⟨u.val, by omega⟩

end CodeUnit

/-- One unit, or a surrogate pair for what does not fit into one; a surrogate is a unit. -/
def CodePoint.toUtf16 (c : CodePoint) : List CodeUnit :=
  if h : c.val < 0x10000 then [⟨c.val, h⟩]
  else [⟨0xd800 + (c.val - 0x10000) / 0x400, by omega⟩,
    ⟨0xdc00 + (c.val - 0x10000) % 0x400, by omega⟩]

def Text.toUtf16 (t : Text) : List CodeUnit := t.flatMap CodePoint.toUtf16

theorem CodePoint.toUtf16_of_lt {c : CodePoint} (h : c.val < 0x10000) :
    c.toUtf16 = [⟨c.val, h⟩] := dif_pos h

theorem Text.toUtf16_append (a b : Text) :
    Text.toUtf16 (a ++ b) = Text.toUtf16 a ++ Text.toUtf16 b := List.flatMap_append

/-- Past one unit there are surrogates only, none of which is an ASCII character. -/
theorem CodePoint.mem_toUtf16_ge {c : CodePoint} (h : 0x10000 ≤ c.val) {u : CodeUnit}
    (hu : u ∈ c.toUtf16) : 0xd800 ≤ u.val := by
  have hn : ¬c.val < 0x10000 := by omega
  simp only [CodePoint.toUtf16, hn, dite_false, List.mem_cons, List.not_mem_nil, or_false] at hu
  rcases hu with rfl | rfl
  · exact Nat.le_add_right _ _
  · exact Nat.le_trans (by omega : 0xd800 ≤ 0xdc00) (Nat.le_add_right _ _)

namespace UnicodeEscape

/-- The unit of four hexadecimal digits, and what follows them. -/
def readDigits? : List CodeUnit → Option (CodeUnit × List CodeUnit)
  | a :: b :: c :: d :: rest => do
    let a ← a.hexValue?
    let b ← b.hexValue?
    let c ← c.hexValue?
    let d ← d.hexValue?
    some (Fin.ofNat 0x10000 (((a * 16 + b) * 16 + c) * 16 + d), rest)
  | _ => none

theorem readDigits?_length {units rest : List CodeUnit} {u : CodeUnit}
    (h : readDigits? units = some (u, rest)) : rest.length < units.length := by
  match units with
  | [] | [_] | [_, _] | [_, _, _] => simp [readDigits?] at h
  | a :: b :: c :: d :: after =>
    simp only [readDigits?, Option.bind_eq_bind, Option.bind_eq_some_iff, Option.some.injEq,
      Prod.mk.injEq] at h
    obtain ⟨_, _, _, _, _, _, _, _, _, rfl⟩ := h
    simp only [List.length_cons]
    omega

/-- Replaces the escapes; `run` backslashes stand right before.  A backslash after an even number of
them that `u` follows has to begin an escape, with any number of `u` before the digits. -/
def translate (run : Nat) : List CodeUnit → Option (List CodeUnit)
  | [] => some []
  | c :: rest =>
    if c = '\\' then
      if run % 2 = 0 ∧ rest.head? = some (CodeUnit.ofAscii 'u') then
        match h : readDigits? (rest.dropWhile (· = CodeUnit.ofAscii 'u')) with
        | some (u, after) =>
          have := readDigits?_length h
          (translate 0 after).map (u :: ·)
        | none => none
      else (translate (run + 1) rest).map (c :: ·)
    else (translate 0 rest).map (c :: ·)
termination_by units => units.length
decreasing_by
  · have hd := (List.dropWhile_suffix (· = CodeUnit.ofAscii 'u') (l := rest)).length_le
    simp only [List.length_cons]
    omega
  · simp
  · simp

theorem translate_other {c : CodeUnit} (hc : c ≠ '\\') (run : Nat) (rest : List CodeUnit) :
    translate run (c :: rest) = (translate 0 rest).map (c :: ·) := by
  rw [translate, if_neg hc]

theorem translate_even (k run : Nat) (units : List CodeUnit) :
    translate (run + 2 * k) units = translate run units := by
  induction units generalizing run with
  | nil => simp [translate]
  | cons c rest ih =>
    have hrun : (run + 2 * k) % 2 = run % 2 := by omega
    have hnext : run + 2 * k + 1 = run + 1 + 2 * k := by omega
    rw [translate, translate, hrun, hnext, ih]

/-- After one backslash the next unit stands for itself, even another backslash. -/
theorem translate_pair {letter : CodeUnit} (hu : letter ≠ 'u') (rest : List CodeUnit) :
    translate 0 ((('\\' : Char) : CodeUnit) :: letter :: rest) =
      (translate 0 rest).map fun units => (('\\' : Char) : CodeUnit) :: letter :: units := by
  have hhead : ¬(0 % 2 = 0 ∧ (letter :: rest).head? = some (CodeUnit.ofAscii 'u')) := by
    simp [hu]
  rw [translate, if_pos rfl, if_neg hhead]
  by_cases hb : letter = '\\'
  -- The second backslash of a pair stands after an odd run, and after both the run is even again.
  · have hodd : ¬((0 + 1) % 2 = 0 ∧ rest.head? = some (CodeUnit.ofAscii 'u')) := by simp
    rw [translate, if_pos hb, if_neg hodd, translate_even 1 0]
    simp [Function.comp_def]
  · rw [translate_other hb]
    simp [Function.comp_def]

theorem translate_escape {digits rest : List CodeUnit} {u : CodeUnit}
    (hhead : digits.head? ≠ some (CodeUnit.ofAscii 'u'))
    (hread : readDigits? digits = some (u, rest)) :
    translate 0 ((('\\' : Char) : CodeUnit) :: (('u' : Char) : CodeUnit) :: digits) =
      (translate 0 rest).map (u :: ·) := by
  have hdrop : ((('u' : Char) : CodeUnit) :: digits).dropWhile (· = CodeUnit.ofAscii 'u')
      = digits := by
    cases digits with
    | nil => simp
    | cons d digits =>
      have hd : d ≠ CodeUnit.ofAscii 'u' := by simpa using hhead
      simp [hd]
  rw [translate, if_pos rfl, if_pos (by simp)]
  split
  next v after h =>
    rw [hdrop, hread] at h
    simp only [Option.some.injEq, Prod.mk.injEq] at h
    rw [h.1, h.2]
  next h => simp [hdrop, hread] at h

theorem translate_plain {units : List CodeUnit} (h : ∀ u ∈ units, u ≠ '\\')
    (rest : List CodeUnit) :
    translate 0 (units ++ rest) = (translate 0 rest).map (units ++ ·) := by
  induction units with
  | nil => simp
  | cons u units ih =>
    have hu : u ≠ '\\' := h u List.mem_cons_self
    have hunits : ∀ v ∈ units, v ≠ '\\' := fun v hv => h v (List.mem_cons_of_mem _ hv)
    rw [List.cons_append, translate_other hu, ih hunits, Option.map_map]
    rfl

theorem hexValue?_digitChar {d : Nat} (h : d < 16) :
    (CodeUnit.ofAscii d.digitChar).hexValue? = some d := by
  interval_cases d <;> rfl

theorem hexDigits_four {n : Nat} (h : n < 0x10000) :
    hexDigits 4 n = [n / 0x1000, n / 0x100 % 16, n / 0x10 % 16, n % 16].map fun d =>
      CodePoint.ofChar d.digitChar := by
  have hbase : 1 < 16 := by omega
  have hzero : Nat.digitChar 0 = '0' := rfl
  rcases Nat.lt_or_ge n 0x10 with h1 | h1
  · rw [hexDigits, Nat.toDigits_of_lt_base h1]
    have h0 : n / 0x1000 = 0 ∧ n / 0x100 = 0 ∧ n / 0x10 = 0 ∧ n % 16 = n := by omega
    simp [h0, hzero, List.replicate]
  rcases Nat.lt_or_ge n 0x100 with h2 | h2
  · rw [hexDigits, Nat.toDigits_of_base_le hbase h1,
      Nat.toDigits_of_lt_base (by omega : n / 16 < 16)]
    have h0 : n / 0x1000 = 0 ∧ n / 0x100 = 0 ∧ n / 0x10 % 16 = n / 16 := by omega
    simp [h0, hzero, List.replicate]
  rcases Nat.lt_or_ge n 0x1000 with h3 | h3
  · rw [hexDigits, Nat.toDigits_of_base_le hbase h1,
      Nat.toDigits_of_base_le hbase (by omega : 16 ≤ n / 16),
      Nat.toDigits_of_lt_base (by omega : n / 16 / 16 < 16)]
    have h0 : n / 0x1000 = 0 ∧ n / 0x100 % 16 = n / 16 / 16 := by omega
    simp [h0, hzero]
  · rw [hexDigits, Nat.toDigits_of_base_le hbase h1,
      Nat.toDigits_of_base_le hbase (by omega : 16 ≤ n / 16),
      Nat.toDigits_of_base_le hbase (by omega : 16 ≤ n / 16 / 16),
      Nat.toDigits_of_lt_base (by omega : n / 16 / 16 / 16 < 16)]
    have h0 : n / 0x1000 = n / 16 / 16 / 16 ∧ n / 0x100 % 16 = n / 16 / 16 % 16 := by omega
    simp [h0]

theorem toUtf16_digitChar {d : Nat} (h : d < 16) :
    (CodePoint.ofChar d.digitChar).toUtf16 = [CodeUnit.ofAscii d.digitChar] := by
  interval_cases d <;> rfl

theorem readDigits?_hexDigits {n : Nat} (h : n < 0x10000) (rest : List CodeUnit) :
    readDigits? (Text.toUtf16 (hexDigits 4 n) ++ rest) = some (⟨n, h⟩, rest) := by
  have ha : n / 0x1000 < 16 := by omega
  have hb : n / 0x100 % 16 < 16 := by omega
  have hc : n / 0x10 % 16 < 16 := by omega
  have hd : n % 16 < 16 := by omega
  have hsum : ((n / 0x1000 * 16 + n / 0x100 % 16) * 16 + n / 0x10 % 16) * 16 + n % 16 = n := by
    omega
  simp only [hexDigits_four h, Text.toUtf16, List.map_cons, List.map_nil, List.flatMap_cons,
    List.flatMap_nil, toUtf16_digitChar ha, toUtf16_digitChar hb, toUtf16_digitChar hc,
    toUtf16_digitChar hd, List.cons_append, List.nil_append, readDigits?,
    hexValue?_digitChar ha, hexValue?_digitChar hb, hexValue?_digitChar hc,
    hexValue?_digitChar hd, Option.bind_eq_bind, Option.bind_some, hsum, Option.some.injEq,
    Prod.mk.injEq, and_true]
  exact Fin.ext (Nat.mod_eq_of_lt h)

theorem hexDigits_head_ne_u {n : Nat} (h : n < 0x10000) (rest : List CodeUnit) :
    (Text.toUtf16 (hexDigits 4 n) ++ rest).head? ≠ some (CodeUnit.ofAscii 'u') := by
  have ha : n / 0x1000 < 16 := by omega
  simp only [hexDigits_four h, Text.toUtf16, List.map_cons, List.flatMap_cons,
    toUtf16_digitChar ha, List.cons_append, List.nil_append, List.head?_cons, ne_eq,
    Option.some.injEq]
  interval_cases n / 0x1000 <;> decide

end UnicodeEscape

namespace StringLiteral

/-- What a letter after a backslash stands for. -/
def escapeValue? (letter : CodeUnit) : Option CodeUnit :=
  if letter = 'b' then some '\x08'
  else if letter = 't' then some '\t'
  else if letter = 'n' then some '\n'
  else if letter = 'f' then some '\x0c'
  else if letter = 'r' then some '\r'
  else if letter = '"' then some '"'
  else if letter = '\\' then some '\\'
  else none

/-- Reads the inside of a literal up to its closing quote: its value, and what follows it.  A line
may not end inside. -/
def readInside : List CodeUnit → Option (List CodeUnit × List CodeUnit)
  | [] => none
  | c :: rest =>
    if c = '"' then some ([], rest)
    else if c = '\n' ∨ c = '\r' then none
    else if c = '\\' then
      match rest with
      | [] => none
      | letter :: rest => do
        let v ← escapeValue? letter
        let (value, after) ← readInside rest
        some (v :: value, after)
    else (readInside rest).map fun (value, after) => (c :: value, after)

/-- Reads the literal that the units begin with. -/
def readUnits : List CodeUnit → Option (List CodeUnit × List CodeUnit)
  | [] => none
  | c :: rest => if c = '"' then readInside rest else none

/-- What a compiler makes of a text that begins with a literal: the units it denotes, and what is
left of the text behind it. -/
def read (source : Text) : Option (List CodeUnit × List CodeUnit) :=
  (UnicodeEscape.translate 0 source.toUtf16).bind readUnits

/-- A unit that means nothing but itself inside a literal. -/
def IsPlain (u : CodeUnit) : Prop := u ≠ '"' ∧ u ≠ '\n' ∧ u ≠ '\r' ∧ u ≠ '\\'

theorem readInside_quote (rest : List CodeUnit) :
    readInside ((('"' : Char) : CodeUnit) :: rest) = some ([], rest) := by
  cases rest <;> rfl

theorem readInside_cons_plain {c : CodeUnit} (h : IsPlain c) (rest : List CodeUnit) :
    readInside (c :: rest) = (readInside rest).map fun (value, after) => (c :: value, after) := by
  obtain ⟨hquote, hfeed, hreturn, hback⟩ := h
  have hend : ¬(c = '\n' ∨ c = '\r') := by simp [hfeed, hreturn]
  cases rest <;> simp only [readInside, if_neg hquote, if_neg hend, if_neg hback]

theorem readInside_plain {units : List CodeUnit} (h : ∀ u ∈ units, IsPlain u)
    (rest : List CodeUnit) :
    readInside (units ++ rest) =
      (readInside rest).map fun (value, after) => (units ++ value, after) := by
  induction units with
  | nil => simp
  | cons u units ih =>
    have hu : IsPlain u := h u List.mem_cons_self
    have hunits : ∀ v ∈ units, IsPlain v := fun v hv => h v (List.mem_cons_of_mem _ hv)
    rw [List.cons_append, readInside_cons_plain hu, ih hunits, Option.map_map]
    rfl

theorem readInside_escape {letter v : CodeUnit} (h : escapeValue? letter = some v)
    (rest : List CodeUnit) :
    readInside ((('\\' : Char) : CodeUnit) :: letter :: rest) =
      (readInside rest).map fun (value, after) => (v :: value, after) := by
  rw [readInside, if_neg (by decide), if_neg (by decide), if_pos rfl, h]
  cases readInside rest <;> rfl

/-! ### One code point -/

theorem escapeLetter?_reads {c letter : CodePoint} (h : escapeLetter? c = some letter) :
    ∃ (hl : letter.val < 0x10000) (hc : c.val < 0x10000),
      (⟨letter.val, hl⟩ : CodeUnit) ≠ 'u' ∧ escapeValue? ⟨letter.val, hl⟩ = some ⟨c.val, hc⟩ := by
  unfold escapeLetter? at h
  split_ifs at h with h1 h2 h3 h4 h5 h6 h7 <;> cases h <;> subst c <;>
    exact ⟨by decide, by decide, by decide, by decide⟩

/-- Without an escape letter no unit of a code point means anything but itself. -/
theorem isPlain_of_escapeLetter?_eq_none {c : CodePoint} (h : escapeLetter? c = none)
    {u : CodeUnit} (hu : u ∈ c.toUtf16) : IsPlain u := by
  have hc : c ≠ '\n' ∧ c ≠ '\r' ∧ c ≠ '"' ∧ c ≠ '\\' := by
    unfold escapeLetter? at h
    split_ifs at h with h1 h2 h3 h4 h5 h6 h7
    exact ⟨h3, h5, h6, h7⟩
  rcases Nat.lt_or_ge c.val 0x10000 with hlt | hge
  · rw [CodePoint.toUtf16_of_lt hlt, List.mem_singleton] at hu
    subst hu
    refine ⟨?_, ?_, ?_, ?_⟩ <;> intro heq <;> have hval := congrArg Fin.val heq
    · exact hc.2.2.1 (Fin.ext hval)
    · exact hc.1 (Fin.ext hval)
    · exact hc.2.1 (Fin.ext hval)
    · exact hc.2.2.2 (Fin.ext hval)
  · have hbig := CodePoint.mem_toUtf16_ge hge hu
    refine ⟨?_, ?_, ?_, ?_⟩ <;> rintro rfl <;> exact absurd hbig (by decide)

/-- What the first pass leaves of one code point inside the quotes. -/
def afterFirstPass (c : CodePoint) : List CodeUnit :=
  match escapeLetter? c with
  | some letter => (('\\' : Char) : CodeUnit) :: letter.toUtf16
  | none => c.toUtf16

theorem needsUnicodeEscape_lt {c : CodePoint} (h : needsUnicodeEscape c = true) :
    c.val < 0x10000 := by
  simp only [needsUnicodeEscape, CodePoint.isSurrogate, Bool.or_eq_true, Bool.and_eq_true,
    decide_eq_true_eq] at h
  omega

theorem translate_escapeOne (c : CodePoint) (rest : List CodeUnit) :
    UnicodeEscape.translate 0 (Text.toUtf16 (escapeOne c) ++ rest) =
      (UnicodeEscape.translate 0 rest).map (afterFirstPass c ++ ·) := by
  cases hletter : escapeLetter? c with
  | some letter =>
    obtain ⟨hl, -, hu, -⟩ := escapeLetter?_reads hletter
    have hunits : Text.toUtf16 (escapeOne c)
        = [(('\\' : Char) : CodeUnit), ⟨letter.val, hl⟩] := by
      simp only [escapeOne, hletter, Text.toUtf16, List.flatMap_cons, List.flatMap_nil,
        CodePoint.toUtf16_of_lt hl]
      rfl
    rw [hunits, List.cons_append, List.cons_append, List.nil_append,
      UnicodeEscape.translate_pair hu]
    simp only [afterFirstPass, hletter, CodePoint.toUtf16_of_lt hl, List.cons_append,
      List.nil_append]
  | none =>
    cases hneeds : needsUnicodeEscape c with
    | true =>
      have hlt := needsUnicodeEscape_lt hneeds
      have hunits : Text.toUtf16 (escapeOne c) = (('\\' : Char) : CodeUnit) ::
          (('u' : Char) : CodeUnit) :: Text.toUtf16 (hexDigits 4 c.val) := by
        simp only [escapeOne, hletter, hneeds, if_true, Text.toUtf16_append]
        rfl
      rw [hunits, List.cons_append, List.cons_append,
        UnicodeEscape.translate_escape (UnicodeEscape.hexDigits_head_ne_u hlt rest)
          (UnicodeEscape.readDigits?_hexDigits hlt rest)]
      simp only [afterFirstPass, hletter, CodePoint.toUtf16_of_lt hlt, List.cons_append,
        List.nil_append]
    | false =>
      have hunits : Text.toUtf16 (escapeOne c) = c.toUtf16 := by
        simp [escapeOne, hletter, hneeds, Text.toUtf16]
      have hplain : ∀ u ∈ c.toUtf16, u ≠ '\\' := fun u hu =>
        (isPlain_of_escapeLetter?_eq_none hletter hu).2.2.2
      rw [hunits, UnicodeEscape.translate_plain hplain]
      simp only [afterFirstPass, hletter]

theorem readInside_afterFirstPass (c : CodePoint) (rest : List CodeUnit) :
    readInside (afterFirstPass c ++ rest) =
      (readInside rest).map fun (value, after) => (c.toUtf16 ++ value, after) := by
  cases hletter : escapeLetter? c with
  | some letter =>
    obtain ⟨hl, hc, -, hvalue⟩ := escapeLetter?_reads hletter
    simp only [afterFirstPass, hletter, CodePoint.toUtf16_of_lt hl, CodePoint.toUtf16_of_lt hc,
      List.cons_append, List.nil_append]
    exact readInside_escape hvalue rest
  | none =>
    simp only [afterFirstPass, hletter]
    exact readInside_plain (fun u hu => isPlain_of_escapeLetter?_eq_none hletter hu) rest

theorem mem_escapeOne {c x : CodePoint} (hx : x ∈ escapeOne c) :
    x ≠ '\n' ∧ x ≠ '\r' ∧ x.isSurrogate = false := by
  have hvisible : 0x20 ≤ x.val → x.isSurrogate = false →
      x ≠ '\n' ∧ x ≠ '\r' ∧ x.isSurrogate = false := by
    intro hge hsurrogate
    refine ⟨?_, ?_, hsurrogate⟩ <;> rintro rfl <;> exact absurd hge (by decide)
  cases hletter : escapeLetter? c with
  | some letter =>
    simp only [escapeOne, hletter, List.mem_cons, List.not_mem_nil, or_false] at hx
    unfold escapeLetter? at hletter
    rcases hx with rfl | rfl
    · exact hvisible (by decide) (by decide)
    · split_ifs at hletter <;> cases hletter <;> exact hvisible (by decide) (by decide)
  | none =>
    cases hneeds : needsUnicodeEscape c with
    | true =>
      simp only [escapeOne, hletter, hneeds, if_true, List.mem_append,
        UnicodeEscape.hexDigits_four (needsUnicodeEscape_lt hneeds)] at hx
      rcases hx with hx | hx
      · have hmark : x = '\\' ∨ x = 'u' := by simpa [Text.ofString] using hx
        rcases hmark with rfl | rfl <;> exact hvisible (by decide) (by decide)
      · obtain ⟨d, hd, rfl⟩ := List.mem_map.1 hx
        have hlt : d < 16 := by
          have hc := needsUnicodeEscape_lt hneeds
          simp only [List.mem_cons, List.not_mem_nil, or_false] at hd
          omega
        interval_cases d <;> exact hvisible (by decide) (by decide)
    | false =>
      have hxc : x = c := by simpa [escapeOne, hletter, hneeds] using hx
      subst hxc
      simp only [needsUnicodeEscape, Bool.or_eq_false_iff, decide_eq_false_iff_not] at hneeds
      exact hvisible (by omega) hneeds.2

/-! ### Whole texts -/

theorem translate_flatMap_escapeOne (t : Text) (rest : List CodeUnit) :
    UnicodeEscape.translate 0 (Text.toUtf16 (t.flatMap escapeOne) ++ rest) =
      (UnicodeEscape.translate 0 rest).map (t.flatMap afterFirstPass ++ ·) := by
  induction t with
  | nil => simp [Text.toUtf16]
  | cons c t ih =>
    rw [List.flatMap_cons, Text.toUtf16_append, List.append_assoc, translate_escapeOne, ih,
      Option.map_map, List.flatMap_cons]
    simp only [Function.comp_def, List.append_assoc]

theorem readInside_flatMap_afterFirstPass (t : Text) (rest : List CodeUnit) :
    readInside (t.flatMap afterFirstPass ++ (('"' : Char) : CodeUnit) :: rest) =
      some (t.toUtf16, rest) := by
  induction t with
  | nil => exact readInside_quote rest
  | cons c t ih =>
    rw [List.flatMap_cons, List.append_assoc, readInside_afterFirstPass, ih]
    rfl

theorem toUtf16_encode (t : Text) :
    Text.toUtf16 (encode t) = (('"' : Char) : CodeUnit) ::
      (Text.toUtf16 (t.flatMap escapeOne) ++ [(('"' : Char) : CodeUnit)]) := by
  rw [encode, Text.toUtf16_append, Text.toUtf16_append]
  rfl

theorem mem_encode {t : Text} {c : CodePoint} (h : c ∈ encode t) :
    c ≠ '\n' ∧ c ≠ '\r' ∧ c.isSurrogate = false := by
  have hmem : c = '"' ∨ ∃ x ∈ t, c ∈ escapeOne x := by
    simpa [encode, Text.ofString, or_comm, or_left_comm] using h
  rcases hmem with rfl | ⟨x, -, hx⟩
  · exact ⟨by decide, by decide, by decide⟩
  · exact mem_escapeOne hx

theorem read_encoded (t : Text) : read (encode t) = some (t.toUtf16, []) := by
  have hquote : (('"' : Char) : CodeUnit) ≠ '\\' := by decide
  rw [read, toUtf16_encode, UnicodeEscape.translate_other hquote, translate_flatMap_escapeOne,
    UnicodeEscape.translate_other hquote]
  simp [UnicodeEscape.translate, readUnits, readInside_flatMap_afterFirstPass]

/-- The literal of a text is read as that text, from its first to its last character.  It stays on
one line and can be stored as UTF-8. -/
theorem read_encode (t : Text) :
    read (encode t) = some (t.toUtf16, []) ∧
      (∀ c ∈ encode t, c ≠ '\n' ∧ c ≠ '\r' ∧ c.isSurrogate = false) ∧
      ∃ bytes, (encode t).toUtf8 = .ok bytes := by
  refine ⟨read_encoded t, fun c => mem_encode, ?_⟩
  have hnone := (Text.loneSurrogates?_eq_none_iff 0 (encode t)).2 fun c hc => (mem_encode hc).2.2
  exact ⟨(encode t).flatMap CodePoint.toUtf8, by rw [Text.toUtf8, hnone]⟩

end StringLiteral
end NavDirections
