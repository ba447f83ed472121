/-!
# Text

Text is a list of Unicode code points.  Surrogates are code points like any other here: a JSON
document may hold one on its own, and it has to travel unchanged until something writes it.
-/

namespace NavDirections

/-- A Unicode code point, surrogates included. -/
abbrev CodePoint := Fin 0x110000

abbrev Text := List CodePoint

namespace CodePoint

def ofChar (c : Char) : CodePoint :=
  ⟨c.toNat, by
    rcases c.valid with h | h
    · exact Nat.lt_trans h (by decide)
    · exact h.2⟩

instance : Coe Char CodePoint := ⟨ofChar⟩

/-- High and low surrogates, which no encoding form can write on their own. -/
def isSurrogate (c : CodePoint) : Bool := 0xd800 ≤ c.val && c.val ≤ 0xdfff

def toChar? (c : CodePoint) : Option Char :=
  if h : c.val.isValidChar then some (Char.ofNatAux c.val h) else none

def isAsciiLetter (c : CodePoint) : Bool :=
  (0x41 ≤ c.val && c.val ≤ 0x5a) || (0x61 ≤ c.val && c.val ≤ 0x7a)

def isAsciiDigit (c : CodePoint) : Bool := 0x30 ≤ c.val && c.val ≤ 0x39

def hexValue? (c : CodePoint) : Option Nat :=
  if c.isAsciiDigit then some (c.val - 0x30)
  else if 0x41 ≤ c.val && c.val ≤ 0x46 then some (c.val - 0x37)
  else if 0x61 ≤ c.val && c.val ≤ 0x66 then some (c.val - 0x57)
  else none

/-- The small letter of an ASCII capital; anything else stays. -/
def toAsciiLower (c : CodePoint) : CodePoint :=
  if h : 0x41 ≤ c.val ∧ c.val ≤ 0x5a then ⟨c.val + 0x20, by omega⟩ else c

end CodePoint

namespace Text

def ofString (s : String) : Text := s.toList.map CodePoint.ofChar

instance : Coe String Text := ⟨ofString⟩

def ofNat (n : Nat) : Text := (Nat.toDigits 10 n).map CodePoint.ofChar

/-- The decimal digits of an integer, after a minus sign where it is negative. -/
def ofInt : Int → Text
  | .ofNat n => ofNat n
  | .negSucc n => ('-' : CodePoint) :: ofNat (n + 1)

/-! ### Cutting and joining -/

/-- The pieces between the occurrences of `mark`; there is always at least one. -/
def splitOn (mark : CodePoint) : Text → List Text
  | [] => [[]]
  | c :: rest =>
    if c = mark then [] :: splitOn mark rest
    else match splitOn mark rest with
      | [] => [[c]]
      | piece :: pieces => (c :: piece) :: pieces

theorem splitOn_ne_nil (mark : CodePoint) (t : Text) : splitOn mark t ≠ [] := by
  cases t with
  | nil => simp [splitOn]
  | cons c rest =>
    simp only [splitOn]
    split
    · simp
    · split <;> simp

/-- The pieces one after another with `mark` between neighbours. -/
def joinWith (mark : Text) : List Text → Text
  | [] => []
  | [piece] => piece
  | piece :: next :: pieces => piece ++ mark ++ joinWith mark (next :: pieces)

/-- Joining with a mark undoes splitting at it. -/
theorem joinWith_splitOn (mark : CodePoint) (t : Text) : joinWith [mark] (splitOn mark t) = t := by
  induction t with
  | nil => rfl
  | cons c rest ih =>
    simp only [splitOn]
    cases h : splitOn mark rest with
    | nil => exact absurd h (splitOn_ne_nil mark rest)
    | cons piece pieces =>
      rw [h] at ih
      split
      next hc => simp [joinWith, ih, hc]
      next hc => cases pieces <;> simp_all [joinWith]

/-- The text before and after the first occurrence of `mark`. -/
def cutFirst? (mark : CodePoint) : Text → Option (Text × Text)
  | [] => none
  | c :: rest =>
    if c = mark then some ([], rest)
    else (cutFirst? mark rest).map fun (before, after) => (c :: before, after)

/-- A cut at the first mark: nothing before it is the mark. -/
theorem cutFirst?_eq_some_iff {mark : CodePoint} {t before after : Text} :
    cutFirst? mark t = some (before, after) ↔ t = before ++ mark :: after ∧ mark ∉ before := by
  induction t generalizing before with
  | nil => simp [cutFirst?]
  | cons c rest ih =>
    by_cases h : c = mark
    · subst h
      cases before with
      | nil => simp [cutFirst?, eq_comm]
      | cons b before =>
        simp only [cutFirst?, if_true, Option.some.injEq, Prod.mk.injEq, reduceCtorEq, false_and,
          List.cons_append, List.cons.injEq, List.mem_cons, not_or, false_iff]
        rintro ⟨⟨h, -⟩, h', -⟩
        exact h' h
    · cases before with
      | nil => simp [cutFirst?, h]
      | cons b before =>
        simp only [cutFirst?, h, if_false, Option.map_eq_some_iff, Prod.mk.injEq, List.cons.injEq,
          List.cons_append, List.mem_cons, not_or]
        constructor
        · rintro ⟨⟨x, y⟩, hcut, ⟨rfl, rfl⟩, rfl⟩
          obtain ⟨hrest, hmem⟩ := ih.1 hcut
          exact ⟨⟨rfl, hrest⟩, Ne.symm h, hmem⟩
        · rintro ⟨⟨rfl, hrest⟩, -, hmem⟩
          exact ⟨(before, after), ih.2 ⟨hrest, hmem⟩, ⟨rfl, rfl⟩, rfl⟩

/-- The text before and after the last occurrence of `mark`. -/
def cutLast? (mark : CodePoint) : Text → Option (Text × Text)
  | [] => none
  | c :: rest =>
    match cutLast? mark rest with
    | some (before, after) => some (c :: before, after)
    | none => if c = mark then some ([], rest) else none

/-- What follows `start`, where the text begins with it. -/
def dropStart? : (start : Text) → Text → Option Text
  | [], t => some t
  | _ :: _, [] => none
  | s :: start, c :: rest => if s = c then dropStart? start rest else none

theorem dropStart?_eq_some_iff {start t rest : Text} :
    dropStart? start t = some rest ↔ t = start ++ rest := by
  induction start generalizing t with
  | nil => simp [dropStart?]
  | cons s start ih =>
    cases t with
    | nil => simp [dropStart?]
    | cons c t =>
      by_cases h : s = c
      · simp [dropStart?, h, ih]
      · simp [dropStart?, h, Ne.symm h]

def startsWith (t start : Text) : Bool := (dropStart? start t).isSome

def endsWith (t tail : Text) : Bool := startsWith t.reverse tail.reverse

/-- What comes before `tail`, where the text ends with it. -/
def dropEnd? (tail t : Text) : Option Text :=
  (dropStart? tail.reverse t.reverse).map List.reverse

theorem dropEnd?_eq_some_iff {tail t rest : Text} :
    dropEnd? tail t = some rest ↔ t = rest ++ tail := by
  simp only [dropEnd?, Option.map_eq_some_iff, dropStart?_eq_some_iff]
  constructor
  · rintro ⟨r, ht, rfl⟩
    simpa using congrArg List.reverse ht
  · rintro rfl
    exact ⟨rest.reverse, by simp, by simp⟩

def hasPart (part : Text) : Text → Bool
  | [] => part.isEmpty
  | c :: rest => startsWith (c :: rest) part || hasPart part rest

/-- As many copies of a text as `count` says, none where it is negative.  An empty text stays empty
however often it is copied. -/
def copies (count : Int) (t : Text) : Text :=
  if t.isEmpty then [] else (List.replicate count.toNat t).flatten

theorem copies_eq (count : Int) (t : Text) :
    copies count t = (List.replicate count.toNat t).flatten := by
  cases t with
  | nil => exact List.flatten_replicate_nil.symm
  | cons c rest => rfl

end Text
end NavDirections
