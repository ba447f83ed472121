import NavDirections.Text.Basic

/-!
# Blanks and digits

The tables of character properties list their members as runs with a stride, because small and
capital letters alternate over long stretches of the code space.  White space is every code point
that separates words or lines; a decimal digit of any script is known by the zero of its script.
-/

namespace NavDirections

/-- Every `step`-th number from `first` to `last`. -/
structure Stride where
  first : Nat
  last : Nat
  step : Nat

def Stride.contains (s : Stride) (n : Nat) : Bool :=
  s.first ≤ n && n ≤ s.last && (n - s.first) % s.step == 0

/-- A set of numbers, given as the union of strides. -/
abbrev Ranges := List Stride

def Ranges.contains (r : Ranges) (n : Nat) : Bool := r.any (·.contains n)

def whiteSpace : Ranges :=
  [⟨0x09, 0x0d, 1⟩, ⟨0x1c, 0x20, 1⟩, ⟨0x85, 0x85, 1⟩, ⟨0xa0, 0xa0, 1⟩, ⟨0x1680, 0x1680, 1⟩,
   ⟨0x2000, 0x200a, 1⟩, ⟨0x2028, 0x2029, 1⟩, ⟨0x202f, 0x202f, 1⟩, ⟨0x205f, 0x205f, 1⟩,
   ⟨0x3000, 0x3000, 1⟩]

/-- White space of any kind. -/
def CodePoint.isBlank (c : CodePoint) : Bool := whiteSpace.contains c.val

namespace Text

def isBlank (t : Text) : Bool := t.all CodePoint.isBlank

def stripEnd : Text → Text
  | [] => []
  | c :: rest =>
    match stripEnd rest with
    | [] => if c.isBlank then [] else [c]
    | d :: more => c :: d :: more

def strip (t : Text) : Text := stripEnd (t.dropWhile CodePoint.isBlank)

theorem stripEnd_cons (c : CodePoint) (t : Text) :
    stripEnd (c :: t) = if c.isBlank ∧ stripEnd t = [] then [] else c :: stripEnd t := by
  rw [stripEnd]
  cases h : stripEnd t with
  | nil => by_cases hc : c.isBlank <;> simp [hc]
  | cons d more => simp

theorem stripEnd_eq_nil_iff (t : Text) : stripEnd t = [] ↔ isBlank t = true := by
  induction t with
  | nil => simp [stripEnd, isBlank]
  | cons c rest ih =>
    rw [stripEnd_cons]
    by_cases hc : c.isBlank <;> by_cases hr : stripEnd rest = [] <;> simp_all [isBlank]

end Text

def decimalZeros : List Nat :=
  [0x30, 0x660, 0x6f0, 0x7c0, 0x966, 0x9e6, 0xa66, 0xae6, 0xb66, 0xbe6, 0xc66, 0xce6, 0xd66, 0xde6,
   0xe50, 0xed0, 0xf20, 0x1040, 0x1090, 0x17e0, 0x1810, 0x1946, 0x19d0, 0x1a80, 0x1a90, 0x1b50,
   0x1bb0, 0x1c40, 0x1c50, 0xa620, 0xa8d0, 0xa900, 0xa9d0, 0xa9f0, 0xaa50, 0xabf0, 0xff10, 0x104a0,
   0x10d30, 0x11066, 0x110f0, 0x11136, 0x111d0, 0x112f0, 0x11450, 0x114d0, 0x11650, 0x116c0,
   0x11730, 0x118e0, 0x11950, 0x11c50, 0x11d50, 0x11da0, 0x16a60, 0x16ac0, 0x16b50, 0x1d7ce,
   0x1d7d8, 0x1d7e2, 0x1d7ec, 0x1d7f6, 0x1e140, 0x1e2f0, 0x1e950, 0x1fbf0]

/-- The value of a decimal digit of any script. -/
def CodePoint.digitValue? (c : CodePoint) : Option Nat :=
  (decimalZeros.find? fun z => z ≤ c.val && c.val ≤ z + 9).map (c.val - ·)

end NavDirections
