import NavDirections.Text.Quoted

/-!
# Text as bytes

The UTF-8 form of text.  Surrogates have none, so writing fails at the first of them; reading
refuses overlong forms, surrogates and everything past the last code point.
-/

namespace NavDirections

abbrev Bytes := List UInt8

/-- A run of surrogates that keeps a text from being written, by the positions of its first and
last member. -/
structure LoneSurrogates where
  code : CodePoint
  first : Nat
  last : Nat
deriving DecidableEq

def LoneSurrogates.message (f : LoneSurrogates) : Text :=
  if f.first = f.last then
    "'utf-8' codec can't encode character '\\u" ++ hexDigits 4 f.code.val ++ "' in position "
      ++ Text.ofNat f.first ++ ": surrogates not allowed"
  else
    "'utf-8' codec can't encode characters in position " ++ Text.ofNat f.first ++ "-"
      ++ Text.ofNat f.last ++ ": surrogates not allowed"

namespace CodePoint

/-- A byte that continues a longer form, holding six bits. -/
def continuation (n : Nat) : UInt8 := .ofNat (0x80 + n % 64)

def toUtf8 (c : CodePoint) : Bytes :=
  let n := c.val
  if n < 0x80 then [.ofNat n]
  else if n < 0x800 then [.ofNat (0xc0 + n / 64), continuation n]
  else if n < 0x10000 then [.ofNat (0xe0 + n / 4096), continuation (n / 64), continuation n]
  else [.ofNat (0xf0 + n / 262144), continuation (n / 4096), continuation (n / 64),
    continuation n]

end CodePoint

namespace Text

/-- The first run of surrogates, counting positions from `start`. -/
def loneSurrogates? (start : Nat) : Text → Option LoneSurrogates
  | [] => none
  | c :: rest =>
    if c.isSurrogate then
      some ⟨c, start, start + (rest.takeWhile CodePoint.isSurrogate).length⟩
    else loneSurrogates? (start + 1) rest

def toUtf8 (t : Text) : Except LoneSurrogates Bytes :=
  match loneSurrogates? 0 t with
  | some fault => .error fault
  | none => .ok (t.flatMap CodePoint.toUtf8)

theorem loneSurrogates?_eq_none_iff (start : Nat) (t : Text) :
    loneSurrogates? start t = none ↔ ∀ c ∈ t, c.isSurrogate = false := by
  induction t generalizing start with
  | nil => simp [loneSurrogates?]
  | cons c rest ih =>
    cases h : c.isSurrogate <;> simp [loneSurrogates?, h, ih]

end Text

/-! ### Reading -/

inductive ByteProblem where
  | noStart
  | noContinuation
  | cutShort
deriving DecidableEq

def ByteProblem.words : ByteProblem → Text
  | noStart => "invalid start byte"
  | noContinuation => "invalid continuation byte"
  | cutShort => "unexpected end of data"

/-- The first bytes that are no text, by the positions of the first and the last of them. -/
structure MalformedBytes where
  byte : UInt8
  first : Nat
  last : Nat
  problem : ByteProblem
deriving DecidableEq

def MalformedBytes.message (f : MalformedBytes) : Text :=
  let subject : Text :=
    if f.first = f.last then
      " byte 0x" ++ hexDigits 2 f.byte.toNat ++ " in position " ++ Text.ofNat f.first
    else " bytes in position " ++ Text.ofNat f.first ++ "-" ++ Text.ofNat f.last
  "'utf-8' codec can't decode" ++ subject ++ ": " ++ f.problem.words

/-- What the first byte of a longer form tells: the bits that it holds, how many bytes follow, and
the range of the next one.  The range leaves out overlong forms, surrogates and what lies past the
last code point. -/
structure LeadByte where
  bits : Nat
  more : Nat
  least : Nat
  greatest : Nat
deriving DecidableEq

namespace LeadByte

/-- What a byte tells, where it begins a longer form. -/
def ofByte? (b : UInt8) : Option LeadByte :=
  let n := b.toNat
  if 0xc2 ≤ n ∧ n ≤ 0xdf then some ⟨n - 0xc0, 1, 0x80, 0xbf⟩
  else if n = 0xe0 then some ⟨0, 2, 0xa0, 0xbf⟩
  else if n = 0xed then some ⟨0xd, 2, 0x80, 0x9f⟩
  else if 0xe1 ≤ n ∧ n ≤ 0xef then some ⟨n - 0xe0, 2, 0x80, 0xbf⟩
  else if n = 0xf0 then some ⟨0, 3, 0x90, 0xbf⟩
  else if n = 0xf4 then some ⟨4, 3, 0x80, 0x8f⟩
  else if 0xf1 ≤ n ∧ n ≤ 0xf3 then some ⟨n - 0xf0, 3, 0x80, 0xbf⟩
  else none

/-- Why a longer form is not read: the number of bytes of it that are in order, and what is wrong
with the next one. -/
structure Fault where
  good : Nat
  problem : ByteProblem
deriving DecidableEq

/-- Reads the bytes that follow, six bits each, behind the bits read so far. -/
def readMore (value good : Nat) :
    (more least greatest : Nat) → Bytes → Except Fault (Nat × Bytes)
  | 0, _, _, rest => .ok (value, rest)
  | _ + 1, _, _, [] => .error ⟨good, .cutShort⟩
  | more + 1, least, greatest, b :: rest =>
    if least ≤ b.toNat ∧ b.toNat ≤ greatest then
      readMore (value * 64 + (b.toNat - 0x80)) (good + 1) more 0x80 0xbf rest
    else .error ⟨good, .noContinuation⟩

def read (lead : LeadByte) (bytes : Bytes) : Except Fault (CodePoint × Bytes) :=
  match readMore lead.bits 1 lead.more lead.least lead.greatest bytes with
  | .error fault => .error fault
  | .ok (n, rest) => if h : n < 0x110000 then .ok (⟨n, h⟩, rest) else .error ⟨1, .noStart⟩

theorem readMore_length {value good more least greatest n : Nat} {bytes rest : Bytes}
    (h : readMore value good more least greatest bytes = .ok (n, rest)) :
    rest.length ≤ bytes.length := by
  induction bytes generalizing value good more least greatest with
  | nil =>
    cases more with
    | zero => simp only [readMore, Except.ok.injEq, Prod.mk.injEq] at h; simp [h.2]
    | succ more => simp [readMore] at h
  | cons b bytes ih =>
    cases more with
    | zero => simp only [readMore, Except.ok.injEq, Prod.mk.injEq] at h; simp [h.2]
    | succ more =>
      simp only [readMore] at h
      split at h
      · have := ih h
        simp only [List.length_cons]
        omega
      · simp at h

theorem read_length {lead : LeadByte} {bytes rest : Bytes} {c : CodePoint}
    (h : lead.read bytes = .ok (c, rest)) : rest.length ≤ bytes.length := by
  unfold read at h
  split at h
  · simp at h
  next hmore =>
    split at h
    · simp only [Except.ok.injEq, Prod.mk.injEq] at h
      exact h.2 ▸ readMore_length hmore
    · simp at h

end LeadByte

namespace Text

def ofUtf8From (position : Nat) (bytes : Bytes) : Except MalformedBytes Text :=
  match bytes with
  | [] => .ok []
  | a :: rest =>
    if h : a.toNat < 0x80 then
      (ofUtf8From (position + 1) rest).map (⟨a.toNat, by omega⟩ :: ·)
    else
      match LeadByte.ofByte? a with
      | none => .error ⟨a, position, position, .noStart⟩
      | some lead =>
        match hread : lead.read rest with
        | .error f => .error ⟨a, position, position + f.good - 1, f.problem⟩
        | .ok (c, after) =>
          have := LeadByte.read_length hread
          (ofUtf8From (position + 1 + lead.more) after).map (c :: ·)
termination_by bytes.length

def ofUtf8 (bytes : Bytes) : Except MalformedBytes Text := ofUtf8From 0 bytes

end Text
end NavDirections
