import Mathlib.Data.List.TakeWhile
import NavDirections.Json.Reader
import NavDirections.Proofs.Success

/-!
# Limits of the reader

Reading goes through a text from front to back.  So it meets a limit only in a text that has reason
for it: more openings of lists and objects than levels, or more digits in a row than an integer may
have.
-/

namespace NavDirections.Json

open Decimal Success Failure

def opensNesting (c : CodePoint) : Bool := c == '[' || c == '{'

def openings (t : Text) : Nat := t.countP opensNesting

def HasDigits (count : Nat) (t : Text) : Prop :=
  ∃ run, run <:+: t ∧ run.length = count ∧ ∀ c ∈ run, c.isAsciiDigit = true

/-- The text has reason for a fault at a limit. -/
def Founded (levels : Nat) (t : Text) : ReadFault → Prop
  | .malformed _ _ => True
  | .hugeInteger digits => integerDigitLimit < digits ∧ HasDigits digits t
  | .tooDeep => levels < openings t

/-- Reading leaves an end of the text, or the text has reason for the fault. -/
def GoesThrough {α : Type} (levels : Nat) (t : Text) : Except ReadFault (α × Text) → Prop
  | .ok (_, rest) => rest <:+ t
  | .error f => Founded levels t f

variable {α β : Type} {levels : Nat} {rest t : Text}

theorem Founded.of_suffix {f : ReadFault} (h : Founded levels rest f) (hrest : rest <:+ t) :
    Founded levels t f := by
  cases f with
  | malformed problem left => trivial
  | hugeInteger digits =>
    obtain ⟨hlimit, run, hrun, hlength, hdigits⟩ := h
    exact ⟨hlimit, run, hrun.trans hrest.isInfix, hlength, hdigits⟩
  | tooDeep => exact Nat.lt_of_lt_of_le h hrest.sublist.countP_le

theorem GoesThrough.of_suffix {r : Except ReadFault (α × Text)} (h : GoesThrough levels rest r)
    (hrest : rest <:+ t) : GoesThrough levels t r := by
  cases r with
  | error f => exact Founded.of_suffix h hrest
  | ok found => exact List.IsSuffix.trans h hrest

theorem GoesThrough.bind {r : Except ReadFault (α × Text)}
    {next : α × Text → Except ReadFault (β × Text)} (h : GoesThrough levels t r)
    (hnext : ∀ a rest, GoesThrough levels rest (next (a, rest))) :
    GoesThrough levels t (r >>= next) := by
  cases r with
  | error f => exact h
  | ok found => exact (hnext found.1 found.2).of_suffix h

theorem GoesThrough.below {c : CodePoint} {r : Except ReadFault (α × Text)}
    (h : GoesThrough levels rest r) (hc : opensNesting c = true) :
    GoesThrough (levels + 1) (c :: rest) r := by
  cases r with
  | ok found => exact List.IsSuffix.trans h (List.suffix_cons c rest)
  | error f =>
    cases f with
    | malformed problem left => trivial
    | hugeInteger digits =>
      have hlonger : Founded levels (c :: rest) (.hugeInteger digits) :=
        Founded.of_suffix h (List.suffix_cons c rest)
      exact hlonger
    | tooDeep =>
      have hrest : levels < openings rest := h
      have hcount : openings (c :: rest) = openings rest + 1 := List.countP_cons_of_pos hc
      show levels + 1 < openings (c :: rest)
      omega

theorem goesThrough_tooDeep {c : CodePoint} (hlevels : levels = 0) (hc : opensNesting c = true) :
    GoesThrough levels (c :: rest) (.error .tooDeep : Except ReadFault (α × Text)) := by
  show levels < openings (c :: rest)
  rw [hlevels, openings, List.countP_cons_of_pos hc]
  omega

theorem skipSpace_suffix (t : Text) : skipSpace t <:+ t := List.dropWhile_suffix _

theorem GoesThrough.nested {c d : CodePoint} {after : Text} {r : Except ReadFault (α × Text)}
    (hc : opensNesting c = true) (hafter : skipSpace rest = d :: after)
    (h : GoesThrough levels (d :: after) r) : GoesThrough (levels + 1) (c :: rest) r :=
  (h.of_suffix (hafter ▸ skipSpace_suffix rest)).below hc

theorem readUnit_goes (levels : Nat) (t : Text) : GoesThrough levels t (readUnit t) := by
  unfold readUnit
  split
  next c w x y z next more =>
    split
    · exact ⟨[c, w, x, y, z], rfl⟩
    · trivial
  next => trivial

theorem unitAhead?_suffix {fromLetter : Text} (h : unitAhead? t = some fromLetter) :
    fromLetter <:+ t := by
  unfold unitAhead? at h
  split at h
  next s u rest =>
    split at h
    · rw [← Option.some.inj h]
      exact List.suffix_cons s (u :: rest)
    · cases h
  next => cases h

theorem readEscape_goes (levels : Nat) (t : Text) : GoesThrough levels t (readEscape t) := by
  unfold readEscape
  split
  next => trivial
  next e rest =>
    split
    · refine (readUnit_goes levels (e :: rest)).bind fun unit after => ?_
      dsimp only
      split
      · split
        next => exact List.suffix_refl after
        next fromLetter hahead =>
          -- Without a pair the second unit is read once more, so this is no step to the rest.
          have hsecond := (readUnit_goes levels fromLetter).of_suffix (unitAhead?_suffix hahead)
          cases hunit : readUnit fromLetter with
          | error f =>
            rw [hunit] at hsecond
            exact hsecond
          | ok found =>
            rw [hunit] at hsecond
            dsimp only [bind, Except.bind]
            split
            next => exact hsecond
            next => exact List.suffix_refl after
      · exact List.suffix_refl after
    · split
      · exact List.suffix_cons e rest
      · trivial

theorem readText_goes (levels : Nat) (start t : Text) :
    GoesThrough levels t (readText start t) := by
  fun_induction readText start t with
  | case1 => trivial
  | case2 rest => exact List.suffix_cons _ rest
  | case3 => trivial
  | case4 rest _ fault hescape =>
    have hfault := readEscape_goes levels rest
    rw [hescape] at hfault
    exact Founded.of_suffix hfault (List.suffix_cons _ rest)
  | case5 rest _ value after hescape _ _ ih =>
    have hafter : after <:+ rest := by
      have hgoes := readEscape_goes levels rest
      rwa [hescape] at hgoes
    refine GoesThrough.bind (ih.of_suffix (hafter.trans (List.suffix_cons _ rest))) ?_
    exact fun found after => List.suffix_refl after
  | case6 => trivial
  | case7 c rest _ _ _ ih =>
    exact (ih.of_suffix (List.suffix_cons c rest)).bind fun found after => List.suffix_refl after

theorem spanDigits_suffix {digits : List Nat} (h : spanDigits t = (digits, rest)) : rest <:+ t := by
  obtain ⟨-, rfl⟩ := Prod.mk.inj h
  exact List.dropWhile_suffix _

theorem readWhole_suffix {whole : List Nat} (h : readWhole t = some (whole, rest)) :
    rest <:+ t ∧ HasDigits whole.length t := by
  unfold readWhole at h
  split at h
  next c more =>
    split at h
    next hzero =>
      obtain ⟨rfl, rfl⟩ := Prod.mk.inj (Option.some.inj h)
      refine ⟨List.suffix_cons c more, [c], ⟨[], more, rfl⟩, rfl, fun d hd => ?_⟩
      rw [List.mem_singleton.mp hd, hzero]
      decide
    · split at h
      next => cases h
      next =>
        have hspan := Option.some.inj h
        obtain ⟨hdigits, -⟩ := Prod.mk.inj hspan
        refine ⟨spanDigits_suffix hspan, (c :: more).takeWhile CodePoint.isAsciiDigit,
          (List.takeWhile_prefix _).isInfix, ?_, fun d hd => List.mem_takeWhile_imp hd⟩
        rw [← hdigits, List.length_map]
  next => cases h

theorem readFraction_suffix {fraction : List Nat} (h : readFraction t = some (fraction, rest)) :
    rest <:+ t := by
  unfold readFraction at h
  split at h
  next c more =>
    split at h
    · split at h
      next => cases h
      next => exact (spanDigits_suffix (Option.some.inj h)).trans (List.suffix_cons c more)
    · cases h
  next => cases h

theorem scanSign_suffix (t : Text) : (scanSign t).2 <:+ t := by
  unfold scanSign
  split
  next => exact List.suffix_refl []
  next c rest =>
    split
    · exact List.suffix_cons c rest
    · split
      · exact List.suffix_cons c rest
      · exact List.suffix_refl (c :: rest)

theorem readPower_suffix {power : Int} (h : readPower t = some (power, rest)) : rest <:+ t := by
  unfold readPower at h
  split at h
  next c more =>
    split at h
    · dsimp only at h
      split at h
      next => cases h
      next digits after _ hspan =>
        obtain ⟨-, rfl⟩ := Prod.mk.inj (Option.some.inj h)
        exact ((spanDigits_suffix hspan).trans (scanSign_suffix more)).trans
          (List.suffix_cons c more)
    · cases h
  next => cases h

theorem readUnsigned_goes {negative : Bool} {r : Except ReadFault (Json × Text)} (levels : Nat)
    (h : readUnsigned negative t = some r) : GoesThrough levels t r := by
  unfold readUnsigned at h
  obtain ⟨⟨whole, more⟩, hwhole, rfl⟩ := Option.map_eq_some_iff.mp h
  obtain ⟨hmore, hdigits⟩ := readWhole_suffix hwhole
  dsimp only
  split
  · split
    next hlimit => exact ⟨hlimit, hdigits⟩
    next => exact hmore
  next hpower => exact (readPower_suffix hpower).trans hmore
  next fraction after _ hfraction =>
    have hafter := (readFraction_suffix hfraction).trans hmore
    split
    next => exact hafter
    next hpower => exact (readPower_suffix hpower).trans hafter

theorem dropStart?_suffix {word : Text} (h : Text.dropStart? word t = some rest) : rest <:+ t := by
  rw [Text.dropStart?_eq_some_iff.mp h]
  exact List.suffix_append word rest

theorem readNumber_goes {r : Except ReadFault (Json × Text)} (levels : Nat)
    (h : readNumber t = some r) : GoesThrough levels t r := by
  unfold readNumber at h
  split at h
  next c more =>
    split at h
    · split at h
      next after hword =>
        cases h
        exact (dropStart?_suffix hword).trans (List.suffix_cons c more)
      next => exact (readUnsigned_goes levels h).of_suffix (List.suffix_cons c more)
    · exact readUnsigned_goes levels h
  next => cases h

theorem readScalar_goes (levels : Nat) (t : Text) : GoesThrough levels t (readScalar t) := by
  unfold readScalar
  split
  next found hfound =>
    obtain ⟨⟨word, value⟩, -, hvalue⟩ := List.exists_of_findSome?_eq_some hfound
    obtain ⟨after, hword, rfl⟩ := Option.map_eq_some_iff.mp hvalue
    exact dropStart?_suffix hword
  next =>
    split
    next result hnumber => exact readNumber_goes levels hnumber
    next => trivial

/-- The three readers of values with some fuel. -/
structure AllGoThrough (fuel : Nat) : Prop where
  value : ∀ levels t, GoesThrough levels t (readValue fuel levels t)
  items : ∀ levels t, GoesThrough levels t (readItems fuel levels t)
  fields : ∀ levels found t, GoesThrough levels t (readFields fuel levels found t)

theorem AllGoThrough.value_succ {fuel : Nat} (ih : AllGoThrough fuel) (levels : Nat) (t : Text) :
    GoesThrough levels t (readValue (fuel + 1) levels t) := by
  unfold readValue
  dsimp only
  split
  next => trivial
  next c rest =>
    have hrest := List.suffix_cons c rest
    split
    · have htext := (readText_goes levels (c :: rest) rest).of_suffix hrest
      exact htext.bind fun found after => List.suffix_refl after
    split
    next hbrace =>
      have hopens : opensNesting c = true := by rw [hbrace]; decide
      split
      next hlevels => exact goesThrough_tooDeep hlevels hopens
      next hlevels =>
        obtain ⟨levels, rfl⟩ := Nat.exists_eq_succ_of_ne_zero hlevels
        split
        next d after hafter =>
          refine GoesThrough.nested hopens hafter ?_
          split
          · exact List.suffix_cons d after
          · exact (ih.fields levels [] (d :: after)).bind fun fields after => List.suffix_refl after
        next => trivial
    split
    next hbracket =>
      have hopens : opensNesting c = true := by rw [hbracket]; decide
      split
      next hlevels => exact goesThrough_tooDeep hlevels hopens
      next hlevels =>
        obtain ⟨levels, rfl⟩ := Nat.exists_eq_succ_of_ne_zero hlevels
        split
        next d after hafter =>
          refine GoesThrough.nested hopens hafter ?_
          split
          · exact List.suffix_cons d after
          · exact (ih.items levels (d :: after)).bind fun items after => List.suffix_refl after
        next => trivial
    next => exact readScalar_goes levels (c :: rest)

theorem AllGoThrough.items_succ {fuel : Nat} (ih : AllGoThrough fuel) (levels : Nat) (t : Text) :
    GoesThrough levels t (readItems (fuel + 1) levels t) := by
  unfold readItems
  refine (ih.value levels t).bind fun item after => ?_
  dsimp only
  split
  next c more hmore =>
    have hsuffix : c :: more <:+ after := hmore ▸ skipSpace_suffix after
    have hnext := (List.suffix_cons c more).trans hsuffix
    split
    · exact hnext
    split
    · have hskip := (skipSpace_suffix more).trans hnext
      exact ((ih.items levels _).of_suffix hskip).bind fun items after => List.suffix_refl after
    · trivial
  next => trivial

theorem AllGoThrough.fields_succ {fuel : Nat} (ih : AllGoThrough fuel) (levels : Nat)
    (found : List (Text × Json)) (t : Text) :
    GoesThrough levels t (readFields (fuel + 1) levels found t) := by
  unfold readFields
  dsimp only
  split
  next => trivial
  next c rest =>
    split
    · have htext := (readText_goes levels (c :: rest) rest).of_suffix (List.suffix_cons c rest)
      refine htext.bind fun key after => ?_
      dsimp only
      split
      next => trivial
      next d more hmore =>
        have hsuffix : d :: more <:+ after := hmore ▸ skipSpace_suffix after
        split
        · have hskip := ((skipSpace_suffix more).trans (List.suffix_cons d more)).trans hsuffix
          refine ((ih.value levels _).of_suffix hskip).bind fun value after => ?_
          dsimp only
          split
          next c more hmore =>
            have hsuffix : c :: more <:+ after := hmore ▸ skipSpace_suffix after
            have hnext := (List.suffix_cons c more).trans hsuffix
            split
            · exact hnext
            split
            · exact (ih.fields levels _ _).of_suffix ((skipSpace_suffix more).trans hnext)
            · trivial
          next => trivial
        · trivial
    · trivial

theorem allGoThrough (fuel : Nat) : AllGoThrough fuel := by
  induction fuel with
  | zero =>
    refine ⟨fun levels t => ?_, fun levels t => ?_, fun levels found t => ?_⟩
    · rw [readValue]
      trivial
    · rw [readItems]
      trivial
    · rw [readFields]
      trivial
  | succ fuel ih => exact ⟨ih.value_succ, ih.items_succ, ih.fields_succ⟩

/-! ### Documents -/

/-- A document that gives no reason for a fault at a limit. -/
structure Moderate (depth : Nat) (document : Text) : Prop where
  openings_le : openings document ≤ depth
  digits_le : ∀ count, HasDigits count document → count ≤ integerDigitLimit

variable {depth : Nat}

theorem Moderate.not_founded {document : Text} (h : Moderate depth document) {f : ReadFault}
    (hf : Founded depth document f) : ∃ problem left, f = .malformed problem left := by
  cases f with
  | malformed problem left => exact ⟨problem, left, rfl⟩
  | hugeInteger digits => exact absurd hf.1 (Nat.not_lt.mpr (h.digits_le digits hf.2))
  | tooDeep => exact absurd hf (Nat.not_lt.mpr h.openings_le)

theorem parse_of_moderate {document : Text} (h : Moderate depth document) :
    (∃ v, parse depth document = .ok v) ∨ ∃ e, parse depth document = .error (.syntaxError e) := by
  have hgoes := ((allGoThrough (2 * document.length + 2)).value depth
    (skipSpace document)).of_suffix (skipSpace_suffix document)
  have hfault {f : ReadFault} (hf : readWholeText depth document = .error f) :
      ∃ problem left, f = .malformed problem left := by
    rcases bind_error.mp hf with hvalue | ⟨⟨v, rest⟩, -, hend⟩
    · rw [hvalue] at hgoes
      exact h.not_founded hgoes
    · dsimp only at hend
      split at hend
      · cases hend
      next more _ => exact ⟨.extraData, _, (Except.error.inj hend).symm⟩
  unfold parse
  split
  · exact .inr ⟨_, rfl⟩
  · cases hread : readWholeText depth document with
    | ok v => exact .inl ⟨v, rfl⟩
    | error f =>
      obtain ⟨problem, left, rfl⟩ := hfault hread
      exact .inr ⟨_, rfl⟩

/-- The document is beyond a limit of the reader. -/
def ExceedsLimits (depth : Nat) (document : Text) : Prop :=
  (∃ digits, parse depth document = .error (.hugeInteger digits)) ∨
    parse depth document = .error .tooDeep

theorem Moderate.not_exceedsLimits {document : Text} (h : Moderate depth document) :
    ¬ExceedsLimits depth document := by
  intro hlimits
  obtain ⟨v, hv⟩ | ⟨e, he⟩ := parse_of_moderate h
  · simp [ExceedsLimits, hv] at hlimits
  · simp [ExceedsLimits, he] at hlimits

end NavDirections.Json
