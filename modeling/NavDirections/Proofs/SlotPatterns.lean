import NavDirections.Proofs.Success
import NavDirections.Declaration.Statement

/-!
# Patterns of statements

A format that goes together with its arguments is a pattern: text, and slots with text behind them.
Filling a statement shows that text with one argument in each slot, and asks for the spellings of
the arguments in its type slots, one after another and of no others.
-/

namespace NavDirections

/-- What is asked of a slot by the letter behind its dollar sign. -/
inductive SlotLetter where
  | type
  | name
  | literal
  | string
deriving DecidableEq

namespace SlotLetter

def codePoint : SlotLetter → CodePoint
  | type => 'T'
  | name => 'N'
  | literal => 'L'
  | string => 'S'

def slot : SlotLetter → Slot
  | type => .type
  | name | literal => .plain
  | string => .quoted

theorem ofLetter?_eq_some_iff {c : CodePoint} {slot : Slot} :
    Slot.ofLetter? c = some slot ↔
      ∃ letter : SlotLetter, letter.codePoint = c ∧ letter.slot = slot := by
  constructor
  · intro h
    unfold Slot.ofLetter? at h
    split at h
    next hc => exact ⟨.type, hc.symm, Option.some.inj h⟩
    split at h
    next hc =>
      rcases hc with hc | hc
      · exact ⟨.name, hc.symm, Option.some.inj h⟩
      · exact ⟨.literal, hc.symm, Option.some.inj h⟩
    split at h
    next hc => exact ⟨.string, hc.symm, Option.some.inj h⟩
    · cases h
  · rintro ⟨letter, rfl, rfl⟩
    cases letter <;> rfl

theorem codePoint_ne_dollar (letter : SlotLetter) : letter.codePoint ≠ '$' := by
  cases letter <;> decide

/-- The text that an argument leaves at a letter, if it can be written. -/
def textOf (namer : SlotValue → Text) (a : SlotValue) : SlotLetter → Text
  | type => namer a
  | name | literal => a.plain
  | string => a.quoted

end SlotLetter

/-- A format taken apart: the text up to its first slot, and its slots, each with the text behind
it. -/
structure SlotPattern where
  start : Text
  slots : List (SlotLetter × Text)
deriving DecidableEq

namespace SlotPattern

/-- A text as a format has it, with every dollar sign written twice. -/
def doubleDollars (t : Text) : Text :=
  t.flatMap fun c : CodePoint => if c = '$' then ['$', '$'] else [c]

theorem doubleDollars_cons {c : CodePoint} (hc : c ≠ '$') (t : Text) :
    doubleDollars (c :: t) = c :: doubleDollars t := by
  rw [doubleDollars, List.flatMap_cons, if_neg hc]
  rfl

def formatOf (slots : List (SlotLetter × Text)) : Text :=
  slots.flatMap fun (letter, after) => '$' :: letter.codePoint :: doubleDollars after

theorem formatOf_cons (letter : SlotLetter) (after : Text) (slots : List (SlotLetter × Text)) :
    formatOf ((letter, after) :: slots) =
      CodePoint.ofChar '$' :: letter.codePoint :: (doubleDollars after ++ formatOf slots) := rfl

def format (p : SlotPattern) : Text := doubleDollars p.start ++ formatOf p.slots

/-- The text of the pattern with the arguments shown in its slots. -/
def fill (namer : SlotValue → Text) (p : SlotPattern) (args : List SlotValue) : Text :=
  p.start ++ (p.slots.zip args).flatMap fun ((letter, after), a) =>
    letter.textOf namer a ++ after

def typesOf (filled : List ((SlotLetter × Text) × SlotValue)) : List SlotValue :=
  filled.filterMap fun ((letter, _), a) => if letter = .type then some a else none

def typeArguments (p : SlotPattern) (args : List SlotValue) : List SlotValue :=
  typesOf (p.slots.zip args)

/-- The text of filled slots, where some names stand in the type slots, one after another. -/
def weaveFrom : List ((SlotLetter × Text) × SlotValue) → (names : List Text) → Text
  | [], _ => []
  | ((letter, after), a) :: rest, names =>
    if letter = .type then names.head?.getD [] ++ after ++ weaveFrom rest names.tail
    else letter.textOf (fun _ => []) a ++ after ++ weaveFrom rest names

/-- The text of the pattern with the arguments in its slots, the types under the given names. -/
def weave (p : SlotPattern) (args : List SlotValue) (names : List Text) : Text :=
  p.start ++ weaveFrom (p.slots.zip args) names

end SlotPattern

namespace Statement

section

variable {m : Type → Type} [Monad m] (whole : Text) (namer : SlotValue → m Text)

theorem renderFromWith_text {c : CodePoint} (hc : c ≠ '$') (rest : Text) (args : List SlotValue) :
    renderFromWith whole namer (c :: rest) args =
      (·.map (c :: ·)) <$> renderFromWith whole namer rest args := by
  cases rest <;> cases args <;> simp only [renderFromWith, if_neg hc]

theorem renderFromWith_dollars (rest : Text) (args : List SlotValue) :
    renderFromWith whole namer (CodePoint.ofChar '$' :: CodePoint.ofChar '$' :: rest) args =
      (·.map (CodePoint.ofChar '$' :: ·)) <$> renderFromWith whole namer rest args := by
  cases args <;> rw [renderFromWith, if_pos rfl, if_pos rfl]

theorem renderFromWith_slot {letter : SlotLetter} (rest : Text) (a : SlotValue)
    (args : List SlotValue) :
    renderFromWith whole namer (CodePoint.ofChar '$' :: letter.codePoint :: rest) (a :: args) =
      letter.slot.fillWith namer a >>= fun
        | .error fault => pure (.error fault)
        | .ok shown => (·.map (shown ++ ·)) <$> renderFromWith whole namer rest args := by
  have hslot : Slot.ofLetter? letter.codePoint = some letter.slot :=
    SlotLetter.ofLetter?_eq_some_iff.mpr ⟨letter, rfl, rfl⟩
  rw [renderFromWith, if_pos rfl, if_neg letter.codePoint_ne_dollar]
  split
  next h => cases hslot.symm.trans h
  next slot h =>
    cases hslot.symm.trans h
    rfl

end

theorem fillWith_of_writable {m : Type → Type} [Monad m] (namer : SlotValue → m Text)
    {a : SlotValue} (ha : a.isWritable = true) {letter : SlotLetter} (hletter : letter ≠ .type) :
    letter.slot.fillWith namer a = pure (.ok (letter.textOf (fun _ => []) a)) := by
  have hwritten : a.written = .ok a.plain := by rw [SlotValue.written, if_pos ha]
  cases letter with
  | type => exact absurd rfl hletter
  | name | literal => rw [SlotLetter.slot, Slot.fillWith, hwritten, SlotLetter.textOf]
  | string => rw [SlotLetter.slot, Slot.fillWith, hwritten, Except.map, SlotLetter.textOf]

theorem renderFromWith_id (whole : Text) (namer : SlotValue → Text) (format : Text)
    (args : List SlotValue) :
    renderFromWith (m := Id) whole namer format args =
      renderFrom whole (.ok ∘ namer) format args := by
  fun_induction renderFrom whole (.ok ∘ namer) format args with
  | case1 => rfl
  | case2 => rfl
  | case3 => rfl
  | case4 => rfl
  | case5 c args hc ih =>
    rw [renderFromWith_text _ _ hc, ih]
    rfl
  | case6 rest args ih =>
    rw [renderFromWith_dollars, ih]
    rfl
  | case7 letter rest hletter =>
    rw [renderFromWith, if_pos rfl, if_neg hletter]
    rfl
  | case8 letter rest hletter a args hslot =>
    rw [renderFromWith, if_pos rfl, if_neg hletter, hslot]
    rfl
  | case9 letter rest hletter a args slot hslot ih =>
    obtain ⟨letter, rfl, rfl⟩ := SlotLetter.ofLetter?_eq_some_iff.mp hslot
    have hfill : letter.slot.fillWith (m := Id) namer a = letter.slot.fill (.ok ∘ namer) a := by
      cases letter <;> rfl
    rw [renderFromWith_slot, hfill, ih]
    cases letter.slot.fill (.ok ∘ namer) a <;> rfl
  | case10 c letter rest args hc ih =>
    rw [renderFromWith_text _ _ hc, ih]
    rfl

section

variable {m : Type → Type} [Monad m] [LawfulMonad m] (whole : Text) (namer : SlotValue → m Text)

theorem renderFromWith_doubleDollars (t rest : Text) (args : List SlotValue) :
    renderFromWith whole namer (SlotPattern.doubleDollars t ++ rest) args =
      (·.map (t ++ ·)) <$> renderFromWith whole namer rest args := by
  have hnext : ∀ (c : CodePoint) (t : Text) (x : m (Except StatementFault Text)),
      (·.map (c :: ·)) <$> ((·.map (t ++ ·)) <$> x) = (·.map (c :: t ++ ·)) <$> x := by
    intro c t x
    rw [Functor.map_map]
    congr 1
    funext r
    cases r <;> rfl
  induction t with
  | nil =>
    have hid : (fun r : Except StatementFault Text => r.map (([] : Text) ++ ·)) = id := by
      funext r
      cases r <;> rfl
    rw [hid, id_map]
    rfl
  | cons c t ih =>
    by_cases hc : c = '$'
    · subst hc
      show renderFromWith whole namer (_ :: _ :: (SlotPattern.doubleDollars t ++ rest)) args = _
      rw [renderFromWith_dollars, ih, hnext]
    · rw [SlotPattern.doubleDollars_cons hc, List.cons_append,
        renderFromWith_text whole namer hc, ih, hnext]

theorem renderFromWith_formatOf {slots : List (SlotLetter × Text)} {args : List SlotValue}
    (h : slots.length = args.length) (hargs : ∀ a ∈ args, a.isWritable = true) :
    renderFromWith whole namer (SlotPattern.formatOf slots) args =
      (fun names => .ok (SlotPattern.weaveFrom (slots.zip args) names)) <$>
        (SlotPattern.typesOf (slots.zip args)).mapM namer := by
  induction slots generalizing args with
  | nil =>
    obtain rfl := List.length_eq_zero_iff.mp h.symm
    simp [SlotPattern.formatOf, SlotPattern.typesOf, SlotPattern.weaveFrom, renderFromWith]
  | cons first slots ih =>
    obtain ⟨letter, after⟩ := first
    cases args with
    | nil => cases h
    | cons a args =>
      obtain ⟨ha, hargs⟩ := List.forall_mem_cons.mp hargs
      have hrest := ih (Nat.succ.inj h) hargs
      rw [SlotPattern.formatOf_cons, renderFromWith_slot, renderFromWith_doubleDollars, hrest,
        List.zip_cons_cons]
      -- only a type slot calls the namer, and only its name is taken from the names
      by_cases hletter : letter = .type
      · have htypes : SlotPattern.typesOf (((letter, after), a) :: slots.zip args) =
            a :: SlotPattern.typesOf (slots.zip args) := by
          simp [SlotPattern.typesOf, hletter]
        subst hletter
        have hfill : SlotLetter.type.slot.fillWith namer a = Except.ok <$> namer a := rfl
        rw [htypes, hfill, List.mapM_cons]
        simp only [map_bind, bind_map_left, Functor.map_map, bind_pure_comp]
        congr 1
        funext shown
        congr 1
        funext names
        simp [SlotPattern.weaveFrom, Except.map]
      · have htypes : SlotPattern.typesOf (((letter, after), a) :: slots.zip args) =
            SlotPattern.typesOf (slots.zip args) := by
          simp [SlotPattern.typesOf, hletter]
        rw [htypes, fillWith_of_writable namer ha hletter, pure_bind]
        simp only [Functor.map_map]
        congr 1
        funext names
        simp [SlotPattern.weaveFrom, Except.map, hletter]

/-- Filling a pattern calls the namer for the arguments in type slots, one after another, and puts
the names that it gives into these slots. -/
theorem renderFromWith_format {p : SlotPattern} {args : List SlotValue}
    (h : p.slots.length = args.length) (hargs : ∀ a ∈ args, a.isWritable = true) :
    renderFromWith whole namer p.format args =
      (fun names => .ok (p.weave args names)) <$> (p.typeArguments args).mapM namer := by
  rw [SlotPattern.format, renderFromWith_doubleDollars, renderFromWith_formatOf whole namer h hargs,
    Functor.map_map]
  rfl

end

/-- Under the names that a namer gives to the types, a pattern is filled as by that namer. -/
theorem weave_map_typeArguments (p : SlotPattern) (namer : SlotValue → Text)
    (args : List SlotValue) :
    p.weave args ((p.typeArguments args).map namer) = p.fill namer args := by
  rw [SlotPattern.weave, SlotPattern.fill, SlotPattern.typeArguments]
  congr 1
  induction p.slots.zip args with
  | nil => rfl
  | cons first rest ih =>
    obtain ⟨⟨letter, after⟩, a⟩ := first
    rw [List.flatMap_cons, ← ih]
    cases letter <;> rfl

theorem renderFrom_format (whole : Text) (namer : SlotValue → Text) {p : SlotPattern}
    {args : List SlotValue} (h : p.slots.length = args.length)
    (hargs : ∀ a ∈ args, a.isWritable = true) :
    renderFrom whole (.ok ∘ namer) p.format args = .ok (p.fill namer args) := by
  have hnames : (p.typeArguments args).mapM (m := Id) namer = (p.typeArguments args).map namer :=
    List.mapM_pure
  rw [← renderFromWith_id, renderFromWith_format (m := Id) whole namer h hargs, hnames,
    ← weave_map_typeArguments]
  rfl

theorem written_ok {a : SlotValue} {text : Text} :
    a.written = .ok text ↔ a.isWritable = true ∧ a.plain = text := by
  unfold SlotValue.written
  split <;> simp_all

theorem fill_ok {letter : SlotLetter} {namer : SlotValue → Text} {a : SlotValue} {shown : Text}
    (h : letter.slot.fill (.ok ∘ namer) a = .ok shown) : letter.textOf namer a = shown := by
  cases letter with
  | type => exact Except.ok.inj h
  | name | literal => exact (written_ok.mp h).2
  | string =>
    obtain ⟨_, -, hquoted⟩ := Success.map_ok.mp h
    exact hquoted

/-- What has been filled was a pattern with as many slots as arguments. -/
theorem exists_pattern_of_renderFrom {whole : Text} {namer : SlotValue → Text} {format : Text}
    {args : List SlotValue} {text : Text}
    (h : renderFrom whole (.ok ∘ namer) format args = .ok text) :
    ∃ p : SlotPattern, p.format = format ∧ p.slots.length = args.length ∧
      p.fill namer args = text := by
  -- a pattern grows at its front: text joins its start, and a slot takes the start behind it
  have hstart : ∀ {c : CodePoint} {rest : Text} (p : SlotPattern), p.format = rest → c ≠ '$' →
      ({ p with start := c :: p.start } : SlotPattern).format = c :: rest := by
    rintro c rest p rfl hc
    rw [SlotPattern.format, SlotPattern.doubleDollars_cons hc]
    rfl
  fun_induction renderFrom whole (.ok ∘ namer) format args generalizing text with
  | case1 => exact ⟨⟨[], []⟩, rfl, rfl, Except.ok.inj h⟩
  | case2 => cases h
  | case3 => cases h
  | case4 => cases h
  | case5 c args hc ih =>
    obtain ⟨_, hrest, rfl⟩ := Success.map_ok.mp h
    obtain ⟨p, hp, hlength, rfl⟩ := ih hrest
    exact ⟨_, hstart p hp hc, hlength, rfl⟩
  | case6 rest args ih =>
    obtain ⟨_, hrest, rfl⟩ := Success.map_ok.mp h
    obtain ⟨p, rfl, hlength, rfl⟩ := ih hrest
    exact ⟨⟨CodePoint.ofChar '$' :: p.start, p.slots⟩, rfl, hlength, rfl⟩
  | case7 => cases h
  | case8 => cases h
  | case9 letter rest hletter a args slot hslot ih =>
    obtain ⟨shown, hfill, h⟩ := Success.bind_ok.mp h
    obtain ⟨_, hrest, rfl⟩ := Success.map_ok.mp h
    obtain ⟨p, rfl, hlength, rfl⟩ := ih hrest
    obtain ⟨letter, rfl, rfl⟩ := SlotLetter.ofLetter?_eq_some_iff.mp hslot
    refine ⟨⟨[], (letter, p.start) :: p.slots⟩, rfl, congrArg Nat.succ hlength, ?_⟩
    rw [← fill_ok hfill]
    simp [SlotPattern.fill]
  | case10 c letter rest args hc ih =>
    obtain ⟨_, hrest, rfl⟩ := Success.map_ok.mp h
    obtain ⟨p, hp, hlength, rfl⟩ := ih hrest
    exact ⟨_, hstart p hp hc, hlength, rfl⟩

theorem writable_of_renderFrom {whole format : Text} {args : List SlotValue} {text : Text}
    (h : renderFrom whole SlotValue.written format args = .ok text) :
    ∀ a ∈ args, a.isWritable = true := by
  fun_induction renderFrom whole SlotValue.written format args generalizing text with
  | case1 => exact fun _ ha => nomatch ha
  | case2 => cases h
  | case3 => cases h
  | case4 => cases h
  | case5 c args hc ih | case6 rest args ih | case10 c letter rest args hc ih =>
    obtain ⟨_, hrest, -⟩ := Success.map_ok.mp h
    exact ih hrest
  | case7 => cases h
  | case8 => cases h
  | case9 letter rest hletter a args slot hslot ih =>
    obtain ⟨shown, hfill, h⟩ := Success.bind_ok.mp h
    obtain ⟨_, hrest, -⟩ := Success.map_ok.mp h
    refine List.forall_mem_cons.mpr ⟨?_, ih hrest⟩
    cases slot with
    | type | plain => exact (written_ok.mp hfill).1
    | quoted =>
      obtain ⟨_, hwritten, -⟩ := Success.map_ok.mp hfill
      exact (written_ok.mp hwritten).1

theorem renderFrom_congr {whole format : Text} {args : List SlotValue}
    {namer namer' : SlotValue → Except StatementFault Text}
    (h : ∀ a ∈ args, namer a = namer' a) :
    renderFrom whole namer format args = renderFrom whole namer' format args := by
  fun_induction renderFrom whole namer format args with
  | case1 | case2 | case3 | case4 | case7 | case8 => simp_all [renderFrom]
  | case5 c args hc ih | case6 rest args ih | case10 c letter rest args hc ih => simp_all [renderFrom]
  | case9 letter rest hletter a args slot hslot ih =>
    have hfill : slot.fill namer a = slot.fill namer' a := by
      cases slot <;> simp [Slot.fill, h]
    simp_all [renderFrom]

/-- The text of a statement is rendered with the full names of the types. -/
theorem fullText_eq_render {s : Statement} (h : ∀ a ∈ s.args, a.isWritable = true) :
    s.fullText = s.render SlotValue.plain :=
  renderFrom_congr fun a ha => written_ok.mpr ⟨h a ha, rfl⟩

/-! ### Arguments of type slots -/

theorem typeArgumentsFrom_text {c : CodePoint} (hc : c ≠ '$') (rest : Text)
    (args : List SlotValue) : typeArgumentsFrom (c :: rest) args = typeArgumentsFrom rest args := by
  cases rest with
  | nil => simp [typeArgumentsFrom, hc]
  | cons d rest => cases args <;> rw [typeArgumentsFrom, if_neg hc]

theorem typeArgumentsFrom_dollars (rest : Text) (args : List SlotValue) :
    typeArgumentsFrom (CodePoint.ofChar '$' :: CodePoint.ofChar '$' :: rest) args =
      typeArgumentsFrom rest args := by
  cases args <;> rw [typeArgumentsFrom, if_pos rfl, if_pos rfl]

theorem typeArgumentsFrom_slot {letter : SlotLetter} (rest : Text) (a : SlotValue)
    (args : List SlotValue) :
    typeArgumentsFrom (CodePoint.ofChar '$' :: letter.codePoint :: rest) (a :: args) =
      (typeArgumentsFrom rest args).map fun found =>
        if letter = .type then a :: found else found := by
  rw [typeArgumentsFrom, if_pos rfl, if_neg letter.codePoint_ne_dollar]
  cases letter <;> rfl

theorem typeArgumentsFrom_doubleDollars (t rest : Text) (args : List SlotValue) :
    typeArgumentsFrom (SlotPattern.doubleDollars t ++ rest) args = typeArgumentsFrom rest args := by
  induction t with
  | nil => rfl
  | cons c t ih =>
    by_cases hc : c = '$'
    · subst hc
      show typeArgumentsFrom (_ :: _ :: (SlotPattern.doubleDollars t ++ rest)) args = _
      rw [typeArgumentsFrom_dollars, ih]
    · rw [SlotPattern.doubleDollars_cons hc, List.cons_append, typeArgumentsFrom_text hc, ih]

theorem typeArgumentsFrom_format {p : SlotPattern} {args : List SlotValue}
    (h : p.slots.length = args.length) :
    typeArgumentsFrom p.format args = some (p.typeArguments args) := by
  rw [SlotPattern.format, typeArgumentsFrom_doubleDollars, SlotPattern.typeArguments]
  generalize p.slots = slots at h
  induction slots generalizing args with
  | nil => rfl
  | cons first slots ih =>
    obtain ⟨letter, after⟩ := first
    cases args with
    | nil => cases h
    | cons a args =>
      rw [SlotPattern.formatOf_cons, typeArgumentsFrom_slot, typeArgumentsFrom_doubleDollars,
        ih (Nat.succ.inj h)]
      cases letter <;> rfl

/-! ### Statements -/

theorem of_ok {format : Text} {args : List SlotValue} :
    of format args = .ok ⟨format, args⟩ ↔
      (∃ p : SlotPattern, p.format = format ∧ p.slots.length = args.length) ∧
        ∀ a ∈ args, a.isWritable = true := by
  rw [of, Success.map_ok]
  constructor
  · rintro ⟨text, htext, -⟩
    have hargs := writable_of_renderFrom htext
    rw [fullText_eq_render hargs] at htext
    obtain ⟨p, hp, hlength, -⟩ := exists_pattern_of_renderFrom htext
    exact ⟨⟨p, hp, hlength⟩, hargs⟩
  · rintro ⟨⟨p, rfl, hlength⟩, hargs⟩
    rw [fullText_eq_render hargs]
    exact ⟨_, renderFrom_format _ _ hlength hargs, rfl⟩

/-- A statement that has been through the check of its format against its arguments. -/
def IsChecked (s : Statement) : Prop := of s.format s.args = .ok s

namespace IsChecked

variable {s : Statement}

theorem of_text {text : Text} (h : s.fullText = .ok text) : s.IsChecked :=
  Success.map_ok.mpr ⟨text, h, rfl⟩

theorem renders (h : s.IsChecked) (namer : SlotValue → Text) :
    ∃ text, s.render namer = .ok text := by
  obtain ⟨⟨p, hp, hlength⟩, hargs⟩ := of_ok.mp h
  rw [render, ← hp]
  exact ⟨_, renderFrom_format _ namer hlength hargs⟩

theorem typeArguments (h : s.IsChecked) : ∃ slots, s.typeArguments? = some slots := by
  obtain ⟨⟨p, hp, hlength⟩, -⟩ := of_ok.mp h
  rw [typeArguments?, ← hp]
  exact ⟨_, typeArgumentsFrom_format hlength⟩

end IsChecked

end Statement

end NavDirections
