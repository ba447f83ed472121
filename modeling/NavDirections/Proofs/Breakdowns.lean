import NavDirections.Proofs.DocumentFaults
import NavDirections.Proofs.GeneratedSources
import NavDirections.Proofs.NumeralForms
import NavDirections.Proofs.Traversal

/-!
# Generations that break down

A graph whose names are text is generated or reported as faulty, with one exception: an integer
default of more digits than an integer may have ends the whole run.  Which default does that is told
by the graph alone: everything in front of it has to be in order.
-/

namespace NavDirections

open Success Failure

namespace Literal

/-- A decimal integer of more digits than an integer may have; a line feed may follow it. -/
def IsHuge (value : Text) (digits : Nat) : Prop :=
  ∃ sign body feed : Text, value = sign ++ body ++ feed ∧ (sign = [] ∨ sign = ("-" : Text)) ∧
    (feed = [] ∨ feed = ("\n" : Text)) ∧ (∀ c ∈ body, c.isAsciiDigit = true) ∧
    body.length = digits ∧ integerDigitLimit < digits

theorem scanUnsigned?_digits {body : Text} (hbody : ∀ c ∈ body, c.isAsciiDigit = true)
    (hne : body ≠ []) (negative : Bool) :
    ∃ ds, scanUnsigned? negative body = some ⟨negative, false, ds⟩ ∧ ds.length = body.length := by
  have hvalue : ∀ c ∈ body, ∃ d, decimalValue? c = some d := fun c hc =>
    ⟨_, if_pos (hbody c hc)⟩
  obtain ⟨ds, hds⟩ := mapM_some_total hvalue
  have hdecimal : digitValues? decimalValue? body = some ds := by
    rw [digitValues?, if_neg (by simpa using hne), hds]
  refine ⟨ds, ?_, (mapM_some.mp hds).length_eq.symm⟩
  unfold scanUnsigned?
  simp only [hdecimal]
  split
  next mark rest =>
    have hmark := hbody mark (by simp)
    rw [if_neg]
    · rfl
    · rintro ⟨-, rfl | rfl⟩
      · cases hmark
      · cases hmark
  · rfl

theorem decimalValue?_some {c : CodePoint} {d : Nat} (h : decimalValue? c = some d) :
    c.isAsciiDigit = true := by
  by_contra hc
  rw [decimalValue?, if_neg hc] at h
  cases h

/-- The numerals with more decimal digits than an integer may have are the huge integers. -/
theorem isHuge_iff {value : Text} {digits : Nat} :
    IsHuge value digits ↔ integerDigitLimit < digits ∧
      ∃ n, Numeral.scan? value = some n ∧ n.isHex = false ∧ n.digits.length = digits := by
  constructor
  · rintro ⟨sign, body, feed, rfl, hsign, hfeed, hbody, hlength, hlimit⟩
    have hne : body ≠ [] := by
      rintro rfl
      rw [← hlength] at hlimit
      exact absurd hlimit (Nat.not_lt_zero _)
    have hlineless : ('\n' : CodePoint) ∉ sign ++ body := by
      rw [List.mem_append, not_or]
      constructor
      · rcases hsign with rfl | rfl
        · exact nofun
        · decide
      · exact fun hmem => nomatch hbody _ hmem
    -- Sign and digits have no line feed, so at most the one behind them is passed over.
    have hdrop : (sign ++ body ++ feed).dropFinalLineFeed = sign ++ body := by
      rcases hfeed with rfl | rfl
      · rw [List.append_nil, dropFinalLineFeed_of_notMem hlineless]
      · exact dropFinalLineFeed_append (sign ++ body)
    refine ⟨hlimit, ?_⟩
    rw [Numeral.scan?, hdrop]
    rcases hsign with rfl | rfl
    · obtain ⟨ds, hscan, hds⟩ := scanUnsigned?_digits hbody hne false
      obtain ⟨c, rest, rfl⟩ := List.exists_cons_of_ne_nil hne
      have hminus : c ≠ '-' := by
        rintro rfl
        exact nomatch hbody _ List.mem_cons_self
      refine ⟨⟨false, false, ds⟩, ?_, rfl, hds.trans hlength⟩
      rw [List.nil_append]
      simp only [if_neg hminus, hscan]
    · obtain ⟨ds, hscan, hds⟩ := scanUnsigned?_digits hbody hne true
      exact ⟨⟨true, false, ds⟩, hscan, rfl, hds.trans hlength⟩
  · rintro ⟨hlimit, n, hscan, hdecimal, hlength⟩
    obtain ⟨sign, body, negative, hdrop, hsign, hbody⟩ := scan?_some hscan
    rcases scanUnsigned?_some hbody with ⟨hvalues, -⟩ | ⟨-, -, -, -, -, hhex⟩
    · have hdigits := (digitValues?_some hvalues).2
      have hfeed : ∃ feed : Text, value = sign ++ body ++ feed ∧
          (feed = [] ∨ feed = ("\n" : Text)) := by
        rcases dropFinalLineFeed_cases value with h | h
        · exact ⟨[], by rw [List.append_nil, ← hdrop, h], .inl rfl⟩
        · exact ⟨"\n", by rw [← hdrop]; exact h, .inr rfl⟩
      obtain ⟨feed, hvalue, hfeed⟩ := hfeed
      refine ⟨sign, body, feed, hvalue, hsign, hfeed, fun c hc => ?_, ?_, hlimit⟩
      · obtain ⟨d, -, hd⟩ := partner_of_mem_left hdigits hc
        exact decimalValue?_some hd
      · rw [hdigits.length_eq, hlength]
    · rw [hdecimal] at hhex
      cases hhex

variable {value : Text} {type : ArgumentType} {digits : Nat}

theorem integral_huge {bits : Nat} :
    integral bits value type = .error (.hugeInteger digits) ↔ IsHuge value digits := by
  rw [isHuge_iff]
  unfold integral
  cases hscan : Numeral.scan? value with
  | none => exact iff_of_false nofun fun ⟨_, _, h, _⟩ => nomatch h
  | some n =>
    simp only [Option.some.injEq, exists_eq_left']
    cases hhex : n.isHex with
    | true =>
      refine iff_of_false ?_ fun h => nomatch h.2.1
      rw [Bool.not_true, Bool.false_and, if_neg Bool.false_ne_true]
      split
      · exact nofun
      · exact nofun
    | false =>
      simp only [Bool.not_false, Bool.true_and, decide_eq_true_eq, Bool.false_eq_true, if_false,
        true_and]
      by_cases hlimit : integerDigitLimit < n.digits.length
      · rw [if_pos hlimit, Except.error.injEq, LiteralFault.hugeInteger.injEq]
        exact ⟨fun h => ⟨h ▸ hlimit, h⟩, And.right⟩
      · rw [if_neg hlimit]
        refine iff_of_false ?_ fun h => hlimit (h.2 ▸ h.1)
        split
        · exact nofun
        · exact nofun

theorem IsHuge.lt_length (h : IsHuge value digits) : integerDigitLimit < value.length := by
  obtain ⟨sign, body, feed, rfl, -, -, -, hlength, hlimit⟩ := h
  simp only [List.length_append]
  omega

theorem isHuge_replicate {count : Nat} (h : integerDigitLimit < count) :
    IsHuge (List.replicate count '1') count := by
  refine ⟨[], _, [], (List.append_nil _).symm, .inl rfl, .inl rfl, fun c hc => ?_,
    List.length_replicate, h⟩
  rw [List.eq_of_mem_replicate hc]
  rfl

theorem IsHuge.notMem {c : CodePoint} (h : IsHuge value digits) (hdigit : c.isAsciiDigit = false)
    (hminus : c ≠ '-') (hfeed : c ≠ '\n') : c ∉ value := by
  obtain ⟨sign, body, feed, rfl, hsign, hends, hbody, -, -⟩ := h
  have hsigned : c ∉ sign := by
    rcases hsign with rfl | rfl
    · exact nofun
    · exact fun hmem => hminus (List.mem_singleton.mp hmem)
  have hended : c ∉ feed := by
    rcases hends with rfl | rfl
    · exact nofun
    · exact fun hmem => hfeed (List.mem_singleton.mp hmem)
  have hvalue : c ∉ body := fun hmem => nomatch hdigit.symm.trans (hbody c hmem)
  simp [hsigned, hvalue, hended]

theorem dropSuffix_cases (small capital : CodePoint) (t : Text) :
    ∃ suffix, t = dropSuffix small capital t ++ suffix ∧
      (suffix = [] ∨ suffix = [small] ∨ suffix = [capital]) := by
  unfold dropSuffix
  split
  next last hlast =>
    obtain ⟨init, rfl⟩ := List.getLast?_eq_some_iff.mp hlast
    split
    next hsuffix =>
      refine ⟨[last], by rw [List.dropLast_concat], .inr ?_⟩
      rcases hsuffix with rfl | rfl
      · exact .inl rfl
      · exact .inr rfl
    · exact ⟨[], (List.append_nil _).symm, .inl rfl⟩
  · exact ⟨[], (List.append_nil _).symm, .inl rfl⟩

theorem dropSuffix_concat {small capital c : CodePoint} (hc : c = small ∨ c = capital) (t : Text) :
    dropSuffix small capital (t ++ [c]) = t := by
  rw [dropSuffix, List.getLast?_concat]
  simp only [if_pos hc, List.dropLast_concat]

theorem dropSuffix_of_notMem {small capital : CodePoint} {t : Text} (hsmall : small ∉ t)
    (hcapital : capital ∉ t) : dropSuffix small capital t = t := by
  unfold dropSuffix
  split
  next last hlast =>
    have hmem := List.mem_of_getLast? hlast
    rw [if_neg]
    rintro (rfl | rfl)
    · exact hsmall hmem
    · exact hcapital hmem
  · rfl

/-- A huge integer with or without the letter that marks a long one. -/
def IsHugeLong (value : Text) (digits : Nat) : Prop :=
  ∃ body suffix : Text, value = body ++ suffix ∧
    (suffix = [] ∨ suffix = ("l" : Text) ∨ suffix = ("L" : Text)) ∧ IsHuge body digits

theorem long_huge : long value type = .error (.hugeInteger digits) ↔ IsHugeLong value digits := by
  rw [long, map_error, integral_huge]
  constructor
  · intro h
    obtain ⟨suffix, hvalue, hsuffix⟩ := dropSuffix_cases 'l' 'L' value
    exact ⟨_, suffix, hvalue, hsuffix, h⟩
  · rintro ⟨body, suffix, rfl, hsuffix, hbody⟩
    have hdrop : dropSuffix 'l' 'L' (body ++ suffix) = body := by
      rcases hsuffix with rfl | rfl | rfl
      · have hsmall := hbody.notMem (c := 'l') rfl (by decide) (by decide)
        have hcapital := hbody.notMem (c := 'L') rfl (by decide) (by decide)
        rw [List.append_nil, dropSuffix_of_notMem hsmall hcapital]
      · exact dropSuffix_concat (.inl rfl) body
      · exact dropSuffix_concat (.inr rfl) body
    rw [hdrop]
    exact hbody

def IsModel (f : LiteralFault) : Prop := ∃ fault, f = .model fault

theorem not_huge {r : Result} (h : FailsWith IsModel r) : r ≠ .error (.hugeInteger digits) := by
  intro hr
  obtain ⟨fault, hfault⟩ := h _ hr
  cases hfault

theorem not_kind {r : Result} {k : KindFault} (h : FailsWith IsModel r) : r ≠ .error (.kind k) := by
  intro hr
  obtain ⟨fault, hfault⟩ := h _ hr
  cases hfault

theorem float_reports : FailsWith IsModel (float value type) := by
  unfold float
  split
  · exact .error ⟨_, rfl⟩
  · split
    · split
      · exact .ok _
      · exact .error ⟨_, rfl⟩
    · exact .error ⟨_, rfl⟩

theorem boolean_reports : FailsWith IsModel (boolean value type) := by
  unfold boolean
  split
  · exact .ok _
  · exact .error ⟨_, rfl⟩

theorem reference_reports {applicationId : Text} :
    FailsWith IsModel (reference value type applicationId) := by
  unfold reference
  split
  · exact .ok _
  · split
    · exact .error ⟨_, rfl⟩
    · dsimp only
      split
      · exact .error ⟨_, rfl⟩
      · exact .ok _

theorem enumeration_reports : FailsWith IsModel (enumeration value type) := by
  unfold enumeration
  split
  · exact .ok _
  · split
    · exact .ok _
    · exact .error ⟨_, rfl⟩

theorem onlyNull_reports : FailsWith IsModel (onlyNull value type) := by
  unfold onlyNull
  split
  · exact .ok _
  · exact .error ⟨_, rfl⟩

theorem integral_not_kind {bits : Nat} {k : KindFault} :
    integral bits value type ≠ .error (.kind k) := by
  unfold integral
  split
  · exact nofun
  · split
    · exact nofun
    · split
      · exact nofun
      · exact nofun

end Literal

namespace ArgumentType

/-- Does the type take an integer that is too long to be read? -/
def Overflows (t : ArgumentType) (value : Text) (digits : Nat) : Prop :=
  t.check = .ok () ∧ t.isArray = false ∧
    (t.tag = .integer ∧ Literal.IsHuge value digits ∨
      t.tag = .long ∧ Literal.IsHugeLong value digits)

theorem literalOf_huge {t : ArgumentType} {value applicationId : Text} {digits : Nat} :
    t.literalOf value applicationId = .error (.hugeInteger digits) ↔
      t.isArray = false ∧ (t.tag = .integer ∧ Literal.IsHuge value digits ∨
        t.tag = .long ∧ Literal.IsHugeLong value digits) := by
  obtain ⟨tag, isArray, className⟩ := t
  unfold literalOf
  cases isArray with
  | true =>
    refine iff_of_false ?_ fun h => nomatch h.1
    exact Literal.not_huge Literal.onlyNull_reports
  | false =>
    cases tag with
    | integer => simp [Literal.integral_huge]
    | long => simp [Literal.long_huge]
    | float => simp [Literal.not_huge Literal.float_reports]
    | boolean => simp [Literal.not_huge Literal.boolean_reports]
    | string => simp
    | reference => simp [Literal.not_huge Literal.reference_reports]
    | enumeration => simp [Literal.not_huge Literal.enumeration_reports]
    | parcelable | serializable | unlisted _ => simp [Literal.not_huge Literal.onlyNull_reports]

theorem literalOf_not_kind {t : ArgumentType} {value applicationId : Text} {k : KindFault} :
    t.literalOf value applicationId ≠ .error (.kind k) := by
  unfold literalOf
  split
  · exact Literal.not_kind Literal.onlyNull_reports
  · split
    · exact Literal.integral_not_kind
    · exact fun h => Literal.integral_not_kind (map_error.mp h)
    · exact Literal.not_kind Literal.float_reports
    · exact Literal.not_kind Literal.boolean_reports
    · exact nofun
    · exact Literal.not_kind Literal.reference_reports
    · exact Literal.not_kind Literal.enumeration_reports
    all_goals exact Literal.not_kind Literal.onlyNull_reports

theorem literal_not_kind {t : ArgumentType} {value applicationId : Text} {k : KindFault} :
    t.literal (.text value) applicationId ≠ .error (.kind k) := by
  unfold literal
  cases t.check with
  | error f => exact nofun
  | ok _ => exact literalOf_not_kind

theorem literal_huge {t : ArgumentType} {value : Text} {digits : Nat} (applicationId : Text) :
    t.literal (.text value) applicationId = .error (.hugeInteger digits) ↔
      t.Overflows value digits := by
  unfold literal Overflows
  cases t.check with
  | error f => exact iff_of_false nofun fun h => nomatch h.1
  | ok _ =>
    rw [and_iff_right rfl]
    exact literalOf_huge

/-- A literal is given or a model fault, unless the default is an integer too long to be read. -/
theorem literal_reported {t : ArgumentType} {value applicationId : Text} :
    ((∃ text, t.literal (.text value) applicationId = .ok text) ∨
        ∃ f, t.literal (.text value) applicationId = .error (.model f)) ↔
      ∀ digits, ¬t.Overflows value digits := by
  simp only [← literal_huge applicationId]
  cases h : t.literal (.text value) applicationId with
  | ok text => simp
  | error f =>
    cases f with
    | model f => simp
    | hugeInteger digits => simp
    | kind k => exact absurd h literal_not_kind

end ArgumentType

/-! ### The first default that is too long -/

/-- What stops a walk over a list is behind members that all were done. -/
def StopsAt {α : Type} (done stops : α → Prop) (xs : List α) : Prop :=
  ∃ before x after, xs = before ++ x :: after ∧ (∀ y ∈ before, done y) ∧ stops x

theorem StopsAt.congr {α : Type} {done done' stops stops' : α → Prop} {xs : List α}
    (hdone : ∀ x ∈ xs, (done x ↔ done' x)) (hstops : ∀ x ∈ xs, (stops x ↔ stops' x)) :
    StopsAt done stops xs ↔ StopsAt done' stops' xs := by
  unfold StopsAt
  refine exists_congr fun before => exists_congr fun x => exists_congr fun after => ?_
  refine and_congr_right fun hxs => and_congr ?_ (hstops x (by simp [hxs]))
  exact forall₂_congr fun y hy => hdone y (by simp [hxs, hy])

theorem mapM_stops {α β ε : Type} {f : α → Except ε β} {xs : List α} {e : ε} :
    xs.mapM f = .error e ↔ StopsAt (fun x => ∃ y, f x = .ok y) (fun x => f x = .error e) xs := by
  rw [mapM_error]
  constructor
  · rintro ⟨before, x, after, ys, hxs, hbefore, hx⟩
    refine ⟨before, x, after, hxs, fun y hy => ?_, hx⟩
    obtain ⟨b, -, hb⟩ := partner_of_mem_left (mapM_ok.mp hbefore) hy
    exact ⟨b, hb⟩
  · rintro ⟨before, x, after, hxs, hbefore, hx⟩
    obtain ⟨ys, hys⟩ := mapM_total hbefore
    exact ⟨before, x, after, ys, hxs, hys, hx⟩

theorem stopsAt_exists {α : Type} {done : α → Prop} {stops : α → Nat → Prop} {p : Nat → Prop}
    {xs : List α} :
    StopsAt done (fun x => ∃ n, p n ∧ stops x n) xs ↔ ∃ n, p n ∧ StopsAt done (stops · n) xs := by
  constructor
  · rintro ⟨before, x, after, hxs, hbefore, n, hn, hx⟩
    exact ⟨n, hn, before, x, after, hxs, hbefore, hx⟩
  · rintro ⟨n, hn, before, x, after, hxs, hbefore, hx⟩
    exact ⟨before, x, after, hxs, hbefore, n, hn, hx⟩

/-- The argument has a default that its type cannot read. -/
def ActionArgument.Overflows (x : ActionArgument) (digits : Nat) : Prop :=
  ∃ value, x.default = some value ∧ x.type.Overflows value digits

/-- One argument overflows, and those in front of it are held. -/
def Action.Overflows (applicationId : Text) (a : Action) (digits : Nat) : Prop :=
  StopsAt (fun x => ∃ h, x.hold applicationId = .ok h) (·.Overflows digits) a.args

/-- One action overflows in a destination with a name and without repeated ids, and those in front
of it have their arguments. -/
def Destination.Overflows (applicationId : Text) (d : Destination) (digits : Nat) : Prop :=
  (∃ c, d.className applicationId = .ok c) ∧ (d.actions.map (·.id.name)).Nodup ∧
    StopsAt (fun a => ∃ held, holdArguments applicationId a.args = .ok held)
      (·.Overflows applicationId digits) d.actions

/-- Nothing in the destination is in the way of its class. -/
def Destination.IsDescribed (applicationId : Text) (d : Destination) : Prop :=
  (∃ c, d.className applicationId = .ok c) ∧ (d.actions.map (·.id.name)).Nodup ∧
    ∀ a ∈ d.actions, ∃ held, holdArguments applicationId a.args = .ok held

/-- One destination overflows, and those in front of it have their classes. -/
def NavigationGraph.Overflows (applicationId : Text) (g : NavigationGraph) (digits : Nat) : Prop :=
  StopsAt (·.IsDescribed applicationId) (·.Overflows applicationId digits) g.acting

theorem mapError_within_breakdown {α : Type} {r : Except DirectionsFault α} {outer : Location}
    {b : Breakdown} :
    r.mapError (DirectionsFault.within outer) = .error (.breakdown b) ↔
      r = .error (.breakdown b) := by
  rw [mapError_error]
  constructor
  · rintro ⟨f, hf, hwithin⟩
    rcases f with (e | found) | b'
    · cases hwithin
    · cases hwithin
    · rw [hf]
      exact congrArg Except.error hwithin
  · intro h
    exact ⟨_, h, rfl⟩

theorem mapError_model_ne_breakdown {α ε : Type} {r : Except ε α} {located : ε → ModelError}
    {b : Breakdown} :
    r.mapError (fun f => DirectionsFault.model (located f)) ≠ .error (.breakdown b) := by
  intro h
  obtain ⟨f, -, hf⟩ := mapError_error.mp h
  cases hf

section

variable {applicationId : Text} {host : HostClasses} {b : Breakdown}

theorem ActionArgument.hold_breakdown {x : ActionArgument} (htext : ∃ t, x.name = .text t) :
    x.hold applicationId = .error (.breakdown b) ↔
      ∃ digits, b = .hugeInteger digits ∧ x.Overflows digits := by
  obtain ⟨t, ht⟩ := htext
  have hscalar : x.name.isScalar = true := by rw [ht]; rfl
  rw [hold]
  simp only [hscalar, Bool.not_true, Bool.false_eq_true, if_false]
  -- What the catalog refuses is a model fault; only the literal of the default can break down.
  constructor
  · intro h
    rcases bind_error.mp h with h | ⟨type, -, h⟩
    · exact absurd h mapError_model_ne_breakdown
    rcases bind_error.mp h with h | ⟨put, -, h⟩
    · exact absurd h mapError_model_ne_breakdown
    split at h
    · cases h
    next value hdefault =>
      rcases bind_error.mp h with h | ⟨initializer, -, h⟩
      · obtain ⟨f, hf, heq⟩ := mapError_error.mp h
        rw [map_error] at hf
        cases f with
        | model f => cases heq
        | hugeInteger digits =>
          cases heq
          exact ⟨digits, rfl, value, hdefault, (ArgumentType.literal_huge applicationId).mp hf⟩
        | kind k => exact absurd hf ArgumentType.literal_not_kind
      · cases h
  · rintro ⟨digits, rfl, value, hdefault, hoverflows⟩
    have hcheck := hoverflows.1
    have hliteral := (ArgumentType.literal_huge applicationId).mpr hoverflows
    obtain ⟨type, htype⟩ := ArgumentType.representation_total hcheck
    obtain ⟨put, hput⟩ := ArgumentType.putOperation_total hcheck
    refine bind_error.mpr (.inr ⟨type, mapError_ok.mpr htype, ?_⟩)
    refine bind_error.mpr (.inr ⟨put, mapError_ok.mpr hput, ?_⟩)
    rw [hdefault]
    exact bind_error.mpr (.inl (mapError_error.mpr
      ⟨.hugeInteger digits, map_error.mpr hliteral, rfl⟩))

theorem Action.holdArguments_breakdown {a : Action} (htext : a.HasTextNames) :
    holdArguments applicationId a.args = .error (.breakdown b) ↔
      ∃ digits, b = .hugeInteger digits ∧ a.Overflows applicationId digits := by
  rw [holdArguments, mapM_stops,
    StopsAt.congr (fun _ _ => Iff.rfl) fun x hx => ActionArgument.hold_breakdown (htext x hx),
    stopsAt_exists]
  rfl

theorem Action.hasUnnamedRequired_of_text {a : Action} (htext : a.HasTextNames) :
    a.hasUnnamedRequired = false := by
  refine List.any_eq_false.mpr fun x hx => ?_
  obtain ⟨t, ht⟩ := htext x hx
  simp [ht, Json.text?]

theorem Action.HasTextNames.isText {a : Action} (htext : a.HasTextNames) :
    ∀ x ∈ a.args, x.name.text?.isSome = true := by
  intro x hx
  obtain ⟨t, ht⟩ := htext x hx
  rw [ht]
  rfl

theorem Action.buildClass_of_text {a : Action} {held : ArgumentList} (htext : a.HasTextNames)
    (hheld : holdArguments applicationId a.args = .ok held) :
    a.buildClass host held = .ok (a.classOf host held) := by
  have hstands := (holdArguments_ok.mp hheld).imp fun x h hx => hx.stands
  have hnames := (ArgumentList.forall_given (·.text?.isSome = true) hstands).mpr htext.isText
  exact buildClass_ok.mpr ⟨fun h hh => hnames h (List.mem_of_mem_filter hh),
    fun h hh => Json.isWritable_of_text (hnames h hh), rfl⟩

theorem Action.directionsClass_breakdown {a : Action} (htext : a.HasTextNames) :
    a.directionsClass applicationId host = .error (.breakdown b) ↔
      ∃ digits, b = .hugeInteger digits ∧ a.Overflows applicationId digits := by
  rw [directionsClass, mapError_within_breakdown, bind_error, holdArguments_breakdown htext]
  refine or_iff_left ?_
  rintro ⟨held, hheld, h⟩
  rw [buildClass_of_text htext hheld] at h
  cases h

theorem Action.exists_directionsClass {a : Action} (htext : a.HasTextNames) :
    (∃ decl, a.directionsClass applicationId host = .ok decl) ↔
      ∃ held, holdArguments applicationId a.args = .ok held := by
  simp only [directionsClass, mapError_ok, bind_ok]
  constructor
  · rintro ⟨decl, held, hheld, -⟩
    exact ⟨held, hheld⟩
  · rintro ⟨held, hheld⟩
    exact ⟨_, held, hheld, buildClass_of_text htext hheld⟩

namespace Destination

variable {d : Destination}

/-- The destination has neither a name nor an id. -/
def IsNameless (d : Destination) : Prop := d.name = .text [] ∧ d.id = none

/-- A destination with a text for a name has a class name, or is refused as nameless. -/
theorem className_of_text (htext : ∃ t, d.name = .text t) :
    (¬d.IsNameless ∧ ∃ c, d.className applicationId = .ok c) ∨
      d.IsNameless ∧ d.className applicationId =
        .error (.model ModelFault.namelessDestination.unlocated) := by
  obtain ⟨t, ht⟩ := htext
  unfold className directionsClassName IsNameless
  rw [ht]
  cases t with
  | nil =>
    cases d.id with
    | none => exact .inr ⟨⟨rfl, rfl⟩, rfl⟩
    | some id => exact .inl ⟨(nomatch ·.2), _, rfl⟩
  | cons c rest => exact .inl ⟨fun h => (List.cons_ne_nil c rest (Json.text.inj h.1)).elim, _, rfl⟩

theorem className_ne_breakdown (htext : ∃ t, d.name = .text t) :
    d.className applicationId ≠ .error (.breakdown b) := by
  rcases className_of_text htext with ⟨-, c, hc⟩ | ⟨-, hrefused⟩
  · rw [hc]
    exact nofun
  · rw [hrefused]
    exact nofun

theorem holder_breakdown {name : Text} (htext : d.HasTextNames) :
    d.holder name applicationId host = .error (.breakdown b) ↔
      (d.actions.map (·.id.name)).Nodup ∧ ∃ digits, b = .hugeInteger digits ∧
        StopsAt (fun a => ∃ held, holdArguments applicationId a.args = .ok held)
          (·.Overflows applicationId digits) d.actions := by
  have hnamed : d.actions.any (·.hasUnnamedRequired) = false := by
    refine List.any_eq_false.mpr fun a ha => ?_
    rw [Action.hasUnnamedRequired_of_text (htext.2 a ha)]
    exact Bool.false_ne_true
  have hids : firstRepeated? [] (d.actions.map (·.id.name)) = none ↔
      (d.actions.map (·.id.name)).Nodup := firstRepeated?_eq_none fun _ _ => List.not_mem_nil
  have hwalk : d.actions.mapM (·.directionsClass applicationId host) = .error (.breakdown b) ↔
      ∃ digits, b = .hugeInteger digits ∧
        StopsAt (fun a => ∃ held, holdArguments applicationId a.args = .ok held)
          (·.Overflows applicationId digits) d.actions := by
    rw [mapM_stops, StopsAt.congr (fun a ha => Action.exists_directionsClass (htext.2 a ha))
      fun a ha => Action.directionsClass_breakdown (htext.2 a ha), stopsAt_exists]
  rw [← hids, ← hwalk, holder]
  cases firstRepeated? [] (d.actions.map (·.id.name)) with
  | some repeated => simp [DirectionsFault.model]
  | none => simp [bind_error, hnamed]

theorem directionsFile_breakdown (htext : d.HasTextNames) :
    d.directionsFile applicationId host = .error (.breakdown b) ↔
      ∃ digits, b = .hugeInteger digits ∧ d.Overflows applicationId digits := by
  rw [directionsFile, mapError_within_breakdown, bind_error,
    or_iff_right (className_ne_breakdown htext.1)]
  have hfile (c : ClassName) : (d.holder c.simple applicationId host >>= fun decl =>
        Except.ok (DirectionsFile.mk c decl)) = .error (.breakdown b) ↔
      d.holder c.simple applicationId host = .error (.breakdown b) := by
    simp [bind_error]
  simp only [hfile, holder_breakdown htext]
  constructor
  · rintro ⟨c, hc, hids, digits, hb, hstops⟩
    exact ⟨digits, hb, ⟨c, hc⟩, hids, hstops⟩
  · rintro ⟨digits, hb, ⟨c, hc⟩, hids, hstops⟩
    exact ⟨c, hc, hids, digits, hb, hstops⟩

theorem exists_directionsFile (htext : d.HasTextNames) :
    (∃ f, d.directionsFile applicationId host = .ok f) ↔ d.IsDescribed applicationId := by
  simp only [directionsFile_ok]
  constructor
  · rintro ⟨f, hname, hholds⟩
    refine ⟨⟨_, hname⟩, hholds.ids, fun a ha => ?_⟩
    obtain ⟨t, -, ht⟩ := partner_of_mem_left hholds.types ha
    exact (Action.exists_directionsClass (htext.2 a ha)).mp ⟨t, ht⟩
  · rintro ⟨⟨c, hname⟩, hids, hheld⟩
    have hclass : ∀ a ∈ d.actions, ∃ t, a.directionsClass applicationId host = .ok t :=
      fun a ha => (Action.exists_directionsClass (htext.2 a ha)).mpr (hheld a ha)
    obtain ⟨types, htypes⟩ := mapM_total hclass
    let methods := (d.actions.zip types).map fun entry => factory entry.1 entry.2
    exact ⟨⟨c, c.simple, [.publicAccess], [], [], methods, types⟩, hname, hids,
      fun a ha => Action.hasUnnamedRequired_of_text (htext.2 a ha), mapM_ok.mp htypes, rfl⟩

end Destination

theorem NavigationGraph.directionsFiles_breakdown {g : NavigationGraph} (htext : g.HasTextNames) :
    g.directionsFiles applicationId host = .error (.breakdown b) ↔
      ∃ digits, b = .hugeInteger digits ∧ g.Overflows applicationId digits := by
  have hacting : ∀ d ∈ g.acting, d.HasTextNames := fun d hd => htext d (List.mem_of_mem_filter hd)
  have hwalk : g.directionsFiles applicationId host = .error (.breakdown b) ↔
      g.acting.mapM (·.directionsFile applicationId host) = .error (.breakdown b) := by
    rw [directionsFiles, bind_error]
    refine or_iff_left ?_
    rintro ⟨files, -, h⟩
    split at h
    · cases h
    · cases h
  rw [hwalk, mapM_stops,
    StopsAt.congr (fun d hd => d.exists_directionsFile (hacting d hd))
      fun d hd => d.directionsFile_breakdown (hacting d hd), stopsAt_exists]
  rfl

end

/-! ### Reports that can be written -/

/-- If the fault is a model fault, the names of its place can be written. -/
def DirectionsFault.ShowsPlace : DirectionsFault → Prop
  | .reported (.model e) => e.location.isWritable = true
  | .reported (.collision _) | .breakdown _ => True

theorem DirectionsFault.ShowsPlace.within {α : Type} {r : Except DirectionsFault α}
    (hr : FailsWith ShowsPlace r) {outer : Location} (houter : outer.isWritable = true) :
    FailsWith ShowsPlace (r.mapError (DirectionsFault.within outer)) :=
  hr.mapError fun f hf => by
    rcases f with (e | found) | b
    · exact Location.isWritable_within hf houter
    · trivial
    · trivial

section

variable {applicationId : Text} {host : HostClasses}

theorem ActionArgument.hold_showsPlace {x : ActionArgument} (hname : x.name.isWritable = true) :
    FailsWith DirectionsFault.ShowsPlace (x.hold applicationId) := by
  unfold hold
  refine .bind (.mapError_all _ fun _ => hname) fun type _ => ?_
  refine .bind (.mapError_all _ fun _ => hname) fun operation _ => ?_
  split
  · exact .error trivial
  · dsimp only
    split
    · exact .ok _
    · refine .bind (.mapError_all _ fun f => ?_) fun initializer _ => .ok _
      cases f with
      | model f => exact hname
      | hugeInteger digits => trivial
      | kind k => trivial

theorem Action.directionsClass_showsPlace {a : Action} (htext : a.HasTextNames) :
    FailsWith DirectionsFault.ShowsPlace (a.directionsClass applicationId host) := by
  refine .within (.bind (.mapM fun x hx => ?_) fun held _ => ?_) rfl
  · exact ActionArgument.hold_showsPlace (Json.isWritable_of_text (htext.isText x hx))
  · exact .mapError_all _ fun _ => trivial

theorem Destination.label_isWritable {d : Destination} (htext : ∃ t, d.name = .text t) :
    d.label.isWritable = true := by
  obtain ⟨t, ht⟩ := htext
  unfold label
  split
  · rw [ht]
    rfl
  · cases d.id <;> rfl

theorem Destination.directionsFile_showsPlace {d : Destination} (htext : d.HasTextNames) :
    FailsWith DirectionsFault.ShowsPlace (d.directionsFile applicationId host) := by
  have hlabel := Location.atDestination_isWritable (label_isWritable htext.1)
  refine .within (.bind (.mapError_all _ fun f => ?_) fun c _ => .bind ?_ fun decl _ => .ok _) hlabel
  · cases f with
    | nameless => rfl
    | notText => trivial
  · unfold holder
    split
    · exact .error rfl
    · refine .bind (.mapM fun a ha => a.directionsClass_showsPlace (htext.2 a ha)) fun types _ => ?_
      split
      · exact .error trivial
      · exact .ok _

theorem NavigationGraph.directionsFiles_showsPlace {g : NavigationGraph} (htext : g.HasTextNames) :
    FailsWith DirectionsFault.ShowsPlace (g.directionsFiles applicationId host) := by
  have hacting : ∀ d ∈ g.acting, d.HasTextNames := fun d hd => htext d (List.mem_of_mem_filter hd)
  refine .bind (.mapM fun d hd => d.directionsFile_showsPlace (hacting d hd)) fun files _ => ?_
  split
  · exact .ok _
  · exact .error trivial

end

/-! ### Whole runs -/

namespace Settings

/-- The settings that a generation reads are of the kinds they are declared with. -/
structure HasDeclaredKinds (s : Settings) : Prop where
  applicationId : ∃ t, s.applicationId = .text t
  indentSize : ∃ n, s.indentSize = .int n
  useTabs : ∃ b, s.useTabs = .bool b
  lineEnding : ∃ t, s.lineEnding = .text t
  addComments : ∃ b, s.addComments = .bool b
  navigationPackage : ∃ t, s.navigationPackage = .text t
  containerClass : ∃ t, s.containerClass = .text t

variable {s : Settings} {g : NavigationGraph} {style : SourceStyle} {b : Breakdown}

theorem HasDeclaredKinds.canWrite (hs : s.HasDeclaredKinds) (g : NavigationGraph) :
    s.CanWrite g := by
  obtain ⟨package, hpackage⟩ := hs.navigationPackage
  obtain ⟨ending, hending⟩ := hs.lineEnding
  obtain ⟨id, hid⟩ := hs.applicationId
  refine .inr ⟨?_, ?_, fun _ _ _ => ?_⟩
  · rw [hpackage]
    rfl
  · rw [hending]
    rfl
  · rw [hid]
    rfl

theorem describe_breakdown (hs : s.HasDeclaredKinds) (htext : g.HasTextNames) :
    s.describe g = .error (.breakdown b) ↔
      ∃ digits, b = .hugeInteger digits ∧ g.Overflows s.applicationName digits := by
  obtain ⟨container, hcontainer⟩ := hs.containerClass
  rw [describe, hostClasses, hcontainer]
  exact NavigationGraph.directionsFiles_breakdown htext

theorem sources_breakdown (hs : s.HasDeclaredKinds) (style : SourceStyle) :
    s.sources style g = .error (.breakdown b) ↔ s.describe g = .error (.breakdown b) := by
  cases hfiles : s.describe g with
  | error e =>
    rw [sources, hfiles, bind_error]
    refine or_iff_left ?_
    rintro ⟨_, hok, -⟩
    cases hok
  | ok files =>
    obtain ⟨pairs, hpairs⟩ := exists_entryPerFile style hfiles (hs.canWrite g)
    have hsources := (sources_ok hfiles).mpr ⟨hs.canWrite g, pairs, hpairs, rfl⟩
    simp [hsources]

/-- What is reported about a graph whose names are text can be written. -/
theorem sources_written (htext : g.HasTextNames) {e : GenerationError}
    (h : s.sources style g = .error (.reported e)) : ∃ t, e.written = .ok t := by
  have hplaced : FailsWith DirectionsFault.ShowsPlace (s.sources style g) := by
    refine .bind (.bind (.mapError_all _ fun _ => trivial) fun host _ => ?_) fun files _ =>
      .bind (.mapError_all _ fun _ => trivial) fun pairs _ => .ok _
    exact NavigationGraph.directionsFiles_showsPlace htext
  cases e with
  | model e => exact Document.written_isOk.mpr (hplaced _ h)
  | collision found => exact ⟨_, rfl⟩

theorem generate_breakdown (hs : s.HasDeclaredKinds) (htext : g.HasTextNames)
    (hstyle : s.sourceStyle = .ok style) :
    s.generate g = .error b ↔
      ∃ digits, b = .hugeInteger digits ∧ g.Overflows s.applicationName digits := by
  -- The warnings come first, and look at the same names.
  obtain ⟨warnings, hwarnings⟩ := warnings_total (g := g) fun d hd a ha =>
    ⟨Destination.label_isWritable (htext d hd).1, ((htext d hd).2 a ha).isText⟩
  rw [← describe_breakdown hs htext, ← sources_breakdown hs style, generate, hstyle,
    hwarnings]
  simp only [Except.mapError, bind, Except.bind]
  cases hsources : s.sources style g with
  | ok sources => simp
  | error f =>
    cases f with
    | reported e =>
      obtain ⟨t, ht⟩ := sources_written htext hsources
      simp [ht, Except.map]
    | breakdown b' => simp

/-- A run over a graph whose names are text gives sources or a report about the graph, unless the
first default that gets in the way is an integer too long to be read; then the run ends with that
fault.  No literal but that of such a default ends otherwise than with a text or a model fault. -/
theorem generate_returns_iff (hs : s.HasDeclaredKinds) (htext : g.HasTextNames) :
    ((∃ result, s.generate g = .ok result) ↔ (∃ style, s.sourceStyle = .ok style) ∧
      ∀ digits, ¬g.Overflows s.applicationName digits) ∧
    (∀ result, s.generate g = .ok result →
      (∃ generation, result = .ok generation) ∨ ∃ e, result = .error (.graph e)) ∧
    (∀ style b, s.sourceStyle = .ok style → s.generate g = .error b →
      ∃ digits, b = .hugeInteger digits ∧ g.Overflows s.applicationName digits) ∧
    ((∀ entry ∈ g.arguments, ∀ digits, ¬entry.2.2.Overflows digits) →
      ∀ digits, ¬g.Overflows s.applicationName digits) ∧
    ∀ (t : ArgumentType) (value applicationId : Text),
      ((∃ text, t.literal (.text value) applicationId = .ok text) ∨
        ∃ f, t.literal (.text value) applicationId = .error (.model f)) ↔
      ∀ digits, ¬t.Overflows value digits := by
  refine ⟨⟨?_, ?_⟩, ?_, ?_, ?_, fun t value applicationId => ArgumentType.literal_reported⟩
  · rintro ⟨result, hresult⟩
    obtain ⟨style, hstyle⟩ := sourceStyle_of_generate hresult
    refine ⟨⟨style, hstyle⟩, fun digits hdigits => ?_⟩
    have herror := (generate_breakdown hs htext hstyle).mpr ⟨digits, rfl, hdigits⟩
    exact nomatch hresult.symm.trans herror
  · rintro ⟨⟨style, hstyle⟩, hfree⟩
    cases hresult : s.generate g with
    | ok result => exact ⟨result, rfl⟩
    | error b =>
      obtain ⟨digits, -, hdigits⟩ := (generate_breakdown hs htext hstyle).mp hresult
      exact absurd hdigits (hfree digits)
  · intro result hresult
    cases result with
    | ok generation => exact .inl ⟨generation, rfl⟩
    | error failure =>
      cases failure with
      | document e => exact absurd hresult Document.generate_ne_document
      | graph e => exact .inr ⟨e, rfl⟩
  · intro style b hstyle hb
    exact (generate_breakdown hs htext hstyle).mp hb
  · intro hfree digits hdigits
    obtain ⟨before, d, after, hd, -, -, -, hdestination⟩ := hdigits
    obtain ⟨before', a, after', ha, -, haction⟩ := hdestination
    obtain ⟨before'', x, after'', hx, -, hargument⟩ := haction
    have hmem : (d, a, x) ∈ g.arguments := by
      have hacting : d ∈ g.acting := by rw [hd]; simp
      refine List.mem_flatMap.mpr ⟨d, List.mem_of_mem_filter hacting, ?_⟩
      refine List.mem_flatMap.mpr ⟨a, by rw [ha]; simp, List.mem_map.mpr ⟨x, ?_, rfl⟩⟩
      rw [hx]
      simp
    exact hfree (d, a, x) hmem digits hargument

/-- A screen whose only argument is an integer with a default. -/
def countedScreen (default : Text) : NavigationGraph :=
  let go : Action := ⟨⟨"meter", "read", by decide, by decide⟩, none,
    [⟨.text "count", ⟨.integer, false, []⟩, some default, rfl⟩], rfl⟩
  ⟨[⟨.text "app.Main", none, [go], []⟩]⟩

theorem default_hasDeclaredKinds : default.HasDeclaredKinds :=
  ⟨⟨_, rfl⟩, ⟨_, rfl⟩, ⟨_, rfl⟩, ⟨_, rfl⟩, ⟨_, rfl⟩, ⟨_, rfl⟩, ⟨_, rfl⟩⟩

theorem countedScreen_hasTextNames (default : Text) : (countedScreen default).HasTextNames := by
  intro d hd
  cases List.mem_singleton.mp hd
  refine ⟨⟨_, rfl⟩, fun a ha x hx => ?_⟩
  cases List.mem_singleton.mp ha
  cases List.mem_singleton.mp hx
  exact ⟨_, rfl⟩

theorem short_default_returns :
    ∃ result, default.generate (countedScreen "7") = .ok result := by
  obtain ⟨hreturns, -, -, hfree, -⟩ :=
    generate_returns_iff default_hasDeclaredKinds (countedScreen_hasTextNames "7")
  refine hreturns.mpr ⟨⟨_, rfl⟩, hfree fun entry hentry digits hdigits => ?_⟩
  cases List.mem_singleton.mp hentry
  obtain ⟨value, hvalue, -, -, ⟨-, hhuge⟩ | ⟨htag, -⟩⟩ := hdigits
  · cases hvalue
    exact absurd hhuge.lt_length (by decide)
  · cases htag

/-- One digit more than an integer may have, and neither the literal nor the run has a result. -/
theorem long_default_breaks_down :
    ArgumentType.literal ⟨.integer, false, []⟩ (.text (List.replicate 4301 '1')) [] =
        .error (.hugeInteger 4301) ∧
      default.generate (countedScreen (List.replicate 4301 '1')) = .error (.hugeInteger 4301) := by
  have hoverflows : ArgumentType.Overflows ⟨.integer, false, []⟩ (List.replicate 4301 '1') 4301 :=
    ⟨rfl, rfl, .inl ⟨rfl, Literal.isHuge_replicate (by decide)⟩⟩
  refine ⟨(ArgumentType.literal_huge []).mpr hoverflows, ?_⟩
  have hstyle : default.sourceStyle = .ok ⟨true, .blanks 4, []⟩ := rfl
  refine (generate_breakdown default_hasDeclaredKinds (countedScreen_hasTextNames _) hstyle).mpr
    ⟨4301, rfl, [], _, [], rfl, nofun, ⟨_, rfl⟩, ?_, [], _, [], rfl, nofun, [], _, [], rfl, nofun,
      _, rfl, hoverflows⟩
  exact List.nodup_singleton _

end Settings
end NavDirections
