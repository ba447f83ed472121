import NavDirections.Proofs.Breakdowns
import NavDirections.Proofs.ClassCollisions

/-!
# The first fault of a graph

A graph is refused for its model exactly when one of its acting destinations has a fault.  The
refusal names the first such destination in the order of the positions.  There the name comes
first, then the ids of all actions, then the arguments of one action after another.
-/

namespace NavDirections

open Success Failure

/-- The first member of a list that has a property. -/
def IsFirst {α : Type} (p : α → Prop) (xs : List α) (x : α) : Prop :=
  ∃ before after, xs = before ++ x :: after ∧ (∀ y ∈ before, ¬p y) ∧ p x

theorem IsFirst.mem {α : Type} {p : α → Prop} {xs : List α} {x : α} (h : IsFirst p xs x) :
    x ∈ xs := by
  obtain ⟨before, after, rfl, -, -⟩ := h
  exact List.mem_append_right before List.mem_cons_self

theorem IsFirst.holds {α : Type} {p : α → Prop} {xs : List α} {x : α} (h : IsFirst p xs x) :
    p x := by
  obtain ⟨-, -, -, -, hx⟩ := h
  exact hx

theorem exists_isFirst {α : Type} {p : α → Prop} {xs : List α} (h : ∃ x ∈ xs, p x) :
    ∃ x, IsFirst p xs x := by
  induction xs with
  | nil =>
    obtain ⟨x, hx, -⟩ := h
    cases hx
  | cons y rest ih =>
    by_cases hy : p y
    · exact ⟨y, [], rest, rfl, nofun, hy⟩
    · obtain ⟨x, hx, hp⟩ := h
      rcases List.mem_cons.mp hx with rfl | hx
      · exact absurd hp hy
      · obtain ⟨z, before, after, rfl, hbefore, hz⟩ := ih ⟨x, hx, hp⟩
        exact ⟨z, y :: before, after, rfl, List.forall_mem_cons.mpr ⟨hy, hbefore⟩, hz⟩

/-- What stops a walk whose other members are done is the first member that is not. -/
theorem stopsAt_iff_isFirst {α : Type} {done stops p : α → Prop} {xs : List α}
    (hdone : ∀ x ∈ xs, (done x ↔ ¬p x)) (hstops : ∀ x ∈ xs, stops x → p x) :
    StopsAt done stops xs ↔ ∃ x, IsFirst p xs x ∧ stops x := by
  constructor
  · rintro ⟨before, x, after, rfl, hbefore, hx⟩
    have hp : p x := hstops x (by simp) hx
    exact ⟨x, ⟨before, after, rfl, fun y hy => (hdone y (by simp [hy])).mp (hbefore y hy), hp⟩, hx⟩
  · rintro ⟨x, ⟨before, after, rfl, hbefore, -⟩, hx⟩
    exact ⟨before, x, after, rfl, fun y hy => (hdone y (by simp [hy])).mpr (hbefore y hy), hx⟩

/-- The catalog refuses the type of the argument, or the type its default. -/
inductive ActionArgument.HasFault (applicationId : Text) (x : ActionArgument) : ModelFault → Prop
  | type {f : ModelFault} (h : x.type.check = .error f) : HasFault applicationId x f
  | default {value : Text} {f : ModelFault} (hdefault : x.default = some value)
      (h : x.type.literal (.text value) applicationId = .error (.model f)) :
      HasFault applicationId x f

def ActionArgument.IsFaulty (applicationId : Text) (x : ActionArgument) : Prop :=
  ∃ f, x.HasFault applicationId f

def Action.IsFaulty (applicationId : Text) (a : Action) : Prop :=
  ∃ x ∈ a.args, x.IsFaulty applicationId

namespace Destination

/-- The id name of the action is that of an action in front of it, and of those no two share
one. -/
def RepeatsId (d : Destination) (a : Action) : Prop :=
  ∃ before after, d.actions = before ++ a :: after ∧ (before.map (·.id.name)).Nodup ∧
    a.id.name ∈ before.map (·.id.name)

/-- The destination has no name, two actions with one id name, or a faulty argument. -/
def IsFaulty (applicationId : Text) (d : Destination) : Prop :=
  d.IsNameless ∨ ¬(d.actions.map (·.id.name)).Nodup ∨ ∃ a ∈ d.actions, a.IsFaulty applicationId

/-- The fault that comes first in a destination, and where it lies.  Names come before ids, and the
ids of all actions before the arguments of the first. -/
inductive FirstFault (applicationId : Text) (d : Destination) : ModelError → Prop
  | name (h : d.IsNameless) :
      FirstFault applicationId d ⟨.namelessDestination, ⟨some d.label, none, none⟩⟩
  | id {a : Action} (hname : ¬d.IsNameless) (h : d.RepeatsId a) :
      FirstFault applicationId d ⟨.duplicateAction, ⟨some d.label, some a.id.name, none⟩⟩
  | argument {a : Action} {x : ActionArgument} {f : ModelFault} (hname : ¬d.IsNameless)
      (hids : (d.actions.map (·.id.name)).Nodup)
      (haction : IsFirst (·.IsFaulty applicationId) d.actions a)
      (hargument : IsFirst (·.IsFaulty applicationId) a.args x) (h : x.HasFault applicationId f) :
      FirstFault applicationId d ⟨f, ⟨some d.label, some a.id.name, some x.name⟩⟩

end Destination

theorem mapError_within_model {α : Type} {r : Except DirectionsFault α} {outer : Location}
    {e : ModelError} :
    r.mapError (DirectionsFault.within outer) = .error (.model e) ↔
      ∃ inner, r = .error (.model inner) ∧ inner.within outer = e := by
  rw [mapError_error]
  constructor
  · rintro ⟨f, hf, hwithin⟩
    rcases f with (inner | found) | b
    · exact ⟨inner, hf, GenerationError.model.inj (DirectionsFault.reported.inj hwithin)⟩
    · cases hwithin
    · cases hwithin
  · rintro ⟨inner, hr, rfl⟩
    exact ⟨_, hr, rfl⟩

theorem mapError_located {α : Type} {r : Except ModelFault α} {l : Location} {e : ModelError} :
    r.mapError (fun f => DirectionsFault.model ⟨f, l⟩) = .error (.model e) ↔
      ∃ f, r = .error f ∧ e = ⟨f, l⟩ := by
  rw [mapError_error]
  refine exists_congr fun f => and_congr_right fun _ => ⟨?_, ?_⟩
  · intro h
    exact (GenerationError.model.inj (DirectionsFault.reported.inj h)).symm
  · rintro rfl
    rfl

namespace ArgumentType

variable {t : ArgumentType} {f : ModelFault}

theorem representation_error : t.representation = .error f ↔ t.check = .error f := by
  rw [representation, bind_error]
  refine or_iff_left ?_
  rintro ⟨_, _, h⟩
  cases h

theorem putOperation_error : t.putOperation = .error f ↔ t.check = .error f := by
  rw [putOperation, bind_error]
  refine or_iff_left ?_
  rintro ⟨_, _, h⟩
  cases h

end ArgumentType

section

variable {applicationId : Text} {host : HostClasses} {e : ModelError}

namespace ActionArgument

variable {x : ActionArgument}

theorem hold_model (htext : ∃ t, x.name = .text t) :
    x.hold applicationId = .error (.model e) ↔
      ∃ f, x.HasFault applicationId f ∧ e = ⟨f, .atArgument x.name⟩ := by
  obtain ⟨t, ht⟩ := htext
  have hscalar : x.name.isScalar = true := by rw [ht]; rfl
  rw [hold]
  simp only [hscalar, Bool.not_true, Bool.false_eq_true, if_false]
  constructor
  · intro h
    rcases bind_error.mp h with h | ⟨type, htype, h⟩
    · obtain ⟨f, hf, rfl⟩ := mapError_located.mp h
      exact ⟨f, .type (ArgumentType.representation_error.mp hf), rfl⟩
    rcases bind_error.mp h with h | ⟨put, -, h⟩
    · obtain ⟨f, hf, rfl⟩ := mapError_located.mp h
      exact ⟨f, .type (ArgumentType.putOperation_error.mp hf), rfl⟩
    split at h
    · cases h
    next value hdefault =>
      rcases bind_error.mp h with h | ⟨initializer, -, h⟩
      · obtain ⟨g, hg, heq⟩ := mapError_error.mp h
        cases g with
        | model f =>
          cases heq
          exact ⟨f, .default hdefault (map_error.mp hg), rfl⟩
        | hugeInteger digits | kind k => cases heq
      · cases h
  · rintro ⟨f, hfault, rfl⟩
    cases hcheck : x.type.check with
    | error g =>
      have hf : f = g := by
        cases hfault with
        | type h => exact Except.error.inj (h.symm.trans hcheck)
        | default hdefault h =>
          unfold ArgumentType.literal at h
          rw [hcheck] at h
          exact (LiteralFault.model.inj (Except.error.inj h)).symm
      have htype := ArgumentType.representation_error.mpr (hcheck.trans (congrArg _ hf.symm))
      exact bind_error.mpr (.inl (mapError_located.mpr ⟨f, htype, rfl⟩))
    | ok _ =>
      obtain ⟨type, htype⟩ := ArgumentType.representation_total hcheck
      obtain ⟨put, hput⟩ := ArgumentType.putOperation_total hcheck
      refine bind_error.mpr (.inr ⟨type, mapError_ok.mpr htype, ?_⟩)
      refine bind_error.mpr (.inr ⟨put, mapError_ok.mpr hput, ?_⟩)
      cases hfault with
      | type h => cases hcheck.symm.trans h
      | default hdefault h =>
        rw [hdefault]
        exact bind_error.mpr (.inl (mapError_error.mpr ⟨.model f, map_error.mpr h, rfl⟩))

/-- An argument is held unless it is faulty, where its default is no integer too long to be read. -/
theorem exists_hold (htext : ∃ t, x.name = .text t) (hshort : ∀ digits, ¬x.Overflows digits) :
    (∃ h, x.hold applicationId = .ok h) ↔ ¬x.IsFaulty applicationId := by
  obtain ⟨t, ht⟩ := htext
  have hscalar : x.name.isScalar = true := by rw [ht]; rfl
  simp only [hold_ok]
  constructor
  · rintro ⟨h, hholds⟩ ⟨f, hf⟩
    cases hf with
    | type hcheck =>
      have htype := ArgumentType.representation_error.mpr hcheck
      cases htype.symm.trans hholds.type
    | default hdefault hliteral =>
      rcases hholds.initializer with ⟨hnone, -⟩ | ⟨value, literal, hsome, -, hok⟩
      · cases hnone.symm.trans hdefault
      · cases hsome.symm.trans hdefault
        cases hok.symm.trans hliteral
  · intro hfree
    have hcheck : x.type.check = .ok () := by
      cases hcheck : x.type.check with
      | ok _ => rfl
      | error f => exact absurd ⟨f, .type hcheck⟩ hfree
    obtain ⟨type, htype⟩ := ArgumentType.representation_total hcheck
    obtain ⟨put, hput⟩ := ArgumentType.putOperation_total hcheck
    cases hdefault : x.default with
    | none => exact ⟨⟨_, type, put, none⟩, hscalar, rfl, htype, hput, .inl ⟨hdefault, rfl⟩⟩
    | some value =>
      have hfits : ∀ digits, ¬x.type.Overflows value digits :=
        fun digits hover => hshort digits ⟨value, hdefault, hover⟩
      rcases ArgumentType.literal_reported.mpr hfits with ⟨text, htext⟩ | ⟨f, hf⟩
      · exact ⟨⟨_, type, put, some text⟩, hscalar, rfl, htype, hput,
          .inr ⟨value, text, hdefault, rfl, htext⟩⟩
      · exact absurd ⟨f, .default hdefault hf⟩ hfree

end ActionArgument

namespace Action

variable {a : Action}

theorem exists_held (htext : a.HasTextNames) (hshort : ∀ x ∈ a.args, ∀ digits, ¬x.Overflows digits) :
    (∃ held, holdArguments applicationId a.args = .ok held) ↔ ¬a.IsFaulty applicationId := by
  have hhold : ∀ x ∈ a.args, (∃ h, x.hold applicationId = .ok h) ↔ ¬x.IsFaulty applicationId :=
    fun x hx => ActionArgument.exists_hold (htext x hx) (hshort x hx)
  constructor
  · rintro ⟨held, hheld⟩ ⟨x, hx, hfaulty⟩
    obtain ⟨h, -, hh⟩ := partner_of_mem_left (mapM_ok.mp hheld) hx
    exact (hhold x hx).mp ⟨h, hh⟩ hfaulty
  · intro hfree
    exact mapM_total fun x hx => (hhold x hx).mpr fun hfaulty => hfree ⟨x, hx, hfaulty⟩

theorem directionsClass_model (htext : a.HasTextNames)
    (hshort : ∀ x ∈ a.args, ∀ digits, ¬x.Overflows digits) :
    a.directionsClass applicationId host = .error (.model e) ↔
      ∃ x f, IsFirst (·.IsFaulty applicationId) a.args x ∧ x.HasFault applicationId f ∧
        e = ⟨f, ⟨none, some a.id.name, some x.name⟩⟩ := by
  have hwalk (inner : ModelError) : holdArguments applicationId a.args = .error (.model inner) ↔
      ∃ x, IsFirst (·.IsFaulty applicationId) a.args x ∧
        x.hold applicationId = .error (.model inner) := by
    rw [holdArguments, mapM_stops]
    refine stopsAt_iff_isFirst (fun x hx => ActionArgument.exists_hold (htext x hx) (hshort x hx)) ?_
    intro x hx hstop
    obtain ⟨f, hf, -⟩ := (ActionArgument.hold_model (htext x hx)).mp hstop
    exact ⟨f, hf⟩
  have hclass (inner : ModelError) : (holdArguments applicationId a.args >>= fun held =>
        (a.buildClass host held).mapError .breakdown) = .error (.model inner) ↔
      holdArguments applicationId a.args = .error (.model inner) := by
    rw [bind_error]
    refine or_iff_left ?_
    rintro ⟨held, hheld, h⟩
    rw [buildClass_of_text htext hheld] at h
    cases h
  rw [directionsClass, mapError_within_model]
  simp only [hclass, hwalk]
  constructor
  · rintro ⟨inner, ⟨x, hfirst, hx⟩, rfl⟩
    obtain ⟨f, hf, rfl⟩ := (ActionArgument.hold_model (htext x hfirst.mem)).mp hx
    exact ⟨x, f, hfirst, hf, rfl⟩
  · rintro ⟨x, f, hfirst, hf, rfl⟩
    refine ⟨⟨f, .atArgument x.name⟩, ⟨x, hfirst, ?_⟩, rfl⟩
    exact (ActionArgument.hold_model (htext x hfirst.mem)).mpr ⟨f, hf, rfl⟩

end Action

/-! ### Destinations -/

theorem firstRepeated?_eq_some {seen names : List Text} {name : Text} :
    firstRepeated? seen names = some name ↔
      ∃ before after, names = before ++ name :: after ∧ firstRepeated? seen before = none ∧
        (name ∈ before ∨ name ∈ seen) := by
  induction names generalizing seen with
  | nil => simp [firstRepeated?]
  | cons first rest ih =>
    rw [firstRepeated?]
    by_cases hseen : seen.contains first = true
    · rw [if_pos hseen, Option.some.injEq]
      constructor
      · rintro rfl
        exact ⟨[], rest, rfl, rfl, .inr (List.contains_iff_mem.mp hseen)⟩
      · rintro ⟨before, after, hnames, hbefore, -⟩
        cases before with
        | nil => exact (List.cons.inj hnames).1
        | cons other before =>
          obtain ⟨rfl, -⟩ := List.cons.inj hnames
          rw [firstRepeated?, if_pos hseen] at hbefore
          cases hbefore
    · rw [if_neg hseen, ih]
      constructor
      · rintro ⟨before, after, rfl, hbefore, hname⟩
        refine ⟨first :: before, after, rfl, ?_, ?_⟩
        · rw [firstRepeated?, if_neg hseen, hbefore]
        · rcases hname with hname | hname
          · exact .inl (List.mem_cons_of_mem first hname)
          · rcases List.mem_cons.mp hname with rfl | hname
            · exact .inl List.mem_cons_self
            · exact .inr hname
      · rintro ⟨before, after, hnames, hbefore, hname⟩
        cases before with
        | nil =>
          obtain ⟨rfl, -⟩ := List.cons.inj hnames
          rcases hname with hname | hname
          · cases hname
          · exact absurd (List.contains_iff_mem.mpr hname) hseen
        | cons other before =>
          obtain ⟨rfl, rfl⟩ := List.cons.inj hnames
          rw [firstRepeated?, if_neg hseen] at hbefore
          refine ⟨before, after, rfl, hbefore, ?_⟩
          rcases hname with hname | hname
          · rcases List.mem_cons.mp hname with rfl | hname
            · exact .inr List.mem_cons_self
            · exact .inl hname
          · exact .inr (List.mem_cons_of_mem first hname)

theorem firstRepeated?_nil {names : List Text} :
    firstRepeated? [] names = none ↔ names.Nodup :=
  firstRepeated?_eq_none fun _ _ => List.not_mem_nil

namespace Destination

variable {d : Destination}

theorem repeatsId_iff {name : Text} :
    firstRepeated? [] (d.actions.map (·.id.name)) = some name ↔
      ∃ a, d.RepeatsId a ∧ a.id.name = name := by
  rw [firstRepeated?_eq_some]
  constructor
  · rintro ⟨names, names', hnames, hbefore, hname | hname⟩
    · obtain ⟨before, rest, hactions, rfl, hrest⟩ := List.map_eq_append_iff.mp hnames
      obtain ⟨a, after, rfl, rfl, rfl⟩ := List.map_eq_cons_iff.mp hrest
      exact ⟨a, ⟨before, after, hactions, firstRepeated?_nil.mp hbefore, hname⟩, rfl⟩
    · cases hname
  · rintro ⟨a, ⟨before, after, hactions, hbefore, ha⟩, rfl⟩
    refine ⟨before.map (·.id.name), after.map (·.id.name), ?_, firstRepeated?_nil.mpr hbefore,
      .inl ha⟩
    rw [hactions, List.map_append, List.map_cons]

theorem exists_repeatsId (h : ¬(d.actions.map (·.id.name)).Nodup) : ∃ a, d.RepeatsId a := by
  cases hrepeated : firstRepeated? [] (d.actions.map (·.id.name)) with
  | none => exact absurd (firstRepeated?_nil.mp hrepeated) h
  | some name =>
    obtain ⟨a, ha, -⟩ := repeatsId_iff.mp hrepeated
    exact ⟨a, ha⟩

theorem RepeatsId.not_nodup {a : Action} (h : d.RepeatsId a) :
    ¬(d.actions.map (·.id.name)).Nodup := by
  rw [← firstRepeated?_nil, repeatsId_iff.mpr ⟨a, h, rfl⟩]
  exact nofun

theorem className_model (htext : ∃ t, d.name = .text t) :
    d.className applicationId = .error (.model e) ↔
      d.IsNameless ∧ e = ModelFault.namelessDestination.unlocated := by
  rcases className_of_text htext with ⟨hnamed, c, hc⟩ | ⟨hnameless, hrefused⟩
  · rw [hc]
    exact iff_of_false nofun fun h => hnamed h.1
  · rw [hrefused, and_iff_right hnameless]
    constructor
    · intro h
      cases h
      rfl
    · rintro rfl
      rfl

theorem exists_className (htext : ∃ t, d.name = .text t) :
    (∃ c, d.className applicationId = .ok c) ↔ ¬d.IsNameless := by
  rcases className_of_text htext with ⟨hnamed, hc⟩ | ⟨hnameless, hrefused⟩
  · exact iff_of_true hc hnamed
  · rw [hrefused]
    exact iff_of_false nofun fun h => h hnameless

/-- No default in the destination is an integer too long to be read. -/
def IsShort (d : Destination) : Prop :=
  ∀ a ∈ d.actions, ∀ x ∈ a.args, ∀ digits, ¬x.Overflows digits

theorem holder_model {name : Text} (htext : d.HasTextNames) (hshort : d.IsShort) :
    d.holder name applicationId host = .error (.model e) ↔
      (∃ a, d.RepeatsId a ∧ e = ⟨.duplicateAction, .atAction a.id.name⟩) ∨
        (d.actions.map (·.id.name)).Nodup ∧
          ∃ a, IsFirst (·.IsFaulty applicationId) d.actions a ∧
            a.directionsClass applicationId host = .error (.model e) := by
  have hnamed : d.actions.any (·.hasUnnamedRequired) = false := by
    refine List.any_eq_false.mpr fun a ha => ?_
    rw [Action.hasUnnamedRequired_of_text (htext.2 a ha)]
    exact Bool.false_ne_true
  have hwalk : d.actions.mapM (·.directionsClass applicationId host) = .error (.model e) ↔
      ∃ a, IsFirst (·.IsFaulty applicationId) d.actions a ∧
        a.directionsClass applicationId host = .error (.model e) := by
    rw [mapM_stops]
    refine stopsAt_iff_isFirst (fun a ha => ?_) fun a ha hstop => ?_
    · rw [Action.exists_directionsClass (htext.2 a ha), Action.exists_held (htext.2 a ha) (hshort a ha)]
    · obtain ⟨x, f, hfirst, hf, -⟩ :=
        (Action.directionsClass_model (htext.2 a ha) (hshort a ha)).mp hstop
      exact ⟨x, hfirst.mem, f, hf⟩
  rw [← firstRepeated?_nil, ← hwalk, holder]
  cases hrepeated : firstRepeated? [] (d.actions.map (·.id.name)) with
  | some repeated =>
    obtain ⟨a, ha, rfl⟩ := repeatsId_iff.mp hrepeated
    rw [or_iff_left fun h => Option.some_ne_none _ h.1]
    constructor
    · intro h
      cases h
      exact ⟨a, ha, rfl⟩
    · rintro ⟨b, hb, rfl⟩
      have hname := hrepeated.symm.trans (repeatsId_iff.mpr ⟨b, hb, rfl⟩)
      rw [Option.some.inj hname]
  | none =>
    have hdistinct : ¬∃ a, d.RepeatsId a ∧
        e = ⟨.duplicateAction, .atAction a.id.name⟩ := by
      rintro ⟨a, ha, -⟩
      exact ha.not_nodup (firstRepeated?_nil.mp hrepeated)
    rw [or_iff_right hdistinct, and_iff_right rfl]
    simp [bind_error, hnamed]

theorem directionsFile_model (htext : d.HasTextNames) (hshort : d.IsShort) :
    d.directionsFile applicationId host = .error (.model e) ↔ d.FirstFault applicationId e := by
  have hfile (c : ClassName) (inner : ModelError) :
      (d.holder c.simple applicationId host >>= fun decl => Except.ok (DirectionsFile.mk c decl)) =
        .error (.model inner) ↔ d.holder c.simple applicationId host = .error (.model inner) := by
    simp [bind_error]
  rw [directionsFile, mapError_within_model]
  simp only [bind_error, className_model htext.1]
  constructor
  · rintro ⟨inner, ⟨hname, rfl⟩ | ⟨c, hc, hinner⟩, rfl⟩
    · exact .name hname
    · have hnamed := (exists_className htext.1).mp ⟨c, hc⟩
      rw [← bind_error, hfile, holder_model htext hshort] at hinner
      rcases hinner with ⟨a, ha, rfl⟩ | ⟨hids, a, hfirst, ha⟩
      · exact .id hnamed ha
      · obtain ⟨x, f, hargument, hf, rfl⟩ := (Action.directionsClass_model
          (htext.2 a hfirst.mem) (hshort a hfirst.mem)).mp ha
        exact .argument hnamed hids hfirst hargument hf
  · intro h
    cases h with
    | name hname => exact ⟨_, .inl ⟨hname, rfl⟩, rfl⟩
    | @id a hnamed ha =>
      obtain ⟨c, hc⟩ : ∃ c, d.className applicationId = .ok c :=
        (exists_className htext.1).mpr hnamed
      refine ⟨⟨.duplicateAction, .atAction a.id.name⟩, .inr ⟨c, hc, ?_⟩, rfl⟩
      rw [← bind_error, hfile, holder_model htext hshort]
      exact .inl ⟨a, ha, rfl⟩
    | @argument a x f hnamed hids hfirst hargument hf =>
      obtain ⟨c, hc⟩ : ∃ c, d.className applicationId = .ok c :=
        (exists_className htext.1).mpr hnamed
      refine ⟨⟨f, ⟨none, some a.id.name, some x.name⟩⟩, .inr ⟨c, hc, ?_⟩, rfl⟩
      rw [← bind_error, hfile, holder_model htext hshort]
      refine .inr ⟨hids, a, hfirst, ?_⟩
      exact (Action.directionsClass_model (htext.2 a hfirst.mem) (hshort a hfirst.mem)).mpr
        ⟨x, f, hargument, hf, rfl⟩

theorem isFaulty_iff : d.IsFaulty applicationId ↔ ∃ e, d.FirstFault applicationId e := by
  constructor
  · intro h
    by_cases hname : d.IsNameless
    · exact ⟨_, .name hname⟩
    by_cases hids : (d.actions.map (·.id.name)).Nodup
    · obtain hfaulty := (h.resolve_left hname).resolve_left (not_not_intro hids)
      obtain ⟨a, ha⟩ := exists_isFirst hfaulty
      obtain ⟨x, hx⟩ := exists_isFirst ha.holds
      obtain ⟨f, hf⟩ := hx.holds
      exact ⟨_, .argument hname hids ha hx hf⟩
    · obtain ⟨a, ha⟩ := exists_repeatsId hids
      exact ⟨_, .id hname ha⟩
  · rintro ⟨e, h⟩
    cases h with
    | name hname => exact .inl hname
    | id _ ha => exact .inr (.inl ha.not_nodup)
    | argument _ _ hfirst _ _ => exact .inr (.inr ⟨_, hfirst.mem, hfirst.holds⟩)

theorem exists_file (htext : d.HasTextNames) (hshort : d.IsShort) :
    (∃ f, d.directionsFile applicationId host = .ok f) ↔ ¬d.IsFaulty applicationId := by
  rw [exists_directionsFile htext, IsDescribed, exists_className htext.1, IsFaulty]
  have hheld : ∀ a ∈ d.actions, (∃ held, holdArguments applicationId a.args = .ok held) ↔
      ¬a.IsFaulty applicationId :=
    fun a ha => Action.exists_held (htext.2 a ha) (hshort a ha)
  simp only [not_or, not_not, not_exists, not_and]
  exact and_congr_right fun _ => and_congr_right fun _ => forall₂_congr hheld

end Destination

/-! ### Whole graphs -/

namespace NavigationGraph

variable {g : NavigationGraph}

/-- The first of the acting destinations with a property has the least position. -/
theorem isFirst_acting_iff {p : Destination → Prop} {d : Destination} :
    IsFirst p g.acting d ↔ ∃ position, g.ActsAt position d ∧ p d ∧
      ∀ earlier d', g.ActsAt earlier d' → earlier < position → ¬p d' := by
  let acting := g.placed.filter fun entry => !entry.2.actions.isEmpty
  have hacting {position : Position} {d : Destination} :
      (position, d) ∈ acting ↔ g.ActsAt position d := by
    rw [List.mem_filter, mem_placed, ActsAt, Bool.not_eq_true', List.isEmpty_eq_false_iff]
  have hsorted : acting.Pairwise fun entry other => entry.1 < other.1 :=
    (List.pairwise_map.mp g.placed_sorted).sublist List.filter_sublist
  have hdestinations : g.acting = acting.map Prod.snd := by
    rw [NavigationGraph.acting, ← g.map_snd_placed, List.filter_map]
    rfl
  rw [IsFirst, hdestinations]
  constructor
  · rintro ⟨before, after, hsplit, hbefore, hd⟩
    obtain ⟨front, rest, hentries, rfl, hrest⟩ := List.map_eq_append_iff.mp hsplit
    obtain ⟨⟨position, _⟩, back, rfl, rfl, rfl⟩ := List.map_eq_cons_iff.mp hrest
    refine ⟨position, hacting.mp (by simp [hentries]), hd, fun earlier d' hd' hlt => ?_⟩
    have hmem : (earlier, d') ∈ front := by
      have hall := hacting.mpr hd'
      rw [hentries, List.mem_append] at hall
      refine hall.resolve_right fun hback => ?_
      rw [hentries, List.pairwise_append] at hsorted
      rcases List.mem_cons.mp hback with heq | hback
      · rw [(Prod.mk.inj heq).1] at hlt
        exact List.lt_irrefl _ hlt
      · exact List.lt_asymm hlt (List.rel_of_pairwise_cons hsorted.2.1 hback)
    exact hbefore d' (List.mem_map_of_mem hmem)
  · rintro ⟨position, hactsAt, hd, hearlier⟩
    obtain ⟨front, back, hentries⟩ := List.append_of_mem (hacting.mpr hactsAt)
    refine ⟨front.map Prod.snd, back.map Prod.snd, ?_, ?_, hd⟩
    · rw [hentries, List.map_append, List.map_cons]
    · intro d' hd'
      obtain ⟨⟨earlier, _⟩, hentry, rfl⟩ := List.mem_map.mp hd'
      rw [hentries, List.pairwise_append] at hsorted
      refine hearlier earlier _ (hacting.mp ?_) (hsorted.2.2 _ hentry _ List.mem_cons_self)
      rw [hentries]
      exact List.mem_append_left _ hentry

theorem isShort_of_arguments
    (h : ∀ entry ∈ g.arguments, ∀ digits, ¬entry.2.2.Overflows digits) :
    ∀ d ∈ g.walk, d.IsShort := by
  intro d hd a ha x hx
  refine h (d, a, x) (List.mem_flatMap.mpr ⟨d, hd, List.mem_flatMap.mpr ⟨a, ha, ?_⟩⟩)
  exact List.mem_map_of_mem hx

theorem directionsFiles_model (htext : g.HasTextNames) (hshort : ∀ d ∈ g.walk, d.IsShort) :
    g.directionsFiles applicationId host = .error (.model e) ↔
      ∃ d, IsFirst (·.IsFaulty applicationId) g.acting d ∧ d.FirstFault applicationId e := by
  have hwalk : g.directionsFiles applicationId host = .error (.model e) ↔
      g.acting.mapM (·.directionsFile applicationId host) = .error (.model e) := by
    rw [directionsFiles, bind_error]
    refine or_iff_left ?_
    rintro ⟨files, -, h⟩
    split at h
    · cases h
    · cases h
  have hmem : ∀ d ∈ g.acting, d ∈ g.walk := fun d hd => List.mem_of_mem_filter hd
  have hfile : ∀ d ∈ g.acting, d.directionsFile applicationId host = .error (.model e) ↔
      d.FirstFault applicationId e :=
    fun d hd => Destination.directionsFile_model (htext d (hmem d hd)) (hshort d (hmem d hd))
  have hdone : ∀ d ∈ g.acting, (∃ f, d.directionsFile applicationId host = .ok f) ↔
      ¬d.IsFaulty applicationId :=
    fun d hd => Destination.exists_file (htext d (hmem d hd)) (hshort d (hmem d hd))
  rw [hwalk, mapM_stops, stopsAt_iff_isFirst hdone fun d hd hstop =>
    Destination.isFaulty_iff.mpr ⟨e, (hfile d hd).mp hstop⟩]
  exact exists_congr fun d => and_congr_right fun hfirst => hfile d hfirst.mem

/-- A graph whose names are text, and whose defaults are no integers too long to be read, is refused
for its model exactly when a destination with actions is faulty.  The refusal is that of the faulty
destination with the least position, and there the first fault with its place. -/
theorem directionsFiles_refused_iff (htext : g.HasTextNames)
    (hshort : ∀ entry ∈ g.arguments, ∀ digits, ¬entry.2.2.Overflows digits) :
    ((∃ e, g.directionsFiles applicationId host = .error (.model e)) ↔
      ∃ p d, g.ActsAt p d ∧ d.IsFaulty applicationId) ∧
    ∀ e, g.directionsFiles applicationId host = .error (.model e) ↔
      ∃ p d, g.ActsAt p d ∧ d.FirstFault applicationId e ∧
        ∀ earlier d', g.ActsAt earlier d' → earlier < p → ¬d'.IsFaulty applicationId := by
  have hmodel (e : ModelError) : g.directionsFiles applicationId host = .error (.model e) ↔
      ∃ d, IsFirst (·.IsFaulty applicationId) g.acting d ∧ d.FirstFault applicationId e :=
    directionsFiles_model htext (isShort_of_arguments hshort)
  refine ⟨?_, fun e => ?_⟩
  · simp only [hmodel]
    constructor
    · rintro ⟨e, d, hfirst, -⟩
      obtain ⟨p, hd, hfaulty, -⟩ := isFirst_acting_iff.mp hfirst
      exact ⟨p, d, hd, hfaulty⟩
    · rintro ⟨p, d, hd, hfaulty⟩
      have hacting : d ∈ g.acting := by
        refine List.mem_filter.mpr ⟨?_, by simpa using hd.2⟩
        rw [← g.map_snd_placed]
        exact List.mem_map.mpr ⟨(p, d), mem_placed.mpr hd.1, rfl⟩
      obtain ⟨d', hfirst⟩ := exists_isFirst ⟨d, hacting, hfaulty⟩
      obtain ⟨e, he⟩ := Destination.isFaulty_iff.mp hfirst.holds
      exact ⟨e, d', hfirst, he⟩
  · rw [hmodel]
    simp only [isFirst_acting_iff]
    constructor
    · rintro ⟨d, ⟨p, hd, -, hearlier⟩, he⟩
      exact ⟨p, d, hd, he, hearlier⟩
    · rintro ⟨p, d, hd, he, hearlier⟩
      exact ⟨d, ⟨p, hd, Destination.isFaulty_iff.mpr ⟨e, he⟩, hearlier⟩, he⟩

end NavigationGraph

end

namespace NavigationGraph

/-- A menu with a screen inside it whose default is no reference, in front of a destination with
neither a name nor an id. -/
def faultyScreens : NavigationGraph :=
  let go := Action.bare ⟨"market", "browse", by decide, by decide⟩
  let visit : Action := ⟨⟨"market", "visit", by decide, by decide⟩, none,
    [⟨.text "badge", ⟨.reference, false, []⟩, some "badge", rfl⟩], rfl⟩
  ⟨[⟨.text ".Menu", none, [go], [⟨.text ".Main", none, [visit], []⟩]⟩, ⟨.text [], none, [go], []⟩]⟩

theorem faultyScreens_hasTextNames : faultyScreens.HasTextNames := by
  have hgo : (Action.bare ⟨"market", "browse", by decide, by decide⟩).HasTextNames := nofun
  intro d hd
  rcases List.mem_cons.mp hd with rfl | hd
  · exact ⟨⟨_, rfl⟩, List.forall_mem_singleton.mpr hgo⟩
  rcases List.mem_cons.mp hd with rfl | hd
  · exact ⟨⟨_, rfl⟩, List.forall_mem_singleton.mpr (List.forall_mem_singleton.mpr ⟨_, rfl⟩)⟩
  · cases List.mem_singleton.mp hd
    exact ⟨⟨_, rfl⟩, List.forall_mem_singleton.mpr hgo⟩

/-- The menu is in order and the screen inside it comes before the nameless destination. -/
theorem faulty_badge_is_named :
    faultyScreens.HasTextNames ∧
    (∀ entry ∈ faultyScreens.arguments, ∀ digits, ¬entry.2.2.Overflows digits) ∧
    ∃ e p d, faultyScreens.directionsFiles "market" (.of "androidx.navigation" "android.os.Bundle") =
        .error (.model e) ∧
      e.location = ⟨some (.text ".Main"), some "visit", some (.text "badge")⟩ ∧
      faultyScreens.ActsAt p d ∧ d.FirstFault "market" e ∧
      ∀ earlier d', faultyScreens.ActsAt earlier d' → earlier < p → ¬d'.IsFaulty "market" := by
  have hshort : ∀ entry ∈ faultyScreens.arguments, ∀ digits, ¬entry.2.2.Overflows digits := by
    intro entry hentry digits
    cases List.mem_singleton.mp hentry
    rintro ⟨value, -, -, -, ⟨htag, -⟩ | ⟨htag, -⟩⟩
    · cases htag
    · cases htag
  have hrefused : faultyScreens.directionsFiles "market"
      (.of "androidx.navigation" "android.os.Bundle") =
        .error (.model ⟨.invalidLiteral "badge" ⟨.reference, false, []⟩,
          ⟨some (.text ".Main"), some "visit", some (.text "badge")⟩⟩) := rfl
  obtain ⟨p, d, hd, hfirst, hearlier⟩ :=
    ((directionsFiles_refused_iff faultyScreens_hasTextNames hshort).2 _).mp hrefused
  exact ⟨faultyScreens_hasTextNames, hshort, _, p, d, hrefused, rfl, hd, hfirst, hearlier⟩

end NavigationGraph
end NavDirections
