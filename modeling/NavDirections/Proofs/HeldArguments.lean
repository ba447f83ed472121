import NavDirections.Directions.Basic
import NavDirections.Proofs.Success
import Mathlib.Data.List.Basic

/-!
# What a class holds of its arguments

The fields, parameters and statements of a generated class are made from held arguments.  Here is
what these take over from the arguments of an action, and that no two of them share a name.
-/

namespace NavDirections

open Success

def assignmentText (name : Text) : Text := "this." ++ name ++ " = " ++ name

def putText (operation name : Text) : Text :=
  containerVariable ++ "." ++ operation ++ "(" ++ StringLiteral.encode name ++ ", " ++ name ++ ")"

def creationText (container : ClassName) : Text :=
  container.canonical ++ " " ++ containerVariable ++ " = new " ++ container.canonical ++ "()"

def newText (className : Text) (names : List Text) : Text :=
  "return new " ++ className ++ "(" ++ Text.joinWith ", " names ++ ")"

theorem HeldArgument.assignment_text (h : HeldArgument) :
    h.assignment.fullText = .ok (assignmentText h.name) := by
  have htext : ("this." : Text) ++ (h.name ++ (" = " ++ (h.name ++ ([] : Text)))) =
      assignmentText h.name := by
    simp [assignmentText]
  rw [← htext]
  rfl

theorem HeldArgument.put_text (h : HeldArgument) :
    (h.put containerVariable).fullText = .ok (putText h.putOperation h.name) := by
  have htext : containerVariable ++ ("." ++ (h.putOperation ++ ("(" ++
      (StringLiteral.encode h.name ++ (", " ++ (h.name ++ (")" : Text))))))) =
        putText h.putOperation h.name := by
    simp [putText]
  rw [← htext]
  rfl

theorem creation_text (container : ClassName) :
    Statement.fullText ⟨"$T $N = new $T()", [.type (.ofClass container), .text containerVariable,
      .type (.ofClass container)]⟩ = .ok (creationText container) := by
  have htext : container.canonical ++ (" " ++ (containerVariable ++ (" = new " ++
      (container.canonical ++ ("()" : Text))))) = creationText container := by
    simp [creationText]
  rw [← htext]
  rfl

theorem new_text (className : Text) (names : List Text) :
    Statement.fullText ⟨"return new $T($L)", [.type (.ofClass ⟨[], className⟩),
      .text (Text.joinWith ", " names)]⟩ = .ok (newText className names) := by
  have htext : ("return new " : Text) ++ (className ++ ("(" ++ (Text.joinWith ", " names ++
      (")" : Text)))) = newText className names := by
    simp [newText]
  rw [← htext]
  rfl

theorem fullBody_map {α : Type} {statement : α → Statement} {text : α → Text} {xs : List α}
    (h : ∀ x ∈ xs, (statement x).fullText = .ok (text x)) :
    (xs.map statement).mapM (·.fullText) = .ok (xs.map text) := by
  rw [mapM_ok, List.forall₂_map_left_iff, List.forall₂_map_right_iff, List.forall₂_same]
  exact h

namespace ArgumentType

variable {t : ArgumentType}

theorem representation_total (h : t.check = .ok ()) : ∃ type, t.representation = .ok type := by
  rw [representation, h]
  exact ⟨_, rfl⟩

theorem putOperation_total (h : t.check = .ok ()) : ∃ put, t.putOperation = .ok put := by
  rw [putOperation, h]
  exact ⟨_, rfl⟩

end ArgumentType

/-- The held argument has the name of the argument, its type and operation from the catalog, and the
literal of its default if there is one. -/
structure HeldArgument.Holds (applicationId : Text) (x : ActionArgument) (h : HeldArgument) :
    Prop where
  scalar : x.name.isScalar = true
  given : h.given = x.name
  type : x.type.representation = .ok h.type
  putOperation : x.type.putOperation = .ok h.putOperation
  initializer : x.default = none ∧ h.initializer = none ∨
    ∃ value literal, x.default = some value ∧ h.initializer = some literal ∧
      x.type.literal (.text value) applicationId = .ok literal

namespace HeldArgument.Holds

variable {applicationId : Text} {x : ActionArgument} {h : HeldArgument}

theorem name (hx : Holds applicationId x h) : h.name = x.name.plain :=
  congrArg Json.plain hx.given

theorem isRequired_eq (hx : Holds applicationId x h) : h.isRequired = !x.isOptional := by
  rcases hx.initializer with ⟨hd, hi⟩ | ⟨value, literal, hd, hi, -⟩
  · simp [isRequired, ActionArgument.isOptional, hd, hi]
  · simp [isRequired, ActionArgument.isOptional, hd, hi]

end HeldArgument.Holds

/-- The held argument has the name of the argument, and both are required or both optional. -/
structure HeldArgument.Stands (x : ActionArgument) (h : HeldArgument) : Prop where
  given : h.given = x.name
  isRequired : h.isRequired = !x.isOptional

theorem HeldArgument.Holds.stands {applicationId : Text} {x : ActionArgument} {h : HeldArgument}
    (hx : Holds applicationId x h) : Stands x h := ⟨hx.given, hx.isRequired_eq⟩

theorem ActionArgument.hold_ok {applicationId : Text} {x : ActionArgument} {h : HeldArgument} :
    x.hold applicationId = .ok h ↔ h.Holds applicationId x := by
  rw [hold, bind_ok]
  constructor
  · rintro ⟨type, htype, rest⟩
    obtain ⟨put, hput, rest⟩ := bind_ok.mp rest
    rw [mapError_ok] at htype hput
    split at rest
    · cases rest
    next hscalar =>
      replace hscalar : x.name.isScalar = true := by simpa using hscalar
      cases hd : x.default with
      | none =>
        rw [hd] at rest
        cases rest
        exact ⟨hscalar, rfl, htype, hput, .inl ⟨hd, rfl⟩⟩
      | some value =>
        rw [hd] at rest
        obtain ⟨initializer, hinit, hh⟩ := bind_ok.mp rest
        obtain ⟨literal, hliteral, rfl⟩ := map_ok.mp (mapError_ok.mp hinit)
        cases hh
        exact ⟨hscalar, rfl, htype, hput, .inr ⟨value, literal, hd, rfl, hliteral⟩⟩
  · rintro ⟨hscalar, hgiven, htype, hput, hinit⟩
    refine ⟨h.type, mapError_ok.mpr htype, bind_ok.mpr ⟨h.putOperation, mapError_ok.mpr hput, ?_⟩⟩
    rw [if_neg (by simp [hscalar])]
    have hh : h = ⟨x.name, h.type, h.putOperation, h.initializer⟩ := by rw [← hgiven]
    rcases hinit with ⟨hd, hi⟩ | ⟨value, literal, hd, hi, hliteral⟩
    · rw [hd, hh, hi]
      rfl
    · rw [hd, hh, hi]
      exact bind_ok.mpr ⟨some literal, mapError_ok.mpr (map_ok.mpr ⟨literal, hliteral, rfl⟩), rfl⟩

theorem holdArguments_ok {applicationId : Text} {args : List ActionArgument} {held : ArgumentList} :
    holdArguments applicationId args = .ok held ↔
      List.Forall₂ (fun x h => HeldArgument.Holds applicationId x h) args held := by
  rw [holdArguments, mapM_ok]
  simp only [ActionArgument.hold_ok]

theorem firstClash?_eq_none {seen names : List Json} (h : firstClash? seen names = none) :
    (∀ n ∈ names, ∀ s ∈ seen, s.sameScalar n = false) ∧
      names.Pairwise fun m n => m.sameScalar n = false := by
  induction names generalizing seen with
  | nil => exact ⟨by simp, .nil⟩
  | cons name rest ih =>
    rw [firstClash?] at h
    split at h
    · split at h
      · cases h
      next hany =>
        obtain ⟨hseen, hrest⟩ := ih h
        have hname : ∀ s ∈ seen, s.sameScalar name = false := by simpa using hany
        constructor
        · intro n hn s hs
          rcases List.mem_cons.mp hn with rfl | hn
          · exact hname s hs
          · exact hseen n hn s (List.mem_cons_of_mem name hs)
        · exact .cons (fun n hn => hseen n hn name List.mem_cons_self) hrest
    · cases h

theorem Json.eq_text {v : Json} (h : v.text?.isSome = true) : ∃ t, v = .text t := by
  cases v with
  | text t => exact ⟨t, rfl⟩
  | _ => cases h

theorem Json.isWritable_of_text {v : Json} (h : v.text?.isSome = true) : v.isWritable = true := by
  obtain ⟨t, rfl⟩ := eq_text h
  rfl

theorem Action.distinct_nil : firstClash? [] (([] : List ActionArgument).map (·.name)) = none :=
  rfl

/-- The action of an id that takes no arguments and leads nowhere. -/
def Action.bare (id : ResourceId) : Action := ⟨id, none, [], distinct_nil⟩

/-- Of the arguments that pass a test, those whose names are text have different names. -/
theorem Action.filtered_names_nodup (a : Action) {p : ActionArgument → Bool}
    (htext : ∀ x ∈ a.args, p x = true → x.name.text?.isSome = true) :
    ((a.args.filter p).map (·.name.plain)).Nodup := by
  have hdistinct := (firstClash?_eq_none a.distinct).2
  rw [List.pairwise_map] at hdistinct
  rw [List.Nodup, List.pairwise_map]
  refine (hdistinct.filter p).imp_of_mem fun {x y} hx hy hxy heq => ?_
  obtain ⟨hx, hpx⟩ := List.mem_filter.mp hx
  obtain ⟨hy, hpy⟩ := List.mem_filter.mp hy
  obtain ⟨s, hs⟩ := Json.eq_text (htext x hx hpx)
  obtain ⟨t, ht⟩ := Json.eq_text (htext y hy hpy)
  rw [hs, ht] at hxy heq
  have hst : s = t := heq
  subst hst
  simp [Json.sameScalar] at hxy

theorem Action.names_nodup (a : Action) (htext : ∀ x ∈ a.args, x.name.text?.isSome = true) :
    (a.args.map (·.name.plain)).Nodup := by
  have hall := a.filtered_names_nodup (p := fun _ => true) fun x hx _ => htext x hx
  rwa [List.filter_true] at hall

namespace HeldArgument.Holds

theorem givens_held {applicationId : Text} {args : List ActionArgument} {held : ArgumentList}
    (h : List.Forall₂ (fun x h => Holds applicationId x h) args held) :
    args.map (·.name) = held.map (·.given) := by
  induction h with
  | nil => rfl
  | cons hx _ ih => rw [List.map_cons, List.map_cons, hx.given, ih]

theorem map_plain {args : List ActionArgument} {held : ArgumentList}
    (h : args.map (·.name) = held.map (·.given)) :
    args.map (·.name.plain) = held.map (·.name) := by
  have hplain := congrArg (List.map Json.plain) h
  rwa [List.map_map, List.map_map] at hplain

theorem names_held {applicationId : Text} {args : List ActionArgument} {held : ArgumentList}
    (h : List.Forall₂ (fun x h => Holds applicationId x h) args held) :
    args.map (·.name.plain) = held.map (·.name) := map_plain (givens_held h)

/-- Tests that agree on an argument and what is held of it pick the same names. -/
theorem givens_filter {applicationId : Text} {args : List ActionArgument} {held : ArgumentList}
    {p : ActionArgument → Bool} {q : HeldArgument → Bool}
    (hpq : ∀ x h, Holds applicationId x h → p x = q h)
    (h : List.Forall₂ (fun x h => Holds applicationId x h) args held) :
    (args.filter p).map (·.name) = (held.filter q).map (·.given) := by
  induction h with
  | nil => rfl
  | @cons x k args held hx _ ih =>
    rw [List.filter_cons, List.filter_cons, hpq x k hx]
    split
    · rw [List.map_cons, List.map_cons, hx.given, ih]
    · exact ih

theorem givens_required {applicationId : Text} {args : List ActionArgument} {held : ArgumentList}
    (h : List.Forall₂ (fun x h => Holds applicationId x h) args held) :
    (args.filter (!·.isOptional)).map (·.name) = (ArgumentList.required held).map (·.given) :=
  givens_filter (fun _ _ hx => hx.isRequired_eq.symm) h

theorem givens_optional {applicationId : Text} {args : List ActionArgument} {held : ArgumentList}
    (h : List.Forall₂ (fun x h => Holds applicationId x h) args held) :
    (args.filter (·.isOptional)).map (·.name) = (ArgumentList.optional held).map (·.given) :=
  givens_filter (fun _ _ hx => by rw [hx.isRequired_eq, Bool.not_not]) h

theorem names_required {applicationId : Text} {args : List ActionArgument} {held : ArgumentList}
    (h : List.Forall₂ (fun x h => Holds applicationId x h) args held) :
    (args.filter (!·.isOptional)).map (·.name.plain) =
      (ArgumentList.required held).map (·.name) :=
  map_plain (givens_required h)

theorem names_optional {applicationId : Text} {args : List ActionArgument} {held : ArgumentList}
    (h : List.Forall₂ (fun x h => Holds applicationId x h) args held) :
    (args.filter (·.isOptional)).map (·.name.plain) =
      (ArgumentList.optional held).map (·.name) :=
  map_plain (givens_optional h)

end HeldArgument.Holds

namespace ArgumentList

variable {args : List ActionArgument} {held : ArgumentList} (p : Json → Prop)

theorem forall_given (h : List.Forall₂ HeldArgument.Stands args held) :
    (∀ k ∈ held, p k.given) ↔ ∀ x ∈ args, p x.name :=
  (forall_partners h fun x k hx => by rw [hx.given]).symm

theorem forall_required (h : List.Forall₂ HeldArgument.Stands args held) :
    (∀ k ∈ required held, p k.given) ↔ ∀ x ∈ args, x.isOptional = false → p x.name := by
  simp only [required, List.mem_filter, and_imp]
  refine (forall_partners h fun x k hx => ?_).symm
  rw [hx.given, hx.isRequired, Bool.not_eq_true']

theorem forall_optional (h : List.Forall₂ HeldArgument.Stands args held) :
    (∀ k ∈ optional held, p k.given) ↔ ∀ x ∈ args, x.isOptional = true → p x.name := by
  simp only [optional, List.mem_filter, and_imp]
  refine (forall_partners h fun x k hx => ?_).symm
  rw [hx.given, hx.isRequired, Bool.not_not]

end ArgumentList

namespace ArgumentList

variable {held : ArgumentList} {m m' : Method}

theorem constructorOf_body (held : ArgumentList) (className : Text) :
    (held.constructorOf className).fullBody =
      .ok ((required held).map fun h => assignmentText h.name) :=
  fullBody_map fun h _ => h.assignment_text

theorem setter_body (owner : ClassName) (h : HeldArgument) :
    (h.setter owner).fullBody = .ok [assignmentText h.name, "return this"] :=
  mapM_ok.mpr (.cons h.assignment_text (.cons rfl .nil))

theorem containerMethod_body (held : ArgumentList) (container : ClassName) :
    (held.containerMethod container).fullBody = .ok (creationText container ::
      held.map (fun h => putText h.putOperation h.name) ++ ["return " ++ containerVariable]) := by
  have hputs := fullBody_map fun h (_ : h ∈ held) => h.put_text
  have hcreates := fullBody_map fun c (_ : c ∈ [container]) => creation_text c
  have hbody := List.rel_append (mapM_ok.mp hcreates) (mapM_ok.mp hputs)
  exact mapM_ok.mpr (List.rel_append hbody (.cons rfl .nil))

theorem build_ok {named : List HeldArgument} {body : List Text} (hbody : m.fullBody = .ok body) :
    build named m = .ok m' ↔ (∀ h ∈ named, h.given.isWritable = true) ∧ m' = m := by
  have hchecked : (m.checked.mapError Breakdown.statement) = .ok m := by
    rw [Method.checked, hbody]
    rfl
  unfold build
  simp only [bind_ok, mapError_ok, hchecked, Except.ok.injEq,
    mapM_ok_of_iff fun (h : HeldArgument) t => Json.written_ok (v := h.given) (t := t)]
  constructor
  · rintro ⟨_, ⟨hnames, -⟩, rfl⟩
    exact ⟨hnames, rfl⟩
  · rintro ⟨hnames, rfl⟩
    exact ⟨_, ⟨hnames, rfl⟩, rfl⟩

theorem buildConstructor_ok {className : Text} :
    held.buildConstructor className = .ok m ↔
      (∀ h ∈ required held, h.given.isWritable = true) ∧ m = held.constructorOf className :=
  build_ok (held.constructorOf_body className)

theorem buildSetter_ok {owner : ClassName} {h : HeldArgument} :
    buildSetter owner h = .ok m ↔ h.given.text?.isSome = true ∧ m = h.setter owner := by
  unfold buildSetter
  split
  next hnone =>
    rw [Option.isNone_iff_eq_none] at hnone
    simp [hnone]
  next hsome =>
    have htext : h.given.text?.isSome = true := by simpa [Option.isSome_iff_ne_none] using hsome
    simp [build_ok (setter_body owner h), htext, Json.isWritable_of_text htext]

theorem buildSetters_ok {owner : ClassName} {ms : List Method} :
    held.buildSetters owner = .ok ms ↔
      (∀ h ∈ optional held, h.given.text?.isSome = true) ∧ ms = held.setters owner :=
  mapM_ok_of_iff fun _ _ => buildSetter_ok

theorem buildContainerMethod_ok {container : ClassName} :
    held.buildContainerMethod container = .ok m ↔
      (∀ h ∈ held, h.given.isWritable = true) ∧ m = held.containerMethod container :=
  build_ok (held.containerMethod_body container)

end ArgumentList

/-- The arguments of an action are held, and the names of them do not get in the way of a class. -/
structure Action.Holds (a : Action) (applicationId : Text) (held : ArgumentList) : Prop where
  arguments : List.Forall₂ (fun x h => HeldArgument.Holds applicationId x h) a.args held
  optional : ∀ x ∈ a.args, x.isOptional = true → x.name.text?.isSome = true
  writable : ∀ x ∈ a.args, x.name.isWritable = true

namespace Action

variable {a : Action} {applicationId : Text} {host : HostClasses} {held : ArgumentList}
  {decl : ClassDecl}

theorem buildClass_ok :
    a.buildClass host held = .ok decl ↔
      (∀ h ∈ ArgumentList.optional held, h.given.text?.isSome = true) ∧
        (∀ h ∈ held, h.given.isWritable = true) ∧ decl = a.classOf host held := by
  unfold buildClass
  simp only [bind_ok, ArgumentList.buildConstructor_ok, ArgumentList.buildSetters_ok,
    ArgumentList.buildContainerMethod_ok]
  constructor
  · rintro ⟨_, ⟨-, rfl⟩, _, ⟨htext, rfl⟩, _, ⟨hwritable, rfl⟩, hdecl⟩
    exact ⟨htext, hwritable, (Except.ok.inj hdecl).symm⟩
  · rintro ⟨htext, hwritable, rfl⟩
    exact ⟨_, ⟨fun h hh => hwritable h (List.mem_of_mem_filter hh), rfl⟩, _, ⟨htext, rfl⟩, _,
      ⟨hwritable, rfl⟩, rfl⟩

theorem directionsClass_ok :
    a.directionsClass applicationId host = .ok decl ↔
      ∃ held, a.Holds applicationId held ∧ decl = a.classOf host held := by
  unfold directionsClass
  simp only [mapError_ok, bind_ok, holdArguments_ok, buildClass_ok]
  refine exists_congr fun held => ?_
  constructor
  · rintro ⟨hall, htext, hwritable, rfl⟩
    have hstands := hall.imp fun x h hx => hx.stands
    exact ⟨⟨hall, (ArgumentList.forall_optional (·.text?.isSome = true) hstands).mp htext,
      (ArgumentList.forall_given (·.isWritable = true) hstands).mp hwritable⟩, rfl⟩
  · rintro ⟨⟨hall, htext, hwritable⟩, rfl⟩
    have hstands := hall.imp fun x h hx => hx.stands
    exact ⟨hall, (ArgumentList.forall_optional (·.text?.isSome = true) hstands).mpr htext,
      (ArgumentList.forall_given (·.isWritable = true) hstands).mpr hwritable, rfl⟩

/-- Arguments whose names are text make a class as soon as they are held. -/
theorem directionsClass_of_text (htext : ∀ x ∈ a.args, x.name.text?.isSome = true)
    (hheld : holdArguments applicationId a.args = .ok held) :
    a.directionsClass applicationId host = .ok (a.classOf host held) :=
  directionsClass_ok.mpr ⟨held, ⟨holdArguments_ok.mp hheld, fun x hx _ => htext x hx,
    fun x hx => Json.isWritable_of_text (htext x hx)⟩, rfl⟩

theorem name_isText (hheld : a.Holds applicationId held) (hnamed : a.hasUnnamedRequired = false) :
    ∀ x ∈ a.args, x.name.text?.isSome = true := by
  intro x hx
  by_cases ho : x.isOptional = true
  · exact hheld.optional x hx ho
  · have hall := List.any_eq_false.mp hnamed x hx
    simpa [ho, Option.isSome_iff_ne_none] using hall

theorem held_name_ne_nil (hheld : a.Holds applicationId held)
    (hnamed : a.hasUnnamedRequired = false) : ∀ h ∈ held, h.name ≠ [] := by
  intro h hh
  obtain ⟨x, hx, hxh⟩ := partner_of_mem_right hheld.arguments hh
  obtain ⟨t, hname⟩ := Json.eq_text (name_isText hheld hnamed x hx)
  have hgiven := x.name_given
  rw [hname] at hgiven
  rw [hxh.name, hname]
  intro hnil
  have ht : t = [] := hnil
  rw [ht] at hgiven
  cases hgiven

theorem optional_names_nodup (a : Action) (hheld : a.Holds applicationId held) :
    ((ArgumentList.optional held).map (·.name)).Nodup := by
  rw [← HeldArgument.Holds.names_optional hheld.arguments]
  exact a.filtered_names_nodup hheld.optional

theorem held_names_nodup (hheld : a.Holds applicationId held)
    (hnamed : a.hasUnnamedRequired = false) : (held.map (·.name)).Nodup := by
  rw [← HeldArgument.Holds.names_held hheld.arguments]
  exact a.names_nodup (name_isText hheld hnamed)

end Action

/-! ### Members -/

theorem Action.mem_methods_classOf {a : Action} {host : HostClasses} {held : ArgumentList}
    {m : Method} :
    m ∈ (a.classOf host held).methods ↔
      m = held.constructorOf (actionClassName a.id) ∨
        (∃ h ∈ ArgumentList.optional held, h.setter ⟨[], actionClassName a.id⟩ = m) ∨
        m = held.containerMethod host.container ∨ m = destinationIdMethod a.destination ∨
        m = optionsMethod host.navOptions := by
  simp only [classOf, classWith, ArgumentList.setters, List.mem_append, List.mem_cons, List.mem_map,
    List.not_mem_nil, or_false, or_assoc]

end NavDirections
