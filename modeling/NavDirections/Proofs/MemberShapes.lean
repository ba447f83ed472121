import NavDirections.Proofs.Rendering
import NavDirections.Proofs.StoredArguments

/-!
# Members of a directions class

The fields, the constructor, the setters, the container method and the factory of an action are made
one by one from the same arguments.  They agree on names, types and order.
-/

namespace NavDirections

open Success

def Field.parameter (f : Field) : Parameter := ⟨f.name, f.type⟩

/-- The field of an argument: final and without a value where the argument is required, else with
the literal of its default. -/
structure ArgumentField (applicationId : Text) (x : ActionArgument) (f : Field) : Prop where
  name : x.name = .text f.name
  type : x.type.representation = .ok f.type
  required : x.default = none → f.modifiers = [.privateAccess, .final] ∧ f.initializer = none
  optional : ∀ value, x.default = some value → f.modifiers = [.privateAccess] ∧
    ∃ literal, f.initializer = some literal ∧
      x.type.literal (.text value) applicationId = .ok literal

/-- The setter of a field in a class of the given name. -/
structure FieldSetter (className : Text) (f : Field) (m : Method) : Prop where
  name : m.name = setterName f.name
  modifiers : m.modifiers = [.publicAccess]
  parameters : m.parameters = [f.parameter]
  returns : m.returns = some (.ofClass ⟨[], className⟩)
  body : m.fullBody = .ok [assignmentText f.name, "return this"]
  isConstructor : m.isConstructor = false

/-- The line that puts an argument into the container. -/
def PutLine (x : ActionArgument) (line : Text) : Prop :=
  ∃ name operation, x.name = .text name ∧ x.type.putOperation = .ok operation ∧
    line = putText operation name

/-- The constructor of a class takes what its final fields hold, and assigns it. -/
structure AssigningConstructor (nested : ClassDecl) (m : Method) : Prop where
  name : m.name = nested.name
  parameters : m.parameters = (nested.fields.filter (·.isFinal)).map Field.parameter
  body : m.fullBody = .ok (m.parameters.map fun p => assignmentText p.name)
  isConstructor : m.isConstructor = true

/-- The method that puts the arguments of an action into a container. -/
structure PuttingMethod (a : Action) (container : ClassName) (m : Method) : Prop where
  name : m.name = ("getArguments" : Text)
  parameters : m.parameters = []
  returns : m.returns = some (.ofClass container)
  body : ∃ lines, List.Forall₂ PutLine a.args lines ∧
    m.fullBody = .ok (creationText container :: lines ++ ["return " ++ containerVariable])

/-- The factory of an action passes its parameters on to the constructor. -/
structure PassingFactory (a : Action) (nested : ClassDecl) (constructor maker : Method) : Prop where
  name : maker.name = a.id.name
  modifiers : maker.modifiers = [.publicAccess, .static]
  parameters : maker.parameters = constructor.parameters
  returns : maker.returns = some (.ofClass ⟨[], nested.name⟩)
  body : maker.fullBody = .ok [newText nested.name (constructor.parameters.map (·.name))]

/-- The members of the class of an action, which are made from its held arguments. -/
structure Action.HasMembers (a : Action) (applicationId : Text) (host : HostClasses)
    (held : ArgumentList) (nested : ClassDecl) : Prop where
  name : nested.name = actionClassName a.id
  fields : List.Forall₂ (ArgumentField applicationId) a.args nested.fields
  required : List.Forall₂ (ArgumentField applicationId) (a.args.filter (!·.isOptional))
    (nested.fields.filter (·.isFinal))
  optional : List.Forall₂ (ArgumentField applicationId) (a.args.filter (·.isOptional))
    (nested.fields.filter (!·.isFinal))
  methods : nested.methods = held.constructorOf nested.name :: held.setters ⟨[], nested.name⟩ ++
    [held.containerMethod host.container, destinationIdMethod a.destination,
      optionsMethod host.navOptions]
  constructor : AssigningConstructor nested (held.constructorOf nested.name)
  setters : List.Forall₂ (FieldSetter nested.name) (nested.fields.filter (!·.isFinal))
    (held.setters ⟨[], nested.name⟩)
  container : PuttingMethod a host.container (held.containerMethod host.container)

namespace HeldArgument

theorem isFinal_field (h : HeldArgument) : h.field.isFinal = h.isRequired := by
  unfold field
  cases h.isRequired with
  | true => rfl
  | false => rfl

theorem Holds.argumentField {applicationId : Text} {x : ActionArgument} {h : HeldArgument}
    (hx : h.Holds applicationId x) (htext : x.name.text?.isSome = true) :
    ArgumentField applicationId x h.field := by
  obtain ⟨t, ht⟩ := Json.eq_text htext
  have hname : x.name = .text h.name := by
    rw [hx.name, ht]
    rfl
  refine ⟨hname, hx.type, fun hnone => ?_, fun value hsome => ?_⟩
  · rcases hx.initializer with ⟨-, hi⟩ | ⟨value, literal, hd, -, -⟩
    · simp only [field, isRequired, hi, Option.isNone_none, if_true, and_true]
      rfl
    · rw [hnone] at hd
      cases hd
  · rcases hx.initializer with ⟨hd, -⟩ | ⟨value', literal, hd, hi, hliteral⟩
    · rw [hd] at hsome
      cases hsome
    · cases hd.symm.trans hsome
      simp only [field, isRequired, hi, Option.isNone_some, Bool.false_eq_true, if_false]
      exact ⟨rfl, literal, rfl, hliteral⟩

theorem fieldSetter (className : Text) (h : HeldArgument) :
    FieldSetter className h.field (h.setter ⟨[], className⟩) where
  name := rfl
  modifiers := rfl
  parameters := rfl
  returns := rfl
  body := ArgumentList.setter_body ⟨[], className⟩ h
  isConstructor := rfl

theorem Holds.putLine {applicationId : Text} {x : ActionArgument} {h : HeldArgument}
    (hx : h.Holds applicationId x) (htext : x.name.text?.isSome = true) :
    PutLine x (putText h.putOperation h.name) := by
  obtain ⟨t, ht⟩ := Json.eq_text htext
  refine ⟨h.name, h.putOperation, ?_, hx.putOperation, rfl⟩
  rw [hx.name, ht]
  rfl

end HeldArgument

namespace ArgumentList

theorem filter_final (held : ArgumentList) :
    held.fields.filter (·.isFinal) = (required held).map HeldArgument.field := by
  rw [fields, List.filter_map, required]
  simp only [Function.comp_def, HeldArgument.isFinal_field]

theorem filter_changing (held : ArgumentList) :
    held.fields.filter (!·.isFinal) = (optional held).map HeldArgument.field := by
  rw [fields, List.filter_map, optional]
  simp only [Function.comp_def, HeldArgument.isFinal_field]

theorem assigningConstructor {nested : ClassDecl} {held : ArgumentList}
    (hfields : nested.fields = held.fields) :
    AssigningConstructor nested (held.constructorOf nested.name) where
  name := rfl
  parameters := by
    rw [hfields, filter_final, List.map_map]
    rfl
  body := by
    rw [constructorOf_body, constructorOf, List.map_map]
    rfl
  isConstructor := rfl

theorem fieldSetters (held : ArgumentList) (className : Text) :
    List.Forall₂ (FieldSetter className) (held.fields.filter (!·.isFinal))
      (held.setters ⟨[], className⟩) := by
  rw [filter_changing, setters, List.forall₂_map_left_iff, List.forall₂_map_right_iff,
    List.forall₂_same]
  exact fun h _ => h.fieldSetter className

theorem puttingMethod {a : Action} {applicationId : Text} {held : ArgumentList}
    (hheld : List.Forall₂ (fun x h => HeldArgument.Holds applicationId x h) a.args held)
    (htext : ∀ x ∈ a.args, x.name.text?.isSome = true) (container : ClassName) :
    PuttingMethod a container (held.containerMethod container) where
  name := rfl
  parameters := rfl
  returns := rfl
  body := by
    refine ⟨held.map fun h => putText h.putOperation h.name, ?_, ?_⟩
    · rw [List.forall₂_map_right_iff]
      refine ((List.forall₂_and_left _ _).mpr ⟨htext, hheld⟩).imp fun x h hx => ?_
      exact hx.2.putLine hx.1
    · exact held.containerMethod_body container

end ArgumentList

theorem Action.hasMembers {a : Action} {applicationId : Text} {host : HostClasses}
    {held : ArgumentList} (hheld : a.Holds applicationId held)
    (hnamed : a.hasUnnamedRequired = false) :
    a.HasMembers applicationId host held (a.classOf host held) := by
  have hholds := hheld.arguments
  have htext := a.name_isText hheld hnamed
  have hfields : List.Forall₂ (ArgumentField applicationId) a.args held.fields := by
    rw [ArgumentList.fields, List.forall₂_map_right_iff]
    refine ((List.forall₂_and_left _ _).mpr ⟨htext, hholds⟩).imp fun x h hx => ?_
    exact hx.2.argumentField hx.1
  have hfinal {x : ActionArgument} {f : Field} (hx : ArgumentField applicationId x f) :
      f.isFinal = !x.isOptional := by
    unfold Field.isFinal ActionArgument.isOptional
    cases hd : x.default with
    | none =>
      rw [(hx.required hd).1]
      rfl
    | some value =>
      rw [(hx.optional value hd).1]
      rfl
  exact
    { name := rfl
      fields := hfields
      required := List.rel_filter (fun x f hx => by simp [hfinal hx]) hfields
      optional := List.rel_filter (fun x f hx => by simp [hfinal hx]) hfields
      methods := rfl
      constructor := ArgumentList.assigningConstructor rfl
      setters := held.fieldSetters (actionClassName a.id)
      container := ArgumentList.puttingMethod hholds htext host.container }

theorem factory_passes {a : Action} {host : HostClasses} {held : ArgumentList} :
    PassingFactory a (a.classOf host held) (held.constructorOf (actionClassName a.id))
      (factory a (a.classOf host held)) where
  name := rfl
  modifiers := rfl
  parameters := rfl
  returns := rfl
  body := mapM_ok.mpr (.cons (new_text _ _) .nil)

theorem Json.sameScalar_text (s t : Text) : Json.sameScalar (.text s) (.text t) = (s == t) := rfl

/-- Among arguments whose names differ, the last one of a name is the only one. -/
theorem lastNamed?_of_mem {args : ArgumentList} (htext : ∀ h ∈ args, h.given.text?.isSome = true)
    (hnames : (args.map (·.given)).Nodup) {a : HeldArgument} (ha : a ∈ args) :
    lastNamed? a.given args = some a := by
  obtain ⟨t, ht⟩ := Json.eq_text (htext a ha)
  refine find?_of_unique (List.mem_reverse.mpr ha) ?_ fun other hother hsame => ?_
  · rw [ht, Json.sameScalar_text, beq_self_eq_true]
  · rw [List.mem_reverse] at hother
    obtain ⟨u, hu⟩ := Json.eq_text (htext other hother)
    rw [ht, hu, Json.sameScalar_text, beq_iff_eq] at hsame
    exact List.inj_on_of_nodup_map hnames hother ha (by rw [ht, hu, hsame])

theorem settleNames_of_nodup {args : ArgumentList}
    (htext : ∀ h ∈ args, h.given.text?.isSome = true) (hnames : (args.map (·.given)).Nodup) :
    settleNames args = args := by
  refine (List.map_congr_left fun a ha => ?_).trans (List.map_id args)
  have htype := lastNamed?_of_mem htext hnames ha
  -- The default is looked up among the optional arguments only, whose names differ as well.
  have hdefault : (if a.isRequired then none else
      (lastNamed? a.given (ArgumentList.optional args)).bind (·.initializer)) = a.initializer := by
    cases hrequired : a.isRequired with
    | true =>
      rw [HeldArgument.isRequired, Option.isNone_iff_eq_none] at hrequired
      rw [if_pos rfl, hrequired]
    | false =>
      have hoptional : a ∈ ArgumentList.optional args :=
        List.mem_filter.mpr ⟨ha, by rw [hrequired]; rfl⟩
      have hlast : lastNamed? a.given (ArgumentList.optional args) = some a :=
        lastNamed?_of_mem (fun h hh => htext h (List.mem_of_mem_filter hh))
          (hnames.sublist (List.filter_sublist.map _)) hoptional
      rw [if_neg Bool.false_ne_true, hlast]
      rfl
  show HeldArgument.mk _ _ _ _ = a
  rw [hdefault, htype]
  rfl

/-- Nothing is settled among the arguments of an action, since no two of them share a name. -/
theorem Action.holdRepeated_eq {a : Action} {applicationId : Text} {held : ArgumentList}
    (hheld : a.Holds applicationId held)
    (hnamed : a.hasUnnamedRequired = false) :
    holdRepeated applicationId a.args = .ok held := by
  have htext := a.name_isText hheld hnamed
  have hstands := hheld.arguments.imp fun x h hx => hx.stands
  refine map_ok.mpr ⟨held, holdArguments_ok.mpr hheld.arguments, settleNames_of_nodup ?_ ?_⟩
  · exact (ArgumentList.forall_given (·.text?.isSome = true) hstands).mpr htext
  · rw [← HeldArgument.Holds.givens_held hheld.arguments]
    exact List.Nodup.of_map Json.plain (by rw [List.map_map]; exact a.names_nodup htext)

/-! ### Builders -/

/-- The type of the argument is in the catalog, its default has a literal, and its name can be told
apart from others. -/
structure ActionArgument.Resolves (applicationId : Text) (x : ActionArgument) : Prop where
  scalar : x.name.isScalar = true
  type : ∃ t, x.type.representation = .ok t
  literal : ∀ value, x.default = some value →
    ∃ text, x.type.literal (.text value) applicationId = .ok text

theorem ArgumentType.putOperation_of_representation {t : ArgumentType} {type : TypeName}
    (h : t.representation = .ok type) : ∃ operation, t.putOperation = .ok operation := by
  obtain ⟨_, hcheck, -⟩ := bind_ok.mp h
  exact putOperation_total hcheck

/-- An argument can be held exactly if it resolves: its operation has an entry wherever its type has
one. -/
theorem ActionArgument.hold_iff {applicationId : Text} {x : ActionArgument} :
    (∃ h, x.hold applicationId = .ok h) ↔ x.Resolves applicationId := by
  constructor
  · rintro ⟨h, hh⟩
    have hholds := hold_ok.mp hh
    refine ⟨hholds.scalar, ⟨h.type, hholds.type⟩, fun value hvalue => ?_⟩
    rcases hholds.initializer with ⟨hd, -⟩ | ⟨value', literal, hd, -, hliteral⟩
    · rw [hd] at hvalue
      cases hvalue
    · cases hd.symm.trans hvalue
      exact ⟨literal, hliteral⟩
  · intro hx
    obtain ⟨type, htype⟩ := hx.type
    obtain ⟨operation, hoperation⟩ := ArgumentType.putOperation_of_representation htype
    cases hd : x.default with
    | none =>
      exact ⟨⟨x.name, type, operation, none⟩,
        hold_ok.mpr ⟨hx.scalar, rfl, htype, hoperation, .inl ⟨hd, rfl⟩⟩⟩
    | some value =>
      obtain ⟨text, htext⟩ := hx.literal value hd
      exact ⟨⟨x.name, type, operation, some text⟩,
        hold_ok.mpr ⟨hx.scalar, rfl, htype, hoperation, .inr ⟨value, text, hd, rfl, htext⟩⟩⟩

theorem holdRepeated_iff {applicationId : Text} {args : List ActionArgument} :
    (∃ held, holdRepeated applicationId args = .ok held) ↔
      ∀ x ∈ args, x.Resolves applicationId := by
  simp only [holdRepeated, map_ok, holdArguments]
  constructor
  · rintro ⟨_, held, hheld, -⟩ x hx
    obtain ⟨h, -, hh⟩ := partner_of_mem_left (mapM_ok.mp hheld) hx
    exact ActionArgument.hold_iff.mp ⟨h, hh⟩
  · intro hargs
    obtain ⟨held, hheld⟩ := mapM_total fun x hx => ActionArgument.hold_iff.mpr (hargs x hx)
    exact ⟨_, held, hheld, rfl⟩

/-- Settling the names changes types and defaults, but neither the names nor which arguments are
required. -/
theorem stands_settled {args : List ActionArgument} {held : ArgumentList}
    (hscalar : ∀ h ∈ held, h.given.isScalar = true)
    (h : List.Forall₂ HeldArgument.Stands args held) :
    List.Forall₂ HeldArgument.Stands args (settleNames held) := by
  rw [settleNames, List.forall₂_map_right_iff]
  have hmem : ∀ k ∈ held, k ∈ held := fun _ hk => hk
  have hheld := ((List.forall₂_and_left _ _).mpr ⟨hmem, h.flip⟩).flip
  refine hheld.imp fun x k hx => ⟨hx.2.given, ?_⟩
  rw [← hx.2.isRequired]
  cases hrequired : k.isRequired with
  | true => rfl
  | false =>
    have hoptional : k ∈ ArgumentList.optional held :=
      List.mem_filter.mpr ⟨hx.1, by rw [hrequired]; rfl⟩
    -- The argument itself has the name, so that a last one is found.
    obtain ⟨last, hlast⟩ : ∃ last, lastNamed? k.given (ArgumentList.optional held) = some last := by
      rw [← Option.isSome_iff_exists, lastNamed?, List.find?_isSome]
      exact ⟨k, List.mem_reverse.mpr hoptional, Json.sameScalar_self (hscalar k hx.1)⟩
    have hdefault : last.isRequired = false := by
      simpa using List.of_mem_filter (List.mem_reverse.mp (List.mem_of_find?_eq_some hlast))
    simpa [HeldArgument.isRequired, hlast] using hdefault

theorem holdRepeated_stands {applicationId : Text} {args : List ActionArgument}
    {held : ArgumentList} (h : holdRepeated applicationId args = .ok held) :
    List.Forall₂ HeldArgument.Stands args held := by
  obtain ⟨single, hsingle, rfl⟩ := map_ok.mp h
  have hall := holdArguments_ok.mp hsingle
  refine stands_settled (fun k hk => ?_) (hall.imp fun x k hx => hx.stands)
  obtain ⟨x, -, hx⟩ := partner_of_mem_right hall hk
  rw [hx.given]
  exact hx.scalar

/-- The class of a destination has a nested class and a factory for each action, at the place of
the action.  The members of the nested class agree with its arguments and with each other, and the
factory with the constructor.  For any list of arguments, they can be held exactly if each of them
resolves, and once they are held a member can be built exactly if the names that it takes up can be
written; the name of a setter has to be text. -/
theorem Destination.members_agree {d : Destination} {name applicationId : Text}
    {host : HostClasses} {decl : ClassDecl} (h : d.holder name applicationId host = .ok decl) :
    decl.types.length = d.actions.length ∧ decl.methods.length = d.actions.length ∧
    (∀ (i : Nat) (a : Action), d.actions[i]? = some a → ∃ held nested maker,
      holdRepeated applicationId a.args = .ok held ∧ decl.types[i]? = some nested ∧
      decl.methods[i]? = some maker ∧ a.HasMembers applicationId host held nested ∧
      PassingFactory a nested (held.constructorOf nested.name) maker) ∧
    ∀ args : List ActionArgument,
      ((∃ held, holdRepeated applicationId args = .ok held) ↔
        ∀ x ∈ args, x.Resolves applicationId) ∧
      ∀ held, holdRepeated applicationId args = .ok held →
        (∀ className, (∃ m, held.buildConstructor className = .ok m) ↔
          ∀ x ∈ args, x.isOptional = false → x.name.isWritable = true) ∧
        (∀ owner, (∃ ms, held.buildSetters owner = .ok ms) ↔
          ∀ x ∈ args, x.isOptional = true → x.name.text?.isSome = true) ∧
        ∀ container, (∃ m, held.buildContainerMethod container = .ok m) ↔
          ∀ x ∈ args, x.name.isWritable = true := by
  have hholds := Destination.holder_ok.mp h
  have hlength := hholds.types.length_eq
  have hmethods : decl.methods = (d.actions.zip decl.types).map fun entry =>
      factory entry.1 entry.2 := congrArg ClassDecl.methods hholds.decl
  refine ⟨hlength.symm, ?_, fun i a ha => ?_, fun args => ⟨holdRepeated_iff, fun held hheld => ?_⟩⟩
  · rw [hmethods, List.length_map, List.length_zip, ← hlength, Nat.min_self]
  · obtain ⟨hi, hget⟩ := List.getElem?_eq_some_iff.mp ha
    have hnested := hholds.types.get hi (hlength ▸ hi)
    obtain ⟨held, hheld, hclass⟩ := Action.directionsClass_ok.mp hnested
    have hmem : d.actions.get ⟨i, hi⟩ = a := hget
    rw [hmem] at hheld hclass
    have hnamed := hholds.named a (List.mem_of_getElem? ha)
    have htype : decl.types[i]? = some (a.classOf host held) :=
      List.getElem?_eq_some_iff.mpr ⟨hlength ▸ hi, hclass⟩
    have hpair : (d.actions.zip decl.types)[i]? = some (a, a.classOf host held) :=
      List.getElem?_zip_eq_some.mpr ⟨ha, htype⟩
    have hmaker : decl.methods[i]? = some (factory a (a.classOf host held)) := by
      rw [hmethods, List.getElem?_map, hpair]
      rfl
    exact ⟨held, a.classOf host held, factory a (a.classOf host held),
      Action.holdRepeated_eq hheld hnamed, htype, hmaker, Action.hasMembers hheld hnamed,
      factory_passes⟩
  · have hstands := holdRepeated_stands hheld
    simp only [ArgumentList.buildConstructor_ok, ArgumentList.buildSetters_ok,
      ArgumentList.buildContainerMethod_ok, exists_and_left, exists_eq, and_true]
    exact ⟨fun _ => ArgumentList.forall_required (·.isWritable = true) hstands,
      fun _ => ArgumentList.forall_optional (·.text?.isSome = true) hstands,
      fun _ => ArgumentList.forall_given (·.isWritable = true) hstands⟩

theorem showUser_members_agree :
    ∃ decl held nested maker,
      (⟨.text "app.Home", none, [.bare ⟨"app", "back", by decide, by decide⟩, .showUser], []⟩ :
          Destination).holder "HomeDirections" "com.app"
            (.of "androidx.navigation" "android.os.Bundle") = .ok decl ∧
      decl.types[1]? = some nested ∧ decl.methods[1]? = some maker ∧
      Action.showUser.HasMembers "com.app" (.of "androidx.navigation" "android.os.Bundle") held
        nested ∧
      PassingFactory .showUser nested (held.constructorOf nested.name) maker := by
  obtain ⟨decl, hdecl⟩ : ∃ decl,
      (⟨.text "app.Home", none, [.bare ⟨"app", "back", by decide, by decide⟩, .showUser], []⟩ :
        Destination).holder "HomeDirections" "com.app"
          (.of "androidx.navigation" "android.os.Bundle") = .ok decl := ⟨_, rfl⟩
  obtain ⟨-, -, hmembers, -⟩ := Destination.members_agree hdecl
  obtain ⟨held, nested, maker, -, htype, hmaker, hshape, hpasses⟩ := hmembers 1 .showUser rfl
  exact ⟨decl, held, nested, maker, hdecl, htype, hmaker, hshape, hpasses⟩

/-- An optional argument with a number for its name is held, and then its setter cannot be built. -/
theorem numbered_argument_has_no_setter :
    ∃ held, holdRepeated [] [⟨.int 5, ⟨.integer, false, []⟩, some "1", rfl⟩] = .ok held ∧
      held.buildSetters ⟨[], "Pick"⟩ = .error (.kind .operand) := ⟨_, rfl, rfl⟩

end NavDirections
