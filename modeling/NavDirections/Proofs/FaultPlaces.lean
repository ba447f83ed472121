import NavDirections.Proofs.DocumentFaults

/-!
# Where the faults of a document lie

The place of a fault in a document: the destination objects around it, the action and the argument.
A report takes over the action and the argument.  As its destination it names the nearest one
around the fault that has a label, which is the innermost only if that one has a label.
-/

namespace NavDirections.Document

open Success Failure

/-- Where a fault lies: the labels of the destination objects around it from the innermost on, the
action once its id is known, and the argument if it has a name. -/
structure FaultPlace where
  enclosing : List (Option Json)
  action : Option Text
  argument : Option Json

namespace FaultPlace

def outside : FaultPlace := ⟨[], none, none⟩

/-- The same place seen from a destination around it. -/
def inside (p : FaultPlace) (label : Option Json) : FaultPlace :=
  { p with enclosing := p.enclosing ++ [label] }

/-- The label of the innermost destination object. -/
def innermost (p : FaultPlace) : Option Json := p.enclosing.head?.join

/-- The nearest label with the action and the argument. -/
def location (p : FaultPlace) : Location :=
  ⟨p.enclosing.findSome? fun label => label, p.action, p.argument⟩

theorem location_inside (p : FaultPlace) (label : Option Json) :
    (p.inside label).location = p.location.within ⟨label, none, none⟩ := by
  simp [location, inside, Location.within, List.findSome?_append]

/-- The nearest label is the innermost one, unless that is missing and another is there. -/
theorem destination_eq_innermost_iff (p : FaultPlace) :
    p.location.destination = p.innermost ↔
      p.innermost.isSome = true ∨ ∀ label ∈ p.enclosing, label = none := by
  obtain ⟨enclosing, action, argument⟩ := p
  cases enclosing with
  | nil => simp [location, innermost]
  | cons first rest =>
    cases first with
    | some label => simp [location, innermost]
    | none => simp [location, innermost]

end FaultPlace

def givenName (fields : List (Text × Json)) : Option Json :=
  (Json.find? "name" fields).filter Json.isGiven

/-- The label of a destination object: its name, else its id. -/
def labelIn (fields : List (Text × Json)) (id : Option ResourceId) : Option Json :=
  (givenName fields).or (id.map fun id => .text id.describe)

inductive FaultyArgument : Json → ModelFault → Prop
  | kind {v : Json} (h : ∀ fields, v ≠ .object fields) :
      FaultyArgument v (.notAnObject .argument v)
  | untyped {fields : List (Text × Json)} (h : Json.find? "type" fields = none) :
      FaultyArgument (.object fields) (.missingEntry .argument "type")
  | type {fields : List (Text × Json)} {spelling : Json} {f : ModelFault}
      (hspelling : Json.find? "type" fields = some spelling)
      (h : typeOf spelling fields = .error (.model f)) : FaultyArgument (.object fields) f
  | default {fields : List (Text × Json)} {spelling : Json} {type : ArgumentType} {f : ModelFault}
      (hspelling : Json.find? "type" fields = some spelling)
      (htype : typeOf spelling fields = .ok type) (h : defaultOf fields = .error (.model f)) :
      FaultyArgument (.object fields) f
  | name {fields : List (Text × Json)} {spelling : Json} {type : ArgumentType}
      {default : Option Text} (hspelling : Json.find? "type" fields = some spelling)
      (htype : typeOf spelling fields = .ok type) (hdefault : defaultOf fields = .ok default)
      (h : givenName fields = none) : FaultyArgument (.object fields) .emptyArgumentName

def argumentName : Json → Option Json
  | .object fields => givenName fields
  | _ => none

/-- What is wrong with an action, its id name once that is known, and the name of the argument. -/
inductive FaultyAction (applicationId : Json) :
    Json → ModelFault → Option Text → Option Json → Prop
  | kind {v : Json} (h : ∀ fields, v ≠ .object fields) :
      FaultyAction applicationId v (.notAnObject .action v) none none
  | id {fields : List (Text × Json)} {f : ModelFault}
      (h : idOf .actionId applicationId (Json.find? "id" fields) = .error (.model f)) :
      FaultyAction applicationId (.object fields) f none none
  | nameless {fields : List (Text × Json)}
      (h : idOf .actionId applicationId (Json.find? "id" fields) = .ok none) :
      FaultyAction applicationId (.object fields) (.missingEntry .action "id") none none
  | argument {fields : List (Text × Json)} {id : ResourceId} {v : Json} {f : ModelFault}
      (hid : idOf .actionId applicationId (Json.find? "id" fields) = .ok (some id))
      (hbefore : Reaches argumentOf "arguments" fields v) (h : FaultyArgument v f) :
      FaultyAction applicationId (.object fields) f (some id.name) (argumentName v)
  | destination {fields : List (Text × Json)} {id : ResourceId} {f : ModelFault}
      (hid : idOf .actionId applicationId (Json.find? "id" fields) = .ok (some id))
      (hargs : ReadsAll argumentOf "arguments" fields)
      (h : idOf .actionDestination applicationId (Json.find? "destination" fields) =
        .error (.model f)) :
      FaultyAction applicationId (.object fields) f (some id.name) none
  | duplicate {fields : List (Text × Json)} {id : ResourceId} {items : List Json}
      {args : List ActionArgument} {destination : Option ResourceId} {before after : List Json}
      {name : Json}
      (hid : idOf .actionId applicationId (Json.find? "id" fields) = .ok (some id))
      (hitems : itemsOf "arguments" fields = .ok items)
      (hargs : items.mapM argumentOf = .ok args)
      (hdestination : idOf .actionDestination applicationId (Json.find? "destination" fields) =
        .ok destination)
      (hnames : args.map (·.name) = before ++ name :: after)
      (hbefore : firstClash? [] before = none) (hscalar : name.isScalar = true)
      (hwritable : name.isWritable = true) (h : before.any (·.sameScalar name) = true) :
      FaultyAction applicationId (.object fields) (.duplicateArgument name) (some id.name)
        (some name)

/-- What is wrong with a destination or with what it holds, and the place of that. -/
inductive FaultyDestination (applicationId : Json) : Json → ModelFault → FaultPlace → Prop
  | kind {v : Json} (h : ∀ fields, v ≠ .object fields) :
      FaultyDestination applicationId v (.notAnObject .destination v) .outside
  | id {fields : List (Text × Json)} {f : ModelFault}
      (h : idOf .destinationId applicationId (Json.find? "id" fields) = .error (.model f)) :
      FaultyDestination applicationId (.object fields) f ⟨[givenName fields], none, none⟩
  | action {fields : List (Text × Json)} {id : Option ResourceId} {v : Json} {f : ModelFault}
      {action : Option Text} {argument : Option Json}
      (hid : idOf .destinationId applicationId (Json.find? "id" fields) = .ok id)
      (hbefore : Reaches (actionOf applicationId) "actions" fields v)
      (h : FaultyAction applicationId v f action argument) :
      FaultyDestination applicationId (.object fields) f ⟨[labelIn fields id], action, argument⟩
  | nested {fields : List (Text × Json)} {id : Option ResourceId} {v : Json} {f : ModelFault}
      {place : FaultPlace}
      (hid : idOf .destinationId applicationId (Json.find? "id" fields) = .ok id)
      (hactions : ReadsAll (actionOf applicationId) "actions" fields)
      (hbefore : Reaches (destinationOf applicationId) "nested" fields v)
      (h : FaultyDestination applicationId v f place) :
      FaultyDestination applicationId (.object fields) f (place.inside (labelIn fields id))

/-- What is wrong with a document, and the place of that. -/
inductive FaultyDocument (applicationId : Json) (document : Json) : ModelFault → FaultPlace → Prop
  | list {f : ModelFault} (h : destinationList document = .error f) :
      FaultyDocument applicationId document f .outside
  | destination {before after : List Json} {v : Json} {done : List Destination} {f : ModelFault}
      {place : FaultPlace} (hlist : destinationList document = .ok (before ++ v :: after))
      (hbefore : before.mapM (destinationOf applicationId) = .ok done)
      (h : FaultyDestination applicationId v f place) :
      FaultyDocument applicationId document f place

theorem mapError_unlocated {α : Type} {r : Except PartFault α} {e : ModelError} :
    r.mapError PartFault.unlocated = .error (.model e) ↔
      ∃ f, r = .error (.model f) ∧ e = f.unlocated := by
  rw [mapError_error]
  constructor
  · rintro ⟨f, hf, heq⟩
    cases f with
    | model f => exact ⟨f, hf, (GraphFault.model.inj heq).symm⟩
    | kind k => cases heq
  · rintro ⟨f, hf, rfl⟩
    exact ⟨.model f, hf, rfl⟩

theorem mapError_model {α ε : Type} {r : Except ε α} {located : ε → ModelError} {e : ModelError} :
    r.mapError (fun f => GraphFault.model (located f)) = .error (.model e) ↔
      ∃ f, r = .error f ∧ e = located f := by
  rw [mapError_error]
  refine exists_congr fun f => and_congr_right fun _ => ?_
  rw [GraphFault.model.injEq]
  exact eq_comm

theorem fieldsOf_error {part : DocumentPart} {v : Json} {f : ModelFault} :
    fieldsOf part v = .error f ↔ (∀ fields, v ≠ .object fields) ∧ f = .notAnObject part v := by
  cases v <;> simp [fieldsOf, eq_comm]

theorem located_name (fields : List (Text × Json)) :
    located .atArgument ((Json.find? "name" fields).getD (.text [])) =
      ⟨none, none, givenName fields⟩ := by
  unfold located givenName
  cases Json.find? "name" fields with
  | none => rfl
  | some name =>
    cases hgiven : name.isGiven with
    | true => simp [Option.filter, hgiven, Location.atArgument]
    | false => simp [Option.filter, hgiven, Location.unknown]

theorem isGiven_name_eq_false (fields : List (Text × Json)) :
    ((Json.find? "name" fields).getD (.text [])).isGiven = false ↔ givenName fields = none := by
  unfold givenName
  cases Json.find? "name" fields with
  | none => simp [Json.isGiven]
  | some name => simp [Option.filter_eq_none_iff]

/-- What follows the name of an argument: its type and its default. -/
def argumentRest (fields : List (Text × Json)) : Except GraphFault ActionArgument :=
  match Json.find? "type" fields with
  | none => .error (.model (ModelFault.unlocated (.missingEntry .argument "type")))
  | some spelling => do
    let type ← (typeOf spelling fields).mapError PartFault.unlocated
    let default ← (defaultOf fields).mapError PartFault.unlocated
    ActionArgument.make ((Json.find? "name" fields).getD (.text [])) type (default.map .text)

theorem argumentOf_object (fields : List (Text × Json)) :
    argumentOf (.object fields) =
      (argumentRest fields).mapError (GraphFault.within ⟨none, none, givenName fields⟩) := by
  rw [← located_name]
  rfl

theorem makeArgument_model {name : Json} {type : ArgumentType} {default : Option Text}
    {e : ModelError} :
    ActionArgument.make name type (default.map .text) = .error (.model e) ↔
      name.isGiven = false ∧ e = ModelFault.unlocated .emptyArgumentName := by
  unfold ActionArgument.make
  split
  next hgiven => cases default <;> simp [hgiven]
  next hgiven => simp [hgiven, eq_comm]

theorem argumentRest_model {fields : List (Text × Json)} {e : ModelError} :
    argumentRest fields = .error (.model e) ↔
      ∃ f, FaultyArgument (.object fields) f ∧ e = f.unlocated := by
  unfold argumentRest
  constructor
  · intro h
    split at h
    next huntyped =>
      cases h
      exact ⟨_, .untyped huntyped, rfl⟩
    next spelling hspelling =>
      rcases bind_error.mp h with h | ⟨type, htype, h⟩
      · obtain ⟨f, hf, rfl⟩ := mapError_unlocated.mp h
        exact ⟨f, .type hspelling hf, rfl⟩
      replace htype := mapError_ok.mp htype
      rcases bind_error.mp h with h | ⟨default, hdefault, h⟩
      · obtain ⟨f, hf, rfl⟩ := mapError_unlocated.mp h
        exact ⟨f, .default hspelling htype hf, rfl⟩
      obtain ⟨hname, rfl⟩ := makeArgument_model.mp h
      have hgiven := (isGiven_name_eq_false fields).mp hname
      exact ⟨_, .name hspelling htype (mapError_ok.mp hdefault) hgiven, rfl⟩
  · rintro ⟨f, hfault, rfl⟩
    cases hfault with
    | kind h => exact absurd rfl (h fields)
    | untyped huntyped => rw [huntyped]
    | type hspelling hf =>
      rw [hspelling]
      exact bind_error.mpr (.inl (mapError_unlocated.mpr ⟨f, hf, rfl⟩))
    | default hspelling htype hf =>
      rw [hspelling]
      refine bind_error.mpr (.inr ⟨_, mapError_ok.mpr htype, bind_error.mpr (.inl ?_)⟩)
      exact mapError_unlocated.mpr ⟨f, hf, rfl⟩
    | name hspelling htype hdefault hgiven =>
      have hname := (isGiven_name_eq_false fields).mpr hgiven
      rw [hspelling]
      refine bind_error.mpr (.inr ⟨_, mapError_ok.mpr htype, ?_⟩)
      refine bind_error.mpr (.inr ⟨_, mapError_ok.mpr hdefault, ?_⟩)
      exact makeArgument_model.mpr ⟨hname, rfl⟩

theorem readAll_model {α : Type} {read : Json → Except GraphFault α} {key : Text}
    {fields : List (Text × Json)} {e : ModelError} :
    (itemsOf key fields >>= fun items => items.mapM read) = .error (.model e) ↔
      ∃ v, Reaches read key fields v ∧ read v = .error (.model e) := by
  rw [readAll_error]
  exact or_iff_right fun h => nomatch h.2

/-- Different ways of cutting a list where reading stops cut it in front of the same item. -/
theorem stop_unique {α : Type} {read : Json → Except GraphFault α}
    {before before' after after' : List Json} {v w : Json} {done done' : List α} {e e' : GraphFault}
    (hlist : before ++ v :: after = before' ++ w :: after')
    (hbefore : before.mapM read = .ok done) (hv : read v = .error e)
    (hbefore' : before'.mapM read = .ok done') (hw : read w = .error e') : v = w := by
  have hread {items : List Json} {done : List α} {item : Json} {e : GraphFault}
      (hdone : items.mapM read = .ok done) (hitem : read item = .error e) : item ∉ items := by
    intro hmem
    obtain ⟨a, -, ha⟩ := partner_of_mem_left (mapM_ok.mp hdone) hmem
    cases ha.symm.trans hitem
  rcases List.append_eq_append_iff.mp hlist with ⟨between, rfl, hrest⟩ | ⟨between, rfl, hrest⟩
  · cases between with
    | nil => exact (List.cons.inj hrest).1
    | cons item between =>
      obtain ⟨rfl, -⟩ := List.cons.inj hrest
      exact absurd (by simp) (hread hbefore' hv)
  · cases between with
    | nil => exact (List.cons.inj hrest).1.symm
    | cons item between =>
      obtain ⟨rfl, -⟩ := List.cons.inj hrest
      exact absurd (by simp) (hread hbefore hw)

theorem Reaches.unique {α : Type} {read : Json → Except GraphFault α} {key : Text}
    {fields : List (Text × Json)} {v w : Json} {e e' : GraphFault}
    (hv : Reaches read key fields v) (hreadv : read v = .error e)
    (hw : Reaches read key fields w) (hreadw : read w = .error e') : v = w := by
  obtain ⟨before, after, done, hitems, hbefore⟩ := hv
  obtain ⟨before', after', done', hitems', hbefore'⟩ := hw
  exact stop_unique (Except.ok.inj (hitems.symm.trans hitems')) hbefore hreadv hbefore' hreadw

theorem Reaches.not_readsAll {α : Type} {read : Json → Except GraphFault α} {key : Text}
    {fields : List (Text × Json)} {v : Json} {e : GraphFault}
    (hv : Reaches read key fields v) (hread : read v = .error e) : ¬ReadsAll read key fields := by
  obtain ⟨before, after, done, hitems, -⟩ := hv
  rintro ⟨items, all, hitems', hall⟩
  cases hitems.symm.trans hitems'
  obtain ⟨a, -, ha⟩ := partner_of_mem_left (mapM_ok.mp hall) (x := v) (by simp)
  cases ha.symm.trans hread

theorem mapError_within_model {α : Type} {r : Except GraphFault α} {outer : Location}
    {e : ModelError} :
    r.mapError (GraphFault.within outer) = .error (.model e) ↔
      ∃ inner, r = .error (.model inner) ∧ e = inner.within outer := by
  rw [mapError_error]
  constructor
  · rintro ⟨f, hf, hwithin⟩
    cases f with
    | model inner => exact ⟨inner, hf, (GraphFault.model.inj hwithin).symm⟩
    | kind k => cases hwithin
  · rintro ⟨inner, hinner, rfl⟩
    exact ⟨.model inner, hinner, rfl⟩

theorem argumentOf_model {v : Json} {e : ModelError} :
    argumentOf v = .error (.model e) ↔
      ∃ f, FaultyArgument v f ∧ e = ⟨f, none, none, argumentName v⟩ := by
  by_cases hobject : ∃ fields, v = .object fields
  · obtain ⟨fields, rfl⟩ := hobject
    rw [argumentOf_object, mapError_within_model]
    constructor
    · rintro ⟨inner, hinner, rfl⟩
      obtain ⟨f, hf, rfl⟩ := argumentRest_model.mp hinner
      exact ⟨f, hf, rfl⟩
    · rintro ⟨f, hf, rfl⟩
      exact ⟨_, argumentRest_model.mpr ⟨f, hf, rfl⟩, rfl⟩
  · have hkind := not_exists.mp hobject
    have hread : argumentOf v = .error (.model (ModelFault.unlocated (.notAnObject .argument v))) :=
      bind_error.mpr (.inl (mapError_model.mpr ⟨_, fieldsOf_error.mpr ⟨hkind, rfl⟩, rfl⟩))
    have hname : argumentName v = none := by
      cases v with
      | object fields => exact absurd rfl (hkind fields)
      | null | bool _ | int _ | float _ | text _ | array _ => rfl
    rw [hread, hname, Except.error.injEq, GraphFault.model.injEq]
    constructor
    · rintro rfl
      exact ⟨_, .kind hkind, rfl⟩
    · rintro ⟨f, hf, rfl⟩
      cases hf with
      | kind _ => rfl
      | _ => exact absurd rfl (hkind _)

/-! ### Actions -/

variable {applicationId : Json}

/-- The walk over names stops at one that an earlier one equals, if those in front of it are
different scalars. -/
theorem firstClash?_eq_repeated {seen names : List Json} {name : Json} :
    firstClash? seen names = some (.repeated name) ↔
      ∃ before after, names = before ++ name :: after ∧ firstClash? seen before = none ∧
        name.isScalar = true ∧ (before ++ seen).any (·.sameScalar name) = true := by
  constructor
  · intro h
    induction names generalizing seen with
    | nil => cases h
    | cons first rest ih =>
      rw [firstClash?] at h
      split at h
      next hscalar =>
        split at h
        next hseen =>
          cases h
          exact ⟨[], rest, rfl, rfl, hscalar, hseen⟩
        next hseen =>
          obtain ⟨before, after, rfl, hbefore, hname, hany⟩ := ih h
          refine ⟨first :: before, after, rfl,
            firstClash?_cons_eq_none.mpr ⟨hscalar, hseen, hbefore⟩, hname, ?_⟩
          simpa [or_left_comm] using hany
      next => cases h
  · rintro ⟨before, after, rfl, hbefore, hname, hany⟩
    induction before generalizing seen with
    | nil =>
      rw [List.nil_append] at hany
      rw [List.nil_append, firstClash?, if_pos hname, if_pos hany]
    | cons first before ih =>
      obtain ⟨hscalar, hseen, hrest⟩ := firstClash?_cons_eq_none.mp hbefore
      rw [List.cons_append, firstClash?, if_pos hscalar, if_neg hseen]
      exact ih hrest (by simpa [or_left_comm] using hany)

theorem makeAction_model {id : ResourceId} {destination : Option ResourceId}
    {args : List ActionArgument} {e : ModelError} :
    Action.make id destination args = .error (.model e) ↔
      ∃ name, firstClash? [] (args.map (·.name)) = some (.repeated name) ∧
        name.isWritable = true ∧
        e = ⟨.duplicateArgument name, none, some id.name, some name⟩ := by
  unfold Action.make
  split
  next h => simp [h]
  next name h =>
    cases hwritable : name.isWritable with
    | false => simp [h, PartFault.refuse, ModelFault.isWritable, hwritable, PartFault.located]
    | true =>
      simp only [h, PartFault.refuse, ModelFault.isWritable, hwritable, if_true, PartFault.located,
        Option.some.injEq, NameClash.repeated.injEq, Except.error.injEq, GraphFault.model.injEq]
      constructor
      · rintro rfl
        exact ⟨name, rfl, hwritable, rfl⟩
      · rintro ⟨_, rfl, -, rfl⟩
        rfl
  next h => simp [h]

theorem within_atAction (f : ModelFault) (id : Text) (name : Option Json) :
    (⟨f, none, none, name⟩ : ModelError).within (.atAction id) = ⟨f, none, some id, name⟩ := by
  simp [ModelError.within, Location.within, Location.atAction]

theorem actionRest_model {fields : List (Text × Json)} {id : ResourceId} {e : ModelError}
    (hid : idOf .actionId applicationId (Json.find? "id" fields) = .ok (some id)) :
    (∃ inner, actionRest applicationId fields id = .error (.model inner) ∧
        e = inner.within (.atAction id.name)) ↔
      ∃ f name, FaultyAction applicationId (.object fields) f (some id.name) name ∧
        e = ⟨f, none, some id.name, name⟩ := by
  constructor
  · rintro ⟨inner, h, rfl⟩
    rcases bind_error.mp h with h | ⟨args, hargs, h⟩
    · obtain ⟨v, hbefore, hv⟩ := readAll_model.mp h
      obtain ⟨f, hf, rfl⟩ := argumentOf_model.mp hv
      exact ⟨f, argumentName v, .argument hid hbefore hf, within_atAction f id.name _⟩
    rcases bind_error.mp h with h | ⟨destination, hdestination, h⟩
    · obtain ⟨f, hf, rfl⟩ := mapError_unlocated.mp h
      exact ⟨f, none, .destination hid (readAll_ok.mp ⟨args, hargs⟩) hf, rfl⟩
    obtain ⟨name, hclash, hwritable, rfl⟩ := makeAction_model.mp h
    obtain ⟨items, hitems, hargs⟩ := bind_ok.mp hargs
    obtain ⟨before, after, hnames, hbefore, hscalar, hany⟩ := firstClash?_eq_repeated.mp hclash
    rw [List.append_nil] at hany
    exact ⟨_, some name, .duplicate hid hitems hargs (mapError_ok.mp hdestination) hnames hbefore
      hscalar hwritable hany, rfl⟩
  · rintro ⟨f, name, hfault, rfl⟩
    generalize haction : some id.name = action at hfault
    cases hfault with
    | kind | id | nameless => cases haction
    | argument hid' hbefore hf =>
      cases hid.symm.trans hid'
      have hv := argumentOf_model.mpr ⟨f, hf, rfl⟩
      exact ⟨_, bind_error.mpr (.inl (readAll_model.mpr ⟨_, hbefore, hv⟩)),
        (within_atAction f id.name _).symm⟩
    | destination hid' hargs hf =>
      cases hid.symm.trans hid'
      obtain ⟨args, hargs⟩ := readAll_ok.mpr hargs
      refine ⟨f.unlocated, bind_error.mpr (.inr ⟨args, hargs, bind_error.mpr (.inl ?_)⟩), rfl⟩
      exact mapError_unlocated.mpr ⟨f, hf, rfl⟩
    | @duplicate _ _ items args destination before after name hid' hitems hargs hdestination hnames
        hbefore hscalar hwritable hany =>
      cases hid.symm.trans hid'
      have hclash : firstClash? [] (args.map (·.name)) = some (.repeated name) :=
        firstClash?_eq_repeated.mpr
          ⟨before, after, hnames, hbefore, hscalar, (List.append_nil before).symm ▸ hany⟩
      have hmake : Action.make id destination args =
          .error (.model ⟨.duplicateArgument name, none, some id.name, some name⟩) :=
        makeAction_model.mpr ⟨name, hclash, hwritable, rfl⟩
      refine ⟨⟨.duplicateArgument name, none, some id.name, some name⟩, ?_, rfl⟩
      refine bind_error.mpr (.inr ⟨args, bind_ok.mpr ⟨items, hitems, hargs⟩, ?_⟩)
      exact bind_error.mpr (.inr ⟨destination, mapError_ok.mpr hdestination, hmake⟩)

theorem actionOf_model {v : Json} {e : ModelError} :
    actionOf applicationId v = .error (.model e) ↔
      ∃ f action name, FaultyAction applicationId v f action name ∧
        e = ⟨f, none, action, name⟩ := by
  constructor
  · intro hread
    rcases bind_error.mp hread with h | ⟨fields, hfields, h⟩
    · obtain ⟨f, hf, rfl⟩ := mapError_model.mp h
      obtain ⟨hkind, rfl⟩ := fieldsOf_error.mp hf
      exact ⟨_, none, none, .kind hkind, rfl⟩
    obtain rfl := fieldsOf_ok.mp (mapError_ok.mp hfields)
    rcases bind_error.mp h with h | ⟨found, hid, h⟩
    · obtain ⟨f, hf, rfl⟩ := mapError_unlocated.mp h
      exact ⟨f, none, none, .id hf, rfl⟩
    replace hid := mapError_ok.mp hid
    cases found with
    | none =>
      cases h
      exact ⟨_, none, none, .nameless hid, rfl⟩
    | some id =>
      rw [actionOf_object hid] at hread
      obtain ⟨f, name, hf, rfl⟩ := (actionRest_model hid).mp (mapError_within_model.mp hread)
      exact ⟨f, some id.name, name, hf, rfl⟩
  · rintro ⟨f, action, name, hfault, rfl⟩
    have hrest {fields : List (Text × Json)} {id : ResourceId}
        (hid : idOf .actionId applicationId (Json.find? "id" fields) = .ok (some id))
        (h : FaultyAction applicationId (.object fields) f (some id.name) name) :
        actionOf applicationId (.object fields) =
          .error (.model ⟨f, none, some id.name, name⟩) := by
      rw [actionOf_object hid, mapError_within_model]
      exact (actionRest_model hid).mpr ⟨f, name, h, rfl⟩
    cases hfault with
    | kind hkind =>
      exact bind_error.mpr (.inl (mapError_model.mpr ⟨_, fieldsOf_error.mpr ⟨hkind, rfl⟩, rfl⟩))
    | id hf =>
      refine bind_error.mpr (.inr ⟨_, rfl, bind_error.mpr (.inl ?_)⟩)
      exact mapError_unlocated.mpr ⟨f, hf, rfl⟩
    | nameless hid =>
      exact bind_error.mpr (.inr ⟨_, rfl, bind_error.mpr (.inr ⟨none, mapError_ok.mpr hid, rfl⟩)⟩)
    | argument hid hbefore hf => exact hrest hid (.argument hid hbefore hf)
    | destination hid hargs hf => exact hrest hid (.destination hid hargs hf)
    | duplicate hid hitems hargs hdestination hnames hbefore hscalar hwritable hany =>
      exact hrest hid
        (.duplicate hid hitems hargs hdestination hnames hbefore hscalar hwritable hany)

/-! ### Destinations -/

theorem isGiven_of_givenName {fields : List (Text × Json)} {name : Json}
    (h : givenName fields = some name) : name.isGiven = true := (Option.filter_eq_some_iff.mp h).2

theorem located_givenName (fields : List (Text × Json)) :
    located .atDestination ((givenName fields).getD (.text [])) =
      ⟨givenName fields, none, none⟩ := by
  cases hname : givenName fields with
  | none => rfl
  | some name => simp [located, isGiven_of_givenName hname, Location.atDestination]

theorem labelOf_givenName (fields : List (Text × Json)) (id : Option ResourceId) :
    labelOf ((givenName fields).getD (.text [])) id = ⟨labelIn fields id, none, none⟩ := by
  unfold labelOf labelIn
  cases hname : givenName fields with
  | none => cases id <;> rfl
  | some name => simp [isGiven_of_givenName hname, Location.atDestination]

theorem givenName_getD (fields : List (Text × Json)) :
    (match Json.find? "name" fields with
      | some v => if v.isGiven then v else .text []
      | none => .text []) = (givenName fields).getD (.text []) := by
  unfold givenName
  cases Json.find? "name" fields with
  | none => rfl
  | some v => cases hgiven : v.isGiven <;> simp [Option.filter, hgiven]

theorem headOf_of_id {fields : List (Text × Json)} {id : Option ResourceId}
    (hid : idOf .destinationId applicationId (Json.find? "id" fields) = .ok id) :
    headOf applicationId fields = .ok ⟨(givenName fields).getD (.text []), id⟩ := by
  simp only [headOf, hid]
  exact congrArg (fun name => Except.ok (DestinationHead.mk name id)) (givenName_getD fields)

theorem headOf_of_faulty_id {fields : List (Text × Json)} {f : PartFault}
    (hid : idOf .destinationId applicationId (Json.find? "id" fields) = .error f) :
    headOf applicationId fields = .error (f.located ⟨givenName fields, none, none⟩) := by
  simp only [headOf, hid]
  have hname := congrArg (located .atDestination) (givenName_getD fields)
  exact congrArg (fun l => Except.error (f.located l)) (hname.trans (located_givenName fields))

/-- What stops the reading of a destination is its own id, an action or a nested destination, and
the label fills in what is open in a report from below. -/
theorem destinationOf_object_model {fields : List (Text × Json)} {e : ModelError} :
    destinationOf applicationId (.object fields) = .error (.model e) ↔
      (∃ f, idOf .destinationId applicationId (Json.find? "id" fields) = .error (.model f) ∧
          e = ⟨f, givenName fields, none, none⟩) ∨
        ∃ id, idOf .destinationId applicationId (Json.find? "id" fields) = .ok id ∧ ∃ inner,
          ((∃ v, Reaches (actionOf applicationId) "actions" fields v ∧
              actionOf applicationId v = .error (.model inner)) ∨
            ReadsAll (actionOf applicationId) "actions" fields ∧
              ∃ v, Reaches (destinationOf applicationId) "nested" fields v ∧
                destinationOf applicationId v = .error (.model inner)) ∧
          e = inner.within ⟨labelIn fields id, none, none⟩ := by
  rw [destinationOf, bind_error]
  cases hid : idOf .destinationId applicationId (Json.find? "id" fields) with
  | error f => cases f <;> simp [headOf_of_faulty_id hid, PartFault.located, eq_comm]
  | ok id =>
    rw [headOf_of_id hid, or_iff_right (by simp)]
    simp only [Except.ok.injEq, exists_eq_left', reduceCtorEq, false_and, exists_false, false_or]
    rw [labelOf_givenName, mapError_within_model]
    refine exists_congr fun inner => and_congr_left fun _ => ?_
    rw [← bind_assoc, bind_error, readAll_model, ← readAll_ok, nestedIn_eq]
    refine or_congr_right ?_
    rw [exists_and_right.symm]
    refine exists_congr fun actions => and_congr_right fun _ => ?_
    rw [bind_error, readAll_model]
    refine or_iff_left ?_
    rintro ⟨_, _, h⟩
    cases h

theorem within_label (f : ModelFault) (place : FaultPlace) (label : Option Json) :
    (⟨f, place.location⟩ : ModelError).within ⟨label, none, none⟩ =
      ⟨f, (place.inside label).location⟩ := by
  rw [FaultPlace.location_inside, ModelError.within]

theorem destinationOf_of_kind {v : Json} (hkind : ∀ fields, v ≠ .object fields) :
    destinationOf applicationId v = .error (noDestination v) := by
  cases v with
  | object fields => exact absurd rfl (hkind fields)
  | null | bool _ | int _ | float _ | text _ | array _ => rfl

theorem faulty_of_kind {v : Json} {e : ModelError} (hkind : ∀ fields, v ≠ .object fields)
    (h : destinationOf applicationId v = .error (.model e)) :
    ∃ f place, FaultyDestination applicationId v f place ∧ e = ⟨f, place.location⟩ := by
  cases (destinationOf_of_kind hkind).symm.trans h
  exact ⟨_, .outside, .kind hkind, rfl⟩

theorem destinationOf_faulty {v : Json} {e : ModelError}
    (h : destinationOf applicationId v = .error (.model e)) :
    ∃ f place, FaultyDestination applicationId v f place ∧ e = ⟨f, place.location⟩ := by
  -- Only objects are smaller than the object that holds them, since characters count as items too.
  induction hn : sizeOf v using Nat.strongRecOn generalizing v e with
  | ind n ih =>
    by_cases hobject : ∃ fields, v = .object fields
    · obtain ⟨fields, rfl⟩ := hobject
      obtain ⟨f, hid, rfl⟩ | ⟨id, hid, below, hbelow, rfl⟩ := destinationOf_object_model.mp h
      · exact ⟨f, _, .id hid, within_label f .outside (givenName fields)⟩
      obtain ⟨v, hbefore, hv⟩ | ⟨hactions, v, hbefore, hv⟩ := hbelow
      · obtain ⟨f, action, argument, hf, rfl⟩ := actionOf_model.mp hv
        exact ⟨f, _, .action hid hbefore hf, within_label f ⟨[], action, argument⟩ _⟩
      · have hplace : ∃ f place, FaultyDestination applicationId v f place ∧
            below = ⟨f, place.location⟩ := by
          by_cases hinner : ∃ inner, v = .object inner
          · obtain ⟨inner, rfl⟩ := hinner
            exact ih _ (hn ▸ hbefore.sizeOf_lt) hv rfl
          · exact faulty_of_kind (not_exists.mp hinner) hv
        obtain ⟨f, place, hf, rfl⟩ := hplace
        exact ⟨f, _, .nested hid hactions hbefore hf, within_label f place _⟩
    · exact faulty_of_kind (not_exists.mp hobject) h

theorem destinationOf_model {v : Json} {e : ModelError} :
    destinationOf applicationId v = .error (.model e) ↔
      ∃ place, FaultyDestination applicationId v e.fault place ∧ e.location = place.location := by
  constructor
  · intro h
    obtain ⟨f, place, hf, rfl⟩ := destinationOf_faulty h
    exact ⟨place, hf, rfl⟩
  · obtain ⟨f, location⟩ := e
    rintro ⟨place, hfault, hlocation⟩
    dsimp only at hfault hlocation
    rw [hlocation]
    clear hlocation
    induction hfault with
    | kind hkind => exact destinationOf_of_kind hkind
    | @id fields f hid =>
      refine destinationOf_object_model.mpr (.inl ⟨f, hid, ?_⟩)
      exact (within_label f .outside (givenName fields)).symm
    | @action fields id v f action argument hid hbefore hf =>
      have hv := actionOf_model.mpr ⟨f, action, argument, hf, rfl⟩
      refine destinationOf_object_model.mpr (.inr ⟨id, hid, _, .inl ⟨v, hbefore, hv⟩, ?_⟩)
      exact (within_label f ⟨[], action, argument⟩ _).symm
    | @nested fields id v f place hid hactions hbefore _ ih =>
      exact destinationOf_object_model.mpr
        (.inr ⟨id, hid, _, .inr ⟨hactions, v, hbefore, ih⟩, (within_label f place _).symm⟩)

theorem FaultyAction.unique {v : Json} {f g : ModelFault} {action action' : Option Text}
    {argument argument' : Option Json} (hf : FaultyAction applicationId v f action argument)
    (hg : FaultyAction applicationId v g action' argument') :
    f = g ∧ action = action' ∧ argument = argument' := by
  have hread := actionOf_model.mpr ⟨f, action, argument, hf, rfl⟩
  have hread' := actionOf_model.mpr ⟨g, action', argument', hg, rfl⟩
  cases hread.symm.trans hread'
  exact ⟨rfl, rfl, rfl⟩

theorem FaultyAction.reads {v : Json} {f : ModelFault} {action : Option Text}
    {argument : Option Json} (h : FaultyAction applicationId v f action argument) :
    actionOf applicationId v = .error (.model ⟨f, none, action, argument⟩) :=
  actionOf_model.mpr ⟨f, action, argument, h, rfl⟩

theorem FaultyDestination.reads {v : Json} {f : ModelFault} {place : FaultPlace}
    (h : FaultyDestination applicationId v f place) :
    destinationOf applicationId v = .error (.model ⟨f, place.location⟩) :=
  destinationOf_model.mpr ⟨place, h, rfl⟩

theorem FaultyDestination.unique {v : Json} {f g : ModelFault} {p q : FaultPlace}
    (hf : FaultyDestination applicationId v f p) (hg : FaultyDestination applicationId v g q) :
    f = g ∧ p = q := by
  induction hf generalizing g q with
  | kind hkind =>
    cases hg with
    | kind _ => exact ⟨rfl, rfl⟩
    | _ => exact absurd rfl (hkind _)
  | id hid =>
    cases hg with
    | kind hkind => exact absurd rfl (hkind _)
    | id hid' =>
      cases hid.symm.trans hid'
      exact ⟨rfl, rfl⟩
    | action hid' | nested hid' => cases hid.symm.trans hid'
  | action hid hbefore haction =>
    cases hg with
    | kind hkind => exact absurd rfl (hkind _)
    | id hid' => cases hid.symm.trans hid'
    | action hid' hbefore' haction' =>
      cases hid.symm.trans hid'
      cases hbefore.unique haction.reads hbefore' haction'.reads
      obtain ⟨rfl, rfl, rfl⟩ := haction.unique haction'
      exact ⟨rfl, rfl⟩
    | nested _ hactions => exact absurd hactions (hbefore.not_readsAll haction.reads)
  | nested hid hactions hbefore hplace ih =>
    cases hg with
    | kind hkind => exact absurd rfl (hkind _)
    | id hid' => cases hid.symm.trans hid'
    | action _ hbefore' haction' => exact absurd hactions (hbefore'.not_readsAll haction'.reads)
    | nested hid' _ hbefore' hplace' =>
      cases hid.symm.trans hid'
      cases hbefore.unique hplace.reads hbefore' hplace'.reads
      obtain ⟨rfl, rfl⟩ := ih hplace'
      exact ⟨rfl, rfl⟩

/-! ### Documents -/

theorem ofDocument_model {document : Json} {e : ModelError} :
    NavigationGraph.ofDocument document applicationId = .error (.model e) ↔
      ∃ place, FaultyDocument applicationId document e.fault place ∧
        e.location = place.location := by
  constructor
  · intro h
    rcases bind_error.mp h with h | ⟨items, hitems, h⟩
    · obtain ⟨f, hf, rfl⟩ := mapError_model.mp h
      exact ⟨.outside, .list hf, rfl⟩
    rcases bind_error.mp h with h | ⟨destinations, -, h⟩
    · rw [destinationsOf_eq] at h
      obtain ⟨before, v, after, done, rfl, hbefore, hv⟩ := mapM_error.mp h
      obtain ⟨place, hf, hlocation⟩ := destinationOf_model.mp hv
      exact ⟨place, .destination (mapError_ok.mp hitems) hbefore hf, hlocation⟩
    · cases h
  · obtain ⟨f, location⟩ := e
    rintro ⟨place, hfault, hlocation⟩
    cases hfault with
    | list hf =>
      cases hlocation
      exact bind_error.mpr (.inl (mapError_model.mpr ⟨f, hf, rfl⟩))
    | destination hlist hbefore hf =>
      have hv := destinationOf_model.mpr ⟨place, hf, hlocation⟩
      refine bind_error.mpr (.inr ⟨_, mapError_ok.mpr hlist, bind_error.mpr (.inl ?_)⟩)
      rw [destinationsOf_eq]
      exact mapM_error.mpr ⟨_, _, _, _, rfl, hbefore, hv⟩

theorem FaultyDocument.unique {document : Json} {f g : ModelFault} {p q : FaultPlace}
    (hf : FaultyDocument applicationId document f p)
    (hg : FaultyDocument applicationId document g q) : f = g ∧ p = q := by
  cases hf with
  | list hlist =>
    cases hg with
    | list hlist' =>
      cases hlist.symm.trans hlist'
      exact ⟨rfl, rfl⟩
    | destination hlist' => cases hlist.symm.trans hlist'
  | destination hlist hbefore hplace =>
    cases hg with
    | list hlist' => cases hlist.symm.trans hlist'
    | destination hlist' hbefore' hplace' =>
      have hitems := Except.ok.inj (hlist.symm.trans hlist')
      cases stop_unique hitems hbefore hplace.reads hbefore' hplace'.reads
      exact hplace.unique hplace'

/-- The report about a document comes from its one fault and takes the action and the argument from
the place of that.  Its destination is the innermost one exactly if that has a label, or none around
the fault has one. -/
theorem ofDocument_located_iff (document applicationId : Json) :
    (∀ e, NavigationGraph.ofDocument document applicationId = .error (.model e) ↔
      ∃ place, FaultyDocument applicationId document e.fault place ∧
        e.location = place.location) ∧
    (∀ f g p q, FaultyDocument applicationId document f p →
      FaultyDocument applicationId document g q → f = g ∧ p = q) ∧
    ∀ e place, NavigationGraph.ofDocument document applicationId = .error (.model e) →
      FaultyDocument applicationId document e.fault place →
      e.location.action = place.action ∧ e.location.argument = place.argument ∧
        (e.location.destination = place.innermost ↔
          place.innermost.isSome = true ∨ ∀ label ∈ place.enclosing, label = none) := by
  refine ⟨fun e => ofDocument_model, fun f g p q hf hg => hf.unique hg, ?_⟩
  intro e place he hplace
  obtain ⟨found, hfound, hlocation⟩ := ofDocument_model.mp he
  obtain ⟨-, rfl⟩ := hfound.unique hplace
  rw [hlocation]
  exact ⟨rfl, rfl, found.destination_eq_innermost_iff⟩

/-- A destination without name and id whose action has no id. -/
def namelessScreen : Json := .object [("actions", .array [.object []])]

def outerScreen : Json := .object [("name", .text "app.Outer"), ("nested", .array [namelessScreen])]

/-- The fault of a nested destination without name and id goes by the name of the one around it. -/
theorem nameless_screen_takes_outer_name :
    NavigationGraph.ofDocument (.object [("destinations", .array [outerScreen])]) (.text []) =
        .error (.model ⟨.missingEntry .action "id", some (.text "app.Outer"), none, none⟩) ∧
      FaultyDocument (.text []) (.object [("destinations", .array [outerScreen])])
        (.missingEntry .action "id") ⟨[none, some (.text "app.Outer")], none, none⟩ := by
  have hid {fields : List (Text × Json)} (h : Json.find? "id" fields = none) :
      idOf .destinationId (.text []) (Json.find? "id" fields) = .ok none := by rw [h, idOf]
  have hscreen : FaultyDestination (.text []) namelessScreen (.missingEntry .action "id")
      ⟨[none], none, none⟩ :=
    .action (hid rfl) ⟨[], [], [], rfl, rfl⟩ (.nameless rfl)
  have houter : FaultyDestination (.text []) outerScreen (.missingEntry .action "id")
      ⟨[none, some (.text "app.Outer")], none, none⟩ :=
    .nested (hid rfl) ⟨[], [], rfl, rfl⟩ ⟨[], [], [], rfl, rfl⟩ hscreen
  have hlist : destinationList (.object [("destinations", .array [outerScreen])]) =
      .ok ([] ++ [outerScreen]) := rfl
  exact ⟨rfl, .destination hlist rfl houter⟩

end NavDirections.Document
