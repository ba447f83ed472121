import NavDirections.Generation.Basic
import NavDirections.Loading.Basic
import NavDirections.Proofs.Success

/-!
# Faults of graph documents

A document that describes no graph is reported, unless reading it meets a value that it cannot walk
over or a name that it cannot compare.  Where that happens is told by the document alone: the path
to the value, and that everything in front of it is in order.
-/

namespace NavDirections

open Success Failure

/-- The result is neither a value nor a model fault. -/
def IsStuck {α : Type} (r : Except GraphFault α) : Prop := ∃ k, r = .error (.kind k)

namespace IsStuck

variable {α β ε : Type}

theorem bind_iff {r : Except GraphFault α} {f : α → Except GraphFault β} :
    IsStuck (r >>= f) ↔ IsStuck r ∨ ∃ a, r = .ok a ∧ IsStuck (f a) := by
  simp only [IsStuck, bind_error, exists_or]
  refine or_congr_right ?_
  constructor
  · rintro ⟨k, a, hr, ha⟩
    exact ⟨a, hr, k, ha⟩
  · rintro ⟨a, hr, k, ha⟩
    exact ⟨k, a, hr, ha⟩

theorem within_iff {r : Except GraphFault α} {outer : Location} :
    IsStuck (r.mapError (GraphFault.within outer)) ↔ IsStuck r := by
  cases r with
  | ok a => exact iff_of_false nofun nofun
  | error f =>
    cases f with
    | model e => exact iff_of_false nofun nofun
    | kind k => exact iff_of_true ⟨k, rfl⟩ ⟨k, rfl⟩

theorem unlocated_iff {r : Except PartFault α} :
    IsStuck (r.mapError PartFault.unlocated) ↔ ∃ k, r = .error (.kind k) := by
  cases r with
  | ok a => exact iff_of_false nofun nofun
  | error f =>
    cases f with
    | model f => exact iff_of_false nofun nofun
    | kind k => exact iff_of_true ⟨k, rfl⟩ ⟨k, rfl⟩

theorem not_model {r : Except ε α} {located : ε → ModelError} :
    ¬IsStuck (r.mapError fun f => GraphFault.model (located f)) := by
  rintro ⟨k, h⟩
  obtain ⟨f, -, hf⟩ := mapError_error.mp h
  cases hf

end IsStuck

theorem PartFault.refuse_kind {f : ModelFault} {k : KindFault} :
    refuse f = kind k ↔ f.isWritable = false ∧ k = .hugeInteger := by
  unfold refuse
  split
  next h => simp [h]
  next h => simp [h, eq_comm]

namespace Document

/-- A value that is no list and does not count as one. -/
def isUnlisted : Json → Bool
  | .null | .bool _ | .int _ | .float _ => true
  | .text _ | .array _ | .object _ => false

/-- The entry under a key is there and is no list. -/
def HoldsUnlisted (key : Text) (fields : List (Text × Json)) : Prop :=
  ∃ v, Json.find? key fields = some v ∧ isUnlisted v = true

/-- The items of an entry are read up to the given one. -/
def Reaches {α : Type} (read : Json → Except GraphFault α) (key : Text)
    (fields : List (Text × Json)) (v : Json) : Prop :=
  ∃ before after done, itemsOf key fields = .ok (before ++ v :: after) ∧
    before.mapM read = .ok done

def ReadsAll {α : Type} (read : Json → Except GraphFault α) (key : Text)
    (fields : List (Text × Json)) : Prop :=
  ∃ items done, itemsOf key fields = .ok items ∧ items.mapM read = .ok done

theorem items_error {v : Json} {k : KindFault} :
    items v = .error k ↔ isUnlisted v = true ∧ k = .operand := by
  cases v with
  | null | bool _ | int _ | float _ =>
    constructor
    · intro h
      cases h
      exact ⟨rfl, rfl⟩
    · intro h
      rw [h.2]
      rfl
  | text _ | array _ | object _ => exact iff_of_false nofun fun h => nomatch h.1

theorem itemsOf_error {key : Text} {fields : List (Text × Json)} {f : GraphFault} :
    itemsOf key fields = .error f ↔ HoldsUnlisted key fields ∧ f = .kind .operand := by
  unfold itemsOf HoldsUnlisted
  cases Json.find? key fields with
  | none => simp
  | some v =>
    simp only [mapError_error, items_error, Option.some.injEq, exists_eq_left']
    constructor
    · rintro ⟨k, ⟨hlist, rfl⟩, rfl⟩
      exact ⟨hlist, rfl⟩
    · rintro ⟨hlist, rfl⟩
      exact ⟨.operand, ⟨hlist, rfl⟩, rfl⟩

theorem array_of_object_mem {key : Text} {fields inner : List (Text × Json)} {list : List Json}
    (h : itemsOf key fields = .ok list) (hmem : Json.object inner ∈ list) :
    ∃ found, Json.find? key fields = some (.array found) ∧ Json.object inner ∈ found := by
  unfold itemsOf at h
  split at h
  · rw [← Except.ok.inj h] at hmem
    cases hmem
  next v hfind =>
    have hlist := mapError_ok.mp h
    -- Characters and keys count as items too, but these are no objects.
    cases v with
    | array found => exact ⟨found, hfind, Except.ok.inj hlist ▸ hmem⟩
    | text t =>
      rw [← Except.ok.inj hlist] at hmem
      obtain ⟨c, -, hc⟩ := List.mem_map.mp hmem
      cases hc
    | object entries =>
      rw [← Except.ok.inj hlist] at hmem
      obtain ⟨entry, -, hentry⟩ := List.mem_map.mp hmem
      cases hentry
    | null | bool _ | int _ | float _ => cases hlist

/-- Reading the items of an entry stops in place of the list, or at the first of the items that
cannot be read. -/
theorem readAll_error {α : Type} {read : Json → Except GraphFault α} {key : Text}
    {fields : List (Text × Json)} {f : GraphFault} :
    (itemsOf key fields >>= fun items => items.mapM read) = .error f ↔
      (HoldsUnlisted key fields ∧ f = .kind .operand) ∨
        ∃ v, Reaches read key fields v ∧ read v = .error f := by
  rw [bind_error, itemsOf_error]
  refine or_congr_right ?_
  constructor
  · rintro ⟨items, hitems, hwalk⟩
    obtain ⟨before, v, after, done, rfl, hbefore, hv⟩ := mapM_error.mp hwalk
    exact ⟨v, ⟨before, after, done, hitems, hbefore⟩, hv⟩
  · rintro ⟨v, ⟨before, after, done, hitems, hbefore⟩, hv⟩
    exact ⟨_, hitems, mapM_error.mpr ⟨before, v, after, done, rfl, hbefore, hv⟩⟩

theorem readAll_isStuck {α : Type} {read : Json → Except GraphFault α} {key : Text}
    {fields : List (Text × Json)} :
    IsStuck (itemsOf key fields >>= fun items => items.mapM read) ↔
      HoldsUnlisted key fields ∨ ∃ v, Reaches read key fields v ∧ IsStuck (read v) := by
  simp only [IsStuck, readAll_error, exists_or, GraphFault.kind.injEq, exists_and_left, exists_eq,
    and_true]
  refine or_congr_right ?_
  rw [exists_comm]
  simp only [exists_and_left]

theorem readAll_ok {α : Type} {read : Json → Except GraphFault α} {key : Text}
    {fields : List (Text × Json)} :
    (∃ done, (itemsOf key fields >>= fun items => items.mapM read) = .ok done) ↔
      ReadsAll read key fields := by
  simp only [bind_ok, ReadsAll]
  exact exists_comm

end Document

theorem firstClash?_cons_eq_none {seen rest : List Json} {name : Json} :
    firstClash? seen (name :: rest) = none ↔
      name.isScalar = true ∧ ¬seen.any (·.sameScalar name) = true ∧
        firstClash? (name :: seen) rest = none := by
  rw [firstClash?]
  split
  next hscalar =>
    split
    next hseen => simp [hseen]
    next hseen => simp [hscalar, hseen]
  next hscalar => simp [hscalar]

theorem firstClash?_append {seen before after : List Json} {name : Json}
    (hbefore : firstClash? seen before = none) (hname : name.isScalar = false) :
    firstClash? seen (before ++ name :: after) = some .notScalar := by
  induction before generalizing seen with
  | nil => rw [List.nil_append, firstClash?, hname, if_neg Bool.false_ne_true]
  | cons first before ih =>
    obtain ⟨hscalar, hseen, hrest⟩ := firstClash?_cons_eq_none.mp hbefore
    rw [List.cons_append, firstClash?, if_pos hscalar, if_neg hseen, ih hrest]

/-- The walk over names stops at one that is no scalar, if those in front of it are different
scalars. -/
theorem firstClash?_eq_notScalar {seen names : List Json} :
    firstClash? seen names = some .notScalar ↔
      ∃ before name after, names = before ++ name :: after ∧ firstClash? seen before = none ∧
        name.isScalar = false := by
  constructor
  · intro h
    induction names generalizing seen with
    | nil => cases h
    | cons name rest ih =>
      rw [firstClash?] at h
      split at h
      next hscalar =>
        split at h
        · cases h
        next hseen =>
          obtain ⟨before, other, after, rfl, hbefore, hother⟩ := ih h
          exact ⟨name :: before, other, after, rfl,
            firstClash?_cons_eq_none.mpr ⟨hscalar, hseen, hbefore⟩, hother⟩
      next hscalar => exact ⟨[], name, rest, rfl, rfl, Bool.eq_false_iff.mpr hscalar⟩
  · rintro ⟨before, name, after, rfl, hbefore, hname⟩
    exact firstClash?_append hbefore hname

theorem firstClash?_repeated_mem {seen names : List Json} {name : Json}
    (h : firstClash? seen names = some (.repeated name)) : name ∈ names := by
  induction names generalizing seen with
  | nil => cases h
  | cons first rest ih =>
    rw [firstClash?] at h
    split at h
    · split at h
      · cases h
        exact List.mem_cons_self
      · exact List.mem_cons_of_mem first (ih h)
    · cases h

/-- An action cannot be made, and there is no report: the name of an argument is no scalar, or it is
repeated and cannot be written. -/
def ClashesUnreported (args : List ActionArgument) : Prop :=
  firstClash? [] (args.map (·.name)) = some .notScalar ∨
    ∃ name, firstClash? [] (args.map (·.name)) = some (.repeated name) ∧ name.isWritable = false

theorem Action.make_isStuck {id : ResourceId} {destination : Option ResourceId}
    {args : List ActionArgument} :
    IsStuck (Action.make id destination args) ↔ ClashesUnreported args := by
  unfold Action.make ClashesUnreported IsStuck
  split
  next h => simp [h]
  next name h =>
    cases hwritable : name.isWritable <;>
      simp [h, PartFault.refuse, ModelFault.isWritable, hwritable, PartFault.located]
  next h => simp [h]

namespace Json

theorem isWritable_of_mem {items : List Json} {v : Json} (h : (array items).isWritable = true)
    (hv : v ∈ items) : v.isWritable = true := by
  rw [isWritable] at h
  induction items with
  | nil => cases hv
  | cons item rest ih =>
    rw [areWritable, Bool.and_eq_true] at h
    rcases List.mem_cons.mp hv with rfl | hv
    · exact h.1
    · exact ih h.2 hv

theorem isWritable_of_find? {fields : List (Text × Json)} {key : Text} {v : Json}
    (h : (object fields).isWritable = true) (hfind : find? key fields = some v) :
    v.isWritable = true := by
  rw [isWritable] at h
  induction fields with
  | nil => cases hfind
  | cons entry rest ih =>
    obtain ⟨name, value⟩ := entry
    rw [areWritableFields, Bool.and_eq_true] at h
    rw [find?] at hfind
    split at hfind
    · cases hfind
      exact h.1
    · exact ih h.2 hfind

end Json

namespace Document

variable {applicationId : Json}

/-- The package or the name of an id is an integer with too many digits to be written, or holds
one. -/
def StuckId (applicationId v : Json) : Prop :=
  ∃ fields name, v = .object fields ∧ Json.find? "name" fields = some name ∧
    ((packageValue applicationId fields).isWritable = false ∨ name.isWritable = false)

theorem fieldsOf_ok {part : DocumentPart} {v : Json} {fields : List (Text × Json)} :
    fieldsOf part v = .ok fields ↔ v = .object fields := by
  cases v <;> simp [fieldsOf]

theorem idOf_object_isStuck (part : DocumentPart) (fields : List (Text × Json)) :
    (∃ k, idOf part applicationId (some (.object fields)) = .error (.kind k)) ↔
      StuckId applicationId (.object fields) := by
  unfold StuckId
  simp only [Json.object.injEq, exists_and_left, exists_eq_left']
  rw [idOf]
  · simp only [fieldsOf, Except.mapError, bind, Except.bind]
    cases hname : Json.find? "name" fields with
    | none => simp
    | some name =>
      simp only [Option.some.injEq, exists_eq_left', Json.written]
      cases hpackage : (packageValue applicationId fields).isWritable with
      | false => simp
      | true =>
        cases hwritable : name.isWritable with
        | false =>
          simp only [if_true, Bool.false_eq_true, if_false, or_true, iff_true]
          split
          · exact ⟨.hugeInteger, congrArg Except.error
              (PartFault.refuse_kind.mpr ⟨hwritable, rfl⟩)⟩
          · exact ⟨.hugeInteger, rfl⟩
        | true =>
          simp only [if_true, Bool.true_eq_false, or_self, iff_false, not_exists]
          intro k
          split
          · intro h
            have hrefused := (PartFault.refuse_kind.mp (Except.error.inj h)).1
            exact nomatch hrefused.symm.trans hwritable
          · cases ResourceId.make (packageValue applicationId fields).plain name.plain <;>
              simp [Except.map]
  · exact nofun

/-- There is no id and no report exactly where the value has an id that cannot be written. -/
theorem idOf_isStuck (part : DocumentPart) {found : Option Json} :
    (∃ k, idOf part applicationId found = .error (.kind k)) ↔
      ∃ v, found = some v ∧ StuckId applicationId v := by
  cases found with
  | none => exact iff_of_false nofun nofun
  | some v =>
    simp only [Option.some.injEq, exists_eq_left']
    cases v with
    | object fields => exact idOf_object_isStuck part fields
    | null | bool _ | int _ | float _ | text _ | array _ =>
      exact iff_of_false nofun fun ⟨_, _, h, _⟩ => nomatch h

/-- The type of an argument, its class or its default cannot be written. -/
inductive StuckArgument : Json → Prop
  | type {fields : List (Text × Json)} {spelling : Json}
      (htype : Json.find? "type" fields = some spelling)
      (h : spelling.isWritable = false ∨
        ((Json.find? "class" fields).getD (.text [])).isWritable = false) :
      StuckArgument (.object fields)
  | default {fields : List (Text × Json)} {spelling value : Json} {type : ArgumentType}
      (htype : Json.find? "type" fields = some spelling) (hread : typeOf spelling fields = .ok type)
      (hdefault : Json.find? "default" fields = some value) (h : value.isWritable = false) :
      StuckArgument (.object fields)

theorem typeOf_isStuck {spelling : Json} {fields : List (Text × Json)} :
    (∃ k, typeOf spelling fields = .error (.kind k)) ↔ spelling.isWritable = false ∨
      ((Json.find? "class" fields).getD (.text [])).isWritable = false := by
  unfold typeOf Json.written
  cases spelling.isWritable with
  | false => simp [Except.mapError, bind, Except.bind]
  | true =>
    cases ((Json.find? "class" fields).getD (.text [])).isWritable with
    | false => simp [Except.mapError, bind, Except.bind]
    | true =>
      simp only [if_true, Except.mapError, bind, Except.bind]
      split <;> simp

theorem defaultText_isStuck {value : Json} :
    (∃ k, defaultText value = .error (.kind k)) ↔ value.isWritable = false := by
  have hrefused (f : ModelFault) : (∃ k, (Except.error (.refuse f) : Except PartFault Text) =
      .error (.kind k)) ↔ f.isWritable = false := by
    simp [PartFault.refuse_kind]
  cases value with
  | null | bool b | float x | text t => exact iff_of_false nofun (by simp [Json.isWritable])
  | int n =>
    rw [defaultText, Json.written]
    cases (Json.int n).isWritable <;> simp [Except.mapError]
  | array items | object fields => exact hrefused _

theorem defaultOf_isStuck {fields : List (Text × Json)} :
    (∃ k, defaultOf fields = .error (.kind k)) ↔
      ∃ value, Json.find? "default" fields = some value ∧ value.isWritable = false := by
  unfold defaultOf
  cases Json.find? "default" fields with
  | none => simp
  | some value => simp [map_error, ← defaultText_isStuck]

theorem make_isStuck {name : Json} {type : ArgumentType} {default : Option Text} :
    ¬IsStuck (ActionArgument.make name type (default.map .text)) := by
  unfold ActionArgument.make IsStuck
  cases default with
  | none => split <;> simp
  | some t => split <;> simp

theorem argumentOf_isStuck {v : Json} : IsStuck (argumentOf v) ↔ StuckArgument v := by
  unfold argumentOf
  rw [IsStuck.bind_iff, or_iff_right IsStuck.not_model]
  simp only [mapError_ok, fieldsOf_ok, IsStuck.within_iff]
  constructor
  · rintro ⟨fields, rfl, h⟩
    split at h
    · obtain ⟨k, h⟩ := h
      cases h
    next spelling htype =>
      rcases IsStuck.bind_iff.mp h with h | ⟨type, hread, h⟩
      · exact .type htype (typeOf_isStuck.mp (IsStuck.unlocated_iff.mp h))
      rcases IsStuck.bind_iff.mp h with h | ⟨default, -, h⟩
      · obtain ⟨value, hvalue, hwritable⟩ := defaultOf_isStuck.mp (IsStuck.unlocated_iff.mp h)
        exact .default htype (mapError_ok.mp hread) hvalue hwritable
      · exact absurd h make_isStuck
  · intro h
    cases h with
    | @type fields spelling htype h =>
      refine ⟨fields, rfl, ?_⟩
      rw [htype]
      exact IsStuck.bind_iff.mpr (.inl (IsStuck.unlocated_iff.mpr (typeOf_isStuck.mpr h)))
    | @default fields spelling value type htype hread hdefault h =>
      refine ⟨fields, rfl, ?_⟩
      rw [htype]
      refine IsStuck.bind_iff.mpr (.inr ⟨type, mapError_ok.mpr hread, ?_⟩)
      have hstuck := defaultOf_isStuck.mpr ⟨value, hdefault, h⟩
      exact IsStuck.bind_iff.mpr (.inl (IsStuck.unlocated_iff.mpr hstuck))

/-- Reading an action meets a value that it cannot handle: an id or a part of an argument that cannot
be written, arguments that are no list, or names of arguments that clash without a report. -/
inductive StuckAction (applicationId : Json) : Json → Prop
  | id {fields : List (Text × Json)} {v : Json} (hid : Json.find? "id" fields = some v)
      (h : StuckId applicationId v) : StuckAction applicationId (.object fields)
  | arguments {fields : List (Text × Json)} {id : ResourceId}
      (hid : idOf .actionId applicationId (Json.find? "id" fields) = .ok (some id))
      (h : HoldsUnlisted "arguments" fields) : StuckAction applicationId (.object fields)
  | argument {fields : List (Text × Json)} {id : ResourceId} {v : Json}
      (hid : idOf .actionId applicationId (Json.find? "id" fields) = .ok (some id))
      (hbefore : Reaches argumentOf "arguments" fields v) (h : StuckArgument v) :
      StuckAction applicationId (.object fields)
  | destination {fields : List (Text × Json)} {id : ResourceId} {v : Json}
      (hid : idOf .actionId applicationId (Json.find? "id" fields) = .ok (some id))
      (hargs : ReadsAll argumentOf "arguments" fields)
      (hdestination : Json.find? "destination" fields = some v) (h : StuckId applicationId v) :
      StuckAction applicationId (.object fields)
  | names {fields : List (Text × Json)} {id : ResourceId} {items : List Json}
      {args : List ActionArgument} {destination : Option ResourceId}
      (hid : idOf .actionId applicationId (Json.find? "id" fields) = .ok (some id))
      (hitems : itemsOf "arguments" fields = .ok items)
      (hargs : items.mapM argumentOf = .ok args)
      (hdestination : idOf .actionDestination applicationId (Json.find? "destination" fields) =
        .ok destination)
      (h : ClashesUnreported args) : StuckAction applicationId (.object fields)

/-- What follows the id of an action: its arguments and its destination. -/
def actionRest (applicationId : Json) (fields : List (Text × Json)) (id : ResourceId) :
    Except GraphFault Action := do
  let args ← itemsOf "arguments" fields >>= fun items => items.mapM argumentOf
  let destination ← (idOf .actionDestination applicationId
    (Json.find? "destination" fields)).mapError PartFault.unlocated
  Action.make id destination args

theorem actionOf_object {fields : List (Text × Json)} {id : ResourceId}
    (hid : idOf .actionId applicationId (Json.find? "id" fields) = .ok (some id)) :
    actionOf applicationId (.object fields) =
      (actionRest applicationId fields id).mapError (GraphFault.within (.atAction id.name)) := by
  unfold actionRest
  rw [bind_assoc]
  simp only [actionOf, fieldsOf, Except.mapError, bind, Except.bind, hid]

theorem actionOf_isStuck {v : Json} :
    IsStuck (actionOf applicationId v) ↔ StuckAction applicationId v := by
  constructor
  · intro hstuck
    rcases IsStuck.bind_iff.mp hstuck with h | ⟨fields, hfields, h⟩
    · exact absurd h IsStuck.not_model
    obtain rfl := fieldsOf_ok.mp (mapError_ok.mp hfields)
    rcases IsStuck.bind_iff.mp h with h | ⟨found, hid, h⟩
    · obtain ⟨v, hv, hstuck⟩ := (idOf_isStuck _).mp (IsStuck.unlocated_iff.mp h)
      exact .id hv hstuck
    replace hid := mapError_ok.mp hid
    cases found with
    | none =>
      obtain ⟨k, h⟩ := h
      cases h
    | some id =>
      rcases IsStuck.bind_iff.mp (IsStuck.within_iff.mp h) with ⟨k, h⟩ | ⟨items, hitems, h⟩
      · exact .arguments hid (itemsOf_error.mp h).1
      rcases IsStuck.bind_iff.mp h with ⟨k, h⟩ | ⟨args, hargs, h⟩
      · obtain ⟨before, v, after, done, rfl, hbefore, hv⟩ := mapM_error.mp h
        exact .argument hid ⟨before, after, done, hitems, hbefore⟩ (argumentOf_isStuck.mp ⟨k, hv⟩)
      rcases IsStuck.bind_iff.mp h with h | ⟨destination, hdestination, h⟩
      · obtain ⟨v, hv, hstuck⟩ := (idOf_isStuck _).mp (IsStuck.unlocated_iff.mp h)
        exact .destination hid ⟨items, args, hitems, hargs⟩ hv hstuck
      · exact .names hid hitems hargs (mapError_ok.mp hdestination) (Action.make_isStuck.mp h)
  · intro h
    cases h with
    | id hid h =>
      refine IsStuck.bind_iff.mpr (.inr ⟨_, mapError_ok.mpr (fieldsOf_ok.mpr rfl), ?_⟩)
      exact IsStuck.bind_iff.mpr
        (.inl (IsStuck.unlocated_iff.mpr ((idOf_isStuck _).mpr ⟨_, hid, h⟩)))
    | arguments hid h =>
      rw [actionOf_object hid, IsStuck.within_iff]
      exact IsStuck.bind_iff.mpr (.inl (readAll_isStuck.mpr (.inl h)))
    | argument hid hbefore h =>
      rw [actionOf_object hid, IsStuck.within_iff]
      have hstuck := argumentOf_isStuck.mpr h
      exact IsStuck.bind_iff.mpr (.inl (readAll_isStuck.mpr (.inr ⟨_, hbefore, hstuck⟩)))
    | destination hid hargs hdestination h =>
      rw [actionOf_object hid, IsStuck.within_iff]
      obtain ⟨args, hargs⟩ := readAll_ok.mpr hargs
      have hstuck := (idOf_isStuck .actionDestination).mpr ⟨_, hdestination, h⟩
      exact IsStuck.bind_iff.mpr
        (.inr ⟨args, hargs, IsStuck.bind_iff.mpr (.inl (IsStuck.unlocated_iff.mpr hstuck))⟩)
    | @names _ _ items args destination hid hitems hargs hdestination h =>
      rw [actionOf_object hid, IsStuck.within_iff]
      refine IsStuck.bind_iff.mpr (.inr ⟨args, bind_ok.mpr ⟨items, hitems, hargs⟩, ?_⟩)
      exact IsStuck.bind_iff.mpr
        (.inr ⟨destination, mapError_ok.mpr hdestination, Action.make_isStuck.mpr h⟩)

/-- Reading a destination meets a value that it cannot handle: its id cannot be written, its actions
or its nested destinations are no list, or one of them meets such a value. -/
inductive StuckDestination (applicationId : Json) : Json → Prop
  | id {fields : List (Text × Json)} {v : Json} (hid : Json.find? "id" fields = some v)
      (h : StuckId applicationId v) : StuckDestination applicationId (.object fields)
  | actions {fields : List (Text × Json)} {head : DestinationHead}
      (hhead : headOf applicationId fields = .ok head)
      (h : HoldsUnlisted "actions" fields) : StuckDestination applicationId (.object fields)
  | action {fields : List (Text × Json)} {head : DestinationHead} {v : Json}
      (hhead : headOf applicationId fields = .ok head)
      (hbefore : Reaches (actionOf applicationId) "actions" fields v)
      (h : StuckAction applicationId v) : StuckDestination applicationId (.object fields)
  | nested {fields : List (Text × Json)} {head : DestinationHead}
      (hhead : headOf applicationId fields = .ok head)
      (hactions : ReadsAll (actionOf applicationId) "actions" fields)
      (h : HoldsUnlisted "nested" fields) : StuckDestination applicationId (.object fields)
  | destination {fields : List (Text × Json)} {head : DestinationHead} {v : Json}
      (hhead : headOf applicationId fields = .ok head)
      (hactions : ReadsAll (actionOf applicationId) "actions" fields)
      (hbefore : Reaches (destinationOf applicationId) "nested" fields v)
      (h : StuckDestination applicationId v) : StuckDestination applicationId (.object fields)

theorem destinationsOf_eq (items : List Json) :
    destinationsOf applicationId items = items.mapM (destinationOf applicationId) := by
  induction items with
  | nil => rfl
  | cons v rest ih =>
    rw [List.mapM_cons, destinationsOf, ih]
    rfl

theorem destinationsUnder_eq (v : Json) :
    destinationsUnder applicationId v =
      (items v).mapError .kind >>= fun items => items.mapM (destinationOf applicationId) := by
  cases v with
  | null | bool _ | int _ | float _ => rfl
  | array items => exact destinationsOf_eq items
  | text t =>
    cases t with
    | nil => rfl
    | cons c rest =>
      have hwalk : ((c :: rest).map fun c => Json.text [c]).mapM (destinationOf applicationId) =
          .error (noDestination (.text [c])) := by
        rw [List.map_cons, List.mapM_cons, destinationOf]
        · rfl
        · exact nofun
      exact hwalk.symm
  | object fields =>
    cases fields with
    | nil => rfl
    | cons entry rest =>
      have hwalk : ((entry :: rest).map fun field => Json.text field.1).mapM
          (destinationOf applicationId) = .error (noDestination (.text entry.1)) := by
        rw [List.map_cons, List.mapM_cons, destinationOf]
        · rfl
        · exact nofun
      exact hwalk.symm

theorem nestedIn_eq (fields : List (Text × Json)) :
    nestedIn applicationId fields =
      itemsOf "nested" fields >>= fun items => items.mapM (destinationOf applicationId) := by
  induction fields with
  | nil => rfl
  | cons entry rest ih =>
    obtain ⟨key, value⟩ := entry
    rw [nestedIn]
    by_cases hkey : key = "nested"
    · rw [if_pos hkey, destinationsUnder_eq, itemsOf, Json.find?, if_pos hkey]
    · rw [if_neg hkey, ih, itemsOf, itemsOf, Json.find?, if_neg hkey]

theorem headOf_isStuck {fields : List (Text × Json)} :
    IsStuck (headOf applicationId fields) ↔
      ∃ v, Json.find? "id" fields = some v ∧ StuckId applicationId v := by
  rw [← idOf_isStuck .destinationId]
  unfold headOf IsStuck
  cases idOf .destinationId applicationId (Json.find? "id" fields) with
  | ok id => simp
  | error f => cases f <;> simp [PartFault.located]

theorem destinationOf_object_isStuck {fields : List (Text × Json)} :
    IsStuck (destinationOf applicationId (.object fields)) ↔
      IsStuck (headOf applicationId fields) ∨ ∃ head, headOf applicationId fields = .ok head ∧
        (IsStuck (itemsOf "actions" fields >>= fun items => items.mapM (actionOf applicationId)) ∨
          ReadsAll (actionOf applicationId) "actions" fields ∧
            IsStuck (itemsOf "nested" fields >>= fun items =>
              items.mapM (destinationOf applicationId))) := by
  rw [destinationOf, IsStuck.bind_iff]
  refine or_congr_right (exists_congr fun head => and_congr_right fun _ => ?_)
  rw [IsStuck.within_iff, ← bind_assoc, IsStuck.bind_iff, ← nestedIn_eq, ← readAll_ok]
  refine or_congr_right ?_
  rw [exists_and_right.symm]
  refine exists_congr fun actions => and_congr_right fun _ => ?_
  rw [IsStuck.bind_iff]
  exact or_iff_left fun ⟨_, _, _, h⟩ => nomatch h

theorem sizeOf_lt_of_find? {key : Text} {fields : List (Text × Json)} {v : Json}
    (h : Json.find? key fields = some v) : sizeOf v < sizeOf fields := by
  induction fields with
  | nil => cases h
  | cons entry rest ih =>
    obtain ⟨k, w⟩ := entry
    rw [Json.find?] at h
    have hsize : sizeOf ((k, w) :: rest) = 1 + (1 + sizeOf k + sizeOf w) + sizeOf rest := rfl
    split at h
    · cases h
      omega
    · have hrest := ih h
      omega

/-- An object among the items of an entry is smaller than the object that has the entry. -/
theorem sizeOf_lt_of_itemsOf {key : Text} {fields inner : List (Text × Json)} {items : List Json}
    (hitems : itemsOf key fields = .ok items) (hmem : Json.object inner ∈ items) :
    sizeOf (Json.object inner) < sizeOf (Json.object fields) := by
  obtain ⟨found, hfind, hfound⟩ := array_of_object_mem hitems hmem
  have hitem := List.sizeOf_lt_of_mem hfound
  have harray := Json.array.sizeOf_spec found
  have hvalue := sizeOf_lt_of_find? hfind
  have hfields := Json.object.sizeOf_spec fields
  omega

theorem Reaches.sizeOf_lt {α : Type} {read : Json → Except GraphFault α} {key : Text}
    {fields inner : List (Text × Json)} (h : Reaches read key fields (.object inner)) :
    sizeOf (Json.object inner) < sizeOf (Json.object fields) := by
  obtain ⟨before, after, -, hitems, -⟩ := h
  exact sizeOf_lt_of_itemsOf hitems (by simp)

theorem object_of_isStuck {v : Json} (h : IsStuck (destinationOf applicationId v)) :
    ∃ fields, v = .object fields := by
  cases v with
  | object fields => exact ⟨fields, rfl⟩
  | null | bool _ | int _ | float _ | text _ | array _ =>
    obtain ⟨k, h⟩ := h
    cases h

theorem stuckDestination_of_isStuck {v : Json} (h : IsStuck (destinationOf applicationId v)) :
    StuckDestination applicationId v := by
  -- The reader is mutual over values, entries and items; the size of the object goes for all three.
  induction hn : sizeOf v using Nat.strongRecOn generalizing v with
  | ind n ih =>
    obtain ⟨fields, rfl⟩ := object_of_isStuck h
    rcases destinationOf_object_isStuck.mp h with hid | ⟨head, hhead, h⟩
    · obtain ⟨v, hv, hstuck⟩ := headOf_isStuck.mp hid
      exact .id hv hstuck
    rcases h with hactions | ⟨hactions, hnested⟩
    · rcases readAll_isStuck.mp hactions with hlist | ⟨a, hbefore, ha⟩
      · exact .actions hhead hlist
      · exact .action hhead hbefore (actionOf_isStuck.mp ha)
    · rcases readAll_isStuck.mp hnested with hlist | ⟨d, hbefore, hd⟩
      · exact .nested hhead hactions hlist
      · obtain ⟨inner, rfl⟩ := object_of_isStuck hd
        have hsmaller : sizeOf (Json.object inner) < n := hn ▸ hbefore.sizeOf_lt
        exact .destination hhead hactions hbefore (ih _ hsmaller hd rfl)

theorem destinationOf_isStuck {v : Json} :
    IsStuck (destinationOf applicationId v) ↔ StuckDestination applicationId v := by
  constructor
  · exact stuckDestination_of_isStuck
  · intro h
    induction h with
    | id hid h =>
      exact destinationOf_object_isStuck.mpr (.inl (headOf_isStuck.mpr ⟨_, hid, h⟩))
    | actions hhead hlist =>
      exact destinationOf_object_isStuck.mpr
        (.inr ⟨_, hhead, .inl (readAll_isStuck.mpr (.inl hlist))⟩)
    | action hhead hbefore hstuck =>
      have haction := actionOf_isStuck.mpr hstuck
      exact destinationOf_object_isStuck.mpr
        (.inr ⟨_, hhead, .inl (readAll_isStuck.mpr (.inr ⟨_, hbefore, haction⟩))⟩)
    | nested hhead hactions hlist =>
      exact destinationOf_object_isStuck.mpr
        (.inr ⟨_, hhead, .inr ⟨hactions, readAll_isStuck.mpr (.inl hlist)⟩⟩)
    | destination hhead hactions hbefore _ ih =>
      exact destinationOf_object_isStuck.mpr
        (.inr ⟨_, hhead, .inr ⟨hactions, readAll_isStuck.mpr (.inr ⟨_, hbefore, ih⟩)⟩⟩)

/-- Reading a document meets a value that it cannot handle in one of its destinations. -/
def StuckDocument (applicationId document : Json) : Prop :=
  ∃ before v after done, destinationList document = .ok (before ++ v :: after) ∧
    before.mapM (destinationOf applicationId) = .ok done ∧ StuckDestination applicationId v

theorem ofDocument_isStuck {document : Json} :
    IsStuck (NavigationGraph.ofDocument document applicationId) ↔
      StuckDocument applicationId document := by
  constructor
  · intro h
    rcases IsStuck.bind_iff.mp h with h | ⟨items, hitems, h⟩
    · exact absurd h IsStuck.not_model
    rcases IsStuck.bind_iff.mp h with ⟨k, h⟩ | ⟨destinations, -, ⟨k, h⟩⟩
    · rw [destinationsOf_eq] at h
      obtain ⟨before, v, after, done, rfl, hbefore, hv⟩ := mapM_error.mp h
      exact ⟨before, v, after, done, mapError_ok.mp hitems, hbefore,
        destinationOf_isStuck.mp ⟨k, hv⟩⟩
    · cases h
  · rintro ⟨before, v, after, done, hitems, hbefore, hstuck⟩
    obtain ⟨k, hv⟩ := destinationOf_isStuck.mpr hstuck
    refine IsStuck.bind_iff.mpr (.inr ⟨_, mapError_ok.mpr hitems, IsStuck.bind_iff.mpr (.inl ⟨k, ?_⟩)⟩)
    rw [destinationsOf_eq]
    exact mapM_error.mpr ⟨before, v, after, done, rfl, hbefore, hv⟩

theorem ofDocument_iff {document : Json} :
    ((∃ g, NavigationGraph.ofDocument document applicationId = .ok g) ∨
        ∃ e, NavigationGraph.ofDocument document applicationId = .error (.model e)) ↔
      ¬StuckDocument applicationId document := by
  rw [← ofDocument_isStuck]
  cases NavigationGraph.ofDocument document applicationId with
  | ok g => exact iff_of_true (.inl ⟨g, rfl⟩) nofun
  | error f =>
    cases f with
    | model e => exact iff_of_true (.inr ⟨e, rfl⟩) nofun
    | kind k => exact iff_of_false (by simp) (not_not_intro ⟨k, rfl⟩)

/-! ### Documents in order -/

/-- A value stands in a document: it is the document, or stands in an item or entry of it. -/
inductive Occurs (v : Json) : Json → Prop
  | here : Occurs v v
  | item {items : List Json} {w : Json} (hmem : w ∈ items) (h : Occurs v w) :
      Occurs v (.array items)
  | entry {fields : List (Text × Json)} {key : Text} {w : Json}
      (hfind : Json.find? key fields = some w) (h : Occurs v w) : Occurs v (.object fields)

/-- What stands for a list in an object can be walked over, and its name can be compared. -/
structure InOrder (fields : List (Text × Json)) : Prop where
  arguments : ¬HoldsUnlisted "arguments" fields
  actions : ¬HoldsUnlisted "actions" fields
  nested : ¬HoldsUnlisted "nested" fields
  name : ∀ v, Json.find? "name" fields = some v → v.isScalar = true

theorem Occurs.of_itemsOf {v : Json} {key : Text} {fields inner : List (Text × Json)}
    {list : List Json} (h : itemsOf key fields = .ok list) (hmem : Json.object inner ∈ list)
    (hinner : Occurs v (.object inner)) : Occurs v (.object fields) := by
  obtain ⟨found, hfind, hfound⟩ := array_of_object_mem h hmem
  exact .entry hfind (.item hfound hinner)

theorem Occurs.of_reaches {α : Type} {read : Json → Except GraphFault α} {v : Json} {key : Text}
    {fields inner : List (Text × Json)} (h : Reaches read key fields (.object inner))
    (hinner : Occurs v (.object inner)) : Occurs v (.object fields) := by
  obtain ⟨before, after, -, hitems, -⟩ := h
  exact .of_itemsOf hitems (by simp) hinner

theorem name_of_make {name : Json} {type : ArgumentType} {default : Option Json}
    {a : ActionArgument} (h : ActionArgument.make name type default = .ok a) : name = a.name := by
  unfold ActionArgument.make at h
  split at h
  · split at h
    · cases h
      rfl
    · cases h
      rfl
    · cases h
  · cases h

theorem name_of_argumentOf {v : Json} {a : ActionArgument} (h : argumentOf v = .ok a) :
    ∃ fields, v = .object fields ∧ (Json.find? "name" fields).getD (.text []) = a.name := by
  obtain ⟨fields, hfields, h⟩ := bind_ok.mp h
  refine ⟨fields, fieldsOf_ok.mp (mapError_ok.mp hfields), ?_⟩
  replace h := mapError_ok.mp h
  split at h
  · cases h
  · obtain ⟨type, -, h⟩ := bind_ok.mp h
    obtain ⟨default, -, hmake⟩ := bind_ok.mp h
    exact name_of_make hmake

/-- The names of the arguments of an action come from objects among its items. -/
theorem object_of_name {items : List Json} {args : List ActionArgument} {name : Json}
    (hargs : items.mapM argumentOf = .ok args) (hname : name ∈ args.map (·.name)) :
    ∃ inner, .object inner ∈ items ∧ (Json.find? "name" inner).getD (.text []) = name := by
  obtain ⟨a, ha, rfl⟩ := List.mem_map.mp hname
  obtain ⟨v, hv, hread⟩ := partner_of_mem_right (mapM_ok.mp hargs) ha
  obtain ⟨inner, rfl, hinner⟩ := name_of_argumentOf hread
  exact ⟨inner, hv, hinner⟩

theorem isWritable_entry {fields : List (Text × Json)} (h : (Json.object fields).isWritable = true)
    (key : Text) : ((Json.find? key fields).getD (.text [])).isWritable = true := by
  cases hfind : Json.find? key fields with
  | none => rfl
  | some v => exact Json.isWritable_of_find? h hfind

theorem isWritable_item {fields : List (Text × Json)} (h : (Json.object fields).isWritable = true)
    {key : Text} {items : List Json} (hitems : itemsOf key fields = .ok items) :
    ∀ v ∈ items, v.isWritable = true := by
  intro v hv
  cases v with
  | null | bool _ | float _ | text _ => rfl
  | object inner =>
    obtain ⟨found, hfind, hfound⟩ := array_of_object_mem hitems hv
    exact Json.isWritable_of_mem (Json.isWritable_of_find? h hfind) hfound
  | int _ | array _ =>
    unfold itemsOf at hitems
    split at hitems
    · rw [← Except.ok.inj hitems] at hv
      cases hv
    next value hfind =>
      have hvalue := Json.isWritable_of_find? h hfind
      cases value with
      | array found =>
        rw [← Except.ok.inj (mapError_ok.mp hitems)] at hv
        exact Json.isWritable_of_mem hvalue hv
      | text t =>
        rw [← Except.ok.inj (mapError_ok.mp hitems)] at hv
        simp at hv
      | object entries =>
        rw [← Except.ok.inj (mapError_ok.mp hitems)] at hv
        simp at hv
      | null | bool _ | int _ | float _ => cases hitems

theorem StuckId.not_isWritable {v : Json} (h : StuckId applicationId v)
    (happlication : applicationId.isWritable = true) : v.isWritable = false := by
  obtain ⟨fields, name, rfl, hname, hid⟩ := h
  by_contra hv
  replace hv : (Json.object fields).isWritable = true := by simpa using hv
  rcases hid with hpackage | hwritable
  · unfold packageValue at hpackage
    cases hfind : Json.find? "package" fields with
    | none =>
      rw [hfind] at hpackage
      exact nomatch happlication.symm.trans hpackage
    | some package =>
      rw [hfind] at hpackage
      have hwritten := Json.isWritable_of_find? hv hfind
      simp only [Option.filter] at hpackage
      split at hpackage
      · exact nomatch hwritten.symm.trans hpackage
      · exact nomatch happlication.symm.trans hpackage
  · exact nomatch (Json.isWritable_of_find? hv hname).symm.trans hwritable

theorem StuckArgument.not_isWritable {v : Json} (h : StuckArgument v) : v.isWritable = false := by
  by_contra hv
  replace hv : v.isWritable = true := by simpa using hv
  cases h with
  | type htype h =>
    rcases h with h | h
    · exact nomatch (Json.isWritable_of_find? hv htype).symm.trans h
    · exact nomatch (isWritable_entry hv "class").symm.trans h
  | default _ _ hdefault h => exact nomatch (Json.isWritable_of_find? hv hdefault).symm.trans h

theorem StuckAction.object {v : Json} (h : StuckAction applicationId v) :
    ∃ fields, v = .object fields := by
  cases h with
  | id | arguments | argument | destination | names => exact ⟨_, rfl⟩

theorem Reaches.isWritable {α : Type} {read : Json → Except GraphFault α} {key : Text}
    {fields : List (Text × Json)} {v : Json} (h : Reaches read key fields v)
    (hfields : (Json.object fields).isWritable = true) : v.isWritable = true := by
  obtain ⟨before, after, -, hitems, -⟩ := h
  exact isWritable_item hfields hitems v (by simp)

theorem StuckAction.disorder {v : Json} (h : StuckAction applicationId v)
    (happlication : applicationId.isWritable = true) (hv : v.isWritable = true) :
    ∃ fields, Occurs (.object fields) v ∧ ¬InOrder fields := by
  cases h with
  | id hid h =>
    have hwritten := Json.isWritable_of_find? hv hid
    exact nomatch hwritten.symm.trans (h.not_isWritable happlication)
  | arguments _ hlist => exact ⟨_, .here, fun horder => horder.arguments hlist⟩
  | argument _ hbefore h =>
    exact nomatch (hbefore.isWritable hv).symm.trans h.not_isWritable
  | destination _ _ hdestination h =>
    have hwritten := Json.isWritable_of_find? hv hdestination
    exact nomatch hwritten.symm.trans (h.not_isWritable happlication)
  | names _ hitems hargs _ h =>
    rcases h with hclash | ⟨name, hclash, hunwritable⟩
    · obtain ⟨before, name, after, hnames, -, hname⟩ := firstClash?_eq_notScalar.mp hclash
      obtain ⟨inner, hinner, heq⟩ := object_of_name hargs (show name ∈ _ by simp [hnames])
      refine ⟨inner, .of_itemsOf hitems hinner .here, fun horder => ?_⟩
      cases hfind : Json.find? "name" inner with
      | none =>
        rw [hfind] at heq
        rw [← heq] at hname
        cases hname
      | some w =>
        rw [hfind] at heq
        have hscalar := horder.name w hfind
        rw [show w = name from heq, hname] at hscalar
        cases hscalar
    · obtain ⟨inner, hinner, heq⟩ := object_of_name hargs (firstClash?_repeated_mem hclash)
      have hwritten := isWritable_entry (isWritable_item hv hitems _ hinner) "name"
      rw [heq, hunwritable] at hwritten
      cases hwritten

theorem StuckDestination.disorder {v : Json} (h : StuckDestination applicationId v)
    (happlication : applicationId.isWritable = true) (hv : v.isWritable = true) :
    ∃ fields, Occurs (.object fields) v ∧ ¬InOrder fields := by
  induction h with
  | id hid h =>
    have hwritten := Json.isWritable_of_find? hv hid
    exact nomatch hwritten.symm.trans (h.not_isWritable happlication)
  | actions _ hlist => exact ⟨_, .here, fun horder => horder.actions hlist⟩
  | nested _ _ hlist => exact ⟨_, .here, fun horder => horder.nested hlist⟩
  | action _ hbefore hstuck =>
    obtain ⟨fields, hoccurs, horder⟩ := hstuck.disorder happlication (hbefore.isWritable hv)
    obtain ⟨inner, rfl⟩ := hstuck.object
    exact ⟨fields, .of_reaches hbefore hoccurs, horder⟩
  | destination _ _ hbefore hstuck ih =>
    obtain ⟨fields, hoccurs, horder⟩ := ih (hbefore.isWritable hv)
    obtain ⟨inner, rfl⟩ := object_of_isStuck (destinationOf_isStuck.mpr hstuck)
    exact ⟨fields, .of_reaches hbefore hoccurs, horder⟩

theorem Occurs.of_destinationList {v w document : Json} {list : List Json}
    (h : destinationList document = .ok list) (hmem : w ∈ list) (hv : Occurs v w) :
    Occurs v document := by
  unfold destinationList at h
  split at h
  · cases h
    exact .item hmem hv
  · obtain ⟨fields, hfields, h⟩ := bind_ok.mp h
    rw [fieldsOf_ok.mp hfields]
    split at h
    · cases h
      cases hmem
    next hfind =>
      cases h
      exact .entry hfind (.item hmem hv)
    · cases h

theorem isWritable_of_destinationList {v document : Json} {list : List Json}
    (h : destinationList document = .ok list) (hdocument : document.isWritable = true)
    (hv : v ∈ list) : v.isWritable = true := by
  unfold destinationList at h
  split at h
  · cases h
    exact Json.isWritable_of_mem hdocument hv
  · obtain ⟨fields, hfields, h⟩ := bind_ok.mp h
    rw [fieldsOf_ok.mp hfields] at hdocument
    split at h
    · cases h
      cases hv
    next hfind =>
      cases h
      exact Json.isWritable_of_mem (Json.isWritable_of_find? hdocument hfind) hv
    · cases h

/-- Reading a document without overlong integers gets stuck only at an object that is not in
order. -/
theorem StuckDocument.disorder {document : Json} (h : StuckDocument applicationId document)
    (happlication : applicationId.isWritable = true) (hdocument : document.isWritable = true) :
    ∃ fields, Occurs (.object fields) document ∧ ¬InOrder fields := by
  obtain ⟨before, v, after, -, hlist, -, hstuck⟩ := h
  have hv := isWritable_of_destinationList hlist hdocument (v := v) (by simp)
  obtain ⟨fields, hoccurs, horder⟩ := hstuck.disorder happlication hv
  exact ⟨fields, .of_destinationList hlist (by simp) hoccurs, horder⟩

end Document

/-! ### Places of faults -/

theorem Location.isWritable_within {inner outer : Location} (hinner : inner.isWritable = true)
    (houter : outer.isWritable = true) : (inner.within outer).isWritable = true := by
  rw [isWritable, Bool.and_eq_true] at hinner houter ⊢
  constructor
  · show (inner.destination <|> outer.destination).all Json.isWritable = true
    cases hd : inner.destination with
    | none => exact houter.1
    | some name =>
      rw [hd] at hinner
      exact hinner.1
  · show (inner.argument <|> outer.argument).all Json.isWritable = true
    cases ha : inner.argument with
    | none => exact houter.2
    | some name =>
      rw [ha] at hinner
      exact hinner.2

theorem Location.atDestination_isWritable {name : Json} (h : name.isWritable = true) :
    (atDestination name).isWritable = true := by
  rw [isWritable, Bool.and_eq_true]
  exact ⟨h, rfl⟩

/-- If the fault is a model fault, the names of its place can be written. -/
def GraphFault.ShowsPlace : GraphFault → Prop
  | model e => e.location.isWritable = true
  | kind _ => True

namespace GraphFault.ShowsPlace

variable {α : Type}

theorem of_part (r : Except PartFault α) :
    FailsWith ShowsPlace (r.mapError PartFault.unlocated) :=
  .mapError_all r fun f => by
    cases f with
    | model f => rfl
    | kind k => trivial

theorem within {r : Except GraphFault α} (hr : FailsWith ShowsPlace r) {outer : Location}
    (houter : outer.isWritable = true) :
    FailsWith ShowsPlace (r.mapError (GraphFault.within outer)) :=
  hr.mapError fun f hf => by
    cases f with
    | model e => exact Location.isWritable_within hf houter
    | kind k => trivial

end GraphFault.ShowsPlace

namespace Document

variable {applicationId : Json}

theorem located_isWritable {at' : Json → Location} {name : Json}
    (hat : (at' name).isWritable = true) : (located at' name).isWritable = true := by
  unfold located
  split
  · exact hat
  · rfl

theorem argumentOf_showsPlace {v : Json} (hv : v.isWritable = true) :
    FailsWith GraphFault.ShowsPlace (argumentOf v) := by
  refine .bind (.mapError_all _ fun _ => rfl) fun fields hfields => ?_
  obtain rfl := fieldsOf_ok.mp (mapError_ok.mp hfields)
  have hname : ((Json.find? "name" fields).getD (.text [])).isWritable = true :=
    isWritable_entry hv "name"
  refine GraphFault.ShowsPlace.within ?_ (located_isWritable hname)
  split
  · exact .error rfl
  refine .bind (GraphFault.ShowsPlace.of_part _) fun type _ => ?_
  refine .bind (GraphFault.ShowsPlace.of_part _) fun default _ => ?_
  unfold ActionArgument.make
  split
  · cases default with
    | none => exact .ok _
    | some t => exact .ok _
  · exact .error rfl

theorem make_showsPlace {id : ResourceId} {destination : Option ResourceId}
    {args : List ActionArgument} :
    FailsWith GraphFault.ShowsPlace (Action.make id destination args) := by
  unfold Action.make
  split
  · exact .ok _
  next name _ =>
    refine .error ?_
    -- Where the name cannot be written, there is no message and so no model fault.
    cases hwritable : name.isWritable with
    | false => simp [PartFault.refuse, ModelFault.isWritable, hwritable, PartFault.located,
        GraphFault.ShowsPlace]
    | true =>
      rw [PartFault.refuse, ModelFault.isWritable, if_pos hwritable]
      exact hwritable
  · exact .error trivial

theorem itemsOf_showsPlace (key : Text) (fields : List (Text × Json)) :
    FailsWith GraphFault.ShowsPlace (itemsOf key fields) := by
  intro f hf
  rw [(itemsOf_error.mp hf).2]
  trivial

theorem actionOf_showsPlace {v : Json} (hv : v.isWritable = true) :
    FailsWith GraphFault.ShowsPlace (actionOf applicationId v) := by
  refine .bind (.mapError_all _ fun _ => rfl) fun fields hfields => ?_
  obtain rfl := fieldsOf_ok.mp (mapError_ok.mp hfields)
  refine .bind (GraphFault.ShowsPlace.of_part _) fun found _ => ?_
  cases found with
  | none => exact .error rfl
  | some id =>
    refine GraphFault.ShowsPlace.within (.bind (itemsOf_showsPlace _ _) fun items hitems => ?_) rfl
    have hargs := FailsWith.mapM fun a ha => argumentOf_showsPlace (isWritable_item hv hitems a ha)
    refine hargs.bind fun args _ => ?_
    exact .bind (GraphFault.ShowsPlace.of_part _) fun destination _ => make_showsPlace

/-- What a destination has before its actions comes under a name that can be written. -/
theorem headOf_named (applicationId : Json) {fields : List (Text × Json)}
    (hfields : (Json.object fields).isWritable = true) :
    ∃ name, name.isWritable = true ∧ headOf applicationId fields =
      match idOf .destinationId applicationId (Json.find? "id" fields) with
      | .ok id => .ok ⟨name, id⟩
      | .error f => .error (f.located (located .atDestination name)) := by
  refine ⟨_, ?_, rfl⟩
  cases hfind : Json.find? "name" fields with
  | none => rfl
  | some v =>
    dsimp only
    split
    · exact Json.isWritable_of_find? hfields hfind
    · rfl

theorem headOf_showsPlace (applicationId : Json) {fields : List (Text × Json)}
    (hfields : (Json.object fields).isWritable = true) :
    FailsWith GraphFault.ShowsPlace (headOf applicationId fields) ∧
      ∀ head, headOf applicationId fields = .ok head →
        (labelOf head.name head.id).isWritable = true := by
  obtain ⟨name, hname, hhead⟩ := headOf_named applicationId hfields
  have hplace := Location.atDestination_isWritable hname
  rw [hhead]
  cases idOf .destinationId applicationId (Json.find? "id" fields) with
  | ok found =>
    refine ⟨.ok _, fun head hhead => ?_⟩
    cases hhead
    unfold labelOf
    split
    · exact hplace
    · cases found with
      | none => rfl
      | some id => exact Location.atDestination_isWritable rfl
  | error f =>
    refine ⟨.error ?_, nofun⟩
    cases f with
    | model f => exact located_isWritable hplace
    | kind k => trivial

theorem destinationOf_showsPlace {v : Json} (hv : v.isWritable = true) :
    FailsWith GraphFault.ShowsPlace (destinationOf applicationId v) := by
  induction hn : sizeOf v using Nat.strongRecOn generalizing v with
  | ind n ih =>
    have hnone (w : Json) (hw : ∀ fields, w ≠ .object fields) :
        FailsWith GraphFault.ShowsPlace (destinationOf applicationId w) := by
      rw [destinationOf]
      · exact .error rfl
      · exact hw
    by_cases hobject : ∃ fields, v = .object fields
    · obtain ⟨fields, rfl⟩ := hobject
      obtain ⟨hhead, hlabel⟩ := headOf_showsPlace applicationId hv
      rw [destinationOf]
      refine .bind hhead fun head heq => GraphFault.ShowsPlace.within ?_ (hlabel head heq)
      refine .bind (itemsOf_showsPlace _ _) fun items hitems => ?_
      refine .bind (.mapM fun a ha => actionOf_showsPlace (isWritable_item hv hitems a ha))
        fun actions _ => .bind ?_ fun nested _ => .ok _
      rw [nestedIn_eq]
      refine .bind (itemsOf_showsPlace _ _) fun items hitems => .mapM fun d hd => ?_
      by_cases hinner : ∃ inner, d = .object inner
      · obtain ⟨inner, rfl⟩ := hinner
        have hsmaller := sizeOf_lt_of_itemsOf hitems hd
        exact ih _ (hn ▸ hsmaller) (isWritable_item hv hitems _ hd) rfl
      · exact hnone d fun inner h => hinner ⟨inner, h⟩
    · exact hnone v fun fields h => hobject ⟨fields, h⟩

theorem ofDocument_showsPlace {document : Json} (hdocument : document.isWritable = true) :
    FailsWith GraphFault.ShowsPlace (NavigationGraph.ofDocument document applicationId) := by
  refine .bind (.mapError_all _ fun _ => rfl) fun items hitems => ?_
  refine .bind ?_ fun destinations _ => .ok _
  rw [destinationsOf_eq]
  exact .mapM fun d hd => destinationOf_showsPlace
    (isWritable_of_destinationList (mapError_ok.mp hitems) hdocument hd)

/-! ### Reports -/

/-- A document is read, or a fault is found in it that can be reported with its place. -/
structure IsReported (applicationId document : Json) : Prop where
  free : ¬StuckDocument applicationId document
  placed : FailsWith GraphFault.ShowsPlace (NavigationGraph.ofDocument document applicationId)

theorem isReported_iff {document : Json} :
    IsReported applicationId document ↔
      (∃ g, NavigationGraph.ofDocument document applicationId = .ok g) ∨
        ∃ e, NavigationGraph.ofDocument document applicationId = .error (.model e) ∧
          e.location.isWritable = true := by
  constructor
  · rintro ⟨hfree, hplaced⟩
    rcases ofDocument_iff.mpr hfree with hg | ⟨e, he⟩
    · exact .inl hg
    · exact .inr ⟨e, he, hplaced (.model e) he⟩
  · rintro (⟨g, hg⟩ | ⟨e, he, hwritable⟩)
    · exact ⟨ofDocument_iff.mp (.inl ⟨g, hg⟩), hg ▸ .ok g⟩
    · exact ⟨ofDocument_iff.mp (.inr ⟨e, he⟩), he ▸ .error hwritable⟩

theorem written_isOk {e : ModelError} :
    (∃ t, e.written = .ok t) ↔ e.location.isWritable = true := by
  unfold ModelError.written
  split
  next h => exact iff_of_true ⟨_, rfl⟩ h
  next h => exact iff_of_false nofun h

theorem graphOfSource_ok {document : Json} {source : Text} {g : NavigationGraph} :
    graphOfSource document source applicationId = .ok g ↔
      NavigationGraph.ofDocument document applicationId = .ok g := mapError_ok

theorem graphOfSource_reported {document : Json} {source : Text} {e : ModelError} :
    graphOfSource document source applicationId = .error (.reported (.invalidGraph source e)) ↔
      NavigationGraph.ofDocument document applicationId = .error (.model e) ∧
        e.location.isWritable = true := by
  unfold graphOfSource
  rw [mapError_error, ← written_isOk]
  constructor
  · rintro ⟨f, hf, heq⟩
    cases f with
    | model e' =>
      dsimp only at heq
      split at heq
      next t ht =>
        cases heq
        exact ⟨hf, t, ht⟩
      next => cases heq
    | kind k => cases heq
  · rintro ⟨h, t, ht⟩
    exact ⟨.model e, h, by simp only [ht]⟩

theorem generate_ne_document {s : Settings} {g : NavigationGraph} {e : ModelError} :
    s.generate g ≠ .ok (.error (.document e)) := by
  intro h
  obtain ⟨style, -, h⟩ := bind_ok.mp h
  obtain ⟨warnings, -, h⟩ := bind_ok.mp h
  split at h
  · cases h
  · obtain ⟨_, -, h⟩ := map_ok.mp h
    cases h
  · cases h

theorem generateDocument_document {s : Settings} {document : Json} {e : ModelError} :
    s.generateDocument document = .ok (.error (.document e)) ↔
      (∃ style, s.sourceStyle = .ok style) ∧
        NavigationGraph.ofDocument document s.applicationId = .error (.model e) ∧
          e.location.isWritable = true := by
  rw [← written_isOk]
  constructor
  · intro h
    obtain ⟨style, hstyle, h⟩ := bind_ok.mp h
    split at h
    · exact absurd h generate_ne_document
    next e' hdocument =>
      obtain ⟨t, ht, h⟩ := map_ok.mp h
      cases h
      exact ⟨⟨style, mapError_ok.mp hstyle⟩, hdocument, t, mapError_ok.mp ht⟩
    · cases h
  · rintro ⟨⟨style, hstyle⟩, hdocument, t, ht⟩
    refine bind_ok.mpr ⟨style, mapError_ok.mpr hstyle, ?_⟩
    rw [hdocument]
    exact map_ok.mpr ⟨t, mapError_ok.mpr ht, rfl⟩

/-- A document gives a graph or a model error exactly when reading it does not get stuck.  It never
does where all objects are in order and no integer has too many digits to be written, and then the
place of a fault can be shown as well.  Where it can, and only there, loading the document fails with
nothing but a report about the graph, and a generation in a usable style answers a document without
a graph with a failure. -/
theorem document_reported_iff (document applicationId : Json) :
    (((∃ g, NavigationGraph.ofDocument document applicationId = .ok g) ∨
        ∃ e, NavigationGraph.ofDocument document applicationId = .error (.model e)) ↔
      ¬StuckDocument applicationId document) ∧
    (applicationId.isWritable = true → document.isWritable = true →
      (∀ fields, Occurs (.object fields) document → InOrder fields) →
      IsReported applicationId document) ∧
    (∀ source, ((∃ g, graphOfSource document source applicationId = .ok g) ∨
        ∃ e, graphOfSource document source applicationId =
          .error (.reported (.invalidGraph source e))) ↔
      IsReported applicationId document) ∧
    ∀ s : Settings, (∃ e, s.generateDocument document = .ok (.error (.document e))) ↔
      (∃ style, s.sourceStyle = .ok style) ∧
        (∀ g, NavigationGraph.ofDocument document s.applicationId ≠ .ok g) ∧
        IsReported s.applicationId document := by
  refine ⟨ofDocument_iff, fun happlication hdocument horder => ⟨fun hstuck => ?_, ?_⟩,
    fun source => ?_, fun s => ?_⟩
  · obtain ⟨fields, hoccurs, hfields⟩ := hstuck.disorder happlication hdocument
    exact hfields (horder fields hoccurs)
  · exact ofDocument_showsPlace hdocument
  · simp only [graphOfSource_ok, graphOfSource_reported]
    exact isReported_iff.symm
  · simp only [generateDocument_document, isReported_iff]
    constructor
    · rintro ⟨e, hstyle, hdocument, hplaced⟩
      refine ⟨hstyle, fun g hg => ?_, .inr ⟨e, hdocument, hplaced⟩⟩
      rw [hdocument] at hg
      cases hg
    · rintro ⟨hstyle, hnone, ⟨g, hg⟩ | ⟨e, hdocument, hplaced⟩⟩
      · exact absurd hg (hnone g)
      · exact ⟨e, hstyle, hdocument, hplaced⟩

/-- A destination whose actions are null stops the reading without a report. -/
theorem null_actions_get_stuck :
    NavigationGraph.ofDocument
      (.object [("destinations", .array
        [.object [("name", .text "app.Main"), ("actions", .null)]])]) (.text []) =
      .error (.kind .operand) := rfl

end Document
end NavDirections
