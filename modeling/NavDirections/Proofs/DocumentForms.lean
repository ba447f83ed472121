import NavDirections.Proofs.DocumentFaults
import NavDirections.Proofs.Traversal

/-!
# Documents that write a graph

A graph can be written as a document in several ways: what is absent may be left out, or stand there
as null or empty, and an id need not name the package of the application.  However a graph is
written, reading gives it back.
-/

namespace NavDirections

open Success

/-- Every type in the actions of the destination has a tag that a document can name. -/
def Destination.HasListedTypes (d : Destination) : Prop :=
  ∀ a ∈ d.actions, ∀ x ∈ a.args, x.type.tag ∈ TypeTag.all

namespace Document

/-- The entry for an id; in place of the application's package there may be nothing. -/
inductive IdForm (applicationId : Text) : Option ResourceId → Option Json → Prop
  | missing : IdForm applicationId none none
  | null : IdForm applicationId none (some .null)
  | full {id : ResourceId} {fields : List (Text × Json)}
      (hname : Json.find? "name" fields = some (.text id.name))
      (hpackage : Json.find? "package" fields = some (.text id.package)) :
      IdForm applicationId (some id) (some (.object fields))
  | own {id : ResourceId} {fields : List (Text × Json)}
      (hname : Json.find? "name" fields = some (.text id.name))
      (hpackage : ∀ v, Json.find? "package" fields = some v → v = .null ∨ v = .text [])
      (hown : id.package = applicationId) :
      IdForm applicationId (some id) (some (.object fields))

inductive ListForm : List Json → Option Json → Prop
  | missing : ListForm [] none
  | array (items : List Json) : ListForm items (some (.array items))

inductive NameForm : Json → Option Json → Prop
  | given {name : Json} (h : name.isGiven = true) : NameForm name (some name)
  | absent {entry : Option Json} (h : ∀ v, entry = some v → v = .null ∨ v = .text []) :
      NameForm (.text []) entry

inductive DefaultForm : Option Text → Option Json → Prop
  | missing : DefaultForm none none
  | null : DefaultForm (some nullText) (some .null)
  | text (t : Text) : DefaultForm (some t) (some (.text t))

structure ArgumentForm (x : ActionArgument) (fields : List (Text × Json)) : Prop where
  name : Json.find? "name" fields = some x.name
  type : Json.find? "type" fields = some (.text x.type.spelling)
  listed : x.type.tag ∈ TypeTag.all
  className : Json.find? "class" fields = some (.text x.type.className) ∨
    x.type.className = [] ∧ Json.find? "class" fields = none
  default : DefaultForm x.default (Json.find? "default" fields)

inductive ActionForm (applicationId : Text) : Action → Json → Prop
  | object {a : Action} {fields : List (Text × Json)} {items : List Json}
      (hid : IdForm applicationId (some a.id) (Json.find? "id" fields))
      (hdestination : IdForm applicationId a.destination (Json.find? "destination" fields))
      (hitems : ListForm items (Json.find? "arguments" fields))
      (hargs : List.Forall₂ (fun x v => ∃ inner, v = .object inner ∧ ArgumentForm x inner)
        a.args items) :
      ActionForm applicationId a (.object fields)

inductive DestinationForm (applicationId : Text) : Destination → Json → Prop
  | object {d : Destination} {fields : List (Text × Json)} {actions nested : List Json}
      (hname : NameForm d.name (Json.find? "name" fields))
      (hid : IdForm applicationId d.id (Json.find? "id" fields))
      (hactions : ListForm actions (Json.find? "actions" fields))
      (hnested : ListForm nested (Json.find? "nested" fields))
      (hactionForms : List.Forall₂ (ActionForm applicationId) d.actions actions)
      (hnestedForms : List.Forall₂ (DestinationForm applicationId) d.nested nested) :
      DestinationForm applicationId d (.object fields)

/-- A list of values that writes the destinations of a graph. -/
def GraphForm (applicationId : Text) (g : NavigationGraph) (items : List Json) : Prop :=
  List.Forall₂ (DestinationForm applicationId) g.destinations items

variable {applicationId : Text}

theorem itemsOf_of_form {key : Text} {fields : List (Text × Json)} {list : List Json}
    (h : ListForm list (Json.find? key fields)) : itemsOf key fields = .ok list := by
  unfold itemsOf
  cases hfind : Json.find? key fields with
  | none =>
    rw [hfind] at h
    cases h
    rfl
  | some v =>
    rw [hfind] at h
    cases h
    rfl

theorem make_id (id : ResourceId) : ResourceId.make id.package id.name = .ok id := by
  rw [ResourceId.make, dif_neg id.name_ne, dif_neg id.package_ne]

theorem idOf_object {part : DocumentPart} {fields : List (Text × Json)} {id : ResourceId}
    (hname : Json.find? "name" fields = some (.text id.name))
    (hpackage : packageValue applicationId fields = .text id.package) :
    idOf part applicationId (some (.object fields)) = .ok (some id) := by
  have hne : id.package.isEmpty = false := by simpa using id.package_ne
  refine bind_ok.mpr ⟨fields, rfl, ?_⟩
  rw [hname]
  refine bind_ok.mpr ⟨id.package, by rw [hpackage]; rfl, ?_⟩
  rw [if_neg (by rw [hne]; exact Bool.false_ne_true)]
  exact bind_ok.mpr ⟨id.name, rfl, by rw [make_id]; rfl⟩

theorem idOf_of_form {id : Option ResourceId} {entry : Option Json}
    (h : IdForm applicationId id entry) (part : DocumentPart) :
    idOf part applicationId entry = .ok id := by
  cases h with
  | missing => rfl
  | null => rfl
  | @full id fields hname hpackage =>
    have hgiven : (Json.text id.package).isGiven = true := by
      simpa [Json.isGiven] using id.package_ne
    refine idOf_object hname ?_
    simp only [packageValue, hpackage, Option.filter, hgiven, if_true, Option.getD_some]
  | @own id fields hname hpackage hown =>
    refine idOf_object hname ?_
    rw [hown]
    unfold packageValue
    cases hfind : Json.find? "package" fields with
    | none => rfl
    | some v =>
      rcases hpackage v hfind with rfl | rfl
      · rfl
      · rfl

theorem ofSpelling?_spelling {t : ArgumentType} (h : t.tag ∈ TypeTag.all) :
    ArgumentType.ofSpelling? t.spelling t.className = some t := by
  obtain ⟨tag, isArray, className⟩ := t
  cases tag with
  | unlisted name => simp [TypeTag.all] at h
  | integer | long | float | boolean | string | reference | enumeration | parcelable
    | serializable =>
    cases isArray with
    | true => rfl
    | false => rfl

theorem typeOf_of_form {x : ActionArgument} {fields : List (Text × Json)}
    (h : ArgumentForm x fields) : typeOf (.text x.type.spelling) fields = .ok x.type := by
  have hspelling := ofSpelling?_spelling h.listed
  have hclass : (Json.find? "class" fields).getD (.text []) = .text x.type.className := by
    rcases h.className with hfind | ⟨hnone, hfind⟩
    · rw [hfind, Option.getD_some]
    · rw [hfind, hnone, Option.getD_none]
  refine bind_ok.mpr ⟨x.type.spelling, rfl, bind_ok.mpr ⟨x.type.className, ?_, ?_⟩⟩
  · rw [hclass]
    rfl
  · simp only [hspelling]

theorem make_argument (x : ActionArgument) :
    ActionArgument.make x.name x.type (x.default.map .text) = .ok x := by
  obtain ⟨name, type, default, hgiven⟩ := x
  unfold ActionArgument.make
  rw [dif_pos hgiven]
  cases default with
  | none => rfl
  | some t => rfl

theorem argumentOf_of_form {x : ActionArgument} {fields : List (Text × Json)}
    (h : ArgumentForm x fields) : argumentOf (.object fields) = .ok x := by
  have hmake := make_argument x
  have hdefault := h.default
  refine bind_ok.mpr ⟨fields, rfl, mapError_ok.mpr ?_⟩
  rw [h.name, h.type]
  refine bind_ok.mpr ⟨x.type, mapError_ok.mpr (typeOf_of_form h), ?_⟩
  refine bind_ok.mpr ⟨x.default, mapError_ok.mpr ?_, hmake⟩
  unfold defaultOf
  generalize Json.find? "default" fields = entry at hdefault
  generalize x.default = default at hdefault
  cases hdefault <;> rfl

/-- A list is read back from the forms of its members where each member is. -/
theorem mapM_of_forms {α ε : Type} {Form : α → Json → Prop} {read : Json → Except ε α}
    {xs : List α} {items : List Json} (h : List.Forall₂ Form xs items)
    (hread : ∀ x ∈ xs, ∀ v, Form x v → read v = .ok x) : items.mapM read = .ok xs := by
  rw [mapM_ok]
  induction h with
  | nil => exact .nil
  | @cons x v xs items hform _ ih =>
    have hrest := ih fun y hy => hread y (List.mem_cons_of_mem x hy)
    exact .cons (hread x List.mem_cons_self v hform) hrest

theorem make_action (a : Action) : Action.make a.id a.destination a.args = .ok a := by
  obtain ⟨id, destination, args, hdistinct⟩ := a
  unfold Action.make
  split
  · rfl
  next hclash =>
    rw [hdistinct] at hclash
    cases hclash
  next hclash =>
    rw [hdistinct] at hclash
    cases hclash

theorem actionOf_of_form {a : Action} {v : Json} (h : ActionForm applicationId a v) :
    actionOf applicationId v = .ok a := by
  obtain ⟨hid, hdestination, hitems, hargs⟩ := h
  have hread : ∀ x ∈ a.args, ∀ v, (∃ inner, v = .object inner ∧ ArgumentForm x inner) →
      argumentOf v = .ok x := by
    rintro x - _ ⟨inner, rfl, hform⟩
    exact argumentOf_of_form hform
  have hlist := mapM_of_forms hargs hread
  have hleads := idOf_of_form hdestination .actionDestination
  rw [actionOf_object (idOf_of_form hid .actionId), mapError_ok]
  refine bind_ok.mpr ⟨a.args, bind_ok.mpr ⟨_, itemsOf_of_form hitems, hlist⟩, ?_⟩
  exact bind_ok.mpr ⟨a.destination, mapError_ok.mpr hleads, make_action a⟩

theorem headOf_of_form {name : Json} {id : Option ResourceId} {fields : List (Text × Json)}
    (hname : NameForm name (Json.find? "name" fields))
    (hid : IdForm applicationId id (Json.find? "id" fields)) :
    headOf applicationId fields = .ok ⟨name, id⟩ := by
  have hread := idOf_of_form hid .destinationId
  unfold headOf
  generalize Json.find? "name" fields = entry at hname
  cases hname with
  | given hgiven => simp only [hread, hgiven, if_true]
  | absent habsent =>
    cases entry with
    | none => simp only [hread]
    | some v =>
      rcases habsent v rfl with rfl | rfl
      · simp only [hread, Json.isGiven, Bool.false_eq_true, if_false]
      · simp [hread, Json.isGiven]

theorem destinationOf_of_form {d : Destination} {v : Json} (h : DestinationForm applicationId d v) :
    destinationOf applicationId v = .ok d := by
  induction d using Destination.ind generalizing v with
  | step name id actions nested ih =>
    cases h with
    | @object _ fields actionItems nestedItems hname hid hactions hnested hactionForms
        hnestedForms =>
      -- Actions are read one by one, nested destinations by the induction hypothesis.
      have hacts := mapM_of_forms hactionForms fun _ _ _ => actionOf_of_form
      have hinside := mapM_of_forms hnestedForms fun e he _ => ih e he
      rw [destinationOf]
      refine bind_ok.mpr ⟨⟨name, id⟩, headOf_of_form hname hid, mapError_ok.mpr ?_⟩
      refine bind_ok.mpr ⟨actionItems, itemsOf_of_form hactions, bind_ok.mpr ⟨actions, hacts, ?_⟩⟩
      rw [nestedIn_eq]
      exact bind_ok.mpr ⟨nested, bind_ok.mpr ⟨nestedItems, itemsOf_of_form hnested, hinside⟩, rfl⟩

/-! ### Writing -/

/-- What stands for the application's own package in an id. -/
inductive OwnPackage where
  | omitted
  | null
  | empty

def OwnPackage.entries : OwnPackage → List (Text × Json)
  | omitted => []
  | null => [("package", .null)]
  | empty => [("package", .text [])]

def writeId (own : OwnPackage) (applicationId : Text) (id : ResourceId) : Json :=
  .object (("name", .text id.name) ::
    if id.package = applicationId then own.entries else [("package", .text id.package)])

def writeOptionalId (own : OwnPackage) (applicationId : Text) (key : Text) :
    Option ResourceId → List (Text × Json)
  | none => []
  | some id => [(key, writeId own applicationId id)]

def writeDefault : Option Text → List (Text × Json)
  | none => []
  | some t => [("default", if t = nullText then .null else .text t)]

def writeArgument (x : ActionArgument) : Json :=
  .object (("name", x.name) :: ("type", .text x.type.spelling) ::
    ("class", .text x.type.className) :: writeDefault x.default)

def writeAction (own : OwnPackage) (applicationId : Text) (a : Action) : Json :=
  .object (("id", writeId own applicationId a.id) ::
    ("arguments", .array (a.args.map writeArgument)) ::
    writeOptionalId own applicationId "destination" a.destination)

mutual

def writeDestination (own : OwnPackage) (applicationId : Text) : Destination → Json
  | ⟨name, id, actions, nested⟩ =>
    .object (("name", name) :: ("actions", .array (actions.map (writeAction own applicationId))) ::
      ("nested", .array (writeAll own applicationId nested)) ::
      writeOptionalId own applicationId "id" id)

def writeAll (own : OwnPackage) (applicationId : Text) : List Destination → List Json
  | [] => []
  | d :: rest => writeDestination own applicationId d :: writeAll own applicationId rest

end

def write (own : OwnPackage) (applicationId : Text) (g : NavigationGraph) : List Json :=
  writeAll own applicationId g.destinations

section

variable (own : OwnPackage)

theorem writeAll_eq_map (ds : List Destination) :
    writeAll own applicationId ds = ds.map (writeDestination own applicationId) := by
  induction ds with
  | nil => rfl
  | cons d rest ih => rw [writeAll, ih, List.map_cons]

theorem form_writeId (id : ResourceId) :
    IdForm applicationId (some id) (some (writeId own applicationId id)) := by
  unfold writeId
  split
  next hown =>
    refine .own rfl ?_ hown
    intro v hfind
    cases own with
    | omitted => exact nomatch hfind
    | null => exact .inl (Option.some.inj hfind).symm
    | empty => exact .inr (Option.some.inj hfind).symm
  next => exact .full rfl rfl

theorem form_writeOptionalId {key : Text} (id : Option ResourceId) :
    IdForm applicationId id (Json.find? key (writeOptionalId own applicationId key id)) := by
  cases id with
  | none => exact .missing
  | some id =>
    rw [writeOptionalId, Json.find?, if_pos rfl]
    exact form_writeId own id

theorem form_writeDefault (default : Option Text) :
    DefaultForm default (Json.find? "default" (writeDefault default)) := by
  cases default with
  | none => exact .missing
  | some t =>
    rw [writeDefault, Json.find?, if_pos rfl]
    split
    next h => exact h ▸ .null
    next => exact .text t

theorem form_writeArgument {x : ActionArgument} (hlisted : x.type.tag ∈ TypeTag.all) :
    ∃ fields, writeArgument x = .object fields ∧ ArgumentForm x fields :=
  ⟨_, rfl,
    { name := rfl
      type := rfl
      listed := hlisted
      className := .inl rfl
      default := form_writeDefault x.default }⟩

theorem form_writeAction {a : Action} (hlisted : ∀ x ∈ a.args, x.type.tag ∈ TypeTag.all) :
    ActionForm applicationId a (writeAction own applicationId a) := by
  refine .object (form_writeId own a.id) (form_writeOptionalId own a.destination) (.array _) ?_
  rw [List.forall₂_map_right_iff, List.forall₂_same]
  exact fun x hx => form_writeArgument (hlisted x hx)

theorem form_name {name : Json} {t : Text} (h : name = .text t) : NameForm name (some name) := by
  subst h
  cases t with
  | nil => exact .absent fun v hv => .inr (Option.some.inj hv).symm
  | cons c rest => exact .given rfl

theorem form_writeDestination {d : Destination} (hnames : ∀ e ∈ d.walk, e.HasTextNames)
    (hlisted : ∀ e ∈ d.walk, e.HasListedTypes) :
    DestinationForm applicationId d (writeDestination own applicationId d) := by
  induction d using Destination.ind with
  | step name id actions nested ih =>
    obtain ⟨⟨t, hname⟩, -⟩ := hnames _ (Destination.mem_walk_self _)
    have htypes := hlisted _ (Destination.mem_walk_self _)
    rw [writeDestination, writeAll_eq_map]
    refine .object (form_name hname) (form_writeOptionalId own id) (.array _) (.array _) ?_ ?_
    · rw [List.forall₂_map_right_iff, List.forall₂_same]
      exact fun a ha => form_writeAction own (htypes a ha)
    · rw [List.forall₂_map_right_iff, List.forall₂_same]
      exact fun e he => ih e he (fun f hf => hnames f (Destination.mem_walk_of_nested he hf))
        fun f hf => hlisted f (Destination.mem_walk_of_nested he hf)

end

theorem form_write {g : NavigationGraph} (hnames : g.HasTextNames)
    (hlisted : ∀ d ∈ g.walk, d.HasListedTypes) (own : OwnPackage) :
    GraphForm applicationId g (write own applicationId g) := by
  rw [GraphForm, write, writeAll_eq_map, List.forall₂_map_right_iff, List.forall₂_same]
  intro d hd
  have hmem {e : Destination} (he : e ∈ d.walk) : e ∈ g.walk := NavigationGraph.mem_walk hd he
  exact form_writeDestination own (fun e he => hnames e (hmem he)) fun e he => hlisted e (hmem he)

theorem destinationsOf_of_form {g : NavigationGraph} {items : List Json}
    (h : GraphForm applicationId g items) :
    destinationsOf applicationId items = .ok g.destinations := by
  rw [destinationsOf_eq]
  exact mapM_of_forms h fun _ _ _ => destinationOf_of_form

end Document

/-- A graph is read back from every document that writes it, be it a bare list or an object with the
list under `destinations`; and whatever stands for the application's own package, writing the graph
gives such a document. -/
theorem NavigationGraph.ofDocument_of_form {g : NavigationGraph} (hnames : g.HasTextNames)
    (hlisted : ∀ d ∈ g.walk, d.HasListedTypes) (applicationId : Text) :
    (∀ items, Document.GraphForm applicationId g items →
      ofDocument (.array items) applicationId = .ok g ∧
      ∀ fields, Json.find? "destinations" fields = some (.array items) →
        ofDocument (.object fields) applicationId = .ok g) ∧
    ∀ own, Document.GraphForm applicationId g (Document.write own applicationId g) := by
  refine ⟨fun items hform => ?_, fun own => Document.form_write hnames hlisted own⟩
  have hread := Document.destinationsOf_of_form hform
  have hgraph {document : Json} (hlist : Document.destinationList document = .ok items) :
      ofDocument document applicationId = .ok g :=
    bind_ok.mpr ⟨items, mapError_ok.mpr hlist, bind_ok.mpr ⟨g.destinations, hread, rfl⟩⟩
  refine ⟨hgraph rfl, fun fields hfind => hgraph ?_⟩
  simp only [Document.destinationList, Document.fieldsOf, bind, Except.bind, hfind]

/-- A screen with a nested one, and an action that takes one argument of each kind. -/
def mainScreen : NavigationGraph :=
  let show' : Action :=
    ⟨⟨"com.example.app", "next", by decide, by decide⟩,
      some ⟨"com.example.lib", "details", by decide, by decide⟩,
      [⟨.text "itemId", ⟨.integer, false, []⟩, none, rfl⟩,
        ⟨.text "color", ⟨.enumeration, false, "com.example.Color"⟩, some "RED", rfl⟩,
        ⟨.text "tags", ⟨.string, true, []⟩, some nullText, rfl⟩], by decide⟩
  let about : Destination :=
    ⟨.text [], some ⟨"com.example.app", "about", by decide, by decide⟩, [], []⟩
  ⟨[⟨.text ".MainFragment", none, [show'], [about]⟩]⟩

theorem mainScreen_is_read_back :
    NavigationGraph.ofDocument (.array (Document.write .null "com.example.app" mainScreen))
      "com.example.app" = .ok mainScreen := by
  have hwalk : mainScreen.walk =
      mainScreen.destinations ++ mainScreen.destinations.flatMap (·.nested) := rfl
  have hnames : mainScreen.HasTextNames := by
    rw [NavigationGraph.HasTextNames, hwalk]
    simp [mainScreen, Destination.HasTextNames, Action.HasTextNames]
  have hlisted : ∀ d ∈ mainScreen.walk, d.HasListedTypes := by
    rw [hwalk]
    simp [mainScreen, Destination.HasListedTypes, TypeTag.all]
  obtain ⟨hread, hwrite⟩ := NavigationGraph.ofDocument_of_form hnames hlisted "com.example.app"
  exact (hread _ (hwrite .null)).1

end NavDirections
