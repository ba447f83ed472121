import NavDirections.Proofs.ImportSection
import NavDirections.Proofs.ShownTypes

/-!
# Registering types before printing

A class that is printed asks for the spelling of each type when it comes to it, and an answer may
change the imports of the file.  All types of the class are registered first, so that no answer
does: the file is the one whose imports and spellings were settled before, and of a class that
describes directions nothing is imported but what it shows.
-/

namespace NavDirections

open Success

namespace Imports

variable {t : Imports} {type : TypeName} {types : List TypeName}

/-- The class that the type is, or is an array of, has its spelling. -/
def Spells (t : Imports) (type : TypeName) : Prop :=
  ∀ c, type.class? = some c → ∃ spelling, t.spelling? c = some spelling

theorem Spells.add_eq (h : t.Spells type) : t.add type = t := by
  unfold add
  split
  next c hc =>
    obtain ⟨spelling, hs⟩ := h c hc
    simp [addClass, hs]
  · rfl

theorem Spells.name_eq (h : t.Spells type) : t.name type = (t, t.spell type) := by
  rw [name, h.add_eq]

theorem add_step (t : Imports) (type : TypeName) : Extends t (t.add type) := by
  have h := next_extends t (.request (.add type))
  rwa [next_request] at h

theorem spells_add (t : Imports) (type : TypeName) : (t.add type).Spells type := by
  intro c hc
  simpa only [add, hc] using (addClass_step t c).spelled

theorem addAll_extends (t : Imports) (types : List TypeName) : Extends t (t.addAll types) := by
  induction types generalizing t with
  | nil => exact Extends.refl t
  | cons type types ih => exact (add_step t type).trans (ih (t.add type))

theorem spells_addAll (t : Imports) (h : type ∈ types) : (t.addAll types).Spells type := by
  induction types generalizing t with
  | nil => cases h
  | cons first types ih =>
    rcases List.mem_cons.mp h with rfl | h
    · intro c hc
      obtain ⟨spelling, hs⟩ := spells_add t type c hc
      exact ⟨spelling, (addAll_extends (t.add type) types).spelling hs⟩
    · exact ih (t.add first) h

theorem imported_add {name : Text} (h : name ∈ (t.add type).imported) :
    name ∈ t.imported ∨ ∃ c, type.class? = some c ∧ c.canonical = name := by
  unfold add at h
  split at h
  next c hc =>
    have hadded := addClass_step t c
    generalize t.addClass c = later at h hadded
    cases hadded with
    | known => exact .inl h
    | full => exact .inl h
    | short =>
      dsimp only at h
      split at h
      · exact .inl h
      · rcases mem_insertName.mp h with heq | h
        · exact .inr ⟨c, hc, heq.symm⟩
        · exact .inl h
  · exact .inl h

theorem imported_addAll {name : Text} (h : name ∈ (t.addAll types).imported) :
    name ∈ t.imported ∨ ∃ type ∈ types, ∃ c, type.class? = some c ∧ c.canonical = name := by
  induction types generalizing t with
  | nil => exact .inl h
  | cons first types ih =>
    rcases ih h with h | ⟨type, htype, hc⟩
    · rcases imported_add h with h | hc
      · exact .inl h
      · exact .inr ⟨first, List.mem_cons_self, hc⟩
    · exact .inr ⟨type, List.mem_cons_of_mem first htype, hc⟩

end Imports

/-- The types that an argument brings into a slot. -/
def SlotLetter.typesOf : SlotLetter → SlotValue → List TypeName
  | .type, a => a.type?.toList
  | .name, _ | .literal, _ | .string, _ => []

theorem SlotLetter.filterMap_type? (letter : SlotLetter) (a : SlotValue) (others : List SlotValue) :
    (if letter = .type then a :: others else others).filterMap SlotValue.type? =
      letter.typesOf a ++ others.filterMap SlotValue.type? := by
  cases letter with
  | type =>
    rw [if_pos rfl, List.filterMap_cons, typesOf]
    cases a.type? <;> rfl
  | name | literal | string => rfl

/-- Printing asks for types in the given order, and for all of them unless it fails.  Where these
have their spellings in the imports `t`, it gives the result `y` and leaves the imports alone. -/
def Keeps {ε α : Type} (t : Imports) (types : List TypeName) (x : StateM Journal (Except ε α))
    (y : Except ε α) : Prop :=
  ∀ j : Journal, ∃ result later new, x.run j = (result, ⟨later, j.asked ++ new⟩) ∧ new <+: types ∧
    (∀ a, result = .ok a → new = types) ∧
      ((∀ type ∈ types, t.Spells type) → j.imports = t → result = y ∧ later = t)

namespace Keeps

variable {ε ε' α β : Type} {t : Imports} {types rest : List TypeName}

theorem ok (a : α) : Keeps t [] (pure (.ok a) : StateM Journal (Except ε α)) (.ok a) := by
  intro j
  refine ⟨.ok a, j.imports, [], ?_, List.prefix_rfl, fun _ _ => rfl, fun _ hj => ⟨rfl, hj⟩⟩
  rw [List.append_nil]
  rfl

theorem error (e : ε) :
    Keeps t types (pure (.error e) : StateM Journal (Except ε α)) (.error e) := by
  intro j
  refine ⟨.error e, j.imports, [], ?_, List.nil_prefix, nofun, fun _ hj => ⟨rfl, hj⟩⟩
  rw [List.append_nil]
  rfl

theorem ask (type : TypeName) :
    Keeps t [type] (.ok <$> Journal.ask type : StateM Journal (Except ε Text))
      (.ok (t.spell type)) := by
  intro j
  refine ⟨_, _, [type], rfl, List.prefix_rfl, fun _ _ => rfl, fun htypes hj => ?_⟩
  have hname := (htypes type (List.mem_singleton_self type)).name_eq
  rw [hj, hname]
  exact ⟨rfl, rfl⟩

theorem run_bind (x : ExceptT ε (StateM Journal) α) (f : α → ExceptT ε (StateM Journal) β)
    (j : Journal) : (x >>= f).run.run j = match x.run.run j with
      | (.ok a, later) => (f a).run.run later
      | (.error e, later) => (.error e, later) := by
  rw [ExceptT.run_bind, StateT.run_bind]
  rcases x.run.run j with ⟨result, later⟩
  cases result <;> rfl

theorem bind {x : ExceptT ε (StateM Journal) α} {f : α → ExceptT ε (StateM Journal) β}
    {y : Except ε α} {g : α → Except ε β} (hx : Keeps t types x.run y)
    (hf : ∀ a, Keeps t rest (f a).run (g a)) :
    Keeps t (types ++ rest) (x >>= f).run (y >>= g) := by
  intro j
  obtain ⟨result, later, new, hrun, hprefix, hall, hsettled⟩ := hx j
  cases result with
  | error e =>
    refine ⟨.error e, later, new, by rw [run_bind, hrun],
      hprefix.trans (List.prefix_append types rest), nofun, fun htypes hj => ?_⟩
    obtain ⟨rfl, hlater⟩ := hsettled (fun type h => htypes type (List.mem_append_left rest h)) hj
    exact ⟨rfl, hlater⟩
  | ok a =>
    obtain rfl := hall a rfl
    obtain ⟨result, last, more, hmore, hmorePrefix, hmoreAll, hmoreSettled⟩ :=
      hf a ⟨later, j.asked ++ new⟩
    refine ⟨result, last, new ++ more, ?_, (List.prefix_append_right_inj new).mpr hmorePrefix,
      fun b hb => by rw [hmoreAll b hb], fun htypes hj => ?_⟩
    · rw [run_bind, hrun, ← List.append_assoc]
      exact hmore
    · obtain ⟨rfl, hlater⟩ := hsettled (fun type h => htypes type (List.mem_append_left rest h)) hj
      exact hmoreSettled (fun type h => htypes type (List.mem_append_right new h)) hlater

theorem bind_done {x : Printing α} {f : α → Printing β} {y : Except Breakdown α}
    {g : α → Except Breakdown β} (hx : Keeps t types x.run y)
    (hf : ∀ a, Keeps t [] (f a).run (g a)) : Keeps t types (x >>= f).run (y >>= g) := by
  rw [← List.append_nil types]
  exact hx.bind hf

/-- What comes next may look at the result of a step, as long as it leaves a failure alone. -/
theorem after {step : StateM Journal (Except ε α)} {y : Except ε α}
    {next : Except ε α → StateM Journal (Except ε β)} {g : α → Except ε β}
    (hstep : Keeps t types step y) (hfailed : ∀ e, next (.error e) = pure (.error e))
    (hnext : ∀ a, Keeps t rest (next (.ok a)) (g a)) :
    Keeps t (types ++ rest) (step >>= next) (y >>= g) := by
  have hbind := bind (x := ExceptT.mk step) (f := fun a => ExceptT.mk (next (.ok a))) hstep hnext
  rw [ExceptT.run_bind, ExceptT.run_mk] at hbind
  convert hbind using 3 with result
  cases result with
  | error e => exact hfailed e
  | ok a => rfl

theorem map {x : StateM Journal (Except ε α)} {y : Except ε α} (h : Keeps t types x y)
    {f : Except ε α → Except ε' β} (hf : ∀ r b, f r = .ok b → ∃ a, r = .ok a) :
    Keeps t types (f <$> x) (f y) := by
  intro j
  obtain ⟨result, later, new, hrun, hprefix, hall, hsettled⟩ := h j
  refine ⟨f result, later, new, ?_, hprefix, fun b hb => ?_, fun htypes hj => ?_⟩
  · rw [StateT.run_map, hrun]
    rfl
  · obtain ⟨a, ha⟩ := hf result b hb
    exact hall a ha
  · obtain ⟨rfl, hlater⟩ := hsettled htypes hj
    exact ⟨rfl, hlater⟩

theorem mapM {f : α → Printing β} {g : α → Except Breakdown β} {asks : α → List TypeName}
    {xs : List α} (h : ∀ x ∈ xs, Keeps t (asks x) (f x).run (g x)) :
    Keeps t (xs.flatMap asks) (xs.mapM f).run (xs.mapM g) := by
  induction xs with
  | nil => exact ok []
  | cons x xs ih =>
    rw [List.mapM_cons, List.mapM_cons, List.flatMap_cons]
    refine (h x List.mem_cons_self).bind fun b => ?_
    have hrest := ih fun x' hx' => h x' (List.mem_cons_of_mem x hx')
    exact hrest.bind_done fun bs => ok (b :: bs)

theorem mapM_one {f : α → Printing β} {g : α → Except Breakdown β} {type : α → TypeName}
    (h : ∀ x, Keeps t [type x] (f x).run (g x)) (xs : List α) :
    Keeps t (xs.map type) (xs.mapM f).run (xs.mapM g) := by
  rw [List.map_eq_flatMap]
  exact mapM fun x _ => h x

theorem mapM_one_ok {f : α → Printing β} {g : α → β} {type : α → TypeName}
    (h : ∀ x, Keeps t [type x] (f x).run (.ok (g x))) (xs : List α) :
    Keeps t (xs.map type) (xs.mapM f).run (.ok (xs.map g)) := by
  have hall : xs.mapM (fun x => (.ok (g x) : Except Breakdown β)) = .ok (xs.map g) := List.mapM_pure
  rw [← hall]
  exact mapM_one h xs

end Keeps

section Members

variable {t : Imports}

theorem keeps_fillSlot (letter : SlotLetter) (a : SlotValue) :
    Keeps t (letter.typesOf a) (letter.slot.fillWith Journal.askSlot a)
      (letter.slot.fill (.ok ∘ SourceStyle.slotText t.spell) a) := by
  have hresult (r : Except StatementFault Text) : Keeps t [] (pure r) r := by
    cases r with
    | ok text => exact .ok text
    | error fault => exact .error fault
  cases letter with
  | type =>
    rw [SlotLetter.typesOf, SlotLetter.slot, Slot.fillWith, Slot.fill, Journal.askSlot,
      Function.comp_apply, SourceStyle.slotText]
    cases a.type? with
    | none => exact .ok []
    | some type => exact .ask type
  | name | literal => exact hresult a.written
  | string => exact hresult (a.written.map fun _ => a.quoted)

theorem keeps_renderFrom (whole : Text) {format : Text} {args slots : List SlotValue}
    (htypes : Statement.typeArgumentsFrom format args = some slots) :
    Keeps t (slots.filterMap SlotValue.type?)
      (Statement.renderFromWith whole Journal.askSlot format args)
      (Statement.renderFrom whole (.ok ∘ SourceStyle.slotText t.spell) format args) := by
  -- text in front of what is rendered asks for nothing
  have htext {types : List TypeName} {x : StateM Journal (Except StatementFault Text)}
      {y : Except StatementFault Text} (c : Text) (h : Keeps t types x y) :
      Keeps t types ((·.map (c ++ ·)) <$> x) (y.map (c ++ ·)) :=
    h.map fun r b hb => by
      obtain ⟨a, ha, -⟩ := map_ok.mp hb
      exact ⟨a, ha⟩
  fun_induction Statement.renderFrom whole (.ok ∘ SourceStyle.slotText t.spell) format args
    generalizing slots with
  | case1 =>
    cases htypes
    exact .ok []
  | case2 | case3 | case4 => exact .error _
  | case5 c args hc ih =>
    rw [Statement.renderFromWith_text _ _ hc]
    rw [Statement.typeArgumentsFrom_text hc] at htypes
    exact htext [c] (ih htypes)
  | case6 rest args ih =>
    rw [Statement.renderFromWith_dollars]
    rw [Statement.typeArgumentsFrom_dollars] at htypes
    exact htext [CodePoint.ofChar '$'] (ih htypes)
  | case7 letter rest hletter =>
    rw [Statement.renderFromWith, if_pos rfl, if_neg hletter]
    exact .error _
  | case8 letter rest hletter a args hslot =>
    rw [Statement.renderFromWith, if_pos rfl, if_neg hletter, hslot]
    exact .error _
  | case9 letter rest hletter a args slot hslot ih =>
    obtain ⟨letter, rfl, rfl⟩ := SlotLetter.ofLetter?_eq_some_iff.mp hslot
    rw [Statement.typeArgumentsFrom_slot] at htypes
    obtain ⟨others, hothers, rfl⟩ := Option.map_eq_some_iff.mp htypes
    rw [Statement.renderFromWith_slot, SlotLetter.filterMap_type?]
    exact (keeps_fillSlot letter a).after (fun _ => rfl) fun shown => htext shown (ih hothers)
  | case10 c letter rest args hc ih =>
    rw [Statement.renderFromWith_text _ _ hc]
    rw [Statement.typeArgumentsFrom_text hc] at htypes
    exact htext [c] (ih htypes)

theorem keeps_statementText {s : Statement} (hslots : ∃ slots, s.typeArguments? = some slots) :
    Keeps t s.shownTypes (Printing.statementText s).run (SourceStyle.statementText t.spell s) := by
  obtain ⟨slots, hslots⟩ := hslots
  have hreported : Keeps t (slots.filterMap SlotValue.type?)
      ((·.mapError .statement) <$> s.renderWith Journal.askSlot)
      ((s.render (SourceStyle.slotText t.spell)).mapError Breakdown.statement) :=
    (keeps_renderFrom s.format hslots).map fun r b hb => ⟨b, mapError_ok.mp hb⟩
  rw [Statement.shownTypes, hslots]
  refine Keeps.bind_done (x := ExceptT.mk _) hreported fun text => ?_
  split
  · exact .ok text
  · exact .error _

theorem keeps_typeText (type : TypeName) :
    Keeps t [type] (Printing.typeText type).run (SourceStyle.nameText t.spell type) := by
  have hname : SourceStyle.nameText t.spell type = Except.ok (t.spell type) >>= fun text =>
      if type = .absent then .error (.kind .operand) else .ok text := by
    cases type <;> rfl
  rw [hname]
  refine (Keeps.ask type).bind_done fun text => ?_
  split
  · exact .error _
  · exact .ok text

theorem keeps_fieldGroup (fields : List Field) :
    Keeps t (fields.map (·.type)) (Printing.fieldGroup fields).run
      (SourceStyle.fieldGroup t.spell fields) := by
  have hfield (f : Field) : Keeps t [f.type] (Printing.fieldText f).run
      (SourceStyle.fieldText t.spell f) := (keeps_typeText f.type).bind_done fun _ => .ok _
  exact (Keeps.mapM_one hfield fields).bind_done fun _ => .ok _

theorem nameTexts_eq (spell : TypeName → Text) (types : List TypeName) :
    types.mapM (SourceStyle.nameText spell) =
      if .absent ∈ types then .error (.kind .operand) else .ok (types.map spell) := by
  induction types with
  | nil => rfl
  | cons type types ih =>
    rw [List.mapM_cons, ih]
    cases type with
    | absent => rfl
    | plain name | ofClass c | array component =>
      by_cases h : .absent ∈ types <;> simp [SourceStyle.nameText, h] <;> rfl

theorem keeps_interfaceTexts (types : List TypeName) :
    Keeps t types (Printing.interfaceTexts types).run
      (types.mapM (SourceStyle.nameText t.spell)) := by
  have hspellings := Keeps.mapM_one_ok (Keeps.ask (t := t)) types
  rw [List.map_id'] at hspellings
  rw [nameTexts_eq]
  refine hspellings.bind_done (g := fun texts =>
    if .absent ∈ types then .error (.kind .operand) else .ok texts) fun texts => ?_
  split
  · exact .error _
  · exact .ok texts

theorem keeps_classHead (d : ClassDecl) :
    Keeps t d.superinterfaces (Printing.classHead d).run (SourceStyle.classHead t.spell d) :=
  (keeps_interfaceTexts d.superinterfaces).bind_done fun _ => .ok _

theorem keeps_returnWords (m : Method) :
    Keeps t m.shownReturn (Printing.returnWords m).run
      (.ok (if m.isConstructor then [] else [SourceStyle.returnText t.spell m.returns])) := by
  unfold Printing.returnWords Method.shownReturn
  cases m.isConstructor with
  | true => exact .ok []
  | false =>
    match m.returns with
    | none | some (.plain []) => exact .ok _
    | some (.plain (_ :: _)) | some (.ofClass _) | some (.array _) | some .absent =>
      exact (Keeps.ask _).bind_done fun type => .ok [type]

theorem keeps_parameterText (p : Parameter) :
    Keeps t [p.type] (Printing.parameterText p).run
      (.ok (SourceStyle.parameterText t.spell p)) :=
  (Keeps.ask p.type).bind_done fun _ => .ok _

theorem keeps_signature (m : Method) :
    Keeps t (m.shownReturn ++ m.parameters.map (·.type)) (Printing.signature m).run
      (.ok (SourceStyle.signature t.spell m)) := by
  have hparameters := Keeps.mapM_one_ok (keeps_parameterText (t := t)) m.parameters
  have htext (result : List Text) : Keeps t (m.parameters.map (·.type))
      (m.parameters.mapM Printing.parameterText >>= fun parameters =>
        return Text.joinWith " " (m.modifiers.map (·.keyword) ++ result ++
          [m.name ++ "(" ++ Text.joinWith ", " parameters ++ ")"]) : Printing Text).run
      (.ok (m.parameters.map (SourceStyle.parameterText t.spell)) >>= fun parameters =>
        .ok (Text.joinWith " " (m.modifiers.map (·.keyword) ++ result ++
          [m.name ++ "(" ++ Text.joinWith ", " parameters ++ ")"]))) :=
    hparameters.bind_done fun _ => .ok _
  exact (keeps_returnWords m).bind htext

theorem keeps_methodText (style : SourceStyle) {m : Method}
    (hfound : ∃ found, ClassDecl.methodTypes m = some found) :
    Keeps t m.shownTypes (Printing.methodText style m).run (style.methodText t.spell m) := by
  obtain ⟨found, hfound⟩ := hfound
  obtain ⟨inStatements, hinStatements, -⟩ := Option.bind_eq_some_iff.mp hfound
  have hstatement : ∀ s ∈ m.statements, Keeps t s.shownTypes (Printing.statementText s).run
      (SourceStyle.statementText t.spell s) := by
    intro s hs
    obtain ⟨slots, -, hslots⟩ := partner_of_mem_left (mapM_some.mp hinStatements) hs
    exact keeps_statementText ⟨slots, hslots⟩
  have hbody (head : Text) : Keeps t (m.statements.flatMap (·.shownTypes))
      (m.statements.mapM Printing.statementText >>= fun statements =>
        return style.layOutMethod head statements : Printing Text).run
      (m.statements.mapM (SourceStyle.statementText t.spell) >>= fun statements =>
        .ok (style.layOutMethod head statements)) :=
    (Keeps.mapM hstatement).bind_done fun _ => .ok _
  exact (keeps_signature m).bind hbody

mutual

/-- A class whose types can be registered asks for those that it shows, and where these have their
spellings it is printed with them. -/
theorem keeps_classText (style : SourceStyle) : (d : ClassDecl) → (found : List TypeName) →
    d.types? = some found →
      Keeps t d.shownTypes (Printing.classText style d).run (style.classText t.spell d)
  | ⟨name, modifiers, superinterfaces, fields, methods, types⟩, found, hfound => by
    rw [ClassDecl.types?] at hfound
    obtain ⟨inMethods, hinMethods, hfound⟩ := Option.bind_eq_some_iff.mp hfound
    obtain ⟨inTypes, hinTypes, -⟩ := Option.bind_eq_some_iff.mp hfound
    have hmethod : ∀ m ∈ methods, Keeps t m.shownTypes (Printing.methodText style m).run
        (style.methodText t.spell m) := by
      intro m hm
      obtain ⟨inMethod, -, hinMethod⟩ := partner_of_mem_left (mapM_some.mp hinMethods) hm
      exact keeps_methodText style ⟨inMethod, hinMethod⟩
    have htypes := keeps_classTexts style types inTypes hinTypes
    rw [ClassDecl.shownTypes, Printing.classText, SourceStyle.classText, List.append_assoc,
      List.append_assoc]
    refine (keeps_classHead ⟨name, modifiers, superinterfaces, fields, methods, types⟩).bind
      fun head => ?_
    refine (keeps_fieldGroup fields).bind fun fieldTexts => ?_
    refine (Keeps.mapM hmethod).bind fun methodTexts => ?_
    exact htypes.bind_done fun typeTexts => .ok _

theorem keeps_classTexts (style : SourceStyle) : (types : List ClassDecl) →
    (found : List TypeName) → ClassDecl.typesList? types = some found →
      Keeps t (ClassDecl.shownTypesList types) (Printing.classTexts style types).run
        (style.classTexts t.spell types)
  | [], _, _ => by
    rw [ClassDecl.shownTypesList, Printing.classTexts, SourceStyle.classTexts]
    exact .ok []
  | d :: rest, found, hfound => by
    rw [ClassDecl.typesList?] at hfound
    obtain ⟨first, hfirst, hfound⟩ := Option.bind_eq_some_iff.mp hfound
    obtain ⟨others, hothers, -⟩ := Option.bind_eq_some_iff.mp hfound
    have hd := keeps_classText style d first hfirst
    have hrest := keeps_classTexts style rest others hothers
    rw [ClassDecl.shownTypesList, Printing.classTexts, SourceStyle.classTexts]
    exact hd.bind fun text => hrest.bind_done fun texts => .ok (text :: texts)

end

end Members

namespace ClassDecl

/-- All statements of the class and of the classes inside it are checked. -/
def IsChecked (d : ClassDecl) : Prop := ∀ m ∈ d.allMethods, ∀ s ∈ m.statements, s.IsChecked

theorem methodTypes_checked {m : Method} (h : ∀ s ∈ m.statements, s.IsChecked) :
    ∃ found, methodTypes m = some found := by
  obtain ⟨slots, hslots⟩ := mapM_some_total fun s hs => (h s hs).typeArguments
  rw [methodTypes, hslots]
  exact ⟨_, rfl⟩

mutual

theorem types?_checked : (d : ClassDecl) → d.IsChecked → ∃ found, d.types? = some found
  | ⟨_, _, _, _, methods, types⟩, h => by
    rw [IsChecked, allMethods] at h
    obtain ⟨inMethods, hinMethods⟩ := mapM_some_total fun m hm =>
      methodTypes_checked (h m (List.mem_append_left _ hm))
    obtain ⟨inTypes, hinTypes⟩ := typesList?_checked types fun m hm =>
      h m (List.mem_append_right _ hm)
    rw [types?, hinMethods, hinTypes]
    exact ⟨_, rfl⟩

theorem typesList?_checked : (types : List ClassDecl) →
    (∀ m ∈ allMethodsList types, ∀ s ∈ m.statements, s.IsChecked) →
      ∃ found, typesList? types = some found
  | [], _ => ⟨[], rfl⟩
  | d :: rest, h => by
    rw [allMethodsList] at h
    obtain ⟨first, hfirst⟩ := types?_checked d fun m hm => h m (List.mem_append_left _ hm)
    obtain ⟨others, hothers⟩ := typesList?_checked rest fun m hm =>
      h m (List.mem_append_right _ hm)
    rw [typesList?, hfirst, hothers]
    exact ⟨_, rfl⟩

end

mutual

theorem Printable.isChecked : (d : ClassDecl) → d.Printable → d.IsChecked
  | ⟨_, _, _, _, methods, types⟩, h => by
    rw [Printable] at h
    obtain ⟨-, -, hmethods, htypes⟩ := h
    intro m hm s hs
    rw [allMethods] at hm
    rcases List.mem_append.mp hm with hm | hm
    · exact (hmethods m hm s hs).checked
    · exact PrintableList.isChecked types htypes m hm s hs

theorem PrintableList.isChecked : (types : List ClassDecl) → PrintableList types →
    ∀ m ∈ allMethodsList types, ∀ s ∈ m.statements, s.IsChecked
  | [], _, m, hm, s, hs => by
    rw [allMethodsList] at hm
    cases hm
  | d :: rest, h, m, hm, s, hs => by
    rw [PrintableList] at h
    rw [allMethodsList] at hm
    rcases List.mem_append.mp hm with hm | hm
    · exact Printable.isChecked d h.1 m hm s hs
    · exact PrintableList.isChecked rest h.2 m hm s hs

end

end ClassDecl

/-! ### Files -/

namespace SourceStyle

variable {style : SourceStyle} {f : DirectionsFile} {imports : Imports} {types : List TypeName}

theorem importsOf_spells (htypes : f.decl.types? = some types)
    (himports : style.importsOf f = .ok imports) : ∀ type ∈ types, imports.Spells type := by
  rw [importsOf_eq style htypes] at himports
  rw [← Except.ok.inj himports]
  exact fun type htype => Imports.spells_addAll _ htype

theorem importsOf_imported (htypes : f.decl.types? = some types)
    (himports : style.importsOf f = .ok imports) {name : Text} (hname : name ∈ imports.sorted) :
    ∃ type ∈ types, ∃ c, type.class? = some c ∧ c.canonical = name := by
  rw [importsOf_eq style htypes] at himports
  rw [← Except.ok.inj himports] at hname
  rcases Imports.imported_addAll (Imports.mem_sorted.mp hname) with hnone | hfound
  · cases hnone
  · exact hfound

theorem start_asked (style : SourceStyle) {d : ClassDecl} (htypes : d.types? = some types)
    (t : Imports) : ((Printing.classText style d).start t).2.asked <+: d.shownTypes := by
  obtain ⟨result, later, new, hrun, hprefix, -⟩ := keeps_classText (t := t) style d types htypes
    ⟨t, []⟩
  rw [Printing.start, hrun]
  exact hprefix

/-- With the imports of its file, a class is printed as with settled spellings. -/
theorem start_classText (htypes : f.decl.types? = some types)
    (himports : style.importsOf f = .ok imports) :
    ∃ asked, (Printing.classText style f.decl).start imports =
        (style.classText imports.spell f.decl, ⟨imports, asked⟩) ∧
      ∀ text, style.classText imports.spell f.decl = .ok text → asked = f.decl.shownTypes := by
  obtain ⟨result, later, new, hrun, -, hall, hsettled⟩ := keeps_classText (t := imports) style
    f.decl types htypes ⟨imports, []⟩
  have hspelled := importsOf_spells htypes himports
  obtain ⟨hshown, -⟩ := ClassDecl.types?_shown f.decl types htypes
  obtain ⟨rfl, rfl⟩ := hsettled (fun type htype => hspelled type (hshown.subset htype)) rfl
  exact ⟨new, hrun, hall⟩

end SourceStyle

theorem Printing.fileText_eq (style : SourceStyle) (f : DirectionsFile) :
    Printing.fileText style f = style.fileText f := by
  cases htypes : f.decl.types? with
  | none =>
    rw [fileText, SourceStyle.fileText, SourceStyle.importsOf, htypes]
    rfl
  | some types =>
    have himports := style.importsOf_eq htypes
    obtain ⟨asked, hstart, -⟩ := SourceStyle.start_classText htypes himports
    rw [fileText, SourceStyle.fileText, himports]
    show (((classText style f.decl).start _).1 >>= fun text =>
      .ok (style.layOutFile f.className.package
        ((classText style f.decl).start _).2.imports.sorted text)) = _
    rw [hstart]
    rfl

/-! ### Files of directions -/

/-- The types registered for a class that describes directions are those that its text shows. -/
theorem NavigationGraph.shows_all_types {g : NavigationGraph} {applicationId : Text}
    {host : HostClasses} {files : List DirectionsFile} {f : DirectionsFile}
    (hfiles : g.directionsFiles applicationId host = .ok files) (hf : f ∈ files) :
    f.decl.Printable ∧ f.decl.types? = some f.decl.shownTypes := by
  obtain ⟨hall, -⟩ := directionsFiles_ok.mp hfiles
  obtain ⟨d, -, hd⟩ := partner_of_mem_right hall hf
  obtain ⟨-, hholds⟩ := Destination.directionsFile_ok.mp hd
  obtain ⟨types, htypes⟩ := ClassDecl.types?_some f.decl hholds.printable
  obtain ⟨-, hshown⟩ := ClassDecl.types?_shown f.decl types htypes
  exact ⟨hholds.printable, by rw [hshown hholds.showsReturn, htypes]⟩

namespace SourceStyle

/-- Registration is complete.  Where the statements of a class are checked, all types that printing
asks for are registered, in order, and once they are, asking changes neither the imports nor a
spelling: the file is the one whose imports and spellings are settled before.  Of a class that
describes directions all types that are registered are asked for, and every import is the class of
one that the text shows. -/
theorem registration_complete (style : SourceStyle) (f : DirectionsFile) :
    (f.decl.IsChecked → ∃ types imports,
      f.decl.types? = some types ∧ style.importsOf f = .ok imports ∧
      (∀ t, ((Printing.classText style f.decl).start t).2.asked.Sublist types) ∧
      (∃ asked, (Printing.classText style f.decl).start imports =
        (style.classText imports.spell f.decl, ⟨imports, asked⟩)) ∧
      (∀ type ∈ types, imports.name type = (imports, imports.spell type)) ∧
      Printing.fileText style f = style.fileText f) ∧
    ∀ (g : NavigationGraph) (applicationId : Text) (host : HostClasses)
      (files : List DirectionsFile),
      g.directionsFiles applicationId host = .ok files → f ∈ files →
        f.decl.IsChecked ∧ ∃ imports asked text,
          f.decl.types? = some asked ∧ style.importsOf f = .ok imports ∧
          (Printing.classText style f.decl).start imports = (.ok text, ⟨imports, asked⟩) ∧
          ∀ name ∈ imports.sorted, ∃ type ∈ asked, ∃ c,
            type.class? = some c ∧ c.canonical = name ∧ Shows imports.spell type text := by
  constructor
  · intro hchecked
    obtain ⟨types, htypes⟩ := ClassDecl.types?_checked f.decl hchecked
    have himports := style.importsOf_eq htypes
    obtain ⟨asked, hstart, -⟩ := start_classText htypes himports
    obtain ⟨hshown, -⟩ := ClassDecl.types?_shown f.decl types htypes
    refine ⟨types, _, htypes, himports, fun t => ?_, ⟨asked, hstart⟩, fun type htype => ?_,
      Printing.fileText_eq style f⟩
    · exact (start_asked style htypes t).sublist.trans hshown
    · exact (importsOf_spells htypes himports type htype).name_eq
  · intro g applicationId host files hfiles hf
    obtain ⟨hprintable, htypes⟩ := NavigationGraph.shows_all_types hfiles hf
    have himports := style.importsOf_eq htypes
    obtain ⟨text, htext⟩ := style.classText_ok _ f.decl hprintable
    obtain ⟨asked, hstart, hall⟩ := start_classText htypes himports
    obtain rfl := hall text htext
    rw [htext] at hstart
    refine ⟨hprintable.isChecked, _, _, text, htypes, himports, hstart, fun name hname => ?_⟩
    obtain ⟨type, htype, c, hc, rfl⟩ := importsOf_imported htypes himports hname
    exact ⟨type, htype, c, hc, rfl, classText_shows f.decl text htext type htype⟩

theorem application_ne_nil : ("com.app" : Text) ≠ [] := by decide

theorem paint_ne_nil : ("paint" : Text) ≠ [] := by decide

/-- A screen with an action that takes objects of two classes with the same short name. -/
def twoShades : NavigationGraph :=
  ⟨[⟨.text "com.app.Main", none, [⟨⟨"com.app", "paint", application_ne_nil, paint_ne_nil⟩, none,
    [⟨.text "inner", ⟨.parcelable, false, "com.one.Shade"⟩, none, rfl⟩,
     ⟨.text "outer", ⟨.parcelable, false, "com.two.Shade"⟩, none, rfl⟩], rfl⟩], []⟩]⟩

def twoShadesHost : HostClasses := .of "androidx.navigation" "android.os.Bundle"

def twoShadesFile : DirectionsFile :=
  ((twoShades.directionsFiles "com.app" twoShadesHost).toOption.getD []).headD
    ⟨⟨[], []⟩, ⟨[], [], [], [], [], []⟩⟩

theorem two_shades_are_registered :
    twoShades.directionsFiles "com.app" twoShadesHost = .ok [twoShadesFile] ∧
    twoShadesFile.decl.IsChecked ∧
    ∃ imports asked text, importsOf ⟨true, .tab, []⟩ twoShadesFile = .ok imports ∧
      imports.spell (.ofClass ⟨"com.one", "Shade"⟩) = "Shade" ∧
      imports.spell (.ofClass ⟨"com.two", "Shade"⟩) = "com.two.Shade" ∧
      (Printing.classText ⟨true, .tab, []⟩ twoShadesFile.decl).start imports =
        (.ok text, ⟨imports, asked⟩) ∧
      Printing.fileText ⟨true, .tab, []⟩ twoShadesFile =
        fileText ⟨true, .tab, []⟩ twoShadesFile ∧
      ("com.one.Shade" : Text) ∈ imports.sorted ∧ ∀ name ∈ imports.sorted, ∃ type ∈ asked, ∃ c,
        type.class? = some c ∧ c.canonical = name ∧ Shows imports.spell type text := by
  have hfiles : twoShades.directionsFiles "com.app" twoShadesHost = .ok [twoShadesFile] := rfl
  obtain ⟨hregistered, hdescribed⟩ := registration_complete ⟨true, .tab, []⟩ twoShadesFile
  obtain ⟨hchecked, imports, asked, text, -, himports, hstart, hshown⟩ :=
    hdescribed twoShades "com.app" twoShadesHost [twoShadesFile] hfiles (List.mem_singleton_self _)
  obtain ⟨-, -, -, -, -, -, -, hfile⟩ := hregistered hchecked
  have hchosen : (importsOf ⟨true, .tab, []⟩ twoShadesFile).toOption.map (fun imports =>
      (imports.spell (.ofClass ⟨"com.one", "Shade"⟩),
        imports.spell (.ofClass ⟨"com.two", "Shade"⟩),
        imports.imported.contains "com.one.Shade")) =
        some (("Shade" : Text), ("com.two.Shade" : Text), true) := by
    decide +kernel
  rw [himports] at hchosen
  obtain ⟨hone, htwo, himported⟩ : imports.spell (.ofClass ⟨"com.one", "Shade"⟩) = "Shade" ∧
      imports.spell (.ofClass ⟨"com.two", "Shade"⟩) = "com.two.Shade" ∧
      imports.imported.contains "com.one.Shade" = true := by
    simpa [Except.toOption] using hchosen
  exact ⟨hfiles, hchecked, imports, asked, text, himports, hone, htwo, hstart, hfile,
    Imports.mem_sorted.mpr (List.contains_iff_mem.mp himported), hshown⟩

end SourceStyle

end NavDirections
