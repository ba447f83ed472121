import NavDirections.Proofs.LaidOutTexts
import NavDirections.Proofs.Rendering
import NavDirections.Proofs.SlotPatterns

/-!
# The types that a class shows

Which types stand in the text of a class, from its first line to its last.  They are among the types
that imports are chosen for, in the same order, and they are all of these unless a constructor has a
type to return.  Each can be found in the text under its spelling.
-/

namespace NavDirections

open Success

def Statement.shownTypes (s : Statement) : List TypeName :=
  (s.typeArguments?.getD []).filterMap SlotValue.type?

namespace Method

/-- What is returned, as far as it is shown: not by a constructor, and not under an empty name. -/
def shownReturn (m : Method) : List TypeName :=
  if m.isConstructor then []
  else match m.returns with
    | none | some (.plain []) => []
    | some t => [t]

def shownTypes (m : Method) : List TypeName :=
  m.shownReturn ++ m.parameters.map (·.type) ++ m.statements.flatMap (·.shownTypes)

def ShowsReturn (m : Method) : Prop := m.shownReturn = m.returns.toList

theorem shownReturn_sublist (m : Method) : m.shownReturn.Sublist m.returns.toList := by
  unfold shownReturn
  split
  · exact List.nil_sublist _
  · split
    · exact List.nil_sublist _
    · exact List.nil_sublist _
    next t _ hreturns =>
      rw [hreturns]
      exact List.Sublist.refl _

theorem shownReturn_eq {m : Method} (hm : m.isConstructor = false) {t : TypeName}
    (hreturns : m.returns = some t) (ht : t ≠ .plain []) : m.shownReturn = [t] := by
  unfold shownReturn
  rw [hm, if_neg Bool.false_ne_true, hreturns]
  split
  next h => cases h
  next h => exact absurd (Option.some.inj h) ht
  next h => rw [Option.some.inj h]

end Method

namespace ClassDecl

mutual

def shownTypes : ClassDecl → List TypeName
  | ⟨_, _, superinterfaces, fields, methods, types⟩ =>
    superinterfaces ++ fields.map (·.type) ++ methods.flatMap (·.shownTypes) ++
      shownTypesList types

def shownTypesList : List ClassDecl → List TypeName
  | [] => []
  | d :: rest => shownTypes d ++ shownTypesList rest

end

mutual

/-- The methods of a class and of all classes inside it. -/
def allMethods : ClassDecl → List Method
  | ⟨_, _, _, _, methods, types⟩ => methods ++ allMethodsList types

def allMethodsList : List ClassDecl → List Method
  | [] => []
  | d :: rest => allMethods d ++ allMethodsList rest

end

theorem mem_allMethodsList {m : Method} {types : List ClassDecl} :
    m ∈ allMethodsList types ↔ ∃ d ∈ types, m ∈ d.allMethods := by
  induction types with
  | nil => simp [allMethodsList]
  | cons d rest ih => simp [allMethodsList, ih]

theorem statementTypes_eq {statements : List Statement} {found : List (List SlotValue)}
    (h : statements.mapM (·.typeArguments?) = some found) :
    statements.flatMap (·.shownTypes) = found.flatten.filterMap SlotValue.type? := by
  have hall := mapM_some.mp h
  clear h
  induction hall with
  | nil => rfl
  | @cons s slots statements found hs _ ih =>
    rw [List.flatMap_cons, ih, Statement.shownTypes, hs, List.flatten_cons,
      List.filterMap_append]
    rfl

theorem methodTypes_eq {m : Method} {found : List TypeName} (h : methodTypes m = some found) :
    found = m.returns.toList ++ m.parameters.map (·.type) ++
      m.statements.flatMap (·.shownTypes) := by
  obtain ⟨inStatements, hstatements, h⟩ := Option.bind_eq_some_iff.mp h
  rw [← Option.some.inj h, statementTypes_eq hstatements]

theorem methodTypes_sublist {m : Method} {found : List TypeName} (h : methodTypes m = some found) :
    m.shownTypes.Sublist found := by
  have hreturn := m.shownReturn_sublist.append_right
    (m.parameters.map (·.type) ++ m.statements.flatMap (·.shownTypes))
  rw [← List.append_assoc, ← List.append_assoc] at hreturn
  rw [methodTypes_eq h]
  exact hreturn

theorem methodTypes_shown {methods : List Method} {found : List (List TypeName)}
    (h : methods.mapM methodTypes = some found) :
    (methods.flatMap (·.shownTypes)).Sublist found.flatten ∧
      ((∀ m ∈ methods, m.ShowsReturn) → methods.flatMap (·.shownTypes) = found.flatten) := by
  have hall := mapM_some.mp h
  clear h
  induction hall with
  | nil => exact ⟨List.Sublist.refl _, fun _ => rfl⟩
  | @cons m types methods found hm _ ih =>
    rw [List.flatMap_cons, List.flatten_cons]
    refine ⟨(methodTypes_sublist hm).append ih.1, fun hshows => ?_⟩
    have hreturn : m.shownReturn = m.returns.toList := hshows m List.mem_cons_self
    rw [ih.2 fun m' hm' => hshows m' (List.mem_cons_of_mem m hm'), methodTypes_eq hm,
      Method.shownTypes, hreturn]

mutual

/-- What a class shows is registered, in the same order, and nothing else is registered if all that
its methods return is shown. -/
theorem types?_shown : (d : ClassDecl) → (found : List TypeName) → d.types? = some found →
    d.shownTypes.Sublist found ∧
      ((∀ m ∈ d.allMethods, m.ShowsReturn) → d.shownTypes = found)
  | ⟨name, modifiers, superinterfaces, fields, methods, types⟩, found, h => by
    rw [types?] at h
    obtain ⟨inMethods, hinMethods, h⟩ := Option.bind_eq_some_iff.mp h
    obtain ⟨inTypes, hinTypes, h⟩ := Option.bind_eq_some_iff.mp h
    obtain ⟨hmethods, hallMethods⟩ := methodTypes_shown hinMethods
    obtain ⟨htypes, hallTypes⟩ := typesList?_shown types inTypes hinTypes
    rw [← Option.some.inj h, shownTypes, allMethods]
    constructor
    · exact ((List.Sublist.refl _).append hmethods).append htypes
    · intro hshows
      rw [hallMethods fun m hm => hshows m (List.mem_append_left _ hm),
        hallTypes fun m hm => hshows m (List.mem_append_right _ hm)]

theorem typesList?_shown : (types : List ClassDecl) → (found : List TypeName) →
    typesList? types = some found → (shownTypesList types).Sublist found ∧
      ((∀ m ∈ allMethodsList types, m.ShowsReturn) → shownTypesList types = found)
  | [], found, h => by
    rw [typesList?] at h
    rw [← Option.some.inj h, shownTypesList]
    exact ⟨List.Sublist.refl _, fun _ => rfl⟩
  | d :: rest, found, h => by
    rw [typesList?] at h
    obtain ⟨first, hfirst, h⟩ := Option.bind_eq_some_iff.mp h
    obtain ⟨others, hothers, h⟩ := Option.bind_eq_some_iff.mp h
    obtain ⟨hd, hallD⟩ := types?_shown d first hfirst
    obtain ⟨hrest, hallRest⟩ := typesList?_shown rest others hothers
    rw [← Option.some.inj h, shownTypesList, allMethodsList]
    constructor
    · exact hd.append hrest
    · intro hshows
      rw [hallD fun m hm => hshows m (List.mem_append_left _ hm),
        hallRest fun m hm => hshows m (List.mem_append_right _ hm)]

end

end ClassDecl

theorem Action.showsReturn {a : Action} {host : HostClasses} {held : ArgumentList} :
    ∀ m ∈ (a.classOf host held).allMethods, m.ShowsReturn := by
  intro m hm
  have hnested : (a.classOf host held).allMethods = (a.classOf host held).methods := by
    rw [classOf, classWith, ClassDecl.allMethods, ClassDecl.allMethodsList, List.append_nil]
  rw [hnested, mem_methods_classOf] at hm
  rcases hm with rfl | ⟨k, -, rfl⟩ | rfl | rfl | rfl
  · rfl
  · exact Method.shownReturn_eq rfl rfl (by simp)
  · exact Method.shownReturn_eq rfl rfl (by simp)
  · exact Method.shownReturn_eq rfl rfl (by decide)
  · exact Method.shownReturn_eq rfl rfl (by simp)

theorem Destination.Holds.showsReturn {d : Destination} {name applicationId : Text}
    {host : HostClasses} {decl : ClassDecl} (h : d.Holds name applicationId host decl) :
    ∀ m ∈ decl.allMethods, m.ShowsReturn := by
  intro m hm
  rw [h.decl, ClassDecl.allMethods, List.mem_append] at hm
  rcases hm with hm | hm
  · obtain ⟨⟨a, nested⟩, -, rfl⟩ := List.mem_map.mp hm
    exact Method.shownReturn_eq rfl rfl (by simp)
  · obtain ⟨t, ht, hm⟩ := ClassDecl.mem_allMethodsList.mp hm
    obtain ⟨a, -, ha⟩ := partner_of_mem_right h.types ht
    obtain ⟨held, -, rfl⟩ := Action.directionsClass_ok.mp ha
    exact Action.showsReturn m hm

/-! ### Parts of texts -/

namespace Text

theorem infix_joinWith {mark piece : Text} {pieces : List Text} (h : piece ∈ pieces) :
    piece <:+: joinWith mark pieces := by
  match pieces with
  | [] => cases h
  | [only] =>
    rw [List.mem_singleton.mp h]
    exact List.infix_refl only
  | first :: next :: pieces =>
    rcases List.mem_cons.mp h with rfl | h
    · rw [joinWith, List.append_assoc]
      exact List.infix_append' [] piece _
    · exact (infix_joinWith h).trans (List.suffix_append _ _).isInfix

theorem infix_left_or_right {mark : CodePoint} {part before after : Text} (hpart : mark ∉ part)
    (h : part <:+: before ++ mark :: after) : part <:+: before ∨ part <:+: after := by
  obtain ⟨start, rest, heq⟩ := h
  rcases List.append_eq_append_iff.mp heq with ⟨more, rfl, -⟩ | ⟨more, hstart, hrest⟩
  · exact .inl ⟨start, more, rfl⟩
  cases more with
  | nil =>
    rw [List.append_nil] at hstart
    exact .inl (hstart ▸ (List.suffix_append start part).isInfix)
  | cons c more =>
    obtain ⟨rfl, rfl⟩ := List.cons.inj hrest
    rcases List.append_eq_append_iff.mp hstart with ⟨piece, rfl, rfl⟩ | ⟨piece, rfl, hmore⟩
    · simp at hpart
    · cases piece with
      | nil =>
        rw [List.nil_append] at hmore
        simp [← hmore] at hpart
      | cons d piece =>
        obtain ⟨rfl, rfl⟩ := List.cons.inj hmore
        exact .inr ⟨piece, rest, rfl⟩

theorem exists_piece_with {mark : CodePoint} {part : Text} (hpart : mark ∉ part)
    {pieces : List Text} (hne : pieces ≠ []) (h : part <:+: joinWith [mark] pieces) :
    ∃ piece ∈ pieces, part <:+: piece := by
  match pieces with
  | [] => exact absurd rfl hne
  | [only] => exact ⟨only, List.mem_cons_self, h⟩
  | first :: next :: pieces =>
    rw [joinWith, List.append_assoc, List.singleton_append] at h
    rcases infix_left_or_right hpart h with h | h
    · exact ⟨first, List.mem_cons_self, h⟩
    · obtain ⟨piece, hpiece, h⟩ := exists_piece_with hpart (List.cons_ne_nil next pieces) h
      exact ⟨piece, List.mem_cons_of_mem first hpiece, h⟩

theorem mem_intersperse {mark part : Text} {parts : List Text} (h : part ∈ parts) :
    part ∈ parts.intersperse mark := by
  match parts with
  | [] => cases h
  | [only] => exact h
  | first :: next :: parts =>
    rw [List.intersperse_cons_cons]
    rcases List.mem_cons.mp h with rfl | h
    · exact List.mem_cons_self
    · exact List.mem_cons_of_mem first (List.mem_cons_of_mem mark (mem_intersperse h))

theorem isBlank_of_part {part t : Text} (h : part <:+: t) (ht : t.isBlank = true) :
    part.isBlank = true :=
  List.all_eq_true.mpr fun c hc => List.all_eq_true.mp ht c (h.subset hc)

/-- What is on one line and not blank stays in a text that is indented. -/
theorem infix_indentWith {part t : Text} (hpart : part.IsLine) (hblank : part.isBlank = false)
    (h : part <:+: t) (unit : Text) : part <:+: t.indentWith unit := by
  rw [← joinWith_splitOn '\n' t] at h
  obtain ⟨line, hline, h⟩ := exists_piece_with hpart (splitOn_ne_nil '\n' t) h
  have hshown : line.isBlank = false := by
    by_contra hline
    rw [Bool.not_eq_false] at hline
    rw [isBlank_of_part h hline] at hblank
    cases hblank
  have hdeeper : part <:+: indentLine unit line := by
    rw [indentLine, hshown]
    exact h.trans (List.suffix_append unit line).isInfix
  exact hdeeper.trans (infix_joinWith (List.mem_map_of_mem hline))

end Text

theorem SlotPattern.infix_fill (p : SlotPattern) {args : List SlotValue} {letter : SlotLetter}
    {after : Text} {a : SlotValue} (h : ((letter, after), a) ∈ p.slots.zip args)
    (namer : SlotValue → Text) : letter.textOf namer a ++ after <:+: p.fill namer args := by
  have hpiece := List.infix_of_mem_flatten (List.mem_map_of_mem
    (f := fun x : (SlotLetter × Text) × SlotValue => x.1.1.textOf namer x.2 ++ x.1.2) h)
  exact hpiece.trans (List.suffix_append p.start _).isInfix

/-! ### Spellings in the text -/

namespace SourceStyle

variable {style : SourceStyle} {spell : TypeName → Text} {type : TypeName} {part text : Text}

/-- The spelling of a type stands in a text, unless it is blank or takes several lines. -/
def Shows (spell : TypeName → Text) (type : TypeName) (text : Text) : Prop :=
  (spell type).IsLine → (spell type).isBlank = false → spell type <:+: text

theorem shows_self (spell : TypeName → Text) (type : TypeName) : Shows spell type (spell type) :=
  fun _ _ => List.infix_refl _

theorem Shows.widen (h : Shows spell type part) (hpart : part <:+: text) :
    Shows spell type text :=
  fun hline hblank => (h hline hblank).trans hpart

theorem Shows.of_mem {mark : Text} {parts : List Text} (h : Shows spell type part)
    (hpart : part ∈ parts) : Shows spell type (Text.joinWith mark parts) :=
  h.widen (Text.infix_joinWith hpart)

theorem Shows.append_left (h : Shows spell type part) (before : Text) :
    Shows spell type (before ++ part) :=
  h.widen (List.suffix_append before part).isInfix

theorem Shows.append_right (h : Shows spell type part) (after : Text) :
    Shows spell type (part ++ after) :=
  h.widen (List.prefix_append part after).isInfix

theorem Shows.indentWith (h : Shows spell type text) (unit : Text) :
    Shows spell type (text.indentWith unit) :=
  fun hline hblank => Text.infix_indentWith hline hblank (h hline hblank) unit

theorem Shows.braced_of_head {head : Text} (h : Shows spell type head) (body : List Text) :
    Shows spell type (braced head body) := by
  rw [braced, List.flatMap_cons, LayoutTemplate.endLine, List.append_assoc, List.append_assoc,
    List.append_assoc]
  exact h.append_right _

theorem Shows.braced_of_mem {body : List Text} (h : Shows spell type part) (hpart : part ∈ body)
    (head : Text) : Shows spell type (braced head body) := by
  have hline : LayoutTemplate.endLine part <:+:
      ((head ++ " \x7b") :: body).flatMap LayoutTemplate.endLine :=
    List.infix_of_mem_flatten (List.mem_map_of_mem (List.mem_cons_of_mem _ hpart))
  exact ((h.append_right _).widen hline).append_right _

theorem nameText_shows (h : nameText spell type = .ok text) : Shows spell type text := by
  cases type with
  | absent => cases h
  | plain name =>
    rw [← Except.ok.inj h]
    exact shows_self spell _
  | ofClass c =>
    rw [← Except.ok.inj h]
    exact shows_self spell _
  | array component =>
    rw [← Except.ok.inj h]
    exact shows_self spell _

theorem fieldText_shows {f : Field} (h : fieldText spell f = .ok text) :
    Shows spell f.type text := by
  obtain ⟨word, hword, h⟩ := bind_ok.mp h
  have hwords : word ∈ f.modifiers.map (·.keyword) ++ [word, f.name] := by simp
  rw [← Except.ok.inj h]
  exact (((nameText_shows hword).of_mem hwords).append_right _).append_right _

/-- A statement that is printed is a pattern filled with its arguments. -/
theorem statementText_pattern {s : Statement} (h : statementText spell s = .ok text) :
    ∃ p : SlotPattern, p.format = s.format ∧ p.slots.length = s.args.length ∧
      p.fill (slotText spell) s.args = text := by
  have hrender : s.render (slotText spell) = .ok text := by
    obtain ⟨text', hrender, h⟩ := bind_ok.mp h
    split at h
    · rw [← Except.ok.inj h]
      exact mapError_ok.mp hrender
    · cases h
  exact Statement.exists_pattern_of_renderFrom hrender

theorem statementText_shows {s : Statement} (h : statementText spell s = .ok text)
    (htype : type ∈ s.shownTypes) : Shows spell type text := by
  obtain ⟨p, hp, hlength, htext⟩ := statementText_pattern h
  rw [Statement.shownTypes, Statement.typeArguments?, ← hp,
    Statement.typeArgumentsFrom_format hlength] at htype
  obtain ⟨a, ha, hat⟩ := List.mem_filterMap.mp htype
  obtain ⟨⟨⟨letter, after⟩, a'⟩, hfilled, hsome⟩ := List.mem_filterMap.mp ha
  -- the argument fills a type slot, and so its spelling is in the text of the slot
  obtain ⟨rfl, rfl⟩ : letter = .type ∧ a' = a := by
    by_cases hletter : letter = .type
    · simpa [hletter] using hsome
    · simp [hletter] at hsome
  have hslot : SlotLetter.type.textOf (slotText spell) a' = spell type := by
    rw [SlotLetter.textOf, slotText, hat]
    rfl
  have hpiece := p.infix_fill hfilled (slotText spell)
  rw [hslot, htext] at hpiece
  exact ((shows_self spell type).append_right after).widen hpiece

theorem returnText_of_shown {m : Method} (htype : type ∈ m.shownReturn) :
    m.isConstructor = false ∧ returnText spell m.returns = spell type := by
  unfold Method.shownReturn at htype
  split at htype
  · cases htype
  next hconstructor =>
    refine ⟨Bool.eq_false_iff.mpr hconstructor, ?_⟩
    split at htype
    · cases htype
    · cases htype
    next t hne hreturns =>
      rw [hreturns, List.mem_singleton.mp htype]
      unfold returnText
      split
      next h => cases h
      next h => exact absurd (Option.some.inj h) hne
      next h => rw [Option.some.inj h]

theorem signature_shows {m : Method} (htype : type ∈ m.shownReturn ++ m.parameters.map (·.type)) :
    Shows spell type (signature spell m) := by
  unfold signature
  rcases List.mem_append.mp htype with htype | htype
  · obtain ⟨hconstructor, hreturn⟩ :
        m.isConstructor = false ∧ returnText spell m.returns = spell type :=
      returnText_of_shown htype
    have hword : spell type ∈ m.modifiers.map (·.keyword) ++
        (if m.isConstructor then [] else [returnText spell m.returns]) := by
      simp [hconstructor, hreturn]
    exact (shows_self spell type).of_mem (List.mem_append_left _ hword)
  · obtain ⟨p, hp, rfl⟩ := List.mem_map.mp htype
    have hparameter : Shows spell p.type (parameterText spell p) :=
      ((shows_self spell p.type).append_right _).append_right _
    have hlist : Shows spell p.type
        (Text.joinWith ", " (m.parameters.map (parameterText spell))) :=
      hparameter.of_mem (List.mem_map_of_mem hp)
    have hword := (hlist.append_left (m.name ++ "(")).append_right ")"
    exact hword.of_mem (List.mem_append_right _ (List.mem_singleton_self _))

theorem methodText_shows {m : Method} (h : style.methodText spell m = .ok text)
    (htype : type ∈ m.shownTypes) : Shows spell type text := by
  obtain ⟨statements, hstatements, h⟩ := bind_ok.mp h
  rw [← Except.ok.inj h, layOutMethod_eq]
  rcases List.mem_append.mp htype with htype | htype
  · exact (signature_shows htype).braced_of_head _
  · obtain ⟨s, hs, htype⟩ := List.mem_flatMap.mp htype
    obtain ⟨line, hline, htext⟩ := partner_of_mem_left (mapM_ok.mp hstatements) hs
    have hshown := (statementText_shows htext htype).indentWith style.indentation.text
    have hended := hshown.append_right ";"
    exact hended.braced_of_mem (List.mem_map_of_mem (f := fun s : Text =>
      s.indentWith style.indentation.text ++ (";" : Text)) hline) _

theorem classHead_shows {d : ClassDecl} (h : classHead spell d = .ok text)
    (htype : type ∈ d.superinterfaces) : Shows spell type text := by
  obtain ⟨interfaces, hinterfaces, h⟩ := bind_ok.mp h
  obtain ⟨name, hname, htext⟩ := partner_of_mem_left (mapM_ok.mp hinterfaces) htype
  have hsome : interfaces.isEmpty = false := by
    cases interfaces with
    | nil => cases hname
    | cons first rest => rfl
  rw [← Except.ok.inj h, hsome]
  exact ((nameText_shows htext).of_mem hname).append_left _

theorem fieldGroup_shows {fields : List Field} {texts : List Text}
    (h : fieldGroup spell fields = .ok texts) (htype : type ∈ fields.map (·.type)) :
    ∃ text ∈ texts, Shows spell type text := by
  obtain ⟨lines, hlines, h⟩ := bind_ok.mp h
  obtain ⟨f, hf, rfl⟩ := List.mem_map.mp htype
  obtain ⟨line, hline, htext⟩ := partner_of_mem_left (mapM_ok.mp hlines) hf
  have hsome : lines.isEmpty = false := by
    cases lines with
    | nil => cases hline
    | cons first rest => rfl
  rw [← Except.ok.inj h, hsome]
  exact ⟨_, List.mem_singleton_self _, (fieldText_shows htext).of_mem hline⟩

theorem Shows.of_member {members : List Text} (h : ∃ text ∈ members, Shows spell type text)
    (style : SourceStyle) (head : Text) :
    Shows spell type (braced head (style.classBody members)) := by
  obtain ⟨text, htext, h⟩ := h
  have hdeeper := h.indentWith style.indentation.text
  have hmember : text.indentWith style.indentation.text ∈
      members.map (·.indentWith style.indentation.text) := List.mem_map.mpr ⟨text, htext, rfl⟩
  exact hdeeper.braced_of_mem (Text.mem_intersperse hmember) head

mutual

theorem classText_shows : (d : ClassDecl) → (text : Text) → style.classText spell d = .ok text →
    ∀ type ∈ d.shownTypes, Shows spell type text
  | ⟨name, modifiers, superinterfaces, fields, methods, types⟩, text, h, type, htype => by
    rw [classText] at h
    obtain ⟨head, hhead, h⟩ := bind_ok.mp h
    obtain ⟨fieldTexts, hfieldTexts, h⟩ := bind_ok.mp h
    obtain ⟨methodTexts, hmethodTexts, h⟩ := bind_ok.mp h
    obtain ⟨typeTexts, htypeTexts, h⟩ := bind_ok.mp h
    rw [ClassDecl.shownTypes] at htype
    rw [← Except.ok.inj h, layOutClass_eq]
    rcases List.mem_append.mp htype with htype | htype
    · rcases List.mem_append.mp htype with htype | htype
      · rcases List.mem_append.mp htype with htype | htype
        · exact (classHead_shows hhead htype).braced_of_head _
        · obtain ⟨member, hmember, hshown⟩ := fieldGroup_shows hfieldTexts htype
          exact .of_member ⟨member, by simp [hmember], hshown⟩ style head
      · obtain ⟨m, hm, htype⟩ := List.mem_flatMap.mp htype
        obtain ⟨member, hmember, htext⟩ := partner_of_mem_left (mapM_ok.mp hmethodTexts) hm
        exact .of_member ⟨member, by simp [hmember], methodText_shows htext htype⟩ style head
    · obtain ⟨member, hmember, hshown⟩ := classTexts_shows types typeTexts htypeTexts type htype
      exact .of_member ⟨member, by simp [hmember], hshown⟩ style head

theorem classTexts_shows : (types : List ClassDecl) → (texts : List Text) →
    style.classTexts spell types = .ok texts →
      ∀ type ∈ ClassDecl.shownTypesList types, ∃ text ∈ texts, Shows spell type text
  | [], _, _, type, htype => by
    rw [ClassDecl.shownTypesList] at htype
    cases htype
  | d :: rest, texts, h, type, htype => by
    rw [classTexts] at h
    obtain ⟨first, hfirst, h⟩ := bind_ok.mp h
    obtain ⟨others, hothers, h⟩ := bind_ok.mp h
    rw [ClassDecl.shownTypesList] at htype
    rw [← Except.ok.inj h]
    rcases List.mem_append.mp htype with htype | htype
    · exact ⟨first, List.mem_cons_self, classText_shows d first hfirst type htype⟩
    · obtain ⟨text, htext, hshown⟩ := classTexts_shows rest others hothers type htype
      exact ⟨text, List.mem_cons_of_mem first htext, hshown⟩

end

end SourceStyle

end NavDirections
