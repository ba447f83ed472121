import NavDirections.Generation.Basic
import NavDirections.Proofs.LaidOutTexts
import NavDirections.Proofs.NameResolution
import NavDirections.Proofs.Rendering

/-!
# The lines of a source file

A source file is printed from the inside out: each member by itself, and then moved one level deeper
into its class.  The lines that come out are those of the printer that knows the depth of each line.
Cleaning them up changes nothing but the line ends.
-/

namespace NavDirections

open Success

/-- The names that the type consists of have no line feed in them. -/
def TypeName.IsLine : TypeName → Prop
  | plain name => name.IsLine
  | ofClass c => c.package.IsLine ∧ c.simple.IsLine
  | array component => component.IsLine
  | absent => True

structure Field.IsLine (f : Field) : Prop where
  name : f.name.IsLine
  type : f.type.IsLine
  initializer : ∀ value, f.initializer = some value → value.IsLine

/-- Names and types have no line feed in them, and neither have the statements as they are printed,
which are not blank either. -/
structure Method.OnLines (spell : TypeName → Text) (m : Method) : Prop where
  name : m.name.IsLine
  parameters : ∀ p ∈ m.parameters, p.name.IsLine ∧ p.type.IsLine
  returns : ∀ t, m.returns = some t → t.IsLine
  slots : ∀ s ∈ m.statements, ∀ slots, s.typeArguments? = some slots →
    ∀ a ∈ slots, ∀ t, a.type? = some t → t.IsLine
  statements : ∀ s ∈ m.statements, ∀ text, s.render (SourceStyle.slotText spell) = .ok text →
    text.IsLine ∧ text.isBlank = false

namespace ClassDecl

mutual

def OnLines (spell : TypeName → Text) : ClassDecl → Prop
  | ⟨name, _, superinterfaces, fields, methods, types⟩ =>
    name.IsLine ∧ (∀ t ∈ superinterfaces, t.IsLine) ∧ (∀ f ∈ fields, f.IsLine) ∧
      (∀ m ∈ methods, m.OnLines spell) ∧ OnLinesList spell types

def OnLinesList (spell : TypeName → Text) : List ClassDecl → Prop
  | [] => True
  | d :: rest => OnLines spell d ∧ OnLinesList spell rest

end

end ClassDecl

theorem Indentation.text_isLine (i : Indentation) : i.text.IsLine := by
  cases i with
  | tab => decide
  | blanks count =>
    intro h
    exact absurd (List.eq_of_mem_replicate h) (by decide)

theorem Modifier.keyword_isLine (m : Modifier) : m.keyword.IsLine := by
  cases m <;> decide

theorem Modifier.keywords_isLine {modifiers : List Modifier} :
    ∀ word ∈ modifiers.map (·.keyword), word.IsLine := by
  intro word hword
  obtain ⟨m, -, rfl⟩ := List.mem_map.mp hword
  exact m.keyword_isLine

namespace SourceStyle

variable {style : SourceStyle} {spell : TypeName → Text}

theorem lines_braced {head : Text} (h : head.IsLine) (body : List Text) :
    Text.lines (braced head body) = (head ++ " \x7b") :: body.flatMap Text.lines ++ [closingLine] := by
  have hopen : (head ++ " \x7b").IsLine := Text.isLine_append.mpr ⟨h, by decide⟩
  rw [braced, Text.lines_flatMap_endLine, List.flatMap_cons, Text.lines_of_isLine hopen]
  rfl

theorem nameText_eq {t : TypeName} {text : Text} (h : nameText spell t = .ok text) :
    text = spell t := by
  cases t with
  | absent => cases h
  | plain name => exact (Except.ok.inj h).symm
  | ofClass c => exact (Except.ok.inj h).symm
  | array component => exact (Except.ok.inj h).symm

theorem fieldText_eq {f : Field} {text : Text} (h : fieldText spell f = .ok text) :
    text = fieldLine spell f := by
  obtain ⟨type, htype, h⟩ := bind_ok.mp h
  rw [← Except.ok.inj h, nameText_eq htype]
  rfl

/-- A statement on one line stays on it when it is moved one level deeper. -/
theorem statement_lines (style : SourceStyle) {s : Statement} {text : Text}
    (h : statementText spell s = .ok text)
    (hs : ∀ text, s.render (slotText spell) = .ok text → text.IsLine ∧ text.isBlank = false) :
    Text.lines (text.indentWith style.indentation.text ++ ";") =
      [style.lineAt 1 (statementLine spell s)] := by
  have hrender : s.render (slotText spell) = .ok text := by
    obtain ⟨text', hrender, h⟩ := bind_ok.mp h
    split at h
    · rw [← Except.ok.inj h]
      exact mapError_ok.mp hrender
    · cases h
  obtain ⟨hline, hblank⟩ := hs text hrender
  have hindented : text.indentWith style.indentation.text = style.indentation.text ++ text := by
    rw [Text.indentWith, Text.lines_of_isLine hline, List.map_singleton, Text.indentLine, hblank]
    rfl
  have hwhole : (style.indentation.text ++ text ++ ";").IsLine :=
    Text.isLine_append.mpr
      ⟨Text.isLine_append.mpr ⟨style.indentation.text_isLine, hline⟩, by decide⟩
  rw [hindented, Text.lines_of_isLine hwhole, statementLine, hrender]
  simp [lineAt, Except.toOption]

theorem statements_lines {statements : List Statement} {texts : List Text}
    (h : statements.mapM (statementText spell) = .ok texts)
    (hfit : ∀ s ∈ statements, ∀ text, s.render (slotText spell) = .ok text →
      text.IsLine ∧ text.isBlank = false) :
    (texts.map fun t : Text => t.indentWith style.indentation.text ++ (";" : Text)).flatMap
      Text.lines = statements.map fun s => style.lineAt 1 (statementLine spell s) := by
  have hall := mapM_ok.mp h
  clear h
  induction hall with
  | nil => rfl
  | @cons s t rest ts hst _ ih =>
    have hfirst := statement_lines style hst (hfit s List.mem_cons_self)
    have hrest := ih fun s' hs' => hfit s' (List.mem_cons_of_mem s hs')
    rw [List.map_cons, List.flatMap_cons, hfirst, hrest, List.map_cons, List.singleton_append]

section Named

variable (hspell : ∀ t : TypeName, t.IsLine → (spell t).IsLine)
include hspell

theorem fieldLine_isLine {f : Field} (hf : f.IsLine) : (fieldLine spell f).IsLine := by
  have hwords : ∀ word ∈ f.modifiers.map (·.keyword) ++ [spell f.type, f.name], word.IsLine := by
    intro word hword
    rcases List.mem_append.mp hword with hword | hword
    · exact Modifier.keywords_isLine word hword
    · rcases List.mem_cons.mp hword with rfl | hword
      · exact hspell f.type hf.type
      · rw [List.mem_singleton.mp hword]
        exact hf.name
  have hblank : Text.IsLine " " := by decide
  have hjoined := Text.isLine_joinWith hblank hwords
  unfold fieldLine
  refine Text.isLine_append.mpr ⟨Text.isLine_append.mpr ⟨hjoined, ?_⟩, by decide⟩
  cases hinit : f.initializer with
  | none => exact List.not_mem_nil
  | some value => exact Text.isLine_append.mpr ⟨by decide, hf.initializer value hinit⟩

theorem fieldGroup_lines {fields : List Field} {texts : List Text}
    (h : fieldGroup spell fields = .ok texts) (hfields : ∀ f ∈ fields, f.IsLine) :
    texts.map Text.lines = style.fieldLines spell 0 fields := by
  obtain ⟨lines, hlines, h⟩ := bind_ok.mp h
  have hmap : lines = fields.map (fieldLine spell) :=
    mapM_eq_map hlines fun f _ text => fieldText_eq
  rw [← Except.ok.inj h, hmap, fieldLines]
  cases fields with
  | nil => rfl
  | cons f fields =>
    have hline : ∀ l ∈ (f :: fields).map (fieldLine spell), l.IsLine := by
      intro l hl
      obtain ⟨f', hf', rfl⟩ := List.mem_map.mp hl
      exact fieldLine_isLine hspell (hfields f' hf')
    rw [if_neg (List.cons_ne_nil f fields)]
    exact congrArg (fun group => [group]) (Text.lines_ofLines (List.cons_ne_nil _ _) hline)

theorem signature_isLine {m : Method} (hm : m.OnLines spell) : (signature spell m).IsLine := by
  have hblank : Text.IsLine " " := by decide
  have hcomma : Text.IsLine ", " := by decide
  have hparameters : ∀ p ∈ m.parameters.map (parameterText spell), p.IsLine := by
    intro word hword
    obtain ⟨p, hp, rfl⟩ := List.mem_map.mp hword
    obtain ⟨hname, htype⟩ := hm.parameters p hp
    exact Text.isLine_append.mpr ⟨Text.isLine_append.mpr ⟨hspell p.type htype, hblank⟩, hname⟩
  have hjoined := Text.isLine_joinWith hcomma hparameters
  have hreturn : (returnText spell m.returns).IsLine := by
    unfold returnText
    split
    · decide
    · decide
    next t hne hreturns => exact hspell t (hm.returns t hreturns)
  refine Text.isLine_joinWith hblank fun word hword => ?_
  rcases List.mem_append.mp hword with hword | hword
  · rcases List.mem_append.mp hword with hword | hword
    · exact Modifier.keywords_isLine word hword
    · split at hword
      · cases hword
      · rw [List.mem_singleton.mp hword]
        exact hreturn
  · rw [List.mem_singleton.mp hword]
    have hopen : (m.name ++ "(").IsLine := Text.isLine_append.mpr ⟨hm.name, by decide⟩
    exact Text.isLine_append.mpr ⟨Text.isLine_append.mpr ⟨hopen, hjoined⟩, by decide⟩

theorem methodText_lines {m : Method} {text : Text} (h : style.methodText spell m = .ok text)
    (hm : m.OnLines spell) : text.lines = style.methodLines spell 0 m := by
  obtain ⟨statements, hstatements, h⟩ := bind_ok.mp h
  rw [← Except.ok.inj h, layOutMethod_eq, lines_braced (signature_isLine hspell hm),
    statements_lines hstatements hm.statements]
  rfl

theorem classHead_line {d : ClassDecl} {head : Text} (h : classHead spell d = .ok head)
    (hname : d.name.IsLine) (hsuper : ∀ t ∈ d.superinterfaces, t.IsLine) :
    head.IsLine ∧ head ++ " \x7b" = classLine spell d := by
  obtain ⟨interfaces, hinterfaces, h⟩ := bind_ok.mp h
  have hmap : interfaces = d.superinterfaces.map spell :=
    mapM_eq_map hinterfaces fun t _ text => nameText_eq
  have hwords : ∀ word ∈ d.modifiers.map (·.keyword) ++ [("class" : Text), d.name],
      word.IsLine := by
    intro word hword
    rcases List.mem_append.mp hword with hword | hword
    · exact Modifier.keywords_isLine word hword
    · rcases List.mem_cons.mp hword with rfl | hword
      · decide
      · rw [List.mem_singleton.mp hword]
        exact hname
  have hblank : Text.IsLine " " := by decide
  have hjoined := Text.isLine_joinWith hblank hwords
  have hspelled : ∀ t ∈ d.superinterfaces.map spell, t.IsLine := by
    intro t ht
    obtain ⟨type, htype, rfl⟩ := List.mem_map.mp ht
    exact hspell type (hsuper type htype)
  have hcomma : Text.IsLine ", " := by decide
  have hlist := Text.isLine_joinWith hcomma hspelled
  rw [← Except.ok.inj h, hmap]
  by_cases hnone : d.superinterfaces = []
  · have hempty : (d.superinterfaces.map spell).isEmpty = true := by simp [hnone]
    rw [if_pos hempty]
    exact ⟨hjoined, by simp [classLine, hnone]⟩
  · have hempty : ¬(d.superinterfaces.map spell).isEmpty = true := by simp [hnone]
    rw [if_neg hempty]
    refine ⟨?_, by simp [classLine, hnone]⟩
    exact Text.isLine_append.mpr ⟨Text.isLine_append.mpr ⟨hjoined, by decide⟩, hlist⟩

end Named

theorem flatMap_lines_intersperse : (texts : List Text) →
    (texts.intersperse []).flatMap Text.lines = separated (texts.map Text.lines)
  | [] => rfl
  | [text] => by simp [separated]
  | text :: next :: texts => by
    have hrest := flatMap_lines_intersperse (next :: texts)
    rw [List.intersperse_cons_cons, List.flatMap_cons, List.flatMap_cons, hrest]
    rfl

theorem classBody_lines (members : List Text) :
    (style.classBody members).flatMap Text.lines = separated ((members.map Text.lines).map
      (List.map (Text.indentLine style.indentation.text))) := by
  have hunit := style.indentation.text_isLine
  rw [classBody, flatMap_lines_intersperse, List.map_map, List.map_map]
  refine congrArg separated (List.map_congr_left fun t _ => ?_)
  exact Text.lines_indentWith hunit t

theorem methodTexts_lines (hspell : ∀ t : TypeName, t.IsLine → (spell t).IsLine)
    {methods : List Method} {texts : List Text}
    (h : methods.mapM (style.methodText spell) = .ok texts)
    (hmethods : ∀ m ∈ methods, m.OnLines spell) :
    texts.map Text.lines = methods.map (style.methodLines spell 0) := by
  have hall := mapM_ok.mp h
  clear h
  induction hall with
  | nil => rfl
  | @cons m t rest ts hmt _ ih =>
    have hfirst := methodText_lines hspell hmt (hmethods m List.mem_cons_self)
    have hrest := ih fun m' hm' => hmethods m' (List.mem_cons_of_mem m hm')
    rw [List.map_cons, List.map_cons, hfirst, hrest]

mutual

theorem classText_lines (hspell : ∀ t : TypeName, t.IsLine → (spell t).IsLine) :
    (d : ClassDecl) → (text : Text) → style.classText spell d = .ok text → d.OnLines spell →
      text.lines = style.classLines spell 0 d
  | ⟨name, modifiers, superinterfaces, fields, methods, types⟩, text, h, hd => by
    rw [ClassDecl.OnLines] at hd
    obtain ⟨hname, hsuper, hfields, hmethods, htypes⟩ := hd
    rw [classText] at h
    obtain ⟨head, hhead, h⟩ := bind_ok.mp h
    obtain ⟨fieldTexts, hfieldTexts, h⟩ := bind_ok.mp h
    obtain ⟨methodTexts, hmethodTexts, h⟩ := bind_ok.mp h
    obtain ⟨typeTexts, htypeTexts, h⟩ := bind_ok.mp h
    obtain ⟨hheadLine, hclassLine⟩ := classHead_line hspell hhead hname hsuper
    have hmembers : ((fieldTexts ++ methodTexts ++ typeTexts).map Text.lines).map
        (List.map (Text.indentLine style.indentation.text)) =
          style.fieldLines spell 1 fields ++ methods.map (style.methodLines spell 1) ++
            style.typeLines spell 1 types := by
      have hdeeper : (methods.map (style.methodLines spell 0)).map
          (List.map (Text.indentLine style.indentation.text)) =
            methods.map (style.methodLines spell 1) := by
        rw [List.map_map]
        exact List.map_congr_left fun m _ => methodLines_succ 0 m
      have hlines : (fieldTexts ++ methodTexts ++ typeTexts).map Text.lines =
          style.fieldLines spell 0 fields ++ methods.map (style.methodLines spell 0) ++
            style.typeLines spell 0 types := by
        rw [List.map_append, List.map_append, fieldGroup_lines hspell hfieldTexts hfields,
          methodTexts_lines hspell hmethodTexts hmethods,
          classTexts_lines hspell types typeTexts htypeTexts htypes]
      rw [hlines, List.map_append, List.map_append, fieldLines_succ, hdeeper, typeLines_succ]
    rw [← Except.ok.inj h, layOutClass_eq, lines_braced hheadLine, classBody_lines, hmembers,
      classLines, hclassLine]
    rfl

theorem classTexts_lines (hspell : ∀ t : TypeName, t.IsLine → (spell t).IsLine) :
    (types : List ClassDecl) → (texts : List Text) → style.classTexts spell types = .ok texts →
      ClassDecl.OnLinesList spell types → texts.map Text.lines = style.typeLines spell 0 types
  | [], texts, h, _ => by
    rw [classTexts] at h
    rw [← Except.ok.inj h, typeLines, List.map_nil]
  | d :: rest, texts, h, hd => by
    rw [ClassDecl.OnLinesList] at hd
    rw [classTexts] at h
    obtain ⟨first, hfirst, h⟩ := bind_ok.mp h
    obtain ⟨others, hothers, h⟩ := bind_ok.mp h
    rw [← Except.ok.inj h, typeLines, List.map_cons, classText_lines hspell d first hfirst hd.1,
      classTexts_lines hspell rest others hothers hd.2]

end

end SourceStyle

/-! ### Imports -/

namespace ClassName

theorem reference_isLine {c : ClassName} (h : c.simple.IsLine) : c.reference.IsLine := by
  unfold reference
  split
  next before last hcut =>
    have hsplit := (Text.cutLast?_eq_some_iff.mp hcut).1
    rw [hsplit] at h
    exact fun hmem => (Text.isLine_append.mp h).2 (List.mem_cons_of_mem _ hmem)
  · exact h

theorem canonical_isLine {c : ClassName} (hpackage : c.package.IsLine) (hsimple : c.simple.IsLine) :
    c.canonical.IsLine := by
  unfold canonical
  split
  · exact hsimple
  · exact Text.isLine_append.mpr ⟨Text.isLine_append.mpr ⟨hpackage, by decide⟩, hsimple⟩

end ClassName

namespace Imports

/-- No spelling and no import has a line feed in it. -/
structure OnLines (t : Imports) : Prop where
  spelled : ∀ {c spelling}, t.spelling? c = some spelling → spelling.IsLine
  imported : ∀ name ∈ t.imported, name.IsLine

theorem OnLines.with_spelling {t : Imports} (h : t.OnLines) {c : ClassName} {new : Text}
    (hnew : new.IsLine) {d : ClassName} {spelling : Text}
    (hd : ((c, new) :: t.spellings).lookup d = some spelling) : spelling.IsLine := by
  by_cases heq : d = c
  · subst heq
    rw [List.lookup_cons_self] at hd
    exact Option.some.inj hd ▸ hnew
  · rw [lookup_cons_ne heq] at hd
    exact h.spelled hd

theorem shortNames_isLine (t : Imports) {c : ClassName} (h : c.simple.IsLine) :
    (t.shortNames c).2.IsLine := by
  unfold shortNames
  split
  · exact h
  · exact ClassName.reference_isLine h

theorem addClass_onLines {t : Imports} (h : t.OnLines) {c : ClassName} (hpackage : c.package.IsLine)
    (hsimple : c.simple.IsLine) : (t.addClass c).OnLines := by
  have hcanonical := ClassName.canonical_isLine hpackage hsimple
  by_cases hc : c.package = []
  · unfold addClass
    rw [if_pos hc]
    split
    · exact h
    · exact ⟨h.with_spelling hsimple, h.imported⟩
  · have hadded := addClass_added hc t
    generalize t.addClass c = later at hadded
    cases hadded with
    | known => exact h
    | short =>
      refine ⟨h.with_spelling (t.shortNames_isLine hsimple), fun name hname => ?_⟩
      split at hname
      · exact h.imported name hname
      · rcases mem_insertName.mp hname with rfl | hname
        · exact hcanonical
        · exact h.imported name hname
    | full => exact ⟨h.with_spelling hcanonical, h.imported⟩

theorem class?_isLine {type : TypeName} (h : type.IsLine) {c : ClassName}
    (hc : type.class? = some c) : c.package.IsLine ∧ c.simple.IsLine := by
  induction type with
  | plain name => cases hc
  | absent => cases hc
  | ofClass d => exact Option.some.inj hc ▸ h
  | array component ih => exact ih h hc

theorem addAll_onLines {types : List TypeName} (htypes : ∀ t ∈ types, t.IsLine) {t : Imports}
    (h : t.OnLines) : (t.addAll types).OnLines := by
  induction types generalizing t with
  | nil => exact h
  | cons type types ih =>
    refine ih (fun t' ht' => htypes t' (List.mem_cons_of_mem type ht')) ?_
    unfold add
    split
    next c hc =>
      obtain ⟨hpackage, hsimple⟩ := class?_isLine (htypes type List.mem_cons_self) hc
      exact addClass_onLines h hpackage hsimple
    · exact h

theorem OnLines.spell {t : Imports} (h : t.OnLines) : (type : TypeName) → type.IsLine →
    (t.spell type).IsLine
  | .plain name, htype => htype
  | .absent, _ => by
    show TypeName.absent.fullName.IsLine
    decide
  | .array component, htype => Text.isLine_append.mpr ⟨h.spell component htype, by decide⟩
  | .ofClass c, htype => by
    cases hc : t.spelling? c with
    | none =>
      rw [Imports.spell, hc]
      exact ClassName.canonical_isLine htype.1 htype.2
    | some spelling =>
      rw [Imports.spell, hc]
      exact h.spelled hc

end Imports

namespace ClassDecl

variable {spell : TypeName → Text}

theorem methodTypes_isLine {m : Method} (hm : m.OnLines spell) {found : List TypeName}
    (h : methodTypes m = some found) : ∀ t ∈ found, t.IsLine := by
  obtain ⟨slots, hslots, h⟩ := Option.bind_eq_some_iff.mp h
  rw [← Option.some.inj h]
  intro t ht
  rcases List.mem_append.mp ht with ht | ht
  · rcases List.mem_append.mp ht with ht | ht
    · exact hm.returns t (Option.mem_toList.mp ht)
    · obtain ⟨p, hp, rfl⟩ := List.mem_map.mp ht
      exact (hm.parameters p hp).2
  · obtain ⟨a, ha, hat⟩ := List.mem_filterMap.mp ht
    obtain ⟨inOne, hinOne, ha⟩ := List.mem_flatten.mp ha
    obtain ⟨s, hs, hsome⟩ := partner_of_mem_right (mapM_some.mp hslots) hinOne
    exact hm.slots s hs inOne hsome a ha t hat

mutual

/-- Imports are chosen for types that have no line feed in their names. -/
theorem types?_isLine : (d : ClassDecl) → (found : List TypeName) → d.types? = some found →
    d.OnLines spell → ∀ t ∈ found, t.IsLine
  | ⟨name, modifiers, superinterfaces, fields, methods, types⟩, found, h, hd => by
    rw [OnLines] at hd
    obtain ⟨-, hsuper, hfields, hmethods, htypes⟩ := hd
    rw [types?] at h
    obtain ⟨inMethods, hinMethods, h⟩ := Option.bind_eq_some_iff.mp h
    obtain ⟨inTypes, hinTypes, h⟩ := Option.bind_eq_some_iff.mp h
    rw [← Option.some.inj h]
    intro t ht
    rcases List.mem_append.mp ht with ht | ht
    · rcases List.mem_append.mp ht with ht | ht
      · rcases List.mem_append.mp ht with ht | ht
        · exact hsuper t ht
        · obtain ⟨f, hf, rfl⟩ := List.mem_map.mp ht
          exact (hfields f hf).type
      · obtain ⟨inOne, hinOne, ht⟩ := List.mem_flatten.mp ht
        obtain ⟨m, hm, hsome⟩ := partner_of_mem_right (mapM_some.mp hinMethods) hinOne
        exact methodTypes_isLine (hmethods m hm) hsome t ht
    · exact typesList?_isLine types inTypes hinTypes htypes t ht

theorem typesList?_isLine : (types : List ClassDecl) → (found : List TypeName) →
    typesList? types = some found → OnLinesList spell types → ∀ t ∈ found, t.IsLine
  | [], found, h, _ => by
    rw [typesList?] at h
    rw [← Option.some.inj h]
    exact fun t ht => nomatch ht
  | d :: rest, found, h, hd => by
    rw [OnLinesList] at hd
    rw [typesList?] at h
    obtain ⟨first, hfirst, h⟩ := Option.bind_eq_some_iff.mp h
    obtain ⟨others, hothers, h⟩ := Option.bind_eq_some_iff.mp h
    rw [← Option.some.inj h]
    intro t ht
    rcases List.mem_append.mp ht with ht | ht
    · exact types?_isLine d first hfirst hd.1 t ht
    · exact typesList?_isLine rest others hothers hd.2 t ht

end

end ClassDecl

/-! ### Files -/

namespace SourceStyle

variable {style : SourceStyle}

theorem headerLines_isLine {package : Text} {imports : List Text} (hpackage : package.IsLine)
    (himports : ∀ name ∈ imports, name.IsLine) :
    ∀ l ∈ style.headerLines package imports, l.IsLine := by
  intro l hl
  rcases List.mem_append.mp hl with hl | hl
  · split at hl
    · rw [List.mem_singleton.mp hl]
      decide
    · cases hl
  · rcases List.mem_append.mp hl with hl | hl
    · split at hl
      · cases hl
      · rcases List.mem_cons.mp hl with rfl | hl
        · exact Text.isLine_append.mpr
            ⟨Text.isLine_append.mpr ⟨by decide, hpackage⟩, by decide⟩
        · rw [List.mem_singleton.mp hl]
          exact List.not_mem_nil
    · split at hl
      · cases hl
      · rcases List.mem_append.mp hl with hl | hl
        · obtain ⟨name, hname, rfl⟩ := List.mem_map.mp hl
          exact Text.isLine_append.mpr
            ⟨Text.isLine_append.mpr ⟨by decide, himports name hname⟩, by decide⟩
        · rw [List.mem_singleton.mp hl]
          exact List.not_mem_nil

theorem fileText_lines {f : DirectionsFile} {imports : Imports} {text : Text}
    (himports : style.importsOf f = .ok imports) (h : style.fileText f = .ok text)
    (hpackage : f.className.package.IsLine) (hdecl : f.decl.OnLines imports.spell) :
    text.lines = style.fileLines imports f := by
  obtain ⟨imports', himports', h⟩ := bind_ok.mp h
  cases himports.symm.trans himports'
  obtain ⟨body, hbody, h⟩ := bind_ok.mp h
  have honLines : imports.OnLines := by
    unfold importsOf at himports
    split at himports
    next types htypes =>
      rw [← Except.ok.inj himports]
      refine Imports.addAll_onLines (ClassDecl.types?_isLine f.decl types htypes hdecl) ?_
      exact ⟨fun h => (nomatch h), fun name h => (nomatch h)⟩
    · cases himports
  have hheader : ∀ l ∈ style.headerLines f.className.package imports.sorted, l.IsLine :=
    headerLines_isLine hpackage fun name hname =>
      honLines.imported name (Imports.mem_sorted.mp hname)
  have hflat : (style.headerLines f.className.package imports.sorted).flatMap Text.lines =
      style.headerLines f.className.package imports.sorted := by
    generalize style.headerLines f.className.package imports.sorted = header at hheader
    induction header with
    | nil => rfl
    | cons l header ih =>
      have hrest := ih fun l' hl' => hheader l' (List.mem_cons_of_mem l hl')
      rw [List.flatMap_cons, hrest, Text.lines_of_isLine (hheader l List.mem_cons_self)]
      rfl
  rw [← Except.ok.inj h, layOutFile_eq, Text.lines_flatMap_endLine, hflat,
    classText_lines honLines.spell f.decl body hbody hdecl, fileLines]

open Source (IsClean)

/-- A source file whose names and statements are on one line each has the lines of its tree, each as
deep as it is nested, and cleaning it up only changes the line ends. -/
theorem fileText_layout (style : SourceStyle) (f : DirectionsFile)
    (hpackage : f.className.package.IsLine)
    (hdecl : ∀ imports, style.importsOf f = .ok imports → f.decl.OnLines imports.spell) :
    (f.decl.Printable → ∃ text, style.fileText f = .ok text) ∧
    ∀ text, style.fileText f = .ok text →
      (∃ imports, style.importsOf f = .ok imports ∧ text.lines = style.fileLines imports f) ∧
      ∀ (s : Settings) (ending : Text), s.lineEnding = .text ending →
        s.format text = .ok (Text.joinWith ending text.lines ++ ending) := by
  refine ⟨style.fileText_ok, fun text h => ?_⟩
  obtain ⟨imports, himports, -⟩ := bind_ok.mp h
  have hlines := fileText_lines himports h hpackage (hdecl imports himports)
  refine ⟨⟨imports, himports, hlines⟩, fun s ending hending => ?_⟩
  have hclean : IsClean text.lines := hlines ▸ fileLines_clean imports f
  rw [Settings.format, hending]
  exact congrArg Except.ok (Source.cleanUp_of_clean hclean ending)

def nextClass : TypeName := .ofClass ⟨[], "Next"⟩

def mainClass : ClassDecl :=
  ⟨"Main", [.publicAccess], [.ofClass ⟨"nav", "Directions"⟩],
    [⟨"count", .plain "int", [.privateAccess], some "1"⟩],
    [⟨"next", [.static], [⟨"id", .plain "int"⟩], some nextClass,
      [⟨"return new $T()", [.type nextClass]⟩], false⟩],
    [⟨"Next", [], [], [], [], []⟩]⟩

def mainImports : Imports :=
  (Imports.start "com.app" [] ["Main", "Next"]).addAll
    [.ofClass ⟨"nav", "Directions"⟩, .plain "int", nextClass, .plain "int", nextClass]

theorem importsOf_mainClass :
    importsOf ⟨true, .tab, []⟩ ⟨⟨"com.app", "Main"⟩, mainClass⟩ = .ok mainImports := by
  have htypes : mainClass.types? = some
      [.ofClass ⟨"nav", "Directions"⟩, .plain "int", nextClass, .plain "int", nextClass] := by
    decide +kernel
  rw [importsOf, htypes]
  rfl

theorem mainClass_printable : mainClass.Printable := by
  rw [mainClass, ClassDecl.Printable]
  refine ⟨by simp, by simp, ?_, ?_⟩
  · intro m hm s hs
    rw [List.mem_singleton.mp hm] at hs
    rw [List.mem_singleton.mp hs]
    exact ⟨.of_text rfl, [.type nextClass], rfl, by simp [SlotValue.type?]⟩
  · simp [ClassDecl.PrintableList, ClassDecl.Printable]

theorem mainClass_onLines : mainClass.OnLines mainImports.spell := by
  have hint : TypeName.IsLine (.plain "int") := by
    show Text.IsLine "int"
    decide
  have hnext : TypeName.IsLine nextClass := ⟨by decide, by decide⟩
  have hrender : Statement.render (slotText mainImports.spell)
      ⟨"return new $T()", [.type nextClass]⟩ = .ok "return new Next()" := by decide +kernel
  have hslots : Statement.typeArguments? ⟨"return new $T()", [.type nextClass]⟩ =
      some [.type nextClass] := by decide +kernel
  rw [mainClass, ClassDecl.OnLines]
  refine ⟨by decide, ?_, ?_, ?_, ?_⟩
  · intro t ht
    rw [List.mem_singleton.mp ht]
    exact ⟨by decide, by decide⟩
  · intro f hf
    rw [List.mem_singleton.mp hf]
    refine ⟨by decide, hint, fun value hvalue => ?_⟩
    rw [← Option.some.inj hvalue]
    decide
  · intro m hm
    rw [List.mem_singleton.mp hm]
    refine ⟨by decide, ?_, fun t ht => Option.some.inj ht ▸ hnext, ?_, ?_⟩
    · intro p hp
      rw [List.mem_singleton.mp hp]
      exact ⟨by decide, hint⟩
    · intro s hs slots hfound a ha t hat
      rw [List.mem_singleton.mp hs, hslots] at hfound
      rw [← Option.some.inj hfound] at ha
      rw [List.mem_singleton.mp ha] at hat
      exact Option.some.inj hat ▸ hnext
    · intro s hs text htext
      rw [List.mem_singleton.mp hs, hrender] at htext
      rw [← Except.ok.inj htext]
      exact ⟨by decide, by decide⟩
  · rw [ClassDecl.OnLinesList, ClassDecl.OnLines]
    simp [ClassDecl.OnLinesList]
    decide

theorem mainClass_layout :
    Text.IsLine "com.app" ∧
    (∀ imports, importsOf ⟨true, .tab, []⟩ ⟨⟨"com.app", "Main"⟩, mainClass⟩ = .ok imports →
      mainClass.OnLines imports.spell) ∧
    ∃ text, fileText ⟨true, .tab, []⟩ ⟨⟨"com.app", "Main"⟩, mainClass⟩ = .ok text ∧
      text.lines =
        (["// Generated by safeargs from the navigation graph. Do not edit.", "package com.app;", "",
          "import nav.Directions;", "", "public class Main implements Directions \x7b",
          "\tprivate int count = 1;", "", "\tstatic Next next(int id) \x7b",
          "\t\treturn new Next();", "\t\x7d", "", "\tclass Next \x7b", "\t\x7d", "\x7d"] :
            List String).map Text.ofString := by
  have hpackage : Text.IsLine "com.app" := by decide
  have hdecl : ∀ imports, importsOf ⟨true, .tab, []⟩ ⟨⟨"com.app", "Main"⟩, mainClass⟩ = .ok imports →
      mainClass.OnLines imports.spell := by
    intro imports himports
    cases importsOf_mainClass.symm.trans himports
    exact mainClass_onLines
  obtain ⟨hprints, hlayout⟩ :=
    fileText_layout ⟨true, .tab, []⟩ ⟨⟨"com.app", "Main"⟩, mainClass⟩ hpackage hdecl
  obtain ⟨text, htext⟩ := hprints mainClass_printable
  obtain ⟨⟨imports, himports, hlines⟩, -⟩ := hlayout text htext
  cases importsOf_mainClass.symm.trans himports
  have hsorted : mainImports.sorted = [("nav.Directions" : Text)] := by
    have himported : mainImports.imported = [("nav.Directions" : Text)] := by decide +kernel
    rw [Imports.sorted, himported, List.mergeSort_singleton]
  refine ⟨hpackage, hdecl, text, htext, hlines.trans ?_⟩
  rw [fileLines, hsorted]
  decide +kernel

end SourceStyle

end NavDirections
