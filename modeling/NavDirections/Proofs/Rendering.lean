import NavDirections.Source.Layout
import NavDirections.Proofs.DescribedFiles
import NavDirections.Proofs.SlotPatterns

/-!
# Classes that can be printed

The layout gives up on statements whose format and arguments do not go together and on types that
are left open.  No class that describes directions has either.
-/

namespace NavDirections

open Success

/-- The format takes all the arguments and no more, and its type slots hold types. -/
structure Statement.Printable (s : Statement) : Prop where
  checked : s.IsChecked
  types : ∃ slots, s.typeArguments? = some slots ∧ ∀ a ∈ slots, a.type?.isSome = true

namespace ClassDecl

mutual

/-- No type of the class is left open, and its statements can be printed. -/
def Printable : ClassDecl → Prop
  | ⟨_, _, superinterfaces, fields, methods, types⟩ =>
    (∀ t ∈ superinterfaces, t ≠ .absent) ∧ (∀ f ∈ fields, f.type ≠ .absent) ∧
      (∀ m ∈ methods, ∀ s ∈ m.statements, s.Printable) ∧ PrintableList types

def PrintableList : List ClassDecl → Prop
  | [] => True
  | d :: rest => Printable d ∧ PrintableList rest

end

theorem printableList_of_forall {types : List ClassDecl} (h : ∀ d ∈ types, d.Printable) :
    PrintableList types := by
  induction types with
  | nil => trivial
  | cons d rest ih =>
    exact ⟨h d List.mem_cons_self, ih fun d' hd => h d' (List.mem_cons_of_mem d hd)⟩

end ClassDecl

namespace SourceStyle

variable (style : SourceStyle) (spell : TypeName → Text)

theorem nameText_ok {t : TypeName} (h : t ≠ .absent) : ∃ text, nameText spell t = .ok text := by
  cases t with
  | absent => exact absurd rfl h
  | plain name => exact ⟨_, rfl⟩
  | ofClass c => exact ⟨_, rfl⟩
  | array component => exact ⟨_, rfl⟩

theorem fieldGroup_ok {fields : List Field} (h : ∀ f ∈ fields, f.type ≠ .absent) :
    ∃ texts, fieldGroup spell fields = .ok texts := by
  have hfield : ∀ f ∈ fields, ∃ text, fieldText spell f = .ok text := by
    intro f hf
    obtain ⟨type, htype⟩ := nameText_ok spell (h f hf)
    rw [fieldText, htype]
    exact ⟨_, rfl⟩
  obtain ⟨lines, hlines⟩ := mapM_total hfield
  rw [fieldGroup, hlines]
  exact ⟨_, rfl⟩

theorem statementText_ok {s : Statement} (h : s.Printable) :
    ∃ text, statementText spell s = .ok text := by
  obtain ⟨text, htext⟩ := h.checked.renders (slotText spell)
  obtain ⟨slots, hslots, hall⟩ := h.types
  rw [statementText, htext, hslots]
  refine ⟨text, if_pos ?_⟩
  exact List.all_eq_true.mpr hall

theorem methodText_ok {m : Method} (h : ∀ s ∈ m.statements, s.Printable) :
    ∃ text, style.methodText spell m = .ok text := by
  obtain ⟨statements, hstatements⟩ :=
    mapM_total fun s hs => statementText_ok spell (h s hs)
  rw [methodText, hstatements]
  exact ⟨_, rfl⟩

theorem classHead_ok {d : ClassDecl} (h : ∀ t ∈ d.superinterfaces, t ≠ .absent) :
    ∃ text, classHead spell d = .ok text := by
  obtain ⟨interfaces, hinterfaces⟩ := mapM_total fun t ht => nameText_ok spell (h t ht)
  rw [classHead, hinterfaces]
  exact ⟨_, rfl⟩

mutual

theorem classText_ok : (d : ClassDecl) → d.Printable →
    ∃ text, classText style spell d = .ok text
  | ⟨name, modifiers, superinterfaces, fields, methods, types⟩, h => by
    rw [ClassDecl.Printable] at h
    obtain ⟨hsuper, hfields, hmethods, htypes⟩ := h
    obtain ⟨head, hhead⟩ := classHead_ok spell
      (d := ⟨name, modifiers, superinterfaces, fields, methods, types⟩) hsuper
    obtain ⟨fieldTexts, hfieldTexts⟩ := fieldGroup_ok spell hfields
    obtain ⟨methodTexts, hmethodTexts⟩ :=
      mapM_total fun m hm => methodText_ok style spell (hmethods m hm)
    obtain ⟨typeTexts, htypeTexts⟩ := classTexts_ok types htypes
    rw [classText, hhead, hfieldTexts, hmethodTexts, htypeTexts]
    exact ⟨_, rfl⟩

theorem classTexts_ok : (types : List ClassDecl) → ClassDecl.PrintableList types →
    ∃ texts, classTexts style spell types = .ok texts
  | [], _ => ⟨[], rfl⟩
  | d :: rest, h => by
    rw [ClassDecl.PrintableList] at h
    obtain ⟨first, hfirst⟩ := classText_ok d h.1
    obtain ⟨others, hothers⟩ := classTexts_ok rest h.2
    rw [classTexts, hfirst, hothers]
    exact ⟨_, rfl⟩

end

end SourceStyle

namespace ClassDecl

theorem methodTypes_some {m : Method} (h : ∀ s ∈ m.statements, s.Printable) :
    ∃ types, methodTypes m = some types := by
  have hslots : ∃ slots, m.statements.mapM (·.typeArguments?) = some slots := by
    refine mapM_some_total fun s hs => ?_
    obtain ⟨slots, hslots, -⟩ := (h s hs).types
    exact ⟨slots, hslots⟩
  obtain ⟨slots, hslots⟩ := hslots
  rw [methodTypes, hslots]
  exact ⟨_, rfl⟩

mutual

theorem types?_some : (d : ClassDecl) → d.Printable → ∃ types, d.types? = some types
  | ⟨_, _, _, fields, methods, types⟩, h => by
    rw [Printable] at h
    obtain ⟨-, -, hmethods, htypes⟩ := h
    obtain ⟨inMethods, hinMethods⟩ :=
      mapM_some_total fun m hm => methodTypes_some (hmethods m hm)
    obtain ⟨inTypes, hinTypes⟩ := typesList?_some types htypes
    rw [types?, hinMethods, hinTypes]
    exact ⟨_, rfl⟩

theorem typesList?_some : (types : List ClassDecl) → PrintableList types →
    ∃ found, typesList? types = some found
  | [], _ => ⟨[], rfl⟩
  | d :: rest, h => by
    rw [PrintableList] at h
    obtain ⟨first, hfirst⟩ := types?_some d h.1
    obtain ⟨others, hothers⟩ := typesList?_some rest h.2
    rw [typesList?, hfirst, hothers]
    exact ⟨_, rfl⟩

end

end ClassDecl

theorem SourceStyle.importsOf_eq (style : SourceStyle) {f : DirectionsFile} {types : List TypeName}
    (htypes : f.decl.types? = some types) : style.importsOf f = .ok
      ((Imports.start f.className.package style.outside f.decl.declaredNames).addAll types) := by
  rw [importsOf, htypes]

theorem SourceStyle.fileText_ok (style : SourceStyle) {f : DirectionsFile}
    (h : f.decl.Printable) : ∃ text, style.fileText f = .ok text := by
  obtain ⟨types, htypes⟩ := ClassDecl.types?_some f.decl h
  obtain ⟨text, htext⟩ := style.classText_ok
    ((Imports.start f.className.package style.outside f.decl.declaredNames).addAll types).spell
    f.decl h
  rw [fileText, style.importsOf_eq htypes]
  show ∃ _, (classText _ _ _ >>= _) = _
  rw [htext]
  exact ⟨_, rfl⟩

/-! ### Classes of directions -/

theorem ArgumentType.representation_ne_absent {t : ArgumentType} {type : TypeName}
    (h : t.representation = .ok type) : type ≠ .absent := by
  obtain ⟨tag, isArray, className⟩ := t
  obtain ⟨-, -, h⟩ := bind_ok.mp h
  rintro rfl
  cases isArray with
  | true => cases h
  | false => cases tag <;> cases h

theorem Statement.printable_of_untyped {s : Statement}
    {text : Text} (htext : s.fullText = .ok text) (htypes : s.typeArguments? = some []) :
    s.Printable :=
  ⟨.of_text htext, [], htypes, fun _ h => nomatch h⟩

theorem HeldArgument.assignment_printable (h : HeldArgument) : h.assignment.Printable :=
  Statement.printable_of_untyped rfl rfl

theorem HeldArgument.put_printable (h : HeldArgument) (container : Text) :
    (h.put container).Printable :=
  Statement.printable_of_untyped rfl rfl

theorem ArgumentList.containerMethod_printable (held : ArgumentList) (container : ClassName) :
    ∀ s ∈ (held.containerMethod container).statements, s.Printable := by
  intro s hs
  rcases List.mem_append.mp hs with hs | hs
  · rcases List.mem_append.mp hs with hs | hs
    · rw [List.mem_singleton.mp hs]
      refine ⟨.of_text rfl, [.type (.ofClass container), .type (.ofClass container)], rfl, ?_⟩
      simp [SlotValue.type?]
    · obtain ⟨h, -, rfl⟩ := List.mem_map.mp hs
      exact h.put_printable containerVariable
  · rw [List.mem_singleton.mp hs]
    exact Statement.printable_of_untyped rfl rfl

theorem Action.classOf_printable {a : Action} {applicationId : Text} {host : HostClasses}
    {nested : ClassDecl} (h : a.directionsClass applicationId host = .ok nested) :
    nested.Printable := by
  obtain ⟨held, hheld, rfl⟩ := Action.directionsClass_ok.mp h
  rw [classOf, classWith, ClassDecl.Printable]
  refine ⟨by simp, ?_, ?_, trivial⟩
  · intro f hf
    obtain ⟨k, hk, rfl⟩ := List.mem_map.mp hf
    obtain ⟨x, -, hx⟩ := partner_of_mem_right hheld.arguments hk
    exact ArgumentType.representation_ne_absent hx.type
  · intro m hm
    rcases mem_methods_classOf.mp hm with rfl | ⟨k, -, rfl⟩ | rfl | rfl | rfl
    · intro s hs
      obtain ⟨k, -, rfl⟩ := List.mem_map.mp hs
      exact k.assignment_printable
    · intro s hs
      rcases List.mem_cons.mp hs with rfl | hs
      · exact k.assignment_printable
      · rw [List.mem_singleton.mp hs]
        exact Statement.printable_of_untyped rfl rfl
    · exact held.containerMethod_printable host.container
    · intro s hs
      rw [List.mem_singleton.mp hs]
      exact Statement.printable_of_untyped rfl rfl
    · intro s hs
      rw [List.mem_singleton.mp hs]
      exact Statement.printable_of_untyped rfl rfl

theorem factory_printable (a : Action) (nested : ClassDecl) :
    ∀ s ∈ (factory a nested).statements, s.Printable := by
  intro s hs
  rw [List.mem_singleton.mp hs]
  refine ⟨.of_text rfl, [.type (.ofClass ⟨[], nested.name⟩)], rfl, ?_⟩
  simp [SlotValue.type?]

theorem Destination.Holds.printable {d : Destination} {name applicationId : Text}
    {host : HostClasses} {decl : ClassDecl} (h : d.Holds name applicationId host decl) :
    decl.Printable := by
  rw [h.decl, ClassDecl.Printable]
  refine ⟨by simp, by simp, ?_, ?_⟩
  · intro m hm
    obtain ⟨⟨a, nested⟩, -, rfl⟩ := List.mem_map.mp hm
    exact factory_printable a nested
  · refine ClassDecl.printableList_of_forall fun t ht => ?_
    obtain ⟨a, -, ha⟩ := partner_of_mem_right h.types ht
    exact Action.classOf_printable ha

end NavDirections
