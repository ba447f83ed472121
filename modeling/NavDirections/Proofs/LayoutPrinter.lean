import NavDirections.Proofs.CleanLines

/-!
# The lines of a class at its depth

A printer that walks over the tree of a source file once and knows the depth of each line.  A class
one level deeper has the same lines, each indented once more, and cleaning up leaves them all as
they are.
-/

namespace NavDirections

namespace SourceStyle

variable (style : SourceStyle) (spell : TypeName → Text)

def lineAt (depth : Nat) (line : Text) : Text :=
  (List.replicate depth style.indentation.text).flatten ++ line

def fieldLine (f : Field) : Text :=
  let start : Text := match f.initializer with
    | some value => " = " ++ value
    | none => []
  Text.joinWith " " (f.modifiers.map (·.keyword) ++ [spell f.type, f.name]) ++ start ++ ";"

def statementLine (s : Statement) : Text := (s.render (slotText spell)).toOption.getD [] ++ ";"

def classLine (d : ClassDecl) : Text :=
  let interfaces : Text :=
    if d.superinterfaces = [] then []
    else " implements " ++ Text.joinWith ", " (d.superinterfaces.map spell)
  Text.joinWith " " (d.modifiers.map (·.keyword) ++ [("class" : Text), d.name]) ++ interfaces ++ " \x7b"

def closingLine : Text := "\x7d"

/-- Groups of lines with one blank line between neighbours. -/
def separated : List (List Text) → List Text
  | [] => []
  | [group] => group
  | group :: next :: groups => group ++ [] :: separated (next :: groups)

/-- All fields of a class as one group, where it has any. -/
def fieldLines (depth : Nat) (fields : List Field) : List (List Text) :=
  if fields = [] then [] else [fields.map fun f => style.lineAt depth (fieldLine spell f)]

def methodLines (depth : Nat) (m : Method) : List Text :=
  style.lineAt depth (signature spell m ++ " \x7b") ::
    (m.statements.map fun s => style.lineAt (depth + 1) (statementLine spell s)) ++
    [style.lineAt depth closingLine]

mutual

def classLines (depth : Nat) : ClassDecl → List Text
  | ⟨name, modifiers, superinterfaces, fields, methods, types⟩ =>
    style.lineAt depth (classLine spell ⟨name, modifiers, superinterfaces, fields, methods, types⟩) ::
      separated (style.fieldLines spell (depth + 1) fields ++
        methods.map (style.methodLines spell (depth + 1)) ++ typeLines (depth + 1) types) ++
      [style.lineAt depth closingLine]

def typeLines (depth : Nat) : List ClassDecl → List (List Text)
  | [] => []
  | d :: rest => classLines depth d :: typeLines depth rest

end

def importLine (name : Text) : Text := "import " ++ name ++ ";"

def headerLines (package : Text) (imports : List Text) : List Text :=
  (if style.comments then ["// " ++ generatedNotice] else []) ++
  ((if package = [] then [] else ["package " ++ package ++ ";", []]) ++
  (if imports = [] then [] else imports.map importLine ++ [[]]))

/-- The lines of a file whose imports have been chosen. -/
def fileLines (imports : Imports) (f : DirectionsFile) : List Text :=
  style.headerLines f.className.package imports.sorted ++ style.classLines imports.spell 0 f.decl

end SourceStyle

namespace SourceStyle

variable {style : SourceStyle} {spell : TypeName → Text}

theorem firm_semicolon (t : Text) : (t ++ ";").IsFirm :=
  Text.IsFirm.append ⟨[], ';', rfl, by decide⟩ t

theorem firm_brace (t : Text) : (t ++ " \x7b").IsFirm :=
  Text.IsFirm.append ⟨[CodePoint.ofChar ' '], '\x7b', rfl, by decide⟩ t

theorem firm_fieldLine (f : Field) : (fieldLine spell f).IsFirm := firm_semicolon _

theorem firm_statementLine (s : Statement) : (statementLine spell s).IsFirm := firm_semicolon _

theorem firm_classLine (d : ClassDecl) : (classLine spell d).IsFirm := firm_brace _

theorem firm_closingLine : closingLine.IsFirm := ⟨[], '\x7d', rfl, by decide⟩

theorem indentLine_lineAt {line : Text} (h : line.IsFirm) (depth : Nat) :
    Text.indentLine style.indentation.text (style.lineAt depth line) =
      style.lineAt (depth + 1) line := by
  rw [lineAt, (h.append _).indentLine_eq, lineAt, List.replicate_succ, List.flatten_cons,
    List.append_assoc]

theorem map_separated {f : Text → Text} (hf : f [] = []) : (groups : List (List Text)) →
    (separated groups).map f = separated (groups.map (List.map f))
  | [] => rfl
  | [group] => rfl
  | group :: next :: groups => by
    have hrest := map_separated hf (next :: groups)
    rw [List.map_cons] at hrest
    rw [separated, List.map_append, List.map_cons, hf, hrest]
    rfl

theorem fieldLines_succ (depth : Nat) (fields : List Field) :
    (style.fieldLines spell depth fields).map (List.map (Text.indentLine style.indentation.text)) =
      style.fieldLines spell (depth + 1) fields := by
  unfold fieldLines
  split
  · rfl
  · simp [Function.comp_def, indentLine_lineAt (firm_fieldLine _)]

theorem methodLines_succ (depth : Nat) (m : Method) :
    (style.methodLines spell depth m).map (Text.indentLine style.indentation.text) =
      style.methodLines spell (depth + 1) m := by
  simp [methodLines, Function.comp_def, indentLine_lineAt (firm_statementLine _),
    indentLine_lineAt (firm_brace _), indentLine_lineAt firm_closingLine]

mutual

/-- A class one level deeper is the class with each of its lines indented once more. -/
theorem classLines_succ (depth : Nat) : (d : ClassDecl) →
    (style.classLines spell depth d).map (Text.indentLine style.indentation.text) =
      style.classLines spell (depth + 1) d
  | ⟨name, modifiers, superinterfaces, fields, methods, types⟩ => by
    have hblank : Text.indentLine style.indentation.text [] = [] := rfl
    have hmethods : (methods.map (style.methodLines spell (depth + 1))).map
        (List.map (Text.indentLine style.indentation.text)) =
          methods.map (style.methodLines spell (depth + 2)) := by
      rw [List.map_map]
      exact List.map_congr_left fun m _ => methodLines_succ (depth + 1) m
    rw [classLines, classLines, List.map_append, List.map_cons, map_separated hblank,
      List.map_append, List.map_append, fieldLines_succ, hmethods, typeLines_succ (depth + 1) types,
      indentLine_lineAt (firm_classLine _), List.map_singleton, indentLine_lineAt firm_closingLine]

theorem typeLines_succ (depth : Nat) : (types : List ClassDecl) →
    (style.typeLines spell depth types).map (List.map (Text.indentLine style.indentation.text)) =
      style.typeLines spell (depth + 1) types
  | [] => by simp only [typeLines, List.map_nil]
  | d :: rest => by
    rw [typeLines, typeLines, List.map_cons, classLines_succ depth d, typeLines_succ depth rest]

end

/-! ### Clean lines -/

open Source (IsClean)

theorem firm_lineAt {line : Text} (h : line.IsFirm) (depth : Nat) :
    (style.lineAt depth line).IsFirm := h.append _

theorem separated_clean : {groups : List (List Text)} →
    (∀ group ∈ groups, IsClean group ∧ group ≠ []) → IsClean (separated groups)
  | [], _ => .of_firm fun l hl => nomatch hl
  | [group], h => (h group List.mem_cons_self).1
  | group :: next :: groups, h => by
    obtain ⟨hgroup, hne⟩ := h group List.mem_cons_self
    have hrest : IsClean (separated (next :: groups)) :=
      separated_clean fun g hg => h g (List.mem_cons_of_mem group hg)
    refine hgroup.append_blank hrest hne ?_
    have hnext : next ≠ [] := (h next (List.mem_cons_of_mem group List.mem_cons_self)).2
    cases groups with
    | nil => exact hnext
    | cons other groups => simp [separated, hnext]

theorem fieldLines_clean (depth : Nat) (fields : List Field) :
    ∀ group ∈ style.fieldLines spell depth fields, IsClean group ∧ group ≠ [] := by
  intro group hgroup
  unfold fieldLines at hgroup
  split at hgroup
  · cases hgroup
  next hne =>
    rw [List.mem_singleton.mp hgroup]
    refine ⟨.of_firm fun l hl => ?_, by simp [hne]⟩
    obtain ⟨f, -, rfl⟩ := List.mem_map.mp hl
    exact firm_lineAt (firm_fieldLine f) depth

theorem methodLines_clean (depth : Nat) (m : Method) :
    IsClean (style.methodLines spell depth m) := by
  refine .of_firm fun l hl => ?_
  rcases List.mem_append.mp hl with hl | hl
  · rcases List.mem_cons.mp hl with rfl | hl
    · exact firm_lineAt (firm_brace _) depth
    · obtain ⟨s, -, rfl⟩ := List.mem_map.mp hl
      exact firm_lineAt (firm_statementLine s) (depth + 1)
  · rw [List.mem_singleton.mp hl]
    exact firm_lineAt firm_closingLine depth

theorem classLines_ne_nil (style : SourceStyle) (spell : TypeName → Text) (depth : Nat)
    (d : ClassDecl) : style.classLines spell depth d ≠ [] := by
  cases d
  rw [classLines]
  exact List.cons_ne_nil _ _

mutual

theorem classLines_clean (depth : Nat) : (d : ClassDecl) →
    IsClean (style.classLines spell depth d)
  | ⟨name, modifiers, superinterfaces, fields, methods, types⟩ => by
    have hmembers : IsClean (separated (style.fieldLines spell (depth + 1) fields ++
        methods.map (style.methodLines spell (depth + 1)) ++
          style.typeLines spell (depth + 1) types)) := by
      refine separated_clean fun group hgroup => ?_
      rcases List.mem_append.mp hgroup with hgroup | hgroup
      · rcases List.mem_append.mp hgroup with hgroup | hgroup
        · exact fieldLines_clean (depth + 1) fields group hgroup
        · obtain ⟨m, -, rfl⟩ := List.mem_map.mp hgroup
          exact ⟨methodLines_clean (depth + 1) m, List.cons_ne_nil _ _⟩
      · exact typeLines_clean (depth + 1) types group hgroup
    have hopen : IsClean [style.lineAt depth (classLine spell
        ⟨name, modifiers, superinterfaces, fields, methods, types⟩)] := by
      refine .of_firm fun l hl => ?_
      rw [List.mem_singleton.mp hl]
      exact firm_lineAt (firm_classLine _) depth
    have hclose : IsClean [style.lineAt depth closingLine] := by
      refine .of_firm fun l hl => ?_
      rw [List.mem_singleton.mp hl]
      exact firm_lineAt firm_closingLine depth
    rw [classLines]
    exact (hopen.append hmembers).append hclose

theorem typeLines_clean (depth : Nat) : (types : List ClassDecl) →
    ∀ group ∈ style.typeLines spell depth types, IsClean group ∧ group ≠ []
  | [], group, hgroup => by
    rw [typeLines] at hgroup
    cases hgroup
  | d :: rest, group, hgroup => by
    rw [typeLines] at hgroup
    rcases List.mem_cons.mp hgroup with rfl | hgroup
    · exact ⟨classLines_clean depth d, style.classLines_ne_nil spell depth d⟩
    · exact typeLines_clean depth rest group hgroup

end

theorem fileLines_clean (imports : Imports) (f : DirectionsFile) :
    IsClean (style.fileLines imports f) := by
  have hclass : IsClean (style.classLines imports.spell 0 f.decl) := classLines_clean 0 f.decl
  have hclassNe := style.classLines_ne_nil imports.spell 0 f.decl
  -- From the class upwards, each part of the header is put in front of what is clean already.
  obtain ⟨body, hbody, hclean, hne⟩ : ∃ body, body =
      (if imports.sorted = [] then [] else imports.sorted.map importLine ++ [[]]) ++
        style.classLines imports.spell 0 f.decl ∧ IsClean body ∧ body ≠ [] := by
    refine ⟨_, rfl, ?_, by simp [hclassNe]⟩
    split
    · exact hclass
    next himports =>
      have hlines : IsClean (imports.sorted.map importLine) := by
        refine .of_firm fun l hl => ?_
        obtain ⟨name, -, rfl⟩ := List.mem_map.mp hl
        exact firm_semicolon _
      have hboth := hlines.append_blank hclass (by simp [himports]) hclassNe
      simpa using hboth
  obtain ⟨body', hbody', hclean'⟩ : ∃ body', body' =
      (if f.className.package = [] then [] else ["package " ++ f.className.package ++ ";", []]) ++
        body ∧ IsClean body' := by
    refine ⟨_, rfl, ?_⟩
    split
    · exact hclean
    · have hpackage : IsClean [("package " : Text) ++ f.className.package ++ ";"] := by
        refine .of_firm fun l hl => ?_
        rw [List.mem_singleton.mp hl]
        exact firm_semicolon _
      exact hpackage.append_blank hclean (List.cons_ne_nil _ _) hne
  have hwhole : style.fileLines imports f =
      (if style.comments then ["// " ++ generatedNotice] else []) ++ body' := by
    rw [fileLines, headerLines, hbody', hbody]
    simp only [List.append_assoc]
  rw [hwhole]
  split
  · have hnotice : generatedNotice =
        "Generated by safeargs from the navigation graph. Do not edit" ++ [CodePoint.ofChar '.'] := by
      decide +kernel
    refine IsClean.append (.of_firm fun l hl => ?_) hclean'
    rw [List.mem_singleton.mp hl, hnotice]
    exact ⟨_, '.', (List.append_assoc _ _ _).symm, by decide⟩
  · exact hclean'

end SourceStyle

end NavDirections
