import NavDirections.Proofs.LayoutPrinter

/-!
# Texts that are laid out

What the layouts of source files come to: a method and a class are a head and a body between braces,
and a file is a class below the lines of its header.
-/

namespace NavDirections

open LayoutTemplate (endLine)

namespace LayoutPart

theorem lines_each (c : LayoutContext) (item list : Text) (parts : List LayoutPart) :
    lines c (.each item list parts) =
      match c.textsOf list with
      | [] => []
      | t :: rest => linesOf (c.forItem item t true) parts ++
        rest.flatMap fun t => linesOf (c.forItem item t false) parts := by
  have hlater (ts : List Text) (i : Nat) :
      ((ts.zipIdx (i + 1)).flatMap fun p => linesOf (c.forItem item p.1 (p.2 == 0)) parts) =
        ts.flatMap fun t => linesOf (c.forItem item t false) parts := by
    induction ts generalizing i with
    | nil => rfl
    | cons t ts ih =>
      rw [List.zipIdx_cons, List.flatMap_cons, ih, List.flatMap_cons]
      rfl
  rw [lines]
  cases c.textsOf list with
  | nil => rfl
  | cons t rest => exact congrArg (linesOf (c.forItem item t true) parts ++ ·) (hlater rest 0)

theorem lines_each_one {c : LayoutContext} {item : Text} {parts : List LayoutPart} {f : Text → Text}
    (hf : ∀ t isFirst, linesOf (c.forItem item t isFirst) parts = [f t]) (list : Text) :
    lines c (.each item list parts) = (c.textsOf list).map f := by
  rw [lines_each]
  cases c.textsOf list with
  | nil => rfl
  | cons t rest =>
    simp only [hf, List.singleton_append]
    exact congrArg (f t :: ·) List.map_eq_flatMap.symm

theorem lines_each_between {c : LayoutContext} {item : Text} {parts : List LayoutPart}
    {f : Text → Text} (hf : ∀ t isFirst, linesOf (c.forItem item t isFirst) parts = [f t])
    (list : Text) : lines c (.each item list (.between [.line []] :: parts)) =
      ((c.textsOf list).map f).intersperse [] := by
  have hfirst (t : Text) :
      linesOf (c.forItem item t true) (.between [.line []] :: parts) = [f t] := by
    rw [linesOf, hf]
    rfl
  have hlater (t : Text) :
      linesOf (c.forItem item t false) (.between [.line []] :: parts) = [[], f t] := by
    rw [linesOf, hf]
    rfl
  rw [lines_each]
  cases c.textsOf list with
  | nil => rfl
  | cons t rest =>
    simp only [hfirst, hlater, List.singleton_append]
    induction rest generalizing t with
    | nil => rfl
    | cons next rest ih =>
      rw [List.flatMap_cons, List.map_cons, List.map_cons, List.intersperse_cons_cons,
        ← List.map_cons, ← ih]
      rfl

end LayoutPart

namespace SourceStyle

variable (style : SourceStyle)

/-- A head with the parts of a body between braces, each on lines of its own. -/
def braced (head : Text) (body : List Text) : Text :=
  ((head ++ " \x7b") :: body).flatMap endLine ++ closingLine

/-- The members of a class one level deeper, with a blank line between neighbours. -/
def classBody (members : List Text) : List Text :=
  (members.map (·.indentWith style.indentation.text)).intersperse []

theorem layOutMethod_eq (signature : Text) (statements : List Text) :
    style.layOutMethod signature statements = braced signature
      (statements.map fun s => s.indentWith style.indentation.text ++ (";" : Text)) := by
  let c : LayoutContext := ⟨style.indentation.text,
    [("signature", .text signature), ("statements", .texts statements)], false⟩
  have hbody : LayoutPart.lines c (.each "statement" "statements"
      [.line [.shown "statement" (some .indent), .plain ";"]]) =
      statements.map fun s => s.indentWith style.indentation.text ++ (";" : Text) :=
    LayoutPart.lines_each_one (fun _ _ => rfl) "statements"
  have hparts : LayoutPart.linesOf c LayoutTemplate.method.parts = (signature ++ " \x7b") ::
      statements.map fun s => s.indentWith style.indentation.text ++ (";" : Text) :=
    congrArg ((signature ++ " \x7b") :: ·) ((List.append_nil _).trans hbody)
  exact congrArg (fun lines : List Text => lines.flatMap endLine ++ closingLine) hparts

theorem layOutClass_eq (declaration : Text) (members : List Text) :
    style.layOutClass declaration members = braced declaration (style.classBody members) := by
  let c : LayoutContext := ⟨style.indentation.text,
    [("declaration", .text declaration), ("blocks", .texts members)], false⟩
  have hblock (t : Text) (isFirst : Bool) : LayoutPart.linesOf (c.forItem "block" t isFirst)
      [.line [.shown "block" (some .indent)]] = [t.indentWith style.indentation.text] :=
    congrArg (fun line : Text => [line]) (List.append_nil (t.indentWith style.indentation.text))
  have hbody : LayoutPart.lines c (.each "block" "blocks"
      [.between [.line []], .line [.shown "block" (some .indent)]]) = style.classBody members :=
    LayoutPart.lines_each_between hblock "blocks"
  have hparts : LayoutPart.linesOf c LayoutTemplate.type.parts =
      (declaration ++ " \x7b") :: style.classBody members :=
    congrArg ((declaration ++ " \x7b") :: ·) ((List.append_nil _).trans hbody)
  exact congrArg (fun lines : List Text => lines.flatMap endLine ++ closingLine) hparts

theorem layOutFile_eq (package : Text) (imports : List Text) (type : Text) :
    style.layOutFile package imports type =
      (style.headerLines package imports).flatMap endLine ++ type := by
  let c : LayoutContext := ⟨style.indentation.text,
    [("header", if style.comments then .text generatedNotice else .nothing),
     ("package_name", .text package), ("imports", .texts imports), ("type_source", .text type)],
    false⟩
  have hnotice : LayoutPart.lines c (.given "header" [.line [.shown "header" (some .comment)]]) =
      if style.comments then ["// " ++ generatedNotice] else [] := by
    have hvalue : c.value "header" =
      if style.comments then .text generatedNotice else .nothing := rfl
    cases h : style.comments with
    | false =>
      rw [h] at hvalue
      rw [LayoutPart.lines, hvalue]
      rfl
    | true =>
      rw [h] at hvalue
      rw [LayoutPart.lines, hvalue, if_pos (by decide)]
      show [Text.comment (c.textOf "header") "//" ++ []] = _
      rw [LayoutContext.textOf, hvalue]
      decide
  have hpackage : LayoutPart.lines c (.given "package_name"
      [.line [.plain "package ", .shown "package_name" none, .plain ";"], .line []]) =
      if package = [] then [] else ["package " ++ package ++ ";", []] := by
    cases package with
    | nil => rfl
    | cons first rest =>
      rw [if_neg (List.cons_ne_nil first rest)]
      exact congrArg (fun line : Text => [line, []]) (List.append_assoc _ _ _).symm
  have hname (t : Text) (isFirst : Bool) : LayoutPart.linesOf (c.forItem "name" t isFirst)
      [.line [.plain "import ", .shown "name" none, .plain ";"]] = [importLine t] :=
    congrArg (fun line : Text => [line]) (List.append_assoc ("import " : Text) t ";").symm
  have hnames : LayoutPart.lines c (.each "name" "imports"
      [.line [.plain "import ", .shown "name" none, .plain ";"]]) = imports.map importLine :=
    LayoutPart.lines_each_one hname "imports"
  have hend : LayoutPart.lines c (.given "imports" [.line []]) =
      if imports = [] then [] else [[]] := by
    cases imports <;> rfl
  have hparts : LayoutPart.linesOf c LayoutTemplate.file.parts =
      style.headerLines package imports := by
    simp only [LayoutTemplate.file, LayoutPart.linesOf, hnotice, hpackage, hnames, hend,
      List.append_nil]
    rw [headerLines]
    cases imports <;> rfl
  have hlast : c.line LayoutTemplate.file.last = type := List.append_nil type
  rw [layOutFile, LayoutTemplate.render]
  exact congrArg₂ (fun (lines : List Text) last => lines.flatMap endLine ++ last) hparts hlast

end SourceStyle
end NavDirections
