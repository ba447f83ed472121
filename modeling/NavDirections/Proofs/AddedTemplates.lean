import NavDirections.Proofs.Lookup
import NavDirections.Proofs.Success
import NavDirections.Template.Places

/-!
# Templates that are added

An engine in memory keeps every template that is not replaced, and shows it as before if nothing that
it shows is added.  An engine over a directory loses all of its templates with the first one that is
added to it, also where a generator adds the templates that it brings along and that the directory
lacks.
-/

namespace NavDirections

open Success

namespace TemplateEngine

variable {τ ν : Type} {l : TemplateLanguage τ ν}
  {e later : TemplateEngine} {t : FileTree} {name source : Text}

def IsInMemory (e : TemplateEngine) : Prop := ∃ sources, e.store = .memory sources

/-- A template is still there in another engine, and shows the same for all values. -/
def Keeps (l : TemplateLanguage τ ν) (e : TemplateEngine) (t : FileTree) (name : Text)
    (later : TemplateEngine) : Prop :=
  later.hasTemplate l t name = .ok true ∧
    ∀ values, later.render l t name values = e.render l t name values

/-- A template shows nothing of what could be loaded under the given names. -/
def Ignores (l : TemplateLanguage τ ν) (e : TemplateEngine) (t : FileTree) (name : Text)
    (others : List Text) : Prop :=
  ∀ template, e.template l t name = .ok template →
    ∀ load, (∀ other, other ∉ others → load other = e.template l t other) →
      ∀ values, l.render load values template = l.render (e.template l t) values template

theorem hasTemplate_eq_true_iff :
    e.hasTemplate l t name = .ok true ↔ ∃ template, e.template l t name = .ok template := by
  unfold hasTemplate
  split
  next template h => exact iff_of_true rfl ⟨template, h⟩
  next p h =>
    refine iff_of_false ?_ (by simp [h])
    split <;> exact nofun

theorem source_of_hasTemplate (h : e.hasTemplate l t name = .ok true) :
    ∃ source, e.source t name = .ok source := by
  obtain ⟨template, htemplate⟩ := hasTemplate_eq_true_iff.mp h
  obtain ⟨source, hsource, -⟩ := bind_ok.mp htemplate
  exact ⟨source, hsource⟩

/-- An engine looks for one source and compiles it with its indentation. -/
theorem template_congr (hunit : later.unit = e.unit)
    (hsource : later.source t name = e.source t name) :
    later.template l t name = e.template l t name := by
  rw [template, template, hsource, hunit]

theorem Keeps.refl (hname : e.hasTemplate l t name = .ok true) : e.Keeps l t name e :=
  ⟨hname, fun _ => rfl⟩

theorem Ignores.keeps {others : List Text} (h : e.Ignores l t name others)
    (hname : e.hasTemplate l t name = .ok true)
    (hsame : later.template l t name = e.template l t name)
    (hload : ∀ other, other ∉ others → later.template l t other = e.template l t other) :
    e.Keeps l t name later := by
  obtain ⟨template, htemplate⟩ := hasTemplate_eq_true_iff.mp hname
  refine ⟨hasTemplate_eq_true_iff.mpr ⟨template, hsame.trans htemplate⟩, fun values => ?_⟩
  rw [render, render, hsame, htemplate]
  show later.renderTemplate l t values template = e.renderTemplate l t values template
  rw [renderTemplate, renderTemplate, h template htemplate (later.template l t) hload values]

theorem not_hasTemplate_of_notFound (h : later.source t name = .error (.notFound name)) :
    ¬later.hasTemplate l t name = .ok true := by
  intro hname
  obtain ⟨source, hsource⟩ := source_of_hasTemplate hname
  rw [h] at hsource
  cases hsource

/-- The outcome of looking a template up in memory. -/
def outcome (name : Text) : Option Text → Except TemplateProblem Text
  | some source => .ok source
  | none => .error (.notFound name)

theorem source_of_memory {sources : List (Text × Text)} (h : e.store = .memory sources)
    (t : FileTree) (name : Text) : e.source t name = outcome name (sources.lookup name) := by
  rw [TemplateEngine.source, h]
  dsimp only
  cases sources.lookup name <;> rfl

theorem add_isInMemory (e : TemplateEngine) (name source : Text) :
    (e.add name source).IsInMemory := ⟨_, rfl⟩

theorem IsInMemory.source_add (he : e.IsInMemory) (t : FileTree) {added : Text}
    (hne : name ≠ added) : (e.add added source).source t name = e.source t name := by
  obtain ⟨sources, hsources⟩ := he
  have hadd : (e.add added source).store = .memory ((added, source) :: sources) := by
    rw [add, hsources]
  rw [source_of_memory hadd, source_of_memory hsources, lookup_cons_ne hne]

theorem source_add_of_directory {path : FilePath} (he : e.store = .directory path) (t : FileTree)
    {added : Text} (hne : name ≠ added) :
    (e.add added source).source t name = .error (.notFound name) := by
  have hadd : (e.add added source).store = .memory [(added, source)] := by
    rw [add, he]
  rw [source_of_memory hadd, lookup_cons_ne hne]
  rfl

theorem not_isInMemory_iff : ¬e.IsInMemory ↔ ∃ path, e.store = .directory path := by
  cases h : e.store with
  | memory sources => exact iff_of_false (not_not_intro ⟨sources, h⟩) (by simp)
  | directory path =>
    refine iff_of_true ?_ ⟨path, rfl⟩
    rintro ⟨sources, hsources⟩
    rw [h] at hsources
    cases hsources

/-! ### Adding templates in turn -/

theorem addAll_unit (e : TemplateEngine) (added : List (Text × Text)) :
    (e.addAll added).unit = e.unit := by
  induction added generalizing e with
  | nil => rfl
  | cons first rest ih => exact ih (e.add first.1 first.2)

theorem IsInMemory.source_addAll (he : e.IsInMemory) (t : FileTree) {added : List (Text × Text)}
    (hname : name ∉ added.map Prod.fst) : (e.addAll added).source t name = e.source t name := by
  induction added generalizing e with
  | nil => rfl
  | cons first rest ih =>
    rw [List.map_cons, List.mem_cons, not_or] at hname
    have hrest := ih (add_isInMemory e first.1 first.2) hname.2
    rw [he.source_add t hname.1] at hrest
    exact hrest

/-- Whatever is added to a directory, a template of another name is gone. -/
theorem source_addAll_of_directory {path : FilePath} (he : e.store = .directory path) (t : FileTree)
    {added : List (Text × Text)} (hadded : added ≠ []) (hname : name ∉ added.map Prod.fst) :
    (e.addAll added).source t name = .error (.notFound name) := by
  obtain ⟨first, rest, rfl⟩ := List.exists_cons_of_ne_nil hadded
  rw [List.map_cons, List.mem_cons, not_or] at hname
  have hrest := (add_isInMemory e first.1 first.2).source_addAll t hname.2
  rw [source_add_of_directory he t hname.1] at hrest
  exact hrest

theorem IsInMemory.template_addAll (he : e.IsInMemory) {added : List (Text × Text)}
    (hname : name ∉ added.map Prod.fst) :
    (e.addAll added).template l t name = e.template l t name :=
  template_congr (addAll_unit e added) (he.source_addAll t hname)

theorem hasTemplate_addAll_iff (hname : e.hasTemplate l t name = .ok true)
    {added : List (Text × Text)} (hnew : name ∉ added.map Prod.fst) :
    (e.addAll added).hasTemplate l t name = .ok true ↔ e.IsInMemory ∨ added = [] := by
  by_cases hmemory : e.IsInMemory
  · refine iff_of_true ?_ (.inl hmemory)
    rw [hasTemplate, hmemory.template_addAll hnew]
    exact hname
  · rw [or_iff_right hmemory]
    obtain ⟨path, hpath⟩ := not_isInMemory_iff.mp hmemory
    by_cases hadded : added = []
    · rw [hadded]
      exact iff_of_true hname rfl
    · have hgone := source_addAll_of_directory hpath t hadded hnew
      exact iff_of_false (not_hasTemplate_of_notFound hgone) hadded

theorem keeps_addAll_iff (hname : e.hasTemplate l t name = .ok true) {added : List (Text × Text)}
    (hnew : name ∉ added.map Prod.fst) (hignores : e.Ignores l t name (added.map Prod.fst)) :
    e.Keeps l t name (e.addAll added) ↔ e.IsInMemory ∨ added = [] := by
  refine ⟨fun h => (hasTemplate_addAll_iff hname hnew).mp h.1, ?_⟩
  rintro (hmemory | rfl)
  · exact hignores.keeps hname (hmemory.template_addAll hnew) fun _ hother =>
      hmemory.template_addAll hother
  · exact .refl hname

/-! ### Adding what is missing -/

/-- The templates from the first one on that the engine does not have. -/
def lacking (l : TemplateLanguage τ ν) (e : TemplateEngine) (t : FileTree)
    (templates : List (Text × Text)) : List (Text × Text) :=
  templates.dropWhile fun (name, _) => (e.template l t name).toBool

/-- The names of the templates that the engine does not have. -/
def missing (l : TemplateLanguage τ ν) (e : TemplateEngine) (t : FileTree)
    (templates : List (Text × Text)) : List Text :=
  (templates.map Prod.fst).filter fun name => !(e.template l t name).toBool

theorem register_cons (e : TemplateEngine) (t : FileTree) (name source : Text)
    (rest : List (Text × Text)) :
    e.register l t ((name, source) :: rest) =
      e.addMissing l t name source >>= fun later => later.register l t rest := by
  rw [register, List.foldlM_cons]
  rfl

/-- One step of registering: the template is there, or it is missing and added. -/
theorem addMissing_ok : e.addMissing l t name source = .ok later ↔
    (∃ template, e.template l t name = .ok template) ∧ later = e ∨
    (∃ p, e.template l t name = .error p ∧ p.isMissing = true) ∧ later = e.add name source := by
  unfold addMissing hasTemplate
  cases e.template l t name with
  | ok template =>
    constructor
    · intro h
      cases h
      exact .inl ⟨⟨template, rfl⟩, rfl⟩
    · rintro (⟨-, rfl⟩ | ⟨⟨p, hp, -⟩, -⟩)
      · rfl
      · cases hp
  | error p =>
    cases hmissing : p.isMissing with
    | true =>
      dsimp only
      rw [if_pos hmissing]
      constructor
      · intro h
        cases h
        exact .inr ⟨⟨p, rfl, hmissing⟩, rfl⟩
      · rintro (⟨⟨template, htemplate⟩, -⟩ | ⟨-, rfl⟩)
        · cases htemplate
        · rfl
    | false =>
      dsimp only
      rw [if_neg (ne_true_of_eq_false hmissing)]
      refine iff_of_false nofun ?_
      rintro (⟨⟨template, htemplate⟩, -⟩ | ⟨⟨p', hp, hmissing'⟩, -⟩)
      · cases htemplate
      · cases hp
        rw [hmissing] at hmissing'
        cases hmissing'

theorem source_of_isMissing {p : TemplateProblem} (h : e.template l t name = .error p)
    (hmissing : p.isMissing = true) : e.source t name = .error p := by
  rw [template] at h
  cases hsource : e.source t name with
  | error p' =>
    rw [hsource] at h
    exact congrArg Except.error (Except.error.inj h)
  | ok source =>
    rw [hsource] at h
    obtain ⟨message, -, rfl⟩ := Failure.mapError_error.mp h
    cases hmissing

/-- An engine in memory keeps what it has and takes the rest, the first of each name. -/
theorem register_of_memory {sources : List (Text × Text)} (he : e.store = .memory sources)
    {templates : List (Text × Text)} (h : e.register l t templates = .ok later) :
    later.unit = e.unit ∧ ∀ name,
      later.source t name = outcome name ((sources.lookup name).or (templates.lookup name)) := by
  induction templates generalizing e sources with
  | nil =>
    cases h
    refine ⟨rfl, fun name => ?_⟩
    rw [source_of_memory he, List.lookup_nil, Option.or_none]
  | cons first rest ih =>
    obtain ⟨added, source⟩ := first
    rw [register_cons] at h
    obtain ⟨next, hnext, hrest⟩ := bind_ok.mp h
    have hsource := source_of_memory he t added
    rcases addMissing_ok.mp hnext with ⟨⟨template, htemplate⟩, rfl⟩ | ⟨⟨p, hp, hmissing⟩, rfl⟩
    · obtain ⟨old, hold, -⟩ := bind_ok.mp htemplate
      have hfound : sources.lookup added = some old := by
        rw [hsource] at hold
        cases hlookup : sources.lookup added with
        | none => simp [hlookup, outcome] at hold
        | some found => simpa [hlookup, outcome] using hold
      obtain ⟨hunit, hall⟩ := ih he hrest
      refine ⟨hunit, fun name => ?_⟩
      rw [hall]
      by_cases hname : name = added
      · rw [hname, hfound, Option.some_or, Option.some_or]
      · rw [lookup_cons_ne hname]
    · -- the lookup in the new store is that in the old one or the added source
      have hnone : sources.lookup added = none := by
        rw [source_of_isMissing hp hmissing] at hsource
        cases hlookup : sources.lookup added with
        | none => rfl
        | some found => simp [hlookup, outcome] at hsource
      have hadd : (e.add added source).store = .memory ((added, source) :: sources) := by
        rw [add, he]
      obtain ⟨hunit, hall⟩ := ih hadd hrest
      refine ⟨hunit, fun name => ?_⟩
      rw [hall]
      by_cases hname : name = added
      · rw [hname, hnone, List.lookup_cons_self, List.lookup_cons_self]
        rfl
      · rw [lookup_cons_ne hname, lookup_cons_ne hname]

/-- A directory that lacks none of the templates stays; else they take its place from the first one
on that it lacks. -/
theorem register_of_directory {path : FilePath} (he : e.store = .directory path)
    {templates : List (Text × Text)} (h : e.register l t templates = .ok later) :
    e.lacking l t templates = [] ∧ later = e ∨
      e.lacking l t templates ≠ [] ∧ later.unit = e.unit ∧ ∀ name,
        later.source t name = outcome name ((e.lacking l t templates).lookup name) := by
  induction templates with
  | nil =>
    cases h
    exact .inl ⟨rfl, rfl⟩
  | cons first rest ih =>
    obtain ⟨added, source⟩ := first
    rw [register_cons] at h
    obtain ⟨next, hnext, hrest⟩ := bind_ok.mp h
    rcases addMissing_ok.mp hnext with ⟨⟨template, htemplate⟩, rfl⟩ | ⟨⟨p, hp, -⟩, rfl⟩
    · have hlacking : next.lacking l t ((added, source) :: rest) = next.lacking l t rest := by
        refine List.dropWhile_cons_of_pos ?_
        show (next.template l t added).toBool = true
        rw [htemplate]
        rfl
      rw [hlacking]
      exact ih hrest
    · -- this one is added, so the engine is in memory when the turn of the rest comes
      have hlacking : e.lacking l t ((added, source) :: rest) = (added, source) :: rest := by
        refine List.dropWhile_cons_of_neg ?_
        show ¬(e.template l t added).toBool = true
        rw [hp]
        exact Bool.false_ne_true
      have hadd : (e.add added source).store = .memory [(added, source)] := by
        rw [add, he]
      obtain ⟨hunit, hall⟩ := register_of_memory hadd hrest
      rw [hlacking]
      refine .inr ⟨List.cons_ne_nil _ _, hunit, fun name => ?_⟩
      rw [hall]
      by_cases hname : name = added
      · rw [hname, List.lookup_cons_self, List.lookup_cons_self]
        rfl
      · rw [lookup_cons_ne hname, lookup_cons_ne hname, List.lookup_nil, Option.none_or]

theorem IsInMemory.template_register (he : e.IsInMemory) {templates : List (Text × Text)}
    (h : e.register l t templates = .ok later) (hname : name ∉ e.missing l t templates) :
    later.template l t name = e.template l t name := by
  obtain ⟨sources, hsources⟩ := he
  obtain ⟨hunit, hall⟩ := register_of_memory hsources h
  refine template_congr hunit ?_
  rw [hall, source_of_memory hsources]
  by_cases hregistered : name ∈ templates.map Prod.fst
  · -- it is registered and there, so it is found in the store
    cases htemplate : e.template l t name with
    | error p =>
      refine absurd (List.mem_filter.mpr ⟨hregistered, ?_⟩) hname
      rw [htemplate]
      rfl
    | ok template =>
      obtain ⟨source, hsource, -⟩ := bind_ok.mp htemplate
      rw [source_of_memory hsources] at hsource
      cases hlookup : sources.lookup name with
      | none => simp [hlookup, outcome] at hsource
      | some found => rfl
  · rw [lookup_of_notMem hregistered, Option.or_none]

theorem notMem_missing (hname : e.hasTemplate l t name = .ok true) (templates : List (Text × Text)) :
    name ∉ e.missing l t templates := by
  intro h
  obtain ⟨-, h⟩ := List.mem_filter.mp h
  obtain ⟨template, htemplate⟩ := hasTemplate_eq_true_iff.mp hname
  rw [htemplate] at h
  cases h

theorem IsInMemory.hasTemplate_register (he : e.IsInMemory)
    (hname : e.hasTemplate l t name = .ok true) {templates : List (Text × Text)}
    (h : e.register l t templates = .ok later) : later.hasTemplate l t name = .ok true := by
  rw [hasTemplate, he.template_register h (notMem_missing hname templates)]
  exact hname

theorem IsInMemory.keeps_register (he : e.IsInMemory) (hname : e.hasTemplate l t name = .ok true)
    {templates : List (Text × Text)} (h : e.register l t templates = .ok later)
    (hignores : e.Ignores l t name (e.missing l t templates)) : e.Keeps l t name later :=
  hignores.keeps hname (he.template_register h (notMem_missing hname templates)) fun _ hother =>
    he.template_register h hother

/-- A directory's template that a lacking one has the name of gives way to it. -/
theorem source_register_of_lookup (he : ¬e.IsInMemory) {templates : List (Text × Text)}
    (h : e.register l t templates = .ok later)
    (hfound : (e.lacking l t templates).lookup name = some source) :
    later.source t name = .ok source := by
  obtain ⟨path, hpath⟩ := not_isInMemory_iff.mp he
  rcases register_of_directory hpath h with ⟨hnone, -⟩ | ⟨-, -, hall⟩
  · rw [hnone] at hfound
    cases hfound
  · rw [hall, hfound]
    rfl

theorem hasTemplate_register_iff (hname : e.hasTemplate l t name = .ok true)
    {templates : List (Text × Text)} (h : e.register l t templates = .ok later)
    (hnew : name ∉ (e.lacking l t templates).map Prod.fst) :
    later.hasTemplate l t name = .ok true ↔ e.IsInMemory ∨ e.lacking l t templates = [] := by
  by_cases hmemory : e.IsInMemory
  · exact iff_of_true (hmemory.hasTemplate_register hname h) (.inl hmemory)
  · rw [or_iff_right hmemory]
    obtain ⟨path, hpath⟩ := not_isInMemory_iff.mp hmemory
    rcases register_of_directory hpath h with ⟨hnone, rfl⟩ | ⟨hsome, -, hall⟩
    · exact iff_of_true hname hnone
    · have hgone := hall name
      rw [lookup_of_notMem hnew] at hgone
      exact iff_of_false (not_hasTemplate_of_notFound hgone) hsome

theorem keeps_register_iff (hname : e.hasTemplate l t name = .ok true)
    {templates : List (Text × Text)} (h : e.register l t templates = .ok later)
    (hnew : name ∉ (e.lacking l t templates).map Prod.fst)
    (hignores : e.Ignores l t name (e.missing l t templates)) :
    e.Keeps l t name later ↔ e.IsInMemory ∨ e.lacking l t templates = [] := by
  refine ⟨fun hkeeps => (hasTemplate_register_iff hname h hnew).mp hkeeps.1, fun hstays => ?_⟩
  by_cases hmemory : e.IsInMemory
  · exact hmemory.keeps_register hname h hignores
  · obtain ⟨path, hpath⟩ := not_isInMemory_iff.mp hmemory
    rcases register_of_directory hpath h with ⟨-, rfl⟩ | ⟨hsome, -⟩
    · exact .refl hname
    · exact absurd (hstays.resolve_left hmemory) hsome

/-- An engine in memory keeps its templates.  One over a directory keeps them as long as nothing is
added: with the first template of a generator that the directory lacks, all of its own are gone,
and only those come back, as the generator has them, whose turn comes later.  A template that is kept
shows the same as before, unless it shows one of those that were added. -/
theorem keeps_iff (hname : e.hasTemplate l t name = .ok true) :
    (∀ added, name ∉ added.map Prod.fst →
      ((e.addAll added).hasTemplate l t name = .ok true ↔ e.IsInMemory ∨ added = []) ∧
      (e.Ignores l t name (added.map Prod.fst) →
        (e.Keeps l t name (e.addAll added) ↔ e.IsInMemory ∨ added = []))) ∧
    ∀ templates later, e.register l t templates = .ok later →
      (e.IsInMemory → later.hasTemplate l t name = .ok true ∧
        (e.Ignores l t name (e.missing l t templates) → e.Keeps l t name later)) ∧
      (name ∉ (e.lacking l t templates).map Prod.fst →
        (later.hasTemplate l t name = .ok true ↔
          e.IsInMemory ∨ e.lacking l t templates = []) ∧
        (e.Ignores l t name (e.missing l t templates) →
          (e.Keeps l t name later ↔ e.IsInMemory ∨ e.lacking l t templates = []))) ∧
      (¬e.IsInMemory → ∀ source, (e.lacking l t templates).lookup name = some source →
        later.source t name = .ok source) :=
  ⟨fun _ hnew => ⟨hasTemplate_addAll_iff hname hnew, keeps_addAll_iff hname hnew⟩,
    fun _ _ h =>
    ⟨fun hmemory => ⟨hmemory.hasTemplate_register hname h, hmemory.keeps_register hname h⟩,
      fun hnew => ⟨hasTemplate_register_iff hname h hnew, keeps_register_iff hname h hnew⟩,
      fun hmemory _ hfound => source_register_of_lookup hmemory h hfound⟩⟩

theorem ignores_fragment (e : TemplateEngine) (t : FileTree) (name : Text) (others : List Text) :
    e.Ignores Template.fragment t name others := fun _ _ _ _ _ => rfl

theorem memory_keeps_its_template :
    let e : TemplateEngine := ⟨"  ", .memory [("a.txt", "A\x7b\x7b x \x7d\x7d")]⟩
    e.hasTemplate Template.fragment .empty "a.txt" = .ok true ∧
      e.render Template.fragment .empty "a.txt" [("x", .int 7)] = .ok "A7" ∧
      e.Keeps Template.fragment .empty "a.txt" (e.addAll [("b.txt", "B"), ("c.txt", "C")]) := by
  intro e
  have hname : e.hasTemplate Template.fragment .empty "a.txt" = .ok true := by decide +kernel
  have hkeeps := ((keeps_iff hname).1 [("b.txt", "B"), ("c.txt", "C")] (by decide)).2
    (e.ignores_fragment .empty "a.txt" _)
  exact ⟨hname, by decide +kernel, hkeeps.mpr (.inl ⟨_, rfl⟩)⟩

/-- The directory `tpl` has a template for files, and none for classes and methods.  It is gone
after another one was added, and after those of the layout were. -/
theorem directory_loses_its_template :
    let t : FileTree := ⟨[(["tpl", "file.java.j2"], .file [65]), (["tpl"], .directory)]⟩
    let e : TemplateEngine := ⟨"  ", .directory (.ofText "tpl")⟩
    create t (some (.ofText "tpl")) "  " = .ok e ∧
      e.hasTemplate Template.fragment t "file.java.j2" = .ok true ∧
      e.render Template.fragment t "file.java.j2" [] = .ok "A" ∧
      ¬e.Keeps Template.fragment t "file.java.j2" (e.addAll [("b.txt", "B")]) ∧
      (e.registerLayout Template.fragment t).map
        (·.hasTemplate Template.fragment t "file.java.j2") = .ok (.ok false) := by
  refine ⟨rfl, by decide +kernel, by decide +kernel, ?_, by decide +kernel⟩
  rintro ⟨hname, -⟩
  exact absurd hname (by decide +kernel)

end TemplateEngine
end NavDirections
