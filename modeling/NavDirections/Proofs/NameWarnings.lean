import NavDirections.Generation.Basic
import NavDirections.Proofs.HeldArguments
import NavDirections.Proofs.Initializers
import NavDirections.Proofs.Traversal
import Mathlib.Data.List.Perm.Subperm

/-!
# Warnings about names

Every action and every argument has its place in a graph: the position of the destination and the
numbers of the action and the argument.  Validation goes through the places in their order and warns
at each whose name cannot serve, apart from names with a line feed behind them.
-/

namespace NavDirections

open Success Literal

namespace Text

/-- A letter, an underscore or a dollar sign of ASCII, with word characters and dollar signs
behind it. -/
def IsNameLike (t : Text) : Prop :=
  ∃ c rest, t = c :: rest ∧ (c.isAsciiLetter = true ∨ c = '_' ∨ c = '$') ∧
    ∀ d ∈ rest, d.isWord = true ∨ d = '$'

def IsUsable (t : Text) : Prop := t.IsNameLike ∧ t ∉ reservedWords

/-- The text is like a name but for a line feed at its end. -/
def IsFed (t : Text) : Prop := ∃ name : Text, name.IsNameLike ∧ t = name ++ ("\n" : Text)

variable {t : Text}

theorem hasShape_iff_isNameLike :
    t.hasShape CodePoint.startsIdentifier CodePoint.continuesIdentifier = true ↔ t.IsNameLike := by
  cases t with
  | nil => simp [hasShape, IsNameLike]
  | cons c rest =>
    simp [hasShape, IsNameLike, CodePoint.startsIdentifier, CodePoint.continuesIdentifier, or_assoc]

theorem IsNameLike.lineless (h : t.IsNameLike) : ('\n' : CodePoint) ∉ t := by
  have hcontinues : CodePoint.continuesIdentifier '\n' = false := by decide +kernel
  exact notMem_of_hasShape (hasShape_iff_isNameLike.mpr h) rfl hcontinues

theorem IsFed.lineFeed_mem (h : t.IsFed) : ('\n' : CodePoint) ∈ t := by
  obtain ⟨name, -, rfl⟩ := h
  exact List.mem_append_right _ List.mem_cons_self

theorem IsFed.not_isUsable (h : t.IsFed) : ¬t.IsUsable := by
  intro husable
  exact husable.1.lineless h.lineFeed_mem

theorem isIdentifierLike_iff : t.isIdentifierLike = true ↔ t.IsNameLike ∨ t.IsFed := by
  rw [isIdentifierLike, hasShape_iff_isNameLike]
  constructor
  · intro h
    rcases dropFinalLineFeed_cases t with hsame | hcut
    · rw [hsame] at h
      exact .inl h
    · exact .inr ⟨t.dropFinalLineFeed, h, hcut⟩
  · intro h
    rcases h with h | ⟨name, hname, rfl⟩
    · rwa [dropFinalLineFeed_of_notMem h.lineless]
    · rwa [dropFinalLineFeed_append]

theorem lineless_of_reserved (h : t ∈ reservedWords) : ('\n' : CodePoint) ∉ t := by
  have hall : reservedWords.all (fun word => !word.contains '\n') = true := by decide
  have ht := List.all_eq_true.mp hall t h
  simpa using ht

/-- What passes for a name is one, or has a line feed behind it: the words that are kept have
none. -/
theorem isUsableName_iff : isUsableName t = true ↔ t.IsUsable ∨ t.IsFed := by
  have hfed (h : t.IsFed) : t ∉ reservedWords := fun hmem =>
    lineless_of_reserved hmem h.lineFeed_mem
  have hcontains : (!reservedWords.contains t) = true ↔ t ∉ reservedWords := by simp
  rw [isUsableName, Bool.and_eq_true, isIdentifierLike_iff, hcontains, IsUsable, or_and_right,
    and_iff_left_of_imp hfed]

end Text

section

variable {κ α β : Type} {r : κ → κ → Prop} {P Q : κ → α → Prop} {l l' : List (κ × α)}

/-- The list has what stands at keys in some way, each once and in the order of the keys. -/
structure ListsInOrder (r : κ → κ → Prop) (P : κ → α → Prop) (l : List (κ × α)) : Prop where
  sorted : l.Pairwise fun x y => r x.1 y.1
  members : ∀ k a, (k, a) ∈ l ↔ P k a

theorem ListsInOrder.congr (h : ListsInOrder r P l) (hiff : ∀ k a, P k a ↔ Q k a) :
    ListsInOrder r Q l :=
  ⟨h.sorted, fun k a => (h.members k a).trans (hiff k a)⟩

theorem ListsInOrder.filter (h : ListsInOrder r P l) (q : κ × α → Bool) :
    ListsInOrder r (fun k a => P k a ∧ q (k, a) = true) (l.filter q) := by
  refine ⟨h.sorted.filter q, fun k a => ?_⟩
  rw [List.mem_filter, h.members]

theorem ListsInOrder.nodup [Std.Irrefl r] (h : ListsInOrder r P l) : l.Nodup := by
  apply h.sorted.imp
  intro x y hxy heq
  rw [heq] at hxy
  exact Std.Irrefl.irrefl y.1 hxy

theorem ListsInOrder.subperm [Std.Irrefl r] (h : ListsInOrder r P l) (h' : ListsInOrder r Q l')
    (himp : ∀ k a, Q k a → P k a) : l'.Subperm l := by
  apply h'.nodup.subperm
  intro x hx
  exact (h.members x.1 x.2).mpr (himp x.1 x.2 ((h'.members x.1 x.2).mp hx))

theorem ListsInOrder.imp_of_length_le [Std.Irrefl r] (h : ListsInOrder r P l)
    (h' : ListsInOrder r Q l') (himp : ∀ k a, Q k a → P k a) (hlength : l.length ≤ l'.length)
    {k : κ} {a : α} (ha : P k a) : Q k a := by
  have hperm := (h.subperm h' himp).perm_of_length_le hlength
  exact (h'.members k a).mp (hperm.mem_iff.mpr ((h.members k a).mpr ha))

/-- The members of what stands at keys, each at the key and its number among the members. -/
def numbered (members : α → List β) (entries : List (κ × α)) : List ((κ × Nat) × (α × β)) :=
  entries.flatMap fun entry =>
    (members entry.2).zipIdx.map fun member => ((entry.1, member.2), (entry.2, member.1))

variable {members : α → List β}

theorem map_snd_numbered (entries : List (κ × α)) :
    (numbered members entries).map Prod.snd =
      (entries.map Prod.snd).flatMap fun a => (members a).map (a, ·) := by
  have hmembers (a : α) : (members a).zipIdx.map (fun member => (a, member.1)) =
      (members a).map (a, ·) := by
    have hfst := List.zipIdx_map_fst 0 (members a)
    have hmap := congrArg (List.map (a, ·)) hfst
    rwa [List.map_map] at hmap
  induction entries with
  | nil => rfl
  | cons entry rest ih =>
    have hsplit : numbered members (entry :: rest) =
        (members entry.2).zipIdx.map (fun member => ((entry.1, member.2), (entry.2, member.1))) ++
          numbered members rest := List.flatMap_cons
    rw [hsplit, List.map_append, ih, List.map_map, List.map_cons, List.flatMap_cons,
      ← hmembers entry.2]
    rfl

theorem ListsInOrder.numbered (h : ListsInOrder r P l) :
    ListsInOrder (Prod.Lex r (· < ·)) (fun k s => P k.1 s.1 ∧ (members s.1)[k.2]? = some s.2)
      (numbered members l) := by
  constructor
  · -- The numbers grow inside an entry, and the keys from one entry to the next.
    refine List.pairwise_flatMap.mpr ⟨fun entry _ => ?_, ?_⟩
    · have hrange : ((members entry.2).zipIdx.map Prod.snd).Pairwise (· < ·) := by
        rw [List.zipIdx_map_snd]
        exact List.pairwise_lt_range'
      rw [List.pairwise_map]
      exact (List.pairwise_map.mp hrange).imp fun hlt => .right _ hlt
    · refine h.sorted.imp fun hr x hx y hy => ?_
      obtain ⟨i, -, rfl⟩ := List.mem_map.mp hx
      obtain ⟨j, -, rfl⟩ := List.mem_map.mp hy
      exact .left _ _ hr
  · intro k s
    rw [← h.members, NavDirections.numbered, List.mem_flatMap]
    constructor
    · rintro ⟨entry, hentry, hmem⟩
      obtain ⟨member, hmember, heq⟩ := List.mem_map.mp hmem
      cases heq
      exact ⟨hentry, List.mem_zipIdx_iff_getElem?.mp hmember⟩
    · rintro ⟨hentry, hmember⟩
      exact ⟨(k.1, s.1), hentry,
        List.mem_map.mpr ⟨(s.2, k.2), List.mem_zipIdx_iff_getElem?.mpr hmember, rfl⟩⟩

end

/-! ### Places of actions and arguments -/

/-- The position of a destination and the number of an action in it; an argument has its own number
beside these. -/
abbrev ActionPlace := Position × Nat

abbrev ArgumentPlace := ActionPlace × Nat

def ActionPlace.Before : ActionPlace → ActionPlace → Prop := Prod.Lex (· < ·) (· < ·)

def ArgumentPlace.Before : ArgumentPlace → ArgumentPlace → Prop := Prod.Lex ActionPlace.Before (· < ·)

instance : Std.Irrefl ActionPlace.Before := inferInstanceAs (Std.Irrefl (Prod.Lex _ _))

instance : Std.Irrefl ArgumentPlace.Before := inferInstanceAs (Std.Irrefl (Prod.Lex _ _))

namespace NavigationGraph

def HasAction (g : NavigationGraph) (k : ActionPlace) (s : Destination × Action) : Prop :=
  g.at? k.1 = some s.1 ∧ s.1.actions[k.2]? = some s.2

def HasArgument (g : NavigationGraph) (k : ArgumentPlace)
    (s : (Destination × Action) × ActionArgument) : Prop :=
  g.HasAction k.1 s.1 ∧ s.1.2.args[k.2]? = some s.2

def placedActions (g : NavigationGraph) : List (ActionPlace × (Destination × Action)) :=
  numbered (·.actions) g.placed

def placedArguments (g : NavigationGraph) :
    List (ArgumentPlace × ((Destination × Action) × ActionArgument)) :=
  numbered (·.2.args) g.placedActions

variable {g : NavigationGraph}

theorem placedActions_inOrder (g : NavigationGraph) :
    ListsInOrder ActionPlace.Before g.HasAction g.placedActions := by
  have hplaced : ListsInOrder (· < ·) (fun p d => g.at? p = some d) g.placed :=
    ⟨List.pairwise_map.mp g.placed_sorted, fun p d => mem_placed⟩
  exact hplaced.numbered

theorem placedArguments_inOrder (g : NavigationGraph) :
    ListsInOrder ArgumentPlace.Before g.HasArgument g.placedArguments := by
  have hnumbered : ListsInOrder _ _ (numbered (fun s : Destination × Action => s.2.args)
    g.placedActions) := g.placedActions_inOrder.numbered
  exact hnumbered

theorem map_snd_placedActions (g : NavigationGraph) :
    g.placedActions.map Prod.snd = g.actions := by
  rw [placedActions, map_snd_numbered, map_snd_placed, actions]

theorem arguments_eq (g : NavigationGraph) :
    g.arguments = g.placedArguments.map fun entry => (entry.2.1.1, entry.2.1.2, entry.2.2) := by
  have hsnd : g.placedArguments.map Prod.snd =
      (g.placedActions.map Prod.snd).flatMap fun s => s.2.args.map (s, ·) := map_snd_numbered _
  have hmap := congrArg (List.map fun s : (Destination × Action) × ActionArgument =>
    (s.1.1, s.1.2, s.2)) hsnd
  rw [List.map_map, map_snd_placedActions] at hmap
  refine Eq.trans ?_ hmap.symm
  simp [arguments, actions, List.map_flatMap, List.flatMap_assoc, List.flatMap_map, Function.comp_def]

/-! ### Warnings -/

def actionMessage (s : Destination × Action) : Text :=
  "Action id '" ++ s.2.id.name ++ "' in " ++ s.1.label.plain ++ " is not a valid Java method name"

def argumentMessage (s : (Destination × Action) × ActionArgument) : Text :=
  "Argument '" ++ s.2.name.plain ++ "' of " ++ s.1.1.label.plain ++ "." ++ s.1.2.id.name ++
    " is not a valid Java identifier"

/-- One warning for each bad name of an action, then one for each bad name of an argument, both in
the order of their places. -/
def ReportsNames (g : NavigationGraph) (bad : Text → Prop) (warnings : List Text) : Prop :=
  ∃ actions arguments,
    ListsInOrder ActionPlace.Before (fun k s => g.HasAction k s ∧ bad s.2.id.name) actions ∧
    ListsInOrder ArgumentPlace.Before (fun k s => g.HasArgument k s ∧ bad s.2.name.plain)
      arguments ∧
    warnings = actions.map (fun entry => actionMessage entry.2) ++
      arguments.map (fun entry => argumentMessage entry.2)

def UsesName (g : NavigationGraph) (name : Text) : Prop :=
  (∃ k s, g.HasAction k s ∧ s.2.id.name = name) ∨ ∃ k s, g.HasArgument k s ∧ s.2.name.plain = name

def HasTextArguments (g : NavigationGraph) : Prop :=
  ∀ k s, g.HasArgument k s → ∃ name, s.2.name = .text name

theorem flatMap_warning {α : Type} (l : List α) (p : α → Bool) (message : α → Text) :
    l.flatMap (fun x => if p x then [] else [message x]) = (l.filter fun x => !p x).map message := by
  induction l with
  | nil => rfl
  | cons x l ih =>
    rw [List.flatMap_cons, ih]
    cases hp : p x with
    | true => simp [hp]
    | false => simp [hp]

/-- Names that neither can serve nor have a line feed behind them are in destinations whose labels
can be written. -/
structure ShowsLabels (g : NavigationGraph) : Prop where
  actions : ∀ k s, g.HasAction k s → ¬(s.2.id.name.IsUsable ∨ s.2.id.name.IsFed) →
    s.1.label.isWritable = true
  arguments : ∀ k s, g.HasArgument k s → ¬(s.2.name.plain.IsUsable ∨ s.2.name.plain.IsFed) →
    s.1.1.label.isWritable = true

theorem labelled_ok {label : Json} {p : Bool} {message : Text → Text} {texts : List Text} :
    (if p then .ok [] else label.written.map fun shown => [message shown]) = Except.ok texts ↔
      (¬p = true → label.isWritable = true) ∧ texts = if p then [] else [message label.plain] := by
  cases p with
  | true => exact ⟨fun h => ⟨nofun, (Except.ok.inj h).symm⟩, fun h => congrArg Except.ok h.2.symm⟩
  | false =>
    simp only [Bool.false_eq_true, if_false, not_false_eq_true, true_imp_iff, map_ok,
      Json.written_ok]
    constructor
    · rintro ⟨_, ⟨hlabel, rfl⟩, rfl⟩
      exact ⟨hlabel, rfl⟩
    · rintro ⟨hlabel, rfl⟩
      exact ⟨_, ⟨hlabel, rfl⟩, rfl⟩

theorem actionWarning_ok {s : Destination × Action} {texts : List Text} :
    actionWarning s.1 s.2 = .ok texts ↔
      (¬isUsableName s.2.id.name = true → s.1.label.isWritable = true) ∧
        texts = if isUsableName s.2.id.name then [] else [actionMessage s] := labelled_ok

theorem argumentWarning_ok {s : (Destination × Action) × ActionArgument} {texts : List Text} :
    argumentWarning s.1.1 s.1.2 s.2 = .ok texts ↔
      ((∃ name, s.2.name = .text name) ∧
        (¬isUsableName s.2.name.plain = true → s.1.1.label.isWritable = true)) ∧
        texts = if isUsableName s.2.name.plain then [] else [argumentMessage s] := by
  cases hname : s.2.name with
  | text name =>
    have hgiven : ∃ given, Json.text name = .text given := ⟨name, rfl⟩
    simp only [argumentWarning, argumentMessage, hname]
    rw [labelled_ok, and_assoc, and_iff_right hgiven]
    rfl
  | null | bool | int | float | array | object => simp [argumentWarning, hname]

theorem hasTextArguments_iff :
    g.HasTextArguments ↔ ∀ entry ∈ g.placedArguments, ∃ name, entry.2.2.name = .text name := by
  constructor
  · intro h entry hentry
    exact h entry.1 entry.2 ((g.placedArguments_inOrder.members _ _).mp hentry)
  · intro h k s hs
    exact h (k, s) ((g.placedArguments_inOrder.members _ _).mpr hs)

theorem showsLabels_iff : g.ShowsLabels ↔
    (∀ entry ∈ g.placedActions, ¬isUsableName entry.2.2.id.name = true →
      entry.2.1.label.isWritable = true) ∧
    ∀ entry ∈ g.placedArguments, ¬isUsableName entry.2.2.name.plain = true →
      entry.2.1.1.label.isWritable = true := by
  simp only [Text.isUsableName_iff]
  constructor
  · rintro ⟨hactions, harguments⟩
    exact ⟨fun entry hentry => hactions _ _ ((g.placedActions_inOrder.members _ _).mp hentry),
      fun entry hentry => harguments _ _ ((g.placedArguments_inOrder.members _ _).mp hentry)⟩
  · rintro ⟨hactions, harguments⟩
    exact ⟨fun k s hs => hactions (k, s) ((g.placedActions_inOrder.members _ _).mpr hs),
      fun k s hs => harguments (k, s) ((g.placedArguments_inOrder.members _ _).mpr hs)⟩

def badActions (g : NavigationGraph) : List (ActionPlace × (Destination × Action)) :=
  g.placedActions.filter fun entry => !isUsableName entry.2.2.id.name

def badArguments (g : NavigationGraph) :
    List (ArgumentPlace × ((Destination × Action) × ActionArgument)) :=
  g.placedArguments.filter fun entry => !isUsableName entry.2.2.name.plain

theorem warnings_ok {texts : List Text} : g.warnings = .ok texts ↔
    (g.HasTextArguments ∧ g.ShowsLabels) ∧
      texts = g.badActions.map (fun entry => actionMessage entry.2) ++
        g.badArguments.map (fun entry => argumentMessage entry.2) := by
  have hactions (reports : List (List Text)) :
      (g.actions.mapM fun s => actionWarning s.1 s.2) = .ok reports ↔
        (∀ entry ∈ g.placedActions, ¬isUsableName entry.2.2.id.name = true →
          entry.2.1.label.isWritable = true) ∧
        reports = g.placedActions.map fun entry =>
          if isUsableName entry.2.2.id.name then [] else [actionMessage entry.2] := by
    rw [← map_snd_placedActions, List.mapM_map]
    exact mapM_ok_of_iff fun entry report => actionWarning_ok
  have harguments (reports : List (List Text)) :
      (g.arguments.mapM fun entry => argumentWarning entry.1 entry.2.1 entry.2.2) = .ok reports ↔
        (∀ entry ∈ g.placedArguments, (∃ name, entry.2.2.name = .text name) ∧
          (¬isUsableName entry.2.2.name.plain = true → entry.2.1.1.label.isWritable = true)) ∧
        reports = g.placedArguments.map fun entry =>
          if isUsableName entry.2.2.name.plain then [] else [argumentMessage entry.2] := by
    rw [arguments_eq, List.mapM_map]
    exact mapM_ok_of_iff fun entry report => argumentWarning_ok
  have hflatActions : (g.placedActions.map fun entry => if isUsableName entry.2.2.id.name then []
      else [actionMessage entry.2]).flatten =
        g.badActions.map fun entry => actionMessage entry.2 := flatMap_warning _ _ _
  have hflatArguments : (g.placedArguments.map fun entry =>
      if isUsableName entry.2.2.name.plain then [] else [argumentMessage entry.2]).flatten =
        g.badArguments.map fun entry => argumentMessage entry.2 := flatMap_warning _ _ _
  rw [warnings, hasTextArguments_iff, showsLabels_iff]
  simp only [bind_ok, hactions, harguments, forall_and]
  constructor
  · rintro ⟨_, ⟨hlabels, rfl⟩, _, ⟨⟨hnames, hlabels'⟩, rfl⟩, htexts⟩
    rw [hflatActions, hflatArguments] at htexts
    exact ⟨⟨hnames, hlabels, hlabels'⟩, (Except.ok.inj htexts).symm⟩
  · rintro ⟨⟨hnames, hlabels, hlabels'⟩, rfl⟩
    refine ⟨_, ⟨hlabels, rfl⟩, _, ⟨⟨hnames, hlabels'⟩, rfl⟩, ?_⟩
    rw [hflatActions, hflatArguments]

/-- What is warned about are the names that neither can serve nor have a line feed behind them. -/
theorem warnings_report {texts : List Text} (h : g.warnings = .ok texts) :
    g.ReportsNames (fun name => ¬(name.IsUsable ∨ name.IsFed)) texts := by
  have hbad (name : Text) : (!isUsableName name) = true ↔ ¬(name.IsUsable ∨ name.IsFed) := by
    rw [Bool.not_eq_true', ← Bool.not_eq_true, Text.isUsableName_iff]
  have hactions := g.placedActions_inOrder.filter fun entry => !isUsableName entry.2.2.id.name
  have harguments := g.placedArguments_inOrder.filter fun entry =>
    !isUsableName entry.2.2.name.plain
  exact ⟨g.badActions, g.badArguments, hactions.congr fun k s => and_congr_right' (hbad _),
    harguments.congr fun k s => and_congr_right' (hbad _), (warnings_ok.mp h).2⟩

theorem ReportsNames.congr {bad bad' : Text → Prop} {texts : List Text}
    (h : g.ReportsNames bad texts) (hiff : ∀ name, g.UsesName name → (bad name ↔ bad' name)) :
    g.ReportsNames bad' texts := by
  obtain ⟨actions, arguments, hactions, harguments, rfl⟩ := h
  refine ⟨actions, arguments, hactions.congr fun k s => ?_, harguments.congr fun k s => ?_, rfl⟩
  · exact and_congr_right fun hs => hiff _ (.inl ⟨k, s, hs, rfl⟩)
  · exact and_congr_right fun hs => hiff _ (.inr ⟨k, s, hs, rfl⟩)

/-- The number of warnings tells which of two sorts of names, one within the other, is warned
about. -/
theorem ReportsNames.imp {bad worse : Text → Prop} {texts : List Text}
    (h : g.ReportsNames bad texts) (h' : g.ReportsNames worse texts)
    (himp : ∀ name, worse name → bad name) {name : Text} (hname : g.UsesName name)
    (hbad : bad name) : worse name := by
  obtain ⟨actions, arguments, hactions, harguments, rfl⟩ := h
  obtain ⟨actions', arguments', hactions', harguments', hsame⟩ := h'
  -- Neither of the worse lists is longer than its counterpart, and their lengths add up alike.
  have hwithin := (hactions.subperm hactions' fun k s hs => hs.imp_right (himp _)).length_le
  have hwithin' := (harguments.subperm harguments' fun k s hs => hs.imp_right (himp _)).length_le
  have hlength := congrArg List.length hsame
  simp only [List.length_append, List.length_map] at hlength
  rcases hname with ⟨k, s, hs, rfl⟩ | ⟨k, s, hs, rfl⟩
  · have hle : actions.length ≤ actions'.length := by omega
    exact (hactions.imp_of_length_le hactions' (fun k s hs => hs.imp_right (himp _)) hle
      ⟨hs, hbad⟩).2
  · have hle : arguments.length ≤ arguments'.length := by omega
    exact (harguments.imp_of_length_le harguments' (fun k s hs => hs.imp_right (himp _)) hle
      ⟨hs, hbad⟩).2

theorem ReportsNames.eq_nil_iff {bad : Text → Prop} {texts : List Text}
    (h : g.ReportsNames bad texts) : texts = [] ↔ ∀ name, g.UsesName name → ¬bad name := by
  obtain ⟨actions, arguments, hactions, harguments, rfl⟩ := h
  rw [List.append_eq_nil_iff, List.map_eq_nil_iff, List.map_eq_nil_iff]
  constructor
  · rintro ⟨rfl, rfl⟩ name hname hbad
    rcases hname with ⟨k, s, hs, rfl⟩ | ⟨k, s, hs, rfl⟩
    · exact List.not_mem_nil ((hactions.members k s).mpr ⟨hs, hbad⟩)
    · exact List.not_mem_nil ((harguments.members k s).mpr ⟨hs, hbad⟩)
  · intro hnone
    constructor
    · apply List.eq_nil_iff_forall_not_mem.mpr
      intro entry hentry
      have hs := (hactions.members entry.1 entry.2).mp hentry
      exact hnone _ (.inl ⟨entry.1, entry.2, hs.1, rfl⟩) hs.2
    · apply List.eq_nil_iff_forall_not_mem.mpr
      intro entry hentry
      have hs := (harguments.members entry.1 entry.2).mp hentry
      exact hnone _ (.inr ⟨entry.1, entry.2, hs.1, rfl⟩) hs.2

/-- Where the names of arguments are texts and the labels that the warnings show can be written,
there is one warning for each name that cannot serve and has no line feed behind it.  So the warnings
are exact without such line feeds, and there are none where each name can serve but for one. -/
theorem warnings_exact_iff (g : NavigationGraph) :
    ((∃ texts, g.warnings = .ok texts ∧
        g.ReportsNames (fun name => ¬(name.IsUsable ∨ name.IsFed)) texts) ↔
      g.HasTextArguments ∧ g.ShowsLabels) ∧
    ((∃ texts, g.warnings = .ok texts ∧ g.ReportsNames (fun name => ¬name.IsUsable) texts) ↔
      (g.HasTextArguments ∧ g.ShowsLabels) ∧ ∀ name, g.UsesName name → ¬name.IsFed) ∧
    (g.warnings = .ok [] ↔
      g.HasTextArguments ∧ ∀ name, g.UsesName name → name.IsUsable ∨ name.IsFed) := by
  have hreport : (∃ texts, g.warnings = .ok texts ∧
      g.ReportsNames (fun name => ¬(name.IsUsable ∨ name.IsFed)) texts) ↔
        g.HasTextArguments ∧ g.ShowsLabels := by
    constructor
    · rintro ⟨texts, htexts, -⟩
      exact (warnings_ok.mp htexts).1
    · intro hshown
      have htexts := warnings_ok.mpr ⟨hshown, rfl⟩
      exact ⟨_, htexts, warnings_report htexts⟩
  refine ⟨hreport, ⟨?_, ?_⟩, ⟨?_, ?_⟩⟩
  · rintro ⟨texts, htexts, hexact⟩
    refine ⟨(warnings_ok.mp htexts).1, fun name hname hfed => ?_⟩
    have hworse := hexact.imp (warnings_report htexts) (fun t ht => mt .inl ht) hname
      hfed.not_isUsable
    exact hworse (.inr hfed)
  · rintro ⟨hshown, hfeedless⟩
    obtain ⟨texts, htexts, hreports⟩ := hreport.mpr hshown
    refine ⟨texts, htexts, hreports.congr fun name hname => ?_⟩
    rw [or_iff_left (hfeedless name hname)]
  · intro hnone
    have hreports := (warnings_report hnone).eq_nil_iff.mp rfl
    exact ⟨(warnings_ok.mp hnone).1.1, fun name hname => not_not.mp (hreports name hname)⟩
  · rintro ⟨hnames, hall⟩
    -- No name is warned about, so no label is shown.
    have hshown : g.ShowsLabels :=
      ⟨fun k s hs hbad => absurd (hall _ (.inl ⟨k, s, hs, rfl⟩)) hbad,
        fun k s hs hbad => absurd (hall _ (.inr ⟨k, s, hs, rfl⟩)) hbad⟩
    obtain ⟨texts, htexts, hreports⟩ := hreport.mpr ⟨hnames, hshown⟩
    have hnone := hreports.eq_nil_iff.mpr fun name hname => not_not.mpr (hall name hname)
    rwa [hnone] at htexts

def lineFed : NavigationGraph :=
  ⟨[⟨.text "atlas.Main", none, [.bare ⟨"atlas", "go\n", by decide, by decide⟩], []⟩]⟩

theorem line_feed_is_passed_over : lineFed.warnings = .ok [] ∧
    ¬lineFed.ReportsNames (fun name => ¬name.IsUsable) [] := by
  have hused : lineFed.UsesName "go\n" := .inl ⟨([0], 0), (_, _), ⟨rfl, rfl⟩, rfl⟩
  have hfed : Text.IsFed "go\n" :=
    ⟨"go", Text.hasShape_iff_isNameLike.mp (by decide +kernel), rfl⟩
  refine ⟨by decide +kernel, fun h => ?_⟩
  exact h.eq_nil_iff.mp rfl _ hused hfed.not_isUsable

end NavigationGraph
end NavDirections
