import NavDirections.Proofs.DescribedFiles
import NavDirections.Proofs.Traversal

/-!
# Collisions of class names

Destinations at different positions may get classes of one full name.  Where all destinations with
actions can be described, the graph is refused exactly for such a name, and the refusal lists every
one of them with all destinations that get it.  Otherwise the files come in the order of the
positions.
-/

namespace NavDirections

open Success

namespace NavigationGraph

variable {g : NavigationGraph} {applicationId : Text} {host : HostClasses}

/-- A destination with actions stands at the position. -/
def ActsAt (g : NavigationGraph) (p : Position) (d : Destination) : Prop :=
  g.at? p = some d ∧ d.actions ≠ []

/-- The destination with actions at the position gets a class of the full name. -/
def HasClassAt (g : NavigationGraph) (applicationId : Text) (host : HostClasses) (p : Position)
    (name : Text) : Prop :=
  ∃ d f, g.ActsAt p d ∧ d.directionsFile applicationId host = .ok f ∧ f.className.canonical = name

def SharesClass (g : NavigationGraph) (applicationId : Text) (host : HostClasses) (name : Text) :
    Prop :=
  ∃ p q, p ≠ q ∧ g.HasClassAt applicationId host p name ∧ g.HasClassAt applicationId host q name

/-- Each shared name is listed once, in the order of the first positions, and with the labels of all
positions that have the class. -/
structure Reports (g : NavigationGraph) (applicationId : Text) (host : HostClasses)
    (found : List Collision) : Prop where
  names : ∀ name, name ∈ found.map (·.name) ↔ g.SharesClass applicationId host name
  once : (found.map (·.name)).Nodup
  order : (found.map (·.name)).Pairwise fun first later =>
    ∃ p, g.HasClassAt applicationId host p first ∧
      ∀ q, g.HasClassAt applicationId host q later → p < q
  labels : ∀ c ∈ found, ∃ positions : List Position, positions.Pairwise (· < ·) ∧
    (∀ p, p ∈ positions ↔ g.HasClassAt applicationId host p c.name) ∧
    List.Forall₂ (fun p label => ∃ d, g.at? p = some d ∧ label = d.label) positions c.labels

/-- A destination with its position and its file. -/
structure PlacedFile where
  position : Position
  destination : Destination
  file : DirectionsFile

def PlacedFile.name (t : PlacedFile) : Text := t.file.className.canonical

/-- The files of all destinations with actions, in the order of the walk. -/
structure Places (g : NavigationGraph) (applicationId : Text) (host : HostClasses)
    (placed : List PlacedFile) : Prop where
  sorted : placed.Pairwise fun t u => t.position < u.position
  acting : placed.map (·.destination) = g.acting
  acts : ∀ t ∈ placed, g.ActsAt t.position t.destination
  described : ∀ t ∈ placed, t.destination.directionsFile applicationId host = .ok t.file
  complete : ∀ p d, g.ActsAt p d → ∃ t ∈ placed, t.position = p ∧ t.destination = d

theorem exists_places (h : ∀ p d, g.ActsAt p d → ∃ f, d.directionsFile applicationId host = .ok f) :
    ∃ placed, g.Places applicationId host placed := by
  let acting := g.placed.filter fun e => !e.2.actions.isEmpty
  have hacting {p : Position} {d : Destination} : (p, d) ∈ acting ↔ g.ActsAt p d := by
    rw [List.mem_filter, mem_placed, ActsAt, Bool.not_eq_true', List.isEmpty_eq_false_iff]
  have hfile : ∀ e ∈ acting, ∃ t : PlacedFile,
      (e.2.directionsFile applicationId host).map (PlacedFile.mk e.1 e.2) = .ok t := by
    intro e he
    obtain ⟨f, hf⟩ := h e.1 e.2 (hacting.mp he)
    exact ⟨⟨e.1, e.2, f⟩, map_ok.mpr ⟨f, hf, rfl⟩⟩
  obtain ⟨placed, hplaced⟩ := mapM_total hfile
  have hall := mapM_ok.mp hplaced
  have hpairs : placed.map (fun t => (t.position, t.destination)) = acting := by
    have heq : List.Forall₂ (fun e (t : PlacedFile) => e = (t.position, t.destination))
        acting placed := by
      refine hall.imp fun e t ht => ?_
      obtain ⟨f, -, rfl⟩ := map_ok.mp ht
      rfl
    exact (List.forall₂_eq_eq_eq ▸ List.forall₂_map_right_iff.mpr heq).symm
  have hsorted : (acting.map Prod.fst).Pairwise (· < ·) :=
    g.placed_sorted.sublist (List.filter_sublist.map Prod.fst)
  refine ⟨placed, ?_, ?_, fun t ht => ?_, fun t ht => ?_, fun p d hd => ?_⟩
  · rw [← hpairs, List.map_map] at hsorted
    exact List.pairwise_map.mp hsorted
  · have hdestinations : placed.map (·.destination) = acting.map Prod.snd := by
      rw [← hpairs, List.map_map]
      rfl
    rw [hdestinations, NavigationGraph.acting, ← g.map_snd_placed, List.filter_map]
    rfl
  · exact hacting.mp (hpairs ▸ List.mem_map_of_mem ht)
  · obtain ⟨e, -, he⟩ := partner_of_mem_right hall ht
    obtain ⟨f, hf, rfl⟩ := map_ok.mp he
    exact hf
  · obtain ⟨t, ht, he⟩ := partner_of_mem_left hall (hacting.mpr hd)
    obtain ⟨f, -, rfl⟩ := map_ok.mp he
    exact ⟨_, ht, rfl, rfl⟩

namespace Places

variable {placed : List PlacedFile}

theorem hasClassAt_iff (h : g.Places applicationId host placed) {p : Position} {name : Text} :
    g.HasClassAt applicationId host p name ↔ ∃ t ∈ placed, t.position = p ∧ t.name = name := by
  constructor
  · rintro ⟨d, f, hd, hf, hname⟩
    obtain ⟨t, ht, hp, rfl⟩ := h.complete p d hd
    have hfile : t.file = f := Except.ok.inj ((h.described t ht).symm.trans hf)
    exact ⟨t, ht, hp, by rw [PlacedFile.name, hfile, hname]⟩
  · rintro ⟨t, ht, rfl, hname⟩
    exact ⟨t.destination, t.file, h.acts t ht, h.described t ht, hname⟩

theorem one_lt_length_iff {sharing : List PlacedFile}
    (hsorted : sharing.Pairwise fun t u => t.position < u.position) :
    1 < sharing.length ↔ ∃ t ∈ sharing, ∃ u ∈ sharing, t.position ≠ u.position := by
  cases sharing with
  | nil => simp
  | cons t rest =>
    cases rest with
    | nil => simp
    | cons u rest =>
      have hlt : t.position < u.position := List.rel_of_pairwise_cons hsorted List.mem_cons_self
      have hne : t.position ≠ u.position := fun heq => List.lt_irrefl _ (heq ▸ hlt)
      have hu : u ∈ t :: u :: rest := List.mem_cons_of_mem t List.mem_cons_self
      exact iff_of_true (by simp) ⟨t, List.mem_cons_self, u, hu, hne⟩

theorem sharesClass_iff (h : g.Places applicationId host placed) {name : Text} :
    g.SharesClass applicationId host name ↔ 1 < (placed.filter (·.name = name)).length := by
  rw [one_lt_length_iff (h.sorted.sublist List.filter_sublist)]
  simp only [SharesClass, h.hasClassAt_iff, List.mem_filter, decide_eq_true_iff]
  constructor
  · rintro ⟨p, q, hne, ⟨t, ht, rfl, htname⟩, ⟨u, hu, rfl, huname⟩⟩
    exact ⟨t, ⟨ht, htname⟩, u, ⟨hu, huname⟩, hne⟩
  · rintro ⟨t, ⟨ht, htname⟩, u, ⟨hu, huname⟩, hne⟩
    exact ⟨t.position, u.position, hne, ⟨t, ht, rfl, htname⟩, ⟨u, hu, rfl, huname⟩⟩

end Places

/-- The names of some files with the labels of their destinations. -/
def named (placed : List PlacedFile) : List (Text × Json) :=
  placed.map fun t => (t.name, t.destination.label)

theorem labelsOf_named (name : Text) (placed : List PlacedFile) :
    labelsOf name (owners (named placed)) =
      (placed.filter (·.name = name)).map (·.destination.label) := by
  rw [labelsOf_owners, named, List.filter_map, List.map_map]
  rfl

theorem mem_collisions {files : List (Text × Json)} {c : Collision} :
    c ∈ collisions files ↔ c ∈ owners files ∧ 1 < (labelsOf c.name (owners files)).length := by
  rw [collisions, List.mem_filter, decide_eq_true_iff]
  refine and_congr_right fun hc => ?_
  rw [labelsOf_of_mem (names_owners_nodup files) hc]

theorem mem_names_collisions {files : List (Text × Json)} {name : Text} :
    name ∈ (collisions files).map (·.name) ↔ 1 < (labelsOf name (owners files)).length := by
  constructor
  · intro hname
    obtain ⟨c, hc, rfl⟩ := List.mem_map.mp hname
    exact (mem_collisions.mp hc).2
  · intro hlength
    have hname : name ∈ (owners files).map (·.name) := by
      rw [mem_names_owners]
      by_contra hnone
      have hempty : files.filter (·.1 = name) = [] := by
        rw [List.filter_eq_nil_iff]
        intro file hfile hfilename
        exact hnone (List.mem_map.mpr ⟨file, hfile, of_decide_eq_true hfilename⟩)
      rw [labelsOf_owners, hempty] at hlength
      simp at hlength
    obtain ⟨c, hc, rfl⟩ := List.mem_map.mp hname
    exact List.mem_map_of_mem (mem_collisions.mpr ⟨hc, hlength⟩)

namespace Places

variable {placed : List PlacedFile}

theorem shared_iff (h : g.Places applicationId host placed) {name : Text} :
    name ∈ (collisions (named placed)).map (·.name) ↔ g.SharesClass applicationId host name := by
  rw [mem_names_collisions, labelsOf_named, List.length_map, h.sharesClass_iff]

theorem position_lt (h : g.Places applicationId host placed) {first later : Text}
    (hbefore : AppearsBefore (named placed) first later) :
    ∃ p, g.HasClassAt applicationId host p first ∧
      ∀ q, g.HasClassAt applicationId host q later → p < q := by
  -- The split of the names is one of the files: `first` is in front, `later` only behind.
  obtain ⟨before, after, hsplit, hfirst, hlater⟩ := hbefore
  obtain ⟨front, back, rfl, rfl, rfl⟩ := List.map_eq_append_iff.mp hsplit
  rw [List.map_map] at hfirst hlater
  obtain ⟨t, ht, htname⟩ := List.mem_map.mp hfirst
  refine ⟨t.position, h.hasClassAt_iff.mpr ⟨t, List.mem_append_left back ht, rfl, htname⟩, ?_⟩
  intro q hq
  obtain ⟨u, hu, rfl, huname⟩ := h.hasClassAt_iff.mp hq
  have hback : u ∈ back := by
    rcases List.mem_append.mp hu with hu | hu
    · exact absurd (List.mem_map.mpr ⟨u, hu, huname⟩) hlater
    · exact hu
  exact (List.pairwise_append.mp h.sorted).2.2 t ht u hback

theorem reports (h : g.Places applicationId host placed) :
    g.Reports applicationId host (collisions (named placed)) := by
  have hsub : ((collisions (named placed)).map (·.name)).Sublist
      ((owners (named placed)).map (·.name)) := List.filter_sublist.map _
  refine ⟨fun name => h.shared_iff, (names_owners_nodup _).sublist hsub, ?_, fun c hc => ?_⟩
  · exact ((names_owners_ordered (named placed)).sublist hsub).imp h.position_lt
  · let sharing := placed.filter (·.name = c.name)
    have hsorted : sharing.Pairwise fun t u => t.position < u.position :=
      h.sorted.sublist List.filter_sublist
    have hlabels : c.labels = sharing.map (·.destination.label) := by
      rw [← labelsOf_named, labelsOf_of_mem (names_owners_nodup _) (mem_collisions.mp hc).1]
    refine ⟨sharing.map (·.position), List.pairwise_map.mpr hsorted, fun p => ?_, ?_⟩
    · rw [h.hasClassAt_iff, List.mem_map]
      refine exists_congr fun t => ?_
      rw [List.mem_filter, decide_eq_true_iff, and_assoc]
      exact and_congr_right fun _ => and_comm
    · rw [hlabels, List.forall₂_map_left_iff, List.forall₂_map_right_iff, List.forall₂_same]
      intro t ht
      exact ⟨t.destination, (h.acts t (List.mem_of_mem_filter ht)).1, rfl⟩

theorem directionsFiles_eq (h : g.Places applicationId host placed) :
    g.directionsFiles applicationId host =
      match collisions (named placed) with
      | [] => .ok (placed.map (·.file))
      | found => .error (.reported (.collision found)) := by
  have hfiles : g.acting.mapM (·.directionsFile applicationId host) =
      .ok (placed.map (·.file)) := by
    rw [mapM_ok, ← h.acting, List.forall₂_map_left_iff, List.forall₂_map_right_iff,
      List.forall₂_same]
    exact h.described
  have hnamed : ((placed.map (·.file)).map (·.className.canonical)).zip
      (g.acting.map (·.label)) = named placed := by
    rw [← h.acting, List.map_map, List.map_map, List.zip_map']
    rfl
  rw [NavigationGraph.acting] at hfiles hnamed
  cases hfound : collisions (named placed) with
  | nil => simp only [directionsFiles, hfiles, bind, Except.bind, hnamed, hfound]
  | cons c rest => simp only [directionsFiles, hfiles, bind, Except.bind, hnamed, hfound]

end Places

/-! ### Whole graphs -/

/-- Where every destination with actions can be described, the graph is refused for a collision
exactly when a class name is shared, and the refusal reports the shared names.  Otherwise there is
one file for each position of such a destination, in the order of the positions. -/
theorem directionsFiles_collide_iff
    (h : ∀ p d, g.ActsAt p d → ∃ f, d.directionsFile applicationId host = .ok f) :
    ((∃ found, g.directionsFiles applicationId host = .error (.reported (.collision found))) ↔
      ∃ name, g.SharesClass applicationId host name) ∧
    (∀ found, g.directionsFiles applicationId host = .error (.reported (.collision found)) →
      g.Reports applicationId host found) ∧
    ((¬∃ name, g.SharesClass applicationId host name) →
      ∃ files positions, g.directionsFiles applicationId host = .ok files ∧
        positions.Pairwise (· < ·) ∧ (∀ p, p ∈ positions ↔ ∃ d, g.ActsAt p d) ∧
        List.Forall₂ (fun p f => ∃ d, g.ActsAt p d ∧ d.directionsFile applicationId host = .ok f)
          positions files) := by
  obtain ⟨placed, hplaced⟩ := exists_places h
  have hresult := hplaced.directionsFiles_eq
  have hreports := hplaced.reports
  cases hfound : collisions (named placed) with
  | nil =>
    rw [hfound] at hresult hreports
    have hnone : ¬∃ name, g.SharesClass applicationId host name := by
      rintro ⟨name, hname⟩
      exact nomatch (hreports.names name).mpr hname
    refine ⟨iff_of_false ?_ hnone, fun found hrefused => ?_, fun _ => ?_⟩
    · rintro ⟨found, hrefused⟩
      exact nomatch hresult.symm.trans hrefused
    · exact nomatch hresult.symm.trans hrefused
    · refine ⟨placed.map (·.file), placed.map (·.position), hresult,
        List.pairwise_map.mpr hplaced.sorted, fun p => ?_, ?_⟩
      · rw [List.mem_map]
        constructor
        · rintro ⟨t, ht, rfl⟩
          exact ⟨t.destination, hplaced.acts t ht⟩
        · rintro ⟨d, hd⟩
          obtain ⟨t, ht, hp, -⟩ := hplaced.complete p d hd
          exact ⟨t, ht, hp⟩
      · rw [List.forall₂_map_left_iff, List.forall₂_map_right_iff, List.forall₂_same]
        intro t ht
        exact ⟨t.destination, hplaced.acts t ht, hplaced.described t ht⟩
  | cons c rest =>
    rw [hfound] at hresult hreports
    have hsome : ∃ name, g.SharesClass applicationId host name :=
      ⟨c.name, (hreports.names c.name).mp List.mem_cons_self⟩
    refine ⟨iff_of_true ⟨_, hresult⟩ hsome, fun found hrefused => ?_, fun hnone => ?_⟩
    · have hsame : c :: rest = found := by
        have heq := hresult.symm.trans hrefused
        simpa using heq
      rw [← hsame]
      exact hreports
    · exact absurd hsome hnone

/-- A screen that appears again two levels below, and one of another name. -/
def repeatedScreen : NavigationGraph :=
  let go := Action.bare ⟨"shop", "open", by decide, by decide⟩
  let again : Destination := ⟨.text "app.Main", none, [go], []⟩
  let menu : Destination := ⟨.text "app.Menu", none, [], [again]⟩
  ⟨[⟨.text "app.Main", none, [go], [menu]⟩, ⟨.text "app.Details", none, [go], []⟩]⟩

theorem repeatedScreen_is_reported :
    (∀ p d, repeatedScreen.ActsAt p d → ∃ f, d.directionsFile "app"
      (.of "androidx.navigation" "android.os.Bundle") = .ok f) ∧
    ∃ found, repeatedScreen.directionsFiles "app" (.of "androidx.navigation" "android.os.Bundle") =
        .error (.reported (.collision found)) ∧
      found.map (·.name) = (["app.MainDirections"] : List Text) ∧
      repeatedScreen.Reports "app" (.of "androidx.navigation" "android.os.Bundle") found := by
  have hdescribed : ∀ p d, repeatedScreen.ActsAt p d → ∃ f, d.directionsFile "app"
      (.of "androidx.navigation" "android.os.Bundle") = .ok f := by
    intro p d hd
    have hmem := mem_placed.mpr hd.1
    simp only [placed, repeatedScreen, Destination.placedFrom, Destination.placed, List.map_cons,
      List.map_nil, List.append_nil, List.cons_append, List.nil_append, List.mem_cons,
      Prod.mk.injEq, List.not_mem_nil, or_false] at hmem
    rcases hmem with ⟨-, rfl⟩ | ⟨-, rfl⟩ | ⟨-, rfl⟩ | ⟨-, rfl⟩
    · exact ⟨_, rfl⟩
    · exact ⟨_, rfl⟩
    · exact ⟨_, rfl⟩
    · exact ⟨_, rfl⟩
  obtain ⟨found, hfound, hnames⟩ : ∃ found,
      repeatedScreen.directionsFiles "app" (.of "androidx.navigation" "android.os.Bundle") =
          .error (.reported (.collision found)) ∧
        found.map (·.name) = (["app.MainDirections"] : List Text) := by
    refine ⟨_, rfl, ?_⟩
    decide
  exact ⟨hdescribed, found, hfound, hnames,
    (directionsFiles_collide_iff hdescribed).2.1 found hfound⟩

end NavigationGraph
end NavDirections
