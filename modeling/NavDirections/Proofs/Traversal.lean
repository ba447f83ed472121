import NavDirections.Graph.Basic
import Mathlib.Data.List.Pairwise
import Mathlib.Data.List.Basic

/-!
# Positions in a graph

The position of a destination tells which one to enter on every level.  A walk over a graph goes
through its positions in lexicographic order: a parent comes before its children, since its
position is the beginning of theirs, and of two siblings the earlier one comes first with all
inside it.
-/

namespace NavDirections

/-- The number of the destination to enter on each level, from the outermost to the innermost. -/
abbrev Position := List Nat

namespace Destination

/-- Induction over a nested tree: a destination is settled once those inside it are. -/
theorem ind {motive : Destination → Prop}
    (step : ∀ name id actions nested, (∀ d ∈ nested, motive d) →
      motive ⟨name, id, actions, nested⟩) : ∀ d, motive d
  | ⟨name, id, actions, nested⟩ => step name id actions nested fun d hd =>
      have : sizeOf d < sizeOf (Destination.mk name id actions nested) := by
        have hmem := List.sizeOf_lt_of_mem hd
        have hspec := Destination.mk.sizeOf_spec name id actions nested
        omega
      ind step d
  termination_by d => sizeOf d

theorem walkAll_eq_flatMap (ds : List Destination) : walkAll ds = ds.flatMap walk := by
  induction ds with
  | nil => rfl
  | cons d rest ih => rw [walkAll, ih, List.flatMap_cons]

theorem walk_eq (d : Destination) : d.walk = d :: d.nested.flatMap walk := by
  obtain ⟨name, id, actions, nested⟩ := d
  rw [walk, walkAll_eq_flatMap]

theorem mem_walk_self (d : Destination) : d ∈ d.walk := by
  rw [walk_eq]
  exact List.mem_cons_self

theorem mem_walk_of_nested {d e f : Destination} (he : e ∈ d.nested) (hf : f ∈ e.walk) :
    f ∈ d.walk := by
  rw [walk_eq]
  exact List.mem_cons_of_mem d (List.mem_flatMap.mpr ⟨e, he, hf⟩)

/-- The destination at a position below another; the empty position is that of the other itself. -/
def at? : Destination → Position → Option Destination
  | d, [] => some d
  | d, i :: p => d.nested[i]?.bind (·.at? p)

mutual

/-- The destination and all inside it with their positions, in the order of the walk. -/
def placed : Destination → List (Position × Destination)
  | ⟨name, id, actions, nested⟩ => ([], ⟨name, id, actions, nested⟩) :: placedFrom 0 nested

/-- The same for destinations side by side, the first of which has the given number. -/
def placedFrom (i : Nat) : List Destination → List (Position × Destination)
  | [] => []
  | d :: rest => (placed d).map (fun entry => (i :: entry.1, entry.2)) ++ placedFrom (i + 1) rest

end

theorem map_snd_placedFrom {ds : List Destination} (h : ∀ d ∈ ds, d.placed.map Prod.snd = d.walk)
    (i : Nat) : (placedFrom i ds).map Prod.snd = walkAll ds := by
  induction ds generalizing i with
  | nil => rfl
  | cons d rest ih =>
    have hrest := ih (fun e he => h e (List.mem_cons_of_mem d he)) (i + 1)
    rw [placedFrom, walkAll, List.map_append, List.map_map, hrest, ← h d List.mem_cons_self]
    rfl

theorem map_snd_placed (d : Destination) : d.placed.map Prod.snd = d.walk := by
  induction d using ind with
  | step name id actions nested ih =>
    rw [placed, List.map_cons, map_snd_placedFrom ih, walk]

theorem mem_placedFrom {ds : List Destination}
    (h : ∀ d ∈ ds, ∀ p e, (p, e) ∈ d.placed ↔ d.at? p = some e) {i : Nat} {p : Position}
    {e : Destination} :
    (p, e) ∈ placedFrom i ds ↔
      ∃ j q d, p = (i + j) :: q ∧ ds[j]? = some d ∧ d.at? q = some e := by
  induction ds generalizing i with
  | nil => simp [placedFrom]
  | cons d rest ih =>
    have hrest := @ih (fun e he => h e (List.mem_cons_of_mem d he)) (i + 1)
    have hd := h d List.mem_cons_self
    have hshift (j : Nat) : i + 1 + j = i + (j + 1) := by omega
    rw [placedFrom, List.mem_append, hrest, List.mem_map]
    constructor
    · rintro (⟨⟨q, e'⟩, hmem, heq⟩ | ⟨j, q, d', hp, hj, hq⟩)
      · cases heq
        exact ⟨0, q, d, rfl, rfl, (hd q e').mp hmem⟩
      · exact ⟨j + 1, q, d', by rw [hp, hshift], hj, hq⟩
    · rintro ⟨j, q, d', hp, hj, hq⟩
      cases j with
      | zero =>
        cases hj
        exact .inl ⟨(q, e), (hd q e).mpr hq, by rw [hp]; rfl⟩
      | succ j => exact .inr ⟨j, q, d', by rw [hp, hshift], hj, hq⟩

theorem mem_placed (d : Destination) (p : Position) (e : Destination) :
    (p, e) ∈ d.placed ↔ d.at? p = some e := by
  induction d using ind generalizing p e with
  | step name id actions nested ih =>
    rw [placed, List.mem_cons, mem_placedFrom ih]
    cases p with
    | nil => simp [at?, eq_comm]
    | cons i p => simp [at?, Option.bind_eq_some_iff]

theorem placedFrom_sorted {ds : List Destination}
    (h : ∀ d ∈ ds, (d.placed.map Prod.fst).Pairwise (· < ·)) (i : Nat) :
    ((placedFrom i ds).map Prod.fst).Pairwise (· < ·) := by
  induction ds generalizing i with
  | nil => exact .nil
  | cons d rest ih =>
    have hrest := ih (fun e he => h e (List.mem_cons_of_mem d he)) (i + 1)
    have hd := List.pairwise_map.mp (h d List.mem_cons_self)
    rw [placedFrom, List.map_append, List.map_map, List.pairwise_append]
    refine ⟨?_, hrest, ?_⟩
    · rw [List.pairwise_map]
      exact hd.imp fun hlt => List.cons_lt_cons_iff.mpr (.inr ⟨rfl, hlt⟩)
    · intro p hp q hq
      obtain ⟨⟨p, e⟩, -, rfl⟩ := List.mem_map.mp hp
      obtain ⟨⟨q, e'⟩, hmem, rfl⟩ := List.mem_map.mp hq
      obtain ⟨j, q', -, rfl, -, -⟩ := (mem_placedFrom fun d _ => d.mem_placed).mp hmem
      have hlt : i < i + 1 + j := by omega
      exact List.cons_lt_cons_iff.mpr (.inl hlt)

theorem placed_sorted (d : Destination) : (d.placed.map Prod.fst).Pairwise (· < ·) := by
  induction d using ind with
  | step name id actions nested ih =>
    rw [placed, List.map_cons, List.pairwise_cons]
    refine ⟨fun p hp => ?_, placedFrom_sorted ih 0⟩
    obtain ⟨⟨p, e⟩, hmem, rfl⟩ := List.mem_map.mp hp
    obtain ⟨j, q, -, rfl, -, -⟩ := (mem_placedFrom fun d _ => d.mem_placed).mp hmem
    exact List.nil_lt_cons _ _

end Destination

def Action.HasTextNames (a : Action) : Prop := ∀ x ∈ a.args, ∃ t, x.name = .text t

def Destination.HasTextNames (d : Destination) : Prop :=
  (∃ t, d.name = .text t) ∧ ∀ a ∈ d.actions, a.HasTextNames

namespace NavigationGraph

/-- Every name in the graph is a text, as the names of a graph are meant to be. -/
def HasTextNames (g : NavigationGraph) : Prop := ∀ d ∈ g.walk, d.HasTextNames

theorem mem_walk {g : NavigationGraph} {d e : Destination} (hd : d ∈ g.destinations)
    (he : e ∈ d.walk) : e ∈ g.walk := by
  rw [walk, Destination.walkAll_eq_flatMap]
  exact List.mem_flatMap.mpr ⟨d, hd, he⟩

/-- The destination at a position; the graph itself is none. -/
def at? (g : NavigationGraph) : Position → Option Destination
  | [] => none
  | i :: p => g.destinations[i]?.bind (·.at? p)

/-- All destinations with their positions, in the order of the walk. -/
def placed (g : NavigationGraph) : List (Position × Destination) :=
  Destination.placedFrom 0 g.destinations

theorem map_snd_placed (g : NavigationGraph) : g.placed.map Prod.snd = g.walk :=
  Destination.map_snd_placedFrom (fun d _ => d.map_snd_placed) 0

theorem placed_sorted (g : NavigationGraph) : (g.placed.map Prod.fst).Pairwise (· < ·) :=
  Destination.placedFrom_sorted (fun d _ => d.placed_sorted) 0

theorem mem_placed {g : NavigationGraph} {p : Position} {d : Destination} :
    (p, d) ∈ g.placed ↔ g.at? p = some d := by
  rw [placed, Destination.mem_placedFrom fun d _ => d.mem_placed]
  cases p with
  | nil => simp [at?]
  | cons i p => simp [at?, Option.bind_eq_some_iff]

end NavigationGraph
end NavDirections
