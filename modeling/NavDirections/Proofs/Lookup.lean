import Mathlib.Data.List.Forall2

/-!
# Entries under keys

What is found under a key in a list of entries: the first entry of that key.
-/

namespace NavDirections

variable {α β κ : Type} [BEq κ] [LawfulBEq κ]

theorem lookup_cons_ne {k k' : κ} {v : β} {entries : List (κ × β)} (h : k' ≠ k) :
    ((k, v) :: entries).lookup k' = entries.lookup k' := by
  rw [List.lookup_cons, beq_false_of_ne h]

theorem lookup_of_notMem {k : κ} {entries : List (κ × β)} (h : k ∉ entries.map Prod.fst) :
    entries.lookup k = none := by
  induction entries with
  | nil => rfl
  | cons entry rest ih =>
    rw [List.map_cons, List.mem_cons, not_or] at h
    exact (lookup_cons_ne h.1).trans (ih h.2)

theorem lookup_table {key : α → κ} {value : α → β} {xs : List α} {x : α}
    (hkeys : (xs.map key).Nodup) (hx : x ∈ xs) :
    (xs.map fun y => (key y, value y)).lookup (key x) = some (value x) := by
  induction xs with
  | nil => cases hx
  | cons y ys ih =>
    rw [List.map_cons, List.nodup_cons] at hkeys
    rw [List.map_cons]
    rcases List.mem_cons.mp hx with rfl | hx
    · exact List.lookup_cons_self
    · have hne : key x ≠ key y := fun h => hkeys.1 (h ▸ List.mem_map_of_mem hx)
      rw [lookup_cons_ne hne]
      exact ih hkeys.2 hx

theorem lookup_zip {keys : List κ} {values : List β} (hkeys : keys.Nodup)
    (hlength : keys.length = values.length) :
    List.Forall₂ (fun k v => (keys.zip values).lookup k = some v) keys values := by
  induction keys generalizing values with
  | nil =>
    cases values with
    | nil => exact .nil
    | cons v vs => cases hlength
  | cons k keys ih =>
    cases values with
    | nil => cases hlength
    | cons v vs =>
      rw [List.nodup_cons] at hkeys
      rw [List.length_cons, List.length_cons, Nat.add_right_cancel_iff] at hlength
      rw [List.zip_cons_cons]
      refine .cons List.lookup_cons_self ?_
      have hne : ∀ k' ∈ keys, k' ≠ k := fun k' hk' h => hkeys.1 (h ▸ hk')
      refine ((List.forall₂_and_left _ _).mpr ⟨hne, ih hkeys.2 hlength⟩).imp fun k' w h => ?_
      rw [lookup_cons_ne h.1]
      exact h.2

end NavDirections
