import Mathlib.Data.List.Forall2

/-!
# Computations that succeed and computations that fail

What the parts of a computation gave when the whole of it gave a result, and which of them failed
when it did not.
-/

namespace NavDirections.Success

variable {ε ε' α β : Type}

theorem bind_ok {x : Except ε α} {f : α → Except ε β} {b : β} :
    (x >>= f) = .ok b ↔ ∃ a, x = .ok a ∧ f a = .ok b := by
  cases x with
  | error e => simp [bind, Except.bind]
  | ok a => simp [bind, Except.bind]

theorem map_ok {x : Except ε α} {f : α → β} {b : β} :
    x.map f = .ok b ↔ ∃ a, x = .ok a ∧ f a = b := by
  cases x with
  | error e => simp [Except.map]
  | ok a => simp [Except.map]

theorem mapError_ok {x : Except ε α} {f : ε → ε'} {a : α} :
    x.mapError f = .ok a ↔ x = .ok a := by
  cases x with
  | error e => simp [Except.mapError]
  | ok a => simp [Except.mapError]

/-- Results whose errors cannot be told apart are compared without them. -/
theorem of_toOption {x : Except ε α} {a : α} (h : x.toOption = some a) : x = .ok a := by
  cases x with
  | error e => cases h
  | ok b =>
    cases h
    rfl

theorem mapM_ok {f : α → Except ε β} {xs : List α} {ys : List β} :
    xs.mapM f = .ok ys ↔ List.Forall₂ (fun x y => f x = .ok y) xs ys := by
  induction xs generalizing ys with
  | nil => cases ys <;> simp [pure, Except.pure]
  | cons x xs ih =>
    rw [List.mapM_cons, bind_ok]
    constructor
    · rintro ⟨y, hy, h⟩
      obtain ⟨rest, hrest, hys⟩ := bind_ok.mp h
      cases hys
      exact .cons hy (ih.mp hrest)
    · rintro (_ | ⟨hy, hrest⟩)
      exact ⟨_, hy, bind_ok.mpr ⟨_, ih.mpr hrest, rfl⟩⟩

theorem mapM_eq_map {f : α → Except ε β} {g : α → β} {xs : List α} {ys : List β}
    (h : xs.mapM f = .ok ys) (hfg : ∀ x ∈ xs, ∀ y, f x = .ok y → y = g x) : ys = xs.map g := by
  have hall := mapM_ok.mp h
  clear h
  induction hall with
  | nil => rfl
  | @cons x y xs ys hxy _ ih =>
    have hfirst : y = g x := hfg x List.mem_cons_self y hxy
    have hrest : ys = xs.map g := ih fun x' hx' => hfg x' (List.mem_cons_of_mem x hx')
    rw [hfirst, hrest, List.map_cons]

theorem mapM_total {f : α → Except ε β} {xs : List α} (h : ∀ x ∈ xs, ∃ y, f x = .ok y) :
    ∃ ys, xs.mapM f = .ok ys := by
  induction xs with
  | nil => exact ⟨[], rfl⟩
  | cons x xs ih =>
    obtain ⟨y, hy⟩ := h x List.mem_cons_self
    obtain ⟨ys, hys⟩ := ih fun x' hx' => h x' (List.mem_cons_of_mem x hx')
    exact ⟨y :: ys, mapM_ok.mpr (.cons hy (mapM_ok.mp hys))⟩

theorem mapM_some {f : α → Option β} {xs : List α} {ys : List β} :
    xs.mapM f = some ys ↔ List.Forall₂ (fun x y => f x = some y) xs ys := by
  induction xs generalizing ys with
  | nil => cases ys <;> simp
  | cons x xs ih =>
    rw [List.mapM_cons, Option.bind_eq_bind, Option.bind_eq_some_iff]
    constructor
    · rintro ⟨y, hy, h⟩
      obtain ⟨rest, hrest, hys⟩ := Option.bind_eq_some_iff.mp h
      cases hys
      exact .cons hy (ih.mp hrest)
    · rintro (_ | ⟨hy, hrest⟩)
      exact ⟨_, hy, Option.bind_eq_some_iff.mpr ⟨_, ih.mpr hrest, rfl⟩⟩

theorem mapM_some_total {f : α → Option β} {xs : List α} (h : ∀ x ∈ xs, ∃ y, f x = some y) :
    ∃ ys, xs.mapM f = some ys := by
  induction xs with
  | nil => exact ⟨[], rfl⟩
  | cons x xs ih =>
    obtain ⟨y, hy⟩ := h x List.mem_cons_self
    obtain ⟨ys, hys⟩ := ih fun x' hx' => h x' (List.mem_cons_of_mem x hx')
    exact ⟨y :: ys, mapM_some.mpr (.cons hy (mapM_some.mp hys))⟩

/-! ### Partners -/

theorem partner_of_mem_left {R : α → β → Prop} {xs : List α} {ys : List β}
    (h : List.Forall₂ R xs ys) {x : α} (hx : x ∈ xs) : ∃ y ∈ ys, R x y := by
  induction h with
  | nil => cases hx
  | @cons x' y' xs ys hxy _ ih =>
    rcases List.mem_cons.mp hx with rfl | hx
    · exact ⟨y', List.mem_cons_self, hxy⟩
    · obtain ⟨y, hy, h⟩ := ih hx
      exact ⟨y, List.mem_cons_of_mem y' hy, h⟩

theorem partner_of_mem_right {R : α → β → Prop} {xs : List α} {ys : List β}
    (h : List.Forall₂ R xs ys) {y : β} (hy : y ∈ ys) : ∃ x ∈ xs, R x y := by
  obtain ⟨x, hx, h⟩ := partner_of_mem_left h.flip hy
  exact ⟨x, hx, h⟩

/-- What holds of all elements of one list holds of all their partners. -/
theorem forall_partners {R : α → β → Prop} {p : α → Prop} {q : β → Prop} {xs : List α}
    {ys : List β} (h : List.Forall₂ R xs ys) (hpq : ∀ x y, R x y → (p x ↔ q y)) :
    (∀ x ∈ xs, p x) ↔ ∀ y ∈ ys, q y := by
  constructor
  · intro hp y hy
    obtain ⟨x, hx, hxy⟩ := partner_of_mem_right h hy
    exact (hpq x y hxy).mp (hp x hx)
  · intro hq x hx
    obtain ⟨y, hy, hxy⟩ := partner_of_mem_left h hx
    exact (hpq x y hxy).mpr (hq y hy)

/-- A walk of steps that succeed on some values, each with a result of its own. -/
theorem mapM_ok_of_iff {f : α → Except ε β} {p : α → Prop} {value : α → β}
    (h : ∀ x y, f x = .ok y ↔ p x ∧ y = value x) {xs : List α} {ys : List β} :
    xs.mapM f = .ok ys ↔ (∀ x ∈ xs, p x) ∧ ys = xs.map value := by
  constructor
  · intro hys
    refine ⟨fun x hx => ?_, mapM_eq_map hys fun x _ y hy => ((h x y).mp hy).2⟩
    obtain ⟨y, -, hy⟩ := partner_of_mem_left (mapM_ok.mp hys) hx
    exact ((h x y).mp hy).1
  · rintro ⟨hp, rfl⟩
    obtain ⟨ys, hys⟩ := mapM_total fun x hx => ⟨value x, (h x _).mpr ⟨hp x hx, rfl⟩⟩
    rw [hys, mapM_eq_map hys fun x _ y hy => ((h x y).mp hy).2]

end NavDirections.Success

namespace NavDirections.Failure

open Success

variable {ε ε' α β : Type}

theorem bind_error {x : Except ε α} {f : α → Except ε β} {e : ε} :
    (x >>= f) = .error e ↔ x = .error e ∨ ∃ a, x = .ok a ∧ f a = .error e := by
  cases x with
  | error e' => simp [bind, Except.bind]
  | ok a => simp [bind, Except.bind]

theorem map_error {x : Except ε α} {f : α → β} {e : ε} : x.map f = .error e ↔ x = .error e := by
  cases x with
  | error e' => simp [Except.map]
  | ok a => simp [Except.map]

theorem mapError_error {x : Except ε α} {f : ε → ε'} {e : ε'} :
    x.mapError f = .error e ↔ ∃ e', x = .error e' ∧ f e' = e := by
  cases x with
  | error e' => simp [Except.mapError]
  | ok a => simp [Except.mapError]

theorem mapM_error {f : α → Except ε β} {xs : List α} {e : ε} :
    xs.mapM f = .error e ↔
      ∃ before x after ys, xs = before ++ x :: after ∧ before.mapM f = .ok ys ∧
        f x = .error e := by
  induction xs with
  | nil => simp [pure, Except.pure]
  | cons y xs ih =>
    rw [List.mapM_cons, bind_error]
    constructor
    · rintro (hy | ⟨b, hb, h⟩)
      · exact ⟨[], y, xs, [], rfl, rfl, hy⟩
      · rcases bind_error.mp h with hrest | ⟨ys, -, hpure⟩
        · obtain ⟨before, x, after, ys, rfl, hbefore, hx⟩ := ih.mp hrest
          refine ⟨y :: before, x, after, b :: ys, rfl, ?_, hx⟩
          rw [List.mapM_cons, hb, hbefore]
          rfl
        · cases hpure
    · rintro ⟨before, x, after, ys, hxs, hbefore, hx⟩
      cases before with
      | nil =>
        obtain ⟨rfl, rfl⟩ := List.cons.inj hxs
        exact .inl hx
      | cons z before =>
        obtain ⟨rfl, rfl⟩ := List.cons.inj hxs
        rw [List.mapM_cons] at hbefore
        obtain ⟨b, hb, hbefore⟩ := bind_ok.mp hbefore
        obtain ⟨bs, hbs, -⟩ := bind_ok.mp hbefore
        exact .inr ⟨b, hb, bind_error.mpr (.inl (ih.mpr ⟨before, x, after, bs, rfl, hbs, hx⟩))⟩

/-- If the computation fails, its fault has the property. -/
def FailsWith (p : ε → Prop) (r : Except ε α) : Prop := ∀ e, r = .error e → p e

namespace FailsWith

variable {p : ε → Prop} {q : ε' → Prop} {r : Except ε α}

theorem ok (a : α) : FailsWith p (.ok a) := nofun

theorem error {e : ε} (h : p e) : FailsWith p (.error e : Except ε α) := by
  rintro _ ⟨⟩
  exact h

theorem bind {f : α → Except ε β} (hr : FailsWith p r) (hf : ∀ a, r = .ok a → FailsWith p (f a)) :
    FailsWith p (r >>= f) := by
  intro e he
  rcases bind_error.mp he with h | ⟨a, ha, h⟩
  · exact hr e h
  · exact hf a ha e h

theorem map {f : α → β} (hr : FailsWith p r) : FailsWith p (r.map f) :=
  fun e he => hr e (map_error.mp he)

theorem mapError {f : ε → ε'} (hr : FailsWith p r) (hf : ∀ e, p e → q (f e)) :
    FailsWith q (r.mapError f) := by
  intro e he
  obtain ⟨inner, hinner, rfl⟩ := mapError_error.mp he
  exact hf inner (hr inner hinner)

theorem mapError_all {f : ε → ε'} (r : Except ε α) (hf : ∀ e, q (f e)) :
    FailsWith q (r.mapError f) := by
  intro e he
  obtain ⟨inner, -, rfl⟩ := mapError_error.mp he
  exact hf inner

theorem mapM {f : α → Except ε β} {xs : List α} (h : ∀ x ∈ xs, FailsWith p (f x)) :
    FailsWith p (xs.mapM f) := by
  intro e he
  obtain ⟨before, x, after, -, rfl, -, hx⟩ := mapM_error.mp he
  exact h x (by simp) e hx

end FailsWith

end NavDirections.Failure
