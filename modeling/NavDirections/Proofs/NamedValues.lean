import NavDirections.Proofs.ReadableValues
import NavDirections.Settings.Basic

/-!
# Named values

Custom settings are values under names that need not be text.  Putting a value under a name keeps
names different; with text names it is what putting an entry under a key is.  A collection given as
a value is an object or a list of pairs, and its values are smaller than it.
-/

namespace NavDirections

open Success

namespace Json

theorem mem_of_find? {key : Text} {fields : List (Text × Json)} {v : Json}
    (h : find? key fields = some v) : (key, v) ∈ fields := by
  induction fields with
  | nil => cases h
  | cons entry fields ih =>
    obtain ⟨k, w⟩ := entry
    rw [find?] at h
    split at h
    next hk =>
      cases h
      rw [hk]
      exact List.mem_cons_self
    next => exact List.mem_cons_of_mem _ (ih h)

theorem find?_eq_none {key : Text} {fields : List (Text × Json)}
    (h : key ∉ fields.map Prod.fst) : find? key fields = none := by
  cases hfind : find? key fields with
  | none => rfl
  | some v => exact absurd (List.mem_map_of_mem (f := Prod.fst) (mem_of_find? hfind)) h

theorem text_sameScalar_iff {t : Text} {name : Json} :
    (text t).sameScalar name = true ↔ name = text t := by
  cases name with
  | text t' =>
    show (t == t') = true ↔ _
    rw [beq_iff_eq, text.injEq]
    exact eq_comm
  | _ => exact iff_of_false Bool.false_ne_true nofun

theorem sameScalar_text_iff {t : Text} {name : Json} :
    name.sameScalar (text t) = true ↔ name = text t := by
  cases name with
  | text t' =>
    show (t' == t) = true ↔ _
    rw [beq_iff_eq, text.injEq]
  | float x =>
    refine iff_of_false ?_ nofun
    show ¬(x.toInt?.isSome && x.toInt? == none) = true
    cases x.toInt? <;> exact Bool.false_ne_true
  | _ => exact iff_of_false Bool.false_ne_true nofun

theorem isScalar_of_same {name name' : Json} (h : name.sameScalar name' = true) :
    name.isScalar = true := by
  cases name with
  | array items => cases h
  | object fields => cases h
  | _ => rfl

end Json

namespace NamedValue

def find? (name : Json) : List NamedValue → Option Json
  | [] => none
  | (n, v) :: rest => if n.sameScalar name then some v else find? name rest

theorem nameText_eq_custom {name : Json} (h : name.isScalar = true)
    (hname : nameText name = Settings.customKey) : name = .text Settings.customKey := by
  have hwritten (v : Json) : Json.writeAt 0 v ≠ Settings.customKey := by
    obtain ⟨c, more, hmore, hc⟩ := Json.writeAt_head 0 v
    intro heq
    rw [hmore] at heq
    rw [(List.cons.inj heq).1] at hc
    exact absurd hc (by decide)
  cases name with
  | null => exact absurd hname (by decide)
  | bool b => cases b <;> exact absurd hname (by decide)
  | int n => exact absurd hname (hwritten (.int n))
  | float x => exact absurd hname (hwritten (.float x))
  | text t => exact congrArg Json.text hname
  | array items => cases h
  | object fields => cases h

theorem find?_eq_some {name : Json} {values : List NamedValue} {v : Json}
    (h : find? name values = some v) : ∃ n, (n, v) ∈ values ∧ n.sameScalar name = true := by
  induction values with
  | nil => cases h
  | cons first values ih =>
    obtain ⟨n, w⟩ := first
    rw [find?] at h
    split at h
    next hsame =>
      cases h
      exact ⟨n, List.mem_cons_self, hsame⟩
    next =>
      obtain ⟨m, hm, hsame⟩ := ih h
      exact ⟨m, List.mem_cons_of_mem _ hm, hsame⟩

theorem exists_find? {name v : Json} {values : List NamedValue} (hname : name.isScalar = true)
    (h : (name, v) ∈ values) : ∃ w, find? name values = some w := by
  induction values with
  | nil => cases h
  | cons first values ih =>
    obtain ⟨n, w⟩ := first
    rw [find?]
    split
    · exact ⟨w, rfl⟩
    next hne =>
      rcases List.mem_cons.mp h with heq | hmem
      · cases heq
        exact absurd (Json.sameScalar_self hname) hne
      · exact ih hmem

theorem insert_text (key : Text) (value : Json) (fields : List (Text × Json)) :
    insert (.text key) value (ofFields fields) = ofFields (Json.insert key value fields) := by
  induction fields with
  | nil => rfl
  | cons entry fields ih =>
    obtain ⟨k, v⟩ := entry
    show insert (.text key) value ((.text k, v) :: ofFields fields) = _
    rw [insert, Json.insert]
    by_cases hk : k = key
    · rw [if_pos hk, if_pos (Json.text_sameScalar_iff.mpr (by rw [hk]))]
      rfl
    · rw [if_neg hk, if_neg (fun h => hk (Json.text.inj (Json.text_sameScalar_iff.mp h)).symm), ih]
      rfl

theorem overlay_ofFields (base upper : List (Text × Json)) :
    overlay (ofFields base) (ofFields upper) = ofFields (Json.overlay base upper) := by
  induction upper generalizing base with
  | nil => rfl
  | cons entry upper ih =>
    obtain ⟨key, value⟩ := entry
    show overlay (insert (.text key) value (ofFields base)) (ofFields upper) = _
    rw [insert_text, ih]
    rfl

theorem toObject_ofFields (fields : List (Text × Json)) :
    toObject (ofFields fields) = .object fields := by
  unfold toObject ofFields
  rw [List.map_map]
  exact congrArg Json.object (List.map_id fields)

theorem exists_ofFields {keys : List Text} {values : List NamedValue}
    (h : ∀ x ∈ values, ∃ key ∈ keys, x.1 = .text key) :
    ∃ fields, values = ofFields fields ∧ ∀ key ∈ fields.map Prod.fst, key ∈ keys := by
  induction values with
  | nil => exact ⟨[], rfl, nofun⟩
  | cons first values ih =>
    obtain ⟨⟨key, hkey, hname⟩, hrest⟩ := List.forall_mem_cons.mp h
    obtain ⟨fields, rfl, hfields⟩ := ih hrest
    obtain ⟨name, value⟩ := first
    refine ⟨(key, value) :: fields, congrArg (· :: _) (Prod.ext hname rfl), ?_⟩
    exact List.forall_mem_cons.mpr ⟨hkey, hfields⟩

theorem mem_insert {name value : Json} {values : List NamedValue} {x : NamedValue}
    (h : x ∈ insert name value values) :
    x ∈ values ∨ x.2 = value ∧
      (x.1 = name ∨ x.1 ∈ values.map Prod.fst ∧ x.1.sameScalar name = true) := by
  induction values with
  | nil =>
    rw [List.mem_singleton.mp h]
    exact .inr ⟨rfl, .inl rfl⟩
  | cons first values ih =>
    obtain ⟨n, v⟩ := first
    rw [insert] at h
    split at h
    next hsame =>
      rcases List.mem_cons.mp h with rfl | hmem
      · exact .inr ⟨rfl, .inr ⟨List.mem_cons_self, hsame⟩⟩
      · exact .inl (List.mem_cons_of_mem _ hmem)
    next =>
      rcases List.mem_cons.mp h with rfl | hmem
      · exact .inl List.mem_cons_self
      · rcases ih hmem with hold | ⟨hvalue, hname⟩
        · exact .inl (List.mem_cons_of_mem _ hold)
        · exact .inr ⟨hvalue, hname.imp_right (And.imp_left (List.mem_cons_of_mem _))⟩

theorem mem_overlay {base upper : List NamedValue} {x : NamedValue}
    (h : x ∈ overlay base upper) :
    x ∈ base ∨ ∃ y ∈ upper, x.2 = y.2 ∧ (x.1 = y.1 ∨ x.1.sameScalar y.1 = true) := by
  induction upper generalizing base with
  | nil => exact .inl h
  | cons first upper ih =>
    obtain ⟨name, value⟩ := first
    rcases ih (show x ∈ overlay (insert name value base) upper from h) with hbase | ⟨y, hy, hxy⟩
    · rcases mem_insert hbase with hold | ⟨hvalue, hname⟩
      · exact .inl hold
      · exact .inr ⟨_, List.mem_cons_self, hvalue, hname.imp_right And.right⟩
    · exact .inr ⟨y, List.mem_cons_of_mem _ hy, hxy⟩

def AreDistinct (values : List NamedValue) : Prop :=
  values.Pairwise fun x y => x.1.sameScalar y.1 = false

theorem AreDistinct.insert {values : List NamedValue} (h : AreDistinct values)
    (name value : Json) : AreDistinct (insert name value values) := by
  induction values with
  | nil => exact List.pairwise_singleton _ _
  | cons first values ih =>
    obtain ⟨n, v⟩ := first
    obtain ⟨hfirst, hrest⟩ := List.pairwise_cons.mp h
    rw [NamedValue.insert]
    split
    next => exact List.pairwise_cons.mpr ⟨hfirst, hrest⟩
    next hne =>
      refine List.pairwise_cons.mpr ⟨fun y hy => ?_, ih hrest⟩
      rcases mem_insert hy with hold | ⟨-, heq | ⟨hmem, -⟩⟩
      · exact hfirst y hold
      · rw [heq]
        exact Bool.eq_false_iff.mpr hne
      · obtain ⟨z, hz, hzy⟩ := List.mem_map.mp hmem
        rw [← hzy]
        exact hfirst z hz

theorem AreDistinct.overlay {base : List NamedValue} (h : AreDistinct base)
    (upper : List NamedValue) : AreDistinct (overlay base upper) := by
  induction upper generalizing base with
  | nil => exact h
  | cons first upper ih => exact ih (h.insert first.1 first.2)

theorem areDistinct_ofFields {fields : List (Text × Json)} :
    AreDistinct (ofFields fields) ↔ (fields.map Prod.fst).Nodup := by
  unfold AreDistinct ofFields List.Nodup
  rw [List.pairwise_map, List.pairwise_map]
  refine List.Pairwise.iff fun x y => ?_
  rw [Bool.eq_false_iff, ne_eq, Json.text_sameScalar_iff, Json.text.injEq]
  exact not_congr eq_comm

theorem AreDistinct.find? {values : List NamedValue} (h : AreDistinct values) {name v : Json}
    (hname : name.isScalar = true) (hmem : (name, v) ∈ values) :
    find? name values = some v := by
  induction values with
  | nil => cases hmem
  | cons first values ih =>
    obtain ⟨n, w⟩ := first
    obtain ⟨hfirst, hrest⟩ := List.pairwise_cons.mp h
    rw [NamedValue.find?]
    rcases List.mem_cons.mp hmem with heq | hlater
    · cases heq
      rw [if_pos (Json.sameScalar_self hname)]
    · rw [if_neg (Bool.eq_false_iff.mp (hfirst _ hlater))]
      exact ih hrest hlater

structure IsReadable (levels : Nat) (x : NamedValue) : Prop where
  name : x.1.isScalar = true
  value : Json.Readable levels x.2

theorem isReadable_overlay {levels : Nat} {base upper : List NamedValue}
    (hbase : ∀ x ∈ base, IsReadable levels x) (hupper : ∀ x ∈ upper, IsReadable levels x) :
    ∀ x ∈ overlay base upper, IsReadable levels x := by
  intro x hx
  rcases mem_overlay hx with hold | ⟨y, hy, hvalue, hname⟩
  · exact hbase x hold
  · refine ⟨?_, hvalue ▸ (hupper y hy).value⟩
    rcases hname with heq | hsame
    · exact heq ▸ (hupper y hy).name
    · exact Json.isScalar_of_same hsame

end NamedValue

/-! ### Collections -/

namespace Settings

/-- A pair is a list of two, the two letters of a text, or the two keys of an object. -/
theorem pairOf_ok {position : Nat} {item : Json} {x : NamedValue}
    (h : pairOf position item = .ok x) :
    x.1.isScalar = true ∧ (item = .array [x.1, x.2] ∨
      (∃ c d, item = .text [c, d] ∧ x.2 = .text [d]) ∨
      ∃ key v key' v', item = .object [(key, v), (key', v')] ∧ x.2 = .text key') := by
  cases item with
  | array items =>
    rcases items with _ | ⟨name, _ | ⟨value, _ | ⟨_, _⟩⟩⟩
    · cases h
    · cases h
    · change (if name.isScalar then Except.ok (name, value) else _) = _ at h
      split at h
      next hscalar =>
        cases h
        exact ⟨hscalar, .inl rfl⟩
      next => cases h
    · cases h
  | text t =>
    rcases t with _ | ⟨c, _ | ⟨d, _ | ⟨_, _⟩⟩⟩
    · cases h
    · cases h
    · cases h
      exact ⟨rfl, .inr (.inl ⟨c, d, rfl, rfl⟩)⟩
    · cases h
  | object fields =>
    rcases fields with _ | ⟨⟨key, v⟩, _ | ⟨⟨key', v'⟩, _ | ⟨_, _⟩⟩⟩
    · cases h
    · cases h
    · cases h
      exact ⟨rfl, .inr (.inr ⟨key, v, key', v', rfl, rfl⟩)⟩
    · cases h
  | _ => cases h

theorem mem_pairsOf {position : Nat} {items : List Json} {pairs : List NamedValue}
    (h : pairsOf position items = .ok pairs) {x : NamedValue} (hx : x ∈ pairs) :
    ∃ item ∈ items, ∃ place, pairOf place item = .ok x := by
  induction items generalizing position pairs with
  | nil =>
    cases h
    cases hx
  | cons item items ih =>
    obtain ⟨pair, hpair, h⟩ := bind_ok.mp h
    obtain ⟨others, hothers, h⟩ := bind_ok.mp h
    cases h
    rcases List.mem_cons.mp hx with rfl | hx
    · exact ⟨item, List.mem_cons_self, position, hpair⟩
    · obtain ⟨item', hitem', hread⟩ := ih hothers hx
      exact ⟨item', List.mem_cons_of_mem _ hitem', hread⟩

theorem collection_ok {v : Json} {values : List NamedValue} (h : collection v = .ok values) :
    (∃ fields, v = .object fields ∧ values = NamedValue.ofFields fields) ∨
      (∃ items pairs, v = .array items ∧ pairsOf 0 items = .ok pairs ∧
        values = NamedValue.overlay [] pairs) ∨ values = [] := by
  cases v with
  | object fields =>
    cases h
    exact .inl ⟨fields, rfl, rfl⟩
  | array items =>
    obtain ⟨pairs, hpairs, rfl⟩ := map_ok.mp h
    exact .inr (.inl ⟨items, pairs, rfl, hpairs, rfl⟩)
  | text t =>
    cases t with
    | nil =>
      cases h
      exact .inr (.inr rfl)
    | cons c t => cases h
  | _ => cases h

/-- The values of a collection are smaller than it, so none is the collection itself. -/
theorem sizeOf_of_mem_collection {v : Json} {values : List NamedValue}
    (h : collection v = .ok values) {x : NamedValue} (hx : x ∈ values) :
    sizeOf x.2 < sizeOf v := by
  have hpair {item : Json} {place : Nat} {y : NamedValue} (hy : pairOf place item = .ok y) :
      sizeOf y.2 < sizeOf item := by
    obtain ⟨-, hitem | ⟨c, d, hitem, hvalue⟩ | ⟨key, w, key', w', hitem, hvalue⟩⟩ := pairOf_ok hy
    · rw [hitem]
      simp
      omega
    · rw [hitem, hvalue]
      simp
    · rw [hitem, hvalue]
      simp
      omega
  obtain ⟨fields, rfl, rfl⟩ | ⟨items, pairs, rfl, hpairs, rfl⟩ | rfl := collection_ok h
  · obtain ⟨⟨key, value⟩, hentry, rfl⟩ := List.mem_map.mp hx
    have hsize := List.sizeOf_lt_of_mem hentry
    simp at hsize ⊢
    omega
  · rcases NamedValue.mem_overlay hx with hnone | ⟨y, hy, hvalue, -⟩
    · cases hnone
    · obtain ⟨item, hitem, place, hread⟩ := mem_pairsOf hpairs hy
      have hsize := List.sizeOf_lt_of_mem hitem
      have hitemSize := hpair hread
      rw [hvalue]
      simp
      omega
  · cases hx

theorem readable_of_collection {levels : Nat} {v : Json} {values : List NamedValue}
    (h : collection v = .ok values) (hv : Json.Readable levels v) :
    ∀ x ∈ values, NamedValue.IsReadable levels x := by
  have hpair {levels : Nat} {item : Json} {place : Nat} {y : NamedValue}
      (hy : pairOf place item = .ok y) (hitem : Json.Readable levels item) :
      NamedValue.IsReadable levels y := by
    obtain ⟨hname, rfl | ⟨c, d, rfl, hvalue⟩ | ⟨key, w, key', w', rfl, hvalue⟩⟩ := pairOf_ok hy
    · cases hitem with
      | array hitems =>
        have hvalue := hitems y.2 (List.mem_cons_of_mem _ List.mem_cons_self)
        exact ⟨hname, hvalue.mono (Nat.le_succ _)⟩
    · exact ⟨hname, hvalue ▸ .text _⟩
    · exact ⟨hname, hvalue ▸ .text _⟩
  obtain ⟨fields, rfl, rfl⟩ | ⟨items, pairs, rfl, hpairs, rfl⟩ | rfl := collection_ok h
  · cases hv with
    | object _ hvalues =>
      intro x hx
      obtain ⟨entry, hentry, rfl⟩ := List.mem_map.mp hx
      exact ⟨rfl, (hvalues entry hentry).mono (Nat.le_succ _)⟩
  · cases hv with
    | array hitems =>
      refine NamedValue.isReadable_overlay nofun fun y hy => ?_
      obtain ⟨item, hitem, place, hread⟩ := mem_pairsOf hpairs hy
      exact hpair hread ((hitems item hitem).mono (Nat.le_succ _))
  · exact nofun

theorem distinct_of_collection {levels : Nat} {v : Json} {values : List NamedValue}
    (h : collection v = .ok values) (hv : Json.Readable levels v) :
    NamedValue.AreDistinct values := by
  obtain ⟨fields, rfl, rfl⟩ | ⟨items, pairs, rfl, hpairs, rfl⟩ | rfl := collection_ok h
  · cases hv with
    | object keys _ => exact NamedValue.areDistinct_ofFields.mpr keys
  · exact NamedValue.AreDistinct.overlay .nil pairs
  · exact .nil

end Settings
end NavDirections
