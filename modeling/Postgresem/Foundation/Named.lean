import Mathlib.Data.List.Forall2
import Mathlib.Data.List.Nodup
import Mathlib.Data.List.Perm.Basic

/-! Lists of named items: searches by name, and two lists that share the items of some names while
each may have items of its own under names that the other does not use. -/
namespace Named

variable {α : Type} {κ : Type} [DecidableEq κ] (name : α → κ)

/-- The items of the first list whose name occurs in the second. -/
def shared (xs ys : List α) : List α := xs.filter fun x => decide (name x ∈ ys.map name)

/-- The items of the first list whose name does not occur in the second. -/
def own (xs ys : List α) : List α := xs.filter fun x => decide (name x ∉ ys.map name)

/-- The shared items correspond in order; the items of one list alone satisfy `P`. -/
structure Overlaps (P : α → Prop) (R : α → α → Prop) (xs ys : List α) : Prop where
  shared : List.Forall₂ R (shared name xs ys) (shared name ys xs)
  left : ∀ x ∈ own name xs ys, P x
  right : ∀ y ∈ own name ys xs, P y

variable {name}

theorem mem_own {x : α} {xs ys : List α} : x ∈ own name xs ys ↔ x ∈ xs ∧ name x ∉ ys.map name := by
  simp [own]

theorem find?_shared {xs ys : List α} {q : α → Bool} (h : ∀ x ∈ own name xs ys, q x = false) :
    (shared name xs ys).find? q = xs.find? q := by
  induction xs with
  | nil => rfl
  | cons x xs ih =>
    have ih' := ih fun y hy => h y (by
      rw [mem_own] at hy ⊢
      exact ⟨by simp [hy.1], hy.2⟩)
    by_cases hx : name x ∈ ys.map name
    · have hcons : shared name (x :: xs) ys = x :: shared name xs ys := by
        rw [shared, List.filter_cons_of_pos (by simpa using hx), ← shared]
      rw [hcons, List.find?_cons, List.find?_cons, ih']
    · have hcons : shared name (x :: xs) ys = shared name xs ys := by
        rw [shared, List.filter_cons_of_neg (by simpa using hx), ← shared]
      have hq : q x = false := h x (mem_own.mpr ⟨by simp, hx⟩)
      rw [hcons, List.find?_cons, hq, ih']

theorem find?_rel {R : α → α → Prop} {xs ys : List α} (h : List.Forall₂ R xs ys) {q : α → Bool}
    (hq : ∀ x y, R x y → q x = q y) : Option.Rel R (xs.find? q) (ys.find? q) := by
  induction h with
  | nil => exact .none
  | @cons x y xs ys hxy _ ih =>
    rw [List.find?_cons, List.find?_cons, hq x y hxy]
    cases q y with
    | true => exact .some hxy
    | false => exact ih

omit [DecidableEq κ] in
/-- Where names are distinct, a search that asks for one name answers membership. -/
theorem find?_unique {xs : List α} (hnodup : (xs.map name).Nodup) {q : α → Bool} {n : κ}
    (hq : ∀ x, q x = true → name x = n) {x : α} : xs.find? q = some x ↔ x ∈ xs ∧ q x = true := by
  constructor
  · intro h
    exact ⟨List.mem_of_find?_eq_some h, List.find?_some h⟩
  · rintro ⟨hx, hqx⟩
    cases hf : xs.find? q with
    | none =>
      rw [List.find?_eq_none] at hf
      exact absurd hqx (hf x hx)
    | some y =>
      have hy : name y = name x := by rw [hq y (List.find?_some hf), hq x hqx]
      rw [List.inj_on_of_nodup_map hnodup (List.mem_of_find?_eq_some hf) hx hy]

theorem find?_eq_some_iff {xs : List α} (hnodup : (xs.map name).Nodup) {n : κ} {x : α} :
    xs.find? (fun x => name x == n) = some x ↔ x ∈ xs ∧ name x = n := by
  rw [find?_unique hnodup (n := n) (fun x hx => by simpa using hx), beq_iff_eq]

omit [DecidableEq κ] in
theorem find?_perm_unique {xs ys : List α} (hnodup : (xs.map name).Nodup) (h : xs.Perm ys)
    {q : α → Bool} {n : κ} (hq : ∀ x, q x = true → name x = n) : xs.find? q = ys.find? q := by
  have hnodup' : (ys.map name).Nodup := (h.map name).nodup_iff.mp hnodup
  ext x
  rw [find?_unique hnodup hq, find?_unique hnodup' hq, h.mem_iff]

theorem find?_perm {xs ys : List α} (hnodup : (xs.map name).Nodup) (h : xs.Perm ys) (n : κ) :
    xs.find? (fun x => name x == n) = ys.find? fun x => name x == n := by
  exact find?_perm_unique hnodup h fun x hx => by simpa using hx

theorem find?_eq_none_of_notMem {xs : List α} {n : κ} (h : n ∉ xs.map name) :
    xs.find? (fun x => name x == n) = none := by
  rw [List.find?_eq_none]
  intro x hx
  rw [beq_iff_eq]
  intro hn
  exact h (List.mem_map.mpr ⟨x, hx, hn⟩)

theorem find?_own {xs ys : List α} {n : κ} (hx : n ∈ xs.map name) (hy : n ∉ ys.map name) :
    ∃ x ∈ own name xs ys, xs.find? (fun x => name x == n) = some x := by
  obtain ⟨witness, hw, hname⟩ := List.mem_map.mp hx
  cases hf : xs.find? fun x => name x == n with
  | none =>
    rw [List.find?_eq_none] at hf
    exact absurd hname (by simpa using hf witness hw)
  | some x =>
    have hn : name x = n := by simpa using List.find?_some hf
    exact ⟨x, mem_own.mpr ⟨List.mem_of_find?_eq_some hf, by rw [hn]; exact hy⟩, rfl⟩

section Overlaps
variable {P : α → Prop} {R : α → α → Prop} {xs ys : List α} (h : Overlaps name P R xs ys)
include h

/-- A search that no item of one list alone can answer finds corresponding items. -/
theorem Overlaps.find? {q : α → Bool} (hl : ∀ x ∈ own name xs ys, q x = false)
    (hr : ∀ y ∈ own name ys xs, q y = false) (hq : ∀ x y, R x y → q x = q y) :
    Option.Rel R (xs.find? q) (ys.find? q) := by
  rw [← find?_shared hl, ← find?_shared hr]
  exact find?_rel h.shared hq

theorem Overlaps.any {q : α → Bool} (hl : ∀ x ∈ own name xs ys, q x = false)
    (hr : ∀ y ∈ own name ys xs, q y = false) (hq : ∀ x y, R x y → q x = q y) :
    xs.any q = ys.any q := by
  have hrel := h.find? hl hr hq
  rw [← List.isSome_find?, ← List.isSome_find?]
  generalize xs.find? q = found at hrel
  generalize ys.find? q = found' at hrel
  cases hrel with
  | none => rfl
  | some => rfl

/-- A search by name finds corresponding items, or an item that one list has alone. -/
theorem Overlaps.find?_name (hR : ∀ x y, R x y → name x = name y) (n : κ) :
    Option.Rel R (xs.find? fun x => name x == n) (ys.find? fun y => name y == n) ∨
      (∃ x, P x ∧ xs.find? (fun x => name x == n) = some x ∧
        ys.find? (fun y => name y == n) = none) ∨
      ∃ y, P y ∧ xs.find? (fun x => name x == n) = none ∧
        ys.find? (fun y => name y == n) = some y := by
  by_cases hx : n ∈ xs.map name
  · by_cases hy : n ∈ ys.map name
    · refine Or.inl (h.find? ?_ ?_ fun x y hxy => by rw [hR x y hxy])
      · intro x hown
        rw [beq_eq_false_iff_ne]
        rintro rfl
        exact (mem_own.mp hown).2 hy
      · intro y hown
        rw [beq_eq_false_iff_ne]
        rintro rfl
        exact (mem_own.mp hown).2 hx
    · obtain ⟨x, hown, hfound⟩ := find?_own hx hy
      exact Or.inr (Or.inl ⟨x, h.left x hown, hfound, find?_eq_none_of_notMem hy⟩)
  · by_cases hy : n ∈ ys.map name
    · obtain ⟨y, hown, hfound⟩ := find?_own hy hx
      exact Or.inr (Or.inr ⟨y, h.right y hown, find?_eq_none_of_notMem hx, hfound⟩)
    · rw [find?_eq_none_of_notMem hx, find?_eq_none_of_notMem hy]
      exact Or.inl .none

/-- Corresponding items are pairs of the two shared lists. -/
theorem Overlaps.paired : Overlaps name P
    (fun x y => R x y ∧ (x, y) ∈ (Named.shared name xs ys).zip (Named.shared name ys xs)) xs ys := by
  refine ⟨?_, h.left, h.right⟩
  have hshared := h.shared
  generalize Named.shared name xs ys = us at hshared
  generalize Named.shared name ys xs = vs at hshared
  induction hshared with
  | nil => exact .nil
  | cons hxy _ ih =>
    refine .cons ⟨hxy, by simp⟩ (ih.imp ?_)
    rintro x y ⟨hR, hmem⟩
    exact ⟨hR, by simp [hmem]⟩

end Overlaps

/-! ## Correspondence in any order -/

/-- The items of two lists correspond one to one, in whatever order. -/
def Matched {β : Type} (R : α → β → Prop) (xs : List α) (ys : List β) : Prop :=
  ∃ zs, List.Forall₂ R xs zs ∧ zs.Perm ys

section Matched
variable {R : α → α → Prop} {xs ys : List α}

theorem Matched.of_perm {xs' ys' : List α} (hx : xs.Perm xs') (hy : ys.Perm ys')
    (h : List.Forall₂ R xs' ys') : Matched R xs ys := by
  obtain ⟨zs, hzs, hperm⟩ := List.perm_comp_forall₂ hx h
  exact ⟨zs, hzs, hperm.trans hy.symm⟩

omit [DecidableEq κ] in
/-- A search that asks for one name finds corresponding items. -/
theorem Matched.find? (h : Matched R xs ys) (hnodup : (ys.map name).Nodup) {q : α → Bool} {n : κ}
    (hq : ∀ y, q y = true → name y = n) (hR : ∀ x y, R x y → q x = q y) :
    Option.Rel R (xs.find? q) (ys.find? q) := by
  obtain ⟨zs, hzs, hperm⟩ := h
  rw [← find?_perm_unique ((hperm.map name).nodup_iff.mpr hnodup) hperm hq]
  exact find?_rel hzs hR

theorem Matched.any (h : Matched R xs ys) {q : α → Bool} (hR : ∀ x y, R x y → q x = q y) :
    xs.any q = ys.any q := by
  obtain ⟨zs, hzs, hperm⟩ := h
  rw [← hperm.any_eq]
  clear hperm
  induction hzs with
  | nil => rfl
  | cons hxy _ ih => rw [List.any_cons, List.any_cons, hR _ _ hxy, ih]

end Matched

end Named
