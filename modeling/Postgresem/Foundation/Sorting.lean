import Mathlib.Data.List.Destutter
import Mathlib.Data.List.Perm.Basic
import Mathlib.Data.List.Sort
import Mathlib.Order.Defs.LinearOrder

/-! Lists sorted by a key, as normal forms: which lists have the same one. The sort is stable, and
repetitions are dropped from sorted lists as `Vec::dedup` does. -/
namespace Sorting

variable {α κ : Type}

/-- Items of the list that have one key are the same. -/
def UniqueOn (key : α → κ) (items : List α) : Prop :=
  ∀ a ∈ items, ∀ b ∈ items, key a = key b → a = b

theorem UniqueOn.of_injective {key : α → κ} (h : Function.Injective key) (items : List α) :
    UniqueOn key items :=
  fun _ _ _ _ heq => h heq

theorem UniqueOn.of_nodup {key : α → κ} {items : List α} (h : (items.map key).Nodup) :
    UniqueOn key items :=
  fun _ ha _ hb => List.inj_on_of_nodup_map h ha hb

theorem UniqueOn.map {key : α → κ} {f : α → α} (hf : ∀ a, key (f a) = key a) {items : List α}
    (h : UniqueOn key items) : UniqueOn key (items.map f) := by
  intro a ha b hb heq
  obtain ⟨c, hc, rfl⟩ := List.mem_map.mp ha
  obtain ⟨d, hd, rfl⟩ := List.mem_map.mp hb
  rw [hf, hf] at heq
  rw [h c hc d hd heq]

theorem UniqueOn.perm {key : α → κ} {items others : List α} (h : UniqueOn key items)
    (hperm : items.Perm others) : UniqueOn key others :=
  fun a ha b hb => h a (hperm.mem_iff.mpr ha) b (hperm.mem_iff.mpr hb)

section Sorted
variable [LinearOrder κ] (key : α → κ)

def sortOn (items : List α) : List α := items.insertionSort fun left right => key left ≤ key right

def distinctOn [DecidableEq α] (items : List α) : List α := (sortOn key items).destutter (· ≠ ·)

theorem perm_sortOn (items : List α) : (sortOn key items).Perm items :=
  List.perm_insertionSort _ items

@[simp] theorem mem_sortOn {item : α} {items : List α} : item ∈ sortOn key items ↔ item ∈ items :=
  (perm_sortOn key items).mem_iff

theorem pairwise_sortOn (items : List α) :
    (sortOn key items).Pairwise fun left right => key left ≤ key right := by
  have htotal : Std.Total fun left right : α => key left ≤ key right :=
    ⟨fun left right => le_total (key left) (key right)⟩
  have htrans : IsTrans α fun left right => key left ≤ key right := ⟨fun _ _ _ => le_trans⟩
  exact List.pairwise_insertionSort _ items

theorem sortOn_idem (items : List α) : sortOn key (sortOn key items) = sortOn key items :=
  (pairwise_sortOn key items).insertionSort_eq

variable {key}

/-- A list that is sorted by unique keys is the only one of its items. -/
theorem eq_of_perm_sorted {items others : List α} (hunique : UniqueOn key items)
    (hperm : items.Perm others) (hsorted : items.Pairwise fun left right => key left ≤ key right)
    (hsorted' : others.Pairwise fun left right => key left ≤ key right) : items = others := by
  refine hperm.eq_of_pairwise ?_ hsorted hsorted'
  intro a b ha hb hab hba
  exact hunique a ha b (hperm.mem_iff.mpr hb) (le_antisymm hab hba)

theorem sortOn_eq_iff {items others : List α} (h : UniqueOn key items) :
    sortOn key items = sortOn key others ↔ items.Perm others := by
  constructor
  · intro heq
    have hperm := perm_sortOn key items
    rw [heq] at hperm
    exact hperm.symm.trans (perm_sortOn key others)
  · intro hperm
    have hsorts : (sortOn key items).Perm (sortOn key others) :=
      (perm_sortOn key items).trans (hperm.trans (perm_sortOn key others).symm)
    exact eq_of_perm_sorted (h.perm (perm_sortOn key items).symm) hsorts
      (pairwise_sortOn key items) (pairwise_sortOn key others)

/-! ## Without repetitions -/

section Distinct
variable [DecidableEq α]

theorem distinctOn_eq_dedup {items : List α} (h : UniqueOn key items) :
    distinctOn key items = (sortOn key items).dedup := by
  -- on the items themselves, the order of their keys is antisymmetric
  let R (left right : α) : Prop := (left ∈ items ∧ right ∈ items) ∧ key left ≤ key right
  have hantisymm : Std.Antisymm R :=
    ⟨fun a b hab hba => h a hab.1.1 b hab.1.2 (le_antisymm hab.2 hba.2)⟩
  have hsorted : (sortOn key items).Pairwise R := by
    apply (pairwise_sortOn key items).imp_of_mem
    intro a b ha hb hle
    exact ⟨⟨(mem_sortOn key).mp ha, (mem_sortOn key).mp hb⟩, hle⟩
  exact hsorted.destutter_eq_dedup

theorem mem_distinctOn {items : List α} (h : UniqueOn key items) {item : α} :
    item ∈ distinctOn key items ↔ item ∈ items := by
  rw [distinctOn_eq_dedup h, List.mem_dedup, mem_sortOn]

theorem pairwise_distinctOn {items : List α} (h : UniqueOn key items) :
    (distinctOn key items).Pairwise fun left right => key left ≤ key right := by
  rw [distinctOn_eq_dedup h]
  exact (pairwise_sortOn key items).sublist (List.dedup_sublist _)

theorem nodup_distinctOn {items : List α} (h : UniqueOn key items) :
    (distinctOn key items).Nodup := by
  rw [distinctOn_eq_dedup h]
  exact List.nodup_dedup _

theorem UniqueOn.distinctOn {items : List α} (h : UniqueOn key items) :
    UniqueOn key (distinctOn key items) :=
  fun a ha b hb => h a ((mem_distinctOn h).mp ha) b ((mem_distinctOn h).mp hb)

theorem distinctOn_idem {items : List α} (h : UniqueOn key items) :
    distinctOn key (distinctOn key items) = distinctOn key items := by
  have hsort : sortOn key (distinctOn key items) = distinctOn key items :=
    (pairwise_distinctOn h).insertionSort_eq
  rw [distinctOn_eq_dedup h.distinctOn, hsort]
  exact (nodup_distinctOn h).dedup

theorem distinctOn_eq_iff {items others : List α} (h : UniqueOn key items)
    (h' : UniqueOn key others) :
    distinctOn key items = distinctOn key others ↔ ∀ item, item ∈ items ↔ item ∈ others := by
  constructor
  · intro heq item
    rw [← mem_distinctOn h, heq, mem_distinctOn h']
  · intro hmem
    have hperm : (distinctOn key items).Perm (distinctOn key others) := by
      rw [List.perm_ext_iff_of_nodup (nodup_distinctOn h) (nodup_distinctOn h')]
      intro item
      rw [mem_distinctOn h, mem_distinctOn h', hmem item]
    exact eq_of_perm_sorted h.distinctOn hperm (pairwise_distinctOn h) (pairwise_distinctOn h')

end Distinct
end Sorted

/-! ## Elements that are related before the sort -/

section Elements

/-- The items are related, one by one, to a reordering of the others. -/
def Reordered (R : α → α → Prop) (items others : List α) : Prop :=
  ∃ middle, List.Forall₂ R items middle ∧ middle.Perm others

theorem forall₂_same {β : Type} {f : α → β} : ∀ {items others : List α},
    List.Forall₂ (fun a b => f a = f b) items others ↔ items.map f = others.map f
  | [], [] => by simp
  | [], _ :: _ => by simp
  | _ :: _, [] => by simp
  | a :: items, b :: others => by
    rw [List.forall₂_cons, List.map_cons, List.map_cons, List.cons.injEq, forall₂_same]

theorem reordered_iff_perm_map {β : Type} {f : α → β} {items others : List α} :
    Reordered (fun a b => f a = f b) items others ↔ (items.map f).Perm (others.map f) := by
  constructor
  · rintro ⟨middle, heach, hperm⟩
    rw [forall₂_same] at heach
    rw [heach]
    exact hperm.map f
  · intro h
    have heach : List.Forall₂ (fun a b => a = f b) (others.map f) others := by
      rw [List.forall₂_map_left_iff, List.forall₂_same]
      exact fun _ _ => rfl
    obtain ⟨middle, hmiddle, hperm⟩ := List.perm_comp_forall₂ h heach
    rw [List.forall₂_map_left_iff] at hmiddle
    exact ⟨middle, hmiddle, hperm⟩

theorem forall₂_congr {R S : α → α → Prop} : ∀ {items others : List α},
    (∀ a ∈ items, ∀ b, R a b ↔ S a b) →
    (List.Forall₂ R items others ↔ List.Forall₂ S items others)
  | [], [], _ => by simp
  | [], _ :: _, _ => by simp
  | _ :: _, [], _ => by simp
  | a :: items, b :: others, h => by
    rw [List.forall₂_cons, List.forall₂_cons, h a List.mem_cons_self,
      forall₂_congr fun c hc => h c (List.mem_cons_of_mem a hc)]

theorem Reordered.congr {R S : α → α → Prop} {items others : List α}
    (h : ∀ a ∈ items, ∀ b, R a b ↔ S a b) : Reordered R items others ↔ Reordered S items others :=
  exists_congr fun _ => and_congr_left' (forall₂_congr h)

end Elements

end Sorting
