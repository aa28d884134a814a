import Mathlib.Data.List.Sort
import Mathlib.Order.Defs.LinearOrder

/-! Ordered sets as strictly increasing lists, with the insertion of a `BTreeSet`. -/
namespace OrderedSet

variable {α : Type*} [LinearOrder α]

def insert (item : α) (items : List α) : List α :=
  if item ∈ items then items else items.orderedInsert (· ≤ ·) item

def insertAll (new items : List α) : List α := new.foldl (fun acc item => insert item acc) items

def Sorted (items : List α) : Prop := items.Pairwise (· < ·)

@[simp] theorem mem_insert {a item : α} {items : List α} :
    a ∈ insert item items ↔ a = item ∨ a ∈ items := by
  unfold insert
  split
  next h =>
    constructor
    · exact Or.inr
    · rintro (rfl | ha)
      · exact h
      · exact ha
  next => simp

theorem sorted_insert (item : α) {items : List α} (h : Sorted items) :
    Sorted (insert item items) := by
  unfold insert
  split
  next => exact h
  next hn =>
    have hle : (items.orderedInsert (· ≤ ·) item).Pairwise (· ≤ ·) :=
      List.Pairwise.orderedInsert item items (h.imp le_of_lt)
    have hnd : (items.orderedInsert (· ≤ ·) item).Nodup := by
      rw [(List.perm_orderedInsert (· ≤ ·) item items).nodup_iff]
      exact List.nodup_cons.mpr ⟨hn, h.imp ne_of_lt⟩
    exact (hle.and hnd).imp fun h => lt_of_le_of_ne h.1 h.2

@[simp] theorem insertAll_nil (items : List α) : insertAll [] items = items := rfl

@[simp] theorem insertAll_cons (item : α) (new items : List α) :
    insertAll (item :: new) items = insertAll new (insert item items) := rfl

theorem insertAll_append (xs ys items : List α) :
    insertAll (xs ++ ys) items = insertAll ys (insertAll xs items) := by
  simp [insertAll, List.foldl_append]

@[simp] theorem mem_insertAll {a : α} {new items : List α} :
    a ∈ insertAll new items ↔ a ∈ new ∨ a ∈ items := by
  induction new generalizing items with
  | nil => simp
  | cons item new ih =>
    rw [insertAll_cons, ih, mem_insert, List.mem_cons]
    tauto

theorem sorted_insertAll (new : List α) {items : List α} (h : Sorted items) :
    Sorted (insertAll new items) := by
  induction new generalizing items with
  | nil => exact h
  | cons item new ih => exact ih (sorted_insert item h)

theorem Sorted.nodup {items : List α} (h : Sorted items) : items.Nodup := h.imp ne_of_lt

end OrderedSet
