import Mathlib.Data.List.Nodup
import Mathlib.Data.List.FinRange

/-! References to the columns of a relation by name. Names are compared after they were folded to
what the system keeps of them, so that a reference can match more than one column. -/
namespace Relational

inductive NameError where
  | undefinedColumn
  | ambiguousColumn
  deriving DecidableEq, Repr

section Resolve
variable {ν κ : Type} [DecidableEq κ] (fold : ν → κ)

/-- The columns that a name matches. -/
def matching (columns : List ν) (name : ν) : List (Fin columns.length) :=
  (List.finRange columns.length).filter fun index => fold (columns.get index) = fold name

def resolve (columns : List ν) (name : ν) : Except NameError (Fin columns.length) :=
  match matching fold columns name with
  | [index] => .ok index
  | [] => .error .undefinedColumn
  | _ :: _ :: _ => .error .ambiguousColumn

theorem mem_matching {columns : List ν} {name : ν} {index : Fin columns.length} :
    index ∈ matching fold columns name ↔ fold (columns.get index) = fold name := by
  simp [matching]

theorem matching_nodup (columns : List ν) (name : ν) : (matching fold columns name).Nodup :=
  (List.nodup_finRange _).filter _

/-- A name is resolved to the only column that it matches. -/
theorem resolve_eq_ok {columns : List ν} {name : ν} {index : Fin columns.length} :
    resolve fold columns name = .ok index ↔
      ∀ other, fold (columns.get other) = fold name ↔ other = index := by
  have hmem : ∀ other, fold (columns.get other) = fold name ↔ other ∈ matching fold columns name :=
    fun other => (mem_matching fold).symm
  have hnodup := matching_nodup fold columns name
  simp only [hmem]
  unfold resolve
  generalize matching fold columns name = found at hnodup
  constructor
  · intro h other
    match found, h with
    | [only], h =>
      rw [Except.ok.injEq] at h
      rw [List.mem_singleton, h]
  · intro h
    match found, hnodup, h with
    | [only], _, h =>
      rw [(h only).mp (List.mem_singleton_self only)]
    | [], _, h => cases (h index).mpr rfl
    | first :: second :: rest, hnodup, h =>
      have hfirst := (h first).mp (by simp)
      have hsecond := (h second).mp (by simp)
      simp [hfirst, hsecond] at hnodup

/-- Every column is found under its own name exactly when no two names fold to one. -/
theorem resolves_each_iff {columns : List ν} :
    (∀ index, resolve fold columns (columns.get index) = .ok index) ↔
      (columns.map fold).Nodup := by
  have hinjective : (columns.map fold).Nodup ↔
      ∀ i j : Fin columns.length, fold (columns.get i) = fold (columns.get j) → i = j := by
    rw [List.nodup_iff_injective_get]
    constructor
    · intro h i j hij
      have hcast := @h (i.cast (by simp)) (j.cast (by simp)) (by simpa using hij)
      simpa [Fin.ext_iff] using hcast
    · intro h i j hij
      have hcast := h (i.cast (by simp)) (j.cast (by simp)) (by simpa using hij)
      simpa [Fin.ext_iff] using hcast
  rw [hinjective]
  constructor
  · intro h i j hij
    exact (resolve_eq_ok fold).mp (h j) i |>.mp hij
  · intro h index
    refine (resolve_eq_ok fold).mpr fun other => ⟨h other index, ?_⟩
    rintro rfl
    rfl

/-- If every reference to a column is resolved at all, it is resolved to that column. -/
theorem resolves_each_of_ok {columns : List ν}
    (h : ∀ name ∈ columns, ∃ index, resolve fold columns name = .ok index) :
    (columns.map fold).Nodup := by
  refine (resolves_each_iff fold).mp fun index => ?_
  obtain ⟨found, hfound⟩ := h (columns.get index) (List.get_mem columns index)
  have hself := ((resolve_eq_ok fold).mp hfound index).mp rfl
  rw [hfound, hself]

end Resolve

end Relational
