import Postgresem.Relational.Grouping
import Mathlib.Data.List.Nodup

/-! Joins by nested loops, and when a chain of joins gives each starting row one partner at most. -/
namespace Relational

variable {α β κ σ : Type*}

/-- The rows that a row is joined with; an outer join pads a row without a match. -/
def partners (outer : Bool) (on : β → Bool) (pad : β) (rows : List β) : List β :=
  if outer && (rows.filter on).isEmpty then [pad] else rows.filter on

/-- The one row that a lookup finds. -/
def partner (outer : Bool) (on : β → Bool) (pad : β) (rows : List β) : Option β :=
  match rows.find? on with
  | some row => some row
  | none => if outer then some pad else none

theorem partners_eq_toList {outer : Bool} {on : β → Bool} {pad : β} {rows : List β}
    (h : rows.filter on = (rows.find? on).toList) :
    partners outer on pad rows = (partner outer on pad rows).toList := by
  unfold partners partner
  rw [h]
  cases rows.find? on with
  | none => cases outer <;> rfl
  | some row => simp

/-- A join on a key is a lookup when the non-null keys of the target are distinct. -/
theorem filter_key_eq_toList [DecidableEq κ] {key : β → Option κ} {rows : List β}
    (h : (rows.filterMap key).Nodup) (value : κ) :
    rows.filter (fun row => key row = some value) =
      (rows.find? fun row => key row = some value).toList := by
  induction rows with
  | nil => rfl
  | cons row rest ih =>
    by_cases hrow : key row = some value
    · rw [List.filterMap_cons_some hrow, List.nodup_cons] at h
      have hrest : rest.filter (fun row => key row = some value) = [] := by
        rw [List.filter_eq_nil_iff]
        intro other ho hkey
        exact h.1 (List.mem_filterMap.mpr ⟨other, ho, of_decide_eq_true hkey⟩)
      rw [List.filter_cons_of_pos (by simpa using hrow),
        List.find?_cons_of_pos (by simpa using hrow), hrest]
      rfl
    · have htail : (rest.filterMap key).Nodup := by
        cases hk : key row with
        | none => rwa [List.filterMap_cons_none hk] at h
        | some other =>
          rw [List.filterMap_cons_some hk] at h
          exact h.of_cons
      rw [List.filter_cons_of_neg (by simpa using hrow),
        List.find?_cons_of_neg (by simpa using hrow), ih htail]

/-- A chain of steps that each give one row at most is a chain of lookups. -/
theorem foldl_flatMap_toList {step : σ → α → List α} {pick : σ → α → Option α} {steps : List σ}
    (h : ∀ s ∈ steps, ∀ a, step s a = (pick s a).toList) (a : α) :
    steps.foldl (fun acc s => acc.flatMap (step s)) [a] =
      (steps.foldlM (fun a s => pick s a) a).toList := by
  induction steps generalizing a with
  | nil => rfl
  | cons s rest ih =>
    have hrest : ∀ t ∈ rest, ∀ a, step t a = (pick t a).toList := fun t ht =>
      h t (List.mem_cons_of_mem s ht)
    simp only [List.foldl_cons, List.flatMap_singleton, h s List.mem_cons_self a,
      List.foldlM_cons]
    cases hpick : pick s a with
    | none =>
      have hnil : ∀ steps : List σ, steps.foldl (fun acc s => acc.flatMap (step s)) [] = [] := by
        intro steps
        induction steps with
        | nil => rfl
        | cons _ _ ih => simpa using ih
      exact hnil rest
    | some b => exact ih hrest b

/-- A chain of steps commutes with a translation of the rows when each step does, at the rows it
is run on. -/
theorem foldl_flatMap_map {τ : Type*} {step : σ → α → List α} {step' : τ → β → List β}
    (translate : α → β) (good : Nat → α → Prop) (index : Nat) (pairs : List (σ × τ))
    (hstep : ∀ i s t a, pairs[i]? = some (s, t) → good (index + i) a →
      step' t (translate a) = (step s a).map translate ∧
        ∀ b ∈ step s a, good (index + i + 1) b)
    (rows : List α) (hrows : ∀ a ∈ rows, good index a) :
    (pairs.map Prod.snd).foldl (fun acc t => acc.flatMap (step' t)) (rows.map translate) =
      ((pairs.map Prod.fst).foldl (fun acc s => acc.flatMap (step s)) rows).map translate ∧
    ∀ a ∈ (pairs.map Prod.fst).foldl (fun acc s => acc.flatMap (step s)) rows,
      good (index + pairs.length) a := by
  induction pairs generalizing index rows with
  | nil => exact ⟨rfl, by simpa using hrows⟩
  | cons pair rest ih =>
    obtain ⟨s, t⟩ := pair
    have hhead : ∀ a ∈ rows, step' t (translate a) = (step s a).map translate ∧
        ∀ b ∈ step s a, good (index + 1) b := fun a ha => hstep 0 s t a rfl (hrows a ha)
    have hmap : (rows.map translate).flatMap (step' t) = (rows.flatMap (step s)).map translate := by
      rw [List.flatMap_map, List.map_flatMap]
      exact List.flatMap_congr fun a ha => (hhead a ha).1
    have hgood : ∀ b ∈ rows.flatMap (step s), good (index + 1) b := by
      intro b hb
      obtain ⟨a, ha, hb⟩ := List.mem_flatMap.mp hb
      exact (hhead a ha).2 b hb
    have htail := ih (index + 1) (fun i s t a hi hg => by
      have hshift : index + (i + 1) = index + 1 + i := by omega
      have h := hstep (i + 1) s t a hi (by rw [hshift]; exact hg)
      rwa [hshift] at h) (rows.flatMap (step s)) hgood
    simp only [List.map_cons, List.foldl_cons, List.length_cons, hmap]
    have hlength : index + (rest.length + 1) = index + 1 + rest.length := by omega
    rw [hlength]
    exact htail

end Relational
