import Mathlib.Data.List.Dedup
import Mathlib.Data.List.Perm.Basic
import Mathlib.Data.List.Perm.Lattice
import Mathlib.Data.List.Basic
import Mathlib.Tactic.ApplyFun

/-! Bag grouping over lists of rows, and when a two-stage grouping through a row key agrees
with a grouping of the distinct source rows. -/
namespace Relational

variable {α β ρ κ δ ν : Type*}

/-- The groups of `rows` under `key`, one for each key that occurs. -/
def groupBy [DecidableEq κ] (key : α → κ) (rows : List α) : List (κ × List α) :=
  (rows.map key).dedup.map fun k => (k, rows.filter fun a => key a = k)

section Groups
variable [DecidableEq κ] [DecidableEq δ]

theorem groupBy_keys (key : α → κ) (rows : List α) :
    (groupBy key rows).map Prod.fst = (rows.map key).dedup := by
  simp [groupBy, Function.comp_def]

theorem mem_groupBy {key : α → κ} {rows : List α} {g : κ × List α} :
    g ∈ groupBy key rows ↔
      (∃ a ∈ rows, key a = g.1) ∧ g.2 = rows.filter (fun a => key a = g.1) := by
  obtain ⟨k, as⟩ := g
  simp only [groupBy, List.mem_map, List.mem_dedup, Prod.mk.injEq]
  constructor
  · rintro ⟨k', hk, rfl, rfl⟩
    exact ⟨hk, rfl⟩
  · rintro ⟨hk, has⟩
    exact ⟨k, hk, rfl, has.symm⟩

theorem mem_groupBy_of_mem (key : α → κ) {rows : List α} {a : α} (ha : a ∈ rows) :
    (key a, rows.filter fun b => key b = key a) ∈ groupBy key rows :=
  mem_groupBy.mpr ⟨⟨a, ha, rfl⟩, rfl⟩

/-- Grouping commutes with a row translation that the key does not see. -/
theorem groupBy_map (f : β → α) (key : α → κ) (rows : List β) :
    groupBy key (rows.map f) =
      (groupBy (fun b => key (f b)) rows).map (fun g => (g.1, g.2.map f)) := by
  simp [groupBy, List.filter_map, Function.comp_def]

theorem groupBy_congr {key key' : α → κ} {rows : List α}
    (h : ∀ a ∈ rows, key a = key' a) : groupBy key rows = groupBy key' rows := by
  have hm : rows.map key = rows.map key' := List.map_congr_left h
  simp only [groupBy, hm]
  refine List.map_congr_left fun k _ => ?_
  have hf : rows.filter (fun a => key a = k) = rows.filter (fun a => key' a = k) :=
    List.filter_congr fun a ha => by rw [h a ha]
  rw [hf]

/-- Two groupings with a common key set and groupwise permuted values are the same relation. -/
theorem groups_perm {rows : List α} {rows' : List β} {key : α → κ} {key' : β → κ}
    (hkeys : ∀ k, (∃ a ∈ rows, key a = k) ↔ ∃ b ∈ rows', key' b = k)
    (f : κ → List α → ν) (f' : κ → List β → ν)
    (h : ∀ k, f k (rows.filter fun a => key a = k) = f' k (rows'.filter fun b => key' b = k)) :
    ((groupBy key rows).map fun g => f g.1 g.2).Perm
      ((groupBy key' rows').map fun g => f' g.1 g.2) := by
  have hp : (rows.map key).dedup.Perm (rows'.map key').dedup := by
    rw [List.perm_ext_iff_of_nodup (List.nodup_dedup _) (List.nodup_dedup _)]
    intro k
    simpa only [List.mem_dedup, List.mem_map] using hkeys k
  have hl : (groupBy key rows).map (fun g => f g.1 g.2) =
      (rows.map key).dedup.map fun k => f' k (rows'.filter fun b => key' b = k) := by
    simp only [groupBy, List.map_map, Function.comp_def]
    exact List.map_congr_left fun k _ => h k
  rw [hl]
  simpa only [groupBy, List.map_map, Function.comp_def] using hp.map _

end Groups

section Collapse
variable {roots : List ρ} {expand : ρ → List α} {dims : α → δ} {anchor : α → κ} {key : ρ → κ}

/-- A row of an anchored group comes from the one source row that carries the anchor. -/
theorem anchored_row_source (hkey : (roots.map key).Nodup)
    (hanchor : ∀ r ∈ roots, ∀ a ∈ expand r, anchor a = key r)
    {r : ρ} (hr : r ∈ roots) {a : α} (ha : a ∈ roots.flatMap expand) (hk : anchor a = key r) :
    a ∈ expand r := by
  obtain ⟨r', hr', ha'⟩ := List.mem_flatMap.mp ha
  have he : key r' = key r := (hanchor r' hr' a ha').symm.trans hk
  rwa [List.inj_on_of_nodup_map hkey hr' hr he] at ha'

/-- The anchors of the inner groups under one outer key are those of the distinct source rows. -/
theorem anchored_keys_perm [DecidableEq κ] [DecidableEq δ] (hkey : (roots.map key).Nodup)
    (hanchor : ∀ r ∈ roots, ∀ a ∈ expand r, anchor a = key r) (g : δ) :
    ((((roots.flatMap expand).map fun a => (dims a, anchor a)).dedup.filter
        fun k => k.1 = g).map Prod.snd).Perm
      ((roots.filter fun r => (expand r).any fun a => dims a = g).map key) := by
  have hinj : ∀ x ∈ (((roots.flatMap expand).map fun a => (dims a, anchor a)).dedup.filter
      fun k => k.1 = g), ∀ y ∈ (((roots.flatMap expand).map fun a => (dims a, anchor a)).dedup.filter
      fun k => k.1 = g), x.2 = y.2 → x = y := by
    intro x hx y hy hxy
    have hx1 := of_decide_eq_true (List.mem_filter.mp hx).2
    have hy1 := of_decide_eq_true (List.mem_filter.mp hy).2
    exact Prod.ext (hx1.trans hy1.symm) hxy
  rw [List.perm_ext_iff_of_nodup
    (((List.nodup_dedup _).filter _).map_on hinj)
    (hkey.sublist (List.filter_sublist.map key))]
  intro k
  simp only [List.mem_map, List.mem_filter, List.mem_dedup, List.mem_flatMap, decide_eq_true_eq,
    List.any_eq_true]
  constructor
  · rintro ⟨_, ⟨⟨a, ⟨r, hr, ha⟩, rfl⟩, hd⟩, rfl⟩
    exact ⟨r, ⟨hr, a, ha, hd⟩, (hanchor r hr a ha).symm⟩
  · rintro ⟨r, ⟨hr, a, ha, hd⟩, rfl⟩
    exact ⟨(dims a, anchor a), ⟨⟨a, ⟨r, hr, ha⟩, rfl⟩, hd⟩, hanchor r hr a ha⟩

/-- Collapsing each anchored group to one value gives, under every outer key, the values of the
distinct source rows, once each: join multiplicities do not show. -/
theorem anchored_collapse_perm [DecidableEq κ] [DecidableEq δ] (hkey : (roots.map key).Nodup)
    (hanchor : ∀ r ∈ roots, ∀ a ∈ expand r, anchor a = key r)
    (reduce : List α → ν) (value : ρ → ν)
    (hreduce : ∀ r ∈ roots, ∀ as : List α, as ≠ [] → (∀ a ∈ as, a ∈ expand r) →
      reduce as = value r) (g : δ) :
    (((groupBy (fun a => (dims a, anchor a)) (roots.flatMap expand)).filter
        fun p => p.1.1 = g).map fun p => reduce p.2).Perm
      ((roots.filter fun r => (expand r).any fun a => dims a = g).map value) := by
  let rows := roots.flatMap expand
  let keys := (rows.map fun a => (dims a, anchor a)).dedup.filter fun k => k.1 = g
  let groupValue : κ → ν := fun k => reduce (rows.filter fun a => (dims a, anchor a) = (g, k))
  have hleft : ((groupBy (fun a => (dims a, anchor a)) rows).filter
      fun p => p.1.1 = g).map (fun p => reduce p.2) = (keys.map Prod.snd).map groupValue := by
    simp only [groupBy, List.filter_map, List.map_map, Function.comp_def, keys, groupValue]
    refine List.map_congr_left fun k hk => ?_
    have hk1 := of_decide_eq_true (List.mem_filter.mp hk).2
    rw [← hk1]
  have hright : ((roots.filter fun r => (expand r).any fun a => dims a = g).map key).map groupValue =
      (roots.filter fun r => (expand r).any fun a => dims a = g).map value := by
    rw [List.map_map]
    refine List.map_congr_left fun r hr => ?_
    obtain ⟨hr, hany⟩ := List.mem_filter.mp hr
    obtain ⟨a, ha, hd⟩ := List.any_eq_true.mp hany
    -- every row of the group is one of `r`'s own expansions, and there is at least one
    apply hreduce r hr
    · refine List.ne_nil_of_mem (a := a) (List.mem_filter.mpr ⟨List.mem_flatMap.mpr ⟨r, hr, ha⟩, ?_⟩)
      simpa using ⟨of_decide_eq_true hd, hanchor r hr a ha⟩
    · intro b hb
      obtain ⟨hb, hk⟩ := List.mem_filter.mp hb
      have hk' : dims b = g ∧ anchor b = key r := by simpa using hk
      exact anchored_row_source hkey hanchor hr hb hk'.2
  rw [hleft, ← hright]
  exact (anchored_keys_perm hkey hanchor g).map groupValue

end Collapse

section Linear

/-- A chain of row-by-row extensions acts on each starting row separately. -/
theorem foldl_flatMap_linear {σ : Type*} (step : σ → α → List α) (steps : List σ) (rows : List α) :
    steps.foldl (fun acc s => acc.flatMap (step s)) rows =
      rows.flatMap fun a => steps.foldl (fun acc s => acc.flatMap (step s)) [a] := by
  induction steps generalizing rows with
  | nil => simp
  | cons s steps ih =>
    simp only [List.foldl_cons, List.flatMap_singleton]
    rw [ih, List.flatMap_assoc]
    congr 1
    funext a
    rw [ih (step s a)]

end Linear

end Relational
