import Postgresem.Osi.Tidy

/-! What a run over contributions comes to: each model gets the sum of what was declared about it, and
what it is given tells the items that gave it. -/
namespace Postgresem.Osi
open Control Edits

section Runs
variable {κ μ ω α : Type} [DecidableEq κ] [AddCommMonoid ω]

/-- What holds of the items that are done, and of what they made of the state, holds of all in the end. -/
theorem run_prefix {plan : α → (κ → Option μ) → Option (Edit κ μ ω)} {Q : α → Prop}
    {P : List α → State κ μ ω → Prop}
    (hstep : ∀ {done state state' item}, Q item → P done state → step plan state item = some state' →
      P (done ++ [item]) state')
    {items done : List α} {state state' : State κ μ ω} (hitems : ∀ item ∈ items, Q item)
    (hstate : P done state) (h : run plan items state = some state') : P (done ++ items) state' := by
  induction items generalizing done state with
  | nil =>
    cases h
    rwa [List.append_nil]
  | cons item items ih =>
    rw [run_cons, Option.bind_eq_some_iff] at h
    obtain ⟨changed, hchanged, hrest⟩ := h
    obtain ⟨hitem, hitems⟩ := List.forall_mem_cons.mp hitems
    have hall := ih hitems (hstep hitem hstate hchanged) hrest
    rwa [List.append_assoc, List.singleton_append] at hall

/-- What each planned edit keeps of an entry holds of all entries in the end. -/
theorem forall_of_run {plan : α → (κ → Option μ) → Option (Edit κ μ ω)} {P : μ → Prop}
    (hplan : ∀ {item entries edit entry changed}, plan item entries = some edit →
      (∀ old, entry = some old → P old) → edit.update entry = some changed → P changed)
    {items : List α} {state state' : State κ μ ω}
    (hstate : ∀ key entry, state.entries key = some entry → P entry)
    (h : run plan items state = some state') : ∀ key entry, state'.entries key = some entry → P entry := by
  refine run_induction (P := fun state : State κ μ ω =>
    ∀ key entry, state.entries key = some entry → P entry) ?_ hstate h
  intro state state' item hstate hstep key entry hentry
  obtain ⟨edit, hedit, happly⟩ := Option.bind_eq_some_iff.mp hstep
  obtain ⟨changed, hchanged, rfl⟩ := Option.map_eq_some_iff.mp happly
  have hupdated : (if key = edit.key then some changed else state.entries key) = some entry := by
    rw [← hentry]
    exact (Function.update_apply ..).symm
  split_ifs at hupdated
  · obtain rfl := Option.some.inj hupdated
    exact hplan hedit (hstate edit.key) hchanged
  · exact hstate key entry hupdated

end Runs

section Gather

def Addition.plus (addition other : Addition) : Addition where
  fields := addition.fields + other.fields
  metrics := addition.metrics + other.metrics
  relationships := addition.relationships + other.relationships

/-- All that is added to the model of a name. -/
def gather (key : String) : List Contribution → Addition
  | [] => ⟨0, 0, 0⟩
  | contribution :: rest =>
    if contribution.key = key then contribution.addition.plus (gather key rest) else gather key rest

theorem Declared.extend_zero (declared : Declared) : declared.extend ⟨0, 0, 0⟩ = declared := by
  simp [Declared.extend]

theorem Declared.extend_plus (declared : Declared) (addition other : Addition) :
    (declared.extend addition).extend other = declared.extend (addition.plus other) := by
  simp [Declared.extend, Addition.plus, add_assoc]

/-- The items contribute what they declare over the grounds at the start, and to models that are there. -/
theorem run_contribute {α : Type} {declare : α → (String → Option Ground) → Option Contribution}
    {items : List α} {state state' : Declarations}
    (h : run (contribute declare) items state = some state') :
    ∃ contributions, List.Forall₂ (fun item contribution =>
        declare item (grounds state.entries) = some contribution) items contributions ∧
      (∀ contribution ∈ contributions, (state.entries contribution.key).isSome) ∧
      ∀ key, state'.entries key =
        (state.entries key).map fun declared => declared.extend (gather key contributions) := by
  induction items generalizing state with
  | nil =>
    cases h
    refine ⟨[], .nil, by simp, fun key => ?_⟩
    simp [gather, Declared.extend_zero]
  | cons item items ih =>
    rw [run_cons, Option.bind_eq_some_iff] at h
    obtain ⟨changed, hstep, hrest⟩ := h
    obtain ⟨contributions, heach, hkeys, hentries⟩ := ih hrest
    have hgrounds := grounds_step hstep
    obtain ⟨change, hchange, happly⟩ := Option.bind_eq_some_iff.mp hstep
    obtain ⟨contribution, hcontribution, rfl⟩ := Option.map_eq_some_iff.mp hchange
    obtain ⟨declared', hupdate, rfl⟩ := Option.map_eq_some_iff.mp happly
    obtain ⟨declared, hentry, hadd⟩ := Option.bind_eq_some_iff.mp hupdate
    obtain ⟨-, rfl⟩ := Declared.add_eq_some.mp hadd
    rw [hgrounds] at heach
    have hsame : state.entries contribution.key = some declared := hentry
    have hchanged : ∀ key, Function.update state.entries contribution.change.key
        (some (declared.extend contribution.addition)) key =
        if key = contribution.key then some (declared.extend contribution.addition)
        else state.entries key := fun key => Function.update_apply ..
    refine ⟨contribution :: contributions, .cons hcontribution heach, ?_, fun key => ?_⟩
    · refine List.forall_mem_cons.mpr ⟨by rw [hsame]; rfl, fun other hother => ?_⟩
      have hsome := hkeys other hother
      simp only [hchanged] at hsome
      split_ifs at hsome with hkey
      · rw [hkey, hsame]
        rfl
      · exact hsome
    · rw [hentries key]
      simp only [hchanged, gather]
      by_cases hkey : key = contribution.key
      · subst hkey
        rw [if_pos rfl, if_pos rfl, hsame, Option.map_some, Option.map_some, Declared.extend_plus]
      · rw [if_neg hkey, if_neg (Ne.symm hkey)]

/-- One of the three parts of an addition. -/
structure Part (β : Type) where
  part : Addition → Multiset β
  zero : part ⟨0, 0, 0⟩ = 0
  plus : ∀ addition other : Addition, part (addition.plus other) = part addition + part other

def fieldsPart : Part Field := ⟨Addition.fields, rfl, fun _ _ => rfl⟩
def metricsPart : Part Metric := ⟨Addition.metrics, rfl, fun _ _ => rfl⟩
def relationshipsPart : Part Relationship := ⟨Addition.relationships, rfl, fun _ _ => rfl⟩

variable {β γ : Type} (part : Part β)

theorem forall_gather {contributions : List Contribution} {P : β → Prop}
    (h : ∀ contribution ∈ contributions, ∀ b ∈ part.part contribution.addition, P b) (key : String) :
    ∀ b ∈ part.part (gather key contributions), P b := by
  induction contributions with
  | nil =>
    intro b hb
    rw [gather, part.zero] at hb
    exact absurd hb (Multiset.notMem_zero b)
  | cons contribution contributions ih =>
    obtain ⟨hfirst, hrest⟩ := List.forall_mem_cons.mp h
    intro b hb
    rw [gather] at hb
    split_ifs at hb
    · rw [part.plus, Multiset.mem_add] at hb
      exact hb.elim (hfirst b) (ih hrest b)
    · exact ih hrest b hb

theorem gather_eq_zero {contributions : List Contribution}
    (h : ∀ contribution ∈ contributions, part.part contribution.addition = 0) (key : String) :
    part.part (gather key contributions) = 0 :=
  Multiset.eq_zero_of_forall_notMem <| forall_gather part (P := fun _ => False)
    (fun contribution hmem b hb => by
      rw [h contribution hmem] at hb
      exact Multiset.notMem_zero b hb) key

/-- What a model is given tells the items that gave it, where each item can be told from its part. -/
theorem map_gather {write : String → β → γ} {keyOf : γ → String} {items : List γ}
    {contributions : List Contribution}
    (h : List.Forall₂ (fun item contribution => contribution.key = keyOf item ∧
      (part.part contribution.addition).map (write contribution.key) = {item}) items contributions)
    (key : String) :
    (part.part (gather key contributions)).map (write key) =
      ↑(items.filter fun item => keyOf item = key) := by
  induction h with
  | nil =>
    rw [gather, part.zero]
    rfl
  | @cons item contribution items contributions hitem _ ih =>
    rw [gather, List.filter_cons]
    by_cases hkey : contribution.key = key
    · subst hkey
      rw [if_pos rfl, if_pos (by simpa using hitem.1.symm), part.plus, Multiset.map_add, hitem.2, ih]
      rfl
    · have hother : ¬ decide (keyOf item = key) = true := by
        rw [decide_eq_true_eq, ← hitem.1]
        exact hkey
      rw [if_neg hkey, if_neg hother, ih]

end Gather

/-- Items are the items of each key, one key after another. -/
theorem perm_flatMap_filter {α κ : Type} [DecidableEq κ] {f : α → κ} {keys : List κ}
    (hkeys : keys.Nodup) {items : List α} (h : ∀ item ∈ items, f item ∈ keys) :
    (keys.flatMap fun key => items.filter fun item => f item = key).Perm items := by
  induction keys generalizing items with
  | nil =>
    cases items with
    | nil => exact .refl _
    | cons item items => exact absurd (h item List.mem_cons_self) List.not_mem_nil
  | cons key keys ih =>
    obtain ⟨hkey, hkeys⟩ := List.nodup_cons.mp hkeys
    have hrest : ∀ item ∈ items.filter (fun item => ¬ f item = key), f item ∈ keys := by
      intro item hitem
      rw [List.mem_filter, decide_eq_true_eq] at hitem
      exact (List.mem_cons.mp (h item hitem.1)).resolve_left hitem.2
    have hsame : (keys.flatMap fun other => items.filter fun item => f item = other) =
        keys.flatMap fun other => (items.filter fun item => ¬ f item = key).filter
          fun item => f item = other := by
      refine List.flatMap_congr fun other hother => ?_
      rw [List.filter_filter]
      refine List.filter_congr fun item _ => ?_
      by_cases hitem : f item = other
      · have hne : f item ≠ key := by
          rintro rfl
          exact hkey (hitem ▸ hother)
        simp [hitem, hitem ▸ hne]
      · simp [hitem]
    rw [List.flatMap_cons, hsame]
    refine ((ih hkeys hrest).append_left _).trans ?_
    have hparts := List.filter_append_perm (fun item => decide (f item = key)) items
    simpa using hparts

end Postgresem.Osi
