import Mathlib.Algebra.Group.Basic
import Mathlib.Data.List.Forall2
import Mathlib.Logic.Function.Basic

/-! States of keyed entries and a log, built up by edits that each may be refused. Items that do
not see what other items did, and whose edits of one entry commute, may run in any order. -/
namespace Edits

variable {κ μ ω α ε σ : Type}

@[ext] structure State (κ μ ω : Type) where
  entries : κ → Option μ
  log : ω

/-- A change of one entry, which its value may refuse, and what it logs. -/
structure Edit (κ μ ω : Type) where
  key : κ
  update : Option μ → Option μ
  log : ω

/-- The edits agree on what becomes of an entry that both change. -/
def Edit.Commutes (edit other : Edit κ μ ω) : Prop :=
  edit.key = other.key → ∀ entry,
    (edit.update entry).bind (fun changed => other.update (some changed)) =
      (other.update entry).bind fun changed => edit.update (some changed)

section
variable [DecidableEq κ] [AddCommMonoid ω]

def Edit.apply (edit : Edit κ μ ω) (state : State κ μ ω) : Option (State κ μ ω) :=
  (edit.update (state.entries edit.key)).map fun entry =>
    ⟨Function.update state.entries edit.key (some entry), state.log + edit.log⟩

theorem Edit.apply_apply_self {edit other : Edit κ μ ω} (hkey : edit.key = other.key)
    (state : State κ μ ω) :
    (edit.apply state).bind other.apply =
      ((edit.update (state.entries edit.key)).bind fun changed => other.update (some changed)).map
        fun entry => ⟨Function.update state.entries edit.key (some entry),
          state.log + edit.log + other.log⟩ := by
  rw [Edit.apply, Option.bind_map, Option.map_bind]
  apply Option.bind_congr
  intro changed _
  simp only [Function.comp_apply, Edit.apply, ← hkey, Function.update_self, Function.update_idem]

theorem Edit.apply_apply_of_ne {edit other : Edit κ μ ω} (hkey : edit.key ≠ other.key)
    (state : State κ μ ω) :
    (edit.apply state).bind other.apply =
      (edit.update (state.entries edit.key)).bind fun changed =>
        (other.update (state.entries other.key)).map fun changed' =>
          ⟨Function.update (Function.update state.entries edit.key (some changed)) other.key
            (some changed'), state.log + edit.log + other.log⟩ := by
  rw [Edit.apply, Option.bind_map]
  apply Option.bind_congr
  intro changed _
  simp only [Function.comp_apply, Edit.apply, Function.update_of_ne hkey.symm]

theorem Edit.Commutes.apply_apply {edit other : Edit κ μ ω} (h : edit.Commutes other)
    (state : State κ μ ω) :
    (edit.apply state).bind other.apply = (other.apply state).bind edit.apply := by
  by_cases hkey : edit.key = other.key
  · rw [apply_apply_self hkey, apply_apply_self hkey.symm, ← hkey, h hkey,
      add_right_comm state.log edit.log]
  · rw [apply_apply_of_ne hkey, apply_apply_of_ne (Ne.symm hkey)]
    cases edit.update (state.entries edit.key) with
    | none => cases other.update (state.entries other.key) <;> rfl
    | some changed =>
      cases other.update (state.entries other.key) with
      | none => rfl
      | some changed' =>
        simp only [Option.bind_some, Option.map_some]
        rw [Function.update_comm hkey, add_right_comm state.log edit.log]

/-! ## Items that plan an edit -/

variable (plan : α → (κ → Option μ) → Option (Edit κ μ ω))

/-- Plans the edit of an item from the entries that are there, and makes it. -/
def step (state : State κ μ ω) (item : α) : Option (State κ μ ω) :=
  (plan item state.entries).bind fun edit => edit.apply state

def run (items : List α) (state : State κ μ ω) : Option (State κ μ ω) :=
  items.foldlM (step plan) state

/-- No item plans otherwise after another one, and what they plan commutes. -/
structure Independent : Prop where
  blind : ∀ {state state' : State κ μ ω} {item : α}, step plan state item = some state' →
    ∀ other, plan other state'.entries = plan other state.entries
  commutes : ∀ {entries : κ → Option μ} {item other : α} {edit edit' : Edit κ μ ω},
    plan item entries = some edit → plan other entries = some edit' → edit.Commutes edit'

variable {plan}

theorem Independent.step_bind (h : Independent plan) (state : State κ μ ω) (item other : α) :
    (step plan state item).bind (fun changed => step plan changed other) =
      (plan item state.entries).bind fun edit => (plan other state.entries).bind fun edit' =>
        (edit.apply state).bind edit'.apply := by
  cases hstep : step plan state item with
  | none =>
    cases hplan : plan item state.entries with
    | none => rfl
    | some edit =>
      rw [step, hplan, Option.bind_some] at hstep
      cases plan other state.entries <;> simp [hstep]
  | some state' =>
    obtain ⟨edit, hplan, happly⟩ := Option.bind_eq_some_iff.mp hstep
    rw [Option.bind_some, step, h.blind hstep other, hplan, Option.bind_some]
    simp only [happly, Option.bind_some]

theorem Independent.step_comm (h : Independent plan) (state : State κ μ ω) (item other : α) :
    (step plan state item).bind (fun changed => step plan changed other) =
      (step plan state other).bind fun changed => step plan changed item := by
  rw [h.step_bind, h.step_bind]
  cases hitem : plan item state.entries with
  | none => cases plan other state.entries <;> rfl
  | some edit =>
    cases hother : plan other state.entries with
    | none => rfl
    | some edit' => exact (h.commutes hitem hother).apply_apply state

@[simp] theorem run_nil (state : State κ μ ω) : run plan [] state = some state := rfl

theorem run_cons (item : α) (items : List α) (state : State κ μ ω) :
    run plan (item :: items) state = (step plan state item).bind (run plan items) :=
  List.foldlM_cons

theorem run_cons_cons (item other : α) (items : List α) (state : State κ μ ω) :
    run plan (item :: other :: items) state =
      ((step plan state item).bind fun changed => step plan changed other).bind
        (run plan items) := by
  rw [run_cons, Option.bind_assoc]
  exact Option.bind_congr fun changed _ => run_cons other items changed

/-- Independent items may run in any order. -/
theorem Independent.run_perm (h : Independent plan) {items others : List α}
    (hperm : items.Perm others) (state : State κ μ ω) :
    run plan items state = run plan others state := by
  induction hperm generalizing state with
  | nil => rfl
  | cons item _ ih =>
    rw [run_cons, run_cons]
    exact Option.bind_congr fun changed _ => ih changed
  | swap item other items => rw [run_cons_cons, run_cons_cons, h.step_comm]
  | trans _ _ ih ih' => rw [ih, ih']

/-- Items that plan alike run alike. -/
theorem run_congr {items others : List α}
    (h : List.Forall₂ (fun item other => plan item = plan other) items others)
    (state : State κ μ ω) : run plan items state = run plan others state := by
  induction h generalizing state with
  | nil => rfl
  | cons hplan _ ih =>
    rw [run_cons, run_cons, step, step, hplan]
    exact Option.bind_congr fun changed _ => ih changed

/-- What each step preserves, a run preserves. -/
theorem run_induction {P : State κ μ ω → Prop}
    (hstep : ∀ {state state' item}, P state → step plan state item = some state' → P state')
    {items : List α} {state state' : State κ μ ω} (hstate : P state)
    (h : run plan items state = some state') : P state' := by
  induction items generalizing state with
  | nil =>
    cases h
    exact hstate
  | cons item items ih =>
    rw [run_cons, Option.bind_eq_some_iff] at h
    obtain ⟨changed, hchanged, hrest⟩ := h
    exact ih (hstep hstate hchanged) hrest

/-- A loop whose passes are the steps under a view is the run under that view. -/
theorem run_of_simulates {pass : σ → α → Except ε σ} {view : σ → State κ μ ω}
    (h : ∀ s item, (pass s item).toOption.map view = step plan (view s) item) (items : List α)
    (s : σ) : (items.foldlM pass s).toOption.map view = run plan items (view s) := by
  induction items generalizing s with
  | nil => rfl
  | cons item items ih =>
    rw [run_cons, ← h, List.foldlM_cons]
    cases pass s item with
    | error e => rfl
    | ok s' => exact ih s'

end
end Edits
