import Mathlib.Data.List.Forall2

/-! Early-return control flow over `Except`, and traversals that thread an accumulator. -/
namespace Control

variable {ε α β σ : Type}

/-- An early return: go on when the condition holds, leave with the error otherwise. -/
def ensure (condition : Bool) (error : ε) : Except ε Unit :=
  if condition then .ok () else .error error

@[simp] theorem ensure_true (error : ε) : ensure true error = .ok () := rfl

@[simp] theorem ensure_false (error : ε) : ensure false error = .error error := rfl

theorem ensure_eq_ok {condition : Bool} {error : ε} {u : Unit} :
    ensure condition error = .ok u ↔ condition = true := by
  cases condition <;> simp

theorem bind_eq_ok {x : Except ε α} {f : α → Except ε β} {b : β} :
    (x >>= f) = .ok b ↔ ∃ a, x = .ok a ∧ f a = .ok b := by
  cases x <;> simp [bind, Except.bind]

theorem bind_eq_error {x : Except ε α} {f : α → Except ε β} {e : ε} :
    (x >>= f) = .error e ↔ x = .error e ∨ ∃ a, x = .ok a ∧ f a = .error e := by
  cases x <;> simp [bind, Except.bind]

@[simp] theorem ok_bind (a : α) (f : α → Except ε β) : (Except.ok a >>= f) = f a := rfl

@[simp] theorem error_bind (e : ε) (f : α → Except ε β) :
    ((Except.error e : Except ε α) >>= f) = .error e := rfl

theorem pure_eq_ok {a b : α} : (pure a : Except ε α) = .ok b ↔ a = b := by
  simp [pure, Except.pure]

theorem mapError_eq_ok {ε' : Type} {x : Except ε α} {f : ε → ε'} {a : α} :
    x.mapError f = .ok a ↔ x = .ok a := by
  cases x <;> simp [Except.mapError]

section MapError
variable {ε' : Type} (g : ε → ε')

@[simp] theorem mapError_ok (a : α) : (Except.ok a : Except ε α).mapError g = .ok a := rfl

@[simp] theorem mapError_error (e : ε) : (Except.error e : Except ε α).mapError g = .error (g e) := rfl

theorem mapError_bind (x : Except ε α) (f : α → Except ε β) :
    (x >>= f).mapError g = x.mapError g >>= fun a => (f a).mapError g := by
  cases x <;> rfl

@[simp] theorem mapError_ensure (condition : Bool) (error : ε) :
    (ensure condition error).mapError g = ensure condition (g error) := by
  cases condition <;> rfl

end MapError

theorem map_eq_ok {x : Except ε α} {f : α → β} {b : β} :
    x.map f = .ok b ↔ ∃ a, x = .ok a ∧ f a = b := by
  cases x <;> simp [Except.map]

theorem map_eq_error {x : Except ε α} {f : α → β} {e : ε} :
    x.map f = .error e ↔ x = .error e := by
  cases x <;> simp [Except.map]

@[simp] theorem map_ok (a : α) (f : α → β) : (Except.ok a : Except ε α).map f = .ok (f a) := rfl

theorem pure_ok (a : α) : (pure a : Except ε α) = .ok a := rfl

theorem map_bind {γ : Type} (x : Except ε α) (f : α → β) (g : β → Except ε γ) :
    (x.map f >>= g) = x >>= fun a => g (f a) := by
  cases x <;> rfl

theorem bind_map {γ : Type} (x : Except ε α) (f : α → Except ε β) (g : β → γ) :
    (x >>= f).map g = x >>= fun a => (f a).map g := by
  cases x <;> rfl

theorem map_map' {γ : Type} (x : Except ε α) (f : α → β) (g : β → γ) :
    (x.map f).map g = x.map fun a => g (f a) := by
  cases x <;> rfl

/-- The value of an option, or an early return with the error. -/
def orError (value : Option α) (error : ε) : Except ε α :=
  match value with
  | some a => .ok a
  | none => .error error

@[simp] theorem orError_some (a : α) (error : ε) : orError (some a) error = .ok a := rfl

@[simp] theorem orError_none (error : ε) : orError (none : Option α) error = .error error := rfl

@[simp] theorem mapError_orError {ε' : Type} (g : ε → ε') (value : Option α) (error : ε) :
    (orError value error).mapError g = orError value (g error) := by
  cases value <;> rfl

theorem orError_eq_ok {value : Option α} {error : ε} {a : α} :
    orError value error = .ok a ↔ value = some a := by
  cases value <;> simp

/-! What is left of a computation when its errors are not told apart. -/

@[simp] theorem toOption_ok (a : α) : (Except.ok a : Except ε α).toOption = some a := rfl

@[simp] theorem toOption_error (e : ε) : (Except.error e : Except ε α).toOption = none := rfl

theorem toOption_bind (x : Except ε α) (f : α → Except ε β) :
    (x >>= f).toOption = x.toOption.bind fun a => (f a).toOption := by
  cases x <;> rfl

theorem toOption_ensure (condition : Bool) (error : ε) :
    (ensure condition error).toOption = if condition then some () else none := by
  cases condition <;> rfl

@[simp] theorem toOption_orError (value : Option α) (error : ε) :
    (orError value error).toOption = value := by
  cases value <;> rfl

theorem toOption_eq_some {x : Except ε α} {a : α} : x.toOption = some a ↔ x = .ok a := by
  cases x <;> simp [Except.toOption]

/-- A decidable look at the result of a computation that may fail. -/
def succeedsWith (x : Except ε α) (check : α → Bool) : Bool :=
  match x with
  | .ok a => check a
  | .error _ => false

theorem exists_ok_of_succeedsWith {x : Except ε α} {check : α → Bool}
    (h : succeedsWith x check = true) : ∃ a, x = .ok a ∧ check a = true := by
  cases x with
  | error e => cases h
  | ok a => exact ⟨a, rfl, h⟩

theorem of_all_decide {value : Option α} {P : α → Prop} [DecidablePred P]
    (h : (value.all fun a => decide (P a)) = true) {a : α} (ha : value = some a) : P a := by
  rw [ha] at h
  exact of_decide_eq_true h

/-- Runs a check on each item in order and stops at the first error. -/
def forEach (check : α → Except ε Unit) : List α → Except ε Unit
  | [] => .ok ()
  | x :: xs => do
      check x
      forEach check xs

theorem forEach_eq_ok {check : α → Except ε Unit} {xs : List α} {u : Unit} :
    forEach check xs = .ok u ↔ ∀ x ∈ xs, check x = .ok () := by
  induction xs with
  | nil => simp [forEach]
  | cons x xs ih =>
    simp only [forEach, bind_eq_ok, ih, List.forall_mem_cons]
    constructor
    · rintro ⟨_, hx, hxs⟩
      exact ⟨hx, hxs⟩
    · rintro ⟨hx, hxs⟩
      exact ⟨(), hx, hxs⟩

theorem forEach_congr {check check' : α → Except ε Unit} {xs : List α}
    (h : ∀ x ∈ xs, check x = check' x) : forEach check xs = forEach check' xs := by
  induction xs with
  | nil => rfl
  | cons x xs ih =>
    rw [forEach, forEach, h x (by simp), ih fun y hy => h y (by simp [hy])]

theorem mapError_forEach {ε' : Type} (g : ε → ε') (check : α → Except ε Unit) (xs : List α) :
    (forEach check xs).mapError g = forEach (fun x => (check x).mapError g) xs := by
  induction xs with
  | nil => rfl
  | cons x xs ih => rw [forEach, forEach, mapError_bind, ih]

/-- A loop of checks fails with the error of the first item that does not pass. -/
theorem forEach_ensure (passes : α → Bool) (error : α → ε) (xs : List α) :
    forEach (fun x => ensure (passes x) (error x)) xs =
      (xs.find? fun x => !passes x).elim (.ok ()) fun x => .error (error x) := by
  induction xs with
  | nil => rfl
  | cons x xs ih =>
    rw [forEach, ih, List.find?_cons]
    cases passes x <;> rfl

/-- Visits the items with their positions, threading a state, and stops at the first error. -/
def visit (step : Nat → α → σ → Except ε σ) : Nat → List α → σ → Except ε σ
  | _, [], s => .ok s
  | index, x :: xs, s => do
      let s' ← step index x s
      visit step (index + 1) xs s'

/-- What each visit adds to the items visited so far holds of all of them at the end. -/
theorem visit_induction {step : Nat → α → σ → Except ε σ} {P : List α → σ → Prop}
    (hstep : ∀ {index x s s' done}, P done s → step index x s = .ok s' → P (done ++ [x]) s')
    {index : Nat} {xs done : List α} {s s' : σ} (hdone : P done s)
    (h : visit step index xs s = .ok s') : P (done ++ xs) s' := by
  induction xs generalizing index done s with
  | nil =>
    cases h
    rw [List.append_nil]
    exact hdone
  | cons x xs ih =>
    obtain ⟨s₁, hx, hxs⟩ := bind_eq_ok.mp h
    have hall := ih (hstep hdone hx) hxs
    rwa [List.append_assoc] at hall

/-- Visits the items in order, threading a state, and stops at the first error. -/
def mapAccumM (f : α → σ → Except ε (β × σ)) : List α → σ → Except ε (List β × σ)
  | [], s => .ok ([], s)
  | x :: xs, s => do
      let (y, s') ← f x s
      let (ys, s'') ← mapAccumM f xs s'
      pure (y :: ys, s'')

theorem mapAccumM_cons_eq_ok {f : α → σ → Except ε (β × σ)} {x : α} {xs : List α} {s s' : σ}
    {zs : List β} :
    mapAccumM f (x :: xs) s = .ok (zs, s') ↔
      ∃ y ys s₁, f x s = .ok (y, s₁) ∧ mapAccumM f xs s₁ = .ok (ys, s') ∧ zs = y :: ys := by
  simp only [mapAccumM, bind_eq_ok, Prod.exists, pure_eq_ok, Prod.mk.injEq]
  constructor
  · rintro ⟨y, s₁, hy, ys, s₂, hys, rfl, rfl⟩
    exact ⟨y, ys, s₁, hy, hys, rfl⟩
  · rintro ⟨y, ys, s₁, hy, hys, rfl⟩
    exact ⟨y, s₁, hy, ys, s', hys, rfl, rfl⟩

/-- When each visit has a state-independent outcome and a state update that only depends on its
result, so has the whole traversal. -/
theorem mapAccumM_ok {f : α → σ → Except ε (β × σ)} {P : α → β → Prop} {g : β → σ → σ}
    (h : ∀ x s y s', f x s = .ok (y, s') → P x y ∧ s' = g y s) {xs : List α} {s s' : σ}
    {ys : List β} (hxs : mapAccumM f xs s = .ok (ys, s')) :
    List.Forall₂ P xs ys ∧ s' = ys.foldl (fun s y => g y s) s := by
  induction xs generalizing s ys with
  | nil =>
    simp only [mapAccumM, Except.ok.injEq, Prod.mk.injEq] at hxs
    obtain ⟨rfl, rfl⟩ := hxs
    exact ⟨.nil, rfl⟩
  | cons x xs ih =>
    obtain ⟨y, ys', s₁, hy, hys, rfl⟩ := mapAccumM_cons_eq_ok.mp hxs
    obtain ⟨hP, rfl⟩ := h x s y s₁ hy
    obtain ⟨htail, rfl⟩ := ih hys
    exact ⟨.cons hP htail, rfl⟩

/-- A traversal commutes with translations of its items and results when each visit does. -/
theorem mapAccumM_map {α' β' : Type} {f : α → σ → Except ε (β × σ)}
    {f' : α' → σ → Except ε (β' × σ)} {a : α → α'} {b : β → β'}
    (h : ∀ x s, f' (a x) s = (f x s).map fun r => (b r.1, r.2)) (xs : List α) (s : σ) :
    mapAccumM f' (xs.map a) s = (mapAccumM f xs s).map fun r => (r.1.map b, r.2) := by
  induction xs generalizing s with
  | nil => rfl
  | cons x xs ih =>
    simp only [List.map_cons, mapAccumM, h]
    cases hx : f x s with
    | error e => rfl
    | ok r =>
      simp only [Except.map, ok_bind, ih]
      cases mapAccumM f xs r.2 <;> rfl

theorem exists_left_of_forall₂ {P : α → β → Prop} {xs : List α} {ys : List β}
    (h : List.Forall₂ P xs ys) {y : β} (hy : y ∈ ys) : ∃ x ∈ xs, P x y := by
  induction h with
  | nil => cases hy
  | cons hx _ ih =>
    rcases List.mem_cons.mp hy with rfl | hy
    · exact ⟨_, by simp, hx⟩
    · obtain ⟨x, hmem, hP⟩ := ih hy
      exact ⟨x, by simp [hmem], hP⟩

theorem exists_right_of_forall₂ {P : α → β → Prop} {xs : List α} {ys : List β}
    (h : List.Forall₂ P xs ys) {x : α} (hx : x ∈ xs) : ∃ y ∈ ys, P x y :=
  exists_left_of_forall₂ h.flip hx

/-- `List.mapM` over `Except` succeeds exactly when every item does. -/
theorem mapM_eq_ok_iff {f : α → Except ε β} {xs : List α} {ys : List β} :
    xs.mapM f = .ok ys ↔ List.Forall₂ (fun x y => f x = .ok y) xs ys := by
  induction xs generalizing ys with
  | nil => simp [pure, Except.pure, eq_comm]
  | cons x xs ih =>
    simp only [List.mapM_cons, bind_eq_ok, pure_eq_ok, List.forall₂_cons_left_iff, ih]
    constructor
    · rintro ⟨y, hy, ys', hys, rfl⟩
      exact ⟨y, ys', hy, hys, rfl⟩
    · rintro ⟨y, ys', hy, hys, rfl⟩
      exact ⟨y, hy, ys', hys, rfl⟩

/-- Each result is that of an item. -/
theorem mem_of_mapM_ok {f : α → Except ε β} {xs : List α} {ys : List β} (h : xs.mapM f = .ok ys)
    {y : β} (hy : y ∈ ys) : ∃ x ∈ xs, f x = .ok y := by
  rw [mapM_eq_ok_iff] at h
  induction h with
  | nil => cases hy
  | @cons first result xs ys hfirst _ ih =>
    rcases List.mem_cons.mp hy with rfl | hrest
    · exact ⟨first, List.mem_cons_self, hfirst⟩
    · obtain ⟨x, hx, hresult⟩ := ih hrest
      exact ⟨x, List.mem_cons_of_mem _ hx, hresult⟩

theorem mapM_of_ok {f : α → Except ε β} {g : α → β} {xs : List α} (h : ∀ x ∈ xs, f x = .ok (g x)) :
    xs.mapM f = .ok (xs.map g) := by
  rw [mapM_eq_ok_iff, List.forall₂_map_right_iff, List.forall₂_same]
  exact h

theorem exists_mapM_ok {f : α → Except ε β} {xs : List α} (h : ∀ x ∈ xs, ∃ y, f x = .ok y) :
    ∃ ys, xs.mapM f = .ok ys := by
  induction xs with
  | nil => exact ⟨[], rfl⟩
  | cons x xs ih =>
    obtain ⟨y, hy⟩ := h x (by simp)
    obtain ⟨ys, hys⟩ := ih fun x' hx' => h x' (by simp [hx'])
    exact ⟨y :: ys, by rw [List.mapM_cons, hy, ok_bind, hys]; rfl⟩

theorem mapM_map {γ : Type} (f : α → Except ε β) (g : β → γ) (xs : List α) :
    xs.mapM (fun x => (f x).map g) = (xs.mapM f).map (List.map g) := by
  induction xs with
  | nil => rfl
  | cons x xs ih =>
    rw [List.mapM_cons, List.mapM_cons, ih]
    cases f x with
    | error e => rfl
    | ok y => cases xs.mapM f <;> rfl

theorem mapM_error {f : α → Except ε β} {xs : List α} {e : ε} (h : xs.mapM f = .error e) :
    ∃ x ∈ xs, f x = .error e := by
  induction xs with
  | nil => cases h
  | cons x xs ih =>
    rw [List.mapM_cons, bind_eq_error] at h
    rcases h with h | ⟨y, -, h⟩
    · exact ⟨x, by simp, h⟩
    · rw [bind_eq_error] at h
      rcases h with h | ⟨ys, -, h⟩
      · obtain ⟨x', hx', he⟩ := ih h
        exact ⟨x', by simp [hx'], he⟩
      · cases h

end Control
