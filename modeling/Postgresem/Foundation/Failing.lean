import Postgresem.Foundation.Control

/-! The errors that a computation can fail with, step by step. -/
namespace Control

variable {ε α β σ : Type}

/-- Where the computation fails, its error satisfies the predicate. -/
def FailsOnly (P : ε → Prop) (x : Except ε α) : Prop := ∀ error, x = .error error → P error

variable {P : ε → Prop}

theorem FailsOnly.ok (a : α) : FailsOnly P (.ok a) := fun _ h => nomatch h

theorem FailsOnly.error {error : ε} (h : P error) : FailsOnly P (.error error : Except ε α) := by
  rintro _ ⟨⟩
  exact h

theorem FailsOnly.mono {Q : ε → Prop} {x : Except ε α} (h : FailsOnly P x)
    (hweaker : ∀ error, P error → Q error) : FailsOnly Q x :=
  fun error herror => hweaker error (h error herror)

theorem FailsOnly.bind {x : Except ε α} {f : α → Except ε β} (hx : FailsOnly P x)
    (hf : ∀ a, x = .ok a → FailsOnly P (f a)) : FailsOnly P (x >>= f) := by
  intro error h
  rcases bind_eq_error.mp h with herror | ⟨a, ha, herror⟩
  · exact hx error herror
  · exact hf a ha error herror

theorem FailsOnly.map {x : Except ε α} (h : FailsOnly P x) (f : α → β) : FailsOnly P (x.map f) := by
  intro error herror
  exact h error (map_eq_error.mp herror)

theorem FailsOnly.mapError {ε' : Type} {x : Except ε' α} {f : ε' → ε} (h : ∀ error, P (f error)) :
    FailsOnly P (x.mapError f) := by
  cases x with
  | ok a => exact .ok a
  | error error => exact .error (h error)

theorem FailsOnly.ensure {condition : Bool} {error : ε} (h : condition = false → P error) :
    FailsOnly P (ensure condition error) := by
  cases condition with
  | false => exact .error (h rfl)
  | true => exact .ok ()

theorem FailsOnly.orError {value : Option α} {error : ε} (h : value = none → P error) :
    FailsOnly P (orError value error) := by
  cases value with
  | none => exact .error (h rfl)
  | some a => exact .ok a

theorem FailsOnly.forEach {check : α → Except ε Unit} {xs : List α}
    (h : ∀ x ∈ xs, FailsOnly P (check x)) : FailsOnly P (forEach check xs) := by
  induction xs with
  | nil => exact .ok ()
  | cons x xs ih =>
    exact (h x List.mem_cons_self).bind fun _ _ => ih fun y hy => h y (List.mem_cons_of_mem x hy)

theorem FailsOnly.mapM {f : α → Except ε β} {xs : List α} (h : ∀ x ∈ xs, FailsOnly P (f x)) :
    FailsOnly P (xs.mapM f) := by
  intro error herror
  obtain ⟨x, hx, hfx⟩ := mapM_error herror
  exact h x hx error hfx

theorem FailsOnly.mapAccumM {f : α → σ → Except ε (β × σ)} {xs : List α}
    (h : ∀ x ∈ xs, ∀ s, FailsOnly P (f x s)) (s : σ) : FailsOnly P (mapAccumM f xs s) := by
  induction xs generalizing s with
  | nil => exact .ok _
  | cons x xs ih =>
    refine (h x List.mem_cons_self s).bind fun first _ => ?_
    refine (ih (fun y hy => h y (List.mem_cons_of_mem x hy)) first.2).bind fun rest _ => ?_
    exact .ok _

end Control
