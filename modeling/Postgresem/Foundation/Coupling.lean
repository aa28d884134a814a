import Postgresem.Foundation.Control

/-! Two runs of fallible computations side by side. A coupling says that both fail with related
errors or both succeed with related results; the rules below follow the shape of the program. -/
namespace Control

variable {ε ε' α α' β β' σ : Type}

inductive Coupled (E : ε → ε' → Prop) (R : α → α' → Prop) : Except ε α → Except ε' α' → Prop
  | ok {a : α} {a' : α'} (h : R a a') : Coupled E R (.ok a) (.ok a')
  | error {e : ε} {e' : ε'} (h : E e e') : Coupled E R (.error e) (.error e')

namespace Coupled

variable {E : ε → ε' → Prop} {R : α → α' → Prop} {S : β → β' → Prop}

theorem mono {T : α → α' → Prop} {x : Except ε α} {x' : Except ε' α'} (h : Coupled E R x x')
    (hT : ∀ a a', R a a' → T a a') : Coupled E T x x' := by
  cases h with
  | ok h => exact .ok (hT _ _ h)
  | error h => exact .error h

/-- The second computations may use that the first ones succeeded. -/
theorem bind {x : Except ε α} {x' : Except ε' α'} {f : α → Except ε β} {f' : α' → Except ε' β'}
    (hx : Coupled E R x x')
    (hf : ∀ a a', x = .ok a → x' = .ok a' → R a a' → Coupled E S (f a) (f' a')) :
    Coupled E S (x >>= f) (x' >>= f') := by
  cases hx with
  | ok h => exact hf _ _ rfl rfl h
  | error h => exact .error h

theorem map {x : Except ε α} {x' : Except ε' α'} {f : α → β} {f' : α' → β'}
    (hx : Coupled E R x x') (hf : ∀ a a', R a a' → S (f a) (f' a')) :
    Coupled E S (x.map f) (x'.map f') := by
  cases hx with
  | ok h => exact .ok (hf _ _ h)
  | error h => exact .error h

theorem mapError {ε₁ ε₁' : Type} {E₁ : ε₁ → ε₁' → Prop} {x : Except ε α} {x' : Except ε' α'}
    {f : ε → ε₁} {f' : ε' → ε₁'} (hx : Coupled E R x x') (hf : ∀ e e', E₁ (f e) (f' e')) :
    Coupled E₁ R (x.mapError f) (x'.mapError f') := by
  cases hx with
  | ok h => exact .ok h
  | error h => exact .error (hf _ _)

theorem ensure {condition : Bool} {e : ε} {e' : ε'} (he : E e e') :
    Coupled E (fun _ _ => True) (ensure condition e) (Control.ensure condition e') := by
  cases condition with
  | true => exact .ok trivial
  | false => exact .error he

theorem orError {value : Option α} {value' : Option α'} {e : ε} {e' : ε'} (he : E e e')
    (h : Option.Rel R value value') :
    Coupled E R (Control.orError value e) (Control.orError value' e') := by
  cases h with
  | some h => exact .ok h
  | none => exact .error he

theorem refl {E : ε → ε → Prop} {R : α → α → Prop} (hE : ∀ e, E e e) (hR : ∀ a, R a a)
    (x : Except ε α) : Coupled E R x x := by
  cases x with
  | error e => exact .error (hE e)
  | ok a => exact .ok (hR a)

/-- A success on one side gives one on the other. -/
theorem exists_ok {x : Except ε α} {x' : Except ε' α'} (h : Coupled E R x x') {a : α}
    (ha : x = .ok a) : ∃ a', x' = .ok a' ∧ R a a' := by
  cases h with
  | error => cases ha
  | ok h =>
    cases ha
    exact ⟨_, rfl, h⟩

theorem of_ok {x : Except ε α} {x' : Except ε' α'} {a : α} {a' : α'} (h : x = .ok a)
    (h' : x' = .ok a') (hR : R a a') : Coupled E R x x' := by
  rw [h, h']
  exact .ok hR

theorem eq {x x' : Except ε α} (h : Coupled Eq Eq x x') : x = x' := by
  cases h with
  | ok h => rw [h]
  | error h => rw [h]

theorem mapAccumM {f : α → σ → Except ε (β × σ)} {f' : α → σ → Except ε' (β' × σ)}
    {xs : List α}
    (h : ∀ x ∈ xs, ∀ s, Coupled E (fun r r' => S r.1 r'.1 ∧ r.2 = r'.2) (f x s) (f' x s)) (s : σ) :
    Coupled E (fun r r' => List.Forall₂ S r.1 r'.1 ∧ r.2 = r'.2) (mapAccumM f xs s)
      (Control.mapAccumM f' xs s) := by
  induction xs generalizing s with
  | nil => exact .ok ⟨.nil, rfl⟩
  | cons x xs ih =>
    refine (h x (by simp) s).bind ?_
    rintro ⟨y, s₁⟩ ⟨y', s₁'⟩ - - ⟨hy, rfl⟩
    refine (ih (fun x hx => h x (by simp [hx])) s₁).bind ?_
    rintro ⟨ys, s₂⟩ ⟨ys', s₂'⟩ - - ⟨hys, rfl⟩
    exact .ok ⟨.cons hy hys, rfl⟩

theorem mapM {f : α → Except ε β} {f' : α → Except ε' β'} {xs : List α}
    (h : ∀ x ∈ xs, Coupled E S (f x) (f' x)) :
    Coupled E (List.Forall₂ S) (xs.mapM f) (xs.mapM f') := by
  induction xs with
  | nil => exact .ok .nil
  | cons x xs ih =>
    rw [List.mapM_cons, List.mapM_cons]
    refine (h x (by simp)).bind ?_
    rintro y y' - - hy
    refine (ih fun x hx => h x (by simp [hx])).bind ?_
    rintro ys ys' - - hys
    exact .ok (.cons hy hys)

theorem forEach {f : α → Except ε Unit} {f' : α → Except ε' Unit} {xs : List α}
    (h : ∀ x ∈ xs, Coupled E (fun _ _ => True) (f x) (f' x)) :
    Coupled E (fun _ _ => True) (forEach f xs) (Control.forEach f' xs) := by
  induction xs with
  | nil => exact .ok trivial
  | cons x xs ih =>
    refine (h x (by simp)).bind ?_
    rintro _ _ - - -
    exact ih fun x hx => h x (by simp [hx])

end Coupled

end Control
