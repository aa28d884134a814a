import Mathlib.Logic.Function.Basic
import Mathlib.Logic.Relation

/-! Programs that run beside one another over a shared world, and a logic in which each of them is
proved on its own, against what the others may do between its actions. -/
namespace RelyGuarantee
open Relation

/-- A program ends with a value, or performs an action and goes on with the reply. -/
inductive Program (ρ : Type) (ι : ρ → Type) (α : Type) where
  | done (value : α)
  | perform (action : ρ) (next : ι action → Program ρ ι α)

variable {ρ : Type} {ι : ρ → Type} {α β ε σ : Type}

namespace Program

def bind : Program ρ ι α → (α → Program ρ ι β) → Program ρ ι β
  | .done value, f => f value
  | .perform action next, f => .perform action fun reply => (next reply).bind f

instance : Monad (Program ρ ι) where
  pure := .done
  bind := bind

def call (action : ρ) : Program ρ ι (ι action) := .perform action .done

/-- Every action is an allowed one, and every value it can end with is as stated. -/
def Runs (allowed : ρ → Prop) (result : α → Prop) : Program ρ ι α → Prop
  | .done value => result value
  | .perform action next => allowed action ∧ ∀ reply, (next reply).Runs allowed result

section Runs
variable {allowed : ρ → Prop}

theorem Runs.bind {R : α → Prop} {R' : β → Prop} {p : Program ρ ι α} {f : α → Program ρ ι β}
    (h : p.Runs allowed R) (hf : ∀ value, R value → (f value).Runs allowed R') :
    (p.bind f).Runs allowed R' := by
  induction p with
  | done value => exact hf value h
  | perform action next ih => exact ⟨h.1, fun reply => ih reply (h.2 reply)⟩

/-- A program that stops at its first error. -/
theorem Runs.bindExcept {R : Except ε α → Prop} {R' : Except ε β → Prop}
    {p : ExceptT ε (Program ρ ι) α} {f : α → ExceptT ε (Program ρ ι) β}
    (h : Runs allowed R p.run) (herror : ∀ error, R (.error error) → R' (.error error))
    (hf : ∀ value, R (.ok value) → Runs allowed R' (f value).run) :
    Runs allowed R' (p >>= f).run := by
  refine Runs.bind h ?_
  intro result hresult
  cases result with
  | ok value => exact hf value hresult
  | error error => exact herror error hresult

end Runs
end Program

/-- What the actions of the programs and the rest of the world do. -/
structure System (σ ρ : Type) (ι : ρ → Type) where
  /-- The replies that program `i` can get, each with the world after the action. -/
  effect : Nat → (action : ρ) → σ → ι action → σ → Prop
  environment : σ → σ → Prop

/-- The world with what is left of each program, which is nothing once it has crashed. -/
structure Config (σ ρ : Type) (ι : ρ → Type) (α : Type) where
  world : σ
  threads : Nat → Option (Program ρ ι α)

namespace Config
variable (config : Config σ ρ ι α)

def setThread (i : Nat) (thread : Option (Program ρ ι α)) : Config σ ρ ι α :=
  { config with threads := Function.update config.threads i thread }

theorem setThread_self (i : Nat) (thread : Option (Program ρ ι α)) :
    (config.setThread i thread).threads i = thread := Function.update_self ..

theorem setThread_of_ne {i j : Nat} (h : i ≠ j) (thread : Option (Program ρ ι α)) :
    (config.setThread j thread).threads i = config.threads i := Function.update_of_ne h ..

theorem setThread_setThread (i : Nat) (first second : Option (Program ρ ι α)) :
    (config.setThread i first).setThread i second = config.setThread i second := by
  simp only [setThread, Function.update_idem]

/-- Program `i` is left with `p`, and the world is another one. -/
def advance (i : Nat) (p : Program ρ ι α) (world : σ) : Config σ ρ ι α :=
  { config.setThread i (some p) with world }

theorem advance_self (i : Nat) (p : Program ρ ι α) (world : σ) :
    (config.advance i p world).threads i = some p := config.setThread_self i _

theorem advance_of_ne {i j : Nat} (h : i ≠ j) (p : Program ρ ι α) (world : σ) :
    (config.advance j p world).threads i = config.threads i := config.setThread_of_ne h _

end Config

namespace System
variable (S : System σ ρ ι)

inductive Step : Config σ ρ ι α → Config σ ρ ι α → Prop
  | perform {config i action next reply world} :
      config.threads i = some (.perform action next) →
      S.effect i action config.world reply world →
      Step config (config.advance i (next reply) world)
  | crash {config} (i : Nat) : Step config (config.setThread i none)
  | environment {config world} : S.environment config.world world →
      Step config { config with world }

/-- The configurations that the programs, in any interleaving, can lead to. -/
def Reachable (programs : Nat → Program ρ ι α) (world : σ) (config : Config σ ρ ι α) : Prop :=
  ReflTransGen S.Step { world, threads := fun i => some (programs i) } config

/-- What every action and the rest of the world keep holds from then on. -/
theorem keeps {R : σ → σ → Prop} (hrefl : ∀ s, R s s) (htrans : ∀ {s t u}, R s t → R t u → R s u)
    (heffect : ∀ {i action s reply t}, S.effect i action s reply t → R s t)
    (henvironment : ∀ {s t}, S.environment s t → R s t) {before after : Config σ ρ ι α}
    (h : ReflTransGen S.Step before after) : R before.world after.world := by
  induction h with
  | refl => exact hrefl _
  | tail _ hstep ih =>
    cases hstep with
    | perform _ hworld => exact htrans ih (heffect hworld)
    | crash i => exact ih
    | environment hworld => exact htrans ih (henvironment hworld)

/-- The program can get to the other by actions after which the world is as before. -/
inductive Silently (i : Nat) (world : σ) : Program ρ ι α → Program ρ ι α → Prop
  | refl (p : Program ρ ι α) : Silently i world p p
  | step {action next q} (reply : ι action) : S.effect i action world reply world →
      Silently i world (next reply) q → Silently i world (.perform action next) q

variable {S} {i : Nat} {world : σ}

theorem Silently.trans {p q r : Program ρ ι α} (h : S.Silently i world p q)
    (h' : S.Silently i world q r) : S.Silently i world p r := by
  induction h with
  | refl => exact h'
  | step reply heffect _ ih => exact .step reply heffect (ih h')

theorem Silently.bind {p q : Program ρ ι α} (h : S.Silently i world p q)
    (f : α → Program ρ ι β) : S.Silently i world (p.bind f) (q.bind f) := by
  induction h with
  | refl => exact .refl _
  | step reply heffect _ ih => exact .step reply heffect ih

/-- A part of a program that succeeds. -/
theorem Silently.bindExcept {x : ExceptT ε (Program ρ ι) α} {value : α}
    {f : α → ExceptT ε (Program ρ ι) β} {q : Program ρ ι (Except ε β)}
    (hx : S.Silently i world x.run (.done (.ok value))) (hf : S.Silently i world (f value).run q) :
    S.Silently i world (x >>= f).run q :=
  (hx.bind _).trans hf

theorem Silently.reaches {config : Config σ ρ ι α} {p q : Program ρ ι α}
    (h : S.Silently i config.world p q) (hp : config.threads i = some p) :
    ReflTransGen S.Step config (config.setThread i (some q)) := by
  generalize hworld : config.world = world at h
  induction h generalizing config with
  | refl p =>
    have hsame : config.setThread i (some p) = config := by
      rw [Config.setThread, ← hp, Function.update_eq_self]
    rw [hsame]
  | @step action next q reply heffect _ ih =>
    have hstep : S.Step config (config.setThread i (some (next reply))) := by
      subst hworld
      exact .perform hp heffect
    have hrest := ih (config.setThread_self i _) hworld
    rw [Config.setThread_setThread] at hrest
    exact .head hstep hrest

end System

/-- What each program may take for granted of the others, and when it may perform an action. -/
structure Discipline (S : System σ ρ ι) where
  rely : Nat → σ → σ → Prop
  permits : Nat → ρ → σ → Prop
  environment : ∀ {i s t}, S.environment s t → rely i s t
  effect : ∀ {i j action s reply t}, j ≠ i → permits i action s → S.effect i action s reply t →
    rely j s t

namespace Discipline
variable {S : System σ ρ ι} (D : Discipline S)

/-- The other programs keep it. -/
def Stable (i : Nat) (P : σ → Prop) : Prop := ∀ {s t}, D.rely i s t → P s → P t

/-- Whatever the others do in between, the program performs permitted actions only, and its value
is as stated from then on. -/
def Meets (i : Nat) (post : α → σ → Prop) : Program ρ ι α → σ → Prop
  | .done value, s => ∀ t, ReflTransGen (D.rely i) s t → post value t
  | .perform action next, s => ∀ t, ReflTransGen (D.rely i) s t →
      D.permits i action t ∧
        ∀ reply u, S.effect i action t reply u → Meets i post (next reply) u

variable {D} {i : Nat}

theorem Stable.trans {P : σ → Prop} (h : D.Stable i P) {s t : σ}
    (hrely : ReflTransGen (D.rely i) s t) (hs : P s) : P t := by
  induction hrely with
  | refl => exact hs
  | tail _ hstep ih => exact h hstep ih

theorem Meets.interfere {post : α → σ → Prop} {p : Program ρ ι α} {s t : σ}
    (h : D.Meets i post p s) (hrely : ReflTransGen (D.rely i) s t) : D.Meets i post p t := by
  cases p with
  | done value => exact fun u hu => h u (hrely.trans hu)
  | perform action next => exact fun u hu => h u (hrely.trans hu)

theorem Meets.mono {post post' : α → σ → Prop} {p : Program ρ ι α} {s : σ}
    (h : D.Meets i post p s) (hpost : ∀ value t, post value t → post' value t) :
    D.Meets i post' p s := by
  induction p generalizing s with
  | done value => exact fun t ht => hpost value t (h t ht)
  | perform action next ih =>
    intro t ht
    obtain ⟨hpermits, hnext⟩ := h t ht
    exact ⟨hpermits, fun reply u hu => ih reply (hnext reply u hu)⟩

theorem Meets.bind {post : β → σ → Prop} {p : Program ρ ι α} {f : α → Program ρ ι β} {s : σ}
    (h : D.Meets i (fun value t => D.Meets i post (f value) t) p s) :
    D.Meets i post (p.bind f) s := by
  induction p generalizing s with
  | done value => exact h s .refl
  | perform action next ih =>
    intro t ht
    obtain ⟨hpermits, hnext⟩ := h t ht
    exact ⟨hpermits, fun reply u hu => ih reply (hnext reply u hu)⟩

/-- A program that stops at its first error. -/
theorem Meets.bindExcept {post : Except ε β → σ → Prop} {p : ExceptT ε (Program ρ ι) α}
    {f : α → ExceptT ε (Program ρ ι) β} {mid : Except ε α → σ → Prop} {s : σ}
    (h : D.Meets i mid p.run s)
    (herror : ∀ error t, mid (.error error) t → D.Meets i post (.done (.error error)) t)
    (hf : ∀ value t, mid (.ok value) t → D.Meets i post (f value).run t) :
    D.Meets i post (p >>= f).run s := by
  refine Meets.bind (h.mono ?_)
  intro result t hmid
  cases result with
  | ok value => exact hf value t hmid
  | error error => exact herror error t hmid

theorem Meets.done {post : α → σ → Prop} {value : α} {s : σ} (hpost : D.Stable i (post value))
    (h : post value s) : D.Meets i post (.done value) s :=
  fun _ ht => hpost.trans ht h

/-- A program of actions that keep an assertion keeps it. -/
theorem Meets.of_runs {allowed : ρ → Prop} {R : α → Prop} {P : σ → Prop} (hP : D.Stable i P)
    (hpermits : ∀ action t, allowed action → P t → D.permits i action t)
    (heffect : ∀ action t reply u, allowed action → P t → S.effect i action t reply u → P u)
    {p : Program ρ ι α} (h : p.Runs allowed R) {s : σ} (hs : P s) :
    D.Meets i (fun value t => R value ∧ P t) p s := by
  induction p generalizing s with
  | done value => exact fun t ht => ⟨h, hP.trans ht hs⟩
  | perform action next ih =>
    intro t ht
    have hPt := hP.trans ht hs
    refine ⟨hpermits action t h.1 hPt, fun reply u hu => ?_⟩
    exact ih reply (h.2 reply) (heffect action t reply u h.1 hPt hu)

/-- Programs that are right on their own are right beside one another. -/
theorem meets_of_reachable {programs : Nat → Program ρ ι α} {post : Nat → α → σ → Prop} {world : σ}
    (hstart : ∀ i, D.Meets i (post i) (programs i) world) {config : Config σ ρ ι α}
    (h : S.Reachable programs world config) {i : Nat} {p : Program ρ ι α}
    (hp : config.threads i = some p) : D.Meets i (post i) p config.world := by
  induction h generalizing i p with
  | refl =>
    cases hp
    exact hstart i
  | tail _ hstep ih =>
    cases hstep with
    | @perform j action next reply world hj heffect =>
      obtain ⟨hpermits, hnext⟩ := ih hj _ .refl
      by_cases hij : i = j
      · subst hij
        rw [Config.advance_self, Option.some.injEq] at hp
        subst hp
        exact hnext reply world heffect
      · rw [Config.advance_of_ne _ hij] at hp
        exact (ih hp).interfere (.single (D.effect hij hpermits heffect))
    | crash j =>
      by_cases hij : i = j
      · subst hij
        rw [Config.setThread_self] at hp
        cases hp
      · rw [Config.setThread_of_ne _ hij] at hp
        exact ih hp
    | environment hworld => exact (ih hp).interfere (.single (D.environment hworld))

section Reachable
variable {programs : Nat → Program ρ ι α} {post : Nat → α → σ → Prop} {world : σ}
  {config : Config σ ρ ι α}

theorem post_of_reachable (hstart : ∀ i, D.Meets i (post i) (programs i) world)
    (h : S.Reachable programs world config) {i : Nat} {value : α}
    (hdone : config.threads i = some (.done value)) : post i value config.world :=
  meets_of_reachable hstart h hdone _ .refl

theorem permits_of_reachable (hstart : ∀ i, D.Meets i (post i) (programs i) world)
    (h : S.Reachable programs world config) {i : Nat} {action : ρ} {next : ι action → Program ρ ι α}
    (hnext : config.threads i = some (.perform action next)) : D.permits i action config.world :=
  (meets_of_reachable hstart h hnext _ .refl).1

end Reachable
end Discipline

end RelyGuarantee
