import Postgresem.Relational.Kleene

/-! Conditions over leaves of any kind, with connectives of any number of arguments, and their
value in Kleene's logic once the leaves have values. -/
namespace Relational

/-- A connective with one argument is the argument. -/
def chain {α : Type} (connective : List α → α) : List α → α
  | [arg] => arg
  | args => connective args

inductive Logic (α : Type) where
  | leaf (value : α)
  | not (arg : Logic α)
  | and (args : List (Logic α))
  | or (args : List (Logic α))

namespace Logic
variable {α β : Type}

mutual

def kleene : Logic Truth → Truth
  | .leaf value => value
  | .not arg => Truth.not arg.kleene
  | .and args => Truth.all (kleeneEach args)
  | .or args => Truth.any (kleeneEach args)

def kleeneEach : List (Logic Truth) → List Truth
  | [] => []
  | arg :: rest => arg.kleene :: kleeneEach rest

end

mutual

def map (f : α → β) : Logic α → Logic β
  | .leaf value => .leaf (f value)
  | .not arg => .not (arg.map f)
  | .and args => .and (mapEach f args)
  | .or args => .or (mapEach f args)

def mapEach (f : α → β) : List (Logic α) → List (Logic β)
  | [] => []
  | arg :: rest => arg.map f :: mapEach f rest

end

mutual

/-- The condition without its connectives of one argument. -/
def collapse : Logic α → Logic α
  | .leaf value => .leaf value
  | .not arg => .not arg.collapse
  | .and args => chain .and (collapseEach args)
  | .or args => chain .or (collapseEach args)

def collapseEach : List (Logic α) → List (Logic α)
  | [] => []
  | arg :: rest => arg.collapse :: collapseEach rest

end

mutual

def leafCount : Logic α → Nat
  | .leaf _ => 1
  | .not arg => arg.leafCount
  | .and args | .or args => leafCountEach args

def leafCountEach : List (Logic α) → Nat
  | [] => 0
  | arg :: rest => arg.leafCount + leafCountEach rest

end

mutual

/-- The leaves, numbered from the left, take the values of their numbers. -/
def assign (values : Nat → β) : Nat → Logic α → Logic β
  | start, .leaf _ => .leaf (values start)
  | start, .not arg => .not (arg.assign values start)
  | start, .and args => .and (assignEach values start args)
  | start, .or args => .or (assignEach values start args)

def assignEach (values : Nat → β) : Nat → List (Logic α) → List (Logic β)
  | _, [] => []
  | start, arg :: rest =>
    arg.assign values start :: assignEach values (start + arg.leafCount) rest

end

/-! ## Conditions without connectives of one argument -/

theorem map_chain (f : α → β) (args : List (Logic α)) :
    (chain .and args).map f = chain .and (mapEach f args) ∧
      (chain .or args).map f = chain .or (mapEach f args) := by
  match args with
  | [] => exact ⟨rfl, rfl⟩
  | [_] => exact ⟨rfl, rfl⟩
  | _ :: _ :: _ => exact ⟨rfl, rfl⟩

theorem leafCount_chain (args : List (Logic α)) :
    (chain .and args).leafCount = leafCountEach args ∧
      (chain .or args).leafCount = leafCountEach args := by
  match args with
  | [] => exact ⟨rfl, rfl⟩
  | [arg] => simp [chain, leafCountEach]
  | _ :: _ :: _ => exact ⟨rfl, rfl⟩

mutual

theorem leafCount_collapse : ∀ condition : Logic α,
    condition.collapse.leafCount = condition.leafCount
  | .leaf _ => rfl
  | .not arg => by rw [collapse, leafCount, leafCount, leafCount_collapse arg]
  | .and args => by rw [collapse, (leafCount_chain _).1, leafCount, leafCountEach_collapse args]
  | .or args => by rw [collapse, (leafCount_chain _).2, leafCount, leafCountEach_collapse args]

theorem leafCountEach_collapse : ∀ args : List (Logic α),
    leafCountEach (collapseEach args) = leafCountEach args
  | [] => rfl
  | arg :: rest => by
    rw [collapseEach, leafCountEach, leafCountEach, leafCount_collapse arg,
      leafCountEach_collapse rest]

end

theorem assign_chain (values : Nat → β) (start : Nat) (args : List (Logic α)) :
    (chain .and args).assign values start = chain .and (assignEach values start args) ∧
      (chain .or args).assign values start = chain .or (assignEach values start args) := by
  match args with
  | [] => exact ⟨rfl, rfl⟩
  | [_] => exact ⟨rfl, rfl⟩
  | _ :: _ :: _ => exact ⟨rfl, rfl⟩

mutual

/-- Every leaf keeps its number. -/
theorem assign_collapse (values : Nat → β) (start : Nat) : ∀ condition : Logic α,
    condition.collapse.assign values start = (condition.assign values start).collapse
  | .leaf _ => rfl
  | .not arg => by rw [collapse, assign, assign, collapse, assign_collapse values start arg]
  | .and args => by
    rw [collapse, (assign_chain values start _).1, assign, collapse,
      assignEach_collapse values start args]
  | .or args => by
    rw [collapse, (assign_chain values start _).2, assign, collapse,
      assignEach_collapse values start args]

theorem assignEach_collapse (values : Nat → β) (start : Nat) : ∀ args : List (Logic α),
    assignEach values start (collapseEach args) = collapseEach (assignEach values start args)
  | [] => rfl
  | arg :: rest => by
    rw [collapseEach, assignEach, assignEach, collapseEach, assign_collapse values start arg,
      leafCount_collapse arg, assignEach_collapse values _ rest]

end

mutual

theorem leafCount_map (f : α → β) : ∀ condition : Logic α,
    (condition.map f).leafCount = condition.leafCount
  | .leaf _ => rfl
  | .not arg => by rw [map, leafCount, leafCount, leafCount_map f arg]
  | .and args => by rw [map, leafCount, leafCount, leafCountEach_map f args]
  | .or args => by rw [map, leafCount, leafCount, leafCountEach_map f args]

theorem leafCountEach_map (f : α → β) : ∀ args : List (Logic α),
    leafCountEach (mapEach f args) = leafCountEach args
  | [] => rfl
  | arg :: rest => by
    rw [mapEach, leafCountEach, leafCountEach, leafCount_map f arg, leafCountEach_map f rest]

end

mutual

theorem assign_map {γ : Type} (f : α → β) (values : Nat → γ) (start : Nat) :
    ∀ condition : Logic α, (condition.map f).assign values start = condition.assign values start
  | .leaf _ => rfl
  | .not arg => by rw [map, assign, assign, assign_map f values start arg]
  | .and args => by rw [map, assign, assign, assignEach_map f values start args]
  | .or args => by rw [map, assign, assign, assignEach_map f values start args]

theorem assignEach_map {γ : Type} (f : α → β) (values : Nat → γ) (start : Nat) :
    ∀ args : List (Logic α), assignEach values start (mapEach f args) = assignEach values start args
  | [] => rfl
  | arg :: rest => by
    rw [mapEach, assignEach, assignEach, assign_map f values start arg, leafCount_map f arg,
      assignEach_map f values _ rest]

end

theorem kleene_chain (args : List (Logic Truth)) :
    (chain .and args).kleene = Truth.all (kleeneEach args) ∧
      (chain .or args).kleene = Truth.any (kleeneEach args) := by
  match args with
  | [] => exact ⟨rfl, rfl⟩
  | [arg] => simp [chain, kleeneEach]
  | _ :: _ :: _ => exact ⟨rfl, rfl⟩

mutual

theorem kleene_collapse : ∀ condition : Logic Truth, condition.collapse.kleene = condition.kleene
  | .leaf _ => rfl
  | .not arg => by rw [collapse, kleene, kleene, kleene_collapse arg]
  | .and args => by rw [collapse, (kleene_chain _).1, kleene, kleeneEach_collapse args]
  | .or args => by rw [collapse, (kleene_chain _).2, kleene, kleeneEach_collapse args]

theorem kleeneEach_collapse : ∀ args : List (Logic Truth),
    kleeneEach (collapseEach args) = kleeneEach args
  | [] => rfl
  | arg :: rest => by
    rw [collapseEach, kleeneEach, kleeneEach, kleene_collapse arg, kleeneEach_collapse rest]

end

/-- A condition that is another one without its connectives of one argument has the same value
whatever values the leaves have. -/
theorem kleene_assign_of_collapse {γ : Type} {first : Logic α} {second : Logic β} {f : β → γ} {g : α → γ}
    (h : first.map g = (second.map f).collapse) (values : Nat → Truth) :
    (first.assign values 0).kleene = (second.assign values 0).kleene := by
  rw [← assign_map g, h, assign_collapse, assign_map, kleene_collapse]

end Logic
end Relational
