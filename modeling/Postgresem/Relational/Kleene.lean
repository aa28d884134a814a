import Mathlib.Data.List.Basic

/-! Kleene's three-valued truth, with `none` for unknown, and its folds over argument lists. -/
namespace Relational

abbrev Truth := Option Bool

namespace Truth

def not : Truth → Truth := Option.map Bool.not

def and : Truth → Truth → Truth
  | some false, _ => some false
  | _, some false => some false
  | some true, some true => some true
  | _, _ => none

def or : Truth → Truth → Truth
  | some true, _ => some true
  | _, some true => some true
  | some false, some false => some false
  | _, _ => none

def all (args : List Truth) : Truth := args.foldr and (some true)

def any (args : List Truth) : Truth := args.foldr or (some false)

/-- A condition keeps a row only when it is true; false and unknown both drop it. -/
def holds (truth : Truth) : Bool := truth == some true

@[simp] theorem holds_some_true : holds (some true) = true := rfl
@[simp] theorem holds_some_false : holds (some false) = false := rfl
@[simp] theorem holds_none : holds none = false := rfl

@[simp] theorem all_nil : all [] = some true := rfl
@[simp] theorem all_cons (t : Truth) (ts : List Truth) : all (t :: ts) = and t (all ts) := rfl
@[simp] theorem any_nil : any [] = some false := rfl
@[simp] theorem any_cons (t : Truth) (ts : List Truth) : any (t :: ts) = or t (any ts) := rfl

@[simp] theorem and_true (t : Truth) : and t (some true) = t := by
  rcases t with _ | _ | _ <;> rfl

@[simp] theorem or_false (t : Truth) : or t (some false) = t := by
  rcases t with _ | _ | _ <;> rfl

end Truth
end Relational
