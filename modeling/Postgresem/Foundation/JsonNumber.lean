import Mathlib.Algebra.Group.Int.Defs
import Postgresem.Foundation.Json
import Postgresem.Foundation.Text

/-! Machine integers in JSON numbers. A number with a fraction or an exponent, `-0`, and a number out
of range are read as floating point. -/
namespace Json

def digitsValue (digits : List Char) : Nat :=
  digits.foldl (fun value digit => 10 * value + (digit.toNat - '0'.toNat)) 0

def isDigits (chars : List Char) : Bool := !chars.isEmpty && chars.all (·.isDigit)

def integerOf (text : String) : Option Int :=
  match text.toList with
  | '-' :: digits =>
    if isDigits digits && digitsValue digits != 0 then some (-(digitsValue digits : Int)) else none
  | digits => if isDigits digits then some (digitsValue digits : Int) else none

def asI64 (text : String) : Option Int :=
  (integerOf text).filter fun value => -2 ^ 63 ≤ value && value < 2 ^ 63

def asU32 (text : String) : Option Nat :=
  ((integerOf text).filter fun value => 0 ≤ value && value < 2 ^ 32).map Int.toNat

def asU64 (text : String) : Option Nat :=
  ((integerOf text).filter fun value => 0 ≤ value && value < 2 ^ 64).map Int.toNat

section Written

theorem isDigits_toString (n : Nat) : isDigits (toString n).toList = true := by
  rw [isDigits, Bool.and_eq_true, List.all_eq_true]
  refine ⟨?_, Text.toString_isDigit n⟩
  rw [Text.toList_toString, Bool.not_eq_true', List.isEmpty_eq_false_iff]
  exact Nat.toDigits_ne_nil

theorem digitsValue_toString (n : Nat) : digitsValue (toString n).toList = n := by
  rw [Text.toList_toString]
  exact Nat.ofDigitChars_ten_toDigits

/-- An integer is read back from its decimal text. -/
theorem integerOf_toString : ∀ value : Int, integerOf (toString value) = some value
  | .ofNat n => by
    show integerOf (toString n) = _
    have hminus := Text.minus_notMem_toString n
    have hdigits := isDigits_toString n
    have hvalue := digitsValue_toString n
    unfold integerOf
    generalize (toString n).toList = digits at *
    split
    · simp at hminus
    · rw [hdigits, hvalue]
      rfl
  | .negSucc n => by
    rw [integerOf, Text.toString_negSucc, String.toList_append]
    show (if isDigits (toString (n + 1)).toList && digitsValue (toString (n + 1)).toList != 0 then
      some (-(digitsValue (toString (n + 1)).toList : Int)) else none) = _
    rw [isDigits_toString, digitsValue_toString]
    rfl

theorem asI64_eq_some {text : String} {value : Int} :
    asI64 text = some value ↔ integerOf text = some value ∧ -2 ^ 63 ≤ value ∧ value < 2 ^ 63 := by
  rw [asI64, Option.filter_eq_some_iff, Bool.and_eq_true, decide_eq_true_eq, decide_eq_true_eq]

theorem asU32_toString {n : Nat} (h : n < 2 ^ 32) : asU32 (toString n) = some n := by
  have hread : integerOf (toString n) = some (n : Int) := integerOf_toString n
  rw [asU32, hread, Option.filter_some, if_pos]
  · rfl
  · rw [Bool.and_eq_true, decide_eq_true_eq, decide_eq_true_eq]
    omega

end Written

end Json
