import Mathlib.Data.String.Basic
import Mathlib.Data.List.Basic
import Mathlib.Tactic.IntervalCases

/-! Character-wise text substitution, digits, and the reading of quoted identifiers. -/
namespace Text

/-- Every occurrence of a character replaced by a text, as `str::replace(char, &str)` does. -/
def replaceChar (pattern : Char) (replacement : String) (text : String) : String :=
  String.ofList (text.toList.flatMap fun c => if c = pattern then replacement.toList else [c])

@[simp] theorem toList_replaceChar (pattern : Char) (replacement text : String) :
    (replaceChar pattern replacement text).toList =
      text.toList.flatMap fun c => if c = pattern then replacement.toList else [c] := by
  simp [replaceChar]

@[simp] theorem replaceChar_append (pattern : Char) (replacement a b : String) :
    replaceChar pattern replacement (a ++ b) =
      replaceChar pattern replacement a ++ replaceChar pattern replacement b := by
  apply String.toList_injective
  simp

theorem flatMap_replace_of_notMem {pattern : Char} {replacement : List Char} {text : List Char}
    (h : pattern ∉ text) :
    text.flatMap (fun c => if c = pattern then replacement else [c]) = text := by
  induction text with
  | nil => rfl
  | cons c cs ih =>
    simp only [List.mem_cons, not_or] at h
    simp [Ne.symm h.1, ih h.2]

theorem replaceChar_of_notMem {pattern : Char} {replacement text : String}
    (h : pattern ∉ text.toList) : replaceChar pattern replacement text = text := by
  apply String.toList_injective
  rw [toList_replaceChar, flatMap_replace_of_notMem h]

/-- A substitution that inserts something after the character it replaces is visible. -/
theorem replaceChar_eq_self_iff {pattern : Char} {replacement text : String}
    (h : 1 < replacement.toList.length) :
    replaceChar pattern replacement text = text ↔ pattern ∉ text.toList := by
  refine ⟨fun he hm => ?_, replaceChar_of_notMem⟩
  have hl : ∀ cs : List Char, cs.length ≤
      (cs.flatMap fun c => if c = pattern then replacement.toList else [c]).length := by
    intro cs
    induction cs with
    | nil => simp
    | cons c cs ih =>
      simp only [List.flatMap_cons, List.length_append, List.length_cons]
      split
      · omega
      · simp only [List.length_cons, List.length_nil]; omega
  have he' := congrArg (fun s : String => s.toList.length) he
  simp only [toList_replaceChar] at he'
  obtain ⟨as, bs, hs⟩ := List.append_of_mem hm
  rw [hs] at he'
  have ha := hl as
  have hb := hl bs
  simp only [List.flatMap_append, List.flatMap_cons, if_true, List.length_append,
    List.length_cons] at he'
  omega

/-- The decimal text of a number has digits only. -/
theorem toString_isDigit (n : Nat) : ∀ c ∈ (toString n).toList, c.isDigit = true := by
  intro c hc
  have h : (toString n).toList = Nat.toDigits 10 n := by simp [toString, Nat.repr]
  rw [h] at hc
  exact Nat.isDigit_of_mem_toDigits (by decide) (by decide) hc

theorem notMem_toString {c : Char} (h : c.isDigit = false) (n : Nat) :
    c ∉ (toString n).toList := by
  intro hc
  rw [toString_isDigit n c hc] at h
  cases h

theorem toString_injective {m n : Nat} (h : toString m = toString n) : m = n := by
  have hdigits : Nat.toDigits 10 m = Nat.toDigits 10 n := by
    rw [← Nat.toList_repr, ← Nat.toList_repr]
    exact congrArg String.toList h
  rw [← Nat.ofDigitChars_ten_toDigits (n := m), hdigits, Nat.ofDigitChars_ten_toDigits]

theorem toList_toString (n : Nat) : (toString n).toList = Nat.toDigits 10 n := Nat.toList_repr

theorem toString_negSucc (n : Nat) : toString (Int.negSucc n) = "-" ++ toString (n + 1) := rfl

theorem minus_notMem_toString (n : Nat) : '-' ∉ (toString n).toList := notMem_toString (by decide) n

/-- The decimal text of an integer determines it. -/
theorem toString_int_injective {m n : Int} (h : toString m = toString n) : m = n := by
  have hsign : ∀ a b : Nat, toString a ≠ "-" ++ toString b := by
    intro a b he
    apply minus_notMem_toString a
    rw [he, String.toList_append]
    exact List.mem_append_left _ (by decide)
  cases m with
  | ofNat a =>
    cases n with
    | ofNat b => exact congrArg Int.ofNat (toString_injective h)
    | negSucc b => exact absurd h (hsign a (b + 1))
  | negSucc a =>
    cases n with
    | ofNat b => exact absurd h.symm (hsign b (a + 1))
    | negSucc b =>
      rw [toString_negSucc, toString_negSucc] at h
      have htail : (toString (a + 1)).toList = (toString (b + 1)).toList := by
        have hlist := congrArg String.toList h
        rw [String.toList_append, String.toList_append] at hlist
        exact List.append_cancel_left hlist
      rw [Nat.succ.inj (toString_injective (String.toList_injective htail))]

/-- A decimal text of two digits or more does not start with a zero. -/
theorem toDigits_no_leading_zero (n : Nat) (c : Char) (cs : List Char) :
    Nat.toDigits 10 n ≠ '0' :: c :: cs := by
  have hpositive : ∀ m : Nat, 0 < m → (Nat.toDigits 10 m).head? ≠ some '0' := by
    intro m
    induction m using Nat.strong_induction_on with
    | h m ih =>
      intro hm
      by_cases hsmall : m < 10
      · rw [Nat.toDigits_of_lt_base hsmall]
        interval_cases m <;> decide
      · rw [Nat.toDigits_of_base_le (by decide) (by omega), List.head?_append]
        cases hhead : (Nat.toDigits 10 (m / 10)).head? with
        | none => exact absurd (List.head?_eq_none_iff.mp hhead) Nat.toDigits_ne_nil
        | some first =>
          have hrest := ih (m / 10) (by omega) (by omega)
          rw [hhead] at hrest
          simpa using hrest
  intro h
  by_cases hzero : n = 0
  · rw [hzero] at h
    cases h
  · apply hpositive n (by omega)
    rw [h]
    rfl

end Text
