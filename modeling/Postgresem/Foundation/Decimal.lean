import Postgresem.Foundation.Grammar

/-! Numbers that are written with a fixed number of decimal digits. -/
namespace Decimal

/-- The last `width` digits of a number, as ASCII bytes. -/
def padded : Nat → Nat → List UInt8
  | 0, _ => []
  | width + 1, value => padded width (value / 10) ++ [UInt8.ofNat (48 + value % 10)]

/-- The number, written with exactly so many digits. -/
def written (width value : Nat) : Language UInt8 :=
  {word | value < 10 ^ width ∧ word = padded width value}

def isDigit (byte : UInt8) : Bool := 48 ≤ byte && byte ≤ 57

@[simp] theorem length_padded (width value : Nat) : (padded width value).length = width := by
  induction width generalizing value with
  | zero => rfl
  | succ width ih => rw [padded, List.length_append, ih, List.length_singleton]

theorem length_of_written {width value : Nat} {word : List UInt8} (h : word ∈ written width value) :
    word.length = width := by
  rw [h.2, length_padded]

/-- A digit is the byte of its value. -/
theorem isDigit_iff (byte : UInt8) :
    isDigit byte = true ↔ ∃ value < 10, byte = UInt8.ofNat (48 + value) := by
  simp only [isDigit, Bool.and_eq_true, decide_eq_true_eq, UInt8.le_iff_toNat_le,
    UInt8.reduceToNat]
  constructor
  · rintro ⟨hlow, hhigh⟩
    refine ⟨byte.toNat - 48, by omega, ?_⟩
    rw [Nat.add_sub_cancel' hlow, UInt8.ofNat_toNat]
  · rintro ⟨value, hvalue, rfl⟩
    rw [UInt8.toNat_ofNat']
    omega

theorem isDigit_padded {width value : Nat} {byte : UInt8} (h : byte ∈ padded width value) :
    isDigit byte = true := by
  induction width generalizing value with
  | zero => cases h
  | succ width ih =>
    rw [padded, List.mem_append, List.mem_singleton] at h
    obtain h | rfl := h
    · exact ih h
    · exact (isDigit_iff _).mpr ⟨value % 10, Nat.mod_lt _ (by omega), rfl⟩

theorem padded_injective {width value other : Nat} (hvalue : value < 10 ^ width)
    (hother : other < 10 ^ width) (h : padded width value = padded width other) :
    value = other := by
  induction width generalizing value other with
  | zero => omega
  | succ width ih =>
    rw [padded, padded] at h
    obtain ⟨hfront, hlast⟩ := List.append_inj' h rfl
    have hrest := ih (by omega) (by omega) hfront
    have hdigit := congrArg UInt8.toNat (List.cons.inj hlast).1
    rw [UInt8.toNat_ofNat', UInt8.toNat_ofNat'] at hdigit
    omega

/-- Digits are a number written. -/
theorem exists_written (word : List UInt8) (h : ∀ byte ∈ word, isDigit byte = true) :
    ∃ value, word ∈ written word.length value := by
  induction word using List.reverseRecOn with
  | nil => exact ⟨0, by simp, rfl⟩
  | append_singleton front last ih =>
    rw [List.forall_mem_append, List.forall_mem_singleton] at h
    obtain ⟨value, hvalue, hfront⟩ := ih h.1
    obtain ⟨digit, hdigit, rfl⟩ := (isDigit_iff last).mp h.2
    refine ⟨value * 10 + digit, ?_, ?_⟩
    · rw [List.length_append, List.length_singleton, pow_succ]
      omega
    · rw [List.length_append, List.length_singleton, padded]
      have hdiv : (value * 10 + digit) / 10 = value := by omega
      have hmod : (value * 10 + digit) % 10 = digit := by omega
      rw [hdiv, hmod, ← hfront]

end Decimal
