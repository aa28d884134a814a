import Mathlib.Data.List.Basic
import Mathlib.Data.String.Basic

/-! The UTF-8 bytes of a text, character by character. -/
namespace Utf8

def bytes (text : String) : List UInt8 := text.toUTF8.data.toList

theorem bytes_eq_flatMap (text : String) :
    bytes text = text.toList.flatMap String.utf8EncodeChar := by
  have h : text.toList.utf8Encode = text.toUTF8 := String.utf8Encode_toList
  rw [bytes, ← h, List.utf8Encode]
  simp

theorem bytes_ofList (chars : List Char) :
    bytes (String.ofList chars) = chars.flatMap String.utf8EncodeChar := by
  rw [bytes_eq_flatMap, String.toList_ofList]

@[simp] theorem bytes_append (a b : String) : bytes (a ++ b) = bytes a ++ bytes b := by
  simp only [bytes_eq_flatMap, String.toList_append, List.flatMap_append]

theorem bytes_injective : Function.Injective bytes := by
  intro a b h
  apply String.toByteArray_inj.mp
  exact ByteArray.ext (Array.toList_inj.mp h)

/-- The bytes of a text are read as that text, and no others are. -/
theorem fromUTF8_eq_some {code : List UInt8} {text : String} :
    String.fromUTF8? ⟨code.toArray⟩ = some text ↔ code = bytes text := by
  unfold String.fromUTF8? bytes
  constructor
  · intro h
    split_ifs at h with hvalid
    cases h
    rfl
  · rintro rfl
    have hvalid : (⟨text.toUTF8.data.toList.toArray⟩ : ByteArray).IsValidUTF8 := text.isValidUTF8
    rw [dif_pos hvalid]
    rfl

theorem encode_ascii {c : Char} (h : c.toNat < 128) :
    String.utf8EncodeChar c = [UInt8.ofNat c.toNat] := by
  have hval : c.val.toNat ≤ 0x7f := Nat.le_of_lt_succ h
  rw [String.utf8EncodeChar, if_pos hval]
  rfl

theorem encode_ne_nil (c : Char) : String.utf8EncodeChar c ≠ [] := String.utf8EncodeChar_ne_nil

/-- The bytes of a character that is not ASCII are not ASCII either. -/
theorem encode_high {c : Char} (h : ¬ c.toNat < 128) :
    ∀ byte ∈ String.utf8EncodeChar c, 128 ≤ byte.toNat := by
  have hval : ¬ c.val.toNat ≤ 0x7f := fun hle => h (Nat.lt_succ_of_le hle)
  intro byte hbyte
  rw [String.utf8EncodeChar, if_neg hval] at hbyte
  split_ifs at hbyte
  all_goals
    simp only [List.mem_cons, List.not_mem_nil, or_false] at hbyte
    obtain rfl | rfl | rfl | rfl | rfl := hbyte <;> simp only [UInt8.toNat_ofNat'] <;> omega

/-- A property of ASCII bytes that all bytes have is one of all characters. -/
theorem forall_bytes_iff {p : Nat → Prop} (hp : ∀ n, p n → n < 128) (text : String) :
    (∀ byte ∈ bytes text, p byte.toNat) ↔ ∀ c ∈ text.toList, p c.toNat := by
  simp only [bytes_eq_flatMap, List.mem_flatMap]
  constructor
  · intro h c hc
    by_cases hascii : c.toNat < 128
    · have hbyte := h (UInt8.ofNat c.toNat) ⟨c, hc, by rw [encode_ascii hascii]; simp⟩
      rwa [UInt8.toNat_ofNat', Nat.mod_eq_of_lt (by omega)] at hbyte
    · obtain ⟨byte, hmem⟩ := List.exists_mem_of_ne_nil _ (encode_ne_nil c)
      have hhigh := encode_high hascii byte hmem
      have hlow := hp _ (h byte ⟨c, hc, hmem⟩)
      omega
  · rintro h byte ⟨c, hc, hmem⟩
    have hchar := h c hc
    rw [encode_ascii (hp _ hchar), List.mem_singleton] at hmem
    have hlow := hp _ hchar
    rwa [hmem, UInt8.toNat_ofNat', Nat.mod_eq_of_lt (by omega)]

end Utf8
