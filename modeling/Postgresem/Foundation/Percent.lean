import Postgresem.Foundation.Utf8

/-! Percent encoding, byte by byte: a byte that is no letter, digit or one of four marks becomes `%`
and two hexadecimal digits. -/
namespace Percent

def isAsciiAlphanumeric (byte : UInt8) : Bool :=
  (48 ≤ byte && byte ≤ 57) || (65 ≤ byte && byte ≤ 90) || (97 ≤ byte && byte ≤ 122)

/-- The marks are `-`, `.`, `_` and `~`. -/
def isKept (byte : UInt8) : Bool :=
  isAsciiAlphanumeric byte || byte == 45 || byte == 46 || byte == 95 || byte == 126

def hexDigit (nibble : Nat) : Char :=
  (['0', '1', '2', '3', '4', '5', '6', '7', '8', '9', 'A', 'B', 'C', 'D', 'E', 'F'][nibble]?).getD '0'

def encodeByte (byte : UInt8) : List Char :=
  if isKept byte then [Char.ofNat byte.toNat]
  else ['%', hexDigit (byte.toNat / 16), hexDigit (byte.toNat % 16)]

def encode (value : String) : String := String.ofList ((Utf8.bytes value).flatMap encodeByte)

theorem hexDigit_injective {a b : Nat} (ha : a < 16) (hb : b < 16) (h : hexDigit a = hexDigit b) :
    a = b := by
  have hall : ∀ a : Fin 16, ∀ b : Fin 16, hexDigit a = hexDigit b → a = b := by decide
  exact congrArg Fin.val (hall ⟨a, ha⟩ ⟨b, hb⟩ h)

theorem hexDigit_ne_slash {nibble : Nat} (h : nibble < 16) : hexDigit nibble ≠ '/' := by
  have hall : ∀ nibble : Fin 16, hexDigit nibble ≠ '/' := by decide
  exact hall ⟨nibble, h⟩

/-- A byte that is kept is ASCII, and neither `%` nor `/`. -/
theorem toNat_of_kept {byte : UInt8} (h : isKept byte = true) :
    byte.toNat < 128 ∧ byte.toNat ≠ 37 ∧ byte.toNat ≠ 47 := by
  simp only [isKept, isAsciiAlphanumeric, Bool.or_eq_true, Bool.and_eq_true, decide_eq_true_eq,
    beq_iff_eq, UInt8.le_iff_toNat_le, ← UInt8.toNat_inj, UInt8.reduceToNat] at h
  omega

theorem toNat_ofNat_of_kept {byte : UInt8} (h : isKept byte = true) :
    (Char.ofNat byte.toNat).toNat = byte.toNat := by
  have hvalid : byte.toNat.isValidChar := .inl (by
    have := (toNat_of_kept h).1
    omega)
  rw [Char.ofNat, dif_pos hvalid]
  rfl

/-- The first character of a kept byte is not the one of an escape. -/
theorem ofNat_ne_percent {byte : UInt8} (h : isKept byte = true) : Char.ofNat byte.toNat ≠ '%' := by
  intro heq
  have hcode := congrArg Char.toNat heq
  rw [toNat_ofNat_of_kept h] at hcode
  exact (toNat_of_kept h).2.1 hcode

/-- The text of one byte tells the byte, and where the text ends. -/
theorem encodeByte_prefix {a b : UInt8} {x y : List Char}
    (h : encodeByte a ++ x = encodeByte b ++ y) : a = b ∧ x = y := by
  unfold encodeByte at h
  by_cases ha : isKept a = true <;> by_cases hb : isKept b = true
  · rw [if_pos ha, if_pos hb] at h
    obtain ⟨hchar, hrest⟩ := List.cons.inj h
    have hcode := congrArg Char.toNat hchar
    rw [toNat_ofNat_of_kept ha, toNat_ofNat_of_kept hb] at hcode
    exact ⟨UInt8.toNat_inj.mp hcode, hrest⟩
  · rw [if_pos ha, if_neg hb] at h
    exact absurd (List.cons.inj h).1 (ofNat_ne_percent ha)
  · rw [if_neg ha, if_pos hb] at h
    exact absurd (List.cons.inj h).1.symm (ofNat_ne_percent hb)
  · rw [if_neg ha, if_neg hb] at h
    simp only [List.cons_append, List.cons.injEq, true_and, List.nil_append] at h
    obtain ⟨hhigh, hlow, hrest⟩ := h
    have hbytes := a.toNat_lt
    have hbytes' := b.toNat_lt
    have hhigh' := hexDigit_injective (by omega) (by omega) hhigh
    have hlow' := hexDigit_injective (by omega) (by omega) hlow
    exact ⟨UInt8.toNat_inj.mp (by omega), hrest⟩

theorem encodeByte_ne_nil (byte : UInt8) : encodeByte byte ≠ [] := by
  unfold encodeByte
  split <;> simp

theorem slash_notMem_encodeByte (byte : UInt8) : '/' ∉ encodeByte byte := by
  have hbyte := byte.toNat_lt
  unfold encodeByte
  by_cases h : isKept byte = true
  · rw [if_pos h, List.mem_singleton]
    intro heq
    have hcode := congrArg Char.toNat heq
    rw [toNat_ofNat_of_kept h] at hcode
    exact (toNat_of_kept h).2.2 hcode.symm
  · have hhigh := hexDigit_ne_slash (show byte.toNat / 16 < 16 by omega)
    have hlow := hexDigit_ne_slash (show byte.toNat % 16 < 16 by omega)
    rw [if_neg h]
    simp [hhigh.symm, hlow.symm]

theorem encodeBytes_injective {a b : List UInt8}
    (h : a.flatMap encodeByte = b.flatMap encodeByte) : a = b := by
  induction a generalizing b with
  | nil =>
    cases b with
    | nil => rfl
    | cons byte b => exact absurd (List.append_eq_nil_iff.mp h.symm).1 (encodeByte_ne_nil byte)
  | cons byte a ih =>
    cases b with
    | nil => exact absurd (List.append_eq_nil_iff.mp h).1 (encodeByte_ne_nil byte)
    | cons other b =>
      obtain ⟨rfl, hrest⟩ := encodeByte_prefix h
      rw [ih hrest]

theorem encode_injective : Function.Injective encode := by
  intro a b h
  exact Utf8.bytes_injective (encodeBytes_injective (String.ofList_injective h))

theorem slash_notMem_encode (value : String) : '/' ∉ (encode value).toList := by
  rw [encode, String.toList_ofList, List.mem_flatMap]
  rintro ⟨byte, _, hslash⟩
  exact slash_notMem_encodeByte byte hslash

end Percent
