import Postgresem.Semantic.Snapshot

/-! The text of a hash: its scheme and 64 lower-case hexadecimal digits. -/
namespace Postgresem

theorem bytesOf_length (value : String) : (bytesOf value).length = value.utf8ByteSize := by
  rw [bytesOf, Array.length_toList]
  rfl

theorem utf8ByteSize_ascii {chars : List Char} (h : ∀ c ∈ chars, c.utf8Size = 1) :
    (String.ofList chars).utf8ByteSize = chars.length := by
  induction chars with
  | nil => rfl
  | cons c cs ih =>
    have hcons : String.ofList (c :: cs) = String.singleton c ++ String.ofList cs := by
      apply String.toList_injective
      simp
    rw [hcons, String.utf8ByteSize_append, String.utf8ByteSize_singleton,
      h c List.mem_cons_self, ih fun d hd => h d (List.mem_cons_of_mem c hd), List.length_cons,
      Nat.add_comm]

theorem hexDigit_lower (nibble : Nat) :
    isLowerHex (hexDigit nibble) = true ∧ (hexDigit nibble).utf8Size = 1 := by
  by_cases h : nibble < 16
  · revert nibble
    decide
  · have hnone : hexDigit nibble = '0' := by
      rw [hexDigit, List.getElem?_eq_none (by simpa using Nat.le_of_not_lt h), Option.getD_none]
    rw [hnone]
    decide

theorem hexBytes_lower (bytes : List UInt8) :
    ∀ c ∈ bytes.flatMap hexByte, isLowerHex c = true ∧ c.utf8Size = 1 := by
  intro c hc
  obtain ⟨byte, -, hbyte⟩ := List.mem_flatMap.mp hc
  simp only [hexByte, List.mem_cons, List.not_mem_nil, or_false] at hbyte
  rcases hbyte with rfl | rfl
  · exact hexDigit_lower _
  · exact hexDigit_lower _

/-- What the backend writes is a hash with its scheme. -/
theorem isSha256_sha256 (backend : HashBackend) (value : List UInt8) :
    isSha256 (backend.sha256 value) = true := by
  have hlower := hexBytes_lower (backend.digest value).toList
  have hlength : ((backend.digest value).toList.flatMap hexByte).length = 64 := by
    simp [hexByte, List.length_flatMap]
  have hsize : (backend.sha256 value).utf8ByteSize = 71 := by
    rw [HashBackend.sha256, String.utf8ByteSize_append,
      utf8ByteSize_ascii fun c hc => (hlower c hc).2, hlength]
    rfl
  have hlist : (backend.sha256 value).toList =
      "sha256:".toList ++ (backend.digest value).toList.flatMap hexByte := by
    rw [HashBackend.sha256, String.toList_append]
    exact congrArg (_ ++ ·) String.toList_ofList
  have hdrop : (backend.sha256 value).toList.drop 7 =
      (backend.digest value).toList.flatMap hexByte := by
    rw [hlist]
    rfl
  rw [isSha256, bytesOf_length, hsize, hdrop, hlist]
  simp only [Bool.and_eq_true, beq_self_eq_true, true_and, List.all_eq_true]
  exact ⟨by simp, fun c hc => (hlower c hc).1⟩

theorem utf8Size_of_isLowerHex {c : Char} (h : isLowerHex c = true) : c.utf8Size = 1 := by
  have hle : c.toNat ≤ 102 := by
    simp only [isLowerHex, Bool.or_eq_true, Bool.and_eq_true, decide_eq_true_eq, Char.le_def,
      UInt32.le_iff_toNat_le] at h
    rcases h with h | h
    · exact h.2.trans (by decide)
    · exact h.2
  rw [Char.utf8Size_eq_one_iff, UInt32.le_iff_toNat_le]
  exact hle.trans (by decide)

/-- The characters of a hash. -/
theorem toList_of_isSha256 {value : String} (h : isSha256 value = true) :
    ∃ digits, value.toList = "sha256:".toList ++ digits ∧ digits.length = 64 ∧
      ∀ c ∈ digits, isLowerHex c = true := by
  simp only [isSha256, Bool.and_eq_true, beq_iff_eq, List.all_eq_true] at h
  obtain ⟨⟨hbytes, hscheme⟩, hdigits⟩ := h
  obtain ⟨digits, hlist⟩ := List.isPrefixOf_iff_prefix.mp hscheme
  have hdrop : value.toList.drop 7 = digits := by
    rw [← hlist]
    rfl
  rw [hdrop] at hdigits
  refine ⟨digits, hlist.symm, ?_, hdigits⟩
  have hname : ∀ c ∈ "sha256:".toList, c.utf8Size = 1 := by simp [Char.utf8Size_eq_one_iff]
  have hascii : ∀ c ∈ value.toList, c.utf8Size = 1 := by
    intro c hc
    rw [← hlist] at hc
    rcases List.mem_append.mp hc with hc | hc
    · exact hname c hc
    · exact utf8Size_of_isLowerHex (hdigits c hc)
  have hsize := utf8ByteSize_ascii hascii
  rw [String.ofList_toList, ← bytesOf_length, hbytes, ← hlist, List.length_append] at hsize
  have hseven : "sha256:".toList.length = 7 := rfl
  omega

theorem length_of_isSha256 {value : String} (h : isSha256 value = true) : value.length = 71 := by
  obtain ⟨digits, hlist, hlength, -⟩ := toList_of_isSha256 h
  rw [← String.length_toList, hlist, List.length_append, hlength]
  rfl

/-- No bar separates the parts of a hash. -/
theorem bar_notMem_of_isSha256 {value : String} (h : isSha256 value = true) :
    '|' ∉ value.toList := by
  obtain ⟨digits, hlist, -, hdigits⟩ := toList_of_isSha256 h
  rw [hlist, List.mem_append, not_or]
  refine ⟨by decide, fun hbar => ?_⟩
  have hlower := hdigits '|' hbar
  revert hlower
  decide

theorem isSha256_of_published {backend : HashBackend} {snapshot : SemanticSnapshot}
    (h : snapshot.calculateRevisionHash backend = some snapshot.revisionHash) :
    isSha256 snapshot.revisionHash = true := by
  obtain ⟨bytes, -, hhash⟩ := Option.map_eq_some_iff.mp h
  rw [← hhash]
  exact isSha256_sha256 backend bytes

end Postgresem
