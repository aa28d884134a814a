import Postgresem.Foundation.Grammar
import Postgresem.Foundation.Lines
import Postgresem.Gateway.Authenticate

/-! The grammar of the `Authorization` header. -/
namespace Postgresem.Gateway
open Control Grammar
open scoped Computability

section Header

def isPadding (c : Char) : Bool := c == ' ' || c == '\t'

def segmentGrammar : Language Char := oneOf isBase64UrlChar * (oneOf isBase64UrlChar)∗

/-- Three segments with a dot between them -/
def tokenGrammar : Language Char :=
  segmentGrammar * (letter '.' * (segmentGrammar * (letter '.' * segmentGrammar)))

/-- The word `bearer` in any letter case, and what stands around it and the token. -/
structure IsBearer (maxTokenBytes : Nat) (header token : String) : Prop where
  shape : ∃ before scheme spaces after, header.toList =
      before ++ (scheme ++ (spaces ++ token.toList) ++ after) ∧
    (∀ c ∈ before, isPadding c = true) ∧ (∀ c ∈ after, isPadding c = true) ∧
    scheme.map asciiLower = "bearer".toList ∧ spaces ≠ [] ∧ ∀ c ∈ spaces, c = ' '
  wellFormed : token.toList ∈ tokenGrammar
  bounded : token.utf8ByteSize ≤ maxTokenBytes

end Header

section Tokens

variable {c : Char}

/-- A character of a segment is visible ASCII. -/
theorem toNat_of_base64Url (h : isBase64UrlChar c = true) : 32 < c.toNat ∧ c.toNat < 128 := by
  simp only [isBase64UrlChar, isAsciiAlphanumeric, isAsciiAlphabetic, Bool.or_eq_true,
    Bool.and_eq_true, decide_eq_true_eq, beq_iff_eq, Char.le_def, UInt32.le_iff_toNat_le] at h
  change ((((97 ≤ c.toNat ∧ c.toNat ≤ 122) ∨ (65 ≤ c.toNat ∧ c.toNat ≤ 90)) ∨
    (48 ≤ c.toNat ∧ c.toNat ≤ 57)) ∨ c = '-') ∨ c = '_' at h
  obtain (h | rfl) | rfl := h
  · omega
  · decide
  · decide

theorem base64Url_ne_dot (h : isBase64UrlChar c = true) : c ≠ '.' := by
  rintro rfl
  cases h

/-- Three parts between dots are the parts of one text. -/
theorem mem_tokenGrammar (token : List Char) :
    token ∈ tokenGrammar ↔ (token.splitOn '.').length = 3 ∧
      ∀ segment ∈ token.splitOn '.', segment ∈ segmentGrammar := by
  have hdot (segment : List Char) (h : segment ∈ segmentGrammar) : '.' ∉ segment := by
    intro hmem
    exact base64Url_ne_dot ((mem_oneOf_mul_kstar.mp h).2 '.' hmem) rfl
  constructor
  · intro h
    obtain ⟨a, ha, _, hdotted, rfl⟩ := Language.mem_mul.mp h
    obtain ⟨_, hrest, rfl⟩ := mem_letter_mul.mp hdotted
    obtain ⟨b, hb, _, hdotted', rfl⟩ := Language.mem_mul.mp hrest
    obtain ⟨c, hc, rfl⟩ := mem_letter_mul.mp hdotted'
    rw [List.splitOn_append_cons_self_of_not_mem (hdot a ha),
      List.splitOn_append_cons_self_of_not_mem (hdot b hb), List.splitOn_eq_singleton (hdot c hc)]
    exact ⟨rfl, by simp [ha, hb, hc]⟩
  · rintro ⟨hlength, hall⟩
    obtain ⟨a, b, c, hsplit⟩ := List.length_eq_three.mp hlength
    have htoken : ['.'].intercalate (token.splitOn '.') = token := List.intercalate_splitOn '.'
    rw [hsplit] at htoken hall
    simp only [List.forall_mem_cons, List.not_mem_nil, false_implies, implies_true, and_true]
      at hall
    obtain ⟨ha, hb, hc⟩ := hall
    rw [← htoken]
    exact Language.mem_mul.mpr ⟨a, ha, _, mem_letter_mul.mpr ⟨_, Language.mem_mul.mpr
      ⟨b, hb, _, mem_letter_mul.mpr ⟨c, hc, rfl⟩, rfl⟩, rfl⟩, by simp [List.intercalate]⟩

theorem segments_iff (token : List Char) :
    ((token.splitOn '.').length == 3 && (token.splitOn '.').all fun segment =>
      !segment.isEmpty && segment.all isBase64UrlChar) = true ↔ token ∈ tokenGrammar := by
  simp only [mem_tokenGrammar, segmentGrammar, mem_oneOf_mul_kstar, Bool.and_eq_true, beq_iff_eq,
    List.all_eq_true, Bool.not_eq_true', List.isEmpty_eq_false_iff]

/-- A token is not empty, and all of it is visible ASCII. -/
theorem token_visible {token : List Char} (h : token ∈ tokenGrammar) :
    token ≠ [] ∧ ∀ c ∈ token, 32 < c.toNat ∧ c.toNat < 128 := by
  have hsegment (segment : List Char) (h : segment ∈ segmentGrammar) :
      ∀ c ∈ segment, 32 < c.toNat ∧ c.toNat < 128 := fun c hc =>
    toNat_of_base64Url ((mem_oneOf_mul_kstar.mp h).2 c hc)
  obtain ⟨a, ha, _, hdotted, rfl⟩ := Language.mem_mul.mp h
  obtain ⟨_, hrest, rfl⟩ := mem_letter_mul.mp hdotted
  obtain ⟨b, hb, _, hdotted', rfl⟩ := Language.mem_mul.mp hrest
  obtain ⟨c, hc, rfl⟩ := mem_letter_mul.mp hdotted'
  refine ⟨fun hempty => (mem_oneOf_mul_kstar.mp ha).1 (List.append_eq_nil_iff.mp hempty).1, ?_⟩
  simp only [List.forall_mem_append, List.forall_mem_cons]
  exact ⟨hsegment a ha, by decide, hsegment b hb, by decide, hsegment c hc⟩

end Tokens

section Parser

theorem not_blank_of_visible {c : Char} (h : 32 < c.toNat ∧ c.toNat < 128) :
    isPadding c = false ∧ Text.isAsciiWhitespace c = false ∧ c ≠ ' ' := by
  have hne (other : Char) (hother : other.toNat ≤ 32) : c ≠ other := by
    rintro rfl
    omega
  have hspace := hne ' ' (by decide)
  have htab := hne '\t' (by decide)
  have hnewline := hne '\n' (by decide)
  have hreturn := hne '\r' (by decide)
  have hfeed : c.toNat ≠ 12 := by omega
  simp [isPadding, Text.isAsciiWhitespace, hspace, htab, hnewline, hreturn, hfeed]

theorem scheme_not_padding {scheme : List Char} (h : scheme.map asciiLower = "bearer".toList) :
    ∀ c ∈ scheme, isPadding c = false := by
  intro c hc
  have hlower : asciiLower c ∈ "bearer".toList := h ▸ List.mem_map_of_mem hc
  rw [isPadding, Bool.or_eq_false_iff, beq_eq_false_iff_ne, beq_eq_false_iff_ne]
  constructor
  · rintro rfl
    exact absurd hlower (by decide)
  · rintro rfl
    exact absurd hlower (by decide)

theorem space_not_mem {scheme : List Char} (h : ∀ c ∈ scheme, isPadding c = false) :
    ' ' ∉ scheme := fun hmem => by cases h ' ' hmem

/-- Nothing can be trimmed from a scheme and a token. -/
theorem trimmed_core {scheme spaces token : List Char} (hscheme : scheme ≠ [])
    (hplain : ∀ c ∈ scheme, isPadding c = false) (htoken : token ≠ [])
    (hvisible : ∀ c ∈ token, 32 < c.toNat ∧ c.toNat < 128) :
    Text.Trimmed isPadding (scheme ++ (spaces ++ token)) := by
  constructor
  · intro c hc
    rw [List.head?_append_of_ne_nil _ hscheme] at hc
    exact hplain c (List.mem_of_mem_head? hc)
  · intro c hc
    rw [List.getLast?_append_of_ne_nil _ (by simp [htoken]),
      List.getLast?_append_of_ne_nil _ htoken] at hc
    exact (not_blank_of_visible (hvisible c (List.mem_of_getLast? hc))).1

theorem extractBearer_complete {document : AuthorityDocument} {header token : String}
    (h : IsBearer document.serverLimits.maxTokenBytes header token) :
    extractBearer document header = .ok token := by
  obtain ⟨⟨before, scheme, spaces, after, hheader, hbefore, hafter, hscheme, hspaces, hall⟩,
    htoken, hbounded⟩ := h
  obtain ⟨hne, hvisible⟩ := token_visible htoken
  have hplain := scheme_not_padding hscheme
  have hword : scheme ≠ [] := by
    rintro rfl
    cases hscheme
  cases spaces with
  | nil => exact absurd rfl hspaces
  | cons space more =>
    obtain ⟨rfl, hmore⟩ := List.forall_mem_cons.mp hall
    have htrim : Text.trimMatches (fun c => c == ' ' || c == '\t') header.toList =
        scheme ++ ' ' :: (more ++ token.toList) := by
      rw [hheader]
      exact Text.trimMatches_padded hbefore (trimmed_core hword hplain hne hvisible) hafter
    have hrest : (more ++ token.toList).dropWhile (· == ' ') = token.toList := by
      rw [Text.dropWhile_append_of_all fun c hc => beq_iff_eq.mpr (hmore c hc)]
      apply Text.dropWhile_of_head
      intro c hc
      exact beq_eq_false_iff_ne.mpr
        (not_blank_of_visible (hvisible c (List.mem_of_mem_head? hc))).2.2
    have hblank : token.toList.any Text.isAsciiWhitespace = false := by
      rw [List.any_eq_false]
      intro c hc
      rw [(not_blank_of_visible (hvisible c hc)).2.1]
      exact Bool.false_ne_true
    have hascii : isAscii token = true := by
      rw [isAscii, List.all_eq_true]
      exact fun c hc => decide_eq_true (hvisible c hc).2
    have hnonempty : token.isEmpty = false := by
      rw [← Bool.not_eq_true, String.isEmpty_iff]
      rintro rfl
      exact hne rfl
    have hcore : (scheme ++ ' ' :: (more ++ token.toList)).isEmpty = false := by
      simp
    simp only [extractBearer, htrim, hcore, Text.splitOnce_append (space_not_mem hplain), hrest,
      hscheme, hblank, hascii, String.ofList_toList, hnonempty, (segments_iff _).mpr htoken,
      hbounded, decide_true, beq_self_eq_true, Bool.not_false, ensure_true, orError_some, ok_bind]

theorem extractBearer_sound {document : AuthorityDocument} {header token : String}
    (h : extractBearer document header = .ok token) :
    IsBearer document.serverLimits.maxTokenBytes header token := by
  simp only [extractBearer, bind_eq_ok, ensure_eq_ok, exists_const, orError_eq_ok, Prod.exists,
    Except.ok.injEq] at h
  obtain ⟨_, scheme, rest, hsplit, hscheme, _, _, hbounded, _, hsegments, rfl⟩ := h
  obtain ⟨hcore, _⟩ := Text.splitOnce_some hsplit
  obtain ⟨before, after, hheader, hbefore, hafter⟩ := Text.trimMatches_split isPadding header.toList
  have hrest := List.takeWhile_append_dropWhile (p := fun c : Char => c == ' ') (l := rest)
  refine ⟨⟨before, scheme, ' ' :: rest.takeWhile (· == ' '), after, ?_, hbefore, hafter,
    beq_iff_eq.mp hscheme, by simp, ?_⟩, (segments_iff _).mp hsegments, by simpa using hbounded⟩
  · rw [String.toList_ofList, List.cons_append, hrest, ← hcore]
    exact hheader
  · rw [List.forall_mem_cons]
    exact ⟨rfl, fun c hc => beq_iff_eq.mp (List.mem_takeWhile_imp (p := fun c => c == ' ') hc)⟩

end Parser

/-- The parser accepts exactly its grammar, and answers with the token. -/
theorem extractBearer_eq_ok (document : AuthorityDocument) (header token : String) :
    extractBearer document header = .ok token ↔
      IsBearer document.serverLimits.maxTokenBytes header token :=
  ⟨extractBearer_sound, extractBearer_complete⟩

end Postgresem.Gateway
