import Postgresem.Mutation.Execute

/-! The rows that the executors keep. The query executor stops before the row that no longer fits,
the mutation executor fails there; both count the bytes of the array that they have not yet written. -/
namespace Postgresem.Executor
open Control Mutation

/-- The errors of the row loop of `execute_compiled`. -/
inductive RowError where
  | sourceCancelled
  | sourceExecution
  | invalidRowShape
  deriving DecidableEq, Repr

def sourceQueryError (queryCanceled : Bool) : RowError :=
  if queryCanceled then .sourceCancelled else .sourceExecution

structure ExecutionRows where
  rows : List Json.Value
  truncated : Bool
  byteCount : Nat

/-- The loop of `execute_compiled` over the rows of the source. -/
def collectRows (maxResultBytes : Nat) :
    List Fetch → List Json.Value → Nat → Except RowError ExecutionRows
  | [], rows, byteCount => .ok ⟨rows, false, byteCount⟩
  | .failed queryCanceled :: _, _, _ => .error (sourceQueryError queryCanceled)
  | .row value :: rest, rows, byteCount =>
    if value.isArray then
      let separatorBytes := if rows.isEmpty then 0 else 1
      if Usize.saturatingAdd (Usize.saturatingAdd byteCount separatorBytes) value.byteSize
          > maxResultBytes then .ok ⟨rows, true, byteCount⟩
      else collectRows maxResultBytes rest (rows ++ [value])
        (byteCount + separatorBytes + value.byteSize)
    else .error .invalidRowShape

def executeRows (maxResultBytes : Nat) (fetches : List Fetch) : Except RowError ExecutionRows :=
  collectRows maxResultBytes fetches [] 2

/-- `run_statement` on the same rows. -/
def statementRows (maxResultBytes : Nat) (fetches : List Fetch) :
    Except MutationExecuteError (List Json.Value) :=
  Mutation.collectRows maxResultBytes fetches [] 2

def RowError.mutation : RowError → MutationExecuteError
  | .sourceCancelled => .cancelled
  | .sourceExecution => .execution
  | .invalidRowShape => .invalidRowShape

/-! ## Sizes -/

/-- The bytes of the serialized array of the rows. -/
def arraySize (rows : List Json.Value) : Nat := (Json.Value.array rows).byteSize

theorem arraySize_nil : arraySize [] = 2 := by decide

theorem texts_concat (rows : List Json.Value) (value : Json.Value) :
    Json.Value.texts (rows ++ [value]) = Json.Value.texts rows ++ [value.text] := by
  induction rows with
  | nil => rfl
  | cons row rows ih => rw [List.cons_append, Json.Value.texts, ih, Json.Value.texts, List.cons_append]

/-- A row adds its own text, and a comma if it is not the first. -/
theorem arraySize_concat (rows : List Json.Value) (value : Json.Value) :
    arraySize (rows ++ [value]) =
      arraySize rows + (if rows.isEmpty then 0 else 1) + value.byteSize := by
  have hcomma : ",".utf8ByteSize = 1 := by decide
  have hopen : "[".utf8ByteSize = 1 := by decide
  have hclose : "]".utf8ByteSize = 1 := by decide
  cases rows with
  | nil =>
    rw [arraySize_nil, List.nil_append]
    simp only [arraySize, Json.Value.byteSize, Json.Value.text, Json.Value.texts, Json.array,
      String.intercalate_singleton, String.utf8ByteSize_append, hopen, hclose, List.isEmpty_nil,
      if_true]
    omega
  | cons row rows =>
    have hjoined := String.intercalate_append_of_ne_nil (s := ",") (l := Json.Value.texts (row :: rows))
      (m := [value.text]) (List.cons_ne_nil _ _) (List.cons_ne_nil _ _)
    simp only [arraySize, Json.Value.byteSize, Json.Value.text, texts_concat, Json.array, hjoined,
      String.intercalate_singleton, String.utf8ByteSize_append, hcomma, List.isEmpty_cons,
      Bool.false_eq_true, if_false]
    omega

theorem arraySize_mono {rows others : List Json.Value} (h : rows <+: others) :
    arraySize rows ≤ arraySize others := by
  obtain ⟨rest, rfl⟩ := h
  induction rest using List.reverseRecOn with
  | nil => simp
  | append_singleton rest value ih =>
    rw [← List.append_assoc, arraySize_concat]
    omega

/-! ## The loop -/

section Loop
variable {maxResultBytes : Nat}

/-- The longest prefix whose array fits; the empty one, where not even the empty array does. -/
structure LongestFitting (maxResultBytes : Nat) (source kept : List Json.Value) : Prop where
  isPrefix : kept <+: source
  fits : arraySize kept ≤ maxResultBytes ∨ kept = [] ∧ maxResultBytes < 2
  longest : ∀ other, other <+: source → arraySize other ≤ maxResultBytes → other <+: kept

/-- The test of one row, while the bytes so far are those of the rows kept. -/
theorem row_exceeds_iff {kept : List Json.Value} {value : Json.Value}
    (h : maxResultBytes < Usize.max ∨ arraySize (kept ++ [value]) ≤ Usize.max) :
    Usize.saturatingAdd (Usize.saturatingAdd (arraySize kept) (if kept.isEmpty then 0 else 1))
        value.byteSize > maxResultBytes ↔ maxResultBytes < arraySize (kept ++ [value]) := by
  rw [arraySize_concat] at h ⊢
  rw [Usize.saturatingAdd_assoc]
  exact Usize.lt_saturatingAdd_iff h

/-- From rows that were kept, the loop adds the longest part of the rest that still fits. -/
theorem collectRows_rows {kept rest : List Json.Value} (harrays : ∀ value ∈ rest, value.isArray = true)
    (h : maxResultBytes < Usize.max ∨ arraySize (kept ++ rest) ≤ Usize.max) :
    ∃ added, added <+: rest ∧
      collectRows maxResultBytes (rest.map .row) kept (arraySize kept) =
        .ok ⟨kept ++ added, decide (added ≠ rest), arraySize (kept ++ added)⟩ ∧
      (added ≠ [] → arraySize (kept ++ added) ≤ maxResultBytes) ∧
      ∀ other, other <+: rest → other ≠ [] → arraySize (kept ++ other) ≤ maxResultBytes →
        other <+: added := by
  induction rest generalizing kept with
  | nil =>
    refine ⟨[], List.prefix_rfl, ?_, fun hne => absurd rfl hne, fun other hother _ _ => hother⟩
    simp [collectRows]
  | cons value rest ih =>
    have hvalue : value.isArray = true := harrays value List.mem_cons_self
    have hfirst : kept ++ [value] <+: kept ++ value :: rest := by
      rw [List.prefix_append_right_inj]
      exact ⟨rest, rfl⟩
    have hbound : maxResultBytes < Usize.max ∨ arraySize (kept ++ [value]) ≤ Usize.max :=
      h.imp_right (arraySize_mono hfirst).trans
    by_cases hexceeds : maxResultBytes < arraySize (kept ++ [value])
    · refine ⟨[], List.nil_prefix, ?_, fun hne => absurd rfl hne, ?_⟩
      · simp only [List.map_cons, collectRows, hvalue, if_true]
        rw [if_pos ((row_exceeds_iff hbound).mpr hexceeds)]
        simp
      · intro other hother hne hfits
        obtain ⟨first, others, rfl⟩ := List.exists_cons_of_ne_nil hne
        obtain ⟨rfl, -⟩ := List.cons_prefix_cons.mp hother
        have hless : kept ++ [first] <+: kept ++ first :: others := by
          rw [List.prefix_append_right_inj]
          exact ⟨others, rfl⟩
        exact absurd (hexceeds.trans_le (arraySize_mono hless)) (Nat.not_lt.mpr hfits)
    · have hnext : kept ++ value :: rest = kept ++ [value] ++ rest := by simp
      rw [hnext] at h
      obtain ⟨added, hprefix, hloop, hfits, hlongest⟩ :=
        ih (fun other hother => harrays other (List.mem_cons_of_mem value hother)) h
      refine ⟨value :: added, ?_, ?_, ?_, ?_⟩
      · exact (List.prefix_cons_inj value).mpr hprefix
      · simp only [List.map_cons, collectRows, hvalue, if_true]
        rw [if_neg fun hgt => hexceeds ((row_exceeds_iff hbound).mp hgt), ← arraySize_concat, hloop]
        simp
      · intro _
        rw [List.append_cons]
        cases added with
        | nil => rw [List.append_nil]; exact Nat.not_lt.mp hexceeds
        | cons next added => exact hfits (List.cons_ne_nil _ _)
      · intro other hother hne hsize
        obtain ⟨first, others, rfl⟩ := List.exists_cons_of_ne_nil hne
        obtain ⟨rfl, hothers⟩ := List.cons_prefix_cons.mp hother
        rw [List.prefix_cons_inj]
        cases others with
        | nil => exact List.nil_prefix
        | cons next others =>
          rw [List.append_cons] at hsize
          exact hlongest _ hothers (List.cons_ne_nil _ _) hsize

/-- The mutation executor's loop is the other one, with truncation as an error. -/
theorem statementRows_eq (fetches : List Fetch) (rows : List Json.Value) (byteCount : Nat) :
    Mutation.collectRows maxResultBytes fetches rows byteCount = (do
      let result ← (collectRows maxResultBytes fetches rows byteCount).mapError RowError.mutation
      ensure (!result.truncated) .resultByteLimitExceeded
      pure result.rows) := by
  induction fetches generalizing rows byteCount with
  | nil => rfl
  | cons fetch rest ih =>
    cases fetch with
    | failed queryCanceled => cases queryCanceled <;> rfl
    | row value =>
      simp only [Mutation.collectRows, collectRows]
      by_cases hvalue : value.isArray = true
      · rw [if_pos hvalue, if_pos hvalue]
        generalize (if rows.isEmpty = true then 0 else 1) = separatorBytes
        by_cases hexceeds : Usize.saturatingAdd (Usize.saturatingAdd byteCount separatorBytes)
            value.byteSize > maxResultBytes
        · rw [if_pos hexceeds, if_pos hexceeds]
          rfl
        · rw [if_neg hexceeds, if_neg hexceeds]
          exact ih _ _
      · rw [if_neg hvalue, if_neg hvalue]
        rfl

end Loop

theorem executeRows_eq {maxResultBytes : Nat} {rows : List Json.Value}
    (harrays : ∀ value ∈ rows, value.isArray = true)
    (h : maxResultBytes < Usize.max ∨ arraySize rows ≤ Usize.max) :
    ∃ kept, executeRows maxResultBytes (rows.map .row) =
        .ok ⟨kept, decide (kept ≠ rows), arraySize kept⟩ ∧
      LongestFitting maxResultBytes rows kept := by
  have hbound : maxResultBytes < Usize.max ∨ arraySize ([] ++ rows) ≤ Usize.max := h
  obtain ⟨kept, hprefix, hloop, hfits, hlongest⟩ := collectRows_rows harrays hbound
  refine ⟨kept, hloop, hprefix, ?_, ?_⟩
  · by_cases hne : kept = []
    · rw [hne, arraySize_nil]
      exact (Nat.lt_or_ge maxResultBytes 2).symm.imp_right fun hsmall => ⟨rfl, hsmall⟩
    · exact .inl (hfits hne)
  · intro other hother hsize
    by_cases hne : other = []
    · rw [hne]
      exact List.nil_prefix
    · exact hlongest other hother hne hsize

/-- The query executor returns the longest prefix of the rows that fits, and its exact size; the
mutation executor returns the rows if all of them fit or there are none. Against a limit of the
largest word, the bytes of the rows have to be a number of a word. -/
theorem truncation_exact (maxResultBytes : Nat) (rows : List Json.Value)
    (harrays : ∀ value ∈ rows, value.isArray = true)
    (h : maxResultBytes < Usize.max ∨ arraySize rows ≤ Usize.max) :
    (∃ result, executeRows maxResultBytes (rows.map .row) = .ok result ∧
      LongestFitting maxResultBytes rows result.rows ∧
      result.byteCount = arraySize result.rows ∧
      (result.truncated = true ↔ result.rows ≠ rows)) ∧
    statementRows maxResultBytes (rows.map .row) =
      if rows ≠ [] ∧ maxResultBytes < arraySize rows then .error .resultByteLimitExceeded
      else .ok rows := by
  obtain ⟨kept, hrun, hkept⟩ := executeRows_eq harrays h
  refine ⟨⟨_, hrun, hkept, rfl, by simp⟩, ?_⟩
  have hcomplete : kept = rows ↔ ¬ (rows ≠ [] ∧ maxResultBytes < arraySize rows) := by
    constructor
    · rintro rfl ⟨hne, hexceeds⟩
      rcases hkept.fits with hfits | ⟨hempty, -⟩
      · omega
      · exact hne hempty
    · intro hfits
      by_cases hempty : rows = []
      · rw [hempty]
        exact List.prefix_nil.mp (hempty ▸ hkept.isPrefix)
      · have hsize : arraySize rows ≤ maxResultBytes :=
          Nat.not_lt.mp fun hexceeds => hfits ⟨hempty, hexceeds⟩
        exact hkept.isPrefix.eq_of_length_le
          (hkept.longest rows List.prefix_rfl hsize).length_le
  rw [statementRows, statementRows_eq]
  rw [executeRows] at hrun
  rw [hrun, mapError_ok, ok_bind]
  by_cases hexceeds : rows ≠ [] ∧ maxResultBytes < arraySize rows
  · have hne : kept ≠ rows := fun heq => hcomplete.mp heq hexceeds
    rw [if_pos hexceeds, decide_eq_true hne]
    rfl
  · obtain rfl := hcomplete.mpr hexceeds
    rw [if_neg hexceeds]
    simp [pure_ok]

def numberRow (text : String) : Json.Value := .array [.number text]

/-- Ten bytes hold two rows of one digit, brackets and comma included, and nothing more. -/
theorem truncation_exact_two_rows : ∃ result,
    executeRows 10 ([numberRow "1", numberRow "2", numberRow "3"].map .row) = .ok result ∧
      LongestFitting 10 [numberRow "1", numberRow "2", numberRow "3"] result.rows ∧
      result.byteCount = arraySize result.rows := by
  obtain ⟨⟨result, hrun, hkept, hbytes, -⟩, -⟩ := truncation_exact 10
    [numberRow "1", numberRow "2", numberRow "3"] (by decide) (.inl (by decide))
  exact ⟨result, hrun, hkept, hbytes⟩

/-- No array fits into one byte, but the empty one is returned. -/
theorem one_byte_overrun : ∃ result, executeRows 1 [] = .ok result ∧ result.rows = [] ∧
    result.byteCount = 2 ∧ result.truncated = false ∧ 1 < arraySize result.rows :=
  ⟨_, rfl, rfl, rfl, rfl, by decide⟩

end Postgresem.Executor
