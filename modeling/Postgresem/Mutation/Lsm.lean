import Postgresem.Foundation.OrderedMap
import Postgresem.Query.Lsq
import Postgresem.Semantic.Json

/-! The logical semantic mutation document and the checks of `normalize_lsm` after parsing. -/
namespace Postgresem
open Control

def lsmSchemaVersion : String := "1"
def maxInputBytes : Nat := 1048576
def maxMutationRows : Nat := 100
def maxFieldsPerRow : Nat := 64
def maxSemanticNameBytes : Nat := 255
def maxIdempotencyKeyBytes : Nat := 256

inductive MutationOperation where
  | insert | upsert
  deriving DecidableEq, Repr

inductive MutationValue where
  | null
  | text (value : String)
  | boolean (value : Bool)
  | integer (value : Int)
  | numeric (value : String)
  | date (value : String)
  | timestamp (value : String)
  deriving DecidableEq, Repr

/-- One row, a `BTreeMap` from semantic fields to values. -/
structure MutationRow where
  entries : List (String × MutationValue)
  sorted : OrderedMap.Sorted entries
  deriving DecidableEq

structure LogicalSemanticMutation where
  schemaVersion : String := "1"
  operation : MutationOperation
  model : String
  idempotencyKey : String
  rows : List MutationRow
  deriving DecidableEq

inductive LsmError where
  | inputTooLarge
  | invalidJson
  | unsupportedSchemaVersion (version : String)
  | invalidModel
  | invalidIdempotencyKey
  | invalidRowCount
  | invalidFieldCount
  | invalidFieldName
  | inconsistentRowFields
  | invalidValue
  deriving DecidableEq, Repr

def MutationRow.keys (row : MutationRow) : List String := row.entries.map Prod.fst

def MutationValue.asLiteral : MutationValue → Option Literal
  | .null => none
  | .text value => some (.text value)
  | .boolean value => some (.boolean value)
  | .integer value => some (.integer value)
  | .numeric value => some (.numeric value)
  | .date value => some (.date value)
  | .timestamp value => some (.timestamp value)

def MutationValue.isWellFormed (value : MutationValue) : Bool :=
  value.asLiteral.all Literal.isWellFormed

def validBoundedText (value : String) (maximumBytes : Nat) : Bool :=
  !isBlank value && decide (value.utf8ByteSize ≤ maximumBytes)

def validateEntry (entry : String × MutationValue) : Except LsmError Unit := do
  ensure (validBoundedText entry.1 maxSemanticNameBytes) .invalidFieldName
  ensure entry.2.isWellFormed .invalidValue

def validateRow (expected : List String) (row : MutationRow) : Except LsmError Unit := do
  ensure (!(row.entries.isEmpty || decide (maxFieldsPerRow < row.entries.length)))
    .invalidFieldCount
  ensure (row.keys == expected) .inconsistentRowFields
  forEach validateEntry row.entries

/-- The fields of the first row, in the order of the map. -/
def LogicalSemanticMutation.inputNames (mutation : LogicalSemanticMutation) : List String :=
  (mutation.rows.head?.map MutationRow.keys).getD []

def validateMutation (mutation : LogicalSemanticMutation) : Except LsmError Unit := do
  ensure (mutation.schemaVersion == lsmSchemaVersion)
    (.unsupportedSchemaVersion mutation.schemaVersion)
  ensure (validBoundedText mutation.model maxSemanticNameBytes) .invalidModel
  ensure (validBoundedText mutation.idempotencyKey maxIdempotencyKeyBytes) .invalidIdempotencyKey
  ensure (!(mutation.rows.isEmpty || decide (maxMutationRows < mutation.rows.length)))
    .invalidRowCount
  forEach (validateRow mutation.inputNames) mutation.rows

def MutationOperation.json : MutationOperation → String
  | .insert => Json.string "insert"
  | .upsert => Json.string "upsert"

def MutationValue.json : MutationValue → String
  | .null => Json.object [("type", Json.string "null")]
  | .text value => (Literal.text value).json
  | .boolean value => (Literal.boolean value).json
  | .integer value => (Literal.integer value).json
  | .numeric value => (Literal.numeric value).json
  | .date value => (Literal.date value).json
  | .timestamp value => (Literal.timestamp value).json

def MutationRow.json (row : MutationRow) : String :=
  Json.object (row.entries.map fun entry => (entry.1, entry.2.json))

def LogicalSemanticMutation.json (mutation : LogicalSemanticMutation) : String :=
  Json.object [("schema_version", Json.string mutation.schemaVersion),
    ("operation", mutation.operation.json), ("model", Json.string mutation.model),
    ("idempotency_key", Json.string mutation.idempotencyKey),
    ("rows", Json.array (mutation.rows.map MutationRow.json))]

/-- A parsed mutation that passed validation, with the hashes of its canonical JSON text and of
its idempotency key. -/
structure NormalizedLsm where
  mutation : LogicalSemanticMutation
  canonicalJson : String
  hash : String
  idempotencyKeyHash : String
  inputBytes : Nat
  valid : validateMutation mutation = .ok ()

/-- `normalize_lsm` after parsing, for a mutation that passes its checks. -/
def LogicalSemanticMutation.normalize (backend : HashBackend) (inputBytes : Nat)
    (mutation : LogicalSemanticMutation) (valid : validateMutation mutation = .ok ()) :
    NormalizedLsm :=
  { mutation := mutation
    canonicalJson := mutation.json
    hash := backend.sha256 (bytesOf mutation.json)
    idempotencyKeyHash := backend.sha256 (bytesOf mutation.idempotencyKey)
    inputBytes := inputBytes
    valid := valid }

/-- Every row has a value for every field of the first row. -/
theorem NormalizedLsm.keys_eq (normalized : NormalizedLsm) {row : MutationRow}
    (hrow : row ∈ normalized.mutation.rows) : row.keys = normalized.mutation.inputNames := by
  have h := normalized.valid
  simp only [validateMutation, bind_eq_ok, ensure_eq_ok, exists_const, forEach_eq_ok] at h
  have hvalid := h.2.2.2.2 row hrow
  simp only [validateRow, bind_eq_ok, ensure_eq_ok, exists_const, beq_iff_eq] at hvalid
  exact hvalid.2.1

end Postgresem
