import Postgresem.Mutation.Lsm
import Postgresem.Compiler.Render
import Postgresem.Semantic.HashText

/-! Compilation of a logical semantic mutation to one `INSERT` statement. -/
namespace Postgresem
open Control

def mutationCompilerSemanticVersion : String := "0.1.0"

structure MutationCapabilities where
  profile : String
  writableModels : List String
  deriving DecidableEq, Repr

def MutationCapabilities.allows (capabilities : MutationCapabilities) (model : String) : Bool :=
  decide (model ∈ capabilities.writableModels)

structure MutationCompilerOptions where
  hardRowLimit : Nat := 100
  hardRequestByteLimit : Nat := 1048576
  deriving DecidableEq, Repr

structure MutationParameter where
  position : Nat
  dataType : DataType
  value : MutationValue
  deriving DecidableEq, Repr

structure MutationLineage where
  model : String
  fields : List String
  returningFields : List String
  sourceColumns : List String
  deriving DecidableEq, Repr

structure CompiledMutation where
  statement : String
  parameters : List MutationParameter
  returningSchema : List OutputColumn
  lineage : MutationLineage
  mutationHash : String
  statementHash : String
  expectedRows : Nat
  operation : MutationOperation
  model : String
  deriving DecidableEq, Repr

inductive MutationCompileError where
  | unsupportedSnapshotVersion (version : String)
  | invalidRevisionHash
  | invalidLimitConfiguration
  | modelNotWritable
  | operationNotEnabled
  | rowLimitExceeded
  | requestByteLimitExceeded
  | invalidWritableModel
  | fieldNotWritable (field : String)
  | requiredFieldMissing (field : String)
  | fieldTypeMismatch (field : String)
  | nullNotAllowed (field : String)
  | conflictFieldMissing (field : String)
  | noUpdatableField
  | hashSerialization
  deriving DecidableEq, Repr

/-- The library code that a compiled mutation is hashed with. -/
structure MutationBackend extends HashBackend where
  parametersJson : List MutationParameter → Option String

def MutationParameter.json (parameter : MutationParameter) : String :=
  Json.object [("position", toString parameter.position), ("data_type", parameter.dataType.json),
    ("value", parameter.value.json)]

def standardMutationBackend : MutationBackend :=
  { standardHash with
    parametersJson := fun parameters => some (Json.array (parameters.map MutationParameter.json)) }

def validateMutationSnapshot (backend : HashBackend) (snapshot : SemanticSnapshot) :
    Except MutationCompileError Unit := do
  ensure (snapshot.schemaVersion == "1" || snapshot.schemaVersion == "2")
    (.unsupportedSnapshotVersion snapshot.schemaVersion)
  ensure (isSha256 snapshot.revisionHash) .invalidRevisionHash
  let hash ← orError (snapshot.calculateRevisionHash backend) .hashSerialization
  ensure (hash == snapshot.revisionHash) .invalidRevisionHash

theorem validateMutationSnapshot_ok {backend : HashBackend} {snapshot : SemanticSnapshot}
    {u : Unit} : validateMutationSnapshot backend snapshot = .ok u ↔
      (snapshot.schemaVersion = "1" ∨ snapshot.schemaVersion = "2") ∧
        snapshot.calculateRevisionHash backend = some snapshot.revisionHash := by
  simp only [validateMutationSnapshot, bind_eq_ok, ensure_eq_ok, exists_const, orError_eq_ok,
    Bool.or_eq_true, beq_iff_eq]
  constructor
  · rintro ⟨hversion, -, hash, hhash, rfl⟩
    exact ⟨hversion, hhash⟩
  · rintro ⟨hversion, hhash⟩
    exact ⟨hversion, isSha256_of_published hhash, _, hhash, rfl⟩

/-- A field of the model that is a column of its own relation. -/
def isDirectField (fields : List (String × Field)) (name : String) : Bool :=
  (fields.lookup name).any fun field => field.relationship.isNone

/-- Checks the items in order against those already seen; `accepts` is the rest of the check. -/
def validateSeen {α : Type} (name : α → String) (accepts : α → Bool) :
    List String → List α → Except MutationCompileError Unit
  | _, [] => .ok ()
  | seen, item :: rest => do
      ensure (decide (name item ∉ seen) && accepts item) .invalidWritableModel
      validateSeen name accepts (name item :: seen) rest

def isKeyPolicy (fields : List WritableField) (name : String) : Bool :=
  (fields.find? fun field => field.field == name).any fun policy => !policy.updatableOnConflict

def validateWritableModel (modelFields : List Field) (writable : WritableModel) :
    Except MutationCompileError Unit := do
  ensure (!((!writable.insert && writable.upsert.isNone) || writable.fields.isEmpty
      || writable.returning.isEmpty)) .invalidWritableModel
  let fields := OrderedMap.collect Field.semanticName modelFields
  validateSeen WritableField.field
    (fun field => !isBlank field.field && isDirectField fields field.field) [] writable.fields
  validateSeen id (isDirectField fields) [] writable.returning
  match writable.upsert with
  | none => .ok ()
  | some upsert => do
    ensure (!upsert.conflictFields.isEmpty) .invalidWritableModel
    validateSeen id (isKeyPolicy writable.fields) [] upsert.conflictFields

def isCompatibleValue : DataType → MutationValue → Bool
  | .text, .text _ | .boolean, .boolean _ | .integer, .integer _ | .numeric, .numeric _
  | .date, .date _ | .timestamp, .timestamp _ | .timestampTz, .timestamp _ => true
  | _, _ => false

def validateValue (field : Field) (writableField : WritableField) (value : MutationValue) :
    Except MutationCompileError Unit :=
  if value = .null then ensure writableField.nullable (.nullNotAllowed field.semanticName)
  else ensure (isCompatibleValue field.dataType value) (.fieldTypeMismatch field.semanticName)

/-- `row[name]`; every row of a valid mutation has the fields of the first one. -/
def MutationRow.value (row : MutationRow) (name : String) : MutationValue :=
  (row.entries.lookup name).getD .null

def checkModelLimits (mutation : LogicalSemanticMutation) (inputBytes : Nat)
    (writable : WritableModel) (options : MutationCompilerOptions) :
    Except MutationCompileError Unit := do
  ensure (!(writable.maxRows == 0 || decide (options.hardRowLimit < writable.maxRows)
      || writable.maxRequestBytes == 0
      || decide (options.hardRequestByteLimit < writable.maxRequestBytes))) .invalidWritableModel
  ensure (decide (mutation.rows.length ≤ writable.maxRows)) .rowLimitExceeded
  ensure (decide (inputBytes ≤ writable.maxRequestBytes)) .requestByteLimitExceeded
  match mutation.operation with
  | .insert => ensure writable.insert .operationNotEnabled
  | .upsert => ensure writable.upsert.isSome .operationNotEnabled

/-- One round of the loop over the fields of the mutation. -/
def checkInputField (mutation : LogicalSemanticMutation) (writable : WritableModel)
    (fields : List (String × Field)) (policies : List (String × WritableField)) (name : String) :
    Except MutationCompileError Unit := do
  let policy ← orError (policies.lookup name) (.fieldNotWritable name)
  let field ← orError (fields.lookup name) .invalidWritableModel
  ensure field.relationship.isNone .invalidWritableModel
  forEach (fun row => validateValue field policy (row.value name)) mutation.rows
  ensure (!(mutation.operation == .upsert && !policy.updatableOnConflict
      && !(writable.upsert.any fun upsert => decide (name ∈ upsert.conflictFields))))
    (.fieldNotWritable name)

/-- The checks of `compile_lsm` up to the loop over the fields of the mutation. -/
def admitMutation (normalized : NormalizedLsm) (model : Model)
    (options : MutationCompilerOptions) : Except MutationCompileError WritableModel := do
  let writable ← orError model.writable .modelNotWritable
  validateWritableModel model.fields writable
  checkModelLimits normalized.mutation normalized.inputBytes writable options
  forEach (checkInputField normalized.mutation writable (OrderedMap.collect Field.semanticName model.fields)
    (OrderedMap.collect WritableField.field writable.fields)) normalized.mutation.inputNames
  pure writable

def checkConflictField (inputNames : List String) (field : String) :
    Except MutationCompileError Unit :=
  ensure (decide (field ∈ inputNames)) (.conflictFieldMissing field)

def updatableNames (writable : WritableModel) (inputNames : List String) : List String :=
  inputNames.filter fun name =>
    ((OrderedMap.collect WritableField.field writable.fields).lookup name).any WritableField.updatableOnConflict

/-- The columns that an upsert overwrites; an insert has none. -/
def updateNames (mutation : LogicalSemanticMutation) (writable : WritableModel) :
    Except MutationCompileError (List String) :=
  match writable.upsert, mutation.operation with
  | some upsert, .upsert => do
    forEach (checkConflictField mutation.inputNames) upsert.conflictFields
    ensure (!(updatableNames writable mutation.inputNames).isEmpty) .noUpdatableField
    pure (updatableNames writable mutation.inputNames)
  | _, _ => .ok []

def checkRequiredField (inputNames : List String) (field : WritableField) :
    Except MutationCompileError Unit :=
  ensure (!field.requiredOnInsert || decide (field.field ∈ inputNames))
    (.requiredFieldMissing field.field)

def mutationTargetType : DataType → Option String
  | .boolean => some "boolean"
  | .integer => some "bigint"
  | .numeric => some "numeric"
  | .text => none
  | .date => some "date"
  | .timestamp => some "timestamp"
  | .timestampTz => some "timestamptz"

/-- A parameter is sent as text and cast to its type. -/
def mutationParameterSql (position : Nat) (dataType : DataType) : String :=
  match mutationTargetType dataType with
  | none => "$" ++ toString position ++ "::text"
  | some targetType => "$" ++ toString position ++ "::text::" ++ targetType

section Render
variable (fields : List (String × Field))

/-- `fields[name]`; the checks of the writable model leave no name without a field. -/
def fieldOf (name : String) : Field :=
  (fields.lookup name).getD { semanticName := name, dataType := .text, column := "" }

def columnOf (name : String) : String := (fieldOf fields name).column

/-- The parameters of one row, numbered from `position`. -/
def rowParameters (inputNames : List String) (row : MutationRow) (position : Nat) :
    List MutationParameter :=
  inputNames.zipIdx.map fun entry =>
    { position := position + entry.2 + 1, dataType := (fieldOf fields entry.1).dataType
      value := row.value entry.1 }

def parametersFrom (inputNames : List String) : List MutationRow → Nat → List MutationParameter
  | [], _ => []
  | row :: rows, position =>
    rowParameters fields inputNames row position
      ++ parametersFrom inputNames rows (position + inputNames.length)

def valueRows (inputNames : List String) : List MutationRow → Nat → List String
  | [], _ => []
  | row :: rows, position =>
    ("  (" ++ ", ".intercalate ((rowParameters fields inputNames row position).map fun parameter =>
        mutationParameterSql parameter.position parameter.dataType) ++ ")")
      :: valueRows inputNames rows (position + inputNames.length)

def insertText (relation : Relation) (mutation : LogicalSemanticMutation) : String :=
  "INSERT INTO " ++ quoteIdentifier relation.schema ++ "." ++ quoteIdentifier relation.relation
    ++ " (" ++ ", ".intercalate (mutation.inputNames.map fun name =>
        quoteIdentifier (columnOf fields name))
    ++ ")\nVALUES\n" ++ ",\n".intercalate (valueRows fields mutation.inputNames mutation.rows 0)

def conflictText (conflictFields updates : List String) : String :=
  "\nON CONFLICT (" ++ ", ".intercalate (conflictFields.map fun name =>
      quoteIdentifier (columnOf fields name))
    ++ ") DO UPDATE SET\n" ++ ",\n".intercalate (updates.map fun name =>
      "  " ++ quoteIdentifier (columnOf fields name) ++ " = EXCLUDED."
        ++ quoteIdentifier (columnOf fields name))

def returningText (returning : List String) : String :=
  "\nRETURNING\n" ++ ",\n".intercalate (returning.map fun name =>
    "  " ++ quoteIdentifier (columnOf fields name) ++ " AS " ++ quoteIdentifier name)

end Render

def mutationSourceColumns (fields : List (String × Field)) (relation : Relation)
    (names : List String) : List String :=
  OrderedSet.insertAll (names.map fun name => sourceColumn relation (columnOf fields name)) []

/-- The conflict clause of an upsert; an insert has none. -/
def conflictClause (mutation : LogicalSemanticMutation) (writable : WritableModel)
    (fields : List (String × Field)) (updates : List String) :
    Except MutationCompileError String :=
  match mutation.operation with
  | .insert => .ok ""
  | .upsert => (orError writable.upsert .invalidWritableModel).map fun upsert =>
      conflictText fields upsert.conflictFields updates

/-- The compiled mutation, once its conflict clause and the text of its parameters are known. -/
def assembleMutation (backend : MutationBackend) (normalized : NormalizedLsm)
    (snapshot : SemanticSnapshot) (relation : Relation) (returning : List String)
    (fields : List (String × Field)) (profile conflict parameterHashInput : String) :
    CompiledMutation :=
  let mutation := normalized.mutation
  let statement := insertText fields relation mutation ++ conflict ++ returningText fields returning
  let statementHash := backend.sha256 (bytesOf statement)
  { statement := statement
    parameters := parametersFrom fields mutation.inputNames mutation.rows 0
    returningSchema := returning.map fun name =>
      { name := name, dataType := (fieldOf fields name).dataType }
    lineage :=
      { model := mutation.model, fields := mutation.inputNames, returningFields := returning
        sourceColumns := mutationSourceColumns fields relation (mutation.inputNames ++ returning) }
    mutationHash := backend.sha256 (bytesOf (normalized.hash ++ "\n" ++ snapshot.revisionHash
      ++ "\n" ++ mutationCompilerSemanticVersion ++ "\n" ++ profile ++ "\n" ++ statementHash
      ++ "\n" ++ parameterHashInput))
    statementHash := statementHash
    expectedRows := mutation.rows.length
    operation := mutation.operation
    model := mutation.model }

def renderMutation (backend : MutationBackend) (normalized : NormalizedLsm)
    (snapshot : SemanticSnapshot) (relation : Relation) (writable : WritableModel)
    (fields : List (String × Field)) (updates : List String) (profile : String) :
    Except MutationCompileError CompiledMutation := do
  let conflict ← conflictClause normalized.mutation writable fields updates
  let parameterHashInput ← orError (backend.parametersJson
    (parametersFrom fields normalized.mutation.inputNames normalized.mutation.rows 0))
    .hashSerialization
  pure (assembleMutation backend normalized snapshot relation writable.returning fields profile
    conflict parameterHashInput)

/-- The rest of `compile_lsm`, for a mutation whose fields passed their checks. -/
def finishMutation (backend : MutationBackend) (normalized : NormalizedLsm)
    (snapshot : SemanticSnapshot) (model : Model) (writable : WritableModel) (profile : String) :
    Except MutationCompileError CompiledMutation := do
  let updates ← updateNames normalized.mutation writable
  forEach (checkRequiredField normalized.mutation.inputNames) writable.fields
  renderMutation backend normalized snapshot model.source writable
    (OrderedMap.collect Field.semanticName model.fields) updates profile

/-- The model that a mutation names: the first one of that name. -/
def SemanticSnapshot.mutationModel (snapshot : SemanticSnapshot) (name : String) : Option Model :=
  snapshot.models.find? fun model => model.semanticName == name

/-- The checks of `compile_lsm` that look at the request and its authority alone. -/
def checkMutationRequest (normalized : NormalizedLsm) (capabilities : MutationCapabilities)
    (options : MutationCompilerOptions) : Except MutationCompileError Unit := do
  ensure (!(options.hardRowLimit == 0 || options.hardRequestByteLimit == 0))
    .invalidLimitConfiguration
  ensure (!(isBlank capabilities.profile || !capabilities.allows normalized.mutation.model))
    .modelNotWritable

def compileLsm (backend : MutationBackend) (normalized : NormalizedLsm)
    (snapshot : SemanticSnapshot) (capabilities : MutationCapabilities)
    (options : MutationCompilerOptions) : Except MutationCompileError CompiledMutation := do
  validateMutationSnapshot backend.toHashBackend snapshot
  checkMutationRequest normalized capabilities options
  let model ← orError (snapshot.mutationModel normalized.mutation.model) .modelNotWritable
  let writable ← admitMutation normalized model options
  finishMutation backend normalized snapshot model writable capabilities.profile

end Postgresem
