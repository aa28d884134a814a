import Postgresem.Compiler.Lineage
import Postgresem.Execution.Config
import Postgresem.Execution.Truncation
import Postgresem.Execution.Wrapper
import Postgresem.Foundation.RelyGuarantee
import Postgresem.Query.Decoding

/-! `execute_with_cancel` of the query executor, as a program over what it asks of its two
connections, of the clock and of the holder of the cancel handle. -/
namespace Postgresem.Executor
open Control RelyGuarantee Mutation

inductive ExecuteError where
  | runtimeConnect
  | auditConnect
  | transactionConfiguration
  | publishedModel
  | lsq (error : LsqError)
  | compile (error : CompileError)
  | startedAudit
  | terminalAudit
  | startSourceTransaction
  | databaseRoleNotFound
  | databaseRoleMembership
  | unsafeDatabaseRole
  | sourceRelationNotFound
  | sourceRelationOwner
  | sourceCancelled
  | sourceCancellationRequested
  | sourceExecution
  | sourceCommit
  | invalidRowShape

def executionErrorCode : ExecuteError → String
  | .databaseRoleNotFound => "EXECUTOR_DATABASE_ROLE_NOT_FOUND"
  | .databaseRoleMembership => "EXECUTOR_DATABASE_ROLE_MEMBERSHIP_DENIED"
  | .unsafeDatabaseRole => "EXECUTOR_UNSAFE_DATABASE_ROLE"
  | .sourceRelationNotFound => "EXECUTOR_SOURCE_RELATION_NOT_FOUND"
  | .sourceRelationOwner => "EXECUTOR_SOURCE_RELATION_OWNER"
  | .sourceCancelled | .sourceCancellationRequested => "EXECUTOR_QUERY_CANCELLED"
  | .sourceExecution => "EXECUTOR_SOURCE_QUERY_FAILED"
  | .sourceCommit => "EXECUTOR_SOURCE_COMMIT_FAILED"
  | .invalidRowShape => "EXECUTOR_INVALID_ROW_SHAPE"
  | _ => "EXECUTOR_GUARD_CONFIGURATION_FAILED"

def ExecuteError.isCancellation : ExecuteError → Bool
  | .sourceCancelled | .sourceCancellationRequested => true
  | _ => false

def RowError.execute : RowError → ExecuteError
  | .sourceCancelled => .sourceCancelled
  | .sourceExecution => .sourceExecution
  | .invalidRowShape => .invalidRowShape

structure PublishedModel where
  project : String
  revisionId : String
  snapshot : SemanticSnapshot

/-- The arguments of `start_query_audit`. The lineage and the parameter types stand for their JSON
values, and the last two texts but the durations for the policy context. -/
structure QueryEvidence where
  principalSubjectHash : String
  lsqSchemaVersion : String
  canonicalLsqHash : String
  revisionId : String
  semanticRevisionHash : String
  compilerVersion : String
  configProfile : String
  generatedSqlHash : String
  compilerQueryHash : String
  parameterTypes : List DataType
  lineage : Lineage
  databaseRole : String
  project : String
  validationDurationMs : Nat
  compileDurationMs : Nat

/-- The arguments of `finish_query_audit`, but for the row and its status. -/
structure QueryOutcome where
  errorCode : Option String
  databaseDurationMs : Nat
  serializationDurationMs : Nat
  rowCount : Nat
  byteCount : Nat
  truncated : Bool

/-- What the catalog says of the owner of a relation. -/
inductive OwnerCheck where
  | unavailable
  | notFound
  | checked (canAssumeOwner : Bool)

inductive Action where
  | connectRuntime
  | connectAudit
  /-- `set_config`, in the transaction or in the session. -/
  | setConfig (name value : String)
  | loadPublished (project : String)
  /-- The milliseconds since a measurement began. -/
  | elapsed
  | startQueryAudit (evidence : QueryEvidence)
  | offerCancelHandle
  | startTransaction
  | verifyRole (databaseRole : String)
  | relationOwner (databaseRole : String) (relation : Lex (String × String))
  | setLocalRole (databaseRole : String)
  | sendStatement (sql : String) (parameters : List String)
  | commit
  | finishQueryAudit (queryId status : String) (outcome : QueryOutcome)

/-- `false` and `none` stand for the error of the driver. -/
abbrev Reply : Action → Type
  | .loadPublished _ => Option PublishedModel
  | .elapsed => Nat
  | .startQueryAudit _ => Option String
  | .verifyRole _ => RoleCheck
  | .relationOwner _ _ => OwnerCheck
  | .sendStatement _ _ => List Fetch
  | _ => Bool

def perform (action : Action) : Program Action Reply (Reply action) := .call action

abbrev Execution := ExceptT ExecuteError (Program Action Reply)

def ask {α : Type} (answer : Program Action Reply α) : Execution α :=
  ExceptT.mk (answer.bind fun value => .done (.ok value))

def check {α : Type} (result : Except ExecuteError α) : Execution α := ExceptT.mk (.done result)

def attempt (answer : Program Action Reply Bool) (error : ExecuteError) : Execution Unit :=
  ExceptT.mk (answer.bind fun done => .done (ensure done error))

def demand {α : Type} (answer : Program Action Reply (Option α)) (error : ExecuteError) :
    Execution α :=
  ExceptT.mk (answer.bind fun value => .done (orError value error))

def setConfig (name value : String) : Execution Unit :=
  attempt (perform (.setConfig name value)) .transactionConfiguration

def milliseconds (duration : Nat) : String := toString duration ++ "ms"

def configureTimeouts (config : ExecutorConfig) : Execution Unit := do
  setConfig "statement_timeout" (milliseconds config.statementTimeout)
  setConfig "lock_timeout" (milliseconds config.lockTimeout)
  setConfig "idle_in_transaction_session_timeout" (milliseconds config.idleTransactionTimeout)

def connectRuntime (config : ExecutorConfig) : Execution Unit := do
  attempt (perform .connectRuntime) .runtimeConnect
  configureTimeouts config

def connectAudit (config : ExecutorConfig) : Execution Unit := do
  attempt (perform .connectAudit) .auditConnect
  configureTimeouts config

def fixSearchPath : Execution Unit := setConfig "search_path" "pg_catalog"

def roleVerdict : RoleCheck → Except ExecuteError Bool
  | .unavailable => .error .transactionConfiguration
  | .notFound => .error .databaseRoleNotFound
  | .privileged => .error .unsafeDatabaseRole
  | .checked isMember => .ok isMember

def verifyRole (databaseRole : String) : Execution Bool := do
  let role ← ask (perform (.verifyRole databaseRole))
  check (roleVerdict role)

def ownerVerdict : OwnerCheck → Except ExecuteError Unit
  | .unavailable => .error .transactionConfiguration
  | .notFound => .error .sourceRelationNotFound
  | .checked canAssumeOwner => ensure (!canAssumeOwner) .sourceRelationOwner

def OwnershipError.execute : OwnershipError → ExecuteError
  | .sourceRelationNotFound => .sourceRelationNotFound
  | .sourceRelationOwner => .sourceRelationOwner

def verifyOwners (databaseRole : String) : List (Lex (String × String)) → Execution Unit
  | [] => pure ()
  | relation :: rest => do
    let owner ← ask (perform (.relationOwner databaseRole relation))
    check (ownerVerdict owner)
    verifyOwners databaseRole rest

def verifyRelationOwnership (snapshot : SemanticSnapshot) (compiled : CompiledQuery)
    (databaseRole : String) : Execution Unit := do
  let relations ← check ((lineageRelations snapshot compiled).mapError OwnershipError.execute)
  verifyOwners databaseRole relations

def applyTransactionConfiguration (config : ExecutorConfig) : Execution Unit := do
  attempt (perform (.setLocalRole config.databaseRole)) .transactionConfiguration
  configureTimeouts config
  setConfig "TimeZone" "UTC"

def parameterText (parameter : CompiledParameter) : String :=
  match parameter.value with
  | .text value | .numeric value | .date value | .timestamp value => value
  | .boolean value => if value then "true" else "false"
  | .integer value => toString value

def executeCompiled (snapshot : SemanticSnapshot) (compiled : CompiledQuery)
    (config : ExecutorConfig) : Execution (ExecutionRows × Nat) := do
  attempt (perform .startTransaction) .startSourceTransaction
  fixSearchPath
  let isRoleMember ← verifyRole config.databaseRole
  verifyRelationOwnership snapshot compiled config.databaseRole
  check (ensure isRoleMember .databaseRoleMembership)
  applyTransactionConfiguration config
  let fetches ← ask (perform (.sendStatement (resultWrapperSql compiled)
    (compiled.parameters.map parameterText)))
  let execution ← check ((executeRows config.maxResultBytes fetches).mapError RowError.execute)
  let serializationMs ← ask (perform .elapsed)
  attempt (perform .commit) .sourceCommit
  pure (execution, serializationMs)

/-- `i64::try_from(_).unwrap_or(i64::MAX)`. -/
def toI64 (value : Nat) : Nat := min value (2 ^ 63 - 1)

def finishAudit (queryId status : String) (errorCode : Option String)
    (databaseMs serializationMs rowCount byteCount : Nat) (truncated : Bool) : Execution Unit :=
  attempt (perform (.finishQueryAudit queryId status
    { errorCode, databaseDurationMs := toI64 databaseMs,
      serializationDurationMs := toI64 serializationMs, rowCount := toI64 rowCount,
      byteCount := toI64 byteCount, truncated })) .terminalAudit

structure QueryResult where
  schemaVersion : String
  queryId : String
  semanticRevision : String
  columns : List OutputColumn
  rows : List Json.Value
  truncated : Bool
  lineage : Lineage
  warnings : List String

def resultTruncationWarning : String := 
  "result is incomplete because it exceeded the byte limit; narrow the query"

def resultWarnings (truncated : Bool) : List String :=
  if truncated then [resultTruncationWarning] else []

/-- What one call of the executor is given. -/
structure Invocation where
  input : List UInt8
  project : String
  config : ExecutorConfig
  context : ExecutionContext

section Call
variable (finite : String → Bool) (backend : CompilerBackend)

def queryEvidence (invocation : Invocation) (published : PublishedModel)
    (normalized : NormalizedLsq) (compiled : CompiledQuery) (validationMs compileMs : Nat) :
    QueryEvidence :=
  { principalSubjectHash := backend.hash invocation.context.principalSubject
    lsqSchemaVersion := normalized.query.schemaVersion
    canonicalLsqHash := normalized.hash
    revisionId := published.revisionId
    semanticRevisionHash := published.snapshot.revisionHash
    compilerVersion := compilerSemanticVersion
    configProfile := invocation.context.configProfile
    generatedSqlHash := compiled.sqlHash
    compilerQueryHash := compiled.queryHash
    parameterTypes := compiled.parameters.map CompiledParameter.dataType
    lineage := compiled.lineage
    databaseRole := invocation.config.databaseRole
    project := published.project
    validationDurationMs := toI64 validationMs
    compileDurationMs := toI64 compileMs }

/-- The call once its audit row is written. -/
def executeAudited (invocation : Invocation) (published : PublishedModel)
    (normalized : NormalizedLsq) (compiled : CompiledQuery) (queryId : String) :
    Execution QueryResult := do
  let accepted ← ask (perform .offerCancelHandle)
  if accepted then
    let outcome ← ask (executeCompiled published.snapshot compiled invocation.config).run
    let databaseMs ← ask (perform .elapsed)
    match outcome with
    | .ok (execution, serializationMs) =>
      finishAudit queryId "succeeded" none databaseMs serializationMs execution.rows.length
        execution.byteCount execution.truncated
      pure { schemaVersion := normalized.query.schemaVersion, queryId,
             semanticRevision := published.snapshot.revisionHash, columns := compiled.outputSchema,
             rows := execution.rows, truncated := execution.truncated,
             lineage := compiled.lineage, warnings := resultWarnings execution.truncated }
    | .error error =>
      finishAudit queryId (if error.isCancellation then "cancelled" else "failed")
        (some (executionErrorCode error)) databaseMs 0 0 0 false
      check (.error error)
  else
    finishAudit queryId "cancelled" (some "EXECUTOR_QUERY_CANCELLED") 0 0 0 0 false
    check (.error .sourceCancellationRequested)

/-- The call up to its audit row. -/
def startAudit (invocation : Invocation) :
    Execution (PublishedModel × NormalizedLsq × CompiledQuery × QueryEvidence) := do
  connectRuntime invocation.config
  let published ← demand (perform (.loadPublished invocation.project)) .publishedModel
  let normalized ← check ((normalizeLsq finite backend.toHashBackend invocation.input).mapError .lsq)
  let validationMs ← ask (perform .elapsed)
  let compiled ← check ((compileLsq backend normalized published.snapshot {}).mapError .compile)
  let compileMs ← ask (perform .elapsed)
  connectAudit invocation.config
  pure (published, normalized, compiled,
    queryEvidence backend invocation published normalized compiled validationMs compileMs)

def executeWithCancel (invocation : Invocation) : Execution QueryResult := do
  let (published, normalized, compiled, evidence) ← startAudit finite backend invocation
  let queryId ← demand (perform (.startQueryAudit evidence)) .startedAudit
  executeAudited invocation published normalized compiled queryId

end Call

end Postgresem.Executor
