import Postgresem.Foundation.Control
import Postgresem.Foundation.Usize
import Postgresem.Mutation.Transaction

/-! `execute_with_cancel` of the mutation executor, over an environment that decides what each
connection, check and statement does. A lost acknowledgement leaves open whether the commit took
effect. -/
open Control

namespace Postgresem.Mutation

inductive MutationExecuteError where
  | mutationConnect
  | auditConnect
  | publishedModel
  | lsm (code : String)
  | compile (code : String)
  | failureAudit
  | startTransaction
  | databaseRoleNotFound
  | databaseRoleMembership
  | unsafeDatabaseRole
  | targetRelationNotFound
  | targetRelationOwner
  | unsafeTargetRelation
  | transactionConfiguration
  | claim
  | idempotencyConflict
  | cancelled
  | cancellationRequested
  | execution
  | invalidRowShape
  | resultByteLimitExceeded
  | affectedRowMismatch
  | serialization
  | finishAudit
  | commitIndeterminate
  | invalidReplayResult
  deriving DecidableEq, Repr

def mutationWasAttempted : MutationExecuteError → Bool
  | .cancelled | .execution | .invalidRowShape | .resultByteLimitExceeded | .affectedRowMismatch
  | .serialization | .finishAudit => true
  | _ => false

def mutationErrorCode : MutationExecuteError → String
  | .lsm code => code
  | .compile code => code
  | .databaseRoleNotFound => "MUTATION_DATABASE_ROLE_NOT_FOUND"
  | .databaseRoleMembership => "MUTATION_DATABASE_ROLE_MEMBERSHIP_DENIED"
  | .unsafeDatabaseRole => "MUTATION_UNSAFE_DATABASE_ROLE"
  | .targetRelationNotFound => "MUTATION_TARGET_RELATION_NOT_FOUND"
  | .targetRelationOwner => "MUTATION_TARGET_RELATION_OWNER"
  | .unsafeTargetRelation => "MUTATION_UNSAFE_TARGET_RELATION"
  | .idempotencyConflict => "MUTATION_IDEMPOTENCY_CONFLICT"
  | .cancelled | .cancellationRequested => "MUTATION_CANCELLED"
  | .execution => "MUTATION_DATABASE_REJECTED"
  | .invalidRowShape => "MUTATION_INVALID_ROW_SHAPE"
  | .resultByteLimitExceeded => "MUTATION_RESULT_BYTES_EXCEEDED"
  | .affectedRowMismatch => "MUTATION_AFFECTED_ROWS_MISMATCH"
  | .finishAudit => "MUTATION_ATOMIC_AUDIT_FAILED"
  | .commitIndeterminate => "MUTATION_COMMIT_INDETERMINATE"
  | .invalidReplayResult => "MUTATION_INVALID_REPLAY_RESULT"
  | _ => "MUTATION_GUARD_CONFIGURATION_FAILED"

/-- What the caller learns of a commit. -/
inductive Commit where
  | acknowledged
  /-- The connection was lost; the commit may have taken effect. -/
  | lost (durable : Bool)
  deriving DecidableEq, Repr

/-- What `verify_role` finds. -/
inductive RoleCheck where
  | unavailable
  | notFound
  | privileged
  | checked (isMember : Bool)

def RoleCheck.verify : RoleCheck → Except MutationExecuteError Bool
  | .unavailable => .error .transactionConfiguration
  | .notFound => .error .databaseRoleNotFound
  | .privileged => .error .unsafeDatabaseRole
  | .checked isMember => .ok isMember

/-- What `verify_target_relation` finds. -/
inductive TargetCheck where
  | notFound
  | unavailable
  | owned
  | notTable
  | table

def TargetCheck.verify : TargetCheck → Except MutationExecuteError Unit
  | .notFound => .error .targetRelationNotFound
  | .unavailable => .error .transactionConfiguration
  | .owned => .error .targetRelationOwner
  | .notTable => .error .unsafeTargetRelation
  | .table => .ok ()

/-- One answer of the business statement's row stream. -/
inductive Fetch where
  | row (value : Json.Value)
  | failed (queryCanceled : Bool)

/-- What the call meets outside the tables. -/
structure Environment where
  auditConnects : Bool
  /-- The code of the error of `normalize_lsm`, if it rejects the document. -/
  lsmError : Option String
  mutationConnects : Bool
  publishedLoads : Bool
  compileError : Option String
  acceptsCancelHandle : Bool
  transactionStarts : Bool
  searchPathFixed : Bool
  role : RoleCheck
  target : TargetCheck
  configurationApplied : Bool
  /-- `parameter_types` and the lineage serialize. -/
  metadataSerializes : Bool
  claimAnswered : Bool
  mutationId : String
  attemptId : String
  claimedAt : Nat
  statement : List Fetch
  finishAnswered : Bool
  databaseDurationMs : Nat
  finishedAt : Nat
  commit : Commit
  failureAudit : Commit
  failureMutationId : String
  failureAttemptId : String
  failedAt : Nat

/-- A compiled mutation with its configuration. -/
structure Request where
  arguments : ClaimArguments
  columns : List (String × DataType)
  /-- The field names of the first requested row. -/
  fieldNames : List String
  maxResultBytes : Nat
  /-- The hash of the input bytes, which the audit of a rejected document carries. -/
  rawHash : String

structure MutationResult where
  schemaVersion : String
  mutationId : String
  semanticRevision : String
  operation : MutationOperation
  model : String
  columns : List (String × DataType)
  rows : List Json.Value
  affectedRows : Nat
  replayed : Bool
  lineage : Json.Value

def Request.result (request : Request) (mutationId : String) (rows : List Json.Value)
    (affectedRows : Nat) (replayed : Bool) : MutationResult :=
  { schemaVersion := request.arguments.lsmSchemaVersion, mutationId,
    semanticRevision := request.arguments.semanticRevisionHash,
    operation := request.arguments.operation, model := request.arguments.model,
    columns := request.columns, rows, affectedRows, replayed, lineage := request.arguments.lineage }

/-- The loop of `run_statement` over the rows of the statement. -/
def collectRows (maxResultBytes : Nat) :
    List Fetch → List Json.Value → Nat → Except MutationExecuteError (List Json.Value)
  | [], rows, _ => .ok rows
  | .failed queryCanceled :: _, _, _ => .error (if queryCanceled then .cancelled else .execution)
  | .row value :: rest, rows, byteCount =>
    if value.isArray then
      let separatorBytes := if rows.isEmpty then 0 else 1
      if Usize.saturatingAdd (Usize.saturatingAdd byteCount separatorBytes) value.byteSize
          > maxResultBytes then
        .error .resultByteLimitExceeded
      else collectRows maxResultBytes rest (rows ++ [value])
        (byteCount + separatorBytes + value.byteSize)
    else .error .invalidRowShape

def runStatement (request : Request) (env : Environment) :
    Except MutationExecuteError (List Json.Value) :=
  collectRows request.maxResultBytes env.statement [] 2

/-- The checks and settings that precede the claim. -/
def Environment.prepare (env : Environment) : Except MutationExecuteError Unit := do
  ensure env.transactionStarts .startTransaction
  ensure env.searchPathFixed .transactionConfiguration
  let isMember ← env.role.verify
  env.target.verify
  ensure isMember .databaseRoleMembership
  ensure env.configurationApplied .transactionConfiguration

def claimMutation (request : Request) (env : Environment) (store : Store) :
    Except MutationExecuteError (Claim × List Write) := do
  ensure env.metadataSerializes .serialization
  -- `i64::try_from(compiled.expected_rows)`.
  ensure (request.arguments.requestedRows < 2 ^ 63) .affectedRowMismatch
  ensure env.claimAnswered .claim
  match store.claimMutation request.arguments env.mutationId env.attemptId env.claimedAt with
  | .ok claimed => .ok claimed
  | .error _ => .error .claim

/-- The outcome of a step and the committed tables after it. -/
abbrev Outcome (α : Type) := Except MutationExecuteError α × Store

def applyAll (store : Store) (writes : List Write) : Store := writes.foldl Store.apply store

/-- `transaction.commit()`; what follows it runs when the commit is acknowledged. -/
def commitTransaction {α : Type} (env : Environment) (store : Store) (writes : List Write)
    (next : Except MutationExecuteError α) : Outcome α :=
  match env.commit with
  | .acknowledged => (next, applyAll store writes)
  | .lost durable => (.error .commitIndeterminate, if durable then applyAll store writes else store)

/-- The rest of an execution claim: the statement, `finish_mutation` and the commit. Each error
returns before the commit, and the transaction rolls back. -/
def executeStatement (request : Request) (env : Environment) (store : Store) (claim : Claim)
    (writes : List Write) : Outcome MutationResult :=
  match runStatement request env with
  | .error error => (.error error, store)
  | .ok rows =>
    if rows.length = request.arguments.requestedRows then
      let changed := writes ++
        [.business { statementHash := request.arguments.statementHash, rows }]
      match (applyAll store changed).finishMutation claim.mutationId claim.attemptId (.array rows)
          rows.length env.databaseDurationMs env.finishedAt with
      | some finish =>
        if env.finishAnswered then
          commitTransaction env store (changed ++ finish)
            (.ok (request.result claim.mutationId rows rows.length false))
        else (.error .finishAudit, store)
      | none => (.error .finishAudit, store)
    else (.error .affectedRowMismatch, store)

def executeCompiled (request : Request) (env : Environment) (store : Store) :
    Outcome MutationResult :=
  match env.prepare with
  | .error error => (.error error, store)
  | .ok () =>
    match claimMutation request env store with
    | .error error => (.error error, store)
    | .ok (claim, writes) =>
      match claim.disposition with
      | .conflict => commitTransaction env store writes (.error .idempotencyConflict)
      | .replay =>
        match replayRows claim.result with
        | none => (.error .invalidReplayResult, store)
        | some rows =>
          commitTransaction env store writes
            (.ok (request.result claim.mutationId rows (claim.affectedRows.getD 0) true))
      | .execute => executeStatement request env store claim writes

/-- `FailureMetadata::raw`, `normalized`, `published` and `compiled`, by how far the call came. -/
inductive FailureMetadata where
  | raw
  | normalized
  | published
  | compiled

def FailureMetadata.details (metadata : FailureMetadata) (request : Request) : AttemptDetails :=
  let args := request.arguments
  let policyContext : PolicyContext :=
    { databaseRole := args.policyContext.databaseRole, legacyAuthorityHash := none,
      project := some args.project, capabilityProfile := none }
  let raw : AttemptDetails :=
    { project := args.project, principalSubjectHash := args.principalSubjectHash,
      lsmSchemaVersion := none, lsmHash := request.rawHash, revisionId := none,
      semanticRevisionHash := none, compilerVersion := some args.compilerVersion,
      configProfile := args.configProfile, operation := none, model := none,
      idempotencyKeyHash := none, statementHash := none, compilerMutationHash := none,
      parameterTypes := .array [], lineage := .object [], policyContext,
      requestedRows := some 0, validationDurationMs := some args.validationDurationMs,
      compileDurationMs := some 0 }
  let normalized : AttemptDetails :=
    { raw with lsmSchemaVersion := some args.lsmSchemaVersion, lsmHash := args.lsmHash,
               operation := some args.operation, model := some args.model,
               idempotencyKeyHash := some args.idempotencyKeyHash,
               lineage := .object [("model", .string args.model),
                 ("fields", .array (request.fieldNames.map .string))],
               requestedRows := some args.requestedRows }
  let published : AttemptDetails :=
    { normalized with revisionId := some args.revisionId,
                      semanticRevisionHash := some args.semanticRevisionHash,
                      compileDurationMs := some args.compileDurationMs }
  match metadata with
  | .raw => raw
  | .normalized => normalized
  | .published => published
  | .compiled =>
    { published with statementHash := some args.statementHash,
                     compilerMutationHash := some args.compilerMutationHash,
                     parameterTypes := args.parameterTypes, lineage := args.lineage }

/-- `record_failure`, over the audit connection. A statement of its own is a transaction of its
own, so its effect is open too when the connection is lost. -/
def recordFailure (request : Request) (env : Environment) (store : Store)
    (metadata : FailureMetadata) (status : AuditStatus) (code : String) (databaseDurationMs : Nat) :
    Outcome Unit :=
  match store.recordMutationFailure (metadata.details request) status code databaseDurationMs
      env.failureMutationId env.failureAttemptId env.failedAt with
  | none => (.error .failureAudit, store)
  | some write =>
    match env.failureAudit with
    | .acknowledged => (.ok (), store.apply write)
    | .lost durable => (.error .failureAudit, if durable then store.apply write else store)

/-- `record_failure(...)?; return Err(error)`. -/
def rejectWith (request : Request) (env : Environment) (store : Store) (metadata : FailureMetadata)
    (status : AuditStatus) (code : String) (databaseDurationMs : Nat)
    (error : MutationExecuteError) : Outcome MutationResult :=
  match recordFailure request env store metadata status code databaseDurationMs with
  | (.ok (), recorded) => (.error error, recorded)
  | (.error failure, recorded) => (.error failure, recorded)

def failureStatus (error : MutationExecuteError) : AuditStatus :=
  if error = .commitIndeterminate then .indeterminate
  else if mutationWasAttempted error then .rolledBack
  else .rejected

def executeWithCancel (request : Request) (env : Environment) (store : Store) :
    Outcome MutationResult :=
  if !env.auditConnects then (.error .auditConnect, store)
  else
    match env.lsmError with
    | some code => rejectWith request env store .raw .rejected code 0 (.lsm code)
    | none =>
      if !env.mutationConnects then
        rejectWith request env store .normalized .rejected (mutationErrorCode .mutationConnect)
          0 .mutationConnect
      else if !env.publishedLoads then
        rejectWith request env store .normalized .rejected
          "MUTATION_SEMANTIC_SNAPSHOT_UNAVAILABLE" 0 .publishedModel
      else
        match env.compileError with
        | some code => rejectWith request env store .published .rejected code 0 (.compile code)
        | none =>
          if !env.acceptsCancelHandle then
            if env.metadataSerializes then
              rejectWith request env store .compiled .rejected "MUTATION_CANCELLED" 0
                .cancellationRequested
            else (.error .serialization, store)
          else
            match executeCompiled request env store with
            | (.ok result, committed) => (.ok result, committed)
            | (.error error, committed) =>
              if error = .idempotencyConflict then (.error error, committed)
              else if env.metadataSerializes then
                rejectWith request env committed .compiled (failureStatus error)
                  (mutationErrorCode error) env.databaseDurationMs error
              else (.error .serialization, committed)

end Postgresem.Mutation
