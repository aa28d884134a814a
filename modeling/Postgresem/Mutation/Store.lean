import Postgresem.Foundation.Json
import Postgresem.Semantic.Snapshot
import Mathlib.Data.List.MinMax

/-! The tables of governed mutation, and `claim_mutation`, `finish_mutation`,
`record_mutation_failure` and `lookup_mutation_idempotency` over them. -/
namespace Postgresem.Mutation

inductive AuthorityScheme where
  | legacy
  | principal
  deriving DecidableEq, Repr

inductive IdempotencyStatus where
  | started
  | committed
  deriving DecidableEq, Repr

/-- A row of `semantic.mutation_idempotency`. -/
structure IdempotencyRow where
  project : String
  idempotencyKeyHash : String
  authorityHash : String
  databaseRole : String
  authorityScheme : AuthorityScheme
  lsmHash : String
  revisionId : String
  semanticRevisionHash : String
  mutationId : String
  status : IdempotencyStatus
  result : Option Json.Value
  affectedRows : Option Nat
  replayCount : Nat
  createdAt : Nat
  committedAt : Option Nat
  lastReplayedAt : Option Nat

/-- The primary key `(project, authority_hash, idempotency_key_hash)`. -/
structure PrimaryKey where
  project : String
  authorityHash : String
  idempotencyKeyHash : String
  deriving DecidableEq, Repr

def IdempotencyRow.primaryKey (row : IdempotencyRow) : PrimaryKey :=
  { project := row.project, authorityHash := row.authorityHash,
    idempotencyKeyHash := row.idempotencyKeyHash }

inductive AuditStatus where
  | started
  | committed
  | rejected
  | rolledBack
  | indeterminate
  | reconciled
  deriving DecidableEq, Repr

inductive MutationOperation where
  | insert
  | upsert
  deriving DecidableEq, Repr

/-- What `->>` reads from the policy context of an attempt. -/
structure PolicyContext where
  databaseRole : Option String
  legacyAuthorityHash : Option String
  project : Option String
  capabilityProfile : Option String

/-- The columns of `semantic.mutation_audit` that describe the request. -/
structure AttemptDetails where
  project : String
  principalSubjectHash : String
  lsmSchemaVersion : Option String
  lsmHash : String
  revisionId : Option String
  semanticRevisionHash : Option String
  compilerVersion : Option String
  configProfile : String
  operation : Option MutationOperation
  model : Option String
  idempotencyKeyHash : Option String
  statementHash : Option String
  compilerMutationHash : Option String
  parameterTypes : Json.Value
  lineage : Json.Value
  policyContext : PolicyContext
  requestedRows : Option Nat
  validationDurationMs : Option Nat
  compileDurationMs : Option Nat

structure AuditRow where
  attemptId : String
  mutationId : String
  details : AttemptDetails
  status : AuditStatus
  errorCode : Option String
  affectedRows : Option Nat
  replayed : Bool
  databaseDurationMs : Option Nat
  startedAt : Nat
  completedAt : Option Nat

/-- What one business statement wrote: the statement and the rows it returned. -/
structure BusinessChange where
  statementHash : String
  rows : List Json.Value

structure Store where
  revisions : List String
  idempotency : List IdempotencyRow
  audit : List AuditRow
  business : List BusinessChange

/-- The arguments of `claim_mutation`. -/
structure ClaimArguments where
  project : String
  idempotencyKeyHash : String
  authorityHash : String
  lsmSchemaVersion : String
  lsmHash : String
  revisionId : String
  semanticRevisionHash : String
  principalSubjectHash : String
  compilerVersion : String
  configProfile : String
  operation : MutationOperation
  model : String
  statementHash : String
  compilerMutationHash : String
  parameterTypes : Json.Value
  lineage : Json.Value
  policyContext : PolicyContext
  requestedRows : Nat
  validationDurationMs : Nat
  compileDurationMs : Nat

namespace ClaimArguments

def primaryKey (args : ClaimArguments) : PrimaryKey :=
  { project := args.project, authorityHash := args.authorityHash,
    idempotencyKeyHash := args.idempotencyKeyHash }

def databaseRole (args : ClaimArguments) : String := args.policyContext.databaseRole.getD ""

def legacyAuthorityHash (args : ClaimArguments) : String :=
  args.policyContext.legacyAuthorityHash.getD ""

def details (args : ClaimArguments) : AttemptDetails :=
  { project := args.project
    principalSubjectHash := args.principalSubjectHash
    lsmSchemaVersion := some args.lsmSchemaVersion
    lsmHash := args.lsmHash
    revisionId := some args.revisionId
    semanticRevisionHash := some args.semanticRevisionHash
    compilerVersion := some args.compilerVersion
    configProfile := args.configProfile
    operation := some args.operation
    model := some args.model
    idempotencyKeyHash := some args.idempotencyKeyHash
    statementHash := some args.statementHash
    compilerMutationHash := some args.compilerMutationHash
    parameterTypes := args.parameterTypes
    lineage := args.lineage
    policyContext := args.policyContext
    requestedRows := some args.requestedRows
    validationDurationMs := some args.validationDurationMs
    compileDurationMs := some args.compileDurationMs }

end ClaimArguments

/-- `^[A-Za-z_][A-Za-z0-9_]{0,62}$`. -/
def isDatabaseRole (value : String) : Bool :=
  match value.toList with
  | [] => false
  | first :: rest =>
    (first.isAlpha || first == '_') && rest.length ≤ 62
      && rest.all fun character => character.isAlphanum || character == '_'

/-- `btrim(value) <> ''`. -/
def isNonBlank (value : String) : Bool := value.toList.any fun character => character != ' '

/-- The check on the policy context that opens `claim_mutation`. -/
def ClaimArguments.validContext (args : ClaimArguments) : Bool :=
  args.policyContext.databaseRole.any isDatabaseRole
    && args.policyContext.legacyAuthorityHash.any isSha256

/-- The `CHECK` constraints on an idempotency row. -/
def IdempotencyRow.satisfiesChecks (row : IdempotencyRow) : Bool :=
  isNonBlank row.project && isSha256 row.idempotencyKeyHash && isSha256 row.authorityHash
    && isSha256 row.lsmHash && isSha256 row.semanticRevisionHash && isDatabaseRole row.databaseRole
    && (match row.status with
      | .started => row.result.isNone && row.affectedRows.isNone && row.committedAt.isNone
      | .committed => row.result.isSome && row.affectedRows.isSome && row.committedAt.isSome)

/-- The table constraints on the described columns of an audit row. -/
def Store.acceptsAttempt (store : Store) (details : AttemptDetails) : Bool :=
  isNonBlank details.project && isSha256 details.principalSubjectHash && isSha256 details.lsmHash
    && details.revisionId.all store.revisions.contains
    && details.semanticRevisionHash.all isSha256 && isNonBlank details.configProfile
    && details.idempotencyKeyHash.all isSha256 && details.statementHash.all isSha256
    && details.compilerMutationHash.all isSha256

inductive Write where
  | insertIdempotency (row : IdempotencyRow)
  | countReplay (key : PrimaryKey) (now : Nat)
  | finishIdempotency (mutationId : String) (result : Json.Value) (affectedRows now : Nat)
  | insertAudit (row : AuditRow)
  | finishAudit (attemptId mutationId : String) (affectedRows databaseDurationMs now : Nat)
  | business (change : BusinessChange)

def IdempotencyRow.countReplay (now : Nat) (row : IdempotencyRow) : IdempotencyRow :=
  { row with replayCount := row.replayCount + 1, lastReplayedAt := some now }

def IdempotencyRow.finish (result : Json.Value) (affectedRows now : Nat) (row : IdempotencyRow) :
    IdempotencyRow :=
  { row with status := .committed, result := some result, affectedRows := some affectedRows,
             committedAt := some now }

def AuditRow.finish (affectedRows databaseDurationMs now : Nat) (row : AuditRow) : AuditRow :=
  { row with status := .committed, affectedRows := some affectedRows,
             databaseDurationMs := some databaseDurationMs, completedAt := some now }

def IdempotencyRow.isStarted (mutationId : String) (row : IdempotencyRow) : Bool :=
  row.mutationId == mutationId && row.status == .started

def AuditRow.isStarted (attemptId mutationId : String) (row : AuditRow) : Bool :=
  row.attemptId == attemptId && row.mutationId == mutationId && row.status == .started

def Store.apply (store : Store) : Write → Store
  | .insertIdempotency row => { store with idempotency := store.idempotency ++ [row] }
  | .countReplay key now =>
    { store with idempotency := store.idempotency.map fun row =>
        if row.primaryKey = key then row.countReplay now else row }
  | .finishIdempotency mutationId result affectedRows now =>
    { store with idempotency := store.idempotency.map fun row =>
        if row.isStarted mutationId then row.finish result affectedRows now else row }
  | .insertAudit row => { store with audit := store.audit ++ [row] }
  | .finishAudit attemptId mutationId affectedRows databaseDurationMs now =>
    { store with audit := store.audit.map fun row =>
        if row.isStarted attemptId mutationId then
          row.finish affectedRows databaseDurationMs now
        else row }
  | .business change => { store with business := store.business ++ [change] }

end Postgresem.Mutation
