import Postgresem.Query.Lsq

/-! Configuration and context of the executors. -/
namespace Postgresem
open Control

/-- The fields of `ExecutorConfig`, which `MutationExecutorConfig` has too. Timeouts are in
milliseconds. -/
structure ExecutorConfig where
  databaseUrl : String
  databaseUrlVariable : String
  databasePassword : Option String
  auditDatabaseUrl : String
  auditDatabaseUrlVariable : String
  auditDatabasePassword : Option String
  databaseRole : String
  maxResultBytes : Nat
  statementTimeout : Nat
  lockTimeout : Nat
  idleTransactionTimeout : Nat
  deriving DecidableEq, Repr

abbrev MutationExecutorConfig := ExecutorConfig

def validEnvironmentVariableName (value : String) : Bool :=
  match value.toList with
  | [] => false
  | first :: rest =>
    (('A' ≤ first && first ≤ 'Z') || ('a' ≤ first && first ≤ 'z') || first == '_')
      && rest.all fun c => ('a' ≤ c && c ≤ 'z') || ('A' ≤ c && c ≤ 'Z') || ('0' ≤ c && c ≤ '9')
        || c == '_'

def validDatabaseRole (value : String) : Bool :=
  value.utf8ByteSize ≤ 63 && validEnvironmentVariableName value

/-- `with_database_role`, which fails with `InvalidDatabaseRole` only. -/
def ExecutorConfig.withDatabaseRole (config : ExecutorConfig) (databaseRole : String) :
    Option ExecutorConfig :=
  if validDatabaseRole databaseRole then some { config with databaseRole } else none

/-- No part of an execution context is blank. -/
structure ExecutionContext where
  principalSubject : String
  configProfile : String
  authorityId : String
  notBlank : isBlank principalSubject = false ∧ isBlank configProfile = false
    ∧ isBlank authorityId = false

def ExecutionContext.newWithAuthority (principalSubject configProfile authorityId : String) :
    Option ExecutionContext :=
  if h : isBlank principalSubject = false ∧ isBlank configProfile = false
      ∧ isBlank authorityId = false then
    some { principalSubject, configProfile, authorityId, notBlank := h }
  else none

end Postgresem
