import Postgresem.Mutation.AuditTrail
import Postgresem.Mutation.Execute

/-! What the caller of `execute_with_cancel` may conclude from its answer. The answer is truthful
unless the acknowledgement of the commit is lost and the failure audit that follows fails too: its
error then takes the place of the indeterminate outcome. -/
open Control

namespace Postgresem.Mutation
open ReadCommitted (Protocol)

/-- The mutation a result reports is committed, with its business rows. -/
def CommittedResult (store : Store) (result : MutationResult) : Prop :=
  (∃ row ∈ store.idempotency, row.mutationId = result.mutationId ∧ row.status = .committed ∧
    row.result = some (.array result.rows)) ∧
  ∃ change ∈ store.business, change.rows = result.rows

/-- The call came to `execute_compiled`. -/
def Environment.reachesExecution (env : Environment) : Bool :=
  env.auditConnects && env.lsmError.isNone && env.mutationConnects && env.publishedLoads &&
    env.compileError.isNone && env.acceptsCancelHandle

/-- The call issues a commit: its checks pass, its claim is answered, and an execution ran its
statement and finished. -/
def CommitIssued (request : Request) (env : Environment) (store : Store) : Prop :=
  env.reachesExecution = true ∧ env.prepare = .ok () ∧
    ∃ claim writes, claimMutation request env store = .ok (claim, writes) ∧
      match claim.disposition with
      | .conflict => True
      | .replay => (replayRows claim.result).isSome = true
      | .execute => ∃ rows, runStatement request env = .ok rows ∧
          rows.length = request.arguments.requestedRows ∧ env.finishAnswered = true

/-- The answer of a call is truthful: success means that the mutation is committed, an error other
than the indeterminate one that the call changed no business data, and a commit whose outcome is
unknown is reported as such. -/
structure Truthful (request : Request) (env : Environment) (store : Store)
    (outcome : Outcome MutationResult) : Prop where
  committed : ∀ result, outcome.1 = .ok result → CommittedResult outcome.2 result
  unchanged : ∀ error, outcome.1 = .error error → error ≠ .commitIndeterminate →
    outcome.2.business = store.business
  indeterminate : CommitIssued request env store → env.commit ≠ .acknowledged →
    outcome.1 = .error .commitIndeterminate

/-- Every committed row has its business rows. -/
def Store.Applied (store : Store) : Prop :=
  ∀ row ∈ store.idempotency, ∃ change ∈ store.business, row.result = some (.array change.rows)

section Applied
variable {store : Store} {log : List (Nat × Session)} {session : Session}

theorem applied_iff_cores : store.Applied ↔
    ∀ core ∈ store.cores, ∃ change ∈ store.business, core.result = some (.array change.rows) := by
  constructor
  · intro h core hcore
    obtain ⟨row, hrow, rfl⟩ := Store.mem_cores hcore
    exact h row hrow
  · intro h row hrow
    exact h row.core (Store.core_mem hrow)

/-- A commit keeps the business rows of the stored rows and adds those of a new one. -/
theorem Store.Applied.commit (h : store.Applied) (hstore : StoreInvariant store log)
    (hsession : SessionInvariant store session) (hcommits : session.control.commits = true) :
    (protocol.view store session).Applied := by
  rw [applied_iff_cores] at h ⊢
  rcases commit_writes hsession hcommits with
    ⟨claim, now, _, _, hwrites⟩ | ⟨claim, row, now, _, _, _, hwrites⟩ |
    ⟨claim, rows, created, duration, finished, _, _, hwrites⟩
  · simpa [Protocol.view, hwrites, protocol, Store.apply, Store.cores] using h
  · have hcores : (protocol.view store session).cores = store.cores := by
      rw [← cores_countReplay store row.primaryKey now]
      simp [Protocol.view, hwrites, protocol, Store.apply, Store.cores]
    have hbusiness : (protocol.view store session).business = store.business := by
      simp [Protocol.view, hwrites, protocol, Store.apply]
    rw [hcores, hbusiness]
    exact h
  · have hbusiness : (protocol.view store session).business =
        store.business ++ [businessChange session.control.arguments rows] := by
      simp [Protocol.view, hwrites, completeWrites, executionWrites, finishWrites, protocol,
        Store.apply]
    rw [Store.cores, view_completeWrites hstore.committed hwrites, List.map_append, hbusiness]
    intro core hcore
    rcases List.mem_append.mp hcore with hcore | hcore
    · obtain ⟨change, hchange, hresult⟩ := h core hcore
      exact ⟨change, List.mem_append_left _ hchange, hresult⟩
    · rw [List.map_singleton, List.mem_singleton] at hcore
      subst hcore
      exact ⟨_, List.mem_append_right _ (List.mem_singleton.mpr rfl), rfl⟩

/-- The rows of a reachable server and their business data, for every run. -/
def appliedInvariant : protocol.Invariant where
  onStore store log := StoreInvariant store log ∧ store.Applied
  onSession := SessionInvariant
  start := idempotencyInvariant.start
  statement h hsession hstatement := idempotencyInvariant.statement h.1 hsession hstatement
  commit i h hsession hcommits :=
    ⟨h.1.commit i hsession hcommits, h.2.commit h.1 hsession hcommits⟩
  frame h hsession hcommits hother hlocks :=
    idempotencyInvariant.frame h.1 hsession hcommits hother hlocks
  external h hexternal := by
    refine ⟨h.1.external hexternal, ?_⟩
    obtain ⟨details, status, errorCode, duration, mutationId, attemptId, now, hrecord⟩ := hexternal
    unfold Store.recordMutationFailure at hrecord
    simp only at hrecord
    split at hrecord
    · obtain rfl := Option.some.inj hrecord
      exact h.2
    · cases hrecord
  externalFrame := idempotencyInvariant.externalFrame

end Applied

section Calls
variable {request : Request} {env : Environment} {store : Store} {log : List (Nat × Session)}

theorem rejectWith_spec (request : Request) (env : Environment) (store : Store)
    (metadata : FailureMetadata) (status : AuditStatus) (code : String)
    (duration : Nat) (error : MutationExecuteError) :
    ((rejectWith request env store metadata status code duration error).1 = .error error ∨
      (rejectWith request env store metadata status code duration error).1 = .error .failureAudit) ∧
    (rejectWith request env store metadata status code duration error).2.business =
      store.business := by
  unfold rejectWith recordFailure
  cases hrecord : store.recordMutationFailure (metadata.details request) status code duration
      env.failureMutationId env.failureAttemptId env.failedAt with
  | none => exact ⟨Or.inr rfl, rfl⟩
  | some write =>
    have hbusiness : (store.apply write).business = store.business := by
      unfold Store.recordMutationFailure at hrecord
      simp only at hrecord
      split at hrecord
      · obtain rfl := Option.some.inj hrecord
        rfl
      · cases hrecord
    cases env.failureAudit with
    | acknowledged => exact ⟨Or.inl rfl, hbusiness⟩
    | lost durable =>
      refine ⟨Or.inr rfl, ?_⟩
      simp only
      split
      · exact hbusiness
      · rfl

/-- An error that is neither of those a commit leads to. -/
def BeforeCommit (error : MutationExecuteError) : Prop :=
  error ≠ .commitIndeterminate ∧ error ≠ .idempotencyConflict

theorem ensure_error {condition : Bool} {expected error : MutationExecuteError}
    (h : ensure condition expected = .error error) (hexpected : BeforeCommit expected) :
    BeforeCommit error := by
  cases condition with
  | true => cases h
  | false =>
    obtain rfl := Except.error.inj h
    exact hexpected

theorem prepare_error {error : MutationExecuteError} (h : env.prepare = .error error) :
    BeforeCommit error := by
  unfold Environment.prepare at h
  rcases bind_eq_error.mp h with h | ⟨_, _, h⟩
  · exact ensure_error h (by simp [BeforeCommit])
  rcases bind_eq_error.mp h with h | ⟨_, _, h⟩
  · exact ensure_error h (by simp [BeforeCommit])
  rcases bind_eq_error.mp h with h | ⟨_, _, h⟩
  · cases hrole : env.role <;> rw [hrole] at h <;> cases h <;> simp [BeforeCommit]
  rcases bind_eq_error.mp h with h | ⟨_, _, h⟩
  · cases htarget : env.target <;> rw [htarget] at h <;> cases h <;> simp [BeforeCommit]
  rcases bind_eq_error.mp h with h | ⟨_, _, h⟩
  · exact ensure_error h (by simp [BeforeCommit])
  · exact ensure_error h (by simp [BeforeCommit])

theorem claimMutation_error {error : MutationExecuteError}
    (h : claimMutation request env store = .error error) : BeforeCommit error := by
  unfold claimMutation at h
  rcases bind_eq_error.mp h with h | ⟨_, _, h⟩
  · exact ensure_error h (by simp [BeforeCommit])
  rcases bind_eq_error.mp h with h | ⟨_, _, h⟩
  · exact ensure_error h (by simp [BeforeCommit])
  rcases bind_eq_error.mp h with h | ⟨_, _, h⟩
  · exact ensure_error h (by simp [BeforeCommit])
  split at h
  · cases h
  · obtain rfl := Except.error.inj h
    simp [BeforeCommit]

theorem claimMutation_ok {claim : Claim} {writes : List Write}
    (h : claimMutation request env store = .ok (claim, writes)) :
    env.metadataSerializes = true ∧
      store.claimMutation request.arguments env.mutationId env.attemptId env.claimedAt =
        .ok (claim, writes) := by
  unfold claimMutation at h
  obtain ⟨_, hserializes, h⟩ := bind_eq_ok.mp h
  obtain ⟨_, _, h⟩ := bind_eq_ok.mp h
  obtain ⟨_, _, h⟩ := bind_eq_ok.mp h
  refine ⟨ensure_eq_ok.mp hserializes, ?_⟩
  split at h
  next claimed hclaimed =>
    rw [hclaimed, Except.ok.inj h]
  next => cases h

theorem collectRows_error {maxResultBytes : Nat} {fetches : List Fetch} {rows : List Json.Value}
    {byteCount : Nat} {error : MutationExecuteError}
    (h : collectRows maxResultBytes fetches rows byteCount = .error error) : BeforeCommit error := by
  induction fetches generalizing rows byteCount with
  | nil => cases h
  | cons fetch rest ih =>
    cases fetch with
    | failed queryCanceled =>
      obtain rfl := Except.error.inj h
      cases queryCanceled <;> simp [BeforeCommit]
    | row value =>
      simp only [collectRows] at h
      split at h
      · generalize (if rows.isEmpty then 0 else 1) = separatorBytes at h
        split at h
        · obtain rfl := Except.error.inj h
          simp [BeforeCommit]
        · exact ih h
      · obtain rfl := Except.error.inj h
        simp [BeforeCommit]

/-- The writes of a transaction, as it applies them when it commits. -/
theorem applyAll_eq_view (store : Store) (writes : List Write) (control : Mutation.Control) :
    applyAll store writes = protocol.view store { control, writes, locks := [] } := rfl

/-- A call that issues no commit returns an early error and changes nothing. -/
theorem executeCompiled_of_not_issued (hreaches : env.reachesExecution = true)
    (h : ¬ CommitIssued request env store) :
    ∃ error, BeforeCommit error ∧ executeCompiled request env store = (.error error, store) := by
  unfold executeCompiled
  cases hprepare : env.prepare with
  | error error => exact ⟨error, prepare_error hprepare, rfl⟩
  | ok u =>
    cases hclaim : claimMutation request env store with
    | error error => exact ⟨error, claimMutation_error hclaim, rfl⟩
    | ok claimed =>
      obtain ⟨claim, writes⟩ := claimed
      simp only
      cases hdisposition : claim.disposition with
      | conflict =>
        refine absurd ⟨hreaches, hprepare, claim, writes, hclaim, ?_⟩ h
        simp [hdisposition]
      | replay =>
        cases hrows : replayRows claim.result with
        | none => exact ⟨_, by simp [BeforeCommit], rfl⟩
        | some rows =>
          refine absurd ⟨hreaches, hprepare, claim, writes, hclaim, ?_⟩ h
          simp [hdisposition, hrows]
      | execute =>
        simp only [executeStatement]
        cases hrun : runStatement request env with
        | error error => exact ⟨error, collectRows_error hrun, rfl⟩
        | ok rows =>
          simp only
          split
          next hcount =>
            split
            next finish hfinish =>
              split
              next hanswered =>
                refine absurd ⟨hreaches, hprepare, claim, writes, hclaim, ?_⟩ h
                simp only [hdisposition]
                exact ⟨rows, hrun, hcount, hanswered⟩
              next => exact ⟨_, by simp [BeforeCommit], rfl⟩
            next => exact ⟨_, by simp [BeforeCommit], rfl⟩
          next => exact ⟨_, by simp [BeforeCommit], rfl⟩

/-- What a call commits, when it issues a commit. -/
structure Committing (request : Request) (env : Environment) (store : Store) (writes : List Write)
    (next : Except MutationExecuteError MutationResult) : Prop where
  result : ∀ result, next = .ok result → CommittedResult (applyAll store writes) result
  error : ∀ error, next = .error error →
    error = .idempotencyConflict ∧ (applyAll store writes).business = store.business
  attempts : (applyAll store writes).audit.map AuditRow.attemptId =
    store.audit.map AuditRow.attemptId ++ [env.attemptId]
  revisions : (applyAll store writes).revisions = store.revisions

theorem Committing.conflict {claim : Claim} {writes : List Write}
    (hclaim : store.claimMutation request.arguments env.mutationId env.attemptId env.claimedAt =
      .ok (claim, writes)) (hdisposition : claim.disposition = .conflict) :
    Committing request env store writes (.error .idempotencyConflict) := by
  rcases Store.claimMutation_eq_ok hclaim with h | ⟨existing, _, h⟩
  · obtain ⟨rfl, _⟩ := Store.claimExecute_eq_ok h
    cases hdisposition
  · rcases Store.claimExisting_eq_ok h with ⟨_, _, rfl⟩ | ⟨_, _, rfl, _⟩
    · refine ⟨fun result hresult => (by cases hresult), fun error herror => ?_, ?_, rfl⟩
      · exact ⟨(Except.error.inj herror).symm, rfl⟩
      · simp [applyAll, Store.apply, ClaimArguments.conflictAttempt, ClaimArguments.startedAttempt]
    · cases hdisposition

/-- A replay reports a row that is committed, with its business rows. -/
theorem Committing.replay (happlied : store.Applied) {claim : Claim} {writes : List Write}
    {rows : List Json.Value}
    (hclaim : store.claimMutation request.arguments env.mutationId env.attemptId env.claimedAt =
      .ok (claim, writes)) (hdisposition : claim.disposition = .replay)
    (hrows : replayRows claim.result = some rows) (affectedRows : Nat) :
    Committing request env store writes
      (.ok (request.result claim.mutationId rows affectedRows true)) := by
  have hresult : claim.result = some (.array rows) := by
    unfold replayRows at hrows
    split at hrows
    next stored heq =>
      split at hrows
      · rw [heq, Option.some.inj hrows]
      · cases hrows
    next => cases hrows
  rcases Store.claimMutation_eq_ok hclaim with h | ⟨existing, hexisting, h⟩
  · obtain ⟨rfl, _⟩ := Store.claimExecute_eq_ok h
    cases hdisposition
  · rcases Store.claimExisting_eq_ok h with ⟨_, rfl, _⟩ | ⟨_, hstatus, rfl, rfl⟩
    · cases hdisposition
    · refine ⟨fun result heq => ?_, fun error herror => (by cases herror), ?_, rfl⟩
      · obtain rfl := Except.ok.inj heq
        constructor
        · refine ⟨_, List.mem_map_of_mem hexisting, ?_⟩
          split
          · exact ⟨rfl, hstatus, hresult⟩
          · exact ⟨rfl, hstatus, hresult⟩
        · obtain ⟨change, hchange, hstored⟩ := happlied existing hexisting
          refine ⟨change, hchange, ?_⟩
          have harray : Json.Value.array change.rows = .array rows :=
            Option.some.inj (hstored.symm.trans hresult)
          exact Json.Value.array.inj harray
      · simp [applyAll, Store.apply, ClaimArguments.replayAttempt, ClaimArguments.startedAttempt]

/-- An execution commits its row and its business rows. -/
theorem Committing.execution (hstore : StoreInvariant store log) {claim : Claim}
    {writes finish : List Write} {rows : List Json.Value}
    (hclaim : store.claimMutation request.arguments env.mutationId env.attemptId env.claimedAt =
      .ok (claim, writes)) (hdisposition : claim.disposition = .execute)
    (hfinish : (applyAll store (writes ++
        [.business { statementHash := request.arguments.statementHash, rows }])).finishMutation
      claim.mutationId claim.attemptId (.array rows) rows.length env.databaseDurationMs
      env.finishedAt = some finish) :
    Committing request env store
      (writes ++ [.business { statementHash := request.arguments.statementHash, rows }] ++ finish)
      (.ok (request.result claim.mutationId rows rows.length false)) := by
  rcases Store.claimMutation_eq_ok hclaim with h | ⟨existing, _, h⟩
  · obtain ⟨rfl, rfl⟩ := Store.claimExecute_eq_ok h
    obtain rfl : finishWrites _ rows env.databaseDurationMs env.finishedAt = finish := by
      unfold Store.finishMutation at hfinish
      split at hfinish
      · exact Option.some.inj hfinish
      · cases hfinish
    let claim : Claim :=
      { disposition := .execute, mutationId := env.mutationId, attemptId := env.attemptId,
        affectedRows := none, result := none }
    let session : Session :=
      sessionAt request.arguments env.mutationId (.finished claim rows)
        (completeWrites request.arguments claim rows env.claimedAt env.databaseDurationMs
          env.finishedAt) []
    have hrows : (protocol.view store session).idempotency = store.idempotency ++
        [executedRow request.arguments claim rows env.claimedAt env.finishedAt] :=
      view_completeWrites hstore.committed rfl
    refine ⟨fun result heq => ?_, fun error herror => (by cases herror), ?_, rfl⟩
    · obtain rfl := Except.ok.inj heq
      constructor
      · refine ⟨executedRow request.arguments claim rows env.claimedAt env.finishedAt, ?_, rfl, rfl,
          rfl⟩
        show _ ∈ (protocol.view store session).idempotency
        rw [hrows]
        exact List.mem_append_right _ (List.mem_singleton.mpr rfl)
      · exact ⟨_, List.mem_append_right _ (List.mem_singleton.mpr rfl), rfl⟩
    · simp [applyAll, finishWrites, Store.apply, ClaimArguments.startedAttempt, Function.comp_def,
        AuditRow.finish, apply_ite AuditRow.attemptId]
  · rcases Store.claimExisting_eq_ok h with ⟨_, rfl, _⟩ | ⟨_, _, rfl, _⟩ <;> cases hdisposition

/-- A call that issues a commit returns what follows the commit. -/
theorem executeCompiled_of_issued (hstore : StoreInvariant store log) (happlied : store.Applied)
    (h : CommitIssued request env store) :
    ∃ writes next, executeCompiled request env store = commitTransaction env store writes next ∧
      Committing request env store writes next ∧ env.metadataSerializes = true ∧
      store.acceptsAttempt request.arguments.details = true := by
  obtain ⟨_, hprepare, claim, writes, hclaim, hissued⟩ := h
  obtain ⟨hserializes, hclaim'⟩ := claimMutation_ok hclaim
  have haccepts := Store.acceptsAttempt_of_claim hclaim'
  simp only [executeCompiled, hprepare, hclaim]
  cases hdisposition : claim.disposition with
  | conflict => exact ⟨writes, _, rfl, .conflict hclaim' hdisposition, hserializes, haccepts⟩
  | replay =>
    simp only [hdisposition] at hissued
    obtain ⟨rows, hrows⟩ := Option.isSome_iff_exists.mp hissued
    simp only [hrows]
    exact ⟨writes, _, rfl, .replay happlied hclaim' hdisposition hrows _, hserializes, haccepts⟩
  | execute =>
    simp only [hdisposition] at hissued
    obtain ⟨rows, hrun, hcount, hanswered⟩ := hissued
    have hfinish : (applyAll store (writes ++
        [.business { statementHash := request.arguments.statementHash, rows }])).finishMutation
        claim.mutationId claim.attemptId (.array rows) rows.length env.databaseDurationMs
        env.finishedAt = some (finishWrites claim rows env.databaseDurationMs env.finishedAt) := by
      rcases Store.claimMutation_eq_ok hclaim' with hexecute | ⟨existing, _, hexisting⟩
      · obtain ⟨rfl, rfl⟩ := Store.claimExecute_eq_ok hexecute
        exact @finishMutation_of_execution store request.arguments _ env.claimedAt rows
          (sessionAt request.arguments env.mutationId .begun _ []) env.databaseDurationMs
          env.finishedAt rfl
      · rcases Store.claimExisting_eq_ok hexisting with ⟨_, rfl, _⟩ | ⟨_, _, rfl, _⟩ <;>
          cases hdisposition
    simp only [executeStatement, hrun, hcount, ↓reduceIte, hanswered]
    rw [← hcount, hfinish]
    exact ⟨_, _, rfl, .execution hstore hclaim' hdisposition hfinish, hserializes, haccepts⟩

/-- The random ids of the failure audit differ from those of the tables and of the claim. -/
structure Environment.FreshFailureIds (env : Environment) (store : Store) : Prop where
  stored : ∀ row ∈ store.audit, row.attemptId ≠ env.failureAttemptId
  claimed : env.attemptId ≠ env.failureAttemptId

/-- The failure audit of an issued commit passes the constraints of its table, so that only the
connection decides whether it is written. -/
theorem rejectWith_indeterminate (committed : Store) (haccepts : store.acceptsAttempt
      request.arguments.details = true) (hrevisions : committed.revisions = store.revisions)
    (hfresh : ∀ row ∈ committed.audit, row.attemptId ≠ env.failureAttemptId) (code : String) :
    (rejectWith request env committed .compiled (failureStatus .commitIndeterminate) code
      env.databaseDurationMs .commitIndeterminate).1 =
      if env.failureAudit = .acknowledged then .error .commitIndeterminate
      else .error .failureAudit := by
  have haudit : committed.acceptsAudit ((FailureMetadata.compiled.details request).failedAttempt
      .indeterminate code env.databaseDurationMs env.failureMutationId env.failureAttemptId
      env.failedAt) = true := by
    apply Store.acceptsAudit_of_details
    · unfold Store.acceptsAttempt at haccepts ⊢
      rw [hrevisions]
      exact haccepts
    · exact hfresh
  have hrecord : committed.recordMutationFailure (FailureMetadata.compiled.details request)
      .indeterminate code env.databaseDurationMs env.failureMutationId env.failureAttemptId
      env.failedAt = some (.insertAudit ((FailureMetadata.compiled.details request).failedAttempt
        .indeterminate code env.databaseDurationMs env.failureMutationId env.failureAttemptId
        env.failedAt)) := by
    simp [Store.recordMutationFailure, haudit]
  simp only [rejectWith, recordFailure, failureStatus, ↓reduceIte, hrecord]
  cases env.failureAudit with
  | acknowledged => rfl
  | lost durable => rfl

/-- The errors before the claim are recorded and returned; none changes business data. -/
theorem executeWithCancel_of_not_reached (h : env.reachesExecution = false) :
    ∃ error, (executeWithCancel request env store).1 = .error error ∧
      (executeWithCancel request env store).2.business = store.business := by
  have hreject : ∀ metadata status code duration error, ∃ returned,
      (rejectWith request env store metadata status code duration error).1 = .error returned ∧
      (rejectWith request env store metadata status code duration error).2.business =
        store.business := by
    intro metadata status code duration error
    obtain ⟨hanswer | hanswer, hbusiness⟩ :=
      rejectWith_spec request env store metadata status code duration error
    · exact ⟨_, hanswer, hbusiness⟩
    · exact ⟨_, hanswer, hbusiness⟩
  unfold executeWithCancel
  cases haudit : env.auditConnects with
  | false => exact ⟨_, rfl, rfl⟩
  | true =>
    cases hlsm : env.lsmError with
    | some code => exact hreject ..
    | none =>
      cases hmutation : env.mutationConnects with
      | false => exact hreject ..
      | true =>
        cases hpublished : env.publishedLoads with
        | false => exact hreject ..
        | true =>
          cases hcompile : env.compileError with
          | some code => exact hreject ..
          | none =>
            cases hcancel : env.acceptsCancelHandle with
            | true => simp [Environment.reachesExecution, *] at h
            | false =>
              cases hserializes : env.metadataSerializes with
              | false => exact ⟨_, rfl, rfl⟩
              | true => exact hreject ..

/-- What a call that comes to `execute_compiled` answers. -/
theorem executeWithCancel_of_reached (h : env.reachesExecution = true) :
    executeWithCancel request env store =
      match executeCompiled request env store with
      | (.ok result, committed) => (.ok result, committed)
      | (.error error, committed) =>
        if error = .idempotencyConflict then (.error error, committed)
        else if env.metadataSerializes then
          rejectWith request env committed .compiled (failureStatus error) (mutationErrorCode error)
            env.databaseDurationMs error
        else (.error .serialization, committed) := by
  simp only [Environment.reachesExecution, Bool.and_eq_true, Option.isNone_iff_eq_none] at h
  obtain ⟨⟨⟨⟨⟨haudit, hlsm⟩, hmutation⟩, hpublished⟩, hcompile⟩, hcancel⟩ := h
  rcases hexecuted : executeCompiled request env store with ⟨_ | _, _⟩ <;>
    simp only [executeWithCancel, haudit, hlsm, hmutation, hpublished, hcompile, hcancel, hexecuted,
      Bool.not_true, Bool.false_eq_true, ↓reduceIte]

/-- A call that issues no commit is truthful. -/
theorem truthful_of_not_issued (h : ¬ CommitIssued request env store) :
    Truthful request env store (executeWithCancel request env store) := by
  have hanswer : ∃ error, (executeWithCancel request env store).1 = .error error ∧
      (executeWithCancel request env store).2.business = store.business := by
    cases hreaches : env.reachesExecution with
    | false => exact executeWithCancel_of_not_reached hreaches
    | true =>
      obtain ⟨error, ⟨_, hconflict⟩, hcompiled⟩ := executeCompiled_of_not_issued hreaches h
      rw [executeWithCancel_of_reached hreaches, hcompiled]
      simp only [hconflict, ↓reduceIte]
      split
      · obtain ⟨hanswer | hanswer, hbusiness⟩ := rejectWith_spec request env store .compiled
          (failureStatus error) (mutationErrorCode error) env.databaseDurationMs error
        · exact ⟨_, hanswer, hbusiness⟩
        · exact ⟨_, hanswer, hbusiness⟩
      · exact ⟨_, rfl, rfl⟩
  obtain ⟨error, hanswer, hbusiness⟩ := hanswer
  refine ⟨fun result hresult => ?_, fun _ _ _ => hbusiness, fun hissued => absurd hissued h⟩
  rw [hanswer] at hresult
  cases hresult

/-- A call whose commit is acknowledged is truthful. -/
theorem truthful_of_acknowledged {writes : List Write}
    {next : Except MutationExecuteError MutationResult} (hreaches : env.reachesExecution = true)
    (hcompiled : executeCompiled request env store = commitTransaction env store writes next)
    (hcommitting : Committing request env store writes next) (hcommit : env.commit = .acknowledged) :
    Truthful request env store (executeWithCancel request env store) := by
  rw [executeWithCancel_of_reached hreaches, hcompiled]
  simp only [commitTransaction, hcommit]
  cases hnext : next with
  | ok result =>
    refine ⟨fun reported hreported => ?_, fun error herror => (by cases herror),
      fun _ hlost => absurd hcommit hlost⟩
    obtain rfl := Except.ok.inj hreported
    exact hcommitting.result result hnext
  | error error =>
    obtain ⟨rfl, hbusiness⟩ := hcommitting.error error hnext
    exact ⟨fun result hresult => (by cases hresult), fun _ _ _ => hbusiness,
      fun _ hlost => absurd hcommit hlost⟩

/-- After a lost acknowledgement the answer is the indeterminate error, if the failure audit is
written, and the error of the failure audit otherwise. -/
theorem answer_of_lost {writes : List Write} {next : Except MutationExecuteError MutationResult}
    {durable : Bool} (hreaches : env.reachesExecution = true)
    (hcompiled : executeCompiled request env store = commitTransaction env store writes next)
    (hcommitting : Committing request env store writes next)
    (hserializes : env.metadataSerializes = true)
    (haccepts : store.acceptsAttempt request.arguments.details = true)
    (hids : env.FreshFailureIds store) (hcommit : env.commit = .lost durable) :
    (executeWithCancel request env store).1 =
      if env.failureAudit = .acknowledged then .error .commitIndeterminate
      else .error .failureAudit := by
  rw [executeWithCancel_of_reached hreaches, hcompiled]
  simp only [commitTransaction, hcommit, reduceCtorEq, ↓reduceIte, hserializes]
  apply rejectWith_indeterminate _ haccepts
  · split
    · exact hcommitting.revisions
    · rfl
  · intro row hrow
    split at hrow
    · have hid : row.attemptId ∈ (applyAll store writes).audit.map AuditRow.attemptId :=
        List.mem_map_of_mem hrow
      rw [hcommitting.attempts] at hid
      rcases List.mem_append.mp hid with hid | hid
      · obtain ⟨other, hother, heq⟩ := List.mem_map.mp hid
        rw [← heq]
        exact hids.stored other hother
      · rw [List.mem_singleton.mp hid]
        exact hids.claimed
    · exact hids.stored row hrow

end Calls

def orderRequest : Request :=
  { arguments := insertOrder, columns := [("sku", .text)], fieldNames := ["sku"],
    maxResultBytes := 1024, rawHash := someHash '9' }

/-- A call for which everything but the two commits goes well. -/
def orderEnvironment (commit failureAudit : Commit) : Environment :=
  { auditConnects := true, lsmError := none, mutationConnects := true, publishedLoads := true,
    compileError := none, acceptsCancelHandle := true, transactionStarts := true,
    searchPathFixed := true, role := .checked true, target := .table, configurationApplied := true,
    metadataSerializes := true, claimAnswered := true, mutationId := "m-1", attemptId := "a-1",
    claimedAt := 0, statement := orderRows.map .row, finishAnswered := true,
    databaseDurationMs := 0, finishedAt := 1, commit, failureAudit, failureMutationId := "m-f",
    failureAttemptId := "a-f", failedAt := 2 }

theorem orderEnvironment_fresh (commit failureAudit : Commit) :
    (orderEnvironment commit failureAudit).FreshFailureIds emptyStore :=
  ⟨by simp [emptyStore], by simp [orderEnvironment]⟩

theorem claimMutation_of_ok {request : Request} {env : Environment} {store : Store}
    {claim : Claim} {writes : List Write} (hmetadata : env.metadataSerializes = true)
    (hrows : request.arguments.requestedRows < 2 ^ 63) (hanswered : env.claimAnswered = true)
    (h : store.claimMutation request.arguments env.mutationId env.attemptId env.claimedAt =
      .ok (claim, writes)) : claimMutation request env store = .ok (claim, writes) := by
  rw [claimMutation, hmetadata, hanswered, decide_eq_true hrows, h]
  rfl

theorem order_claimed (commit failureAudit : Commit) :
    claimMutation orderRequest (orderEnvironment commit failureAudit) emptyStore =
      .ok (firstClaim, executionWrites insertOrder firstClaim 0) := by
  have hclaim : emptyStore.claimMutation insertOrder "m-1" "a-1" 0 =
      .ok (firstClaim, executionWrites insertOrder firstClaim 0) :=
    Store.claimMutation_of_uncovered (insertOrder_admissible rfl)
      ⟨by simp [emptyStore], by simp [emptyStore]⟩ (by simp [emptyStore])
  exact claimMutation_of_ok rfl (by decide) rfl hclaim

theorem order_commit_issued (commit failureAudit : Commit) :
    CommitIssued orderRequest (orderEnvironment commit failureAudit) emptyStore :=
  ⟨rfl, rfl, firstClaim, executionWrites insertOrder firstClaim 0,
    order_claimed commit failureAudit, orderRows, rfl, rfl, rfl⟩

end Postgresem.Mutation
