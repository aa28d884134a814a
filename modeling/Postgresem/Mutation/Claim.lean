import Postgresem.Mutation.Store

/-! The security-definer functions of governed mutation, each as what it reads from the tables it
sees and the writes it makes. -/
namespace Postgresem.Mutation

def IdempotencyRow.isPrincipalOf (args : ClaimArguments) (row : IdempotencyRow) : Bool :=
  row.project == args.project && row.authorityHash == args.authorityHash
    && row.authorityScheme == .principal && row.idempotencyKeyHash == args.idempotencyKeyHash

def IdempotencyRow.isLegacyOf (args : ClaimArguments) (row : IdempotencyRow) : Bool :=
  row.project == args.project && row.authorityScheme == .legacy
    && row.idempotencyKeyHash == args.idempotencyKeyHash

def Store.selectPrincipal (store : Store) (args : ClaimArguments) : Option IdempotencyRow :=
  store.idempotency.find? fun row => row.isPrincipalOf args

/-- `ORDER BY created_at LIMIT 1`. -/
def Store.selectLegacy (store : Store) (args : ClaimArguments) : Option IdempotencyRow :=
  (store.idempotency.filter fun row => row.isLegacyOf args).argmin IdempotencyRow.createdAt

/-- The row an execution claim inserts, before the statement has run. -/
def ClaimArguments.newRow (args : ClaimArguments) (mutationId : String) (now : Nat) :
    IdempotencyRow :=
  { project := args.project
    idempotencyKeyHash := args.idempotencyKeyHash
    authorityHash := args.authorityHash
    databaseRole := args.databaseRole
    authorityScheme := .principal
    lsmHash := args.lsmHash
    revisionId := args.revisionId
    semanticRevisionHash := args.semanticRevisionHash
    mutationId
    status := .started
    result := none
    affectedRows := none
    replayCount := 0
    createdAt := now
    committedAt := none
    lastReplayedAt := none }

/-- The stored request is not the one that is claimed. -/
def IdempotencyRow.differs (existing : IdempotencyRow) (args : ClaimArguments) : Bool :=
  (existing.authorityScheme == .legacy && existing.authorityHash != args.legacyAuthorityHash)
    || existing.databaseRole != args.databaseRole || existing.lsmHash != args.lsmHash
    || existing.revisionId != args.revisionId
    || existing.semanticRevisionHash != args.semanticRevisionHash

inductive Disposition where
  | execute
  | conflict
  | replay
  deriving DecidableEq, Repr

/-- The row `claim_mutation` returns. -/
structure Claim where
  disposition : Disposition
  mutationId : String
  attemptId : String
  affectedRows : Option Nat
  result : Option Json.Value

inductive ClaimError where
  | invalidAuthorityContext
  | notCommitted
  | noDataFound
  | constraintViolation
  deriving DecidableEq, Repr

def ClaimArguments.startedAttempt (args : ClaimArguments) (mutationId attemptId : String)
    (now : Nat) : AuditRow :=
  { attemptId, mutationId, details := args.details, status := .started, errorCode := none,
    affectedRows := none, replayed := false, databaseDurationMs := none, startedAt := now,
    completedAt := none }

def ClaimArguments.conflictAttempt (args : ClaimArguments) (mutationId attemptId : String)
    (now : Nat) : AuditRow :=
  { args.startedAttempt mutationId attemptId now with
    status := .rejected, errorCode := some "MUTATION_IDEMPOTENCY_CONFLICT",
    affectedRows := some 0, completedAt := some now }

def ClaimArguments.replayAttempt (args : ClaimArguments) (existing : IdempotencyRow)
    (attemptId : String) (now : Nat) : AuditRow :=
  { args.startedAttempt existing.mutationId attemptId now with
    status := .committed, affectedRows := existing.affectedRows, replayed := true,
    completedAt := some now }

/-- The constraints on a new audit row; its `attempt_id` is the primary key. -/
def Store.acceptsAudit (store : Store) (row : AuditRow) : Bool :=
  store.acceptsAttempt row.details && !(store.audit.map AuditRow.attemptId).contains row.attemptId

/-- `INSERT ... ON CONFLICT (project, authority_hash, idempotency_key_hash) DO NOTHING`: whether a
row was inserted. A row of another key with the same `mutation_id` and an unknown revision raise. -/
def Store.insertPrincipal (store : Store) (row : IdempotencyRow) : Except ClaimError Bool :=
  if row.satisfiesChecks then
    if (store.idempotency.map IdempotencyRow.primaryKey).contains row.primaryKey then .ok false
    else if (store.idempotency.map IdempotencyRow.mutationId).contains row.mutationId then
      .error .constraintViolation
    else if store.revisions.contains row.revisionId then .ok true
    else .error .constraintViolation
  else .error .constraintViolation

/-- The end of an execution claim, once its row is inserted. -/
def Store.claimExecute (store : Store) (args : ClaimArguments) (mutationId attemptId : String)
    (now : Nat) : Except ClaimError (Claim × List Write) :=
  let attempt := args.startedAttempt mutationId attemptId now
  if store.acceptsAudit attempt then
    .ok ({ disposition := .execute, mutationId, attemptId, affectedRows := none, result := none },
      [.insertIdempotency (args.newRow mutationId now), .insertAudit attempt])
  else .error .constraintViolation

/-- The end of a claim that found a row. -/
def Store.claimExisting (store : Store) (args : ClaimArguments) (mutationId attemptId : String)
    (now : Nat) (existing : IdempotencyRow) : Except ClaimError (Claim × List Write) :=
  if existing.differs args then
    let attempt := args.conflictAttempt mutationId attemptId now
    if store.acceptsAudit attempt then
      .ok ({ disposition := .conflict, mutationId, attemptId, affectedRows := some 0,
             result := none }, [.insertAudit attempt])
    else .error .constraintViolation
  else if existing.status ≠ .committed then .error .notCommitted
  else
    let attempt := args.replayAttempt existing attemptId now
    if store.acceptsAudit attempt then
      .ok ({ disposition := .replay, mutationId := existing.mutationId, attemptId,
             affectedRows := existing.affectedRows, result := existing.result },
        [.countReplay { project := args.project, authorityHash := existing.authorityHash,
                        idempotencyKeyHash := args.idempotencyKeyHash } now,
         .insertAudit attempt])
    else .error .constraintViolation

/-- `claim_mutation` without concurrent claims, with the random ids and the clock as arguments. -/
def Store.claimMutation (store : Store) (args : ClaimArguments) (mutationId attemptId : String)
    (now : Nat) : Except ClaimError (Claim × List Write) :=
  if args.validContext then
    match store.selectPrincipal args with
    | some existing => store.claimExisting args mutationId attemptId now existing
    | none =>
      match store.selectLegacy args with
      | some existing => store.claimExisting args mutationId attemptId now existing
      | none =>
        match store.insertPrincipal (args.newRow mutationId now) with
        | .error error => .error error
        | .ok true => store.claimExecute args mutationId attemptId now
        | .ok false =>
          match store.selectPrincipal args with
          | some existing => store.claimExisting args mutationId attemptId now existing
          | none => .error .noDataFound
  else .error .invalidAuthorityContext

/-- `finish_mutation`; it raises when one of its updates finds no started row. -/
def Store.finishMutation (store : Store) (mutationId attemptId : String) (result : Json.Value)
    (affectedRows databaseDurationMs now : Nat) : Option (List Write) :=
  if store.idempotency.any (·.isStarted mutationId)
      && store.audit.any (·.isStarted attemptId mutationId) then
    some [.finishIdempotency mutationId result affectedRows now,
      .finishAudit attemptId mutationId affectedRows databaseDurationMs now]
  else none

def AttemptDetails.failedAttempt (details : AttemptDetails) (status : AuditStatus)
    (errorCode : String) (databaseDurationMs : Nat) (mutationId attemptId : String) (now : Nat) :
    AuditRow :=
  { attemptId, mutationId, details, status, errorCode := some errorCode, affectedRows := some 0,
    replayed := false, databaseDurationMs := some databaseDurationMs, startedAt := now,
    completedAt := some now }

/-- `record_mutation_failure`; it raises for a status that is not terminal. -/
def Store.recordMutationFailure (store : Store) (details : AttemptDetails) (status : AuditStatus)
    (errorCode : String) (databaseDurationMs : Nat) (mutationId attemptId : String) (now : Nat) :
    Option Write :=
  let row := details.failedAttempt status errorCode databaseDurationMs mutationId attemptId now
  if status ∈ [.rejected, .rolledBack, .indeterminate, .reconciled] && store.acceptsAudit row then
    some (.insertAudit row)
  else none

/-- What `lookup_mutation_idempotency` reports of a row. -/
structure IdempotencyState where
  mutationId : String
  status : IdempotencyStatus
  affectedRows : Option Nat
  replayCount : Nat
  committedAt : Option Nat
  lastReplayedAt : Option Nat

def IdempotencyRow.state (row : IdempotencyRow) : IdempotencyState :=
  { mutationId := row.mutationId, status := row.status, affectedRows := row.affectedRows,
    replayCount := row.replayCount, committedAt := row.committedAt,
    lastReplayedAt := row.lastReplayedAt }

def IdempotencyRow.isCandidate (project authorityHash legacyAuthorityHash idempotencyKeyHash : String)
    (row : IdempotencyRow) : Bool :=
  row.project == project && row.idempotencyKeyHash == idempotencyKeyHash
    && ((row.authorityScheme == .principal && row.authorityHash == authorityHash)
      || (row.authorityScheme == .legacy && row.authorityHash == legacyAuthorityHash))

/-- The role is checked after `LIMIT 1`, so that a mismatch does not fall back to a legacy row. -/
def Store.lookupMutationIdempotency (store : Store)
    (project authorityHash legacyAuthorityHash idempotencyKeyHash databaseRole : String) :
    Option IdempotencyState :=
  let candidates := store.idempotency.filter
    fun row => row.isCandidate project authorityHash legacyAuthorityHash idempotencyKeyHash
  let selected := candidates.argmax fun row => row.authorityScheme == .principal
  (selected.filter fun row => row.databaseRole == databaseRole).map IdempotencyRow.state

/-- The row answers a claim, under the principal scheme or the legacy one. -/
def IdempotencyRow.Covers (row : IdempotencyRow) (args : ClaimArguments) : Prop :=
  row.isPrincipalOf args = true ∨ row.isLegacyOf args = true

theorem IdempotencyRow.isPrincipalOf_iff {row : IdempotencyRow} {args : ClaimArguments} :
    row.isPrincipalOf args = true ↔
      row.authorityScheme = .principal ∧ row.primaryKey = args.primaryKey := by
  simp only [IdempotencyRow.isPrincipalOf, IdempotencyRow.primaryKey, ClaimArguments.primaryKey,
    Bool.and_eq_true, beq_iff_eq, PrimaryKey.mk.injEq]
  tauto

theorem IdempotencyRow.isLegacyOf_iff {row : IdempotencyRow} {args : ClaimArguments} :
    row.isLegacyOf args = true ↔ row.authorityScheme = .legacy ∧ row.project = args.project ∧
      row.idempotencyKeyHash = args.idempotencyKeyHash := by
  simp only [IdempotencyRow.isLegacyOf, Bool.and_eq_true, beq_iff_eq]
  tauto

theorem IdempotencyRow.Covers.project_key {row : IdempotencyRow} {args : ClaimArguments}
    (h : row.Covers args) :
    row.project = args.project ∧ row.idempotencyKeyHash = args.idempotencyKeyHash := by
  rcases h with h | h
  · have hkey := (IdempotencyRow.isPrincipalOf_iff.mp h).2
    simp only [IdempotencyRow.primaryKey, ClaimArguments.primaryKey, PrimaryKey.mk.injEq] at hkey
    exact ⟨hkey.1, hkey.2.2⟩
  · exact (IdempotencyRow.isLegacyOf_iff.mp h).2

/-- A row with the primary key of a claim answers it, whatever its scheme. -/
theorem IdempotencyRow.covers_of_key {row : IdempotencyRow} {args : ClaimArguments}
    (h : row.primaryKey = args.primaryKey) : row.Covers args := by
  cases hscheme : row.authorityScheme with
  | principal => exact Or.inl (IdempotencyRow.isPrincipalOf_iff.mpr ⟨hscheme, h⟩)
  | legacy =>
    simp only [IdempotencyRow.primaryKey, ClaimArguments.primaryKey, PrimaryKey.mk.injEq] at h
    exact Or.inr (IdempotencyRow.isLegacyOf_iff.mpr ⟨hscheme, h.1, h.2.2⟩)

/-- The arguments pass the checks that `claim_mutation` and the tables make on them. -/
structure ClaimArguments.Admissible (args : ClaimArguments) (store : Store) : Prop where
  context : args.validContext = true
  row : ∀ mutationId now, (args.newRow mutationId now).satisfiesChecks = true
  revision : args.revisionId ∈ store.revisions
  attempt : store.acceptsAttempt args.details = true

/-- The random ids of a claim occur in no committed row. -/
structure Store.FreshIds (store : Store) (mutationId attemptId : String) : Prop where
  mutation : ∀ row ∈ store.idempotency, row.mutationId ≠ mutationId
  attempt : ∀ row ∈ store.audit, row.attemptId ≠ attemptId

section Specifications
variable {store : Store} {args : ClaimArguments} {mutationId attemptId : String} {now : Nat}
  {row existing : IdempotencyRow} {claim : Claim} {writes : List Write}

theorem Store.selectPrincipal_eq_some (h : store.selectPrincipal args = some row) :
    row ∈ store.idempotency ∧ row.isPrincipalOf args = true :=
  ⟨List.mem_of_find?_eq_some h, List.find?_some h⟩

theorem Store.selectPrincipal_eq_none :
    store.selectPrincipal args = none ↔ ∀ row ∈ store.idempotency, row.isPrincipalOf args = false := by
  simp [Store.selectPrincipal]

theorem Store.selectLegacy_eq_some (h : store.selectLegacy args = some row) :
    row ∈ store.idempotency ∧ row.isLegacyOf args = true :=
  List.mem_filter.mp (List.argmin_mem h)

theorem Store.selectLegacy_eq_none :
    store.selectLegacy args = none ↔ ∀ row ∈ store.idempotency, row.isLegacyOf args = false := by
  simp [Store.selectLegacy, List.argmin_eq_none]

theorem Store.insertPrincipal_eq_true :
    store.insertPrincipal row = .ok true ↔ row.satisfiesChecks = true ∧
      (∀ other ∈ store.idempotency, other.primaryKey ≠ row.primaryKey) ∧
      (∀ other ∈ store.idempotency, other.mutationId ≠ row.mutationId) ∧
      row.revisionId ∈ store.revisions := by
  unfold Store.insertPrincipal
  split_ifs <;> simp_all

theorem Store.insertPrincipal_eq_error {error : ClaimError}
    (h : store.insertPrincipal row = .error error) : error = .constraintViolation := by
  unfold Store.insertPrincipal at h
  split_ifs at h <;> exact (Except.error.inj h).symm

theorem Store.claimExecute_eq_ok
    (h : store.claimExecute args mutationId attemptId now = .ok (claim, writes)) :
    claim = { disposition := .execute, mutationId, attemptId, affectedRows := none, result := none } ∧
      writes = [.insertIdempotency (args.newRow mutationId now),
        .insertAudit (args.startedAttempt mutationId attemptId now)] := by
  unfold Store.claimExecute at h
  simp only at h
  split at h
  · simp only [Except.ok.injEq, Prod.mk.injEq] at h
    exact ⟨h.1.symm, h.2.symm⟩
  · cases h

/-- A claim that found a row is a conflict when the stored request differs, else a replay of it. -/
theorem Store.claimExisting_eq_ok
    (h : store.claimExisting args mutationId attemptId now existing = .ok (claim, writes)) :
    (existing.differs args = true ∧
      claim = { disposition := .conflict, mutationId, attemptId, affectedRows := some 0,
                result := none } ∧
      writes = [.insertAudit (args.conflictAttempt mutationId attemptId now)]) ∨
    (existing.differs args = false ∧ existing.status = .committed ∧
      claim = { disposition := .replay, mutationId := existing.mutationId, attemptId,
                affectedRows := existing.affectedRows, result := existing.result } ∧
      writes = [.countReplay { project := args.project, authorityHash := existing.authorityHash,
                               idempotencyKeyHash := args.idempotencyKeyHash } now,
        .insertAudit (args.replayAttempt existing attemptId now)]) := by
  unfold Store.claimExisting at h
  simp only at h
  split at h
  next hdiffers =>
    split at h
    · simp only [Except.ok.injEq, Prod.mk.injEq] at h
      exact Or.inl ⟨hdiffers, h.1.symm, h.2.symm⟩
    · cases h
  next hsame =>
    split at h
    · cases h
    next hcommitted =>
      split at h
      · simp only [Except.ok.injEq, Prod.mk.injEq] at h
        exact Or.inr ⟨by simpa using hsame, not_not.mp hcommitted, h.1.symm, h.2.symm⟩
      · cases h

/-- A claim executes, or it is answered by a stored row. -/
theorem Store.claimMutation_eq_ok
    (h : store.claimMutation args mutationId attemptId now = .ok (claim, writes)) :
    store.claimExecute args mutationId attemptId now = .ok (claim, writes) ∨
      ∃ existing ∈ store.idempotency,
        store.claimExisting args mutationId attemptId now existing = .ok (claim, writes) := by
  unfold Store.claimMutation at h
  split at h
  · split at h
    next existing hprincipal =>
      exact Or.inr ⟨existing, (Store.selectPrincipal_eq_some hprincipal).1, h⟩
    next =>
      split at h
      next existing hlegacy =>
        exact Or.inr ⟨existing, (Store.selectLegacy_eq_some hlegacy).1, h⟩
      next =>
        split at h
        next => cases h
        next => exact Or.inl h
        next => cases h
  · cases h

/-- A claim that is answered has passed the constraints on its audit row. -/
theorem Store.acceptsAttempt_of_claim
    (h : store.claimMutation args mutationId attemptId now = .ok (claim, writes)) :
    store.acceptsAttempt args.details = true := by
  have haudit : ∀ row : AuditRow, row.details = args.details → store.acceptsAudit row = true →
      store.acceptsAttempt args.details = true := by
    intro row hdetails hrow
    simp only [Store.acceptsAudit, Bool.and_eq_true] at hrow
    rw [← hdetails]
    exact hrow.1
  rcases Store.claimMutation_eq_ok h with h | ⟨existing, _, h⟩
  · unfold Store.claimExecute at h
    simp only at h
    split at h
    next hrow => exact haudit _ rfl hrow
    next => cases h
  · unfold Store.claimExisting at h
    simp only at h
    split_ifs at h with hdiffers hrow hcommitted hrow
    · exact haudit _ rfl hrow
    · exact haudit _ rfl hrow

theorem Store.acceptsAudit_of_details {row : AuditRow}
    (hdetails : store.acceptsAttempt row.details = true)
    (hfresh : ∀ other ∈ store.audit, other.attemptId ≠ row.attemptId) :
    store.acceptsAudit row = true := by
  simp only [Store.acceptsAudit, hdetails, Bool.true_and, Bool.not_eq_true', List.contains_eq_mem,
    decide_eq_false_iff_not, List.mem_map, not_exists, not_and]
  exact hfresh

/-- A claim that found the same request is a replay of it. -/
theorem Store.claimExisting_of_same (hargs : store.acceptsAttempt args.details = true)
    (hattempt : ∀ other ∈ store.audit, other.attemptId ≠ attemptId)
    (hsame : existing.differs args = false) (hcommitted : existing.status = .committed) :
    store.claimExisting args mutationId attemptId now existing =
      .ok ({ disposition := .replay, mutationId := existing.mutationId, attemptId,
             affectedRows := existing.affectedRows, result := existing.result },
        [.countReplay { project := args.project, authorityHash := existing.authorityHash,
                        idempotencyKeyHash := args.idempotencyKeyHash } now,
         .insertAudit (args.replayAttempt existing attemptId now)]) := by
  have haudit : store.acceptsAudit (args.replayAttempt existing attemptId now) = true :=
    Store.acceptsAudit_of_details hargs hattempt
  simp [Store.claimExisting, hsame, hcommitted, haudit]

/-- A claim that found another request is a conflict. -/
theorem Store.claimExisting_of_differs (hargs : store.acceptsAttempt args.details = true)
    (hattempt : ∀ other ∈ store.audit, other.attemptId ≠ attemptId)
    (hdiffers : existing.differs args = true) :
    store.claimExisting args mutationId attemptId now existing =
      .ok ({ disposition := .conflict, mutationId, attemptId, affectedRows := some 0,
             result := none }, [.insertAudit (args.conflictAttempt mutationId attemptId now)]) := by
  have haudit : store.acceptsAudit (args.conflictAttempt mutationId attemptId now) = true :=
    Store.acceptsAudit_of_details hargs hattempt
  simp [Store.claimExisting, hdiffers, haudit]

/-- A claim that no row answers is to execute. -/
theorem Store.claimMutation_of_uncovered (hargs : args.Admissible store)
    (hids : store.FreshIds mutationId attemptId)
    (huncovered : ∀ row ∈ store.idempotency, ¬ row.Covers args) :
    store.claimMutation args mutationId attemptId now =
      .ok ({ disposition := .execute, mutationId, attemptId, affectedRows := none, result := none },
        [.insertIdempotency (args.newRow mutationId now),
         .insertAudit (args.startedAttempt mutationId attemptId now)]) := by
  have hprincipal : store.selectPrincipal args = none := by
    rw [Store.selectPrincipal_eq_none]
    intro row hrow
    exact Bool.eq_false_iff.mpr fun h => huncovered row hrow (Or.inl h)
  have hlegacy : store.selectLegacy args = none := by
    rw [Store.selectLegacy_eq_none]
    intro row hrow
    exact Bool.eq_false_iff.mpr fun h => huncovered row hrow (Or.inr h)
  have hinsert : store.insertPrincipal (args.newRow mutationId now) = .ok true := by
    refine Store.insertPrincipal_eq_true.mpr ⟨hargs.row mutationId now, ?_, hids.mutation,
      hargs.revision⟩
    intro row hrow hkey
    exact huncovered row hrow (IdempotencyRow.covers_of_key hkey)
  have haudit : store.acceptsAudit (args.startedAttempt mutationId attemptId now) = true :=
    Store.acceptsAudit_of_details hargs.attempt hids.attempt
  simp only [Store.claimMutation, hargs.context, ↓reduceIte, hprincipal, hlegacy, hinsert,
    Store.claimExecute, haudit]

/-- A claim is answered by the one row that covers it. -/
theorem Store.claimMutation_of_covered (hargs : args.Admissible store)
    (hrow : row ∈ store.idempotency) (hcovers : row.Covers args)
    (honly : ∀ other ∈ store.idempotency, other.Covers args → other = row) :
    store.claimMutation args mutationId attemptId now =
      store.claimExisting args mutationId attemptId now row := by
  simp only [Store.claimMutation, hargs.context, ↓reduceIte]
  cases hprincipal : store.selectPrincipal args with
  | some existing =>
    obtain ⟨hmem, hexisting⟩ := Store.selectPrincipal_eq_some hprincipal
    rw [honly existing hmem (Or.inl hexisting)]
  | none =>
    cases hlegacy : store.selectLegacy args with
    | some existing =>
      obtain ⟨hmem, hexisting⟩ := Store.selectLegacy_eq_some hlegacy
      rw [honly existing hmem (Or.inr hexisting)]
    | none =>
      rcases hcovers with hcovers | hcovers
      · have hfalse := Store.selectPrincipal_eq_none.mp hprincipal row hrow
        exact absurd (hfalse.symm.trans hcovers) Bool.false_ne_true
      · have hfalse := Store.selectLegacy_eq_none.mp hlegacy row hrow
        exact absurd (hfalse.symm.trans hcovers) Bool.false_ne_true

end Specifications

end Postgresem.Mutation
