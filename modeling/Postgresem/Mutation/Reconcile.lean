import Postgresem.Mutation.ExactlyOnce

/-! `lookup_mutation_idempotency` answers as `claim_mutation` would: it reports a row exactly when a
claim for the stored request would replay it. -/
namespace Postgresem.Mutation

/-- The claim's arguments with the request that a row stores. -/
def ClaimArguments.withStored (args : ClaimArguments) (row : IdempotencyRow) : ClaimArguments :=
  { args with lsmHash := row.lsmHash, revisionId := row.revisionId,
              semanticRevisionHash := row.semanticRevisionHash }

/-- `reconcile` asks with the values that a claim is made with. -/
def Store.lookupFor (store : Store) (args : ClaimArguments) : Option IdempotencyState :=
  store.lookupMutationIdempotency args.project args.authorityHash args.legacyAuthorityHash
    args.idempotencyKeyHash args.databaseRole

section
variable {store : Store} {log : List (Nat × Session)} {args : ClaimArguments}
  {row : IdempotencyRow} {mutationId attemptId : String} {now : Nat}

/-- A claim finds at most one row of the table. -/
theorem StoreInvariant.eq_of_covers (h : StoreInvariant store log) {other : IdempotencyRow}
    (hrow : row ∈ store.idempotency) (hother : other ∈ store.idempotency)
    (hcovers : row.Covers args) (hcovers' : other.Covers args) : other = row := by
  have hcore : other.core = row.core :=
    h.functional args _ (Store.core_mem hother) _ (Store.core_mem hrow) hcovers' hcovers
  have hnodup : (store.idempotency.map IdempotencyRow.mutationId).Nodup := by
    have hids := h.mutationIds
    rw [Store.cores, List.map_map] at hids
    exact hids
  have hid : other.core.mutationId = row.core.mutationId := by rw [hcore]
  exact List.inj_on_of_nodup_map hnodup hother hrow hid

/-- The candidates of a lookup are the rows that answer the claim, less the legacy rows of another
authority. -/
theorem IdempotencyRow.isCandidate_iff :
    row.isCandidate args.project args.authorityHash args.legacyAuthorityHash
        args.idempotencyKeyHash = true ↔
      row.Covers args ∧
        (row.authorityScheme = .legacy → row.authorityHash = args.legacyAuthorityHash) := by
  unfold IdempotencyRow.Covers
  rw [IdempotencyRow.isPrincipalOf_iff, IdempotencyRow.isLegacyOf_iff]
  simp only [IdempotencyRow.isCandidate, IdempotencyRow.primaryKey, ClaimArguments.primaryKey,
    PrimaryKey.mk.injEq, Bool.and_eq_true, Bool.or_eq_true, beq_iff_eq]
  cases row.authorityScheme with
  | principal =>
    simp only [true_and, reduceCtorEq, false_and, or_false, false_implies, and_true]
    tauto
  | legacy =>
    simp only [true_and, reduceCtorEq, false_and, false_or, true_implies]

theorem lookupFor_of_uncovered (h : ∀ row ∈ store.idempotency, ¬ row.Covers args) :
    store.lookupFor args = none := by
  have hnone : store.idempotency.filter (fun row => row.isCandidate args.project args.authorityHash
      args.legacyAuthorityHash args.idempotencyKeyHash) = [] := by
    rw [List.filter_eq_nil_iff]
    intro row hrow hcandidate
    exact h row hrow (IdempotencyRow.isCandidate_iff.mp hcandidate).1
  simp [Store.lookupFor, Store.lookupMutationIdempotency, hnone]

/-- A lookup reports the row that answers the claim when its authority and its role agree. -/
theorem lookupFor_of_covered (hrow : row ∈ store.idempotency) (hcovers : row.Covers args)
    (honly : ∀ other ∈ store.idempotency, other.Covers args → other = row) :
    store.lookupFor args =
      if (row.authorityScheme = .legacy → row.authorityHash = args.legacyAuthorityHash) ∧
          row.databaseRole = args.databaseRole then some row.state else none := by
  unfold Store.lookupFor Store.lookupMutationIdempotency
  simp only
  cases hselected : (store.idempotency.filter fun row => row.isCandidate args.project
      args.authorityHash args.legacyAuthorityHash args.idempotencyKeyHash).argmax
      (fun row => row.authorityScheme == .principal) with
  | none =>
    rw [List.argmax_eq_none, List.filter_eq_nil_iff] at hselected
    have hnot : ¬ (row.authorityScheme = .legacy → row.authorityHash = args.legacyAuthorityHash) :=
      fun hauthority => hselected row hrow (IdempotencyRow.isCandidate_iff.mpr ⟨hcovers, hauthority⟩)
    rw [if_neg fun hboth => hnot hboth.1]
    rfl
  | some selected =>
    obtain ⟨hmem, hcandidate⟩ := List.mem_filter.mp (List.argmax_mem hselected)
    obtain ⟨hcovers', hauthority⟩ := IdempotencyRow.isCandidate_iff.mp hcandidate
    obtain rfl := honly selected hmem hcovers'
    by_cases hrole : selected.databaseRole = args.databaseRole
    · rw [if_pos ⟨hauthority, hrole⟩]
      simp [Option.filter, hrole]
    · rw [if_neg fun hboth => hrole hboth.2]
      simp [Option.filter, hrole]

/-- The stored request passes the checks of the tables, as it did when its row was written. -/
theorem ClaimArguments.Admissible.withStored (hargs : args.Admissible store)
    (hchecks : row.satisfiesChecks = true) (hrevision : row.revisionId ∈ store.revisions) :
    (args.withStored row).Admissible store where
  context := hargs.context
  row mutationId now := by
    have hnew := hargs.row mutationId now
    simp only [IdempotencyRow.satisfiesChecks, ClaimArguments.newRow, Bool.and_eq_true] at hnew hchecks
    simp only [IdempotencyRow.satisfiesChecks, ClaimArguments.newRow, Bool.and_eq_true]
    obtain ⟨⟨⟨⟨⟨⟨hproject, hkey⟩, hauthority⟩, _⟩, _⟩, hrole⟩, hstatus⟩ := hnew
    obtain ⟨⟨⟨⟨_, hlsm⟩, hhash⟩, _⟩, _⟩ := hchecks
    exact ⟨⟨⟨⟨⟨⟨hproject, hkey⟩, hauthority⟩, hlsm⟩, hhash⟩, hrole⟩, hstatus⟩
  revision := hrevision
  attempt := by
    have hattempt := hargs.attempt
    simp only [IdempotencyRow.satisfiesChecks, Bool.and_eq_true] at hchecks
    simp only [Store.acceptsAttempt, ClaimArguments.details, Option.all_some,
      Bool.and_eq_true] at hattempt ⊢
    obtain ⟨⟨⟨⟨_, hlsm⟩, hhash⟩, _⟩, _⟩ := hchecks
    simp only [ClaimArguments.withStored, hattempt, hlsm, hhash, List.contains_eq_mem, hrevision,
      decide_true, and_self]

/-- A claim for the stored request differs from its row in the authority or the role only. -/
theorem differs_withStored :
    row.differs (args.withStored row) = false ↔
      (row.authorityScheme = .legacy → row.authorityHash = args.legacyAuthorityHash) ∧
        row.databaseRole = args.databaseRole := by
  simp only [IdempotencyRow.differs, ClaimArguments.withStored, ClaimArguments.legacyAuthorityHash,
    ClaimArguments.databaseRole, Bool.or_eq_false_iff, Bool.and_eq_false_iff, bne_eq_false_iff_eq,
    beq_eq_false_iff_ne, and_true]
  tauto

/-- A row that does not differ from some claim has its authority and its role. -/
theorem authority_of_not_differs (h : row.differs args = false) :
    (row.authorityScheme = .legacy → row.authorityHash = args.legacyAuthorityHash) ∧
      row.databaseRole = args.databaseRole := by
  simp only [IdempotencyRow.differs, Bool.or_eq_false_iff, Bool.and_eq_false_iff,
    bne_eq_false_iff_eq, beq_eq_false_iff_ne] at h
  tauto

/-- The claim for the request of a row is answered by the row that answers the arguments. -/
theorem covers_withStored : row.Covers (args.withStored row) ↔ row.Covers args := Iff.rfl

/-- The claim for the arguments of a lookup, as the row that answers it decides. -/
theorem StoreInvariant.claim_of_covered (h : StoreInvariant store log) (hargs : args.Admissible store)
    (hids : store.FreshIds mutationId attemptId) (hrow : row ∈ store.idempotency)
    (hcovers : row.Covers args) :
    ∃ claim writes, store.claimMutation args mutationId attemptId now = .ok (claim, writes) ∧
      (row.differs args = true ∧ claim.disposition = .conflict ∨
        row.differs args = false ∧ claim.disposition = .replay ∧
          claim.mutationId = row.mutationId) := by
  rw [Store.claimMutation_of_covered hargs hrow hcovers
    (fun other hother hcovers' => h.eq_of_covers hrow hother hcovers hcovers')]
  cases hdiffers : row.differs args with
  | true =>
    exact ⟨_, _, Store.claimExisting_of_differs hargs.attempt hids.attempt hdiffers,
      Or.inl ⟨rfl, rfl⟩⟩
  | false =>
    have hstatus : row.status = .committed := h.committed row.core (Store.core_mem hrow)
    exact ⟨_, _, Store.claimExisting_of_same hargs.attempt hids.attempt hdiffers hstatus,
      Or.inr ⟨rfl, rfl, rfl⟩⟩

/-- A lookup reports a mutation exactly when a claim for its stored request would replay it. -/
theorem StoreInvariant.lookup_iff_replay (h : StoreInvariant store log)
    (hargs : args.Admissible store) (hids : store.FreshIds mutationId attemptId) (reported : String) :
    (∃ state, store.lookupFor args = some state ∧ state.mutationId = reported) ↔
      ∃ row ∈ store.idempotency, row.mutationId = reported ∧ ∃ claim writes,
        store.claimMutation (args.withStored row) mutationId attemptId now = .ok (claim, writes) ∧
          claim.disposition = .replay ∧ claim.mutationId = reported := by
  constructor
  · rintro ⟨state, hlookup, hreported⟩
    by_cases hcovered : ∃ row ∈ store.idempotency, row.Covers args
    · obtain ⟨row, hrow, hcovers⟩ := hcovered
      rw [lookupFor_of_covered hrow hcovers
        (fun other hother hcovers' => h.eq_of_covers hrow hother hcovers hcovers')] at hlookup
      split at hlookup
      next hauthority =>
        obtain rfl := Option.some.inj hlookup
        obtain ⟨hchecks, hrevision⟩ := h.checked row.core (Store.core_mem hrow)
        obtain ⟨claim, writes, hclaim, hanswer⟩ :=
          h.claim_of_covered (hargs.withStored hchecks hrevision) hids hrow
            (covers_withStored.mpr hcovers)
        rcases hanswer with ⟨hdiffers, _⟩ | ⟨_, hreplay, hmutation⟩
        · exact absurd ((differs_withStored.mpr hauthority).symm.trans hdiffers) Bool.false_ne_true
        · exact ⟨row, hrow, hreported, claim, writes, hclaim, hreplay, hmutation.trans hreported⟩
      next => cases hlookup
    · rw [lookupFor_of_uncovered fun row hrow hcovers => hcovered ⟨row, hrow, hcovers⟩] at hlookup
      cases hlookup
  · rintro ⟨stored, hstored, _, claim, writes, hclaim, hreplay, hmutation⟩
    obtain ⟨hchecks, hrevision⟩ := h.checked stored.core (Store.core_mem hstored)
    have hargs' : (args.withStored stored).Admissible store := hargs.withStored hchecks hrevision
    by_cases hcovered : ∃ row ∈ store.idempotency, row.Covers args
    · obtain ⟨row, hrow, hcovers⟩ := hcovered
      have hcovers' : row.Covers (args.withStored stored) := hcovers
      obtain ⟨claim', writes', hclaim', hanswer⟩ := h.claim_of_covered hargs' hids hrow hcovers'
      rw [hclaim] at hclaim'
      simp only [Except.ok.injEq, Prod.mk.injEq] at hclaim'
      obtain ⟨rfl, rfl⟩ := hclaim'
      rcases hanswer with ⟨_, hconflict⟩ | ⟨hsame, _, hid⟩
      · rw [hreplay] at hconflict
        cases hconflict
      · refine ⟨row.state, ?_, hid.symm.trans hmutation⟩
        rw [lookupFor_of_covered hrow hcovers
          (fun other hother hcovers'' => h.eq_of_covers hrow hother hcovers hcovers'')]
        exact if_pos (authority_of_not_differs hsame)
    · rw [Store.claimMutation_of_uncovered hargs' hids
        (fun row hrow hcovers => hcovered ⟨row, hrow, hcovers⟩)] at hclaim
      simp only [Except.ok.injEq, Prod.mk.injEq] at hclaim
      rw [← hclaim.1] at hreplay
      cases hreplay

/-- Where a lookup reports nothing, a claim with its arguments executes or is a conflict. -/
theorem StoreInvariant.claim_of_no_lookup (h : StoreInvariant store log)
    (hargs : args.Admissible store) (hids : store.FreshIds mutationId attemptId)
    (hlookup : store.lookupFor args = none) :
    ∃ claim writes, store.claimMutation args mutationId attemptId now = .ok (claim, writes) ∧
      (claim.disposition = .execute ∨ claim.disposition = .conflict) := by
  by_cases hcovered : ∃ row ∈ store.idempotency, row.Covers args
  · obtain ⟨row, hrow, hcovers⟩ := hcovered
    obtain ⟨claim, writes, hclaim, hanswer⟩ := h.claim_of_covered hargs hids hrow hcovers
    rcases hanswer with ⟨_, hconflict⟩ | ⟨hsame, _, _⟩
    · exact ⟨claim, writes, hclaim, Or.inr hconflict⟩
    · rw [lookupFor_of_covered hrow hcovers
        (fun other hother hcovers' => h.eq_of_covers hrow hother hcovers hcovers'),
        if_pos (authority_of_not_differs hsame)] at hlookup
      cases hlookup
  · exact ⟨_, _, Store.claimMutation_of_uncovered hargs hids
      (fun row hrow hcovers => hcovered ⟨row, hrow, hcovers⟩), Or.inl rfl⟩

end

/-- Reconciliation agrees with claims in every reachable state: legacy and principal rows of one
project and key exclude each other, a lookup reports a mutation exactly when a claim for its stored
request would replay it, and where it reports nothing a claim executes or is a conflict. -/
theorem reconcile_agrees_with_claim {store : Store} {server : Server} (hmigrated : store.Migrated)
    (hrun : protocol.Reachable store server) :
    (∀ legacy ∈ server.store.idempotency, ∀ principal ∈ server.store.idempotency,
      legacy.authorityScheme = .legacy → principal.authorityScheme = .principal →
      ¬ (legacy.project = principal.project ∧
        legacy.idempotencyKeyHash = principal.idempotencyKeyHash)) ∧
    ∀ args mutationId attemptId now, args.Admissible server.store →
      server.store.FreshIds mutationId attemptId →
      (∀ reported, (∃ state, server.store.lookupFor args = some state ∧
          state.mutationId = reported) ↔
        ∃ row ∈ server.store.idempotency, row.mutationId = reported ∧ ∃ claim writes,
          server.store.claimMutation (args.withStored row) mutationId attemptId now =
            .ok (claim, writes) ∧
          claim.disposition = .replay ∧ claim.mutationId = reported) ∧
      (server.store.lookupFor args = none → ∃ claim writes,
        server.store.claimMutation args mutationId attemptId now = .ok (claim, writes) ∧
          (claim.disposition = .execute ∨ claim.disposition = .conflict)) := by
  obtain ⟨hstore, _⟩ := reachable_invariant hmigrated hrun
  constructor
  · rintro legacy hlegacy principal hprincipal hscheme hscheme' ⟨hproject, hkey⟩
    -- Both rows answer a claim for the key of the principal row.
    let args : ClaimArguments :=
      { insertOrder with project := principal.project, authorityHash := principal.authorityHash,
                         idempotencyKeyHash := principal.idempotencyKeyHash }
    have hcovers : legacy.Covers args :=
      Or.inr (IdempotencyRow.isLegacyOf_iff.mpr ⟨hscheme, hproject, hkey⟩)
    have heq := hstore.eq_of_covers hprincipal hlegacy (IdempotencyRow.covers_of_key rfl) hcovers
    rw [heq, hscheme'] at hscheme
    cases hscheme
  · intro args mutationId attemptId now hargs hids
    exact ⟨hstore.lookup_iff_replay hargs hids, hstore.claim_of_no_lookup hargs hids⟩

/-- After the order was inserted, reconciliation reports its mutation. -/
theorem reconcile_reports_order : ∃ server state, protocol.Reachable emptyStore server ∧
    server.store.lookupFor insertOrder = some state ∧ state.mutationId = "m-1" := by
  obtain ⟨locks, hrun⟩ := orderServer_reachable
  obtain ⟨hrows, haudit, hrevisions⟩ := orderServer_store locks
  have hids : (orderServer locks).store.FreshIds "m-2" "a-2" := by
    constructor
    · rw [hrows]
      intro row hrow
      rw [List.mem_singleton.mp hrow]
      decide
    · intro other hother
      have hid : other.attemptId ∈ ["a-1"] := haudit ▸ List.mem_map_of_mem hother
      rw [List.mem_singleton.mp hid]
      decide
  obtain ⟨writes, hclaim⟩ := orderServer_claim locks
  have hrow : executedRow insertOrder firstClaim orderRows 0 1 ∈
      (orderServer locks).store.idempotency := by
    rw [hrows]
    exact List.mem_singleton.mpr rfl
  obtain ⟨state, hstate, hid⟩ := (((reconcile_agrees_with_claim emptyStore_migrated hrun).2
    insertOrder "m-2" "a-2" 2 (insertOrder_admissible hrevisions) hids).1 "m-1").mpr
    ⟨_, hrow, rfl, _, writes, hclaim, rfl, rfl⟩
  exact ⟨orderServer locks, state, hrun, hstate, hid⟩

end Postgresem.Mutation
