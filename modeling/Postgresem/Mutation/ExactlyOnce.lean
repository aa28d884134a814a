import Postgresem.Mutation.Invariant
import Mathlib.Data.List.Pairwise

/-! Governed mutations take effect at most once for each key, and every other claim for the key is
answered from the row of the one that did. -/
namespace Postgresem.Mutation
open ReadCommitted (Protocol)

def ClaimArguments.SameRequest (args other : ClaimArguments) : Prop :=
  args.lsmHash = other.lsmHash ∧ args.databaseRole = other.databaseRole ∧
    args.revisionId = other.revisionId ∧ args.semanticRevisionHash = other.semanticRevisionHash

/-- The transaction is open, or it has committed. -/
def Present (server : Server) (i : Nat) (session : Session) : Prop :=
  server.status i = .active session ∨ (i, session) ∈ server.log

/-- The transaction wrote the outcome that the row holds. -/
def IdempotencyRow.StoredBy (row : IdempotencyRow) (session : Session) : Prop :=
  row.primaryKey = session.control.arguments.primaryKey ∧ ∃ result affectedRows finished,
    Write.finishIdempotency row.mutationId result affectedRows finished ∈ session.writes ∧
    row.result = some result ∧ row.affectedRows = some affectedRows

section
variable {store : Store} {log : List (Nat × Session)} {session done : Session} {claim : Claim}

instance : Std.Symm Apart where
  symm _ _ h hsecond hfirst hkey := h hfirst hsecond hkey.symm

/-- A list has at most one element of a kind whose elements cannot be related. -/
theorem length_filter_le_one {α : Type} {R : α → α → Prop} {kind : α → Bool} {xs : List α}
    (hxs : xs.Pairwise R) (hkind : ∀ a b, kind a = true → kind b = true → ¬ R a b) :
    (xs.filter kind).length ≤ 1 := by
  induction xs with
  | nil => simp
  | cons x xs ih =>
    rw [List.pairwise_cons] at hxs
    by_cases hx : kind x = true
    · have hrest : xs.filter kind = [] := by
        rw [List.filter_eq_nil_iff]
        intro y hy hky
        exact hkind x y hx hky (hxs.1 y hy)
      simp [hx, hrest]
    · simpa [hx] using ih hxs.2

theorem StoreInvariant.ran_at_most_once (h : StoreInvariant store log) (key : PrimaryKey) :
    (log.filter fun entry => ranStatement entry.2 &&
      entry.2.control.arguments.primaryKey == key).length ≤ 1 := by
  apply length_filter_le_one h.apart
  intro first second hfirst hsecond hapart
  rw [Bool.and_eq_true, beq_iff_eq] at hfirst hsecond
  exact hapart hfirst.1 hsecond.1 (hfirst.2.trans hsecond.2.symm)

/-- The row that a committed execution left. -/
theorem Settled.executedRow_mem (h : Settled store done) (hran : ranStatement done = true) :
    ∃ stored rows created duration finished,
      done.writes = completeWrites done.control.arguments stored rows created duration finished ∧
      executedRow done.control.arguments stored rows created finished ∈ store.cores := by
  unfold Settled at h
  split at h
  · rw [h.2] at hran
    cases hran
  · obtain ⟨_, created, duration, finished, hwrites, hrow⟩ := h
    exact ⟨_, _, created, duration, finished, hwrites, hrow⟩
  · exact h.elim

/-- The executed row differs from a claim for its key exactly when the request is another one. -/
theorem executedRow_differs {args other : ClaimArguments} {rows : List Json.Value}
    {created finished : Nat} :
    (executedRow args claim rows created finished).differs other = false ↔
      other.SameRequest args := by
  simp only [executedRow, IdempotencyRow.finish, ClaimArguments.newRow, IdempotencyRow.differs,
    ClaimArguments.SameRequest, Bool.or_eq_false_iff, bne_eq_false_iff_eq]
  constructor
  · rintro ⟨⟨⟨⟨_, hrole⟩, hlsm⟩, hrevision⟩, hhash⟩
    exact ⟨hlsm.symm, hrole.symm, hrevision.symm, hhash.symm⟩
  · rintro ⟨hlsm, hrole, hrevision, hhash⟩
    exact ⟨⟨⟨⟨rfl, hrole.symm⟩, hlsm.symm⟩, hrevision.symm⟩, hhash.symm⟩

/-- A claim for the key of a committed execution is answered by the row of that execution. -/
theorem Answered.of_executedRow (h : StoreInvariant store log) {args : ClaimArguments} {stored : Claim}
    {rows : List Json.Value} {created finished : Nat}
    (hrow : executedRow args stored rows created finished ∈ store.cores)
    {other : ClaimArguments} (hkey : args.primaryKey = other.primaryKey)
    (hanswered : Answered store.cores other claim) :
    (other.SameRequest args → claim.disposition = .replay ∧ claim.mutationId = stored.mutationId ∧
      claim.affectedRows = some rows.length ∧ claim.result = some (.array rows)) ∧
    (¬ other.SameRequest args → claim.disposition = .conflict) := by
  obtain ⟨row, hmem, hcovers, hanswer⟩ := hanswered
  obtain rfl := h.functional other row hmem _ hrow hcovers (executedRow_covers.mpr hkey)
  cases hdisposition : claim.disposition with
  | execute =>
    rw [hdisposition] at hanswer
    exact hanswer.elim
  | conflict =>
    rw [hdisposition] at hanswer
    refine ⟨fun hsame => ?_, fun _ => rfl⟩
    have hfalse : (executedRow args stored rows created finished).differs other = false :=
      executedRow_differs.mpr hsame
    exact absurd (hfalse.symm.trans hanswer) Bool.false_ne_true
  | replay =>
    rw [hdisposition] at hanswer
    obtain ⟨hsame, hmutation, haffected, hresult⟩ := hanswer
    exact ⟨fun _ => ⟨rfl, hmutation, haffected, hresult⟩,
      fun hne => absurd (executedRow_differs.mp hsame) hne⟩

/-- An open transaction with a claim for a key that a stored row answers runs no statement. -/
theorem SessionInvariant.answered (h : SessionInvariant store session)
    (hclaim : session.control.claim? = some claim) {row : IdempotencyRow} (hrow : row ∈ store.cores)
    (hcovers : row.Covers session.control.arguments) :
    ranStatement session = false ∧ Answered store.cores session.control.arguments claim := by
  unfold SessionInvariant at h
  unfold Control.claim? at hclaim
  cases hstage : session.control.stage with
  | claimed made =>
    simp only [hstage, Option.some.injEq] at h hclaim
    subst hclaim
    cases hdisposition : made.disposition with
    | execute =>
      simp only [hdisposition] at h
      obtain ⟨created, hexecuting, _⟩ := h
      exact absurd hcovers (hexecuting.uncovered row hrow)
    | conflict =>
      simp only [hdisposition] at h
      obtain ⟨hanswered, now, hwrites⟩ := h
      exact ⟨by simp [ranStatement, hwrites, Write.isBusiness], hanswered⟩
    | replay =>
      simp only [hdisposition] at h
      obtain ⟨hanswered, existing, now, _, _, hwrites⟩ := h
      exact ⟨by simp [ranStatement, hwrites, Write.isBusiness], hanswered⟩
  | ran made rows =>
    simp only [hstage] at h
    obtain ⟨created, hexecuting, _⟩ := h
    exact absurd hcovers (hexecuting.uncovered row hrow)
  | finished made rows =>
    simp only [hstage] at h
    obtain ⟨created, duration, finished, hexecuting, _⟩ := h
    exact absurd hcovers (hexecuting.uncovered row hrow)
  | begun => simp [hstage] at hclaim
  | principalMissed => simp [hstage] at hclaim
  | legacyMissed => simp [hstage] at hclaim
  | raced => simp [hstage] at hclaim
  | found existing => simp [hstage] at hclaim

/-- A committed transaction that ran no statement was answered by a stored row. -/
theorem Settled.answered (h : Settled store session) (hran : ranStatement session = false)
    (hclaim : session.control.claim? = some claim) :
    Answered store.cores session.control.arguments claim := by
  unfold Settled at h
  unfold Control.claim? at hclaim
  cases hstage : session.control.stage with
  | claimed made =>
    simp only [hstage, Option.some.injEq] at h hclaim
    subst hclaim
    exact h.1
  | finished made rows =>
    simp only [hstage] at h
    obtain ⟨_, created, duration, finished, hwrites, _⟩ := h
    simp [ranStatement, hwrites, completeWrites, executionWrites, Write.isBusiness] at hran
  | begun => simp [hstage] at h
  | principalMissed => simp [hstage] at h
  | legacyMissed => simp [hstage] at h
  | raced => simp [hstage] at h
  | found existing => simp [hstage] at h
  | ran made rows => simp [hstage] at h

end

/-- Exactly-once execution, over every interleaving with rollbacks and crashes at every step: the
executions that commit have different keys, and where one has committed, every other claim for its
key is a replay of the row it stored, or a conflict when the request is another one. -/
theorem exactly_once {store : Store} {server : Server} (hmigrated : store.Migrated)
    (hrun : protocol.Reachable store server) :
    (∀ key, (server.log.filter fun entry => ranStatement entry.2 &&
      entry.2.control.arguments.primaryKey == key).length ≤ 1) ∧
    ∀ i done, (i, done) ∈ server.log → ranStatement done = true →
      ∃ row ∈ server.store.idempotency, row.StoredBy done ∧
        ∀ j session claim, Present server j session → j ≠ i →
          session.control.claim? = some claim →
          session.control.arguments.primaryKey = done.control.arguments.primaryKey →
          ranStatement session = false ∧
          (session.control.arguments.SameRequest done.control.arguments →
            claim.disposition = .replay ∧ claim.mutationId = row.mutationId ∧
              claim.affectedRows = row.affectedRows ∧ claim.result = row.result) ∧
          (¬ session.control.arguments.SameRequest done.control.arguments →
            claim.disposition = .conflict) := by
  obtain ⟨hstore, hsessions⟩ := reachable_invariant hmigrated hrun
  refine ⟨hstore.ran_at_most_once, ?_⟩
  intro i done hdone hran
  have hsettled : Settled server.store done := hstore.settled (i, done) hdone
  obtain ⟨stored, rows, created, duration, finished, hwrites, hcore⟩ := hsettled.executedRow_mem hran
  obtain ⟨row, hrow, hrowcore⟩ := Store.mem_cores hcore
  have hfields : row.primaryKey = done.control.arguments.primaryKey ∧
      row.mutationId = stored.mutationId ∧ row.affectedRows = some rows.length ∧
      row.result = some (.array rows) := by
    refine ⟨congrArg IdempotencyRow.primaryKey hrowcore, congrArg IdempotencyRow.mutationId hrowcore,
      congrArg IdempotencyRow.affectedRows hrowcore, congrArg IdempotencyRow.result hrowcore⟩
  obtain ⟨hkey, hmutation, haffected, hresult⟩ := hfields
  refine ⟨row, hrow, ⟨hkey, .array rows, rows.length, finished, ?_, hresult, haffected⟩, ?_⟩
  · simp [hwrites, completeWrites, finishWrites, hmutation]
  · intro j session claim hpresent hne hclaim hsessionKey
    have hanswered : ranStatement session = false ∧
        Answered server.store.cores session.control.arguments claim := by
      rcases hpresent with hactive | hlogged
      · exact (hsessions j session hactive).answered hclaim hcore
          (executedRow_covers.mpr hsessionKey.symm)
      · -- A second execution of the key would be in the log beside the first.
        have hnotran : ranStatement session = false := by
          by_contra hran'
          have hapart : Apart (j, session) (i, done) :=
            hstore.apart.forall hlogged hdone (fun heq => hne (congrArg Prod.fst heq))
          exact hapart (Bool.not_eq_false _ ▸ hran') hran hsessionKey
        exact ⟨hnotran, (hstore.settled _ hlogged).answered hnotran hclaim⟩
    have houtcome := Answered.of_executedRow hstore hcore hsessionKey.symm hanswered.2
    rw [hmutation, haffected, hresult]
    exact ⟨hanswered.1, houtcome⟩

section Completion
variable {store : Store} {server : Server} {i : Nat} {args : ClaimArguments} {mutationId : String}
  {claim : Claim} {created : Nat} {rows : List Json.Value}

/-- `finish_mutation` finds the rows its own transaction inserted. -/
theorem finishMutation_of_execution {session : Session} (duration finished : Nat)
    (hwrites : session.writes = executionWrites args claim created ++
      [.business (businessChange args rows)]) :
    (protocol.view store session).finishMutation claim.mutationId claim.attemptId (.array rows)
      rows.length duration finished = some (finishWrites claim rows duration finished) := by
  simp [Store.finishMutation, Protocol.view, hwrites, executionWrites, protocol, Store.apply,
    IdempotencyRow.isStarted, AuditRow.isStarted, ClaimArguments.newRow,
    ClaimArguments.startedAttempt, finishWrites]

def sessionAt (args : ClaimArguments) (mutationId : String) (stage : Stage) (writes : List Write)
    (locks : List Lock) : Session :=
  { control := { arguments := args, mutationId, stage }, writes, locks }

/-- An execution claim whose statement returns the requested rows can finish and commit. -/
theorem execution_alone {locks : List Lock} (halone : server.Alone i)
    (hrun : protocol.Reachable store (server.setStatus i (.active
      (sessionAt args mutationId (.claimed claim) (executionWrites args claim created) locks))))
    (hexecute : claim.disposition = .execute) (harrays : rows.all Json.Value.isArray = true)
    (hcount : rows.length = args.requestedRows) (duration finished : Nat) :
    protocol.Reachable store (protocol.commit server i (sessionAt args mutationId
      (.finished claim rows) (completeWrites args claim rows created duration finished) locks)) := by
  have hrunStatement : protocol.statement
      (protocol.view server.store
        (sessionAt args mutationId (.claimed claim) (executionWrites args claim created) locks))
      { arguments := args, mutationId, stage := .claimed claim }
      [.business (businessChange args rows)] []
      { arguments := args, mutationId, stage := .ran claim rows } :=
    ⟨{ noChoice with rows }, by simp [Control.advance, hexecute, harrays, businessChange]⟩
  have hran : protocol.Reachable store (server.setStatus i (.active
      (sessionAt args mutationId (.ran claim rows)
        (executionWrites args claim created ++ [.business (businessChange args rows)])
        (locks ++ [])))) := hrun.statement_alone halone hrunStatement
  have hfinishStatement : protocol.statement
      (protocol.view server.store (sessionAt args mutationId (.ran claim rows)
        (executionWrites args claim created ++ [.business (businessChange args rows)])
        (locks ++ [])))
      { arguments := args, mutationId, stage := .ran claim rows }
      (finishWrites claim rows duration finished) []
      { arguments := args, mutationId, stage := .finished claim rows } := by
    refine ⟨{ noChoice with databaseDurationMs := duration, now := finished }, ?_⟩
    simp only [Control.advance, hcount, ↓reduceIte]
    rw [← hcount, finishMutation_of_execution duration finished rfl]
    rfl
  have hfinished := (hran.statement_alone halone hfinishStatement).commit rfl
  simpa [sessionAt, completeWrites] using hfinished

end Completion

def someHash (digit : Char) : String := "sha256:" ++ String.ofList (List.replicate 64 digit)

/-- A request of one row, for the mapped role `app_writer`. -/
def insertOrder : ClaimArguments :=
  { project := "shop", idempotencyKeyHash := someHash '1', authorityHash := someHash '2',
    lsmSchemaVersion := "lsm/v1", lsmHash := someHash '3', revisionId := "revision-1",
    semanticRevisionHash := someHash '4', principalSubjectHash := someHash '5',
    compilerVersion := "1", configProfile := "default", operation := .insert, model := "orders",
    statementHash := someHash '6', compilerMutationHash := someHash '7',
    parameterTypes := .array [.string "text"], lineage := .object [],
    policyContext :=
      { databaseRole := some "app_writer", legacyAuthorityHash := some (someHash '8'),
        project := some "shop", capabilityProfile := none },
    requestedRows := 1, validationDurationMs := 0, compileDurationMs := 0 }

def emptyStore : Store :=
  { revisions := ["revision-1"], idempotency := [], audit := [], business := [] }

theorem emptyStore_migrated : emptyStore.Migrated := by
  constructor <;> simp [emptyStore]

theorem insertOrder_admissible {store : Store} (h : store.revisions = ["revision-1"]) :
    insertOrder.Admissible store where
  context := by decide +kernel
  row _ _ := by
    simp only [IdempotencyRow.satisfiesChecks, ClaimArguments.newRow]
    decide +kernel
  revision := by simp [h, insertOrder]
  attempt := by
    simp only [Store.acceptsAttempt, h]
    decide +kernel

/-- The row that an execution of the request returns. -/
def orderRows : List Json.Value := [.array [.string "A-1"]]

def firstClaim : Claim :=
  { disposition := .execute, mutationId := "m-1", attemptId := "a-1", affectedRows := none,
    result := none }

/-- The transaction that inserted the order. -/
def orderSession (locks : List Lock) : Session :=
  sessionAt insertOrder "m-1" (.finished firstClaim orderRows)
    (completeWrites insertOrder firstClaim orderRows 0 0 1) locks

def orderServer (locks : List Lock) : Server :=
  protocol.commit (.initial emptyStore) 0 (orderSession locks)

theorem orderServer_reachable : ∃ locks, protocol.Reachable emptyStore (orderServer locks) := by
  have halone : (ReadCommitted.Server.initial emptyStore : Server).Alone 0 := by
    intro j session _ hactive
    cases hactive
  have hclaim : emptyStore.claimMutation insertOrder "m-1" "a-1" 0 =
      .ok (firstClaim, executionWrites insertOrder firstClaim 0) :=
    Store.claimMutation_of_uncovered (insertOrder_admissible rfl)
      ⟨by simp [emptyStore], by simp [emptyStore]⟩ (by simp [emptyStore])
  obtain ⟨locks, hclaimed⟩ := claim_alone .refl rfl halone hclaim
  exact ⟨locks, execution_alone halone hclaimed rfl rfl rfl 0 1⟩

theorem orderServer_store (locks : List Lock) :
    (orderServer locks).store.idempotency = [executedRow insertOrder firstClaim orderRows 0 1] ∧
      (orderServer locks).store.audit.map AuditRow.attemptId = ["a-1"] ∧
      (orderServer locks).store.revisions = ["revision-1"] := by
  refine ⟨view_completeWrites 
    (by simp [ReadCommitted.Server.initial, emptyStore, Store.cores]) rfl, rfl, rfl⟩

/-- A second claim for the same request, once the first has committed. -/
theorem orderServer_claim (locks : List Lock) :
    ∃ writes, (orderServer locks).store.claimMutation insertOrder "m-2" "a-2" 2 =
      .ok ({ disposition := .replay, mutationId := "m-1", attemptId := "a-2",
             affectedRows := some 1, result := some (.array orderRows) }, writes) := by
  obtain ⟨hrows, haudit, hrevisions⟩ := orderServer_store locks
  have hargs := insertOrder_admissible hrevisions
  have hrow : executedRow insertOrder firstClaim orderRows 0 1 ∈
      (orderServer locks).store.idempotency := by simp [hrows]
  rw [Store.claimMutation_of_covered hargs hrow (executedRow_covers.mpr rfl)
    (fun other hother _ => by simpa [hrows] using hother)]
  have hsame : (executedRow insertOrder firstClaim orderRows 0 1).differs insertOrder = false :=
    executedRow_differs.mpr ⟨rfl, rfl, rfl, rfl⟩
  have hfresh : ∀ other ∈ (orderServer locks).store.audit, other.attemptId ≠ "a-2" := by
    intro other hother
    have hid : other.attemptId ∈ ["a-1"] := haudit ▸ List.mem_map_of_mem hother
    rw [List.mem_singleton.mp hid]
    decide
  exact ⟨_, Store.claimExisting_of_same hargs.attempt hfresh hsame rfl⟩

/-- The retry of a committed mutation is a replay of it. -/
theorem exactly_once_retry : ∃ server session claim, protocol.Reachable emptyStore server ∧
    server.status 1 = .active session ∧ session.control.claim? = some claim ∧
    (∃ done, (0, done) ∈ server.log ∧ ranStatement done = true) ∧
    ranStatement session = false ∧ claim.disposition = .replay := by
  obtain ⟨locks, hrun⟩ := orderServer_reachable
  have halone : (orderServer locks).Alone 1 := by
    intro j session _ hactive
    cases j <;> cases hactive
  obtain ⟨writes, hclaim⟩ := orderServer_claim locks
  obtain ⟨locks', hretry⟩ := claim_alone hrun rfl halone hclaim
  have hdone : (0, orderSession locks) ∈ (orderServer locks).log := List.mem_singleton.mpr rfl
  obtain ⟨row, _, _, hothers⟩ :=
    (exactly_once emptyStore_migrated hretry).2 0 (orderSession locks) hdone rfl
  obtain ⟨hran, hreplay, _⟩ := hothers 1 _ _ (Or.inl (ReadCommitted.Server.setStatus_self _ _ _))
    (by decide) rfl rfl
  exact ⟨_, _, _, hretry, ReadCommitted.Server.setStatus_self _ _ _, rfl, ⟨_, hdone, rfl⟩, hran,
    (hreplay ⟨rfl, rfl, rfl, rfl⟩).1⟩

end Postgresem.Mutation
