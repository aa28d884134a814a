import Postgresem.Mutation.ExactlyOnce

/-! The committed tables agree with one another: each principal row has the audit row, the business
change and the replays of the transactions that wrote it, and nothing else reaches the tables. -/
namespace Postgresem.Mutation
open ReadCommitted (Protocol)

def AuditRow.isExecution (mutationId : String) (row : AuditRow) : Bool :=
  row.mutationId == mutationId && row.status == .committed && !row.replayed

def AuditRow.isReplay (mutationId : String) (row : AuditRow) : Bool :=
  row.mutationId == mutationId && row.status == .committed && row.replayed

/-- The audit row of a finished execution. -/
def finishedAttempt (args : ClaimArguments) (claim : Claim) (rows : List Json.Value)
    (created duration finished : Nat) : AuditRow :=
  (args.startedAttempt claim.mutationId claim.attemptId created).finish rows.length duration finished

def Write.change? : Write → Option BusinessChange
  | .business change => some change
  | _ => none

/-- What a transaction changes in the business tables. -/
def changes (session : Session) : List BusinessChange := session.writes.filterMap Write.change?

/-- One transaction wrote the row, its audit row and its business change, and the replays of the row
are counted. -/
def Recorded (audit : List AuditRow) (log : List (Nat × Session)) (row : IdempotencyRow) : Prop :=
  (∃ i done claim rows created duration finished, (i, done) ∈ log ∧
    done.writes = completeWrites done.control.arguments claim rows created duration finished ∧
    row.core = executedRow done.control.arguments claim rows created finished ∧
    audit.filter (·.isExecution row.mutationId) =
      [finishedAttempt done.control.arguments claim rows created duration finished]) ∧
  row.replayCount = (audit.filter (·.isReplay row.mutationId)).length

structure AuditInvariant (base store : Store) (log : List (Nat × Session)) : Prop where
  completed : ∀ row ∈ store.audit, row.status ≠ .started
  known : ∀ row ∈ store.audit, row.status = .committed →
    ∃ core ∈ store.cores, core.mutationId = row.mutationId
  recorded : ∀ row ∈ store.idempotency, row.authorityScheme = .principal →
    Recorded store.audit log row
  business : store.business = base.business ++ log.flatMap fun entry => changes entry.2

section
variable {base store : Store} {log : List (Nat × Session)} {session : Session}

theorem Recorded.append {audit : List AuditRow} {row : IdempotencyRow} {added : AuditRow}
    {entries : List (Nat × Session)} (h : Recorded audit log row)
    (hexecution : added.isExecution row.mutationId = false)
    (hreplay : added.isReplay row.mutationId = false) :
    Recorded (audit ++ [added]) (log ++ entries) row := by
  obtain ⟨⟨i, done, claim, rows, created, duration, finished, hdone, hwrites, hcore, hfilter⟩,
    hcount⟩ := h
  refine ⟨⟨i, done, claim, rows, created, duration, finished, List.mem_append_left _ hdone, hwrites,
    hcore, ?_⟩, ?_⟩
  · rw [List.filter_append, hfilter]
    simp [hexecution]
  · rw [List.filter_append, hcount]
    simp [hreplay]

/-- A replay commits one more replayed audit row and counts it. -/
theorem Recorded.replay {audit : List AuditRow} {row : IdempotencyRow} {added : AuditRow}
    {entries : List (Nat × Session)} (h : Recorded audit log row)
    (hreplay : added.isReplay row.mutationId = true) (now : Nat) :
    Recorded (audit ++ [added]) (log ++ entries) (row.countReplay now) := by
  obtain ⟨⟨i, done, claim, rows, created, duration, finished, hdone, hwrites, hcore, hfilter⟩,
    hcount⟩ := h
  have hexecution : added.isExecution row.mutationId = false := by
    simp only [AuditRow.isReplay, Bool.and_eq_true] at hreplay
    simp [AuditRow.isExecution, hreplay.2]
  refine ⟨⟨i, done, claim, rows, created, duration, finished, List.mem_append_left _ hdone, hwrites,
    hcore, ?_⟩, ?_⟩
  · show (audit ++ [added]).filter (·.isExecution row.mutationId) = _
    rw [List.filter_append, hfilter]
    simp [hexecution]
  · show row.replayCount + 1 = ((audit ++ [added]).filter (·.isReplay row.mutationId)).length
    rw [List.filter_append, List.length_append, hcount]
    simp [hreplay]

/-- An audit row of a rejected, rolled back or indeterminate attempt changes nothing else. -/
theorem AuditInvariant.addAttempt (h : AuditInvariant base store log) (attempt : AuditRow)
    (hstarted : attempt.status ≠ .started) (hcommitted : attempt.status ≠ .committed)
    (entries : List (Nat × Session)) (hentries : entries.flatMap (fun entry => changes entry.2) = []) :
    AuditInvariant base { store with audit := store.audit ++ [attempt] } (log ++ entries) := by
  constructor
  · intro row hrow
    rcases List.mem_append.mp hrow with hrow | hrow
    · exact h.completed row hrow
    · rw [List.mem_singleton.mp hrow]
      exact hstarted
  · intro row hrow hstatus
    rcases List.mem_append.mp hrow with hrow | hrow
    · exact h.known row hrow hstatus
    · rw [List.mem_singleton.mp hrow] at hstatus
      exact absurd hstatus hcommitted
  · intro row hrow hprincipal
    exact (h.recorded row hrow hprincipal).append (by simp [AuditRow.isExecution, hcommitted])
      (by simp [AuditRow.isReplay, hcommitted])
  · rw [List.flatMap_append, hentries, List.append_nil]
    exact h.business

/-- The failure audit adds a row that is not committed. -/
theorem AuditInvariant.external {write : Write} (h : AuditInvariant base store log)
    (hexternal : protocol.external store write) :
    AuditInvariant base (protocol.apply store write) log := by
  obtain ⟨details, status, errorCode, duration, mutationId, attemptId, now, hrecord⟩ := hexternal
  unfold Store.recordMutationFailure at hrecord
  simp only at hrecord
  split at hrecord
  next hterminal =>
    obtain rfl := Option.some.inj hrecord
    rw [Bool.and_eq_true, decide_eq_true_eq] at hterminal
    have hstarted : status ≠ .started := by
      rintro rfl
      simp at hterminal
    have hcommitted : status ≠ .committed := by
      rintro rfl
      simp at hterminal
    have hadded := h.addAttempt
      (details.failedAttempt status errorCode duration mutationId attemptId now)
      hstarted hcommitted [] rfl
    rw [List.append_nil] at hadded
    exact hadded
  next => cases hrecord

/-- Rows of one primary key are one row, and so are rows of one mutation id. -/
theorem StoreInvariant.key_iff_mutationId (h : StoreInvariant store log) (args : ClaimArguments)
    {row other : IdempotencyRow} (hrow : row ∈ store.cores) (hother : other ∈ store.cores) :
    row.primaryKey = other.primaryKey ↔ row.mutationId = other.mutationId := by
  constructor
  · intro hkey
    -- Both rows answer a claim for their key.
    let claimed : ClaimArguments :=
      { args with project := other.project, authorityHash := other.authorityHash,
                  idempotencyKeyHash := other.idempotencyKeyHash }
    have heq := h.functional claimed row hrow other hother (IdempotencyRow.covers_of_key hkey)
      (IdempotencyRow.covers_of_key rfl)
    rw [heq]
  · intro hid
    rw [List.inj_on_of_nodup_map h.mutationIds hrow hother hid]

/-- The commit of a replay counts it on the row it replays. -/
theorem AuditInvariant.replay (i : Nat) (hstore : StoreInvariant store log)
    (h : AuditInvariant base store log) {existing : IdempotencyRow} {attemptId : String} {now : Nat}
    (hexisting : existing.core ∈ store.cores)
    (hwrites : session.writes = [.countReplay existing.primaryKey now,
      .insertAudit (session.control.arguments.replayAttempt existing attemptId now)]) :
    AuditInvariant base (protocol.view store session) (log ++ [(i, session)]) := by
  have hcores : (protocol.view store session).cores = store.cores := by
    rw [← cores_countReplay store existing.primaryKey now]
    simp [Protocol.view, hwrites, protocol, Store.apply, Store.cores]
  have haudit : (protocol.view store session).audit =
      store.audit ++ [session.control.arguments.replayAttempt existing attemptId now] := by
    simp [Protocol.view, hwrites, protocol, Store.apply]
  constructor
  · rw [haudit]
    intro row hrow
    rcases List.mem_append.mp hrow with hrow | hrow
    · exact h.completed row hrow
    · rw [List.mem_singleton.mp hrow]
      simp [ClaimArguments.replayAttempt]
  · rw [haudit, hcores]
    intro row hrow hstatus
    rcases List.mem_append.mp hrow with hrow | hrow
    · exact h.known row hrow hstatus
    · rw [List.mem_singleton.mp hrow]
      exact ⟨existing.core, hexisting, rfl⟩
  · rw [haudit]
    intro row hrow hprincipal
    have hrow' : row ∈ store.idempotency.map fun row =>
        if row.primaryKey = existing.primaryKey then row.countReplay now else row := by
      simpa [Protocol.view, hwrites, protocol, Store.apply] using hrow
    obtain ⟨stored, hstored, rfl⟩ := List.mem_map.mp hrow'
    have hiff := hstore.key_iff_mutationId session.control.arguments (Store.core_mem hstored) hexisting
    have hsame : stored.primaryKey = existing.primaryKey ↔ stored.mutationId = existing.mutationId :=
      hiff
    by_cases hkey : stored.primaryKey = existing.primaryKey
    · rw [if_pos hkey] at hprincipal ⊢
      exact (h.recorded stored hstored hprincipal).replay
        (by simp [AuditRow.isReplay, ClaimArguments.replayAttempt, ClaimArguments.startedAttempt,
          hsame.mp hkey]) now
    · rw [if_neg hkey] at hprincipal ⊢
      have hid : existing.mutationId ≠ stored.mutationId := fun heq => hkey (hsame.mpr heq.symm)
      exact (h.recorded stored hstored hprincipal).append
        (by simp [AuditRow.isExecution, ClaimArguments.replayAttempt])
        (by simp [AuditRow.isReplay, ClaimArguments.replayAttempt, ClaimArguments.startedAttempt, hid])
  · have hbusiness : (protocol.view store session).business = store.business := by
      simp [Protocol.view, hwrites, protocol, Store.apply]
    rw [hbusiness, h.business]
    simp [changes, hwrites, Write.change?]

/-- The commit of an execution records its row, its audit row and its change together. -/
theorem AuditInvariant.execution (i : Nat) (hstore : StoreInvariant store log)
    (h : AuditInvariant base store log) {claim : Claim} {rows : List Json.Value}
    {created duration finished : Nat} (hexecuting : Executing store session claim created)
    (hwrites : session.writes =
      completeWrites session.control.arguments claim rows created duration finished) :
    AuditInvariant base (protocol.view store session) (log ++ [(i, session)]) := by
  have hrows := view_completeWrites hstore.committed hwrites
  have haudit : (protocol.view store session).audit = store.audit ++
      [finishedAttempt session.control.arguments claim rows created duration finished] := by
    have hstored : store.audit.map (fun row => if row.isStarted claim.attemptId claim.mutationId then
        row.finish rows.length duration finished else row) = store.audit := by
      conv_rhs => rw [← List.map_id store.audit]
      apply List.map_congr_left
      intro row hrow
      simp [AuditRow.isStarted, h.completed row hrow]
    simp only [Protocol.view, hwrites, completeWrites, executionWrites, finishWrites, protocol,
      Store.apply, List.foldl_cons, List.foldl_nil, List.cons_append, List.nil_append,
      List.map_append, hstored]
    simp [AuditRow.isStarted, ClaimArguments.startedAttempt, finishedAttempt]
  have hunknown : ∀ row ∈ store.audit, row.status = .committed → row.mutationId ≠ claim.mutationId := by
    intro row hrow hstatus hid
    obtain ⟨core, hcore, hknown⟩ := h.known row hrow hstatus
    exact hexecuting.fresh core hcore (hknown.trans hid)
  have hnone : ∀ kind : AuditRow → Bool, (∀ row, kind row = true → row.status = .committed ∧
      row.mutationId = claim.mutationId) → store.audit.filter kind = [] := by
    intro kind hkind
    rw [List.filter_eq_nil_iff]
    intro row hrow hk
    exact hunknown row hrow (hkind row hk).1 (hkind row hk).2
  constructor
  · rw [haudit]
    intro row hrow
    rcases List.mem_append.mp hrow with hrow | hrow
    · exact h.completed row hrow
    · rw [List.mem_singleton.mp hrow]
      simp [finishedAttempt, AuditRow.finish]
  · rw [haudit, Store.cores, hrows, List.map_append]
    intro row hrow hstatus
    rcases List.mem_append.mp hrow with hrow | hrow
    · obtain ⟨core, hcore, hknown⟩ := h.known row hrow hstatus
      exact ⟨core, List.mem_append_left _ hcore, hknown⟩
    · rw [List.mem_singleton.mp hrow]
      exact ⟨_, List.mem_append_right _ (List.mem_singleton.mpr rfl), rfl⟩
  · rw [haudit, hrows]
    intro row hrow hprincipal
    rcases List.mem_append.mp hrow with hrow | hrow
    · have hid : claim.mutationId ≠ row.mutationId :=
        fun heq => hexecuting.fresh row.core (Store.core_mem hrow) heq.symm
      exact (h.recorded row hrow hprincipal).append
        (by simp [AuditRow.isExecution, finishedAttempt, AuditRow.finish,
          ClaimArguments.startedAttempt, hid])
        (by simp [AuditRow.isReplay, finishedAttempt, AuditRow.finish,
          ClaimArguments.startedAttempt])
    · rw [List.mem_singleton.mp hrow]
      refine ⟨⟨i, session, claim, rows, created, duration, finished, by simp, hwrites, rfl, ?_⟩, ?_⟩
      · rw [List.filter_append, hnone]
        · simp [AuditRow.isExecution, finishedAttempt, AuditRow.finish, executedRow,
            IdempotencyRow.finish, ClaimArguments.startedAttempt, ClaimArguments.newRow]
        · intro row hk
          simp only [AuditRow.isExecution, Bool.and_eq_true, beq_iff_eq] at hk
          exact ⟨hk.1.2, hk.1.1⟩
      · rw [List.filter_append, hnone]
        · simp [AuditRow.isReplay, finishedAttempt, AuditRow.finish, executedRow,
            IdempotencyRow.finish, ClaimArguments.startedAttempt, ClaimArguments.newRow]
        · intro row hk
          simp only [AuditRow.isReplay, Bool.and_eq_true, beq_iff_eq] at hk
          exact ⟨hk.1.2, hk.1.1⟩
  · have hbusiness : (protocol.view store session).business =
        store.business ++ [businessChange session.control.arguments rows] := by
      simp [Protocol.view, hwrites, completeWrites, executionWrites, finishWrites, protocol,
        Store.apply]
    have hchanges : changes session = [businessChange session.control.arguments rows] := by
      unfold changes
      rw [hwrites]
      rfl
    rw [hbusiness, h.business]
    simp [hchanges]

theorem AuditInvariant.commit (i : Nat) (hstore : StoreInvariant store log)
    (h : AuditInvariant base store log) (hsession : SessionInvariant store session)
    (hcommits : session.control.commits = true) :
    AuditInvariant base (protocol.view store session) (log ++ [(i, session)]) := by
  rcases commit_writes hsession hcommits with
    ⟨claim, now, _, _, hwrites⟩ | ⟨claim, row, now, _, _, hrow, hwrites⟩ |
    ⟨claim, rows, created, duration, finished, _, hexecuting, hwrites⟩
  · have hview : protocol.view store session = { store with audit := store.audit ++
        [session.control.arguments.conflictAttempt claim.mutationId claim.attemptId now] } := by
      simp [Protocol.view, hwrites, protocol, Store.apply]
    rw [hview]
    exact h.addAttempt _ (by simp [ClaimArguments.conflictAttempt])
      (by simp [ClaimArguments.conflictAttempt]) [(i, session)]
      (by simp [changes, hwrites, Write.change?])
  · exact h.replay i hstore hrow hwrites
  · exact h.execution i hstore hexecuting hwrites

end

/-- The invariant of all the tables, for every run from a store. -/
def auditInvariant (base : Store) : protocol.Invariant where
  onStore store log := StoreInvariant store log ∧ AuditInvariant base store log
  onSession := SessionInvariant
  start := idempotencyInvariant.start
  statement h hsession hstatement := idempotencyInvariant.statement h.1 hsession hstatement
  commit i h hsession hcommits :=
    ⟨h.1.commit i hsession hcommits, h.2.commit i h.1 hsession hcommits⟩
  frame h hsession hcommits hother hlocks :=
    idempotencyInvariant.frame h.1 hsession hcommits hother hlocks
  external h hexternal := ⟨h.1.external hexternal, h.2.external hexternal⟩
  externalFrame := idempotencyInvariant.externalFrame

/-- Every committed audit attempt is completed, and those that committed a mutation have its row. -/
structure Store.AuditComplete (store : Store) : Prop where
  completed : ∀ row ∈ store.audit, row.status ≠ .started
  known : ∀ row ∈ store.audit, row.status = .committed →
    ∃ stored ∈ store.idempotency, stored.mutationId = row.mutationId

theorem Store.AuditComplete.invariant {store : Store} (h : store.AuditComplete)
    (hmigrated : store.Migrated) : AuditInvariant store store [] where
  completed := h.completed
  known := by
    intro row hrow hstatus
    obtain ⟨stored, hstored, hid⟩ := h.known row hrow hstatus
    exact ⟨stored.core, Store.core_mem hstored, hid⟩
  recorded := by
    intro row hrow hprincipal
    rw [hmigrated.legacy row hrow] at hprincipal
    cases hprincipal
  business := by simp

/-- The transaction inserted the row as started, its audit attempt and its business change. -/
structure WrittenTogether (session : Session) (row : IdempotencyRow) (attempt : AuditRow)
    (change : BusinessChange) : Prop where
  inserted : ∃ started, .insertIdempotency started ∈ session.writes ∧
    started.mutationId = row.mutationId ∧ started.primaryKey = row.primaryKey
  attempted : ∃ started, .insertAudit started ∈ session.writes ∧
    started.attemptId = attempt.attemptId ∧ started.mutationId = row.mutationId
  changed : .business change ∈ session.writes

/-- What the committed tables say of a principal row. -/
structure Consistent (server : Server) (row : IdempotencyRow) : Prop where
  status : row.status = .committed
  result : row.result.isSome = true
  affectedRows : row.affectedRows.isSome = true
  execution : ∃ attempt change, server.store.audit.filter (·.isExecution row.mutationId) = [attempt] ∧
    attempt.affectedRows = row.affectedRows ∧ row.result = some (.array change.rows) ∧
    change ∈ server.store.business ∧
    ∃ i session, (i, session) ∈ server.log ∧ WrittenTogether session row attempt change
  replays : row.replayCount = (server.store.audit.filter (·.isReplay row.mutationId)).length

theorem Recorded.consistent {base : Store} {server : Server} {row : IdempotencyRow}
    (hstore : StoreInvariant server.store server.log)
    (haudit : AuditInvariant base server.store server.log) (hrow : row ∈ server.store.idempotency)
    (h : Recorded server.store.audit server.log row) : Consistent server row := by
  obtain ⟨⟨i, done, claim, rows, created, duration, finished, hdone, hwrites, hcore, hfilter⟩,
    hcount⟩ := h
  have hresult : row.result = some (.array rows) := congrArg IdempotencyRow.result hcore
  have haffected : row.affectedRows = some rows.length := congrArg IdempotencyRow.affectedRows hcore
  have hid : row.mutationId = claim.mutationId := congrArg IdempotencyRow.mutationId hcore
  have hkey : row.primaryKey = done.control.arguments.primaryKey :=
    congrArg IdempotencyRow.primaryKey hcore
  have hchange : .business (businessChange done.control.arguments rows) ∈ done.writes := by
    simp [hwrites, completeWrites]
  refine ⟨hstore.committed row.core (Store.core_mem hrow), by simp [hresult], by simp [haffected],
    ⟨_, businessChange done.control.arguments rows, hfilter, ?_, hresult, ?_, i, done, hdone, ?_⟩,
    hcount⟩
  · rw [haffected]
    rfl
  · rw [haudit.business]
    apply List.mem_append_right
    exact List.mem_flatMap.mpr ⟨(i, done), hdone, List.mem_filterMap.mpr ⟨_, hchange, rfl⟩⟩
  · refine ⟨⟨done.control.arguments.newRow claim.mutationId created, ?_, hid.symm, hkey.symm⟩,
      ⟨done.control.arguments.startedAttempt claim.mutationId claim.attemptId created, ?_, rfl,
        hid.symm⟩, hchange⟩
    · simp [hwrites, completeWrites, executionWrites]
    · simp [hwrites, completeWrites, executionWrites]

/-- `claim_mutation` never finds a row that is not committed. -/
theorem StoreInvariant.claim_committed {store : Store} {log : List (Nat × Session)}
    (h : StoreInvariant store log) (args : ClaimArguments) (mutationId attemptId : String)
    (now : Nat) : store.claimMutation args mutationId attemptId now ≠ .error .notCommitted := by
  have hexisting : ∀ row ∈ store.idempotency,
      store.claimExisting args mutationId attemptId now row ≠ .error .notCommitted := by
    intro row hrow
    have hstatus : row.status = .committed := h.committed row.core (Store.core_mem hrow)
    simp only [Store.claimExisting, hstatus, ne_eq, not_true_eq_false, ↓reduceIte]
    split_ifs <;> simp
  unfold Store.claimMutation
  split
  · split
    next existing hprincipal => exact hexisting existing (Store.selectPrincipal_eq_some hprincipal).1
    next =>
      split
      next existing hlegacy => exact hexisting existing (Store.selectLegacy_eq_some hlegacy).1
      next =>
        split
        next error hinsert =>
          rw [Store.insertPrincipal_eq_error hinsert]
          simp
        next =>
          simp only [Store.claimExecute]
          split_ifs <;> simp
        next => simp
  · simp

/-- A step that commits no transaction leaves the idempotency rows and the business data. -/
theorem step_without_commit {server next : Server} (hstep : protocol.Step server next)
    (hlog : next.log = server.log) : next.store.idempotency = server.store.idempotency ∧
      next.store.business = server.store.business := by
  cases hstep with
  | start _ _ => exact ⟨rfl, rfl⟩
  | statement _ _ _ => exact ⟨rfl, rfl⟩
  | abort _ => exact ⟨rfl, rfl⟩
  | commit _ _ =>
    have hlength := congrArg List.length hlog
    simp [Protocol.commit] at hlength
  | external hexternal =>
    obtain ⟨details, status, errorCode, duration, mutationId, attemptId, now, hrecord⟩ := hexternal
    unfold Store.recordMutationFailure at hrecord
    simp only at hrecord
    split at hrecord
    · obtain rfl := Option.some.inj hrecord
      exact ⟨rfl, rfl⟩
    · cases hrecord

/-- The committed tables of every reachable server: each principal row is consistent with the audit
and the business data of the one transaction that wrote it, no claim meets a row that is not
committed, and only commits change idempotency rows and business data, which hold what the committed
transactions wrote and nothing else. -/
theorem committed_tables_consistent {store : Store} {server : Server} (hmigrated : store.Migrated)
    (hcomplete : store.AuditComplete) (hrun : protocol.Reachable store server) :
    (∀ row ∈ server.store.idempotency, row.authorityScheme = .principal → Consistent server row) ∧
    (∀ args mutationId attemptId now,
      server.store.claimMutation args mutationId attemptId now ≠ .error .notCommitted) ∧
    (∀ i session existing, server.status i = .active session →
      session.control.stage = .found existing → existing.status = .committed) ∧
    (∀ next, protocol.Step server next → next.log = server.log →
      next.store.idempotency = server.store.idempotency ∧
        next.store.business = server.store.business) ∧
    server.store.business = store.business ++ server.log.flatMap fun entry => changes entry.2 := by
  obtain ⟨hholds, _⟩ := (auditInvariant store).reachable hrun
    ⟨hmigrated.invariant, hcomplete.invariant hmigrated⟩
  obtain ⟨hstore, haudit⟩ := hholds.store
  refine ⟨fun row hrow hprincipal => (haudit.recorded row hrow hprincipal).consistent hstore haudit hrow,
    hstore.claim_committed, ?_, fun next hstep hlog => step_without_commit hstep hlog,
    haudit.business⟩
  intro i session existing hactive hstage
  have hsession : SessionInvariant server.store session := hholds.session i session hactive
  unfold SessionInvariant at hsession
  simp only [hstage] at hsession
  exact hstore.committed existing.core hsession.2.1

/-- The tables after the order was inserted. -/
theorem order_tables_consistent : ∃ server row, protocol.Reachable emptyStore server ∧
    row ∈ server.store.idempotency ∧ Consistent server row := by
  obtain ⟨locks, hrun⟩ := orderServer_reachable
  have hcomplete : emptyStore.AuditComplete := ⟨by simp [emptyStore], by simp [emptyStore]⟩
  have hrow : executedRow insertOrder firstClaim orderRows 0 1 ∈
      (orderServer locks).store.idempotency := by
    rw [(orderServer_store locks).1]
    exact List.mem_singleton.mpr rfl
  exact ⟨orderServer locks, _, hrun, hrow,
    (committed_tables_consistent emptyStore_migrated hcomplete hrun).1 _ hrow rfl⟩

end Postgresem.Mutation
