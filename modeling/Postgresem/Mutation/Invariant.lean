import Postgresem.Mutation.Transaction

/-! What every reachable server keeps: a claim finds at most one row, every stored row is committed,
and an open execution claim is for a key that no stored row answers. Replays change only the replay
columns of a row, so the facts are stated of a row without them. -/
namespace Postgresem.Mutation
open ReadCommitted (Protocol)

/-- A row without its replay columns, the only ones that change once it is committed. -/
def IdempotencyRow.core (row : IdempotencyRow) : IdempotencyRow :=
  { row with replayCount := 0, lastReplayedAt := none }

def Store.cores (store : Store) : List IdempotencyRow := store.idempotency.map IdempotencyRow.core

@[simp] theorem IdempotencyRow.core_countReplay (row : IdempotencyRow) (now : Nat) :
    (row.countReplay now).core = row.core := rfl

/-- The claim's answer, as the rows of the store give it. An execution claim has no row yet. -/
def Answered (cores : List IdempotencyRow) (args : ClaimArguments) (claim : Claim) : Prop :=
  ∃ row ∈ cores, row.Covers args ∧
    match claim.disposition with
    | .execute => False
    | .conflict => row.differs args = true
    | .replay => row.differs args = false ∧ claim.mutationId = row.mutationId ∧
        claim.affectedRows = row.affectedRows ∧ claim.result = row.result

/-- What an execution claim writes. -/
def executionWrites (args : ClaimArguments) (claim : Claim) (created : Nat) : List Write :=
  [.insertIdempotency (args.newRow claim.mutationId created),
   .insertAudit (args.startedAttempt claim.mutationId claim.attemptId created)]

def businessChange (args : ClaimArguments) (rows : List Json.Value) : BusinessChange :=
  { statementHash := args.statementHash, rows }

/-- What `finish_mutation` writes. -/
def finishWrites (claim : Claim) (rows : List Json.Value) (duration finished : Nat) : List Write :=
  [.finishIdempotency claim.mutationId (.array rows) rows.length finished,
   .finishAudit claim.attemptId claim.mutationId rows.length duration finished]

/-- All the writes of a finished execution. -/
def completeWrites (args : ClaimArguments) (claim : Claim) (rows : List Json.Value)
    (created duration finished : Nat) : List Write :=
  executionWrites args claim created ++
    .business (businessChange args rows) :: finishWrites claim rows duration finished

/-- The row a finished execution leaves. -/
def executedRow (args : ClaimArguments) (claim : Claim) (rows : List Json.Value)
    (created finished : Nat) : IdempotencyRow :=
  (args.newRow claim.mutationId created).finish (.array rows) rows.length finished

/-- An open transaction whose claim is to execute, with the key and the id it holds. -/
structure Executing (store : Store) (session : Session) (claim : Claim) (created : Nat) : Prop where
  disposition : claim.disposition = .execute
  entry : .entry session.control.arguments.primaryKey ∈ session.locks
  mutation : .mutation claim.mutationId ∈ session.locks
  uncovered : ∀ row ∈ store.cores, ¬ row.Covers session.control.arguments
  fresh : ∀ row ∈ store.cores, row.mutationId ≠ claim.mutationId
  checked : (session.control.arguments.newRow claim.mutationId created).satisfiesChecks = true
  revision : session.control.arguments.revisionId ∈ store.revisions

/-- What holds of an open transaction at each of its stages. -/
def SessionInvariant (store : Store) (session : Session) : Prop :=
  let args := session.control.arguments
  match session.control.stage with
  | .begun | .principalMissed => session.writes = []
  | .legacyMissed | .raced =>
    session.writes = [] ∧ ∀ row ∈ store.cores, row.isLegacyOf args = false
  | .found existing => session.writes = [] ∧ existing.core ∈ store.cores ∧ existing.Covers args
  | .claimed claim =>
    match claim.disposition with
    | .execute => ∃ created, Executing store session claim created ∧
        session.writes = executionWrites args claim created
    | .conflict => Answered store.cores args claim ∧ ∃ now,
        session.writes = [.insertAudit (args.conflictAttempt claim.mutationId claim.attemptId now)]
    | .replay => Answered store.cores args claim ∧ ∃ row now,
        row.core ∈ store.cores ∧ row.mutationId = claim.mutationId ∧
        session.writes = [.countReplay row.primaryKey now,
          .insertAudit (args.replayAttempt row claim.attemptId now)]
  | .ran claim rows => ∃ created, Executing store session claim created ∧
      session.writes = executionWrites args claim created ++ [.business (businessChange args rows)]
  | .finished claim rows => ∃ created duration finished, Executing store session claim created ∧
      session.writes = completeWrites args claim rows created duration finished

/-- What the store keeps of a committed transaction. -/
def Settled (store : Store) (session : Session) : Prop :=
  let args := session.control.arguments
  match session.control.stage with
  | .claimed claim => Answered store.cores args claim ∧ ranStatement session = false
  | .finished claim rows => claim.disposition = .execute ∧ ∃ created duration finished,
      session.writes = completeWrites args claim rows created duration finished ∧
      executedRow args claim rows created finished ∈ store.cores
  | _ => False

/-- Two committed transactions of one key did not both run their statement. -/
def Apart (first second : Nat × Session) : Prop :=
  ranStatement first.2 = true → ranStatement second.2 = true →
    first.2.control.arguments.primaryKey ≠ second.2.control.arguments.primaryKey

structure StoreInvariant (store : Store) (log : List (Nat × Session)) : Prop where
  mutationIds : (store.cores.map IdempotencyRow.mutationId).Nodup
  functional : ∀ args, ∀ row ∈ store.cores, ∀ other ∈ store.cores,
    row.Covers args → other.Covers args → row = other
  committed : ∀ row ∈ store.cores, row.status = .committed
  checked : ∀ row ∈ store.cores, row.satisfiesChecks = true ∧ row.revisionId ∈ store.revisions
  settled : ∀ entry ∈ log, Settled store entry.2
  apart : log.Pairwise Apart

theorem Store.core_mem {store : Store} {row : IdempotencyRow} (h : row ∈ store.idempotency) :
    row.core ∈ store.cores :=
  List.mem_map_of_mem h

theorem Store.mem_cores {store : Store} {core : IdempotencyRow} (h : core ∈ store.cores) :
    ∃ row ∈ store.idempotency, row.core = core :=
  List.mem_map.mp h

section Statements
variable {store : Store} {session : Session} {choice : Choice} {writes : List Write}
  {locks : List Lock} {next : Control}

/-- `SELECT ... FOR UPDATE` leads to the row it read or to the stage after a miss. -/
theorem SessionInvariant.select {existing : Option IdempotencyRow} {missed : Stage}
    (hwrites : session.writes = [])
    (hrow : ∀ row, existing = some row →
      row ∈ store.idempotency ∧ row.Covers session.control.arguments)
    (hmissed : existing = none →
      SessionInvariant store (session.after [] [] { session.control with stage := missed }))
    (h : session.control.select existing missed = (writes, locks, next)) :
    SessionInvariant store (session.after writes locks next) := by
  cases existing with
  | none =>
    simp only [Control.select, Prod.mk.injEq] at h
    obtain ⟨rfl, rfl, rfl⟩ := h
    exact hmissed rfl
  | some row =>
    simp only [Control.select, Prod.mk.injEq] at h
    obtain ⟨rfl, rfl, rfl⟩ := h
    obtain ⟨hmem, hcovers⟩ := hrow row rfl
    exact ⟨by simp [Session.after, hwrites], Store.core_mem hmem, hcovers⟩

theorem SessionInvariant.begun (h : SessionInvariant store session)
    (hstage : session.control.stage = .begun)
    (hadvance : session.control.advance (protocol.view store session) choice =
      some (writes, locks, next)) :
    SessionInvariant store (session.after writes locks next) := by
  have hwrites : session.writes = [] := by simpa only [SessionInvariant, hstage] using h
  rw [view_of_no_writes hwrites] at hadvance
  simp only [Control.advance, hstage] at hadvance
  split at hadvance
  · refine SessionInvariant.select hwrites (fun row hrow => ?_) (fun _ => ?_)
      (Option.some.inj hadvance)
    · obtain ⟨hmem, hprincipal⟩ := Store.selectPrincipal_eq_some hrow
      exact ⟨hmem, Or.inl hprincipal⟩
    · simp [SessionInvariant, Session.after, hwrites]
  · cases hadvance

theorem SessionInvariant.principalMissed (h : SessionInvariant store session)
    (hstage : session.control.stage = .principalMissed)
    (hadvance : session.control.advance (protocol.view store session) choice =
      some (writes, locks, next)) :
    SessionInvariant store (session.after writes locks next) := by
  have hwrites : session.writes = [] := by simpa only [SessionInvariant, hstage] using h
  rw [view_of_no_writes hwrites] at hadvance
  simp only [Control.advance, hstage] at hadvance
  refine SessionInvariant.select hwrites (fun row hrow => ?_) (fun hnone => ?_)
    (Option.some.inj hadvance)
  · obtain ⟨hmem, hlegacy⟩ := Store.selectLegacy_eq_some hrow
    exact ⟨hmem, Or.inr hlegacy⟩
  · refine ⟨by simp [Session.after, hwrites], fun core hcore => ?_⟩
    obtain ⟨row, hrow, rfl⟩ := Store.mem_cores hcore
    exact Store.selectLegacy_eq_none.mp hnone row hrow

/-- The insert takes the key when no stored row answers the claim. -/
theorem SessionInvariant.legacyMissed (h : SessionInvariant store session)
    (hstage : session.control.stage = .legacyMissed)
    (hadvance : session.control.advance (protocol.view store session) choice =
      some (writes, locks, next)) :
    SessionInvariant store (session.after writes locks next) := by
  obtain ⟨hwrites, hlegacy⟩ : session.writes = [] ∧ ∀ row ∈ store.cores,
      row.isLegacyOf session.control.arguments = false := by
    simpa only [SessionInvariant, hstage] using h
  rw [view_of_no_writes hwrites] at hadvance
  simp only [Control.advance, hstage] at hadvance
  split at hadvance
  next hinsert =>
    obtain ⟨hchecks, hkeys, hids, hrevision⟩ := Store.insertPrincipal_eq_true.mp hinsert
    cases hclaim : store.claimExecute session.control.arguments session.control.mutationId
        choice.attemptId choice.now with
    | error e =>
      rw [hclaim] at hadvance
      cases hadvance
    | ok made =>
      obtain ⟨claim, made⟩ := made
      rw [hclaim] at hadvance
      simp only [Control.claimed, Option.some.injEq, Prod.mk.injEq] at hadvance
      obtain ⟨rfl, rfl, rfl⟩ := hadvance
      obtain ⟨rfl, rfl⟩ := Store.claimExecute_eq_ok hclaim
      refine ⟨choice.now, ⟨rfl, by simp [Session.after], by simp [Session.after], ?_, ?_, hchecks,
        hrevision⟩, by simp [Session.after, hwrites, executionWrites]⟩
      · intro core hcore hcovers
        rcases hcovers with hprincipal | hlegacy'
        · obtain ⟨row, hrow, rfl⟩ := Store.mem_cores hcore
          exact hkeys row hrow (IdempotencyRow.isPrincipalOf_iff.mp hprincipal).2
        · exact Bool.false_ne_true ((hlegacy core hcore).symm.trans hlegacy')
      · intro core hcore
        obtain ⟨row, hrow, rfl⟩ := Store.mem_cores hcore
        exact hids row hrow
  next =>
    simp only [Option.some.injEq, Prod.mk.injEq] at hadvance
    obtain ⟨rfl, rfl, rfl⟩ := hadvance
    exact ⟨by simp [Session.after, hwrites], hlegacy⟩
  next => cases hadvance

theorem SessionInvariant.raced (h : SessionInvariant store session)
    (hstage : session.control.stage = .raced)
    (hadvance : session.control.advance (protocol.view store session) choice =
      some (writes, locks, next)) :
    SessionInvariant store (session.after writes locks next) := by
  obtain ⟨hwrites, _⟩ : session.writes = [] ∧ ∀ row ∈ store.cores,
      row.isLegacyOf session.control.arguments = false := by
    simpa only [SessionInvariant, hstage] using h
  rw [view_of_no_writes hwrites] at hadvance
  simp only [Control.advance, hstage, Option.map_eq_some_iff] at hadvance
  obtain ⟨row, hrow, hselect⟩ := hadvance
  obtain ⟨hmem, hprincipal⟩ := Store.selectPrincipal_eq_some hrow
  refine SessionInvariant.select hwrites (fun row' hrow' => ?_) (fun hnone => ?_) hselect
  · obtain rfl := Option.some.inj hrow'
    exact ⟨hmem, Or.inl hprincipal⟩
  · cases hnone

/-- A claim that found a row is answered by it. -/
theorem SessionInvariant.found {existing : IdempotencyRow} (h : SessionInvariant store session)
    (hstage : session.control.stage = .found existing)
    (hadvance : session.control.advance (protocol.view store session) choice =
      some (writes, locks, next)) :
    SessionInvariant store (session.after writes locks next) := by
  obtain ⟨hwrites, hmem, hcovers⟩ : session.writes = [] ∧ existing.core ∈ store.cores ∧
      existing.Covers session.control.arguments := by
    simpa only [SessionInvariant, hstage] using h
  rw [view_of_no_writes hwrites] at hadvance
  simp only [Control.advance, hstage] at hadvance
  cases hclaim : store.claimExisting session.control.arguments session.control.mutationId
      choice.attemptId choice.now existing with
  | error e =>
    rw [hclaim] at hadvance
    cases hadvance
  | ok made =>
    obtain ⟨claim, made⟩ := made
    rw [hclaim] at hadvance
    simp only [Control.claimed, Option.some.injEq, Prod.mk.injEq] at hadvance
    obtain ⟨rfl, rfl, rfl⟩ := hadvance
    rcases Store.claimExisting_eq_ok hclaim with ⟨hdiffers, rfl, rfl⟩ | ⟨hsame, _, rfl, rfl⟩
    · exact ⟨⟨existing.core, hmem, hcovers, hdiffers⟩, choice.now,
        by simp [Session.after, hwrites]⟩
    · refine ⟨⟨existing.core, hmem, hcovers, hsame, rfl, rfl, rfl⟩, existing, choice.now, hmem, rfl,
        ?_⟩
      obtain ⟨hproject, hkey⟩ := hcovers.project_key
      simp [Session.after, hwrites, IdempotencyRow.primaryKey, hproject, hkey]

/-- The facts of an execution claim do not depend on what the transaction writes after it. -/
theorem Executing.after {claim : Claim} {created : Nat}
    (h : Executing store session claim created)
    (hargs : next.arguments = session.control.arguments) :
    Executing store (session.after writes locks next) claim created where
  disposition := h.disposition
  entry := by simp [Session.after, hargs, h.entry]
  mutation := by simp [Session.after, h.mutation]
  uncovered := by simpa [Session.after, hargs] using h.uncovered
  fresh := h.fresh
  checked := by simpa [Session.after, hargs] using h.checked
  revision := by simpa [Session.after, hargs] using h.revision

theorem SessionInvariant.claimed {claim : Claim} (h : SessionInvariant store session)
    (hstage : session.control.stage = .claimed claim)
    (hadvance : session.control.advance (protocol.view store session) choice =
      some (writes, locks, next)) :
    SessionInvariant store (session.after writes locks next) := by
  simp only [Control.advance, hstage] at hadvance
  cases hdisposition : claim.disposition with
  | conflict => simp [hdisposition] at hadvance
  | replay => simp [hdisposition] at hadvance
  | execute =>
    obtain ⟨created, hexecuting, hwrites⟩ : ∃ created, Executing store session claim created ∧
        session.writes = executionWrites session.control.arguments claim created := by
      simpa only [SessionInvariant, hstage, hdisposition] using h
    simp only [hdisposition] at hadvance
    split at hadvance
    · simp only [Option.some.injEq, Prod.mk.injEq] at hadvance
      obtain ⟨rfl, rfl, rfl⟩ := hadvance
      exact ⟨created, hexecuting.after rfl, by simp [Session.after, hwrites, businessChange]⟩
    · cases hadvance

theorem SessionInvariant.ran {claim : Claim} {rows : List Json.Value}
    (h : SessionInvariant store session) (hstage : session.control.stage = .ran claim rows)
    (hadvance : session.control.advance (protocol.view store session) choice =
      some (writes, locks, next)) :
    SessionInvariant store (session.after writes locks next) := by
  obtain ⟨created, hexecuting, hwrites⟩ : ∃ created, Executing store session claim created ∧
      session.writes = executionWrites session.control.arguments claim created ++
        [.business (businessChange session.control.arguments rows)] := by
    simpa only [SessionInvariant, hstage] using h
  simp only [Control.advance, hstage] at hadvance
  split at hadvance
  · obtain ⟨finish, hfinish, hnext⟩ := Option.map_eq_some_iff.mp hadvance
    simp only [Prod.mk.injEq] at hnext
    obtain ⟨rfl, rfl, rfl⟩ := hnext
    have hfinishWrites : finish = finishWrites claim rows choice.databaseDurationMs choice.now := by
      unfold Store.finishMutation at hfinish
      split at hfinish
      · exact (Option.some.inj hfinish).symm
      · cases hfinish
    exact ⟨created, choice.databaseDurationMs, choice.now, hexecuting.after rfl,
      by simp [Session.after, hwrites, hfinishWrites, completeWrites]⟩
  · cases hadvance

/-- Every statement keeps the invariant of its transaction. -/
theorem SessionInvariant.statement (h : SessionInvariant store session)
    (hadvance : session.control.advance (protocol.view store session) choice =
      some (writes, locks, next)) :
    SessionInvariant store (session.after writes locks next) := by
  cases hstage : session.control.stage with
  | begun => exact h.begun hstage hadvance
  | principalMissed => exact h.principalMissed hstage hadvance
  | legacyMissed => exact h.legacyMissed hstage hadvance
  | raced => exact h.raced hstage hadvance
  | found existing => exact h.found hstage hadvance
  | claimed claim => exact h.claimed hstage hadvance
  | ran claim rows => exact h.ran hstage hadvance
  | finished claim rows => simp [Control.advance, hstage] at hadvance

end Statements

/-- One store extends another by committed principal rows. -/
structure Extends (store later : Store) (added : List IdempotencyRow) : Prop where
  cores : later.cores = store.cores ++ added
  revisions : later.revisions = store.revisions
  principal : ∀ row ∈ added, row.authorityScheme = .principal

section Extensions
variable {store later : Store} {added : List IdempotencyRow} {session : Session}

theorem Extends.mem (h : Extends store later added) {row : IdempotencyRow}
    (hrow : row ∈ store.cores) : row ∈ later.cores := by
  rw [h.cores]
  exact List.mem_append_left _ hrow

theorem Answered.extend (h : Extends store later added) {args : ClaimArguments} {claim : Claim}
    (hanswered : Answered store.cores args claim) : Answered later.cores args claim := by
  obtain ⟨row, hrow, hanswer⟩ := hanswered
  exact ⟨row, h.mem hrow, hanswer⟩

theorem Settled.extend (h : Extends store later added) (hsettled : Settled store session) :
    Settled later session := by
  unfold Settled at hsettled ⊢
  split at hsettled
  · exact ⟨hsettled.1.extend h, hsettled.2⟩
  · obtain ⟨hexecute, created, duration, finished, hwrites, hrow⟩ := hsettled
    exact ⟨hexecute, created, duration, finished, hwrites, h.mem hrow⟩
  · exact hsettled

/-- An open execution claim keeps its key when the added rows are of other keys and other ids. -/
theorem Executing.extend {claim : Claim} {created : Nat} (h : Extends store later added)
    (hlocks : ∀ row ∈ added, Lock.entry row.primaryKey ∉ session.locks ∧
      Lock.mutation row.mutationId ∉ session.locks)
    (hexecuting : Executing store session claim created) :
    Executing later session claim created where
  disposition := hexecuting.disposition
  entry := hexecuting.entry
  mutation := hexecuting.mutation
  uncovered := by
    intro row hrow hcovers
    rw [h.cores] at hrow
    rcases List.mem_append.mp hrow with hrow | hrow
    · exact hexecuting.uncovered row hrow hcovers
    · rcases hcovers with hprincipal | hlegacy
      · apply (hlocks row hrow).1
        rw [(IdempotencyRow.isPrincipalOf_iff.mp hprincipal).2]
        exact hexecuting.entry
      · have hscheme := (IdempotencyRow.isLegacyOf_iff.mp hlegacy).1
        rw [h.principal row hrow] at hscheme
        cases hscheme
  fresh := by
    intro row hrow hid
    rw [h.cores] at hrow
    rcases List.mem_append.mp hrow with hrow | hrow
    · exact hexecuting.fresh row hrow hid
    · apply (hlocks row hrow).2
      rw [hid]
      exact hexecuting.mutation
  checked := hexecuting.checked
  revision := h.revisions ▸ hexecuting.revision

theorem Extends.noLegacy (h : Extends store later added) {args : ClaimArguments}
    (hlegacy : ∀ row ∈ store.cores, row.isLegacyOf args = false) :
    ∀ row ∈ later.cores, row.isLegacyOf args = false := by
  intro row hrow
  rw [h.cores] at hrow
  rcases List.mem_append.mp hrow with hrow | hrow
  · exact hlegacy row hrow
  · by_contra hne
    have hscheme := (IdempotencyRow.isLegacyOf_iff.mp (Bool.not_eq_false _ ▸ hne)).1
    rw [h.principal row hrow] at hscheme
    cases hscheme

/-- What holds of an open transaction survives the rows that other transactions add. -/
theorem SessionInvariant.extend (h : Extends store later added)
    (hlocks : ∀ row ∈ added, Lock.entry row.primaryKey ∉ session.locks ∧
      Lock.mutation row.mutationId ∉ session.locks)
    (hsession : SessionInvariant store session) : SessionInvariant later session := by
  unfold SessionInvariant at hsession ⊢
  split at hsession
  · exact hsession
  · exact hsession
  · exact ⟨hsession.1, h.noLegacy hsession.2⟩
  · exact ⟨hsession.1, h.noLegacy hsession.2⟩
  · exact ⟨hsession.1, h.mem hsession.2.1, hsession.2.2⟩
  · split at hsession
    · obtain ⟨created, hexecuting, hwrites⟩ := hsession
      exact ⟨created, hexecuting.extend h hlocks, hwrites⟩
    · exact ⟨hsession.1.extend h, hsession.2⟩
    · obtain ⟨hanswered, row, now, hrow, hrest⟩ := hsession
      exact ⟨hanswered.extend h, row, now, h.mem hrow, hrest⟩
  · obtain ⟨created, hexecuting, hwrites⟩ := hsession
    exact ⟨created, hexecuting.extend h hlocks, hwrites⟩
  · obtain ⟨created, duration, finished, hexecuting, hwrites⟩ := hsession
    exact ⟨created, duration, finished, hexecuting.extend h hlocks, hwrites⟩

end Extensions

section Commits
variable {store : Store} {log : List (Nat × Session)} {session : Session}

theorem cores_countReplay (store : Store) (key : PrimaryKey) (now : Nat) :
    (store.apply (.countReplay key now)).cores = store.cores := by
  simp only [Store.apply, Store.cores, List.map_map]
  apply List.map_congr_left
  intro row _
  simp only [Function.comp_apply]
  split <;> rfl

/-- The commit of a finished execution adds its row; the update of `finish_mutation` touches no
other, since the stored rows are committed already. -/
theorem view_completeWrites {args : ClaimArguments} {claim : Claim} {rows : List Json.Value}
    {created duration finished : Nat} (hcommitted : ∀ row ∈ store.cores, row.status = .committed)
    (hwrites : session.writes = completeWrites args claim rows created duration finished) :
    (protocol.view store session).idempotency =
      store.idempotency ++ [executedRow args claim rows created finished] := by
  have hstored : store.idempotency.map (fun row =>
      if row.isStarted claim.mutationId then row.finish (.array rows) rows.length finished else row) =
      store.idempotency := by
    conv_rhs => rw [← List.map_id store.idempotency]
    apply List.map_congr_left
    intro row hrow
    have hstatus : row.status = .committed := hcommitted row.core (Store.core_mem hrow)
    simp [IdempotencyRow.isStarted, hstatus]
  simp only [Protocol.view, hwrites, completeWrites, executionWrites, finishWrites, protocol,
    Store.apply, List.foldl_cons, List.foldl_nil, List.cons_append, List.nil_append,
    List.map_append, hstored]
  simp [IdempotencyRow.isStarted, ClaimArguments.newRow, executedRow]

theorem revisions_apply (store : Store) (write : Write) :
    (store.apply write).revisions = store.revisions := by
  cases write <;> rfl

theorem revisions_view (store : Store) (session : Session) :
    (protocol.view store session).revisions = store.revisions := by
  unfold Protocol.view
  induction session.writes generalizing store with
  | nil => rfl
  | cons write writes ih => exact (ih _).trans (revisions_apply store write)

/-- The writes of a transaction that may commit: those of a conflict, a replay or a finished
execution. -/
theorem commit_writes (hsession : SessionInvariant store session)
    (hcommits : session.control.commits = true) :
    (∃ claim now, session.control.stage = .claimed claim ∧
      Answered store.cores session.control.arguments claim ∧
      session.writes = [.insertAudit
        (session.control.arguments.conflictAttempt claim.mutationId claim.attemptId now)]) ∨
    (∃ claim row now, session.control.stage = .claimed claim ∧
      Answered store.cores session.control.arguments claim ∧ row.core ∈ store.cores ∧
      session.writes = [.countReplay row.primaryKey now,
        .insertAudit (session.control.arguments.replayAttempt row claim.attemptId now)]) ∨
    (∃ claim rows created duration finished, session.control.stage = .finished claim rows ∧
      Executing store session claim created ∧ session.writes =
        completeWrites session.control.arguments claim rows created duration finished) := by
  unfold SessionInvariant at hsession
  cases hstage : session.control.stage with
  | claimed claim =>
    simp only [hstage] at hsession
    cases hdisposition : claim.disposition with
    | execute => simp [Control.commits, hstage, hdisposition] at hcommits
    | conflict =>
      simp only [hdisposition] at hsession
      obtain ⟨hanswered, now, hwrites⟩ := hsession
      exact Or.inl ⟨claim, now, rfl, hanswered, hwrites⟩
    | replay =>
      simp only [hdisposition] at hsession
      obtain ⟨hanswered, row, now, hrow, _, hwrites⟩ := hsession
      exact Or.inr (Or.inl ⟨claim, row, now, rfl, hanswered, hrow, hwrites⟩)
  | finished claim rows =>
    simp only [hstage] at hsession
    obtain ⟨created, duration, finished, hexecuting, hwrites⟩ := hsession
    exact Or.inr (Or.inr ⟨claim, rows, created, duration, finished, rfl, hexecuting, hwrites⟩)
  | begun => simp [Control.commits, hstage] at hcommits
  | principalMissed => simp [Control.commits, hstage] at hcommits
  | legacyMissed => simp [Control.commits, hstage] at hcommits
  | raced => simp [Control.commits, hstage] at hcommits
  | found existing => simp [Control.commits, hstage] at hcommits
  | ran claim rows => simp [Control.commits, hstage] at hcommits

/-- The rows a commit adds: none, or that of a finished execution. -/
theorem commit_cases (hcommitted : ∀ row ∈ store.cores, row.status = .committed)
    (hsession : SessionInvariant store session) (hcommits : session.control.commits = true) :
    (∃ claim, session.control.stage = .claimed claim ∧
      Answered store.cores session.control.arguments claim ∧ ranStatement session = false ∧
      Extends store (protocol.view store session) []) ∨
    (∃ claim rows created duration finished, session.control.stage = .finished claim rows ∧
      Executing store session claim created ∧
      session.writes =
        completeWrites session.control.arguments claim rows created duration finished ∧
      Extends store (protocol.view store session)
        [executedRow session.control.arguments claim rows created finished]) := by
  rcases commit_writes hsession hcommits with
    ⟨claim, now, hstage, hanswered, hwrites⟩ |
    ⟨claim, row, now, hstage, hanswered, _, hwrites⟩ |
    ⟨claim, rows, created, duration, finished, hstage, hexecuting, hwrites⟩
  · left
    refine ⟨claim, hstage, hanswered, by simp [ranStatement, hwrites, Write.isBusiness], ?_,
      revisions_view store session, by simp⟩
    simp [Protocol.view, hwrites, protocol, Store.apply, Store.cores]
  · left
    refine ⟨claim, hstage, hanswered, by simp [ranStatement, hwrites, Write.isBusiness], ?_,
      revisions_view store session, by simp⟩
    rw [List.append_nil, ← cores_countReplay store row.primaryKey now]
    simp [Protocol.view, hwrites, protocol, Store.apply, Store.cores]
  · right
    refine ⟨claim, rows, created, duration, finished, hstage, hexecuting, hwrites, ?_,
      revisions_view store session,
      by simp [executedRow, IdempotencyRow.finish, ClaimArguments.newRow]⟩
    rw [Store.cores, view_completeWrites hcommitted hwrites, List.map_append]
    rfl

theorem executedRow_covers {args other : ClaimArguments} {claim : Claim} {rows : List Json.Value}
    {created finished : Nat} :
    (executedRow args claim rows created finished).Covers other ↔
      args.primaryKey = other.primaryKey := by
  unfold IdempotencyRow.Covers
  rw [IdempotencyRow.isPrincipalOf_iff, IdempotencyRow.isLegacyOf_iff]
  simp [executedRow, IdempotencyRow.finish, ClaimArguments.newRow, IdempotencyRow.primaryKey,
    ClaimArguments.primaryKey]

/-- A row that answers one claim for a key answers every claim for it. -/
theorem IdempotencyRow.Covers.of_key {row : IdempotencyRow} {args other : ClaimArguments}
    (h : row.Covers args) (hkey : args.primaryKey = other.primaryKey) : row.Covers other := by
  unfold IdempotencyRow.Covers at h ⊢
  rw [IdempotencyRow.isPrincipalOf_iff, IdempotencyRow.isLegacyOf_iff] at h ⊢
  have hparts := hkey
  simp only [ClaimArguments.primaryKey, PrimaryKey.mk.injEq] at hparts
  rw [← hkey, ← hparts.1, ← hparts.2.2]
  exact h

/-- A committed transaction that ran its statement left a row for its key. -/
theorem Settled.exists_row (h : Settled store session) (hran : ranStatement session = true) :
    ∃ row ∈ store.cores, ∀ args, session.control.arguments.primaryKey = args.primaryKey →
      row.Covers args := by
  unfold Settled at h
  split at h
  · rw [h.2] at hran
    cases hran
  · obtain ⟨_, created, duration, finished, _, hrow⟩ := h
    exact ⟨_, hrow, fun args hargs => executedRow_covers.mpr hargs⟩
  · exact h.elim

theorem Executing.executedRow_checks {claim : Claim} {created finished : Nat}
    (h : Executing store session claim created) (rows : List Json.Value) :
    (executedRow session.control.arguments claim rows created finished).satisfiesChecks = true := by
  have hchecks := h.checked
  simp only [IdempotencyRow.satisfiesChecks, ClaimArguments.newRow, Bool.and_eq_true] at hchecks
  simp only [executedRow, IdempotencyRow.finish, IdempotencyRow.satisfiesChecks,
    ClaimArguments.newRow, Bool.and_eq_true]
  exact ⟨hchecks.1, by simp⟩

/-- The new row of an execution is the only one that answers claims for its key. -/
theorem StoreInvariant.functional_append (h : StoreInvariant store log) {claim : Claim}
    {rows : List Json.Value} {created finished : Nat} (hexecuting : Executing store session claim created) :
    ∀ args, ∀ row ∈ store.cores ++
        [executedRow session.control.arguments claim rows created finished],
      ∀ other ∈ store.cores ++ [executedRow session.control.arguments claim rows created finished],
      row.Covers args → other.Covers args → row = other := by
  have hnone : ∀ args, (executedRow session.control.arguments claim rows created finished).Covers args →
      ∀ row ∈ store.cores, ¬ row.Covers args := by
    intro args hnew row hrow hcovers
    exact hexecuting.uncovered row hrow (hcovers.of_key (executedRow_covers.mp hnew).symm)
  intro args row hrow other hother hcovers hcovers'
  rcases List.mem_append.mp hrow with hrow | hrow <;>
    rcases List.mem_append.mp hother with hother | hother
  · exact h.functional args row hrow other hother hcovers hcovers'
  · rw [List.mem_singleton.mp hother] at hcovers'
    exact absurd hcovers (hnone args hcovers' row hrow)
  · rw [List.mem_singleton.mp hrow] at hcovers
    exact absurd hcovers' (hnone args hcovers other hother)
  · exact (List.mem_singleton.mp hrow).trans (List.mem_singleton.mp hother).symm

theorem StoreInvariant.commit (i : Nat) (h : StoreInvariant store log)
    (hsession : SessionInvariant store session) (hcommits : session.control.commits = true) :
    StoreInvariant (protocol.view store session) (log ++ [(i, session)]) := by
  rcases commit_cases h.committed hsession hcommits with
    ⟨claim, hstage, hanswered, hran, hextends⟩ |
    ⟨claim, rows, created, duration, finished, hstage, hexecuting, hwrites, hextends⟩
  · have hcores : (protocol.view store session).cores = store.cores := by
      rw [hextends.cores, List.append_nil]
    refine ⟨hcores ▸ h.mutationIds, hcores ▸ h.functional, hcores ▸ h.committed, ?_, ?_, ?_⟩
    · rw [hcores, hextends.revisions]
      exact h.checked
    · intro entry hentry
      rcases List.mem_append.mp hentry with hentry | hentry
      · exact (h.settled entry hentry).extend hextends
      · rw [List.mem_singleton.mp hentry]
        unfold Settled
        simp only [hstage]
        exact ⟨hanswered.extend hextends, hran⟩
    · refine List.pairwise_append.mpr ⟨h.apart, List.pairwise_singleton _ _, ?_⟩
      intro entry _ last hlast _ hran'
      rw [List.mem_singleton.mp hlast, hran] at hran'
      cases hran'
  · refine ⟨?_, ?_, ?_, ?_, ?_, ?_⟩
    · rw [hextends.cores, List.map_append, List.nodup_append]
      refine ⟨h.mutationIds, List.nodup_singleton _, ?_⟩
      intro id hid new hnew heq
      obtain ⟨row, hrow, rfl⟩ := List.mem_map.mp hid
      rw [List.map_singleton, List.mem_singleton] at hnew
      exact hexecuting.fresh row hrow (heq.trans hnew)
    · rw [hextends.cores]
      exact h.functional_append hexecuting
    · rw [hextends.cores]
      intro row hrow
      rcases List.mem_append.mp hrow with hrow | hrow
      · exact h.committed row hrow
      · rw [List.mem_singleton.mp hrow]
        rfl
    · rw [hextends.cores, hextends.revisions]
      intro row hrow
      rcases List.mem_append.mp hrow with hrow | hrow
      · exact h.checked row hrow
      · rw [List.mem_singleton.mp hrow]
        exact ⟨hexecuting.executedRow_checks rows, hexecuting.revision⟩
    · intro entry hentry
      rcases List.mem_append.mp hentry with hentry | hentry
      · exact (h.settled entry hentry).extend hextends
      · rw [List.mem_singleton.mp hentry]
        unfold Settled
        simp only [hstage]
        refine ⟨hexecuting.disposition, created, duration, finished, hwrites, ?_⟩
        rw [hextends.cores]
        exact List.mem_append_right _ (List.mem_singleton.mpr rfl)
    · refine List.pairwise_append.mpr ⟨h.apart, List.pairwise_singleton _ _, ?_⟩
      intro entry hentry last hlast hran _ hkey
      rw [List.mem_singleton.mp hlast] at hkey
      obtain ⟨row, hrow, hcovers⟩ := (h.settled entry hentry).exists_row hran
      exact hexecuting.uncovered row hrow (hcovers _ hkey)

theorem SessionInvariant.frame {other : Session} (h : StoreInvariant store log)
    (hsession : SessionInvariant store session) (hcommits : session.control.commits = true)
    (hother : SessionInvariant store other)
    (hlocks : ∀ lock ∈ other.locks, lock ∉ session.locks) :
    SessionInvariant (protocol.view store session) other := by
  rcases commit_cases h.committed hsession hcommits with
    ⟨claim, _, _, _, hextends⟩ |
    ⟨claim, rows, created, duration, finished, _, hexecuting, _, hextends⟩
  · exact hother.extend hextends (by simp)
  · apply hother.extend hextends
    intro row hrow
    rw [List.mem_singleton.mp hrow]
    exact ⟨fun hlock => hlocks _ hlock hexecuting.entry, fun hlock => hlocks _ hlock hexecuting.mutation⟩

/-- The failure audit adds an audit row and touches no idempotency row. -/
theorem external_extends {write : Write} (h : protocol.external store write) :
    Extends store (protocol.apply store write) [] := by
  obtain ⟨details, status, errorCode, duration, mutationId, attemptId, now, hrecord⟩ := h
  unfold Store.recordMutationFailure at hrecord
  simp only at hrecord
  split at hrecord
  · obtain rfl := Option.some.inj hrecord
    exact ⟨by simp [protocol, Store.apply, Store.cores], rfl, by simp⟩
  · cases hrecord

theorem StoreInvariant.external {write : Write} (h : StoreInvariant store log)
    (hexternal : protocol.external store write) :
    StoreInvariant (protocol.apply store write) log := by
  have hextends := external_extends hexternal
  have hcores : (protocol.apply store write).cores = store.cores := by
    rw [hextends.cores, List.append_nil]
  refine ⟨hcores ▸ h.mutationIds, hcores ▸ h.functional, hcores ▸ h.committed, ?_,
    fun entry hentry => (h.settled entry hentry).extend hextends, h.apart⟩
  rw [hcores, hextends.revisions]
  exact h.checked

end Commits

/-- The invariant of the idempotency table and the open transactions, for every run. -/
def idempotencyInvariant : protocol.Invariant where
  onStore := StoreInvariant
  onSession := SessionInvariant
  start := by
    intro store control hbegins
    unfold SessionInvariant
    simp only [Protocol.start, show control.stage = .begun from hbegins]
  statement := by
    intro store log session writes locks control _ hsession hstatement
    obtain ⟨choice, hadvance⟩ := hstatement
    exact hsession.statement hadvance
  commit i h hsession hcommits := h.commit i hsession hcommits
  frame h hsession hcommits hother hlocks := SessionInvariant.frame h hsession hcommits hother hlocks
  external h hexternal := h.external hexternal
  externalFrame hexternal hsession := hsession.extend (external_extends hexternal) (by simp)

/-- The idempotency table as the migration to authority schemes leaves it: its rows are of the old
primary key `(project, idempotency_key_hash)`, and committed. -/
structure Store.Migrated (store : Store) : Prop where
  legacy : ∀ row ∈ store.idempotency, row.authorityScheme = .legacy
  keys : (store.idempotency.map fun row => (row.project, row.idempotencyKeyHash)).Nodup
  mutationIds : (store.idempotency.map IdempotencyRow.mutationId).Nodup
  committed : ∀ row ∈ store.idempotency, row.status = .committed
  checked : ∀ row ∈ store.idempotency,
    row.satisfiesChecks = true ∧ row.revisionId ∈ store.revisions

theorem Store.Migrated.invariant {store : Store} (h : store.Migrated) : StoreInvariant store [] where
  mutationIds := by
    rw [Store.cores, List.map_map]
    exact h.mutationIds
  functional := by
    intro args core hcore other hother hcovers hcovers'
    obtain ⟨row, hrow, rfl⟩ := Store.mem_cores hcore
    obtain ⟨row', hrow', rfl⟩ := Store.mem_cores hother
    have hkeys : (row.project, row.idempotencyKeyHash) = (row'.project, row'.idempotencyKeyHash) := by
      have h₁ : row.project = args.project ∧ row.idempotencyKeyHash = args.idempotencyKeyHash :=
        hcovers.project_key
      have h₂ : row'.project = args.project ∧ row'.idempotencyKeyHash = args.idempotencyKeyHash :=
        hcovers'.project_key
      rw [h₁.1, h₁.2, h₂.1, h₂.2]
    rw [List.inj_on_of_nodup_map h.keys hrow hrow' hkeys]
  committed := by
    intro core hcore
    obtain ⟨row, hrow, rfl⟩ := Store.mem_cores hcore
    exact h.committed row hrow
  checked := by
    intro core hcore
    obtain ⟨row, hrow, rfl⟩ := Store.mem_cores hcore
    exact h.checked row hrow
  settled := by simp
  apart := List.Pairwise.nil

theorem reachable_invariant {store : Store} {server : Server} (hmigrated : store.Migrated)
    (hrun : protocol.Reachable store server) :
    StoreInvariant server.store server.log ∧
      ∀ i session, server.status i = .active session → SessionInvariant server.store session := by
  obtain ⟨hholds, _⟩ := idempotencyInvariant.reachable hrun hmigrated.invariant
  exact ⟨hholds.store, hholds.session⟩

end Postgresem.Mutation
