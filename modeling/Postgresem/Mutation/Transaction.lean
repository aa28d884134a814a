import Postgresem.Foundation.ReadCommitted
import Postgresem.Mutation.Claim

/-! The transaction of `execute_compiled`, statement by statement: the claim with its two reads, its
insert and its read after a lost race, the business statement, and `finish_mutation`. Statements that
follow one another and read nothing that another transaction may write are one step. -/
namespace Postgresem.Mutation

/-- `entry` and `mutation` are the index entries of a row that is not committed yet, `attempt` that
of an audit row, and `row` is the lock of `FOR UPDATE`. -/
inductive Lock where
  | entry (key : PrimaryKey)
  | mutation (mutationId : String)
  | attempt (attemptId : String)
  | row (key : PrimaryKey)
  deriving DecidableEq, Repr

inductive Stage where
  | begun
  | principalMissed
  | legacyMissed
  /-- `ON CONFLICT DO NOTHING` inserted no row. -/
  | raced
  | found (existing : IdempotencyRow)
  | claimed (claim : Claim)
  | ran (claim : Claim) (rows : List Json.Value)
  | finished (claim : Claim) (rows : List Json.Value)

/-- `mutationId` is the `gen_random_uuid()` of the claim's declarations. -/
structure Control where
  arguments : ClaimArguments
  mutationId : String
  stage : Stage

/-- What one statement takes from outside the tables: a random id, the clock, and for the business
statement the rows it returns and its duration. -/
structure Choice where
  attemptId : String
  now : Nat
  rows : List Json.Value
  databaseDurationMs : Nat

/-- `SELECT ... FOR UPDATE` into `v_existing`. -/
def Control.select (control : Control) (existing : Option IdempotencyRow) (missed : Stage) :
    List Write × List Lock × Control :=
  match existing with
  | some row => ([], [.row row.primaryKey], { control with stage := .found row })
  | none => ([], [], { control with stage := missed })

def Control.claimed (control : Control) (locks : List Lock) :
    Except ClaimError (Claim × List Write) → Option (List Write × List Lock × Control)
  | .ok (claim, writes) =>
    some (writes, .attempt claim.attemptId :: locks, { control with stage := .claimed claim })
  | .error _ => none

/-- The next statement, on the tables the transaction sees. `none` is a raised error, after which the
transaction can only roll back. -/
def Control.advance (control : Control) (store : Store) (choice : Choice) :
    Option (List Write × List Lock × Control) :=
  let args := control.arguments
  match control.stage with
  | .begun =>
    if args.validContext then some (control.select (store.selectPrincipal args) .principalMissed)
    else none
  | .principalMissed => some (control.select (store.selectLegacy args) .legacyMissed)
  | .legacyMissed =>
    match store.insertPrincipal (args.newRow control.mutationId choice.now) with
    | .ok true =>
      control.claimed [.entry args.primaryKey, .mutation control.mutationId]
        (store.claimExecute args control.mutationId choice.attemptId choice.now)
    | .ok false => some ([], [], { control with stage := .raced })
    | .error _ => none
  | .raced => (store.selectPrincipal args).map fun row => control.select (some row) .raced
  | .found existing =>
    control.claimed [] (store.claimExisting args control.mutationId choice.attemptId choice.now existing)
  | .claimed claim =>
    match claim.disposition with
    | .execute =>
      if choice.rows.all Json.Value.isArray then
        some ([.business { statementHash := args.statementHash, rows := choice.rows }], [],
          { control with stage := .ran claim choice.rows })
      else none
    | .conflict | .replay => none
  | .ran claim rows =>
    if rows.length = args.requestedRows then
      (store.finishMutation claim.mutationId claim.attemptId (.array rows) rows.length
        choice.databaseDurationMs choice.now).map
        fun writes => (writes, [], { control with stage := .finished claim rows })
    else none
  | .finished _ _ => none

/-- `replay_rows`. -/
def replayRows : Option Json.Value → Option (List Json.Value)
  | some (.array rows) => if rows.all Json.Value.isArray then some rows else none
  | _ => none

/-- The executor commits a conflict, a replay whose stored result it can read, and a finished
execution. -/
def Control.commits (control : Control) : Bool :=
  match control.stage with
  | .claimed claim =>
    match claim.disposition with
    | .execute => false
    | .conflict => true
    | .replay => (replayRows claim.result).isSome
  | .finished _ _ => true
  | _ => false

/-- The executors of one database. The failure audit is written over a connection of its own. -/
def protocol : ReadCommitted.Protocol Store Write Lock Control where
  apply := Store.apply
  begins control := control.stage = .begun
  statement store control writes locks next :=
    ∃ choice, control.advance store choice = some (writes, locks, next)
  commits control := control.commits
  external store write :=
    ∃ details status errorCode databaseDurationMs mutationId attemptId now,
      store.recordMutationFailure details status errorCode databaseDurationMs mutationId attemptId
        now = some write

abbrev Session := ReadCommitted.Session Write Lock Control

abbrev Server := ReadCommitted.Server Store Write Lock Control

/-- The transaction after one more statement. -/
def Session.after (session : Session) (writes : List Write) (locks : List Lock) (next : Control) :
    Session :=
  { control := next, writes := session.writes ++ writes, locks := session.locks ++ locks }

theorem view_of_no_writes {store : Store} {session : Session} (h : session.writes = []) :
    protocol.view store session = store := by
  simp [ReadCommitted.Protocol.view, h]

section Alone
variable {store : Store} {server : Server} {i : Nat} {args : ClaimArguments}
  {mutationId attemptId : String} {now : Nat} {claim : Claim} {writes : List Write}

/-- The choices of a statement that reads neither ids nor the clock do not matter. -/
def noChoice : Choice := { attemptId := "", now := 0, rows := [], databaseDurationMs := 0 }

/-- The transaction of a claim that has written nothing yet. -/
def claiming (args : ClaimArguments) (mutationId : String) (locks : List Lock) (stage : Stage) :
    Session :=
  { control := { arguments := args, mutationId, stage }, writes := [], locks }

theorem advance_alone {locks taken : List Lock} {stage next : Stage} {written : List Write}
    (halone : server.Alone i)
    (hrun : protocol.Reachable store
      (server.setStatus i (.active (claiming args mutationId locks stage))))
    (choice : Choice)
    (hadvance : (claiming args mutationId locks stage).control.advance server.store choice =
      some (written, taken, { arguments := args, mutationId, stage := next })) :
    protocol.Reachable store (server.setStatus i (.active
      { control := { arguments := args, mutationId, stage := next }, writes := written,
        locks := locks ++ taken })) :=
  hrun.statement_alone halone ⟨choice, hadvance⟩

theorem found_alone {locks : List Lock} {existing : IdempotencyRow} (halone : server.Alone i)
    (hrun : protocol.Reachable store
      (server.setStatus i (.active (claiming args mutationId locks (.found existing)))))
    (hclaim : server.store.claimExisting args mutationId attemptId now existing =
      .ok (claim, writes)) :
    ∃ locks, protocol.Reachable store (server.setStatus i (.active
      { control := { arguments := args, mutationId, stage := .claimed claim }, writes, locks })) := by
  have hadvance : (claiming args mutationId locks (.found existing)).control.advance server.store
      { noChoice with attemptId, now } = some (writes, [.attempt claim.attemptId],
        { arguments := args, mutationId, stage := .claimed claim }) := by
    simp only [claiming, Control.advance, hclaim, Control.claimed]
  exact ⟨_, advance_alone halone hrun _ hadvance⟩

/-- A claim that runs alone is `claim_mutation` on the committed tables. -/
theorem claim_alone (hrun : protocol.Reachable store server) (hidle : server.status i = .idle)
    (halone : server.Alone i)
    (hclaim : server.store.claimMutation args mutationId attemptId now = .ok (claim, writes)) :
    ∃ locks, protocol.Reachable store (server.setStatus i (.active
      { control := { arguments := args, mutationId, stage := .claimed claim }, writes, locks })) := by
  have hbegun : protocol.Reachable store
      (server.setStatus i (.active (claiming args mutationId [] .begun))) :=
    hrun.tail (.start hidle rfl)
  unfold Store.claimMutation at hclaim
  split at hclaim
  next hvalid =>
    split at hclaim
    next existing hprincipal =>
      have hfound : protocol.Reachable store (server.setStatus i
          (.active (claiming args mutationId [.row existing.primaryKey] (.found existing)))) :=
        advance_alone halone hbegun noChoice
          (by simp [claiming, Control.advance, hvalid, hprincipal, Control.select])
      exact found_alone halone hfound hclaim
    next hprincipal =>
      have hmissed : protocol.Reachable store
          (server.setStatus i (.active (claiming args mutationId [] .principalMissed))) :=
        advance_alone halone hbegun noChoice
          (by simp [claiming, Control.advance, hvalid, hprincipal, Control.select])
      split at hclaim
      next existing hlegacy =>
        have hfound : protocol.Reachable store (server.setStatus i
            (.active (claiming args mutationId [.row existing.primaryKey] (.found existing)))) :=
          advance_alone halone hmissed noChoice
            (by simp [claiming, Control.advance, hlegacy, Control.select])
        exact found_alone halone hfound hclaim
      next hlegacy =>
        have hmissed' : protocol.Reachable store
            (server.setStatus i (.active (claiming args mutationId [] .legacyMissed))) :=
          advance_alone halone hmissed noChoice
            (by simp [claiming, Control.advance, hlegacy, Control.select])
        split at hclaim
        next => cases hclaim
        next hinsert =>
          have hadvance : (claiming args mutationId [] .legacyMissed).control.advance server.store
              { noChoice with attemptId, now } = some (writes,
                [.attempt claim.attemptId, .entry args.primaryKey, .mutation mutationId],
                { arguments := args, mutationId, stage := .claimed claim }) := by
            simp only [claiming, Control.advance, hinsert, hclaim, Control.claimed]
          exact ⟨_, advance_alone halone hmissed' _ hadvance⟩
        -- Without a race the insert cannot meet a principal row that the first read missed.
        next => cases hclaim
  next => cases hclaim

end Alone

/-- The claim a transaction has made, if its `claim_mutation` has returned. -/
def Control.claim? (control : Control) : Option Claim :=
  match control.stage with
  | .claimed claim | .ran claim _ | .finished claim _ => some claim
  | _ => none

def Write.isBusiness : Write → Bool
  | .business _ => true
  | _ => false

/-- The transaction ran the business statement. -/
def ranStatement (session : Session) : Bool := session.writes.any Write.isBusiness

end Postgresem.Mutation
