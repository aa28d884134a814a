import Postgresem.Execution.Execute
import Postgresem.Execution.ResultRows
import Postgresem.Query.Idempotence

/-! The table of query audits, which any number of calls of the executor and other connections
write to, and what it says of a call at every moment. -/
namespace Postgresem.Executor
open Control RelyGuarantee

inductive TerminalStatus where
  | succeeded
  | failed
  | cancelled
  deriving DecidableEq, Repr

/-- The statuses that `finish_query_audit` accepts. -/
def terminalStatus : String → Option TerminalStatus
  | "succeeded" => some .succeeded
  | "failed" => some .failed
  | "cancelled" => some .cancelled
  | _ => none

/-- A row of `query_audit`; it has a completion exactly when its status is not 'started'. -/
structure QueryAuditRow where
  evidence : QueryEvidence
  completion : Option (TerminalStatus × QueryOutcome)

/-- A row, with the calls that wrote and completed it; `none` stands for another connection. -/
structure AuditEntry where
  row : QueryAuditRow
  startedBy : Option Nat
  completedBy : Option Nat

abbrev AuditTable := String → Option AuditEntry

inductive AuditError where
  | invalidTerminalStatus
  | notStarted

namespace AuditTable

def startQueryAudit (table : AuditTable) (caller : Option Nat) (queryId : String)
    (evidence : QueryEvidence) : AuditTable :=
  Function.update table queryId (some ⟨⟨evidence, none⟩, caller, none⟩)

/-- The update takes the row's lock and looks at its status again once it has it. -/
def finishQueryAudit (table : AuditTable) (caller : Option Nat) (queryId status : String)
    (outcome : QueryOutcome) : Except AuditError AuditTable := do
  let terminal ← orError (terminalStatus status) .invalidTerminalStatus
  match table queryId with
  | some ⟨⟨evidence, none⟩, startedBy, _⟩ =>
    .ok (Function.update table queryId
      (some ⟨⟨evidence, some (terminal, outcome)⟩, startedBy, caller⟩))
  | _ => .error .notStarted

end AuditTable

/-- What other connections do to the table. -/
inductive External : AuditTable → AuditTable → Prop
  | start {table queryId evidence} : table queryId = none →
      External table (table.startQueryAudit none queryId evidence)
  | finish {table next queryId status outcome} :
      table.finishQueryAudit none queryId status outcome = .ok next → External table next

/-- A statement on the audit connection takes effect or not, and its error leaves that open. The
identifier of a new row is a fresh one. Nothing else touches the table. -/
def effect (caller : Nat) : (action : Action) → AuditTable → Reply action → AuditTable → Prop
  | .startQueryAudit evidence, table, reply, next =>
    reply = none ∧ next = table ∨
      ∃ queryId, table queryId = none ∧
        next = table.startQueryAudit (some caller) queryId evidence ∧
          (reply = some queryId ∨ reply = none)
  | .finishQueryAudit queryId status outcome, table, reply, next =>
    reply = false ∧ next = table ∨
      table.finishQueryAudit (some caller) queryId status outcome = .ok next
  | .connectRuntime, table, _, next | .connectAudit, table, _, next
  | .setConfig _ _, table, _, next | .loadPublished _, table, _, next
  | .elapsed, table, _, next | .offerCancelHandle, table, _, next
  | .startTransaction, table, _, next | .verifyRole _, table, _, next
  | .relationOwner _ _, table, _, next | .setLocalRole _, table, _, next
  | .sendStatement _ _, table, _, next | .commit, table, _, next => next = table

def auditSystem : System AuditTable Action Reply := { effect, environment := External }

/-! ## A row leaves 'started' once -/

/-- Rows keep what they were written with; a completed row keeps all of it. -/
def Settles (before after : AuditTable) : Prop :=
  ∀ queryId entry, before queryId = some entry → ∃ entry', after queryId = some entry' ∧
    entry'.row.evidence = entry.row.evidence ∧ entry'.startedBy = entry.startedBy ∧
      (entry.row.completion ≠ none → entry' = entry)

theorem Settles.refl (table : AuditTable) : Settles table table :=
  fun _ entry h => ⟨entry, h, rfl, rfl, fun _ => rfl⟩

theorem Settles.trans {first second third : AuditTable} (h : Settles first second)
    (h' : Settles second third) : Settles first third := by
  intro queryId entry hentry
  obtain ⟨middle, hmiddle, hevidence, hstarted, hkept⟩ := h queryId entry hentry
  obtain ⟨last, hlast, hevidence', hstarted', hkept'⟩ := h' queryId middle hmiddle
  refine ⟨last, hlast, hevidence'.trans hevidence, hstarted'.trans hstarted, fun hcompleted => ?_⟩
  obtain rfl := hkept hcompleted
  exact hkept' hcompleted

section Table
variable {table next : AuditTable} {caller : Option Nat} {queryId status : String}
  {evidence : QueryEvidence} {outcome : QueryOutcome}

theorem startQueryAudit_self :
    table.startQueryAudit caller queryId evidence queryId = some ⟨⟨evidence, none⟩, caller, none⟩ :=
  Function.update_self ..

theorem startQueryAudit_of_ne {other : String} (h : other ≠ queryId) :
    table.startQueryAudit caller queryId evidence other = table other :=
  Function.update_of_ne h ..

theorem settles_start (hfresh : table queryId = none) :
    Settles table (table.startQueryAudit caller queryId evidence) := by
  intro other entry hentry
  have hne : other ≠ queryId := by
    rintro rfl
    rw [hfresh] at hentry
    cases hentry
  exact ⟨entry, (startQueryAudit_of_ne hne).trans hentry, rfl, rfl, fun _ => rfl⟩

/-- All that `finish_query_audit` does. -/
theorem finishQueryAudit_eq_ok
    (h : table.finishQueryAudit caller queryId status outcome = .ok next) :
    ∃ terminal entry, terminalStatus status = some terminal ∧ table queryId = some entry ∧
      entry.row.completion = none ∧
      next = Function.update table queryId
        (some ⟨⟨entry.row.evidence, some (terminal, outcome)⟩, entry.startedBy, caller⟩) := by
  simp only [AuditTable.finishQueryAudit, bind_eq_ok, orError_eq_ok] at h
  obtain ⟨terminal, hterminal, h⟩ := h
  split at h
  next hrow =>
    cases h
    exact ⟨terminal, _, hterminal, hrow, rfl, rfl⟩
  next => cases h

theorem settles_finish (h : table.finishQueryAudit caller queryId status outcome = .ok next) :
    Settles table next := by
  obtain ⟨terminal, changed, -, hchanged, hopen, rfl⟩ := finishQueryAudit_eq_ok h
  intro other entry hentry
  by_cases hother : other = queryId
  · subst hother
    obtain rfl := Option.some.inj (hchanged.symm.trans hentry)
    exact ⟨_, Function.update_self .., rfl, rfl, fun hcompleted => absurd hopen hcompleted⟩
  · exact ⟨entry, (Function.update_of_ne hother ..).trans hentry, rfl, rfl, fun _ => rfl⟩

end Table

theorem settles_external {before after : AuditTable} (h : External before after) :
    Settles before after := by
  cases h with
  | start hfresh => exact settles_start hfresh
  | finish hfinish => exact settles_finish hfinish

/-- What a statement of call `i` can do to the table. -/
theorem effect_cases {i : Nat} {action : Action} {table next : AuditTable} {reply : Reply action}
    (h : effect i action table reply next) :
    next = table ∨
      (∃ evidence queryId, action = .startQueryAudit evidence ∧ table queryId = none ∧
        next = table.startQueryAudit (some i) queryId evidence) ∨
      ∃ queryId status outcome, action = .finishQueryAudit queryId status outcome ∧
        table.finishQueryAudit (some i) queryId status outcome = .ok next := by
  cases action with
  | startQueryAudit evidence =>
    rcases h with ⟨-, h⟩ | ⟨queryId, hfresh, h, -⟩
    · exact .inl h
    · exact .inr (.inl ⟨evidence, queryId, rfl, hfresh, h⟩)
  | finishQueryAudit queryId status outcome =>
    rcases h with ⟨-, h⟩ | h
    · exact .inl h
    · exact .inr (.inr ⟨queryId, status, outcome, rfl, h⟩)
  | _ => exact .inl h

theorem settles_effect {i : Nat} {action : Action} {before after : AuditTable}
    {reply : Reply action} (h : effect i action before reply after) : Settles before after := by
  rcases effect_cases h with rfl | ⟨_, _, -, hfresh, rfl⟩ | ⟨_, _, _, -, hfinish⟩
  · exact .refl _
  · exact settles_start hfresh
  · exact settles_finish hfinish

/-! ## What the calls take for granted of one another -/

/-- The row is open, or another connection completed it. -/
def AuditEntry.Untouched (entry : AuditEntry) : Prop :=
  entry.row.completion = none ∨ entry.completedBy = none

/-- Other calls do not write rows in the name of this one, nor complete its rows. -/
structure Rely (i : Nat) (before after : AuditTable) : Prop where
  settles : Settles before after
  own : ∀ queryId entry, after queryId = some entry → entry.startedBy = some i →
    before queryId = some entry ∨ entry.completedBy = none ∧
      ∃ entry', before queryId = some entry' ∧ entry'.startedBy = some i

/-- The evidence is that of the compiled query. -/
def QueryEvidence.Of (evidence : QueryEvidence) (compiled : CompiledQuery) : Prop :=
  evidence.generatedSqlHash = compiled.sqlHash ∧ evidence.compilerQueryHash = compiled.queryHash ∧
    evidence.parameterTypes = compiled.parameters.map CompiledParameter.dataType ∧
    evidence.lineage = compiled.lineage

/-- The statement of a compiled query with its parameters. -/
def IsStatement (compiled : CompiledQuery) (sql : String) (parameters : List String) : Prop :=
  sql = resultWrapperSql compiled ∧ parameters = compiled.parameters.map parameterText

/-- A row that the call wrote for the query, which no call has completed. -/
def Audits (i : Nat) (table : AuditTable) (sql : String) (parameters : List String) : Prop :=
  ∃ queryId entry compiled, table queryId = some entry ∧ entry.startedBy = some i ∧
    entry.Untouched ∧ entry.row.evidence.Of compiled ∧ IsStatement compiled sql parameters

def permits (i : Nat) : Action → AuditTable → Prop
  | .sendStatement sql parameters, table => Audits i table sql parameters
  | .finishQueryAudit queryId _ _, table =>
    ∃ entry, table queryId = some entry ∧ entry.startedBy = some i
  | _, _ => True

theorem Rely.refl (i : Nat) (table : AuditTable) : Rely i table table :=
  ⟨.refl _, fun _ _ h _ => .inl h⟩

theorem rely_start {i : Nat} {caller : Option Nat} {table : AuditTable} {queryId : String}
    {evidence : QueryEvidence} (hfresh : table queryId = none) (hcaller : caller ≠ some i) :
    Rely i table (table.startQueryAudit caller queryId evidence) := by
  refine ⟨settles_start hfresh, fun other entry hentry hown => .inl ?_⟩
  by_cases hother : other = queryId
  · subst hother
    rw [startQueryAudit_self] at hentry
    cases hentry
    exact absurd hown hcaller
  · rwa [startQueryAudit_of_ne hother] at hentry

/-- A row of call `i` is completed by another connection, or not at all. -/
theorem rely_finish {i : Nat} {caller : Option Nat} {table next : AuditTable}
    {queryId status : String} {outcome : QueryOutcome}
    (h : table.finishQueryAudit caller queryId status outcome = .ok next)
    (hcaller : ∀ entry, table queryId = some entry → entry.startedBy = some i → caller = none) :
    Rely i table next := by
  refine ⟨settles_finish h, fun other entry hentry hown => ?_⟩
  obtain ⟨terminal, changed, -, hchanged, -, rfl⟩ := finishQueryAudit_eq_ok h
  by_cases hother : other = queryId
  · subst hother
    rw [Function.update_self, Option.some.injEq] at hentry
    subst hentry
    exact .inr ⟨hcaller changed hchanged hown, changed, hchanged, hown⟩
  · rw [Function.update_of_ne hother] at hentry
    exact .inl hentry

def auditDiscipline : Discipline auditSystem where
  rely := Rely
  permits := permits
  environment := by
    intro i before after h
    cases h with
    | start hfresh => exact rely_start hfresh nofun
    | finish hfinish => exact rely_finish hfinish fun _ _ _ => rfl
  effect := by
    intro i j action before reply after hne hpermits h
    rcases effect_cases h with rfl | ⟨_, _, -, hfresh, rfl⟩ | ⟨queryId, _, _, rfl, hfinish⟩
    · exact .refl _ _
    · exact rely_start hfresh fun heq => hne (Option.some.inj heq).symm
    · refine rely_finish hfinish fun entry hentry hown => ?_
      obtain ⟨own, hrow, hstarted⟩ := hpermits
      obtain rfl := Option.some.inj (hrow.symm.trans hentry)
      exact absurd (Option.some.inj (hown.symm.trans hstarted)) hne

/-! ## What a call knows of its row -/

/-- No row is in the name of the call. -/
def Unaudited (i : Nat) (table : AuditTable) : Prop :=
  ∀ queryId entry, table queryId = some entry → entry.startedBy ≠ some i

/-- One row is in the name of the call. -/
structure Audited (i : Nat) (queryId : String) (evidence : QueryEvidence) (P : AuditEntry → Prop)
    (table : AuditTable) : Prop where
  row : ∃ entry, table queryId = some entry ∧ entry.startedBy = some i ∧
    entry.row.evidence = evidence ∧ P entry
  only : ∀ other entry, table other = some entry → entry.startedBy = some i → other = queryId

theorem stable_unaudited (i : Nat) : auditDiscipline.Stable i (Unaudited i) := by
  intro before after h hbefore queryId entry hentry hown
  rcases h.own queryId entry hentry hown with hkept | ⟨-, entry', hentry', hown'⟩
  · exact hbefore queryId entry hkept hown
  · exact hbefore queryId entry' hentry' hown'

theorem stable_audited {i : Nat} {queryId : String} {evidence : QueryEvidence}
    {P : AuditEntry → Prop}
    (hP : ∀ entry entry', P entry → entry.row.completion = none → entry'.completedBy = none →
      P entry') : auditDiscipline.Stable i (Audited i queryId evidence P) := by
  rintro before after h ⟨⟨entry, hentry, hown, hevidence, hentryP⟩, honly⟩
  constructor
  · obtain ⟨entry', hentry', hevidence', hown', hkept⟩ := h.settles queryId entry hentry
    refine ⟨entry', hentry', hown'.trans hown, hevidence'.trans hevidence, ?_⟩
    rcases h.own queryId entry' hentry' (hown'.trans hown) with hsame | ⟨hother, -⟩
    · obtain rfl := Option.some.inj (hsame.symm.trans hentry)
      exact hentryP
    · by_cases hopen : entry.row.completion = none
      · exact hP entry entry' hentryP hopen hother
      · rw [hkept hopen]
        exact hentryP
  · intro other entry' hentry' hown'
    rcases h.own other entry' hentry' hown' with hsame | ⟨-, earlier, hearlier, hstarted⟩
    · exact honly other entry' hsame hown'
    · exact honly other earlier hearlier hstarted

/-- The row that the call has written, and that it has not completed. -/
abbrev Opened (i : Nat) (queryId : String) (evidence : QueryEvidence) : AuditTable → Prop :=
  Audited i queryId evidence AuditEntry.Untouched

/-- The row that the call has completed. -/
abbrev Closed (i : Nat) (queryId : String) (evidence : QueryEvidence) (terminal : TerminalStatus)
    (outcome : QueryOutcome) : AuditTable → Prop :=
  Audited i queryId evidence fun entry => entry.row.completion = some (terminal, outcome)

theorem stable_opened (i : Nat) (queryId : String) (evidence : QueryEvidence) :
    auditDiscipline.Stable i (Opened i queryId evidence) :=
  stable_audited fun _ _ _ _ hother => .inr hother

theorem stable_closed (i : Nat) (queryId : String) (evidence : QueryEvidence)
    (terminal : TerminalStatus) (outcome : QueryOutcome) :
    auditDiscipline.Stable i (Closed i queryId evidence terminal outcome) := by
  refine stable_audited fun entry _ hclosed hopen _ => ?_
  rw [hopen] at hclosed
  cases hclosed

theorem opened_start {i : Nat} {table : AuditTable} {queryId : String} {evidence : QueryEvidence}
    (h : Unaudited i table) :
    Opened i queryId evidence (table.startQueryAudit (some i) queryId evidence) := by
  refine ⟨⟨_, startQueryAudit_self, rfl, rfl, .inl rfl⟩, fun other entry hentry hown => ?_⟩
  by_contra hother
  rw [startQueryAudit_of_ne hother] at hentry
  exact h other entry hentry hown

theorem closed_finish {i : Nat} {table next : AuditTable} {queryId status : String}
    {evidence : QueryEvidence} {terminal : TerminalStatus} {outcome : QueryOutcome}
    (h : Opened i queryId evidence table) (hstatus : terminalStatus status = some terminal)
    (hfinish : table.finishQueryAudit (some i) queryId status outcome = .ok next) :
    Closed i queryId evidence terminal outcome next := by
  obtain ⟨terminal', changed, hterminal, hchanged, -, rfl⟩ := finishQueryAudit_eq_ok hfinish
  obtain rfl := Option.some.inj (hterminal.symm.trans hstatus)
  obtain ⟨⟨entry, hentry, hown, hevidence, -⟩, honly⟩ := h
  obtain rfl := Option.some.inj (hchanged.symm.trans hentry)
  refine ⟨⟨_, Function.update_self .., hown, hevidence, rfl⟩, fun other entry' hentry' hown' => ?_⟩
  by_contra hother
  rw [Function.update_of_ne hother] at hentry'
  exact hother (honly other entry' hentry' hown')

/-! ## The program of a call -/

/-- Actions that leave the table alone and need no permission. -/
def Action.isQuiet : Action → Bool
  | .startQueryAudit _ | .finishQueryAudit _ _ _ | .sendStatement _ _ => false
  | _ => true

section Runs
variable {allowed : Action → Prop} {α : Type}

/-- Every action of the program is an allowed one. -/
abbrev Only (allowed : Action → Prop) (x : Execution α) : Prop :=
  Program.Runs allowed (fun _ => True) x.run

theorem Only.bind {β : Type} {x : Execution α} {f : α → Execution β} (hx : Only allowed x)
    (hf : ∀ value, Only allowed (f value)) : Only allowed (x >>= f) :=
  Program.Runs.bindExcept hx (fun _ _ => trivial) fun value _ => hf value

theorem only_check (result : Except ExecuteError α) : Only allowed (check result) := trivial

theorem only_ask {action : Action} (h : allowed action) : Only allowed (ask (perform action)) :=
  ⟨h, fun _ => trivial⟩

theorem only_setConfig (name value : String) (h : ∀ action, action.isQuiet = true → allowed action) :
    Only allowed (setConfig name value) := ⟨h _ rfl, fun _ => trivial⟩

variable (h : ∀ action, action.isQuiet = true → allowed action)
include h

theorem only_configureTimeouts (config : ExecutorConfig) :
    Only allowed (configureTimeouts config) :=
  (only_setConfig _ _ h).bind fun _ => (only_setConfig _ _ h).bind fun _ => only_setConfig _ _ h

theorem only_connectRuntime (config : ExecutorConfig) : Only allowed (connectRuntime config) :=
  Only.bind ⟨h _ rfl, fun _ => trivial⟩ fun _ => only_configureTimeouts h config

theorem only_connectAudit (config : ExecutorConfig) : Only allowed (connectAudit config) :=
  Only.bind ⟨h _ rfl, fun _ => trivial⟩ fun _ => only_configureTimeouts h config

theorem only_verifyOwners (databaseRole : String) (relations : List (Lex (String × String))) :
    Only allowed (verifyOwners databaseRole relations) := by
  induction relations with
  | nil => trivial
  | cons relation rest ih =>
    exact (only_ask (h _ rfl)).bind fun _ => (only_check _).bind fun _ => ih

theorem only_applyTransactionConfiguration (config : ExecutorConfig) :
    Only allowed (applyTransactionConfiguration config) :=
  Only.bind ⟨h _ rfl, fun _ => trivial⟩ fun _ =>
    (only_configureTimeouts h config).bind fun _ => only_setConfig _ _ h

end Runs

/-- The bytes of the loop are those of the rows it keeps. -/
theorem collectRows_byteCount {maxResultBytes : Nat} {fetches : List Mutation.Fetch}
    {rows : List Json.Value} {result : ExecutionRows}
    (h : collectRows maxResultBytes fetches rows (arraySize rows) = .ok result) :
    result.byteCount = arraySize result.rows := by
  induction fetches generalizing rows with
  | nil =>
    cases h
    rfl
  | cons fetch rest ih =>
    cases fetch with
    | failed queryCanceled => cases h
    | row value =>
      have hsize := arraySize_concat rows value
      simp only [collectRows] at h
      generalize (if rows.isEmpty = true then 0 else 1) = separatorBytes at h hsize
      split at h
      · split at h
        · cases h
          rfl
        · rw [← hsize] at h
          exact ih h
      · cases h

theorem executeRows_byteCount {maxResultBytes : Nat} {fetches : List Mutation.Fetch} {result : ExecutionRows}
    (h : executeRows maxResultBytes fetches = .ok result) :
    result.byteCount = arraySize result.rows := collectRows_byteCount h

/-- The byte count is that of the rows. -/
def Measured : Except ExecuteError (ExecutionRows × Nat) → Prop
  | .ok (execution, _) => execution.byteCount = arraySize execution.rows
  | .error _ => True

/-- The source transaction sends one statement, the compiled one. -/
theorem runs_executeCompiled (snapshot : SemanticSnapshot) (compiled : CompiledQuery)
    (config : ExecutorConfig) :
    Program.Runs
      (fun action => action.isQuiet = true ∨ ∃ sql parameters,
        action = .sendStatement sql parameters ∧ IsStatement compiled sql parameters)
      Measured (executeCompiled snapshot compiled config).run := by
  have hquiet : ∀ action : Action, action.isQuiet = true → action.isQuiet = true ∨
      ∃ sql parameters, action = .sendStatement sql parameters ∧
        IsStatement compiled sql parameters := fun _ => .inl
  unfold executeCompiled
  refine Program.Runs.bindExcept (R := fun _ => True) ⟨.inl rfl, fun _ => trivial⟩
    (fun _ _ => trivial) fun _ _ => ?_
  refine Program.Runs.bindExcept (only_setConfig _ _ hquiet) (fun _ _ => trivial)
    fun _ _ => ?_
  refine Program.Runs.bindExcept (R := fun _ => True)
    ((only_ask (.inl rfl)).bind fun _ => only_check _) (fun _ _ => trivial)
    fun isRoleMember _ => ?_
  refine Program.Runs.bindExcept (R := fun _ => True)
    ((only_check _).bind fun _ => only_verifyOwners hquiet _ _) (fun _ _ => trivial)
    fun _ _ => ?_
  refine Program.Runs.bindExcept (only_check _) (fun _ _ => trivial) fun _ _ => ?_
  refine Program.Runs.bindExcept (only_applyTransactionConfiguration hquiet config)
    (fun _ _ => trivial) fun _ _ => ?_
  refine Program.Runs.bindExcept (R := fun _ => True)
    ⟨.inr ⟨_, _, rfl, rfl, rfl⟩, fun _ => trivial⟩ (fun _ _ => trivial) fun fetches _ => ?_
  refine Program.Runs.bindExcept
    (R := fun outcome => ∀ execution, outcome = .ok execution →
      execution.byteCount = arraySize execution.rows) ?_ (fun _ _ => trivial)
    fun execution hexecution => ?_
  · intro execution hexecution
    exact executeRows_byteCount (mapError_eq_ok.mp hexecution)
  refine Program.Runs.bindExcept (only_ask (.inl rfl)) (fun _ _ => trivial)
    fun serializationMs _ => ?_
  refine Program.Runs.bindExcept (R := fun _ => True) ⟨.inl rfl, fun _ => trivial⟩
    (fun _ _ => trivial) fun _ _ => ?_
  exact hexecution execution rfl

/-- The evidence is that of the query. -/
def Evidenced : Except ExecuteError (PublishedModel × NormalizedLsq × CompiledQuery × QueryEvidence) →
    Prop
  | .ok (_, _, compiled, evidence) => evidence.Of compiled
  | .error _ => True

theorem runs_startAudit (finite : String → Bool) (backend : CompilerBackend)
    (invocation : Invocation) :
    Program.Runs (fun action => action.isQuiet = true) Evidenced
      (startAudit finite backend invocation).run := by
  have hquiet : ∀ action : Action, action.isQuiet = true → action.isQuiet = true := fun _ => id
  unfold startAudit
  refine Program.Runs.bindExcept (only_connectRuntime hquiet _) (fun _ _ => trivial)
    fun _ _ => ?_
  refine Program.Runs.bindExcept (R := fun _ => True) ⟨rfl, fun _ => trivial⟩
    (fun _ _ => trivial) fun published _ => ?_
  refine Program.Runs.bindExcept (only_check _) (fun _ _ => trivial)
    fun normalized _ => ?_
  refine Program.Runs.bindExcept (only_ask rfl) (fun _ _ => trivial)
    fun validationMs _ => ?_
  refine Program.Runs.bindExcept (only_check _) (fun _ _ => trivial) fun compiled _ => ?_
  refine Program.Runs.bindExcept (only_ask rfl) (fun _ _ => trivial)
    fun compileMs _ => ?_
  refine Program.Runs.bindExcept (only_connectAudit hquiet _) (fun _ _ => trivial)
    fun _ _ => ?_
  exact ⟨rfl, rfl, rfl, rfl⟩

/-! ## The audit of a call -/

/-- What the table says of a call that has returned. -/
structure Reported (i : Nat) (result : Except ExecuteError QueryResult) (table : AuditTable) :
    Prop where
  succeeded : ∀ value, result = .ok value → ∃ entry outcome,
    table value.queryId = some entry ∧ entry.startedBy = some i ∧
      entry.row.completion = some (.succeeded, outcome) ∧
      outcome.rowCount = toI64 value.rows.length ∧
      outcome.byteCount = toI64 (arraySize value.rows) ∧ outcome.truncated = value.truncated
  failed : ∀ error, result = .error error → error ≠ .terminalAudit → error ≠ .startedAudit →
    ∀ queryId entry, table queryId = some entry → entry.startedBy = some i →
      ∃ outcome, outcome.errorCode = some (executionErrorCode error) ∧
        entry.row.completion =
          some (if error.isCancellation then .cancelled else .failed, outcome)

theorem stable_reported (i : Nat) (result : Except ExecuteError QueryResult) :
    auditDiscipline.Stable i (Reported i result) := by
  intro before after h hbefore
  constructor
  · intro value hvalue
    obtain ⟨entry, outcome, hentry, hown, hcompletion, hcounts⟩ := hbefore.succeeded value hvalue
    obtain ⟨entry', hentry', -, -, hkept⟩ := h.settles _ entry hentry
    have hsame : entry' = entry := hkept (by rw [hcompletion]; simp)
    rw [hsame] at hentry'
    exact ⟨entry, outcome, hentry', hown, hcompletion, hcounts⟩
  · intro error herror hterminal hstarted queryId entry hentry hown
    have hfailed := hbefore.failed error herror hterminal hstarted queryId
    rcases h.own queryId entry hentry hown with hsame | ⟨-, earlier, hearlier, hown'⟩
    · exact hfailed entry hsame hown
    · obtain ⟨outcome, hcode, hcompletion⟩ := hfailed earlier hearlier hown'
      obtain ⟨entry', hentry', -, -, hkept⟩ := h.settles _ earlier hearlier
      have hsame : entry' = earlier := hkept (by rw [hcompletion]; simp)
      obtain rfl := Option.some.inj (hentry'.symm.trans hentry)
      rw [hsame]
      exact ⟨outcome, hcode, hcompletion⟩

/-- The errors that leave the row open. -/
theorem reported_open {i : Nat} {error : ExecuteError} {table : AuditTable}
    (h : error = .terminalAudit ∨ error = .startedAudit) : Reported i (.error error) table := by
  refine ⟨nofun, ?_⟩
  rintro _ ⟨⟩ hterminal hstarted
  exact absurd h (not_or.mpr ⟨hterminal, hstarted⟩)

theorem Unaudited.reported {i : Nat} {error : ExecuteError} {table : AuditTable}
    (h : Unaudited i table) : Reported i (.error error) table :=
  ⟨nofun, fun _ _ _ _ queryId entry hentry hown => absurd hown (h queryId entry hentry)⟩

section Finish
variable {i : Nat} {table : AuditTable} {queryId : String} {evidence : QueryEvidence}

theorem reported_succeeded {outcome : QueryOutcome} {value : QueryResult}
    (h : Closed i value.queryId evidence .succeeded outcome table)
    (hrows : outcome.rowCount = toI64 value.rows.length)
    (hbytes : outcome.byteCount = toI64 (arraySize value.rows))
    (htruncated : outcome.truncated = value.truncated) : Reported i (.ok value) table := by
  refine ⟨?_, nofun⟩
  rintro _ ⟨⟩
  obtain ⟨⟨entry, hentry, hown, -, hcompletion⟩, -⟩ := h
  exact ⟨entry, outcome, hentry, hown, hcompletion, hrows, hbytes, htruncated⟩

theorem reported_failed {outcome : QueryOutcome} {error : ExecuteError}
    (h : Closed i queryId evidence (if error.isCancellation then .cancelled else .failed)
      outcome table) (hcode : outcome.errorCode = some (executionErrorCode error)) :
    Reported i (.error error) table := by
  refine ⟨nofun, ?_⟩
  rintro _ ⟨⟩ - - other entry hentry hown
  obtain ⟨⟨closed, hclosed, -, -, hcompletion⟩, honly⟩ := h
  obtain rfl := honly other entry hentry hown
  obtain rfl := Option.some.inj (hclosed.symm.trans hentry)
  exact ⟨outcome, hcode, hcompletion⟩

theorem meets_finishAudit {status : String} {terminal : TerminalStatus} {code : Option String}
    {databaseMs serializationMs rowCount byteCount : Nat} {truncated : Bool}
    (h : Opened i queryId evidence table) (hstatus : terminalStatus status = some terminal) :
    auditDiscipline.Meets i
      (fun result t => result = .error .terminalAudit ∨ result = .ok () ∧
        Closed i queryId evidence terminal
          { errorCode := code, databaseDurationMs := toI64 databaseMs,
            serializationDurationMs := toI64 serializationMs, rowCount := toI64 rowCount,
            byteCount := toI64 byteCount, truncated } t)
      (finishAudit queryId status code databaseMs serializationMs rowCount byteCount truncated).run
      table := by
  intro t ht
  have hopened := Discipline.Stable.trans (stable_opened i queryId evidence) ht h
  obtain ⟨entry, hentry, hown, -⟩ := hopened.row
  refine ⟨⟨entry, hentry, hown⟩, fun reply u heffect => ?_⟩
  cases reply with
  | false => exact fun _ _ => .inl rfl
  | true =>
    rcases heffect with ⟨hfalse, -⟩ | hfinish
    · cases hfalse
    · have hclosed := closed_finish hopened hstatus hfinish
      exact fun _ hlater => .inr ⟨rfl, Discipline.Stable.trans (stable_closed _ _ _ _ _) hlater hclosed⟩

/-- Actions that keep the table keep what the call knows of its row. -/
theorem meets_of_opened {α : Type} {allowed : Action → Prop} {R : α → Prop}
    {p : Program Action Reply α} (h : Opened i queryId evidence table)
    (hallowed : ∀ action t, allowed action → Opened i queryId evidence t →
      permits i action t ∧ ∀ reply u, effect i action t reply u → u = t)
    (hp : p.Runs allowed R) :
    auditDiscipline.Meets i (fun value t => R value ∧ Opened i queryId evidence t) p table := by
  refine Discipline.Meets.of_runs (stable_opened i queryId evidence)
    (fun action t ha ht => (hallowed action t ha ht).1) ?_ hp h
  intro action t reply u ha ht heffect
  rw [(hallowed action t ha ht).2 reply u heffect]
  exact ht

theorem effect_quiet {action : Action} (h : action.isQuiet = true) {reply : Reply action}
    {t u : AuditTable} (heffect : effect i action t reply u) : u = t := by
  cases action <;> first | exact heffect | cases h

theorem permits_quiet {action : Action} (h : action.isQuiet = true) (t : AuditTable) :
    permits i action t := by
  cases action <;> trivial

theorem permits_statement {compiled : CompiledQuery} {t : AuditTable}
    (h : Opened i queryId evidence t) (hevidence : evidence.Of compiled) {sql : String}
    {parameters : List String} (hstatement : IsStatement compiled sql parameters) :
    permits i (.sendStatement sql parameters) t := by
  obtain ⟨entry, hentry, hown, rfl, huntouched⟩ := h.row
  exact ⟨queryId, entry, compiled, hentry, hown, huntouched, hevidence, hstatement⟩

theorem meets_executeCompiled {snapshot : SemanticSnapshot} {compiled : CompiledQuery}
    {config : ExecutorConfig} (h : Opened i queryId evidence table)
    (hevidence : evidence.Of compiled) :
    auditDiscipline.Meets i (fun outcome t => Measured outcome ∧ Opened i queryId evidence t)
      (executeCompiled snapshot compiled config).run table := by
  refine meets_of_opened h ?_ (runs_executeCompiled snapshot compiled config)
  rintro action t (hquiet | ⟨sql, parameters, rfl, hstatement⟩) ht
  · exact ⟨permits_quiet hquiet t, fun reply u => effect_quiet hquiet⟩
  · exact ⟨permits_statement ht hevidence hstatement, fun reply u heffect => heffect⟩

/-- A quiet action with its reply. -/
theorem meets_ask {action : Action} (hquiet : action.isQuiet = true)
    (h : Opened i queryId evidence table) :
    auditDiscipline.Meets i
      (fun result t => (∃ reply, result = .ok reply) ∧ Opened i queryId evidence t)
      (ask (perform action)).run table := by
  have hruns : Program.Runs (fun action => action.isQuiet = true)
      (fun result => ∃ reply, result = .ok reply) (ask (perform action)).run :=
    ⟨hquiet, fun reply => ⟨reply, rfl⟩⟩
  refine meets_of_opened h ?_ hruns
  exact fun action t ha _ => ⟨permits_quiet ha t, fun reply u => effect_quiet ha⟩

/-- The call ends with the error that its row reports. -/
theorem meets_failed {status code : String} {error : ExecuteError} {databaseMs : Nat}
    (h : Opened i queryId evidence table)
    (hstatus : terminalStatus status =
      some (if error.isCancellation then .cancelled else .failed))
    (hcode : code = executionErrorCode error) :
    auditDiscipline.Meets i (Reported i)
      (do
        finishAudit queryId status (some code) databaseMs 0 0 0 false
        check (.error error) : Execution QueryResult).run table := by
  refine Discipline.Meets.bindExcept (meets_finishAudit h hstatus) ?_ ?_
  · rintro error' t (hterminal | ⟨hok, -⟩)
    · obtain rfl : error' = .terminalAudit := by simpa using hterminal
      exact .done (stable_reported i _) (reported_open (.inl rfl))
    · cases hok
  · rintro _ t (hterminal | ⟨-, hclosed⟩)
    · cases hterminal
    · refine .done (stable_reported i _) (reported_failed hclosed ?_)
      rw [hcode]

theorem meets_executeAudited {invocation : Invocation} {published : PublishedModel}
    {normalized : NormalizedLsq} {compiled : CompiledQuery} (h : Opened i queryId evidence table)
    (hevidence : evidence.Of compiled) :
    auditDiscipline.Meets i (Reported i)
      (executeAudited invocation published normalized compiled queryId).run table := by
  unfold executeAudited
  refine Discipline.Meets.bindExcept (meets_ask rfl h) (fun _ _ hno => ?_) ?_
  · obtain ⟨⟨_, hno⟩, -⟩ := hno
    cases hno
  rintro accepted t ⟨-, ht⟩
  cases accepted with
  | false =>
    rw [if_neg Bool.false_ne_true]
    exact meets_failed ht rfl rfl
  | true =>
    rw [if_pos rfl]
    have hexecuted : auditDiscipline.Meets i
        (fun result t => ∃ outcome, result = .ok outcome ∧ Measured outcome ∧
          Opened i queryId evidence t)
        (ask (executeCompiled published.snapshot compiled invocation.config).run).run t := by
      refine Discipline.Meets.bind ((meets_executeCompiled ht hevidence).mono ?_)
      rintro outcome t' ⟨hmeasured, ht'⟩ t'' hlater
      exact ⟨outcome, rfl, hmeasured, Discipline.Stable.trans (stable_opened _ _ _) hlater ht'⟩
    refine Discipline.Meets.bindExcept hexecuted (fun _ _ hno => ?_) ?_
    · obtain ⟨_, hno, -⟩ := hno
      cases hno
    rintro outcome t ⟨_, ⟨⟩, hmeasured, ht⟩
    refine Discipline.Meets.bindExcept (meets_ask rfl ht) (fun _ _ hno => ?_) ?_
    · obtain ⟨⟨_, hno⟩, -⟩ := hno
      cases hno
    rintro databaseMs t ⟨-, ht⟩
    cases outcome with
    | error error =>
      refine meets_failed ht ?_ rfl
      cases error.isCancellation <;> rfl
    | ok outcome =>
      obtain ⟨execution, serializationMs⟩ := outcome
      have hstatus : terminalStatus "succeeded" = some .succeeded := rfl
      refine Discipline.Meets.bindExcept (meets_finishAudit ht hstatus) ?_ ?_
      · rintro error t (hterminal | ⟨hok, -⟩)
        · obtain rfl : error = .terminalAudit := by simpa using hterminal
          exact .done (stable_reported i _) (reported_open (.inl rfl))
        · cases hok
      · rintro _ t (hterminal | ⟨-, hclosed⟩)
        · cases hterminal
        · refine .done (stable_reported i _) (reported_succeeded hclosed rfl ?_ rfl)
          rw [hmeasured]

end Finish

section Calls
variable (finite : String → Bool) (backend : CompilerBackend)

theorem meets_executeWithCancel {i : Nat} {table : AuditTable} (h : Unaudited i table)
    (invocation : Invocation) :
    auditDiscipline.Meets i (Reported i) (executeWithCancel finite backend invocation).run
      table := by
  have hstart := Discipline.Meets.of_runs (D := auditDiscipline) (stable_unaudited i)
    (fun action t ha _ => permits_quiet ha t)
    (fun action t reply u ha ht heffect => by rwa [effect_quiet ha heffect])
    (runs_startAudit finite backend invocation) h
  refine Discipline.Meets.bindExcept hstart ?_ ?_
  · rintro error t ⟨-, ht⟩
    exact .done (stable_reported i _) ht.reported
  rintro ⟨published, normalized, compiled, evidence⟩ t ⟨hevidence, ht⟩ t' hlater
  have hunaudited := Discipline.Stable.trans (stable_unaudited i) hlater ht
  refine ⟨trivial, fun reply u heffect => ?_⟩
  cases reply with
  | none => exact .done (stable_reported i _) (reported_open (.inr rfl))
  | some queryId =>
    rcases heffect with ⟨hnone, -⟩ | ⟨queryId', -, rfl, hreply | hreply⟩
    · cases hnone
    · cases hreply
      exact meets_executeAudited (opened_start hunaudited) hevidence
    · cases hreply

/-- The rows that the table holds before the first call. -/
def AuditTable.ofRows (rows : String → Option QueryAuditRow) : AuditTable :=
  fun queryId => (rows queryId).map fun row => ⟨row, none, none⟩

theorem unaudited_ofRows (rows : String → Option QueryAuditRow) (i : Nat) :
    Unaudited i (AuditTable.ofRows rows) := by
  intro queryId entry hentry hown
  obtain ⟨row, -, rfl⟩ := Option.map_eq_some_iff.mp hentry
  cases hown

/-- The configurations of any number of calls beside other connections to the audit table. -/
abbrev CallsReach (invocations : Nat → Invocation) (rows : String → Option QueryAuditRow)
    (config : Config AuditTable Action Reply (Except ExecuteError QueryResult)) : Prop :=
  auditSystem.Reachable (fun i => (executeWithCancel finite backend (invocations i)).run)
    (AuditTable.ofRows rows) config

/-- At every moment of any number of calls: a call that is about to send its statement has a row
that is still started, unless another connection completed it; the row of a call that has returned
says how it ended, unless an audit statement failed; and a row is completed once, for good. -/
theorem query_audit_lifecycle {invocations : Nat → Invocation}
    {rows : String → Option QueryAuditRow}
    {config : Config AuditTable Action Reply (Except ExecuteError QueryResult)}
    (h : CallsReach finite backend invocations rows config) :
    (∀ i sql parameters next,
      config.threads i = some (.perform (.sendStatement sql parameters) next) →
        Audits i config.world sql parameters) ∧
    (∀ i result, config.threads i = some (.done result) → Reported i result config.world) ∧
    ∀ later, Relation.ReflTransGen auditSystem.Step config later →
      Settles config.world later.world := by
  have hstart : ∀ i, auditDiscipline.Meets i (Reported i)
      (executeWithCancel finite backend (invocations i)).run (AuditTable.ofRows rows) :=
    fun i => meets_executeWithCancel finite backend (unaudited_ofRows rows i) _
  refine ⟨?_, ?_, ?_⟩
  · intro i sql parameters next hnext
    exact Discipline.permits_of_reachable hstart h hnext
  · intro i result hdone
    exact Discipline.post_of_reachable hstart h hdone
  · intro later hlater
    exact auditSystem.keeps Settles.refl Settles.trans settles_effect settles_external hlater

end Calls

/-! ## A call on the ledger -/

section Ledger

def ledgerQuery : LogicalSemanticQuery :=
  { model := "orders"
    dimensions := [{ field := ledgerName "_net" }, { field := ledgerName "_gross" }] }

def ledgerInvocation : Invocation :=
  { input := bytesOf ledgerQuery.json
    project := "ledger"
    config :=
      { databaseUrl := "postgresql://localhost/ledger", databaseUrlVariable := "DATABASE_URL"
        databasePassword := none, auditDatabaseUrl := "postgresql://localhost/ledger"
        auditDatabaseUrlVariable := "AUDIT_DATABASE_URL", auditDatabasePassword := none
        databaseRole := "analyst", maxResultBytes := 1048576, statementTimeout := 30000
        lockTimeout := 5000, idleTransactionTimeout := 5000 }
    context := ⟨"mcp:stdio", "mcp-stdio", "mcp:stdio", by decide⟩ }

def ledgerPublished : PublishedModel := ⟨"ledger", "revision-1", ledgerSnapshot⟩

theorem normalizeLsq_ledgerQuery :
    normalizeLsq (fun _ => true) standardHash ledgerInvocation.input = .ok ordersByRevenue := by
  have hvalid : validateQuery ledgerQuery = .ok () := by decide
  have hparse : parseQuery (fun _ => true) (bytesOf ledgerQuery.json) = some ledgerQuery :=
    parseQuery_json nofun ((validateQuery_ok_iff ledgerQuery).1.mp hvalid)
  exact normalizeLsq_eq_ok.mpr ⟨ledgerQuery, hparse, checked_eq_ok.mpr ⟨hvalid, rfl⟩⟩

variable (table : AuditTable)

theorem silently_configureTimeouts (config : ExecutorConfig) :
    auditSystem.Silently 0 table (configureTimeouts config).run (.done (.ok ())) :=
  .step true rfl (.step true rfl (.step true rfl (.refl _)))

/-- While every answer is the hoped for one, the call comes to its audit row. -/
theorem silently_startAudit : ∃ compiled evidence,
    auditSystem.Silently 0 table
      (startAudit (fun _ => true) standardBackend ledgerInvocation).run
      (.done (.ok (ledgerPublished, ordersByRevenue, compiled, evidence))) := by
  obtain ⟨compiled, hcompiled⟩ := ordersByRevenue_compiles
  refine ⟨compiled,
    queryEvidence standardBackend ledgerInvocation ledgerPublished ordersByRevenue compiled 0 0, ?_⟩
  have hnormalized : auditSystem.Silently 0 table (check ((normalizeLsq (fun _ => true) standardBackend.toHashBackend
      ledgerInvocation.input).mapError .lsq)).run (.done (.ok ordersByRevenue)) := by
    rw [show standardBackend.toHashBackend = standardHash from rfl, normalizeLsq_ledgerQuery]
    exact .refl _
  have hcompile : auditSystem.Silently 0 table (check ((compileLsq standardBackend ordersByRevenue ledgerSnapshot {}).mapError
      .compile)).run (.done (.ok compiled)) := by
    rw [hcompiled]
    exact .refl _
  unfold startAudit
  refine System.Silently.bindExcept (.step true rfl (silently_configureTimeouts table _)) ?_
  refine System.Silently.bindExcept
    (.step (some ledgerPublished) rfl (.refl (.done (Except.ok ledgerPublished)))) ?_
  refine System.Silently.bindExcept hnormalized ?_
  refine System.Silently.bindExcept (.step (0 : Nat) rfl (.refl (.done (Except.ok 0)))) ?_
  refine System.Silently.bindExcept hcompile ?_
  refine System.Silently.bindExcept (.step (0 : Nat) rfl (.refl (.done (Except.ok 0)))) ?_
  refine System.Silently.bindExcept (.step true rfl (silently_configureTimeouts table _)) ?_
  exact .refl _

/-- The first of many calls, on a table without rows. -/
abbrev LedgerReach : Config AuditTable Action Reply (Except ExecuteError QueryResult) → Prop :=
  CallsReach (fun _ => true) standardBackend (fun _ => ledgerInvocation) fun _ => none

theorem ledger_starts : ∃ compiled evidence config next, LedgerReach config ∧
    config.world = AuditTable.ofRows (fun _ => none) ∧
    config.threads 0 = some (.perform (.startQueryAudit evidence) next) ∧
    next none = .done (.error .startedAudit) ∧
    ∀ queryId, next (some queryId) =
      (executeAudited ledgerInvocation ledgerPublished ordersByRevenue compiled queryId).run := by
  obtain ⟨compiled, evidence, hstart⟩ := silently_startAudit (.ofRows fun _ => none)
  have hcall := hstart.bind (ExceptT.bindCont fun started => do
    let queryId ← demand (perform (.startQueryAudit started.2.2.2)) .startedAudit
    executeAudited ledgerInvocation started.1 started.2.1 started.2.2.1 queryId)
  refine ⟨compiled, evidence, _, _, hcall.reaches rfl, rfl, Config.setThread_self .., rfl, ?_⟩
  intro queryId
  rfl

/-- Where only the answer to the first audit statement is lost, the call returns an error that is
not that of the last one, and its row stays started. -/
theorem lost_start_leaves_started : ∃ config, LedgerReach config ∧
    config.threads 0 = some (.done (.error .startedAudit)) ∧
    ∃ entry, config.world "query-1" = some entry ∧ entry.startedBy = some 0 ∧
      entry.row.completion = none := by
  obtain ⟨compiled, evidence, config, next, hreach, hworld, hthread, hlost, -⟩ := ledger_starts
  have heffect : effect 0 (.startQueryAudit evidence) config.world none
      (config.world.startQueryAudit (some 0) "query-1" evidence) := by
    refine .inr ⟨"query-1", ?_, rfl, .inr rfl⟩
    rw [hworld]
    rfl
  have hstep := System.Step.perform (S := auditSystem) hthread heffect
  refine ⟨_, hreach.tail hstep, ?_, ⟨⟨evidence, none⟩, some 0, none⟩, ?_, rfl, rfl⟩
  · exact (Config.advance_self ..).trans (congrArg some hlost)
  · show config.world.startQueryAudit (some 0) "query-1" evidence "query-1" = _
    exact startQueryAudit_self

/-- A call whose cancel handle is refused returns with a row that says so. -/
theorem query_audit_lifecycle_refused : ∃ config, LedgerReach config ∧
    config.threads 0 = some (.done (.error .sourceCancellationRequested)) ∧
    Reported 0 (.error .sourceCancellationRequested) config.world := by
  obtain ⟨compiled, evidence, config, next, hreach, hworld, hthread, -, hstarted⟩ := ledger_starts
  have heffect : effect 0 (.startQueryAudit evidence) config.world (some "query-1")
      (config.world.startQueryAudit (some 0) "query-1" evidence) := by
    refine .inr ⟨"query-1", ?_, rfl, .inl rfl⟩
    rw [hworld]
    rfl
  have hfirst := hreach.tail (System.Step.perform (S := auditSystem) hthread heffect)
  have hrefused : auditSystem.Silently 0 (config.world.startQueryAudit (some 0) "query-1" evidence)
      (next (some "query-1")) (do
        finishAudit "query-1" "cancelled" (some "EXECUTOR_QUERY_CANCELLED") 0 0 0 0 false
        check (.error .sourceCancellationRequested) : Execution QueryResult).run := by
    rw [hstarted]
    exact System.Silently.bindExcept (.step false rfl (.refl (.done (Except.ok false)))) (.refl _)
  have hsecond := hfirst.trans (hrefused.reaches (Config.advance_self ..))
  obtain ⟨finished, hfinished⟩ : ∃ finished,
      (config.world.startQueryAudit (some 0) "query-1" evidence).finishQueryAudit (some 0) "query-1"
        "cancelled" { errorCode := some "EXECUTOR_QUERY_CANCELLED", databaseDurationMs := 0,
                      serializationDurationMs := 0, rowCount := 0, byteCount := 0,
                      truncated := false } = .ok finished := by
    rw [AuditTable.finishQueryAudit, startQueryAudit_self]
    exact ⟨_, rfl⟩
  have hfinish : effect 0 (.finishQueryAudit "query-1" "cancelled" _)
      (config.world.startQueryAudit (some 0) "query-1" evidence) true finished := .inr hfinished
  have hlast := hsecond.tail (System.Step.perform (Config.setThread_self ..) hfinish)
  refine ⟨_, hlast, Config.advance_self .., ?_⟩
  exact (query_audit_lifecycle (fun _ => true) standardBackend hlast).2.1 0 _
    (Config.advance_self ..)

end Ledger

end Postgresem.Executor
