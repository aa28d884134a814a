import Postgresem.Execution.Config
import Postgresem.Gateway.Authenticate

/-! What an authenticated principal is given: its server, its idempotency namespace, its bucket in the
limiter and its cursors. -/
namespace Postgresem.Gateway
open Control

structure McpServer where
  project : String
  executor : ExecutorConfig
  mutationExecutor : Option MutationExecutorConfig
  executionContext : ExecutionContext

/-- The part of the state of the adapter that decides what a principal may do. -/
structure HttpState (parse : UrlParser) (κ : Type) where
  authority : Authority parse κ
  project : String
  queryBase : ExecutorConfig
  mutationBase : Option MutationExecutorConfig

def serverForPrincipal {parse : UrlParser} {κ : Type} (state : HttpState parse κ)
    (principal : AuthenticatedPrincipal) : Except Unit McpServer := do
  let document := state.authority.document
  let query ← orError (state.queryBase.withDatabaseRole principal.queryRole) ()
  let mutation ←
    if document.remoteMutationEnabled && decide (document.mutationScope ∈ principal.grantedScopes) then
      match state.mutationBase, principal.mutationRole with
      | some base, some role => (orError (base.withDatabaseRole role) ()).map some
      | _, _ => .ok none
    else .ok none
  let context ← orError
    (ExecutionContext.newWithAuthority principal.auditPseudonym "mcp-http" principal.authorityId) ()
  .ok { project := state.project, executor := query, mutationExecutor := mutation,
        executionContext := context }

def mutationAuthorityHash (backend : HashBackend) (context : ExecutionContext) : String :=
  backend.sha256 (bytesOf context.authorityId)

/-- The arithmetic of a bucket's tokens, in floating point and over the clock of the process. -/
structure TokenArithmetic (τ : Type) where
  full : (burst : Nat) → τ
  refill : (tokens : τ) → (elapsed requestsPerMinute burst : Nat) → τ
  available : τ → Bool
  spend : τ → τ

structure Bucket (τ : Type) where
  tokens : τ
  lastRefill : Nat
  active : Nat

inductive LimitError where
  | rate
  | concurrency
  | unavailable
  deriving DecidableEq, Repr

/-- The buckets by authority id. -/
abbrev LimiterState (τ : Type) := List (String × Bucket τ)

section Limiter
variable {τ : Type}

/-- A permit is the authority id it was given to. A refusal still refills the bucket. -/
def acquire (arithmetic : TokenArithmetic τ) (state : LimiterState τ) (authorityId : String)
    (limit : RateLimitConfig) (now : Nat) : Except LimitError String × LimiterState τ :=
  let bucket := (state.lookup authorityId).getD
    { tokens := arithmetic.full limit.burst, lastRefill := now, active := 0 }
  let tokens := arithmetic.refill bucket.tokens (now - bucket.lastRefill) limit.requestsPerMinute
    limit.burst
  let refilled : Bucket τ := { bucket with tokens, lastRefill := now }
  if refilled.active ≥ limit.maxConcurrent then
    (.error .concurrency, OrderedMap.insert authorityId refilled state)
  else if arithmetic.available refilled.tokens then
    (.ok authorityId, OrderedMap.insert authorityId
      { refilled with tokens := arithmetic.spend tokens, active := refilled.active + 1 } state)
  else (.error .rate, OrderedMap.insert authorityId refilled state)

/-- The drop of a permit. -/
def release (state : LimiterState τ) (authorityId : String) : LimiterState τ :=
  match state.lookup authorityId with
  | some bucket => OrderedMap.insert authorityId { bucket with active := bucket.active - 1 } state
  | none => state

end Limiter

def modelCursor (backend : HashBackend) (revision authorityId : String) (offset : Nat) : String :=
  "v2|" ++ revision ++ "|" ++ backend.sha256 (bytesOf authorityId) ++ "|" ++ toString offset

/-- `str::parse::<usize>`. -/
def parseUsize (chars : List Char) : Option Nat :=
  let digits := if chars.head? == some '+' then chars.tail else chars
  if Json.isDigits digits && Json.digitsValue digits < 2 ^ 64 then some (Json.digitsValue digits)
  else none

/-- The errors of `parse_cursor` are all `MCP_INVALID_CURSOR`. -/
def parseCursor (backend : HashBackend) (cursor : Option String) (revision authorityId : String) :
    Option Nat :=
  match cursor with
  | none => some 0
  | some cursor =>
    match cursor.toList.splitOn '|' with
    | [version, cursorRevision, cursorAuthority, offset] =>
      if version = "v2".toList ∧ cursorRevision = revision.toList
          ∧ cursorAuthority = (backend.sha256 (bytesOf authorityId)).toList then
        parseUsize offset
      else none
    | _ => none

end Postgresem.Gateway
