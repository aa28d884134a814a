import Postgresem.Foundation.Named
import Postgresem.Foundation.Pool
import Postgresem.Gateway.Confinement
import Postgresem.Gateway.ModernRequest
import Postgresem.Gateway.RateLimit

/-! The requests that the HTTP adapter works on at one time, and the permits that they hold. A request
is let in by the semaphore of the unauthenticated, is authenticated, and takes a permit of its
principal, one of the process and two of the database before its work begins. The work keeps its permits
when the client does not wait for it. -/
namespace Postgresem.Gateway
open Control

section Responses

structure Response where
  status : Nat
  challenge : Option String := none
  body : Option Json.Value := none

def emptyResponse (status : Nat) : Response := { status }

def HttpRejection.response (rejection : HttpRejection) : Response :=
  { status := rejection.status, body := some rejection.body }

def bearerChallenge (metadataUrl scope error : String) : String :=
  "Bearer resource_metadata=\"" ++ metadataUrl ++ "\", scope=\"" ++ scope ++ "\""
    ++ if error.isEmpty then "" else ", error=\"" ++ error ++ "\""

def AuthError.oauthError : AuthError → String
  | .missingCredentials => ""
  | .malformedRequest | .tokenTooLarge => "invalid_request"
  | .insufficientScope => "insufficient_scope"
  | .internal => "server_error"
  | _ => "invalid_token"

def limitResponse (error : LimitError) : Response :=
  let (rpcCode, code) : Int × String := match error with
    | .rate => (-33001, "MCP_RATE_LIMITED")
    | .concurrency => (-33002, "MCP_CONCURRENCY_LIMITED")
    | .unavailable => (-33002, "MCP_LIMITER_UNAVAILABLE")
  (jsonErrorResponse 429 .null rpcCode "request limit exceeded" code).response

/-- `serialized_size`, of a value that is always serialized. -/
def serializedSize (value : Json.Value) : Nat := (bytesOf value.text).length

def internalError (id : Json.Value) : Json.Value :=
  rpcError id (-32603) "internal error" "MCP_INTERNAL_ERROR"

def resultTooLarge (id : Json.Value) : Json.Value :=
  rpcError id (-33005) "result is too large" "MCP_RESULT_TOO_LARGE"

def resultMessage (id result : Json.Value) : Json.Value :=
  .object [("id", id), ("jsonrpc", .string "2.0"), ("result", result)]

/-- The outcome of a worker: none, if it was lost. -/
abbrev Outcome := Option (Except RpcFailure Json.Value)

def streamingResultValue (id : Json.Value) (outcome : Outcome) (maximumResult : Nat) : Json.Value :=
  match outcome with
  | some (.ok value) =>
    let response := resultMessage id value
    if serializedSize response ≤ maximumResult then response else resultTooLarge id
  | some (.error error) => rpcError id error.rpcCode error.message error.publicCode
  | none => internalError id

def completeJsonResponse (maximumResult : Nat) (id result : Json.Value) : Response :=
  let response := resultMessage id result
  if maximumResult < serializedSize response then
    { status := 500, body := some (resultTooLarge id) }
  else { status := 200, body := some response }

end Responses

section Headers

/-- The first part before a separator. -/
def firstPart (separator : Char) (text : List Char) : List Char := text.takeWhile (· != separator)

def trimWhitespace (text : List Char) : List Char := Text.trimMatches isWhitespace text

def equalsIgnoreCase (text : List Char) (expected : String) : Bool :=
  text.map asciiLower == expected.toList.map asciiLower

/-- A header that is there once and can be read. -/
def headerText (headers : HeaderMap) (name : String) : Option String :=
  (singleHeader headers name).toOption.bind id

def acceptsModernResponse (headers : HeaderMap) : Bool :=
  (headerText headers "accept").any fun value =>
    let values := (value.toList.splitOn ',').map fun part => firstPart ';' (trimWhitespace part)
    values.any (equalsIgnoreCase · "application/json") &&
      values.any (equalsIgnoreCase · "text/event-stream")

def hasJsonContentType (headers : HeaderMap) : Bool :=
  (headerText headers "content-type").any fun value =>
    equalsIgnoreCase (trimWhitespace (firstPart ';' value.toList)) "application/json"

/-- The sum saturates at 2 ^ 64 in the source, which no request reaches. -/
def headerBytes (headers : HeaderMap) : Nat :=
  (headers.map fun header => header.1.utf8ByteSize + header.2.length).sum

end Headers

/-! ## The checks before a permit is taken -/

section Screening
variable {parse : UrlParser} {κ : Type}

structure Adapter (parse : UrlParser) (κ : Type) extends HttpState parse κ where
  metadataUrl : String
  decoder : TokenDecoder κ
  fromSlice : List UInt8 → Option Json.Value
  decodeBase64 : String → Option (List UInt8)

namespace Adapter
variable (adapter : Adapter parse κ)

def document : AuthorityDocument := adapter.authority.document

def limits : ServerLimits := adapter.document.serverLimits

def insufficientScopeResponse (scope : String) : Response :=
  { status := 403, challenge := some (bearerChallenge adapter.metadataUrl scope "insufficient_scope") }

def authenticationResponse (error : AuthError) : Response :=
  if error = .unknownPrincipal then emptyResponse 403
  else if error = .insufficientScope then
    adapter.insufficientScopeResponse adapter.document.queryScope
  else
    { status := 401
      challenge := some (bearerChallenge adapter.metadataUrl adapter.document.queryScope
        error.oauthError) }

def validateNetworkHeaders (headers : HeaderMap) : Except Response Unit := do
  let host ← (singleHeader headers "host").mapError fun _ => emptyResponse 400
  let host ← orError host (emptyResponse 400)
  ensure (decide (toAsciiLowercase host ∈ adapter.document.allowedHosts)) (emptyResponse 403)
  let origin ← (singleHeader headers "origin").mapError fun _ => emptyResponse 400
  ensure (origin.all fun origin => decide (origin ∈ adapter.document.allowedOrigins))
    (emptyResponse 403)

/-- The part of `handle_mcp` from the headers to the scope of the principal. -/
def screen (headers : HeaderMap) (now : Int) : Except Response AuthenticatedPrincipal := do
  adapter.validateNetworkHeaders headers
  ensure (decide (headerBytes headers ≤ adapter.limits.maxHeaderBytes))
    (jsonErrorResponse 431 .null (-32600) "request headers are too large"
      "MCP_HEADERS_TOO_LARGE").response
  ensure (acceptsModernResponse headers && hasJsonContentType headers)
    (jsonErrorResponse 400 .null (-32600) "invalid request" "MCP_INVALID_HTTP_HEADERS").response
  let authorization ← (singleHeader headers "authorization").mapError fun _ =>
    adapter.authenticationResponse .malformedRequest
  let principal ← (adapter.authority.authenticateAt adapter.decoder (authorization.getD "")
    now).mapError adapter.authenticationResponse
  ensure (decide (adapter.document.queryScope ∈ principal.grantedScopes))
    (adapter.insufficientScopeResponse adapter.document.queryScope)
  .ok principal

/-- The body is parsed when it is there as a whole, and its method is one that is known. -/
def route (headers : HeaderMap) (body : List UInt8) : Except Response ModernRequest := do
  let request ← (parseModernRequest adapter.fromSlice adapter.decodeBase64 headers body).mapError
    HttpRejection.response
  ensure (knownMethod request.method)
    (jsonErrorResponse 404 request.id (-32601) "method not found" "MCP_METHOD_NOT_FOUND").response
  .ok request

end Adapter

def methodUsesDatabase (method : String) : Bool :=
  method ∈ ["tools/call", "resources/list", "resources/read"]

def rpcFailureResponse (id : Json.Value) (error : RpcFailure) : Response :=
  (jsonErrorResponse (if error.rpcCode = -32601 then 404 else 200) id error.rpcCode error.message
    error.publicCode).response

/-- The response that the client of a worker is given. -/
def workerResponse (limits : ServerLimits) (request : ModernRequest) (outcome : Outcome) : Response :=
  if isStreamingExecution request then
    { status := 200, body := some (streamingResultValue request.id outcome limits.maxResultBytes) }
  else match outcome with
    | some (.ok result) => completeJsonResponse limits.maxResultBytes request.id result
    | some (.error error) => rpcFailureResponse request.id error
    | none => { status := 500, body := some (internalError request.id) }

def authorityDenied (id : Json.Value) : Response :=
  (jsonErrorResponse 403 id (-33003) "request is not authorized" "MCP_AUTHORITY_DENIED").response

def bodyTooLarge : Response :=
  (jsonErrorResponse 413 .null (-32600) "request is too large" "MCP_REQUEST_TOO_LARGE").response

def bodyTimedOut : Response :=
  (jsonErrorResponse 408 .null (-33006) "request body timed out" "MCP_REQUEST_BODY_TIMEOUT").response

end Screening

/-! ## Connections -/

section Connections

structure HttpRequest where
  headers : HeaderMap
  body : List UInt8

/-- A permit of a semaphore, or of the limiter. That of the database stands for two of its
semaphore. -/
inductive Permit where
  | preAuth
  | principal (authorityId : String)
  | authenticated
  | database
  deriving DecidableEq, Repr

/-- How far `handle_mcp` has come with a request. A worker is spawned for it in the end, which runs on
when the client is not attached any more. -/
inductive Connection where
  | arrived (request : HttpRequest)
  | screening (request : HttpRequest)
  | screened (request : HttpRequest) (principal : AuthenticatedPrincipal)
  | entered (request : HttpRequest) (principal : AuthenticatedPrincipal)
  | reading (request : HttpRequest) (principal : AuthenticatedPrincipal)
  | received (request : HttpRequest) (principal : AuthenticatedPrincipal)
  | routed (request : ModernRequest) (principal : AuthenticatedPrincipal)
  | working (request : ModernRequest) (principal : AuthenticatedPrincipal) (server : McpServer)
      (attached : Bool)
  /-- The request is over, and what it still holds is dropped. -/
  | ended (response : Option Response) (held : List Permit)

/-- The permits of a routed request. -/
def databasePermits (method : String) : List Permit :=
  if methodUsesDatabase method then [.database] else []

/-- What is held at each point, the last permit first. -/
def Connection.held : Connection → List Permit
  | .arrived _ => []
  | .screening _ | .screened _ _ => [.preAuth]
  | .entered _ principal => [.principal principal.authorityId, .preAuth]
  | .reading _ principal => [.authenticated, .principal principal.authorityId, .preAuth]
  | .received _ principal => [.authenticated, .principal principal.authorityId]
  | .routed request principal | .working request principal _ _ =>
    databasePermits request.method ++ [.authenticated, .principal principal.authorityId]
  | .ended _ held => held

/-- The permits that are free, and the limiter. -/
structure Counters where
  preAuth : Nat
  authenticated : Nat
  database : Nat
  limiter : Limiter

def Counters.initial (limits : ServerLimits) : Counters where
  preAuth := limits.maxPreAuthConcurrentRequests
  authenticated := limits.maxConcurrentRequests
  database := limits.maxDatabaseConnections
  limiter := .initial

/-- The drop of a permit. -/
def Counters.release (counters : Counters) : Permit → Counters
  | .preAuth => { counters with preAuth := counters.preAuth + 1 }
  | .principal authorityId =>
    { counters with limiter :=
        { counters.limiter with
          buckets := Gateway.release counters.limiter.buckets authorityId
          permits := counters.limiter.permits.erase authorityId } }
  | .authenticated => { counters with authenticated := counters.authenticated + 1 }
  | .database => { counters with database := counters.database + 2 }

variable {parse : UrlParser} {κ : Type} (adapter : Adapter parse κ)

/-- What one connection does between two actions of others. A client that goes away while its body is
read ends the request, and later leaves its worker alone. So does a client that is told that its time is
over. -/
inductive Connection.Acts : Counters → Connection → Counters → Connection → Prop
  | crowded {counters : Counters} {request : HttpRequest} (h : counters.preAuth = 0) :
      Acts counters (.arrived request) counters (.ended (some (emptyResponse 429)) [])
  | letIn {counters : Counters} {request : HttpRequest} {preAuth : Nat}
      (h : counters.preAuth = preAuth + 1) :
      Acts counters (.arrived request) { counters with preAuth } (.screening request)
  | refuse {counters : Counters} {request : HttpRequest} {now : Int} {response : Response}
      (h : adapter.screen request.headers now = .error response) :
      Acts counters (.screening request) counters (.ended (some response) [.preAuth])
  | screen {counters : Counters} {request : HttpRequest} {now : Int}
      {principal : AuthenticatedPrincipal} (h : adapter.screen request.headers now = .ok principal) :
      Acts counters (.screening request) counters (.screened request principal)
  | limit {counters : Counters} {request : HttpRequest} {principal : AuthenticatedPrincipal}
      {now : Nat} {error : LimitError} {buckets : LimiterState ℚ}
      (hclock : counters.limiter.clock ≤ now)
      (h : acquire exactTokens counters.limiter.buckets principal.authorityId principal.rateLimit now =
        (.error error, buckets)) :
      Acts counters (.screened request principal)
        { counters with limiter := ⟨buckets, counters.limiter.permits, now⟩ }
        (.ended (some (limitResponse error)) [.preAuth])
  | enter {counters : Counters} {request : HttpRequest} {principal : AuthenticatedPrincipal}
      {now : Nat} {permit : String} {buckets : LimiterState ℚ}
      (hclock : counters.limiter.clock ≤ now)
      (h : acquire exactTokens counters.limiter.buckets principal.authorityId principal.rateLimit now =
        (.ok permit, buckets)) :
      Acts counters (.screened request principal)
        { counters with limiter := ⟨buckets, permit :: counters.limiter.permits, now⟩ }
        (.entered request principal)
  | busy {counters : Counters} {request : HttpRequest} {principal : AuthenticatedPrincipal}
      (h : counters.authenticated = 0) :
      Acts counters (.entered request principal) counters
        (.ended (some (limitResponse .concurrency)) [.principal principal.authorityId, .preAuth])
  | read {counters : Counters} {request : HttpRequest} {principal : AuthenticatedPrincipal}
      {authenticated : Nat} (h : counters.authenticated = authenticated + 1) :
      Acts counters (.entered request principal) { counters with authenticated }
        (.reading request principal)
  | tooLarge {counters : Counters} {request : HttpRequest} {principal : AuthenticatedPrincipal}
      (h : adapter.limits.maxRequestBodyBytes < request.body.length) :
      Acts counters (.reading request principal) counters (.ended (some bodyTooLarge)
        [.authenticated, .principal principal.authorityId, .preAuth])
  | timeOut {counters : Counters} {request : HttpRequest} {principal : AuthenticatedPrincipal} :
      Acts counters (.reading request principal) counters (.ended (some bodyTimedOut)
        [.authenticated, .principal principal.authorityId, .preAuth])
  | abandon {counters : Counters} {request : HttpRequest} {principal : AuthenticatedPrincipal} :
      Acts counters (.reading request principal) counters (.ended none
        [.authenticated, .principal principal.authorityId, .preAuth])
  | receive {counters : Counters} {request : HttpRequest} {principal : AuthenticatedPrincipal}
      (h : request.body.length ≤ adapter.limits.maxRequestBodyBytes) :
      Acts counters (.reading request principal) (counters.release .preAuth)
        (.received request principal)
  | misdirected {counters : Counters} {request : HttpRequest} {principal : AuthenticatedPrincipal}
      {response : Response} (h : adapter.route request.headers request.body = .error response) :
      Acts counters (.received request principal) counters (.ended (some response)
        [.authenticated, .principal principal.authorityId])
  | exhausted {counters : Counters} {request : HttpRequest} {principal : AuthenticatedPrincipal}
      {modern : ModernRequest} (h : adapter.route request.headers request.body = .ok modern)
      (hmethod : methodUsesDatabase modern.method = true) (hdatabase : counters.database < 2) :
      Acts counters (.received request principal) counters
        (.ended (some (limitResponse .concurrency)) [.authenticated, .principal principal.authorityId])
  | connect {counters : Counters} {request : HttpRequest} {principal : AuthenticatedPrincipal}
      {modern : ModernRequest} {database : Nat}
      (h : adapter.route request.headers request.body = .ok modern)
      (hmethod : methodUsesDatabase modern.method = true)
      (hdatabase : counters.database = database + 2) :
      Acts counters (.received request principal) { counters with database } (.routed modern principal)
  | bypass {counters : Counters} {request : HttpRequest} {principal : AuthenticatedPrincipal}
      {modern : ModernRequest} (h : adapter.route request.headers request.body = .ok modern)
      (hmethod : methodUsesDatabase modern.method = false) :
      Acts counters (.received request principal) counters (.routed modern principal)
  | deny {counters : Counters} {modern : ModernRequest} {principal : AuthenticatedPrincipal}
      (h : serverForPrincipal adapter.toHttpState principal = .error ()) :
      Acts counters (.routed modern principal) counters (.ended (some (authorityDenied modern.id))
        (databasePermits modern.method ++ [.authenticated, .principal principal.authorityId]))
  | spawn {counters : Counters} {modern : ModernRequest} {principal : AuthenticatedPrincipal}
      {server : McpServer} (h : serverForPrincipal adapter.toHttpState principal = .ok server) :
      Acts counters (.routed modern principal) counters (.working modern principal server true)
  | detach {counters : Counters} {modern : ModernRequest} {principal : AuthenticatedPrincipal}
      {server : McpServer} :
      Acts counters (.working modern principal server true) counters
        (.working modern principal server false)
  | finish {counters : Counters} {modern : ModernRequest} {principal : AuthenticatedPrincipal}
      {server : McpServer} {attached : Bool} {outcome : Outcome} :
      Acts counters (.working modern principal server attached) counters
        (.ended (if attached then some (workerResponse adapter.limits modern outcome) else none)
          (databasePermits modern.method ++ [.authenticated, .principal principal.authorityId]))
  | drop {counters : Counters} {response : Option Response} {permit : Permit} {held : List Permit} :
      Acts counters (.ended response (permit :: held)) (counters.release permit) (.ended response held)

/-- A connection that has just come. -/
def Connection.Arrives (connection : Connection) : Prop := ∃ request, connection = .arrived request

/-- Any number of connections, in any order of their actions. -/
def Adapter.Reachable : Pool.State Counters Connection → Prop :=
  Pool.Reachable Connection.Arrives (Connection.Acts adapter) (.initial adapter.limits)

end Connections

/-! ## The permits of a run -/

section Accounting
variable {parse : UrlParser} {κ : Type} {adapter : Adapter parse κ} {counters counters' : Counters}
  {connection connection' : Connection}

/-- What a permit takes from its semaphore. The limiter has none. -/
def Permit.cost : Permit → Nat
  | .preAuth | .authenticated => 1
  | .database => 2
  | .principal _ => 0

def Counters.free (counters : Counters) : Permit → Nat
  | .preAuth => counters.preAuth
  | .authenticated => counters.authenticated
  | .database => counters.database
  | .principal _ => 0

theorem free_release (counters : Counters) (permit other : Permit) :
    (counters.release permit).free other =
      counters.free other + if other = permit then other.cost else 0 := by
  cases permit <;> cases other <;> simp [Counters.release, Counters.free, Permit.cost]

/-- An action takes from the semaphores what its connection then holds, and gives back what it does not
hold any more. -/
theorem Connection.Acts.conserves (h : Connection.Acts adapter counters connection counters' connection')
    (permit : Permit) : counters'.free permit + permit.cost * connection'.held.count permit =
      counters.free permit + permit.cost * connection.held.count permit := by
  cases h with
  | drop =>
    rw [free_release]
    simp only [Connection.held, List.count_cons, beq_iff_eq]
    split_ifs with hsame hsame' hsame'
    · rw [Nat.mul_succ]
      omega
    · exact absurd hsame.symm hsame'
    · exact absurd hsame'.symm hsame
    · rfl
  | receive =>
    rw [free_release]
    cases permit <;> simp [Connection.held, Permit.cost]
  | letIn h => cases permit <;> simp [Connection.held, Permit.cost, Counters.free, h]
  | read h => cases permit <;> simp [Connection.held, Permit.cost, Counters.free, h]
  | connect _ hmethod hdatabase =>
    cases permit <;>
      simp [Connection.held, databasePermits, Permit.cost, Counters.free, hmethod, hdatabase]
  | bypass _ hmethod =>
    cases permit <;> simp [Connection.held, databasePermits, Permit.cost, hmethod]
  | enter => cases permit <;> simp [Connection.held, Permit.cost, Counters.free]
  | limit => cases permit <;> simp [Connection.held, Permit.cost, Counters.free]
  | _ => rfl

/-- How many permits of a kind the connections hold. -/
def holders (parties : Multiset Connection) (permit : Permit) : Nat :=
  (parties.map fun connection => connection.held.count permit).sum

theorem reachable_free {state : Pool.State Counters Connection} (h : adapter.Reachable state)
    (permit : Permit) : state.shared.free permit + permit.cost * holders state.parties permit =
      (Counters.initial adapter.limits).free permit := by
  have hbalance := h.balance (w := fun connection : Connection =>
      permit.cost * connection.held.count permit)
    (P := fun counters held =>
      counters.free permit + held = (Counters.initial adapter.limits).free permit)
    rfl (fun connection harrives => by
      obtain ⟨request, rfl⟩ := harrives
      rfl)
    (fun haction rest hrest => by
      have hsame := haction.conserves permit
      omega)
  rwa [Multiset.sum_map_mul_left] at hbalance

end Accounting

/-! ## The limiter of a run -/

section Limited
variable {parse : UrlParser} {κ : Type} {adapter : Adapter parse κ} {counters counters' : Counters}
  {connection connection' : Connection}

/-- The limits of the record with an authority id. -/
def Adapter.rateLimits (adapter : Adapter parse κ) (authorityId : String) : RateLimitConfig :=
  ((adapter.document.principals.find? fun record => record.authorityId == authorityId).map
    PrincipalConfig.rateLimit).getD ⟨0, 0, 0⟩

/-- The request passed the checks of its headers as this principal, at some time. -/
def Adapter.Screens (adapter : Adapter parse κ) (request : HttpRequest)
    (principal : AuthenticatedPrincipal) : Prop :=
  ∃ now, adapter.screen request.headers now = .ok principal

theorem Adapter.Screens.authenticates {request : HttpRequest} {principal : AuthenticatedPrincipal}
    (h : adapter.Screens request principal) :
    adapter.document.queryScope ∈ principal.grantedScopes ∧ ∃ authorization now,
      singleHeader request.headers "authorization" = .ok authorization ∧
      adapter.authority.authenticateAt adapter.decoder (authorization.getD "") now = .ok principal := by
  obtain ⟨now, hscreen⟩ := h
  simp only [Adapter.screen, bind_eq_ok, mapError_eq_ok, ensure_eq_ok, decide_eq_true_eq,
    Except.ok.injEq] at hscreen
  obtain ⟨-, -, -, -, -, -, authorization, hheader, principal', hprincipal, -, hscope, rfl⟩ := hscreen
  exact ⟨hscope, authorization, now, hheader, hprincipal⟩

theorem rateLimit_of_grant {authority : Authority parse κ} {claims : Claims} {now : Int}
    {principal : AuthenticatedPrincipal} (h : authority.grant claims now = .ok principal) :
    ∃ record ∈ authority.document.principals, principal.authorityId = record.authorityId ∧
      principal.rateLimit = record.rateLimit := by
  simp only [Authority.grant, bind_eq_ok, orError_eq_ok, ensure_eq_ok, Except.ok.injEq] at h
  obtain ⟨-, -, -, -, -, -, -, -, subject, -, scopes, -, record, hrecord, -, -, rfl⟩ := h
  exact ⟨record, (principals_lookup hrecord).1, rfl, rfl⟩

theorem Adapter.Screens.rateLimit {request : HttpRequest} {principal : AuthenticatedPrincipal}
    (h : adapter.Screens request principal) :
    principal.rateLimit = adapter.rateLimits principal.authorityId := by
  obtain ⟨-, authorization, now, -, hprincipal⟩ := h.authenticates
  rw [Authority.authenticateAt, bind_eq_ok] at hprincipal
  obtain ⟨claims, -, hgrant⟩ := hprincipal
  obtain ⟨record, hmem, hid, hlimit⟩ := rateLimit_of_grant hgrant
  have hnames : (adapter.document.principals.map PrincipalConfig.authorityId).Nodup := by
    obtain ⟨seen, hvisited⟩ := validateDocument_ok adapter.authority.valid
    exact hvisited.authorityIdsNodup
  have hfound : (adapter.document.principals.find? fun other =>
      other.authorityId == principal.authorityId) = some record := by
    rw [hid]
    exact (Named.find?_eq_some_iff hnames).mpr ⟨hmem, rfl⟩
  rw [Adapter.rateLimits, hfound, hlimit]
  rfl

/-- The request asks for this, in a body that is not too long. -/
structure Adapter.Routes (adapter : Adapter parse κ) (request : HttpRequest)
    (principal : AuthenticatedPrincipal) (modern : ModernRequest) : Prop where
  screens : adapter.Screens request principal
  fits : request.body.length ≤ adapter.limits.maxRequestBodyBytes
  routed : adapter.route request.headers request.body = .ok modern

/-- What was checked of a request before it came where it is. -/
def Connection.Checked (adapter : Adapter parse κ) : Connection → Prop
  | .screened request principal | .entered request principal | .reading request principal =>
    adapter.Screens request principal
  | .received request principal =>
    adapter.Screens request principal ∧ request.body.length ≤ adapter.limits.maxRequestBodyBytes
  | .routed modern principal => ∃ request, adapter.Routes request principal modern
  | .working modern principal server _ => (∃ request, adapter.Routes request principal modern) ∧
      serverForPrincipal adapter.toHttpState principal = .ok server
  | _ => True

theorem Connection.Acts.checked (h : Connection.Acts adapter counters connection counters' connection')
    (hchecked : connection.Checked adapter) : connection'.Checked adapter := by
  cases h with
  | screen h => exact ⟨_, h⟩
  | enter => exact hchecked
  | read => exact hchecked
  | receive h => exact ⟨hchecked, h⟩
  | connect h => exact ⟨_, hchecked.1, hchecked.2, h⟩
  | bypass h => exact ⟨_, hchecked.1, hchecked.2, h⟩
  | spawn h => exact ⟨hchecked, h⟩
  | detach => exact hchecked
  | _ => trivial

/-- An action on the limiter is a step of it, and a permit of the limiter is held by the connection that
took it. -/
theorem Connection.Acts.limiter (h : Connection.Acts adapter counters connection counters' connection')
    (hchecked : connection.Checked adapter)
    (hinvariant : counters.limiter.Invariant adapter.rateLimits) (others : String → Nat)
    (hheld : ∀ authorityId, counters.limiter.permits.count authorityId =
      connection.held.count (.principal authorityId) + others authorityId) :
    counters'.limiter.Invariant adapter.rateLimits ∧
      ∀ authorityId, counters'.limiter.permits.count authorityId =
        connection'.held.count (.principal authorityId) + others authorityId := by
  cases h with
  | limit hclock hacquire =>
    rw [hchecked.rateLimit] at hacquire
    exact ⟨hinvariant.step (.refuse hclock hacquire), hheld⟩
  | @enter request principal now permit buckets hclock hacquire =>
    rw [hchecked.rateLimit] at hacquire
    refine ⟨hinvariant.step (.accept hclock hacquire), fun authorityId => ?_⟩
    obtain ⟨rfl, -⟩ := acquire_ok hacquire
    have hbefore := hheld authorityId
    simp only [Connection.held, List.count_cons, List.count_nil, beq_iff_eq, Permit.principal.injEq,
      reduceCtorEq, if_false] at hbefore ⊢
    omega
  | @drop response permit held =>
    cases permit with
    | principal dropped =>
      have hmem : dropped ∈ counters.limiter.permits := by
        rw [← List.count_pos_iff, hheld, Connection.held, List.count_cons_self]
        omega
      refine ⟨hinvariant.step (.drop hmem), fun authorityId => ?_⟩
      have hbefore := hheld authorityId
      show (counters.limiter.permits.erase dropped).count authorityId = _
      rw [List.count_erase]
      simp only [Connection.held, List.count_cons, beq_iff_eq, Permit.principal.injEq] at hbefore ⊢
      split_ifs at hbefore ⊢ with hsame <;> omega
    | preAuth | authenticated | database =>
      refine ⟨hinvariant, fun authorityId => ?_⟩
      have hbefore := hheld authorityId
      simpa [Connection.held, Counters.release] using hbefore
  | receive => exact ⟨hinvariant, hheld⟩
  | connect | bypass =>
    refine ⟨hinvariant, fun authorityId => ?_⟩
    rw [hheld, Connection.held, Connection.held, List.count_append, databasePermits]
    split_ifs <;> simp
  | _ => exact ⟨hinvariant, hheld⟩

theorem reachable_limiter {state : Pool.State Counters Connection} (h : adapter.Reachable state) :
    (∀ connection ∈ state.parties, connection.Checked adapter) ∧
      state.shared.limiter.Invariant adapter.rateLimits ∧
      ∀ authorityId, state.shared.limiter.permits.count authorityId =
        holders state.parties (.principal authorityId) := by
  refine h.induction (P := fun counters parties =>
    (∀ connection ∈ parties, connection.Checked adapter) ∧
      counters.limiter.Invariant adapter.rateLimits ∧
      ∀ authorityId, counters.limiter.permits.count authorityId =
        holders parties (.principal authorityId)) ?_ ?_ ?_
  · exact ⟨by simp, ⟨nofun, fun _ => rfl⟩, fun _ => rfl⟩
  · rintro counters parties connection ⟨request, rfl⟩ ⟨hchecked, hinvariant, hheld⟩
    refine ⟨Multiset.forall_mem_cons.mpr ⟨trivial, hchecked⟩, hinvariant, fun authorityId => ?_⟩
    rw [holders, Multiset.map_cons, Multiset.sum_cons, hheld]
    exact (Nat.zero_add _).symm
  · rintro counters connection counters' connection' others haction ⟨hchecked, hinvariant, hheld⟩
    obtain ⟨hparty, hothers⟩ := Multiset.forall_mem_cons.mp hchecked
    have hshares : ∀ authorityId, counters.limiter.permits.count authorityId =
        connection.held.count (.principal authorityId) + holders others (.principal authorityId) := by
      intro authorityId
      rw [hheld, holders, Multiset.map_cons, Multiset.sum_cons, holders]
    obtain ⟨hinvariant', hheld'⟩ := haction.limiter hparty hinvariant _ hshares
    refine ⟨Multiset.forall_mem_cons.mpr ⟨haction.checked hparty, hothers⟩, hinvariant',
      fun authorityId => ?_⟩
    rw [hheld', holders, holders, Multiset.map_cons, Multiset.sum_cons]

end Limited

/-! ## What is held and worked on at one time -/

section Admitted
variable {parse : UrlParser} {κ : Type} {adapter : Adapter parse κ}
  {state : Pool.State Counters Connection}

/-- A worker runs for the connection. -/
def Connection.works : Connection → Bool
  | .working _ _ _ _ => true
  | _ => false

def Connection.worksOnDatabase : Connection → Bool
  | .working request _ _ _ => methodUsesDatabase request.method
  | _ => false

def Connection.worksFor (authorityId : String) : Connection → Bool
  | .working _ principal _ _ => principal.authorityId == authorityId
  | _ => false

/-- Workers that hold a permit of one kind are no more than the holders of it. -/
theorem countP_le_holders {works : Connection → Bool} {permit : Permit}
    (h : ∀ connection, works connection = true → permit ∈ connection.held)
    (parties : Multiset Connection) :
    parties.countP (fun connection => works connection = true) ≤ holders parties permit := by
  apply Pool.countP_le_sum
  intro connection hworks
  exact List.count_pos_iff.mpr (h connection hworks)

theorem authenticated_of_works {connection : Connection} (h : connection.works = true) :
    Permit.authenticated ∈ connection.held := by
  cases connection with
  | working request principal server attached => simp [Connection.held]
  | _ => cases h

theorem database_of_worksOnDatabase {connection : Connection} (h : connection.worksOnDatabase = true) :
    Permit.database ∈ connection.held := by
  cases connection with
  | working request principal server attached =>
    have hmethod : methodUsesDatabase request.method = true := h
    simp [Connection.held, databasePermits, hmethod]
  | _ => cases h

theorem principal_of_worksFor {authorityId : String} {connection : Connection}
    (h : connection.worksFor authorityId = true) : Permit.principal authorityId ∈ connection.held := by
  cases connection with
  | working request principal server attached =>
    obtain rfl : principal.authorityId = authorityId := beq_iff_eq.mp h
    simp [Connection.held]
  | _ => cases h

/-- Every permit is free or held by a connection, and an authority holds no more than it may. -/
structure Adapter.Accounts (adapter : Adapter parse κ) (state : Pool.State Counters Connection) :
    Prop where
  preAuth : state.shared.preAuth + holders state.parties .preAuth =
    adapter.limits.maxPreAuthConcurrentRequests
  authenticated : state.shared.authenticated + holders state.parties .authenticated =
    adapter.limits.maxConcurrentRequests
  database : state.shared.database + 2 * holders state.parties .database =
    adapter.limits.maxDatabaseConnections
  principal : ∀ authorityId, state.shared.limiter.permits.count authorityId =
      holders state.parties (.principal authorityId) ∧
    holders state.parties (.principal authorityId) ≤ (adapter.rateLimits authorityId).maxConcurrent

/-- What is worked on was checked and routed as its principal, and there are no more workers than the
limits allow. -/
structure Adapter.Admits (adapter : Adapter parse κ) (state : Pool.State Counters Connection) :
    Prop where
  checked : ∀ {modern principal server attached},
    Connection.working modern principal server attached ∈ state.parties →
    adapter.document.queryScope ∈ principal.grantedScopes ∧
      serverForPrincipal adapter.toHttpState principal = .ok server ∧
      ∃ request, adapter.Routes request principal modern
  workers : state.parties.countP (fun connection => connection.works = true) ≤
    adapter.limits.maxConcurrentRequests
  database : 2 * state.parties.countP (fun connection => connection.worksOnDatabase = true) ≤
    adapter.limits.maxDatabaseConnections
  principal : ∀ authorityId,
    state.parties.countP (fun connection => connection.worksFor authorityId = true) ≤
      (adapter.rateLimits authorityId).maxConcurrent

theorem Limiter.Invariant.count_le {limits : String → RateLimitConfig} {limiter : Limiter}
    (h : limiter.Invariant limits) (authorityId : String) :
    limiter.permits.count authorityId ≤ (limits authorityId).maxConcurrent := by
  cases hbucket : limiter.buckets.lookup authorityId with
  | none =>
    rw [h.absent hbucket]
    exact Nat.zero_le _
  | some bucket =>
    have hsound := h.sound hbucket
    rw [← hsound.active]
    exact hsound.slots

theorem reachable_accounts (h : adapter.Reachable state) : adapter.Accounts state := by
  obtain ⟨-, hinvariant, hheld⟩ := reachable_limiter h
  refine ⟨?_, ?_, reachable_free h .database, fun authorityId => ⟨hheld authorityId, ?_⟩⟩
  · have hfree := reachable_free h .preAuth
    rwa [Permit.cost, Nat.one_mul] at hfree
  · have hfree := reachable_free h .authenticated
    rwa [Permit.cost, Nat.one_mul] at hfree
  · rw [← hheld authorityId]
    exact hinvariant.count_le authorityId

/-- Whatever the order in which connections come, act, lose their clients and end: only requests that
passed every check are worked on, as the principal that they authenticated, and never more at one time
than the process, the database and the principal are configured for. -/
theorem admitted_work (h : adapter.Reachable state) : adapter.Admits state := by
  have haccounts := reachable_accounts h
  constructor
  · intro modern principal server attached hmem
    obtain ⟨⟨request, hroutes⟩, hserver⟩ := (reachable_limiter h).1 _ hmem
    exact ⟨hroutes.screens.authenticates.1, hserver, request, hroutes⟩
  · have hworkers := countP_le_holders (fun _ => authenticated_of_works) state.parties
    have hpermits := haccounts.authenticated
    omega
  · have hworkers := countP_le_holders (fun _ => database_of_worksOnDatabase) state.parties
    have hpermits := haccounts.database
    omega
  · intro authorityId
    exact (countP_le_holders (fun _ => principal_of_worksFor) state.parties).trans
      (haccounts.principal authorityId).2

end Admitted

/-! ## The end of every request -/

section Ending
variable {parse : UrlParser} {κ : Type} {adapter : Adapter parse κ} {counters counters' : Counters}
  {connection connection' : Connection} {state : Pool.State Counters Connection}

/-- A bound on the actions that are left to a connection. -/
def Connection.rank : Connection → Nat
  | .arrived _ => 12
  | .screening _ => 11
  | .screened _ _ => 10
  | .entered _ _ => 9
  | .reading _ _ => 8
  | .received _ _ => 7
  | .routed _ _ => 6
  | .working _ _ _ attached => if attached then 5 else 4
  | .ended _ held => held.length

theorem length_databasePermits (method : String) : (databasePermits method).length ≤ 1 := by
  rw [databasePermits]
  split_ifs <;> simp

theorem Connection.Acts.rank_lt
    (h : Connection.Acts adapter counters connection counters' connection') :
    connection'.rank < connection.rank := by
  cases h with
  | @deny modern =>
    have hlength := length_databasePermits modern.method
    simp only [Connection.rank, List.length_append, List.length_cons, List.length_nil]
    omega
  | @finish modern _ _ attached =>
    have hlength := length_databasePermits modern.method
    simp only [Connection.rank, List.length_append, List.length_cons, List.length_nil]
    split_ifs <;> omega
  | _ => simp [Connection.rank]

/-- Nothing keeps a connection waiting for another one. -/
theorem Connection.exists_acts (counters : Counters) (hrank : connection.rank ≠ 0) :
    ∃ counters' connection', Connection.Acts adapter counters connection counters' connection' := by
  cases connection with
  | arrived request =>
    cases hfree : counters.preAuth with
    | zero => exact ⟨_, _, .crowded hfree⟩
    | succ preAuth => exact ⟨_, _, .letIn hfree⟩
  | screening request =>
    cases hscreen : adapter.screen request.headers 0 with
    | error response => exact ⟨_, _, .refuse hscreen⟩
    | ok principal => exact ⟨_, _, .screen hscreen⟩
  | screened request principal =>
    rcases hacquire : acquire exactTokens counters.limiter.buckets principal.authorityId
      principal.rateLimit counters.limiter.clock with ⟨_ | permit, buckets⟩
    · exact ⟨_, _, .limit (le_refl _) hacquire⟩
    · exact ⟨_, _, .enter (le_refl _) hacquire⟩
  | entered request principal =>
    cases hfree : counters.authenticated with
    | zero => exact ⟨_, _, .busy hfree⟩
    | succ authenticated => exact ⟨_, _, .read hfree⟩
  | reading request principal => exact ⟨_, _, .timeOut⟩
  | received request principal =>
    cases hroute : adapter.route request.headers request.body with
    | error response => exact ⟨_, _, .misdirected hroute⟩
    | ok modern =>
      cases hmethod : methodUsesDatabase modern.method with
      | false => exact ⟨_, _, .bypass hroute hmethod⟩
      | true =>
        by_cases hfree : counters.database < 2
        · exact ⟨_, _, .exhausted hroute hmethod hfree⟩
        · exact ⟨_, _, .connect hroute hmethod (Nat.sub_add_cancel (not_lt.mp hfree)).symm⟩
  | routed modern principal =>
    cases hserver : serverForPrincipal adapter.toHttpState principal with
    | error _ => exact ⟨_, _, .deny hserver⟩
    | ok server => exact ⟨_, _, .spawn hserver⟩
  | working modern principal server attached =>
    exact ⟨counters, _,
      @Connection.Acts.finish _ _ adapter counters modern principal server attached none⟩
  | ended response held =>
    cases held with
    | nil => exact absurd rfl hrank
    | cons permit held => exact ⟨_, _, .drop⟩

theorem held_of_rank_zero (h : connection.rank = 0) : connection.held = [] := by
  cases connection with
  | ended response held => exact List.length_eq_zero_iff.mp h
  | working modern principal server attached => cases attached <;> cases h
  | _ => cases h

theorem holders_of_idle {parties : Multiset Connection}
    (h : ∀ connection ∈ parties, connection.held = []) (permit : Permit) :
    holders parties permit = 0 := by
  refine Multiset.sum_eq_zero fun count hcount => ?_
  obtain ⟨connection, hmem, rfl⟩ := Multiset.mem_map.mp hcount
  rw [h connection hmem, List.count_nil]

end Ending

/-! ## A request that comes alone -/

section Alone

theorem Adapter.Reachable.act {parse : UrlParser} {κ : Type} {adapter : Adapter parse κ}
    {counters counters' : Counters} {connection connection' : Connection}
    {others : Multiset Connection} (h : adapter.Reachable ⟨counters, connection ::ₘ others⟩)
    (hacts : Connection.Acts adapter counters connection counters' connection') :
    adapter.Reachable ⟨counters', connection' ::ₘ others⟩ :=
  Relation.ReflTransGen.tail h (.act hacts)

theorem Adapter.route_of_parsed {parse : UrlParser} {κ : Type} {adapter : Adapter parse κ}
    {headers : HeaderMap} {body : List UInt8} {modern : ModernRequest}
    (h : parseModernRequest adapter.fromSlice adapter.decodeBase64 headers body = .ok modern)
    (hknown : knownMethod modern.method = true) : adapter.route headers body = .ok modern := by
  rw [Adapter.route, h]
  simp [Except.mapError, hknown, ensure, bind, Except.bind]

/-- It is worked on when it passes the checks. -/
theorem lone_request_works {parse : UrlParser} {κ : Type} {adapter : Adapter parse κ}
    {request : HttpRequest} {principal : AuthenticatedPrincipal} {modern : ModernRequest}
    {server : McpServer} {now : Int} {preAuth authenticated database : Nat}
    (hpreAuth : adapter.limits.maxPreAuthConcurrentRequests = preAuth + 1)
    (hauthenticated : adapter.limits.maxConcurrentRequests = authenticated + 1)
    (hdatabase : adapter.limits.maxDatabaseConnections = database + 2)
    (hscreen : adapter.screen request.headers now = .ok principal)
    (hburst : 0 < principal.rateLimit.burst) (hslots : 0 < principal.rateLimit.maxConcurrent)
    (hfits : request.body.length ≤ adapter.limits.maxRequestBodyBytes)
    (hroute : adapter.route request.headers request.body = .ok modern)
    (hserver : serverForPrincipal adapter.toHttpState principal = .ok server) :
    ∃ counters, adapter.Reachable ⟨counters, {.working modern principal server true}⟩ := by
  have htoken : 1 ≤ tokensAt principal.rateLimit none 0 := by
    rw [tokensAt_none]
    exact_mod_cast hburst
  obtain ⟨buckets, hacquire⟩ : ∃ buckets, acquire exactTokens [] principal.authorityId
      principal.rateLimit 0 = (.ok principal.authorityId, buckets) := acquire_of_free hslots htoken
  have harrived : adapter.Reachable ⟨.initial adapter.limits, .arrived request ::ₘ 0⟩ :=
    .single (.enter ⟨request, rfl⟩)
  have hscreened := (harrived.act (.letIn hpreAuth)).act (.screen hscreen)
  have hentered := hscreened.act (.enter (le_refl _) hacquire)
  have hreceived := (hentered.act (.read hauthenticated)).act (.receive hfits)
  cases hmethod : methodUsesDatabase modern.method with
  | true =>
    have hrouted := hreceived.act (.connect hroute hmethod hdatabase)
    exact ⟨_, hrouted.act (.spawn hserver)⟩
  | false =>
    have hrouted := hreceived.act (.bypass hroute hmethod)
    exact ⟨_, hrouted.act (.spawn hserver)⟩

def tenantAdapter : Adapter tenantUrls Unit where
  toHttpState := tenantState
  metadataUrl := "https://mcp.example.test/.well-known/oauth-protected-resource/mcp"
  decoder := tenantDecoder
  fromSlice := Json.read
  decodeBase64 _ := none

private def listMessage : Members := [
  ("id", .number "7"),
  ("jsonrpc", .string "2.0"),
  ("method", .string "resources/list"),
  ("params", .object [
    ("_meta", .object [
      ("io.modelcontextprotocol/clientCapabilities", .object []),
      ("io.modelcontextprotocol/clientInfo", .object [
        ("name", .string "agent"),
        ("version", .string "1")]),
      ("io.modelcontextprotocol/protocolVersion", .string "2026-07-28")])])]

private def listRequest : HttpRequest where
  headers := [
    ("host", Utf8.bytes "mcp.example.test"),
    ("accept", Utf8.bytes "application/json, text/event-stream"),
    ("content-type", Utf8.bytes "application/json"),
    ("authorization", Utf8.bytes ("Bearer " ++ queryToken)),
    ("mcp-protocol-version", Utf8.bytes "2026-07-28"),
    ("mcp-method", Utf8.bytes "resources/list")]
  body := Utf8.bytes (Json.Value.object listMessage).text

theorem listRequest_routes :
    ∃ modern, tenantAdapter.route listRequest.headers listRequest.body = .ok modern := by
  have hwell : (Json.Value.object listMessage).WellFormed :=
    ⟨Json.isNumber_natural 7, trivial, trivial,
      ⟨⟨trivial, ⟨trivial, trivial, trivial⟩, trivial, trivial⟩, trivial⟩, trivial⟩
  have hread : Json.read (Utf8.bytes (Json.Value.object listMessage).text) =
      some (.object listMessage) := Json.read_text hwell (by decide)
  have hparse : parseModernRequest Json.read (fun _ => none) listRequest.headers listRequest.body =
      .ok
        { id := .number "7"
          method := "resources/list"
          params := (listMessage.lookup "params").getD (.object [])
          name := none } := by
    rw [parseModernRequest, listRequest, hread]
    rfl
  exact ⟨_, Adapter.route_of_parsed hparse rfl⟩

theorem listRequest_works : ∃ counters modern principal server,
    tenantAdapter.Reachable ⟨counters, {.working modern principal server true}⟩ := by
  have hscreens : succeedsWith (tenantAdapter.screen listRequest.headers 1700000000)
      (fun principal => decide (0 < principal.rateLimit.burst) &&
        decide (0 < principal.rateLimit.maxConcurrent) &&
        (serverForPrincipal tenantState principal).isOk) = true := by
    decide +kernel
  obtain ⟨principal, hscreen, hprincipal⟩ := exists_ok_of_succeedsWith hscreens
  simp only [Bool.and_eq_true, decide_eq_true_eq] at hprincipal
  obtain ⟨⟨hburst, hslots⟩, hallowed⟩ := hprincipal
  obtain ⟨modern, hroute⟩ := listRequest_routes
  cases hserver : serverForPrincipal tenantState principal with
  | error error => simp [hserver, Except.isOk, Except.toBool] at hallowed
  | ok server =>
    have hfits : listRequest.body.length ≤ tenantAdapter.limits.maxRequestBodyBytes := by
      decide +kernel
    obtain ⟨counters, hreachable⟩ :=
      lone_request_works rfl rfl rfl hscreen hburst hslots hfits hroute hserver
    exact ⟨counters, modern, principal, server, hreachable⟩

theorem admitted_work_listRequest : ∃ counters modern principal server,
    tenantAdapter.Admits ⟨counters, {.working modern principal server true}⟩ := by
  obtain ⟨counters, modern, principal, server, hreachable⟩ := listRequest_works
  exact ⟨counters, modern, principal, server, admitted_work hreachable⟩

end Alone

end Postgresem.Gateway
