import Mathlib.Data.Finset.Basic
import Postgresem.Foundation.Control
import Postgresem.Foundation.Hmac
import Postgresem.Foundation.JsonNumber
import Postgresem.Foundation.OrderedMap
import Postgresem.Foundation.Trim

/-! The authority document of the authenticated HTTP adapter: its validation, and the verification of
a bearer token against it. Parsing of URLs and the verification of signatures are given. -/
namespace Postgresem.Gateway
open Control

inductive ConfigErrorKind where
  | io
  | parse
  | schema
  | semantic
  | key
  deriving DecidableEq, Repr

structure ConfigError where
  kind : ConfigErrorKind
  reason : String
  index : Option Nat
  deriving DecidableEq, Repr

def ConfigError.schema (reason : String) : ConfigError := ⟨.schema, reason, none⟩

def ConfigError.semantic (reason : String) : ConfigError := ⟨.semantic, reason, none⟩

def ConfigError.at (error : ConfigError) (index : Nat) : ConfigError :=
  { error with index := some index }

inductive AuthError where
  | missingCredentials
  | malformedRequest
  | tokenTooLarge
  | malformedToken
  | unsupportedTokenType
  | unsupportedAlgorithm
  | unknownKey
  | invalidSignature
  | invalidIssuer
  | invalidAudience
  | tokenExpired
  | tokenNotYetValid
  | tokenTooOld
  | invalidClaims
  | unknownPrincipal
  | insufficientScope
  | internal
  deriving DecidableEq, Repr

structure RateLimitConfig where
  requestsPerMinute : Nat
  burst : Nat
  maxConcurrent : Nat
  deriving DecidableEq, Repr

structure ServerLimits where
  maxRequestBodyBytes : Nat
  maxTokenBytes : Nat
  maxHeaderBytes : Nat
  maxExecutionSeconds : Nat
  maxResultBytes : Nat
  maxConcurrentRequests : Nat
  maxPreAuthConcurrentRequests : Nat
  maxDatabaseConnections : Nat
  sseKeepaliveSeconds : Nat
  maxSseSeconds : Nat
  deriving DecidableEq, Repr

structure PrincipalConfig where
  subject : String
  authorityId : String
  queryRole : String
  mutationRole : Option String
  allowedScopes : List String
  rateLimit : RateLimitConfig
  deriving DecidableEq, Repr

structure AuthorityDocument where
  schemaVersion : String
  resource : String
  issuer : String
  audience : String
  authorizationServers : List String
  scopesSupported : List String
  jwksPath : String
  principalHmacKeyPath : String
  allowedTokenTypes : List String
  allowedAlgorithms : List String
  scopeClaims : List String
  clockSkewSeconds : Nat
  maxTokenAgeSeconds : Nat
  allowedHosts : List String
  allowedOrigins : List String
  queryScope : String
  mutationScope : String
  remoteMutationEnabled : Bool
  serverLimits : ServerLimits
  principals : List PrincipalConfig
  deriving DecidableEq, Repr

/-- What a parsed URL answers. `text` is its serialization, `origin` that of its origin. -/
structure Url where
  scheme : String
  username : String
  password : Option String
  host : Option String
  port : Option Nat
  path : String
  query : Option String
  fragment : Option String
  text : String
  origin : String

/-- `Url::parse`. -/
abbrev UrlParser := String → Option Url

def isAsciiAlphabetic (c : Char) : Bool := ('a' ≤ c && c ≤ 'z') || ('A' ≤ c && c ≤ 'Z')

def isAsciiAlphanumeric (c : Char) : Bool := isAsciiAlphabetic c || ('0' ≤ c && c ≤ '9')

/-- `char::is_control`: the category Cc. -/
def isControl (c : Char) : Bool := c.toNat < 32 || (127 ≤ c.toNat && c.toNat < 160)

def isAscii (text : String) : Bool := text.toList.all (·.toNat < 128)

def asciiLower (c : Char) : Char := if 'A' ≤ c && c ≤ 'Z' then Char.ofNat (c.toNat + 32) else c

def toAsciiLowercase (text : String) : String := String.ofList (text.toList.map asciiLower)

inductive Algorithm where
  | hs256
  | hs384
  | hs512
  | es256
  | es384
  | rs256
  | rs384
  | rs512
  | ps256
  | ps384
  | ps512
  | edDSA
  deriving DecidableEq, Repr

def parseAlgorithm : String → Option Algorithm
  | "RS256" => some .rs256
  | "RS384" => some .rs384
  | "RS512" => some .rs512
  | "ES256" => some .es256
  | "ES384" => some .es384
  | "EdDSA" => some .edDSA
  | _ => none

def isScopeToken (value : String) : Bool :=
  !value.isEmpty && value.utf8ByteSize ≤ 128 && value.toList.all fun c =>
    c.toNat = 0x21 || (0x23 ≤ c.toNat && c.toNat ≤ 0x5B) || (0x5D ≤ c.toNat && c.toNat ≤ 0x7E)

/-- A first character of one kind, all others of another. -/
def isName (first rest : Char → Bool) (maxBytes : Nat) (value : String) : Bool :=
  value.utf8ByteSize ≤ maxBytes &&
    match value.toList with
    | [] => false
    | c :: cs => first c && cs.all rest

def isClaimName : String → Bool :=
  isName (fun c => isAsciiAlphabetic c || c == '_')
    (fun c => isAsciiAlphanumeric c || c == '_' || c == '.' || c == '-') 64

def isAuthorityId : String → Bool :=
  isName isAsciiAlphanumeric
    (fun c => isAsciiAlphanumeric c || c == '.' || c == '_' || c == ':' || c == '-') 128

def isHostPattern (value : String) : Bool :=
  let (host, port) := (Text.splitOnce ':' value.toList).elim (value.toList, none) fun parts =>
    (parts.1, some parts.2)
  !value.isEmpty && value.utf8ByteSize ≤ 255 && !host.isEmpty
    && host.all (fun c => isAsciiAlphanumeric c || c == '.' || c == '-')
    && port.all fun digits =>
      !digits.isEmpty && digits.length ≤ 5 && digits.all (·.isDigit)
        && Json.digitsValue digits ≤ 65535

def canonicalHttpsUri (parse : UrlParser) (raw : String) (allowPath : Bool) :
    Except String Url := do
  ensure (!raw.isEmpty && raw.utf8ByteSize ≤ 2048) "uri must be 1 to 2048 bytes"
  ensure (isAscii raw) "uri must be ASCII"
  ensure ('%' ∉ raw.toList) "uri must not use percent-encoding"
  let url ← orError (parse raw) "uri is not a valid absolute URI"
  ensure (url.scheme == "https") "uri must use https"
  ensure (url.username.isEmpty && url.password.isNone) "uri must not contain userinfo"
  ensure url.query.isNone "uri must not contain a query"
  ensure url.fragment.isNone "uri must not contain a fragment"
  ensure (url.host.any (!·.isEmpty)) "uri must contain a host"
  if url.path != "/" then
    ensure allowPath "uri must not contain a path"
    ensure (url.path.toList.getLast? != some '/') "uri path must not end with a slash"
    ensure (((url.path.toList.splitOn '/').drop 1).all fun segment =>
        !segment.isEmpty && segment != ['.'] && segment != ['.', '.'])
      "uri path is not normalized"
  ensure (url.text == raw || (url.path == "/" && url.text.utf8ByteSize == raw.utf8ByteSize + 1
      && raw.toList.isPrefixOf url.text.toList)) "uri is not in canonical form"
  .ok url

def validateRole (role : String) : Except String Unit := do
  ensure (!role.isEmpty && role.utf8ByteSize ≤ 63) "database role must be 1 to 63 bytes"
  let first ← orError role.toList.head? "database role must not be empty"
  ensure (isAsciiAlphabetic first || first == '_')
    "database role must start with a letter or underscore"
  ensure (role.toList.tail.all fun c => isAsciiAlphanumeric c || c == '_')
    "database role contains an invalid character"
  ensure (!(role.utf8ByteSize ≥ 3 && (role.toList.take 3).map asciiLower == "pg_".toList))
    "database role must not use the reserved pg_ prefix"

/-- Each entry passes the check and is new. -/
def validateUnique (check : String → Except ConfigError Unit) (duplicate : String)
    (entries : List String) : Except ConfigError (Finset String) :=
  visit (fun index entry seen => do
      (check entry).mapError (·.at index)
      ensure (entry ∉ seen) ((ConfigError.schema duplicate).at index)
      .ok (insert entry seen))
    0 entries ∅

/-- The messages of `validate_scope_list` name the list, and carry no position. -/
def validateScopeList (scopes : List String) (min max : Nat) (what : String) :
    Except ConfigError Unit := do
  let name := if what == "scopes_supported" then "scopes_supported" else "allowed_scopes"
  ensure (min ≤ scopes.length && scopes.length ≤ max)
    (.schema (name ++ " must hold 1 to 32 entries"))
  let _ ← visit (fun _ scope (seen : Finset String) => do
      ensure (isScopeToken scope) (ConfigError.schema (name ++ " contains an invalid scope"))
      ensure (scope ∉ seen) (.schema (name ++ " must be unique"))
      .ok (insert scope seen))
    0 scopes ∅

def validateHosts (document : AuthorityDocument) (resource : Url) : Except ConfigError Unit := do
  ensure (!document.allowedHosts.isEmpty && document.allowedHosts.length ≤ 32)
    (.schema "allowed_hosts must hold 1 to 32 entries")
  let seen ← validateUnique (fun host => do
      ensure (isHostPattern host) (.schema "allowed_hosts contains an invalid host")
      ensure (host == toAsciiLowercase host) (.schema "allowed_hosts must be lowercase"))
    "allowed_hosts must be unique" document.allowedHosts
  let host ← orError resource.host (.schema "resource has no host")
  let authority := resource.port.elim host fun port => host ++ ":" ++ toString port
  ensure (authority ∈ seen) (.semantic "allowed_hosts must contain the resource host")

def validateOrigins (parse : UrlParser) (document : AuthorityDocument) :
    Except ConfigError Unit := do
  ensure (document.allowedOrigins.length ≤ 32)
    (.schema "allowed_origins must hold at most 32 entries")
  let _ ← validateUnique (fun origin => do
      ensure (origin.utf8ByteSize ≤ 2048) (.schema "allowed_origins entry is too long")
      let parsed ← orError (parse origin) (.schema "allowed_origins entry is not a URI")
      ensure (parsed.scheme == "https") (.schema "allowed_origins entry must be https")
      ensure (parsed.origin == origin) (.schema "allowed_origins entry must be a bare origin"))
    "allowed_origins must be unique" document.allowedOrigins

def inRange (low high value : Nat) : Bool := low ≤ value && value ≤ high

def validateLimits (limits : ServerLimits) : Except ConfigError Unit := do
  ensure (inRange 1024 1048576 limits.maxRequestBodyBytes)
    (.schema "max_request_body_bytes is out of range")
  ensure (inRange 256 65536 limits.maxTokenBytes) (.schema "max_token_bytes is out of range")
  ensure (inRange 1024 1048576 limits.maxHeaderBytes) (.schema "max_header_bytes is out of range")
  ensure (inRange 1 3600 limits.maxExecutionSeconds)
    (.schema "max_execution_seconds is out of range")
  ensure (inRange 1024 1073741824 limits.maxResultBytes)
    (.schema "max_result_bytes is out of range")
  ensure (inRange 1 10000 limits.maxConcurrentRequests)
    (.schema "max_concurrent_requests is out of range")
  ensure (inRange 1 10000 limits.maxPreAuthConcurrentRequests)
    (.schema "max_pre_auth_concurrent_requests is out of range")
  ensure (inRange 2 10000 limits.maxDatabaseConnections)
    (.schema "max_database_connections is out of range")
  ensure (inRange 1 60 limits.sseKeepaliveSeconds)
    (.schema "sse_keepalive_seconds is out of range")
  ensure (inRange 1 3600 limits.maxSseSeconds) (.schema "max_sse_seconds is out of range")
  ensure (limits.maxPreAuthConcurrentRequests ≤ limits.maxConcurrentRequests)
    (.semantic "max_pre_auth_concurrent_requests must not exceed max_concurrent_requests")
  ensure (limits.maxTokenBytes ≤ limits.maxHeaderBytes)
    (.semantic "max_token_bytes must not exceed max_header_bytes")
  ensure (limits.sseKeepaliveSeconds ≤ limits.maxSseSeconds)
    (.semantic "sse_keepalive_seconds must not exceed max_sse_seconds")

def validateRateLimit (limit : RateLimitConfig) : Except ConfigError Unit := do
  ensure (inRange 1 1000000 limit.requestsPerMinute)
    (.schema "requests_per_minute is out of range")
  ensure (inRange 1 100000 limit.burst) (.schema "burst is out of range")
  ensure (inRange 1 10000 limit.maxConcurrent) (.schema "max_concurrent is out of range")
  ensure (limit.burst ≤ limit.requestsPerMinute)
    (.semantic "burst must not exceed requests_per_minute")
  ensure (limit.maxConcurrent ≤ limit.burst) (.semantic "max_concurrent must not exceed burst")

/-- What the loop of `validate_principals` has seen. -/
structure Seen where
  subjects : Finset String
  authorityIds : Finset String
  mutationCapable : Bool

def validatePrincipal (document : AuthorityDocument) (principal : PrincipalConfig) (seen : Seen) :
    Except ConfigError Seen := do
  ensure (!principal.subject.isEmpty && principal.subject.utf8ByteSize ≤ 512)
    (.schema "subject must be 1 to 512 bytes")
  ensure (!principal.subject.toList.any isControl)
    (.schema "subject must not contain control characters")
  ensure (principal.subject ∉ seen.subjects) (.semantic "principal subjects must be unique")
  ensure (isAuthorityId principal.authorityId) (.schema "authority_id has an invalid format")
  ensure (principal.authorityId ∉ seen.authorityIds)
    (.semantic "authority_id values must be unique")
  (validateRole principal.queryRole).mapError .schema
  (principal.mutationRole.elim (.ok ()) validateRole).mapError .schema
  validateScopeList principal.allowedScopes 1 32 "allowed_scopes"
  ensure (principal.allowedScopes.all (· ∈ document.scopesSupported))
    (.semantic "allowed_scopes must be a subset of scopes_supported")
  let grantsMutation := principal.allowedScopes.contains document.mutationScope
  let grantsQuery := principal.allowedScopes.contains document.queryScope
  ensure grantsQuery (.semantic "allowed_scopes must contain the query scope")
  ensure (grantsMutation == principal.mutationRole.isSome)
    (.semantic "mutation_role must be present exactly when the mutation scope is allowed")
  ensure (!(grantsMutation && principal.mutationRole == some principal.queryRole))
    (.semantic "mutation_role must differ from query_role")
  validateRateLimit principal.rateLimit
  .ok { subjects := insert principal.subject seen.subjects
        authorityIds := insert principal.authorityId seen.authorityIds
        mutationCapable := seen.mutationCapable || grantsMutation }

def validatePrincipals (document : AuthorityDocument) : Except ConfigError Unit := do
  ensure (!document.principals.isEmpty && document.principals.length ≤ 10000)
    (.schema "principals must hold 1 to 10000 entries")
  let seen ← visit
    (fun index principal seen => (validatePrincipal document principal seen).mapError (·.at index))
    0 document.principals ⟨∅, ∅, false⟩
  ensure (!(document.remoteMutationEnabled && !seen.mutationCapable))
    (.semantic "remote_mutation_enabled requires at least one mutation capable principal")

/-- The checks of `validate_document` before those of the principals. -/
def validateSettings (parse : UrlParser) (document : AuthorityDocument) :
    Except ConfigError Unit := do
  ensure (document.schemaVersion == "1") (.schema "schema_version must be \"1\"")
  let resource ← (canonicalHttpsUri parse document.resource true).mapError .schema
  ensure (document.audience == document.resource) (.semantic "audience must equal resource")
  let _ ← (canonicalHttpsUri parse document.issuer true).mapError .schema
  ensure (!document.authorizationServers.isEmpty && document.authorizationServers.length ≤ 8)
    (.schema "authorization_servers must hold 1 to 8 entries")
  let _ ← validateUnique
    (fun server => ((canonicalHttpsUri parse server true).mapError .schema).map fun _ => ())
    "authorization_servers must be unique" document.authorizationServers
  validateScopeList document.scopesSupported 1 32 "scopes_supported"
  ensure (isScopeToken document.queryScope && isScopeToken document.mutationScope)
    (.schema "query_scope and mutation_scope must be valid scopes")
  ensure (document.queryScope != document.mutationScope)
    (.semantic "query_scope must differ from mutation_scope")
  ensure (document.queryScope ∈ document.scopesSupported)
    (.semantic "query_scope must appear in scopes_supported")
  ensure (document.mutationScope ∈ document.scopesSupported)
    (.semantic "mutation_scope must appear in scopes_supported")
  ensure (!document.jwksPath.isEmpty && document.jwksPath.utf8ByteSize ≤ 4096)
    (.schema "jwks_path must be 1 to 4096 bytes")
  ensure (!document.principalHmacKeyPath.isEmpty
      && document.principalHmacKeyPath.utf8ByteSize ≤ 4096)
    (.schema "principal_hmac_key_path must be 1 to 4096 bytes")
  ensure (!document.allowedTokenTypes.isEmpty && document.allowedTokenTypes.length ≤ 3)
    (.schema "allowed_token_types must hold 1 to 3 entries")
  let _ ← validateUnique
    (fun value => ensure (value ∈ ["at+jwt", "application/at+jwt", "JWT"])
      (.schema "allowed_token_types contains an unknown value"))
    "allowed_token_types must be unique" document.allowedTokenTypes
  ensure (!document.allowedAlgorithms.isEmpty && document.allowedAlgorithms.length ≤ 6)
    (.schema "allowed_algorithms must hold 1 to 6 entries")
  let _ ← validateUnique
    (fun value => ensure (parseAlgorithm value).isSome
      (.schema "allowed_algorithms contains an unknown value"))
    "allowed_algorithms must be unique" document.allowedAlgorithms
  ensure (!document.scopeClaims.isEmpty && document.scopeClaims.length ≤ 4)
    (.schema "scope_claims must hold 1 to 4 entries")
  let _ ← validateUnique
    (fun value => ensure (isClaimName value)
      (.schema "scope_claims contains an invalid claim name"))
    "scope_claims must be unique" document.scopeClaims
  ensure (document.clockSkewSeconds ≤ 300) (.schema "clock_skew_seconds must be 0 to 300")
  ensure (inRange 1 86400 document.maxTokenAgeSeconds)
    (.schema "max_token_age_seconds must be 1 to 86400")
  validateHosts document resource
  validateOrigins parse document
  validateLimits document.serverLimits

def validateDocument (parse : UrlParser) (document : AuthorityDocument) :
    Except ConfigError Unit := do
  validateSettings parse document
  validatePrincipals document

end Postgresem.Gateway
