import Mathlib.Data.Finset.Card
import Postgresem.Gateway.Authority
import Postgresem.Semantic.Json

/-! `Authority::load` and `authenticate_at`. The decoding of a token and the check of its signature
belong to the JWT library, and the keys are what `load_keys` made of the key file. -/
namespace Postgresem.Gateway
open Control

/-- A JOSE header. The flags say whether the header brings or names a key of its own. -/
structure TokenHeader where
  alg : Algorithm
  typ : Option String
  kid : Option String
  jwk : Bool
  jku : Bool
  x5u : Bool
  x5c : Bool
  x5t : Bool
  x5tS256 : Bool

structure TokenDecoder (κ : Type) where
  decodeHeader : String → Option TokenHeader
  /-- The claims of a token whose signature verifies with this key and algorithm. -/
  decode : String → κ → Algorithm → Option Json.Value

structure VerificationKey (κ : Type) where
  key : κ
  algorithms : List Algorithm

structure PrincipalRecord where
  authorityId : String
  queryRole : String
  mutationRole : Option String
  allowedScopes : Finset String
  rateLimit : RateLimitConfig

def PrincipalConfig.record (principal : PrincipalConfig) : PrincipalRecord where
  authorityId := principal.authorityId
  queryRole := principal.queryRole
  mutationRole := principal.mutationRole
  allowedScopes := principal.allowedScopes.toFinset
  rateLimit := principal.rateLimit

/-- A loaded authority: its document is valid. -/
structure Authority (parse : UrlParser) (κ : Type) where
  document : AuthorityDocument
  valid : validateDocument parse document = .ok ()
  keys : List (String × VerificationKey κ)
  pseudonymKey : List UInt8

def loadPseudonymKey (bytes : List UInt8) : Except ConfigError (List UInt8) := do
  ensure (32 ≤ bytes.length) ⟨.key, "principal hmac key is shorter than 32 bytes", none⟩
  ensure (bytes.length ≤ 4096) ⟨.key, "principal hmac key exceeds 4096 bytes", none⟩
  ensure (!bytes.all (· == 0)) ⟨.key, "principal hmac key is all zero bytes", none⟩
  .ok bytes

namespace Authority
variable {parse : UrlParser} {κ : Type}

/-- `load` and `assemble`, for a document that was read and keys that were loaded. -/
def load (parse : UrlParser) (document : AuthorityDocument)
    (loadKeys : List Algorithm → Except ConfigError (List (String × VerificationKey κ)))
    (hmacBytes : List UInt8) : Except ConfigError (Authority parse κ) :=
  match hvalid : validateDocument parse document with
  | .error error => .error error
  | .ok () => do
    let algorithms := document.allowedAlgorithms.filterMap parseAlgorithm
    ensure (algorithms.length == document.allowedAlgorithms.length)
      (.schema "allowed_algorithms contains an unsupported value")
    let keys ← loadKeys algorithms
    let pseudonymKey ← loadPseudonymKey hmacBytes
    let tokenTypes := (document.allowedTokenTypes.map toAsciiLowercase).toFinset
    ensure (tokenTypes.card == document.allowedTokenTypes.length)
      (.schema "allowed_token_types contains a case-insensitive duplicate")
    .ok { document, valid := hvalid, keys, pseudonymKey }

def algorithms (authority : Authority parse κ) : List Algorithm :=
  authority.document.allowedAlgorithms.filterMap parseAlgorithm

def tokenTypes (authority : Authority parse κ) : List String :=
  authority.document.allowedTokenTypes.map toAsciiLowercase

/-- The records by subject. -/
def principals (authority : Authority parse κ) : List (String × PrincipalConfig) :=
  OrderedMap.collect (·.subject) authority.document.principals

end Authority

def isBase64UrlChar (c : Char) : Bool := isAsciiAlphanumeric c || c == '-' || c == '_'

def extractBearer (document : AuthorityDocument) (header : String) : Except AuthError String := do
  let trimmed := Text.trimMatches (fun c => c == ' ' || c == '\t') header.toList
  ensure (!trimmed.isEmpty) .missingCredentials
  let isBearer (scheme : List Char) : Bool := scheme.map asciiLower == "bearer".toList
  let (scheme, rest) ← orError (Text.splitOnce ' ' trimmed)
    (if isBearer trimmed then .missingCredentials else .malformedRequest)
  ensure (isBearer scheme) .malformedRequest
  let token := String.ofList (rest.dropWhile (· == ' '))
  ensure (!token.isEmpty) .missingCredentials
  ensure (!token.toList.any Text.isAsciiWhitespace) .malformedRequest
  ensure (token.utf8ByteSize ≤ document.serverLimits.maxTokenBytes) .tokenTooLarge
  ensure (isAscii token) .malformedToken
  let segments := token.toList.splitOn '.'
  ensure (segments.length == 3 && segments.all fun segment =>
      !segment.isEmpty && segment.all isBase64UrlChar) .malformedToken
  .ok token

/-- A JSON object's members. `serde_json` keeps one member for a name. -/
abbrev Claims := List (String × Json.Value)

def boundedString (value : Option Json.Value) (max : Nat) : Except AuthError String :=
  match value with
  | some (.string text) => do
    ensure (!text.isEmpty && text.utf8ByteSize ≤ max && !text.toList.any isControl) .invalidClaims
    .ok text
  | _ => .error .invalidClaims

def numericClaim (claims : Claims) (name : String) : Except AuthError (Option Int) :=
  match claims.lookup name with
  | none | some .null => .ok none
  | some (.number text) => (orError (Json.asI64 text) .invalidClaims).map some
  | some _ => .error .invalidClaims

def checkIssuer (document : AuthorityDocument) (claims : Claims) : Except AuthError Unit := do
  let issuer ← (boundedString (claims.lookup "iss") 2048).mapError fun _ => .invalidIssuer
  ensure (issuer == document.issuer) .invalidIssuer

def checkAudience (document : AuthorityDocument) (claims : Claims) : Except AuthError Unit :=
  match claims.lookup "aud" with
  | some (.string value) => ensure (value == document.audience) .invalidAudience
  | some (.array values) => do
    ensure (!values.isEmpty && values.length ≤ 16) .invalidAudience
    ensure (values.all fun | .string _ => true | _ => false) .invalidAudience
    ensure (values.any fun | .string entry => entry == document.audience | _ => false)
      .invalidAudience
  | _ => .error .invalidAudience

/-- Saturating arithmetic of `i64`. -/
def saturate (value : Int) : Int := max (-2 ^ 63) (min value (2 ^ 63 - 1))

def checkTime (document : AuthorityDocument) (claims : Claims) (now : Int) :
    Except AuthError Unit := do
  ensure (document.clockSkewSeconds < 2 ^ 63) .internal
  ensure (document.maxTokenAgeSeconds < 2 ^ 63) .internal
  let skew : Int := document.clockSkewSeconds
  let maxAge : Int := document.maxTokenAgeSeconds
  let exp ← orError (← numericClaim claims "exp") .invalidClaims
  let iat ← orError (← numericClaim claims "iat") .invalidClaims
  let nbf ← numericClaim claims "nbf"
  ensure (iat ≤ exp) .invalidClaims
  ensure (saturate (now - skew) < exp) .tokenExpired
  ensure (nbf.all (· ≤ saturate (now + skew))) .tokenNotYetValid
  ensure (iat ≤ saturate (now + skew)) .invalidClaims
  ensure (saturate (now - iat) ≤ saturate (maxAge + skew)) .tokenTooOld

/-- The scopes in a string claim, between blanks and tabs. -/
def splitScopes (value : String) : List String :=
  ((value.toList.splitOnP fun c => c == ' ' || c == '\t').filter (!·.isEmpty)).map String.ofList

def scopeItem : Json.Value → Except AuthError String
  | .string token => if isScopeToken token then .ok token else .error .invalidClaims
  | _ => .error .invalidClaims

/-- The scopes one claim carries, in either of its encodings. -/
def claimScopes : Option Json.Value → Except AuthError (List String)
  | none | some .null => .ok []
  | some (.string value) => do
    ensure ((splitScopes value).all isScopeToken) .invalidClaims
    .ok (splitScopes value)
  | some (.array values) => do
    ensure (values.length ≤ 64) .invalidClaims
    values.mapM scopeItem
  | some _ => .error .invalidClaims

def collectScopes (document : AuthorityDocument) (claims : Claims) :
    Except AuthError (Finset String) :=
  visit (fun _ claim (scopes : Finset String) => do
      let carried ← claimScopes (claims.lookup claim)
      let scopes := scopes ∪ carried.toFinset
      ensure (scopes.card ≤ 64) AuthError.invalidClaims
      .ok scopes)
    0 document.scopeClaims ∅

def pseudonymDomain : String := "postgresem.mcp-http.principal-pseudonym.v1"

/-- The bytes of a field after their number, as eight bytes. -/
def lengthPrefixed (field : String) : List UInt8 :=
  ((List.range 8).map fun index => UInt8.ofNat (field.utf8ByteSize / 256 ^ (7 - index)))
    ++ bytesOf field

def pseudonym (key : List UInt8) (issuer subject : String) : String :=
  Base64.encode (Hmac.sha256 key
    (bytesOf pseudonymDomain ++ lengthPrefixed issuer ++ lengthPrefixed subject)).toList

structure AuthenticatedPrincipal where
  authorityId : String
  queryRole : String
  mutationRole : Option String
  grantedScopes : Finset String
  rateLimit : RateLimitConfig
  auditPseudonym : String

variable {parse : UrlParser} {κ : Type}

/-- The checks of the header, and the claims of the verified token. -/
def Authority.verify (authority : Authority parse κ) (decoder : TokenDecoder κ)
    (authorizationHeader : String) : Except AuthError Claims := do
  let token ← extractBearer authority.document authorizationHeader
  let header ← orError (decoder.decodeHeader token) .malformedToken
  ensure (!(header.jwk || header.jku || header.x5u || header.x5c || header.x5t || header.x5tS256))
    .unknownKey
  let typ ← orError header.typ .unsupportedTokenType
  ensure (toAsciiLowercase typ ∈ authority.tokenTypes) .unsupportedTokenType
  ensure (header.alg ∈ authority.algorithms) .unsupportedAlgorithm
  let kid ← orError header.kid .unknownKey
  ensure (!kid.isEmpty) .unknownKey
  let key ← orError (authority.keys.lookup kid) .unknownKey
  ensure (header.alg ∈ key.algorithms) .unsupportedAlgorithm
  match decoder.decode token key.key header.alg with
  | none => .error .invalidSignature
  | some (.object claims) => .ok claims
  | some _ => .error .invalidClaims

/-- What `authenticate_at` makes of verified claims. -/
def Authority.grant (authority : Authority parse κ) (claims : Claims) (now : Int) :
    Except AuthError AuthenticatedPrincipal := do
  let document := authority.document
  ensure (!claims.isEmpty && claims.length ≤ 64) .invalidClaims
  checkIssuer document claims
  checkAudience document claims
  checkTime document claims now
  let subject ← boundedString (claims.lookup "sub") 512
  let tokenScopes ← collectScopes document claims
  let principal ← orError (authority.principals.lookup subject) .unknownPrincipal
  let record := principal.record
  let granted := record.allowedScopes ∩ tokenScopes
  ensure (!decide (granted = ∅)) .insufficientScope
  let mutationRole :=
    if document.remoteMutationEnabled && decide (document.mutationScope ∈ granted) then
      record.mutationRole
    else none
  .ok { authorityId := record.authorityId, queryRole := record.queryRole, mutationRole
        grantedScopes := granted, rateLimit := record.rateLimit
        auditPseudonym := pseudonym authority.pseudonymKey document.issuer subject }

def Authority.authenticateAt (authority : Authority parse κ) (decoder : TokenDecoder κ)
    (authorizationHeader : String) (now : Int) : Except AuthError AuthenticatedPrincipal := do
  let claims ← authority.verify decoder authorizationHeader
  authority.grant claims now

end Postgresem.Gateway
