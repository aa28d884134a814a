import Postgresem.Gateway.Listing
import Postgresem.Gateway.TokenTime

/-! The authority of a request never exceeds the record of its principal, and principals of two
subjects share nothing that is kept by authority id. -/
namespace Postgresem.Gateway
open Control

section Authenticated
variable {parse : UrlParser} {κ : Type}

/-- A request authenticates with the claims of its verified token. -/
structure Authenticates (authority : Authority parse κ) (decoder : TokenDecoder κ)
    (header : String) (now : Int) (claims : Claims) (principal : AuthenticatedPrincipal) :
    Prop where
  verified : authority.verify decoder header = .ok claims
  authenticated : authority.authenticateAt decoder header now = .ok principal

variable {authority : Authority parse κ} {decoder : TokenDecoder κ} {header header' : String}
  {now now' : Int} {claims claims' : Claims} {principal principal' : AuthenticatedPrincipal}

theorem Authenticates.granted (h : Authenticates authority decoder header now claims principal) :
    authority.grant claims now = .ok principal := by
  have hauthenticated := h.authenticated
  rwa [Authority.authenticateAt, h.verified, ok_bind] at hauthenticated

/-- The record that a token speaks for, with what it may have at most. -/
theorem Authenticates.record (h : Authenticates authority decoder header now claims principal) :
    ∃ record ∈ authority.document.principals, Granted authority.document claims record principal ∧
      ValidPrincipal authority.document record := by
  obtain ⟨record, hmem, hgranted⟩ := grant_ok h.granted
  exact ⟨record, hmem, hgranted, record_valid authority hmem⟩

/-- Of two tokens of one subject, the one with more scopes is granted more. -/
theorem Authenticates.scopes_mono
    (h : Authenticates authority decoder header now claims principal)
    (h' : Authenticates authority decoder header' now' claims' principal')
    (hsubject : claims.lookup "sub" = claims'.lookup "sub")
    (hscopes : ∀ scope, TokenScope authority.document claims scope →
      TokenScope authority.document claims' scope) :
    principal.grantedScopes ⊆ principal'.grantedScopes := by
  obtain ⟨record, hmem, hgranted, -⟩ := h.record
  obtain ⟨record', hmem', hgranted', -⟩ := h'.record
  have hsame : record.subject = record'.subject := by
    rw [hgranted.subject, hgranted'.subject] at hsubject
    exact Json.Value.string.inj (Option.some.inj hsubject)
  obtain rfl := (record_unique authority hmem hmem').1 hsame
  intro scope hscope
  obtain ⟨htoken, hallowed⟩ := (hgranted.scopes scope).mp hscope
  exact (hgranted'.scopes scope).mpr ⟨hscopes scope htoken, hallowed⟩

theorem Authenticates.authorityId_ne
    (h : Authenticates authority decoder header now claims principal)
    (h' : Authenticates authority decoder header' now' claims' principal')
    (hsubject : claims.lookup "sub" ≠ claims'.lookup "sub") :
    principal.authorityId ≠ principal'.authorityId := by
  obtain ⟨record, hmem, hgranted, -⟩ := h.record
  obtain ⟨record', hmem', hgranted', -⟩ := h'.record
  intro hsame
  rw [hgranted.authorityId, hgranted'.authorityId] at hsame
  obtain rfl := (record_unique authority hmem hmem').2 hsame
  exact hsubject (hgranted.subject.trans hgranted'.subject.symm)

end Authenticated

/-! ## What is kept by authority id -/

/-- The digest tells the authority ids of the document apart. -/
def SeparatesAuthorities (backend : HashBackend) (document : AuthorityDocument) : Prop :=
  ∀ record ∈ document.principals, ∀ record' ∈ document.principals,
    backend.sha256 (bytesOf record.authorityId) = backend.sha256 (bytesOf record'.authorityId) →
    record.authorityId = record'.authorityId

section Limiter
variable {τ : Type} (arithmetic : TokenArithmetic τ) (state : LimiterState τ)
  {authorityId other : String}

/-- An acquisition works on the bucket of its authority. -/
theorem lookup_acquire (hother : other ≠ authorityId) (limit : RateLimitConfig) (now : Nat) :
    (acquire arithmetic state authorityId limit now).2.lookup other = state.lookup other := by
  rw [acquire]
  split_ifs <;> exact (OrderedMap.lookup_insert ..).trans (if_neg hother)

theorem lookup_release (hother : other ≠ authorityId) :
    (release state authorityId).lookup other = state.lookup other := by
  rw [release]
  cases state.lookup authorityId with
  | none => rfl
  | some bucket => exact (OrderedMap.lookup_insert ..).trans (if_neg hother)

end Limiter

/-- Whatever the text of the revision, a cursor is read only with the hash that it carries. -/
theorem sha256_of_parseCursor {backend : HashBackend} {revision revision' authorityId : String}
    {authorityId' : String} {n offset : Nat}
    (h : parseCursor backend (some (modelCursor backend revision authorityId n)) revision'
      authorityId' = some offset) :
    backend.sha256 (bytesOf authorityId) = backend.sha256 (bytesOf authorityId') := by
  have hhash : '|' ∉ (backend.sha256 (bytesOf authorityId)).toList :=
    bar_notMem_of_isSha256 (isSha256_sha256 backend _)
  have hoffset : '|' ∉ (toString n).toList := Text.notMem_toString (by decide) n
  have hlist : (modelCursor backend revision authorityId n).toList =
      "v2".toList ++ '|' :: (revision.toList ++ '|' ::
        ((backend.sha256 (bytesOf authorityId)).toList ++ '|' :: (toString n).toList)) := by
    simp [modelCursor]
  have hsplit : (modelCursor backend revision authorityId n).toList.splitOn '|' =
      "v2".toList :: (revision.toList.splitOn '|' ++
        [(backend.sha256 (bytesOf authorityId)).toList, (toString n).toList]) := by
    rw [hlist, List.splitOn_append_cons_self_of_not_mem (by decide),
      List.splitOn_append_cons_self, List.splitOn_append_cons_self_of_not_mem hhash,
      List.splitOn_eq_singleton hoffset]
  rw [parseCursor] at h
  simp only [hsplit] at h
  -- Only a revision without bars leaves four parts.
  rcases hparts : revision.toList.splitOn '|' with _ | ⟨first, _ | ⟨second, rest⟩⟩
  · exact absurd hparts (List.splitOn_ne_nil '|' _)
  · rw [hparts] at h
    simp only [List.cons_append, List.nil_append] at h
    split_ifs at h with hsame
    exact String.toList_injective hsame.2.2
  · rw [hparts] at h
    split at h
    next hfour =>
      have hlength := congrArg List.length hfour
      simp only [List.length_cons, List.length_append, List.length_nil] at hlength
      omega
    next => cases h

/-! ## Confinement -/

/-- What two principals of different subjects do not share: the namespace of their idempotency
keys, their buckets in the limiter and their cursors. -/
structure KeptApart (backend : HashBackend) (authorityId other : String) : Prop where
  ids : authorityId ≠ other
  namespaces : ∀ context context' : ExecutionContext, context.authorityId = authorityId →
    context'.authorityId = other →
    mutationAuthorityHash backend context ≠ mutationAuthorityHash backend context'
  buckets : ∀ {τ : Type} (arithmetic : TokenArithmetic τ) (buckets : LimiterState τ)
    (limit : RateLimitConfig) (now : Nat),
    (acquire arithmetic buckets authorityId limit now).2.lookup other = buckets.lookup other ∧
      (release buckets authorityId).lookup other = buckets.lookup other
  cursors : ∀ (revision revision' : String) (offset : Nat),
    parseCursor backend (some (modelCursor backend revision authorityId offset)) revision' other =
      none

theorem Authenticates.apart {parse : UrlParser} {κ : Type} {authority : Authority parse κ}
    {decoder : TokenDecoder κ} {backend : HashBackend}
    (hseparates : SeparatesAuthorities backend authority.document) {header header' : String}
    {now now' : Int} {claims claims' : Claims} {principal principal' : AuthenticatedPrincipal}
    (h : Authenticates authority decoder header now claims principal)
    (h' : Authenticates authority decoder header' now' claims' principal')
    (hsubject : claims.lookup "sub" ≠ claims'.lookup "sub") :
    KeptApart backend principal.authorityId principal'.authorityId := by
  have hids := h.authorityId_ne h' hsubject
  obtain ⟨record, hmem, hgranted, -⟩ := h.record
  obtain ⟨record', hmem', hgranted', -⟩ := h'.record
  have hhash : backend.sha256 (bytesOf principal.authorityId) ≠
      backend.sha256 (bytesOf principal'.authorityId) := by
    rw [hgranted.authorityId, hgranted'.authorityId] at hids ⊢
    exact fun hsame => hids (hseparates record hmem record' hmem' hsame)
  refine ⟨hids, ?_, ?_, ?_⟩
  · intro context context' hcontext hcontext'
    rw [mutationAuthorityHash, mutationAuthorityHash, hcontext, hcontext']
    exact hhash
  · intro τ arithmetic buckets limit now
    exact ⟨lookup_acquire arithmetic buckets hids.symm limit now, lookup_release buckets hids.symm⟩
  · intro revision revision' offset
    cases hparsed : parseCursor backend
        (some (modelCursor backend revision principal.authorityId offset)) revision'
        principal'.authorityId with
    | none => rfl
    | some n => exact absurd (sha256_of_parseCursor hparsed) hhash

/-- Whoever authenticates has the scopes of the token that the one record of its subject allows, and
a server with the roles of that record; more scopes in a token give no more than the record has, and
other subjects are apart. -/
theorem authority_confined {parse : UrlParser} {κ : Type} (state : HttpState parse κ)
    (decoder : TokenDecoder κ) {backend : HashBackend}
    (hseparates : SeparatesAuthorities backend state.authority.document) :
    (∀ header now principal, state.authority.authenticateAt decoder header now = .ok principal →
      ∃ claims, state.authority.verify decoder header = .ok claims ∧
        ∃ record ∈ state.authority.document.principals,
          claims.lookup "sub" = some (.string record.subject) ∧
          (∀ other ∈ state.authority.document.principals, other.subject = record.subject →
            other = record) ∧
          (∀ scope, scope ∈ principal.grantedScopes ↔
            TokenScope state.authority.document claims scope ∧ scope ∈ record.allowedScopes) ∧
          principal.queryRole = record.queryRole ∧
          (∀ role, principal.mutationRole = some role →
            record.mutationRole = some role ∧ role ≠ principal.queryRole) ∧
          ∃ server, serverForPrincipal state principal = .ok server ∧
            Served state claims record server) ∧
    ∀ {header header' : String} {now now' : Int} {claims claims' : Claims}
      {principal principal' : AuthenticatedPrincipal},
      Authenticates state.authority decoder header now claims principal →
      Authenticates state.authority decoder header' now' claims' principal' →
      (claims.lookup "sub" = claims'.lookup "sub" →
        (∀ scope, TokenScope state.authority.document claims scope →
          TokenScope state.authority.document claims' scope) →
        principal.grantedScopes ⊆ principal'.grantedScopes) ∧
      (claims.lookup "sub" ≠ claims'.lookup "sub" →
        KeptApart backend principal.authorityId principal'.authorityId) := by
  refine ⟨?_, ?_⟩
  · intro header now principal hauthenticated
    obtain ⟨claims, hverified, -⟩ := bind_eq_ok.mp hauthenticated
    obtain ⟨record, hmem, hgranted, hvalid⟩ :=
      (⟨hverified, hauthenticated⟩ :
        Authenticates state.authority decoder header now claims principal).record
    refine ⟨claims, hverified, record, hmem, hgranted.subject, ?_, hgranted.scopes,
      hgranted.queryRole, fun role => hgranted.mutationRole_some hvalid,
      serverForPrincipal_ok hgranted hvalid⟩
    intro other hother hsame
    exact (record_unique state.authority hother hmem).1 hsame
  · intro header header' now now' claims claims' principal principal' h h'
    exact ⟨fun hsubject hscopes => h.scopes_mono h' hsubject hscopes,
      fun hsubject => h.apart hseparates h' hsubject⟩

/-! ## Two tenants -/

def tenantAuthority : Authority tenantUrls Unit where
  document := tenantDocument
  valid := tenantDocument_valid
  keys := [("key-1", ⟨(), [.rs256]⟩)]
  pseudonymKey := List.replicate 32 7

/-- `{"alg":"RS256","typ":"at+jwt","kid":"key-1"}` -/
def tokenHeader : String := "eyJhbGciOiJSUzI1NiIsInR5cCI6ImF0K2p3dCIsImtpZCI6ImtleS0xIn0"

def queryToken : String := tokenHeader ++ ".dGVuYW50LWE.c2lnbmVk"

def writerToken : String := tokenHeader ++ ".dGVuYW50LWI.c2lnbmVk"

/-- Two signed tokens, and what verification makes of them. -/
def tenantDecoder : TokenDecoder Unit where
  decodeHeader token :=
    if token = queryToken ∨ token = writerToken then
      some ⟨.rs256, some "at+jwt", some "key-1", false, false, false, false, false, false⟩
    else none
  decode token _ _ :=
    if token = queryToken then some (.object (tenantClaims "tenant-a-agent" "postgresem.query"))
    else if token = writerToken then
      some (.object (tenantClaims "tenant-b-agent" "postgresem.query postgresem.mutate"))
    else none

def tenantExecutor : ExecutorConfig where
  databaseUrl := "postgres://db"
  databaseUrlVariable := "DATABASE_URL"
  databasePassword := none
  auditDatabaseUrl := "postgres://audit"
  auditDatabaseUrlVariable := "AUDIT_DATABASE_URL"
  auditDatabasePassword := none
  databaseRole := "postgresem"
  maxResultBytes := 1048576
  statementTimeout := 30000
  lockTimeout := 1000
  idleTransactionTimeout := 30000

def tenantState : HttpState tenantUrls Unit where
  authority := tenantAuthority
  project := "shop"
  queryBase := tenantExecutor
  mutationBase := some tenantExecutor

theorem tenantDocument_separated : SeparatesAuthorities standardHash tenantDocument := by
  have hne : standardHash.sha256 (bytesOf "tenant-a") ≠ standardHash.sha256 (bytesOf "tenant-b") := by
    decide +kernel
  intro record hmem record' hmem' hsame
  simp only [tenantDocument, List.mem_cons, List.not_mem_nil, or_false] at hmem hmem'
  rcases hmem with rfl | rfl <;> rcases hmem' with rfl | rfl
  · rfl
  · exact absurd hsame hne
  · exact absurd hsame.symm hne
  · rfl

/-- Both tenants authenticate, and are apart. -/
theorem authority_confined_tenants : ∃ principal principal',
    tenantAuthority.authenticateAt tenantDecoder ("Bearer " ++ queryToken) 1700000000 =
        .ok principal ∧
      tenantAuthority.authenticateAt tenantDecoder ("Bearer " ++ writerToken) 1700000000 =
        .ok principal' ∧
      KeptApart standardHash principal.authorityId principal'.authorityId := by
  have hok : succeedsWith (tenantAuthority.authenticateAt tenantDecoder ("Bearer " ++ queryToken)
      1700000000) (fun _ => true) = true := by decide +kernel
  have hok' : succeedsWith (tenantAuthority.authenticateAt tenantDecoder
      ("Bearer " ++ writerToken) 1700000000) (fun _ => true) = true := by decide +kernel
  obtain ⟨principal, hprincipal, -⟩ := exists_ok_of_succeedsWith hok
  obtain ⟨principal', hprincipal', -⟩ := exists_ok_of_succeedsWith hok'
  have hverified : tenantAuthority.verify tenantDecoder ("Bearer " ++ queryToken) =
      .ok (tenantClaims "tenant-a-agent" "postgresem.query") := by rfl
  have hverified' : tenantAuthority.verify tenantDecoder ("Bearer " ++ writerToken) =
      .ok (tenantClaims "tenant-b-agent" "postgresem.query postgresem.mutate") := by rfl
  have hconfined := (authority_confined tenantState tenantDecoder tenantDocument_separated).2
    ⟨hverified, hprincipal⟩ ⟨hverified', hprincipal'⟩
  refine ⟨principal, principal', hprincipal, hprincipal', hconfined.2 ?_⟩
  have hsubject : (tenantClaims "tenant-a-agent" "postgresem.query").lookup "sub" =
      some (.string "tenant-a-agent") := rfl
  have hsubject' : (tenantClaims "tenant-b-agent" "postgresem.query postgresem.mutate").lookup "sub" =
      some (.string "tenant-b-agent") := rfl
  rw [hsubject, hsubject']
  simp

end Postgresem.Gateway
