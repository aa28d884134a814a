import Mathlib.Data.Set.Defs
import Postgresem.Gateway.Bounds

/-! The time checks of a token, over the integers. The saturating arithmetic of the code decides as
exact arithmetic does, and the times at which a token passes form one interval. -/
namespace Postgresem.Gateway
open Control

def IsI64 (value : Int) : Prop := -2 ^ 63 ≤ value ∧ value < 2 ^ 63

theorem le_saturate_iff {value bound : Int} (h : IsI64 bound) (hlow : 0 ≤ value) :
    bound ≤ saturate value ↔ bound ≤ value := by
  unfold saturate
  unfold IsI64 at h
  omega

theorem saturate_le_iff {value bound : Int} (h : IsI64 bound) (hhigh : bound < 2 ^ 63 - 1) :
    saturate value ≤ bound ↔ value ≤ bound := by
  unfold saturate
  unfold IsI64 at h
  omega

theorem saturate_of_isI64 {value : Int} (h : IsI64 value) : saturate value = value := by
  unfold saturate
  unfold IsI64 at h
  omega

theorem numericClaim_isI64 {claims : Claims} {name : String} {value : Int}
    (h : numericClaim claims name = .ok (some value)) : IsI64 value := by
  unfold numericClaim at h
  split at h
  · cases h
  · cases h
  · obtain ⟨read, hread, hvalue⟩ := map_eq_ok.mp h
    rw [orError_eq_ok, Json.asI64, Option.filter_eq_some_iff] at hread
    simp only [Bool.and_eq_true, decide_eq_true_eq] at hread
    rw [← Option.some.inj hvalue]
    exact hread.2
  · cases h

/-- The clock skew and the age that a valid document allows. -/
structure Allowance (document : AuthorityDocument) : Prop where
  skew : document.clockSkewSeconds ≤ 300
  age : document.maxTokenAgeSeconds ≤ 86400

theorem numericClaim_error {claims : Claims} {name : String} {error : AuthError}
    (h : numericClaim claims name = .error error) : error = .invalidClaims := by
  unfold numericClaim at h
  split at h
  · cases h
  · cases h
  · rename_i text _
    rw [map_eq_error] at h
    cases hread : Json.asI64 text with
    | none => exact (Except.error.inj (hread ▸ h)).symm
    | some value => simp [hread] at h
  · exact (Except.error.inj h).symm

theorem allowance_of_valid {parse : UrlParser} {document : AuthorityDocument}
    (h : validateDocument parse document = .ok ()) : Allowance document := by
  unfold validateDocument validateSettings at h
  simp only [bind_eq_ok, ensure_eq_ok, exists_const, decide_eq_true_eq, inRange,
    Bool.and_eq_true] at h
  tauto

/-- The time claims of a token. -/
structure TimeClaims (claims : Claims) (exp iat : Int) (nbf : Option Int) : Prop where
  exp : numericClaim claims "exp" = .ok (some exp)
  iat : numericClaim claims "iat" = .ok (some iat)
  nbf : numericClaim claims "nbf" = .ok nbf

/-- What the claims and the clock have to satisfy, over the integers. -/
structure Timely (document : AuthorityDocument) (exp iat : Int) (nbf : Option Int) (now : Int) :
    Prop where
  ordered : iat ≤ exp
  unexpired : now - document.clockSkewSeconds < exp
  started : ∀ start, nbf = some start → start ≤ now + document.clockSkewSeconds
  issued : iat ≤ now + document.clockSkewSeconds
  fresh : now - iat ≤ document.maxTokenAgeSeconds + document.clockSkewSeconds

section Checks
variable {document : AuthorityDocument} {claims : Claims}

/-- The checks in saturating arithmetic are those of the code, in its order. -/
theorem checkTime_eq_ok (h : Allowance document) {now : Int} :
    checkTime document claims now = .ok () ↔ ∃ exp iat nbf, TimeClaims claims exp iat nbf ∧
      iat ≤ exp ∧ saturate (now - document.clockSkewSeconds) < exp ∧
      (∀ start, nbf = some start → start ≤ saturate (now + document.clockSkewSeconds)) ∧
      iat ≤ saturate (now + document.clockSkewSeconds) ∧
      saturate (now - iat) ≤
        saturate (document.maxTokenAgeSeconds + document.clockSkewSeconds) := by
  have hskew := h.skew
  have hage := h.age
  have hbounds : document.clockSkewSeconds < 2 ^ 63 ∧ document.maxTokenAgeSeconds < 2 ^ 63 := by
    omega
  unfold checkTime
  simp only [bind_eq_ok, ensure_eq_ok, exists_const, decide_eq_true_eq, orError_eq_ok, hbounds,
    true_and, Option.all_eq_true]
  constructor
  · rintro ⟨exp?, hexp, exp, rfl, iat?, hiat, iat, rfl, nbf, hnbf, hchecks⟩
    exact ⟨exp, iat, nbf, ⟨hexp, hiat, hnbf⟩, hchecks⟩
  · rintro ⟨exp, iat, nbf, hclaims, hchecks⟩
    exact ⟨some exp, hclaims.exp, exp, rfl, some iat, hclaims.iat, iat, rfl, nbf, hclaims.nbf,
      hchecks⟩

theorem TimeClaims.unique {exp exp' iat iat' : Int} {nbf nbf' : Option Int}
    (h : TimeClaims claims exp iat nbf) (h' : TimeClaims claims exp' iat' nbf') :
    exp = exp' ∧ iat = iat' ∧ nbf = nbf' := by
  have hexp := h.exp.symm.trans h'.exp
  have hiat := h.iat.symm.trans h'.iat
  have hnbf := h.nbf.symm.trans h'.nbf
  simp only [Except.ok.injEq, Option.some.injEq] at hexp hiat hnbf
  exact ⟨hexp, hiat, hnbf⟩

/-- Saturation changes no check: neither clock nor skew is negative, so the left ends are exact, and
beyond the right end every claim and every allowed age is passed anyway. -/
theorem checkTime_iff_timely (h : Allowance document) {exp iat : Int} {nbf : Option Int}
    (hclaims : TimeClaims claims exp iat nbf) {now : Int} (hnow : 0 ≤ now) (hmax : now < 2 ^ 63) :
    checkTime document claims now = .ok () ↔ Timely document exp iat nbf now := by
  have hskew := h.skew
  have hage := h.age
  have hexp := numericClaim_isI64 hclaims.exp
  have hiat := numericClaim_isI64 hclaims.iat
  have hleft : saturate (now - document.clockSkewSeconds) = now - document.clockSkewSeconds :=
    saturate_of_isI64 (by unfold IsI64; omega)
  have hallowed : saturate (document.maxTokenAgeSeconds + document.clockSkewSeconds) =
      document.maxTokenAgeSeconds + document.clockSkewSeconds :=
    saturate_of_isI64 (by unfold IsI64; omega)
  have hissued := (le_saturate_iff hiat (by omega) : iat ≤ saturate (now + document.clockSkewSeconds) ↔ _)
  have hfresh : saturate (now - iat) ≤ document.maxTokenAgeSeconds + document.clockSkewSeconds ↔
      now - iat ≤ document.maxTokenAgeSeconds + document.clockSkewSeconds :=
    saturate_le_iff (by unfold IsI64; omega) (by omega)
  have hstarted : ∀ start, nbf = some start →
      (start ≤ saturate (now + document.clockSkewSeconds) ↔
        start ≤ now + document.clockSkewSeconds) := by
    rintro start rfl
    exact le_saturate_iff (numericClaim_isI64 hclaims.nbf) (by omega)
  rw [checkTime_eq_ok h]
  constructor
  · rintro ⟨exp', iat', nbf', hclaims', hordered, hexpiry, hstart, hissue, hage'⟩
    obtain ⟨rfl, rfl, rfl⟩ := hclaims.unique hclaims'
    rw [hleft] at hexpiry
    rw [hallowed] at hage'
    exact ⟨hordered, hexpiry, fun start hs => (hstarted start hs).mp (hstart start hs),
      hissued.mp hissue, hfresh.mp hage'⟩
  · intro htimely
    refine ⟨exp, iat, nbf, hclaims, htimely.ordered, ?_, ?_, hissued.mpr htimely.issued, ?_⟩
    · rw [hleft]
      exact htimely.unexpired
    · exact fun start hs => (hstarted start hs).mpr (htimely.started start hs)
    · rw [hallowed]
      exact hfresh.mpr htimely.fresh

/-- A token is rejected as expired or too old only after its claims were read. -/
theorem checkTime_rejected (h : Allowance document) {now : Int}
    (hrejected : checkTime document claims now = .error .tokenExpired ∨
      checkTime document claims now = .error .tokenTooOld) :
    ∃ exp iat nbf, TimeClaims claims exp iat nbf ∧
      (exp ≤ saturate (now - document.clockSkewSeconds) ∨
        saturate (document.maxTokenAgeSeconds + document.clockSkewSeconds) <
          saturate (now - iat)) := by
  have hskew := h.skew
  have hage := h.age
  have hskewBound : document.clockSkewSeconds < 2 ^ 63 := by omega
  have hageBound : document.maxTokenAgeSeconds < 2 ^ 63 := by omega
  unfold checkTime at hrejected
  simp only [decide_eq_true hskewBound, decide_eq_true hageBound, ensure_true, ok_bind] at hrejected
  cases hexp : numericClaim claims "exp" with
  | error error => simp [hexp, numericClaim_error hexp] at hrejected
  | ok exp =>
    cases exp with
    | none => simp [hexp] at hrejected
    | some exp =>
      cases hiat : numericClaim claims "iat" with
      | error error => simp [hexp, hiat, numericClaim_error hiat] at hrejected
      | ok iat =>
        cases iat with
        | none => simp [hexp, hiat] at hrejected
        | some iat =>
          cases hnbf : numericClaim claims "nbf" with
          | error error => simp [hexp, hiat, hnbf, numericClaim_error hnbf] at hrejected
          | ok nbf =>
            refine ⟨exp, iat, nbf, ⟨hexp, hiat, hnbf⟩, ?_⟩
            simp only [hexp, hiat, hnbf, orError_some, ok_bind] at hrejected
            by_contra hpasses
            obtain ⟨hexpiry, hfresh⟩ := not_or.mp hpasses
            rw [decide_eq_true (not_le.mp hexpiry), decide_eq_true (not_lt.mp hfresh)] at hrejected
            generalize decide (iat ≤ exp) = ordered at hrejected
            generalize Option.all _ nbf = started at hrejected
            generalize decide (iat ≤ saturate _) = issued at hrejected
            cases ordered <;> cases started <;> cases issued <;> simp at hrejected

end Checks

/-- The times of the process, from the epoch on, at which a token passes. -/
def acceptedTimes (document : AuthorityDocument) (claims : Claims) : Set Int :=
  {now | 0 ≤ now ∧ now < 2 ^ 63 ∧ checkTime document claims now = .ok ()}

section Accepted
variable {document : AuthorityDocument} {claims : Claims}

/-- The times are one interval: what is between two of them is one of them. -/
def OneInterval (times : Set Int) : Prop :=
  ∀ first ∈ times, ∀ last ∈ times, ∀ now, first ≤ now → now ≤ last → now ∈ times

theorem acceptedTimes_oneInterval (h : Allowance document) :
    OneInterval (acceptedTimes document claims) := by
  rintro first ⟨hfirst, hfirstMax, hfirstOk⟩ last ⟨hlast, hlastMax, hlastOk⟩ now hfrom hto
  obtain ⟨exp, iat, nbf, hclaims, -⟩ := (checkTime_eq_ok h).mp hfirstOk
  have hearly := (checkTime_iff_timely h hclaims hfirst hfirstMax).mp hfirstOk
  have hlate := (checkTime_iff_timely h hclaims hlast hlastMax).mp hlastOk
  have hnow : 0 ≤ now := hfirst.trans hfrom
  have hmax : now < 2 ^ 63 := hto.trans_lt hlastMax
  refine ⟨hnow, hmax, (checkTime_iff_timely h hclaims hnow hmax).mpr ?_⟩
  -- The lower bounds hold as they did at the first time, the upper ones as at the last.
  have hunexpired := hlate.unexpired
  have hissued := hearly.issued
  have hfresh := hlate.fresh
  refine ⟨hearly.ordered, by omega, fun start hs => ?_, by omega, by omega⟩
  have hstarted := hearly.started start hs
  omega

theorem not_accepted_again (h : Allowance document) {now later : Int}
    (hlater : now ≤ later) (hrejected : checkTime document claims now = .error .tokenExpired ∨
      checkTime document claims now = .error .tokenTooOld) :
    later ∉ acceptedTimes document claims := by
  rintro ⟨hpositive, hmax, hok⟩
  obtain ⟨exp, iat, nbf, hclaims, hcause⟩ := checkTime_rejected h hrejected
  have htimely := (checkTime_iff_timely h hclaims hpositive hmax).mp hok
  have hunexpired := htimely.unexpired
  have hfresh := htimely.fresh
  have hskew := h.skew
  have hage := h.age
  have hiat := numericClaim_isI64 hclaims.iat
  unfold IsI64 at hiat
  unfold saturate at hcause
  omega

end Accepted

/-- For a valid document the time checks are those of exact arithmetic. The times at which a token
passes form one interval, and a token that is expired or too old does not pass again. -/
theorem check_time_exact {parse : UrlParser} {document : AuthorityDocument}
    (hvalid : validateDocument parse document = .ok ()) (claims : Claims) :
    (∀ {exp iat : Int} {nbf : Option Int}, TimeClaims claims exp iat nbf →
      ∀ now, 0 ≤ now → now < 2 ^ 63 →
        (checkTime document claims now = .ok () ↔ Timely document exp iat nbf now)) ∧
    OneInterval (acceptedTimes document claims) ∧
    ∀ now later, now ≤ later →
      checkTime document claims now = .error .tokenExpired ∨
        checkTime document claims now = .error .tokenTooOld →
      later ∉ acceptedTimes document claims := by
  have hallowance := allowance_of_valid hvalid
  refine ⟨?_, acceptedTimes_oneInterval hallowance, ?_⟩
  · intro exp iat nbf hclaims now hnow hmax
    exact checkTime_iff_timely hallowance hclaims hnow hmax
  · intro now later hlater hrejected
    exact not_accepted_again hallowance hlater hrejected

/-! Two tenants of one resource. -/

def secureUrl (host path text : String) : Url where
  scheme := "https"
  username := ""
  password := none
  host := some host
  port := none
  path := path
  query := none
  fragment := none
  text := text
  origin := "https://" ++ host

/-- What the parser makes of the three URLs of the document. -/
def tenantUrls : UrlParser
  | "https://mcp.example.test/mcp" =>
    some (secureUrl "mcp.example.test" "/mcp" "https://mcp.example.test/mcp")
  | "https://identity.example.test" =>
    some (secureUrl "identity.example.test" "/" "https://identity.example.test/")
  | "https://agent.example.test" =>
    some (secureUrl "agent.example.test" "/" "https://agent.example.test/")
  | _ => none

def tenantDocument : AuthorityDocument where
  schemaVersion := "1"
  resource := "https://mcp.example.test/mcp"
  issuer := "https://identity.example.test"
  audience := "https://mcp.example.test/mcp"
  authorizationServers := ["https://identity.example.test"]
  scopesSupported := ["postgresem.query", "postgresem.mutate"]
  jwksPath := "jwks.json"
  principalHmacKeyPath := "principal.key"
  allowedTokenTypes := ["at+jwt", "application/at+jwt"]
  allowedAlgorithms := ["RS256", "ES256"]
  scopeClaims := ["scope", "scp"]
  clockSkewSeconds := 30
  maxTokenAgeSeconds := 3600
  allowedHosts := ["mcp.example.test"]
  allowedOrigins := ["https://agent.example.test"]
  queryScope := "postgresem.query"
  mutationScope := "postgresem.mutate"
  remoteMutationEnabled := true
  serverLimits :=
    { maxRequestBodyBytes := 1048576, maxTokenBytes := 16384, maxHeaderBytes := 32768,
      maxExecutionSeconds := 30, maxResultBytes := 1048576, maxConcurrentRequests := 64,
      maxPreAuthConcurrentRequests := 8, maxDatabaseConnections := 32, sseKeepaliveSeconds := 10,
      maxSseSeconds := 60 }
  principals :=
    [{ subject := "tenant-a-agent", authorityId := "tenant-a"
       queryRole := "postgresem_tenant_a", mutationRole := none
       allowedScopes := ["postgresem.query"]
       rateLimit := { requestsPerMinute := 60, burst := 10, maxConcurrent := 4 } },
     { subject := "tenant-b-agent", authorityId := "tenant-b"
       queryRole := "postgresem_tenant_b", mutationRole := some "postgresem_order_writer"
       allowedScopes := ["postgresem.query", "postgresem.mutate"]
       rateLimit := { requestsPerMinute := 30, burst := 5, maxConcurrent := 2 } }]

theorem tenantDocument_valid : validateDocument tenantUrls tenantDocument = .ok () := by
  decide +kernel

def tenantClaims (subject scope : String) : Claims :=
  [("iss", .string "https://identity.example.test"), ("aud", .string "https://mcp.example.test/mcp"),
   ("sub", .string subject), ("iat", .number "1699999990"), ("nbf", .number "1699999990"),
   ("exp", .number "1700000300"), ("scope", .string scope)]

/-- The last second of a token that is accepted, and the first at which it has expired. -/
theorem check_time_exact_tenant :
    TimeClaims (tenantClaims "tenant-a-agent" "postgresem.query") 1700000300 1699999990
        (some 1699999990) ∧
      (checkTime tenantDocument (tenantClaims "tenant-a-agent" "postgresem.query") 1700000329 =
          .ok () ↔
        Timely tenantDocument 1700000300 1699999990 (some 1699999990) 1700000329) ∧
      1700000400 ∉ acceptedTimes tenantDocument
        (tenantClaims "tenant-a-agent" "postgresem.query") := by
  have hclaims : TimeClaims (tenantClaims "tenant-a-agent" "postgresem.query") 1700000300
      1699999990 (some 1699999990) := ⟨by decide, by decide, by decide⟩
  obtain ⟨hexact, -, hagain⟩ := check_time_exact tenantDocument_valid
    (tenantClaims "tenant-a-agent" "postgresem.query")
  exact ⟨hclaims, hexact hclaims 1700000329 (by decide) (by decide),
    hagain 1700000330 1700000400 (by decide) (.inl (by decide))⟩

end Postgresem.Gateway
