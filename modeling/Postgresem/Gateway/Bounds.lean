import Postgresem.Gateway.Principal

/-! The authority of a request never exceeds the record of its principal. -/
namespace Postgresem.Gateway
open Control

/-- A claim carries a scope in one of its two encodings. -/
def Carries : Option Json.Value → String → Prop
  | some (.string value), scope => scope ∈ splitScopes value
  | some (.array values), scope => .string scope ∈ values
  | _, _ => False

/-- The scope claims of the document, together, carry a scope. -/
def TokenScope (document : AuthorityDocument) (claims : Claims) (scope : String) : Prop :=
  ∃ claim ∈ document.scopeClaims, Carries (claims.lookup claim) scope

/-- What the validation of a document says of each principal. -/
structure ValidPrincipal (document : AuthorityDocument) (principal : PrincipalConfig) : Prop where
  authorityId : isAuthorityId principal.authorityId = true
  queryRole : validateRole principal.queryRole = .ok ()
  mutationRole : ∀ role, principal.mutationRole = some role → validateRole role = .ok ()
  mutation : document.mutationScope ∈ principal.allowedScopes ↔ principal.mutationRole.isSome = true
  differs : principal.mutationRole ≠ some principal.queryRole

/-- What the loop over the principals has established of those it visited. -/
structure Visited (document : AuthorityDocument) (done : List PrincipalConfig) (seen : Seen) :
    Prop where
  subjects : seen.subjects = (done.map (·.subject)).toFinset
  authorityIds : seen.authorityIds = (done.map (·.authorityId)).toFinset
  subjectsNodup : (done.map (·.subject)).Nodup
  authorityIdsNodup : (done.map (·.authorityId)).Nodup
  valid : ∀ principal ∈ done, ValidPrincipal document principal

/-- One more name on a list of distinct names. -/
theorem nodup_snoc {α : Type} {names : List α} {name : α} (h : names.Nodup) (hname : name ∉ names) :
    (names ++ [name]).Nodup := by
  rw [List.nodup_append]
  refine ⟨h, by simp, ?_⟩
  rintro a ha b hb rfl
  rw [List.mem_singleton.mp hb] at ha
  exact hname ha

theorem validatePrincipal_ok {document : AuthorityDocument} {principal : PrincipalConfig}
    {seen seen' : Seen} (h : validatePrincipal document principal seen = .ok seen') :
    ValidPrincipal document principal ∧ principal.subject ∉ seen.subjects ∧
      principal.authorityId ∉ seen.authorityIds ∧
      seen'.subjects = insert principal.subject seen.subjects ∧
      seen'.authorityIds = insert principal.authorityId seen.authorityIds := by
  unfold validatePrincipal at h
  obtain ⟨_, _, h⟩ := bind_eq_ok.mp h
  obtain ⟨_, _, h⟩ := bind_eq_ok.mp h
  obtain ⟨_, hsubject, h⟩ := bind_eq_ok.mp h
  obtain ⟨_, hid, h⟩ := bind_eq_ok.mp h
  obtain ⟨_, hfresh, h⟩ := bind_eq_ok.mp h
  obtain ⟨_, hquery, h⟩ := bind_eq_ok.mp h
  obtain ⟨_, hmutation, h⟩ := bind_eq_ok.mp h
  obtain ⟨_, _, h⟩ := bind_eq_ok.mp h
  obtain ⟨_, _, h⟩ := bind_eq_ok.mp h
  obtain ⟨_, _, h⟩ := bind_eq_ok.mp h
  obtain ⟨_, hgrants, h⟩ := bind_eq_ok.mp h
  obtain ⟨_, hdiffers, h⟩ := bind_eq_ok.mp h
  obtain ⟨_, _, h⟩ := bind_eq_ok.mp h
  obtain rfl := Except.ok.inj h
  rw [ensure_eq_ok] at hsubject hid hfresh hgrants hdiffers
  have hiff : document.mutationScope ∈ principal.allowedScopes ↔
      principal.mutationRole.isSome = true := by
    rw [← List.contains_iff_mem, beq_iff_eq.mp hgrants]
  refine ⟨⟨hid, mapError_eq_ok.mp hquery, ?_, hiff, ?_⟩, by simpa using hsubject,
    by simpa using hfresh, rfl, rfl⟩
  · intro role hrole
    have hok := mapError_eq_ok.mp hmutation
    rw [hrole] at hok
    exact hok
  · intro hsame
    have hgranted := List.contains_iff_mem.mpr (hiff.mpr (by rw [hsame]; rfl))
    rw [hgranted, hsame] at hdiffers
    simp at hdiffers

theorem Visited.step {document : AuthorityDocument} {index : Nat} {principal : PrincipalConfig}
    {seen seen' : Seen} {done : List PrincipalConfig} (h : Visited document done seen)
    (hstep : (validatePrincipal document principal seen).mapError (·.at index) = .ok seen') :
    Visited document (done ++ [principal]) seen' := by
  obtain ⟨hvalid, hsubject, hid, hsubjects, hids⟩ :=
    validatePrincipal_ok (mapError_eq_ok.mp hstep)
  rw [h.subjects, List.mem_toFinset] at hsubject
  rw [h.authorityIds, List.mem_toFinset] at hid
  constructor
  · rw [hsubjects, h.subjects]
    ext name
    simp
  · rw [hids, h.authorityIds]
    ext name
    simp
  · rw [List.map_append]
    exact nodup_snoc h.subjectsNodup hsubject
  · rw [List.map_append]
    exact nodup_snoc h.authorityIdsNodup hid
  · intro other hother
    rcases List.mem_append.mp hother with hother | hother
    · exact h.valid other hother
    · rw [List.mem_singleton.mp hother]
      exact hvalid

theorem validateDocument_ok {parse : UrlParser} {document : AuthorityDocument}
    (h : validateDocument parse document = .ok ()) :
    ∃ seen, Visited document document.principals seen := by
  unfold validateDocument at h
  obtain ⟨_, _, h⟩ := bind_eq_ok.mp h
  unfold validatePrincipals at h
  obtain ⟨_, _, h⟩ := bind_eq_ok.mp h
  obtain ⟨seen, hvisit, _⟩ := bind_eq_ok.mp h
  have hnone : Visited document [] ⟨∅, ∅, false⟩ := by
    constructor <;> simp
  exact ⟨seen, visit_induction (P := Visited document) (fun hdone hstep => hdone.step hstep) hnone
    hvisit⟩

section Roles

theorem isWhitespace_of_alphanumeric {c : Char} (h : isAsciiAlphanumeric c = true) :
    isWhitespace c = false := by
  simp only [isAsciiAlphanumeric, isAsciiAlphabetic, Bool.or_eq_true, Bool.and_eq_true,
    decide_eq_true_eq, Char.le_def, UInt32.le_iff_toNat_le] at h
  have hnat : c.toNat = c.val.toNat := rfl
  simp only [isWhitespace, hnat]
  simp only [show ('a' : Char).val.toNat = 97 from rfl, show ('z' : Char).val.toNat = 122 from rfl,
    show ('A' : Char).val.toNat = 65 from rfl, show ('Z' : Char).val.toNat = 90 from rfl,
    show ('0' : Char).val.toNat = 48 from rfl, show ('9' : Char).val.toNat = 57 from rfl] at h
  simp only [Bool.or_eq_false_iff, Bool.and_eq_false_iff, decide_eq_false_iff_not, beq_eq_false_iff_ne]
  omega

theorem isBlank_of_authorityId {value : String} (h : isAuthorityId value = true) :
    isBlank value = false := by
  simp only [isAuthorityId, isName, Bool.and_eq_true] at h
  cases hchars : value.toList with
  | nil => simp [hchars] at h
  | cons c cs =>
    have hfirst : isAsciiAlphanumeric c = true := by
      simp only [hchars, Bool.and_eq_true] at h
      exact h.2.1
    simp [isBlank, hchars, isWhitespace_of_alphanumeric hfirst]

/-- A role that the document accepts is one the executors accept. -/
theorem validDatabaseRole_of_validateRole {role : String} (h : validateRole role = .ok ()) :
    validDatabaseRole role = true := by
  unfold validateRole at h
  obtain ⟨_, hsize, h⟩ := bind_eq_ok.mp h
  obtain ⟨first, hfirst, h⟩ := bind_eq_ok.mp h
  obtain ⟨_, hstart, h⟩ := bind_eq_ok.mp h
  obtain ⟨_, hrest, _⟩ := bind_eq_ok.mp h
  rw [ensure_eq_ok] at hsize hstart hrest
  rw [orError_eq_ok] at hfirst
  cases hchars : role.toList with
  | nil => simp [hchars] at hfirst
  | cons c cs =>
    rw [hchars, List.head?_cons, Option.some.injEq] at hfirst
    subst hfirst
    rw [hchars, List.tail_cons] at hrest
    have hbytes : role.utf8ByteSize ≤ 63 := by
      simp only [Bool.and_eq_true, decide_eq_true_eq] at hsize
      exact hsize.2
    have hletter : ('A' ≤ c && c ≤ 'Z' || 'a' ≤ c && c ≤ 'z' || c == '_') = true := by
      simp only [isAsciiAlphabetic, Bool.or_eq_true] at hstart ⊢
      tauto
    simp only [validDatabaseRole, validEnvironmentVariableName, hchars, Bool.and_eq_true,
      decide_eq_true_eq]
    exact ⟨hbytes, hletter, hrest⟩

theorem isBlank_pseudonym (key : List UInt8) (issuer subject : String) :
    isBlank (pseudonym key issuer subject) = false := by
  have hprinted : (Base64.alphabet.all fun c => !isWhitespace c) = true := by decide
  have halphabet : ∀ c ∈ Base64.alphabet, isWhitespace c = false := by simpa using hprinted
  unfold pseudonym Base64.encode isBlank
  rw [String.toList_ofList]
  set bytes := ((Hmac.sha256 key (bytesOf pseudonymDomain ++ lengthPrefixed issuer
    ++ lengthPrefixed subject)).toList).map UInt8.toNat with hbytes
  have hne : bytes ≠ [] := by
    intro hnil
    have hlength := congrArg List.length hnil
    simp [hbytes] at hlength
  obtain ⟨c, hc⟩ := List.exists_mem_of_ne_nil _ (Base64.encodeChars_ne_nil hne)
  rw [List.all_eq_false]
  exact ⟨c, hc, by rw [halphabet c (Base64.encodeChars_mem hc)]; decide⟩

end Roles

section Scopes
variable {document : AuthorityDocument} {claims : Claims}

/-- An item that is read as a scope is the string of it. -/
theorem scopeItem_ok {item : Json.Value} {token : String} (h : scopeItem item = .ok token) :
    item = .string token := by
  cases item with
  | string text =>
    simp only [scopeItem] at h
    split_ifs at h
    rw [Except.ok.inj h]
  | _ => cases h

theorem claimScopes_ok {value : Option Json.Value} {carried : List String}
    (h : claimScopes value = .ok carried) (scope : String) :
    scope ∈ carried ↔ Carries value scope := by
  match value, h with
  | none, h => cases h; simp [Carries]
  | some .null, h => cases h; simp [Carries]
  | some (.boolean _), h => cases h
  | some (.number _), h => cases h
  | some (.object _), h => cases h
  | some (.string text), h =>
    obtain ⟨_, _, h⟩ := bind_eq_ok.mp h
    cases h
    rfl
  | some (.array values), h =>
    obtain ⟨_, _, h⟩ := bind_eq_ok.mp h
    have hitems := mapM_eq_ok_iff.mp h
    constructor
    · intro hscope
      obtain ⟨item, hmem, hok⟩ := exists_left_of_forall₂ hitems hscope
      rw [scopeItem_ok hok] at hmem
      exact hmem
    · intro hmem
      obtain ⟨token, htoken, hok⟩ := exists_right_of_forall₂ hitems hmem
      rw [Json.Value.string.inj (scopeItem_ok hok)]
      exact htoken

theorem collectScopes_ok {scopes : Finset String} (h : collectScopes document claims = .ok scopes)
    (scope : String) : scope ∈ scopes ↔ TokenScope document claims scope := by
  have hnone : ∀ scope, scope ∈ (∅ : Finset String) ↔
      ∃ claim ∈ ([] : List String), Carries (claims.lookup claim) scope := by simp
  have hall := visit_induction
    (P := fun done (scopes : Finset String) => ∀ scope, scope ∈ scopes ↔
      ∃ claim ∈ done, Carries (claims.lookup claim) scope) ?_ hnone h
  · exact hall scope
  · intro index claim seen next done hdone hstep name
    obtain ⟨carried, hcarried, hstep⟩ := bind_eq_ok.mp hstep
    obtain ⟨_, _, hstep⟩ := bind_eq_ok.mp hstep
    obtain rfl := Except.ok.inj hstep
    rw [Finset.mem_union, hdone, List.mem_toFinset, claimScopes_ok hcarried]
    simp [or_and_right, exists_or]

end Scopes

section Grants
variable {parse : UrlParser} {κ : Type} {authority : Authority parse κ} {claims : Claims} {now : Int}
  {principal : AuthenticatedPrincipal}

/-- A principal that authenticated has what its record and its token share. -/
structure Granted (document : AuthorityDocument) (claims : Claims) (record : PrincipalConfig)
    (principal : AuthenticatedPrincipal) : Prop where
  subject : claims.lookup "sub" = some (.string record.subject)
  scopes : ∀ scope, scope ∈ principal.grantedScopes ↔
    TokenScope document claims scope ∧ scope ∈ record.allowedScopes
  authorityId : principal.authorityId = record.authorityId
  queryRole : principal.queryRole = record.queryRole
  mutationRole : principal.mutationRole =
    if document.remoteMutationEnabled = true ∧ document.mutationScope ∈ principal.grantedScopes then
      record.mutationRole
    else none
  notBlank : isBlank principal.auditPseudonym = false

theorem boundedString_ok {value : Option Json.Value} {max : Nat} {text : String}
    (h : boundedString value max = .ok text) : value = some (.string text) := by
  unfold boundedString at h
  split at h
  next found =>
    obtain ⟨_, _, h⟩ := bind_eq_ok.mp h
    rw [Except.ok.inj h]
  next => cases h

theorem principals_lookup {subject : String} {record : PrincipalConfig}
    (h : authority.principals.lookup subject = some record) :
    record ∈ authority.document.principals ∧ record.subject = subject := by
  rw [Authority.principals, OrderedMap.lookup_collect] at h
  simpa using List.mem_of_getLast? h

theorem grant_ok (h : authority.grant claims now = .ok principal) :
    ∃ record ∈ authority.document.principals,
      Granted authority.document claims record principal := by
  unfold Authority.grant at h
  simp only at h
  obtain ⟨_, _, h⟩ := bind_eq_ok.mp h
  obtain ⟨_, _, h⟩ := bind_eq_ok.mp h
  obtain ⟨_, _, h⟩ := bind_eq_ok.mp h
  obtain ⟨_, _, h⟩ := bind_eq_ok.mp h
  obtain ⟨subject, hsubject, h⟩ := bind_eq_ok.mp h
  obtain ⟨scopes, hscopes, h⟩ := bind_eq_ok.mp h
  obtain ⟨record, hrecord, h⟩ := bind_eq_ok.mp h
  obtain ⟨_, _, h⟩ := bind_eq_ok.mp h
  obtain rfl := Except.ok.inj h
  obtain ⟨hmem, rfl⟩ := principals_lookup (orError_eq_ok.mp hrecord)
  refine ⟨record, hmem, boundedString_ok hsubject, fun scope => ?_, rfl, rfl, ?_,
    isBlank_pseudonym _ _ _⟩
  · simp only [PrincipalConfig.record, Finset.mem_inter, List.mem_toFinset,
      collectScopes_ok hscopes, and_comm]
  · exact if_congr (by simp only [Bool.and_eq_true, decide_eq_true_eq]) rfl rfl

/-- Two records of a valid document with one subject are one record, and so with one authority id. -/
theorem record_unique (authority : Authority parse κ) {a b : PrincipalConfig}
    (ha : a ∈ authority.document.principals) (hb : b ∈ authority.document.principals) :
    (a.subject = b.subject → a = b) ∧ (a.authorityId = b.authorityId → a = b) := by
  obtain ⟨seen, hvisited⟩ := validateDocument_ok authority.valid
  exact ⟨fun h => List.inj_on_of_nodup_map hvisited.subjectsNodup ha hb h,
    fun h => List.inj_on_of_nodup_map hvisited.authorityIdsNodup ha hb h⟩

theorem record_valid (authority : Authority parse κ) {record : PrincipalConfig}
    (h : record ∈ authority.document.principals) : ValidPrincipal authority.document record := by
  obtain ⟨seen, hvisited⟩ := validateDocument_ok authority.valid
  exact hvisited.valid record h

/-- The mutation role, if there is one, is that of the record, and not its query role. -/
theorem Granted.mutationRole_some {document : AuthorityDocument} {record : PrincipalConfig}
    (h : Granted document claims record principal) (hvalid : ValidPrincipal document record)
    {role : String} (hrole : principal.mutationRole = some role) :
    record.mutationRole = some role ∧ role ≠ principal.queryRole := by
  rw [h.mutationRole] at hrole
  split_ifs at hrole
  refine ⟨hrole, fun hsame => hvalid.differs ?_⟩
  rw [hrole, hsame, h.queryRole]

end Grants

section Servers
variable {parse : UrlParser} {κ : Type} {state : HttpState parse κ} {claims : Claims}
  {record : PrincipalConfig} {principal : AuthenticatedPrincipal}

/-- A server works with the roles of the record, and has a mutation executor exactly when mutation is
enabled, configured and granted. -/
structure Served (state : HttpState parse κ) (claims : Claims) (record : PrincipalConfig)
    (server : McpServer) : Prop where
  queryRole : server.executor.databaseRole = record.queryRole
  mutationRole : ∀ config, server.mutationExecutor = some config →
    record.mutationRole = some config.databaseRole
  authorityId : server.executionContext.authorityId = record.authorityId
  mutation : server.mutationExecutor.isSome = true ↔ state.mutationBase.isSome = true ∧
    state.authority.document.remoteMutationEnabled = true ∧
    TokenScope state.authority.document claims state.authority.document.mutationScope ∧
    state.authority.document.mutationScope ∈ record.allowedScopes

theorem withDatabaseRole_of_valid (config : ExecutorConfig) {role : String}
    (h : validateRole role = .ok ()) :
    ∃ changed, config.withDatabaseRole role = some changed ∧ changed.databaseRole = role :=
  ⟨_, by rw [ExecutorConfig.withDatabaseRole, if_pos (validDatabaseRole_of_validateRole h)], rfl⟩

theorem newWithAuthority_of_valid {pseudonym authorityId : String}
    (hpseudonym : isBlank pseudonym = false) (hid : isAuthorityId authorityId = true) :
    ∃ context, ExecutionContext.newWithAuthority pseudonym "mcp-http" authorityId = some context ∧
      context.authorityId = authorityId := by
  have hblank : isBlank pseudonym = false ∧ isBlank "mcp-http" = false ∧
      isBlank authorityId = false := ⟨hpseudonym, by decide, isBlank_of_authorityId hid⟩
  exact ⟨_, by rw [ExecutionContext.newWithAuthority, dif_pos hblank], rfl⟩

theorem serverForPrincipal_ok (h : Granted state.authority.document claims record principal)
    (hvalid : ValidPrincipal state.authority.document record) :
    ∃ server, serverForPrincipal state principal = .ok server ∧ Served state claims record server := by
  obtain ⟨context, hcontext, hid⟩ := newWithAuthority_of_valid h.notBlank hvalid.authorityId
  obtain ⟨query, hquery, hqueryRole⟩ := withDatabaseRole_of_valid state.queryBase hvalid.queryRole
  rw [← h.queryRole] at hquery
  rw [← h.authorityId] at hcontext
  have hscope := h.scopes state.authority.document.mutationScope
  by_cases hgranted : state.authority.document.remoteMutationEnabled = true ∧
      state.authority.document.mutationScope ∈ principal.grantedScopes
  · -- The record of a principal that may mutate has a mutation role.
    obtain ⟨role, hrole⟩ := Option.isSome_iff_exists.mp
      (hvalid.mutation.mp (hscope.mp hgranted.2).2)
    have hprincipal : principal.mutationRole = some role := by
      rw [h.mutationRole, if_pos hgranted, hrole]
    have hif : (state.authority.document.remoteMutationEnabled &&
        decide (state.authority.document.mutationScope ∈ principal.grantedScopes)) = true := by
      rw [hgranted.1, decide_eq_true hgranted.2]
      rfl
    cases hbase : state.mutationBase with
    | none =>
      refine ⟨⟨state.project, query, none, context⟩, ?_, ⟨hqueryRole, nofun, hid, ?_⟩⟩
      · simp only [serverForPrincipal, hquery, orError_some, ok_bind, if_pos hif, hbase, hprincipal,
          hcontext]
      · simp [hbase]
    | some base =>
      obtain ⟨mutation, hmutation, hmutationRole⟩ :=
        withDatabaseRole_of_valid base (hvalid.mutationRole role hrole)
      refine ⟨⟨state.project, query, some mutation, context⟩, ?_, ⟨hqueryRole, ?_, hid, ?_⟩⟩
      · simp only [serverForPrincipal, hquery, orError_some, ok_bind, if_pos hif, hbase, hprincipal,
          hmutation, map_ok, hcontext]
      · rintro config hconfig
        rw [← Option.some.inj hconfig, hmutationRole]
        exact hrole
      · simp [hbase, hgranted.1, hscope.mp hgranted.2]
  · have hif : ¬ (state.authority.document.remoteMutationEnabled &&
        decide (state.authority.document.mutationScope ∈ principal.grantedScopes)) = true := by
      simpa only [Bool.and_eq_true, decide_eq_true_eq] using hgranted
    refine ⟨⟨state.project, query, none, context⟩, ?_, ⟨hqueryRole, nofun, hid, ?_⟩⟩
    · simp only [serverForPrincipal, hquery, orError_some, ok_bind, if_neg hif, hcontext]
    · constructor
      · intro hsome
        cases hsome
      · rintro ⟨_, henabled, htoken, hallowed⟩
        exact absurd ⟨henabled, hscope.mpr ⟨htoken, hallowed⟩⟩ hgranted

end Servers

end Postgresem.Gateway
