import Postgresem.Catalog.Serialization
import Postgresem.Semantic.Evaluation

/-! What the fingerprint vouches for. Two catalogs with the same evidence, in whatever order their
scans listed it, have one canonical form; with the fingerprint of one, a catalog of other evidence
is rejected. -/
namespace Postgresem
open Control Sorting

/-! ## Unique keys -/

structure CatalogRelation.UniqueKeys (relation : CatalogRelation) : Prop where
  columns : UniqueOn CatalogColumn.sortKey relation.columns
  constraints : UniqueOn constraintSortKey relation.constraints
  policies : UniqueOn RowLevelSecurityPolicy.sortKey relation.policies

structure CatalogSnapshot.UniqueKeys (catalog : CatalogSnapshot) : Prop where
  functions : UniqueOn CatalogFunction.sortKey catalog.functions
  relations : UniqueOn CatalogRelation.sortKey catalog.relations
  each : ∀ relation ∈ catalog.relations, relation.UniqueKeys

/-! ## Evidence without order -/

structure CatalogRoleContext.SameEvidence (context other : CatalogRoleContext) : Prop where
  inherit : context.inherit = other.inherit
  superuser : context.superuser = other.superuser
  bypassRls : context.bypassRls = other.bypassRls
  effectiveRoles : ∀ role, role ∈ context.effectiveRoles ↔ role ∈ other.effectiveRoles
  settableRoles : ∀ role, role ∈ context.settableRoles ↔ role ∈ other.settableRoles

structure CatalogFunction.SameEvidence (function other : CatalogFunction) : Prop where
  schema : function.schema = other.schema
  name : function.name = other.name
  identityArguments : function.identityArguments = other.identityArguments
  kind : function.kind = other.kind
  definitionHash : function.definitionHash = other.definitionHash
  owner : function.owner = other.owner
  ownerAuthorization : Option.Rel CatalogRoleContext.SameEvidence function.ownerAuthorization
    other.ownerAuthorization
  grants : ∀ grant, grant ∈ function.grants ↔ grant ∈ other.grants

structure CatalogView.SameEvidence (view other : CatalogView) : Prop where
  definitionHash : view.definitionHash = other.definitionHash
  securityInvoker : view.securityInvoker = other.securityInvoker
  securityBarrier : view.securityBarrier = other.securityBarrier
  ownerAuthorization : Option.Rel CatalogRoleContext.SameEvidence view.ownerAuthorization
    other.ownerAuthorization

/-- The roles of a policy are not a set: a repeated role counts. -/
structure RowLevelSecurityPolicy.SameEvidence (policy other : RowLevelSecurityPolicy) : Prop where
  name : policy.name = other.name
  command : policy.command = other.command
  permissive : policy.permissive = other.permissive
  roles : policy.roles.Perm other.roles
  usingExpressionHash : policy.usingExpressionHash = other.usingExpressionHash
  withCheckExpressionHash : policy.withCheckExpressionHash = other.withCheckExpressionHash

structure CatalogRelation.SameEvidence (relation other : CatalogRelation) : Prop where
  schema : relation.schema = other.schema
  name : relation.name = other.name
  kind : relation.kind = other.kind
  owner : relation.owner = other.owner
  view : Option.Rel CatalogView.SameEvidence relation.view other.view
  comment : relation.comment = other.comment
  grants : relation.grants = other.grants
  rls : relation.rls = other.rls
  columns : relation.columns.Perm other.columns
  constraints : relation.constraints.Perm other.constraints
  policies : Reordered RowLevelSecurityPolicy.SameEvidence relation.policies other.policies

structure CatalogSnapshot.SameEvidence (catalog other : CatalogSnapshot) : Prop where
  schemaVersion : catalog.schemaVersion = other.schemaVersion
  serverVersionNum : catalog.serverVersionNum = other.serverVersionNum
  currentDatabase : catalog.currentDatabase = other.currentDatabase
  currentRole : catalog.currentRole = other.currentRole
  roleContext : catalog.roleContext.SameEvidence other.roleContext
  roleGraphFingerprint : catalog.roleGraphFingerprint = other.roleGraphFingerprint
  objectPrivilegeFingerprint :
    catalog.objectPrivilegeFingerprint = other.objectPrivilegeFingerprint
  functions : Reordered CatalogFunction.SameEvidence catalog.functions other.functions
  relations : Reordered CatalogRelation.SameEvidence catalog.relations other.relations

/-! ## Equal evidence is equal canonical forms -/

theorem optionRel_iff_map_eq {α β : Type} {R : α → α → Prop} {f : α → β}
    (h : ∀ a b, f a = f b ↔ R a b) (value other : Option α) :
    value.map f = other.map f ↔ Option.Rel R value other := by
  cases value <;> cases other <;> simp [h]

theorem CatalogRoleContext.normalize_eq_iff (context other : CatalogRoleContext) :
    context.normalize = other.normalize ↔ context.SameEvidence other := by
  have hroles : ∀ roles roles' : List String,
      distinctOn (fun role => role) roles = distinctOn (fun role => role) roles' ↔
        ∀ role, role ∈ roles ↔ role ∈ roles' :=
    fun _ _ => distinctOn_eq_iff (.of_injective Function.injective_id _)
      (.of_injective Function.injective_id _)
  simp only [CatalogRoleContext.normalize, CatalogRoleContext.mk.injEq, hroles]
  exact ⟨fun ⟨a, b, c, d, e⟩ => ⟨a, b, c, d, e⟩, fun ⟨a, b, c, d, e⟩ => ⟨a, b, c, d, e⟩⟩

theorem CatalogFunctionGrant.sortKey_injective : CatalogFunctionGrant.sortKey.Injective := by
  rintro ⟨grantor, grantee, grantable⟩ ⟨grantor', grantee', grantable'⟩ h
  have hpair := Prod.mk.inj (toLex.injective h)
  have hrest := Prod.mk.inj (toLex.injective hpair.2)
  rw [CatalogFunctionGrant.mk.injEq]
  exact ⟨hrest.1, hpair.1, hrest.2⟩

theorem CatalogFunction.normalize_eq_iff (function other : CatalogFunction) :
    function.normalize = other.normalize ↔ function.SameEvidence other := by
  have hgrants : ∀ grants grants' : List CatalogFunctionGrant,
      distinctOn CatalogFunctionGrant.sortKey grants =
          distinctOn CatalogFunctionGrant.sortKey grants' ↔
        ∀ grant, grant ∈ grants ↔ grant ∈ grants' :=
    fun _ _ => distinctOn_eq_iff (.of_injective CatalogFunctionGrant.sortKey_injective _)
      (.of_injective CatalogFunctionGrant.sortKey_injective _)
  simp only [CatalogFunction.normalize, CatalogFunction.mk.injEq, hgrants,
    optionRel_iff_map_eq CatalogRoleContext.normalize_eq_iff]
  exact ⟨fun ⟨a, b, c, d, e, f, g, h⟩ => ⟨a, b, c, d, e, f, g, h⟩,
    fun ⟨a, b, c, d, e, f, g, h⟩ => ⟨a, b, c, d, e, f, g, h⟩⟩

theorem CatalogView.normalize_eq_iff (view other : CatalogView) :
    view.normalize = other.normalize ↔ view.SameEvidence other := by
  simp only [CatalogView.normalize, CatalogView.mk.injEq,
    optionRel_iff_map_eq CatalogRoleContext.normalize_eq_iff]
  exact ⟨fun ⟨a, b, c, d⟩ => ⟨a, b, c, d⟩, fun ⟨a, b, c, d⟩ => ⟨a, b, c, d⟩⟩

theorem RowLevelSecurityPolicy.normalize_eq_iff (policy other : RowLevelSecurityPolicy) :
    policy.normalize = other.normalize ↔ policy.SameEvidence other := by
  have hroles : sortOn (fun role => role) policy.roles = sortOn (fun role => role) other.roles ↔
      policy.roles.Perm other.roles :=
    sortOn_eq_iff (UniqueOn.of_injective Function.injective_id _)
  simp only [RowLevelSecurityPolicy.normalize, RowLevelSecurityPolicy.mk.injEq, hroles]
  exact ⟨fun ⟨a, b, c, d, e, f⟩ => ⟨a, b, c, d, e, f⟩, fun ⟨a, b, c, d, e, f⟩ => ⟨a, b, c, d, e, f⟩⟩

/-- Sorting normalized elements forgets the order of the elements and nothing else. -/
theorem sortOn_map_eq_iff {α κ : Type} [LinearOrder κ] (key : α → κ) (normalize : α → α)
    {R : α → α → Prop} (hkey : ∀ a, key (normalize a) = key a) {items : List α} (others : List α)
    (hunique : UniqueOn key items) (h : ∀ a ∈ items, ∀ b, normalize a = normalize b ↔ R a b) :
    sortOn key (items.map normalize) = sortOn key (others.map normalize) ↔
      Reordered R items others := by
  rw [sortOn_eq_iff (hunique.map hkey), ← reordered_iff_perm_map]
  exact Reordered.congr h

theorem CatalogRelation.normalize_eq_iff {relation : CatalogRelation}
    (hunique : relation.UniqueKeys) (other : CatalogRelation) :
    relation.normalize = other.normalize ↔ relation.SameEvidence other := by
  have hpolicies := sortOn_map_eq_iff RowLevelSecurityPolicy.sortKey
    RowLevelSecurityPolicy.normalize (fun _ => rfl) other.policies hunique.policies fun policy _ => RowLevelSecurityPolicy.normalize_eq_iff policy
  simp only [CatalogRelation.normalize, CatalogRelation.mk.injEq, hpolicies,
    optionRel_iff_map_eq CatalogView.normalize_eq_iff, sortOn_eq_iff hunique.columns,
    sortOn_eq_iff hunique.constraints]
  exact ⟨fun ⟨a, b, c, d, e, f, g, h, i, j, k⟩ => ⟨a, b, c, d, e, f, g, h, i, j, k⟩,
    fun ⟨a, b, c, d, e, f, g, h, i, j, k⟩ => ⟨a, b, c, d, e, f, g, h, i, j, k⟩⟩

theorem CatalogSnapshot.normalize_eq_iff {catalog : CatalogSnapshot}
    (hunique : catalog.UniqueKeys) (other : CatalogSnapshot) :
    catalog.normalize = other.normalize ↔
      catalog.SameEvidence other ∧ catalog.fingerprint = other.fingerprint := by
  have hfunctions := sortOn_map_eq_iff CatalogFunction.sortKey CatalogFunction.normalize
    (fun _ => rfl) other.functions hunique.functions fun function _ => CatalogFunction.normalize_eq_iff function
  have hrelations := sortOn_map_eq_iff CatalogRelation.sortKey CatalogRelation.normalize
    (fun _ => rfl) other.relations hunique.relations fun relation hmem => CatalogRelation.normalize_eq_iff (hunique.each _ hmem)
  simp only [CatalogSnapshot.normalize, CatalogSnapshot.mk.injEq, hfunctions, hrelations,
    CatalogRoleContext.normalize_eq_iff]
  exact ⟨fun ⟨a, b, c, d, e, f, g, h, i, j⟩ => ⟨⟨a, b, c, d, e, f, g, h, i⟩, j⟩,
    fun ⟨⟨a, b, c, d, e, f, g, h, i⟩, j⟩ => ⟨a, b, c, d, e, f, g, h, i, j⟩⟩

/-! ## The canonical form is its own canonical form -/

theorem sortOn_map_idem {α κ : Type} [LinearOrder κ] (key : α → κ) {normalize : α → α}
    (h : ∀ a, normalize (normalize a) = normalize a) (items : List α) :
    sortOn key ((sortOn key (items.map normalize)).map normalize) =
      sortOn key (items.map normalize) := by
  have hfixed : ∀ a ∈ sortOn key (items.map normalize), normalize a = id a := by
    intro a ha
    obtain ⟨b, -, rfl⟩ := List.mem_map.mp ((mem_sortOn key).mp ha)
    exact h b
  rw [List.map_congr_left hfixed, List.map_id, sortOn_idem]

theorem CatalogRoleContext.normalize_idem (context : CatalogRoleContext) :
    context.normalize.normalize = context.normalize := by
  rw [CatalogRoleContext.normalize_eq_iff]
  exact ⟨rfl, rfl, rfl, fun _ => mem_distinctOn (.of_injective Function.injective_id _),
    fun _ => mem_distinctOn (.of_injective Function.injective_id _)⟩

theorem optionMap_idem {α : Type} {normalize : α → α}
    (h : ∀ a, normalize (normalize a) = normalize a) (value : Option α) :
    (value.map normalize).map normalize = value.map normalize := by
  cases value with
  | none => rfl
  | some a => exact congrArg some (h a)

theorem CatalogFunction.normalize_idem (function : CatalogFunction) :
    function.normalize.normalize = function.normalize := by
  simp only [CatalogFunction.normalize, optionMap_idem CatalogRoleContext.normalize_idem,
    distinctOn_idem (UniqueOn.of_injective CatalogFunctionGrant.sortKey_injective _)]

theorem CatalogView.normalize_idem (view : CatalogView) :
    view.normalize.normalize = view.normalize := by
  simp only [CatalogView.normalize, optionMap_idem CatalogRoleContext.normalize_idem]

theorem RowLevelSecurityPolicy.normalize_idem (policy : RowLevelSecurityPolicy) :
    policy.normalize.normalize = policy.normalize := by
  simp only [RowLevelSecurityPolicy.normalize, sortOn_idem]

theorem CatalogRelation.normalize_idem (relation : CatalogRelation) :
    relation.normalize.normalize = relation.normalize := by
  simp only [CatalogRelation.normalize, optionMap_idem CatalogView.normalize_idem, sortOn_idem,
    sortOn_map_idem _ RowLevelSecurityPolicy.normalize_idem]

theorem CatalogSnapshot.normalize_idem (catalog : CatalogSnapshot) :
    catalog.normalize.normalize = catalog.normalize := by
  simp only [CatalogSnapshot.normalize, CatalogRoleContext.normalize_idem,
    sortOn_map_idem _ CatalogFunction.normalize_idem,
    sortOn_map_idem _ CatalogRelation.normalize_idem]

/-! ## Acceptance -/

theorem eq_of_calculateFingerprint_eq {backend : CatalogBackend} (hfaithful : backend.Faithful)
    {catalog other : CatalogSnapshot} {fingerprint : String}
    (hcatalog : catalog.calculateFingerprint backend = .ok fingerprint)
    (hother : other.calculateFingerprint backend = .ok fingerprint)
    (hseparates : backend.Separates catalog other)
    (hcarried : catalog.fingerprint = other.fingerprint) : catalog = other := by
  simp only [CatalogSnapshot.calculateFingerprint, bind_eq_ok, orError_eq_ok,
    Except.ok.injEq] at hcatalog hother
  obtain ⟨bytes, hbytes, hhash⟩ := hcatalog
  obtain ⟨bytes', hbytes', hhash'⟩ := hother
  have hdigest := HashBackend.digest_eq_of_sha256_eq (hhash.trans hhash'.symm)
  have hsame := hseparates bytes bytes' hbytes hbytes' hdigest
  subst hsame
  have hcleared := hfaithful _ _ bytes hbytes hbytes'
  simp only [CatalogSnapshot.mk.injEq] at hcleared
  obtain ⟨a, b, c, d, e, f, g, h, i, -⟩ := hcleared
  cases catalog
  cases other
  rw [CatalogSnapshot.mk.injEq]
  exact ⟨a, b, c, d, e, f, g, h, i, hcarried⟩

/-- Catalogs of different fingerprints are told apart. -/
theorem separates_of_fingerprint_ne {backend : CatalogBackend} {catalog other : CatalogSnapshot}
    {fingerprint fingerprint' : String}
    (hcatalog : catalog.calculateFingerprint backend = .ok fingerprint)
    (hother : other.calculateFingerprint backend = .ok fingerprint')
    (hne : fingerprint ≠ fingerprint') : backend.Separates catalog other := by
  intro bytes bytes' hbytes hbytes' hdigest
  simp only [CatalogSnapshot.calculateFingerprint, hbytes, hbytes', orError_some, ok_bind,
    Except.ok.injEq] at hcatalog hother
  refine absurd ?_ hne
  rw [← hcatalog, ← hother, HashBackend.sha256, hdigest, HashBackend.sha256]

/-- Normalization is idempotent, and with the fingerprint of an accepted catalog exactly the
catalogs of the same evidence are accepted, all with the one canonical form. -/
theorem fingerprint_fixes_evidence {backend : CatalogBackend} (hfaithful : backend.Faithful)
    {catalog : CatalogSnapshot} (hunique : catalog.UniqueKeys) :
    catalog.normalize.normalize = catalog.normalize ∧
      ∀ canonical, catalog.validatedNormalized backend = .ok canonical →
        ∀ other : CatalogSnapshot, other.fingerprint = catalog.fingerprint →
          (catalog.SameEvidence other → other.validatedNormalized backend = .ok canonical) ∧
          (¬ catalog.SameEvidence other →
            backend.Separates catalog.normalize other.normalize →
              ∃ error, other.validatedNormalized backend = .error error) := by
  refine ⟨catalog.normalize_idem, fun canonical haccepted other hcarried => ?_⟩
  obtain ⟨hversion, hfingerprint, rfl⟩ := validatedNormalized_eq_ok.mp haccepted
  have hsame := CatalogSnapshot.normalize_eq_iff hunique other
  constructor
  · intro hevidence
    have hcanonical := hsame.mpr ⟨hevidence, hcarried.symm⟩
    rw [validatedNormalized_eq_ok, ← hcanonical, hcarried, ← hevidence.schemaVersion]
    exact ⟨hversion, hfingerprint, rfl⟩
  · intro hevidence hseparates
    cases hresult : other.validatedNormalized backend with
    | error error => exact ⟨error, rfl⟩
    | ok canonical =>
      obtain ⟨-, hfingerprint', -⟩ := validatedNormalized_eq_ok.mp hresult
      rw [hcarried] at hfingerprint'
      have hcanonical := eq_of_calculateFingerprint_eq hfaithful hfingerprint hfingerprint'
        hseparates hcarried.symm
      exact absurd (hsame.mp hcanonical).1 hevidence

/-! ## A catalog -/

def analystRoles : CatalogRoleContext :=
  { inherit := true, superuser := false, bypassRls := false
    effectiveRoles := ["analyst", "reader"], settableRoles := ["analyst"] }

def idColumn : CatalogColumn :=
  { name := "id", ordinal := 1, dataType := "bigint", nullable := false, comment := none
    selectGrant := true }

def scannedRelation (name : String) (comment : Option String) : CatalogRelation :=
  { schema := "public", name := name, kind := .table, owner := "owner", view := none
    comment := comment
    grants := { schemaUsage := true, tableSelect := true, anyColumnSelect := true }
    rls := { enabled := true, forced := false }, columns := [idColumn]
    constraints := [.primaryKey "pkey" ["id"] true false false false true]
    policies := [{ name := "own", command := .select, permissive := true
                   roles := ["analyst", "reader"], usingExpressionHash := some "sha256:1"
                   withCheckExpressionHash := none }] }

def scannedCatalog : CatalogSnapshot :=
  { schemaVersion := "2", serverVersionNum := 170000, currentDatabase := "shop"
    currentRole := "analyst", roleContext := analystRoles, roleGraphFingerprint := "sha256:2"
    objectPrivilegeFingerprint := "sha256:3", functions := []
    relations := [scannedRelation "customers" none, scannedRelation "orders" none]
    fingerprint := "sha256:a2ce7c376b11d37bf36dc69fac3dd607dbe06580d90d65245c72827d2122d571" }

def rescannedCatalog : CatalogSnapshot :=
  { scannedCatalog with
    roleContext := { analystRoles with effectiveRoles := ["reader", "analyst", "reader"] }
    relations := [scannedRelation "orders" none, scannedRelation "customers" none] }

def commentedCatalog : CatalogSnapshot :=
  { scannedCatalog with
    relations := [scannedRelation "customers" (some "all"), scannedRelation "orders" none] }

theorem calculateFingerprint_standard (catalog : CatalogSnapshot) :
    catalog.calculateFingerprint standardCatalog =
      .ok (standardHash.sha256 ({ catalog with fingerprint := "" }.toValue.emit [])) := by
  rw [← bytesOf_text]
  rfl

theorem validatedNormalized_of_codes {catalog : CatalogSnapshot}
    (hversion : catalog.schemaVersion = catalogSnapshotSchemaVersion)
    (h : hashCodes ({ catalog.normalize with fingerprint := "" }.toValue.emit []) =
      (Utf8.bytes catalog.fingerprint).map UInt8.toNat) :
    catalog.validatedNormalized standardCatalog = .ok catalog.normalize := by
  apply validatedNormalized_eq_ok.mpr
  refine ⟨hversion, ?_, rfl⟩
  rw [calculateFingerprint_standard, sha256_of_codes h]

theorem scannedCatalog_accepted :
    scannedCatalog.validatedNormalized standardCatalog = .ok scannedCatalog.normalize := by
  apply validatedNormalized_of_codes rfl
  decide +kernel

theorem scannedCatalog_uniqueKeys : scannedCatalog.UniqueKeys where
  functions := .of_nodup (by decide)
  relations := .of_nodup (by decide)
  each := by
    intro relation hmem
    simp only [scannedCatalog, List.mem_cons, List.not_mem_nil, or_false] at hmem
    rcases hmem with rfl | rfl <;>
      exact ⟨.of_nodup (by decide), .of_nodup (by decide), .of_nodup (by decide)⟩

/-- A rescan in another order has the canonical form of the first scan; with a comment added, the
fingerprint is refused. -/
theorem fingerprint_fixes_evidence_shop : ∃ canonical,
    scannedCatalog.validatedNormalized standardCatalog = .ok canonical ∧
      rescannedCatalog.validatedNormalized standardCatalog = .ok canonical ∧
      ∃ error, commentedCatalog.validatedNormalized standardCatalog = .error error := by
  have haccepted := scannedCatalog_accepted
  have hunique := scannedCatalog_uniqueKeys
  have hfixed := (fingerprint_fixes_evidence standardCatalog_faithful hunique).2 _ haccepted
  have hrescanned : scannedCatalog.normalize = rescannedCatalog.normalize := by decide +kernel
  have hcommented : scannedCatalog.normalize ≠ commentedCatalog.normalize := by decide +kernel
  have hcodes : (Utf8.bytes scannedCatalog.fingerprint).map UInt8.toNat ≠
      hashCodes ({ commentedCatalog.normalize with fingerprint := "" }.toValue.emit []) := by
    decide +kernel
  refine ⟨scannedCatalog.normalize, haccepted, (hfixed rescannedCatalog rfl).1 ?_,
    (hfixed commentedCatalog rfl).2 ?_ ?_⟩
  · exact ((CatalogSnapshot.normalize_eq_iff hunique _).mp hrescanned).1
  · intro hsame
    exact hcommented ((CatalogSnapshot.normalize_eq_iff hunique _).mpr ⟨hsame, rfl⟩)
  · apply separates_of_fingerprint_ne (validatedNormalized_eq_ok.mp haccepted).2.1
      (calculateFingerprint_standard commentedCatalog.normalize)
    intro hsame
    apply hcodes
    rw [hsame]
    exact sha256_codes _

end Postgresem
