import Mathlib.Data.Prod.Lex
import Postgresem.Foundation.Control
import Postgresem.Foundation.Sorting
import Postgresem.Semantic.Snapshot

/-! The catalog snapshot: what a scan of the database records of its relations, functions and
roles, the canonical order of these records, and the fingerprint that is taken over them. -/
namespace Postgresem
open Control Sorting

structure CatalogRoleContext where
  inherit : Bool
  superuser : Bool
  bypassRls : Bool
  effectiveRoles : List String
  settableRoles : List String
  deriving DecidableEq, Repr

inductive RelationKind where
  | table | partitionedTable | view | materializedView | foreignTable
  deriving DecidableEq, Repr

structure CatalogView where
  definitionHash : String
  securityInvoker : Bool
  securityBarrier : Bool
  ownerAuthorization : Option CatalogRoleContext
  deriving DecidableEq, Repr

structure RelationGrantHints where
  schemaUsage : Bool
  tableSelect : Bool
  anyColumnSelect : Bool
  deriving DecidableEq, Repr

structure RowLevelSecurity where
  enabled : Bool
  forced : Bool
  deriving DecidableEq, Repr

structure CatalogColumn where
  name : String
  ordinal : Nat
  dataType : String
  nullable : Bool
  comment : Option String
  selectGrant : Bool
  deriving DecidableEq, Repr

structure RelationReference where
  schema : String
  name : String
  deriving DecidableEq, Repr

inductive ForeignKeyMatch where
  | full | partialMatch | simple
  deriving DecidableEq, Repr

inductive ForeignKeyAction where
  | noAction | restrict | cascade | setNull | setDefault
  deriving DecidableEq, Repr

inductive CatalogConstraint where
  | primaryKey (name : String) (columns : List String)
      (enforced period deferrable initiallyDeferred validated : Bool)
  | unique (name : String) (columns : List String)
      (nullsNotDistinct enforced period deferrable initiallyDeferred validated : Bool)
  | foreignKey (name : String) (columns : List String) (referencedRelation : RelationReference)
      (referencedColumns deleteSetColumns : List String) (matchType : ForeignKeyMatch)
      (onUpdate onDelete : ForeignKeyAction)
      (enforced period deferrable initiallyDeferred validated : Bool)
  | check (name : String) (columns : List String) (expressionHash : String)
      (noInherit enforced validated : Bool)
  deriving DecidableEq, Repr

inductive PolicyCommand where
  | all | select | insert | update | delete
  deriving DecidableEq, Repr

structure RowLevelSecurityPolicy where
  name : String
  command : PolicyCommand
  permissive : Bool
  roles : List String
  usingExpressionHash : Option String
  withCheckExpressionHash : Option String
  deriving DecidableEq, Repr

structure CatalogRelation where
  schema : String
  name : String
  kind : RelationKind
  owner : String
  view : Option CatalogView
  comment : Option String
  grants : RelationGrantHints
  rls : RowLevelSecurity
  columns : List CatalogColumn
  constraints : List CatalogConstraint
  policies : List RowLevelSecurityPolicy
  deriving DecidableEq, Repr

inductive CatalogFunctionKind where
  | function | windowFunction | aggregate
  deriving DecidableEq, Repr

structure CatalogFunctionGrant where
  grantor : String
  grantee : String
  grantable : Bool
  deriving DecidableEq, Repr

structure CatalogFunction where
  schema : String
  name : String
  identityArguments : String
  kind : CatalogFunctionKind
  definitionHash : String
  owner : String
  ownerAuthorization : Option CatalogRoleContext
  grants : List CatalogFunctionGrant
  deriving DecidableEq, Repr

structure CatalogSnapshot where
  schemaVersion : String
  serverVersionNum : Nat
  currentDatabase : String
  currentRole : String
  roleContext : CatalogRoleContext
  roleGraphFingerprint : String
  objectPrivilegeFingerprint : String
  functions : List CatalogFunction
  relations : List CatalogRelation
  fingerprint : String
  deriving DecidableEq, Repr

def catalogSnapshotSchemaVersion : String := "2"

/-! ## Sort keys -/

/-- The order of the declared kinds, as derived comparison has it. -/
def RelationKind.order : RelationKind → Nat
  | .table => 0
  | .partitionedTable => 1
  | .view => 2
  | .materializedView => 3
  | .foreignTable => 4

def policyCommandOrder : PolicyCommand → Nat
  | .all => 0
  | .select => 1
  | .insert => 2
  | .update => 3
  | .delete => 4

def CatalogFunctionGrant.sortKey (grant : CatalogFunctionGrant) : String ×ₗ String ×ₗ Bool :=
  toLex (grant.grantee, toLex (grant.grantor, grant.grantable))

def CatalogFunction.sortKey (function : CatalogFunction) : String ×ₗ String ×ₗ String :=
  toLex (function.schema, toLex (function.name, function.identityArguments))

def CatalogColumn.sortKey (column : CatalogColumn) : Nat ×ₗ String :=
  toLex (column.ordinal, column.name)

def constraintSortKey : CatalogConstraint → Nat ×ₗ String
  | .primaryKey name .. => toLex (0, name)
  | .unique name .. => toLex (1, name)
  | .foreignKey name .. => toLex (2, name)
  | .check name .. => toLex (3, name)

def RowLevelSecurityPolicy.sortKey (policy : RowLevelSecurityPolicy) : String ×ₗ Nat :=
  toLex (policy.name, policyCommandOrder policy.command)

def CatalogRelation.sortKey (relation : CatalogRelation) : String ×ₗ String ×ₗ Nat :=
  toLex (relation.schema, toLex (relation.name, relation.kind.order))

/-! ## The canonical form -/

def CatalogRoleContext.normalize (context : CatalogRoleContext) : CatalogRoleContext :=
  { context with
    effectiveRoles := distinctOn (fun role => role) context.effectiveRoles
    settableRoles := distinctOn (fun role => role) context.settableRoles }

def CatalogFunction.normalize (function : CatalogFunction) : CatalogFunction :=
  { function with
    ownerAuthorization := function.ownerAuthorization.map CatalogRoleContext.normalize
    grants := distinctOn CatalogFunctionGrant.sortKey function.grants }

def CatalogView.normalize (view : CatalogView) : CatalogView :=
  { view with ownerAuthorization := view.ownerAuthorization.map CatalogRoleContext.normalize }

def RowLevelSecurityPolicy.normalize (policy : RowLevelSecurityPolicy) : RowLevelSecurityPolicy :=
  { policy with roles := sortOn (fun role => role) policy.roles }

def CatalogRelation.normalize (relation : CatalogRelation) : CatalogRelation :=
  { relation with
    view := relation.view.map CatalogView.normalize
    columns := sortOn CatalogColumn.sortKey relation.columns
    constraints := sortOn constraintSortKey relation.constraints
    policies := sortOn RowLevelSecurityPolicy.sortKey
      (relation.policies.map RowLevelSecurityPolicy.normalize) }

def CatalogSnapshot.normalize (catalog : CatalogSnapshot) : CatalogSnapshot :=
  { catalog with
    roleContext := catalog.roleContext.normalize
    functions := sortOn CatalogFunction.sortKey (catalog.functions.map CatalogFunction.normalize)
    relations := sortOn CatalogRelation.sortKey (catalog.relations.map CatalogRelation.normalize) }

/-! ## The fingerprint -/

inductive CatalogError where
  | unsupportedSchemaVersion (version : String)
  | invalidFingerprint
  | serialization
  deriving DecidableEq, Repr

/-- The library code that fingerprints rest on, with the catalog's JSON serializer. -/
structure CatalogBackend extends HashBackend where
  catalogJson : CatalogSnapshot → Option (List UInt8)

def CatalogSnapshot.calculateFingerprint (backend : CatalogBackend) (catalog : CatalogSnapshot) :
    Except CatalogError String := do
  let bytes ← orError (backend.catalogJson { catalog with fingerprint := "" })
    CatalogError.serialization
  .ok (backend.sha256 bytes)

def CatalogSnapshot.validatedNormalized (backend : CatalogBackend) (catalog : CatalogSnapshot) :
    Except CatalogError CatalogSnapshot := do
  ensure (catalog.schemaVersion = catalogSnapshotSchemaVersion)
    (CatalogError.unsupportedSchemaVersion catalog.schemaVersion)
  let canonical := catalog.normalize
  let fingerprint ← canonical.calculateFingerprint backend
  ensure (fingerprint = catalog.fingerprint) CatalogError.invalidFingerprint
  .ok canonical

theorem validatedNormalized_eq_ok {backend : CatalogBackend} {catalog canonical : CatalogSnapshot} :
    catalog.validatedNormalized backend = .ok canonical ↔
      catalog.schemaVersion = catalogSnapshotSchemaVersion ∧
        catalog.normalize.calculateFingerprint backend = .ok catalog.fingerprint ∧
        canonical = catalog.normalize := by
  simp only [CatalogSnapshot.validatedNormalized, bind_eq_ok, ensure_eq_ok, decide_eq_true_eq,
    Except.ok.injEq]
  constructor
  · rintro ⟨-, hversion, fingerprint, hfingerprint, -, heq, hcanonical⟩
    rw [heq] at hfingerprint
    exact ⟨hversion, hfingerprint, hcanonical.symm⟩
  · rintro ⟨hversion, hfingerprint, hcanonical⟩
    exact ⟨(), hversion, catalog.fingerprint, hfingerprint, (), rfl, hcanonical.symm⟩

end Postgresem
