import Postgresem.Catalog.Serialization
import Postgresem.Foundation.OrderedMap
import Postgresem.Foundation.Pointer

/-! The diff of two catalogs: the changes of the database context, the functions and the
relations, sorted by path and without repetitions. -/
namespace Postgresem
open Control Sorting
open Json (Value)

def catalogDiffSchemaVersion : String := "1"

inductive CatalogCompatibility where
  | compatible | reviewRequired | breaking
  deriving DecidableEq, Repr

inductive CatalogObjectKind where
  | context | function | relation | column | constraint | policy
  deriving DecidableEq, Repr

inductive CatalogChangeKind where
  | added | removed | modified
  deriving DecidableEq, Repr

structure CatalogDiffSummary where
  total : Nat
  compatible : Nat
  reviewRequired : Nat
  breaking : Nat
  deriving DecidableEq, Repr

structure CatalogChange where
  path : String
  objectKind : CatalogObjectKind
  change : CatalogChangeKind
  compatibility : CatalogCompatibility
  before : Option Value
  after : Option Value
  deriving DecidableEq

structure CatalogDiff where
  schemaVersion : String
  fromFingerprint : String
  toFingerprint : String
  compatibility : CatalogCompatibility
  summary : CatalogDiffSummary
  changes : List CatalogChange
  deriving DecidableEq

inductive CatalogDiffError where
  | invalidSource (error : CatalogError)
  | invalidTarget (error : CatalogError)
  | contextMismatch
  deriving DecidableEq, Repr

/-! ## Paths -/

def pathSegment (value : String) : String :=
  Text.replaceChar '/' "~1" (Text.replaceChar '~' "~0" value)

def relationPath (relation : CatalogRelation) : String :=
  "/relations/" ++ pathSegment relation.schema ++ "/" ++ pathSegment relation.name

def functionPath (key : String ×ₗ String ×ₗ String) : String :=
  "/functions/" ++ pathSegment (ofLex key).1 ++ "/" ++ pathSegment (ofLex (ofLex key).2).1 ++ "/"
    ++ pathSegment (ofLex (ofLex key).2).2

def constraintKey : CatalogConstraint → String
  | .primaryKey name .. => "primary_key:" ++ name
  | .unique name .. => "unique:" ++ name
  | .foreignKey name .. => "foreign_key:" ++ name
  | .check name .. => "check:" ++ name

/-! ## Changes -/

/-- The comparison of two values and the change that is pushed behind it. -/
def pushModified {α : Type} [DecidableEq α] (path : String) (objectKind : CatalogObjectKind)
    (compatibility : CatalogCompatibility) (toValue : α → Value) (before after : α) :
    List CatalogChange :=
  if before ≠ after then
    [{ path := path, objectKind := objectKind, change := .modified
       compatibility := compatibility, before := some (toValue before)
       after := some (toValue after) }]
  else []

section Keyed
variable {α κ : Type} [LinearOrder κ]

/-- What is pushed for one key of the two maps: a removal always breaks. -/
def pushKeyed (path : α → String) (objectKind : CatalogObjectKind) (toValue : α → Value)
    (added : CatalogCompatibility) (both : α → α → List CatalogChange) :
    Option α → Option α → List CatalogChange
  | some before, some after => both before after
  | some before, none =>
    [{ path := path before, objectKind := objectKind, change := .removed
       compatibility := .breaking, before := some (toValue before), after := none }]
  | none, some after =>
    [{ path := path after, objectKind := objectKind, change := .added, compatibility := added
       before := none, after := some (toValue after) }]
  | none, none => []

/-- The loop over the keys of both maps; a key of both is visited twice. -/
def diffKeyed (name : α → κ) (push : κ → Option α → Option α → List CatalogChange)
    (before after : List α) : List CatalogChange :=
  let left := OrderedMap.collect name before
  let right := OrderedMap.collect name after
  (left.map Prod.fst ++ right.map Prod.fst).flatMap fun key =>
    push key (left.lookup key) (right.lookup key)

end Keyed

def pushFunction (key : String ×ₗ String ×ₗ String) :
    Option CatalogFunction → Option CatalogFunction → List CatalogChange :=
  pushKeyed (fun _ => functionPath key) .function CatalogFunction.toValue .breaking
    (pushModified (functionPath key) .function .breaking CatalogFunction.toValue)

def diffFunctions (before after : List CatalogFunction) : List CatalogChange :=
  diffKeyed CatalogFunction.sortKey pushFunction before after

def columnCompatibility (before after : CatalogColumn) : CatalogCompatibility :=
  if before.dataType ≠ after.dataType ∨ before.nullable ≠ after.nullable
      ∨ before.selectGrant ≠ after.selectGrant ∨ before.ordinal ≠ after.ordinal then .breaking
  else .reviewRequired

def columnPath (base name : String) : String := base ++ "/columns/" ++ pathSegment name

def pushColumn (base name : String) :
    Option CatalogColumn → Option CatalogColumn → List CatalogChange :=
  pushKeyed (fun _ => columnPath base name) .column CatalogColumn.toValue .compatible
    fun before after => pushModified (columnPath base name) .column
      (columnCompatibility before after) CatalogColumn.toValue before after

def diffColumns (base : String) (before after : List CatalogColumn) : List CatalogChange :=
  diffKeyed CatalogColumn.name (pushColumn base) before after

def constraintPath (base key : String) : String := base ++ "/constraints/" ++ pathSegment key

def pushConstraint (base key : String) :
    Option CatalogConstraint → Option CatalogConstraint → List CatalogChange :=
  pushKeyed (fun _ => constraintPath base key) .constraint CatalogConstraint.toValue
    .reviewRequired
    (pushModified (constraintPath base key) .constraint .breaking CatalogConstraint.toValue)

def diffConstraints (base : String) (before after : List CatalogConstraint) :
    List CatalogChange :=
  diffKeyed constraintKey (pushConstraint base) before after

def policyPath (base name : String) : String := base ++ "/policies/" ++ pathSegment name

def pushPolicy (base name : String) :
    Option RowLevelSecurityPolicy → Option RowLevelSecurityPolicy → List CatalogChange :=
  pushKeyed (fun _ => policyPath base name) .policy RowLevelSecurityPolicy.toValue .breaking
    (pushModified (policyPath base name) .policy .breaking RowLevelSecurityPolicy.toValue)

def diffPolicies (base : String) (before after : List RowLevelSecurityPolicy) :
    List CatalogChange :=
  diffKeyed RowLevelSecurityPolicy.name (pushPolicy base) before after

/-- The aspects of a relation that are compared one by one. -/
inductive RelationAspect where
  | kind | owner | view | comment | grants | rls
  deriving DecidableEq, Repr

def pushAspect (base : String) (before after : CatalogRelation) :
    RelationAspect → List CatalogChange
  | .kind =>
    pushModified (base ++ "/kind") .relation .breaking RelationKind.toValue before.kind after.kind
  | .owner =>
    pushModified (base ++ "/owner") .relation .breaking Value.string before.owner after.owner
  | .view =>
    pushModified (base ++ "/view") .relation .breaking (nullableValue CatalogView.toValue)
      before.view after.view
  | .comment =>
    pushModified (base ++ "/comment") .relation .reviewRequired (nullableValue Value.string)
      before.comment after.comment
  | .grants =>
    pushModified (base ++ "/grants") .relation .breaking RelationGrantHints.toValue before.grants
      after.grants
  | .rls =>
    pushModified (base ++ "/rls") .relation .breaking RowLevelSecurity.toValue before.rls after.rls

def diffRelation (before after : CatalogRelation) : List CatalogChange :=
  let base := relationPath before
  [RelationAspect.kind, .owner, .view, .comment, .grants, .rls].flatMap
      (pushAspect base before after)
    ++ diffColumns base before.columns after.columns
    ++ diffConstraints base before.constraints after.constraints
    ++ diffPolicies base before.policies after.policies

def CatalogRelation.mapKey (relation : CatalogRelation) : String ×ₗ String :=
  toLex (relation.schema, relation.name)

def diffRelations (before after : List CatalogRelation) : List CatalogChange :=
  diffKeyed CatalogRelation.mapKey (fun _ =>
    pushKeyed relationPath .relation CatalogRelation.toValue .compatible diffRelation) before after

def diffContext (before after : CatalogSnapshot) : List CatalogChange :=
  pushModified "/server_version_num" .context .reviewRequired numberValue before.serverVersionNum
      after.serverVersionNum
    ++ pushModified "/role_context" .context .breaking CatalogRoleContext.toValue
      before.roleContext after.roleContext
    ++ pushModified "/role_graph_fingerprint" .context .breaking Value.string
      before.roleGraphFingerprint after.roleGraphFingerprint
    ++ pushModified "/object_privilege_fingerprint" .context .breaking Value.string
      before.objectPrivilegeFingerprint after.objectPrivilegeFingerprint

/-- The changes in the order in which they are pushed. -/
def pushedChanges (before after : CatalogSnapshot) : List CatalogChange :=
  diffContext before after ++ diffFunctions before.functions after.functions
    ++ diffRelations before.relations after.relations

/-! ## The diff -/

def changeOrder : CatalogChangeKind → Nat
  | .removed => 0
  | .modified => 1
  | .added => 2

def CatalogChange.sortKey (change : CatalogChange) : String ×ₗ Nat :=
  toLex (change.path, changeOrder change.change)

def countOf (compatibility : CatalogCompatibility) (changes : List CatalogChange) : Nat :=
  (changes.filter fun change => change.compatibility = compatibility).length

def CatalogDiffSummary.summarize (changes : List CatalogChange) : CatalogDiffSummary :=
  { total := changes.length, compatible := countOf .compatible changes
    reviewRequired := countOf .reviewRequired changes, breaking := countOf .breaking changes }

def CatalogDiffSummary.severest (summary : CatalogDiffSummary) : CatalogCompatibility :=
  if summary.breaking > 0 then .breaking
  else if summary.reviewRequired > 0 then .reviewRequired
  else .compatible

def diffCatalogs (backend : CatalogBackend) (before after : CatalogSnapshot) :
    Except CatalogDiffError CatalogDiff := do
  let before ← (before.validatedNormalized backend).mapError CatalogDiffError.invalidSource
  let after ← (after.validatedNormalized backend).mapError CatalogDiffError.invalidTarget
  ensure (before.currentDatabase = after.currentDatabase && before.currentRole = after.currentRole)
    CatalogDiffError.contextMismatch
  let changes := distinctOn CatalogChange.sortKey (pushedChanges before after)
  let summary := CatalogDiffSummary.summarize changes
  .ok { schemaVersion := catalogDiffSchemaVersion, fromFingerprint := before.fingerprint
        toFingerprint := after.fingerprint, compatibility := summary.severest
        summary := summary, changes := changes }

end Postgresem
