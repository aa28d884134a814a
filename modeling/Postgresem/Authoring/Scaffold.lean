import Postgresem.Foundation.OrderedSet
import Postgresem.Catalog.Snapshot
import Postgresem.Catalog.Types

/-! Scaffolding: a model for each selected relation of a schema, with the fields and the row count
that the catalog vouches for. -/
namespace Postgresem
open Control

structure ScaffoldRequest where
  schemaVersion : String
  schema : String
  relations : List String
  relationPrefix : Option String
  maxModels : Nat
  timezone : Option String
  deriving DecidableEq, Repr

structure ScaffoldReport where
  schemaVersion : String
  catalogFingerprint : String
  sourceDatabase : String
  sourceSchema : String
  selectedRelations : Nat
  omittedUnselectableColumns : Nat
  snapshot : SemanticSnapshot
  deriving DecidableEq, Repr

inductive ScaffoldError where
  | parse
  | unsupportedSchemaVersion (version : String)
  | ambiguousSelection
  | invalidModelLimit
  | invalidIdentifier (name : String)
  | invalidTimezone
  | duplicateRelation
  | relationNotFound (name : String)
  | emptySelection
  | modelLimitExceeded
  | relationNotSelectable (name : String)
  | unsupportedRelationKind (name : String)
  | unsupportedPostgresType (path value : String)
  | missingTimezone (path : String)
  | invalidCatalog (error : CatalogError)
  | snapshotHash
  deriving DecidableEq, Repr

def authoringSchemaVersion : String := "1"
def maxScaffoldModels : Nat := 1000

/-- The catalog backend with the reader of authoring requests. -/
structure ScaffoldBackend extends CatalogBackend where
  readRequest : List UInt8 → Option ScaffoldRequest

/-- The relation names of a request, checked in order against those already seen. -/
def validateRelationNames : List String → List String → Except ScaffoldError Unit
  | _, [] => .ok ()
  | seen, relation :: rest => do
    ensure (portableIdentifier relation) (.invalidIdentifier relation)
    ensure (decide (relation ∉ seen)) .duplicateRelation
    validateRelationNames (relation :: seen) rest

def validateRequest (request : ScaffoldRequest) : Except ScaffoldError Unit := do
  ensure (request.schemaVersion == authoringSchemaVersion)
    (.unsupportedSchemaVersion request.schemaVersion)
  ensure (portableIdentifier request.schema) (.invalidIdentifier request.schema)
  ensure (!(request.maxModels == 0 || decide (maxScaffoldModels < request.maxModels)))
    .invalidModelLimit
  let hasRelations := !request.relations.isEmpty
  let hasPrefix := request.relationPrefix.any fun text => text != ""
  ensure (hasRelations != hasPrefix) .ambiguousSelection
  ensure (request.relationPrefix != some "") .ambiguousSelection
  validateRelationNames [] request.relations
  match request.relationPrefix with
  | some text => ensure (portableIdentifier text) (.invalidIdentifier text)
  | none => .ok ()
  ensure (!request.timezone.any fun timezone => timezone != "UTC") .invalidTimezone

def selectRelations (request : ScaffoldRequest) (catalog : CatalogSnapshot) :
    Except ScaffoldError (List CatalogRelation) := do
  let inSchema := catalog.relations.filter fun relation => relation.schema == request.schema
  let selected ← match request.relationPrefix with
    | some text => .ok (inSchema.filter fun relation => startsWith text relation.name)
    | none => do
      let selected := inSchema.filter fun relation => decide (relation.name ∈ request.relations)
      forEach (fun name => ensure (selected.any fun relation => relation.name == name)
        (.relationNotFound name)) request.relations
      pure selected
  ensure (!selected.isEmpty) .emptySelection
  pure selected

/-- The columns of the primary key that is enforced and validated, as a set. -/
def primaryKeyColumns (relation : CatalogRelation) : List String :=
  (relation.constraints.findSome? fun constraint =>
    match constraint with
    | .primaryKey _ columns true _ _ _ true => some (OrderedSet.insertAll columns [])
    | _ => none).getD []

def scaffoldField (relation : CatalogRelation) (timezone : Option String)
    (primaryKey : List String) (column : CatalogColumn) : Except ScaffoldError Field := do
  ensure (portableIdentifier column.name) (.invalidIdentifier column.name)
  let path := "/relations/" ++ relation.schema ++ "/" ++ relation.name ++ "/columns/" ++ column.name
  let dataType ← orError (postgresDataType column.dataType)
    (.unsupportedPostgresType path column.dataType)
  ensure (!((dataType == .timestamp || dataType == .timestampTz) && timezone.isNone))
    (.missingTimezone path)
  pure { semanticName := column.name
         dataType := dataType
         column := column.name
         relationship := none
         timeDimension := dataType == .date || dataType == .timestamp || dataType == .timestampTz
         entityKey := primaryKey.length == 1 && decide (column.name ∈ primaryKey)
         visible := true
         nullable := column.nullable }

/-- The fields of the columns that may be selected, and how many columns may not. -/
def scaffoldFields (relation : CatalogRelation) (timezone : Option String)
    (primaryKey : List String) : List CatalogColumn → Except ScaffoldError (List Field × Nat)
  | [] => .ok ([], 0)
  | column :: rest =>
    if column.selectGrant then do
      let field ← scaffoldField relation timezone primaryKey column
      let (fields, omitted) ← scaffoldFields relation timezone primaryKey rest
      pure (field :: fields, omitted)
    else do
      let (fields, omitted) ← scaffoldFields relation timezone primaryKey rest
      pure (fields, omitted + 1)

def rowCount (key : String) : Metric :=
  { semanticName := "row_count"
    dataType := .integer
    aggregation := .count
    field := key
    filter := none
    additivity := some .additive
    aggregationAnchor := some key
    visible := true }

def scaffoldMetrics (primaryKey : List String) (fields : List Field) : List Metric :=
  if primaryKey.length = 1 then
    match primaryKey.head?.filter fun key => fields.any fun field => field.column == key with
    | some key => [rowCount key]
    | none => []
  else []

/-- The model of a relation, and how many of its columns are left out. -/
def scaffoldModel (timezone : Option String) (relation : CatalogRelation) :
    Except ScaffoldError (Model × Nat) := do
  ensure (portableIdentifier relation.name) (.invalidIdentifier relation.name)
  ensure (relation.kind != .foreignTable) (.unsupportedRelationKind relation.name)
  ensure (relation.grants.schemaUsage && relation.grants.anyColumnSelect)
    (.relationNotSelectable relation.name)
  let primaryKey := primaryKeyColumns relation
  let (fields, omitted) ← scaffoldFields relation timezone primaryKey relation.columns
  ensure (!fields.isEmpty) (.relationNotSelectable relation.name)
  pure ({ semanticName := relation.name
          source := ⟨relation.schema, relation.name⟩
          timezone := timezone
          queryable := true
          writable := none
          fields := fields
          metrics := scaffoldMetrics primaryKey fields
          relationships := [] }, omitted)

def scaffold (backend : ScaffoldBackend) (input : List UInt8) (catalog : CatalogSnapshot) :
    Except ScaffoldError ScaffoldReport := do
  let request ← orError (backend.readRequest input) .parse
  validateRequest request
  let catalog ← (catalog.validatedNormalized backend.toCatalogBackend).mapError .invalidCatalog
  let selected ← selectRelations request catalog
  ensure (decide (selected.length ≤ request.maxModels)) .modelLimitExceeded
  let models ← selected.mapM (scaffoldModel request.timezone)
  let snapshot : SemanticSnapshot :=
    { schemaVersion := "2", revisionHash := "", models := models.map Prod.fst }
  let hash ← orError (snapshot.calculateRevisionHash backend.toHashBackend) .snapshotHash
  pure { schemaVersion := authoringSchemaVersion
         catalogFingerprint := catalog.fingerprint
         sourceDatabase := catalog.currentDatabase
         sourceSchema := request.schema
         selectedRelations := models.length
         omittedUnselectableColumns := models.foldl (fun total model => total + model.2) 0
         snapshot := { snapshot with revisionHash := hash } }

end Postgresem
