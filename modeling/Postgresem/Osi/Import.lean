import Postgresem.Osi.Document

/-! The import of an OSI document. A dataset becomes a model with evidence from the catalog; then
relationships and metrics are added to the models, one after another. -/
namespace Postgresem.Osi
open Control

structure ImportedField where
  column : String
  dataType : DataType
  entityKey : Bool
  timeDimension : Bool
  nullable : Bool
  deriving DecidableEq, Repr

structure ImportedModel where
  model : Model
  fields : List (String × ImportedField)
  foreignKeys : List ImportedForeignKey
  deriving DecidableEq, Repr

/-- The models, a map by name, and the warnings so far. -/
structure ImportState where
  imported : List (String × ImportedModel)
  warnings : List OsiImportWarning
  sorted : OrderedMap.Sorted imported

/-- Sets the model of a name, and adds warnings. -/
def ImportState.put (state : ImportState) (name : String) (entry : ImportedModel)
    (warnings : List OsiImportWarning) : ImportState where
  imported := OrderedMap.insert name entry state.imported
  warnings := state.warnings ++ warnings
  sorted := OrderedMap.sorted_insert name entry state.sorted

structure OsiImportReport where
  schemaVersion : String
  sourceFormat : String
  sourceVersion : String
  sourceHash : String
  catalogFingerprint : String
  semanticModel : String
  warnings : List OsiImportWarning
  snapshot : SemanticSnapshot
  deriving DecidableEq, Repr

def osiVersion : String := "0.1.1"
def importSchemaVersion : String := "1"

/-- The library code of the import: that of the catalog, and the reader of strict YAML. -/
structure ImportBackend extends CatalogBackend where
  readDocument : List UInt8 → Option OsiDocument

/-- The index of relations by schema and name. -/
abbrev RelationIndex := List ((String ×ₗ String) × CatalogRelation)

/-! ## Datasets -/

def importField (path : String) (columns : List (String × CatalogColumn))
    (entityKeys : List String) (field : OsiField) :
    Except OsiImportError (Field × List OsiImportWarning) := do
  let path := path ++ "/fields/" ++ field.name
  rejectExtensions path field.customExtensions
  let columnName ← directAnsiExpression field.expression path
  let column ← orError (columns.lookup columnName) (.columnNotAvailable path)
  ensure column.selectGrant (.columnNotAvailable path)
  let dataType ← importDataType column.dataType path
  let isTime := (field.dimension.bind OsiDimension.isTime).getD false
  ensure (!isTime || dataType == .date || dataType == .timestamp) (.invalidTimeDimension path)
  .ok ({ semanticName := field.name
         dataType := dataType
         column := columnName
         relationship := none
         timeDimension := isTime
         entityKey := decide (columnName ∈ entityKeys)
         visible := true
         nullable := column.nullable },
    warnContext path (field.description.or field.label) field.aiContext)

/-- The loop over the fields of a dataset, with the names it has seen. -/
def importFields (path : String) (columns : List (String × CatalogColumn))
    (entityKeys : List String) :
    List String → List OsiField → Except OsiImportError (List (Field × List OsiImportWarning))
  | _, [] => .ok []
  | seen, field :: rest => do
    validateIdentifier (path ++ "/fields/" ++ field.name ++ "/name") field.name
    ensure (decide (field.name ∉ seen)) (.duplicateName "field" field.name)
    let first ← importField path columns entityKeys field
    let others ← importFields path columns entityKeys (field.name :: seen) rest
    .ok (first :: others)

def importedField (field : Field) : ImportedField where
  column := field.column
  dataType := field.dataType
  entityKey := field.entityKey
  timeDimension := field.timeDimension
  nullable := field.nullable

/-- The map of a dataset's fields by name. -/
def importedFields (fields : List Field) : List (String × ImportedField) :=
  OrderedMap.mapValues importedField (OrderedMap.collect Field.semanticName fields)

def derivedKeyWarning (path : String) : OsiImportWarning where
  code := "OSI_PRIMARY_KEY_DERIVED_FROM_CATALOG"
  path := path
  message := "primary key was omitted and derived from validated PostgreSQL evidence"

/-- What `import_dataset` finds out about a dataset before it reads the fields. -/
structure DatasetEvidence where
  source : Relation
  relation : CatalogRelation
  primaryKey : List String
  warnings : List OsiImportWarning
  deriving DecidableEq, Repr

def datasetEvidence (currentDatabase : String) (catalog : RelationIndex) (dataset : OsiDataset) :
    Except OsiImportError DatasetEvidence := do
  let path := "/datasets/" ++ dataset.name
  rejectExtensions path dataset.customExtensions
  ensure dataset.uniqueKeys.isEmpty (.unsupportedUniqueKeys path)
  let (schema, relationName) ← parseSource dataset.source currentDatabase path
  let relation ← orError (catalog.lookup (toLex (schema, relationName))) (.relationNotFound path)
  ensure (relation.grants.schemaUsage
    && (relation.grants.tableSelect || relation.grants.anyColumnSelect))
    (.relationNotSelectable path)
  let catalogKey := catalogPrimaryKey relation
  ensure (dataset.primaryKey.isEmpty || dataset.primaryKey == catalogKey)
    (.primaryKeyMismatch path)
  let derived := dataset.primaryKey.isEmpty && !catalogKey.isEmpty
  let effectiveKey := if dataset.primaryKey.isEmpty then catalogKey else dataset.primaryKey
  ensure (effectiveKey.length ≤ 1) (.compositePrimaryKey path)
  .ok { source := ⟨schema, relationName⟩
        relation := relation
        primaryKey := effectiveKey
        warnings := warnContext path dataset.description dataset.aiContext
          ++ if derived then [derivedKeyWarning path] else [] }

/-- The model of a dataset that has been read. -/
def datasetModel (name : String) (evidence : DatasetEvidence) (fields : List Field) :
    ImportedModel where
  model :=
    { semanticName := name
      source := evidence.source
      timezone := none
      queryable := true
      writable := none
      fields := fields
      metrics := []
      relationships := [] }
  fields := importedFields fields
  foreignKeys := catalogForeignKeys evidence.relation

/-- The part of `import_dataset` behind the checks of the name: it reads no other dataset. -/
def importDatasetModel (currentDatabase : String) (catalog : RelationIndex)
    (dataset : OsiDataset) : Except OsiImportError (ImportedModel × List OsiImportWarning) := do
  let path := "/datasets/" ++ dataset.name
  let evidence ← datasetEvidence currentDatabase catalog dataset
  let columns := OrderedMap.collect CatalogColumn.name evidence.relation.columns
  let fields ← importFields path columns evidence.primaryKey [] dataset.fields
  let entry := datasetModel dataset.name evidence (fields.map Prod.fst)
  forEach (fun key =>
    ensure (entry.fields.any fun field => field.2.column == key && field.2.entityKey)
      (.primaryKeyMismatch path)) evidence.primaryKey
  .ok (entry, evidence.warnings ++ fields.flatMap Prod.snd)

def importDataset (currentDatabase : String) (catalog : RelationIndex) (state : ImportState)
    (dataset : OsiDataset) : Except OsiImportError ImportState := do
  validateIdentifier ("/datasets/" ++ dataset.name ++ "/name") dataset.name
  ensure (state.imported.lookup dataset.name).isNone (.duplicateName "dataset" dataset.name)
  let (entry, warnings) ← importDatasetModel currentDatabase catalog dataset
  .ok (state.put dataset.name entry warnings)

/-! ## Relationships -/

/-- The first field, in the order of the names, that stands for a column. -/
def findColumn (fields : List (String × ImportedField)) (column : String) :
    Option ImportedField :=
  (fields.map Prod.snd).find? fun field => field.column == column

/-- A field of the target as the source model sees it. -/
def projection (relationship : String) (entry : String × ImportedField) : Field where
  semanticName := relationship ++ "_" ++ entry.1
  dataType := entry.2.dataType
  column := entry.2.column
  relationship := some relationship
  timeDimension := entry.2.timeDimension
  entityKey := false
  visible := true
  nullable := entry.2.nullable

def projectField (path : String) (model : Model) (projected : Field) :
    Except OsiImportError Model := do
  ensure (!model.fields.any fun field => field.semanticName == projected.semanticName)
    (.invalidRelationship path)
  .ok { model with fields := model.fields ++ [projected] }

/-- The single pair of columns that a relationship may have. -/
def columnPair (relationship : OsiRelationship) : Option (String × String) :=
  match relationship.fromColumns, relationship.toColumns with
  | [fromColumn], [toColumn] => some (fromColumn, toColumn)
  | _, _ => none

/-- Pushes a relationship, and what it projects, onto its source model. -/
def relateModel (path : String) (entry : ImportedModel) (related : Relationship)
    (projected : List Field) : Except OsiImportError ImportedModel := do
  let model ← projected.foldlM (projectField path)
    { entry.model with relationships := entry.model.relationships ++ [related] }
  .ok { entry with model := model }

/-- The relationship that is recorded: many rows to one, joined from the left. -/
def importedRelationship (relationship : OsiRelationship) (target : Relation)
    (fromField toField : ImportedField) : Relationship where
  semanticName := relationship.name
  targetModel := relationship.toDataset
  target := target
  cardinality := .manyToOne
  joinType := .left
  fromColumn := fromField.column
  toColumn := toField.column

def importRelationship (state : ImportState) (relationship : OsiRelationship) :
    Except OsiImportError ImportState := do
  let path := "/relationships/" ++ relationship.name
  validateIdentifier (path ++ "/name") relationship.name
  rejectExtensions path relationship.customExtensions
  let (fromFieldName, toFieldName) ← orError (columnPair relationship)
    (.compositeRelationship path)
  let toModel ← orError (state.imported.lookup relationship.toDataset) (.invalidRelationship path)
  let target := toModel.model.source
  let projected := toModel.fields.map (projection relationship.name)
  let toField ← orError
    ((findColumn toModel.fields toFieldName).filter ImportedField.entityKey)
    (.invalidRelationship path)
  let fromModel ← orError (state.imported.lookup relationship.fromDataset)
    (.invalidRelationship path)
  ensure (!fromModel.model.relationships.any fun existing =>
    existing.semanticName == relationship.name) (.duplicateName "relationship" relationship.name)
  let fromField ← orError (findColumn fromModel.fields fromFieldName) (.invalidRelationship path)
  ensure (decide (⟨[fromField.column], target, [toField.column]⟩ ∈ fromModel.foreignKeys))
    (.invalidRelationship path)
  let entry ← relateModel path fromModel
    (importedRelationship relationship target fromField toField) projected
  .ok (state.put relationship.fromDataset entry (warnContext path none relationship.aiContext))

/-! ## Metrics -/

def importedMetric (metric : OsiMetric) (parsed : ParsedMetric) (field : ImportedField) :
    Metric where
  semanticName := metric.name
  dataType := expectedMetricType parsed.aggregation field.dataType
  aggregation := parsed.aggregation
  field := parsed.field
  filter := none
  additivity := none
  aggregationAnchor := none
  visible := true

def importMetric (state : ImportState) (metric : OsiMetric) :
    Except OsiImportError ImportState := do
  let path := "/metrics/" ++ metric.name
  validateIdentifier (path ++ "/name") metric.name
  rejectExtensions path metric.customExtensions
  let expression ← ansiExpression metric.expression path
  let parsed ← orError (parseMetricExpression expression) (.unsupportedMetricExpression path)
  let importedModel ← orError (state.imported.lookup parsed.dataset)
    (.unsupportedMetricExpression path)
  ensure (!importedModel.model.metrics.any fun existing => existing.semanticName == metric.name)
    (.duplicateName "metric" metric.name)
  let field ← orError (importedModel.fields.lookup parsed.field)
    (.unsupportedMetricExpression path)
  ensure (!(parsed.aggregation == .count || parsed.aggregation == .countDistinct)
    || field.entityKey) (.countRequiresEntityKey path)
  ensure (aggregateSupportsType parsed.aggregation field.dataType)
    (.unsupportedMetricExpression path)
  let model := { importedModel.model with
    metrics := importedModel.model.metrics ++ [importedMetric metric parsed field] }
  .ok (state.put parsed.dataset { importedModel with model := model }
    (warnContext path metric.description metric.aiContext))

/-! ## The whole document -/

/-- The three loops of `import`, over a semantic model and a valid catalog. -/
def importModels (catalog : CatalogSnapshot) (semanticModel : OsiSemanticModel) :
    Except OsiImportError ImportState := do
  let relationIndex := OrderedMap.collect
    (fun relation : CatalogRelation => toLex (relation.schema, relation.name)) catalog.relations
  let warnings := warnContext ("/semantic_model/" ++ semanticModel.name) semanticModel.description
    semanticModel.aiContext
  let state ← semanticModel.datasets.foldlM
    (importDataset catalog.currentDatabase relationIndex) ⟨[], warnings, .nil⟩
  ensureUniqueNames "relationship" (semanticModel.relationships.map OsiRelationship.name)
  ensureUniqueNames "metric" (semanticModel.metrics.map OsiMetric.name)
  let state ← semanticModel.relationships.foldlM importRelationship state
  semanticModel.metrics.foldlM importMetric state

/-- The snapshot of the imported models, before its hash is set. -/
def ImportState.snapshot (state : ImportState) : SemanticSnapshot :=
  SemanticSnapshot.normalized
    { schemaVersion := "1"
      revisionHash := ""
      models := state.imported.map fun entry => entry.2.model }

/-- `osi::import`. -/
def importOsi (backend : ImportBackend) (input : List UInt8) (catalog : CatalogSnapshot)
    (selected : Option String) : Except OsiImportError OsiImportReport := do
  let document ← orError (backend.readDocument input) .parse
  rejectExtensions "/" document.customExtensions
  ensureUniqueNames "semantic model" (document.semanticModel.map OsiSemanticModel.name)
  let semanticModel ← selectSemanticModel document.semanticModel selected
  validateIdentifier "/semantic_model/name" semanticModel.name
  rejectExtensions ("/semantic_model/" ++ semanticModel.name) semanticModel.customExtensions
  let catalog ← (catalog.validatedNormalized backend.toCatalogBackend).mapError .invalidCatalog
  let state ← importModels catalog semanticModel
  let hash ← orError (state.snapshot.calculateRevisionHash backend.toHashBackend) .snapshotHash
  .ok { schemaVersion := importSchemaVersion
        sourceFormat := "apache-ossie"
        sourceVersion := osiVersion
        sourceHash := backend.sha256 input
        catalogFingerprint := catalog.fingerprint
        semanticModel := semanticModel.name
        warnings := sortByKeys (fun warning => [warning.path, warning.code]) state.warnings
        snapshot := { state.snapshot with revisionHash := hash } }

end Postgresem.Osi
