import Postgresem.Foundation.JsonCollapse
import Postgresem.Foundation.OrderedSet
import Postgresem.Osi.Import
import Postgresem.Semantic.Decoding

/-! The export of a snapshot as an OSI document. What the format cannot express is refused, and the text
is imported again before it is given out. -/
namespace Postgresem.Osi
open Control
open Json (Value)

inductive OsiExportError where
  | parse
  | unsupportedSnapshotVersion
  | invalidRevisionHash
  | unsupportedSemantics (path reason : String)
  | validation (error : OsiImportError)
  | roundTripMismatch (model : String)
  | snapshotHash
  | serialize
  deriving DecidableEq, Repr

/-- The library code of the export: that of the import, and the writer of YAML. `finite` says of the text
of a number whether its conversion to floating point is in range. -/
structure ExportBackend extends ImportBackend where
  writeDocument : OsiDocument → Option (List UInt8)
  finite : String → Bool

/-! ## The items of the document -/

def OsiExpression.ansi (expression : String) : OsiExpression := ⟨[⟨.ansiSql, expression⟩]⟩

def exportField (field : Field) : OsiField where
  name := field.semanticName
  expression := .ansi field.column
  dimension := some ⟨some field.timeDimension⟩

/-- The columns of the entity keys, as an ordered set. -/
def exportedKey (fields : List Field) : List String :=
  OrderedSet.insertAll ((fields.filter Field.entityKey).map Field.column) []

/-- The dataset of a model with these fields of its own. -/
def describeDataset (model : Model) (fields : List Field) : OsiDataset where
  name := model.semanticName
  source := model.source.schema ++ "." ++ model.source.relation
  primaryKey := exportedKey fields
  fields := fields.map exportField

/-- The fields that a relationship projects are left out. -/
def exportDataset (model : Model) : OsiDataset :=
  describeDataset model (model.fields.filter fun field => field.relationship.isNone)

def exportRelationship (model : String) (relationship : Relationship) : OsiRelationship where
  name := relationship.semanticName
  fromDataset := model
  toDataset := relationship.targetModel
  fromColumns := [relationship.fromColumn]
  toColumns := [relationship.toColumn]

def exportMetric (model : String) (metric : Metric) : OsiMetric where
  name := metric.semanticName
  expression := .ansi (metricExpression metric.aggregation model metric.field)

/-! ## What cannot be expressed -/

def checkModel (path : String) (model : Model) : Except OsiExportError Unit :=
  ensure (model.queryable && model.writable.isNone && model.timezone.isNone)
    (.unsupportedSemantics path
      "nonqueryable models, writable projections, or model timezones")

def checkField (path : String) (field : Field) : Except OsiExportError Unit :=
  ensure field.visible
    (.unsupportedSemantics (path ++ "/fields/" ++ field.semanticName) "hidden fields")

def checkRelationship (path : String) (relationship : Relationship) : Except OsiExportError Unit :=
  ensure (relationship.cardinality == .manyToOne && relationship.joinType == .left)
    (.unsupportedSemantics (path ++ "/relationships/" ++ relationship.semanticName)
      "relationships other than many-to-one left joins")

def checkMetric (path : String) (metric : Metric) : Except OsiExportError Unit :=
  ensure (metric.visible && metric.filter.isNone && metric.additivity.isNone
    && metric.aggregationAnchor.isNone)
    (.unsupportedSemantics (path ++ "/metrics/" ++ metric.semanticName)
      "hidden metrics, filters, additivity, or aggregation anchors")

/-- One turn of the loop over the models. -/
def exportModel (exported : OsiSemanticModel) (model : Model) :
    Except OsiExportError OsiSemanticModel := do
  let path := "/models/" ++ model.semanticName
  checkModel path model
  forEach (checkField path) model.fields
  forEach (checkRelationship path) model.relationships
  forEach (checkMetric path) model.metrics
  .ok { exported with
    datasets := exported.datasets ++ [exportDataset model]
    relationships := exported.relationships ++
      model.relationships.map (exportRelationship model.semanticName)
    metrics := exported.metrics ++ model.metrics.map (exportMetric model.semanticName) }

def exportModels (name : String) (models : List Model) : Except OsiExportError OsiSemanticModel :=
  models.foldlM exportModel
    { name := name, datasets := [], relationships := [], metrics := [] }

/-! ## Nullability -/

/-- A field of the snapshot that was imported again. -/
def reimportedField (reimported : SemanticSnapshot) (model field : String) : Option Field :=
  (reimported.models.find? fun actual => actual.semanticName == model).bind fun actual =>
    actual.fields.find? fun actual => actual.semanticName == field

/-- A nullability that the persisted snapshot omits is that of the verified evidence. -/
def resolveField (omitted : List (String × String)) (reimported : SemanticSnapshot) (model : String)
    (field : Field) : Except OsiExportError Field :=
  if (model, field.semanticName) ∈ omitted then do
    let actual ← orError (reimportedField reimported model field.semanticName)
      (.roundTripMismatch model)
    .ok { field with nullable := actual.nullable }
  else .ok field

def resolveModel (omitted : List (String × String)) (reimported : SemanticSnapshot) (model : Model) :
    Except OsiExportError Model := do
  let fields ← model.fields.mapM (resolveField omitted reimported model.semanticName)
  .ok { model with fields }

def resolveNullability (omitted : List (String × String)) (reimported snapshot : SemanticSnapshot) :
    Except OsiExportError SemanticSnapshot := do
  let models ← snapshot.models.mapM (resolveModel omitted reimported)
  .ok { snapshot with models }

/-- The first model that is not among those imported again. -/
def changedModel (snapshot reimported : SemanticSnapshot) : String :=
  match snapshot.models.find? fun expected => decide (expected ∉ reimported.models) with
  | some model => model.semanticName
  | none => "/models"

/-! ## The whole snapshot -/

def exportWithCatalogNullability (backend : ExportBackend) (snapshot : SemanticSnapshot)
    (catalog : CatalogSnapshot) (semanticModel : String) (omitted : List (String × String)) :
    Except OsiExportError (List UInt8) := do
  ensure (snapshot.schemaVersion == "1") .unsupportedSnapshotVersion
  let hash ← orError (snapshot.calculateRevisionHash backend.toHashBackend) .snapshotHash
  ensure (hash == snapshot.revisionHash) .invalidRevisionHash
  let snapshot := snapshot.normalized
  ensure (!snapshot.models.isEmpty)
    (.unsupportedSemantics "/models" "an empty model collection")
  let exported ← exportModels semanticModel snapshot.models
  let yaml ← orError (backend.writeDocument ⟨[exported], []⟩) .serialize
  let reimported ← (importOsi backend.toImportBackend yaml catalog none).mapError .validation
  let snapshot ← resolveNullability omitted reimported.snapshot snapshot
  ensure (snapshot == reimported.snapshot) (.roundTripMismatch
    (changedModel snapshot reimported.snapshot))
  .ok yaml

def exportOsi (backend : ExportBackend) (snapshot : SemanticSnapshot) (catalog : CatalogSnapshot)
    (semanticModel : String) : Except OsiExportError (List UInt8) :=
  exportWithCatalogNullability backend snapshot catalog semanticModel []

/-! ## Persisted snapshots -/

/-- `value[name]`: the last member of the name, and what is no such member is null. -/
def memberOrNull (value : Value) (name : String) : Value := (Json.lastMember name value).getD .null

def itemOrNull (value : Value) (index : Nat) : Value :=
  match value with
  | .array items => items[index]?.getD .null
  | _ => .null

/-- The names of the fields that have no `nullable` in the document. -/
def omittedNullability (document : Value) (snapshot : SemanticSnapshot) : List (String × String) :=
  snapshot.models.zipIdx.flatMap fun model =>
    model.1.fields.zipIdx.filterMap fun field =>
      let written := itemOrNull (memberOrNull
        (itemOrNull (memberOrNull document "models") model.2) "fields") field.2
      if (Json.lastMember "nullable" written).isNone then
        some (model.1.semanticName, field.1.semanticName)
      else none

/-- `osi::export_json`: the document is read a second time, as a value. -/
def exportJson (backend : ExportBackend) (input : List UInt8) (catalog : CatalogSnapshot)
    (semanticModel : String) : Except OsiExportError (List UInt8) := do
  let snapshot ← orError (parseSnapshot backend.finite input) .parse
  let document ← orError ((Json.read input).filter fun value =>
    value.numbersAll (Json.readsNumber backend.finite)) .parse
  exportWithCatalogNullability backend snapshot catalog semanticModel
    (omittedNullability document snapshot)

end Postgresem.Osi
