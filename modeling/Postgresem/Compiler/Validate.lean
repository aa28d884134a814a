import Postgresem.Foundation.OrderedSet
import Postgresem.Query.Lsq
import Postgresem.Semantic.HashText

/-! Validation of a logical semantic query against a snapshot. The names of the relationships
that the query needs are collected on the way, as `validate` does with its `BTreeSet`. -/
namespace Postgresem
open Control

structure CompilerOptions where
  defaultLimit : Nat := 100
  hardLimit : Nat := 10000
  deriving DecidableEq, Repr

inductive CompileError where
  | unsupportedSnapshotVersion (version : String)
  | invalidRevisionHash
  | unknownModel
  | unknownField (name : String)
  | unknownMetric (name : String)
  | hiddenField (name : String)
  | hiddenMetric (name : String)
  | invalidTimeGrain (name : String)
  | literalTypeMismatch (name : String)
  | unknownOrderReference (name : String)
  | unknownRelationship (name : String)
  | unsafeRelationship (name : String)
  | missingMetricMetadata (name : String)
  | invalidAggregationAnchor (name : String)
  | missingAggregationAnchor (name : String)
  | mixedAggregationAnchors
  | joinedMetricFilter (name : String)
  | unsupportedFanoutAdditivity (name : String)
  | invalidMetricField (name : String)
  | joinedMetricField (name : String)
  | countDistinctRequiresEntityKey (name : String)
  | countRequiresEntityKey (name : String)
  | invalidMetricType (name : String)
  | invalidRelationshipTarget (name : String)
  | relationshipTargetNotEntityKey (name : String)
  | missingTimezone (name : String)
  | hashSerialization
  | invalidLimitConfiguration
  | limitExceeded
  deriving DecidableEq, Repr

structure ResolvedDimension where
  field : Field
  timeGrain : Option TimeGrain
  deriving DecidableEq, Repr

structure ResolvedMetric where
  metric : Metric
  field : Field
  filter : Option (Field × Literal)
  aggregationAnchor : Option Field
  deriving DecidableEq, Repr

inductive ResolvedFilter where
  | and (args : List ResolvedFilter)
  | or (args : List ResolvedFilter)
  | not (arg : ResolvedFilter)
  | comparison (operator : ComparisonOperator) (field : Field) (value : Literal)
  | inList (field : Field) (values : List Literal)
  | isNull (field : Field)
  | isNotNull (field : Field)

/-- `relationships` is the `BTreeMap` of the source as its entries in key order. -/
structure ValidatedQuery where
  model : Model
  dimensions : List ResolvedDimension
  metrics : List ResolvedMetric
  filter : Option ResolvedFilter
  orderBy : List OrderBy
  relationships : List (String × Relationship)
  aggregationAnchor : Option Field
  limit : Nat

def resolveField (model : Model) (name : String) : Except CompileError Field :=
  orError (model.fields.find? fun field => field.semanticName == name) (.unknownField name)

def recordRelationship (field : Field) (relationships : List String) : List String :=
  match field.relationship with
  | some relationship => OrderedSet.insert relationship relationships
  | none => relationships

def isTemporal : DataType → Bool
  | .date | .timestamp | .timestampTz => true
  | _ => false

def literalCompatible : DataType → Literal → Bool
  | .boolean, .boolean _ => true
  | .integer, .integer _ => true
  | .numeric, .integer _ => true
  | .numeric, .numeric _ => true
  | .text, .text _ => true
  | .date, .date _ => true
  | .timestamp, .timestamp _ => true
  | .timestampTz, .date _ => true
  | .timestampTz, .timestamp _ => true
  | _, _ => false

def validateLiteral (field : Field) (literal : Literal) : Except CompileError Unit :=
  ensure (literalCompatible field.dataType literal) (.literalTypeMismatch field.semanticName)

def expectedMetricType (aggregation : Aggregation) (fieldType : DataType) : DataType :=
  match aggregation with
  | .count | .countDistinct => .integer
  | .avg => .numeric
  | .sum => if fieldType = .integer then .numeric else fieldType
  | .min | .max => fieldType

def resolveDimension (model : Model) (dimension : Dimension) (relationships : List String) :
    Except CompileError (ResolvedDimension × List String) := do
  let field ← resolveField model dimension.field
  ensure field.visible (.hiddenField dimension.field)
  ensure (dimension.timeGrain.isNone || (field.timeDimension && isTemporal field.dataType))
    (.invalidTimeGrain dimension.field)
  pure ({ field := field, timeGrain := dimension.timeGrain },
    recordRelationship field relationships)

def resolveMetricFilter (model : Model) (metric : Metric) (filter : MetricFilter)
    (relationships : List String) : Except CompileError ((Field × Literal) × List String) := do
  let field ← (resolveField model filter.field).mapError
    fun _ => .invalidMetricField metric.semanticName
  validateLiteral field filter.value
  pure ((field, filter.value), recordRelationship field relationships)

def resolveMetricAnchor (model : Model) (metric : Metric) (anchor : String) :
    Except CompileError Field := do
  let field ← (resolveField model anchor).mapError
    fun _ => .invalidAggregationAnchor metric.semanticName
  ensure (field.relationship.isNone && field.entityKey)
    (.invalidAggregationAnchor metric.semanticName)
  pure field

/-- An optional step of a traversal, as `map(..).transpose()?` runs it. -/
def optionally {α β σ : Type} (f : α → σ → Except CompileError (β × σ)) :
    Option α → σ → Except CompileError (Option β × σ)
  | none, s => .ok (none, s)
  | some a, s => (f a s).map fun r => (some r.1, r.2)

def resolveMetric (schemaVersion : String) (model : Model) (reference : MetricReference)
    (relationships : List String) : Except CompileError (ResolvedMetric × List String) := do
  let metric ← orError
    (model.metrics.find? fun metric => metric.semanticName == reference.metric)
    (.unknownMetric reference.metric)
  ensure metric.visible (.hiddenMetric reference.metric)
  let field ← (resolveField model metric.field).mapError
    fun _ => .invalidMetricField metric.semanticName
  ensure field.relationship.isNone (.joinedMetricField metric.semanticName)
  ensure (!(metric.aggregation == .count && !field.entityKey))
    (.countRequiresEntityKey metric.semanticName)
  ensure (!(metric.aggregation == .countDistinct && !field.entityKey))
    (.countDistinctRequiresEntityKey metric.semanticName)
  ensure (metric.dataType == expectedMetricType metric.aggregation field.dataType)
    (.invalidMetricType metric.semanticName)
  let relationships := recordRelationship field relationships
  let (filter, relationships) ← optionally (resolveMetricFilter model metric) metric.filter
    relationships
  ensure (!(schemaVersion == "1"
      && (metric.additivity.isSome || metric.aggregationAnchor.isSome)))
    (.invalidAggregationAnchor metric.semanticName)
  ensure (!(schemaVersion == "2" && metric.additivity.isNone))
    (.missingMetricMetadata metric.semanticName)
  let anchor ← metric.aggregationAnchor.mapM (resolveMetricAnchor model metric)
  pure ({ metric := metric, field := field, filter := filter, aggregationAnchor := anchor },
    relationships)

def visibleField (model : Model) (name : String) : Except CompileError Field := do
  let field ← resolveField model name
  ensure field.visible (.hiddenField name)
  pure field

def resolveComparison (model : Model) (field : String) (value : Literal)
    (operator : ComparisonOperator) (relationships : List String) :
    Except CompileError (ResolvedFilter × List String) := do
  let resolved ← visibleField model field
  validateLiteral resolved value
  pure (.comparison operator resolved value, recordRelationship resolved relationships)

mutual

def resolveFilter (model : Model) :
    Filter → List String → Except CompileError (ResolvedFilter × List String)
  | .and args, relationships => do
      let (args, relationships) ← resolveFilters model args relationships
      pure (.and args, relationships)
  | .or args, relationships => do
      let (args, relationships) ← resolveFilters model args relationships
      pure (.or args, relationships)
  | .not arg, relationships => do
      let (arg, relationships) ← resolveFilter model arg relationships
      pure (.not arg, relationships)
  | .comparison operator field value, relationships =>
      resolveComparison model field value operator relationships
  | .inList field values, relationships => do
      let resolved ← visibleField model field
      forEach (validateLiteral resolved) values
      pure (.inList resolved values, recordRelationship resolved relationships)
  | .isNull field, relationships => do
      let resolved ← visibleField model field
      pure (.isNull resolved, recordRelationship resolved relationships)
  | .isNotNull field, relationships => do
      let resolved ← visibleField model field
      pure (.isNotNull resolved, recordRelationship resolved relationships)

def resolveFilters (model : Model) :
    List Filter → List String → Except CompileError (List ResolvedFilter × List String)
  | [], relationships => .ok ([], relationships)
  | filter :: rest, relationships => do
      let (filter, relationships) ← resolveFilter model filter relationships
      let (rest, relationships) ← resolveFilters model rest relationships
      pure (filter :: rest, relationships)

end

def isDirectKey (column : String) (field : Field) : Bool :=
  field.column == column && field.relationship.isNone && field.entityKey

def resolveRelationship (models : List Model) (model : Model) (name : String) :
    Except CompileError (String × Relationship) := do
  let relationship ← orError
    (model.relationships.find? fun relationship => relationship.semanticName == name)
    (.unknownRelationship name)
  ensure (relationship.cardinality != .manyToMany) (.unsafeRelationship name)
  let targetModel ← orError
    (models.find? fun target => target.semanticName == relationship.targetModel)
    (.invalidRelationshipTarget relationship.semanticName)
  ensure (targetModel.source == relationship.target)
    (.invalidRelationshipTarget relationship.semanticName)
  match relationship.cardinality with
  | .manyToOne | .oneToOne =>
      ensure (targetModel.fields.any (isDirectKey relationship.toColumn))
        (.relationshipTargetNotEntityKey relationship.semanticName)
  | .oneToMany =>
      ensure (model.fields.any (isDirectKey relationship.fromColumn))
        (.invalidAggregationAnchor relationship.semanticName)
  | .manyToMany => .error (.unsafeRelationship name)
  pure (relationship.semanticName, relationship)

/-- The loop over the metrics of a fan-out query; `current` is the anchor seen so far. -/
def commonAnchor : Option Field → List ResolvedMetric → Except CompileError (Option Field)
  | current, [] => .ok current
  | current, metric :: rest => do
      let anchor ← orError metric.aggregationAnchor
        (.missingAggregationAnchor metric.metric.semanticName)
      ensure (!metric.filter.any fun filter => filter.1.relationship.isSome)
        (.joinedMetricFilter metric.metric.semanticName)
      ensure (metric.metric.additivity != some .semiAdditive)
        (.unsupportedFanoutAdditivity metric.metric.semanticName)
      ensure (!current.any fun field => field.semanticName != anchor.semanticName)
        .mixedAggregationAnchors
      commonAnchor (some anchor) rest

def fanoutAnchor (relationships : List (String × Relationship)) (metrics : List ResolvedMetric) :
    Except CompileError (Option Field) :=
  match relationships.find? fun entry => entry.2.cardinality == .oneToMany with
  | some entry => do
      ensure (!metrics.isEmpty) (.unsafeRelationship entry.2.semanticName)
      commonAnchor none metrics
  | none => .ok none

def checkOrderReference (references : List String) (orderBy : OrderBy) :
    Except CompileError Unit :=
  ensure (decide (orderBy.outputReference ∈ references))
    (.unknownOrderReference orderBy.outputReference)

/-- The part of `validate` after the snapshot, option and limit checks. -/
def resolveQuery (schemaVersion : String) (models : List Model) (model : Model)
    (query : LogicalSemanticQuery) (limit : Nat) : Except CompileError ValidatedQuery := do
  let (dimensions, required) ← mapAccumM (resolveDimension model) query.dimensions []
  let (metrics, required) ← mapAccumM (resolveMetric schemaVersion model) query.metrics required
  let (filter, required) ← optionally (resolveFilter model) query.filters required
  forEach (checkOrderReference query.references) query.orderBy
  let relationships ← required.mapM (resolveRelationship models model)
  let anchor ← fanoutAnchor relationships metrics
  pure { model := model, dimensions := dimensions, metrics := metrics, filter := filter,
         orderBy := query.orderBy, relationships := relationships, aggregationAnchor := anchor,
         limit := limit }

def checkRevisionHash (backend : HashBackend) (snapshot : SemanticSnapshot) :
    Except CompileError Unit := do
  ensure (isSha256 snapshot.revisionHash) .invalidRevisionHash
  let hash ← orError (snapshot.calculateRevisionHash backend) .hashSerialization
  ensure (hash == snapshot.revisionHash) .invalidRevisionHash

/-- The part of `validate` after the checks of the snapshot itself. -/
def validateAgainst (normalized : NormalizedLsq) (snapshot : SemanticSnapshot)
    (options : CompilerOptions) : Except CompileError ValidatedQuery := do
  ensure (!(options.defaultLimit == 0 || options.hardLimit == 0
      || decide (options.hardLimit < options.defaultLimit)))
    .invalidLimitConfiguration
  let model ← orError
    (snapshot.models.find? fun model =>
      model.semanticName == normalized.query.model && model.queryable)
    .unknownModel
  let limit := normalized.query.limit.getD options.defaultLimit
  ensure (decide (limit ≤ options.hardLimit)) .limitExceeded
  resolveQuery snapshot.schemaVersion snapshot.models model normalized.query limit

def checkSnapshot (backend : HashBackend) (snapshot : SemanticSnapshot) :
    Except CompileError Unit := do
  ensure (snapshot.schemaVersion == "1" || snapshot.schemaVersion == "2")
    (.unsupportedSnapshotVersion snapshot.schemaVersion)
  checkRevisionHash backend snapshot

/-- A snapshot with its own hash passes. -/
theorem checkSnapshot_of_published {backend : HashBackend} {snapshot : SemanticSnapshot}
    (hversion : snapshot.schemaVersion = "1" ∨ snapshot.schemaVersion = "2")
    (h : snapshot.calculateRevisionHash backend = some snapshot.revisionHash) :
    checkSnapshot backend snapshot = .ok () := by
  have hsupported : (snapshot.schemaVersion == "1" || snapshot.schemaVersion == "2") = true := by
    simpa using hversion
  rw [checkSnapshot, hsupported, ensure_true, ok_bind, checkRevisionHash, isSha256_of_published h,
    ensure_true, ok_bind, h, orError_some, ok_bind, beq_self_eq_true]
  rfl

def validate (backend : HashBackend) (normalized : NormalizedLsq) (snapshot : SemanticSnapshot)
    (options : CompilerOptions) : Except CompileError ValidatedQuery := do
  checkSnapshot backend snapshot
  validateAgainst normalized snapshot options

theorem validate_of_checkSnapshot {backend : HashBackend} {snapshot : SemanticSnapshot}
    (h : checkSnapshot backend snapshot = .ok ()) (normalized : NormalizedLsq)
    (options : CompilerOptions) :
    validate backend normalized snapshot options = validateAgainst normalized snapshot options := by
  rw [validate, h]
  rfl

end Postgresem
