import Postgresem.Foundation.OrderedSet
import Postgresem.Query.Lsq

/-! What a query needs of its model, said on the documents alone: the fields it names, the
relationships these fields go through, and the identifiers that end up in the body of the
statement. -/
namespace Postgresem

mutual

def Filter.fieldNames : Filter → List String
  | .and args | .or args => Filter.fieldNamesEach args
  | .not arg => arg.fieldNames
  | .comparison _ field _ | .inList field _ | .isNull field | .isNotNull field => [field]

def Filter.fieldNamesEach : List Filter → List String
  | [] => []
  | filter :: rest => filter.fieldNames ++ Filter.fieldNamesEach rest

end

def Model.findField (model : Model) (name : String) : Option Field :=
  model.fields.find? fun field => field.semanticName == name

def Model.findMetric (model : Model) (name : String) : Option Metric :=
  model.metrics.find? fun metric => metric.semanticName == name

def Model.findRelationship (model : Model) (name : String) : Option Relationship :=
  model.relationships.find? fun relationship => relationship.semanticName == name

def SemanticSnapshot.findModel (snapshot : SemanticSnapshot) (query : LogicalSemanticQuery) :
    Option Model :=
  snapshot.models.find? fun model => model.semanticName == query.model && model.queryable

/-- The field of a metric and that of its filter. -/
def Metric.fieldNames (metric : Metric) : List String :=
  metric.field :: (metric.filter.map MetricFilter.field).toList

def LogicalSemanticQuery.filterNames (query : LogicalSemanticQuery) : List String :=
  match query.filters with
  | some filter => filter.fieldNames
  | none => []

def filterFieldsOf (model : Model) (query : LogicalSemanticQuery) : List Field :=
  query.filterNames.filterMap model.findField

def dimensionFieldsOf (model : Model) (query : LogicalSemanticQuery) : List Field :=
  (query.dimensions.map Dimension.field).filterMap model.findField

def metricFieldsOf (model : Model) (query : LogicalSemanticQuery) : List Field :=
  ((query.metrics.map MetricReference.metric).filterMap model.findMetric).flatMap
    fun metric => metric.fieldNames.filterMap model.findField

def requiredFields (model : Model) (query : LogicalSemanticQuery) : List Field :=
  dimensionFieldsOf model query ++ metricFieldsOf model query ++ filterFieldsOf model query

def requiredNames (model : Model) (query : LogicalSemanticQuery) : List String :=
  OrderedSet.insertAll ((requiredFields model query).filterMap Field.relationship) []

def requiredRelationships (model : Model) (query : LogicalSemanticQuery) : List Relationship :=
  ((requiredFields model query).filterMap Field.relationship).filterMap model.findRelationship

/-- The relation that a field is a column of. -/
def Model.fieldRelation (model : Model) (field : Field) : Option Relation :=
  match field.relationship with
  | some name => (model.findRelationship name).map Relationship.target
  | none => some model.source

/-- The anchors that the metrics of the query name. -/
def anchorFieldsOf (model : Model) (query : LogicalSemanticQuery) : List Field :=
  ((query.metrics.map MetricReference.metric).filterMap model.findMetric).filterMap
    fun metric => metric.aggregationAnchor.bind model.findField

/-- The columns that a query may touch, with the relation that each belongs to. -/
def ownedColumns (model : Model) (query : LogicalSemanticQuery) : List (Relation × String) :=
  (requiredFields model query ++ anchorFieldsOf model query).filterMap (fun field =>
      (model.fieldRelation field).map fun relation => (relation, field.column))
    ++ (requiredRelationships model query).flatMap fun relationship =>
      [(model.source, relationship.fromColumn), (relationship.target, relationship.toColumn)]

/-- The table aliases of the statement: the root, then the relationships in name order. -/
def expectedBindings (model : Model) (query : LogicalSemanticQuery) : List (Nat × Relation) :=
  (0, model.source) :: ((requiredNames model query).filterMap model.findRelationship).zipIdx.map
    fun entry => (entry.2 + 1, entry.1.target)

/-- No one-to-many relationship is used, so the statement is a flat one. -/
def FlatPath (model : Model) (query : LogicalSemanticQuery) : Prop :=
  ∀ relationship ∈ requiredRelationships model query, relationship.cardinality ≠ .oneToMany

def relationIdentifiers (model : Model) (query : LogicalSemanticQuery) : List String :=
  [model.source.schema, model.source.relation]
    ++ (requiredRelationships model query).flatMap fun relationship =>
      [relationship.target.schema, relationship.target.relation]

/-- The identifiers of the `FROM`, `JOIN`, `ON` and `WHERE` positions. -/
def bodyIdentifiers (model : Model) (query : LogicalSemanticQuery) : List String :=
  relationIdentifiers model query
    ++ (requiredRelationships model query).flatMap (fun relationship =>
      [relationship.fromColumn, relationship.toColumn])
    ++ (filterFieldsOf model query).map Field.column

def Unbroken (identifiers : List String) : Prop :=
  ∀ identifier ∈ identifiers, '\n' ∉ identifier.toList

instance (model : Model) (query : LogicalSemanticQuery) : Decidable (FlatPath model query) :=
  inferInstanceAs (Decidable (∀ relationship ∈ requiredRelationships model query,
    relationship.cardinality ≠ .oneToMany))

instance (identifiers : List String) : Decidable (Unbroken identifiers) :=
  inferInstanceAs (Decidable (∀ identifier ∈ identifiers, '\n' ∉ identifier.toList))

end Postgresem
