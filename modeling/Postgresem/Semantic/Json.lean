import Postgresem.Foundation.Json
import Postgresem.Foundation.Sha256
import Postgresem.Semantic.Snapshot

/-! The JSON text of a snapshot, member by member in the order of the derived serializers, and the
backend that hashes it with SHA-256. -/
namespace Postgresem
open Json

def DataType.json : DataType → String
  | .boolean => string "boolean"
  | .integer => string "integer"
  | .numeric => string "numeric"
  | .text => string "text"
  | .date => string "date"
  | .timestamp => string "timestamp"
  | .timestampTz => string "timestamp_tz"

def Literal.payloadJson : Literal → String
  | .text value | .numeric value | .date value | .timestamp value => string value
  | .boolean value => Json.boolean value
  | .integer value => toString value

def Literal.json (literal : Literal) : String :=
  object [("type", string literal.typeName), ("value", literal.payloadJson)]

def Aggregation.json : Aggregation → String
  | .count => string "count"
  | .countDistinct => string "count_distinct"
  | .sum => string "sum"
  | .min => string "min"
  | .max => string "max"
  | .avg => string "avg"

def Additivity.json : Additivity → String
  | .additive => string "additive"
  | .semiAdditive => string "semi_additive"
  | .nonAdditive => string "non_additive"

def Cardinality.json : Cardinality → String
  | .oneToOne => string "one_to_one"
  | .manyToOne => string "many_to_one"
  | .oneToMany => string "one_to_many"
  | .manyToMany => string "many_to_many"

def JoinType.json : JoinType → String
  | .inner => string "inner"
  | .left => string "left"

def Relation.json (relation : Relation) : String :=
  object [("schema", string relation.schema), ("relation", string relation.relation)]

/-- `nullable` is not serialized. -/
def Field.json (field : Field) : String :=
  object [("semantic_name", string field.semanticName), ("data_type", field.dataType.json),
    ("column", string field.column), ("relationship", Json.nullable string field.relationship),
    ("time_dimension", Json.boolean field.timeDimension), ("entity_key", Json.boolean field.entityKey),
    ("visible", Json.boolean field.visible)]

def WritableField.json (field : WritableField) : String :=
  object [("field", string field.field), ("nullable", Json.boolean field.nullable),
    ("required_on_insert", Json.boolean field.requiredOnInsert),
    ("updatable_on_conflict", Json.boolean field.updatableOnConflict)]

def UpsertPolicy.json (policy : UpsertPolicy) : String :=
  object [("conflict_fields", array (policy.conflictFields.map string))]

def WritableModel.json (writable : WritableModel) : String :=
  object (("insert", Json.boolean writable.insert)
    :: optional "upsert" UpsertPolicy.json writable.upsert
    ++ [("max_rows", toString writable.maxRows),
      ("max_request_bytes", toString writable.maxRequestBytes),
      ("fields", array (writable.fields.map WritableField.json)),
      ("returning", array (writable.returning.map string))])

def MetricFilter.json (filter : MetricFilter) : String :=
  object [("field", string filter.field), ("value", filter.value.json)]

def Metric.json (metric : Metric) : String :=
  object ([("semantic_name", string metric.semanticName), ("data_type", metric.dataType.json),
      ("aggregation", metric.aggregation.json), ("field", string metric.field),
      ("filter", Json.nullable MetricFilter.json metric.filter)]
    ++ optional "additivity" Additivity.json metric.additivity
    ++ optional "aggregation_anchor" string metric.aggregationAnchor
    ++ [("visible", Json.boolean metric.visible)])

def Relationship.json (relationship : Relationship) : String :=
  object [("semantic_name", string relationship.semanticName),
    ("target_model", string relationship.targetModel), ("target", relationship.target.json),
    ("cardinality", relationship.cardinality.json), ("join_type", relationship.joinType.json),
    ("from_column", string relationship.fromColumn), ("to_column", string relationship.toColumn)]

def Model.json (model : Model) : String :=
  object ([("semantic_name", string model.semanticName), ("source", model.source.json),
      ("timezone", Json.nullable string model.timezone), ("queryable", Json.boolean model.queryable)]
    ++ optional "writable" WritableModel.json model.writable
    ++ [("fields", array (model.fields.map Field.json)),
      ("metrics", array (model.metrics.map Metric.json)),
      ("relationships", array (model.relationships.map Relationship.json))])

def SemanticSnapshot.json (snapshot : SemanticSnapshot) : String :=
  object [("schema_version", string snapshot.schemaVersion),
    ("revision_hash", string snapshot.revisionHash),
    ("models", array (snapshot.models.map Model.json))]

/-- SHA-256 over the serialized snapshot; this serialization does not fail. -/
def standardHash : HashBackend :=
  { digest := Sha256.digest, snapshotJson := fun snapshot => some (bytesOf snapshot.json) }

end Postgresem
