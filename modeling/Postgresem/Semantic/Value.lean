import Postgresem.Foundation.Text
import Postgresem.Semantic.Json

/-! The objects of a snapshot as JSON values, with their members in the order of declaration. -/
namespace Postgresem
open Json (Value)

def DataType.toValue : DataType → Value
  | .boolean => .string "boolean"
  | .integer => .string "integer"
  | .numeric => .string "numeric"
  | .text => .string "text"
  | .date => .string "date"
  | .timestamp => .string "timestamp"
  | .timestampTz => .string "timestamp_tz"

def Literal.payload : Literal → Value
  | .text value | .numeric value | .date value | .timestamp value => .string value
  | .boolean value => .boolean value
  | .integer value => .number (toString value)

def Literal.toValue (literal : Literal) : Value :=
  .object [("type", .string literal.typeName), ("value", literal.payload)]

def Aggregation.toValue : Aggregation → Value
  | .count => .string "count"
  | .countDistinct => .string "count_distinct"
  | .sum => .string "sum"
  | .min => .string "min"
  | .max => .string "max"
  | .avg => .string "avg"

def Additivity.toValue : Additivity → Value
  | .additive => .string "additive"
  | .semiAdditive => .string "semi_additive"
  | .nonAdditive => .string "non_additive"

def Cardinality.toValue : Cardinality → Value
  | .oneToOne => .string "one_to_one"
  | .manyToOne => .string "many_to_one"
  | .oneToMany => .string "one_to_many"
  | .manyToMany => .string "many_to_many"

def JoinType.toValue : JoinType → Value
  | .inner => .string "inner"
  | .left => .string "left"

def nullableValue {α : Type} (write : α → Value) : Option α → Value
  | some value => write value
  | none => .null

/-- A member that is left out when there is no value. -/
def optionalMember {α : Type} (name : String) (write : α → Value) :
    Option α → List (String × Value)
  | some value => [(name, write value)]
  | none => []

def Relation.toValue (relation : Relation) : Value :=
  .object [("schema", .string relation.schema), ("relation", .string relation.relation)]

/-- `nullable` is not serialized. -/
def Field.toValue (field : Field) : Value :=
  .object [("semantic_name", .string field.semanticName), ("data_type", field.dataType.toValue),
    ("column", .string field.column), ("relationship", nullableValue .string field.relationship),
    ("time_dimension", .boolean field.timeDimension), ("entity_key", .boolean field.entityKey),
    ("visible", .boolean field.visible)]

def WritableField.toValue (field : WritableField) : Value :=
  .object [("field", .string field.field), ("nullable", .boolean field.nullable),
    ("required_on_insert", .boolean field.requiredOnInsert),
    ("updatable_on_conflict", .boolean field.updatableOnConflict)]

def UpsertPolicy.toValue (policy : UpsertPolicy) : Value :=
  .object [("conflict_fields", .array (policy.conflictFields.map .string))]

def WritableModel.toValue (writable : WritableModel) : Value :=
  .object (("insert", .boolean writable.insert)
    :: optionalMember "upsert" UpsertPolicy.toValue writable.upsert
    ++ [("max_rows", .number (toString writable.maxRows)),
      ("max_request_bytes", .number (toString writable.maxRequestBytes)),
      ("fields", .array (writable.fields.map WritableField.toValue)),
      ("returning", .array (writable.returning.map .string))])

def MetricFilter.toValue (filter : MetricFilter) : Value :=
  .object [("field", .string filter.field), ("value", filter.value.toValue)]

def Metric.toValue (metric : Metric) : Value :=
  .object ([("semantic_name", .string metric.semanticName), ("data_type", metric.dataType.toValue),
      ("aggregation", metric.aggregation.toValue), ("field", .string metric.field),
      ("filter", nullableValue MetricFilter.toValue metric.filter)]
    ++ optionalMember "additivity" Additivity.toValue metric.additivity
    ++ optionalMember "aggregation_anchor" .string metric.aggregationAnchor
    ++ [("visible", .boolean metric.visible)])

def Relationship.toValue (relationship : Relationship) : Value :=
  .object [("semantic_name", .string relationship.semanticName),
    ("target_model", .string relationship.targetModel), ("target", relationship.target.toValue),
    ("cardinality", relationship.cardinality.toValue), ("join_type", relationship.joinType.toValue),
    ("from_column", .string relationship.fromColumn), ("to_column", .string relationship.toColumn)]

def Model.toValue (model : Model) : Value :=
  .object ([("semantic_name", .string model.semanticName), ("source", model.source.toValue),
      ("timezone", nullableValue .string model.timezone), ("queryable", .boolean model.queryable)]
    ++ optionalMember "writable" WritableModel.toValue model.writable
    ++ [("fields", .array (model.fields.map Field.toValue)),
      ("metrics", .array (model.metrics.map Metric.toValue)),
      ("relationships", .array (model.relationships.map Relationship.toValue))])

/-! ## Values determine what is serialized -/

theorem nullableValue_injective {α : Type} {write : α → Value} (hwrite : write.Injective)
    (hnull : ∀ a, write a ≠ .null) : (nullableValue write).Injective := by
  rintro (_ | a) (_ | b) h
  · rfl
  · exact absurd h.symm (hnull b)
  · exact absurd h (hnull a)
  · rw [hwrite h]

theorem string_injective : Function.Injective Value.string := by
  intro a b h
  exact Value.string.inj h

theorem Relation.toValue_injective : Relation.toValue.Injective := by
  rintro ⟨schema, relation⟩ ⟨schema', relation'⟩ h
  simpa [Relation.toValue] using h

theorem WritableField.toValue_injective : WritableField.toValue.Injective := by
  rintro ⟨field, nullable, required, updatable⟩ ⟨field', nullable', required', updatable'⟩ h
  simpa [WritableField.toValue] using h

theorem UpsertPolicy.toValue_injective : UpsertPolicy.toValue.Injective := by
  rintro ⟨fields⟩ ⟨fields'⟩ h
  simp only [UpsertPolicy.toValue, Value.object.injEq, List.cons.injEq, Prod.mk.injEq,
    Value.array.injEq, true_and, and_true] at h
  rw [string_injective.list_map h]

theorem WritableModel.toValue_injective : WritableModel.toValue.Injective := by
  rintro ⟨insert, upsert, maxRows, maxBytes, fields, returning⟩
    ⟨insert', upsert', maxRows', maxBytes', fields', returning'⟩ h
  simp only [WritableModel.toValue, Value.object.injEq, List.cons_append, List.cons.injEq,
    Prod.mk.injEq, Value.boolean.injEq, true_and] at h
  obtain ⟨rfl, hrest⟩ := h
  obtain ⟨hupsert, htail⟩ := List.append_inj' hrest rfl
  simp only [List.cons.injEq, Prod.mk.injEq, Value.number.injEq, Value.array.injEq, true_and,
    and_true] at htail
  obtain ⟨hrows, hbytes, hfields, hreturning⟩ := htail
  have hpolicy : upsert = upsert' := by
    cases upsert with
    | none =>
      cases upsert' with
      | none => rfl
      | some policy => simp [optionalMember] at hupsert
    | some policy =>
      cases upsert' with
      | none => simp [optionalMember] at hupsert
      | some policy' =>
        simp only [optionalMember, List.cons.injEq, Prod.mk.injEq, true_and, and_true] at hupsert
        rw [UpsertPolicy.toValue_injective hupsert]
  rw [hpolicy, Text.toString_injective hrows, Text.toString_injective hbytes,
    WritableField.toValue_injective.list_map hfields, string_injective.list_map hreturning]

end Postgresem
