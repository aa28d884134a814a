import Postgresem.Query.Idempotence
import Postgresem.Semantic.Serialization

/-! The deserializers that are derived for a snapshot. A snapshot that was written is read as it was, but
for the nullability of its fields, which is not written. -/
namespace Postgresem
open Json (Value Members fields field fieldOr leavingOut asString asBoolean asInteger asNatural isNull
  orNull listOf variantOf unitVariant knownFields)

section Decoders

def decodeDataType : Value → Option DataType :=
  variantOf [("boolean", .boolean), ("integer", .integer), ("numeric", .numeric), ("text", .text),
    ("date", .date), ("timestamp", .timestamp), ("timestamp_tz", .timestampTz)] isNull

def decodeAggregation : Value → Option Aggregation :=
  variantOf [("count", .count), ("count_distinct", .countDistinct), ("sum", .sum), ("min", .min),
    ("max", .max), ("avg", .avg)] isNull

def decodeAdditivity : Value → Option Additivity :=
  variantOf [("additive", .additive), ("semi_additive", .semiAdditive),
    ("non_additive", .nonAdditive)] isNull

def decodeCardinality : Value → Option Cardinality :=
  variantOf [("one_to_one", .oneToOne), ("many_to_one", .manyToOne), ("one_to_many", .oneToMany),
    ("many_to_many", .manyToMany)] isNull

def decodeJoinType : Value → Option JoinType :=
  variantOf [("inner", .inner), ("left", .left)] isNull

def decodeRelation (value : Value) : Option Relation := do
  let members ← fields ["schema", "relation"] value
  let schema ← field asString members "schema"
  let relation ← field asString members "relation"
  some ⟨schema, relation⟩

def decodeField (value : Value) : Option Field := do
  let members ← leavingOut 3 fields ["semantic_name", "data_type", "column", "relationship",
    "time_dimension", "entity_key", "visible", "nullable"] value
  let semanticName ← field asString members "semantic_name"
  let dataType ← field decodeDataType members "data_type"
  let column ← field asString members "column"
  let relationship ← fieldOr none (orNull asString) members "relationship"
  let timeDimension ← fieldOr false asBoolean members "time_dimension"
  let entityKey ← fieldOr false asBoolean members "entity_key"
  let visible ← fieldOr true asBoolean members "visible"
  let nullable ← fieldOr true asBoolean members "nullable"
  some { semanticName, dataType, column, relationship, timeDimension, entityKey, visible, nullable }

def decodeWritableField (value : Value) : Option WritableField := do
  let members ← leavingOut 2 fields ["field", "nullable", "required_on_insert",
    "updatable_on_conflict"] value
  let name ← field asString members "field"
  let nullable ← field asBoolean members "nullable"
  let requiredOnInsert ← fieldOr false asBoolean members "required_on_insert"
  let updatableOnConflict ← fieldOr false asBoolean members "updatable_on_conflict"
  some { field := name, nullable, requiredOnInsert, updatableOnConflict }

def decodeUpsertPolicy (value : Value) : Option UpsertPolicy := do
  let members ← fields ["conflict_fields"] value
  let conflictFields ← field (listOf asString) members "conflict_fields"
  some ⟨conflictFields⟩

def decodeWritableModel (value : Value) : Option WritableModel := do
  let members ← fields ["insert", "upsert", "max_rows", "max_request_bytes", "fields", "returning"]
    value
  let insert ← field asBoolean members "insert"
  let upsert ← fieldOr none (orNull decodeUpsertPolicy) members "upsert"
  let maxRows ← field asNatural members "max_rows"
  let maxRequestBytes ← field asNatural members "max_request_bytes"
  let writableFields ← field (listOf decodeWritableField) members "fields"
  let returning ← field (listOf asString) members "returning"
  some { insert, upsert, maxRows, maxRequestBytes, fields := writableFields, returning }

/-- The literal of a metric's filter is not buffered, unlike that of a query's filter. -/
def decodeFilterLiteral (value : Value) : Option Literal := do
  let members ← knownFields ["type", "value"] value
  let typeName ← field (unitVariant isNull) members "type"
  field (decodePayload typeName) members "value"

def decodeMetricFilter (value : Value) : Option MetricFilter := do
  let members ← fields ["field", "value"] value
  let name ← field asString members "field"
  let literal ← field decodeFilterLiteral members "value"
  some ⟨name, literal⟩

def decodeMetric (value : Value) : Option Metric := do
  let members ← leavingOut 4 fields ["semantic_name", "data_type", "aggregation", "field", "filter",
    "additivity", "aggregation_anchor", "visible"] value
  let semanticName ← field asString members "semantic_name"
  let dataType ← field decodeDataType members "data_type"
  let aggregation ← field decodeAggregation members "aggregation"
  let name ← field asString members "field"
  let filter ← fieldOr none (orNull decodeMetricFilter) members "filter"
  let additivity ← fieldOr none (orNull decodeAdditivity) members "additivity"
  let aggregationAnchor ← fieldOr none (orNull asString) members "aggregation_anchor"
  let visible ← fieldOr true asBoolean members "visible"
  some { semanticName, dataType, aggregation, field := name
         filter, additivity, aggregationAnchor, visible }

def decodeRelationship (value : Value) : Option Relationship := do
  let members ← fields ["semantic_name", "target_model", "target", "cardinality", "join_type",
    "from_column", "to_column"] value
  let semanticName ← field asString members "semantic_name"
  let targetModel ← field asString members "target_model"
  let target ← field decodeRelation members "target"
  let cardinality ← field decodeCardinality members "cardinality"
  let joinType ← field decodeJoinType members "join_type"
  let fromColumn ← field asString members "from_column"
  let toColumn ← field asString members "to_column"
  some { semanticName, targetModel, target, cardinality, joinType, fromColumn, toColumn }

def decodeModel (value : Value) : Option Model := do
  let members ← leavingOut 7 fields ["semantic_name", "source", "timezone", "queryable", "writable",
    "fields", "metrics", "relationships"] value
  let semanticName ← field asString members "semantic_name"
  let source ← field decodeRelation members "source"
  let timezone ← fieldOr none (orNull asString) members "timezone"
  let queryable ← fieldOr true asBoolean members "queryable"
  let writable ← fieldOr none (orNull decodeWritableModel) members "writable"
  let modelFields ← field (listOf decodeField) members "fields"
  let metrics ← field (listOf decodeMetric) members "metrics"
  let relationships ← fieldOr [] (listOf decodeRelationship) members "relationships"
  some { semanticName, source, timezone, queryable, writable
         fields := modelFields, metrics, relationships }

def decodeSnapshot (value : Value) : Option SemanticSnapshot := do
  let members ← fields ["schema_version", "revision_hash", "models"] value
  let schemaVersion ← field asString members "schema_version"
  let revisionHash ← field asString members "revision_hash"
  let models ← field (listOf decodeModel) members "models"
  some { schemaVersion, revisionHash, models }

/-- `serde_json::from_slice` into a snapshot. `finite` says of the text of a number whether its
conversion to floating point is in range. -/
def parseSnapshot (finite : String → Bool) (input : List UInt8) : Option SemanticSnapshot := do
  let value ← Json.read input
  if value.numbersAll (Json.readsNumber finite) then decodeSnapshot value else none

end Decoders

section RoundTrip

/-- The integers of a snapshot are those of its types. -/
structure WritableModel.InRange (writable : WritableModel) : Prop where
  maxRows : writable.maxRows < 2 ^ 32
  maxRequestBytes : writable.maxRequestBytes < 2 ^ 32

structure Model.InRange (model : Model) : Prop where
  writable : ∀ writable, model.writable = some writable → writable.InRange
  filters : ∀ metric ∈ model.metrics, ∀ filter, metric.filter = some filter → filter.value.InRange

def SemanticSnapshot.InRange (snapshot : SemanticSnapshot) : Prop :=
  ∀ model ∈ snapshot.models, model.InRange

theorem decodeDataType_toValue (dataType : DataType) :
    decodeDataType dataType.toValue = some dataType := by
  cases dataType <;> rfl

theorem decodeField_toValue (field : Field) : decodeField field.toValue = some field.hashed := by
  obtain ⟨semanticName, dataType, column, relationship, timeDimension, entityKey, visible,
    nullable⟩ := field
  show (decodeDataType dataType.toValue).bind _ = _
  rw [decodeDataType_toValue]
  cases relationship <;> rfl

theorem listOf_strings (values : List String) :
    listOf asString (.array (values.map .string)) = some values :=
  Json.listOf_map fun _ _ => rfl

theorem decodeWritableModel_toValue {writable : WritableModel} (h : writable.InRange) :
    decodeWritableModel writable.toValue = some writable := by
  obtain ⟨insert, upsert, maxRows, maxRequestBytes, writableFields, returning⟩ := writable
  have hfields : listOf decodeWritableField (.array (writableFields.map WritableField.toValue)) =
      some writableFields := Json.listOf_map fun _ _ => rfl
  have hrows : asNatural (.number (toString maxRows)) = some maxRows :=
    Json.asU32_toString h.maxRows
  have hbytes : asNatural (.number (toString maxRequestBytes)) = some maxRequestBytes :=
    Json.asU32_toString h.maxRequestBytes
  have hrest : (asNatural (.number (toString maxRows))).bind (fun rows =>
      (asNatural (.number (toString maxRequestBytes))).bind fun bytes =>
      (listOf decodeWritableField (.array (writableFields.map WritableField.toValue))).bind fun found =>
      (listOf asString (.array (returning.map .string))).bind fun returned =>
        some (WritableModel.mk insert upsert rows bytes found returned)) =
      some ⟨insert, upsert, maxRows, maxRequestBytes, writableFields, returning⟩ := by
    rw [hrows, hbytes, hfields, listOf_strings]
    rfl
  cases upsert with
  | none => exact hrest
  | some policy =>
    have hpolicy : orNull decodeUpsertPolicy policy.toValue = some (some policy) := by
      show ((listOf asString (.array (policy.conflictFields.map .string))).bind _).map _ = _
      rw [listOf_strings]
      rfl
    show (orNull decodeUpsertPolicy policy.toValue).bind _ = _
    rw [hpolicy]
    exact hrest

theorem decodeMetricFilter_toValue {filter : MetricFilter} (h : filter.value.InRange) :
    decodeMetricFilter filter.toValue = some filter := by
  obtain ⟨name, literal⟩ := filter
  have hliteral : decodeFilterLiteral literal.toValue = some literal := by
    cases literal with
    | integer value =>
      have hread : Json.asI64 (toString value) = some value :=
        Json.asI64_eq_some.mpr ⟨Json.integerOf_toString value, h⟩
      show (Json.asI64 (toString value)).map Literal.integer = _
      rw [hread]
      rfl
    | _ => rfl
  show (decodeFilterLiteral literal.toValue).bind _ = _
  rw [hliteral]
  rfl

theorem decodeMetric_toValue {metric : Metric}
    (h : ∀ filter, metric.filter = some filter → filter.value.InRange) :
    decodeMetric metric.toValue = some metric := by
  obtain ⟨semanticName, dataType, aggregation, name, filter, additivity, anchor, visible⟩ := metric
  have hfilter : orNull decodeMetricFilter (nullableValue MetricFilter.toValue filter) = some filter :=
    orNull_nullableValue (fun _ => rfl) fun found hfound => decodeMetricFilter_toValue (h found hfound)
  have haggregation : decodeAggregation aggregation.toValue = some aggregation := by
    cases aggregation <;> rfl
  have hrest : (decodeDataType dataType.toValue).bind (fun type =>
      (decodeAggregation aggregation.toValue).bind fun function =>
      (orNull decodeMetricFilter (nullableValue MetricFilter.toValue filter)).bind fun found =>
        some (Metric.mk semanticName type function name found additivity anchor visible)) =
      some ⟨semanticName, dataType, aggregation, name, filter, additivity, anchor, visible⟩ := by
    rw [decodeDataType_toValue, haggregation, hfilter]
    rfl
  cases additivity with
  | none => cases anchor <;> exact hrest
  | some additivity => cases additivity <;> cases anchor <;> exact hrest

theorem decodeRelationship_toValue (relationship : Relationship) :
    decodeRelationship relationship.toValue = some relationship := by
  obtain ⟨semanticName, targetModel, target, cardinality, joinType, fromColumn, toColumn⟩ :=
    relationship
  cases cardinality <;> cases joinType <;> rfl

theorem listOf_map_to {α β : Type} {write : α → Value} {decode : Value → Option β} {f : α → β}
    {items : List α} (h : ∀ item ∈ items, decode (write item) = some (f item)) :
    listOf decode (.array (items.map write)) = some (items.map f) := by
  show (items.map write).mapM decode = _
  induction items with
  | nil => rfl
  | cons item items ih =>
    rw [List.map_cons, List.mapM_cons, h item (by simp), ih fun other hother => h other (by simp [hother])]
    rfl

theorem decodeModel_toValue {model : Model} (h : model.InRange) :
    decodeModel model.toValue = some model.hashed := by
  obtain ⟨semanticName, source, timezone, queryable, writable, modelFields, metrics, relationships⟩ :=
    model
  have hfields : listOf decodeField (.array (modelFields.map Field.toValue)) =
      some (modelFields.map Field.hashed) := listOf_map_to fun field _ => decodeField_toValue field
  have hmetrics : listOf decodeMetric (.array (metrics.map Metric.toValue)) = some metrics :=
    Json.listOf_map fun metric hmetric => decodeMetric_toValue (h.filters metric hmetric)
  have hrelationships : listOf decodeRelationship
      (.array (relationships.map Relationship.toValue)) = some relationships :=
    Json.listOf_map fun relationship _ => decodeRelationship_toValue relationship
  have hrest : (listOf decodeField (.array (modelFields.map Field.toValue))).bind (fun found =>
      (listOf decodeMetric (.array (metrics.map Metric.toValue))).bind fun measured =>
      (listOf decodeRelationship (.array (relationships.map Relationship.toValue))).bind
        fun related => some (Model.mk semanticName source timezone queryable writable found measured
          related)) =
      some (Model.hashed ⟨semanticName, source, timezone, queryable, writable, modelFields, metrics,
        relationships⟩) := by
    rw [hfields, hmetrics, hrelationships]
    rfl
  cases writable with
  | none => cases timezone <;> exact hrest
  | some writable =>
    have hwritable : orNull decodeWritableModel writable.toValue = some (some writable) := by
      show (decodeWritableModel writable.toValue).map some = _
      rw [decodeWritableModel_toValue (h.writable writable rfl)]
      rfl
    cases timezone with
    | none =>
      show (orNull decodeWritableModel writable.toValue).bind _ = _
      rw [hwritable]
      exact hrest
    | some timezone =>
      show (orNull decodeWritableModel writable.toValue).bind _ = _
      rw [hwritable]
      exact hrest

theorem decodeSnapshot_toValue {snapshot : SemanticSnapshot} (h : snapshot.InRange) :
    decodeSnapshot snapshot.toValue = some snapshot.hashed := by
  have hmodels : listOf decodeModel (.array (snapshot.models.map Model.toValue)) =
      some (snapshot.models.map Model.hashed) :=
    listOf_map_to fun model hmodel => decodeModel_toValue (h model hmodel)
  show (listOf decodeModel (.array (snapshot.models.map Model.toValue))).bind _ = _
  rw [hmodels]
  rfl

end RoundTrip

section Readable
/-! The text of a snapshot is read: it is not nested deeper than the reader goes, and its numbers are in
range. -/

theorem membersDepth_append (members others : Members) :
    Value.membersDepth (members ++ others) =
      max (Value.membersDepth members) (Value.membersDepth others) := by
  induction members with
  | nil => exact (Nat.zero_max _).symm
  | cons member members ih =>
    obtain ⟨name, value⟩ := member
    rw [List.cons_append, Value.membersDepth, Value.membersDepth, ih, Nat.max_assoc]

theorem depth_optionalMember {α : Type} {write : α → Value} {n : Nat} (h : ∀ a, (write a).depth ≤ n)
    (name : String) (value : Option α) : Value.membersDepth (optionalMember name write value) ≤ n := by
  cases value with
  | none => exact Nat.zero_le n
  | some a => exact Nat.max_le.mpr ⟨h a, Nat.zero_le n⟩

theorem Metric.depth_toValue (metric : Metric) : metric.toValue.depth ≤ 3 := by
  have htype : metric.dataType.toValue.depth = 0 := by cases metric.dataType <;> rfl
  have haggregation : metric.aggregation.toValue.depth = 0 := by cases metric.aggregation <;> rfl
  have hadditivity : Value.membersDepth
      (optionalMember "additivity" Additivity.toValue metric.additivity) ≤ 0 :=
    depth_optionalMember (fun additivity => by cases additivity <;> exact le_rfl) _ _
  have hanchor : Value.membersDepth
      (optionalMember "aggregation_anchor" Value.string metric.aggregationAnchor) ≤ 0 :=
    depth_optionalMember (fun _ => Nat.le_refl 0) _ _
  have hfilter : (nullableValue MetricFilter.toValue metric.filter).depth ≤ 2 := by
    refine depth_nullableValue fun filter _ => ?_
    simp only [MetricFilter.toValue, Value.depth, Value.membersDepth, filter.value.depth_toValue]
    omega
  simp only [Metric.toValue, Value.depth, membersDepth_append, Value.membersDepth, htype,
    haggregation]
  omega

theorem WritableModel.depth_toValue (writable : WritableModel) : writable.toValue.depth ≤ 3 := by
  have hstrings (values : List String) : Value.itemsDepth (values.map .string) ≤ 0 :=
    Value.itemsDepth_le (List.forall_mem_map.mpr fun _ _ => le_rfl)
  have hpolicy (policy : UpsertPolicy) : policy.toValue.depth ≤ 2 := by
    have hfields := hstrings policy.conflictFields
    simp only [UpsertPolicy.toValue, Value.depth, Value.membersDepth]
    omega
  have hupsert := depth_optionalMember hpolicy "upsert" writable.upsert
  have hfields : Value.itemsDepth (writable.fields.map WritableField.toValue) ≤ 1 :=
    Value.itemsDepth_le (List.forall_mem_map.mpr fun _ _ => le_rfl)
  have hreturning := hstrings writable.returning
  simp only [WritableModel.toValue, Value.depth, List.cons_append, membersDepth_append,
    Value.membersDepth]
  omega

theorem Relationship.depth_toValue (relationship : Relationship) : relationship.toValue.depth ≤ 2 := by
  obtain ⟨semanticName, targetModel, target, cardinality, joinType, fromColumn, toColumn⟩ :=
    relationship
  cases cardinality <;> cases joinType <;> exact le_rfl

theorem Field.depth_toValue (field : Field) : field.toValue.depth ≤ 1 := by
  obtain ⟨semanticName, dataType, column, relationship, timeDimension, entityKey, visible,
    nullable⟩ := field
  cases dataType <;> cases relationship <;> exact le_rfl

theorem Model.depth_toValue (model : Model) : model.toValue.depth ≤ 5 := by
  have htimezone : (nullableValue Value.string model.timezone).depth ≤ 0 :=
    depth_nullableValue fun _ _ => le_rfl
  have hwritable := depth_optionalMember WritableModel.depth_toValue "writable" model.writable
  have hfields := Value.itemsDepth_le (List.forall_mem_map.mpr fun field (_ : field ∈ model.fields) =>
    field.depth_toValue)
  have hmetrics := Value.itemsDepth_le (List.forall_mem_map.mpr
    fun metric (_ : metric ∈ model.metrics) => metric.depth_toValue)
  have hrelationships := Value.itemsDepth_le (List.forall_mem_map.mpr
    fun relationship (_ : relationship ∈ model.relationships) => relationship.depth_toValue)
  have hsource : model.source.toValue.depth = 1 := rfl
  simp only [Model.toValue, Value.depth, membersDepth_append, Value.membersDepth, hsource]
  omega

theorem SemanticSnapshot.depth_toValue (snapshot : SemanticSnapshot) :
    snapshot.toValue.depth ≤ Json.maxDepth := by
  have hmodels := Value.itemsDepth_le (List.forall_mem_map.mpr
    fun model (_ : model ∈ snapshot.models) => model.depth_toValue)
  simp only [SemanticSnapshot.toValue, Value.depth, Value.membersDepth, Json.maxDepth]
  omega

variable {finite : String → Bool}

theorem readsNumber_natural {value : Nat} (h : value < 2 ^ 32) :
    Json.readsNumber finite (toString value) = true := by
  have htext : toString value = toString (value : Int) := rfl
  rw [htext, readsNumber_integer (by omega)]

theorem numbersAll_optionalMember {α : Type} {p : String → Bool} {write : α → Value} (name : String)
    {value : Option α} (h : ∀ a, value = some a → (write a).numbersAll p = true) :
    (optionalMember name write value).all (fun member => member.2.numbersAll p) = true := by
  cases value with
  | none => rfl
  | some a => exact List.all_eq_true.mpr (List.forall_mem_singleton.mpr (h a rfl))

theorem Metric.numbersAll_toValue {metric : Metric}
    (h : ∀ filter, metric.filter = some filter → filter.value.InRange) :
    metric.toValue.numbersAll (Json.readsNumber finite) = true := by
  have htype : metric.dataType.toValue.numbersAll (Json.readsNumber finite) = true := by
    cases metric.dataType <;> rfl
  have haggregation : metric.aggregation.toValue.numbersAll (Json.readsNumber finite) = true := by
    cases metric.aggregation <;> rfl
  have hfilter : (nullableValue MetricFilter.toValue metric.filter).numbersAll
      (Json.readsNumber finite) = true := by
    refine numbersAll_nullableValue fun filter hfilter => ?_
    simp only [MetricFilter.toValue, Json.numbersAll_object, List.all_cons,
      Literal.numbersAll_toValue (h filter hfilter)]
    rfl
  have hadditivity : (optionalMember "additivity" Additivity.toValue metric.additivity).all
      (fun member => member.2.numbersAll (Json.readsNumber finite)) = true :=
    numbersAll_optionalMember _ fun additivity _ => by cases additivity <;> rfl
  have hanchor : (optionalMember "aggregation_anchor" Value.string metric.aggregationAnchor).all
      (fun member => member.2.numbersAll (Json.readsNumber finite)) = true :=
    numbersAll_optionalMember _ fun _ _ => rfl
  simp only [Metric.toValue, Json.numbersAll_object, List.all_append, List.all_cons, List.all_nil,
    htype, haggregation, hfilter, hadditivity, hanchor]
  rfl

theorem WritableModel.numbersAll_toValue {writable : WritableModel} (h : writable.InRange) :
    writable.toValue.numbersAll (Json.readsNumber finite) = true := by
  have hstrings (values : List String) : (Value.array (values.map .string)).numbersAll
      (Json.readsNumber finite) = true := numbersAll_map fun _ _ => rfl
  have hupsert : (optionalMember "upsert" UpsertPolicy.toValue writable.upsert).all
      (fun member => member.2.numbersAll (Json.readsNumber finite)) = true := by
    refine numbersAll_optionalMember _ fun policy _ => ?_
    rw [UpsertPolicy.toValue, Json.numbersAll_object, List.all_cons, hstrings]
    rfl
  have hrows : (Value.number (toString writable.maxRows)).numbersAll (Json.readsNumber finite) =
      true := readsNumber_natural h.maxRows
  have hbytes : (Value.number (toString writable.maxRequestBytes)).numbersAll
      (Json.readsNumber finite) = true := readsNumber_natural h.maxRequestBytes
  have hfields : (Value.array (writable.fields.map WritableField.toValue)).numbersAll
      (Json.readsNumber finite) = true := numbersAll_map fun _ _ => rfl
  simp only [WritableModel.toValue, Json.numbersAll_object, List.cons_append, List.all_append,
    List.all_cons, List.all_nil, hupsert, hfields, hstrings, hrows, hbytes]
  rfl

theorem Model.numbersAll_toValue {model : Model} (h : model.InRange) :
    model.toValue.numbersAll (Json.readsNumber finite) = true := by
  have htimezone : (nullableValue Value.string model.timezone).numbersAll
      (Json.readsNumber finite) = true := numbersAll_nullableValue fun _ _ => rfl
  have hwritable : (optionalMember "writable" WritableModel.toValue model.writable).all
      (fun member => member.2.numbersAll (Json.readsNumber finite)) = true :=
    numbersAll_optionalMember _ fun writable hwritable =>
      WritableModel.numbersAll_toValue (h.writable writable hwritable)
  have hfields : (Value.array (model.fields.map Field.toValue)).numbersAll
      (Json.readsNumber finite) = true := by
    refine numbersAll_map fun field _ => ?_
    obtain ⟨semanticName, dataType, column, relationship, timeDimension, entityKey, visible,
      nullable⟩ := field
    cases dataType <;> cases relationship <;> rfl
  have hmetrics : (Value.array (model.metrics.map Metric.toValue)).numbersAll
      (Json.readsNumber finite) = true :=
    numbersAll_map fun metric hmetric => Metric.numbersAll_toValue (h.filters metric hmetric)
  have hrelationships : (Value.array (model.relationships.map Relationship.toValue)).numbersAll
      (Json.readsNumber finite) = true := by
    refine numbersAll_map fun relationship _ => ?_
    obtain ⟨semanticName, targetModel, target, cardinality, joinType, fromColumn, toColumn⟩ :=
      relationship
    cases cardinality <;> cases joinType <;> rfl
  have hsource : model.source.toValue.numbersAll (Json.readsNumber finite) = true := rfl
  simp only [Model.toValue, Json.numbersAll_object, List.all_append, List.all_cons, List.all_nil,
    htimezone, hwritable, hfields, hmetrics, hrelationships, hsource]
  rfl

theorem SemanticSnapshot.numbersAll_toValue {snapshot : SemanticSnapshot} (h : snapshot.InRange) :
    snapshot.toValue.numbersAll (Json.readsNumber finite) = true := by
  have hmodels : (Value.array (snapshot.models.map Model.toValue)).numbersAll
      (Json.readsNumber finite) = true :=
    numbersAll_map fun model hmodel => Model.numbersAll_toValue (h model hmodel)
  simp only [SemanticSnapshot.toValue, Json.numbersAll_object, List.all_cons, hmodels]
  rfl

theorem SemanticSnapshot.read_json (snapshot : SemanticSnapshot) :
    Json.read (bytesOf snapshot.json) = some snapshot.toValue := by
  rw [← SemanticSnapshot.toValue_text]
  exact Json.read_text snapshot.toValue_wellFormed snapshot.depth_toValue

/-- A snapshot that was written is read as it was, but for the nullability of its fields. -/
theorem parseSnapshot_json {snapshot : SemanticSnapshot} (h : snapshot.InRange) :
    parseSnapshot finite (bytesOf snapshot.json) = some snapshot.hashed := by
  rw [parseSnapshot, snapshot.read_json, Option.bind_eq_bind, Option.bind_some,
    if_pos (SemanticSnapshot.numbersAll_toValue h), decodeSnapshot_toValue h]

end Readable

end Postgresem
