import Postgresem.Foundation.JsonDecoding
import Postgresem.Foundation.JsonReader
import Postgresem.Query.Normalize

/-! The deserializers that are derived for a query, and `normalize_lsq` on bytes. -/
namespace Postgresem
open Json (Value Stable Reorders fields knownFields field fieldOr asString asBoolean asInteger asNatural
  isNull isUnit orNull listOf variantOf unitVariant taggedBy)
open Control

section Decoders

def decodeTimeGrain : Value → Option TimeGrain :=
  variantOf [("day", .day), ("week", .week), ("month", .month), ("quarter", .quarter),
    ("year", .year)] isNull

def decodeSortDirection : Value → Option SortDirection :=
  variantOf [("asc", .asc), ("desc", .desc)] isNull

def decodeDimension (value : Value) : Option Dimension := do
  let members ← fields ["field", "time_grain"] value
  let name ← field asString members "field"
  let timeGrain ← fieldOr none (orNull decodeTimeGrain) members "time_grain"
  some ⟨name, timeGrain⟩

def decodeMetricReference (value : Value) : Option MetricReference := do
  let members ← fields ["metric"] value
  let metric ← field asString members "metric"
  some ⟨metric⟩

def decodeOrderBy (value : Value) : Option OrderBy := do
  let members ← fields ["ref", "direction"] value
  let outputReference ← field asString members "ref"
  let direction ← field decodeSortDirection members "direction"
  some ⟨outputReference, direction⟩

/-- The content of a literal, by its tag. -/
def decodePayload (typeName : String) (value : Value) : Option Literal :=
  match typeName with
  | "text" => (asString value).map .text
  | "boolean" => (asBoolean value).map .boolean
  | "integer" => (asInteger value).map .integer
  | "numeric" => (asString value).map .numeric
  | "date" => (asString value).map .date
  | "timestamp" => (asString value).map .timestamp
  | _ => none

/-- A literal is adjacently tagged, and members other than its tag and its content are ignored. It
stands below a filter, which is buffered for its own tag, so an empty object is a unit. -/
def decodeLiteral (value : Value) : Option Literal := do
  let members ← knownFields ["type", "value"] value
  let typeName ← field (unitVariant isUnit) members "type"
  field (decodePayload typeName) members "value"

/-- The variants of a filter. -/
inductive FilterOp where
  | and | or | not
  | comparison (operator : ComparisonOperator)
  | inList | isNull | isNotNull

/-- In the order of declaration. -/
def filterOps : List (String × FilterOp) :=
  [("and", .and), ("or", .or), ("not", .not), ("eq", .comparison .eq),
    ("not_eq", .comparison .notEq), ("gt", .comparison .gt), ("gte", .comparison .gte),
    ("lt", .comparison .lt), ("lte", .comparison .lte), ("in", .inList), ("is_null", .isNull),
    ("is_not_null", .isNotNull)]

/-- A tag that was buffered may also be the index of the variant. -/
def decodeFilterOp (nested : Bool) : Value → Option FilterOp
  | .string name => filterOps.lookup name
  | .number text =>
    if nested then
      (Json.asU64 text).bind fun index => filterOps[index]?.map Prod.snd
    else none
  | _ => none

/-- The fields of a variant, with a decoder for the filters below it. -/
def decodeFilterFields (decode : Value → Option Filter) (op : FilterOp) (value : Value) :
    Option Filter :=
  match op with
  | .and => do
    let members ← fields ["args"] value
    let args ← field (listOf decode) members "args"
    some (.and args)
  | .or => do
    let members ← fields ["args"] value
    let args ← field (listOf decode) members "args"
    some (.or args)
  | .not => do
    let members ← fields ["arg"] value
    let arg ← field decode members "arg"
    some (.not arg)
  | .comparison operator => do
    let members ← fields ["field", "value"] value
    let name ← field asString members "field"
    let literal ← field decodeLiteral members "value"
    some (.comparison operator name literal)
  | .inList => do
    let members ← fields ["field", "values"] value
    let name ← field asString members "field"
    let literals ← field (listOf decodeLiteral) members "values"
    some (.inList name literals)
  | .isNull => do
    let members ← fields ["field"] value
    let name ← field asString members "field"
    some (.isNull name)
  | .isNotNull => do
    let members ← fields ["field"] value
    let name ← field asString members "field"
    some (.isNotNull name)

/-- A filter below so many levels of nesting; the reader of the text has no more than `Json.maxDepth` of
them. -/
def decodeFilter : Nat → Bool → Value → Option Filter
  | 0, _, _ => none
  | depth + 1, nested, value => do
    let (tag, rest) ← taggedBy "op" value
    let op ← decodeFilterOp nested tag
    decodeFilterFields (decodeFilter depth true) op rest

def decodeQuery (value : Value) : Option LogicalSemanticQuery := do
  let members ← fields ["schema_version", "model", "dimensions", "metrics", "filters", "order_by",
    "limit"] value
  let schemaVersion ← field asString members "schema_version"
  let model ← field asString members "model"
  let dimensions ← fieldOr [] (listOf decodeDimension) members "dimensions"
  let metrics ← fieldOr [] (listOf decodeMetricReference) members "metrics"
  let filters ← fieldOr none (orNull (decodeFilter Json.maxDepth false)) members "filters"
  let orderBy ← fieldOr [] (listOf decodeOrderBy) members "order_by"
  let limit ← fieldOr none (orNull asNatural) members "limit"
  some { schemaVersion, model, dimensions, metrics, filters, orderBy, limit }

end Decoders

section Normalize

/-- `finite` says of the text of a number whether its conversion to floating point is in range. -/
def parseQuery (finite : String → Bool) (input : List UInt8) : Option LogicalSemanticQuery := do
  let value ← Json.read input
  if value.numbersAll (Json.readsNumber finite) then decodeQuery value else none

def LogicalSemanticQuery.checked (backend : HashBackend) (query : LogicalSemanticQuery) :
    Except LsqError NormalizedLsq :=
  match h : validateQuery query with
  | .ok () => .ok (query.normalize backend h)
  | .error error => .error error

def normalizeLsq (finite : String → Bool) (backend : HashBackend) (input : List UInt8) :
    Except LsqError NormalizedLsq := do
  let query ← orError (parseQuery finite input) .invalidJson
  query.checked backend

end Normalize

section Order
/-! Nothing that is decoded depends on the order of members. -/

theorem stable_decodeTimeGrain : Stable decodeTimeGrain :=
  Json.stable_variantOf _ Json.stable_isNull

theorem stable_decodeSortDirection : Stable decodeSortDirection :=
  Json.stable_variantOf _ Json.stable_isNull

theorem stable_decodeDimension : Stable decodeDimension := by
  intro a b h
  refine Json.rel_bind (Json.fields_alike _ h) fun members others halike => ?_
  rw [Json.field_alike Json.stable_asString halike,
    Json.fieldOr_alike stable_decodeTimeGrain.orNull halike]

theorem stable_decodeMetricReference : Stable decodeMetricReference := by
  intro a b h
  refine Json.rel_bind (Json.fields_alike _ h) fun members others halike => ?_
  rw [Json.field_alike Json.stable_asString halike]

theorem stable_decodeOrderBy : Stable decodeOrderBy := by
  intro a b h
  refine Json.rel_bind (Json.fields_alike _ h) fun members others halike => ?_
  rw [Json.field_alike Json.stable_asString halike,
    Json.field_alike stable_decodeSortDirection halike]

theorem stable_decodePayload (typeName : String) : Stable (decodePayload typeName) := by
  intro a b h
  unfold decodePayload
  rw [Json.stable_asString a b h, Json.stable_asBoolean a b h, Json.stable_asInteger a b h]

theorem stable_decodeLiteral : Stable decodeLiteral := by
  intro a b h
  refine Json.rel_bind (Json.knownFields_alike _ h) fun members others halike => ?_
  rw [Json.field_alike (Json.stable_unitVariant Json.stable_isUnit) halike]
  refine congrArg (Option.bind _) (funext fun typeName => ?_)
  exact Json.field_alike (stable_decodePayload typeName) halike "value"

theorem stable_decodeFilterOp (nested : Bool) : Stable (decodeFilterOp nested) := by
  rintro _ _ (_ | _ | _) <;> rfl

theorem stable_decodeFilterFields {decode : Value → Option Filter} (hdecode : Stable decode)
    (op : FilterOp) : Stable (decodeFilterFields decode op) := by
  intro a b h
  cases op with
  | and | or =>
    refine Json.rel_bind (Json.fields_alike _ h) fun members others halike => ?_
    rw [Json.field_alike hdecode.listOf halike]
  | not =>
    refine Json.rel_bind (Json.fields_alike _ h) fun members others halike => ?_
    rw [Json.field_alike hdecode halike]
  | comparison operator =>
    refine Json.rel_bind (Json.fields_alike _ h) fun members others halike => ?_
    rw [Json.field_alike Json.stable_asString halike, Json.field_alike stable_decodeLiteral halike]
  | inList =>
    refine Json.rel_bind (Json.fields_alike _ h) fun members others halike => ?_
    rw [Json.field_alike Json.stable_asString halike,
      Json.field_alike stable_decodeLiteral.listOf halike]
  | isNull | isNotNull =>
    refine Json.rel_bind (Json.fields_alike _ h) fun members others halike => ?_
    rw [Json.field_alike Json.stable_asString halike]

theorem stable_decodeFilter (depth : Nat) (nested : Bool) : Stable (decodeFilter depth nested) := by
  induction depth generalizing nested with
  | zero => exact fun _ _ _ => rfl
  | succ depth ih =>
    intro a b h
    refine Json.rel_bind (Json.taggedBy_similar "op" h) ?_
    rintro ⟨tag, rest⟩ ⟨tag', rest'⟩ ⟨htag, hrest⟩
    simp only [(stable_decodeFilterOp nested).similar htag]
    refine congrArg (Option.bind _) (funext fun op => ?_)
    exact (stable_decodeFilterFields (ih true) op).similar hrest

theorem stable_decodeQuery : Stable decodeQuery := by
  intro a b h
  refine Json.rel_bind (Json.fields_alike _ h) fun members others halike => ?_
  rw [Json.field_alike Json.stable_asString halike, Json.field_alike Json.stable_asString halike,
    Json.fieldOr_alike stable_decodeDimension.listOf halike,
    Json.fieldOr_alike stable_decodeMetricReference.listOf halike,
    Json.fieldOr_alike (stable_decodeFilter _ false).orNull halike,
    Json.fieldOr_alike stable_decodeOrderBy.listOf halike,
    Json.fieldOr_alike Json.stable_asNatural.orNull halike]

end Order

end Postgresem
