import Postgresem.Query.Lsq
import Postgresem.Semantic.Json

/-! The canonical JSON text of a query and the normalization that hashes it. -/
namespace Postgresem
open Json Control

def TimeGrain.json : TimeGrain → String
  | .day => string "day"
  | .week => string "week"
  | .month => string "month"
  | .quarter => string "quarter"
  | .year => string "year"

def SortDirection.json : SortDirection → String
  | .asc => string "asc"
  | .desc => string "desc"

def Dimension.json (dimension : Dimension) : String :=
  object [("field", string dimension.field),
    ("time_grain", nullable TimeGrain.json dimension.timeGrain)]

def MetricReference.json (reference : MetricReference) : String :=
  object [("metric", string reference.metric)]

def OrderBy.json (orderBy : OrderBy) : String :=
  object [("ref", string orderBy.outputReference), ("direction", orderBy.direction.json)]

def ComparisonOperator.json : ComparisonOperator → String
  | .eq => string "eq"
  | .notEq => string "not_eq"
  | .gt => string "gt"
  | .gte => string "gte"
  | .lt => string "lt"
  | .lte => string "lte"

mutual

def Filter.json : Filter → String
  | .and args => object [("op", string "and"), ("args", array (Filter.jsonEach args))]
  | .or args => object [("op", string "or"), ("args", array (Filter.jsonEach args))]
  | .not arg => object [("op", string "not"), ("arg", arg.json)]
  | .comparison operator field value =>
    object [("op", operator.json), ("field", string field), ("value", value.json)]
  | .inList field values =>
    object [("op", string "in"), ("field", string field),
      ("values", array (values.map Literal.json))]
  | .isNull field => object [("op", string "is_null"), ("field", string field)]
  | .isNotNull field => object [("op", string "is_not_null"), ("field", string field)]

def Filter.jsonEach : List Filter → List String
  | [] => []
  | filter :: rest => filter.json :: Filter.jsonEach rest

end

def LogicalSemanticQuery.json (query : LogicalSemanticQuery) : String :=
  object [("schema_version", string query.schemaVersion), ("model", string query.model),
    ("dimensions", array (query.dimensions.map Dimension.json)),
    ("metrics", array (query.metrics.map MetricReference.json)),
    ("filters", nullable Filter.json query.filters),
    ("order_by", array (query.orderBy.map OrderBy.json)),
    ("limit", nullable (fun limit : Nat => toString limit) query.limit)]

/-- `normalize_lsq` after parsing, for a query that passes its checks. -/
def LogicalSemanticQuery.normalize (backend : HashBackend) (query : LogicalSemanticQuery)
    (valid : validateQuery query = .ok ()) : NormalizedLsq :=
  { query := query
    canonicalJson := query.json
    hash := backend.sha256 (bytesOf query.json)
    valid := valid }

end Postgresem
