import Postgresem.Foundation.Control
import Postgresem.Semantic.Snapshot

/-! The logical semantic query document and the checks of `normalize_lsq`. -/
namespace Postgresem
open Control

def lsqSchemaVersion : String := "1"
def maxLimit : Nat := 10000
def maxFilterDepth : Nat := 16
def maxFilterNodes : Nat := 128
def maxInValues : Nat := 100

inductive SortDirection where
  | asc | desc
  deriving DecidableEq, Repr

inductive TimeGrain where
  | day | week | month | quarter | year
  deriving DecidableEq, Repr

structure Dimension where
  field : String
  timeGrain : Option TimeGrain := none
  deriving DecidableEq, Repr

structure MetricReference where
  metric : String
  deriving DecidableEq, Repr

structure OrderBy where
  outputReference : String
  direction : SortDirection
  deriving DecidableEq, Repr

inductive ComparisonOperator where
  | eq | notEq | gt | gte | lt | lte
  deriving DecidableEq, Repr

/-- The six comparison variants of the document are one constructor here, told apart by their
operator; they are checked and resolved alike. -/
inductive Filter where
  | and (args : List Filter)
  | or (args : List Filter)
  | not (arg : Filter)
  | comparison (operator : ComparisonOperator) (field : String) (value : Literal)
  | inList (field : String) (values : List Literal)
  | isNull (field : String)
  | isNotNull (field : String)

abbrev Filter.eq (field : String) (value : Literal) : Filter := .comparison .eq field value

structure LogicalSemanticQuery where
  schemaVersion : String := "1"
  model : String
  dimensions : List Dimension := []
  metrics : List MetricReference := []
  filters : Option Filter := none
  orderBy : List OrderBy := []
  limit : Option Nat := none

inductive LsqError where
  | invalidJson
  | unsupportedSchemaVersion (version : String)
  | emptyModel
  | emptyProjection
  | emptyReference
  | duplicateReference (name : String)
  | duplicateOrderReference (name : String)
  | invalidLiteralValue (typeName : String)
  | invalidLimit
  | filterTooDeep
  | filterTooLarge
  | emptyLogicalFilter
  | invalidInFilterSize
  deriving DecidableEq, Repr

/-- `char::is_whitespace`, the Unicode `White_Space` property. -/
def isWhitespace (character : Char) : Bool :=
  let code := character.toNat
  (9 ≤ code && code ≤ 13) || code == 32 || code == 0x85 || code == 0xA0 || code == 0x1680
    || (0x2000 ≤ code && code ≤ 0x200A) || code == 0x2028 || code == 0x2029 || code == 0x202F
    || code == 0x205F || code == 0x3000

/-- `trim().is_empty()`: nothing is left once white space is taken from both ends. -/
def isBlank (value : String) : Bool := value.toList.all isWhitespace

def validateReference (reference : String) : Except LsqError Unit :=
  ensure (!isBlank reference) .emptyReference

def validateLiteralValue (literal : Literal) : Except LsqError Unit :=
  ensure literal.isWellFormed (.invalidLiteralValue literal.typeName)

/-- Checks references in order against those already seen. -/
def validateDistinct (duplicate : String → LsqError) :
    List String → List String → Except LsqError Unit
  | _, [] => .ok ()
  | seen, reference :: rest => do
      validateReference reference
      ensure (decide (reference ∉ seen)) (duplicate reference)
      validateDistinct duplicate (reference :: seen) rest

mutual

/-- Takes the depth and the nodes counted so far and returns the new count. -/
def validateFilter : Filter → Nat → Nat → Except LsqError Nat
  | filter, depth, nodeCount =>
    if maxFilterDepth < depth then .error .filterTooDeep
    else if maxFilterNodes < nodeCount + 1 then .error .filterTooLarge
    else
      match filter with
      | .and args | .or args =>
        if args.isEmpty then .error .emptyLogicalFilter
        else validateFilters args (depth + 1) (nodeCount + 1)
      | .not arg => validateFilter arg (depth + 1) (nodeCount + 1)
      | .inList field values => do
        validateReference field
        ensure (!values.isEmpty && decide (values.length ≤ maxInValues)) .invalidInFilterSize
        forEach validateLiteralValue values
        pure (nodeCount + 1)
      | .comparison _ field value => do
        validateReference field
        validateLiteralValue value
        pure (nodeCount + 1)
      | .isNull field | .isNotNull field => do
        validateReference field
        pure (nodeCount + 1)

def validateFilters : List Filter → Nat → Nat → Except LsqError Nat
  | [], _, nodeCount => .ok nodeCount
  | filter :: rest, depth, nodeCount =>
    match validateFilter filter depth nodeCount with
    | .ok count => validateFilters rest depth count
    | .error error => .error error

end

def LogicalSemanticQuery.references (query : LogicalSemanticQuery) : List String :=
  query.dimensions.map Dimension.field ++ query.metrics.map MetricReference.metric

def validateQuery (query : LogicalSemanticQuery) : Except LsqError Unit := do
  ensure (query.schemaVersion == lsqSchemaVersion) (.unsupportedSchemaVersion query.schemaVersion)
  ensure (!isBlank query.model) .emptyModel
  ensure (!(query.dimensions.isEmpty && query.metrics.isEmpty)) .emptyProjection
  ensure (!query.limit.any fun limit => limit == 0 || decide (maxLimit < limit)) .invalidLimit
  validateDistinct .duplicateReference [] query.references
  validateDistinct .duplicateOrderReference [] (query.orderBy.map OrderBy.outputReference)
  match query.filters with
  | some filter => (validateFilter filter 1 0).map fun _ => ()
  | none => .ok ()

/-- A parsed query that passed validation, with the hash of its canonical JSON text. -/
structure NormalizedLsq where
  query : LogicalSemanticQuery
  canonicalJson : String
  hash : String
  valid : validateQuery query = .ok ()

namespace NormalizedLsq

end NormalizedLsq

end Postgresem
