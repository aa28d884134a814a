import Postgresem.Foundation.Text
import Postgresem.Semantic.Json
import Postgresem.Compiler.Validate

/-! Rendering of a validated query to SQL text. Parameters and source columns are collected by
side effect while the text is built, in the order of the source. -/
namespace Postgresem
open Control

structure CompiledParameter where
  position : Nat
  dataType : DataType
  value : Literal
  deriving DecidableEq, Repr

structure OutputColumn where
  name : String
  dataType : DataType
  deriving DecidableEq, Repr

structure AggregationAnchorLineage where
  metric : String
  field : String
  deriving DecidableEq, Repr

structure Lineage where
  models : List String
  metrics : List String
  aggregationAnchors : List AggregationAnchorLineage
  relationships : List String
  sourceColumns : List String
  deriving DecidableEq, Repr

structure CompiledQuery where
  sql : String
  parameters : List CompiledParameter
  outputSchema : List OutputColumn
  lineage : Lineage
  queryHash : String
  sqlHash : String
  deriving DecidableEq, Repr

/-- The parameters and the `BTreeSet` of source columns gathered so far. -/
structure RenderState where
  parameters : List CompiledParameter := []
  sourceColumns : List String := []
  deriving DecidableEq, Repr

abbrev RenderM := StateT RenderState (Except CompileError)

def compilerSemanticVersion : String := "0.2.0"

def quoteIdentifier (identifier : String) : String :=
  "\"" ++ Text.replaceChar '"' "\"\"" identifier ++ "\""

def sourceColumn (relation : Relation) (column : String) : String :=
  relation.schema ++ "." ++ relation.relation ++ "." ++ column

def insertSourceColumn (column : String) : RenderM Unit :=
  modify fun state =>
    { state with sourceColumns := OrderedSet.insert column state.sourceColumns }

def literalType : Literal → DataType
  | .text _ => .text
  | .boolean _ => .boolean
  | .integer _ => .integer
  | .numeric _ => .numeric
  | .date _ => .date
  | .timestamp _ => .timestampTz

def postgresType : DataType → String
  | .boolean => "boolean"
  | .integer => "bigint"
  | .numeric => "numeric"
  | .text => "text"
  | .date => "date"
  | .timestamp => "timestamp"
  | .timestampTz => "timestamptz"

def comparisonOperator : ComparisonOperator → String
  | .eq => "="
  | .notEq => "<>"
  | .gt => ">"
  | .gte => ">="
  | .lt => "<"
  | .lte => "<="

def timeGrain : TimeGrain → String
  | .day => "day"
  | .week => "week"
  | .month => "month"
  | .quarter => "quarter"
  | .year => "year"

/-- `push_parameter` on the list alone: an equal pair is reused, a new one goes to the end. -/
def pushParameter (parameters : List CompiledParameter) (dataType : DataType) (value : Literal) :
    Nat × List CompiledParameter :=
  match parameters.find? fun parameter =>
      parameter.dataType == dataType && parameter.value == value with
  | some existing => (existing.position, parameters)
  | none =>
    let position := parameters.length + 1
    (position, parameters ++ [{ position := position, dataType := dataType, value := value }])

def pushParameterM (dataType : DataType) (value : Literal) : RenderM Nat := fun state =>
  let pushed := pushParameter state.parameters dataType value
  .ok (pushed.1, { state with parameters := pushed.2 })

def pushLiteral (value : Literal) : RenderM Nat := pushParameterM (literalType value) value

def renderParameter (position : Nat) (dataType : DataType) : String :=
  if dataType = .text then "$" ++ toString position ++ "::text"
  else "$" ++ toString position ++ "::text::" ++ postgresType dataType

/-- The alias and relation that a field is read from. -/
def fieldSource (model : Model) (aliases : List (String × String)) (field : Field) :
    Except CompileError (String × Relation) :=
  match field.relationship with
  | some name => do
      let relationship ← orError
        (model.relationships.find? fun relationship => relationship.semanticName == name)
        (.unknownRelationship name)
      let tableAlias ← orError (aliases.lookup name) (.unknownRelationship name)
      pure (tableAlias, relationship.target)
  | none => .ok ("t0", model.source)

def renderField (model : Model) (aliases : List (String × String)) (field : Field) :
    RenderM String := do
  let (tableAlias, relation) ← (fieldSource model aliases field : Except CompileError _)
  insertSourceColumn (sourceColumn relation field.column)
  pure (tableAlias ++ "." ++ quoteIdentifier field.column)

def renderDimension (model : Model) (aliases : List (String × String))
    (dimension : ResolvedDimension) : RenderM String := do
  let field ← renderField model aliases dimension.field
  match dimension.timeGrain with
  | some grain =>
      if dimension.field.dataType = .timestampTz then do
        let timezone ← (orError model.timezone
          (.missingTimezone dimension.field.semanticName) : Except CompileError _)
        let position ← pushParameterM .text (.text timezone)
        pure ("date_trunc('" ++ timeGrain grain ++ "', timezone($" ++ toString position
          ++ "::text, " ++ field ++ "))::date")
      else pure ("date_trunc('" ++ timeGrain grain ++ "', " ++ field ++ ")::date")
  | none => pure field

def renderAggregate (aggregation : Aggregation) (field : String) : String :=
  match aggregation with
  | .count => "count(" ++ field ++ ")"
  | .countDistinct => "count(DISTINCT " ++ field ++ ")"
  | .sum => "sum(" ++ field ++ ")"
  | .min => "min(" ++ field ++ ")"
  | .max => "max(" ++ field ++ ")"
  | .avg => "avg(" ++ field ++ ")"

def renderMetric (model : Model) (aliases : List (String × String)) (metric : ResolvedMetric) :
    RenderM String := do
  let field ← renderField model aliases metric.field
  let aggregate := renderAggregate metric.metric.aggregation field
  match metric.filter with
  | some (filterField, value) => do
      let filterExpression ← renderField model aliases filterField
      let position ← pushParameterM filterField.dataType value
      pure (aggregate ++ " FILTER (WHERE " ++ filterExpression ++ " = "
        ++ renderParameter position filterField.dataType ++ ")")
  | none => pure aggregate

def renderAnchorMetricInput (model : Model) (aliases : List (String × String))
    (metric : ResolvedMetric) : RenderM String := do
  let field ← renderField model aliases metric.field
  match metric.filter with
  | some (filterField, value) => do
      let filterExpression ← renderField model aliases filterField
      let position ← pushParameterM filterField.dataType value
      pure ("max(CASE WHEN " ++ filterExpression ++ " = "
        ++ renderParameter position filterField.dataType ++ " THEN " ++ field ++ " END)")
  | none => pure ("max(" ++ field ++ ")")

def renderOuterMetric (aggregation : Aggregation) (index : Nat) : String :=
  renderAggregate aggregation ("a." ++ quoteIdentifier ("__m" ++ toString index))

def renderComparison (model : Model) (aliases : List (String × String))
    (operator : ComparisonOperator) (field : Field) (value : Literal) : RenderM String := do
  let renderedField ← renderField model aliases field
  match field.dataType, value with
  | .timestampTz, .date _ => do
      let timezone ← (orError model.timezone
        (.missingTimezone field.semanticName) : Except CompileError _)
      let timezonePosition ← pushParameterM .text (.text timezone)
      let valuePosition ← pushLiteral value
      pure (renderedField ++ " " ++ comparisonOperator operator ++ " timezone($"
        ++ toString timezonePosition ++ "::text, $" ++ toString valuePosition
        ++ "::text::date::timestamp)")
  | fieldType, value => do
      let position ← pushParameterM fieldType value
      pure (renderedField ++ " " ++ comparisonOperator operator ++ " "
        ++ renderParameter position fieldType)

def renderInValue (fieldType : DataType) (value : Literal) : RenderM String := do
  let position ← pushParameterM fieldType value
  pure (renderParameter position fieldType)

mutual

def renderFilter (model : Model) (aliases : List (String × String)) :
    ResolvedFilter → RenderM String
  | .and args => do
      let rendered ← renderFilters model aliases args
      pure ("(" ++ " AND ".intercalate rendered ++ ")")
  | .or args => do
      let rendered ← renderFilters model aliases args
      pure ("(" ++ " OR ".intercalate rendered ++ ")")
  | .not arg => do
      let rendered ← renderFilter model aliases arg
      pure ("NOT (" ++ rendered ++ ")")
  | .comparison operator field value => renderComparison model aliases operator field value
  | .inList field values => do
      let rendered ← renderField model aliases field
      let placeholders ← values.mapM (renderInValue field.dataType)
      pure (rendered ++ " IN (" ++ ", ".intercalate placeholders ++ ")")
  | .isNull field => do
      let rendered ← renderField model aliases field
      pure (rendered ++ " IS NULL")
  | .isNotNull field => do
      let rendered ← renderField model aliases field
      pure (rendered ++ " IS NOT NULL")

def renderFilters (model : Model) (aliases : List (String × String)) :
    List ResolvedFilter → RenderM (List String)
  | [] => pure []
  | filter :: rest => do
      let rendered ← renderFilter model aliases filter
      let others ← renderFilters model aliases rest
      pure (rendered :: others)

end

def joinKeyword : JoinType → String
  | .inner => "INNER JOIN"
  | .left => "LEFT JOIN"

def renderJoin (model : Model) (aliases : List (String × String))
    (entry : String × Relationship) : RenderM String := do
  let tableAlias ← (orError (aliases.lookup entry.1)
    (.unknownRelationship entry.1) : Except CompileError _)
  insertSourceColumn (sourceColumn model.source entry.2.fromColumn)
  insertSourceColumn (sourceColumn entry.2.target entry.2.toColumn)
  pure ("\n" ++ joinKeyword entry.2.joinType ++ " " ++ quoteIdentifier entry.2.target.schema ++ "."
    ++ quoteIdentifier entry.2.target.relation ++ " AS " ++ tableAlias ++ " ON t0."
    ++ quoteIdentifier entry.2.fromColumn ++ " = " ++ tableAlias ++ "."
    ++ quoteIdentifier entry.2.toColumn)

def renderWhere (model : Model) (aliases : List (String × String)) :
    Option ResolvedFilter → RenderM String
  | some filter => do
      let predicate ← renderFilter model aliases filter
      pure ("\nWHERE " ++ predicate)
  | none => pure ""

def renderFromJoinsAndFilter (validated : ValidatedQuery) (aliases : List (String × String)) :
    RenderM String := do
  let joins ← validated.relationships.mapM (renderJoin validated.model aliases)
  let predicate ← renderWhere validated.model aliases validated.filter
  pure ("FROM " ++ quoteIdentifier validated.model.source.schema ++ "."
    ++ quoteIdentifier validated.model.source.relation ++ " AS t0" ++ String.join joins
    ++ predicate)

def positionalGroupBy (count start : Nat) : String :=
  ", ".intercalate ((List.range count).map fun index => toString (start + index))

/-- The outer `GROUP BY`, left out when the query has no dimensions. -/
def groupByClause (count : Nat) : String :=
  if count = 0 then "" else "\nGROUP BY " ++ positionalGroupBy count 1

def renderFlatDimension (model : Model) (aliases : List (String × String))
    (dimension : ResolvedDimension) : RenderM String := do
  let expression ← renderDimension model aliases dimension
  pure (expression ++ " AS " ++ quoteIdentifier dimension.field.semanticName)

def renderFlatMetric (model : Model) (aliases : List (String × String))
    (metric : ResolvedMetric) : RenderM String := do
  let expression ← renderMetric model aliases metric
  pure (expression ++ " AS " ++ quoteIdentifier metric.metric.semanticName)

def renderFlatSql (validated : ValidatedQuery) (aliases : List (String × String)) :
    RenderM String := do
  let dimensions ← validated.dimensions.mapM (renderFlatDimension validated.model aliases)
  let metrics ← validated.metrics.mapM (renderFlatMetric validated.model aliases)
  let from_ ← renderFromJoinsAndFilter validated aliases
  pure ("SELECT " ++ ", ".intercalate (dimensions ++ metrics) ++ "\n" ++ from_
    ++ groupByClause validated.dimensions.length)

def renderInnerDimension (model : Model) (aliases : List (String × String))
    (entry : ResolvedDimension × Nat) : RenderM String := do
  let expression ← renderDimension model aliases entry.1
  pure (expression ++ " AS " ++ quoteIdentifier ("__d" ++ toString entry.2))

def renderInnerMetric (model : Model) (aliases : List (String × String))
    (entry : ResolvedMetric × Nat) : RenderM String := do
  let expression ← renderAnchorMetricInput model aliases entry.1
  pure (expression ++ " AS " ++ quoteIdentifier ("__m" ++ toString entry.2))

def outerDimension (entry : ResolvedDimension × Nat) : String :=
  "a." ++ quoteIdentifier ("__d" ++ toString entry.2) ++ " AS "
    ++ quoteIdentifier entry.1.field.semanticName

def outerMetric (entry : ResolvedMetric × Nat) : String :=
  renderOuterMetric entry.1.metric.aggregation entry.2 ++ " AS "
    ++ quoteIdentifier entry.1.metric.semanticName

def renderAnchoredSql (validated : ValidatedQuery) (anchor : Field)
    (aliases : List (String × String)) : RenderM String := do
  let dimensions ← validated.dimensions.zipIdx.mapM (renderInnerDimension validated.model aliases)
  let anchorField ← renderField validated.model aliases anchor
  let metrics ← validated.metrics.zipIdx.mapM (renderInnerMetric validated.model aliases)
  let from_ ← renderFromJoinsAndFilter validated aliases
  let innerSelect := dimensions ++ [anchorField ++ " AS \"__anchor\""] ++ metrics
  let outerSelect := validated.dimensions.zipIdx.map outerDimension
    ++ validated.metrics.zipIdx.map outerMetric
  let indentedFrom := Text.replaceChar '\n' "\n  " from_
  pure ("WITH \"__postgresem_anchor_groups\" AS (\n  SELECT " ++ ", ".intercalate innerSelect
    ++ "\n  " ++ indentedFrom ++ "\n  GROUP BY "
    ++ positionalGroupBy (validated.dimensions.length + 1) 1 ++ "\n)\nSELECT "
    ++ ", ".intercalate outerSelect ++ "\nFROM \"__postgresem_anchor_groups\" AS a"
    ++ groupByClause validated.dimensions.length)

def sortDirection : SortDirection → String
  | .asc => "ASC"
  | .desc => "DESC"

def renderOrder (order : OrderBy) : String :=
  quoteIdentifier order.outputReference ++ " " ++ sortDirection order.direction

def orderByClause (orderBy : List OrderBy) : String :=
  if orderBy.isEmpty then ""
  else "\nORDER BY " ++ ", ".intercalate (orderBy.map renderOrder)

def appendOrderAndLimit (sql : String) (validated : ValidatedQuery) : RenderM String := do
  let limitPosition ← pushParameterM .integer (.integer validated.limit)
  pure (sql ++ orderByClause validated.orderBy ++ "\nLIMIT $" ++ toString limitPosition
    ++ "::text::bigint")

def relationshipAliases (relationships : List (String × Relationship)) : List (String × String) :=
  relationships.zipIdx.map fun entry => (entry.1.1, "t" ++ toString (entry.2 + 1))

/-- The anchored path is taken exactly when validation left an anchor. -/
def renderSelect (validated : ValidatedQuery) (aliases : List (String × String)) :
    RenderM String :=
  match validated.aggregationAnchor with
  | some anchor => renderAnchoredSql validated anchor aliases
  | none => renderFlatSql validated aliases

def renderSql (validated : ValidatedQuery) : RenderM String := do
  let sql ← renderSelect validated (relationshipAliases validated.relationships)
  appendOrderAndLimit sql validated

def outputSchema (validated : ValidatedQuery) : List OutputColumn :=
  validated.dimensions.map (fun dimension =>
    { name := dimension.field.semanticName
      dataType := if dimension.timeGrain.isSome then .date else dimension.field.dataType })
  ++ validated.metrics.map fun metric =>
    { name := metric.metric.semanticName, dataType := metric.metric.dataType }

/-- `Vec::dedup`: drops an item equal to the one before it. -/
def dedupAdjacent : List String → List String
  | [] => []
  | [name] => [name]
  | first :: second :: rest =>
    if first = second then dedupAdjacent (second :: rest)
    else first :: dedupAdjacent (second :: rest)

def lineageModels (validated : ValidatedQuery) : List String :=
  dedupAdjacent (sortByKeys (fun name => [name])
    (validated.model.semanticName
      :: validated.relationships.map fun entry => entry.2.targetModel))

def lineage (validated : ValidatedQuery) (sourceColumns : List String) : Lineage :=
  { models := lineageModels validated
    metrics := validated.metrics.map fun metric => metric.metric.semanticName
    aggregationAnchors := validated.metrics.filterMap fun metric =>
      metric.aggregationAnchor.map fun anchor =>
        { metric := metric.metric.semanticName, field := anchor.semanticName }
    relationships := validated.relationships.map Prod.fst
    sourceColumns := sourceColumns }

/-- The hash library together with the JSON serializer of the parameter list. -/
structure CompilerBackend extends HashBackend where
  parametersJson : List CompiledParameter → Option String

def CompiledParameter.json (parameter : CompiledParameter) : String :=
  Json.object [("position", toString parameter.position), ("data_type", parameter.dataType.json),
    ("value", parameter.value.json)]

/-- The backend of the shipped compiler. -/
def standardBackend : CompilerBackend :=
  { toHashBackend := standardHash
    parametersJson := fun parameters => some (Json.array (parameters.map CompiledParameter.json)) }

def CompilerBackend.hash (backend : CompilerBackend) (value : String) : String :=
  backend.sha256 (bytesOf value)

def render (backend : CompilerBackend) (normalized : NormalizedLsq) (snapshot : SemanticSnapshot)
    (validated : ValidatedQuery) : Except CompileError CompiledQuery := do
  let (sql, state) ← renderSql validated {}
  let sqlHash := backend.hash sql
  let parameterHashInput ← orError (backend.parametersJson state.parameters) .hashSerialization
  let queryHash := backend.hash (normalized.hash ++ "|" ++ snapshot.revisionHash ++ "|"
    ++ compilerSemanticVersion ++ "|" ++ sqlHash ++ "|" ++ parameterHashInput)
  pure { sql := sql, parameters := state.parameters, outputSchema := outputSchema validated,
         lineage := lineage validated state.sourceColumns, queryHash := queryHash,
         sqlHash := sqlHash }

def compileLsq (backend : CompilerBackend) (normalized : NormalizedLsq)
    (snapshot : SemanticSnapshot) (options : CompilerOptions) :
    Except CompileError CompiledQuery := do
  let validated ← validate backend.toHashBackend normalized snapshot options
  render backend normalized snapshot validated

end Postgresem
