import Postgresem.Foundation.Lexing
import Postgresem.Compiler.Render

/-! The fragment of SQL that the compiler emits, as syntax trees, and how a tree is written.
A tree carries the values of its parameters; writing it leaves holes for them. -/
namespace Postgresem.Sql
open Template

abbrev Param := DataType × Literal

/-- `t<slot>."column"`. -/
structure ColumnRef where
  slot : Nat
  column : String
  deriving DecidableEq, Repr

inductive Scalar where
  | column (reference : ColumnRef)
  | parameter (dataType : DataType) (value : Literal)
  | dateMidnight (value : Literal)
  | timezone (zone : String) (argument : Scalar)
  | dateTrunc (grain : TimeGrain) (argument : Scalar)
  deriving DecidableEq, Repr

inductive Predicate where
  | compare (operator : ComparisonOperator) (left right : Scalar)
  | inList (argument : Scalar) (values : List Scalar)
  | isNull (argument : Scalar)
  | isNotNull (argument : Scalar)
  | and (args : List Predicate)
  | or (args : List Predicate)
  | not (argument : Predicate)

/-- An aggregate call with its `FILTER` condition; on the anchored path the same data is the
`CASE` input of the inner stage and the aggregate of the outer one. -/
structure Aggregate where
  aggregation : Aggregation
  argument : Scalar
  condition : Option Predicate

structure Join where
  joinType : JoinType
  target : Relation
  slot : Nat
  fromColumn : String
  toColumn : String
  deriving DecidableEq, Repr

structure Tables where
  source : Relation
  joins : List Join
  deriving DecidableEq, Repr

/-- `FROM`, the joins and `WHERE`. -/
structure Body where
  tables : Tables
  filter : Option Predicate

/-- A flat statement has no anchor; with an anchor the statement has two aggregation stages. -/
structure Query where
  dimensions : List (Scalar × String)
  metrics : List (Aggregate × String)
  anchor : Option Scalar
  body : Body
  orderBy : List OrderBy
  limit : Nat

def slotName (slot : Nat) : String := "t" ++ toString slot

def castText (dataType : DataType) : String :=
  if dataType = .text then "::text" else "::text::" ++ postgresType dataType

def Scalar.pieces : Scalar → List (Piece Param)
  | .column reference => [.name (slotName reference.slot ++ ".") reference.column]
  | .parameter dataType value => [.hole (dataType, value), .raw (castText dataType)]
  | .dateMidnight value => [.hole (literalType value, value), .raw "::text::date::timestamp"]
  | .timezone zone argument =>
    [.raw "timezone(", .hole (.text, .text zone), .raw "::text, "] ++ argument.pieces
      ++ [.raw ")"]
  | .dateTrunc grain argument =>
    .constant "date_trunc(" (timeGrain grain) :: .raw ", " :: argument.pieces
      ++ [.raw ")::date"]

mutual

def Predicate.pieces : Predicate → List (Piece Param)
  | .compare operator left right =>
    left.pieces ++ .raw (" " ++ comparisonOperator operator ++ " ") :: right.pieces
  | .inList argument values =>
    argument.pieces ++ .raw " IN (" :: joinWith ", " (values.map Scalar.pieces) ++ [.raw ")"]
  | .isNull argument => argument.pieces ++ [.raw " IS NULL"]
  | .isNotNull argument => argument.pieces ++ [.raw " IS NOT NULL"]
  | .and args => .raw "(" :: joinWith " AND " (Predicate.piecesEach args) ++ [.raw ")"]
  | .or args => .raw "(" :: joinWith " OR " (Predicate.piecesEach args) ++ [.raw ")"]
  | .not argument => .raw "NOT (" :: argument.pieces ++ [.raw ")"]

def Predicate.piecesEach : List Predicate → List (List (Piece Param))
  | [] => []
  | predicate :: rest => predicate.pieces :: Predicate.piecesEach rest

end

def aggregateOpen : Aggregation → String
  | .count => "count("
  | .countDistinct => "count(DISTINCT "
  | .sum => "sum("
  | .min => "min("
  | .max => "max("
  | .avg => "avg("

def Aggregate.pieces (aggregate : Aggregate) : List (Piece Param) :=
  .raw (aggregateOpen aggregate.aggregation) :: aggregate.argument.pieces ++ [.raw ")"]
    ++ match aggregate.condition with
      | some condition => .raw " FILTER (WHERE " :: condition.pieces ++ [.raw ")"]
      | none => []

/-- The input that the inner stage reduces with `max` inside an anchor group. -/
def Aggregate.innerPieces (aggregate : Aggregate) : List (Piece Param) :=
  match aggregate.condition with
  | some condition =>
    .raw "max(CASE WHEN " :: condition.pieces ++ .raw " THEN " :: aggregate.argument.pieces
      ++ [.raw " END)"]
  | none => .raw "max(" :: aggregate.argument.pieces ++ [.raw ")"]

def Join.pieces (newline : String) (join : Join) : List (Piece Param) :=
  [.name (newline ++ joinKeyword join.joinType ++ " ") join.target.schema,
    .name "." join.target.relation, .raw (" AS " ++ slotName join.slot),
    .name " ON t0." join.fromColumn, .name (" = " ++ slotName join.slot ++ ".") join.toColumn]

def Tables.pieces (newline : String) (tables : Tables) : List (Piece Param) :=
  [.name "FROM " tables.source.schema, .name "." tables.source.relation, .raw " AS t0"]
    ++ (tables.joins.map (Join.pieces newline)).flatten

def wherePieces (newline : String) : Option Predicate → List (Piece Param)
  | some predicate => .raw (newline ++ "WHERE ") :: predicate.pieces
  | none => []

def Body.pieces (newline : String) (body : Body) : List (Piece Param) :=
  body.tables.pieces newline ++ wherePieces newline body.filter

def groupPieces (count : Nat) : List (Piece Param) :=
  if count = 0 then [] else [.raw (groupByClause count)]

def Query.flatItems (query : Query) : List (List (Piece Param)) :=
  query.dimensions.map (fun item => item.1.pieces ++ [.name " AS " item.2])
    ++ query.metrics.map fun item => item.1.pieces ++ [.name " AS " item.2]

def Query.flatPieces (query : Query) : List (Piece Param) :=
  .raw "SELECT " :: joinWith ", " query.flatItems
    ++ .raw "\n" :: query.body.pieces "\n" ++ groupPieces query.dimensions.length

def Query.innerItems (query : Query) (anchor : Scalar) : List (List (Piece Param)) :=
  query.dimensions.zipIdx.map
      (fun item => item.1.1.pieces ++ [.name " AS " ("__d" ++ toString item.2)])
    ++ [anchor.pieces ++ [.name " AS " "__anchor"]]
    ++ query.metrics.zipIdx.map fun item =>
      item.1.1.innerPieces ++ [.name " AS " ("__m" ++ toString item.2)]

def Query.outerItems (query : Query) : List (List (Piece Param)) :=
  query.dimensions.zipIdx.map
      (fun item => [.name "a." ("__d" ++ toString item.2), .name " AS " item.1.2])
    ++ query.metrics.zipIdx.map fun item =>
      [.raw (aggregateOpen item.1.1.aggregation), .name "a." ("__m" ++ toString item.2),
        .raw ")", .name " AS " item.1.2]

def Query.anchoredPieces (query : Query) (anchor : Scalar) : List (Piece Param) :=
  .name "WITH " "__postgresem_anchor_groups" :: .raw " AS (\n  SELECT "
    :: joinWith ", " (query.innerItems anchor)
    ++ .raw "\n  " :: query.body.pieces "\n  "
    ++ .raw ("\n  GROUP BY " ++ positionalGroupBy (query.dimensions.length + 1) 1
      ++ "\n)\nSELECT ") :: joinWith ", " query.outerItems
    ++ .name "\nFROM " "__postgresem_anchor_groups" :: .raw " AS a"
    :: groupPieces query.dimensions.length

/-- The part of the statement before `ORDER BY` and `LIMIT`. -/
def Query.selectPieces (query : Query) : List (Piece Param) :=
  match query.anchor with
  | some anchor => query.anchoredPieces anchor
  | none => query.flatPieces

def orderItem (lead : String) (order : OrderBy) : List (Piece Param) :=
  [.name lead order.outputReference, .raw (" " ++ sortDirection order.direction)]

def orderPieces : List OrderBy → List (Piece Param)
  | [] => []
  | order :: rest => orderItem "\nORDER BY " order ++ (rest.map (orderItem ", ")).flatten

def Query.pieces (query : Query) : List (Piece Param) :=
  query.selectPieces ++ orderPieces query.orderBy
    ++ [.raw "\nLIMIT ", .hole (.integer, .integer query.limit), .raw "::text::bigint"]

/-! ## The columns that a tree refers to -/

def Scalar.refs : Scalar → List ColumnRef
  | .column reference => [reference]
  | .parameter _ _ | .dateMidnight _ => []
  | .timezone _ argument | .dateTrunc _ argument => argument.refs

mutual

def Predicate.refs : Predicate → List ColumnRef
  | .compare _ left right => left.refs ++ right.refs
  | .inList argument values => argument.refs ++ values.flatMap Scalar.refs
  | .isNull argument | .isNotNull argument => argument.refs
  | .and args | .or args => Predicate.refsEach args
  | .not argument => argument.refs

def Predicate.refsEach : List Predicate → List ColumnRef
  | [] => []
  | predicate :: rest => predicate.refs ++ Predicate.refsEach rest

end

def optionRefs (filter : Option Predicate) : List ColumnRef :=
  match filter with
  | some predicate => predicate.refs
  | none => []

def Aggregate.refs (aggregate : Aggregate) : List ColumnRef :=
  aggregate.argument.refs ++ optionRefs aggregate.condition

def Join.refs (join : Join) : List ColumnRef := [⟨0, join.fromColumn⟩, ⟨join.slot, join.toColumn⟩]

def Body.refs (body : Body) : List ColumnRef :=
  body.tables.joins.flatMap Join.refs ++ optionRefs body.filter

/-- Every column of the select list, the metric inputs, the anchor, the joins and the filter. -/
def Query.refs (query : Query) : List ColumnRef :=
  query.dimensions.flatMap (fun item => item.1.refs)
    ++ (match query.anchor with | some anchor => anchor.refs | none => [])
    ++ query.metrics.flatMap (fun item => item.1.refs) ++ query.body.refs

/-- The relations of the `FROM` clause with the slot that each is bound to. -/
def Tables.bindings (tables : Tables) : List (Nat × Relation) :=
  (0, tables.source) :: tables.joins.map fun join => (join.slot, join.target)

/-- The source columns behind some references; a reference to an unbound slot has none. -/
def Tables.sourceColumns (tables : Tables) (refs : List ColumnRef) : List String :=
  refs.filterMap fun reference =>
    (tables.bindings.lookup reference.slot).map fun relation =>
      sourceColumn relation reference.column

/-! ## Re-indentation

On the anchored path the text of the body is re-indented after it was rendered. The replacement
runs over the quoted identifiers as well. -/

def reindentText (text : String) : String := Text.replaceChar '\n' "\n  " text

def Relation.reindent (relation : Relation) : Relation :=
  { schema := reindentText relation.schema, relation := reindentText relation.relation }

def Scalar.reindent : Scalar → Scalar
  | .column reference => .column { reference with column := reindentText reference.column }
  | .parameter dataType value => .parameter dataType value
  | .dateMidnight value => .dateMidnight value
  | .timezone zone argument => .timezone zone argument.reindent
  | .dateTrunc grain argument => .dateTrunc grain argument.reindent

mutual

def Predicate.reindent : Predicate → Predicate
  | .compare operator left right => .compare operator left.reindent right.reindent
  | .inList argument values => .inList argument.reindent (values.map Scalar.reindent)
  | .isNull argument => .isNull argument.reindent
  | .isNotNull argument => .isNotNull argument.reindent
  | .and args => .and (Predicate.reindentEach args)
  | .or args => .or (Predicate.reindentEach args)
  | .not argument => .not argument.reindent

def Predicate.reindentEach : List Predicate → List Predicate
  | [] => []
  | predicate :: rest => predicate.reindent :: Predicate.reindentEach rest

end

def Join.reindent (join : Join) : Join :=
  { join with
    target := Relation.reindent join.target
    fromColumn := reindentText join.fromColumn
    toColumn := reindentText join.toColumn }

def Body.reindent (body : Body) : Body :=
  { tables := { source := Relation.reindent body.tables.source
                joins := body.tables.joins.map Join.reindent }
    filter := body.filter.map Predicate.reindent }

/-- The statement that the emitted text says, as opposed to the one that was meant. -/
def Query.emitted (query : Query) : Query :=
  match query.anchor with
  | some _ => { query with body := query.body.reindent }
  | none => query

end Postgresem.Sql
