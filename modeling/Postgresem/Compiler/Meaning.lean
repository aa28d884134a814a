import Postgresem.Compiler.Requirement
import Postgresem.Sql.Semantics

/-! What a query asks for, said on the documents and the rows of the database: rows joined along
the relationships by name, the filter on them, and metrics over rows of the root relation. No
statement and no table alias is involved. -/
namespace Postgresem
open Relational

/-- A row of the root relation with the rows that the relationships lead to. -/
structure JoinedRow (V : Type) where
  root : Sql.Row V
  targets : List (String × Sql.Row V)

def JoinedRow.cell {V : Type} (row : JoinedRow V) (field : Field) : Option V :=
  match field.relationship with
  | some name => (row.targets.lookup name).bind fun target => target field.column
  | none => row.root field.column

def JoinedRow.ofRoot {V : Type} (root : Sql.Row V) : JoinedRow V := ⟨root, []⟩

def JoinedRow.extend {V : Type} (row : JoinedRow V) (name : String) (target : Sql.Row V) :
    JoinedRow V :=
  { row with targets := row.targets ++ [(name, target)] }

/-- The relationships that a query goes through, in name order. -/
def usedRelationships (model : Model) (query : LogicalSemanticQuery) : List Relationship :=
  (requiredNames model query).filterMap model.findRelationship

def queryMetrics (model : Model) (query : LogicalSemanticQuery) : List Metric :=
  (query.metrics.map MetricReference.metric).filterMap model.findMetric

section Meaning
variable {V : Type} [DecidableEq V] (server : Sql.Server V) (database : Sql.Database V)
  (model : Model) (query : LogicalSemanticQuery)

/-! ## Joined rows -/

def Relationship.matches (relationship : Relationship) (root target : Sql.Row V) : Bool :=
  Sql.equalCells (root relationship.fromColumn) (target relationship.toColumn)

/-- Every way of going on from a row along a relationship. -/
def Relationship.follow (relationship : Relationship) (row : JoinedRow V) : List (JoinedRow V) :=
  (partners (relationship.joinType == .left) (relationship.matches row.root) Sql.nullRow
    (database.rows relationship.target)).map (row.extend relationship.semanticName)

/-- The first way of going on, where there is at most one. -/
def Relationship.followOne (relationship : Relationship) (row : JoinedRow V) :
    Option (JoinedRow V) :=
  (partner (relationship.joinType == .left) (relationship.matches row.root) Sql.nullRow
    (database.rows relationship.target)).map (row.extend relationship.semanticName)

def joinedRows (root : Sql.Row V) : List (JoinedRow V) :=
  (usedRelationships model query).foldl
    (fun rows relationship => rows.flatMap (relationship.follow database))
    [JoinedRow.ofRoot root]

def joinedRow (root : Sql.Row V) : Option (JoinedRow V) :=
  (usedRelationships model query).foldlM
    (fun row relationship => relationship.followOne database row) (JoinedRow.ofRoot root)

/-! ## Filters, dimensions and metrics -/

/-- The value that a field is compared with: a date stands for its midnight in the timezone of
the model when the field is an instant. -/
def comparedValue (field : Field) (value : Literal) : Option V :=
  match field.dataType, value with
  | .timestampTz, .date _ =>
    model.timezone.map fun zone => server.timezone zone (server.midnight value)
  | dataType, value => some (server.literal dataType value)

/-- Equality with a literal as lists and metric filters read it. -/
def equalsLiteral (row : JoinedRow V) (field : Field) (value : Literal) : Truth :=
  Sql.compareCells server .eq (row.cell field) (some (server.literal field.dataType value))

mutual

def Filter.truth (row : JoinedRow V) : Filter → Truth
  | .and args => Truth.all (Filter.truthEach row args)
  | .or args => Truth.any (Filter.truthEach row args)
  | .not arg => Truth.not (arg.truth row)
  | .comparison operator name value =>
    (model.findField name).bind fun field =>
      Sql.compareCells server operator (row.cell field) (comparedValue server model field value)
  | .inList name values =>
    (model.findField name).bind fun field =>
      Truth.any (values.map (equalsLiteral server row field))
  | .isNull name => (model.findField name).map fun field => (row.cell field).isNone
  | .isNotNull name => (model.findField name).map fun field => (row.cell field).isSome

def Filter.truthEach (row : JoinedRow V) : List Filter → List Truth
  | [] => []
  | filter :: rest => filter.truth row :: Filter.truthEach row rest

end

def LogicalSemanticQuery.keeps (row : JoinedRow V) : Bool :=
  match query.filters with
  | some filter => Truth.holds (filter.truth server model row)
  | none => true

def dimensionCell (row : JoinedRow V) (dimension : Dimension) : Option V :=
  (model.findField dimension.field).bind fun field =>
    match dimension.timeGrain with
    | some grain =>
      if field.dataType = .timestampTz then
        model.timezone.bind fun zone =>
          (row.cell field).map fun value => server.dateTrunc grain (server.timezone zone value)
      else (row.cell field).map (server.dateTrunc grain)
    | none => row.cell field

def LogicalSemanticQuery.group (row : JoinedRow V) : List (Option V) :=
  query.dimensions.map (dimensionCell server model row)

def Metric.selects (metric : Metric) (row : JoinedRow V) : Bool :=
  match metric.filter with
  | some filter => (model.findField filter.field).any fun field =>
      Truth.holds (equalsLiteral server row field filter.value)
  | none => true

/-- A metric over some rows. -/
def Metric.over (metric : Metric) (rows : List (JoinedRow V)) : Option V :=
  Sql.aggregate server metric.aggregation
    ((rows.filter (metric.selects server model)).map fun row =>
      (model.findField metric.field).bind row.cell)

/-- The aggregations of the metrics exist for the types of their fields. -/
def meaningful : Bool :=
  (queryMetrics model query).all fun metric =>
    (model.findField metric.field).any fun field => Sql.supports metric.aggregation field.dataType

/-! ## The relation that a query asks for -/

def metricCells (rows : List (JoinedRow V)) : List (Option V) :=
  (queryMetrics model query).map fun metric => metric.over server model rows

/-- The root rows that survive the inner joins and the filter, each with its own joined row. -/
def survivors : List (JoinedRow V) :=
  ((database.rows model.source).filterMap (joinedRow database model query)).filter
    (query.keeps server model)

/-- Each root row has one joined row at most and counts in its group once. -/
def flatMeaning : Option (List (List (Option V))) :=
  if meaningful model query then
    some ((Sql.groups query.dimensions.length (query.group server model)
      (survivors server database model query)).map fun group =>
        group.1 ++ metricCells server model query group.2)
  else none

/-- The joined rows of a root row that pass the filter. -/
def keptRows (root : Sql.Row V) : List (JoinedRow V) :=
  (joinedRows database model query root).filter (query.keeps server model)

/-- The root rows that occur in a group, each once. -/
def rootsOf (group : List (Option V)) : List (Sql.Row V) :=
  (database.rows model.source).filter fun root =>
    (keptRows server database model query root).any fun row =>
      decide (query.group server model row = group)

/-- Joined rows are grouped, and each metric runs over the distinct root rows of a group. -/
def fanoutMeaning : Option (List (List (Option V))) :=
  if meaningful model query then
    let rows := (database.rows model.source).flatMap (keptRows server database model query)
    some ((Sql.groups query.dimensions.length (query.group server model) rows).map fun group =>
      group.1 ++ metricCells server model query
        ((rootsOf server database model query group.1).map JoinedRow.ofRoot))
  else none

end Meaning

/-! ## Assumptions on the database -/

/-- The columns of the fields have the types that the snapshot declares. -/
def Conforms {V : Type} (database : Sql.Database V) (model : Model)
    (query : LogicalSemanticQuery) : Prop :=
  ∀ field ∈ requiredFields model query, ∀ relation ∈ model.fieldRelation field,
    database.columnType relation field.column = field.dataType

/-- The target column of every relationship in use is unique; null cells do not count. -/
def UniqueTargets {V : Type} (database : Sql.Database V) (model : Model)
    (query : LogicalSemanticQuery) : Prop :=
  ∀ relationship ∈ usedRelationships model query,
    ((database.rows relationship.target).filterMap fun row => row relationship.toColumn).Nodup

/-- A column of the root relation is unique and never null. -/
def UniqueAnchor {V : Type} (database : Sql.Database V) (model : Model) (column : String) : Prop :=
  ((database.rows model.source).map fun row => row column).Nodup ∧
    ∀ row ∈ database.rows model.source, (row column).isSome

section Decidable
variable {V : Type} [DecidableEq V] (database : Sql.Database V) (model : Model)

instance (query : LogicalSemanticQuery) : Decidable (Conforms database model query) :=
  inferInstanceAs (Decidable (∀ field ∈ requiredFields model query,
    ∀ relation ∈ model.fieldRelation field,
      database.columnType relation field.column = field.dataType))

instance (query : LogicalSemanticQuery) : Decidable (UniqueTargets database model query) :=
  inferInstanceAs (Decidable (∀ relationship ∈ usedRelationships model query,
    ((database.rows relationship.target).filterMap fun row => row relationship.toColumn).Nodup))

instance (column : String) : Decidable (UniqueAnchor database model column) :=
  inferInstanceAs (Decidable (((database.rows model.source).map fun row => row column).Nodup ∧
    ∀ row ∈ database.rows model.source, (row column).isSome))

end Decidable

/-- Two results are the same relation: the same bag of rows, or no relation at all. -/
def SameRelation {α : Type} : Option (List α) → Option (List α) → Prop
  | some first, some second => first.Perm second
  | none, none => True
  | _, _ => False

theorem SameRelation.refl {α : Type} : ∀ result : Option (List α), SameRelation result result
  | some rows => List.Perm.refl rows
  | none => trivial

end Postgresem
