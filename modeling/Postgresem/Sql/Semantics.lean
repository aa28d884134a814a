import Postgresem.Relational.Join
import Postgresem.Relational.Kleene
import Postgresem.Sql.Syntax
import Mathlib.Algebra.BigOperators.Group.List.Basic
import Mathlib.Algebra.Ring.Int.Defs

/-! What an emitted statement denotes: the relation it selects before `ORDER BY` and `LIMIT`, on a
database whose functions and operators are PostgreSQL's. Values are taken up to the equality of
their type, so that two values of one group are one value here. -/
namespace Postgresem.Sql
open Relational

/-- The functions and operators of the database server. `V` holds the non-null values. -/
structure Server (V : Type) [DecidableEq V] where
  /-- `$n::text::type`, with the session time zone of the executor. -/
  literal : DataType → Literal → V
  /-- `$n::text::date::timestamp`. -/
  midnight : Literal → V
  /-- `timezone(zone, value)`. -/
  timezone : String → V → V
  /-- `date_trunc('grain', value)::date`. -/
  dateTrunc : TimeGrain → V → V
  compare : ComparisonOperator → V → V → Bool
  /-- A number of rows as `bigint`. -/
  count : Nat → V
  /-- `sum`, `min`, `max` and `avg` of at least one non-null value. -/
  reduce : Aggregation → List V → V
  compare_eq : ∀ a b, compare .eq a b = decide (a = b)
  reduce_perm : ∀ aggregation {xs ys : List V}, xs.Perm ys → reduce aggregation xs = reduce aggregation ys
  max_const : ∀ {xs : List V} {value : V}, xs ≠ [] → (∀ x ∈ xs, x = value) → reduce .max xs = value

/-- A row gives a cell for each column name; a null cell is `none`. -/
abbrev Row (V : Type) := String → Option V

structure Database (V : Type) where
  rows : Relation → List (Row V)
  columnType : Relation → String → DataType

/-- The rows of the tables joined so far, each under its slot. -/
abbrev Joined (V : Type) := List (Nat × Row V)

def Joined.cell {V : Type} (joined : Joined V) (reference : ColumnRef) : Option V :=
  (joined.lookup reference.slot).bind fun row => row reference.column

def nullRow {V : Type} : Row V := fun _ => none

section Evaluation
variable {V : Type} [DecidableEq V]

/-- `=` between two cells keeps a row only when neither is null. -/
def equalCells (left right : Option V) : Bool :=
  match left with
  | some value => decide (right = some value)
  | none => false

def Scalar.eval (server : Server V) (joined : Joined V) : Scalar → Option V
  | .column reference => joined.cell reference
  | .parameter dataType value => some (server.literal dataType value)
  | .dateMidnight value => some (server.midnight value)
  | .timezone zone argument => (argument.eval server joined).map (server.timezone zone)
  | .dateTrunc grain argument => (argument.eval server joined).map (server.dateTrunc grain)

def compareCells (server : Server V) (operator : ComparisonOperator) (left right : Option V) :
    Truth :=
  match left, right with
  | some a, some b => some (server.compare operator a b)
  | _, _ => none

mutual

def Predicate.eval (server : Server V) (joined : Joined V) : Predicate → Truth
  | .compare operator left right =>
    compareCells server operator (left.eval server joined) (right.eval server joined)
  | .inList argument values =>
    Truth.any (values.map fun value =>
      compareCells server .eq (argument.eval server joined) (value.eval server joined))
  | .isNull argument => some (argument.eval server joined).isNone
  | .isNotNull argument => some (argument.eval server joined).isSome
  | .and args => Truth.all (Predicate.evalEach server joined args)
  | .or args => Truth.any (Predicate.evalEach server joined args)
  | .not argument => Truth.not (argument.eval server joined)

def Predicate.evalEach (server : Server V) (joined : Joined V) : List Predicate → List Truth
  | [] => []
  | predicate :: rest => predicate.eval server joined :: Predicate.evalEach server joined rest

end

/-- A row passes an absent condition, and otherwise one that is true. -/
def passes (server : Server V) (condition : Option Predicate) (joined : Joined V) : Bool :=
  match condition with
  | some predicate => Truth.holds (predicate.eval server joined)
  | none => true

/-! ## Tables -/

def Join.extend (database : Database V) (join : Join) (joined : Joined V) : List (Joined V) :=
  (partners (join.joinType == .left)
    (fun row => equalCells (joined.cell ⟨0, join.fromColumn⟩) (row join.toColumn)) nullRow
    (database.rows join.target)).map fun row => joined ++ [(join.slot, row)]

def Tables.denote (database : Database V) (tables : Tables) : List (Joined V) :=
  tables.joins.foldl (fun rows join => rows.flatMap (join.extend database))
    ((database.rows tables.source).map fun row => [(0, row)])

def Body.denote (server : Server V) (database : Database V) (body : Body) : List (Joined V) :=
  (body.tables.denote database).filter (passes server body.filter)

/-! ## Aggregation -/

/-- Aggregates skip null inputs; only the counts are defined on none at all. -/
def aggregate (server : Server V) (aggregation : Aggregation) (cells : List (Option V)) :
    Option V :=
  let values := cells.reduceOption
  match aggregation with
  | .count => some (server.count values.length)
  | .countDistinct => some (server.count values.dedup.length)
  | aggregation => if values.isEmpty then none else some (server.reduce aggregation values)

/-- Without a `GROUP BY` all rows are one group, also when there are none. -/
def groups {α : Type} (count : Nat) (key : α → List (Option V)) (rows : List α) :
    List (List (Option V) × List α) :=
  if count = 0 then [([], rows)] else groupBy key rows

theorem groups_map {α β : Type} (count : Nat) (f : β → α) (key : α → List (Option V))
    (rows : List β) :
    groups count key (rows.map f) =
      (groups count (fun row => key (f row)) rows).map fun group => (group.1, group.2.map f) := by
  unfold groups
  split
  · rfl
  · exact groupBy_map f key rows

theorem groups_congr {α : Type} {count : Nat} {key key' : α → List (Option V)} {rows : List α}
    (h : ∀ row ∈ rows, key row = key' row) : groups count key rows = groups count key' rows := by
  unfold groups
  rw [groupBy_congr h]

theorem mem_of_mem_groups {α : Type} {count : Nat} {key : α → List (Option V)} {rows : List α}
    {group : List (Option V) × List α} (hg : group ∈ groups count key rows) {row : α}
    (hr : row ∈ group.2) : row ∈ rows := by
  unfold groups at hg
  split at hg
  · rw [List.mem_singleton] at hg
    subst hg
    exact hr
  · rw [(mem_groupBy.mp hg).2] at hr
    exact (List.mem_filter.mp hr).1

def Aggregate.eval (server : Server V) (metric : Aggregate) (rows : List (Joined V)) : Option V :=
  aggregate server metric.aggregation
    ((rows.filter (passes server metric.condition)).map fun row => metric.argument.eval server row)

def Query.key (server : Server V) (query : Query) (row : Joined V) : List (Option V) :=
  query.dimensions.map fun item => item.1.eval server row

def Query.flatRows (server : Server V) (database : Database V) (query : Query) :
    List (List (Option V)) :=
  (groups query.dimensions.length (query.key server) (query.body.denote server database)).map
    fun group => group.1 ++ query.metrics.map fun item => item.1.eval server group.2

/-- `max(CASE WHEN condition THEN argument END)`. -/
def Aggregate.innerEval (server : Server V) (metric : Aggregate) (rows : List (Joined V)) :
    Option V :=
  aggregate server .max (rows.map fun row =>
    if passes server metric.condition row then metric.argument.eval server row else none)

/-- The common table expression: dimension values, then one value for each metric. -/
def Query.innerRows (server : Server V) (database : Database V) (query : Query)
    (anchor : Scalar) : List (List (Option V) × List (Option V)) :=
  (groupBy (fun row => (query.key server row, anchor.eval server row))
    (query.body.denote server database)).map fun group =>
      (group.1.1, query.metrics.map fun item => item.1.innerEval server group.2)

def Query.anchoredRows (server : Server V) (database : Database V) (query : Query)
    (anchor : Scalar) : List (List (Option V)) :=
  (groups query.dimensions.length Prod.fst (query.innerRows server database anchor)).map
    fun group => group.1 ++ query.metrics.zipIdx.map fun item =>
      aggregate server item.1.1.aggregation
        (group.2.map fun inner => (inner.2[item.2]?).getD none)

/-! ## Which statements the server accepts -/

/-- The aggregate functions that exist for a type: there is no `max(boolean)`, and only numbers
are summed up. -/
def supports : Aggregation → DataType → Bool
  | .count, _ | .countDistinct, _ => true
  | .sum, dataType | .avg, dataType => dataType == .integer || dataType == .numeric
  | .min, dataType | .max, dataType => dataType != .boolean

def Scalar.type (database : Database V) (tables : Tables) : Scalar → Option DataType
  | .column reference => (tables.bindings.lookup reference.slot).map fun relation =>
      database.columnType relation reference.column
  | .parameter dataType _ => some dataType
  | .dateMidnight _ => some .timestamp
  | .timezone _ argument => (argument.type database tables).map fun dataType =>
      if dataType = .timestampTz then .timestamp else .timestampTz
  | .dateTrunc _ _ => some .date

/-- `max` keeps the type of its argument, so both stages aggregate values of one type. -/
def Query.accepted (database : Database V) (query : Query) : Bool :=
  query.metrics.all fun item =>
    match item.1.argument.type database query.body.tables with
    | some dataType => supports item.1.aggregation dataType
        && (query.anchor.isNone || supports .max dataType)
    | none => false

/-- The relation that the statement selects, when the server accepts it. -/
def Query.denote (server : Server V) (database : Database V) (query : Query) :
    Option (List (List (Option V))) :=
  if query.accepted database then
    some (match query.anchor with
      | some anchor => query.anchoredRows server database anchor
      | none => query.flatRows server database)
  else none

end Evaluation

/-! ## A small server

The values are the literals of a document, with instants written with their offset. -/

def only {V : Type} : List V → Option V
  | [value] => some value
  | _ => none

theorem only_perm {V : Type} {xs ys : List V} (h : xs.Perm ys) : only xs = only ys := by
  match xs with
  | [] => rw [h.nil_eq]
  | [value] => rw [List.singleton_perm.mp h]
  | first :: second :: rest =>
    match ys with
    | [] => rfl
    | [value] => exact absurd h.length_eq (by simp)
    | _ :: _ :: _ => rfl

def amount : Literal → Int
  | .integer value => value
  | _ => 0

def offsetOf (zone : String) : String := if zone = "Asia/Tokyo" then "+09:00" else "Z"

def literalReduce (aggregation : Aggregation) (values : List Literal) : Literal :=
  match aggregation with
  | .max => (only values.dedup).getD (.integer ((values.map amount).foldr max 0))
  | .min => (only values.dedup).getD (.integer ((values.map amount).foldr min 0))
  | .avg => .integer ((values.map amount).sum / values.length)
  | _ => .integer (values.map amount).sum

theorem literalReduce_perm (aggregation : Aggregation) {xs ys : List Literal} (h : xs.Perm ys) :
    literalReduce aggregation xs = literalReduce aggregation ys := by
  have hsum := (h.map amount).sum_eq
  have hmax : (xs.map amount).foldr max 0 = (ys.map amount).foldr max 0 := (h.map amount).foldr_eq 0
  have hmin : (xs.map amount).foldr min 0 = (ys.map amount).foldr min 0 := (h.map amount).foldr_eq 0
  cases aggregation <;>
    simp only [literalReduce, only_perm h.dedup, hsum, hmax, hmin, h.length_eq]

theorem literalReduce_max_const {xs : List Literal} {value : Literal} (hne : xs ≠ [])
    (h : ∀ x ∈ xs, x = value) : literalReduce .max xs = value := by
  have hdedup : xs.dedup = [value] := by
    rw [List.eq_replicate_iff.mpr ⟨rfl, h⟩]
    exact List.replicate_dedup (by simpa using hne)
  rw [literalReduce, hdedup]
  rfl

def literalServer : Server Literal where
  literal dataType value :=
    match dataType, value with
    | .timestampTz, .date day => .timestamp (day ++ "T00:00:00" ++ offsetOf "UTC")
    | _, value => value
  midnight value :=
    match value with
    | .date day => .timestamp (day ++ "T00:00:00")
    | value => value
  timezone zone value :=
    match value with
    | .timestamp time => .timestamp (time ++ offsetOf zone)
    | value => value
  dateTrunc _ value := value
  compare operator left right :=
    match operator with
    | .eq => decide (left = right)
    | .notEq => decide (left ≠ right)
    | .gt => decide (amount right < amount left)
    | .gte => decide (amount right ≤ amount left)
    | .lt => decide (amount left < amount right)
    | .lte => decide (amount left ≤ amount right)
  count number := .integer number
  reduce := literalReduce
  compare_eq _ _ := rfl
  reduce_perm := literalReduce_perm
  max_const := literalReduce_max_const

end Postgresem.Sql
