import Postgresem.Sql.Semantics

/-! The types that PostgreSQL gives to the expressions of an emitted statement, from the types of
the columns it reads. An expression without a type is one that the server rejects. -/
namespace Postgresem.Sql

/-- A column has the type of a data type or another one, such as `uuid`. -/
inductive ColumnType where
  | data (dataType : DataType)
  | other (name : String)
  deriving DecidableEq, Repr

def isNumber : DataType → Bool
  | .integer | .numeric => true
  | _ => false

/-- The server has an `=` for the two types. -/
def comparable (left right : DataType) : Bool :=
  left == right || (isNumber left && isNumber right) || (isTemporal left && isTemporal right)

/-- The columns of a database, and the types that its `=` operators relate. -/
structure Columns where
  columnType : Relation → String → ColumnType
  equality : ColumnType → ColumnType → Bool
  equality_data : ∀ left right, equality (.data left) (.data right) = comparable left right

/-- `timezone` of an instant is a local time and the other way around; a date is read as the
instant of its midnight. -/
def timezoneType : DataType → Option DataType
  | .timestampTz | .date => some .timestamp
  | .timestamp => some .timestampTz
  | _ => none

def aggregateType (aggregation : Aggregation) (dataType : DataType) : Option DataType :=
  match aggregation with
  | .count | .countDistinct => some .integer
  | .sum | .avg => if isNumber dataType then some .numeric else none
  | .min | .max => if dataType = .boolean then none else some dataType

section Typing
variable (columns : Columns) (tables : Tables)

def Scalar.typed : Scalar → Option DataType
  | .column reference => (tables.bindings.lookup reference.slot).bind fun relation =>
      match columns.columnType relation reference.column with
      | .data dataType => some dataType
      | .other _ => none
  | .parameter dataType _ => some dataType
  | .dateMidnight _ => some .timestamp
  | .timezone _ argument => argument.typed.bind timezoneType
  | .dateTrunc _ argument => argument.typed.bind fun dataType =>
      if isTemporal dataType then some .date else none

/-- Both sides have a type, and it is the same one. -/
def sameType (left right : Scalar) : Bool :=
  (left.typed columns tables).any fun dataType => right.typed columns tables == some dataType

mutual

def Predicate.typed : Predicate → Bool
  | .compare _ left right => sameType columns tables left right
  | .inList argument values => values.all (sameType columns tables argument)
  | .isNull argument | .isNotNull argument => (argument.typed columns tables).isSome
  | .and args | .or args => Predicate.typedEach args
  | .not argument => argument.typed

def Predicate.typedEach : List Predicate → Bool
  | [] => true
  | predicate :: rest => predicate.typed && Predicate.typedEach rest

end

def optionTyped (filter : Option Predicate) : Bool := filter.all (Predicate.typed columns tables)

/-- On the anchored path the input of the aggregate goes through a `max` first. -/
def Aggregate.typed (anchored : Bool) (metric : Aggregate) : Option DataType :=
  if optionTyped columns tables metric.condition then
    (metric.argument.typed columns tables).bind fun dataType =>
      if anchored then (aggregateType .max dataType).bind (aggregateType metric.aggregation)
      else aggregateType metric.aggregation dataType
  else none

def Join.typed (join : Join) : Bool :=
  columns.equality (columns.columnType tables.source join.fromColumn)
    (columns.columnType join.target join.toColumn)

def Body.typed (body : Body) : Bool :=
  body.tables.joins.all (Join.typed columns body.tables)
    && optionTyped columns body.tables body.filter

/-- The types of the output columns, if every expression of the statement has a type. -/
def Query.typed (query : Query) : Option (List DataType) :=
  if query.body.typed columns
      && query.anchor.all (fun anchor => (anchor.typed columns query.body.tables).isSome) then do
    let dimensions ← query.dimensions.mapM fun item => item.1.typed columns query.body.tables
    let metrics ← query.metrics.mapM fun item =>
      item.1.typed columns query.body.tables query.anchor.isSome
    pure (dimensions ++ metrics)
  else none

end Typing

theorem aggregateType_eq (aggregation : Aggregation) (dataType : DataType) :
    aggregateType aggregation dataType =
      if supports aggregation dataType then some (expectedMetricType aggregation dataType)
      else none := by
  cases aggregation <;> cases dataType <;> rfl

/-- `max` keeps the type, so that only what has no `max` is lost on the anchored path. -/
theorem aggregateType_max (aggregation : Aggregation) (dataType : DataType) :
    (aggregateType .max dataType).bind (aggregateType aggregation) =
      if supports aggregation dataType && dataType != .boolean then
        some (expectedMetricType aggregation dataType)
      else none := by
  cases aggregation <;> cases dataType <;> rfl

theorem mapM_option_map {α β : Type} {f : α → Option β} {items : List α} (g : α → β)
    (h : ∀ item ∈ items, f item = some (g item)) : items.mapM f = some (items.map g) := by
  induction items with
  | nil => rfl
  | cons item rest ih =>
    simp only [List.mapM_cons, h item (by simp), ih fun other ho => h other (by simp [ho]),
      Option.pure_def, Option.bind_eq_bind, Option.bind_some, List.map_cons]

/-- A list of optional values that has one value for each item has it for every item. -/
theorem mapM_option_some {α β : Type} {f : α → Option β} {items : List α} {values : List β}
    (h : items.mapM f = some values) : ∀ item ∈ items, (f item).isSome := by
  induction items generalizing values with
  | nil => simp
  | cons item rest ih =>
    simp only [List.mapM_cons, Option.pure_def, Option.bind_eq_bind, Option.bind_eq_some_iff,
      Option.some.injEq] at h
    obtain ⟨value, hvalue, others, hothers, -⟩ := h
    exact List.forall_mem_cons.mpr ⟨by rw [hvalue]; rfl, ih hothers⟩

end Postgresem.Sql
