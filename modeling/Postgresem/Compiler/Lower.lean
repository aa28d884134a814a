import Postgresem.Compiler.Resolution
import Postgresem.Sql.Syntax

/-! The statement a validated query stands for, as a syntax tree. The renderer writes this tree;
lowering fails only where the renderer asks for a timezone that the model does not have. -/
namespace Postgresem
open Control

/-- The position of a field's table: the root is `t0`, the relationships follow in key order. -/
def slotOf (names : List String) (field : Field) : Nat :=
  match field.relationship with
  | some name => names.idxOf name + 1
  | none => 0

def lowerField (names : List String) (field : Field) : Sql.Scalar :=
  .column ⟨slotOf names field, field.column⟩

def lowerDimension (model : Model) (names : List String) (dimension : ResolvedDimension) :
    Except CompileError Sql.Scalar :=
  match dimension.timeGrain with
  | some grain =>
    if dimension.field.dataType = .timestampTz then
      (orError model.timezone (.missingTimezone dimension.field.semanticName)).map fun zone =>
        .dateTrunc grain (.timezone zone (lowerField names dimension.field))
    else .ok (.dateTrunc grain (lowerField names dimension.field))
  | none => .ok (lowerField names dimension.field)

def lowerCondition (names : List String) (filter : Field × Literal) : Sql.Predicate :=
  .compare .eq (lowerField names filter.1) (.parameter filter.1.dataType filter.2)

def lowerMetric (names : List String) (metric : ResolvedMetric) : Sql.Aggregate :=
  { aggregation := metric.metric.aggregation
    argument := lowerField names metric.field
    condition := metric.filter.map (lowerCondition names) }

/-- The right-hand side of a comparison with a literal. -/
def lowerOperand (model : Model) (field : Field) (value : Literal) :
    Except CompileError Sql.Scalar :=
  match field.dataType, value with
  | .timestampTz, .date _ =>
    (orError model.timezone (.missingTimezone field.semanticName)).map fun zone =>
      .timezone zone (.dateMidnight value)
  | fieldType, value => .ok (.parameter fieldType value)

mutual

def lowerFilter (model : Model) (names : List String) :
    ResolvedFilter → Except CompileError Sql.Predicate
  | .and args => (lowerFilters model names args).map .and
  | .or args => (lowerFilters model names args).map .or
  | .not arg => (lowerFilter model names arg).map .not
  | .comparison operator field value =>
    (lowerOperand model field value).map (.compare operator (lowerField names field))
  | .inList field values =>
    .ok (.inList (lowerField names field) (values.map (.parameter field.dataType)))
  | .isNull field => .ok (.isNull (lowerField names field))
  | .isNotNull field => .ok (.isNotNull (lowerField names field))

def lowerFilters (model : Model) (names : List String) :
    List ResolvedFilter → Except CompileError (List Sql.Predicate)
  | [] => .ok []
  | filter :: rest => do
      let lowered ← lowerFilter model names filter
      let others ← lowerFilters model names rest
      pure (lowered :: others)

end

def lowerOptionalFilter (model : Model) (names : List String) :
    Option ResolvedFilter → Except CompileError (Option Sql.Predicate)
  | some filter => (lowerFilter model names filter).map some
  | none => .ok none

def lowerJoin (entry : (String × Relationship) × Nat) : Sql.Join :=
  { joinType := entry.1.2.joinType
    target := entry.1.2.target
    slot := entry.2 + 1
    fromColumn := entry.1.2.fromColumn
    toColumn := entry.1.2.toColumn }

def lowerTables (model : Model) (relationships : List (String × Relationship)) : Sql.Tables :=
  { source := model.source, joins := relationships.zipIdx.map lowerJoin }

namespace ValidatedQuery

def tables (validated : ValidatedQuery) : Sql.Tables :=
  lowerTables validated.model validated.relationships

/-- The select-list items keep the output name of the query beside the expression. -/
def lowerDimensions (validated : ValidatedQuery) :
    Except CompileError (List (Sql.Scalar × String)) :=
  validated.dimensions.mapM fun dimension =>
    (lowerDimension validated.model validated.names dimension).map fun scalar =>
      (scalar, dimension.field.semanticName)

def lowerMetrics (validated : ValidatedQuery) : List (Sql.Aggregate × String) :=
  validated.metrics.map fun metric =>
    (lowerMetric validated.names metric, metric.metric.semanticName)

def lower (validated : ValidatedQuery) : Except CompileError Sql.Query := do
  let dimensions ← validated.lowerDimensions
  let filter ← lowerOptionalFilter validated.model validated.names validated.filter
  pure { dimensions := dimensions
         metrics := validated.lowerMetrics
         anchor := validated.aggregationAnchor.map (lowerField validated.names)
         body := { tables := validated.tables, filter := filter }
         orderBy := validated.orderBy
         limit := validated.limit }

end ValidatedQuery

/-! ## The columns of lowered expressions -/

theorem lowerField_refs (names : List String) (field : Field) :
    (lowerField names field).refs = [⟨slotOf names field, field.column⟩] := rfl

theorem lowerDimension_refs {model : Model} {names : List String} {dimension : ResolvedDimension}
    {scalar : Sql.Scalar} (h : lowerDimension model names dimension = .ok scalar) :
    scalar.refs = (lowerField names dimension.field).refs := by
  unfold lowerDimension at h
  split at h
  · split at h
    · obtain ⟨zone, -, rfl⟩ := map_eq_ok.mp h
      rfl
    · cases h
      rfl
  · cases h
    rfl

theorem lowerOperand_refs {model : Model} {field : Field} {value : Literal} {scalar : Sql.Scalar}
    (h : lowerOperand model field value = .ok scalar) : scalar.refs = [] := by
  unfold lowerOperand at h
  split at h
  · obtain ⟨zone, -, rfl⟩ := map_eq_ok.mp h
    rfl
  · cases h
    rfl

mutual

theorem lowerFilter_refs (model : Model) (names : List String) : ∀ (filter : ResolvedFilter)
    {predicate : Sql.Predicate}, lowerFilter model names filter = .ok predicate →
    predicate.refs = filter.fields.flatMap fun field => (lowerField names field).refs
  | .and args, predicate, h => by
    rw [lowerFilter, map_eq_ok] at h
    obtain ⟨lowered, hargs, rfl⟩ := h
    exact lowerFilters_refs model names args hargs
  | .or args, predicate, h => by
    rw [lowerFilter, map_eq_ok] at h
    obtain ⟨lowered, hargs, rfl⟩ := h
    exact lowerFilters_refs model names args hargs
  | .not arg, predicate, h => by
    rw [lowerFilter, map_eq_ok] at h
    obtain ⟨lowered, harg, rfl⟩ := h
    rw [Sql.Predicate.refs, ResolvedFilter.fields]
    exact lowerFilter_refs model names arg harg
  | .comparison operator field value, predicate, h => by
    rw [lowerFilter, map_eq_ok] at h
    obtain ⟨operand, hoperand, rfl⟩ := h
    simp only [Sql.Predicate.refs, lowerOperand_refs hoperand, ResolvedFilter.fields,
      List.append_nil, List.flatMap_cons, List.flatMap_nil]
  | .inList field values, predicate, h => by
    rw [lowerFilter, Except.ok.injEq] at h
    subst h
    simp [Sql.Predicate.refs, ResolvedFilter.fields, List.flatMap_map, Sql.Scalar.refs]
  | .isNull field, predicate, h => by
    rw [lowerFilter, Except.ok.injEq] at h
    subst h
    simp [Sql.Predicate.refs, ResolvedFilter.fields]
  | .isNotNull field, predicate, h => by
    rw [lowerFilter, Except.ok.injEq] at h
    subst h
    simp [Sql.Predicate.refs, ResolvedFilter.fields]

theorem lowerFilters_refs (model : Model) (names : List String) :
    ∀ (filters : List ResolvedFilter) {predicates : List Sql.Predicate},
    lowerFilters model names filters = .ok predicates →
    Sql.Predicate.refsEach predicates = (ResolvedFilter.fieldsEach filters).flatMap
      fun field => (lowerField names field).refs
  | [], predicates, h => by
    rw [lowerFilters, Except.ok.injEq] at h
    subst h
    rfl
  | filter :: rest, predicates, h => by
    simp only [lowerFilters, bind_eq_ok, pure_eq_ok] at h
    obtain ⟨lowered, hfilter, others, hrest, rfl⟩ := h
    rw [Sql.Predicate.refsEach, ResolvedFilter.fieldsEach, List.flatMap_append,
      lowerFilter_refs model names filter hfilter, lowerFilters_refs model names rest hrest]

end

theorem lowerOptionalFilter_refs {model : Model} {names : List String}
    {filter : Option ResolvedFilter} {predicate : Option Sql.Predicate}
    (h : lowerOptionalFilter model names filter = .ok predicate) :
    Sql.optionRefs predicate = (filterFields filter).flatMap
      fun field => (lowerField names field).refs := by
  cases filter with
  | none =>
    rw [lowerOptionalFilter, Except.ok.injEq] at h
    subst h
    rfl
  | some filter =>
    rw [lowerOptionalFilter, map_eq_ok] at h
    obtain ⟨lowered, hfilter, rfl⟩ := h
    exact lowerFilter_refs model names filter hfilter

/-! ## The only error of lowering -/

def IsMissingTimezone (error : CompileError) : Prop := ∃ name, error = .missingTimezone name

theorem orError_missing {value : Option String} {name : String} {error : CompileError}
    (h : orError value (.missingTimezone name) = .error error) : IsMissingTimezone error := by
  cases value with
  | none => exact ⟨name, by simpa using h.symm⟩
  | some zone => cases h

theorem lowerDimension_error {model : Model} {names : List String} {dimension : ResolvedDimension}
    {error : CompileError} (h : lowerDimension model names dimension = .error error) :
    IsMissingTimezone error := by
  unfold lowerDimension at h
  split at h
  · split at h
    · exact orError_missing (map_eq_error.mp h)
    · cases h
  · cases h

theorem lowerOperand_error {model : Model} {field : Field} {value : Literal}
    {error : CompileError} (h : lowerOperand model field value = .error error) :
    IsMissingTimezone error := by
  unfold lowerOperand at h
  split at h
  · exact orError_missing (map_eq_error.mp h)
  · cases h

mutual

theorem lowerFilter_error (model : Model) (names : List String) {error : CompileError} :
    ∀ filter : ResolvedFilter, lowerFilter model names filter = .error error →
      IsMissingTimezone error
  | .and args, h => by
    rw [lowerFilter, map_eq_error] at h
    exact lowerFilters_error model names args h
  | .or args, h => by
    rw [lowerFilter, map_eq_error] at h
    exact lowerFilters_error model names args h
  | .not arg, h => by
    rw [lowerFilter, map_eq_error] at h
    exact lowerFilter_error model names arg h
  | .comparison operator field value, h => by
    rw [lowerFilter, map_eq_error] at h
    exact lowerOperand_error h
  | .inList _ _, h | .isNull _, h | .isNotNull _, h => by
    rw [lowerFilter] at h
    cases h

theorem lowerFilters_error (model : Model) (names : List String) {error : CompileError} :
    ∀ filters : List ResolvedFilter, lowerFilters model names filters = .error error →
      IsMissingTimezone error
  | [], h => by cases h
  | filter :: rest, h => by
    rw [lowerFilters, bind_eq_error] at h
    rcases h with h | ⟨lowered, -, h⟩
    · exact lowerFilter_error model names filter h
    · rw [bind_eq_error] at h
      rcases h with h | ⟨others, -, h⟩
      · exact lowerFilters_error model names rest h
      · cases h

end

theorem lower_error {validated : ValidatedQuery} {error : CompileError}
    (h : validated.lower = .error error) : IsMissingTimezone error := by
  unfold ValidatedQuery.lower at h
  rw [bind_eq_error] at h
  rcases h with h | ⟨dimensions, -, h⟩
  · obtain ⟨dimension, -, hd⟩ := mapM_error h
    exact lowerDimension_error (map_eq_error.mp hd)
  · rw [bind_eq_error] at h
    rcases h with h | ⟨filter, -, h⟩
    · cases hf : validated.filter with
      | none => rw [hf] at h; cases h
      | some f =>
        rw [hf, lowerOptionalFilter, map_eq_error] at h
        exact lowerFilter_error _ _ f h
    · cases h

end Postgresem
