import Postgresem.Compiler.Refinement
import Postgresem.Sql.Typing
import Postgresem.Semantic.Evaluation

/-! Which compiled queries the server accepts, when the columns of the fields have the types that
the snapshot declares. -/
namespace Postgresem
open Control Template Lexing

/-- The column of every field has the type that the field declares. -/
def Sql.Columns.Declared (columns : Sql.Columns) (model : Model) : Prop :=
  ∀ field ∈ model.fields, ∀ relation ∈ model.fieldRelation field,
    columns.columnType relation field.column = .data field.dataType

/-- What the checks of the compiler leave open: whether the aggregate function of a metric exists
for its field, whether a `max` exists for it where one is put around it, and whether the columns
of a join can be compared. -/
structure Typable (columns : Sql.Columns) (model : Model) (query : LogicalSemanticQuery) : Prop where
  aggregates : ∀ metric ∈ queryMetrics model query, ∀ field ∈ model.findField metric.field,
    Sql.supports metric.aggregation field.dataType = true
  inputs : ¬ FlatPath model query → ∀ metric ∈ queryMetrics model query,
    ∀ field ∈ model.findField metric.field, field.dataType ≠ .boolean
  joins : ∀ relationship ∈ requiredRelationships model query,
    columns.equality (columns.columnType model.source relationship.fromColumn)
      (columns.columnType relationship.target relationship.toColumn) = true

/-! ## Fields -/

theorem bindings_field {model : Model} {relationships : List (String × Relationship)}
    (hfound : ∀ entry ∈ relationships, model.relationships.find?
      (fun relationship => relationship.semanticName == entry.1) = some entry.2)
    {field : Field} (hcover : Covers (relationships.map Prod.fst) field) :
    ∃ relation ∈ model.fieldRelation field, (lowerTables model relationships).bindings.lookup
      (slotOf (relationships.map Prod.fst) field) = some relation := by
  unfold Model.fieldRelation slotOf
  cases hr : field.relationship with
  | none => exact ⟨model.source, rfl, by simp [Sql.Tables.bindings, lowerTables]⟩
  | some name =>
    obtain ⟨entry, hmem, hname, -, hget⟩ := lookup_zipIdx
      (fun index (_ : Relationship) => index) 0 (hcover name hr)
    have hmodel := hfound entry hmem
    rw [hname] at hmodel
    have hrelation : model.findRelationship name = some entry.2 := hmodel
    refine ⟨entry.2.target, ?_, ?_⟩
    · simp [hrelation]
    · simp only [bindings_lookup_succ, hget, Option.map_some]

section Typed
variable {columns : Sql.Columns} {model : Model} {relationships : List (String × Relationship)}
  (hdeclared : columns.Declared model)
  (hfound : ∀ entry ∈ relationships, model.relationships.find?
    (fun relationship => relationship.semanticName == entry.1) = some entry.2)
include hdeclared hfound

theorem typed_field {field : Field} (hfield : field ∈ model.fields)
    (hcover : Covers (relationships.map Prod.fst) field) :
    (lowerField (relationships.map Prod.fst) field).typed columns
      (lowerTables model relationships) = some field.dataType := by
  obtain ⟨relation, hrelation, hlookup⟩ := bindings_field hfound hcover
  rw [lowerField, Sql.Scalar.typed, hlookup, Option.bind_some,
    hdeclared field hfield relation hrelation]

theorem typed_dimension {dimension : Dimension} {resolved : ResolvedDimension}
    {scalar : Sql.Scalar} (hresolved : DimensionResolved model dimension resolved)
    (hcover : Covers (relationships.map Prod.fst) resolved.field)
    (h : lowerDimension model (relationships.map Prod.fst) resolved = .ok scalar) :
    scalar.typed columns (lowerTables model relationships) =
      some (if resolved.timeGrain.isSome then .date else resolved.field.dataType) := by
  have hfield := typed_field hdeclared hfound (findField_some hresolved.found).1 hcover
  have htemporal := hresolved.temporal
  unfold lowerDimension at h
  cases hgrain : resolved.timeGrain with
  | none =>
    rw [hgrain] at h
    cases h
    exact hfield
  | some grain =>
    rw [hgrain] at h htemporal
    by_cases htype : resolved.field.dataType = .timestampTz
    · simp only [htype, if_true] at h
      obtain ⟨zone, -, rfl⟩ := map_eq_ok.mp h
      rw [Sql.Scalar.typed, Sql.Scalar.typed, hfield, htype]
      rfl
    · simp only [htype, if_false] at h
      cases h
      rw [Sql.Scalar.typed, hfield, Option.bind_some, if_pos (htemporal rfl)]
      rfl

omit hdeclared hfound in
/-- The literal is cast to the type of the field; a date becomes an instant by its zone. -/
theorem typed_operand {field : Field} {value : Literal} {scalar : Sql.Scalar}
    (h : lowerOperand model field value = .ok scalar) (tables : Sql.Tables) :
    scalar.typed columns tables = some field.dataType := by
  unfold lowerOperand at h
  split at h
  next day htype =>
    obtain ⟨zone, -, rfl⟩ := map_eq_ok.mp h
    rw [htype]
    rfl
  next =>
    cases h
    rfl

theorem sameType_field {field : Field} (hfield : field ∈ model.fields)
    (hcover : Covers (relationships.map Prod.fst) field) {scalar : Sql.Scalar}
    (h : scalar.typed columns (lowerTables model relationships) = some field.dataType) :
    Sql.sameType columns (lowerTables model relationships)
      (lowerField (relationships.map Prod.fst) field) scalar = true := by
  rw [Sql.sameType, typed_field hdeclared hfound hfield hcover, Option.any_some, h]
  exact beq_self_eq_true _

set_option linter.unusedSectionVars false in
mutual

theorem typed_filter : ∀ (filter : Filter) {resolved : ResolvedFilter} {predicate : Sql.Predicate},
    filter.resolved model = some resolved →
    (∀ field ∈ resolved.fields, Covers (relationships.map Prod.fst) field) →
    lowerFilter model (relationships.map Prod.fst) resolved = .ok predicate →
    predicate.typed columns (lowerTables model relationships) = true
  | .and args, resolved, predicate, hr, hcover, h => by
    rw [Filter.resolved, Option.map_eq_some_iff] at hr
    obtain ⟨resolvedArgs, hargs, rfl⟩ := hr
    rw [lowerFilter, map_eq_ok] at h
    obtain ⟨lowered, hlowered, rfl⟩ := h
    rw [Sql.Predicate.typed]
    exact typed_filters args hargs hcover hlowered
  | .or args, resolved, predicate, hr, hcover, h => by
    rw [Filter.resolved, Option.map_eq_some_iff] at hr
    obtain ⟨resolvedArgs, hargs, rfl⟩ := hr
    rw [lowerFilter, map_eq_ok] at h
    obtain ⟨lowered, hlowered, rfl⟩ := h
    rw [Sql.Predicate.typed]
    exact typed_filters args hargs hcover hlowered
  | .not arg, resolved, predicate, hr, hcover, h => by
    rw [Filter.resolved, Option.map_eq_some_iff] at hr
    obtain ⟨resolvedArg, harg, rfl⟩ := hr
    rw [lowerFilter, map_eq_ok] at h
    obtain ⟨lowered, hlowered, rfl⟩ := h
    rw [ResolvedFilter.fields] at hcover
    rw [Sql.Predicate.typed]
    exact typed_filter arg harg hcover hlowered
  | .comparison operator name value, resolved, predicate, hr, hcover, h => by
    rw [Filter.resolved, Option.map_eq_some_iff] at hr
    obtain ⟨field, hfield, rfl⟩ := hr
    rw [lowerFilter, map_eq_ok] at h
    obtain ⟨operand, hoperand, rfl⟩ := h
    rw [Sql.Predicate.typed]
    exact sameType_field hdeclared hfound (findField_some hfield).1
      (hcover field (by simp [ResolvedFilter.fields])) (typed_operand hoperand _)
  | .inList name values, resolved, predicate, hr, hcover, h => by
    rw [Filter.resolved, Option.map_eq_some_iff] at hr
    obtain ⟨field, hfield, rfl⟩ := hr
    rw [lowerFilter, Except.ok.injEq] at h
    subst h
    rw [Sql.Predicate.typed, List.all_eq_true]
    intro scalar hs
    obtain ⟨value, -, rfl⟩ := List.mem_map.mp hs
    exact sameType_field hdeclared hfound (findField_some hfield).1
      (hcover field (by simp [ResolvedFilter.fields])) rfl
  | .isNull name, resolved, predicate, hr, hcover, h => by
    rw [Filter.resolved, Option.map_eq_some_iff] at hr
    obtain ⟨field, hfield, rfl⟩ := hr
    rw [lowerFilter, Except.ok.injEq] at h
    subst h
    rw [Sql.Predicate.typed, typed_field hdeclared hfound (findField_some hfield).1
      (hcover field (by simp [ResolvedFilter.fields]))]
    rfl
  | .isNotNull name, resolved, predicate, hr, hcover, h => by
    rw [Filter.resolved, Option.map_eq_some_iff] at hr
    obtain ⟨field, hfield, rfl⟩ := hr
    rw [lowerFilter, Except.ok.injEq] at h
    subst h
    rw [Sql.Predicate.typed, typed_field hdeclared hfound (findField_some hfield).1
      (hcover field (by simp [ResolvedFilter.fields]))]
    rfl

theorem typed_filters : ∀ (filters : List Filter) {resolved : List ResolvedFilter}
    {predicates : List Sql.Predicate}, Filter.resolvedEach model filters = some resolved →
    (∀ field ∈ ResolvedFilter.fieldsEach resolved, Covers (relationships.map Prod.fst) field) →
    lowerFilters model (relationships.map Prod.fst) resolved = .ok predicates →
    Sql.Predicate.typedEach columns (lowerTables model relationships) predicates = true
  | [], resolved, predicates, hr, hcover, h => by
    rw [Filter.resolvedEach, Option.some.injEq] at hr
    subst hr
    rw [lowerFilters, Except.ok.injEq] at h
    subst h
    rfl
  | filter :: rest, resolved, predicates, hr, hcover, h => by
    simp only [Filter.resolvedEach, Option.bind_eq_bind, Option.bind_eq_some_iff, Option.pure_def,
      Option.some.injEq] at hr
    obtain ⟨first, hfirst, others, hothers, rfl⟩ := hr
    simp only [lowerFilters, bind_eq_ok, pure_eq_ok] at h
    obtain ⟨lowered, hlowered, loweredRest, hloweredRest, rfl⟩ := h
    rw [ResolvedFilter.fieldsEach, List.forall_mem_append] at hcover
    rw [Sql.Predicate.typedEach, Bool.and_eq_true]
    exact ⟨typed_filter filter hfirst hcover.1 hlowered,
      typed_filters rest hothers hcover.2 hloweredRest⟩

end

/-- A metric has the type that its declaration was checked against, or none. -/
theorem typed_metric {reference : MetricReference} {metric : ResolvedMetric}
    (hresolved : MetricResolved model reference metric)
    (hcover : CoversMetric (relationships.map Prod.fst) metric) (anchored : Bool) :
    (lowerMetric (relationships.map Prod.fst) metric).typed columns
        (lowerTables model relationships) anchored =
      if Sql.supports metric.metric.aggregation metric.field.dataType
          && (!anchored || metric.field.dataType != .boolean) then
        some (expectedMetricType metric.metric.aggregation metric.field.dataType)
      else none := by
  have hargument := typed_field hdeclared hfound (findField_some hresolved.field_found).1
    hcover.field
  have hcondition : Sql.optionTyped columns (lowerTables model relationships)
      (metric.filter.map (lowerCondition (relationships.map Prod.fst))) = true := by
    have hfilter := hresolved.filter
    cases hentry : metric.filter with
    | none => rfl
    | some entry =>
      rw [hentry] at hfilter
      generalize metric.metric.filter = filter at hfilter
      cases hfilter with
      | present found typed =>
        rw [Option.map_some, Sql.optionTyped, Option.all_some, lowerCondition, Sql.Predicate.typed]
        exact sameType_field hdeclared hfound (findField_some found).1 (hcover.filter hentry) rfl
  simp only [lowerMetric, Sql.Aggregate.typed, hcondition, if_true, hargument, Option.bind_some]
  cases anchored with
  | false => simp only [Bool.false_eq_true, if_false, Sql.aggregateType_eq, Bool.not_false,
      Bool.true_or, Bool.and_true]
  | true => simp only [if_true, Sql.aggregateType_max, Bool.not_true, Bool.false_or]

end Typed

/-! ## Queries -/

theorem resolveMetric_typed {schemaVersion : String} {model : Model} {reference : MetricReference}
    {names names' : List String} {resolved : ResolvedMetric}
    (h : resolveMetric schemaVersion model reference names = .ok (resolved, names')) :
    resolved.metric.dataType =
      expectedMetricType resolved.metric.aggregation resolved.field.dataType := by
  simp only [resolveMetric, bind_eq_ok, ensure_eq_ok, exists_const, pure_eq_ok, Prod.exists,
    Prod.mk.injEq, beq_iff_eq] at h
  obtain ⟨metric, -, -, field, -, -, -, -, htype, filter, _, -, -, -, anchor, -, rfl, -⟩ := h
  exact htype

theorem validate_typed {backend : HashBackend} {normalized : NormalizedLsq}
    {snapshot : SemanticSnapshot} {options : CompilerOptions} {validated : ValidatedQuery}
    (h : validate backend normalized snapshot options = .ok validated) :
    ∀ metric ∈ validated.metrics, metric.metric.dataType =
      expectedMetricType metric.metric.aggregation metric.field.dataType := by
  simp only [validate, validateAgainst, resolveQuery, bind_eq_ok, ensure_eq_ok, exists_const,
    orError_eq_ok, pure_eq_ok, Prod.exists] at h
  obtain ⟨_, -, -, model, -, -, _, names, -, metrics, _, hmetrics, _, _, -, _, -, _, -, _, -, rfl⟩ := h
  obtain ⟨hforall, -⟩ := mapAccumM_ok (P := fun _ metric => metric.metric.dataType =
      expectedMetricType metric.metric.aggregation metric.field.dataType)
    (g := fun metric names => recordAll metric.fields names)
    (fun _ _ _ _ hx => ⟨resolveMetric_typed hx, (resolveMetric_ok hx).2⟩) hmetrics
  intro metric hm
  obtain ⟨_, -, htype⟩ := exists_left_of_forall₂ hforall hm
  exact htype

section Query
variable {columns : Sql.Columns} {models : List Model} {model : Model}
  {query : LogicalSemanticQuery} {validated : ValidatedQuery} {statement : Sql.Query}
  (hdeclared : columns.Declared model) (h : QueryResolved models model query validated)
  (hlower : validated.lower = .ok statement)
include h hlower

theorem typed_joins : statement.body.tables.joins.all (Sql.Join.typed columns statement.body.tables)
      = true ↔ ∀ relationship ∈ requiredRelationships model query,
        columns.equality (columns.columnType model.source relationship.fromColumn)
          (columns.columnType relationship.target relationship.toColumn) = true := by
  have htables := (lower_ok hlower).2.2.2
  rw [htables, ValidatedQuery.tables, h.model_eq]
  have hjoins : (lowerTables model validated.relationships).joins =
      validated.relationships.zipIdx.map lowerJoin := rfl
  rw [hjoins, List.all_map, List.all_eq_true]
  constructor
  · intro hall relationship hr
    obtain ⟨entry, he, rfl⟩ := List.mem_map.mp (h.mem_relationships.mpr hr)
    have hmem : entry ∈ validated.relationships.zipIdx.map Prod.fst := by
      rw [List.zipIdx_map_fst]
      exact he
    obtain ⟨indexed, hi, rfl⟩ := List.mem_map.mp hmem
    exact hall indexed hi
  · intro hall indexed hi
    exact hall indexed.1.2
      (h.mem_relationships.mp (List.mem_map_of_mem (List.fst_mem_of_mem_zipIdx hi)))

include hdeclared

theorem typed_dimensions : statement.dimensions.mapM
      (fun item => item.1.typed columns statement.body.tables) =
    some (validated.dimensions.map fun dimension =>
      if dimension.timeGrain.isSome then .date else dimension.field.dataType) := by
  obtain ⟨hdims, -, -, htables⟩ := lower_ok hlower
  have hcovered := h.covered
  have hfound := hcovered.found
  rw [ValidatedQuery.lowerDimensions, mapM_eq_ok_iff] at hdims
  rw [h.model_eq] at hdims hfound
  have hcover : ∀ dimension ∈ validated.dimensions, Covers validated.names dimension.field :=
    fun dimension hd => hcovered.dimension hd
  rw [htables, ValidatedQuery.tables, h.model_eq]
  have hresolved := h.dimensions
  generalize statement.dimensions = items at hdims
  generalize validated.dimensions = dimensions at hdims hcover hresolved
  generalize query.dimensions = inputs at hresolved
  induction hdims generalizing inputs with
  | nil => rfl
  | cons hfirst _ ih =>
    cases hresolved with
    | cons hdimension hrest =>
      obtain ⟨scalar, hscalar, rfl⟩ := map_eq_ok.mp hfirst
      rw [List.forall_mem_cons] at hcover
      simp only [List.mapM_cons, typed_dimension hdeclared hfound hdimension hcover.1 hscalar,
        ih hcover.2 _ hrest, Option.pure_def, Option.bind_eq_bind, Option.bind_some, List.map_cons]

theorem typed_where : Sql.optionTyped columns statement.body.tables statement.body.filter = true := by
  obtain ⟨-, hfilter, -, htables⟩ := lower_ok hlower
  have hfound := h.covered.found
  rw [h.model_eq] at hfilter hfound
  obtain ⟨hbind, hsome⟩ := h.filter
  rw [htables, ValidatedQuery.tables, h.model_eq]
  cases hvalidated : validated.filter with
  | none =>
    rw [hvalidated, lowerOptionalFilter, Except.ok.injEq] at hfilter
    rw [← hfilter]
    rfl
  | some resolved =>
    rw [hvalidated, lowerOptionalFilter, map_eq_ok] at hfilter
    obtain ⟨predicate, hpredicate, hstatement⟩ := hfilter
    rw [hvalidated, Option.bind_eq_some_iff] at hbind
    obtain ⟨filter, -, hresolved⟩ := hbind
    rw [← hstatement, Sql.optionTyped, Option.all_some]
    refine typed_filter hdeclared hfound filter hresolved ?_ hpredicate
    intro field hf
    apply h.covered.fields
    simp only [ValidatedQuery.fields, filterFields, hvalidated, List.mem_append]
    exact Or.inr hf

theorem typed_anchor : statement.anchor.all
    (fun anchor => (anchor.typed columns statement.body.tables).isSome) = true := by
  have hanchor := (lower_anchor hlower).1
  have htables := (lower_ok hlower).2.2.2
  have hfound := h.covered.found
  rw [h.model_eq] at hfound
  rw [hanchor, htables, ValidatedQuery.tables, h.model_eq]
  cases hfield : validated.aggregationAnchor with
  | none => rfl
  | some field =>
    obtain ⟨hmem, hdirect, -⟩ := h.anchor_field hfield
    obtain ⟨metric, -, hbind⟩ := List.mem_filterMap.mp hmem
    obtain ⟨name, -, hname⟩ := Option.bind_eq_some_iff.mp hbind
    have hcover : Covers validated.names field := by
      intro name hn
      rw [hdirect] at hn
      cases hn
    have htyped := typed_field hdeclared hfound (findField_some hname).1 hcover
    rw [Option.map_some, Option.all_some, ValidatedQuery.names, htyped]
    rfl

theorem typed_item {metric : ResolvedMetric} (hm : metric ∈ validated.metrics) :
    (lowerMetric validated.names metric).typed columns statement.body.tables
        statement.anchor.isSome =
      if Sql.supports metric.metric.aggregation metric.field.dataType
          && (!statement.anchor.isSome || metric.field.dataType != .boolean) then
        some (expectedMetricType metric.metric.aggregation metric.field.dataType)
      else none := by
  have hfound := h.covered.found
  rw [h.model_eq] at hfound
  obtain ⟨reference, -, hresolved⟩ := h.metric hm
  rw [(lower_ok hlower).2.2.2, ValidatedQuery.tables, h.model_eq]
  exact typed_metric hdeclared hfound hresolved (h.covered.metric hm) _

/-- A statement has the types of its schema exactly when nothing is left open. -/
theorem typed_query_iff (hmetrics : ∀ metric ∈ validated.metrics, metric.metric.dataType =
      expectedMetricType metric.metric.aggregation metric.field.dataType) :
    statement.typed columns = some ((outputSchema validated).map OutputColumn.dataType) ↔
      Typable columns model query := by
  have hdimensions := typed_dimensions hdeclared h hlower
  have hguard : (statement.body.typed columns && statement.anchor.all
      (fun anchor => (anchor.typed columns statement.body.tables).isSome)) =
      statement.body.tables.joins.all (Sql.Join.typed columns statement.body.tables) := by
    rw [Sql.Body.typed, typed_where hdeclared h hlower, typed_anchor hdeclared h hlower,
      Bool.and_true, Bool.and_true]
  have hitems : statement.metrics = validated.metrics.map fun metric =>
      (lowerMetric validated.names metric, metric.metric.semanticName) := (lower_ok hlower).2.2.1
  have hanchored : statement.anchor.isSome = false ↔ FlatPath model query := by
    rw [(lower_anchor hlower).1, Option.isSome_eq_false_iff, Option.isNone_iff_eq_none,
      Option.map_eq_none_iff, h.anchor_eq_none_iff]
  have hschema : (outputSchema validated).map OutputColumn.dataType =
      validated.dimensions.map (fun dimension =>
        if dimension.timeGrain.isSome then .date else dimension.field.dataType)
      ++ validated.metrics.map fun metric => metric.metric.dataType := by
    simp only [outputSchema, List.map_append, List.map_map, Function.comp_def]
  have hlist : ∀ {metric : ResolvedMetric}, metric ∈ validated.metrics →
      metric.metric ∈ queryMetrics model query ∧
        model.findField metric.metric.field = some metric.field := by
    intro metric hm
    obtain ⟨reference, -, hresolved⟩ := h.metric hm
    rw [queryMetrics_eq h]
    exact ⟨List.mem_map_of_mem hm, hresolved.field_found⟩
  unfold Sql.Query.typed
  rw [hguard, hdimensions, hschema, hitems]
  constructor
  · intro htyped
    split at htyped
    next hjoins =>
      simp only [Option.bind_eq_bind, Option.bind_some, Option.bind_eq_some_iff] at htyped
      obtain ⟨types, htypes, -⟩ := htyped
      have hsome := Sql.mapM_option_some htypes
      have hopen : ∀ metric ∈ validated.metrics,
          (Sql.supports metric.metric.aggregation metric.field.dataType
            && (!statement.anchor.isSome || metric.field.dataType != .boolean)) = true := by
        intro metric hm
        have hitem := hsome _ (List.mem_map_of_mem hm)
        rw [typed_item hdeclared h hlower hm] at hitem
        by_contra hnot
        rw [if_neg hnot] at hitem
        cases hitem
      have hmem : ∀ metric ∈ queryMetrics model query, ∀ field ∈ model.findField metric.field,
          ∃ resolved ∈ validated.metrics, resolved.metric = metric ∧ resolved.field = field := by
        intro metric hm field hf
        rw [queryMetrics_eq h] at hm
        obtain ⟨resolved, hr, rfl⟩ := List.mem_map.mp hm
        exact ⟨resolved, hr, rfl, Option.some.inj ((hlist hr).2.symm.trans hf)⟩
      refine ⟨?_, ?_, (typed_joins h hlower).mp hjoins⟩
      · intro metric hm field hf
        obtain ⟨resolved, hr, rfl, rfl⟩ := hmem metric hm field hf
        exact (Bool.and_eq_true _ _ |>.mp (hopen resolved hr)).1
      · intro hfan metric hm field hf
        obtain ⟨resolved, hr, rfl, rfl⟩ := hmem metric hm field hf
        have hanchor : statement.anchor.isSome = true := by
          by_contra hnone
          exact hfan (hanchored.mp (Bool.not_eq_true _ |>.mp hnone))
        have hboolean := (Bool.and_eq_true _ _ |>.mp (hopen resolved hr)).2
        rw [hanchor] at hboolean
        simpa using hboolean
    next => cases htyped
  · intro htypable
    rw [if_pos ((typed_joins h hlower).mpr htypable.joins), Option.bind_eq_bind, Option.bind_some,
      List.mapM_map]
    have hall : validated.metrics.mapM (fun metric => (lowerMetric validated.names metric).typed
        columns statement.body.tables statement.anchor.isSome) =
        some (validated.metrics.map fun metric => metric.metric.dataType) := by
      apply Sql.mapM_option_map
      intro metric hm
      obtain ⟨hquery, hfield⟩ := hlist hm
      have hsupported := htypable.aggregates _ hquery _ hfield
      have hmax : (!statement.anchor.isSome || metric.field.dataType != .boolean) = true := by
        by_cases hflat : FlatPath model query
        · rw [hanchored.mpr hflat]
          rfl
        · have hne := htypable.inputs hflat _ hquery _ hfield
          simp [hne]
      rw [typed_item hdeclared h hlower hm, hsupported, hmax, hmetrics metric hm]
      rfl
    simp only [Function.comp_def, hall, Option.bind_some, Option.pure_def]

end Query

/-- The server accepts a compiled query, and gives its columns the types of the output schema,
exactly when the checks of the compiler left nothing open. A line break in an identifier of the
body is another matter: on the anchored path the statement then reads other columns. -/
theorem well_typed_iff {backend : CompilerBackend} {normalized : NormalizedLsq}
    {snapshot : SemanticSnapshot} {options : CompilerOptions} {compiled : CompiledQuery}
    (h : compileLsq backend normalized snapshot options = .ok compiled) :
    ∃ model validated statement, snapshot.findModel normalized.query = some model ∧
      validate backend.toHashBackend normalized snapshot options = .ok validated ∧
      validated.lower = .ok statement ∧
      lex compiled.sql = some (lexemes statement.emitted.pieces []) ∧
      (FlatPath model normalized.query ∨ Unbroken (bodyIdentifiers model normalized.query) →
        ∀ columns : Sql.Columns, columns.Declared model →
          (statement.emitted.typed columns = some (compiled.outputSchema.map OutputColumn.dataType) ↔
            Typable columns model normalized.query)) := by
  obtain ⟨validated, statement, hvalid, hlower, hsql, -⟩ := compileLsq_ok h
  obtain ⟨model, hmodel, hresolved⟩ := validate_ok hvalid
  refine ⟨model, validated, statement, hmodel, hvalid, hlower, by rw [hsql, lex_written], ?_⟩
  intro hnames columns hdeclared
  have hemitted : statement.emitted = statement := by
    apply emitted_eq_self
    refine hnames.imp (fun hflat => ?_) fun hunbroken => ?_
    · rw [(lower_anchor hlower).1, Option.map_eq_none_iff]
      exact hresolved.anchor_eq_none_iff.mpr hflat
    · intro identifier hi
      exact hunbroken identifier ((lower_intends hresolved hlower).mem_identifiers.mp hi)
  rw [hemitted, compileLsq_outputSchema hvalid h]
  exact typed_query_iff hdeclared hresolved hlower (validate_typed hvalid)

/-! A metric that sums up a text. -/

def skuSnapshot : SemanticSnapshot :=
  { schemaVersion := "2"
    revisionHash := "sha256:1653ad5ccc79dc87871246480846d1f69e31ee69867d91726e000712367026b3"
    models :=
      [{ semanticName := "orders"
         source := ⟨"commerce", "orders"⟩
         fields :=
          [{ semanticName := "id", dataType := .integer, column := "id", entityKey := true },
           { semanticName := "sku", dataType := .text, column := "sku" }]
         metrics :=
          [{ semanticName := "sku_total", dataType := .text, aggregation := .sum, field := "sku",
             additivity := some .additive }] }] }

def skuColumns : Sql.Columns where
  columnType _ column := if column = "sku" then .data .text else .data .integer
  equality left right :=
    match left, right with
    | .data left, .data right => Sql.comparable left right
    | _, _ => false
  equality_data _ _ := rfl

def skuTotal : NormalizedLsq :=
  LogicalSemanticQuery.normalize standardHash
    { model := "orders", metrics := [{ metric := "sku_total" }] } (by decide)

theorem skuSnapshot_checked : checkSnapshot standardHash skuSnapshot = .ok () := by
  apply checkSnapshot_of_published (by decide)
  apply published_of_codes
  decide +kernel

theorem skuColumns_declared : ∀ model ∈ skuSnapshot.models, skuColumns.Declared model := by
  intro model hm field hf relation _
  rw [List.mem_singleton.mp hm] at hf
  rcases List.mem_pair.mp hf with rfl | rfl <;> rfl

theorem well_typed_sku_total :
    ∃ compiled, compileLsq standardBackend skuTotal skuSnapshot {} = .ok compiled ∧
      ∃ model validated statement, skuSnapshot.findModel skuTotal.query = some model ∧
        validate standardBackend.toHashBackend skuTotal skuSnapshot {} = .ok validated ∧
        validated.lower = .ok statement ∧
        lex compiled.sql = some (lexemes statement.emitted.pieces []) ∧
        skuColumns.Declared model ∧ FlatPath model skuTotal.query ∧
        (statement.emitted.typed skuColumns =
            some (compiled.outputSchema.map OutputColumn.dataType) ↔
          Typable skuColumns model skuTotal.query) := by
  have hlower : succeedsWith (validateAgainst skuTotal skuSnapshot {} >>= ValidatedQuery.lower)
      (fun _ => true) = true := by decide +kernel
  obtain ⟨statement, hstatement, -⟩ := exists_ok_of_succeedsWith hlower
  obtain ⟨compiled, hcompiled, -⟩ := compileLsq_standard skuSnapshot_checked hstatement
  obtain ⟨model, validated, lowered, hmodel, hvalid, hlowered, hlex, htyped⟩ :=
    well_typed_iff hcompiled
  have hdeclared : skuColumns.Declared model :=
    skuColumns_declared model (List.mem_of_find?_eq_some hmodel)
  have hflat : FlatPath model skuTotal.query := by
    cases hmodel
    decide
  exact ⟨compiled, hcompiled, model, validated, lowered, hmodel, hvalid, hlowered, hlex, hdeclared,
    hflat, htyped (Or.inl hflat) skuColumns hdeclared⟩

/-- There is no `sum` of texts. -/
theorem sku_total_rejected :
    ∃ compiled, compileLsq standardBackend skuTotal skuSnapshot {} = .ok compiled ∧
      ∃ statement, compiled.sql = (written statement).1 ∧
        (∀ model ∈ skuSnapshot.models, skuColumns.Declared model) ∧
        statement.emitted.typed skuColumns = none := by
  have hlower : succeedsWith (validateAgainst skuTotal skuSnapshot {} >>= ValidatedQuery.lower)
      (fun statement => decide (statement.emitted.typed skuColumns = none)) = true := by
    decide +kernel
  obtain ⟨statement, hstatement, htyped⟩ := exists_ok_of_succeedsWith hlower
  obtain ⟨compiled, hcompiled, hsql⟩ := compileLsq_standard skuSnapshot_checked hstatement
  exact ⟨compiled, hcompiled, statement, hsql, skuColumns_declared, of_decide_eq_true htyped⟩

end Postgresem
