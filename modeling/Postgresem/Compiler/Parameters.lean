import Postgresem.Compiler.Interference
import Postgresem.Sql.Casts

/-! The parameters of a compiled query: numbered in order without repetition, each used and cast
to its type, and holding at each place of the statement the value that the query has there. -/
namespace Postgresem
open Control Template Lexing Placeholders

/-! ## The values of a query, in the order of the statement -/

/-- The zone that a conversion of the model's timestamps uses. -/
def zoneValues (model : Model) : List Sql.Param :=
  match model.timezone with
  | some zone => [(.text, .text zone)]
  | none => []

def dimensionValues (model : Model) (dimension : Dimension) : List Sql.Param :=
  match model.findField dimension.field with
  | some field =>
    if dimension.timeGrain.isSome && field.dataType == .timestampTz then zoneValues model else []
  | none => []

def metricValues (model : Model) (reference : MetricReference) : List Sql.Param :=
  match (model.findMetric reference.metric).bind Metric.filter with
  | some filter => ((model.findField filter.field).map fun field =>
      (field.dataType, filter.value)).toList
  | none => []

/-- A date that is compared with a timestamp stands for the midnight in the model's zone. -/
def comparisonValues (model : Model) (field : Field) (value : Literal) : List Sql.Param :=
  match field.dataType, value with
  | .timestampTz, .date _ => zoneValues model ++ [(.date, value)]
  | fieldType, value => [(fieldType, value)]

mutual

def Filter.values (model : Model) : Filter → List Sql.Param
  | .and args | .or args => Filter.valuesEach model args
  | .not arg => arg.values model
  | .comparison _ name value =>
    (model.findField name).elim [] fun field => comparisonValues model field value
  | .inList name values => (model.findField name).elim [] fun field =>
      values.map fun value => (field.dataType, value)
  | .isNull _ | .isNotNull _ => []

def Filter.valuesEach (model : Model) : List Filter → List Sql.Param
  | [] => []
  | filter :: rest => filter.values model ++ Filter.valuesEach model rest

end

def intendedValues (model : Model) (query : LogicalSemanticQuery) (limit : Nat) :
    List Sql.Param :=
  query.dimensions.flatMap (dimensionValues model) ++ query.metrics.flatMap (metricValues model)
    ++ query.filters.elim [] (Filter.values model) ++ [(.integer, .integer limit)]

/-! ## The holes of the lowered statement -/

theorem holes_lowerField (names : List String) (field : Field) :
    holes (lowerField names field).pieces = [] := rfl

theorem lowerDimension_holes {model : Model} {names : List String} {dimension : Dimension}
    {resolved : ResolvedDimension} {scalar : Sql.Scalar}
    (hresolved : DimensionResolved model dimension resolved)
    (h : lowerDimension model names resolved = .ok scalar) :
    scalar.Dated ∧ holes scalar.pieces = dimensionValues model dimension := by
  rw [dimensionValues, hresolved.found, ← hresolved.grain]
  unfold lowerDimension at h
  cases hgrain : resolved.timeGrain with
  | none =>
    rw [hgrain] at h
    cases h
    exact ⟨trivial, rfl⟩
  | some grain =>
    rw [hgrain] at h
    by_cases htype : resolved.field.dataType = .timestampTz
    · simp only [htype, if_true] at h
      obtain ⟨zone, hzone, rfl⟩ := map_eq_ok.mp h
      rw [orError_eq_ok] at hzone
      refine ⟨trivial, ?_⟩
      simp [htype, zoneValues, hzone, Sql.Scalar.pieces, lowerField]
    · simp only [htype, if_false] at h
      cases h
      refine ⟨trivial, ?_⟩
      simp [htype, Sql.Scalar.pieces, lowerField]

theorem lowerOperand_holes {model : Model} {field : Field} {value : Literal} {scalar : Sql.Scalar}
    (h : lowerOperand model field value = .ok scalar) :
    scalar.Dated ∧ holes scalar.pieces = comparisonValues model field value := by
  by_cases hdated : field.dataType = .timestampTz ∧ ∃ text, value = .date text
  · obtain ⟨htype, text, rfl⟩ := hdated
    simp only [lowerOperand, htype] at h
    obtain ⟨zone, hzone, rfl⟩ := map_eq_ok.mp h
    rw [orError_eq_ok] at hzone
    refine ⟨rfl, ?_⟩
    simp [comparisonValues, zoneValues, hzone, Sql.Scalar.pieces, htype, literalType]
  · have hplain : lowerOperand model field value = .ok (.parameter field.dataType value) := by
      unfold lowerOperand
      split
      · exact absurd ⟨‹_›, _, rfl⟩ hdated
      · rfl
    have hvalues : comparisonValues model field value = [(field.dataType, value)] := by
      unfold comparisonValues
      split
      · exact absurd ⟨‹_›, _, rfl⟩ hdated
      · rfl
    rw [hplain] at h
    cases h
    rw [hvalues]
    exact ⟨trivial, rfl⟩

theorem holes_parameters (dataType : DataType) (values : List Literal) :
    ((values.map fun value => Sql.Scalar.parameter dataType value).map Sql.Scalar.pieces).flatMap
      holes = values.map fun value => (dataType, value) := by
  induction values with
  | nil => rfl
  | cons value rest ih =>
    rw [List.map_cons, List.map_cons, List.flatMap_cons, ih]
    rfl

mutual

theorem lowerFilter_holes (model : Model) (names : List String) : ∀ (filter : Filter)
    {resolved : ResolvedFilter} {predicate : Sql.Predicate},
    filter.resolved model = some resolved → lowerFilter model names resolved = .ok predicate →
    predicate.Dated ∧ holes predicate.pieces = filter.values model
  | .and args, resolved, predicate, hr, h => by
    rw [Filter.resolved, Option.map_eq_some_iff] at hr
    obtain ⟨resolvedArgs, hargs, rfl⟩ := hr
    rw [lowerFilter, map_eq_ok] at h
    obtain ⟨lowered, hlowered, rfl⟩ := h
    obtain ⟨hdated, hholes⟩ := lowerFilters_holes model names args hargs hlowered
    refine ⟨by rwa [Sql.Predicate.Dated], ?_⟩
    rw [Sql.Predicate.pieces, holes_append, holes_raw, holes_joinWith, hholes, Filter.values]
    simp
  | .or args, resolved, predicate, hr, h => by
    rw [Filter.resolved, Option.map_eq_some_iff] at hr
    obtain ⟨resolvedArgs, hargs, rfl⟩ := hr
    rw [lowerFilter, map_eq_ok] at h
    obtain ⟨lowered, hlowered, rfl⟩ := h
    obtain ⟨hdated, hholes⟩ := lowerFilters_holes model names args hargs hlowered
    refine ⟨by rwa [Sql.Predicate.Dated], ?_⟩
    rw [Sql.Predicate.pieces, holes_append, holes_raw, holes_joinWith, hholes, Filter.values]
    simp
  | .not arg, resolved, predicate, hr, h => by
    rw [Filter.resolved, Option.map_eq_some_iff] at hr
    obtain ⟨resolvedArg, harg, rfl⟩ := hr
    rw [lowerFilter, map_eq_ok] at h
    obtain ⟨lowered, hlowered, rfl⟩ := h
    obtain ⟨hdated, hholes⟩ := lowerFilter_holes model names arg harg hlowered
    refine ⟨by rwa [Sql.Predicate.Dated], ?_⟩
    rw [Sql.Predicate.pieces, holes_append, holes_raw, hholes, Filter.values]
    simp
  | .comparison operator name value, resolved, predicate, hr, h => by
    rw [Filter.resolved, Option.map_eq_some_iff] at hr
    obtain ⟨field, hfield, rfl⟩ := hr
    rw [lowerFilter, map_eq_ok] at h
    obtain ⟨operand, hoperand, rfl⟩ := h
    obtain ⟨hdated, hholes⟩ := lowerOperand_holes hoperand
    refine ⟨by rw [Sql.Predicate.Dated]; exact ⟨trivial, hdated⟩, ?_⟩
    rw [Sql.Predicate.pieces, holes_append, holes_lowerField, holes_raw, hholes, Filter.values,
      hfield]
    rfl
  | .inList name values, resolved, predicate, hr, h => by
    rw [Filter.resolved, Option.map_eq_some_iff] at hr
    obtain ⟨field, hfield, rfl⟩ := hr
    rw [lowerFilter, Except.ok.injEq] at h
    subst h
    refine ⟨?_, ?_⟩
    · rw [Sql.Predicate.Dated]
      refine ⟨trivial, ?_⟩
      intro scalar hs
      obtain ⟨value, -, rfl⟩ := List.mem_map.mp hs
      trivial
    · rw [Sql.Predicate.pieces, List.append_assoc, holes_append, holes_lowerField,
        List.cons_append, holes_raw, holes_append, holes_joinWith, holes_parameters,
        Filter.values, hfield]
      simp
  | .isNull name, resolved, predicate, hr, h => by
    rw [Filter.resolved, Option.map_eq_some_iff] at hr
    obtain ⟨field, hfield, rfl⟩ := hr
    rw [lowerFilter, Except.ok.injEq] at h
    subst h
    exact ⟨by rw [Sql.Predicate.Dated]; trivial, by rw [Filter.values]; rfl⟩
  | .isNotNull name, resolved, predicate, hr, h => by
    rw [Filter.resolved, Option.map_eq_some_iff] at hr
    obtain ⟨field, hfield, rfl⟩ := hr
    rw [lowerFilter, Except.ok.injEq] at h
    subst h
    exact ⟨by rw [Sql.Predicate.Dated]; trivial, by rw [Filter.values]; rfl⟩

theorem lowerFilters_holes (model : Model) (names : List String) : ∀ (filters : List Filter)
    {resolved : List ResolvedFilter} {predicates : List Sql.Predicate},
    Filter.resolvedEach model filters = some resolved →
    lowerFilters model names resolved = .ok predicates →
    Sql.Predicate.DatedEach predicates ∧
      (Sql.Predicate.piecesEach predicates).flatMap holes = Filter.valuesEach model filters
  | [], resolved, predicates, hr, h => by
    rw [Filter.resolvedEach, Option.some.injEq] at hr
    subst hr
    rw [lowerFilters, Except.ok.injEq] at h
    subst h
    exact ⟨trivial, rfl⟩
  | filter :: rest, resolved, predicates, hr, h => by
    simp only [Filter.resolvedEach, Option.bind_eq_bind, Option.bind_eq_some_iff, Option.pure_def,
      Option.some.injEq] at hr
    obtain ⟨first, hfirst, others, hothers, rfl⟩ := hr
    simp only [lowerFilters, bind_eq_ok, pure_eq_ok] at h
    obtain ⟨lowered, hlowered, loweredRest, hloweredRest, rfl⟩ := h
    obtain ⟨hdated, hholes⟩ := lowerFilter_holes model names filter hfirst hlowered
    obtain ⟨hdateds, hrest⟩ := lowerFilters_holes model names rest hothers hloweredRest
    refine ⟨by rw [Sql.Predicate.DatedEach]; exact ⟨hdated, hdateds⟩, ?_⟩
    rw [Sql.Predicate.piecesEach, List.flatMap_cons, hholes, hrest, Filter.valuesEach]

end

theorem lowerMetric_holes {model : Model} (names : List String) {reference : MetricReference}
    {metric : ResolvedMetric} (h : MetricResolved model reference metric) :
    (lowerMetric names metric).argument.Dated ∧
      (∀ condition, (lowerMetric names metric).condition = some condition → condition.Dated) ∧
      holes (lowerMetric names metric).pieces = metricValues model reference ∧
      holes (lowerMetric names metric).innerPieces = metricValues model reference := by
  have hfilter := h.filter
  rw [metricValues, h.found, Option.bind_some]
  unfold lowerMetric Sql.Aggregate.pieces Sql.Aggregate.innerPieces
  generalize metric.metric.filter = filter at hfilter ⊢
  generalize metric.filter = entry at hfilter ⊢
  cases hfilter with
  | absent =>
    refine ⟨trivial, ?_, ?_, ?_⟩
    · intro condition hc
      cases hc
    · simp [holes_lowerField]
    · simp [holes_lowerField]
  | present found typed =>
    refine ⟨trivial, ?_, ?_, ?_⟩
    · intro condition hc
      cases hc
      rw [lowerCondition, Sql.Predicate.Dated]
      exact ⟨trivial, trivial⟩
    · simp [holes_lowerField, lowerCondition, Sql.Predicate.pieces, found, Sql.Scalar.pieces]
    · simp [holes_lowerField, lowerCondition, Sql.Predicate.pieces, found, Sql.Scalar.pieces]

/-! ## The holes of the whole statement -/

section Statement
variable {models : List Model} {model : Model} {query : LogicalSemanticQuery}
  {validated : ValidatedQuery} {statement : Sql.Query}

theorem lowerDimensions_holes (hdims : List.Forall₂ (DimensionResolved model) query.dimensions
    validated.dimensions) (hmodel : validated.model = model)
    {items : List (Sql.Scalar × String)} (h : validated.lowerDimensions = .ok items) :
    (∀ item ∈ items, item.1.Dated) ∧
      items.flatMap (fun item => holes item.1.pieces) =
        query.dimensions.flatMap (dimensionValues model) := by
  rw [ValidatedQuery.lowerDimensions, mapM_eq_ok_iff, hmodel] at h
  generalize validated.names = names at h
  generalize validated.dimensions = resolved at hdims h
  generalize query.dimensions = inputs at hdims ⊢
  induction hdims generalizing items with
  | nil =>
    cases h
    exact ⟨by simp, rfl⟩
  | cons hx _ ih =>
    cases h with
    | cons hfirst hrest =>
      obtain ⟨scalar, hscalar, rfl⟩ := map_eq_ok.mp hfirst
      obtain ⟨hdated, hholes⟩ := lowerDimension_holes hx hscalar
      obtain ⟨hdateds, hothers⟩ := ih hrest
      refine ⟨List.forall_mem_cons.mpr ⟨hdated, hdateds⟩, ?_⟩
      rw [List.flatMap_cons, List.flatMap_cons, hholes, hothers]

theorem lowerMetrics_holes (hmetrics : List.Forall₂ (MetricResolved model) query.metrics
    validated.metrics) :
    (∀ item ∈ validated.lowerMetrics, item.1.argument.Dated ∧
      ∀ condition, item.1.condition = some condition → condition.Dated) ∧
    validated.lowerMetrics.flatMap (fun item => holes item.1.pieces) =
      query.metrics.flatMap (metricValues model) ∧
    validated.lowerMetrics.flatMap (fun item => holes item.1.innerPieces) =
      query.metrics.flatMap (metricValues model) := by
  unfold ValidatedQuery.lowerMetrics
  generalize validated.names = names
  generalize validated.metrics = resolved at hmetrics ⊢
  generalize query.metrics = inputs at hmetrics ⊢
  induction hmetrics with
  | nil => exact ⟨by simp, rfl, rfl⟩
  | cons hx _ ih =>
    obtain ⟨hargument, hcondition, hflat, hinner⟩ := lowerMetric_holes names hx
    obtain ⟨hdated, hflats, hinners⟩ := ih
    refine ⟨?_, ?_, ?_⟩
    · exact List.forall_mem_cons.mpr ⟨⟨hargument, hcondition⟩, hdated⟩
    · rw [List.map_cons, List.flatMap_cons, List.flatMap_cons, hflat, hflats]
    · rw [List.map_cons, List.flatMap_cons, List.flatMap_cons, hinner, hinners]

theorem lowerOptionalFilter_holes (hfilter : query.filters.bind (Filter.resolved model) =
      validated.filter ∧ query.filters.isSome = validated.filter.isSome) {names : List String}
    {filter : Option Sql.Predicate}
    (h : lowerOptionalFilter model names validated.filter = .ok filter) (newline : String) :
    (∀ predicate, filter = some predicate → predicate.Dated) ∧
      holes (Sql.wherePieces newline filter) = query.filters.elim [] (Filter.values model) := by
  obtain ⟨hbind, hsome⟩ := hfilter
  cases hquery : query.filters with
  | none =>
    rw [hquery, Option.bind_none] at hbind
    rw [← hbind, lowerOptionalFilter, Except.ok.injEq] at h
    subst h
    exact ⟨by simp, rfl⟩
  | some given =>
    rw [hquery, Option.bind_some] at hbind
    rw [hquery, Option.isSome_some] at hsome
    obtain ⟨resolved, hresolved⟩ := Option.isSome_iff_exists.mp hsome.symm
    rw [hresolved] at hbind
    rw [hresolved, lowerOptionalFilter, map_eq_ok] at h
    obtain ⟨predicate, hpredicate, rfl⟩ := h
    obtain ⟨hdated, hholes⟩ := lowerFilter_holes model names given hbind hpredicate
    refine ⟨?_, hholes⟩
    intro other ho
    cases ho
    exact hdated

theorem holes_aliased {α : Type} (items : List α) (template : α → List (Piece Sql.Param))
    (name : α → String) :
    (items.map fun item => template item ++ [.name " AS " (name item)]).flatMap holes =
      items.flatMap fun item => holes (template item) := by
  induction items with
  | nil => rfl
  | cons item rest ih => simp [ih]

theorem flatMap_fst_zipIdx {α β : Type} (items : List α) (f : α → List β) :
    items.zipIdx.flatMap (fun item => f item.1) = items.flatMap f := by
  rw [← List.flatMap_map Prod.fst, List.zipIdx_map_fst]

theorem holes_tables (newline : String) (tables : Sql.Tables) :
    holes (tables.pieces newline) = [] := by
  have hjoins : ((tables.joins.map (Sql.Join.pieces newline)).flatMap holes) = [] := by
    rw [List.flatMap_map]
    exact List.flatMap_eq_nil_iff.mpr fun join _ => rfl
  rw [Sql.Tables.pieces, holes_append, holes_flatten, hjoins]
  rfl

theorem holes_groupPieces (count : Nat) : holes (Sql.groupPieces count) = [] := by
  unfold Sql.groupPieces
  split <;> rfl

theorem holes_orderPieces (orderBy : List OrderBy) : holes (Sql.orderPieces orderBy) = [] := by
  cases orderBy with
  | nil => rfl
  | cons order rest =>
    have hrest : (rest.map (Sql.orderItem ", ")).flatMap holes = [] := by
      rw [List.flatMap_map]
      exact List.flatMap_eq_nil_iff.mpr fun other _ => rfl
    rw [Sql.orderPieces, holes_append, holes_flatten, hrest]
    rfl

theorem holes_outerItems (statement : Sql.Query) :
    statement.outerItems.flatMap holes = [] := by
  apply List.flatMap_eq_nil_iff.mpr
  intro template ht
  simp only [Sql.Query.outerItems, List.mem_append, List.mem_map] at ht
  rcases ht with ⟨item, -, rfl⟩ | ⟨item, -, rfl⟩ <;> rfl

theorem holes_flatPieces (statement : Sql.Query) :
    holes statement.flatPieces = statement.dimensions.flatMap (fun item => holes item.1.pieces)
      ++ statement.metrics.flatMap (fun item => holes item.1.pieces)
      ++ holes (Sql.wherePieces "\n" statement.body.filter) := by
  simp only [Sql.Query.flatPieces, Sql.Query.flatItems, Sql.Body.pieces, holes_append, holes_raw,
    holes_joinWith, List.cons_append, List.flatMap_append, holes_aliased, holes_tables,
    holes_groupPieces, List.nil_append, List.append_nil]

theorem holes_anchoredPieces (statement : Sql.Query) (anchor : Sql.Scalar) :
    holes (statement.anchoredPieces anchor) =
      statement.dimensions.flatMap (fun item => holes item.1.pieces) ++ holes anchor.pieces
        ++ statement.metrics.flatMap (fun item => holes item.1.innerPieces)
        ++ holes (Sql.wherePieces "\n  " statement.body.filter) := by
  have hdimensions := flatMap_fst_zipIdx statement.dimensions fun item => holes item.1.pieces
  have hmetrics := flatMap_fst_zipIdx statement.metrics fun item => holes item.1.innerPieces
  simp only [Sql.Query.anchoredPieces, Sql.Query.innerItems, Sql.Body.pieces, holes_append,
    holes_raw, holes_name, holes_joinWith, List.cons_append, List.flatMap_append, holes_aliased,
    holes_tables, holes_groupPieces, holes_outerItems, List.nil_append, List.append_nil,
    hdimensions, hmetrics, List.flatMap_cons, List.flatMap_nil, holes_nil]

theorem holes_reindent (predicate : Sql.Predicate) :
    holes predicate.reindent.pieces = holes predicate.pieces := by
  rw [← Sql.Predicate.pieces_reindent]
  exact holes_substitute _ _ _

theorem holes_where_reindent (newline : String) (filter : Option Sql.Predicate) :
    holes (Sql.wherePieces newline (filter.map Sql.Predicate.reindent)) =
      holes (Sql.wherePieces newline filter) := by
  cases filter with
  | none => rfl
  | some predicate => exact holes_reindent predicate

theorem lower_holes (hresolved : QueryResolved models model query validated)
    (h : validated.lower = .ok statement) :
    statement.Dated ∧ holes statement.emitted.pieces =
      intendedValues model query validated.limit := by
  obtain ⟨hdims, hfilter, hmetrics, -⟩ := lower_ok h
  obtain ⟨hanchor, -, hlimit⟩ := lower_anchor h
  rw [hresolved.model_eq] at hfilter
  obtain ⟨hdimsDated, hdimsHoles⟩ :=
    lowerDimensions_holes hresolved.dimensions hresolved.model_eq hdims
  obtain ⟨hmetricsDated, hflat, hinner⟩ := lowerMetrics_holes hresolved.metrics
  have hwhere := lowerOptionalFilter_holes hresolved.filter hfilter
  rw [← hmetrics] at hmetricsDated hflat hinner
  have hanchorColumn : ∀ anchor, statement.anchor = some anchor →
      anchor.Dated ∧ holes anchor.pieces = [] := by
    intro anchor ha
    rw [hanchor, Option.map_eq_some_iff] at ha
    obtain ⟨field, -, rfl⟩ := ha
    exact ⟨trivial, rfl⟩
  refine ⟨⟨hdimsDated, hmetricsDated, fun anchor ha => (hanchorColumn anchor ha).1,
    (hwhere "\n").1⟩, ?_⟩
  have hselect : holes statement.emitted.selectPieces =
      query.dimensions.flatMap (dimensionValues model) ++ query.metrics.flatMap (metricValues model)
        ++ query.filters.elim [] (Filter.values model) := by
    unfold Sql.Query.emitted
    split
    next anchor ha =>
      simp only [Sql.Query.selectPieces, ha, holes_anchoredPieces, Sql.Body.reindent,
        holes_where_reindent, (hwhere "\n  ").2, (hanchorColumn anchor ha).2, hdimsHoles, hinner,
        List.append_nil]
    next ha =>
      simp only [Sql.Query.selectPieces, ha, holes_flatPieces, (hwhere "\n").2, hdimsHoles, hflat]
  have hlimits : statement.emitted.limit = validated.limit := by
    rw [← hlimit]
    unfold Sql.Query.emitted
    split <;> rfl
  rw [Sql.Query.pieces, holes_append, holes_append, hselect, holes_orderPieces, hlimits,
    List.append_nil]
  rfl

end Statement

/-! ## Parameters and their positions -/

def CompiledParameter.param (parameter : CompiledParameter) : Sql.Param :=
  (parameter.dataType, parameter.value)

/-- The type and value of the parameter at a position. -/
def valueAt (parameters : List CompiledParameter) (position : Nat) : Option Sql.Param :=
  (parameters.find? fun parameter => parameter.position == position).map CompiledParameter.param

theorem numbered_positions (start : Nat) (pool : List Sql.Param) :
    (numbered start pool).map CompiledParameter.position = List.range' (start + 1) pool.length := by
  induction pool generalizing start with
  | nil => rfl
  | cons param rest ih => rw [numbered, List.map_cons, ih, List.length_cons, List.range'_succ]

theorem numbered_params (start : Nat) (pool : List Sql.Param) :
    (numbered start pool).map CompiledParameter.param = pool := by
  induction pool generalizing start with
  | nil => rfl
  | cons param rest ih =>
    rw [numbered, List.map_cons, ih]
    rfl

theorem find?_numbered (start : Nat) {pool : List Sql.Param} {value : Sql.Param}
    (h : value ∈ pool) : ∃ parameter ∈ numbered start pool,
      (numbered start pool).find? (fun parameter =>
        parameter.position == start + positionIn pool value) = some parameter ∧
      parameter.position = start + positionIn pool value ∧ parameter.param = value := by
  induction pool generalizing start with
  | nil => cases h
  | cons first rest ih =>
    by_cases heq : first = value
    · subst heq
      refine ⟨_, List.mem_cons_self, ?_, ?_, rfl⟩
      · rw [numbered, positionIn_cons_self]
        exact List.find?_cons_of_pos (beq_self_eq_true (start + 1))
      · rw [positionIn_cons_self]
    · have hrest := (List.mem_cons.mp h).resolve_left (Ne.symm heq)
      obtain ⟨parameter, hmem, hfind, hposition, hparam⟩ := ih (start + 1) hrest
      have hpos := positionIn_pos rest value
      have hshift : start + positionIn (first :: rest) value =
          start + 1 + positionIn rest value := by
        rw [positionIn_cons_ne heq]
        omega
      rw [hshift]
      refine ⟨parameter, List.mem_cons_of_mem _ hmem, ?_, hposition, hparam⟩
      rw [numbered, List.find?_cons_of_neg]
      · exact hfind
      · have hne : start + 1 ≠ start + 1 + positionIn rest value := by omega
        simpa using hne

theorem valueAt_numberParameters {pool : List Sql.Param} {value : Sql.Param} (h : value ∈ pool) :
    valueAt (numberParameters pool) (positionIn pool value) = some value ∧
      ∃ parameter ∈ numberParameters pool, parameter.position = positionIn pool value ∧
        parameter.param = value := by
  obtain ⟨parameter, hmem, hfind, hposition, hparam⟩ := find?_numbered 0 h
  rw [Nat.zero_add] at hfind hposition
  refine ⟨?_, parameter, hmem, hposition, hparam⟩
  rw [valueAt, numberParameters, hfind, Option.map_some, hparam]

/-- A cast starts with a colon, so that no digit follows a placeholder. -/
theorem CastsAs.head? {dataType : DataType} {cast : List Char} (h : Sql.CastsAs dataType cast) :
    cast.head? = some ':' := by
  rcases h with rfl | ⟨-, rfl⟩
  · cases dataType <;> decide
  · decide

theorem delimited_of_colons {xs : List (Item Sql.Param)}
    (h : ∀ site ∈ sites Sql.isCastCharacter xs, site.2.head? = some ':') : Delimited xs := by
  unfold Delimited
  induction xs with
  | nil => simp [sites]
  | cons x xs ih =>
    cases x with
    | lexeme lexeme => exact ih h
    | value value =>
      rw [sites, List.forall_mem_cons] at h ⊢
      refine ⟨?_, ih h.2⟩
      have hhead := h.1
      cases xs with
      | nil => cases hhead
      | cons item rest =>
        cases item with
        | value value => cases hhead
        | lexeme lexeme =>
          cases lexeme with
          | identifier text => cases hhead
          | constant text => cases hhead
          | plain c =>
            rw [suffix] at hhead ⊢
            by_cases hcast : Sql.isCastCharacter c = true
            · rw [if_pos hcast, List.head?_cons, Option.some.injEq] at hhead
              rw [hhead, if_neg (by decide)]
            · rw [if_neg hcast] at hhead
              cases hhead

/-- What a parameter list owes to a text that was read into items: to the statement that was
meant and the values that it has, in order. -/
structure ParameterDiscipline (parameters : List CompiledParameter) (read : List (Item Nat))
    (statement : List (Item Sql.Param)) (intended : List Sql.Param) : Prop where
  positions : parameters.map CompiledParameter.position = List.range' 1 parameters.length
  distinct : (parameters.map CompiledParameter.param).Nodup
  inRange : ∀ site ∈ sites Sql.isCastCharacter read, 1 ≤ site.1 ∧ site.1 ≤ parameters.length
  cast : ∀ site ∈ sites Sql.isCastCharacter read, ∃ parameter ∈ parameters,
    parameter.position = site.1 ∧ Sql.CastsAs parameter.dataType site.2
  used : ∀ parameter ∈ parameters,
    parameter.position ∈ (sites Sql.isCastCharacter read).map Prod.fst
  filled : read.map (Item.map (valueAt parameters)) = statement.map (Item.map some)
  intended : (sites Sql.isCastCharacter read).map (fun site => valueAt parameters site.1) =
    intended.map some

theorem items_map_congr {α β : Type} {f g : α → β} {xs : List (Item α)}
    (h : ∀ site ∈ sites Sql.isCastCharacter xs, f site.1 = g site.1) :
    xs.map (Item.map f) = xs.map (Item.map g) := by
  induction xs with
  | nil => rfl
  | cons x xs ih =>
    cases x with
    | lexeme lexeme => rw [List.map_cons, List.map_cons, ih h, Item.map, Item.map]
    | value value =>
      rw [sites, List.forall_mem_cons] at h
      rw [List.map_cons, List.map_cons, ih h.2, Item.map, Item.map, h.1]

/-- Numbering the holes of a template whose holes are cast is disciplined. -/
theorem disciplined_of_hosted {template : List (Piece Sql.Param)} (h : Sql.Hosted template) :
    ParameterDiscipline (numberParameters (assemble template []).2)
      (read none (lexemes template [])) (items template) (holes template) := by
  have hdelimited : Delimited (items template) :=
    delimited_of_colons fun site hs => CastsAs.head? (h.casts site hs)
  obtain ⟨hnodup, hmem⟩ := assemble_pool_spec template List.nodup_nil
  rw [read_lexemes h.undollared hdelimited]
  generalize (assemble template []).2 = pool at hnodup hmem
  have hpool : ∀ site ∈ sites Sql.isCastCharacter (items template), site.1 ∈ pool := by
    intro site hs
    rw [hmem, ← sites_items Sql.isCastCharacter]
    exact Or.inl (List.mem_map_of_mem hs)
  have hlength : (numberParameters pool).length = pool.length := numbered_length 0 pool
  have hsites : ∀ site ∈ sites Sql.isCastCharacter (items template),
      valueAt (numberParameters pool) (positionIn pool site.1) = some site.1 :=
    fun site hs => (valueAt_numberParameters (hpool site hs)).1
  constructor
  case positions =>
    rw [hlength, numberParameters, numbered_positions]
  case distinct =>
    rw [numberParameters, numbered_params]
    exact hnodup
  case inRange =>
    rw [sites_map, hlength]
    intro site hs
    obtain ⟨held, hheld, rfl⟩ := List.mem_map.mp hs
    exact ⟨positionIn_pos pool held.1, positionIn_le (hpool held hheld)⟩
  case cast =>
    rw [sites_map]
    intro site hs
    obtain ⟨held, hheld, rfl⟩ := List.mem_map.mp hs
    obtain ⟨parameter, hparameter, hposition, hparam⟩ :=
      (valueAt_numberParameters (hpool held hheld)).2
    refine ⟨parameter, hparameter, hposition, ?_⟩
    have htype : parameter.dataType = held.1.1 := congrArg Prod.fst hparam
    rw [htype]
    exact h.casts held hheld
  case used =>
    intro parameter hp
    have hvalue : parameter.param ∈ pool := by
      rw [← numbered_params 0 pool]
      exact List.mem_map_of_mem hp
    have hhole : parameter.param ∈ holes template := by simpa using (hmem _).mp hvalue
    rw [← sites_items Sql.isCastCharacter, List.mem_map] at hhole
    obtain ⟨site, hs, hsite⟩ := hhole
    obtain ⟨same, hsame, hposition, hparam⟩ := (valueAt_numberParameters hvalue).2
    have hinjective : (numberParameters pool).map CompiledParameter.param |>.Nodup := by
      rw [numberParameters, numbered_params]
      exact hnodup
    have heq : parameter = same := List.inj_on_of_nodup_map hinjective hp hsame hparam.symm
    rw [sites_map, List.map_map, heq, hposition, ← hsite]
    exact List.mem_map.mpr ⟨site, hs, rfl⟩
  case filled =>
    have hvalues := items_map_congr (f := fun value =>
      valueAt (numberParameters pool) (positionIn pool value)) hsites
    rw [List.map_map, ← hvalues]
    apply List.map_congr_left
    intro item _
    cases item <;> rfl
  case intended =>
    rw [sites_map, List.map_map, ← sites_items Sql.isCastCharacter, List.map_map]
    exact List.map_congr_left fun site hs => hsites site hs

theorem validate_limit {backend : HashBackend} {normalized : NormalizedLsq}
    {snapshot : SemanticSnapshot} {options : CompilerOptions} {validated : ValidatedQuery}
    (h : validate backend normalized snapshot options = .ok validated) :
    validated.limit = normalized.query.limit.getD options.defaultLimit ∧
      validated.limit ≤ options.hardLimit := by
  simp only [validate, validateAgainst, resolveQuery, bind_eq_ok, ensure_eq_ok, exists_const,
    orError_eq_ok, pure_eq_ok, Prod.exists, decide_eq_true_eq] at h
  obtain ⟨_, -, -, _, -, hlimit, _, _, -, _, _, -, _, _, -, _, -, _, -, _, -, rfl⟩ := h
  exact ⟨rfl, hlimit⟩

/-- The compiled text refers to the parameters, and only to them, where the query has their
values. -/
theorem parameter_discipline {backend : CompilerBackend} {normalized : NormalizedLsq}
    {snapshot : SemanticSnapshot} {options : CompilerOptions} {compiled : CompiledQuery}
    (h : compileLsq backend normalized snapshot options = .ok compiled) :
    ∃ model validated statement lexemes,
      snapshot.findModel normalized.query = some model ∧
      validate backend.toHashBackend normalized snapshot options = .ok validated ∧
      validated.lower = .ok statement ∧ lex compiled.sql = some lexemes ∧
      ParameterDiscipline compiled.parameters (read none lexemes)
        (items statement.emitted.pieces)
        (intendedValues model normalized.query
          (normalized.query.limit.getD options.defaultLimit)) ∧
      normalized.query.limit.getD options.defaultLimit ≤ options.hardLimit := by
  obtain ⟨validated, statement, hvalid, hlower, hsql, hparameters, -, -⟩ := compileLsq_ok h
  obtain ⟨model, hmodel, hresolved⟩ := validate_ok hvalid
  obtain ⟨hlimit, hhard⟩ := validate_limit hvalid
  obtain ⟨hdated, hholes⟩ := lower_holes hresolved hlower
  have hhosted : Sql.Hosted statement.emitted.pieces := Sql.Query.hosted hdated.emitted
  refine ⟨model, validated, statement, lexemes statement.emitted.pieces [], hmodel, hvalid, hlower,
    ?_, ?_, ?_⟩
  · rw [hsql, lex_written]
  · rw [hparameters, ← hlimit, ← hholes]
    exact disciplined_of_hosted hhosted
  · rw [← hlimit]
    exact hhard

def ordersOfSkus : NormalizedLsq :=
  (ordersOfSku "a" 5).normalize standardHash (by decide)

theorem parameter_discipline_orders :
    ∃ compiled, compileLsq standardBackend ordersOfSkus lineBreakSnapshot {} = .ok compiled ∧
      ∃ model validated statement lexemes,
        lineBreakSnapshot.findModel ordersOfSkus.query = some model ∧
        validate standardBackend.toHashBackend ordersOfSkus lineBreakSnapshot {} = .ok validated ∧
        validated.lower = .ok statement ∧ lex compiled.sql = some lexemes ∧
        ParameterDiscipline compiled.parameters (read none lexemes)
          (items statement.emitted.pieces)
          (intendedValues model ordersOfSkus.query (ordersOfSkus.query.limit.getD 100)) ∧
        ordersOfSkus.query.limit.getD 100 ≤ 10000 := by
  have hlower : succeedsWith (validateAgainst ordersOfSkus lineBreakSnapshot {} >>=
      ValidatedQuery.lower) (fun _ => true) = true := by decide +kernel
  obtain ⟨statement, hstatement, -⟩ := exists_ok_of_succeedsWith hlower
  obtain ⟨compiled, hcompiled, -⟩ := compileLsq_standard lineBreakSnapshot_checked hstatement
  exact ⟨compiled, hcompiled, parameter_discipline hcompiled⟩

end Postgresem
