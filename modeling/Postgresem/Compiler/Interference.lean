import Postgresem.Compiler.Identifiers
import Postgresem.Sql.Erasure
import Mathlib.Tactic.IntervalCases

/-! Values never shape the text of a statement. Erasing the literals, the limit and the timezones
of the documents commutes with validation and with lowering, so two runs over documents that are
alike up to values write templates of one shape. -/
namespace Postgresem
open Control Template

/-! ## Documents without their values -/

mutual

def Filter.erase : Filter → Filter
  | .and args => .and (Filter.eraseEach args)
  | .or args => .or (Filter.eraseEach args)
  | .not arg => .not arg.erase
  | .comparison operator field value => .comparison operator field value.erase
  | .inList field values => .inList field (values.map Literal.erase)
  | .isNull field => .isNull field
  | .isNotNull field => .isNotNull field

def Filter.eraseEach : List Filter → List Filter
  | [] => []
  | filter :: rest => filter.erase :: Filter.eraseEach rest

end

/-- The limit is a value as well. -/
def LogicalSemanticQuery.erase (query : LogicalSemanticQuery) : LogicalSemanticQuery :=
  { query with filters := query.filters.map Filter.erase, limit := none }

def MetricFilter.erase (filter : MetricFilter) : MetricFilter :=
  { filter with value := filter.value.erase }

def Metric.erase (metric : Metric) : Metric :=
  { metric with filter := metric.filter.map MetricFilter.erase }

def Model.erase (model : Model) : Model :=
  { model with
    timezone := model.timezone.map fun _ => ""
    metrics := model.metrics.map Metric.erase }

/-- The revision hash of a snapshot depends on its values. -/
def SemanticSnapshot.erase (snapshot : SemanticSnapshot) : SemanticSnapshot :=
  { snapshot with revisionHash := "", models := snapshot.models.map Model.erase }

/-! ## What validation makes of them -/

def eraseCondition (filter : Field × Literal) : Field × Literal := (filter.1, filter.2.erase)

def ResolvedMetric.erase (metric : ResolvedMetric) : ResolvedMetric :=
  { metric with metric := metric.metric.erase, filter := metric.filter.map eraseCondition }

mutual

def ResolvedFilter.erase : ResolvedFilter → ResolvedFilter
  | .and args => .and (ResolvedFilter.eraseEach args)
  | .or args => .or (ResolvedFilter.eraseEach args)
  | .not arg => .not arg.erase
  | .comparison operator field value => .comparison operator field value.erase
  | .inList field values => .inList field (values.map Literal.erase)
  | .isNull field => .isNull field
  | .isNotNull field => .isNotNull field

def ResolvedFilter.eraseEach : List ResolvedFilter → List ResolvedFilter
  | [] => []
  | filter :: rest => filter.erase :: ResolvedFilter.eraseEach rest

end

def ValidatedQuery.erase (validated : ValidatedQuery) : ValidatedQuery :=
  { validated with
    model := validated.model.erase
    metrics := validated.metrics.map ResolvedMetric.erase
    filter := validated.filter.map ResolvedFilter.erase
    limit := 0 }

/-! ## Validation commutes with erasure -/

theorem validateLiteral_erase (field : Field) (value : Literal) :
    validateLiteral field value.erase = validateLiteral field value := by
  unfold validateLiteral
  congr 1
  cases field.dataType <;> cases value <;> rfl

theorem optionally_map {α α' β β' σ : Type} {f : α → σ → Except CompileError (β × σ)}
    {f' : α' → σ → Except CompileError (β' × σ)} {a : α → α'} {b : β → β'}
    (h : ∀ x s, f' (a x) s = (f x s).map fun r => (b r.1, r.2)) (x : Option α) (s : σ) :
    optionally f' (x.map a) s = (optionally f x s).map fun r => (r.1.map b, r.2) := by
  cases x with
  | none => rfl
  | some x => simp only [Option.map_some, optionally, h, map_map']

theorem resolveMetricFilter_erase (model : Model) (metric : Metric) (filter : MetricFilter)
    (relationships : List String) :
    resolveMetricFilter model.erase metric.erase filter.erase relationships =
      (resolveMetricFilter model metric filter relationships).map
        fun r => (eraseCondition r.1, r.2) := by
  unfold resolveMetricFilter
  simp only [bind_map]
  refine bind_congr fun field => ?_
  rw [MetricFilter.erase, validateLiteral_erase]
  exact bind_congr fun _ => rfl

theorem orError_map {ε α β : Type} (value : Option α) (f : α → β) (error : ε) :
    orError (value.map f) error = (orError value error).map f := by
  cases value <;> rfl

theorem resolveMetric_erase (schemaVersion : String) (model : Model) (reference : MetricReference)
    (relationships : List String) :
    resolveMetric schemaVersion model.erase reference relationships =
      (resolveMetric schemaVersion model reference relationships).map
        fun r => (r.1.erase, r.2) := by
  have hfind : model.erase.metrics.find? (fun metric => metric.semanticName == reference.metric) =
      (model.metrics.find? fun metric => metric.semanticName == reference.metric).map
        Metric.erase := List.find?_map
  unfold resolveMetric
  simp only [hfind, orError_map, map_bind, bind_map]
  refine bind_congr fun metric => ?_
  refine bind_congr fun _ => ?_
  refine bind_congr fun field => ?_
  refine bind_congr fun _ => ?_
  refine bind_congr fun _ => ?_
  refine bind_congr fun _ => ?_
  refine bind_congr fun _ => ?_
  -- the metric filter is where a value is read
  rw [show metric.erase.filter = metric.filter.map MetricFilter.erase from rfl,
    optionally_map (resolveMetricFilter_erase model metric), map_bind]
  refine bind_congr fun r => ?_
  refine bind_congr fun _ => ?_
  refine bind_congr fun _ => ?_
  exact bind_congr fun anchor => rfl

theorem visibleField_erase (model : Model) (name : String) :
    visibleField model.erase name = visibleField model name := rfl

theorem forEach_validateLiteral_erase (field : Field) (values : List Literal) :
    forEach (validateLiteral field) (values.map Literal.erase) =
      forEach (validateLiteral field) values := by
  induction values with
  | nil => rfl
  | cons value rest ih => simp only [List.map_cons, forEach, validateLiteral_erase, ih]

mutual

theorem resolveFilter_erase (model : Model) : ∀ (filter : Filter) (relationships : List String),
    resolveFilter model.erase filter.erase relationships =
      (resolveFilter model filter relationships).map fun r => (r.1.erase, r.2)
  | .and args, relationships | .or args, relationships => by
    simp only [Filter.erase, resolveFilter, resolveFilters_erase model args relationships,
      map_bind, bind_map]
    exact bind_congr fun r => rfl
  | .not arg, relationships => by
    simp only [Filter.erase, resolveFilter, resolveFilter_erase model arg relationships,
      map_bind, bind_map]
    exact bind_congr fun r => rfl
  | .comparison operator field value, relationships => by
    simp only [Filter.erase, resolveFilter, resolveComparison, visibleField_erase, bind_map,
      validateLiteral_erase]
    exact bind_congr fun resolved => bind_congr fun _ => rfl
  | .inList field values, relationships => by
    simp only [Filter.erase, resolveFilter, visibleField_erase, bind_map,
      forEach_validateLiteral_erase]
    exact bind_congr fun resolved => bind_congr fun _ => rfl
  | .isNull field, relationships | .isNotNull field, relationships => by
    simp only [Filter.erase, resolveFilter, visibleField_erase, bind_map]
    exact bind_congr fun resolved => rfl

theorem resolveFilters_erase (model : Model) :
    ∀ (filters : List Filter) (relationships : List String),
    resolveFilters model.erase (Filter.eraseEach filters) relationships =
      (resolveFilters model filters relationships).map
        fun r => (ResolvedFilter.eraseEach r.1, r.2)
  | [], relationships => rfl
  | filter :: rest, relationships => by
    simp only [Filter.eraseEach, resolveFilters, resolveFilter_erase model filter relationships,
      map_bind, bind_map]
    refine bind_congr fun r => ?_
    rw [resolveFilters_erase model rest r.2, map_bind]
    exact bind_congr fun s => rfl

end

theorem resolveRelationship_erase (models : List Model) (model : Model) (name : String) :
    resolveRelationship (models.map Model.erase) model.erase name =
      resolveRelationship models model name := by
  unfold resolveRelationship
  refine bind_congr fun relationship => ?_
  refine bind_congr fun _ => ?_
  have hfind : (models.map Model.erase).find? (fun target =>
      target.semanticName == relationship.targetModel) =
      (models.find? fun target => target.semanticName == relationship.targetModel).map
        Model.erase := List.find?_map
  rw [hfind, orError_map, map_bind]
  exact bind_congr fun _ => rfl

theorem commonAnchor_erase (metrics : List ResolvedMetric) (current : Option Field) :
    commonAnchor current (metrics.map ResolvedMetric.erase) = commonAnchor current metrics := by
  induction metrics generalizing current with
  | nil => rfl
  | cons metric rest ih =>
    have hjoined : (metric.erase.filter.any fun filter => filter.1.relationship.isSome) =
        metric.filter.any fun filter => filter.1.relationship.isSome := by
      cases hf : metric.filter <;> simp [ResolvedMetric.erase, eraseCondition, hf]
    simp only [List.map_cons, commonAnchor, hjoined, ih]
    rfl

theorem fanoutAnchor_erase (relationships : List (String × Relationship))
    (metrics : List ResolvedMetric) :
    fanoutAnchor relationships (metrics.map ResolvedMetric.erase) =
      fanoutAnchor relationships metrics := by
  unfold fanoutAnchor
  split
  · rw [List.isEmpty_map, commonAnchor_erase]
  · rfl

theorem resolveQuery_erase (schemaVersion : String) (models : List Model) (model : Model)
    (query : LogicalSemanticQuery) (limit : Nat) :
    resolveQuery schemaVersion (models.map Model.erase) model.erase query.erase 0 =
      (resolveQuery schemaVersion models model query limit).map ValidatedQuery.erase := by
  have hmetrics : ∀ required, mapAccumM (resolveMetric schemaVersion model.erase) query.metrics
      required = (mapAccumM (resolveMetric schemaVersion model) query.metrics required).map
        fun r => (r.1.map ResolvedMetric.erase, r.2) := by
    intro required
    have hmap := mapAccumM_map (a := id) (resolveMetric_erase schemaVersion model)
      query.metrics required
    rwa [List.map_id] at hmap
  unfold resolveQuery
  simp only [bind_map]
  refine bind_congr fun dimensions => ?_
  rw [show query.erase.metrics = query.metrics from rfl, hmetrics, map_bind]
  refine bind_congr fun metrics => ?_
  rw [show query.erase.filters = query.filters.map Filter.erase from rfl,
    optionally_map (resolveFilter_erase model), map_bind]
  refine bind_congr fun filter => ?_
  refine bind_congr fun _ => ?_
  rw [show resolveRelationship (models.map Model.erase) model.erase =
    resolveRelationship models model from funext (resolveRelationship_erase models model)]
  refine bind_congr fun relationships => ?_
  rw [fanoutAnchor_erase]
  exact bind_congr fun anchor => rfl

/-! ## Lowering commutes with erasure -/

theorem lowerDimension_erase (model : Model) (names : List String)
    (dimension : ResolvedDimension) :
    lowerDimension model.erase names dimension =
      (lowerDimension model names dimension).map Sql.Scalar.erase := by
  unfold lowerDimension
  split
  · split
    · rw [show model.erase.timezone = model.timezone.map fun _ => "" from rfl, orError_map, map_map',
        map_map']
      rfl
    · rfl
  · rfl

theorem lowerMetric_erase (names : List String) (metric : ResolvedMetric) :
    lowerMetric names metric.erase = (lowerMetric names metric).erase := by
  cases hf : metric.filter with
  | none => simp [lowerMetric, ResolvedMetric.erase, Metric.erase, Sql.Aggregate.erase, hf,
      lowerField, Sql.Scalar.erase]
  | some filter => simp [lowerMetric, ResolvedMetric.erase, Metric.erase, Sql.Aggregate.erase, hf,
      lowerField, Sql.Scalar.erase, lowerCondition, eraseCondition, Sql.Predicate.erase]

theorem lowerOperand_erase (model : Model) (field : Field) (value : Literal) :
    lowerOperand model.erase field value.erase =
      (lowerOperand model field value).map Sql.Scalar.erase := by
  have hzone : model.erase.timezone = model.timezone.map fun _ => "" := rfl
  unfold lowerOperand
  cases field.dataType <;> cases value <;> simp only [Literal.erase, hzone, orError_map, map_map'] <;>
    rfl

mutual

theorem lowerFilter_erase (model : Model) (names : List String) : ∀ filter : ResolvedFilter,
    lowerFilter model.erase names filter.erase =
      (lowerFilter model names filter).map Sql.Predicate.erase
  | .and args | .or args => by
    simp only [ResolvedFilter.erase, lowerFilter, lowerFilters_erase model names args, map_map',
      Sql.Predicate.erase]
  | .not arg => by
    simp only [ResolvedFilter.erase, lowerFilter, lowerFilter_erase model names arg, map_map',
      Sql.Predicate.erase]
  | .comparison operator field value => by
    simp only [ResolvedFilter.erase, lowerFilter, lowerOperand_erase, map_map',
      Sql.Predicate.erase, lowerField, Sql.Scalar.erase]
  | .inList field values => by
    simp only [ResolvedFilter.erase, lowerFilter, map_ok, Sql.Predicate.erase, lowerField,
      Sql.Scalar.erase, List.map_map, Function.comp_def]
  | .isNull field | .isNotNull field => rfl

theorem lowerFilters_erase (model : Model) (names : List String) :
    ∀ filters : List ResolvedFilter,
    lowerFilters model.erase names (ResolvedFilter.eraseEach filters) =
      (lowerFilters model names filters).map Sql.Predicate.eraseEach
  | [] => rfl
  | filter :: rest => by
    simp only [ResolvedFilter.eraseEach, lowerFilters, lowerFilter_erase model names filter,
      lowerFilters_erase model names rest, map_bind, bind_map]
    exact bind_congr fun lowered => bind_congr fun others => rfl

end

theorem lowerOptionalFilter_erase (model : Model) (names : List String)
    (filter : Option ResolvedFilter) :
    lowerOptionalFilter model.erase names (filter.map ResolvedFilter.erase) =
      (lowerOptionalFilter model names filter).map (Option.map Sql.Predicate.erase) := by
  cases filter with
  | none => rfl
  | some filter =>
    simp only [Option.map_some, lowerOptionalFilter, lowerFilter_erase, map_map']

theorem lowerDimensions_erase (validated : ValidatedQuery) :
    validated.erase.lowerDimensions =
      validated.lowerDimensions.map (List.map fun item => (item.1.erase, item.2)) := by
  simp only [ValidatedQuery.lowerDimensions, ← mapM_map, map_map']
  simp only [ValidatedQuery.erase, ValidatedQuery.names, lowerDimension_erase, map_map']

theorem lower_erase (validated : ValidatedQuery) :
    validated.erase.lower = validated.lower.map Sql.Query.erase := by
  have hmetrics : validated.erase.lowerMetrics =
      validated.lowerMetrics.map fun item => (item.1.erase, item.2) := by
    simp only [ValidatedQuery.lowerMetrics, ValidatedQuery.erase, ValidatedQuery.names,
      List.map_map, Function.comp_def, lowerMetric_erase]
    rfl
  unfold ValidatedQuery.lower
  rw [lowerDimensions_erase, map_bind, bind_map]
  refine bind_congr fun dimensions => ?_
  rw [show lowerOptionalFilter validated.erase.model validated.erase.names validated.erase.filter =
    (lowerOptionalFilter validated.model validated.names validated.filter).map
      (Option.map Sql.Predicate.erase) from lowerOptionalFilter_erase _ _ _, map_bind, bind_map,
    hmetrics]
  refine bind_congr fun filter => ?_
  cases ha : validated.aggregationAnchor <;>
    simp [ValidatedQuery.erase, Sql.Query.erase, Sql.Body.erase, ha, pure_ok, ValidatedQuery.tables,
      lowerTables, Model.erase, lowerField, Sql.Scalar.erase, ValidatedQuery.names]

/-! ## Two runs -/

theorem findModel_erase (snapshot : SemanticSnapshot) (query : LogicalSemanticQuery) :
    snapshot.erase.findModel query.erase = (snapshot.findModel query).map Model.erase :=
  List.find?_map

/-- What validation and lowering make of the erased documents. -/
def lowerErased (snapshot : SemanticSnapshot) (query : LogicalSemanticQuery) :
    Except CompileError Sql.Query := do
  let model ← orError (snapshot.erase.findModel query.erase) .unknownModel
  let validated ← resolveQuery snapshot.erase.schemaVersion snapshot.erase.models model
    query.erase 0
  validated.lower

theorem lowerErased_eq {backend : HashBackend} {normalized : NormalizedLsq}
    {snapshot : SemanticSnapshot} {options : CompilerOptions} {validated : ValidatedQuery}
    {statement : Sql.Query}
    (hvalid : validate backend normalized snapshot options = .ok validated)
    (hlower : validated.lower = .ok statement) :
    lowerErased snapshot normalized.query = .ok statement.erase := by
  simp only [validate, validateAgainst, bind_eq_ok, ensure_eq_ok, orError_eq_ok] at hvalid
  obtain ⟨_, -, _, -, model, hmodel, _, -, hresolve⟩ := hvalid
  have hfound : snapshot.erase.findModel normalized.query.erase = some model.erase := by
    rw [findModel_erase]
    exact congrArg (Option.map Model.erase) hmodel
  have hresolved : resolveQuery snapshot.erase.schemaVersion snapshot.erase.models model.erase
      normalized.query.erase 0 = .ok validated.erase := by
    have hcommute := resolveQuery_erase snapshot.schemaVersion snapshot.models model
      normalized.query (normalized.query.limit.getD options.defaultLimit)
    rw [hresolve] at hcommute
    exact hcommute
  rw [lowerErased, hfound, orError_some, ok_bind, hresolved, ok_bind, lower_erase, hlower]
  rfl

/-- The pairs that the renderer pushes as parameters, in order and with repetitions. -/
def pushed (statement : Sql.Query) : List Sql.Param := holes statement.emitted.pieces

/-- The list that a sequence of pushes leaves: each pair once, at its first occurrence. -/
def poolOf (pushes : List Sql.Param) : List Sql.Param :=
  pushes.foldl (fun pool value => (allocate pool value).2) []

theorem parameters_eq (statement : Sql.Query) :
    (written statement).2.parameters = numberParameters (poolOf (pushed statement)) := by
  rw [poolOf, pushed, ← assemble_pool]
  rfl

/-- Two compilations of documents that agree up to values give one text, unless the values
themselves are equal at different positions; the values are in the parameter list. -/
theorem values_never_shape_sql {backend : CompilerBackend} {first second : NormalizedLsq}
    {snapshot snapshot' : SemanticSnapshot} {options options' : CompilerOptions}
    {compiled compiled' : CompiledQuery}
    (hquery : first.query.erase = second.query.erase) (hsnapshot : snapshot.erase = snapshot'.erase)
    (h : compileLsq backend first snapshot options = .ok compiled)
    (h' : compileLsq backend second snapshot' options' = .ok compiled') :
    ∃ statement statement',
      (validate backend.toHashBackend first snapshot options >>= ValidatedQuery.lower) =
        .ok statement ∧
      (validate backend.toHashBackend second snapshot' options' >>= ValidatedQuery.lower) =
        .ok statement' ∧
      compiled.parameters = numberParameters (poolOf (pushed statement)) ∧
      compiled'.parameters = numberParameters (poolOf (pushed statement')) ∧
      (SamePattern (pushed statement) (pushed statement') →
        compiled.sql = compiled'.sql ∧ compiled.sqlHash = compiled'.sqlHash) := by
  obtain ⟨validated, statement, hvalid, hlower, hsql, hparameters, -, hhash⟩ := compileLsq_ok h
  obtain ⟨validated', statement', hvalid', hlower', hsql', hparameters', -, hhash'⟩ :=
    compileLsq_ok h'
  refine ⟨statement, statement', ?_, ?_, ?_, ?_, ?_⟩
  · rw [hvalid, ok_bind, hlower]
  · rw [hvalid', ok_bind, hlower']
  · rw [hparameters, parameters_eq]
  · rw [hparameters', parameters_eq]
  · intro hpattern
    have herased : statement.erase = statement'.erase := by
      have hfirst := lowerErased_eq hvalid hlower
      have hsecond := lowerErased_eq hvalid' hlower'
      rw [lowerErased, hquery, hsnapshot, ← lowerErased, hsecond] at hfirst
      exact (Except.ok.inj hfirst).symm
    have htext : compiled.sql = compiled'.sql := by
      rw [hsql, hsql']
      exact assemble_eq_of_samePattern (Sql.Query.shape_emitted_of_erase herased) hpattern
    exact ⟨htext, by rw [hhash, hhash', htext]⟩

def ordersOfSku (sku : String) (limit : Nat) : LogicalSemanticQuery :=
  { model := "orders", metrics := [{ metric := "orders" }],
    filters := some (.or [.eq "sku" (.text sku), .eq "sku" (.text "c")]), limit := some limit }

theorem values_never_shape_orders :
    ∃ first second compiled compiled', first.query = ordersOfSku "a" 5 ∧
      second.query = ordersOfSku "b'); --" 7 ∧
      compileLsq standardBackend first lineBreakSnapshot {} = .ok compiled ∧
      compileLsq standardBackend second lineBreakSnapshot {} = .ok compiled' ∧
      compiled.sql = compiled'.sql ∧ compiled.sqlHash = compiled'.sqlHash := by
  let first := (ordersOfSku "a" 5).normalize standardHash (by decide)
  let second := (ordersOfSku "b'); --" 7).normalize standardHash (by decide)
  have herased : first.query.erase = second.query.erase := rfl
  have hfirst : succeedsWith (validateAgainst first lineBreakSnapshot {} >>=
      ValidatedQuery.lower) (fun statement => decide (pushed statement =
        [(.text, .text "a"), (.text, .text "c"), (.integer, .integer 5)])) = true := by
    decide +kernel
  have hsecond : succeedsWith (validateAgainst second lineBreakSnapshot {} >>=
      ValidatedQuery.lower) (fun statement => decide (pushed statement =
        [(.text, .text "b'); --"), (.text, .text "c"), (.integer, .integer 7)])) = true := by
    decide +kernel
  obtain ⟨statement, hstatement, hpushed⟩ := exists_ok_of_succeedsWith hfirst
  obtain ⟨statement', hstatement', hpushed'⟩ := exists_ok_of_succeedsWith hsecond
  obtain ⟨compiled, hcompiled, -⟩ := compileLsq_standard lineBreakSnapshot_checked hstatement
  obtain ⟨compiled', hcompiled', -⟩ := compileLsq_standard lineBreakSnapshot_checked hstatement'
  obtain ⟨read, read', hread, hread', -, -, hsame⟩ :=
    values_never_shape_sql herased rfl hcompiled hcompiled'
  have hvalidate := fun normalized => validate_of_checkSnapshot lineBreakSnapshot_checked normalized {}
  rw [show standardBackend.toHashBackend = standardHash from rfl, hvalidate, hstatement,
    Except.ok.injEq] at hread
  rw [show standardBackend.toHashBackend = standardHash from rfl, hvalidate, hstatement',
    Except.ok.injEq] at hread'
  have hpattern : SamePattern (pushed read) (pushed read') := by
    rw [← hread, ← hread', of_decide_eq_true hpushed, of_decide_eq_true hpushed']
    intro i j hi hj
    simp only [List.length_cons, List.length_nil] at hi hj
    interval_cases i <;> interval_cases j <;> decide
  exact ⟨first, second, compiled, compiled', rfl, rfl, hcompiled, hcompiled', hsame hpattern⟩

end Postgresem
