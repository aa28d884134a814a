import Postgresem.Compiler.Requirement
import Postgresem.Compiler.Validate

/-! What a successful validation guarantees about the resolved query. -/
namespace Postgresem
open Control

mutual

/-- The fields of a filter in the order they are recorded. -/
def ResolvedFilter.fields : ResolvedFilter → List Field
  | .and args | .or args => ResolvedFilter.fieldsEach args
  | .not arg => arg.fields
  | .comparison _ field _ | .inList field _ | .isNull field | .isNotNull field => [field]

def ResolvedFilter.fieldsEach : List ResolvedFilter → List Field
  | [] => []
  | filter :: rest => filter.fields ++ ResolvedFilter.fieldsEach rest

end

mutual

/-- The filter with its field names looked up, when all of them exist. -/
def Filter.resolved (model : Model) : Filter → Option ResolvedFilter
  | .and args => (Filter.resolvedEach model args).map .and
  | .or args => (Filter.resolvedEach model args).map .or
  | .not arg => (arg.resolved model).map .not
  | .comparison operator field value =>
    (model.findField field).map fun found => .comparison operator found value
  | .inList field values => (model.findField field).map fun found => .inList found values
  | .isNull field => (model.findField field).map .isNull
  | .isNotNull field => (model.findField field).map .isNotNull

def Filter.resolvedEach (model : Model) : List Filter → Option (List ResolvedFilter)
  | [] => some []
  | filter :: rest => do
      let resolved ← filter.resolved model
      let others ← Filter.resolvedEach model rest
      pure (resolved :: others)

end

def recordAll (fields : List Field) (relationships : List String) : List String :=
  fields.foldl (fun names field => recordRelationship field names) relationships

@[simp] theorem recordAll_nil (names : List String) : recordAll [] names = names := rfl

@[simp] theorem recordAll_cons (field : Field) (fields : List Field) (names : List String) :
    recordAll (field :: fields) names = recordAll fields (recordRelationship field names) := rfl

theorem recordAll_append (xs ys : List Field) (names : List String) :
    recordAll (xs ++ ys) names = recordAll ys (recordAll xs names) := by
  simp [recordAll, List.foldl_append]

theorem mem_recordRelationship {field : Field} {names : List String} {name : String} :
    name ∈ recordRelationship field names ↔ field.relationship = some name ∨ name ∈ names := by
  unfold recordRelationship
  cases h : field.relationship with
  | none => simp
  | some relationship => simp [eq_comm]

theorem sorted_recordRelationship (field : Field) {names : List String}
    (h : OrderedSet.Sorted names) : OrderedSet.Sorted (recordRelationship field names) := by
  unfold recordRelationship
  split
  · exact OrderedSet.sorted_insert _ h
  · exact h

theorem mem_recordAll {fields : List Field} {names : List String} {name : String} :
    name ∈ recordAll fields names ↔
      (∃ field ∈ fields, field.relationship = some name) ∨ name ∈ names := by
  induction fields generalizing names with
  | nil => simp
  | cons field fields ih =>
    rw [recordAll_cons, ih, mem_recordRelationship]
    simp only [List.mem_cons, exists_eq_or_imp]
    rw [← or_assoc, or_comm (a := ∃ field, _)]

theorem sorted_recordAll (fields : List Field) {names : List String}
    (h : OrderedSet.Sorted names) : OrderedSet.Sorted (recordAll fields names) := by
  induction fields generalizing names with
  | nil => exact h
  | cons field fields ih => exact ih (sorted_recordRelationship field h)

theorem findField_some {model : Model} {name : String} {field : Field}
    (h : model.findField name = some field) :
    field ∈ model.fields ∧ field.semanticName = name :=
  ⟨List.mem_of_find?_eq_some h, by simpa using List.find?_some h⟩

theorem findMetric_name {model : Model} {name : String} {metric : Metric}
    (h : model.findMetric name = some metric) : metric.semanticName = name := by
  simpa using List.find?_some h

theorem resolveField_ok {model : Model} {name : String} {field : Field} :
    resolveField model name = .ok field ↔ model.findField name = some field := orError_eq_ok

structure DimensionResolved (model : Model) (dimension : Dimension)
    (resolved : ResolvedDimension) : Prop where
  found : model.findField dimension.field = some resolved.field
  visible : resolved.field.visible = true
  grain : resolved.timeGrain = dimension.timeGrain
  temporal : resolved.timeGrain.isSome = true → isTemporal resolved.field.dataType = true

theorem resolveDimension_ok {model : Model} {dimension : Dimension} {names names' : List String}
    {resolved : ResolvedDimension}
    (h : resolveDimension model dimension names = .ok (resolved, names')) :
    DimensionResolved model dimension resolved ∧
      names' = recordRelationship resolved.field names := by
  simp only [resolveDimension, bind_eq_ok, ensure_eq_ok, exists_const, pure_eq_ok, Prod.mk.injEq] at h
  obtain ⟨field, hf, hv, hg, rfl, rfl⟩ := h
  refine ⟨⟨resolveField_ok.mp hf, hv, rfl, ?_⟩, rfl⟩
  intro hs
  simp only [Option.isSome_iff_ne_none] at hs
  simp only [Bool.or_eq_true, Option.isNone_iff_eq_none, Bool.and_eq_true] at hg
  exact (hg.resolve_left hs).2

/-- The filter of a metric, with its field resolved and its literal checked. -/
inductive FilterResolved (model : Model) : Option MetricFilter → Option (Field × Literal) → Prop
  | absent : FilterResolved model none none
  | present {filter : MetricFilter} {field : Field} (found : model.findField filter.field = some field)
      (typed : literalCompatible field.dataType filter.value = true) :
      FilterResolved model (some filter) (some (field, filter.value))

structure MetricResolved (model : Model) (reference : MetricReference)
    (resolved : ResolvedMetric) : Prop where
  found : model.findMetric reference.metric = some resolved.metric
  field_found : model.findField resolved.metric.field = some resolved.field
  direct : resolved.field.relationship = none
  filter : FilterResolved model resolved.metric.filter resolved.filter
  anchor : ∀ field, resolved.aggregationAnchor = some field →
    resolved.metric.aggregationAnchor.bind model.findField = some field ∧
      field.relationship = none ∧ field.entityKey = true

/-- The fields of a metric in the order they are recorded. -/
def ResolvedMetric.fields (resolved : ResolvedMetric) : List Field :=
  resolved.field :: (resolved.filter.map Prod.fst).toList

theorem resolveMetricFilter_ok {model : Model} {metric : Metric} {filter : MetricFilter}
    {names names' : List String} {entry : Field × Literal}
    (h : resolveMetricFilter model metric filter names = .ok (entry, names')) :
    FilterResolved model (some filter) (some entry) ∧
      names' = recordRelationship entry.1 names := by
  simp only [resolveMetricFilter, validateLiteral, bind_eq_ok, ensure_eq_ok, exists_const, mapError_eq_ok,
    pure_eq_ok, Prod.mk.injEq] at h
  obtain ⟨field, hf, hl, rfl, rfl⟩ := h
  exact ⟨.present (resolveField_ok.mp hf) hl, rfl⟩

theorem resolveMetricAnchor_ok {model : Model} {metric : Metric} {anchor : String} {field : Field}
    (h : resolveMetricAnchor model metric anchor = .ok field) :
    model.findField anchor = some field ∧ field.relationship = none ∧ field.entityKey = true := by
  simp only [resolveMetricAnchor, bind_eq_ok, ensure_eq_ok, exists_const, mapError_eq_ok, pure_eq_ok] at h
  obtain ⟨found, hf, hk, rfl⟩ := h
  simp only [Bool.and_eq_true, Option.isNone_iff_eq_none] at hk
  exact ⟨resolveField_ok.mp hf, hk⟩

theorem optionally_ok {α β σ : Type} {f : α → σ → Except CompileError (β × σ)} {input : Option α}
    {output : Option β} {s s' : σ} (h : optionally f input s = .ok (output, s')) :
    (input = none ∧ output = none ∧ s' = s) ∨
      ∃ a b, input = some a ∧ output = some b ∧ f a s = .ok (b, s') := by
  cases input with
  | none =>
    simp only [optionally, Except.ok.injEq, Prod.mk.injEq] at h
    exact Or.inl ⟨rfl, h.1.symm, h.2.symm⟩
  | some a =>
    simp only [optionally] at h
    cases hf : f a s with
    | error e => simp [hf, Except.map] at h
    | ok r =>
      simp only [hf, Except.map, Except.ok.injEq, Prod.mk.injEq] at h
      exact Or.inr ⟨a, r.1, rfl, h.1.symm, by rw [← h.2, hf]⟩

theorem resolveMetric_ok {schemaVersion : String} {model : Model} {reference : MetricReference}
    {names names' : List String} {resolved : ResolvedMetric}
    (h : resolveMetric schemaVersion model reference names = .ok (resolved, names')) :
    MetricResolved model reference resolved ∧ names' = recordAll resolved.fields names := by
  simp only [resolveMetric, bind_eq_ok, ensure_eq_ok, exists_const, mapError_eq_ok, orError_eq_ok,
    pure_eq_ok, Prod.exists, Prod.mk.injEq] at h
  obtain ⟨metric, hmetric, -, field, hfield, hdirect, -, -, -, filter, names₁, hfilter, -, -,
    anchor, hanchor, rfl, rfl⟩ := h
  rw [Option.isNone_iff_eq_none] at hdirect
  have hanchor' : ∀ a, anchor = some a → metric.aggregationAnchor.bind model.findField = some a ∧
      a.relationship = none ∧ a.entityKey = true := by
    rintro a rfl
    cases hopt : metric.aggregationAnchor with
    | none => simp [hopt, pure, Except.pure] at hanchor
    | some name =>
      rw [hopt, Option.mapM_some] at hanchor
      simp only [Functor.map, Except.map] at hanchor
      split at hanchor
      · cases hanchor
      · rename_i found hfound
        simp only [Except.ok.injEq, Option.some.injEq] at hanchor
        subst hanchor
        exact resolveMetricAnchor_ok hfound
  have hfound := resolveField_ok.mp hfield
  rcases optionally_ok hfilter with ⟨hnone, rfl, rfl⟩ | ⟨input, entry, hsome, rfl, hentry⟩
  · refine ⟨⟨hmetric, hfound, hdirect, ?_, hanchor'⟩, ?_⟩
    · rw [hnone]
      exact .absent
    · simp [ResolvedMetric.fields]
  · obtain ⟨hresolved, rfl⟩ := resolveMetricFilter_ok hentry
    refine ⟨⟨hmetric, hfound, hdirect, ?_, hanchor'⟩, ?_⟩
    · rw [hsome]
      exact hresolved
    · simp [ResolvedMetric.fields]

theorem visibleField_ok {model : Model} {name : String} {field : Field}
    (h : visibleField model name = .ok field) :
    model.findField name = some field ∧ field.visible = true := by
  simp only [visibleField, bind_eq_ok, ensure_eq_ok, exists_const, pure_eq_ok] at h
  obtain ⟨found, hf, hv, rfl⟩ := h
  exact ⟨resolveField_ok.mp hf, hv⟩

mutual

theorem resolveFilter_ok (model : Model) : ∀ (filter : Filter) {names names' : List String}
    {resolved : ResolvedFilter}, resolveFilter model filter names = .ok (resolved, names') →
    resolved.fields = filter.fieldNames.filterMap model.findField ∧
      filter.resolved model = some resolved ∧ names' = recordAll resolved.fields names
  | .and args, names, names', resolved, h => by
    simp only [resolveFilter, bind_eq_ok, pure_eq_ok, Prod.exists, Prod.mk.injEq] at h
    obtain ⟨args', names₁, hargs, rfl, rfl⟩ := h
    obtain ⟨hfields, hresolved, rfl⟩ := resolveFilters_ok model args hargs
    exact ⟨hfields, by rw [Filter.resolved, hresolved]; rfl, rfl⟩
  | .or args, names, names', resolved, h => by
    simp only [resolveFilter, bind_eq_ok, pure_eq_ok, Prod.exists, Prod.mk.injEq] at h
    obtain ⟨args', names₁, hargs, rfl, rfl⟩ := h
    obtain ⟨hfields, hresolved, rfl⟩ := resolveFilters_ok model args hargs
    exact ⟨hfields, by rw [Filter.resolved, hresolved]; rfl, rfl⟩
  | .not arg, names, names', resolved, h => by
    simp only [resolveFilter, bind_eq_ok, pure_eq_ok, Prod.exists, Prod.mk.injEq] at h
    obtain ⟨arg', names₁, harg, rfl, rfl⟩ := h
    obtain ⟨hfields, hresolved, rfl⟩ := resolveFilter_ok model arg harg
    refine ⟨?_, by rw [Filter.resolved, hresolved]; rfl, ?_⟩
    · rw [ResolvedFilter.fields, Filter.fieldNames, hfields]
    · rw [ResolvedFilter.fields]
  | .comparison operator field value, names, names', resolved, h => by
    simp only [resolveFilter, resolveComparison, bind_eq_ok, pure_eq_ok, Prod.mk.injEq] at h
    obtain ⟨found, hf, -, -, rfl, rfl⟩ := h
    simp [ResolvedFilter.fields, Filter.fieldNames, Filter.resolved, (visibleField_ok hf).1]
  | .inList field values, names, names', resolved, h => by
    simp only [resolveFilter, bind_eq_ok, pure_eq_ok, Prod.mk.injEq] at h
    obtain ⟨found, hf, -, -, rfl, rfl⟩ := h
    simp [ResolvedFilter.fields, Filter.fieldNames, Filter.resolved, (visibleField_ok hf).1]
  | .isNull field, names, names', resolved, h => by
    simp only [resolveFilter, bind_eq_ok, pure_eq_ok, Prod.mk.injEq] at h
    obtain ⟨found, hf, rfl, rfl⟩ := h
    simp [ResolvedFilter.fields, Filter.fieldNames, Filter.resolved, (visibleField_ok hf).1]
  | .isNotNull field, names, names', resolved, h => by
    simp only [resolveFilter, bind_eq_ok, pure_eq_ok, Prod.mk.injEq] at h
    obtain ⟨found, hf, rfl, rfl⟩ := h
    simp [ResolvedFilter.fields, Filter.fieldNames, Filter.resolved, (visibleField_ok hf).1]

theorem resolveFilters_ok (model : Model) : ∀ (filters : List Filter) {names names' : List String}
    {resolved : List ResolvedFilter},
    resolveFilters model filters names = .ok (resolved, names') →
    ResolvedFilter.fieldsEach resolved =
        (Filter.fieldNamesEach filters).filterMap model.findField ∧
      Filter.resolvedEach model filters = some resolved ∧
      names' = recordAll (ResolvedFilter.fieldsEach resolved) names
  | [], names, names', resolved, h => by
    simp only [resolveFilters, Except.ok.injEq, Prod.mk.injEq] at h
    obtain ⟨rfl, rfl⟩ := h
    simp [ResolvedFilter.fieldsEach, Filter.resolvedEach, Filter.fieldNamesEach]
  | filter :: rest, names, names', resolved, h => by
    simp only [resolveFilters, bind_eq_ok, pure_eq_ok, Prod.exists, Prod.mk.injEq] at h
    obtain ⟨filter', names₁, hfilter, rest', names₂, hrest, rfl, rfl⟩ := h
    obtain ⟨hm, hr, rfl⟩ := resolveFilter_ok model filter hfilter
    obtain ⟨hms, hrs, rfl⟩ := resolveFilters_ok model rest hrest
    refine ⟨?_, ?_, ?_⟩
    · rw [ResolvedFilter.fieldsEach, Filter.fieldNamesEach, List.filterMap_append, hm, hms]
    · rw [Filter.resolvedEach, hr, hrs]
      rfl
    · rw [ResolvedFilter.fieldsEach, recordAll_append]

end

/-! ## Relationships and the anchor -/

structure RelationshipResolved (models : List Model) (model : Model)
    (entry : String × Relationship) : Prop where
  found : model.relationships.find? (fun relationship => relationship.semanticName == entry.1) =
    some entry.2
  safe : entry.2.cardinality ≠ .manyToMany
  target : ∃ target, models.find? (fun target => target.semanticName == entry.2.targetModel) =
    some target ∧ target.source = entry.2.target

theorem RelationshipResolved.name {models : List Model} {model : Model}
    {entry : String × Relationship} (h : RelationshipResolved models model entry) :
    entry.2.semanticName = entry.1 := by
  have hf := List.find?_some h.found
  simpa using hf

theorem resolveRelationship_ok {models : List Model} {model : Model} {name : String}
    {entry : String × Relationship} (h : resolveRelationship models model name = .ok entry) :
    entry.1 = name ∧ RelationshipResolved models model entry := by
  simp only [resolveRelationship, bind_eq_ok, ensure_eq_ok, exists_const, orError_eq_ok] at h
  obtain ⟨relationship, hfound, hsafe, target, htarget, hsource, hkeys⟩ := h
  have hentry : (relationship.semanticName, relationship) = entry := by
    cases hc : relationship.cardinality <;>
      simp only [hc, bind_eq_ok, ensure_eq_ok, exists_const, pure_eq_ok, reduceCtorEq,
        false_and] at hkeys
    all_goals exact hkeys.2
  subst hentry
  have hname : relationship.semanticName = name := by simpa using List.find?_some hfound
  refine ⟨hname, ?_, ?_, target, htarget, ?_⟩
  · rw [hname]
    exact hfound
  · simpa using hsafe
  · simpa using hsource

/-- What the loop over the metrics of a fan-out query establishes. -/
structure AnchoredMetric (anchor : Field) (metric : ResolvedMetric) : Prop where
  anchored : ∃ own, metric.aggregationAnchor = some own ∧ own.semanticName = anchor.semanticName
  directFilter : ∀ entry, metric.filter = some entry → entry.1.relationship = none

theorem commonAnchor_ok {current : Option Field} {metrics : List ResolvedMetric}
    {result : Option Field} (h : commonAnchor current metrics = .ok result) :
    (metrics = [] ∧ result = current) ∨
      ∃ anchor, result = some anchor ∧
        (∀ field, current = some field → field.semanticName = anchor.semanticName) ∧
        (∃ metric ∈ metrics, metric.aggregationAnchor = some anchor) ∧
        ∀ metric ∈ metrics, AnchoredMetric anchor metric := by
  induction metrics generalizing current with
  | nil =>
    simp only [commonAnchor, Except.ok.injEq] at h
    exact Or.inl ⟨rfl, h.symm⟩
  | cons metric rest ih =>
    simp only [commonAnchor, bind_eq_ok, ensure_eq_ok, exists_const, orError_eq_ok] at h
    obtain ⟨own, hown, hfilter, -, hmixed, hrest⟩ := h
    have hdirect : ∀ entry, metric.filter = some entry → entry.1.relationship = none := by
      intro entry he
      simpa [he] using hfilter
    have hcurrent : ∀ field, current = some field → field.semanticName = own.semanticName := by
      intro field he
      simpa [he] using hmixed
    refine Or.inr ?_
    rcases ih hrest with ⟨rfl, rfl⟩ | ⟨anchor, rfl, hsame, ⟨last, hlast, hanchor⟩, hall⟩
    · refine ⟨own, rfl, hcurrent, ⟨metric, by simp, hown⟩, ?_⟩
      intro other ho
      rw [List.mem_singleton] at ho
      subst ho
      exact ⟨⟨own, hown, rfl⟩, hdirect⟩
    · have hs : own.semanticName = anchor.semanticName := hsame own rfl
      refine ⟨anchor, rfl, ?_, ⟨last, by simp [hlast], hanchor⟩, ?_⟩
      · intro field he
        rw [hcurrent field he, hs]
      · intro other ho
        rcases List.mem_cons.mp ho with rfl | ho
        · exact ⟨⟨own, hown, hs⟩, hdirect⟩
        · exact hall other ho

theorem fanoutAnchor_ok {relationships : List (String × Relationship)}
    {metrics : List ResolvedMetric} {result : Option Field}
    (h : fanoutAnchor relationships metrics = .ok result) :
    (result = none ∧ ∀ entry ∈ relationships, entry.2.cardinality ≠ .oneToMany) ∨
      ∃ anchor, result = some anchor ∧ metrics ≠ [] ∧
        (∃ entry ∈ relationships, entry.2.cardinality = .oneToMany) ∧
        (∃ metric ∈ metrics, metric.aggregationAnchor = some anchor) ∧
        ∀ metric ∈ metrics, AnchoredMetric anchor metric := by
  unfold fanoutAnchor at h
  split at h
  next entry hentry =>
    simp only [bind_eq_ok, ensure_eq_ok, exists_const] at h
    have hne : metrics ≠ [] := by simpa using h.1
    have hmany : entry.2.cardinality = .oneToMany := by simpa using List.find?_some hentry
    rcases commonAnchor_ok h.2 with ⟨hnil, -⟩ | ⟨anchor, hresult, -, hlast, hall⟩
    · exact absurd hnil hne
    · exact Or.inr ⟨anchor, hresult, hne, ⟨entry, List.mem_of_find?_eq_some hentry, hmany⟩,
        hlast, hall⟩
  next hnone =>
    simp only [Except.ok.injEq] at h
    refine Or.inl ⟨h.symm, ?_⟩
    intro entry he
    have hn := List.find?_eq_none.mp hnone entry he
    simpa using hn

/-! ## The validated query -/

def filterFields (filter : Option ResolvedFilter) : List Field :=
  match filter with
  | some filter => filter.fields
  | none => []

/-- Every field that `validate` records a relationship for, in order. -/
def ValidatedQuery.fields (validated : ValidatedQuery) : List Field :=
  validated.dimensions.map ResolvedDimension.field
    ++ validated.metrics.flatMap ResolvedMetric.fields ++ filterFields validated.filter

def ValidatedQuery.names (validated : ValidatedQuery) : List String :=
  validated.relationships.map Prod.fst

structure QueryResolved (models : List Model) (model : Model) (query : LogicalSemanticQuery)
    (validated : ValidatedQuery) : Prop where
  model_eq : validated.model = model
  dimensions : List.Forall₂ (DimensionResolved model) query.dimensions validated.dimensions
  metrics : List.Forall₂ (MetricResolved model) query.metrics validated.metrics
  filter : query.filters.bind (Filter.resolved model) = validated.filter ∧
    (query.filters.isSome = validated.filter.isSome)
  fields_eq : validated.fields = requiredFields model query
  filter_eq : filterFields validated.filter = filterFieldsOf model query
  orderBy : validated.orderBy = query.orderBy
  ordered : ∀ order ∈ query.orderBy, order.outputReference ∈ query.references
  names : validated.relationships.map Prod.fst = recordAll validated.fields []
  relationships : ∀ entry ∈ validated.relationships, RelationshipResolved models model entry
  anchor : fanoutAnchor validated.relationships validated.metrics =
    .ok validated.aggregationAnchor

theorem MetricResolved.fields_eq {model : Model} {reference : MetricReference}
    {resolved : ResolvedMetric} (h : MetricResolved model reference resolved) :
    resolved.fields = resolved.metric.fieldNames.filterMap model.findField := by
  have hfilter := h.filter
  unfold ResolvedMetric.fields Metric.fieldNames
  rw [List.filterMap_cons_some h.field_found]
  generalize resolved.metric.filter = filter at hfilter
  generalize resolved.filter = entry at hfilter
  cases hfilter with
  | absent => rfl
  | present found _ => simp [found]

theorem resolveOptionalFilter_ok {model : Model} {query : LogicalSemanticQuery}
    {resolved : Option ResolvedFilter} {names names' : List String}
    (h : optionally (resolveFilter model) query.filters names = .ok (resolved, names')) :
    (query.filters.bind (Filter.resolved model) = resolved ∧
        query.filters.isSome = resolved.isSome) ∧
      filterFields resolved = filterFieldsOf model query ∧
      names' = recordAll (filterFields resolved) names := by
  rcases optionally_ok h with ⟨hnone, rfl, rfl⟩ | ⟨f, r, hsome, rfl, hr⟩
  · simp [filterFields, filterFieldsOf, LogicalSemanticQuery.filterNames, hnone]
  · obtain ⟨hfields, hresolved, hnames⟩ := resolveFilter_ok model f hr
    refine ⟨?_, ?_, hnames⟩
    · rw [hsome]
      exact ⟨hresolved, rfl⟩
    · rw [filterFieldsOf, LogicalSemanticQuery.filterNames, hsome]
      exact hfields

theorem dimensions_eq {model : Model} {inputs : List Dimension} {outputs : List ResolvedDimension}
    (h : List.Forall₂ (DimensionResolved model) inputs outputs) :
    outputs.map ResolvedDimension.field =
      (inputs.map Dimension.field).filterMap model.findField := by
  induction h with
  | nil => rfl
  | cons hx _ ih => rw [List.map_cons, List.map_cons, List.filterMap_cons_some hx.found, ih]

theorem metrics_eq {model : Model} {inputs : List MetricReference} {outputs : List ResolvedMetric}
    (h : List.Forall₂ (MetricResolved model) inputs outputs) :
    outputs.flatMap ResolvedMetric.fields =
      ((inputs.map MetricReference.metric).filterMap model.findMetric).flatMap
        fun metric => metric.fieldNames.filterMap model.findField := by
  induction h with
  | nil => rfl
  | cons hx _ ih =>
    rw [List.flatMap_cons, List.map_cons, List.filterMap_cons_some hx.found, List.flatMap_cons,
      ih, hx.fields_eq]

theorem recordAll_flatMap (metrics : List ResolvedMetric) (names : List String) :
    metrics.foldl (fun names metric => recordAll metric.fields names) names =
      recordAll (metrics.flatMap ResolvedMetric.fields) names := by
  induction metrics generalizing names with
  | nil => rfl
  | cons metric metrics ih => rw [List.foldl_cons, ih, List.flatMap_cons, recordAll_append]

theorem recordAll_map (dimensions : List ResolvedDimension) (names : List String) :
    dimensions.foldl (fun names dimension => recordRelationship dimension.field names) names =
      recordAll (dimensions.map ResolvedDimension.field) names := by
  simp [recordAll, List.foldl_map]

theorem recordAll_eq_insertAll (fields : List Field) (names : List String) :
    recordAll fields names =
      OrderedSet.insertAll (fields.filterMap Field.relationship) names := by
  induction fields generalizing names with
  | nil => rfl
  | cons field fields ih =>
    rw [recordAll_cons, ih, recordRelationship]
    cases hr : field.relationship with
    | none => simp [hr]
    | some name => simp [hr]

theorem resolvedNames_eq {schemaVersion : String} {model : Model} {query : LogicalSemanticQuery}
    {dimensions : List ResolvedDimension} {metrics : List ResolvedMetric}
    {filter : Option ResolvedFilter} {names₁ names₂ names₃ : List String}
    (hdims : mapAccumM (resolveDimension model) query.dimensions [] = .ok (dimensions, names₁))
    (hmetrics : mapAccumM (resolveMetric schemaVersion model) query.metrics names₁ =
      .ok (metrics, names₂))
    (hfilter : optionally (resolveFilter model) query.filters names₂ = .ok (filter, names₃)) :
    names₃ = requiredNames model query := by
  obtain ⟨hd, rfl⟩ := mapAccumM_ok (P := DimensionResolved model)
    (g := fun dimension names => recordRelationship dimension.field names)
    (fun _ _ _ _ hx => resolveDimension_ok hx) hdims
  obtain ⟨hm, rfl⟩ := mapAccumM_ok (P := MetricResolved model)
    (g := fun metric names => recordAll metric.fields names)
    (fun _ _ _ _ hx => resolveMetric_ok hx) hmetrics
  obtain ⟨-, hmem, rfl⟩ := resolveOptionalFilter_ok hfilter
  rw [recordAll_flatMap, recordAll_map, ← recordAll_append, ← recordAll_append,
    recordAll_eq_insertAll, requiredNames, requiredFields, dimensionFieldsOf, ← dimensions_eq hd,
    metricFieldsOf, ← metrics_eq hm, ← hmem, List.append_assoc]

theorem resolveQuery_ok {schemaVersion : String} {models : List Model} {model : Model}
    {query : LogicalSemanticQuery} {limit : Nat} {validated : ValidatedQuery}
    (h : resolveQuery schemaVersion models model query limit = .ok validated) :
    QueryResolved models model query validated := by
  simp only [resolveQuery, bind_eq_ok, exists_const, pure_eq_ok, Prod.exists, forEach_eq_ok,
    checkOrderReference, ensure_eq_ok, decide_eq_true_eq] at h
  obtain ⟨dimensions, names₁, hdims, metrics, names₂, hmetrics, filter, names₃, hfilter, horder,
    relationships, hrels, anchor, hanchor, rfl⟩ := h
  obtain ⟨hd, rfl⟩ := mapAccumM_ok (P := DimensionResolved model)
    (g := fun dimension names => recordRelationship dimension.field names)
    (fun _ _ _ _ hx => resolveDimension_ok hx) hdims
  obtain ⟨hm, rfl⟩ := mapAccumM_ok (P := MetricResolved model)
    (g := fun metric names => recordAll metric.fields names)
    (fun _ _ _ _ hx => resolveMetric_ok hx) hmetrics
  obtain ⟨htyped, hmem, rfl⟩ := resolveOptionalFilter_ok hfilter
  have hrels' := mapM_eq_ok_iff.mp hrels
  refine ⟨rfl, hd, hm, htyped, ?_, hmem, rfl, horder, ?_, ?_, hanchor⟩
  · rw [ValidatedQuery.fields, requiredFields, dimensions_eq hd, metrics_eq hm, hmem]
    rfl
  · have hnames : ∀ {names : List String} {entries : List (String × Relationship)},
        List.Forall₂ (fun x y => resolveRelationship models model x = .ok y) names entries →
        entries.map Prod.fst = names := by
      intro names entries hf
      induction hf with
      | nil => rfl
      | cons hx _ ih => rw [List.map_cons, ih, (resolveRelationship_ok hx).1]
    rw [hnames hrels', recordAll_flatMap, recordAll_map, ← recordAll_append, ← recordAll_append]
    simp only [ValidatedQuery.fields, List.append_assoc]
  · intro entry he
    obtain ⟨name, -, hr⟩ := exists_left_of_forall₂ hrels' he
    exact (resolveRelationship_ok hr).2

theorem validate_ok {backend : HashBackend} {normalized : NormalizedLsq}
    {snapshot : SemanticSnapshot} {options : CompilerOptions} {validated : ValidatedQuery}
    (h : validate backend normalized snapshot options = .ok validated) :
    ∃ model, snapshot.findModel normalized.query = some model ∧
      QueryResolved snapshot.models model normalized.query validated := by
  simp only [validate, validateAgainst, bind_eq_ok, ensure_eq_ok, exists_const,
    orError_eq_ok] at h
  obtain ⟨-, -, -, model, hmodel, -, hquery⟩ := h
  exact ⟨model, hmodel, resolveQuery_ok hquery⟩

/-! ## The resolved query against the documents -/

section Resolved
variable {models : List Model} {model : Model} {query : LogicalSemanticQuery}
  {validated : ValidatedQuery} (h : QueryResolved models model query validated)
include h

theorem QueryResolved.mem_names {name : String} :
    name ∈ validated.names ↔ ∃ field ∈ requiredFields model query, field.relationship = some name := by
  have hnames : validated.names = recordAll validated.fields [] := h.names
  rw [hnames, mem_recordAll, h.fields_eq]
  simp

theorem QueryResolved.mem_relationships {relationship : Relationship} :
    relationship ∈ validated.relationships.map Prod.snd ↔
      relationship ∈ requiredRelationships model query := by
  simp only [requiredRelationships, List.mem_map, List.mem_filterMap]
  constructor
  · rintro ⟨entry, he, rfl⟩
    have hname : entry.1 ∈ validated.names := List.mem_map_of_mem he
    obtain ⟨field, hf, hr⟩ := h.mem_names.mp hname
    exact ⟨entry.1, ⟨field, hf, hr⟩, (h.relationships entry he).found⟩
  · rintro ⟨name, ⟨field, hf, hr⟩, hfound⟩
    obtain ⟨entry, he, rfl⟩ := List.mem_map.mp (h.mem_names.mpr ⟨field, hf, hr⟩)
    refine ⟨entry, he, ?_⟩
    have hsame := (h.relationships entry he).found
    exact Option.some.inj (hsame.symm.trans hfound)

theorem QueryResolved.anchor_eq_none_iff :
    validated.aggregationAnchor = none ↔ FlatPath model query := by
  have hmem : (∃ entry ∈ validated.relationships, entry.2.cardinality = .oneToMany) ↔
      ¬ FlatPath model query := by
    simp only [FlatPath, not_forall, not_not]
    constructor
    · rintro ⟨entry, he, hc⟩
      exact ⟨entry.2, h.mem_relationships.mp (List.mem_map_of_mem he), hc⟩
    · rintro ⟨relationship, hr, hc⟩
      obtain ⟨entry, he, rfl⟩ := List.mem_map.mp (h.mem_relationships.mpr hr)
      exact ⟨entry, he, hc⟩
  rcases fanoutAnchor_ok h.anchor with ⟨hnone, hall⟩ | ⟨anchor, hsome, -, hmany, -, -⟩
  · refine ⟨fun _ => ?_, fun _ => hnone⟩
    by_contra hflat
    obtain ⟨entry, he, hc⟩ := hmem.mpr hflat
    exact hall entry he hc
  · rw [hsome]
    refine ⟨fun hn => ?_, fun hflat => absurd hflat (hmem.mp hmany)⟩
    cases hn

theorem QueryResolved.anchor_field {anchor : Field}
    (ha : validated.aggregationAnchor = some anchor) :
    anchor ∈ anchorFieldsOf model query ∧ anchor.relationship = none ∧
      anchor.entityKey = true := by
  rcases fanoutAnchor_ok h.anchor with ⟨hnone, -⟩ | ⟨field, hsome, -, -, ⟨metric, hm, he⟩, -⟩
  · rw [hnone] at ha
    cases ha
  · rw [hsome, Option.some.injEq] at ha
    subst ha
    obtain ⟨reference, hr, hresolved⟩ := exists_left_of_forall₂ h.metrics hm
    obtain ⟨hfound, hdirect, hkey⟩ := hresolved.anchor field he
    refine ⟨?_, hdirect, hkey⟩
    simp only [anchorFieldsOf, List.mem_filterMap, List.mem_map]
    exact ⟨metric.metric, ⟨reference.metric, ⟨reference, hr, rfl⟩, hresolved.found⟩, hfound⟩

theorem QueryResolved.names_eq : validated.names = requiredNames model query := by
  have hnames : validated.names = recordAll validated.fields [] := h.names
  rw [hnames, recordAll_eq_insertAll, h.fields_eq, requiredNames]

theorem QueryResolved.relationships_eq :
    validated.relationships.map Prod.snd =
      (requiredNames model query).filterMap model.findRelationship := by
  have hfound := h.relationships
  rw [← h.names_eq, ValidatedQuery.names]
  generalize validated.relationships = entries at hfound
  induction entries with
  | nil => rfl
  | cons entry entries ih =>
    have hentry : model.findRelationship entry.1 = some entry.2 :=
      (hfound entry (by simp)).found
    rw [List.map_cons, List.map_cons, List.filterMap_cons_some hentry,
      ih fun other ho => hfound other (by simp [ho])]

theorem QueryResolved.outputs_eq :
    validated.dimensions.map (fun dimension => dimension.field.semanticName)
      ++ validated.metrics.map (fun metric => metric.metric.semanticName) = query.references := by
  have hd : validated.dimensions.map (fun dimension => dimension.field.semanticName) =
      query.dimensions.map Dimension.field := by
    have hf := h.dimensions
    generalize validated.dimensions = outputs at hf
    generalize query.dimensions = inputs at hf
    induction hf with
    | nil => rfl
    | cons hx _ ih => rw [List.map_cons, List.map_cons, ih, (findField_some hx.found).2]
  have hm : validated.metrics.map (fun metric => metric.metric.semanticName) =
      query.metrics.map MetricReference.metric := by
    have hf := h.metrics
    generalize validated.metrics = outputs at hf
    generalize query.metrics = inputs at hf
    induction hf with
    | nil => rfl
    | cons hx _ ih => rw [List.map_cons, List.map_cons, ih, findMetric_name hx.found]
  rw [hd, hm, LogicalSemanticQuery.references]

end Resolved

end Postgresem
