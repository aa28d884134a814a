import Postgresem.Foundation.Failing
import Postgresem.Compiler.Statement

/-! What a snapshot owes to the compiler. Several errors of a compilation say that the snapshot is
at fault; a snapshot that keeps the conditions below is never at fault. -/
namespace Postgresem
open Control

/-- The errors that name a defect of the snapshot. -/
def CompileError.blamesSnapshot : CompileError → Bool
  | .unsupportedSnapshotVersion _ | .invalidRevisionHash | .unknownRelationship _
  | .unsafeRelationship _ | .missingMetricMetadata _ | .invalidAggregationAnchor _
  | .missingAggregationAnchor _ | .invalidMetricField _ | .joinedMetricField _
  | .countDistinctRequiresEntityKey _ | .countRequiresEntityKey _ | .invalidMetricType _
  | .invalidRelationshipTarget _ | .relationshipTargetNotEntityKey _ => true
  | _ => false

def CompileError.isMissingTimezone : CompileError → Bool
  | .missingTimezone _ => true
  | _ => false

/-- A field that an aggregation may run over. -/
structure Metric.Grounded (version : String) (model : Model) (metric : Metric) : Prop where
  unfiltered : metric.filter = none
  field : ∃ field, model.findField metric.field = some field ∧ field.relationship = none ∧
    (metric.aggregation = .count ∨ metric.aggregation = .countDistinct → field.entityKey = true) ∧
    metric.dataType = expectedMetricType metric.aggregation field.dataType
  plain : version = "1" → metric.additivity = none ∧ metric.aggregationAnchor = none
  additive : version = "2" → metric.additivity.isSome = true
  anchor : ∀ anchor, metric.aggregationAnchor = some anchor → ∃ field,
    model.findField anchor = some field ∧ field.relationship = none ∧ field.entityKey = true

/-- A join that keeps the rows of the source, to a model of the snapshot and its key. -/
structure Relationship.Grounded (models : List Model) (relationship : Relationship) : Prop where
  cardinality : relationship.cardinality = .manyToOne
  target : ∃ target, models.find? (fun model => model.semanticName == relationship.targetModel) =
      some target ∧ target.source = relationship.target ∧
    target.fields.any (isDirectKey relationship.toColumn) = true

structure Model.Grounded (version : String) (models : List Model) (model : Model) : Prop where
  joined : ∀ field ∈ model.fields, ∀ name, field.relationship = some name →
    ∃ relationship ∈ model.relationships, relationship.semanticName = name
  relationships : ∀ relationship ∈ model.relationships, relationship.Grounded models
  metrics : ∀ metric ∈ model.metrics, metric.Grounded version model

structure SemanticSnapshot.Grounded (backend : HashBackend) (snapshot : SemanticSnapshot) :
    Prop where
  checked : checkSnapshot backend snapshot = .ok ()
  models : ∀ model ∈ snapshot.models, model.Grounded snapshot.schemaVersion snapshot.models

/-- A model whose instants, if it has any, have a timezone. -/
def Model.Zoned (model : Model) : Prop :=
  ∀ field ∈ model.fields, field.dataType = .timestampTz → model.timezone.isSome = true

/-! ## Resolution -/

/-- The compilation does not fail for a defect of the snapshot. -/
abbrev Blameless {α : Type} (x : Except CompileError α) : Prop :=
  FailsOnly (fun error => error.blamesSnapshot = false ∧ error.isMissingTimezone = false) x

theorem resolveField_blameless (model : Model) (name : String) :
    Blameless (resolveField model name) := .orError fun _ => ⟨rfl, rfl⟩

theorem visibleField_blameless (model : Model) (name : String) :
    Blameless (visibleField model name) := by
  refine (resolveField_blameless model name).bind fun field _ => ?_
  exact (FailsOnly.ensure fun _ => ⟨rfl, rfl⟩).bind fun _ _ => .ok _

theorem validateLiteral_blameless (field : Field) (value : Literal) :
    Blameless (validateLiteral field value) := .ensure fun _ => ⟨rfl, rfl⟩

theorem resolveDimension_blameless (model : Model) (dimension : Dimension) (names : List String) :
    Blameless (resolveDimension model dimension names) := by
  refine (resolveField_blameless model dimension.field).bind fun field _ => ?_
  refine (FailsOnly.ensure fun _ => ⟨rfl, rfl⟩).bind fun _ _ => ?_
  exact (FailsOnly.ensure fun _ => ⟨rfl, rfl⟩).bind fun _ _ => .ok _

mutual

theorem resolveFilter_blameless (model : Model) : ∀ (filter : Filter) (names : List String),
    Blameless (resolveFilter model filter names)
  | .and args, names => (resolveFilters_blameless model args names).bind fun _ _ => .ok _
  | .or args, names => (resolveFilters_blameless model args names).bind fun _ _ => .ok _
  | .not arg, names => (resolveFilter_blameless model arg names).bind fun _ _ => .ok _
  | .comparison operator field value, names => by
    rw [resolveFilter]
    refine (visibleField_blameless model field).bind fun resolved _ => ?_
    exact (validateLiteral_blameless resolved value).bind fun _ _ => .ok _
  | .inList field values, names => by
    rw [resolveFilter]
    refine (visibleField_blameless model field).bind fun resolved _ => ?_
    have hvalues : Blameless (forEach (validateLiteral resolved) values) :=
      .forEach fun value _ => validateLiteral_blameless resolved value
    exact hvalues.bind fun _ _ => .ok _
  | .isNull field, names => (visibleField_blameless model field).bind fun _ _ => .ok _
  | .isNotNull field, names => (visibleField_blameless model field).bind fun _ _ => .ok _

theorem resolveFilters_blameless (model : Model) : ∀ (args : List Filter) (names : List String),
    Blameless (resolveFilters model args names)
  | [], names => .ok _
  | filter :: rest, names => by
    rw [resolveFilters]
    refine (resolveFilter_blameless model filter names).bind fun first _ => ?_
    exact (resolveFilters_blameless model rest first.2).bind fun _ _ => .ok _

end

theorem resolveMetric_blameless {version : String} {model : Model}
    (h : ∀ metric ∈ model.metrics, metric.Grounded version model) (reference : MetricReference)
    (names : List String) : Blameless (resolveMetric version model reference names) := by
  refine (FailsOnly.orError fun _ => ⟨rfl, rfl⟩).bind fun metric hmetric => ?_
  have hground := h metric (List.mem_of_find?_eq_some (orError_eq_ok.mp hmetric))
  obtain ⟨field, hfield, hdirect, hkey, htype⟩ := hground.field
  have hresolve : (resolveField model metric.field).mapError
      (fun _ => CompileError.invalidMetricField metric.semanticName) = .ok field := by
    rw [resolveField_ok.mpr hfield]
    rfl
  have hcount : (!(metric.aggregation == .count && !field.entityKey)) = true := by
    by_cases hcount : metric.aggregation = .count
    · simp [hkey (Or.inl hcount)]
    · simp [hcount]
  have hdistinct : (!(metric.aggregation == .countDistinct && !field.entityKey)) = true := by
    by_cases hdistinct : metric.aggregation = .countDistinct
    · simp [hkey (Or.inr hdistinct)]
    · simp [hdistinct]
  have hplain : (!(version == "1" && (metric.additivity.isSome ||
      metric.aggregationAnchor.isSome))) = true := by
    by_cases hversion : version = "1"
    · simp [hground.plain hversion]
    · simp [hversion]
  have hadditive : (!(version == "2" && metric.additivity.isNone)) = true := by
    by_cases hversion : version = "2"
    · have hsome := hground.additive hversion
      simp [Option.isNone_eq_false_iff.mpr hsome]
    · simp [hversion]
  refine (FailsOnly.ensure fun _ => ⟨rfl, rfl⟩).bind fun _ _ => ?_
  rw [hresolve, ok_bind, hdirect, hground.unfiltered]
  simp only [Option.isNone_none, ensure_true, ok_bind, hcount, hdistinct, htype, beq_self_eq_true,
    optionally, hplain, hadditive]
  cases hanchor : metric.aggregationAnchor with
  | none => exact .ok _
  | some anchor =>
    obtain ⟨found, hfound, hnone, hentity⟩ := hground.anchor anchor hanchor
    have hresolved : resolveMetricAnchor model metric anchor = .ok found := by
      rw [resolveMetricAnchor, resolveField_ok.mpr hfound]
      simp [hnone, hentity, pure, Except.pure]
    rw [Option.mapM_some, hresolved]
    exact .ok _

theorem resolveRelationship_blameless {models : List Model} {model : Model}
    (h : ∀ relationship ∈ model.relationships, relationship.Grounded models) {name : String}
    (hname : ∃ relationship ∈ model.relationships, relationship.semanticName = name) :
    Blameless (resolveRelationship models model name) := by
  cases hfind : model.relationships.find? fun relationship => relationship.semanticName == name with
  | none =>
    obtain ⟨relationship, hmem, hrelationship⟩ := hname
    exact absurd hrelationship (by simpa using List.find?_eq_none.mp hfind relationship hmem)
  | some relationship =>
    obtain ⟨hmany, target, htarget, hsource, hkey⟩ :=
      h relationship (List.mem_of_find?_eq_some hfind)
    rw [resolveRelationship, hfind, orError_some, ok_bind, hmany, htarget, orError_some, ok_bind,
      hsource]
    simp [hkey]
    exact .ok _

theorem fanoutAnchor_manyToOne {relationships : List (String × Relationship)}
    (h : ∀ entry ∈ relationships, entry.2.cardinality = .manyToOne) (metrics : List ResolvedMetric) :
    fanoutAnchor relationships metrics = .ok none := by
  have hnone : relationships.find? (fun entry => entry.2.cardinality == .oneToMany) = none := by
    rw [List.find?_eq_none]
    intro entry he
    simp [h entry he]
  rw [fanoutAnchor, hnone]

theorem mem_requiredFields {model : Model} {query : LogicalSemanticQuery} {field : Field}
    (h : field ∈ requiredFields model query) : field ∈ model.fields := by
  simp only [requiredFields, dimensionFieldsOf, metricFieldsOf, filterFieldsOf, List.mem_append,
    List.mem_flatMap, List.mem_filterMap] at h
  rcases h with (⟨_, -, hfind⟩ | ⟨_, -, _, -, hfind⟩) | ⟨_, -, hfind⟩
  · exact (findField_some hfind).1
  · exact (findField_some hfind).1
  · exact (findField_some hfind).1

theorem mem_requiredNames {model : Model} {query : LogicalSemanticQuery} {name : String}
    (h : name ∈ requiredNames model query) :
    ∃ field ∈ model.fields, field.relationship = some name := by
  rw [requiredNames, OrderedSet.mem_insertAll, List.mem_filterMap] at h
  obtain ⟨field, hfield, hname⟩ := h.resolve_right (List.not_mem_nil)
  exact ⟨field, mem_requiredFields hfield, hname⟩

theorem resolveQuery_blameless {version : String} {models : List Model} {model : Model}
    (h : model.Grounded version models) (query : LogicalSemanticQuery) (limit : Nat) :
    Blameless (resolveQuery version models model query limit) := by
  have hdimensions : Blameless (mapAccumM (resolveDimension model) query.dimensions []) :=
    .mapAccumM (fun dimension _ => resolveDimension_blameless model dimension) []
  refine hdimensions.bind fun dimensions hdims => ?_
  have hmetrics : Blameless (mapAccumM (resolveMetric version model) query.metrics dimensions.2) :=
    .mapAccumM (fun reference _ => resolveMetric_blameless h.metrics reference) _
  refine hmetrics.bind fun metrics hmets => ?_
  have hfilter : Blameless (optionally (resolveFilter model) query.filters metrics.2) := by
    cases query.filters with
    | none => exact .ok _
    | some filter => exact (resolveFilter_blameless model filter metrics.2).map _
  refine hfilter.bind fun filter hfil => ?_
  have horder : Blameless (forEach (checkOrderReference query.references) query.orderBy) :=
    .forEach fun _ _ => .ensure fun _ => ⟨rfl, rfl⟩
  refine horder.bind fun _ _ => ?_
  have hnames := resolvedNames_eq hdims hmets hfil
  have hrelationships : Blameless (filter.2.mapM (resolveRelationship models model)) := by
    refine .mapM fun name hname => resolveRelationship_blameless h.relationships ?_
    rw [hnames] at hname
    obtain ⟨field, hfield, hjoined⟩ := mem_requiredNames hname
    exact h.joined field hfield name hjoined
  refine hrelationships.bind fun relationships hrels => ?_
  have hmany : ∀ entry ∈ relationships, entry.2.cardinality = .manyToOne := by
    intro entry he
    obtain ⟨name, -, hresolve⟩ := exists_left_of_forall₂ (mapM_eq_ok_iff.mp hrels) he
    exact (h.relationships entry.2
      (List.mem_of_find?_eq_some (resolveRelationship_ok hresolve).2.found)).cardinality
  rw [fanoutAnchor_manyToOne hmany, ok_bind]
  exact .ok _

/-! ## Compilation -/

/-- What a missing timezone of a field is answered with. -/
def Tolerates (P : CompileError → Prop) (model : Model) (field : Field) : Prop :=
  field.dataType = .timestampTz → model.timezone = none → P (.missingTimezone field.semanticName)

section Lower
variable {P : CompileError → Prop} {model : Model}

theorem lowerOperand_failsOnly {field : Field} (h : Tolerates P model field) (value : Literal) :
    FailsOnly P (lowerOperand model field value) := by
  rw [lowerOperand.eq_def]
  split
  next htype =>
    refine FailsOnly.map ?_ _
    exact .orError (h htype)
  · exact .ok _

mutual

theorem lowerFilter_failsOnly (names : List String) : ∀ filter : ResolvedFilter,
    (∀ field ∈ filter.fields, Tolerates P model field) →
    FailsOnly P (lowerFilter model names filter)
  | .and args, h => (lowerFilters_failsOnly names args h).map _
  | .or args, h => (lowerFilters_failsOnly names args h).map _
  | .not arg, h => (lowerFilter_failsOnly names arg h).map _
  | .comparison _ field value, h =>
    (lowerOperand_failsOnly (h field (List.mem_singleton_self field)) value).map _
  | .inList _ _, _ => .ok _
  | .isNull _, _ => .ok _
  | .isNotNull _, _ => .ok _

theorem lowerFilters_failsOnly (names : List String) : ∀ filters : List ResolvedFilter,
    (∀ field ∈ ResolvedFilter.fieldsEach filters, Tolerates P model field) →
    FailsOnly P (lowerFilters model names filters)
  | [], _ => .ok _
  | filter :: rest, h => by
    rw [ResolvedFilter.fieldsEach] at h
    refine (lowerFilter_failsOnly names filter fun field hf =>
      h field (List.mem_append_left _ hf)).bind fun _ _ => ?_
    exact (lowerFilters_failsOnly names rest fun field hf =>
      h field (List.mem_append_right _ hf)).bind fun _ _ => .ok _

end

theorem lowerDimension_failsOnly (names : List String) {dimension : ResolvedDimension}
    (h : Tolerates P model dimension.field) :
    FailsOnly P (lowerDimension model names dimension) := by
  rw [lowerDimension]
  split
  · split
    next htype =>
      refine FailsOnly.map ?_ _
      exact .orError (h htype)
    · exact .ok _
  · exact .ok _

/-- Lowering fails for a timezone at most. -/
theorem lower_failsOnly {validated : ValidatedQuery}
    (h : ∀ field ∈ validated.fields, Tolerates P validated.model field) :
    FailsOnly P validated.lower := by
  have hdimensions : FailsOnly P validated.lowerDimensions := by
    refine .mapM fun dimension hd => FailsOnly.map ?_ _
    refine lowerDimension_failsOnly _ (h _ ?_)
    simp only [ValidatedQuery.fields, List.mem_append, List.mem_map]
    exact Or.inl (Or.inl ⟨dimension, hd, rfl⟩)
  refine hdimensions.bind fun _ _ => ?_
  have hfilter : FailsOnly P
      (lowerOptionalFilter validated.model validated.names validated.filter) := by
    cases hfilter : validated.filter with
    | none => exact .ok _
    | some filter =>
      refine (lowerFilter_failsOnly _ filter fun field hf => h field ?_).map _
      rw [ValidatedQuery.fields, hfilter]
      exact List.mem_append_right _ hf
  exact hfilter.bind fun _ _ => .ok _

end Lower

section Hashed

/-- A snapshot with its own revision hash passes the checks of the compiler. -/
theorem checkSnapshot_hashed {backend : HashBackend} {snapshot : SemanticSnapshot} {hash : String}
    (hversion : snapshot.schemaVersion = "1" ∨ snapshot.schemaVersion = "2")
    (h : snapshot.calculateRevisionHash backend = some hash) :
    checkSnapshot backend { snapshot with revisionHash := hash } = .ok () := by
  have hagain : SemanticSnapshot.calculateRevisionHash backend
      { snapshot with revisionHash := hash } = some hash := h
  have hshape : isSha256 hash = true := by
    obtain ⟨bytes, -, rfl⟩ := Option.map_eq_some_iff.mp h
    exact isSha256_sha256 backend bytes
  rw [checkSnapshot, checkRevisionHash, hagain]
  rcases hversion with hversion | hversion <;> simp [hversion, hshape]

end Hashed

section Compile
variable {backend : CompilerBackend} {normalized : NormalizedLsq} {snapshot : SemanticSnapshot}
  {options : CompilerOptions}

theorem validate_blameless (h : snapshot.Grounded backend.toHashBackend) :
    Blameless (validate backend.toHashBackend normalized snapshot options) := by
  rw [validate_of_checkSnapshot h.checked, validateAgainst]
  refine (FailsOnly.ensure fun _ => ⟨rfl, rfl⟩).bind fun _ _ => ?_
  refine (FailsOnly.orError fun _ => ⟨rfl, rfl⟩).bind fun model hmodel => ?_
  refine (FailsOnly.ensure fun _ => ⟨rfl, rfl⟩).bind fun _ _ => ?_
  exact resolveQuery_blameless
    (h.models model (List.mem_of_find?_eq_some (orError_eq_ok.mp hmodel))) _ _

theorem render_failsOnly {P : CompileError → Prop} (hserialization : P .hashSerialization)
    {validated : ValidatedQuery} (hcovered : validated.Covered)
    (h : ∀ field ∈ validated.fields, Tolerates P validated.model field) :
    FailsOnly P (render backend normalized snapshot validated) := by
  have hsql : FailsOnly P (renderSql validated {}) := by
    rw [renderSql_eq hcovered]
    exact (lower_failsOnly h).map _
  refine hsql.bind fun written _ => ?_
  obtain ⟨sql, state⟩ := written
  refine FailsOnly.bind (.orError fun _ => hserialization) fun _ _ => ?_
  exact .ok _

/-- A compilation against a grounded snapshot never blames it. -/
theorem compileLsq_blameless (h : snapshot.Grounded backend.toHashBackend) :
    FailsOnly (fun error => error.blamesSnapshot = false)
      (compileLsq backend normalized snapshot options) := by
  refine ((validate_blameless h).mono fun _ hblameless => hblameless.1).bind
    fun validated hvalid => ?_
  exact render_failsOnly (P := fun error => error.blamesSnapshot = false) rfl
    (validate_covered hvalid) fun _ _ _ _ => rfl

theorem validated_fields {validated : ValidatedQuery}
    (hvalid : validate backend.toHashBackend normalized snapshot options = .ok validated) :
    validated.model ∈ snapshot.models ∧ ∀ field ∈ validated.fields, field ∈ validated.model.fields := by
  obtain ⟨model, hmodel, hresolved⟩ := validate_ok hvalid
  refine ⟨?_, ?_⟩
  · rw [hresolved.model_eq]
    exact List.mem_of_find?_eq_some hmodel
  · intro field hf
    rw [hresolved.fields_eq] at hf
    rw [hresolved.model_eq]
    exact mem_requiredFields hf

/-- Where the instants have a timezone too, none is missing. -/
theorem compileLsq_zoned (h : snapshot.Grounded backend.toHashBackend)
    (hzoned : ∀ model ∈ snapshot.models, model.Zoned) :
    Blameless (compileLsq backend normalized snapshot options) := by
  refine (validate_blameless h).bind fun validated hvalid => ?_
  obtain ⟨hmodel, hfields⟩ := validated_fields hvalid
  refine render_failsOnly ⟨rfl, rfl⟩ (validate_covered hvalid) fun field hf htype hnone => ?_
  have hsome := hzoned _ hmodel field (hfields field hf) htype
  rw [hnone] at hsome
  cases hsome

end Compile

end Postgresem
