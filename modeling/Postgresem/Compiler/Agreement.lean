import Postgresem.Foundation.Coupling
import Postgresem.Compiler.Statement

/-! Two compilations side by side. What a compilation reads of its snapshot is a few lookups; when
these agree on two snapshots, up to the attributes that no statement depends on, so do the
compiled queries. -/
namespace Postgresem
open Control

/-! ## What a statement depends on -/

/-- A field as it is used once its visibility has been checked. -/
def Field.core (field : Field) : Field := { field with visible := true, nullable := true }

def ResolvedDimension.core (dimension : ResolvedDimension) : ResolvedDimension :=
  { dimension with field := dimension.field.core }

def ResolvedMetric.core (metric : ResolvedMetric) : ResolvedMetric :=
  { metric with
    field := metric.field.core
    filter := metric.filter.map fun entry => (entry.1.core, entry.2)
    aggregationAnchor := metric.aggregationAnchor.map Field.core }

mutual

def ResolvedFilter.core : ResolvedFilter → ResolvedFilter
  | .and args => .and (ResolvedFilter.coreEach args)
  | .or args => .or (ResolvedFilter.coreEach args)
  | .not arg => .not arg.core
  | .comparison operator field value => .comparison operator field.core value
  | .inList field values => .inList field.core values
  | .isNull field => .isNull field.core
  | .isNotNull field => .isNotNull field.core

def ResolvedFilter.coreEach : List ResolvedFilter → List ResolvedFilter
  | [] => []
  | filter :: rest => filter.core :: ResolvedFilter.coreEach rest

end

/-- A model as a validated query uses it: its relation and its timezone. -/
def Model.core (model : Model) : Model :=
  { semanticName := model.semanticName, source := model.source, timezone := model.timezone,
    fields := [], metrics := [] }

def ValidatedQuery.core (validated : ValidatedQuery) : ValidatedQuery :=
  { validated with
    model := validated.model.core
    dimensions := validated.dimensions.map ResolvedDimension.core
    metrics := validated.metrics.map ResolvedMetric.core
    filter := validated.filter.map ResolvedFilter.core
    aggregationAnchor := validated.aggregationAnchor.map Field.core }

theorem lowerMetric_core (names : List String) (metric : ResolvedMetric) :
    lowerMetric names metric.core = lowerMetric names metric := by
  simp only [lowerMetric, ResolvedMetric.core, Option.map_map]
  rfl

mutual

theorem lowerFilter_core (model : Model) (names : List String) :
    ∀ filter : ResolvedFilter,
      lowerFilter model.core names filter.core = lowerFilter model names filter
  | .and args | .or args => by
    rw [ResolvedFilter.core, lowerFilter, lowerFilter, lowerFilters_core model names args]
  | .not arg => by
    rw [ResolvedFilter.core, lowerFilter, lowerFilter, lowerFilter_core model names arg]
  | .comparison _ _ _ | .inList _ _ | .isNull _ | .isNotNull _ => by
    rw [ResolvedFilter.core, lowerFilter, lowerFilter]
    rfl

theorem lowerFilters_core (model : Model) (names : List String) :
    ∀ filters : List ResolvedFilter,
      lowerFilters model.core names (ResolvedFilter.coreEach filters) =
        lowerFilters model names filters
  | [] => by rw [ResolvedFilter.coreEach, lowerFilters, lowerFilters]
  | filter :: rest => by
    rw [ResolvedFilter.coreEach, lowerFilters, lowerFilters, lowerFilter_core model names filter,
      lowerFilters_core model names rest]

end

theorem ValidatedQuery.lower_core (validated : ValidatedQuery) :
    validated.core.lower = validated.lower := by
  have hd : validated.core.lowerDimensions = validated.lowerDimensions := by
    simp only [ValidatedQuery.lowerDimensions, ValidatedQuery.core, List.mapM_map]
    rfl
  have hm : validated.core.lowerMetrics = validated.lowerMetrics := by
    simp only [ValidatedQuery.lowerMetrics, ValidatedQuery.core, List.map_map]
    refine List.map_congr_left fun metric _ => ?_
    rw [Function.comp_apply, lowerMetric_core]
    rfl
  have hf : lowerOptionalFilter validated.core.model validated.core.names validated.core.filter =
      lowerOptionalFilter validated.model validated.names validated.filter := by
    simp only [ValidatedQuery.core]
    cases validated.filter with
    | none => rfl
    | some filter =>
      rw [Option.map_some, lowerOptionalFilter, lowerOptionalFilter, lowerFilter_core]
      rfl
  have ha : validated.core.aggregationAnchor.map (lowerField validated.core.names) =
      validated.aggregationAnchor.map (lowerField validated.names) := by
    simp only [ValidatedQuery.core, Option.map_map]
    rfl
  rw [ValidatedQuery.lower, ValidatedQuery.lower, hd, hm, hf, ha]
  rfl

theorem ValidatedQuery.outputSchema_core (validated : ValidatedQuery) :
    outputSchema validated.core = outputSchema validated := by
  simp only [outputSchema, ValidatedQuery.core, List.map_map]
  rfl

theorem ValidatedQuery.lineage_core (validated : ValidatedQuery) (sourceColumns : List String) :
    lineage validated.core sourceColumns = lineage validated sourceColumns := by
  have ha : ∀ metric : ResolvedMetric,
      (metric.core.aggregationAnchor.map fun anchor =>
        ({ metric := metric.core.metric.semanticName,
           field := anchor.semanticName } : AggregationAnchorLineage)) =
      metric.aggregationAnchor.map fun anchor =>
        { metric := metric.metric.semanticName, field := anchor.semanticName } := by
    intro metric
    simp only [ResolvedMetric.core, Option.map_map]
    rfl
  simp only [lineage, lineageModels, ValidatedQuery.core, List.map_map, List.filterMap_map,
    Function.comp_def, ha]
  rfl

/-! ## Coupled resolution -/

/-- The metric of a reference, when it exists and is visible. -/
def visibleMetric (model : Model) (name : String) : Except CompileError Metric := do
  let metric ← orError (model.findMetric name) (.unknownMetric name)
  ensure metric.visible (.hiddenMetric name)
  pure metric

/-- The fields that a metric names: its own, that of its filter and its anchor. -/
def Metric.lookups (metric : Metric) : List String :=
  metric.fieldNames ++ metric.aggregationAnchor.toList

/-- Both models give a name to the same field, up to its visibility, or neither does. -/
def SameField (model model' : Model) (name : String) : Prop :=
  (model.findField name).map Field.core = (model'.findField name).map Field.core

theorem coupled_of_map_eq {α β : Type} {E : CompileError → CompileError → Prop}
    (hE : ∀ error, E error error) {x x' : Except CompileError α} {f : α → β}
    (h : x.map f = x'.map f) : Coupled E (fun a a' => f a = f a') x x' := by
  cases x with
  | error e =>
    cases x' with
    | error e' =>
      cases h
      exact .error (hE e)
    | ok a' => cases h
  | ok a =>
    cases x' with
    | error e' => cases h
    | ok a' => exact .ok (Except.ok.inj h)

theorem map_eq_of_forall₂ {α β : Type} {f : α → β} {xs ys : List α}
    (h : List.Forall₂ (fun x y => f x = f y) xs ys) : xs.map f = ys.map f := by
  induction h with
  | nil => rfl
  | cons hx _ ih => rw [List.map_cons, List.map_cons, hx, ih]

theorem Field.core_eq_core {field field' : Field} : field.core = field'.core ↔
    field.semanticName = field'.semanticName ∧ field.dataType = field'.dataType ∧
      field.column = field'.column ∧ field.relationship = field'.relationship ∧
      field.timeDimension = field'.timeDimension ∧ field.entityKey = field'.entityKey := by
  simp only [Field.core, Field.mk.injEq, and_true]

theorem validateLiteral_core {field field' : Field} (h : field.core = field'.core)
    (literal : Literal) : validateLiteral field literal = validateLiteral field' literal := by
  obtain ⟨hname, htype, -⟩ := Field.core_eq_core.mp h
  rw [validateLiteral, validateLiteral, htype, hname]

theorem recordRelationship_core {field field' : Field} (h : field.core = field'.core)
    (names : List String) : recordRelationship field names = recordRelationship field' names := by
  obtain ⟨-, -, -, hrelationship, -⟩ := Field.core_eq_core.mp h
  rw [recordRelationship, recordRelationship, hrelationship]

section Coupling
variable {E : CompileError → CompileError → Prop} (hE : ∀ error, E error error)
variable {model model' : Model}
include hE

theorem resolveField_coupled {name : String} (h : SameField model model' name) :
    Coupled E (fun field field' => field.core = field'.core) (resolveField model name)
      (resolveField model' name) := by
  unfold SameField Model.findField at h
  unfold resolveField
  cases hf : model.fields.find? fun field => field.semanticName == name with
  | none =>
    cases hf' : model'.fields.find? fun field => field.semanticName == name with
    | none => exact .error (hE _)
    | some field' => simp [hf, hf'] at h
  | some field =>
    cases hf' : model'.fields.find? fun field => field.semanticName == name with
    | none => simp [hf, hf'] at h
    | some field' =>
      rw [hf, hf'] at h
      exact .ok (Option.some.inj h)

theorem resolveDimension_coupled {dimension : Dimension}
    (h : Coupled E (fun field field' => field.core = field'.core)
      (visibleField model dimension.field) (visibleField model' dimension.field))
    (names : List String) :
    Coupled E (fun r r' => r.1.core = r'.1.core ∧ r.2 = r'.2)
      (resolveDimension model dimension names) (resolveDimension model' dimension names) := by
  have hsplit : ∀ model : Model, resolveDimension model dimension names =
      (visibleField model dimension.field >>= fun field => do
        ensure (dimension.timeGrain.isNone || (field.timeDimension && isTemporal field.dataType))
          (.invalidTimeGrain dimension.field)
        pure ({ field := field, timeGrain := dimension.timeGrain },
          recordRelationship field names)) := by
    intro model
    simp only [resolveDimension, visibleField, bind_assoc, pure_bind]
  rw [hsplit, hsplit]
  refine h.bind ?_
  intro field field' _ _ hcore
  obtain ⟨-, htype, -, -, htime, -⟩ := Field.core_eq_core.mp hcore
  rw [htype, htime, recordRelationship_core hcore]
  refine (Coupled.ensure (hE _)).bind ?_
  intro _ _ _ _ _
  exact .ok ⟨by simp [ResolvedDimension.core, hcore], rfl⟩

end Coupling

mutual

theorem resolveFilter_coupled {E : CompileError → CompileError → Prop}
    (hE : ∀ error, E error error) {model model' : Model} : ∀ filter : Filter,
    (∀ name ∈ filter.fieldNames, Coupled E (fun field field' => field.core = field'.core)
      (visibleField model name) (visibleField model' name)) → ∀ names : List String,
    Coupled E (fun r r' => r.1.core = r'.1.core ∧ r.2 = r'.2)
      (resolveFilter model filter names) (resolveFilter model' filter names)
  | .and args, h, names => by
    rw [resolveFilter, resolveFilter]
    refine (resolveFilters_coupled hE args h names).bind ?_
    rintro ⟨args₁, names₁⟩ ⟨args₂, names₂⟩ - - ⟨hargs, rfl⟩
    refine .ok ⟨?_, rfl⟩
    rw [ResolvedFilter.core, ResolvedFilter.core, hargs]
  | .or args, h, names => by
    rw [resolveFilter, resolveFilter]
    refine (resolveFilters_coupled hE args h names).bind ?_
    rintro ⟨args₁, names₁⟩ ⟨args₂, names₂⟩ - - ⟨hargs, rfl⟩
    refine .ok ⟨?_, rfl⟩
    rw [ResolvedFilter.core, ResolvedFilter.core, hargs]
  | .not arg, h, names => by
    rw [resolveFilter, resolveFilter]
    refine (resolveFilter_coupled hE arg h names).bind ?_
    rintro ⟨arg₁, names₁⟩ ⟨arg₂, names₂⟩ - - ⟨harg, rfl⟩
    refine .ok ⟨?_, rfl⟩
    rw [ResolvedFilter.core, ResolvedFilter.core, harg]
  | .comparison operator name value, h, names => by
    rw [resolveFilter, resolveFilter, resolveComparison, resolveComparison]
    refine (h name (by simp [Filter.fieldNames])).bind ?_
    intro field field' _ _ hcore
    rw [validateLiteral_core hcore, recordRelationship_core hcore]
    refine (Coupled.refl hE (fun _ => trivial) _).bind (R := fun _ _ => True) ?_
    intro _ _ _ _ _
    refine .ok ⟨?_, rfl⟩
    rw [ResolvedFilter.core, ResolvedFilter.core, hcore]
  | .inList name values, h, names => by
    rw [resolveFilter, resolveFilter]
    refine (h name (by simp [Filter.fieldNames])).bind ?_
    intro field field' _ _ hcore
    have hliteral : validateLiteral field = validateLiteral field' :=
      funext (validateLiteral_core hcore)
    rw [hliteral, recordRelationship_core hcore]
    refine (Coupled.refl hE (fun _ => trivial) _).bind (R := fun _ _ => True) ?_
    intro _ _ _ _ _
    refine .ok ⟨?_, rfl⟩
    rw [ResolvedFilter.core, ResolvedFilter.core, hcore]
  | .isNull name, h, names => by
    rw [resolveFilter, resolveFilter]
    refine (h name (by simp [Filter.fieldNames])).bind ?_
    intro field field' _ _ hcore
    rw [recordRelationship_core hcore]
    refine .ok ⟨?_, rfl⟩
    rw [ResolvedFilter.core, ResolvedFilter.core, hcore]
  | .isNotNull name, h, names => by
    rw [resolveFilter, resolveFilter]
    refine (h name (by simp [Filter.fieldNames])).bind ?_
    intro field field' _ _ hcore
    rw [recordRelationship_core hcore]
    refine .ok ⟨?_, rfl⟩
    rw [ResolvedFilter.core, ResolvedFilter.core, hcore]

theorem resolveFilters_coupled {E : CompileError → CompileError → Prop}
    (hE : ∀ error, E error error) {model model' : Model} : ∀ filters : List Filter,
    (∀ name ∈ Filter.fieldNamesEach filters,
      Coupled E (fun field field' => field.core = field'.core)
        (visibleField model name) (visibleField model' name)) → ∀ names : List String,
    Coupled E (fun r r' => ResolvedFilter.coreEach r.1 = ResolvedFilter.coreEach r'.1 ∧ r.2 = r'.2)
      (resolveFilters model filters names) (resolveFilters model' filters names)
  | [], _, names => .ok ⟨rfl, rfl⟩
  | filter :: rest, h, names => by
    rw [resolveFilters, resolveFilters]
    refine (resolveFilter_coupled hE filter
      (fun name hn => h name (by simp [Filter.fieldNamesEach, hn])) names).bind ?_
    rintro ⟨filter₁, names₁⟩ ⟨filter₂, names₂⟩ - - ⟨hfilter, rfl⟩
    refine (resolveFilters_coupled hE rest
      (fun name hn => h name (by simp [Filter.fieldNamesEach, hn])) names₁).bind ?_
    rintro ⟨rest₁, names₂⟩ ⟨rest₂, names₃⟩ - - ⟨hrest, rfl⟩
    refine .ok ⟨?_, rfl⟩
    rw [ResolvedFilter.coreEach, ResolvedFilter.coreEach, hfilter, hrest]

end

theorem optionally_coupled {α β γ σ : Type} {E : CompileError → CompileError → Prop}
    {f f' : α → σ → Except CompileError (β × σ)} (g : β → γ) {input : Option α} (s : σ)
    (h : ∀ a, input = some a →
      Coupled E (fun r r' => g r.1 = g r'.1 ∧ r.2 = r'.2) (f a s) (f' a s)) :
    Coupled E (fun r r' => r.1.map g = r'.1.map g ∧ r.2 = r'.2) (optionally f input s)
      (optionally f' input s) := by
  cases input with
  | none => exact .ok ⟨rfl, rfl⟩
  | some a => exact (h a rfl).map fun r r' hr => ⟨by simp [hr.1], hr.2⟩

section Coupling
variable {E : CompileError → CompileError → Prop} (hE : ∀ error, E error error)
variable {model model' : Model}
include hE

theorem resolveMetricFilter_coupled {metric : Metric} {filter : MetricFilter}
    (h : SameField model model' filter.field) (names : List String) :
    Coupled E (fun r r' => (r.1.1.core, r.1.2) = (r'.1.1.core, r'.1.2) ∧ r.2 = r'.2)
      (resolveMetricFilter model metric filter names)
      (resolveMetricFilter model' metric filter names) := by
  refine ((resolveField_coupled hE h).mapError fun _ _ => hE _).bind ?_
  intro field field' _ _ hcore
  rw [validateLiteral_core hcore, recordRelationship_core hcore]
  refine (Coupled.refl hE (fun _ => trivial) _).bind (R := fun _ _ => True) ?_
  intro _ _ _ _ _
  exact .ok ⟨by rw [hcore], rfl⟩

theorem resolveMetricAnchor_coupled {metric : Metric} {anchor : String}
    (h : SameField model model' anchor) :
    Coupled E (fun field field' => field.core = field'.core)
      (resolveMetricAnchor model metric anchor) (resolveMetricAnchor model' metric anchor) := by
  refine ((resolveField_coupled hE h).mapError fun _ _ => hE _).bind ?_
  intro field field' _ _ hcore
  obtain ⟨-, -, -, hrelationship, -, hkey⟩ := Field.core_eq_core.mp hcore
  rw [hrelationship, hkey]
  refine (Coupled.ensure (hE _)).bind ?_
  intro _ _ _ _ _
  exact .ok hcore

/-- The same relationship resolves alike when its target and the entity key that it rests on are
the same. -/
theorem resolveRelationship_coupled {models models' : List Model} {name : String}
    (hfind : (model.relationships.find? fun relationship => relationship.semanticName == name) =
      model'.relationships.find? fun relationship => relationship.semanticName == name)
    (htarget : ∀ relationship, (model.relationships.find? fun relationship =>
        relationship.semanticName == name) = some relationship →
      Option.Rel (fun target target' => target.source = target'.source ∧
          (relationship.cardinality ≠ .oneToMany →
            target.fields.any (isDirectKey relationship.toColumn) =
              target'.fields.any (isDirectKey relationship.toColumn)))
        (models.find? fun target => target.semanticName == relationship.targetModel)
        (models'.find? fun target => target.semanticName == relationship.targetModel))
    (hkey : ∀ relationship, (model.relationships.find? fun relationship =>
        relationship.semanticName == name) = some relationship →
      relationship.cardinality = .oneToMany →
        model.fields.any (isDirectKey relationship.fromColumn) =
          model'.fields.any (isDirectKey relationship.fromColumn)) :
    Coupled E Eq (resolveRelationship models model name)
      (resolveRelationship models' model' name) := by
  unfold resolveRelationship
  rw [← hfind]
  refine (Coupled.refl hE (fun _ => rfl) _).bind (R := Eq) ?_
  rintro relationship _ hfound - rfl
  have hfound := orError_eq_ok.mp hfound
  refine (Coupled.ensure (hE _)).bind ?_
  intro _ _ _ _ _
  refine (Coupled.orError (hE _) (htarget relationship hfound)).bind ?_
  rintro target target' - - ⟨hsource, hto⟩
  rw [hsource]
  refine (Coupled.ensure (hE _)).bind ?_
  intro _ _ _ _ _
  cases hc : relationship.cardinality with
  | manyToMany => exact .error (hE _)
  | oneToMany =>
    simp only [hkey relationship hfound hc]
    exact Coupled.refl hE (fun _ => rfl) _
  | manyToOne =>
    simp only [hto (by simp [hc])]
    exact Coupled.refl hE (fun _ => rfl) _
  | oneToOne =>
    simp only [hto (by simp [hc])]
    exact Coupled.refl hE (fun _ => rfl) _

/-- The same metric resolves alike when its fields do. -/
theorem resolveMetric_coupled {schemaVersion : String} {reference : MetricReference}
    (hmetric : Coupled E Eq (visibleMetric model reference.metric)
      (visibleMetric model' reference.metric))
    (hfields : ∀ metric, visibleMetric model reference.metric = .ok metric →
      ∀ name ∈ metric.lookups, SameField model model' name) (names : List String) :
    Coupled E (fun r r' => r.1.core = r'.1.core ∧ r.2 = r'.2)
      (resolveMetric schemaVersion model reference names)
      (resolveMetric schemaVersion model' reference names) := by
  have hsplit : ∀ model : Model, resolveMetric schemaVersion model reference names =
      (visibleMetric model reference.metric >>= fun metric => do
        let field ← (resolveField model metric.field).mapError
          fun _ => .invalidMetricField metric.semanticName
        ensure field.relationship.isNone (.joinedMetricField metric.semanticName)
        ensure (!(metric.aggregation == .count && !field.entityKey))
          (.countRequiresEntityKey metric.semanticName)
        ensure (!(metric.aggregation == .countDistinct && !field.entityKey))
          (.countDistinctRequiresEntityKey metric.semanticName)
        ensure (metric.dataType == expectedMetricType metric.aggregation field.dataType)
          (.invalidMetricType metric.semanticName)
        let found ← optionally (resolveMetricFilter model metric) metric.filter
          (recordRelationship field names)
        ensure (!(schemaVersion == "1"
            && (metric.additivity.isSome || metric.aggregationAnchor.isSome)))
          (.invalidAggregationAnchor metric.semanticName)
        ensure (!(schemaVersion == "2" && metric.additivity.isNone))
          (.missingMetricMetadata metric.semanticName)
        let anchor ← metric.aggregationAnchor.mapM (resolveMetricAnchor model metric)
        pure ({ metric := metric, field := field, filter := found.1, aggregationAnchor := anchor },
          found.2)) := by
    intro model
    simp only [resolveMetric, visibleMetric, Model.findMetric, bind_assoc, pure_bind]
  rw [hsplit, hsplit]
  refine hmetric.bind ?_
  rintro metric _ hvisible - rfl
  have hsame := hfields metric hvisible
  refine ((resolveField_coupled hE
    (hsame _ (by simp [Metric.lookups, Metric.fieldNames]))).mapError fun _ _ => hE _).bind ?_
  intro field field' _ _ hcore
  obtain ⟨-, htype, -, hrelationship, -, hkey⟩ := Field.core_eq_core.mp hcore
  rw [hrelationship, hkey, htype, recordRelationship_core hcore]
  iterate 4
    refine (Coupled.ensure (hE _)).bind ?_
    intro _ _ _ _ _
  refine (optionally_coupled (fun entry : Field × Literal => (entry.1.core, entry.2)) _
    fun filter hfilter => resolveMetricFilter_coupled hE
      (hsame _ (by simp [Metric.lookups, Metric.fieldNames, hfilter])) _).bind ?_
  rintro ⟨filter, names₁⟩ ⟨filter', names₂⟩ - - ⟨hfilter, rfl⟩
  iterate 2
    refine (Coupled.ensure (hE _)).bind ?_
    intro _ _ _ _ _
  have hanchor : Coupled E (fun anchor anchor' => anchor.map Field.core = anchor'.map Field.core)
      (metric.aggregationAnchor.mapM (resolveMetricAnchor model metric))
      (metric.aggregationAnchor.mapM (resolveMetricAnchor model' metric)) := by
    cases hname : metric.aggregationAnchor with
    | none => exact .ok rfl
    | some name =>
      rw [Option.mapM_some, Option.mapM_some]
      exact (resolveMetricAnchor_coupled hE
        (hsame name (by simp [Metric.lookups, hname]))).map fun _ _ h => by simp [h]
  refine hanchor.bind ?_
  intro anchor anchor' _ _ ha
  refine .ok ⟨?_, rfl⟩
  simp only [ResolvedMetric.core, hcore, hfilter, ha]

end Coupling

theorem commonAnchor_core (current : Option Field) (metrics : List ResolvedMetric) :
    commonAnchor (current.map Field.core) (metrics.map ResolvedMetric.core) =
      (commonAnchor current metrics).map (Option.map Field.core) := by
  induction metrics generalizing current with
  | nil => rfl
  | cons metric rest ih =>
    simp only [List.map_cons, commonAnchor, bind_map]
    cases hanchor : metric.aggregationAnchor with
    | none => simp [ResolvedMetric.core, hanchor]
    | some anchor =>
      have hcurrent : (current.map Field.core).any
            (fun field => field.semanticName != anchor.core.semanticName) =
          current.any fun field => field.semanticName != anchor.semanticName := by
        cases current <;> rfl
      have hfilter : metric.core.filter.any (fun filter => filter.1.relationship.isSome) =
          metric.filter.any fun filter => filter.1.relationship.isSome := by
        simp only [ResolvedMetric.core]
        cases metric.filter <;> rfl
      simp only [ResolvedMetric.core, hanchor, Option.map_some, orError_some, ok_bind] at hfilter ⊢
      rw [hfilter, hcurrent, ← ih (some anchor)]
      rfl

theorem fanoutAnchor_core (relationships : List (String × Relationship))
    (metrics : List ResolvedMetric) :
    fanoutAnchor relationships (metrics.map ResolvedMetric.core) =
      (fanoutAnchor relationships metrics).map (Option.map Field.core) := by
  unfold fanoutAnchor
  cases relationships.find? fun entry => entry.2.cardinality == .oneToMany with
  | none => rfl
  | some entry =>
    simp only [bind_map, ← commonAnchor_core, Option.map_none, List.isEmpty_map]

/-! ## The two compilations -/

/-- What two snapshots must agree on for a query against one model of each. -/
structure Agrees (E : CompileError → CompileError → Prop) (query : LogicalSemanticQuery)
    (version version' : String) (models models' : List Model) (model model' : Model) : Prop where
  core : model.core = model'.core
  version : query.metrics ≠ [] → version = version'
  field : ∀ name ∈ query.dimensions.map Dimension.field ++ query.filterNames,
    Coupled E (fun field field' => field.core = field'.core) (visibleField model name)
      (visibleField model' name)
  metric : ∀ reference ∈ query.metrics,
    Coupled E Eq (visibleMetric model reference.metric) (visibleMetric model' reference.metric)
  lookup : ∀ reference ∈ query.metrics, ∀ metric,
    visibleMetric model reference.metric = .ok metric →
    ∀ name ∈ metric.lookups, SameField model model' name
  relationship : ∀ name ∈ requiredNames model query,
    Coupled E Eq (resolveRelationship models model name) (resolveRelationship models' model' name)

section Coupling
variable {E : CompileError → CompileError → Prop} (hE : ∀ error, E error error)
include hE

theorem resolveQuery_coupled {query : LogicalSemanticQuery} {version version' : String}
    {models models' : List Model} {model model' : Model}
    (h : Agrees E query version version' models models' model model') (limit : Nat) :
    Coupled E (fun validated validated' => validated.core = validated'.core)
      (resolveQuery version models model query limit)
      (resolveQuery version' models' model' query limit) := by
  have hmetric : ∀ reference ∈ query.metrics, ∀ names,
      Coupled E (fun r r' => r.1.core = r'.1.core ∧ r.2 = r'.2)
        (resolveMetric version model reference names)
        (resolveMetric version' model' reference names) := by
    intro reference hr names
    rw [h.version (List.ne_nil_of_mem hr)]
    exact resolveMetric_coupled hE (h.metric reference hr) (h.lookup reference hr) names
  have hfilter : ∀ names, Coupled E
      (fun r r' => r.1.map ResolvedFilter.core = r'.1.map ResolvedFilter.core ∧ r.2 = r'.2)
      (optionally (resolveFilter model) query.filters names)
      (optionally (resolveFilter model') query.filters names) := by
    intro names
    refine optionally_coupled ResolvedFilter.core names fun filter hsome => ?_
    refine resolveFilter_coupled hE filter (fun name hn => h.field name ?_) names
    simp [LogicalSemanticQuery.filterNames, hsome, hn]
  have hdimension : ∀ dimension ∈ query.dimensions, ∀ names,
      Coupled E (fun r r' => r.1.core = r'.1.core ∧ r.2 = r'.2)
        (resolveDimension model dimension names) (resolveDimension model' dimension names) := by
    intro dimension hd names
    refine resolveDimension_coupled hE (h.field dimension.field ?_) names
    exact List.mem_append_left _ (List.mem_map_of_mem hd)
  refine (Coupled.mapAccumM (S := fun dimension dimension' => dimension.core = dimension'.core)
    hdimension _).bind ?_
  rintro ⟨dimensions, names₁⟩ ⟨dimensions', _⟩ hdims - ⟨hdimensions', rfl⟩
  refine (Coupled.mapAccumM (S := fun metric metric' => metric.core = metric'.core) hmetric _).bind ?_
  rintro ⟨metrics, names₂⟩ ⟨metrics', _⟩ hmetrics - ⟨hmetrics', rfl⟩
  refine (hfilter names₂).bind ?_
  rintro ⟨filter, names₃⟩ ⟨filter', _⟩ hfilters - ⟨hfilter', rfl⟩
  refine (Coupled.refl hE (fun _ => trivial) _).bind (R := fun _ _ => True) ?_
  intro _ _ _ _ _
  have hnames : names₃ = requiredNames model query := resolvedNames_eq hdims hmetrics hfilters
  refine (Coupled.mapM fun name hn => h.relationship name (hnames ▸ hn)).bind ?_
  intro relationships relationships' _ _ hrelationships
  rw [List.forall₂_eq_eq_eq] at hrelationships
  subst hrelationships
  have hanchor := fanoutAnchor_core relationships metrics
  rw [map_eq_of_forall₂ hmetrics', fanoutAnchor_core] at hanchor
  refine (coupled_of_map_eq hE hanchor.symm).bind ?_
  intro anchor anchor' _ _ ha
  refine .ok ?_
  simp only [ValidatedQuery.core, h.core, map_eq_of_forall₂ hdimensions', map_eq_of_forall₂ hmetrics',
    hfilter', ha]

/-- The parts of a compiled query that do not name the revision. -/
structure SameStatement (compiled compiled' : CompiledQuery) : Prop where
  sql : compiled.sql = compiled'.sql
  parameters : compiled.parameters = compiled'.parameters
  outputSchema : compiled.outputSchema = compiled'.outputSchema
  lineage : compiled.lineage = compiled'.lineage
  sqlHash : compiled.sqlHash = compiled'.sqlHash

theorem compileLsq_coupled {backend : CompilerBackend} {normalized : NormalizedLsq}
    {snapshot snapshot' : SemanticSnapshot}
    (hchecked : checkSnapshot backend.toHashBackend snapshot = .ok ())
    (hchecked' : checkSnapshot backend.toHashBackend snapshot' = .ok ())
    (hmodel : Option.Rel (Agrees E normalized.query snapshot.schemaVersion snapshot'.schemaVersion
        snapshot.models snapshot'.models)
      (snapshot.findModel normalized.query) (snapshot'.findModel normalized.query))
    (options : CompilerOptions) :
    Coupled E SameStatement (compileLsq backend normalized snapshot options)
      (compileLsq backend normalized snapshot' options) := by
  have hvalidated : Coupled E (fun validated validated' => validated.core = validated'.core)
      (validate backend.toHashBackend normalized snapshot options)
      (validate backend.toHashBackend normalized snapshot' options) := by
    rw [validate_of_checkSnapshot hchecked, validate_of_checkSnapshot hchecked']
    refine (Coupled.ensure (hE _)).bind ?_
    intro _ _ _ _ _
    refine (Coupled.orError (hE _) hmodel).bind ?_
    intro model model' _ _ hagrees
    refine (Coupled.ensure (hE _)).bind ?_
    intro _ _ _ _ _
    exact resolveQuery_coupled hE hagrees _
  refine hvalidated.bind ?_
  intro validated validated' hv hv' hcore
  have hlower : validated.lower = validated'.lower := by
    rw [← validated.lower_core, hcore, validated'.lower_core]
  have hschema : outputSchema validated = outputSchema validated' := by
    rw [← validated.outputSchema_core, hcore, validated'.outputSchema_core]
  have hlineage : lineage validated = lineage validated' := by
    funext columns
    rw [← validated.lineage_core, hcore, validated'.lineage_core]
  rw [render, render, renderSql_eq (validate_covered hv), renderSql_eq (validate_covered hv'),
    hlower, hschema, hlineage]
  refine (Coupled.refl hE (fun _ => rfl) _).bind (R := Eq) ?_
  rintro output _ - - rfl
  refine (Coupled.refl hE (fun _ => rfl) _).bind (R := Eq) ?_
  rintro input _ - - rfl
  exact .ok ⟨rfl, rfl, rfl, rfl, rfl⟩

end Coupling

end Postgresem
