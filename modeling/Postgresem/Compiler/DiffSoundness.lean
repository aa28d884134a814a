import Postgresem.Semantic.DiffReport
import Postgresem.Compiler.Concealment
import Postgresem.Compiler.Meaning
import Postgresem.Semantic.Evaluation

/-! What a compatible diff promises to the queries of the first snapshot, and what it does not: the
changes are judged object by object, while the compiler goes from a metric to its fields, from a
relationship to the entity key it rests on, and from the metrics to the snapshot version. -/
namespace Postgresem
open Control

/-! ## What a compiled query reached -/

theorem visibleField_eq_ok {model : Model} {name : String} {field : Field} :
    visibleField model name = .ok field ↔
      model.findField name = some field ∧ field.visible = true := by
  simp only [visibleField, resolveField, bind_eq_ok, orError_eq_ok, ensure_eq_ok, exists_const,
    pure_eq_ok]
  constructor
  · rintro ⟨found, hfound, hvisible, rfl⟩
    exact ⟨hfound, hvisible⟩
  · rintro ⟨hfound, hvisible⟩
    exact ⟨field, hfound, hvisible, rfl⟩

theorem visibleMetric_eq_ok {model : Model} {name : String} {metric : Metric} :
    visibleMetric model name = .ok metric ↔
      model.findMetric name = some metric ∧ metric.visible = true := by
  simp only [visibleMetric, bind_eq_ok, orError_eq_ok, ensure_eq_ok, exists_const, pure_eq_ok]
  constructor
  · rintro ⟨found, hfound, hvisible, rfl⟩
    exact ⟨hfound, hvisible⟩
  · rintro ⟨hfound, hvisible⟩
    exact ⟨metric, hfound, hvisible, rfl⟩

mutual

theorem resolveFilter_visible (model : Model) : ∀ (filter : Filter) {names : List String}
    {result : ResolvedFilter × List String}, resolveFilter model filter names = .ok result →
    ∀ name ∈ filter.fieldNames, ∃ field, visibleField model name = .ok field
  | .and args, names, result, h => by
    simp only [resolveFilter, bind_eq_ok] at h
    obtain ⟨_, hargs, -⟩ := h
    exact resolveFilters_visible model args hargs
  | .or args, names, result, h => by
    simp only [resolveFilter, bind_eq_ok] at h
    obtain ⟨_, hargs, -⟩ := h
    exact resolveFilters_visible model args hargs
  | .not arg, names, result, h => by
    simp only [resolveFilter, bind_eq_ok] at h
    obtain ⟨_, harg, -⟩ := h
    exact resolveFilter_visible model arg harg
  | .comparison _ field _, names, result, h => by
    simp only [resolveFilter, resolveComparison, bind_eq_ok] at h
    obtain ⟨found, hfound, -⟩ := h
    simpa [Filter.fieldNames] using ⟨found, hfound⟩
  | .inList field _, names, result, h => by
    simp only [resolveFilter, bind_eq_ok] at h
    obtain ⟨found, hfound, -⟩ := h
    simpa [Filter.fieldNames] using ⟨found, hfound⟩
  | .isNull field, names, result, h | .isNotNull field, names, result, h => by
    simp only [resolveFilter, bind_eq_ok] at h
    obtain ⟨found, hfound, -⟩ := h
    simpa [Filter.fieldNames] using ⟨found, hfound⟩

theorem resolveFilters_visible (model : Model) : ∀ (filters : List Filter) {names : List String}
    {result : List ResolvedFilter × List String},
    resolveFilters model filters names = .ok result →
    ∀ name ∈ Filter.fieldNamesEach filters, ∃ field, visibleField model name = .ok field
  | [], names, result, h => by simp [Filter.fieldNamesEach]
  | filter :: rest, names, result, h => by
    simp only [resolveFilters, bind_eq_ok] at h
    obtain ⟨_, hfilter, _, hrest, -⟩ := h
    intro name hn
    rw [Filter.fieldNamesEach, List.mem_append] at hn
    rcases hn with hn | hn
    · exact resolveFilter_visible model filter hfilter name hn
    · exact resolveFilters_visible model rest hrest name hn

end

/-- What the resolution of a metric found, and what the version asked of it. -/
structure MetricReached (version : String) (model : Model) (metric : Metric) : Prop where
  found : ∀ name ∈ metric.lookups, ∃ field, model.findField name = some field
  plain : version = "1" → metric.additivity = none
  described : version = "2" → metric.additivity ≠ none

theorem resolveMetric_reached {version : String} {model : Model} {reference : MetricReference}
    {names : List String} {result : ResolvedMetric × List String}
    (h : resolveMetric version model reference names = .ok result) :
    ∃ metric, visibleMetric model reference.metric = .ok metric ∧
      MetricReached version model metric := by
  simp only [resolveMetric, bind_eq_ok, ensure_eq_ok, exists_const, mapError_eq_ok, orError_eq_ok,
    Prod.exists] at h
  obtain ⟨metric, hmetric, hvisible, field, hfield, -, -, -, -, filter, names₁, hfilter, hplain,
    hdescribed, anchor, hanchor, -⟩ := h
  refine ⟨metric, visibleMetric_eq_ok.mpr ⟨hmetric, hvisible⟩, ?_, ?_, ?_⟩
  · intro name hn
    simp only [Metric.lookups, Metric.fieldNames, List.cons_append, List.mem_cons, List.mem_append,
      Option.mem_toList, Option.map_eq_some_iff] at hn
    rcases hn with rfl | ⟨own, hown, rfl⟩ | hname
    · exact ⟨field, resolveField_ok.mp hfield⟩
    · rcases optionally_ok hfilter with ⟨hnone, -, -⟩ | ⟨input, entry, hsome, -, hentry⟩
      · rw [hnone] at hown
        cases hown
      · rw [hown, Option.some.injEq] at hsome
        subst hsome
        obtain ⟨hresolved, -⟩ := resolveMetricFilter_ok hentry
        cases hresolved with
        | present found _ => exact ⟨_, found⟩
    · rw [hname, Option.mapM_some] at hanchor
      simp only [Functor.map, map_eq_ok] at hanchor
      obtain ⟨found, hfound, -⟩ := hanchor
      exact ⟨found, (resolveMetricAnchor_ok hfound).1⟩
  · rintro rfl
    by_contra hsome
    simp [Option.isSome_iff_ne_none.mpr hsome] at hplain
  · rintro rfl hnone
    simp [hnone] at hdescribed

/-- Everything that a successful resolution looked up. -/
structure QueryReached (version : String) (models : List Model) (model : Model)
    (query : LogicalSemanticQuery) : Prop where
  field : ∀ name ∈ query.dimensions.map Dimension.field ++ query.filterNames,
    ∃ field, visibleField model name = .ok field
  metric : ∀ reference ∈ query.metrics, ∃ metric,
    visibleMetric model reference.metric = .ok metric ∧ MetricReached version model metric
  relationship : ∀ name ∈ requiredNames model query, ∃ entry,
    resolveRelationship models model name = .ok entry

theorem mapAccumM_reached {ε α β σ : Type} {f : α → σ → Except ε (β × σ)} {xs : List α} {s : σ}
    {result : List β × σ} (h : mapAccumM f xs s = .ok result) :
    ∀ x ∈ xs, ∃ s' r, f x s' = .ok r := by
  induction xs generalizing s result with
  | nil => simp
  | cons x xs ih =>
    obtain ⟨y, ys, s₁, hx, hxs, -⟩ := mapAccumM_cons_eq_ok.mp h
    intro z hz
    rcases List.mem_cons.mp hz with rfl | hz
    · exact ⟨s, _, hx⟩
    · exact ih hxs z hz

theorem resolveQuery_reached {version : String} {models : List Model} {model : Model}
    {query : LogicalSemanticQuery} {limit : Nat} {validated : ValidatedQuery}
    (h : resolveQuery version models model query limit = .ok validated) :
    QueryReached version models model query := by
  simp only [resolveQuery, bind_eq_ok, Prod.exists] at h
  obtain ⟨dimensions, names₁, hdims, metrics, names₂, hmetrics, filter, names₃, hfilter, -, -,
    relationships, hrelationships, -⟩ := h
  refine ⟨?_, ?_, ?_⟩
  · intro name hn
    rcases List.mem_append.mp hn with hn | hn
    · obtain ⟨dimension, hd, rfl⟩ := List.mem_map.mp hn
      obtain ⟨_, ⟨resolved, _⟩, hr⟩ := mapAccumM_reached hdims dimension hd
      obtain ⟨hresolved, -⟩ := resolveDimension_ok hr
      exact ⟨resolved.field, visibleField_eq_ok.mpr ⟨hresolved.found, hresolved.visible⟩⟩
    · rcases optionally_ok hfilter with ⟨hnone, -, -⟩ | ⟨input, _, hsome, -, hinput⟩
      · simp [LogicalSemanticQuery.filterNames, hnone] at hn
      · rw [LogicalSemanticQuery.filterNames, hsome] at hn
        exact resolveFilter_visible model input hinput name hn
  · intro reference hr
    obtain ⟨_, _, hmetric⟩ := mapAccumM_reached hmetrics reference hr
    exact resolveMetric_reached hmetric
  · intro name hn
    rw [← resolvedNames_eq hdims hmetrics hfilter] at hn
    obtain ⟨entry, -, hentry⟩ := exists_right_of_forall₂ (mapM_eq_ok_iff.mp hrelationships) hn
    exact ⟨entry, hentry⟩

theorem compileLsq_reached {backend : CompilerBackend} {normalized : NormalizedLsq}
    {snapshot : SemanticSnapshot} {options : CompilerOptions} {compiled : CompiledQuery}
    (h : compileLsq backend normalized snapshot options = .ok compiled) :
    ∃ model, snapshot.findModel normalized.query = some model ∧
      QueryReached snapshot.schemaVersion snapshot.models model normalized.query := by
  simp only [compileLsq, validate, validateAgainst, bind_eq_ok, ensure_eq_ok, exists_const,
    orError_eq_ok] at h
  obtain ⟨validated, ⟨-, -, -, model, hmodel, -, hquery⟩, -⟩ := h
  exact ⟨model, hmodel, resolveQuery_reached hquery⟩

/-! ## Relationships and their keys -/

/-- The entity key that a relationship rests on: the own one of a one-to-many relationship, that
of the target otherwise. -/
def keyPresent (models : List Model) (model : Model) (relationship : Relationship) : Bool :=
  match relationship.cardinality with
  | .oneToMany => model.fields.any (isDirectKey relationship.fromColumn)
  | _ => (models.find? fun target => target.semanticName == relationship.targetModel).all
      fun target => target.fields.any (isDirectKey relationship.toColumn)

theorem resolveRelationship_eq_ok {models : List Model} {model : Model} {name : String}
    {entry : String × Relationship} :
    resolveRelationship models model name = .ok entry ↔
      entry.1 = name ∧ RelationshipResolved models model entry ∧
        keyPresent models model entry.2 = true := by
  constructor
  · intro h
    obtain ⟨hname, hresolved⟩ := resolveRelationship_ok h
    refine ⟨hname, hresolved, ?_⟩
    obtain ⟨target, htarget, hsource⟩ := hresolved.target
    have hsafe := hresolved.safe
    have hrelationship := hresolved.found
    rw [hname] at hrelationship
    rw [resolveRelationship, hrelationship, orError_some, ok_bind] at h
    simp only [htarget, orError_some, ok_bind, bind_eq_ok, ensure_eq_ok, exists_const] at h
    obtain ⟨-, -, hkeys⟩ := h
    unfold keyPresent
    cases hc : entry.2.cardinality with
    | manyToMany => exact absurd hc hsafe
    | oneToMany =>
      simp only [hc, bind_eq_ok, ensure_eq_ok, exists_const] at hkeys
      exact hkeys.1
    | manyToOne | oneToOne =>
      simp only [hc, bind_eq_ok, ensure_eq_ok, exists_const] at hkeys
      simp only [htarget, Option.all_some]
      exact hkeys.1
  · rintro ⟨rfl, hresolved, hkey⟩
    obtain ⟨target, htarget, hsource⟩ := hresolved.target
    have hsafe : (entry.2.cardinality != .manyToMany) = true := by simpa using hresolved.safe
    have hmatch : (target.source == entry.2.target) = true := by simpa using hsource
    have hentry : (entry.2.semanticName, entry.2) = entry := by rw [hresolved.name]
    rw [resolveRelationship, hresolved.found]
    simp only [orError_some, ok_bind, hsafe, ensure_true, htarget, hmatch]
    unfold keyPresent at hkey
    cases hc : entry.2.cardinality with
    | manyToMany => exact absurd hc hresolved.safe
    | oneToMany =>
      simp only [hc] at hkey
      simp only [hkey, ensure_true, ok_bind, hentry]
      rfl
    | manyToOne | oneToOne =>
      simp only [hc, htarget, Option.all_some] at hkey
      simp only [hkey, ensure_true, ok_bind, hentry]
      rfl

theorem requiredNames_congr {model model' : Model} {query : LogicalSemanticQuery}
    (hfield : ∀ name ∈ query.dimensions.map Dimension.field ++ query.filterNames,
      SameField model model' name)
    (hmetric : ∀ reference ∈ query.metrics,
      model.findMetric reference.metric = model'.findMetric reference.metric)
    (hlookup : ∀ reference ∈ query.metrics, ∀ metric,
      model.findMetric reference.metric = some metric →
      ∀ name ∈ metric.lookups, SameField model model' name) :
    requiredNames model query = requiredNames model' query := by
  have hrelationship : ∀ names : List String, (∀ name ∈ names, SameField model model' name) →
      (names.filterMap model.findField).filterMap Field.relationship =
        (names.filterMap model'.findField).filterMap Field.relationship := by
    intro names hsame
    rw [List.filterMap_filterMap, List.filterMap_filterMap]
    refine List.filterMap_congr fun name hn => ?_
    have hcore := congrArg (fun found => Option.bind found Field.relationship) (hsame name hn)
    simp only [Option.bind_map] at hcore
    exact hcore
  have hmetrics : (query.metrics.map MetricReference.metric).filterMap model.findMetric =
      (query.metrics.map MetricReference.metric).filterMap model'.findMetric := by
    refine List.filterMap_congr fun name hn => ?_
    obtain ⟨reference, hr, rfl⟩ := List.mem_map.mp hn
    exact hmetric reference hr
  have hfields : (metricFieldsOf model query).filterMap Field.relationship =
      (metricFieldsOf model' query).filterMap Field.relationship := by
    rw [metricFieldsOf, metricFieldsOf, List.filterMap_flatMap, List.filterMap_flatMap, ← hmetrics]
    refine List.flatMap_congr fun metric hm => hrelationship _ fun name hn => ?_
    obtain ⟨_, hname, hfound⟩ := List.mem_filterMap.mp hm
    obtain ⟨reference, hr, rfl⟩ := List.mem_map.mp hname
    exact hlookup reference hr metric hfound name (List.mem_append_left _ hn)
  rw [requiredNames, requiredNames, requiredFields, requiredFields, List.filterMap_append,
    List.filterMap_append, List.filterMap_append, List.filterMap_append, hfields, dimensionFieldsOf,
    dimensionFieldsOf, filterFieldsOf, filterFieldsOf,
    hrelationship _ fun name hn => hfield name (List.mem_append_left _ hn),
    hrelationship _ fun name hn => hfield name (List.mem_append_right _ hn)]

/-! ## A kept model -/

section Kept
variable {model model' : Model} (hkept : ModelKept model model')
include hkept

theorem ModelKept.visibleField {name : String} {field : Field}
    (h : visibleField model name = .ok field) : visibleField model' name = .ok field := by
  obtain ⟨hfound, hvisible⟩ := visibleField_eq_ok.mp h
  obtain ⟨hmem, hname⟩ := findField_some hfound
  have hk := hkept.fields field hmem
  rw [hname] at hk
  cases hother : model'.fields.find? fun other => other.semanticName == name with
  | none =>
    rw [hother] at hk
    simp [hvisible] at hk
  | some other =>
    rw [hother] at hk
    rcases hk with rfl | hcompatible
    · exact visibleField_eq_ok.mpr ⟨hother, hvisible⟩
    · simp [fieldCompatibility, hvisible] at hcompatible

theorem ModelKept.visibleMetric {name : String} {metric : Metric}
    (h : visibleMetric model name = .ok metric) : visibleMetric model' name = .ok metric := by
  obtain ⟨hfound, hvisible⟩ := visibleMetric_eq_ok.mp h
  have hk := hkept.metrics metric (List.mem_of_find?_eq_some hfound)
  rw [findMetric_name hfound] at hk
  cases hother : model'.metrics.find? fun other => other.semanticName == name with
  | none =>
    rw [hother] at hk
    simp [hvisible] at hk
  | some other =>
    rw [hother] at hk
    rcases hk with rfl | hcompatible
    · exact visibleMetric_eq_ok.mpr ⟨hother, hvisible⟩
    · simp [metricCompatibility, hvisible] at hcompatible

/-- A field that is still there is the same up to its visibility. -/
theorem ModelKept.sameField {name : String} {field field' : Field}
    (h : model.findField name = some field) (h' : model'.findField name = some field') :
    field.core = field'.core := by
  obtain ⟨hmem, hname⟩ := findField_some h
  have hk := hkept.fields field hmem
  have hother : (model'.fields.find? fun other => other.semanticName == field.semanticName) =
      some field' := by
    rw [hname]
    exact h'
  rw [hother] at hk
  rcases hk with rfl | hcompatible
  · rfl
  · simp only [fieldCompatibility, Bool.and_eq_true, beq_iff_eq, Bool.not_eq_true', ite_eq_left_iff,
      reduceCtorEq, imp_false, not_not] at hcompatible
    obtain ⟨⟨⟨⟨⟨⟨-, -⟩, htype⟩, hcolumn⟩, hrelationship⟩, htime⟩, hkey⟩ := hcompatible
    exact Field.core_eq_core.mpr
      ⟨hname.trans (findField_some h').2.symm, htype, hcolumn, hrelationship, htime, hkey⟩

theorem ModelKept.relationship {name : String} {relationship : Relationship}
    (h : model.findRelationship name = some relationship) :
    model'.findRelationship name = some relationship := by
  have hk := hkept.relationships relationship (List.mem_of_find?_eq_some h)
  have hname : relationship.semanticName = name := by simpa using List.find?_some h
  rw [hname] at hk
  unfold Model.findRelationship
  cases hother : model'.relationships.find? fun other => other.semanticName == name with
  | none =>
    rw [hother] at hk
    cases hk
  | some other =>
    rw [hother] at hk
    rcases hk with rfl | hcompatible
    · rfl
    · cases hcompatible

end Kept

/-! ## Soundness of the diff -/

/-- What the queries of the first snapshot need of the second, beyond what a compatible diff
promises: the version when there are metrics, the fields of these metrics even where they were
hidden, and the entity keys of the relationships. -/
structure DependenciesKept (before after : SemanticSnapshot) (query : LogicalSemanticQuery) :
    Prop where
  version : query.metrics ≠ [] → before.schemaVersion = after.schemaVersion
  fields : ∀ model ∈ before.findModel query, ∀ model' ∈ after.findModel query,
    ∀ metric ∈ queryMetrics model query, ∀ name ∈ metric.lookups,
      name ∈ model'.fields.map Field.semanticName
  keys : ∀ model ∈ before.findModel query, ∀ model' ∈ after.findModel query,
    ∀ relationship ∈ requiredRelationships model query,
      keyPresent after.models model' relationship = true

section Compatible
variable {before after : SemanticSnapshot} {diff : SemanticDiff}
  (hdiff : diffSnapshots before after = .ok diff) (hcompatible : diff.compatibility = .compatible)
include hdiff hcompatible

theorem findModel_kept {query : LogicalSemanticQuery} {model : Model}
    (h : before.findModel query = some model) :
    ∃ model', after.findModel query = some model' ∧ model'.semanticName = model.semanticName ∧
      ModelKept model model' := by
  obtain ⟨-, hunique, hall⟩ := diffSnapshots_compatible hdiff hcompatible
  have hnamed := List.find?_some h
  rw [Bool.and_eq_true, beq_iff_eq] at hnamed
  obtain ⟨model', hm', hname, hkept⟩ := hall model (List.mem_of_find?_eq_some h)
  refine ⟨model', ?_, hname, hkept⟩
  refine (Named.find?_unique hunique.models (n := query.model) ?_).mpr ⟨hm', ?_⟩
  · intro other ho
    rw [Bool.and_eq_true, beq_iff_eq] at ho
    exact ho.1
  · rw [hname, hnamed.1, hkept.queryable hnamed.2, beq_self_eq_true, Bool.and_self]

theorem findTarget_kept {name : String} {target : Model}
    (h : before.models.find? (fun target => target.semanticName == name) = some target) :
    ∃ target', after.models.find? (fun target => target.semanticName == name) = some target' ∧
      target.source = target'.source := by
  obtain ⟨hunique, hunique', hall⟩ := diffSnapshots_compatible hdiff hcompatible
  obtain ⟨hmem, rfl⟩ := (Named.find?_eq_some_iff hunique.models).mp h
  obtain ⟨target', hm', hname, hkept⟩ := hall target hmem
  exact ⟨target', (Named.find?_eq_some_iff hunique'.models).mpr ⟨hm', hname⟩, hkept.source⟩

theorem resolveRelationship_kept {model model' : Model} (hkept : ModelKept model model')
    {name : String} {entry : String × Relationship}
    (h : resolveRelationship before.models model name = .ok entry) :
    resolveRelationship after.models model' name = .ok entry ↔
      keyPresent after.models model' entry.2 = true := by
  obtain ⟨hname, hresolved, -⟩ := resolveRelationship_eq_ok.mp h
  obtain ⟨target, htarget, hsource⟩ := hresolved.target
  obtain ⟨target', htarget', hsame⟩ := findTarget_kept hdiff hcompatible htarget
  have hresolved' : RelationshipResolved after.models model' entry :=
    ⟨hkept.relationship hresolved.found, hresolved.safe, target', htarget', hsame ▸ hsource⟩
  rw [resolveRelationship_eq_ok]
  exact ⟨fun hok => hok.2.2, fun hkey => ⟨hname, hresolved', hkey⟩⟩

omit hdiff hcompatible in
theorem mem_requiredRelationships {model : Model} {query : LogicalSemanticQuery}
    {relationship : Relationship} : relationship ∈ requiredRelationships model query ↔
      ∃ name ∈ requiredNames model query, model.findRelationship name = some relationship := by
  simp only [requiredRelationships, requiredNames, List.mem_filterMap (f := model.findRelationship),
    OrderedSet.mem_insertAll, List.not_mem_nil, or_false]

/-- The second snapshot answers every lookup of the query as the first does. -/
theorem DependenciesKept.agrees {query : LogicalSemanticQuery}
    (hkept : DependenciesKept before after query) {model model' : Model}
    (hmodel : before.findModel query = some model) (hmodel' : after.findModel query = some model')
    (hname : model'.semanticName = model.semanticName) (hm : ModelKept model model')
    (hreached : QueryReached before.schemaVersion before.models model query) :
    Agrees Eq query before.schemaVersion after.schemaVersion before.models after.models model
      model' where
  core := by simp only [Model.core, hname, hm.source, hm.timezone]
  version := hkept.version
  field := by
    intro name hn
    obtain ⟨field, hfield⟩ := hreached.field name hn
    exact .of_ok hfield (hm.visibleField hfield) rfl
  metric := by
    intro reference hr
    obtain ⟨metric, hmetric, -⟩ := hreached.metric reference hr
    exact .of_ok hmetric (hm.visibleMetric hmetric) rfl
  lookup := by
    intro reference hr metric hmetric name hn
    obtain ⟨_, hfound, hmetricReached⟩ := hreached.metric reference hr
    rw [hmetric, Except.ok.injEq] at hfound
    subst hfound
    have hmem : metric ∈ queryMetrics model query := List.mem_filterMap.mpr
      ⟨reference.metric, List.mem_map_of_mem hr, (visibleMetric_eq_ok.mp hmetric).1⟩
    obtain ⟨field, hfield⟩ := hmetricReached.found name hn
    have hpresent := hkept.fields model hmodel model' hmodel' metric hmem name hn
    obtain ⟨other, ho, hother⟩ := List.mem_map.mp hpresent
    cases hfield' : model'.findField name with
    | none =>
      have hnone := List.find?_eq_none.mp hfield' other ho
      simp [hother] at hnone
    | some field' => rw [SameField, hfield, hfield', Option.map_some, Option.map_some,
        hm.sameField hfield hfield']
  relationship := by
    intro name hn
    obtain ⟨entry, hentry⟩ := hreached.relationship name hn
    have hresolved := resolveRelationship_eq_ok.mp hentry
    have hkey := hkept.keys model hmodel model' hmodel' entry.2
      (mem_requiredRelationships.mpr ⟨name, hn, hresolved.1 ▸ hresolved.2.1.found⟩)
    exact .of_ok hentry ((resolveRelationship_kept hdiff hcompatible hm hentry).mpr hkey) rfl

omit hdiff hcompatible in
/-- A query that compiles on both snapshots shows that the second kept what it needs. -/
theorem dependenciesKept_of_reached {query : LogicalSemanticQuery} {model model' : Model}
    (hversion : before.schemaVersion = "1" ∨ before.schemaVersion = "2")
    (hversion' : after.schemaVersion = "1" ∨ after.schemaVersion = "2")
    (hmodel : before.findModel query = some model) (hmodel' : after.findModel query = some model')
    (hm : ModelKept model model')
    (hreached : QueryReached before.schemaVersion before.models model query)
    (hreached' : QueryReached after.schemaVersion after.models model' query) :
    DependenciesKept before after query := by
  have hsame : ∀ reference ∈ query.metrics, ∃ metric,
      visibleMetric model reference.metric = .ok metric ∧
        visibleMetric model' reference.metric = .ok metric ∧
        MetricReached before.schemaVersion model metric ∧
        MetricReached after.schemaVersion model' metric := by
    intro reference hr
    obtain ⟨metric, hmetric, hfound⟩ := hreached.metric reference hr
    obtain ⟨metric', hmetric', hfound'⟩ := hreached'.metric reference hr
    have hkept := hm.visibleMetric hmetric
    rw [hmetric', Except.ok.injEq] at hkept
    subst hkept
    exact ⟨metric', hmetric, hmetric', hfound, hfound'⟩
  have hlookup : ∀ reference ∈ query.metrics, ∀ metric,
      model.findMetric reference.metric = some metric → ∀ name ∈ metric.lookups,
        SameField model model' name ∧ ∃ field, model'.findField name = some field := by
    intro reference hr metric hmetric name hn
    obtain ⟨_, hvisible, -, hfound, hfound'⟩ := hsame reference hr
    rw [(visibleMetric_eq_ok.mp hvisible).1, Option.some.injEq] at hmetric
    subst hmetric
    obtain ⟨field, hfield⟩ := hfound.found name hn
    obtain ⟨field', hfield'⟩ := hfound'.found name hn
    refine ⟨?_, field', hfield'⟩
    rw [SameField, hfield, hfield', Option.map_some, Option.map_some, hm.sameField hfield hfield']
  have hnames : requiredNames model query = requiredNames model' query := by
    refine requiredNames_congr ?_ ?_ fun reference hr metric hmetric name hn =>
      (hlookup reference hr metric hmetric name hn).1
    · intro name hn
      obtain ⟨field, hfield⟩ := hreached.field name hn
      have hfield' := hm.visibleField hfield
      rw [SameField, (visibleField_eq_ok.mp hfield).1, (visibleField_eq_ok.mp hfield').1]
    · intro reference hr
      obtain ⟨metric, hmetric, hmetric', -⟩ := hsame reference hr
      rw [(visibleMetric_eq_ok.mp hmetric).1, (visibleMetric_eq_ok.mp hmetric').1]
  refine ⟨?_, ?_, ?_⟩
  · intro hne
    obtain ⟨reference, hr⟩ := List.exists_mem_of_ne_nil _ hne
    obtain ⟨metric, -, -, hfound, hfound'⟩ := hsame reference hr
    rcases hversion with hv | hv <;> rcases hversion' with hv' | hv'
    · rw [hv, hv']
    · exact absurd (hfound.plain hv) (hfound'.described hv')
    · exact absurd (hfound'.plain hv') (hfound.described hv)
    · rw [hv, hv']
  · intro model₁ h₁ model₂ h₂ metric hmem name hn
    rw [Option.mem_def, hmodel, Option.some.injEq] at h₁
    rw [Option.mem_def, hmodel', Option.some.injEq] at h₂
    subst h₁ h₂
    obtain ⟨_, hreference, hfound⟩ := List.mem_filterMap.mp hmem
    obtain ⟨reference, hr, rfl⟩ := List.mem_map.mp hreference
    obtain ⟨-, field, hfield⟩ := hlookup reference hr metric hfound name hn
    obtain ⟨hfields, hname⟩ := findField_some hfield
    exact List.mem_map.mpr ⟨field, hfields, hname⟩
  · intro model₁ h₁ model₂ h₂ relationship hrelationship
    rw [Option.mem_def, hmodel, Option.some.injEq] at h₁
    rw [Option.mem_def, hmodel', Option.some.injEq] at h₂
    subst h₁ h₂
    obtain ⟨name, hn, hfound⟩ := mem_requiredRelationships.mp hrelationship
    obtain ⟨entry, hentry⟩ := hreached'.relationship name (hnames ▸ hn)
    obtain ⟨rfl, hresolved, hkey⟩ := resolveRelationship_eq_ok.mp hentry
    have hsame : entry.2 = relationship :=
      Option.some.inj (hresolved.found.symm.trans (hm.relationship hfound))
    rw [← hsame]
    exact hkey

end Compatible

theorem checkSnapshot_version {backend : HashBackend} {snapshot : SemanticSnapshot}
    (h : checkSnapshot backend snapshot = .ok ()) :
    snapshot.schemaVersion = "1" ∨ snapshot.schemaVersion = "2" := by
  simp only [checkSnapshot, bind_eq_ok, ensure_eq_ok, exists_const] at h
  simpa using h.1

/-- A query that compiles on the first snapshot compiles to the same statement on the second, after
a compatible diff, exactly when the second kept what the query depends on. -/
theorem compatible_diff_sound_iff {backend : CompilerBackend} {before after : SemanticSnapshot}
    {diff : SemanticDiff} (hbefore : checkSnapshot backend.toHashBackend before = .ok ())
    (hafter : checkSnapshot backend.toHashBackend after = .ok ())
    (hdiff : diffSnapshots before after = .ok diff)
    (hcompatible : diff.compatibility = .compatible) {normalized : NormalizedLsq}
    {options : CompilerOptions} {compiled : CompiledQuery}
    (hcompiled : compileLsq backend normalized before options = .ok compiled) :
    (∃ compiled', compileLsq backend normalized after options = .ok compiled' ∧
        compiled'.sql = compiled.sql ∧ compiled'.parameters = compiled.parameters ∧
        compiled'.outputSchema = compiled.outputSchema) ↔
      DependenciesKept before after normalized.query := by
  obtain ⟨model, hmodel, hreached⟩ := compileLsq_reached hcompiled
  obtain ⟨model', hmodel', hname, hm⟩ := findModel_kept hdiff hcompatible hmodel
  constructor
  · rintro ⟨compiled', hcompiled', -⟩
    obtain ⟨_, hfound, hreached'⟩ := compileLsq_reached hcompiled'
    rw [hmodel', Option.some.injEq] at hfound
    subst hfound
    exact dependenciesKept_of_reached (checkSnapshot_version hbefore)
      (checkSnapshot_version hafter) hmodel hmodel' hm hreached hreached'
  · intro hkept
    have hagrees := hkept.agrees hdiff hcompatible hmodel hmodel' hname hm hreached
    have hmodels : Option.Rel (Agrees Eq normalized.query before.schemaVersion after.schemaVersion
        before.models after.models) (before.findModel normalized.query)
        (after.findModel normalized.query) := by
      rw [hmodel, hmodel']
      exact .some hagrees
    obtain ⟨compiled', hcompiled', hsame⟩ :=
      (compileLsq_coupled (fun _ => rfl) hbefore hafter hmodels options).exists_ok hcompiled
    exact ⟨compiled', hcompiled', hsame.sql.symm, hsame.parameters.symm, hsame.outputSchema.symm⟩

def keylessModel : Model :=
  { ordersModel with
    fields := [{ semanticName := "status", dataType := .text, column := "status" }] }

def hiddenKeyModel : Model :=
  { keylessModel with
    fields := { semanticName := "id", dataType := .integer, column := "id", entityKey := true,
                visible := false } :: keylessModel.fields }

def hiddenKeySnapshot : SemanticSnapshot :=
  { schemaVersion := "1"
    revisionHash := "sha256:2310e7fd94d1e234f3bf3b726236d9d4bc7eedd06b6e5e56cf123b8ea8f08f2a"
    models := [hiddenKeyModel] }

def keylessSnapshot : SemanticSnapshot :=
  { schemaVersion := "1"
    revisionHash := "sha256:5d629a6973b30ceaafcd2a50403cad486ce294fc4ffa541f500813aea5cd9d82"
    models := [keylessModel] }

theorem hiddenKeySnapshot_checked :
    checkSnapshot standardBackend.toHashBackend hiddenKeySnapshot = .ok () := by
  apply checkSnapshot_of_published (by decide)
  apply published_of_codes
  decide +kernel

theorem keylessSnapshot_checked :
    checkSnapshot standardBackend.toHashBackend keylessSnapshot = .ok () := by
  apply checkSnapshot_of_published (by decide)
  apply published_of_codes
  decide +kernel

theorem hidden_key_removal_compatible : ∃ diff,
    diffSnapshots hiddenKeySnapshot keylessSnapshot = .ok diff ∧
      diff.compatibility = .compatible := by
  have h : succeedsWith (diffSnapshots hiddenKeySnapshot keylessSnapshot)
      (fun diff => decide (diff.compatibility = .compatible)) = true := by decide +kernel
  obtain ⟨diff, hdiff, hcompatible⟩ := exists_ok_of_succeedsWith h
  exact ⟨diff, hdiff, of_decide_eq_true hcompatible⟩

def ordersByStatus : NormalizedLsq :=
  LogicalSemanticQuery.normalize standardHash
    { model := "orders", dimensions := [{ field := "status" }] } (by decide)

def orderCount : NormalizedLsq :=
  LogicalSemanticQuery.normalize standardHash
    { model := "orders", metrics := [{ metric := "count" }] } (by decide)

/-- A query without metrics does not miss the key. -/
theorem compatible_diff_sound_by_status :
    ∃ diff compiled, diffSnapshots hiddenKeySnapshot keylessSnapshot = .ok diff ∧
      diff.compatibility = .compatible ∧
      compileLsq standardBackend ordersByStatus hiddenKeySnapshot {} = .ok compiled ∧
      ∃ compiled', compileLsq standardBackend ordersByStatus keylessSnapshot {} = .ok compiled' ∧
        compiled'.sql = compiled.sql ∧ compiled'.parameters = compiled.parameters ∧
        compiled'.outputSchema = compiled.outputSchema := by
  obtain ⟨diff, hdiff, hcompatible⟩ := hidden_key_removal_compatible
  have hlower : succeedsWith (validateAgainst ordersByStatus hiddenKeySnapshot {} >>=
      ValidatedQuery.lower) (fun _ => true) = true := by decide +kernel
  obtain ⟨_, hstatement, -⟩ := exists_ok_of_succeedsWith hlower
  obtain ⟨compiled, hcompiled, -⟩ := compileLsq_standard hiddenKeySnapshot_checked hstatement
  have hkept : DependenciesKept hiddenKeySnapshot keylessSnapshot ordersByStatus.query :=
    ⟨by decide, by decide +kernel, by decide +kernel⟩
  exact ⟨diff, compiled, hdiff, hcompatible, hcompiled,
    (compatible_diff_sound_iff hiddenKeySnapshot_checked keylessSnapshot_checked hdiff hcompatible
      hcompiled).mpr hkept⟩

/-- The key that the visible count rests on was hidden, so its removal counts as compatible; the
query for the count does not compile any more. -/
theorem hidden_key_removal_breaks_count :
    ∃ diff compiled, diffSnapshots hiddenKeySnapshot keylessSnapshot = .ok diff ∧
      diff.compatibility = .compatible ∧
      compileLsq standardBackend orderCount hiddenKeySnapshot {} = .ok compiled ∧
      compileLsq standardBackend orderCount keylessSnapshot {} =
        .error (.invalidMetricField "count") := by
  obtain ⟨diff, hdiff, hcompatible⟩ := hidden_key_removal_compatible
  have hlower : succeedsWith (validateAgainst orderCount hiddenKeySnapshot {} >>=
      ValidatedQuery.lower) (fun _ => true) = true := by decide +kernel
  obtain ⟨_, hstatement, -⟩ := exists_ok_of_succeedsWith hlower
  obtain ⟨compiled, hcompiled, -⟩ := compileLsq_standard hiddenKeySnapshot_checked hstatement
  refine ⟨diff, compiled, hdiff, hcompatible, hcompiled, ?_⟩
  rw [compileLsq, validate_of_checkSnapshot keylessSnapshot_checked]
  rfl

end Postgresem
