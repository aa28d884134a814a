import Postgresem.Foundation.Named
import Postgresem.Compiler.Agreement
import Postgresem.Query.Normalize
import Postgresem.Semantic.Evaluation

/-! What a caller can tell about objects that a snapshot conceals. An error reaches the caller as
a code and a public message; a hidden object answers as an absent one does. -/
namespace Postgresem
open Control Named

def CompileError.code : CompileError → String
  | .unsupportedSnapshotVersion _ => "SEMANTIC_UNSUPPORTED_SNAPSHOT_VERSION"
  | .invalidRevisionHash => "SEMANTIC_INVALID_REVISION_HASH"
  | .unknownModel => "SEMANTIC_MODEL_NOT_AVAILABLE"
  | .unknownField _ => "SEMANTIC_FIELD_NOT_AVAILABLE"
  | .unknownMetric _ => "SEMANTIC_METRIC_NOT_AVAILABLE"
  | .hiddenField _ => "SEMANTIC_FIELD_NOT_AVAILABLE"
  | .hiddenMetric _ => "SEMANTIC_METRIC_NOT_AVAILABLE"
  | .invalidTimeGrain _ => "SEMANTIC_INVALID_TIME_GRAIN"
  | .literalTypeMismatch _ => "SEMANTIC_LITERAL_TYPE_MISMATCH"
  | .unknownOrderReference _ => "SEMANTIC_ORDER_REFERENCE_NOT_PROJECTED"
  | .unknownRelationship _ => "SEMANTIC_RELATIONSHIP_NOT_AVAILABLE"
  | .unsafeRelationship _ => "SEMANTIC_UNSAFE_RELATIONSHIP"
  | .missingMetricMetadata _ => "SEMANTIC_MISSING_METRIC_METADATA"
  | .invalidAggregationAnchor _ => "SEMANTIC_INVALID_AGGREGATION_ANCHOR"
  | .missingAggregationAnchor _ => "SEMANTIC_MISSING_AGGREGATION_ANCHOR"
  | .mixedAggregationAnchors => "SEMANTIC_MIXED_AGGREGATION_ANCHORS"
  | .joinedMetricFilter _ => "SEMANTIC_JOINED_METRIC_FILTER"
  | .unsupportedFanoutAdditivity _ => "SEMANTIC_UNSUPPORTED_FANOUT_ADDITIVITY"
  | .invalidMetricField _ => "SEMANTIC_INVALID_METRIC_FIELD"
  | .joinedMetricField _ => "SEMANTIC_JOINED_METRIC_FIELD"
  | .countDistinctRequiresEntityKey _ => "SEMANTIC_COUNT_DISTINCT_REQUIRES_ENTITY_KEY"
  | .countRequiresEntityKey _ => "SEMANTIC_COUNT_REQUIRES_ENTITY_KEY"
  | .invalidMetricType _ => "SEMANTIC_INVALID_METRIC_TYPE"
  | .invalidRelationshipTarget _ => "SEMANTIC_INVALID_RELATIONSHIP_TARGET"
  | .relationshipTargetNotEntityKey _ => "SEMANTIC_RELATIONSHIP_TARGET_NOT_ENTITY_KEY"
  | .missingTimezone _ => "SEMANTIC_MISSING_TIMEZONE"
  | .hashSerialization => "COMPILER_HASH_SERIALIZATION_FAILED"
  | .invalidLimitConfiguration => "COMPILER_INVALID_LIMIT_CONFIGURATION"
  | .limitExceeded => "COMPILER_LIMIT_EXCEEDED"

def publicCompileMessage : CompileError → String
  | .unknownModel => "semantic model is not available"
  | .unknownField _ | .hiddenField _ => "semantic field is not available"
  | .unknownMetric _ | .hiddenMetric _ => "semantic metric is not available"
  | .unknownRelationship _ => "semantic relationship is not available"
  | .invalidTimeGrain _ => "time grain is not valid for the semantic field"
  | .literalTypeMismatch _ => "literal type is not compatible with the semantic field"
  | .unknownOrderReference _ => "order reference is not a projected semantic output"
  | .limitExceeded => "query limit exceeds the configured maximum"
  | _ => "semantic query is not valid for the current revision"

/-- Two errors that look the same to the caller. -/
def SamePublicError (error error' : CompileError) : Prop :=
  error.code = error'.code ∧ publicCompileMessage error = publicCompileMessage error'

/-! ## Snapshots that differ by concealed objects -/

/-- The fields that only one of the two models has. -/
def ownFields (model model' : Model) : List Field :=
  own Field.semanticName model.fields model'.fields
    ++ own Field.semanticName model'.fields model.fields

def ownModels (snapshot snapshot' : SemanticSnapshot) : List Model :=
  own Model.semanticName snapshot.models snapshot'.models
    ++ own Model.semanticName snapshot'.models snapshot.models

/-- One model in two snapshots: all that only one of them has is hidden. -/
structure ModelConceals (model model' : Model) : Prop where
  rest : { model with fields := [], metrics := [] } = { model' with fields := [], metrics := [] }
  fields : Overlaps Field.semanticName (fun field => field.visible = false) Eq
    model.fields model'.fields
  metrics : Overlaps Metric.semanticName (fun metric => metric.visible = false) Eq
    model.metrics model'.metrics

structure Conceals (snapshot snapshot' : SemanticSnapshot) : Prop where
  version : snapshot.schemaVersion = snapshot'.schemaVersion
  models : Overlaps Model.semanticName (fun model => model.queryable = false) ModelConceals
    snapshot.models snapshot'.models

/-- The models that both snapshots have, side by side. -/
def remaining (snapshot snapshot' : SemanticSnapshot) : List (Model × Model) :=
  (shared Model.semanticName snapshot.models snapshot'.models).zip
    (shared Model.semanticName snapshot'.models snapshot.models)

/-- Nothing that remains refers to an object that only one snapshot has: no visible metric by its
field, filter or anchor, and no relationship by its target or by the entity key it rests on. -/
structure Unreferenced (snapshot snapshot' : SemanticSnapshot) : Prop where
  metrics : ∀ pair ∈ remaining snapshot snapshot', ∀ metric ∈ pair.1.metrics,
    metric.visible = true → ∀ name ∈ metric.lookups,
      name ∉ (ownFields pair.1 pair.2).map Field.semanticName
  targets : ∀ pair ∈ remaining snapshot snapshot', ∀ relationship ∈ pair.1.relationships,
    relationship.targetModel ∉ (ownModels snapshot snapshot').map Model.semanticName
  fromKeys : ∀ pair ∈ remaining snapshot snapshot', ∀ relationship ∈ pair.1.relationships,
    relationship.cardinality = .oneToMany →
    ∀ field ∈ ownFields pair.1 pair.2, isDirectKey relationship.fromColumn field = false
  toKeys : ∀ pair ∈ remaining snapshot snapshot', ∀ relationship ∈ pair.1.relationships,
    relationship.cardinality ≠ .oneToMany → ∀ target ∈ remaining snapshot snapshot',
    target.1.semanticName = relationship.targetModel →
    ∀ field ∈ ownFields target.1 target.2, isDirectKey relationship.toColumn field = false

theorem samePublicError_refl (error : CompileError) : SamePublicError error error := ⟨rfl, rfl⟩

section Model
variable {model model' : Model} (h : ModelConceals model model')
include h

theorem ModelConceals.core_eq : model.core = model'.core := by
  have hrest := h.rest
  simp only [Model.mk.injEq] at hrest
  simp only [Model.core, hrest.1, hrest.2.1, hrest.2.2.1]

theorem ModelConceals.visibleField (name : String) :
    Coupled SamePublicError (fun field field' => field.core = field'.core)
      (visibleField model name) (visibleField model' name) := by
  unfold Postgresem.visibleField resolveField
  rcases h.fields.find?_name (fun _ _ hf => by rw [hf]) name with
    hrel | ⟨field, hhidden, hfound, habsent⟩ | ⟨field, hhidden, habsent, hfound⟩
  · refine (Coupled.orError (samePublicError_refl _) hrel).bind ?_
    rintro field _ - - rfl
    exact (Coupled.refl samePublicError_refl (fun _ => rfl) _).mono fun _ _ hf => by rw [hf]
  · rw [hfound, habsent, orError_some, orError_none, ok_bind, error_bind, hhidden, ensure_false]
    exact .error ⟨rfl, rfl⟩
  · rw [hfound, habsent, orError_some, orError_none, ok_bind, error_bind, hhidden, ensure_false]
    exact .error ⟨rfl, rfl⟩

theorem ModelConceals.visibleMetric (name : String) :
    Coupled SamePublicError Eq (visibleMetric model name) (visibleMetric model' name) := by
  unfold Postgresem.visibleMetric Model.findMetric
  rcases h.metrics.find?_name (fun _ _ hf => by rw [hf]) name with
    hrel | ⟨metric, hhidden, hfound, habsent⟩ | ⟨metric, hhidden, habsent, hfound⟩
  · refine (Coupled.orError (samePublicError_refl _) hrel).bind ?_
    rintro metric _ - - rfl
    exact Coupled.refl samePublicError_refl (fun _ => rfl) _
  · rw [hfound, habsent, orError_some, orError_none, ok_bind, error_bind, hhidden, ensure_false]
    exact .error ⟨rfl, rfl⟩
  · rw [hfound, habsent, orError_some, orError_none, ok_bind, error_bind, hhidden, ensure_false]
    exact .error ⟨rfl, rfl⟩

theorem ModelConceals.sameField {name : String}
    (hname : name ∉ (ownFields model model').map Field.semanticName) :
    SameField model model' name := by
  have hown : ∀ field ∈ ownFields model model', (field.semanticName == name) = false := by
    intro field hf
    rw [beq_eq_false_iff_ne]
    rintro rfl
    exact hname (List.mem_map_of_mem hf)
  have hrel := h.fields.find? (q := fun field => field.semanticName == name)
    (fun field hf => hown field (List.mem_append_left _ hf))
    (fun field hf => hown field (List.mem_append_right _ hf))
    (fun _ _ hf => by rw [hf])
  unfold SameField Model.findField
  generalize model.fields.find? (fun field => field.semanticName == name) = found at hrel
  generalize model'.fields.find? (fun field => field.semanticName == name) = found' at hrel
  cases hrel with
  | none => rfl
  | some hf => rw [hf]

theorem ModelConceals.directKey {column : String}
    (hcolumn : ∀ field ∈ ownFields model model', isDirectKey column field = false) :
    model.fields.any (isDirectKey column) = model'.fields.any (isDirectKey column) :=
  h.fields.any (fun field hf => hcolumn field (List.mem_append_left _ hf))
    (fun field hf => hcolumn field (List.mem_append_right _ hf)) fun _ _ hf => by rw [hf]

end Model

section Snapshot
variable {snapshot snapshot' : SemanticSnapshot} (h : Conceals snapshot snapshot')
include h

theorem Conceals.findModel (query : LogicalSemanticQuery) :
    Option.Rel (fun model model' => ModelConceals model model' ∧
        (model, model') ∈ remaining snapshot snapshot')
      (snapshot.findModel query) (snapshot'.findModel query) := by
  refine h.models.paired.find? ?_ ?_ ?_
  · intro model hown
    rw [h.models.left model hown, Bool.and_false]
  · intro model hown
    rw [h.models.right model hown, Bool.and_false]
  · rintro model model' ⟨hmodel, -⟩
    have hrest := hmodel.rest
    simp only [Model.mk.injEq] at hrest
    rw [hrest.1, hrest.2.2.2.1]

theorem Conceals.findTarget {name : String}
    (hname : name ∉ (ownModels snapshot snapshot').map Model.semanticName) :
    Option.Rel (fun model model' => ModelConceals model model' ∧
        (model, model') ∈ remaining snapshot snapshot')
      (snapshot.models.find? fun target => target.semanticName == name)
      (snapshot'.models.find? fun target => target.semanticName == name) := by
  have hown : ∀ model ∈ ownModels snapshot snapshot', (model.semanticName == name) = false := by
    intro model hm
    rw [beq_eq_false_iff_ne]
    rintro rfl
    exact hname (List.mem_map_of_mem hm)
  refine h.models.paired.find? (fun model hm => hown model (List.mem_append_left _ hm))
    (fun model hm => hown model (List.mem_append_right _ hm)) ?_
  rintro model model' ⟨hmodel, -⟩
  have hrest := hmodel.rest
  simp only [Model.mk.injEq] at hrest
  rw [hrest.1]

theorem Conceals.resolveRelationship (hfree : Unreferenced snapshot snapshot')
    {model model' : Model} (hmodel : ModelConceals model model')
    (hpair : (model, model') ∈ remaining snapshot snapshot') (name : String) :
    Coupled SamePublicError Eq (resolveRelationship snapshot.models model name)
      (resolveRelationship snapshot'.models model' name) := by
  have hrest := hmodel.rest
  simp only [Model.mk.injEq] at hrest
  have hrelationships : model.relationships = model'.relationships := hrest.2.2.2.2.2.2.2
  refine resolveRelationship_coupled samePublicError_refl (by rw [hrelationships]) ?_ ?_
  · intro relationship hfound
    have hmem : relationship ∈ model.relationships := List.mem_of_find?_eq_some hfound
    have htargets := h.findTarget (hfree.targets _ hpair relationship hmem)
    cases htarget : snapshot.models.find? fun target =>
        target.semanticName == relationship.targetModel with
    | none =>
      rw [htarget] at htargets
      generalize (snapshot'.models.find? _) = other at htargets ⊢
      cases htargets
      exact .none
    | some target =>
      rw [htarget] at htargets
      generalize (snapshot'.models.find? _) = other at htargets ⊢
      cases htargets with
      | some hsame =>
        obtain ⟨htargetModel, htargetPair⟩ := hsame
        have htrest := htargetModel.rest
        simp only [Model.mk.injEq] at htrest
        have hname : target.semanticName = relationship.targetModel := by
          simpa using List.find?_some htarget
        exact .some ⟨htrest.2.1, fun hc => htargetModel.directKey
          (hfree.toKeys _ hpair relationship hmem hc _ htargetPair hname)⟩
  · intro relationship hfound hc
    exact hmodel.directKey
      (hfree.fromKeys _ hpair relationship (List.mem_of_find?_eq_some hfound) hc)

theorem Conceals.agrees (hfree : Unreferenced snapshot snapshot') {model model' : Model}
    (hmodel : ModelConceals model model')
    (hpair : (model, model') ∈ remaining snapshot snapshot') (query : LogicalSemanticQuery) :
    Agrees SamePublicError query snapshot.schemaVersion snapshot'.schemaVersion snapshot.models
      snapshot'.models model model' where
  core := hmodel.core_eq
  version := fun _ => h.version
  field := fun name _ => hmodel.visibleField name
  metric := fun reference _ => hmodel.visibleMetric reference.metric
  lookup := by
    intro reference _ metric hvisible name hname
    simp only [visibleMetric, bind_eq_ok, orError_eq_ok, ensure_eq_ok, exists_const,
      pure_eq_ok] at hvisible
    obtain ⟨found, hfound, hshown, rfl⟩ := hvisible
    exact hmodel.sameField (hfree.metrics _ hpair found (List.mem_of_find?_eq_some hfound) hshown
      name hname)
  relationship := fun name _ => h.resolveRelationship hfree hmodel hpair name

end Snapshot

/-- A caller cannot tell a hidden object from an absent one: on two valid snapshots that differ by
such objects alone, every query compiles to the same statement or fails with the same code and
message. -/
theorem hidden_as_absent {backend : CompilerBackend} {snapshot snapshot' : SemanticSnapshot}
    (hvalid : checkSnapshot backend.toHashBackend snapshot = .ok ())
    (hvalid' : checkSnapshot backend.toHashBackend snapshot' = .ok ())
    (hconceals : Conceals snapshot snapshot') (hfree : Unreferenced snapshot snapshot')
    (normalized : NormalizedLsq) (options : CompilerOptions) :
    Coupled SamePublicError SameStatement (compileLsq backend normalized snapshot options)
      (compileLsq backend normalized snapshot' options) := by
  refine compileLsq_coupled samePublicError_refl hvalid hvalid' ?_ options
  have hmodels := hconceals.findModel normalized.query
  generalize snapshot.findModel normalized.query = found at hmodels
  generalize snapshot'.findModel normalized.query = found' at hmodels
  cases hmodels with
  | none => exact .none
  | some hmodel => exact .some (hconceals.agrees hfree hmodel.1 hmodel.2 normalized.query)

def ordersModel : Model :=
  { semanticName := "orders"
    source := ⟨"sales", "orders"⟩
    fields := [{ semanticName := "id", dataType := .integer, column := "id", entityKey := true }]
    metrics :=
      [{ semanticName := "count", dataType := .integer, aggregation := .count, field := "id" }] }

def openSnapshot : SemanticSnapshot :=
  { schemaVersion := "1"
    revisionHash := "sha256:0236aa1048cdffdf4c5a21ff7a48fb26b7a102b36ce724acf34322d7e3f8a8af"
    models := [ordersModel] }

def marginModel : Model :=
  { ordersModel with
    fields := { semanticName := "margin", dataType := .numeric, column := "margin",
                visible := false } :: ordersModel.fields }

def marginSnapshot : SemanticSnapshot :=
  { openSnapshot with
    revisionHash := "sha256:00a6dcdc8be36145ce5ce6880968b1d72145b793864601a68d091edabee8303d"
    models := [marginModel] }

theorem openSnapshot_checked : checkSnapshot standardHash openSnapshot = .ok () := by
  apply checkSnapshot_of_published (by decide)
  apply published_of_codes
  decide +kernel

theorem marginSnapshot_checked : checkSnapshot standardHash marginSnapshot = .ok () := by
  apply checkSnapshot_of_published (by decide)
  apply published_of_codes
  decide +kernel

def ordersByMargin : NormalizedLsq :=
  LogicalSemanticQuery.normalize standardHash
    { model := "orders", dimensions := [{ field := "margin" }], metrics := [{ metric := "count" }] }
    (by decide)

/-- A query by the hidden margin fails as it does where there is no margin. -/
theorem hidden_margin_as_absent :
    checkSnapshot standardHash marginSnapshot = .ok () ∧
      checkSnapshot standardHash openSnapshot = .ok () ∧
      Coupled SamePublicError SameStatement
        (compileLsq standardBackend ordersByMargin marginSnapshot {})
        (compileLsq standardBackend ordersByMargin openSnapshot {}) := by
  have hmodel : ModelConceals marginModel ordersModel := by
    refine ⟨rfl, ⟨?_, by decide, by decide⟩, ⟨?_, by decide, by decide⟩⟩
    · exact .cons rfl .nil
    · exact .cons rfl .nil
  have hshared : shared Model.semanticName marginSnapshot.models openSnapshot.models =
      [marginModel] ∧ shared Model.semanticName openSnapshot.models marginSnapshot.models =
      [ordersModel] := by decide +kernel
  have hconceals : Conceals marginSnapshot openSnapshot := by
    refine ⟨rfl, ?_, by decide, by decide⟩
    rw [hshared.1, hshared.2]
    exact .cons hmodel .nil
  have hfree : Unreferenced marginSnapshot openSnapshot :=
    ⟨by decide +kernel, by decide +kernel, by decide +kernel, by decide +kernel⟩
  have hmargin : checkSnapshot standardBackend.toHashBackend marginSnapshot = .ok () :=
    marginSnapshot_checked
  have hopen : checkSnapshot standardBackend.toHashBackend openSnapshot = .ok () :=
    openSnapshot_checked
  exact ⟨hmargin, hopen, hidden_as_absent hmargin hopen hconceals hfree ordersByMargin {}⟩

end Postgresem
