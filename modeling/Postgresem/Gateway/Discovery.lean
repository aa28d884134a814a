import Postgresem.Compiler.Blame
import Postgresem.Gateway.Listing
import Postgresem.Query.Normalize

/-! What `describe_model` tells a client about one model, and the time grains that it offers with a
field. They are computed from the field alone; the compiler also asks the model for its timezone. -/
namespace Postgresem.Gateway
open Control

structure FieldDescription where
  name : String
  dataType : DataType
  timeDimension : Bool
  entityKey : Bool
  relationship : Option String
  supportedTimeGrains : List String
  deriving DecidableEq, Repr

structure MetricDescription where
  name : String
  dataType : DataType
  aggregation : Aggregation
  additivity : Option Additivity
  aggregationAnchor : Option String
  deriving DecidableEq, Repr

structure RelationshipDescription where
  name : String
  cardinality : Cardinality
  joinType : JoinType
  deriving DecidableEq, Repr

structure QueryLimits where
  default : Nat
  hard : Nat
  maxResultBytes : Nat
  deriving DecidableEq, Repr

/-- The members of `model` in the answer stand beside the others here. -/
structure ModelDescription where
  schemaVersion : String
  semanticRevision : String
  name : String
  timezone : Option String
  fields : List FieldDescription
  metrics : List MetricDescription
  relationships : List RelationshipDescription
  queryLimits : QueryLimits
  deriving DecidableEq, Repr

def findQueryableModel (snapshot : SemanticSnapshot) (name : String) : Except ToolFailure Model :=
  orError (snapshot.models.find? fun model => model.queryable && model.semanticName == name)
    ⟨"SEMANTIC_MODEL_NOT_AVAILABLE", "semantic model is not available"⟩

def supportedTimeGrains (dataType : DataType) (timeDimension : Bool) : List String :=
  if timeDimension && isTemporal dataType then ["day", "week", "month", "quarter", "year"] else []

def describeField (field : Field) : FieldDescription where
  name := field.semanticName
  dataType := field.dataType
  timeDimension := field.timeDimension
  entityKey := field.entityKey
  relationship := field.relationship
  supportedTimeGrains := supportedTimeGrains field.dataType field.timeDimension

def describeMetric (metric : Metric) : MetricDescription where
  name := metric.semanticName
  dataType := metric.dataType
  aggregation := metric.aggregation
  additivity := metric.additivity
  aggregationAnchor := metric.aggregationAnchor

/-- The relationships of the visible fields, and of the fields of the visible metrics. -/
def usableRelationships (model : Model) : List String :=
  ((model.fields.filter fun field => field.visible).filterMap fun field => field.relationship) ++
    (model.metrics.filter fun metric => metric.visible).filterMap fun metric =>
      (model.findField metric.field).bind fun field => field.relationship

def describeRelationships (model : Model) : List RelationshipDescription :=
  (model.relationships.filter fun relationship =>
      decide (relationship.semanticName ∈ OrderedSet.insertAll (usableRelationships model) [])).map
    fun relationship => ⟨relationship.semanticName, relationship.cardinality, relationship.joinType⟩

def describeModel (revision : String) (model : Model) (maxResultBytes : Nat) : ModelDescription :=
  let compilerOptions : CompilerOptions := {}
  { schemaVersion := toolSchemaVersion
    semanticRevision := revision
    name := model.semanticName
    timezone := model.timezone
    fields := (model.fields.filter fun field => field.visible).map describeField
    metrics := (model.metrics.filter fun metric => metric.visible).map describeMetric
    relationships := describeRelationships model
    queryLimits := ⟨compilerOptions.defaultLimit, compilerOptions.hardLimit, maxResultBytes⟩ }

/-- The grain as a document spells it is among the supported ones. -/
def FieldDescription.Offers (listed : FieldDescription) (grain : TimeGrain) : Prop :=
  grain.json ∈ listed.supportedTimeGrains.map Json.string

/-- The query asks for one field at a grain and for nothing else. -/
structure Projects (query : LogicalSemanticQuery) (model field : String) (grain : TimeGrain) :
    Prop where
  model : query.model = model
  dimensions : query.dimensions = [{ field := field, timeGrain := some grain }]
  metrics : query.metrics = []
  filters : query.filters = none


def blamesGrain : CompileError → Bool
  | .invalidTimeGrain _ | .missingTimezone _ => true
  | _ => false

/-- No projection of the field at the grain is rejected because of the grain. -/
def GrainCompiles (backend : CompilerBackend) (snapshot : SemanticSnapshot) (model field : String)
    (grain : TimeGrain) : Prop :=
  ∀ normalized : NormalizedLsq, Projects normalized.query model field grain →
    ∀ options, FailsOnly (fun error => blamesGrain error = false)
      (compileLsq backend normalized snapshot options)

/-- Names that a query can spell, one field for each, and relationships that the compiler accepts. -/
structure WellFormed (models : List Model) (model : Model) : Prop where
  named : isBlank model.semanticName = false
  fieldNamed : ∀ field ∈ model.fields, isBlank field.semanticName = false
  unique : (model.fields.map Field.semanticName).Nodup
  joined : ∀ field ∈ model.fields, ∀ name, field.relationship = some name →
    ∃ entry, resolveRelationship models model name = .ok entry

/-- A field over a join that multiplies rows, which no query without a metric may project. -/
def fansOut (model : Model) (field : Field) : Bool :=
  match field.relationship with
  | some name => (model.findRelationship name).any fun relationship =>
      relationship.cardinality == .oneToMany
  | none => false

/-! ## The description -/

theorem offers_iff {field : Field} {grain : TimeGrain} :
    (describeField field).Offers grain ↔
      field.timeDimension = true ∧ isTemporal field.dataType = true := by
  have hgrain : grain.json ∈ ["day", "week", "month", "quarter", "year"].map Json.string := by
    cases grain <;> decide
  rw [FieldDescription.Offers, describeField, supportedTimeGrains]
  split_ifs with h
  · rw [Bool.and_eq_true] at h
    exact iff_of_true hgrain h
  · rw [Bool.and_eq_true] at h
    simp [h]

theorem mem_describedFields {model : Model} {revision : String} {maxResultBytes : Nat}
    {listed : FieldDescription} (h : listed ∈ (describeModel revision model maxResultBytes).fields) :
    ∃ field ∈ model.fields, field.visible = true ∧ describeField field = listed := by
  obtain ⟨field, hfield, hlisted⟩ := List.mem_map.mp h
  rw [List.mem_filter] at hfield
  exact ⟨field, hfield.1, hfield.2, hlisted⟩

theorem findQueryableModel_ok {snapshot : SemanticSnapshot} {name : String} {model : Model} :
    findQueryableModel snapshot name = .ok model ↔
      snapshot.models.find? (fun model => model.semanticName == name && model.queryable) =
        some model := by
  simp only [findQueryableModel, orError_eq_ok, Bool.and_comm]

theorem WellFormed.findField {models : List Model} {model : Model} (h : WellFormed models model)
    {field : Field} (hfield : field ∈ model.fields) :
    model.findField field.semanticName = some field := by
  cases hfind : model.findField field.semanticName with
  | none =>
    exact absurd (List.find?_eq_none.mp hfind field hfield) (by simp)
  | some found =>
    obtain ⟨hfound, hname⟩ := findField_some hfind
    rw [List.inj_on_of_nodup_map h.unique hfound hfield hname]

/-! ## The compilation of a projection -/

section Projection
variable {models : List Model} {model : Model} {field : Field} {grain : TimeGrain}
  {query : LogicalSemanticQuery} {version : String} {limit : Nat}

/-- The one relationship of a field, or none. -/
theorem resolve_recorded (h : WellFormed models model) (hfield : field ∈ model.fields) :
    ∃ entries, (recordRelationship field []).mapM (resolveRelationship models model) = .ok entries ∧
      (entries.any fun entry => entry.2.cardinality == .oneToMany) = fansOut model field := by
  rw [recordRelationship, fansOut]
  cases hname : field.relationship with
  | none => exact ⟨[], rfl, rfl⟩
  | some name =>
    obtain ⟨entry, hentry⟩ := h.joined field hfield name hname
    obtain ⟨hfirst, hresolved⟩ := resolveRelationship_ok hentry
    have hfound : model.findRelationship name = some entry.2 := by
      rw [← hfirst]
      exact hresolved.found
    refine ⟨[entry], ?_, ?_⟩
    · have hone : OrderedSet.insert name ([] : List String) = [name] := rfl
      simp only [hone, List.mapM_cons, hentry, ok_bind, List.mapM_nil, pure_ok]
    · simp [hfound]

theorem fanoutAnchor_no_metrics (entries : List (String × Relationship)) :
    (∃ error, fanoutAnchor entries [] = .error (.unsafeRelationship error) ∧
      (entries.any fun entry => entry.2.cardinality == .oneToMany) = true) ∨
    (fanoutAnchor entries [] = .ok none ∧
      (entries.any fun entry => entry.2.cardinality == .oneToMany) = false) := by
  rw [fanoutAnchor]
  cases hfind : entries.find? fun entry => entry.2.cardinality == .oneToMany with
  | none =>
    right
    refine ⟨rfl, ?_⟩
    rw [List.any_eq_false]
    exact List.find?_eq_none.mp hfind
  | some entry =>
    left
    refine ⟨entry.2.semanticName, rfl, ?_⟩
    have hmany := List.find?_some hfind
    exact List.any_eq_true.mpr ⟨entry, List.mem_of_find?_eq_some hfind, hmany⟩

theorem resolveDimension_offered (h : WellFormed models model) (hfield : field ∈ model.fields)
    (hvisible : field.visible = true) (hoffered : (describeField field).Offers grain) :
    resolveDimension model { field := field.semanticName, timeGrain := some grain } [] =
      .ok ({ field := field, timeGrain := some grain }, recordRelationship field []) := by
  have hgrain := offers_iff.mp hoffered
  simp only [resolveDimension, resolveField_ok.mpr (h.findField hfield), ok_bind, hvisible,
    ensure_true, hgrain.1, hgrain.2, Option.isNone_some, Bool.false_or, Bool.and_self, pure_ok]

theorem resolveQuery_projection (h : WellFormed models model) (hfield : field ∈ model.fields)
    (hvisible : field.visible = true) (hoffered : (describeField field).Offers grain) {name : String}
    (hquery : Projects query name field.semanticName grain) :
    resolveQuery version models model query limit = (do
      forEach (checkOrderReference query.references) query.orderBy
      let relationships ← (recordRelationship field []).mapM (resolveRelationship models model)
      let anchor ← fanoutAnchor relationships []
      pure { model := model, dimensions := [{ field := field, timeGrain := some grain }],
             metrics := [], filter := none, orderBy := query.orderBy,
             relationships := relationships, aggregationAnchor := anchor, limit := limit }) := by
  simp only [resolveQuery, hquery.dimensions, hquery.metrics, hquery.filters, mapAccumM,
    resolveDimension_offered h hfield hvisible hoffered, ok_bind, pure_ok, optionally]

theorem resolveQuery_projection_failsOnly (h : WellFormed models model)
    (hfield : field ∈ model.fields) (hvisible : field.visible = true)
    (hoffered : (describeField field).Offers grain) {name : String}
    (hquery : Projects query name field.semanticName grain) :
    FailsOnly (fun error => blamesGrain error = false)
      (resolveQuery version models model query limit) := by
  rw [resolveQuery_projection h hfield hvisible hoffered hquery]
  refine FailsOnly.bind (.forEach fun _ _ => .ensure fun _ => rfl) fun _ _ => ?_
  obtain ⟨entries, hentries, -⟩ := resolve_recorded h hfield
  rw [hentries, ok_bind]
  rcases fanoutAnchor_no_metrics entries with ⟨name, hfanned, -⟩ | ⟨hnone, -⟩
  · rw [hfanned]
    exact .error rfl
  · rw [hnone]
    exact .ok _

theorem resolveQuery_projection_ok (h : WellFormed models model)
    (hfield : field ∈ model.fields) (hvisible : field.visible = true)
    (hoffered : (describeField field).Offers grain) {name : String}
    (hquery : Projects query name field.semanticName grain) {validated : ValidatedQuery}
    (hvalid : resolveQuery version models model query limit = .ok validated) :
    validated.model = model ∧ validated.fields = [field] ∧ fansOut model field = false := by
  rw [resolveQuery_projection h hfield hvisible hoffered hquery] at hvalid
  obtain ⟨entries, hentries, hfans⟩ := resolve_recorded h hfield
  simp only [bind_eq_ok, hentries, Except.ok.injEq, pure_eq_ok] at hvalid
  obtain ⟨_, -, _, rfl, anchor, hanchor, rfl⟩ := hvalid
  refine ⟨rfl, rfl, ?_⟩
  rw [← hfans]
  rcases fanoutAnchor_no_metrics entries with ⟨name, hfanned, -⟩ | ⟨-, hnone⟩
  · rw [hfanned] at hanchor
    cases hanchor
  · exact hnone

theorem resolveQuery_projection_accepts (version : String) (limit : Nat)
    (h : WellFormed models model) (hfield : field ∈ model.fields) (hvisible : field.visible = true)
    (hoffered : (describeField field).Offers grain) {name : String}
    (hquery : Projects query name field.semanticName grain) (horder : query.orderBy = [])
    (hfans : fansOut model field = false) :
    ∃ validated, resolveQuery version models model query limit = .ok validated ∧
      validated.model = model ∧
      validated.dimensions = [{ field := field, timeGrain := some grain }] := by
  rw [resolveQuery_projection h hfield hvisible hoffered hquery]
  obtain ⟨entries, hentries, hjoined⟩ := resolve_recorded h hfield
  rw [hfans] at hjoined
  rcases fanoutAnchor_no_metrics entries with ⟨name, -, hmany⟩ | ⟨hnone, -⟩
  · rw [hjoined] at hmany
    cases hmany
  · simp only [horder, forEach, hentries, hnone, ok_bind, pure_ok]
    exact ⟨_, rfl, rfl, rfl⟩

end Projection

section Compile
variable {backend : CompilerBackend} {snapshot : SemanticSnapshot} {name : String} {model : Model}
  {field : Field} {grain : TimeGrain}

/-- The condition is enough, whatever the query sorts by and whatever its limit. -/
theorem grainCompiles_of_timezone
    (hmodel : findQueryableModel snapshot name = .ok model)
    (h : WellFormed snapshot.models model) (hfield : field ∈ model.fields)
    (hvisible : field.visible = true) (hoffered : (describeField field).Offers grain)
    (hsnapshot : checkSnapshot backend.toHashBackend snapshot = .ok ())
    (hzoned : field.dataType = .timestampTz →
      model.timezone.isSome = true ∨ fansOut model field = true) :
    GrainCompiles backend snapshot name field.semanticName grain := by
  intro normalized hquery options
  rw [findQueryableModel_ok, ← hquery.model] at hmodel
  have hvalidate : validate backend.toHashBackend normalized snapshot options =
      validateAgainst normalized snapshot options := validate_of_checkSnapshot hsnapshot _ _
  rw [compileLsq, hvalidate]
  refine FailsOnly.bind ?_ fun validated hvalid => ?_
  · rw [validateAgainst, hmodel, orError_some]
    refine FailsOnly.bind (.ensure fun _ => rfl) fun _ _ => ?_
    rw [ok_bind]
    refine FailsOnly.bind (.ensure fun _ => rfl) fun _ _ => ?_
    exact resolveQuery_projection_failsOnly h hfield hvisible hoffered hquery
  · have hcovered := validate_covered (hvalidate.trans hvalid)
    simp only [validateAgainst, hmodel, orError_some, bind_eq_ok, ok_bind] at hvalid
    obtain ⟨_, -, _, -, hvalid⟩ := hvalid
    obtain ⟨hsame, hfields, hfans⟩ :=
      resolveQuery_projection_ok h hfield hvisible hoffered hquery hvalid
    refine render_failsOnly (P := fun error => blamesGrain error = false) rfl hcovered
      fun other hother htype hnone => ?_
    rw [hfields, List.mem_singleton] at hother
    rw [hsame] at hnone
    subst hother
    rcases hzoned htype with hsome | hmany
    · rw [hnone] at hsome
      cases hsome
    · rw [hfans] at hmany
      cases hmany

def projection (name field : String) (grain : TimeGrain) : LogicalSemanticQuery :=
  { model := name, dimensions := [{ field := field, timeGrain := some grain }] }

theorem projection_valid {field : String} (hname : isBlank name = false)
    (hfield : isBlank field = false) (grain : TimeGrain) :
    validateQuery (projection name field grain) = .ok () := by
  simp only [validateQuery, projection, LogicalSemanticQuery.references, lsqSchemaVersion,
    beq_self_eq_true, hname, validateDistinct, validateReference, hfield, Bool.not_false, ensure_true,
    ok_bind, List.isEmpty_cons, Bool.false_and, Option.any_none, List.map_cons, List.map_nil,
    List.append_nil, List.not_mem_nil, not_false_eq_true, decide_true]

/-- Without a timezone the plain projection of an instant is valid, and then fails in the renderer. -/
theorem projection_missingTimezone
    (hmodel : findQueryableModel snapshot name = .ok model)
    (h : WellFormed snapshot.models model) (hfield : field ∈ model.fields)
    (hvisible : field.visible = true) (hoffered : (describeField field).Offers grain)
    (hsnapshot : checkSnapshot backend.toHashBackend snapshot = .ok ())
    (htype : field.dataType = .timestampTz) (hnone : model.timezone = none)
    (hfans : fansOut model field = false)
    (valid : validateQuery (projection name field.semanticName grain) = .ok ()) :
    compileLsq backend ((projection name field.semanticName grain).normalize backend.toHashBackend
      valid) snapshot {} = .error (.missingTimezone field.semanticName) := by
  set normalized := (projection name field.semanticName grain).normalize backend.toHashBackend valid
    with hnormalized
  have hquery : Projects normalized.query name field.semanticName grain := ⟨rfl, rfl, rfl, rfl⟩
  obtain ⟨validated, hvalid, hsame, hdimensions⟩ :=
    resolveQuery_projection_accepts snapshot.schemaVersion 100 h hfield hvisible hoffered hquery rfl
      hfans
  rw [findQueryableModel_ok] at hmodel
  have hvalidate : validate backend.toHashBackend normalized snapshot {} = .ok validated := by
    have hlookup : snapshot.models.find? (fun model =>
        model.semanticName == normalized.query.model && model.queryable) = some model := hmodel
    rw [validate_of_checkSnapshot hsnapshot, validateAgainst, hlookup]
    exact hvalid
  have hlower : validated.lower = .error (.missingTimezone field.semanticName) := by
    simp only [ValidatedQuery.lower, ValidatedQuery.lowerDimensions, hdimensions, hsame,
      List.mapM_cons, lowerDimension, htype, hnone, if_true, orError_none]
    rfl
  rw [compileLsq, hvalidate, ok_bind, render, renderSql_eq (validate_covered hvalidate), hlower]
  rfl

/-- An offered grain compiles exactly where the field is no instant, or its model has a timezone, or
no projection of the field gets as far as its grain. -/
theorem offered_grain_compiles_iff (hsnapshot : checkSnapshot backend.toHashBackend snapshot = .ok ())
    (hmodel : findQueryableModel snapshot name = .ok model) (h : WellFormed snapshot.models model)
    (revision : String) (maxResultBytes : Nat) {listed : FieldDescription}
    (hlisted : listed ∈ (describeModel revision model maxResultBytes).fields) :
    ∃ field, model.findField listed.name = some field ∧ listed = describeField field ∧
      ∀ grain, listed.Offers grain →
        (GrainCompiles backend snapshot name listed.name grain ↔
          (field.dataType = .timestampTz →
            model.timezone.isSome = true ∨ fansOut model field = true)) := by
  obtain ⟨field, hfield, hvisible, rfl⟩ := mem_describedFields hlisted
  refine ⟨field, h.findField hfield, rfl, fun grain hoffered => ⟨?_, ?_⟩⟩
  · intro hcompiles htype
    by_contra hcondition
    rw [not_or, Bool.not_eq_true, Bool.not_eq_true, Option.isSome_eq_false_iff,
      Option.isNone_iff_eq_none] at hcondition
    have hname : isBlank name = false := by
      have hfound := List.find?_some (findQueryableModel_ok.mp hmodel)
      rw [Bool.and_eq_true, beq_iff_eq] at hfound
      rw [← hfound.1]
      exact h.named
    have hvalid := projection_valid hname (h.fieldNamed field hfield) grain
    have hmissing := projection_missingTimezone hmodel h hfield hvisible hoffered hsnapshot htype
      hcondition.1 hcondition.2 hvalid
    have hblame := hcompiles _ ⟨rfl, rfl, rfl, rfl⟩ {} _ hmissing
    cases hblame
  · intro hzoned
    exact grainCompiles_of_timezone hmodel h hfield hvisible hoffered hsnapshot hzoned

end Compile

/-! A model of visits, whose instants have no timezone. -/

def visitsModel : Model where
  semanticName := "visits"
  source := ⟨"commerce", "visits"⟩
  fields :=
    [{ semanticName := "id", dataType := .integer, column := "id", entityKey := true },
     { semanticName := "seen_at", dataType := .timestampTz, column := "seen_at",
       timeDimension := true }]
  metrics := []

def draftVisits : SemanticSnapshot :=
  { schemaVersion := "2", revisionHash := "", models := [visitsModel] }

def visitsSnapshot : SemanticSnapshot :=
  { draftVisits with revisionHash := (draftVisits.calculateRevisionHash standardHash).getD "" }

theorem visitsSnapshot_checked : checkSnapshot standardHash visitsSnapshot = .ok () := by
  apply checkSnapshot_of_published (.inr rfl)
  have hdraft : visitsSnapshot.calculateRevisionHash standardHash =
      draftVisits.calculateRevisionHash standardHash := rfl
  rw [hdraft, visitsSnapshot]
  simp [SemanticSnapshot.calculateRevisionHash, standardHash]

theorem visitsModel_found : findQueryableModel visitsSnapshot "visits" = .ok visitsModel := rfl

theorem visitsModel_wellFormed : WellFormed visitsSnapshot.models visitsModel := by
  refine ⟨by decide, by decide, by decide, ?_⟩
  intro field hfield name hname
  have hnone : ∀ field ∈ visitsModel.fields, field.relationship = none := by decide
  rw [hnone field hfield] at hname
  cases hname

def seenAt : Field := visitsModel.fields[1]

theorem seenAt_listed : describeField seenAt ∈ (describeModel "r1" visitsModel 1024).fields := by
  decide

theorem seenAt_offers : (describeField seenAt).Offers .month := offers_iff.mpr (by decide)

theorem offered_grain_compiles_iff_visits :
    ¬ GrainCompiles standardBackend visitsSnapshot "visits" "seen_at" .month := by
  obtain ⟨field, hfound, -, hgrains⟩ := offered_grain_compiles_iff
    (show checkSnapshot standardBackend.toHashBackend visitsSnapshot = .ok () from
      visitsSnapshot_checked)
    visitsModel_found visitsModel_wellFormed "r1" 1024 seenAt_listed
  intro hcompiles
  have hzoned := (hgrains .month seenAt_offers).mp hcompiles
  have hsame : seenAt = field := Option.some.inj hfound
  subst hsame
  revert hzoned
  decide

/-- `describe_model` offers months of an instant, and the query that asks for them is rejected. -/
theorem offered_month_rejected : ∃ normalized : NormalizedLsq,
    checkSnapshot standardHash visitsSnapshot = .ok () ∧
      WellFormed visitsSnapshot.models visitsModel ∧
      findQueryableModel visitsSnapshot "visits" = .ok visitsModel ∧
      (∃ listed ∈ (describeModel "r1" visitsModel 1024).fields,
        listed.name = "seen_at" ∧ listed.Offers .month) ∧
      Projects normalized.query "visits" "seen_at" .month ∧
      compileLsq standardBackend normalized visitsSnapshot {} =
        .error (.missingTimezone "seen_at") := by
  have hvalid : validateQuery (projection "visits" "seen_at" .month) = .ok () := by decide
  have hchecked : checkSnapshot standardBackend.toHashBackend visitsSnapshot = .ok () :=
    visitsSnapshot_checked
  have hseen : seenAt ∈ visitsModel.fields := by decide
  have hmissing := projection_missingTimezone visitsModel_found visitsModel_wellFormed hseen rfl
    seenAt_offers hchecked rfl rfl rfl hvalid
  exact ⟨_, visitsSnapshot_checked, visitsModel_wellFormed, visitsModel_found,
    ⟨describeField seenAt, seenAt_listed, rfl, seenAt_offers⟩, ⟨rfl, rfl, rfl, rfl⟩, hmissing⟩

end Postgresem.Gateway
