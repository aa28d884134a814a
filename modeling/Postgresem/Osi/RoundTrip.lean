import Postgresem.Osi.Gathering

/-! A snapshot that was imported is exported, and the export is imported as the same snapshot. The two
halves meet at the tidy document: it declares what the imported one does, and it lists what the export
lists, in another order. -/
namespace Postgresem.Osi
open Control Edits Named

section Recorded

/-- A dataset that is imported as the model it is the export of. -/
def Tidy (currentDatabase : String) (catalog : RelationIndex) (dataset : OsiDataset) : Prop :=
  ∃ entry, importDatasetModel currentDatabase catalog dataset = .ok (entry, []) ∧
    exportDataset entry.model = dataset

/-- The models of these datasets are there, and no others. -/
structure Populated (datasets : List OsiDataset) (state : Declarations) : Prop where
  nodup : (datasets.map OsiDataset.name).Nodup
  keys : ∀ key, (state.entries key).isSome ↔ key ∈ datasets.map OsiDataset.name
  each : ∀ dataset ∈ datasets, ∃ entry : ImportedModel,
    state.entries dataset.name = some entry.declared ∧ exportDataset entry.model = dataset ∧
      entry.model.metrics = [] ∧ entry.model.relationships = []

variable {currentDatabase : String} {catalog : RelationIndex}

theorem empty_of_importDatasetModel {dataset : OsiDataset} {entry : ImportedModel}
    {warnings : List OsiImportWarning}
    (h : importDatasetModel currentDatabase catalog dataset = .ok (entry, warnings)) :
    entry.model.metrics = [] ∧ entry.model.relationships = [] := by
  simp only [importDatasetModel, bind_eq_ok, Except.ok.injEq] at h
  obtain ⟨evidence, -, items, -, -, -, heq⟩ := h
  obtain ⟨rfl, -⟩ := Prod.mk.inj heq
  exact ⟨rfl, rfl⟩

theorem Populated.insert {datasets : List OsiDataset} {state state' : Declarations}
    {dataset : OsiDataset} {entry : ImportedModel} (h : Populated datasets state)
    (hnone : state.entries dataset.name = none) (hexport : exportDataset entry.model = dataset)
    (hempty : entry.model.metrics = [] ∧ entry.model.relationships = [])
    (hentries : ∀ key, state'.entries key =
      if key = dataset.name then some entry.declared else state.entries key) :
    Populated (datasets ++ [dataset]) state' := by
  have hnew : dataset.name ∉ datasets.map OsiDataset.name := by
    rw [← h.keys, hnone]
    exact Bool.false_ne_true
  refine ⟨?_, fun key => ?_, ?_⟩
  · rw [List.map_append, List.nodup_append]
    refine ⟨h.nodup, List.nodup_singleton _, fun name hname other hother => ?_⟩
    rintro rfl
    obtain rfl := List.mem_singleton.mp hother
    exact hnew hname
  · rw [hentries, List.map_append, List.mem_append, ← h.keys]
    split_ifs with hkey
    · simp [hkey]
    · simp [hkey]
  · intro other hother
    rcases List.mem_append.mp hother with hother | hother
    · obtain ⟨found, hfound, hrest⟩ := h.each other hother
      have hne : other.name ≠ dataset.name := by
        intro hname
        exact hnew (hname ▸ List.mem_map_of_mem hother)
      exact ⟨found, by rw [hentries, if_neg hne, hfound], hrest⟩
    · obtain rfl := List.mem_singleton.mp hother
      exact ⟨entry, by rw [hentries, if_pos rfl], hexport, hempty⟩

theorem planDataset_populated {datasets : List OsiDataset} {state state' : Declarations}
    {dataset : OsiDataset} (htidy : Tidy currentDatabase catalog dataset)
    (h : Populated datasets state)
    (hstep : step (planDataset currentDatabase catalog) state dataset = some state') :
    Populated (datasets ++ [dataset]) state' := by
  obtain ⟨entry, himport, hexport⟩ := htidy
  obtain ⟨change, hchange, happly⟩ := Option.bind_eq_some_iff.mp hstep
  rw [planDataset, himport, toOption_ok, Option.map_some] at hchange
  split_ifs at hchange
  obtain rfl := Option.some.inj hchange
  obtain ⟨declared, hupdate, rfl⟩ := Option.map_eq_some_iff.mp happly
  dsimp only at hupdate
  split_ifs at hupdate with hnone
  obtain rfl := Option.some.inj hupdate
  exact h.insert (Option.isNone_iff_eq_none.mp hnone) hexport (empty_of_importDatasetModel himport)
    fun key => Function.update_apply ..

def metricKey (metric : OsiMetric) : String :=
  ((readMetric metric).map ParsedMetric.dataset).getD ""

/-- The state holds what the items of the semantic model declare, each item in the form in which it is
exported. -/
structure Recorded (model : OsiSemanticModel) (state : Declarations) : Prop where
  nodup : (model.datasets.map OsiDataset.name).Nodup
  keys : ∀ key, (state.entries key).isSome ↔ key ∈ model.datasets.map OsiDataset.name
  datasets : ∀ dataset ∈ model.datasets, ∃ declared fields,
    state.entries dataset.name = some declared ∧
      dataset = describeDataset declared.ground.model fields ∧
      (fields : Multiset Field) = declared.fields.filter fun field => field.relationship.isNone
  relationships : ∀ key declared, state.entries key = some declared →
    declared.relationships.map (exportRelationship key) =
      ↑(model.relationships.filter fun relationship => relationship.fromDataset = key)
  related : ∀ relationship ∈ model.relationships, (state.entries relationship.fromDataset).isSome
  metrics : ∀ key declared, state.entries key = some declared →
    declared.metrics.map (exportMetric key) =
      ↑(model.metrics.filter fun metric => metricKey metric = key)
  measured : ∀ metric ∈ model.metrics, (state.entries (metricKey metric)).isSome

theorem declareMetric_recorded {metric : OsiMetric} {grounds : String → Option Ground}
    {contribution : Contribution} (h : declareMetric metric grounds = some contribution) :
    contribution.key = metricKey metric ∧
      contribution.addition.metrics.map (exportMetric contribution.key) = {tidyMetric metric} ∧
      contribution.addition.fields = 0 ∧ contribution.addition.relationships = 0 := by
  obtain ⟨parsed, field, hread, hkey, haddition, -⟩ := declareMetric_cases h
  rw [haddition, hkey]
  refine ⟨?_, ?_, rfl, rfl⟩
  · rw [metricKey, hread]
    rfl
  · rw [Multiset.map_singleton, tidyMetric, hread]
    rfl

theorem declareRelationship_parts {relationship : OsiRelationship}
    {grounds : String → Option Ground} {contribution : Contribution}
    (h : declareRelationship relationship grounds = some contribution) :
    contribution.addition.metrics = 0 ∧
      ∀ field ∈ contribution.addition.fields, field.relationship.isNone = false := by
  rw [declareRelationship] at h
  split_ifs at h
  simp only [Option.bind_eq_bind, Option.bind_eq_some_iff] at h
  obtain ⟨pair, -, toGround, -, toField, -, fromGround, -, fromField, -, hlast⟩ := h
  split_ifs at hlast
  obtain rfl := Option.some.inj hlast
  refine ⟨rfl, fun field hfield => ?_⟩
  obtain ⟨entry, -, rfl⟩ := List.mem_map.mp (Multiset.mem_coe.mp hfield)
  rfl

/-- A model whose items are all in the form in which they are exported. -/
structure TidyModel (catalog : CatalogSnapshot) (model : OsiSemanticModel) : Prop where
  datasets : ∀ dataset ∈ model.datasets, Tidy catalog.currentDatabase (OrderedMap.collect
    (fun relation : CatalogRelation => toLex (relation.schema, relation.name)) catalog.relations) dataset
  relationships : ∀ relationship ∈ model.relationships, tidyRelationship relationship = relationship
  metrics : ∀ metric ∈ model.metrics, tidyMetric metric = metric

theorem declareModels_recorded {catalog : CatalogSnapshot} {model : OsiSemanticModel}
    {state : Declarations} (htidy : TidyModel catalog model)
    (h : declareModels catalog model = some state) : Recorded model state := by
  rw [declareModels] at h
  obtain ⟨populated, hpopulated, hrest⟩ := Option.bind_eq_some_iff.mp h
  split_ifs at hrest
  obtain ⟨related, hrelated, hmeasured⟩ := Option.bind_eq_some_iff.mp hrest
  have hstart : Populated [] (⟨fun _ => none, warnContext ("/semantic_model/" ++ model.name)
      model.description model.aiContext⟩ : Declarations) :=
    ⟨List.nodup_nil, fun key => by simp, by simp⟩
  have hdatasets : Populated model.datasets populated :=
    run_prefix planDataset_populated htidy.datasets hstart hpopulated
  obtain ⟨relating, heach, hkeys, hentries⟩ := run_contribute hrelated
  obtain ⟨measuring, heach', hkeys', hentries'⟩ := run_contribute hmeasured
  have hfinal : ∀ key, state.entries key = (populated.entries key).map fun declared =>
      declared.extend ((gather key relating).plus (gather key measuring)) := by
    intro key
    rw [hentries' key, hentries key, Option.map_map]
    exact congrArg (fun f => (populated.entries key).map f) (funext fun declared =>
      Declared.extend_plus declared _ _)
  have hsome : ∀ key, (state.entries key).isSome = (populated.entries key).isSome := fun key => by
    rw [hfinal, Option.isSome_map]
  have hrelationships : List.Forall₂ (fun item contribution =>
      contribution.key = item.fromDataset ∧ (contribution.addition.relationships).map
        (exportRelationship contribution.key) = {item}) model.relationships relating := by
    refine ((List.forall₂_and_left _ _).mpr ⟨htidy.relationships, heach⟩).imp ?_
    rintro relationship contribution ⟨hsame, hcontribution⟩
    have hrecorded := declareRelationship_recorded hcontribution
    rwa [hsame] at hrecorded
  have hmetrics : List.Forall₂ (fun item contribution =>
      contribution.key = metricKey item ∧ (contribution.addition.metrics).map
        (exportMetric contribution.key) = {item}) model.metrics measuring := by
    refine ((List.forall₂_and_left _ _).mpr ⟨htidy.metrics, heach'⟩).imp ?_
    rintro metric contribution ⟨hsame, hcontribution⟩
    obtain ⟨hkey, hmetric, -⟩ := declareMetric_recorded hcontribution
    exact ⟨hkey, hsame ▸ hmetric⟩
  have hprojected : ∀ key, ∀ field ∈ (gather key relating).fields, field.relationship.isNone = false :=
    forall_gather fieldsPart fun contribution hmem => by
      obtain ⟨relationship, -, hcontribution⟩ := exists_of_forall₂ heach hmem
      exact (declareRelationship_parts hcontribution).2
  have hunmeasured : ∀ key, (gather key relating).metrics = 0 :=
    gather_eq_zero metricsPart fun contribution hmem => by
      obtain ⟨relationship, -, hcontribution⟩ := exists_of_forall₂ heach hmem
      exact (declareRelationship_parts hcontribution).1
  have hmeasures : ∀ contribution ∈ measuring, contribution.addition.fields = 0 ∧
      contribution.addition.relationships = 0 := fun contribution hmem => by
    obtain ⟨metric, -, hcontribution⟩ := exists_of_forall₂ heach' hmem
    exact (declareMetric_recorded hcontribution).2.2
  have hunprojected : ∀ key, (gather key measuring).fields = 0 :=
    gather_eq_zero fieldsPart fun contribution hmem => (hmeasures contribution hmem).1
  have hunrelated : ∀ key, (gather key measuring).relationships = 0 :=
    gather_eq_zero relationshipsPart fun contribution hmem => (hmeasures contribution hmem).2
  -- A model starts from its dataset, without relationships and metrics.
  have hground : ∀ key declared, state.entries key = some declared → ∃ entry : ImportedModel,
      populated.entries key = some entry.declared ∧ entry.model.metrics = [] ∧
        entry.model.relationships = [] ∧
        declared = entry.declared.extend ((gather key relating).plus (gather key measuring)) := by
    intro key declared hdeclared
    rw [hfinal, Option.map_eq_some_iff] at hdeclared
    obtain ⟨start, hstart, rfl⟩ := hdeclared
    have hkey := (hdatasets.keys key).mp (by rw [hstart]; rfl)
    obtain ⟨dataset, hdataset, rfl⟩ := List.mem_map.mp hkey
    obtain ⟨entry, hentry, -, hmetrics, hrelationships⟩ := hdatasets.each dataset hdataset
    rw [hentry, Option.some.injEq] at hstart
    exact ⟨entry, hentry, hmetrics, hrelationships, by rw [hstart]⟩
  refine ⟨hdatasets.nodup, fun key => by rw [hsome, hdatasets.keys], ?_, ?_, ?_, ?_, ?_⟩
  · intro dataset hdataset
    obtain ⟨entry, hentry, hexport, -⟩ := hdatasets.each dataset hdataset
    refine ⟨_, entry.model.fields.filter (fun field => field.relationship.isNone),
      by rw [hfinal, hentry, Option.map_some], ?_, ?_⟩
    · rw [← hexport]
      rfl
    · show ((entry.model.fields.filter fun field => field.relationship.isNone : List Field) :
        Multiset Field) = Multiset.filter _ ((entry.model.fields : Multiset Field) +
          ((gather dataset.name relating).fields + (gather dataset.name measuring).fields))
      have hnone : Multiset.filter (fun field : Field => field.relationship.isNone = true)
          (gather dataset.name relating).fields = 0 :=
        Multiset.filter_eq_nil.mpr fun field hfield => by
          rw [hprojected dataset.name field hfield]
          exact Bool.false_ne_true
      rw [hunprojected, add_zero, Multiset.filter_add, hnone, add_zero, Multiset.filter_coe]
      simp only [Bool.decide_eq_true]
  · intro key declared hdeclared
    obtain ⟨entry, hentry, -, hempty, rfl⟩ := hground key declared hdeclared
    have hzero : entry.declared.relationships = 0 := congrArg _ hempty
    show Multiset.map _ (entry.declared.relationships +
      ((gather key relating).relationships + (gather key measuring).relationships)) = _
    rw [hzero, hunrelated, add_zero, zero_add]
    exact map_gather relationshipsPart hrelationships key
  · intro relationship hmem
    obtain ⟨contribution, hcontribution, hkey, -⟩ := exists_of_forall₂ hrelationships.flip hmem
    have hthere := hkeys contribution hcontribution
    rw [hkey] at hthere
    rw [hsome, hthere]
  · intro key declared hdeclared
    obtain ⟨entry, hentry, hempty, -, rfl⟩ := hground key declared hdeclared
    have hzero : entry.declared.metrics = 0 := congrArg _ hempty
    show Multiset.map _ (entry.declared.metrics +
      ((gather key relating).metrics + (gather key measuring).metrics)) = _
    rw [hzero, hunmeasured, zero_add, zero_add]
    exact map_gather metricsPart hmetrics key
  · intro metric hmem
    obtain ⟨contribution, hcontribution, hkey, -⟩ := exists_of_forall₂ hmetrics.flip hmem
    have hthere := hkeys' contribution hcontribution
    rw [hentries, Option.isSome_map, hkey] at hthere
    rw [hsome, hthere]

end Recorded

/-! ## The tidy document -/

section Tidied

/-- The item that declares the same without a warning. -/
theorem exists_tidy {α β : Type} {R : α → β → Prop} {items : List α}
    (h : ∀ item ∈ items, ∃ other, R item other) : ∃ others, List.Forall₂ R items others := by
  induction items with
  | nil => exact ⟨[], .nil⟩
  | cons item items ih =>
    obtain ⟨⟨other, hother⟩, hrest⟩ := List.forall_mem_cons.mp h
    obtain ⟨others, hothers⟩ := ih hrest
    exact ⟨other :: others, .cons hother hothers⟩

theorem forall₂_map_right {α β : Type} {R : α → β → Prop} {f : α → β} {items : List α}
    (h : ∀ item ∈ items, R item (f item)) : List.Forall₂ R items (items.map f) := by
  rw [List.forall₂_map_right_iff]
  exact List.forall₂_same.mpr h

/-- Every item of a run has planned something. -/
theorem exists_plan_of_run {κ μ ω α : Type} [DecidableEq κ] [AddCommMonoid ω]
    {plan : α → (κ → Option μ) → Option (Edit κ μ ω)} {items : List α} {state state' : State κ μ ω}
    (h : run plan items state = some state') :
    ∀ item ∈ items, ∃ entries edit, plan item entries = some edit := by
  induction items generalizing state with
  | nil => simp
  | cons item items ih =>
    rw [run_cons, Option.bind_eq_some_iff] at h
    obtain ⟨changed, hstep, hrest⟩ := h
    obtain ⟨edit, hedit, -⟩ := Option.bind_eq_some_iff.mp hstep
    exact List.forall_mem_cons.mpr ⟨⟨_, edit, hedit⟩, ih hrest⟩

theorem contribute_quiet {α : Type} {declare : α → (String → Option Ground) → Option Contribution}
    {item other : α} (h : ∀ grounds contribution, declare item grounds = some contribution →
      declare other grounds = some { contribution with warnings := [] }) :
    Quiets (contribute declare item) (contribute declare other) := by
  intro entries edit hedit
  obtain ⟨contribution, hcontribution, rfl⟩ := Option.map_eq_some_iff.mp hedit
  rw [contribute, h _ _ hcontribution, Option.map_some]
  rfl

theorem quiet_relationships (relationships : List OsiRelationship) : List.Forall₂
    (fun item other => Quiets (contribute declareRelationship item) (contribute declareRelationship other))
    relationships (relationships.map tidyRelationship) :=
  forall₂_map_right fun _ _ => contribute_quiet fun _ _ h => declareRelationship_tidy h

theorem quiet_metrics (metrics : List OsiMetric) : List.Forall₂
    (fun item other => Quiets (contribute declareMetric item) (contribute declareMetric other))
    metrics (metrics.map tidyMetric) :=
  forall₂_map_right fun _ _ => contribute_quiet fun _ _ h => declareMetric_tidy h

/-- A semantic model declares what a tidy one declares, under whatever name, and the tidy one warns of
nothing. -/
theorem declareModels_tidy {catalog : CatalogSnapshot} {model : OsiSemanticModel}
    {state : Declarations} (h : declareModels catalog model = some state) (name : String) :
    ∃ tidy : OsiSemanticModel, tidy.name = name ∧ tidy.description = none ∧ tidy.aiContext = none ∧
      tidy.customExtensions = [] ∧ tidy.datasets.length = model.datasets.length ∧
      TidyModel catalog tidy ∧ declareModels catalog tidy = some ⟨state.entries, 0⟩ := by
  rw [declareModels] at h
  obtain ⟨populated, hpopulated, hrest⟩ := Option.bind_eq_some_iff.mp h
  split_ifs at hrest with hnames
  obtain ⟨related, hrelated, hmeasured⟩ := Option.bind_eq_some_iff.mp hrest
  generalize hindex : OrderedMap.collect
    (fun relation : CatalogRelation => toLex (relation.schema, relation.name)) catalog.relations =
      relationIndex at hpopulated
  have heach : ∀ dataset ∈ model.datasets, ∃ other,
      Quiets (planDataset catalog.currentDatabase relationIndex dataset)
        (planDataset catalog.currentDatabase relationIndex other) ∧
      Tidy catalog.currentDatabase relationIndex other := by
    intro dataset hdataset
    obtain ⟨entries, edit, hedit⟩ := exists_plan_of_run hpopulated dataset hdataset
    rw [planDataset] at hedit
    split_ifs at hedit
    obtain ⟨⟨entry, warnings⟩, hentry, -⟩ := Option.map_eq_some_iff.mp hedit
    rw [toOption_eq_some] at hentry
    exact ⟨_, planDataset_exported hentry, entry, importDatasetModel_exported hentry, rfl⟩
  obtain ⟨datasets, hdatasets⟩ := exists_tidy heach
  refine ⟨⟨name, none, none, datasets, model.relationships.map tidyRelationship,
    model.metrics.map tidyMetric, []⟩, rfl, rfl, rfl, rfl, hdatasets.length_eq.symm,
    ⟨?_, ?_, ?_⟩, ?_⟩
  · intro dataset hdataset
    obtain ⟨-, -, -, htidy⟩ := exists_of_forall₂ hdatasets hdataset
    rw [hindex]
    exact htidy
  · exact List.forall_mem_map.mpr fun _ _ => rfl
  · exact List.forall_mem_map.mpr fun metric _ => tidyMetric_idempotent metric
  · have hpopulated' : run (planDataset catalog.currentDatabase relationIndex) datasets
        ⟨fun _ => none, 0⟩ = some ⟨populated.entries, 0⟩ :=
      run_quiet (hdatasets.imp fun _ _ hboth => hboth.1) hpopulated 0
    have hrelated' : run (contribute declareRelationship) (model.relationships.map tidyRelationship)
        ⟨populated.entries, 0⟩ = some ⟨related.entries, 0⟩ :=
      run_quiet (quiet_relationships model.relationships) hrelated 0
    have hmeasured' : run (contribute declareMetric) (model.metrics.map tidyMetric)
        ⟨related.entries, 0⟩ = some ⟨state.entries, 0⟩ :=
      run_quiet (quiet_metrics model.metrics) hmeasured 0
    have hrelationships : (model.relationships.map tidyRelationship).map OsiRelationship.name =
        model.relationships.map OsiRelationship.name := by
      rw [List.map_map]
      rfl
    have hmetrics : (model.metrics.map tidyMetric).map OsiMetric.name =
        model.metrics.map OsiMetric.name := by
      rw [List.map_map]
      exact List.map_congr_left fun metric _ => name_tidyMetric metric
    rw [declareModels, hindex]
    have hlog : ((warnContext ("/semantic_model/" ++ name) none none : List OsiImportWarning) :
        Multiset OsiImportWarning) = 0 := rfl
    simp only [hlog, hpopulated', Option.bind_some, hrelationships, hmetrics]
    rw [if_pos hnames, hrelated', Option.bind_some, hmeasured']

end Tidied

/-! ## The exported document -/

section Exported

def exportedModel (name : String) (models : List Model) : OsiSemanticModel where
  name := name
  datasets := models.map exportDataset
  relationships := models.flatMap fun model =>
    model.relationships.map (exportRelationship model.semanticName)
  metrics := models.flatMap fun model => model.metrics.map (exportMetric model.semanticName)

/-- Nothing in the model is outside of the format. -/
structure Expressible (model : Model) : Prop where
  queryable : model.queryable = true
  writable : model.writable = none
  timezone : model.timezone = none
  fields : ∀ field ∈ model.fields, field.visible = true
  relationships : ∀ relationship ∈ model.relationships,
    relationship.cardinality = .manyToOne ∧ relationship.joinType = .left
  metrics : ∀ metric ∈ model.metrics, metric.visible = true ∧ metric.filter = none ∧
    metric.additivity = none ∧ metric.aggregationAnchor = none

theorem exportModel_expressible {model : Model} (h : Expressible model)
    (exported : OsiSemanticModel) : exportModel exported model = .ok
      { exported with
        datasets := exported.datasets ++ [exportDataset model]
        relationships := exported.relationships ++
          model.relationships.map (exportRelationship model.semanticName)
        metrics := exported.metrics ++ model.metrics.map (exportMetric model.semanticName) } := by
  have hmodel (path : String) : checkModel path model = .ok () := by
    simp [checkModel, h.queryable, h.writable, h.timezone]
  have hfields (path : String) : forEach (checkField path) model.fields = .ok () :=
    forEach_eq_ok.mpr fun field hfield => by simp [checkField, h.fields field hfield]
  have hrelationships (path : String) :
      forEach (checkRelationship path) model.relationships = .ok () :=
    forEach_eq_ok.mpr fun relationship hmem => by
      simp [checkRelationship, h.relationships relationship hmem]
  have hmetrics (path : String) : forEach (checkMetric path) model.metrics = .ok () :=
    forEach_eq_ok.mpr fun metric hmem => by simp [checkMetric, h.metrics metric hmem]
  simp only [exportModel, hmodel, hfields, hrelationships, hmetrics, ok_bind]

theorem exportModels_expressible {models : List Model} (h : ∀ model ∈ models, Expressible model)
    (name : String) : exportModels name models = .ok (exportedModel name models) := by
  have hloop : ∀ exported : OsiSemanticModel, models.foldlM exportModel exported = .ok
      { exported with
        datasets := exported.datasets ++ (exportedModel name models).datasets
        relationships := exported.relationships ++ (exportedModel name models).relationships
        metrics := exported.metrics ++ (exportedModel name models).metrics } := by
    induction models with
    | nil =>
      intro exported
      simp [exportedModel]
      rfl
    | cons model models ih =>
      obtain ⟨hmodel, hmodels⟩ := List.forall_mem_cons.mp h
      intro exported
      rw [List.foldlM_cons, exportModel_expressible hmodel, ok_bind, ih hmodels]
      simp [exportedModel]
  rw [exportModels, hloop]
  rfl

variable {state : ImportState}

theorem snapshot_models_perm (state : ImportState) :
    state.snapshot.models.Perm (state.imported.map fun entry => entry.2.model.normalized) := by
  rw [ImportState.snapshot, normalized_models]
  refine (sortByKeys_perm _ _).trans (.of_eq ?_)
  show (state.imported.map fun entry => entry.2.model).map Model.normalized = _
  rw [List.map_map]
  rfl

/-- The items of the models are those of the tidy document, model by model. -/
theorem perm_of_recorded {β γ : Type} {items : List γ} {keyOf : γ → String}
    {write : String → β → γ} {part : Model → List β}
    (hpart : ∀ model : Model, (part model.normalized).Perm (part model))
    (hnamed : WellNamed state.declarations)
    (heach : ∀ entry ∈ state.imported, ((part entry.2.model : Multiset β)).map (write entry.1) =
      ↑(items.filter fun item => keyOf item = entry.1))
    (hkeys : ∀ item ∈ items, (state.declarations.entries (keyOf item)).isSome) :
    items.Perm (state.snapshot.models.flatMap fun model =>
      (part model).map (write model.semanticName)) := by
  have hmodels : (state.snapshot.models.flatMap fun model =>
      (part model).map (write model.semanticName)).Perm
      (state.imported.flatMap fun entry => items.filter fun item => keyOf item = entry.1) := by
    refine ((snapshot_models_perm state).flatMap_right _).trans ?_
    rw [List.flatMap_map]
    refine List.Perm.flatMap_left _ fun entry hentry => ?_
    have hname : entry.2.model.normalized.semanticName = entry.1 :=
      (hnamed _ _ (entries_of_mem hentry)).semanticName
    rw [hname]
    exact ((hpart _).map _).trans (Multiset.coe_eq_coe.mp (heach entry hentry))
  refine (hmodels.trans ?_).symm
  have hthere : ∀ item ∈ items, keyOf item ∈ state.imported.map Prod.fst := by
    intro item hitem
    obtain ⟨declared, hdeclared⟩ := Option.isSome_iff_exists.mp (hkeys item hitem)
    obtain ⟨entry, hentry, -⟩ := Option.map_eq_some_iff.mp hdeclared
    exact List.mem_map_of_mem (f := Prod.fst) (state.sorted.mem_iff.mpr hentry)
  have hflat := perm_flatMap_filter state.sorted.nodup_keys hthere
  rwa [List.flatMap_map] at hflat

theorem describeDataset_reordered {model model' : Model} {fields fields' : List Field}
    (hname : model.semanticName = model'.semanticName) (hsource : model.source = model'.source)
    (h : fields.Perm fields') :
    (describeDataset model fields).Reordered (describeDataset model' fields') where
  rest := by simp only [describeDataset, hname, hsource, exportedKey_perm h]
  fields := h.map exportField

/-- The export lists what the tidy document lists. -/
theorem tidy_reordered {tidy : OsiSemanticModel} {log : Multiset OsiImportWarning} {name : String}
    (hrecorded : Recorded tidy ⟨state.declarations.entries, log⟩)
    (hnamed : WellNamed state.declarations) (hname : tidy.name = name)
    (hdescription : tidy.description = none) (hcontext : tidy.aiContext = none)
    (hextensions : tidy.customExtensions = []) :
    tidy.Reordered (exportedModel name state.snapshot.models) := by
  refine ⟨?_, ?_, ?_, ?_⟩
  · obtain ⟨_, _, _, _, _, _, _⟩ := tidy
    subst hname hdescription hcontext hextensions
    rfl
  · have hkeys : (tidy.datasets.map OsiDataset.name).Perm (state.imported.map Prod.fst) := by
      rw [List.perm_ext_iff_of_nodup hrecorded.nodup state.sorted.nodup_keys]
      intro key
      rw [← hrecorded.keys]
      show ((state.imported.lookup key).map ImportedModel.declared).isSome = true ↔ _
      rw [Option.isSome_map, Option.isSome_iff_exists, List.mem_map]
      constructor
      · rintro ⟨entry, hentry⟩
        exact ⟨(key, entry), state.sorted.mem_iff.mpr hentry, rfl⟩
      · rintro ⟨entry, hentry, rfl⟩
        exact ⟨entry.2, state.sorted.mem_iff.mp hentry⟩
    have hnames : List.Forall₂ (fun key dataset => OsiDataset.name dataset = key)
        (tidy.datasets.map OsiDataset.name) tidy.datasets :=
      List.forall₂_map_left_iff.mpr (List.forall₂_same.mpr fun _ _ => rfl)
    obtain ⟨datasets, hdatasets, hperm⟩ := List.perm_comp_forall₂ hkeys.symm hnames
    have hmodels : (exportedModel name state.snapshot.models).datasets.Perm
        (state.imported.map fun entry => exportDataset entry.2.model.normalized) := by
      refine ((snapshot_models_perm state).map exportDataset).trans (.of_eq ?_)
      rw [List.map_map]
      rfl
    refine Matched.of_perm hperm.symm hmodels ?_
    rw [List.forall₂_map_left_iff] at hdatasets
    rw [List.forall₂_map_right_iff]
    have hboth := (List.forall₂_and_left _ _).mpr ⟨fun entry hentry => hentry, hdatasets⟩
    refine ((List.forall₂_and_left _ _).mpr ⟨fun dataset hdataset => hdataset, hboth.flip⟩).imp ?_
    rintro dataset entry ⟨hdataset, hentry, hname⟩
    obtain ⟨declared, fields, hdeclared, hdescribe, hfields⟩ :=
      hrecorded.datasets dataset (hperm.mem_iff.mp hdataset)
    have hsame : entry.2.declared = declared := by
      rw [← Option.some.injEq, ← entries_of_mem hentry, ← hname]
      exact hdeclared
    rw [hdescribe, ← hsame]
    refine describeDataset_reordered rfl rfl ?_
    have hown : fields.Perm (entry.2.model.fields.filter fun field => field.relationship.isNone) := by
      rw [← Multiset.coe_eq_coe, hfields, ← hsame]
      show Multiset.filter _ (entry.2.model.fields : Multiset Field) = _
      rw [Multiset.filter_coe]
      simp only [Bool.decide_eq_true]
    exact hown.trans ((sortByKeys_perm _ _).filter _).symm
  · exact perm_of_recorded (fun model => sortByKeys_perm _ _) hnamed
      (fun entry hentry => hrecorded.relationships _ _ (entries_of_mem hentry)) hrecorded.related
  · exact perm_of_recorded (fun model => sortByKeys_perm _ _) hnamed
      (fun entry hentry => hrecorded.metrics _ _ (entries_of_mem hentry)) hrecorded.measured

end Exported

/-! ## What is imported can be exported -/

section Expressible

/-- Nothing that was declared is outside of the format. -/
structure Declared.Expressible (declared : Declared) : Prop where
  queryable : declared.ground.model.queryable = true
  writable : declared.ground.model.writable = none
  timezone : declared.ground.model.timezone = none
  fields : ∀ field ∈ declared.fields, field.visible = true
  relationships : ∀ relationship ∈ declared.relationships,
    relationship.cardinality = .manyToOne ∧ relationship.joinType = .left
  metrics : ∀ metric ∈ declared.metrics, metric.visible = true ∧ metric.filter = none ∧
    metric.additivity = none ∧ metric.aggregationAnchor = none

structure Addition.Expressible (addition : Addition) : Prop where
  fields : ∀ field ∈ addition.fields, field.visible = true
  relationships : ∀ relationship ∈ addition.relationships,
    relationship.cardinality = .manyToOne ∧ relationship.joinType = .left
  metrics : ∀ metric ∈ addition.metrics, metric.visible = true ∧ metric.filter = none ∧
    metric.additivity = none ∧ metric.aggregationAnchor = none

theorem Declared.Expressible.extend {declared : Declared} {addition : Addition}
    (h : declared.Expressible) (h' : addition.Expressible) : (declared.extend addition).Expressible :=
  ⟨h.queryable, h.writable, h.timezone,
    fun field hfield => (Multiset.mem_add.mp hfield).elim (h.fields field) (h'.fields field),
    fun relationship hmem => (Multiset.mem_add.mp hmem).elim (h.relationships relationship)
      (h'.relationships relationship),
    fun metric hmem => (Multiset.mem_add.mp hmem).elim (h.metrics metric) (h'.metrics metric)⟩

theorem contribute_expressible {α : Type} {declare : α → (String → Option Ground) → Option Contribution}
    (hdeclare : ∀ {item grounds contribution}, declare item grounds = some contribution →
      contribution.addition.Expressible) {item : α} {entries : String → Option Declared} {edit : Change}
    {entry : Option Declared} {changed : Declared} (hplan : contribute declare item entries = some edit)
    (hentry : ∀ old, entry = some old → old.Expressible) (hchanged : edit.update entry = some changed) :
    changed.Expressible := by
  obtain ⟨contribution, hcontribution, rfl⟩ := Option.map_eq_some_iff.mp hplan
  obtain ⟨declared, hdeclared, hadd⟩ := Option.bind_eq_some_iff.mp hchanged
  obtain ⟨-, rfl⟩ := Declared.add_eq_some.mp hadd
  exact (hentry declared hdeclared).extend (hdeclare hcontribution)

theorem planDataset_expressible {currentDatabase : String} {catalog : RelationIndex}
    {dataset : OsiDataset} {entries : String → Option Declared} {edit : Change}
    {entry : Option Declared} {changed : Declared}
    (hplan : planDataset currentDatabase catalog dataset entries = some edit)
    (hchanged : edit.update entry = some changed) : changed.Expressible := by
  rw [planDataset] at hplan
  split_ifs at hplan
  obtain ⟨result, hresult, rfl⟩ := Option.map_eq_some_iff.mp hplan
  rw [toOption_eq_some] at hresult
  simp only [importDatasetModel, bind_eq_ok, Except.ok.injEq] at hresult
  obtain ⟨evidence, -, items, hitems, -, -, rfl⟩ := hresult
  dsimp only at hchanged
  split_ifs at hchanged
  obtain rfl := Option.some.inj hchanged
  refine ⟨rfl, rfl, rfl, ?_, ?_, ?_⟩
  · intro field hfield
    obtain ⟨item, hitem, rfl⟩ := List.mem_map.mp (Multiset.mem_coe.mp hfield)
    obtain ⟨source, -, -, himport⟩ := exists_of_forall₂ (importFields_eq_ok.mp hitems).2.2 hitem
    simp only [importField, bind_eq_ok, Except.ok.injEq] at himport
    obtain ⟨-, -, -, -, -, -, -, -, -, -, -, -, rfl⟩ := himport
    rfl
  · exact fun relationship hmem => absurd hmem (Multiset.notMem_zero _)
  · exact fun metric hmem => absurd hmem (Multiset.notMem_zero _)

theorem declareRelationship_expressible {relationship : OsiRelationship}
    {grounds : String → Option Ground} {contribution : Contribution}
    (h : declareRelationship relationship grounds = some contribution) :
    contribution.addition.Expressible := by
  rw [declareRelationship] at h
  split_ifs at h
  simp only [Option.bind_eq_bind, Option.bind_eq_some_iff] at h
  obtain ⟨pair, -, toGround, -, toField, -, fromGround, -, fromField, -, hlast⟩ := h
  split_ifs at hlast
  obtain rfl := Option.some.inj hlast
  refine ⟨fun field hfield => ?_, fun relationship hmem => ?_, fun metric hmem => ?_⟩
  · obtain ⟨entry, -, rfl⟩ := List.mem_map.mp (Multiset.mem_coe.mp hfield)
    rfl
  · rw [Multiset.mem_singleton.mp hmem]
    exact ⟨rfl, rfl⟩
  · exact absurd hmem (Multiset.notMem_zero _)

theorem declareMetric_expressible {metric : OsiMetric} {grounds : String → Option Ground}
    {contribution : Contribution} (h : declareMetric metric grounds = some contribution) :
    contribution.addition.Expressible := by
  obtain ⟨parsed, field, -, -, haddition, -⟩ := declareMetric_cases h
  rw [haddition]
  refine ⟨fun field hfield => ?_, fun relationship hmem => ?_, fun metric hmem => ?_⟩
  · exact absurd hfield (Multiset.notMem_zero _)
  · exact absurd hmem (Multiset.notMem_zero _)
  · rw [Multiset.mem_singleton.mp hmem]
    exact ⟨rfl, rfl, rfl, rfl⟩

theorem declareModels_expressible {catalog : CatalogSnapshot} {model : OsiSemanticModel}
    {state : Declarations} (h : declareModels catalog model = some state) :
    ∀ key declared, state.entries key = some declared → declared.Expressible := by
  rw [declareModels] at h
  obtain ⟨populated, hpopulated, hrest⟩ := Option.bind_eq_some_iff.mp h
  split_ifs at hrest
  obtain ⟨related, hrelated, hmeasured⟩ := Option.bind_eq_some_iff.mp hrest
  refine forall_of_run (contribute_expressible declareMetric_expressible) ?_ hmeasured
  refine forall_of_run (contribute_expressible declareRelationship_expressible) ?_ hrelated
  exact forall_of_run (fun hplan _ hchanged => planDataset_expressible hplan hchanged)
    (fun key declared hentry => by cases hentry) hpopulated

theorem expressible_snapshot {state : ImportState}
    (h : ∀ key declared, state.declarations.entries key = some declared → declared.Expressible) :
    ∀ model ∈ state.snapshot.models, Expressible model := by
  intro model hmodel
  obtain ⟨entry, hentry, rfl⟩ := mem_snapshot_models.mp hmodel
  have hdeclared := h _ _ (entries_of_mem hentry)
  have hwritable : entry.2.model.writable = none := hdeclared.writable
  refine ⟨hdeclared.queryable, ?_, hdeclared.timezone, ?_, ?_, ?_⟩
  · show entry.2.model.writable.map _ = none
    rw [hwritable]
    rfl
  · exact fun field hfield => hdeclared.fields field ((sortByKeys_perm _ _).mem_iff.mp hfield)
  · exact fun relationship hmem =>
      hdeclared.relationships relationship ((sortByKeys_perm _ _).mem_iff.mp hmem)
  · exact fun metric hmem => hdeclared.metrics metric ((sortByKeys_perm _ _).mem_iff.mp hmem)

end Expressible

/-! ## Nullability -/

section Nullability
variable {snapshot : SemanticSnapshot}

theorem resolveNullability_nil (reimported snapshot : SemanticSnapshot) :
    resolveNullability [] reimported snapshot = .ok snapshot := by
  have hfields (model : Model) :
      model.fields.mapM (resolveField [] reimported model.semanticName) = .ok model.fields := by
    have heach : ∀ field ∈ model.fields,
        resolveField [] reimported model.semanticName field = .ok (id field) :=
      fun field _ => if_neg List.not_mem_nil
    rw [mapM_of_ok heach, List.map_id]
  have hmodels : snapshot.models.mapM (resolveModel [] reimported) = .ok snapshot.models := by
    have heach : ∀ model ∈ snapshot.models, resolveModel [] reimported model = .ok (id model) := by
      intro model _
      rw [resolveModel, hfields]
      rfl
    rw [mapM_of_ok heach, List.map_id]
  rw [resolveNullability, hmodels]
  rfl

/-- The names that the database keeps unique, as far as a search by name needs them. -/
structure NamedOnce (snapshot : SemanticSnapshot) : Prop where
  models : (snapshot.models.map Model.semanticName).Nodup
  fields : ∀ model ∈ snapshot.models, (model.fields.map Field.semanticName).Nodup

theorem reimportedField_of_mem (hnamed : NamedOnce snapshot) {model : Model}
    (hmodel : model ∈ snapshot.models) {field : Field} (hfield : field ∈ model.fields) :
    reimportedField snapshot model.semanticName field.semanticName = some field := by
  rw [reimportedField, (find?_eq_some_iff hnamed.models).mpr ⟨hmodel, rfl⟩, Option.bind_some]
  exact (find?_eq_some_iff (hnamed.fields model hmodel)).mpr ⟨hfield, rfl⟩

/-- The nullability of every field is found again. -/
theorem resolveNullability_hashed (hnamed : NamedOnce snapshot) {omitted : List (String × String)}
    (homitted : ∀ model ∈ snapshot.models, ∀ field ∈ model.fields,
      (model.semanticName, field.semanticName) ∈ omitted) :
    resolveNullability omitted snapshot snapshot.hashed = .ok snapshot := by
  have hfields : ∀ model ∈ snapshot.models, (model.fields.map Field.hashed).mapM
      (resolveField omitted snapshot model.semanticName) = .ok model.fields := by
    intro model hmodel
    rw [List.mapM_map]
    have heach : ∀ field ∈ model.fields,
        (resolveField omitted snapshot model.semanticName ∘ Field.hashed) field = .ok (id field) := by
      intro field hfield
      have hfound := reimportedField_of_mem hnamed hmodel hfield
      have hmem : (model.semanticName, field.hashed.semanticName) ∈ omitted :=
        homitted model hmodel field hfield
      have hsame : field.hashed.semanticName = field.semanticName := rfl
      rw [Function.comp_apply, resolveField, if_pos hmem, hsame, hfound, orError_some, ok_bind]
      rfl
    rw [mapM_of_ok heach, List.map_id]
  have hmodels : (snapshot.models.map Model.hashed).mapM (resolveModel omitted snapshot) =
      .ok snapshot.models := by
    rw [List.mapM_map]
    have heach : ∀ model ∈ snapshot.models,
        (resolveModel omitted snapshot ∘ Model.hashed) model = .ok (id model) := by
      intro model hmodel
      have hresolved := hfields model hmodel
      show (do
        let fields ← (model.fields.map Field.hashed).mapM
          (resolveField omitted snapshot model.semanticName)
        .ok { model.hashed with fields }) = _
      rw [hresolved]
      rfl
    rw [mapM_of_ok heach, List.map_id]
  show (do
    let models ← (snapshot.models.map Model.hashed).mapM (resolveModel omitted snapshot)
    .ok { snapshot.hashed with models }) = _
  rw [hmodels]
  rfl

theorem fields_of_toValue (model : Model) :
    memberOrNull model.toValue "fields" = .array (model.fields.map Field.toValue) := by
  obtain ⟨semanticName, source, timezone, queryable, writable, fields, metrics, relationships⟩ := model
  cases writable <;> rfl

/-- No field that was written has its nullability with it. -/
theorem mem_omittedNullability {model : Model} (hmodel : model ∈ snapshot.models) {field : Field}
    (hfield : field ∈ model.fields) : (model.semanticName, field.semanticName) ∈
      omittedNullability snapshot.toValue snapshot.hashed := by
  obtain ⟨i, hi⟩ := List.mem_iff_getElem?.mp hmodel
  obtain ⟨j, hj⟩ := List.mem_iff_getElem?.mp hfield
  have hmodel' : (model.hashed, i) ∈ snapshot.hashed.models.zipIdx := by
    rw [List.mk_mem_zipIdx_iff_getElem?]
    show (snapshot.models.map Model.hashed)[i]? = _
    rw [List.getElem?_map, hi, Option.map_some]
  have hfield' : (field.hashed, j) ∈ model.hashed.fields.zipIdx := by
    rw [List.mk_mem_zipIdx_iff_getElem?]
    show (model.fields.map Field.hashed)[j]? = _
    rw [List.getElem?_map, hj, Option.map_some]
  have hmodels : memberOrNull snapshot.toValue "models" = .array (snapshot.models.map Model.toValue) :=
    rfl
  have hwritten : itemOrNull (memberOrNull
      (itemOrNull (memberOrNull snapshot.toValue "models") i) "fields") j = field.toValue := by
    rw [hmodels, itemOrNull, List.getElem?_map, hi, Option.map_some, Option.getD_some,
      fields_of_toValue, itemOrNull, List.getElem?_map, hj, Option.map_some, Option.getD_some]
  have hnone : Json.lastMember "nullable" field.toValue = none := rfl
  refine List.mem_flatMap.mpr ⟨_, hmodel', List.mem_filterMap.mpr ⟨_, hfield', ?_⟩⟩
  dsimp only
  rw [hwritten, hnone]
  rfl

end Nullability

/-! ## The round trip -/

section RoundTrip
variable {backend : ExportBackend} {catalog : CatalogSnapshot} {name : String}

/-- The writer of YAML writes what the reader reads. -/
def ExportBackend.ReadsWritten (backend : ExportBackend) : Prop :=
  ∀ document yaml, backend.writeDocument document = some yaml →
    backend.readDocument yaml = some document

theorem exportedModel_hashed (name : String) (models : List Model) :
    exportedModel name (models.map Model.hashed) = exportedModel name models := by
  have hdataset (model : Model) : exportDataset model.hashed = exportDataset model := by
    have hown : (model.fields.map Field.hashed).filter (fun field => field.relationship.isNone) =
        (model.fields.filter fun field => field.relationship.isNone).map Field.hashed := by
      rw [List.filter_map]
      rfl
    have hkey : exportedKey ((model.fields.filter fun field => field.relationship.isNone).map
        Field.hashed) = exportedKey (model.fields.filter fun field => field.relationship.isNone) := by
      rw [exportedKey, List.filter_map, List.map_map]
      rfl
    show describeDataset model.hashed ((model.fields.map Field.hashed).filter _) = _
    rw [hown]
    simp only [describeDataset, hkey, List.map_map]
    rfl
  simp only [exportedModel, List.map_map, List.flatMap_map, Function.comp_def, hdataset]
  rfl

/-- A document with one semantic model, whether it is selected by its name or not. -/
theorem importOsi_single {document : OsiSemanticModel} {state : ImportState} {yaml : List UInt8}
    {canonical : CatalogSnapshot} {hash : String} {selected : Option String}
    (hyaml : backend.readDocument yaml = some ⟨[document], []⟩)
    (hname : portableIdentifier document.name = true) (hextensions : document.customExtensions = [])
    (hselected : selected = none ∨ selected = some document.name)
    (hcatalog : catalog.validatedNormalized backend.toCatalogBackend = .ok canonical)
    (hstate : importModels canonical document = .ok state)
    (hhash : state.snapshot.calculateRevisionHash backend.toHashBackend = some hash) :
    ∃ report, importOsi backend.toImportBackend yaml catalog selected = .ok report ∧
      report.warnings.Perm state.warnings ∧
      report.snapshot = { state.snapshot with revisionHash := hash } := by
  have hselect : selectSemanticModel [document] selected = .ok document := by
    rcases hselected with rfl | rfl
    · rfl
    · simp [selectSemanticModel, orError]
  have hunique : ensureUniqueNames "semantic model" [document.name] = .ok () :=
    ensureUniqueNames_eq_ok.mpr (List.nodup_singleton _)
  have himport : importOsi backend.toImportBackend yaml catalog selected = .ok
      { schemaVersion := importSchemaVersion
        sourceFormat := "apache-ossie"
        sourceVersion := osiVersion
        sourceHash := backend.sha256 yaml
        catalogFingerprint := canonical.fingerprint
        semanticModel := document.name
        warnings := sortByKeys (fun warning => [warning.path, warning.code]) state.warnings
        snapshot := { state.snapshot with revisionHash := hash } } := by
    simp only [importOsi, hyaml, orError_some, ok_bind, rejectExtensions, List.isEmpty_nil, ensure_true,
      List.map_cons, List.map_nil, hunique, hselect, validateIdentifier, hname, hextensions, hcatalog,
      mapError_ok, hstate, hhash]
  exact ⟨_, himport, sortByKeys_perm _ _, rfl⟩

/-- What an import that succeeded has established. -/
theorem importOsi_models {input : List UInt8} {selected : Option String} {report : OsiImportReport}
    (h : importOsi backend.toImportBackend input catalog selected = .ok report) :
    ∃ document model canonical state hash, backend.readDocument input = some document ∧
      selectSemanticModel document.semanticModel selected = .ok model ∧
      catalog.validatedNormalized backend.toCatalogBackend = .ok canonical ∧
      importModels canonical model = .ok state ∧
      state.snapshot.calculateRevisionHash backend.toHashBackend = some hash ∧
      report.snapshot = { state.snapshot with revisionHash := hash } := by
  simp only [importOsi, bind_eq_ok, orError_eq_ok, mapError_eq_ok, Except.ok.injEq] at h
  obtain ⟨document, hread, -, -, -, -, model, hmodel, -, -, -, -, canonical, hcatalog, state, hstate, hash,
    hhash, rfl⟩ := h
  exact ⟨document, model, canonical, state, hash, hread, hmodel, hcatalog, hstate, hhash, rfl⟩

/-- The exported document declares what was imported, and nothing that needs a warning. -/
theorem importModels_exported {canonical : CatalogSnapshot} {model : OsiSemanticModel}
    {state : ImportState} (h : importModels canonical model = .ok state) (name : String) :
    ∃ state', importModels canonical (exportedModel name state.snapshot.models) = .ok state' ∧
      state'.snapshot = state.snapshot ∧ state'.warnings = [] ∧
      state.snapshot.models.length = model.datasets.length := by
  have hdeclared : declareModels canonical model = some state.declarations := by
    rw [← importModels_simulates, h, toOption_ok, Option.map_some]
  have hnamed := declareModels_wellNamed hdeclared
  obtain ⟨tidy, hname, hdescription, hcontext, hextensions, hlength, htidy, hsame⟩ :=
    declareModels_tidy hdeclared name
  have hreordered := tidy_reordered (declareModels_recorded htidy hsame) hnamed hname hdescription
    hcontext hextensions
  have hexported : (importModels canonical (exportedModel name state.snapshot.models)).toOption.map
      ImportState.declarations = some ⟨state.declarations.entries, 0⟩ := by
    rw [importModels_simulates, ← declareModels_reordered canonical hreordered, hsame]
  obtain ⟨state', hstate', hdeclarations⟩ := Option.map_eq_some_iff.mp hexported
  refine ⟨state', toOption_eq_some.mp hstate', ?_, ?_, ?_⟩
  · exact (snapshot_eq_of_entries_eq (congrArg Edits.State.entries hdeclarations).symm hnamed).symm
  · exact Multiset.coe_eq_zero state'.warnings |>.mp (congrArg Edits.State.log hdeclarations)
  · obtain ⟨datasets, heach, hperm⟩ := hreordered.datasets
    have hmodels : (exportedModel name state.snapshot.models).datasets.length =
        state.snapshot.models.length := List.length_map _
    rw [← hmodels, ← hperm.length_eq, ← heach.length_eq, hlength]

theorem namedOnce_snapshot {state : ImportState} (hnamed : WellNamed state.declarations) :
    NamedOnce state.snapshot where
  models := hnamed.nodup_snapshot
  fields model hmodel := by
    obtain ⟨entry, hentry, rfl⟩ := mem_snapshot_models.mp hmodel
    exact (((sortByKeys_perm _ _).map _).nodup_iff).mpr (hnamed _ _ (entries_of_mem hentry)).fields

/-- A snapshot that passes the checks, and what is exported of it, is given out when the import gives the
snapshot again. -/
theorem exportWithCatalogNullability_eq {snapshot original : SemanticSnapshot}
    {omitted : List (String × String)} {yaml : List UInt8} {report : OsiImportReport}
    (hversion : snapshot.schemaVersion = "1")
    (hhash : snapshot.calculateRevisionHash backend.toHashBackend = some snapshot.revisionHash)
    (hnormal : snapshot.normalized = snapshot) (hmodels : snapshot.models ≠ [])
    (hexported : exportModels name snapshot.models = .ok (exportedModel name snapshot.models))
    (hyaml : backend.writeDocument ⟨[exportedModel name snapshot.models], []⟩ = some yaml)
    (himport : importOsi backend.toImportBackend yaml catalog none = .ok report)
    (hsnapshot : report.snapshot = original)
    (hresolved : resolveNullability omitted original snapshot = .ok original) :
    exportWithCatalogNullability backend snapshot catalog name omitted = .ok yaml := by
  have hnonempty : (!snapshot.models.isEmpty) = true := by simpa using hmodels
  simp only [exportWithCatalogNullability, hversion, BEq.rfl, ensure_true, ok_bind, hhash, orError_some,
    hnormal, hnonempty, hexported, hyaml, himport, mapError_ok, hsnapshot, hresolved]

theorem Expressible.hashed {model : Model} (h : Expressible model) : Expressible model.hashed := by
  refine ⟨h.queryable, h.writable, h.timezone, ?_, h.relationships, h.metrics⟩
  exact List.forall_mem_map.mpr fun field hfield => h.fields field hfield

/-- What is expressible has no number in it. -/
theorem inRange_of_expressible {snapshot : SemanticSnapshot}
    (h : ∀ model ∈ snapshot.models, Expressible model) : snapshot.InRange := by
  intro model hmodel
  have hexpressible := h model hmodel
  refine ⟨fun writable hwritable => ?_, fun metric hmetric filter hfilter => ?_⟩
  · rw [hexpressible.writable] at hwritable
    cases hwritable
  · rw [(hexpressible.metrics metric hmetric).2.1] at hfilter
    cases hfilter

/-- A snapshot in normal form with its revision hash, in which the export can express everything. -/
structure Exportable (backend : ExportBackend) (snapshot : SemanticSnapshot) : Prop where
  version : snapshot.schemaVersion = "1"
  hash : snapshot.calculateRevisionHash backend.toHashBackend = some snapshot.revisionHash
  normal : snapshot.normalized = snapshot
  models : snapshot.models ≠ []
  expressible : ∀ model ∈ snapshot.models, Expressible model
  named : NamedOnce snapshot

variable {snapshot : SemanticSnapshot} {yaml : List UInt8} {report : OsiImportReport}

theorem Exportable.hashed (hfaithful : backend.toHashBackend.Faithful)
    (h : Exportable backend snapshot) :
    snapshot.hashed.calculateRevisionHash backend.toHashBackend =
        some snapshot.hashed.revisionHash ∧
      snapshot.hashed.normalized = snapshot.hashed ∧ snapshot.hashed.models ≠ [] ∧
      ∀ model ∈ snapshot.hashed.models, Expressible model := by
  refine ⟨?_, ?_, ?_, ?_⟩
  · rw [SemanticSnapshot.calculateRevisionHash_hashed hfaithful, h.hash]
    rfl
  · rw [SemanticSnapshot.normalized_hashed, h.normal]
  · exact fun hempty => h.models (List.map_eq_nil_iff.mp hempty)
  · exact List.forall_mem_map.mpr fun model hmodel => (h.expressible model hmodel).hashed

/-- The snapshot is given out as a value, when the text is imported as the same snapshot. -/
theorem exportOsi_exportable (h : Exportable backend snapshot)
    (hyaml : backend.writeDocument ⟨[exportedModel name snapshot.models], []⟩ = some yaml)
    (himport : importOsi backend.toImportBackend yaml catalog none = .ok report)
    (hsnapshot : report.snapshot = snapshot) :
    exportOsi backend snapshot catalog name = .ok yaml :=
  exportWithCatalogNullability_eq h.version h.hash h.normal h.models
    (exportModels_expressible h.expressible name) hyaml himport hsnapshot
    (resolveNullability_nil snapshot snapshot)

/-- So is its JSON text, which has no nullability: it is found in the catalog. -/
theorem exportJson_exportable (hfaithful : backend.toHashBackend.Faithful)
    (h : Exportable backend snapshot)
    (hyaml : backend.writeDocument ⟨[exportedModel name snapshot.models], []⟩ = some yaml)
    (himport : importOsi backend.toImportBackend yaml catalog none = .ok report)
    (hsnapshot : report.snapshot = snapshot) :
    exportJson backend (bytesOf snapshot.json) catalog name = .ok yaml := by
  have hrange := inRange_of_expressible h.expressible
  have hdocument : (Json.read (bytesOf snapshot.json)).filter (fun value =>
      value.numbersAll (Json.readsNumber backend.finite)) = some snapshot.toValue := by
    rw [snapshot.read_json, Option.filter_some,
      if_pos (SemanticSnapshot.numbersAll_toValue hrange)]
  rw [exportJson, parseSnapshot_json hrange, orError_some, ok_bind, hdocument, orError_some, ok_bind]
  obtain ⟨hhash, hnormal, hmodels, hexpressible⟩ := h.hashed hfaithful
  have hsame : exportedModel name snapshot.hashed.models = exportedModel name snapshot.models :=
    exportedModel_hashed name snapshot.models
  have hexported := exportModels_expressible hexpressible name
  have hresolved : resolveNullability (omittedNullability snapshot.toValue snapshot.hashed) snapshot
      snapshot.hashed = .ok snapshot :=
    resolveNullability_hashed h.named fun _ hmodel _ hfield => mem_omittedNullability hmodel hfield
  rw [← hsame] at hyaml
  exact exportWithCatalogNullability_eq h.version hhash hnormal hmodels hexported hyaml himport
    hsnapshot hresolved

/-- A snapshot that was imported is exported, as a value and from its JSON text, and the export is
imported as the same snapshot without a warning. -/
theorem export_import_round_trip (hfaithful : backend.toHashBackend.Faithful)
    (hreads : backend.ReadsWritten) {input : List UInt8} {selected : Option String}
    {document : OsiDocument} {model : OsiSemanticModel} {report : OsiImportReport}
    (hread : backend.readDocument input = some document)
    (hselect : selectSemanticModel document.semanticModel selected = .ok model)
    (hdatasets : model.datasets ≠ [])
    (himport : importOsi backend.toImportBackend input catalog selected = .ok report)
    (hname : portableIdentifier name = true)
    (hwrites : (backend.writeDocument ⟨[exportedModel name report.snapshot.models], []⟩).isSome)
    {selected' : Option String} (hselected : selected' = none ∨ selected' = some name) :
    ∃ yaml report', exportOsi backend report.snapshot catalog name = .ok yaml ∧
      exportJson backend (bytesOf report.snapshot.json) catalog name = .ok yaml ∧
      importOsi backend.toImportBackend yaml catalog selected' = .ok report' ∧
      report'.warnings = [] ∧ report'.snapshot = report.snapshot := by
  obtain ⟨document', model', canonical, state, hash, hread', hselect', hcatalog, hstate, hhash,
    hreport⟩ := importOsi_models himport
  rw [hread, Option.some.injEq] at hread'
  subst hread'
  rw [hselect, Except.ok.injEq] at hselect'
  subst hselect'
  obtain ⟨yaml, hyaml⟩ := Option.isSome_iff_exists.mp hwrites
  obtain ⟨state', hstate', hsnapshot, hwarnings, hlength⟩ := importModels_exported hstate name
  have hdeclared : declareModels canonical model = some state.declarations := by
    rw [← importModels_simulates, hstate, toOption_ok, Option.map_some]
  have hnamed := declareModels_wellNamed hdeclared
  have hexpressible := expressible_snapshot (declareModels_expressible hdeclared)
  have hmodels : report.snapshot.models = state.snapshot.models := by rw [hreport]
  rw [hmodels] at hyaml
  rw [← hsnapshot] at hhash hreport
  have hagain : ∀ selected', selected' = none ∨ selected' = some name → ∃ report',
      importOsi backend.toImportBackend yaml catalog selected' = .ok report' ∧
        report'.warnings = [] ∧ report'.snapshot = report.snapshot := by
    intro selected' hselected
    rw [hreport]
    obtain ⟨report', hreport', hperm, hsame⟩ :=
      importOsi_single (hreads _ _ hyaml) hname rfl hselected hcatalog hstate' hhash
    rw [hwarnings] at hperm
    exact ⟨report', hreport', hperm.eq_nil, hsame⟩
  have hexportable : Exportable backend report.snapshot := by
    have hnormal : state'.snapshot.normalized = state'.snapshot :=
      SemanticSnapshot.normalized_idempotent _
    have hempty : state.snapshot.models ≠ [] := by
      rw [← List.length_pos_iff, hlength, List.length_pos_iff]
      exact hdatasets
    rw [hreport]
    refine ⟨rfl, hhash, ?_, hsnapshot ▸ hempty, hsnapshot ▸ hexpressible, ?_⟩
    · show { state'.snapshot.normalized with revisionHash := hash } = _
      rw [hnormal]
    · have honce := namedOnce_snapshot hnamed
      rw [← hsnapshot] at honce
      exact ⟨honce.models, honce.fields⟩
  obtain ⟨again, himported, -, hsame⟩ := hagain none (.inl rfl)
  obtain ⟨report', hreport', hquiet, hsame'⟩ := hagain selected' hselected
  rw [← hmodels] at hyaml
  exact ⟨yaml, report', exportOsi_exportable hexportable hyaml himported hsame,
    exportJson_exportable hfaithful hexportable hyaml himported hsame, hreport', hquiet, hsame'⟩

/-! The shop is exported under another name. -/

def exportedField (column : String) : OsiField :=
  { name := column, expression := .ansi column, dimension := some ⟨some false⟩ }

def retailModel : OsiSemanticModel :=
  { name := "retail"
    datasets := [
      { name := "customers", source := "shop.customers", primaryKey := ["id"]
        fields := [exportedField "id"] },
      { name := "orders", source := "shop.orders", primaryKey := ["id"]
        fields := [exportedField "customer_id", exportedField "id"] }]
    relationships := [buyer]
    metrics := [counted "customers", counted "orders"] }

def writtenDataset (name : String) (columns : List String) : String :=
  "  - name: " ++ name ++ "\n    source: shop." ++ name ++ "\n    primary_key:\n    - id\n    fields:\n"
    ++ String.join (columns.map fun column =>
      itemText "    " column column ++ "      dimension:\n        is_time: false\n")

def retailText : String :=
  "semantic_model:\n- name: retail\n  datasets:\n" ++ writtenDataset "customers" ["id"]
    ++ writtenDataset "orders" ["customer_id", "id"]
    ++ "  relationships:\n  - name: buyer\n    from: orders\n    to: customers\n"
    ++ "    from_columns:\n    - customer_id\n    to_columns:\n    - id\n  metrics:\n"
    ++ metricText "customers" ++ metricText "orders"

/-- The reader and the writer of YAML, as far as the two texts go. -/
def readRetail (input : List UInt8) : Option OsiDocument :=
  if input = bytesOf retailText then some ⟨[retailModel], []⟩ else readShop input

def writeRetail (document : OsiDocument) : Option (List UInt8) :=
  if document = ⟨[retailModel], []⟩ then some (bytesOf retailText) else none

def shopExport : ExportBackend :=
  { standardCatalog with
    readDocument := readRetail
    writeDocument := writeRetail
    finite := fun _ => true }

theorem shopExport_readDocument : shopExport.readDocument = readRetail := rfl

theorem shopExport_writeDocument : shopExport.writeDocument = writeRetail := rfl

theorem shopExport_readsWritten : shopExport.ReadsWritten := by
  intro document yaml hyaml
  rw [shopExport_writeDocument, writeRetail] at hyaml
  split_ifs at hyaml with hdocument
  rw [← Option.some.inj hyaml, hdocument, shopExport_readDocument, readRetail, if_pos rfl]

theorem shop_exported : ∃ state, importModels shopCatalog.normalize shopModel = .ok state ∧
    exportedModel "retail" state.snapshot.models = retailModel := by
  have hok : succeedsWith (importModels shopCatalog.normalize shopModel) (fun state =>
      decide (exportedModel "retail" state.snapshot.models = retailModel)) = true := by
    decide +kernel
  obtain ⟨state, hstate, hsame⟩ := exists_ok_of_succeedsWith hok
  exact ⟨state, hstate, of_decide_eq_true hsame⟩

theorem export_import_round_trip_shop :
    ∃ report, importOsi shopExport.toImportBackend (bytesOf shopText) shopCatalog none = .ok report ∧
      ∃ yaml report', exportOsi shopExport report.snapshot shopCatalog "retail" = .ok yaml ∧
        exportJson shopExport (bytesOf report.snapshot.json) shopCatalog "retail" = .ok yaml ∧
        importOsi shopExport.toImportBackend yaml shopCatalog none = .ok report' ∧
        report'.warnings = [] ∧ report'.snapshot = report.snapshot := by
  obtain ⟨state, hstate, hexported⟩ := shop_exported
  have hother : bytesOf shopText ≠ bytesOf retailText := by decide +kernel
  have hread : shopExport.readDocument (bytesOf shopText) = some ⟨[shopModel], []⟩ := by
    rw [shopExport_readDocument, readRetail, if_neg hother, readShop, if_pos rfl]
  generalize bytesOf shopText = input at hread
  obtain ⟨hash, hhash⟩ : ∃ hash,
      state.snapshot.calculateRevisionHash shopExport.toHashBackend = some hash := ⟨_, rfl⟩
  obtain ⟨report, hreport, -, hsnapshot⟩ := importOsi_single hread
    (by decide) rfl (.inl rfl) shopCatalog_accepted hstate hhash
  have hmodels : exportedModel "retail" report.snapshot.models = retailModel := by
    rw [hsnapshot]
    exact hexported
  have hwrites : (shopExport.writeDocument
      ⟨[exportedModel "retail" report.snapshot.models], []⟩).isSome := by
    rw [hmodels, shopExport_writeDocument, writeRetail, if_pos rfl, Option.isSome_some]
  have hfaithful : shopExport.toHashBackend.Faithful := standardHash_faithful
  exact ⟨report, hreport, export_import_round_trip hfaithful shopExport_readsWritten hread rfl
    (List.cons_ne_nil _ _) hreport (by decide) hwrites (.inl rfl)⟩

end RoundTrip

end Postgresem.Osi
