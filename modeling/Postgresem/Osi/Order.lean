import Postgresem.Catalog.Evidence
import Postgresem.Osi.Simulation
import Postgresem.Semantic.Canonical

/-! Documents that list the same items in different orders import alike. -/
namespace Postgresem.Osi
open Control Edits Named

/-- The second dataset lists the fields of the first in another order. -/
structure OsiDataset.Reordered (dataset dataset' : OsiDataset) : Prop where
  rest : { dataset with fields := [] } = { dataset' with fields := [] }
  fields : dataset.fields.Perm dataset'.fields

structure OsiSemanticModel.Reordered (model model' : OsiSemanticModel) : Prop where
  rest : { model with datasets := [], relationships := [], metrics := [] } =
    { model' with datasets := [], relationships := [], metrics := [] }
  datasets : Matched OsiDataset.Reordered model.datasets model'.datasets
  relationships : model.relationships.Perm model'.relationships
  metrics : model.metrics.Perm model'.metrics

/-- The second document has the semantic models of the first, with their datasets, the fields of
each dataset, their relationships and their metrics in another order. -/
structure OsiDocument.Reordered (document document' : OsiDocument) : Prop where
  customExtensions : document.customExtensions = document'.customExtensions
  semanticModel : List.Forall₂ OsiSemanticModel.Reordered document.semanticModel
    document'.semanticModel

theorem OsiDataset.Reordered.symm {dataset dataset' : OsiDataset}
    (h : dataset.Reordered dataset') : dataset'.Reordered dataset :=
  ⟨h.rest.symm, h.fields.symm⟩

theorem OsiSemanticModel.Reordered.symm {model model' : OsiSemanticModel}
    (h : model.Reordered model') : model'.Reordered model := by
  refine ⟨h.rest.symm, ?_, h.relationships.symm, h.metrics.symm⟩
  obtain ⟨datasets, heach, hperm⟩ := h.datasets
  exact .of_perm hperm.symm (.refl _) (heach.flip.imp fun _ _ => OsiDataset.Reordered.symm)

theorem OsiDocument.Reordered.symm {document document' : OsiDocument}
    (h : document.Reordered document') : document'.Reordered document :=
  ⟨h.customExtensions.symm,
    h.semanticModel.flip.imp fun _ _ => OsiSemanticModel.Reordered.symm⟩

/-! ## The fields of a dataset -/

theorem importFields_eq_ok {path : String} {columns : List (String × CatalogColumn)}
    {entityKeys seen : List String} {fields : List OsiField}
    {items : List (Field × List OsiImportWarning)} :
    importFields path columns entityKeys seen fields = .ok items ↔
      (fields.map OsiField.name).Nodup ∧ (∀ field ∈ fields, field.name ∉ seen) ∧
        List.Forall₂ (fun field item => portableIdentifier field.name = true ∧
          importField path columns entityKeys field = .ok item) fields items := by
  induction fields generalizing seen items with
  | nil => cases items <;> simp [importFields]
  | cons field fields ih =>
    simp only [importFields, validateIdentifier, bind_eq_ok, ensure_eq_ok, decide_eq_true_eq, ih,
      Except.ok.injEq, List.map_cons, List.nodup_cons]
    constructor
    · rintro ⟨-, hname, -, hseen, first, hfirst, others, ⟨hnodup, hrest, hothers⟩, rfl⟩
      refine ⟨⟨?_, hnodup⟩, ?_, .cons ⟨hname, hfirst⟩ hothers⟩
      · intro hmem
        obtain ⟨other, hother, hsame⟩ := List.mem_map.mp hmem
        exact hrest other hother (hsame ▸ List.mem_cons_self)
      · refine List.forall_mem_cons.mpr ⟨hseen, fun other hother hmem => ?_⟩
        exact hrest other hother (List.mem_cons_of_mem _ hmem)
    · rintro ⟨⟨hmem, hnodup⟩, hseen, hitems⟩
      obtain ⟨hfield, hrest⟩ := List.forall_mem_cons.mp hseen
      cases hitems with
      | @cons _ first _ others hfirst hothers =>
        refine ⟨(), hfirst.1, (), hfield, first, hfirst.2, others, ⟨hnodup, ?_, hothers⟩, rfl⟩
        intro other hother hin
        rcases List.mem_cons.mp hin with hsame | hin
        · exact hmem (hsame ▸ List.mem_map_of_mem hother)
        · exact hrest other hother hin

theorem semanticName_of_importField {path : String} {columns : List (String × CatalogColumn)}
    {entityKeys : List String} {field : OsiField} {item : Field × List OsiImportWarning}
    (h : importField path columns entityKeys field = .ok item) :
    item.1.semanticName = field.name := by
  simp only [importField, bind_eq_ok, Except.ok.injEq] at h
  obtain ⟨-, -, -, -, -, -, -, -, -, -, -, -, rfl⟩ := h
  rfl

theorem nodup_of_importFields {path : String} {columns : List (String × CatalogColumn)}
    {entityKeys : List String} {fields : List OsiField}
    {items : List (Field × List OsiImportWarning)}
    (h : importFields path columns entityKeys [] fields = .ok items) :
    ((items.map Prod.fst).map Field.semanticName).Nodup := by
  obtain ⟨hnodup, -, hitems⟩ := importFields_eq_ok.mp h
  have hnames : fields.map OsiField.name = (items.map Prod.fst).map Field.semanticName := by
    rw [List.map_map, ← List.forall₂_eq_eq_eq, List.forall₂_map_left_iff,
      List.forall₂_map_right_iff]
    exact hitems.imp fun field item hitem => (semanticName_of_importField hitem.2).symm
  rwa [← hnames]

theorem importFields_perm {path : String} {columns : List (String × CatalogColumn)}
    {entityKeys : List String} {fields fields' : List OsiField} (hperm : fields.Perm fields')
    {items : List (Field × List OsiImportWarning)}
    (h : importFields path columns entityKeys [] fields = .ok items) :
    ∃ items', importFields path columns entityKeys [] fields' = .ok items' ∧
      items'.Perm items := by
  obtain ⟨hnodup, -, hitems⟩ := importFields_eq_ok.mp h
  obtain ⟨items', hitems', hperm'⟩ := List.perm_comp_forall₂ hperm.symm hitems
  refine ⟨items', importFields_eq_ok.mpr ⟨?_, by simp, hitems'⟩, hperm'⟩
  exact (hperm.map OsiField.name).nodup_iff.mp hnodup

theorem importedFields_perm {fields fields' : List Field} (hperm : fields'.Perm fields)
    (hnodup : (fields.map Field.semanticName).Nodup) :
    importedFields fields' = importedFields fields := by
  have hnodup' := (hperm.map Field.semanticName).nodup_iff.mpr hnodup
  refine congrArg (OrderedMap.mapValues importedField) ?_
  refine (OrderedMap.sorted_collect _ fields').ext (OrderedMap.sorted_collect _ fields) fun key => ?_
  rw [OrderedMap.lookup_collect_of_nodup hnodup', OrderedMap.lookup_collect_of_nodup hnodup]
  have hnamed : ∀ field : Field, decide (field.semanticName = key) = true →
      field.semanticName = key := fun field h => of_decide_eq_true h
  exact find?_perm_unique hnodup' hperm hnamed

/-! ## Datasets -/

theorem datasetModel_declared {name : String} {evidence : DatasetEvidence} {fields fields' : List Field}
    (hperm : fields'.Perm fields) (hnodup : (fields.map Field.semanticName).Nodup) :
    (datasetModel name evidence fields').declared = (datasetModel name evidence fields).declared := by
  simp only [datasetModel, ImportedModel.declared, bareModel, importedFields_perm hperm hnodup,
    Multiset.coe_eq_coe.mpr hperm]

theorem OsiDataset.Reordered.name_eq {dataset dataset' : OsiDataset}
    (h : dataset.Reordered dataset') : dataset.name = dataset'.name := by
  have hname := congrArg OsiDataset.name h.rest
  exact hname

theorem OsiDataset.Reordered.evidence_eq {dataset dataset' : OsiDataset}
    (h : dataset.Reordered dataset') (currentDatabase : String) (catalog : RelationIndex) :
    datasetEvidence currentDatabase catalog dataset =
      datasetEvidence currentDatabase catalog dataset' := by
  have hevidence := congrArg (datasetEvidence currentDatabase catalog) h.rest
  exact hevidence

theorem importDatasetModel_reordered {currentDatabase : String} {catalog : RelationIndex}
    {dataset dataset' : OsiDataset} (h : dataset.Reordered dataset')
    {result : ImportedModel × List OsiImportWarning}
    (hresult : importDatasetModel currentDatabase catalog dataset = .ok result) :
    ∃ result', importDatasetModel currentDatabase catalog dataset' = .ok result' ∧
      result'.1.declared = result.1.declared ∧ result'.2.Perm result.2 := by
  have hname := h.name_eq
  have hevidence := h.evidence_eq currentDatabase catalog
  simp only [importDatasetModel, bind_eq_ok, Except.ok.injEq] at hresult
  obtain ⟨evidence, hread, items, hitems, u, hkeys, rfl⟩ := hresult
  obtain ⟨items', hitems', hperm⟩ := importFields_perm h.fields hitems
  have hfields : (items'.map Prod.fst).Perm (items.map Prod.fst) := hperm.map Prod.fst
  have hnodup := nodup_of_importFields hitems
  have hsame : (datasetModel dataset'.name evidence (items'.map Prod.fst)).fields =
      (datasetModel dataset.name evidence (items.map Prod.fst)).fields :=
    importedFields_perm hfields hnodup
  refine ⟨(datasetModel dataset'.name evidence (items'.map Prod.fst),
    evidence.warnings ++ items'.flatMap Prod.snd), ?_, ?_, ?_⟩
  · rw [hname] at hitems' hkeys
    rw [hname] at hsame
    simp only [importDatasetModel, bind_eq_ok, Except.ok.injEq]
    rw [← hsame] at hkeys
    exact ⟨evidence, hevidence ▸ hread, items', hitems', u, hkeys, rfl⟩
  · rw [hname]
    exact datasetModel_declared hfields hnodup
  · exact (hperm.flatMap_right Prod.snd).append_left evidence.warnings

/-- A dataset plans alike in whatever order it lists its fields. -/
theorem planDataset_reordered {currentDatabase : String} {catalog : RelationIndex}
    {dataset dataset' : OsiDataset} (h : dataset.Reordered dataset') :
    planDataset currentDatabase catalog dataset = planDataset currentDatabase catalog dataset' := by
  funext entries
  rw [planDataset, planDataset, h.name_eq]
  split_ifs
  · cases hresult : importDatasetModel currentDatabase catalog dataset with
    | ok result =>
      obtain ⟨result', hresult', hdeclared, hwarnings⟩ := importDatasetModel_reordered h hresult
      rw [hresult', toOption_ok, toOption_ok, Option.map_some, Option.map_some, hdeclared,
        Multiset.coe_eq_coe.mpr hwarnings]
    | error e =>
      cases hresult' : importDatasetModel currentDatabase catalog dataset' with
      | error e' => rfl
      | ok result' =>
        obtain ⟨result, hok, -⟩ := importDatasetModel_reordered h.symm hresult'
        rw [hresult] at hok
        cases hok
  · rfl

/-! ## Semantic models -/

/-- What a semantic model declares, from a valid catalog. -/
noncomputable def declareModels (catalog : CatalogSnapshot) (semanticModel : OsiSemanticModel) :
    Option Declarations :=
  let relationIndex := OrderedMap.collect
    (fun relation : CatalogRelation => toLex (relation.schema, relation.name)) catalog.relations
  let warnings := warnContext ("/semantic_model/" ++ semanticModel.name) semanticModel.description
    semanticModel.aiContext
  (run (planDataset catalog.currentDatabase relationIndex) semanticModel.datasets
    ⟨fun _ => none, warnings⟩).bind fun state =>
      if (semanticModel.relationships.map OsiRelationship.name).Nodup ∧
          (semanticModel.metrics.map OsiMetric.name).Nodup then
        (run (contribute declareRelationship) semanticModel.relationships state).bind
          (run (contribute declareMetric) semanticModel.metrics)
      else none

theorem toOption_ensureUniqueNames (kind : String) (names : List String) :
    (ensureUniqueNames kind names).toOption = if names.Nodup then some () else none := by
  cases h : ensureUniqueNames kind names with
  | ok u => rw [if_pos (ensureUniqueNames_eq_ok.mp h), toOption_ok]
  | error e =>
    rw [if_neg, toOption_error]
    intro hnodup
    rw [(ensureUniqueNames_eq_ok (u := ())).mpr hnodup] at h
    cases h

/-- The import builds what the semantic model declares. -/
theorem importModels_simulates (catalog : CatalogSnapshot) (semanticModel : OsiSemanticModel) :
    (importModels catalog semanticModel).toOption.map ImportState.declarations =
      declareModels catalog semanticModel := by
  rw [declareModels, importModels]
  generalize OrderedMap.collect
    (fun relation : CatalogRelation => toLex (relation.schema, relation.name)) catalog.relations
      = relationIndex
  generalize warnContext ("/semantic_model/" ++ semanticModel.name) semanticModel.description
    semanticModel.aiContext = warnings
  have hstart : (⟨fun _ => none, warnings⟩ : Declarations) =
      ImportState.declarations ⟨[], warnings, .nil⟩ := rfl
  rw [hstart, ← run_of_simulates (importDataset_simulates catalog.currentDatabase relationIndex)]
  simp only [toOption_bind, toOption_ensureUniqueNames]
  cases semanticModel.datasets.foldlM (importDataset catalog.currentDatabase relationIndex)
      ⟨[], warnings, .nil⟩ with
  | error e => rfl
  | ok state =>
    rw [toOption_ok, Option.bind_some, Option.map_some, Option.bind_some,
      ← run_of_simulates importRelationship_simulates]
    by_cases hrelationships : (semanticModel.relationships.map OsiRelationship.name).Nodup
    · by_cases hmetrics : (semanticModel.metrics.map OsiMetric.name).Nodup
      · simp only [hrelationships, hmetrics, and_self, if_true, Option.bind_some]
        cases semanticModel.relationships.foldlM importRelationship state with
        | error e => rfl
        | ok state' => exact run_of_simulates importMetric_simulates semanticModel.metrics state'
      · simp only [hrelationships, hmetrics, and_false, if_true, if_false, Option.bind_some,
          Option.bind_none, Option.map_none]
    · simp only [hrelationships, false_and, if_false, Option.bind_none, Option.map_none]

/-- Reordered semantic models declare the same. -/
theorem declareModels_reordered (catalog : CatalogSnapshot) {model model' : OsiSemanticModel}
    (h : model.Reordered model') : declareModels catalog model = declareModels catalog model' := by
  have hrest := h.rest
  simp only [OsiSemanticModel.mk.injEq, true_and] at hrest
  obtain ⟨hname, hdescription, hcontext, -⟩ := hrest
  have hdatasets : ∀ state : Declarations,
      run (planDataset catalog.currentDatabase (OrderedMap.collect
        (fun relation : CatalogRelation => toLex (relation.schema, relation.name))
        catalog.relations)) model.datasets state =
      run (planDataset catalog.currentDatabase (OrderedMap.collect
        (fun relation : CatalogRelation => toLex (relation.schema, relation.name))
        catalog.relations)) model'.datasets state := by
    intro state
    obtain ⟨datasets, heach, hperm⟩ := h.datasets
    rw [run_congr (heach.imp fun _ _ => planDataset_reordered)]
    exact planDataset_independent.run_perm hperm state
  have hnames : (model.relationships.map OsiRelationship.name).Nodup ↔
      (model'.relationships.map OsiRelationship.name).Nodup :=
    (h.relationships.map OsiRelationship.name).nodup_iff
  have hnames' : (model.metrics.map OsiMetric.name).Nodup ↔
      (model'.metrics.map OsiMetric.name).Nodup := (h.metrics.map OsiMetric.name).nodup_iff
  rw [declareModels, declareModels, hdatasets, hname, hdescription, hcontext]
  apply Option.bind_congr
  intro state _
  rw [contribute_independent.run_perm h.relationships]
  simp only [hnames, hnames']
  split_ifs
  · exact Option.bind_congr fun state' _ => contribute_independent.run_perm h.metrics state'
  · rfl

/-! ## The snapshot of what was declared -/

/-- The names within a model are distinct, and the model has the name that it is found under. -/
structure Declared.Unique (key : String) (declared : Declared) : Prop where
  semanticName : declared.ground.model.semanticName = key
  writable : declared.ground.model.writable = none
  fields : (declared.fields.map Field.semanticName).Nodup
  metrics : (declared.metrics.map Metric.semanticName).Nodup
  relationships : (declared.relationships.map Relationship.semanticName).Nodup

def WellNamed (state : Declarations) : Prop :=
  ∀ key declared, state.entries key = some declared → declared.Unique key

structure Addition.Unique (addition : Addition) : Prop where
  fields : (addition.fields.map Field.semanticName).Nodup
  metrics : (addition.metrics.map Metric.semanticName).Nodup
  relationships : (addition.relationships.map Relationship.semanticName).Nodup

theorem Declared.Unique.extend {key : String} {declared : Declared} (h : declared.Unique key)
    {addition : Addition} (haddition : addition.Unique) (haccepts : declared.Accepts addition) :
    (declared.extend addition).Unique key :=
  ⟨h.semanticName, h.writable, haccepts.1.nodup haddition.fields h.fields,
    haccepts.2.1.nodup haddition.metrics h.metrics,
    haccepts.2.2.nodup haddition.relationships h.relationships⟩

/-- An applied change leaves each entry as it was, or is the entry's own. -/
theorem wellNamed_update {state : Declarations} (h : WellNamed state) {key : String}
    {declared : Declared} (hdeclared : declared.Unique key) (log : Multiset OsiImportWarning) :
    WellNamed ⟨Function.update state.entries key (some declared), log⟩ := by
  intro other declared' hentry
  by_cases hkey : other = key
  · subst hkey
    have hself : some declared = some declared' := by
      rw [← hentry]
      exact (Function.update_self other (some declared) state.entries).symm
    rwa [← Option.some.inj hself]
  · have hother : state.entries other = some declared' := by
      rw [← hentry]
      exact (Function.update_of_ne hkey (some declared) state.entries).symm
    exact h other declared' hother

theorem contribute_wellNamed {α : Type}
    {declare : α → (String → Option Ground) → Option Contribution}
    (hdeclare : ∀ {item grounds contribution}, declare item grounds = some contribution →
      contribution.addition.Unique)
    {state state' : Declarations} {item : α} (h : WellNamed state)
    (hstep : step (contribute declare) state item = some state') : WellNamed state' := by
  obtain ⟨change, hchange, happly⟩ := Option.bind_eq_some_iff.mp hstep
  obtain ⟨contribution, hcontribution, rfl⟩ := Option.map_eq_some_iff.mp hchange
  obtain ⟨declared', hupdate, rfl⟩ := Option.map_eq_some_iff.mp happly
  obtain ⟨declared, hentry, hadd⟩ := Option.bind_eq_some_iff.mp hupdate
  obtain ⟨haccepts, rfl⟩ := Declared.add_eq_some.mp hadd
  exact wellNamed_update h ((h _ declared hentry).extend (hdeclare hcontribution) haccepts) _

theorem planDataset_wellNamed {currentDatabase : String} {catalog : RelationIndex}
    {state state' : Declarations} {dataset : OsiDataset} (h : WellNamed state)
    (hstep : step (planDataset currentDatabase catalog) state dataset = some state') :
    WellNamed state' := by
  obtain ⟨change, hchange, happly⟩ := Option.bind_eq_some_iff.mp hstep
  rw [planDataset] at hchange
  split_ifs at hchange
  obtain ⟨result, hresult, rfl⟩ := Option.map_eq_some_iff.mp hchange
  obtain ⟨declared', hupdate, rfl⟩ := Option.map_eq_some_iff.mp happly
  rw [toOption_eq_some] at hresult
  simp only [importDatasetModel, bind_eq_ok, Except.ok.injEq] at hresult
  obtain ⟨evidence, -, items, hitems, -, -, rfl⟩ := hresult
  have hdeclared : (datasetModel dataset.name evidence (items.map Prod.fst)).declared =
      declared' := by
    dsimp only at hupdate
    split_ifs at hupdate
    exact Option.some.inj hupdate
  subst hdeclared
  have hunique : (datasetModel dataset.name evidence (items.map Prod.fst)).declared.Unique
      dataset.name :=
    ⟨rfl, rfl, nodup_of_importFields hitems, Multiset.nodup_zero, Multiset.nodup_zero⟩
  exact wellNamed_update h hunique _

theorem declareRelationship_unique {relationship : OsiRelationship}
    {grounds : String → Option Ground} {contribution : Contribution}
    (h : declareRelationship relationship grounds = some contribution) :
    contribution.addition.Unique := by
  rw [declareRelationship] at h
  split_ifs at h
  simp only [Option.bind_eq_bind, Option.bind_eq_some_iff] at h
  obtain ⟨pair, -, toGround, -, toField, -, fromGround, -, fromField, -, hlast⟩ := h
  split_ifs at hlast with hguard
  obtain rfl := Option.some.inj hlast
  exact ⟨hguard.2, Multiset.nodup_zero, Multiset.nodup_singleton _⟩

theorem declareMetric_unique {metric : OsiMetric} {grounds : String → Option Ground}
    {contribution : Contribution} (h : declareMetric metric grounds = some contribution) :
    contribution.addition.Unique := by
  rw [declareMetric] at h
  split_ifs at h
  simp only [Option.bind_eq_bind, Option.bind_eq_some_iff] at h
  obtain ⟨expression, -, parsed, -, ground, -, field, -, hlast⟩ := h
  split_ifs at hlast
  obtain rfl := Option.some.inj hlast
  exact ⟨Multiset.nodup_zero, Multiset.nodup_singleton _, Multiset.nodup_zero⟩

theorem declareModels_wellNamed {catalog : CatalogSnapshot} {model : OsiSemanticModel}
    {state : Declarations} (h : declareModels catalog model = some state) : WellNamed state := by
  rw [declareModels] at h
  obtain ⟨datasets, hdatasets, hrest⟩ := Option.bind_eq_some_iff.mp h
  split_ifs at hrest
  obtain ⟨related, hrelated, hmeasured⟩ := Option.bind_eq_some_iff.mp hrest
  have hempty : WellNamed ⟨fun _ => none, warnContext ("/semantic_model/" ++ model.name)
      model.description model.aiContext⟩ := fun _ _ hentry => nomatch hentry
  exact run_induction (contribute_wellNamed declareMetric_unique)
    (run_induction (contribute_wellNamed declareRelationship_unique)
      (run_induction planDataset_wellNamed hempty hdatasets) hrelated) hmeasured

/-- Imports that declared the same have the same models, in canonical order. -/
theorem snapshot_eq_of_entries_eq {state state' : ImportState}
    (h : state.declarations.entries = state'.declarations.entries)
    (hnamed : WellNamed state.declarations) : state.snapshot = state'.snapshot := by
  have hentries : ∀ key, (state.imported.lookup key).map ImportedModel.declared =
      (state'.imported.lookup key).map ImportedModel.declared :=
    fun key => congrFun h key
  have hunique : ∀ entry ∈ state.imported, entry.2.declared.Unique entry.1 := by
    rintro ⟨key, entry⟩ hmem
    have hlookup := state.sorted.mem_iff.mp hmem
    refine hnamed key entry.declared ?_
    show (state.imported.lookup key).map ImportedModel.declared = some entry.declared
    rw [hlookup, Option.map_some]
  have heach := Sorting.forall₂_same.mpr (state.sorted.mapValues_eq state'.sorted hentries)
  have hpermuted : List.Forall₂ Model.Permuted (state.imported.map fun entry => entry.2.model)
      (state'.imported.map fun entry => entry.2.model) := by
    rw [List.forall₂_map_left_iff, List.forall₂_map_right_iff]
    refine ((List.forall₂_and_left _ _).mpr ⟨hunique, heach⟩).imp ?_
    rintro entry entry' ⟨hname, hsame⟩
    have hdeclared : entry.2.declared = entry'.2.declared := (Prod.mk.inj hsame).2
    have hground : bareModel entry.2.model = bareModel entry'.2.model :=
      congrArg (fun declared => declared.ground.model) hdeclared
    have hwritable : entry.2.model.writable = none := hname.writable
    have hwritable' : entry'.2.model.writable = none := by
      rw [← hwritable]
      exact (congrArg Model.writable hground).symm
    refine ⟨congrArg (fun model => { model with writable := none }) hground,
      Multiset.coe_eq_coe.mp (congrArg Declared.fields hdeclared),
      Multiset.coe_eq_coe.mp (congrArg Declared.metrics hdeclared),
      Multiset.coe_eq_coe.mp (congrArg Declared.relationships hdeclared), ?_⟩
    rw [hwritable, hwritable']
    exact .none
  refine SemanticSnapshot.Permuted.normalized_eq ⟨rfl, _, hpermuted, List.Perm.refl _⟩ ?_
  refine { models := ?_, each := ?_, writable := ?_ }
  · have hkeys : (state.imported.map fun entry => entry.2.model).map Model.semanticName =
        state.imported.map Prod.fst := by
      rw [List.map_map]
      exact List.map_congr_left fun entry hmem => (hunique entry hmem).semanticName
    show ((state.imported.map fun entry => entry.2.model).map Model.semanticName).Nodup
    rw [hkeys]
    exact state.sorted.nodup_keys
  · intro model hmem
    obtain ⟨entry, hentry, rfl⟩ := List.mem_map.mp hmem
    exact ⟨(hunique entry hentry).fields, (hunique entry hentry).metrics,
      (hunique entry hentry).relationships⟩
  · intro model hmem writable hwritable
    obtain ⟨entry, hentry, rfl⟩ := List.mem_map.mp hmem
    have hnone : entry.2.model.writable = none := (hunique entry hentry).writable
    rw [hnone] at hwritable
    cases hwritable

/-! ## Whole documents -/

theorem OsiSemanticModel.Reordered.name_eq {model model' : OsiSemanticModel}
    (h : model.Reordered model') : model.name = model'.name := by
  have hname := congrArg OsiSemanticModel.name h.rest
  exact hname

theorem OsiSemanticModel.Reordered.extensions_eq {model model' : OsiSemanticModel}
    (h : model.Reordered model') : model.customExtensions = model'.customExtensions := by
  have hextensions := congrArg OsiSemanticModel.customExtensions h.rest
  exact hextensions

theorem selectSemanticModel_reordered {models models' : List OsiSemanticModel}
    (h : List.Forall₂ OsiSemanticModel.Reordered models models') {selected : Option String}
    {model : OsiSemanticModel} (hmodel : selectSemanticModel models selected = .ok model) :
    ∃ model', selectSemanticModel models' selected = .ok model' ∧ model.Reordered model' := by
  cases selected with
  | some selected =>
    rw [selectSemanticModel, orError_eq_ok] at hmodel
    have hrel := find?_rel h (q := fun model => model.name == selected) fun model model' hsame => by
      rw [hsame.name_eq]
    rw [hmodel] at hrel
    generalize hfound : (models'.find? fun model => model.name == selected) = found at hrel
    cases hrel with
    | @some _ model' hsame =>
      refine ⟨model', ?_, hsame⟩
      rw [selectSemanticModel, hfound, orError_some]
  | none =>
    cases h with
    | nil => cases hmodel
    | @cons first first' rest rest' hfirst hrest =>
      cases hrest with
      | nil =>
        obtain rfl : first = model := by
          rw [selectSemanticModel, Except.ok.injEq] at hmodel
          exact hmodel
        exact ⟨first', rfl, hfirst⟩
      | cons => cases hmodel

theorem importModels_reordered {catalog : CatalogSnapshot} {model model' : OsiSemanticModel}
    (h : model.Reordered model') {state : ImportState}
    (hstate : importModels catalog model = .ok state) :
    ∃ state', importModels catalog model' = .ok state' ∧ state'.snapshot = state.snapshot ∧
      state'.warnings.Perm state.warnings := by
  have hdeclared : declareModels catalog model = some state.declarations := by
    rw [← importModels_simulates, hstate, toOption_ok, Option.map_some]
  have hsame : (importModels catalog model').toOption.map ImportState.declarations =
      some state.declarations := by
    rw [importModels_simulates, ← declareModels_reordered catalog h, hdeclared]
  obtain ⟨state', hstate', hdeclarations⟩ := Option.map_eq_some_iff.mp hsame
  refine ⟨state', toOption_eq_some.mp hstate', ?_, ?_⟩
  · exact (snapshot_eq_of_entries_eq (congrArg Edits.State.entries hdeclarations).symm
      (declareModels_wellNamed hdeclared)).symm
  · exact Multiset.coe_eq_coe.mp (congrArg Edits.State.log hdeclarations)

theorem importOsi_reordered {backend : ImportBackend} {catalog : CatalogSnapshot}
    {selected : Option String} {input input' : List UInt8} {document document' : OsiDocument}
    (hread : backend.readDocument input = some document)
    (hread' : backend.readDocument input' = some document') (h : document.Reordered document')
    {report : OsiImportReport} (hreport : importOsi backend input catalog selected = .ok report) :
    ∃ report', importOsi backend input' catalog selected = .ok report' ∧
      report'.snapshot = report.snapshot ∧ report'.warnings.Perm report.warnings := by
  simp only [importOsi, hread, orError_some, ok_bind, bind_eq_ok, Except.ok.injEq] at hreport
  obtain ⟨u, hextensions, u', hnames, model, hmodel, v, hname, v', hmodelExtensions, canonical,
    hcatalog, state, hstate, hash, hhash, rfl⟩ := hreport
  obtain ⟨model', hmodel', hsame⟩ := selectSemanticModel_reordered h.semanticModel hmodel
  obtain ⟨state', hstate', hsnapshot, hwarnings⟩ := importModels_reordered hsame hstate
  have hmodels : document.semanticModel.map OsiSemanticModel.name =
      document'.semanticModel.map OsiSemanticModel.name := by
    rw [← List.forall₂_eq_eq_eq, List.forall₂_map_left_iff, List.forall₂_map_right_iff]
    exact h.semanticModel.imp fun _ _ hreordered => hreordered.name_eq
  rw [h.customExtensions] at hextensions
  rw [hmodels] at hnames
  rw [hsame.name_eq] at hname hmodelExtensions
  rw [hsame.extensions_eq] at hmodelExtensions
  rw [← hsnapshot] at hhash
  simp only [importOsi, hread', orError_some, ok_bind, bind_eq_ok, Except.ok.injEq]
  refine ⟨_, ⟨u, hextensions, u', hnames, model', hmodel', v, hname, v', hmodelExtensions,
    canonical, hcatalog, state', hstate', hash, hhash, rfl⟩, ?_, ?_⟩
  · show { state'.snapshot with revisionHash := hash } =
      { state.snapshot with revisionHash := hash }
    rw [hsnapshot]
  · exact (sortByKeys_perm _ _).trans (hwarnings.trans (sortByKeys_perm _ _).symm)

/-- Whether an import succeeds, its snapshot with the revision hash, and its warnings do not depend
on the order in which the document lists its datasets, their fields, its relationships and its
metrics. -/
theorem import_order_independent (backend : ImportBackend) (catalog : CatalogSnapshot)
    (selected : Option String) {input input' : List UInt8} {document document' : OsiDocument}
    (hread : backend.readDocument input = some document)
    (hread' : backend.readDocument input' = some document')
    (h : document.Reordered document') :
    ((∃ report, importOsi backend input catalog selected = .ok report) ↔
      ∃ report, importOsi backend input' catalog selected = .ok report) ∧
    ∀ report report', importOsi backend input catalog selected = .ok report →
      importOsi backend input' catalog selected = .ok report' →
      report.snapshot = report'.snapshot ∧ report.warnings.Perm report'.warnings := by
  refine ⟨⟨?_, ?_⟩, ?_⟩
  · rintro ⟨report, hreport⟩
    obtain ⟨report', hreport', -⟩ := importOsi_reordered hread hread' h hreport
    exact ⟨report', hreport'⟩
  · rintro ⟨report', hreport'⟩
    obtain ⟨report, hreport, -⟩ := importOsi_reordered hread' hread h.symm hreport'
    exact ⟨report, hreport⟩
  · intro report report' hreport hreport'
    obtain ⟨other, hother, hsnapshot, hwarnings⟩ := importOsi_reordered hread hread' h hreport
    rw [hreport', Except.ok.injEq] at hother
    subst hother
    exact ⟨hsnapshot.symm, hwarnings.symm⟩

/-! ## A shop -/

def shopColumn (name : String) (ordinal : Nat) : CatalogColumn :=
  { name := name, ordinal := ordinal, dataType := "bigint", nullable := false, comment := none
    selectGrant := true }

def shopRelation (name : String) (columns : List CatalogColumn)
    (constraints : List CatalogConstraint) : CatalogRelation :=
  { schema := "shop", name := name, kind := .table, owner := "owner", view := none, comment := none
    grants := ⟨true, true, true⟩, rls := ⟨false, false⟩, columns := columns
    constraints := .primaryKey "pkey" ["id"] true false false false true :: constraints
    policies := [] }

/-- Orders refer to customers by an enforced key. -/
def shopCatalog : CatalogSnapshot :=
  { schemaVersion := "2", serverVersionNum := 170000, currentDatabase := "app"
    currentRole := "analyst", roleContext := ⟨true, false, false, [], []⟩
    roleGraphFingerprint := "", objectPrivilegeFingerprint := "", functions := []
    relations := [
      shopRelation "customers" [shopColumn "id" 1] [],
      shopRelation "orders" [shopColumn "id" 1, shopColumn "customer_id" 2] [
        .foreignKey "buyer" ["customer_id"] ⟨"shop", "customers"⟩ ["id"] [] .simple .noAction
          .noAction true false false false true]]
    fingerprint := "sha256:bf3c2365b5b97c9f185ddc796f9f6349af48110b18848a7dfeeb0301a3b5470a" }

theorem shopCatalog_accepted :
    shopCatalog.validatedNormalized standardCatalog = .ok shopCatalog.normalize := by
  apply validatedNormalized_of_codes rfl
  decide +kernel

def direct (column : String) : OsiField :=
  { name := column, expression := ⟨[⟨.ansiSql, column⟩]⟩ }

def customersDataset : OsiDataset :=
  { name := "customers", source := "shop.customers", fields := [direct "id"] }

def ordersDataset : OsiDataset :=
  { name := "orders", source := "shop.orders", fields := [direct "id", direct "customer_id"] }

def buyer : OsiRelationship :=
  { name := "buyer", fromDataset := "orders", toDataset := "customers"
    fromColumns := ["customer_id"], toColumns := ["id"] }

def counted (dataset : String) : OsiMetric :=
  { name := dataset ++ "_count", expression := ⟨[⟨.ansiSql, "COUNT(" ++ dataset ++ ".id)"⟩]⟩ }

def shopModel : OsiSemanticModel :=
  { name := "shop", datasets := [customersDataset, ordersDataset], relationships := [buyer]
    metrics := [counted "customers", counted "orders"] }

/-- The same model, read from the end. -/
def reversedModel : OsiSemanticModel :=
  { name := "shop"
    datasets := [{ ordersDataset with fields := [direct "customer_id", direct "id"] },
      customersDataset]
    relationships := [buyer]
    metrics := [counted "orders", counted "customers"] }

def itemText (indent name expression : String) : String :=
  indent ++ "- name: " ++ name ++ "\n" ++ indent ++ "  expression:\n" ++ indent ++ "    dialects:\n"
    ++ indent ++ "    - dialect: ANSI_SQL\n" ++ indent ++ "      expression: " ++ expression ++ "\n"

def datasetText (name : String) (columns : List String) : String :=
  "  - name: " ++ name ++ "\n    source: shop." ++ name ++ "\n    fields:\n"
    ++ String.join (columns.map fun column => itemText "    " column column)

def metricText (dataset : String) : String :=
  itemText "  " (dataset ++ "_count") ("COUNT(" ++ dataset ++ ".id)")

def modelText (datasets metrics : String) : String :=
  "semantic_model:\n- name: shop\n  datasets:\n" ++ datasets
    ++ "  relationships:\n  - name: buyer\n    from: orders\n    to: customers\n"
    ++ "    from_columns: [customer_id]\n    to_columns: [id]\n  metrics:\n" ++ metrics

def shopText : String :=
  modelText (datasetText "customers" ["id"] ++ datasetText "orders" ["id", "customer_id"])
    (metricText "customers" ++ metricText "orders")

def reversedText : String :=
  modelText (datasetText "orders" ["customer_id", "id"] ++ datasetText "customers" ["id"])
    (metricText "orders" ++ metricText "customers")

/-- The YAML reader, as far as these two texts go. -/
def readShop (input : List UInt8) : Option OsiDocument :=
  if input = bytesOf shopText then some ⟨[shopModel], []⟩
  else if input = bytesOf reversedText then some ⟨[reversedModel], []⟩
  else none

def shopImport : ImportBackend := { standardCatalog with readDocument := readShop }

theorem shopImport_readDocument : shopImport.readDocument = readShop := rfl

theorem shop_read : shopImport.readDocument (bytesOf shopText) = some ⟨[shopModel], []⟩ := by
  rw [shopImport_readDocument, readShop, if_pos rfl]

theorem reversed_read :
    shopImport.readDocument (bytesOf reversedText) = some ⟨[reversedModel], []⟩ := by
  have hother : bytesOf reversedText ≠ bytesOf shopText := by decide +kernel
  rw [shopImport_readDocument, readShop, if_neg hother, if_pos rfl]

theorem shopModel_reordered : shopModel.Reordered reversedModel where
  rest := rfl
  datasets := ⟨[customersDataset, { ordersDataset with
    fields := [direct "customer_id", direct "id"] }],
    .cons ⟨rfl, .refl _⟩ (.cons ⟨rfl, .swap _ _ _⟩ .nil), .swap _ _ _⟩
  relationships := .refl _
  metrics := .swap _ _ _

theorem import_order_independent_shop :
    (∃ state, importModels shopCatalog shopModel = .ok state) ∧
      ((∃ report, importOsi shopImport (bytesOf shopText) shopCatalog none = .ok report) ↔
        ∃ report, importOsi shopImport (bytesOf reversedText) shopCatalog none = .ok report) ∧
      ∀ report report', importOsi shopImport (bytesOf shopText) shopCatalog none = .ok report →
        importOsi shopImport (bytesOf reversedText) shopCatalog none = .ok report' →
        report.snapshot = report'.snapshot ∧ report.warnings.Perm report'.warnings := by
  have hok : succeedsWith (importModels shopCatalog shopModel) (fun _ => true) = true := by
    decide +kernel
  obtain ⟨state, hstate, -⟩ := exists_ok_of_succeedsWith hok
  have hshop : OsiDocument.Reordered ⟨[shopModel], []⟩ ⟨[reversedModel], []⟩ :=
    ⟨rfl, .cons shopModel_reordered .nil⟩
  exact ⟨⟨state, hstate⟩,
    import_order_independent shopImport shopCatalog none shop_read reversed_read hshop⟩

end Postgresem.Osi
