import Postgresem.Compiler.Blame
import Postgresem.Osi.Order

/-! An imported snapshot keeps what it owes to the compiler. What the models are vouched for by is an
invariant of the import, over everything that has been declared so far. -/
namespace Postgresem.Osi
open Control Edits

section Vouched

/-- A relationship of many rows to one, to the key of a model that is declared. -/
structure LeadsToKey (grounds : String → Option Ground) (relationship : Relationship) : Prop where
  cardinality : relationship.cardinality = .manyToOne
  target : ∃ ground, grounds relationship.targetModel = some ground ∧
    ground.model.source = relationship.target ∧
    ∃ entry ∈ ground.evidence, entry.2.column = relationship.toColumn ∧ entry.2.entityKey = true

/-- A plain aggregation over a field of the evidence. -/
structure RunsOver (ground : Ground) (metric : Metric) : Prop where
  filter : metric.filter = none
  additivity : metric.additivity = none
  anchor : metric.aggregationAnchor = none
  field : ∃ entry ∈ ground.evidence, entry.1 = metric.field ∧
    (metric.aggregation = .count ∨ metric.aggregation = .countDistinct → entry.2.entityKey = true) ∧
    metric.dataType = expectedMetricType metric.aggregation entry.2.dataType

/-- The fields of the evidence are those of the dataset, and a joined field comes over a relationship of
the model. -/
structure Declared.Vouched (grounds : String → Option Ground) (declared : Declared) : Prop where
  own : ∀ entry ∈ declared.ground.evidence, ∃ field ∈ declared.fields,
    field.semanticName = entry.1 ∧ field.relationship = none ∧ importedField field = entry.2
  joined : ∀ field ∈ declared.fields, ∀ name, field.relationship = some name →
    ∃ relationship ∈ declared.relationships, relationship.semanticName = name
  relationships : ∀ relationship ∈ declared.relationships, LeadsToKey grounds relationship
  metrics : ∀ metric ∈ declared.metrics, RunsOver declared.ground metric

def Vouched (state : Declarations) : Prop :=
  ∀ key declared, state.entries key = some declared → declared.Vouched (grounds state.entries)

theorem LeadsToKey.mono {relationship : Relationship} {old new : String → Option Ground}
    (h : LeadsToKey old relationship)
    (hgrows : ∀ key ground, old key = some ground → new key = some ground) :
    LeadsToKey new relationship := by
  obtain ⟨ground, hground, hrest⟩ := h.target
  exact ⟨h.cardinality, ground, hgrows _ _ hground, hrest⟩

/-- Grounds are only ever added. -/
theorem Declared.Vouched.mono {declared : Declared} {old new : String → Option Ground}
    (h : declared.Vouched old)
    (hgrows : ∀ key ground, old key = some ground → new key = some ground) :
    declared.Vouched new :=
  ⟨h.own, h.joined, fun relationship hmem => (h.relationships relationship hmem).mono hgrows,
    h.metrics⟩

/-- What an addition to a model owes to its ground. -/
structure Addition.Vouched (grounds : String → Option Ground) (ground : Ground)
    (addition : Addition) : Prop where
  joined : ∀ field ∈ addition.fields, ∀ name, field.relationship = some name →
    ∃ relationship ∈ addition.relationships, relationship.semanticName = name
  relationships : ∀ relationship ∈ addition.relationships, LeadsToKey grounds relationship
  metrics : ∀ metric ∈ addition.metrics, RunsOver ground metric

theorem Declared.Vouched.extend {grounds : String → Option Ground} {declared : Declared}
    {addition : Addition} (h : declared.Vouched grounds)
    (haddition : addition.Vouched grounds declared.ground) :
    (declared.extend addition).Vouched grounds where
  own := by
    intro entry hentry
    obtain ⟨field, hfield, hrest⟩ := h.own entry hentry
    exact ⟨field, Multiset.mem_add.mpr (.inl hfield), hrest⟩
  joined := by
    intro field hfield name hname
    rcases Multiset.mem_add.mp hfield with hold | hnew
    · obtain ⟨relationship, hmem, hrest⟩ := h.joined field hold name hname
      exact ⟨relationship, Multiset.mem_add.mpr (.inl hmem), hrest⟩
    · obtain ⟨relationship, hmem, hrest⟩ := haddition.joined field hnew name hname
      exact ⟨relationship, Multiset.mem_add.mpr (.inr hmem), hrest⟩
  relationships := by
    intro relationship hmem
    rcases Multiset.mem_add.mp hmem with hold | hnew
    · exact h.relationships relationship hold
    · exact haddition.relationships relationship hnew
  metrics := by
    intro metric hmem
    rcases Multiset.mem_add.mp hmem with hold | hnew
    · exact h.metrics metric hold
    · exact haddition.metrics metric hnew

theorem contribute_vouched {α : Type} {declare : α → (String → Option Ground) → Option Contribution}
    (hdeclare : ∀ {item grounds contribution}, declare item grounds = some contribution →
      ∀ ground, grounds contribution.key = some ground →
        contribution.addition.Vouched grounds ground)
    {state state' : Declarations} {item : α} (h : Vouched state)
    (hstep : step (contribute declare) state item = some state') : Vouched state' := by
  have hgrounds := grounds_step hstep
  obtain ⟨change, hchange, happly⟩ := Option.bind_eq_some_iff.mp hstep
  obtain ⟨contribution, hcontribution, rfl⟩ := Option.map_eq_some_iff.mp hchange
  obtain ⟨declared', hupdate, rfl⟩ := Option.map_eq_some_iff.mp happly
  obtain ⟨declared, hentry, hadd⟩ := Option.bind_eq_some_iff.mp hupdate
  obtain ⟨-, rfl⟩ := Declared.add_eq_some.mp hadd
  intro key found hfound
  rw [hgrounds]
  by_cases hkey : key = contribution.key
  · subst hkey
    have hself : some (declared.extend contribution.addition) = some found := by
      rw [← hfound]
      exact (Function.update_self contribution.key _ state.entries).symm
    rw [← Option.some.inj hself]
    have hground : grounds state.entries contribution.key = some declared.ground := by
      have hsame : state.entries contribution.key = some declared := hentry
      rw [grounds, hsame, Option.map_some]
    exact (h _ declared hentry).extend (hdeclare hcontribution _ hground)
  · have hother : state.entries key = some found := by
      rw [← hfound]
      exact (Function.update_of_ne hkey _ state.entries).symm
    exact h key found hother

end Vouched

section Items

theorem relationship_of_importField {path : String} {columns : List (String × CatalogColumn)}
    {keys : List String} {field : OsiField} {item : Field × List OsiImportWarning}
    (h : importField path columns keys field = .ok item) : item.1.relationship = none := by
  simp only [importField, bind_eq_ok, Except.ok.injEq] at h
  obtain ⟨-, -, name, -, column, -, -, -, dataType, -, -, -, rfl⟩ := h
  rfl

theorem relationship_of_importFields {path : String} {columns : List (String × CatalogColumn)}
    {keys seen : List String} {fields : List OsiField} {items : List (Field × List OsiImportWarning)}
    (h : importFields path columns keys seen fields = .ok items) :
    ∀ item ∈ items, item.1.relationship = none := by
  induction fields generalizing seen items with
  | nil =>
    cases h
    simp
  | cons field fields ih =>
    simp only [importFields, bind_eq_ok, Except.ok.injEq] at h
    obtain ⟨-, -, -, -, first, hfirst, others, hothers, rfl⟩ := h
    exact List.forall_mem_cons.mpr ⟨relationship_of_importField hfirst, ih hothers⟩

theorem planDataset_vouched {currentDatabase : String} {catalog : RelationIndex}
    {state state' : Declarations} {dataset : OsiDataset} (h : Vouched state)
    (hstep : step (planDataset currentDatabase catalog) state dataset = some state') :
    Vouched state' := by
  obtain ⟨change, hchange, happly⟩ := Option.bind_eq_some_iff.mp hstep
  rw [planDataset] at hchange
  split_ifs at hchange
  obtain ⟨result, hresult, rfl⟩ := Option.map_eq_some_iff.mp hchange
  obtain ⟨declared', hupdate, rfl⟩ := Option.map_eq_some_iff.mp happly
  rw [toOption_eq_some] at hresult
  simp only [importDatasetModel, bind_eq_ok, Except.ok.injEq] at hresult
  obtain ⟨evidence, -, items, hitems, -, -, rfl⟩ := hresult
  dsimp only at hupdate
  split_ifs at hupdate with hnone
  obtain rfl := Option.some.inj hupdate
  have hfresh : state.entries dataset.name = none := Option.isNone_iff_eq_none.mp hnone
  intro key found hfound
  have hgrows : ∀ key ground, grounds state.entries key = some ground →
      grounds (Function.update state.entries dataset.name
        (some (datasetModel dataset.name evidence (items.map Prod.fst)).declared)) key =
          some ground := by
    intro key ground hground
    have hkey : key ≠ dataset.name := by
      rintro rfl
      rw [grounds, hfresh] at hground
      cases hground
    rw [grounds, Function.update_of_ne hkey]
    exact hground
  by_cases hkey : key = dataset.name
  · subst hkey
    have hself : some (datasetModel dataset.name evidence (items.map Prod.fst)).declared =
        some found := by
      rw [← hfound]
      exact (Function.update_self dataset.name _ state.entries).symm
    rw [← Option.some.inj hself]
    refine ⟨?_, ?_, ?_, ?_⟩
    · intro entry hentry
      obtain ⟨collected, hcollected, rfl⟩ := List.mem_map.mp hentry
      obtain ⟨hfield, hname⟩ := OrderedMap.mem_collect hcollected
      obtain ⟨item, hitem, heq⟩ := List.mem_map.mp hfield
      have hdirect := relationship_of_importFields hitems item hitem
      rw [heq] at hdirect
      exact ⟨collected.2, Multiset.mem_coe.mpr hfield, hname, hdirect, rfl⟩
    · intro field hfield name hname
      obtain ⟨item, hitem, rfl⟩ := List.mem_map.mp (Multiset.mem_coe.mp hfield)
      rw [relationship_of_importFields hitems item hitem] at hname
      cases hname
    · intro relationship hmem
      exact absurd hmem (Multiset.notMem_zero _)
    · intro metric hmem
      exact absurd hmem (Multiset.notMem_zero _)
  · have hother : state.entries key = some found := by
      rw [← hfound]
      exact (Function.update_of_ne hkey _ state.entries).symm
    exact (h key found hother).mono hgrows

/-- The field of a column that is found is one of the evidence. -/
theorem mem_of_findColumn {fields : List (String × ImportedField)} {column : String}
    {field : ImportedField} (h : findColumn fields column = some field) :
    ∃ name, (name, field) ∈ fields := by
  obtain ⟨entry, hentry, rfl⟩ := List.mem_map.mp (List.mem_of_find?_eq_some h)
  exact ⟨entry.1, hentry⟩

theorem declareRelationship_vouched {relationship : OsiRelationship}
    {grounds : String → Option Ground} {contribution : Contribution}
    (h : declareRelationship relationship grounds = some contribution) (ground : Ground)
    (_ : grounds contribution.key = some ground) : contribution.addition.Vouched grounds ground := by
  rw [declareRelationship] at h
  split_ifs at h
  simp only [Option.bind_eq_bind, Option.bind_eq_some_iff] at h
  obtain ⟨pair, -, toGround, hto, toField, hkey, fromGround, -, fromField, -, hlast⟩ := h
  split_ifs at hlast
  obtain rfl := Option.some.inj hlast
  obtain ⟨hfound, hentity⟩ := Option.filter_eq_some_iff.mp hkey
  obtain ⟨name, hmem⟩ := mem_of_findColumn hfound
  refine ⟨?_, ?_, fun metric hmetric => absurd hmetric (Multiset.notMem_zero _)⟩
  · intro field hfield other hother
    obtain ⟨entry, -, rfl⟩ := List.mem_map.mp (Multiset.mem_coe.mp hfield)
    exact ⟨_, Multiset.mem_singleton_self _, Option.some.inj hother⟩
  · intro related hrelated
    obtain rfl := Multiset.mem_singleton.mp hrelated
    exact ⟨rfl, toGround, hto, rfl, (name, toField), hmem, rfl, hentity⟩

theorem declareMetric_vouched {metric : OsiMetric} {grounds : String → Option Ground}
    {contribution : Contribution} (h : declareMetric metric grounds = some contribution)
    (ground : Ground) (hground : grounds contribution.key = some ground) :
    contribution.addition.Vouched grounds ground := by
  rw [declareMetric] at h
  split_ifs at h
  simp only [Option.bind_eq_bind, Option.bind_eq_some_iff] at h
  obtain ⟨expression, -, parsed, -, found, hfound, field, hfield, hlast⟩ := h
  split_ifs at hlast with hguard
  obtain rfl := Option.some.inj hlast
  obtain rfl := Option.some.inj (hfound.symm.trans hground)
  refine ⟨fun field hmem => absurd hmem (Multiset.notMem_zero _),
    fun relationship hmem => absurd hmem (Multiset.notMem_zero _), ?_⟩
  intro imported hmem
  obtain rfl := Multiset.mem_singleton.mp hmem
  refine ⟨rfl, rfl, rfl, (parsed.field, field), ?_, rfl, ?_, rfl⟩
  · obtain ⟨before, after, heq, -⟩ := List.lookup_eq_some_iff.mp hfield
    rw [heq]
    simp
  · intro hcount
    rw [Bool.and_eq_true, Bool.or_eq_true, Bool.not_eq_true', Bool.or_eq_false_iff] at hguard
    rcases hguard.1 with hother | hkey
    · have hcount' : parsed.aggregation = .count ∨ parsed.aggregation = .countDistinct := hcount
      rw [beq_eq_false_iff_ne, beq_eq_false_iff_ne] at hother
      exact absurd hcount' (not_or.mpr hother)
    · exact hkey

theorem declareModels_vouched {catalog : CatalogSnapshot} {model : OsiSemanticModel}
    {state : Declarations} (h : declareModels catalog model = some state) : Vouched state := by
  rw [declareModels] at h
  obtain ⟨datasets, hdatasets, hrest⟩ := Option.bind_eq_some_iff.mp h
  split_ifs at hrest
  obtain ⟨related, hrelated, hmeasured⟩ := Option.bind_eq_some_iff.mp hrest
  have hempty : Vouched ⟨fun _ => none, warnContext ("/semantic_model/" ++ model.name)
      model.description model.aiContext⟩ := by
    intro key declared hentry
    cases hentry
  exact run_induction (contribute_vouched declareMetric_vouched)
    (run_induction (contribute_vouched declareRelationship_vouched)
      (run_induction planDataset_vouched hempty hdatasets) hrelated) hmeasured

end Items

section Snapshot
variable {state : ImportState}

theorem entries_of_mem {entry : String × ImportedModel} (h : entry ∈ state.imported) :
    state.declarations.entries entry.1 = some entry.2.declared := by
  have hlookup := state.sorted.mem_iff.mp h
  show (state.imported.lookup entry.1).map ImportedModel.declared = some entry.2.declared
  rw [hlookup, Option.map_some]

theorem mem_of_grounds {key : String} {ground : Ground}
    (h : grounds state.declarations.entries key = some ground) :
    ∃ entry ∈ state.imported, entry.1 = key ∧ entry.2.declared.ground = ground := by
  obtain ⟨declared, hdeclared, hground⟩ := Option.map_eq_some_iff.mp h
  obtain ⟨model, hmodel, rfl⟩ := Option.map_eq_some_iff.mp hdeclared
  exact ⟨(key, model), state.sorted.mem_iff.mpr hmodel, rfl, hground⟩

theorem mem_snapshot_models {model : Model} :
    model ∈ state.snapshot.models ↔ ∃ entry ∈ state.imported, entry.2.model.normalized = model := by
  rw [ImportState.snapshot, mem_normalized]
  simp

theorem WellNamed.nodup_snapshot (h : WellNamed state.declarations) :
    (state.snapshot.models.map Model.semanticName).Nodup := by
  have hkeys : ((state.imported.map fun entry => entry.2.model).map Model.normalized).map
      Model.semanticName = state.imported.map Prod.fst := by
    rw [List.map_map, List.map_map]
    exact List.map_congr_left fun entry hmem =>
      (h entry.1 _ (entries_of_mem hmem)).semanticName
  rw [ImportState.snapshot, normalized_models, ((sortByKeys_perm _ _).map _).nodup_iff]
  show (((state.imported.map fun entry => entry.2.model).map Model.normalized).map
    Model.semanticName).Nodup
  rw [hkeys]
  exact state.sorted.nodup_keys

/-- The field that vouches for an entry of the evidence is the one found by its name. -/
theorem findField_of_evidence (hnamed : WellNamed state.declarations)
    (hvouched : Vouched state.declarations) {entry : String × ImportedModel}
    (hentry : entry ∈ state.imported) {evidence : String × ImportedField}
    (hevidence : evidence ∈ entry.2.fields) :
    ∃ field ∈ entry.2.model.normalized.fields,
      entry.2.model.normalized.findField evidence.1 = some field ∧ field.relationship = none ∧
        importedField field = evidence.2 := by
  have hdeclared := entries_of_mem hentry
  obtain ⟨field, hfield, hname, hdirect, himported⟩ := (hvouched _ _ hdeclared).own evidence hevidence
  have hperm : entry.2.model.normalized.fields.Perm entry.2.model.fields := sortByKeys_perm _ _
  have hmem := hperm.mem_iff.mpr (Multiset.mem_coe.mp hfield)
  have hnodup : (entry.2.model.fields.map Field.semanticName).Nodup := (hnamed _ _ hdeclared).fields
  have hunique := (hperm.map Field.semanticName).nodup_iff.mpr hnodup
  exact ⟨field, hmem, (Named.find?_eq_some_iff hunique).mpr ⟨hmem, hname⟩, hdirect, himported⟩

theorem expectedMetricType_eq (aggregation : Aggregation) (dataType : DataType) :
    expectedMetricType aggregation dataType =
      Postgresem.expectedMetricType aggregation dataType := by
  cases aggregation <;> cases dataType <;> rfl

theorem RunsOver.grounded (hnamed : WellNamed state.declarations)
    (hvouched : Vouched state.declarations) {entry : String × ImportedModel}
    (hentry : entry ∈ state.imported) {metric : Metric}
    (h : RunsOver entry.2.declared.ground metric) :
    metric.Grounded "1" entry.2.model.normalized := by
  obtain ⟨evidence, hevidence, hname, hcount, htype⟩ := h.field
  obtain ⟨field, -, hfound, hdirect, himported⟩ :=
    findField_of_evidence hnamed hvouched hentry hevidence
  rw [hname] at hfound
  rw [← himported] at hcount htype
  exact
    { unfiltered := h.filter
      field := ⟨field, hfound, hdirect, hcount, htype.trans (expectedMetricType_eq _ _)⟩
      plain := fun _ => ⟨h.additivity, h.anchor⟩
      additive := fun hversion => absurd hversion (by decide)
      anchor := fun anchor hanchor => by
        rw [h.anchor] at hanchor
        cases hanchor }

theorem LeadsToKey.grounded (hnamed : WellNamed state.declarations)
    (hvouched : Vouched state.declarations) {relationship : Relationship}
    (h : LeadsToKey (grounds state.declarations.entries) relationship) :
    relationship.Grounded state.snapshot.models := by
  obtain ⟨ground, hground, hsource, evidence, hevidence, hcolumn, hkey⟩ := h.target
  obtain ⟨entry, hentry, hname, rfl⟩ := mem_of_grounds hground
  obtain ⟨field, hfield, -, hdirect, himported⟩ :=
    findField_of_evidence hnamed hvouched hentry hevidence
  have hmodel : entry.2.model.normalized ∈ state.snapshot.models :=
    mem_snapshot_models.mpr ⟨entry, hentry, rfl⟩
  have htarget : entry.2.model.normalized.semanticName = relationship.targetModel :=
    (hnamed _ _ (entries_of_mem hentry)).semanticName.trans hname
  refine ⟨h.cardinality, entry.2.model.normalized,
    (Named.find?_eq_some_iff hnamed.nodup_snapshot).mpr ⟨hmodel, htarget⟩, hsource, ?_⟩
  rw [← himported] at hcolumn hkey
  rw [List.any_eq_true]
  refine ⟨field, hfield, ?_⟩
  have hcolumn' : field.column = relationship.toColumn := hcolumn
  have hkey' : field.entityKey = true := hkey
  simp [isDirectKey, hcolumn', hdirect, hkey']

theorem snapshot_models_grounded (hnamed : WellNamed state.declarations)
    (hvouched : Vouched state.declarations) :
    ∀ model ∈ state.snapshot.models, model.Grounded "1" state.snapshot.models := by
  intro model hmodel
  obtain ⟨entry, hentry, rfl⟩ := mem_snapshot_models.mp hmodel
  have hdeclared := hvouched _ _ (entries_of_mem hentry)
  refine ⟨?_, ?_, ?_⟩
  · intro field hfield name hname
    have hmem := (sortByKeys_perm _ _).mem_iff.mp hfield
    obtain ⟨relationship, hrelationship, hsame⟩ := hdeclared.joined field hmem name hname
    exact ⟨relationship, (sortByKeys_perm _ _).mem_iff.mpr hrelationship, hsame⟩
  · intro relationship hrelationship
    have hmem := (sortByKeys_perm _ _).mem_iff.mp hrelationship
    exact (hdeclared.relationships relationship hmem).grounded hnamed hvouched
  · intro metric hmetric
    have hmem := (sortByKeys_perm _ _).mem_iff.mp hmetric
    exact (hdeclared.metrics metric hmem).grounded hnamed hvouched hentry

/-- A snapshot that was imported is grounded. -/
theorem importOsi_grounded {backend : ImportBackend} {input : List UInt8} {catalog : CatalogSnapshot}
    {selected : Option String} {report : OsiImportReport}
    (h : importOsi backend input catalog selected = .ok report) :
    report.snapshot.Grounded backend.toHashBackend := by
  simp only [importOsi, bind_eq_ok, Except.ok.injEq] at h
  obtain ⟨document, -, -, -, -, -, model, -, -, -, -, -, canonical, -, state, hstate, hash, hhash,
    rfl⟩ := h
  have hdeclared : declareModels canonical model = some state.declarations := by
    rw [← importModels_simulates, toOption_eq_some.mpr hstate, Option.map_some]
  have hnamed := declareModels_wellNamed hdeclared
  have hvouched := declareModels_vouched hdeclared
  exact ⟨checkSnapshot_hashed (.inl rfl) (orError_eq_ok.mp hhash),
    snapshot_models_grounded hnamed hvouched⟩

end Snapshot

end Postgresem.Osi
