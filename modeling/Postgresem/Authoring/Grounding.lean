import Postgresem.Authoring.Scaffold
import Postgresem.Catalog.Evidence
import Postgresem.Osi.Grounding
import Postgresem.Query.Normalize

/-! Authored snapshots keep what they owe to the compiler, whether a document was imported or the
relations of a schema were scaffolded. -/
namespace Postgresem
open Control

section Scaffold

/-- What holds of each field of a scaffolded model. -/
structure ScaffoldedField (timezone : Option String) (primaryKey : List String) (field : Field) :
    Prop where
  column : field.semanticName = field.column
  direct : field.relationship = none
  entityKey : field.entityKey = (primaryKey.length == 1 && decide (field.column ∈ primaryKey))
  zoned : field.dataType = .timestampTz → timezone.isSome = true

theorem scaffoldField_ok {relation : CatalogRelation} {timezone : Option String}
    {primaryKey : List String} {column : CatalogColumn} {field : Field}
    (h : scaffoldField relation timezone primaryKey column = .ok field) :
    ScaffoldedField timezone primaryKey field := by
  simp only [scaffoldField, bind_eq_ok, ensure_eq_ok, pure_eq_ok] at h
  obtain ⟨-, -, dataType, -, -, hzoned, rfl⟩ := h
  refine ⟨rfl, rfl, rfl, ?_⟩
  intro htype
  have htype' : dataType = .timestampTz := htype
  subst htype'
  cases timezone with
  | some zone => rfl
  | none => exact absurd hzoned (by decide)

theorem scaffoldFields_ok {relation : CatalogRelation} {timezone : Option String}
    {primaryKey : List String} {columns : List CatalogColumn} {result : List Field × Nat}
    (h : scaffoldFields relation timezone primaryKey columns = .ok result) :
    ∀ field ∈ result.1, ScaffoldedField timezone primaryKey field := by
  induction columns generalizing result with
  | nil =>
    cases h
    simp
  | cons column columns ih =>
    rw [scaffoldFields] at h
    split_ifs at h
    · simp only [bind_eq_ok, pure_eq_ok] at h
      obtain ⟨field, hfield, rest, hrest, rfl⟩ := h
      exact List.forall_mem_cons.mpr ⟨scaffoldField_ok hfield, ih hrest⟩
    · simp only [bind_eq_ok, pure_eq_ok] at h
      obtain ⟨rest, hrest, rfl⟩ := h
      have hfields := ih hrest
      exact hfields

theorem mem_scaffoldMetrics {primaryKey : List String} {fields : List Field} {metric : Metric}
    (h : metric ∈ scaffoldMetrics primaryKey fields) :
    primaryKey.length = 1 ∧ ∃ key ∈ primaryKey, metric = rowCount key ∧
      ∃ field ∈ fields, field.column = key := by
  unfold scaffoldMetrics at h
  split_ifs at h with hsingle
  · split at h
    · rename_i key hkey
      obtain ⟨hhead, hany⟩ := Option.filter_eq_some_iff.mp hkey
      obtain ⟨field, hfield, hcolumn⟩ := List.any_eq_true.mp hany
      exact ⟨hsingle, key, List.mem_of_mem_head? hhead, List.mem_singleton.mp h, field, hfield,
        beq_iff_eq.mp hcolumn⟩
    · cases h
  · cases h

/-- The key that the row count runs over. -/
theorem findField_key {timezone : Option String} {primaryKey : List String} {model : Model}
    {key : String} (hfields : ∀ field ∈ model.fields, ScaffoldedField timezone primaryKey field)
    (hsingle : primaryKey.length = 1) (hkey : key ∈ primaryKey)
    (hfield : ∃ field ∈ model.fields, field.column = key) :
    ∃ field, model.findField key = some field ∧ field.relationship = none ∧
      field.entityKey = true := by
  obtain ⟨field, hmem, hcolumn⟩ := hfield
  cases hfound : model.findField key with
  | none =>
    have hother := List.find?_eq_none.mp hfound field hmem
    rw [(hfields field hmem).column, hcolumn] at hother
    exact absurd (beq_self_eq_true key) hother
  | some found =>
    have hscaffolded := hfields found (List.mem_of_find?_eq_some hfound)
    have hname : found.semanticName = key := by
      simpa using List.find?_some hfound
    rw [hscaffolded.column] at hname
    refine ⟨found, rfl, hscaffolded.direct, ?_⟩
    rw [hscaffolded.entityKey, hname, hsingle]
    simpa using hkey

theorem scaffoldMetrics_grounded {timezone : Option String} {primaryKey : List String} {model : Model}
    {metric : Metric} (hfields : ∀ field ∈ model.fields, ScaffoldedField timezone primaryKey field)
    (h : metric ∈ scaffoldMetrics primaryKey model.fields) : metric.Grounded "2" model := by
  obtain ⟨hsingle, key, hkey, rfl, hfield⟩ := mem_scaffoldMetrics h
  obtain ⟨field, hfound, hdirect, hentity⟩ := findField_key hfields hsingle hkey hfield
  exact
    { unfiltered := rfl
      field := ⟨field, hfound, hdirect, fun _ => hentity, rfl⟩
      plain := fun hversion => absurd hversion (by decide)
      additive := fun _ => rfl
      anchor := fun anchor hanchor => by
        obtain rfl := Option.some.inj hanchor
        exact ⟨field, hfound, hdirect, hentity⟩ }

theorem scaffoldModel_ok {timezone : Option String} {relation : CatalogRelation}
    {result : Model × Nat} (h : scaffoldModel timezone relation = .ok result)
    (models : List Model) : result.1.Grounded "2" models ∧ result.1.Zoned := by
  simp only [scaffoldModel, bind_eq_ok, pure_eq_ok] at h
  obtain ⟨-, -, -, -, -, -, fields, hfields, -, -, rfl⟩ := h
  have hscaffolded := scaffoldFields_ok hfields
  refine ⟨⟨?_, ?_, ?_⟩, fun field hmem => (hscaffolded field hmem).zoned⟩
  · intro field hmem name hname
    rw [(hscaffolded field hmem).direct] at hname
    cases hname
  · intro relationship hmem
    cases hmem
  · exact fun metric hmetric => scaffoldMetrics_grounded hscaffolded hmetric

theorem scaffold_grounded {backend : ScaffoldBackend} {input : List UInt8}
    {catalog : CatalogSnapshot} {report : ScaffoldReport}
    (h : scaffold backend input catalog = .ok report) :
    report.snapshot.Grounded backend.toHashBackend ∧
      ∀ model ∈ report.snapshot.models, model.Zoned := by
  simp only [scaffold, bind_eq_ok, pure_eq_ok] at h
  obtain ⟨request, -, -, -, canonical, -, selected, -, -, -, models, hmodels, hash, hhash, rfl⟩ := h
  have heach : ∀ model ∈ models.map Prod.fst, model.Grounded "2" (models.map Prod.fst) ∧
      model.Zoned := by
    intro model hmodel
    obtain ⟨result, hresult, rfl⟩ := List.mem_map.mp hmodel
    obtain ⟨relation, -, hrelation⟩ := mem_of_mapM_ok hmodels hresult
    exact scaffoldModel_ok hrelation _
  exact ⟨⟨checkSnapshot_hashed (.inr rfl) (orError_eq_ok.mp hhash),
    fun model hmodel => (heach model hmodel).1⟩, fun model hmodel => (heach model hmodel).2⟩

end Scaffold

section Authored

/-- Whatever an import or a scaffold returns, no compilation against it blames the snapshot, and
none misses the timezone of what was scaffolded. -/
theorem authored_snapshots_blameless (backend : CompilerBackend) (normalized : NormalizedLsq)
    (options : CompilerOptions) :
    (∀ (importer : Osi.ImportBackend) (input : List UInt8) (catalog : CatalogSnapshot)
      (selected : Option String) (report : Osi.OsiImportReport),
      importer.toHashBackend = backend.toHashBackend →
      Osi.importOsi importer input catalog selected = .ok report →
      ∀ error, compileLsq backend normalized report.snapshot options = .error error →
        error.blamesSnapshot = false) ∧
    ∀ (scaffolder : ScaffoldBackend) (input : List UInt8) (catalog : CatalogSnapshot)
      (report : ScaffoldReport),
      scaffolder.toHashBackend = backend.toHashBackend →
      scaffold scaffolder input catalog = .ok report →
      ∀ error, compileLsq backend normalized report.snapshot options = .error error →
        error.blamesSnapshot = false ∧ error.isMissingTimezone = false := by
  constructor
  · intro importer input catalog selected report hbackend hreport
    have hgrounded := Osi.importOsi_grounded hreport
    rw [hbackend] at hgrounded
    exact compileLsq_blameless hgrounded
  · intro scaffolder input catalog report hbackend hreport
    obtain ⟨hgrounded, hzoned⟩ := scaffold_grounded hreport
    rw [hbackend] at hgrounded
    exact compileLsq_zoned hgrounded hzoned

end Authored

section Shop
open Osi

/-- The request reader, as far as one request goes. -/
def shopRequest : ScaffoldRequest :=
  { schemaVersion := "1", schema := "shop", relations := ["orders", "customers"]
    relationPrefix := none, maxModels := 10, timezone := none }

def shopRequestText : String :=
  "\x7b\"schema_version\":\"1\",\"schema\":\"shop\",\"relations\":[\"orders\",\"customers\"],"
    ++ "\"max_models\":10\x7d"

def shopScaffold : ScaffoldBackend :=
  { standardCatalog with
    readRequest := fun input => if input = bytesOf shopRequestText then some shopRequest else none }

theorem hash_standard (snapshot : SemanticSnapshot) :
    ∃ hash, snapshot.calculateRevisionHash standardHash = some hash := ⟨_, rfl⟩

theorem shop_imported :
    ∃ report, importOsi shopImport (bytesOf shopText) shopCatalog none = .ok report := by
  have hok : succeedsWith (importModels shopCatalog.normalize shopModel) (fun _ => true) = true := by
    decide +kernel
  obtain ⟨state, hstate, -⟩ := exists_ok_of_succeedsWith hok
  obtain ⟨hash, hhash⟩ := hash_standard state.snapshot
  have hcatalog : shopCatalog.validatedNormalized shopImport.toCatalogBackend =
      .ok shopCatalog.normalize := shopCatalog_accepted
  have hsnapshot : state.snapshot.calculateRevisionHash shopImport.toHashBackend = some hash := hhash
  refine ⟨_, bind_eq_ok.mpr ⟨_, orError_eq_ok.mpr shop_read, bind_eq_ok.mpr ⟨(), rfl,
    bind_eq_ok.mpr ⟨(), rfl, bind_eq_ok.mpr ⟨shopModel, rfl, bind_eq_ok.mpr ⟨(), rfl,
    bind_eq_ok.mpr ⟨(), rfl, bind_eq_ok.mpr ⟨_, ?_, bind_eq_ok.mpr ⟨state, hstate,
    bind_eq_ok.mpr ⟨hash, orError_eq_ok.mpr hsnapshot, rfl⟩⟩⟩⟩⟩⟩⟩⟩⟩⟩
  rw [hcatalog]
  rfl

theorem shop_scaffolded :
    ∃ report, scaffold shopScaffold (bytesOf shopRequestText) shopCatalog = .ok report := by
  have hselected : succeedsWith (selectRelations shopRequest shopCatalog.normalize) (fun selected =>
      decide (selected.length ≤ 10) &&
        succeedsWith (selected.mapM (scaffoldModel none)) fun _ => true) = true := by
    decide +kernel
  obtain ⟨selected, hselect, hchecks⟩ := exists_ok_of_succeedsWith hselected
  rw [Bool.and_eq_true] at hchecks
  obtain ⟨models, hmodels, -⟩ := exists_ok_of_succeedsWith hchecks.2
  obtain ⟨hash, hhash⟩ := hash_standard ⟨"2", "", models.map Prod.fst⟩
  have hread : shopScaffold.readRequest (bytesOf shopRequestText) = some shopRequest := by
    show (if bytesOf shopRequestText = bytesOf shopRequestText then some shopRequest else none) = _
    exact if_pos rfl
  have hcatalog : shopCatalog.validatedNormalized shopScaffold.toCatalogBackend =
      .ok shopCatalog.normalize := shopCatalog_accepted
  refine ⟨_, bind_eq_ok.mpr ⟨_, orError_eq_ok.mpr hread, bind_eq_ok.mpr ⟨(), ?_,
    bind_eq_ok.mpr ⟨_, ?_, bind_eq_ok.mpr ⟨selected, hselect, bind_eq_ok.mpr ⟨(), ?_,
    bind_eq_ok.mpr ⟨models, hmodels, bind_eq_ok.mpr ⟨hash, orError_eq_ok.mpr hhash, rfl⟩⟩⟩⟩⟩⟩⟩⟩
  · decide +kernel
  · rw [hcatalog]
    rfl
  · exact ensure_eq_ok.mpr hchecks.1

theorem authored_snapshots_blameless_shop :
    (∃ report, importOsi shopImport (bytesOf shopText) shopCatalog none = .ok report ∧
      ∀ normalized options error,
        compileLsq standardBackend normalized report.snapshot options = .error error →
          error.blamesSnapshot = false) ∧
    ∃ report, scaffold shopScaffold (bytesOf shopRequestText) shopCatalog = .ok report ∧
      ∀ normalized options error,
        compileLsq standardBackend normalized report.snapshot options = .error error →
          error.blamesSnapshot = false ∧ error.isMissingTimezone = false := by
  obtain ⟨report, hreport⟩ := shop_imported
  obtain ⟨report', hreport'⟩ := shop_scaffolded
  refine ⟨⟨report, hreport, fun normalized options => ?_⟩, report', hreport',
    fun normalized options => ?_⟩
  · exact (authored_snapshots_blameless standardBackend normalized options).1 shopImport _ _ _
      report rfl hreport
  · exact (authored_snapshots_blameless standardBackend normalized options).2 shopScaffold _ _
      report' rfl hreport'

end Shop

end Postgresem
