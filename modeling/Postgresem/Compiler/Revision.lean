import Postgresem.Semantic.Canonical
import Postgresem.Semantic.Decoding
import Postgresem.Compiler.Concealment

/-! The revision hash and the query compiler. The hash is taken over the canonical order while the
compiler searches the lists as they are given; with distinct names both see the same objects. -/
namespace Postgresem
open Control Named

theorem Field.core_of_hashed {field field' : Field} (h : field.hashed = field'.hashed) :
    field.core = field'.core ∧ field.visible = field'.visible := by
  simp only [Field.hashed, Field.mk.injEq] at h
  simp [Field.core, h]

section Model
variable {model model' : Model} (h : SameModel model model')
include h

theorem SameModel.core_eq : model.core = model'.core := by
  simp only [Model.core, h.semanticName, h.source, h.timezone]

theorem SameModel.findField (hnames : model'.UniqueNames) (name : String) :
    Option.Rel (fun field field' => field.hashed = field'.hashed) (model.findField name)
      (model'.findField name) := by
  refine h.fields.find? hnames.fields (n := name) ?_ ?_
  · intro field hf
    simpa using hf
  · intro field field' hf
    simp only [Field.hashed, Field.mk.injEq] at hf
    rw [hf.1]

theorem SameModel.visibleField (hnames : model'.UniqueNames) (name : String) :
    Coupled Eq (fun field field' => field.core = field'.core) (visibleField model name)
      (visibleField model' name) := by
  unfold Postgresem.visibleField resolveField
  refine (Coupled.orError rfl (h.findField hnames name)).bind ?_
  intro field field' _ _ hhashed
  obtain ⟨hcore, hvisible⟩ := Field.core_of_hashed hhashed
  rw [hvisible]
  refine (Coupled.ensure rfl).bind ?_
  intro _ _ _ _ _
  exact .ok hcore

theorem SameModel.sameField (hnames : model'.UniqueNames) (name : String) :
    SameField model model' name := by
  have hrel := h.findField hnames name
  unfold SameField
  generalize model.findField name = found at hrel
  generalize model'.findField name = found' at hrel
  cases hrel with
  | none => rfl
  | some hhashed => rw [Option.map_some, Option.map_some, (Field.core_of_hashed hhashed).1]

theorem SameModel.visibleMetric (hnames : model'.UniqueNames) (name : String) :
    visibleMetric model name = visibleMetric model' name := by
  have hfind : model.findMetric name = model'.findMetric name :=
    (Named.find?_perm hnames.metrics h.metrics.symm name).symm
  rw [Postgresem.visibleMetric, Postgresem.visibleMetric, hfind]

theorem SameModel.directKey (column : String) :
    model.fields.any (isDirectKey column) = model'.fields.any (isDirectKey column) := by
  refine h.fields.any ?_
  intro field field' hf
  simp only [Field.hashed, Field.mk.injEq] at hf
  simp only [isDirectKey, hf]

end Model

section Snapshot
variable {snapshot snapshot' : SemanticSnapshot}
variable (hnames : snapshot'.UniqueNames)
variable (hmodels : Matched SameModel snapshot.models snapshot'.models)
include hnames hmodels

theorem findModel_same (query : LogicalSemanticQuery) :
    Option.Rel SameModel (snapshot.findModel query) (snapshot'.findModel query) := by
  refine hmodels.find? hnames.models (n := query.model) ?_ ?_
  · intro model hm
    simp only [Bool.and_eq_true, beq_iff_eq] at hm
    exact hm.1
  · intro model model' hsame
    rw [hsame.semanticName, hsame.queryable]

theorem resolveRelationship_same {model model' : Model} (hsame : SameModel model model')
    (hmodel : model'.UniqueNames) (name : String) :
    Coupled Eq Eq (resolveRelationship snapshot.models model name)
      (resolveRelationship snapshot'.models model' name) := by
  refine resolveRelationship_coupled (fun _ => rfl) ?_ ?_ ?_
  · exact (Named.find?_perm hmodel.relationships hsame.relationships.symm name).symm
  · intro relationship _
    have htarget : Option.Rel SameModel
        (snapshot.models.find? fun target => target.semanticName == relationship.targetModel)
        (snapshot'.models.find? fun target => target.semanticName == relationship.targetModel) := by
      refine hmodels.find? hnames.models (n := relationship.targetModel) ?_ ?_
      · intro target ht
        simpa using ht
      · intro target target' ht
        rw [ht.semanticName]
    generalize (snapshot.models.find? _) = found at htarget ⊢
    generalize (snapshot'.models.find? _) = found' at htarget ⊢
    cases htarget with
    | none => exact .none
    | some ht => exact .some ⟨ht.source, fun _ => ht.directKey _⟩
  · intro relationship _ _
    exact hsame.directKey _

theorem agrees_of_same (hversion : snapshot.schemaVersion = snapshot'.schemaVersion)
    {model model' : Model} (hsame : SameModel model model') (hmodel : model'.UniqueNames)
    (query : LogicalSemanticQuery) :
    Agrees Eq query snapshot.schemaVersion snapshot'.schemaVersion snapshot.models
      snapshot'.models model model' where
  core := hsame.core_eq
  version := fun _ => hversion
  field := fun name _ => hsame.visibleField hmodel name
  metric := fun reference _ => by
    rw [hsame.visibleMetric hmodel]
    exact Coupled.refl (fun _ => rfl) (fun _ => rfl) _
  lookup := fun _ _ _ _ name _ => hsame.sameField hmodel name
  relationship := fun name _ => resolveRelationship_same hnames hmodels hsame hmodel name

end Snapshot

/-! ## Whole results -/

theorem compileLsq_queryHash {backend : CompilerBackend} {normalized : NormalizedLsq}
    {snapshot : SemanticSnapshot} {options : CompilerOptions} {compiled : CompiledQuery}
    (h : compileLsq backend normalized snapshot options = .ok compiled) :
    ∃ input, backend.parametersJson compiled.parameters = some input ∧
      compiled.queryHash = backend.hash (normalized.hash ++ "|" ++ snapshot.revisionHash ++ "|"
        ++ compilerSemanticVersion ++ "|" ++ compiled.sqlHash ++ "|" ++ input) := by
  simp only [compileLsq, render, bind_eq_ok, Prod.exists, orError_eq_ok, pure_eq_ok] at h
  obtain ⟨validated, -, sql, state, -, input, hinput, rfl⟩ := h
  exact ⟨input, hinput, rfl⟩

/-- Two valid snapshots of one revision with the same objects compile every query alike. -/
theorem compileLsq_eq_of_same {backend : CompilerBackend} {snapshot snapshot' : SemanticSnapshot}
    (hvalid : checkSnapshot backend.toHashBackend snapshot = .ok ())
    (hvalid' : checkSnapshot backend.toHashBackend snapshot' = .ok ())
    (hnames : snapshot'.UniqueNames)
    (hmodels : Matched SameModel snapshot.models snapshot'.models)
    (hversion : snapshot.schemaVersion = snapshot'.schemaVersion)
    (hrevision : snapshot.revisionHash = snapshot'.revisionHash)
    (normalized : NormalizedLsq) (options : CompilerOptions) :
    compileLsq backend normalized snapshot options =
      compileLsq backend normalized snapshot' options := by
  have hagrees : Option.Rel (Agrees Eq normalized.query snapshot.schemaVersion
      snapshot'.schemaVersion snapshot.models snapshot'.models)
      (snapshot.findModel normalized.query) (snapshot'.findModel normalized.query) := by
    have hsame := findModel_same hnames hmodels normalized.query
    cases hfound' : snapshot'.findModel normalized.query with
    | none =>
      rw [hfound'] at hsame
      generalize snapshot.findModel normalized.query = found at hsame ⊢
      cases hsame
      exact .none
    | some model' =>
      rw [hfound'] at hsame
      generalize snapshot.findModel normalized.query = found at hsame ⊢
      cases hsame with
      | some hmodel =>
        exact .some (agrees_of_same hnames hmodels hversion hmodel
          (hnames.each model' (List.mem_of_find?_eq_some hfound')) normalized.query)
  have hcoupled := compileLsq_coupled (fun _ => rfl) hvalid hvalid' hagrees options
  cases hcompiled : compileLsq backend normalized snapshot options with
  | error error =>
    rw [hcompiled] at hcoupled
    generalize compileLsq backend normalized snapshot' options = result at hcoupled
    cases hcoupled with
    | error heq => rw [heq]
  | ok compiled =>
    obtain ⟨compiled', hcompiled', hsame⟩ := hcoupled.exists_ok hcompiled
    obtain ⟨input, hinput, hhash⟩ := compileLsq_queryHash hcompiled
    obtain ⟨input', hinput', hhash'⟩ := compileLsq_queryHash hcompiled'
    rw [hsame.parameters, hinput'] at hinput
    have hquery : compiled.queryHash = compiled'.queryHash := by
      rw [hhash, hhash', hrevision, hsame.sqlHash, Option.some.inj hinput]
    rw [hcompiled']
    have hall : compiled = compiled' := by
      cases compiled
      cases compiled'
      obtain ⟨hsql, hparameters, hschema, hlineage, hsqlHash⟩ := hsame
      simp only at hsql hparameters hschema hlineage hsqlHash hquery
      rw [hsql, hparameters, hschema, hlineage, hsqlHash, hquery]
    rw [hall]

theorem checkSnapshot_congr (backend : HashBackend) {snapshot snapshot' : SemanticSnapshot}
    (h : snapshot.normalized = snapshot'.normalized) :
    checkSnapshot backend snapshot = checkSnapshot backend snapshot' := by
  obtain ⟨hversion, hrevision⟩ := rest_eq_of_normalized_eq h
  simp only [checkSnapshot, checkRevisionHash, SemanticSnapshot.calculateRevisionHash, h, hversion,
    hrevision]

/-- Snapshots with one normal form compile every query alike, also where they are refused. -/
theorem compileLsq_eq_of_normalized_eq {backend : CompilerBackend}
    {snapshot snapshot' : SemanticSnapshot} (hnames : snapshot'.UniqueNames)
    (h : snapshot.normalized = snapshot'.normalized) (normalized : NormalizedLsq)
    (options : CompilerOptions) :
    compileLsq backend normalized snapshot options =
      compileLsq backend normalized snapshot' options := by
  have hcheck := checkSnapshot_congr backend.toHashBackend h
  cases hvalid : checkSnapshot backend.toHashBackend snapshot with
  | error error =>
    rw [hvalid] at hcheck
    simp only [compileLsq, validate, hvalid, ← hcheck, error_bind]
  | ok u =>
    rw [hvalid] at hcheck
    obtain ⟨hversion, hrevision⟩ := rest_eq_of_normalized_eq h
    exact compileLsq_eq_of_same hvalid hcheck.symm hnames
      (sameModels_of_normalized_hashed (by rw [h])) hversion hrevision normalized options

theorem calculateRevisionHash_of_checkSnapshot {backend : HashBackend}
    {snapshot : SemanticSnapshot} {u : Unit} (h : checkSnapshot backend snapshot = .ok u) :
    snapshot.calculateRevisionHash backend = some snapshot.revisionHash := by
  simp only [checkSnapshot, checkRevisionHash, bind_eq_ok, ensure_eq_ok, orError_eq_ok,
    exists_const, beq_iff_eq] at h
  obtain ⟨-, -, hash, hhash, rfl⟩ := h
  exact hhash

theorem SemanticSnapshot.Permuted.uniqueNames {snapshot snapshot' : SemanticSnapshot}
    (h : snapshot.Permuted snapshot') (hnames : snapshot.UniqueNames) : snapshot'.UniqueNames := by
  obtain ⟨models, hmodels, hperm⟩ := h.models
  have hname : snapshot.models.map Model.semanticName = models.map Model.semanticName := by
    rw [← List.forall₂_eq_eq_eq, List.forall₂_map_left_iff, List.forall₂_map_right_iff]
    refine hmodels.imp fun model model' hm => ?_
    have hrest := hm.rest
    simp only [Model.mk.injEq] at hrest
    exact hrest.1
  refine ⟨?_, fun model' hm' => ?_⟩
  · rw [← (hperm.map Model.semanticName).nodup_iff, ← hname]
    exact hnames.models
  · obtain ⟨model, hm, hpermuted⟩ := exists_left_of_forall₂ hmodels (hperm.mem_iff.mpr hm')
    have heach := hnames.each model hm
    exact ⟨(hpermuted.fields.map _).nodup_iff.mp heach.fields,
      (hpermuted.metrics.map _).nodup_iff.mp heach.metrics,
      (hpermuted.relationships.map _).nodup_iff.mp heach.relationships⟩

/-- The revision hash identifies what the query compiler sees: a permuted snapshot has the normal
form and the hash of the original, and valid snapshots of one hash compile every query to one
result, whether that is a whole compiled query or an error. -/
theorem revision_hash_identifies (backend : CompilerBackend)
    {snapshot snapshot' : SemanticSnapshot} (hdistinct : snapshot.Distinct) :
    (snapshot.Permuted snapshot' →
      snapshot.normalized = snapshot'.normalized ∧
      snapshot.calculateRevisionHash backend.toHashBackend =
        snapshot'.calculateRevisionHash backend.toHashBackend ∧
      ∀ normalized options, compileLsq backend normalized snapshot options =
        compileLsq backend normalized snapshot' options) ∧
    (snapshot'.Distinct →
      checkSnapshot backend.toHashBackend snapshot = .ok () →
      checkSnapshot backend.toHashBackend snapshot' = .ok () →
      snapshot.revisionHash = snapshot'.revisionHash →
      backend.toHashBackend.Faithful →
      backend.toHashBackend.SeparatesRevisions snapshot snapshot' →
      ∀ normalized options, compileLsq backend normalized snapshot options =
        compileLsq backend normalized snapshot' options) := by
  constructor
  · intro hpermuted
    have heq := hpermuted.normalized_eq hdistinct
    refine ⟨heq, ?_, ?_⟩
    · rw [SemanticSnapshot.calculateRevisionHash, heq, SemanticSnapshot.calculateRevisionHash]
    · exact compileLsq_eq_of_normalized_eq (hpermuted.uniqueNames hdistinct.toUniqueNames) heq
  · intro hdistinct' hvalid hvalid' hrevision hfaithful hseparates
    have hhash := calculateRevisionHash_of_checkSnapshot hvalid
    have hhash' := calculateRevisionHash_of_checkSnapshot hvalid'
    rw [hrevision] at hhash
    obtain ⟨hversion, hmodels⟩ :=
      normalized_hashed_of_revisionHash_eq hfaithful hhash hhash' hseparates
    exact compileLsq_eq_of_same hvalid hvalid' hdistinct'.toUniqueNames
      (sameModels_of_normalized_hashed hmodels) hversion hrevision

/-- The orders with their fields in the other order. -/
def swappedModel : Model := { marginModel with fields := marginModel.fields.reverse }

def swappedSnapshot : SemanticSnapshot := { marginSnapshot with models := [swappedModel] }

/-- The swapped orders with a margin that is never null. -/
def requiredSnapshot : SemanticSnapshot :=
  { marginSnapshot with
    models := [{ swappedModel with
      fields := swappedModel.fields.map fun field => { field with nullable := false } }] }

theorem marginSnapshot_permuted : marginSnapshot.Permuted swappedSnapshot := by
  refine ⟨rfl, [swappedModel], .cons ?_ .nil, .refl _⟩
  exact ⟨rfl, (List.reverse_perm _).symm, .refl _, .refl _, .none⟩

theorem orders_distinct : marginSnapshot.Distinct ∧ requiredSnapshot.Distinct := by
  refine ⟨⟨⟨by decide, ?_⟩, ?_⟩, ⟨⟨by decide, ?_⟩, ?_⟩⟩
  all_goals
    intro model hm
    obtain rfl := List.mem_singleton.mp hm
  · exact ⟨by decide, by decide, by decide⟩
  · intro writable hw
    cases hw
  · exact ⟨by decide, by decide, by decide⟩
  · intro writable hw
    cases hw

/-- The order of the fields and their nullability do not matter to a query on orders. -/
theorem revision_hash_identifies_orders :
    compileLsq standardBackend ordersByMargin marginSnapshot {} =
        compileLsq standardBackend ordersByMargin swappedSnapshot {} ∧
      compileLsq standardBackend ordersByMargin marginSnapshot {} =
        compileLsq standardBackend ordersByMargin requiredSnapshot {} := by
  obtain ⟨hmargin, hrequired⟩ := orders_distinct
  have hvalid : checkSnapshot standardBackend.toHashBackend marginSnapshot = .ok () :=
    marginSnapshot_checked
  -- The serialized texts are the same, since `nullable` is not written.
  have hjson : standardBackend.snapshotJson { requiredSnapshot.normalized with revisionHash := "" } =
      standardBackend.snapshotJson { marginSnapshot.normalized with revisionHash := "" } := rfl
  have hvalid' : checkSnapshot standardBackend.toHashBackend requiredSnapshot = .ok () := by
    rw [← hvalid]
    simp only [checkSnapshot, checkRevisionHash, SemanticSnapshot.calculateRevisionHash, hjson]
    rfl
  refine ⟨((revision_hash_identifies standardBackend hmargin).1 marginSnapshot_permuted).2.2 _ _,
    (revision_hash_identifies standardBackend hmargin).2 hrequired hvalid hvalid' rfl
      standardHash_faithful ?_ _ _⟩
  intro bytes bytes' hbytes hbytes' _
  rw [hjson, hbytes] at hbytes'
  exact Option.some.inj hbytes'

/-! ## A snapshot that is written and read -/

section Persisted
variable {backend : CompilerBackend}

theorem SemanticSnapshot.hashed_hashed (snapshot : SemanticSnapshot) :
    snapshot.hashed.hashed = snapshot.hashed := by
  have hmodel (model : Model) : model.hashed.hashed = model.hashed := by
    simp [Model.hashed, Field.hashed, Function.comp_def]
  simp [SemanticSnapshot.hashed, Function.comp_def, hmodel]

theorem checkSnapshot_of_hashed (hfaithful : backend.toHashBackend.Faithful)
    (snapshot : SemanticSnapshot) : checkSnapshot backend.toHashBackend snapshot.hashed =
      checkSnapshot backend.toHashBackend snapshot := by
  simp only [checkSnapshot, checkRevisionHash,
    SemanticSnapshot.calculateRevisionHash_hashed hfaithful]
  rfl

/-- No query sees the nullability of a field. -/
theorem compileLsq_hashed (hfaithful : backend.toHashBackend.Faithful) {snapshot : SemanticSnapshot}
    (hnames : snapshot.UniqueNames) (normalized : NormalizedLsq) (options : CompilerOptions) :
    compileLsq backend normalized snapshot.hashed options =
      compileLsq backend normalized snapshot options := by
  have hcheck := checkSnapshot_of_hashed hfaithful snapshot
  cases hvalid : checkSnapshot backend.toHashBackend snapshot with
  | error error =>
    rw [hvalid] at hcheck
    simp only [compileLsq, validate, hvalid, hcheck, error_bind]
  | ok u =>
    rw [hvalid] at hcheck
    have hmodels : snapshot.hashed.normalized.hashed.models =
        snapshot.normalized.hashed.models := by
      rw [SemanticSnapshot.normalized_hashed, SemanticSnapshot.hashed_hashed]
    exact compileLsq_eq_of_same hcheck hvalid hnames (sameModels_of_normalized_hashed hmodels) rfl
      rfl normalized options

/-- A snapshot that is written to a file, with whatever white space, is read back under its own revision
hash, and compiles every query to what the published snapshot compiles it to, whether that is a statement
or an error. -/
theorem exported_snapshot_compiles_alike {finite : String → Bool}
    (hfaithful : backend.toHashBackend.Faithful) {snapshot : SemanticSnapshot}
    (hrange : snapshot.InRange) (hnames : snapshot.UniqueNames) {bytes : List UInt8}
    (hwritten : Json.read bytes = some snapshot.toValue) :
    ∃ exported, parseSnapshot finite bytes = some exported ∧
      exported.calculateRevisionHash backend.toHashBackend =
        snapshot.calculateRevisionHash backend.toHashBackend ∧
      checkSnapshot backend.toHashBackend exported =
        checkSnapshot backend.toHashBackend snapshot ∧
      ∀ normalized options, compileLsq backend normalized exported options =
        compileLsq backend normalized snapshot options := by
  have hparse : parseSnapshot finite bytes = parseSnapshot finite (bytesOf snapshot.json) := by
    rw [parseSnapshot, parseSnapshot, hwritten, snapshot.read_json]
  rw [parseSnapshot_json hrange] at hparse
  exact ⟨snapshot.hashed, hparse, SemanticSnapshot.calculateRevisionHash_hashed hfaithful snapshot,
    checkSnapshot_of_hashed hfaithful snapshot, compileLsq_hashed hfaithful hnames⟩

theorem exported_snapshot_compiles_alike_orders : ∃ exported,
    parseSnapshot (fun _ => true) (bytesOf requiredSnapshot.json) = some exported ∧
      compileLsq standardBackend ordersByMargin exported {} =
        compileLsq standardBackend ordersByMargin requiredSnapshot {} := by
  have hrange : requiredSnapshot.InRange := by
    intro model hmem
    obtain rfl := List.mem_singleton.mp hmem
    constructor
    · intro writable hwritable
      cases hwritable
    · intro metric hmetric filter hfilter
      obtain rfl := List.mem_singleton.mp hmetric
      cases hfilter
  have hfaithful : standardBackend.toHashBackend.Faithful := standardHash_faithful
  obtain ⟨exported, hparse, -, -, hcompile⟩ := exported_snapshot_compiles_alike hfaithful hrange
    orders_distinct.2.toUniqueNames requiredSnapshot.read_json
  exact ⟨exported, hparse, hcompile _ _⟩

end Persisted

end Postgresem
