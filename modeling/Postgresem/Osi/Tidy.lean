import Postgresem.Osi.Export
import Postgresem.Osi.Grounding

/-! An item of a document without what an import does not record. It declares the same, and there is
nothing to warn about. -/
namespace Postgresem.Osi
open Control Edits Text

section Runs
variable {κ μ ω α β : Type} [DecidableEq κ] [AddCommMonoid ω]

/-- The second plan does what the first one does, and logs nothing. -/
def Quiets (plan : (κ → Option μ) → Option (Edit κ μ ω))
    (quiet : (κ → Option μ) → Option (Edit κ μ ω)) : Prop :=
  ∀ entries edit, plan entries = some edit → quiet entries = some { edit with log := 0 }

theorem run_quiet {plan : α → (κ → Option μ) → Option (Edit κ μ ω)} {items others : List α}
    (h : List.Forall₂ (fun item other => Quiets (plan item) (plan other)) items others)
    {state state' : State κ μ ω} (hrun : run plan items state = some state') (log : ω) :
    run plan others ⟨state.entries, log⟩ = some ⟨state'.entries, log⟩ := by
  induction h generalizing state with
  | nil =>
    cases hrun
    rfl
  | @cons item other items others hquiet _ ih =>
    rw [run_cons, Option.bind_eq_some_iff] at hrun
    obtain ⟨changed, hstep, hrest⟩ := hrun
    obtain ⟨edit, hedit, happly⟩ := Option.bind_eq_some_iff.mp hstep
    obtain ⟨entry, hentry, rfl⟩ := Option.map_eq_some_iff.mp happly
    have hother : step plan ⟨state.entries, log⟩ other =
        some ⟨Function.update state.entries edit.key (some entry), log⟩ := by
      rw [step, hquiet _ _ hedit, Option.bind_some, Edit.apply]
      show (edit.update (state.entries edit.key)).map _ = _
      rw [hentry, Option.map_some, add_zero]
    rw [run_cons, hother, Option.bind_some]
    exact ih hrest

end Runs

/-! ## Texts -/

theorem portable_char {value : String} (h : portableIdentifier value = true) :
    ∀ c ∈ value.toList, isWhitespace c = false ∧ c ≠ '.' := fun c hc =>
  ⟨(plain_of_continues ((portableIdentifier_all h).2 c hc)).1,
    (plain_of_continues ((portableIdentifier_all h).2 c hc)).2.2.2⟩

theorem directAnsiExpression_ansi {column : String} (h : portableIdentifier column = true)
    (path : String) : directAnsiExpression (.ansi column) path = .ok column := by
  have htrimmed : Trimmed isWhitespace column.toList :=
    ⟨fun c hc => (portable_char h c (List.mem_of_mem_head? hc)).1,
      fun c hc => (portable_char h c (List.mem_of_mem_getLast? hc)).1⟩
  have htrim : trim column.toList = column.toList := by
    have hpadded : trimMatches isWhitespace ([] ++ (column.toList ++ [])) = column.toList :=
      trimMatches_padded nofun htrimmed nofun
    simpa [trim] using hpadded
  show (directAnsiExpression ⟨[⟨.ansiSql, column⟩]⟩ path) = _
  simp only [directAnsiExpression, ansiExpression, ok_bind, htrim, String.ofList_toList, h,
    ensure_true]

theorem portable_of_directAnsi {expression : OsiExpression} {path column : String}
    (h : directAnsiExpression expression path = .ok column) : portableIdentifier column = true := by
  simp only [directAnsiExpression, bind_eq_ok, ensure_eq_ok, Except.ok.injEq] at h
  obtain ⟨text, -, -, hportable, rfl⟩ := h
  exact hportable

theorem sourceParts_joined {schema relation : String} (hschema : portableIdentifier schema = true)
    (hrelation : portableIdentifier relation = true) :
    sourceParts (schema ++ "." ++ relation) = some (none, schema, relation) := by
  have hdots : ∀ part ∈ [schema.toList, relation.toList], '.' ∉ part := by
    intro part hpart hdot
    rcases List.mem_cons.mp hpart with rfl | hpart
    · exact (portable_char hschema '.' hdot).2 rfl
    · obtain rfl := List.mem_singleton.mp hpart
      exact (portable_char hrelation '.' hdot).2 rfl
  have htext : (schema ++ "." ++ relation).toList =
      ['.'].intercalate [schema.toList, relation.toList] := by
    simp [List.intercalate]
  rw [sourceParts, htext, List.splitOn_intercalate '.' hdots (by simp)]
  simp

theorem parseSource_joined {source currentDatabase path schema relation : String}
    (h : parseSource source currentDatabase path = .ok (schema, relation)) (path' : String) :
    parseSource (schema ++ "." ++ relation) currentDatabase path' = .ok (schema, relation) := by
  simp only [parseSource, bind_eq_ok, ensure_eq_ok, Except.ok.injEq] at h
  obtain ⟨⟨database, schema', relation'⟩, -, hrest⟩ := h
  obtain ⟨-, hportable, -, -, heq⟩ := hrest
  obtain ⟨rfl, rfl⟩ := Prod.mk.inj heq
  rw [Bool.and_eq_true] at hportable
  simp [parseSource, sourceParts_joined hportable.1 hportable.2, hportable.1, hportable.2]

/-! ## Datasets -/

theorem exists_of_forall₂ {α β : Type} {R : α → β → Prop} {xs : List α} {ys : List β}
    (h : List.Forall₂ R xs ys) {y : β} (hy : y ∈ ys) : ∃ x ∈ xs, R x y := by
  induction h with
  | nil => cases hy
  | @cons first second xs ys hfirst _ ih =>
    rcases List.mem_cons.mp hy with rfl | hy
    · exact ⟨first, List.mem_cons_self, hfirst⟩
    · obtain ⟨x, hx, hR⟩ := ih hy
      exact ⟨x, List.mem_cons_of_mem _ hx, hR⟩

section Datasets
variable {path : String} {columns : List (String × CatalogColumn)} {entityKeys : List String}

theorem importField_exported {field : OsiField} {item : Field × List OsiImportWarning}
    (h : importField path columns entityKeys field = .ok item) :
    importField path columns entityKeys (exportField item.1) = .ok (item.1, []) := by
  simp only [importField, bind_eq_ok, ensure_eq_ok, orError_eq_ok, Except.ok.injEq] at h
  obtain ⟨-, -, columnName, hexpression, column, hcolumn, -, hgrant, dataType, htype, -, htime, rfl⟩ := h
  simp only [importField, exportField, rejectExtensions, List.isEmpty_nil, ensure_true, ok_bind,
    directAnsiExpression_ansi (portable_of_directAnsi hexpression), hcolumn, orError_some, hgrant,
    htype, Option.bind_some, Option.getD_some, htime]
  rfl

theorem importFields_exported {fields : List OsiField} {items : List (Field × List OsiImportWarning)}
    (h : importFields path columns entityKeys [] fields = .ok items) :
    importFields path columns entityKeys [] ((items.map Prod.fst).map exportField) =
      .ok (items.map fun item => (item.1, [])) := by
  have hnodup := nodup_of_importFields h
  obtain ⟨-, -, hitems⟩ := importFields_eq_ok.mp h
  refine importFields_eq_ok.mpr ⟨?_, by simp, ?_⟩
  · rw [List.map_map]
    exact hnodup
  · rw [List.map_map, List.forall₂_map_left_iff, List.forall₂_map_right_iff, List.forall₂_same]
    intro item hitem
    obtain ⟨field, -, hportable, himport⟩ := exists_of_forall₂ hitems hitem
    refine ⟨?_, importField_exported himport⟩
    show portableIdentifier item.1.semanticName = true
    rw [semanticName_of_importField himport, hportable]

theorem entityKey_of_importFields {fields : List OsiField}
    {items : List (Field × List OsiImportWarning)}
    (h : importFields path columns entityKeys [] fields = .ok items) :
    ∀ item ∈ items, item.1.entityKey = decide (item.1.column ∈ entityKeys) := by
  intro item hitem
  obtain ⟨field, -, -, himport⟩ := exists_of_forall₂ (importFields_eq_ok.mp h).2.2 hitem
  simp only [importField, bind_eq_ok, Except.ok.injEq] at himport
  obtain ⟨-, -, -, -, -, -, -, -, -, -, -, -, rfl⟩ := himport
  rfl

theorem eq_of_sorted {keys others : List String} (hkeys : OrderedSet.Sorted keys)
    (hothers : OrderedSet.Sorted others) (h : ∀ key, key ∈ keys ↔ key ∈ others) : keys = others := by
  have hperm : keys.Perm others := (List.perm_ext_iff_of_nodup hkeys.nodup hothers.nodup).mpr h
  exact hperm.eq_of_pairwise (fun a b _ _ hab hba => absurd (hab.trans hba) (lt_irrefl a)) hkeys
    hothers

theorem mem_exportedKey {fields : List Field} {key : String} :
    key ∈ exportedKey fields ↔ ∃ field ∈ fields, field.entityKey = true ∧ field.column = key := by
  simp [exportedKey, and_assoc]

theorem exportedKey_perm {fields fields' : List Field} (h : fields.Perm fields') :
    exportedKey fields = exportedKey fields' := by
  refine eq_of_sorted (OrderedSet.sorted_insertAll _ .nil) (OrderedSet.sorted_insertAll _ .nil) ?_
  intro key
  rw [mem_exportedKey, mem_exportedKey]
  simp only [h.mem_iff]

/-- The key of a dataset is what its fields that are keys stand for. -/
theorem exportedKey_eq {fields : List Field} (hkeys : entityKeys.length ≤ 1)
    (heach : ∀ field ∈ fields, field.entityKey = decide (field.column ∈ entityKeys))
    (hall : ∀ key ∈ entityKeys, ∃ field ∈ fields, field.column = key ∧ field.entityKey = true) :
    exportedKey fields = entityKeys := by
  have hsorted : OrderedSet.Sorted entityKeys := by
    match entityKeys, hkeys with
    | [], _ => exact .nil
    | [key], _ => exact List.pairwise_singleton _ key
  refine eq_of_sorted (OrderedSet.sorted_insertAll _ .nil) hsorted fun key => ?_
  rw [mem_exportedKey]
  constructor
  · rintro ⟨field, hfield, hentity, rfl⟩
    rwa [heach field hfield, decide_eq_true_eq] at hentity
  · intro hkey
    obtain ⟨field, hfield, hcolumn, hentity⟩ := hall key hkey
    exact ⟨field, hfield, hentity, hcolumn⟩

/-- The evidence of a dataset is found again from the dataset that is exported. -/
theorem datasetEvidence_exported {currentDatabase : String} {catalog : RelationIndex}
    {dataset : OsiDataset} {evidence : DatasetEvidence}
    (h : datasetEvidence currentDatabase catalog dataset = .ok evidence) {model : Model}
    {fields : List Field} (hsource : model.source = evidence.source)
    (hkey : exportedKey fields = evidence.primaryKey) :
    datasetEvidence currentDatabase catalog (describeDataset model fields) =
      .ok { evidence with warnings := [] } := by
  simp only [datasetEvidence, bind_eq_ok, ensure_eq_ok, orError_eq_ok, Except.ok.injEq] at h
  obtain ⟨-, -, -, -, ⟨schema, relationName⟩, hparse, relation, hrelation, -, hgrants, -, hdeclared, -,
    hsingle, rfl⟩ := h
  have hcatalog : (if dataset.primaryKey.isEmpty then catalogPrimaryKey relation
      else dataset.primaryKey) = catalogPrimaryKey relation := by
    split_ifs with hempty
    · rfl
    · rw [Bool.or_eq_true, beq_iff_eq] at hdeclared
      exact hdeclared.resolve_left hempty
  rw [hcatalog] at hkey hsingle
  have hsame : ((catalogPrimaryKey relation).isEmpty ||
      catalogPrimaryKey relation == catalogPrimaryKey relation) = true := by simp
  simp only [describeDataset, datasetEvidence, rejectExtensions, List.isEmpty_nil, ensure_true, ok_bind,
    hsource, parseSource_joined hparse, hrelation, orError_some, hgrants, hkey, hsame, ite_self,
    hsingle, hcatalog]
  cases (catalogPrimaryKey relation).isEmpty <;> rfl

theorem length_of_datasetEvidence {currentDatabase : String} {catalog : RelationIndex}
    {dataset : OsiDataset} {evidence : DatasetEvidence}
    (h : datasetEvidence currentDatabase catalog dataset = .ok evidence) :
    evidence.primaryKey.length ≤ 1 := by
  simp only [datasetEvidence, bind_eq_ok, ensure_eq_ok, decide_eq_true_eq, Except.ok.injEq] at h
  obtain ⟨_, _, _, _, pair, _, relation, _, _, _, _, _, _, hsingle, rfl⟩ := h
  exact hsingle

/-- A dataset that was imported is imported from its export, and nothing is derived any more. -/
theorem importDatasetModel_exported {currentDatabase : String} {catalog : RelationIndex}
    {dataset : OsiDataset} {entry : ImportedModel} {warnings : List OsiImportWarning}
    (h : importDatasetModel currentDatabase catalog dataset = .ok (entry, warnings)) :
    importDatasetModel currentDatabase catalog (exportDataset entry.model) = .ok (entry, []) := by
  simp only [importDatasetModel, bind_eq_ok, Except.ok.injEq] at h
  obtain ⟨evidence, hevidence, items, hitems, u, hkeys, heq⟩ := h
  obtain ⟨rfl, rfl⟩ := Prod.mk.inj heq
  have hown : (items.map Prod.fst).filter (fun field => field.relationship.isNone) =
      items.map Prod.fst := by
    rw [List.filter_eq_self]
    intro field hfield
    obtain ⟨item, hitem, rfl⟩ := List.mem_map.mp hfield
    rw [relationship_of_importFields hitems item hitem]
    rfl
  have hkey : exportedKey (items.map Prod.fst) = evidence.primaryKey := by
    refine exportedKey_eq (length_of_datasetEvidence hevidence) ?_ fun key hkey => ?_
    · exact List.forall_mem_map.mpr (entityKey_of_importFields hitems)
    · have hcheck := forEach_eq_ok.mp hkeys key hkey
      rw [ensure_eq_ok, List.any_eq_true] at hcheck
      obtain ⟨found, hfound, hmatch⟩ := hcheck
      rw [Bool.and_eq_true, beq_iff_eq] at hmatch
      obtain ⟨collected, hcollected, rfl⟩ := List.mem_map.mp hfound
      exact ⟨collected.2, (OrderedMap.mem_collect hcollected).1, hmatch⟩
  have hexport : exportDataset (datasetModel dataset.name evidence (items.map Prod.fst)).model =
      describeDataset (datasetModel dataset.name evidence (items.map Prod.fst)).model
        (items.map Prod.fst) := by
    rw [exportDataset]
    exact congrArg _ hown
  rw [hexport]
  have hagain : datasetEvidence currentDatabase catalog
      (describeDataset (datasetModel dataset.name evidence (items.map Prod.fst)).model
        (items.map Prod.fst)) = .ok { evidence with warnings := [] } :=
    datasetEvidence_exported hevidence rfl hkey
  have hfields : (items.map fun item => (item.1, ([] : List OsiImportWarning))).map Prod.fst =
      items.map Prod.fst := by
    rw [List.map_map]
    rfl
  have hsilent : (items.map fun item => (item.1, ([] : List OsiImportWarning))).flatMap Prod.snd = [] :=
    by simp
  simp only [importDatasetModel, bind_eq_ok, Except.ok.injEq]
  refine ⟨_, hagain, _, importFields_exported hitems, u, ?_, ?_⟩
  · rw [hfields]
    exact hkeys
  · rw [hfields, hsilent]
    rfl

theorem planDataset_exported {currentDatabase : String} {catalog : RelationIndex}
    {dataset : OsiDataset} {entry : ImportedModel} {warnings : List OsiImportWarning}
    (h : importDatasetModel currentDatabase catalog dataset = .ok (entry, warnings)) :
    Quiets (planDataset currentDatabase catalog dataset)
      (planDataset currentDatabase catalog (exportDataset entry.model)) := by
  have hname : (exportDataset entry.model).name = dataset.name := by
    simp only [importDatasetModel, bind_eq_ok, Except.ok.injEq] at h
    obtain ⟨evidence, -, items, -, -, -, heq⟩ := h
    obtain ⟨rfl, -⟩ := Prod.mk.inj heq
    rfl
  intro entries edit hedit
  rw [planDataset] at hedit ⊢
  rw [hname]
  split_ifs at hedit ⊢
  rw [h, toOption_ok, Option.map_some, Option.some.injEq] at hedit
  rw [importDatasetModel_exported h, toOption_ok, Option.map_some, ← hedit]
  rfl

end Datasets

/-! ## Relationships and metrics -/

def tidyRelationship (relationship : OsiRelationship) : OsiRelationship :=
  { relationship with aiContext := none }

theorem declareRelationship_tidy {relationship : OsiRelationship} {grounds : String → Option Ground}
    {contribution : Contribution}
    (h : declareRelationship relationship grounds = some contribution) :
    declareRelationship (tidyRelationship relationship) grounds =
      some { contribution with warnings := [] } := by
  rw [declareRelationship] at h ⊢
  split_ifs at h with hguard
  have hguard' : (portableIdentifier (tidyRelationship relationship).name &&
      (tidyRelationship relationship).customExtensions.isEmpty) = true := hguard
  rw [if_pos hguard']
  simp only [Option.bind_eq_bind, Option.bind_eq_some_iff] at h ⊢
  obtain ⟨pair, hpair, toGround, hto, toField, htoField, fromGround, hfrom, fromField, hfromField,
    hlast⟩ := h
  refine ⟨pair, hpair, toGround, hto, toField, htoField, fromGround, hfrom, fromField, hfromField, ?_⟩
  split_ifs at hlast with hkey
  obtain rfl := Option.some.inj hlast
  have hkey' : (⟨[fromField.column], toGround.model.source, [toField.column]⟩ ∈ fromGround.foreignKeys ∧
      ((toGround.evidence.map (projection (tidyRelationship relationship).name)).map
        Field.semanticName).Nodup) := hkey
  rw [if_pos hkey']
  rfl

theorem column_of_findColumn {fields : List (String × ImportedField)} {column : String}
    {field : ImportedField} (h : findColumn fields column = some field) : field.column = column := by
  have hfound := List.find?_some h
  rwa [beq_iff_eq] at hfound

/-- What is recorded of a relationship is exported as it was declared. -/
theorem declareRelationship_recorded {relationship : OsiRelationship}
    {grounds : String → Option Ground} {contribution : Contribution}
    (h : declareRelationship relationship grounds = some contribution) :
    contribution.key = relationship.fromDataset ∧
      contribution.addition.relationships.map (exportRelationship contribution.key) =
        {tidyRelationship relationship} := by
  obtain ⟨name, fromDataset, toDataset, fromColumns, toColumns, aiContext, customExtensions⟩ :=
    relationship
  rw [declareRelationship] at h
  split_ifs at h with hguard
  simp only [Option.bind_eq_bind, Option.bind_eq_some_iff] at h
  obtain ⟨⟨fromName, toName⟩, hpair, toGround, -, toField, htoField, fromGround, -, fromField,
    hfromField, hlast⟩ := h
  split_ifs at hlast
  obtain rfl := Option.some.inj hlast
  refine ⟨rfl, ?_⟩
  have hextensions : customExtensions = [] :=
    List.isEmpty_iff.mp (Bool.and_eq_true_iff.mp hguard).2
  have hcolumns : fromColumns = [fromName] ∧ toColumns = [toName] := by
    unfold columnPair at hpair
    split at hpair
    next hfrom hto =>
      obtain ⟨rfl, rfl⟩ := Prod.mk.inj (Option.some.inj hpair)
      exact ⟨hfrom, hto⟩
    next => cases hpair
  obtain ⟨rfl, rfl⟩ := hcolumns
  subst hextensions
  rw [Multiset.map_singleton]
  simp only [exportRelationship, importedRelationship, tidyRelationship,
    column_of_findColumn hfromField, column_of_findColumn (Option.filter_eq_some_iff.mp htoField).1]

/-- What the expression of a metric says. -/
def readMetric (metric : OsiMetric) : Option ParsedMetric :=
  (ansiExpression metric.expression ("/metrics/" ++ metric.name)).toOption.bind parseMetricExpression

def tidyMetric (metric : OsiMetric) : OsiMetric :=
  match readMetric metric with
  | some parsed =>
    { name := metric.name
      expression := .ansi (metricExpression parsed.aggregation parsed.dataset parsed.field) }
  | none => metric

theorem portable_of_parse {text : String} {metric : ParsedMetric}
    (h : parseMetricExpression text = some metric) : Portable metric := by
  have hspells := spells_of_parse h
  generalize text.toList = chars at hspells
  cases hspells with
  | intro hportable => exact hportable

/-- A metric that was read is read from the text that is exported. -/
theorem parse_metricExpression {text : String} {metric : ParsedMetric}
    (h : parseMetricExpression text = some metric) :
    parseMetricExpression (metricExpression metric.aggregation metric.dataset metric.field) =
      some metric := by
  have hportable := portable_of_parse h
  rw [parse_spelled (spells_metricExpression hportable.1 hportable.2)]
  have hsame := parse_spelled (spells_of_parse h)
  rw [h] at hsame
  exact hsame.symm

theorem declareMetric_cases {metric : OsiMetric} {grounds : String → Option Ground}
    {contribution : Contribution} (h : declareMetric metric grounds = some contribution) :
    ∃ parsed field, readMetric metric = some parsed ∧ contribution.key = parsed.dataset ∧
      contribution.addition = ⟨0, {importedMetric metric parsed field}, 0⟩ ∧
      declareMetric (tidyMetric metric) grounds = some { contribution with warnings := [] } := by
  rw [declareMetric] at h
  split_ifs at h with hguard
  simp only [Option.bind_eq_bind, Option.bind_eq_some_iff] at h
  obtain ⟨expression, hexpression, parsed, hparsed, ground, hground, field, hfield, hlast⟩ := h
  have hread : readMetric metric = some parsed := by
    rw [readMetric, hexpression, Option.bind_some, hparsed]
  split_ifs at hlast with htype
  obtain rfl := Option.some.inj hlast
  refine ⟨parsed, field, hread, rfl, rfl, ?_⟩
  have hname : portableIdentifier metric.name = true := (Bool.and_eq_true_iff.mp hguard).1
  have htidy : tidyMetric metric = ⟨metric.name,
      .ansi (metricExpression parsed.aggregation parsed.dataset parsed.field), none, none, []⟩ := by
    rw [tidyMetric, hread]
  rw [htidy, declareMetric]
  simp only [hname, List.isEmpty_nil, Bool.and_self, if_true, OsiExpression.ansi, ansiExpression,
    toOption_ok, Option.bind_eq_bind, Option.bind_some, parse_metricExpression hparsed, hground, hfield,
    htype]
  rfl

theorem declareMetric_tidy {metric : OsiMetric} {grounds : String → Option Ground}
    {contribution : Contribution} (h : declareMetric metric grounds = some contribution) :
    declareMetric (tidyMetric metric) grounds = some { contribution with warnings := [] } := by
  obtain ⟨_, _, _, _, _, htidy⟩ := declareMetric_cases h
  exact htidy

theorem name_tidyMetric (metric : OsiMetric) : (tidyMetric metric).name = metric.name := by
  unfold tidyMetric
  split <;> rfl

theorem tidyMetric_idempotent (metric : OsiMetric) : tidyMetric (tidyMetric metric) = tidyMetric metric := by
  cases hread : readMetric metric with
  | none =>
    have hsame : tidyMetric metric = metric := by rw [tidyMetric, hread]
    rw [hsame, hsame]
  | some parsed =>
    obtain ⟨expression, -, hparsed⟩ := Option.bind_eq_some_iff.mp hread
    have htidy : tidyMetric metric = ⟨metric.name,
        .ansi (metricExpression parsed.aggregation parsed.dataset parsed.field), none, none, []⟩ := by
      rw [tidyMetric, hread]
    have hagain : readMetric (tidyMetric metric) = some parsed := by
      rw [htidy, readMetric]
      simp only [OsiExpression.ansi, ansiExpression, toOption_ok, Option.bind_some,
        parse_metricExpression hparsed]
    rw [tidyMetric, hagain, name_tidyMetric, htidy]

end Postgresem.Osi
