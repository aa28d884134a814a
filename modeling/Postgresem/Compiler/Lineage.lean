import Postgresem.Foundation.Named
import Postgresem.Compiler.Identifiers
import Mathlib.Data.Prod.Lex

/-! The lineage of a compiled query, the ownership check that rests on it, and the statement that
the query stands for. -/
namespace Postgresem
open Control Template Lexing

/-! ## The ownership check -/

inductive OwnershipError where
  | sourceRelationNotFound
  | sourceRelationOwner
  deriving DecidableEq, Repr

/-- The key of a relation in the `BTreeSet` of the check. -/
def relationKey (relation : Relation) : Lex (String × String) :=
  toLex (relation.schema, relation.relation)

theorem relationKey_injective : Function.Injective relationKey := by
  intro first second h
  have hpair : (first.schema, first.relation) = (second.schema, second.relation) := h
  rw [Prod.mk.injEq] at hpair
  cases first
  cases second
  simpa using hpair

def lineageRelations (snapshot : SemanticSnapshot) (compiled : CompiledQuery) :
    Except OwnershipError (List (Lex (String × String))) := do
  let sources ← compiled.lineage.models.mapM fun name =>
    (orError (snapshot.models.find? fun model => model.semanticName == name)
      .sourceRelationNotFound).map fun model => relationKey model.source
  pure (OrderedSet.insertAll sources [])

/-- `canAssumeOwner` is the catalog query: nothing for an unknown relation, otherwise whether the
mapped role is a member of the owner. -/
def verifyRelationOwnership (canAssumeOwner : Lex (String × String) → Option Bool)
    (snapshot : SemanticSnapshot) (compiled : CompiledQuery) : Except OwnershipError Unit := do
  let relations ← lineageRelations snapshot compiled
  forEach (fun relation => do
    let owner ← orError (canAssumeOwner relation) .sourceRelationNotFound
    ensure (!owner) .sourceRelationOwner) relations

theorem verifyRelationOwnership_ok {canAssumeOwner : Lex (String × String) → Option Bool}
    {snapshot : SemanticSnapshot} {compiled : CompiledQuery}
    {relations : List (Lex (String × String))}
    (hrelations : lineageRelations snapshot compiled = .ok relations)
    (h : verifyRelationOwnership canAssumeOwner snapshot compiled = .ok ()) :
    ∀ relation ∈ relations, canAssumeOwner relation = some false := by
  simp only [verifyRelationOwnership, hrelations, ok_bind, forEach_eq_ok, bind_eq_ok,
    orError_eq_ok, ensure_eq_ok] at h
  intro relation hr
  obtain ⟨owner, howner, hnot⟩ := h relation hr
  rw [howner]
  simpa using hnot

/-- The check looks at sources of models of the snapshot only. -/
theorem mem_lineageRelations {snapshot : SemanticSnapshot} {compiled : CompiledQuery}
    {relations : List (Lex (String × String))} {relation : Lex (String × String)}
    (hrelations : lineageRelations snapshot compiled = .ok relations) (hmem : relation ∈ relations) :
    ∃ source ∈ snapshot.models, relationKey source.source = relation := by
  simp only [lineageRelations, bind_eq_ok, pure_eq_ok] at hrelations
  obtain ⟨sources, hsources, rfl⟩ := hrelations
  rw [OrderedSet.mem_insertAll] at hmem
  have hin := hmem.resolve_right (by simp)
  obtain ⟨name, -, hname⟩ := exists_left_of_forall₂ (mapM_eq_ok_iff.mp hsources) hin
  obtain ⟨source, hfound, rfl⟩ := map_eq_ok.mp hname
  rw [orError_eq_ok] at hfound
  exact ⟨source, List.mem_of_find?_eq_some hfound, rfl⟩

/-! ## The models of the lineage -/

theorem mem_dedupAdjacent {name : String} (names : List String) :
    name ∈ dedupAdjacent names ↔ name ∈ names := by
  fun_induction dedupAdjacent names with
  | case1 => rfl
  | case2 first => rfl
  | case3 second rest ih =>
    rw [ih]
    simp
  | case4 first second rest hne ih => simp [ih]

theorem mem_lineageModels {validated : ValidatedQuery} {name : String} :
    name ∈ lineageModels validated ↔ name = validated.model.semanticName ∨
      ∃ entry ∈ validated.relationships, name = entry.2.targetModel := by
  have hperm : name ∈ sortByKeys (fun name => [name]) (validated.model.semanticName
      :: validated.relationships.map fun entry => entry.2.targetModel) ↔
      name ∈ validated.model.semanticName
        :: validated.relationships.map fun entry => entry.2.targetModel :=
    (List.perm_insertionSort _ _).mem_iff
  rw [lineageModels, mem_dedupAdjacent, hperm, List.mem_cons, List.mem_map]
  simp only [eq_comm]

/-! ## The statement against the lineage -/

/-- What the guards downstream take the lineage for, said of the statement that is executed. -/
structure LineageCovers (snapshot : SemanticSnapshot) (model : Model)
    (query : LogicalSemanticQuery) (compiled : CompiledQuery) (statement : Sql.Query) : Prop where
  relations : ∀ binding ∈ statement.body.tables.bindings, ∃ source ∈ snapshot.models,
    source.semanticName ∈ compiled.lineage.models ∧ source.source = binding.2
  checked : ∃ relations, lineageRelations snapshot compiled = .ok relations ∧
    ∀ binding ∈ statement.body.tables.bindings, relationKey binding.2 ∈ relations
  columns : ∀ column, column ∈ compiled.lineage.sourceColumns ↔
    column ∈ statement.body.tables.sourceColumns statement.refs
  slots : (statement.body.tables.bindings.map Prod.fst).Nodup
  tables : statement.body.tables.bindings = expectedBindings model query
  bound : ∀ reference ∈ statement.refs, ∃ relation,
    (reference.slot, relation) ∈ statement.body.tables.bindings ∧
      (relation, reference.column) ∈ ownedColumns model query

/-- When the check passes, the mapped role owns no relation that the statement reads. -/
theorem LineageCovers.not_owner {snapshot : SemanticSnapshot} {model : Model}
    {query : LogicalSemanticQuery} {compiled : CompiledQuery} {statement : Sql.Query}
    (h : LineageCovers snapshot model query compiled statement)
    {canAssumeOwner : Lex (String × String) → Option Bool}
    (hverified : verifyRelationOwnership canAssumeOwner snapshot compiled = .ok ()) :
    ∀ binding ∈ statement.body.tables.bindings,
      canAssumeOwner (relationKey binding.2) = some false := by
  obtain ⟨relations, hrelations, hmem⟩ := h.checked
  intro binding hb
  exact verifyRelationOwnership_ok hrelations hverified _ (hmem binding hb)

section Resolved
variable {models : List Model} {model : Model} {query : LogicalSemanticQuery}
  {validated : ValidatedQuery} (h : QueryResolved models model query validated)
include h

theorem QueryResolved.bindings_eq : validated.tables.bindings = expectedBindings model query := by
  have hjoins : (validated.relationships.zipIdx.map lowerJoin).map
      (fun join => (join.slot, join.target)) =
      (validated.relationships.map Prod.snd).zipIdx.map
        fun entry => (entry.2 + 1, entry.1.target) := by
    rw [List.zipIdx_map, List.map_map, List.map_map]
    rfl
  simp only [ValidatedQuery.tables, lowerTables, Sql.Tables.bindings, hjoins, h.relationships_eq,
    h.model_eq, expectedBindings]

omit h in
theorem expectedBindings_nodup (model : Model) (query : LogicalSemanticQuery) :
    ((expectedBindings model query).map Prod.fst).Nodup := by
  have hslots : ∀ (relationships : List Relationship) (start : Nat),
      ((relationships.zipIdx start).map fun entry => entry.2 + 1) =
        List.range' (start + 1) relationships.length := by
    intro relationships
    induction relationships with
    | nil => exact fun _ => rfl
    | cons relationship rest ih =>
      intro start
      rw [List.zipIdx_cons, List.map_cons, ih, List.length_cons, List.range'_succ]
  simp only [expectedBindings, List.map_cons, List.map_map, Function.comp_def, hslots,
    List.nodup_cons]
  refine ⟨?_, List.nodup_range'⟩
  simp

theorem QueryResolved.binding_of_field {field : Field} (hf : Covers validated.names field) :
    ∃ relation, (slotOf validated.names field, relation) ∈ validated.tables.bindings ∧
      model.fieldRelation field = some relation := by
  obtain ⟨relation, hsource, hlookup⟩ := fieldSource_covered h.covered.found hf
  refine ⟨relation, ?_, ?_⟩
  · obtain ⟨before, after, hsplit, -⟩ := List.lookup_eq_some_iff.mp hlookup
    rw [ValidatedQuery.tables, hsplit]
    exact List.mem_append_right before List.mem_cons_self
  · rw [h.model_eq] at hsource
    unfold fieldSource at hsource
    unfold Model.fieldRelation
    cases hr : field.relationship with
    | none =>
      simp only [hr, Except.ok.injEq, Prod.mk.injEq] at hsource
      rw [hsource.2]
    | some name =>
      simp only [hr, bind_eq_ok, orError_eq_ok, pure_eq_ok, Prod.mk.injEq] at hsource
      obtain ⟨relationship, hfound, _, -, -, rfl⟩ := hsource
      simp [Model.findRelationship, hfound]

theorem QueryResolved.bound_field {field : Field} (hcover : Covers validated.names field)
    (hmem : field ∈ requiredFields model query ++ anchorFieldsOf model query) :
    ∃ relation, (slotOf validated.names field, relation) ∈ validated.tables.bindings ∧
      (relation, field.column) ∈ ownedColumns model query := by
  obtain ⟨relation, hbinding, hrelation⟩ := h.binding_of_field hcover
  refine ⟨relation, hbinding, ?_⟩
  rw [ownedColumns, List.mem_append, List.mem_filterMap]
  exact Or.inl ⟨field, hmem, by rw [hrelation, Option.map_some]⟩

theorem QueryResolved.bound_join {join : Sql.Join} (hj : join ∈ validated.tables.joins) :
    ∀ reference ∈ join.refs, ∃ relation,
      (reference.slot, relation) ∈ validated.tables.bindings ∧
        (relation, reference.column) ∈ ownedColumns model query := by
  have hslot : (join.slot, join.target) ∈ validated.tables.bindings := by
    rw [Sql.Tables.bindings]
    exact List.mem_cons_of_mem _ (List.mem_map_of_mem hj)
  obtain ⟨⟨entry, index⟩, he, rfl⟩ := List.mem_map.mp hj
  have hentry : entry ∈ validated.relationships :=
    List.mem_of_getElem? (List.mk_mem_zipIdx_iff_getElem?.mp he)
  have hrequired : entry.2 ∈ requiredRelationships model query :=
    h.mem_relationships.mp (List.mem_map_of_mem hentry)
  have howned : (model.source, entry.2.fromColumn) ∈ ownedColumns model query ∧
      (entry.2.target, entry.2.toColumn) ∈ ownedColumns model query := by
    constructor
    · exact List.mem_append_right _ (List.mem_flatMap.mpr ⟨entry.2, hrequired, by simp⟩)
    · exact List.mem_append_right _ (List.mem_flatMap.mpr ⟨entry.2, hrequired, by simp⟩)
  intro reference hr
  simp only [Sql.Join.refs, List.mem_cons, List.not_mem_nil, or_false] at hr
  rcases hr with rfl | rfl
  · refine ⟨model.source, ?_, howned.1⟩
    rw [h.bindings_eq]
    exact List.mem_cons_self
  · exact ⟨entry.2.target, hslot, howned.2⟩

/-- Every column reference of the statement is bound to the relation its column belongs to. -/
theorem QueryResolved.bound {statement : Sql.Query} (hlower : validated.lower = .ok statement) :
    ∀ reference ∈ statement.refs, ∃ relation,
      (reference.slot, relation) ∈ validated.tables.bindings ∧
        (relation, reference.column) ∈ ownedColumns model query := by
  obtain ⟨hdims, hfilter, hmetrics, htables⟩ := lower_ok hlower
  have hanchor := (lower_anchor hlower).1
  have hfield : ∀ field ∈ validated.fields, ∀ reference ∈ (lowerField validated.names field).refs,
      ∃ relation, (reference.slot, relation) ∈ validated.tables.bindings ∧
        (relation, reference.column) ∈ ownedColumns model query := by
    intro field hf reference hr
    rw [lowerField_refs, List.mem_singleton] at hr
    subst hr
    exact h.bound_field (h.covered.fields field hf)
      (List.mem_append_left _ (by rw [← h.fields_eq]; exact hf))
  intro reference hr
  simp only [Sql.Query.refs, List.mem_append] at hr
  rcases hr with ((hr | hr) | hr) | hr
  · rw [lowerDimensions_refs hdims, List.mem_flatMap] at hr
    obtain ⟨dimension, hd, hr⟩ := hr
    refine hfield dimension.field ?_ reference hr
    simp only [ValidatedQuery.fields, List.mem_append, List.mem_map]
    exact Or.inl (Or.inl ⟨dimension, hd, rfl⟩)
  · cases ha : validated.aggregationAnchor with
    | none => simp [hanchor, ha] at hr
    | some anchor =>
      obtain ⟨hmem, hdirect, -⟩ := h.anchor_field ha
      simp only [hanchor, ha, Option.map_some, lowerField_refs, List.mem_singleton] at hr
      subst hr
      refine h.bound_field ?_ (List.mem_append_right _ hmem)
      intro name hname
      rw [hdirect] at hname
      cases hname
  · rw [hmetrics, ValidatedQuery.lowerMetrics, List.flatMap_map, List.mem_flatMap] at hr
    obtain ⟨metric, hm, hr⟩ := hr
    rw [lowerMetric_refs, List.mem_flatMap] at hr
    obtain ⟨field, hf, hr⟩ := hr
    refine hfield field ?_ reference hr
    simp only [ValidatedQuery.fields, List.mem_append, List.mem_flatMap]
    exact Or.inl (Or.inr ⟨metric, hm, hf⟩)
  · rw [Sql.Body.refs, List.mem_append, htables, lowerOptionalFilter_refs hfilter] at hr
    rcases hr with hr | hr
    · obtain ⟨join, hj, hr⟩ := List.mem_flatMap.mp hr
      exact h.bound_join hj reference hr
    · obtain ⟨field, hf, hr⟩ := List.mem_flatMap.mp hr
      exact hfield field (by simp [ValidatedQuery.fields, hf]) reference hr

end Resolved

/-- The model that the check looks up for a table of the statement has that table as its source. -/
theorem binding_source {snapshot : SemanticSnapshot} {query : LogicalSemanticQuery} {model : Model}
    {validated : ValidatedQuery} (hnodup : (snapshot.models.map Model.semanticName).Nodup)
    (hmodel : snapshot.findModel query = some model)
    (h : QueryResolved snapshot.models model query validated) {binding : Nat × Relation}
    (hb : binding ∈ validated.tables.bindings) :
    ∃ source, snapshot.models.find? (fun candidate =>
        candidate.semanticName == source.semanticName) = some source ∧
      source.semanticName ∈ lineageModels validated ∧ source.source = binding.2 := by
  rw [Sql.Tables.bindings, List.mem_cons] at hb
  rcases hb with rfl | hb
  · refine ⟨model, (Named.find?_eq_some_iff hnodup).mpr
      ⟨List.mem_of_find?_eq_some hmodel, rfl⟩, ?_, ?_⟩
    · rw [mem_lineageModels, h.model_eq]
      exact Or.inl rfl
    · rw [← h.model_eq]
      rfl
  · obtain ⟨join, hj, rfl⟩ := List.mem_map.mp hb
    obtain ⟨⟨entry, index⟩, he, rfl⟩ := List.mem_map.mp hj
    have hentry : entry ∈ validated.relationships :=
      List.mem_of_getElem? (List.mk_mem_zipIdx_iff_getElem?.mp he)
    obtain ⟨target, hfound, hsource⟩ := (h.relationships entry hentry).target
    have hname : target.semanticName = entry.2.targetModel := by
      simpa using List.find?_some hfound
    refine ⟨target, by rw [hname]; exact hfound, ?_, hsource⟩
    rw [mem_lineageModels]
    exact Or.inr ⟨entry, hentry, hname⟩

theorem lineageRelations_ok {snapshot : SemanticSnapshot} {model : Model}
    {query : LogicalSemanticQuery} {validated : ValidatedQuery} {compiled : CompiledQuery}
    (hmodel : snapshot.findModel query = some model)
    (h : QueryResolved snapshot.models model query validated)
    (hlineage : compiled.lineage.models = lineageModels validated) :
    ∃ relations, lineageRelations snapshot compiled = .ok relations ∧
      ∀ source, snapshot.models.find? (fun candidate =>
          candidate.semanticName == source.semanticName) = some source →
        source.semanticName ∈ compiled.lineage.models → relationKey source.source ∈ relations := by
  have hfind : ∀ name ∈ compiled.lineage.models, ∃ source,
      snapshot.models.find? (fun candidate => candidate.semanticName == name) = some source := by
    intro name hn
    rw [hlineage, mem_lineageModels, h.model_eq] at hn
    rcases hn with rfl | ⟨entry, he, rfl⟩
    · have hsome : (snapshot.models.find? fun candidate =>
          candidate.semanticName == model.semanticName).isSome := by
        rw [List.find?_isSome]
        exact ⟨model, List.mem_of_find?_eq_some hmodel, by simp⟩
      exact Option.isSome_iff_exists.mp hsome
    · obtain ⟨target, hfound, -⟩ := (h.relationships entry he).target
      exact ⟨target, hfound⟩
  have hkeys : ∀ names : List String, (∀ name ∈ names, ∃ source,
      snapshot.models.find? (fun candidate => candidate.semanticName == name) = some source) →
      ∃ keys, (names.mapM fun name =>
        (orError (snapshot.models.find? fun candidate => candidate.semanticName == name)
          OwnershipError.sourceRelationNotFound).map fun source => relationKey source.source) =
          .ok keys ∧ ∀ source, snapshot.models.find? (fun candidate =>
            candidate.semanticName == source.semanticName) = some source →
          source.semanticName ∈ names → relationKey source.source ∈ keys := by
    intro names hall
    induction names with
    | nil => exact ⟨[], rfl, by simp⟩
    | cons name rest ih =>
      obtain ⟨source, hsource⟩ := hall name (by simp)
      obtain ⟨keys, hrest, hmem⟩ := ih fun other ho => hall other (by simp [ho])
      refine ⟨relationKey source.source :: keys, ?_, ?_⟩
      · rw [List.mapM_cons, hsource, hrest]
        rfl
      · intro other hother hn
        rcases List.mem_cons.mp hn with rfl | hn
        · rw [hother, Option.some.injEq] at hsource
          rw [hsource]
          exact List.mem_cons_self
        · exact List.mem_cons_of_mem _ (hmem other hother hn)
  obtain ⟨keys, hok, hmem⟩ := hkeys _ hfind
  refine ⟨OrderedSet.insertAll keys [], ?_, ?_⟩
  · rw [lineageRelations, hok]
    rfl
  · intro source hs hn
    rw [OrderedSet.mem_insertAll]
    exact Or.inl (hmem source hs hn)

theorem lineageCovers_lowered {snapshot : SemanticSnapshot} {model : Model}
    {query : LogicalSemanticQuery} {validated : ValidatedQuery} {compiled : CompiledQuery}
    {statement : Sql.Query} (hnodup : (snapshot.models.map Model.semanticName).Nodup)
    (hmodel : snapshot.findModel query = some model)
    (h : QueryResolved snapshot.models model query validated)
    (hlower : validated.lower = .ok statement)
    (hlineage : compiled.lineage = lineage validated (written statement).2.sourceColumns) :
    LineageCovers snapshot model query compiled statement := by
  obtain ⟨-, -, -, htables⟩ := lower_ok hlower
  have hmodels : compiled.lineage.models = lineageModels validated := by rw [hlineage]; rfl
  obtain ⟨relations, hok, hchecked⟩ := lineageRelations_ok hmodel h hmodels
  have hbinding := fun binding (hb : binding ∈ statement.body.tables.bindings) =>
    binding_source hnodup hmodel h (htables ▸ hb)
  refine ⟨?_, ⟨relations, hok, ?_⟩, ?_, ?_, ?_, ?_⟩
  · intro binding hb
    obtain ⟨source, hfound, hname, hsource⟩ := hbinding binding hb
    refine ⟨source, List.mem_of_find?_eq_some hfound, ?_, hsource⟩
    rw [hmodels]
    exact hname
  · intro binding hb
    obtain ⟨source, hfound, hname, hsource⟩ := hbinding binding hb
    rw [← hsource]
    exact hchecked source hfound (hmodels ▸ hname)
  · intro column
    rw [hlineage]
    simp [lineage, written]
  · rw [htables, h.bindings_eq]
    exact expectedBindings_nodup model query
  · rw [htables, h.bindings_eq]
  · rw [htables]
    exact h.bound hlower

theorem reindent_bindings (body : Sql.Body) :
    body.reindent.tables.bindings =
      body.tables.bindings.map fun binding => (binding.1, Sql.Relation.reindent binding.2) := by
  simp only [Sql.Body.reindent, Sql.Tables.bindings, List.map_cons, List.map_map]
  rfl

/-- When the aliases of the anchored path are bound to the relations of the snapshot, no relation
name has a line break. -/
theorem unbroken_of_bindings {models : List Model} {model : Model} {query : LogicalSemanticQuery}
    {validated : ValidatedQuery} (h : QueryResolved models model query validated)
    {body : Sql.Body} (htables : body.tables = validated.tables)
    (hemitted : body.reindent.tables.bindings = expectedBindings model query) :
    Unbroken (relationIdentifiers model query) := by
  have hself : ∀ binding ∈ expectedBindings model query,
      Sql.Relation.reindent binding.2 = binding.2 := by
    have hmap : (expectedBindings model query).map
        (fun binding => (binding.1, Sql.Relation.reindent binding.2)) =
        (expectedBindings model query).map id := by
      rw [← h.bindings_eq, ← htables, ← reindent_bindings, hemitted, ← h.bindings_eq, ← htables,
        List.map_id]
    intro binding hb
    exact congrArg Prod.snd (List.map_inj_left.mp hmap binding hb)
  have hclean : ∀ relation : Relation, Sql.Relation.reindent relation = relation →
      '\n' ∉ relation.schema.toList ∧ '\n' ∉ relation.relation.toList := by
    intro relation hr
    have hschema := congrArg Relation.schema hr
    have hname := congrArg Relation.relation hr
    exact ⟨(Text.replaceChar_eq_self_iff (by decide)).mp hschema,
      (Text.replaceChar_eq_self_iff (by decide)).mp hname⟩
  have hsource := hclean _ (hself (0, model.source) List.mem_cons_self)
  intro identifier hi
  simp only [relationIdentifiers, List.mem_append, List.mem_cons, List.not_mem_nil, or_false,
    List.mem_flatMap] at hi
  rcases hi with (rfl | rfl) | ⟨relationship, hr, hi⟩
  · exact hsource.1
  · exact hsource.2
  · obtain ⟨entry, he, rfl⟩ := List.mem_map.mp (h.mem_relationships.mpr hr)
    obtain ⟨index, hindex⟩ := List.mem_iff_getElem?.mp he
    have hjoin : lowerJoin (entry, index) ∈ validated.tables.joins :=
      List.mem_map_of_mem (List.mk_mem_zipIdx_iff_getElem?.mpr hindex)
    have hbinding : (index + 1, entry.2.target) ∈ expectedBindings model query := by
      rw [← h.bindings_eq, Sql.Tables.bindings]
      refine List.mem_cons_of_mem _ (List.mem_map.mpr ⟨_, hjoin, rfl⟩)
    have htarget := hclean _ (hself _ hbinding)
    rcases hi with rfl | rfl
    · exact htarget.1
    · exact htarget.2

theorem render_error {backend : CompilerBackend} {normalized : NormalizedLsq}
    {snapshot : SemanticSnapshot} {validated : ValidatedQuery} (hcovered : validated.Covered)
    {error : CompileError} (h : render backend normalized snapshot validated = .error error) :
    IsMissingTimezone error ∨ error = .hashSerialization := by
  rw [render, renderSql_eq hcovered] at h
  cases hlower : validated.lower with
  | error e =>
    rw [hlower] at h
    cases h
    exact Or.inl (lower_error hlower)
  | ok query =>
    rw [hlower, map_ok, ok_bind, bind_eq_error] at h
    rcases h with h | ⟨json, -, h⟩
    · refine Or.inr ?_
      generalize backend.parametersJson _ = json at h
      cases json with
      | none => exact (Except.error.inj h).symm
      | some text => cases h
    · cases h

end Postgresem
