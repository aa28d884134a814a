import Postgresem.Compiler.Statement
import Postgresem.Query.Normalize
import Postgresem.Semantic.Evaluation

/-! Identifiers in the emitted text. Quoting survives every path but one: the re-indentation of
the anchored path rewrites the line breaks inside quoted identifiers. -/
namespace Postgresem
open Control Template Lexing

/-! ## Where the identifiers of a statement come from -/

def joinStrings (join : Sql.Join) : Relation × String × String :=
  (join.target, join.fromColumn, join.toColumn)

def relationshipStrings (relationship : Relationship) : Relation × String × String :=
  (relationship.target, relationship.fromColumn, relationship.toColumn)

/-- The strings of a statement, position by position, are those of the two documents. -/
structure Intends (model : Model) (query : LogicalSemanticQuery) (statement : Sql.Query) : Prop where
  outputs : statement.dimensions.map Prod.snd ++ statement.metrics.map Prod.snd = query.references
  orderBy : statement.orderBy = query.orderBy
  dimensions : (statement.dimensions.flatMap fun item => item.1.refs).map Sql.ColumnRef.column =
    (dimensionFieldsOf model query).map Field.column
  metrics : (statement.metrics.flatMap fun item => item.1.refs).map Sql.ColumnRef.column =
    (metricFieldsOf model query).map Field.column
  anchor : ∀ scalar, statement.anchor = some scalar →
    ∃ field ∈ anchorFieldsOf model query, scalar = .column ⟨0, field.column⟩
  source : statement.body.tables.source = model.source
  joins : ∀ strings, strings ∈ statement.body.tables.joins.map joinStrings ↔
    strings ∈ (requiredRelationships model query).map relationshipStrings
  filter : (Sql.optionRefs statement.body.filter).map Sql.ColumnRef.column =
    (filterFieldsOf model query).map Field.column

theorem lower_ok {validated : ValidatedQuery} {statement : Sql.Query}
    (h : validated.lower = .ok statement) :
    validated.lowerDimensions = .ok statement.dimensions ∧
      lowerOptionalFilter validated.model validated.names validated.filter =
        .ok statement.body.filter ∧
      statement.metrics = validated.lowerMetrics ∧
      statement.body.tables = validated.tables := by
  simp only [ValidatedQuery.lower, bind_eq_ok, pure_eq_ok] at h
  obtain ⟨items, hitems, filter, hfilter, rfl⟩ := h
  exact ⟨hitems, hfilter, rfl, rfl⟩

theorem lowerDimensions_refs {validated : ValidatedQuery} {items : List (Sql.Scalar × String)}
    (h : validated.lowerDimensions = .ok items) :
    (items.flatMap fun item => item.1.refs) = validated.dimensions.flatMap
      fun dimension => (lowerField validated.names dimension.field).refs := by
  unfold ValidatedQuery.lowerDimensions at h
  generalize validated.dimensions = dimensions at h
  have hf := mapM_eq_ok_iff.mp h
  clear h
  induction hf with
  | nil => rfl
  | cons hx _ ih =>
    obtain ⟨scalar, hs, rfl⟩ := map_eq_ok.mp hx
    rw [List.flatMap_cons, List.flatMap_cons, ih, lowerDimension_refs hs]

theorem lowerMetric_refs (names : List String) (metric : ResolvedMetric) :
    (lowerMetric names metric).refs =
      metric.fields.flatMap fun field => (lowerField names field).refs := by
  cases hf : metric.filter with
  | none => simp [lowerMetric, Sql.Aggregate.refs, ResolvedMetric.fields, hf, Sql.optionRefs]
  | some entry =>
    simp [lowerMetric, Sql.Aggregate.refs, ResolvedMetric.fields, hf, Sql.optionRefs,
      lowerCondition_refs]

theorem columns_of_fields (names : List String) (fields : List Field) :
    (fields.flatMap fun field => (lowerField names field).refs).map Sql.ColumnRef.column =
      fields.map Field.column := by
  simp only [lowerField_refs, List.map_flatMap, List.map_cons, List.map_nil]
  induction fields with
  | nil => rfl
  | cons field fields ih => simpa using ih

theorem tables_joinStrings (validated : ValidatedQuery) :
    validated.tables.joins.map joinStrings =
      (validated.relationships.map Prod.snd).map relationshipStrings := by
  have hfst : validated.relationships = validated.relationships.zipIdx.map Prod.fst := by simp
  conv_rhs => rw [hfst]
  simp only [ValidatedQuery.tables, lowerTables, List.map_map]
  rfl

theorem lower_intends {models : List Model} {model : Model} {query : LogicalSemanticQuery}
    {validated : ValidatedQuery} {statement : Sql.Query}
    (h : QueryResolved models model query validated) (hlower : validated.lower = .ok statement) :
    Intends model query statement := by
  obtain ⟨hdims, hfilter, hmetrics, htables⟩ := lower_ok hlower
  obtain ⟨hanchor, horder, -⟩ := lower_anchor hlower
  refine ⟨?_, horder.trans h.orderBy, ?_, ?_, ?_, ?_, ?_, ?_⟩
  · have hnames : validated.lowerMetrics.map Prod.snd =
        validated.metrics.map fun metric => metric.metric.semanticName := by
      simp [ValidatedQuery.lowerMetrics, Function.comp_def]
    rw [lowerDimensions_names hdims, hmetrics, hnames]
    exact h.outputs_eq
  · have hfields : (validated.dimensions.flatMap fun dimension =>
        (lowerField validated.names dimension.field).refs) =
        (validated.dimensions.map ResolvedDimension.field).flatMap
          fun field => (lowerField validated.names field).refs := by
      rw [List.flatMap_map]
    rw [lowerDimensions_refs hdims, hfields, columns_of_fields, dimensions_eq h.dimensions]
    rfl
  · have hfields : (validated.lowerMetrics.flatMap fun item => item.1.refs) =
        (validated.metrics.flatMap ResolvedMetric.fields).flatMap
          fun field => (lowerField validated.names field).refs := by
      rw [ValidatedQuery.lowerMetrics, List.flatMap_map, List.flatMap_assoc]
      exact List.flatMap_congr fun metric _ => lowerMetric_refs validated.names metric
    rw [hmetrics, hfields, columns_of_fields, metrics_eq h.metrics]
    rfl
  · intro scalar hscalar
    rw [hanchor, Option.map_eq_some_iff] at hscalar
    obtain ⟨field, hfield, rfl⟩ := hscalar
    obtain ⟨hmem, hdirect, -⟩ := h.anchor_field hfield
    refine ⟨field, hmem, ?_⟩
    simp [lowerField, slotOf, hdirect]
  · rw [htables, ← h.model_eq]
    rfl
  · intro strings
    rw [htables, tables_joinStrings, List.mem_map, List.mem_map]
    simp only [h.mem_relationships]
  · rw [lowerOptionalFilter_refs hfilter, columns_of_fields, h.filter_eq]

theorem Intends.mem_identifiers {model : Model} {query : LogicalSemanticQuery}
    {statement : Sql.Query} (h : Intends model query statement) {identifier : String} :
    identifier ∈ statement.body.identifiers ↔ identifier ∈ bodyIdentifiers model query := by
  have hjoins : (∃ join ∈ statement.body.tables.joins, identifier = join.target.schema ∨
      identifier = join.target.relation ∨ identifier = join.fromColumn ∨
      identifier = join.toColumn) ↔
      ∃ relationship ∈ requiredRelationships model query,
        identifier = relationship.target.schema ∨ identifier = relationship.target.relation ∨
        identifier = relationship.fromColumn ∨ identifier = relationship.toColumn := by
    constructor
    · rintro ⟨join, hj, hi⟩
      obtain ⟨relationship, hr, he⟩ := List.mem_map.mp
        ((h.joins _).mp (List.mem_map_of_mem hj))
      simp only [relationshipStrings, joinStrings, Prod.mk.injEq] at he
      exact ⟨relationship, hr, by rw [he.1, he.2.1, he.2.2]; exact hi⟩
    · rintro ⟨relationship, hr, hi⟩
      obtain ⟨join, hj, he⟩ := List.mem_map.mp ((h.joins _).mpr (List.mem_map_of_mem hr))
      simp only [relationshipStrings, joinStrings, Prod.mk.injEq] at he
      exact ⟨join, hj, by rw [he.1, he.2.1, he.2.2]; exact hi⟩
  simp only [Sql.Body.identifiers, bodyIdentifiers, relationIdentifiers, h.source, h.filter,
    List.mem_append, List.mem_flatMap, List.mem_cons, List.not_mem_nil, or_false, hjoins]
  constructor
  · rintro ((hs | ⟨relationship, hr, hi⟩) | hf)
    · exact Or.inl (Or.inl (Or.inl hs))
    · rcases hi with hi | hi | hi
      · exact Or.inl (Or.inl (Or.inr ⟨relationship, hr, Or.inl hi⟩))
      · exact Or.inl (Or.inl (Or.inr ⟨relationship, hr, Or.inr hi⟩))
      · exact Or.inl (Or.inr ⟨relationship, hr, hi⟩)
    · exact Or.inr hf
  · rintro (((hs | ⟨relationship, hr, hi⟩) | ⟨relationship, hr, hi⟩) | hf)
    · exact Or.inl (Or.inl hs)
    · refine Or.inl (Or.inr ⟨relationship, hr, ?_⟩)
      rcases hi with hi | hi
      · exact Or.inl hi
      · exact Or.inr (Or.inl hi)
    · exact Or.inl (Or.inr ⟨relationship, hr, Or.inr (Or.inr hi)⟩)
    · exact Or.inr hf

/-! ## Reading the emitted text back -/

theorem lex_written (query : Sql.Query) :
    lex (written query).1 = some (lexemes query.emitted.pieces []) :=
  lex_assemble query.emitted.clean []

theorem emitted_eq_self {query : Sql.Query}
    (h : query.anchor = none ∨ Unbroken query.body.identifiers) : query.emitted = query := by
  unfold Sql.Query.emitted
  split
  next anchor ha =>
    have hbody := h.resolve_left (by rw [ha]; simp)
    rw [Sql.Body.reindent_eq_self hbody]
  next => rfl

theorem names_anchored {query : Sql.Query} {anchor : Sql.Scalar} (ha : query.anchor = some anchor)
    (body : Sql.Body) :
    names ({ query with body := body } : Sql.Query).pieces =
      "__postgresem_anchor_groups" :: names (joinWith ", " (query.innerItems anchor))
        ++ body.identifiers ++ (names (joinWith ", " query.outerItems)
          ++ "__postgresem_anchor_groups" :: (names (Sql.groupPieces query.dimensions.length)
            ++ names (Sql.orderPieces query.orderBy))) := by
  simp only [Sql.Query.pieces, Sql.Query.selectPieces, ha, Sql.Query.anchoredPieces,
    names_append, names_name, names_raw, names_hole, names_nil, List.cons_append,
    List.append_assoc, List.append_nil, Sql.Body.names_pieces]
  rfl

theorem lexemes_emitted_iff (query : Sql.Query) :
    lexemes query.emitted.pieces [] = lexemes query.pieces [] ↔
      query.anchor = none ∨ Unbroken query.body.identifiers := by
  cases ha : query.anchor with
  | none =>
    simp [emitted_eq_self (Or.inl ha)]
  | some anchor =>
    have hemitted : query.emitted = { query with body := query.body.reindent } := by
      simp [Sql.Query.emitted, ha]
    simp only [reduceCtorEq, false_or]
    constructor
    · intro h
      have hnames := congrArg identifiers h
      rw [identifiers_lexemes, identifiers_lexemes, hemitted, names_anchored ha,
        names_anchored ha query.body] at hnames
      have hbody := List.append_cancel_left (List.append_cancel_right hnames)
      exact Sql.Body.reindent_eq_self_iff.mp hbody
    · intro h
      rw [hemitted, Sql.Body.reindent_eq_self h]

def ordersSnapshot (relation revisionHash : String) : SemanticSnapshot :=
  { schemaVersion := "2"
    revisionHash := revisionHash
    models :=
      [{ semanticName := "orders"
         source := ⟨"commerce", relation⟩
         fields :=
          [{ semanticName := "id", dataType := .integer, column := "id", entityKey := true },
           { semanticName := "sku", dataType := .text, column := "sku",
             relationship := some "items" }]
         metrics :=
          [{ semanticName := "orders", dataType := .integer, aggregation := .count, field := "id",
             additivity := some .additive, aggregationAnchor := some "id" }]
         relationships :=
          [{ semanticName := "items", targetModel := "items", target := ⟨"commerce", "items"⟩,
             cardinality := .oneToMany, joinType := .left, fromColumn := "id",
             toColumn := "order_id" }] },
       { semanticName := "items"
         source := ⟨"commerce", "items"⟩
         fields :=
          [{ semanticName := "id", dataType := .integer, column := "id", entityKey := true }]
         metrics := [] }] }

def lineBreakSnapshot : SemanticSnapshot :=
  ordersSnapshot "or\nders"
    "sha256:4c67bfab10d114ec4d67adc4e5acb1992073ef6e57ca3d10e95a7f27abaa283a"

theorem lineBreakSnapshot_checked : checkSnapshot standardHash lineBreakSnapshot = .ok () := by
  apply checkSnapshot_of_published (by decide)
  apply published_of_codes
  decide +kernel

def orderTotal : NormalizedLsq :=
  LogicalSemanticQuery.normalize standardHash
    { model := "orders", metrics := [{ metric := "orders" }] } (by decide)

def ordersBySku : NormalizedLsq :=
  LogicalSemanticQuery.normalize standardHash
    { model := "orders", dimensions := [{ field := "sku" }], metrics := [{ metric := "orders" }] }
    (by decide)

end Postgresem
