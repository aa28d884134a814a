import Postgresem.Compiler.Emission

/-! The renderer on whole statements, flat and anchored. -/
namespace Postgresem
open Control Template

structure ValidatedQuery.Covered (validated : ValidatedQuery) : Prop where
  found : ∀ entry ∈ validated.relationships, validated.model.relationships.find?
    (fun relationship => relationship.semanticName == entry.1) = some entry.2
  nodup : validated.names.Nodup
  fields : ∀ field ∈ validated.fields, Covers validated.names field
  anchor : ∀ field, validated.aggregationAnchor = some field → field.relationship = none

theorem QueryResolved.covered {models : List Model} {model : Model}
    {query : LogicalSemanticQuery} {validated : ValidatedQuery}
    (h : QueryResolved models model query validated) : validated.Covered := by
  have hnames : validated.names = recordAll validated.fields [] := h.names
  refine ⟨?_, ?_, ?_, ?_⟩
  · intro entry he
    rw [h.model_eq]
    exact (h.relationships entry he).found
  · rw [hnames]
    exact (sorted_recordAll _ List.Pairwise.nil).nodup
  · intro field hf name hr
    rw [hnames, mem_recordAll]
    exact Or.inl ⟨field, hf, hr⟩
  · intro field ha
    exact (h.anchor_field ha).2.1

/-- An item of a select list with its alias. -/
def aliased (out : Output) (name : String) : Output := (out.1 ++ [.name " AS " name], out.2)

theorem Writes.aliased {action : RenderM String} {output : Except CompileError Output}
    (h : Writes action output) (name : String) :
    Writes (action >>= fun expression => pure (expression ++ " AS " ++ quoteIdentifier name))
      (output.map fun out => Postgresem.aliased out name) := by
  intro pool columns
  rw [run_bind, h pool columns, map_bind, map_map']
  cases output with
  | error e => rfl
  | ok out =>
    simp only [ok_bind, run_pure, map_ok, Postgresem.aliased, assemble_append, assemble_name,
      assemble_nil, quoted_eq_quoteIdentifier, String.append_assoc, String.append_empty]

theorem mapM_zipIdx {ε α β γ : Type} (f : α → Except ε β) (g : Nat → β → γ) (xs : List α)
    (start : Nat) :
    (xs.zipIdx start).mapM (fun entry => (f entry.1).map (g entry.2)) =
      (xs.mapM f).map fun ys => (ys.zipIdx start).map fun entry => g entry.2 entry.1 := by
  induction xs generalizing start with
  | nil => rfl
  | cons x xs ih =>
    rw [List.zipIdx_cons, List.mapM_cons, List.mapM_cons, ih]
    cases f x with
    | error e => rfl
    | ok y => cases xs.mapM f <;> rfl

theorem mapM_ok {ε α β : Type} (f : α → β) (xs : List α) :
    (xs.mapM fun x => (.ok (f x) : Except ε β)) = .ok (xs.map f) :=
  List.mapM_pure

/-! ## `FROM`, joins and `WHERE` -/

theorem aliases_lookup {relationships : List (String × Relationship)}
    (hnodup : (relationships.map Prod.fst).Nodup) {entry : String × Relationship} {index : Nat}
    (h : (entry, index) ∈ relationships.zipIdx) :
    (relationshipAliases relationships).lookup entry.1 = some (Sql.slotName (index + 1)) := by
  rw [List.mk_mem_zipIdx_iff_getElem?] at h
  have hname : (relationships.map Prod.fst)[index]? = some entry.1 := by simp [h]
  obtain ⟨hlt, hget⟩ := List.getElem?_eq_some_iff.mp hname
  obtain ⟨-, -, -, hlookup, -⟩ := lookup_zipIdx
    (fun position (_ : Relationship) => "t" ++ toString (position + 1)) 0
    (List.mem_of_getElem? hname)
  have hidx : (relationships.map Prod.fst).idxOf entry.1 = index := by
    rw [← hget]
    exact hnodup.idxOf_getElem index hlt
  rw [Nat.zero_add, hidx] at hlookup
  exact hlookup

def joinOutput (tables : Sql.Tables) (join : Sql.Join) : Output :=
  (join.pieces "\n", tables.sourceColumns join.refs)

theorem renderJoin_writes {model : Model} {relationships : List (String × Relationship)}
    (hnodup : (relationships.map Prod.fst).Nodup) {entry : String × Relationship} {index : Nat}
    (h : (entry, index) ∈ relationships.zipIdx) :
    Writes (renderJoin model (relationshipAliases relationships) entry)
      (.ok (joinOutput (lowerTables model relationships) (lowerJoin (entry, index)))) := by
  intro pool columns
  have hsource : (lowerTables model relationships).bindings.lookup 0 = some model.source := by
    simp [Sql.Tables.bindings, lowerTables]
  have htarget : (lowerTables model relationships).bindings.lookup (index + 1) =
      some entry.2.target := by
    rw [bindings_lookup_succ, List.mk_mem_zipIdx_iff_getElem?.mp h]
    rfl
  simp only [renderJoin, run_bind, run_lift, aliases_lookup hnodup h, orError_some, map_ok,
    ok_bind, run_insertSourceColumn, run_pure, joinOutput, lowerJoin, Sql.Join.pieces,
    Sql.Join.refs, Sql.Tables.sourceColumns, List.filterMap_cons, hsource, htarget,
    Option.map_some, List.filterMap_nil, OrderedSet.insertAll_cons, OrderedSet.insertAll_nil,
    assemble_name, assemble_raw, assemble_nil, quoted_eq_quoteIdentifier, String.append_assoc,
    String.append_empty]

theorem renderJoins_write {model : Model} {relationships : List (String × Relationship)}
    (hnodup : (relationships.map Prod.fst).Nodup) :
    WritesEach (relationships.mapM (renderJoin model (relationshipAliases relationships)))
      (.ok ((lowerTables model relationships).joins.map
        (joinOutput (lowerTables model relationships)))) := by
  have hzip : relationships.mapM (renderJoin model (relationshipAliases relationships)) =
      relationships.zipIdx.mapM
        fun entry => renderJoin model (relationshipAliases relationships) entry.1 := by
    have hfst : relationships = relationships.zipIdx.map Prod.fst := by simp
    conv_lhs => rw [hfst]
    rw [List.mapM_map]
    simp only [← hfst, Function.comp_def]
  have hok : (relationships.zipIdx.mapM fun entry => (.ok (joinOutput
      (lowerTables model relationships) (lowerJoin entry)) : Except CompileError Output)) =
      .ok ((lowerTables model relationships).joins.map
        (joinOutput (lowerTables model relationships))) := by
    rw [mapM_ok]
    simp [lowerTables, Function.comp_def]
  rw [hzip, ← hok]
  apply mapM_writes
  rintro ⟨entry, index⟩ he
  exact renderJoin_writes hnodup he

def filterOutput (tables : Sql.Tables) (filter : Option Sql.Predicate) : Output :=
  (Sql.wherePieces "\n" filter, tables.sourceColumns (Sql.optionRefs filter))

theorem renderWhere_writes {model : Model} {relationships : List (String × Relationship)}
    (hfound : ∀ entry ∈ relationships, model.relationships.find?
      (fun relationship => relationship.semanticName == entry.1) = some entry.2)
    (filter : Option ResolvedFilter)
    (hcover : ∀ field ∈ filterFields filter, Covers (relationships.map Prod.fst) field) :
    Writes (renderWhere model (relationshipAliases relationships) filter)
      ((lowerOptionalFilter model (relationships.map Prod.fst) filter).map
        (filterOutput (lowerTables model relationships))) := by
  intro pool columns
  cases filter with
  | none => rfl
  | some filter =>
    rw [renderWhere, lowerOptionalFilter, run_bind,
      renderFilter_writes hfound filter hcover pool columns, map_map', map_map', map_map', map_bind]
    cases lowerFilter model (relationships.map Prod.fst) filter with
    | error e => rfl
    | ok predicate =>
      have hwhere : "\n" ++ "WHERE " = "\nWHERE " := by decide
      simp only [ok_bind, run_pure, map_ok, predicateOutput, filterOutput, Sql.wherePieces,
        Sql.optionRefs, assemble_raw, hwhere]

def bodyOutput (body : Sql.Body) : Output :=
  (body.pieces "\n", body.tables.sourceColumns body.refs)

theorem joinOutputs (tables : Sql.Tables) (joins : List Sql.Join) :
    (joins.map (joinOutput tables)).map Prod.fst = joins.map (Sql.Join.pieces "\n") ∧
      (joins.map (joinOutput tables)).flatMap Prod.snd =
        tables.sourceColumns (joins.flatMap Sql.Join.refs) := by
  induction joins with
  | nil => exact ⟨rfl, rfl⟩
  | cons join rest ih =>
    refine ⟨?_, ?_⟩
    · simp only [List.map_cons, ih.1, joinOutput]
    · simp only [List.map_cons, List.flatMap_cons, ih.2, sourceColumns_append, joinOutput]

theorem renderFromJoinsAndFilter_writes {validated : ValidatedQuery} (h : validated.Covered) :
    Writes (renderFromJoinsAndFilter validated (relationshipAliases validated.relationships))
      ((lowerOptionalFilter validated.model validated.names validated.filter).map
        fun filter => bodyOutput { tables := validated.tables, filter := filter }) := by
  intro pool columns
  have hfilter : ∀ field ∈ filterFields validated.filter,
      Covers (validated.relationships.map Prod.fst) field := by
    intro field hf
    exact h.fields field (by simp [ValidatedQuery.fields, hf])
  have hjoins := @renderJoins_write validated.model _ h.nodup
  have hwhere := renderWhere_writes h.found validated.filter hfilter
  rw [renderFromJoinsAndFilter, run_bind, hjoins pool columns]
  simp only [map_ok, ok_bind, run_bind, hwhere _ _, map_map', map_bind]
  change _ = Except.map _ (lowerOptionalFilter validated.model
    (validated.relationships.map Prod.fst) validated.filter)
  cases lowerOptionalFilter validated.model (validated.relationships.map Prod.fst)
      validated.filter with
  | error e => rfl
  | ok filter =>
    simp only [ok_bind, run_pure, map_ok, bodyOutput, filterOutput, Sql.Body.pieces,
      Sql.Tables.pieces, Sql.Body.refs, sourceColumns_append, OrderedSet.insertAll_append,
      joinOutputs, ValidatedQuery.tables, List.cons_append, List.nil_append, assemble_name,
      assemble_raw, assemble_append, assemble_flatten, quoted_eq_quoteIdentifier,
      String.append_assoc]
    rfl

/-! ## Select lists -/

def aggregateOutput (tables : Sql.Tables) (aggregate : Sql.Aggregate) : Output :=
  (aggregate.pieces, tables.sourceColumns aggregate.refs)

def innerOutput (tables : Sql.Tables) (aggregate : Sql.Aggregate) : Output :=
  (aggregate.innerPieces, tables.sourceColumns aggregate.refs)

section Items
variable {validated : ValidatedQuery} (h : validated.Covered)
include h

theorem ValidatedQuery.Covered.dimension {dimension : ResolvedDimension}
    (hd : dimension ∈ validated.dimensions) : Covers validated.names dimension.field :=
  h.fields _ (by
    simp only [ValidatedQuery.fields, List.mem_append, List.mem_map]
    exact Or.inl (Or.inl ⟨dimension, hd, rfl⟩))

theorem ValidatedQuery.Covered.metric {metric : ResolvedMetric} (hm : metric ∈ validated.metrics) :
    CoversMetric validated.names metric := by
  intro field hf
  apply h.fields
  simp only [ValidatedQuery.fields, List.mem_append, List.mem_flatMap]
  exact Or.inl (Or.inr ⟨metric, hm, hf⟩)

theorem flatDimensions_write :
    WritesEach (validated.dimensions.mapM (renderFlatDimension validated.model
        (relationshipAliases validated.relationships)))
      (validated.lowerDimensions.map (List.map fun item =>
        aliased (scalarOutput validated.tables item.1) item.2)) := by
  rw [ValidatedQuery.lowerDimensions, ← mapM_map]
  apply mapM_writes
  intro dimension hd
  rw [map_map', renderFlatDimension]
  have hwrite := (renderDimension_writes h.found (h.dimension hd)).aliased
    dimension.field.semanticName
  rw [map_map'] at hwrite
  exact hwrite

theorem innerDimensions_write :
    WritesEach (validated.dimensions.zipIdx.mapM (renderInnerDimension validated.model
        (relationshipAliases validated.relationships)))
      (validated.lowerDimensions.map fun items => items.zipIdx.map fun item =>
        aliased (scalarOutput validated.tables item.1.1) ("__d" ++ toString item.2)) := by
  rw [ValidatedQuery.lowerDimensions, ← mapM_zipIdx _ fun index (item : Sql.Scalar × String) =>
    aliased (scalarOutput validated.tables item.1) ("__d" ++ toString index)]
  apply mapM_writes
  rintro ⟨dimension, index⟩ hd
  have hmem : dimension ∈ validated.dimensions :=
    List.mem_of_getElem? (List.mk_mem_zipIdx_iff_getElem?.mp hd)
  have hwrite := (renderDimension_writes h.found (h.dimension hmem)).aliased
    ("__d" ++ toString index)
  rw [map_map'] at hwrite
  rw [map_map', renderInnerDimension]
  exact hwrite

theorem flatMetrics_write :
    WritesEach (validated.metrics.mapM (renderFlatMetric validated.model
        (relationshipAliases validated.relationships)))
      (.ok (validated.lowerMetrics.map fun item =>
        aliased (aggregateOutput validated.tables item.1) item.2)) := by
  rw [ValidatedQuery.lowerMetrics, List.map_map, ← mapM_ok]
  apply mapM_writes
  intro metric hm
  exact (renderMetric_writes h.found (h.metric hm)).aliased metric.metric.semanticName

theorem innerMetrics_write :
    WritesEach (validated.metrics.zipIdx.mapM (renderInnerMetric validated.model
        (relationshipAliases validated.relationships)))
      (.ok (validated.lowerMetrics.zipIdx.map fun item =>
        aliased (innerOutput validated.tables item.1.1) ("__m" ++ toString item.2))) := by
  rw [ValidatedQuery.lowerMetrics, List.zipIdx_map, List.map_map, ← mapM_ok]
  apply mapM_writes
  rintro ⟨metric, index⟩ hm
  have hmem : metric ∈ validated.metrics :=
    List.mem_of_getElem? (List.mk_mem_zipIdx_iff_getElem?.mp hm)
  exact (renderAnchorMetricInput_writes h.found (h.metric hmem)).aliased
    ("__m" ++ toString index)

end Items

theorem aliasedOutputs {α : Type} (tables : Sql.Tables) (items : List α)
    (pieces : α → List (Piece Sql.Param)) (refs : α → List Sql.ColumnRef) (name : α → String) :
    (items.map fun item => aliased (pieces item, tables.sourceColumns (refs item))
        (name item)).map Prod.fst = items.map (fun item => pieces item ++ [.name " AS " (name item)]) ∧
      (items.map fun item => aliased (pieces item, tables.sourceColumns (refs item))
        (name item)).flatMap Prod.snd = tables.sourceColumns (items.flatMap refs) := by
  induction items with
  | nil => exact ⟨rfl, rfl⟩
  | cons item rest ih =>
    refine ⟨?_, ?_⟩
    · simp only [List.map_cons, ih.1]
      rfl
    · simp only [List.map_cons, List.flatMap_cons, ih.2, sourceColumns_append]
      rfl

theorem assemble_groupPieces (count : Nat) (pool : List Sql.Param) :
    assemble (Sql.groupPieces count) pool = (groupByClause count, pool) := by
  unfold Sql.groupPieces
  by_cases hc : count = 0
  · simp [hc, groupByClause]
  · simp [hc]

def statementOutput (pieces : Sql.Query → List (Piece Sql.Param)) (query : Sql.Query) : Output :=
  (pieces query, query.body.tables.sourceColumns query.refs)

theorem lowerDimensions_length {validated : ValidatedQuery}
    {items : List (Sql.Scalar × String)} (h : validated.lowerDimensions = .ok items) :
    items.length = validated.dimensions.length :=
  (mapM_eq_ok_iff.mp h).length_eq.symm

theorem renderFlatSql_writes {validated : ValidatedQuery} (h : validated.Covered)
    (hanchor : validated.aggregationAnchor = none) :
    Writes (renderFlatSql validated (relationshipAliases validated.relationships))
      (validated.lower.map (statementOutput Sql.Query.flatPieces)) := by
  intro pool columns
  rw [renderFlatSql, ValidatedQuery.lower, run_bind, flatDimensions_write h pool columns, map_map',
    map_bind, map_map']
  cases hdims : validated.lowerDimensions with
  | error e => rfl
  | ok items =>
    have hlength := lowerDimensions_length hdims
    have hmetrics := flatMetrics_write h
    have hfrom := renderFromJoinsAndFilter_writes h
    simp only [ok_bind, run_bind, hmetrics _ _, map_ok, hfrom _ _, map_map', map_bind]
    cases lowerOptionalFilter validated.model validated.names validated.filter with
    | error e => rfl
    | ok filter =>
      have hd := aliasedOutputs validated.tables items (fun item => item.1.pieces)
        (fun item => item.1.refs) Prod.snd
      have hm := aliasedOutputs validated.tables validated.lowerMetrics
        (fun item => item.1.pieces) (fun item => item.1.refs) Prod.snd
      simp only [scalarOutput, aggregateOutput, hd, hm, ok_bind, run_pure, map_ok, pure_ok,
        statementOutput, bodyOutput, Sql.Query.flatPieces, Sql.Query.flatItems, Sql.Query.refs,
        hanchor, Option.map_none, sourceColumns_append, sourceColumns_nil,
        OrderedSet.insertAll_append, OrderedSet.insertAll_nil, List.cons_append, assemble_raw,
        assemble_append, assemble_joinWith, assembleEach_append, assemble_groupPieces, hlength,
        String.append_assoc]

theorem assembleEach_singleton (template : List (Piece Sql.Param)) (pool : List Sql.Param) :
    assembleEach [template] pool = ([(assemble template pool).1], (assemble template pool).2) := rfl

theorem assembleEach_fixed {α : Type} {xs : List α} {template : α → List (Piece Sql.Param)}
    {text : α → String} {pool : List Sql.Param}
    (h : ∀ x ∈ xs, assemble (template x) pool = (text x, pool)) :
    assembleEach (xs.map template) pool = (xs.map text, pool) := by
  induction xs with
  | nil => rfl
  | cons x xs ih =>
    simp only [List.map_cons, assembleEach, h x (by simp), ih fun y hy => h y (by simp [hy])]

theorem lowerDimensions_names {validated : ValidatedQuery} {items : List (Sql.Scalar × String)}
    (h : validated.lowerDimensions = .ok items) :
    items.map Prod.snd =
      validated.dimensions.map fun dimension => dimension.field.semanticName := by
  unfold ValidatedQuery.lowerDimensions at h
  generalize validated.dimensions = dimensions at h
  have hf := mapM_eq_ok_iff.mp h
  clear h
  induction hf with
  | nil => rfl
  | cons hx _ ih =>
    obtain ⟨scalar, -, rfl⟩ := map_eq_ok.mp hx
    rw [List.map_cons, List.map_cons, ih]

theorem zipIdx_map_congr {α β γ δ : Type} {f : α → γ} {g : β → γ} {xs : List α} {ys : List β}
    (h : xs.map f = ys.map g) (combine : γ → Nat → δ) :
    (xs.zipIdx.map fun entry => combine (f entry.1) entry.2) =
      ys.zipIdx.map fun entry => combine (g entry.1) entry.2 := by
  have hzip := congrArg (fun zs => zs.zipIdx.map fun entry : γ × Nat => combine entry.1 entry.2) h
  simp only [List.zipIdx_map, List.map_map] at hzip
  exact hzip

/-- The outer select list has no parameters and depends on the output names only. -/
theorem outerItems_assemble {validated : ValidatedQuery} {query : Sql.Query}
    (hdims : validated.lowerDimensions = .ok query.dimensions)
    (hmetrics : query.metrics = validated.lowerMetrics) (pool : List Sql.Param) :
    assembleEach query.outerItems pool =
      (validated.dimensions.zipIdx.map outerDimension
        ++ validated.metrics.zipIdx.map outerMetric, pool) := by
  have hd : query.dimensions.zipIdx.map (fun item => "a." ++ quoteIdentifier
        ("__d" ++ toString item.2) ++ " AS " ++ quoteIdentifier item.1.2) =
      validated.dimensions.zipIdx.map outerDimension :=
    zipIdx_map_congr (lowerDimensions_names hdims) fun name index =>
      "a." ++ quoteIdentifier ("__d" ++ toString index) ++ " AS " ++ quoteIdentifier name
  have hm : query.metrics.zipIdx.map (fun item => renderOuterMetric item.1.1.aggregation item.2
        ++ " AS " ++ quoteIdentifier item.1.2) =
      validated.metrics.zipIdx.map outerMetric := by
    rw [hmetrics, ValidatedQuery.lowerMetrics, List.zipIdx_map, List.map_map]
    rfl
  rw [Sql.Query.outerItems, assembleEach_append, ← hd, ← hm]
  have hfirst : assembleEach (query.dimensions.zipIdx.map fun item =>
      [.name "a." ("__d" ++ toString item.2), .name " AS " item.1.2]) pool =
      (query.dimensions.zipIdx.map (fun item => "a." ++ quoteIdentifier
        ("__d" ++ toString item.2) ++ " AS " ++ quoteIdentifier item.1.2), pool) := by
    apply assembleEach_fixed
    intro item _
    simp only [assemble_name, assemble_nil, quoted_eq_quoteIdentifier, String.append_assoc,
      String.append_empty]
  have hsecond : assembleEach (query.metrics.zipIdx.map fun item =>
      [.raw (Sql.aggregateOpen item.1.1.aggregation), .name "a." ("__m" ++ toString item.2),
        .raw ")", .name " AS " item.1.2]) pool =
      (query.metrics.zipIdx.map (fun item => renderOuterMetric item.1.1.aggregation item.2
        ++ " AS " ++ quoteIdentifier item.1.2), pool) := by
    apply assembleEach_fixed
    intro item _
    simp only [renderOuterMetric, renderAggregate_eq, assemble_name, assemble_raw, assemble_nil,
      quoted_eq_quoteIdentifier, String.append_assoc, String.append_empty]
  rw [hfirst, hsecond]

theorem withClause : "WITH " ++ quoted "__postgresem_anchor_groups" ++ " AS (\n  SELECT " =
    "WITH \"__postgresem_anchor_groups\" AS (\n  SELECT " := by decide

theorem anchorAlias : " AS " ++ quoted "__anchor" = " AS \"__anchor\"" := by decide

theorem groupsFrom : "\nFROM " ++ quoted "__postgresem_anchor_groups" ++ " AS a" =
    "\nFROM \"__postgresem_anchor_groups\" AS a" := by decide

theorem zipIdx_flatMap {α β : Type} (f : α → List β) (xs : List α) :
    (xs.zipIdx.flatMap fun entry => f entry.1) = xs.flatMap f := by
  have hfst : xs.flatMap f = (xs.zipIdx.map Prod.fst).flatMap f := by simp
  rw [hfst, List.flatMap_map]

theorem renderAnchoredSql_writes {validated : ValidatedQuery} (h : validated.Covered)
    {anchor : Field} (hanchor : validated.aggregationAnchor = some anchor) :
    Writes (renderAnchoredSql validated anchor (relationshipAliases validated.relationships))
      (validated.lower.map fun query =>
        (query.emitted.anchoredPieces (lowerField validated.names anchor),
          query.body.tables.sourceColumns query.refs)) := by
  intro pool columns
  have hcover : Covers validated.names anchor := by
    intro name hname
    rw [h.anchor anchor hanchor] at hname
    cases hname
  rw [renderAnchoredSql, ValidatedQuery.lower, run_bind, innerDimensions_write h pool columns,
    map_map', map_bind, map_map']
  cases hdims : validated.lowerDimensions with
  | error e => rfl
  | ok items =>
    have hlength := lowerDimensions_length hdims
    have hfield := renderField_writes h.found hcover
    have hmetrics := innerMetrics_write h
    have hfrom := renderFromJoinsAndFilter_writes h
    simp only [ok_bind, run_bind, hfield _ _, hmetrics _ _, map_ok, hfrom _ _, map_map', map_bind]
    cases lowerOptionalFilter validated.model validated.names validated.filter with
    | error e => rfl
    | ok filter =>
      have hd := aliasedOutputs validated.tables items.zipIdx (fun item => item.1.1.pieces)
        (fun item => item.1.1.refs) (fun item => "__d" ++ toString item.2)
      have hm := aliasedOutputs validated.tables validated.lowerMetrics.zipIdx
        (fun item => item.1.1.innerPieces) (fun item => item.1.1.refs)
        (fun item => "__m" ++ toString item.2)
      rw [zipIdx_flatMap fun item : Sql.Scalar × String => item.1.refs] at hd
      rw [zipIdx_flatMap fun item : Sql.Aggregate × String => item.1.refs] at hm
      have houter : ∀ (body : Sql.Body) (pool : List Sql.Param),
          assembleEach (Sql.Query.outerItems
            { dimensions := items, metrics := validated.lowerMetrics,
              anchor := some (lowerField validated.names anchor), body := body,
              orderBy := validated.orderBy, limit := validated.limit }) pool =
          (validated.dimensions.zipIdx.map outerDimension
            ++ validated.metrics.zipIdx.map outerMetric, pool) :=
        fun _ pool => outerItems_assemble hdims rfl pool
      simp only [scalarOutput, innerOutput, hd, hm, ok_bind, run_pure, map_ok, pure_ok, bodyOutput,
        Sql.Query.emitted, Sql.Query.anchoredPieces, Sql.Query.innerItems, Sql.Query.refs,
        hanchor, Option.map_some, sourceColumns_append, OrderedSet.insertAll_append,
        List.cons_append, assemble_raw, assemble_name, assemble_nil, assemble_append,
        assemble_joinWith, assembleEach_append, assembleEach_singleton, assemble_groupPieces,
        hlength, houter, Sql.assemble_body_reindent, Sql.reindentText, ← withClause, ← anchorAlias,
        ← groupsFrom, String.append_assoc, String.append_empty]
      rfl

/-! ## The whole statement -/

theorem assemble_orderPieces (orderBy : List OrderBy) (pool : List Sql.Param) :
    assemble (Sql.orderPieces orderBy) pool = (orderByClause orderBy, pool) := by
  have hrest : ∀ rest : List OrderBy, assemble (rest.map (Sql.orderItem ", ")).flatten pool =
      (String.join (rest.map fun order => ", " ++ renderOrder order), pool) := by
    intro rest
    have hitems : assembleEach (rest.map (Sql.orderItem ", ")) pool =
        (rest.map fun order => ", " ++ renderOrder order, pool) := by
      apply assembleEach_fixed
      intro order _
      simp only [Sql.orderItem, renderOrder, assemble_name, assemble_raw, assemble_nil,
        quoted_eq_quoteIdentifier, String.append_assoc, String.append_empty]
    rw [assemble_flatten, hitems]
  have hjoin : ∀ (first : String) (rest : List String),
      ", ".intercalate (first :: rest) = first ++ String.join (rest.map fun text => ", " ++ text) := by
    intro first rest
    induction rest generalizing first with
    | nil => simp
    | cons next rest ih =>
      rw [String.intercalate_cons_cons, ih, List.map_cons, String.join_cons]
      simp only [String.append_assoc]
  cases orderBy with
  | nil => rfl
  | cons order rest =>
    simp only [Sql.orderPieces, Sql.orderItem, orderByClause, List.isEmpty_cons, List.map_cons,
      List.cons_append, List.nil_append, assemble_name, assemble_raw, hrest, hjoin,
      quoted_eq_quoteIdentifier, renderOrder, List.map_map, Function.comp_def,
      String.append_assoc]
    rfl

/-- The text of a compiled query is the emitted statement, its parameters the values in the
order of first use, and its source columns the ones that the statement refers to. -/
def written (query : Sql.Query) : String × RenderState :=
  ((assemble query.emitted.pieces []).1,
    { parameters := numberParameters (assemble query.emitted.pieces []).2
      sourceColumns :=
        OrderedSet.insertAll (query.body.tables.sourceColumns query.refs) [] })

theorem lower_anchor {validated : ValidatedQuery} {query : Sql.Query}
    (h : validated.lower = .ok query) :
    query.anchor = validated.aggregationAnchor.map (lowerField validated.names) ∧
      query.orderBy = validated.orderBy ∧ query.limit = validated.limit := by
  simp only [ValidatedQuery.lower, bind_eq_ok, pure_eq_ok] at h
  obtain ⟨_, -, _, -, rfl⟩ := h
  exact ⟨rfl, rfl, rfl⟩

theorem renderSelect_writes {validated : ValidatedQuery} (h : validated.Covered) :
    Writes (renderSelect validated (relationshipAliases validated.relationships))
      (validated.lower.map fun query =>
        (query.emitted.selectPieces, query.body.tables.sourceColumns query.refs)) := by
  intro pool columns
  cases hanchor : validated.aggregationAnchor with
  | none =>
    simp only [renderSelect, hanchor]
    rw [renderFlatSql_writes h hanchor pool columns]
    cases hlower : validated.lower with
    | error e => rfl
    | ok query =>
      have hnone := (lower_anchor hlower).1
      rw [hanchor, Option.map_none] at hnone
      simp only [map_ok, Sql.Query.emitted, Sql.Query.selectPieces, hnone, statementOutput]
  | some anchor =>
    simp only [renderSelect, hanchor]
    rw [renderAnchoredSql_writes h hanchor pool columns]
    cases hlower : validated.lower with
    | error e => rfl
    | ok query =>
      have hsome := (lower_anchor hlower).1
      rw [hanchor, Option.map_some] at hsome
      simp only [map_ok, Sql.Query.emitted, Sql.Query.selectPieces, hsome]

theorem renderSql_eq {validated : ValidatedQuery} (h : validated.Covered) :
    renderSql validated {} = validated.lower.map written := by
  have hstart : ({} : RenderState) = stateOf [] [] := rfl
  rw [renderSql, run_bind, hstart, renderSelect_writes h [] []]
  cases hlower : validated.lower with
  | error e => rfl
  | ok query =>
    obtain ⟨-, horder, hlimit⟩ := lower_anchor hlower
    have hemitted : query.emitted.orderBy = validated.orderBy ∧
        query.emitted.limit = validated.limit := by
      unfold Sql.Query.emitted
      split <;> exact ⟨horder, hlimit⟩
    have hraw : "\nLIMIT " ++ "$" = "\nLIMIT $" := by decide
    simp only [map_ok, ok_bind, appendOrderAndLimit, run_bind, run_pushParameterM, run_pure,
      written, Sql.Query.pieces, assemble_append, assemble_raw, assemble_hole, assemble_nil,
      assemble_orderPieces, hemitted, ← hraw, String.append_assoc, String.append_empty]
    rfl

theorem validate_covered {backend : HashBackend} {normalized : NormalizedLsq}
    {snapshot : SemanticSnapshot} {options : CompilerOptions} {validated : ValidatedQuery}
    (h : validate backend normalized snapshot options = .ok validated) : validated.Covered := by
  obtain ⟨model, -, hresolved⟩ := validate_ok h
  exact hresolved.covered

/-- A compilation validates, lowers, and writes the lowered statement. -/
theorem compileLsq_ok {backend : CompilerBackend} {normalized : NormalizedLsq}
    {snapshot : SemanticSnapshot} {options : CompilerOptions} {compiled : CompiledQuery}
    (h : compileLsq backend normalized snapshot options = .ok compiled) :
    ∃ validated query, validate backend.toHashBackend normalized snapshot options = .ok validated ∧
      validated.lower = .ok query ∧ compiled.sql = (written query).1 ∧
      compiled.parameters = (written query).2.parameters ∧
      compiled.lineage = lineage validated (written query).2.sourceColumns ∧
      compiled.sqlHash = backend.hash compiled.sql := by
  simp only [compileLsq, render, bind_eq_ok, pure_eq_ok, orError_eq_ok, Prod.exists] at h
  obtain ⟨validated, hvalid, sql, state, hsql, json, -, rfl⟩ := h
  rw [renderSql_eq (validate_covered hvalid), map_eq_ok] at hsql
  obtain ⟨query, hlower, hwritten⟩ := hsql
  refine ⟨validated, query, hvalid, hlower, ?_, ?_, ?_, rfl⟩ <;> rw [hwritten]

theorem compileLsq_outputSchema {backend : CompilerBackend} {normalized : NormalizedLsq}
    {snapshot : SemanticSnapshot} {options : CompilerOptions} {compiled : CompiledQuery}
    {validated : ValidatedQuery}
    (hvalid : validate backend.toHashBackend normalized snapshot options = .ok validated)
    (h : compileLsq backend normalized snapshot options = .ok compiled) :
    compiled.outputSchema = outputSchema validated := by
  rw [compileLsq, hvalid, ok_bind] at h
  simp only [render, bind_eq_ok, pure_eq_ok] at h
  obtain ⟨_, -, _, -, rfl⟩ := h
  rfl

/-- Once the query is validated and lowered, only the parameter serializer can still fail. -/
theorem compileLsq_of_lower {backend : CompilerBackend} {normalized : NormalizedLsq}
    {snapshot : SemanticSnapshot} {options : CompilerOptions} {validated : ValidatedQuery}
    {query : Sql.Query} {json : String}
    (hvalid : validate backend.toHashBackend normalized snapshot options = .ok validated)
    (hlower : validated.lower = .ok query)
    (hjson : backend.parametersJson (written query).2.parameters = some json) :
    ∃ compiled, compileLsq backend normalized snapshot options = .ok compiled ∧
      compiled.sql = (written query).1 := by
  have hsql : renderSql validated {} = .ok (written query) := by
    rw [renderSql_eq (validate_covered hvalid), hlower]
    rfl
  simp only [compileLsq, render, hvalid, ok_bind, hsql, hjson, orError_some, pure_ok]
  exact ⟨_, rfl, rfl⟩

theorem compileLsq_standard {normalized : NormalizedLsq} {snapshot : SemanticSnapshot}
    {options : CompilerOptions} {query : Sql.Query}
    (hsnapshot : checkSnapshot standardHash snapshot = .ok ())
    (hlower : (validateAgainst normalized snapshot options >>= ValidatedQuery.lower) = .ok query) :
    ∃ compiled, compileLsq standardBackend normalized snapshot options = .ok compiled ∧
      compiled.sql = (written query).1 := by
  obtain ⟨validated, hagainst, hlowered⟩ := bind_eq_ok.mp hlower
  have hvalid : validate standardBackend.toHashBackend normalized snapshot options =
      .ok validated := by
    rw [← hagainst]
    exact validate_of_checkSnapshot hsnapshot normalized options
  exact compileLsq_of_lower hvalid hlowered rfl

end Postgresem
