import Postgresem.Compiler.Identifiers
import Postgresem.Compiler.Meaning

/-! The lowered statement against the meaning of the query: slots stand for relationship names,
and every expression of the statement has the value that the documents give it. -/
namespace Postgresem
open Control Relational Template Lexing

/-- A joined row with its tables under slots instead of names. -/
def slotted {V : Type} (row : JoinedRow V) : Sql.Joined V :=
  (0, row.root) :: row.targets.zipIdx.map fun entry => (entry.2 + 1, entry.1.2)

theorem slotted_extend {V : Type} (row : JoinedRow V) (name : String) (target : Sql.Row V) :
    slotted (row.extend name target) = slotted row ++ [(row.targets.length + 1, target)] := by
  simp [slotted, JoinedRow.extend, List.zipIdx_append]

theorem lookup_slot {V : Type} (targets : List (String × Sql.Row V)) (name : String) (start : Nat) :
    ((targets.zipIdx start).map fun entry => (entry.2 + 1, entry.1.2)).lookup
      (start + (targets.map Prod.fst).idxOf name + 1) = targets.lookup name := by
  induction targets generalizing start with
  | nil => rfl
  | cons target rest ih =>
    obtain ⟨key, value⟩ := target
    rw [List.zipIdx_cons, List.map_cons, List.map_cons, List.lookup_cons, List.lookup_cons]
    by_cases hname : key = name
    · subst hname
      simp
    · have hshift : start + ((rest.map Prod.fst).idxOf name + 1) + 1 =
          start + 1 + (rest.map Prod.fst).idxOf name + 1 := by omega
      have hne : (name == key) = false := beq_eq_false_iff_ne.mpr (Ne.symm hname)
      have hslot : (start + 1 + (rest.map Prod.fst).idxOf name + 1 == start + 1) = false := by
        rw [beq_eq_false_iff_ne]
        omega
      rw [List.idxOf_cons_ne _ hname, hshift, hslot, hne]
      exact ih (start + 1)

/-- A column reference finds the cell of its field, whatever the field is. -/
theorem cell_slotted {V : Type} {names : List String} {row : JoinedRow V}
    (h : row.targets.map Prod.fst = names) (field : Field) :
    (slotted row).cell ⟨slotOf names field, field.column⟩ = row.cell field := by
  unfold JoinedRow.cell slotOf
  cases hr : field.relationship with
  | none => rfl
  | some name =>
    have hslot : (names.idxOf name + 1 == 0) = false := rfl
    have hlookup := lookup_slot row.targets name 0
    rw [h, Nat.zero_add] at hlookup
    simp only [Sql.Joined.cell, slotted, List.lookup_cons, hslot, hlookup]

section Lowered
variable {V : Type} [DecidableEq V] (server : Sql.Server V)
variable {names : List String} {row : JoinedRow V} (hrow : row.targets.map Prod.fst = names)
include hrow

theorem eval_field (field : Field) :
    (lowerField names field).eval server (slotted row) = row.cell field :=
  cell_slotted hrow field

theorem eval_dimension {model : Model} {dimension : Dimension} {resolved : ResolvedDimension}
    (hresolved : DimensionResolved model dimension resolved) {scalar : Sql.Scalar}
    (h : lowerDimension model names resolved = .ok scalar) :
    scalar.eval server (slotted row) = dimensionCell server model row dimension := by
  unfold lowerDimension at h
  rw [dimensionCell, hresolved.found, Option.bind_some, ← hresolved.grain]
  cases hgrain : resolved.timeGrain with
  | none =>
    simp only [hgrain, Except.ok.injEq] at h
    subst h
    exact eval_field server hrow resolved.field
  | some grain =>
    simp only [hgrain] at h
    by_cases htype : resolved.field.dataType = .timestampTz
    · rw [if_pos htype] at h
      obtain ⟨zone, hzone, rfl⟩ := map_eq_ok.mp h
      rw [orError_eq_ok] at hzone
      simp only [htype, if_true, hzone, Option.bind_some, Sql.Scalar.eval,
        eval_field server hrow, Option.map_map]
      rfl
    · rw [if_neg htype, Except.ok.injEq] at h
      subst h
      simp only [htype, if_false, Sql.Scalar.eval, eval_field server hrow]

theorem eval_condition (filter : Field × Literal) :
    (lowerCondition names filter).eval server (slotted row) =
      equalsLiteral server row filter.1 filter.2 := by
  unfold lowerCondition equalsLiteral
  rw [Sql.Predicate.eval, eval_field server hrow, Sql.Scalar.eval]

theorem passes_condition {model : Model} {reference : MetricReference} {metric : ResolvedMetric}
    (hresolved : MetricResolved model reference metric) :
    Sql.passes server (lowerMetric names metric).condition (slotted row) =
      metric.metric.selects server model row := by
  have hfilter := hresolved.filter
  unfold lowerMetric Metric.selects
  generalize metric.metric.filter = filter at hfilter
  generalize metric.filter = entry at hfilter
  cases hfilter with
  | absent => rfl
  | present found _ =>
    simp only [Option.map_some, Sql.passes, eval_condition server hrow, found, Option.any_some]

omit hrow in
theorem eval_operand (model : Model) (joined : Sql.Joined V) {field : Field} {value : Literal}
    {scalar : Sql.Scalar} (h : lowerOperand model field value = .ok scalar) :
    scalar.eval server joined = comparedValue server model field value := by
  by_cases hdate : field.dataType = .timestampTz ∧ ∃ text, value = .date text
  · obtain ⟨htype, text, rfl⟩ := hdate
    simp only [lowerOperand, htype, map_eq_ok, orError_eq_ok] at h
    obtain ⟨zone, hzone, rfl⟩ := h
    simp only [comparedValue, htype, hzone, Option.map_some]
    rfl
  · have hother : ∀ text, field.dataType = .timestampTz → value = .date text → False :=
      fun text htype hvalue => hdate ⟨htype, text, hvalue⟩
    rw [lowerOperand, Except.ok.injEq] at h
    · subst h
      rw [comparedValue]
      · rfl
      · exact hother
    · exact hother

end Lowered

mutual

theorem eval_filter {V : Type} [DecidableEq V] (server : Sql.Server V) {names : List String}
    {row : JoinedRow V} (hrow : row.targets.map Prod.fst = names) (model : Model) :
    ∀ (filter : Filter) {resolved : ResolvedFilter}
    {predicate : Sql.Predicate}, filter.resolved model = some resolved →
    lowerFilter model names resolved = .ok predicate →
    predicate.eval server (slotted row) = filter.truth server model row
  | .and args, resolved, predicate, hr, hl => by
    rw [Filter.resolved, Option.map_eq_some_iff] at hr
    obtain ⟨resolvedArgs, hargs, rfl⟩ := hr
    rw [lowerFilter, map_eq_ok] at hl
    obtain ⟨lowered, hlowered, rfl⟩ := hl
    rw [Sql.Predicate.eval, Filter.truth, eval_filters server hrow model args hargs hlowered]
  | .or args, resolved, predicate, hr, hl => by
    rw [Filter.resolved, Option.map_eq_some_iff] at hr
    obtain ⟨resolvedArgs, hargs, rfl⟩ := hr
    rw [lowerFilter, map_eq_ok] at hl
    obtain ⟨lowered, hlowered, rfl⟩ := hl
    rw [Sql.Predicate.eval, Filter.truth, eval_filters server hrow model args hargs hlowered]
  | .not arg, resolved, predicate, hr, hl => by
    rw [Filter.resolved, Option.map_eq_some_iff] at hr
    obtain ⟨resolvedArg, harg, rfl⟩ := hr
    rw [lowerFilter, map_eq_ok] at hl
    obtain ⟨lowered, hlowered, rfl⟩ := hl
    rw [Sql.Predicate.eval, Filter.truth, eval_filter server hrow model arg harg hlowered]
  | .comparison operator name value, resolved, predicate, hr, hl => by
    rw [Filter.resolved, Option.map_eq_some_iff] at hr
    obtain ⟨field, hfield, rfl⟩ := hr
    rw [lowerFilter, map_eq_ok] at hl
    obtain ⟨operand, hoperand, rfl⟩ := hl
    rw [Sql.Predicate.eval, Filter.truth, hfield, Option.bind_some, eval_field server hrow,
      eval_operand server model _ hoperand]
  | .inList name values, resolved, predicate, hr, hl => by
    rw [Filter.resolved, Option.map_eq_some_iff] at hr
    obtain ⟨field, hfield, rfl⟩ := hr
    rw [lowerFilter, Except.ok.injEq] at hl
    subst hl
    rw [Sql.Predicate.eval, Filter.truth, hfield, Option.bind_some, eval_field server hrow,
      List.map_map]
    rfl
  | .isNull name, resolved, predicate, hr, hl => by
    rw [Filter.resolved, Option.map_eq_some_iff] at hr
    obtain ⟨field, hfield, rfl⟩ := hr
    rw [lowerFilter, Except.ok.injEq] at hl
    subst hl
    rw [Sql.Predicate.eval, Filter.truth, hfield, Option.map_some, eval_field server hrow]
  | .isNotNull name, resolved, predicate, hr, hl => by
    rw [Filter.resolved, Option.map_eq_some_iff] at hr
    obtain ⟨field, hfield, rfl⟩ := hr
    rw [lowerFilter, Except.ok.injEq] at hl
    subst hl
    rw [Sql.Predicate.eval, Filter.truth, hfield, Option.map_some, eval_field server hrow]

theorem eval_filters {V : Type} [DecidableEq V] (server : Sql.Server V) {names : List String}
    {row : JoinedRow V} (hrow : row.targets.map Prod.fst = names) (model : Model) :
    ∀ (filters : List Filter) {resolved : List ResolvedFilter} {predicates : List Sql.Predicate}, Filter.resolvedEach model filters = some resolved →
    lowerFilters model names resolved = .ok predicates →
    Sql.Predicate.evalEach server (slotted row) predicates =
      Filter.truthEach server model row filters
  | [], resolved, predicates, hr, hl => by
    rw [Filter.resolvedEach, Option.some.injEq] at hr
    subst hr
    rw [lowerFilters, Except.ok.injEq] at hl
    subst hl
    rfl
  | filter :: rest, resolved, predicates, hr, hl => by
    simp only [Filter.resolvedEach, Option.bind_eq_bind, Option.bind_eq_some_iff,
      Option.pure_def, Option.some.injEq] at hr
    obtain ⟨first, hfirst, others, hothers, rfl⟩ := hr
    simp only [lowerFilters, bind_eq_ok, pure_eq_ok] at hl
    obtain ⟨lowered, hlowered, lowereds, hlowereds, rfl⟩ := hl
    rw [Sql.Predicate.evalEach, Filter.truthEach, eval_filter server hrow model filter hfirst hlowered,
      eval_filters server hrow model rest hothers hlowereds]

end

theorem queryMetrics_eq {models : List Model} {model : Model} {query : LogicalSemanticQuery}
    {validated : ValidatedQuery} (h : QueryResolved models model query validated) :
    queryMetrics model query = validated.metrics.map ResolvedMetric.metric := by
  have hmetrics := h.metrics
  unfold queryMetrics
  generalize query.metrics = references at hmetrics
  generalize validated.metrics = resolved at hmetrics
  induction hmetrics with
  | nil => rfl
  | cons hx _ ih => rw [List.map_cons, List.filterMap_cons_some hx.found, List.map_cons, ih]

/-- Whatever holds of a resolved metric for the reference it stems from. -/
theorem QueryResolved.metric {models : List Model} {model : Model} {query : LogicalSemanticQuery}
    {validated : ValidatedQuery} (h : QueryResolved models model query validated)
    {metric : ResolvedMetric} (hm : metric ∈ validated.metrics) :
    ∃ reference ∈ query.metrics, MetricResolved model reference metric :=
  exists_left_of_forall₂ h.metrics hm

/-! ## Joins -/

section Joins
variable {V : Type} [DecidableEq V] (database : Sql.Database V)

theorem extend_slotted (entry : String × Relationship) (row : JoinedRow V) :
    (lowerJoin (entry, row.targets.length)).extend database (slotted row) =
      (entry.2.follow database row).map slotted := by
  rw [Relationship.follow, List.map_map]
  unfold Sql.Join.extend
  refine List.map_congr_left fun target _ => ?_
  rw [Function.comp_apply, slotted_extend]
  rfl

theorem follow_targets {relationship : Relationship} {row extended : JoinedRow V}
    (h : extended ∈ relationship.follow database row) :
    extended.targets.map Prod.fst = row.targets.map Prod.fst ++ [relationship.semanticName] := by
  obtain ⟨target, -, rfl⟩ := List.mem_map.mp h
  simp [JoinedRow.extend]

variable {models : List Model} {model : Model} {query : LogicalSemanticQuery}
  {validated : ValidatedQuery} (h : QueryResolved models model query validated)
include h

/-- The tables of the statement give the joined rows of the query, root row by root row. -/
theorem tables_denote :
    validated.tables.denote database =
      ((database.rows model.source).flatMap (joinedRows database model query)).map slotted ∧
    ∀ row ∈ (database.rows model.source).flatMap (joinedRows database model query),
      row.targets.map Prod.fst = validated.names := by
  let pairs := validated.relationships.zipIdx.map fun entry => (entry.1.2, lowerJoin entry)
  have hfst : pairs.map Prod.fst = usedRelationships model query := by
    have hzip := congrArg (List.map Prod.snd) (List.zipIdx_map_fst 0 validated.relationships)
    rw [usedRelationships, ← h.relationships_eq, ← hzip]
    simp only [pairs, List.map_map, Function.comp_def]
  have hsnd : pairs.map Prod.snd = validated.tables.joins := by
    simp only [pairs, List.map_map, Function.comp_def]
    rfl
  have hlinear : (usedRelationships model query).foldl
      (fun rows relationship => rows.flatMap (relationship.follow database))
      ((database.rows model.source).map JoinedRow.ofRoot) =
      (database.rows model.source).flatMap (joinedRows database model query) := by
    rw [foldl_flatMap_linear, List.flatMap_map]
    rfl
  have hstep : ∀ i relationship join (row : JoinedRow V),
      pairs[i]? = some (relationship, join) →
      row.targets.map Prod.fst = validated.names.take (0 + i) →
      join.extend database (slotted row) = (relationship.follow database row).map slotted ∧
        ∀ extended ∈ relationship.follow database row,
          extended.targets.map Prod.fst = validated.names.take (0 + i + 1) := by
    intro i relationship join row hi hgood
    simp only [pairs, List.getElem?_map, Option.map_eq_some_iff, Prod.mk.injEq,
      List.getElem?_zipIdx] at hi
    obtain ⟨_, ⟨entry, hentry, rfl⟩, rfl, rfl⟩ := hi
    have hname : validated.names[i]? = some entry.1 := by
      rw [ValidatedQuery.names, List.getElem?_map, hentry]
      rfl
    have hlength : row.targets.length = 0 + i := by
      have hl := congrArg List.length hgood
      have hbound := (List.getElem?_eq_some_iff.mp hname).1
      rw [List.length_map, List.length_take] at hl
      omega
    constructor
    · rw [← hlength]
      exact extend_slotted database entry row
    · intro extended he
      rw [follow_targets database he, hgood,
        (h.relationships entry (List.mem_of_getElem? hentry)).name, List.take_add_one, Nat.zero_add,
        hname]
      rfl
  have hroots : ∀ row ∈ (database.rows model.source).map (JoinedRow.ofRoot (V := V)),
      row.targets.map Prod.fst = validated.names.take 0 := by
    intro row hr
    obtain ⟨root, -, rfl⟩ := List.mem_map.mp hr
    rfl
  obtain ⟨hdenote, hnames⟩ := foldl_flatMap_map slotted
    (fun i row => row.targets.map Prod.fst = validated.names.take i) 0 pairs hstep
    ((database.rows model.source).map JoinedRow.ofRoot) hroots
  rw [hfst, hlinear] at hdenote hnames
  rw [hsnd] at hdenote
  constructor
  · rw [← hdenote, List.map_map, Sql.Tables.denote, ← h.model_eq]
    rfl
  · intro row hr
    have hall := hnames row hr
    rw [Nat.zero_add] at hall
    rw [hall, List.take_of_length_le]
    simp [pairs, ValidatedQuery.names]

variable (server : Sql.Server V) {statement : Sql.Query} (hlower : validated.lower = .ok statement)
include hlower

omit h in
theorem lowered_filter :
    lowerOptionalFilter validated.model validated.names validated.filter =
      .ok statement.body.filter := (lower_ok hlower).2.1

theorem passes_filter {row : JoinedRow V} (hrow : row.targets.map Prod.fst = validated.names) :
    Sql.passes server statement.body.filter (slotted row) = query.keeps server model row := by
  have hfilter := lowered_filter hlower
  obtain ⟨hresolved, hsome⟩ := h.filter
  unfold LogicalSemanticQuery.keeps
  cases hq : query.filters with
  | none =>
    rw [hq, Option.bind_none] at hresolved
    rw [← hresolved, lowerOptionalFilter, Except.ok.injEq] at hfilter
    rw [← hfilter]
    rfl
  | some filter =>
    rw [hq, Option.isSome_some, eq_comm, Option.isSome_iff_exists] at hsome
    obtain ⟨resolved, hvalidated⟩ := hsome
    rw [hq, Option.bind_some, hvalidated] at hresolved
    rw [hvalidated, lowerOptionalFilter, map_eq_ok] at hfilter
    obtain ⟨predicate, hpredicate, hbody⟩ := hfilter
    rw [h.model_eq] at hpredicate
    rw [← hbody]
    simp only [Sql.passes, eval_filter server hrow model filter hresolved hpredicate]

/-- The rows that the body of the statement selects from. -/
theorem body_denote :
    statement.body.denote server database =
      ((database.rows model.source).flatMap (keptRows server database model query)).map slotted ∧
    ∀ row ∈ (database.rows model.source).flatMap (keptRows server database model query),
      row.targets.map Prod.fst = validated.names := by
  obtain ⟨htables, hnames⟩ := tables_denote database h
  have hkept : (database.rows model.source).flatMap (keptRows server database model query) =
      ((database.rows model.source).flatMap (joinedRows database model query)).filter
        (query.keeps server model) := by
    rw [List.filter_flatMap]
    rfl
  constructor
  · rw [Sql.Body.denote, (lower_ok hlower).2.2.2, htables, List.filter_map, hkept]
    congr 1
    refine List.filter_congr fun row hr => ?_
    exact passes_filter h server hlower (hnames row hr)
  · intro row hr
    rw [hkept] at hr
    exact hnames row (List.mem_filter.mp hr).1

theorem key_slotted {row : JoinedRow V} (hrow : row.targets.map Prod.fst = validated.names) :
    statement.key server (slotted row) = query.group server model row := by
  have hdims := mapM_eq_ok_iff.mp (lower_ok hlower).1
  have hresolved := h.dimensions
  rw [h.model_eq] at hdims
  unfold Sql.Query.key LogicalSemanticQuery.group
  generalize validated.dimensions = dimensions at hdims hresolved
  generalize statement.dimensions = items at hdims
  generalize query.dimensions = inputs at hresolved
  induction hresolved generalizing items with
  | nil =>
    cases hdims
    rfl
  | cons hx _ ih =>
    cases hdims with
    | cons hitem hrest =>
      obtain ⟨scalar, hscalar, rfl⟩ := map_eq_ok.mp hitem
      rw [List.map_cons, List.map_cons, eval_dimension server hrow hx hscalar, ih _ hrest]

omit h hlower in
theorem eval_metric {reference : MetricReference} {metric : ResolvedMetric}
    (hresolved : MetricResolved model reference metric) {rows : List (JoinedRow V)}
    (hrows : ∀ row ∈ rows, row.targets.map Prod.fst = validated.names) :
    (lowerMetric validated.names metric).eval server (rows.map slotted) =
      metric.metric.over server model rows := by
  have hfilter : (rows.map slotted).filter
      (Sql.passes server (lowerMetric validated.names metric).condition) =
      (rows.filter (metric.metric.selects server model)).map slotted := by
    rw [List.filter_map]
    congr 1
    exact List.filter_congr fun row hr => passes_condition server (hrows row hr) hresolved
  unfold Sql.Aggregate.eval Metric.over
  rw [hfilter, List.map_map, hresolved.field_found]
  congr 1
  refine List.map_congr_left fun row hr => ?_
  exact eval_field server (hrows row (List.mem_filter.mp hr).1) metric.field

theorem eval_metrics {rows : List (JoinedRow V)}
    (hrows : ∀ row ∈ rows, row.targets.map Prod.fst = validated.names) :
    (statement.metrics.map fun item => item.1.eval server (rows.map slotted)) =
      metricCells server model query rows := by
  rw [(lower_ok hlower).2.2.1, ValidatedQuery.lowerMetrics, metricCells, queryMetrics_eq h,
    List.map_map, List.map_map]
  refine List.map_congr_left fun metric hm => ?_
  obtain ⟨reference, -, hresolved⟩ := h.metric hm
  exact eval_metric server hresolved hrows

omit [DecidableEq V] in
/-- The argument of a metric has the declared type of its field. -/
theorem metric_type (hconforms : Conforms database model query) {metric : ResolvedMetric}
    (hm : metric ∈ validated.metrics) :
    (lowerMetric validated.names metric).argument.type database statement.body.tables =
      some metric.field.dataType := by
  obtain ⟨reference, -, hresolved⟩ := h.metric hm
  have hrequired : metric.field ∈ requiredFields model query := by
    rw [← h.fields_eq]
    simp only [ValidatedQuery.fields, List.mem_append, List.mem_flatMap]
    exact Or.inl (Or.inr ⟨metric, hm, List.mem_cons_self⟩)
  have hsource : model.fieldRelation metric.field = some model.source := by
    rw [Model.fieldRelation, hresolved.direct]
  have htype := hconforms metric.field hrequired model.source hsource
  have hslot : slotOf validated.names metric.field = 0 := by rw [slotOf, hresolved.direct]
  have hroot : statement.body.tables.source = model.source := by
    rw [(lower_ok hlower).2.2.2, ← h.model_eq]
    rfl
  simp only [lowerMetric, lowerField, Sql.Scalar.type, hslot, Sql.Tables.bindings, hroot,
    List.lookup_cons, beq_self_eq_true, Option.map_some, htype]

end Joins

/-! ## The flat path -/

section Flat
variable {V : Type} [DecidableEq V] (server : Sql.Server V) (database : Sql.Database V)

theorem meaningful_eq {models : List Model} {model : Model} {query : LogicalSemanticQuery}
    {validated : ValidatedQuery} (h : QueryResolved models model query validated) :
    meaningful model query = validated.metrics.all fun metric =>
      Sql.supports metric.metric.aggregation metric.field.dataType := by
  rw [meaningful, queryMetrics_eq h, List.all_map, Bool.eq_iff_iff, List.all_eq_true,
    List.all_eq_true]
  refine forall₂_congr fun metric hm => ?_
  obtain ⟨reference, -, hresolved⟩ := h.metric hm
  rw [Function.comp_apply, hresolved.field_found, Option.any_some]

variable {models : List Model} {model : Model} {query : LogicalSemanticQuery}
  {validated : ValidatedQuery} (h : QueryResolved models model query validated)
  {statement : Sql.Query} (hlower : validated.lower = .ok statement)
include h hlower

omit [DecidableEq V] in
theorem accepted_eq (hconforms : Conforms database model query) :
    statement.accepted database = validated.metrics.all fun metric =>
      Sql.supports metric.metric.aggregation metric.field.dataType
        && (statement.anchor.isNone || Sql.supports .max metric.field.dataType) := by
  rw [Sql.Query.accepted, (lower_ok hlower).2.2.1, ValidatedQuery.lowerMetrics, List.all_map,
    Bool.eq_iff_iff, List.all_eq_true, List.all_eq_true]
  refine forall₂_congr fun metric hm => ?_
  rw [Function.comp_apply, metric_type database h hlower hconforms hm]
  rfl

theorem dimensions_length : statement.dimensions.length = query.dimensions.length := by
  have hdims := (mapM_eq_ok_iff.mp (lower_ok hlower).1).length_eq
  rw [← hdims, h.dimensions.length_eq]

omit h hlower in
/-- With unique target columns every root row has one joined row at most. -/
theorem joinedRows_eq_toList {query : LogicalSemanticQuery}
    (hunique : UniqueTargets database model query) (root : Sql.Row V) :
    joinedRows database model query root = (joinedRow database model query root).toList := by
  apply foldl_flatMap_toList
  intro relationship hr row
  have hpartners : partners (relationship.joinType == .left) (relationship.matches row.root)
      Sql.nullRow (database.rows relationship.target) =
      (partner (relationship.joinType == .left) (relationship.matches row.root) Sql.nullRow
        (database.rows relationship.target)).toList := by
    apply partners_eq_toList
    cases hvalue : row.root relationship.fromColumn with
    | none =>
      have hmatches : relationship.matches row.root = fun _ => false := by
        funext target
        rw [Relationship.matches, hvalue]
        rfl
      simp [hmatches]
    | some value =>
      have hmatches : relationship.matches row.root =
          fun target => decide (target relationship.toColumn = some value) := by
        funext target
        rw [Relationship.matches, hvalue]
        rfl
      rw [hmatches]
      exact filter_key_eq_toList (hunique relationship hr) value
  rw [Relationship.follow, Relationship.followOne, hpartners]
  cases partner (relationship.joinType == .left) (relationship.matches row.root) Sql.nullRow
    (database.rows relationship.target) <;> rfl

theorem flat_denote (hanchor : statement.anchor = none) (hconforms : Conforms database model query)
    (hunique : UniqueTargets database model query) :
    statement.denote server database = flatMeaning server database model query := by
  have haccepted : statement.accepted database = meaningful model query := by
    rw [accepted_eq database h hlower hconforms, meaningful_eq h, hanchor]
    simp
  obtain ⟨hbody, hnames⟩ := body_denote database h server hlower
  have hrows : (database.rows model.source).flatMap (keptRows server database model query) =
      survivors server database model query := by
    rw [survivors, List.filterMap_eq_flatMap_toList, List.filter_flatMap]
    refine List.flatMap_congr fun root _ => ?_
    rw [keptRows, joinedRows_eq_toList database hunique]
  rw [hrows] at hbody hnames
  unfold Sql.Query.denote flatMeaning
  rw [haccepted]
  simp only [hanchor, Sql.Query.flatRows, hbody, dimensions_length h hlower]
  rw [Sql.groups_map, List.map_map, Sql.groups_congr fun row hr => key_slotted h server hlower
    (hnames row hr)]
  split
  · congr 1
    refine List.map_congr_left fun group hg => ?_
    have hgroup : ∀ row ∈ group.2, row.targets.map Prod.fst = validated.names :=
      fun row hr => hnames row (Sql.mem_of_mem_groups hg hr)
    rw [Function.comp_apply, eval_metrics h server hlower hgroup]
  · rfl

end Flat

theorem joinedRow_root {V : Type} [DecidableEq V] {database : Sql.Database V} {model : Model}
    {query : LogicalSemanticQuery} {root : Sql.Row V} {row : JoinedRow V}
    (h : joinedRow database model query root = some row) : row.root = root := by
  have hall : ∀ (relationships : List Relationship) (start : JoinedRow V),
      relationships.foldlM (fun row relationship => relationship.followOne database row) start =
        some row → row.root = start.root := by
    intro relationships
    induction relationships with
    | nil =>
      intro start hstart
      rw [List.foldlM_nil, Option.pure_def, Option.some.injEq] at hstart
      rw [hstart]
    | cons relationship rest ih =>
      intro start hstart
      rw [List.foldlM_cons, Option.bind_eq_bind, Option.bind_eq_some_iff] at hstart
      obtain ⟨next, hnext, hrest⟩ := hstart
      obtain ⟨target, -, rfl⟩ := Option.map_eq_some_iff.mp hnext
      have hroot := ih (start.extend relationship.semanticName target) hrest
      exact hroot
  exact hall _ _ h

/-- No root row is behind two of the surviving rows. -/
theorem survivors_root {V : Type} [DecidableEq V] (server : Sql.Server V)
    (database : Sql.Database V) (model : Model) (query : LogicalSemanticQuery) :
    ((survivors server database model query).map JoinedRow.root).Sublist
      (database.rows model.source) := by
  have hrows : ∀ roots : List (Sql.Row V),
      ((roots.filterMap (joinedRow database model query)).map JoinedRow.root).Sublist roots := by
    intro roots
    induction roots with
    | nil => exact List.Sublist.slnil
    | cons root rest ih =>
      cases hrow : joinedRow database model query root with
      | none =>
        rw [List.filterMap_cons_none hrow]
        exact ih.cons root
      | some row =>
        rw [List.filterMap_cons_some hrow, List.map_cons, joinedRow_root hrow]
        exact ih.cons_cons root
  exact (List.filter_sublist.map JoinedRow.root).trans (hrows _)

/-- Two orders, and three items that belong to the first. -/
def orderDatabase (orders : String) : Sql.Database Literal where
  rows relation :=
    if relation = ⟨"commerce", orders⟩ then
      [fun column => if column = "id" then some (.integer 1) else none,
        fun column => if column = "id" then some (.integer 2) else none]
    else if relation = ⟨"commerce", "items"⟩ then
      List.replicate 3 fun column =>
        if column = "order_id" then some (.integer 1)
        else if column = "sku" then some (.text "a") else none
    else []
  columnType _ column := if column = "sku" then .text else .integer

end Postgresem
