import Postgresem.Compiler.Refinement
import Mathlib.Data.List.ReduceOption
import Postgresem.Semantic.Evaluation

/-! The anchored path: grouping by the dimensions and the anchor first, and then aggregating one
value for each anchor, computes every metric over the distinct root rows of a group. -/
namespace Postgresem
open Control Relational Template Lexing

section Aggregation
variable {V : Type} [DecidableEq V] (server : Sql.Server V)

theorem aggregate_perm (aggregation : Aggregation) {xs ys : List (Option V)} (h : xs.Perm ys) :
    Sql.aggregate server aggregation xs = Sql.aggregate server aggregation ys := by
  have hvalues : xs.reduceOption.Perm ys.reduceOption := h.filterMap id
  have hreduce : ∀ aggregation, (if xs.reduceOption.isEmpty then none
      else some (server.reduce aggregation xs.reduceOption)) =
      if ys.reduceOption.isEmpty then none
        else some (server.reduce aggregation ys.reduceOption) := by
    intro aggregation
    rw [server.reduce_perm aggregation hvalues, hvalues.isEmpty_eq]
  unfold Sql.aggregate
  cases aggregation with
  | count => simp only [hvalues.length_eq]
  | countDistinct => simp only [hvalues.dedup.length_eq]
  | sum => exact hreduce .sum
  | min => exact hreduce .min
  | max => exact hreduce .max
  | avg => exact hreduce .avg

/-- `max` over copies of one cell gives that cell. -/
theorem aggregate_max_const {cells : List (Option V)} {cell : Option V} (hne : cells ≠ [])
    (h : ∀ other ∈ cells, other = cell) : Sql.aggregate server .max cells = cell := by
  have hreplicate : cells = List.replicate cells.length cell := List.eq_replicate_iff.mpr ⟨rfl, h⟩
  unfold Sql.aggregate
  cases cell with
  | none =>
    have hvalues : cells.reduceOption = [] := by
      rw [hreplicate]
      simp [List.reduceOption_replicate_none]
    simp only [hvalues]
    rfl
  | some value =>
    have hmem : ∀ x ∈ cells.reduceOption, x = value := by
      intro x hx
      rw [List.reduceOption_mem_iff] at hx
      exact Option.some.inj (h _ hx)
    have hsome : cells.reduceOption ≠ [] := by
      obtain ⟨other, ho⟩ := List.exists_mem_of_ne_nil cells hne
      have hvalue : some value ∈ cells := h other ho ▸ ho
      exact List.ne_nil_of_mem (List.reduceOption_mem_iff.mpr hvalue)
    have hempty : cells.reduceOption.isEmpty = false := by simpa using hsome
    simp only [hempty, Bool.false_eq_true, if_false, server.max_const hsome hmem]

/-- A null cell for a row that a condition drops is as good as dropping the row. -/
theorem aggregate_ite {α : Type} (aggregation : Aggregation) (keep : α → Bool)
    (cell : α → Option V) (rows : List α) :
    Sql.aggregate server aggregation (rows.map fun row => if keep row then cell row else none) =
      Sql.aggregate server aggregation ((rows.filter keep).map cell) := by
  have hvalues : (rows.map fun row => if keep row then cell row else none).reduceOption =
      ((rows.filter keep).map cell).reduceOption := by
    induction rows with
    | nil => rfl
    | cons row rest ih =>
      by_cases hk : keep row = true
      · rw [List.map_cons, if_pos hk, List.filter_cons_of_pos hk, List.map_cons]
        cases hc : cell row with
        | none => rw [List.reduceOption_cons_of_none, List.reduceOption_cons_of_none, ih]
        | some value => rw [List.reduceOption_cons_of_some, List.reduceOption_cons_of_some, ih]
      · rw [List.map_cons, if_neg hk, List.filter_cons_of_neg hk, List.reduceOption_cons_of_none,
          ih]
  unfold Sql.aggregate
  simp only [hvalues]

end Aggregation

/-! ## Root rows -/

section Roots
variable {V : Type} [DecidableEq V] (server : Sql.Server V) (database : Sql.Database V)
  (model : Model)

omit [DecidableEq V] in
theorem cell_of_direct {field : Field} (h : field.relationship = none) (row : JoinedRow V) :
    row.cell field = row.root field.column := by
  rw [JoinedRow.cell, h]

/-- The input of a metric at a root row: null where the metric filter drops the row. -/
def rootCell (metric : Metric) (root : Sql.Row V) : Option V :=
  if metric.selects server model (.ofRoot root) then
    (model.findField metric.field).bind (JoinedRow.ofRoot root).cell
  else none

def rootCells (query : LogicalSemanticQuery) (root : Sql.Row V) : List (Option V) :=
  (queryMetrics model query).map fun metric => rootCell server model metric root

theorem metricCells_roots (query : LogicalSemanticQuery) (roots : List (Sql.Row V)) :
    metricCells server model query (roots.map JoinedRow.ofRoot) =
      (queryMetrics model query).map fun metric =>
        Sql.aggregate server metric.aggregation (roots.map (rootCell server model metric)) := by
  refine List.map_congr_left fun metric _ => ?_
  have hite := aggregate_ite server metric.aggregation
    (fun root => metric.selects server model (.ofRoot root))
    (fun root => (model.findField metric.field).bind (JoinedRow.ofRoot root).cell) roots
  rw [Metric.over, List.filter_map, List.map_map]
  exact hite.symm

theorem joinedRows_root {query : LogicalSemanticQuery} {root : Sql.Row V} {row : JoinedRow V}
    (h : row ∈ joinedRows database model query root) : row.root = root := by
  have hall : ∀ (relationships : List Relationship) (rows : List (JoinedRow V)),
      (∀ row ∈ rows, row.root = root) →
      ∀ row ∈ relationships.foldl
        (fun rows relationship => rows.flatMap (relationship.follow database)) rows,
        row.root = root := by
    intro relationships
    induction relationships with
    | nil => exact fun rows hrows => hrows
    | cons relationship rest ih =>
      intro rows hrows
      apply ih
      intro row hr
      obtain ⟨previous, hp, hr⟩ := List.mem_flatMap.mp hr
      obtain ⟨target, -, rfl⟩ := List.mem_map.mp hr
      exact hrows previous hp
  refine hall _ [.ofRoot root] ?_ row h
  intro row hr
  rw [List.mem_singleton] at hr
  rw [hr]
  rfl

theorem keptRows_root {query : LogicalSemanticQuery} {root : Sql.Row V} {row : JoinedRow V}
    (h : row ∈ keptRows server database model query root) : row.root = root :=
  joinedRows_root database model (List.mem_filter.mp h).1

/-- A metric filter on a field of the root relation only looks at the root row. -/
theorem selects_root {reference : MetricReference} {metric : ResolvedMetric}
    (hresolved : MetricResolved model reference metric)
    (hdirect : ∀ entry, metric.filter = some entry → entry.1.relationship = none)
    (row : JoinedRow V) :
    metric.metric.selects server model row =
      metric.metric.selects server model (.ofRoot row.root) := by
  have hfilter := hresolved.filter
  unfold Metric.selects
  generalize metric.metric.filter = filter at hfilter
  generalize metric.filter = entry at hfilter hdirect
  cases hfilter with
  | absent => rfl
  | present found _ =>
    simp only [found, Option.any_some, equalsLiteral, cell_of_direct (hdirect _ rfl)]
    rfl

/-- Inside an anchored group the inner stage finds the input of the metric at its root row. -/
theorem inner_eval {names : List String} {reference : MetricReference} {metric : ResolvedMetric}
    (hresolved : MetricResolved model reference metric)
    (hdirect : ∀ entry, metric.filter = some entry → entry.1.relationship = none)
    {root : Sql.Row V} {rows : List (JoinedRow V)} (hne : rows ≠ [])
    (hroot : ∀ row ∈ rows, row.root = root)
    (hnames : ∀ row ∈ rows, row.targets.map Prod.fst = names) :
    (lowerMetric names metric).innerEval server (rows.map slotted) =
      rootCell server model metric.metric root := by
  unfold Sql.Aggregate.innerEval
  apply aggregate_max_const
  · simpa using hne
  · intro cell hc
    simp only [List.map_map, List.mem_map, Function.comp_apply] at hc
    obtain ⟨row, hr, rfl⟩ := hc
    have hselects : Sql.passes server (lowerMetric names metric).condition (slotted row) =
        metric.metric.selects server model (.ofRoot root) := by
      rw [passes_condition server (hnames row hr) hresolved,
        selects_root server model hresolved hdirect, hroot row hr]
    have hcell : (lowerMetric names metric).argument.eval server (slotted row) =
        (JoinedRow.ofRoot root).cell metric.field := by
      have heval := eval_field server (hnames row hr) metric.field
      rw [cell_of_direct hresolved.direct, hroot row hr] at heval
      rw [cell_of_direct hresolved.direct]
      exact heval
    rw [hselects, hcell, rootCell, hresolved.field_found, Option.bind_some]

end Roots

/-! ## Both stages -/

section Anchored
variable {V : Type} [DecidableEq V] (server : Sql.Server V) (database : Sql.Database V)
  {models : List Model} {model : Model} {query : LogicalSemanticQuery}
  {validated : ValidatedQuery} (h : QueryResolved models model query validated)
  {statement : Sql.Query} (hlower : validated.lower = .ok statement)
  {anchor : Field} (ha : validated.aggregationAnchor = some anchor)
include h

theorem QueryResolved.direct_filters {anchor : Field} (ha : validated.aggregationAnchor = some anchor)
    {metric : ResolvedMetric} (hm : metric ∈ validated.metrics) :
    ∀ entry, metric.filter = some entry → entry.1.relationship = none := by
  rcases fanoutAnchor_ok h.anchor with ⟨hnone, -⟩ | ⟨field, -, -, -, -, hall⟩
  · rw [hnone] at ha
    cases ha
  · exact (hall metric hm).directFilter

include hlower

/-- The select list of the outer stage over the values of some root rows. -/
theorem outer_cells (roots : List (Sql.Row V)) :
    (statement.metrics.zipIdx.map fun item =>
      Sql.aggregate server item.1.1.aggregation
        ((roots.map (rootCells server model query)).map fun cells => (cells[item.2]?).getD none)) =
      metricCells server model query (roots.map JoinedRow.ofRoot) := by
  rw [metricCells_roots, queryMetrics_eq h, (lower_ok hlower).2.2.1, ValidatedQuery.lowerMetrics]
  apply List.ext_getElem?
  intro i
  rw [List.getElem?_map, List.getElem?_zipIdx, List.getElem?_map, List.getElem?_map,
    List.getElem?_map]
  cases hm : validated.metrics[i]? with
  | none => rfl
  | some metric =>
    simp only [Option.map_some, Nat.zero_add, Option.some.injEq]
    congr 1
    rw [List.map_map]
    refine List.map_congr_left fun root _ => ?_
    rw [Function.comp_apply, rootCells, queryMetrics_eq h, List.getElem?_map, List.getElem?_map, hm]
    rfl

include ha

omit hlower in
theorem anchor_eval {row : JoinedRow V} (hrow : row.targets.map Prod.fst = validated.names) :
    (lowerField validated.names anchor).eval server (slotted row) = row.root anchor.column := by
  rw [eval_field server hrow, cell_of_direct (h.anchor_field ha).2.1]

/-- The common table expression in terms of the joined rows of the query. -/
theorem innerRows_eq :
    statement.innerRows server database (lowerField validated.names anchor) =
      (groupBy (fun row : JoinedRow V => (query.group server model row, row.root anchor.column))
        ((database.rows model.source).flatMap (keptRows server database model query))).map
        fun group => (group.1.1,
          statement.metrics.map fun item => item.1.innerEval server (group.2.map slotted)) := by
  obtain ⟨hbody, hnames⟩ := body_denote database h server hlower
  have hkey : ∀ row ∈ (database.rows model.source).flatMap (keptRows server database model query),
      (statement.key server (slotted row),
        (lowerField validated.names anchor).eval server (slotted row)) =
        (query.group server model row, row.root anchor.column) := by
    intro row hr
    rw [key_slotted h server hlower (hnames row hr), anchor_eval server h ha (hnames row hr)]
  rw [Sql.Query.innerRows, hbody, groupBy_map, List.map_map, groupBy_congr hkey]
  rfl

/-- Under one outer key the inner stage leaves one row of inputs for each distinct root row. -/
theorem innerRows_perm (hunique : UniqueAnchor database model anchor.column)
    (group : List (Option V)) :
    (((statement.innerRows server database (lowerField validated.names anchor)).filter
      fun inner => inner.1 = group).map Prod.snd).Perm
      ((rootsOf server database model query group).map (rootCells server model query)) := by
  obtain ⟨-, hnames⟩ := body_denote database h server hlower
  have hanchor : ∀ root ∈ database.rows model.source,
      ∀ row ∈ keptRows server database model query root,
        row.root anchor.column = root anchor.column := by
    intro root _ row hr
    rw [keptRows_root server database model hr]
  have hreduce : ∀ root ∈ database.rows model.source, ∀ rows : List (JoinedRow V), rows ≠ [] →
      (∀ row ∈ rows, row ∈ keptRows server database model query root) →
      (statement.metrics.map fun item => item.1.innerEval server (rows.map slotted)) =
        rootCells server model query root := by
    intro root hroot rows hne hrows
    rw [(lower_ok hlower).2.2.1, ValidatedQuery.lowerMetrics, rootCells, queryMetrics_eq h,
      List.map_map, List.map_map]
    refine List.map_congr_left fun metric hm => ?_
    obtain ⟨reference, -, hresolved⟩ := h.metric hm
    refine inner_eval server model hresolved (h.direct_filters ha hm) hne ?_ ?_
    · intro row hr
      exact keptRows_root server database model (hrows row hr)
    · intro row hr
      exact hnames row (List.mem_flatMap.mpr ⟨root, hroot, hrows row hr⟩)
  rw [innerRows_eq server database h hlower ha, List.filter_map, List.map_map]
  exact anchored_collapse_perm hunique.1 hanchor
    (fun rows => statement.metrics.map fun item => item.1.innerEval server (rows.map slotted))
    (rootCells server model query) hreduce group

theorem anchoredRows_perm (hunique : UniqueAnchor database model anchor.column) :
    (statement.anchoredRows server database (lowerField validated.names anchor)).Perm
      ((Sql.groups query.dimensions.length (query.group server model)
        ((database.rows model.source).flatMap (keptRows server database model query))).map
        fun group => group.1 ++ metricCells server model query
          ((rootsOf server database model query group.1).map JoinedRow.ofRoot)) := by
  have hgroup : ∀ group, (statement.metrics.zipIdx.map fun item =>
      Sql.aggregate server item.1.1.aggregation
        (((statement.innerRows server database (lowerField validated.names anchor)).filter
          fun inner => inner.1 = group).map fun inner => (inner.2[item.2]?).getD none)) =
      metricCells server model query
        ((rootsOf server database model query group).map JoinedRow.ofRoot) := by
    intro group
    rw [← outer_cells server h hlower]
    refine List.map_congr_left fun item _ => ?_
    apply aggregate_perm
    have hperm := (innerRows_perm server database h hlower ha hunique group).map
      fun cells => (cells[item.2]?).getD none
    rw [List.map_map] at hperm
    exact hperm
  rw [Sql.Query.anchoredRows, dimensions_length h hlower]
  unfold Sql.groups
  split
  next hzero =>
    -- without dimensions every key is empty, and there is one outer row
    have hnil : query.dimensions = [] := List.length_eq_zero_iff.mp hzero
    have hkeys : (statement.innerRows server database (lowerField validated.names anchor)).filter
        (fun inner => inner.1 = []) =
        statement.innerRows server database (lowerField validated.names anchor) := by
      rw [List.filter_eq_self]
      intro inner hi
      rw [innerRows_eq server database h hlower ha] at hi
      obtain ⟨group, hg, rfl⟩ := List.mem_map.mp hi
      obtain ⟨⟨row, -, hkey⟩, -⟩ := mem_groupBy.mp hg
      rw [← hkey]
      simp [LogicalSemanticQuery.group, hnil]
    have hempty := hgroup []
    rw [hkeys] at hempty
    simp only [List.map_cons, List.map_nil, List.nil_append, hempty]
    exact List.Perm.refl _
  next hnonzero =>
    refine groups_perm ?_
      (fun group (inners : List (List (Option V) × List (Option V))) =>
        group ++ statement.metrics.zipIdx.map fun item =>
          Sql.aggregate server item.1.1.aggregation
            (inners.map fun inner => (inner.2[item.2]?).getD none))
      (fun group _ => group ++ metricCells server model query
        ((rootsOf server database model query group).map JoinedRow.ofRoot)) ?_
    · intro key
      rw [innerRows_eq server database h hlower ha]
      constructor
      · rintro ⟨inner, hi, rfl⟩
        obtain ⟨group, hg, rfl⟩ := List.mem_map.mp hi
        obtain ⟨⟨row, hr, hkey⟩, -⟩ := mem_groupBy.mp hg
        exact ⟨row, hr, by rw [← hkey]⟩
      · rintro ⟨row, hr, rfl⟩
        have hmem := mem_groupBy_of_mem
          (fun row : JoinedRow V => (query.group server model row, row.root anchor.column)) hr
        exact ⟨_, List.mem_map_of_mem hmem, rfl⟩
    · intro key
      rw [hgroup key]

end Anchored

/-! ## Which metrics survive the inner `max` -/

/-- A boolean entity key can be counted, but there is no `max` to carry it to the outer stage. -/
def CountsBoolean (model : Model) (query : LogicalSemanticQuery) : Prop :=
  ∃ metric ∈ queryMetrics model query,
    (metric.aggregation = .count ∨ metric.aggregation = .countDistinct) ∧
      ∃ field, model.findField metric.field = some field ∧ field.dataType = .boolean

theorem supports_max {aggregation : Aggregation} {dataType : DataType}
    (h : Sql.supports aggregation dataType = true) : Sql.supports .max dataType = true ∨
      (aggregation = .count ∨ aggregation = .countDistinct) ∧ dataType = .boolean := by
  cases aggregation <;> cases dataType <;> revert h <;> decide

theorem accepted_iff {models : List Model} {model : Model} {query : LogicalSemanticQuery}
    {validated : ValidatedQuery} (h : QueryResolved models model query validated)
    {statement : Sql.Query} (hlower : validated.lower = .ok statement)
    (hanchor : statement.anchor ≠ none) {V : Type} (database : Sql.Database V)
    (hconforms : Conforms database model query) :
    statement.accepted database = true ↔
      meaningful model query = true ∧ ¬ CountsBoolean model query := by
  have hnone : statement.anchor.isNone = false := by
    rw [Option.isNone_eq_false_iff, Option.isSome_iff_ne_none]
    exact hanchor
  rw [accepted_eq database h hlower hconforms, meaningful_eq h, hnone, CountsBoolean,
    queryMetrics_eq h]
  simp only [Bool.false_or, List.all_eq_true, Bool.and_eq_true, List.mem_map, not_exists, not_and]
  constructor
  · intro hall
    refine ⟨fun metric hm => (hall metric hm).1, ?_⟩
    rintro _ ⟨metric, hm, rfl⟩ - field hfield hboolean
    obtain ⟨reference, -, hresolved⟩ := h.metric hm
    have hmax := (hall metric hm).2
    rw [hresolved.field_found, Option.some.injEq] at hfield
    rw [hfield, hboolean] at hmax
    cases hmax
  · rintro ⟨hsupported, hnot⟩ metric hm
    refine ⟨hsupported metric hm, ?_⟩
    rcases supports_max (hsupported metric hm) with hmax | ⟨hcount, hboolean⟩
    · exact hmax
    · obtain ⟨reference, -, hresolved⟩ := h.metric hm
      exact absurd hboolean (hnot _ ⟨metric, hm, rfl⟩ hcount _ hresolved.field_found)

theorem anchored_denote {models : List Model} {model : Model} {query : LogicalSemanticQuery}
    {validated : ValidatedQuery} (h : QueryResolved models model query validated)
    {statement : Sql.Query} (hlower : validated.lower = .ok statement) {anchor : Field}
    (ha : validated.aggregationAnchor = some anchor) {V : Type} [DecidableEq V]
    (server : Sql.Server V) (database : Sql.Database V) (hconforms : Conforms database model query)
    (hunique : UniqueAnchor database model anchor.column) :
    SameRelation (statement.denote server database)
        (fanoutMeaning server database model query) ↔
      (meaningful model query = true → ¬ CountsBoolean model query) := by
  have hanchor : statement.anchor = some (lowerField validated.names anchor) := by
    rw [(lower_anchor hlower).1, ha]
    rfl
  have haccepted := accepted_iff h hlower (by simp [hanchor]) database hconforms
  unfold Sql.Query.denote fanoutMeaning
  by_cases hmeaningful : meaningful model query = true
  · by_cases hcounts : CountsBoolean model query
    · have hrejected : ¬ statement.accepted database = true := fun hok =>
        (haccepted.mp hok).2 hcounts
      rw [if_neg hrejected, if_pos hmeaningful]
      constructor
      · intro hsame
        exact absurd hsame id
      · intro himplies
        exact absurd hcounts (himplies hmeaningful)
    · rw [if_pos (haccepted.mpr ⟨hmeaningful, hcounts⟩), if_pos hmeaningful, hanchor]
      constructor
      · exact fun _ _ => hcounts
      · exact fun _ => anchoredRows_perm server database h hlower ha hunique
  · have hrejected : ¬ statement.accepted database = true := fun hok =>
      hmeaningful (haccepted.mp hok).1
    rw [if_neg hrejected, if_neg hmeaningful]
    constructor
    · exact fun _ hok => absurd hok hmeaningful
    · exact fun _ => trivial

/-- On the anchored path, with the identifiers of the body left whole, the emitted statement
selects what the query asks for exactly when no boolean entity key is counted. -/
theorem fanout_safety {backend : CompilerBackend} {normalized : NormalizedLsq}
    {snapshot : SemanticSnapshot} {options : CompilerOptions} {compiled : CompiledQuery}
    (h : compileLsq backend normalized snapshot options = .ok compiled) :
    ∃ model validated statement, snapshot.findModel normalized.query = some model ∧
      validate backend.toHashBackend normalized snapshot options = .ok validated ∧
      validated.lower = .ok statement ∧
      lex compiled.sql = some (lexemes statement.emitted.pieces []) ∧
      (¬ FlatPath model normalized.query → ∃ anchor ∈ anchorFieldsOf model normalized.query,
        statement.anchor = some (lowerField validated.names anchor) ∧
        ∀ {V : Type} [DecidableEq V] (server : Sql.Server V) (database : Sql.Database V),
          Conforms database model normalized.query → UniqueAnchor database model anchor.column →
          Unbroken (bodyIdentifiers model normalized.query) →
          (SameRelation (statement.emitted.denote server database)
              (fanoutMeaning server database model normalized.query) ↔
            (meaningful model normalized.query = true →
              ¬ CountsBoolean model normalized.query))) := by
  obtain ⟨validated, statement, hvalid, hlower, hsql, -⟩ := compileLsq_ok h
  obtain ⟨model, hmodel, hresolved⟩ := validate_ok hvalid
  refine ⟨model, validated, statement, hmodel, hvalid, hlower, ?_, ?_⟩
  · rw [hsql]
    exact lex_written statement
  · intro hfanout
    have hsome : validated.aggregationAnchor ≠ none := fun hnone =>
      hfanout (hresolved.anchor_eq_none_iff.mp hnone)
    obtain ⟨anchor, ha⟩ := Option.ne_none_iff_exists'.mp hsome
    refine ⟨anchor, (hresolved.anchor_field ha).1, ?_, ?_⟩
    · rw [(lower_anchor hlower).1, ha]
      rfl
    · intro V _ server database hconforms hunique hbroken
      have hself : statement.emitted = statement := by
        apply emitted_eq_self
        exact Or.inr fun identifier hi =>
          hbroken identifier ((lower_intends hresolved hlower).mem_identifiers.mp hi)
      rw [hself]
      exact anchored_denote hresolved hlower ha server database hconforms hunique

def plainSnapshot : SemanticSnapshot :=
  ordersSnapshot "orders"
    "sha256:1ce506430f0e7cdf369172213a15a63927a73e87e3f63fbf2530e5e8578d46e7"

theorem plainSnapshot_checked : checkSnapshot standardHash plainSnapshot = .ok () := by
  apply checkSnapshot_of_published (by decide)
  apply published_of_codes
  decide +kernel

/-- The three items of the first order do not count it three times. -/
theorem fanout_safety_orders :
    ∃ (compiled : CompiledQuery) (model : Model) (statement : Sql.Query),
      compileLsq standardBackend ordersBySku plainSnapshot {} = .ok compiled ∧
      lex compiled.sql = some (lexemes statement.emitted.pieces []) ∧
      SameRelation (statement.emitted.denote Sql.literalServer (orderDatabase "orders"))
        (fanoutMeaning Sql.literalServer (orderDatabase "orders") model ordersBySku.query) ∧
      fanoutMeaning Sql.literalServer (orderDatabase "orders") model ordersBySku.query =
        some [[some (.text "a"), some (.integer 1)], [none, some (.integer 1)]] := by
  have hlower : succeedsWith (validateAgainst ordersBySku plainSnapshot {} >>=
      ValidatedQuery.lower) (fun _ => true) = true := by decide +kernel
  have hmodel : (plainSnapshot.findModel ordersBySku.query).all (fun model =>
      decide (¬ FlatPath model ordersBySku.query ∧
        Conforms (orderDatabase "orders") model ordersBySku.query ∧
        (∀ anchor ∈ anchorFieldsOf model ordersBySku.query,
          UniqueAnchor (orderDatabase "orders") model anchor.column) ∧
        Unbroken (bodyIdentifiers model ordersBySku.query) ∧
        (∀ metric ∈ queryMetrics model ordersBySku.query,
          ∀ field ∈ model.findField metric.field, field.dataType ≠ .boolean) ∧
        fanoutMeaning Sql.literalServer (orderDatabase "orders") model ordersBySku.query =
          some [[some (.text "a"), some (.integer 1)], [none, some (.integer 1)]])) = true := by
    decide +kernel
  obtain ⟨_, hstatement, -⟩ := exists_ok_of_succeedsWith hlower
  obtain ⟨compiled, hcompiled, -⟩ := compileLsq_standard plainSnapshot_checked hstatement
  obtain ⟨model, _, statement, hfound, -, -, hlex, hexact⟩ := fanout_safety hcompiled
  obtain ⟨hfanout, hconforms, hunique, hbroken, hboolean, hmeaning⟩ := of_all_decide hmodel hfound
  obtain ⟨anchor, ha, -, hsame⟩ := hexact hfanout
  have hcounts : ¬ CountsBoolean model ordersBySku.query := by
    rintro ⟨metric, hm, -, field, hf, ht⟩
    exact hboolean metric hm field hf ht
  have hiff := hsame Sql.literalServer (orderDatabase "orders") hconforms (hunique anchor ha) hbroken
  exact ⟨compiled, model, statement, hcompiled, hlex, hiff.mpr fun _ => hcounts, hmeaning⟩

/-- With a line break in the name of the root relation the statement reads another relation, and
the orders are gone. -/
theorem line_break_loses_orders :
    ∃ (compiled : CompiledQuery) (model : Model) (statement : Sql.Query) (anchor : Field),
      compileLsq standardBackend ordersBySku lineBreakSnapshot {} = .ok compiled ∧
      lineBreakSnapshot.findModel ordersBySku.query = some model ∧
      (validateAgainst ordersBySku lineBreakSnapshot {} >>= ValidatedQuery.lower) =
        .ok statement ∧
      lex compiled.sql = some (lexemes statement.emitted.pieces []) ∧
      ¬ FlatPath model ordersBySku.query ∧ anchor ∈ anchorFieldsOf model ordersBySku.query ∧
      Conforms (orderDatabase "or\nders") model ordersBySku.query ∧
      UniqueAnchor (orderDatabase "or\nders") model anchor.column ∧
      ¬ SameRelation (statement.emitted.denote Sql.literalServer (orderDatabase "or\nders"))
        (fanoutMeaning Sql.literalServer (orderDatabase "or\nders") model
          ordersBySku.query) := by
  have hlower : succeedsWith (validateAgainst ordersBySku lineBreakSnapshot {} >>=
      ValidatedQuery.lower) (fun statement => decide
        (statement.emitted.denote Sql.literalServer (orderDatabase "or\nders") = some [])) =
        true := by decide +kernel
  have hmodel : (lineBreakSnapshot.findModel ordersBySku.query).all (fun model =>
      decide (¬ FlatPath model ordersBySku.query ∧
        Conforms (orderDatabase "or\nders") model ordersBySku.query ∧
        (∃ anchor ∈ anchorFieldsOf model ordersBySku.query,
          UniqueAnchor (orderDatabase "or\nders") model anchor.column) ∧
        fanoutMeaning Sql.literalServer (orderDatabase "or\nders") model ordersBySku.query =
          some [[some (.text "a"), some (.integer 1)], [none, some (.integer 1)]])) = true := by
    decide +kernel
  obtain ⟨statement, hstatement, hdenote⟩ := exists_ok_of_succeedsWith hlower
  obtain ⟨compiled, hcompiled, hsql⟩ := compileLsq_standard lineBreakSnapshot_checked hstatement
  have hfound : (lineBreakSnapshot.findModel ordersBySku.query).isSome = true := by decide +kernel
  obtain ⟨model, hmodel'⟩ := Option.isSome_iff_exists.mp hfound
  obtain ⟨hfanout, hconforms, ⟨anchor, ha, hunique⟩, hmeaning⟩ := of_all_decide hmodel hmodel'
  refine ⟨compiled, model, statement, anchor, hcompiled, hmodel', hstatement, ?_, hfanout, ha,
    hconforms, hunique, ?_⟩
  · rw [hsql]
    exact lex_written statement
  · rw [of_decide_eq_true hdenote, hmeaning]
    intro hperm
    exact absurd hperm.length_eq (by decide)

end Postgresem
