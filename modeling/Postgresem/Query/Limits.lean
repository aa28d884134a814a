import Postgresem.Query.Lsq

/-! What `validate_query` accepts, in terms of the whole query: the depth and the number of nodes of
its filter are measures of the tree, not of the walk that counts them. -/
namespace Postgresem
open Control

section Measures

mutual

/-- The nodes of a filter, itself first. -/
def Filter.nodes : Filter → List Filter
  | .and args => .and args :: Filter.nodesEach args
  | .or args => .or args :: Filter.nodesEach args
  | .not arg => .not arg :: arg.nodes
  | .comparison operator field value => [.comparison operator field value]
  | .inList field values => [.inList field values]
  | .isNull field => [.isNull field]
  | .isNotNull field => [.isNotNull field]

def Filter.nodesEach : List Filter → List Filter
  | [] => []
  | filter :: rest => filter.nodes ++ Filter.nodesEach rest

end

mutual

def Filter.depth : Filter → Nat
  | .and args | .or args => Filter.depthEach args + 1
  | .not arg => arg.depth + 1
  | .comparison .. | .inList .. | .isNull _ | .isNotNull _ => 1

def Filter.depthEach : List Filter → Nat
  | [] => 0
  | filter :: rest => max filter.depth (Filter.depthEach rest)

end

/-- What a node asks of itself, whatever stands below it. -/
def Filter.WellFormedNode : Filter → Prop
  | .and args | .or args => args ≠ []
  | .not _ => True
  | .inList field values => isBlank field = false ∧ 1 ≤ values.length ∧ values.length ≤ 100 ∧
      ∀ value ∈ values, value.isWellFormed = true
  | .comparison _ field value => isBlank field = false ∧ value.isWellFormed = true
  | .isNull field | .isNotNull field => isBlank field = false

structure Filter.WithinLimits (filter : Filter) : Prop where
  depth : filter.depth ≤ 16
  size : filter.nodes.length ≤ 128
  wellFormed : ∀ node ∈ filter.nodes, node.WellFormedNode

structure LogicalSemanticQuery.WithinLimits (query : LogicalSemanticQuery) : Prop where
  version : query.schemaVersion = "1"
  model : isBlank query.model = false
  projection : query.dimensions ≠ [] ∨ query.metrics ≠ []
  limit : ∀ limit, query.limit = some limit → 1 ≤ limit ∧ limit ≤ 10000
  references : ∀ reference ∈ query.references, isBlank reference = false
  distinct : query.references.Nodup
  orderReferences : ∀ order ∈ query.orderBy, isBlank order.outputReference = false
  orderDistinct : (query.orderBy.map OrderBy.outputReference).Nodup
  filters : ∀ filter, query.filters = some filter → filter.WithinLimits

end Measures

section Walk

theorem validateReference_eq_ok {reference : String} {u : Unit} :
    validateReference reference = .ok u ↔ isBlank reference = false := by
  rw [validateReference, ensure_eq_ok, Bool.not_eq_true']

theorem validateLiteralValue_eq_ok {literal : Literal} {u : Unit} :
    validateLiteralValue literal = .ok u ↔ literal.isWellFormed = true := by
  rw [validateLiteralValue, ensure_eq_ok]

/-- The references are distinct from one another, and from those that were seen before. -/
theorem validateDistinct_eq_ok {duplicate : String → LsqError} {seen references : List String}
    {u : Unit} :
    validateDistinct duplicate seen references = .ok u ↔
      (∀ reference ∈ references, isBlank reference = false) ∧ references.Nodup ∧
        ∀ reference ∈ references, reference ∉ seen := by
  induction references generalizing seen with
  | nil => simp [validateDistinct]
  | cons reference references ih =>
    simp only [validateDistinct, bind_eq_ok, validateReference_eq_ok, ensure_eq_ok, exists_const,
      decide_eq_true_eq, ih, List.forall_mem_cons, List.nodup_cons]
    simp only [List.mem_cons, not_or]
    constructor
    · rintro ⟨hblank, hseen, hblanks, hdistinct, hothers⟩
      exact ⟨⟨hblank, hblanks⟩, ⟨fun hmem => (hothers reference hmem).1 rfl, hdistinct⟩, hseen,
        fun other hother => (hothers other hother).2⟩
    · rintro ⟨⟨hblank, hblanks⟩, ⟨hmem, hdistinct⟩, hseen, hothers⟩
      refine ⟨hblank, hseen, hblanks, hdistinct, fun other hother => ⟨?_, hothers other hother⟩⟩
      rintro rfl
      exact hmem hother

/-- The walk accepts a node within both limits that is well formed, and goes on below it. -/
theorem validateFilter_step {filter : Filter} {depth nodeCount total : Nat} :
    validateFilter filter depth nodeCount = .ok total ↔
      depth ≤ 16 ∧ nodeCount + 1 ≤ 128 ∧ filter.WellFormedNode ∧
        match filter with
        | .and args | .or args => validateFilters args (depth + 1) (nodeCount + 1) = .ok total
        | .not arg => validateFilter arg (depth + 1) (nodeCount + 1) = .ok total
        | _ => total = nodeCount + 1 := by
  by_cases hdepth : maxFilterDepth < depth
  · have hnot : ¬ depth ≤ 16 := by
      unfold maxFilterDepth at hdepth
      omega
    rw [validateFilter.eq_def]
    simp [hdepth, hnot]
  · by_cases hcount : maxFilterNodes < nodeCount + 1
    · have hnot : ¬ nodeCount + 1 ≤ 128 := by
        unfold maxFilterNodes at hcount
        omega
      rw [validateFilter.eq_def]
      simp [hdepth, hcount, hnot]
    · have hshallow : depth ≤ 16 := by
        unfold maxFilterDepth at hdepth
        omega
      have hfew : nodeCount + 1 ≤ 128 := by
        unfold maxFilterNodes at hcount
        omega
      rw [validateFilter.eq_def]
      simp only [if_neg hdepth, if_neg hcount]
      cases filter with
      | and args | or args =>
        cases args with
        | nil => simp [Filter.WellFormedNode]
        | cons arg args => simp [Filter.WellFormedNode, hshallow, hfew]
      | not arg => simp [Filter.WellFormedNode, hshallow, hfew]
      | comparison operator field value =>
        simp only [bind_eq_ok, validateReference_eq_ok, validateLiteralValue_eq_ok, exists_const,
          pure_eq_ok, Filter.WellFormedNode, hshallow, hfew, true_and, and_assoc,
          eq_comm (b := total)]
      | inList field values =>
        simp only [bind_eq_ok, validateReference_eq_ok, ensure_eq_ok, forEach_eq_ok,
          validateLiteralValue_eq_ok, exists_const, pure_eq_ok, Filter.WellFormedNode, hshallow,
          hfew, true_and, and_assoc, Bool.and_eq_true, decide_eq_true_eq, Bool.not_eq_true',
          List.isEmpty_eq_false_iff, ← List.length_pos_iff, eq_comm (b := total)]
        rfl
      | isNull field | isNotNull field =>
        simp only [bind_eq_ok, validateReference_eq_ok, exists_const, pure_eq_ok,
          Filter.WellFormedNode, hshallow, hfew, true_and, eq_comm (b := total)]

theorem validateFilters_cons {filter : Filter} {rest : List Filter} {depth nodeCount total : Nat} :
    validateFilters (filter :: rest) depth nodeCount = .ok total ↔
      ∃ count, validateFilter filter depth nodeCount = .ok count ∧
        validateFilters rest depth count = .ok total := by
  rw [validateFilters]
  cases validateFilter filter depth nodeCount <;> simp

mutual

/-- The walk succeeds exactly when the whole tree is within the limits, counted on from where it
starts, and then it has counted every node. -/
theorem validateFilter_ok_iff : ∀ (filter : Filter) {depth nodeCount total : Nat},
    validateFilter filter depth nodeCount = .ok total ↔
      depth + filter.depth ≤ 17 ∧ nodeCount + filter.nodes.length ≤ 128 ∧
        (∀ node ∈ filter.nodes, node.WellFormedNode) ∧
          total = nodeCount + filter.nodes.length
  | .and args, depth, nodeCount, total | .or args, depth, nodeCount, total => by
    rw [validateFilter_step, Filter.depth, Filter.nodes, List.forall_mem_cons, List.length_cons]
    constructor
    · rintro ⟨hdepth, hcount, hnode, hargs⟩
      obtain ⟨h₁, h₂, h₃, h₄⟩ :=
        (validateFilters_ok_iff args (by omega) (by omega)).mp hargs
      exact ⟨by omega, by omega, ⟨hnode, h₃⟩, by omega⟩
    · rintro ⟨hdepth, hcount, ⟨hnode, hnodes⟩, htotal⟩
      exact ⟨by omega, by omega, hnode, (validateFilters_ok_iff args (by omega) (by omega)).mpr
        ⟨by omega, by omega, hnodes, by omega⟩⟩
  | .not arg, depth, nodeCount, total => by
    rw [validateFilter_step, Filter.depth, Filter.nodes, List.forall_mem_cons, List.length_cons]
    show _ ∧ _ ∧ _ ∧ validateFilter arg (depth + 1) (nodeCount + 1) = .ok total ↔ _
    rw [validateFilter_ok_iff arg]
    constructor
    · rintro ⟨hdepth, hcount, hnode, h₁, h₂, h₃, h₄⟩
      exact ⟨by omega, by omega, ⟨hnode, h₃⟩, by omega⟩
    · rintro ⟨hdepth, hcount, ⟨hnode, hnodes⟩, htotal⟩
      exact ⟨by omega, by omega, hnode, by omega, by omega, hnodes, by omega⟩
  | .comparison .., _, _, _ | .inList .., _, _, _ | .isNull _, _, _, _ | .isNotNull _, _, _, _ => by
    rw [validateFilter_step, Filter.depth, Filter.nodes, List.forall_mem_singleton,
      List.length_singleton]
    exact and_congr_left' (by omega)

theorem validateFilters_ok_iff : ∀ (args : List Filter) {depth nodeCount total : Nat},
    depth ≤ 17 → nodeCount ≤ 128 →
    (validateFilters args depth nodeCount = .ok total ↔
      depth + Filter.depthEach args ≤ 17 ∧ nodeCount + (Filter.nodesEach args).length ≤ 128 ∧
        (∀ node ∈ Filter.nodesEach args, node.WellFormedNode) ∧
          total = nodeCount + (Filter.nodesEach args).length)
  | [], depth, nodeCount, total => by
    intro hdepth hcount
    simp [validateFilters, Filter.depthEach, Filter.nodesEach, hdepth, hcount, eq_comm]
  | filter :: rest, depth, nodeCount, total => by
    intro hdepth hcount
    rw [validateFilters_cons, Filter.depthEach, Filter.nodesEach, List.forall_mem_append,
      List.length_append]
    constructor
    · rintro ⟨count, hfilter, hrest⟩
      obtain ⟨h₁, h₂, h₃, h₄⟩ := (validateFilter_ok_iff filter).mp hfilter
      obtain ⟨h₅, h₆, h₇, h₈⟩ := (validateFilters_ok_iff rest hdepth (by omega)).mp hrest
      exact ⟨by omega, by omega, ⟨h₃, h₇⟩, by omega⟩
    · rintro ⟨hdepths, hcounts, ⟨hnodes, hothers⟩, htotal⟩
      exact ⟨nodeCount + filter.nodes.length,
        (validateFilter_ok_iff filter).mpr ⟨by omega, by omega, hnodes, rfl⟩,
        (validateFilters_ok_iff rest hdepth (by omega)).mpr
          ⟨by omega, by omega, hothers, by omega⟩⟩

end

end Walk

section Stack

/-- The walk of the arguments, one call for each of them. -/
def validateFiltersWith (call : Filter → Nat → Nat → Option (Except LsqError Nat)) :
    List Filter → Nat → Nat → Option (Except LsqError Nat)
  | [], _, nodeCount => some (.ok nodeCount)
  | filter :: rest, depth, nodeCount =>
    match call filter depth nodeCount with
    | some (.ok count) => validateFiltersWith call rest depth count
    | stopped => stopped

/-- The same walk on a stack of so many calls. It has no answer when the stack is too small. -/
def validateFilterWithin : Nat → Filter → Nat → Nat → Option (Except LsqError Nat)
  | 0, _, _, _ => none
  | calls + 1, filter, depth, nodeCount =>
    if maxFilterDepth < depth then some (.error .filterTooDeep)
    else if maxFilterNodes < nodeCount + 1 then some (.error .filterTooLarge)
    else
      match filter with
      | .and args | .or args =>
        if args.isEmpty then some (.error .emptyLogicalFilter)
        else validateFiltersWith (validateFilterWithin calls) args (depth + 1) (nodeCount + 1)
      | .not arg => validateFilterWithin calls arg (depth + 1) (nodeCount + 1)
      | leaf => some (validateFilter leaf depth nodeCount)

theorem validateFiltersWith_eq {call : Filter → Nat → Nat → Option (Except LsqError Nat)}
    {depth : Nat}
    (h : ∀ filter nodeCount, call filter depth nodeCount =
      some (validateFilter filter depth nodeCount)) (args : List Filter) (nodeCount : Nat) :
    validateFiltersWith call args depth nodeCount = some (validateFilters args depth nodeCount) := by
  induction args generalizing nodeCount with
  | nil => rfl
  | cons filter rest ih =>
    rw [validateFiltersWith, h, validateFilters]
    cases validateFilter filter depth nodeCount with
    | ok count => exact ih count
    | error error => rfl

/-- The deepest call is the one that finds the tree too deep, so a stack that reaches to it is large
enough for every tree. -/
theorem validateFilterWithin_eq {calls depth : Nat} (h : 18 ≤ depth + calls) (hdepth : depth ≤ 17)
    (filter : Filter) (nodeCount : Nat) :
    validateFilterWithin calls filter depth nodeCount =
      some (validateFilter filter depth nodeCount) := by
  induction calls generalizing depth filter nodeCount with
  | zero => omega
  | succ calls ih =>
    rw [validateFilterWithin.eq_def, validateFilter.eq_def]
    by_cases hdeep : maxFilterDepth < depth
    · simp only [if_pos hdeep]
    · by_cases hlarge : maxFilterNodes < nodeCount + 1
      · simp only [if_neg hdeep, if_pos hlarge]
      · have hbelow : depth + 1 ≤ 17 := by
          unfold maxFilterDepth at hdeep
          omega
        have hcalls := @ih (depth + 1) (by omega) hbelow
        simp only [if_neg hdeep, if_neg hlarge]
        cases filter with
        | and args | or args =>
          cases args with
          | nil => rfl
          | cons arg args => exact validateFiltersWith_eq hcalls (arg :: args) (nodeCount + 1)
        | not arg => exact hcalls arg (nodeCount + 1)
        | comparison operator field value | inList field values | isNull field | isNotNull field =>
          simp only [validateFilter, if_neg hdeep, if_neg hlarge]

end Stack

theorem validateLimit_iff (limit : Option Nat) :
    (limit.any fun limit => limit == 0 || decide (maxLimit < limit)) = false ↔
      ∀ value, limit = some value → 1 ≤ value ∧ value ≤ 10000 := by
  cases limit with
  | none => simp
  | some value =>
    simp only [Option.any_some, Bool.or_eq_false_iff, beq_eq_false_iff_ne,
      decide_eq_false_iff_not, Option.some.injEq, forall_eq']
    unfold maxLimit
    omega

/-- The filter of a query, if it has one. -/
theorem validateQueryFilter_ok_iff (filters : Option Filter) :
    (match filters with
      | some filter => (validateFilter filter 1 0).map fun _ => ()
      | none => .ok ()) = Except.ok () ↔
      ∀ filter, filters = some filter → filter.WithinLimits := by
  cases filters with
  | none => simp
  | some filter =>
    simp only [map_eq_ok, and_true, validateFilter_ok_iff, Option.some.injEq, forall_eq']
    constructor
    · rintro ⟨total, hdepth, hsize, hnodes, _⟩
      exact ⟨by omega, by omega, hnodes⟩
    · rintro ⟨hdepth, hsize, hnodes⟩
      exact ⟨_, by omega, by omega, hnodes, rfl⟩

/-- The checks accept exactly the queries within the documented limits, and the walk of a filter
needs no more than seventeen calls on the stack, whatever the filter. -/
theorem validateQuery_ok_iff (query : LogicalSemanticQuery) :
    (validateQuery query = .ok () ↔ query.WithinLimits) ∧
      ∀ filter, validateFilterWithin 17 filter 1 0 = some (validateFilter filter 1 0) := by
  refine ⟨?_, fun filter => validateFilterWithin_eq (by omega) (by omega) filter 0⟩
  have hversion : (query.schemaVersion == lsqSchemaVersion) = true ↔ query.schemaVersion = "1" :=
    beq_iff_eq
  have hprojection : (!(query.dimensions.isEmpty && query.metrics.isEmpty)) = true ↔
      query.dimensions ≠ [] ∨ query.metrics ≠ [] := by
    rw [Bool.not_eq_true', Bool.and_eq_false_iff, List.isEmpty_eq_false_iff,
      List.isEmpty_eq_false_iff]
  have hfilters := validateQueryFilter_ok_iff query.filters
  simp only [validateQuery, bind_eq_ok, ensure_eq_ok, exists_const, validateDistinct_eq_ok,
    validateLimit_iff, hversion, hprojection, Bool.not_eq_true']
  constructor
  · rintro ⟨h₁, h₂, h₃, h₄, ⟨h₅, h₆, _⟩, ⟨h₇, h₈, _⟩, h₉⟩
    exact ⟨h₁, h₂, h₃, h₄, h₅, h₆, List.forall_mem_map.mp h₇, h₈, hfilters.mp h₉⟩
  · rintro ⟨h₁, h₂, h₃, h₄, h₅, h₆, h₇, h₈, h₉⟩
    exact ⟨h₁, h₂, h₃, h₄, ⟨h₅, h₆, by simp⟩, ⟨List.forall_mem_map.mpr h₇, h₈, by simp⟩,
      hfilters.mpr h₉⟩

end Postgresem
