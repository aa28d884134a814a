import Postgresem.Compiler.Refinement
import Postgresem.Semantic.Evaluation

/-! Equality with a literal is written in three ways: as a comparison, as a list, and as a metric
filter. A list is validated like the disjunction of its comparisons; the three agree unless a date
is compared with an instant. -/
namespace Postgresem
open Control Relational Template Lexing

/-! ## Validation of a list and of its disjunction -/

/-- The list as a disjunction of comparisons. -/
def ResolvedFilter.disjoin : ResolvedFilter → ResolvedFilter
  | .inList field values => .or (values.map (.comparison .eq field))
  | filter => filter

def ValidatedQuery.disjoin (validated : ValidatedQuery) : ValidatedQuery :=
  { validated with filter := validated.filter.map ResolvedFilter.disjoin }

theorem recordRelationship_idem (field : Field) (names : List String) :
    recordRelationship field (recordRelationship field names) = recordRelationship field names := by
  unfold recordRelationship
  cases field.relationship with
  | none => rfl
  | some name =>
    have hmem : name ∈ OrderedSet.insert name names := OrderedSet.mem_insert.mpr (Or.inl rfl)
    exact if_pos hmem

/-- The tail of the disjunction repeats the lookup and records nothing new. -/
theorem resolveFilters_repeated {model : Model} {name : String} {field : Field}
    (hfield : visibleField model name = .ok field) (values : List Literal) (names : List String) :
    resolveFilters model (values.map (Filter.eq name)) (recordRelationship field names) =
      (forEach (validateLiteral field) values).map fun _ =>
        (values.map (.comparison .eq field), recordRelationship field names) := by
  induction values with
  | nil => rfl
  | cons value rest ih =>
    simp only [List.map_cons, resolveFilters, Filter.eq, resolveFilter, resolveComparison, hfield,
      ok_bind, forEach]
    cases validateLiteral field value with
    | error e => rfl
    | ok u =>
      simp only [ok_bind, pure_ok, recordRelationship_idem]
      rw [show resolveFilters model (rest.map (Filter.comparison .eq name))
        (recordRelationship field names) = _ from ih, map_bind]
      cases forEach (validateLiteral field) rest <;> rfl

theorem resolveFilter_disjoin (model : Model) (name : String) {values : List Literal}
    (hne : values ≠ []) (names : List String) :
    resolveFilter model (.or (values.map (Filter.eq name))) names =
      (resolveFilter model (.inList name values) names).map fun r => (r.1.disjoin, r.2) := by
  obtain ⟨value, rest, rfl⟩ := List.exists_cons_of_ne_nil hne
  simp only [resolveFilter, List.map_cons, resolveFilters, Filter.eq, resolveComparison, bind_map,
    bind_assoc]
  cases hfield : visibleField model name with
  | error e => rfl
  | ok field =>
    simp only [ok_bind, forEach]
    cases validateLiteral field value with
    | error e => rfl
    | ok u =>
      simp only [ok_bind, pure_ok]
      rw [show resolveFilters model (rest.map (Filter.comparison .eq name))
        (recordRelationship field names) = _ from resolveFilters_repeated hfield rest names, map_bind]
      cases forEach (validateLiteral field) rest <;> rfl

section Queries
variable (base : LogicalSemanticQuery) (name : String) (values : List Literal)

/-- The query with the list as its filter. -/
def withList : LogicalSemanticQuery := { base with filters := some (.inList name values) }

/-- The query with the disjunction of comparisons as its filter. -/
def withDisjunction : LogicalSemanticQuery :=
  { base with filters := some (.or (values.map (Filter.eq name))) }

theorem resolveQuery_disjoin (schemaVersion : String) (models : List Model) (model : Model)
    (hne : values ≠ []) (limit : Nat) :
    resolveQuery schemaVersion models model (withDisjunction base name values) limit =
      (resolveQuery schemaVersion models model (withList base name values) limit).map
        ValidatedQuery.disjoin := by
  unfold resolveQuery
  simp only [bind_map]
  refine bind_congr fun dimensions => ?_
  refine bind_congr fun metrics => ?_
  simp only [withList, withDisjunction, optionally, resolveFilter_disjoin model name hne, map_map',
    map_bind]
  refine bind_congr fun filter => ?_
  exact bind_congr fun _ => bind_congr fun relationships => bind_congr fun anchor => rfl

end Queries

theorem values_ne_nil {normalized : NormalizedLsq} {base : LogicalSemanticQuery} {name : String}
    {values : List Literal} (h : normalized.query = withList base name values) : values ≠ [] := by
  have hvalid := normalized.valid
  rw [h] at hvalid
  simp only [validateQuery, withList, bind_eq_ok, ensure_eq_ok, validateFilter, map_eq_ok] at hvalid
  obtain ⟨_, -, _, -, _, -, _, -, _, -, _, -, count, hfilter, -⟩ := hvalid
  rintro rfl
  rw [if_neg (by decide), if_neg (by decide)] at hfilter
  simp [bind_eq_ok] at hfilter

section Runs
variable {base : LogicalSemanticQuery} {name : String} {values : List Literal}
  {list disjunction : NormalizedLsq} (hlist : list.query = withList base name values)
  (hdisjunction : disjunction.query = withDisjunction base name values)
include hlist hdisjunction

theorem validate_disjoin (backend : HashBackend) (snapshot : SemanticSnapshot)
    (options : CompilerOptions) :
    validate backend disjunction snapshot options =
      (validate backend list snapshot options).map ValidatedQuery.disjoin := by
  unfold validate validateAgainst
  simp only [bind_map, hlist, hdisjunction]
  refine bind_congr fun _ => ?_
  refine bind_congr fun _ => ?_
  refine bind_congr fun model => ?_
  refine bind_congr fun _ => ?_
  exact resolveQuery_disjoin base name values _ _ _ (values_ne_nil hlist) _

omit hdisjunction in
theorem validated_filter {backend : HashBackend} {snapshot : SemanticSnapshot}
    {options : CompilerOptions} {validated : ValidatedQuery}
    (h : validate backend list snapshot options = .ok validated) :
    ∃ model field, snapshot.findModel list.query = some model ∧ validated.model = model ∧
      model.findField name = some field ∧ validated.filter = some (.inList field values) := by
  obtain ⟨model, hmodel, hresolved⟩ := validate_ok h
  obtain ⟨hfilter, hsome⟩ := hresolved.filter
  rw [hlist] at hfilter hsome
  simp only [withList, Option.bind_some, Filter.resolved] at hfilter hsome
  rw [Option.isSome_some, eq_comm, Option.isSome_iff_exists] at hsome
  obtain ⟨resolved, hvalidated⟩ := hsome
  rw [hvalidated, Option.map_eq_some_iff] at hfilter
  obtain ⟨field, hfield, rfl⟩ := hfilter
  exact ⟨model, field, hmodel, hresolved.model_eq, hfield, hvalidated⟩

end Runs

/-! ## Lowering of a list and of its disjunction -/

theorem lowerFilters_comparisons (model : Model) (names : List String) (field : Field)
    (values : List Literal) :
    lowerFilters model names (values.map (.comparison .eq field)) =
      (values.mapM (lowerOperand model field)).map
        (List.map (.compare .eq (lowerField names field))) := by
  induction values with
  | nil => rfl
  | cons value rest ih =>
    rw [List.map_cons, lowerFilters, lowerFilter, ih, List.mapM_cons, map_bind, bind_map]
    refine bind_congr fun operand => ?_
    rw [map_bind, bind_map]
    exact bind_congr fun operands => rfl

section Lowering
variable {validated : ValidatedQuery} {field : Field} {values : List Literal}
  (hfilter : validated.filter = some (.inList field values))
include hfilter

/-- The statement of the disjunction: the filter is another one, the rest is the same. -/
theorem lower_disjoin {statement : Sql.Query} (hlower : validated.lower = .ok statement) :
    validated.disjoin.lower =
      (values.mapM (lowerOperand validated.model field)).map fun operands =>
        { statement with
          body := { statement.body with
            filter := some (.or (operands.map
              (.compare .eq (lowerField validated.names field)))) } } := by
  simp only [ValidatedQuery.lower, bind_eq_ok, pure_eq_ok] at hlower
  obtain ⟨items, hitems, filter, -, rfl⟩ := hlower
  have hdims : validated.disjoin.lowerDimensions = .ok items := hitems
  have hdisjoined : lowerOptionalFilter validated.disjoin.model validated.disjoin.names
      validated.disjoin.filter = (values.mapM (lowerOperand validated.model field)).map
        fun operands => some (.or (operands.map
          (.compare .eq (lowerField validated.names field)))) := by
    simp only [ValidatedQuery.disjoin, hfilter, Option.map_some, ResolvedFilter.disjoin,
      lowerOptionalFilter, lowerFilter, lowerFilters_comparisons, map_map']
    rfl
  unfold ValidatedQuery.lower
  rw [hdims, ok_bind, hdisjoined, map_bind]
  cases values.mapM (lowerOperand validated.model field) <;> rfl

theorem lower_list {statement : Sql.Query} (hlower : validated.lower = .ok statement) :
    statement.body.filter = some (.inList (lowerField validated.names field)
      (values.map (.parameter field.dataType))) := by
  have hlowered := (lower_ok hlower).2.1
  rw [hfilter, lowerOptionalFilter, lowerFilter, map_ok, Except.ok.injEq] at hlowered
  exact hlowered.symm

/-- Where the disjunction compiles, so does the list. -/
theorem lower_list_of_disjoin {statement : Sql.Query}
    (hlower : validated.disjoin.lower = .ok statement) :
    ∃ listed, validated.lower = .ok listed := by
  simp only [ValidatedQuery.lower, bind_eq_ok, pure_eq_ok] at hlower
  obtain ⟨items, hitems, -⟩ := hlower
  have hdims : validated.lowerDimensions = .ok items := hitems
  unfold ValidatedQuery.lower
  rw [hdims, ok_bind, hfilter, lowerOptionalFilter, lowerFilter]
  exact ⟨_, rfl⟩

end Lowering

/-! ## Evaluation -/

/-- The truth of the `WHERE` clause that is sent to the server. -/
def filterTruth {V : Type} [DecidableEq V] (server : Sql.Server V) (statement : Sql.Query)
    (joined : Sql.Joined V) : Truth :=
  match statement.emitted.body.filter with
  | some predicate => predicate.eval server joined
  | none => some true

/-- A date literal against an instant is the same value in all three ways of writing it: the model
has a timezone, and in it the day starts when it does in UTC, the time zone of the session. -/
def ZoneAgrees {V : Type} [DecidableEq V] (server : Sql.Server V) (model : Model) (field : Field)
    (value : Literal) : Prop :=
  field.dataType = .timestampTz → ∀ day, value = .date day →
    ∃ zone, model.timezone = some zone ∧
      server.timezone zone (server.midnight value) = server.timezone "UTC" (server.midnight value)

/-- A date that is cast to `timestamptz` starts at midnight of the session's time zone. -/
def SessionUtc {V : Type} [DecidableEq V] (server : Sql.Server V) : Prop :=
  ∀ day, server.literal .timestampTz (.date day) =
    server.timezone "UTC" (server.midnight (.date day))

section Evaluation
variable {V : Type} [DecidableEq V] (server : Sql.Server V) {model : Model} {field : Field}

theorem zoneAgrees_iff (hsession : SessionUtc server) {value : Literal} :
    ZoneAgrees server model field value ↔
      comparedValue server model field value = some (server.literal field.dataType value) := by
  unfold ZoneAgrees comparedValue
  split
  next day htype =>
    constructor
    · intro h
      obtain ⟨zone, hzone, heq⟩ := h htype day rfl
      rw [hzone, Option.map_some, heq, htype, hsession]
    · intro h _ day' hday
      obtain ⟨zone, hzone, heq⟩ := Option.map_eq_some_iff.mp h
      exact ⟨zone, hzone, by rw [heq, htype, hsession]⟩
  next hother =>
    constructor
    · exact fun _ => rfl
    · intro _ htype day hday
      exact absurd hday (hother day htype)

theorem lowerOperand_reindent {value : Literal} {scalar : Sql.Scalar}
    (h : lowerOperand model field value = .ok scalar) : scalar.reindent = scalar := by
  unfold lowerOperand at h
  split at h
  · obtain ⟨zone, -, rfl⟩ := map_eq_ok.mp h
    rfl
  · cases h
    rfl

theorem reindentEach_compare (left : Sql.Scalar) (operands : List Sql.Scalar)
    (h : ∀ operand ∈ operands, operand.reindent = operand) :
    Sql.Predicate.reindentEach (operands.map (.compare .eq left)) =
      operands.map (.compare .eq left.reindent) := by
  induction operands with
  | nil => rfl
  | cons operand rest ih =>
    rw [List.map_cons, List.map_cons, Sql.Predicate.reindentEach, Sql.Predicate.reindent,
      h operand List.mem_cons_self, ih fun other ho => h other (List.mem_cons_of_mem _ ho)]

theorem evalEach_compare (joined : Sql.Joined V) (left : Sql.Scalar) (operands : List Sql.Scalar) :
    Sql.Predicate.evalEach server joined (operands.map (.compare .eq left)) =
      operands.map fun operand => Sql.compareCells server .eq (left.eval server joined)
        (operand.eval server joined) := by
  induction operands with
  | nil => rfl
  | cons operand rest ih =>
    rw [List.map_cons, List.map_cons, Sql.Predicate.evalEach, Sql.Predicate.eval, ih]

/-- On agreeing literals the disjunction has the truth value of the list, row by row. -/
theorem eval_disjunction (joined : Sql.Joined V) (left : Sql.Scalar) {values : List Literal}
    {operands : List Sql.Scalar}
    (hoperands : List.Forall₂ (fun value operand => lowerOperand model field value = .ok operand)
      values operands)
    (hagrees : ∀ value ∈ values,
      comparedValue server model field value = some (server.literal field.dataType value)) :
    (Sql.Predicate.inList left (values.map (.parameter field.dataType))).eval server joined =
      (Sql.Predicate.or (operands.map (.compare .eq left))).eval server joined := by
  rw [Sql.Predicate.eval, Sql.Predicate.eval, evalEach_compare, List.map_map]
  congr 1
  induction hoperands with
  | nil => rfl
  | cons hoperand _ ih =>
    rw [List.map_cons, List.map_cons, ih fun value hv => hagrees value (List.mem_cons_of_mem _ hv),
      eval_operand server model joined hoperand, hagrees _ List.mem_cons_self]
    rfl

/-- The metric filter and the comparison select the same rows exactly on an agreeing literal. -/
theorem passes_iff_agrees (names : List String) {value : Literal} {operand : Sql.Scalar}
    (hoperand : lowerOperand model field value = .ok operand) :
    (∀ joined, Sql.passes server (some (lowerCondition names (field, value))) joined =
      Sql.passes server (some (.compare .eq (lowerField names field) operand)) joined) ↔
      comparedValue server model field value = some (server.literal field.dataType value) := by
  constructor
  · intro h
    -- the row that holds the value as the metric filter reads it
    let row : Sql.Row V := fun _ => some (server.literal field.dataType value)
    have hrow := h [(slotOf names field, row)]
    have hcell : (lowerField names field).eval server [(slotOf names field, row)] =
        some (server.literal field.dataType value) := by
      simp [lowerField, Sql.Scalar.eval, Sql.Joined.cell, row]
    have hleft : Sql.passes server (some (lowerCondition names (field, value)))
        [(slotOf names field, row)] = true := by
      simp only [Sql.passes, lowerCondition, Sql.Predicate.eval, hcell, Sql.Scalar.eval,
        Sql.compareCells, server.compare_eq, decide_true]
      rfl
    rw [hleft] at hrow
    simp only [Sql.passes, Sql.Predicate.eval, hcell, eval_operand server model _ hoperand] at hrow
    cases hvalue : comparedValue server model field value with
    | none =>
      rw [hvalue] at hrow
      cases hrow
    | some other =>
      rw [hvalue] at hrow
      simp only [Sql.compareCells, server.compare_eq, Truth.holds] at hrow
      have heq : server.literal field.dataType value = other := by simpa using hrow.symm
      rw [heq]
  · intro h joined
    simp only [Sql.passes, lowerCondition, Sql.Predicate.eval, eval_operand server model _ hoperand,
      h, Sql.Scalar.eval]

end Evaluation

/-! ## The three ways of writing an equality -/

def Compiles (backend : CompilerBackend) (normalized : NormalizedLsq)
    (snapshot : SemanticSnapshot) (options : CompilerOptions) : Prop :=
  ∃ compiled, compileLsq backend normalized snapshot options = .ok compiled

theorem compiles_iff {backend : CompilerBackend}
    (hjson : ∀ parameters, (backend.parametersJson parameters).isSome)
    {normalized : NormalizedLsq} {snapshot : SemanticSnapshot} {options : CompilerOptions} :
    Compiles backend normalized snapshot options ↔
      ∃ validated statement,
        validate backend.toHashBackend normalized snapshot options = .ok validated ∧
          validated.lower = .ok statement := by
  constructor
  · rintro ⟨compiled, h⟩
    obtain ⟨validated, statement, hvalid, hlower, -⟩ := compileLsq_ok h
    exact ⟨validated, statement, hvalid, hlower⟩
  · rintro ⟨validated, statement, hvalid, hlower⟩
    obtain ⟨json, hsome⟩ := Option.isSome_iff_exists.mp (hjson (written statement).2.parameters)
    obtain ⟨compiled, h, -⟩ := compileLsq_of_lower hvalid hlower hsome
    exact ⟨compiled, h⟩

/-- A list, the disjunction of its comparisons and the metric filters on its literals agree. -/
structure EqualityAgrees {V : Type} [DecidableEq V] (server : Sql.Server V)
    (backend : CompilerBackend) (snapshot : SemanticSnapshot) (options : CompilerOptions)
    (name : String) (values : List Literal) (list disjunction : NormalizedLsq) : Prop where
  compiles : Compiles backend list snapshot options ↔ Compiles backend disjunction snapshot options
  truth : ∀ first second,
    (validate backend.toHashBackend list snapshot options >>= ValidatedQuery.lower) = .ok first →
    (validate backend.toHashBackend disjunction snapshot options >>= ValidatedQuery.lower) =
      .ok second →
    ∀ joined, filterTruth server first joined = filterTruth server second joined
  metric : ∀ validated, validate backend.toHashBackend list snapshot options = .ok validated →
    ∀ field, validated.model.findField name = some field → ∀ value ∈ values,
    ∀ metric : ResolvedMetric, metric.filter = some (field, value) → ∀ predicate,
    lowerFilter validated.model validated.names (.comparison .eq field value) = .ok predicate →
    ∀ joined, Sql.passes server (lowerMetric validated.names metric).condition joined =
      Sql.passes server (some predicate) joined

section Agreement
variable {V : Type} [DecidableEq V] (server : Sql.Server V) {model : Model} {field : Field}
  {values : List Literal}

/-- With agreeing values the timezone that a comparison asks for is there. -/
theorem operands_ok (hagrees : ∀ value ∈ values,
      comparedValue server model field value = some (server.literal field.dataType value)) :
    ∃ operands, values.mapM (lowerOperand model field) = .ok operands := by
  induction values with
  | nil => exact ⟨[], rfl⟩
  | cons value rest ih =>
    obtain ⟨operands, hrest⟩ := ih fun other ho => hagrees other (List.mem_cons_of_mem _ ho)
    have hvalue := hagrees value List.mem_cons_self
    have hoperand : ∃ operand, lowerOperand model field value = .ok operand := by
      unfold lowerOperand
      unfold comparedValue at hvalue
      split
      next day htype =>
        rw [htype] at hvalue
        obtain ⟨zone, hzone, -⟩ := Option.map_eq_some_iff.mp hvalue
        rw [hzone]
        exact ⟨_, rfl⟩
      next => exact ⟨_, rfl⟩
    obtain ⟨operand, hoperand⟩ := hoperand
    exact ⟨operand :: operands, by rw [List.mapM_cons, hoperand, hrest]; rfl⟩

theorem filterTruth_disjoin {validated : ValidatedQuery}
    (hfilter : validated.filter = some (.inList field values)) {first second : Sql.Query}
    (hfirst : validated.lower = .ok first) (hsecond : validated.disjoin.lower = .ok second)
    (hagrees : ∀ value ∈ values, comparedValue server validated.model field value =
      some (server.literal field.dataType value)) (joined : Sql.Joined V) :
    filterTruth server first joined = filterTruth server second joined := by
  rw [lower_disjoin hfilter hfirst, map_eq_ok] at hsecond
  obtain ⟨operands, hoperands, rfl⟩ := hsecond
  rw [mapM_eq_ok_iff] at hoperands
  have hlist := lower_list hfilter hfirst
  have hself : ∀ operand ∈ operands, operand.reindent = operand := by
    intro operand ho
    obtain ⟨value, -, hvalue⟩ := exists_left_of_forall₂ hoperands ho
    exact lowerOperand_reindent hvalue
  unfold filterTruth Sql.Query.emitted
  cases first.anchor with
  | none =>
    simp only [hlist]
    exact eval_disjunction server joined _ hoperands hagrees
  | some anchor =>
    simp only [Sql.Body.reindent, hlist, Option.map_some, Sql.Predicate.reindent,
      reindentEach_compare _ operands hself, List.map_map]
    exact eval_disjunction server joined _ hoperands hagrees

end Agreement

/-- A list compiles whenever the disjunction does; the three ways of writing an equality agree
exactly when every date that is compared with an instant starts in UTC and in the timezone of the
model at once. -/
theorem equality_agrees_iff {backend : CompilerBackend}
    (hjson : ∀ parameters, (backend.parametersJson parameters).isSome)
    {snapshot : SemanticSnapshot} {options : CompilerOptions} {base : LogicalSemanticQuery}
    {name : String} {values : List Literal} {list disjunction : NormalizedLsq}
    (hlist : list.query = withList base name values)
    (hdisjunction : disjunction.query = withDisjunction base name values)
    {V : Type} [DecidableEq V] {server : Sql.Server V} (hsession : SessionUtc server) :
    (Compiles backend disjunction snapshot options → Compiles backend list snapshot options) ∧
    (Compiles backend list snapshot options → ∃ model field,
      snapshot.findModel list.query = some model ∧ model.findField name = some field ∧
      (EqualityAgrees server backend snapshot options name values list disjunction ↔
        ∀ value ∈ values, ZoneAgrees server model field value)) := by
  have hdisjoin := validate_disjoin hlist hdisjunction backend.toHashBackend snapshot options
  have hback : Compiles backend disjunction snapshot options →
      Compiles backend list snapshot options := by
    rw [compiles_iff hjson, compiles_iff hjson]
    rintro ⟨validated, statement, hvalid, hlower⟩
    rw [hdisjoin, map_eq_ok] at hvalid
    obtain ⟨listed, hlisted, rfl⟩ := hvalid
    obtain ⟨model, field, -, -, -, hfilter⟩ := validated_filter hlist hlisted
    obtain ⟨first, hfirst⟩ := lower_list_of_disjoin hfilter hlower
    exact ⟨listed, first, hlisted, hfirst⟩
  refine ⟨hback, ?_⟩
  intro hcompiles
  obtain ⟨validated, first, hvalid, hfirst⟩ := (compiles_iff hjson).mp hcompiles
  obtain ⟨model, field, hmodel, rfl, hfield, hfilter⟩ := validated_filter hlist hvalid
  refine ⟨validated.model, field, hmodel, hfield, ?_⟩
  have hvalid' : validate backend.toHashBackend disjunction snapshot options =
      .ok validated.disjoin := by
    rw [hdisjoin, hvalid]
    rfl
  constructor
  · intro hagrees value hv
    -- the disjunction compiles as well, so every operand exists
    obtain ⟨other, second, hother, hsecond⟩ :=
      (compiles_iff hjson).mp (hagrees.compiles.mp hcompiles)
    rw [hvalid', Except.ok.injEq] at hother
    subst hother
    rw [lower_disjoin hfilter hfirst, map_eq_ok] at hsecond
    obtain ⟨operands, hoperands, -⟩ := hsecond
    obtain ⟨operand, -, hoperand⟩ :=
      exists_right_of_forall₂ (mapM_eq_ok_iff.mp hoperands) hv
    rw [zoneAgrees_iff server hsession, ← passes_iff_agrees server validated.names hoperand]
    intro joined
    have hfilterEq : lowerFilter validated.model validated.names (.comparison .eq field value) =
        .ok (.compare .eq (lowerField validated.names field) operand) := by
      rw [lowerFilter, hoperand]
      rfl
    let metric : ResolvedMetric :=
      { metric := { semanticName := "", dataType := .integer, aggregation := .count, field := "" }
        field := field
        filter := some (field, value)
        aggregationAnchor := none }
    exact hagrees.metric validated hvalid field hfield value hv metric rfl _ hfilterEq joined
  · intro hzones
    have hvalues : ∀ value ∈ values, comparedValue server validated.model field value =
        some (server.literal field.dataType value) := fun value hv =>
      (zoneAgrees_iff server hsession).mp (hzones value hv)
    refine ⟨⟨?_, hback⟩, ?_, ?_⟩
    · intro _
      obtain ⟨operands, hoperands⟩ := operands_ok server hvalues
      have hlowered := lower_disjoin hfilter hfirst
      rw [hoperands, map_ok] at hlowered
      exact (compiles_iff hjson).mpr ⟨validated.disjoin, _, hvalid', hlowered⟩
    · intro listed disjoined hlisted hdisjoined joined
      rw [hvalid, ok_bind] at hlisted
      rw [hvalid', ok_bind] at hdisjoined
      exact filterTruth_disjoin server hfilter hlisted hdisjoined hvalues joined
    · intro other hother field' hfield' value hv metric hmetric predicate hpredicate joined
      rw [hvalid, Except.ok.injEq] at hother
      subst hother
      rw [hfield, Option.some.injEq] at hfield'
      subst hfield'
      rw [lowerFilter, map_eq_ok] at hpredicate
      obtain ⟨operand, hoperand, rfl⟩ := hpredicate
      have hpasses := (passes_iff_agrees server validated.names hoperand).mpr
        (hvalues value hv) joined
      rw [← hpasses, lowerMetric, hmetric]
      rfl

/-! A model in Tokyo with an instant. -/

def tokyoSnapshot : SemanticSnapshot :=
  { schemaVersion := "2"
    revisionHash := "sha256:cd57d894c16b95386ba737f60b4daf7275a0c298392710cdc55a7a364f0ab584"
    models :=
      [{ semanticName := "orders"
         source := ⟨"commerce", "orders"⟩
         timezone := some "Asia/Tokyo"
         fields :=
          [{ semanticName := "id", dataType := .integer, column := "id", entityKey := true },
           { semanticName := "created", dataType := .timestampTz, column := "created" }]
         metrics :=
          [{ semanticName := "orders", dataType := .integer, aggregation := .count, field := "id",
             additivity := some .additive, aggregationAnchor := some "id" }] }] }

theorem tokyoSnapshot_checked : checkSnapshot standardHash tokyoSnapshot = .ok () := by
  apply checkSnapshot_of_published (by decide)
  apply published_of_codes
  decide +kernel

def ordersBase : LogicalSemanticQuery := { model := "orders", metrics := [{ metric := "orders" }] }

theorem literalServer_session : SessionUtc Sql.literalServer := fun _ => rfl

/-- Timestamps carry their own offset, so the three ways of writing the equality agree. -/
theorem timestamp_equality_agrees :
    ∃ list disjunction : NormalizedLsq,
      list.query = withList ordersBase "created" [.timestamp "2026-01-01T00:00:00Z"] ∧
      disjunction.query = withDisjunction ordersBase "created" [.timestamp "2026-01-01T00:00:00Z"] ∧
      Compiles standardBackend list tokyoSnapshot {} ∧
      EqualityAgrees Sql.literalServer standardBackend tokyoSnapshot {} "created"
        [.timestamp "2026-01-01T00:00:00Z"] list disjunction := by
  let list := (withList ordersBase "created" [.timestamp "2026-01-01T00:00:00Z"]).normalize
    standardHash (by decide)
  let disjunction := (withDisjunction ordersBase "created"
    [.timestamp "2026-01-01T00:00:00Z"]).normalize standardHash (by decide)
  have hlower : succeedsWith (validateAgainst list tokyoSnapshot {} >>= ValidatedQuery.lower)
      (fun _ => true) = true := by decide +kernel
  obtain ⟨_, hstatement, -⟩ := exists_ok_of_succeedsWith hlower
  obtain ⟨compiled, hcompiled, -⟩ := compileLsq_standard tokyoSnapshot_checked hstatement
  have hlist : list.query = withList ordersBase "created" [.timestamp "2026-01-01T00:00:00Z"] := rfl
  have hdisjunction : disjunction.query =
      withDisjunction ordersBase "created" [.timestamp "2026-01-01T00:00:00Z"] := rfl
  have hjson : ∀ parameters, (standardBackend.parametersJson parameters).isSome := fun _ => rfl
  obtain ⟨-, hagrees⟩ := equality_agrees_iff hjson hlist hdisjunction literalServer_session
  obtain ⟨model, field, -, -, hiff⟩ := hagrees ⟨compiled, hcompiled⟩
  refine ⟨list, disjunction, rfl, rfl, ⟨compiled, hcompiled⟩, hiff.mpr ?_⟩
  intro value hv _ day hday
  rw [List.mem_singleton] at hv
  rw [hv] at hday
  cases hday

/-- The row at midnight of Tokyo is found by the comparison and not by the list. -/
theorem date_list_disagrees :
    ∃ (list disjunction : NormalizedLsq) (first second : Sql.Query),
      list.query = withList ordersBase "created" [.date "2026-01-01"] ∧
      disjunction.query = withDisjunction ordersBase "created" [.date "2026-01-01"] ∧
      Compiles standardBackend list tokyoSnapshot {} ∧
      Compiles standardBackend disjunction tokyoSnapshot {} ∧
      (validateAgainst list tokyoSnapshot {} >>= ValidatedQuery.lower) = .ok first ∧
      (validateAgainst disjunction tokyoSnapshot {} >>= ValidatedQuery.lower) = .ok second ∧
      filterTruth Sql.literalServer first
          [(0, fun _ => some (.timestamp "2026-01-01T00:00:00+09:00"))] = some false ∧
      filterTruth Sql.literalServer second
          [(0, fun _ => some (.timestamp "2026-01-01T00:00:00+09:00"))] = some true := by
  let list := (withList ordersBase "created" [.date "2026-01-01"]).normalize standardHash (by decide)
  let disjunction := (withDisjunction ordersBase "created" [.date "2026-01-01"]).normalize
    standardHash (by decide)
  have hfirst : succeedsWith (validateAgainst list tokyoSnapshot {} >>= ValidatedQuery.lower)
      (fun statement => decide (filterTruth Sql.literalServer statement
        [(0, fun _ => some (.timestamp "2026-01-01T00:00:00+09:00"))] = some false)) = true := by
    decide +kernel
  have hsecond : succeedsWith (validateAgainst disjunction tokyoSnapshot {} >>=
      ValidatedQuery.lower) (fun statement => decide (filterTruth Sql.literalServer statement
        [(0, fun _ => some (.timestamp "2026-01-01T00:00:00+09:00"))] = some true)) = true := by
    decide +kernel
  obtain ⟨first, hlist, htruth⟩ := exists_ok_of_succeedsWith hfirst
  obtain ⟨second, hdisjunction, htruth'⟩ := exists_ok_of_succeedsWith hsecond
  obtain ⟨compiled, hcompiled, -⟩ := compileLsq_standard tokyoSnapshot_checked hlist
  obtain ⟨compiled', hcompiled', -⟩ := compileLsq_standard tokyoSnapshot_checked hdisjunction
  exact ⟨list, disjunction, first, second, rfl, rfl, ⟨compiled, hcompiled⟩,
    ⟨compiled', hcompiled'⟩, hlist, hdisjunction, of_decide_eq_true htruth,
    of_decide_eq_true htruth'⟩

end Postgresem
