import Postgresem.Query.Decoding
import Postgresem.Query.Limits
import Postgresem.Semantic.Serialization

/-! The canonical text of a query is a query, and it is its own canonical text. -/
namespace Postgresem
open Json (Value field fieldOr listOf)
open Control

section Values

def TimeGrain.toValue : TimeGrain → Value
  | .day => .string "day"
  | .week => .string "week"
  | .month => .string "month"
  | .quarter => .string "quarter"
  | .year => .string "year"

def SortDirection.toValue : SortDirection → Value
  | .asc => .string "asc"
  | .desc => .string "desc"

def Dimension.toValue (dimension : Dimension) : Value :=
  .object [("field", .string dimension.field),
    ("time_grain", nullableValue TimeGrain.toValue dimension.timeGrain)]

def MetricReference.toValue (reference : MetricReference) : Value :=
  .object [("metric", .string reference.metric)]

def OrderBy.toValue (orderBy : OrderBy) : Value :=
  .object [("ref", .string orderBy.outputReference), ("direction", orderBy.direction.toValue)]

def ComparisonOperator.toValue : ComparisonOperator → Value
  | .eq => .string "eq"
  | .notEq => .string "not_eq"
  | .gt => .string "gt"
  | .gte => .string "gte"
  | .lt => .string "lt"
  | .lte => .string "lte"

mutual

def Filter.toValue : Filter → Value
  | .and args => .object [("op", .string "and"), ("args", .array (Filter.toValues args))]
  | .or args => .object [("op", .string "or"), ("args", .array (Filter.toValues args))]
  | .not arg => .object [("op", .string "not"), ("arg", arg.toValue)]
  | .comparison operator field value =>
    .object [("op", operator.toValue), ("field", .string field), ("value", value.toValue)]
  | .inList field values =>
    .object [("op", .string "in"), ("field", .string field),
      ("values", .array (values.map Literal.toValue))]
  | .isNull field => .object [("op", .string "is_null"), ("field", .string field)]
  | .isNotNull field => .object [("op", .string "is_not_null"), ("field", .string field)]

def Filter.toValues : List Filter → List Value
  | [] => []
  | filter :: rest => filter.toValue :: Filter.toValues rest

end

def LogicalSemanticQuery.toValue (query : LogicalSemanticQuery) : Value :=
  .object [("schema_version", .string query.schemaVersion), ("model", .string query.model),
    ("dimensions", .array (query.dimensions.map Dimension.toValue)),
    ("metrics", .array (query.metrics.map MetricReference.toValue)),
    ("filters", nullableValue Filter.toValue query.filters),
    ("order_by", .array (query.orderBy.map OrderBy.toValue)),
    ("limit", nullableValue (fun limit : Nat => .number (toString limit)) query.limit)]

end Values

section Induction

mutual

/-- An induction on a filter whose hypothesis is about each of the filters directly below. -/
theorem Filter.inductionOn {P : Filter → Prop}
    (and : ∀ args, (∀ arg ∈ args, P arg) → P (.and args))
    (or : ∀ args, (∀ arg ∈ args, P arg) → P (.or args))
    (not : ∀ arg, P arg → P (.not arg))
    (comparison : ∀ operator field value, P (.comparison operator field value))
    (inList : ∀ field values, P (.inList field values))
    (isNull : ∀ field, P (.isNull field))
    (isNotNull : ∀ field, P (.isNotNull field)) : ∀ filter, P filter
  | .and args => and args (Filter.inductionEach and or not comparison inList isNull isNotNull args)
  | .or args => or args (Filter.inductionEach and or not comparison inList isNull isNotNull args)
  | .not arg => not arg (Filter.inductionOn and or not comparison inList isNull isNotNull arg)
  | .comparison operator field value => comparison operator field value
  | .inList field values => inList field values
  | .isNull field => isNull field
  | .isNotNull field => isNotNull field

theorem Filter.inductionEach {P : Filter → Prop}
    (and : ∀ args, (∀ arg ∈ args, P arg) → P (.and args))
    (or : ∀ args, (∀ arg ∈ args, P arg) → P (.or args))
    (not : ∀ arg, P arg → P (.not arg))
    (comparison : ∀ operator field value, P (.comparison operator field value))
    (inList : ∀ field values, P (.inList field values))
    (isNull : ∀ field, P (.isNull field))
    (isNotNull : ∀ field, P (.isNotNull field)) : ∀ args : List Filter, ∀ arg ∈ args, P arg
  | [] => by simp
  | filter :: rest => List.forall_mem_cons.mpr
      ⟨Filter.inductionOn and or not comparison inList isNull isNotNull filter,
        Filter.inductionEach and or not comparison inList isNull isNotNull rest⟩

end

theorem Filter.toValues_eq (args : List Filter) : Filter.toValues args = args.map Filter.toValue := by
  induction args with
  | nil => rfl
  | cons filter rest ih => rw [Filter.toValues, ih, List.map_cons]

theorem Filter.jsonEach_eq (args : List Filter) : Filter.jsonEach args = args.map Filter.json := by
  induction args with
  | nil => rfl
  | cons filter rest ih => rw [Filter.jsonEach, ih, List.map_cons]

theorem Filter.depth_le_depthEach {args : List Filter} {arg : Filter} (h : arg ∈ args) :
    arg.depth ≤ Filter.depthEach args := by
  induction args with
  | nil => cases h
  | cons filter rest ih =>
    rw [Filter.depthEach]
    cases h with
    | head => exact Nat.le_max_left _ _
    | tail _ h => exact (ih h).trans (Nat.le_max_right _ _)

end Induction

section Text

theorem Filter.toValue_text (filter : Filter) : filter.toValue.text = filter.json := by
  induction filter using Filter.inductionOn with
  | and args ih | or args ih =>
    have hargs : Json.Value.texts (Filter.toValues args) = Filter.jsonEach args := by
      rw [Filter.toValues_eq, Filter.jsonEach_eq, Value.texts_map]
      exact List.map_congr_left ih
    rw [Filter.json, ← hargs]
    rfl
  | not arg ih =>
    rw [Filter.json, ← ih]
    rfl
  | comparison operator field value =>
    rw [Filter.json, ← value.toValue_text]
    cases operator <;> rfl
  | inList field values =>
    rw [Filter.json, ← array_text Literal.toValue_text]
    rfl
  | isNull field | isNotNull field => rfl

theorem LogicalSemanticQuery.toValue_text (query : LogicalSemanticQuery) :
    query.toValue.text = query.json := by
  have hgrain (grain : TimeGrain) : grain.toValue.text = grain.json := by cases grain <;> rfl
  have hdimension (dimension : Dimension) : dimension.toValue.text = dimension.json := by
    rw [Dimension.json, ← nullableValue_text hgrain]
    rfl
  have hmetric (reference : MetricReference) : reference.toValue.text = reference.json := rfl
  have horder (orderBy : OrderBy) : orderBy.toValue.text = orderBy.json := by
    obtain ⟨reference, direction⟩ := orderBy
    cases direction <;> rfl
  have hlimit (limit : Nat) : (Value.number (toString limit)).text = toString limit := rfl
  rw [LogicalSemanticQuery.json, ← array_text hdimension, ← array_text hmetric,
    ← nullableValue_text Filter.toValue_text, ← array_text horder, ← nullableValue_text hlimit]
  rfl

end Text

section Range

/-- The integers of a document are of 64 bits. -/
def Literal.InRange : Literal → Prop
  | .integer value => -2 ^ 63 ≤ value ∧ value < 2 ^ 63
  | _ => True

mutual

def Filter.InRange : Filter → Prop
  | .and args | .or args => Filter.EachInRange args
  | .not arg => arg.InRange
  | .comparison _ _ value => value.InRange
  | .inList _ values => ∀ value ∈ values, value.InRange
  | .isNull _ | .isNotNull _ => True

def Filter.EachInRange : List Filter → Prop
  | [] => True
  | filter :: rest => filter.InRange ∧ Filter.EachInRange rest

end

def LogicalSemanticQuery.InRange (query : LogicalSemanticQuery) : Prop :=
  ∀ filter ∈ query.filters, filter.InRange

theorem Filter.eachInRange_iff {args : List Filter} :
    Filter.EachInRange args ↔ ∀ arg ∈ args, arg.InRange := by
  induction args with
  | nil => simp [Filter.EachInRange]
  | cons filter rest ih => rw [Filter.EachInRange, ih, List.forall_mem_cons]

theorem decodePayload_inRange {typeName : String} {value : Value} {literal : Literal}
    (h : decodePayload typeName value = some literal) : literal.InRange := by
  unfold decodePayload at h
  split at h
  case h_3 =>
    obtain ⟨number, hnumber, rfl⟩ := Option.map_eq_some_iff.mp h
    cases value with
    | number text => exact (Json.asI64_eq_some.mp hnumber).2
    | _ => cases hnumber
  case h_7 => cases h
  all_goals
    obtain ⟨payload, _, rfl⟩ := Option.map_eq_some_iff.mp h
    trivial

theorem decodeLiteral_inRange {value : Value} {literal : Literal}
    (h : decodeLiteral value = some literal) : literal.InRange := by
  simp only [decodeLiteral, Option.bind_eq_bind, Option.bind_eq_some_iff] at h
  obtain ⟨members, _, typeName, _, hpayload⟩ := h
  obtain ⟨content, hcontent⟩ := Json.exists_of_field hpayload
  exact decodePayload_inRange hcontent

theorem decodeFilter_inRange {depth : Nat} {nested : Bool} {value : Value} {filter : Filter}
    (h : decodeFilter depth nested value = some filter) : filter.InRange := by
  induction depth generalizing nested value filter with
  | zero => cases h
  | succ depth ih =>
    simp only [decodeFilter, Option.bind_eq_bind, Option.bind_eq_some_iff, Prod.exists] at h
    obtain ⟨tag, rest, _, op, _, h⟩ := h
    cases op with
    | and | or =>
      simp only [decodeFilterFields, Option.bind_eq_bind, Option.bind_eq_some_iff,
        Option.some.injEq] at h
      obtain ⟨members, _, args, hargs, rfl⟩ := h
      obtain ⟨items, hitems⟩ := Json.exists_of_field hargs
      exact Filter.eachInRange_iff.mpr (Json.forall_of_listOf hitems fun _ _ harg => ih harg)
    | not =>
      simp only [decodeFilterFields, Option.bind_eq_bind, Option.bind_eq_some_iff,
        Option.some.injEq] at h
      obtain ⟨members, _, arg, harg, rfl⟩ := h
      obtain ⟨item, hitem⟩ := Json.exists_of_field harg
      show arg.InRange
      exact ih hitem
    | comparison operator =>
      simp only [decodeFilterFields, Option.bind_eq_bind, Option.bind_eq_some_iff,
        Option.some.injEq] at h
      obtain ⟨members, _, name, _, literal, hliteral, rfl⟩ := h
      obtain ⟨item, hitem⟩ := Json.exists_of_field hliteral
      exact decodeLiteral_inRange hitem
    | inList =>
      simp only [decodeFilterFields, Option.bind_eq_bind, Option.bind_eq_some_iff,
        Option.some.injEq] at h
      obtain ⟨members, _, name, _, literals, hliterals, rfl⟩ := h
      obtain ⟨items, hitems⟩ := Json.exists_of_field hliterals
      exact Json.forall_of_listOf hitems fun _ _ hliteral => decodeLiteral_inRange hliteral
    | isNull | isNotNull =>
      simp only [decodeFilterFields, Option.bind_eq_bind, Option.bind_eq_some_iff,
        Option.some.injEq] at h
      obtain ⟨members, _, name, _, rfl⟩ := h
      trivial

theorem parseQuery_inRange {finite : String → Bool} {input : List UInt8}
    {query : LogicalSemanticQuery} (h : parseQuery finite input = some query) : query.InRange := by
  simp only [parseQuery, Option.bind_eq_bind, Option.bind_eq_some_iff] at h
  obtain ⟨value, _, h⟩ := h
  split at h
  next =>
    simp only [decodeQuery, Option.bind_eq_bind, Option.bind_eq_some_iff, Option.some.injEq] at h
    obtain ⟨members, _, version, _, model, _, dimensions, _, metrics, _, filters, hfilters, orderBy,
      _, limit, _, rfl⟩ := h
    rintro filter (rfl : filters = some filter)
    rcases Json.exists_of_fieldOr hfilters with hnone | ⟨found, hfound⟩
    · cases hnone
    · exact decodeFilter_inRange (Json.decode_of_orNull hfound)
  next => cases h

end Range

section RoundTrip

theorem orNull_nullableValue {α : Type} {write : α → Value} {decode : Value → Option α}
    {value : Option α} (hnull : ∀ a, Json.isNull (write a) = false)
    (h : ∀ a, value = some a → decode (write a) = some a) :
    Json.orNull decode (nullableValue write value) = some value := by
  cases value with
  | none => rfl
  | some a =>
    have hread := h a rfl
    show Json.orNull decode (write a) = _
    rw [Json.orNull_of_isNull_eq_false (hnull a), hread]
    rfl

theorem Filter.isNull_toValue (filter : Filter) : Json.isNull filter.toValue = false := by
  cases filter <;> rfl

theorem decodeDimension_toValue (dimension : Dimension) :
    decodeDimension dimension.toValue = some dimension := by
  obtain ⟨name, timeGrain⟩ := dimension
  cases timeGrain with
  | none => rfl
  | some grain => cases grain <;> rfl

theorem decodeMetricReference_toValue (reference : MetricReference) :
    decodeMetricReference reference.toValue = some reference := rfl

theorem decodeOrderBy_toValue (orderBy : OrderBy) :
    decodeOrderBy orderBy.toValue = some orderBy := by
  obtain ⟨reference, direction⟩ := orderBy
  cases direction <;> rfl

theorem decodeLiteral_toValue {literal : Literal} (h : literal.InRange) :
    decodeLiteral literal.toValue = some literal := by
  cases literal with
  | integer value =>
    have hread : Json.asI64 (toString value) = some value :=
      Json.asI64_eq_some.mpr ⟨Json.integerOf_toString value, h⟩
    show (Json.asI64 (toString value)).map Literal.integer = _
    rw [hread]
    rfl
  | _ => rfl

theorem decodeFilter_toValue {filter : Filter} (h : filter.InRange) {depth : Nat}
    (hdepth : filter.depth ≤ depth) (nested : Bool) :
    decodeFilter depth nested filter.toValue = some filter := by
  induction depth generalizing filter nested with
  | zero => cases filter <;> simp [Filter.depth] at hdepth
  | succ depth ih =>
    cases filter with
    | and args | or args =>
      have hargs : listOf (decodeFilter depth true) (.array (Filter.toValues args)) = some args := by
        rw [Filter.toValues_eq]
        refine Json.listOf_map fun arg harg => ih (Filter.eachInRange_iff.mp h arg harg) ?_ true
        exact (Filter.depth_le_depthEach harg).trans (Nat.le_of_succ_le_succ hdepth)
      show (listOf (decodeFilter depth true) (.array (Filter.toValues args))).bind _ = _
      rw [hargs]
      rfl
    | not arg =>
      have harg : arg.InRange := h
      have hbelow : arg.depth ≤ depth := Nat.le_of_succ_le_succ hdepth
      show (decodeFilter depth true arg.toValue).bind _ = _
      rw [ih harg hbelow]
      rfl
    | comparison operator name value =>
      have hop : decodeFilterOp nested operator.toValue = some (.comparison operator) := by
        cases operator <;> rfl
      show (decodeFilterOp nested operator.toValue).bind _ = _
      rw [hop]
      show (decodeLiteral value.toValue).bind _ = _
      rw [decodeLiteral_toValue h]
      rfl
    | inList name values =>
      show (listOf decodeLiteral (.array (values.map Literal.toValue))).bind _ = _
      rw [Json.listOf_map fun value hvalue => decodeLiteral_toValue (h value hvalue)]
      rfl
    | isNull name | isNotNull name => rfl

theorem decodeQuery_toValue {query : LogicalSemanticQuery} (h : query.InRange)
    (hlimits : query.WithinLimits) : decodeQuery query.toValue = some query := by
  obtain ⟨version, model, dimensions, metrics, filters, orderBy, limit⟩ := query
  have hdimensions : listOf decodeDimension (.array (dimensions.map Dimension.toValue)) =
      some dimensions := Json.listOf_map fun dimension _ => decodeDimension_toValue dimension
  have hmetrics : listOf decodeMetricReference (.array (metrics.map MetricReference.toValue)) =
      some metrics := Json.listOf_map fun reference _ => decodeMetricReference_toValue reference
  have hfilters : Json.orNull (decodeFilter Json.maxDepth false)
      (nullableValue Filter.toValue filters) = some filters :=
    orNull_nullableValue Filter.isNull_toValue fun filter hfilter =>
      decodeFilter_toValue (h filter hfilter)
        ((hlimits.filters filter hfilter).depth.trans (by decide)) false
  have horder : listOf decodeOrderBy (.array (orderBy.map OrderBy.toValue)) = some orderBy :=
    Json.listOf_map fun order _ => decodeOrderBy_toValue order
  have hlimit : Json.orNull Json.asNatural
      (nullableValue (fun limit : Nat => .number (toString limit)) limit) = some limit :=
    orNull_nullableValue (fun _ => rfl) fun value hvalue =>
      Json.asU32_toString (((hlimits.limit value hvalue).2).trans_lt (by decide))
  show (listOf decodeDimension (.array (dimensions.map Dimension.toValue))).bind _ = _
  rw [hdimensions]
  show (listOf decodeMetricReference (.array (metrics.map MetricReference.toValue))).bind _ = _
  rw [hmetrics]
  show (Json.orNull (decodeFilter Json.maxDepth false)
    (nullableValue Filter.toValue filters)).bind _ = _
  rw [hfilters]
  show (listOf decodeOrderBy (.array (orderBy.map OrderBy.toValue))).bind _ = _
  rw [horder]
  show (Json.orNull Json.asNatural (nullableValue _ limit)).bind _ = _
  rw [hlimit]
  rfl

end RoundTrip

section Readable
/-! The text of a query is read: its numbers are numbers and are in range, and it is not nested deeper
than the reader goes. -/

theorem Filter.toValue_wellFormed (filter : Filter) : filter.toValue.WellFormed := by
  induction filter using Filter.inductionOn with
  | and args ih | or args ih =>
    refine ⟨trivial, Value.eachWellFormed_iff.mpr ?_, trivial⟩
    rw [Filter.toValues_eq]
    exact List.forall_mem_map.mpr ih
  | not arg ih => exact ⟨trivial, ih, trivial⟩
  | comparison operator name value =>
    refine ⟨?_, trivial, value.toValue_wellFormed, trivial⟩
    cases operator <;> trivial
  | inList name values =>
    exact ⟨trivial, trivial, eachWellFormed_map Literal.toValue_wellFormed values, trivial⟩
  | isNull name | isNotNull name => exact ⟨trivial, trivial, trivial⟩

theorem LogicalSemanticQuery.toValue_wellFormed (query : LogicalSemanticQuery) :
    query.toValue.WellFormed := by
  have hgrain (grain : TimeGrain) : grain.toValue.WellFormed := by cases grain <;> trivial
  have hdimension (dimension : Dimension) : dimension.toValue.WellFormed :=
    ⟨trivial, nullableValue_wellFormed hgrain _, trivial⟩
  have hmetric (reference : MetricReference) : reference.toValue.WellFormed := ⟨trivial, trivial⟩
  have horder (orderBy : OrderBy) : orderBy.toValue.WellFormed := by
    refine ⟨trivial, ?_, trivial⟩
    cases orderBy.direction <;> trivial
  have hlimit (limit : Nat) : (Value.number (toString limit)).WellFormed :=
    Json.isNumber_natural limit
  exact ⟨trivial, trivial, eachWellFormed_map hdimension _, eachWellFormed_map hmetric _,
    nullableValue_wellFormed Filter.toValue_wellFormed _, eachWellFormed_map horder _,
    nullableValue_wellFormed hlimit _, trivial⟩

theorem Literal.depth_toValue (literal : Literal) : literal.toValue.depth = 1 := by
  cases literal <;> rfl

/-- A filter takes an object and an array for each of its levels, and its literals one object more. -/
theorem Filter.depth_toValue (filter : Filter) : filter.toValue.depth ≤ 2 * filter.depth + 1 := by
  induction filter using Filter.inductionOn with
  | and args ih | or args ih =>
    have hargs : Value.itemsDepth (Filter.toValues args) ≤ 2 * Filter.depthEach args + 1 := by
      refine Value.itemsDepth_le ?_
      rw [Filter.toValues_eq]
      refine List.forall_mem_map.mpr fun arg harg => ?_
      have hbelow := Filter.depth_le_depthEach harg
      have hdepth := ih arg harg
      omega
    simp only [Filter.toValue, Value.depth, Value.membersDepth, Filter.depth]
    omega
  | not arg ih =>
    simp only [Filter.toValue, Value.depth, Value.membersDepth, Filter.depth]
    omega
  | comparison operator name value =>
    have hoperator : operator.toValue.depth = 0 := by cases operator <;> rfl
    simp only [Filter.toValue, Value.depth, Value.membersDepth, Filter.depth, hoperator,
      value.depth_toValue]
    omega
  | inList name values =>
    have hvalues : Value.itemsDepth (values.map Literal.toValue) ≤ 1 :=
      Value.itemsDepth_le (List.forall_mem_map.mpr fun value _ => value.depth_toValue.le)
    simp only [Filter.toValue, Value.depth, Value.membersDepth, Filter.depth]
    omega
  | isNull name | isNotNull name =>
    simp only [Filter.toValue, Value.depth, Value.membersDepth, Filter.depth]
    omega

theorem depth_nullableValue {α : Type} {write : α → Value} {value : Option α} {n : Nat}
    (h : ∀ a, value = some a → (write a).depth ≤ n) : (nullableValue write value).depth ≤ n := by
  cases value with
  | none => exact Nat.zero_le n
  | some a => exact h a rfl

theorem LogicalSemanticQuery.depth_toValue {query : LogicalSemanticQuery}
    (h : query.WithinLimits) : query.toValue.depth ≤ Json.maxDepth := by
  have hgrain (grain : TimeGrain) : grain.toValue.depth ≤ 0 := by cases grain <;> exact le_rfl
  have hdimensions : Value.itemsDepth (query.dimensions.map Dimension.toValue) ≤ 1 := by
    refine Value.itemsDepth_le (List.forall_mem_map.mpr fun dimension _ => ?_)
    have htime := depth_nullableValue fun grain (_ : dimension.timeGrain = some grain) => hgrain grain
    simp only [Dimension.toValue, Value.depth, Value.membersDepth]
    omega
  have hmetrics : Value.itemsDepth (query.metrics.map MetricReference.toValue) ≤ 1 :=
    Value.itemsDepth_le (List.forall_mem_map.mpr fun reference _ => le_rfl)
  have hfilters : (nullableValue Filter.toValue query.filters).depth ≤ 33 := by
    refine depth_nullableValue fun filter hfilter => ?_
    have hdepth := filter.depth_toValue
    have hlimit := (h.filters filter hfilter).depth
    omega
  have horder : Value.itemsDepth (query.orderBy.map OrderBy.toValue) ≤ 1 := by
    refine Value.itemsDepth_le (List.forall_mem_map.mpr fun orderBy _ => ?_)
    obtain ⟨reference, direction⟩ := orderBy
    cases direction <;> exact le_rfl
  have hlimit : (nullableValue (fun limit : Nat => .number (toString limit)) query.limit).depth ≤ 0 :=
    depth_nullableValue fun _ _ => le_rfl
  simp only [LogicalSemanticQuery.toValue, Value.depth, Value.membersDepth, Json.maxDepth]
  omega

variable {finite : String → Bool}

theorem readsNumber_integer {value : Int} (h : -2 ^ 63 ≤ value ∧ value < 2 ^ 63) :
    Json.readsNumber finite (toString value) = true := by
  have hread : Json.asI64 (toString value) = some value :=
    Json.asI64_eq_some.mpr ⟨Json.integerOf_toString value, h⟩
  rw [Json.readsNumber, hread]
  rfl

theorem numbersAll_nullableValue {α : Type} {p : String → Bool} {write : α → Value}
    {value : Option α} (h : ∀ a, value = some a → (write a).numbersAll p = true) :
    (nullableValue write value).numbersAll p = true := by
  cases value with
  | none => rfl
  | some a => exact h a rfl

theorem numbersAll_map {α : Type} {p : String → Bool} {write : α → Value} {items : List α}
    (h : ∀ a ∈ items, (write a).numbersAll p = true) :
    (Value.array (items.map write)).numbersAll p = true := by
  rw [Json.numbersAll_array, List.all_eq_true]
  exact List.forall_mem_map.mpr h

theorem Literal.numbersAll_toValue {literal : Literal} (h : literal.InRange) :
    literal.toValue.numbersAll (Json.readsNumber finite) = true := by
  cases literal with
  | integer value =>
    simp only [Literal.toValue, Literal.payload, Value.numbersAll, Value.membersNumbersAll,
      readsNumber_integer h, Bool.and_self]
  | _ => rfl

theorem Filter.numbersAll_toValue {filter : Filter} (h : filter.InRange) :
    filter.toValue.numbersAll (Json.readsNumber finite) = true := by
  induction filter using Filter.inductionOn with
  | and args ih | or args ih =>
    have hargs := numbersAll_map fun arg harg => ih arg harg (Filter.eachInRange_iff.mp h arg harg)
    simp only [Filter.toValue, Filter.toValues_eq, Json.numbersAll_object, List.all_cons, hargs]
    rfl
  | not arg ih =>
    have harg : arg.InRange := h
    simp only [Filter.toValue, Json.numbersAll_object, List.all_cons, ih harg]
    rfl
  | comparison operator name value =>
    have hoperator : operator.toValue.numbersAll (Json.readsNumber finite) = true := by
      cases operator <;> rfl
    have hvalue : value.InRange := h
    simp only [Filter.toValue, Json.numbersAll_object, List.all_cons, hoperator,
      Literal.numbersAll_toValue hvalue]
    rfl
  | inList name values =>
    have hvalues : (Value.array (values.map Literal.toValue)).numbersAll (Json.readsNumber finite) =
        true := numbersAll_map fun value hvalue => Literal.numbersAll_toValue (h value hvalue)
    simp only [Filter.toValue, Json.numbersAll_object, List.all_cons, hvalues]
    rfl
  | isNull name | isNotNull name => rfl

theorem LogicalSemanticQuery.numbersAll_toValue {query : LogicalSemanticQuery} (h : query.InRange)
    (hlimits : query.WithinLimits) :
    query.toValue.numbersAll (Json.readsNumber finite) = true := by
  have hdimensions : (Value.array (query.dimensions.map Dimension.toValue)).numbersAll
      (Json.readsNumber finite) = true := by
    refine numbersAll_map fun dimension _ => ?_
    obtain ⟨name, timeGrain⟩ := dimension
    cases timeGrain with
    | none => rfl
    | some grain => cases grain <;> rfl
  have hmetrics : (Value.array (query.metrics.map MetricReference.toValue)).numbersAll
      (Json.readsNumber finite) = true :=
    numbersAll_map fun _ _ => rfl
  have hfilters : (nullableValue Filter.toValue query.filters).numbersAll
      (Json.readsNumber finite) = true :=
    numbersAll_nullableValue fun filter hfilter => Filter.numbersAll_toValue (h filter hfilter)
  have horder : (Value.array (query.orderBy.map OrderBy.toValue)).numbersAll
      (Json.readsNumber finite) = true := by
    refine numbersAll_map fun orderBy _ => ?_
    obtain ⟨reference, direction⟩ := orderBy
    cases direction <;> rfl
  have hlimit : (nullableValue (fun limit : Nat => .number (toString limit))
      query.limit).numbersAll (Json.readsNumber finite) = true := by
    refine numbersAll_nullableValue fun limit hlimit => ?_
    have hbound := (hlimits.limit limit hlimit).2
    have hinteger : -2 ^ 63 ≤ (limit : Int) ∧ (limit : Int) < 2 ^ 63 := by omega
    have htext : toString limit = toString (limit : Int) := rfl
    show Json.readsNumber finite (toString limit) = true
    rw [htext, readsNumber_integer hinteger]
  rw [LogicalSemanticQuery.toValue, Json.numbersAll_object]
  simp only [List.all_cons, hdimensions, hmetrics, hfilters, horder, hlimit]
  rfl

end Readable

section Normalize
variable {finite : String → Bool} {backend : HashBackend}

theorem checked_eq_ok {query : LogicalSemanticQuery} {normalized : NormalizedLsq} :
    query.checked backend = .ok normalized ↔
      ∃ valid : validateQuery query = .ok (), normalized = query.normalize backend valid := by
  unfold LogicalSemanticQuery.checked
  split
  next hvalid =>
    rw [Except.ok.injEq]
    exact ⟨fun h => ⟨hvalid, h.symm⟩, fun ⟨_, h⟩ => h.symm⟩
  next hvalid =>
    simp only [reduceCtorEq, false_iff]
    rintro ⟨valid, _⟩
    rw [hvalid] at valid
    cases valid

theorem normalizeLsq_eq_ok {input : List UInt8} {normalized : NormalizedLsq} :
    normalizeLsq finite backend input = .ok normalized ↔
      ∃ query, parseQuery finite input = some query ∧ query.checked backend = .ok normalized := by
  rw [normalizeLsq, bind_eq_ok]
  simp only [orError_eq_ok]

/-- The canonical text of a query is read as the query. -/
theorem parseQuery_json {query : LogicalSemanticQuery} (h : query.InRange)
    (hlimits : query.WithinLimits) : parseQuery finite (bytesOf query.json) = some query := by
  have hread : Json.read (bytesOf query.json) = some query.toValue := by
    rw [← query.toValue_text]
    exact Json.read_text query.toValue_wellFormed (LogicalSemanticQuery.depth_toValue hlimits)
  rw [parseQuery, hread]
  show (if query.toValue.numbersAll _ then decodeQuery query.toValue else none) = _
  rw [LogicalSemanticQuery.numbersAll_toValue h hlimits, if_pos rfl, decodeQuery_toValue h hlimits]

theorem normalizeLsq_idempotent {input : List UInt8} {normalized : NormalizedLsq}
    (h : normalizeLsq finite backend input = .ok normalized) :
    normalizeLsq finite backend (bytesOf normalized.canonicalJson) = .ok normalized := by
  obtain ⟨query, hparse, hchecked⟩ := normalizeLsq_eq_ok.mp h
  obtain ⟨valid, rfl⟩ := checked_eq_ok.mp hchecked
  have hlimits := (validateQuery_ok_iff query).1.mp valid
  exact normalizeLsq_eq_ok.mpr ⟨query, parseQuery_json (parseQuery_inRange hparse) hlimits, hchecked⟩

/-- Inputs that differ in white space and in the order of members are normalized alike. -/
theorem normalizeLsq_reordered {input other : List UInt8} {value value' : Value}
    (hread : Json.read input = some value) (hread' : Json.read other = some value')
    (h : Json.Reordered value value') :
    normalizeLsq finite backend input = normalizeLsq finite backend other := by
  have hparse : parseQuery finite input = parseQuery finite other := by
    rw [parseQuery, parseQuery, hread, hread']
    show (if value.numbersAll _ then decodeQuery value else none) =
      if value'.numbersAll _ then decodeQuery value' else none
    rw [(Json.stable_numbersAll _).reordered h, stable_decodeQuery.reordered h]
  rw [normalizeLsq, normalizeLsq, hparse]

end Normalize

end Postgresem
