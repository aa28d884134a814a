import Postgresem.Compiler.Lower
import Postgresem.Sql.Writing

/-! The renderer writes the lowered statement: its text is the assembled template of the tree,
its parameter list is the pool that the assembly fills, and its source columns are those that the
tree refers to. -/
namespace Postgresem
open Control Template

/-! ## Parameters -/

def numbered (start : Nat) : List Sql.Param → List CompiledParameter
  | [] => []
  | param :: rest =>
    { position := start + 1, dataType := param.1, value := param.2 } :: numbered (start + 1) rest

/-- The parameter list that a pool of values stands for. -/
def numberParameters (pool : List Sql.Param) : List CompiledParameter := numbered 0 pool

theorem numbered_length (start : Nat) (pool : List Sql.Param) :
    (numbered start pool).length = pool.length := by
  induction pool generalizing start with
  | nil => rfl
  | cons param rest ih => simp [numbered, ih]

theorem numbered_append (start : Nat) (pool : List Sql.Param) (param : Sql.Param) :
    numbered start (pool ++ [param]) = numbered start pool ++
      [{ position := start + pool.length + 1, dataType := param.1, value := param.2 }] := by
  induction pool generalizing start with
  | nil => rfl
  | cons first rest ih =>
    simp only [List.cons_append, numbered, ih, List.length_cons]
    rw [show start + 1 + rest.length + 1 = start + (rest.length + 1) + 1 by omega]

theorem numbered_find? (start : Nat) (pool : List Sql.Param) (param : Sql.Param) :
    (numbered start pool).find? (fun parameter =>
        parameter.dataType == param.1 && parameter.value == param.2) =
      if param ∈ pool then
        some { position := start + (allocate pool param).1, dataType := param.1, value := param.2 }
      else none := by
  induction pool generalizing start with
  | nil => rfl
  | cons first rest ih =>
    by_cases h : first = param
    · subst h
      simp [numbered, allocate]
    · have hne : (first.1 == param.1 && first.2 == param.2) = false := by
        rw [Bool.eq_false_iff]
        intro he
        simp only [Bool.and_eq_true, beq_iff_eq] at he
        exact h (Prod.ext he.1 he.2)
      simp only [numbered, List.find?_cons, hne, ih, List.mem_cons, Ne.symm h, false_or]
      by_cases hm : param ∈ rest
      · rw [if_pos hm, if_pos hm, allocate_cons_of_mem h hm]
        congr 2
        omega
      · rw [if_neg hm, if_neg hm]

theorem pushParameter_numberParameters (pool : List Sql.Param) (dataType : DataType)
    (value : Literal) :
    pushParameter (numberParameters pool) dataType value =
      ((allocate pool (dataType, value)).1, numberParameters (allocate pool (dataType, value)).2) := by
  have hfind := numbered_find? 0 pool (dataType, value)
  unfold pushParameter numberParameters
  rw [hfind]
  by_cases h : (dataType, value) ∈ pool
  · simp [h, allocate]
  · simp [h, allocate, numbered_length, numbered_append]

/-! ## Actions and what they write -/

def stateOf (pool : List Sql.Param) (columns : List String) : RenderState :=
  { parameters := numberParameters pool, sourceColumns := columns }

/-- A template and the source columns recorded while it is written. -/
abbrev Output := List (Piece Sql.Param) × List String

def Writes (action : RenderM String) (output : Except CompileError Output) : Prop :=
  ∀ pool columns, action (stateOf pool columns) = output.map fun out =>
    ((assemble out.1 pool).1,
      stateOf (assemble out.1 pool).2 (OrderedSet.insertAll out.2 columns))

def WritesEach (action : RenderM (List String)) (outputs : Except CompileError (List Output)) :
    Prop :=
  ∀ pool columns, action (stateOf pool columns) = outputs.map fun outs =>
    ((assembleEach (outs.map Prod.fst) pool).1,
      stateOf (assembleEach (outs.map Prod.fst) pool).2
        (OrderedSet.insertAll (outs.flatMap Prod.snd) columns))

theorem run_bind {α β : Type} (x : RenderM α) (f : α → RenderM β) (state : RenderState) :
    (x >>= f) state = (x state >>= fun r => f r.1 r.2) := rfl

theorem run_pure {α : Type} (a : α) (state : RenderState) :
    (pure a : RenderM α) state = .ok (a, state) := rfl

theorem run_lift {α : Type} (x : Except CompileError α) (state : RenderState) :
    (liftM x : RenderM α) state = x.map fun a => (a, state) := by
  cases x <;> rfl

theorem run_pushParameterM (pool : List Sql.Param) (columns : List String) (dataType : DataType)
    (value : Literal) :
    pushParameterM dataType value (stateOf pool columns) =
      .ok ((allocate pool (dataType, value)).1,
        stateOf (allocate pool (dataType, value)).2 columns) := by
  simp only [pushParameterM, stateOf, pushParameter_numberParameters]

theorem run_insertSourceColumn (pool : List Sql.Param) (columns : List String) (column : String) :
    insertSourceColumn column (stateOf pool columns) =
      .ok ((), stateOf pool (OrderedSet.insert column columns)) := rfl

/-- A traversal writes the items one after the other. -/
theorem mapM_writes {α : Type} {f : α → RenderM String} {g : α → Except CompileError Output}
    {xs : List α} (h : ∀ x ∈ xs, Writes (f x) (g x)) : WritesEach (xs.mapM f) (xs.mapM g) := by
  induction xs with
  | nil =>
    intro pool columns
    rfl
  | cons x xs ih =>
    intro pool columns
    have hx := h x (by simp)
    have hxs := ih fun y hy => h y (by simp [hy])
    simp only [List.mapM_cons, run_bind, hx pool columns, map_bind]
    cases hgx : g x with
    | error e => rfl
    | ok out =>
      simp only [ok_bind, hxs _ _, map_bind, run_pure]
      cases xs.mapM g with
      | error e => rfl
      | ok outs =>
        simp only [ok_bind, Except.map, pure, Except.pure, List.map_cons, assembleEach,
          List.flatMap_cons, OrderedSet.insertAll_append]

theorem WritesEach.join {action : RenderM (List String)}
    {outputs : Except CompileError (List Output)} (h : WritesEach action outputs)
    (before separator after : String) :
    Writes (action >>= fun texts => pure (before ++ separator.intercalate texts ++ after))
      (outputs.map fun outs => (.raw before :: joinWith separator (outs.map Prod.fst)
        ++ [.raw after], outs.flatMap Prod.snd)) := by
  intro pool columns
  rw [run_bind, h pool columns, map_bind, map_map']
  cases outputs with
  | error e => rfl
  | ok outs =>
    simp only [ok_bind, run_pure, map_ok, List.cons_append, assemble_raw, assemble_append,
      assemble_joinWith, assemble_nil, String.append_assoc, String.append_empty]

/-! ## Fields -/

/-- The relationship of a field is among those that the query joins. -/
def Covers (names : List String) (field : Field) : Prop :=
  ∀ name, field.relationship = some name → name ∈ names

theorem lookup_zipIdx {α β : Type} {entries : List (String × α)} (f : Nat → α → β)
    {name : String} (start : Nat) (h : name ∈ entries.map Prod.fst) :
    ∃ entry ∈ entries, entry.1 = name ∧
      ((entries.zipIdx start).map fun e => (e.1.1, f e.2 e.1.2)).lookup name =
        some (f (start + (entries.map Prod.fst).idxOf name) entry.2) ∧
      entries[(entries.map Prod.fst).idxOf name]? = some entry := by
  induction entries generalizing start with
  | nil => cases h
  | cons entry entries ih =>
    by_cases he : entry.1 = name
    · refine ⟨entry, by simp, he, ?_, ?_⟩ <;> simp [he]
    · have hm : name ∈ entries.map Prod.fst := by
        simpa [Ne.symm he] using h
      obtain ⟨found, hmem, hname, hlookup, hget⟩ := ih (start + 1) hm
      refine ⟨found, by simp [hmem], hname, ?_, ?_⟩
      · have hbeq : (name == entry.1) = false := by simpa using Ne.symm he
        simp only [List.zipIdx_cons, List.map_cons, List.lookup_cons, hbeq, hlookup,
          List.idxOf_cons_ne _ he]
        rw [show start + 1 + (entries.map Prod.fst).idxOf name =
          start + ((entries.map Prod.fst).idxOf name).succ by omega]
      · simpa [List.idxOf_cons_ne _ he] using hget

theorem joins_lookup (relationships : List (String × Relationship)) (start index : Nat) :
    (((relationships.zipIdx start).map lowerJoin).map
        fun join => (join.slot, join.target)).lookup (start + index + 1) =
      relationships[index]?.map fun entry => entry.2.target := by
  induction relationships generalizing start index with
  | nil => rfl
  | cons entry rest ih =>
    cases index with
    | zero => simp [lowerJoin]
    | succ index =>
      have hne : (start + (index + 1) + 1 == start + 1) = false := by simp
      have hrest := ih (start + 1) index
      rw [show start + 1 + index + 1 = start + (index + 1) + 1 by omega] at hrest
      simp only [List.zipIdx_cons, List.map_cons, List.lookup_cons, lowerJoin, hne,
        List.getElem?_cons_succ]
      exact hrest

theorem bindings_lookup_succ (model : Model) (relationships : List (String × Relationship))
    (index : Nat) : (lowerTables model relationships).bindings.lookup (index + 1) =
      relationships[index]?.map fun entry => entry.2.target := by
  have h := joins_lookup relationships 0 index
  rw [Nat.zero_add] at h
  have hne : (index + 1 == 0) = false := by simp
  simp only [Sql.Tables.bindings, lowerTables, List.lookup_cons, hne]
  exact h

section Scope
variable {model : Model} {relationships : List (String × Relationship)}

/-- The alias that the renderer looks up is the slot of the lowered field, and that slot is bound
to the relation the field belongs to. -/
theorem fieldSource_covered
    (hfound : ∀ entry ∈ relationships, model.relationships.find?
      (fun relationship => relationship.semanticName == entry.1) = some entry.2)
    {field : Field} (hcover : Covers (relationships.map Prod.fst) field) :
    ∃ relation, fieldSource model (relationshipAliases relationships) field =
        .ok (Sql.slotName (slotOf (relationships.map Prod.fst) field), relation) ∧
      (lowerTables model relationships).bindings.lookup
        (slotOf (relationships.map Prod.fst) field) = some relation := by
  cases hr : field.relationship with
  | none =>
    refine ⟨model.source, ?_, ?_⟩
    · simp only [fieldSource, slotOf, hr, Sql.slotName]
      rfl
    · simp [slotOf, hr, Sql.Tables.bindings, lowerTables]
  | some name =>
    obtain ⟨entry, hmem, hname, hlookup, hget⟩ := lookup_zipIdx
      (fun index (_ : Relationship) => "t" ++ toString (index + 1)) 0 (hcover name hr)
    have hmodel := hfound entry hmem
    rw [hname] at hmodel
    refine ⟨entry.2.target, ?_, ?_⟩
    · simp only [fieldSource, hr, hmodel, orError_some, ok_bind, slotOf, Sql.slotName]
      have halias : (relationshipAliases relationships).lookup name =
          some ("t" ++ toString ((relationships.map Prod.fst).idxOf name + 1)) := by
        rw [Nat.zero_add] at hlookup
        exact hlookup
      rw [halias]
      rfl
    · simp only [slotOf, hr]
      rw [bindings_lookup_succ, hget]
      rfl

theorem quoted_eq_quoteIdentifier (identifier : String) :
    quoted identifier = quoteIdentifier identifier := rfl

theorem renderParameter_eq (position : Nat) (dataType : DataType) :
    renderParameter position dataType = "$" ++ toString position ++ Sql.castText dataType := by
  cases dataType <;> simp [renderParameter, Sql.castText, postgresType, String.append_assoc]

theorem renderAggregate_eq (aggregation : Aggregation) (field : String) :
    renderAggregate aggregation field = Sql.aggregateOpen aggregation ++ field ++ ")" := by
  cases aggregation <;> rfl

/-! ## Expressions -/

def scalarOutput (tables : Sql.Tables) (scalar : Sql.Scalar) : Output :=
  (scalar.pieces, tables.sourceColumns scalar.refs)

def predicateOutput (tables : Sql.Tables) (predicate : Sql.Predicate) : Output :=
  (predicate.pieces, tables.sourceColumns predicate.refs)

theorem sourceColumns_append (tables : Sql.Tables) (xs ys : List Sql.ColumnRef) :
    tables.sourceColumns (xs ++ ys) = tables.sourceColumns xs ++ tables.sourceColumns ys :=
  List.filterMap_append

theorem lowerField_pieces (names : List String) (field : Field) :
    (lowerField names field).pieces =
      [.name (Sql.slotName (slotOf names field) ++ ".") field.column] := rfl

theorem lowerCondition_pieces (names : List String) (filter : Field × Literal) :
    (lowerCondition names filter).pieces =
      [.name (Sql.slotName (slotOf names filter.1) ++ ".") filter.1.column, .raw " = ",
        .hole (filter.1.dataType, filter.2), .raw (Sql.castText filter.1.dataType)] := by
  have heq : " " ++ comparisonOperator .eq ++ " " = " = " := by decide
  simp only [lowerCondition, Sql.Predicate.pieces, lowerField_pieces, heq, Sql.Scalar.pieces,
    List.cons_append, List.nil_append]

theorem lowerCondition_refs (names : List String) (filter : Field × Literal) :
    (lowerCondition names filter).refs = (lowerField names filter.1).refs := by
  simp only [lowerCondition, Sql.Predicate.refs, Sql.Scalar.refs, List.append_nil]

@[simp] theorem sourceColumns_nil (tables : Sql.Tables) : tables.sourceColumns [] = [] := rfl

section Expressions
variable (hfound : ∀ entry ∈ relationships, model.relationships.find?
  (fun relationship => relationship.semanticName == entry.1) = some entry.2)
include hfound

theorem renderField_writes {field : Field}
    (hcover : Covers (relationships.map Prod.fst) field) :
    Writes (renderField model (relationshipAliases relationships) field)
      (.ok (scalarOutput (lowerTables model relationships)
        (lowerField (relationships.map Prod.fst) field))) := by
  intro pool columns
  obtain ⟨relation, hsource, hbound⟩ := fieldSource_covered hfound hcover
  simp only [renderField, run_bind, run_lift, hsource, Except.map, ok_bind,
    run_insertSourceColumn, run_pure, scalarOutput, lowerField, Sql.Scalar.pieces,
    Sql.Scalar.refs, Sql.Tables.sourceColumns, List.filterMap_cons, hbound, Option.map_some,
    List.filterMap_nil, assemble_name, assemble_nil, OrderedSet.insertAll_cons,
    OrderedSet.insertAll_nil, quoted_eq_quoteIdentifier, String.append_empty]

theorem renderDimension_writes {dimension : ResolvedDimension}
    (hcover : Covers (relationships.map Prod.fst) dimension.field) :
    Writes (renderDimension model (relationshipAliases relationships) dimension)
      ((lowerDimension model (relationships.map Prod.fst) dimension).map
        (scalarOutput (lowerTables model relationships))) := by
  intro pool columns
  have hfield := renderField_writes hfound hcover pool columns
  simp only [renderDimension, run_bind, hfield, Except.map, ok_bind, lowerDimension]
  cases dimension.timeGrain with
  | none => rfl
  | some grain =>
    by_cases htz : dimension.field.dataType = .timestampTz
    · simp only [htz, if_true, run_bind, run_lift]
      cases model.timezone with
      | none => rfl
      | some zone =>
        simp only [orError_some, Except.map, ok_bind, run_pushParameterM, run_pure, scalarOutput,
          Sql.Scalar.pieces, Sql.Scalar.refs, lowerField, List.cons_append, List.nil_append,
          assemble_constant, assemble_raw, assemble_hole, assemble_name, assemble_nil,
          String.append_assoc, String.append_empty]
        rfl
    · simp only [htz, if_false, run_pure, scalarOutput, Sql.Scalar.pieces, Sql.Scalar.refs,
        List.cons_append, List.nil_append, lowerField,
        assemble_constant, assemble_raw, assemble_name, assemble_nil, String.append_assoc,
        String.append_empty]
      rfl

/-- A metric reads its field and, if it has a filter, the field of the filter. -/
def CoversMetric (names : List String) (metric : ResolvedMetric) : Prop :=
  ∀ field ∈ metric.fields, Covers names field

omit hfound in
theorem CoversMetric.field {names : List String} {metric : ResolvedMetric}
    (h : CoversMetric names metric) : Covers names metric.field :=
  h metric.field (by simp [ResolvedMetric.fields])

omit hfound in
theorem CoversMetric.filter {names : List String} {metric : ResolvedMetric}
    (h : CoversMetric names metric) {entry : Field × Literal} (he : metric.filter = some entry) :
    Covers names entry.1 :=
  h entry.1 (by simp [ResolvedMetric.fields, he])

theorem renderMetric_writes {metric : ResolvedMetric}
    (hcover : CoversMetric (relationships.map Prod.fst) metric) :
    Writes (renderMetric model (relationshipAliases relationships) metric)
      (.ok ((lowerMetric (relationships.map Prod.fst) metric).pieces,
        (lowerTables model relationships).sourceColumns
          (lowerMetric (relationships.map Prod.fst) metric).refs)) := by
  intro pool columns
  simp only [renderMetric, run_bind, renderField_writes hfound hcover.field pool columns,
    Except.map, ok_bind, lowerMetric, Sql.Aggregate.pieces, Sql.Aggregate.refs]
  cases hf : metric.filter with
  | none =>
    simp only [run_pure, renderAggregate_eq, scalarOutput, lowerField_pieces,
      Option.map_none, Sql.optionRefs, List.append_nil, List.cons_append, List.nil_append,
      assemble_raw, assemble_name, assemble_nil, String.append_assoc, String.append_empty]
  | some entry =>
    simp only [run_bind, renderField_writes hfound (hcover.filter hf) _ _, Except.map, ok_bind,
      run_pushParameterM, run_pure, renderAggregate_eq, renderParameter_eq, Option.map_some,
      Sql.optionRefs, sourceColumns_append, OrderedSet.insertAll_append, scalarOutput,
      lowerCondition_pieces, lowerCondition_refs, lowerField_pieces, List.cons_append,
      List.nil_append, assemble_raw, assemble_name, assemble_hole, assemble_nil,
      String.append_assoc, String.append_empty]

theorem renderAnchorMetricInput_writes {metric : ResolvedMetric}
    (hcover : CoversMetric (relationships.map Prod.fst) metric) :
    Writes (renderAnchorMetricInput model (relationshipAliases relationships) metric)
      (.ok ((lowerMetric (relationships.map Prod.fst) metric).innerPieces,
        (lowerTables model relationships).sourceColumns
          (lowerMetric (relationships.map Prod.fst) metric).refs)) := by
  intro pool columns
  simp only [renderAnchorMetricInput, run_bind, renderField_writes hfound hcover.field pool columns,
    Except.map, ok_bind, lowerMetric, Sql.Aggregate.innerPieces, Sql.Aggregate.refs]
  cases hf : metric.filter with
  | none =>
    simp only [run_pure, scalarOutput, lowerField_pieces, Option.map_none, Sql.optionRefs, List.append_nil, List.cons_append, List.nil_append,
      assemble_raw, assemble_name, assemble_nil, String.append_assoc, String.append_empty]
  | some entry =>
    simp only [run_bind, renderField_writes hfound (hcover.filter hf) _ _, Except.map, ok_bind,
      run_pushParameterM, run_pure, renderParameter_eq, Option.map_some,
      Sql.optionRefs, sourceColumns_append, OrderedSet.insertAll_append, scalarOutput,
      lowerCondition_pieces, lowerCondition_refs, lowerField_pieces, List.cons_append,
      List.nil_append, assemble_raw, assemble_name, assemble_hole, assemble_nil,
      String.append_assoc, String.append_empty]

theorem renderComparison_writes (operator : ComparisonOperator) {field : Field} (value : Literal)
    (hcover : Covers (relationships.map Prod.fst) field) :
    Writes (renderComparison model (relationshipAliases relationships) operator field value)
      (((lowerOperand model field value).map
          (.compare operator (lowerField (relationships.map Prod.fst) field))).map
        (predicateOutput (lowerTables model relationships))) := by
  intro pool columns
  have hfield := renderField_writes hfound hcover pool columns
  unfold renderComparison lowerOperand
  simp only [run_bind, hfield, map_ok, ok_bind]
  -- a date literal on a `timestamptz` field is read in the timezone of the model
  split
  next text htype =>
    simp only [htype, run_bind, run_lift]
    cases model.timezone with
    | none => rfl
    | some zone =>
      simp only [orError_some, map_ok, ok_bind, run_pushParameterM, pushLiteral, run_pure,
        predicateOutput, scalarOutput, Sql.Predicate.pieces, Sql.Predicate.refs,
        Sql.Scalar.pieces, Sql.Scalar.refs, lowerField, List.cons_append, List.nil_append,
        List.append_nil, assemble_raw, assemble_hole, assemble_name, assemble_nil,
        String.append_assoc, String.append_empty]
      rfl
  next =>
    simp only [run_bind, run_pushParameterM, map_ok, ok_bind, run_pure, renderParameter_eq,
      predicateOutput, scalarOutput, Sql.Predicate.pieces, Sql.Predicate.refs,
      Sql.Scalar.pieces, Sql.Scalar.refs, lowerField, List.cons_append, List.nil_append,
      List.append_nil, assemble_raw, assemble_hole, assemble_name, assemble_nil,
      String.append_assoc, String.append_empty]

omit hfound in
theorem inValues_write (dataType : DataType) (values : List Literal) :
    WritesEach (values.mapM (renderInValue dataType))
      (.ok (values.map fun value =>
        ([.hole (dataType, value), .raw (Sql.castText dataType)], []))) := by
  have hpure : (values.mapM fun value => (.ok
      ([.hole (dataType, value), .raw (Sql.castText dataType)], []) : Except CompileError Output)) =
      .ok (values.map fun value => ([.hole (dataType, value), .raw (Sql.castText dataType)], [])) :=
    List.mapM_pure
  rw [← hpure]
  apply mapM_writes
  intro value _ pool columns
  simp only [renderInValue, run_bind, run_pushParameterM, ok_bind, run_pure, renderParameter_eq,
    map_ok, assemble_hole, assemble_raw, assemble_nil, OrderedSet.insertAll_nil,
    String.append_assoc, String.append_empty]

omit hfound in
theorem predicateOutputs (tables : Sql.Tables) (args : List Sql.Predicate) :
    (args.map (predicateOutput tables)).map Prod.fst = Sql.Predicate.piecesEach args ∧
      (args.map (predicateOutput tables)).flatMap Prod.snd =
        tables.sourceColumns (Sql.Predicate.refsEach args) := by
  induction args with
  | nil => exact ⟨rfl, rfl⟩
  | cons predicate rest ih =>
    refine ⟨?_, ?_⟩
    · simp only [List.map_cons, ih.1, Sql.Predicate.piecesEach, predicateOutput]
    · simp only [List.map_cons, List.flatMap_cons, ih.2, Sql.Predicate.refsEach,
        sourceColumns_append, predicateOutput]

set_option linter.unusedSectionVars false in
mutual

theorem renderFilter_writes : ∀ filter : ResolvedFilter,
    (∀ field ∈ filter.fields, Covers (relationships.map Prod.fst) field) →
    Writes (renderFilter model (relationshipAliases relationships) filter)
      ((lowerFilter model (relationships.map Prod.fst) filter).map
        (predicateOutput (lowerTables model relationships)))
  | .and args, hcover => by
    have hargs := (renderFilters_writes args (by simpa [ResolvedFilter.fields] using hcover)).join
      "(" " AND " ")"
    rw [map_map'] at hargs
    simp only [predicateOutputs] at hargs
    rw [renderFilter, lowerFilter, map_map']
    exact hargs
  | .or args, hcover => by
    have hargs := (renderFilters_writes args (by simpa [ResolvedFilter.fields] using hcover)).join
      "(" " OR " ")"
    rw [map_map'] at hargs
    simp only [predicateOutputs] at hargs
    rw [renderFilter, lowerFilter, map_map']
    exact hargs
  | .not arg, hcover => by
    intro pool columns
    have harg := renderFilter_writes arg (by simpa [ResolvedFilter.fields] using hcover) pool columns
    rw [renderFilter, lowerFilter, map_map', map_map', run_bind, harg, map_map', map_bind]
    cases lowerFilter model (relationships.map Prod.fst) arg with
    | error e => rfl
    | ok lowered =>
      simp only [ok_bind, run_pure, map_ok, predicateOutput, Sql.Predicate.pieces,
        Sql.Predicate.refs, List.cons_append, assemble_raw, assemble_append, assemble_nil,
        String.append_assoc, String.append_empty]
  | .comparison operator field value, hcover => by
    rw [renderFilter, lowerFilter]
    exact renderComparison_writes hfound operator value
      (hcover field (by simp [ResolvedFilter.fields]))
  | .inList field values, hcover => by
    intro pool columns
    have hfield := renderField_writes hfound (hcover field (by simp [ResolvedFilter.fields]))
    have hrefs : (values.map (Sql.Scalar.parameter field.dataType)).flatMap Sql.Scalar.refs = [] := by
      simp [Sql.Scalar.refs, List.flatMap_eq_nil_iff]
    have hcolumns : (values.flatMap fun _ => ([] : List String)) = [] := by
      simp [List.flatMap_eq_nil_iff]
    rw [renderFilter, lowerFilter, run_bind, hfield pool columns]
    simp only [map_ok, ok_bind, run_bind, inValues_write _ _ _ _, run_pure, scalarOutput,
      predicateOutput, Sql.Predicate.pieces, Sql.Predicate.refs, hrefs, lowerField_pieces,
      List.map_map, List.flatMap_map, hcolumns, Function.comp_def, Sql.Scalar.pieces,
      List.append_nil, List.cons_append, List.nil_append, assemble_name, assemble_raw,
      assemble_append, assemble_joinWith, assemble_nil, OrderedSet.insertAll_nil,
      String.append_assoc, String.append_empty]
  | .isNull field, hcover => by
    intro pool columns
    have hfield := renderField_writes hfound (hcover field (by simp [ResolvedFilter.fields]))
    rw [renderFilter, lowerFilter, run_bind, hfield pool columns]
    simp only [map_ok, ok_bind, run_pure, scalarOutput, predicateOutput, Sql.Predicate.pieces,
      Sql.Predicate.refs, lowerField_pieces, List.cons_append, List.nil_append, assemble_name,
      assemble_raw, assemble_nil, String.append_assoc, String.append_empty]
  | .isNotNull field, hcover => by
    intro pool columns
    have hfield := renderField_writes hfound (hcover field (by simp [ResolvedFilter.fields]))
    rw [renderFilter, lowerFilter, run_bind, hfield pool columns]
    simp only [map_ok, ok_bind, run_pure, scalarOutput, predicateOutput, Sql.Predicate.pieces,
      Sql.Predicate.refs, lowerField_pieces, List.cons_append, List.nil_append, assemble_name,
      assemble_raw, assemble_nil, String.append_assoc, String.append_empty]

theorem renderFilters_writes : ∀ filters : List ResolvedFilter,
    (∀ field ∈ ResolvedFilter.fieldsEach filters, Covers (relationships.map Prod.fst) field) →
    WritesEach (renderFilters model (relationshipAliases relationships) filters)
      ((lowerFilters model (relationships.map Prod.fst) filters).map
        (List.map (predicateOutput (lowerTables model relationships))))
  | [], _ => by
    intro pool columns
    rfl
  | filter :: rest, hcover => by
    intro pool columns
    have hfilter := renderFilter_writes filter fun field hf =>
      hcover field (by simp [ResolvedFilter.fieldsEach, hf])
    have hrest := renderFilters_writes rest fun field hf =>
      hcover field (by simp [ResolvedFilter.fieldsEach, hf])
    rw [renderFilters, lowerFilters, run_bind, hfilter pool columns, map_map', map_bind]
    cases lowerFilter model (relationships.map Prod.fst) filter with
    | error e => rfl
    | ok lowered =>
      simp only [ok_bind, run_bind, hrest _ _, map_map', map_bind]
      cases lowerFilters model (relationships.map Prod.fst) rest with
      | error e => rfl
      | ok others =>
        simp only [ok_bind, run_pure, map_ok, pure_ok, List.map_cons, assembleEach,
          List.flatMap_cons, OrderedSet.insertAll_append]

end

end Expressions

end Scope

end Postgresem
