import Postgresem.Execution.Wrapper
import Postgresem.Semantic.Evaluation

/-! What the executors receive: whether each row is the array of the values that the output schema
declares, when the server keeps 63 bytes of an identifier. -/
namespace Postgresem
open Control Template Lexing Relational

/-! ## The server -/

def identifierBytes : Nat := 63

def maxFunctionArguments : Nat := 100

/-- The longest prefix of whole characters that has room. -/
def clipCharacters : Nat → List Char → List Char
  | _, [] => []
  | room, c :: rest =>
    if c.utf8Size ≤ room then c :: clipCharacters (room - c.utf8Size) rest else []

/-- What the server keeps of an identifier. -/
def clipIdentifier (name : String) : String :=
  String.ofList (clipCharacters identifierBytes name.toList)

inductive ServerError where
  | reference (error : NameError)
  | tooManyArguments
  deriving DecidableEq, Repr

/-- An element of `jsonb_build_array`: a value as it is, or cast to text before. -/
inductive Element (V : Type) where
  | value (cell : V)
  | text (cell : V)
  deriving DecidableEq, Repr

def OutputColumn.element {V : Type} (column : OutputColumn) (cell : V) : Element V :=
  if column.dataType = .numeric then .text cell else .value cell

/-- A wrapper over a statement with the given output columns, on the rows that the statement
returns. References are resolved before there are rows. -/
def collectRows {V : Type} (columns : List String) (schema : List OutputColumn)
    (rows : List (Fin columns.length → V)) : Except ServerError (List (List (Element V))) := do
  ensure (decide (schema.length ≤ maxFunctionArguments)) .tooManyArguments
  let references ← schema.mapM fun column =>
    (((resolve clipIdentifier columns column.name).mapError .reference).map fun index =>
      (column, index))
  pure (rows.map fun row => references.map fun entry => entry.1.element (row entry.2))

/-! ## Alignment -/

/-- Every row is collected, and element `i` of its array is the value of output column `i`. -/
def RowsAlign (columns : List String) (schema : List OutputColumn) : Prop :=
  ∀ {V : Type} (rows : List (Fin columns.length → V)), ∃ arrays,
    collectRows columns schema rows = .ok arrays ∧
    List.Forall₂ (fun row array => array.length = columns.length ∧
      ∀ index : Fin columns.length,
        array[index.val]? = schema[index.val]?.map fun column => column.element (row index))
      rows arrays

/-- `ORDER BY` refers to the output column that the query names. -/
def OrderAligns (columns : List String) (orderBy : List OrderBy) : Prop :=
  ∀ order ∈ orderBy, ∃ index, columns.get index = order.outputReference ∧
    resolve clipIdentifier columns order.outputReference = .ok index

/-- No two output columns are one to the server, and an array can hold all of them. -/
def DistinctColumns (columns : List String) : Prop :=
  (columns.map clipIdentifier).Nodup ∧ columns.length ≤ maxFunctionArguments

instance (columns : List String) : Decidable (DistinctColumns columns) :=
  inferInstanceAs (Decidable (_ ∧ _))

section Align
variable {columns : List String} {schema : List OutputColumn}
  (hnames : columns = schema.map OutputColumn.name)
include hnames

theorem collectRows_ok {V : Type} {rows : List (Fin columns.length → V)}
    {arrays : List (List (Element V))} (h : collectRows columns schema rows = .ok arrays) :
    DistinctColumns columns := by
  simp only [collectRows, bind_eq_ok, ensure_eq_ok, exists_const, decide_eq_true_eq] at h
  obtain ⟨hlength, references, hreferences, -⟩ := h
  refine ⟨resolves_each_of_ok clipIdentifier ?_, by rwa [hnames, List.length_map]⟩
  intro name hname
  rw [hnames] at hname
  obtain ⟨column, hcolumn, rfl⟩ := List.mem_map.mp hname
  obtain ⟨entry, -, hentry⟩ := exists_right_of_forall₂ (mapM_eq_ok_iff.mp hreferences) hcolumn
  obtain ⟨index, hindex, -⟩ := map_eq_ok.mp hentry
  exact ⟨index, mapError_eq_ok.mp hindex⟩

theorem rowsAlign_of_distinct (h : DistinctColumns columns) : RowsAlign columns schema := by
  have hlength : schema.length = columns.length := by rw [hnames, List.length_map]
  have hresolve := (resolves_each_iff clipIdentifier).mpr h.1
  intro V rows
  have hname : ∀ index : Fin columns.length, ∀ column, schema[index.val]? = some column →
      columns.get index = column.name := by
    intro index column hcolumn
    have hget : columns[index.val]? = (schema.map OutputColumn.name)[index.val]? :=
      congrArg (fun names => names[index.val]?) hnames
    rw [List.getElem?_map, hcolumn] at hget
    exact (List.getElem?_eq_some_iff.mp hget).2
  obtain ⟨references, hreferences⟩ : ∃ references, schema.mapM (fun column =>
      (((resolve clipIdentifier columns column.name).mapError ServerError.reference).map
        fun index => (column, index))) = .ok references := by
    apply exists_mapM_ok
    intro column hcolumn
    obtain ⟨position, hposition⟩ := List.getElem?_of_mem hcolumn
    have hlt : position < columns.length := by
      rw [← hlength]
      exact (List.getElem?_eq_some_iff.mp hposition).1
    have hfound := hresolve ⟨position, hlt⟩
    rw [hname ⟨position, hlt⟩ column hposition] at hfound
    exact ⟨_, by rw [hfound]; rfl⟩
  have hforall := mapM_eq_ok_iff.mp hreferences
  refine ⟨rows.map fun row => references.map fun entry => entry.1.element (row entry.2), ?_, ?_⟩
  · rw [collectRows, hreferences]
    have hensure : ensure (decide (schema.length ≤ maxFunctionArguments))
        ServerError.tooManyArguments = .ok () := by
      rw [ensure_eq_ok, decide_eq_true_eq, hlength]
      exact h.2
    rw [hensure]
    rfl
  · refine List.forall₂_map_right_iff.mpr (List.forall₂_same.mpr fun row _ => ?_)
    refine ⟨by rw [List.length_map, ← hforall.length_eq, hlength], fun index => ?_⟩
    have hlt : index.val < schema.length := by rw [hlength]; exact index.isLt
    have hlt' : index.val < references.length := by rw [← hforall.length_eq]; exact hlt
    have hentry := List.forall₂_iff_get.mp hforall |>.2 index.val hlt hlt'
    obtain ⟨found, hfound, hpair⟩ := map_eq_ok.mp hentry
    have hself := hresolve index
    rw [hname index _ (List.getElem?_eq_getElem hlt)] at hself
    have hindex : found = index := by
      have hsame := (mapError_eq_ok.mp hfound).symm.trans hself
      exact Except.ok.inj hsame
    rw [List.getElem?_map, List.getElem?_eq_getElem hlt', List.getElem?_eq_getElem hlt]
    simp only [List.get_eq_getElem] at hpair
    rw [Option.map_some, Option.map_some, ← hpair, hindex]

theorem rowsAlign_iff : RowsAlign columns schema ↔ DistinctColumns columns := by
  constructor
  · intro h
    obtain ⟨arrays, harrays, -⟩ := h (V := Unit) []
    exact collectRows_ok hnames harrays
  · exact rowsAlign_of_distinct hnames

end Align

theorem orderAligns_of_distinct {columns : List String} {orderBy : List OrderBy}
    (h : DistinctColumns columns) (horder : ∀ order ∈ orderBy, order.outputReference ∈ columns) :
    OrderAligns columns orderBy := by
  intro order ho
  obtain ⟨index, hindex⟩ := List.get_of_mem (horder order ho)
  refine ⟨index, hindex, ?_⟩
  rw [← hindex]
  exact (resolves_each_iff clipIdentifier).mpr h.1 index

/-! ## Compiled statements -/

/-- The names of the select list. -/
def Sql.Query.outputs (query : Sql.Query) : List String :=
  query.dimensions.map Prod.snd ++ query.metrics.map Prod.snd

theorem lower_outputs {validated : ValidatedQuery} {statement : Sql.Query}
    (h : validated.lower = .ok statement) :
    statement.outputs = (outputSchema validated).map OutputColumn.name := by
  obtain ⟨hdims, -, hmetrics, -⟩ := lower_ok h
  rw [Sql.Query.outputs, lowerDimensions_names hdims, hmetrics, outputSchema, List.map_append,
    ValidatedQuery.lowerMetrics, List.map_map, List.map_map, List.map_map]
  rfl

/-- The tree of a compiled mutation; its `RETURNING` list has the names of the schema. -/
theorem compileLsm_statement {backend : MutationBackend} {normalized : NormalizedLsm}
    {snapshot : SemanticSnapshot} {capabilities : MutationCapabilities}
    {options : MutationCompilerOptions} {compiled : CompiledMutation}
    (h : compileLsm backend normalized snapshot capabilities options = .ok compiled) :
    ∃ statement : InsertStatement, compiled.statement = statement.text ∧
      statement.returning.map Prod.snd = compiled.returningSchema.map OutputColumn.name := by
  simp only [compileLsm, finishMutation, renderMutation, bind_eq_ok, pure_eq_ok] at h
  obtain ⟨_, -, _, -, model, -, writable, -, updates, hupdates, _, -, conflict, hconflict,
    hashInput, -, rfl⟩ := h
  obtain rfl := conflictClause_eq _ hupdates hconflict
  refine ⟨_, insertStatement_text _, ?_⟩
  simp only [insertStatement, assembleMutation, List.map_map]
  rfl

/-- The rows of a compiled statement line up with its columns exactly when the server tells the
columns apart and can collect all of them. -/
theorem result_rows_align_iff (snapshot : SemanticSnapshot) :
    (∀ {backend : CompilerBackend} {normalized : NormalizedLsq}
      {options : CompilerOptions} {compiled : CompiledQuery},
      compileLsq backend normalized snapshot options = .ok compiled →
      ∃ validated statement,
        validate backend.toHashBackend normalized snapshot options = .ok validated ∧
        validated.lower = .ok statement ∧
        lex (Executor.resultWrapperSql compiled) =
          some (lexemes (queryWrapperPieces compiled.outputSchema statement.emitted.pieces) []) ∧
        (RowsAlign statement.outputs compiled.outputSchema ∧
            OrderAligns statement.outputs statement.orderBy ↔
          DistinctColumns statement.outputs)) ∧
    ∀ {backend : MutationBackend} {normalized : NormalizedLsm}
      {capabilities : MutationCapabilities} {options : MutationCompilerOptions}
      {compiled : CompiledMutation},
      compileLsm backend normalized snapshot capabilities options = .ok compiled →
      ∃ statement : InsertStatement, compiled.statement = statement.text ∧
        lex (MutationExecutor.resultWrapperSql compiled) =
          some (lexemes (mutationWrapperPieces compiled.returningSchema statement.pieces) []) ∧
        (RowsAlign (statement.returning.map Prod.snd) compiled.returningSchema ↔
          DistinctColumns (statement.returning.map Prod.snd)) := by
  refine ⟨?_, ?_⟩
  · intro backend normalized options compiled h
    obtain ⟨validated, statement, hvalid, hlower, hsql, -⟩ := compileLsq_ok h
    obtain ⟨model, -, hresolved⟩ := validate_ok hvalid
    have hnames : statement.outputs = compiled.outputSchema.map OutputColumn.name := by
      rw [lower_outputs hlower, compileLsq_outputSchema hvalid h]
    refine ⟨validated, statement, hvalid, hlower, ?_, ?_⟩
    · rw [← assemble_queryWrapper hsql]
      exact lex_assemble (clean_queryWrapper statement.emitted.clean _) []
    · have horder : ∀ order ∈ statement.orderBy, order.outputReference ∈ statement.outputs := by
        rw [(lower_anchor hlower).2.1, hresolved.orderBy, lower_outputs hlower]
        have hreferences : (outputSchema validated).map OutputColumn.name =
            normalized.query.references := by
          rw [← hresolved.outputs_eq, outputSchema, List.map_append, List.map_map, List.map_map]
          rfl
        rw [hreferences]
        exact hresolved.ordered
      constructor
      · intro haligned
        exact (rowsAlign_iff hnames).mp haligned.1
      · intro hdistinct
        exact ⟨(rowsAlign_iff hnames).mpr hdistinct, orderAligns_of_distinct hdistinct horder⟩
  · intro backend normalized capabilities options compiled h
    obtain ⟨statement, htext, hnames⟩ := compileLsm_statement h
    refine ⟨statement, htext, ?_, rowsAlign_iff hnames⟩
    rw [← assemble_mutationWrapper (htext.trans statement.assemble_pieces.symm)]
    exact lex_assemble (clean_mutationWrapper statement.clean_pieces _) []

/-! Two columns whose names are alike in their first 63 bytes. -/

def ledgerName (last : String) : String :=
  "confirmed_order_revenue_in_the_reporting_currency_of_the_ledger" ++ last

def ledgerSnapshot : SemanticSnapshot :=
  { schemaVersion := "2"
    revisionHash := "sha256:5cfa68dd0a01b7a9c233a40a47138270b03d63b30ecf174b1ab469947ee5197e"
    models :=
      [{ semanticName := "orders"
         source := ⟨"commerce", "orders"⟩
         fields :=
          [{ semanticName := ledgerName "_net", dataType := .numeric, column := "net" },
           { semanticName := ledgerName "_gross", dataType := .numeric, column := "gross" }]
         metrics := [] }] }

theorem ledgerSnapshot_checked : checkSnapshot standardHash ledgerSnapshot = .ok () := by
  apply checkSnapshot_of_published (by decide)
  apply published_of_codes
  decide +kernel

def ordersByRevenue : NormalizedLsq :=
  LogicalSemanticQuery.normalize standardHash
    { model := "orders"
      dimensions := [{ field := ledgerName "_net" }, { field := ledgerName "_gross" }] } (by decide)

theorem ordersByRevenue_compiles :
    ∃ compiled, compileLsq standardBackend ordersByRevenue ledgerSnapshot {} = .ok compiled := by
  have hlower : succeedsWith (validateAgainst ordersByRevenue ledgerSnapshot {} >>=
      ValidatedQuery.lower) (fun _ => true) = true := by decide +kernel
  obtain ⟨statement, hstatement, -⟩ := exists_ok_of_succeedsWith hlower
  obtain ⟨compiled, hcompiled, -⟩ := compileLsq_standard ledgerSnapshot_checked hstatement
  exact ⟨compiled, hcompiled⟩

theorem result_rows_align_orders :
    (∃ compiled, compileLsq standardBackend ordersByRevenue ledgerSnapshot {} = .ok compiled ∧
      ∃ validated statement,
        validate standardBackend.toHashBackend ordersByRevenue ledgerSnapshot {} = .ok validated ∧
        validated.lower = .ok statement ∧
        lex (Executor.resultWrapperSql compiled) =
          some (lexemes (queryWrapperPieces compiled.outputSchema statement.emitted.pieces) []) ∧
        (RowsAlign statement.outputs compiled.outputSchema ∧
            OrderAligns statement.outputs statement.orderBy ↔
          DistinctColumns statement.outputs)) ∧
    ∃ compiled, compileLsm standardMutationBackend twoLinesMutation
        (linesSnapshot ["order_id", "line"]) linesCapabilities {} = .ok compiled ∧
      ∃ statement : InsertStatement, compiled.statement = statement.text ∧
        lex (MutationExecutor.resultWrapperSql compiled) =
          some (lexemes (mutationWrapperPieces compiled.returningSchema statement.pieces) []) ∧
        (RowsAlign (statement.returning.map Prod.snd) compiled.returningSchema ↔
          DistinctColumns (statement.returning.map Prod.snd)) := by
  obtain ⟨query, hquery⟩ := ordersByRevenue_compiles
  obtain ⟨mutation, hmutation⟩ := twoLines_compiles
  exact ⟨⟨query, hquery, (result_rows_align_iff ledgerSnapshot).1 hquery⟩,
    ⟨mutation, hmutation, (result_rows_align_iff (linesSnapshot ["order_id", "line"])).2 hmutation⟩⟩

/-- Distinct names of two columns that the server reads as one. -/
theorem ledger_columns_collide :
    ∃ compiled, compileLsq standardBackend ordersByRevenue ledgerSnapshot {} = .ok compiled ∧
      compiled.outputSchema.map OutputColumn.name = [ledgerName "_net", ledgerName "_gross"] ∧
      (compiled.outputSchema.map OutputColumn.name).Nodup ∧
      ¬ RowsAlign (compiled.outputSchema.map OutputColumn.name) compiled.outputSchema := by
  obtain ⟨compiled, hcompiled⟩ := ordersByRevenue_compiles
  obtain ⟨validated, statement, hvalid, hlower, -⟩ := compileLsq_ok hcompiled
  obtain ⟨model, -, hresolved⟩ := validate_ok hvalid
  have hnames : compiled.outputSchema.map OutputColumn.name =
      [ledgerName "_net", ledgerName "_gross"] := by
    rw [compileLsq_outputSchema hvalid hcompiled, outputSchema, List.map_append, List.map_map,
      List.map_map]
    exact hresolved.outputs_eq
  refine ⟨compiled, hcompiled, hnames, by rw [hnames]; decide, ?_⟩
  rw [rowsAlign_iff rfl, hnames]
  decide +kernel

end Postgresem
