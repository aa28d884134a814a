import Postgresem.Mutation.Indexing

/-! Where the values of a mutation land. The compiled text is read as the tree of an `INSERT`
statement; the placeholder in a cell of its `VALUES` names the parameter that holds the value of
that row and field. -/
namespace Postgresem
open Control

/-- `$<position>`, cast to a data type. -/
structure Placeholder where
  position : Nat
  dataType : DataType
  deriving DecidableEq, Repr

/-- `ON CONFLICT (<columns>) DO UPDATE SET`, with one `<column> = EXCLUDED.<column>` for each of
the updates. -/
structure ConflictAction where
  columns : List String
  updates : List String
  deriving DecidableEq, Repr

structure InsertStatement where
  relation : Relation
  columns : List String
  values : List (List Placeholder)
  conflict : Option ConflictAction
  /-- Columns with the names under which they are returned. -/
  returning : List (String × String)
  deriving DecidableEq, Repr

/-! ## Writing the tree -/

def Placeholder.text (placeholder : Placeholder) : String :=
  mutationParameterSql placeholder.position placeholder.dataType

def valuesText (row : List Placeholder) : String :=
  "  (" ++ ", ".intercalate (row.map Placeholder.text) ++ ")"

def ConflictAction.text (action : ConflictAction) : String :=
  "\nON CONFLICT (" ++ ", ".intercalate (action.columns.map quoteIdentifier) ++ ") DO UPDATE SET\n"
    ++ ",\n".intercalate (action.updates.map fun column =>
      "  " ++ quoteIdentifier column ++ " = EXCLUDED." ++ quoteIdentifier column)

/-- A statement without a conflict clause writes nothing in its place. -/
def conflictText? : Option ConflictAction → String
  | some action => action.text
  | none => ""

def returnedText (item : String × String) : String :=
  "  " ++ quoteIdentifier item.1 ++ " AS " ++ quoteIdentifier item.2

def insertHead (relation : Relation) (columns rows : List String) : String :=
  "INSERT INTO " ++ quoteIdentifier relation.schema ++ "." ++ quoteIdentifier relation.relation
    ++ " (" ++ ", ".intercalate columns ++ ")\nVALUES\n" ++ ",\n".intercalate rows

def returningTail (items : List String) : String := "\nRETURNING\n" ++ ",\n".intercalate items

def InsertStatement.text (statement : InsertStatement) : String :=
  insertHead statement.relation (statement.columns.map quoteIdentifier)
      (statement.values.map valuesText)
    ++ conflictText? statement.conflict ++ returningTail (statement.returning.map returnedText)

/-! ## The cells of a row and of the rows -/

section Cells
variable (fields : List (String × Field))

/-- The placeholders of one row, numbered from `position`. -/
def placeholders (inputNames : List String) (position : Nat) : List Placeholder :=
  inputNames.zipIdx.map fun entry =>
    { position := position + entry.2 + 1, dataType := (fieldOf fields entry.1).dataType }

theorem valuesText_placeholders (inputNames : List String) (row : MutationRow) (position : Nat) :
    valuesText (placeholders fields inputNames position) =
      "  (" ++ ", ".intercalate ((rowParameters fields inputNames row position).map
        fun parameter => mutationParameterSql parameter.position parameter.dataType) ++ ")" := by
  simp only [valuesText, placeholders, rowParameters, List.map_map]
  rfl

theorem valueRows_eq (inputNames : List String) (rows : List MutationRow) (start : Nat) :
    valueRows fields inputNames rows (start * inputNames.length) =
      (rows.zipIdx start).map fun entry =>
        valuesText (placeholders fields inputNames (entry.2 * inputNames.length)) := by
  induction rows generalizing start with
  | nil => rfl
  | cons row rows ih =>
    rw [valueRows, ← valuesText_placeholders fields inputNames row, ← Nat.succ_mul, ih,
      List.zipIdx_cons, List.map_cons]

theorem rowParameters_getElem? {inputNames : List String} {c : Nat} {name : String}
    (hname : inputNames[c]? = some name) (row : MutationRow) (position : Nat) :
    (rowParameters fields inputNames row position)[c]? =
      some { position := position + c + 1, dataType := (fieldOf fields name).dataType
             value := row.value name } := by
  rw [rowParameters, List.getElem?_map, List.getElem?_zipIdx, hname]
  simp

theorem length_rowParameters (inputNames : List String) (row : MutationRow) (position : Nat) :
    (rowParameters fields inputNames row position).length = inputNames.length := by
  simp [rowParameters]

theorem length_parametersFrom (inputNames : List String) (rows : List MutationRow)
    (position : Nat) : (parametersFrom fields inputNames rows position).length =
      rows.length * inputNames.length := by
  induction rows generalizing position with
  | nil => simp [parametersFrom]
  | cons row rows ih =>
    rw [parametersFrom, List.length_append, length_rowParameters, ih, List.length_cons,
      Nat.succ_mul, Nat.add_comm]

/-- The parameter of row `r` and field `c` is the one at `r * k + c`. -/
theorem parametersFrom_getElem? {inputNames : List String} {rows : List MutationRow} {r c : Nat}
    {row : MutationRow} {name : String} (hrow : rows[r]? = some row)
    (hname : inputNames[c]? = some name) (position : Nat) :
    (parametersFrom fields inputNames rows position)[r * inputNames.length + c]? =
      some { position := position + r * inputNames.length + c + 1
             dataType := (fieldOf fields name).dataType, value := row.value name } := by
  have hc : c < inputNames.length := (List.getElem?_eq_some_iff.mp hname).1
  induction rows generalizing r position with
  | nil => simp at hrow
  | cons first rows ih =>
    have hlength := length_rowParameters fields inputNames first position
    rw [parametersFrom]
    cases r with
    | zero =>
      simp only [List.getElem?_cons_zero, Option.some.injEq] at hrow
      rw [Nat.zero_mul, Nat.zero_add, List.getElem?_append_left (by omega), hrow,
        rowParameters_getElem? fields hname, Nat.add_zero position]
    | succ r =>
      rw [List.getElem?_cons_succ] at hrow
      have hstep : (r + 1) * inputNames.length + c - inputNames.length =
          r * inputNames.length + c := by
        rw [Nat.succ_mul]
        omega
      rw [List.getElem?_append_right (by rw [hlength, Nat.succ_mul]; omega), hlength, hstep,
        ih hrow, Nat.succ_mul]
      congr 2
      omega

/-! ## The statement that a mutation compiles to -/

/-- The action of a conflict clause; an insert has none. -/
def conflictAction (mutation : LogicalSemanticMutation) (writable : WritableModel) :
    Option ConflictAction :=
  match mutation.operation, writable.upsert with
  | .upsert, some upsert => some
      { columns := upsert.conflictFields.map (columnOf fields)
        updates := (updatableNames writable mutation.inputNames).map (columnOf fields) }
  | _, _ => none

def insertStatement (mutation : LogicalSemanticMutation) (relation : Relation)
    (writable : WritableModel) : InsertStatement :=
  { relation := relation
    columns := mutation.inputNames.map (columnOf fields)
    values := mutation.rows.zipIdx.map fun entry =>
      placeholders fields mutation.inputNames (entry.2 * mutation.inputNames.length)
    conflict := conflictAction fields mutation writable
    returning := writable.returning.map fun name => (columnOf fields name, name) }

theorem conflictClause_eq {mutation : LogicalSemanticMutation} {writable : WritableModel}
    {updates : List String} {conflict : String}
    (hupdates : updateNames mutation writable = .ok updates)
    (h : conflictClause mutation writable fields updates = .ok conflict) :
    conflict = conflictText? (conflictAction fields mutation writable) := by
  unfold conflictClause at h
  unfold updateNames at hupdates
  unfold conflictAction
  cases hoperation : mutation.operation with
  | insert =>
    rw [hoperation] at h
    exact (Except.ok.inj h).symm
  | upsert =>
    rw [hoperation] at h hupdates
    rw [map_eq_ok] at h
    obtain ⟨upsert, hupsert, rfl⟩ := h
    rw [orError_eq_ok] at hupsert
    rw [hupsert] at hupdates ⊢
    simp only [bind_eq_ok, pure_eq_ok] at hupdates
    obtain ⟨-, -, -, -, rfl⟩ := hupdates
    simp only [conflictText, conflictText?, ConflictAction.text, List.map_map, Function.comp_def]

theorem insertStatement_text {backend : MutationBackend} {normalized : NormalizedLsm}
    {snapshot : SemanticSnapshot} {relation : Relation} {writable : WritableModel}
    {profile hashInput : String} :
    (assembleMutation backend normalized snapshot relation writable.returning fields profile
      (conflictText? (conflictAction fields normalized.mutation writable)) hashInput).statement =
      (insertStatement fields normalized.mutation relation writable).text := by
  have hvalues := valueRows_eq fields normalized.mutation.inputNames normalized.mutation.rows 0
  rw [Nat.zero_mul] at hvalues
  have hcolumns : (normalized.mutation.inputNames.map (columnOf fields)).map quoteIdentifier =
      normalized.mutation.inputNames.map fun name => quoteIdentifier (columnOf fields name) :=
    List.map_map
  have hreturning : (writable.returning.map fun name => (columnOf fields name, name)).map
      returnedText = writable.returning.map fun name =>
        "  " ++ quoteIdentifier (columnOf fields name) ++ " AS " ++ quoteIdentifier name :=
    List.map_map
  have hcells : (normalized.mutation.rows.zipIdx.map fun entry => placeholders fields
      normalized.mutation.inputNames (entry.2 * normalized.mutation.inputNames.length)).map
      valuesText = valueRows fields normalized.mutation.inputNames normalized.mutation.rows 0 := by
    rw [hvalues]
    exact List.map_map
  rw [InsertStatement.text, insertStatement, hcolumns, hcells, hreturning]
  rfl

end Cells

/-! ## The published fields behind the columns -/

def Model.fieldNamed (model : Model) (name : String) : Option Field :=
  model.fields.find? fun field => field.semanticName == name

/-- The columns of some fields of the model, in order. -/
def Columns (model : Model) (names columns : List String) : Prop :=
  List.Forall₂ (fun name column => (model.fieldNamed name).map Field.column = some column)
    names columns

/-- The fields of the mutation that the model lets a conflict overwrite. -/
def overwritten (mutation : LogicalSemanticMutation) (writable : WritableModel) : List String :=
  mutation.inputNames.filter fun name =>
    writable.fields.any fun policy => policy.field == name && policy.updatableOnConflict

/-- Each value of the mutation in its cell, with `rows.length * inputNames.length` cells. -/
structure Placed (model : Model) (writable : WritableModel) (mutation : LogicalSemanticMutation)
    (compiled : CompiledMutation) (statement : InsertStatement) : Prop where
  text : compiled.statement = statement.text
  target : statement.relation = model.source
  columns : Columns model mutation.inputNames statement.columns
  height : statement.values.length = mutation.rows.length
  width : ∀ row ∈ statement.values, row.length = mutation.inputNames.length
  count : compiled.parameters.length = mutation.rows.length * mutation.inputNames.length
  cell : ∀ r c row name, mutation.rows[r]? = some row → mutation.inputNames[c]? = some name →
    ∃ field value, model.fieldNamed name = some field ∧ row.entries.lookup name = some value ∧
      (statement.values[r]?.bind fun placeholders => placeholders[c]?) = some
        { position := r * mutation.inputNames.length + c + 1, dataType := field.dataType } ∧
      compiled.parameters[r * mutation.inputNames.length + c]? = some
        { position := r * mutation.inputNames.length + c + 1, dataType := field.dataType
          value := value }
  insert : mutation.operation = .insert → statement.conflict = none
  upsert : mutation.operation = .upsert → ∃ upsert action,
    writable.upsert = some upsert ∧ statement.conflict = some action ∧
      Columns model upsert.conflictFields action.columns ∧
      Columns model (overwritten mutation writable) action.updates
  returning : statement.returning.map Prod.snd = writable.returning ∧
    Columns model writable.returning (statement.returning.map Prod.fst)
  schema : List.Forall₂ (fun name column => (model.fieldNamed name).map (fun field =>
    { name := name, dataType := field.dataType : OutputColumn }) = some column)
      writable.returning compiled.returningSchema
  expectedRows : compiled.expectedRows = mutation.rows.length

section Published
variable {model : Model} {names : List String}

theorem fieldNamed_of_lookup (hnodup : (model.fields.map Field.semanticName).Nodup) {name : String}
    (h : ∃ field, (OrderedMap.collect Field.semanticName model.fields).lookup name = some field) :
    model.fieldNamed name =
      some (fieldOf (OrderedMap.collect Field.semanticName model.fields) name) := by
  obtain ⟨field, hfield⟩ := h
  rw [fieldOf, hfield, Option.getD_some, Model.fieldNamed, Named.find?_eq_some_iff hnodup]
  rw [OrderedMap.lookup_collect] at hfield
  have hmem := List.mem_of_getLast? hfield
  rwa [List.mem_filter, decide_eq_true_iff] at hmem

theorem columns_of_indexed (hnodup : (model.fields.map Field.semanticName).Nodup)
    (h : Indexed (OrderedMap.collect Field.semanticName model.fields) names) :
    Columns model names
      (names.map (columnOf (OrderedMap.collect Field.semanticName model.fields))) := by
  rw [Columns, List.forall₂_map_right_iff, List.forall₂_same]
  intro name hname
  rw [fieldNamed_of_lookup hnodup (h name hname)]
  rfl

theorem policy_lookup {policies : List WritableField}
    (hnodup : (policies.map WritableField.field).Nodup) (name : String) :
    ((OrderedMap.collect WritableField.field policies).lookup name).any
        WritableField.updatableOnConflict =
      policies.any fun policy => policy.field == name && policy.updatableOnConflict := by
  rw [OrderedMap.lookup_collect, Bool.eq_iff_iff, List.any_eq_true, Option.any_eq_true]
  constructor
  · rintro ⟨policy, hlast, hupdatable⟩
    have hmem := List.mem_of_getLast? hlast
    rw [List.mem_filter, decide_eq_true_iff] at hmem
    exact ⟨policy, hmem.1, by simp [hmem.2, hupdatable]⟩
  · rintro ⟨policy, hmem, hpolicy⟩
    rw [Bool.and_eq_true, beq_iff_eq] at hpolicy
    have hne : policies.filter (fun other => other.field = name) ≠ [] :=
      List.ne_nil_of_mem (List.mem_filter.mpr ⟨hmem, by simpa using hpolicy.1⟩)
    obtain ⟨last, hlast⟩ := Option.ne_none_iff_exists'.mp
      (fun hnone => hne (List.getLast?_eq_none_iff.mp hnone))
    have hother := List.mem_filter.mp (List.mem_of_getLast? hlast)
    rw [decide_eq_true_iff] at hother
    have hsame : last = policy := List.inj_on_of_nodup_map hnodup hother.1 hmem
      (hother.2.trans hpolicy.1.symm)
    exact ⟨policy, hsame ▸ hlast, hpolicy.2⟩

theorem updatableNames_eq {mutation : LogicalSemanticMutation} {writable : WritableModel}
    (hnodup : (writable.fields.map WritableField.field).Nodup) :
    updatableNames writable mutation.inputNames = overwritten mutation writable :=
  List.filter_congr fun name _ => policy_lookup hnodup name

theorem lookup_of_keys {row : MutationRow} {name : String} (h : name ∈ row.keys) :
    row.entries.lookup name = some (row.value name) := by
  obtain ⟨value, hvalue⟩ := lookup_of_mem_keys h
  rw [MutationRow.value, hvalue]
  rfl

theorem placeholders_getElem? (fields : List (String × Field)) {c : Nat} {name : String}
    (hname : names[c]? = some name) (position : Nat) :
    (placeholders fields names position)[c]? =
      some { position := position + c + 1, dataType := (fieldOf fields name).dataType } := by
  rw [placeholders, List.getElem?_map, List.getElem?_zipIdx, hname]
  simp

/-- What the checks establish about the names that a mutation uses. -/
structure Admitted (model : Model) (writable : WritableModel) (mutation : LogicalSemanticMutation) :
    Prop where
  checked : WritableChecked (OrderedMap.collect Field.semanticName model.fields) writable
  input : Indexed (OrderedMap.collect Field.semanticName model.fields) mutation.inputNames

theorem admitted_of_admitMutation {normalized : NormalizedLsm} {options : MutationCompilerOptions}
    {writable : WritableModel} (h : admitMutation normalized model options = .ok writable) :
    model.writable = some writable ∧ Admitted model writable normalized.mutation := by
  simp only [admitMutation, bind_eq_ok, orError_eq_ok, pure_eq_ok] at h
  obtain ⟨writable', hwritable, _, hvalid, _, _, _, hinput, rfl⟩ := h
  exact ⟨hwritable, writableChecked hvalid, fun name hname =>
    lookup_of_checkInputField (forEach_eq_ok.mp hinput name hname)⟩

/-- The compiled mutation says what its tree says, cell by cell. -/
theorem placed_insertStatement {backend : MutationBackend} {normalized : NormalizedLsm}
    {snapshot : SemanticSnapshot} {writable : WritableModel} {profile hashInput : String}
    (hnodup : (model.fields.map Field.semanticName).Nodup)
    (hadmitted : Admitted model writable normalized.mutation)
    (hoperation : normalized.mutation.operation = .upsert → writable.upsert.isSome) :
    let fields := OrderedMap.collect Field.semanticName model.fields
    Placed model writable normalized.mutation
      (assembleMutation backend normalized snapshot model.source writable.returning fields profile
        (conflictText? (conflictAction fields normalized.mutation writable)) hashInput)
      (insertStatement fields normalized.mutation model.source writable) := by
  intro fields
  have hreturning : Indexed fields writable.returning := fun name hname =>
    lookup_of_isDirectField (hadmitted.checked.returning name hname)
  refine
    { text := insertStatement_text fields
      target := rfl
      columns := columns_of_indexed hnodup hadmitted.input
      height := by simp [insertStatement]
      width := ?width
      count := length_parametersFrom fields _ _ 0
      cell := ?cell
      insert := ?insert
      upsert := ?upsert
      returning := ?returning
      schema := ?schema
      expectedRows := rfl }
  case width =>
    intro row hrow
    obtain ⟨entry, -, rfl⟩ := List.mem_map.mp hrow
    simp [placeholders]
  case cell =>
    intro r c row name hrow hname
    have hmem := List.mem_of_getElem? hname
    have hkeys := normalized.keys_eq (List.mem_of_getElem? hrow)
    have hparameter := parametersFrom_getElem? fields hrow hname 0
    rw [Nat.zero_add] at hparameter
    refine ⟨fieldOf fields name, row.value name, fieldNamed_of_lookup hnodup
      (hadmitted.input name hmem), lookup_of_keys (hkeys ▸ hmem), ?_, hparameter⟩
    simp only [insertStatement, List.getElem?_map, List.getElem?_zipIdx, hrow, Option.map_some,
      Option.bind_some, Nat.zero_add]
    exact placeholders_getElem? fields hname _
  case insert =>
    intro hinsert
    simp only [insertStatement, conflictAction, hinsert]
  case upsert =>
    intro hupsert
    obtain ⟨upsert, hsome⟩ := Option.isSome_iff_exists.mp (hoperation hupsert)
    refine ⟨upsert,
      { columns := upsert.conflictFields.map (columnOf fields)
        updates := (updatableNames writable normalized.mutation.inputNames).map (columnOf fields) },
      hsome, ?_, ?_, ?_⟩
    · simp only [insertStatement, conflictAction, hupsert, hsome]
    · exact columns_of_indexed hnodup (hadmitted.checked.conflict_indexed hsome)
    · rw [← updatableNames_eq hadmitted.checked.policies_nodup]
      exact columns_of_indexed hnodup fun name hname =>
        hadmitted.input name (List.mem_of_mem_filter hname)
  case returning =>
    simp only [insertStatement, List.map_map, Function.comp_def, List.map_id']
    exact ⟨trivial, columns_of_indexed hnodup hreturning⟩
  case schema =>
    simp only [assembleMutation, List.forall₂_map_right_iff, List.forall₂_same]
    intro name hname
    rw [fieldNamed_of_lookup hnodup (hreturning name hname)]
    rfl

end Published

/-- An upsert passed its limits, so the model has a conflict policy. -/
theorem upsert_of_limits {mutation : LogicalSemanticMutation} {inputBytes : Nat}
    {writable : WritableModel} {options : MutationCompilerOptions}
    (h : checkModelLimits mutation inputBytes writable options = .ok ()) :
    mutation.operation = .upsert → writable.upsert.isSome := by
  intro hupsert
  simp only [checkModelLimits, bind_eq_ok, exists_const, ensure_eq_ok, hupsert] at h
  exact h.2.2.2

theorem placed_of_compileLsm {backend : MutationBackend} {normalized : NormalizedLsm}
    {snapshot : SemanticSnapshot} {capabilities : MutationCapabilities}
    {options : MutationCompilerOptions} {compiled : CompiledMutation}
    (hnodup : ∀ model ∈ snapshot.models, (model.fields.map Field.semanticName).Nodup)
    (h : compileLsm backend normalized snapshot capabilities options = .ok compiled) :
    ∃ model writable statement, snapshot.mutationModel normalized.mutation.model = some model ∧
      model.writable = some writable ∧
      Placed model writable normalized.mutation compiled statement := by
  simp only [compileLsm, bind_eq_ok, orError_eq_ok] at h
  obtain ⟨_, -, _, -, model, hmodel, writable, hadmit, hfinish⟩ := h
  obtain ⟨hwritable, hadmitted⟩ := admitted_of_admitMutation hadmit
  have hmem := List.mem_of_find?_eq_some hmodel
  have hlimits : normalized.mutation.operation = .upsert → writable.upsert.isSome := by
    simp only [admitMutation, bind_eq_ok, orError_eq_ok, pure_eq_ok] at hadmit
    obtain ⟨_, _, _, _, _, hlimits, _, _, rfl⟩ := hadmit
    exact upsert_of_limits hlimits
  simp only [finishMutation, renderMutation, bind_eq_ok, pure_eq_ok] at hfinish
  obtain ⟨updates, hupdates, _, -, conflict, hconflict, hashInput, -, rfl⟩ := hfinish
  obtain rfl := conflictClause_eq _ hupdates hconflict
  exact ⟨model, writable, _, hmodel, hwritable,
    placed_insertStatement (hnodup model hmem) hadmitted hlimits⟩

/-- The compiler never takes an index without an entry, and every value of a compiled mutation
stands in the cell of its row and field. -/
theorem mutation_values_placed (backend : MutationBackend) (normalized : NormalizedLsm)
    (snapshot : SemanticSnapshot) (capabilities : MutationCapabilities)
    (options : MutationCompilerOptions)
    (hnodup : ∀ model ∈ snapshot.models, (model.fields.map Field.semanticName).Nodup) :
    compileLsmIndexed backend normalized snapshot capabilities options ≠ .error .missingKey ∧
      ∀ compiled, compileLsmIndexed backend normalized snapshot capabilities options =
          .ok compiled →
        ∃ model writable statement,
          snapshot.mutationModel normalized.mutation.model = some model ∧
          model.writable = some writable ∧
          Placed model writable normalized.mutation compiled statement := by
  rw [compileLsmIndexed_eq]
  constructor
  · cases compileLsm backend normalized snapshot capabilities options <;> simp
  · intro compiled h
    exact placed_of_compileLsm hnodup (mapError_eq_ok.mp h)

/-- Two order lines in one upsert. -/
def twoLinesMutation : NormalizedLsm :=
  LogicalSemanticMutation.normalize standardHash 200
    { operation := .upsert, model := "lines", idempotencyKey := "k2"
      rows := [quantityRow, quantityRow] } (by decide)

theorem twoLines_compiles : ∃ compiled, compileLsm standardMutationBackend twoLinesMutation
    (linesSnapshot ["order_id", "line"]) linesCapabilities {} = .ok compiled := by
  have hcompiles : succeedsWith (compileLsm standardMutationBackend twoLinesMutation
      (linesSnapshot ["order_id", "line"]) linesCapabilities {}) (fun _ => true) = true := by
    rw [compileLsm, linesSnapshot_valid]
    decide +kernel
  obtain ⟨compiled, hcompiled, -⟩ := exists_ok_of_succeedsWith hcompiles
  exact ⟨compiled, hcompiled⟩

theorem two_lines_placed :
    compileLsmIndexed standardMutationBackend twoLinesMutation
        (linesSnapshot ["order_id", "line"]) linesCapabilities {} ≠ .error .missingKey ∧
      ∃ compiled, compileLsmIndexed standardMutationBackend twoLinesMutation
          (linesSnapshot ["order_id", "line"]) linesCapabilities {} = .ok compiled ∧
        ∃ model writable statement,
          (linesSnapshot ["order_id", "line"]).mutationModel "lines" = some model ∧
          model.writable = some writable ∧
          Placed model writable twoLinesMutation.mutation compiled statement := by
  have hplaced := mutation_values_placed standardMutationBackend twoLinesMutation
    (linesSnapshot ["order_id", "line"]) linesCapabilities {} (by decide)
  obtain ⟨compiled, hcompiled⟩ := twoLines_compiles
  have hindexed : compileLsmIndexed standardMutationBackend twoLinesMutation
      (linesSnapshot ["order_id", "line"]) linesCapabilities {} = .ok compiled := by
    rw [compileLsmIndexed_eq, hcompiled]
    rfl
  exact ⟨hplaced.1, compiled, hindexed, hplaced.2 compiled hindexed⟩

end Postgresem
