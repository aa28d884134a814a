import Postgresem.Compiler.Identifiers
import Postgresem.Mutation.Cells
import Postgresem.Relational.ColumnNames

/-! The statements that the executors send: the compiled statement as the source of a query that
collects its output columns, by name, into one array. -/
namespace Postgresem
open Control Template Lexing Relational

/-- A value that has to keep its digits is collected as text. -/
def rowValue (source : String) (column : OutputColumn) : String :=
  let identifier := source ++ "." ++ quoteIdentifier column.name
  if column.dataType = .numeric then identifier ++ "::text" else identifier

/-- The values of a row as one array. -/
def arrayText (source : String) (schema : List OutputColumn) : String :=
  "SELECT jsonb_build_array(" ++ ", ".intercalate (schema.map (rowValue source))

def Executor.resultWrapperSql (compiled : CompiledQuery) : String :=
  arrayText "compiled_result" compiled.outputSchema ++ ") AS row_data\nFROM (\n" ++ compiled.sql
    ++ "\n) AS compiled_result"

def MutationExecutor.resultWrapperSql (compiled : CompiledMutation) : String :=
  "WITH mutation_result AS (\n" ++ compiled.statement ++ "\n)\n"
    ++ arrayText "mutation_result" compiled.returningSchema ++ ") AS row_data\nFROM mutation_result"

/-! ## The wrappers as templates -/

section Templates
variable {π : Type} [DecidableEq π]

def rowValuePieces (source : String) (column : OutputColumn) : List (Piece π) :=
  if column.dataType = .numeric then [.name (source ++ ".") column.name, .raw "::text"]
  else [.name (source ++ ".") column.name]

def collectPieces (source : String) (schema : List OutputColumn) : List (Piece π) :=
  .raw "SELECT jsonb_build_array(" :: joinWith ", " (schema.map (rowValuePieces source))

def queryWrapperPieces (schema : List OutputColumn) (statement : List (Piece π)) :
    List (Piece π) :=
  collectPieces "compiled_result" schema
    ++ .raw ") AS row_data\nFROM (\n" :: (statement ++ [.raw "\n) AS compiled_result"])

def mutationWrapperPieces (schema : List OutputColumn) (statement : List (Piece π)) :
    List (Piece π) :=
  .raw "WITH mutation_result AS (\n" :: (statement ++ .raw "\n)\n"
    :: (collectPieces "mutation_result" schema ++ [.raw ") AS row_data\nFROM mutation_result"]))

theorem assemble_rowValue (source : String) (column : OutputColumn) (pool : List π) :
    assemble (rowValuePieces source column) pool = (rowValue source column, pool) := by
  unfold rowValuePieces rowValue
  split <;> simp [quoteIdentifier, quoted, String.append_assoc]

theorem assemble_collect (source : String) (schema : List OutputColumn) (pool : List π) :
    assemble (collectPieces source schema) pool = (arrayText source schema, pool) := by
  have hvalues : assembleEach (schema.map (rowValuePieces source)) pool =
      (schema.map (rowValue source), pool) := by
    induction schema with
    | nil => rfl
    | cons column rest ih => rw [List.map_cons, assembleEach, assemble_rowValue, ih, List.map_cons]
  unfold collectPieces arrayText
  simp only [assemble_raw, assemble_joinWith, hvalues]

theorem assemble_queryWrapper {compiled : CompiledQuery} {statement : List (Piece π)}
    (h : compiled.sql = (assemble statement []).1) :
    (assemble (queryWrapperPieces compiled.outputSchema statement) []).1 =
      Executor.resultWrapperSql compiled := by
  unfold queryWrapperPieces Executor.resultWrapperSql
  rw [h]
  simp only [assemble_append, assemble_collect, assemble_raw, assemble_nil, String.append_assoc,
    String.append_empty]

theorem assemble_mutationWrapper {compiled : CompiledMutation} {statement : List (Piece π)}
    (h : compiled.statement = (assemble statement []).1) :
    (assemble (mutationWrapperPieces compiled.returningSchema statement) []).1 =
      MutationExecutor.resultWrapperSql compiled := by
  unfold mutationWrapperPieces MutationExecutor.resultWrapperSql
  rw [h]
  simp only [assemble_append, assemble_collect, assemble_raw, assemble_nil, String.append_assoc,
    String.append_empty]

omit [DecidableEq π]

theorem cleanPiece_raw {text : String} (h : Unquoted text.toList) :
    CleanPiece (π := π) (.raw text) := h

theorem clean_collect {source : String} (h : Unquoted (source ++ ".").toList)
    (hne : source ++ "." ≠ "") (schema : List OutputColumn) :
    Clean (collectPieces (π := π) source schema) := by
  refine clean_cons.mpr ⟨cleanPiece_raw (by decide), clean_joinWith (by decide) ?_⟩
  intro template ht
  obtain ⟨column, -, rfl⟩ := List.mem_map.mp ht
  unfold rowValuePieces
  split
  · exact clean_cons.mpr ⟨⟨h, hne⟩, clean_cons.mpr ⟨cleanPiece_raw (by decide), clean_nil⟩⟩
  · exact clean_cons.mpr ⟨⟨h, hne⟩, clean_nil⟩

theorem clean_queryWrapper {statement : List (Piece π)} (h : Clean statement)
    (schema : List OutputColumn) : Clean (queryWrapperPieces schema statement) := by
  simp only [queryWrapperPieces, clean_append, clean_cons, clean_nil]
  exact ⟨clean_collect (by decide) (by decide) schema, cleanPiece_raw (by decide), h,
    cleanPiece_raw (by decide), trivial⟩

theorem clean_mutationWrapper {statement : List (Piece π)} (h : Clean statement)
    (schema : List OutputColumn) : Clean (mutationWrapperPieces schema statement) := by
  simp only [mutationWrapperPieces, clean_append, clean_cons, clean_nil]
  exact ⟨cleanPiece_raw (by decide), h, cleanPiece_raw (by decide),
    clean_collect (by decide) (by decide) schema, cleanPiece_raw (by decide), trivial⟩

end Templates

/-! ## The mutation as a template -/

def ConflictAction.pieces (action : ConflictAction) : List (Piece Unit) :=
  .raw "\nON CONFLICT " :: (identifierList ", " action.columns ++ .raw ") DO UPDATE SET\n"
    :: joinWith ",\n" (action.updates.map fun column =>
      [.name "  " column, .name " = EXCLUDED." column]))

def InsertStatement.pieces (statement : InsertStatement) : List (Piece Unit) :=
  .name "INSERT INTO " statement.relation.schema :: .name "." statement.relation.relation
    :: .raw " " :: (identifierList ", " statement.columns
      ++ .raw (")\nVALUES\n" ++ ",\n".intercalate (statement.values.map valuesText))
      :: (statement.conflict.elim [] ConflictAction.pieces ++ .raw "\nRETURNING\n"
        :: joinWith ",\n" (statement.returning.map fun item =>
          [.name "  " item.1, .name " AS " item.2])))

theorem assembleEach_map {α : Type} (items : List α) (template : α → List (Piece Unit))
    (text : α → String) (h : ∀ item, assemble (template item) [] = (text item, [])) :
    assembleEach (items.map template) [] = (items.map text, []) := by
  induction items with
  | nil => rfl
  | cons item rest ih => rw [List.map_cons, assembleEach, h, ih, List.map_cons]

theorem assemble_identifiers (identifiers : List String) :
    assemble (identifierList ", " identifiers) [] =
      ("(" ++ ", ".intercalate (identifiers.map quoteIdentifier), []) := by
  have hpool : (assemble (identifierList ", " identifiers) []).2 = [] := by
    rw [assemble_pool]
    have hholes : holes (identifierList ", " identifiers) = [] := by
      cases identifiers with
      | nil => rfl
      | cons identifier rest =>
        rw [identifierList, holes_name]
        induction rest with
        | nil => rfl
        | cons next rest ih => rw [List.map_cons, holes_name, ih]
    rw [hholes]
    rfl
  exact Prod.ext (assemble_identifierList ", " identifiers) hpool

theorem assemble_pair (lead middle first second : String) :
    assemble (π := Unit) [.name lead first, .name middle second] [] =
      (lead ++ quoteIdentifier first ++ middle ++ quoteIdentifier second, []) := by
  simp only [assemble_name, assemble_nil, quoteIdentifier, quoted, String.append_assoc,
    String.append_empty]

theorem ConflictAction.assemble_pieces (action : ConflictAction) :
    assemble action.pieces [] = (action.text, []) := by
  have hupdates := assembleEach_map action.updates
    (fun column => [.name "  " column, .name " = EXCLUDED." column])
    (fun column => "  " ++ quoteIdentifier column ++ " = EXCLUDED." ++ quoteIdentifier column)
    fun column => assemble_pair _ _ _ _
  have hopen : "\nON CONFLICT " ++ "(" = "\nON CONFLICT (" := by decide
  simp only [ConflictAction.pieces, assemble_raw, assemble_append, assemble_identifiers,
    assemble_joinWith, hupdates, ConflictAction.text, ← hopen, String.append_assoc]

theorem InsertStatement.assemble_pieces (statement : InsertStatement) :
    (assemble statement.pieces []).1 = statement.text := by
  have hconflict : assemble (statement.conflict.elim [] ConflictAction.pieces) [] =
      (conflictText? statement.conflict, []) := by
    cases statement.conflict with
    | none => rfl
    | some action => exact action.assemble_pieces
  have hreturning := assembleEach_map statement.returning
    (fun item => [.name "  " item.1, .name " AS " item.2]) returnedText
    fun item => assemble_pair _ _ _ _
  have hopen : " " ++ "(" = " (" := by decide
  unfold InsertStatement.pieces InsertStatement.text insertHead returningTail
  rw [← hopen]
  simp only [assemble_name, assemble_raw, assemble_append, assemble_identifiers, hconflict,
    assemble_joinWith, hreturning, quoteIdentifier, quoted, String.append_assoc]

theorem clean_pairs {lead middle : String} (hlead : Unquoted lead.toList ∧ lead ≠ "")
    (hmiddle : Unquoted middle.toList ∧ middle ≠ "") {α : Type} (items : List α)
    (first second : α → String) : Clean (joinWith (π := Unit) ",\n" (items.map fun item =>
      [.name lead (first item), .name middle (second item)])) := by
  apply clean_joinWith (by decide)
  intro template ht
  obtain ⟨item, -, rfl⟩ := List.mem_map.mp ht
  exact clean_cons.mpr ⟨hlead, clean_cons.mpr ⟨hmiddle, clean_nil⟩⟩

theorem unquoted_placeholder (placeholder : Placeholder) : Unquoted placeholder.text.toList := by
  have hnumber := Unquoted.append (by decide : Unquoted "$".toList)
    (unquoted_toString placeholder.position)
  rw [Placeholder.text, mutationParameterSql]
  cases placeholder.dataType <;>
    simp only [mutationTargetType, String.toList_append] <;>
    first
    | exact hnumber.append (by decide)
    | exact (hnumber.append (by decide)).append (by decide)

theorem unquoted_values (row : List Placeholder) : Unquoted (valuesText row).toList := by
  rw [valuesText, String.toList_append, String.toList_append]
  refine (Unquoted.append (by decide) (Sql.unquoted_intercalate (by decide) ?_)).append (by decide)
  intro text ht
  obtain ⟨placeholder, -, rfl⟩ := List.mem_map.mp ht
  exact unquoted_placeholder placeholder

theorem InsertStatement.clean_pieces (statement : InsertStatement) : Clean statement.pieces := by
  have hvalues : Unquoted (")\nVALUES\n"
      ++ ",\n".intercalate (statement.values.map valuesText)).toList := by
    rw [String.toList_append]
    refine Unquoted.append (by decide) (Sql.unquoted_intercalate (by decide) ?_)
    intro text ht
    obtain ⟨row, -, rfl⟩ := List.mem_map.mp ht
    exact unquoted_values row
  have hlist := clean_identifierList (by decide : Unquoted ", ".toList) (by decide)
  have hconflict : Clean (statement.conflict.elim [] ConflictAction.pieces) := by
    cases statement.conflict with
    | none => exact clean_nil
    | some action =>
      simp only [Option.elim_some, ConflictAction.pieces, clean_cons, clean_append]
      exact ⟨by decide, hlist _, by decide, clean_pairs (by decide) (by decide) action.updates id id⟩
  simp only [InsertStatement.pieces, clean_cons, clean_append]
  exact ⟨⟨by decide, by decide⟩, ⟨by decide, by decide⟩, by decide, hlist _, hvalues, hconflict,
    by decide, clean_pairs (by decide) (by decide) statement.returning Prod.fst Prod.snd⟩

end Postgresem
