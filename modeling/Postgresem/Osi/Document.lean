import Postgresem.Catalog.Snapshot
import Postgresem.Catalog.Types
import Postgresem.Foundation.OrderedMap
import Postgresem.Osi.MetricExpression

/-! An OSI document after the YAML reader, the errors and warnings of its import, and the checks
that look at one part of it. -/
namespace Postgresem.Osi
open Control

inductive OsiDialect where
  | ansiSql | snowflake | mdx | tableau | databricks | maql
  deriving DecidableEq, Repr

structure OsiDialectExpression where
  dialect : OsiDialect
  expression : String
  deriving DecidableEq, Repr

structure OsiExpression where
  dialects : List OsiDialectExpression
  deriving DecidableEq, Repr

structure OsiDimension where
  isTime : Option Bool
  deriving DecidableEq, Repr

/-- The data of an extension, and likewise an AI context, is a YAML value that is kept as text:
only its presence is read. -/
structure OsiExtension where
  vendorName : String
  data : String
  deriving DecidableEq, Repr

structure OsiField where
  name : String
  expression : OsiExpression
  dimension : Option OsiDimension := none
  label : Option String := none
  description : Option String := none
  aiContext : Option String := none
  customExtensions : List OsiExtension := []
  deriving DecidableEq, Repr

structure OsiDataset where
  name : String
  source : String
  primaryKey : List String := []
  uniqueKeys : List (List String) := []
  description : Option String := none
  aiContext : Option String := none
  fields : List OsiField := []
  customExtensions : List OsiExtension := []
  deriving DecidableEq, Repr

structure OsiRelationship where
  name : String
  fromDataset : String
  toDataset : String
  fromColumns : List String
  toColumns : List String
  aiContext : Option String := none
  customExtensions : List OsiExtension := []
  deriving DecidableEq, Repr

structure OsiMetric where
  name : String
  expression : OsiExpression
  description : Option String := none
  aiContext : Option String := none
  customExtensions : List OsiExtension := []
  deriving DecidableEq, Repr

structure OsiSemanticModel where
  name : String
  description : Option String := none
  aiContext : Option String := none
  datasets : List OsiDataset
  relationships : List OsiRelationship := []
  metrics : List OsiMetric := []
  customExtensions : List OsiExtension := []
  deriving DecidableEq, Repr

structure OsiDocument where
  semanticModel : List OsiSemanticModel
  customExtensions : List OsiExtension := []
  deriving DecidableEq, Repr

structure OsiImportWarning where
  code : String
  path : String
  message : String
  deriving DecidableEq, Repr

inductive OsiImportError where
  | parse
  | ambiguousSemanticModel
  | semanticModelNotFound
  | invalidIdentifier (path value : String)
  | duplicateName (kind name : String)
  | unsupportedExtension (path : String)
  | unsupportedUniqueKeys (path : String)
  | invalidSource (path : String)
  | databaseMismatch (path : String)
  | relationNotFound (path : String)
  | relationNotSelectable (path : String)
  | unsupportedExpression (path : String)
  | unsupportedPostgresType (path value : String)
  | columnNotAvailable (path : String)
  | invalidTimeDimension (path : String)
  | primaryKeyMismatch (path : String)
  | compositePrimaryKey (path : String)
  | compositeRelationship (path : String)
  | invalidRelationship (path : String)
  | unsupportedMetricExpression (path : String)
  | countRequiresEntityKey (path : String)
  | invalidCatalog (error : CatalogError)
  | snapshotHash
  deriving DecidableEq, Repr

def validateIdentifier (path value : String) : Except OsiImportError Unit :=
  ensure (portableIdentifier value) (.invalidIdentifier path value)

def rejectExtensions (path : String) (extensions : List OsiExtension) :
    Except OsiImportError Unit :=
  ensure extensions.isEmpty (.unsupportedExtension path)

def droppedContextWarning (path : String) : OsiImportWarning where
  code := "OSI_CONTEXT_REQUIRES_REVIEW"
  path := path
  message := "description or AI context is not part of the executable snapshot projection"

/-- The warnings that `warn_context` pushes. -/
def warnContext (path : String) (description aiContext : Option String) : List OsiImportWarning :=
  if description.isSome || aiContext.isSome then [droppedContextWarning path] else []

/-- The loop of `ensure_unique_names`, with the names it has seen. -/
def ensureUnseenNames (kind : String) : List String → List String → Except OsiImportError Unit
  | _, [] => .ok ()
  | seen, name :: rest => do
    ensure (decide (name ∉ seen)) (.duplicateName kind name)
    ensureUnseenNames kind (name :: seen) rest

def ensureUniqueNames (kind : String) (names : List String) : Except OsiImportError Unit :=
  ensureUnseenNames kind [] names

theorem ensureUnseenNames_eq_ok {kind : String} {seen names : List String} {u : Unit} :
    ensureUnseenNames kind seen names = .ok u ↔ names.Nodup ∧ ∀ name ∈ names, name ∉ seen := by
  induction names generalizing seen with
  | nil => simp [ensureUnseenNames]
  | cons name names ih =>
    rw [ensureUnseenNames, bind_eq_ok, List.nodup_cons, List.forall_mem_cons]
    simp only [ensure_eq_ok, decide_eq_true_eq, ih, List.mem_cons, not_or]
    constructor
    · rintro ⟨-, hseen, hnodup, hrest⟩
      exact ⟨⟨fun hmem => (hrest name hmem).1 rfl, hnodup⟩, hseen, fun other hmem =>
        (hrest other hmem).2⟩
    · rintro ⟨⟨hname, hnodup⟩, hseen, hrest⟩
      refine ⟨(), hseen, hnodup, fun other hmem => ⟨?_, hrest other hmem⟩⟩
      rintro rfl
      exact hname hmem

theorem ensureUniqueNames_eq_ok {kind : String} {names : List String} {u : Unit} :
    ensureUniqueNames kind names = .ok u ↔ names.Nodup := by
  rw [ensureUniqueNames, ensureUnseenNames_eq_ok]
  simp

def selectSemanticModel (models : List OsiSemanticModel) (selected : Option String) :
    Except OsiImportError OsiSemanticModel :=
  match selected with
  | some selected => orError (models.find? fun model => model.name == selected)
      .semanticModelNotFound
  | none =>
    match models with
    | [model] => .ok model
    | _ => .error .ambiguousSemanticModel

def ansiExpression (expression : OsiExpression) (path : String) : Except OsiImportError String :=
  match expression.dialects with
  | [⟨.ansiSql, expression⟩] => .ok expression
  | _ => .error (.unsupportedExpression path)

def directAnsiExpression (expression : OsiExpression) (path : String) :
    Except OsiImportError String := do
  let expression ← ansiExpression expression path
  let value := String.ofList (trim expression.toList)
  ensure (portableIdentifier value) (.unsupportedExpression path)
  .ok value

/-- The database, if it is given, the schema and the relation. -/
def sourceParts (source : String) : Option (Option String × String × String) :=
  match (source.toList.splitOn '.').map String.ofList with
  | [schema, relation] => some (none, schema, relation)
  | [database, schema, relation] => some (some database, schema, relation)
  | _ => none

def parseSource (source currentDatabase path : String) :
    Except OsiImportError (String × String) := do
  let (database, schema, relation) ← orError (sourceParts source) (.invalidSource path)
  ensure (portableIdentifier schema && portableIdentifier relation) (.invalidSource path)
  ensure (database.all fun database => database == currentDatabase) (.databaseMismatch path)
  .ok (schema, relation)

def catalogPrimaryKey (relation : CatalogRelation) : List String :=
  (relation.constraints.findSome? fun constraint =>
    match constraint with
    | .primaryKey _ columns true false _ _ true => some columns
    | _ => none).getD []

structure ImportedForeignKey where
  columns : List String
  target : Relation
  referencedColumns : List String
  deriving DecidableEq, Repr

def catalogForeignKeys (relation : CatalogRelation) : List ImportedForeignKey :=
  relation.constraints.filterMap fun constraint =>
    match constraint with
    | .foreignKey _ columns referenced referencedColumns _ _ _ _ true false _ _ true =>
      some ⟨columns, ⟨referenced.schema, referenced.name⟩, referencedColumns⟩
    | _ => none

def importDataType (value path : String) : Except OsiImportError DataType :=
  orError (postgresDataType value) (.unsupportedPostgresType path value.toLower)

def expectedMetricType (aggregation : Aggregation) (fieldType : DataType) : DataType :=
  match aggregation with
  | .count | .countDistinct => .integer
  | .avg => .numeric
  | .sum => if fieldType = .integer then .numeric else fieldType
  | .min | .max => fieldType

def aggregateSupportsType (aggregation : Aggregation) (fieldType : DataType) : Bool :=
  match aggregation with
  | .count | .countDistinct => true
  | .sum | .avg => fieldType == .integer || fieldType == .numeric
  | .min | .max => fieldType != .boolean

end Postgresem.Osi
