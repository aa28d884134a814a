import Postgresem.Semantic.Literal

/-! The semantic snapshot: published models, their fields, metrics and relationships, and the
canonical order that the revision hash is taken over. -/
namespace Postgresem

inductive Aggregation where
  | count | countDistinct | sum | min | max | avg
  deriving DecidableEq, Repr

inductive Additivity where
  | additive | semiAdditive | nonAdditive
  deriving DecidableEq, Repr

inductive Cardinality where
  | oneToOne | manyToOne | oneToMany | manyToMany
  deriving DecidableEq, Repr

inductive JoinType where
  | inner | left
  deriving DecidableEq, Repr

structure Relation where
  schema : String
  relation : String
  deriving DecidableEq, Repr

structure Field where
  semanticName : String
  dataType : DataType
  column : String
  relationship : Option String := none
  timeDimension : Bool := false
  entityKey : Bool := false
  visible : Bool := true
  nullable : Bool := true
  deriving DecidableEq, Repr

structure WritableField where
  field : String
  nullable : Bool
  requiredOnInsert : Bool := false
  updatableOnConflict : Bool := false
  deriving DecidableEq, Repr

structure UpsertPolicy where
  conflictFields : List String
  deriving DecidableEq, Repr

structure WritableModel where
  insert : Bool
  upsert : Option UpsertPolicy := none
  maxRows : Nat
  maxRequestBytes : Nat
  fields : List WritableField
  returning : List String
  deriving DecidableEq, Repr

structure MetricFilter where
  field : String
  value : Literal
  deriving DecidableEq, Repr

structure Metric where
  semanticName : String
  dataType : DataType
  aggregation : Aggregation
  field : String
  filter : Option MetricFilter := none
  additivity : Option Additivity := none
  aggregationAnchor : Option String := none
  visible : Bool := true
  deriving DecidableEq, Repr

structure Relationship where
  semanticName : String
  targetModel : String
  target : Relation
  cardinality : Cardinality
  joinType : JoinType
  fromColumn : String
  toColumn : String
  deriving DecidableEq, Repr

structure Model where
  semanticName : String
  source : Relation
  timezone : Option String := none
  queryable : Bool := true
  writable : Option WritableModel := none
  fields : List Field
  metrics : List Metric
  relationships : List Relationship := []
  deriving DecidableEq, Repr

structure SemanticSnapshot where
  schemaVersion : String
  revisionHash : String
  models : List Model
  deriving DecidableEq, Repr

/-- A stable sort by a chain of string keys, compared in order as `cmp` and `then_with` do. -/
def sortByKeys {α : Type} (keys : α → List String) (items : List α) : List α :=
  items.insertionSort (fun left right => keys left ≤ keys right)

def WritableModel.normalized (writable : WritableModel) : WritableModel :=
  { writable with
    fields := sortByKeys (fun field => [field.field]) writable.fields
    upsert := writable.upsert.map fun upsert =>
      { upsert with conflictFields := sortByKeys (fun field => [field]) upsert.conflictFields } }

def Model.normalized (model : Model) : Model :=
  { model with
    fields := sortByKeys (fun field => [field.semanticName]) model.fields
    metrics := sortByKeys (fun metric => [metric.semanticName]) model.metrics
    writable := model.writable.map WritableModel.normalized
    relationships := sortByKeys
      (fun relationship => [relationship.semanticName, relationship.targetModel])
      model.relationships }

def SemanticSnapshot.normalized (snapshot : SemanticSnapshot) : SemanticSnapshot :=
  { snapshot with
    models := (sortByKeys
      (fun model => [model.semanticName, model.source.schema, model.source.relation])
      snapshot.models).map Model.normalized }

/-- The library code the hashes rest on: SHA-256 itself and the snapshot's JSON serializer. -/
structure HashBackend where
  digest : List UInt8 → Vector UInt8 32
  snapshotJson : SemanticSnapshot → Option (List UInt8)

def hexDigit (nibble : Nat) : Char :=
  (['0', '1', '2', '3', '4', '5', '6', '7', '8', '9', 'a', 'b', 'c', 'd', 'e', 'f'][nibble]?).getD '0'

def hexByte (byte : UInt8) : List Char := [hexDigit (byte.toNat / 16), hexDigit (byte.toNat % 16)]

def HashBackend.sha256 (backend : HashBackend) (value : List UInt8) : String :=
  "sha256:" ++ String.ofList ((backend.digest value).toList.flatMap hexByte)

def isLowerHex (character : Char) : Bool :=
  ('0' ≤ character && character ≤ '9') || ('a' ≤ character && character ≤ 'f')

/-- `is_sha256`: 71 bytes, the scheme, then lower-case hexadecimal digits only. -/
def isSha256 (value : String) : Bool :=
  (bytesOf value).length == 71 && "sha256:".toList.isPrefixOf value.toList
    && (value.toList.drop 7).all isLowerHex

def SemanticSnapshot.calculateRevisionHash (backend : HashBackend)
    (snapshot : SemanticSnapshot) : Option String :=
  (backend.snapshotJson { snapshot.normalized with revisionHash := "" }).map backend.sha256

end Postgresem
