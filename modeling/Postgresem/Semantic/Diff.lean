import Postgresem.Foundation.Control
import Postgresem.Foundation.OrderedMap
import Postgresem.Semantic.Value

/-! The semantic diff of two snapshots: the changes of each model, object by object, and their
classification. -/
namespace Postgresem
open Control
open Json (Value)

inductive Compatibility where
  | compatible | breaking
  deriving DecidableEq, Repr

inductive ChangeKind where
  | added | removed | modified
  deriving DecidableEq, Repr

inductive SemanticObjectKind where
  | model | field | metric | relationship
  deriving DecidableEq, Repr

structure SemanticChange where
  path : String
  objectKind : SemanticObjectKind
  change : ChangeKind
  compatibility : Compatibility
  before : Option Value
  after : Option Value

structure DiffSummary where
  total : Nat
  compatible : Nat
  breaking : Nat
  deriving DecidableEq, Repr

structure SemanticDiff where
  schemaVersion : String
  fromRevision : String
  toRevision : String
  compatibility : Compatibility
  summary : DiffSummary
  changes : List SemanticChange

inductive DiffError where
  | unsupportedSnapshotVersion (version : String)
  | duplicateObject (kind name : String)
  deriving DecidableEq, Repr

/-- The `BTreeMap` from names to objects; a name that comes twice is an error. -/
def namedObjects {α : Type} (objects : List α) (kind : String) (name : α → String) :
    Except DiffError (List (String × α)) :=
  objects.foldlM (fun named object =>
    if (named.lookup (name object)).isSome then .error (.duplicateObject kind (name object))
    else .ok (OrderedMap.insert (name object) object named)) []

def namedModels (models : List Model) : Except DiffError (List (String × Model)) :=
  namedObjects models "model" Model.semanticName

def validateModelNames (model : Model) : Except DiffError Unit := do
  let _ ← namedObjects model.fields "field" Field.semanticName
  let _ ← namedObjects model.metrics "metric" Metric.semanticName
  let _ ← namedObjects model.relationships "relationship" Relationship.semanticName

def validateVersion (snapshot : SemanticSnapshot) : Except DiffError Unit := do
  ensure (snapshot.schemaVersion == "1" || snapshot.schemaVersion == "2")
    (.unsupportedSnapshotVersion snapshot.schemaVersion)
  let _ ← namedModels snapshot.models
  forEach validateModelNames snapshot.models

def modelMetadata (model : Model) : Value :=
  .object [("source", model.source.toValue), ("timezone", nullableValue .string model.timezone),
    ("queryable", .boolean model.queryable),
    ("writable", nullableValue WritableModel.toValue model.writable)]

def modelCompatibility (before after : Model) : Compatibility :=
  if before.source ≠ after.source ∨ before.timezone ≠ after.timezone
      ∨ (before.queryable && !after.queryable) = true
      ∨ (before.writable.isSome = true ∧ before.writable ≠ after.writable) then .breaking
  else .compatible

def fieldCompatibility (before after : Field) : Compatibility :=
  let onlyBecameVisible := !before.visible && after.visible && before.dataType == after.dataType
    && before.column == after.column && before.relationship == after.relationship
    && before.timeDimension == after.timeDimension && before.entityKey == after.entityKey
  if onlyBecameVisible then .compatible else .breaking

def metricCompatibility (before after : Metric) : Compatibility :=
  let onlyBecameVisible := !before.visible && after.visible && before.dataType == after.dataType
    && before.aggregation == after.aggregation && before.field == after.field
    && before.filter == after.filter && before.additivity == after.additivity
    && before.aggregationAnchor == after.aggregationAnchor
  if onlyBecameVisible then .compatible else .breaking

section Named
variable {α : Type} [DecidableEq α] (modelPath collection : String)
  (objectKind : SemanticObjectKind) (toValue : α → Value) (visible : α → Bool)
  (modifiedCompatibility : α → α → Compatibility)

/-- The change at one name of the first map. -/
def keptChange (after : List (String × α)) (entry : String × α) : Option SemanticChange :=
  let path := modelPath ++ "." ++ collection ++ "." ++ entry.1
  match after.lookup entry.1 with
  | none => some
      { path := path, objectKind := objectKind, change := .removed
        compatibility := if visible entry.2 then .breaking else .compatible
        before := some (toValue entry.2), after := none }
  | some object =>
    if entry.2 ≠ object then some
      { path := path, objectKind := objectKind, change := .modified
        compatibility := modifiedCompatibility entry.2 object
        before := some (toValue entry.2), after := some (toValue object) }
    else none

def addedChange (before : List (String × α)) (entry : String × α) : Option SemanticChange :=
  if (before.lookup entry.1).isSome then none
  else some
    { path := modelPath ++ "." ++ collection ++ "." ++ entry.1, objectKind := objectKind
      change := .added, compatibility := .compatible, before := none
      after := some (toValue entry.2) }

def diffNamed (before after : List (String × α)) : List SemanticChange :=
  before.filterMap (keptChange modelPath collection objectKind toValue visible
      modifiedCompatibility after)
    ++ after.filterMap (addedChange modelPath collection objectKind toValue before)

end Named

def diffFields (modelPath : String) (before after : List Field) :
    Except DiffError (List SemanticChange) := do
  let before ← namedObjects before "field" Field.semanticName
  let after ← namedObjects after "field" Field.semanticName
  pure (diffNamed modelPath "fields" .field Field.toValue Field.visible fieldCompatibility
    before after)

def diffMetrics (modelPath : String) (before after : List Metric) :
    Except DiffError (List SemanticChange) := do
  let before ← namedObjects before "metric" Metric.semanticName
  let after ← namedObjects after "metric" Metric.semanticName
  pure (diffNamed modelPath "metrics" .metric Metric.toValue Metric.visible metricCompatibility
    before after)

def diffRelationships (modelPath : String) (before after : List Relationship) :
    Except DiffError (List SemanticChange) := do
  let before ← namedObjects before "relationship" Relationship.semanticName
  let after ← namedObjects after "relationship" Relationship.semanticName
  pure (diffNamed modelPath "relationships" .relationship Relationship.toValue (fun _ => true)
    (fun _ _ => .breaking) before after)

def metadataChange (path : String) (before after : Model) : List SemanticChange :=
  if modelMetadata before ≠ modelMetadata after then
    [{ path := path, objectKind := .model, change := .modified
       compatibility := modelCompatibility before after
       before := some (modelMetadata before), after := some (modelMetadata after) }]
  else []

/-- One round of the loop over the models of the first snapshot. -/
def diffModel (after : List (String × Model)) (entry : String × Model) :
    Except DiffError (List SemanticChange) := do
  let path := "models." ++ entry.1
  match after.lookup entry.1 with
  | none =>
    pure [{ path := path, objectKind := .model, change := .removed, compatibility := .breaking
            before := some entry.2.toValue, after := none }]
  | some model => do
    let fields ← diffFields path entry.2.fields model.fields
    let metrics ← diffMetrics path entry.2.metrics model.metrics
    let relationships ← diffRelationships path entry.2.relationships model.relationships
    pure (metadataChange path entry.2 model ++ fields ++ metrics ++ relationships)

def addedModel (before : List (String × Model)) (entry : String × Model) :
    Option SemanticChange :=
  if (before.lookup entry.1).isSome then none
  else some
    { path := "models." ++ entry.1, objectKind := .model, change := .added
      compatibility := .compatible, before := none, after := some entry.2.toValue }

def changeRank : ChangeKind → Nat
  | .removed => 0
  | .modified => 1
  | .added => 2

def sortChanges (changes : List SemanticChange) : List SemanticChange :=
  changes.insertionSort fun left right =>
    left.path < right.path ∨
      (left.path = right.path ∧ changeRank left.change ≤ changeRank right.change)

def summarize (before after : SemanticSnapshot) (changes : List SemanticChange) : SemanticDiff :=
  let breaking := (changes.filter fun change => change.compatibility == .breaking).length
  { schemaVersion := "1"
    fromRevision := before.revisionHash
    toRevision := after.revisionHash
    compatibility := if breaking = 0 then .compatible else .breaking
    summary := { total := changes.length, compatible := changes.length - breaking,
                 breaking := breaking }
    changes := changes }

def diffSnapshots (before after : SemanticSnapshot) : Except DiffError SemanticDiff := do
  validateVersion before
  validateVersion after
  let before := before.normalized
  let after := after.normalized
  let beforeModels ← namedModels before.models
  let afterModels ← namedModels after.models
  let changed ← beforeModels.mapM (diffModel afterModels)
  pure (summarize before after
    (sortChanges (changed.flatten ++ afterModels.filterMap (addedModel beforeModels))))

end Postgresem
