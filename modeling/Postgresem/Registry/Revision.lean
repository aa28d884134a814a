import Mathlib.Data.Finset.Filter
import Mathlib.Data.Finset.Image
import Postgresem.Foundation.Locking

/-! The revisions of a semantic model and their child rows, as the metadata schema stores them: the
constraints and triggers of `semantic.revision` and the trigger `require_draft_revision` of the child
tables. -/
namespace Postgresem
namespace Registry
open Locking

abbrev Uuid := String

inductive RevisionStatus where
  | draft
  | published
  | retired
  deriving DecidableEq, Repr

def RevisionStatus.text : RevisionStatus → String
  | .draft => "draft"
  | .published => "published"
  | .retired => "retired"

/-- A row of `semantic.revision`. Timestamps are only compared. -/
structure Revision where
  revisionId : Uuid
  projectId : Uuid
  revisionNumber : Int
  parentRevisionId : Option Uuid
  status : RevisionStatus
  schemaVersion : String
  canonicalHash : String
  compilerSemanticVersion : String
  createdAt : Int
  publishedAt : Option Int
  retiredAt : Option Int
  deriving DecidableEq, Repr

inductive Raised where
  | exception (message : String)
  | checkViolation
  | uniqueViolation
  deriving DecidableEq, Repr

/-- `btrim(text) <> ''`. -/
def notBlank (text : String) : Bool := text.toList.any (· != ' ')

/-- `^sha256:[0-9a-f]{64}$`. -/
def isSha256 (text : String) : Bool :=
  text.toList.take 7 == "sha256:".toList && (text.toList.drop 7).length == 64 &&
    (text.toList.drop 7).all fun c => ('0' ≤ c && c ≤ '9') || ('a' ≤ c && c ≤ 'f')

def Revision.statusTimes (row : Revision) : Bool :=
  match row.status with
  | .draft => row.publishedAt.isNone && row.retiredAt.isNone
  | .published => row.publishedAt.isSome && row.retiredAt.isNone
  | .retired => row.publishedAt.isSome && row.retiredAt.isSome

def Revision.checks (row : Revision) : Except Raised Unit :=
  if row.revisionNumber > 0 && notBlank row.schemaVersion && isSha256 row.canonicalHash
      && notBlank row.compilerSemanticVersion && row.statusTimes then
    .ok ()
  else .error .checkViolation

/-- SQL equality, which does not hold of a null. -/
def sqlEq (a b : Option Int) : Bool := a.isSome && a == b

def enforceRevisionTransition (old new : Revision) : Except Raised Unit :=
  if old.status = .draft ∧ (new.status = .draft ∨ new.status = .published) then
    .ok ()
  else if old.status = .published ∧ new.status = .retired
      ∧ new.revisionId = old.revisionId
      ∧ new.projectId = old.projectId
      ∧ new.revisionNumber = old.revisionNumber
      ∧ new.parentRevisionId = old.parentRevisionId
      ∧ new.schemaVersion = old.schemaVersion
      ∧ new.canonicalHash = old.canonicalHash
      ∧ new.compilerSemanticVersion = old.compilerSemanticVersion
      ∧ new.createdAt = old.createdAt
      ∧ sqlEq new.publishedAt old.publishedAt
      ∧ new.retiredAt.isSome then
    .ok ()
  else
    .error (.exception ("invalid semantic revision transition: " ++ old.status.text ++ " -> "
      ++ new.status.text))

/-- The tables with a trigger that runs `require_draft_revision`. -/
inductive ChildTable where
  | model
  | field
  | relationship
  | relationshipColumn
  | metric
  | term
  | policyBinding
  | lineageEdge
  | mutationModel
  | mutationField
  | mutationModelRole
  deriving DecidableEq, Repr

/-- A child row: its primary key `κ`, its revision, and its other columns `π`. -/
structure ChildRow (κ π : Type) where
  table : ChildTable
  key : κ
  revisionId : Uuid
  columns : π
  deriving DecidableEq, Repr

/-- What a transaction locks: a row of `semantic.revision`, an entry of one of its unique indexes,
or a child row. -/
inductive LockKey (κ : Type) where
  | revision (revisionId : Uuid)
  | revisionNumber (projectId : Uuid) (number : Int)
  | canonicalHash (projectId : Uuid) (hash : String)
  | onePublishedRevisionPerProject (projectId : Uuid)
  | child (table : ChildTable) (key : κ)
  deriving DecidableEq, Repr

variable {κ π : Type}

/-- The entries of a revision in its unique indexes. The last index is partial. -/
def Revision.entries (κ : Type) (row : Revision) : List (LockKey κ) :=
  [.revision row.revisionId, .revisionNumber row.projectId row.revisionNumber,
    .canonicalHash row.projectId row.canonicalHash]
    ++ if row.status = .published then [.onePublishedRevisionPerProject row.projectId] else []

def ChildRow.entries (row : ChildRow κ π) : List (LockKey κ) := [.child row.table row.key]

inductive RevisionOperation where
  | insert (new : Revision)
  | update (old new : Revision)
  deriving DecidableEq, Repr

def RevisionOperation.change : RevisionOperation → Change Revision
  | .insert new => ⟨none, some new⟩
  | .update old new => ⟨some old, some new⟩

/-- The trigger of an update, then the checks of the table. -/
def RevisionOperation.guards : RevisionOperation → Except Raised Unit
  | .insert new => new.checks
  | .update old new => do
    enforceRevisionTransition old new
    new.checks

/-- `TG_OP` with `OLD` and `NEW`. -/
inductive ChildOperation (κ π : Type) where
  | insert (new : ChildRow κ π)
  | update (old new : ChildRow κ π)
  | delete (old : ChildRow κ π)
  deriving DecidableEq, Repr

namespace ChildOperation

def change : ChildOperation κ π → Change (ChildRow κ π)
  | .insert new => ⟨none, some new⟩
  | .update old new => ⟨some old, some new⟩
  | .delete old => ⟨some old, none⟩

def movesRevision : ChildOperation κ π → Bool
  | .update old new => new.revisionId != old.revisionId
  | _ => false

def targetRevisionId : ChildOperation κ π → Uuid
  | .insert new => new.revisionId
  | .update _ new => new.revisionId
  | .delete old => old.revisionId

end ChildOperation

/-- The statuses of the rows with this id: at most one, as the id is the primary key. -/
def statuses (revisions : Finset Revision) (revisionId : Uuid) : Finset RevisionStatus :=
  (revisions.filter (·.revisionId = revisionId)).image (·.status)

def requireDraftRevision (revisions : Finset Revision) (operation : ChildOperation κ π) :
    Except Raised Unit :=
  if operation.movesRevision then
    .error (.exception "semantic child rows cannot move between revisions")
  else if .draft ∉ statuses revisions operation.targetRevisionId then
    .error (.exception ("semantic revision " ++ operation.targetRevisionId ++ " is not mutable"))
  else .ok ()

structure Database (κ π : Type) where
  revisions : Table (Revision.entries κ)
  children : Table (ChildRow.entries : ChildRow κ π → List (LockKey κ))

/-- One row operation of a statement. A statement that touches several rows, a cascade included, is
one operation for each. -/
inductive Operation (κ π : Type) where
  | revision (operation : RevisionOperation)
  | child (operation : ChildOperation κ π)
  deriving DecidableEq, Repr

def exclusive (keys : List (LockKey κ)) : List (Lock (LockKey κ)) := keys.map (⟨·, .exclusive⟩)

/-- A write locks the row versions it replaces and creates. The child trigger selects the row of its
revision `FOR SHARE`. -/
def Operation.locks : Operation κ π → List (Lock (LockKey κ))
  | .revision operation => exclusive (operation.change.entries (Revision.entries κ))
  | .child operation =>
    ⟨.revision operation.targetRevisionId, .share⟩
      :: exclusive (operation.change.entries ChildRow.entries)

/-- The child rows of a revision, over all tables. -/
def Database.childRows (db : Database κ π) (revisionId : Uuid) : Finset (ChildRow κ π) :=
  db.children.rows.filter (·.revisionId = revisionId)

def Database.statuses (db : Database κ π) (revisionId : Uuid) : Finset RevisionStatus :=
  Registry.statuses db.revisions.rows revisionId

def Database.HasBeenPublished (db : Database κ π) (revisionId : Uuid) : Prop :=
  .published ∈ db.statuses revisionId ∨ .retired ∈ db.statuses revisionId

def Database.OnePublished (db : Database κ π) : Prop :=
  ∀ a ∈ db.revisions.rows, ∀ b ∈ db.revisions.rows, a.status = .published → b.status = .published →
    a.projectId = b.projectId → a = b

inductive RevisionStatus.Moves : RevisionStatus → RevisionStatus → Prop
  | publish : Moves .draft .published
  | retire : Moves .published .retired

/-- Between two databases a revision keeps its status or moves it one step, and only a draft may
give up its id. -/
def Database.Advances (db next : Database κ π) : Prop :=
  ∀ revisionId, ∀ before ∈ db.statuses revisionId,
    (∀ after ∈ next.statuses revisionId, before = after ∨ before.Moves after) ∧
      (before ≠ .draft → (next.statuses revisionId).Nonempty)

variable [DecidableEq κ] [DecidableEq π]

/-- A write that breaks a unique index is refused, as is one whose old row is not there. -/
def writeTable {ρ : Type} [DecidableEq ρ] {entries : ρ → List (LockKey κ)} (table : Table entries)
    (change : Change ρ) : Except Raised (Table entries) :=
  (table.write change).elim (.error .uniqueViolation) .ok

/-- Foreign keys, and the other constraints of the child tables, only refuse more operations. -/
def Database.execute (db : Database κ π) : Operation κ π → Except Raised (Database κ π)
  | .revision operation => do
    operation.guards
    let revisions ← writeTable db.revisions operation.change
    .ok { db with revisions }
  | .child operation => do
    requireDraftRevision db.revisions.rows operation
    let children ← writeTable db.children operation.change
    .ok { db with children }

def system (κ π : Type) [DecidableEq κ] [DecidableEq π] :
    System (Database κ π) (Operation κ π) (LockKey κ) where
  perform db operation := (db.execute operation).toOption
  locks := Operation.locks

end Registry
end Postgresem
