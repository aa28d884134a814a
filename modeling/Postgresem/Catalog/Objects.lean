import Postgresem.Catalog.Diff
import Postgresem.Foundation.Named

/-! What a catalog diff speaks of: the objects of a catalog, the path of each, and the version of it
that a catalog holds. -/
namespace Postgresem
open Json (Value)

inductive CatalogObject where
  | serverVersionNum
  | roleContext
  | roleGraphFingerprint
  | objectPrivilegeFingerprint
  | function (key : String ×ₗ String ×ₗ String)
  | relation (schema name : String)
  | aspect (schema name : String) (aspect : RelationAspect)
  | column (schema holder name : String)
  | constraint (schema holder key : String)
  | policy (schema holder name : String)

/-! ## Paths -/

def RelationAspect.text : RelationAspect → String
  | .kind => "kind"
  | .owner => "owner"
  | .view => "view"
  | .comment => "comment"
  | .grants => "grants"
  | .rls => "rls"

def aspectPath (base : String) : RelationAspect → String
  | .kind => base ++ "/kind"
  | .owner => base ++ "/owner"
  | .view => base ++ "/view"
  | .comment => base ++ "/comment"
  | .grants => base ++ "/grants"
  | .rls => base ++ "/rls"

def relationBase (schema name : String) : String :=
  "/relations/" ++ pathSegment schema ++ "/" ++ pathSegment name

def CatalogObject.path : CatalogObject → String
  | .serverVersionNum => "/server_version_num"
  | .roleContext => "/role_context"
  | .roleGraphFingerprint => "/role_graph_fingerprint"
  | .objectPrivilegeFingerprint => "/object_privilege_fingerprint"
  | .function key => functionPath key
  | .relation schema name => relationBase schema name
  | .aspect schema name part => aspectPath (relationBase schema name) part
  | .column schema holder name => columnPath (relationBase schema holder) name
  | .constraint schema holder key => constraintPath (relationBase schema holder) key
  | .policy schema holder name => policyPath (relationBase schema holder) name

def CatalogObject.kind : CatalogObject → CatalogObjectKind
  | .serverVersionNum | .roleContext | .roleGraphFingerprint | .objectPrivilegeFingerprint =>
    .context
  | .function _ => .function
  | .relation _ _ | .aspect _ _ _ => .relation
  | .column _ _ _ => .column
  | .constraint _ _ _ => .constraint
  | .policy _ _ _ => .policy

def CatalogObject.segments : CatalogObject → List String
  | .serverVersionNum => ["server_version_num"]
  | .roleContext => ["role_context"]
  | .roleGraphFingerprint => ["role_graph_fingerprint"]
  | .objectPrivilegeFingerprint => ["object_privilege_fingerprint"]
  | .function key => ["functions", pathSegment (ofLex key).1,
      pathSegment (ofLex (ofLex key).2).1, pathSegment (ofLex (ofLex key).2).2]
  | .relation schema name => ["relations", pathSegment schema, pathSegment name]
  | .aspect schema name part =>
    ["relations", pathSegment schema, pathSegment name, part.text]
  | .column schema holder name =>
    ["relations", pathSegment schema, pathSegment holder, "columns", pathSegment name]
  | .constraint schema holder key =>
    ["relations", pathSegment schema, pathSegment holder, "constraints", pathSegment key]
  | .policy schema holder name =>
    ["relations", pathSegment schema, pathSegment holder, "policies", pathSegment name]

theorem pathSegment_injective : Function.Injective pathSegment := Pointer.escape_injective

theorem slash_notMem_pathSegment (value : String) : '/' ∉ (pathSegment value).toList :=
  Pointer.slash_notMem_escape value

theorem toList_aspectPath (base : String) (part : RelationAspect) :
    (aspectPath base part).toList = base.toList ++ '/' :: part.text.toList := by
  cases part <;> simp [aspectPath, RelationAspect.text]

theorem CatalogObject.toList_path (object : CatalogObject) :
    object.path.toList = Pointer.slashed object.segments := by
  cases object <;>
    simp [CatalogObject.path, CatalogObject.segments, Pointer.slashed, functionPath, relationBase,
      columnPath, constraintPath, policyPath, toList_aspectPath]

theorem CatalogObject.segments_slashFree (object : CatalogObject) :
    ∀ segment ∈ object.segments, '/' ∉ segment.toList := by
  have haspect : ∀ aspect : RelationAspect, '/' ∉ aspect.text.toList := by
    intro aspect
    cases aspect <;> decide
  cases object <;>
    simp [CatalogObject.segments, slash_notMem_pathSegment, haspect]

theorem RelationAspect.text_injective : RelationAspect.text.Injective := by
  intro a b h
  cases a <;> cases b <;> first | rfl | exact absurd h (by decide)

theorem CatalogObject.segments_injective : CatalogObject.segments.Injective := by
  intro object other h
  cases object <;> cases other <;>
    simp [CatalogObject.segments, pathSegment_injective.eq_iff,
      RelationAspect.text_injective.eq_iff] at h ⊢
  case function.function key key' =>
    exact ofLex.injective (Prod.ext h.1 (ofLex.injective (Prod.ext h.2.1 h.2.2)))
  all_goals exact h

/-- Distinct objects have distinct paths, whatever their names are. -/
theorem CatalogObject.path_injective : CatalogObject.path.Injective := by
  intro object other h
  apply CatalogObject.segments_injective
  apply Pointer.slashed_injective object.segments_slashFree other.segments_slashFree
  rw [← CatalogObject.toList_path, ← CatalogObject.toList_path, h]

end Postgresem
