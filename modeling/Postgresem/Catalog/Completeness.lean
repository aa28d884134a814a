import Postgresem.Catalog.Evidence
import Postgresem.Catalog.Objects

/-! A catalog diff reports every object that changed, once. -/
namespace Postgresem
open Control Sorting OrderedMap
open Json (Value)

/-! ## What is to be reported -/

/-- What became of an object, with its serialized versions. -/
structure CatalogContent where
  change : CatalogChangeKind
  before : Option Value
  after : Option Value

def contentBetween : Option Value → Option Value → Option CatalogContent
  | some before, some after =>
    if before = after then none
    else some { change := .modified, before := some before, after := some after }
  | some before, none => some { change := .removed, before := some before, after := none }
  | none, some after => some { change := .added, before := none, after := some after }
  | none, none => none

def CatalogSnapshot.relationNamed (catalog : CatalogSnapshot) (schema name : String) :
    Option CatalogRelation :=
  named CatalogRelation.mapKey catalog.relations (toLex (schema, name))

def RelationAspect.value (relation : CatalogRelation) : RelationAspect → Value
  | .kind => relation.kind.toValue
  | .owner => .string relation.owner
  | .view => nullableValue CatalogView.toValue relation.view
  | .comment => nullableValue Value.string relation.comment
  | .grants => relation.grants.toValue
  | .rls => relation.rls.toValue

/-- The version of an object that a catalog holds. -/
def CatalogObject.version (catalog : CatalogSnapshot) : CatalogObject → Option Value
  | .serverVersionNum => some (numberValue catalog.serverVersionNum)
  | .roleContext => some catalog.roleContext.toValue
  | .roleGraphFingerprint => some (.string catalog.roleGraphFingerprint)
  | .objectPrivilegeFingerprint => some (.string catalog.objectPrivilegeFingerprint)
  | .function key =>
    (named CatalogFunction.sortKey catalog.functions key).map CatalogFunction.toValue
  | .relation schema name => (catalog.relationNamed schema name).map CatalogRelation.toValue
  | .aspect schema name part =>
    (catalog.relationNamed schema name).map fun relation => part.value relation
  | .column schema holder name => (catalog.relationNamed schema holder).bind fun relation =>
      (named CatalogColumn.name relation.columns name).map CatalogColumn.toValue
  | .constraint schema holder key => (catalog.relationNamed schema holder).bind fun relation =>
      (named constraintKey relation.constraints key).map CatalogConstraint.toValue
  | .policy schema holder name => (catalog.relationNamed schema holder).bind fun relation =>
      (named RowLevelSecurityPolicy.name relation.policies name).map RowLevelSecurityPolicy.toValue

def sharesRelation (before after : CatalogSnapshot) (schema name : String) : Bool :=
  (before.relationNamed schema name).isSome && (after.relationNamed schema name).isSome

/-- A relation of both catalogs is compared by its parts, and a relation of one catalog counts with
its parts. -/
def CatalogObject.compared (before after : CatalogSnapshot) : CatalogObject → Bool
  | .relation schema name => !sharesRelation before after schema name
  | .aspect schema holder _ | .column schema holder _ | .constraint schema holder _
  | .policy schema holder _ => sharesRelation before after schema holder
  | _ => true

def CatalogObject.reported (before after : CatalogSnapshot) (object : CatalogObject) :
    Option CatalogContent :=
  if object.compared before after then
    contentBetween (object.version before) (object.version after)
  else none

/-! ## What is pushed for one object -/

def onShared (before after : CatalogSnapshot) (schema name : String)
    (push : CatalogRelation → CatalogRelation → List CatalogChange) : List CatalogChange :=
  match before.relationNamed schema name, after.relationNamed schema name with
  | some left, some right => push left right
  | _, _ => []

def CatalogObject.pushed (before after : CatalogSnapshot) : CatalogObject → List CatalogChange
  | .serverVersionNum =>
    pushModified "/server_version_num" .context .reviewRequired numberValue before.serverVersionNum
      after.serverVersionNum
  | .roleContext =>
    pushModified "/role_context" .context .breaking CatalogRoleContext.toValue before.roleContext
      after.roleContext
  | .roleGraphFingerprint =>
    pushModified "/role_graph_fingerprint" .context .breaking Value.string
      before.roleGraphFingerprint after.roleGraphFingerprint
  | .objectPrivilegeFingerprint =>
    pushModified "/object_privilege_fingerprint" .context .breaking Value.string
      before.objectPrivilegeFingerprint after.objectPrivilegeFingerprint
  | .function key => pushFunction key (named CatalogFunction.sortKey before.functions key)
      (named CatalogFunction.sortKey after.functions key)
  | .relation schema name =>
    pushKeyed relationPath .relation CatalogRelation.toValue .compatible (fun _ _ => [])
      (before.relationNamed schema name) (after.relationNamed schema name)
  | .aspect schema name part => onShared before after schema name fun left right =>
      pushAspect (relationPath left) left right part
  | .column schema holder name => onShared before after schema holder fun left right =>
      pushColumn (relationPath left) name (named CatalogColumn.name left.columns name)
        (named CatalogColumn.name right.columns name)
  | .constraint schema holder key => onShared before after schema holder fun left right =>
      pushConstraint (relationPath left) key (named constraintKey left.constraints key)
        (named constraintKey right.constraints key)
  | .policy schema holder name => onShared before after schema holder fun left right =>
      pushPolicy (relationPath left) name (named RowLevelSecurityPolicy.name left.policies name)
        (named RowLevelSecurityPolicy.name right.policies name)

def CatalogChange.content (change : CatalogChange) : CatalogContent :=
  { change := change.change, before := change.before, after := change.after }

/-- The changes say of one object what became of it, if anything did. -/
def Says (path : String) (kind : CatalogObjectKind) (content : Option CatalogContent)
    (changes : List CatalogChange) : Prop :=
  (changes.map fun change => (change.path, change.objectKind, change.content)) =
    content.toList.map fun content => (path, kind, content)

section Says
variable {α : Type} {path : String} {kind : CatalogObjectKind} {toValue : α → Value}

theorem says_pushModified [DecidableEq α] (hvalue : toValue.Injective)
    (compatibility : CatalogCompatibility) (before after : α) :
    Says path kind (contentBetween (some (toValue before)) (some (toValue after)))
      (pushModified path kind compatibility toValue before after) := by
  by_cases h : before = after
  · simp [Says, pushModified, contentBetween, h]
  · have hne : toValue before ≠ toValue after := fun heq => h (hvalue heq)
    simp [Says, pushModified, contentBetween, h, hne, CatalogChange.content]

theorem says_pushKeyed {added : CatalogCompatibility} {pathOf : α → String}
    {both : α → α → List CatalogChange} {before after : Option α}
    (hbefore : ∀ item ∈ before, pathOf item = path) (hafter : ∀ item ∈ after, pathOf item = path)
    (hboth : ∀ left ∈ before, ∀ right ∈ after,
      Says path kind (contentBetween (some (toValue left)) (some (toValue right)))
        (both left right)) :
    Says path kind (contentBetween (before.map toValue) (after.map toValue))
      (pushKeyed pathOf kind toValue added both before after) := by
  cases before with
  | none =>
    cases after with
    | none => rfl
    | some right =>
      simp [Says, pushKeyed, contentBetween, hafter right rfl, CatalogChange.content]
  | some left =>
    cases after with
    | none => simp [Says, pushKeyed, contentBetween, hbefore left rfl, CatalogChange.content]
    | some right => exact hboth left rfl right rfl

theorem Says.path_eq {content : Option CatalogContent} {changes : List CatalogChange}
    (h : Says path kind content changes) {change : CatalogChange} (hmem : change ∈ changes) :
    change.path = path ∧ change.objectKind = kind ∧ content = some change.content := by
  have hmap := List.mem_map_of_mem (f := fun change : CatalogChange =>
    (change.path, change.objectKind, change.content)) hmem
  rw [show _ = _ from h] at hmap
  cases content with
  | none => cases hmap
  | some content =>
    simp only [Option.toList_some, List.map_cons, List.map_nil, List.mem_singleton,
      Prod.mk.injEq] at hmap
    exact ⟨hmap.1, hmap.2.1, congrArg some hmap.2.2.symm⟩

theorem Says.exists_of_some {content : CatalogContent} {changes : List CatalogChange}
    (h : Says path kind (some content) changes) : ∃ change, changes = [change] := by
  have hlength := congrArg List.length h
  simp only [List.length_map, Option.toList_some, List.length_singleton] at hlength
  exact List.length_eq_one_iff.mp hlength

theorem Says.eq_of_mem {content : Option CatalogContent} {changes : List CatalogChange}
    (h : Says path kind content changes) {change other : CatalogChange}
    (hchange : change ∈ changes) (hother : other ∈ changes) : change = other := by
  obtain ⟨-, -, rfl⟩ := h.path_eq hchange
  obtain ⟨only, rfl⟩ := h.exists_of_some
  rw [List.mem_singleton.mp hchange, List.mem_singleton.mp hother]

end Says

theorem says_pushAspect (left right : CatalogRelation) (part : RelationAspect) (base : String) :
    Says (aspectPath base part) .relation
      (contentBetween (some (part.value left)) (some (part.value right)))
      (pushAspect base left right part) := by
  cases part with
  | kind => exact says_pushModified RelationKind.toValue_injective _ _ _
  | owner => exact says_pushModified string_injective _ _ _
  | view => exact says_pushModified nullableView_injective _ _ _
  | comment => exact says_pushModified nullableString_injective _ _ _
  | grants => exact says_pushModified RelationGrantHints.toValue_injective _ _ _
  | rls => exact says_pushModified RowLevelSecurity.toValue_injective _ _ _

theorem relationNamed_path {catalog : CatalogSnapshot} {schema name : String}
    {relation : CatalogRelation} (h : catalog.relationNamed schema name = some relation) :
    relationPath relation = relationBase schema name := by
  have hmapKey : relation.mapKey = toLex (schema, name) := name_of_named h
  have hkey := Prod.mk.inj (toLex.injective hmapKey)
  rw [relationPath, hkey.1, hkey.2, relationBase]

/-- What is pushed for an object says what is to be reported of it. -/
theorem CatalogObject.says_pushed (before after : CatalogSnapshot) (object : CatalogObject) :
    Says object.path object.kind (object.reported before after) (object.pushed before after) := by
  have hshared : ∀ (schema name path : String) (kind : CatalogObjectKind)
      (version : CatalogRelation → Option Value)
      (push : CatalogRelation → CatalogRelation → List CatalogChange),
      (∀ left right, relationPath left = relationBase schema name →
        Says path kind (contentBetween (version left) (version right)) (push left right)) →
      Says path kind
        (if sharesRelation before after schema name then
          contentBetween ((before.relationNamed schema name).bind version)
            ((after.relationNamed schema name).bind version) else none)
        (onShared before after schema name push) := by
    intro schema name path kind version push hpush
    unfold onShared sharesRelation
    cases hleft : before.relationNamed schema name with
    | none => rfl
    | some left =>
      cases after.relationNamed schema name with
      | none => rfl
      | some right => exact hpush left right (relationNamed_path hleft)
  cases object with
  | serverVersionNum => exact says_pushModified numberValue_injective _ _ _
  | roleContext => exact says_pushModified CatalogRoleContext.toValue_injective _ _ _
  | roleGraphFingerprint => exact says_pushModified string_injective _ _ _
  | objectPrivilegeFingerprint => exact says_pushModified string_injective _ _ _
  | function key =>
    exact says_pushKeyed (fun _ _ => rfl) (fun _ _ => rfl) fun left _ right _ =>
      says_pushModified CatalogFunction.toValue_injective _ left right
  | relation schema name =>
    have hpath : ∀ catalog : CatalogSnapshot, ∀ item ∈ catalog.relationNamed schema name,
        relationPath item = relationBase schema name :=
      fun _ _ hitem => relationNamed_path hitem
    unfold CatalogObject.reported CatalogObject.compared sharesRelation
    by_cases hboth : (before.relationNamed schema name).isSome = true ∧
        (after.relationNamed schema name).isSome = true
    · obtain ⟨left, hleft⟩ := Option.isSome_iff_exists.mp hboth.1
      obtain ⟨right, hright⟩ := Option.isSome_iff_exists.mp hboth.2
      simp [hleft, hright, CatalogObject.pushed, pushKeyed, Says]
    · have hcompared : (!((before.relationNamed schema name).isSome &&
          (after.relationNamed schema name).isSome)) = true := by
        rw [← Bool.and_eq_true, Bool.not_eq_true] at hboth
        rw [hboth, Bool.not_false]
      rw [if_pos hcompared]
      refine says_pushKeyed (hpath before) (hpath after) fun left hleft right hright => ?_
      exact absurd ⟨Option.isSome_iff_exists.mpr ⟨left, hleft⟩,
        Option.isSome_iff_exists.mpr ⟨right, hright⟩⟩ hboth
  | aspect schema name part =>
    have hpart := hshared schema name (aspectPath (relationBase schema name) part) .relation
      (fun relation => some (part.value relation))
      (fun left right => pushAspect (relationPath left) left right part)
      fun left right hpath => hpath ▸ says_pushAspect left right part _
    have hmap : ∀ value : Option CatalogRelation,
        (value.bind fun relation => some (part.value relation)) =
          value.map fun relation => part.value relation := by
      intro value
      cases value <;> rfl
    rw [hmap, hmap] at hpart
    exact hpart
  | column schema holder name =>
    refine hshared schema holder _ .column _ _ fun left right hpath => ?_
    rw [CatalogObject.path, ← hpath]
    exact says_pushKeyed (fun _ _ => rfl) (fun _ _ => rfl) fun left _ right _ =>
      says_pushModified CatalogColumn.toValue_injective _ left right
  | constraint schema holder key =>
    refine hshared schema holder _ .constraint _ _ fun left right hpath => ?_
    rw [CatalogObject.path, ← hpath]
    exact says_pushKeyed (fun _ _ => rfl) (fun _ _ => rfl) fun left _ right _ =>
      says_pushModified CatalogConstraint.toValue_injective _ left right
  | policy schema holder name =>
    refine hshared schema holder _ .policy _ _ fun left right hpath => ?_
    rw [CatalogObject.path, ← hpath]
    exact says_pushKeyed (fun _ _ => rfl) (fun _ _ => rfl) fun left _ right _ =>
      says_pushModified RowLevelSecurityPolicy.toValue_injective _ left right

/-! ## Every object is visited -/

/-- The keys that a scan of a database gives once. -/
structure CatalogRelation.DistinctKeys (relation : CatalogRelation) : Prop where
  columns : (relation.columns.map CatalogColumn.name).Nodup
  constraints : (relation.constraints.map constraintSortKey).Nodup
  policies : (relation.policies.map RowLevelSecurityPolicy.name).Nodup

structure CatalogSnapshot.DistinctKeys (catalog : CatalogSnapshot) : Prop where
  functions : (catalog.functions.map CatalogFunction.sortKey).Nodup
  relations : (catalog.relations.map CatalogRelation.mapKey).Nodup
  each : ∀ relation ∈ catalog.relations, relation.DistinctKeys

theorem mem_diffKeyed {α κ : Type} [LinearOrder κ] {name : α → κ}
    {push : κ → Option α → Option α → List CatalogChange} (hnone : ∀ key, push key none none = [])
    {before after : List α} (hbefore : (before.map name).Nodup) (hafter : (after.map name).Nodup)
    {change : CatalogChange} : change ∈ diffKeyed name push before after ↔
      ∃ key, change ∈ push key (named name before key) (named name after key) := by
  simp only [diffKeyed, List.mem_flatMap,
    mem_chainedKeys (sorted_collect name before) (sorted_collect name after),
    lookup_collect_of_nodup hbefore, lookup_collect_of_nodup hafter]
  constructor
  · rintro ⟨key, -, hchange⟩
    exact ⟨key, hchange⟩
  · rintro ⟨key, hchange⟩
    refine ⟨key, ?_, hchange⟩
    by_contra hneither
    rw [not_or, Option.not_isSome_iff_eq_none, Option.not_isSome_iff_eq_none] at hneither
    rw [hneither.1, hneither.2, hnone] at hchange
    cases hchange

/-- The written key of a constraint tells its kind and its name. -/
theorem constraintKey_eq_iff {constraint other : CatalogConstraint} :
    constraintKey constraint = constraintKey other ↔
      constraintSortKey constraint = constraintSortKey other := by
  rw [← String.toList_inj]
  cases constraint <;> cases other <;>
    simp [constraintKey, constraintSortKey, String.toList_append, String.toList_inj]

theorem CatalogRelation.DistinctKeys.constraintKeys {relation : CatalogRelation}
    (h : relation.DistinctKeys) : (relation.constraints.map constraintKey).Nodup := by
  have hsorted := List.pairwise_map.mp h.constraints
  exact List.pairwise_map.mpr (hsorted.imp fun hne heq => hne (constraintKey_eq_iff.mp heq))

section Membership
variable {before after : CatalogSnapshot} {change : CatalogChange}

theorem mem_diffContext : change ∈ diffContext before after ↔
    change ∈ CatalogObject.serverVersionNum.pushed before after ∨
    change ∈ CatalogObject.roleContext.pushed before after ∨
    change ∈ CatalogObject.roleGraphFingerprint.pushed before after ∨
    change ∈ CatalogObject.objectPrivilegeFingerprint.pushed before after := by
  simp only [diffContext, List.mem_append, CatalogObject.pushed, or_assoc]

theorem mem_diffRelation {left right : CatalogRelation} (hleft : left.DistinctKeys)
    (hright : right.DistinctKeys) : change ∈ diffRelation left right ↔
      (∃ part, change ∈ pushAspect (relationPath left) left right part) ∨
      (∃ name, change ∈ pushColumn (relationPath left) name
        (named CatalogColumn.name left.columns name)
        (named CatalogColumn.name right.columns name)) ∨
      (∃ key, change ∈ pushConstraint (relationPath left) key
        (named constraintKey left.constraints key) (named constraintKey right.constraints key)) ∨
      ∃ name, change ∈ pushPolicy (relationPath left) name
        (named RowLevelSecurityPolicy.name left.policies name)
        (named RowLevelSecurityPolicy.name right.policies name) := by
  have hparts : ∀ part : RelationAspect,
      part ∈ [RelationAspect.kind, .owner, .view, .comment, .grants, .rls] := by
    intro part
    cases part <;> decide
  simp only [diffRelation, diffColumns, diffConstraints, diffPolicies, List.mem_append,
    List.mem_flatMap, hparts, true_and, or_assoc]
  rw [mem_diffKeyed (fun _ => rfl) hleft.columns hright.columns,
    mem_diffKeyed (fun _ => rfl) hleft.constraintKeys hright.constraintKeys,
    mem_diffKeyed (fun _ => rfl) hleft.policies hright.policies]

theorem mem_diffRelations (hbefore : before.DistinctKeys) (hafter : after.DistinctKeys) :
    change ∈ diffRelations before.relations after.relations ↔
      ∃ schema name, change ∈ (CatalogObject.relation schema name).pushed before after ∨
        change ∈ onShared before after schema name diffRelation := by
  rw [diffRelations, mem_diffKeyed (fun _ => rfl) hbefore.relations hafter.relations]
  have hsplit : ∀ schema name, change ∈ pushKeyed relationPath .relation CatalogRelation.toValue
        .compatible diffRelation (before.relationNamed schema name)
        (after.relationNamed schema name) ↔
      change ∈ (CatalogObject.relation schema name).pushed before after ∨
        change ∈ onShared before after schema name diffRelation := by
    intro schema name
    rw [CatalogObject.pushed, onShared]
    cases before.relationNamed schema name <;> cases after.relationNamed schema name <;>
      simp [pushKeyed]
  constructor
  · rintro ⟨key, hchange⟩
    exact ⟨(ofLex key).1, (ofLex key).2, (hsplit _ _).mp hchange⟩
  · rintro ⟨schema, name, hchange⟩
    exact ⟨toLex (schema, name), (hsplit schema name).mpr hchange⟩

/-- The changes of a common relation are those of its parts. -/
theorem mem_onShared_diffRelation (hbefore : before.DistinctKeys) (hafter : after.DistinctKeys)
    (schema name : String) : change ∈ onShared before after schema name diffRelation ↔
      (∃ part, change ∈ (CatalogObject.aspect schema name part).pushed before after) ∨
      (∃ column, change ∈ (CatalogObject.column schema name column).pushed before after) ∨
      (∃ key, change ∈ (CatalogObject.constraint schema name key).pushed before after) ∨
      ∃ policy, change ∈ (CatalogObject.policy schema name policy).pushed before after := by
  simp only [CatalogObject.pushed, onShared]
  cases hleft : before.relationNamed schema name with
  | none => simp
  | some left =>
    cases hright : after.relationNamed schema name with
    | none => simp
    | some right =>
      have hl := ((named_eq_some_iff hbefore.relations).mp hleft).1
      have hr := ((named_eq_some_iff hafter.relations).mp hright).1
      exact mem_diffRelation (hbefore.each left hl) (hafter.each right hr)

theorem mem_pushedChanges (hbefore : before.DistinctKeys) (hafter : after.DistinctKeys) :
    change ∈ pushedChanges before after ↔
      ∃ object : CatalogObject, change ∈ object.pushed before after := by
  have hfunctions : change ∈ diffFunctions before.functions after.functions ↔
      ∃ key, change ∈ (CatalogObject.function key).pushed before after :=
    mem_diffKeyed (fun _ => rfl) hbefore.functions hafter.functions
  rw [pushedChanges, List.mem_append, List.mem_append, hfunctions, mem_diffContext,
    mem_diffRelations hbefore hafter]
  simp only [mem_onShared_diffRelation hbefore hafter]
  constructor
  · rintro (((h | h | h | h) | ⟨key, h⟩) |
      ⟨schema, name, h | ⟨part, h⟩ | ⟨column, h⟩ | ⟨key, h⟩ | ⟨policy, h⟩⟩)
    all_goals exact ⟨_, h⟩
  · rintro ⟨object, h⟩
    cases object with
    | serverVersionNum => exact .inl (.inl (.inl h))
    | roleContext => exact .inl (.inl (.inr (.inl h)))
    | roleGraphFingerprint => exact .inl (.inl (.inr (.inr (.inl h))))
    | objectPrivilegeFingerprint => exact .inl (.inl (.inr (.inr (.inr h))))
    | function key => exact .inl (.inr ⟨key, h⟩)
    | relation schema name => exact .inr ⟨schema, name, .inl h⟩
    | aspect schema name part => exact .inr ⟨schema, name, .inr (.inl ⟨part, h⟩)⟩
    | column schema name column => exact .inr ⟨schema, name, .inr (.inr (.inl ⟨column, h⟩))⟩
    | constraint schema name key =>
      exact .inr ⟨schema, name, .inr (.inr (.inr (.inl ⟨key, h⟩)))⟩
    | policy schema name policy =>
      exact .inr ⟨schema, name, .inr (.inr (.inr (.inr ⟨policy, h⟩)))⟩

end Membership

/-! ## Canonical catalogs -/

theorem nodup_map_sortOn_map {α κ ν : Type} [LinearOrder κ] (key : α → κ) (normalize : α → α)
    {name : α → ν} (hname : ∀ a, name (normalize a) = name a) {items : List α}
    (h : (items.map name).Nodup) : ((sortOn key (items.map normalize)).map name).Nodup := by
  have hperm := (perm_sortOn key (items.map normalize)).map name
  have hnames : (items.map normalize).map name = items.map name := by
    rw [List.map_map]
    exact List.map_congr_left fun a _ => hname a
  rw [hnames] at hperm
  exact hperm.nodup_iff.mpr h

theorem nodup_map_sortOn {α κ ν : Type} [LinearOrder κ] (key : α → κ) {name : α → ν}
    {items : List α} (h : (items.map name).Nodup) : ((sortOn key items).map name).Nodup :=
  ((perm_sortOn key items).map name).nodup_iff.mpr h

theorem CatalogRelation.DistinctKeys.normalize {relation : CatalogRelation}
    (h : relation.DistinctKeys) : relation.normalize.DistinctKeys where
  columns := nodup_map_sortOn _ h.columns
  constraints := nodup_map_sortOn _ h.constraints
  policies := nodup_map_sortOn_map _ RowLevelSecurityPolicy.normalize (fun _ => rfl) h.policies

theorem CatalogSnapshot.DistinctKeys.normalize {catalog : CatalogSnapshot}
    (h : catalog.DistinctKeys) : catalog.normalize.DistinctKeys where
  functions := nodup_map_sortOn_map _ CatalogFunction.normalize (fun _ => rfl) h.functions
  relations := nodup_map_sortOn_map _ CatalogRelation.normalize (fun _ => rfl) h.relations
  each := by
    intro relation hmem
    obtain ⟨original, horiginal, rfl⟩ := List.mem_map.mp ((mem_sortOn _).mp hmem)
    exact (h.each original horiginal).normalize

theorem nodup_of_imp {α κ ν : Type} {key : α → κ} {name : α → ν}
    (himp : ∀ a b, key a = key b → name a = name b) {items : List α}
    (h : (items.map name).Nodup) : (items.map key).Nodup :=
  List.pairwise_map.mpr ((List.pairwise_map.mp h).imp fun hne heq => hne (himp _ _ heq))

theorem CatalogRelation.DistinctKeys.uniqueKeys {relation : CatalogRelation}
    (h : relation.DistinctKeys) : relation.UniqueKeys where
  columns := .of_nodup (nodup_of_imp (fun _ _ heq => (Prod.mk.inj (toLex.injective heq)).2)
    h.columns)
  constraints := .of_nodup h.constraints
  policies := .of_nodup (nodup_of_imp (fun _ _ heq => (Prod.mk.inj (toLex.injective heq)).1)
    h.policies)

theorem CatalogSnapshot.DistinctKeys.uniqueKeys {catalog : CatalogSnapshot}
    (h : catalog.DistinctKeys) : catalog.UniqueKeys where
  functions := .of_nodup h.functions
  relations := by
    refine .of_nodup (nodup_of_imp (fun relation other heq => ?_) h.relations)
    have hpair := Prod.mk.inj (toLex.injective heq)
    have hname := Prod.mk.inj (toLex.injective hpair.2)
    rw [CatalogRelation.mapKey, CatalogRelation.mapKey, hpair.1, hname.1]
  each := fun relation hmem => (h.each relation hmem).uniqueKeys

/-! ## A diff without changes -/

theorem contentBetween_eq_none_iff (before after : Option Value) :
    contentBetween before after = none ↔ before = after := by
  cases before <;> cases after <;> simp [contentBetween]

theorem reported_self (catalog : CatalogSnapshot) (object : CatalogObject) :
    object.reported catalog catalog = none := by
  unfold CatalogObject.reported
  rw [(contentBetween_eq_none_iff _ _).mpr rfl, ite_self]

/-- Collections whose items have equal versions under every name hold the same items. -/
theorem perm_of_version_eq {α κ : Type} [LinearOrder κ] {name : α → κ} {toValue : α → Value}
    (hvalue : toValue.Injective) {items others : List α} (h : (items.map name).Nodup)
    (h' : (others.map name).Nodup)
    (hversion : ∀ key, (named name items key).map toValue = (named name others key).map toValue) :
    items.Perm others :=
  perm_of_named_eq h h' fun key => Option.map_injective hvalue (hversion key)

theorem reordered_of_perm {α : Type} {R : α → α → Prop} {items others : List α}
    (hrefl : ∀ a ∈ items, R a a) (h : items.Perm others) : Reordered R items others :=
  ⟨items, List.forall₂_same.mpr hrefl, h⟩

/-- The relations of a canonical catalog are canonical. -/
theorem normalize_eq_of_mem {catalog : CatalogSnapshot} (h : catalog.normalize = catalog)
    {relation : CatalogRelation} (hmem : relation ∈ catalog.relations) :
    relation.normalize = relation := by
  rw [← h] at hmem
  obtain ⟨original, -, rfl⟩ := List.mem_map.mp ((mem_sortOn _).mp hmem)
  exact original.normalize_idem

section Unchanged
variable {before after : CatalogSnapshot}
  (hnone : ∀ object : CatalogObject, object.reported before after = none)
include hnone

theorem version_eq_of_reported (object : CatalogObject)
    (hcompared : object.compared before after = true) :
    object.version before = object.version after := by
  have h := hnone object
  rw [CatalogObject.reported, if_pos hcompared] at h
  exact (contentBetween_eq_none_iff _ _).mp h

/-- A relation that both catalogs hold is the same in both of them, up to order. -/
theorem relation_sameEvidence {schema name : String} {left right : CatalogRelation}
    (hleft : before.relationNamed schema name = some left)
    (hright : after.relationNamed schema name = some right) (hl : left.DistinctKeys)
    (hr : right.DistinctKeys) : left.SameEvidence right := by
  have hshared : sharesRelation before after schema name = true := by
    rw [sharesRelation, hleft, hright]
    rfl
  have haspect : ∀ part : RelationAspect, part.value left = part.value right := by
    intro part
    have h := version_eq_of_reported hnone (.aspect schema name part) hshared
    simpa only [CatalogObject.version, hleft, hright, Option.map_some, Option.some.injEq] using h
  have hkeys := Prod.mk.inj (toLex.injective ((name_of_named hleft).trans (name_of_named hright).symm))
  have hcolumns : left.columns.Perm right.columns := by
    refine perm_of_version_eq CatalogColumn.toValue_injective hl.columns hr.columns fun column => ?_
    have h := version_eq_of_reported hnone (.column schema name column) hshared
    simpa only [CatalogObject.version, hleft, hright, Option.bind_some] using h
  have hconstraints : left.constraints.Perm right.constraints := by
    refine perm_of_version_eq CatalogConstraint.toValue_injective hl.constraintKeys
      hr.constraintKeys fun key => ?_
    have h := version_eq_of_reported hnone (.constraint schema name key) hshared
    simpa only [CatalogObject.version, hleft, hright, Option.bind_some] using h
  have hpolicies : left.policies.Perm right.policies := by
    refine perm_of_version_eq RowLevelSecurityPolicy.toValue_injective hl.policies hr.policies
      fun policy => ?_
    have h := version_eq_of_reported hnone (.policy schema name policy) hshared
    simpa only [CatalogObject.version, hleft, hright, Option.bind_some] using h
  have hview := nullableView_injective (haspect .view)
  exact
    { schema := hkeys.1
      name := hkeys.2
      kind := RelationKind.toValue_injective (haspect .kind)
      owner := string_injective (haspect .owner)
      view := (optionRel_iff_map_eq CatalogView.normalize_eq_iff _ _).mp (by rw [hview])
      comment := nullableString_injective (haspect .comment)
      grants := RelationGrantHints.toValue_injective (haspect .grants)
      rls := RowLevelSecurity.toValue_injective (haspect .rls)
      columns := hcolumns
      constraints := hconstraints
      policies := reordered_of_perm
        (fun policy _ => (RowLevelSecurityPolicy.normalize_eq_iff policy policy).mp rfl) hpolicies }

theorem contents_eq (hbefore : before.DistinctKeys) (hafter : after.DistinctKeys)
    (hcanonical : before.normalize = before) (hcanonical' : after.normalize = after)
    (hversion : before.schemaVersion = after.schemaVersion)
    (hdatabase : before.currentDatabase = after.currentDatabase)
    (hrole : before.currentRole = after.currentRole) :
    { before with fingerprint := "" } = { after with fingerprint := "" } := by
  have hcontext : ∀ object : CatalogObject, object.compared before after = true →
      object.version before = object.version after :=
    fun object => version_eq_of_reported hnone object
  have hserver := hcontext .serverVersionNum rfl
  have hroles := hcontext .roleContext rfl
  have hgraph := hcontext .roleGraphFingerprint rfl
  have hprivilege := hcontext .objectPrivilegeFingerprint rfl
  have hfunctions : before.functions.Perm after.functions :=
    perm_of_version_eq CatalogFunction.toValue_injective hbefore.functions hafter.functions
      fun key => hcontext (.function key) rfl
  have hrelations : ∀ schema name,
      before.relationNamed schema name = after.relationNamed schema name := by
    intro schema name
    have hwhole := hcontext (.relation schema name)
    cases hleft : before.relationNamed schema name with
    | none =>
      simp only [CatalogObject.compared, sharesRelation, CatalogObject.version, hleft] at hwhole
      exact (Option.map_eq_none_iff.mp (hwhole rfl).symm).symm
    | some left =>
      cases hright : after.relationNamed schema name with
      | none =>
        simp only [CatalogObject.compared, sharesRelation, CatalogObject.version, hleft,
          hright] at hwhole
        cases hwhole rfl
      | some right =>
        have hl := ((named_eq_some_iff hbefore.relations).mp hleft).1
        have hr := ((named_eq_some_iff hafter.relations).mp hright).1
        have hsame := relation_sameEvidence hnone hleft hright (hbefore.each left hl)
          (hafter.each right hr)
        have hnormal := (CatalogRelation.normalize_eq_iff
          (hbefore.each left hl).uniqueKeys right).mpr hsame
        rw [normalize_eq_of_mem hcanonical hl, normalize_eq_of_mem hcanonical' hr] at hnormal
        rw [hnormal]
  have hperm : before.relations.Perm after.relations :=
    perm_of_named_eq hbefore.relations hafter.relations fun key =>
      hrelations (ofLex key).1 (ofLex key).2
  have hevidence : before.SameEvidence { after with fingerprint := before.fingerprint } :=
    { schemaVersion := hversion
      serverVersionNum := numberValue_injective (Option.some.inj hserver)
      currentDatabase := hdatabase
      currentRole := hrole
      roleContext := (CatalogRoleContext.normalize_eq_iff _ _).mp
        (congrArg _ (CatalogRoleContext.toValue_injective (Option.some.inj hroles)))
      roleGraphFingerprint := string_injective (Option.some.inj hgraph)
      objectPrivilegeFingerprint := string_injective (Option.some.inj hprivilege)
      functions := reordered_of_perm
        (fun function _ => (CatalogFunction.normalize_eq_iff function function).mp rfl) hfunctions
      relations := reordered_of_perm (fun relation hmem =>
        (CatalogRelation.normalize_eq_iff (hbefore.each relation hmem).uniqueKeys relation).mp rfl)
        hperm }
  have hnormal := (CatalogSnapshot.normalize_eq_iff hbefore.uniqueKeys _).mpr ⟨hevidence, rfl⟩
  have hother : ({ after with fingerprint := before.fingerprint } : CatalogSnapshot).normalize =
      { after with fingerprint := before.fingerprint } :=
    congrArg (fun catalog : CatalogSnapshot =>
      { catalog with fingerprint := before.fingerprint }) hcanonical'
  rw [hcanonical, hother] at hnormal
  exact congrArg (fun catalog : CatalogSnapshot => { catalog with fingerprint := "" }) hnormal

end Unchanged

/-! ## The report -/

/-- Every object that changed is reported, each change is the report of one object, and no path
comes twice. -/
structure CatalogDiff.ReportsEachOnce (before after : CatalogSnapshot) (diff : CatalogDiff) :
    Prop where
  complete : ∀ (object : CatalogObject) content, object.reported before after = some content →
    ∃ change ∈ diff.changes,
      change.path = object.path ∧ change.objectKind = object.kind ∧ change.content = content
  sound : ∀ change ∈ diff.changes, ∃ object : CatalogObject,
    change.path = object.path ∧ change.objectKind = object.kind ∧
      object.reported before after = some change.content
  distinct : (diff.changes.map CatalogChange.path).Nodup

def CatalogCompatibility.severity : CatalogCompatibility → Nat
  | .compatible => 0
  | .reviewRequired => 1
  | .breaking => 2

/-- The compatibility is the most severe one, and the counts add up. -/
structure CatalogDiff.Summarizes (diff : CatalogDiff) : Prop where
  bounds : ∀ change ∈ diff.changes,
    change.compatibility.severity ≤ diff.compatibility.severity
  attained : diff.compatibility = .compatible ∨
    ∃ change ∈ diff.changes, change.compatibility = diff.compatibility
  total : diff.summary.total = diff.changes.length
  adds : diff.summary.compatible + diff.summary.reviewRequired + diff.summary.breaking =
    diff.summary.total

section Report
variable {before after : CatalogSnapshot}

/-- Changes of one path are one change, so that the repetitions are dropped. -/
theorem eq_of_path_eq (hbefore : before.DistinctKeys) (hafter : after.DistinctKeys)
    {change other : CatalogChange} (hchange : change ∈ pushedChanges before after)
    (hother : other ∈ pushedChanges before after) (hpath : change.path = other.path) :
    change = other := by
  obtain ⟨object, ho⟩ := (mem_pushedChanges hbefore hafter).mp hchange
  obtain ⟨object', ho'⟩ := (mem_pushedChanges hbefore hafter).mp hother
  have hspeaks := object.says_pushed before after
  have hspeaks' := object'.says_pushed before after
  have hsame : object = object' := by
    apply CatalogObject.path_injective
    rw [← (hspeaks.path_eq ho).1, hpath, (hspeaks'.path_eq ho').1]
  subst hsame
  exact hspeaks.eq_of_mem ho ho'

theorem uniqueOn_pushedChanges (hbefore : before.DistinctKeys) (hafter : after.DistinctKeys) :
    UniqueOn CatalogChange.sortKey (pushedChanges before after) := by
  intro change hchange other hother hkey
  exact eq_of_path_eq hbefore hafter hchange hother (Prod.mk.inj (toLex.injective hkey)).1

theorem reportsEachOnce (hbefore : before.DistinctKeys) (hafter : after.DistinctKeys)
    {diff : CatalogDiff}
    (hchanges : diff.changes = distinctOn CatalogChange.sortKey (pushedChanges before after)) :
    diff.ReportsEachOnce before after := by
  have hunique := uniqueOn_pushedChanges hbefore hafter
  have hmem : ∀ change, change ∈ diff.changes ↔
      ∃ object : CatalogObject, change ∈ object.pushed before after := by
    intro change
    rw [hchanges, mem_distinctOn hunique, mem_pushedChanges hbefore hafter]
  constructor
  · intro object content hreported
    have hspeaks := object.says_pushed before after
    rw [hreported] at hspeaks
    obtain ⟨change, hpushed⟩ := hspeaks.exists_of_some
    have hchange : change ∈ object.pushed before after := by
      rw [hpushed]
      exact List.mem_singleton_self change
    obtain ⟨hpath, hkind, hcontent⟩ := hspeaks.path_eq hchange
    exact ⟨change, (hmem change).mpr ⟨object, hchange⟩, hpath, hkind,
      (Option.some.inj hcontent).symm⟩
  · intro change hchange
    obtain ⟨object, ho⟩ := (hmem change).mp hchange
    exact ⟨object, (object.says_pushed before after).path_eq ho⟩
  · rw [hchanges]
    have hnodup := nodup_distinctOn hunique
    apply List.Nodup.map_on _ hnodup
    intro change hchange other hother hpath
    exact eq_of_path_eq hbefore hafter ((mem_distinctOn hunique).mp hchange)
      ((mem_distinctOn hunique).mp hother) hpath

end Report

theorem countOf_pos {compatibility : CatalogCompatibility} {changes : List CatalogChange} :
    0 < countOf compatibility changes ↔
      ∃ change ∈ changes, change.compatibility = compatibility := by
  simp [countOf, List.length_pos_iff, List.filter_eq_nil_iff]

theorem countOf_add (changes : List CatalogChange) :
    countOf .compatible changes + countOf .reviewRequired changes + countOf .breaking changes =
      changes.length := by
  induction changes with
  | nil => rfl
  | cons change changes ih =>
    simp only [countOf, List.filter_cons, List.length_cons] at ih ⊢
    cases hc : change.compatibility <;> simp <;> omega

theorem severity_le_severest {changes : List CatalogChange} {change : CatalogChange}
    (hmem : change ∈ changes) : change.compatibility.severity ≤
      (CatalogDiffSummary.summarize changes).severest.severity := by
  have hpos : 0 < countOf change.compatibility changes := countOf_pos.mpr ⟨change, hmem, rfl⟩
  unfold CatalogDiffSummary.severest CatalogDiffSummary.summarize
  cases hc : change.compatibility with
  | compatible => exact Nat.zero_le _
  | reviewRequired =>
    rw [hc] at hpos
    by_cases hbreaking : countOf .breaking changes > 0
    · simp [hbreaking, CatalogCompatibility.severity]
    · simp [hbreaking, hpos, CatalogCompatibility.severity]
  | breaking =>
    rw [hc] at hpos
    simp [hpos, CatalogCompatibility.severity]

theorem severest_attained (changes : List CatalogChange) :
    (CatalogDiffSummary.summarize changes).severest = .compatible ∨ ∃ change ∈ changes,
      change.compatibility = (CatalogDiffSummary.summarize changes).severest := by
  unfold CatalogDiffSummary.severest CatalogDiffSummary.summarize
  by_cases hbreaking : countOf .breaking changes > 0
  · simp only [if_pos hbreaking]
    exact .inr (countOf_pos.mp hbreaking)
  · by_cases hreview : countOf .reviewRequired changes > 0
    · simp only [if_neg hbreaking, if_pos hreview]
      exact .inr (countOf_pos.mp hreview)
    · simp only [if_neg hbreaking, if_neg hreview, true_or]

theorem diffCatalogs_eq_ok {backend : CatalogBackend} {before after : CatalogSnapshot}
    {diff : CatalogDiff} (h : diffCatalogs backend before after = .ok diff) :
    before.validatedNormalized backend = .ok before.normalize ∧
      after.validatedNormalized backend = .ok after.normalize ∧
      before.currentDatabase = after.currentDatabase ∧ before.currentRole = after.currentRole ∧
      diff.changes =
        distinctOn CatalogChange.sortKey (pushedChanges before.normalize after.normalize) ∧
      diff.summary = CatalogDiffSummary.summarize diff.changes ∧
      diff.compatibility = diff.summary.severest := by
  simp only [diffCatalogs, bind_eq_ok, mapError_eq_ok, ensure_eq_ok, Bool.and_eq_true,
    decide_eq_true_eq, Except.ok.injEq] at h
  obtain ⟨left, hleft, right, hright, -, ⟨hdatabase, hrole⟩, rfl⟩ := h
  obtain ⟨-, -, rfl⟩ := validatedNormalized_eq_ok.mp hleft
  obtain ⟨-, -, rfl⟩ := validatedNormalized_eq_ok.mp hright
  exact ⟨hleft, hright, hdatabase, hrole, rfl, rfl, rfl⟩

/-- A diff has no changes exactly when the fingerprints are equal, reports every object that
changed once, under a path of its own, and is summarized. -/
theorem catalog_diff_complete {backend : CatalogBackend} (hfaithful : backend.Faithful)
    {before after : CatalogSnapshot} {diff : CatalogDiff} (hbefore : before.DistinctKeys)
    (hafter : after.DistinctKeys) (hdiff : diffCatalogs backend before after = .ok diff)
    (hseparates : backend.Separates before.normalize after.normalize) :
    (diff.changes = [] ↔ before.fingerprint = after.fingerprint) ∧
      diff.ReportsEachOnce before.normalize after.normalize ∧
      CatalogObject.path.Injective ∧ diff.Summarizes := by
  obtain ⟨hleft, hright, hdatabase, hrole, hchanges, hsummary, hcompatibility⟩ :=
    diffCatalogs_eq_ok hdiff
  obtain ⟨hversion, hfingerprint, -⟩ := validatedNormalized_eq_ok.mp hleft
  obtain ⟨hversion', hfingerprint', -⟩ := validatedNormalized_eq_ok.mp hright
  have hreports := reportsEachOnce hbefore.normalize hafter.normalize hchanges
  refine ⟨⟨?_, ?_⟩, hreports, CatalogObject.path_injective, ?_⟩
  · intro hnil
    have hnone : ∀ object : CatalogObject,
        object.reported before.normalize after.normalize = none := by
      intro object
      cases hreported : object.reported before.normalize after.normalize with
      | none => rfl
      | some content =>
        obtain ⟨change, hchange, -⟩ := hreports.complete object content hreported
        rw [hnil] at hchange
        cases hchange
    have hcontents := contents_eq hnone hbefore.normalize hafter.normalize before.normalize_idem
      after.normalize_idem (hversion.trans hversion'.symm) hdatabase hrole
    rw [CatalogSnapshot.calculateFingerprint, hcontents,
      ← CatalogSnapshot.calculateFingerprint, hfingerprint'] at hfingerprint
    exact (Except.ok.inj hfingerprint).symm
  · intro hequal
    rw [← hequal] at hfingerprint'
    have hsame := eq_of_calculateFingerprint_eq hfaithful hfingerprint hfingerprint' hseparates
      hequal
    apply List.eq_nil_iff_forall_not_mem.mpr
    intro change hchange
    obtain ⟨object, -, -, hreported⟩ := hreports.sound change hchange
    rw [hsame, reported_self] at hreported
    cases hreported
  · constructor
    · intro change hmem
      rw [hcompatibility, hsummary]
      exact severity_le_severest hmem
    · rw [hcompatibility, hsummary]
      exact severest_attained diff.changes
    · rw [hsummary]
      rfl
    · rw [hsummary]
      exact countOf_add diff.changes

/-! ## A relation that changed twice -/

def reviewedRelation : CatalogRelation :=
  { scannedRelation "orders" (some "all orders") with rls := { enabled := false, forced := false } }

def reviewedCatalog : CatalogSnapshot :=
  { scannedCatalog with
    relations := [scannedRelation "customers" none, reviewedRelation]
    fingerprint := "sha256:bc29ebb3eeac5dd65d438c11770890f87806fd27c589488e22da4781842ec323" }

theorem scannedRelation_distinctKeys (name : String) (comment : Option String) :
    (scannedRelation name comment).DistinctKeys :=
  ⟨by simp [scannedRelation], by simp [scannedRelation], by simp [scannedRelation]⟩

theorem scannedCatalog_distinctKeys : scannedCatalog.DistinctKeys where
  functions := by decide
  relations := by decide
  each := by
    intro relation hmem
    simp only [scannedCatalog, List.mem_cons, List.not_mem_nil, or_false] at hmem
    rcases hmem with rfl | rfl
    · exact scannedRelation_distinctKeys _ _
    · exact scannedRelation_distinctKeys _ _

theorem reviewedCatalog_distinctKeys : reviewedCatalog.DistinctKeys where
  functions := by decide
  relations := by decide
  each := by
    intro relation hmem
    simp only [reviewedCatalog, List.mem_cons, List.not_mem_nil, or_false] at hmem
    rcases hmem with rfl | rfl
    · exact scannedRelation_distinctKeys _ _
    · have h := scannedRelation_distinctKeys "orders" (some "all orders")
      exact ⟨h.columns, h.constraints, h.policies⟩

theorem reviewedCatalog_accepted :
    reviewedCatalog.validatedNormalized standardCatalog = .ok reviewedCatalog.normalize := by
  apply validatedNormalized_of_codes rfl
  decide +kernel

theorem reviewedCatalog_diff : succeedsWith
    (diffCatalogs standardCatalog scannedCatalog reviewedCatalog) (fun diff =>
      decide ((diff.changes.map fun change => (change.objectKind, change.path)) =
        [(.relation, relationPath reviewedRelation ++ "/comment"),
          (.relation, relationPath reviewedRelation ++ "/rls")])) = true := by
  rw [diffCatalogs, scannedCatalog_accepted, reviewedCatalog_accepted]
  decide +kernel

theorem catalog_diff_complete_shop : ∃ diff,
    diffCatalogs standardCatalog scannedCatalog reviewedCatalog = .ok diff ∧
      (diff.changes = [] ↔ scannedCatalog.fingerprint = reviewedCatalog.fingerprint) ∧
      diff.ReportsEachOnce scannedCatalog.normalize reviewedCatalog.normalize ∧
      CatalogObject.path.Injective ∧ diff.Summarizes := by
  obtain ⟨diff, hdiff, -⟩ := exists_ok_of_succeedsWith reviewedCatalog_diff
  obtain ⟨hleft, hright, -⟩ := diffCatalogs_eq_ok hdiff
  have hne : scannedCatalog.fingerprint ≠ reviewedCatalog.fingerprint := by decide
  have hseparates := separates_of_fingerprint_ne (validatedNormalized_eq_ok.mp hleft).2.1
    (validatedNormalized_eq_ok.mp hright).2.1 hne
  exact ⟨diff, hdiff, catalog_diff_complete standardCatalog_faithful scannedCatalog_distinctKeys
    reviewedCatalog_distinctKeys hdiff hseparates⟩

/-- The comment and the row security of one relation changed, and the relation is reported twice. -/
theorem relation_reported_twice : scannedCatalog.DistinctKeys ∧ reviewedCatalog.DistinctKeys ∧
    ∃ diff, diffCatalogs standardCatalog scannedCatalog reviewedCatalog = .ok diff ∧
      (diff.changes.map fun change => (change.objectKind, change.path)) =
        [(.relation, relationPath reviewedRelation ++ "/comment"),
          (.relation, relationPath reviewedRelation ++ "/rls")] := by
  obtain ⟨diff, hdiff, hchanges⟩ := exists_ok_of_succeedsWith reviewedCatalog_diff
  exact ⟨scannedCatalog_distinctKeys, reviewedCatalog_distinctKeys, diff, hdiff,
    of_decide_eq_true hchanges⟩

end Postgresem
