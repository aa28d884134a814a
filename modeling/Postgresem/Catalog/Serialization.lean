import Postgresem.Catalog.Snapshot
import Postgresem.Semantic.Serialization

/-! The serialized catalog. Every member is written, so the text determines the catalog. -/
namespace Postgresem
open Json (Value)

def namesValue (names : List String) : Value := .array (names.map Value.string)

def numberValue (value : Nat) : Value := .number (toString value)

def CatalogRoleContext.toValue (context : CatalogRoleContext) : Value :=
  .object [("inherit", .boolean context.inherit), ("superuser", .boolean context.superuser),
    ("bypass_rls", .boolean context.bypassRls),
    ("effective_roles", namesValue context.effectiveRoles),
    ("settable_roles", namesValue context.settableRoles)]

def RelationKind.toValue : RelationKind → Value
  | .table => .string "table"
  | .partitionedTable => .string "partitioned_table"
  | .view => .string "view"
  | .materializedView => .string "materialized_view"
  | .foreignTable => .string "foreign_table"

def CatalogView.toValue (view : CatalogView) : Value :=
  .object [("definition_hash", .string view.definitionHash),
    ("security_invoker", .boolean view.securityInvoker),
    ("security_barrier", .boolean view.securityBarrier),
    ("owner_authorization", nullableValue CatalogRoleContext.toValue view.ownerAuthorization)]

def RelationGrantHints.toValue (grants : RelationGrantHints) : Value :=
  .object [("schema_usage", .boolean grants.schemaUsage),
    ("table_select", .boolean grants.tableSelect),
    ("any_column_select", .boolean grants.anyColumnSelect)]

def RowLevelSecurity.toValue (rls : RowLevelSecurity) : Value :=
  .object [("enabled", .boolean rls.enabled), ("forced", .boolean rls.forced)]

def CatalogColumn.toValue (column : CatalogColumn) : Value :=
  .object [("name", .string column.name), ("ordinal", numberValue column.ordinal),
    ("data_type", .string column.dataType), ("nullable", .boolean column.nullable),
    ("comment", nullableValue Value.string column.comment),
    ("select_grant", .boolean column.selectGrant)]

def RelationReference.toValue (reference : RelationReference) : Value :=
  .object [("schema", .string reference.schema), ("name", .string reference.name)]

def ForeignKeyMatch.toValue : ForeignKeyMatch → Value
  | .full => .string "full"
  | .partialMatch => .string "partial"
  | .simple => .string "simple"

def ForeignKeyAction.toValue : ForeignKeyAction → Value
  | .noAction => .string "no_action"
  | .restrict => .string "restrict"
  | .cascade => .string "cascade"
  | .setNull => .string "set_null"
  | .setDefault => .string "set_default"

def CatalogConstraint.toValue : CatalogConstraint → Value
  | .primaryKey name columns enforced period deferrable initiallyDeferred validated =>
    .object [("kind", .string "primary_key"), ("name", .string name),
      ("columns", namesValue columns), ("enforced", .boolean enforced),
      ("period", .boolean period), ("deferrable", .boolean deferrable),
      ("initially_deferred", .boolean initiallyDeferred), ("validated", .boolean validated)]
  | .unique name columns nullsNotDistinct enforced period deferrable initiallyDeferred validated =>
    .object [("kind", .string "unique"), ("name", .string name),
      ("columns", namesValue columns), ("nulls_not_distinct", .boolean nullsNotDistinct),
      ("enforced", .boolean enforced), ("period", .boolean period),
      ("deferrable", .boolean deferrable), ("initially_deferred", .boolean initiallyDeferred),
      ("validated", .boolean validated)]
  | .foreignKey name columns referencedRelation referencedColumns deleteSetColumns matchType
      onUpdate onDelete enforced period deferrable initiallyDeferred validated =>
    .object [("kind", .string "foreign_key"), ("name", .string name),
      ("columns", namesValue columns), ("referenced_relation", referencedRelation.toValue),
      ("referenced_columns", namesValue referencedColumns),
      ("delete_set_columns", namesValue deleteSetColumns), ("match_type", matchType.toValue),
      ("on_update", onUpdate.toValue), ("on_delete", onDelete.toValue),
      ("enforced", .boolean enforced), ("period", .boolean period),
      ("deferrable", .boolean deferrable), ("initially_deferred", .boolean initiallyDeferred),
      ("validated", .boolean validated)]
  | .check name columns expressionHash noInherit enforced validated =>
    .object [("kind", .string "check"), ("name", .string name), ("columns", namesValue columns),
      ("expression_hash", .string expressionHash), ("no_inherit", .boolean noInherit),
      ("enforced", .boolean enforced), ("validated", .boolean validated)]

def PolicyCommand.toValue : PolicyCommand → Value
  | .all => .string "all"
  | .select => .string "select"
  | .insert => .string "insert"
  | .update => .string "update"
  | .delete => .string "delete"

def RowLevelSecurityPolicy.toValue (policy : RowLevelSecurityPolicy) : Value :=
  .object [("name", .string policy.name), ("command", policy.command.toValue),
    ("permissive", .boolean policy.permissive), ("roles", namesValue policy.roles),
    ("using_expression_hash", nullableValue Value.string policy.usingExpressionHash),
    ("with_check_expression_hash", nullableValue Value.string policy.withCheckExpressionHash)]

def CatalogRelation.toValue (relation : CatalogRelation) : Value :=
  .object [("schema", .string relation.schema), ("name", .string relation.name),
    ("kind", relation.kind.toValue), ("owner", .string relation.owner),
    ("view", nullableValue CatalogView.toValue relation.view),
    ("comment", nullableValue Value.string relation.comment),
    ("grants", relation.grants.toValue), ("rls", relation.rls.toValue),
    ("columns", .array (relation.columns.map CatalogColumn.toValue)),
    ("constraints", .array (relation.constraints.map CatalogConstraint.toValue)),
    ("policies", .array (relation.policies.map RowLevelSecurityPolicy.toValue))]

def CatalogFunctionKind.toValue : CatalogFunctionKind → Value
  | .function => .string "function"
  | .windowFunction => .string "window_function"
  | .aggregate => .string "aggregate"

def CatalogFunctionGrant.toValue (grant : CatalogFunctionGrant) : Value :=
  .object [("grantor", .string grant.grantor), ("grantee", .string grant.grantee),
    ("grantable", .boolean grant.grantable)]

def CatalogFunction.toValue (function : CatalogFunction) : Value :=
  .object [("schema", .string function.schema), ("name", .string function.name),
    ("identity_arguments", .string function.identityArguments),
    ("kind", function.kind.toValue), ("definition_hash", .string function.definitionHash),
    ("owner", .string function.owner),
    ("owner_authorization", nullableValue CatalogRoleContext.toValue function.ownerAuthorization),
    ("grants", .array (function.grants.map CatalogFunctionGrant.toValue))]

def CatalogSnapshot.toValue (catalog : CatalogSnapshot) : Value :=
  .object [("schema_version", .string catalog.schemaVersion),
    ("server_version_num", numberValue catalog.serverVersionNum),
    ("current_database", .string catalog.currentDatabase),
    ("current_role", .string catalog.currentRole),
    ("role_context", catalog.roleContext.toValue),
    ("role_graph_fingerprint", .string catalog.roleGraphFingerprint),
    ("object_privilege_fingerprint", .string catalog.objectPrivilegeFingerprint),
    ("functions", .array (catalog.functions.map CatalogFunction.toValue)),
    ("relations", .array (catalog.relations.map CatalogRelation.toValue)),
    ("fingerprint", .string catalog.fingerprint)]

/-- SHA-256 over the serialized catalog; this serialization does not fail. -/
def standardCatalog : CatalogBackend :=
  { standardHash with catalogJson := fun catalog => some (bytesOf catalog.toValue.text) }

/-! ## The text is the text of a well-formed value -/

theorem namesValue_wellFormed (names : List String) : (namesValue names).WellFormed :=
  eachWellFormed_map string_wellFormed names

theorem numberValue_wellFormed (value : Nat) : (numberValue value).WellFormed :=
  Json.isNumber_natural value

theorem nullableString_wellFormed (value : Option String) :
    (nullableValue Value.string value).WellFormed :=
  nullableValue_wellFormed string_wellFormed value

theorem CatalogRoleContext.toValue_wellFormed (context : CatalogRoleContext) :
    context.toValue.WellFormed :=
  ⟨trivial, trivial, trivial, namesValue_wellFormed _, namesValue_wellFormed _, trivial⟩

theorem RelationKind.toValue_wellFormed (kind : RelationKind) : kind.toValue.WellFormed := by
  cases kind <;> exact trivial

theorem CatalogView.toValue_wellFormed (view : CatalogView) : view.toValue.WellFormed :=
  ⟨trivial, trivial, trivial,
    nullableValue_wellFormed CatalogRoleContext.toValue_wellFormed _, trivial⟩

theorem CatalogColumn.toValue_wellFormed (column : CatalogColumn) : column.toValue.WellFormed :=
  ⟨trivial, numberValue_wellFormed _, trivial, trivial, nullableString_wellFormed _, trivial,
    trivial⟩

theorem ForeignKeyMatch.toValue_wellFormed (matchType : ForeignKeyMatch) :
    matchType.toValue.WellFormed := by
  cases matchType <;> exact trivial

theorem ForeignKeyAction.toValue_wellFormed (action : ForeignKeyAction) :
    action.toValue.WellFormed := by
  cases action <;> exact trivial

theorem CatalogConstraint.toValue_wellFormed (constraint : CatalogConstraint) :
    constraint.toValue.WellFormed := by
  cases constraint with
  | primaryKey =>
    exact ⟨trivial, trivial, namesValue_wellFormed _, trivial, trivial, trivial, trivial, trivial,
      trivial⟩
  | unique =>
    exact ⟨trivial, trivial, namesValue_wellFormed _, trivial, trivial, trivial, trivial, trivial,
      trivial, trivial⟩
  | foreignKey =>
    exact ⟨trivial, trivial, namesValue_wellFormed _, ⟨trivial, trivial, trivial⟩,
      namesValue_wellFormed _, namesValue_wellFormed _, ForeignKeyMatch.toValue_wellFormed _,
      ForeignKeyAction.toValue_wellFormed _, ForeignKeyAction.toValue_wellFormed _, trivial,
      trivial, trivial, trivial, trivial, trivial⟩
  | check =>
    exact ⟨trivial, trivial, namesValue_wellFormed _, trivial, trivial, trivial, trivial, trivial⟩

theorem PolicyCommand.toValue_wellFormed (command : PolicyCommand) :
    command.toValue.WellFormed := by
  cases command <;> exact trivial

theorem RowLevelSecurityPolicy.toValue_wellFormed (policy : RowLevelSecurityPolicy) :
    policy.toValue.WellFormed :=
  ⟨trivial, PolicyCommand.toValue_wellFormed _, trivial, namesValue_wellFormed _,
    nullableString_wellFormed _, nullableString_wellFormed _, trivial⟩

theorem CatalogRelation.toValue_wellFormed (relation : CatalogRelation) :
    relation.toValue.WellFormed :=
  ⟨trivial, trivial, RelationKind.toValue_wellFormed _, trivial,
    nullableValue_wellFormed CatalogView.toValue_wellFormed _, nullableString_wellFormed _,
    ⟨trivial, trivial, trivial, trivial⟩, ⟨trivial, trivial, trivial⟩,
    eachWellFormed_map CatalogColumn.toValue_wellFormed _,
    eachWellFormed_map CatalogConstraint.toValue_wellFormed _,
    eachWellFormed_map RowLevelSecurityPolicy.toValue_wellFormed _, trivial⟩

theorem CatalogFunctionGrant.toValue_wellFormed (grant : CatalogFunctionGrant) :
    grant.toValue.WellFormed :=
  ⟨trivial, trivial, trivial, trivial⟩

theorem CatalogFunction.toValue_wellFormed (function : CatalogFunction) :
    function.toValue.WellFormed := by
  have hkind : function.kind.toValue.WellFormed := by
    cases function.kind <;> exact trivial
  exact ⟨trivial, trivial, trivial, hkind, trivial, trivial,
    nullableValue_wellFormed CatalogRoleContext.toValue_wellFormed _,
    eachWellFormed_map CatalogFunctionGrant.toValue_wellFormed _, trivial⟩

theorem CatalogSnapshot.toValue_wellFormed (catalog : CatalogSnapshot) :
    catalog.toValue.WellFormed :=
  ⟨trivial, numberValue_wellFormed _, trivial, trivial, CatalogRoleContext.toValue_wellFormed _,
    trivial, trivial, eachWellFormed_map CatalogFunction.toValue_wellFormed _,
    eachWellFormed_map CatalogRelation.toValue_wellFormed _, trivial, trivial⟩

/-! ## A value determines what it was made from -/

theorem namesValue_injective : namesValue.Injective := by
  intro a b h
  exact string_injective.list_map (Value.array.inj h)

theorem numberValue_injective : numberValue.Injective := by
  intro a b h
  exact Text.toString_injective (Value.number.inj h)

theorem nullableString_injective : (nullableValue Value.string).Injective :=
  nullableValue_injective string_injective (by simp)

theorem CatalogRoleContext.toValue_injective : CatalogRoleContext.toValue.Injective := by
  rintro ⟨inherit, superuser, bypass, effective, settable⟩
    ⟨inherit', superuser', bypass', effective', settable'⟩ h
  simpa only [CatalogRoleContext.toValue, Value.object.injEq, List.cons.injEq, Prod.mk.injEq,
    true_and, and_true, Value.boolean.injEq, namesValue_injective.eq_iff,
    CatalogRoleContext.mk.injEq] using h

theorem nullableRoleContext_injective : (nullableValue CatalogRoleContext.toValue).Injective :=
  nullableValue_injective CatalogRoleContext.toValue_injective (by simp [CatalogRoleContext.toValue])

theorem RelationKind.toValue_injective : RelationKind.toValue.Injective := by
  intro a b h
  cases a <;> cases b <;> first | rfl | (simp [RelationKind.toValue] at h)

theorem CatalogView.toValue_injective : CatalogView.toValue.Injective := by
  rintro ⟨hash, invoker, barrier, owner⟩ ⟨hash', invoker', barrier', owner'⟩ h
  simpa only [CatalogView.toValue, Value.object.injEq, List.cons.injEq, Prod.mk.injEq, true_and,
    and_true, Value.string.injEq, Value.boolean.injEq, nullableRoleContext_injective.eq_iff,
    CatalogView.mk.injEq] using h

theorem RelationGrantHints.toValue_injective : RelationGrantHints.toValue.Injective := by
  rintro ⟨usage, table, column⟩ ⟨usage', table', column'⟩ h
  simpa only [RelationGrantHints.toValue, Value.object.injEq, List.cons.injEq, Prod.mk.injEq,
    true_and, and_true, Value.boolean.injEq, RelationGrantHints.mk.injEq] using h

theorem RowLevelSecurity.toValue_injective : RowLevelSecurity.toValue.Injective := by
  rintro ⟨enabled, forced⟩ ⟨enabled', forced'⟩ h
  simpa only [RowLevelSecurity.toValue, Value.object.injEq, List.cons.injEq, Prod.mk.injEq,
    true_and, and_true, Value.boolean.injEq, RowLevelSecurity.mk.injEq] using h

theorem CatalogColumn.toValue_injective : CatalogColumn.toValue.Injective := by
  rintro ⟨name, ordinal, type, nullable, comment, grant⟩
    ⟨name', ordinal', type', nullable', comment', grant'⟩ h
  simpa only [CatalogColumn.toValue, Value.object.injEq, List.cons.injEq, Prod.mk.injEq, true_and,
    and_true, Value.string.injEq, Value.boolean.injEq, numberValue_injective.eq_iff,
    nullableString_injective.eq_iff, CatalogColumn.mk.injEq] using h

theorem RelationReference.toValue_injective : RelationReference.toValue.Injective := by
  rintro ⟨schema, name⟩ ⟨schema', name'⟩ h
  simpa only [RelationReference.toValue, Value.object.injEq, List.cons.injEq, Prod.mk.injEq,
    true_and, and_true, Value.string.injEq, RelationReference.mk.injEq] using h

theorem ForeignKeyMatch.toValue_injective : ForeignKeyMatch.toValue.Injective := by
  intro a b h
  cases a <;> cases b <;> first | rfl | (simp [ForeignKeyMatch.toValue] at h)

theorem ForeignKeyAction.toValue_injective : ForeignKeyAction.toValue.Injective := by
  intro a b h
  cases a <;> cases b <;> first | rfl | (simp [ForeignKeyAction.toValue] at h)

theorem CatalogConstraint.toValue_injective : CatalogConstraint.toValue.Injective := by
  intro a b h
  -- the tag tells the kinds apart
  cases a <;> cases b <;>
    simp only [CatalogConstraint.toValue, Value.object.injEq, List.cons.injEq, Prod.mk.injEq,
      true_and, and_true, Value.string.injEq, Value.boolean.injEq, namesValue_injective.eq_iff,
      RelationReference.toValue_injective.eq_iff, ForeignKeyMatch.toValue_injective.eq_iff,
      ForeignKeyAction.toValue_injective.eq_iff] at h
  case primaryKey.primaryKey => simpa only [CatalogConstraint.primaryKey.injEq] using h
  case unique.unique => simpa only [CatalogConstraint.unique.injEq] using h
  case foreignKey.foreignKey => simpa only [CatalogConstraint.foreignKey.injEq] using h
  case check.check => simpa only [CatalogConstraint.check.injEq] using h
  all_goals exact absurd h.1 (by decide)

theorem PolicyCommand.toValue_injective : PolicyCommand.toValue.Injective := by
  intro a b h
  cases a <;> cases b <;> first | rfl | (simp [PolicyCommand.toValue] at h)

theorem RowLevelSecurityPolicy.toValue_injective : RowLevelSecurityPolicy.toValue.Injective := by
  rintro ⟨name, command, permissive, roles, using', check⟩
    ⟨name', command', permissive', roles', using'', check'⟩ h
  simpa only [RowLevelSecurityPolicy.toValue, Value.object.injEq, List.cons.injEq, Prod.mk.injEq,
    true_and, and_true, Value.string.injEq, Value.boolean.injEq,
    PolicyCommand.toValue_injective.eq_iff, namesValue_injective.eq_iff,
    nullableString_injective.eq_iff, RowLevelSecurityPolicy.mk.injEq] using h

theorem nullableView_injective : (nullableValue CatalogView.toValue).Injective :=
  nullableValue_injective CatalogView.toValue_injective (by simp [CatalogView.toValue])

theorem CatalogRelation.toValue_injective : CatalogRelation.toValue.Injective := by
  rintro ⟨schema, name, kind, owner, view, comment, grants, rls, columns, constraints, policies⟩
    ⟨schema', name', kind', owner', view', comment', grants', rls', columns', constraints',
      policies'⟩ h
  simpa only [CatalogRelation.toValue, Value.object.injEq, List.cons.injEq, Prod.mk.injEq,
    true_and, and_true, Value.string.injEq, Value.array.injEq,
    RelationKind.toValue_injective.eq_iff, nullableView_injective.eq_iff,
    nullableString_injective.eq_iff, RelationGrantHints.toValue_injective.eq_iff,
    RowLevelSecurity.toValue_injective.eq_iff, CatalogColumn.toValue_injective.list_map.eq_iff,
    CatalogConstraint.toValue_injective.list_map.eq_iff,
    RowLevelSecurityPolicy.toValue_injective.list_map.eq_iff, CatalogRelation.mk.injEq] using h

theorem CatalogFunctionKind.toValue_injective : CatalogFunctionKind.toValue.Injective := by
  intro a b h
  cases a <;> cases b <;> first | rfl | (simp [CatalogFunctionKind.toValue] at h)

theorem CatalogFunctionGrant.toValue_injective : CatalogFunctionGrant.toValue.Injective := by
  rintro ⟨grantor, grantee, grantable⟩ ⟨grantor', grantee', grantable'⟩ h
  simpa only [CatalogFunctionGrant.toValue, Value.object.injEq, List.cons.injEq, Prod.mk.injEq,
    true_and, and_true, Value.string.injEq, Value.boolean.injEq,
    CatalogFunctionGrant.mk.injEq] using h

theorem CatalogFunction.toValue_injective : CatalogFunction.toValue.Injective := by
  rintro ⟨schema, name, arguments, kind, hash, owner, authorization, grants⟩
    ⟨schema', name', arguments', kind', hash', owner', authorization', grants'⟩ h
  simpa only [CatalogFunction.toValue, Value.object.injEq, List.cons.injEq, Prod.mk.injEq,
    true_and, and_true, Value.string.injEq, Value.array.injEq,
    CatalogFunctionKind.toValue_injective.eq_iff, nullableRoleContext_injective.eq_iff,
    CatalogFunctionGrant.toValue_injective.list_map.eq_iff, CatalogFunction.mk.injEq] using h

theorem CatalogSnapshot.toValue_injective : CatalogSnapshot.toValue.Injective := by
  rintro ⟨version, server, database, role, context, graph, privilege, functions, relations, print⟩
    ⟨version', server', database', role', context', graph', privilege', functions', relations',
      print'⟩ h
  simpa only [CatalogSnapshot.toValue, Value.object.injEq, List.cons.injEq, Prod.mk.injEq,
    true_and, and_true, Value.string.injEq, Value.array.injEq, numberValue_injective.eq_iff,
    CatalogRoleContext.toValue_injective.eq_iff, CatalogFunction.toValue_injective.list_map.eq_iff,
    CatalogRelation.toValue_injective.list_map.eq_iff, CatalogSnapshot.mk.injEq] using h

/-! ## Fingerprints -/

/-- A serialized catalog determines the catalog. -/
def CatalogBackend.Faithful (backend : CatalogBackend) : Prop :=
  ∀ catalog catalog' bytes, backend.catalogJson catalog = some bytes →
    backend.catalogJson catalog' = some bytes → catalog = catalog'

/-- The digest tells the two serialized catalogs apart. -/
def CatalogBackend.Separates (backend : CatalogBackend) (catalog catalog' : CatalogSnapshot) :
    Prop :=
  ∀ bytes bytes', backend.catalogJson { catalog with fingerprint := "" } = some bytes →
    backend.catalogJson { catalog' with fingerprint := "" } = some bytes' →
    backend.digest bytes = backend.digest bytes' → bytes = bytes'

theorem standardCatalog_faithful : standardCatalog.Faithful := by
  intro catalog catalog' bytes h h'
  have hbytes : bytesOf catalog.toValue.text = bytesOf catalog'.toValue.text := by
    rw [Option.some.inj h, Option.some.inj h']
  exact CatalogSnapshot.toValue_injective (Value.text_inj catalog.toValue_wellFormed
    catalog'.toValue_wellFormed (bytesOf_injective hbytes))

end Postgresem
