import Postgresem.Mutation.Policy

/-! The roles of the physical columns of an upsert. Every check of the policy is about names; two
names of one column are in one role, or in two, all the same. -/
namespace Postgresem
open Control

/-- Each column is inserted once and assigned once, and no column of the conflict key is assigned. -/
structure InsertStatement.OneRole (statement : InsertStatement) : Prop where
  inserted : statement.columns.Nodup
  assigned : ∀ action ∈ statement.conflict, action.updates.Nodup
  apart : ∀ action ∈ statement.conflict, ∀ column ∈ action.updates, column ∉ action.columns

def Model.columnNamed (model : Model) (name : String) : Option String :=
  (model.fieldNamed name).map Field.column

/-- No two of the fields are one column. -/
def Model.ColumnsApart (model : Model) (names : List String) : Prop :=
  ∀ name ∈ names, ∀ other ∈ names, model.columnNamed name = model.columnNamed other → name = other

section Columns
variable {model : Model} {names columns : List String}

theorem Columns.map_eq (h : Columns model names columns) :
    names.map model.columnNamed = columns.map some := by
  rw [← List.forall₂_eq_eq_eq, List.forall₂_map_left_iff, List.forall₂_map_right_iff]
  exact h

theorem Columns.mem_iff (h : Columns model names columns) {column : String} :
    column ∈ columns ↔ ∃ name ∈ names, model.columnNamed name = some column := by
  rw [← List.mem_map (f := model.columnNamed) (b := some column), h.map_eq]
  simp

theorem Columns.nodup_iff (h : Columns model names columns) (hnames : names.Nodup) :
    columns.Nodup ↔ model.ColumnsApart names := by
  rw [← List.nodup_map_iff (Option.some_injective String), ← h.map_eq,
    List.nodup_map_iff_inj_on hnames]
  rfl

theorem Model.ColumnsApart.sublist {fewer : List String} (h : model.ColumnsApart names)
    (hsubset : ∀ name ∈ fewer, name ∈ names) : model.ColumnsApart fewer :=
  fun name hname other hother => h name (hsubset name hname) other (hsubset other hother)

end Columns

theorem inputNames_nodup (mutation : LogicalSemanticMutation) : mutation.inputNames.Nodup := by
  rw [LogicalSemanticMutation.inputNames]
  cases mutation.rows.head? with
  | none => exact List.nodup_nil
  | some row => exact row.sorted.nodup_keys

theorem mem_overwritten {mutation : LogicalSemanticMutation} {writable : WritableModel}
    {name : String} : name ∈ overwritten mutation writable ↔
      name ∈ mutation.inputNames ∧ writable.Updatable name := by
  simp [overwritten, WritableModel.Updatable]

/-- A compiled statement touches each column in one role exactly when no two input fields are one
column. -/
theorem oneRole_iff {model : Model} {writable : WritableModel} {normalized : NormalizedLsm}
    {compiled : CompiledMutation} {statement : InsertStatement}
    (hconsistent : writable.Consistent model.fields)
    (hpermits : writable.Permits model.fields normalized.mutation normalized.inputBytes)
    (hplaced : Placed model writable normalized.mutation compiled statement) :
    statement.OneRole ↔ model.ColumnsApart normalized.mutation.inputNames := by
  have hinserted := hplaced.columns.nodup_iff (inputNames_nodup normalized.mutation)
  refine ⟨fun h => hinserted.mp h.inserted, fun h => ?_⟩
  cases hoperation : normalized.mutation.operation with
  | insert =>
    have hnone := hplaced.insert hoperation
    refine ⟨hinserted.mpr h, ?_, ?_⟩ <;>
    · intro action haction
      rw [hnone] at haction
      cases haction
  | upsert =>
    obtain ⟨upsert, action, hupsert, haction, hcolumns, hupdates⟩ := hplaced.upsert hoperation
    obtain ⟨other, hother, hnames⟩ := hpermits.upsert hoperation
    obtain rfl : upsert = other := Option.some.inj (hupsert.symm.trans hother)
    have hinput : ∀ name ∈ overwritten normalized.mutation writable,
        name ∈ normalized.mutation.inputNames := fun name hname => (mem_overwritten.mp hname).1
    have hnodup : (overwritten normalized.mutation writable).Nodup :=
      (inputNames_nodup normalized.mutation).filter _
    refine ⟨hinserted.mpr h, ?_, ?_⟩
    · intro one hone
      obtain rfl : action = one := Option.some.inj (haction.symm.trans hone)
      exact (hupdates.nodup_iff hnodup).mpr (h.sublist hinput)
    · intro one hone column hupdate hkey
      obtain rfl : action = one := Option.some.inj (haction.symm.trans hone)
      obtain ⟨name, hname, hcolumn⟩ := hupdates.mem_iff.mp hupdate
      obtain ⟨key, hconflict, hsame⟩ := hcolumns.mem_iff.mp hkey
      -- The assigned field and the key field are one column, so they are one field: a field that is
      -- updatable on conflict and that is not.
      have heq : name = key := h name (hinput name hname) key (hnames.conflict key hconflict)
        (hcolumn.trans hsame.symm)
      obtain ⟨policy, hpolicy, hfield, hupdatable⟩ := (mem_overwritten.mp hname).2
      obtain ⟨fixed, hfixed, hfixedField, hkeyPolicy⟩ :=
        hconsistent.conflictKeys upsert hupsert key hconflict
      have hpolicies : policy = fixed :=
        List.inj_on_of_nodup_map hconsistent.policiesDistinct hpolicy hfixed
          (hfield.trans (heq.trans hfixedField.symm))
      rw [hpolicies, hkeyPolicy] at hupdatable
      cases hupdatable

/-- For a snapshot whose fields have names of their own. -/
theorem one_role_iff_columns_apart {backend : MutationBackend} {normalized : NormalizedLsm}
    {snapshot : SemanticSnapshot} {capabilities : MutationCapabilities}
    {options : MutationCompilerOptions} {compiled : CompiledMutation}
    (hnodup : ∀ model ∈ snapshot.models, (model.fields.map Field.semanticName).Nodup)
    (h : compileLsm backend normalized snapshot capabilities options = .ok compiled) :
    ∃ model writable statement, snapshot.mutationModel normalized.mutation.model = some model ∧
      model.writable = some writable ∧
      Placed model writable normalized.mutation compiled statement ∧
      (statement.OneRole ↔ model.ColumnsApart normalized.mutation.inputNames) := by
  obtain ⟨model, writable, statement, hmodel, hwritable, hplaced⟩ := placed_of_compileLsm hnodup h
  obtain ⟨other, policy, hother, hpolicy, hconsistent, -, hpermits⟩ :=
    (permitted_of_compileLsm h).model
  obtain rfl : model = other := Option.some.inj (hmodel.symm.trans hother)
  obtain rfl : writable = policy := Option.some.inj (hwritable.symm.trans hpolicy)
  exact ⟨model, writable, statement, hmodel, hwritable, hplaced,
    oneRole_iff hconsistent hpermits hplaced⟩

theorem one_role_iff_columns_apart_lines : ∃ compiled model writable statement,
    compileLsm standardMutationBackend twoLinesMutation (linesSnapshot ["order_id", "line"])
        linesCapabilities {} = .ok compiled ∧
      Placed model writable twoLinesMutation.mutation compiled statement ∧ statement.OneRole := by
  obtain ⟨compiled, hcompiled⟩ := twoLines_compiles
  obtain ⟨model, writable, statement, hmodel, -, hplaced, hiff⟩ :=
    one_role_iff_columns_apart (by decide) hcompiled
  refine ⟨compiled, model, writable, statement, hcompiled, hplaced, hiff.mpr ?_⟩
  obtain rfl : linesModel ["order_id", "line"] = model := Option.some.inj hmodel
  rw [Model.ColumnsApart]
  decide

/-! An order line whose key is published twice, and may be overwritten under its second name. -/

def aliasModel : Model :=
  { semanticName := "lines"
    source := ⟨"sales", "lines"⟩
    fields :=
      [{ semanticName := "line", dataType := .integer, column := "line" },
       { semanticName := "order_id", dataType := .integer, column := "order_id" },
       { semanticName := "order_ref", dataType := .integer, column := "order_id" }]
    metrics := []
    writable := some
      { insert := true
        upsert := some { conflictFields := ["order_id", "line"] }
        maxRows := 10
        maxRequestBytes := 1000
        fields :=
          [{ field := "line", nullable := false }, { field := "order_id", nullable := false },
           { field := "order_ref", nullable := false, updatableOnConflict := true }]
        returning := ["line"] } }

def draftAlias : SemanticSnapshot :=
  { schemaVersion := "1", revisionHash := "", models := [aliasModel] }

def aliasSnapshot : SemanticSnapshot :=
  { draftAlias with revisionHash := (draftAlias.calculateRevisionHash standardHash).getD "" }

def aliasMutation : NormalizedLsm :=
  LogicalSemanticMutation.normalize standardHash 200
    { operation := .upsert, model := "lines", idempotencyKey := "k3"
      rows :=
        [{ entries := [("line", .integer 1), ("order_id", .integer 7), ("order_ref", .integer 8)]
           sorted := by decide }] } (by decide)

theorem aliasSnapshot_valid :
    validateMutationSnapshot standardMutationBackend.toHashBackend aliasSnapshot = .ok () := by
  refine validateMutationSnapshot_ok.mpr ⟨.inl rfl, ?_⟩
  have hdraft : aliasSnapshot.calculateRevisionHash standardMutationBackend.toHashBackend =
      draftAlias.calculateRevisionHash standardHash := rfl
  rw [hdraft, aliasSnapshot]
  simp [SemanticSnapshot.calculateRevisionHash, standardHash]

theorem alias_compiles : ∃ compiled, compileLsm standardMutationBackend aliasMutation aliasSnapshot
    linesCapabilities {} = .ok compiled := by
  have hcompiles : succeedsWith (compileLsm standardMutationBackend aliasMutation aliasSnapshot
      linesCapabilities {}) (fun _ => true) = true := by
    rw [compileLsm, aliasSnapshot_valid]
    decide +kernel
  obtain ⟨compiled, hcompiled, -⟩ := exists_ok_of_succeedsWith hcompiles
  exact ⟨compiled, hcompiled⟩

/-- Three names of their own, but the key is inserted twice and then assigned. -/
theorem alias_in_two_roles : ∃ compiled model writable statement action,
    compileLsm standardMutationBackend aliasMutation aliasSnapshot linesCapabilities {} =
        .ok compiled ∧
      (∀ model ∈ aliasSnapshot.models, (model.fields.map Field.semanticName).Nodup) ∧
      Placed model writable aliasMutation.mutation compiled statement ∧
      statement.columns = ["line", "order_id", "order_id"] ∧ statement.conflict = some action ∧
      action.columns = ["order_id", "line"] ∧ action.updates = ["order_id"] := by
  obtain ⟨compiled, hcompiled⟩ := alias_compiles
  obtain ⟨model, writable, statement, hmodel, hwritable, hplaced⟩ :=
    placed_of_compileLsm (by decide) hcompiled
  obtain rfl : aliasModel = model := Option.some.inj hmodel
  obtain ⟨upsert, action, hupsert, haction, hkeys, hupdates⟩ := hplaced.upsert rfl
  have hinjective := List.map_injective_iff.mpr (Option.some_injective String)
  obtain rfl := Option.some.inj hwritable
  obtain rfl := Option.some.inj hupsert
  exact ⟨compiled, aliasModel, _, statement, action, hcompiled, by decide, hplaced,
    hinjective hplaced.columns.map_eq.symm, haction, hinjective hkeys.map_eq.symm,
    hinjective hupdates.map_eq.symm⟩

end Postgresem
