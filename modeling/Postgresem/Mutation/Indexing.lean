import Postgresem.Mutation.Canonical

/-! The mutation compiler with its map indexing. `compile_lsm` writes `rows[0]`, `row[name]` and
`fields[name]`, and an index without an entry stops the program; here such an index is an outcome
of its own, which no input reaches. -/
namespace Postgresem
open Control

/-- How the compiler can stop short: with an error of its own, or in an index without an entry. -/
inductive Halt where
  | error (error : MutationCompileError)
  | missingKey
  deriving DecidableEq, Repr

/-- `entries[key]`. -/
def indexKey {α : Type} (entries : List (String × α)) (key : String) : Except Halt α :=
  orError (entries.lookup key) .missingKey

/-- `normalized.mutation.rows[0].keys()`. -/
def firstKeys (mutation : LogicalSemanticMutation) : Except Halt (List String) :=
  (orError mutation.rows.head? .missingKey).map MutationRow.keys

def checkValueIndexed (field : Field) (policy : WritableField) (name : String)
    (row : MutationRow) : Except Halt Unit := do
  let value ← indexKey row.entries name
  (validateValue field policy value).mapError .error

/-- One round of the loop over the fields of the mutation, with `row[name]` as an index. -/
def checkInputIndexed (mutation : LogicalSemanticMutation) (writable : WritableModel)
    (fields : List (String × Field)) (policies : List (String × WritableField)) (name : String) :
    Except Halt Unit := do
  let policy ← orError (policies.lookup name) (.error (.fieldNotWritable name))
  let field ← orError (fields.lookup name) (.error .invalidWritableModel)
  ensure field.relationship.isNone (.error .invalidWritableModel)
  forEach (checkValueIndexed field policy name) mutation.rows
  ensure (!(mutation.operation == .upsert && !policy.updatableOnConflict
      && !(writable.upsert.any fun upsert => decide (name ∈ upsert.conflictFields))))
    (.error (.fieldNotWritable name))

section Render
variable (fields : List (String × Field))

/-- `quote_identifier(&fields[name].column)`. -/
def columnIndexed (name : String) : Except Halt String :=
  (indexKey fields name).map fun field => quoteIdentifier field.column

/-- One value: the parameter goes to the end of the list, at its length plus one. -/
def pushValue (row : MutationRow) (name : String) (parameters : List MutationParameter) :
    Except Halt (String × List MutationParameter) := do
  let field ← indexKey fields name
  let value ← indexKey row.entries name
  let position := parameters.length + 1
  pure (mutationParameterSql position field.dataType,
    parameters ++ [{ position := position, dataType := field.dataType, value := value }])

def pushRow (inputNames : List String) (row : MutationRow) (parameters : List MutationParameter) :
    Except Halt (String × List MutationParameter) :=
  (mapAccumM (pushValue fields row) inputNames parameters).map fun pushed =>
    ("  (" ++ ", ".intercalate pushed.1 ++ ")", pushed.2)

/-- The `ON CONFLICT` clause of an upsert. -/
def conflictIndexed (mutation : LogicalSemanticMutation) (writable : WritableModel)
    (updateNames : List String) : Except Halt String :=
  match mutation.operation with
  | .insert => .ok ""
  | .upsert => do
    let upsert ← orError writable.upsert (.error .invalidWritableModel)
    let conflict ← upsert.conflictFields.mapM (columnIndexed fields)
    let updates ← updateNames.mapM (columnIndexed fields)
    pure ("\nON CONFLICT (" ++ ", ".intercalate conflict ++ ") DO UPDATE SET\n"
      ++ ",\n".intercalate (updates.map fun column =>
        "  " ++ column ++ " = EXCLUDED." ++ column))

def returningColumnIndexed (name : String) : Except Halt OutputColumn :=
  (indexKey fields name).map fun field => { name := name, dataType := field.dataType }

def returningItemIndexed (name : String) : Except Halt String :=
  (columnIndexed fields name).map fun column => "  " ++ column ++ " AS " ++ quoteIdentifier name

def sourceColumnIndexed (relation : Relation) (name : String) : Except Halt String :=
  (indexKey fields name).map fun field => sourceColumn relation field.column

def renderIndexed (backend : MutationBackend) (normalized : NormalizedLsm)
    (snapshot : SemanticSnapshot) (relation : Relation) (writable : WritableModel)
    (inputNames updateNames : List String) (profile : String) : Except Halt CompiledMutation := do
  let mutation := normalized.mutation
  let columns ← inputNames.mapM (columnIndexed fields)
  let (valueRows, parameters) ← mapAccumM (pushRow fields inputNames) mutation.rows []
  let conflict ← conflictIndexed fields mutation writable updateNames
  let returningSchema ← writable.returning.mapM (returningColumnIndexed fields)
  let returning ← writable.returning.mapM (returningItemIndexed fields)
  let statement := "INSERT INTO " ++ quoteIdentifier relation.schema ++ "."
    ++ quoteIdentifier relation.relation ++ " (" ++ ", ".intercalate columns ++ ")\nVALUES\n"
    ++ ",\n".intercalate valueRows ++ conflict ++ ("\nRETURNING\n" ++ ",\n".intercalate returning)
  let statementHash := backend.sha256 (bytesOf statement)
  let parameterHashInput ← orError (backend.parametersJson parameters) (.error .hashSerialization)
  let sourceColumns ← (inputNames ++ writable.returning).mapM (sourceColumnIndexed fields relation)
  pure
    { statement := statement
      parameters := parameters
      returningSchema := returningSchema
      lineage :=
        { model := mutation.model, fields := inputNames, returningFields := writable.returning
          sourceColumns := OrderedSet.insertAll sourceColumns [] }
      mutationHash := backend.sha256 (bytesOf (normalized.hash ++ "\n" ++ snapshot.revisionHash
        ++ "\n" ++ mutationCompilerSemanticVersion ++ "\n" ++ profile ++ "\n" ++ statementHash
        ++ "\n" ++ parameterHashInput))
      statementHash := statementHash
      expectedRows := mutation.rows.length
      operation := mutation.operation
      model := mutation.model }

end Render

/-- `compile_lsm` from the model on, with every index explicit. -/
def compileModelIndexed (backend : MutationBackend) (normalized : NormalizedLsm)
    (snapshot : SemanticSnapshot) (model : Model) (options : MutationCompilerOptions)
    (profile : String) : Except Halt CompiledMutation := do
  let mutation := normalized.mutation
  let writable ← orError model.writable (.error .modelNotWritable)
  (validateWritableModel model.fields writable).mapError Halt.error
  (checkModelLimits mutation normalized.inputBytes writable options).mapError Halt.error
  let fields := OrderedMap.collect Field.semanticName model.fields
  let inputNames ← firstKeys mutation
  forEach (checkInputIndexed mutation writable fields
    (OrderedMap.collect WritableField.field writable.fields)) inputNames
  let updateNames ← (updateNames mutation writable).mapError Halt.error
  forEach (fun field => (checkRequiredField inputNames field).mapError Halt.error) writable.fields
  renderIndexed fields backend normalized snapshot model.source writable inputNames updateNames
    profile

def compileLsmIndexed (backend : MutationBackend) (normalized : NormalizedLsm)
    (snapshot : SemanticSnapshot) (capabilities : MutationCapabilities)
    (options : MutationCompilerOptions) : Except Halt CompiledMutation := do
  (validateMutationSnapshot backend.toHashBackend snapshot).mapError Halt.error
  (checkMutationRequest normalized capabilities options).mapError Halt.error
  let model ← orError (snapshot.mutationModel normalized.mutation.model) (.error .modelNotWritable)
  compileModelIndexed backend normalized snapshot model options capabilities.profile

/-! ## Every index has an entry -/

theorem lookup_of_mem_keys {α : Type} {entries : List (String × α)} {key : String}
    (h : key ∈ entries.map Prod.fst) : ∃ value, entries.lookup key = some value := by
  induction entries with
  | nil => cases h
  | cons entry entries ih =>
    obtain ⟨name, value⟩ := entry
    rw [OrderedMap.lookup_cons]
    by_cases hkey : key = name
    · exact ⟨value, if_pos hkey⟩
    · rw [if_neg hkey]
      exact ih ((List.mem_cons.mp h).resolve_left hkey)

theorem indexKey_row {row : MutationRow} {name : String} (h : name ∈ row.keys) :
    indexKey row.entries name = .ok (row.value name) := by
  obtain ⟨value, hvalue⟩ := lookup_of_mem_keys h
  rw [indexKey, MutationRow.value, hvalue]
  rfl

theorem firstKeys_eq (normalized : NormalizedLsm) :
    firstKeys normalized.mutation = .ok normalized.mutation.inputNames := by
  have hvalid := normalized.valid
  simp only [validateMutation, bind_eq_ok, ensure_eq_ok, exists_const] at hvalid
  have hrows := hvalid.2.2.2.1
  unfold firstKeys LogicalSemanticMutation.inputNames
  cases hcases : normalized.mutation.rows with
  | nil => simp [hcases] at hrows
  | cons row rows => rfl

theorem checkInputIndexed_eq {mutation : LogicalSemanticMutation} {writable : WritableModel}
    {fields : List (String × Field)} {policies : List (String × WritableField)} {name : String}
    (hrows : ∀ row ∈ mutation.rows, name ∈ row.keys) :
    checkInputIndexed mutation writable fields policies name =
      (checkInputField mutation writable fields policies name).mapError .error := by
  have hvalues : ∀ field policy, forEach (checkValueIndexed field policy name) mutation.rows =
      forEach (fun row => (validateValue field policy (row.value name)).mapError Halt.error)
        mutation.rows := by
    intro field policy
    refine forEach_congr fun row hrow => ?_
    rw [checkValueIndexed, indexKey_row (hrows row hrow), ok_bind]
  simp only [checkInputIndexed, checkInputField, mapError_bind, mapError_orError, mapError_ensure,
    mapError_forEach, hvalues]

section Render
variable {fields : List (String × Field)} {names : List String}

/-- All the names are keys of the map of fields. -/
def Indexed (fields : List (String × Field)) (names : List String) : Prop :=
  ∀ name ∈ names, ∃ field, fields.lookup name = some field

theorem indexKey_field {name : String} (h : ∃ field, fields.lookup name = some field) :
    indexKey fields name = .ok (fieldOf fields name) := by
  obtain ⟨field, hfield⟩ := h
  rw [indexKey, fieldOf, hfield]
  rfl

theorem columns_indexed (h : Indexed fields names) : names.mapM (columnIndexed fields) =
    .ok (names.map fun name => quoteIdentifier (columnOf fields name)) := by
  refine mapM_of_ok fun name hname => ?_
  rw [columnIndexed, indexKey_field (h name hname)]
  rfl

theorem rowParameters_cons (name : String) (row : MutationRow) (position : Nat) :
    rowParameters fields (name :: names) row position =
      { position := position + 1, dataType := (fieldOf fields name).dataType
        value := row.value name } :: rowParameters fields names row (position + 1) := by
  simp only [rowParameters, List.zipIdx_cons, List.map_cons, Nat.add_zero, Nat.zero_add,
    List.zipIdx_succ, List.map_map]
  congr 2
  funext entry
  simp only [Function.comp_apply, MutationParameter.mk.injEq, and_self, and_true]
  omega

theorem pushValues_eq {row : MutationRow} (h : Indexed fields names)
    (hrow : ∀ name ∈ names, name ∈ row.keys) (parameters : List MutationParameter) :
    mapAccumM (pushValue fields row) names parameters =
      .ok ((rowParameters fields names row parameters.length).map (fun parameter =>
          mutationParameterSql parameter.position parameter.dataType),
        parameters ++ rowParameters fields names row parameters.length) := by
  induction names generalizing parameters with
  | nil => simp [mapAccumM, rowParameters]
  | cons name names ih =>
    have hvalue : pushValue fields row name parameters =
        .ok (mutationParameterSql (parameters.length + 1) (fieldOf fields name).dataType,
          parameters ++ [{ position := parameters.length + 1
                           dataType := (fieldOf fields name).dataType
                           value := row.value name }]) := by
      rw [pushValue, indexKey_field (h name (by simp)), ok_bind,
        indexKey_row (hrow name (by simp)), ok_bind]
      rfl
    have hrest := ih (fun other ho => h other (by simp [ho])) (fun other ho => hrow other (by simp [ho]))
      (parameters ++ [{ position := parameters.length + 1
                        dataType := (fieldOf fields name).dataType, value := row.value name }])
    simp only [List.length_append, List.length_singleton] at hrest
    rw [rowParameters_cons, List.append_cons]
    exact mapAccumM_cons_eq_ok.mpr ⟨_, _, _, hvalue, hrest, rfl⟩

theorem pushRows_eq {rows : List MutationRow} (h : Indexed fields names)
    (hrows : ∀ row ∈ rows, ∀ name ∈ names, name ∈ row.keys) (parameters : List MutationParameter) :
    mapAccumM (pushRow fields names) rows parameters =
      .ok (valueRows fields names rows parameters.length,
        parameters ++ parametersFrom fields names rows parameters.length) := by
  induction rows generalizing parameters with
  | nil => simp [mapAccumM, valueRows, parametersFrom]
  | cons row rows ih =>
    have hrow : pushRow fields names row parameters = .ok ("  (" ++ ", ".intercalate
        ((rowParameters fields names row parameters.length).map fun parameter =>
          mutationParameterSql parameter.position parameter.dataType) ++ ")",
        parameters ++ rowParameters fields names row parameters.length) := by
      rw [pushRow, pushValues_eq h (hrows row (by simp)), map_ok]
    have hlength : (rowParameters fields names row parameters.length).length = names.length := by
      simp [rowParameters]
    have hrest := ih (fun other ho => hrows other (by simp [ho]))
      (parameters ++ rowParameters fields names row parameters.length)
    rw [List.length_append, hlength] at hrest
    rw [parametersFrom, ← List.append_assoc]
    exact mapAccumM_cons_eq_ok.mpr ⟨_, _, _, hrow, hrest, rfl⟩

/-- The names that a conflict clause writes. -/
def conflictIndices (mutation : LogicalSemanticMutation) (writable : WritableModel)
    (updates : List String) : List String :=
  match mutation.operation, writable.upsert with
  | .upsert, some upsert => upsert.conflictFields ++ updates
  | _, _ => []

theorem conflictIndexed_eq {mutation : LogicalSemanticMutation} {writable : WritableModel}
    {updates : List String} (h : Indexed fields (conflictIndices mutation writable updates)) :
    conflictIndexed fields mutation writable updates =
      (conflictClause mutation writable fields updates).mapError .error := by
  unfold conflictIndexed conflictClause
  unfold conflictIndices at h
  cases hoperation : mutation.operation with
  | insert => rfl
  | upsert =>
    cases hupsert : writable.upsert with
    | none => rfl
    | some upsert =>
      rw [hoperation, hupsert] at h
      have hconflict : Indexed fields upsert.conflictFields := fun name hn => h name (by simp [hn])
      have hupdates : Indexed fields updates := fun name hn => h name (by simp [hn])
      simp only [orError_some, ok_bind, columns_indexed hconflict, columns_indexed hupdates, map_ok,
        mapError_ok, pure_ok, conflictText, List.map_map, Function.comp_def]

theorem renderIndexed_eq {backend : MutationBackend} {normalized : NormalizedLsm}
    {snapshot : SemanticSnapshot} {relation : Relation} {writable : WritableModel}
    {updates : List String} {profile : String}
    (hinput : Indexed fields normalized.mutation.inputNames)
    (hconflict : Indexed fields (conflictIndices normalized.mutation writable updates))
    (hreturning : Indexed fields writable.returning) :
    renderIndexed fields backend normalized snapshot relation writable
        normalized.mutation.inputNames updates profile =
      (renderMutation backend normalized snapshot relation writable fields updates profile).mapError
        .error := by
  have hrows : ∀ row ∈ normalized.mutation.rows, ∀ name ∈ normalized.mutation.inputNames,
      name ∈ row.keys := fun row hrow name hname => normalized.keys_eq hrow ▸ hname
  have hschema : writable.returning.mapM (returningColumnIndexed fields) =
      .ok (writable.returning.map fun name =>
        { name := name, dataType := (fieldOf fields name).dataType }) := by
    refine mapM_of_ok fun name hname => ?_
    rw [returningColumnIndexed, indexKey_field (hreturning name hname), map_ok]
  have hitems : writable.returning.mapM (returningItemIndexed fields) =
      .ok (writable.returning.map fun name =>
        "  " ++ quoteIdentifier (columnOf fields name) ++ " AS " ++ quoteIdentifier name) := by
    refine mapM_of_ok fun name hname => ?_
    rw [returningItemIndexed, columnIndexed, indexKey_field (hreturning name hname), map_ok, map_ok,
      columnOf]
  have hsources : (normalized.mutation.inputNames ++ writable.returning).mapM
      (sourceColumnIndexed fields relation) =
      .ok ((normalized.mutation.inputNames ++ writable.returning).map fun name =>
        sourceColumn relation (columnOf fields name)) := by
    refine mapM_of_ok fun name hname => ?_
    have hfound := (List.mem_append.mp hname).elim (hinput name) (hreturning name)
    rw [sourceColumnIndexed, indexKey_field hfound, map_ok, columnOf]
  have hpushed := pushRows_eq hinput hrows []
  rw [List.nil_append, List.length_nil] at hpushed
  simp only [renderIndexed, renderMutation, mapError_bind, mapError_orError, columns_indexed hinput,
    hpushed, conflictIndexed_eq hconflict, hschema, hitems, hsources, ok_bind]
  rfl

end Render

/-! ## The checks provide every index -/

/-- What the checks of a writable model establish about the names it publishes. -/
structure WritableChecked (fields : List (String × Field)) (writable : WritableModel) : Prop where
  policies_nodup : (writable.fields.map WritableField.field).Nodup
  policies : ∀ policy ∈ writable.fields, isDirectField fields policy.field = true
  returning_nodup : writable.returning.Nodup
  returning : ∀ name ∈ writable.returning, isDirectField fields name = true
  conflict : ∀ upsert, writable.upsert = some upsert →
    ∀ name ∈ upsert.conflictFields, isKeyPolicy writable.fields name = true

theorem writableChecked {modelFields : List Field} {writable : WritableModel}
    (h : validateWritableModel modelFields writable = .ok ()) :
    WritableChecked (OrderedMap.collect Field.semanticName modelFields) writable := by
  simp only [validateWritableModel, bind_eq_ok, exists_const, validateSeen_eq, ensure_eq_ok,
    decide_eq_true_iff, Bool.and_eq_true] at h
  obtain ⟨-, ⟨hfields, -, hpolicies⟩, ⟨hreturning, -, hdirect⟩, hupsert⟩ := h
  rw [List.map_id] at hreturning
  refine ⟨hfields, fun policy hp => (hpolicies policy hp).2, hreturning, hdirect, ?_⟩
  intro upsert hsome
  rw [hsome] at hupsert
  simp only [bind_eq_ok, exists_const, ensure_eq_ok, decide_eq_true_iff] at hupsert
  exact hupsert.2.2.2

theorem isDirectField_iff {fields : List (String × Field)} {name : String} :
    isDirectField fields name = true ↔
      ∃ field, fields.lookup name = some field ∧ field.relationship = none := by
  rw [isDirectField]
  cases fields.lookup name <;> simp

theorem lookup_of_isDirectField {fields : List (String × Field)} {name : String}
    (h : isDirectField fields name = true) : ∃ field, fields.lookup name = some field := by
  obtain ⟨field, hfield, -⟩ := isDirectField_iff.mp h
  exact ⟨field, hfield⟩

/-- A conflict field has a policy, so the model has a field of its name. -/
theorem WritableChecked.conflict_indexed {fields : List (String × Field)}
    {writable : WritableModel} (h : WritableChecked fields writable) {upsert : UpsertPolicy}
    (hupsert : writable.upsert = some upsert) : Indexed fields upsert.conflictFields := by
  intro name hname
  have hkey := h.conflict upsert hupsert name hname
  rw [isKeyPolicy, Option.any_eq_true] at hkey
  obtain ⟨policy, hpolicy, -⟩ := hkey
  have hfield := lookup_of_isDirectField (h.policies policy (List.mem_of_find?_eq_some hpolicy))
  have hpname := List.find?_some hpolicy
  rwa [beq_iff_eq.mp hpname] at hfield

theorem updateNames_subset {mutation : LogicalSemanticMutation} {writable : WritableModel}
    {updates : List String} (h : updateNames mutation writable = .ok updates) :
    ∀ name ∈ updates, name ∈ mutation.inputNames := by
  unfold updateNames at h
  split at h
  · simp only [bind_eq_ok, pure_eq_ok] at h
    obtain ⟨-, -, -, -, rfl⟩ := h
    intro name hname
    exact List.mem_of_mem_filter hname
  · obtain rfl := Except.ok.inj h
    simp

/-- A name that passed the loop over the fields of the mutation is a key of the map of fields. -/
theorem lookup_of_checkInputField {mutation : LogicalSemanticMutation} {writable : WritableModel}
    {fields : List (String × Field)} {policies : List (String × WritableField)} {name : String}
    (h : checkInputField mutation writable fields policies name = .ok ()) :
    ∃ field, fields.lookup name = some field := by
  simp only [checkInputField, bind_eq_ok, orError_eq_ok] at h
  obtain ⟨-, -, field, hfield, -⟩ := h
  exact ⟨field, hfield⟩

theorem finishIndexed_eq {backend : MutationBackend} {normalized : NormalizedLsm}
    {snapshot : SemanticSnapshot} {model : Model} {writable : WritableModel} {profile : String}
    (hchecked : WritableChecked (OrderedMap.collect Field.semanticName model.fields) writable)
    (hinput : Indexed (OrderedMap.collect Field.semanticName model.fields)
      normalized.mutation.inputNames) :
    ((updateNames normalized.mutation writable).mapError Halt.error >>= fun updates => do
      forEach (fun field =>
        (checkRequiredField normalized.mutation.inputNames field).mapError Halt.error)
        writable.fields
      renderIndexed (OrderedMap.collect Field.semanticName model.fields) backend normalized
        snapshot model.source writable normalized.mutation.inputNames updates profile) =
      (finishMutation backend normalized snapshot model writable profile).mapError Halt.error := by
  simp only [finishMutation, mapError_bind, mapError_forEach]
  cases hupdates : updateNames normalized.mutation writable with
  | error e => rfl
  | ok updates =>
    rw [mapError_ok, ok_bind, ok_bind, renderIndexed_eq hinput ?_
      fun name hname => lookup_of_isDirectField (hchecked.returning name hname)]
    intro name hname
    unfold conflictIndices at hname
    split at hname
    · rcases List.mem_append.mp hname with hname | hname
      · exact hchecked.conflict_indexed ‹_› name hname
      · exact hinput name (updateNames_subset hupdates name hname)
    · cases hname

theorem compileModelIndexed_eq (backend : MutationBackend) (normalized : NormalizedLsm)
    (snapshot : SemanticSnapshot) (model : Model) (options : MutationCompilerOptions)
    (profile : String) :
    compileModelIndexed backend normalized snapshot model options profile =
      (admitMutation normalized model options >>= fun writable =>
        finishMutation backend normalized snapshot model writable profile).mapError Halt.error := by
  simp only [compileModelIndexed, admitMutation, mapError_bind, mapError_orError, bind_assoc,
    mapError_forEach]
  cases model.writable with
  | none => rfl
  | some writable =>
    simp only [orError_some, ok_bind]
    cases hchecked : validateWritableModel model.fields writable with
    | error e => rfl
    | ok u =>
      simp only [mapError_ok, ok_bind, firstKeys_eq]
      refine bind_congr fun _ => ?_
      rw [forEach_congr fun name hname => checkInputIndexed_eq fun row hrow =>
        normalized.keys_eq hrow ▸ hname, ← mapError_forEach]
      cases hinput : forEach (checkInputField normalized.mutation writable
          (OrderedMap.collect Field.semanticName model.fields)
          (OrderedMap.collect WritableField.field writable.fields))
          normalized.mutation.inputNames with
      | error e => rfl
      | ok u =>
        simp only [mapError_ok, ok_bind, pure_ok]
        exact finishIndexed_eq (writableChecked hchecked) fun name hname =>
          lookup_of_checkInputField (forEach_eq_ok.mp hinput name hname)

/-- The compiler stops with its own errors only: no input takes an index without an entry. -/
theorem compileLsmIndexed_eq (backend : MutationBackend) (normalized : NormalizedLsm)
    (snapshot : SemanticSnapshot) (capabilities : MutationCapabilities)
    (options : MutationCompilerOptions) :
    compileLsmIndexed backend normalized snapshot capabilities options =
      (compileLsm backend normalized snapshot capabilities options).mapError Halt.error := by
  simp only [compileLsmIndexed, compileLsm, mapError_bind, mapError_orError,
    compileModelIndexed_eq]

end Postgresem
