import Postgresem.Mutation.Cells
import Postgresem.Semantic.HashText

/-! What a published model permits, stated without the order of the compiler's checks, and the proof
that the compiler accepts exactly the mutations that are permitted. -/
namespace Postgresem
open Control

/-- A value that is written as the type asks; both kinds of timestamp are written alike. -/
inductive HasType : DataType → MutationValue → Prop
  | boolean (value : Bool) : HasType .boolean (.boolean value)
  | integer (value : Int) : HasType .integer (.integer value)
  | numeric (value : String) : HasType .numeric (.numeric value)
  | text (value : String) : HasType .text (.text value)
  | date (value : String) : HasType .date (.date value)
  | timestamp (value : String) : HasType .timestamp (.timestamp value)
  | timestampTz (value : String) : HasType .timestampTz (.timestamp value)

/-- The field of a name; the last one, where a snapshot repeats the name. -/
def publishedField (fields : List Field) (name : String) : Option Field :=
  (fields.filter fun field => field.semanticName = name).getLast?

/-- The name of a column of the model's own relation. -/
def OwnField (fields : List Field) (name : String) : Prop :=
  ∃ field, publishedField fields name = some field ∧ field.relationship = none

namespace WritableModel

def Updatable (writable : WritableModel) (name : String) : Prop :=
  ∃ policy ∈ writable.fields, policy.field = name ∧ policy.updatableOnConflict = true

structure Consistent (fields : List Field) (writable : WritableModel) : Prop where
  enabled : writable.insert = true ∨ writable.upsert.isSome = true
  policies : writable.fields ≠ []
  policiesDistinct : (writable.fields.map WritableField.field).Nodup
  policiesNamed : ∀ policy ∈ writable.fields, isBlank policy.field = false
  policiesOwn : ∀ policy ∈ writable.fields, OwnField fields policy.field
  returns : writable.returning ≠ []
  returnsDistinct : writable.returning.Nodup
  returnsOwn : ∀ name ∈ writable.returning, OwnField fields name
  conflict : ∀ upsert ∈ writable.upsert, upsert.conflictFields ≠ [] ∧ upsert.conflictFields.Nodup
  conflictKeys : ∀ upsert ∈ writable.upsert, ∀ name ∈ upsert.conflictFields,
    ∃ policy ∈ writable.fields, policy.field = name ∧ policy.updatableOnConflict = false

structure Within (options : MutationCompilerOptions) (writable : WritableModel) : Prop where
  rows : 0 < writable.maxRows ∧ writable.maxRows ≤ options.hardRowLimit
  bytes : 0 < writable.maxRequestBytes ∧ writable.maxRequestBytes ≤ options.hardRequestByteLimit

/-- An upsert names its conflict key, and overwrites some fields, all of them updatable. -/
structure PermitsUpsert (writable : WritableModel) (inputNames : List String)
    (upsert : UpsertPolicy) : Prop where
  conflict : ∀ name ∈ upsert.conflictFields, name ∈ inputNames
  others : ∀ name ∈ inputNames, name ∉ upsert.conflictFields → writable.Updatable name
  updates : ∃ name ∈ inputNames, writable.Updatable name

structure Permits (fields : List Field) (writable : WritableModel)
    (mutation : LogicalSemanticMutation) (inputBytes : Nat) : Prop where
  rows : mutation.rows.length ≤ writable.maxRows
  bytes : inputBytes ≤ writable.maxRequestBytes
  insert : mutation.operation = .insert → writable.insert = true
  upsert : mutation.operation = .upsert → ∃ upsert, writable.upsert = some upsert ∧
    writable.PermitsUpsert mutation.inputNames upsert
  declared : ∀ name ∈ mutation.inputNames, ∃ policy ∈ writable.fields, policy.field = name
  values : ∀ row ∈ mutation.rows, ∀ entry ∈ row.entries, ∀ policy ∈ writable.fields,
    policy.field = entry.1 → ∀ field, publishedField fields entry.1 = some field →
      if entry.2 = .null then policy.nullable = true else HasType field.dataType entry.2
  required : ∀ policy ∈ writable.fields, policy.requiredOnInsert = true →
    policy.field ∈ mutation.inputNames

end WritableModel

/-- The published policy, from the snapshot down to the values. -/
structure Permitted (backend : HashBackend) (normalized : NormalizedLsm)
    (snapshot : SemanticSnapshot) (capabilities : MutationCapabilities)
    (options : MutationCompilerOptions) : Prop where
  version : snapshot.schemaVersion = "1" ∨ snapshot.schemaVersion = "2"
  hash : snapshot.calculateRevisionHash backend = some snapshot.revisionHash
  profile : isBlank capabilities.profile = false
  allowed : normalized.mutation.model ∈ capabilities.writableModels
  model : ∃ model writable, snapshot.mutationModel normalized.mutation.model = some model ∧
    model.writable = some writable ∧ writable.Consistent model.fields ∧ writable.Within options ∧
      writable.Permits model.fields normalized.mutation normalized.inputBytes

/-! ## What each check decides -/

theorem hasType_iff {dataType : DataType} {value : MutationValue} :
    isCompatibleValue dataType value = true ↔ HasType dataType value := by
  constructor
  · intro h
    unfold isCompatibleValue at h
    split at h
    all_goals first | constructor | cases h
  · intro h
    cases h <;> rfl

theorem checkMutationRequest_ok {normalized : NormalizedLsm} {capabilities : MutationCapabilities}
    {options : MutationCompilerOptions} {u : Unit} :
    checkMutationRequest normalized capabilities options = .ok u ↔
      (0 < options.hardRowLimit ∧ 0 < options.hardRequestByteLimit) ∧
        isBlank capabilities.profile = false ∧
          normalized.mutation.model ∈ capabilities.writableModels := by
  simp [checkMutationRequest, bind_eq_ok, ensure_eq_ok, MutationCapabilities.allows,
    Nat.pos_iff_ne_zero]

theorem isDirectField_collect {fields : List Field} {name : String} :
    isDirectField (OrderedMap.collect Field.semanticName fields) name = true ↔
      OwnField fields name := by
  rw [isDirectField_iff, OrderedMap.lookup_collect]
  rfl

theorem lookup_policies {policies : List WritableField}
    (hnodup : (policies.map WritableField.field).Nodup) {name : String} {policy : WritableField} :
    (OrderedMap.collect WritableField.field policies).lookup name = some policy ↔
      policy ∈ policies ∧ policy.field = name := by
  rw [OrderedMap.lookup_collect_of_nodup hnodup, OrderedMap.named_eq_some_iff hnodup]

theorem isKeyPolicy_iff {policies : List WritableField}
    (hnodup : (policies.map WritableField.field).Nodup) {name : String} :
    isKeyPolicy policies name = true ↔
      ∃ policy ∈ policies, policy.field = name ∧ policy.updatableOnConflict = false := by
  rw [isKeyPolicy, Option.any_eq_true]
  simp only [Named.find?_eq_some_iff hnodup, Bool.not_eq_true', and_assoc]

theorem validateWritableModel_ok {fields : List Field} {writable : WritableModel} {u : Unit} :
    validateWritableModel fields writable = .ok u ↔ writable.Consistent fields := by
  simp only [validateWritableModel, bind_eq_ok, exists_const, validateSeen_eq, ensure_eq_ok,
    decide_eq_true_iff, Bool.and_eq_true, Bool.not_eq_true', isDirectField_collect, List.map_id]
  constructor
  · rintro ⟨hshape, ⟨hpolicies, -, haccepts⟩, ⟨hreturns, -, hown⟩, hupsert⟩
    simp only [Bool.or_eq_false_iff, List.isEmpty_eq_false_iff, Bool.and_eq_false_iff,
      Bool.not_eq_false', Option.isNone_eq_false_iff] at hshape
    have hconflict : ∀ upsert ∈ writable.upsert, upsert.conflictFields ≠ [] ∧
        upsert.conflictFields.Nodup ∧
        ∀ name ∈ upsert.conflictFields, isKeyPolicy writable.fields name = true := by
      intro upsert hsome
      rw [hsome] at hupsert
      simp only [bind_eq_ok, exists_const, ensure_eq_ok, decide_eq_true_iff, Bool.not_eq_true',
        List.isEmpty_eq_false_iff] at hupsert
      exact ⟨hupsert.1, hupsert.2.1, hupsert.2.2.2⟩
    exact
      { enabled := hshape.1.1
        policies := hshape.1.2
        policiesDistinct := hpolicies
        policiesNamed := fun policy hp => (haccepts policy hp).1
        policiesOwn := fun policy hp => (haccepts policy hp).2
        returns := hshape.2
        returnsDistinct := hreturns
        returnsOwn := hown
        conflict := fun upsert hsome => ⟨(hconflict upsert hsome).1, (hconflict upsert hsome).2.1⟩
        conflictKeys := fun upsert hsome name hname =>
          (isKeyPolicy_iff hpolicies).mp ((hconflict upsert hsome).2.2 name hname) }
  · intro h
    refine ⟨?_, ⟨h.policiesDistinct, fun _ _ => List.not_mem_nil,
      fun policy hp => ⟨h.policiesNamed policy hp, h.policiesOwn policy hp⟩⟩,
      ⟨h.returnsDistinct, fun _ _ => List.not_mem_nil, h.returnsOwn⟩, ?_⟩
    · simp only [Bool.or_eq_false_iff, List.isEmpty_eq_false_iff, Bool.and_eq_false_iff,
        Bool.not_eq_false', Option.isNone_eq_false_iff]
      exact ⟨⟨h.enabled, h.policies⟩, h.returns⟩
    · cases hupsert : writable.upsert with
      | none => rfl
      | some upsert =>
        obtain ⟨hne, hnodup⟩ := h.conflict upsert hupsert
        simp only [bind_eq_ok, exists_const, ensure_eq_ok, decide_eq_true_iff, Bool.not_eq_true',
          List.isEmpty_eq_false_iff]
        exact ⟨hne, hnodup, fun _ _ => List.not_mem_nil, fun name hname =>
          (isKeyPolicy_iff h.policiesDistinct).mpr (h.conflictKeys upsert hupsert name hname)⟩

theorem checkModelLimits_ok {mutation : LogicalSemanticMutation} {inputBytes : Nat}
    {writable : WritableModel} {options : MutationCompilerOptions} :
    checkModelLimits mutation inputBytes writable options = .ok () ↔
      writable.Within options ∧ mutation.rows.length ≤ writable.maxRows ∧
        inputBytes ≤ writable.maxRequestBytes ∧
        (mutation.operation = .insert → writable.insert = true) ∧
        (mutation.operation = .upsert → writable.upsert.isSome = true) := by
  simp only [checkModelLimits, bind_eq_ok, exists_const, ensure_eq_ok, decide_eq_true_iff,
    Bool.not_eq_true', Bool.or_eq_false_iff, decide_eq_false_iff_not, beq_eq_false_iff_ne,
    Nat.not_lt]
  constructor
  · rintro ⟨⟨⟨⟨hrows, hhardRows⟩, hbytes⟩, hhardBytes⟩, hlength, hsize, hoperation⟩
    refine ⟨⟨⟨Nat.pos_of_ne_zero hrows, hhardRows⟩, ⟨Nat.pos_of_ne_zero hbytes, hhardBytes⟩⟩,
      hlength, hsize, ?_, ?_⟩
    · intro hinsert
      simpa only [hinsert, ensure_eq_ok] using hoperation
    · intro hupsert
      simpa only [hupsert, ensure_eq_ok] using hoperation
  · rintro ⟨hwithin, hlength, hsize, hinsert, hupsert⟩
    refine ⟨⟨⟨⟨hwithin.rows.1.ne', hwithin.rows.2⟩, hwithin.bytes.1.ne'⟩, hwithin.bytes.2⟩,
      hlength, hsize, ?_⟩
    cases hoperation : mutation.operation with
    | insert => exact ensure_eq_ok.mpr (hinsert hoperation)
    | upsert => exact ensure_eq_ok.mpr (hupsert hoperation)

theorem validateValue_ok {field : Field} {policy : WritableField} {value : MutationValue} :
    validateValue field policy value = .ok () ↔
      if value = .null then policy.nullable = true else HasType field.dataType value := by
  rw [validateValue]
  split_ifs
  · exact ensure_eq_ok
  · exact ensure_eq_ok.trans hasType_iff

section Fields
variable {mutation : LogicalSemanticMutation} {writable : WritableModel} {fields : List Field}
  (h : writable.Consistent fields)
include h

theorem checkInputField_ok {name : String} :
    checkInputField mutation writable (OrderedMap.collect Field.semanticName fields)
        (OrderedMap.collect WritableField.field writable.fields) name = .ok () ↔
      ∃ policy ∈ writable.fields, policy.field = name ∧
        (∀ row ∈ mutation.rows, ∀ field, publishedField fields name = some field →
          if row.value name = .null then policy.nullable = true
          else HasType field.dataType (row.value name)) ∧
        (mutation.operation = .upsert → policy.updatableOnConflict = true ∨
          ∃ upsert ∈ writable.upsert, name ∈ upsert.conflictFields) := by
  have hlast : (OrderedMap.collect Field.semanticName fields).lookup name =
      publishedField fields name := OrderedMap.lookup_collect _ _ _
  simp only [checkInputField, bind_eq_ok, orError_eq_ok, exists_const, ensure_eq_ok, hlast,
    lookup_policies h.policiesDistinct, forEach_eq_ok, validateValue_ok]
  have hoverwrites : ∀ policy : WritableField,
      (!(mutation.operation == .upsert && !policy.updatableOnConflict &&
        !(writable.upsert.any fun upsert => decide (name ∈ upsert.conflictFields)))) = true ↔
      (mutation.operation = .upsert → policy.updatableOnConflict = true ∨
        ∃ upsert ∈ writable.upsert, name ∈ upsert.conflictFields) := by
    intro policy
    cases mutation.operation <;> cases policy.updatableOnConflict <;>
      simp [Option.any_eq_true]
  constructor
  · rintro ⟨policy, ⟨hpolicy, hname⟩, field, hfield, -, hvalues, hupsert⟩
    refine ⟨policy, hpolicy, hname, fun row hrow other hother => ?_, (hoverwrites policy).mp hupsert⟩
    have hsame : field = other := Option.some.inj (hfield.symm.trans hother)
    exact hsame ▸ hvalues row hrow
  · rintro ⟨policy, hpolicy, hname, hvalues, hupsert⟩
    obtain ⟨field, hfield, hdirect⟩ := h.policiesOwn policy hpolicy
    rw [hname] at hfield
    exact ⟨policy, ⟨hpolicy, hname⟩, field, hfield, by rw [hdirect]; rfl,
      fun row hrow => hvalues row hrow field hfield, (hoverwrites policy).mpr hupsert⟩

theorem mem_updatableNames {inputNames : List String} {name : String} :
    name ∈ updatableNames writable inputNames ↔ name ∈ inputNames ∧ writable.Updatable name := by
  rw [updatableNames, List.mem_filter, Option.any_eq_true]
  simp only [lookup_policies h.policiesDistinct, WritableModel.Updatable, and_assoc]

theorem updateNames_ok : (∃ updates, updateNames mutation writable = .ok updates) ↔
    ∀ upsert ∈ writable.upsert, mutation.operation = .upsert →
      (∀ name ∈ upsert.conflictFields, name ∈ mutation.inputNames) ∧
        ∃ name ∈ mutation.inputNames, writable.Updatable name := by
  have hsome : (!(updatableNames writable mutation.inputNames).isEmpty) = true ↔
      ∃ name ∈ mutation.inputNames, writable.Updatable name := by
    rw [Bool.not_eq_true', List.isEmpty_eq_false_iff_exists_mem]
    simp only [mem_updatableNames h]
  rw [updateNames]
  cases hupsert : writable.upsert with
  | none => simp
  | some upsert =>
    cases hoperation : mutation.operation with
    | insert => simp
    | upsert =>
      simp only [bind_eq_ok, exists_const, forEach_eq_ok, checkConflictField, ensure_eq_ok,
        decide_eq_true_iff, hsome, pure_eq_ok, Option.mem_some_iff, forall_eq', forall_const]
      constructor
      · rintro ⟨updates, hconflict, hupdates, -⟩
        exact ⟨hconflict, hupdates⟩
      · rintro ⟨hconflict, hupdates⟩
        exact ⟨_, hconflict, hupdates, rfl⟩

end Fields

theorem checkRequiredFields_ok {writable : WritableModel} {inputNames : List String} :
    forEach (checkRequiredField inputNames) writable.fields = .ok () ↔
      ∀ policy ∈ writable.fields, policy.requiredOnInsert = true → policy.field ∈ inputNames := by
  simp only [forEach_eq_ok, checkRequiredField, ensure_eq_ok, Bool.or_eq_true, Bool.not_eq_true',
    decide_eq_true_iff, ← Bool.not_eq_true, imp_iff_not_or]

/-- The renderer itself rejects nothing. -/
theorem renderMutation_ok {backend : MutationBackend}
    (hserializer : ∀ parameters, ∃ text, backend.parametersJson parameters = some text)
    {normalized : NormalizedLsm} {writable : WritableModel}
    (hupsert : normalized.mutation.operation = .upsert → writable.upsert.isSome = true)
    (snapshot : SemanticSnapshot) (relation : Relation) (fields : List (String × Field))
    (updates : List String) (profile : String) :
    ∃ compiled, renderMutation backend normalized snapshot relation writable fields updates profile =
      .ok compiled := by
  obtain ⟨text, htext⟩ := hserializer
    (parametersFrom fields normalized.mutation.inputNames normalized.mutation.rows 0)
  have hconflict : ∃ conflict, conflictClause normalized.mutation writable fields updates =
      .ok conflict := by
    rw [conflictClause]
    cases hoperation : normalized.mutation.operation with
    | insert => exact ⟨"", rfl⟩
    | upsert =>
      obtain ⟨upsert, hsome⟩ := Option.isSome_iff_exists.mp (hupsert hoperation)
      rw [hsome]
      exact ⟨_, rfl⟩
  obtain ⟨conflict, hconflict⟩ := hconflict
  rw [renderMutation, hconflict, ok_bind, htext]
  exact ⟨_, rfl⟩

/-! ## The whole policy -/

/-- A row of a valid mutation has an entry for each input name. -/
theorem NormalizedLsm.entry_mem (normalized : NormalizedLsm) {row : MutationRow}
    (hrow : row ∈ normalized.mutation.rows) {name : String}
    (hname : name ∈ normalized.mutation.inputNames) : (name, row.value name) ∈ row.entries := by
  rw [← normalized.keys_eq hrow] at hname
  exact row.sorted.mem_iff.mpr (lookup_of_keys hname)

theorem MutationRow.value_of_mem {row : MutationRow} {entry : String × MutationValue}
    (h : entry ∈ row.entries) : entry.1 ∈ row.keys ∧ row.value entry.1 = entry.2 := by
  refine ⟨List.mem_map_of_mem h, ?_⟩
  rw [MutationRow.value, row.sorted.mem_iff.mp h]
  rfl

section Permits
variable {normalized : NormalizedLsm} {options : MutationCompilerOptions} {fields : List Field}
  {writable : WritableModel} (h : writable.Consistent fields)
include h

theorem checkInputField_of_permits
    (hpermits : writable.Permits fields normalized.mutation normalized.inputBytes) {name : String}
    (hname : name ∈ normalized.mutation.inputNames) :
    checkInputField normalized.mutation writable (OrderedMap.collect Field.semanticName fields)
      (OrderedMap.collect WritableField.field writable.fields) name = .ok () := by
  obtain ⟨policy, hpolicy, hfield⟩ := hpermits.declared name hname
  refine (checkInputField_ok h).mpr ⟨policy, hpolicy, hfield, ?_, ?_⟩
  · intro row hrow field hpublished
    exact hpermits.values row hrow _ (normalized.entry_mem hrow hname) policy hpolicy hfield field
      hpublished
  · intro hoperation
    obtain ⟨upsert, hsome, hupsert⟩ := hpermits.upsert hoperation
    by_cases hconflict : name ∈ upsert.conflictFields
    · exact .inr ⟨upsert, hsome, hconflict⟩
    · obtain ⟨other, hother, hsame, hupdatable⟩ := hupsert.others name hname hconflict
      have heq : other = policy :=
        List.inj_on_of_nodup_map h.policiesDistinct hother hpolicy (hsame.trans hfield.symm)
      exact .inl (heq ▸ hupdatable)

theorem permits_of_checks
    (hlimits : checkModelLimits normalized.mutation normalized.inputBytes writable options = .ok ())
    (hinput : ∀ name ∈ normalized.mutation.inputNames, checkInputField normalized.mutation writable
      (OrderedMap.collect Field.semanticName fields)
      (OrderedMap.collect WritableField.field writable.fields) name = .ok ())
    (hupdates : ∃ updates, updateNames normalized.mutation writable = .ok updates)
    (hrequired : forEach (checkRequiredField normalized.mutation.inputNames) writable.fields =
      .ok ()) :
    writable.Permits fields normalized.mutation normalized.inputBytes := by
  obtain ⟨-, hrows, hbytes, hinsert, hupsert⟩ := checkModelLimits_ok.mp hlimits
  simp only [checkInputField_ok h] at hinput
  refine ⟨hrows, hbytes, hinsert, ?_, ?_, ?_, checkRequiredFields_ok.mp hrequired⟩
  · intro hoperation
    obtain ⟨upsert, hsome⟩ := Option.isSome_iff_exists.mp (hupsert hoperation)
    obtain ⟨hconflict, hsets⟩ := (updateNames_ok h).mp hupdates upsert hsome hoperation
    refine ⟨upsert, hsome, hconflict, fun name hname hother => ?_, hsets⟩
    obtain ⟨policy, hpolicy, hfield, -, hoverwrites⟩ := hinput name hname
    rcases hoverwrites hoperation with hupdatable | ⟨others, hothers, hmem⟩
    · exact ⟨policy, hpolicy, hfield, hupdatable⟩
    · have hsame : upsert = others := Option.some.inj (hsome.symm.trans hothers)
      exact absurd (hsame ▸ hmem) hother
  · intro name hname
    obtain ⟨policy, hpolicy, hfield, -⟩ := hinput name hname
    exact ⟨policy, hpolicy, hfield⟩
  · intro row hrow entry hentry policy hpolicy hfield field hpublished
    obtain ⟨hkey, hvalue⟩ := MutationRow.value_of_mem hentry
    rw [normalized.keys_eq hrow] at hkey
    obtain ⟨other, hother, hsame, hvalues, -⟩ := hinput entry.1 hkey
    have heq : other = policy :=
      List.inj_on_of_nodup_map h.policiesDistinct hother hpolicy (hsame.trans hfield.symm)
    have htyped := hvalues row hrow field hpublished
    rw [hvalue, heq] at htyped
    exact htyped

end Permits

section Compile
variable {backend : MutationBackend} {normalized : NormalizedLsm} {snapshot : SemanticSnapshot}
  {capabilities : MutationCapabilities} {options : MutationCompilerOptions}

theorem permitted_of_compileLsm {compiled : CompiledMutation}
    (h : compileLsm backend normalized snapshot capabilities options = .ok compiled) :
    Permitted backend.toHashBackend normalized snapshot capabilities options := by
  simp only [compileLsm, bind_eq_ok, exists_const, validateMutationSnapshot_ok,
    checkMutationRequest_ok, orError_eq_ok, admitMutation, finishMutation,
    validateWritableModel_ok, pure_eq_ok] at h
  obtain ⟨⟨hversion, hhash⟩, ⟨-, hprofile, hallowed⟩, model, hmodel, writable,
    ⟨_, hwritable, hconsistent, _, hlimits, _, hinput, rfl⟩, updates, hupdates, _, hrequired, -⟩ := h
  have hwithin := (checkModelLimits_ok.mp hlimits).1
  have hpermits := permits_of_checks hconsistent hlimits (forEach_eq_ok.mp hinput)
    ⟨updates, hupdates⟩ hrequired
  exact ⟨hversion, hhash, hprofile, hallowed, model, _, hmodel, hwritable, hconsistent, hwithin,
    hpermits⟩

theorem compileLsm_of_permitted
    (hserializer : ∀ parameters, ∃ text, backend.parametersJson parameters = some text)
    (hrows : 0 < options.hardRowLimit) (hbytes : 0 < options.hardRequestByteLimit)
    (h : Permitted backend.toHashBackend normalized snapshot capabilities options) :
    ∃ compiled, compileLsm backend normalized snapshot capabilities options = .ok compiled := by
  obtain ⟨model, writable, hmodel, hwritable, hconsistent, hwithin, hpermits⟩ := h.model
  have hupsert : normalized.mutation.operation = .upsert → writable.upsert.isSome = true := by
    intro hoperation
    obtain ⟨upsert, hsome, -⟩ := hpermits.upsert hoperation
    rw [hsome]
    rfl
  have hlimits := checkModelLimits_ok.mpr
    ⟨hwithin, hpermits.rows, hpermits.bytes, hpermits.insert, hupsert⟩
  have hadmit : admitMutation normalized model options = .ok writable := by
    simp only [admitMutation, bind_eq_ok, exists_const, orError_eq_ok, validateWritableModel_ok,
      forEach_eq_ok, pure_eq_ok]
    exact ⟨writable, hwritable, hconsistent, (), hlimits,
      fun name hname => checkInputField_of_permits hconsistent hpermits hname, rfl⟩
  obtain ⟨updates, hupdates⟩ : ∃ updates, updateNames normalized.mutation writable = .ok updates := by
    refine (updateNames_ok hconsistent).mpr fun upsert hsome hoperation => ?_
    obtain ⟨other, hother, hnames⟩ := hpermits.upsert hoperation
    obtain rfl : upsert = other := Option.some.inj (hsome.symm.trans hother)
    exact ⟨hnames.conflict, hnames.updates⟩
  have hrequired := checkRequiredFields_ok.mpr hpermits.required
  obtain ⟨compiled, hcompiled⟩ := renderMutation_ok hserializer hupsert snapshot model.source
    (OrderedMap.collect Field.semanticName model.fields) updates capabilities.profile
  have hsnapshot : validateMutationSnapshot backend.toHashBackend snapshot = .ok () :=
    validateMutationSnapshot_ok.mpr ⟨h.version, h.hash⟩
  have hrequest : checkMutationRequest normalized capabilities options = .ok () :=
    checkMutationRequest_ok.mpr ⟨⟨hrows, hbytes⟩, h.profile, h.allowed⟩
  refine ⟨compiled, ?_⟩
  rw [compileLsm, hsnapshot, ok_bind, hrequest, ok_bind, hmodel, orError_some, ok_bind, hadmit,
    ok_bind, finishMutation, hupdates, ok_bind, hrequired, ok_bind, hcompiled]

end Compile

/-- A mutation compiles exactly when the published policy permits it, whatever the order in which
the compiler asks. The renderer needs a serializer that does not fail. -/
theorem compileLsm_ok_iff_permitted (backend : MutationBackend)
    (hserializer : ∀ parameters, ∃ text, backend.parametersJson parameters = some text)
    (normalized : NormalizedLsm) (snapshot : SemanticSnapshot) (capabilities : MutationCapabilities)
    (options : MutationCompilerOptions) (hrows : 0 < options.hardRowLimit)
    (hbytes : 0 < options.hardRequestByteLimit) :
    (∃ compiled, compileLsm backend normalized snapshot capabilities options = .ok compiled) ↔
      Permitted backend.toHashBackend normalized snapshot capabilities options := by
  constructor
  · rintro ⟨compiled, h⟩
    exact permitted_of_compileLsm h
  · exact compileLsm_of_permitted hserializer hrows hbytes

theorem two_lines_permitted :
    Permitted standardHash twoLinesMutation (linesSnapshot ["order_id", "line"]) linesCapabilities
      {} :=
  (compileLsm_ok_iff_permitted standardMutationBackend (fun _ => ⟨_, rfl⟩) twoLinesMutation
    (linesSnapshot ["order_id", "line"]) linesCapabilities {} (by decide) (by decide)).mp
    twoLines_compiles

end Postgresem
