import Postgresem.Foundation.Coupling
import Postgresem.Foundation.Lexing
import Postgresem.Semantic.Canonical
import Postgresem.Mutation.Compile
import Postgresem.Semantic.Evaluation

/-! Mutations on snapshots of one normal form. Lookups by name do not see the order of the lists;
the conflict fields and the required fields are walked in the order in which they are given, and
that order shows in the statement and in the errors. -/
namespace Postgresem
open Control Named

/-! ## Stable sorting -/

theorem filter_orderedInsert {α : Type} {keys : α → List String} {key : List String} (item : α)
    (items : List α) :
    (items.orderedInsert (fun left right => keys left ≤ keys right) item).filter
        (fun other => keys other = key) =
      (item :: items).filter fun other => keys other = key := by
  induction items with
  | nil => rfl
  | cons first rest ih =>
    by_cases hle : keys item ≤ keys first
    · rw [List.orderedInsert, if_pos hle]
    · rw [List.orderedInsert, if_neg hle, List.filter_cons, ih]
      -- What stands before the new item has a smaller key, so not the same one.
      have hne : keys item = key → keys first ≠ key := by
        rintro rfl heq
        exact hle (le_of_eq heq.symm)
      by_cases hitem : keys item = key
      · simp [hitem, hne hitem]
      · simp [hitem, List.filter_cons]

/-- Sorting keeps the order of items with the same keys. -/
theorem filter_sortByKeys {α : Type} (keys : α → List String) (key : List String)
    (items : List α) :
    (sortByKeys keys items).filter (fun item => keys item = key) =
      items.filter fun item => keys item = key := by
  induction items with
  | nil => rfl
  | cons item items ih =>
    rw [sortByKeys, List.insertionSort_cons, ← sortByKeys, filter_orderedInsert, List.filter_cons,
      List.filter_cons, ih]

/-- Lists with one sorted form are collected into one map. -/
theorem collect_eq_of_sortByKeys_eq {α : Type} {name : α → String} {xs ys : List α}
    (h : sortByKeys (fun item => [name item]) xs = sortByKeys (fun item => [name item]) ys) :
    OrderedMap.collect name xs = OrderedMap.collect name ys := by
  refine OrderedMap.collect_eq_of_filter_eq fun key => ?_
  have hx := filter_sortByKeys (fun item => [name item]) [key] xs
  have hy := filter_sortByKeys (fun item => [name item]) [key] ys
  rw [h] at hx
  simpa using hx.symm.trans hy

/-! ## Checks that do not see the order -/

theorem validateSeen_eq {α : Type} (name : α → String) (accepts : α → Bool) (seen : List String)
    (items : List α) :
    validateSeen name accepts seen items =
      ensure (decide ((items.map name).Nodup ∧ (∀ item ∈ items, name item ∉ seen) ∧
        ∀ item ∈ items, accepts item = true)) .invalidWritableModel := by
  induction items generalizing seen with
  | nil => simp [validateSeen]
  | cons item items ih =>
    rw [validateSeen, ih]
    by_cases hseen : name item ∈ seen
    · simp [hseen]
    · cases haccepts : accepts item with
      | false => simp [haccepts]
      | true =>
        simp only [hseen, not_false_eq_true, decide_true, Bool.and_true, ensure_true, ok_bind]
        congr 1
        simp only [List.map_cons, List.nodup_cons, List.mem_map, not_exists, not_and,
          List.forall_mem_cons, hseen, haccepts, not_false_eq_true, true_and, decide_eq_decide]
        constructor
        · rintro ⟨hnodup, hfresh, hall⟩
          exact ⟨⟨fun other ho heq => hfresh other ho (heq ▸ List.mem_cons_self), hnodup⟩,
            fun other ho hs => hfresh other ho (List.mem_cons_of_mem _ hs), hall⟩
        · rintro ⟨⟨hne, hnodup⟩, hfresh, hall⟩
          refine ⟨hnodup, fun other ho hs => ?_, hall⟩
          rcases List.mem_cons.mp hs with heq | hs
          · exact hne other ho heq
          · exact hfresh other ho hs

theorem validateSeen_perm {α : Type} (name : α → String) (accepts : α → Bool) {xs ys : List α}
    (h : xs.Perm ys) : validateSeen name accepts [] xs = validateSeen name accepts [] ys := by
  rw [validateSeen_eq, validateSeen_eq]
  simp only [(h.map name).nodup_iff, h.mem_iff]

/-- What two writable models of one normal form have in common. -/
structure SameWritable (writable writable' : WritableModel) : Prop where
  insert : writable.insert = writable'.insert
  maxRows : writable.maxRows = writable'.maxRows
  maxRequestBytes : writable.maxRequestBytes = writable'.maxRequestBytes
  returning : writable.returning = writable'.returning
  fields : sortByKeys (fun field => [field.field]) writable.fields =
    sortByKeys (fun field => [field.field]) writable'.fields
  upsert : Option.Rel (fun policy policy' => policy.conflictFields.Perm policy'.conflictFields)
    writable.upsert writable'.upsert

theorem sameWritable_of_normalized_eq {writable writable' : WritableModel}
    (h : writable.normalized = writable'.normalized) : SameWritable writable writable' := by
  simp only [WritableModel.normalized, WritableModel.mk.injEq] at h
  obtain ⟨hinsert, hupsert, hrows, hbytes, hfields, hreturning⟩ := h
  refine ⟨hinsert, hrows, hbytes, hreturning, hfields, ?_⟩
  generalize writable.upsert = upsert at hupsert
  generalize writable'.upsert = upsert' at hupsert
  cases upsert with
  | none =>
    cases upsert' with
    | none => exact .none
    | some policy' => cases hupsert
  | some policy =>
    cases upsert' with
    | none => cases hupsert
    | some policy' =>
      simp only [Option.map_some, Option.some.injEq, UpsertPolicy.mk.injEq] at hupsert
      exact .some (perm_of_sortByKeys_eq hupsert)

section Writable
variable {writable writable' : WritableModel} (h : SameWritable writable writable')
include h

theorem SameWritable.fields_perm : writable.fields.Perm writable'.fields :=
  perm_of_sortByKeys_eq h.fields

theorem SameWritable.policies : OrderedMap.collect WritableField.field writable.fields =
    OrderedMap.collect WritableField.field writable'.fields := collect_eq_of_sortByKeys_eq h.fields

theorem SameWritable.upsert_isSome : writable.upsert.isSome = writable'.upsert.isSome := by
  have hupsert := h.upsert
  generalize writable.upsert = upsert at hupsert
  generalize writable'.upsert = upsert' at hupsert
  cases hupsert <;> rfl

theorem SameWritable.mem_conflict (name : String) :
    (writable.upsert.any fun upsert => decide (name ∈ upsert.conflictFields)) =
      writable'.upsert.any fun upsert => decide (name ∈ upsert.conflictFields) := by
  have hupsert := h.upsert
  generalize writable.upsert = upsert at hupsert
  generalize writable'.upsert = upsert' at hupsert
  cases hupsert with
  | none => rfl
  | some hperm => simp only [Option.any_some, hperm.mem_iff]

theorem SameWritable.updatableNames (inputNames : List String) :
    updatableNames writable inputNames = updatableNames writable' inputNames := by
  rw [Postgresem.updatableNames, h.policies, Postgresem.updatableNames]

theorem SameWritable.checkModelLimits (mutation : LogicalSemanticMutation) (inputBytes : Nat)
    (options : MutationCompilerOptions) :
    checkModelLimits mutation inputBytes writable options =
      checkModelLimits mutation inputBytes writable' options := by
  simp only [Postgresem.checkModelLimits, h.maxRows, h.maxRequestBytes, h.insert, h.upsert_isSome]

theorem SameWritable.checkInputField (mutation : LogicalSemanticMutation)
    (fields : List (String × Field)) (policies : List (String × WritableField)) :
    checkInputField mutation writable fields policies =
      checkInputField mutation writable' fields policies := by
  funext name
  simp only [Postgresem.checkInputField, h.mem_conflict]

/-- The first policy of a name is the only one, once the names are known to be distinct. -/
theorem SameWritable.isKeyPolicy (hnodup : (writable.fields.map WritableField.field).Nodup) :
    isKeyPolicy writable.fields = isKeyPolicy writable'.fields := by
  funext name
  rw [Postgresem.isKeyPolicy, Named.find?_perm hnodup h.fields_perm, Postgresem.isKeyPolicy]

theorem SameWritable.validateWritableModel {modelFields modelFields' : List Field}
    (hfields : OrderedMap.collect Field.semanticName modelFields =
      OrderedMap.collect Field.semanticName modelFields') :
    validateWritableModel modelFields writable = validateWritableModel modelFields' writable' := by
  have hnone : writable.upsert.isNone = writable'.upsert.isNone := by
    rw [← Option.not_isSome, h.upsert_isSome, Option.not_isSome]
  unfold Postgresem.validateWritableModel
  rw [hfields, h.insert, hnone, h.fields_perm.isEmpty_eq, h.returning]
  dsimp only
  rw [← validateSeen_perm _ _ h.fields_perm]
  refine bind_congr fun _ => ?_
  cases hseen : validateSeen WritableField.field (fun field => !isBlank field.field
      && isDirectField (OrderedMap.collect Field.semanticName modelFields') field.field) []
      writable.fields with
  | error e => rfl
  | ok u =>
    rw [validateSeen_eq, ensure_eq_ok, decide_eq_true_iff] at hseen
    refine bind_congr fun _ => ?_
    refine bind_congr fun _ => ?_
    have hupsert := h.upsert
    rw [h.isKeyPolicy hseen.1]
    generalize writable.upsert = upsert at hupsert
    generalize writable'.upsert = upsert' at hupsert
    cases hupsert with
    | none => rfl
    | some hperm =>
      dsimp only
      rw [hperm.isEmpty_eq, validateSeen_perm _ _ hperm]

end Writable

/-- What two models of one normal form have in common for a mutation. -/
structure SameTarget (model model' : Model) : Prop where
  source : model.source = model'.source
  fields : OrderedMap.collect Field.semanticName model.fields =
    OrderedMap.collect Field.semanticName model'.fields
  writable : Option.Rel SameWritable model.writable model'.writable

theorem sameTarget_of_normalized_eq {model model' : Model}
    (h : model.normalized = model'.normalized) : SameTarget model model' := by
  simp only [Model.normalized, Model.mk.injEq] at h
  obtain ⟨-, hsource, -, -, hwritable, hfields, -, -⟩ := h
  refine ⟨hsource, collect_eq_of_sortByKeys_eq hfields, ?_⟩
  generalize model.writable = writable at hwritable
  generalize model'.writable = writable' at hwritable
  cases writable with
  | none =>
    cases writable' with
    | none => exact .none
    | some writable' => cases hwritable
  | some writable =>
    cases writable' with
    | none => cases hwritable
    | some writable' => exact .some (sameWritable_of_normalized_eq (Option.some.inj hwritable))

theorem admitMutation_same {model model' : Model} (h : SameTarget model model')
    (normalized : NormalizedLsm) (options : MutationCompilerOptions) :
    Coupled Eq SameWritable (admitMutation normalized model options)
      (admitMutation normalized model' options) := by
  refine (Coupled.orError rfl h.writable).bind ?_
  intro writable writable' _ _ hsame
  rw [hsame.validateWritableModel h.fields, hsame.checkModelLimits, h.fields, hsame.policies,
    hsame.checkInputField]
  refine (Coupled.refl (fun _ => rfl) (fun _ => trivial) _).bind (R := fun _ _ => True) ?_
  intro _ _ _ _ _
  refine (Coupled.refl (fun _ => rfl) (fun _ => trivial) _).bind (R := fun _ _ => True) ?_
  intro _ _ _ _ _
  refine (Coupled.refl (fun _ => rfl) (fun _ => trivial) _).bind (R := fun _ _ => True) ?_
  intro _ _ _ _ _
  exact .ok hsame

/-! ## Loops that see the order -/

/-- The conflict fields of an upsert, in the order in which they are walked. -/
def conflictNames (mutation : LogicalSemanticMutation) (writable : WritableModel) : List String :=
  match writable.upsert, mutation.operation with
  | some upsert, .upsert => upsert.conflictFields
  | _, _ => []

/-- The conflict field that an upsert is refused for. -/
def missingConflict (mutation : LogicalSemanticMutation) (writable : WritableModel) :
    Option String :=
  (conflictNames mutation writable).find? fun name => decide (name ∉ mutation.inputNames)

/-- The required field that a mutation is refused for. -/
def missingRequired (mutation : LogicalSemanticMutation) (writable : WritableModel) :
    Option String :=
  (writable.fields.find? fun field =>
    field.requiredOnInsert && decide (field.field ∉ mutation.inputNames)).map WritableField.field

/-- An upsert needs a field that it may overwrite. -/
def hasUpdatable (mutation : LogicalSemanticMutation) (writable : WritableModel) : Bool :=
  !(writable.upsert.isSome && mutation.operation == .upsert
    && (updatableNames writable mutation.inputNames).isEmpty)

/-- The names that an update writes once the checks have passed. -/
def updates (mutation : LogicalSemanticMutation) (writable : WritableModel) : List String :=
  if writable.upsert.isSome && mutation.operation == .upsert then
    updatableNames writable mutation.inputNames
  else []

theorem updateNames_eq (mutation : LogicalSemanticMutation) (writable : WritableModel) :
    updateNames mutation writable =
      (missingConflict mutation writable).elim
        (if hasUpdatable mutation writable then .ok (updates mutation writable)
          else .error .noUpdatableField)
        fun name => .error (.conflictFieldMissing name) := by
  unfold updateNames missingConflict hasUpdatable updates conflictNames
  cases writable.upsert with
  | none => rfl
  | some upsert =>
    cases mutation.operation with
    | insert => rfl
    | upsert =>
      have hloop : forEach (checkConflictField mutation.inputNames) upsert.conflictFields =
          (upsert.conflictFields.find? fun name => !decide (name ∈ mutation.inputNames)).elim
            (.ok ()) fun name => .error (.conflictFieldMissing name) :=
        forEach_ensure (fun name => decide (name ∈ mutation.inputNames))
          MutationCompileError.conflictFieldMissing upsert.conflictFields
      simp only [hloop, decide_not]
      cases upsert.conflictFields.find? fun name => !decide (name ∈ mutation.inputNames) with
      | some name => rfl
      | none => cases (updatableNames writable mutation.inputNames).isEmpty <;> rfl

theorem checkRequiredFields_eq (mutation : LogicalSemanticMutation) (writable : WritableModel) :
    forEach (checkRequiredField mutation.inputNames) writable.fields =
      (missingRequired mutation writable).elim (.ok ())
        fun name => .error (.requiredFieldMissing name) := by
  have hloop : forEach (checkRequiredField mutation.inputNames) writable.fields =
      (writable.fields.find? fun field =>
        !(!field.requiredOnInsert || decide (field.field ∈ mutation.inputNames))).elim (.ok ())
        fun field => .error (.requiredFieldMissing field.field) :=
    forEach_ensure (fun field : WritableField => !field.requiredOnInsert
      || decide (field.field ∈ mutation.inputNames))
      (fun field => MutationCompileError.requiredFieldMissing field.field) writable.fields
  have hfind : (fun field : WritableField => !(!field.requiredOnInsert
      || decide (field.field ∈ mutation.inputNames))) =
      fun field => field.requiredOnInsert && decide (field.field ∉ mutation.inputNames) := by
    funext field
    simp
  rw [hloop, hfind, missingRequired]
  cases writable.fields.find? fun field =>
    field.requiredOnInsert && decide (field.field ∉ mutation.inputNames) <;> rfl

/-- The columns of the conflict clause, in the order in which they are written. -/
def conflictColumns (mutation : LogicalSemanticMutation) (fields : List (String × Field))
    (writable : WritableModel) : List String :=
  (conflictNames mutation writable).map (columnOf fields)

theorem conflictText_eq_iff (fields : List (String × Field)) (names names' updates : List String) :
    conflictText fields names updates = conflictText fields names' updates ↔
      names.map (columnOf fields) = names'.map (columnOf fields) := by
  have htext : ∀ names : List String, conflictText fields names updates =
      "\nON CONFLICT (" ++ (", ".intercalate ((names.map (columnOf fields)).map quoteIdentifier)
        ++ (") DO UPDATE SET\n" ++ ",\n".intercalate (updates.map fun name =>
          "  " ++ quoteIdentifier (columnOf fields name) ++ " = EXCLUDED."
            ++ quoteIdentifier (columnOf fields name)))) := by
    intro names
    simp only [conflictText, List.map_map, Function.comp_def, String.append_assoc]
  constructor
  · intro h
    rw [htext, htext] at h
    have hlists := congrArg String.toList h
    simp only [String.toList_append] at hlists
    have hjoined := List.append_cancel_right (List.append_cancel_left hlists)
    exact Lexing.intercalate_quoted_injective (by decide) (by decide)
      (String.toList_injective hjoined)
  · intro h
    rw [htext, htext, h]

/-- Two renderings differ exactly in the columns of their conflict clauses. -/
theorem renderMutation_eq_iff {backend : MutationBackend}
    (hserializes : ∀ parameters, (backend.parametersJson parameters).isSome = true)
    {snapshot snapshot' : SemanticSnapshot}
    (hrevision : snapshot.revisionHash = snapshot'.revisionHash)
    {writable writable' : WritableModel} (h : SameWritable writable writable')
    (normalized : NormalizedLsm) (relation : Relation) (fields : List (String × Field))
    (updates : List String) (profile : String) :
    renderMutation backend normalized snapshot relation writable fields updates profile =
        renderMutation backend normalized snapshot' relation writable' fields updates profile ↔
      conflictColumns normalized.mutation fields writable =
        conflictColumns normalized.mutation fields writable' := by
  obtain ⟨input, hinput⟩ := Option.isSome_iff_exists.mp (hserializes
    (parametersFrom fields normalized.mutation.inputNames normalized.mutation.rows 0))
  have hsnapshot : assembleMutation backend normalized snapshot relation writable.returning fields
      profile = assembleMutation backend normalized snapshot' relation writable'.returning fields
      profile := by
    funext conflict parameterHashInput
    simp only [assembleMutation, hrevision, h.returning]
  have hconflict : ∀ conflict conflict' : String,
      assembleMutation backend normalized snapshot' relation writable'.returning fields profile
          conflict input =
        assembleMutation backend normalized snapshot' relation writable'.returning fields profile
          conflict' input ↔ conflict = conflict' := by
    intro conflict conflict'
    refine ⟨fun heq => ?_, fun heq => by rw [heq]⟩
    have hstatement := congrArg (fun compiled => compiled.statement.toList) heq
    simp only [assembleMutation, String.toList_append] at hstatement
    exact String.toList_injective
      (List.append_cancel_left (List.append_cancel_right hstatement))
  have hupsert := h.upsert
  unfold renderMutation conflictClause conflictColumns conflictNames
  rw [hinput, hsnapshot]
  generalize writable.upsert = upsert at hupsert ⊢
  generalize writable'.upsert = upsert' at hupsert ⊢
  cases normalized.mutation.operation with
  | insert => cases hupsert <;> simp
  | upsert =>
    cases hupsert with
    | none => simp
    | some hperm =>
      simp only [orError_some, map_ok, ok_bind, pure_ok, Except.ok.injEq, hconflict,
        conflictText_eq_iff]

/-! ## Whole results -/

section Writable
variable {writable writable' : WritableModel} (h : SameWritable writable writable')
include h

theorem SameWritable.missingConflict_isSome (mutation : LogicalSemanticMutation) :
    (missingConflict mutation writable).isSome = (missingConflict mutation writable').isSome := by
  have hupsert := h.upsert
  rw [missingConflict, missingConflict, List.isSome_find?, List.isSome_find?]
  unfold conflictNames
  generalize writable.upsert = upsert at hupsert
  generalize writable'.upsert = upsert' at hupsert
  cases hupsert with
  | none => rfl
  | some hperm =>
    cases mutation.operation with
    | insert => rfl
    | upsert => exact hperm.any_eq

theorem SameWritable.missingRequired_isSome (mutation : LogicalSemanticMutation) :
    (missingRequired mutation writable).isSome = (missingRequired mutation writable').isSome := by
  rw [missingRequired, missingRequired, Option.isSome_map, Option.isSome_map, List.isSome_find?,
    List.isSome_find?, h.fields_perm.any_eq]

theorem SameWritable.hasUpdatable (mutation : LogicalSemanticMutation) :
    hasUpdatable mutation writable = hasUpdatable mutation writable' := by
  rw [Postgresem.hasUpdatable, h.upsert_isSome, h.updatableNames, Postgresem.hasUpdatable]

theorem SameWritable.updates (mutation : LogicalSemanticMutation) :
    updates mutation writable = updates mutation writable' := by
  rw [Postgresem.updates, h.upsert_isSome, h.updatableNames, Postgresem.updates]

end Writable

/-- The orders of the two writable models do not show: each loop that looks for a missing field
stops at the same name, and the conflict clauses list the same columns. -/
def SameOrder (mutation : LogicalSemanticMutation) (fields : List (String × Field))
    (writable writable' : WritableModel) : Prop :=
  missingConflict mutation writable = missingConflict mutation writable' ∧
    (missingConflict mutation writable = none → hasUpdatable mutation writable = true →
      missingRequired mutation writable = missingRequired mutation writable' ∧
        (missingRequired mutation writable = none →
          conflictColumns mutation fields writable = conflictColumns mutation fields writable'))

theorem finishMutation_eq_iff {backend : MutationBackend}
    (hserializes : ∀ parameters, (backend.parametersJson parameters).isSome = true)
    {snapshot snapshot' : SemanticSnapshot}
    (hrevision : snapshot.revisionHash = snapshot'.revisionHash)
    {model model' : Model} (hmodel : SameTarget model model')
    {writable writable' : WritableModel} (h : SameWritable writable writable')
    (normalized : NormalizedLsm) (profile : String) :
    finishMutation backend normalized snapshot model writable profile =
        finishMutation backend normalized snapshot' model' writable' profile ↔
      SameOrder normalized.mutation (OrderedMap.collect Field.semanticName model.fields)
        writable writable' := by
  have hrender := renderMutation_eq_iff hserializes hrevision h normalized model.source
    (OrderedMap.collect Field.semanticName model.fields) (updates normalized.mutation writable)
    profile
  have hconflict := h.missingConflict_isSome normalized.mutation
  have hrequired := h.missingRequired_isSome normalized.mutation
  unfold finishMutation SameOrder
  rw [updateNames_eq, updateNames_eq, checkRequiredFields_eq, checkRequiredFields_eq,
    ← hmodel.source, ← hmodel.fields, ← h.hasUpdatable, ← h.updates]
  cases hc : missingConflict normalized.mutation writable with
  | some name =>
    rw [hc] at hconflict
    obtain ⟨name', hc'⟩ := Option.isSome_iff_exists.mp hconflict.symm
    simp [hc']
  | none =>
    rw [hc] at hconflict
    have hc' := Option.not_isSome_iff_eq_none.mp (hconflict ▸ Bool.false_ne_true :
      ¬ (missingConflict normalized.mutation writable').isSome = true)
    cases hu : hasUpdatable normalized.mutation writable with
    | false => simp [hc']
    | true =>
      cases hr : missingRequired normalized.mutation writable with
      | some name =>
        rw [hr] at hrequired
        obtain ⟨name', hr'⟩ := Option.isSome_iff_exists.mp hrequired.symm
        simp [hc', hr']
      | none =>
        rw [hr] at hrequired
        have hr' := Option.not_isSome_iff_eq_none.mp (hrequired ▸ Bool.false_ne_true :
          ¬ (missingRequired normalized.mutation writable').isSome = true)
        simpa [hc', hr'] using hrender

/-- A mutation that passes every check that does not see the order meets no order that shows. -/
def OrderFree (normalized : NormalizedLsm) (capabilities : MutationCapabilities)
    (options : MutationCompilerOptions) (model model' : Model) : Prop :=
  checkMutationRequest normalized capabilities options = .ok () →
    ∀ writable writable', admitMutation normalized model options = .ok writable →
      admitMutation normalized model' options = .ok writable' →
        SameOrder normalized.mutation (OrderedMap.collect Field.semanticName model.fields)
          writable writable'

theorem validateMutationSnapshot_congr (backend : HashBackend)
    {snapshot snapshot' : SemanticSnapshot} (h : snapshot.normalized = snapshot'.normalized) :
    validateMutationSnapshot backend snapshot = validateMutationSnapshot backend snapshot' := by
  obtain ⟨hversion, hrevision⟩ := rest_eq_of_normalized_eq h
  simp only [validateMutationSnapshot, SemanticSnapshot.calculateRevisionHash, h, hversion,
    hrevision]

theorem admitted_eq_iff {backend : MutationBackend}
    (hserializes : ∀ parameters, (backend.parametersJson parameters).isSome = true)
    {snapshot snapshot' : SemanticSnapshot}
    (hrevision : snapshot.revisionHash = snapshot'.revisionHash)
    {model model' : Model} (hmodel : SameTarget model model') (normalized : NormalizedLsm)
    (options : MutationCompilerOptions) (profile : String) :
    ((admitMutation normalized model options >>= fun writable =>
        finishMutation backend normalized snapshot model writable profile) =
      (admitMutation normalized model' options >>= fun writable =>
        finishMutation backend normalized snapshot' model' writable profile)) ↔
      ∀ writable writable', admitMutation normalized model options = .ok writable →
        admitMutation normalized model' options = .ok writable' →
          SameOrder normalized.mutation (OrderedMap.collect Field.semanticName model.fields)
            writable writable' := by
  have hadmit := admitMutation_same hmodel normalized options
  cases hok : admitMutation normalized model options with
  | error e =>
    rw [hok] at hadmit
    generalize admitMutation normalized model' options = result at hadmit ⊢
    cases hadmit with
    | error heq => simp [heq]
  | ok writable =>
    obtain ⟨writable', hok', hwritable⟩ := hadmit.exists_ok hok
    rw [hok', ok_bind, ok_bind, finishMutation_eq_iff hserializes hrevision hmodel hwritable]
    constructor
    · intro horder other other' hother hother'
      cases hother
      cases hother'
      exact horder
    · intro horder
      exact horder writable writable' rfl rfl

/-- Two snapshots of one normal form that put the same model first under the mutation's name
compile the mutation to one result exactly when no order shows. -/
theorem mutation_canonical_iff {backend : MutationBackend}
    (hserializes : ∀ parameters, (backend.parametersJson parameters).isSome = true)
    {snapshot snapshot' : SemanticSnapshot} (hnormal : snapshot.normalized = snapshot'.normalized)
    (hvalid : validateMutationSnapshot backend.toHashBackend snapshot = .ok ())
    (normalized : NormalizedLsm) (capabilities : MutationCapabilities)
    (options : MutationCompilerOptions)
    (htarget : (snapshot.mutationModel normalized.mutation.model).map Model.normalized =
      (snapshot'.mutationModel normalized.mutation.model).map Model.normalized) :
    compileLsm backend normalized snapshot capabilities options =
        compileLsm backend normalized snapshot' capabilities options ↔
      ∀ model, snapshot.mutationModel normalized.mutation.model = some model →
        ∀ model', snapshot'.mutationModel normalized.mutation.model = some model' →
          OrderFree normalized capabilities options model model' := by
  have hvalid' : validateMutationSnapshot backend.toHashBackend snapshot' = .ok () := by
    rw [← validateMutationSnapshot_congr _ hnormal]
    exact hvalid
  obtain ⟨-, hrevision⟩ := rest_eq_of_normalized_eq hnormal
  simp only [compileLsm, hvalid, hvalid', ok_bind, OrderFree]
  cases checkMutationRequest normalized capabilities options with
  | error e => simp
  | ok u =>
    cases hfound : snapshot.mutationModel normalized.mutation.model with
    | none =>
      rw [hfound] at htarget
      simp [Option.map_eq_none_iff.mp htarget.symm]
    | some model =>
      rw [hfound] at htarget
      obtain ⟨model', hfound', hsame⟩ := Option.map_eq_some_iff.mp htarget.symm
      rw [hfound']
      simp only [orError_some, ok_bind, Option.some.injEq, forall_eq', forall_const]
      exact admitted_eq_iff hserializes hrevision (sameTarget_of_normalized_eq hsame.symm)
        normalized options capabilities.profile

/-- Where model names are distinct the same model comes first under every name. -/
theorem mutationModel_of_distinct {snapshot snapshot' : SemanticSnapshot}
    (hnormal : snapshot.normalized = snapshot'.normalized)
    (hnames : (snapshot'.models.map Model.semanticName).Nodup) (name : String) :
    (snapshot.mutationModel name).map Model.normalized =
      (snapshot'.mutationModel name).map Model.normalized := by
  have hmodels : Matched (fun model model' => Model.normalized model = Model.normalized model')
      snapshot.models snapshot'.models := by
    simp only [SemanticSnapshot.normalized, SemanticSnapshot.mk.injEq] at hnormal
    exact matched_of_sortByKeys_map_eq hnormal.2.2
  have hfound := hmodels.find? hnames (q := fun model => model.semanticName == name) (n := name)
    (fun model hm => by simpa using hm) (fun model model' hsame => by
      have hsemantic : model.semanticName = model'.semanticName :=
        congrArg (fun model => model.semanticName) hsame
      rw [hsemantic])
  unfold SemanticSnapshot.mutationModel
  generalize (snapshot.models.find? _) = found at hfound ⊢
  generalize (snapshot'.models.find? _) = found' at hfound ⊢
  cases hfound with
  | none => rfl
  | some hsame => rw [Option.map_some, Option.map_some, hsame]

/-! ## An upsert of order lines -/

def linesModel (conflictFields : List String) : Model :=
  { semanticName := "lines"
    source := ⟨"sales", "lines"⟩
    fields :=
      [{ semanticName := "line", dataType := .integer, column := "line" },
       { semanticName := "order_id", dataType := .integer, column := "order_id" },
       { semanticName := "quantity", dataType := .integer, column := "quantity" }]
    metrics := []
    writable := some
      { insert := true
        upsert := some { conflictFields := conflictFields }
        maxRows := 10
        maxRequestBytes := 1000
        fields :=
          [{ field := "line", nullable := false }, { field := "order_id", nullable := false },
           { field := "quantity", nullable := false, updatableOnConflict := true }]
        returning := ["quantity"] } }

/-- The same lines with their conflict fields in some order; one revision hash fits all. -/
def linesSnapshot (conflictFields : List String) : SemanticSnapshot :=
  { schemaVersion := "1"
    revisionHash := "sha256:4b08dda7842e5291880a10581543374b79c9bb7a4023e495b8ff0c09313707b7"
    models := [linesModel conflictFields] }

def quantityRow : MutationRow :=
  { entries := [("line", .integer 1), ("order_id", .integer 7), ("quantity", .integer 3)]
    sorted := by decide }

def lineMutation (operation : MutationOperation) : NormalizedLsm :=
  LogicalSemanticMutation.normalize standardHash 200
    { operation := operation, model := "lines", idempotencyKey := "k1", rows := [quantityRow] }
    (by cases operation <;> decide)

def linesCapabilities : MutationCapabilities :=
  { profile := "writer", writableModels := ["lines"] }

theorem linesSnapshot_normalized :
    (linesSnapshot ["order_id", "line"]).normalized =
      (linesSnapshot ["line", "order_id"]).normalized := by decide +kernel

theorem linesSnapshot_valid : validateMutationSnapshot standardMutationBackend.toHashBackend
    (linesSnapshot ["order_id", "line"]) = .ok () := by
  have hpublished : (linesSnapshot ["order_id", "line"]).calculateRevisionHash standardHash =
      some (linesSnapshot ["order_id", "line"]).revisionHash := by
    apply published_of_codes
    decide +kernel
  exact validateMutationSnapshot_ok.mpr ⟨.inl rfl, hpublished⟩

/-- An insert does not use the conflict fields, so their order does not show. -/
theorem line_insert_canonical :
    compileLsm standardMutationBackend (lineMutation .insert) (linesSnapshot ["order_id", "line"])
        linesCapabilities {} =
      compileLsm standardMutationBackend (lineMutation .insert)
        (linesSnapshot ["line", "order_id"]) linesCapabilities {} := by
  have htarget := mutationModel_of_distinct linesSnapshot_normalized
    (List.nodup_singleton _ : ["lines"].Nodup) "lines"
  refine (mutation_canonical_iff (fun _ => rfl) linesSnapshot_normalized linesSnapshot_valid
    (lineMutation .insert) linesCapabilities {} htarget).mpr ?_
  intro model hmodel model' hmodel' _ writable writable' hwritable hwritable'
  cases hmodel
  cases hmodel'
  have hfirst : writable ∈ (linesModel ["order_id", "line"]).writable := by
    simp only [admitMutation, bind_eq_ok, orError_eq_ok, pure_eq_ok] at hwritable
    obtain ⟨_, hw, _, _, _, _, _, _, rfl⟩ := hwritable
    exact hw
  have hsecond : writable' ∈ (linesModel ["line", "order_id"]).writable := by
    simp only [admitMutation, bind_eq_ok, orError_eq_ok, pure_eq_ok] at hwritable'
    obtain ⟨_, hw, _, _, _, _, _, _, rfl⟩ := hwritable'
    exact hw
  cases hfirst
  cases hsecond
  exact ⟨rfl, fun _ _ => ⟨rfl, fun _ => rfl⟩⟩

def lineUpsertText (conflict : String) : String :=
  "INSERT INTO \"sales\".\"lines\" (\"line\", \"order_id\", \"quantity\")\nVALUES\n"
    ++ "  ($1::text::bigint, $2::text::bigint, $3::text::bigint)\nON CONFLICT (" ++ conflict
    ++ ") DO UPDATE SET\n  \"quantity\" = EXCLUDED.\"quantity\"\nRETURNING\n"
    ++ "  \"quantity\" AS \"quantity\""

set_option maxRecDepth 20000 in
/-- One revision, one upsert, two statements: the conflict clause follows the order in which the
snapshot happens to list the conflict fields. -/
theorem conflict_order_shows : ∃ compiled compiled',
    compileLsm standardMutationBackend (lineMutation .upsert) (linesSnapshot ["order_id", "line"])
        linesCapabilities {} = .ok compiled ∧
      compileLsm standardMutationBackend (lineMutation .upsert)
        (linesSnapshot ["line", "order_id"]) linesCapabilities {} = .ok compiled' ∧
      (linesSnapshot ["order_id", "line"]).normalized =
        (linesSnapshot ["line", "order_id"]).normalized ∧
      compiled.statement = lineUpsertText "\"order_id\", \"line\"" ∧
      compiled'.statement = lineUpsertText "\"line\", \"order_id\"" ∧
      compiled.statement ≠ compiled'.statement := by
  have hvalid := linesSnapshot_valid
  have hvalid' := hvalid
  rw [validateMutationSnapshot_congr _ linesSnapshot_normalized] at hvalid'
  have hfirst : succeedsWith (compileLsm standardMutationBackend (lineMutation .upsert)
      (linesSnapshot ["order_id", "line"]) linesCapabilities {})
      (fun compiled => compiled.statement == lineUpsertText "\"order_id\", \"line\"") = true := by
    rw [compileLsm, hvalid]
    decide +kernel
  have hsecond : succeedsWith (compileLsm standardMutationBackend (lineMutation .upsert)
      (linesSnapshot ["line", "order_id"]) linesCapabilities {})
      (fun compiled => compiled.statement == lineUpsertText "\"line\", \"order_id\"") = true := by
    rw [compileLsm, hvalid']
    decide +kernel
  obtain ⟨compiled, hcompiled, htext⟩ := exists_ok_of_succeedsWith hfirst
  obtain ⟨compiled', hcompiled', htext'⟩ := exists_ok_of_succeedsWith hsecond
  rw [beq_iff_eq] at htext htext'
  refine ⟨compiled, compiled', hcompiled, hcompiled', linesSnapshot_normalized, htext, htext', ?_⟩
  rw [htext, htext']
  decide

end Postgresem
