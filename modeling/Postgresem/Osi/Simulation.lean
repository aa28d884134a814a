import Postgresem.Osi.Declarations

/-! The loops of the import do what the declarations of a document say: each pass over a dataset, a
relationship or a metric is the step of its plan. -/
namespace Postgresem.Osi
open Control Edits

/-! ## Datasets -/

theorem importDataset_simulates (currentDatabase : String) (catalog : RelationIndex)
    (state : ImportState) (dataset : OsiDataset) :
    (importDataset currentDatabase catalog state dataset).toOption.map ImportState.declarations =
      step (planDataset currentDatabase catalog) state.declarations dataset := by
  rw [step, planDataset, importDataset, validateIdentifier, toOption_bind, toOption_ensure]
  cases portableIdentifier dataset.name with
  | false => rfl
  | true =>
    rw [if_pos rfl, if_pos rfl, Option.bind_some, toOption_bind, toOption_ensure]
    cases hmodel : importDatasetModel currentDatabase catalog dataset with
    | error e => cases (state.imported.lookup dataset.name).isNone <;> rfl
    | ok result =>
      have hentry : state.declarations.entries dataset.name =
          (state.imported.lookup dataset.name).map ImportedModel.declared := rfl
      cases hlookup : state.imported.lookup dataset.name with
      | some entry =>
        rw [hlookup] at hentry
        simp [Edit.apply, hentry]
      | none =>
        rw [hlookup] at hentry
        simp [Edit.apply, hentry, declarations_put]

/-! ## Additions to an imported model -/

theorem grounds_declarations (state : ImportState) (key : String) :
    grounds state.declarations.entries key =
      (state.imported.lookup key).map fun entry => entry.declared.ground :=
  Option.map_map ..

section Additions
variable {contribution : Contribution} {state : ImportState} {entry entry' : ImportedModel}
  (hlookup : state.imported.lookup contribution.key = some entry)
include hlookup

theorem change_apply : contribution.change.apply state.declarations =
    (Declared.add contribution.addition entry.declared).map fun declared =>
      ⟨Function.update state.declarations.entries contribution.key (some declared),
        state.declarations.log + contribution.warnings⟩ := by
  have hentry : state.declarations.entries contribution.key = some entry.declared := by
    show (state.imported.lookup contribution.key).map _ = _
    rw [hlookup, Option.map_some]
  show ((state.declarations.entries contribution.key).bind _).map _ = _
  rw [hentry, Option.bind_some]
  rfl

theorem change_apply_put (haccepts : entry.declared.Accepts contribution.addition)
    (hextend : entry'.declared = entry.declared.extend contribution.addition) :
    contribution.change.apply state.declarations =
      some (state.put contribution.key entry' contribution.warnings).declarations := by
  rw [change_apply hlookup, Declared.add_eq_some.mpr ⟨haccepts, rfl⟩, declarations_put, hextend,
    Option.map_some]

theorem change_apply_refused (h : ¬ entry.declared.Accepts contribution.addition) :
    contribution.change.apply state.declarations = none := by
  rw [change_apply hlookup, Declared.add, if_neg h, Option.map_none]

end Additions

/-! ## Relationships -/

theorem projectFields_toOption (path : String) (projected : List Field) (model : Model) :
    (projected.foldlM (projectField path) model).toOption =
      if (projected.map Field.semanticName).Nodup ∧
          ∀ new ∈ projected, ∀ field ∈ model.fields, field.semanticName ≠ new.semanticName then
        some { model with fields := model.fields ++ projected }
      else none := by
  induction projected generalizing model with
  | nil => simp [pure, Except.pure, Except.toOption]
  | cons new projected ih =>
    rw [List.foldlM_cons, toOption_bind, projectField, toOption_bind, toOption_ensure]
    by_cases hnew : ∀ field ∈ model.fields, field.semanticName ≠ new.semanticName
    · have hany : (!model.fields.any fun field => field.semanticName == new.semanticName) = true := by
        simpa using hnew
      rw [hany, if_pos rfl, Option.bind_some, toOption_ok, Option.bind_some, ih, List.append_assoc,
        List.singleton_append]
      congr 1
      rw [eq_iff_iff, List.map_cons, List.nodup_cons, List.forall_mem_cons]
      constructor
      · rintro ⟨hnodup, hrest⟩
        refine ⟨⟨?_, hnodup⟩, hnew, fun other hother field hfield =>
          hrest other hother field (List.mem_append_left _ hfield)⟩
        intro hmem
        obtain ⟨other, hother, hsame⟩ := List.mem_map.mp hmem
        exact hrest other hother new (by simp) hsame.symm
      · rintro ⟨⟨hmem, hnodup⟩, -, hrest⟩
        refine ⟨hnodup, fun other hother field hfield => ?_⟩
        rcases List.mem_append.mp hfield with hfield | hfield
        · exact hrest other hother field hfield
        · obtain rfl := List.mem_singleton.mp hfield
          exact fun hsame => hmem (hsame ▸ List.mem_map_of_mem hother)
    · have hany : (!model.fields.any fun field => field.semanticName == new.semanticName) = false := by
        simpa using hnew
      rw [hany, if_neg (by simp), if_neg fun h => hnew (List.forall_mem_cons.mp h.2).1]
      rfl

theorem relateModel_toOption (path : String) (entry : ImportedModel) (related : Relationship)
    (projected : List Field) :
    (relateModel path entry related projected).toOption =
      if (projected.map Field.semanticName).Nodup ∧ ∀ new ∈ projected,
          ∀ field ∈ entry.model.fields, field.semanticName ≠ new.semanticName then
        some { entry with
          model := { entry.model with
            fields := entry.model.fields ++ projected
            relationships := entry.model.relationships ++ [related] } }
      else none := by
  rw [relateModel, toOption_bind, projectFields_toOption]
  split_ifs <;> rfl

/-- The end of `import_relationship`, from the check of the name on. -/
theorem relate_simulates {state : ImportState} {key : String} {entry : ImportedModel}
    (hlookup : state.imported.lookup key = some entry) (path : String) (related : Relationship)
    (projected : List Field) (warnings : List OsiImportWarning)
    (hnodup : (projected.map Field.semanticName).Nodup) :
    (if (!entry.model.relationships.any fun existing =>
        existing.semanticName == related.semanticName) = true then
      (relateModel path entry related projected).toOption.map fun entry =>
        (state.put key entry warnings).declarations
    else none) =
      (Contribution.change ⟨key, ⟨projected, 0, {related}⟩, warnings⟩).apply
        state.declarations := by
  have hlookup' : state.imported.lookup
      (Contribution.mk key ⟨projected, 0, {related}⟩ warnings).key = some entry := hlookup
  have haccepts : entry.declared.Accepts ⟨projected, 0, {related}⟩ ↔
      (∀ new ∈ projected, ∀ field ∈ entry.model.fields, field.semanticName ≠ new.semanticName) ∧
        ∀ existing ∈ entry.model.relationships,
          existing.semanticName ≠ related.semanticName := by
    rw [Declared.Accepts, and_iff_right (fresh_zero _)]
    exact and_congr_right' fresh_singleton
  have hname : (!entry.model.relationships.any fun existing =>
      existing.semanticName == related.semanticName) = true ↔
        ∀ existing ∈ entry.model.relationships,
          existing.semanticName ≠ related.semanticName := by
    simp
  rw [relateModel_toOption]
  by_cases h : entry.declared.Accepts ⟨projected, 0, {related}⟩
  · obtain ⟨hfields, hrelationships⟩ := haccepts.mp h
    rw [if_pos (hname.mpr hrelationships), if_pos ⟨hnodup, hfields⟩,
      change_apply_put hlookup' h]
    · rfl
    · simp only [ImportedModel.declared, Declared.extend, bareModel, Multiset.coe_add, add_zero,
        ← Multiset.coe_singleton]
  · rw [change_apply_refused hlookup' h]
    rw [haccepts, not_and_or] at h
    split_ifs with hrelationships hfields
    · exact absurd ⟨hfields.2, hname.mp hrelationships⟩ (not_and_or.mpr h)
    · rfl
    · rfl

theorem importRelationship_simulates (state : ImportState) (relationship : OsiRelationship) :
    (importRelationship state relationship).toOption.map ImportState.declarations =
      step (contribute declareRelationship) state.declarations relationship := by
  rw [step, contribute, declareRelationship]
  simp only [importRelationship, validateIdentifier, rejectExtensions, toOption_bind,
    toOption_ensure, toOption_orError, grounds_declarations]
  cases portableIdentifier relationship.name with
  | false => rfl
  | true =>
    cases relationship.customExtensions.isEmpty with
    | false => rfl
    | true =>
      cases columnPair relationship with
      | none => rfl
      | some pair =>
        cases hto : state.imported.lookup relationship.toDataset with
        | none => rfl
        | some toModel =>
          have hevidence : toModel.declared.ground.evidence = toModel.fields := rfl
          simp only [Option.map_some, Option.bind_some, Option.bind_eq_bind, hevidence]
          cases (findColumn toModel.fields pair.2).filter ImportedField.entityKey with
          | none => rfl
          | some toField =>
            cases hfrom : state.imported.lookup relationship.fromDataset with
            | none => rfl
            | some fromModel =>
              have hevidence' : fromModel.declared.ground.evidence = fromModel.fields := rfl
              have hforeign : fromModel.declared.ground.foreignKeys = fromModel.foreignKeys := rfl
              have hsource : toModel.declared.ground.model.source = toModel.model.source := rfl
              simp only [Option.map_some, Option.bind_some, hevidence', hforeign, hsource]
              cases findColumn fromModel.fields pair.1 with
              | none => split_ifs <;> rfl
              | some fromField =>
                simp only [Option.bind_some, Bool.and_self, if_true, decide_eq_true_eq]
                by_cases hkey : ⟨[fromField.column], toModel.model.source, [toField.column]⟩ ∈
                    fromModel.foreignKeys
                · by_cases hnodup : ((toModel.fields.map (projection relationship.name)).map
                      Field.semanticName).Nodup
                  · simp only [hkey, hnodup, and_self, if_true, Option.bind_some, Option.map_some]
                    rw [← relate_simulates hfrom ("/relationships/" ++ relationship.name) _ _ _
                      hnodup]
                    have hname : (importedRelationship relationship toModel.model.source fromField
                      toField).semanticName = relationship.name := rfl
                    rw [hname]
                    split_ifs with hnew
                    · cases relateModel ("/relationships/" ++ relationship.name) fromModel
                        (importedRelationship relationship toModel.model.source fromField toField)
                        (toModel.fields.map (projection relationship.name)) <;> rfl
                    · rfl
                  · simp only [hkey, hnodup, and_false, if_false, if_true, Option.bind_some,
                      relateModel_toOption, false_and]
                    split_ifs <;> rfl
                · simp only [hkey, false_and, if_false]
                  split_ifs <;> rfl

/-! ## Metrics -/

theorem measure_simulates {state : ImportState} {key : String} {entry : ImportedModel}
    (hlookup : state.imported.lookup key = some entry) (measured : Metric)
    (warnings : List OsiImportWarning) :
    (if (!entry.model.metrics.any fun existing =>
        existing.semanticName == measured.semanticName) = true then
      some (state.put key { entry with model := { entry.model with
        metrics := entry.model.metrics ++ [measured] } } warnings).declarations
    else none) =
      (Contribution.change ⟨key, ⟨0, {measured}, 0⟩, warnings⟩).apply state.declarations := by
  have hlookup' : state.imported.lookup
      (Contribution.mk key ⟨0, {measured}, 0⟩ warnings).key = some entry := hlookup
  have haccepts : entry.declared.Accepts ⟨0, {measured}, 0⟩ ↔
      ∀ existing ∈ entry.model.metrics, existing.semanticName ≠ measured.semanticName := by
    rw [Declared.Accepts, and_iff_right (fresh_zero _), and_iff_left (fresh_zero _)]
    exact fresh_singleton
  by_cases h : entry.declared.Accepts ⟨0, {measured}, 0⟩
  · rw [if_pos (by simpa using haccepts.mp h), change_apply_put hlookup' h]
    simp only [ImportedModel.declared, Declared.extend, bareModel, ← Multiset.coe_add, add_zero,
      ← Multiset.coe_singleton]
  · rw [change_apply_refused hlookup' h, if_neg]
    rw [haccepts] at h
    simpa using h

theorem importMetric_simulates (state : ImportState) (metric : OsiMetric) :
    (importMetric state metric).toOption.map ImportState.declarations =
      step (contribute declareMetric) state.declarations metric := by
  rw [step, contribute, declareMetric]
  simp only [importMetric, validateIdentifier, rejectExtensions, toOption_bind,
    toOption_ensure, toOption_orError, grounds_declarations]
  cases portableIdentifier metric.name with
  | false => rfl
  | true =>
    cases metric.customExtensions.isEmpty with
    | false => rfl
    | true =>
      cases (ansiExpression metric.expression ("/metrics/" ++ metric.name)).toOption with
      | none => rfl
      | some expression =>
        cases hparsed : parseMetricExpression expression with
        | none => simp [hparsed]
        | some parsed =>
          simp only [Option.bind_some, Option.bind_eq_bind, hparsed]
          cases hlookup : state.imported.lookup parsed.dataset with
          | none => rfl
          | some entry =>
            have hevidence : entry.declared.ground.evidence = entry.fields := rfl
            simp only [Option.map_some, Option.bind_some, hevidence]
            cases entry.fields.lookup parsed.field with
            | none => split_ifs <;> rfl
            | some field =>
              simp only [Option.bind_some, Bool.and_self, if_true]
              cases !(parsed.aggregation == .count || parsed.aggregation == .countDistinct)
                  || field.entityKey with
              | false =>
                simp only [Bool.false_and, Bool.false_eq_true, if_false]
                split_ifs <;> rfl
              | true =>
                cases aggregateSupportsType parsed.aggregation field.dataType with
                | false =>
                  simp only [Bool.and_false, Bool.false_eq_true, if_false]
                  split_ifs <;> rfl
                | true =>
                  simp only [Bool.and_self, if_true, Option.bind_some, Option.map_some,
                    toOption_ok]
                  rw [← measure_simulates hlookup]
                  have hname : (importedMetric metric parsed field).semanticName = metric.name :=
                    rfl
                  rw [hname]
                  split_ifs <;> rfl

end Postgresem.Osi
