import Postgresem.Foundation.Named
import Postgresem.Semantic.Diff

/-! What a diff reports. The changes are read back as facts about the two snapshots: what a diff
without breaking changes keeps, and what a diff without changes says. -/
namespace Postgresem
open Control

/-! ## Named objects -/

theorem namedObjects_fold {α : Type} {kind : String} {name : α → String} {objects : List α}
    {named entries : List (String × α)} (hsorted : OrderedMap.Sorted named)
    (h : objects.foldlM (fun named object =>
      if (named.lookup (name object)).isSome then
        (.error (.duplicateObject kind (name object)) : Except DiffError _)
      else .ok (OrderedMap.insert (name object) object named)) named = .ok entries) :
    OrderedMap.Sorted entries ∧ (objects.map name).Nodup ∧
      (∀ object ∈ objects, named.lookup (name object) = none) ∧
      ∀ n, entries.lookup n = (named.lookup n).or (objects.find? fun object => name object == n) := by
  induction objects generalizing named with
  | nil =>
    cases h
    exact ⟨hsorted, by simp, by simp, fun n => by simp⟩
  | cons object rest ih =>
    rw [List.foldlM_cons] at h
    by_cases hseen : (named.lookup (name object)).isSome = true
    · rw [if_pos hseen] at h
      cases h
    · rw [if_neg hseen, ok_bind] at h
      have hfresh : named.lookup (name object) = none :=
        Option.not_isSome_iff_eq_none.mp hseen
      obtain ⟨hs, hnodup, hnone, hlookup⟩ := ih (OrderedMap.sorted_insert _ _ hsorted) h
      have hother : ∀ other ∈ rest, name other ≠ name object ∧ named.lookup (name other) = none := by
        intro other ho
        have hn := hnone other ho
        rw [OrderedMap.lookup_insert] at hn
        by_cases heq : name other = name object
        · simp [heq] at hn
        · rw [if_neg heq] at hn
          exact ⟨heq, hn⟩
      refine ⟨hs, ?_, ?_, ?_⟩
      · rw [List.map_cons, List.nodup_cons]
        refine ⟨?_, hnodup⟩
        intro hmem
        obtain ⟨other, ho, hname⟩ := List.mem_map.mp hmem
        exact (hother other ho).1 hname
      · intro other ho
        rcases List.mem_cons.mp ho with rfl | ho
        · exact hfresh
        · exact (hother other ho).2
      · intro n
        rw [hlookup, OrderedMap.lookup_insert, List.find?_cons]
        by_cases hn : n = name object
        · subst hn
          simp [hfresh]
        · have hne : (name object == n) = false := beq_false_of_ne (Ne.symm hn)
          rw [if_neg hn, hne]

/-- The entries of a name map, said on the list it was built from. -/
structure Names {α : Type} (name : α → String) (objects : List α)
    (entries : List (String × α)) : Prop where
  nodup : (objects.map name).Nodup
  lookup : ∀ n, entries.lookup n = objects.find? fun object => name object == n
  mem : ∀ n object, (n, object) ∈ entries ↔ object ∈ objects ∧ name object = n

theorem namedObjects_ok {α : Type} {kind : String} {name : α → String} {objects : List α}
    {entries : List (String × α)} (h : namedObjects objects kind name = .ok entries) :
    Names name objects entries := by
  obtain ⟨hsorted, hnodup, -, hlookup⟩ := namedObjects_fold .nil h
  have hfind : ∀ n, entries.lookup n = objects.find? fun object => name object == n := by
    intro n
    rw [hlookup]
    rfl
  refine ⟨hnodup, hfind, fun n object => ?_⟩
  rw [hsorted.mem_iff, hfind, Named.find?_eq_some_iff hnodup]

theorem namedObjects_of_nodup {α : Type} (kind : String) {name : α → String} {objects : List α}
    (hnodup : (objects.map name).Nodup) : ∃ entries, namedObjects objects kind name = .ok entries := by
  suffices h : ∀ named : List (String × α),
      (∀ object ∈ objects, named.lookup (name object) = none) →
      ∃ entries, objects.foldlM (fun named object =>
        if (named.lookup (name object)).isSome then
          (.error (.duplicateObject kind (name object)) : Except DiffError _)
        else .ok (OrderedMap.insert (name object) object named)) named = .ok entries from
    h [] (by simp)
  induction objects with
  | nil => exact fun named _ => ⟨named, rfl⟩
  | cons object rest ih =>
    intro named hfresh
    rw [List.map_cons, List.nodup_cons] at hnodup
    rw [List.foldlM_cons, hfresh object (by simp), if_neg (by simp), ok_bind]
    refine ih hnodup.2 _ fun other ho => ?_
    have hne : name other ≠ name object := by
      intro heq
      exact hnodup.1 (heq ▸ List.mem_map_of_mem ho)
    rw [OrderedMap.lookup_insert, if_neg hne]
    exact hfresh other (by simp [ho])

/-! ## One collection -/

section Collection
variable {α : Type} [DecidableEq α] {name : α → String} {toValue : α → Json.Value}
  {visible : α → Bool} {modifiedCompatibility : α → α → Compatibility}
  {before after : List α} {beforeEntries afterEntries : List (String × α)}

/-- What the absence of breaking changes keeps of a collection: an object stays as it is, changes
compatibly, or was hidden and is gone. -/
def Keeps (name : α → String) (visible : α → Bool)
    (modifiedCompatibility : α → α → Compatibility) (before after : List α) : Prop :=
  ∀ object ∈ before, match after.find? fun other => name other == name object with
    | some other => object = other ∨ modifiedCompatibility object other = .compatible
    | none => visible object = false

theorem diffNamed_compatible (hbefore : Names name before beforeEntries)
    (hafter : Names name after afterEntries) (path collection : String)
    (objectKind : SemanticObjectKind)
    (h : ∀ change ∈ diffNamed path collection objectKind toValue visible modifiedCompatibility
      beforeEntries afterEntries, change.compatibility = .compatible) :
    Keeps name visible modifiedCompatibility before after := by
  intro object ho
  have hentry : (name object, object) ∈ beforeEntries := (hbefore.mem _ _).mpr ⟨ho, rfl⟩
  have hkept : ∀ change, keptChange path collection objectKind toValue visible
      modifiedCompatibility afterEntries (name object, object) = some change →
      change.compatibility = .compatible := by
    intro change hc
    exact h change (List.mem_append_left _ (List.mem_filterMap.mpr ⟨_, hentry, hc⟩))
  simp only [keptChange, hafter.lookup] at hkept
  cases hfound : after.find? fun other => name other == name object with
  | none =>
    simp only [hfound, Option.some.injEq, forall_eq'] at hkept
    by_contra hvisible
    simp [Bool.not_eq_false _ ▸ hvisible] at hkept
  | some other =>
    by_cases hsame : object = other
    · exact Or.inl hsame
    · simp only [hfound, ne_eq, hsame, not_false_eq_true, if_true, Option.some.injEq,
        forall_eq'] at hkept
      exact Or.inr hkept

/-- A collection has no changes exactly when both lists answer every name alike. -/
theorem diffNamed_eq_nil (hbefore : Names name before beforeEntries)
    (hafter : Names name after afterEntries) (path collection : String)
    (objectKind : SemanticObjectKind) :
    diffNamed path collection objectKind toValue visible modifiedCompatibility beforeEntries
        afterEntries = [] ↔ before.Perm after := by
  have hnodup : ∀ {objects : List α}, (objects.map name).Nodup → objects.Nodup :=
    fun h => List.Nodup.of_map name h
  rw [List.perm_ext_iff_of_nodup (hnodup hbefore.nodup) (hnodup hafter.nodup), diffNamed,
    List.append_eq_nil_iff, List.filterMap_eq_nil_iff, List.filterMap_eq_nil_iff]
  constructor
  · rintro ⟨hkept, hadded⟩ object
    constructor
    · intro ho
      have hk := hkept (name object, object) ((hbefore.mem _ _).mpr ⟨ho, rfl⟩)
      simp only [keptChange, hafter.lookup] at hk
      cases hfound : after.find? fun other => name other == name object with
      | none => simp [hfound] at hk
      | some other =>
        simp only [hfound, ne_eq, ite_not, ite_eq_left_iff, reduceCtorEq, imp_false,
          not_not] at hk
        rw [hk]
        exact List.mem_of_find?_eq_some hfound
    · intro ho
      have ha := hadded (name object, object) ((hafter.mem _ _).mpr ⟨ho, rfl⟩)
      simp only [addedChange, hbefore.lookup, ite_eq_left_iff, reduceCtorEq, imp_false,
        not_not] at ha
      obtain ⟨other, hother⟩ := Option.isSome_iff_exists.mp ha
      obtain ⟨hmem, hname⟩ := (Named.find?_eq_some_iff hbefore.nodup).mp hother
      have hk := hkept (name other, other) ((hbefore.mem _ _).mpr ⟨hmem, rfl⟩)
      have hfound := (Named.find?_eq_some_iff hafter.nodup).mpr ⟨ho, hname.symm⟩
      simp only [keptChange, hafter.lookup, hfound, ne_eq, ite_not, ite_eq_left_iff, reduceCtorEq,
        imp_false, not_not] at hk
      rw [← hk]
      exact hmem
  · intro hmem
    refine ⟨?_, ?_⟩
    · rintro ⟨n, object⟩ he
      obtain ⟨ho, rfl⟩ := (hbefore.mem _ _).mp he
      have hfound := (Named.find?_eq_some_iff hafter.nodup).mpr ⟨(hmem object).mp ho, rfl⟩
      simp [keptChange, hafter.lookup, hfound]
    · rintro ⟨n, object⟩ he
      obtain ⟨ho, rfl⟩ := (hafter.mem _ _).mp he
      have hfound := (Named.find?_eq_some_iff hbefore.nodup).mpr ⟨(hmem object).mpr ho, rfl⟩
      simp [addedChange, hbefore.lookup, hfound]

end Collection

theorem Keeps.perm {α : Type} {name : α → String} {visible : α → Bool}
    {modifiedCompatibility : α → α → Compatibility} {before before' after after' : List α}
    (hbefore : before.Perm before') (hafter : after.Perm after') (hnodup : (after.map name).Nodup)
    (h : Keeps name visible modifiedCompatibility before after) :
    Keeps name visible modifiedCompatibility before' after' := by
  intro object ho
  rw [← Named.find?_perm hnodup hafter]
  exact h object (hbefore.mem_iff.mpr ho)

/-! ## Whole snapshots -/

structure Model.UniqueNames (model : Model) : Prop where
  fields : (model.fields.map Field.semanticName).Nodup
  metrics : (model.metrics.map Metric.semanticName).Nodup
  relationships : (model.relationships.map Relationship.semanticName).Nodup

structure SemanticSnapshot.UniqueNames (snapshot : SemanticSnapshot) : Prop where
  models : (snapshot.models.map Model.semanticName).Nodup
  each : ∀ model ∈ snapshot.models, model.UniqueNames

theorem validateVersion_ok {snapshot : SemanticSnapshot} {u : Unit}
    (h : validateVersion snapshot = .ok u) : snapshot.UniqueNames := by
  simp only [validateVersion, bind_eq_ok, ensure_eq_ok, exists_const, forEach_eq_ok] at h
  obtain ⟨-, models, hmodels, hforEach⟩ := h
  refine ⟨(namedObjects_ok hmodels).nodup, fun model hm => ?_⟩
  have hmodel := hforEach model hm
  simp only [validateModelNames, bind_eq_ok] at hmodel
  obtain ⟨fields, hfields, metrics, hmetrics, relationships, hrelationships, -⟩ := hmodel
  exact ⟨(namedObjects_ok hfields).nodup, (namedObjects_ok hmetrics).nodup,
    (namedObjects_ok hrelationships).nodup⟩

theorem sortByKeys_perm {α : Type} (keys : α → List String) (items : List α) :
    (sortByKeys keys items).Perm items := List.perm_insertionSort _ items

theorem mem_normalized {snapshot : SemanticSnapshot} {model : Model} :
    model ∈ snapshot.normalized.models ↔
      ∃ original ∈ snapshot.models, original.normalized = model := by
  simp only [SemanticSnapshot.normalized, List.mem_map, (sortByKeys_perm _ _).mem_iff]

theorem Model.UniqueNames.normalized {model : Model} (h : model.UniqueNames) :
    model.normalized.UniqueNames :=
  ⟨((sortByKeys_perm _ _).map _).nodup_iff.mpr h.fields,
    ((sortByKeys_perm _ _).map _).nodup_iff.mpr h.metrics,
    ((sortByKeys_perm _ _).map _).nodup_iff.mpr h.relationships⟩

theorem modelMetadata_eq_iff {before after : Model} :
    modelMetadata before = modelMetadata after ↔
      before.source = after.source ∧ before.timezone = after.timezone ∧
        before.queryable = after.queryable ∧ before.writable = after.writable := by
  have hwritable : (nullableValue WritableModel.toValue).Injective :=
    nullableValue_injective WritableModel.toValue_injective (by simp [WritableModel.toValue])
  have htimezone : (nullableValue Json.Value.string).Injective :=
    nullableValue_injective string_injective (by simp)
  simp only [modelMetadata, Json.Value.object.injEq, List.cons.injEq, Prod.mk.injEq,
    Json.Value.boolean.injEq, true_and, and_true, Relation.toValue_injective.eq_iff,
    htimezone.eq_iff, hwritable.eq_iff]

/-- What the absence of breaking changes keeps of a model. -/
structure ModelKept (before after : Model) : Prop where
  source : before.source = after.source
  timezone : before.timezone = after.timezone
  queryable : before.queryable = true → after.queryable = true
  fields : Keeps Field.semanticName Field.visible fieldCompatibility before.fields after.fields
  metrics : Keeps Metric.semanticName Metric.visible metricCompatibility before.metrics
    after.metrics
  relationships : Keeps Relationship.semanticName (fun _ => true) (fun _ _ => .breaking)
    before.relationships after.relationships

theorem metadataChange_compatible {path : String} {before after : Model}
    (h : ∀ change ∈ metadataChange path before after, change.compatibility = .compatible) :
    before.source = after.source ∧ before.timezone = after.timezone ∧
      (before.queryable = true → after.queryable = true) := by
  unfold metadataChange at h
  by_cases hsame : modelMetadata before = modelMetadata after
  · obtain ⟨hsource, htimezone, hqueryable, -⟩ := modelMetadata_eq_iff.mp hsame
    exact ⟨hsource, htimezone, fun hq => hqueryable ▸ hq⟩
  · rw [if_pos hsame] at h
    have hcompatible := h _ (List.mem_singleton_self _)
    simp only [modelCompatibility, ite_eq_right_iff, reduceCtorEq, imp_false, not_or,
      Decidable.not_not] at hcompatible
    obtain ⟨hsource, htimezone, hqueryable, -⟩ := hcompatible
    refine ⟨hsource, htimezone, fun hq => ?_⟩
    simpa [hq] using hqueryable

theorem diffModel_compatible {after : List (String × Model)} {entry : String × Model}
    {changes : List SemanticChange} (h : diffModel after entry = .ok changes)
    (hcompatible : ∀ change ∈ changes, change.compatibility = .compatible) :
    ∃ model, after.lookup entry.1 = some model ∧ ModelKept entry.2 model := by
  unfold diffModel at h
  cases hfound : after.lookup entry.1 with
  | none =>
    simp only [hfound, pure_eq_ok] at h
    subst h
    exact absurd (hcompatible _ (List.mem_singleton_self _)) (by simp)
  | some model =>
    simp only [hfound, diffFields, diffMetrics, diffRelationships, bind_eq_ok, pure_eq_ok] at h
    obtain ⟨_, ⟨fields, hf, fields', hf', rfl⟩, _, ⟨metrics, hm, metrics', hm', rfl⟩, _,
      ⟨relationships, hr, relationships', hr', rfl⟩, rfl⟩ := h
    simp only [List.append_assoc, List.forall_mem_append] at hcompatible
    obtain ⟨hmeta, hfields, hmetrics, hrelationships⟩ := hcompatible
    obtain ⟨hsource, htimezone, hqueryable⟩ := metadataChange_compatible hmeta
    exact ⟨model, rfl, hsource, htimezone, hqueryable,
      diffNamed_compatible (namedObjects_ok hf) (namedObjects_ok hf') _ _ _ hfields,
      diffNamed_compatible (namedObjects_ok hm) (namedObjects_ok hm') _ _ _ hmetrics,
      diffNamed_compatible (namedObjects_ok hr) (namedObjects_ok hr') _ _ _ hrelationships⟩

theorem summarize_compatible {before after : SemanticSnapshot} {changes : List SemanticChange} :
    (summarize before after changes).compatibility = .compatible ↔
      ∀ change ∈ changes, change.compatibility = .compatible := by
  have hcases : ∀ compatibility : Compatibility,
      compatibility ≠ .breaking ↔ compatibility = .compatible := by
    intro compatibility
    cases compatibility <;> simp
  simp only [summarize, ite_eq_left_iff, reduceCtorEq, imp_false, not_not, List.length_eq_zero_iff,
    List.filter_eq_nil_iff, beq_iff_eq]
  exact forall₂_congr fun change _ => hcases change.compatibility

theorem mem_sortChanges {change : SemanticChange} {changes : List SemanticChange} :
    change ∈ sortChanges changes ↔ change ∈ changes := (List.perm_insertionSort _ _).mem_iff

/-- A diff without breaking changes keeps every model of the first snapshot. -/
theorem diffSnapshots_compatible {before after : SemanticSnapshot} {diff : SemanticDiff}
    (h : diffSnapshots before after = .ok diff) (hcompatible : diff.compatibility = .compatible) :
    before.UniqueNames ∧ after.UniqueNames ∧ ∀ model ∈ before.models, ∃ model' ∈ after.models,
      model'.semanticName = model.semanticName ∧ ModelKept model model' := by
  simp only [diffSnapshots, bind_eq_ok, pure_eq_ok] at h
  obtain ⟨_, hbefore, _, hafter, beforeModels, hbm, afterModels, ham, changed, hchanged, rfl⟩ := h
  have hunique := validateVersion_ok hbefore
  have hunique' := validateVersion_ok hafter
  refine ⟨hunique, hunique', fun model hm => ?_⟩
  rw [summarize_compatible] at hcompatible
  have hentry : (model.semanticName, model.normalized) ∈ beforeModels :=
    ((namedObjects_ok hbm).mem _ _).mpr ⟨mem_normalized.mpr ⟨model, hm, rfl⟩, rfl⟩
  obtain ⟨changes, hmem, hdiff⟩ := exists_right_of_forall₂ (mapM_eq_ok_iff.mp hchanged) hentry
  have hall : ∀ change ∈ changes, change.compatibility = .compatible := fun change hc =>
    hcompatible change (mem_sortChanges.mpr
      (List.mem_append_left _ (List.mem_flatten.mpr ⟨changes, hmem, hc⟩)))
  obtain ⟨kept, hlookup, hkept⟩ := diffModel_compatible hdiff hall
  rw [(namedObjects_ok ham).lookup, Named.find?_eq_some_iff (namedObjects_ok ham).nodup] at hlookup
  obtain ⟨model', hm', rfl⟩ := mem_normalized.mp hlookup.1
  have hnames := (hunique'.each model' hm').normalized
  exact ⟨model', hm', hlookup.2, hkept.source, hkept.timezone, hkept.queryable,
    hkept.fields.perm (sortByKeys_perm _ _) (sortByKeys_perm _ _) hnames.fields,
    hkept.metrics.perm (sortByKeys_perm _ _) (sortByKeys_perm _ _) hnames.metrics,
    hkept.relationships.perm (sortByKeys_perm _ _) (sortByKeys_perm _ _) hnames.relationships⟩

end Postgresem
