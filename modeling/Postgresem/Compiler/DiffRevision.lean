import Postgresem.Compiler.Revision

/-! The diff and the revision hash. The diff compares objects as the program holds them, the hash
is over their serialized form: they disagree on `nullable`, which is not serialized, and on the
schema version, which is no object. -/
namespace Postgresem
open Control

theorem metadataChange_eq_nil {path : String} {before after : Model} :
    metadataChange path before after = [] ↔
      before.source = after.source ∧ before.timezone = after.timezone ∧
        before.queryable = after.queryable ∧ before.writable = after.writable := by
  rw [← modelMetadata_eq_iff, metadataChange]
  by_cases h : modelMetadata before = modelMetadata after
  · simp [h]
  · simp [h]

/-- One model has no changes exactly when the other snapshot has the same model. -/
theorem diffModel_eq_nil {before : Model} (hnames : before.UniqueNames) {after : List (String × Model)}
    (hafter : ∀ name model, after.lookup name = some model → model.semanticName = name ∧
      ∃ original : Model, original.normalized = model)
    {changes : List SemanticChange}
    (h : diffModel after (before.semanticName, before.normalized) = .ok changes) :
    changes = [] ↔ after.lookup before.semanticName = some before.normalized := by
  unfold diffModel at h
  cases hfound : after.lookup before.semanticName with
  | none =>
    simp only [hfound, pure_eq_ok] at h
    subst h
    simp
  | some model =>
    obtain ⟨hname, original, rfl⟩ := hafter _ _ hfound
    simp only [hfound, diffFields, diffMetrics, diffRelationships, bind_eq_ok, pure_eq_ok] at h
    obtain ⟨_, ⟨fields, hf, fields', hf', rfl⟩, _, ⟨metrics, hm, metrics', hm', rfl⟩, _,
      ⟨relationships, hr, relationships', hr', rfl⟩, rfl⟩ := h
    rw [List.append_eq_nil_iff, List.append_eq_nil_iff, List.append_eq_nil_iff,
      metadataChange_eq_nil, diffNamed_eq_nil (namedObjects_ok hf) (namedObjects_ok hf'),
      diffNamed_eq_nil (namedObjects_ok hm) (namedObjects_ok hm'),
      diffNamed_eq_nil (namedObjects_ok hr) (namedObjects_ok hr'), Option.some.injEq]
    constructor
    · rintro ⟨⟨⟨⟨hsource, htimezone, hqueryable, hwritable⟩, hfields⟩, hmetrics⟩, hrelationships⟩
      have hsorted : ∀ {α : Type} {keys : α → List String} {xs ys : List α},
          (∀ x ∈ xs, ∀ y ∈ xs, keys x = keys y → x = y) →
          (sortByKeys keys xs).Perm (sortByKeys keys ys) →
          sortByKeys keys ys = sortByKeys keys xs := by
        intro α keys xs ys hkeys hperm
        exact (sortByKeys_eq_of_perm hkeys ((sortByKeys_perm keys xs).symm.trans
          (hperm.trans (sortByKeys_perm keys ys)))).symm
      simp only [Model.normalized, Model.mk.injEq]
      exact ⟨hname, hsource.symm, htimezone.symm, hqueryable.symm, hwritable.symm,
        hsorted (keys_injOn (fun _ => []) hnames.fields) hfields,
        hsorted (keys_injOn (fun _ => []) hnames.metrics) hmetrics,
        hsorted (keys_injOn (fun relationship => [relationship.targetModel])
          hnames.relationships) hrelationships⟩
    · intro heq
      rw [heq]
      exact ⟨⟨⟨⟨rfl, rfl, rfl, rfl⟩, .refl _⟩, .refl _⟩, .refl _⟩

theorem mapM_flatten_eq_nil {α β : Type} {f : α → Except DiffError (List β)} {xs : List α}
    {ys : List (List β)} (h : xs.mapM f = .ok ys) :
    ys.flatten = [] ↔ ∀ x ∈ xs, f x = .ok [] := by
  have hpairs := mapM_eq_ok_iff.mp h
  rw [List.flatten_eq_nil_iff]
  constructor
  · intro hnil x hx
    obtain ⟨y, hy, hfx⟩ := exists_right_of_forall₂ hpairs hx
    rw [hfx, hnil y hy]
  · intro hall y hy
    obtain ⟨x, hx, hfx⟩ := exists_left_of_forall₂ hpairs hy
    rw [hall x hx] at hfx
    exact (Except.ok.inj hfx).symm

/-- A diff has no changes exactly when the two normal forms have the same models. -/
theorem diffSnapshots_eq_nil {before after : SemanticSnapshot} {diff : SemanticDiff}
    (h : diffSnapshots before after = .ok diff) :
    diff.changes = [] ↔ before.normalized.models = after.normalized.models := by
  simp only [diffSnapshots, bind_eq_ok, pure_eq_ok] at h
  obtain ⟨_, hbefore, _, hafter, beforeModels, hbm, afterModels, ham, changed, hchanged, rfl⟩ := h
  have hunique := validateVersion_ok hbefore
  have hbn := namedObjects_ok hbm
  have han := namedObjects_ok ham
  have hentry : ∀ name model, afterModels.lookup name = some model →
      model.semanticName = name ∧ ∃ original : Model, original.normalized = model := by
    intro name model hfound
    rw [han.lookup, Named.find?_eq_some_iff han.nodup] at hfound
    obtain ⟨original, -, horiginal⟩ := mem_normalized.mp hfound.1
    exact ⟨hfound.2, original, horiginal⟩
  have hsorted : ∀ changes : List SemanticChange, sortChanges changes = [] ↔ changes = [] := by
    intro changes
    rw [← List.length_eq_zero_iff, sortChanges, List.length_insertionSort, List.length_eq_zero_iff]
  have hchanges : (summarize before.normalized after.normalized (sortChanges (changed.flatten ++
      afterModels.filterMap (addedModel beforeModels)))).changes = [] ↔
      (∀ model ∈ before.models,
        afterModels.lookup model.semanticName = some model.normalized) ∧
      ∀ model ∈ after.normalized.models, (beforeModels.lookup model.semanticName).isSome = true := by
    rw [summarize, hsorted, List.append_eq_nil_iff, mapM_flatten_eq_nil hchanged,
      List.filterMap_eq_nil_iff]
    refine and_congr ?_ ?_
    · constructor
      · intro hall model hm
        have hmem : (model.semanticName, model.normalized) ∈ beforeModels :=
          (hbn.mem _ _).mpr ⟨mem_normalized.mpr ⟨model, hm, rfl⟩, rfl⟩
        exact (diffModel_eq_nil (hunique.each model hm) hentry (hall _ hmem)).mp rfl
      · rintro hall ⟨name, model⟩ hmem
        obtain ⟨hnormal, rfl⟩ := (hbn.mem _ _).mp hmem
        obtain ⟨original, ho, rfl⟩ := mem_normalized.mp hnormal
        obtain ⟨changes, -, hdiff⟩ := exists_right_of_forall₂ (mapM_eq_ok_iff.mp hchanged) hmem
        have hnil := (diffModel_eq_nil (hunique.each original ho) hentry hdiff).mpr
          (hall original ho)
        rw [hdiff, hnil]
    · constructor
      · intro hall model hm
        have hnone := hall (model.semanticName, model) ((han.mem _ _).mpr ⟨hm, rfl⟩)
        simpa [addedModel] using hnone
      · rintro hall ⟨name, model⟩ hmem
        obtain ⟨hm, rfl⟩ := (han.mem _ _).mp hmem
        simp [addedModel, hall model hm]
  rw [hchanges]
  constructor
  · rintro ⟨hkept, hadded⟩
    have hsubset : ∀ model ∈ before.normalized.models, model ∈ after.normalized.models := by
      intro model hm
      obtain ⟨original, ho, rfl⟩ := mem_normalized.mp hm
      have hfound := hkept original ho
      rw [han.lookup, Named.find?_eq_some_iff han.nodup] at hfound
      exact hfound.1
    have hperm : before.normalized.models.Perm after.normalized.models := by
      rw [List.perm_ext_iff_of_nodup (.of_map _ hbn.nodup) (.of_map _ han.nodup)]
      refine fun model => ⟨hsubset model, fun hm => ?_⟩
      obtain ⟨other, hother⟩ := Option.isSome_iff_exists.mp (hadded model hm)
      rw [hbn.lookup, Named.find?_eq_some_iff hbn.nodup] at hother
      rw [← List.inj_on_of_nodup_map han.nodup (hsubset other hother.1) hm hother.2]
      exact hother.1
    rw [normalized_models, normalized_models] at hperm ⊢
    refine sortByKeys_eq_of_perm (keys_injOn _ ?_)
      ((sortByKeys_perm _ _).symm.trans (hperm.trans (sortByKeys_perm _ _)))
    rw [List.map_map]
    exact hunique.models
  · intro heq
    refine ⟨fun model hm => ?_, fun model hm => ?_⟩
    · rw [han.lookup, Named.find?_eq_some_iff han.nodup, ← heq]
      exact ⟨mem_normalized.mpr ⟨model, hm, rfl⟩, rfl⟩
    · rw [← heq] at hm
      rw [hbn.lookup, (Named.find?_eq_some_iff hbn.nodup).mpr ⟨hm, rfl⟩]
      rfl

/-- Equal revision hashes say that the schema versions are equal and the normal forms differ in
`nullable` at most. -/
theorem revisionHash_eq_iff {backend : HashBackend} (hfaithful : backend.Faithful)
    {before after : SemanticSnapshot}
    (hbefore : before.calculateRevisionHash backend = some before.revisionHash)
    (hafter : after.calculateRevisionHash backend = some after.revisionHash)
    (hseparates : backend.SeparatesRevisions before after) :
    before.revisionHash = after.revisionHash ↔
      before.schemaVersion = after.schemaVersion ∧
        before.normalized.hashed.models = after.normalized.hashed.models := by
  constructor
  · intro heq
    rw [heq] at hbefore
    exact normalized_hashed_of_revisionHash_eq hfaithful hbefore hafter hseparates
  · rintro ⟨hversion, hmodels⟩
    have hsame : ({ before.normalized with revisionHash := "" } : SemanticSnapshot).hashed =
        ({ after.normalized with revisionHash := "" } : SemanticSnapshot).hashed := by
      simp only [SemanticSnapshot.hashed, SemanticSnapshot.mk.injEq, true_and]
      exact ⟨hversion, hmodels⟩
    rw [SemanticSnapshot.calculateRevisionHash, ← hfaithful.skips, hsame, hfaithful.skips,
      ← SemanticSnapshot.calculateRevisionHash, hafter] at hbefore
    exact (Option.some.inj hbefore).symm

/-- The diff and the revision hash agree exactly when two snapshots that are the same up to
`nullable` differ in `nullable` if and only if they differ in schema version. -/
theorem diff_agrees_with_hash_iff {backend : HashBackend} (hfaithful : backend.Faithful)
    {before after : SemanticSnapshot} {diff : SemanticDiff}
    (hdiff : diffSnapshots before after = .ok diff)
    (hbefore : before.calculateRevisionHash backend = some before.revisionHash)
    (hafter : after.calculateRevisionHash backend = some after.revisionHash)
    (hseparates : backend.SeparatesRevisions before after) :
    (diff.changes = [] ↔ before.revisionHash = after.revisionHash) ↔
      (before.normalized.hashed.models = after.normalized.hashed.models →
        (before.normalized.models = after.normalized.models ↔
          before.schemaVersion = after.schemaVersion)) := by
  have hhashed : before.normalized.models = after.normalized.models →
      before.normalized.hashed.models = after.normalized.hashed.models := by
    intro heq
    rw [SemanticSnapshot.hashed, SemanticSnapshot.hashed, heq]
  rw [diffSnapshots_eq_nil hdiff, revisionHash_eq_iff hfaithful hbefore hafter hseparates]
  tauto

/-- An added margin is reported, and the revision hash changes. -/
theorem diff_agrees_on_margin : ∃ diff, diffSnapshots openSnapshot marginSnapshot = .ok diff ∧
    (diff.changes = [] ↔ openSnapshot.revisionHash = marginSnapshot.revisionHash) := by
  have hok : succeedsWith (diffSnapshots openSnapshot marginSnapshot) (fun _ => true) = true := by
    decide +kernel
  obtain ⟨diff, hdiff, -⟩ := exists_ok_of_succeedsWith hok
  have hopen := calculateRevisionHash_of_checkSnapshot openSnapshot_checked
  have hmargin := calculateRevisionHash_of_checkSnapshot marginSnapshot_checked
  have hdiffer : openSnapshot.revisionHash ≠ marginSnapshot.revisionHash := by decide
  refine ⟨diff, hdiff, (diff_agrees_with_hash_iff standardHash_faithful hdiff hopen hmargin
    ?_).mpr ?_⟩
  · intro bytes bytes' hbytes hbytes' hdigest
    refine absurd ?_ hdiffer
    rw [SemanticSnapshot.calculateRevisionHash, hbytes] at hopen
    rw [SemanticSnapshot.calculateRevisionHash, hbytes'] at hmargin
    rw [← Option.some.inj hopen, ← Option.some.inj hmargin, HashBackend.sha256, hdigest,
      HashBackend.sha256]
  · intro hmodels
    revert hmodels
    decide +kernel

/-- The same revision hash, and yet a breaking change is reported: the diff sees `nullable`. -/
theorem nullable_change_is_breaking : ∃ diff,
    diffSnapshots marginSnapshot requiredSnapshot = .ok diff ∧
      marginSnapshot.calculateRevisionHash standardHash = some marginSnapshot.revisionHash ∧
      requiredSnapshot.calculateRevisionHash standardHash = some requiredSnapshot.revisionHash ∧
      marginSnapshot.revisionHash = requiredSnapshot.revisionHash ∧
      diff.changes ≠ [] ∧ diff.compatibility = .breaking := by
  have hok : succeedsWith (diffSnapshots marginSnapshot requiredSnapshot) (fun diff =>
      decide (diff.changes.length ≠ 0 ∧ diff.compatibility = .breaking)) = true := by
    decide +kernel
  obtain ⟨diff, hdiff, hbreaking⟩ := exists_ok_of_succeedsWith hok
  obtain ⟨hlength, hcompatibility⟩ := of_decide_eq_true hbreaking
  have hmargin := calculateRevisionHash_of_checkSnapshot marginSnapshot_checked
  refine ⟨diff, hdiff, hmargin, hmargin, rfl, ?_, hcompatibility⟩
  intro hnil
  rw [hnil] at hlength
  exact hlength rfl

end Postgresem
