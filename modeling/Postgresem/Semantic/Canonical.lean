import Postgresem.Semantic.DiffReport
import Postgresem.Semantic.Serialization

/-! The canonical order. Snapshots that list the same objects in different orders have the same
normal form, and a normal form determines the objects of each collection. -/
namespace Postgresem
open Control Named

theorem sortByKeys_eq_of_perm {α : Type} {keys : α → List String} {xs ys : List α}
    (hkeys : ∀ x ∈ xs, ∀ y ∈ xs, keys x = keys y → x = y) (h : xs.Perm ys) :
    sortByKeys keys xs = sortByKeys keys ys := by
  have htotal : Std.Total fun left right : α => keys left ≤ keys right := ⟨fun a b => le_total _ _⟩
  have htrans : IsTrans α fun left right => keys left ≤ keys right := ⟨fun a b c => le_trans⟩
  have hperm : (sortByKeys keys xs).Perm (sortByKeys keys ys) :=
    (sortByKeys_perm keys xs).trans (h.trans (sortByKeys_perm keys ys).symm)
  refine hperm.eq_of_pairwise ?_ (List.pairwise_insertionSort _ xs)
    (List.pairwise_insertionSort _ ys)
  intro a b ha hb hab hba
  exact hkeys a ((sortByKeys_perm keys xs).mem_iff.mp ha) b
    (h.mem_iff.mpr ((sortByKeys_perm keys ys).mem_iff.mp hb)) (le_antisymm hab hba)

theorem map_sortByKeys {α β : Type} {f : α → β} {keys : α → List String} {keys' : β → List String}
    (h : ∀ x, keys' (f x) = keys x) (xs : List α) :
    (sortByKeys keys xs).map f = sortByKeys keys' (xs.map f) := by
  refine List.map_insertionSort _ _ f xs fun a _ b _ => ?_
  rw [h, h]

/-- Distinct names make the sort keys that start with them distinct. -/
theorem keys_injOn {α : Type} {name : α → String} {xs : List α} (rest : α → List String)
    (hnodup : (xs.map name).Nodup) :
    ∀ x ∈ xs, ∀ y ∈ xs, name x :: rest x = name y :: rest y → x = y := by
  intro x hx y hy h
  exact List.inj_on_of_nodup_map hnodup hx hy (List.cons.inj h).1

/-! ## Permuted snapshots -/

structure WritableModel.Permuted (writable writable' : WritableModel) : Prop where
  rest : { writable with fields := [], upsert := none } =
    { writable' with fields := [], upsert := none }
  fields : writable.fields.Perm writable'.fields
  upsert : Option.Rel (fun policy policy' => policy.conflictFields.Perm policy'.conflictFields)
    writable.upsert writable'.upsert

structure Model.Permuted (model model' : Model) : Prop where
  rest : { model with fields := [], metrics := [], relationships := [], writable := none } =
    { model' with fields := [], metrics := [], relationships := [], writable := none }
  fields : model.fields.Perm model'.fields
  metrics : model.metrics.Perm model'.metrics
  relationships : model.relationships.Perm model'.relationships
  writable : Option.Rel WritableModel.Permuted model.writable model'.writable

/-- The second snapshot lists the objects of the first in another order: the models, and within
each model its fields, metrics, relationships, writable fields and conflict fields. -/
structure SemanticSnapshot.Permuted (snapshot snapshot' : SemanticSnapshot) : Prop where
  rest : { snapshot with models := [] } = { snapshot' with models := [] }
  models : Matched Model.Permuted snapshot.models snapshot'.models

/-- The names that the database keeps unique. -/
structure SemanticSnapshot.Distinct (snapshot : SemanticSnapshot) : Prop
    extends SemanticSnapshot.UniqueNames snapshot where
  writable : ∀ model ∈ snapshot.models, ∀ writable, model.writable = some writable →
    (writable.fields.map WritableField.field).Nodup

theorem WritableModel.Permuted.normalized_eq {writable writable' : WritableModel}
    (h : writable.Permuted writable') (hnodup : (writable.fields.map WritableField.field).Nodup) :
    writable.normalized = writable'.normalized := by
  have hrest := h.rest
  simp only [WritableModel.mk.injEq] at hrest
  have hfields : sortByKeys (fun field => [field.field]) writable.fields =
      sortByKeys (fun field => [field.field]) writable'.fields :=
    sortByKeys_eq_of_perm (keys_injOn (fun _ => []) hnodup) h.fields
  have hupsert : writable.normalized.upsert = writable'.normalized.upsert := by
    have hrel := h.upsert
    simp only [WritableModel.normalized]
    generalize writable.upsert = upsert at hrel
    generalize writable'.upsert = upsert' at hrel
    cases hrel with
    | none => rfl
    | some hperm =>
      have hkeys : ∀ x y : String, [x] = [y] → x = y := fun x y hxy => (List.cons.inj hxy).1
      have hsorted := sortByKeys_eq_of_perm (fun x _ y _ => hkeys x y) hperm
      simp only [Option.map_some, hsorted]
  simp only [WritableModel.normalized] at hupsert
  simp only [WritableModel.normalized, WritableModel.mk.injEq]
  exact ⟨hrest.1, hupsert, hrest.2.2.1, hrest.2.2.2.1, hfields, hrest.2.2.2.2.2⟩

theorem Model.Permuted.normalized_eq {model model' : Model} (h : model.Permuted model')
    (hnames : model.UniqueNames) (hwritable : ∀ writable, model.writable = some writable →
      (writable.fields.map WritableField.field).Nodup) : model.normalized = model'.normalized := by
  have hrest := h.rest
  simp only [Model.mk.injEq] at hrest
  have hoption : model.writable.map WritableModel.normalized =
      model'.writable.map WritableModel.normalized := by
    have hrel := h.writable
    generalize model.writable = writable at hrel hwritable
    generalize model'.writable = writable' at hrel
    cases hrel with
    | none => rfl
    | some hpermuted =>
      rw [Option.map_some, Option.map_some, hpermuted.normalized_eq (hwritable _ rfl)]
  simp only [Model.normalized, Model.mk.injEq]
  exact ⟨hrest.1, hrest.2.1, hrest.2.2.1, hrest.2.2.2.1, hoption,
    sortByKeys_eq_of_perm (keys_injOn (fun _ => []) hnames.fields) h.fields,
    sortByKeys_eq_of_perm (keys_injOn (fun _ => []) hnames.metrics) h.metrics,
    sortByKeys_eq_of_perm
      (keys_injOn (fun relationship => [relationship.targetModel]) hnames.relationships)
      h.relationships⟩

/-- Sorting the models and putting each in order are independent. -/
theorem normalized_models (snapshot : SemanticSnapshot) :
    snapshot.normalized.models = sortByKeys
      (fun model => [model.semanticName, model.source.schema, model.source.relation])
      (snapshot.models.map Model.normalized) := by
  apply map_sortByKeys
  intro model
  rfl

/-- Permuted snapshots have one normal form. -/
theorem SemanticSnapshot.Permuted.normalized_eq {snapshot snapshot' : SemanticSnapshot}
    (h : snapshot.Permuted snapshot') (hnames : snapshot.Distinct) :
    snapshot.normalized = snapshot'.normalized := by
  have hrest := h.rest
  simp only [SemanticSnapshot.mk.injEq, and_true] at hrest
  obtain ⟨models, hmodels, hperm⟩ := h.models
  have hpointwise : snapshot.models.map Model.normalized = models.map Model.normalized := by
    rw [← List.forall₂_eq_eq_eq, List.forall₂_map_left_iff, List.forall₂_map_right_iff]
    refine ((List.forall₂_and_left _ _).mpr ⟨fun model hm => hm, hmodels⟩).imp ?_
    rintro model model' ⟨hm, hpermuted⟩
    exact hpermuted.normalized_eq (hnames.each model hm) (hnames.writable model hm)
  have hnodup : ((models.map Model.normalized).map Model.semanticName).Nodup := by
    rw [← hpointwise, List.map_map]
    exact hnames.models
  have hsorted : snapshot.normalized.models = snapshot'.normalized.models := by
    rw [normalized_models, normalized_models, hpointwise]
    exact sortByKeys_eq_of_perm (keys_injOn _ hnodup) (hperm.map _)
  simp only [SemanticSnapshot.normalized] at hsorted
  simp only [SemanticSnapshot.normalized, SemanticSnapshot.mk.injEq]
  exact ⟨hrest.1, hrest.2, hsorted⟩

/-! ## Normal forms of normal forms -/

theorem sortByKeys_idempotent {α : Type} (keys : α → List String) (xs : List α) :
    sortByKeys keys (sortByKeys keys xs) = sortByKeys keys xs := by
  have htotal : Std.Total fun left right : α => keys left ≤ keys right := ⟨fun a b => le_total _ _⟩
  have htrans : IsTrans α fun left right => keys left ≤ keys right := ⟨fun a b c => le_trans⟩
  exact (List.pairwise_insertionSort (fun left right => keys left ≤ keys right) xs).insertionSort_eq

theorem WritableModel.normalized_idempotent (writable : WritableModel) :
    writable.normalized.normalized = writable.normalized := by
  obtain ⟨insert, upsert, maxRows, maxRequestBytes, fields, returning⟩ := writable
  cases upsert <;> simp [WritableModel.normalized, sortByKeys_idempotent]

theorem Model.normalized_idempotent (model : Model) : model.normalized.normalized = model.normalized := by
  obtain ⟨semanticName, source, timezone, queryable, writable, fields, metrics, relationships⟩ := model
  cases writable <;>
    simp [Model.normalized, sortByKeys_idempotent, WritableModel.normalized_idempotent]

theorem SemanticSnapshot.normalized_idempotent (snapshot : SemanticSnapshot) :
    snapshot.normalized.normalized = snapshot.normalized := by
  have hmodels : snapshot.normalized.normalized.models = snapshot.normalized.models := by
    rw [normalized_models snapshot.normalized, normalized_models, map_sortByKeys, List.map_map]
    · rw [sortByKeys_idempotent]
      exact congrArg (sortByKeys _) (List.map_congr_left fun model _ => model.normalized_idempotent)
    · intro model
      rfl
  simp only [SemanticSnapshot.normalized] at hmodels
  simp only [SemanticSnapshot.normalized, hmodels]

theorem Model.normalized_hashed (model : Model) : model.hashed.normalized = model.normalized.hashed := by
  have hfields : (sortByKeys (fun field => [field.semanticName]) model.fields).map Field.hashed =
      sortByKeys (fun field => [field.semanticName]) (model.fields.map Field.hashed) := by
    apply map_sortByKeys
    intro field
    rfl
  simp only [Model.hashed, Model.normalized, hfields]

/-- Nullability, which is not written, has no part in the order. -/
theorem SemanticSnapshot.normalized_hashed (snapshot : SemanticSnapshot) :
    snapshot.hashed.normalized = snapshot.normalized.hashed := by
  have hmodels : snapshot.hashed.normalized.models = snapshot.normalized.hashed.models := by
    have hsort : (sortByKeys (fun model : Model => [model.semanticName, model.source.schema,
        model.source.relation]) (snapshot.models.map Model.normalized)).map Model.hashed =
        sortByKeys (fun model => [model.semanticName, model.source.schema, model.source.relation])
          ((snapshot.models.map Model.normalized).map Model.hashed) := by
      apply map_sortByKeys
      intro model
      rfl
    show _ = snapshot.normalized.models.map Model.hashed
    rw [normalized_models, normalized_models, hsort, List.map_map]
    show sortByKeys _ ((snapshot.models.map Model.hashed).map Model.normalized) = _
    rw [List.map_map]
    exact congrArg (sortByKeys _) (List.map_congr_left fun model _ => model.normalized_hashed)
  simp only [SemanticSnapshot.normalized, SemanticSnapshot.hashed] at hmodels ⊢
  rw [hmodels]

theorem SemanticSnapshot.calculateRevisionHash_hashed {backend : HashBackend}
    (hfaithful : backend.Faithful) (snapshot : SemanticSnapshot) :
    snapshot.hashed.calculateRevisionHash backend = snapshot.calculateRevisionHash backend := by
  have hskips := hfaithful.skips { snapshot.normalized with revisionHash := "" }
  rw [calculateRevisionHash, calculateRevisionHash, normalized_hashed, ← hskips]
  rfl

/-! ## What a normal form determines -/

theorem rest_eq_of_normalized_eq {snapshot snapshot' : SemanticSnapshot}
    (h : snapshot.normalized = snapshot'.normalized) :
    snapshot.schemaVersion = snapshot'.schemaVersion ∧
      snapshot.revisionHash = snapshot'.revisionHash := by
  simp only [SemanticSnapshot.normalized, SemanticSnapshot.mk.injEq] at h
  exact ⟨h.1, h.2.1⟩

/-- Two models that differ in the order of their collections and in `nullable` at most. -/
structure SameModel (model model' : Model) : Prop where
  semanticName : model.semanticName = model'.semanticName
  source : model.source = model'.source
  timezone : model.timezone = model'.timezone
  queryable : model.queryable = model'.queryable
  writable : model.writable.map WritableModel.normalized =
    model'.writable.map WritableModel.normalized
  fields : Matched (fun field field' => field.hashed = field'.hashed) model.fields model'.fields
  metrics : model.metrics.Perm model'.metrics
  relationships : model.relationships.Perm model'.relationships

theorem perm_of_sortByKeys_eq {α : Type} {keys : α → List String} {xs ys : List α}
    (h : sortByKeys keys xs = sortByKeys keys ys) : xs.Perm ys :=
  (sortByKeys_perm keys xs).symm.trans (h ▸ sortByKeys_perm keys ys)

theorem matched_of_sortByKeys_map_eq {α β : Type} {keys : α → List String} {f : α → β}
    {xs ys : List α} (h : (sortByKeys keys xs).map f = (sortByKeys keys ys).map f) :
    Matched (fun x y => f x = f y) xs ys := by
  rw [← List.forall₂_eq_eq_eq, List.forall₂_map_left_iff, List.forall₂_map_right_iff] at h
  exact .of_perm (sortByKeys_perm keys xs).symm (sortByKeys_perm keys ys).symm h

theorem sameModel_of_normalized_hashed {model model' : Model}
    (h : model.normalized.hashed = model'.normalized.hashed) : SameModel model model' := by
  simp only [Model.hashed, Model.normalized, Model.mk.injEq] at h
  obtain ⟨hname, hsource, htimezone, hqueryable, hwritable, hfields, hmetrics, hrelationships⟩ := h
  exact ⟨hname, hsource, htimezone, hqueryable, hwritable, matched_of_sortByKeys_map_eq hfields,
    perm_of_sortByKeys_eq hmetrics, perm_of_sortByKeys_eq hrelationships⟩

/-- The models of two snapshots whose normal forms differ in `nullable` at most. -/
theorem sameModels_of_normalized_hashed {snapshot snapshot' : SemanticSnapshot}
    (h : snapshot.normalized.hashed.models = snapshot'.normalized.hashed.models) :
    Matched SameModel snapshot.models snapshot'.models := by
  simp only [SemanticSnapshot.hashed, SemanticSnapshot.normalized, List.map_map] at h
  obtain ⟨models, hmodels, hperm⟩ := matched_of_sortByKeys_map_eq h
  exact ⟨models, hmodels.imp fun _ _ hsame => sameModel_of_normalized_hashed hsame, hperm⟩

/-- The digest has no collision between the texts that two revision hashes are taken over. -/
def HashBackend.SeparatesRevisions (backend : HashBackend)
    (snapshot snapshot' : SemanticSnapshot) : Prop :=
  ∀ bytes bytes',
    backend.snapshotJson { snapshot.normalized with revisionHash := "" } = some bytes →
    backend.snapshotJson { snapshot'.normalized with revisionHash := "" } = some bytes' →
    backend.digest bytes = backend.digest bytes' → bytes = bytes'

/-- Equal revision hashes come from normal forms that differ in `nullable` at most, where the
digest tells the two serialized snapshots apart. -/
theorem normalized_hashed_of_revisionHash_eq {backend : HashBackend} (hfaithful : backend.Faithful)
    {snapshot snapshot' : SemanticSnapshot} {hash : String}
    (h : snapshot.calculateRevisionHash backend = some hash)
    (h' : snapshot'.calculateRevisionHash backend = some hash)
    (hseparates : backend.SeparatesRevisions snapshot snapshot') :
    snapshot.schemaVersion = snapshot'.schemaVersion ∧
      snapshot.normalized.hashed.models = snapshot'.normalized.hashed.models := by
  obtain ⟨bytes, hbytes, hhash⟩ := Option.map_eq_some_iff.mp h
  obtain ⟨bytes', hbytes', hhash'⟩ := Option.map_eq_some_iff.mp h'
  have hdigest := HashBackend.digest_eq_of_sha256_eq (hhash.trans hhash'.symm)
  rw [← hseparates bytes bytes' hbytes hbytes' hdigest] at hbytes'
  have hsame := hfaithful.determines _ _ _ hbytes hbytes'
  simp only [SemanticSnapshot.hashed, SemanticSnapshot.mk.injEq] at hsame
  exact ⟨hsame.1, hsame.2.2⟩

end Postgresem
