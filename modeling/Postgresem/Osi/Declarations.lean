import Mathlib.Algebra.Order.Group.Multiset
import Mathlib.Data.Multiset.MapFold
import Mathlib.Data.Multiset.UnionInter
import Postgresem.Foundation.Edits
import Postgresem.Osi.Import

/-! What an import means: each item of a document declares something about one model, and a model
is what was declared about it, in no order. -/
namespace Postgresem.Osi
open Control Edits

/-- What is fixed about a model when its dataset has been read. -/
structure Ground where
  model : Model
  evidence : List (String × ImportedField)
  foreignKeys : List ImportedForeignKey

structure Declared where
  ground : Ground
  fields : Multiset Field
  metrics : Multiset Metric
  relationships : Multiset Relationship

abbrev Declarations := Edits.State String Declared (Multiset OsiImportWarning)

abbrev Change := Edit String Declared (Multiset OsiImportWarning)

/-- A model without its collections. -/
def bareModel (model : Model) : Model :=
  { model with fields := [], metrics := [], relationships := [] }

def ImportedModel.declared (entry : ImportedModel) : Declared where
  ground := ⟨bareModel entry.model, entry.fields, entry.foreignKeys⟩
  fields := entry.model.fields
  metrics := entry.model.metrics
  relationships := entry.model.relationships

def ImportState.declarations (state : ImportState) : Declarations where
  entries key := (state.imported.lookup key).map ImportedModel.declared
  log := state.warnings

theorem declarations_put (state : ImportState) (name : String) (entry : ImportedModel)
    (warnings : List OsiImportWarning) :
    (state.put name entry warnings).declarations =
      ⟨Function.update state.declarations.entries name (some entry.declared),
        state.declarations.log + warnings⟩ := by
  apply State.ext
  · funext key
    simp only [ImportState.declarations, ImportState.put, OrderedMap.lookup_insert,
      Function.update_apply]
    split_ifs <;> rfl
  · exact (Multiset.coe_add state.warnings warnings).symm

/-! ## Additions to a model -/

/-- The names of the new items are none of those that are there. -/
def Fresh {β : Type} (name : β → String) (new old : Multiset β) : Prop :=
  ∀ a ∈ new, ∀ b ∈ old, name b ≠ name a

section Fresh
variable {β : Type} {name : β → String}

theorem Fresh.symm {new old : Multiset β} (h : Fresh name new old) : Fresh name old new :=
  fun a ha b hb => (h b hb a ha).symm

theorem fresh_add {new old more : Multiset β} :
    Fresh name new (old + more) ↔ Fresh name new old ∧ Fresh name new more := by
  simp only [Fresh, Multiset.mem_add]
  constructor
  · intro h
    exact ⟨fun a ha b hb => h a ha b (.inl hb), fun a ha b hb => h a ha b (.inr hb)⟩
  · rintro ⟨hold, hmore⟩ a ha b hb
    exact hb.elim (hold a ha b) (hmore a ha b)

theorem fresh_zero (old : Multiset β) : Fresh name 0 old :=
  fun a ha => absurd ha (Multiset.notMem_zero a)

theorem fresh_singleton {item : β} {old : List β} :
    Fresh name {item} ↑old ↔ ∀ b ∈ old, name b ≠ name item := by
  simp [Fresh]

theorem Fresh.nodup {new old : Multiset β} (h : Fresh name new old) (hnew : (new.map name).Nodup)
    (hold : (old.map name).Nodup) : ((old + new).map name).Nodup := by
  rw [Multiset.map_add, hold.add_iff hnew, Multiset.disjoint_left]
  intro key hkey hkey'
  obtain ⟨b, hb, rfl⟩ := Multiset.mem_map.mp hkey
  obtain ⟨a, ha, heq⟩ := Multiset.mem_map.mp hkey'
  exact h a ha b hb heq.symm

end Fresh

/-- What one relationship or one metric adds to a model. -/
structure Addition where
  fields : Multiset Field
  metrics : Multiset Metric
  relationships : Multiset Relationship

namespace Declared

def Accepts (declared : Declared) (addition : Addition) : Prop :=
  Fresh Field.semanticName addition.fields declared.fields ∧
    Fresh Metric.semanticName addition.metrics declared.metrics ∧
    Fresh Relationship.semanticName addition.relationships declared.relationships

def extend (declared : Declared) (addition : Addition) : Declared where
  ground := declared.ground
  fields := declared.fields + addition.fields
  metrics := declared.metrics + addition.metrics
  relationships := declared.relationships + addition.relationships

open scoped Classical in
noncomputable def add (addition : Addition) (declared : Declared) : Option Declared :=
  if declared.Accepts addition then some (declared.extend addition) else none

theorem add_eq_some {addition : Addition} {declared declared' : Declared} :
    add addition declared = some declared' ↔
      declared.Accepts addition ∧ declared' = declared.extend addition := by
  rw [add]
  split_ifs with h
  · simp [h, eq_comm]
  · simp [h]

theorem accepts_extend {declared : Declared} {addition other : Addition} :
    (declared.extend addition).Accepts other ↔ declared.Accepts other ∧
      Fresh Field.semanticName other.fields addition.fields ∧
      Fresh Metric.semanticName other.metrics addition.metrics ∧
      Fresh Relationship.semanticName other.relationships addition.relationships := by
  simp only [Accepts, extend, fresh_add]
  tauto

theorem extend_comm (declared : Declared) (addition other : Addition) :
    (declared.extend addition).extend other = (declared.extend other).extend addition := by
  simp only [extend, Declared.mk.injEq, true_and]
  exact ⟨add_right_comm .., add_right_comm .., add_right_comm ..⟩

theorem accepts_comm {declared : Declared} {addition other : Addition}
    (h : declared.Accepts addition ∧ (declared.extend addition).Accepts other) :
    declared.Accepts other ∧ (declared.extend other).Accepts addition := by
  rw [accepts_extend] at h ⊢
  obtain ⟨haddition, hother, hfields, hmetrics, hrelationships⟩ := h
  exact ⟨hother, haddition, hfields.symm, hmetrics.symm, hrelationships.symm⟩

/-- Two additions to one model do not depend on their order. -/
theorem add_comm (declared : Declared) (addition other : Addition) :
    (add addition declared).bind (add other) = (add other declared).bind (add addition) := by
  ext result
  simp only [Option.bind_eq_some_iff, add_eq_some]
  constructor
  · rintro ⟨_, ⟨haddition, rfl⟩, hother, rfl⟩
    obtain ⟨hother', haddition'⟩ := accepts_comm ⟨haddition, hother⟩
    exact ⟨_, ⟨hother', rfl⟩, haddition', extend_comm declared addition other⟩
  · rintro ⟨_, ⟨hother, rfl⟩, haddition, rfl⟩
    obtain ⟨haddition', hother'⟩ := accepts_comm ⟨hother, haddition⟩
    exact ⟨_, ⟨haddition', rfl⟩, hother', extend_comm declared other addition⟩

end Declared

/-! ## What the items of a document declare -/

def grounds (entries : String → Option Declared) (key : String) : Option Ground :=
  (entries key).map Declared.ground

/-- What an item adds to the model of a name, and its warnings. -/
structure Contribution where
  key : String
  addition : Addition
  warnings : List OsiImportWarning

noncomputable def Contribution.change (contribution : Contribution) : Change where
  key := contribution.key
  update entry := entry.bind (Declared.add contribution.addition)
  log := contribution.warnings

/-- The plan of items that look at nothing but the grounds of models. -/
noncomputable def contribute {α : Type}
    (declare : α → (String → Option Ground) → Option Contribution) (item : α)
    (entries : String → Option Declared) : Option Change :=
  (declare item (grounds entries)).map Contribution.change

section Contribute
variable {α : Type} {declare : α → (String → Option Ground) → Option Contribution}

theorem grounds_step {state state' : Declarations} {item : α}
    (h : step (contribute declare) state item = some state') :
    grounds state'.entries = grounds state.entries := by
  obtain ⟨change, hchange, happly⟩ := Option.bind_eq_some_iff.mp h
  obtain ⟨contribution, -, rfl⟩ := Option.map_eq_some_iff.mp hchange
  obtain ⟨declared', hupdate, rfl⟩ := Option.map_eq_some_iff.mp happly
  obtain ⟨declared, hentry, hadd⟩ := Option.bind_eq_some_iff.mp hupdate
  obtain ⟨-, rfl⟩ := Declared.add_eq_some.mp hadd
  funext key
  show (Function.update state.entries contribution.key
    (some (declared.extend contribution.addition)) key).map Declared.ground =
      (state.entries key).map Declared.ground
  by_cases hkey : key = contribution.key
  · subst hkey
    have hsame : state.entries contribution.key = some declared := hentry
    rw [Function.update_self, hsame]
    rfl
  · rw [Function.update_of_ne hkey]

theorem contribute_independent : Independent (contribute declare) where
  blind h other := by rw [contribute, contribute, grounds_step h]
  commutes := by
    intro entries item other change change' hchange hchange' _ entry
    obtain ⟨contribution, -, rfl⟩ := Option.map_eq_some_iff.mp hchange
    obtain ⟨contribution', -, rfl⟩ := Option.map_eq_some_iff.mp hchange'
    cases entry with
    | none => rfl
    | some declared => exact declared.add_comm contribution.addition contribution'.addition

end Contribute

/-- A dataset declares a model that is not there yet. -/
def planDataset (currentDatabase : String) (catalog : RelationIndex) (dataset : OsiDataset)
    (_ : String → Option Declared) : Option Change :=
  if portableIdentifier dataset.name then
    (importDatasetModel currentDatabase catalog dataset).toOption.map fun result =>
      { key := dataset.name
        update := fun entry => if entry.isNone then some result.1.declared else none
        log := result.2 }
  else none

theorem planDataset_independent {currentDatabase : String} {catalog : RelationIndex} :
    Independent (planDataset currentDatabase catalog) where
  blind _ _ := rfl
  commutes := by
    intro entries dataset other change change' hchange hchange' _ entry
    rw [planDataset] at hchange hchange'
    split_ifs at hchange hchange'
    obtain ⟨result, -, rfl⟩ := Option.map_eq_some_iff.mp hchange
    obtain ⟨result', -, rfl⟩ := Option.map_eq_some_iff.mp hchange'
    cases entry <;> rfl

def declareRelationship (relationship : OsiRelationship) (grounds : String → Option Ground) :
    Option Contribution :=
  if portableIdentifier relationship.name && relationship.customExtensions.isEmpty then do
    let (fromName, toName) ← columnPair relationship
    let toGround ← grounds relationship.toDataset
    let projected := toGround.evidence.map (projection relationship.name)
    let toField ← (findColumn toGround.evidence toName).filter ImportedField.entityKey
    let fromGround ← grounds relationship.fromDataset
    let fromField ← findColumn fromGround.evidence fromName
    if ⟨[fromField.column], toGround.model.source, [toField.column]⟩ ∈ fromGround.foreignKeys ∧
        (projected.map Field.semanticName).Nodup then
      some
        { key := relationship.fromDataset
          addition :=
            { fields := projected
              metrics := 0
              relationships :=
                {importedRelationship relationship toGround.model.source fromField toField} }
          warnings := warnContext ("/relationships/" ++ relationship.name) none
            relationship.aiContext }
    else none
  else none

def declareMetric (metric : OsiMetric) (grounds : String → Option Ground) :
    Option Contribution :=
  let path := "/metrics/" ++ metric.name
  if portableIdentifier metric.name && metric.customExtensions.isEmpty then do
    let expression ← (ansiExpression metric.expression path).toOption
    let parsed ← parseMetricExpression expression
    let ground ← grounds parsed.dataset
    let field ← ground.evidence.lookup parsed.field
    if (!(parsed.aggregation == .count || parsed.aggregation == .countDistinct)
        || field.entityKey) && aggregateSupportsType parsed.aggregation field.dataType then
      some
        { key := parsed.dataset
          addition :=
            { fields := 0
              metrics := {importedMetric metric parsed field}
              relationships := 0 }
          warnings := warnContext path metric.description metric.aiContext }
    else none
  else none

end Postgresem.Osi
