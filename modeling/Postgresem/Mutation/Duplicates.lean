import Postgresem.Foundation.JsonCollapse
import Postgresem.Mutation.Idempotence

/-! Repeated members of a mutation document. The reader of a mutation refuses them; what it accepts it
holds as a map, and what it decodes of that does not depend on how a number is written. -/
namespace Postgresem
open Json (Value Members NumberBlind readsNumber)
open Control

section Unique
variable {finite : String → Bool}

/-- What `UniqueValue` makes of a value. -/
def ReadsUnique (finite : String → Bool) (value unique : Value) : Prop :=
  value.unrepeated = true ∧ value.numbersAll (readsNumber finite) = true ∧ unique = value.lastWins

theorem uniqueItems_eq_some {items uniques : List Value}
    (h : ∀ item ∈ items, ∀ unique, uniqueValue finite item = some unique ↔
      ReadsUnique finite item unique) :
    uniqueItems finite items = some uniques ↔ (∀ item ∈ items, item.unrepeated = true) ∧
      (∀ item ∈ items, item.numbersAll (readsNumber finite) = true) ∧
      uniques = items.map Value.lastWins := by
  induction items generalizing uniques with
  | nil =>
    rw [uniqueItems, Option.some.injEq]
    exact ⟨fun h => ⟨by simp, by simp, h.symm⟩, fun h => h.2.2.symm⟩
  | cons item items ih =>
    obtain ⟨hitem, hitems⟩ := List.forall_mem_cons.mp h
    simp only [uniqueItems, Option.bind_eq_bind, Option.bind_eq_some_iff, Option.some.injEq, hitem,
      ih hitems, ReadsUnique, List.forall_mem_cons, List.map_cons]
    constructor
    · rintro ⟨_, ⟨hunrepeated, hnumbers, rfl⟩, _, ⟨hrest, hrest', rfl⟩, rfl⟩
      exact ⟨⟨hunrepeated, hrest⟩, ⟨hnumbers, hrest'⟩, rfl⟩
    · rintro ⟨⟨hunrepeated, hrest⟩, ⟨hnumbers, hrest'⟩, rfl⟩
      exact ⟨_, ⟨hunrepeated, hnumbers, rfl⟩, _, ⟨hrest, hrest', rfl⟩, rfl⟩

theorem uniqueMembers_eq_some {members result unique : Members}
    (h : ∀ member ∈ members, ∀ unique, uniqueValue finite member.2 = some unique ↔
      ReadsUnique finite member.2 unique) :
    uniqueMembers finite members result = some unique ↔
      (∀ member ∈ members, result.lookup member.1 = none) ∧ (members.map Prod.fst).Nodup ∧
      (∀ member ∈ members, member.2.unrepeated = true) ∧
      (∀ member ∈ members, member.2.numbersAll (readsNumber finite) = true) ∧
      unique = (OrderedMap.mapValues Value.lastWins members).foldl
        (fun map entry => OrderedMap.insert entry.1 entry.2 map) result := by
  induction members generalizing result with
  | nil =>
    rw [uniqueMembers, Option.some.injEq]
    exact ⟨fun h => ⟨by simp, .nil, by simp, by simp, h.symm⟩, fun h => h.2.2.2.2.symm⟩
  | cons member members ih =>
    obtain ⟨key, value⟩ := member
    obtain ⟨hvalue, hmembers⟩ := List.forall_mem_cons.mp h
    have hfold : (OrderedMap.mapValues Value.lastWins ((key, value) :: members)).foldl
        (fun map entry => OrderedMap.insert entry.1 entry.2 map) result =
        (OrderedMap.mapValues Value.lastWins members).foldl
          (fun map entry => OrderedMap.insert entry.1 entry.2 map)
          (OrderedMap.insert key value.lastWins result) := rfl
    have hinserted : (∀ member ∈ members,
        (OrderedMap.insert key value.lastWins result).lookup member.1 = none) ↔
        key ∉ members.map Prod.fst ∧ ∀ member ∈ members, result.lookup member.1 = none := by
      simp only [OrderedMap.lookup_insert, List.mem_map, not_exists, not_and]
      constructor
      · intro hall
        refine ⟨fun member hmember hkey => ?_, fun member hmember => ?_⟩
        · have hnone := hall member hmember
          rw [if_pos hkey] at hnone
          cases hnone
        · have hnone := hall member hmember
          split_ifs at hnone
          exact hnone
      · rintro ⟨hkey, hall⟩ member hmember
        rw [if_neg (hkey member hmember)]
        exact hall member hmember
    rw [uniqueMembers, hfold, List.map_cons, List.nodup_cons, List.forall_mem_cons,
      List.forall_mem_cons, List.forall_mem_cons]
    split_ifs with htaken
    · simp [Option.isSome_iff_ne_none.mp htaken]
    · have hfree : result.lookup key = none := Option.not_isSome_iff_eq_none.mp htaken
      simp only [Option.bind_eq_bind, Option.bind_eq_some_iff, hvalue, ih hmembers, ReadsUnique]
      constructor
      · rintro ⟨_, ⟨hunrepeated, hnumbers, rfl⟩, hlookup, hnodup, hrest, hrest', rfl⟩
        obtain ⟨hkey, hlookup'⟩ := hinserted.mp hlookup
        exact ⟨⟨hfree, hlookup'⟩, ⟨hkey, hnodup⟩, ⟨hunrepeated, hrest⟩, ⟨hnumbers, hrest'⟩, rfl⟩
      · rintro ⟨⟨_, hlookup⟩, ⟨hkey, hnodup⟩, ⟨hunrepeated, hrest⟩, ⟨hnumbers, hrest'⟩, rfl⟩
        exact ⟨_, ⟨hunrepeated, hnumbers, rfl⟩, hinserted.mpr ⟨hkey, hlookup⟩, hnodup, hrest, hrest',
          rfl⟩

/-- A value is read if no object of it repeats a name and its numbers are in range. -/
theorem uniqueValue_eq_some {value unique : Value} :
    uniqueValue finite value = some unique ↔ ReadsUnique finite value unique := by
  induction value using Value.nested generalizing unique with
  | null | boolean | string => simp [uniqueValue, ReadsUnique, Value.unrepeated, Value.numbersAll,
      Value.lastWins, Value.collapse, eq_comm]
  | number text =>
    rw [uniqueValue, ReadsUnique, Value.numbersAll, Value.lastWins, Value.collapse]
    split_ifs with h <;> simp [Value.unrepeated, h, eq_comm]
  | array items ih =>
    rw [uniqueValue, ReadsUnique, Json.unrepeated_array, Json.numbersAll_array, Value.lastWins,
      Json.collapse_array, Option.map_eq_some_iff, List.all_eq_true, List.all_eq_true]
    simp only [uniqueItems_eq_some ih]
    constructor
    · rintro ⟨_, ⟨hunrepeated, hnumbers, rfl⟩, rfl⟩
      exact ⟨hunrepeated, hnumbers, rfl⟩
    · rintro ⟨hunrepeated, hnumbers, rfl⟩
      exact ⟨_, ⟨hunrepeated, hnumbers, rfl⟩, rfl⟩
  | object members ih =>
    rw [uniqueValue, ReadsUnique, Json.unrepeated_object, Json.numbersAll_object, Value.lastWins,
      Json.collapse_object, Option.map_eq_some_iff, Bool.and_eq_true, decide_eq_true_eq,
      List.all_eq_true, List.all_eq_true]
    simp only [uniqueMembers_eq_some ih]
    constructor
    · rintro ⟨_, ⟨-, hnodup, hunrepeated, hnumbers, rfl⟩, rfl⟩
      exact ⟨⟨hnodup, hunrepeated⟩, hnumbers, rfl⟩
    · rintro ⟨⟨hnodup, hunrepeated⟩, hnumbers, rfl⟩
      exact ⟨_, ⟨fun _ _ => rfl, hnodup, hunrepeated, hnumbers, rfl⟩, rfl⟩

end Unique

section Blind
variable {f : String → String}

theorem blind_decodeContent (h : ∀ text, Json.asI64 (f text) = Json.asI64 text) (typeName : String) :
    NumberBlind f (decodeContent typeName) := by
  intro value
  unfold decodeContent
  rw [Json.blind_asString value, Json.blind_asBoolean value, Json.blind_asInteger h value,
    Json.blind_isNull value]

theorem blind_decodeMutationValue (h : ∀ text, Json.asI64 (f text) = Json.asI64 text) :
    NumberBlind f decodeMutationValue := by
  intro value
  rw [decodeMutationValue, decodeMutationValue, Json.knownFields_mapNumbers]
  cases Json.knownFields ["type", "value"] value with
  | none => rfl
  | some members =>
    rw [Option.map_some]
    show (Json.field _ _ "type").bind _ = (Json.field _ _ "type").bind _
    rw [Json.field_mapNumbers (Json.blind_unitVariant Json.blind_isNull), OrderedMap.lookup_mapValues]
    cases members.lookup "value" with
    | none => rfl
    | some content => exact congrArg _ (funext fun typeName => blind_decodeContent h typeName content)

theorem blind_decodeRow (h : ∀ text, Json.asI64 (f text) = Json.asI64 text) :
    NumberBlind f decodeRow := by
  intro value
  cases value with
  | object members =>
    have hentries : (OrderedMap.mapValues (Value.mapNumbers f) members).mapM decodeEntry =
        members.mapM decodeEntry := by
      rw [OrderedMap.mapValues, List.mapM_map]
      refine congrArg (fun g => members.mapM g) (funext fun member => ?_)
      exact congrArg (Option.map fun value => (member.1, value)) (blind_decodeMutationValue h member.2)
    rw [Json.mapNumbers_object, decodeRow, decodeRow, hentries]
  | _ => rfl

theorem blind_decodeMutation (h : ∀ text, Json.asI64 (f text) = Json.asI64 text) :
    NumberBlind f decodeMutation := by
  intro value
  rw [decodeMutation, decodeMutation, Json.fields_mapNumbers]
  cases Json.fields ["schema_version", "operation", "model", "idempotency_key", "rows"] value with
  | none => rfl
  | some members =>
    have hoperation : NumberBlind f decodeOperation := Json.blind_variantOf _ Json.blind_isNull
    simp only [Option.map_some, Option.bind_eq_bind, Option.bind_some,
      Json.field_mapNumbers Json.blind_asString, Json.field_mapNumbers hoperation,
      Json.field_mapNumbers (Json.blind_listOf (blind_decodeRow h))]

end Blind

end Postgresem
