import Postgresem.Mutation.Lsm
import Postgresem.Query.Decoding

/-! The deserializers of a mutation, and `normalize_lsm` on bytes. The text is first read into a value
in which no object repeats a key. -/
namespace Postgresem
open Json (Value Members Stable Reorders fields knownFields field asString asBoolean asInteger isNull
  listOf variantOf unitVariant)
open Control

section Unique
/-! `finite` says of the text of a number whether its conversion to floating point is in range. -/
variable (finite : String → Bool)

mutual

/-- `UniqueValue`: objects become maps, ordered by their keys, and a number keeps its text. -/
def uniqueValue : Value → Option Value
  | .number text => if Json.readsNumber finite text then some (.number text) else none
  | .array items => (uniqueItems items).map .array
  | .object members => (uniqueMembers members []).map .object
  | value => some value

def uniqueItems : List Value → Option (List Value)
  | [] => some []
  | item :: items => do
    let value ← uniqueValue item
    let values ← uniqueItems items
    some (value :: values)

/-- The members after those of the map, into the map. -/
def uniqueMembers : Members → Members → Option Members
  | [], result => some result
  | (key, member) :: members, result =>
    if (result.lookup key).isSome then none
    else do
      let value ← uniqueValue member
      uniqueMembers members (OrderedMap.insert key value result)

end

end Unique

section Decoders

def decodeOperation : Value → Option MutationOperation :=
  variantOf [("insert", .insert), ("upsert", .upsert)] isNull

/-- The content of a value, by its tag. -/
def decodeContent (typeName : String) (value : Value) : Option MutationValue :=
  match typeName with
  | "null" => if isNull value then some .null else none
  | "text" => (asString value).map .text
  | "boolean" => (asBoolean value).map .boolean
  | "integer" => (asInteger value).map .integer
  | "numeric" => (asString value).map .numeric
  | "date" => (asString value).map .date
  | "timestamp" => (asString value).map .timestamp
  | _ => none

/-- Only the variant that carries nothing can leave out its content. -/
def withoutContent (typeName : String) : Option MutationValue :=
  if typeName = "null" then some .null else none

def decodeMutationValue (value : Value) : Option MutationValue := do
  let members ← knownFields ["type", "value"] value
  let typeName ← field (unitVariant isNull) members "type"
  match members.lookup "value" with
  | some content => decodeContent typeName content
  | none => withoutContent typeName

def decodeEntry (member : String × Value) : Option (String × MutationValue) :=
  (decodeMutationValue member.2).map fun value => (member.1, value)

def decodeRow : Value → Option MutationRow
  | .object members => (members.mapM decodeEntry).map fun entries =>
    ⟨OrderedMap.ofEntries entries, OrderedMap.sorted_ofEntries entries⟩
  | _ => none

def decodeMutation (value : Value) : Option LogicalSemanticMutation := do
  let members ← fields ["schema_version", "operation", "model", "idempotency_key", "rows"] value
  let schemaVersion ← field asString members "schema_version"
  let operation ← field decodeOperation members "operation"
  let model ← field asString members "model"
  let idempotencyKey ← field asString members "idempotency_key"
  let rows ← field (listOf decodeRow) members "rows"
  some { schemaVersion, operation, model, idempotencyKey, rows }

end Decoders

section Normalize

def parseMutation (finite : String → Bool) (input : List UInt8) : Option LogicalSemanticMutation := do
  let value ← Json.read input
  let unique ← uniqueValue finite value
  decodeMutation unique

def LogicalSemanticMutation.checked (backend : HashBackend) (inputBytes : Nat)
    (mutation : LogicalSemanticMutation) : Except LsmError NormalizedLsm :=
  match h : validateMutation mutation with
  | .ok () => .ok (mutation.normalize backend inputBytes h)
  | .error error => .error error

def normalizeLsm (finite : String → Bool) (backend : HashBackend) (input : List UInt8) :
    Except LsmError NormalizedLsm := do
  ensure (decide (input.length ≤ maxInputBytes)) .inputTooLarge
  let mutation ← orError (parseMutation finite input) .invalidJson
  mutation.checked backend input.length

end Normalize

section Order
variable {finite : String → Bool}

theorem uniqueItems_eq (items : List Value) :
    uniqueItems finite items = items.mapM (uniqueValue finite) := by
  induction items with
  | nil => rfl
  | cons item items ih =>
    rw [uniqueItems, ih, List.mapM_cons]
    rfl

theorem uniqueMembers_append (members others result : Members) :
    uniqueMembers finite (members ++ others) result =
      (uniqueMembers finite members result).bind (uniqueMembers finite others) := by
  induction members generalizing result with
  | nil => rfl
  | cons member members ih =>
    obtain ⟨key, value⟩ := member
    rw [List.cons_append, uniqueMembers, uniqueMembers]
    split
    · rfl
    · cases uniqueValue finite value with
      | none => rfl
      | some unique => exact ih _

/-- A map does not depend on the order in which its entries come. -/
theorem uniqueMembers_perm {members others : Members} (h : members.Perm others) {result : Members}
    (hresult : OrderedMap.Sorted result) :
    uniqueMembers finite members result = uniqueMembers finite others result := by
  induction h generalizing result with
  | nil => rfl
  | cons member _ ih =>
    obtain ⟨key, value⟩ := member
    rw [uniqueMembers, uniqueMembers]
    split
    · rfl
    · cases uniqueValue finite value with
      | none => rfl
      | some unique => exact ih (OrderedMap.sorted_insert key unique hresult)
  | swap first second rest =>
    obtain ⟨key, value⟩ := first
    obtain ⟨other, value'⟩ := second
    simp only [uniqueMembers, OrderedMap.lookup_insert]
    by_cases hsame : key = other
    · subst hsame
      cases result.lookup key with
      | some taken => rfl
      | none => cases uniqueValue finite value <;> cases uniqueValue finite value' <;> simp
    · simp only [if_neg hsame, if_neg (Ne.symm hsame)]
      cases result.lookup key with
      | some taken => cases result.lookup other <;> cases uniqueValue finite value' <;> rfl
      | none =>
        cases result.lookup other with
        | some taken => cases uniqueValue finite value <;> rfl
        | none =>
          cases uniqueValue finite value with
          | none => cases uniqueValue finite value' <;> rfl
          | some unique =>
            cases uniqueValue finite value' with
            | none => rfl
            | some unique' =>
              have hcomm := OrderedMap.insert_comm hsame unique unique' hresult
              show uniqueMembers finite rest _ = uniqueMembers finite rest _
              rw [hcomm]
  | trans _ _ ih ih' => exact (ih hresult).trans (ih' hresult)

theorem stable_uniqueValue : Stable (uniqueValue finite) := by
  intro a b h
  induction h with
  | here h => rw [uniqueValue, uniqueValue, uniqueMembers_perm h .nil]
  | item before after _ ih =>
    rw [uniqueValue, uniqueValue, uniqueItems_eq, uniqueItems_eq]
    simp only [List.mapM_append, List.mapM_cons, ih]
  | member name before after _ ih =>
    rw [uniqueValue, uniqueValue, uniqueMembers_append, uniqueMembers_append]
    simp only [uniqueMembers, ih]

end Order

end Postgresem
