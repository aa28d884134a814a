import Postgresem.Mutation.Decoding
import Postgresem.Query.Idempotence
import Postgresem.Semantic.Evaluation

/-! The canonical text of a mutation is a mutation and is its own canonical text, unless it is longer
than an input may be. -/
namespace Postgresem
open Json (Value Members)
open Control

section Values

def MutationOperation.toValue : MutationOperation → Value
  | .insert => .string "insert"
  | .upsert => .string "upsert"

def MutationValue.toValue : MutationValue → Value
  | .null => .object [("type", .string "null")]
  | .text value => (Literal.text value).toValue
  | .boolean value => (Literal.boolean value).toValue
  | .integer value => (Literal.integer value).toValue
  | .numeric value => (Literal.numeric value).toValue
  | .date value => (Literal.date value).toValue
  | .timestamp value => (Literal.timestamp value).toValue

def MutationRow.members (row : MutationRow) : Members :=
  row.entries.map fun entry => (entry.1, entry.2.toValue)

def MutationRow.toValue (row : MutationRow) : Value := .object row.members

def LogicalSemanticMutation.toValue (mutation : LogicalSemanticMutation) : Value :=
  .object [("schema_version", .string mutation.schemaVersion),
    ("operation", mutation.operation.toValue), ("model", .string mutation.model),
    ("idempotency_key", .string mutation.idempotencyKey),
    ("rows", .array (mutation.rows.map MutationRow.toValue))]

/-- The same with the members in the order of the map that they are read into. -/
def LogicalSemanticMutation.toUnique (mutation : LogicalSemanticMutation) : Value :=
  .object [("idempotency_key", .string mutation.idempotencyKey), ("model", .string mutation.model),
    ("operation", mutation.operation.toValue),
    ("rows", .array (mutation.rows.map MutationRow.toValue)),
    ("schema_version", .string mutation.schemaVersion)]

end Values

section Text

theorem MutationValue.toValue_text (value : MutationValue) : value.toValue.text = value.json := by
  cases value <;> rfl

theorem MutationRow.toValue_text (row : MutationRow) : row.toValue.text = row.json := by
  have hmembers : Value.memberTexts row.members =
      row.entries.map fun entry => (entry.1, entry.2.json) := by
    rw [MutationRow.members]
    induction row.entries with
    | nil => rfl
    | cons entry entries ih =>
      rw [List.map_cons, Value.memberTexts, ih, entry.2.toValue_text, List.map_cons]
  rw [MutationRow.json, ← hmembers]
  rfl

theorem LogicalSemanticMutation.toValue_text (mutation : LogicalSemanticMutation) :
    mutation.toValue.text = mutation.json := by
  have hoperation : mutation.operation.toValue.text = mutation.operation.json := by
    cases mutation.operation <;> rfl
  rw [LogicalSemanticMutation.json, ← array_text MutationRow.toValue_text, ← hoperation]
  rfl

end Text

section Range

def MutationValue.InRange : MutationValue → Prop
  | .integer value => -2 ^ 63 ≤ value ∧ value < 2 ^ 63
  | _ => True

def MutationRow.InRange (row : MutationRow) : Prop := ∀ entry ∈ row.entries, entry.2.InRange

def LogicalSemanticMutation.InRange (mutation : LogicalSemanticMutation) : Prop :=
  ∀ row ∈ mutation.rows, row.InRange

theorem decodeContent_inRange {typeName : String} {value : Value} {content : MutationValue}
    (h : decodeContent typeName value = some content) : content.InRange := by
  unfold decodeContent at h
  split at h
  case h_1 =>
    split at h
    · cases h
      trivial
    · cases h
  case h_4 =>
    obtain ⟨number, hnumber, rfl⟩ := Option.map_eq_some_iff.mp h
    cases value with
    | number text => exact (Json.asI64_eq_some.mp hnumber).2
    | _ => cases hnumber
  case h_8 => cases h
  all_goals
    obtain ⟨payload, _, rfl⟩ := Option.map_eq_some_iff.mp h
    trivial

theorem decodeMutationValue_inRange {value : Value} {content : MutationValue}
    (h : decodeMutationValue value = some content) : content.InRange := by
  simp only [decodeMutationValue, Option.bind_eq_bind, Option.bind_eq_some_iff] at h
  obtain ⟨members, _, typeName, _, hcontent⟩ := h
  split at hcontent
  · exact decodeContent_inRange hcontent
  · unfold withoutContent at hcontent
    split at hcontent
    · cases hcontent
      trivial
    · cases hcontent

theorem decodeRow_inRange {value : Value} {row : MutationRow} (h : decodeRow value = some row) :
    row.InRange := by
  cases value with
  | object members =>
    obtain ⟨entries, hentries, rfl⟩ := Option.map_eq_some_iff.mp h
    have hall : ∀ entry ∈ entries, entry.2.InRange := by
      refine Json.forall_of_mapM hentries fun member entry hentry => ?_
      obtain ⟨content, hcontent, rfl⟩ := Option.map_eq_some_iff.mp hentry
      exact decodeMutationValue_inRange hcontent
    exact fun entry hentry => hall entry (OrderedMap.mem_ofEntries hentry)
  | _ => cases h

theorem parseMutation_inRange {finite : String → Bool} {input : List UInt8}
    {mutation : LogicalSemanticMutation} (h : parseMutation finite input = some mutation) :
    mutation.InRange := by
  simp only [parseMutation, decodeMutation, Option.bind_eq_bind, Option.bind_eq_some_iff,
    Option.some.injEq] at h
  obtain ⟨_, _, _, _, members, _, version, _, operation, _, model, _, key, _, rows, hrows, rfl⟩ := h
  obtain ⟨items, hitems⟩ := Json.exists_of_field hrows
  exact Json.forall_of_listOf hitems fun _ _ hrow => decodeRow_inRange hrow

end Range

section RoundTrip

theorem decodeMutationValue_toValue {value : MutationValue} (h : value.InRange) :
    decodeMutationValue value.toValue = some value := by
  cases value with
  | integer value =>
    have hread : Json.asI64 (toString value) = some value :=
      Json.asI64_eq_some.mpr ⟨Json.integerOf_toString value, h⟩
    show (Json.asI64 (toString value)).map MutationValue.integer = _
    rw [hread]
    rfl
  | _ => rfl

theorem decodeRow_toValue {row : MutationRow} (h : row.InRange) :
    decodeRow row.toValue = some row := by
  have hentries : row.members.mapM decodeEntry = some row.entries := by
    refine Json.mapM_map fun entry hentry => ?_
    rw [decodeEntry, decodeMutationValue_toValue (h entry hentry)]
    rfl
  obtain ⟨entries, hsorted⟩ := row
  show (List.mapM decodeEntry _).map _ = _
  rw [hentries]
  simp only [Option.map_some, OrderedMap.ofEntries_of_sorted hsorted]

theorem decodeMutation_toUnique {mutation : LogicalSemanticMutation} (h : mutation.InRange) :
    decodeMutation mutation.toUnique = some mutation := by
  obtain ⟨version, operation, model, key, rows⟩ := mutation
  have hrows : Json.listOf decodeRow (.array (rows.map MutationRow.toValue)) = some rows :=
    Json.listOf_map fun row hrow => decodeRow_toValue (h row hrow)
  have hoperation : decodeOperation operation.toValue = some operation := by
    cases operation <;> rfl
  show (decodeOperation operation.toValue).bind _ = _
  rw [hoperation]
  show (Json.listOf decodeRow (.array (rows.map MutationRow.toValue))).bind _ = _
  rw [hrows]
  rfl

end RoundTrip

section Unique
variable {finite : String → Bool}

theorem sorted_of_keys {members : Members} (h : (members.map Prod.fst).Pairwise (· < ·)) :
    OrderedMap.Sorted members := List.pairwise_map.mp h

/-- Members whose keys are in order are their own map. -/
theorem uniqueMembers_of_sorted {members result : Members}
    (hsorted : OrderedMap.Sorted (result ++ members))
    (hvalues : ∀ member ∈ members, uniqueValue finite member.2 = some member.2) :
    uniqueMembers finite members result = some (result ++ members) := by
  induction members generalizing result with
  | nil => rw [uniqueMembers, List.append_nil]
  | cons member members ih =>
    obtain ⟨key, value⟩ := member
    obtain ⟨hvalue, hrest⟩ := List.forall_mem_cons.mp hvalues
    have hlast : ∀ entry ∈ result, entry.1 < key := fun entry hentry =>
      (List.pairwise_append.mp hsorted).2.2 entry hentry _ List.mem_cons_self
    have hnew : result.lookup key = none :=
      List.lookup_eq_none_iff.mpr fun entry hentry => bne_iff_ne.mpr (ne_of_gt (hlast entry hentry))
    have happend : result ++ (key, value) :: members = result ++ [(key, value)] ++ members := by simp
    rw [happend] at hsorted ⊢
    rw [uniqueMembers, hnew, ← ih hsorted hrest, ← OrderedMap.insert_last hlast]
    show (uniqueValue finite value).bind _ = _
    rw [hvalue]
    rfl

theorem uniqueValue_object {members : Members} (hsorted : OrderedMap.Sorted members)
    (hvalues : ∀ member ∈ members, uniqueValue finite member.2 = some member.2) :
    uniqueValue finite (.object members) = some (.object members) := by
  have hmembers : uniqueMembers finite members [] = some ([] ++ members) :=
    uniqueMembers_of_sorted hsorted hvalues
  rw [uniqueValue, hmembers]
  rfl

theorem uniqueValue_map {α : Type} {write : α → Value} {items : List α}
    (h : ∀ item ∈ items, uniqueValue finite (write item) = some (write item)) :
    uniqueValue finite (.array (items.map write)) = some (.array (items.map write)) := by
  have hitems : uniqueItems finite (items.map write) = some (items.map write) := by
    rw [uniqueItems_eq]
    induction items with
    | nil => rfl
    | cons item items ih =>
      rw [List.map_cons, List.mapM_cons, h item (by simp),
        ih fun other hother => h other (by simp [hother])]
      rfl
  rw [uniqueValue, hitems]
  rfl

theorem Literal.uniqueValue_toValue {literal : Literal} (h : literal.InRange) :
    uniqueValue finite literal.toValue = some literal.toValue := by
  refine uniqueValue_object (sorted_of_keys (by decide : ["type", "value"].Pairwise (· < ·))) ?_
  refine List.forall_mem_cons.mpr ⟨rfl, List.forall_mem_singleton.mpr ?_⟩
  cases literal with
  | integer value =>
    show (if Json.readsNumber finite (toString value) then _ else none) = _
    rw [if_pos (readsNumber_integer h)]
    rfl
  | _ => rfl

theorem MutationValue.uniqueValue_toValue {value : MutationValue} (h : value.InRange) :
    uniqueValue finite value.toValue = some value.toValue := by
  cases value with
  | null =>
    refine uniqueValue_object (sorted_of_keys (by decide : ["type"].Pairwise (· < ·))) ?_
    exact List.forall_mem_singleton.mpr rfl
  | integer value => exact Literal.uniqueValue_toValue h
  | text value | boolean value | numeric value | date value | timestamp value =>
    exact Literal.uniqueValue_toValue trivial

theorem MutationRow.uniqueValue_toValue {row : MutationRow} (h : row.InRange) :
    uniqueValue finite row.toValue = some row.toValue := by
  refine uniqueValue_object (List.pairwise_map.mpr row.sorted) ?_
  exact List.forall_mem_map.mpr fun entry hentry => entry.2.uniqueValue_toValue (h entry hentry)

theorem LogicalSemanticMutation.uniqueValue_toUnique {mutation : LogicalSemanticMutation}
    (h : mutation.InRange) : uniqueValue finite mutation.toUnique = some mutation.toUnique := by
  have hkeys : ["idempotency_key", "model", "operation", "rows", "schema_version"].Pairwise
      (· < ·) := by decide
  have hoperation : uniqueValue finite mutation.operation.toValue = some mutation.operation.toValue := by
    cases mutation.operation <;> rfl
  have hrows : uniqueValue finite (.array (mutation.rows.map MutationRow.toValue)) =
      some (.array (mutation.rows.map MutationRow.toValue)) :=
    uniqueValue_map fun row hrow => MutationRow.uniqueValue_toValue (h row hrow)
  refine uniqueValue_object (sorted_of_keys hkeys) ?_
  exact List.forall_mem_cons.mpr ⟨rfl, List.forall_mem_cons.mpr ⟨rfl, List.forall_mem_cons.mpr
    ⟨hoperation, List.forall_mem_cons.mpr ⟨hrows, List.forall_mem_singleton.mpr rfl⟩⟩⟩⟩

/-- The canonical text is in the order of declaration, and the map in the order of its keys. -/
theorem LogicalSemanticMutation.uniqueValue_toValue {mutation : LogicalSemanticMutation}
    (h : mutation.InRange) : uniqueValue finite mutation.toValue = some mutation.toUnique := by
  rw [← LogicalSemanticMutation.uniqueValue_toUnique h]
  refine stable_uniqueValue _ _ (.here ?_)
  generalize ("schema_version", Value.string mutation.schemaVersion) = version,
    ("operation", mutation.operation.toValue) = operation,
    ("model", Value.string mutation.model) = model,
    ("idempotency_key", Value.string mutation.idempotencyKey) = key,
    ("rows", Value.array (mutation.rows.map MutationRow.toValue)) = rows
  calc [version, operation, model, key, rows]
    _ = [version] ++ [operation, model, key, rows] := rfl
    _ |>.Perm ([operation, model, key, rows] ++ [version]) := List.perm_append_comm
    _ = [operation, model, key] ++ [rows, version] := rfl
    _ |>.Perm ([key, model, operation] ++ [rows, version]) :=
      (List.reverse_perm [operation, model, key]).symm.append_right _

end Unique

section Readable

theorem MutationValue.toValue_wellFormed (value : MutationValue) : value.toValue.WellFormed := by
  cases value with
  | null => exact ⟨trivial, trivial⟩
  | text value | boolean value | integer value | numeric value | date value | timestamp value =>
    exact Literal.toValue_wellFormed _

theorem MutationRow.toValue_wellFormed (row : MutationRow) : row.toValue.WellFormed := by
  show Value.MembersWellFormed row.members
  rw [MutationRow.members]
  induction row.entries with
  | nil => trivial
  | cons entry entries ih => exact ⟨entry.2.toValue_wellFormed, ih⟩

theorem LogicalSemanticMutation.toValue_wellFormed (mutation : LogicalSemanticMutation) :
    mutation.toValue.WellFormed := by
  refine ⟨trivial, ?_, trivial, trivial, eachWellFormed_map MutationRow.toValue_wellFormed _, trivial⟩
  cases mutation.operation <;> trivial

theorem MutationRow.depth_toValue (row : MutationRow) : row.toValue.depth ≤ 2 := by
  have hmembers : Value.membersDepth row.members ≤ 1 := by
    rw [MutationRow.members]
    induction row.entries with
    | nil => exact Nat.zero_le 1
    | cons entry entries ih =>
      have hentry : entry.2.toValue.depth ≤ 1 := by cases entry.2 <;> exact le_rfl
      exact Nat.max_le.mpr ⟨hentry, ih⟩
  rw [MutationRow.toValue, Value.depth]
  omega

theorem LogicalSemanticMutation.depth_toValue (mutation : LogicalSemanticMutation) :
    mutation.toValue.depth ≤ Json.maxDepth := by
  have hoperation : mutation.operation.toValue.depth = 0 := by cases mutation.operation <;> rfl
  have hrows : Value.itemsDepth (mutation.rows.map MutationRow.toValue) ≤ 2 :=
    Value.itemsDepth_le (List.forall_mem_map.mpr fun row _ => row.depth_toValue)
  simp only [LogicalSemanticMutation.toValue, Value.depth, Value.membersDepth, hoperation,
    Json.maxDepth]
  omega

end Readable

section Normalize
variable {finite : String → Bool} {backend : HashBackend}

theorem LogicalSemanticMutation.checked_eq_ok {mutation : LogicalSemanticMutation} {inputBytes : Nat}
    {normalized : NormalizedLsm} :
    mutation.checked backend inputBytes = .ok normalized ↔
      ∃ valid : validateMutation mutation = .ok (),
        normalized = mutation.normalize backend inputBytes valid := by
  unfold LogicalSemanticMutation.checked
  split
  next hvalid =>
    rw [Except.ok.injEq]
    exact ⟨fun h => ⟨hvalid, h.symm⟩, fun ⟨_, h⟩ => h.symm⟩
  next hvalid =>
    simp only [reduceCtorEq, false_iff]
    rintro ⟨valid, _⟩
    rw [hvalid] at valid
    cases valid

theorem normalizeLsm_eq_ok {input : List UInt8} {normalized : NormalizedLsm} :
    normalizeLsm finite backend input = .ok normalized ↔
      input.length ≤ maxInputBytes ∧ ∃ mutation, parseMutation finite input = some mutation ∧
        mutation.checked backend input.length = .ok normalized := by
  simp only [normalizeLsm, bind_eq_ok, ensure_eq_ok, orError_eq_ok, exists_const, decide_eq_true_eq]

theorem normalizeLsm_tooLarge {input : List UInt8} (h : maxInputBytes < input.length) :
    normalizeLsm finite backend input = .error .inputTooLarge := by
  rw [normalizeLsm, decide_eq_false (Nat.not_le_of_gt h)]
  rfl

/-- The canonical text of a mutation is read as the mutation. -/
theorem parseMutation_json {mutation : LogicalSemanticMutation} (h : mutation.InRange) :
    parseMutation finite (bytesOf mutation.json) = some mutation := by
  have hread : Json.read (bytesOf mutation.json) = some mutation.toValue := by
    rw [← mutation.toValue_text]
    exact Json.read_text mutation.toValue_wellFormed mutation.depth_toValue
  rw [parseMutation, hread]
  show (uniqueValue finite mutation.toValue).bind _ = _
  rw [LogicalSemanticMutation.uniqueValue_toValue h]
  exact decodeMutation_toUnique h

/-- The canonical text is normalized to the same mutation, if it is not too long to be an input. -/
theorem normalizeLsm_canonical {input : List UInt8} {normalized : NormalizedLsm}
    (h : normalizeLsm finite backend input = .ok normalized) :
    normalizeLsm finite backend (bytesOf normalized.canonicalJson) =
      if (bytesOf normalized.canonicalJson).length ≤ maxInputBytes then
        .ok { normalized with inputBytes := (bytesOf normalized.canonicalJson).length }
      else .error .inputTooLarge := by
  obtain ⟨_, mutation, hparse, hchecked⟩ := normalizeLsm_eq_ok.mp h
  obtain ⟨valid, rfl⟩ := LogicalSemanticMutation.checked_eq_ok.mp hchecked
  split
  next hsize =>
    refine normalizeLsm_eq_ok.mpr ⟨hsize, mutation, ?_, ?_⟩
    · exact parseMutation_json (parseMutation_inRange hparse)
    · exact LogicalSemanticMutation.checked_eq_ok.mpr ⟨valid, rfl⟩
  next hsize => exact normalizeLsm_tooLarge (Nat.lt_of_not_le hsize)

theorem parseMutation_reordered {input other : List UInt8} {value value' : Value}
    (hread : Json.read input = some value) (hread' : Json.read other = some value')
    (h : Json.Reordered value value') : parseMutation finite input = parseMutation finite other := by
  rw [parseMutation, parseMutation, hread, hread']
  show (uniqueValue finite value).bind _ = (uniqueValue finite value').bind _
  rw [stable_uniqueValue.reordered h]

theorem normalizeLsm_reordered {input other : List UInt8} {value value' : Value}
    (hread : Json.read input = some value) (hread' : Json.read other = some value')
    (h : Json.Reordered value value') (hsize : other.length ≤ maxInputBytes)
    {normalized : NormalizedLsm} (hnormalized : normalizeLsm finite backend input = .ok normalized) :
    normalizeLsm finite backend other = .ok { normalized with inputBytes := other.length } := by
  obtain ⟨_, mutation, hparse, hchecked⟩ := normalizeLsm_eq_ok.mp hnormalized
  obtain ⟨valid, rfl⟩ := LogicalSemanticMutation.checked_eq_ok.mp hchecked
  rw [parseMutation_reordered hread hread' h] at hparse
  exact normalizeLsm_eq_ok.mpr
    ⟨hsize, mutation, hparse, LogicalSemanticMutation.checked_eq_ok.mpr ⟨valid, rfl⟩⟩

end Normalize

section Claim

/-- Normalizing is idempotent, but for a mutation whose canonical text is longer than an input may be;
and it does not depend on white space or on the order of members. -/
theorem normalize_idempotent (finite : String → Bool) (backend : HashBackend) :
    (∀ input normalized, normalizeLsq finite backend input = .ok normalized →
      normalizeLsq finite backend (bytesOf normalized.canonicalJson) = .ok normalized) ∧
    (∀ input normalized, normalizeLsm finite backend input = .ok normalized →
      normalizeLsm finite backend (bytesOf normalized.canonicalJson) =
        if (bytesOf normalized.canonicalJson).length ≤ maxInputBytes then
          .ok { normalized with inputBytes := (bytesOf normalized.canonicalJson).length }
        else .error .inputTooLarge) ∧
    ∀ input other value value', Json.read input = some value → Json.read other = some value' →
      Json.Reordered value value' →
      normalizeLsq finite backend input = normalizeLsq finite backend other ∧
        ∀ normalized, normalizeLsm finite backend input = .ok normalized →
          other.length ≤ maxInputBytes →
          normalizeLsm finite backend other = .ok { normalized with inputBytes := other.length } := by
  refine ⟨fun input normalized => normalizeLsq_idempotent,
    fun input normalized => normalizeLsm_canonical, ?_⟩
  intro input other value value' hread hread' h
  exact ⟨normalizeLsq_reordered hread hread' h, fun normalized hnormalized hsize =>
    normalizeLsm_reordered hread hread' h hsize hnormalized⟩

/-- A mutation whose structures are written as arrays, which is shorter than its canonical text. -/
private def arrayForm (note : String) : Value :=
  .array [.string "1", .string "insert", .string "orders", .string "order-1",
    .array [.object [("note", .array [.string "text", .string note])]]]

private def noteMutation (note : String) : LogicalSemanticMutation where
  operation := .insert
  model := "orders"
  idempotencyKey := "order-1"
  rows := [⟨[("note", .text note)], List.pairwise_singleton _ _⟩]

private theorem parse_arrayForm (note : String) :
    parseMutation (fun _ => true) (bytesOf (arrayForm note).text) = some (noteMutation note) := by
  have hwell : (arrayForm note).WellFormed := ⟨trivial, trivial, trivial, trivial,
    ⟨⟨⟨trivial, trivial, trivial⟩, trivial⟩, trivial⟩, trivial⟩
  have hdepth : (arrayForm note).depth = 4 := rfl
  have hread : Json.read (bytesOf (arrayForm note).text) = some (arrayForm note) :=
    Json.read_text hwell (hdepth.le.trans (by decide))
  rw [parseMutation, hread]
  rfl

private theorem length_emitString (value : String) (rest : List UInt8) :
    (Json.emitString value rest).length = (Utf8.bytes (Json.string value)).length + rest.length := by
  rw [Json.emitString_eq, List.length_append]

private theorem length_arrayForm (note : String) :
    (bytesOf (arrayForm note).text).length = 54 + (Utf8.bytes (Json.string note)).length := by
  rw [bytesOf_text, arrayForm]
  simp only [Value.emit, Value.emitItems, Value.emitMembers, List.length_cons, length_emitString,
    List.length_nil]
  have h₁ : (Utf8.bytes (Json.string "1")).length = 3 := by decide
  have h₂ : (Utf8.bytes (Json.string "insert")).length = 8 := by decide
  have h₃ : (Utf8.bytes (Json.string "orders")).length = 8 := by decide
  have h₄ : (Utf8.bytes (Json.string "order-1")).length = 9 := by decide
  have h₅ : (Utf8.bytes (Json.string "note")).length = 6 := by decide
  have h₆ : (Utf8.bytes (Json.string "text")).length = 6 := by decide
  omega

private theorem length_canonical (note : String) :
    (bytesOf (noteMutation note).json).length = 131 + (Utf8.bytes (Json.string note)).length := by
  rw [← LogicalSemanticMutation.toValue_text, bytesOf_text]
  simp only [noteMutation, LogicalSemanticMutation.toValue, MutationOperation.toValue,
    MutationRow.toValue, MutationRow.members, MutationValue.toValue, Literal.toValue, Literal.typeName, Literal.payload, List.map_cons, List.map_nil, Value.emit,
    Value.emitItems, Value.emitMembers, List.length_cons, length_emitString, List.length_nil]
  have h₁ : (Utf8.bytes (Json.string "schema_version")).length = 16 := by decide
  have h₂ : (Utf8.bytes (Json.string "1")).length = 3 := by decide
  have h₃ : (Utf8.bytes (Json.string "operation")).length = 11 := by decide
  have h₄ : (Utf8.bytes (Json.string "insert")).length = 8 := by decide
  have h₅ : (Utf8.bytes (Json.string "model")).length = 7 := by decide
  have h₆ : (Utf8.bytes (Json.string "orders")).length = 8 := by decide
  have h₇ : (Utf8.bytes (Json.string "idempotency_key")).length = 17 := by decide
  have h₈ : (Utf8.bytes (Json.string "order-1")).length = 9 := by decide
  have h₉ : (Utf8.bytes (Json.string "rows")).length = 6 := by decide
  have h₁₀ : (Utf8.bytes (Json.string "note")).length = 6 := by decide
  have h₁₁ : (Utf8.bytes (Json.string "type")).length = 6 := by decide
  have h₁₂ : (Utf8.bytes (Json.string "text")).length = 6 := by decide
  have h₁₃ : (Utf8.bytes (Json.string "value")).length = 7 := by decide
  omega

private theorem length_plain (n : Nat) :
    (Utf8.bytes (Json.string (String.ofList (List.replicate n 'a')))).length = n + 2 := by
  have hplain : ∀ c ∈ (String.ofList (List.replicate n 'a')).toList,
      Json.isPlainCode c.toNat = true := by
    rw [String.toList_ofList]
    intro c hc
    rw [List.eq_of_mem_replicate hc]
    rfl
  have hlist := Json.toList_string_of_plain hplain
  rw [String.toList_ofList] at hlist
  have htext : Json.string (String.ofList (List.replicate n 'a')) =
      String.ofList ('"' :: (List.replicate n 'a' ++ ['"'])) := by
    rw [← String.toList_inj, hlist, String.toList_ofList]
  have hsize : ∀ c ∈ '"' :: (List.replicate n 'a' ++ ['"']), c.utf8Size = 1 := by
    intro c hc
    rcases List.mem_cons.mp hc with rfl | hc
    · rfl
    · rcases List.mem_append.mp hc with hc | hc
      · rw [List.eq_of_mem_replicate hc]
        rfl
      · rw [List.mem_singleton.mp hc]
        rfl
  calc (Utf8.bytes (Json.string (String.ofList (List.replicate n 'a')))).length
    _ = (Json.string (String.ofList (List.replicate n 'a'))).utf8ByteSize := bytesOf_length _
    _ = ('"' :: (List.replicate n 'a' ++ ['"'])).length := by rw [htext, utf8ByteSize_ascii hsize]
    _ = n + 2 := by simp

private theorem validateMutation_noteMutation (note : String) :
    validateMutation (noteMutation note) = .ok () := by
  have hfield : validBoundedText "note" maxSemanticNameBytes = true := by decide
  have hmodel : validBoundedText "orders" maxSemanticNameBytes = true := by decide
  have hkey : validBoundedText "order-1" maxIdempotencyKeyBytes = true := by decide
  simp only [validateMutation, noteMutation, LogicalSemanticMutation.inputNames, forEach, validateRow,
    validateEntry, hfield, hmodel, hkey]
  rfl

/-- An input that is accepted, and its canonical text that is refused for its length. -/
theorem normalize_not_idempotent : ∃ input normalized,
    normalizeLsm (fun _ => true) standardHash input = .ok normalized ∧
      normalizeLsm (fun _ => true) standardHash (bytesOf normalized.canonicalJson) =
        .error .inputTooLarge := by
  have hplain := length_plain 1048500
  generalize String.ofList (List.replicate 1048500 'a') = note at hplain
  have hlength := length_arrayForm note
  have hcanonical := length_canonical note
  have hfits : (bytesOf (arrayForm note).text).length ≤ maxInputBytes := by
    unfold maxInputBytes
    omega
  have hlong : maxInputBytes < (bytesOf (noteMutation note).json).length := by
    unfold maxInputBytes
    omega
  refine ⟨bytesOf (arrayForm note).text, _, normalizeLsm_eq_ok.mpr ⟨hfits, noteMutation note,
    parse_arrayForm note, LogicalSemanticMutation.checked_eq_ok.mpr
      ⟨validateMutation_noteMutation note, rfl⟩⟩, ?_⟩
  exact normalizeLsm_tooLarge hlong

/-- A query that is normalized again. -/
theorem normalize_idempotent_orders : ∃ input normalized,
    normalizeLsq (fun _ => true) standardHash input = .ok normalized ∧
      normalizeLsq (fun _ => true) standardHash (bytesOf normalized.canonicalJson) =
        .ok normalized := by
  let query : LogicalSemanticQuery :=
    { model := "orders", metrics := [⟨"revenue"⟩], filters := some (.eq "paid" (.boolean true)),
      limit := some 10 }
  have hvalid : validateQuery query = .ok () := by decide
  have hrange : query.InRange := by
    rintro filter ⟨⟩
    trivial
  have hparse : parseQuery (fun _ => true) (bytesOf query.json) = some query :=
    parseQuery_json hrange ((validateQuery_ok_iff query).1.mp hvalid)
  have hnormalized : normalizeLsq (fun _ => true) standardHash (bytesOf query.json) =
      .ok (query.normalize standardHash hvalid) :=
    normalizeLsq_eq_ok.mpr ⟨query, hparse, checked_eq_ok.mpr ⟨hvalid, rfl⟩⟩
  exact ⟨_, _, hnormalized, (normalize_idempotent (fun _ => true) standardHash).1 _ _ hnormalized⟩

end Claim

end Postgresem
