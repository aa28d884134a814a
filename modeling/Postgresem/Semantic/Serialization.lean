import Postgresem.Foundation.JsonRoundTrip
import Postgresem.Foundation.Utf8
import Postgresem.Semantic.Value

/-! The serialized snapshot determines the snapshot, up to what is not serialized: the text is the
text of a JSON value, and the value determines every field but `nullable`. -/
namespace Postgresem
open Json (Value)

/-! ## What the serialization keeps -/

def Field.hashed (field : Field) : Field := { field with nullable := true }

def Model.hashed (model : Model) : Model := { model with fields := model.fields.map Field.hashed }

def SemanticSnapshot.hashed (snapshot : SemanticSnapshot) : SemanticSnapshot :=
  { snapshot with models := snapshot.models.map Model.hashed }

def SemanticSnapshot.toValue (snapshot : SemanticSnapshot) : Value :=
  .object [("schema_version", .string snapshot.schemaVersion),
    ("revision_hash", .string snapshot.revisionHash),
    ("models", .array (snapshot.models.map Model.toValue))]

/-! ## The text of a value -/

theorem nullableValue_text {α : Type} {write : α → Value} {json : α → String}
    (h : ∀ a, (write a).text = json a) (value : Option α) :
    (nullableValue write value).text = Json.nullable json value := by
  cases value with
  | none => rfl
  | some a => exact h a

theorem optionalMember_text {α : Type} {write : α → Value} {json : α → String}
    (h : ∀ a, (write a).text = json a) (name : String) (value : Option α) :
    Value.memberTexts (optionalMember name write value) = Json.optional name json value := by
  cases value with
  | none => rfl
  | some a => rw [optionalMember, Value.memberTexts, h]; rfl

theorem array_text {α : Type} {write : α → Value} {json : α → String}
    (h : ∀ a, (write a).text = json a) (items : List α) :
    (Value.array (items.map write)).text = Json.array (items.map json) := by
  rw [Value.text, Value.texts_map]
  simp only [h]

theorem string_text (value : String) : (Value.string value).text = Json.string value := rfl

theorem DataType.toValue_text (dataType : DataType) : dataType.toValue.text = dataType.json := by
  cases dataType <;> rfl

theorem Literal.toValue_text (literal : Literal) : literal.toValue.text = literal.json := by
  cases literal <;> rfl

theorem Aggregation.toValue_text (aggregation : Aggregation) :
    aggregation.toValue.text = aggregation.json := by
  cases aggregation <;> rfl

theorem Additivity.toValue_text (additivity : Additivity) :
    additivity.toValue.text = additivity.json := by
  cases additivity <;> rfl

theorem Cardinality.toValue_text (cardinality : Cardinality) :
    cardinality.toValue.text = cardinality.json := by
  cases cardinality <;> rfl

theorem JoinType.toValue_text (joinType : JoinType) : joinType.toValue.text = joinType.json := by
  cases joinType <;> rfl

theorem Relation.toValue_text (relation : Relation) : relation.toValue.text = relation.json := rfl

theorem Field.toValue_text (field : Field) : field.toValue.text = field.json := by
  simp only [Field.toValue, Value.text, Value.memberTexts, DataType.toValue_text,
    nullableValue_text string_text, Field.json]

theorem WritableField.toValue_text (field : WritableField) : field.toValue.text = field.json := rfl

theorem UpsertPolicy.toValue_text (policy : UpsertPolicy) : policy.toValue.text = policy.json := by
  simp only [UpsertPolicy.toValue, Value.text.eq_6, Value.memberTexts, array_text string_text,
    UpsertPolicy.json]

theorem WritableModel.toValue_text (writable : WritableModel) :
    writable.toValue.text = writable.json := by
  simp only [WritableModel.toValue, Value.text.eq_6, Value.memberTexts_append, Value.memberTexts,
    optionalMember_text UpsertPolicy.toValue_text, array_text WritableField.toValue_text,
    array_text string_text, WritableModel.json, List.cons_append]
  rfl

theorem MetricFilter.toValue_text (filter : MetricFilter) : filter.toValue.text = filter.json := by
  simp only [MetricFilter.toValue, Value.text.eq_6, Value.memberTexts, Literal.toValue_text,
    MetricFilter.json]
  rfl

theorem Metric.toValue_text (metric : Metric) : metric.toValue.text = metric.json := by
  simp only [Metric.toValue, Value.text.eq_6, Value.memberTexts_append, Value.memberTexts,
    DataType.toValue_text, Aggregation.toValue_text, nullableValue_text MetricFilter.toValue_text,
    optionalMember_text Additivity.toValue_text, optionalMember_text string_text, Metric.json]
  rfl

theorem Relationship.toValue_text (relationship : Relationship) :
    relationship.toValue.text = relationship.json := by
  simp only [Relationship.toValue, Value.text.eq_6, Value.memberTexts, Cardinality.toValue_text,
    JoinType.toValue_text, Relation.toValue_text, Relationship.json]
  rfl

theorem Model.toValue_text (model : Model) : model.toValue.text = model.json := by
  simp only [Model.toValue, Value.text.eq_6, Value.memberTexts_append, Value.memberTexts,
    Relation.toValue_text, nullableValue_text string_text,
    optionalMember_text WritableModel.toValue_text, array_text Field.toValue_text,
    array_text Metric.toValue_text, array_text Relationship.toValue_text, Model.json]
  rfl

theorem SemanticSnapshot.toValue_text (snapshot : SemanticSnapshot) :
    snapshot.toValue.text = snapshot.json := by
  simp only [SemanticSnapshot.toValue, Value.text.eq_6, Value.memberTexts,
    array_text Model.toValue_text, SemanticSnapshot.json]
  rfl

/-! ## Every number is written as one -/

theorem eachWellFormed_map {α : Type} {write : α → Value} (h : ∀ a, (write a).WellFormed)
    (items : List α) : Value.EachWellFormed (items.map write) := by
  induction items with
  | nil => trivial
  | cons item items ih => exact ⟨h item, ih⟩

theorem membersWellFormed_append {members others : List (String × Value)}
    (h : Value.MembersWellFormed members) (h' : Value.MembersWellFormed others) :
    Value.MembersWellFormed (members ++ others) := by
  induction members with
  | nil => exact h'
  | cons member members ih => exact ⟨h.1, ih h.2⟩

theorem nullableValue_wellFormed {α : Type} {write : α → Value} (h : ∀ a, (write a).WellFormed)
    (value : Option α) : (nullableValue write value).WellFormed := by
  cases value with
  | none => trivial
  | some a => exact h a

theorem optionalMember_wellFormed {α : Type} {write : α → Value} (h : ∀ a, (write a).WellFormed)
    (name : String) (value : Option α) :
    Value.MembersWellFormed (optionalMember name write value) := by
  cases value with
  | none => trivial
  | some a => exact ⟨h a, trivial⟩

theorem string_wellFormed (value : String) : (Value.string value).WellFormed := trivial

theorem DataType.toValue_wellFormed (dataType : DataType) : dataType.toValue.WellFormed := by
  cases dataType <;> trivial

theorem Literal.toValue_wellFormed (literal : Literal) : literal.toValue.WellFormed := by
  refine ⟨trivial, ?_, trivial⟩
  cases literal with
  | integer value => exact Json.isNumber_integer value
  | _ => trivial

theorem Field.toValue_wellFormed (field : Field) : field.toValue.WellFormed :=
  ⟨trivial, field.dataType.toValue_wellFormed, trivial,
    nullableValue_wellFormed string_wellFormed _, trivial, trivial, trivial, trivial⟩

theorem UpsertPolicy.toValue_wellFormed (policy : UpsertPolicy) : policy.toValue.WellFormed :=
  ⟨eachWellFormed_map string_wellFormed _, trivial⟩

theorem WritableField.toValue_wellFormed (field : WritableField) : field.toValue.WellFormed :=
  ⟨trivial, trivial, trivial, trivial, trivial⟩

theorem WritableModel.toValue_wellFormed (writable : WritableModel) :
    writable.toValue.WellFormed := by
  refine ⟨trivial, membersWellFormed_append
    (optionalMember_wellFormed UpsertPolicy.toValue_wellFormed _ _) ?_⟩
  exact ⟨Json.isNumber_natural _, Json.isNumber_natural _,
    eachWellFormed_map WritableField.toValue_wellFormed _,
    eachWellFormed_map string_wellFormed _, trivial⟩

theorem MetricFilter.toValue_wellFormed (filter : MetricFilter) : filter.toValue.WellFormed :=
  ⟨trivial, filter.value.toValue_wellFormed, trivial⟩

theorem Metric.toValue_wellFormed (metric : Metric) : metric.toValue.WellFormed := by
  have haggregation : metric.aggregation.toValue.WellFormed := by
    cases metric.aggregation <;> trivial
  have hadditivity : ∀ additivity : Additivity, additivity.toValue.WellFormed := by
    intro additivity
    cases additivity <;> trivial
  refine membersWellFormed_append (membersWellFormed_append (membersWellFormed_append ?_
    (optionalMember_wellFormed hadditivity _ _))
    (optionalMember_wellFormed string_wellFormed _ _)) ⟨trivial, trivial⟩
  exact ⟨trivial, metric.dataType.toValue_wellFormed, haggregation, trivial,
    nullableValue_wellFormed MetricFilter.toValue_wellFormed _, trivial⟩

theorem Relationship.toValue_wellFormed (relationship : Relationship) :
    relationship.toValue.WellFormed := by
  have hcardinality : relationship.cardinality.toValue.WellFormed := by
    cases relationship.cardinality <;> trivial
  have hjoin : relationship.joinType.toValue.WellFormed := by
    cases relationship.joinType <;> trivial
  exact ⟨trivial, trivial, ⟨trivial, trivial, trivial⟩, hcardinality, hjoin, trivial, trivial,
    trivial⟩

theorem Model.toValue_wellFormed (model : Model) : model.toValue.WellFormed := by
  refine membersWellFormed_append (membersWellFormed_append ?_
    (optionalMember_wellFormed WritableModel.toValue_wellFormed _ _)) ?_
  · exact ⟨trivial, ⟨trivial, trivial, trivial⟩, nullableValue_wellFormed string_wellFormed _,
      trivial, trivial⟩
  · exact ⟨eachWellFormed_map Field.toValue_wellFormed _,
      eachWellFormed_map Metric.toValue_wellFormed _,
      eachWellFormed_map Relationship.toValue_wellFormed _, trivial⟩

theorem SemanticSnapshot.toValue_wellFormed (snapshot : SemanticSnapshot) :
    snapshot.toValue.WellFormed :=
  ⟨trivial, trivial, eachWellFormed_map Model.toValue_wellFormed _, trivial⟩

/-! ## A value determines what it was made from -/

theorem optionalMember_injective {α : Type} {write : α → Value} (h : write.Injective)
    (name : String) : (optionalMember name write).Injective := by
  rintro (_ | a) (_ | b) heq
  · rfl
  · cases heq
  · cases heq
  · rw [h (Prod.mk.inj (List.cons.inj heq).1).2]

/-- Lists that one function makes equal are made equal by every function that it determines. -/
theorem map_eq_map_of_imp {α β γ : Type} {f : α → β} {g : α → γ}
    (h : ∀ x y, f x = f y → g x = g y) {xs ys : List α} (heq : xs.map f = ys.map f) :
    xs.map g = ys.map g := by
  rw [← List.forall₂_eq_eq_eq, List.forall₂_map_left_iff, List.forall₂_map_right_iff] at heq ⊢
  exact heq.imp h

theorem DataType.toValue_injective : DataType.toValue.Injective := by
  intro a b h
  cases a <;> cases b <;> first | rfl | (simp [DataType.toValue] at h)

theorem Aggregation.toValue_injective : Aggregation.toValue.Injective := by
  intro a b h
  cases a <;> cases b <;> first | rfl | (simp [Aggregation.toValue] at h)

theorem Additivity.toValue_injective : Additivity.toValue.Injective := by
  intro a b h
  cases a <;> cases b <;> first | rfl | (simp [Additivity.toValue] at h)

theorem Cardinality.toValue_injective : Cardinality.toValue.Injective := by
  intro a b h
  cases a <;> cases b <;> first | rfl | (simp [Cardinality.toValue] at h)

theorem JoinType.toValue_injective : JoinType.toValue.Injective := by
  intro a b h
  cases a <;> cases b <;> first | rfl | (simp [JoinType.toValue] at h)

theorem Literal.toValue_injective : Literal.toValue.Injective := by
  intro a b h
  simp only [Literal.toValue, Value.object.injEq, List.cons.injEq, Prod.mk.injEq,
    Value.string.injEq, true_and, and_true] at h
  obtain ⟨htype, hpayload⟩ := h
  cases a <;> cases b <;>
    first
    | (simp [Literal.typeName] at htype; done)
    | (simp only [Literal.payload, Value.string.injEq, Value.boolean.injEq] at hpayload
       rw [hpayload])
    | (simp only [Literal.payload, Value.number.injEq] at hpayload
       rw [Text.toString_int_injective hpayload])

/-- Two fields with the same value differ in `nullable` at most. -/
theorem Field.toValue_eq_iff {field field' : Field} :
    field.toValue = field'.toValue ↔ field.hashed = field'.hashed := by
  have hrelationship : (nullableValue Value.string).Injective :=
    nullableValue_injective string_injective (by simp)
  simp only [Field.toValue, Value.object.injEq, List.cons.injEq, Prod.mk.injEq, true_and,
    and_true, Value.string.injEq, Value.boolean.injEq, DataType.toValue_injective.eq_iff,
    hrelationship.eq_iff, Field.hashed, Field.mk.injEq]

theorem MetricFilter.toValue_injective : MetricFilter.toValue.Injective := by
  rintro ⟨field, value⟩ ⟨field', value'⟩ h
  simp only [MetricFilter.toValue, Value.object.injEq, List.cons.injEq, Prod.mk.injEq, true_and,
    and_true, Value.string.injEq, Literal.toValue_injective.eq_iff] at h
  rw [h.1, h.2]

theorem Relationship.toValue_injective : Relationship.toValue.Injective := by
  rintro ⟨name, model, target, cardinality, join, source, key⟩
    ⟨name', model', target', cardinality', join', source', key'⟩ h
  simpa only [Relationship.toValue, Value.object.injEq, List.cons.injEq, Prod.mk.injEq, true_and,
    and_true, Value.string.injEq, Relation.toValue_injective.eq_iff,
    Cardinality.toValue_injective.eq_iff, JoinType.toValue_injective.eq_iff,
    Relationship.mk.injEq] using h

theorem Metric.toValue_injective : Metric.toValue.Injective := by
  rintro ⟨name, type, aggregation, field, filter, additivity, anchor, visible⟩
    ⟨name', type', aggregation', field', filter', additivity', anchor', visible'⟩ h
  have hfilter : (nullableValue MetricFilter.toValue).Injective :=
    nullableValue_injective MetricFilter.toValue_injective (by simp [MetricFilter.toValue])
  simp only [Metric.toValue, Value.object.injEq] at h
  obtain ⟨hmembers, hvisible⟩ := List.append_inj' h rfl
  rw [List.append_assoc, List.append_assoc] at hmembers
  obtain ⟨hfixed, hoptional⟩ := List.append_inj hmembers rfl
  simp only [List.cons.injEq, Prod.mk.injEq, true_and, and_true, Value.string.injEq,
    DataType.toValue_injective.eq_iff, Aggregation.toValue_injective.eq_iff,
    hfilter.eq_iff] at hfixed
  simp only [List.cons.injEq, Prod.mk.injEq, true_and, and_true, Value.boolean.injEq] at hvisible
  obtain ⟨rfl, rfl, rfl, rfl, rfl⟩ := hfixed
  subst hvisible
  -- The two optional members have different names, so a member tells which of them it is.
  have hboth : additivity = additivity' ∧ anchor = anchor' := by
    cases additivity <;> cases additivity' <;> cases anchor <;> cases anchor' <;>
      simp_all [optionalMember, Additivity.toValue_injective.eq_iff]
  rw [hboth.1, hboth.2]

/-- Two models with the same value differ in the `nullable` of their fields at most. -/
theorem Model.hashed_eq_of_toValue_eq {model model' : Model} (h : model.toValue = model'.toValue) :
    model.hashed = model'.hashed := by
  have htimezone : (nullableValue Value.string).Injective :=
    nullableValue_injective string_injective (by simp)
  simp only [Model.toValue, Value.object.injEq] at h
  obtain ⟨hmembers, hlists⟩ := List.append_inj' h rfl
  obtain ⟨hfixed, hwritable⟩ := List.append_inj hmembers rfl
  simp only [List.cons.injEq, Prod.mk.injEq, true_and, and_true, Value.array.injEq,
    Metric.toValue_injective.list_map.eq_iff, Relationship.toValue_injective.list_map.eq_iff]
    at hlists
  simp only [List.cons.injEq, Prod.mk.injEq, true_and, and_true, Value.string.injEq,
    Value.boolean.injEq, Relation.toValue_injective.eq_iff, htimezone.eq_iff] at hfixed
  have hfields : model.fields.map Field.hashed = model'.fields.map Field.hashed :=
    map_eq_map_of_imp (fun _ _ => Field.toValue_eq_iff.mp) hlists.1
  simp only [Model.hashed, Model.mk.injEq]
  exact ⟨hfixed.1, hfixed.2.1, hfixed.2.2.1, hfixed.2.2.2,
    optionalMember_injective WritableModel.toValue_injective _ hwritable, hfields, hlists.2⟩

theorem SemanticSnapshot.hashed_eq_of_json_eq {snapshot snapshot' : SemanticSnapshot}
    (h : snapshot.json = snapshot'.json) : snapshot.hashed = snapshot'.hashed := by
  rw [← snapshot.toValue_text, ← snapshot'.toValue_text] at h
  have hvalue := Value.text_inj snapshot.toValue_wellFormed snapshot'.toValue_wellFormed h
  simp only [SemanticSnapshot.toValue, Value.object.injEq, List.cons.injEq, Prod.mk.injEq,
    true_and, and_true, Value.string.injEq, Value.array.injEq] at hvalue
  obtain ⟨hversion, hrevision, hmodels⟩ := hvalue
  simp only [SemanticSnapshot.hashed, SemanticSnapshot.mk.injEq]
  exact ⟨hversion, hrevision, map_eq_map_of_imp (fun _ _ => Model.hashed_eq_of_toValue_eq) hmodels⟩

/-! ## Hashes of snapshots -/

/-- Serialized snapshots that are equal come from snapshots that differ in `nullable` at most, and
`nullable` is not written. -/
structure HashBackend.Faithful (backend : HashBackend) : Prop where
  determines : ∀ snapshot snapshot' bytes, backend.snapshotJson snapshot = some bytes →
    backend.snapshotJson snapshot' = some bytes → snapshot.hashed = snapshot'.hashed
  skips : ∀ snapshot, backend.snapshotJson snapshot.hashed = backend.snapshotJson snapshot

theorem bytesOf_injective : Function.Injective bytesOf := Utf8.bytes_injective

theorem Field.json_hashed (field : Field) : field.hashed.json = field.json := rfl

theorem Model.json_hashed (model : Model) : model.hashed.json = model.json := by
  simp only [Model.json, Model.hashed, List.map_map, Function.comp_def, Field.json_hashed]

/-- The serializer of the program is such a backend. -/
theorem standardHash_faithful : standardHash.Faithful where
  determines := by
    intro snapshot snapshot' bytes h h'
    apply SemanticSnapshot.hashed_eq_of_json_eq
    apply bytesOf_injective
    rw [Option.some.inj h, Option.some.inj h']
  skips := by
    intro snapshot
    have hjson : snapshot.hashed.json = snapshot.json := by
      simp only [SemanticSnapshot.json, SemanticSnapshot.hashed, List.map_map, Function.comp_def,
        Model.json_hashed]
    simp only [standardHash, hjson]

theorem hexDigit_injective : ∀ m < 16, ∀ n < 16, hexDigit m = hexDigit n → m = n := by decide

theorem hexByte_injective {byte byte' : UInt8} (h : hexByte byte = hexByte byte') :
    byte = byte' := by
  simp only [hexByte, List.cons.injEq, and_true] at h
  have hbyte := byte.toNat_lt
  have hbyte' := byte'.toNat_lt
  have hhigh := hexDigit_injective _ (by omega) _ (by omega) h.1
  have hlow := hexDigit_injective _ (by omega) _ (by omega) h.2
  exact UInt8.toNat_inj.mp (by omega)

theorem flatMap_hexByte_injective {bytes bytes' : List UInt8}
    (h : bytes.flatMap hexByte = bytes'.flatMap hexByte) : bytes = bytes' := by
  induction bytes generalizing bytes' with
  | nil =>
    cases bytes' with
    | nil => rfl
    | cons byte' bytes' => cases h
  | cons byte bytes ih =>
    cases bytes' with
    | nil => cases h
    | cons byte' bytes' =>
      rw [List.flatMap_cons, List.flatMap_cons] at h
      obtain ⟨hbyte, hrest⟩ := List.append_inj h rfl
      rw [hexByte_injective hbyte, ih hrest]

/-- The written hash determines the digest. -/
theorem HashBackend.digest_eq_of_sha256_eq {backend : HashBackend} {bytes bytes' : List UInt8}
    (h : backend.sha256 bytes = backend.sha256 bytes') :
    backend.digest bytes = backend.digest bytes' := by
  have hlist := congrArg String.toList h
  simp only [HashBackend.sha256, String.toList_append, String.toList_ofList] at hlist
  have hbytes := flatMap_hexByte_injective (List.append_cancel_left hlist)
  exact Vector.toArray_inj.mp (Array.toList_inj.mp hbytes)

end Postgresem
