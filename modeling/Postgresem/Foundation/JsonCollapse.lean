import Postgresem.Foundation.JsonDecoding
import Postgresem.Foundation.JsonGrammar
import Postgresem.Foundation.OrderedMap

/-! Documents as values with maps. A reader that collects the members of an object into a map keeps the
last of those with one name, and a number that is no machine integer goes through floating point. -/
namespace Json

/-- A statement about values, from their items and members up. -/
@[elab_as_elim]
theorem Value.nested {motive : Value → Prop} (null : motive .null)
    (boolean : ∀ value, motive (.boolean value)) (number : ∀ text, motive (.number text))
    (string : ∀ value, motive (.string value))
    (array : ∀ items, (∀ value ∈ items, motive value) → motive (.array items))
    (object : ∀ members, (∀ member ∈ members, motive member.2) → motive (.object members)) :
    ∀ value, motive value := by
  apply Value.rec (motive_1 := motive) (motive_2 := fun items => ∀ value ∈ items, motive value)
    (motive_3 := fun members => ∀ member ∈ members, motive member.2)
    (motive_4 := fun member => motive member.2)
  · exact null
  · exact boolean
  · exact number
  · exact string
  · exact array
  · exact object
  · simp
  · exact fun value values hvalue hvalues => List.forall_mem_cons.mpr ⟨hvalue, hvalues⟩
  · simp
  · exact fun member members hmember hmembers => List.forall_mem_cons.mpr ⟨hmember, hmembers⟩
  · exact fun name value hvalue => hvalue

section Collapse

def isMachineInteger (text : String) : Bool := (asI64 text).isSome || (asU64 text).isSome

/-- An integer of 64 bits is written as it was read; what is in the range of floating point is written
anew. -/
def printed (finite : String → Bool) (reprint : String → String) (text : String) : String :=
  if finite text && !isMachineInteger text then reprint text else text

variable (f : String → String)

mutual

/-- The value as it is held with maps, with the texts of its numbers rewritten. -/
def Value.collapse : Value → Value
  | .number text => .number (f text)
  | .array items => .array (Value.collapseItems items)
  | .object members => .object (OrderedMap.ofEntries (Value.collapseMembers members))
  | value => value

def Value.collapseItems : List Value → List Value
  | [] => []
  | value :: values => value.collapse :: Value.collapseItems values

def Value.collapseMembers : Members → Members
  | [] => []
  | (name, value) :: members => (name, value.collapse) :: Value.collapseMembers members

end

/-- Of the members with one name only the last is kept. -/
def Value.lastWins (value : Value) : Value := value.collapse id

/-- `serde_json::from_slice` into a value. `finite` says of the text of a number whether its conversion
to floating point is in range, and `reprint` writes the converted number. -/
def fromSlice (finite : String → Bool) (reprint : String → String) (input : List UInt8) :
    Option Value :=
  (read input).bind fun value =>
    if value.numbersAll (readsNumber finite) then some (value.collapse (printed finite reprint)) else none

mutual

/-- No object repeats a name, at any depth. -/
def Value.unrepeated : Value → Bool
  | .array items => Value.itemsUnrepeated items
  | .object members => decide (members.map Prod.fst).Nodup && Value.membersUnrepeated members
  | _ => true

def Value.itemsUnrepeated : List Value → Bool
  | [] => true
  | value :: values => value.unrepeated && Value.itemsUnrepeated values

def Value.membersUnrepeated : Members → Bool
  | [] => true
  | (_, value) :: members => value.unrepeated && Value.membersUnrepeated members

end

variable {f}

theorem collapse_array (items : List Value) :
    (Value.array items).collapse f = .array (items.map (Value.collapse f)) := by
  rw [Value.collapse]
  congr 1
  induction items with
  | nil => rfl
  | cons value values ih => rw [Value.collapseItems, ih, List.map_cons]

theorem collapse_object (members : Members) : (Value.object members).collapse f =
    .object (OrderedMap.ofEntries (OrderedMap.mapValues (Value.collapse f) members)) := by
  rw [Value.collapse]
  congr 2
  induction members with
  | nil => rfl
  | cons member members ih =>
    rw [Value.collapseMembers, ih]
    rfl

theorem unrepeated_array (items : List Value) :
    (Value.array items).unrepeated = items.all Value.unrepeated := by
  rw [Value.unrepeated]
  induction items with
  | nil => rfl
  | cons value values ih => rw [Value.itemsUnrepeated, ih, List.all_cons]

theorem unrepeated_object (members : Members) : (Value.object members).unrepeated =
    (decide (members.map Prod.fst).Nodup && members.all fun member => member.2.unrepeated) := by
  rw [Value.unrepeated]
  congr 1
  induction members with
  | nil => rfl
  | cons member members ih => rw [Value.membersUnrepeated, ih, List.all_cons]

end Collapse

section Sorted

/-- The objects of the value have their names in order, each once. -/
inductive Value.Sorted : Value → Prop
  | null : Value.Sorted .null
  | boolean (value : Bool) : Value.Sorted (.boolean value)
  | number (text : String) : Value.Sorted (.number text)
  | string (value : String) : Value.Sorted (.string value)
  | array {items : List Value} : (∀ value ∈ items, value.Sorted) → Value.Sorted (.array items)
  | object {members : Members} : OrderedMap.Sorted members →
      (∀ member ∈ members, member.2.Sorted) → Value.Sorted (.object members)

theorem mem_collapsed {f : String → String} {members : Members} {member : String × Value}
    (h : member ∈ OrderedMap.ofEntries (OrderedMap.mapValues (Value.collapse f) members)) :
    ∃ original ∈ members, (original.1, original.2.collapse f) = member :=
  List.mem_map.mp (OrderedMap.mem_ofEntries h)

theorem sorted_collapse (f : String → String) (value : Value) : (value.collapse f).Sorted := by
  induction value using Value.nested with
  | null => exact .null
  | boolean value => exact .boolean value
  | number text => exact .number (f text)
  | string value => exact .string value
  | array items ih =>
    rw [collapse_array]
    exact .array (List.forall_mem_map.mpr ih)
  | object members ih =>
    rw [collapse_object]
    refine .object (OrderedMap.sorted_ofEntries _) fun member hmember => ?_
    obtain ⟨original, horiginal, rfl⟩ := mem_collapsed hmember
    exact ih original horiginal

theorem Value.Sorted.unrepeated {value : Value} (h : value.Sorted) : value.unrepeated = true := by
  induction h with
  | null | boolean | number | string => rfl
  | array _ ih =>
    rw [unrepeated_array, List.all_eq_true]
    exact ih
  | object hsorted _ ih =>
    rw [unrepeated_object, Bool.and_eq_true, decide_eq_true_eq, List.all_eq_true]
    exact ⟨hsorted.nodup_keys, ih⟩

/-- A sorted value is collapsed already, except for its numbers. -/
theorem Value.Sorted.lastWins_eq {value : Value} (h : value.Sorted) : value.lastWins = value := by
  induction h with
  | null | boolean | number | string => rfl
  | array _ ih =>
    rw [Value.lastWins, collapse_array]
    congr 1
    exact List.map_congr_left ih |>.trans (List.map_id _)
  | @object members hsorted _ ih =>
    have hmap : OrderedMap.mapValues (Value.collapse id) members = members := by
      have hsame := List.map_congr_left (f := fun member : String × Value =>
        (member.1, member.2.collapse id)) (g := id) fun member hmember =>
          Prod.ext rfl (ih member hmember)
      rw [OrderedMap.mapValues, hsame, List.map_id]
    rw [Value.lastWins, collapse_object, hmap, OrderedMap.ofEntries_of_sorted hsorted]

end Sorted

section Read
/-! What the reader of a text returns is written as it was read. -/

/-- The part has numbers only, and is nested at most so deep. -/
def Part.Bounded (depth : Nat) : Part → Prop
  | .value found => found.WellFormed ∧ found.depth ≤ depth
  | .items found => Value.EachWellFormed found ∧ Value.itemsDepth found ≤ depth
  | .members found => Value.MembersWellFormed found ∧ Value.membersDepth found ≤ depth

theorem Derives.bounded {depth : Nat} {text rest : List Char} {part : Part}
    (h : Derives depth text part rest) : part.Bounded depth := by
  induction h with
  | null | truth | falsity | string => exact ⟨trivial, Nat.zero_le _⟩
  | @number _ text minus integer fraction exponent _ hnumber =>
    have hwritten : IsNumber (String.ofList text).toList minus integer fraction exponent := by
      rw [String.toList_ofList]
      exact hnumber
    exact ⟨⟨minus, integer, fraction, exponent, hwritten⟩, Nat.zero_le _⟩
  | emptyArray | emptyObject => exact ⟨trivial, Nat.succ_le_succ (Nat.zero_le _)⟩
  | array _ ih | object _ ih => exact ⟨ih.1, Nat.succ_le_succ ih.2⟩
  | lastItem _ _ _ ih => exact ⟨⟨ih.1, trivial⟩, Nat.max_le.mpr ⟨ih.2, Nat.zero_le _⟩⟩
  | lastMember _ _ _ _ _ _ ih => exact ⟨⟨ih.1, trivial⟩, Nat.max_le.mpr ⟨ih.2, Nat.zero_le _⟩⟩
  | item _ _ _ _ ih ih' => exact ⟨⟨ih.1, ih'.1⟩, Nat.max_le.mpr ⟨ih.2, ih'.2⟩⟩
  | member _ _ _ _ _ _ _ ih ih' => exact ⟨⟨ih.1, ih'.1⟩, Nat.max_le.mpr ⟨ih.2, ih'.2⟩⟩

theorem read_bounded {input : List UInt8} {value : Value} (h : read input = some value) :
    value.WellFormed ∧ value.depth ≤ maxDepth := by
  obtain ⟨text, -, htext⟩ := Option.bind_eq_some_iff.mp h
  obtain ⟨_, _, _, hderives, _⟩ := readText_eq_some.mp htext
  exact hderives.bounded

theorem wellFormed_object {members : Members} :
    (Value.object members).WellFormed ↔ ∀ member ∈ members, member.2.WellFormed := by
  rw [Value.WellFormed]
  induction members with
  | nil => simp [Value.MembersWellFormed]
  | cons member members ih =>
    rw [Value.MembersWellFormed, ih, List.forall_mem_cons]

theorem itemsDepth_le_iff {items : List Value} {n : Nat} :
    Value.itemsDepth items ≤ n ↔ ∀ value ∈ items, value.depth ≤ n := by
  induction items with
  | nil => simp [Value.itemsDepth]
  | cons value values ih => rw [Value.itemsDepth, Nat.max_le, ih, List.forall_mem_cons]

theorem membersDepth_le_iff {members : Members} {n : Nat} :
    Value.membersDepth members ≤ n ↔ ∀ member ∈ members, member.2.depth ≤ n := by
  induction members with
  | nil => simp [Value.membersDepth]
  | cons member members ih => rw [Value.membersDepth, Nat.max_le, ih, List.forall_mem_cons]

theorem depth_collapse (f : String → String) (value : Value) :
    (value.collapse f).depth ≤ value.depth := by
  induction value using Value.nested with
  | null | boolean | number | string => exact Nat.le_refl _
  | array items ih =>
    rw [collapse_array, Value.depth, Value.depth]
    have hall := itemsDepth_le_iff.mp (Nat.le_refl (Value.itemsDepth items))
    refine Nat.succ_le_succ (itemsDepth_le_iff.mpr (List.forall_mem_map.mpr fun value hvalue => ?_))
    exact (ih value hvalue).trans (hall value hvalue)
  | object members ih =>
    rw [collapse_object, Value.depth, Value.depth]
    have hall := membersDepth_le_iff.mp (Nat.le_refl (Value.membersDepth members))
    refine Nat.succ_le_succ (membersDepth_le_iff.mpr fun member hmember => ?_)
    obtain ⟨original, horiginal, rfl⟩ := mem_collapsed hmember
    exact (ih original horiginal).trans (hall original horiginal)

end Read

section Numbers
variable {f : String → String}

theorem numbersAll_collapse {p q : String → Bool} (hf : ∀ text, p text = true → q (f text) = true)
    {value : Value} (h : value.numbersAll p = true) : (value.collapse f).numbersAll q = true := by
  induction value using Value.nested with
  | null | boolean | string => rfl
  | number text => exact hf text h
  | array items ih =>
    rw [numbersAll_array, List.all_eq_true] at h
    rw [collapse_array, numbersAll_array, List.all_eq_true]
    exact List.forall_mem_map.mpr fun value hvalue => ih value hvalue (h value hvalue)
  | object members ih =>
    rw [numbersAll_object, List.all_eq_true] at h
    rw [collapse_object, numbersAll_object, List.all_eq_true]
    intro member hmember
    obtain ⟨original, horiginal, rfl⟩ := mem_collapsed hmember
    exact ih original horiginal (h original horiginal)

theorem wellFormed_collapse {p : String → Bool}
    (hf : ∀ text, (Value.number text).WellFormed → p text = true →
      (Value.number (f text)).WellFormed)
    {value : Value} (hwell : value.WellFormed) (h : value.numbersAll p = true) :
    (value.collapse f).WellFormed := by
  induction value using Value.nested with
  | null | boolean | string => trivial
  | number text => exact hf text hwell h
  | array items ih =>
    rw [numbersAll_array, List.all_eq_true] at h
    have heach := Value.eachWellFormed_iff.mp hwell
    rw [collapse_array]
    refine Value.eachWellFormed_iff.mpr (List.forall_mem_map.mpr fun value hvalue => ?_)
    exact ih value hvalue (heach value hvalue) (h value hvalue)
  | object members ih =>
    rw [numbersAll_object, List.all_eq_true] at h
    rw [collapse_object, wellFormed_object]
    intro member hmember
    obtain ⟨original, horiginal, rfl⟩ := mem_collapsed hmember
    exact ih original horiginal (wellFormed_object.mp hwell original horiginal) (h original horiginal)

mutual

/-- The value with the texts of its numbers rewritten. -/
def Value.mapNumbers (f : String → String) : Value → Value
  | .number text => .number (f text)
  | .array items => .array (Value.mapItems f items)
  | .object members => .object (Value.mapMembers f members)
  | value => value

def Value.mapItems (f : String → String) : List Value → List Value
  | [] => []
  | value :: values => value.mapNumbers f :: Value.mapItems f values

def Value.mapMembers (f : String → String) : Members → Members
  | [] => []
  | (name, value) :: members => (name, value.mapNumbers f) :: Value.mapMembers f members

end

theorem mapNumbers_array (items : List Value) :
    (Value.array items).mapNumbers f = .array (items.map (Value.mapNumbers f)) := by
  rw [Value.mapNumbers]
  congr 1
  induction items with
  | nil => rfl
  | cons value values ih => rw [Value.mapItems, ih, List.map_cons]

theorem mapNumbers_object (members : Members) : (Value.object members).mapNumbers f =
    .object (OrderedMap.mapValues (Value.mapNumbers f) members) := by
  rw [Value.mapNumbers]
  congr 1
  induction members with
  | nil => rfl
  | cons member members ih =>
    rw [Value.mapMembers, ih]
    rfl

/-- Rewriting the numbers is independent of which members are kept. -/
theorem collapse_eq_mapNumbers (value : Value) : value.collapse f = value.lastWins.mapNumbers f := by
  induction value using Value.nested with
  | null | boolean | number | string => rfl
  | array items ih =>
    rw [Value.lastWins, collapse_array, collapse_array, mapNumbers_array, List.map_map]
    congr 1
    exact List.map_congr_left ih
  | object members ih =>
    rw [Value.lastWins, collapse_object, collapse_object, mapNumbers_object,
      OrderedMap.mapValues_ofEntries]
    congr 2
    rw [OrderedMap.mapValues, OrderedMap.mapValues, OrderedMap.mapValues, List.map_map]
    exact List.map_congr_left fun member hmember => Prod.ext rfl (ih member hmember)

end Numbers

section Blind
/-! Decoders that do not see how a number is written. -/
variable {α : Type} {f : String → String}

def NumberBlind {α : Type} (f : String → String) (decode : Value → α) : Prop :=
  ∀ value, decode (value.mapNumbers f) = decode value

theorem blind_asString : NumberBlind f asString := by
  intro value
  cases value <;> rfl

theorem blind_asBoolean : NumberBlind f asBoolean := by
  intro value
  cases value <;> rfl

theorem blind_isNull : NumberBlind f isNull := by
  intro value
  cases value <;> rfl

theorem blind_asInteger (h : ∀ text, asI64 (f text) = asI64 text) : NumberBlind f asInteger := by
  intro value
  cases value with
  | number text => exact h text
  | _ => rfl

theorem blind_listOf {decode : Value → Option α} (h : NumberBlind f decode) :
    NumberBlind f (listOf decode) := by
  intro value
  cases value with
  | array items =>
    rw [mapNumbers_array]
    show (items.map (Value.mapNumbers f)).mapM decode = items.mapM decode
    rw [List.mapM_map]
    exact congrArg (fun g => items.mapM g) (funext h)
  | _ => rfl

theorem blind_unitVariant {unit : Value → Bool} (h : NumberBlind f unit) :
    NumberBlind f (unitVariant unit) := by
  intro value
  cases value with
  | object members =>
    rw [mapNumbers_object]
    match members with
    | [] => rfl
    | [member] =>
      show (if unit (member.2.mapNumbers f) = true then _ else _) = _
      rw [h]
      rfl
    | _ :: _ :: _ => rfl
  | _ => rfl

theorem blind_variantOf (variants : List (String × α)) {unit : Value → Bool}
    (h : NumberBlind f unit) : NumberBlind f (variantOf variants unit) := by
  intro value
  rw [variantOf, variantOf, blind_unitVariant h]

theorem fields_mapNumbers (names : List String) (value : Value) :
    fields names (value.mapNumbers f) =
      (fields names value).map (OrderedMap.mapValues (Value.mapNumbers f)) := by
  cases value with
  | object members =>
    have hkeys : (OrderedMap.mapValues (Value.mapNumbers f) members).map Prod.fst =
        members.map Prod.fst := by
      rw [OrderedMap.mapValues, List.map_map]
      rfl
    have hall : (OrderedMap.mapValues (Value.mapNumbers f) members).all
        (fun member => names.contains member.1) =
          members.all fun member => names.contains member.1 := by
      rw [OrderedMap.mapValues, List.all_map]
      rfl
    rw [mapNumbers_object, fields, fields, hall, hkeys]
    split <;> rfl
  | array items =>
    rw [mapNumbers_array, fields, fields, List.length_map]
    split
    · rw [Option.map_some, OrderedMap.mapValues, List.zip_map_right]
      rfl
    · rfl
  | _ => rfl

theorem knownFields_mapNumbers (names : List String) (value : Value) :
    knownFields names (value.mapNumbers f) =
      (knownFields names value).map (OrderedMap.mapValues (Value.mapNumbers f)) := by
  cases value with
  | object members =>
    rw [mapNumbers_object, knownFields, knownFields, OrderedMap.mapValues, List.filter_map]
    exact (congrArg (fields names) (mapNumbers_object _)).symm.trans (fields_mapNumbers names _)
  | array items => exact fields_mapNumbers names (.array items)
  | _ => rfl

theorem field_mapNumbers {decode : Value → Option α} (h : NumberBlind f decode) (members : Members)
    (name : String) :
    field decode (OrderedMap.mapValues (Value.mapNumbers f) members) name =
      field decode members name := by
  rw [field, field, OrderedMap.lookup_mapValues, Option.bind_map]
  exact congrArg (fun g => (members.lookup name).bind g) (funext h)

end Blind

section Navigation

/-- The last member of a name. -/
def lastMember (name : String) : Value → Option Value
  | .object members => (members.filter fun member => member.1 = name).getLast?.map Prod.snd
  | _ => none

theorem lookup_collapse (f : String → String) (members : Members) (name : String) :
    (OrderedMap.ofEntries (OrderedMap.mapValues (Value.collapse f) members)).lookup name =
      (lastMember name (.object members)).map (Value.collapse f) := by
  rw [OrderedMap.lookup_ofEntries, OrderedMap.mapValues, List.filter_map, List.getLast?_map,
    Option.map_map, lastMember, Option.map_map]
  rfl

theorem perm_collapse (f : String → String) {members : Members} (h : (members.map Prod.fst).Nodup) :
    (OrderedMap.ofEntries (OrderedMap.mapValues (Value.collapse f) members)).Perm
      (OrderedMap.mapValues (Value.collapse f) members) := by
  refine OrderedMap.perm_ofEntries ?_
  rwa [OrderedMap.mapValues, List.map_map]

/-- Where no name is repeated each member is kept. -/
theorem lookup_collapse_of_nodup (f : String → String) {members : Members}
    (h : (members.map Prod.fst).Nodup) (name : String) :
    (OrderedMap.ofEntries (OrderedMap.mapValues (Value.collapse f) members)).lookup name =
      (members.lookup name).map (Value.collapse f) := by
  have hkeys : ((OrderedMap.mapValues (Value.collapse f) members).map Prod.fst).Nodup := by
    rwa [OrderedMap.mapValues, List.map_map]
  rw [← OrderedMap.lookup_mapValues]
  ext value
  rw [lookup_eq_some_iff ((perm_collapse f h).map _ |>.nodup_iff.mpr hkeys), lookup_eq_some_iff hkeys,
    (perm_collapse f h).mem_iff]

end Navigation

end Json
