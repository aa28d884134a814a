import Mathlib.Data.String.Basic

/-! Compact JSON text: objects in the order of their members, no white space, and the escapes of
the usual serializers. -/
namespace Json

def hexDigit (nibble : Nat) : Char :=
  (['0', '1', '2', '3', '4', '5', '6', '7', '8', '9', 'a', 'b', 'c', 'd', 'e', 'f'][nibble]?).getD '0'

def escapeChar (character : Char) : String :=
  if character = '"' then "\\\""
  else if character = '\\' then "\\\\"
  else if character = '\n' then "\\n"
  else if character = '\r' then "\\r"
  else if character = '\t' then "\\t"
  else if character.toNat = 8 then "\\b"
  else if character.toNat = 12 then "\\f"
  else if character.toNat < 32 then
    "\\u00" ++ String.ofList [hexDigit (character.toNat / 16), hexDigit (character.toNat % 16)]
  else String.ofList [character]

def string (value : String) : String :=
  "\"" ++ String.join (value.toList.map escapeChar) ++ "\""

def boolean (value : Bool) : String := if value then "true" else "false"

def array (items : List String) : String := "[" ++ ",".intercalate items ++ "]"

def object (members : List (String × String)) : String :=
  "\x7b" ++ ",".intercalate (members.map fun member => string member.1 ++ ":" ++ member.2) ++ "\x7d"

def nullable {α : Type} (write : α → String) : Option α → String
  | some value => write value
  | none => "null"

/-- A member that is left out when there is no value. -/
def optional {α : Type} (name : String) (write : α → String) : Option α → List (String × String)
  | some value => [(name, write value)]
  | none => []

/-- A parsed value. A number keeps its text. -/
inductive Value where
  | null
  | boolean (value : Bool)
  | number (text : String)
  | string (value : String)
  | array (items : List Value)
  | object (members : List (String × Value))

mutual

def Value.text : Value → String
  | .null => "null"
  | .boolean value => Json.boolean value
  | .number text => text
  | .string value => Json.string value
  | .array items => Json.array (Value.texts items)
  | .object members => Json.object (Value.memberTexts members)

def Value.texts : List Value → List String
  | [] => []
  | value :: values => value.text :: Value.texts values

def Value.memberTexts : List (String × Value) → List (String × String)
  | [] => []
  | (name, value) :: members => (name, value.text) :: Value.memberTexts members

end

theorem Value.texts_map {α : Type} (f : α → Value) (xs : List α) :
    Value.texts (xs.map f) = xs.map fun x => (f x).text := by
  induction xs with
  | nil => rfl
  | cons x xs ih => rw [List.map_cons, Value.texts, ih, List.map_cons]

theorem Value.memberTexts_append (members others : List (String × Value)) :
    Value.memberTexts (members ++ others) =
      Value.memberTexts members ++ Value.memberTexts others := by
  induction members with
  | nil => rfl
  | cons member members ih =>
    rw [List.cons_append, Value.memberTexts, Value.memberTexts, ih, List.cons_append]

/-- The number of bytes of the serialized value. -/
def Value.byteSize (value : Value) : Nat := value.text.utf8ByteSize

def Value.isArray : Value → Bool
  | .array _ => true
  | _ => false

mutual

def Value.same : Value → Value → Bool
  | .null, .null => true
  | .boolean value, .boolean other => value == other
  | .number text, .number other => text == other
  | .string value, .string other => value == other
  | .array items, .array others => Value.sameEach items others
  | .object members, .object others => Value.sameMembers members others
  | _, _ => false

def Value.sameEach : List Value → List Value → Bool
  | [], [] => true
  | value :: values, other :: others => value.same other && Value.sameEach values others
  | _, _ => false

def Value.sameMembers : List (String × Value) → List (String × Value) → Bool
  | [], [] => true
  | (name, value) :: members, (otherName, other) :: others =>
    name == otherName && value.same other && Value.sameMembers members others
  | _, _ => false

end

mutual

theorem Value.same_iff : ∀ value other : Value, value.same other = true ↔ value = other
  | .null, other => by cases other <;> simp [Value.same]
  | .boolean value, other => by cases other <;> simp [Value.same]
  | .number text, other => by cases other <;> simp [Value.same]
  | .string value, other => by cases other <;> simp [Value.same]
  | .array items, other => by
    cases other with
    | array others => rw [Value.same, Value.sameEach_iff items others, Value.array.injEq]
    | _ => simp [Value.same]
  | .object members, other => by
    cases other with
    | object others => rw [Value.same, Value.sameMembers_iff members others, Value.object.injEq]
    | _ => simp [Value.same]

theorem Value.sameEach_iff : ∀ values others : List Value,
    Value.sameEach values others = true ↔ values = others
  | [], others => by cases others <;> simp [Value.sameEach]
  | value :: values, [] => by simp [Value.sameEach]
  | value :: values, other :: others => by
    rw [Value.sameEach, Bool.and_eq_true, Value.same_iff value other,
      Value.sameEach_iff values others, List.cons.injEq]

theorem Value.sameMembers_iff : ∀ members others : List (String × Value),
    Value.sameMembers members others = true ↔ members = others
  | [], others => by cases others <;> simp [Value.sameMembers]
  | member :: members, [] => by simp [Value.sameMembers]
  | (name, value) :: members, (otherName, other) :: others => by
    rw [Value.sameMembers, Bool.and_eq_true, Bool.and_eq_true, Value.same_iff value other,
      Value.sameMembers_iff members others, List.cons.injEq, Prod.mk.injEq, beq_iff_eq]

end

instance : DecidableEq Value := fun value other =>
  decidable_of_iff (value.same other = true) (Value.same_iff value other)

end Json
