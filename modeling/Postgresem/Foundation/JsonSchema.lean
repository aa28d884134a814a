import Postgresem.Foundation.JsonNumber

/-! The keywords of JSON Schema that describe the arguments of a tool. Objects have no properties but
those named. -/
namespace Json

inductive Schema where
  | const (value : Value)
  | string (maxLength : Option Nat)
  | integer (minimum maximum : Int)
  | object (required : List String) (properties : List (String × Schema))

mutual

def Schema.accepts : Schema → Value → Bool
  | .const value, other => value.same other
  -- `maxLength` counts characters, not bytes.
  | .string maxLength, .string text => maxLength.all fun limit => decide (text.length ≤ limit)
  | .integer minimum maximum, .number text =>
    (integerOf text).any fun value => decide (minimum ≤ value) && decide (value ≤ maximum)
  | .object required properties, .object members =>
    required.all (fun name => members.any fun entry => entry.1 == name) &&
      members.all fun entry => Schema.acceptsMember properties entry
  | _, _ => false

def Schema.acceptsMember : List (String × Schema) → String × Value → Bool
  | [], _ => false
  | (name, schema) :: rest, entry =>
    if name = entry.1 then schema.accepts entry.2 else Schema.acceptsMember rest entry

end

theorem Schema.acceptsMember_eq (properties : List (String × Schema)) (entry : String × Value) :
    Schema.acceptsMember properties entry =
      (properties.lookup entry.1).any fun schema => schema.accepts entry.2 := by
  induction properties with
  | nil => rfl
  | cons property rest ih =>
    obtain ⟨name, schema⟩ := property
    rw [Schema.acceptsMember, List.lookup_cons, ih]
    by_cases h : name = entry.1
    · rw [if_pos h, beq_iff_eq.mpr h.symm]
      rfl
    · have hne : (entry.1 == name) = false := beq_eq_false_iff_ne.mpr (Ne.symm h)
      rw [if_neg h, hne]

/-- Each member of an accepted object is accepted by the schema of its name. -/
theorem Schema.accepts_member {required : List String} {properties : List (String × Schema)}
    {members : List (String × Value)}
    (h : (Schema.object required properties).accepts (.object members) = true)
    {name : String} {value : Value} (hmember : (name, value) ∈ members) {schema : Schema}
    (hproperty : properties.lookup name = some schema) : schema.accepts value = true := by
  rw [Schema.accepts, Bool.and_eq_true, List.all_eq_true, List.all_eq_true] at h
  have haccepted := h.2 _ hmember
  rwa [Schema.acceptsMember_eq, hproperty] at haccepted

end Json
