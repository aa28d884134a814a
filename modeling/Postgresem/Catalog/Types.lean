import Postgresem.Semantic.Literal

/-! The PostgreSQL types that models are made of, and the identifiers that need no quotes. -/
namespace Postgresem

def startsWith (prefixText value : String) : Bool := prefixText.toList.isPrefixOf value.toList

def endsWith (suffixText value : String) : Bool := suffixText.toList.isSuffixOf value.toList

def postgresDataType (value : String) : Option DataType :=
  let value := value.toLower
  if value ∈ ["boolean", "bool"] then some .boolean
  else if value ∈ ["smallint", "integer", "bigint", "int2", "int4", "int8"] then some .integer
  else if value == "numeric" || value == "decimal" || startsWith "numeric(" value
      || startsWith "decimal(" value then some .numeric
  else if value == "text" || value == "character varying" || startsWith "character varying(" value
      || value == "varchar" || startsWith "varchar(" value || value == "character"
      || startsWith "character(" value || value == "char" || startsWith "char(" value then
    some .text
  else if value == "date" then some .date
  else if value == "timestamp without time zone"
      || (startsWith "timestamp(" value && endsWith " without time zone" value) then
    some .timestamp
  else if value == "timestamp with time zone" || value == "timestamptz"
      || (startsWith "timestamp(" value && endsWith " with time zone" value) then
    some .timestampTz
  else none

def startsIdentifier (c : Char) : Bool := c.isAlpha || c == '_'

def continuesIdentifier (c : Char) : Bool := c.isAlphanum || c == '_'

/-- An ASCII letter or an underscore, then these and digits. -/
def portableIdentifier (value : String) : Bool :=
  match value.toList with
  | [] => false
  | first :: rest => startsIdentifier first && rest.all continuesIdentifier

theorem portableIdentifier_all {value : String} (h : portableIdentifier value = true) :
    value.toList ≠ [] ∧ ∀ c ∈ value.toList, continuesIdentifier c = true := by
  unfold portableIdentifier at h
  cases htext : value.toList with
  | nil => simp [htext] at h
  | cons first rest =>
    rw [htext, Bool.and_eq_true, List.all_eq_true] at h
    refine ⟨List.cons_ne_nil first rest, List.forall_mem_cons.mpr ⟨?_, h.2⟩⟩
    have hfirst := h.1
    simp only [startsIdentifier, Bool.or_eq_true] at hfirst
    simp only [continuesIdentifier, Char.isAlphanum, Bool.or_eq_true]
    tauto

end Postgresem
