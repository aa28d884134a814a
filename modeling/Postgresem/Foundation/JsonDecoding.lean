import Mathlib.Data.List.Nodup
import Mathlib.Data.List.Perm.Basic
import Mathlib.Logic.Relation
import Postgresem.Foundation.JsonNumber

/-! Decoders of JSON values, as derived deserializers have them: a structure is read from an object by
the names of its fields or from an array by their places, an enumeration by its tag. What such a decoder
reads does not depend on the order of members. -/
namespace Json

section Decoders
variable {α : Type}

abbrev Members := List (String × Value)

def asString : Value → Option String
  | .string value => some value
  | _ => none

def asBoolean : Value → Option Bool
  | .boolean value => some value
  | _ => none

def asInteger : Value → Option Int
  | .number text => asI64 text
  | _ => none

def asNatural : Value → Option Nat
  | .number text => asU32 text
  | _ => none

def isNull : Value → Bool
  | .null => true
  | _ => false

/-- What is a unit once a value has been buffered: an empty object is one as well. -/
def isUnit : Value → Bool
  | .null => true
  | .object [] => true
  | _ => false

def orNull (decode : Value → Option α) : Value → Option (Option α)
  | .null => some none
  | value => (decode value).map some

def listOf (decode : Value → Option α) : Value → Option (List α)
  | .array items => items.mapM decode
  | _ => none

/-- The fields of a structure that denies unknown ones: each at most once in an object, or all of them
in an array. -/
def fields (names : List String) : Value → Option Members
  | .object members =>
    if members.all (fun member => names.contains member.1) && decide (members.map Prod.fst).Nodup then
      some members
    else none
  | .array items => if items.length = names.length then some (names.zip items) else none
  | _ => none

/-- The same for a structure that ignores unknown fields. -/
def knownFields (names : List String) : Value → Option Members
  | .object members => fields names (.object (members.filter fun member => names.contains member.1))
  | value => fields names value

/-- A structure whose last fields have defaults can leave them out, also at the end of an array. -/
def leavingOut (required : Nat) (read : List String → Value → Option Members) (names : List String) :
    Value → Option Members
  | .array items =>
    if required ≤ items.length && items.length ≤ names.length then some (names.zip items) else none
  | value => read names value

def field (decode : Value → Option α) (members : Members) (name : String) : Option α :=
  (members.lookup name).bind decode

/-- A field that may be left out. -/
def fieldOr (default : α) (decode : Value → Option α) (members : Members) (name : String) : Option α :=
  match members.lookup name with
  | some value => decode value
  | none => some default

/-- The tag of an internally tagged enumeration, and the value without it. -/
def taggedBy (tag : String) : Value → Option (Value × Value)
  | .object members =>
    match members.filter fun member => member.1 == tag with
    | [(_, value)] => some (value, .object (members.filter fun member => member.1 != tag))
    | _ => none
  | .array (value :: rest) => some (value, .array rest)
  | _ => none

/-- The name of a variant that carries nothing. -/
def unitVariant (unit : Value → Bool) : Value → Option String
  | .string name => some name
  | .object [(name, content)] => if unit content then some name else none
  | _ => none

/-- A unit variant by its name. -/
def variantOf (variants : List (String × α)) (unit : Value → Bool) (value : Value) : Option α :=
  (unitVariant unit value).bind fun name => variants.lookup name

end Decoders

section Numbers

/-- A number is an integer of 64 bits, or it is converted to floating point, which can overflow. -/
def readsNumber (finite : String → Bool) (text : String) : Bool :=
  (asI64 text).isSome || (asU64 text).isSome || finite text

mutual

def Value.numbersAll (p : String → Bool) : Value → Bool
  | .number text => p text
  | .array items => Value.itemsNumbersAll p items
  | .object members => Value.membersNumbersAll p members
  | _ => true

def Value.itemsNumbersAll (p : String → Bool) : List Value → Bool
  | [] => true
  | value :: values => value.numbersAll p && Value.itemsNumbersAll p values

def Value.membersNumbersAll (p : String → Bool) : Members → Bool
  | [] => true
  | (_, value) :: members => value.numbersAll p && Value.membersNumbersAll p members

end

theorem numbersAll_array (p : String → Bool) (items : List Value) :
    (Value.array items).numbersAll p = items.all fun value => value.numbersAll p := by
  rw [Value.numbersAll]
  induction items with
  | nil => rfl
  | cons value values ih => rw [Value.itemsNumbersAll, ih, List.all_cons]

theorem numbersAll_object (p : String → Bool) (members : Members) :
    (Value.object members).numbersAll p = members.all fun member => member.2.numbersAll p := by
  rw [Value.numbersAll]
  induction members with
  | nil => rfl
  | cons member members ih => rw [Value.membersNumbersAll, ih, List.all_cons]

end Numbers

section Reordering

/-- One change of the order of the members of one object, at any depth. -/
inductive Reorders : Value → Value → Prop
  | here {members others : Members} (h : members.Perm others) :
      Reorders (.object members) (.object others)
  | item {a b : Value} (before after : List Value) (h : Reorders a b) :
      Reorders (.array (before ++ a :: after)) (.array (before ++ b :: after))
  | member {a b : Value} (name : String) (before after : Members) (h : Reorders a b) :
      Reorders (.object (before ++ (name, a) :: after)) (.object (before ++ (name, b) :: after))

/-- Values that differ in nothing but the order of members. -/
abbrev Reordered : Value → Value → Prop := Relation.ReflTransGen Reorders

/-- What is read does not depend on the order of members. -/
def Stable {α : Type} (read : Value → α) : Prop := ∀ a b, Reorders a b → read a = read b

abbrev Similar : Value → Value → Prop := Relation.ReflGen Reorders

/-- Members that answer every name alike. -/
def Alike (members others : Members) : Prop :=
  ∀ name, Option.Rel Similar (members.lookup name) (others.lookup name)

variable {α β : Type}

theorem Stable.similar {read : Value → α} (h : Stable read) {a b : Value} (hab : Similar a b) :
    read a = read b := by
  cases hab with
  | refl => rfl
  | single hab => exact h a b hab

theorem Stable.reordered {read : Value → α} (h : Stable read) {a b : Value} (hab : Reordered a b) :
    read a = read b := by
  induction hab with
  | refl => rfl
  | tail _ hstep ih => exact ih.trans (h _ _ hstep)

theorem stable_asString : Stable asString := by
  rintro _ _ (_ | _ | _) <;> rfl

theorem stable_asBoolean : Stable asBoolean := by
  rintro _ _ (_ | _ | _) <;> rfl

theorem stable_asInteger : Stable asInteger := by
  rintro _ _ (_ | _ | _) <;> rfl

theorem stable_asNatural : Stable asNatural := by
  rintro _ _ (_ | _ | _) <;> rfl

theorem stable_isNull : Stable isNull := by
  rintro _ _ (_ | _ | _) <;> rfl

theorem isUnit_object (members : Members) : isUnit (.object members) = members.isEmpty := by
  cases members <;> rfl

theorem stable_isUnit : Stable isUnit := by
  intro a b hab
  cases hab with
  | here h => rw [isUnit_object, isUnit_object, h.isEmpty_eq]
  | item before after _ => rfl
  | member name before after _ =>
    rw [isUnit_object, isUnit_object]
    cases before <;> rfl

theorem Stable.orNull {decode : Value → Option α} (h : Stable decode) : Stable (orNull decode) := by
  intro a b hab
  have heq := congrArg (Option.map some) (h a b hab)
  cases hab <;> exact heq

theorem Stable.listOf {decode : Value → Option α} (h : Stable decode) : Stable (listOf decode) := by
  intro a b hab
  cases hab with
  | here _ => rfl
  | member _ _ _ _ => rfl
  | item before after hab => simp only [Json.listOf, List.mapM_append, List.mapM_cons, h _ _ hab]

theorem stable_unitVariant {unit : Value → Bool} (h : Stable unit) : Stable (unitVariant unit) := by
  intro a b hab
  cases hab with
  | item _ _ _ => rfl
  | member name before after hab =>
    cases before with
    | nil => cases after with
      | nil => simp only [List.nil_append, unitVariant, h _ _ hab]
      | cons _ _ => rfl
    | cons first rest => cases rest <;> rfl
  | @here members others hperm =>
    match members, others, hperm.length_eq with
    | [], [], _ => rfl
    | [member], [other], _ => rw [List.singleton_perm_singleton.mp hperm]
    | _ :: _ :: _, _ :: _ :: _, _ => rfl

theorem stable_variantOf (variants : List (String × α)) {unit : Value → Bool} (h : Stable unit) :
    Stable (variantOf variants unit) := by
  intro a b hab
  rw [variantOf, variantOf, stable_unitVariant h a b hab]

theorem rel_bind {γ : Type} {R : α → β → Prop} {x : Option α} {y : Option β} (h : Option.Rel R x y)
    {f : α → Option γ} {g : β → Option γ} (hfg : ∀ a b, R a b → f a = g b) : x.bind f = y.bind g := by
  cases h with
  | none => rfl
  | some hab => exact hfg _ _ hab

/-! ## Members -/

theorem Alike.refl (members : Members) : Alike members members := by
  intro name
  cases members.lookup name with
  | none => exact .none
  | some value => exact .some .refl

theorem alike_member {a b : Value} (h : Similar a b) (name : String) (before after : Members) :
    Alike (before ++ (name, a) :: after) (before ++ (name, b) :: after) := by
  intro key
  rw [List.lookup_append, List.lookup_append, List.lookup_cons, List.lookup_cons]
  cases before.lookup key with
  | some value => exact .some .refl
  | none =>
    cases key == name with
    | true => exact .some h
    | false => exact Alike.refl after key

/-- With distinct names a lookup answers with the member of the name, wherever it stands. -/
theorem lookup_eq_some_iff {members : Members} (h : (members.map Prod.fst).Nodup) {name : String}
    {value : Value} : members.lookup name = some value ↔ (name, value) ∈ members := by
  induction members with
  | nil => simp
  | cons member members ih =>
    obtain ⟨key, first⟩ := member
    obtain ⟨hkey, hrest⟩ := List.nodup_cons.mp h
    rw [List.lookup_cons, List.mem_cons, Prod.mk.injEq]
    by_cases hname : name = key
    · subst hname
      have hnot : (name, value) ∉ members := fun hmem =>
        hkey (List.mem_map.mpr ⟨_, hmem, rfl⟩)
      simp [hnot, eq_comm]
    · rw [beq_false_of_ne hname]
      simp [hname, ih hrest]

theorem alike_of_perm {members others : Members} (h : members.Perm others)
    (hdistinct : (members.map Prod.fst).Nodup) : Alike members others := by
  intro name
  have heq : members.lookup name = others.lookup name := by
    ext value
    rw [lookup_eq_some_iff hdistinct, lookup_eq_some_iff ((h.map _).nodup_iff.mp hdistinct),
      h.mem_iff]
  rw [heq]
  exact Alike.refl others name

theorem alike_zip {a b : Value} (h : Similar a b) (names : List String) (before after : List Value) :
    Alike (names.zip (before ++ a :: after)) (names.zip (before ++ b :: after)) := by
  induction names generalizing before with
  | nil => exact Alike.refl []
  | cons name names ih =>
    cases before with
    | nil => exact alike_member h name [] (names.zip after)
    | cons first before =>
      intro key
      rw [List.cons_append, List.cons_append, List.zip_cons_cons, List.zip_cons_cons,
        List.lookup_cons, List.lookup_cons]
      cases key == name with
      | true => exact .some .refl
      | false => exact ih before key

theorem fields_alike (names : List String) {a b : Value} (h : Reorders a b) :
    Option.Rel Alike (fields names a) (fields names b) := by
  cases h with
  | @here members others hperm =>
    have hcheck : (others.all (fun member => names.contains member.1) &&
        decide (others.map Prod.fst).Nodup) =
        (members.all (fun member => names.contains member.1) &&
          decide (members.map Prod.fst).Nodup) := by
      rw [← hperm.all_eq, decide_eq_decide.mpr (hperm.map Prod.fst).nodup_iff]
    rw [fields, fields, hcheck]
    split
    next hpass =>
      rw [Bool.and_eq_true, decide_eq_true_eq] at hpass
      exact .some (alike_of_perm hperm hpass.2)
    next => exact .none
  | member name before after h =>
    simp only [fields, List.all_append, List.all_cons, List.map_append, List.map_cons]
    split
    · exact .some (alike_member (.single h) name before after)
    · exact .none
  | @item a b before after h =>
    simp only [fields, List.length_append, List.length_cons]
    split
    · exact .some (alike_zip (.single h) names before after)
    · exact .none

theorem filter_member (keep : String → Bool) (name : String) (value : Value)
    (before after : Members) :
    (before ++ (name, value) :: after).filter (fun member => keep member.1) =
      if keep name then before.filter (fun member => keep member.1) ++
        (name, value) :: after.filter (fun member => keep member.1)
      else before.filter (fun member => keep member.1) ++
        after.filter (fun member => keep member.1) := by
  rw [List.filter_append, List.filter_cons]
  cases keep name <;> rfl

theorem knownFields_alike (names : List String) {a b : Value} (h : Reorders a b) :
    Option.Rel Alike (knownFields names a) (knownFields names b) := by
  cases h with
  | here hperm => exact fields_alike names (.here (hperm.filter _))
  | item before after h => exact fields_alike names (.item before after h)
  | @member a b name before after h =>
    rw [knownFields, knownFields, filter_member, filter_member]
    split
    · exact fields_alike names (.member name _ _ h)
    · cases fields names (.object _) with
      | none => exact .none
      | some members => exact .some (Alike.refl members)

theorem field_alike {decode : Value → Option α} (h : Stable decode) {members others : Members}
    (halike : Alike members others) (name : String) :
    field decode members name = field decode others name :=
  rel_bind (halike name) fun _ _ hab => h.similar hab

theorem fieldOr_alike {default : α} {decode : Value → Option α} (h : Stable decode)
    {members others : Members} (halike : Alike members others) (name : String) :
    fieldOr default decode members name = fieldOr default decode others name := by
  have hname := halike name
  unfold fieldOr
  generalize members.lookup name = value, others.lookup name = other at hname
  cases hname with
  | none => rfl
  | some hab => exact h.similar hab

/-- The tag and the rest of similar values are similar. -/
theorem taggedBy_similar (tag : String) {a b : Value} (h : Reorders a b) :
    Option.Rel (fun x y => Similar x.1 y.1 ∧ Similar x.2 y.2) (taggedBy tag a) (taggedBy tag b) := by
  cases h with
  | @here members others hperm =>
    have htag := hperm.filter fun member => member.1 == tag
    have hrest := hperm.filter fun member => member.1 != tag
    rw [taggedBy, taggedBy]
    generalize (members.filter fun member => member.1 == tag) = found,
      (others.filter fun member => member.1 == tag) = found' at htag
    match found, found', htag.length_eq with
    | [], [], _ => exact .none
    | [member], [other], _ =>
      rw [List.singleton_perm_singleton.mp htag]
      exact .some ⟨.refl, .single (.here hrest)⟩
    | _ :: _ :: _, _ :: _ :: _, _ => exact .none
  | @member a b name before after h =>
    rw [taggedBy, taggedBy, filter_member (· == tag), filter_member (· == tag),
      filter_member (· != tag), filter_member (· != tag)]
    cases hname : name == tag with
    | true =>
      have hother : (name != tag) = false := by simpa [bne] using hname
      simp only [hother, if_true]
      generalize (before.filter fun member => member.1 == tag) = found,
        (after.filter fun member => member.1 == tag) = found'
      match found, found' with
      | [], [] => exact .some ⟨.single h, .refl⟩
      | [], _ :: _ => exact .none
      | [_], _ => exact .none
      | _ :: _ :: _, _ => exact .none
    | false =>
      have hother : (name != tag) = true := by simpa [bne] using hname
      simp only [hother, if_true, Bool.false_eq_true, if_false]
      generalize (before.filter fun member => member.1 == tag) ++
        (after.filter fun member => member.1 == tag) = found
      match found with
      | [] => exact .none
      | [_] => exact .some ⟨.refl, .single (.member name _ _ h)⟩
      | _ :: _ :: _ => exact .none
  | @item a b before after h =>
    cases before with
    | nil => exact .some ⟨.single h, .refl⟩
    | cons first before => exact .some ⟨.refl, .single (.item before after h)⟩

theorem stable_numbersAll (p : String → Bool) : Stable (Value.numbersAll p) := by
  intro a b h
  induction h with
  | here h => rw [numbersAll_object, numbersAll_object, h.all_eq]
  | item before after _ ih =>
    rw [numbersAll_array, numbersAll_array]
    simp only [List.all_append, List.all_cons, ih]
  | member name before after _ ih =>
    rw [numbersAll_object, numbersAll_object]
    simp only [List.all_append, List.all_cons, ih]

end Reordering

section Written
/-! What a decoder reads of a value that was written field by field. -/

theorem mapM_map {α β : Type} {write : α → β} {f : β → Option α} {items : List α}
    (h : ∀ item ∈ items, f (write item) = some item) : (items.map write).mapM f = some items := by
  induction items with
  | nil => rfl
  | cons item items ih =>
    rw [List.map_cons, List.mapM_cons, h item (by simp),
      ih fun other hother => h other (by simp [hother])]
    rfl

theorem listOf_map {α : Type} {write : α → Value} {decode : Value → Option α} {items : List α}
    (h : ∀ item ∈ items, decode (write item) = some item) :
    listOf decode (.array (items.map write)) = some items := mapM_map h

theorem exists_of_field {α : Type} {decode : Value → Option α} {members : Members} {name : String}
    {a : α} (h : field decode members name = some a) : ∃ value, decode value = some a := by
  obtain ⟨value, _, hvalue⟩ := Option.bind_eq_some_iff.mp h
  exact ⟨value, hvalue⟩

theorem exists_of_fieldOr {α : Type} {default a : α} {decode : Value → Option α} {members : Members}
    {name : String} (h : fieldOr default decode members name = some a) :
    a = default ∨ ∃ value, decode value = some a := by
  unfold fieldOr at h
  split at h
  · exact .inr ⟨_, h⟩
  · exact .inl (Option.some.inj h).symm

theorem orNull_of_isNull_eq_false {α : Type} {decode : Value → Option α} {value : Value}
    (h : isNull value = false) : orNull decode value = (decode value).map some := by
  cases value with
  | null => cases h
  | _ => rfl

theorem decode_of_orNull {α : Type} {decode : Value → Option α} {value : Value} {a : α}
    (h : orNull decode value = some (some a)) : decode value = some a := by
  unfold orNull at h
  split at h
  · cases h
  · obtain ⟨found, hfound, heq⟩ := Option.map_eq_some_iff.mp h
    rw [hfound, heq]

theorem forall_of_mapM {α β : Type} {f : α → Option β} {P : β → Prop} {items : List α}
    {results : List β} (h : items.mapM f = some results) (hP : ∀ a b, f a = some b → P b) :
    ∀ result ∈ results, P result := by
  induction items generalizing results with
  | nil =>
    cases h
    simp
  | cons item items ih =>
    simp only [List.mapM_cons, Option.bind_eq_bind, Option.bind_eq_some_iff, Option.pure_def,
      Option.some.injEq] at h
    obtain ⟨result, hresult, others, hothers, rfl⟩ := h
    exact List.forall_mem_cons.mpr ⟨hP item result hresult, ih hothers⟩

theorem forall_of_listOf {α : Type} {decode : Value → Option α} {P : α → Prop} {value : Value}
    {items : List α} (h : listOf decode value = some items)
    (hP : ∀ v a, decode v = some a → P a) : ∀ item ∈ items, P item := by
  cases value with
  | array values => exact forall_of_mapM h hP
  | _ => cases h

end Written

end Json
