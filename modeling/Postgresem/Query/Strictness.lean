import Postgresem.Query.Decoding

/-! The places of a query at which the published schema declares an object, with the properties that are
declared there. A document that is accepted can miss its declaration in three ways only: an array or a
null in the place of the object, and a member beside the tag and the content of a literal. -/
namespace Postgresem
open Json (Value Members fields knownFields field fieldOr listOf orNull taggedBy)

/-- A place at which an object is declared. No list of names stands for any property. -/
structure Place where
  /-- The object is a literal or the value of a cell. -/
  tagged : Bool
  declares : Option (List String)
  value : Value

namespace Place

/-- The object at the place has a property that is not declared. -/
def undeclared (place : Place) : Bool :=
  match place.value, place.declares with
  | .object members, some names => members.any fun member => !names.contains member.1
  | _, _ => false

def isObject (place : Place) : Bool :=
  match place.value with
  | .object _ => true
  | _ => false

/-- An object is at the place, with declared properties only. -/
def Strict (place : Place) : Prop := place.isObject = true ∧ place.undeclared = false

instance (place : Place) : Decidable place.Strict := inferInstanceAs (Decidable (_ ∧ _))

/-- Neither an array nor a null is at the place, and a literal or the value of a cell has no further
property. -/
def Plain (place : Place) : Prop :=
  (∀ items, place.value ≠ .array items) ∧ place.value ≠ .null ∧
    (place.tagged = true → place.undeclared = false)

theorem Strict.plain {place : Place} (h : place.Strict) : place.Plain := by
  obtain ⟨tagged, declares, value⟩ := place
  obtain ⟨hobject, hdeclared⟩ := h
  cases value with
  | object members => exact ⟨by simp, by simp, fun _ => hdeclared⟩
  | _ => cases hobject

end Place

/-- All of the places that are plain are strict. -/
def Sound (places : List Place) : Prop := ∀ place ∈ places, place.Plain → place.Strict

theorem Sound.iff {places : List Place} (h : Sound places) :
    (∀ place ∈ places, place.Strict) ↔ ∀ place ∈ places, place.Plain :=
  ⟨fun hall place hplace => (hall place hplace).plain,
    fun hall place hplace => h place hplace (hall place hplace)⟩

section Places

/-- The place of an object with these properties, and the places inside of it. -/
def objectPlaces (names : List String) (inside : Members → List Place) : Value → List Place
  | .object members => ⟨false, some names, .object members⟩ :: inside members
  | value => [⟨false, some names, value⟩]

/-- The places of each item of the member of the name. -/
def eachOf (places : Value → List Place) (members : Members) (name : String) : List Place :=
  match members.lookup name with
  | some (.array items) => items.flatMap places
  | _ => []

def memberOf (places : Value → List Place) (members : Members) (name : String) : List Place :=
  match members.lookup name with
  | some value => places value
  | none => []

def dimensionPlaces : Value → List Place := objectPlaces ["field", "time_grain"] fun _ => []

def metricPlaces : Value → List Place := objectPlaces ["metric"] fun _ => []

def orderByPlaces : Value → List Place := objectPlaces ["ref", "direction"] fun _ => []

def literalPlaces (value : Value) : List Place := [⟨true, some ["type", "value"], value⟩]

/-- The properties of a filter beside its tag. -/
def FilterOp.properties : FilterOp → List String
  | .and | .or => ["args"]
  | .not => ["arg"]
  | .comparison _ => ["field", "value"]
  | .inList => ["field", "values"]
  | .isNull | .isNotNull => ["field"]

def FilterOp.inside (places : Value → List Place) (members : Members) : FilterOp → List Place
  | .and | .or => eachOf places members "args"
  | .not => memberOf places members "arg"
  | .comparison _ => memberOf literalPlaces members "value"
  | .inList => eachOf literalPlaces members "values"
  | .isNull | .isNotNull => []

/-- A filter declares the properties of the variant that its tag names. -/
def filterPlaces : Nat → Bool → Value → List Place
  | depth + 1, nested, .object members =>
    match (members.lookup "op").bind (decodeFilterOp nested) with
    | some op => ⟨false, some ("op" :: op.properties), .object members⟩ ::
        op.inside (filterPlaces depth true) members
    | none => [⟨false, some ["op"], .object members⟩]
  | _, _, value => [⟨false, some ["op"], value⟩]

def queryPlaces : Value → List Place :=
  objectPlaces ["schema_version", "model", "dimensions", "metrics", "filters", "order_by", "limit"]
    fun members => eachOf dimensionPlaces members "dimensions" ++
      eachOf metricPlaces members "metrics" ++
      memberOf (filterPlaces Json.maxDepth false) members "filters" ++
      eachOf orderByPlaces members "order_by"

end Places

section Sound

theorem Sound.append {places others : List Place} (h : Sound places) (h' : Sound others) :
    Sound (places ++ others) := by
  intro place hplace
  rcases List.mem_append.mp hplace with hplace | hplace
  · exact h place hplace
  · exact h' place hplace

theorem Sound.nil : Sound [] := by
  intro place hplace
  cases hplace

/-- A structure that denies unknown fields is read from an object with declared ones only, or from an
array. -/
theorem fields_cases {names : List String} {value : Value} {found : Members}
    (h : fields names value = some found) :
    (value = .object found ∧ ∀ member ∈ found, member.1 ∈ names) ∨ ∃ items, value = .array items := by
  cases value with
  | object members =>
    rw [fields] at h
    split at h
    next hchecked =>
      cases h
      rw [Bool.and_eq_true, List.all_eq_true] at hchecked
      exact .inl ⟨rfl, fun member hmember => List.contains_iff_mem.mp (hchecked.1 member hmember)⟩
    next => cases h
  | array items => exact .inr ⟨items, rfl⟩
  | _ => cases h

theorem undeclared_eq_false {tagged : Bool} {names : List String} {members : Members}
    (h : ∀ member ∈ members, member.1 ∈ names) :
    Place.undeclared ⟨tagged, some names, .object members⟩ = false := by
  rw [Place.undeclared, List.any_eq_false]
  intro member hmember
  simp [h member hmember]

theorem sound_array {tagged : Bool} {declares : Option (List String)} {items : List Value} :
    Sound [⟨tagged, declares, .array items⟩] := by
  intro place hplace hplain
  cases List.mem_singleton.mp hplace
  exact absurd rfl (hplain.1 items)

theorem sound_null {tagged : Bool} {declares : Option (List String)} :
    Sound [⟨tagged, declares, .null⟩] := by
  intro place hplace hplain
  cases List.mem_singleton.mp hplace
  exact absurd rfl hplain.2.1

theorem sound_fields {names : List String} {inside : Members → List Place} {value : Value}
    {found : Members} (h : fields names value = some found) (hinside : Sound (inside found)) :
    Sound (objectPlaces names inside value) := by
  rcases fields_cases h with ⟨rfl, hnames⟩ | ⟨items, rfl⟩
  · intro place hplace hplain
    rcases List.mem_cons.mp hplace with rfl | hplace
    · exact ⟨rfl, undeclared_eq_false hnames⟩
    · exact hinside place hplace hplain
  · exact sound_array

/-- What ignores unknown fields is read from an object or from an array as well. -/
theorem sound_knownFields {names : List String} {declares : Option (List String)} {value : Value}
    {found : Members} (h : knownFields names value = some found) :
    Sound [⟨true, declares, value⟩] := by
  cases value with
  | object members =>
    intro place hplace hplain
    cases List.mem_singleton.mp hplace
    exact ⟨rfl, hplain.2.2 rfl⟩
  | array items => exact sound_array
  | _ => cases h

variable {α : Type} {decode : Value → Option α} {places : Value → List Place} {members : Members}
  {name : String}

theorem sound_flatMap {items : List Value} (h : ∀ item ∈ items, Sound (places item)) :
    Sound (items.flatMap places) := by
  intro place hplace
  obtain ⟨item, hitem, hplace⟩ := List.mem_flatMap.mp hplace
  exact h item hitem place hplace

/-- Each of the items is decoded. -/
theorem exists_of_mapM {β γ : Type} {f : β → Option γ} {items : List β} {results : List γ}
    (h : items.mapM f = some results) {item : β} (hitem : item ∈ items) :
    ∃ result, f item = some result := by
  induction items generalizing results with
  | nil => cases hitem
  | cons first rest ih =>
    simp only [List.mapM_cons, Option.bind_eq_bind, Option.bind_eq_some_iff] at h
    obtain ⟨result, hresult, others, hothers, -⟩ := h
    rcases List.mem_cons.mp hitem with rfl | hitem
    · exact ⟨result, hresult⟩
    · exact ih hothers hitem

theorem sound_listOf {value : Value} {results : List α} (h : listOf decode value = some results)
    (hplaces : ∀ value a, decode value = some a → Sound (places value))
    (hvalue : members.lookup name = some value) : Sound (eachOf places members name) := by
  rw [eachOf, hvalue]
  cases value with
  | array items =>
    refine sound_flatMap fun item hitem => ?_
    obtain ⟨a, ha⟩ := exists_of_mapM h hitem
    exact hplaces item a ha
  | _ => cases h

theorem sound_each {results : List α} (h : field (listOf decode) members name = some results)
    (hplaces : ∀ value a, decode value = some a → Sound (places value)) :
    Sound (eachOf places members name) := by
  obtain ⟨value, hvalue, hresults⟩ := Option.bind_eq_some_iff.mp h
  exact sound_listOf hresults hplaces hvalue

theorem sound_eachOr {default results : List α}
    (h : fieldOr default (listOf decode) members name = some results)
    (hplaces : ∀ value a, decode value = some a → Sound (places value)) :
    Sound (eachOf places members name) := by
  unfold fieldOr at h
  split at h
  next value hvalue => exact sound_listOf h hplaces hvalue
  next hnone =>
    rw [eachOf, hnone]
    exact Sound.nil

theorem sound_member {a : α} (h : field decode members name = some a)
    (hplaces : ∀ value a, decode value = some a → Sound (places value)) :
    Sound (memberOf places members name) := by
  obtain ⟨value, hvalue, ha⟩ := Option.bind_eq_some_iff.mp h
  rw [memberOf, hvalue]
  exact hplaces value a ha

end Sound

section Query

theorem sound_dimension {value : Value} {dimension : Dimension}
    (h : decodeDimension value = some dimension) : Sound (dimensionPlaces value) := by
  obtain ⟨members, hmembers, -⟩ := Option.bind_eq_some_iff.mp h
  exact sound_fields hmembers Sound.nil

theorem sound_metric {value : Value} {metric : MetricReference}
    (h : decodeMetricReference value = some metric) : Sound (metricPlaces value) := by
  obtain ⟨members, hmembers, -⟩ := Option.bind_eq_some_iff.mp h
  exact sound_fields hmembers Sound.nil

theorem sound_orderBy {value : Value} {orderBy : OrderBy} (h : decodeOrderBy value = some orderBy) :
    Sound (orderByPlaces value) := by
  obtain ⟨members, hmembers, -⟩ := Option.bind_eq_some_iff.mp h
  exact sound_fields hmembers Sound.nil

theorem sound_literal {value : Value} {literal : Literal} (h : decodeLiteral value = some literal) :
    Sound (literalPlaces value) := by
  obtain ⟨members, hmembers, -⟩ := Option.bind_eq_some_iff.mp h
  exact sound_knownFields hmembers

/-- The variant reads its own properties, and what is inside of them is sound. -/
theorem sound_filterFields {decode : Value → Option Filter} {places : Value → List Place}
    (hplaces : ∀ value filter, decode value = some filter → Sound (places value)) {op : FilterOp}
    {value : Value} {filter : Filter} (h : decodeFilterFields decode op value = some filter) :
    ∃ found, fields op.properties value = some found ∧ Sound (op.inside places found) := by
  cases op with
  | and | or =>
    simp only [decodeFilterFields, Option.bind_eq_bind, Option.bind_eq_some_iff] at h
    obtain ⟨found, hfound, args, hargs, -⟩ := h
    exact ⟨found, hfound, sound_each hargs hplaces⟩
  | not =>
    simp only [decodeFilterFields, Option.bind_eq_bind, Option.bind_eq_some_iff] at h
    obtain ⟨found, hfound, arg, harg, -⟩ := h
    exact ⟨found, hfound, sound_member harg hplaces⟩
  | comparison operator =>
    simp only [decodeFilterFields, Option.bind_eq_bind, Option.bind_eq_some_iff] at h
    obtain ⟨found, hfound, name, -, literal, hliteral, -⟩ := h
    exact ⟨found, hfound, sound_member hliteral fun _ _ => sound_literal⟩
  | inList =>
    simp only [decodeFilterFields, Option.bind_eq_bind, Option.bind_eq_some_iff] at h
    obtain ⟨found, hfound, name, -, literals, hliterals, -⟩ := h
    exact ⟨found, hfound, sound_each hliterals fun _ _ => sound_literal⟩
  | isNull | isNotNull =>
    simp only [decodeFilterFields, Option.bind_eq_bind, Option.bind_eq_some_iff] at h
    obtain ⟨found, hfound, -⟩ := h
    exact ⟨found, hfound, Sound.nil⟩

theorem lookup_without {tag name : String} (h : name ≠ tag) (members : Members) :
    (members.filter fun member => member.1 != tag).lookup name = members.lookup name := by
  induction members with
  | nil => rfl
  | cons member members ih =>
    obtain ⟨key, value⟩ := member
    rw [List.filter_cons]
    split_ifs with hkey
    · rw [List.lookup_cons, List.lookup_cons, ih]
    · have hne : (name == key) = false := by
        rw [beq_eq_false_iff_ne]
        rintro rfl
        exact hkey (by simpa using h)
      rw [ih, List.lookup_cons, hne]

/-- A name that one member has is found there. -/
theorem lookup_of_filter {tag name : String} {content : Value} {members : Members}
    (h : (members.filter fun member => member.1 == tag) = [(name, content)]) :
    members.lookup tag = some content := by
  induction members with
  | nil => cases h
  | cons member members ih =>
    obtain ⟨key, value⟩ := member
    rw [List.filter_cons] at h
    split_ifs at h with hkey
    · obtain ⟨hmember, -⟩ := List.cons.inj h
      cases hmember
      rw [List.lookup_cons, beq_iff_eq.mpr (beq_iff_eq.mp hkey).symm]
    · have hne : (tag == key) = false := beq_eq_false_iff_ne.mpr fun heq => hkey (by simp [heq])
      rw [List.lookup_cons, hne]
      exact ih h

theorem eachOf_congr {places : Value → List Place} {members others : Members} {name : String}
    (h : members.lookup name = others.lookup name) :
    eachOf places members name = eachOf places others name := by
  rw [eachOf, eachOf, h]

theorem memberOf_congr {places : Value → List Place} {members others : Members} {name : String}
    (h : members.lookup name = others.lookup name) :
    memberOf places members name = memberOf places others name := by
  rw [memberOf, memberOf, h]

/-- The tag is none of the properties that have places inside. -/
theorem inside_without (op : FilterOp) (places : Value → List Place) (members : Members) :
    op.inside places (members.filter fun member => member.1 != "op") =
      op.inside places members := by
  cases op with
  | and | or => exact eachOf_congr (lookup_without (by decide) members)
  | not => exact memberOf_congr (lookup_without (by decide) members)
  | comparison operator => exact memberOf_congr (lookup_without (by decide) members)
  | inList => exact eachOf_congr (lookup_without (by decide) members)
  | isNull | isNotNull => rfl

theorem sound_filter {depth : Nat} {nested : Bool} {value : Value} {filter : Filter}
    (h : decodeFilter depth nested value = some filter) : Sound (filterPlaces depth nested value) := by
  induction depth generalizing nested value filter with
  | zero => cases h
  | succ depth ih =>
    simp only [decodeFilter, Option.bind_eq_bind, Option.bind_eq_some_iff] at h
    obtain ⟨⟨tag, rest⟩, htagged, op, hop, hfields⟩ := h
    obtain ⟨found, hfound, hinside⟩ := sound_filterFields (fun _ _ => ih) hfields
    cases value with
    | array items => exact sound_array
    | object members =>
      rw [taggedBy] at htagged
      split at htagged
      next name content hfilter =>
        cases htagged
        have hlookup := lookup_of_filter hfilter
        rcases fields_cases hfound with ⟨hrest, hnames⟩ | ⟨items, hrest⟩
        · cases hrest
          rw [inside_without] at hinside
          simp only [filterPlaces, hlookup, Option.bind_some, hop]
          intro place hplace hplain
          rcases List.mem_cons.mp hplace with rfl | hplace
          · refine ⟨rfl, undeclared_eq_false fun member hmember => ?_⟩
            by_cases htag : member.1 = "op"
            · simp [htag]
            · exact List.mem_cons_of_mem _
                (hnames member (List.mem_filter.mpr ⟨hmember, by simpa using htag⟩))
          · exact hinside place hplace hplain
        · cases hrest
      next => cases htagged
    | _ => cases htagged

/-- The filters of a query may be given as null. -/
theorem sound_filters {members : Members} {name : String} {filters : Option Filter}
    (h : fieldOr none (orNull (decodeFilter Json.maxDepth false)) members name = some filters) :
    Sound (memberOf (filterPlaces Json.maxDepth false) members name) := by
  cases hlookup : members.lookup name with
  | none =>
    simp only [memberOf, hlookup]
    exact Sound.nil
  | some value =>
    simp only [fieldOr, hlookup, orNull] at h
    simp only [memberOf, hlookup]
    split at h
    · exact sound_null
    · obtain ⟨filter, hfilter, -⟩ := Option.map_eq_some_iff.mp h
      exact sound_filter hfilter

theorem sound_query {value : Value} {query : LogicalSemanticQuery}
    (h : decodeQuery value = some query) : Sound (queryPlaces value) := by
  simp only [decodeQuery, Option.bind_eq_bind, Option.bind_eq_some_iff] at h
  obtain ⟨members, hmembers, _, -, _, -, dimensions, hdimensions, metrics, hmetrics, filters, hfilters,
    orderBy, horderBy, -⟩ := h
  refine sound_fields hmembers ?_
  refine (((sound_eachOr hdimensions fun _ _ => sound_dimension).append
    (sound_eachOr hmetrics fun _ _ => sound_metric)).append ?_).append
    (sound_eachOr horderBy fun _ _ => sound_orderBy)
  exact sound_filters hfilters

end Query

end Postgresem
