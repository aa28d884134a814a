import Postgresem.Mutation.Duplicates
import Postgresem.Query.Strictness

/-! The places of a mutation at which the published schema declares an object, and the exact condition
under which a document that is accepted meets its declarations. -/
namespace Postgresem
open Json (Value Members fields knownFields field asString isNull listOf unitVariant readsNumber)
open Control

section Places

/-- The variant that carries nothing declares its tag only. -/
def valuePlaces (value : Value) : List Place :=
  match value with
  | .object members =>
    let names := if (members.lookup "type").bind (unitVariant isNull) = some "null" then ["type"]
      else ["type", "value"]
    [⟨true, some names, .object members⟩]
  | value => [⟨true, some ["type", "value"], value⟩]

/-- A row declares any column. -/
def rowPlaces : Value → List Place
  | .object members =>
    ⟨false, none, .object members⟩ :: members.flatMap fun member => valuePlaces member.2
  | value => [⟨false, none, value⟩]

def mutationPlaces : Value → List Place :=
  objectPlaces ["schema_version", "operation", "model", "idempotency_key", "rows"]
    fun members => eachOf rowPlaces members "rows"

end Places

section Mutation
/-! What is decoded is the document as a map, in which each member of an object has its place. -/

theorem sound_value {value : Value} {cell : MutationValue}
    (h : decodeMutationValue value.lastWins = some cell) : Sound (valuePlaces value) := by
  obtain ⟨found, hfound, -⟩ := Option.bind_eq_some_iff.mp h
  cases value with
  | object members =>
    intro place hplace hplain
    cases List.mem_singleton.mp hplace
    exact ⟨rfl, hplain.2.2 rfl⟩
  | array items => exact sound_array
  | _ => cases hfound

theorem sound_row {value : Value} {row : MutationRow} (hunrepeated : value.unrepeated = true)
    (h : decodeRow value.lastWins = some row) : Sound (rowPlaces value) := by
  cases value with
  | object members =>
    rw [Json.unrepeated_object, Bool.and_eq_true, decide_eq_true_eq] at hunrepeated
    rw [Value.lastWins, Json.collapse_object] at h
    obtain ⟨entries, hentries, -⟩ := Option.map_eq_some_iff.mp h
    intro place hplace hplain
    rcases List.mem_cons.mp hplace with rfl | hplace
    · exact ⟨rfl, rfl⟩
    · obtain ⟨member, hmember, hplace⟩ := List.mem_flatMap.mp hplace
      have hcollapsed : (member.1, member.2.lastWins) ∈
          OrderedMap.ofEntries (OrderedMap.mapValues Value.lastWins members) :=
        (Json.perm_collapse id hunrepeated.1).mem_iff.mpr (List.mem_map_of_mem hmember)
      obtain ⟨entry, hentry⟩ := exists_of_mapM hentries hcollapsed
      obtain ⟨cell, hcell, -⟩ := Option.map_eq_some_iff.mp hentry
      exact sound_value hcell place hplace hplain
  | _ => cases h

theorem sound_rows {value : Value} {rows : List MutationRow} (hunrepeated : value.unrepeated = true)
    {members : Members} (hvalue : members.lookup "rows" = some value)
    (h : listOf decodeRow value.lastWins = some rows) : Sound (eachOf rowPlaces members "rows") := by
  rw [eachOf, hvalue]
  cases value with
  | array items =>
    rw [Json.unrepeated_array, List.all_eq_true] at hunrepeated
    rw [Value.lastWins, Json.collapse_array] at h
    refine sound_flatMap fun item hitem => ?_
    obtain ⟨row, hrow⟩ := exists_of_mapM h (List.mem_map_of_mem hitem)
    exact sound_row (hunrepeated item hitem) hrow
  | _ => cases h

theorem sound_mutation {value : Value} {mutation : LogicalSemanticMutation}
    (hunrepeated : value.unrepeated = true) (h : decodeMutation value.lastWins = some mutation) :
    Sound (mutationPlaces value) := by
  simp only [decodeMutation, Option.bind_eq_bind, Option.bind_eq_some_iff] at h
  obtain ⟨found, hfound, _, -, _, -, _, -, _, -, rows, hrows, -⟩ := h
  cases value with
  | array items => exact sound_array
  | object members =>
    rw [Json.unrepeated_object, Bool.and_eq_true, decide_eq_true_eq, List.all_eq_true] at hunrepeated
    rw [Value.lastWins, Json.collapse_object] at hfound
    rcases fields_cases hfound with ⟨heq, hnames⟩ | ⟨items, hitems⟩
    · cases heq
      intro place hplace
      rcases List.mem_cons.mp hplace with rfl | hplace
      · refine fun _ => ⟨rfl, undeclared_eq_false fun member hmember => ?_⟩
        exact hnames (member.1, member.2.lastWins)
          ((Json.perm_collapse id hunrepeated.1).mem_iff.mpr (List.mem_map_of_mem hmember))
      · obtain ⟨_, hlookup, hrows⟩ := Option.bind_eq_some_iff.mp hrows
        rw [Json.lookup_collapse_of_nodup id hunrepeated.1] at hlookup
        obtain ⟨value, hvalue, rfl⟩ := Option.map_eq_some_iff.mp hlookup
        have hmember := (Json.lookup_eq_some_iff hunrepeated.1).mp hvalue
        exact sound_rows (hunrepeated.2 _ hmember) hvalue hrows place hplace
    · cases hitems
  | _ => cases hfound

end Mutation

section Documents
variable {finite : String → Bool} {backend : HashBackend}

/-- The text of a document is accepted, and these are the places at which its schema declares an
object. -/
inductive AcceptedPlaces (finite : String → Bool) (backend : HashBackend) (input : List UInt8) :
    List Place → Prop
  | query {document : Value} {normalized : NormalizedLsq} (hread : Json.read input = some document)
      (h : normalizeLsq finite backend input = .ok normalized) :
      AcceptedPlaces finite backend input (queryPlaces document)
  | mutation {document : Value} {normalized : NormalizedLsm}
      (hread : Json.read input = some document)
      (h : normalizeLsm finite backend input = .ok normalized) :
      AcceptedPlaces finite backend input (mutationPlaces document)

/-- A document that is accepted is strict where it is plain. -/
theorem strict_documents_iff {input : List UInt8} {places : List Place}
    (h : AcceptedPlaces finite backend input places) :
    (∀ place ∈ places, place.Strict) ↔ ∀ place ∈ places, place.Plain := by
  cases h with
  | query hread h =>
    simp only [normalizeLsq, bind_eq_ok, orError_eq_ok, parseQuery, hread, Option.bind_eq_bind,
      Option.bind_some] at h
    obtain ⟨query, hquery, -⟩ := h
    split_ifs at hquery
    exact (sound_query hquery).iff
  | mutation hread h =>
    obtain ⟨-, mutation, hparse, -⟩ := normalizeLsm_eq_ok.mp h
    simp only [parseMutation, hread, Option.bind_eq_bind, Option.bind_some, Option.bind_eq_some_iff,
      uniqueValue_eq_some, ReadsUnique] at hparse
    obtain ⟨_, ⟨hunrepeated, -, rfl⟩, hdecoded⟩ := hparse
    exact (sound_mutation hunrepeated hdecoded).iff

/-- A query with further members in its literal. -/
def labelled (further : Members) : Value := .object [
  ("schema_version", .string "1"), ("model", .string "orders"),
  ("metrics", .array [.object [("metric", .string "revenue")]]),
  ("filters", .object [("op", .string "eq"), ("field", .string "region"),
    ("value", .object ([("type", .string "text"), ("value", .string "EU")] ++ further))])]

/-- What is decoded of it. -/
def labelledQuery : LogicalSemanticQuery where
  schemaVersion := "1"
  model := "orders"
  dimensions := []
  metrics := [⟨"revenue"⟩]
  filters := some (.comparison .eq "region" (.text "EU"))
  orderBy := []
  limit := none

theorem labelled_accepted (further : Members) (hwell : (labelled further).WellFormed)
    (hdepth : (labelled further).depth ≤ Json.maxDepth)
    (hnumbers : (labelled further).numbersAll (readsNumber fun _ => false) = true)
    (hdecode : decodeQuery (labelled further) = some labelledQuery) :
    AcceptedPlaces (fun _ => false) standardHash (bytesOf (labelled further).text)
      (queryPlaces (labelled further)) := by
  have hread : Json.read (bytesOf (labelled further).text) = some (labelled further) :=
    Json.read_text hwell hdepth
  have hparse : parseQuery (fun _ => false) (bytesOf (labelled further).text) = some labelledQuery := by
    rw [parseQuery, hread, Option.bind_eq_bind, Option.bind_some, if_pos hnumbers, hdecode]
  have hvalid : validateQuery labelledQuery = .ok () := by decide
  exact .query hread (normalizeLsq_eq_ok.mpr ⟨_, hparse, checked_eq_ok.mpr ⟨hvalid, rfl⟩⟩)

theorem strict_documents_iff_labelled :
    queryPlaces (labelled []) ≠ [] ∧ ∀ place ∈ queryPlaces (labelled []), place.Plain :=
  ⟨by decide, (strict_documents_iff (labelled_accepted [] (by simp [labelled, Value.WellFormed,
    Value.MembersWellFormed, Value.EachWellFormed]) (by decide) (by decide) rfl)).mp (by decide)⟩

/-- A query is accepted although its literal has a property that is not declared. -/
theorem undeclared_accepted : ∃ input places,
    AcceptedPlaces (fun _ => false) standardHash input places ∧ ¬ ∀ place ∈ places, place.Strict :=
  ⟨_, _, labelled_accepted [("role", .string "admin")] (by simp [labelled,
    Value.WellFormed, Value.MembersWellFormed, Value.EachWellFormed]) (by decide) (by decide) rfl,
    by decide⟩

end Documents

end Postgresem
