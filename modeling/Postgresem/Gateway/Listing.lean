import Postgresem.Foundation.Failing
import Postgresem.Foundation.JsonSchema
import Postgresem.Foundation.Paging
import Postgresem.Foundation.Text
import Postgresem.Foundation.Usize
import Postgresem.Gateway.Principal
import Postgresem.Semantic.HashText

/-! The list of the models that may be queried: its pages and their cursors. A client that follows the
cursors sees each model once, but none of the cursors has the length that the tool advertises. -/
namespace Postgresem.Gateway
open Control

structure ToolFailure where
  code : String
  message : String
  deriving DecidableEq, Repr

structure ListModelsParams where
  schemaVersion : String
  cursor : Option String
  limit : Option Nat
  deriving DecidableEq, Repr

structure ModelSummary where
  name : String
  fieldCount : Nat
  metricCount : Nat
  deriving DecidableEq, Repr

structure ModelList where
  schemaVersion : String
  semanticRevision : String
  models : List ModelSummary
  nextCursor : Option String
  deriving DecidableEq, Repr

/-- A call that fails with an answer, or that stops the process at a slice out of range. -/
inductive ListFailure where
  | tool (failure : ToolFailure)
  | outOfRange
  deriving DecidableEq, Repr

def toolSchemaVersion : String := "1"
def defaultPageLimit : Nat := 50
def maxPageLimit : Nat := 100
def maxModelCursorLength : Nat := 128

def invalidCursor : ToolFailure := ⟨"MCP_INVALID_CURSOR", "cursor is not valid"⟩

def validateToolVersion (version : String) : Except ToolFailure Unit :=
  ensure (version == toolSchemaVersion)
    ⟨"MCP_TOOL_SCHEMA_VERSION_UNSUPPORTED", "tool schema version is not supported"⟩

/-- The input schema of `list_semantic_models` in `tool_definitions`. -/
def listModelsInputSchema : Json.Schema :=
  .object ["schema_version"]
    [("schema_version", .const (.string toolSchemaVersion)),
     ("cursor", .string (some maxModelCursorLength)),
     ("limit", .integer 1 maxPageLimit)]

def queryableModels (snapshot : SemanticSnapshot) : List Model :=
  snapshot.models.filter fun model => model.queryable

def modelSummary (model : Model) : ModelSummary where
  name := model.semanticName
  fieldCount := (model.fields.filter fun field => field.visible).length
  metricCount := (model.metrics.filter fun metric => metric.visible).length

/-- `&items[start..stop]`. -/
def slice {α : Type} (items : List α) (start stop : Nat) : Option (List α) :=
  if start ≤ stop ∧ stop ≤ items.length then some ((items.take stop).drop start) else none

section Calls
variable (backend : HashBackend) (authorityId : String)

/-- The call of a principal with this authority, against what `load_published` returns. -/
def listSemanticModels (published : Except ToolFailure SemanticSnapshot)
    (params : ListModelsParams) : Except ListFailure ModelList := do
  (validateToolVersion params.schemaVersion).mapError .tool
  let limit := params.limit.getD defaultPageLimit
  ensure (decide (1 ≤ limit) && decide (limit ≤ maxPageLimit))
    (.tool ⟨"MCP_INVALID_PAGINATION", "limit must be between 1 and 100"⟩)
  let snapshot ← published.mapError .tool
  let offset ← orError (parseCursor backend params.cursor snapshot.revisionHash authorityId)
    (.tool invalidCursor)
  let models := queryableModels snapshot
  ensure (decide (offset ≤ models.length)) (.tool invalidCursor)
  let stop := min (Usize.saturatingAdd offset limit) models.length
  let page ← orError (slice models offset stop) .outOfRange
  pure { schemaVersion := toolSchemaVersion
         semanticRevision := snapshot.revisionHash
         models := page.map modelSummary
         nextCursor :=
          if stop < models.length then some (modelCursor backend snapshot.revisionHash authorityId stop)
          else none }

def ModelList.page (list : ModelList) : Paging.Page String ModelSummary :=
  ⟨list.models, list.nextCursor⟩

/-- The calls of a client against one revision, each with a limit of its own. -/
def listingPage (snapshot : SemanticSnapshot) (limits : Nat → Option Nat) (step : Nat)
    (cursor : Option String) : Except ListFailure (Paging.Page String ModelSummary) :=
  (listSemanticModels backend authorityId (.ok snapshot)
    { schemaVersion := toolSchemaVersion, cursor, limit := limits step }).map ModelList.page

end Calls

/-! ## Cursors -/

theorem parseUsize_le {chars : List Char} {n : Nat} (h : parseUsize chars = some n) :
    n ≤ Usize.max := by
  unfold parseUsize at h
  simp only at h
  generalize (if (chars.head? == some '+') = true then chars.tail else chars) = digits at h
  split_ifs at h with hbound
  rw [Bool.and_eq_true, decide_eq_true_eq] at hbound
  rw [← Option.some.inj h]
  exact Nat.le_pred_of_lt hbound.2

theorem parseUsize_toString {n : Nat} (h : n ≤ Usize.max) : parseUsize (toString n).toList = some n := by
  have hplus : (toString n).toList.head? ≠ some '+' := by
    intro hhead
    have hplus := Text.toString_isDigit n '+' (List.mem_of_head? hhead)
    revert hplus
    decide
  have hbound : n < 2 ^ 64 := Nat.lt_of_le_pred (by decide) h
  have hbeq : ((toString n).toList.head? == some '+') = false := beq_eq_false_iff_ne.mpr hplus
  rw [parseUsize, hbeq]
  simp only [Bool.false_eq_true, if_false]
  rw [Json.isDigits_toString, Json.digitsValue_toString, decide_eq_true hbound]
  rfl

section Cursor
variable {backend : HashBackend} {revision revision' authorityId authorityId' : String} {n : Nat}

theorem split_modelCursor (hrevision : '|' ∉ revision.toList) :
    (modelCursor backend revision authorityId n).toList.splitOn '|' =
      ["v2".toList, revision.toList, (backend.sha256 (bytesOf authorityId)).toList,
        (toString n).toList] := by
  have hhash : '|' ∉ (backend.sha256 (bytesOf authorityId)).toList :=
    bar_notMem_of_isSha256 (isSha256_sha256 backend _)
  have hoffset : '|' ∉ (toString n).toList := Text.notMem_toString (by decide) n
  have hlist : (modelCursor backend revision authorityId n).toList =
      "v2".toList ++ '|' :: (revision.toList ++ '|' ::
        ((backend.sha256 (bytesOf authorityId)).toList ++ '|' :: (toString n).toList)) := by
    simp [modelCursor]
  rw [hlist, List.splitOn_append_cons_self_of_not_mem (by decide),
    List.splitOn_append_cons_self_of_not_mem hrevision,
    List.splitOn_append_cons_self_of_not_mem hhash, List.splitOn_eq_singleton hoffset]

theorem parseCursor_modelCursor (hrevision : '|' ∉ revision.toList) (h : n ≤ Usize.max) :
    parseCursor backend (some (modelCursor backend revision authorityId n)) revision authorityId =
      some n := by
  rw [parseCursor]
  simp only [split_modelCursor hrevision]
  rw [if_pos ⟨trivial, trivial, trivial⟩, parseUsize_toString h]

/-- A cursor is read only for the revision and the hash that it was issued for. -/
theorem parseCursor_issued (hrevision : '|' ∉ revision.toList) {offset : Nat}
    (h : parseCursor backend (some (modelCursor backend revision authorityId n)) revision'
      authorityId' = some offset) :
    revision = revision' ∧
      backend.sha256 (bytesOf authorityId) = backend.sha256 (bytesOf authorityId') := by
  rw [parseCursor] at h
  simp only [split_modelCursor hrevision] at h
  split_ifs at h with hsame
  exact ⟨String.toList_injective hsame.2.1, String.toList_injective hsame.2.2⟩

/-- No cursor text stands for more than the largest word. -/
theorem parseCursor_le {cursor : Option String} {offset : Nat}
    (h : parseCursor backend cursor revision authorityId = some offset) : offset ≤ Usize.max := by
  cases cursor with
  | none =>
    rw [← Option.some.inj h]
    exact Nat.zero_le _
  | some cursor =>
    rw [parseCursor] at h
    split at h
    · split_ifs at h
      exact parseUsize_le h
    · cases h

/-- A cursor has both hashes, three bars, its version and the digits of its offset. -/
theorem modelCursor_length (hrevision : isSha256 revision = true) :
    (modelCursor backend revision authorityId n).length = 147 + (toString n).length := by
  have hhash := length_of_isSha256 (isSha256_sha256 backend (bytesOf authorityId))
  have hlength : (modelCursor backend revision authorityId n).length =
      3 + revision.length + 1 + (backend.sha256 (bytesOf authorityId)).length + 1
        + (toString n).length := by
    simp only [modelCursor, String.length_append]
    rfl
  rw [hlength, hhash, length_of_isSha256 hrevision]

end Cursor

/-! ## Pages -/

section Listing
variable {backend : HashBackend} {snapshot : SemanticSnapshot} {authorityId : String}

theorem slice_of_le {α : Type} {items : List α} {start stop : Nat} (hstart : start ≤ stop)
    (hstop : stop ≤ items.length) : slice items start stop = some ((items.take stop).drop start) :=
  if_pos ⟨hstart, hstop⟩

/-- The page from an offset that a cursor stands for. -/
theorem listSemanticModels_ok (params : ListModelsParams)
    (hversion : params.schemaVersion = toolSchemaVersion)
    (hlimit : ∀ limit ∈ params.limit, 1 ≤ limit ∧ limit ≤ maxPageLimit) {offset : Nat}
    (hcursor : parseCursor backend params.cursor snapshot.revisionHash authorityId = some offset)
    (hoffset : offset ≤ (queryableModels snapshot).length)
    (hlength : (queryableModels snapshot).length ≤ Usize.max) :
    ∃ stop next, listSemanticModels backend authorityId (.ok snapshot) params =
        .ok { schemaVersion := toolSchemaVersion, semanticRevision := snapshot.revisionHash,
              models := (((queryableModels snapshot).take stop).drop offset).map modelSummary,
              nextCursor := next } ∧
      offset ≤ stop ∧ stop ≤ (queryableModels snapshot).length ∧
      (stop < (queryableModels snapshot).length → offset < stop ∧
        next = some (modelCursor backend snapshot.revisionHash authorityId stop)) ∧
      (stop = (queryableModels snapshot).length → next = none) := by
  have hsize : 1 ≤ params.limit.getD defaultPageLimit ∧
      params.limit.getD defaultPageLimit ≤ maxPageLimit := by
    cases hparams : params.limit with
    | none => decide
    | some limit => exact hlimit limit hparams
  set stop := min (Usize.saturatingAdd offset (params.limit.getD defaultPageLimit))
    (queryableModels snapshot).length with hstop
  have hstart : offset ≤ stop := by
    unfold Usize.saturatingAdd at hstop
    omega
  have hle : stop ≤ (queryableModels snapshot).length := Nat.min_le_right _ _
  refine ⟨stop, if stop < (queryableModels snapshot).length then
    some (modelCursor backend snapshot.revisionHash authorityId stop) else none, ?_, hstart, hle, ?_,
    ?_⟩
  · rw [listSemanticModels, validateToolVersion, hversion]
    simp only [beq_self_eq_true, ensure_true, mapError_ok, ok_bind, decide_eq_true hsize.1,
      decide_eq_true hsize.2, Bool.and_self, hcursor, orError_some, decide_eq_true hoffset,
      ← hstop, slice_of_le hstart hle, pure_ok]
  · intro hmore
    refine ⟨?_, if_pos hmore⟩
    unfold Usize.saturatingAdd at hstop
    omega
  · intro hend
    exact if_neg (by omega)

/-- The offsets that the cursors of a listing stand for. -/
def CursorStands (backend : HashBackend) (snapshot : SemanticSnapshot) (authorityId : String)
    (cursor : Option String) (offset : Nat) : Prop :=
  parseCursor backend cursor snapshot.revisionHash authorityId = some offset

theorem listing_serves (hrevision : isSha256 snapshot.revisionHash = true)
    (hlength : (queryableModels snapshot).length ≤ Usize.max) {limits : Nat → Option Nat}
    (hlimits : ∀ step, ∀ limit ∈ limits step, 1 ≤ limit ∧ limit ≤ maxPageLimit) :
    Paging.Serves ((queryableModels snapshot).map modelSummary)
      (CursorStands backend snapshot authorityId)
      (listingPage backend authorityId snapshot limits) := by
  constructor
  intro cursor offset hstands hoffset step
  rw [List.length_map] at hoffset
  obtain ⟨stop, next, hlist, hstart, hstop, hmore, hend⟩ := listSemanticModels_ok
    { schemaVersion := toolSchemaVersion, cursor, limit := limits step } rfl
    (hlimits step) hstands hoffset hlength
  rw [List.length_map]
  refine ⟨stop, next, ?_, hstart, hstop, ?_, hend⟩
  · rw [listingPage, hlist, map_ok, ModelList.page, ← List.map_take, ← List.map_drop]
  · intro hrest
    obtain ⟨hgrows, hnext⟩ := hmore hrest
    refine ⟨hgrows, _, hnext, ?_⟩
    exact parseCursor_modelCursor (bar_notMem_of_isSha256 hrevision) (hstop.trans hlength)

/-- No cursor and no limit makes the slice of a page leave the list. -/
theorem listSemanticModels_ne_outOfRange (published : Except ToolFailure SemanticSnapshot)
    (params : ListModelsParams) :
    listSemanticModels backend authorityId published params ≠ .error .outOfRange := by
  have hfails : Control.FailsOnly (· ≠ ListFailure.outOfRange)
      (listSemanticModels backend authorityId published params) := by
    refine (FailsOnly.mapError fun _ => nofun).bind fun _ _ => ?_
    refine (FailsOnly.ensure fun _ => nofun).bind fun _ _ => ?_
    refine (FailsOnly.mapError fun _ => nofun).bind fun snapshot _ => ?_
    refine (FailsOnly.orError fun _ => nofun).bind fun offset hcursor => ?_
    refine (FailsOnly.ensure fun _ => nofun).bind fun _ hoffset => ?_
    refine (FailsOnly.orError fun hslice => ?_).bind fun page _ => .ok _
    -- The offset is in the list, and the end of the page is between the two.
    rw [ensure_eq_ok, decide_eq_true_eq] at hoffset
    have hword := parseCursor_le (orError_eq_ok.mp hcursor)
    have hstart : offset ≤ min (Usize.saturatingAdd offset (params.limit.getD defaultPageLimit))
        (queryableModels snapshot).length := by
      unfold Usize.saturatingAdd
      omega
    rw [slice_of_le hstart (Nat.min_le_right _ _)] at hslice
    cases hslice
  intro h
  exact hfails _ h rfl

/-- A client that follows the cursors gets each model of the revision that may be queried, once and
in order, however it changes the size of its pages. A cursor is good for its own revision and
authority only, and no text of a cursor stops the process. The length is that of a vector. -/
theorem model_listing_complete
    (hpublished : snapshot.calculateRevisionHash backend = some snapshot.revisionHash)
    (hlength : snapshot.models.length ≤ Usize.max) (authorityId : String) :
    (∀ limits : Nat → Option Nat,
      (∀ step, ∀ limit ∈ limits step, 1 ≤ limit ∧ limit ≤ maxPageLimit) →
      ∃ pages, Paging.Follows (listingPage backend authorityId snapshot limits) 0 none pages ∧
        pages.flatten = (queryableModels snapshot).map modelSummary ∧
        ∀ others, Paging.Follows (listingPage backend authorityId snapshot limits) 0 none others →
          others = pages) ∧
    (∀ n ≤ Usize.max, parseCursor backend
      (some (modelCursor backend snapshot.revisionHash authorityId n)) snapshot.revisionHash
        authorityId = some n) ∧
    (∀ (n : Nat) (revision otherId : String),
      (backend.sha256 (bytesOf authorityId) = backend.sha256 (bytesOf otherId) →
        authorityId = otherId) →
      revision ≠ snapshot.revisionHash ∨ otherId ≠ authorityId →
      parseCursor backend (some (modelCursor backend snapshot.revisionHash authorityId n)) revision
        otherId = none) ∧
    ∀ (published : Except ToolFailure SemanticSnapshot) (params : ListModelsParams),
      listSemanticModels backend authorityId published params ≠ .error .outOfRange := by
  have hrevision := isSha256_of_published hpublished
  have hbar := bar_notMem_of_isSha256 hrevision
  have hmodels : (queryableModels snapshot).length ≤ Usize.max :=
    (List.length_filter_le _ _).trans hlength
  refine ⟨?_, ?_, ?_, listSemanticModels_ne_outOfRange⟩
  · intro limits hlimits
    obtain ⟨pages, hpages, hitems⟩ := (listing_serves hrevision hmodels hlimits).follows
      (rfl : CursorStands backend snapshot authorityId none 0) (Nat.zero_le _) 0
    exact ⟨pages, hpages, hitems, fun others hothers => hothers.unique hpages⟩
  · intro n hn
    exact parseCursor_modelCursor hbar hn
  · intro n revision otherId hinjective hdiffers
    cases hread : parseCursor backend
        (some (modelCursor backend snapshot.revisionHash authorityId n)) revision otherId with
    | none => rfl
    | some offset =>
      obtain ⟨hsame, hhash⟩ := parseCursor_issued hbar hread
      rcases hdiffers with hdiffers | hdiffers
      · exact absurd hsame.symm hdiffers
      · exact absurd (hinjective hhash).symm hdiffers

end Listing

/-! Three models, two of which may be queried. -/

def plainModel (name : String) (queryable : Bool) : Model where
  semanticName := name
  source := ⟨"commerce", name⟩
  queryable := queryable
  fields := [{ semanticName := "id", dataType := .integer, column := "id", entityKey := true }]
  metrics := []

def draftSnapshot : SemanticSnapshot :=
  { schemaVersion := "2"
    revisionHash := ""
    models := [plainModel "orders" true, plainModel "audit" false, plainModel "customers" true] }

def publishedSnapshot : SemanticSnapshot :=
  { draftSnapshot with
    revisionHash := (draftSnapshot.calculateRevisionHash standardHash).getD "" }

theorem publishedSnapshot_hash :
    publishedSnapshot.calculateRevisionHash standardHash = some publishedSnapshot.revisionHash := by
  have hdraft : publishedSnapshot.calculateRevisionHash standardHash =
      draftSnapshot.calculateRevisionHash standardHash := rfl
  rw [hdraft, publishedSnapshot]
  simp [SemanticSnapshot.calculateRevisionHash, standardHash]

theorem model_listing_complete_published :
    (∃ pages, Paging.Follows (listingPage standardHash "tenant-a" publishedSnapshot
        fun _ => some 1) 0 none pages ∧
      pages.flatten = [⟨"orders", 1, 0⟩, ⟨"customers", 1, 0⟩]) ∧
    parseCursor standardHash
      (some (modelCursor standardHash publishedSnapshot.revisionHash "tenant-a" 1))
      (publishedSnapshot.revisionHash ++ "0") "tenant-a" = none := by
  obtain ⟨hpages, -, hrejects, -⟩ := model_listing_complete publishedSnapshot_hash
    (by decide) "tenant-a"
  obtain ⟨pages, hfollows, hitems, -⟩ := hpages (fun _ => some 1) (by simp [maxPageLimit])
  refine ⟨⟨pages, hfollows, hitems⟩, hrejects 1 _ "tenant-a" (fun _ => rfl) (.inl ?_)⟩
  intro hsame
  have hlength := congrArg String.length hsame
  simp at hlength

/-! ## The advertised length -/

/-- A page that is not the last carries a cursor of its own revision. -/
theorem nextCursor_eq {backend : HashBackend} {snapshot : SemanticSnapshot} {authorityId : String}
    {params : ListModelsParams} {list : ModelList} {cursor : String}
    (h : listSemanticModels backend authorityId (.ok snapshot) params = .ok list)
    (hcursor : list.nextCursor = some cursor) :
    ∃ offset, cursor = modelCursor backend snapshot.revisionHash authorityId offset := by
  simp only [listSemanticModels, bind_eq_ok, pure_ok, Except.ok.injEq, mapError_ok] at h
  obtain ⟨_, _, _, _, _, rfl, offset, _, _, _, page, _, rfl⟩ := h
  simp only at hcursor
  split_ifs at hcursor
  exact ⟨_, (Option.some.inj hcursor).symm⟩

theorem listModelsInputSchema_rejects {cursor : String} (h : maxModelCursorLength < cursor.length)
    {arguments : List (String × Json.Value)} (hargument : ("cursor", .string cursor) ∈ arguments) :
    listModelsInputSchema.accepts (.object arguments) = false := by
  rw [← Bool.not_eq_true]
  intro haccepts
  have hadvertised : (Json.Schema.string (some maxModelCursorLength)).accepts (.string cursor) =
      true := Json.Schema.accepts_member haccepts hargument rfl
  rw [Json.Schema.accepts, Option.all_some, decide_eq_true_eq] at hadvertised
  omega

/-- The input schema of the tool rejects each cursor that the tool issues. -/
theorem issued_cursors_exceed_schema {backend : HashBackend} {snapshot : SemanticSnapshot}
    (hpublished : snapshot.calculateRevisionHash backend = some snapshot.revisionHash)
    {authorityId : String} {params : ListModelsParams} {list : ModelList} {cursor : String}
    (hlist : listSemanticModels backend authorityId (.ok snapshot) params = .ok list)
    (hcursor : list.nextCursor = some cursor) {arguments : List (String × Json.Value)}
    (hargument : ("cursor", .string cursor) ∈ arguments) :
    listModelsInputSchema.accepts (.object arguments) = false := by
  obtain ⟨offset, rfl⟩ := nextCursor_eq hlist hcursor
  apply listModelsInputSchema_rejects _ hargument
  rw [modelCursor_length (isSha256_of_published hpublished), maxModelCursorLength]
  omega

def firstPage : ListModelsParams := { schemaVersion := "1", cursor := none, limit := some 1 }

theorem publishedSnapshot_continues : ∃ list,
    listSemanticModels standardHash "tenant-a" (.ok publishedSnapshot) firstPage = .ok list ∧
      list.nextCursor =
        some (modelCursor standardHash publishedSnapshot.revisionHash "tenant-a" 1) :=
  ⟨_, rfl, rfl⟩

/-- The cursor to the second of two models, in the arguments that a client would send. -/
theorem issued_cursors_exceed_schema_published : ∃ list cursor,
    listSemanticModels standardHash "tenant-a" (.ok publishedSnapshot) firstPage = .ok list ∧
      list.nextCursor = some cursor ∧
      listModelsInputSchema.accepts (.object [("schema_version", .string "1"),
        ("cursor", .string cursor), ("limit", .number "1")]) = false := by
  obtain ⟨list, hlist, hcursor⟩ := publishedSnapshot_continues
  exact ⟨list, _, hlist, hcursor,
    issued_cursors_exceed_schema publishedSnapshot_hash hlist hcursor (by simp)⟩

/-- That cursor has 148 characters, and the schema rejects it by itself. -/
theorem second_page_cursor_too_long : ∃ list cursor,
    listSemanticModels standardHash "tenant-a" (.ok publishedSnapshot) firstPage = .ok list ∧
      list.nextCursor = some cursor ∧ cursor.length = 148 ∧
      listModelsInputSchema.accepts (.object [("schema_version", .string "1"),
        ("cursor", .string cursor)]) = false := by
  obtain ⟨list, hlist, hcursor⟩ := publishedSnapshot_continues
  have hlength : (modelCursor standardHash publishedSnapshot.revisionHash "tenant-a" 1).length =
      148 := by
    rw [modelCursor_length (isSha256_of_published publishedSnapshot_hash)]
    rfl
  refine ⟨list, _, hlist, hcursor, hlength, ?_⟩
  exact listModelsInputSchema_rejects (by rw [hlength]; decide) (by simp)

end Postgresem.Gateway
