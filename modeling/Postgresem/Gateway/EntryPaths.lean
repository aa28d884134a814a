import Postgresem.Gateway.Dispatch
import Postgresem.Mutation.Duplicates

/-! The ways a mutation document comes in. A file is normalized as it is; the argument of a tool call has
been through a JSON value before it is written again for the same normalization. -/
namespace Postgresem.Gateway
open Json (Value fromSlice printed isMachineInteger lastMember readsNumber fields knownFields field
  fieldOr)
open Control

section Submission

/-- What the executor of mutations is given for the parameters of `tools/call`. -/
def mutationInput (params : Value) : Option (List UInt8) := do
  let request ← decodeToolCall params
  let arguments ← decodeMutationTool request.arguments
  if request.name = "mutate_semantic_model" ∧ arguments.schemaVersion = toolSchemaVersion then
    some (bytesOf arguments.lsm.text)
  else none

/-- The same for a line of the standard input. -/
def lineInput (fromSlice : List UInt8 → Option Value) (line : List UInt8) : Option (List UInt8) := do
  let request ← (readRequest fromSlice line).toOption
  if request.method = "tools/call" then mutationInput request.params else none

/-- The same for the headers and the body of a request over HTTP. -/
def bodyInput (fromSlice : List UInt8 → Option Value)
    (decodeBase64 : String → Option (List UInt8)) (headers : HeaderMap) (body : List UInt8) :
    Option (List UInt8) := do
  let request ← (parseModernRequest fromSlice decodeBase64 headers body).toOption
  let parameters ← asObject request.params
  if request.method = "tools/call" then mutationInput (.object (withoutMeta parameters)) else none

theorem callTool_mutate {tools : Tools} {request : ToolCallParams}
    (h : request.name = "mutate_semantic_model") : callTool tools request =
      runTool decodeMutationTool tools.mutateSemanticModel request.arguments := by
  obtain ⟨name, arguments⟩ := request
  subst h
  rfl

theorem dispatch_toolsCall (server : Server) (params : Value) :
    dispatch server "tools/call" params = (do
      let request ← parseParams decodeToolCall params
      callTool server.toTools request) := rfl

/-- The executor answers a line that submits a mutation with what it makes of the input. -/
theorem handleLine_of_input {fromSlice : List UInt8 → Option Value} {server : Server}
    {execute : List UInt8 → Except ToolFailure Value} {line input : List UInt8}
    (hserver : server.mutateSemanticModel = mutateSemanticModel (some execute))
    (h : lineInput fromSlice line = some input) : ∃ request,
      readRequest fromSlice line = .ok request ∧ handleLine fromSlice server line =
        request.id.map fun id => answer id (.ok (toolAnswer (execute input))) := by
  obtain ⟨request, hrequest, hinput⟩ := Option.bind_eq_some_iff.mp h
  rw [toOption_eq_some] at hrequest
  split_ifs at hinput with hmethod
  obtain ⟨call, hcall, hrest⟩ := Option.bind_eq_some_iff.mp hinput
  obtain ⟨arguments, harguments, hlast⟩ := Option.bind_eq_some_iff.mp hrest
  split_ifs at hlast with hchecks
  obtain ⟨hname, hversion⟩ := hchecks
  obtain rfl := Option.some.inj hlast
  have hrun : server.mutateSemanticModel arguments = execute (bytesOf arguments.lsm.text) := by
    rw [hserver, mutateSemanticModel, hversion]
    rfl
  have hdispatch : dispatch server request.method request.params =
      callTool server.toTools call := by
    rw [hmethod, dispatch_toolsCall, parseParams, hcall, orError_some, ok_bind]
  refine ⟨request, hrequest, ?_⟩
  rw [handleLine, hrequest]
  show request.id.map (fun id => answer id (dispatch server request.method request.params)) = _
  rw [hdispatch, callTool_mutate hname, runTool, harguments, orError_some, ok_bind, hrun]

end Submission

section Carried
variable {finite : String → Bool} {reprint : String → String}

/-- The text of a request has the document in the place of the argument `lsm`. Where it repeats a name
itself, the last member counts. -/
def SubmitsDocument (request document : Value) : Prop :=
  ∃ params arguments, lastMember "params" request = some params ∧
    lastMember "arguments" params = some arguments ∧
    lastMember "lsm" arguments = some document

theorem object_of_lastMember {name : String} {value member : Value}
    (h : lastMember name value = some member) : ∃ members, value = .object members := by
  cases value with
  | object members => exact ⟨members, rfl⟩
  | _ => cases h

/-- The members that a map of a value has. -/
def collapsed (f : String → String) (members : Members) : Members :=
  OrderedMap.ofEntries (OrderedMap.mapValues (Value.collapse f) members)

theorem lookup_collapsed {f : String → String} {name : String} {members : Members} {member : Value}
    (h : lastMember name (.object members) = some member) :
    (collapsed f members).lookup name = some (member.collapse f) := by
  rw [collapsed, Json.lookup_collapse, h, Option.map_some]

/-- A lookup by name is not affected by members that are ignored. -/
theorem lookup_filter {p : String → Bool} {name : String} (h : p name = true) (members : Members) :
    (members.filter fun member => p member.1).lookup name = members.lookup name := by
  induction members with
  | nil => rfl
  | cons member members ih =>
    obtain ⟨key, value⟩ := member
    rw [List.filter_cons]
    by_cases hname : name = key
    · subst hname
      rw [if_pos h, List.lookup_cons_self, List.lookup_cons_self]
    · rw [List.lookup_cons, beq_false_of_ne hname]
      split_ifs
      · rw [List.lookup_cons, beq_false_of_ne hname]
        exact ih
      · exact ih

/-- The arguments of a call are the member of that name. -/
theorem arguments_of_decodeToolCall {members : Members} {request : ToolCallParams}
    (h : decodeToolCall (.object members) = some request) :
    request.arguments = (members.lookup "arguments").getD (.object []) := by
  simp only [decodeToolCall, Json.leavingOut, knownFields, fields, Option.bind_eq_bind,
    Option.bind_eq_some_iff] at h
  obtain ⟨found, hfound, name, -, arguments, harguments, heq⟩ := h
  split_ifs at hfound
  obtain rfl := Option.some.inj hfound
  obtain rfl := Option.some.inj heq
  rw [fieldOr, lookup_filter (by decide)] at harguments
  cases hlookup : members.lookup "arguments" with
  | none =>
    rw [hlookup] at harguments
    exact (Option.some.inj harguments).symm
  | some found =>
    rw [hlookup] at harguments
    exact (Option.some.inj harguments).symm

theorem lsm_of_decodeMutationTool {members : Members} {arguments : MutationToolParams}
    (h : decodeMutationTool (.object members) = some arguments) :
    members.lookup "lsm" = some arguments.lsm := by
  simp only [decodeMutationTool, fields, Option.bind_eq_bind, Option.bind_eq_some_iff] at h
  obtain ⟨found, hfound, version, -, lsm, hlsm, heq⟩ := h
  split_ifs at hfound
  obtain rfl := Option.some.inj hfound
  obtain rfl := Option.some.inj heq
  obtain ⟨value, hvalue, hsome⟩ := Option.bind_eq_some_iff.mp hlsm
  rw [hvalue, hsome]

/-- The executor is given the last of the documents, written anew. -/
theorem mutationInput_of_carried {f : String → String} {params arguments : Members} {document : Value}
    {input : List UInt8}
    (harguments : params.lookup "arguments" = some ((Value.object arguments).collapse f))
    (hlsm : lastMember "lsm" (.object arguments) = some document)
    (h : mutationInput (.object params) = some input) :
    input = bytesOf (document.collapse f).text := by
  obtain ⟨call, hcall, hrest⟩ := Option.bind_eq_some_iff.mp h
  obtain ⟨tool, htool, hlast⟩ := Option.bind_eq_some_iff.mp hrest
  split_ifs at hlast
  obtain rfl := Option.some.inj hlast
  have hcalled := arguments_of_decodeToolCall hcall
  rw [harguments, Option.getD_some, Json.collapse_object] at hcalled
  rw [hcalled] at htool
  have hfound := lsm_of_decodeMutationTool htool
  rw [Json.lookup_collapse, hlsm, Option.map_some, Option.some.injEq] at hfound
  rw [hfound]

theorem numbersAll_lastMember {p : String → Bool} {name : String} {value member : Value}
    (h : lastMember name value = some member) (hnumbers : value.numbersAll p = true) :
    member.numbersAll p = true := by
  obtain ⟨members, rfl⟩ := object_of_lastMember h
  obtain ⟨entry, hentry, rfl⟩ := Option.map_eq_some_iff.mp h
  rw [Json.numbersAll_object, List.all_eq_true] at hnumbers
  exact hnumbers entry (List.mem_filter.mp (List.mem_of_getLast? hentry)).1

/-- What was read of a request that carries a document. -/
theorem fromSlice_carried {request : List UInt8} {raw document message : Value}
    (hread : Json.read request = some raw) (hcarries : SubmitsDocument raw document)
    (h : fromSlice finite reprint request = some message) :
    document.numbersAll (readsNumber finite) = true ∧ ∃ members params arguments,
      message = .object (collapsed (printed finite reprint) members) ∧
      (collapsed (printed finite reprint) members).lookup "params" =
        some (.object (collapsed (printed finite reprint) params)) ∧
      (collapsed (printed finite reprint) params).lookup "arguments" =
        some ((Value.object arguments).collapse (printed finite reprint)) ∧
      lastMember "lsm" (.object arguments) = some document := by
  rw [fromSlice, hread, Option.bind_some] at h
  split_ifs at h with hnumbers
  obtain ⟨params, arguments, hparams, harguments, hlsm⟩ := hcarries
  have hdocument := numbersAll_lastMember hlsm (numbersAll_lastMember harguments
    (numbersAll_lastMember hparams hnumbers))
  obtain ⟨members, rfl⟩ := object_of_lastMember hparams
  obtain ⟨paramMembers, rfl⟩ := object_of_lastMember harguments
  obtain ⟨argumentMembers, rfl⟩ := object_of_lastMember hlsm
  refine ⟨hdocument, members, paramMembers, argumentMembers, ?_, ?_, lookup_collapsed harguments, hlsm⟩
  · rw [← Option.some.inj h, Json.collapse_object]
    rfl
  · rw [lookup_collapsed hparams, Json.collapse_object]
    rfl

theorem lineInput_of_carried {line input : List UInt8} {raw document : Value}
    (hread : Json.read line = some raw) (hcarries : SubmitsDocument raw document)
    (h : lineInput (fromSlice finite reprint) line = some input) :
    document.numbersAll (readsNumber finite) = true ∧
      input = bytesOf (document.collapse (printed finite reprint)).text := by
  obtain ⟨request, hrequest, hinput⟩ := Option.bind_eq_some_iff.mp h
  rw [toOption_eq_some] at hrequest
  simp only [readRequest, bind_eq_ok, orError_eq_ok, ensure_eq_ok, Except.ok.injEq] at hrequest
  obtain ⟨message, hmessage, object, hobject, id, -, -, -, method, -, rfl⟩ := hrequest
  split_ifs at hinput
  obtain ⟨hnumbers, members, params, arguments, rfl, hparams, harguments, hlsm⟩ :=
    fromSlice_carried hread hcarries hmessage
  obtain rfl := Option.some.inj hobject
  rw [hparams, Option.getD_some] at hinput
  exact ⟨hnumbers, mutationInput_of_carried harguments hlsm hinput⟩

theorem bodyInput_of_carried {decodeBase64 : String → Option (List UInt8)} {headers : HeaderMap}
    {body input : List UInt8} {raw document : Value} (hread : Json.read body = some raw)
    (hcarries : SubmitsDocument raw document)
    (h : bodyInput (fromSlice finite reprint) decodeBase64 headers body = some input) :
    document.numbersAll (readsNumber finite) = true ∧
      input = bytesOf (document.collapse (printed finite reprint)).text := by
  obtain ⟨request, hrequest, hrest⟩ := Option.bind_eq_some_iff.mp h
  rw [toOption_eq_some] at hrequest
  obtain ⟨parameters, hparameters, hinput⟩ := Option.bind_eq_some_iff.mp hrest
  split_ifs at hinput
  obtain ⟨message, parameters', metadata, hmessage, hmirrors⟩ := parseModernRequest_mirrors hrequest
  obtain ⟨hnumbers, members, params, arguments, hobject, hparams, harguments, hlsm⟩ :=
    fromSlice_carried hread hcarries hmessage
  obtain rfl := Value.object.inj hobject
  have hbody := hmirrors.body
  rw [hparams, Option.getD_some] at hbody
  rw [hmirrors.params, ← hbody] at hparameters
  obtain rfl := Option.some.inj hparameters
  rw [← lookup_withoutMeta _ (by decide)] at harguments
  exact ⟨hnumbers, mutationInput_of_carried harguments hlsm hinput⟩

end Carried

section Agreement
variable {finite : String → Bool} {reprint : String → String} {backend : HashBackend}

/-- What is printed of a floating-point number is a number in range, and no integer. -/
structure Reprints (finite : String → Bool) (reprint : String → String) : Prop where
  wellFormed : ∀ text, (Value.number text).WellFormed → finite text = true →
    (Value.number (reprint text)).WellFormed
  inRange : ∀ text, finite text = true → finite (reprint text) = true
  noInteger : ∀ text, finite text = true → isMachineInteger text = false →
    isMachineInteger (reprint text) = false

theorem Reprints.asI64_printed (h : Reprints finite reprint) (text : String) :
    Json.asI64 (printed finite reprint text) = Json.asI64 text := by
  rw [printed]
  split_ifs with hprinted
  · rw [Bool.and_eq_true, Bool.not_eq_true'] at hprinted
    have hbefore := (Bool.or_eq_false_iff.mp hprinted.2).1
    have hafter := (Bool.or_eq_false_iff.mp (h.noInteger text hprinted.1 hprinted.2)).1
    rw [Option.isSome_eq_false_iff, Option.isNone_iff_eq_none] at hbefore hafter
    rw [hbefore, hafter]
  · rfl

theorem Reprints.readsNumber_printed (h : Reprints finite reprint) (text : String)
    (hreads : readsNumber finite text = true) :
    readsNumber finite (printed finite reprint text) = true := by
  rw [printed]
  split_ifs with hprinted
  · rw [Bool.and_eq_true] at hprinted
    rw [readsNumber, h.inRange text hprinted.1, Bool.or_true]
  · exact hreads

theorem Reprints.wellFormed_printed (h : Reprints finite reprint) (text : String)
    (hwell : (Value.number text).WellFormed) :
    (Value.number (printed finite reprint text)).WellFormed := by
  rw [printed]
  split_ifs with hprinted
  · rw [Bool.and_eq_true] at hprinted
    exact h.wellFormed text hwell hprinted.1
  · exact hwell

/-- `normalize_lsm` accepts the input. -/
def Accepts (finite : String → Bool) (backend : HashBackend) (input : List UInt8) : Prop :=
  ∃ normalized, normalizeLsm finite backend input = .ok normalized

/-- A document that repeats no name is deserialized, and the mutation passes its validation. -/
def Admitted (document : Value) : Prop :=
  ∃ mutation, decodeMutation document = some mutation ∧ validateMutation mutation = .ok ()

theorem accepts_iff {input : List UInt8} {document : Value} (hread : Json.read input = some document)
    (hsize : input.length ≤ maxInputBytes) :
    Accepts finite backend input ↔ document.unrepeated = true ∧
      document.numbersAll (readsNumber finite) = true ∧ Admitted document.lastWins := by
  simp only [Accepts, normalizeLsm_eq_ok, LogicalSemanticMutation.checked_eq_ok, parseMutation, hread,
    Option.bind_eq_bind, Option.bind_some, Option.bind_eq_some_iff, uniqueValue_eq_some, ReadsUnique]
  constructor
  · rintro ⟨_, -, mutation, ⟨_, ⟨hunrepeated, hnumbers, rfl⟩, hdecoded⟩, hvalid, -⟩
    exact ⟨hunrepeated, hnumbers, mutation, hdecoded, hvalid⟩
  · rintro ⟨hunrepeated, hnumbers, mutation, hdecoded, hvalid⟩
    exact ⟨_, hsize, mutation, ⟨_, ⟨hunrepeated, hnumbers, rfl⟩, hdecoded⟩, hvalid, rfl⟩

/-- The document that is written anew is accepted if what the last members leave is admitted. -/
theorem accepts_written (h : Reprints finite reprint) {text : List UInt8} {document : Value}
    (hread : Json.read text = some document)
    (hnumbers : document.numbersAll (readsNumber finite) = true)
    (hsize : (bytesOf (document.collapse (printed finite reprint)).text).length ≤ maxInputBytes) :
    Accepts finite backend (bytesOf (document.collapse (printed finite reprint)).text) ↔
      Admitted document.lastWins := by
  obtain ⟨hwell, hdepth⟩ := Json.read_bounded hread
  have hwritten : Json.read (bytesOf (document.collapse (printed finite reprint)).text) =
      some (document.collapse (printed finite reprint)) := Json.read_text
    (Json.wellFormed_collapse (fun text hnumber _ => h.wellFormed_printed text hnumber) hwell hnumbers)
    ((Json.depth_collapse (printed finite reprint) document).trans hdepth)
  have hsorted := Json.sorted_collapse (printed finite reprint) document
  have hrange := Json.numbersAll_collapse h.readsNumber_printed hnumbers
  rw [accepts_iff hwritten hsize, hsorted.lastWins_eq, Admitted, Admitted,
    Json.collapse_eq_mapNumbers, blind_decodeMutation h.asI64_printed]
  rw [← Json.collapse_eq_mapNumbers]
  exact ⟨fun hall => hall.2.2, fun hadmitted => ⟨hsorted.unrepeated, hrange, hadmitted⟩⟩

/-- The argument of a tool call that carries the document, over either transport, comes to the executor
as this input. -/
def Submits (fromSlice : List UInt8 → Option Value) (document : Value) (input : List UInt8) : Prop :=
  ∃ request raw, Json.read request = some raw ∧ SubmitsDocument raw document ∧
    (lineInput fromSlice request = some input ∨
      ∃ decodeBase64 headers, bodyInput fromSlice decodeBase64 headers request = some input)

/-- Both ways refuse a document that repeats a key, and they accept the same documents. -/
def PathsAgree (finite : String → Bool) (backend : HashBackend) (document : Value)
    (text input : List UInt8) : Prop :=
  (document.unrepeated = false → ¬ Accepts finite backend text ∧ ¬ Accepts finite backend input) ∧
    (Accepts finite backend text ↔ Accepts finite backend input)

/-- The ways in agree on a document that repeats no key, and on one that is refused as well when only
the last member of each key is kept; and on no other. -/
theorem entry_paths_agree_iff (h : Reprints finite reprint) {text input : List UInt8}
    {document : Value} (hread : Json.read text = some document)
    (hsubmits : Submits (fromSlice finite reprint) document input)
    (hsize : text.length ≤ maxInputBytes) (hsize' : input.length ≤ maxInputBytes) :
    PathsAgree finite backend document text input ↔
      document.unrepeated = true ∨ ¬ Admitted document.lastWins := by
  have hsubmitted : document.numbersAll (readsNumber finite) = true ∧
      input = bytesOf (document.collapse (printed finite reprint)).text := by
    obtain ⟨request, raw, hrequest, hcarries, hline | ⟨decodeBase64, headers, hbody⟩⟩ := hsubmits
    · exact lineInput_of_carried hrequest hcarries hline
    · exact bodyInput_of_carried hrequest hcarries hbody
  obtain ⟨hnumbers, rfl⟩ := hsubmitted
  have htext : Accepts finite backend text ↔
      document.unrepeated = true ∧ Admitted document.lastWins := by
    rw [accepts_iff hread hsize]
    exact ⟨fun hall => ⟨hall.1, hall.2.2⟩, fun hall => ⟨hall.1, hnumbers, hall.2⟩⟩
  rw [PathsAgree, htext, accepts_written h hread hnumbers hsize']
  cases document.unrepeated <;> simp

end Agreement

section Smuggled

/-- The model is given twice. -/
def smuggled : Value := .object [
  ("schema_version", .string "1"), ("operation", .string "insert"), ("model", .string "orders"),
  ("model", .string "payroll"), ("idempotency_key", .string "order-1"),
  ("rows", .array [.object [("amount", .object [("type", .string "numeric"),
    ("value", .string "12.50")])]])]

def toolCall (document : Value) : Value := .object [
  ("id", .string "7"), ("jsonrpc", .string "2.0"), ("method", .string "tools/call"),
  ("params", .object [("arguments", .object [("lsm", document), ("schema_version", .string "1")]),
    ("name", .string "mutate_semantic_model")])]

theorem submitsDocument_toolCall (document : Value) : SubmitsDocument (toolCall document) document :=
  ⟨_, _, rfl, rfl, rfl⟩

theorem reprints_integers : Reprints (fun _ => false) id where
  wellFormed _ hwell _ := hwell
  inRange _ hfinite := hfinite
  noInteger _ hfinite := by cases hfinite

/-- The members of the call stand in their order already. -/
theorem collapse_toolCall (f : String → String) (document : Value) :
    (toolCall document).collapse f = toolCall (document.collapse f) := by
  have harguments (value : Value) :
      OrderedMap.Sorted [("lsm", value), ("schema_version", .string "1")] :=
    List.pairwise_map.mp (by decide +kernel : ["lsm", "schema_version"].Pairwise (· < ·))
  have hparams (value : Value) :
      OrderedMap.Sorted [("arguments", value), ("name", .string "mutate_semantic_model")] :=
    List.pairwise_map.mp (by decide +kernel : ["arguments", "name"].Pairwise (· < ·))
  have hmembers (value : Value) : OrderedMap.Sorted [("id", .string "7"),
      ("jsonrpc", .string "2.0"), ("method", .string "tools/call"), ("params", value)] :=
    List.pairwise_map.mp
      (by decide +kernel : ["id", "jsonrpc", "method", "params"].Pairwise (· < ·))
  simp only [toolCall, Value.collapse, Value.collapseMembers,
    OrderedMap.ofEntries_of_sorted (harguments _), OrderedMap.ofEntries_of_sorted (hparams _),
    OrderedMap.ofEntries_of_sorted (hmembers _)]

/-- A small document, submitted as the argument of a line. -/
theorem submits_toolCall {document : Value} (hwell : (toolCall document).WellFormed)
    (hdepth : (toolCall document).depth ≤ Json.maxDepth)
    (hnumbers : (toolCall document).numbersAll (readsNumber fun _ => false) = true) :
    Submits (fromSlice (fun _ => false) id) document
      (bytesOf (document.collapse (printed (fun _ => false) id)).text) := by
  have hread : Json.read (bytesOf (toolCall document).text) = some (toolCall document) :=
    Json.read_text hwell hdepth
  refine ⟨_, _, hread, submitsDocument_toolCall document, .inl ?_⟩
  rw [lineInput, readRequest, fromSlice, hread, Option.bind_some, hnumbers, if_pos rfl,
    collapse_toolCall]
  rfl

theorem smuggled_admitted : Admitted smuggled.lastWins :=
  ⟨_, rfl, by decide⟩

theorem smuggled_read : Json.read (bytesOf smuggled.text) = some smuggled :=
  Json.read_text (by simp [smuggled, Value.WellFormed, Value.MembersWellFormed,
    Value.EachWellFormed]) (by decide)

/-- A document that names two models: the file is refused, and the argument of a call is accepted. -/
theorem repeated_key_submitted : ∃ document text input, document.unrepeated = false ∧
    Json.read text = some document ∧ Submits (fromSlice (fun _ => false) id) document input ∧
    text.length ≤ maxInputBytes ∧ input.length ≤ maxInputBytes ∧
    ¬ Accepts (fun _ => false) standardHash text ∧ Accepts (fun _ => false) standardHash input := by
  have hsubmits : Submits (fromSlice (fun _ => false) id) smuggled _ :=
    submits_toolCall (by simp [toolCall, smuggled, Value.WellFormed, Value.MembersWellFormed,
      Value.EachWellFormed]) (by decide) (by decide)
  have hsize : (bytesOf smuggled.text).length ≤ maxInputBytes := by decide +kernel
  have hsize' : (bytesOf (smuggled.collapse (printed (fun _ => false) id)).text).length ≤
      maxInputBytes := by decide +kernel
  refine ⟨smuggled, _, _, rfl, smuggled_read, hsubmits, hsize, hsize', ?_, ?_⟩
  · rw [accepts_iff smuggled_read hsize]
    rintro ⟨hunrepeated, -⟩
    exact absurd hunrepeated (by decide)
  · exact (accepts_written reprints_integers smuggled_read (by decide) hsize').mpr smuggled_admitted

/-- The document without its second model. -/
def single : Value := .object [
  ("schema_version", .string "1"), ("operation", .string "insert"), ("model", .string "orders"),
  ("idempotency_key", .string "order-1"),
  ("rows", .array [.object [("amount", .object [("type", .string "numeric"),
    ("value", .string "12.50")])]])]

theorem entry_paths_agree_iff_single : ∃ input,
    Submits (fromSlice (fun _ => false) id) single input ∧
      PathsAgree (fun _ => false) standardHash single (bytesOf single.text) input := by
  have hread : Json.read (bytesOf single.text) = some single :=
    Json.read_text (by simp [single, Value.WellFormed, Value.MembersWellFormed,
      Value.EachWellFormed]) (by decide)
  have hsubmits : Submits (fromSlice (fun _ => false) id) single _ :=
    submits_toolCall (by simp [toolCall, single, Value.WellFormed, Value.MembersWellFormed,
      Value.EachWellFormed]) (by decide) (by decide)
  have hsize : (bytesOf single.text).length ≤ maxInputBytes := by decide +kernel
  have hsize' : (bytesOf (single.collapse (printed (fun _ => false) id)).text).length ≤
      maxInputBytes := by decide +kernel
  exact ⟨_, hsubmits, (entry_paths_agree_iff reprints_integers hread hsubmits hsize hsize').mpr
    (.inl (by decide))⟩

end Smuggled

end Postgresem.Gateway
