import Mathlib.Data.List.Basic
import Postgresem.Foundation.JsonRoundTrip
import Postgresem.Foundation.Utf8
import Postgresem.Gateway.Resources
import Postgresem.Gateway.Stdio

/-! A request over HTTP says twice what it asks for: in its body, and in headers that a proxy can
read. What is dispatched is what the body says, and a request whose headers say something else is not
dispatched. -/
namespace Postgresem.Gateway
open Control

section Headers

/-- The headers in the order they came, with their names in lower case. -/
abbrev HeaderMap := List (String × List UInt8)

def getAll (headers : HeaderMap) (name : String) : List (List UInt8) :=
  (headers.filter fun header => header.1 == name).map Prod.snd

/-- `HeaderValue::to_str`: visible ASCII, blanks and tabs. -/
def toStr (value : List UInt8) : Option String :=
  if value.all fun byte => (32 ≤ byte && byte < 127) || byte == 9 then
    some (String.ofList (value.map fun byte => Char.ofNat byte.toNat))
  else none

def singleHeader (headers : HeaderMap) (name : String) : Except Unit (Option String) :=
  match getAll headers name with
  | [] => .ok none
  | first :: others => do
    let text ← orError (toStr first) ()
    ensure others.isEmpty ()
    .ok (some text)

end Headers

section Rejections

structure HttpRejection where
  status : Nat
  body : Json.Value
  deriving DecidableEq

def jsonErrorResponse (status : Nat) (id : Json.Value) (code : Int) (message publicCode : String) :
    HttpRejection := ⟨status, rpcError id code message publicCode⟩

def headerMismatch (id : Json.Value) : HttpRejection :=
  jsonErrorResponse 400 id (-32020) "request headers do not match the request body"
    "MCP_HEADER_MISMATCH"

def modernProtocolVersion : String := "2026-07-28"

def unsupportedProtocolResponse (status : Nat) (id : Json.Value) (requested : String) :
    HttpRejection where
  status := status
  body := .object [
    ("error", .object [
      ("code", .number (toString (-32022 : Int))),
      ("data", .object [
        ("code", .string "MCP_UNSUPPORTED_PROTOCOL_VERSION"),
        ("requested", .string requested),
        ("supported", .array [.string modernProtocolVersion])]),
      ("message", .string "unsupported protocol version")]),
    ("id", id),
    ("jsonrpc", .string "2.0")]

def invalidRequest (id : Json.Value) : HttpRejection :=
  jsonErrorResponse 400 id (-32600) "invalid request" "MCP_INVALID_REQUEST"

end Rejections

section Values

/-- The members of an object, one for a name. -/
abbrev Members := List (String × Json.Value)

def asStr : Json.Value → Option String
  | .string value => some value
  | _ => none

def asObject : Json.Value → Option Members
  | .object members => some members
  | _ => none

def getStr (members : Members) (name : String) : Option String := (members.lookup name).bind asStr

def getObject (members : Members) (name : String) : Option Members :=
  (members.lookup name).bind asObject

def validRequestId : Json.Value → Bool
  | .string _ => true
  | .number text => (Json.asI64 text).isSome || (Json.asU64 text).isSome
  | _ => false

end Values

structure ModernRequest where
  id : Json.Value
  method : String
  params : Json.Value
  name : Option String

section Parser
/-! `from_slice` reads a body as a JSON value, in which an object has one member for a name, and
`decodeBase64` decodes the standard alphabet. -/
variable (fromSlice : List UInt8 → Option Json.Value) (decodeBase64 : String → Option (List UInt8))

def requiredHeader (headers : HeaderMap) (name : String) (id : Json.Value) :
    Except HttpRejection String := do
  let value ← (singleHeader headers name).mapError fun _ => headerMismatch id
  orError value (headerMismatch id)

def decodeHeaderValue (value : String) : Option String :=
  let encoded := (value.toList.dropPrefix? "=?base64?".toList).bind fun value =>
    value.dropSuffix? "?=".toList
  match encoded with
  | some encoded => do
    let bytes ← decodeBase64 (String.ofList encoded)
    String.fromUTF8? ⟨bytes.toArray⟩
  | none =>
    if "=?base64?".toList.isPrefixOf value.toList || "?=".toList.isSuffixOf value.toList then none
    else some value

def validateRequestMeta (headers : HeaderMap) (params : Members) (id : Json.Value) :
    Except HttpRejection Unit := do
  let headerVersion ← requiredHeader headers "mcp-protocol-version" id
  let metadata ← orError (getObject params "_meta") (headerMismatch id)
  let bodyVersion ← orError (getStr metadata "io.modelcontextprotocol/protocolVersion")
    (headerMismatch id)
  ensure (headerVersion == bodyVersion) (headerMismatch id)
  ensure (bodyVersion == modernProtocolVersion) (unsupportedProtocolResponse 400 id bodyVersion)
  let client ← orError (getObject metadata "io.modelcontextprotocol/clientInfo") (headerMismatch id)
  ensure ((getStr client "name").any (!·.isEmpty) && (getStr client "version").any (!·.isEmpty))
    (headerMismatch id)
  ensure (getObject metadata "io.modelcontextprotocol/clientCapabilities").isSome
    (jsonErrorResponse 400 id (-32021) "required client capability is missing"
      "MCP_MISSING_REQUIRED_CLIENT_CAPABILITY")

/-- The name of the tool, or the URI of the resource. -/
def bodyName (method : String) (params : Members) : Option String :=
  match method with
  | "tools/call" => getStr params "name"
  | "resources/read" => getStr params "uri"
  | _ => none

def validateMethodHeaders (headers : HeaderMap) (method : String) (params : Members)
    (id : Json.Value) : Except HttpRejection Unit := do
  let header ← requiredHeader headers "mcp-method" id
  ensure (header == method) (headerMismatch id)
  match bodyName method params with
  | some expected => do
    let encoded ← requiredHeader headers "mcp-name" id
    let decoded ← orError (decodeHeaderValue decodeBase64 encoded) (headerMismatch id)
    ensure (decoded == expected) (headerMismatch id)
  | none => ensure (getAll headers "mcp-name").isEmpty (headerMismatch id)

def parseModernRequest (headers : HeaderMap) (body : List UInt8) :
    Except HttpRejection ModernRequest := do
  let message ← orError (fromSlice body)
    (jsonErrorResponse 400 .null (-32700) "parse error" "MCP_PARSE_ERROR")
  let object ← orError (asObject message) (invalidRequest .null)
  let id ← orError (object.lookup "id")
    (jsonErrorResponse 400 .null (-32600) "notifications are not supported"
      "MCP_NOTIFICATION_UNSUPPORTED")
  ensure (validRequestId id && getStr object "jsonrpc" == some "2.0") (invalidRequest .null)
  let method ← orError (getStr object "method") (invalidRequest id)
  let params := (object.lookup "params").getD (.object [])
  let parameterObject ← orError (asObject params)
    (jsonErrorResponse 400 id (-32602) "invalid method parameters" "MCP_INVALID_PARAMS")
  validateRequestMeta headers parameterObject id
  validateMethodHeaders decodeBase64 headers method parameterObject id
  .ok { id, method, params, name := bodyName method parameterObject }

end Parser

section Dispatch

def methodNotFound : RpcFailure := ⟨-32601, "MCP_METHOD_NOT_FOUND", "method not found"⟩

def invalidParams : RpcFailure := ⟨-32602, "MCP_INVALID_PARAMS", "invalid method parameters"⟩

/-- What the server does for a method, with the parameters that it reads. -/
inductive Call where
  | discover
  | ping
  | listTools
  | callTool (name : String) (arguments : Json.Value)
  | listResources
  | readResource (uri : String)

def Call.method : Call → String
  | .discover => "server/discover"
  | .ping => "ping"
  | .listTools => "tools/list"
  | .callTool _ _ => "tools/call"
  | .listResources => "resources/list"
  | .readResource _ => "resources/read"

def Call.name : Call → Option String
  | .callTool name _ => some name
  | .readResource uri => some uri
  | _ => none

/-- `PaginationParams`, whose cursor the protocol rejects. -/
def withoutCursor (params : Members) (call : Call) : Except RpcFailure Call :=
  match params.lookup "cursor" with
  | none | some .null => .ok call
  | _ => .error invalidParams

/-- `ToolCallParams`. -/
def parseToolCall (params : Members) : Except RpcFailure Call := do
  let name ← orError (getStr params "name") invalidParams
  .ok (.callTool name ((params.lookup "arguments").getD (.object [])))

/-- `ResourceReadParams`. -/
def parseResourceRead (params : Members) : Except RpcFailure Call := do
  let uri ← orError (getStr params "uri") invalidParams
  .ok (.readResource uri)

def withoutMeta (params : Members) : Members := params.filter fun member => member.1 != "_meta"

def dispatchModern (method : String) (params : Json.Value) : Except RpcFailure Call := do
  let parameters ← orError (asObject params) invalidParams
  let parameters := withoutMeta parameters
  match method with
  | "server/discover" => .ok .discover
  | "ping" => .ok .ping
  | "tools/list" => withoutCursor parameters .listTools
  | "tools/call" => parseToolCall parameters
  | "resources/list" => withoutCursor parameters .listResources
  | "resources/read" => parseResourceRead parameters
  | _ => .error methodNotFound

/-- Only a tool call can be cancelled. -/
def dispatchModernWithCancel (method : String) (params : Json.Value) : Except RpcFailure Call := do
  let parameters ← orError (asObject params) invalidParams
  let parameters := withoutMeta parameters
  if method == "tools/call" then parseToolCall parameters
  else dispatchModern method (.object parameters)

def knownMethod (method : String) : Bool :=
  method ∈ ["server/discover", "ping", "tools/list", "tools/call", "resources/list",
    "resources/read"]

def isStreamingExecution (request : ModernRequest) : Bool :=
  request.method == "tools/call" &&
    (request.name == some "query_semantic_model" || request.name == some "mutate_semantic_model")

/-- What runs for a request, and whether its answer is streamed. -/
structure Execution where
  id : Json.Value
  streaming : Bool
  call : Except RpcFailure Call

/-- The part of `handle_mcp` behind the body, for a principal that has a server. -/
def handleMcp (fromSlice : List UInt8 → Option Json.Value)
    (decodeBase64 : String → Option (List UInt8)) (headers : HeaderMap) (body : List UInt8) :
    Except HttpRejection Execution := do
  let request ← parseModernRequest fromSlice decodeBase64 headers body
  ensure (knownMethod request.method)
    (jsonErrorResponse 404 request.id (-32601) "method not found" "MCP_METHOD_NOT_FOUND")
  if isStreamingExecution request then
    .ok ⟨request.id, true, dispatchModernWithCancel request.method request.params⟩
  else .ok ⟨request.id, false, dispatchModern request.method request.params⟩

end Dispatch

section Agreement

/-- The header is there once, with this text. -/
def HeaderIs (headers : HeaderMap) (name text : String) : Prop :=
  ∃ value, getAll headers name = [value] ∧ toStr value = some text

/-- A text in a header: the text itself, or its UTF-8 bytes between the marks of an encoded word. -/
def DecodesTo (decodeBase64 : String → Option (List UInt8)) (value text : String) : Prop :=
  (∃ encoded, value = "=?base64?" ++ encoded ++ "?=" ∧
    decodeBase64 encoded = some (Utf8.bytes text)) ∨
  (value = text ∧ ¬ "=?base64?".toList <+: value.toList ∧ ¬ "?=".toList <:+ value.toList)

/-- What the body says, and that the headers say the same. -/
structure Mirrors (decodeBase64 : String → Option (List UInt8)) (headers : HeaderMap)
    (message parameters metadata : Members) (request : ModernRequest) : Prop where
  id : message.lookup "id" = some request.id
  method : message.lookup "method" = some (.string request.method)
  params : request.params = .object parameters
  body : (message.lookup "params").getD (.object []) = .object parameters
  hasMetadata : parameters.lookup "_meta" = some (.object metadata)
  version : ∃ version,
    metadata.lookup "io.modelcontextprotocol/protocolVersion" = some (.string version) ∧
      HeaderIs headers "mcp-protocol-version" version
  methodHeader : HeaderIs headers "mcp-method" request.method
  name : request.name = bodyName request.method parameters
  nameHeader : ∀ text, request.name = some text →
    ∃ value, HeaderIs headers "mcp-name" value ∧ DecodesTo decodeBase64 value text
  nameless : request.name = none → getAll headers "mcp-name" = []

theorem asObject_eq_some {value : Json.Value} {members : Members} :
    asObject value = some members ↔ value = .object members := by
  cases value <;> simp [asObject]

theorem getStr_eq_some {members : Members} {name value : String} :
    getStr members name = some value ↔ members.lookup name = some (.string value) := by
  rw [getStr, Option.bind_eq_some_iff]
  constructor
  · rintro ⟨found, hfound, hvalue⟩
    cases found <;> simp_all [asStr]
  · exact fun h => ⟨_, h, rfl⟩

theorem getObject_eq_some {members inner : Members} {name : String} :
    getObject members name = some inner ↔ members.lookup name = some (.object inner) := by
  rw [getObject, Option.bind_eq_some_iff]
  constructor
  · rintro ⟨found, hfound, hvalue⟩
    rw [hfound, asObject_eq_some.mp hvalue]
  · exact fun h => ⟨_, h, rfl⟩

theorem requiredHeader_eq_ok {headers : HeaderMap} {name text : String} {id : Json.Value} :
    requiredHeader headers name id = .ok text ↔ HeaderIs headers name text := by
  unfold requiredHeader singleHeader HeaderIs
  cases getAll headers name with
  | nil => simp
  | cons first others =>
    simp only [bind_eq_ok, mapError_eq_ok, orError_eq_ok, ensure_eq_ok, exists_const,
      Except.ok.injEq, List.isEmpty_iff, List.cons.injEq]
    constructor
    · rintro ⟨_, ⟨text, htext, hothers, rfl⟩, heq⟩
      cases heq
      exact ⟨first, ⟨rfl, hothers⟩, htext⟩
    · rintro ⟨_, ⟨rfl, hothers⟩, htext⟩
      exact ⟨_, ⟨text, htext, hothers, rfl⟩, rfl⟩

/-- The prefix and the suffix are taken off one after the other, so they do not overlap. -/
theorem strip_eq_some {value encoded : List Char} :
    ((value.dropPrefix? "=?base64?".toList).bind fun value => value.dropSuffix? "?=".toList) =
        some encoded ↔ value = "=?base64?".toList ++ encoded ++ "?=".toList := by
  rw [Option.bind_eq_some_iff]
  simp only [List.dropPrefix?_eq_some_iff, List.dropSuffix?_eq_some_iff, beq_iff_eq]
  constructor
  · rintro ⟨_, ⟨_, rfl, rfl⟩, _, rfl, rfl⟩
    rw [List.append_assoc]
  · rintro rfl
    exact ⟨_, ⟨_, List.append_assoc _ _ _, rfl⟩, _, rfl, rfl⟩

theorem marked_eq {value encoded : String} : value = "=?base64?" ++ encoded ++ "?=" ↔
    value.toList = "=?base64?".toList ++ encoded.toList ++ "?=".toList := by
  rw [← String.toList_inj, ResourceId.toList_append_three, List.append_assoc]

theorem decodeHeaderValue_eq_some {decodeBase64 : String → Option (List UInt8)}
    {value text : String} :
    decodeHeaderValue decodeBase64 value = some text ↔ DecodesTo decodeBase64 value text := by
  unfold decodeHeaderValue DecodesTo
  cases hstrip : (value.toList.dropPrefix? "=?base64?".toList).bind fun value =>
      value.dropSuffix? "?=".toList with
  | some encoded =>
    have hvalue := strip_eq_some.mp hstrip
    have hmarked : "=?base64?".toList <+: value.toList :=
      ⟨encoded ++ "?=".toList, by rw [hvalue, List.append_assoc]⟩
    simp only [Option.bind_eq_bind, Option.bind_eq_some_iff, Utf8.fromUTF8_eq_some,
      exists_eq_right, hmarked, not_true_eq_false, false_and, and_false, or_false]
    constructor
    · exact fun hdecoded => ⟨String.ofList encoded, marked_eq.mpr (by simpa using hvalue), hdecoded⟩
    · rintro ⟨other, hother, hdecoded⟩
      have hsame := marked_eq.mp hother
      rw [hvalue, List.append_cancel_right_eq, List.append_cancel_left_eq] at hsame
      rwa [hsame, String.ofList_toList]
  | none =>
    have hnever : ¬ ∃ encoded, value = "=?base64?" ++ encoded ++ "?=" ∧
        decodeBase64 encoded = some (Utf8.bytes text) := by
      rintro ⟨encoded, hvalue, _⟩
      rw [strip_eq_some.mpr (marked_eq.mp hvalue)] at hstrip
      cases hstrip
    simp only [hnever, false_or]
    by_cases hplain : "=?base64?".toList <+: value.toList ∨ "?=".toList <:+ value.toList
    · have hcheck : ("=?base64?".toList.isPrefixOf value.toList ||
          "?=".toList.isSuffixOf value.toList) = true := by
        rwa [Bool.or_eq_true, List.isPrefixOf_iff_prefix, List.isSuffixOf_iff_suffix]
      rw [hcheck, if_pos rfl]
      simp only [reduceCtorEq, false_iff]
      exact fun h => hplain.elim h.2.1 h.2.2
    · have hcheck : ("=?base64?".toList.isPrefixOf value.toList ||
          "?=".toList.isSuffixOf value.toList) = false := by
        rwa [← Bool.not_eq_true, Bool.or_eq_true, List.isPrefixOf_iff_prefix,
          List.isSuffixOf_iff_suffix]
      rw [not_or] at hplain
      rw [hcheck, if_neg Bool.false_ne_true, Option.some.injEq]
      exact ⟨fun heq => ⟨heq, hplain⟩, fun h => h.1⟩

theorem validateRequestMeta_eq_ok {headers : HeaderMap} {params : Members} {id : Json.Value}
    (h : validateRequestMeta headers params id = .ok ()) :
    ∃ metadata, params.lookup "_meta" = some (.object metadata) ∧
      ∃ version,
        metadata.lookup "io.modelcontextprotocol/protocolVersion" = some (.string version) ∧
          HeaderIs headers "mcp-protocol-version" version := by
  simp only [validateRequestMeta, bind_eq_ok, orError_eq_ok, ensure_eq_ok, exists_const,
    beq_iff_eq] at h
  obtain ⟨header, hheader, metadata, hmetadata, version, hversion, rfl, _⟩ := h
  exact ⟨metadata, getObject_eq_some.mp hmetadata, header, getStr_eq_some.mp hversion,
    requiredHeader_eq_ok.mp hheader⟩

theorem validateMethodHeaders_eq_ok {decodeBase64 : String → Option (List UInt8)}
    {headers : HeaderMap} {method : String} {params : Members} {id : Json.Value}
    (h : validateMethodHeaders decodeBase64 headers method params id = .ok ()) :
    HeaderIs headers "mcp-method" method ∧
      (∀ text, bodyName method params = some text →
        ∃ value, HeaderIs headers "mcp-name" value ∧ DecodesTo decodeBase64 value text) ∧
      (bodyName method params = none → getAll headers "mcp-name" = []) := by
  simp only [validateMethodHeaders, bind_eq_ok, ensure_eq_ok, exists_const, beq_iff_eq] at h
  obtain ⟨header, hheader, rfl, hname⟩ := h
  refine ⟨requiredHeader_eq_ok.mp hheader, ?_⟩
  cases hbody : bodyName header params with
  | none =>
    rw [hbody] at hname
    simp only [ensure_eq_ok, List.isEmpty_iff] at hname
    exact ⟨fun _ hsome => (Option.some_ne_none _ hsome.symm).elim, fun _ => hname⟩
  | some expected =>
    rw [hbody] at hname
    simp only [bind_eq_ok, orError_eq_ok, ensure_eq_ok, beq_iff_eq] at hname
    obtain ⟨value, hvalue, decoded, hdecoded, rfl⟩ := hname
    refine ⟨?_, fun hnone => (Option.some_ne_none _ hnone).elim⟩
    rintro text ⟨⟩
    exact ⟨value, requiredHeader_eq_ok.mp hvalue, decodeHeaderValue_eq_some.mp hdecoded⟩

/-- Of a request that is accepted, what is kept is the body's, and the headers mirror it. -/
theorem parseModernRequest_mirrors {fromSlice : List UInt8 → Option Json.Value}
    {decodeBase64 : String → Option (List UInt8)} {headers : HeaderMap} {body : List UInt8}
    {request : ModernRequest}
    (h : parseModernRequest fromSlice decodeBase64 headers body = .ok request) :
    ∃ message parameters metadata, fromSlice body = some (.object message) ∧
      Mirrors decodeBase64 headers message parameters metadata request := by
  simp only [parseModernRequest, bind_eq_ok, orError_eq_ok, ensure_eq_ok, exists_const,
    Except.ok.injEq] at h
  obtain ⟨_, hmessage, message, hobject, id, hid, _, method, hmethod, parameters, hparameters,
    _, hmeta, _, hheaders, rfl⟩ := h
  obtain rfl := asObject_eq_some.mp hobject
  have hbody := asObject_eq_some.mp hparameters
  obtain ⟨metadata, hmetadata, hversion⟩ := validateRequestMeta_eq_ok hmeta
  obtain ⟨hmethodHeader, hname, hnameless⟩ := validateMethodHeaders_eq_ok hheaders
  exact ⟨message, parameters, metadata, hmessage,
    { id := hid
      method := getStr_eq_some.mp hmethod
      params := hbody
      body := hbody
      hasMetadata := hmetadata
      version := hversion
      methodHeader := hmethodHeader
      name := rfl
      nameHeader := hname
      nameless := hnameless }⟩

end Agreement

section Effect

theorem lookup_withoutMeta (params : Members) {name : String} (hname : name ≠ "_meta") :
    (withoutMeta params).lookup name = params.lookup name := by
  induction params with
  | nil => rfl
  | cons member rest ih =>
    obtain ⟨key, value⟩ := member
    rw [withoutMeta, List.filter_cons]
    by_cases hmeta : key = "_meta"
    · subst hmeta
      rw [if_neg (by simp), List.lookup_cons, beq_false_of_ne hname]
      exact ih
    · rw [if_pos (by simpa using hmeta), List.lookup_cons, List.lookup_cons]
      cases name == key
      · exact ih
      · rfl

theorem withoutMeta_withoutMeta (params : Members) :
    withoutMeta (withoutMeta params) = withoutMeta params := by
  rw [withoutMeta, withoutMeta, List.filter_filter]
  simp only [Bool.and_self]

theorem dispatchModernWithCancel_eq (method : String) (params : Json.Value) :
    dispatchModernWithCancel method params = dispatchModern method params := by
  unfold dispatchModernWithCancel
  cases hparams : asObject params with
  | none => simp [dispatchModern, hparams, orError]
  | some parameters =>
    obtain rfl := asObject_eq_some.mp hparams
    by_cases hmethod : method = "tools/call"
    · subst hmethod
      simp [dispatchModern, asObject, orError]
    · simp [dispatchModern, asObject, orError, withoutMeta_withoutMeta, hmethod]

theorem getStr_withoutMeta (params : Members) {name : String} (hname : name ≠ "_meta") :
    getStr (withoutMeta params) name = getStr params name := by
  rw [getStr, getStr, lookup_withoutMeta params hname]

theorem withoutCursor_eq_ok {params : Members} {call result : Call}
    (h : withoutCursor params call = .ok result) : result = call := by
  unfold withoutCursor at h
  split at h <;> cases h <;> rfl

/-- The arm that runs is the one of the method, and it reads the name that the headers were checked
against. -/
theorem dispatchModern_eq_ok {method : String} {parameters : Members} {call : Call}
    (h : dispatchModern method (.object parameters) = .ok call) :
    call.method = method ∧ call.name = bodyName method parameters := by
  simp only [dispatchModern, asObject, orError, bind_eq_ok, Except.ok.injEq, exists_eq_left'] at h
  split at h
  · cases h
    exact ⟨rfl, rfl⟩
  · cases h
    exact ⟨rfl, rfl⟩
  · obtain rfl := withoutCursor_eq_ok h
    exact ⟨rfl, rfl⟩
  · simp only [parseToolCall, bind_eq_ok, orError_eq_ok, Except.ok.injEq] at h
    obtain ⟨name, hname, rfl⟩ := h
    rw [getStr_withoutMeta _ (by decide)] at hname
    exact ⟨rfl, hname.symm⟩
  · obtain rfl := withoutCursor_eq_ok h
    exact ⟨rfl, rfl⟩
  · simp only [parseResourceRead, bind_eq_ok, orError_eq_ok, Except.ok.injEq] at h
    obtain ⟨uri, huri, rfl⟩ := h
    rw [getStr_withoutMeta _ (by decide)] at huri
    exact ⟨rfl, huri.symm⟩
  · cases h

/-- Headers and body cannot disagree: for a request that is accepted, the headers mirror the body, and
the body's method, name and parameters are what decides whether the answer is streamed and what is
run. -/
theorem parseModernRequest_agrees {fromSlice : List UInt8 → Option Json.Value}
    {decodeBase64 : String → Option (List UInt8)} {headers : HeaderMap} {body : List UInt8}
    {request : ModernRequest}
    (h : parseModernRequest fromSlice decodeBase64 headers body = .ok request) :
    (∃ message parameters metadata, fromSlice body = some (.object message) ∧
      Mirrors decodeBase64 headers message parameters metadata request) ∧
    (handleMcp fromSlice decodeBase64 headers body =
      if knownMethod request.method then
        .ok ⟨request.id, isStreamingExecution request, dispatchModern request.method request.params⟩
      else .error (jsonErrorResponse 404 request.id (-32601) "method not found"
        "MCP_METHOD_NOT_FOUND")) ∧
    ∀ call, dispatchModern request.method request.params = .ok call →
      call.method = request.method ∧ call.name = request.name := by
  obtain ⟨message, parameters, metadata, hmessage, hmirrors⟩ := parseModernRequest_mirrors h
  refine ⟨⟨message, parameters, metadata, hmessage, hmirrors⟩, ?_, ?_⟩
  · rw [handleMcp, h]
    cases hknown : knownMethod request.method with
    | false => simp [hknown, ensure, bind, Except.bind]
    | true =>
      cases hstreaming : isStreamingExecution request <;>
        simp [hknown, ensure, hstreaming, dispatchModernWithCancel_eq, bind, Except.bind]
  · intro call hcall
    rw [hmirrors.params] at hcall
    rw [hmirrors.name]
    exact dispatchModern_eq_ok hcall

private def searchHeaders : HeaderMap := [
  ("mcp-protocol-version", Utf8.bytes "2026-07-28"),
  ("mcp-method", Utf8.bytes "tools/call"),
  ("mcp-name", Utf8.bytes "query_semantic_model")]

private def searchMessage : Members := [
  ("id", .number "7"),
  ("jsonrpc", .string "2.0"),
  ("method", .string "tools/call"),
  ("params", .object [
    ("_meta", .object [
      ("io.modelcontextprotocol/clientCapabilities", .object []),
      ("io.modelcontextprotocol/clientInfo", .object [
        ("name", .string "agent"),
        ("version", .string "1")]),
      ("io.modelcontextprotocol/protocolVersion", .string "2026-07-28")]),
    ("name", .string "query_semantic_model")])]

theorem parseModernRequest_agrees_search :
    ∃ message parameters metadata request,
      Json.read (Utf8.bytes (Json.Value.object searchMessage).text) = some (.object message) ∧
        Mirrors (fun _ => none) searchHeaders message parameters metadata request := by
  have hwell : (Json.Value.object searchMessage).WellFormed :=
    ⟨Json.isNumber_natural 7, trivial, trivial,
      ⟨⟨trivial, ⟨trivial, trivial, trivial⟩, trivial, trivial⟩, trivial, trivial⟩, trivial⟩
  have hread : Json.read (Utf8.bytes (Json.Value.object searchMessage).text) =
      some (.object searchMessage) := Json.read_text hwell (by decide)
  have hparse : parseModernRequest Json.read (fun _ => none) searchHeaders
      (Utf8.bytes (Json.Value.object searchMessage).text) = .ok
        { id := .number "7"
          method := "tools/call"
          params := (searchMessage.lookup "params").getD (.object [])
          name := some "query_semantic_model" } := by
    rw [parseModernRequest, hread]
    rfl
  obtain ⟨⟨message, parameters, metadata, hmessage, hmirrors⟩, _⟩ := parseModernRequest_agrees hparse
  exact ⟨message, parameters, metadata, _, hmessage, hmirrors⟩

end Effect

end Postgresem.Gateway
