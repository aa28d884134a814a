import Postgresem.Foundation.JsonDecoding
import Postgresem.Gateway.ModernRequest

/-! One line of the standard input: a JSON-RPC request, or a notification that is not answered. What it
asks for is decided by its method and its parameters. -/
namespace Postgresem.Gateway
open Json (Value fields knownFields leavingOut field fieldOr asString orNull)
open Control

section Params

structure InitializeParams where
  protocolVersion : String
  capabilities : Members
  clientName : String
  clientVersion : String

structure ToolCallParams where
  name : String
  arguments : Value

structure DescribeModelParams where
  schemaVersion : String
  model : String

structure QueryToolParams where
  schemaVersion : String
  lsq : Value

structure MutationToolParams where
  schemaVersion : String
  lsm : Value

structure ReconcileMutationParams where
  schemaVersion : String
  idempotencyKey : String

def decodeClientInfo (value : Value) : Option (String × String) := do
  let members ← knownFields ["name", "version"] value
  let name ← field asString members "name"
  let version ← field asString members "version"
  some (name, version)

def decodeInitialize (value : Value) : Option InitializeParams := do
  let members ← knownFields ["protocolVersion", "capabilities", "clientInfo"] value
  let protocolVersion ← field asString members "protocolVersion"
  let capabilities ← field asObject members "capabilities"
  let (clientName, clientVersion) ← field decodeClientInfo members "clientInfo"
  some { protocolVersion, capabilities, clientName, clientVersion }

/-- `EmptyParams`. -/
def decodeEmpty (value : Value) : Option Unit := (knownFields [] value).map fun _ => ()

/-- `PaginationParams`. -/
def decodePagination (value : Value) : Option (Option String) := do
  let members ← leavingOut 0 knownFields ["cursor"] value
  fieldOr none (orNull asString) members "cursor"

def decodeToolCall (value : Value) : Option ToolCallParams := do
  let members ← leavingOut 1 knownFields ["name", "arguments"] value
  let name ← field asString members "name"
  let arguments ← fieldOr (.object []) some members "arguments"
  some { name, arguments }

/-- `ResourceReadParams`. -/
def decodeResourceRead (value : Value) : Option String := do
  let members ← knownFields ["uri"] value
  field asString members "uri"

/-- A limit is a `usize`. -/
def asUsize : Value → Option Nat
  | .number text => Json.asU64 text
  | _ => none

def decodeListModels (value : Value) : Option ListModelsParams := do
  let members ← leavingOut 1 fields ["schema_version", "cursor", "limit"] value
  let schemaVersion ← field asString members "schema_version"
  let cursor ← fieldOr none (orNull asString) members "cursor"
  let limit ← fieldOr none (orNull asUsize) members "limit"
  some { schemaVersion, cursor, limit }

def decodeDescribeModel (value : Value) : Option DescribeModelParams := do
  let members ← fields ["schema_version", "model"] value
  let schemaVersion ← field asString members "schema_version"
  let model ← field asString members "model"
  some { schemaVersion, model }

def decodeQueryTool (value : Value) : Option QueryToolParams := do
  let members ← fields ["schema_version", "lsq"] value
  let schemaVersion ← field asString members "schema_version"
  let lsq ← field some members "lsq"
  some { schemaVersion, lsq }

def decodeMutationTool (value : Value) : Option MutationToolParams := do
  let members ← fields ["schema_version", "lsm"] value
  let schemaVersion ← field asString members "schema_version"
  let lsm ← field some members "lsm"
  some { schemaVersion, lsm }

def decodeReconcileMutation (value : Value) : Option ReconcileMutationParams := do
  let members ← fields ["schema_version", "idempotency_key"] value
  let schemaVersion ← field asString members "schema_version"
  let idempotencyKey ← field asString members "idempotency_key"
  some { schemaVersion, idempotencyKey }

end Params

section Tools

/-- What the tools do, each for the parameters that it is given. -/
structure Tools where
  listSemanticModels : ListModelsParams → Except ToolFailure Value
  describeSemanticModel : DescribeModelParams → Except ToolFailure Value
  validateSemanticQuery : QueryToolParams → Except ToolFailure Value
  querySemanticModel : QueryToolParams → Except ToolFailure Value
  explainSemanticQuery : QueryToolParams → Except ToolFailure Value
  validateSemanticMutation : MutationToolParams → Except ToolFailure Value
  mutateSemanticModel : MutationToolParams → Except ToolFailure Value
  reconcileSemanticMutation : ReconcileMutationParams → Except ToolFailure Value

def invalidToolArguments : RpcFailure :=
  ⟨-32602, "MCP_INVALID_TOOL_ARGUMENTS", "tool arguments do not match the declared schema"⟩

def toolNotFound : RpcFailure :=
  ⟨-32602, "MCP_TOOL_NOT_FOUND", "requested tool is not available"⟩

def mutationCapabilityDisabled : ToolFailure :=
  ⟨"MUTATION_CAPABILITY_DISABLED", "semantic mutation capability is not enabled"⟩

def textContent (data : Value) : Value :=
  .array [.object [("text", .string data.text), ("type", .string "text")]]

def toolSuccess (data : Value) : Value :=
  .object [("content", textContent data), ("isError", .boolean false), ("structuredContent", data)]

def toolFailureData (error : ToolFailure) : Value :=
  .object [("error", .object [("code", .string error.code), ("message", .string error.message)])]

def toolError (error : ToolFailure) : Value :=
  .object [("content", textContent (toolFailureData error)), ("isError", .boolean true),
    ("structuredContent", toolFailureData error)]

def toolAnswer : Except ToolFailure Value → Value
  | .ok data => toolSuccess data
  | .error error => toolError error

/-- A tool is run for the arguments that it reads. -/
def runTool {α : Type} (decode : Value → Option α) (run : α → Except ToolFailure Value)
    (arguments : Value) : Except RpcFailure Value := do
  let params ← orError (decode arguments) invalidToolArguments
  .ok (toolAnswer (run params))

def callTool (tools : Tools) (request : ToolCallParams) : Except RpcFailure Value :=
  match request.name with
  | "list_semantic_models" => runTool decodeListModels tools.listSemanticModels request.arguments
  | "describe_semantic_model" =>
    runTool decodeDescribeModel tools.describeSemanticModel request.arguments
  | "validate_semantic_query" =>
    runTool decodeQueryTool tools.validateSemanticQuery request.arguments
  | "query_semantic_model" => runTool decodeQueryTool tools.querySemanticModel request.arguments
  | "explain_semantic_query" => runTool decodeQueryTool tools.explainSemanticQuery request.arguments
  | "validate_semantic_mutation" =>
    runTool decodeMutationTool tools.validateSemanticMutation request.arguments
  | "mutate_semantic_model" => runTool decodeMutationTool tools.mutateSemanticModel request.arguments
  | "reconcile_semantic_mutation" =>
    runTool decodeReconcileMutation tools.reconcileSemanticMutation request.arguments
  | _ => .error toolNotFound

/-- The mutation is written again as a document, and the executor is given its bytes. -/
def mutateSemanticModel (execute : Option (List UInt8 → Except ToolFailure Value))
    (params : MutationToolParams) : Except ToolFailure Value := do
  validateToolVersion params.schemaVersion
  let input := bytesOf params.lsm.text
  let execute ← orError execute mutationCapabilityDisabled
  execute input

end Tools

section Dispatch

structure Server extends Tools where
  version : String
  toolDefinitions : List Value
  listResources : Except RpcFailure Value
  readResource : String → Except RpcFailure Value

def mcpProtocolVersion : String := "2024-11-05"

def parseParams {α : Type} (decode : Value → Option α) (params : Value) : Except RpcFailure α :=
  orError (decode params) invalidParams

def InitializeParams.validate (params : InitializeParams) : Except RpcFailure Unit :=
  ensure (!(isBlank params.clientName || isBlank params.clientVersion)) invalidParams

def rejectProtocolCursor (cursor : Option String) : Except RpcFailure Unit :=
  ensure cursor.isNone invalidParams

def initializeResult (version : String) : Value :=
  .object [
    ("capabilities", .object [
      ("resources", .object [("listChanged", .boolean false), ("subscribe", .boolean false)]),
      ("tools", .object [("listChanged", .boolean false)])]),
    ("protocolVersion", .string mcpProtocolVersion),
    ("serverInfo", .object [("name", .string "postgresem"), ("version", .string version)])]

def dispatch (server : Server) (method : String) (params : Value) : Except RpcFailure Value :=
  match method with
  | "initialize" => do
    let params ← parseParams decodeInitialize params
    params.validate
    .ok (initializeResult server.version)
  | "notifications/initialized" => do
    parseParams decodeEmpty params
    .ok (.object [])
  | "ping" => do
    parseParams decodeEmpty params
    .ok (.object [])
  | "tools/list" => do
    let cursor ← parseParams decodePagination params
    rejectProtocolCursor cursor
    .ok (.object [("tools", .array server.toolDefinitions)])
  | "tools/call" => do
    let request ← parseParams decodeToolCall params
    callTool server.toTools request
  | "resources/list" => do
    let cursor ← parseParams decodePagination params
    rejectProtocolCursor cursor
    server.listResources
  | "resources/read" => do
    let uri ← parseParams decodeResourceRead params
    server.readResource uri
  | _ => .error methodNotFound

end Dispatch

section Lines
variable (fromSlice : List UInt8 → Option Value)

/-- A request that can be dispatched. Without an id it is a notification. -/
structure Request where
  id : Option Value
  method : String
  params : Value

def parseFailure : Value := rpcError .null (-32700) "parse error" "MCP_PARSE_ERROR"

def invalidMessage (id : Value) : Value := rpcError id (-32600) "invalid request" "MCP_INVALID_REQUEST"

/-- The id that is answered to, if there is one. -/
def requestId (object : Members) : Except Value (Option Value) :=
  match object.lookup "id" with
  | none => .ok none
  | some id => if validRequestId id then .ok (some id) else .error (invalidMessage .null)

/-- The part of `handle_line` before the dispatch, with the answer to what is no request. -/
def readRequest (line : List UInt8) : Except Value Request := do
  let message ← orError (fromSlice line) parseFailure
  let object ← orError (asObject message) (invalidMessage .null)
  let id ← requestId object
  ensure (getStr object "jsonrpc" == some "2.0") (invalidMessage (id.getD .null))
  let method ← orError (getStr object "method") (invalidMessage (id.getD .null))
  .ok { id, method, params := (object.lookup "params").getD (.object []) }

def answer (id : Value) : Except RpcFailure Value → Value
  | .ok result => .object [("id", id), ("jsonrpc", .string "2.0"), ("result", result)]
  | .error error => rpcError id error.rpcCode error.message error.publicCode

/-- `handle_line`: a notification is dispatched as well, and its result is dropped. -/
def handleLine (server : Server) (line : List UInt8) : Option Value :=
  match readRequest fromSlice line with
  | .error response => some response
  | .ok request => request.id.map fun id => answer id (dispatch server request.method request.params)

end Lines

end Postgresem.Gateway
