import Postgresem.Foundation.Percent
import Postgresem.Gateway.Discovery

/-! The resources of the server: what it lists, and what it answers for the URI of each. -/
namespace Postgresem.Gateway
open Control

structure RpcFailure where
  rpcCode : Int
  publicCode : String
  message : String
  deriving DecidableEq, Repr

def RpcFailure.resource (publicCode message : String) : RpcFailure := ⟨-32002, publicCode, message⟩

def currentRevisionUri (project : String) : String :=
  "semantic://projects/" ++ Percent.encode project ++ "/revisions/current"

def modelUri (project model : String) : String :=
  "semantic://projects/" ++ Percent.encode project ++ "/models/" ++ Percent.encode model

def lsqSchemaUri : String := "semantic://schemas/lsq/v1"
def lsmSchemaUri : String := "semantic://schemas/lsm/v1"

structure Resource where
  uri : String
  name : String
  mimeType : String
  deriving DecidableEq, Repr

/-- The two documents that are compiled in. Both are JSON, so they parse. -/
structure EmbeddedSchemas where
  lsq : Json.Value
  lsm : Json.Value

structure RevisionDescription where
  schemaVersion : String
  project : String
  semanticRevision : String
  models : List String
  deriving DecidableEq, Repr

/-- What is written as the text of a resource. -/
inductive ResourceValue where
  | schema (document : Json.Value)
  | revision (description : RevisionDescription)
  | model (description : ModelDescription)

structure ResourceContents where
  uri : String
  mimeType : String
  value : ResourceValue

def schemaResource (uri name : String) : Resource := ⟨uri, name, "application/schema+json"⟩

section Server
variable (server : McpServer) (schemas : EmbeddedSchemas)
  (published : Except ToolFailure SemanticSnapshot)

def loadPublished : Except RpcFailure SemanticSnapshot :=
  published.mapError fun failure => .resource failure.code failure.message

def listResources : Except RpcFailure (List Resource) := do
  let snapshot ← loadPublished published
  let resources := [
    ⟨currentRevisionUri server.project, "Current semantic revision", "application/json"⟩,
    schemaResource lsqSchemaUri "Logical Semantic Query v1 schema"]
  let resources :=
    if server.mutationExecutor.isSome then
      resources ++ [schemaResource lsmSchemaUri "Logical Semantic Mutation v1 schema"]
    else resources
  .ok (resources ++ (queryableModels snapshot).map fun model =>
    ⟨modelUri server.project model.semanticName, "Semantic model " ++ model.semanticName,
      "application/json"⟩)

def describeRevision (snapshot : SemanticSnapshot) : RevisionDescription where
  schemaVersion := toolSchemaVersion
  project := server.project
  semanticRevision := snapshot.revisionHash
  models := (queryableModels snapshot).map Model.semanticName

/-- The answer for the first model with this URI. -/
def readModel (snapshot : SemanticSnapshot) (uri : String) :
    List Model → Except RpcFailure ResourceContents
  | [] => .error (.resource "MCP_RESOURCE_NOT_FOUND" "resource is not available")
  | model :: models =>
    if uri == modelUri server.project model.semanticName then
      .ok ⟨uri, "application/json",
        .model (describeModel snapshot.revisionHash model server.executor.maxResultBytes)⟩
    else readModel snapshot uri models

def readResource (uri : String) : Except RpcFailure ResourceContents :=
  if uri == lsqSchemaUri then .ok ⟨uri, "application/schema+json", .schema schemas.lsq⟩
  else if uri == lsmSchemaUri && server.mutationExecutor.isSome then
    .ok ⟨uri, "application/schema+json", .schema schemas.lsm⟩
  else do
    let snapshot ← loadPublished published
    if uri == currentRevisionUri server.project then
      .ok ⟨uri, "application/json", .revision (describeRevision server snapshot)⟩
    else readModel server snapshot uri (queryableModels snapshot)

end Server

section Uris

/-- What a URI stands for. -/
inductive ResourceId where
  | lsqSchema
  | lsmSchema
  | currentRevision (project : String)
  | model (project name : String)
  deriving DecidableEq, Repr

namespace ResourceId

def uri : ResourceId → String
  | .lsqSchema => lsqSchemaUri
  | .lsmSchema => lsmSchemaUri
  | .currentRevision project => currentRevisionUri project
  | .model project name => modelUri project name

/-- The parts of a URI between its slashes. -/
def segments : ResourceId → List (List Char)
  | .lsqSchema => ["semantic:".toList, [], "schemas".toList, "lsq".toList, "v1".toList]
  | .lsmSchema => ["semantic:".toList, [], "schemas".toList, "lsm".toList, "v1".toList]
  | .currentRevision project => ["semantic:".toList, [], "projects".toList,
      (Percent.encode project).toList, "revisions".toList, "current".toList]
  | .model project name => ["semantic:".toList, [], "projects".toList,
      (Percent.encode project).toList, "models".toList, (Percent.encode name).toList]

/-- The URI of something that belongs to a project. -/
theorem splitOn_project (project : String) (rest : List Char) :
    ("semantic://projects/".toList ++ ((Percent.encode project).toList ++ '/' :: rest)).splitOn '/' =
      "semantic:".toList :: [] :: "projects".toList :: (Percent.encode project).toList ::
        rest.splitOn '/' := by
  have hscheme : "semantic://projects/".toList =
      "semantic:".toList ++ '/' :: ([] ++ '/' :: ("projects".toList ++ ['/'])) := by decide
  have hproject := Percent.slash_notMem_encode project
  rw [hscheme, List.append_assoc, List.cons_append, List.append_assoc, List.cons_append,
    List.append_assoc, List.singleton_append,
    List.splitOn_append_cons_self_of_not_mem (by decide),
    List.splitOn_append_cons_self_of_not_mem (by decide),
    List.splitOn_append_cons_self_of_not_mem (by decide),
    List.splitOn_append_cons_self_of_not_mem hproject]

theorem toList_append_three (a b c : String) :
    (a ++ b ++ c).toList = a.toList ++ (b.toList ++ c.toList) := by
  rw [String.toList_append, String.toList_append, List.append_assoc]

theorem currentRevisionUri_split (project : String) :
    (currentRevisionUri project).toList.splitOn '/' = segments (.currentRevision project) := by
  have htail : "/revisions/current".toList = '/' :: "revisions/current".toList := by decide
  have hparts : "revisions/current".toList.splitOn '/' =
      ["revisions".toList, "current".toList] := by decide
  have huri : (currentRevisionUri project).toList = _ := toList_append_three _ _ _
  generalize "/revisions/current".toList = tail at htail huri
  subst htail
  rw [huri, splitOn_project, hparts, segments]

theorem modelUri_split (project name : String) :
    (modelUri project name).toList.splitOn '/' = segments (.model project name) := by
  have hmiddle : "/models/".toList = '/' :: ("models".toList ++ ['/']) := by decide
  have huri : (modelUri project name).toList = _ := String.toList_append
  have hfront := toList_append_three "semantic://projects/" (Percent.encode project) "/models/"
  generalize "/models/".toList = middle at hmiddle hfront
  subst hmiddle
  rw [huri, hfront, List.append_assoc, List.append_assoc, List.cons_append, List.append_assoc,
    List.singleton_append, splitOn_project, List.splitOn_append_cons_self_of_not_mem (by decide),
    List.splitOn_eq_singleton (Percent.slash_notMem_encode name), segments]

theorem uri_segments (id : ResourceId) : id.uri.toList.splitOn '/' = id.segments := by
  cases id with
  | lsqSchema => decide
  | lsmSchema => decide
  | currentRevision project => exact currentRevisionUri_split project
  | model project name => exact modelUri_split project name

theorem encode_of_toList {a b : String} (h : (Percent.encode a).toList = (Percent.encode b).toList) :
    a = b := Percent.encode_injective (String.toList_injective h)

/-- A URI stands for one thing. -/
theorem uri_injective : Function.Injective uri := by
  intro a b h
  have hsegments : a.segments = b.segments := by
    rw [← uri_segments a, ← uri_segments b, h]
  have hfamily : "schemas".toList ≠ "projects".toList := by decide
  have hlanguage : "lsq".toList ≠ "lsm".toList := by decide
  have hkind : "revisions".toList ≠ "models".toList := by decide
  cases a <;> cases b <;>
    simp only [segments, List.cons.injEq, and_true, true_and, hfamily, hfamily.symm, hlanguage,
      hlanguage.symm, hkind, hkind.symm, false_and, and_false] at hsegments
  · rfl
  · rfl
  · rw [encode_of_toList hsegments]
  · rw [encode_of_toList hsegments.1, encode_of_toList hsegments.2]

theorem uri_beq {a b : ResourceId} (h : a ≠ b) : (a.uri == b.uri) = false :=
  beq_eq_false_iff_ne.mpr (uri_injective.ne h)

end ResourceId
end Uris

section Reading
variable (server : McpServer) (schemas : EmbeddedSchemas) (snapshot : SemanticSnapshot)

/-- Each resource that is listed, with what it is listed for. -/
def listedResources : List (Resource × ResourceValue) :=
  [(⟨currentRevisionUri server.project, "Current semantic revision", "application/json"⟩,
      .revision (describeRevision server snapshot)),
    (schemaResource lsqSchemaUri "Logical Semantic Query v1 schema", .schema schemas.lsq)] ++
  (if server.mutationExecutor.isSome then
    [(schemaResource lsmSchemaUri "Logical Semantic Mutation v1 schema", .schema schemas.lsm)]
  else []) ++
  (queryableModels snapshot).map fun model =>
    (⟨modelUri server.project model.semanticName, "Semantic model " ++ model.semanticName,
      "application/json"⟩,
      .model (describeModel snapshot.revisionHash model server.executor.maxResultBytes))

theorem listResources_eq :
    listResources server (.ok snapshot) =
      .ok ((listedResources server schemas snapshot).map Prod.fst) := by
  unfold listResources listedResources loadPublished
  cases server.mutationExecutor.isSome <;> simp

variable {server snapshot}

/-- The first model with the URI of a model is that model, since the URI tells its name. -/
theorem readModel_eq {models : List Model} (hnames : (models.map Model.semanticName).Nodup)
    {model : Model} (hmodel : model ∈ models) :
    readModel server snapshot (modelUri server.project model.semanticName) models =
      .ok ⟨modelUri server.project model.semanticName, "application/json",
        .model (describeModel snapshot.revisionHash model server.executor.maxResultBytes)⟩ := by
  induction models with
  | nil => cases hmodel
  | cons first models ih =>
    rw [List.map_cons, List.nodup_cons] at hnames
    rw [readModel]
    obtain rfl | hrest := List.mem_cons.mp hmodel
    · rw [if_pos (beq_self_eq_true _)]
    · have hne : model.semanticName ≠ first.semanticName := fun heq =>
        hnames.1 (heq ▸ List.mem_map_of_mem hrest)
      have huri : (modelUri server.project model.semanticName ==
          modelUri server.project first.semanticName) = false :=
        ResourceId.uri_beq (a := .model _ _) (b := .model _ _) (by simp [hne])
      rw [huri, if_neg Bool.false_ne_true, ih hnames.2 hrest]

theorem queryableModels_nodup (h : (snapshot.models.map Model.semanticName).Nodup) :
    ((queryableModels snapshot).map Model.semanticName).Nodup :=
  h.sublist (List.filter_sublist.map Model.semanticName)

theorem readResource_listed (hnames : (snapshot.models.map Model.semanticName).Nodup)
    {entry : Resource × ResourceValue} (hentry : entry ∈ listedResources server schemas snapshot) :
    readResource server schemas (.ok snapshot) entry.1.uri =
      .ok ⟨entry.1.uri, entry.1.mimeType, entry.2⟩ := by
  have hother (a b : ResourceId) (h : a ≠ b) : (a.uri == b.uri) = false := ResourceId.uri_beq h
  unfold listedResources at hentry
  rw [List.mem_append, List.mem_append] at hentry
  obtain (hentry | hentry) | hentry := hentry
  · simp only [List.mem_cons, List.not_mem_nil, or_false] at hentry
    obtain rfl | rfl := hentry
    · have hlsq : (currentRevisionUri server.project == lsqSchemaUri) = false :=
        hother (.currentRevision server.project) .lsqSchema (by simp)
      have hlsm : (currentRevisionUri server.project == lsmSchemaUri) = false :=
        hother (.currentRevision server.project) .lsmSchema (by simp)
      simp only [readResource, hlsq, hlsm, Bool.false_and, Bool.false_eq_true, if_false,
        beq_self_eq_true, if_true]
      rfl
    · simp only [readResource, schemaResource, beq_self_eq_true, if_true]
  · by_cases hmutation : server.mutationExecutor.isSome = true
    · rw [if_pos hmutation, List.mem_singleton] at hentry
      subst hentry
      have hlsq : (lsmSchemaUri == lsqSchemaUri) = false := hother .lsmSchema .lsqSchema (by simp)
      simp only [readResource, schemaResource, hlsq, hmutation, beq_self_eq_true, Bool.and_true,
        Bool.false_eq_true, if_false, if_true]
    · rw [if_neg hmutation] at hentry
      cases hentry
  · obtain ⟨model, hmodel, rfl⟩ := List.mem_map.mp hentry
    have hlsq : (modelUri server.project model.semanticName == lsqSchemaUri) = false :=
      hother (.model server.project model.semanticName) .lsqSchema (by simp)
    have hlsm : (modelUri server.project model.semanticName == lsmSchemaUri) = false :=
      hother (.model server.project model.semanticName) .lsmSchema (by simp)
    have hcurrent : (modelUri server.project model.semanticName ==
        currentRevisionUri server.project) = false :=
      hother (.model server.project model.semanticName) (.currentRevision server.project) (by simp)
    simp only [readResource, hlsq, hlsm, hcurrent, Bool.false_and, Bool.false_eq_true, if_false]
    exact readModel_eq (queryableModels_nodup hnames) hmodel

end Reading

/-- The encoder tells all texts apart and leaves no slash, so no two URIs are equal, and what is read
at a URI that was listed is what it was listed for. -/
theorem resources_unambiguous (server : McpServer) (schemas : EmbeddedSchemas) :
    Function.Injective Percent.encode ∧ (∀ value, '/' ∉ (Percent.encode value).toList) ∧
      Function.Injective ResourceId.uri ∧
      ∀ snapshot : SemanticSnapshot, (snapshot.models.map Model.semanticName).Nodup →
        listResources server (.ok snapshot) =
            .ok ((listedResources server schemas snapshot).map Prod.fst) ∧
          ∀ entry ∈ listedResources server schemas snapshot,
            readResource server schemas (.ok snapshot) entry.1.uri =
              .ok ⟨entry.1.uri, entry.1.mimeType, entry.2⟩ :=
  ⟨Percent.encode_injective, Percent.slash_notMem_encode, ResourceId.uri_injective,
    fun snapshot hnames => ⟨listResources_eq server schemas snapshot,
      fun _ => readResource_listed schemas hnames⟩⟩

/-! A server without mutations, for the three models of which two may be queried. -/

def shopServer : McpServer where
  project := "shop/été"
  executor :=
    { databaseUrl := "postgres://db"
      databaseUrlVariable := "DATABASE_URL"
      databasePassword := none
      auditDatabaseUrl := "postgres://audit"
      auditDatabaseUrlVariable := "AUDIT_DATABASE_URL"
      auditDatabasePassword := none
      databaseRole := "postgresem"
      maxResultBytes := 1048576
      statementTimeout := 30000
      lockTimeout := 1000
      idleTransactionTimeout := 30000 }
  mutationExecutor := none
  executionContext := ⟨"mcp:stdio", "mcp-stdio", "mcp-stdio", by decide⟩

theorem resources_unambiguous_shop :
    (listResources shopServer (.ok publishedSnapshot)).toOption.map List.length = some 4 ∧
      readResource shopServer ⟨.null, .null⟩ (.ok publishedSnapshot) (modelUri "shop/été" "customers") =
        .ok ⟨modelUri "shop/été" "customers", "application/json",
          .model (describeModel publishedSnapshot.revisionHash (plainModel "customers" true) 1048576)⟩ := by
  obtain ⟨-, -, -, hsnapshots⟩ := resources_unambiguous shopServer ⟨.null, .null⟩
  obtain ⟨hlisted, hread⟩ := hsnapshots publishedSnapshot (by decide)
  rw [hlisted]
  refine ⟨rfl, hread (⟨modelUri "shop/été" "customers", "Semantic model customers",
    "application/json"⟩, _) ?_⟩
  unfold listedResources
  simp [queryableModels, publishedSnapshot, draftSnapshot, plainModel, shopServer]

end Postgresem.Gateway
