/-
  The requests that read the artifact stores (`routers/decision_v2.py`,
  `routers/query_exec.py`).

  Both routes take the tenant from the verified token alone (`getAuth`).
  `/v2/data_decision` reads the store five times, selects artifacts and
  assembles the bundle (`dataDecisionV2`); `/query/execute` looks an artifact up
  by its id in the store's listing (`resolveArtifactPayload`).
-/
import RoboMeta.Bundle
import RoboMeta.JsonValue

namespace RoboMeta

/-! ## Principals -/

structure AuthContext where
  subject : String
  tenantId : String
  roles : List String

structure AuthError where
  code : String
  message : String

/-- Raised by `verify_token` is an `AuthError` or what no handler catches. -/
inductive AuthFailure where
  | auth (e : AuthError)
  | raised (exc : Exc)

structure EmbeddingProviderError where
  code : String
  message : String

/-- An `HTTPException`; only some details have a code. -/
structure HTTPException where
  statusCode : ℕ
  code : Option String
  message : String

/-- The server's answer to what no handler catches. -/
def internalServerError : HTTPException := ⟨500, none, "Internal Server Error"⟩

def AuthFailure.response : AuthFailure → HTTPException
  | auth e => ⟨401, some e.code, e.message⟩
  | raised _ => internalServerError

/-- What the routes are wired to.  `authConfig` is `verify_token` under the
    configuration, `clock` what the clock shows. -/
structure V2Deps (K : Type) where
  authConfig : Option (String → Except AuthFailure AuthContext)
  store : V2Store K
  embeddingModel : String
  embed : String → Except EmbeddingProviderError (List K)
  executionContext : Option Json
  clock : String
  defaultTenantId : String := "kwater"

section
variable {K : Type} (U : Unicode)

def getDeps (deps : Option (V2Deps K)) : Except HTTPException (V2Deps K) :=
  match deps with
  | some deps => .ok deps
  | none => .error ⟨503, some "V2_NOT_CONFIGURED", "/v2/data_decision 배선이 구성되지 않았습니다."⟩

/-- `_get_auth`, `authorization` being the header of that name. -/
def getAuth (deps : V2Deps K) (authorization : String) : Except HTTPException AuthContext :=
  match deps.authConfig with
  | none => .ok ⟨"internal-t2sql", deps.defaultTenantId, ["CONSUMER"]⟩
  | some verifyToken =>
    if ¬ "bearer ".toList <+: (U.lower authorization).toList then
      .error ⟨401, some "AUTH_MISSING", "Bearer token 필요"⟩
    else match verifyToken (String.ofList (authorization.toList.drop 7)) with
      | .ok auth => .ok auth
      | .error e => .error e.response

/-! ## `/query/execute` -/

/-- The record whose payload `_resolve_artifact_payload` returns. -/
def resolveRecord (store : V2Store K) (tenantId artifactId : String) : Option Record :=
  (store.listPublishedArtifacts tenantId).find? fun record => record.artifactId = artifactId

def resolveArtifactPayload (deps : Option (V2Deps K)) (authorization artifactId : String) :
    Except HTTPException Payload :=
  match deps with
  | none => .error ⟨503, none, "artifact_id 검증에 필요한 v2 배선이 구성되지 않았습니다."⟩
  | some deps => do
    let auth ← getAuth U deps authorization
    match resolveRecord deps.store auth.tenantId artifactId with
    | some record => return record.payload
    | none => throw ⟨404, none, "published Artifact 없음: " ++ artifactId⟩

/-! ## `/v2/data_decision` -/

variable [Field K] [LinearOrder K] (N : Numerics K)

/-- The arguments that the handler passes on, from its first four reads. -/
def selectionArgs (deps : V2Deps K) (auth : AuthContext) (query : String) (questionEmbedding : List K) :
    SelectionArgs K where
  tenantId := auth.tenantId
  roles := auth.roles
  now := deps.clock
  knownSnapshotIds := deps.store.knownSnapshotIds auth.tenantId
  question := query
  questionEmbedding := questionEmbedding
  embeddingModel := deps.embeddingModel
  artifactEmbeddings := deps.store.artifactEmbeddings auth.tenantId
  glossary := deps.store.glossary auth.tenantId

def defaultTopK : ℕ := 3

/-- The answer to an authenticated question. -/
def answer (deps : V2Deps K) (auth : AuthContext) (query : String) (questionEmbedding : List K) : Bundle K :=
  let args := selectionArgs deps auth query questionEmbedding
  let selection := selectArtifacts N args (deps.store.listPublishedArtifacts auth.tenantId) defaultTopK
  let snapshotIds := selection.selected.map fun s => s.record.snapshotId
  assembleBundle query selection (deps.store.snapshotPayloads auth.tenantId snapshotIds) args.glossary
    deps.executionContext [] [] []

def dataDecisionV2 (deps : Option (V2Deps K)) (authorization query : String) : Except HTTPException (Bundle K) := do
  let deps ← getDeps deps
  let auth ← getAuth U deps authorization
  match deps.embed query with
  | .error e => throw ⟨503, some e.code, e.message⟩
  | .ok questionEmbedding => return answer N deps auth query questionEmbedding

end

/-! ## The closed network -/

/-- A deployment without tokens and with an empty store. -/
def closedNetwork : V2Deps ℚ where
  authConfig := none
  store := InMemoryV2Store.reads ⟨[], [], [], {}⟩
  embeddingModel := "fixture"
  embed _ := .ok []
  executionContext := none
  clock := "2026-07-13T02:00:00Z"

def internalAuth : AuthContext := ⟨"internal-t2sql", "kwater", ["CONSUMER"]⟩

end RoboMeta
