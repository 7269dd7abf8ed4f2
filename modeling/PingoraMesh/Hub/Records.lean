import PingoraMesh.Domain

/-!
# The records of the hub's store

The record types of `apps/hub-api/src/store.rs` and `token_store.rs`, the requests of `crates/protocol` and the errors
of `error.rs`. Statuses and roles that the source keeps as text stay text.
-/

namespace PingoraMesh

/-! ## Records -/

structure NodeRecord where
  identity : NodeIdentity
  runtime : NodeRuntimeState
  labels : Value
  hostname : Option String
  publicIp : Option String
  privateIp : Option String
  bootstrapToken : Option String
  pingoraVersion : Option String
  agentVersion : Option String
  deriving Repr

/-- `HeartbeatRecord`, less the usage figures, which the memory store drops. -/
structure HeartbeatRecord where
  nodeId : Uuid
  pingoraVersion : String
  agentVersion : String
  activeConfigVersion : Option String
  siteCount : Nat
  healthScore : Nat
  reportedAt : DateTime
  deriving DecidableEq, Repr

structure SiteBindingRecord where
  nodeId : Uuid
  bindingRole : String
  priority : Int
  deriving DecidableEq, Repr

structure SiteRecord where
  id : Uuid
  siteCode : String
  name : String
  domain : String
  listenPort : Nat
  protocol : Protocol
  tlsEnabled : Bool
  status : SiteStatus
  version : Nat
  config : Value
  bindings : List SiteBindingRecord
  deriving Repr

structure NodeAckRecord where
  applyStatus : String
  currentVersion : Option String
  message : Option String
  ackedAt : Option DateTime
  deriving DecidableEq, Repr

structure ReleaseRecord where
  releaseId : Uuid
  scopeType : String
  scopeId : Option Uuid
  releaseType : String
  releaseVersion : String
  reason : String
  status : String
  bundle : CompiledConfigBundle
  targetNodeIds : List Uuid
  ackStatus : HashMap Uuid NodeAckRecord
  createdAt : DateTime

structure DnsProviderRecord where
  providerId : Uuid
  name : String
  providerType : String
  apiEndpoint : Option String
  credentials : Value
  status : String
  createdAt : DateTime
  deriving Repr

structure DnsZoneRecord where
  zoneId : Uuid
  providerId : Uuid
  zoneName : String
  externalZoneId : String
  status : String
  createdAt : DateTime
  deriving DecidableEq, Repr

structure CertificateRecord where
  certificateId : Uuid
  certCode : String
  commonName : String
  sans : List String
  fingerprintSha256 : String
  status : String
  expiresAt : Option DateTime
  createdAt : DateTime
  deriving DecidableEq, Repr

structure CertificateOrderRecord where
  orderId : Uuid
  siteId : Option Uuid
  certificateId : Option Uuid
  zoneId : Uuid
  orderType : String
  acmeProvider : String
  challengeType : String
  challengePayload : Value
  orderStatus : String
  errorMessage : Option String
  certificateExpiresAt : Option DateTime
  createdAt : DateTime
  deriving Repr

structure AdminUserRecord where
  userId : Uuid
  username : String
  displayName : String
  passwordHash : String
  status : String
  lastLoginAt : Option DateTime
  createdAt : DateTime
  deriving DecidableEq, Repr

structure AdminSessionRecord where
  sessionId : Uuid
  userId : Uuid
  sessionTokenHash : String
  expiresAt : DateTime
  createdAt : DateTime
  lastSeenAt : DateTime
  deriving DecidableEq, Repr

structure AdminSessionContext where
  userId : Uuid
  username : String
  displayName : String
  status : String
  expiresAt : DateTime
  deriving DecidableEq, Repr

structure OperationTemplateRecord where
  templateId : Uuid
  name : String
  operationType : String
  commandTemplate : String
  allowedParams : Value
  timeoutSeconds : Nat
  runAsUser : String
  approvalRequired : Bool
  createdAt : DateTime
  deriving Repr

structure NodeOperationRecord where
  operationId : Uuid
  nodeId : Uuid
  templateId : Uuid
  eventId : Option Uuid
  inputParams : Value
  execStatus : String
  requestedBy : String
  approvedBy : Option String
  exitCode : Option Int
  stdoutLog : Option String
  stderrLog : Option String
  startedAt : Option DateTime
  finishedAt : Option DateTime
  createdAt : DateTime
  deriving Repr

structure ClaimedNodeOperation where
  operation : NodeOperationRecord
  template : OperationTemplateRecord
  deriving Repr

structure NodeDeleteGuard where
  boundSiteCodes : List String
  failoverPolicyCount : Nat
  deriving DecidableEq, Repr

/-! ## Node tokens -/

structure TokenLease where
  nodeId : Uuid
  expiresAt : DateTime
  deriving DecidableEq, Repr

structure IssuedTokens where
  accessToken : String
  refreshToken : String
  expiresAt : DateTime
  deriving DecidableEq, Repr

/-! ## Errors -/

/-- The kinds of `AppError`: HTTP 400, 404, 409, 401 and 500. -/
inductive ErrorCode where
  | badRequest
  | notFound
  | conflict
  | unauthorized
  | internal
  deriving DecidableEq, Repr

/-- `AppError`. -/
structure AppError where
  code : ErrorCode
  message : String
  deriving DecidableEq, Repr

namespace AppError

/-- `AppError::bad_request`. -/
def badRequest (message : String) : AppError := ⟨.badRequest, message⟩

/-- `AppError::not_found`. -/
def notFound (message : String) : AppError := ⟨.notFound, message⟩

/-- `AppError::conflict`. -/
def conflict (message : String) : AppError := ⟨.conflict, message⟩

/-- `AppError::unauthorized`. -/
def unauthorized (message : String) : AppError := ⟨.unauthorized, message⟩

/-- `AppError::internal`. -/
def internal (message : String) : AppError := ⟨.internal, message⟩

end AppError

/-! ## Requests -/

structure AdminLoginRequest where
  username : String
  password : String
  deriving DecidableEq, Repr

structure ChangeAdminPasswordRequest where
  currentPassword : String
  newPassword : String
  deriving DecidableEq, Repr

structure CreateNodeRequest where
  nodeCode : String
  name : String
  region : String
  idc : String
  labels : Value
  deriving Repr

structure CreateSiteRequest where
  siteCode : Option String
  name : String
  domain : String
  listenPort : Nat
  protocol : String
  tlsEnabled : Bool
  config : Value
  deriving Repr

structure UpdateSiteRequest where
  name : String
  domain : String
  listenPort : Nat
  protocol : String
  tlsEnabled : Bool
  config : Value
  deriving Repr

structure SiteBindingItem where
  nodeId : Uuid
  bindingRole : String
  priority : Int
  nodeCode : Option String
  nodeName : Option String
  nodeStatus : Option String
  deriving DecidableEq, Repr

structure SwitchSitePrimaryRequest where
  targetNodeId : Option Uuid
  keepPreviousAsStandby : Option Bool
  reason : Option String
  deriving DecidableEq, Repr

structure CreateReleaseRequest where
  scopeType : String
  scopeId : Uuid
  releaseType : String
  reason : String
  deriving DecidableEq, Repr

structure CreateDnsProviderRequest where
  name : String
  providerType : String
  apiEndpoint : Option String
  credentials : Value
  deriving Repr

structure SyncDnsZonesRequest where
  providerId : Uuid
  zoneNames : List String
  deriving DecidableEq, Repr

structure CreateCertificateOrderRequest where
  siteId : Option Uuid
  domain : Option String
  sans : List String
  acmeProvider : String
  challengeType : String
  zoneId : Uuid
  deriving DecidableEq, Repr

structure CreateOperationTemplateRequest where
  name : String
  operationType : String
  commandTemplate : String
  allowedParams : List String
  timeoutSeconds : Nat
  runAsUser : String
  approvalRequired : Bool
  deriving DecidableEq, Repr

structure CreateNodeOperationRequest where
  templateId : Uuid
  inputParams : Value
  approvalTicket : Option String
  deriving Repr

structure OperationResultRequest where
  nodeId : Uuid
  execStatus : String
  exitCode : Int
  stdout : String
  stderr : String
  finishedAt : DateTime
  deriving DecidableEq, Repr

structure NodeRegisterRequest where
  nodeCode : String
  bootstrapToken : String
  hostname : String
  publicIp : Option String
  privateIp : Option String
  agentVersion : String
  deriving DecidableEq, Repr

structure NodeRefreshRequest where
  nodeId : Uuid
  refreshToken : String
  deriving DecidableEq, Repr

/-- `NodeHeartbeatRequest`, less the usage figures. -/
structure NodeHeartbeatRequest where
  nodeId : Uuid
  pingoraVersion : String
  agentVersion : String
  activeConfigVersion : Option String
  siteCount : Nat
  healthScore : Nat
  deriving DecidableEq, Repr

structure ReleaseAckRequest where
  nodeId : Uuid
  applyStatus : String
  currentVersion : String
  message : Option String
  deriving DecidableEq, Repr

end PingoraMesh
