import PingoraMesh.Hub.Records

/-!
# What the hub answers

The responses of `crates/protocol`, in the order of the requests.
-/

namespace PingoraMesh

/-! ## Administrators -/

structure AdminSessionInfo where
  userId : Uuid
  username : String
  displayName : String
  expiresAt : DateTime
  deriving DecidableEq, Repr

structure ChangeAdminPasswordResponse where
  userId : Uuid
  username : String
  changed : Bool
  deriving DecidableEq, Repr

/-! ## Nodes -/

structure CreateNodeResponse where
  nodeId : Uuid
  bootstrapToken : String
  deriving DecidableEq, Repr

structure DeleteNodeResponse where
  nodeId : Uuid
  nodeCode : String
  deleted : Bool
  deriving DecidableEq, Repr

structure NodeOverview where
  nodeId : Uuid
  nodeCode : String
  name : String
  region : String
  idc : String
  labels : Value
  status : String
  activeConfigVersion : Option String
  lastSeenAt : Option DateTime
  deriving Repr

structure NodeSiteOverview where
  siteId : Uuid
  siteCode : String
  name : String
  domain : String
  status : String
  version : Nat
  bindingRole : String
  priority : Int
  deriving DecidableEq, Repr

structure NodeDetail where
  nodeId : Uuid
  nodeCode : String
  name : String
  region : String
  idc : String
  labels : Value
  status : String
  hostname : Option String
  publicIp : Option String
  privateIp : Option String
  pingoraVersion : Option String
  agentVersion : Option String
  activeConfigVersion : Option String
  lastSeenAt : Option DateTime
  runtimeSiteCount : Nat
  healthScore : Nat
  sites : List NodeSiteOverview
  deriving Repr

/-- `NodeRegisterResponse` and `NodeRefreshResponse`. -/
structure NodeTokensResponse where
  nodeId : Uuid
  accessToken : String
  refreshToken : String
  expiresAt : DateTime
  deriving DecidableEq, Repr

structure NodeHeartbeatResponse where
  serverTime : DateTime
  nextHeartbeatAfterSeconds : Nat
  deriving DecidableEq, Repr

/-! ## Operations -/

structure OperationTemplateOverview where
  templateId : Uuid
  name : String
  operationType : String
  commandTemplate : String
  allowedParams : List String
  timeoutSeconds : Nat
  runAsUser : String
  approvalRequired : Bool
  createdAt : DateTime
  deriving DecidableEq, Repr

structure DeleteOperationTemplateResponse where
  templateId : Uuid
  name : String
  deleted : Bool
  deriving DecidableEq, Repr

structure NodeOperationOverview where
  operationId : Uuid
  nodeId : Uuid
  templateId : Uuid
  templateName : String
  operationType : String
  inputParams : Value
  execStatus : String
  requestedBy : String
  approvedBy : Option String
  exitCode : Option Int
  stdoutLog : Option String
  stderrLog : Option String
  startedAt : Option DateTime
  finishedAt : Option DateTime
  createdAt : DateTime
  deriving Repr

structure PendingOperationResponse where
  operationId : Uuid
  nodeId : Uuid
  templateId : Uuid
  templateName : String
  operationType : String
  renderedCommand : String
  timeoutSeconds : Nat
  runAsUser : String
  createdAt : DateTime
  deriving DecidableEq, Repr

structure OperationResultResponse where
  operationId : Uuid
  nodeId : Uuid
  execStatus : String
  deriving DecidableEq, Repr

/-! ## Sites -/

structure CreateSiteResponse where
  siteId : Uuid
  siteCode : String
  version : Nat
  status : String
  deriving DecidableEq, Repr

structure SiteOverview where
  siteId : Uuid
  siteCode : String
  name : String
  domain : String
  protocol : String
  status : String
  version : Nat
  bindingCount : Nat
  primaryNodeId : Option Uuid
  primaryNodeCode : Option String
  primaryNodeName : Option String
  primaryNodeStatus : Option String
  deriving DecidableEq, Repr

structure SiteDetail where
  siteId : Uuid
  siteCode : String
  name : String
  domain : String
  listenPort : Nat
  protocol : String
  tlsEnabled : Bool
  status : String
  version : Nat
  config : Value
  bindings : List SiteBindingItem
  deriving Repr

structure UpdateSiteStatusResponse where
  siteId : Uuid
  siteCode : String
  status : String
  version : Nat
  deriving DecidableEq, Repr

structure DeleteSiteResponse where
  siteId : Uuid
  siteCode : String
  deleted : Bool
  deriving DecidableEq, Repr

structure CreateSiteBindingsResponse where
  siteId : Uuid
  bindingCount : Nat
  deriving DecidableEq, Repr

structure SwitchSitePrimaryResponse where
  siteId : Uuid
  previousPrimaryNodeId : Option Uuid
  currentPrimaryNodeId : Uuid
  nextStandbyNodeId : Option Uuid
  bindingCount : Nat
  releaseId : Uuid
  releaseVersion : String
  deriving DecidableEq, Repr

structure RenewSiteCertificateResponse where
  siteId : Uuid
  domain : String
  zoneId : Uuid
  orderId : Uuid
  certificateId : Option Uuid
  orderStatus : String
  deriving DecidableEq, Repr

/-! ## Releases -/

structure CreateReleaseResponse where
  releaseId : Uuid
  releaseVersion : String
  configHash : String
  targetNodeIds : List Uuid
  deriving DecidableEq, Repr

structure ReleaseStatusCounts where
  pending : Nat
  inProgress : Nat
  success : Nat
  failed : Nat
  deriving DecidableEq, Repr

structure ReleaseOverview where
  releaseId : Uuid
  scopeType : String
  scopeId : Option Uuid
  releaseType : String
  releaseVersion : String
  status : String
  reason : String
  counts : ReleaseStatusCounts
  createdAt : DateTime
  deriving DecidableEq, Repr

structure LatestReleaseResponse where
  releaseId : Uuid
  releaseVersion : String
  configHash : String
  downloadUrl : String
  deriving DecidableEq, Repr

/-- `ConfigPackageResponse`; the manifest and the certificates stay typed, the source sends them as JSON. -/
structure ConfigPackageResponse where
  releaseId : Uuid
  releaseVersion : String
  manifest : ReleaseManifest
  renderedConfig : Value
  certificates : List CertificateRef
  signature : String
  deriving Repr

structure ReleaseAckResponse where
  releaseId : Uuid
  nodeId : Uuid
  applyStatus : String
  deriving DecidableEq, Repr

/-! ## DNS and certificates -/

structure CreateDnsProviderResponse where
  providerId : Uuid
  name : String
  status : String
  deriving DecidableEq, Repr

structure DeleteDnsProviderResponse where
  providerId : Uuid
  name : String
  deleted : Bool
  deriving DecidableEq, Repr

structure DnsProviderOverview where
  providerId : Uuid
  name : String
  providerType : String
  apiEndpoint : Option String
  status : String
  createdAt : DateTime
  deriving DecidableEq, Repr

structure SyncDnsZonesResponse where
  providerId : Uuid
  zoneIds : List Uuid
  deriving DecidableEq, Repr

structure DnsZoneOverview where
  zoneId : Uuid
  providerId : Uuid
  zoneName : String
  status : String
  createdAt : DateTime
  deriving DecidableEq, Repr

structure UpdateDnsZoneStatusResponse where
  zoneId : Uuid
  zoneName : String
  status : String
  deriving DecidableEq, Repr

structure DeleteDnsZoneResponse where
  zoneId : Uuid
  zoneName : String
  deleted : Bool
  deriving DecidableEq, Repr

structure CreateCertificateOrderResponse where
  orderId : Uuid
  certificateId : Option Uuid
  orderStatus : String
  challengePayload : Value
  deriving Repr

structure CertificateOrderOverview where
  orderId : Uuid
  siteId : Option Uuid
  certificateId : Option Uuid
  zoneId : Uuid
  orderType : String
  acmeProvider : String
  challengeType : String
  orderStatus : String
  challengePayload : Value
  errorMessage : Option String
  certificateExpiresAt : Option DateTime
  nextRenewAt : Option DateTime
  createdAt : DateTime
  deriving Repr

end PingoraMesh
