import PingoraMesh.Hub.Accounts
import PingoraMesh.Hub.Certificates

/-!
# The requests of the hub

The overviews that `HubService` serves, all requests together in `Request`, and `World.serve`, which runs a request to
its end before the next one starts.
-/

namespace PingoraMesh

open Calls Fallible

/-- `summarize_release_counts`. -/
def summarizeReleaseCounts (ackStatus : HashMap Uuid NodeAckRecord) : ReleaseStatusCounts :=
  let acks := ackStatus.values.map (·.applyStatus)
  let inProgress (a : String) : Bool := a == "downloading" || a == "applying"
  { pending := acks.countP fun a => !(a == "success" || a == "failed" || inProgress a)
    inProgress := acks.countP inProgress
    success := acks.countP (· == "success")
    failed := acks.countP (· == "failed") }

/-- `site_binding_item`. -/
def siteBindingItem (nodes : List NodeRecord) (b : SiteBindingRecord) : SiteBindingItem :=
  let node := nodes.find? (·.identity.id == b.nodeId)
  { nodeId := b.nodeId
    bindingRole := b.bindingRole
    priority := b.priority
    nodeCode := node.map (·.identity.nodeCode)
    nodeName := node.map (·.identity.name)
    nodeStatus := node.map fun n => nodeStatusName n.identity.status }

/-- An item of `list_sites`. -/
def siteOverview (nodes : List NodeRecord) (site : SiteRecord) : SiteOverview :=
  let node := (primarySiteBinding site).bind fun b => nodes.find? (·.identity.id == b.nodeId)
  { siteId := site.id
    siteCode := site.siteCode
    name := site.name
    domain := site.domain
    protocol := protocolName site.protocol
    status := siteStatusName site.status
    version := site.version
    bindingCount := site.bindings.length
    primaryNodeId := node.map (·.identity.id)
    primaryNodeCode := node.map (·.identity.nodeCode)
    primaryNodeName := node.map (·.identity.name)
    primaryNodeStatus := node.map fun n => nodeStatusName n.identity.status }

/-- An item of `node_detail`. -/
def nodeSiteOverview (nodeId : Uuid) (site : SiteRecord) : Option NodeSiteOverview :=
  (site.bindings.find? (·.nodeId == nodeId)).map fun b =>
    { siteId := site.id
      siteCode := site.siteCode
      name := site.name
      domain := site.domain
      status := siteStatusName site.status
      version := site.version
      bindingRole := b.bindingRole
      priority := b.priority }

namespace HubService

/-! ## Overviews -/

/-- `list_nodes`. -/
def listNodes : HubM (List NodeOverview) := do
  let nodes ← repo .listNodes
  let views : List NodeOverview := nodes.map fun node =>
    { nodeId := node.identity.id
      nodeCode := node.identity.nodeCode
      name := node.identity.name
      region := node.identity.region
      idc := node.identity.idc
      labels := node.labels
      status := nodeStatusName node.identity.status
      activeConfigVersion := node.runtime.activeConfigVersion
      lastSeenAt := node.runtime.lastSeenAt }
  return views.insertionSort fun l r => l.nodeCode ≤ r.nodeCode

/-- `node_detail`. -/
def nodeDetail (nodeId : Uuid) : HubM NodeDetail := do
  let node ← okOr (← repo (.node nodeId)) (.notFound "node not found")
  let sites ← repo .listSites
  return {
    nodeId := node.identity.id
    nodeCode := node.identity.nodeCode
    name := node.identity.name
    region := node.identity.region
    idc := node.identity.idc
    labels := node.labels
    status := nodeStatusName node.identity.status
    hostname := node.hostname
    publicIp := node.publicIp
    privateIp := node.privateIp
    pingoraVersion := node.pingoraVersion
    agentVersion := node.agentVersion
    activeConfigVersion := node.runtime.activeConfigVersion
    lastSeenAt := node.runtime.lastSeenAt
    runtimeSiteCount := node.runtime.siteCount
    healthScore := node.runtime.healthScore
    sites := (sites.filterMap (nodeSiteOverview nodeId)).insertionSort fun l r =>
      (compare l.priority r.priority).then (compare l.siteCode r.siteCode) ≠ .gt }

/-- `list_sites`. -/
def listSites : HubM (List SiteOverview) := do
  let nodes ← repo .listNodes
  let sites ← repo .listSites
  return (sites.map (siteOverview nodes)).insertionSort fun l r => l.siteCode ≤ r.siteCode

/-- `site_detail`. -/
def siteDetail (siteId : Uuid) : HubM SiteDetail := do
  let nodes ← repo .listNodes
  let site ← okOr (← repo (.site siteId)) (.notFound "site not found")
  return {
    siteId := site.id
    siteCode := site.siteCode
    name := site.name
    domain := site.domain
    listenPort := site.listenPort
    protocol := protocolName site.protocol
    tlsEnabled := site.tlsEnabled
    status := siteStatusName site.status
    version := site.version
    config := site.config
    bindings := site.bindings.map (siteBindingItem nodes) }

/-- `list_releases`. -/
def listReleases : HubM (List ReleaseOverview) := do
  let releases ← repo .listReleases
  let views : List ReleaseOverview := releases.map fun r =>
    { releaseId := r.releaseId
      scopeType := r.scopeType
      scopeId := r.scopeId
      releaseType := r.releaseType
      releaseVersion := r.releaseVersion
      status := aggregateReleaseStatus r.ackStatus
      reason := r.reason
      counts := summarizeReleaseCounts r.ackStatus
      createdAt := r.createdAt }
  return views.insertionSort fun l r => r.createdAt ≤ l.createdAt

/-- `list_operation_templates`. -/
def listOperationTemplates : HubM (List OperationTemplateOverview) := do
  let templates ← repo .listOperationTemplates
  return (templates.map operationTemplateOverview).insertionSort fun l r => l.name ≤ r.name

/-- The loop of `list_node_operations`. -/
def operationOverviews : List NodeOperationRecord → HubM (List NodeOperationOverview)
  | [] => pure []
  | o :: os => do
    let template ← okOr (← repo (.operationTemplate o.templateId)) (.internal "operation template missing")
    let rest ← operationOverviews os
    return nodeOperationOverview o template :: rest

/-- `list_node_operations`. -/
def listNodeOperations (nodeId : Uuid) : HubM (List NodeOperationOverview) := do
  let _ ← okOr (← repo (.node nodeId)) (.notFound "node not found")
  let operations ← repo (.listNodeOperations nodeId)
  operationOverviews operations

/-- `list_dns_providers`. -/
def listDnsProviders : HubM (List DnsProviderOverview) := do
  let providers ← repo .listDnsProviders
  let views : List DnsProviderOverview := providers.map fun d =>
    { providerId := d.providerId
      name := d.name
      providerType := d.providerType
      apiEndpoint := d.apiEndpoint
      status := d.status
      createdAt := d.createdAt }
  return views.insertionSort fun l r => l.name ≤ r.name

/-- `list_dns_zones`. -/
def listDnsZones : HubM (List DnsZoneOverview) := do
  let zones ← repo .listDnsZones
  let views : List DnsZoneOverview := zones.map fun z =>
    { zoneId := z.zoneId
      providerId := z.providerId
      zoneName := z.zoneName
      status := z.status
      createdAt := z.createdAt }
  return views.insertionSort fun l r => l.zoneName ≤ r.zoneName

/-- `list_certificate_orders`. -/
def listCertificateOrders (renewBeforeDays : Int) : HubM (List CertificateOrderOverview) := do
  let orders ← repo .listCertificateOrders
  let views := orders.map fun o => certificateOrderOverview o renewBeforeDays
  return views.insertionSort fun l r => r.createdAt ≤ l.createdAt

end HubService

/-! ## All requests -/

/-- A hub instance: its name and its setting for renewals. -/
structure Hub where
  id : Nat
  certAutoRenewBeforeDays : Int
  deriving DecidableEq, Repr

/-- The requests of `HubService`. -/
inductive Request where
  | ensureAdminUser (username displayName rawPassword : String)
  | loginAdmin (request : AdminLoginRequest)
  | authorizeAdminSession (sessionToken : String)
  | changeAdminPassword (sessionToken : String) (request : ChangeAdminPasswordRequest)
  | logoutAdmin (sessionToken : String)
  | createNode (request : CreateNodeRequest)
  | listNodes
  | nodeDetail (nodeId : Uuid)
  | deleteNode (nodeId : Uuid)
  | createOperationTemplate (request : CreateOperationTemplateRequest)
  | updateOperationTemplate (templateId : Uuid) (request : CreateOperationTemplateRequest)
  | deleteOperationTemplate (templateId : Uuid)
  | listOperationTemplates
  | createNodeOperation (nodeId : Uuid) (request : CreateNodeOperationRequest) (requestedBy : String)
  | listNodeOperations (nodeId : Uuid)
  | registerNode (request : NodeRegisterRequest)
  | refreshNodeToken (request : NodeRefreshRequest)
  | authorizeNode (nodeId : Uuid) (accessToken : String)
  | claimNextNodeOperation (nodeId : Uuid)
  | reportNodeOperationResult (operationId : Uuid) (request : OperationResultRequest)
  | nodeHeartbeat (request : NodeHeartbeatRequest)
  | createSite (request : CreateSiteRequest)
  | updateSite (siteId : Uuid) (request : UpdateSiteRequest)
  | updateSiteStatus (siteId : Uuid) (enabled : Bool)
  | deleteSite (siteId : Uuid)
  | listSites
  | siteDetail (siteId : Uuid)
  | bindSiteNodes (siteId : Uuid) (bindings : List SiteBindingItem)
  | renewSiteCertificate (siteId : Uuid)
  | switchSitePrimary (siteId : Uuid) (request : SwitchSitePrimaryRequest)
  | createRelease (request : CreateReleaseRequest)
  | listReleases
  | latestReleaseForNode (nodeId : Uuid)
  | configPackageForNode (nodeId : Uuid) (version : String)
  | ackRelease (releaseId : Uuid) (request : ReleaseAckRequest)
  | createDnsProvider (request : CreateDnsProviderRequest)
  | updateDnsProvider (providerId : Uuid) (request : CreateDnsProviderRequest)
  | deleteDnsProvider (providerId : Uuid)
  | listDnsProviders
  | syncDnsZones (request : SyncDnsZonesRequest)
  | listDnsZones
  | updateDnsZoneStatus (zoneId : Uuid) (enabled : Bool)
  | deleteDnsZone (zoneId : Uuid)
  | createCertificateOrder (request : CreateCertificateOrderRequest)
  | listCertificateOrders
  | retryCertificateOrder (orderId : Uuid)
  | resetCertificateOrder (orderId : Uuid)

namespace HubService

/-- The program of a request on a hub instance, less its response. -/
def program (p : Platform) (hub : Hub) : Request → HubM Unit
  | .ensureAdminUser u d r => discard (ensureAdminUser u d r)
  | .loginAdmin r => discard (loginAdmin p r)
  | .authorizeAdminSession t => discard (authorizeAdminSession p t)
  | .changeAdminPassword t r => discard (changeAdminPassword p t r)
  | .logoutAdmin t => logoutAdmin p t
  | .createNode r => discard (createNode p r)
  | .listNodes => discard listNodes
  | .nodeDetail n => discard (nodeDetail n)
  | .deleteNode n => discard (deleteNode n)
  | .createOperationTemplate r => discard (createOperationTemplate p r)
  | .updateOperationTemplate i r => discard (updateOperationTemplate p i r)
  | .deleteOperationTemplate i => discard (deleteOperationTemplate i)
  | .listOperationTemplates => discard listOperationTemplates
  | .createNodeOperation n r b => discard (createNodeOperation n r b)
  | .listNodeOperations n => discard (listNodeOperations n)
  | .registerNode r => discard (registerNode p r)
  | .refreshNodeToken r => discard (refreshNodeToken r)
  | .authorizeNode n t => authorizeNode n t
  | .claimNextNodeOperation n => discard (claimNextNodeOperation n)
  | .reportNodeOperationResult o r => discard (reportNodeOperationResult p o r)
  | .nodeHeartbeat r => discard (nodeHeartbeat r)
  | .createSite r => discard (createSite r)
  | .updateSite s r => discard (updateSite s r)
  | .updateSiteStatus s e => discard (updateSiteStatus p hub.id s e)
  | .deleteSite s => discard (deleteSite p hub.id s)
  | .listSites => discard listSites
  | .siteDetail s => discard (siteDetail s)
  | .bindSiteNodes s b => discard (bindSiteNodes s b)
  | .renewSiteCertificate s => discard (renewSiteCertificate s)
  | .switchSitePrimary s r => discard (switchSitePrimary p hub.id s r)
  | .createRelease r => discard (createRelease p hub.id r)
  | .listReleases => discard listReleases
  | .latestReleaseForNode n => discard (latestReleaseForNode n)
  | .configPackageForNode n v => discard (configPackageForNode n v)
  | .ackRelease i r => discard (ackRelease i r)
  | .createDnsProvider r => discard (createDnsProvider r)
  | .updateDnsProvider i r => discard (updateDnsProvider i r)
  | .deleteDnsProvider i => discard (deleteDnsProvider i)
  | .listDnsProviders => discard listDnsProviders
  | .syncDnsZones r => discard (syncDnsZones r)
  | .listDnsZones => discard listDnsZones
  | .updateDnsZoneStatus z e => discard (updateDnsZoneStatus z e)
  | .deleteDnsZone z => discard (deleteDnsZone z)
  | .createCertificateOrder r => discard (createCertificateOrder r)
  | .listCertificateOrders => discard (listCertificateOrders hub.certAutoRenewBeforeDays)
  | .retryCertificateOrder o => discard (retryCertificateOrder hub.certAutoRenewBeforeDays o)
  | .resetCertificateOrder o => discard (resetCertificateOrder hub.certAutoRenewBeforeDays o)

end HubService

/-- The world after a request that nothing interrupts. -/
def World.serve (p : Platform) (hub : Hub) (w : World) (r : Request) : World :=
  (Fallible.run (hubHandler p) (HubService.program p hub r) w).2

/-- Requests one after another. -/
def World.serveAll (p : Platform) (hub : Hub) (w : World) (rs : List Request) : World := rs.foldl (World.serve p hub) w

theorem World.serveAll_concat (p : Platform) (hub : Hub) (w : World) (rs : List Request) (r : Request) :
    w.serveAll p hub (rs ++ [r]) = (w.serveAll p hub rs).serve p hub r := by
  simp [World.serveAll]

/-! ## Plain requests -/

/-- A node with a given code. -/
def Request.node (nodeCode : String) : Request :=
  .createNode { nodeCode := nodeCode, name := nodeCode, region := "eu", idc := "a", labels := .null }

/-- A site with a given domain and no upstreams. -/
def Request.site (domain : String) : Request :=
  .createSite {
    siteCode := none, name := domain, domain := domain, listenPort := 80, protocol := "http", tlsEnabled := false
    config := .object [] }

/-- Bind a site to the given nodes: the first is the primary. -/
def Request.bind (siteId primary : Uuid) (standbys : List Uuid) : Request :=
  let item (nodeId : Uuid) (role : String) (priority : Int) : SiteBindingItem :=
    { nodeId := nodeId, bindingRole := role, priority := priority, nodeCode := none, nodeName := none,
      nodeStatus := none }
  .bindSiteNodes siteId (item primary "primary" 100 :: standbys.map fun n => item n "standby" 200)

/-- A template request with a given name. -/
def templateRequest (name : String) : CreateOperationTemplateRequest where
  name := name
  operationType := "service_reload"
  commandTemplate := "systemctl reload pingora"
  allowedParams := []
  timeoutSeconds := 30
  runAsUser := "root"
  approvalRequired := false

/-- Publish a site. -/
def Request.publish (siteId : Uuid) : Request :=
  .createRelease { scopeType := "site", scopeId := siteId, releaseType := "publish", reason := "publish" }

end PingoraMesh
