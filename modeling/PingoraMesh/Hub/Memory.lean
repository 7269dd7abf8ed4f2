import PingoraMesh.Hub.Records

/-!
# The in-memory repository

`MemoryState` and the calls of `HubRepository` as `MemoryRepository` carries them out, each under one lock and so
atomic. The memory backend has no failover policies; `failoverPolicies` is the table of the PostgreSQL backend, which
`updateActiveFailoverPolicyTargets` and `nodeDeleteGuard` use there and which stays empty here.
-/

namespace PingoraMesh

/-- A row of `failover_policies`. -/
structure FailoverPolicy where
  policyId : Uuid
  scopeType : String
  scopeId : Uuid
  primaryNodeId : Uuid
  standbyNodeId : Uuid
  triggerMode : String
  failureThreshold : Int
  precheckPolicy : Value
  status : String
  createdAt : DateTime
  deriving Repr

/-- `MemoryState`, with the table of failover policies of the other backend. -/
structure MemoryState where
  nodes : HashMap Uuid NodeRecord
  nodeIdsByCode : HashMap String Uuid
  sites : HashMap Uuid SiteRecord
  siteIdsByCode : HashMap String Uuid
  releases : HashMap Uuid ReleaseRecord
  releaseIdsByVersion : HashMap String Uuid
  latestReleaseByNode : HashMap Uuid Uuid
  dnsProviders : HashMap Uuid DnsProviderRecord
  dnsProviderIdsByName : HashMap String Uuid
  dnsZones : HashMap Uuid DnsZoneRecord
  certificates : HashMap Uuid CertificateRecord
  siteCertificates : HashMap Uuid (List CertificateRef)
  certificateOrders : HashMap Uuid CertificateOrderRecord
  adminUsers : HashMap Uuid AdminUserRecord
  adminUserIdsByUsername : HashMap String Uuid
  adminSessions : HashMap String AdminSessionRecord
  operationTemplates : HashMap Uuid OperationTemplateRecord
  operationTemplateIdsByName : HashMap String Uuid
  nodeOperations : HashMap Uuid NodeOperationRecord
  failoverPolicies : HashMap Uuid FailoverPolicy

/-- `MemoryState::default`. -/
def MemoryState.empty : MemoryState :=
  ⟨∅, ∅, ∅, ∅, ∅, ∅, ∅, ∅, ∅, ∅, ∅, ∅, ∅, ∅, ∅, ∅, ∅, ∅, ∅, ∅⟩

/-- `aggregate_release_status`. -/
def aggregateReleaseStatus (ackStatus : HashMap Uuid NodeAckRecord) : String :=
  let acks := ackStatus.values.map (·.applyStatus)
  if acks.isEmpty then "pending"
  else if acks.any (· == "failed") then "failed"
  else if acks.all (· == "success") then "success"
  else if acks.any fun a => a == "downloading" || a == "applying" then "publishing"
  else "pending"

namespace MemoryState

/-! ## Nodes -/

/-- `save_node`. -/
def saveNode (node : NodeRecord) (s : MemoryState) : MemoryState :=
  { s with
    nodeIdsByCode := s.nodeIdsByCode.insert node.identity.nodeCode node.identity.id
    nodes := s.nodes.insert node.identity.id node }

/-- `node_delete_guard`. -/
def nodeDeleteGuard (nodeId : Uuid) (s : MemoryState) : NodeDeleteGuard :=
  { boundSiteCodes :=
      (((s.sites.values.filter fun site => site.bindings.any (·.nodeId == nodeId)).map (·.siteCode)).insertionSort
        (· ≤ ·)).dedup
    failoverPolicyCount :=
      (s.failoverPolicies.values.filter fun p => p.primaryNodeId == nodeId || p.standbyNodeId == nodeId).length }

/-- Take a node out of a release: `delete_node` on each release. -/
def dropTarget (nodeId : Uuid) (release : ReleaseRecord) : ReleaseRecord :=
  let ackStatus := release.ackStatus.erase nodeId
  { release with
    targetNodeIds := release.targetNodeIds.filter (· != nodeId)
    ackStatus := ackStatus
    status := aggregateReleaseStatus ackStatus }

/-- `delete_node`. -/
def deleteNode (nodeId : Uuid) (s : MemoryState) : MemoryState :=
  match s.nodes[nodeId]? with
  | none => s
  | some node =>
    { s with
      nodes := s.nodes.erase nodeId
      nodeIdsByCode := s.nodeIdsByCode.erase node.identity.nodeCode
      latestReleaseByNode := s.latestReleaseByNode.erase nodeId
      sites := s.sites.map fun _ site => { site with bindings := site.bindings.filter (·.nodeId != nodeId) }
      releases := s.releases.map fun _ release => dropTarget nodeId release }

/-- `record_heartbeat`. -/
def recordHeartbeat (hb : HeartbeatRecord) (s : MemoryState) : MemoryState :=
  { s with
    nodes := s.nodes.modify hb.nodeId fun node =>
      { node with
        identity :=
          { node.identity with status := if node.identity.status = .maintenance then .maintenance else .online }
        pingoraVersion := some hb.pingoraVersion
        agentVersion := some hb.agentVersion
        runtime :=
          { activeConfigVersion := hb.activeConfigVersion
            siteCount := hb.siteCount
            healthScore := hb.healthScore
            lastSeenAt := some hb.reportedAt } } }

/-! ## Sites -/

/-- `save_site`. -/
def saveSite (site : SiteRecord) (s : MemoryState) : MemoryState :=
  { s with
    siteIdsByCode := s.siteIdsByCode.insert site.siteCode site.id
    sites := s.sites.insert site.id site }

/-- `delete_site`. -/
def deleteSite (siteId : Uuid) (s : MemoryState) : MemoryState :=
  match s.sites[siteId]? with
  | none => s
  | some site =>
    { s with
      sites := s.sites.erase siteId
      siteIdsByCode := s.siteIdsByCode.erase site.siteCode
      siteCertificates := s.siteCertificates.erase siteId
      certificateOrders := s.certificateOrders.map fun _ order =>
        if order.siteId = some siteId then { order with siteId := none } else order }

/-- `update_active_failover_policy_targets` of the PostgreSQL backend; over the empty table it is the memory
backend's. -/
def updateActiveFailoverPolicyTargets (siteId primaryNodeId standbyNodeId : Uuid) (s : MemoryState) : MemoryState :=
  { s with
    failoverPolicies := s.failoverPolicies.map fun _ p =>
      if p.scopeType = "site" ∧ p.scopeId = siteId ∧ p.status = "active" then
        { p with primaryNodeId := primaryNodeId, standbyNodeId := standbyNodeId }
      else p }

/-! ## Releases -/

/-- `save_release`. -/
def saveRelease (release : ReleaseRecord) (s : MemoryState) : MemoryState :=
  { s with
    releaseIdsByVersion := s.releaseIdsByVersion.insert release.releaseVersion release.releaseId
    latestReleaseByNode :=
      release.targetNodeIds.foldl (fun m nodeId => m.insert nodeId release.releaseId) s.latestReleaseByNode
    releases := s.releases.insert release.releaseId release }

/-- `release_by_version`. -/
def releaseByVersion (version : String) (s : MemoryState) : Option ReleaseRecord :=
  s.releaseIdsByVersion[version]?.bind fun id => s.releases[id]?

/-- `update_release_ack`. -/
def updateReleaseAck (releaseId nodeId : Uuid) (ack : NodeAckRecord) (s : MemoryState) : MemoryState :=
  { s with
    releases := s.releases.modify releaseId fun release =>
      let ackStatus := release.ackStatus.insert nodeId ack
      { release with ackStatus := ackStatus, status := aggregateReleaseStatus ackStatus } }

/-! ## DNS providers and zones -/

/-- `save_dns_provider`. -/
def saveDnsProvider (provider : DnsProviderRecord) (s : MemoryState) : MemoryState :=
  { s with
    dnsProviderIdsByName := s.dnsProviderIdsByName.insert provider.name provider.providerId
    dnsProviders := s.dnsProviders.insert provider.providerId provider }

/-- `dns_provider_by_name`. -/
def dnsProviderByName (name : String) (s : MemoryState) : Option DnsProviderRecord :=
  s.dnsProviderIdsByName[name]?.bind fun id => s.dnsProviders[id]?

/-- `delete_dns_provider`. -/
def deleteDnsProvider (providerId : Uuid) (s : MemoryState) : MemoryState :=
  match s.dnsProviders[providerId]? with
  | none => s
  | some provider =>
    { s with
      dnsProviders := s.dnsProviders.erase providerId
      dnsProviderIdsByName := s.dnsProviderIdsByName.erase provider.name
      dnsZones := s.dnsZones.filter fun _ zone => zone.providerId != providerId }

/-- `save_dns_zone`. -/
def saveDnsZone (zone : DnsZoneRecord) (s : MemoryState) : MemoryState :=
  { s with dnsZones := s.dnsZones.insert zone.zoneId zone }

/-- `dns_zone_by_provider_name`. -/
def dnsZoneByProviderName (providerId : Uuid) (zoneName : String) (s : MemoryState) : Option DnsZoneRecord :=
  s.dnsZones.values.find? fun zone => zone.providerId == providerId && zone.zoneName == zoneName

/-- `delete_dns_zone`. -/
def deleteDnsZone (zoneId : Uuid) (s : MemoryState) : MemoryState :=
  { s with dnsZones := s.dnsZones.erase zoneId }

/-! ## Certificates -/

/-- `save_certificate`. -/
def saveCertificate (certificate : CertificateRecord) (s : MemoryState) : MemoryState :=
  { s with certificates := s.certificates.insert certificate.certificateId certificate }

/-- `save_certificate_order`. -/
def saveCertificateOrder (order : CertificateOrderRecord) (s : MemoryState) : MemoryState :=
  { s with certificateOrders := s.certificateOrders.insert order.orderId order }

/-! ## Administrators -/

/-- `save_admin_user`. -/
def saveAdminUser (user : AdminUserRecord) (s : MemoryState) : MemoryState :=
  { s with
    adminUserIdsByUsername := s.adminUserIdsByUsername.insert user.username user.userId
    adminUsers := s.adminUsers.insert user.userId user }

/-- `admin_user_by_username`. -/
def adminUserByUsername (username : String) (s : MemoryState) : Option AdminUserRecord :=
  s.adminUserIdsByUsername[username]?.bind fun id => s.adminUsers[id]?

/-- `touch_admin_user_login`. -/
def touchAdminUserLogin (userId : Uuid) (lastLoginAt : DateTime) (s : MemoryState) : MemoryState :=
  { s with adminUsers := s.adminUsers.modify userId fun user => { user with lastLoginAt := some lastLoginAt } }

/-- `save_admin_session`. -/
def saveAdminSession (session : AdminSessionRecord) (s : MemoryState) : MemoryState :=
  { s with adminSessions := s.adminSessions.insert session.sessionTokenHash session }

/-- `admin_session_by_token_hash`. -/
def adminSessionByTokenHash (hash : String) (s : MemoryState) : Option AdminSessionContext :=
  s.adminSessions[hash]?.bind fun session => s.adminUsers[session.userId]?.map fun user =>
    { userId := user.userId
      username := user.username
      displayName := user.displayName
      status := user.status
      expiresAt := session.expiresAt }

/-- `touch_admin_session`. -/
def touchAdminSession (hash : String) (lastSeenAt : DateTime) (s : MemoryState) : MemoryState :=
  { s with adminSessions := s.adminSessions.modify hash fun session => { session with lastSeenAt := lastSeenAt } }

/-- `delete_admin_session`. -/
def deleteAdminSession (hash : String) (s : MemoryState) : MemoryState :=
  { s with adminSessions := s.adminSessions.erase hash }

/-- `delete_admin_sessions_for_user`. -/
def deleteAdminSessionsForUser (userId : Uuid) (exclude : Option String) (s : MemoryState) : MemoryState :=
  { s with
    adminSessions := s.adminSessions.filter fun hash session => session.userId != userId || some hash == exclude }

/-! ## Operations -/

/-- `save_operation_template`. -/
def saveOperationTemplate (template : OperationTemplateRecord) (s : MemoryState) : MemoryState :=
  { s with
    operationTemplateIdsByName := s.operationTemplateIdsByName.insert template.name template.templateId
    operationTemplates := s.operationTemplates.insert template.templateId template }

/-- `operation_template_by_name`. -/
def operationTemplateByName (name : String) (s : MemoryState) : Option OperationTemplateRecord :=
  s.operationTemplateIdsByName[name]?.bind fun id => s.operationTemplates[id]?

/-- `delete_operation_template`. -/
def deleteOperationTemplate (templateId : Uuid) (s : MemoryState) : MemoryState :=
  match s.operationTemplates[templateId]? with
  | none => s
  | some template =>
    { s with
      operationTemplates := s.operationTemplates.erase templateId
      operationTemplateIdsByName := s.operationTemplateIdsByName.erase template.name
      nodeOperations := s.nodeOperations.filter fun _ operation => operation.templateId != templateId }

/-- `save_node_operation`, and `update_node_operation`, which is the same. -/
def saveNodeOperation (operation : NodeOperationRecord) (s : MemoryState) : MemoryState :=
  { s with nodeOperations := s.nodeOperations.insert operation.operationId operation }

/-- `list_node_operations`: the newest first. -/
def listNodeOperations (nodeId : Uuid) (s : MemoryState) : List NodeOperationRecord :=
  (s.nodeOperations.values.filter (·.nodeId == nodeId)).insertionSort fun l r => r.createdAt ≤ l.createdAt

/-- The oldest approved operation of a node. -/
def nextApproved (nodeId : Uuid) (s : MemoryState) : Option NodeOperationRecord :=
  minByKey (·.createdAt) (s.nodeOperations.values.filter fun o => o.nodeId == nodeId && o.execStatus == "approved")

/-- `claim_next_node_operation` at time `now`. -/
def claimNextNodeOperation (nodeId : Uuid) (now : DateTime) (s : MemoryState) :
    Option ClaimedNodeOperation × MemoryState :=
  match s.nextApproved nodeId with
  | none => (none, s)
  | some o =>
    let operation := { o with execStatus := "running", startedAt := some now }
    (s.operationTemplates[operation.templateId]?.map fun template => ⟨operation, template⟩,
      { s with nodeOperations := s.nodeOperations.insert o.operationId operation })

end MemoryState

end PingoraMesh
