import PingoraMesh.Failover.Policy
import PingoraMesh.Hub.Service
import PingoraMesh.Lib.Pool

/-!
# The failover worker

The worker shares the tables of the hub (here in the form that the hub's calls see them) and has two of its own, the
failover events and the DNS records it has written. A cycle is a program: every query outside of a transaction is a
call. The transaction of `execute_site_failover` is one call; when it fails the tables are as before, but what the DNS
service has been asked to do stays done (`Mesh.rollback`).

`MeshRequest` puts the requests of the hub and the cycles of the worker over one state, `Mesh`. No program writes a
failover policy from scratch: that is done by an operator, within the constraints of the table.
-/

namespace PingoraMesh

open Calls

/-! ## State -/

/-- A row of `failover_events`. -/
structure FailoverEvent where
  policyId : Uuid
  siteId : Uuid
  sourceNodeId : Uuid
  targetNodeId : Uuid
  triggerReason : String
  eventStatus : String
  startedAt : DateTime
  finishedAt : Option DateTime
  deriving DecidableEq, Repr

/-- A row of `dns_records`. -/
structure DnsRecordRow where
  recordId : Uuid
  zoneId : Uuid
  recordType : String
  host : String
  value : String
  ttl : Int
  status : String
  updatedAt : DateTime
  deriving DecidableEq, Repr

/-- The tables, and the DNS service. -/
structure Mesh where
  world : World
  failoverEvents : HashMap Uuid FailoverEvent
  dnsRecords : HashMap Uuid DnsRecordRow
  remote : RemoteDns

/-- Empty tables before a DNS service. -/
def Mesh.init (remote : RemoteDns) : Mesh := ⟨.init, ∅, ∅, remote⟩

/-- The tables of the hub after a write. -/
def Mesh.onStore (f : MemoryState → MemoryState) (m : Mesh) : Mesh :=
  { m with world := { m.world with store := f m.world.store } }

/-! ## Transactions -/

/-- A computation inside of a transaction. -/
abbrev TxM := Act Mesh String

/-- The tables are as before; random identifiers, the clock and the DNS service are not. -/
def Mesh.rollback (before after : Mesh) : Mesh :=
  { before with
    world := { before.world with nextUuid := after.world.nextUuid, tick := after.world.tick }
    remote := after.remote }

namespace TxM

/-- A query of the hub's tables. -/
def store {α : Type} (f : MemoryState → α) : TxM α := Act.read fun m => f m.world.store

/-- A write to the hub's tables. -/
def update (f : MemoryState → MemoryState) : TxM Unit := Act.write (Mesh.onStore f)

/-- Requests to the DNS service; an error is reported as `context`. -/
def remote {α : Type} (context : String) (x : RemoteM α) : TxM α :=
  Act.zoom (·.remote) (fun r m => { m with remote := r }) (fun _ => context) x

/-- `Uuid::new_v4`. -/
def newUuid : TxM Uuid := Act.step fun m =>
  (m.world.nextUuid, { m with world := { m.world with nextUuid := m.world.nextUuid + 1 } })

/-- `Utc::now`. -/
def utcNow (p : Platform) : TxM DateTime := Act.step fun m =>
  (p.clock m.world.tick, { m with world := { m.world with tick := m.world.tick + 1 } })

end TxM

/-! ## Queries -/

/-- A policy joined with its nodes. -/
def policySnapshot (s : MemoryState) (f : FailoverPolicy) : Option PolicySnapshot := do
  let primary ← s.nodes[f.primaryNodeId]?
  let standby ← s.nodes[f.standbyNodeId]?
  return {
    policyId := f.policyId
    scopeType := f.scopeType
    scopeId := f.scopeId
    primaryNodeId := f.primaryNodeId
    standbyNodeId := f.standbyNodeId
    triggerMode := f.triggerMode
    failureThreshold := f.failureThreshold.toNat
    precheckPolicy := f.precheckPolicy
    primaryNodeCode := primary.identity.nodeCode
    standbyNodeCode := standby.identity.nodeCode
    primaryStatus := nodeStatusName primary.identity.status
    standbyStatus := nodeStatusName standby.identity.status
    standbyPublicIp := standby.publicIp
    primaryLastSeenAt := primary.runtime.lastSeenAt
    primaryActiveConfigVersion := primary.runtime.activeConfigVersion
    standbyActiveConfigVersion := standby.runtime.activeConfigVersion }

/-- `load_active_policies`: the active policies whose nodes exist, the oldest first. -/
def loadActivePolicies (s : MemoryState) : List PolicySnapshot :=
  ((s.failoverPolicies.values.filter (·.status == "active")).insertionSort fun l r =>
    l.createdAt ≤ r.createdAt).filterMap (policySnapshot s)

/-- The first query of `load_site_snapshot`. -/
def loadSiteRow (siteId : Uuid) (s : MemoryState) : Option SiteSnapshot :=
  s.sites[siteId]?.map fun site =>
    { siteId := site.id
      siteCode := site.siteCode
      name := site.name
      domain := site.domain
      listenPort := min site.listenPort 65535
      protocol := site.protocol
      tlsEnabled := site.tlsEnabled
      status := site.status
      config := site.config
      bindings := [] }

/-- A binding joined with its node. -/
def bindingSnapshot (s : MemoryState) (b : SiteBindingRecord) : Option SiteBindingSnapshot :=
  s.nodes[b.nodeId]?.map fun node =>
    { nodeId := b.nodeId
      nodeCode := node.identity.nodeCode
      nodeStatus := nodeStatusName node.identity.status
      bindingRole := b.bindingRole
      priority := b.priority }

/-- `load_site_bindings`. -/
def loadSiteBindings (siteId : Uuid) (s : MemoryState) : List SiteBindingSnapshot :=
  match s.sites[siteId]? with
  | none => []
  | some site => (site.bindings.filterMap (bindingSnapshot s)).insertionSort fun l r => bindingOrd l r ≠ .gt

/-- The order of `load_dns_zone_snapshots`: the longest name first. -/
def zoneOrd (l r : DnsZoneSnapshot) : Ordering :=
  (compare r.zoneName.length l.zoneName.length).then (compare l.zoneName r.zoneName)

/-- `load_dns_zone_snapshots`. -/
def loadDnsZoneSnapshots (s : MemoryState) : List DnsZoneSnapshot :=
  let rows : List DnsZoneSnapshot := (s.dnsZones.values.filter (·.status == "active")).filterMap fun z => do
    let provider ← s.dnsProviders[z.providerId]?
    if provider.status ≠ "active" then none
    return {
      zoneId := z.zoneId
      providerId := z.providerId
      providerType := provider.providerType
      apiEndpoint := provider.apiEndpoint
      credentials := provider.credentials
      zoneName := z.zoneName
      externalZoneId := z.externalZoneId
      status := z.status }
  rows.insertionSort fun l r => zoneOrd l r ≠ .gt

/-- `has_open_failover_event`. -/
def hasOpenFailoverEvent (policyId : Uuid) (m : Mesh) : Bool :=
  m.failoverEvents.values.any fun e =>
    e.policyId == policyId && e.finishedAt.isNone &&
      (e.eventStatus == "detected" || e.eventStatus == "prechecking" || e.eventStatus == "switching")

/-! ## DNS -/

/-- `load_dns_record_snapshot`: the active row of the plan that was written last. -/
def loadDnsRecordSnapshot (plan : DnsFailoverPlan) (m : Mesh) : Option DnsRecordRow :=
  minBy (fun l r => compare r.updatedAt l.updatedAt) (m.dnsRecords.values.filter fun row =>
    row.zoneId == plan.zone.zoneId && row.recordType == plan.change.recordType && row.host == plan.change.host &&
      row.status == "active")

/-- `provider_config_from_dns_zone`. -/
def providerConfigFromDnsZone (zone : DnsZoneSnapshot) : ProviderConfig :=
  { providerType := zone.providerType, apiEndpoint := zone.apiEndpoint, credentials := zone.credentials }

/-- `i32::try_from(ttl).unwrap_or(i32::MAX)`. -/
def ttlColumn (ttl : Nat) : Int := min ttl 2147483647

/-- `upsert_dns_record_snapshot`. -/
def upsertDnsRecordSnapshot (plan : DnsFailoverPlan) (existing : Option DnsRecordRow) (now : DateTime) : TxM Uuid :=
  match existing with
  | some row => do
    Act.write fun m => { m with
      dnsRecords := m.dnsRecords.modify row.recordId fun r =>
        { r with value := plan.change.value, ttl := ttlColumn plan.change.ttl, updatedAt := now } }
    return row.recordId
  | none => do
    let recordId ← TxM.newUuid
    Act.write fun m => { m with
      dnsRecords := m.dnsRecords.insert recordId {
        recordId := recordId
        zoneId := plan.zone.zoneId
        recordType := plan.change.recordType
        host := plan.change.host
        value := plan.change.value
        ttl := ttlColumn plan.change.ttl
        status := "active"
        updatedAt := now } }
    return recordId

/-- The error context of a change. -/
def changeContext (verb : String) (change : DnsRecordChange) : String :=
  "failed to " ++ verb ++ " dns record " ++ change.recordType ++ " " ++ change.host ++ " to " ++ change.value

/-- The choice of `apply_dns_failover` between the two requests to the provider. -/
def changeRecord (net : Nat → Delivery) (provider : DnsProvider) (change : DnsRecordChange)
    (existing : Option DnsRecordRow) : TxM Unit :=
  Act.choose existing.isSome (TxM.remote (changeContext "update" change) (provider.updateRecord net change))
    (TxM.remote (changeContext "create" change) (provider.createRecord net change))

/-- `apply_dns_failover`, less the change log, which nothing reads. -/
def applyDnsFailover (net : Nat → Delivery) (plan : DnsFailoverPlan) (now : DateTime) : TxM Unit := do
  let existing ← Act.read (loadDnsRecordSnapshot plan)
  let provider ← Act.attempt ((buildProvider (providerConfigFromDnsZone plan.zone)).mapError fun _ =>
    "failed to build dns provider " ++ plan.zone.providerType)
  changeRecord net provider plan.change existing
  let _ ← upsertDnsRecordSnapshot plan existing now

/-- The change of DNS that a failover plans, if it does. -/
def applyPlan (net : Nat → Delivery) (plan : Option DnsFailoverPlan) (now : DateTime) : TxM Unit :=
  Act.forSome plan fun plan => applyDnsFailover net plan now

/-! ## The switch -/

/-- The rows of `site_node_bindings`. -/
def SiteBindingSnapshot.toRecord (b : SiteBindingSnapshot) : SiteBindingRecord :=
  { nodeId := b.nodeId, bindingRole := b.bindingRole, priority := b.priority }

/-- `save_site_bindings`; the rows refer to the site and to their nodes. -/
def saveSiteBindings (siteId : Uuid) (bindings : List SiteBindingSnapshot) : TxM Unit := do
  let s ← TxM.store id
  Act.ensure (s.sites.contains siteId && bindings.all fun b => s.nodes.contains b.nodeId)
    "insert or update on table \"site_node_bindings\" violates foreign key constraint"
  TxM.update fun s => { s with
    sites := s.sites.modify siteId fun site => { site with bindings := bindings.map (·.toRecord) } }

/-- `advance_failover_policy`. -/
def advanceFailoverPolicy (policy : PolicySnapshot) (switched : List SiteBindingSnapshot) : TxM Unit :=
  Act.forSome (selectNextPolicyStandby switched policy.standbyNodeId) fun next => TxM.update fun s => { s with
    failoverPolicies := s.failoverPolicies.modify policy.policyId fun f =>
      { f with primaryNodeId := policy.standbyNodeId, standbyNodeId := next } }

/-- The specification that a failover compiles. -/
def SiteSnapshot.toSpec (lower : String → String) (site : SiteSnapshot) : SiteSpec :=
  let upstreams := parseUpstreams site.config
  { id := site.siteId
    siteCode := site.siteCode
    name := site.name
    domain := site.domain
    listenPort := site.listenPort
    protocol := site.protocol
    tlsEnabled := site.tlsEnabled
    status := site.status
    upstreams := upstreams
    routes := parseRoutes site.config upstreams
    cacheRules := parseCacheRules lower site.config }

/-- `now.timestamp_millis() as u64`. -/
def failoverSerial (now : DateTime) : Nat := (DateTime.timestampMillis now % 2 ^ 64).toNat

/-- The version of a failover release. -/
def failoverVersion (now : DateTime) : String := buildReleaseVersion "failover" now (failoverSerial now)

/-- The rows of `config_releases` and `node_release_status` that a failover inserts. -/
def failoverRelease (policy : PolicySnapshot) (site : SiteSnapshot) (bundle : CompiledConfigBundle)
    (targetNodeIds : List Uuid) (now : DateTime) : ReleaseRecord :=
  { releaseId := bundle.manifest.releaseId
    scopeType := "site"
    scopeId := some site.siteId
    releaseType := "failover"
    releaseVersion := bundle.manifest.releaseVersion
    reason := "automatic failover " ++ policy.primaryNodeCode ++ " -> " ++ policy.standbyNodeCode ++ " for site " ++
      site.siteCode
    status := "pending"
    bundle := bundle
    targetNodeIds := targetNodeIds
    ackStatus := targetNodeIds.foldl (fun acks nodeId => acks.insert nodeId
      { applyStatus := "pending", currentVersion := none, message := some "queued by failover-worker"
        ackedAt := none }) ∅
    createdAt := now }

/-! ## Operations after the switch -/

structure PostSwitchOperationSpec where
  nodeId : Uuid
  templateId : Option Uuid
  templateName : Option String
  inputParams : Value
  deriving Repr

/-- `parse_post_switch_operation`. -/
def parsePostSwitchOperation (value : Value) (policy : PolicySnapshot) : Option PostSwitchOperationSpec := do
  let object ← value.asObject
  let templateId := ((object.lookup "template_id").bind Value.asStr).bind Uuid.parseStr
  let templateName := configText object "template_name"
  if templateId.isNone && templateName.isNone then none
  else return {
    nodeId :=
      if ((object.lookup "target").bind Value.asStr).getD "standby" ∈ ["primary", "source", "old_primary"] then
        policy.primaryNodeId
      else policy.standbyNodeId
    templateId := templateId
    templateName := templateName
    inputParams := match object.lookup "input_params" with
      | some (.object map) => .object map
      | _ => .object [] }

/-- `load_operation_template`. -/
def loadOperationTemplate (spec : PostSwitchOperationSpec) (s : MemoryState) : Option OperationTemplateRecord :=
  match spec.templateId, spec.templateName with
  | some templateId, _ => s.operationTemplates[templateId]?
  | none, some name => s.operationTemplates.values.find? (·.name == name)
  | none, none => none

/-- One turn of the loop of `enqueue_post_switch_operations`: a template that is missing or that needs an approval is
passed over. -/
def enqueuePostSwitchOperation (policy : PolicySnapshot) (eventId : Uuid) (now : DateTime) (item : Value) : TxM Unit :=
  Act.forSome (parsePostSwitchOperation item policy) fun spec => do
    let template ← TxM.store fun s => (loadOperationTemplate spec s).filter fun t => !t.approvalRequired
    Act.forSome template fun template => do
      let operationId ← TxM.newUuid
      TxM.update fun s => s.saveNodeOperation {
        operationId := operationId
        nodeId := spec.nodeId
        templateId := template.templateId
        eventId := some eventId
        inputParams := spec.inputParams
        execStatus := "approved"
        requestedBy := "system:failover-worker"
        approvedBy := some "system:failover-worker"
        exitCode := none
        stdoutLog := none
        stderrLog := none
        startedAt := none
        finishedAt := none
        createdAt := now }

/-- `enqueue_post_switch_operations`. -/
def enqueuePostSwitchOperations (policy : PolicySnapshot) (eventId : Uuid) (now : DateTime) : TxM Unit :=
  (((policy.precheckPolicy.get "post_switch_operations").bind Value.asArray).getD []).forM
    (enqueuePostSwitchOperation policy eventId now)

variable (p : Platform) (net : Nat → Delivery)

/-- The part of `execute_site_failover` that makes and stores the release. -/
def storeFailoverRelease (policy : PolicySnapshot) (site : SiteSnapshot) (switched : List SiteBindingSnapshot)
    (now : DateTime) : TxM Unit := do
  let certificates ← TxM.store fun s => (s.siteCertificates[site.siteId]?).getD []
  Act.ensure (!switched.isEmpty)
    ("no eligible target nodes available for site " ++ site.siteCode ++ " after failover switch")
  let targets : List ReleaseTarget := switched.map fun b =>
    { nodeId := b.nodeId, siteIds := [site.siteId], preheated := b.bindingRole == "standby" }
  let releaseId ← TxM.newUuid
  let createdAt ← TxM.utcNow p
  let bundle ← Act.attempt
    (compileSiteBundle (site.toSpec p.toLowercase) certificates targets (failoverVersion now) releaseId createdAt)
  TxM.update fun s => s.saveRelease (failoverRelease policy site bundle (switched.map (·.nodeId)) now)

/-- The body of `execute_site_failover`, less the audit log, which nothing reads. -/
def siteFailover (policy : PolicySnapshot) (site : SiteSnapshot) (eventId : Uuid) (now : DateTime) : TxM Unit := do
  let zones ← TxM.store loadDnsZoneSnapshots
  let plan ← Act.attempt (buildDnsFailoverPlan site policy zones)
  let switched := buildSwitchedBindings site.bindings policy.primaryNodeId policy.standbyNodeId
  saveSiteBindings site.siteId switched
  advanceFailoverPolicy policy switched
  storeFailoverRelease p policy site switched now
  TxM.update fun s => { s with
    sites := s.sites.modify site.siteId fun record => { record with status := .published } }
  applyPlan net plan now
  enqueuePostSwitchOperations policy eventId now

/-- `execute_site_failover`. -/
def executeSiteFailover (policy : PolicySnapshot) (site : SiteSnapshot) (eventId : Uuid) (now : DateTime) : TxM Unit :=
  Act.atomically Mesh.rollback (siteFailover p net policy site eventId now)

/-! ## The cycle -/

/-- The calls of the hub and of the failover worker, and the statement with which an operator writes a policy. -/
inductive MeshCall where
  | hub (c : HubCall)
  | savePolicy (policy : FailoverPolicy)
  | loadActivePolicies
  | hasOpenFailoverEvent (policyId : Uuid)
  | loadSiteRow (siteId : Uuid)
  | loadSiteBindings (siteId : Uuid)
  | createFailoverEvent (policy : PolicySnapshot) (now : DateTime) (reason : String)
  | executeSiteFailover (policy : PolicySnapshot) (site : SiteSnapshot) (eventId : Uuid) (now : DateTime)
  | finishFailoverEvent (eventId : Uuid) (status : String) (now : DateTime)

/-- The answer to each call. -/
@[reducible] def MeshCall.Ans : MeshCall → Type
  | .hub c => c.Ans
  | .savePolicy _ => Unit
  | .loadActivePolicies => List PolicySnapshot
  | .hasOpenFailoverEvent _ => Bool
  | .loadSiteRow _ => Option SiteSnapshot
  | .loadSiteBindings _ => List SiteBindingSnapshot
  | .createFailoverEvent _ _ _ => Uuid
  | .executeSiteFailover _ _ _ _ => Except String Unit
  | .finishFailoverEvent _ _ _ => Unit

/-- The calls of a worker: its own, and the clock. -/
def MeshCall.OfWorker : MeshCall → Prop
  | .hub c => c = .utcNow
  | .savePolicy _ => False
  | _ => True

/-- The calls as an interface. -/
@[reducible] def meshSig : Sig := ⟨MeshCall, MeshCall.Ans⟩

/-- `create_failover_event`. -/
def createFailoverEvent (policy : PolicySnapshot) (now : DateTime) (reason : String) (m : Mesh) : Uuid × Mesh :=
  (m.world.nextUuid, { m with
    world := { m.world with nextUuid := m.world.nextUuid + 1 }
    failoverEvents := m.failoverEvents.insert m.world.nextUuid {
      policyId := policy.policyId
      siteId := policy.scopeId
      sourceNodeId := policy.primaryNodeId
      targetNodeId := policy.standbyNodeId
      triggerReason := reason
      eventStatus := "switching"
      startedAt := now
      finishedAt := none } })

/-- Write a row of `failover_policies`. Both nodes must exist and differ. -/
def savePolicy (policy : FailoverPolicy) (s : MemoryState) : MemoryState :=
  if s.nodes.contains policy.primaryNodeId && s.nodes.contains policy.standbyNodeId &&
      policy.primaryNodeId != policy.standbyNodeId then
    { s with failoverPolicies := s.failoverPolicies.insert policy.policyId policy }
  else s

/-- What each call does. -/
def meshHandler : Handler meshSig Mesh := fun c m =>
  match c with
  | .hub c => ((hubHandler p c m.world).1, { m with world := (hubHandler p c m.world).2 })
  | .savePolicy policy => ((), m.onStore (savePolicy policy))
  | .loadActivePolicies => (loadActivePolicies m.world.store, m)
  | .hasOpenFailoverEvent policyId => (hasOpenFailoverEvent policyId m, m)
  | .loadSiteRow siteId => (loadSiteRow siteId m.world.store, m)
  | .loadSiteBindings siteId => (loadSiteBindings siteId m.world.store, m)
  | .createFailoverEvent policy now reason => createFailoverEvent policy now reason m
  | .executeSiteFailover policy site eventId now => executeSiteFailover p net policy site eventId now m
  | .finishFailoverEvent eventId status now =>
    ((), { m with failoverEvents := m.failoverEvents.modify eventId fun e =>
      { e with eventStatus := status, finishedAt := some now } })

/-- A program of the worker that may fail. -/
abbrev FailoverM := Fallible meshSig String

/-- A call of the worker. -/
abbrev query (c : MeshCall) : FailoverM c.Ans := @Fallible.call meshSig String c

namespace FailoverWorker

/-- `load_site_snapshot`. -/
def loadSiteSnapshot (siteId : Uuid) : FailoverM SiteSnapshot := do
  let row ← query (.loadSiteRow siteId)
  let site ← Fallible.okOr row ("site " ++ Uuid.hyphenated siteId ++ " not found")
  let bindings ← query (.loadSiteBindings siteId)
  return { site with bindings := bindings }

/-- The last part of `trigger_policy_failover`, once the event is created. -/
def runFailover (policy : PolicySnapshot) (site : SiteSnapshot) (now : DateTime) (eventId : Uuid) :
    FailoverM Bool := do
  match ← query (.executeSiteFailover policy site eventId now) with
  | .ok _ =>
    query (.finishFailoverEvent eventId "switched" now)
    return true
  | .error e =>
    query (.finishFailoverEvent eventId "failed" now)
    throw e

/-- `trigger_policy_failover`. -/
def triggerPolicyFailover (policy : PolicySnapshot) (now : DateTime) (reason : String) : FailoverM Bool := do
  let isOpen ← query (.hasOpenFailoverEvent policy.policyId)
  if isOpen then return false
  else
    let site ← loadSiteSnapshot policy.scopeId
    if currentPrimaryNodeId site.bindings = some policy.standbyNodeId then return false
    else
      let eventId ← query (.createFailoverEvent policy now reason)
      runFailover policy site now eventId

/-- `FailoverRunSummary`. -/
structure RunSummary where
  scanned : Nat
  eligible : Nat
  switched : Nat
  skipped : Nat
  failed : Nat
  deriving DecidableEq, Repr

/-- The loop of `process_failover_policies`. -/
def policyLoop (now : DateTime) (expectedHeartbeatSeconds : Nat) :
    List PolicySnapshot → RunSummary → Prog meshSig RunSummary
  | [], summary => .ret summary
  | policy :: policies, summary =>
    match evaluatePolicy policy now expectedHeartbeatSeconds with
    | none => policyLoop now expectedHeartbeatSeconds policies { summary with skipped := summary.skipped + 1 }
    | some reason => do
      let result ← ExceptT.run (triggerPolicyFailover policy now reason)
      policyLoop now expectedHeartbeatSeconds policies { summary with
        eligible := summary.eligible + 1
        switched := summary.switched + (if result matches .ok true then 1 else 0)
        skipped := summary.skipped + (if result matches .ok false then 1 else 0)
        failed := summary.failed + (if result matches .error _ then 1 else 0) }

/-- `process_failover_policies`. -/
def processFailoverPolicies (now : DateTime) (expectedHeartbeatSeconds : Nat) : Prog meshSig RunSummary :=
  .call .loadActivePolicies fun (policies : List PolicySnapshot) =>
    policyLoop now expectedHeartbeatSeconds policies
      { scanned := policies.length, eligible := 0, switched := 0, skipped := 0, failed := 0 }

/-- A turn of the loop of `main`. -/
def cycle (expectedHeartbeatSeconds : Nat) : Prog meshSig RunSummary :=
  .call (.hub .utcNow) fun (now : DateTime) => processFailoverPolicies now expectedHeartbeatSeconds

theorem loadSiteSnapshot_only (siteId : Uuid) : (loadSiteSnapshot siteId).Only MeshCall.OfWorker :=
  Fallible.safe_bind (Fallible.only_call trivial) fun _ => Fallible.safe_bind (Fallible.safe_okOr _ _) fun _ =>
    Fallible.safe_bind (Fallible.only_call trivial) fun _ => Fallible.safe_pure _

theorem runFailover_only (policy : PolicySnapshot) (site : SiteSnapshot) (now : DateTime) (eventId : Uuid) :
    (runFailover policy site now eventId).Only MeshCall.OfWorker := by
  refine Fallible.safe_bind (Fallible.only_call trivial) fun result => ?_
  cases result with
  | ok _ => exact Fallible.safe_bind (Fallible.only_call trivial) fun _ => Fallible.safe_pure _
  | error e => exact Fallible.safe_bind (Fallible.only_call trivial) fun _ => Fallible.safe_throw _

theorem triggerPolicyFailover_only (policy : PolicySnapshot) (now : DateTime) (reason : String) :
    (triggerPolicyFailover policy now reason).Only MeshCall.OfWorker := by
  refine Fallible.safe_bind (Fallible.only_call trivial) fun isOpen => ?_
  split
  · exact Fallible.safe_pure _
  · refine Fallible.safe_bind (loadSiteSnapshot_only _) fun site => ?_
    split
    · exact Fallible.safe_pure _
    · exact Fallible.safe_bind (Fallible.only_call trivial) fun _ => runFailover_only _ _ _ _

theorem policyLoop_only (now : DateTime) (n : Nat) (policies : List PolicySnapshot) (summary : RunSummary) :
    (policyLoop now n policies summary).Only MeshCall.OfWorker := by
  induction policies generalizing summary with
  | nil => exact Prog.only_ret _
  | cons policy policies ih =>
    unfold policyLoop
    split
    · exact ih _
    · exact Prog.only_bind (triggerPolicyFailover_only policy now _).run fun _ => ih _

/-- A cycle only makes the calls of a worker. -/
theorem cycle_only (expectedHeartbeatSeconds : Nat) : (cycle expectedHeartbeatSeconds).Only MeshCall.OfWorker :=
  Prog.only_call rfl fun _ => Prog.only_call trivial fun _ => policyLoop_only _ _ _ _

end FailoverWorker

/-! ## The mesh -/

/-- What runs on a mesh: requests to hub instances, operators and cycles of failover workers. -/
inductive MeshRequest where
  | hub (hub : Hub) (request : Request)
  | savePolicy (policy : FailoverPolicy)
  | failoverCycle (expectedHeartbeatSeconds : Nat)

/-- A program of the hub on a mesh. -/
def onHub {α : Type} (x : Prog hubSig α) : Prog meshSig α := Prog.interpret (fun c => .call (.hub c) .ret) x

/-- The program of each. -/
def meshProgram : MeshRequest → Prog meshSig Unit
  | .hub hub request => onHub (ExceptT.run (HubService.program p hub request)) >>= fun _ => .ret ()
  | .savePolicy policy => .call (.savePolicy policy) fun _ => .ret ()
  | .failoverCycle expectedHeartbeatSeconds => FailoverWorker.cycle expectedHeartbeatSeconds >>= fun _ => .ret ()

/-- A request to a hub instance as the program `i`, with so many of its calls. -/
def request (i hub calls : Nat) (r : Request) : List (Move Nat MeshRequest) :=
  .spawn i (.hub ⟨hub, 30⟩ r) :: List.replicate calls (.go i)

/-- What is asked of the calls of a hub, on a mesh: the other calls are free, and the ghost state does not see them. -/
def onMesh {γ : Type} (T : Spec hubSig γ) : Spec meshSig γ where
  ok c g := match c with
    | .hub c => T.ok c g
    | _ => True
  can c g r g' := match c, r with
    | .hub c, r => T.can c g r g'
    | _, _ => g' = g

/-- A program on a mesh follows what its calls to the hub follow. -/
theorem meshProgram_wp {γ : Type} {T : Spec hubSig γ} (hnow : ∀ g, T.ok .utcNow g) (q : MeshRequest) {g : γ}
    (hq : ∀ hub r, q = .hub hub r → Prog.wp T (ExceptT.run (HubService.program p hub r)) (fun _ _ => True) g) :
    Prog.wp (onMesh T) (meshProgram p q) (fun _ _ => True) g := by
  cases q with
  | hub hub r =>
    rw [meshProgram, Prog.wp_bind]
    refine Prog.wp_interpret (fun c d R hok hR => ?_)
      (Prog.wp_mono (fun _ _ _ => (Prog.wp_ret _).2 trivial) (hq hub r rfl))
    exact Prog.wp_call.2 ⟨hok, fun a d' hd => (Prog.wp_ret _).2 (hR a d' hd)⟩
  | savePolicy policy => exact Prog.wp_call.2 ⟨trivial, fun _ _ _ => (Prog.wp_ret _).2 trivial⟩
  | failoverCycle n =>
    rw [meshProgram, Prog.wp_bind]
    refine Prog.wp_mono (fun _ _ _ => (Prog.wp_ret _).2 trivial) ((FailoverWorker.cycle_only n).wp (I := fun _ => True)
      (fun c d hc _ => ?_) (fun _ _ _ _ _ _ _ => trivial) trivial)
    cases c with
    | hub c =>
      obtain rfl : c = .utcNow := hc
      exact hnow d
    | _ => trivial

end PingoraMesh
