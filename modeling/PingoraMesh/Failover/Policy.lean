import PingoraMesh.Dns.Provider
import PingoraMesh.Hub.Config
import PingoraMesh.Lib.Prog

/-!
# Failover decisions

The pure parts of the failover worker: what it reads of a policy and of a site, when a policy is due
(`evaluatePolicy`), how the bindings are switched (`buildSwitchedBindings`), which standby comes next, and what is to be
changed in DNS (`buildDnsFailoverPlan`).
-/

namespace PingoraMesh

/-! ## Snapshots -/

structure PolicySnapshot where
  policyId : Uuid
  scopeType : String
  scopeId : Uuid
  primaryNodeId : Uuid
  standbyNodeId : Uuid
  triggerMode : String
  failureThreshold : Nat
  precheckPolicy : Value
  primaryNodeCode : String
  standbyNodeCode : String
  primaryStatus : String
  standbyStatus : String
  standbyPublicIp : Option String
  primaryLastSeenAt : Option DateTime
  primaryActiveConfigVersion : Option String
  standbyActiveConfigVersion : Option String
  deriving Repr

structure SiteBindingSnapshot where
  nodeId : Uuid
  nodeCode : String
  nodeStatus : String
  bindingRole : String
  priority : Int
  deriving DecidableEq, Repr

structure SiteSnapshot where
  siteId : Uuid
  siteCode : String
  name : String
  domain : String
  listenPort : Nat
  protocol : Protocol
  tlsEnabled : Bool
  status : SiteStatus
  config : Value
  bindings : List SiteBindingSnapshot
  deriving Repr

/-- `DnsZoneSnapshot`. The credentials are kept as the value that the stored text encodes. -/
structure DnsZoneSnapshot where
  zoneId : Uuid
  providerId : Uuid
  providerType : String
  apiEndpoint : Option String
  credentials : Value
  zoneName : String
  externalZoneId : String
  status : String
  deriving Repr

structure DnsFailoverPlan where
  zone : DnsZoneSnapshot
  change : DnsRecordChange
  deriving Repr

/-! ## When a policy is due -/

/-- `policy_bool`. -/
def policyBool (value : Value) (key : String) (default : Bool) : Bool :=
  ((value.get key).bind Value.asBool).getD default

/-- `missed_heartbeats`. -/
def missedHeartbeats (now lastSeenAt : DateTime) (expectedHeartbeatSeconds : Nat) : Nat :=
  let elapsed := (Int.tdiv (now - lastSeenAt) DateTime.nanosPerSecond).toNat
  min (elapsed / max expectedHeartbeatSeconds 1) 4294967295

/-- `evaluate_policy`: the reason for a failover, if there is one. -/
def evaluatePolicy (policy : PolicySnapshot) (now : DateTime) (expectedHeartbeatSeconds : Nat) : Option String :=
  if policy.scopeType ≠ "site" then none
  else if policy.triggerMode ≠ "semi_auto" ∧ policy.triggerMode ≠ "auto" then none
  else if policyBool policy.precheckPolicy "require_standby_online" true ∧ policy.standbyStatus ≠ "online" then none
  else if policyBool policy.precheckPolicy "require_config_prewarm" false ∧
      ¬(policy.standbyActiveConfigVersion.isSome ∧
        policy.standbyActiveConfigVersion = policy.primaryActiveConfigVersion) then none
  else
    let primaryMissed := match policy.primaryLastSeenAt with
      | some lastSeenAt => missedHeartbeats now lastSeenAt expectedHeartbeatSeconds
      | none => 4294967295
    if policy.primaryStatus = "offline" ∨ max policy.failureThreshold 1 ≤ primaryMissed then
      some ("primary node " ++ policy.primaryNodeCode ++ " degraded; status=" ++ policy.primaryStatus ++
        " missed_heartbeats=" ++ String.ofList (Text.decimal primaryMissed))
    else none

/-! ## Bindings -/

/-- `current_primary_node_id`. -/
def currentPrimaryNodeId (bindings : List SiteBindingSnapshot) : Option Uuid :=
  (minByKey (·.priority) (bindings.filter (·.bindingRole == "primary"))).map (·.nodeId)

/-- The order of bindings by priority, then by node code. -/
def bindingOrd (l r : SiteBindingSnapshot) : Ordering :=
  (compare l.priority r.priority).then (compare l.nodeCode r.nodeCode)

/-- The priority that the new primary takes over in `build_switched_bindings`. -/
def currentPrimaryPriority (existing : List SiteBindingSnapshot) (primaryNodeId : Uuid) : Int :=
  (((existing.find? fun b => b.nodeId == primaryNodeId && b.bindingRole == "primary").map (·.priority)) <|>
    (minByKey (·.priority) (existing.filter (·.bindingRole == "primary"))).map (·.priority)).getD 10

/-- `build_switched_bindings`. -/
def buildSwitchedBindings (existing : List SiteBindingSnapshot) (primaryNodeId standbyNodeId : Uuid) :
    List SiteBindingSnapshot :=
  let currentPriority := currentPrimaryPriority existing primaryNodeId
  let standbyPrevious := ((existing.find? (·.nodeId == standbyNodeId)).map (·.priority)).getD (currentPriority + 10)
  let oldPrimaryPriority := max standbyPrevious (currentPriority + 10)
  let others := existing.filter fun b => b.nodeId != primaryNodeId && b.nodeId != standbyNodeId
  let standby := (existing.find? (·.nodeId == standbyNodeId)).getD
    { nodeId := standbyNodeId, nodeCode := Uuid.hyphenated standbyNodeId, nodeStatus := "online"
      bindingRole := "standby", priority := standbyPrevious }
  let oldPrimary := (existing.find? (·.nodeId == primaryNodeId)).getD
    { nodeId := primaryNodeId, nodeCode := Uuid.hyphenated primaryNodeId, nodeStatus := "offline"
      bindingRole := "primary", priority := currentPriority }
  let switched : List SiteBindingSnapshot := others ++
    [{ standby with bindingRole := "primary", priority := currentPriority },
     { oldPrimary with bindingRole := "standby", priority := oldPrimaryPriority }]
  switched.insertionSort fun l r => bindingOrd l r ≠ .gt

/-- `standby_status_rank`. -/
def standbyStatusRank (status : String) : Nat := if Text.toAsciiLowercase status = "online" then 0 else 1

/-- The order of `select_next_policy_standby`. -/
def standbyOrd (l r : SiteBindingSnapshot) : Ordering :=
  (compare (standbyStatusRank l.nodeStatus) (standbyStatusRank r.nodeStatus)).then (bindingOrd l r)

/-- `select_next_policy_standby`. -/
def selectNextPolicyStandby (bindings : List SiteBindingSnapshot) (primaryNodeId : Uuid) : Option Uuid :=
  (minBy standbyOrd (bindings.filter fun b => b.nodeId != primaryNodeId && b.bindingRole == "standby")).map (·.nodeId)

/-! ## Addresses -/

/-- A number of an IPv4 address: up to three digits, no leading zero, at most 255. -/
def isIpv4Octet (cs : List Char) : Bool :=
  !cs.isEmpty && cs.all Char.isDigit && cs.length ≤ 3 && (cs.length == 1 || cs.head? != some '0') &&
    cs.foldl (fun n c => 10 * n + (c.toNat - '0'.toNat)) 0 ≤ 255

/-- `str::parse::<Ipv4Addr>` succeeds. -/
def isIpv4 (cs : List Char) : Bool :=
  let parts := Text.splitChars '.' cs
  parts.length == 4 && parts.all isIpv4Octet

/-- A group of an IPv6 address. -/
def isIpv6Group (cs : List Char) : Bool := !cs.isEmpty && cs.length ≤ 4 && cs.all Uuid.isHexDigit

/-- The number of groups between single colons; an IPv4 address counts for two, and stands last if `v4` allows it. -/
def ipv6Groups (v4 : Bool) : List (List Char) → Option Nat
  | [] => some 0
  | [g] => if isIpv6Group g then some 1 else if v4 && isIpv4 g then some 2 else none
  | g :: gs => if isIpv6Group g then (ipv6Groups v4 gs).map (· + 1) else none

/-- The groups of one side of a double colon. -/
def ipv6Side (v4 : Bool) (cs : List Char) : Option Nat :=
  if cs.isEmpty then some 0 else ipv6Groups v4 (Text.splitChars ':' cs)

/-- What stands before and after the first double colon. -/
def splitDoubleColon : List Char → Option (List Char × List Char)
  | ':' :: ':' :: cs => some ([], cs)
  | c :: cs => (splitDoubleColon cs).map fun s => (c :: s.1, s.2)
  | [] => none

/-- `str::parse::<Ipv6Addr>` succeeds. -/
def isIpv6 (cs : List Char) : Bool :=
  match splitDoubleColon cs with
  | none => ipv6Side true cs == some 8
  | some (before, after) =>
    match ipv6Side false before, ipv6Side true after with
    | some n, some m => n + m ≤ 7
    | _, _ => false

example : isIpv4 "203.0.113.10".toList := by decide
example : isIpv6 "2001:db8::ff00:42:8329".toList := by decide
example : ¬isIpv6 "1:::2".toList := by decide

/-! ## The change of DNS -/

/-- `dns_failover_config`. -/
def dnsFailoverConfig (policy : Value) : Option (List (String × Value)) :=
  (policy.get "dns_failover").bind Value.asObject

/-- A text of a configuration, trimmed, unless it is empty. -/
def configText (config : List (String × Value)) (key : String) : Option String :=
  (((config.lookup key).bind Value.asStr).map Text.trim).filter fun v => !Text.isEmpty v

/-- `domain_belongs_to_zone`. -/
def domainBelongsToZone (domain zoneName : String) : Bool :=
  domain == zoneName || Text.endsWith domain ("." ++ zoneName)

/-- `select_dns_failover_zone`. -/
def selectDnsFailoverZone (siteDomain : String) (config : List (String × Value)) (zones : List DnsZoneSnapshot) :
    Except String DnsZoneSnapshot :=
  match ((config.lookup "zone_id").bind Value.asStr).bind Uuid.parseStr with
  | some zoneId =>
    match zones.find? fun z => z.zoneId == zoneId && z.status == "active" with
    | some zone => .ok zone
    | none => .error ("dns failover zone_id " ++ Uuid.hyphenated zoneId ++ " is not active or not found")
  | none =>
    match configText config "zone_name" with
    | some zoneName =>
      match zones.find? fun z => z.zoneName == zoneName && z.status == "active" with
      | some zone => .ok zone
      | none => .error ("dns failover zone_name " ++ zoneName ++ " is not active or not found")
    | none =>
      match maxBy (fun l r => compare l.zoneName.utf8ByteSize r.zoneName.utf8ByteSize)
        (zones.filter fun z => z.status == "active" && domainBelongsToZone siteDomain z.zoneName) with
      | some zone => .ok zone
      | none => .error ("no active dns zone matches site domain " ++ siteDomain)

/-- `validate_dns_failover_target`. -/
def validateDnsFailoverTarget (recordType value : String) : Except String Unit :=
  if recordType = "A" then
    if isIpv4 value.toList then .ok () else .error "dns failover A record requires standby public IPv4"
  else if recordType = "AAAA" then
    if isIpv6 value.toList then .ok () else .error "dns failover AAAA record requires standby public IPv6"
  else .error "dns failover record_type must be A or AAAA"

/-- The address that DNS is to point to: the public address of the standby node. -/
def standbyAddress (policy : PolicySnapshot) : Option String :=
  (policy.standbyPublicIp.map Text.trim).filter fun v => !Text.isEmpty v

/-- The time to live that a configuration asks for. -/
def planTtl (config : List (String × Value)) : Nat :=
  let ttl := match (config.lookup "ttl").bind Value.asU64 with
    | some n => if n ≤ 4294967295 then n else 60
    | none => 60
  max 1 (min ttl 86400)

/-- `build_dns_failover_plan`. -/
def buildDnsFailoverPlan (site : SiteSnapshot) (policy : PolicySnapshot) (zones : List DnsZoneSnapshot) :
    Except String (Option DnsFailoverPlan) :=
  match dnsFailoverConfig policy.precheckPolicy with
  | none => .ok none
  | some config =>
    if ((config.lookup "enabled").bind Value.asBool).getD false then do
      let some standbyIp := standbyAddress policy
        | throw ("dns failover is enabled but standby node " ++ policy.standbyNodeCode ++ " has no public_ip")
      let recordType := Text.toAsciiUppercase ((configText config "record_type").getD "A")
      validateDnsFailoverTarget recordType standbyIp
      let zone ← selectDnsFailoverZone site.domain config zones
      return some {
        zone := zone
        change := {
          zoneId := some zone.externalZoneId
          zoneName := zone.zoneName
          recordType := recordType
          host := (configText config "host").getD site.domain
          value := standbyIp
          ttl := planTtl config } }
    else .ok none

/-- A plan points its zone's name to the standby node. -/
theorem buildDnsFailoverPlan_change {site : SiteSnapshot} {policy : PolicySnapshot} {zones : List DnsZoneSnapshot}
    {plan : DnsFailoverPlan} (h : buildDnsFailoverPlan site policy zones = .ok (some plan)) :
    standbyAddress policy = some plan.change.value ∧ plan.change.zoneId = some plan.zone.externalZoneId ∧
      plan.change.zoneName = plan.zone.zoneName := by
  unfold buildDnsFailoverPlan at h
  cases hc : dnsFailoverConfig policy.precheckPolicy with
  | none => simp [hc] at h
  | some config =>
    cases ha : standbyAddress policy with
    | none =>
      simp only [hc, ha] at h
      split at h <;> cases h
    | some ip =>
      simp only [hc, ha] at h
      split at h
      · obtain ⟨_, _, h⟩ := Calls.bind_eq_ok.1 h
        obtain ⟨zone, _, h⟩ := Calls.bind_eq_ok.1 h
        cases h
        exact ⟨rfl, rfl, rfl⟩
      · cases h

end PingoraMesh
