import PingoraMesh.Dns.Provider
import PingoraMesh.Hub.Memory
import PingoraMesh.Hub.Responses
import PingoraMesh.Lib.Prog
import PingoraMesh.Lib.Text

/-!
# The calls of the hub

`HubService` reaches its surroundings through calls: the methods of `HubRepository` and `NodeTokenStore`, the counter of
its release serials, the clock, the random generator and the DNS provider. Each call is atomic. `hubHandler` carries
them out over the `World` that all hub instances share.

`Platform` is what the program takes from outside: the readings of the clock, one for each time it is read, and the
functions of the libraries it uses. Random identifiers come from a supply that never repeats itself.
-/

namespace PingoraMesh

open Calls

/-- What the program takes from outside. -/
structure Platform where
  /-- The readings of the clock, in the order they are taken. -/
  clock : Nat → DateTime
  /-- `Sha256`, in lower-case hexadecimal. -/
  sha256Hex : String → String
  /-- `Argon2::hash_password` with the salt drawn at a step. -/
  argon2Hash : Nat → String → Except String String
  /-- `PasswordHash::new` and `verify_password`: an unreadable hash, or whether the password fits. -/
  argon2Verify : String → String → Except String Bool
  /-- `str::to_lowercase`. -/
  toLowercase : String → String
  /-- `list_zones` of the provider that `build_provider` makes, asked at a step. -/
  listZones : Nat → ProviderConfig → List String → Except String (List ProviderZone)

/-- A platform whose clock ticks once a second. Hashes keep their input readable, lower case is ASCII, and the provider
is the one of `NoopDnsProvider`. -/
def Platform.plain : Platform where
  clock n := DateTime.seconds n
  sha256Hex s := "sha256:" ++ s
  argon2Hash _ s := .ok ("argon2:" ++ s)
  argon2Verify hash s := .ok (hash == "argon2:" ++ s)
  toLowercase := Text.toAsciiLowercase
  listZones _ _ names := .ok (names.map fun name => { zoneId := "noop-" ++ name, zoneName := name, status := "active" })

/-- `MemoryTokenState`. -/
structure TokenState where
  access : HashMap String TokenLease
  refresh : HashMap String TokenLease
  currentAccessByNode : HashMap Uuid String
  currentRefreshByNode : HashMap Uuid String

/-- What all hub instances share, and the release counter of each. -/
structure World where
  store : MemoryState
  tokens : TokenState
  /-- `release_counter` of the hub instances that have taken a serial. -/
  counters : HashMap Nat Nat
  /-- The next random identifier. -/
  nextUuid : Nat
  /-- How many times the clock, the salt generator and the provider have been asked. -/
  tick : Nat

/-- Empty stores, and counters that start at 1. -/
def World.init : World := ⟨.empty, ⟨∅, ∅, ∅, ∅⟩, ∅, 0, 0⟩

/-! ## Tokens -/

namespace TokenState

/-- `revoke_tokens`. -/
def revokeTokens (nodeId : Uuid) (s : TokenState) : TokenState :=
  { access := match s.currentAccessByNode[nodeId]? with
      | some t => s.access.erase t
      | none => s.access
    refresh := match s.currentRefreshByNode[nodeId]? with
      | some t => s.refresh.erase t
      | none => s.refresh
    currentAccessByNode := s.currentAccessByNode.erase nodeId
    currentRefreshByNode := s.currentRefreshByNode.erase nodeId }

/-- `issue_tokens`, with the tokens and their expiry drawn. -/
def issueTokens (nodeId : Uuid) (t : IssuedTokens) (s : TokenState) : TokenState :=
  let s := s.revokeTokens nodeId
  let lease : TokenLease := { nodeId := nodeId, expiresAt := t.expiresAt }
  { access := s.access.insert t.accessToken lease
    refresh := s.refresh.insert t.refreshToken lease
    currentAccessByNode := s.currentAccessByNode.insert nodeId t.accessToken
    currentRefreshByNode := s.currentRefreshByNode.insert nodeId t.refreshToken }

end TokenState

/-! ## The interface -/

inductive HubCall where
  | saveNode (node : NodeRecord)
  | node (nodeId : Uuid)
  | nodeIdByCode (nodeCode : String)
  | listNodes
  | nodeDeleteGuard (nodeId : Uuid)
  | deleteNode (nodeId : Uuid)
  | recordHeartbeat (heartbeat : HeartbeatRecord)
  | saveSite (site : SiteRecord)
  | site (siteId : Uuid)
  | siteIdByCode (siteCode : String)
  | listSites
  | deleteSite (siteId : Uuid)
  | updateActiveFailoverPolicyTargets (siteId primaryNodeId standbyNodeId : Uuid)
  | saveRelease (release : ReleaseRecord)
  | release (releaseId : Uuid)
  | releaseByVersion (version : String)
  | listReleases
  | latestReleaseIdForNode (nodeId : Uuid)
  | updateReleaseAck (releaseId nodeId : Uuid) (ack : NodeAckRecord)
  | saveDnsProvider (provider : DnsProviderRecord)
  | dnsProvider (providerId : Uuid)
  | dnsProviderByName (name : String)
  | listDnsProviders
  | deleteDnsProvider (providerId : Uuid)
  | saveDnsZone (zone : DnsZoneRecord)
  | dnsZone (zoneId : Uuid)
  | dnsZoneByProviderName (providerId : Uuid) (zoneName : String)
  | listDnsZones
  | deleteDnsZone (zoneId : Uuid)
  | saveCertificate (certificate : CertificateRecord)
  | siteCertificates (siteId : Uuid)
  | saveCertificateOrder (order : CertificateOrderRecord)
  | certificateOrder (orderId : Uuid)
  | listCertificateOrders
  | saveAdminUser (user : AdminUserRecord)
  | adminUserByUsername (username : String)
  | touchAdminUserLogin (userId : Uuid) (lastLoginAt : DateTime)
  | saveAdminSession (session : AdminSessionRecord)
  | adminSessionByTokenHash (hash : String)
  | touchAdminSession (hash : String) (lastSeenAt : DateTime)
  | deleteAdminSession (hash : String)
  | deleteAdminSessionsForUser (userId : Uuid) (exclude : Option String)
  | saveOperationTemplate (template : OperationTemplateRecord)
  | operationTemplate (templateId : Uuid)
  | operationTemplateByName (name : String)
  | listOperationTemplates
  | deleteOperationTemplate (templateId : Uuid)
  | saveNodeOperation (operation : NodeOperationRecord)
  | nodeOperation (operationId : Uuid)
  | listNodeOperations (nodeId : Uuid)
  | claimNextNodeOperation (nodeId : Uuid)
  | updateNodeOperation (operation : NodeOperationRecord)
  | issueTokens (nodeId : Uuid) (ttl : Int)
  | accessLease (accessToken : String)
  | refreshLease (refreshToken : String)
  | revokeTokens (nodeId : Uuid)
  /-- `release_counter.fetch_add(1)` of a hub instance. -/
  | fetchAddReleaseCounter (hub : Nat)
  /-- `Utc::now`. -/
  | utcNow
  /-- `Uuid::new_v4`. -/
  | newUuid
  /-- `Argon2::hash_password` with a random salt. -/
  | argon2Hash (password : String)
  /-- `list_zones` of a provider. -/
  | listZones (config : ProviderConfig) (names : List String)

/-- The answer to each call. The store does not fail. -/
@[reducible] def HubCall.Ans : HubCall → Type
  | .node _ => Option NodeRecord
  | .nodeIdByCode _ | .siteIdByCode _ | .latestReleaseIdForNode _ => Option Uuid
  | .listNodes => List NodeRecord
  | .nodeDeleteGuard _ => NodeDeleteGuard
  | .site _ => Option SiteRecord
  | .listSites => List SiteRecord
  | .release _ | .releaseByVersion _ => Option ReleaseRecord
  | .listReleases => List ReleaseRecord
  | .dnsProvider _ | .dnsProviderByName _ => Option DnsProviderRecord
  | .listDnsProviders => List DnsProviderRecord
  | .dnsZone _ | .dnsZoneByProviderName _ _ => Option DnsZoneRecord
  | .listDnsZones => List DnsZoneRecord
  | .siteCertificates _ => List CertificateRef
  | .certificateOrder _ => Option CertificateOrderRecord
  | .listCertificateOrders => List CertificateOrderRecord
  | .adminUserByUsername _ => Option AdminUserRecord
  | .adminSessionByTokenHash _ => Option AdminSessionContext
  | .operationTemplate _ | .operationTemplateByName _ => Option OperationTemplateRecord
  | .listOperationTemplates => List OperationTemplateRecord
  | .nodeOperation _ => Option NodeOperationRecord
  | .listNodeOperations _ => List NodeOperationRecord
  | .claimNextNodeOperation _ => Option ClaimedNodeOperation
  | .issueTokens _ _ => IssuedTokens
  | .accessLease _ | .refreshLease _ => Option TokenLease
  | .fetchAddReleaseCounter _ => Nat
  | .utcNow => DateTime
  | .newUuid => Uuid
  | .argon2Hash _ => Except String String
  | .listZones _ _ => Except String (List ProviderZone)
  | _ => Unit

/-- The calls of the hub, as an interface. -/
@[reducible] def hubSig : Sig := ⟨HubCall, HubCall.Ans⟩

/-! ## The handler -/

namespace World

/-- A call that only reads the store. -/
def read {α : Type} (w : World) (f : MemoryState → α) : α × World := (f w.store, w)

/-- A call that only writes the store. -/
def write (w : World) (f : MemoryState → MemoryState) : Unit × World := ((), { w with store := f w.store })

/-- The serial that a hub instance takes next. -/
def serial (w : World) (hub : Nat) : Nat := w.counters.getD hub 1

end World

variable (p : Platform)

/-- `issue_tokens` on a world: two identifiers and one reading of the clock. -/
def issueTokensCall (nodeId : Uuid) (ttl : Int) (w : World) : IssuedTokens × World :=
  let t : IssuedTokens :=
    { accessToken := "node-at-" ++ Uuid.hyphenated w.nextUuid
      refreshToken := "node-rt-" ++ Uuid.hyphenated (w.nextUuid + 1)
      expiresAt := p.clock w.tick + ttl }
  (t, { w with tokens := w.tokens.issueTokens nodeId t, nextUuid := w.nextUuid + 2, tick := w.tick + 1 })

/-- What each call does. -/
def hubHandler : Handler hubSig World := fun c w =>
  match c with
  | .saveNode node => w.write (·.saveNode node)
  | .node nodeId => w.read (·.nodes[nodeId]?)
  | .nodeIdByCode nodeCode => w.read (·.nodeIdsByCode[nodeCode]?)
  | .listNodes => w.read (·.nodes.values)
  | .nodeDeleteGuard nodeId => w.read (·.nodeDeleteGuard nodeId)
  | .deleteNode nodeId => w.write (·.deleteNode nodeId)
  | .recordHeartbeat heartbeat => w.write (·.recordHeartbeat heartbeat)
  | .saveSite site => w.write (·.saveSite site)
  | .site siteId => w.read (·.sites[siteId]?)
  | .siteIdByCode siteCode => w.read (·.siteIdsByCode[siteCode]?)
  | .listSites => w.read (·.sites.values)
  | .deleteSite siteId => w.write (·.deleteSite siteId)
  | .updateActiveFailoverPolicyTargets siteId primary standby =>
    w.write (·.updateActiveFailoverPolicyTargets siteId primary standby)
  | .saveRelease release => w.write (·.saveRelease release)
  | .release releaseId => w.read (·.releases[releaseId]?)
  | .releaseByVersion version => w.read (·.releaseByVersion version)
  | .listReleases => w.read (·.releases.values)
  | .latestReleaseIdForNode nodeId => w.read (·.latestReleaseByNode[nodeId]?)
  | .updateReleaseAck releaseId nodeId ack => w.write (·.updateReleaseAck releaseId nodeId ack)
  | .saveDnsProvider provider => w.write (·.saveDnsProvider provider)
  | .dnsProvider providerId => w.read (·.dnsProviders[providerId]?)
  | .dnsProviderByName name => w.read (·.dnsProviderByName name)
  | .listDnsProviders => w.read (·.dnsProviders.values)
  | .deleteDnsProvider providerId => w.write (·.deleteDnsProvider providerId)
  | .saveDnsZone zone => w.write (·.saveDnsZone zone)
  | .dnsZone zoneId => w.read (·.dnsZones[zoneId]?)
  | .dnsZoneByProviderName providerId zoneName => w.read (·.dnsZoneByProviderName providerId zoneName)
  | .listDnsZones => w.read (·.dnsZones.values)
  | .deleteDnsZone zoneId => w.write (·.deleteDnsZone zoneId)
  | .saveCertificate certificate => w.write (·.saveCertificate certificate)
  | .siteCertificates siteId => w.read fun s => (s.siteCertificates[siteId]?).getD []
  | .saveCertificateOrder order => w.write (·.saveCertificateOrder order)
  | .certificateOrder orderId => w.read (·.certificateOrders[orderId]?)
  | .listCertificateOrders => w.read (·.certificateOrders.values)
  | .saveAdminUser user => w.write (·.saveAdminUser user)
  | .adminUserByUsername username => w.read (·.adminUserByUsername username)
  | .touchAdminUserLogin userId lastLoginAt => w.write (·.touchAdminUserLogin userId lastLoginAt)
  | .saveAdminSession session => w.write (·.saveAdminSession session)
  | .adminSessionByTokenHash hash => w.read (·.adminSessionByTokenHash hash)
  | .touchAdminSession hash lastSeenAt => w.write (·.touchAdminSession hash lastSeenAt)
  | .deleteAdminSession hash => w.write (·.deleteAdminSession hash)
  | .deleteAdminSessionsForUser userId exclude => w.write (·.deleteAdminSessionsForUser userId exclude)
  | .saveOperationTemplate template => w.write (·.saveOperationTemplate template)
  | .operationTemplate templateId => w.read (·.operationTemplates[templateId]?)
  | .operationTemplateByName name => w.read (·.operationTemplateByName name)
  | .listOperationTemplates => w.read (·.operationTemplates.values)
  | .deleteOperationTemplate templateId => w.write (·.deleteOperationTemplate templateId)
  | .saveNodeOperation operation => w.write (·.saveNodeOperation operation)
  | .nodeOperation operationId => w.read (·.nodeOperations[operationId]?)
  | .listNodeOperations nodeId => w.read (·.listNodeOperations nodeId)
  | .claimNextNodeOperation nodeId =>
    let out := w.store.claimNextNodeOperation nodeId (p.clock w.tick)
    (out.1, { w with store := out.2, tick := w.tick + 1 })
  | .updateNodeOperation operation => w.write (·.saveNodeOperation operation)
  | .issueTokens nodeId ttl => issueTokensCall p nodeId ttl w
  | .accessLease accessToken => (w.tokens.access[accessToken]?, w)
  | .refreshLease refreshToken => (w.tokens.refresh[refreshToken]?, w)
  | .revokeTokens nodeId => ((), { w with tokens := w.tokens.revokeTokens nodeId })
  | .fetchAddReleaseCounter hub => (w.serial hub, { w with counters := w.counters.insert hub (w.serial hub + 1) })
  | .utcNow => (p.clock w.tick, { w with tick := w.tick + 1 })
  | .newUuid => (w.nextUuid, { w with nextUuid := w.nextUuid + 1 })
  | .argon2Hash password => (p.argon2Hash w.tick password, { w with tick := w.tick + 1 })
  | .listZones config names => (p.listZones w.tick config names, { w with tick := w.tick + 1 })

/-- A library error as `AppError::internal`. -/
def internalError {α : Type} : Except String α → Except AppError α
  | .ok a => .ok a
  | .error message => .error (.internal message)

/-- A program of the hub. -/
abbrev HubM := Fallible hubSig AppError

/-- A call of the hub. -/
abbrev repo (c : HubCall) : HubM c.Ans := @Fallible.call hubSig AppError c

end PingoraMesh
