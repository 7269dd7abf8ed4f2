import PingoraMesh.Dns.Tables
import PingoraMesh.Lib.Join

/-!
# The dns-worker

`apps/dns-worker`: it places renewals of certificates that expire soon, presents DNS challenges, and has certificates
issued. Its statements are calls over `CertState`, each of them or its transaction atomic; the ACME server
(`AcmeServer`) may answer anything, and the DNS provider is the one of `Dns.Provider`. The certificates of the mock
client are taken to be any material too.

`CertRequest` puts the requests of the hub and the batches of the worker over one state, and `CertState.serve` runs one
of them to its end before the next one starts.
-/

namespace PingoraMesh

open Calls Fallible

/-! ## Records -/

/-- `QueuedDnsChallengeOrder`, also `QueuedCertificateIssuanceOrder`. -/
structure QueuedOrder where
  orderId : Uuid
  siteId : Option Uuid
  certificateId : Uuid
  orderType : String
  acmeProvider : String
  provider : ProviderConfig
  zoneName : String
  externalZoneId : String
  challengePayload : Value
  commonName : String
  sans : List String
  deriving Repr

/-- `IssuedCertificateMaterial`, less the issuer and the start, which nothing reads. -/
structure IssuedCertificateMaterial where
  notAfter : DateTime
  certPem : String
  keyPemEncrypted : String
  chainPem : Option String
  fingerprintSha256 : String
  deriving DecidableEq, Repr

/-- `PersistIssuedCertificateRequest`. -/
structure PersistIssuedCertificateRequest where
  orderId : Uuid
  siteId : Option Uuid
  certificateId : Uuid
  orderType : String
  warningMessage : Option String
  material : IssuedCertificateMaterial
  deriving DecidableEq, Repr

/-- What an ACME server says of a new order. -/
structure AcmeOrder where
  orderUrl : String
  authorizationUrl : String
  challengeUrl : String
  challengeToken : String
  identifier : String
  recordValue : String
  finalizeUrl : String
  deriving DecidableEq, Repr

/-- The ACME server, by the number of the request. -/
structure AcmeServer where
  newOrder : Nat → List String → Except String AcmeOrder
  acknowledge : Nat → String → Except String Unit
  authorized : Nat → String → Except String Unit
  issue : Nat → QueuedOrder → Except String IssuedCertificateMaterial

/-! ## Pure parts -/

/-- `unique_identifiers`. -/
def uniqueIdentifiers (commonName : String) (sans : List String) : List String :=
  ((commonName :: sans).foldl (fun ids v => if Text.isEmpty (Text.trim v) || ids.contains v then ids else v :: ids)
    []).reverse

/-- `payload_str`. -/
def payloadStr (payload : Value) (key : String) : Except String String :=
  match ((payload.get key).bind Value.asStr).filter fun v => !Text.isEmpty (Text.trim v) with
  | some v => .ok v
  | none => .error ("challenge payload missing " ++ key)

/-- `has_prepared_dns_payload`. -/
def hasPreparedDnsPayload (payload : Value) : Bool :=
  ["record_name", "record_value", "challenge_url", "authorization_url", "order_url", "finalize_url"].all fun key =>
    ((payload.get key).bind Value.asStr).isSome

/-- A field of `CertificateChallengePayload`: it may be absent, and has to have its type otherwise. -/
def optionalField {α : Type} (read : Value → Option α) (payload : Value) (key : String) : Option (Option α) :=
  match payload.get key with
  | none | some .null => some none
  | some v => (read v).map some

/-- `Value::as_u64`, for a `u32`. -/
def Value.asU32 (v : Value) : Option Nat := v.asU64.filter (· < 2 ^ 32)

/-- `CertificateChallengePayload`. -/
structure CertificateChallengePayload where
  zoneName : Option String
  recordName : Option String
  recordType : Option String
  recordValue : Option String
  ttl : Option Nat
  deriving DecidableEq, Repr

/-- The payload as `serde_json::from_value` reads it. -/
def CertificateChallengePayload.read (payload : Value) : Option CertificateChallengePayload := do
  let _ ← payload.asObject
  return {
    zoneName := ← optionalField Value.asStr payload "zone_name"
    recordName := ← optionalField Value.asStr payload "record_name"
    recordType := ← optionalField Value.asStr payload "record_type"
    recordValue := ← optionalField Value.asStr payload "record_value"
    ttl := ← optionalField Value.asU32 payload "ttl" }

/-- `challenge_from_payload`. -/
def challengeFromPayload (orderId : Uuid) (zoneName externalZoneId : String) (payload : Value) :
    Except String AcmeChallenge :=
  match CertificateChallengePayload.read payload with
  | none => .error ("invalid challenge payload for order " ++ Uuid.hyphenated orderId)
  | some payload =>
    let recordType := Text.toAsciiUppercase (payload.recordType.getD "TXT")
    if recordType ≠ "TXT" then .error ("unsupported dns challenge record type: " ++ recordType)
    else
      match payload.recordName.filter fun v => !Text.isEmpty (Text.trim v) with
      | none => .error "challenge payload record_name is required"
      | some fqdn =>
        match payload.recordValue.filter fun v => !Text.isEmpty (Text.trim v) with
        | none => .error "challenge payload record_value is required"
        | some value => .ok {
            zoneId := some externalZoneId
            zoneName := payload.zoneName.getD zoneName
            fqdn := fqdn
            value := value
            ttl := payload.ttl.getD 60 }

/-- The zone of `enqueue_due_renewal_orders`: of the given zones that cover the name the last of the longest. -/
def enqueueZone (zones : List DnsZoneRecord) (commonName : String) : Option DnsZoneRecord :=
  maxBy (fun l r => compare l.zoneName.utf8ByteSize r.zoneName.utf8ByteSize)
    (zones.filter fun zone => domainMatchesZone commonName zone.zoneName)

/-- The payload of a renewal that the worker places. -/
def renewalPayload (zoneName commonName : String) (sans : List String) (token : Uuid) : Value :=
  .object
    [("zone_name", .string zoneName), ("identifier", .string commonName), ("sans", .strings sans),
     ("record_name", .string (dns01RecordName commonName)), ("record_type", .string "TXT"),
     ("record_value", .string ("token-" ++ Uuid.hyphenated token)), ("ttl", .ofInt 60), ("auto_renew", .bool true)]

/-! ## Statements -/

namespace CertState

/-- The row of a claim: an order in a status, with its zone, its provider and its certificate. -/
def claimable (s : CertState) (status : String) (order : CertificateOrderRecord) : Option QueuedOrder :=
  if order.orderStatus == status && order.challengeType == "dns-01" then do
    let certificateId ← order.certificateId
    let zone ← s.world.store.dnsZones[order.zoneId]?
    let provider ← s.world.store.dnsProviders[zone.providerId]?
    let certificate ← s.world.store.certificates[certificateId]?
    return {
      orderId := order.orderId
      siteId := order.siteId
      certificateId := certificateId
      orderType := order.orderType
      acmeProvider := order.acmeProvider
      provider :=
        { providerType := provider.providerType, apiEndpoint := provider.apiEndpoint,
          credentials := provider.credentials }
      zoneName := zone.zoneName
      externalZoneId := zone.externalZoneId
      challengePayload := order.challengePayload
      commonName := certificate.commonName
      sans := certificate.sans }
  else none

/-- The orders in a status that a claim takes: the oldest, up to a limit. -/
def claimed (rows : RowOrder) (status : String) (limit : Nat) (s : CertState) : List CertificateOrderRecord :=
  ((rows.orders s.world.tick (s.orders.values.filter fun o => (s.claimable status o).isSome)).insertionSort
    fun l r => l.createdAt ≤ r.createdAt).take limit

/-- A claimed order in its new status. -/
def moved (status : String) (order : CertificateOrderRecord) : CertificateOrderRecord :=
  { order with orderStatus := status, errorMessage := none }

/-- One more reading of the clock. -/
def ticked (s : CertState) : CertState := { s with world := { s.world with tick := s.world.tick + 1 } }

/-- `claim_pending_dns_orders` and `claim_ready_issuance_orders`, by the statuses before and after. -/
def claimOrders (rows : RowOrder) (before after : String) (limit : Nat) (s : CertState) :
    List QueuedOrder × CertState :=
  let orders := s.claimed rows before limit
  (orders.filterMap (s.claimable before),
    (s.onStore fun store => orders.foldl (fun store order => store.saveCertificateOrder
      (moved after order)) store).ticked)

/-- The certificates that `enqueue_due_renewal_orders` looks at. -/
def dueCertificates (rows : RowOrder) (threshold : DateTime) (limit : Nat) (s : CertState) : List CertificateRecord :=
  ((rows.certificates s.world.tick (s.world.store.certificates.values.filter fun c =>
      c.status == "active" && c.expiresAt.any (· ≤ threshold) &&
        !s.orders.values.any fun o => o.certificateId == some c.certificateId && o.activeRenewal)).insertionSort
    fun l r => l.expiresAt.getD 0 ≤ r.expiresAt.getD 0).take limit

/-- The order that `enqueue_due_renewal_orders` inserts. -/
def renewalOrder (orderId certificateId zoneId : Uuid) (acmeProvider : String) (payload : Value) (now : DateTime) :
    CertificateOrderRecord where
  orderId := orderId
  siteId := none
  certificateId := some certificateId
  zoneId := zoneId
  orderType := "renew"
  acmeProvider := acmeProvider
  challengeType := "dns-01"
  challengePayload := payload
  orderStatus := "pending_dns_challenge"
  errorMessage := none
  certificateExpiresAt := none
  createdAt := now

/-- The insert of `enqueue_due_renewal_orders`, and whether it made a row. -/
def insertRenewalOrder (p : Platform) (certificateId zoneId : Uuid) (acmeProvider : String) (payload : Value)
    (s : CertState) : Except String Bool × CertState :=
  let order := renewalOrder s.world.nextUuid certificateId zoneId acmeProvider payload (p.clock s.world.tick)
  let s := { s with world := { s.world with nextUuid := s.world.nextUuid + 1, tick := s.world.tick + 1 } }
  if indexRefuses s.orders order then (.ok false, s)
  else
    match s.putOrder order with
    | .ok s' => (.ok true, s')
    | .error e => (.error e, s)

/-- The next version of a certificate. -/
def nextVersion (certificateId : Uuid) (s : CertState) : Nat :=
  ((s.versions.filter (·.certificateId == certificateId)).map (·.version)).foldl max 0 + 1

/-- The sites that get the new version. -/
def targetSites (request : PersistIssuedCertificateRequest) (s : CertState) : List Uuid :=
  match request.siteId with
  | some siteId => [siteId]
  | none =>
    if request.orderType == "renew" then
      ((s.bindings.filter fun b => b.certificateId == request.certificateId && b.isDefault).map (·.siteId)).dedup
    else []

/-- A site gets a version as its default. -/
def bindDefault (certificateId : Uuid) (version : Nat) (now : DateTime) (bindings : List SiteCertBinding)
    (siteId : Uuid) : List SiteCertBinding :=
  bindings.map (fun b => if b.siteId = siteId then { b with isDefault := false } else b) ++
    [{ siteId := siteId, certificateId := certificateId, version := version, isDefault := true, createdAt := now }]

/-- The certificate as it was issued. -/
def issuedCertificate (material : IssuedCertificateMaterial) (c : CertificateRecord) : CertificateRecord :=
  { c with
    expiresAt := some material.notAfter
    fingerprintSha256 := material.fingerprintSha256
    status := "active" }

/-- The statements of `persist_issued_certificate` that hold up, as one transaction. -/
def issued (p : Platform) (request : PersistIssuedCertificateRequest) (s : CertState) : CertState :=
  let version := s.nextVersion request.certificateId
  { (s.onStore fun store =>
      { store with
        certificates := store.certificates.modify request.certificateId (issuedCertificate request.material)
        certificateOrders := store.certificateOrders.modify request.orderId fun order =>
          { order with orderStatus := "issued", errorMessage := request.warningMessage } }).ticked with
    versions := s.versions ++ [{
      certificateId := request.certificateId
      version := version
      certPem := request.material.certPem
      keyPemEncrypted := request.material.keyPemEncrypted
      chainPem := request.material.chainPem }]
    bindings := (s.targetSites request).foldl (bindDefault request.certificateId version
      (p.clock s.world.tick)) s.bindings }

/-- `persist_issued_certificate`: the certificate and the sites have to exist, and its fingerprint is its own. -/
def persistIssuedCertificate (p : Platform) (request : PersistIssuedCertificateRequest) (s : CertState) :
    Except String Unit × CertState :=
  if !s.world.store.certificates.contains request.certificateId ||
      !(s.targetSites request).all s.world.store.sites.contains then
    (.error "violates foreign key constraint", s.ticked)
  else if s.world.store.certificates.values.any fun c =>
      c.certificateId != request.certificateId && c.fingerprintSha256 == request.material.fingerprintSha256 then
    (.error "violates unique constraint certificates_fingerprint_sha256_key", s.ticked)
  else (.ok (), s.issued p request)

/-- The result of an update. -/
def afterUpdate (s : CertState) : Except String CertState → Except String Unit × CertState
  | .ok s' => (.ok (), s')
  | .error e => (.error e, s)

end CertState

/-! ## Calls -/

/-- The calls of the worker. -/
inductive WorkerCall where
  | dueCertificates (threshold : DateTime) (limit : Nat)
  | activeZones
  | insertRenewalOrder (certificateId zoneId : Uuid) (acmeProvider : String) (challengePayload : Value)
  | claimPendingDnsOrders (limit : Nat)
  | updateOrderChallengePayload (orderId : Uuid) (payload : Value)
  | claimReadyIssuanceOrders (limit : Nat)
  | updateOrderStatus (orderId : Uuid) (status : String) (errorMessage : Option String)
  | persistIssuedCertificate (request : PersistIssuedCertificateRequest)
  | presentDns01Challenge (provider : DnsProvider) (challenge : AcmeChallenge)
  | cleanupDns01Challenge (provider : DnsProvider) (challenge : AcmeChallenge)
  /-- `newOrder` of the ACME server, with the authorization of the order. -/
  | newOrder (identifiers : List String)
  | acknowledge (challengeUrl : String)
  /-- `poll_authorization_valid`. -/
  | authorized (authorizationUrl : String)
  /-- The certificate of an order: that of the mock client, or `finalize_and_download_certificate`. -/
  | issue (order : QueuedOrder)
  /-- `Uuid::new_v4`. -/
  | newUuid

/-- The answer to each call. -/
@[reducible] def WorkerCall.Ans : WorkerCall → Type
  | .dueCertificates _ _ => List CertificateRecord
  | .activeZones => List DnsZoneRecord
  | .insertRenewalOrder _ _ _ _ => Except String Bool
  | .claimPendingDnsOrders _ | .claimReadyIssuanceOrders _ => List QueuedOrder
  | .newOrder _ => Except String AcmeOrder
  | .issue _ => Except String IssuedCertificateMaterial
  | .newUuid => Uuid
  | _ => Except String Unit

/-- The calls of the worker, as an interface. -/
@[reducible] def workerSig : Sig := ⟨WorkerCall, WorkerCall.Ans⟩

section Handler

variable (p : Platform) (rows : RowOrder) (acme : AcmeServer) (net : Nat → Delivery)

/-- What each call does. -/
def workerHandler : Handler workerSig CertState := fun c s =>
  match c with
  | .dueCertificates threshold limit => (s.dueCertificates rows threshold limit, s.ticked)
  | .activeZones =>
    (rows.zones s.world.tick (s.world.store.dnsZones.values.filter fun z => z.status == "active"), s.ticked)
  | .insertRenewalOrder certificateId zoneId acmeProvider payload =>
    s.insertRenewalOrder p certificateId zoneId acmeProvider payload
  | .claimPendingDnsOrders limit => s.claimOrders rows "pending_dns_challenge" "dns_challenge_presenting" limit
  | .updateOrderChallengePayload orderId payload =>
    s.afterUpdate (s.updateOrder orderId fun order => { order with challengePayload := payload })
  | .claimReadyIssuanceOrders limit => s.claimOrders rows "dns_challenge_presented" "issuing" limit
  | .updateOrderStatus orderId status errorMessage =>
    s.afterUpdate
      (s.updateOrder orderId fun order => { order with orderStatus := status, errorMessage := errorMessage })
  | .persistIssuedCertificate request => s.persistIssuedCertificate p request
  | .presentDns01Challenge provider challenge =>
    ((provider.presentDns01Challenge net challenge s.remote).1,
      { s with remote := (provider.presentDns01Challenge net challenge s.remote).2 })
  | .cleanupDns01Challenge provider challenge =>
    ((provider.cleanupDns01Challenge net challenge s.remote).1,
      { s with remote := (provider.cleanupDns01Challenge net challenge s.remote).2 })
  | .newOrder identifiers => (acme.newOrder s.world.tick identifiers, s.ticked)
  | .acknowledge challengeUrl => (acme.acknowledge s.world.tick challengeUrl, s.ticked)
  | .authorized authorizationUrl => (acme.authorized s.world.tick authorizationUrl, s.ticked)
  | .issue order => (acme.issue s.world.tick order, s.ticked)
  | .newUuid => (s.world.nextUuid, { s with world := { s.world with nextUuid := s.world.nextUuid + 1 } })

end Handler

/-! ## Programs -/

/-- A program of the worker; its errors are those of `anyhow`, by their message. -/
abbrev WorkerM := Fallible workerSig String

/-- A call of the worker. -/
abbrev work (c : WorkerCall) : WorkerM c.Ans := @Fallible.call workerSig String c

/-- `MockAcmeClient` and `LetsEncryptAcmeClient`. -/
inductive AcmeClient where
  | mock
  | letsEncrypt
  deriving DecidableEq, Repr

namespace DnsWorker

/-- The loop of `enqueue_due_renewal_orders`. -/
def enqueueLoop (zones : List DnsZoneRecord) (acmeProvider : String) : List CertificateRecord → Nat → WorkerM Nat
  | [], created => pure created
  | certificate :: certificates, created =>
    match enqueueZone zones certificate.commonName with
    | none => enqueueLoop zones acmeProvider certificates created
    | some zone => do
      let token ← work .newUuid
      let inserted ← work (.insertRenewalOrder certificate.certificateId zone.zoneId acmeProvider
        (renewalPayload zone.zoneName certificate.commonName certificate.sans token))
      let inserted ← attempt inserted
      enqueueLoop zones acmeProvider certificates (created + if inserted then 1 else 0)

/-- `enqueue_due_renewal_orders`. -/
def enqueueDueRenewalOrders (now renewBefore : DateTime) (limit : Nat) (acmeProvider : String) : WorkerM Nat := do
  let certificates ← work (.dueCertificates (now + renewBefore) limit)
  if (certificates : List CertificateRecord).isEmpty then return 0
  let zones ← work .activeZones
  enqueueLoop zones acmeProvider certificates 0

variable (client : AcmeClient)

/-- `prepare_dns01_challenge` of both clients. -/
def prepareDns01Challenge (order : QueuedOrder) : WorkerM Value :=
  if hasPreparedDnsPayload order.challengePayload then pure order.challengePayload
  else
    match client with
    | .mock => do
      let token ← work .newUuid
      return .object
        [("zone_name", .string order.zoneName), ("identifier", .string order.commonName),
         ("record_name", .string (dns01RecordName order.commonName)), ("record_type", .string "TXT"),
         ("record_value", .string ("token-" ++ Uuid.hyphenated token)), ("ttl", .ofInt 60)]
    | .letsEncrypt => do
      let identifiers := uniqueIdentifiers order.commonName order.sans
      ensure (identifiers.length == 1) "real acme mode currently supports a single dns identifier per order"
      let answer ← work (.newOrder identifiers)
      let placed ← attempt answer
      return .object
        [("zone_name", .string order.zoneName), ("record_name", .string (dns01RecordName placed.identifier)),
         ("record_type", .string "TXT"), ("record_value", .string placed.recordValue), ("ttl", .ofInt 60),
         ("identifier", .string placed.identifier), ("order_url", .string placed.orderUrl),
         ("authorization_url", .string placed.authorizationUrl), ("challenge_url", .string placed.challengeUrl),
         ("challenge_token", .string placed.challengeToken), ("finalize_url", .string placed.finalizeUrl)]

/-- `acknowledge_dns01_challenge` of both clients. -/
def acknowledgeDns01Challenge (payload : Value) : WorkerM Unit :=
  match client with
  | .mock => pure ()
  | .letsEncrypt => do
    let challengeUrl ← attempt (payloadStr payload "challenge_url")
    let answer ← work (.acknowledge challengeUrl)
    attempt answer

/-- `finalize_dns01_order` of both clients. -/
def finalizeDns01Order (order : QueuedOrder) : WorkerM IssuedCertificateMaterial :=
  match client with
  | .mock => do
    let answer ← work (.issue order)
    attempt answer
  | .letsEncrypt => do
    let authorizationUrl ← attempt (payloadStr order.challengePayload "authorization_url")
    let authorized ← work (.authorized authorizationUrl)
    attempt authorized
    let _ ← attempt (payloadStr order.challengePayload "finalize_url")
    let _ ← attempt (payloadStr order.challengePayload "order_url")
    let answer ← work (.issue order)
    attempt answer

/-- `process_dns_challenge`: the payload of the challenge. -/
def processDnsChallenge (job : QueuedOrder) : WorkerM Value := do
  let payload ← prepareDns01Challenge client job
  let provider ← attempt (buildProvider job.provider)
  let challenge ← attempt (challengeFromPayload job.orderId job.zoneName job.externalZoneId payload)
  let presented ← work (.presentDns01Challenge provider challenge)
  attempt presented
  acknowledgeDns01Challenge client payload
  return payload

/-- `finalize_certificate_order`. -/
def finalizeCertificateOrder (job : QueuedOrder) : WorkerM PersistIssuedCertificateRequest := do
  let provider ← attempt (buildProvider job.provider)
  let challenge ← attempt (challengeFromPayload job.orderId job.zoneName job.externalZoneId job.challengePayload)
  let material ← finalizeDns01Order client job
  let cleaned ← work (.cleanupDns01Challenge provider challenge)
  return {
    orderId := job.orderId
    siteId := job.siteId
    certificateId := job.certificateId
    orderType := job.orderType
    warningMessage := match cleaned with
      | .ok _ => none
      | .error e => some ("certificate issued but dns challenge cleanup failed: " ++ e)
    material := material }

/-- An update of an order, with `?`. -/
def updateStatus (orderId : Uuid) (status : String) (errorMessage : Option String) : WorkerM Unit := do
  let updated ← work (.updateOrderStatus orderId status errorMessage)
  attempt updated

/-- One turn of the loop of `process_pending_certificate_orders`. -/
def pendingTurn (job : QueuedOrder) : WorkerM Unit := do
  match ← caught (processDnsChallenge client job) with
  | .ok payload =>
    let updated ← work (.updateOrderChallengePayload job.orderId payload)
    attempt updated
    updateStatus job.orderId "dns_challenge_presented" none
  | .error e => updateStatus job.orderId "dns_challenge_failed" (some e)

/-- `process_pending_certificate_orders`. -/
def processPendingCertificateOrders (limit : Nat) : WorkerM Nat := do
  let jobs ← work (.claimPendingDnsOrders limit)
  (jobs : List QueuedOrder).forM (pendingTurn client)
  return (jobs : List QueuedOrder).length

/-- One turn of the loop of `process_presented_certificate_orders`. -/
def presentedTurn (job : QueuedOrder) : WorkerM Unit := do
  match ← caught (finalizeCertificateOrder client job) with
  | .ok request =>
    let persisted ← work (.persistIssuedCertificate request)
    attempt persisted
  | .error e => updateStatus job.orderId "issue_failed" (some e)

/-- `process_presented_certificate_orders`. -/
def processPresentedCertificateOrders (limit : Nat) : WorkerM Nat := do
  let jobs ← work (.claimReadyIssuanceOrders limit)
  (jobs : List QueuedOrder).forM (presentedTurn client)
  return (jobs : List QueuedOrder).length

end DnsWorker

/-! ## The hub and the worker -/

/-- What runs over the tables: requests to hub instances and batches of the worker. -/
inductive CertRequest where
  | hub (hub : Hub) (request : Request)
  | enqueue (now renewBefore : DateTime) (limit : Nat) (acmeProvider : String)
  | pending (client : AcmeClient) (limit : Nat)
  | presented (client : AcmeClient) (limit : Nat)

/-- The calls of both. -/
abbrev certSig : Sig := (hubSig.faulty AppError).join workerSig

section Serve

variable (p : Platform) (rows : RowOrder) (acme : AcmeServer) (net : Nat → Delivery)

/-- What each call does. -/
def certHandler : Handler certSig CertState := .join (certHubHandler p rows) (workerHandler p rows acme net)

/-- A batch of the worker. -/
def workerBatch : CertRequest → WorkerM Nat
  | .hub _ _ => pure 0
  | .enqueue now renewBefore limit acmeProvider => DnsWorker.enqueueDueRenewalOrders now renewBefore limit acmeProvider
  | .pending client limit => DnsWorker.processPendingCertificateOrders client limit
  | .presented client limit => DnsWorker.processPresentedCertificateOrders client limit

/-- The program of each. -/
def certProgram : CertRequest → Prog certSig Unit
  | .hub hub request => Prog.onLeft (ExceptT.run (certRequest p hub request)) >>= fun _ => .ret ()
  | q => Prog.onRight (ExceptT.run (workerBatch q)) >>= fun _ => .ret ()

/-- The tables after a request or a batch that nothing interrupts. -/
def CertState.serve (s : CertState) (q : CertRequest) : CertState :=
  (Prog.run (certHandler p rows acme net) (certProgram p q) s).2

/-- Requests and batches one after another. -/
def CertState.serveAll (s : CertState) (qs : List CertRequest) : CertState :=
  qs.foldl (CertState.serve p rows acme net) s

/-- Each request meets a condition on the tables it finds. -/
def CertState.Meets (cond : CertState → CertRequest → Prop) : CertState → List CertRequest → Prop
  | _, [] => True
  | s, q :: qs => cond s q ∧ (s.serve p rows acme net q).Meets cond qs

instance CertState.decidableMeets {cond : CertState → CertRequest → Prop} [∀ s q, Decidable (cond s q)] :
    ∀ s qs, Decidable (CertState.Meets p rows acme net cond s qs)
  | _, [] => inferInstanceAs (Decidable True)
  | s, q :: qs => @instDecidableAnd _ _ _ (decidableMeets (s.serve p rows acme net q) qs)

theorem CertState.serve_hub (s : CertState) (hub : Hub) (request : Request) :
    s.serve p rows acme net (.hub hub request) = (Fallible.run (certHubHandler p rows)
      (certRequest p hub request) s).2 := by
  rw [serve, certProgram, certHandler, Prog.run_bind, Prog.run_onLeft]
  rfl

theorem CertState.serve_worker (s : CertState) {q : CertRequest} (hq : ∀ hub request, q ≠ .hub hub request) :
    s.serve p rows acme net q = (Fallible.run (workerHandler p rows acme net) (workerBatch q) s).2 := by
  have hprog : certProgram p q = Prog.onRight (ExceptT.run (workerBatch q)) >>= fun _ => .ret () := by
    cases q with
    | hub hub request => exact absurd rfl (hq hub request)
    | _ => rfl
  rw [serve, hprog, certHandler, Prog.run_bind, Prog.run_onRight]
  rfl

/-- What every request keeps holds all along a run. -/
theorem CertState.serveAll_keeps {cond : CertState → CertRequest → Prop} {I : CertState → Prop}
    (hI : ∀ s q, cond s q → I s → I (s.serve p rows acme net q)) {s : CertState} (hs : I s) {qs pre : List CertRequest}
    (hqs : s.Meets p rows acme net cond qs) (hpre : pre <+: qs) : I (s.serveAll p rows acme net pre) := by
  induction pre generalizing s qs with
  | nil => exact hs
  | cons q pre ih =>
    obtain ⟨rest, rfl⟩ := hpre
    exact ih (hI s q hqs.1 hs) hqs.2 (List.prefix_append pre rest)

end Serve

/-! ## Runs to look at -/

/-- Empty tables. -/
def CertState.init (remote : RemoteDns) : CertState := ⟨World.init, [], [], remote⟩

/-- An ACME server that refuses everything. -/
def AcmeServer.refusing : AcmeServer where
  newOrder _ _ := .error "refused"
  acknowledge _ _ := .error "refused"
  authorized _ _ := .error "refused"
  issue _ _ := .error "refused"

/-- The mock client's side of things: each certificate has a fingerprint of its own. -/
def AcmeServer.issuing : AcmeServer where
  newOrder _ _ := .error "refused"
  acknowledge _ _ := .ok ()
  authorized _ _ := .ok ()
  issue n _ := .ok {
    notAfter := DateTime.seconds 7776000, certPem := "cert", keyPemEncrypted := "key", chainPem := none
    fingerprintSha256 := Nat.repr n }

/-- A request to the first hub instance. -/
def CertRequest.ask (request : Request) : CertRequest := .hub ⟨0, 30⟩ request

/-- A provider, the zone `example.com`, and a site with TLS in it, which is site 2. -/
def tlsSetup : List CertRequest :=
  [.ask (.createDnsProvider { name := "noop", providerType := "noop", apiEndpoint := none, credentials := .object [] }),
   .ask (.syncDnsZones { providerId := 0, zoneNames := ["example.com"] }),
   .ask (.createSite {
    siteCode := none, name := "www", domain := "www.example.com", listenPort := 443, protocol := "https"
    tlsEnabled := true, config := .object [] })]

end PingoraMesh
