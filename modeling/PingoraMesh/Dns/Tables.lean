import PingoraMesh.Hub.Service
import PingoraMesh.Lib.Faulty

/-!
# The tables of the certificates

The hub and the dns-worker share the PostgreSQL tables of sites, zones, certificates and certificate orders.
`CertState` is the world of the hub with the tables that only the database has: `certificate_versions` and
`site_cert_bindings`; the service behind the DNS provider is beside them.

The database refuses an order that refers to what does not exist, and a second active renewal of a certificate
(`indexRefuses`, the unique partial index of migration 0005). `certHubHandler` carries out the calls of the hub: a
refusal is an error of the call, and ends the request.

A query without a complete order may give its rows in any order (`RowOrder`).
-/

namespace PingoraMesh

open Calls Fallible

/-! ## Rows -/

/-- A row of `certificate_versions`. -/
structure CertificateVersion where
  certificateId : Uuid
  version : Nat
  certPem : String
  keyPemEncrypted : String
  chainPem : Option String
  deriving DecidableEq, Repr

/-- A row of `site_cert_bindings`. -/
structure SiteCertBinding where
  siteId : Uuid
  certificateId : Uuid
  version : Nat
  isDefault : Bool
  createdAt : DateTime
  deriving DecidableEq, Repr

/-- The tables and the DNS service. -/
structure CertState where
  world : World
  versions : List CertificateVersion
  bindings : List SiteCertBinding
  remote : RemoteDns

/-- The order in which the database gives rows that a query leaves in no order, by the number of the query. -/
structure RowOrder where
  orders : Nat → List CertificateOrderRecord → List CertificateOrderRecord
  certificates : Nat → List CertificateRecord → List CertificateRecord
  zones : Nat → List DnsZoneRecord → List DnsZoneRecord
  orders_perm : ∀ n l, (orders n l).Perm l
  certificates_perm : ∀ n l, (certificates n l).Perm l
  zones_perm : ∀ n l, (zones n l).Perm l

/-- Rows as they are stored. -/
def RowOrder.plain : RowOrder :=
  ⟨fun _ l => l, fun _ l => l, fun _ l => l, fun _ l => .refl l, fun _ l => .refl l, fun _ l => .refl l⟩

/-! ## Constraints -/

/-- `ACTIVE_RENEWAL_ORDER_STATUSES`. -/
def activeRenewalOrderStatuses : List String :=
  ["pending_dns_challenge", "dns_challenge_presenting", "dns_challenge_presented", "issuing"]

/-- `is_active_renewal_order_status`. -/
def isActiveRenewalOrderStatus (status : String) : Bool := activeRenewalOrderStatuses.contains status

/-- A renewal under way. -/
def CertificateOrderRecord.activeRenewal (order : CertificateOrderRecord) : Bool :=
  order.orderType == "renew" && isActiveRenewalOrderStatus order.orderStatus

/-- `idx_certificate_orders_one_active_renew`: another row has the key of this one. -/
def indexRefuses (orders : HashMap Uuid CertificateOrderRecord) (order : CertificateOrderRecord) : Bool :=
  order.certificateId.isSome && order.activeRenewal &&
    orders.values.any fun other =>
      other.orderId != order.orderId && other.activeRenewal && other.certificateId == order.certificateId

/-- What an order refers to exists. -/
def MemoryState.hasReferences (order : CertificateOrderRecord) (s : MemoryState) : Bool :=
  order.siteId.all s.sites.contains && order.certificateId.all s.certificates.contains &&
    s.dnsZones.contains order.zoneId

namespace CertState

/-- Other contents of the tables of the hub. -/
def onStore (f : MemoryState → MemoryState) (s : CertState) : CertState :=
  { s with world := { s.world with store := f s.world.store } }

/-- The table of orders. -/
abbrev orders (s : CertState) : HashMap Uuid CertificateOrderRecord := s.world.store.certificateOrders

/-- `INSERT INTO certificate_orders ... ON CONFLICT (id) DO UPDATE`. -/
def putOrder (order : CertificateOrderRecord) (s : CertState) : Except String CertState :=
  if !s.world.store.hasReferences order then .error "violates foreign key constraint"
  else if indexRefuses s.orders order then .error "violates unique constraint idx_certificate_orders_one_active_renew"
  else .ok (s.onStore (·.saveCertificateOrder order))

/-- `UPDATE certificate_orders SET ... WHERE id = ...`. -/
def updateOrder (orderId : Uuid) (f : CertificateOrderRecord → CertificateOrderRecord) (s : CertState) :
    Except String CertState :=
  match s.orders[orderId]? with
  | none => .ok s
  | some order =>
    if indexRefuses s.orders (f order) then .error "violates unique constraint idx_certificate_orders_one_active_renew"
    else .ok (s.onStore (·.saveCertificateOrder (f order)))

/-! ## Queries of the hub -/

/-- An order with the expiry of its certificate. -/
def joined (s : CertState) (order : CertificateOrderRecord) : CertificateOrderRecord :=
  { order with
    certificateExpiresAt := (order.certificateId.bind fun id => s.world.store.certificates[id]?).bind (·.expiresAt) }

/-- The certificate of a binding. -/
def certificateRef (s : CertState) (b : SiteCertBinding) : Option CertificateRef := do
  let certificate ← s.world.store.certificates[b.certificateId]?
  let version ← s.versions.find? fun v => v.certificateId == b.certificateId && v.version == b.version
  return {
    certificateId := b.certificateId
    version := b.version
    commonName := certificate.commonName
    sans := certificate.sans
    expiresAt := certificate.expiresAt
    certPem := version.certPem
    keyPemEncrypted := version.keyPemEncrypted
    chainPem := version.chainPem }

/-- `site_certificates`. -/
def siteCertificates (s : CertState) (siteId : Uuid) : List CertificateRef :=
  ((s.bindings.filter fun b => b.siteId == siteId && b.isDefault).insertionSort
    fun l r => r.createdAt ≤ l.createdAt).filterMap s.certificateRef

end CertState

variable (p : Platform) (rows : RowOrder)

/-- What the calls of the hub do. -/
def certHubHandler : Handler (hubSig.faulty AppError) CertState := fun c s =>
  match c with
  | .saveCertificateOrder order =>
    match s.putOrder order with
    | .ok s' => (.answer (), s')
    | .error e => (.error (.internal e), s)
  | .certificateOrder orderId => (.answer ((s.orders[orderId]?).map s.joined), s)
  | .listCertificateOrders =>
    (.answer (((rows.orders s.world.tick s.orders.values).insertionSort
      fun l r => r.createdAt ≤ l.createdAt).map s.joined), s)
  | .listDnsZones =>
    (.answer ((rows.zones s.world.tick s.world.store.dnsZones.values).insertionSort
      fun l r => r.createdAt ≤ l.createdAt), s)
  | .siteCertificates siteId => (.answer (s.siteCertificates siteId), s)
  | .deleteSite siteId =>
    (.answer (), { s.onStore (·.deleteSite siteId) with bindings := s.bindings.filter fun b => b.siteId != siteId })
  | c => (.answer (hubHandler p c s.world).1, { s with world := (hubHandler p c s.world).2 })

/-- A request of the hub over calls that the database may refuse. -/
def certRequest (hub : Hub) (request : Request) : Fallible (hubSig.faulty AppError) (Option AppError) Unit :=
  faulty (HubService.program p hub request)

end PingoraMesh
