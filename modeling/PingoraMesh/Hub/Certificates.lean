import PingoraMesh.Hub.Sites

/-!
# DNS providers, zones and certificate orders

The requests of `HubService` on DNS providers and zones and on certificate orders.
-/

namespace PingoraMesh

open Calls Fallible

/-! ## Pure parts -/

/-- `validate_dns_provider_type`. -/
def validateDnsProviderType (type : String) : Except AppError Unit :=
  if type ∈ ["cloudflare", "alidns", "route53", "dnspod", "custom", "noop"] then .ok ()
  else .error (.badRequest "unsupported dns provider type")

/-- `certificate_dns_domain`. -/
def certificateDnsDomain (identifier : String) : String := (Text.stripStart identifier "*.").getD identifier

/-- A label of a certificate domain. -/
def validLabel (label : String) : Bool :=
  !Text.isEmpty label && !Text.startsWith label "-" && !Text.endsWith label "-" &&
    label.toList.all fun c => c.isAlphanum || c == '-'

/-- `normalize_certificate_identifier`. -/
def normalizeCertificateIdentifier (raw : String) : Except AppError String :=
  let value := Text.toAsciiLowercase (Text.trimEndMatches '.' (Text.trim raw))
  if Text.isEmpty value then .error (.badRequest "certificate domain is required")
  else if Text.contains value "://" || Text.containsChar value '/' || Text.containsChar value ':' then
    .error (.badRequest "certificate domain must be a dns name")
  else if Text.containsChar value '*' && !Text.startsWith value "*." then
    .error (.badRequest "wildcard certificate must use the left-most *. label")
  else
    let base := certificateDnsDomain value
    if !Text.containsChar base '.' then .error (.badRequest "certificate domain must include a zone")
    else if (Text.split base '.').all validLabel then .ok value
    else .error (.badRequest "certificate domain contains an invalid label")

/-- `normalize_certificate_sans`: the common name first, each identifier once. -/
def normalizeCertificateSans (commonName : String) (rawSans : List String) : Except AppError (List String) := do
  let identifiers ← (commonName :: rawSans).mapM normalizeCertificateIdentifier
  return (identifiers.foldl (fun sans i => if sans.contains i then sans else i :: sans) []).reverse

/-- `dns01_record_name`. -/
def dns01RecordName (identifier : String) : String := "_acme-challenge." ++ certificateDnsDomain identifier

/-- `domain_matches_zone`. -/
def domainMatchesZone (domain zoneName : String) : Bool :=
  let domain := Text.toAsciiLowercase (Text.trimEndMatches '.' (certificateDnsDomain domain))
  let zoneName := Text.toAsciiLowercase (Text.trimEndMatches '.' (Text.trim zoneName))
  domain == zoneName || Text.endsWith domain ("." ++ zoneName)

/-- `is_failed_certificate_order_status`. -/
def isFailedCertificateOrderStatus (status : String) : Bool :=
  status == "dns_challenge_failed" || status == "issue_failed"

/-- `normalize_cert_auto_renew_before_days`. -/
def normalizeCertAutoRenewBeforeDays (value : Int) : Int := max value 1

/-- `certificate_order_overview`, with `next_certificate_renew_at`. -/
def certificateOrderOverview (order : CertificateOrderRecord) (renewBeforeDays : Int) : CertificateOrderOverview :=
  { orderId := order.orderId
    siteId := order.siteId
    certificateId := order.certificateId
    zoneId := order.zoneId
    orderType := order.orderType
    acmeProvider := order.acmeProvider
    challengeType := order.challengeType
    orderStatus := order.orderStatus
    challengePayload := order.challengePayload
    errorMessage := order.errorMessage
    certificateExpiresAt := order.certificateExpiresAt
    nextRenewAt := order.certificateExpiresAt.map fun t =>
      t - DateTime.days (normalizeCertAutoRenewBeforeDays renewBeforeDays)
    createdAt := order.createdAt }

/-- `requeue_certificate_order`, the record: back to the first state, with an empty payload. -/
def requeuedOrder (order : CertificateOrderRecord) : CertificateOrderRecord :=
  { order with orderStatus := "pending_dns_challenge", challengePayload := .object [], errorMessage := none }

namespace HubService

/-! ## Providers -/

/-- `create_dns_provider`. -/
def createDnsProvider (request : CreateDnsProviderRequest) : HubM CreateDnsProviderResponse := do
  attempt (validateDnsProviderType request.providerType)
  let existing ← repo (.dnsProviderByName request.name)
  ensure existing.isNone (.conflict "dns provider name already exists")
  let providerId ← repo .newUuid
  let now ← repo .utcNow
  repo (.saveDnsProvider {
    providerId := providerId
    name := request.name
    providerType := request.providerType
    apiEndpoint := request.apiEndpoint
    credentials := request.credentials
    status := "active"
    createdAt := now })
  return { providerId := providerId, name := request.name, status := "active" }

/-- `update_dns_provider`. -/
def updateDnsProvider (providerId : Uuid) (request : CreateDnsProviderRequest) : HubM CreateDnsProviderResponse := do
  attempt (validateDnsProviderType request.providerType)
  let existing ← okOr (← repo (.dnsProvider providerId)) (.notFound "dns provider not found")
  let duplicated ← repo (.dnsProviderByName request.name)
  ensure (duplicated.all (·.providerId == providerId)) (.conflict "dns provider name already exists")
  repo (.saveDnsProvider {
    providerId := providerId
    name := request.name
    providerType := request.providerType
    apiEndpoint := request.apiEndpoint
    credentials := request.credentials
    status := existing.status
    createdAt := existing.createdAt })
  return { providerId := providerId, name := request.name, status := existing.status }

/-- `delete_dns_provider`. -/
def deleteDnsProvider (providerId : Uuid) : HubM DeleteDnsProviderResponse := do
  let provider ← okOr (← repo (.dnsProvider providerId)) (.notFound "dns provider not found")
  let zones ← repo .listDnsZones
  ensure (!zones.any (·.providerId == providerId))
    (.conflict "dns provider still owns synced zones; delete or disable those zones first")
  repo (.deleteDnsProvider providerId)
  return { providerId := providerId, name := provider.name, deleted := true }

/-! ## Zones -/

/-- The loop of `sync_dns_zones`. -/
def syncZones (providerId : Uuid) : List ProviderZone → HubM (List Uuid)
  | [] => pure []
  | info :: infos => do
    let existing ← repo (.dnsZoneByProviderName providerId info.zoneName)
    let zoneId ← getOr (existing.map (·.zoneId)) (repo .newUuid)
    let now ← repo .utcNow
    repo (.saveDnsZone {
      zoneId := zoneId
      providerId := providerId
      zoneName := info.zoneName
      externalZoneId := info.zoneId
      status := info.status
      createdAt := now })
    let rest ← syncZones providerId infos
    return zoneId :: rest

/-- `sync_dns_zones`. -/
def syncDnsZones (request : SyncDnsZonesRequest) : HubM SyncDnsZonesResponse := do
  ensure (!request.zoneNames.isEmpty) (.badRequest "zone_names must not be empty")
  let provider ← okOr (← repo (.dnsProvider request.providerId)) (.notFound "dns provider not found")
  let config : ProviderConfig :=
    { providerType := provider.providerType, apiEndpoint := provider.apiEndpoint, credentials := provider.credentials }
  let listed ← repo (.listZones config request.zoneNames)
  let infos ← attempt (listed.mapError .badRequest)
  ensure (!infos.isEmpty) (.notFound "no dns zones found from provider")
  let zoneIds ← syncZones request.providerId infos
  return { providerId := request.providerId, zoneIds := zoneIds }

/-- `update_dns_zone_status`. -/
def updateDnsZoneStatus (zoneId : Uuid) (enabled : Bool) : HubM UpdateDnsZoneStatusResponse := do
  let zone ← okOr (← repo (.dnsZone zoneId)) (.notFound "dns zone not found")
  let status := if enabled then "active" else "disabled"
  repo (.saveDnsZone { zone with status := status })
  return { zoneId := zoneId, zoneName := zone.zoneName, status := status }

/-- `delete_dns_zone`. -/
def deleteDnsZone (zoneId : Uuid) : HubM DeleteDnsZoneResponse := do
  let zone ← okOr (← repo (.dnsZone zoneId)) (.notFound "dns zone not found")
  let orders ← repo .listCertificateOrders
  ensure (!orders.any (·.zoneId == zoneId)) (.conflict "dns zone is still referenced by certificate orders")
  repo (.deleteDnsZone zoneId)
  return { zoneId := zoneId, zoneName := zone.zoneName, deleted := true }

/-! ## Certificate orders -/

/-- The certificate of a new order: the given one, or a new one in staging. -/
def orderCertificate (certificateId : Option Uuid) (commonName : String) (sans : List String) : HubM Uuid :=
  getOr certificateId do
    let id ← repo .newUuid
    let code ← repo .newUuid
    let stub ← repo .newUuid
    let now ← repo .utcNow
    repo (.saveCertificate {
      certificateId := id
      certCode := "cert-" ++ Uuid.hyphenated code
      commonName := commonName
      sans := sans
      fingerprintSha256 := "stub-" ++ Uuid.hyphenated stub
      status := "staging"
      expiresAt := none
      createdAt := now })
    return id

/-- `issue_certificate_order`. -/
def issueCertificateOrder (siteId certificateId : Option Uuid) (commonName : String) (sans : List String)
    (zoneId : Uuid) (zoneName acmeProvider orderType : String) : HubM CreateCertificateOrderResponse := do
  let certificateId ← orderCertificate certificateId commonName sans
  let token ← repo .newUuid
  let challengePayload : Value := .object
    [("zone_name", .string zoneName), ("identifier", .string commonName), ("sans", .strings sans),
     ("record_name", .string (dns01RecordName commonName)), ("record_type", .string "TXT"),
     ("record_value", .string ("token-" ++ Uuid.hyphenated token)), ("ttl", .ofInt 60)]
  let orderId ← repo .newUuid
  let now ← repo .utcNow
  repo (.saveCertificateOrder {
    orderId := orderId
    siteId := siteId
    certificateId := some certificateId
    zoneId := zoneId
    orderType := orderType
    acmeProvider := acmeProvider
    challengeType := "dns-01"
    challengePayload := challengePayload
    orderStatus := "pending_dns_challenge"
    errorMessage := none
    certificateExpiresAt := none
    createdAt := now })
  return {
    orderId := orderId
    certificateId := some certificateId
    orderStatus := "pending_dns_challenge"
    challengePayload := challengePayload }

/-- The site of a certificate request, if it names one. -/
def requestedSite : Option Uuid → HubM (Option SiteRecord)
  | none => pure none
  | some id => do
    let site ← okOr (← repo (.site id)) (.notFound "site not found")
    return some site

/-- `create_certificate_order`. -/
def createCertificateOrder (request : CreateCertificateOrderRequest) : HubM CreateCertificateOrderResponse := do
  ensure (request.challengeType == "dns-01") (.badRequest "only dns-01 challenge is implemented")
  let site ← requestedSite request.siteId
  let given := (request.domain.map Text.trim).filter fun v => !Text.isEmpty v
  let domain ← okOr (given <|> site.map (·.domain))
    (.badRequest "domain is required for standalone certificate orders")
  let commonName ← attempt (normalizeCertificateIdentifier domain)
  let sans ← attempt (normalizeCertificateSans commonName request.sans)
  ensure (!decide (1 < sans.length))
    (.badRequest "real acme certificate orders currently support a single dns identifier")
  let zone ← okOr (← repo (.dnsZone request.zoneId)) (.notFound "dns zone not found")
  ensure (zone.status == "active") (.badRequest "dns zone must be active")
  ensure (domainMatchesZone commonName zone.zoneName)
    (.badRequest "certificate domain is not covered by selected dns zone")
  issueCertificateOrder (site.map (·.id)) none commonName sans request.zoneId zone.zoneName request.acmeProvider "issue"

/-- An order that keeps `renew_site_certificate` from placing another. -/
def activeOrderOf (siteId : Uuid) (certificateId : Option Uuid) (order : CertificateOrderRecord) : Bool :=
  (order.siteId == some siteId || (certificateId.isSome && order.certificateId == certificateId)) &&
    !(["issued", "dns_challenge_failed", "issue_failed"].contains order.orderStatus)

/-- The zone of `renew_site_certificate`: of the active zones that cover the name the last of the longest. -/
def renewalZone (zones : List DnsZoneRecord) (commonName : String) : Option DnsZoneRecord :=
  maxBy (fun l r => compare l.zoneName.utf8ByteSize r.zoneName.utf8ByteSize)
    (zones.filter fun zone => zone.status == "active" && domainMatchesZone commonName zone.zoneName)

/-- `renew_site_certificate`. -/
def renewSiteCertificate (siteId : Uuid) : HubM RenewSiteCertificateResponse := do
  let site ← okOr (← repo (.site siteId)) (.notFound "site not found")
  ensure (site.tlsEnabled && site.protocol == .https)
    (.badRequest "only https/tls-enabled sites can renew certificates")
  let certificates ← repo (.siteCertificates siteId)
  let certificateId := certificates.head?.map (·.certificateId)
  let orders ← repo .listCertificateOrders
  forSome (orders.find? (activeOrderOf siteId certificateId)) fun order =>
    throw (.conflict ("site already has an active certificate order " ++ Uuid.hyphenated order.orderId ++
      " in status " ++ order.orderStatus))
  let commonName ← attempt (normalizeCertificateIdentifier site.domain)
  let zones ← repo .listDnsZones
  let zone ← okOr (renewalZone zones commonName) (.notFound "no matching dns zone found for site domain")
  let response ← issueCertificateOrder (some site.id) certificateId commonName [commonName] zone.zoneId zone.zoneName
    "letsencrypt-production" "renew"
  return {
    siteId := siteId
    domain := site.domain
    zoneId := zone.zoneId
    orderId := response.orderId
    certificateId := response.certificateId
    orderStatus := response.orderStatus }

/-- `requeue_certificate_order`. -/
def requeueCertificateOrder (renewBeforeDays : Int) (order : CertificateOrderRecord) (action : String) :
    HubM CertificateOrderOverview := do
  ensure (order.orderStatus != "issued") (.conflict ("cannot " ++ action ++ " an issued certificate order"))
  repo (.saveCertificateOrder (requeuedOrder order))
  return certificateOrderOverview (requeuedOrder order) renewBeforeDays

/-- `retry_certificate_order`. -/
def retryCertificateOrder (renewBeforeDays : Int) (orderId : Uuid) : HubM CertificateOrderOverview := do
  let order ← okOr (← repo (.certificateOrder orderId)) (.notFound "certificate order not found")
  ensure (isFailedCertificateOrderStatus order.orderStatus) (.conflict "only failed certificate orders can be retried")
  requeueCertificateOrder renewBeforeDays order "retry"

/-- `reset_certificate_order`. -/
def resetCertificateOrder (renewBeforeDays : Int) (orderId : Uuid) : HubM CertificateOrderOverview := do
  let order ← okOr (← repo (.certificateOrder orderId)) (.notFound "certificate order not found")
  ensure (order.orderStatus != "issued") (.conflict "issued certificate orders cannot be reset")
  requeueCertificateOrder renewBeforeDays order "reset"

end HubService

end PingoraMesh
