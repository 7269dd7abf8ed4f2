import PingoraMesh.Hub.Service

/-!
# The HTTP front of the hub

The router and the handlers of `apps/hub-api/src/main.rs`. A handler takes its input from the request, checks a session
cookie or a bearer token, and calls `HubService`.

* `extractCookieValue` and `extractBearerToken` read the credentials of a request;
* `Endpoint` names the handlers, each with its input (`Endpoint.input`), the type of its body (`Endpoint.Out`) and its
  program (`Endpoint.run`);
* `routes` is the table of `build_router`, and `Front.program` the program of a request.
-/

namespace PingoraMesh.HubApi

open Calls Fallible

/-! ## Headers -/

/-- `ADMIN_SESSION_COOKIE`. -/
def adminSessionCookie : String := "pingorahub_admin_session"

/-- The names of the headers of a request in lower case, each with the bytes of its value. -/
abbrev HeaderMap := List (String × String)

/-- `HeaderValue::to_str`: every byte is visible ASCII, a blank or a tab. -/
def headerText (value : String) : Option String :=
  if value.toList.all fun c => c == '\t' || (32 ≤ c.toNat && c.toNat < 127) then some value else none

/-- `HeaderValue::from_str`: no control character but the tab. -/
def headerValue (text : String) : Except AppError String :=
  if text.toList.all fun c => c == '\t' || (32 ≤ c.toNat && c.toNat != 127) then .ok text
  else .error (.internal "failed to parse header value")

/-- `str::split_once` at a character. -/
def splitOnce (c : Char) (s : String) : Option (String × String) :=
  match s.toList.span (· != c) with
  | (before, _ :: after) => some (.ofList before, .ofList after)
  | (_, []) => none

/-- An item of a cookie header, if it is the cookie of the given name. -/
def cookieItem (cookieName item : String) : Option String :=
  (splitOnce '=' (Text.trim item)).bind fun (name, value) => if name = cookieName then some value else none

/-- `extract_cookie_value`: the first item of that name in the first cookie header. -/
def extractCookieValue (headers : HeaderMap) (cookieName : String) : Option String :=
  ((headers.lookup "cookie").bind headerText).bind fun raw => (Text.split raw ';').findSome? (cookieItem cookieName)

/-- `extract_admin_session_cookie`. -/
def extractAdminSessionCookie (headers : HeaderMap) : Except AppError String :=
  match extractCookieValue headers adminSessionCookie with
  | some token => .ok token
  | none => .error (.unauthorized "missing admin session")

/-- `extract_bearer_token`. -/
def extractBearerToken (headers : HeaderMap) : Except AppError String :=
  match headers.lookup "authorization" with
  | none => .error (.unauthorized "missing Authorization header")
  | some value =>
    match headerText value with
    | none => .error (.unauthorized "invalid Authorization header")
    | some text =>
      match Text.stripStart text "Bearer " with
      | none => .error (.unauthorized "Authorization header must use Bearer token")
      | some token =>
        if Text.isEmpty (Text.trim token) then .error (.unauthorized "Bearer token must not be empty") else .ok token

/-- The attributes of a session cookie, after its value. -/
def cookieAttributes (maxAgeSeconds : Int) : String :=
  "; Path=/; HttpOnly; SameSite=Lax; Max-Age=" ++ toString maxAgeSeconds

/-- `build_session_cookie`. -/
def buildSessionCookie (value : String) (maxAgeSeconds : Int) : Except AppError String :=
  headerValue (adminSessionCookie ++ "=" ++ value ++ cookieAttributes maxAgeSeconds)

/-- `clear_session_cookie`. -/
def clearSessionCookie : Except AppError String := headerValue (adminSessionCookie ++ "=" ++ cookieAttributes 0)

/-! ## Requests and replies -/

inductive Method where
  | get
  | head
  | post
  | put
  | delete
  deriving DecidableEq, Repr

/-- A request: `query` are its pairs, decoded. -/
structure HttpRequest where
  method : Method
  path : String
  query : List (String × String)
  headers : HeaderMap
  body : String

/-- A reply: its status, the headers that handlers set, and its body. -/
structure Reply (α : Type) where
  status : Nat
  setCookie : Option String
  location : Option String
  body : α

/-- `Json(ApiResponse::ok(..))`. -/
def Reply.json {α : Type} (a : α) : Reply α := { status := 200, setCookie := none, location := none, body := a }

/-- `Redirect::to`. -/
def Reply.redirect {α : Type} (uri : String) : Reply (Option α) :=
  { status := 303, setCookie := none, location := some uri, body := none }

/-- What goes wrong: the extractors reject the request, or the handler returns an error. -/
inductive HttpError where
  | rejected (status : Nat)
  | app (e : AppError)
  deriving DecidableEq, Repr

/-- The status of `AppError::into_response`. -/
def errorStatus : ErrorCode → Nat
  | .badRequest => 400
  | .notFound => 404
  | .conflict => 409
  | .unauthorized => 401
  | .internal => 500

/-- The status of the response to an error. -/
def HttpError.status : HttpError → Nat
  | .rejected status => status
  | .app e => errorStatus e.code

/-- The pages and scripts of the console. -/
inductive Page where
  | consoleIndex
  | consoleStyles
  | consoleScript
  | consoleIconfont
  | loginIndex
  | loginStyles
  | loginScript
  deriving DecidableEq, Repr

/-- `HealthPayload`. -/
structure HealthPayload where
  service : String
  status : String

/-- `AdminMetaPayload`. -/
structure AdminMetaPayload where
  service : String
  bind : String
  etcdPrefix : String
  components : List String

/-! ## The handlers and their input -/

/-- The types of JSON bodies. -/
inductive BodyKind where
  | adminLogin
  | changeAdminPassword
  | createNode
  | createNodeOperation
  | createOperationTemplate
  | nodeRegister
  | nodeRefresh
  | nodeHeartbeat
  | createSite
  | updateSite
  | createSiteBindings
  | switchSitePrimary
  | createRelease
  | createDnsProvider
  | syncDnsZones
  | createCertificateOrder
  | releaseAck
  | operationResult

/-- The type of a JSON body. -/
@[reducible] def BodyKind.Body : BodyKind → Type
  | .adminLogin => AdminLoginRequest
  | .changeAdminPassword => ChangeAdminPasswordRequest
  | .createNode => CreateNodeRequest
  | .createNodeOperation => CreateNodeOperationRequest
  | .createOperationTemplate => CreateOperationTemplateRequest
  | .nodeRegister => NodeRegisterRequest
  | .nodeRefresh => NodeRefreshRequest
  | .nodeHeartbeat => NodeHeartbeatRequest
  | .createSite => CreateSiteRequest
  | .updateSite => UpdateSiteRequest
  | .createSiteBindings => List SiteBindingItem
  | .switchSitePrimary => SwitchSitePrimaryRequest
  | .createRelease => CreateReleaseRequest
  | .createDnsProvider => CreateDnsProviderRequest
  | .syncDnsZones => SyncDnsZonesRequest
  | .createCertificateOrder => CreateCertificateOrderRequest
  | .releaseAck => ReleaseAckRequest
  | .operationResult => OperationResultRequest

/-- What a handler takes from a request, besides its headers. -/
inductive Input where
  | nothing
  | path
  | query
  | json (t : BodyKind)
  | pathJson (t : BodyKind)
  | pathQuery

/-- The type of an input. -/
@[reducible] def Input.Args : Input → Type
  | .nothing => Unit
  | .path => Uuid
  | .query => Uuid
  | .json t => t.Body
  | .pathJson t => Uuid × t.Body
  | .pathQuery => String × Uuid

/-- What `main` sets up: the hub instance with its configuration. How a body is read comes from outside; a rejection has
a status. -/
structure Front where
  hub : Hub
  bind : String
  etcdPrefix : String
  json : (t : BodyKind) → HttpRequest → Except Nat t.Body

/-- `Path<Uuid>`. -/
def pathUuid : List String → Except Nat Uuid
  | [segment] =>
    match Uuid.parseStr segment with
    | some id => .ok id
    | none => .error 400
  | _ => .error 500

/-- `Query<NodeScopedQuery>`: exactly one identifier of a node. -/
def nodeScopedQuery (query : List (String × String)) : Except Nat Uuid :=
  match query.filter (·.1 == "node_id") with
  | [(_, value)] =>
    match Uuid.parseStr value with
    | some id => .ok id
    | none => .error 400
  | _ => .error 400

/-- The extractors, in the order of the arguments. -/
def Input.read (x : Front) (r : HttpRequest) (params : List String) : (i : Input) → Except Nat i.Args
  | .nothing => .ok ()
  | .path => pathUuid params
  | .query => nodeScopedQuery r.query
  | .json t => x.json t r
  | .pathJson t => do
    let id ← pathUuid params
    let body ← x.json t r
    return (id, body)
  | .pathQuery =>
    match params with
    | [version] => do
      let nodeId ← nodeScopedQuery r.query
      return (version, nodeId)
    | _ => .error 500

/-- The handlers. -/
inductive Endpoint where
  | consoleEntry
  | consoleStyles
  | consoleScript
  | consoleIconfont
  | loginPage
  | loginStyles
  | loginScript
  | healthz
  | adminLogin
  | adminMe
  | changeAdminPassword
  | adminLogout
  | adminMeta
  | createNode
  | listNodes
  | getNodeDetail
  | deleteNode
  | createNodeOperation
  | listNodeOperations
  | createOperationTemplate
  | listOperationTemplates
  | updateOperationTemplate
  | deleteOperationTemplate
  | createSite
  | listSites
  | getSite
  | updateSite
  | deleteSite
  | bindSiteNodes
  | enableSite
  | disableSite
  | renewSiteCertificate
  | switchSitePrimary
  | createRelease
  | listReleases
  | createDnsProvider
  | listDnsProviders
  | updateDnsProvider
  | deleteDnsProvider
  | syncDnsZones
  | listDnsZones
  | enableDnsZone
  | disableDnsZone
  | deleteDnsZone
  | createCertificateOrder
  | listCertificateOrders
  | retryCertificateOrder
  | resetCertificateOrder
  | registerNode
  | refreshNodeAuth
  | nodeHeartbeat
  | latestRelease
  | configPackage
  | ackRelease
  | nextNodeOperation
  | reportNodeOperationResult
  deriving DecidableEq, Repr

namespace Endpoint

/-- The arguments of each handler, besides the headers. -/
@[reducible] def input : Endpoint → Input
  | .consoleEntry | .consoleStyles | .consoleScript | .consoleIconfont | .loginPage | .loginStyles | .loginScript
  | .healthz | .adminMe | .adminLogout | .adminMeta | .listNodes | .listOperationTemplates | .listSites | .listReleases
  | .listDnsProviders | .listDnsZones | .listCertificateOrders => .nothing
  | .getNodeDetail | .deleteNode | .listNodeOperations | .deleteOperationTemplate | .getSite | .deleteSite | .enableSite
  | .disableSite | .renewSiteCertificate | .deleteDnsProvider | .enableDnsZone | .disableDnsZone | .deleteDnsZone
  | .retryCertificateOrder | .resetCertificateOrder => .path
  | .latestRelease | .nextNodeOperation => .query
  | .adminLogin => .json .adminLogin
  | .changeAdminPassword => .json .changeAdminPassword
  | .createNode => .json .createNode
  | .createOperationTemplate => .json .createOperationTemplate
  | .createSite => .json .createSite
  | .createRelease => .json .createRelease
  | .createDnsProvider => .json .createDnsProvider
  | .syncDnsZones => .json .syncDnsZones
  | .createCertificateOrder => .json .createCertificateOrder
  | .registerNode => .json .nodeRegister
  | .refreshNodeAuth => .json .nodeRefresh
  | .nodeHeartbeat => .json .nodeHeartbeat
  | .createNodeOperation => .pathJson .createNodeOperation
  | .updateOperationTemplate => .pathJson .createOperationTemplate
  | .updateSite => .pathJson .updateSite
  | .bindSiteNodes => .pathJson .createSiteBindings
  | .switchSitePrimary => .pathJson .switchSitePrimary
  | .updateDnsProvider => .pathJson .createDnsProvider
  | .ackRelease => .pathJson .releaseAck
  | .reportNodeOperationResult => .pathJson .operationResult
  | .configPackage => .pathQuery

/-- The bodies of their replies. -/
@[reducible] def Out : Endpoint → Type
  | .consoleEntry | .loginPage => Option Page
  | .consoleStyles | .consoleScript | .consoleIconfont | .loginStyles | .loginScript => Page
  | .healthz => HealthPayload
  | .adminLogin | .adminMe => AdminSessionInfo
  | .changeAdminPassword => ChangeAdminPasswordResponse
  | .adminLogout => Unit
  | .adminMeta => AdminMetaPayload
  | .createNode => CreateNodeResponse
  | .listNodes => List NodeOverview
  | .getNodeDetail => NodeDetail
  | .deleteNode => DeleteNodeResponse
  | .createNodeOperation => NodeOperationOverview
  | .listNodeOperations => List NodeOperationOverview
  | .createOperationTemplate | .updateOperationTemplate => OperationTemplateOverview
  | .listOperationTemplates => List OperationTemplateOverview
  | .deleteOperationTemplate => DeleteOperationTemplateResponse
  | .createSite | .updateSite => CreateSiteResponse
  | .listSites => List SiteOverview
  | .getSite => SiteDetail
  | .deleteSite => DeleteSiteResponse
  | .bindSiteNodes => CreateSiteBindingsResponse
  | .enableSite | .disableSite => UpdateSiteStatusResponse
  | .renewSiteCertificate => RenewSiteCertificateResponse
  | .switchSitePrimary => SwitchSitePrimaryResponse
  | .createRelease => CreateReleaseResponse
  | .listReleases => List ReleaseOverview
  | .createDnsProvider | .updateDnsProvider => CreateDnsProviderResponse
  | .listDnsProviders => List DnsProviderOverview
  | .deleteDnsProvider => DeleteDnsProviderResponse
  | .syncDnsZones => SyncDnsZonesResponse
  | .listDnsZones => List DnsZoneOverview
  | .enableDnsZone | .disableDnsZone => UpdateDnsZoneStatusResponse
  | .deleteDnsZone => DeleteDnsZoneResponse
  | .createCertificateOrder => CreateCertificateOrderResponse
  | .listCertificateOrders => List CertificateOrderOverview
  | .retryCertificateOrder | .resetCertificateOrder => CertificateOrderOverview
  | .registerNode | .refreshNodeAuth => NodeTokensResponse
  | .nodeHeartbeat => NodeHeartbeatResponse
  | .latestRelease => LatestReleaseResponse
  | .configPackage => ConfigPackageResponse
  | .ackRelease => ReleaseAckResponse
  | .nextNodeOperation => PendingOperationResponse
  | .reportNodeOperationResult => OperationResultResponse

end Endpoint

/-! ## The programs of the handlers -/

section Programs

variable (p : Platform) (headers : HeaderMap)

/-- `require_admin_session`; the service checks a session alike in `authorize_admin_session` and `current_admin`. -/
def requireAdminSession : HubM AdminSessionInfo := do
  let token ← attempt (extractAdminSessionCookie headers)
  HubService.authorizeAdminSession p token

/-- A handler for administrators: the session, then the call of the service. -/
def adminJson {α : Type} (call : HubM α) : HubM (Reply α) := do
  let _ ← requireAdminSession p headers
  let response ← call
  return .json response

/-- A handler for nodes: the access token of the node, then the call of the service. -/
def nodeJson {α : Type} (nodeId : Uuid) (call : HubM α) : HubM (Reply α) := do
  let token ← attempt (extractBearerToken headers)
  HubService.authorizeNode nodeId token
  let response ← call
  return .json response

/-- What `console_entry` and `login_page` ask first: is there a session? -/
def hasSession : HubM Bool :=
  match extractCookieValue headers adminSessionCookie with
  | none => pure false
  | some token => do
    let session ← caught (HubService.authorizeAdminSession p token)
    return session.isOk

/-- `console_entry`. -/
def consoleEntry : HubM (Reply (Option Page)) := do
  if ← hasSession p headers then return .json (some .consoleIndex)
  return .redirect "/login"

/-- `login_page`. -/
def loginPage : HubM (Reply (Option Page)) := do
  if ← hasSession p headers then return .redirect "/"
  return .json (some .loginIndex)

/-- `admin_login`, with `json_with_session_cookie`. -/
def adminLogin (request : AdminLoginRequest) : HubM (Reply AdminSessionInfo) := do
  let (session, token) ← HubService.loginAdmin p request
  let now ← repo .utcNow
  let maxAge := max (Int.tdiv (session.expiresAt - now) DateTime.nanosPerSecond) 0
  let cookie ← attempt (buildSessionCookie token maxAge)
  return { Reply.json session with setCookie := some cookie }

/-- `admin_me`. -/
def adminMe : HubM (Reply AdminSessionInfo) := do
  let token ← attempt (extractAdminSessionCookie headers)
  let response ← HubService.authorizeAdminSession p token
  return .json response

/-- `change_admin_password`. -/
def changeAdminPassword (request : ChangeAdminPasswordRequest) : HubM (Reply ChangeAdminPasswordResponse) := do
  let token ← attempt (extractAdminSessionCookie headers)
  let response ← HubService.changeAdminPassword p token request
  return .json response

/-- `admin_logout`, with `json_with_clear_session_cookie`. -/
def adminLogout : HubM (Reply Unit) := do
  forSome (extractCookieValue headers adminSessionCookie) (HubService.logoutAdmin p)
  let cookie ← attempt clearSessionCookie
  return { Reply.json () with setCookie := some cookie }

/-- `create_node_operation`: it is requested by the administrator of the session. -/
def createNodeOperation (nodeId : Uuid) (request : CreateNodeOperationRequest) :
    HubM (Reply NodeOperationOverview) := do
  let admin ← requireAdminSession p headers
  let response ← HubService.createNodeOperation nodeId request ("admin:" ++ admin.username)
  return .json response

/-- What `next_node_operation` calls of the service. -/
def nextNodeOperation (nodeId : Uuid) : HubM PendingOperationResponse := do
  okOr (← HubService.claimNextNodeOperation nodeId) (.notFound "no pending operations")

end Programs

/-- The program of each handler. -/
def Endpoint.run (p : Platform) (x : Front) (headers : HeaderMap) :
    (h : Endpoint) → h.input.Args → HubM (Reply h.Out)
  | .consoleEntry, _ => HubApi.consoleEntry p headers
  | .consoleStyles, _ => return .json .consoleStyles
  | .consoleScript, _ => return .json .consoleScript
  | .consoleIconfont, _ => return .json .consoleIconfont
  | .loginPage, _ => HubApi.loginPage p headers
  | .loginStyles, _ => return .json .loginStyles
  | .loginScript, _ => return .json .loginScript
  | .healthz, _ => return .json { service := "hub-api", status := "ok" }
  | .adminLogin, r => HubApi.adminLogin p r
  | .adminMe, _ => HubApi.adminMe p headers
  | .changeAdminPassword, r => HubApi.changeAdminPassword p headers r
  | .adminLogout, _ => HubApi.adminLogout p headers
  | .adminMeta, _ => adminJson p headers (pure {
      service := "hub-api"
      bind := x.bind
      etcdPrefix := x.etcdPrefix
      components := ["node-management", "release-management", "dns-integration", "failover-orchestration"] })
  | .createNode, r => adminJson p headers (HubService.createNode p r)
  | .listNodes, _ => adminJson p headers HubService.listNodes
  | .getNodeDetail, nodeId => adminJson p headers (HubService.nodeDetail nodeId)
  | .deleteNode, nodeId => adminJson p headers (HubService.deleteNode nodeId)
  | .createNodeOperation, (nodeId, r) => HubApi.createNodeOperation p headers nodeId r
  | .listNodeOperations, nodeId => adminJson p headers (HubService.listNodeOperations nodeId)
  | .createOperationTemplate, r => adminJson p headers (HubService.createOperationTemplate p r)
  | .listOperationTemplates, _ => adminJson p headers HubService.listOperationTemplates
  | .updateOperationTemplate, (templateId, r) => adminJson p headers (HubService.updateOperationTemplate p templateId r)
  | .deleteOperationTemplate, templateId => adminJson p headers (HubService.deleteOperationTemplate templateId)
  | .createSite, r => adminJson p headers (HubService.createSite r)
  | .listSites, _ => adminJson p headers HubService.listSites
  | .getSite, siteId => adminJson p headers (HubService.siteDetail siteId)
  | .updateSite, (siteId, r) => adminJson p headers (HubService.updateSite siteId r)
  | .deleteSite, siteId => adminJson p headers (HubService.deleteSite p x.hub.id siteId)
  | .bindSiteNodes, (siteId, bindings) => adminJson p headers (HubService.bindSiteNodes siteId bindings)
  | .enableSite, siteId => adminJson p headers (HubService.updateSiteStatus p x.hub.id siteId true)
  | .disableSite, siteId => adminJson p headers (HubService.updateSiteStatus p x.hub.id siteId false)
  | .renewSiteCertificate, siteId => adminJson p headers (HubService.renewSiteCertificate siteId)
  | .switchSitePrimary, (siteId, r) => adminJson p headers (HubService.switchSitePrimary p x.hub.id siteId r)
  | .createRelease, r => adminJson p headers (HubService.createRelease p x.hub.id r)
  | .listReleases, _ => adminJson p headers HubService.listReleases
  | .createDnsProvider, r => adminJson p headers (HubService.createDnsProvider r)
  | .listDnsProviders, _ => adminJson p headers HubService.listDnsProviders
  | .updateDnsProvider, (providerId, r) => adminJson p headers (HubService.updateDnsProvider providerId r)
  | .deleteDnsProvider, providerId => adminJson p headers (HubService.deleteDnsProvider providerId)
  | .syncDnsZones, r => adminJson p headers (HubService.syncDnsZones r)
  | .listDnsZones, _ => adminJson p headers HubService.listDnsZones
  | .enableDnsZone, zoneId => adminJson p headers (HubService.updateDnsZoneStatus zoneId true)
  | .disableDnsZone, zoneId => adminJson p headers (HubService.updateDnsZoneStatus zoneId false)
  | .deleteDnsZone, zoneId => adminJson p headers (HubService.deleteDnsZone zoneId)
  | .createCertificateOrder, r => adminJson p headers (HubService.createCertificateOrder r)
  | .listCertificateOrders, _ => adminJson p headers (HubService.listCertificateOrders x.hub.certAutoRenewBeforeDays)
  | .retryCertificateOrder, orderId =>
    adminJson p headers (HubService.retryCertificateOrder x.hub.certAutoRenewBeforeDays orderId)
  | .resetCertificateOrder, orderId =>
    adminJson p headers (HubService.resetCertificateOrder x.hub.certAutoRenewBeforeDays orderId)
  | .registerNode, r => Reply.json <$> HubService.registerNode p r
  | .refreshNodeAuth, r => Reply.json <$> HubService.refreshNodeToken r
  | .nodeHeartbeat, r => nodeJson headers r.nodeId (HubService.nodeHeartbeat r)
  | .latestRelease, nodeId => nodeJson headers nodeId (HubService.latestReleaseForNode nodeId)
  | .configPackage, (version, nodeId) => nodeJson headers nodeId (HubService.configPackageForNode nodeId version)
  | .ackRelease, (releaseId, r) => nodeJson headers r.nodeId (HubService.ackRelease releaseId r)
  | .nextNodeOperation, nodeId => nodeJson headers nodeId (HubApi.nextNodeOperation nodeId)
  | .reportNodeOperationResult, (operationId, r) =>
    nodeJson headers r.nodeId (HubService.reportNodeOperationResult p operationId r)

/-! ## The router -/

/-- A segment of a pattern between braces captures any segment that is not empty. -/
def captures (segment : String) : Bool :=
  segment.toList.head? == some (Char.ofNat 123) && segment.toList.getLast? == some (Char.ofNat 125)

/-- The captured segments, if the pattern matches. -/
def matchSegments : List String → List String → Option (List String)
  | [], [] => some []
  | pattern :: patterns, segment :: segments =>
    if captures pattern then
      if Text.isEmpty segment then none else (segment :: ·) <$> matchSegments patterns segments
    else if pattern = segment then matchSegments patterns segments
    else none
  | _, _ => none

/-- The table of `build_router`. -/
def routes : List (String × List (Method × Endpoint)) :=
  [("/", [(.get, .consoleEntry)]),
    ("/console", [(.get, .consoleEntry)]),
    ("/console/", [(.get, .consoleEntry)]),
    ("/console/assets/styles.css", [(.get, .consoleStyles)]),
    ("/console/assets/app.js", [(.get, .consoleScript)]),
    ("/console/assets/iconfont.woff2", [(.get, .consoleIconfont)]),
    ("/login", [(.get, .loginPage)]),
    ("/login/", [(.get, .loginPage)]),
    ("/login/assets/styles.css", [(.get, .loginStyles)]),
    ("/login/assets/app.js", [(.get, .loginScript)]),
    ("/healthz", [(.get, .healthz)]),
    ("/api/admin/auth/login", [(.post, .adminLogin)]),
    ("/api/admin/auth/me", [(.get, .adminMe)]),
    ("/api/admin/auth/change-password", [(.post, .changeAdminPassword)]),
    ("/api/admin/auth/logout", [(.post, .adminLogout)]),
    ("/api/admin/meta", [(.get, .adminMeta)]),
    ("/api/admin/nodes", [(.post, .createNode), (.get, .listNodes)]),
    ("/api/admin/nodes/\x7bnode_id\x7d", [(.get, .getNodeDetail), (.delete, .deleteNode)]),
    ("/api/admin/nodes/\x7bnode_id\x7d/operations", [(.post, .createNodeOperation), (.get, .listNodeOperations)]),
    ("/api/admin/operations/templates", [(.post, .createOperationTemplate), (.get, .listOperationTemplates)]),
    ("/api/admin/operations/templates/\x7btemplate_id\x7d",
      [(.put, .updateOperationTemplate), (.delete, .deleteOperationTemplate)]),
    ("/api/admin/sites", [(.post, .createSite), (.get, .listSites)]),
    ("/api/admin/sites/\x7bsite_id\x7d", [(.get, .getSite), (.put, .updateSite), (.delete, .deleteSite)]),
    ("/api/admin/sites/\x7bsite_id\x7d/bindings", [(.post, .bindSiteNodes)]),
    ("/api/admin/sites/\x7bsite_id\x7d/enable", [(.post, .enableSite)]),
    ("/api/admin/sites/\x7bsite_id\x7d/disable", [(.post, .disableSite)]),
    ("/api/admin/sites/\x7bsite_id\x7d/renew-certificate", [(.post, .renewSiteCertificate)]),
    ("/api/admin/sites/\x7bsite_id\x7d/switch-primary", [(.post, .switchSitePrimary)]),
    ("/api/admin/releases", [(.post, .createRelease), (.get, .listReleases)]),
    ("/api/admin/dns/providers", [(.post, .createDnsProvider), (.get, .listDnsProviders)]),
    ("/api/admin/dns/providers/\x7bprovider_id\x7d", [(.put, .updateDnsProvider), (.delete, .deleteDnsProvider)]),
    ("/api/admin/dns/zones/sync", [(.post, .syncDnsZones)]),
    ("/api/admin/dns/zones", [(.get, .listDnsZones)]),
    ("/api/admin/dns/zones/\x7bzone_id\x7d/enable", [(.post, .enableDnsZone)]),
    ("/api/admin/dns/zones/\x7bzone_id\x7d/disable", [(.post, .disableDnsZone)]),
    ("/api/admin/dns/zones/\x7bzone_id\x7d", [(.delete, .deleteDnsZone)]),
    ("/api/admin/certificates/orders", [(.post, .createCertificateOrder), (.get, .listCertificateOrders)]),
    ("/api/admin/certificates/orders/\x7border_id\x7d/retry", [(.post, .retryCertificateOrder)]),
    ("/api/admin/certificates/orders/\x7border_id\x7d/reset", [(.post, .resetCertificateOrder)]),
    ("/api/node/register", [(.post, .registerNode)]),
    ("/api/node/auth/refresh", [(.post, .refreshNodeAuth)]),
    ("/api/node/heartbeat", [(.post, .nodeHeartbeat)]),
    ("/api/node/config/releases/latest", [(.get, .latestRelease)]),
    ("/api/node/config/package/\x7bversion\x7d", [(.get, .configPackage)]),
    ("/api/node/releases/\x7brelease_id\x7d/ack", [(.post, .ackRelease)]),
    ("/api/node/operations/pending", [(.get, .nextNodeOperation)]),
    ("/api/node/operations/\x7boperation_id\x7d/result", [(.post, .reportNodeOperationResult)])]

/-- The route of a path, with what it captures. The routes of literal segments that overlap with others stand first. -/
def matchRoute (path : String) : Option (List (Method × Endpoint) × List String) :=
  routes.findSome? fun (pattern, methods) =>
    (matchSegments (Text.split pattern '/') (Text.split path '/')).map (methods, ·)

/-- The handler of a method: a `GET` handler also serves `HEAD`. -/
def methodHandler (methods : List (Method × Endpoint)) (method : Method) : Option Endpoint :=
  methods.lookup (if method = .head then .get else method)

/-- The handler of a request and the captured segments: a path without a route is not found, and a method that the route
does not have is not allowed. -/
def route (method : Method) (path : String) : Except Nat (Endpoint × List String) :=
  match matchRoute path with
  | none => .error 404
  | some (methods, params) =>
    match methodHandler methods method with
    | none => .error 405
    | some handler => .ok (handler, params)

/-- A request that the extractors have read. -/
structure Visit where
  handler : Endpoint
  args : handler.input.Args
  headers : HeaderMap

/-- The route and the extractors. -/
def Front.visit (x : Front) (r : HttpRequest) : Except Nat Visit := do
  let (handler, params) ← route r.method r.path
  let args ← handler.input.read x r params
  return { handler := handler, args := args, headers := r.headers }

/-- The program of a request, less the body of the reply. -/
def Visit.program (p : Platform) (x : Front) (v : Visit) : HubM (Reply Unit) :=
  (fun reply : Reply v.handler.Out => { reply with body := () }) <$> v.handler.run p x v.headers v.args

/-- The program of a request: a rejected one calls nothing. -/
def Front.program (p : Platform) (x : Front) (r : HttpRequest) : Fallible hubSig HttpError (Reply Unit) :=
  match x.visit r with
  | .error status => throw (.rejected status)
  | .ok v => mapError .app (v.program p x)

/-- A sign-in, by its route. -/
example : (route .post "/api/admin/auth/login").map Prod.fst = .ok .adminLogin := by decide

end PingoraMesh.HubApi
