import PingoraMesh.Hub.Records
import PingoraMesh.Lib.Text

/-!
# Site configurations

A site's configuration is a JSON value. `validateSiteConfig` is the check of `service.rs`, `SiteRecord.toSpec` the
reading of `store.rs`, and `compileSiteBundle` and `compileSiteCleanupBundle` the two compilers of
`crates/config-compiler`, which draw a release identifier and read the clock: both are arguments here.

`lower` stands for `str::to_lowercase`, whose Unicode tables the model leaves open.
-/

namespace PingoraMesh

/-! ## Validation -/

/-- `required_route_string`. -/
def requiredRouteString (route : List (String × Value)) (key : String) : Except AppError String :=
  match (route.lookup key).bind Value.asStr with
  | some s => .ok (Text.trim s)
  | none => .error (.badRequest ("route " ++ key ++ " is required"))

/-- The fallback for an integer that is absent or does not fit `i32`. -/
def i32Or (default : Int) (v : Option Value) : Int :=
  match v.bind Value.asI64 with
  | some n => if -2147483648 ≤ n ∧ n ≤ 2147483647 then n else default
  | none => default

/-- The names of the upstreams of a configuration. -/
def upstreamNames (config : Value) : List String :=
  match (config.get "upstreams").bind Value.asArray with
  | some upstreams =>
    (upstreams.filterMap fun u => ((u.get "name").bind Value.asStr).map Text.trim).filter fun n => !Text.isEmpty n
  | none => []

/-- What the loop of `validate_site_config` carries: the active keys so far and whether `/` is among them. -/
structure RouteScan where
  activeKeys : List (String × String × Int)
  hasDefaultRoute : Bool

/-- One turn of the loop of `validate_site_config`. -/
def checkRoute (names : List String) (scan : RouteScan) (route : Value) : Except AppError RouteScan := do
  let some route := route.asObject | throw (.badRequest "route must be an object")
  let name ← requiredRouteString route "name"
  let path ← requiredRouteString route "path"
  let upstream ← requiredRouteString route "upstream"
  let matchType ← requiredRouteString route "match_type"
  let priority := i32Or 100 (route.lookup "priority")
  let enabled := ((route.lookup "enabled").bind Value.asBool).getD true
  if Text.isEmpty name then throw (.badRequest "route name is required")
  if !Text.startsWith path "/" then throw (.badRequest "route path must start with /")
  if matchType ≠ "path_prefix" ∧ matchType ≠ "path_exact" then
    throw (.badRequest "route match_type must be path_prefix or path_exact")
  if !names.contains upstream then throw (.badRequest ("route upstream " ++ upstream ++ " does not exist"))
  if enabled then
    let key := (matchType, path, priority)
    if scan.activeKeys.contains key then throw (.badRequest "duplicate active route match_type, path and priority")
    return { activeKeys := key :: scan.activeKeys, hasDefaultRoute := scan.hasDefaultRoute || path == "/" }
  return scan

/-- `validate_site_config`. -/
def validateSiteConfig (config : Value) : Except AppError Unit :=
  let names := upstreamNames config
  match config.get "routes" with
  | none => .ok ()
  | some routesValue =>
    match routesValue.asArray with
    | none => .error (.badRequest "routes must be an array")
    | some routes =>
      if routes.isEmpty && !names.isEmpty then
        .error (.badRequest "routes must include a default / route when upstreams are configured")
      else do
        let scan ← routes.foldlM (checkRoute names) ⟨[], false⟩
        if !names.isEmpty && !scan.hasDefaultRoute then
          throw (.badRequest "routes must include an active default / route")

/-! ## Reading a configuration -/

/-- `parse_endpoint_object`. -/
def parseEndpointObject (map : List (String × Value)) : Option UpstreamEndpoint := do
  let address ← (map.lookup "address").bind Value.asStr
  return {
    address := address
    weight := match (map.lookup "weight").bind Value.asU64 with
      | some w => if w ≤ 65535 then w else 100
      | none => 100
    active := ((map.lookup "active").bind Value.asBool).getD true
    backup := ((map.lookup "backup").bind Value.asBool).getD false }

/-- An element of `endpoints`: an address, or an object. -/
def parseEndpoint : Value → Option UpstreamEndpoint
  | .string address => some { address := address, weight := 100, active := true, backup := false }
  | .object map => parseEndpointObject map
  | _ => none

/-- `normalize_upstream_balance_method`. -/
def normalizeUpstreamBalanceMethod (raw : String) : UpstreamBalanceMethod :=
  let m := Text.toAsciiLowercase (Text.trim raw)
  if m ∈ ["weighted_round_robin", "weighted", "weight", "wrr"] then .weightedRoundRobin
  else if m ∈ ["least_connections", "least_conn", "least-connections", "least-conn"] then .leastConnections
  else if m ∈ ["ip_hash", "ip-hash", "hash"] then .ipHash
  else .roundRobin

/-- `parse_upstream_balance_method`: the first of the three keys that is present decides, whatever its type. -/
def parseUpstreamBalanceMethod (upstream : Value) : UpstreamBalanceMethod :=
  match ((upstream.get "balance_method" <|> upstream.get "distribution_method" <|> upstream.get "method").bind
    Value.asStr) with
  | some raw => normalizeUpstreamBalanceMethod raw
  | none => .roundRobin

/-- `parse_upstreams`. -/
def parseUpstreams (config : Value) : List Upstream :=
  (((config.get "upstreams").bind Value.asArray).getD []).filterMap fun upstream => do
    let name ← (← upstream.get "name").asStr
    return {
      name := name
      balanceMethod := parseUpstreamBalanceMethod upstream
      endpoints := (((upstream.get "endpoints").bind Value.asArray).getD []).filterMap parseEndpoint }

/-- `parse_route_match_type`. -/
def parseRouteMatchType (raw : String) : RouteMatchType :=
  if Text.toAsciiLowercase (Text.trim raw) ∈ ["path_exact", "exact", "="] then .pathExact else .pathPrefix

/-- `parse_route_value`. -/
def parseRouteValue (route : Value) : Option SiteRoute := do
  let map ← route.asObject
  let name := Text.trim (← (← map.lookup "name").asStr)
  let path := Text.trim (← (← map.lookup "path").asStr)
  let upstream := Text.trim (← (← map.lookup "upstream").asStr)
  if Text.isEmpty name || Text.isEmpty path || Text.isEmpty upstream then none
  else return {
    name := name
    enabled := ((map.lookup "enabled").bind Value.asBool).getD true
    matchType := (((map.lookup "match_type").bind Value.asStr).map parseRouteMatchType).getD .pathPrefix
    path := path
    upstream := upstream
    priority := i32Or 100 (map.lookup "priority")
    stripPrefix := ((map.lookup "strip_prefix").bind Value.asBool).getD false }

/-- `route_match_rank`. -/
def routeMatchRank : RouteMatchType → Nat
  | .pathExact => 0
  | .pathPrefix => 1

/-- The comparison of `sort_site_routes`. -/
def routeOrd (l r : SiteRoute) : Ordering :=
  (compare l.priority r.priority).then <| (compare r.path.utf8ByteSize l.path.utf8ByteSize).then <|
    (compare (routeMatchRank l.matchType) (routeMatchRank r.matchType)).then (compare l.name r.name)

/-- `sort_site_routes`: a stable sort. -/
def sortSiteRoutes (routes : List SiteRoute) : List SiteRoute := routes.insertionSort fun l r => routeOrd l r ≠ .gt

/-- `default_site_routes`. -/
def defaultSiteRoutes : List Upstream → List SiteRoute
  | [] => []
  | upstream :: _ =>
    [{ name := "default", enabled := true, matchType := .pathPrefix, path := "/", upstream := upstream.name
       priority := 1000, stripPrefix := false }]

/-- `parse_routes`. -/
def parseRoutes (config : Value) (upstreams : List Upstream) : List SiteRoute :=
  match config.get "routes" with
  | some (.array routes) => sortSiteRoutes (routes.filterMap parseRouteValue)
  | some _ => []
  | none => defaultSiteRoutes upstreams

/-- `parse_cache_rules`. -/
def parseCacheRules (lower : String → String) (config : Value) : List CacheRule :=
  (((config.get "cache_rules").bind Value.asArray).getD []).filterMap fun rule => do
    let name := Text.trim (← (← rule.get "name").asStr)
    if Text.isEmpty name then none
    let expiresSeconds ← (← rule.get "expires_seconds").asU64
    if expiresSeconds = 0 then none
    let matchExtensions :=
      ((((rule.get "match_extensions").bind Value.asArray).getD []).filterMap Value.asStr).map
        (fun item => lower (Text.trimStartMatches '.' (Text.trim item))) |>.filter fun item => !Text.isEmpty item
    if matchExtensions.isEmpty then none
    return {
      name := name
      matchExtensions := matchExtensions
      expiresSeconds := expiresSeconds
      cacheControl :=
        (((rule.get "cache_control").bind Value.asStr).map Text.trim |>.filter fun v => !Text.isEmpty v).getD
          ("public, max-age=" ++ String.ofList (Text.decimal expiresSeconds)) }

/-- `SiteRecord::to_spec`. -/
def SiteRecord.toSpec (lower : String → String) (site : SiteRecord) : SiteSpec :=
  let upstreams := parseUpstreams site.config
  { id := site.id
    siteCode := site.siteCode
    name := site.name
    domain := site.domain
    listenPort := site.listenPort
    protocol := site.protocol
    tlsEnabled := site.tlsEnabled
    status := site.status
    upstreams := upstreams
    routes := parseRoutes site.config upstreams
    cacheRules := parseCacheRules lower site.config }

/-! ## Compilation -/

/-- The `serde` name of a balance method. -/
def balanceMethodName : UpstreamBalanceMethod → String
  | .roundRobin => "round_robin"
  | .weightedRoundRobin => "weighted_round_robin"
  | .leastConnections => "least_connections"
  | .ipHash => "ip_hash"

/-- The `serde` name of a match type. -/
def routeMatchTypeName : RouteMatchType → String
  | .pathPrefix => "path_prefix"
  | .pathExact => "path_exact"

/-- An upstream as `serde` writes it. -/
def Upstream.toValue (u : Upstream) : Value :=
  .object
    [("name", .string u.name), ("balance_method", .string (balanceMethodName u.balanceMethod)),
     ("endpoints", .array (u.endpoints.map fun e => .object
       [("address", .string e.address), ("weight", .ofInt e.weight), ("active", .bool e.active),
        ("backup", .bool e.backup)]))]

/-- A route as `serde` writes it. -/
def SiteRoute.toValue (r : SiteRoute) : Value :=
  .object
    [("name", .string r.name), ("enabled", .bool r.enabled), ("match_type", .string (routeMatchTypeName r.matchType)),
     ("path", .string r.path), ("upstream", .string r.upstream), ("priority", .ofInt r.priority),
     ("strip_prefix", .bool r.stripPrefix)]

/-- A cache rule as `serde` writes it. -/
def CacheRule.toValue (r : CacheRule) : Value :=
  .object
    [("name", .string r.name), ("match_extensions", .strings r.matchExtensions),
     ("expires_seconds", .ofInt r.expiresSeconds), ("cache_control", .string r.cacheControl)]

/-- `signature_for_release`. -/
def signatureForRelease (releaseVersion : String) (releaseId : Uuid) : String :=
  "sig:" ++ releaseVersion ++ ":" ++ Uuid.hyphenated releaseId

/-- `compile_site_bundle`. -/
def compileSiteBundle (site : SiteSpec) (certificates : List CertificateRef) (targets : List ReleaseTarget)
    (releaseVersion : String) (releaseId : Uuid) (now : DateTime) : Except String CompiledConfigBundle :=
  if Text.isEmpty (Text.trim site.domain) then .error "site domain cannot be empty"
  else .ok {
    manifest := {
      releaseId := releaseId
      releaseVersion := releaseVersion
      scope := "site"
      configHash := "sha256:" ++ site.name ++ ":" ++ releaseVersion
      createdAt := now
      sites := [site]
      certificates := certificates
      targets := targets }
    renderedConfig := .object
      [("site_code", .string site.siteCode), ("status", .string (siteStatusName site.status)),
       ("domain", .string site.domain), ("listen_port", .ofInt site.listenPort),
       ("protocol", .string (protocolName site.protocol)), ("tls_enabled", .bool site.tlsEnabled),
       ("upstreams", .array (site.upstreams.map Upstream.toValue)),
       ("routes", .array (site.routes.map SiteRoute.toValue)),
       ("cache_rules", .array (site.cacheRules.map CacheRule.toValue))]
    certificates := certificates
    signature := signatureForRelease releaseVersion releaseId }

/-- `compile_site_cleanup_bundle`. -/
def compileSiteCleanupBundle (site : SiteSpec) (targets : List ReleaseTarget) (releaseVersion : String)
    (releaseId : Uuid) (now : DateTime) : Except String CompiledConfigBundle :=
  if Text.isEmpty (Text.trim site.siteCode) then .error "site code cannot be empty"
  else .ok {
    manifest := {
      releaseId := releaseId
      releaseVersion := releaseVersion
      scope := "site_cleanup"
      configHash := "sha256:cleanup:" ++ site.siteCode ++ ":" ++ releaseVersion
      createdAt := now
      sites := []
      certificates := []
      targets := targets }
    renderedConfig := .object
      [("sites", .array []),
       ("cleanup", .object
         [("site_ids", .array [.string (Uuid.hyphenated site.id)]), ("site_codes", .array [.string site.siteCode]),
          ("domains", .array [.string site.domain])])]
    certificates := []
    signature := signatureForRelease releaseVersion releaseId }

end PingoraMesh
