import PingoraMesh.Lib.Prog
import PingoraMesh.Lib.Maps
import PingoraMesh.Hub.Config

/-!
# Accepted configurations and their routes

`validateSiteConfig` and `parseRoutes` read the same JSON independently. `validateSiteConfig_ok` says what an accepted
configuration is: its elements of `routes` all compile, each to the route it writes (`Compiles`), and the keys of the
enabled ones are different. From this:

* `routes_compiled`: what the compiled routes are, and when each of them names a compiled upstream;
* `every_path_routed`: when every request path has a route;
* `compilation_keeps`: which written values the compiled site keeps;
* `routes_order_independent`: the order in which a configuration lists its routes does not matter.
-/

namespace PingoraMesh

open Calls

/-! ## The elements of a route array -/

/-- The string under a key of an object, trimmed. -/
def trimmedField (v : Value) (key : String) : Option String := ((v.get key).bind Value.asStr).map Text.trim

/-- The compiled route has the trimmed name, path and upstream that the element writes, and its match type. -/
structure Compiles (v : Value) (r : SiteRoute) : Prop where
  name : trimmedField v "name" = some r.name
  path : trimmedField v "path" = some r.path
  upstream : trimmedField v "upstream" = some r.upstream
  matchType : trimmedField v "match_type" = some (routeMatchTypeName r.matchType)

/-- The key under which `validate_site_config` looks for duplicates. -/
def SiteRoute.key (r : SiteRoute) : String × String × Int := (routeMatchTypeName r.matchType, r.path, r.priority)

/-- An element that `validate_site_config` accepts, and the route that `parse_routes` makes of it. -/
structure RouteAccepted (names : List String) (v : Value) (r : SiteRoute) : Prop where
  parsed : parseRouteValue v = some r
  compiles : Compiles v r
  upstream : r.upstream ∈ names
  path : Text.startsWith r.path "/" = true

theorem requiredRouteString_ok {route : List (String × Value)} {key s : String}
    (h : requiredRouteString route key = .ok s) : ((route.lookup key).bind Value.asStr).map Text.trim = some s := by
  unfold requiredRouteString at h
  split at h
  · rename_i raw e
    cases h
    rw [e]
    rfl
  · cases h

/-- A check that throws when `c` holds was passed. -/
theorem of_throw_if {ε α : Type} {c : Prop} [Decidable c] {e : ε} {k : PUnit → Except ε α} {a : α}
    (h : (if c then throw e >>= k else k ⟨⟩) = .ok a) : ¬c ∧ k ⟨⟩ = .ok a := by
  split at h
  · cases h
  · exact ⟨by assumption, h⟩

/-- The two match types that a route array may name, and how they are compiled. -/
theorem routeMatchTypeName_parse {raw : String} (h : Text.trim raw = "path_prefix" ∨ Text.trim raw = "path_exact") :
    routeMatchTypeName (parseRouteMatchType raw) = Text.trim raw := by
  unfold parseRouteMatchType
  rcases h with h | h <;> rw [h] <;> decide

/-- A path that starts with a slash is not empty. -/
theorem isEmpty_of_startsWith {s : String} (h : Text.startsWith s "/" = true) : Text.isEmpty s = false := by
  rw [Text.isEmpty, List.isEmpty_eq_false_iff]
  intro e
  rw [Text.startsWith, e] at h
  exact absurd h (by decide)

/-- The route of an object whose fields are there. -/
theorem parseRouteValue_eq {map : List (String × Value)} {name path upstream : String}
    (hname : ((map.lookup "name").bind Value.asStr).map Text.trim = some name)
    (hpath : ((map.lookup "path").bind Value.asStr).map Text.trim = some path)
    (hupstream : ((map.lookup "upstream").bind Value.asStr).map Text.trim = some upstream)
    (hne : Text.isEmpty name = false) (hpe : Text.isEmpty path = false) (hue : Text.isEmpty upstream = false) :
    parseRouteValue (.object map) = some {
      name := name
      enabled := ((map.lookup "enabled").bind Value.asBool).getD true
      matchType := (((map.lookup "match_type").bind Value.asStr).map parseRouteMatchType).getD .pathPrefix
      path := path
      upstream := upstream
      priority := i32Or 100 (map.lookup "priority")
      stripPrefix := ((map.lookup "strip_prefix").bind Value.asBool).getD false } := by
  obtain ⟨rawName, hn, rfl⟩ := Option.map_eq_some_iff.1 hname
  obtain ⟨rawPath, hp, rfl⟩ := Option.map_eq_some_iff.1 hpath
  obtain ⟨rawUpstream, hu, rfl⟩ := Option.map_eq_some_iff.1 hupstream
  obtain ⟨nameValue, hnv, hns⟩ := Option.bind_eq_some_iff.1 hn
  obtain ⟨pathValue, hpv, hps⟩ := Option.bind_eq_some_iff.1 hp
  obtain ⟨upstreamValue, huv, hus⟩ := Option.bind_eq_some_iff.1 hu
  simp [parseRouteValue, Value.asObject, hnv, hns, hpv, hps, huv, hus, hne, hpe, hue]

/-- An element that passes one turn of the loop compiles, and the turn notes its key when it is enabled. -/
theorem checkRoute_ok {names : List String} (hn : ∀ n ∈ names, Text.isEmpty n = false) {scan scan' : RouteScan}
    {v : Value} (h : checkRoute names scan v = .ok scan') :
    ∃ r, RouteAccepted names v r ∧
      ((r.enabled = true ∧ r.key ∉ scan.activeKeys ∧
          scan' = ⟨r.key :: scan.activeKeys, scan.hasDefaultRoute || r.path == "/"⟩) ∨
        (r.enabled = false ∧ scan' = scan)) := by
  unfold checkRoute at h
  split at h
  case h_2 => cases h
  case h_1 route hobj =>
  obtain ⟨name, hname, h⟩ := bind_eq_ok.1 h
  obtain ⟨path, hpath, h⟩ := bind_eq_ok.1 h
  obtain ⟨upstream, hupstream, h⟩ := bind_eq_ok.1 h
  obtain ⟨matchType, hmatch, h⟩ := bind_eq_ok.1 h
  obtain ⟨hne, h⟩ := of_throw_if h
  obtain ⟨hslash, h⟩ := of_throw_if h
  obtain ⟨htype, h⟩ := of_throw_if h
  obtain ⟨hreal, h⟩ := of_throw_if h
  obtain rfl : v = .object route := by
    cases v with
    | object fields => cases hobj; rfl
    | _ => cases hobj
  have hname := requiredRouteString_ok hname
  have hpath := requiredRouteString_ok hpath
  have hupstream := requiredRouteString_ok hupstream
  have hmatch := requiredRouteString_ok hmatch
  have hpath' : Text.startsWith path "/" = true := by simpa using hslash
  have hmem : upstream ∈ names := by simpa using hreal
  have hparsed := parseRouteValue_eq hname hpath hupstream (by simpa using hne) (isEmpty_of_startsWith hpath')
    (hn _ hmem)
  obtain ⟨raw, hraw, rfl⟩ := Option.map_eq_some_iff.1 hmatch
  have htype' : Text.trim raw = "path_prefix" ∨ Text.trim raw = "path_exact" := by
    by_contra hno
    exact htype (not_or.1 hno)
  have hmt := routeMatchTypeName_parse htype'
  refine ⟨_, ⟨hparsed, ⟨hname, hpath, hupstream, ?_⟩, hmem, hpath'⟩, ?_⟩
  · rw [hraw, Option.map_some, Option.getD_some, hmt]
    exact hmatch
  · split at h
    · rename_i henabled
      obtain ⟨hnew, h⟩ := of_throw_if h
      have hkey : (Text.trim raw, path, i32Or 100 (route.lookup "priority")) ∉ scan.activeKeys := by simpa using hnew
      cases h
      left
      refine ⟨henabled, ?_, ?_⟩
      · simpa only [SiteRoute.key, hraw, Option.map_some, Option.getD_some, hmt] using hkey
      · simp only [SiteRoute.key, hraw, Option.map_some, Option.getD_some, hmt]
    · rename_i hdisabled
      cases h
      exact .inr ⟨by simpa using hdisabled, rfl⟩

/-! ## Accepted configurations -/

/-- The loop over the elements: each compiles, and the scan notes the keys of the enabled ones. -/
theorem checkRoutes_ok {names : List String} (hn : ∀ n ∈ names, Text.isEmpty n = false) {written : List Value}
    {scan scan' : RouteScan} (h : written.foldlM (checkRoute names) scan = .ok scan') :
    ∃ rs, List.Forall₂ (RouteAccepted names) written rs ∧
      scan'.activeKeys = ((rs.filter (·.enabled)).map SiteRoute.key).reverse ++ scan.activeKeys ∧
      (scan.activeKeys.Nodup → scan'.activeKeys.Nodup) ∧
      scan'.hasDefaultRoute = (scan.hasDefaultRoute || rs.any fun r => r.enabled && r.path == "/") := by
  induction written generalizing scan with
  | nil =>
    cases h
    exact ⟨[], .nil, rfl, id, by simp⟩
  | cons v vs ih =>
    rw [List.foldlM_cons] at h
    obtain ⟨mid, hv, hvs⟩ := bind_eq_ok.1 h
    obtain ⟨r, hr, hstep⟩ := checkRoute_ok hn hv
    obtain ⟨rs, hrs, hkeys, hnodup, hdefault⟩ := ih hvs
    refine ⟨r :: rs, .cons hr hrs, ?_⟩
    rcases hstep with ⟨henabled, hnew, rfl⟩ | ⟨hdisabled, rfl⟩
    · refine ⟨?_, fun h => hnodup (List.nodup_cons.2 ⟨hnew, h⟩), ?_⟩
      · rw [hkeys, List.filter_cons_of_pos henabled, List.map_cons, List.reverse_cons, List.append_assoc]
        rfl
      · rw [hdefault, List.any_cons, henabled, Bool.true_and, Bool.or_assoc]
    · refine ⟨?_, hnodup, ?_⟩
      · rw [hkeys, List.filter_cons_of_neg (by rw [hdisabled]; exact Bool.false_ne_true)]
      · rw [hdefault, List.any_cons, hdisabled, Bool.false_and, Bool.false_or]

/-- The names that `validate_site_config` collects are not empty. -/
theorem isEmpty_of_mem_upstreamNames {config : Value} {n : String} (h : n ∈ upstreamNames config) :
    Text.isEmpty n = false := by
  unfold upstreamNames at h
  split at h
  · simpa using (List.mem_filter.1 h).2
  · cases h

/-- A configuration whose route array `written` is accepted, and the routes `rs` that its elements write. -/
structure RoutesAccepted (config : Value) (written : List Value) (rs : List SiteRoute) : Prop where
  routes : config.get "routes" = some (.array written)
  accepted : List.Forall₂ (RouteAccepted (upstreamNames config)) written rs
  keys : ((rs.filter (·.enabled)).map SiteRoute.key).Nodup
  default : upstreamNames config ≠ [] → ∃ r ∈ rs, r.enabled = true ∧ r.path = "/"

/-- An accepted configuration has no `routes`, or an accepted route array. -/
theorem validateSiteConfig_ok {config : Value} (h : validateSiteConfig config = .ok ()) :
    config.get "routes" = none ∨ ∃ written rs, RoutesAccepted config written rs := by
  unfold validateSiteConfig at h
  dsimp only at h
  split at h
  · exact .inl (by assumption)
  · rename_i routesValue hroutes
    split at h
    · cases h
    · rename_i written hwritten
      split at h
      · cases h
      · obtain ⟨scan, hscan, h⟩ := bind_eq_ok.1 h
        obtain ⟨rs, hrs, hkeys, hnodup, hdefault⟩ := checkRoutes_ok (fun n => isEmpty_of_mem_upstreamNames) hscan
        obtain rfl : routesValue = .array written := by
          cases routesValue with
          | array vs => cases hwritten; rfl
          | _ => cases hwritten
        refine .inr ⟨written, rs, hroutes, hrs, ?_, ?_⟩
        · have hkeys' := hnodup List.nodup_nil
          rw [hkeys, List.append_nil] at hkeys'
          exact List.nodup_reverse.1 hkeys'
        · intro hne
          have hsome : scan.hasDefaultRoute = true := by
            split at h
            · cases h
            · rename_i hno
              by_contra hfalse
              refine hno ?_
              rw [Bool.and_eq_true]
              exact ⟨by simpa using hne, by simpa using hfalse⟩
          rw [hdefault, Bool.false_or, List.any_eq_true] at hsome
          obtain ⟨r, hr, hroot⟩ := hsome
          rw [Bool.and_eq_true, beq_iff_eq] at hroot
          exact ⟨r, hr, hroot⟩

/-- An accepted route array is compiled to the routes it writes, sorted. -/
theorem RoutesAccepted.parseRoutes_eq {config : Value} {written : List Value} {rs : List SiteRoute}
    (h : RoutesAccepted config written rs) (upstreams : List Upstream) :
    parseRoutes config upstreams = sortSiteRoutes rs := by
  have hmap : written.filterMap parseRouteValue = rs := by
    have haccepted := h.accepted
    clear h
    induction haccepted with
    | nil => rfl
    | cons hr _ ih => rw [List.filterMap_cons, hr.parsed, ih]
  unfold parseRoutes
  rw [h.routes]
  dsimp only
  rw [hmap]

theorem RoutesAccepted.perm {config : Value} {written : List Value} {rs : List SiteRoute}
    (h : RoutesAccepted config written rs) (upstreams : List Upstream) :
    rs.Perm (parseRoutes config upstreams) := by
  rw [h.parseRoutes_eq]
  exact (List.perm_insertionSort _ rs).symm

theorem Compiles.of_accepted {names : List String} {written : List Value} {rs : List SiteRoute}
    (h : List.Forall₂ (RouteAccepted names) written rs) : List.Forall₂ Compiles written rs :=
  h.imp fun _ _ hr => hr.compiles

/-- The element that a route of an accepted array comes from. -/
theorem RoutesAccepted.element {config : Value} {written : List Value} {rs : List SiteRoute}
    (h : RoutesAccepted config written rs) {r : SiteRoute} (hr : r ∈ rs) :
    ∃ v ∈ written, RouteAccepted (upstreamNames config) v r := by
  obtain ⟨i, hi, rfl⟩ := List.getElem_of_mem hr
  have hlen := h.accepted.length_eq
  exact ⟨written[i], List.getElem_mem _, h.accepted.get (by omega) hi⟩

/-- The route of an element of an accepted array. -/
theorem RoutesAccepted.route {config : Value} {written : List Value} {rs : List SiteRoute}
    (h : RoutesAccepted config written rs) {v : Value} (hv : v ∈ written) :
    ∃ r ∈ rs, RouteAccepted (upstreamNames config) v r := by
  obtain ⟨i, hi, rfl⟩ := List.getElem_of_mem hv
  have hlen := h.accepted.length_eq
  exact ⟨rs[i], List.getElem_mem _, h.accepted.get hi (by omega)⟩

/-! ## What the compiled routes are -/

/-- The names of the upstreams, as they are written. -/
def writtenNames (config : Value) : List String :=
  (((config.get "upstreams").bind Value.asArray).getD []).filterMap fun u => (u.get "name").bind Value.asStr

/-- `parse_upstreams` takes the names as they are written. -/
theorem map_name_parseUpstreams (config : Value) : (parseUpstreams config).map (·.name) = writtenNames config := by
  unfold parseUpstreams writtenNames
  rw [List.map_filterMap]
  congr 1
  funext u
  cases hname : u.get "name" with
  | none => rfl
  | some name =>
    cases hs : name.asStr with
    | none => simp [hs]
    | some raw => simp [hs]

/-- Each element of the route array is compiled to a route of its own, a configuration without one has a default route
to the first upstream, and every compiled route names a compiled upstream. -/
structure RoutesCompiled (config : Value) : Prop where
  listed : ∀ v, config.get "routes" = some v → ∃ written rs, v = .array written ∧ List.Forall₂ Compiles written rs ∧
    rs.Perm (parseRoutes config (parseUpstreams config))
  default : config.get "routes" = none → ∀ u us, parseUpstreams config = u :: us →
    parseRoutes config (parseUpstreams config) =
      [{ name := "default", enabled := true, matchType := .pathPrefix, path := "/", upstream := u.name
         priority := 1000, stripPrefix := false }]
  pointing : ∀ r ∈ parseRoutes config (parseUpstreams config), ∃ u ∈ parseUpstreams config, u.name = r.upstream

/-- Every upstream that an element of the route array names, trimmed, is written so under `upstreams`. -/
def UpstreamsWrittenTrimmed (config : Value) : Prop :=
  ∀ written, config.get "routes" = some (.array written) →
    ∀ v ∈ written, ∀ name, trimmedField v "upstream" = some name → name ∈ writtenNames config

theorem exists_upstream_iff {config : Value} {name : String} :
    (∃ u ∈ parseUpstreams config, u.name = name) ↔ name ∈ writtenNames config := by
  rw [← map_name_parseUpstreams, List.mem_map]

/-- **The compiled routes of an accepted configuration** are those of its elements; they all name compiled upstreams
when no upstream that a route names is written with white space around it. -/
theorem routes_compiled {config : Value} (h : validateSiteConfig config = .ok ()) :
    RoutesCompiled config ↔ UpstreamsWrittenTrimmed config := by
  rcases validateSiteConfig_ok h with hnone | ⟨written, rs, hrs⟩
  · have hparse : parseRoutes config (parseUpstreams config) = defaultSiteRoutes (parseUpstreams config) := by
      rw [parseRoutes, hnone]
    constructor
    · intro _ written hw
      rw [hnone] at hw
      cases hw
    · intro _
      refine ⟨?_, ?_, ?_⟩
      · intro v hv
        rw [hnone] at hv
        cases hv
      · intro _ u us hu
        rw [hparse, hu]
        rfl
      · intro r hr
        rw [hparse] at hr
        cases hu : parseUpstreams config with
        | nil =>
          rw [hu] at hr
          cases hr
        | cons u us =>
          rw [hu] at hr
          obtain rfl := List.mem_singleton.1 hr
          exact ⟨u, List.mem_cons_self, rfl⟩
  · have hperm := hrs.perm (parseUpstreams config)
    constructor
    · intro hc written' hw v hv name hname
      have heq := hrs.routes.symm.trans hw
      cases heq
      obtain ⟨r, hr, hacc⟩ := hrs.route hv
      have hup := hc.pointing r (hperm.mem_iff.1 hr)
      rw [hacc.compiles.upstream] at hname
      cases hname
      exact exists_upstream_iff.1 hup
    · intro hw
      refine ⟨?_, ?_, ?_⟩
      · intro v hv
        have heq := hrs.routes.symm.trans hv
        cases heq
        exact ⟨written, rs, rfl, Compiles.of_accepted hrs.accepted, hperm⟩
      · intro hnone
        rw [hrs.routes] at hnone
        cases hnone
      · intro r hr
        obtain ⟨v, hv, hacc⟩ := hrs.element (hperm.mem_iff.2 hr)
        exact exists_upstream_iff.2 (hw written hrs.routes v hv _ hacc.compiles.upstream)

/-- A configuration with one upstream and one route for `/`. -/
def rootConfig (upstream matchType : String) : Value :=
  .object
    [("upstreams", .array [.object [("name", .string upstream)]]),
     ("routes", .array [.object
       [("name", .string "default"), ("path", .string "/"), ("upstream", .string "web"),
        ("match_type", .string matchType)]])]

/-- A configuration with two upstreams and two routes, which writes weights, priorities and flags. -/
def shopConfig : Value :=
  .object
    [("upstreams", .array
      [.object
        [("name", .string "web"),
         ("endpoints", .array
           [.string "10.0.0.1:80",
            .object [("address", .string "10.0.0.2:80"), ("weight", .ofInt 5), ("backup", .bool true)]])],
       .object
        [("name", .string "api"),
         ("endpoints", .array
           [.object [("address", .string "10.0.0.3:80"), ("weight", .ofInt 65535), ("active", .bool false)]])]]),
     ("routes", .array
      [.object
        [("name", .string "default"), ("path", .string "/"), ("upstream", .string "web"),
         ("match_type", .string "path_prefix"), ("priority", .ofInt 1000)],
       .object
        [("name", .string "api"), ("path", .string "/api"), ("upstream", .string "api"),
         ("match_type", .string "path_exact"), ("priority", .ofInt (-5)), ("enabled", .bool false),
         ("strip_prefix", .bool true)]])]

/-- A configuration whose routes name their upstreams as they are written. -/
theorem routes_compiled_shop : RoutesCompiled shopConfig := by
  refine (routes_compiled (by rfl)).2 ?_
  intro written hw v hv name hname
  cases hw
  rcases List.mem_cons.1 hv with rfl | hv
  · cases hname
    decide +kernel
  · obtain rfl := List.mem_singleton.1 hv
    cases hname
    decide +kernel

/-- An upstream with white space around its name: the route is accepted and names no compiled upstream. -/
theorem padded_upstream_not_pointed :
    validateSiteConfig (rootConfig " web " "path_prefix") = .ok () ∧
      ¬RoutesCompiled (rootConfig " web " "path_prefix") := by
  refine ⟨by rfl, fun h => ?_⟩
  have hroute : ∃ r ∈ parseRoutes (rootConfig " web " "path_prefix")
      (parseUpstreams (rootConfig " web " "path_prefix")),
      ∀ u ∈ parseUpstreams (rootConfig " web " "path_prefix"), u.name ≠ r.upstream := by decide +kernel
  obtain ⟨r, hr, hno⟩ := hroute
  obtain ⟨u, hu, hname⟩ := h.pointing r hr
  exact hno u hu hname

/-! ## Every request path has a route -/

/-- The documented semantics of a match: `path_exact` is the complete path, `path_prefix` the path and its child
paths. -/
def SiteRoute.matchesPath (r : SiteRoute) (path : String) : Bool :=
  match r.matchType with
  | .pathExact => path == r.path
  | .pathPrefix =>
    path == r.path || Text.startsWith path (if Text.endsWith r.path "/" then r.path else r.path ++ "/")

/-- Every request path is matched by an enabled compiled route. -/
def PathsRouted (config : Value) : Prop :=
  ∀ path, Text.startsWith path "/" = true →
    ∃ r ∈ parseRoutes config (parseUpstreams config), r.enabled = true ∧ r.matchesPath path = true

/-- The configuration has no `routes`, or an element for `/` that is not disabled and matches prefixes. -/
def HasPrefixRoot (config : Value) : Prop :=
  config.get "routes" = none ∨ ∃ written, config.get "routes" = some (.array written) ∧
    ∃ v ∈ written, v.get "enabled" ≠ some (.bool false) ∧ trimmedField v "path" = some "/" ∧
      trimmedField v "match_type" = some "path_prefix"

/-- What a compiled route has of its element apart from the texts. -/
theorem parseRouteValue_rest {v : Value} {r : SiteRoute} (h : parseRouteValue v = some r) :
    r.enabled = ((v.get "enabled").bind Value.asBool).getD true ∧ r.priority = i32Or 100 (v.get "priority") ∧
      r.stripPrefix = ((v.get "strip_prefix").bind Value.asBool).getD false := by
  unfold parseRouteValue at h
  obtain ⟨map, hmap, hfields⟩ := Option.bind_eq_some_iff.1 h
  obtain rfl : v = .object map := by
    cases v with
    | object fields => cases hmap; rfl
    | _ => cases hmap
  clear h
  obtain ⟨_, -, h⟩ := Option.bind_eq_some_iff.1 hfields
  obtain ⟨_, -, h⟩ := Option.bind_eq_some_iff.1 h
  obtain ⟨_, -, h⟩ := Option.bind_eq_some_iff.1 h
  obtain ⟨_, -, h⟩ := Option.bind_eq_some_iff.1 h
  obtain ⟨_, -, h⟩ := Option.bind_eq_some_iff.1 h
  obtain ⟨_, -, h⟩ := Option.bind_eq_some_iff.1 h
  dsimp only at h
  split at h
  · cases h
  · cases h
    exact ⟨rfl, rfl, rfl⟩

/-- A route is enabled unless its element says `false`. -/
theorem enabled_iff {v : Value} {r : SiteRoute} (h : parseRouteValue v = some r) :
    r.enabled = true ↔ v.get "enabled" ≠ some (.bool false) := by
  rw [(parseRouteValue_rest h).1]
  cases hv : v.get "enabled" with
  | none => simp
  | some w => cases w <;> simp [Value.asBool]

/-- A prefix route for `/` matches every path. -/
theorem matchesPath_root {r : SiteRoute} (hpath : r.path = "/") (htype : r.matchType = .pathPrefix) {path : String}
    (h : Text.startsWith path "/" = true) : r.matchesPath path = true := by
  simp only [SiteRoute.matchesPath, htype, hpath, Bool.or_eq_true]
  right
  exact h

theorem isPrefix_of_startsWith {s pre : String} (h : Text.startsWith s pre = true) : pre.toList <+: s.toList :=
  List.isPrefixOf_iff_prefix.1 h

/-- Only a prefix route for `/` matches a path that is longer than the routes' and has one slash. -/
theorem root_of_matchesPath {r : SiteRoute} (hslash : Text.startsWith r.path "/" = true) {n : Nat}
    (hn : r.path.toList.length ≤ n) (h : r.matchesPath (.ofList ('/' :: List.replicate n 'a')) = true) :
    r.path = "/" ∧ r.matchType = .pathPrefix := by
  obtain ⟨rest, hrest⟩ := isPrefix_of_startsWith hslash
  have hrest : r.path.toList = '/' :: rest := hrest.symm
  -- The path is too long to be the route's own.
  have hne : (String.ofList ('/' :: List.replicate n 'a') == r.path) = false := by
    rw [beq_eq_false_iff_ne]
    intro e
    rw [← e, String.toList_ofList, List.length_cons, List.length_replicate] at hn
    omega
  -- What is matched after the first slash has no other.
  have hno : ∀ q : List Char, '/' ∈ q → ¬('/' :: q <+: '/' :: List.replicate n 'a') := by
    intro q hq hpre
    rw [List.cons_prefix_cons] at hpre
    have hmem := List.eq_of_mem_replicate (hpre.2.subset hq)
    exact absurd hmem (by decide)
  unfold SiteRoute.matchesPath at h
  split at h
  · rw [hne] at h
    cases h
  · rename_i htype
    rw [hne, Bool.false_or] at h
    have hpre := isPrefix_of_startsWith h
    rw [String.toList_ofList] at hpre
    refine ⟨?_, htype⟩
    split at hpre
    · rename_i hends
      rw [hrest] at hpre
      cases rest with
      | nil => exact String.toList_inj.1 hrest
      | cons c cs =>
        refine absurd hpre (hno _ ?_)
        have hsuf : ['/'] <:+ r.path.toList := List.isSuffixOf_iff_suffix.1 hends
        rw [hrest, List.suffix_cons_iff] at hsuf
        rcases hsuf with e | hsuf
        · cases e
        · exact hsuf.subset List.mem_cons_self
    · rw [String.toList_append, hrest] at hpre
      refine absurd hpre (hno _ ?_)
      exact List.mem_append_right _ (by decide)

/-- **Every request path has a route** exactly when the configuration leaves `routes` to the default or has an active
prefix route for `/`; an exact one is accepted too. -/
theorem every_path_routed {config : Value} (h : validateSiteConfig config = .ok ())
    (hu : parseUpstreams config ≠ []) : PathsRouted config ↔ HasPrefixRoot config := by
  rcases validateSiteConfig_ok h with hnone | ⟨written, rs, hrs⟩
  · refine iff_of_true ?_ (.inl hnone)
    intro path hpath
    rw [parseRoutes, hnone]
    cases hus : parseUpstreams config with
    | nil => exact absurd hus hu
    | cons u us => exact ⟨_, List.mem_singleton.2 rfl, rfl, matchesPath_root rfl rfl hpath⟩
  · have hperm := hrs.perm (parseUpstreams config)
    constructor
    · intro hall
      -- A path with one slash that is longer than every compiled route's.
      have hlong : ∀ r ∈ rs, r.path.toList.length ≤ (rs.map fun r => r.path.toList.length).sum := fun r hr =>
        List.single_le_sum (by simp) _ (List.mem_map_of_mem hr)
      obtain ⟨r, hr, henabled, hmatch⟩ := hall (.ofList ('/' :: List.replicate
        (rs.map fun r => r.path.toList.length).sum 'a')) (by simp [Text.startsWith])
      have hr := hperm.mem_iff.2 hr
      obtain ⟨v, hv, hacc⟩ := hrs.element hr
      obtain ⟨hpath, htype⟩ := root_of_matchesPath hacc.path (hlong r hr) hmatch
      refine .inr ⟨written, hrs.routes, v, hv, (enabled_iff hacc.parsed).1 henabled, ?_, ?_⟩
      · rw [hacc.compiles.path, hpath]
      · rw [hacc.compiles.matchType, htype]
        rfl
    · rintro (hnone | ⟨written', hw, v, hv, henabled, hpath, htype⟩) path hslash
      · rw [hrs.routes] at hnone
        cases hnone
      · have heq := hrs.routes.symm.trans hw
        cases heq
        obtain ⟨r, hr, hacc⟩ := hrs.route hv
        refine ⟨r, hperm.mem_iff.1 hr, (enabled_iff hacc.parsed).2 henabled, matchesPath_root ?_ ?_ hslash⟩
        · have hp := hacc.compiles.path
          rw [hpath] at hp
          exact (Option.some.inj hp).symm
        · have ht := hacc.compiles.matchType
          rw [htype] at ht
          cases hm : r.matchType with
          | pathPrefix => rfl
          | pathExact =>
            rw [hm] at ht
            exact absurd (Option.some.inj ht) (by decide)

/-- A configuration with a prefix route for `/`. -/
theorem every_path_routed_prefix : PathsRouted (rootConfig "web" "path_prefix") := by
  have hupstreams : parseUpstreams (rootConfig "web" "path_prefix") ≠ [] := by decide +kernel
  refine (every_path_routed (by rfl) hupstreams).2 (.inr ⟨_, rfl, _, List.mem_cons_self, ?_, ?_, ?_⟩)
  · intro hdisabled
    cases hdisabled
  · decide +kernel
  · decide +kernel

/-- A configuration whose only route is an exact one for `/`: it is accepted, and `/about` has no route. -/
theorem exact_root_not_routed :
    validateSiteConfig (rootConfig "web" "path_exact") = .ok () ∧
      parseUpstreams (rootConfig "web" "path_exact") ≠ [] ∧ ¬PathsRouted (rootConfig "web" "path_exact") := by
  refine ⟨by rfl, by decide +kernel, fun h => ?_⟩
  have hno : ∀ r ∈ parseRoutes (rootConfig "web" "path_exact") (parseUpstreams (rootConfig "web" "path_exact")),
      r.matchesPath "/about" = false := by decide +kernel
  obtain ⟨r, hr, -, hmatch⟩ := h "/about" (by decide)
  rw [hno r hr] at hmatch
  cases hmatch

/-! ## What compilation keeps -/

/-- A Boolean field is kept; `default` stands for one that is absent or is not a Boolean. -/
def BoolKept (v : Value) (key : String) (default b : Bool) : Prop :=
  (∀ w, v.get key = some (.bool w) → b = w) ∧ ((∀ w, v.get key ≠ some (.bool w)) → b = default)

theorem boolKept (v : Value) (key : String) (default : Bool) :
    BoolKept v key default (((v.get key).bind Value.asBool).getD default) := by
  unfold BoolKept
  cases hv : v.get key with
  | none => simp
  | some w => cases w <;> simp [Value.asBool]

/-- The address that an element of `endpoints` writes: the element itself, or its `address`. -/
def endpointAddress : Value → Option String
  | .string address => some address
  | v => (v.get "address").bind Value.asStr

/-- A compiled endpoint has the written address, the written weight when it is one of `u16`, and the written flags. -/
structure EndpointKept (v : Value) (e : UpstreamEndpoint) : Prop where
  address : endpointAddress v = some e.address
  weight : ∀ n, v.get "weight" = some (.number (.posInt n)) → n ≤ 65535 → e.weight = n
  weightDefault : (∀ n, v.get "weight" = some (.number (.posInt n)) → 65535 < n) → e.weight = 100
  active : BoolKept v "active" true e.active
  backup : BoolKept v "backup" false e.backup

/-- A compiled upstream has the written name and, in order, the endpoints that write an address. -/
structure UpstreamKept (v : Value) (u : Upstream) : Prop where
  name : (v.get "name").bind Value.asStr = some u.name
  endpoints : List.Forall₂ EndpointKept
    ((((v.get "endpoints").bind Value.asArray).getD []).filter fun e => (endpointAddress e).isSome) u.endpoints

/-- The integer that a JSON number writes. -/
def writtenInt : Value → Option Int
  | .number (.posInt n) => some n
  | .number (.negInt n) => some n
  | _ => none

/-- A compiled route has the written texts and flags, and the written priority when it is one of `i32`. -/
structure RouteKept (v : Value) (r : SiteRoute) : Prop where
  compiles : Compiles v r
  enabled : BoolKept v "enabled" true r.enabled
  stripPrefix : BoolKept v "strip_prefix" false r.stripPrefix
  priority : ∀ n, (v.get "priority").bind writtenInt = some n → -2147483648 ≤ n → n ≤ 2147483647 → r.priority = n
  priorityDefault : (∀ n, (v.get "priority").bind writtenInt = some n → n < -2147483648 ∨ 2147483647 < n) →
    r.priority = 100

/-- The images of the elements that `p` holds of, where `f` is defined. -/
theorem forall₂_filterMap {α β : Type} {R : α → β → Prop} {p : α → Bool} {f : α → Option β}
    (hsome : ∀ a, p a = true → ∃ b, f a = some b ∧ R a b) (hnone : ∀ a, p a = false → f a = none) (as : List α) :
    List.Forall₂ R (as.filter p) (as.filterMap f) := by
  induction as with
  | nil => exact .nil
  | cons a as ih =>
    cases hp : p a with
    | true =>
      obtain ⟨b, hb, hR⟩ := hsome a hp
      rw [List.filter_cons_of_pos hp, List.filterMap_cons_some hb]
      exact .cons hR ih
    | false =>
      rw [List.filter_cons_of_neg (by rw [hp]; exact Bool.false_ne_true), List.filterMap_cons_none (hnone a hp)]
      exact ih

/-- The endpoint of an object that has an address. -/
theorem endpointKept_object {map : List (String × Value)} {address : String}
    (h : ((Value.object map).get "address").bind Value.asStr = some address) :
    ∃ e, parseEndpointObject map = some e ∧ EndpointKept (.object map) e := by
  obtain ⟨w, hw, hs⟩ := Option.bind_eq_some_iff.1 h
  have hlookup : map.lookup "address" = some w := hw
  have haddress : endpointAddress (.object map) = some address := h
  refine ⟨_, by rw [parseEndpointObject, hlookup, Option.bind_eq_bind, Option.bind_some, hs]; rfl, ?_⟩
  refine ⟨haddress, ?_, ?_, ?_, ?_⟩
  · intro n hn hle
    have hn : map.lookup "weight" = some (.number (.posInt n)) := hn
    simp only [hn, Option.bind_some, Value.asU64]
    rw [if_pos hle]
  · intro hn
    dsimp only
    split
    · rename_i n hu
      obtain ⟨u, hu, hn'⟩ := Option.bind_eq_some_iff.1 hu
      have hu' : u = .number (.posInt n) := by
        unfold Value.asU64 at hn'
        split at hn'
        · cases hn'
          rfl
        · cases hn'
      have hbig := hn n (hu' ▸ hu)
      rw [if_neg (by omega)]
    · rfl
  · exact boolKept (.object map) "active" true
  · exact boolKept (.object map) "backup" false

/-- The endpoint of an element that writes an address. -/
theorem endpointKept {v : Value} {address : String} (h : endpointAddress v = some address) :
    ∃ e, parseEndpoint v = some e ∧ EndpointKept v e := by
  cases v with
  | string s =>
    refine ⟨_, rfl, rfl, ?_, fun _ => rfl, boolKept (.string s) "active" true, boolKept (.string s) "backup" false⟩
    intro n hn
    cases hn
  | object map => exact endpointKept_object h
  | _ => cases h

theorem parseEndpoint_eq_none {v : Value} (h : endpointAddress v = none) : parseEndpoint v = none := by
  cases v with
  | string s => cases h
  | object map =>
    rw [parseEndpoint, parseEndpointObject, Option.bind_eq_bind]
    have hnone : (map.lookup "address").bind Value.asStr = none := h
    cases hw : map.lookup "address" with
    | none => rfl
    | some w =>
      rw [hw] at hnone
      simp only [Option.bind_some] at hnone ⊢
      rw [hnone]
      rfl
  | _ => rfl

/-- A priority is kept when it fits `i32`. -/
theorem i32Or_kept {default : Int} {v : Option Value} {n : Int} (h : v.bind writtenInt = some n)
    (hlo : -2147483648 ≤ n) (hhi : n ≤ 2147483647) : i32Or default v = n := by
  obtain ⟨w, rfl, hw⟩ := Option.bind_eq_some_iff.1 h
  unfold writtenInt at hw
  split at hw
  · cases hw
    rename_i m
    have hm : m < 2 ^ 63 := by omega
    simp only [i32Or, Option.bind_some, Value.asI64, if_pos hm]
    rw [if_pos ⟨hlo, hhi⟩]
  · cases hw
    simp only [i32Or, Option.bind_some, Value.asI64]
    rw [if_pos ⟨hlo, hhi⟩]
  · cases hw

theorem i32Or_default {default : Int} {v : Option Value}
    (h : ∀ n, v.bind writtenInt = some n → n < -2147483648 ∨ 2147483647 < n) : i32Or default v = default := by
  unfold i32Or
  split
  · rename_i n hn
    obtain ⟨w, rfl, hw⟩ := Option.bind_eq_some_iff.1 hn
    have hwritten : writtenInt w = some n := by
      unfold Value.asI64 at hw
      split at hw
      · split at hw
        · cases hw
          rfl
        · cases hw
      · cases hw
        rfl
      · cases hw
    have hout := h n hwritten
    rw [if_neg (by omega)]
  · rfl

theorem RouteKept.of_accepted {names : List String} {v : Value} {r : SiteRoute} (h : RouteAccepted names v r) :
    RouteKept v r := by
  obtain ⟨henabled, hpriority, hstrip⟩ := parseRouteValue_rest h.parsed
  refine ⟨h.compiles, ?_, ?_, ?_, ?_⟩
  · rw [henabled]
    exact boolKept v "enabled" true
  · rw [hstrip]
    exact boolKept v "strip_prefix" false
  · intro n hn hlo hhi
    rw [hpriority]
    exact i32Or_kept hn hlo hhi
  · intro hn
    rw [hpriority]
    exact i32Or_default hn

/-- The routes of an accepted configuration are compiled one by one, none dropped, and then sorted. -/
theorem RoutesAccepted.kept {config : Value} {written : List Value} {rs : List SiteRoute}
    (h : RoutesAccepted config written rs) (upstreams : List Upstream) :
    List.Forall₂ RouteKept written rs ∧ rs.Perm (parseRoutes config upstreams) :=
  ⟨h.accepted.imp fun _ _ => RouteKept.of_accepted, h.perm upstreams⟩

/-- **What compilation keeps** of an accepted configuration: the named upstreams and their endpoints with an address,
in order, every integer in the range of its field and every Boolean; a default stands for all else. -/
theorem compilation_keeps {config : Value} (h : validateSiteConfig config = .ok ()) :
    List.Forall₂ UpstreamKept
      ((((config.get "upstreams").bind Value.asArray).getD []).filter fun u =>
        ((u.get "name").bind Value.asStr).isSome)
      (parseUpstreams config) ∧
    ∀ v, config.get "routes" = some v → ∃ written rs, v = .array written ∧ List.Forall₂ RouteKept written rs ∧
      rs.Perm (parseRoutes config (parseUpstreams config)) := by
  constructor
  · refine forall₂_filterMap ?_ ?_ _
    · intro u hu
      obtain ⟨name, hname⟩ := Option.isSome_iff_exists.1 hu
      obtain ⟨w, hw, hs⟩ := Option.bind_eq_some_iff.1 hname
      refine ⟨_, by rw [hw, Option.bind_eq_bind, Option.bind_some, hs]; rfl, hname, ?_⟩
      refine forall₂_filterMap ?_ ?_ _
      · intro e he
        obtain ⟨address, ha⟩ := Option.isSome_iff_exists.1 he
        exact endpointKept ha
      · intro e he
        exact parseEndpoint_eq_none (by simpa using he)
    · intro u hu
      have hnone : (u.get "name").bind Value.asStr = none := by simpa using hu
      cases hw : u.get "name" with
      | none => rfl
      | some w =>
        rw [hw] at hnone
        simp only [Option.bind_eq_bind, Option.bind_some] at hnone ⊢
        rw [hnone]
        rfl
  · intro v hv
    rcases validateSiteConfig_ok h with hnone | ⟨written, rs, hrs⟩
    · rw [hnone] at hv
      cases hv
    · have heq := hrs.routes.symm.trans hv
      cases heq
      exact ⟨written, rs, rfl, hrs.kept _⟩

/-- A configuration that writes more than compilation keeps. -/
def looseConfig : Value :=
  .object
    [("upstreams", .array
      [.object
        [("name", .string "web"),
         ("endpoints", .array
           [.object [("address", .string "10.0.0.1:80"), ("weight", .ofInt 70000), ("active", .string "no")],
            .ofInt 8080])],
       .object [("endpoints", .array [.string "10.0.0.2:80"])]]),
     ("routes", .array [.object
       [("name", .string "default"), ("path", .string "/"), ("upstream", .string "web"),
        ("match_type", .string "path_prefix"), ("priority", .ofInt 2147483648), ("enabled", .string "no")]])]

/-- What is kept of a configuration whose values all fit: the endpoints, the weights, the priorities and the flags. -/
theorem compilation_keeps_shop :
    (∃ written, (shopConfig.get "upstreams").bind Value.asArray = some written ∧ written.length = 2 ∧
      List.Forall₂ UpstreamKept written (parseUpstreams shopConfig)) ∧
    (∃ written rs, shopConfig.get "routes" = some (.array written) ∧ written.length = 2 ∧
      List.Forall₂ RouteKept written rs ∧ rs.Perm (parseRoutes shopConfig (parseUpstreams shopConfig))) ∧
    parseUpstreams shopConfig =
      [{ name := "web", balanceMethod := .roundRobin
         endpoints :=
          [{ address := "10.0.0.1:80", weight := 100, active := true, backup := false },
           { address := "10.0.0.2:80", weight := 5, active := true, backup := true }] },
       { name := "api", balanceMethod := .roundRobin
         endpoints := [{ address := "10.0.0.3:80", weight := 65535, active := false, backup := false }] }] ∧
    parseRoutes shopConfig (parseUpstreams shopConfig) =
      [{ name := "api", enabled := false, matchType := .pathExact, path := "/api", upstream := "api"
         priority := -5, stripPrefix := true },
       { name := "default", enabled := true, matchType := .pathPrefix, path := "/", upstream := "web"
         priority := 1000, stripPrefix := false }] := by
  have hok : validateSiteConfig shopConfig = .ok () := by rfl
  obtain ⟨hupstreams, hroutes⟩ := compilation_keeps hok
  refine ⟨⟨_, rfl, rfl, hupstreams⟩, ?_, by decide +kernel, by decide +kernel⟩
  obtain ⟨written, rs, hwritten, hkept, hperm⟩ := hroutes _ rfl
  cases hwritten
  exact ⟨_, rs, rfl, rfl, hkept, hperm⟩

/-- Accepted values that are replaced: a weight and a priority out of range, flags that are not Booleans, an endpoint
without an address and one of an upstream without a name. -/
theorem loose_values_replaced :
    validateSiteConfig looseConfig = .ok () ∧
      parseUpstreams looseConfig =
        [{ name := "web", balanceMethod := .roundRobin
           endpoints := [{ address := "10.0.0.1:80", weight := 100, active := true, backup := false }] }] ∧
      parseRoutes looseConfig (parseUpstreams looseConfig) =
        [{ name := "default", enabled := true, matchType := .pathPrefix, path := "/", upstream := "web"
           priority := 100, stripPrefix := false }] :=
  ⟨by rfl, by decide +kernel, by decide +kernel⟩

/-! ## The order of the routes -/

/-- The documented order: by priority, the longer path first, exact before prefix, then by name. -/
def RouteBefore (l r : SiteRoute) : Prop :=
  l.priority < r.priority ∨ l.priority = r.priority ∧
    (r.path.utf8ByteSize < l.path.utf8ByteSize ∨ l.path.utf8ByteSize = r.path.utf8ByteSize ∧
      (l.matchType = .pathExact ∧ r.matchType = .pathPrefix ∨ l.matchType = r.matchType ∧ l.name ≤ r.name))

instance : Std.TransCmp routeOrd :=
  inferInstanceAs <| Std.TransCmp <| compareLex (compareOn SiteRoute.priority) <|
    compareLex (fun l r => compareOn (fun s : SiteRoute => s.path.utf8ByteSize) r l) <|
      compareLex (compareOn fun s => routeMatchRank s.matchType) (compareOn SiteRoute.name)

/-- The comparison of `sort_site_routes` is the documented order. -/
theorem routeOrd_ne_gt_iff {l r : SiteRoute} : routeOrd l r ≠ .gt ↔ RouteBefore l r := by
  have hname : compare l.name r.name ≠ .gt ↔ l.name ≤ r.name := compare_le_iff_le
  have hrank :
      (compare (routeMatchRank l.matchType) (routeMatchRank r.matchType)).then (compare l.name r.name) ≠ .gt ↔
      (l.matchType = .pathExact ∧ r.matchType = .pathPrefix ∨ l.matchType = r.matchType ∧ l.name ≤ r.name) := by
    refine Sorted.then_ne_gt_iff.trans ?_
    rw [hname]
    cases l.matchType <;> cases r.matchType <;> simp [routeMatchRank]
  refine Sorted.then_ne_gt_iff.trans (or_congr Iff.rfl (and_congr_right fun _ => ?_))
  refine Sorted.then_ne_gt_iff.trans (or_congr Iff.rfl ?_)
  rw [hrank, eq_comm]

theorem pairwise_sortSiteRoutes (routes : List SiteRoute) : (sortSiteRoutes routes).Pairwise RouteBefore :=
  (Sorted.pairwise_insertionSort_cmp routeOrd routes).imp fun h => routeOrd_ne_gt_iff.1 h

/-- One path is a prefix of the other. -/
def PrefixRelated (a b : String) : Prop := Text.startsWith a b = true ∨ Text.startsWith b a = true

/-- A prefix of the same length is the whole. -/
theorem eq_of_startsWith {s pre : String} (h : Text.startsWith s pre = true)
    (hsize : s.utf8ByteSize = pre.utf8ByteSize) : s = pre := by
  obtain ⟨t, ht⟩ := isPrefix_of_startsWith h
  have hs : s = pre ++ .ofList t := String.toList_inj.1 (by rw [String.toList_append, String.toList_ofList, ht])
  have hzero : (String.ofList t).utf8ByteSize = 0 := by
    rw [hs, String.utf8ByteSize_append] at hsize
    omega
  rw [hs, String.utf8ByteSize_eq_zero_iff.1 hzero, String.append_empty]

/-- Enabled routes with related paths that the order does not separate have one key, so they are the same. -/
theorem RoutesAccepted.eq_of_tie {config : Value} {written : List Value} {rs : List SiteRoute}
    (h : RoutesAccepted config written rs) {l r : SiteRoute} (hl : l ∈ rs) (hr : r ∈ rs) (hle : l.enabled = true)
    (hre : r.enabled = true) (hrel : PrefixRelated l.path r.path) (hlr : RouteBefore l r) (hrl : RouteBefore r l) :
    l = r := by
  have hkey : l.priority = r.priority ∧ l.path.utf8ByteSize = r.path.utf8ByteSize ∧ l.matchType = r.matchType := by
    unfold RouteBefore at hlr hrl
    grind
  obtain ⟨hpriority, hsize, htype⟩ := hkey
  have hpath : l.path = r.path := by
    rcases hrel with hrel | hrel
    · exact eq_of_startsWith hrel hsize
    · exact (eq_of_startsWith hrel hsize.symm).symm
  refine List.inj_on_of_nodup_map h.keys (List.mem_filter.2 ⟨hl, hle⟩) (List.mem_filter.2 ⟨hr, hre⟩) ?_
  rw [SiteRoute.key, SiteRoute.key, hpriority, hpath, htype]

theorem isPrefix_of_matchesPath {r : SiteRoute} {path : String} (h : r.matchesPath path = true) :
    r.path.toList <+: path.toList := by
  unfold SiteRoute.matchesPath at h
  split at h
  · have heq : path = r.path := beq_iff_eq.1 h
    subst heq
    exact List.prefix_refl _
  · rcases Bool.or_eq_true_iff.1 h with h | h
    · have heq : path = r.path := beq_iff_eq.1 h
      subst heq
      exact List.prefix_refl _
    · split at h
      · exact isPrefix_of_startsWith h
      · have hpre := isPrefix_of_startsWith h
        rw [String.toList_append] at hpre
        exact (List.prefix_append _ _).trans hpre

/-- Routes that match one request path have related paths. -/
theorem prefixRelated_of_matchesPath {l r : SiteRoute} {path : String} (hl : l.matchesPath path = true)
    (hr : r.matchesPath path = true) : PrefixRelated l.path r.path := by
  rcases List.prefix_or_prefix_of_prefix (isPrefix_of_matchesPath hl) (isPrefix_of_matchesPath hr) with h | h
  · exact .inr (List.isPrefixOf_iff_prefix.2 h)
  · exact .inl (List.isPrefixOf_iff_prefix.2 h)

/-- The enabled route that a request path takes: the first that matches. -/
def firstMatch (routes : List SiteRoute) (path : String) : Option SiteRoute :=
  routes.find? fun r => r.enabled && r.matchesPath path

/-- **The order in which a configuration lists its routes does not matter**: the compiled routes are the written ones,
none dropped, in the documented order, those that may match one path in the same relative order, so that every request
path takes the same route. -/
theorem routes_order_independent {config config' : Value} {written written' : List Value}
    (h : validateSiteConfig config = .ok ()) (hw : config.get "routes" = some (.array written))
    (hw' : config'.get "routes" = some (.array written')) (hp : written.Perm written')
    (upstreams upstreams' : List Upstream) :
    (∃ rs, List.Forall₂ RouteKept written rs ∧ rs.Perm (parseRoutes config upstreams)) ∧
      (∃ rs, List.Forall₂ RouteKept written' rs ∧ rs.Perm (parseRoutes config' upstreams')) ∧
      (parseRoutes config upstreams).Perm (parseRoutes config' upstreams') ∧
      (parseRoutes config upstreams).Pairwise RouteBefore ∧ (parseRoutes config' upstreams').Pairwise RouteBefore ∧
      (∀ l r : SiteRoute, l.enabled = true → r.enabled = true → PrefixRelated l.path r.path →
        ([l, r].Sublist (parseRoutes config upstreams) ↔ [l, r].Sublist (parseRoutes config' upstreams'))) ∧
      ∀ path, firstMatch (parseRoutes config upstreams) path = firstMatch (parseRoutes config' upstreams') path := by
  rcases validateSiteConfig_ok h with hnone | ⟨written₁, rs, hrs⟩
  · rw [hw] at hnone
    cases hnone
  obtain rfl : written₁ = written := by
    have heq := hrs.routes.symm.trans hw
    cases heq
    rfl
  have hparse : parseRoutes config upstreams = sortSiteRoutes (written₁.filterMap parseRouteValue) := by
    rw [parseRoutes, hw]
  have hparse' : parseRoutes config' upstreams' = sortSiteRoutes (written'.filterMap parseRouteValue) := by
    rw [parseRoutes, hw']
  have hperm : (parseRoutes config upstreams).Perm (parseRoutes config' upstreams') := by
    rw [hparse, hparse']
    exact ((List.perm_insertionSort _ _).trans (hp.filterMap _)).trans (List.perm_insertionSort _ _).symm
  have hsorted : (parseRoutes config upstreams).Pairwise RouteBefore := hparse ▸ pairwise_sortSiteRoutes _
  have hsorted' : (parseRoutes config' upstreams').Pairwise RouteBefore := hparse' ▸ pairwise_sortSiteRoutes _
  -- Related enabled routes are strictly ordered, so the two results agree on any set of them.
  have hagree : ∀ p : SiteRoute → Bool, (∀ r, p r = true → r.enabled = true) →
      (∀ l r, p l = true → p r = true → l = r ∨ PrefixRelated l.path r.path) →
      (parseRoutes config upstreams).filter p = (parseRoutes config' upstreams').filter p := by
    intro p hen hrel
    refine Sorted.filter_eq_of_sorted hperm hsorted hsorted' ?_
    intro l hl r hr hpl hpr hlr hrl
    rcases hrel l r hpl hpr with rfl | hrel
    · rfl
    · have hl := (hrs.perm upstreams).mem_iff.2 hl
      have hr := (hrs.perm upstreams).mem_iff.2 hr
      exact hrs.eq_of_tie hl hr (hen l hpl) (hen r hpr) hrel hlr hrl
  obtain ⟨hkept, hcompiled⟩ := hrs.kept upstreams
  refine ⟨⟨rs, hkept, hcompiled⟩, ?_, hperm, hsorted, hsorted', ?_, ?_⟩
  · obtain ⟨rs', hkept', hperm'⟩ := List.perm_comp_forall₂ hp.symm hkept
    exact ⟨rs', hkept', hperm'.trans (hcompiled.trans hperm)⟩
  · intro l r hl hr hrel
    have hpair := hagree (fun x => x == l || x == r) (by grind) (by unfold PrefixRelated at *; grind)
    have hself : [l, r].filter (fun x => x == l || x == r) = [l, r] := by simp
    constructor
    · intro hsub
      have hsub := hsub.filter (fun x => x == l || x == r)
      rw [hself, hpair] at hsub
      exact hsub.trans List.filter_sublist
    · intro hsub
      have hsub := hsub.filter (fun x => x == l || x == r)
      rw [hself, ← hpair] at hsub
      exact hsub.trans List.filter_sublist
  · intro path
    have hmatch := hagree (fun r => r.enabled && r.matchesPath path) (fun r hr => (Bool.and_eq_true_iff.1 hr).1)
      fun l r hl hr => by
        rw [Bool.and_eq_true] at hl hr
        exact .inr (prefixRelated_of_matchesPath hl.2 hr.2)
    rw [firstMatch, firstMatch, ← List.head?_filter, ← List.head?_filter, hmatch]

/-- A configuration with a route for `/` and one for `/api`, listed in the order of `flip`. -/
def apiConfig (flip : Bool) : Value :=
  let route (name path : String) : Value := .object
    [("name", .string name), ("path", .string path), ("upstream", .string "web"),
     ("match_type", .string "path_prefix")]
  .object
    [("upstreams", .array [.object [("name", .string "web")]]),
     ("routes", .array (if flip then [route "api" "/api", route "default" "/"] else
       [route "default" "/", route "api" "/api"]))]

/-- Both orders keep both routes and give `/api/users` the same one. -/
theorem routes_order_independent_api :
    (∃ written rs, (apiConfig true).get "routes" = some (.array written) ∧ written.length = 2 ∧
      List.Forall₂ RouteKept written rs ∧ rs.Perm (parseRoutes (apiConfig true) [])) ∧
    firstMatch (parseRoutes (apiConfig false) []) "/api/users" =
      firstMatch (parseRoutes (apiConfig true) []) "/api/users" := by
  have hok : validateSiteConfig (apiConfig false) = .ok () := by rfl
  have hroutes : (apiConfig false).get "routes" = some (.array _) := rfl
  have hflipped : (apiConfig true).get "routes" = some (.array _) := rfl
  obtain ⟨-, ⟨rs, hkept, hperm⟩, -, -, -, -, hfirst⟩ :=
    routes_order_independent hok hroutes hflipped (List.Perm.swap _ _ _) [] []
  exact ⟨⟨_, rs, hflipped, rfl, hkept, hperm⟩, hfirst "/api/users"⟩

end PingoraMesh
