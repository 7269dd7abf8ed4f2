import PingoraMesh.Hub.Effects
import PingoraMesh.Hub.Guards

/-!
# What a handler can write

A handler checks its credential and then serves a request of `HubService`, so its writes are those of the two.

* `Endpoint.effects` lists the effects of what each handler serves, and `run_only` says that it makes no other calls
  than those and the touch of its own session;
* `writes_of_handler`: so it is in every run of the front;
* `reads_leave_stores`: a request with `GET` or `HEAD` writes nothing but the last use of its own session, unless it
  asks for the next operation of a node.
-/

namespace PingoraMesh.HubApi

open Calls Fallible HubService

/-- The effects of what each handler serves. -/
def Endpoint.effects : Endpoint → List Effect
  | .adminLogin | .changeAdminPassword | .adminLogout => [.admin]
  | .createNode => [.saveNode]
  | .deleteNode => [.tokens, .deleteNode]
  | .createOperationTemplate | .updateOperationTemplate | .deleteOperationTemplate => [.template]
  | .createNodeOperation | .nextNodeOperation | .reportNodeOperationResult => [.operation]
  | .createSite | .updateSite | .bindSiteNodes => [.saveSite]
  | .enableSite | .disableSite | .createRelease => [.saveSite, .serial, .saveRelease]
  | .deleteSite => [.serial, .saveRelease, .deleteSite]
  | .switchSitePrimary => [.saveSite, .policies, .serial, .saveRelease]
  | .renewSiteCertificate | .createCertificateOrder => [.certificate, .certificateOrder]
  | .retryCertificateOrder | .resetCertificateOrder => [.certificateOrder]
  | .createDnsProvider | .updateDnsProvider | .deleteDnsProvider | .syncDnsZones | .enableDnsZone | .disableDnsZone
  | .deleteDnsZone => [.dns]
  | .registerNode => [.tokens, .saveNode]
  | .refreshNodeAuth => [.tokens]
  | .nodeHeartbeat => [.heartbeat]
  | .ackRelease => [.releaseAck, .saveNode]
  | _ => []

/-- The call touches the session of the own cookie. -/
def TouchesOwn (p : Platform) (headers : HeaderMap) (c : HubCall) : Prop :=
  ∃ token seen, extractCookieValue headers adminSessionCookie = some token ∧
    c = .touchAdminSession (hashToken p token) seen

/-- A call of the given effects, or the touch of the own session. -/
def Writes (p : Platform) (headers : HeaderMap) (es : List Effect) (c : HubCall) : Prop :=
  c.Within es ∨ TouchesOwn p headers c

section Handlers

variable {p : Platform} {headers : HeaderMap} {es : List Effect} {α : Type}

/-- What a request of the service can call. -/
theorem only_of_program (hub : Hub) {call : HubM α} (req : Request) (h : HubService.program p hub req = discard call) :
    call.Only (Writes p headers req.effects) := by
  intro g
  have honly := program_only p hub req
  rw [h] at honly
  have hcall : call.Only (HubCall.Within req.effects) := fun g => (wp_discard call).1 (honly g)
  exact wp_mono (fun _ _ _ => trivial) (fun _ _ _ => trivial)
    (hcall.wp (I := fun _ => True) (fun c _ hc _ => .inl hc) (fun _ _ _ _ _ _ _ => trivial) trivial)

theorem authorizeAdminSession_writes {token : String}
    (hcookie : extractCookieValue headers adminSessionCookie = some token) :
    (authorizeAdminSession p token).Only (Writes p headers es) :=
  safe_bind (safe_ensure _ _) fun _ => safe_bind (only_call (.inl trivial)) fun _ => safe_bind (safe_okOr _ _) fun _ =>
    safe_bind (safe_ensure _ _) fun _ => safe_bind (only_call (.inl trivial)) fun _ => safe_bind (safe_ensure _ _)
      fun _ =>
      safe_bind (only_call (.inl trivial)) fun _ => safe_bind (only_call (.inr ⟨token, _, hcookie, rfl⟩))
        fun _ => safe_pure _

theorem extractAdminSessionCookie_ok {token : String} (h : extractAdminSessionCookie headers = .ok token) :
    extractCookieValue headers adminSessionCookie = some token := by
  unfold extractAdminSessionCookie at h
  split at h
  · rename_i t ht
    cases h
    exact ht
  · cases h

/-- A program that starts by reading the cookie. -/
theorem cookie_writes {f : String → HubM α} (hf : ∀ token, extractCookieValue headers adminSessionCookie = some token →
    (f token).Only (Writes p headers es)) : (attempt (extractAdminSessionCookie headers) >>= f).Only
      (Writes p headers es) := by
  intro g
  rw [wp_bind, wp_attempt]
  exact ⟨fun token htoken => hf token (extractAdminSessionCookie_ok htoken) g, fun _ _ => trivial⟩

theorem requireAdminSession_writes : (requireAdminSession p headers).Only (Writes p headers es) :=
  cookie_writes fun _ hcookie => authorizeAdminSession_writes hcookie

theorem adminJson_writes {call : HubM α} (hcall : call.Only (Writes p headers es)) :
    (adminJson p headers call).Only (Writes p headers es) :=
  safe_bind requireAdminSession_writes fun _ => safe_bind hcall fun _ => safe_pure _

theorem authorizeNode_writes {nodeId : Uuid} {token : String} :
    (authorizeNode nodeId token).Only (Writes p headers es) :=
  safe_bind (only_call (.inl trivial)) fun _ => safe_bind (safe_okOr _ _) fun _ => safe_bind (safe_ensure _ _) fun _ =>
    safe_bind (only_call (.inl trivial)) fun _ => safe_bind (safe_ensure _ _) fun _ =>
      safe_bind (only_call (.inl trivial)) fun _ => safe_ensure _ _

theorem nodeJson_writes {nodeId : Uuid} {call : HubM α} (hcall : call.Only (Writes p headers es)) :
    (nodeJson headers nodeId call).Only (Writes p headers es) :=
  safe_bind (safe_attempt _) fun _ => safe_bind authorizeNode_writes fun _ => safe_bind hcall fun _ => safe_pure _

theorem hasSession_writes : (hasSession p headers).Only (Writes p headers es) := by
  unfold hasSession
  split
  · exact safe_pure _
  · rename_i token hcookie
    exact safe_bind (safe_caught (authorizeAdminSession_writes hcookie)) fun _ => safe_pure _

theorem adminLogout_writes : (HubApi.adminLogout p headers).Only (Writes p headers [.admin]) :=
  safe_bind
    (safe_forSome fun _ => safe_discard (safe_onlyIf (only_call (.inl (by simp [HubCall.Within, HubCall.effect])))))
      fun _ =>
    safe_bind (safe_attempt _) fun _ => safe_pure _

end Handlers

/-- Whatever runs beside it, a handler makes no other calls than quiet ones, those of its effects, and the touch of
its own session. -/
theorem run_only (p : Platform) (x : Front) (v : Visit) :
    (v.handler.run p x v.headers v.args).Only (Writes p v.headers v.handler.effects) := by
  obtain ⟨handler, args, headers⟩ := v
  cases handler
  case consoleStyles | consoleScript | consoleIconfont | loginStyles | loginScript | healthz => exact safe_pure _
  case consoleEntry | loginPage =>
    refine safe_bind hasSession_writes fun found => ?_
    cases found <;> exact safe_pure _
  case adminLogin =>
    exact safe_bind (only_of_program x.hub (.loginAdmin args) rfl) fun _ =>
      safe_bind (only_call (.inl trivial)) fun _ => safe_bind (safe_attempt _) fun _ => safe_pure _
  case adminMe =>
    exact cookie_writes fun _ hcookie => safe_bind (authorizeAdminSession_writes hcookie) fun _ => safe_pure _
  case changeAdminPassword =>
    exact safe_bind (safe_attempt _) fun token =>
      safe_bind (only_of_program x.hub (.changeAdminPassword token args) rfl) fun _ => safe_pure _
  case adminLogout => exact adminLogout_writes
  case adminMeta => exact adminJson_writes (safe_pure _)
  case createNode => exact adminJson_writes (only_of_program x.hub (.createNode args) rfl)
  case listNodes => exact adminJson_writes (only_of_program x.hub .listNodes rfl)
  case getNodeDetail => exact adminJson_writes (only_of_program x.hub (.nodeDetail args) rfl)
  case deleteNode => exact adminJson_writes (only_of_program x.hub (.deleteNode args) rfl)
  case createNodeOperation =>
    exact safe_bind requireAdminSession_writes fun admin => safe_bind (only_of_program x.hub
      (.createNodeOperation args.1 args.2 ("admin:" ++ admin.username)) rfl) fun _ => safe_pure _
  case listNodeOperations => exact adminJson_writes (only_of_program x.hub (.listNodeOperations args) rfl)
  case createOperationTemplate =>
    exact adminJson_writes (only_of_program x.hub (.createOperationTemplate args) rfl)
  case listOperationTemplates => exact adminJson_writes (only_of_program x.hub .listOperationTemplates rfl)
  case updateOperationTemplate =>
    exact adminJson_writes (only_of_program x.hub (.updateOperationTemplate args.1 args.2) rfl)
  case deleteOperationTemplate =>
    exact adminJson_writes (only_of_program x.hub (.deleteOperationTemplate args) rfl)
  case createSite => exact adminJson_writes (only_of_program x.hub (.createSite args) rfl)
  case listSites => exact adminJson_writes (only_of_program x.hub .listSites rfl)
  case getSite => exact adminJson_writes (only_of_program x.hub (.siteDetail args) rfl)
  case updateSite => exact adminJson_writes (only_of_program x.hub (.updateSite args.1 args.2) rfl)
  case deleteSite => exact adminJson_writes (only_of_program x.hub (.deleteSite args) rfl)
  case bindSiteNodes => exact adminJson_writes (only_of_program x.hub (.bindSiteNodes args.1 args.2) rfl)
  case enableSite => exact adminJson_writes (only_of_program x.hub (.updateSiteStatus args true) rfl)
  case disableSite => exact adminJson_writes (only_of_program x.hub (.updateSiteStatus args false) rfl)
  case renewSiteCertificate => exact adminJson_writes (only_of_program x.hub (.renewSiteCertificate args) rfl)
  case switchSitePrimary => exact adminJson_writes (only_of_program x.hub (.switchSitePrimary args.1 args.2) rfl)
  case createRelease => exact adminJson_writes (only_of_program x.hub (.createRelease args) rfl)
  case listReleases => exact adminJson_writes (only_of_program x.hub .listReleases rfl)
  case createDnsProvider => exact adminJson_writes (only_of_program x.hub (.createDnsProvider args) rfl)
  case listDnsProviders => exact adminJson_writes (only_of_program x.hub .listDnsProviders rfl)
  case updateDnsProvider => exact adminJson_writes (only_of_program x.hub (.updateDnsProvider args.1 args.2) rfl)
  case deleteDnsProvider => exact adminJson_writes (only_of_program x.hub (.deleteDnsProvider args) rfl)
  case syncDnsZones => exact adminJson_writes (only_of_program x.hub (.syncDnsZones args) rfl)
  case listDnsZones => exact adminJson_writes (only_of_program x.hub .listDnsZones rfl)
  case enableDnsZone => exact adminJson_writes (only_of_program x.hub (.updateDnsZoneStatus args true) rfl)
  case disableDnsZone => exact adminJson_writes (only_of_program x.hub (.updateDnsZoneStatus args false) rfl)
  case deleteDnsZone => exact adminJson_writes (only_of_program x.hub (.deleteDnsZone args) rfl)
  case createCertificateOrder =>
    exact adminJson_writes (only_of_program x.hub (.createCertificateOrder args) rfl)
  case listCertificateOrders => exact adminJson_writes (only_of_program x.hub .listCertificateOrders rfl)
  case retryCertificateOrder => exact adminJson_writes (only_of_program x.hub (.retryCertificateOrder args) rfl)
  case resetCertificateOrder => exact adminJson_writes (only_of_program x.hub (.resetCertificateOrder args) rfl)
  case registerNode => exact fun g => (wp_map _ _).2 (only_of_program x.hub (.registerNode args) rfl g)
  case refreshNodeAuth => exact fun g => (wp_map _ _).2 (only_of_program x.hub (.refreshNodeToken args) rfl g)
  case nodeHeartbeat => exact nodeJson_writes (only_of_program x.hub (.nodeHeartbeat args) rfl)
  case latestRelease => exact nodeJson_writes (only_of_program x.hub (.latestReleaseForNode args) rfl)
  case configPackage => exact nodeJson_writes (only_of_program x.hub (.configPackageForNode args.2 args.1) rfl)
  case ackRelease => exact nodeJson_writes (only_of_program x.hub (.ackRelease args.1 args.2) rfl)
  case nextNodeOperation =>
    exact nodeJson_writes (safe_bind (only_of_program x.hub (.claimNextNodeOperation args) rfl) fun _ => safe_okOr _ _)
  case reportNodeOperationResult =>
    exact nodeJson_writes (only_of_program x.hub (.reportNodeOperationResult args.1 args.2) rfl)

/-! ## Runs -/

/-- Every call is one that the handler of the request can make. -/
abbrev WritesOf (p : Platform) (q : Front × HttpRequest) (_ : List (Made hubSig)) (c : HubCall) : Prop :=
  ∃ v, q.1.visit q.2 = .ok v ∧ Writes p v.headers v.handler.effects c

theorem frontProgram_writes {p : Platform} (q : Front × HttpRequest) :
    Prog.wp (.remembering (WritesOf p)) (frontProgram p q) (fun _ _ => True) (q, []) := by
  suffices hw : wp (.remembering (WritesOf p)) (q.1.program p q.2) (fun _ _ => True) (fun _ _ => True) (q, []) by
    exact Prog.wp_mono (fun _ _ _ => trivial) (wp_iff_run.1 hw)
  rw [Front.program]
  split
  · exact (wp_throw _).2 trivial
  · rename_i v hv
    rw [wp_mapError, Visit.program, wp_map]
    refine wp_mono (fun _ _ _ => trivial) (fun _ _ _ => trivial)
      ((run_only p q.1 v).wp (I := fun g => g.1 = q) ?_ ?_ rfl)
    · rintro c g hc rfl
      exact ⟨v, hv, hc⟩
    · rintro c g r _ _ hg rfl
      exact hg

section Runs

variable {ι : Type} [DecidableEq ι] {p : Platform} {w : World} {ms : List (Move ι (Front × HttpRequest))}

/-- In every run, each request makes the calls of its handler. -/
theorem writes_of_handler : Pool.Admits (hubHandler p) (frontProgram p) (fun P m => ∀ i, m = .go i → ∀ c ∈ P.next i,
    ∃ q, Pool.asked ms i = some q ∧ WritesOf p q (Pool.own P.trace i) c) (Pool.init w) ms :=
  Pool.admits_remembered frontProgram_writes w ms

theorem quiet_of_within_nil {c : HubCall} (h : c.Within []) : c.Quiet := by
  cases c <;> trivial

/-- What the table has for `GET`. -/
theorem routes_get : ∀ r ∈ routes, ∀ m ∈ r.2, m.1 = .get → m.2.effects = [] ∨ r.1 = "/api/node/operations/pending" := by
  decide +kernel

/-- A request with `GET` or `HEAD` writes nothing but the last use of the session of its cookie, whatever runs beside
it. The exception is the one for the next operation of a node, which claims it. -/
theorem reads_leave_stores {i : ι} {x : Front} {r : HttpRequest} (hr : Pool.asked ms i = some (x, r))
    (hmethod : r.method = .get ∨ r.method = .head) (hpath : r.path ≠ "/api/node/operations/pending") :
    Pool.Admits (hubHandler p) (frontProgram p) (fun P m => m = .go i → ∀ c ∈ P.next i, c.Quiet ∨
      TouchesOwn p r.headers c) (Pool.init w) ms := by
  refine Pool.admits_mono (fun P m hm hmi c hc => ?_) writes_of_handler
  obtain ⟨q, hq, v, hv, hwrites⟩ := hm i hmi c hc
  obtain rfl : q = (x, r) := Option.some.inj (hq.symm.trans hr)
  obtain ⟨hheaders, params, hroute⟩ := route_of_visit hv
  obtain ⟨row, hrow, hm, hmatch⟩ := exists_of_route hroute
  have hget : (if r.method = .head then .get else r.method) = Method.get := by
    rcases hmethod with h | h <;> simp [h]
  rw [hget] at hm
  rcases routes_get row hrow _ hm rfl with heffects | hpending
  · rcases hwrites with hwithin | htouch
    · rw [heffects] at hwithin
      exact .inl (quiet_of_within_nil hwithin)
    · rw [hheaders] at htouch
      exact .inr htouch
  · rw [hpending] at hmatch
    exact absurd (split_inj (eq_of_matchSegments hmatch (captures_excepted List.mem_cons_self))) hpath

end Runs

/-- The description of the hub, read with the session of `signedIn`. -/
def readMeta : HttpRequest := { createEdge with method := .get, path := "/api/admin/meta" }

theorem reads_leave_stores_meta :
    ((Pool.exec (hubHandler .plain) (frontProgram .plain) (Pool.init signedIn)
      (.spawn () (nodeFront, readMeta) :: List.replicate 4 (.go ()))).result ()).map (·.isOk) = some true ∧
    Pool.Admits (hubHandler .plain) (frontProgram .plain) (fun P m => m = .go () → ∀ c ∈ P.next (),
      c.Quiet ∨ TouchesOwn .plain readMeta.headers c) (Pool.init signedIn)
      (.spawn () (nodeFront, readMeta) :: List.replicate 4 (.go ())) :=
  ⟨by decide +kernel, reads_leave_stores rfl (.inl rfl) (by decide)⟩

end PingoraMesh.HubApi
