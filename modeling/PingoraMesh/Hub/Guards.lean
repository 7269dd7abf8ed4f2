import PingoraMesh.Hub.Alone
import PingoraMesh.Hub.Http
import PingoraMesh.Hub.Passwords
import PingoraMesh.Lib.Own
import PingoraMesh.Lib.Words

/-!
# What entitles a request to write

Any number of requests reach the front at once. A handler reads its credentials from the store before it calls the
service, and other requests move the store in between.

* `Entitled`: what a request has shown by its own calls when it makes a call that writes: a session or a lease that it
  has found and checked, a password, a bootstrap token, a refresh token, or its own cookie;
* `calls_entitled`: in every run, every call that writes is made by a request that is entitled to it;
* `admin_paths_need_session`: below `/api/admin/`, other than for signing in and out, nothing is written without a
  session.
-/

namespace PingoraMesh.HubApi

open Calls Fallible HubService

/-! ## Credentials -/

/-- What a handler asks of a request; the pages of the console look at a session only to choose what to show. -/
inductive Credential where
  | nothing
  | page
  | session
  | lease
  deriving DecidableEq, Repr

/-- What each handler asks. -/
def Endpoint.credential : Endpoint → Credential
  | .consoleStyles | .consoleScript | .consoleIconfont | .loginStyles | .loginScript | .healthz | .adminLogin
  | .adminLogout | .registerNode | .refreshNodeAuth => .nothing
  | .consoleEntry | .loginPage => .page
  | .nodeHeartbeat | .latestRelease | .configPackage | .ackRelease | .nextNodeOperation | .reportNodeOperationResult =>
    .lease
  | _ => .session

/-- The node that a request for a node is about. -/
def Visit.node : Visit → Option Uuid
  | ⟨.nodeHeartbeat, r, _⟩ => some r.nodeId
  | ⟨.latestRelease, nodeId, _⟩ => some nodeId
  | ⟨.configPackage, (_, nodeId), _⟩ => some nodeId
  | ⟨.ackRelease, (_, r), _⟩ => some r.nodeId
  | ⟨.nextNodeOperation, nodeId, _⟩ => some nodeId
  | ⟨.reportNodeOperationResult, (_, r), _⟩ => some r.nodeId
  | _ => none

/-- The session under a hash was found active, and at the time that was read next it had not expired. -/
def ChecksSession (l : List (Made hubSig)) (hash : String) : Prop :=
  ∃ (context : AdminSessionContext) (now : DateTime), context.status = "active" ∧ now ≤ context.expiresAt ∧
    [⟨.adminSessionByTokenHash hash, some context⟩, ⟨.utcNow, now⟩] <:+: l

/-- The lease of an access token was found to be of the node, at the time that was read next it had not expired, and
then the node was found. -/
def ChecksLease (l : List (Made hubSig)) (token : String) (nodeId : Uuid) : Prop :=
  ∃ (lease : TokenLease) (now : DateTime) (node : NodeRecord), lease.nodeId = nodeId ∧ now ≤ lease.expiresAt ∧
    [⟨.accessLease token, some lease⟩, ⟨.utcNow, now⟩, ⟨.node nodeId, some node⟩] <:+: l

/-- The session of the cookie has been checked. -/
def HasSession (p : Platform) (l : List (Made hubSig)) (headers : HeaderMap) : Prop :=
  ∃ token, extractCookieValue headers adminSessionCookie = some token ∧ ChecksSession l (hashToken p token)

/-- The lease of the bearer token has been checked. -/
def HasLease (l : List (Made hubSig)) (headers : HeaderMap) (nodeId : Uuid) : Prop :=
  ∃ token, extractBearerToken headers = .ok token ∧ ChecksLease l token nodeId

/-- The password fits the hash of an active user that was found. -/
def ShowsPassword (p : Platform) (l : List (Made hubSig)) (r : AdminLoginRequest) (userId : Uuid) : Prop :=
  ∃ (username : String) (user : AdminUserRecord), normalizeAdminUsername r.username = .ok username ∧
    ⟨.adminUserByUsername username, some user⟩ ∈ l ∧ user.status = "active" ∧
    verifyPassword p user.passwordHash r.password = .ok () ∧ user.userId = userId

/-- The node of the code was found with the bootstrap token. -/
def ShowsBootstrap (p : Platform) (l : List (Made hubSig)) (r : NodeRegisterRequest) (node : NodeRecord) : Prop :=
  ∃ nodeId : Uuid, ⟨.nodeIdByCode r.nodeCode, some nodeId⟩ ∈ l ∧ ⟨.node nodeId, some node⟩ ∈ l ∧
    node.bootstrapToken = some (hashToken p r.bootstrapToken)

/-- A call that writes only what belongs to a node, as far as the calls before it tell. -/
def Concerns (nodeId : Uuid) (l : List (Made hubSig)) : HubCall → Prop
  | .recordHeartbeat heartbeat => heartbeat.nodeId = nodeId
  | .updateReleaseAck _ node _ => node = nodeId
  | .saveNode node => ∃ old : NodeRecord, ⟨.node nodeId, some old⟩ ∈ l ∧ node.identity = old.identity
  | .claimNextNodeOperation node => node = nodeId
  | .updateNodeOperation operation => ∃ (operationId : Uuid) (old : NodeOperationRecord),
      ⟨.nodeOperation operationId, some old⟩ ∈ l ∧ old.nodeId = nodeId ∧ operation.operationId = old.operationId ∧
      operation.nodeId = old.nodeId
  | _ => False

/-- The call stores or touches what a sign-in of a user does. -/
def SignsInAs (userId : Uuid) : HubCall → Prop
  | .saveAdminSession session => session.userId = userId
  | .touchAdminUserLogin user _ => user = userId
  | _ => False

/-- The call gives the node tokens, or stores it without its bootstrap token. -/
def Enrols (node : NodeRecord) (l : List (Made hubSig)) : HubCall → Prop
  | .issueTokens nodeId _ => ⟨.node nodeId, some node⟩ ∈ l
  | .saveNode record => record.identity.id = node.identity.id ∧ record.bootstrapToken = none
  | _ => False

/-- What entitles a request to a call, after the calls that it has made. -/
inductive Entitled (p : Platform) (l : List (Made hubSig)) : Visit → HubCall → Prop
  | session {v : Visit} {c : HubCall} (asked : v.handler.credential = .session ∨ v.handler.credential = .page)
      (shown : HasSession p l v.headers) : Entitled p l v c
  | lease {v : Visit} {c : HubCall} {nodeId : Uuid} (node : v.node = some nodeId) (shown : HasLease l v.headers nodeId)
      (concerns : Concerns nodeId l c) : Entitled p l v c
  | password {r : AdminLoginRequest} {headers : HeaderMap} {c : HubCall} {userId : Uuid}
      (shown : ShowsPassword p l r userId) (signsIn : SignsInAs userId c) : Entitled p l ⟨.adminLogin, r, headers⟩ c
  | bootstrap {r : NodeRegisterRequest} {headers : HeaderMap} {c : HubCall} {node : NodeRecord}
      (shown : ShowsBootstrap p l r node) (enrols : Enrols node l c) : Entitled p l ⟨.registerNode, r, headers⟩ c
  | refresh {r : NodeRefreshRequest} {headers : HeaderMap} {ttl : Int} {lease : TokenLease}
      (node : lease.nodeId = r.nodeId) (shown : ⟨.refreshLease r.refreshToken, some lease⟩ ∈ l) :
      Entitled p l ⟨.refreshNodeAuth, r, headers⟩ (.issueTokens r.nodeId ttl)
  | logout {headers : HeaderMap} {token : String}
      (cookie : extractCookieValue headers adminSessionCookie = some token) :
      Entitled p l ⟨.adminLogout, (), headers⟩ (.deleteAdminSession (hashToken p token))

/-- Every call that writes is one that the request is entitled to. -/
def Allows (p : Platform) (q : Front × HttpRequest) (l : List (Made hubSig)) (c : HubCall) : Prop :=
  c.Quiet ∨ ∃ v, q.1.visit q.2 = .ok v ∧ Entitled p l v c

/-- What a request has shown when it is answered without an error. -/
def Shows (p : Platform) (v : Visit) (l : List (Made hubSig)) : Prop :=
  match v.handler.credential with
  | .session => HasSession p l v.headers
  | .lease => ∃ nodeId, v.node = some nodeId ∧ HasLease l v.headers nodeId
  | _ => True

/-- What is asked of the calls of a request. -/
abbrev guardSpec (p : Platform) : Spec hubSig ((Front × HttpRequest) × List (Made hubSig)) := .remembering (Allows p)

theorem ChecksSession.append {l : List (Made hubSig)} {hash : String} (h : ChecksSession l hash)
    (l' : List (Made hubSig)) : ChecksSession (l ++ l') hash := by
  obtain ⟨context, now, hactive, hnow, hin⟩ := h
  exact ⟨context, now, hactive, hnow, hin.trans (List.prefix_append l l').isInfix⟩

theorem HasSession.append {p : Platform} {l : List (Made hubSig)} {headers : HeaderMap} (h : HasSession p l headers)
    (l' : List (Made hubSig)) : HasSession p (l ++ l') headers := by
  obtain ⟨token, hcookie, hchecks⟩ := h
  exact ⟨token, hcookie, hchecks.append l'⟩

theorem HasLease.append {l : List (Made hubSig)} {headers : HeaderMap} {nodeId : Uuid} (h : HasLease l headers nodeId)
    (l' : List (Made hubSig)) : HasLease (l ++ l') headers nodeId := by
  obtain ⟨token, hbearer, lease, now, node, hnode, hnow, hin⟩ := h
  exact ⟨token, hbearer, lease, now, node, hnode, hnow, hin.trans (List.prefix_append l l').isInfix⟩

/-! ## The service -/

section Service

variable {p : Platform} {q : Front × HttpRequest} {v : Visit} {l : List (Made hubSig)}

/-- A call that leaves the store is allowed to all. -/
theorem allows_quiet {c : HubCall} (h : c.Quiet) : Allows p q l c := .inl h

/-- A check of a session only touches it once it has been found. -/
theorem authorizeAdminSession_wp {token : String}
    (htouch : ∀ l' seen, ChecksSession l' (hashToken p token) →
      Allows p q l' (.touchAdminSession (hashToken p token) seen)) :
    wp (guardSpec p) (authorizeAdminSession p token)
      (fun _ g => g.1 = q ∧ ChecksSession g.2 (hashToken p token)) (fun _ g => g.1 = q) (q, l) := by
  simp only [authorizeAdminSession, repo, wp_bind, wp_okOr, wp_ensure, wp_call_protocol, wp_pure]
  refine ⟨fun _ => ⟨allows_quiet trivial, fun found => ⟨fun context hfound => ?_, fun _ => trivial⟩⟩, fun _ => trivial⟩
  refine ⟨fun hactive => ⟨allows_quiet trivial, fun now => ⟨fun hnow => ?_, fun _ => trivial⟩⟩, fun _ => trivial⟩
  have hchecked : ChecksSession (l ++ [⟨.adminSessionByTokenHash (hashToken p token), found⟩] ++ [⟨.utcNow, now⟩])
      (hashToken p token) := by
    refine ⟨context, now, beq_iff_eq.1 hactive, ?_, ?_⟩
    · simp only [Bool.not_eq_true', decide_eq_false_iff_not] at hnow
      exact Int.not_lt.1 hnow
    · rw [hfound]
      exact ⟨l, [], by simp⟩
  have hseen := fun seen => hchecked.append [⟨.utcNow, seen⟩]
  exact ⟨allows_quiet trivial, fun seen => ⟨htouch _ _ (hseen seen), fun _ => ⟨trivial, (hseen seen).append _⟩⟩⟩

/-- Once the session has been checked, a request that asks for it may make any call. -/
theorem allows_session (hv : q.1.visit q.2 = .ok v)
    (hasked : v.handler.credential = .session ∨ v.handler.credential = .page)
      (hl : HasSession p l v.headers) (c : HubCall) :
    Allows p q l c := .inr ⟨v, hv, .session hasked hl⟩

/-- `require_admin_session` leaves the request with a checked session. -/
theorem requireAdminSession_wp (hv : q.1.visit q.2 = .ok v) (hasked : v.handler.credential = .session) :
    wp (guardSpec p) (requireAdminSession p v.headers) (fun _ g => g.1 = q ∧ HasSession p g.2 v.headers)
      (fun _ _ => True) (q, l) := by
  rw [requireAdminSession, wp_bind, wp_attempt]
  refine ⟨fun token htoken => ?_, fun _ _ => trivial⟩
  have hcookie : extractCookieValue v.headers adminSessionCookie = some token := by
    unfold extractAdminSessionCookie at htoken
    split at htoken
    · rename_i t ht
      cases htoken
      exact ht
    · cases htoken
  refine wp_mono (fun _ g hg => ⟨hg.1, token, hcookie, hg.2⟩) (fun _ _ _ => trivial) (authorizeAdminSession_wp ?_)
  exact fun l' seen hl' => allows_session hv (.inl hasked) ⟨token, hcookie, hl'⟩ _

/-- With a checked session any program is allowed. -/
theorem session_wp {α : Type} (hv : q.1.visit q.2 = .ok v) (hasked : v.handler.credential = .session) (x : HubM α)
    {g : (Front × HttpRequest) × List (Made hubSig)} (hg : g.1 = q ∧ HasSession p g.2 v.headers) :
    wp (guardSpec p) x (fun _ g => Shows p v g.2) (fun _ _ => True) g := by
  refine wp_mono (fun _ g hg => ?_) (fun _ _ _ => trivial)
    (Fallible.wp_always (I := fun g => g.1 = q ∧ HasSession p g.2 v.headers) ?_ ?_ x hg)
  · rw [Shows, hasked]
    exact hg.2
  · rintro c ⟨_, l'⟩ ⟨rfl, hl'⟩
    exact allows_session hv (.inl hasked) hl' c
  · rintro c ⟨_, l'⟩ r _ rfl ⟨rfl, hl'⟩
    exact ⟨rfl, hl'.append _⟩

/-- The handlers for administrators. -/
theorem adminJson_wp {α : Type} (hv : q.1.visit q.2 = .ok v) (hasked : v.handler.credential = .session)
    (call : HubM α) :
    wp (guardSpec p) (adminJson p v.headers call) (fun _ g => Shows p v g.2) (fun _ _ => True) (q, l) := by
  rw [adminJson, wp_bind]
  exact wp_mono (fun _ g hg => session_wp hv hasked _ hg) (fun _ _ h => h) (requireAdminSession_wp hv hasked)

/-- `authorize_node` leaves the request with a checked lease. -/
theorem authorizeNode_wp {nodeId : Uuid} {token : String} :
    wp (guardSpec p) (authorizeNode nodeId token) (fun _ g => g.1 = q ∧ ChecksLease g.2 token nodeId) (fun _ _ => True)
      (q, l) := by
  simp only [authorizeNode, repo, wp_bind, wp_okOr, wp_ensure, wp_call_protocol]
  refine ⟨allows_quiet trivial, fun found => ⟨fun lease hfound => ⟨fun hnode => ?_, fun _ => trivial⟩,
    fun _ => trivial⟩⟩
  refine
    ⟨allows_quiet trivial,
      fun now => ⟨fun hnow => ⟨allows_quiet trivial, fun node => ⟨fun hsome => ?_, fun _ => trivial⟩⟩,
    fun _ => trivial⟩⟩
  obtain ⟨record, hrecord⟩ := Option.isSome_iff_exists.1 hsome
  refine ⟨trivial, lease, now, record, beq_iff_eq.1 hnode, ?_, ?_⟩
  · simp only [Bool.not_eq_true', decide_eq_false_iff_not] at hnow
    exact Int.not_lt.1 hnow
  · rw [hfound, hrecord]
    exact ⟨l, [], by simp⟩

variable {nodeId : Uuid}

/-- With a checked lease a request may make the calls that concern its node. -/
theorem allows_lease (hv : q.1.visit q.2 = .ok v) (hnode : v.node = some nodeId) (hl : HasLease l v.headers nodeId)
    {c : HubCall} (hc : Concerns nodeId l c) : Allows p q l c := .inr ⟨v, hv, .lease hnode hl hc⟩

/-- The handlers for nodes: what they call needs the lease. -/
theorem nodeJson_wp {α : Type} {call : HubM α} (hnode : v.node = some nodeId) (hasked : v.handler.credential = .lease)
    (hcall : ∀ l', HasLease l' v.headers nodeId → wp (guardSpec p) call
      (fun _ g => g.1 = q ∧ HasLease g.2 v.headers nodeId) (fun _ _ => True) (q, l')) :
    wp (guardSpec p) (nodeJson v.headers nodeId call) (fun _ g => Shows p v g.2) (fun _ _ => True) (q, l) := by
  rw [nodeJson, wp_bind, wp_attempt]
  refine ⟨fun token htoken => ?_, fun _ _ => trivial⟩
  rw [wp_bind]
  refine wp_mono ?_ (fun _ _ h => h) authorizeNode_wp
  rintro _ ⟨_, l'⟩ ⟨rfl, hl'⟩
  rw [wp_bind]
  refine wp_mono (fun _ g hg => (wp_pure _).2 ?_) (fun _ _ h => h) (hcall l' ⟨token, htoken, hl'⟩)
  rw [Shows, hasked]
  exact ⟨nodeId, hnode, hg.2⟩

section Node

variable (hv : q.1.visit q.2 = .ok v) (hnode : v.node = some nodeId) (hl : HasLease l v.headers nodeId)

include hv hnode hl

theorem nodeHeartbeat_wp {r : NodeHeartbeatRequest} (hr : r.nodeId = nodeId) :
    wp (guardSpec p) (nodeHeartbeat r) (fun _ g => g.1 = q ∧ HasLease g.2 v.headers nodeId)
      (fun _ _ => True) (q, l) := by
  simp only [nodeHeartbeat, repo, wp_bind, wp_ensure, wp_call_protocol, wp_pure, implies_true, and_true, true_and]
  refine ⟨allows_quiet trivial, fun node _ => ⟨allows_quiet trivial, fun now => ⟨?_, fun _ => ⟨allows_quiet trivial,
    fun _ => (((hl.append _).append _).append _).append _⟩⟩⟩⟩
  exact allows_lease hv hnode ((hl.append _).append _) hr

theorem ackRelease_wp {releaseId : Uuid} {r : ReleaseAckRequest} (hr : r.nodeId = nodeId) :
    wp (guardSpec p) (ackRelease releaseId r) (fun _ g => g.1 = q ∧ HasLease g.2 v.headers nodeId) (fun _ _ => True)
      (q, l) := by
  simp only [ackRelease, repo, wp_bind, wp_okOr, wp_ensure, wp_forSome, wp_call_protocol, wp_pure,
    implies_true, and_true, true_and]
  refine ⟨allows_quiet trivial, fun release _ _ _ => ⟨allows_quiet trivial, fun now => ⟨?_, fun _ =>
    ⟨allows_quiet trivial, fun found => ⟨fun node hfound => ⟨allows_quiet trivial, fun seen => ⟨?_, fun _ => ?_⟩⟩,
      fun _ => (((hl.append _).append _).append _).append _⟩⟩⟩⟩⟩
  · exact allows_lease hv hnode ((hl.append _).append _) hr
  · refine allows_lease hv hnode (((((hl.append _).append _).append _).append _).append _) ⟨node, ?_, rfl⟩
    rw [hfound, hr]
    simp
  · exact (((((hl.append _).append _).append _).append _).append _).append _

theorem nextNodeOperation_wp : wp (guardSpec p) (nextNodeOperation nodeId)
    (fun _ g => g.1 = q ∧ HasLease g.2 v.headers nodeId) (fun _ _ => True) (q, l) := by
  simp only [nextNodeOperation, claimNextNodeOperation, repo, wp_bind, wp_attempt, wp_okOr,
    wp_call_protocol, implies_true, and_true, true_and]
  exact ⟨allows_lease hv hnode hl rfl, fun _ _ _ _ _ => hl.append _⟩

theorem reportNodeOperationResult_wp {operationId : Uuid} {r : OperationResultRequest} (hr : r.nodeId = nodeId) :
    wp (guardSpec p) (reportNodeOperationResult p operationId r) (fun _ g => g.1 = q ∧ HasLease g.2 v.headers nodeId)
      (fun _ _ => True) (q, l) := by
  simp only [reportNodeOperationResult, repo, wp_bind, wp_okOr, wp_ensure, wp_attempt, wp_getOr,
    wp_call_protocol, wp_pure, implies_true, and_true, true_and]
  refine ⟨allows_quiet trivial, fun found operation hfound hown status _ => ?_⟩
  have hold : (⟨.nodeOperation operationId, some operation⟩ : Made hubSig) ∈ l ++
    [⟨.nodeOperation operationId, found⟩] := by
    rw [hfound]
    simp
  have hown' : operation.nodeId = nodeId := (beq_iff_eq.1 hown).trans hr
  constructor
  · intro started _
    refine ⟨allows_lease hv hnode (hl.append _) ⟨operationId, operation, hold, hown', rfl, rfl⟩, fun _ => ?_⟩
    exact (hl.append _).append _
  · intro _
    refine ⟨allows_quiet trivial, fun started => ⟨?_, fun _ => ((hl.append _).append _).append _⟩⟩
    exact allows_lease hv hnode ((hl.append _).append _)
      ⟨operationId, operation, List.mem_append_left _ hold, hown', rfl, rfl⟩

omit hv hnode

theorem latestReleaseForNode_wp : wp (guardSpec p) (latestReleaseForNode nodeId)
    (fun _ g => g.1 = q ∧ HasLease g.2 v.headers nodeId) (fun _ _ => True) (q, l) := by
  simp only [latestReleaseForNode, repo, wp_bind, wp_okOr, wp_call_protocol, wp_pure, implies_true, and_true, true_and]
  exact ⟨allows_quiet trivial, fun _ _ _ => ⟨allows_quiet trivial, fun _ _ _ => (hl.append _).append _⟩⟩

theorem configPackageForNode_wp {version : String} : wp (guardSpec p) (configPackageForNode nodeId version)
    (fun _ g => g.1 = q ∧ HasLease g.2 v.headers nodeId) (fun _ _ => True) (q, l) := by
  simp only [configPackageForNode, repo, wp_bind, wp_okOr, wp_ensure, wp_call_protocol, wp_pure, implies_true, and_true,
    true_and]
  exact ⟨allows_quiet trivial, fun _ _ _ _ => hl.append _⟩

end Node

/-! ## The other handlers -/

section Others

/-- `console_entry` and `login_page` ask for a session only to choose a page. -/
theorem hasSession_wp (hv : q.1.visit q.2 = .ok v) (hasked : v.handler.credential = .page) :
    wp (guardSpec p) (hasSession p v.headers) (fun _ g => g.1 = q) (fun _ _ => True) (q, l) := by
  unfold hasSession
  split
  · exact (wp_pure _).2 rfl
  · rename_i token hcookie
    rw [wp_bind, wp_caught]
    refine wp_mono (fun _ g hg => (wp_pure _).2 hg.1) (fun _ g hg => (wp_pure _).2 hg) (authorizeAdminSession_wp ?_)
    exact fun l' seen hl' => allows_session hv (.inr hasked) ⟨token, hcookie, hl'⟩ _

theorem consoleEntry_wp (hv : q.1.visit q.2 = .ok v) (hasked : v.handler.credential = .page) :
    wp (guardSpec p) (consoleEntry p v.headers) (fun _ _ => True) (fun _ _ => True) (q, l) := by
  rw [consoleEntry, wp_bind]
  refine wp_mono (fun found g _ => ?_) (fun _ _ h => h) (hasSession_wp hv hasked)
  cases found <;> exact (wp_pure _).2 trivial

theorem loginPage_wp (hv : q.1.visit q.2 = .ok v) (hasked : v.handler.credential = .page) :
    wp (guardSpec p) (loginPage p v.headers) (fun _ _ => True) (fun _ _ => True) (q, l) := by
  rw [loginPage, wp_bind]
  refine wp_mono (fun found g _ => ?_) (fun _ _ h => h) (hasSession_wp hv hasked)
  cases found <;> exact (wp_pure _).2 trivial

section Session

variable (hv : q.1.visit q.2 = .ok v) (hasked : v.handler.credential = .session)

include hv hasked

theorem adminMe_wp :
    wp (guardSpec p) (adminMe p v.headers) (fun _ g => Shows p v g.2) (fun _ _ => True) (q, l) := by
  have h := requireAdminSession_wp (p := p) (l := l) hv hasked
  rw [requireAdminSession, wp_bind] at h
  rw [adminMe, wp_bind]
  refine wp_mono (fun token g hg => ?_) (fun _ _ h => h) h
  rw [wp_bind]
  exact wp_mono (fun _ _ hg' => session_wp hv hasked _ hg') (fun _ _ h => h) hg

theorem changeAdminPassword_wp (r : ChangeAdminPasswordRequest) :
    wp (guardSpec p) (HubApi.changeAdminPassword p v.headers r) (fun _ g => Shows p v g.2)
      (fun _ _ => True) (q, l) := by
  have h := requireAdminSession_wp (p := p) (l := l) hv hasked
  rw [requireAdminSession, wp_bind] at h
  rw [HubApi.changeAdminPassword, wp_bind]
  refine wp_mono (fun token g hg => ?_) (fun _ _ h => h) h
  rw [wp_bind, HubService.changeAdminPassword, wp_bind]
  refine wp_mono (fun _ g' hg' => ?_) (fun _ _ h => h) hg
  exact wp_mono (fun _ _ hg => (wp_pure _).2 hg) (fun _ _ h => h) (session_wp hv hasked _ hg')

theorem createNodeOperation_wp (nodeId : Uuid) (r : CreateNodeOperationRequest) :
    wp (guardSpec p) (HubApi.createNodeOperation p v.headers nodeId r) (fun _ g => Shows p v g.2) (fun _ _ => True)
      (q, l) := by
  rw [HubApi.createNodeOperation, wp_bind]
  exact wp_mono (fun _ g hg => session_wp hv hasked _ hg) (fun _ _ h => h) (requireAdminSession_wp hv hasked)

end Session

/-- A sign-in stores a session and touches the user only once the password has been checked. -/
theorem adminLogin_wp {r : AdminLoginRequest} {headers : HeaderMap}
    (hv : q.1.visit q.2 = .ok ⟨.adminLogin, r, headers⟩) :
    wp (guardSpec p) (HubApi.adminLogin p r) (fun _ _ => True) (fun _ _ => True) (q, []) := by
  simp only [HubApi.adminLogin, loginAdmin, repo, wp_bind, wp_okOr, wp_ensure, wp_attempt, wp_call_protocol, wp_pure,
    implies_true, and_true]
  refine fun username hname _ => ⟨allows_quiet trivial, fun found user hfound hactive _ hverify => ?_⟩
  have hshown : ∀ l', ⟨.adminUserByUsername username, found⟩ ∈ l' → ShowsPassword p l' r user.userId := by
    intro l' hl'
    rw [hfound] at hl'
    exact ⟨username, user, hname, hl', beq_iff_eq.1 hactive, hverify, rfl⟩
  refine
    ⟨allows_quiet trivial,
      fun _ => ⟨allows_quiet trivial, fun _ => ⟨allows_quiet trivial, fun _ => ⟨allows_quiet trivial,
    fun _ => ⟨allows_quiet trivial,
      fun _ => ⟨allows_quiet trivial, fun _ => ⟨?_, fun _ => ⟨allows_quiet trivial, fun _ =>
    ⟨?_, fun _ => allows_quiet trivial⟩⟩⟩⟩⟩⟩⟩⟩⟩
  all_goals exact .inr ⟨_, hv, .password (hshown _ (by simp)) rfl⟩

/-- Signing out deletes the session of the own cookie. -/
theorem adminLogout_wp {args : Unit} {headers : HeaderMap} (hv : q.1.visit q.2 = .ok ⟨.adminLogout, args, headers⟩) :
    wp (guardSpec p) (HubApi.adminLogout p headers) (fun _ _ => True) (fun _ _ => True) (q, l) := by
  simp only [HubApi.adminLogout, logoutAdmin, repo, wp_bind, wp_forSome, wp_discard, wp_onlyIf, wp_attempt,
    wp_call_protocol, wp_pure, implies_true, and_true]
  exact fun token hcookie _ => .inr ⟨_, hv, .logout hcookie⟩

/-- A registration issues tokens and stores the node only once the bootstrap token has been compared. -/
theorem registerNode_wp {r : NodeRegisterRequest} {headers : HeaderMap}
    (hv : q.1.visit q.2 = .ok ⟨.registerNode, r, headers⟩) :
    wp (guardSpec p) (registerNode p r) (fun _ _ => True) (fun _ _ => True) (q, []) := by
  simp only [registerNode, issueNodeTokens, repo, wp_bind, wp_okOr, wp_ensure, wp_call_protocol, wp_pure, implies_true,
    and_true]
  refine ⟨allows_quiet trivial, fun byCode nodeId hbyCode => ⟨allows_quiet trivial,
    fun found node hfound bootstrap hsome htoken => ?_⟩⟩
  have hshown : ∀ l', ⟨.nodeIdByCode r.nodeCode, byCode⟩ ∈ l' → ⟨.node nodeId, found⟩ ∈ l' →
    ShowsBootstrap p l' r node := by
    intro l' hcode hnode
    rw [hbyCode] at hcode
    rw [hfound] at hnode
    exact ⟨nodeId, hcode, hnode, hsome.trans (congrArg some (beq_iff_eq.1 htoken))⟩
  constructor
  · exact .inr ⟨_, hv, .bootstrap (hshown _ (by simp) (by simp)) (by simp [Enrols, hfound])⟩
  · intro _
    refine ⟨allows_quiet trivial, fun _ => ?_⟩
    exact .inr ⟨_, hv, .bootstrap (hshown _ (by simp) (by simp)) ⟨rfl, rfl⟩⟩

/-- A refresh issues tokens only for the node of the refresh token. -/
theorem refreshNodeToken_wp {r : NodeRefreshRequest} {headers : HeaderMap}
    (hv : q.1.visit q.2 = .ok ⟨.refreshNodeAuth, r, headers⟩) :
    wp (guardSpec p) (refreshNodeToken r) (fun _ _ => True) (fun _ _ => True) (q, []) := by
  simp only [refreshNodeToken, issueNodeTokens, repo, wp_bind, wp_okOr, wp_ensure, wp_call_protocol,
    wp_pure, implies_true, and_true]
  refine ⟨allows_quiet trivial, fun found lease hfound hnode => .inr ⟨_, hv, .refresh (beq_iff_eq.1 hnode) ?_⟩⟩
  simp [hfound]

end Others

end Service

/-! ## Every request -/

variable {p : Platform}

/-- Each handler makes only calls that the request is entitled to, and answers only what it has asked for. -/
theorem run_wp {q : Front × HttpRequest} {v : Visit} (hv : q.1.visit q.2 = .ok v) :
    wp (guardSpec p) (v.handler.run p q.1 v.headers v.args) (fun _ g => Shows p v g.2) (fun _ _ => True) (q, []) := by
  obtain ⟨handler, args, headers⟩ := v
  cases handler
  case consoleStyles | consoleScript | consoleIconfont | loginStyles | loginScript | healthz =>
    exact (wp_pure _).2 trivial
  case consoleEntry => exact consoleEntry_wp hv rfl
  case loginPage => exact loginPage_wp hv rfl
  case adminLogin => exact adminLogin_wp hv
  case adminMe => exact adminMe_wp hv rfl
  case changeAdminPassword => exact changeAdminPassword_wp hv rfl args
  case adminLogout => exact adminLogout_wp hv
  case createNodeOperation => exact createNodeOperation_wp hv rfl args.1 args.2
  case registerNode => exact (wp_map _ _).2 (registerNode_wp hv)
  case refreshNodeAuth => exact (wp_map _ _).2 (refreshNodeToken_wp hv)
  case nodeHeartbeat => exact nodeJson_wp rfl rfl fun l' hl' => nodeHeartbeat_wp hv rfl hl' rfl
  case latestRelease => exact nodeJson_wp rfl rfl fun l' hl' => latestReleaseForNode_wp hl'
  case configPackage => exact nodeJson_wp rfl rfl fun l' hl' => configPackageForNode_wp hl'
  case ackRelease => exact nodeJson_wp rfl rfl fun l' hl' => ackRelease_wp hv rfl hl' rfl
  case nextNodeOperation => exact nodeJson_wp rfl rfl fun l' hl' => nextNodeOperation_wp hv rfl hl'
  case reportNodeOperationResult => exact nodeJson_wp rfl rfl fun l' hl' => reportNodeOperationResult_wp hv rfl hl' rfl
  all_goals exact adminJson_wp hv rfl _

/-- The program of a request that reaches a front. -/
def frontProgram (p : Platform) (q : Front × HttpRequest) : Prog hubSig (Except HttpError (Reply Unit)) :=
  ExceptT.run (q.1.program p q.2)

/-- An answer without an error is given only once the request has shown what its handler asks for. -/
def Answered (p : Platform) (r : Except HttpError (Reply Unit))
    (g : (Front × HttpRequest) × List (Made hubSig)) : Prop :=
  ∀ reply, r = .ok reply → ∃ v, g.1.1.visit g.1.2 = .ok v ∧ Shows p v g.2

theorem frontProgram_wp (q : Front × HttpRequest) : Prog.wp (guardSpec p) (frontProgram p q) (Answered p) (q, []) := by
  suffices hw : wp (guardSpec p) (q.1.program p q.2) (fun _ g => ∃ v, q.1.visit q.2 = .ok v ∧ Shows p v g.2)
      (fun _ _ => True) (q, []) by
    refine Prog.wp_mono ?_ (Prog.wp_remembering (wp_iff_run.1 hw))
    rintro r g ⟨hr, hg⟩ reply rfl
    rw [hg]
    exact hr
  rw [Front.program]
  split
  · exact (wp_throw _).2 trivial
  · rename_i v hv
    rw [wp_mapError, Visit.program, wp_map]
    exact wp_mono (fun _ g hg => ⟨v, hv, hg⟩) (fun _ _ h => h) (run_wp hv)

section Runs

variable {ι : Type} [DecidableEq ι]

/-- In every run, each call that writes is made by a request that is entitled to it by its own calls. -/
theorem calls_entitled (p : Platform) (w : World) (ms : List (Move ι (Front × HttpRequest))) :
    Pool.Admits (hubHandler p) (frontProgram p) (fun P m => ∀ i, m = .go i → ∀ c ∈ P.next i, ∃ q,
      Pool.asked ms i = some q ∧ Allows p q (Pool.own P.trace i) c) (Pool.init w) ms :=
  Pool.admits_remembered frontProgram_wp w ms

/-- In every run, what has been answered without an error has shown what its handler asks for. -/
theorem answered_shows (p : Platform) (w : World) (ms : List (Move ι (Front × HttpRequest))) {i : ι}
    {q : Front × HttpRequest} (hq : Pool.asked ms i = some q) {reply : Reply Unit}
    (hr : (Pool.exec (hubHandler p) (frontProgram p) (Pool.init w) ms).result i = some (.ok reply)) :
    ∃ v, q.1.visit q.2 = .ok v ∧
      Shows p v (Pool.own (Pool.exec (hubHandler p) (frontProgram p) (Pool.init w) ms).trace i) := by
  obtain ⟨q', hq', hanswered⟩ := Pool.result_remembered frontProgram_wp w ms hr
  obtain rfl : q' = q := Option.some.inj (hq'.symm.trans hq)
  exact hanswered reply rfl

end Runs

/-! ## Paths -/

/-- The literal segments of a pattern are those of the path. -/
theorem take_of_matchSegments {n : ℕ} {patterns segments params : List String}
    (h : matchSegments patterns segments = some params) (hn : ∀ s ∈ patterns.take n, captures s = false) :
    segments.take n = patterns.take n := by
  induction n generalizing patterns segments params with
  | zero => simp
  | succ n ih =>
    cases patterns with
    | nil =>
      cases segments with
      | nil => rfl
      | cons => simp [matchSegments] at h
    | cons pattern patterns =>
      cases segments with
      | nil => simp [matchSegments] at h
      | cons segment segments =>
        simp only [List.take_succ_cons, List.mem_cons, forall_eq_or_imp] at hn
        rw [matchSegments, if_neg (by simp [hn.1])] at h
        split at h
        · rename_i heq
          rw [List.take_succ_cons, List.take_succ_cons, heq, ih h hn.2]
        · cases h

theorem eq_of_matchSegments {patterns segments params : List String} (h : matchSegments patterns segments = some params)
    (hp : ∀ s ∈ patterns, captures s = false) : segments = patterns := by
  have htake := take_of_matchSegments (n := patterns.length + segments.length) h fun s hs => hp s
    (List.mem_of_mem_take hs)
  rwa [List.take_of_length_le (Nat.le_add_left _ _), List.take_of_length_le (Nat.le_add_right _ _)] at htake

/-- A route is a row of the table. -/
theorem exists_of_route {method : Method} {path : String} {handler : Endpoint} {params : List String}
    (h : route method path = .ok (handler, params)) :
    ∃ r ∈ routes, (if method = .head then .get else method, handler) ∈ r.2 ∧
      matchSegments (Text.split r.1 '/') (Text.split path '/') = some params := by
  unfold route at h
  split at h
  · cases h
  · rename_i methods params' hmatch
    split at h
    · cases h
    · rename_i handler' hmethod
      obtain ⟨rfl, rfl⟩ := Prod.mk.inj (Except.ok.inj h)
      obtain ⟨⟨pattern, methods'⟩, hr, hsegments⟩ := List.exists_of_findSome?_eq_some hmatch
      obtain ⟨params'', hparams, heq⟩ := Option.map_eq_some_iff.1 hsegments
      obtain ⟨rfl, rfl⟩ := Prod.mk.inj heq
      obtain ⟨before, after, hmethods, -⟩ := List.lookup_eq_some_iff.1 hmethod
      have hmem : (if method = .head then .get else method, handler') ∈ methods' := by
        rw [hmethods]
        exact List.mem_append_right _ List.mem_cons_self
      exact ⟨_, hr, hmem, hparams⟩

/-- A path below another, other than some. -/
def Below (top : String) (others : List String) (path : String) : Prop := (∃ rest, path = top ++ rest) ∧ path ∉ others

/-- The paths for signing in and out. -/
def signingPaths : List String := ["/api/admin/auth/login", "/api/admin/auth/logout"]

/-- The paths for nodes that have no access token yet, or no longer. -/
def enrolPaths : List String := ["/api/node/register", "/api/node/auth/refresh"]

/-- What the table asks for; the first segments of its patterns are literals. -/
theorem routes_credentials :
    (∀ r ∈ routes, (∀ s ∈ (Text.split r.1 '/').take 3, captures s = false) ∧
      ((Text.split r.1 '/').take 3 = ["", "api", "admin"] → ∀ m ∈ r.2, m.2.credential = .session ∨ r.1 ∈ signingPaths) ∧
      ((Text.split r.1 '/').take 3 = ["", "api", "node"] → ∀ m ∈ r.2, m.2.credential = .lease ∨ r.1 ∈ enrolPaths)) ∧
    (∀ path ∈ "/api/node/operations/pending" :: (signingPaths ++ enrolPaths), ∀ s ∈ Text.split path '/',
      captures s = false) ∧
    (route .post "/api/admin/auth/login").map Prod.fst = .ok .adminLogin ∧
    (route .post "/api/admin/auth/logout").map Prod.fst = .ok .adminLogout := by
  decide +kernel

/-- The paths that are excepted are literals. -/
theorem captures_excepted {path : String} (hpath : path ∈ "/api/node/operations/pending" ::
    (signingPaths ++ enrolPaths)) : ∀ s ∈ Text.split path '/', captures s = false :=
  routes_credentials.2.1 path hpath

theorem route_login : (route .post "/api/admin/auth/login").map Prod.fst = .ok .adminLogin := routes_credentials.2.2.1

theorem route_logout : (route .post "/api/admin/auth/logout").map Prod.fst = .ok .adminLogout :=
  routes_credentials.2.2.2

theorem split_inj {s t : String} {c : Char} (h : Text.split s c = Text.split t c) : s = t := by
  refine String.toList_inj.1 (Text.splitChars_inj (List.map_injective_iff.2 ?_ h))
  exact fun _ _ => String.ofList_injective

/-- A path gets the handlers that the table has for its first segments, unless it is one of the others. -/
theorem credential_of_route {method : Method} {path : String} {handler : Endpoint} {params head others : List String}
    {credential : Credential} (h : route method path = .ok (handler, params))
    (hhead : (Text.split path '/').take 3 = head) (hpath : path ∉ others)
    (hroutes : ∀ r ∈ routes, (Text.split r.1 '/').take 3 = head →
      ∀ m ∈ r.2, m.2.credential = credential ∨ r.1 ∈ others)
    (hothers : ∀ path ∈ others, ∀ s ∈ Text.split path '/', captures s = false) : handler.credential = credential := by
  obtain ⟨r, hr, hm, hmatch⟩ := exists_of_route h
  have htake := take_of_matchSegments hmatch (routes_credentials.1 r hr).1
  rcases hroutes r hr (htake.symm.trans hhead) _ hm with hcredential | hother
  · exact hcredential
  · have heq : path = r.1 := split_inj (eq_of_matchSegments hmatch (hothers r.1 hother))
    rw [← heq] at hother
    exact absurd hother hpath

theorem credential_of_admin {method : Method} {path : String} {handler : Endpoint} {params : List String}
    (h : route method path = .ok (handler, params)) (hpath : Below "/api/admin/" signingPaths path) :
    handler.credential = .session := by
  obtain ⟨⟨rest, rfl⟩, hothers⟩ := hpath
  refine credential_of_route h ?_ hothers (fun r hr => (routes_credentials.1 r hr).2.1) fun path hpath =>
    captures_excepted (List.mem_cons_of_mem _ (List.mem_append_left _ hpath))
  simp [Text.split, Text.splitChars]

theorem credential_of_node {method : Method} {path : String} {handler : Endpoint} {params : List String}
    (h : route method path = .ok (handler, params)) (hpath : Below "/api/node/" enrolPaths path) :
    handler.credential = .lease := by
  obtain ⟨⟨rest, rfl⟩, hothers⟩ := hpath
  refine credential_of_route h ?_ hothers (fun r hr => (routes_credentials.1 r hr).2.2) fun path hpath =>
    captures_excepted (List.mem_cons_of_mem _ (List.mem_append_right _ hpath))
  simp [Text.split, Text.splitChars]

theorem route_of_visit {x : Front} {r : HttpRequest} {v : Visit} (h : x.visit r = .ok v) :
    v.headers = r.headers ∧ ∃ params, route r.method r.path = .ok (v.handler, params) := by
  unfold Front.visit at h
  obtain ⟨⟨handler, params⟩, hroute, h⟩ := bind_eq_ok.1 h
  obtain ⟨args, -, h⟩ := bind_eq_ok.1 h
  cases h
  exact ⟨rfl, params, hroute⟩

/-! ## Administrators -/

theorem credential_of_visit_node {v : Visit} {nodeId : Uuid} (h : v.node = some nodeId) :
    v.handler.credential = .lease := by
  obtain ⟨handler, args, headers⟩ := v
  cases handler
  case nodeHeartbeat | latestRelease | configPackage | ackRelease | nextNodeOperation | reportNodeOperationResult => rfl
  all_goals cases h

section Admin

variable {ι : Type} [DecidableEq ι] {p : Platform} {w : World} {ms : List (Move ι (Front × HttpRequest))}

/-- Below `/api/admin/`, other than for signing in and out: in every run a request writes nothing before it has found
the session of its cookie active and not expired, and it is not answered without an error otherwise. -/
theorem admin_paths_need_session {i : ι} {x : Front} {r : HttpRequest} (hr : Pool.asked ms i = some (x, r))
    (hpath : Below "/api/admin/" signingPaths r.path) :
    Pool.Admits (hubHandler p) (frontProgram p) (fun P m => m = .go i → ∀ c ∈ P.next i, ¬ c.Quiet →
      HasSession p (Pool.own P.trace i) r.headers) (Pool.init w) ms ∧
    ∀ reply, (Pool.exec (hubHandler p) (frontProgram p) (Pool.init w) ms).result i = some (.ok reply) →
      HasSession p (Pool.own (Pool.exec (hubHandler p) (frontProgram p) (Pool.init w) ms).trace i) r.headers := by
  have hvisit : ∀ v, x.visit r = .ok v → v.headers = r.headers ∧ v.handler.credential = .session := by
    intro v hv
    obtain ⟨hheaders, params, hroute⟩ := route_of_visit hv
    exact ⟨hheaders, credential_of_admin hroute hpath⟩
  constructor
  · refine Pool.admits_mono (fun P m hm hmi c hc hwrites => ?_) (calls_entitled p w ms)
    obtain ⟨q, hq, hallows⟩ := hm i hmi c hc
    obtain rfl : q = (x, r) := Option.some.inj (hq.symm.trans hr)
    obtain hquiet | ⟨v, hv, hentitled⟩ := hallows
    · exact absurd hquiet hwrites
    · obtain ⟨hheaders, hsession⟩ := hvisit v hv
      rw [← hheaders]
      cases hentitled with
      | session _ shown => exact shown
      | lease hnode =>
        rw [credential_of_visit_node hnode] at hsession
        cases hsession
      | password | bootstrap | refresh | logout => cases hsession
  · intro reply hreply
    obtain ⟨v, hv, hshows⟩ := answered_shows p w ms hr hreply
    obtain ⟨hheaders, hsession⟩ := hvisit v hv
    rw [Shows, hsession, hheaders] at hshows
    exact hshows

end Admin

/-- A front that reads every body as the same node. -/
def nodeFront : Front where
  hub := ⟨0, 30⟩
  bind := "127.0.0.1:8080"
  etcdPrefix := "/pingora"
  json := fun
    | .createNode, _ => .ok { nodeCode := "edge-1", name := "Edge 1", region := "", idc := "", labels := .null }
    | _, _ => .error 415

/-- A node is created with the session of `signedIn`. -/
def createEdge : HttpRequest where
  method := .post
  path := "/api/admin/nodes"
  query := []
  headers := [("cookie", "theme=dark; pingorahub_admin_session=" ++ sessionToken 1 2)]
  body := ""

/-- The pool in which the node has been created. -/
def edgeCreated : Pool hubSig (Except HttpError (Reply Unit)) Unit World :=
  Pool.exec (hubHandler .plain) (frontProgram .plain) (Pool.init signedIn)
    (.spawn () (nodeFront, createEdge) :: List.replicate 8 (.go ()))

theorem admin_paths_need_session_create : edgeCreated.state.store.nodeIdsByCode["edge-1"]?.isSome = true ∧
    HasSession .plain (Pool.own edgeCreated.trace ()) createEdge.headers := by
  obtain ⟨hresult, hstored⟩ : (edgeCreated.result ()).map (·.isOk) = some true ∧
      edgeCreated.state.store.nodeIdsByCode["edge-1"]?.isSome = true := by
    decide +kernel
  refine ⟨hstored, ?_⟩
  obtain ⟨out, hout, hok⟩ := Option.map_eq_some_iff.1 hresult
  cases out with
  | error e => cases hok
  | ok reply => exact (admin_paths_need_session rfl ⟨⟨"nodes", rfl⟩, by decide⟩).2 reply hout

end PingoraMesh.HubApi
