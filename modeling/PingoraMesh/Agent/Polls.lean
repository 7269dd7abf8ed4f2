import PingoraMesh.Agent.Conduct
import PingoraMesh.Hub.Alone
import PingoraMesh.Hub.Effects
import PingoraMesh.Lib.Pool

/-!
# Polls of the hub

A poll of a node is a run of `syncLatestRelease` whose requests are served by the hub: `remotely` takes a request over
the network, which may lose it or its answer, to the handler of its route, and the calls of the handler are calls of
the poll. Polls of any nodes and requests of any hub instances are one pool, and nothing is assumed of the nodes and
of the network (`Surroundings`).

* `pollSpec` says what a poll and a request may do and what a poll knows of the hub's answers;
* `pollProgram_poll`: a poll that ends well and has asked for a release has its version, from before or from the package
  that it has fetched.
-/

namespace PingoraMesh.NodeAgent

open Calls Calls.Fallible

/-! ## The routes of the hub -/

/-- The status of an error. -/
def errorStatus : ErrorCode → Nat
  | .badRequest => 400
  | .notFound => 404
  | .conflict => 409
  | .unauthorized => 401
  | .internal => 500

/-- How the hub writes what it sends: the body of an error and the JSON values in a package. -/
structure Encoding where
  errorBody : AppError → String
  manifest : ReleaseManifest → Value
  certificates : List CertificateRef → Value

/-- The download URL of a release. -/
def packageUrl (version : String) (nodeId : Uuid) : String :=
  "/api/node/config/package/" ++ version ++ "?node_id=" ++ Uuid.hyphenated nodeId

/-- The parameters of `/api/node/config/package/{version}?node_id={node_id}`. A version needs no percent-encoding. -/
def packageRoute (url : String) : Option (String × Uuid) := do
  let rest ← Text.stripStart url "/api/node/config/package/"
  let query ← Text.stripStart (.ofList (rest.toList.dropWhile (· != '?'))) "?node_id="
  let nodeId ← Uuid.parseStr query
  let version := rest.toList.takeWhile (· != '?')
  if version.isEmpty || version.contains '/' then none else some (.ofList version, nodeId)

example : packageRoute (packageUrl "rel-site-20260428013456-007" 7) = some ("rel-site-20260428013456-007", 7) := by
  decide +kernel

/-- `latest_release`. -/
def latestReleaseRoute (token : String) (nodeId : Uuid) : HubM LatestReleaseResponse := do
  HubService.authorizeNode nodeId token
  HubService.latestReleaseForNode nodeId

/-- `config_package`; the router refuses a URL that is not of its form. -/
def configPackageRoute (token downloadUrl : String) : HubM PingoraMesh.ConfigPackageResponse := do
  let (version, nodeId) ← okOr (packageRoute downloadUrl) (.notFound "")
  HubService.authorizeNode nodeId token
  HubService.configPackageForNode nodeId version

/-- `ack_release`. -/
def ackReleaseRoute (token : String) (releaseId : Uuid) (request : ReleaseAckRequest) : HubM ReleaseAckResponse := do
  HubService.authorizeNode request.nodeId token
  HubService.ackRelease releaseId request

/-- A package as the agent decodes it. -/
def Encoding.package (encoding : Encoding) (package : PingoraMesh.ConfigPackageResponse) : ConfigPackageResponse where
  releaseId := package.releaseId
  releaseVersion := package.releaseVersion
  manifest := encoding.manifest package.manifest
  renderedConfig := package.renderedConfig
  certificates := encoding.certificates package.certificates
  signature := package.signature

/-- The answer of a handler as it goes over the network. -/
def Encoding.answer {α β : Type} (encoding : Encoding) (write : α → β) : Except AppError α → HttpAnswer β
  | .ok a => .answered 200 "" (.ok (write a))
  | .error e => .answered (errorStatus e.code) (encoding.errorBody e) (.error "missing field")

/-! ## Polls and requests -/

/-- The calls of a pool of polls and requests. -/
inductive PollCall where
  /-- A call of a request to the hub. -/
  | hub (c : HubCall)
  /-- A call that the hub makes for a poll of a node. -/
  | serving (nodeId : Uuid) (c : HubCall)
  /-- A call of a poll that stays on its node. -/
  | onNode (nodeId : Uuid) (c : AgentCall)
  /-- What keeps a request of a poll from the hub. -/
  | request (nodeId : Uuid)
  /-- What keeps an answer from the poll; it may bring the package of a release. -/
  | response (nodeId : Uuid) (package : Option Uuid)

@[reducible] def PollCall.Ans : PollCall → Type
  | .hub c | .serving _ c => c.Ans
  | .onNode _ c => c.Ans
  | .request _ | .response _ _ => Option String

abbrev pollSig : Sig := ⟨PollCall, PollCall.Ans⟩

/-- The nodes and the network. -/
structure Surroundings (η : Type) where
  onNode : Uuid → Handler AgentSig η
  request : Uuid → η → Option String × η
  response : Uuid → Option Uuid → η → Option String × η

/-- Carry out a call over the world of the hub and the surroundings. -/
def pollHandler {η : Type} (p : Platform) (around : Surroundings η) : Handler pollSig (World × η)
  | .hub c, s => ((hubHandler p c s.1).1, (hubHandler p c s.1).2, s.2)
  | .serving _ c, s => ((hubHandler p c s.1).1, (hubHandler p c s.1).2, s.2)
  | .onNode nodeId c, s => ((around.onNode nodeId c s.2).1, s.1, (around.onNode nodeId c s.2).2)
  | .request nodeId, s => ((around.request nodeId s.2).1, s.1, (around.request nodeId s.2).2)
  | .response nodeId package, s => ((around.response nodeId package s.2).1, s.1, (around.response nodeId package s.2).2)

/-- A request of a poll: it goes to the hub, is served there, and the answer comes back. -/
def remotely {α β : Type} (encoding : Encoding) (nodeId : Uuid) (route : HubM α) (package : α → Option Uuid)
    (write : α → β) : Prog pollSig (HttpAnswer β) :=
  .call (.request nodeId) fun
    | some cause => .ret (.sendFailed cause)
    | none => do
      let served ← Prog.interpret (fun c => .call (.serving nodeId c) .ret) (ExceptT.run route)
      .call (.response nodeId (served.toOption.bind package)) fun
        | some cause => .ret (.bodyFailed cause)
        | none => .ret (encoding.answer write served)

/-- A call of a poll: its requests are served by the hub. A release sync makes no other requests. -/
def carry (encoding : Encoding) (nodeId : Uuid) : (c : AgentCall) → Prog pollSig c.Ans
  | .outside (.latestRelease token target) =>
    remotely encoding nodeId (latestReleaseRoute token target) (fun _ => none) id
  | .outside (.configPackage token downloadUrl) =>
    remotely encoding nodeId (configPackageRoute token downloadUrl) (fun package => some package.releaseId)
      encoding.package
  | .outside (.ackRelease token releaseId request) =>
    remotely encoding nodeId (ackReleaseRoute token releaseId request) (fun _ => none) id
  | c => .call (.onNode nodeId c) .ret

/-- What runs: requests of hub instances, and polls from a local state. -/
inductive PollRequest where
  | hub (hub : Hub) (request : Request)
  | poll (config : AgentConfig) (registration : RegistrationMetadata) (state : LocalAgentState) (session : Session)

/-- How a poll has ended: with the local state, which it hands back with an error too. -/
structure Polled where
  nodeId : Uuid
  outcome : Except (LocalAgentState × Failure) (SyncAction × LocalAgentState)

/-- The local state that a poll leaves. -/
def Polled.state (polled : Polled) : LocalAgentState :=
  match polled.outcome with
  | .ok (_, state) => state
  | .error (state, _) => state

/-- The program of each, and how a poll ends. -/
def pollProgram (p : Platform) (encoding : Encoding) : PollRequest → Prog pollSig (Option Polled)
  | .hub hub request =>
    Prog.interpret (fun c => .call (.hub c) .ret) (ExceptT.run (HubService.program p hub request)) >>=
      fun _ => .ret none
  | .poll config registration state session =>
    Prog.interpret (carry encoding registration.nodeId)
      (ExceptT.run (syncLatestRelease config registration state session)) >>= fun outcome =>
        .ret (some ⟨registration.nodeId, outcome⟩)

/-! ## What a poll knows -/

/-- What a poll knows: the version it starts with, the latest release it has asked for and its version, and the packages
that were found for it and that have arrived, each with the version that was asked for. -/
structure Poll where
  nodeId : Uuid
  held : Option String
  asked : Option (Option Uuid) := none
  offered : Option String := none
  found : Option (String × Uuid) := none
  got : Option (String × Uuid) := none

/-- Nothing has been asked for. -/
def Poll.Fresh (g : Poll) : Prop := g.asked = none ∧ g.offered = none ∧ g.found = none ∧ g.got = none

/-- What a call of the hub tells. -/
def Poll.see (g : Poll) (c : HubCall) (r : c.Ans) : Poll :=
  match c, r with
  | .latestReleaseIdForNode _, latest => { g with asked := some latest }
  | .release id, some release =>
    if g.asked = some (some id) then { g with offered := g.offered.or (some release.releaseVersion) } else g
  | .releaseByVersion version, some release =>
    if g.nodeId ∈ release.targetNodeIds then { g with found := some (version, release.releaseId) } else g
  | _, _ => g

/-- What is known of the answer: the latest release is there, and a release that is found has the version asked for. -/
def Poll.Trusts (g : Poll) (c : HubCall) (r : c.Ans) : Prop :=
  match c, r with
  | .release id, none => g.asked ≠ some (some id)
  | .release _, some release => '?' ∉ release.releaseVersion.toList
  | .releaseByVersion version, some release => release.releaseVersion = version
  | _, _ => True

/-- An answer arrives. -/
def Poll.receive (g : Poll) (package : Option Uuid) (failure : Option String) : Poll :=
  match package, failure with
  | some _, none => { g with got := g.found }
  | _, _ => g

/-- What the hub does for a poll: no release is saved, and the latest one of its node is looked for once. -/
def servingSpec : Spec hubSig Poll where
  ok c g := c.effect ≠ some .saveRelease ∧ ∀ nodeId, c = .latestReleaseIdForNode nodeId → nodeId = g.nodeId ∧ g.Fresh
  can c g r g' := g.Trusts c r ∧ g' = g.see c r

/-- What a request does: it saves a release under an identifier of its own and a version without a question mark. -/
def drawnSpec : Spec hubSig (Option Uuid) := .protocol
  (fun c d => ∀ r, c = .saveRelease r → d = some r.releaseId ∧ '?' ∉ r.releaseVersion.toList)
  (fun c r d => match c, r with
    | .newUuid, id => some id
    | .saveRelease _, _ => none
    | _, _ => d)

/-- What polls and requests do. -/
def pollSpec : Spec pollSig (Option Uuid ⊕ Poll) where
  ok
    | .hub c, .inl d => drawnSpec.ok c d
    | .serving nodeId c, .inr g => nodeId = g.nodeId ∧ servingSpec.ok c g
    | .onNode _ _, .inr _ => True
    | .request _, .inr _ => True
    | .response nodeId package, .inr g => nodeId = g.nodeId ∧ ∀ id ∈ package, ∃ version, g.found = some (version, id)
    | _, _ => False
  can
    | .hub c, .inl d, r, .inl d' => drawnSpec.can c d r d'
    | .serving _ c, .inr g, r, .inr g' => servingSpec.can c g r g'
    | .onNode _ _, .inr g, _, .inr g' => g' = g
    | .request _, .inr g, _, .inr g' => g' = g
    | .response _ package, .inr g, r, .inr g' => g' = g.receive package r
    | _, _, _, _ => False

/-! ## The handlers -/

/-- A call that tells a poll nothing new once it has been offered a release. -/
def HubCall.Aside : HubCall → Prop
  | .saveRelease _ | .latestReleaseIdForNode _ | .releaseByVersion _ => False
  | _ => True

section Serving

variable {c : HubCall} {g : Poll} {token : String} {nodeId : Uuid}

theorem HubCall.Aside.allowed (h : HubCall.Aside c) (g : Poll) : servingSpec.ok c g := by
  cases c with
  | saveRelease release => exact h.elim
  | latestReleaseIdForNode nodeId => exact h.elim
  | _ => exact ⟨by simp [HubCall.effect], by rintro _ ⟨⟩⟩

theorem Poll.see_aside (h : HubCall.Aside c) (hg : g.offered.isSome ∨ ∀ id, c ≠ .release id) (r : c.Ans) :
    g.see c r = g := by
  cases c with
  | latestReleaseIdForNode nodeId => exact h.elim
  | releaseByVersion version => exact h.elim
  | release id =>
    obtain ⟨version, hv⟩ := Option.isSome_iff_exists.1 (hg.resolve_right fun hne => hne id rfl)
    cases r with
    | none => rfl
    | some release =>
      simp only [Poll.see]
      split
      · cases g
        cases hv
        rfl
      · rfl
  | _ => rfl

theorem Poll.nodeId_see (g : Poll) (c : HubCall) (r : c.Ans) : (g.see c r).nodeId = g.nodeId := by
  unfold Poll.see
  split <;> first | rfl | (split <;> rfl)

theorem authorizeNode_wp (nodeId : Uuid) (token : String) :
    wp servingSpec (HubService.authorizeNode nodeId token) (fun _ g' => g' = g) (fun _ g' => g' = g) g := by
  have honly : (HubService.authorizeNode nodeId token).Only
      fun c : HubCall => HubCall.Aside c ∧ ∀ id, c ≠ .release id := by
    refine safe_bind (only_call ⟨trivial, nofun⟩) fun _ => safe_bind (safe_okOr _ _) fun _ =>
      safe_bind (safe_ensure _ _) fun _ => safe_bind (only_call ⟨trivial, nofun⟩) fun _ =>
        safe_bind (safe_ensure _ _) fun _ => safe_bind (only_call ⟨trivial, nofun⟩) fun _ => safe_ensure _ _
  refine honly.wp (I := fun g' => g' = g) (fun c g' hc _ => hc.1.allowed g') (fun c g' r g'' hc hg hcan => ?_) rfl
  rw [hcan.2, Poll.see_aside hc.1 (.inr hc.2), hg]

/-- The latest release, if there is one, is offered with the URL of its package. -/
theorem latestReleaseRoute_wp (token : String) (hg : g.Fresh) :
    wp servingSpec (latestReleaseRoute token g.nodeId)
      (fun latest g' => ∃ asked, g' = { g with asked := asked, offered := some latest.releaseVersion } ∧
        latest.downloadUrl = packageUrl latest.releaseVersion g.nodeId ∧ '?' ∉ latest.releaseVersion.toList)
      (fun _ g' => ∃ asked, g' = { g with asked := asked } ∧ ∀ id, asked ≠ some (some id)) g := by
  rw [latestReleaseRoute, wp_bind]
  have hsame : g = { g with asked := none } := by rw [← hg.1]
  refine wp_mono ?_ ?_ (authorizeNode_wp g.nodeId token)
  · rintro _ _ rfl
    rw [HubService.latestReleaseForNode, wp_bind]
    refine (wp_call _).2 ⟨⟨by simp [HubCall.effect], fun nodeId h => ⟨by cases h; rfl, hg⟩⟩, ?_⟩
    rintro latest _ ⟨-, rfl⟩
    rw [wp_bind, wp_okOr]
    refine ⟨fun id hid => ?_, fun hnone => ?_⟩
    · subst hid
      rw [wp_bind]
      refine (wp_call _).2 ⟨⟨by simp [HubCall.effect], by rintro _ ⟨⟩⟩, ?_⟩
      rintro release _ ⟨htrust, rfl⟩
      rw [wp_bind, wp_okOr]
      refine ⟨fun release hr => ?_, fun hnone => ?_⟩
      · subst hr
        refine (wp_pure _).2 ⟨some (some id), ?_, rfl, htrust⟩
        simp [Poll.see, hg.2.1]
      · subst hnone
        exact absurd rfl htrust
    · subst hnone
      exact ⟨some none, rfl, by rintro _ ⟨⟩⟩
  · rintro _ _ rfl
    exact ⟨none, hsame, by rintro _ ⟨⟩⟩

/-- The router takes a download URL apart as it was put together, or not at all. -/
theorem eq_of_packageRoute {version asked : String} {target nodeId : Uuid} (hpath : '?' ∉ version.toList)
    (h : packageRoute (packageUrl version nodeId) = some (asked, target)) : asked = version ∧ target = nodeId := by
  have hurl : packageUrl version nodeId =
      "/api/node/config/package/" ++ (version ++ ("?node_id=" ++ Uuid.hyphenated nodeId)) := by
    unfold packageUrl
    generalize Uuid.hyphenated nodeId = text
    rw [String.append_assoc, String.append_assoc]
  have hmark : "?node_id=".toList = '?' :: "node_id=".toList := by decide
  have hquery : (version ++ ("?node_id=" ++ Uuid.hyphenated nodeId)).toList =
      version.toList ++ '?' :: ("node_id=" ++ Uuid.hyphenated nodeId).toList := by
    rw [String.toList_append, String.toList_append, String.toList_append, hmark, List.cons_append]
  have hchars : ∀ c ∈ version.toList, (c != '?') = true := fun c hc => bne_iff_ne.2 fun e => hpath (e ▸ hc)
  have htake : (version ++ ("?node_id=" ++ Uuid.hyphenated nodeId)).toList.takeWhile (· != '?') = version.toList := by
    rw [hquery, List.takeWhile_append_of_pos hchars]
    simp
  have hdrop : String.ofList ((version ++ ("?node_id=" ++ Uuid.hyphenated nodeId)).toList.dropWhile (· != '?')) =
      "?node_id=" ++ Uuid.hyphenated nodeId := by
    rw [hquery, List.dropWhile_append_of_pos hchars, ← String.toList_inj, String.toList_ofList, String.toList_append,
      String.toList_append, hmark, List.cons_append, List.dropWhile_cons_of_neg (by simp)]
  rw [packageRoute, hurl, Text.stripStart_append, Option.bind_eq_bind, Option.bind_some, hdrop, Text.stripStart_append,
    Option.bind_some] at h
  obtain ⟨read, hread, h⟩ := Option.bind_eq_some_iff.1 h
  dsimp only at h
  rw [htake] at h
  split at h
  · cases h
  · cases h
    exact ⟨String.ofList_toList, Uuid.eq_of_parseStr_hyphenated hread⟩

/-- A package that is served lists the node and has the version asked for. -/
theorem configPackageRoute_wp {version : String} (token : String) (hpath : '?' ∉ version.toList) :
    wp servingSpec (configPackageRoute token (packageUrl version g.nodeId))
      (fun package g' => package.releaseVersion = version ∧ g' = { g with found := some (version, package.releaseId) })
      (fun _ g' => ∃ found, g' = { g with found := found }) g := by
  rw [configPackageRoute, wp_bind, wp_okOr]
  refine ⟨?_, fun _ => ⟨g.found, rfl⟩⟩
  rintro ⟨asked, target⟩ hroute
  obtain ⟨rfl, rfl⟩ := eq_of_packageRoute hpath hroute
  dsimp only
  rw [wp_bind]
  refine wp_mono ?_ (fun _ _ e => ⟨g.found, e⟩) (authorizeNode_wp g.nodeId token)
  rintro _ g rfl
  rw [HubService.configPackageForNode, wp_bind]
  refine (wp_call _).2 ⟨⟨by simp [HubCall.effect], by rintro _ ⟨⟩⟩, ?_⟩
  rintro release _ ⟨htrust, rfl⟩
  rw [wp_bind, wp_okOr]
  refine ⟨fun release hr => ?_, fun hnone => ?_⟩
  · subst hr
    rw [wp_bind, wp_ensure]
    refine ⟨fun htarget => (wp_pure _).2 ⟨htrust, if_pos (List.contains_iff_mem.1 htarget)⟩, fun htarget => ?_⟩
    refine ⟨g.found, if_neg fun hmem => ?_⟩
    rw [List.contains_iff_mem.2 hmem] at htarget
    cases htarget
  · subst hnone
    exact ⟨g.found, rfl⟩

/-- An acknowledgement tells nothing new. -/
theorem ackReleaseRoute_wp (token : String) (releaseId : Uuid) (request : ReleaseAckRequest)
    (hoffered : g.offered.isSome) :
    wp servingSpec (ackReleaseRoute token releaseId request) (fun _ g' => g' = g) (fun _ g' => g' = g) g := by
  rw [ackReleaseRoute, wp_bind]
  refine wp_mono ?_ (fun _ _ e => e) (authorizeNode_wp _ token)
  rintro _ g rfl
  have honly : (HubService.ackRelease releaseId request).Only HubCall.Aside := by
    refine safe_bind (only_call trivial) fun _ => safe_bind (safe_okOr _ _) fun _ => safe_bind (safe_ensure _ _)
      fun _ =>
      safe_bind (only_call trivial) fun _ => safe_bind (only_call trivial) fun _ => safe_bind (only_call trivial)
        fun _ =>
        safe_bind (safe_forSome fun node => ?_) fun _ => safe_pure _
    exact safe_bind (only_call trivial) fun _ => only_call trivial
  refine honly.wp (I := fun g' => g' = g) (fun c g' hc _ => hc.allowed g') (fun c g' r g'' hc hg hcan => ?_) rfl
  rw [hcan.2, hg, Poll.see_aside hc (.inl hoffered)]

end Serving

/-! ## Requests over the network -/

/-- What a poll asks of its surroundings and what it may rely on. -/
def syncSpec : Spec AgentSig Poll where
  ok c g := match c with
    | .outside (.latestRelease _ nodeId) => nodeId = g.nodeId ∧ g.Fresh
    | .outside (.configPackage _ downloadUrl) => ∃ version, g.offered = some version ∧ '?' ∉ version.toList ∧
        downloadUrl = packageUrl version g.nodeId
    | .outside (.ackRelease _ _ _) => g.offered.isSome
    | _ => True
  can c g r g' := match c, r with
    | .outside (.latestRelease _ _), answer => ∃ asked offered, g' = { g with asked := asked, offered := offered } ∧
        (∀ latest, HttpAnswer.data? answer = some latest → offered = some latest.releaseVersion ∧
          latest.downloadUrl = packageUrl latest.releaseVersion g.nodeId ∧ '?' ∉ latest.releaseVersion.toList) ∧
        (HttpAnswer.data? answer = none → (∃ cause, answer = .bodyFailed cause) ∨ ∀ id, asked ≠ some (some id))
    | .outside (.configPackage _ _), answer => ∃ found got, g' = { g with found := found, got := got } ∧
        (HttpAnswer.data? answer = none → got = g.got) ∧
        ∀ package, HttpAnswer.data? answer = some package → g.offered = some package.releaseVersion ∧
          got = some (package.releaseVersion, package.releaseId)
    | _, _ => g' = g

section Network

variable {α β : Type} {encoding : Encoding} {g : Poll}

/-- The request is lost, or it is served and its answer is lost or comes back. -/
theorem remotely_wp {route : HubM α} {package : α → Option Uuid} {write : α → β} {R : HttpAnswer β → Poll → Prop}
    (hlost : ∀ cause, R (.sendFailed cause) g)
    (h : Prog.wp servingSpec (ExceptT.run route) (fun served g' =>
      (∀ id ∈ served.toOption.bind package, ∃ version, g'.found = some (version, id)) ∧
        (∀ cause, R (.bodyFailed cause) g') ∧
          R (encoding.answer write served) (g'.receive (served.toOption.bind package) none)) g) :
    Prog.wp pollSpec (remotely encoding g.nodeId route package write) (fun r x => ∃ g', R r g' ∧
      x = .inr g') (.inr g) := by
  refine Prog.wp_call.2 ⟨trivial, fun r x hx => ?_⟩
  cases x with
  | inl d => exact hx.elim
  | inr g₁ =>
    obtain rfl : g₁ = g := hx
    cases r with
    | some cause => exact (Prog.wp_ret _).2 ⟨g₁, hlost cause, rfl⟩
    | none =>
      dsimp only
      rw [Prog.wp_bind]
      have hserved := Prog.wp_interpret_rel (V := pollSpec) (d := fun c => .call (.serving g₁.nodeId c) .ret)
        (R := fun g x => x = .inr g ∧ g.nodeId = g₁.nodeId) (x := .inr g₁) ?_ h ⟨rfl, rfl⟩
      · refine Prog.wp_mono ?_ hserved
        rintro served _ ⟨g', ⟨hfound, hbody, hanswer⟩, rfl, hnode⟩
        refine Prog.wp_call.2 ⟨⟨hnode.symm, hfound⟩, fun r x hx => ?_⟩
        cases x with
        | inl d => exact hx.elim
        | inr g₂ =>
          obtain rfl : g₂ = g'.receive (served.toOption.bind package) r := hx
          cases r with
          | none => exact (Prog.wp_ret _).2 ⟨_, hanswer, rfl⟩
          | some cause =>
            have hsame : g'.receive (served.toOption.bind package) (some cause) = g' := by
              unfold Poll.receive
              split
              · rename_i e
                cases e
              · rfl
            rw [hsame]
            exact (Prog.wp_ret _).2 ⟨g', hbody cause, rfl⟩
      · rintro c g _ ⟨rfl, hnode⟩ hok
        refine Prog.wp_call.2 ⟨⟨hnode.symm, hok⟩, fun r x hx => ?_⟩
        cases x with
        | inl d => exact hx.elim
        | inr g' =>
          refine (Prog.wp_ret _).2 ⟨g', hx, rfl, ?_⟩
          rw [hx.2, Poll.nodeId_see, hnode]

/-- Every call of a poll is carried out as it relies on. -/
theorem carry_wp {c : AgentCall} (hok : syncSpec.ok c g) :
    Prog.wp pollSpec (carry encoding g.nodeId c) (fun r x => ∃ g', syncSpec.can c g r g' ∧ x = .inr g') (.inr g) := by
  have honNode : ∀ c : AgentCall, (∀ r g', g' = g → syncSpec.can c g r g') →
      Prog.wp pollSpec (.call (.onNode g.nodeId c) .ret : Prog pollSig c.Ans)
        (fun r x => ∃ g', syncSpec.can c g r g' ∧ x = .inr g') (.inr g) := by
    intro c hcan
    refine Prog.wp_call.2 ⟨trivial, fun r x hx => ?_⟩
    cases x with
    | inl d => exact hx.elim
    | inr g' => exact (Prog.wp_ret _).2 ⟨g', hcan r g' hx, rfl⟩
  cases c with
  | outside c =>
    cases c with
    | latestRelease token target =>
      obtain ⟨rfl, hg⟩ := hok
      refine remotely_wp (fun cause => ⟨g.asked, g.offered, rfl, nofun, fun _ => .inr (by rw [hg.1]; exact nofun)⟩) ?_
      refine Prog.wp_mono (fun served g' h => ?_) (wp_iff_run.1 (latestReleaseRoute_wp token hg))
      cases served with
      | ok latest =>
        obtain ⟨asked, rfl, hurl, hpath⟩ := h
        refine ⟨nofun, fun cause => ⟨asked, _, rfl, nofun, fun _ => .inl ⟨cause, rfl⟩⟩, asked, _, rfl, ?_, nofun⟩
        rintro _ ⟨⟩
        exact ⟨rfl, hurl, hpath⟩
      | error e =>
        obtain ⟨asked, rfl, hnone⟩ := h
        refine ⟨nofun, fun cause => ⟨asked, g.offered, rfl, nofun, fun _ => .inl ⟨cause, rfl⟩⟩, asked,
          g.offered, rfl, ?_, fun _ => .inr hnone⟩
        rintro _ ⟨⟩
    | configPackage token downloadUrl =>
      obtain ⟨version, hoffered, hpath, rfl⟩ := hok
      refine remotely_wp (fun cause => ⟨g.found, g.got, rfl, fun _ => rfl, nofun⟩) ?_
      refine Prog.wp_mono (fun served g' h => ?_) (wp_iff_run.1 (configPackageRoute_wp token hpath))
      cases served with
      | ok package =>
        obtain ⟨hversion, rfl⟩ := h
        refine ⟨?_, fun cause => ⟨_, g.got, rfl, fun _ => rfl, nofun⟩, _, _, rfl, nofun, ?_⟩
        · rintro _ ⟨⟩
          exact ⟨version, rfl⟩
        · rintro _ ⟨⟩
          refine ⟨?_, ?_⟩
          · rw [hoffered, ← hversion]
            rfl
          · rw [← hversion]
            rfl
      | error e =>
        obtain ⟨found, rfl⟩ := h
        exact ⟨nofun, fun cause => ⟨found, g.got, rfl, fun _ => rfl, nofun⟩, found, g.got, rfl, fun _ => rfl, nofun⟩
    | ackRelease token releaseId request =>
      refine remotely_wp (fun cause => rfl) ?_
      refine Prog.wp_mono (fun served g' h => ?_) (wp_iff_run.1 (ackReleaseRoute_wp token releaseId request hok))
      cases served with
      | ok response =>
        obtain rfl : g' = g := h
        exact ⟨nofun, fun cause => rfl, rfl⟩
      | error e =>
        obtain rfl : g' = g := h
        exact ⟨nofun, fun cause => rfl, rfl⟩
    | _ => exact honNode _ fun r g' h => h
  | _ => exact honNode _ fun r g' h => h

end Network

/-! ## A poll -/

/-- A release that was asked for has been offered, and its version is held or has been fetched. -/
def Poll.Through (g : Poll) : Prop :=
  ∀ id, g.asked = some (some id) → ∃ version, g.offered = some version ∧
    (g.held = some version ∨ ∃ package, g.got = some (version, package))

/-- The version of a local state is the one that the poll started with or the one that it has fetched. -/
def Poll.Leaves (g : Poll) (state : LocalAgentState) : Prop :=
  state.currentReleaseVersion = g.held ∨
    ∃ version package, g.got = some (version, package) ∧ state.currentReleaseVersion = some version

section Sync

variable {config : AgentConfig} {registration : RegistrationMetadata} {state : LocalAgentState} {session : Session}
  {g : Poll}

theorem data?_of_parseResponse_error {α : Type} {verb url : String} {answer : HttpAnswer α} {e : Failure}
    (h : parseResponse verb url answer = .error e) : answer.data? = none := by
  cases answer with
  | sendFailed cause => rfl
  | bodyFailed cause => rfl
  | answered status body data =>
    cases data with
    | error e => rfl
    | ok a =>
      rw [parseResponse] at h
      split at h
      · cases h
      · rename_i hs
        exact if_neg hs

/-- Files and directories tell a poll nothing. -/
theorem onDisk_wp {α ε : Type} {x : Fallible AgentSig ε α} (hx : x.Only AgentCall.OnDisk) :
    wp syncSpec x (fun _ g' => g' = g) (fun _ g' => g' = g) g := by
  refine hx.wp (I := fun g' => g' = g) (fun c g' hc _ => ?_) (fun c g' r g'' hc hg hcan => ?_) rfl
  · cases c with
    | outside c =>
      cases c with
      | createDirAll dir => trivial
      | _ => exact hc.elim
    | _ => trivial
  · cases c with
    | outside c =>
      cases c with
      | createDirAll dir => exact hcan.trans hg
      | _ => exact hc.elim
    | _ => exact hcan.trans hg

theorem persistState_keeps (state : LocalAgentState) :
    wp syncSpec (persistState config state) (fun _ g' => g' = g) (fun _ g' => g' = g) g := by
  rw [persistState, writeFile, wp_bind]
  refine (wp_call _).2 ⟨trivial, fun r g' hcan => ?_⟩
  exact (wp_attempt _).2 ⟨fun _ _ => hcan, fun _ _ => hcan⟩

theorem reportReleaseStatus_keeps (releaseId : Uuid) (applyStatus currentVersion : String) (message : Option String)
    (hoffered : g.offered.isSome) :
    wp syncSpec (reportReleaseStatus config registration session releaseId applyStatus currentVersion message)
      (fun _ g' => g' = g) (fun _ g' => g' = g) g := by
  rw [reportReleaseStatus, wp_bind]
  refine (wp_call _).2 ⟨hoffered, fun r g' hcan => ?_⟩
  exact (wp_attempt _).2 ⟨fun _ _ => hcan, fun _ _ => hcan⟩

/-- The latest release is offered; an error that says that there is none is true. -/
theorem getLatestRelease_told (hnode : registration.nodeId = g.nodeId) (hg : g.Fresh) :
    wp syncSpec (getLatestRelease config registration session)
      (fun latest g' => ∃ asked, g' = { g with asked := asked, offered := some latest.releaseVersion } ∧
        latest.downloadUrl = packageUrl latest.releaseVersion g.nodeId ∧ '?' ∉ latest.releaseVersion.toList)
      (fun e g' => ∃ asked offered, g' = { g with asked := asked, offered := offered } ∧
        (isNotFound e = true → ∀ id, asked ≠ some (some id))) g := by
  rw [getLatestRelease, wp_bind]
  refine (wp_call _).2 ⟨⟨hnode, hg⟩, ?_⟩
  rintro answer g' ⟨asked, offered, rfl, htold, hfailed⟩
  refine (wp_attempt _).2 ⟨fun latest h => ?_, fun e h => ?_⟩
  · obtain ⟨rfl, hurl, hpath⟩ := htold latest (data?_of_parseResponse h)
    exact ⟨asked, rfl, hurl, hpath⟩
  · refine ⟨asked, offered, rfl, fun hmissing => ?_⟩
    rcases hfailed (data?_of_parseResponse_error h) with ⟨cause, rfl⟩ | hnone
    · cases h
      have hread : Text.contains "failed to read response body" "http 404:" = false := by decide
      rw [isNotFound, hread] at hmissing
      cases hmissing
    · exact hnone

/-- The package of the release that was offered is fetched. -/
theorem getConfigPackage_fetched {version : String} (hoffered : g.offered = some version)
    (hpath : '?' ∉ version.toList) :
    wp syncSpec (getConfigPackage config session (packageUrl version g.nodeId))
      (fun package g' => ∃ found, package.releaseVersion = version ∧
        g' = { g with found := found, got := some (version, package.releaseId) })
      (fun _ g' => ∃ found, g' = { g with found := found }) g := by
  rw [getConfigPackage, wp_bind]
  refine (wp_call _).2 ⟨⟨version, hoffered, hpath, rfl⟩, ?_⟩
  rintro answer g' ⟨found, got, rfl, hfailed, hgot⟩
  refine (wp_attempt _).2 ⟨fun package h => ?_, fun e h => ?_⟩
  · obtain ⟨hversion, rfl⟩ := hgot package (data?_of_parseResponse h)
    rw [hoffered] at hversion
    cases hversion
    exact ⟨found, rfl, rfl⟩
  · cases hfailed (data?_of_parseResponse_error h)
    exact ⟨found, rfl⟩

/-- A step of the sync that keeps what is known, whatever its outcome. -/
theorem keeping_keeps {α : Type} {x : AgentM α} (hx : wp syncSpec x (fun _ g' => g' = g) (fun _ g' => g' = g) g)
    (hs : g.Leaves state) :
    wp syncSpec (keeping state x) (fun _ g' => g' = g) (fun e g' => g'.Leaves e.1) g := by
  rw [keeping, wp_mapError]
  refine wp_mono (fun _ _ e => e) ?_ hx
  rintro _ _ rfl
  exact hs

/-- A release of another version: it is fetched before it is applied, and its version is left once it is active. -/
theorem syncNewRelease_through {latest : LatestReleaseResponse} (hoffered : g.offered = some latest.releaseVersion)
    (hurl : latest.downloadUrl = packageUrl latest.releaseVersion g.nodeId) (hpath : '?' ∉ latest.releaseVersion.toList)
    (hs : state.currentReleaseVersion = g.held) :
    wp syncSpec (syncNewRelease config registration state session latest) (fun r g' => g'.Through ∧ g'.Leaves r.2)
      (fun e g' => g'.Leaves e.1) g := by
  rw [syncNewRelease, wp_bind]
  refine wp_mono ?_ (fun _ _ he => he)
    (keeping_keeps (reportReleaseStatus_keeps _ _ _ _ (by rw [hoffered]; rfl)) (.inl hs))
  rintro _ g rfl
  rw [wp_bind, keeping, wp_mapError, hurl]
  refine wp_mono ?_ ?_ (getConfigPackage_fetched hoffered hpath)
  · rintro package _ ⟨found, hversion, rfl⟩
    generalize hg : ({ g with found := found, got := some (latest.releaseVersion, package.releaseId) } : Poll) = g'
    have hoffered' : g'.offered = some latest.releaseVersion := by rw [← hg, hoffered]
    have hheld : g'.Leaves state := .inl (by rw [← hg]; exact hs)
    have hgot : g'.got = some (package.releaseVersion, package.releaseId) := by rw [← hg, hversion]
    have hthrough : g'.Through := fun _ _ => ⟨_, hoffered', .inr ⟨package.releaseId, by rw [← hg]⟩⟩
    have hreports : g'.offered.isSome := by
      rw [hoffered']
      rfl
    rw [wp_bind]
    refine wp_mono ?_ (fun _ _ he => he) (keeping_keeps (onDisk_wp (persistReleaseArtifacts_onDisk package)) hheld)
    rintro artifacts _ rfl
    rw [wp_bind]
    refine wp_mono ?_ (fun _ _ he => he) (keeping_keeps (reportReleaseStatus_keeps _ _ _ _ hreports) hheld)
    rintro _ g' rfl
    rw [wp_bind, keeping, wp_mapError]
    refine (wp_call _).2 ⟨trivial, ?_⟩
    rintro outcome g' rfl
    cases outcome with
    | error e =>
      dsimp only
      rw [wp_bind, wp_caught]
      refine wp_mono ?_ ?_ (reportReleaseStatus_keeps _ _ _ _ hreports)
      · rintro _ g' rfl
        exact (wp_throw _).2 hheld
      · rintro _ g' rfl
        exact (wp_throw _).2 hheld
    | ok applyMessage =>
      have hactive : ∀ state' : LocalAgentState, state'.currentReleaseVersion = some package.releaseVersion →
          g'.Leaves state' := fun state' h => .inr ⟨_, _, hgot, h⟩
      dsimp only
      rw [wp_bind]
      refine wp_mono ?_ (fun _ _ he => he)
        (keeping_keeps (onDisk_wp (activateReleaseArtifacts_onDisk package artifacts)) hheld)
      rintro _ g' rfl
      rw [wp_bind, acknowledgeRelease, keeping, wp_mapError, wp_discard]
      refine wp_mono ?_ ?_ (reportReleaseStatus_keeps _ _ _ _ hreports)
      · rintro _ g' rfl
        rw [wp_bind]
        refine wp_mono ?_ (fun _ _ he => he) (keeping_keeps (persistState_keeps _) (hactive _ rfl))
        rintro _ g' rfl
        exact (wp_pure _).2 ⟨hthrough, hactive _ rfl⟩
      · rintro _ g' rfl
        exact hactive _ rfl
  · rintro _ _ ⟨found, rfl⟩
    exact .inl hs

/-- The release of the version that is held, under another identifier. -/
theorem confirmRelease_through {latest : LatestReleaseResponse} (hoffered : g.offered = some latest.releaseVersion)
    (hheld : g.held = some latest.releaseVersion) (hs : state.currentReleaseVersion = g.held) :
    wp syncSpec (confirmRelease config registration state session latest) (fun r g' => g'.Through ∧ g'.Leaves r.2)
      (fun e g' => g'.Leaves e.1) g := by
  rw [confirmRelease, wp_bind, wp_okOr]
  refine ⟨fun currentVersion _ => ?_, fun _ => .inl hs⟩
  have hthrough : g.Through := fun _ _ => ⟨_, hoffered, .inl hheld⟩
  rw [wp_bind]
  refine wp_mono ?_ (fun _ _ he => he)
    (keeping_keeps (reportReleaseStatus_keeps _ _ _ _ (by rw [hoffered]; rfl)) (.inl hs))
  rintro _ g rfl
  rw [wp_bind]
  refine wp_mono ?_ (fun _ _ he => he) (keeping_keeps (persistState_keeps _) (.inl hs))
  rintro _ g rfl
  exact (wp_pure _).2 ⟨hthrough, .inl hs⟩

theorem syncLatestRelease_through (hnode : registration.nodeId = g.nodeId) (hg : g.Fresh)
    (hs : state.currentReleaseVersion = g.held) :
    wp syncSpec (syncLatestRelease config registration state session) (fun r g' => g'.Through ∧ g'.Leaves r.2)
      (fun e g' => g'.Leaves e.1) g := by
  rw [syncLatestRelease, wp_bind, wp_caught]
  refine wp_mono ?_ ?_ (getLatestRelease_told hnode hg)
  · rintro latest _ ⟨asked, rfl, hurl, hpath⟩
    dsimp only
    split
    · exact syncNewRelease_through rfl hurl hpath hs
    · rename_i hsame
      rw [not_not] at hsame
      split
      · exact confirmRelease_through rfl (hs.symm.trans hsame) hs
      · refine (wp_pure _).2 ⟨fun id _ => ⟨latest.releaseVersion, rfl, .inl (hs.symm.trans hsame)⟩, .inl hs⟩
  · rintro e _ ⟨asked, offered, rfl, hnone⟩
    dsimp only
    split
    · exact (wp_pure _).2 ⟨fun id h => absurd h (hnone (by assumption) id), .inl hs⟩
    · exact (wp_throw _).2 (.inl hs)

end Sync

/-! ## The programs -/

/-- No part of a version is a question mark. -/
theorem question_notMem_buildReleaseVersion {scope : String} (hs : scope ∈ releaseScopes) (t : DateTime) (n : Nat) :
    '?' ∉ (buildReleaseVersion scope t n).toList := by
  have hpad : ∀ w k, '?' ∉ Text.pad w k := fun w k h => absurd (Text.isDigit_of_mem_pad h) (by decide)
  have hyear : ∀ y, '?' ∉ yearText y := by
    intro y
    unfold yearText
    split
    · exact hpad _ _
    · split <;> simp [hpad]
  have hscope : '?' ∉ scope.toList := by
    have hall : ∀ scope ∈ releaseScopes, '?' ∉ scope.toList := by decide
    exact hall scope hs
  have hrel : '?' ∉ "rel-".toList := by decide
  have hdash : '?' ∉ "-".toList := by decide
  simp only [buildReleaseVersion, String.toList_append, String.toList_ofList, stamp, List.mem_append, not_or]
  exact ⟨⟨⟨⟨⟨hrel, hscope⟩, hdash⟩, ⟨⟨⟨⟨hyear _, hpad _ _⟩, hpad _ _⟩, hpad _ _⟩, hpad _ _⟩, hpad _ _⟩,
    hdash⟩, hpad _ _⟩

section Programs

variable {p : Platform} {encoding : Encoding}

theorem saveSiteRelease_drawn (hub : Nat) (site : SiteRecord) (releaseType reason : String) :
    (HubService.saveSiteRelease p hub site releaseType reason).Safe drawnSpec := by
  intro d
  simp only [drawnSpec, HubService.saveSiteRelease, HubService.saveCompiledRelease, repo, wp_bind, wp_attempt,
    wp_call_protocol, wp_pure, reduceCtorEq, false_implies, implies_true, and_true, true_and]
  intro _ _ n t certificates releaseId createdAt bundle hb now r hr
  obtain ⟨hid, hversion, -⟩ := compileSiteBundle_manifest hb
  cases hr
  refine ⟨congrArg some hid.symm, ?_⟩
  have hscope : "site" ∈ releaseScopes := by simp [releaseScopes]
  have hpath := question_notMem_buildReleaseVersion hscope t n
  rw [← hversion] at hpath
  exact hpath

theorem saveSiteCleanupRelease_drawn (hub : Nat) (site : SiteRecord) (detached : List Uuid) (reason : String) :
    (HubService.saveSiteCleanupRelease p hub site detached reason).Safe drawnSpec := by
  intro d
  simp only [drawnSpec, HubService.saveSiteCleanupRelease, HubService.saveCompiledRelease, repo, wp_bind, wp_attempt,
    wp_call_protocol, wp_pure, reduceCtorEq, false_implies, implies_true, and_true, true_and]
  intro n t releaseId createdAt bundle hb now r hr
  obtain ⟨hid, hversion, -⟩ := compileSiteCleanupBundle_manifest hb
  cases hr
  refine ⟨congrArg some hid.symm, ?_⟩
  have hscope : "cleanup" ∈ releaseScopes := by simp [releaseScopes]
  have hpath := question_notMem_buildReleaseVersion hscope t n
  rw [← hversion] at hpath
  exact hpath

/-- Every request of a hub saves its releases under identifiers of its own. -/
theorem program_drawn (hub : Hub) (r : Request) : (HubService.program p hub r).Safe drawnSpec := by
  have hok : ∀ es : List Effect, .saveRelease ∉ es → ∀ c d, HubCall.Within es c → drawnSpec.ok c d := by
    rintro es hes c d hc r rfl
    exact absurd hc hes
  have h1 := fun site t r => saveSiteRelease_drawn (p := p) hub.id site t r
  have h2 := fun site ds r => saveSiteCleanupRelease_drawn (p := p) hub.id site ds r
  by_cases he : .saveRelease ∈ r.effects
  · cases r with
    | createRelease r => exact safe_discard (createRelease_safe p hub.id h1 h2 (hok _ (by simp)) r)
    | updateSiteStatus s e => exact safe_discard (updateSiteStatus_safe p hub.id h1 (hok _ (by simp)) s e)
    | deleteSite s => exact safe_discard (deleteSite_safe p hub.id h2 (hok _ (by simp)) s)
    | switchSitePrimary s r => exact safe_discard (switchSitePrimary_safe p hub.id h1 h2 (hok _ (by simp)) s r)
    | _ => simp [Request.effects] at he
  · exact (program_only p hub r).safe (hok _ he)

/-- What a poll knows when it starts. -/
def Poll.start (nodeId : Uuid) (state : LocalAgentState) : Poll where
  nodeId := nodeId
  held := state.currentReleaseVersion

/-- What is known at the end of a poll. -/
def Ends : Option Polled → Option Uuid ⊕ Poll → Prop
  | none, _ => True
  | some polled, .inr g =>
    polled.nodeId = g.nodeId ∧ g.Leaves polled.state ∧ (polled.outcome.isOk = true → g.Through)
  | some _, .inl _ => False

theorem pollProgram_hub (hub : Hub) (request : Request) :
    Prog.wp pollSpec (pollProgram p encoding (.hub hub request)) Ends (.inl none) := by
  rw [pollProgram, Prog.wp_bind]
  have hrel := Prog.wp_interpret_rel (V := pollSpec) (d := fun c => .call (.hub c) .ret)
    (R := fun (d : Option Uuid) x => x = .inl d) (x := .inl none) ?_ (program_drawn (p := p) hub request).run rfl
  · exact Prog.wp_mono (fun _ _ _ => (Prog.wp_ret _).2 trivial) hrel
  · rintro c d _ rfl hok
    refine Prog.wp_call.2 ⟨hok, fun r x hx => ?_⟩
    cases x with
    | inl d' => exact (Prog.wp_ret _).2 ⟨d', hx, rfl⟩
    | inr g => exact hx.elim

theorem nodeId_syncSpec {c : AgentCall} {g g' : Poll} {r : c.Ans} (h : syncSpec.can c g r g') :
    g'.nodeId = g.nodeId := by
  cases c with
  | outside c =>
    cases c with
    | latestRelease token nodeId =>
      obtain ⟨asked, offered, rfl, -⟩ := h
      rfl
    | configPackage token downloadUrl =>
      obtain ⟨found, got, rfl, -⟩ := h
      rfl
    | _ => exact congrArg Poll.nodeId h
  | _ => exact congrArg Poll.nodeId h

/-- A poll that ends well and has asked for a release has its version, and one that fails keeps what it had. -/
theorem pollProgram_poll (config : AgentConfig) (registration : RegistrationMetadata) (state : LocalAgentState)
    (session : Session) :
    Prog.wp pollSpec (pollProgram p encoding (.poll config registration state session)) Ends
      (.inr (.start registration.nodeId state)) := by
  rw [pollProgram, Prog.wp_bind]
  have hsync : wp syncSpec (syncLatestRelease config registration state session)
      (fun r g' => g'.Through ∧ g'.Leaves r.2) (fun e g' => g'.Leaves e.1) (.start registration.nodeId state) :=
    syncLatestRelease_through rfl ⟨rfl, rfl, rfl, rfl⟩ rfl
  have hrel := Prog.wp_interpret_rel (V := pollSpec) (d := carry encoding registration.nodeId)
    (R := fun (g : Poll) x => x = .inr g ∧ g.nodeId = registration.nodeId)
      (x := .inr (.start registration.nodeId state))
    ?_ (wp_iff_run.1 hsync) ⟨rfl, rfl⟩
  · refine Prog.wp_mono ?_ hrel
    rintro outcome _ ⟨g, hpost, rfl, hnode⟩
    refine (Prog.wp_ret _).2 ⟨hnode.symm, ?_, ?_⟩
    · cases outcome with
      | ok r => exact hpost.2
      | error e => exact hpost
    · intro hok
      cases outcome with
      | ok r => exact hpost.1
      | error e => cases hok
  · rintro c g _ ⟨rfl, hnode⟩ hok
    rw [← hnode]
    refine Prog.wp_mono ?_ (carry_wp hok)
    rintro r _ ⟨g', hcan, rfl⟩
    exact ⟨g', hcan, rfl, nodeId_syncSpec hcan⟩

end Programs

end PingoraMesh.NodeAgent
