import PingoraMesh.Agent.Loop

/-!
# What the agent says of its version

Most calls of the agent have nothing to do with the version of its node (`AgentCall.Silent`). The others report it, load
or store it, apply a package or report success, and they come in an order that the source fixes.

* `Conduct` is what a specification of these calls has to allow: `holds` relates the local state that a process has in
  memory to what the specification knows, and `offered`, `served` and `applied` are what it knows of the hub's releases;
* `Conduct.main_follows`: a process follows every such specification.
-/

namespace PingoraMesh.NodeAgent

open Calls Calls.Fallible

/-! ## Answers -/

/-- The answer that an HTTP request brings back. -/
def HttpAnswer.data? {α : Type} : HttpAnswer α → Option α
  | .answered status _ (.ok a) => if 200 ≤ status ∧ status < 300 then some a else none
  | _ => none

theorem data?_of_parseResponse {α : Type} {verb url : String} {answer : HttpAnswer α} {a : α}
    (h : parseResponse verb url answer = .ok a) : answer.data? = some a := by
  cases answer with
  | sendFailed cause => cases h
  | bodyFailed cause => cases h
  | answered status body data =>
    cases data with
    | error e =>
      rw [parseResponse] at h
      split at h <;> cases h
    | ok b =>
      rw [parseResponse] at h
      split at h
      · cases h
        rename_i hs
        exact if_pos hs
      · cases h

/-! ## Calls that are silent -/

/-- A call that has nothing to do with the version of the node: it is not reported, and the state file is left alone. -/
def AgentCall.Silent : AgentCall → Prop
  | .outside (.heartbeat _ _) | .outside (.ackRelease _ _ _) | .readFile .state | .writeFile .state _
  | .applyReleasePackage _ _ _ _ => False
  | _ => True

/-- A call of the disk that leaves the state file alone. -/
def AgentCall.OnDisk : AgentCall → Prop
  | .outside (.createDirAll _) => True
  | .readFile file | .writeFile file _ => file ≠ .state
  | _ => False

section Silent

variable {α ε : Type} {config : AgentConfig}

theorem AgentCall.OnDisk.silent {c : AgentCall} (h : c.OnDisk) : c.Silent := by
  cases c with
  | outside c =>
    cases c with
    | createDirAll dir => trivial
    | _ => exact h.elim
  | readFile file =>
    cases file with
    | state => exact absurd rfl h
    | _ => trivial
  | writeFile file body =>
    cases file with
    | state => exact absurd rfl h
    | _ => trivial
  | applyReleasePackage registration package artifacts state => exact h.elim

theorem silent_of_onDisk {x : Fallible AgentSig ε α} (hx : x.Only AgentCall.OnDisk) : x.Only AgentCall.Silent :=
  hx.safe fun _ _ hc => hc.silent

theorem ask_silent {c : AgentCall} (h : c.Silent) : (ask c).Only AgentCall.Silent := only_call (S := AgentSig) h

theorem writeFile_onDisk {file : AgentFile} (hf : file ≠ .state) (body : FileBody) (context : String) :
    (writeFile file body context).Only AgentCall.OnDisk :=
  safe_bind (only_call (S := AgentSig) hf) fun _ => safe_attempt _

theorem readFile_onDisk {file : AgentFile} (hf : file ≠ .state) (context : String) :
    (readFile file context).Only AgentCall.OnDisk :=
  safe_bind (only_call (S := AgentSig) hf) fun _ => safe_attempt _

theorem createDirAll_onDisk (dir : String) : (createDirAll dir).Only AgentCall.OnDisk := by
  refine safe_bind (only_call (S := AgentSig) trivial) fun r => ?_
  cases r with
  | none => exact safe_pure _
  | some cause => exact safe_throw _

theorem persistReleaseArtifacts_onDisk (package : ConfigPackageResponse) :
    (persistReleaseArtifacts config package).Only AgentCall.OnDisk :=
  safe_bind (createDirAll_onDisk _) fun _ => safe_bind (writeFile_onDisk (by nofun) _ _) fun _ =>
    safe_bind (writeFile_onDisk (by nofun) _ _) fun _ => safe_bind (writeFile_onDisk (by nofun) _ _) fun _ =>
      safe_bind (writeFile_onDisk (by nofun) _ _) fun _ => safe_pure _

theorem activateReleaseArtifacts_onDisk (package : ConfigPackageResponse) (artifacts : ReleaseArtifacts) :
    (activateReleaseArtifacts config package artifacts).Only AgentCall.OnDisk :=
  safe_bind (writeFile_onDisk (by nofun) _ _) fun _ => safe_bind (readFile_onDisk (by nofun) _) fun _ =>
    safe_bind (writeFile_onDisk (by nofun) _ _) fun _ => safe_bind (readFile_onDisk (by nofun) _) fun _ =>
      safe_bind (writeFile_onDisk (by nofun) _ _) fun _ => safe_bind (readFile_onDisk (by nofun) _) fun _ =>
        writeFile_onDisk (by nofun) _ _

theorem writeFile_silent {file : AgentFile} (hf : file ≠ .state) (body : FileBody) (context : String) :
    (writeFile file body context).Only AgentCall.Silent := silent_of_onDisk (writeFile_onDisk hf body context)

theorem ensureDirs_silent : (ensureDirs config).Only AgentCall.Silent :=
  silent_of_onDisk (safe_bind (createDirAll_onDisk _) fun _ => safe_bind (createDirAll_onDisk _) fun _ =>
    createDirAll_onDisk _)

theorem loadRegistration_silent : (loadRegistration config).Only AgentCall.Silent := by
  refine safe_bind (silent_of_onDisk (readFile_onDisk (by nofun) _)) fun r => ?_
  cases r with
  | registration metadata => exact safe_pure _
  | _ => exact safe_throw _

theorem refreshSession_silent (registration : RegistrationMetadata) :
    (refreshSession config registration).Only AgentCall.Silent :=
  safe_bind (ask_silent trivial) fun _ => safe_bind (safe_attempt _) fun _ =>
    safe_bind (writeFile_silent (by nofun) _ _) fun _ => safe_pure _

theorem persistReleaseArtifacts_silent (package : ConfigPackageResponse) :
    (persistReleaseArtifacts config package).Only AgentCall.Silent :=
  silent_of_onDisk (persistReleaseArtifacts_onDisk package)

theorem activateReleaseArtifacts_silent (package : ConfigPackageResponse) (artifacts : ReleaseArtifacts) :
    (activateReleaseArtifacts config package artifacts).Only AgentCall.Silent :=
  silent_of_onDisk (activateReleaseArtifacts_onDisk package artifacts)

theorem runNodeOperation_silent (registration : RegistrationMetadata) (operation : PendingOperationResponse) :
    (runNodeOperation registration operation).Only AgentCall.Silent :=
  safe_bind (ask_silent trivial) fun _ => safe_bind (safe_ensure _ _) fun _ =>
    safe_bind (ask_silent trivial) fun _ => safe_bind (safe_attempt _) fun _ => safe_pure _

theorem syncPendingOperations_silent (registration : RegistrationMetadata) (session : Session) (turns executed : Nat) :
    (syncPendingOperations config registration session turns executed).Only AgentCall.Silent := by
  induction turns generalizing executed with
  | zero => exact safe_pure _
  | succ turns ih =>
    refine safe_bind (ask_silent trivial) fun answer => ?_
    split
    · split
      · exact safe_pure _
      · exact safe_throw _
    · exact safe_bind (safe_caught (runNodeOperation_silent _ _)) fun _ => safe_bind (ask_silent trivial) fun _ =>
        safe_bind (ask_silent trivial) fun _ => safe_bind (safe_attempt _) fun _ => ih _

end Silent

/-! ## Calls that report the version -/

/-- A call that tells of no other version than that of the local state: a silent one, a heartbeat, or a report of a
release that is under way or has failed. -/
inductive AgentCall.Reports (state : LocalAgentState) : AgentCall → Prop
  | silent {c : AgentCall} (h : c.Silent) : Reports state c
  | heartbeat (token : String) (request : NodeHeartbeatRequest)
      (h : request.activeConfigVersion = state.currentReleaseVersion) :
        Reports state (.outside (.heartbeat token request))
  | progress (token : String) (releaseId : Uuid) (request : ReleaseAckRequest) (fallback : String)
      (hs : request.applyStatus ≠ "success") (hv : request.currentVersion = reportedCurrentVersion state fallback) :
      Reports state (.outside (.ackRelease token releaseId request))

section Reports

variable {α ε : Type} {config : AgentConfig} {state : LocalAgentState}

theorem reports_of_silent {x : Fallible AgentSig ε α} (hx : x.Only AgentCall.Silent) :
    x.Only (AgentCall.Reports state) := hx.safe fun _ _ hc => .silent hc

theorem ask_reports {c : AgentCall} (h : c.Reports state) : (ask c).Only (AgentCall.Reports state) :=
  only_call (S := AgentSig) h

theorem heartbeat_reports (registration : RegistrationMetadata) (session : Session) :
    (heartbeat config registration state session).Only (AgentCall.Reports state) :=
  safe_bind (ask_reports (.heartbeat _ _ rfl)) fun _ => safe_attempt _

theorem reportReleaseStatus_reports (registration : RegistrationMetadata) (session : Session) (releaseId : Uuid)
    {applyStatus : String} (h : applyStatus ≠ "success") (fallback : String) (message : Option String) :
    (reportReleaseStatus config registration session releaseId applyStatus (reportedCurrentVersion state fallback)
      message).Only (AgentCall.Reports state) :=
  safe_bind (ask_reports (.progress _ _ _ fallback h rfl)) fun _ => safe_attempt _

theorem withFreshToken_reports {registration : RegistrationMetadata} {session : Session}
    {x : RegistrationMetadata → Session → AgentM α}
    (hx : ∀ registration session, (x registration session).Only (AgentCall.Reports state)) :
    (withFreshToken config registration session x).Only (AgentCall.Reports state) := by
  refine safe_bind (safe_caught (hx _ _)) fun r => ?_
  cases r with
  | ok a => exact safe_pure _
  | error e =>
    dsimp only
    split
    · exact safe_bind (reports_of_silent (refreshSession_silent _)) fun _ => safe_bind (hx _ _) fun _ => safe_pure _
    · exact safe_throw _

end Reports

/-! ## Specifications that the agent follows -/

section Conduct

variable {γ : Type}

/-- What a specification has to allow. -/
structure Conduct (T : Spec AgentSig γ) (holds : LocalAgentState → γ → Prop)
    (offered : LatestReleaseResponse → γ → Prop) (served applied : ConfigPackageResponse → γ → Prop) : Prop where
  /-- Only the version of the local state matters. -/
  version : ∀ {state state' g}, state.currentReleaseVersion = state'.currentReleaseVersion →
    holds state g → holds state' g
  silent : ∀ {c g}, c.Silent → T.ok c g
  reports : ∀ {state c g}, c.Reports state → holds state g → T.ok c g
  keeps : ∀ {state c g r g'}, c.Reports state → T.can c g r g' → holds state g → holds state g'
  keeps_served : ∀ {state c g r g' package}, c.Reports state → T.can c g r g' → served package g → served package g'
  keeps_applied : ∀ {state c g r g' package}, c.Reports state → T.can c g r g' → applied package g → applied package g'
  latest : ∀ {token nodeId g answer g' latest}, T.can (.outside (.latestRelease token nodeId)) g answer g' →
    HttpAnswer.data? answer = some latest → offered latest g'
  package : ∀ {token downloadUrl g answer g' package}, T.can (.outside (.configPackage token downloadUrl)) g answer g' →
    HttpAnswer.data? answer = some package → served package g'
  apply : ∀ {registration package artifacts state g}, served package g →
    T.ok (.applyReleasePackage registration package artifacts state) g
  apply_keeps : ∀ {registration package artifacts state g r g'},
    T.can (.applyReleasePackage registration package artifacts state) g r g' → holds state g → holds state g'
  apply_done : ∀ {registration package artifacts state g message g'},
    T.can (.applyReleasePackage registration package artifacts state) g (.ok message) g' → applied package g'
  /-- Success may be reported for an applied package, and its version is then that of the local state. -/
  success : ∀ token request state {package g}, applied package g → request.applyStatus = "success" →
    request.currentVersion = package.releaseVersion → state.currentReleaseVersion = some package.releaseVersion →
    T.ok (.outside (.ackRelease token package.releaseId request)) g ∧
      ∀ r g', T.can (.outside (.ackRelease token package.releaseId request)) g r g' → holds state g'
  /-- Success may be reported for a release of the version that the local state has. -/
  confirm : ∀ token request {latest state g}, offered latest g → holds state g → request.applyStatus = "success" →
    request.currentVersion = latest.releaseVersion → state.currentReleaseVersion = some latest.releaseVersion →
    T.ok (.outside (.ackRelease token latest.releaseId request)) g ∧
      ∀ r g', T.can (.outside (.ackRelease token latest.releaseId request)) g r g' → holds state g'
  store : ∀ {state g}, holds state g → T.ok (.writeFile .state (.state state)) g ∧
    ∀ r g', T.can (.writeFile .state (.state state)) g r g' → holds state g'
  load : ∀ {g}, T.ok (.readFile .state) g
  loaded : ∀ {state g g'}, T.can (.readFile .state) g (.ok (.state state)) g' → holds state g'
  absent : ∀ {g g'}, T.can (.readFile .state) g (.error .notFound) g' → holds {} g'

namespace Conduct

variable {T : Spec AgentSig γ} {holds : LocalAgentState → γ → Prop} {offered : LatestReleaseResponse → γ → Prop}
  {served applied : ConfigPackageResponse → γ → Prop} {config : AgentConfig} {state : LocalAgentState} {g : γ}
  (h : Conduct T holds offered served applied)
include h

/-- A program that reports keeps what each of its calls keeps. -/
theorem wp_reports {α ε : Type} {x : Fallible AgentSig ε α} (hx : x.Only (AgentCall.Reports state)) {I : γ → Prop}
    (hI : ∀ c g r g', c.Reports state → T.can c g r g' → I g → I g') (hs : holds state g) (hg : I g) :
    wp T x (fun _ g' => holds state g' ∧ I g') (fun _ g' => holds state g' ∧ I g') g :=
  hx.wp (I := fun g => holds state g ∧ I g) (fun _ _ hc hg => h.reports hc hg.1)
    (fun c g r g' hc hg hcan => ⟨h.keeps hc hcan hg.1, hI c g r g' hc hcan hg.2⟩) ⟨hs, hg⟩

/-- A program that reports keeps the local state. -/
theorem wp_holds {α ε : Type} {x : Fallible AgentSig ε α} (hx : x.Only (AgentCall.Reports state)) (hs : holds state g) :
    wp T x (fun _ g' => holds state g') (fun _ g' => holds state g') g :=
  wp_mono (fun _ _ hg => hg.1) (fun _ _ hg => hg.1)
    (h.wp_reports hx (I := fun _ => True) (fun _ _ _ _ _ _ _ => trivial) hs trivial)

/-- A local state is kept across a program that reports, with what each of its calls keeps. -/
theorem keeping_wp {α : Type} {x : AgentM α} (hx : x.Only (AgentCall.Reports state)) {I : γ → Prop}
    (hI : ∀ c g r g', c.Reports state → T.can c g r g' → I g → I g') (hs : holds state g) (hg : I g) :
    wp T (keeping state x) (fun _ g' => holds state g' ∧ I g') (fun e g' => holds e.1 g') g := by
  rw [keeping, wp_mapError]
  exact wp_mono (fun _ _ hg => hg) (fun _ _ hg => hg.1) (h.wp_reports hx hI hs hg)

theorem persistState_wp (hs : holds state g) :
    wp T (persistState config state) (fun _ g' => holds state g') (fun _ g' => holds state g') g := by
  rw [persistState, writeFile, wp_bind]
  refine (wp_call _).2 ⟨(h.store hs).1, fun r g' hcan => ?_⟩
  have hs' := (h.store hs).2 r g' hcan
  exact (wp_attempt _).2 ⟨fun _ _ => hs', fun _ _ => hs'⟩

/-- The latest release that the hub gives has been offered. -/
theorem getLatestRelease_wp (registration : RegistrationMetadata) (session : Session) (hs : holds state g) :
    wp T (getLatestRelease config registration session) (fun latest g' => holds state g' ∧ offered latest g')
      (fun _ g' => holds state g') g := by
  have hc : AgentCall.Reports state
    (.outside (.latestRelease session.accessToken registration.nodeId)) := .silent trivial
  rw [getLatestRelease, wp_bind]
  refine (wp_call _).2 ⟨h.reports hc hs, fun answer g' hcan => ?_⟩
  have hs' := h.keeps hc hcan hs
  exact (wp_attempt _).2 ⟨fun latest hr => ⟨hs', h.latest hcan (data?_of_parseResponse hr)⟩, fun _ _ => hs'⟩

/-- The package that the hub gives has been served. -/
theorem getConfigPackage_wp (session : Session) (downloadUrl : String) (hs : holds state g) :
    wp T (getConfigPackage config session downloadUrl) (fun package g' => holds state g' ∧ served package g')
      (fun _ g' => holds state g') g := by
  have hc : AgentCall.Reports state (.outside (.configPackage session.accessToken downloadUrl)) := .silent trivial
  rw [getConfigPackage, wp_bind]
  refine (wp_call _).2 ⟨h.reports hc hs, fun answer g' hcan => ?_⟩
  have hs' := h.keeps hc hcan hs
  exact (wp_attempt _).2 ⟨fun package hr => ⟨hs', h.package hcan (data?_of_parseResponse hr)⟩, fun _ _ => hs'⟩

theorem syncNewRelease_wp (registration : RegistrationMetadata) (session : Session) (latest : LatestReleaseResponse)
    (hs : holds state g) :
    wp T (syncNewRelease config registration state session latest) (fun r g' => holds r.2 g')
      (fun e g' => holds e.1 g') g := by
  simp only [syncNewRelease, wp_bind]
  refine wp_mono (fun _ g hg => ?_) (fun _ _ hg => hg)
    (h.keeping_wp (reportReleaseStatus_reports _ _ _ (by decide) _ _) (I := fun _ => True)
      (fun _ _ _ _ _ _ _ => trivial) hs trivial)
  rw [keeping, wp_mapError]
  refine wp_mono (fun package g hg => ?_) (fun _ _ hg => hg) (h.getConfigPackage_wp session latest.downloadUrl hg.1)
  refine wp_mono (fun artifacts g hg => ?_) (fun _ _ hg => hg)
    (h.keeping_wp (reports_of_silent (persistReleaseArtifacts_silent _)) (fun _ _ _ _ => h.keeps_served) hg.1 hg.2)
  refine wp_mono (fun _ g hg => ?_) (fun _ _ hg => hg)
    (h.keeping_wp (reportReleaseStatus_reports _ _ _ (by decide) _ _) (fun _ _ _ _ => h.keeps_served) hg.1 hg.2)
  rw [keeping, wp_mapError]
  refine (wp_call _).2 ⟨h.apply hg.2, fun result g' hcan => ?_⟩
  have hs' := h.apply_keeps hcan hg.1
  cases result with
  | error e =>
    simp only [wp_bind, wp_caught, wp_throw]
    exact h.wp_holds (reportReleaseStatus_reports _ _ _ (by decide) _ _) hs'
  | ok message =>
    have hdone := h.apply_done hcan
    simp only [wp_bind]
    refine wp_mono (fun _ g hg => ?_) (fun _ _ hg => hg)
      (h.keeping_wp (reports_of_silent (activateReleaseArtifacts_silent _ _))
        (fun _ _ _ _ => h.keeps_applied) hs' hdone)
    -- from here on the version of the state is that of the package
    rw [keeping, wp_mapError, acknowledgeRelease, wp_discard, reportReleaseStatus, wp_bind]
    have hack := h.success session.accessToken ⟨registration.nodeId, "success", package.releaseVersion, some message⟩
      (state.activated latest package) hg.2 rfl rfl rfl
    refine (wp_call _).2 ⟨hack.1, fun r g' hcan => ?_⟩
    have hactive := hack.2 r g' hcan
    refine (wp_attempt _).2 ⟨fun _ _ => ?_, fun _ _ => hactive⟩
    rw [keeping, wp_mapError]
    exact wp_mono (fun _ _ hg => (wp_pure _).2 hg) (fun _ _ hg => hg) (h.persistState_wp (h.version (by rfl) hactive))

theorem confirmRelease_wp (registration : RegistrationMetadata) (session : Session) {latest : LatestReleaseResponse}
    (hs : holds state g) (hl : offered latest g) (hv : state.currentReleaseVersion = some latest.releaseVersion) :
    wp T (confirmRelease config registration state session latest) (fun r g' => holds r.2 g')
      (fun e g' => holds e.1 g') g := by
  simp only [confirmRelease, keeping, wp_bind, wp_okOr, wp_mapError, wp_pure, reportReleaseStatus]
  refine ⟨fun version hversion => ?_, fun _ => hs⟩
  obtain rfl : version = latest.releaseVersion := Option.some.inj (hversion.symm.trans hv)
  have hack := h.confirm session.accessToken ⟨registration.nodeId, "success", latest.releaseVersion,
    some "node-agent confirmed active release state"⟩ hl hs rfl rfl hv
  refine (wp_call _).2 ⟨hack.1, fun r g' hcan => ?_⟩
  have hs' := hack.2 r g' hcan
  exact (wp_attempt _).2 ⟨fun _ _ => h.persistState_wp (h.version (by rfl) hs'), fun _ _ => hs'⟩

/-- A sync leaves a local state that holds, also when it fails. -/
theorem syncLatestRelease_wp (registration : RegistrationMetadata) (session : Session) (hs : holds state g) :
    wp T (syncLatestRelease config registration state session) (fun r g' => holds r.2 g') (fun e g' => holds e.1 g')
      g := by
  simp only [syncLatestRelease, wp_bind, wp_caught]
  refine wp_mono (fun latest g hg => ?_) (fun e g hg => ?_) (h.getLatestRelease_wp registration session hs)
  · split
    · exact h.syncNewRelease_wp registration session latest hg.1
    · rename_i hv
      split
      · exact h.confirmRelease_wp registration session hg.1 hg.2 (not_not.1 hv)
      · exact (wp_pure _).2 hg.1
  · split
    · exact (wp_pure _).2 hg
    · exact (wp_throw _).2 hg

theorem syncTurn_wp (run : Running) (hs : holds run.state g) :
    wp T (syncTurn config run) (fun run' g' => holds run'.state g') (fun _ _ => True) g := by
  simp only [syncTurn, wp_bind, wp_caught]
  refine wp_mono (fun r g hg => (wp_pure _).2 hg) (fun e g hg => ?_) (h.syncLatestRelease_wp _ _ hs)
  split
  · simp only [wp_bind, wp_mapError]
    refine wp_mono (fun _ g hg => ?_) (fun _ _ _ => trivial)
      (h.wp_holds (reports_of_silent (refreshSession_silent _)) hg)
    exact wp_mono (fun _ _ hg => (wp_pure _).2 hg) (fun _ _ _ => trivial) (h.syncLatestRelease_wp _ _ hg)
  · exact (wp_pure _).2 hg

theorem refreshTurn_wp (run : Running) (hs : holds run.state g) :
    wp T (refreshTurn config run) (fun run' g' => run'.state = run.state ∧ holds run.state g') (fun _ _ => True) g := by
  simp only [refreshTurn, wp_bind]
  refine wp_mono (fun now g hs => ?_) (fun _ _ _ => trivial) (h.wp_holds (ask_reports (.silent trivial)) hs)
  split
  · simp only [wp_bind]
    exact wp_mono (fun _ _ hg => (wp_pure _).2 ⟨rfl, hg⟩) (fun _ _ _ => trivial)
      (h.wp_holds (reports_of_silent (refreshSession_silent _)) hs)
  · exact (wp_pure _).2 ⟨rfl, hs⟩

theorem operationsTurn_wp (turns : Nat) (run : Running) (hs : holds run.state g) :
    wp T (operationsTurn config turns run) (fun run' g' => holds run'.state g') (fun _ _ => True) g := by
  simp only [operationsTurn, wp_bind, wp_caught]
  refine wp_mono (fun r g hg => (wp_pure _).2 hg) (fun e g hg => ?_)
    (h.wp_holds (reports_of_silent (syncPendingOperations_silent _ _ _ _)) hs)
  split
  · simp only [wp_bind]
    refine wp_mono (fun _ g hg => ?_) (fun _ _ _ => trivial)
      (h.wp_holds (reports_of_silent (refreshSession_silent _)) hg)
    exact wp_mono (fun _ _ hg => (wp_pure _).2 hg) (fun _ _ _ => trivial)
      (h.wp_holds (reports_of_silent (syncPendingOperations_silent _ _ _ _)) hg)
  · exact (wp_pure _).2 hg

/-- A turn of the main loop leaves a local state that holds. -/
theorem loopTurn_wp (turns : Nat) (run : Running) (hs : holds run.state g) :
    wp T (loopTurn config turns run) (fun r g' => holds r.1.state g') (fun _ _ => True) g := by
  simp only [loopTurn, wp_bind]
  refine wp_mono ?_ (fun _ _ hg => hg) (h.refreshTurn_wp run hs)
  rintro run' g ⟨hrun, hs⟩
  rw [hrun]
  refine wp_mono (fun _ g hs => ?_) (fun _ _ _ => trivial)
    (h.wp_holds (withFreshToken_reports fun _ _ => heartbeat_reports _ _) hs)
  refine wp_mono (fun now g hs => ?_) (fun _ _ _ => trivial) (h.wp_holds (ask_reports (.silent trivial)) hs)
  have hbeat : holds { run.state with lastHeartbeatAt := some now } g := h.version (by rfl) hs
  refine wp_mono (fun _ g hs => ?_) (fun _ _ _ => trivial) (h.persistState_wp hbeat)
  refine wp_mono (fun run g hs => ?_) (fun _ _ hg => hg) (h.syncTurn_wp _ hs)
  refine wp_mono (fun run g hs => ?_) (fun _ _ hg => hg) (h.operationsTurn_wp turns run hs)
  exact wp_mono (fun _ _ hg => (wp_pure _).2 hg) (fun _ _ _ => trivial)
    (h.wp_holds (ask_reports (c := .outside (.sleepOrStop _)) (.silent trivial)) hs)

theorem mainLoop_wp (turns n : Nat) (run : Running) (hs : holds run.state g) :
    wp T (mainLoop config turns n run) (fun _ _ => True) (fun _ _ => True) g := by
  induction n generalizing g run with
  | zero => exact (wp_pure _).2 trivial
  | succ n ih =>
    simp only [mainLoop, wp_bind]
    refine wp_mono (fun r g hs => ?_) (fun _ _ hg => hg) (h.loopTurn_wp turns run hs)
    split
    · exact (wp_pure _).2 trivial
    · exact ih r.1 hs

/-- The state that is loaded holds. -/
theorem loadState_wp : wp T (loadState config) (fun state g' => holds state g') (fun _ _ => True) g := by
  rw [loadState, wp_bind]
  refine (wp_call _).2 ⟨h.load, fun r g' hcan => ?_⟩
  match r, hcan with
  | .ok (.state state), hcan => exact (wp_pure _).2 (h.loaded hcan)
  | .ok (.registration _), _ | .ok (.package _), _ | .ok (.json _), _ | .ok (.text _), _ | .ok .torn, _ =>
    exact (wp_throw _).2 trivial
  | .error .notFound, hcan => exact (wp_pure _).2 (h.absent hcan)
  | .error (.other _), _ => exact (wp_throw _).2 trivial

/-- A process follows the specification, whatever is known at its start. -/
theorem main_follows (turns : Nat) : (main config turns).Safe T := by
  have hsilent : ∀ {α : Type} {x : AgentM α}, x.Only AgentCall.Silent → x.Safe T := fun hx =>
    hx.safe fun _ _ hc => h.silent hc
  intro g
  simp only [main, wp_bind]
  refine wp_mono (fun _ g _ => ?_) (fun _ _ hg => hg) (hsilent ensureDirs_silent g)
  refine wp_mono (fun _ g _ => ?_) (fun _ _ hg => hg) (hsilent loadRegistration_silent g)
  refine wp_mono (fun state g hs => ?_) (fun _ _ hg => hg) h.loadState_wp
  refine wp_mono (fun _ g hs => ?_) (fun _ _ _ => trivial)
    (h.wp_holds (reports_of_silent (refreshSession_silent _)) hs)
  exact h.mainLoop_wp turns turns _ hs

end Conduct

end Conduct

end PingoraMesh.NodeAgent
