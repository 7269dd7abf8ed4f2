import PingoraMesh.Agent.Apply

/-!
# The node agent: release sync and main loop

The agent is a program of `AgentCall`s: calls of the surroundings, reads and writes of its files, and
`apply_release_package` as one call, so that a trace says for which package it ran and how it ended. `agentHandler`
carries them out over the disk of the node. A write that fails leaves the file as it was, or torn: the text that is left
is no JSON document, and reading it back fails.

`syncLatestRelease` gives the local state back with an error too, since the caller keeps what was changed before it.
The loops of the source have no bound of their own; they are followed for a number of turns, and all the numbers of
turns together are all the runs.
-/

namespace PingoraMesh.NodeAgent

open Calls Calls.Fallible

/-! ## Files -/

/-- What is in a file of the agent. -/
inductive FileBody where
  | registration (metadata : RegistrationMetadata)
  | state (state : LocalAgentState)
  | package (package : ConfigPackageResponse)
  | json (value : Value)
  | text (text : String)
  | torn

/-- Why a file is not read. -/
inductive ReadFailure where
  | notFound
  | other (cause : String)
  deriving DecidableEq, Repr

/-- The message of an I/O error. -/
def ReadFailure.cause : ReadFailure → String
  | .notFound => "No such file or directory (os error 2)"
  | .other cause => cause

/-- The calls of the agent. -/
inductive AgentCall where
  | outside (c : OutsideCall)
  | readFile (file : AgentFile)
  | writeFile (file : AgentFile) (body : FileBody)
  | applyReleasePackage (registration : RegistrationMetadata) (package : ConfigPackageResponse)
      (artifacts : ReleaseArtifacts) (state : LocalAgentState)

@[reducible] def AgentCall.Ans : AgentCall → Type
  | .outside c => c.Ans
  | .readFile _ => Except ReadFailure FileBody
  | .writeFile _ _ => Except String Unit
  | .applyReleasePackage _ _ _ _ => Except Failure String

abbrev AgentSig : Sig := ⟨AgentCall, AgentCall.Ans⟩

/-- A node: its disk and its surroundings. -/
structure Node (η : Type) where
  disk : AgentFile → Option FileBody
  env : η

/-- Carry out a call of the agent. -/
def agentHandler {η : Type} (net : Handler OutsideSig η) (config : AgentConfig) : Handler AgentSig (Node η)
  | .outside c, node => ((net c node.env).1, { node with env := (net c node.env).2 })
  | .readFile file, node =>
    (match (net (.openRead file) node.env).1, node.disk file with
      | some cause, _ => .error (.other cause)
      | none, some body => .ok body
      | none, none => .error .notFound,
      { node with env := (net (.openRead file) node.env).2 })
  | .writeFile file body, node =>
    let env := (net (.openWrite file) node.env).2
    match (net (.openWrite file) node.env).1 with
    | .done => (.ok (), { disk := Function.update node.disk file (some body), env := env })
    | .untouched cause => (.error cause, { node with env := env })
    | .torn cause => (.error cause, { disk := Function.update node.disk file (some .torn), env := env })
  | .applyReleasePackage registration package artifacts state, node =>
    ((Fallible.run net (applyReleasePackage config registration package artifacts state) node.env).1,
      { node with env := (Fallible.run net
        (applyReleasePackage config registration package artifacts state) node.env).2 })

/-- A program of the agent. -/
abbrev AgentM := Fallible AgentSig Failure

/-- One call. -/
def ask (c : AgentCall) : AgentM c.Ans := Fallible.call (S := AgentSig) c

/-- `fs::write`, with the context of its error. -/
def writeFile (file : AgentFile) (body : FileBody) (context : String) : AgentM Unit := do
  attempt ((← ask (.writeFile file body)).mapError fun cause => ⟨context, [cause]⟩)

/-- `fs::read`, with the context of its error. -/
def readFile (file : AgentFile) (context : String) : AgentM FileBody := do
  attempt ((← ask (.readFile file)).mapError fun e => ⟨context, [e.cause]⟩)

/-- `fs::create_dir_all`, with the context of its error. -/
def createDirAll (dir : String) : AgentM Unit := do
  match ← ask (.outside (.createDirAll dir)) with
  | none => pure ()
  | some cause => throw ⟨"failed to create " ++ dir, [cause]⟩

section Agent

variable (config : AgentConfig)

/-- `AgentConfig::ensure_dirs`. -/
def ensureDirs : AgentM Unit := do
  createDirAll config.dataDir
  createDirAll (parentPath config.statePath)
  createDirAll config.releasesDir

/-- `RegistrationMetadata::load`. -/
def loadRegistration : AgentM RegistrationMetadata := do
  match ← readFile .registration ("failed to read registration metadata from " ++ config.registrationPath) with
  | .registration metadata => pure metadata
  | _ => throw ⟨"failed to parse registration metadata json", []⟩

/-- `RegistrationMetadata::persist`. -/
def persistRegistration (registration : RegistrationMetadata) : AgentM Unit :=
  writeFile .registration (.registration registration)
    ("failed to write registration metadata to " ++ config.registrationPath)

/-- `LocalAgentState::load`. -/
def loadState : AgentM LocalAgentState := do
  match ← ask (.readFile .state) with
  | .ok (.state state) => pure state
  | .ok _ => throw ⟨"failed to parse node-agent state json", []⟩
  | .error .notFound => pure {}
  | .error (.other cause) => throw ⟨"failed to read node-agent state from " ++ config.statePath, [cause]⟩

/-- `LocalAgentState::persist`. -/
def persistState (state : LocalAgentState) : AgentM Unit :=
  writeFile .state (.state state) ("failed to write node-agent state to " ++ config.statePath)

/-! ## The hub -/

/-- The fraction of a second as `SecondsFormat::AutoSi` writes it. -/
def fractionText (nanos : Nat) : List Char :=
  if nanos = 0 then []
  else if nanos % 1000000 = 0 then '.' :: Text.pad 3 (nanos / 1000000)
  else if nanos % 1000 = 0 then '.' :: Text.pad 6 (nanos / 1000)
  else '.' :: Text.pad 9 nanos

/-- `DateTime::to_rfc3339`. -/
def toRfc3339 (t : DateTime) : String :=
  let secs := DateTime.timestamp t
  let day := civil (secs / 86400)
  let tod := (secs % 86400).toNat
  .ofList (yearText day.year ++ '-' :: Text.pad 2 day.month ++ '-' :: Text.pad 2 day.day ++ 'T' ::
    Text.pad 2 (tod / 3600) ++ ':' :: Text.pad 2 (tod / 60 % 60) ++ ':' :: Text.pad 2 (tod % 60) ++
    fractionText (t % DateTime.nanosPerSecond).toNat ++ "+00:00".toList)

example : toRfc3339 1777340096500000000 = "2026-04-28T01:34:56.500+00:00" := by decide +kernel

/-- `Session::should_refresh`. -/
def Session.shouldRefresh (session : Session) (now : DateTime) : Bool :=
  session.expiresAt ≤ now + DateTime.seconds (5 * 60)

/-- `refresh_session`: the session and the registration with its new refresh token. -/
def refreshSession (registration : RegistrationMetadata) : AgentM (Session × RegistrationMetadata) := do
  let answer ← ask (.outside (.refresh { nodeId := registration.nodeId, refreshToken := registration.refreshToken }))
  let response ← attempt (parseResponse "POST" (config.hubBaseUrl ++ "/api/node/auth/refresh") answer)
  let registration := { registration with
    refreshToken := response.refreshToken
    expiresAt := toRfc3339 response.expiresAt }
  persistRegistration config registration
  return ({ accessToken := response.accessToken, expiresAt := response.expiresAt }, registration)

/-- `heartbeat`. -/
def heartbeat (registration : RegistrationMetadata) (state : LocalAgentState) (session : Session) :
    AgentM NodeHeartbeatResponse := do
  let answer ← ask (.outside (.heartbeat session.accessToken {
    nodeId := registration.nodeId
    pingoraVersion := config.pingoraVersion
    agentVersion := config.agentVersion
    activeConfigVersion := state.currentReleaseVersion
    siteCount := state.siteCount
    healthScore := 100 }))
  attempt (parseResponse "POST" (config.hubBaseUrl ++ "/api/node/heartbeat") answer)

/-- The latest release, as `sync_latest_release` asks for it. -/
def getLatestRelease (registration : RegistrationMetadata) (session : Session) : AgentM LatestReleaseResponse := do
  let answer ← ask (.outside (.latestRelease session.accessToken registration.nodeId))
  attempt (parseResponse "GET" (config.hubBaseUrl ++ "/api/node/config/releases/latest?node_id=" ++
    Uuid.hyphenated registration.nodeId) answer)

/-- The package behind a download URL, as `sync_latest_release` asks for it. -/
def getConfigPackage (session : Session) (downloadUrl : String) : AgentM ConfigPackageResponse := do
  let answer ← ask (.outside (.configPackage session.accessToken downloadUrl))
  attempt (parseResponse "GET" (config.hubBaseUrl ++ downloadUrl) answer)

/-- `report_release_status`. -/
def reportReleaseStatus (registration : RegistrationMetadata) (session : Session) (releaseId : Uuid)
    (applyStatus currentVersion : String) (message : Option String) : AgentM ReleaseAckResponse := do
  let answer ← ask (.outside (.ackRelease session.accessToken releaseId {
    nodeId := registration.nodeId
    applyStatus := applyStatus
    currentVersion := currentVersion
    message := message }))
  attempt
    (parseResponse "POST" (config.hubBaseUrl ++ "/api/node/releases/" ++ Uuid.hyphenated releaseId ++ "/ack") answer)

/-- `acknowledge_release`. -/
def acknowledgeRelease (registration : RegistrationMetadata) (session : Session) (package : ConfigPackageResponse)
    (message : Option String) : AgentM Unit :=
  discard (reportReleaseStatus config registration session package.releaseId "success" package.releaseVersion message)

/-! ## Release sync -/

/-- `persist_release_artifacts`. -/
def persistReleaseArtifacts (package : ConfigPackageResponse) : AgentM ReleaseArtifacts := do
  let releaseDir := joinPath config.releasesDir package.releaseVersion
  createDirAll releaseDir
  writeFile (.stagedPackage package.releaseVersion) (.package package)
    ("failed to write package.json for " ++ package.releaseVersion)
  writeFile (.stagedManifest package.releaseVersion) (.json package.manifest)
    ("failed to write manifest.json for " ++ package.releaseVersion)
  writeFile (.stagedRenderedConfig package.releaseVersion) (.json package.renderedConfig)
    ("failed to write rendered-config.json for " ++ package.releaseVersion)
  writeFile (.stagedCertificates package.releaseVersion) (.json package.certificates)
    ("failed to write certificates.json for " ++ package.releaseVersion)
  return {
    releaseDir := releaseDir
    packagePath := joinPath releaseDir "package.json"
    manifestPath := joinPath releaseDir "manifest.json"
    renderedConfigPath := joinPath releaseDir "rendered-config.json"
    certificatesPath := joinPath releaseDir "certificates.json" }

/-- `activate_release_artifacts`. -/
def activateReleaseArtifacts (package : ConfigPackageResponse) (artifacts : ReleaseArtifacts) : AgentM Unit := do
  writeFile .currentReleaseVersion (.text package.releaseVersion)
    ("failed to write " ++ config.currentReleaseVersionPath)
  let manifest ← readFile (.stagedManifest package.releaseVersion)
    ("failed to read staged manifest " ++ artifacts.manifestPath)
  writeFile .currentManifest manifest ("failed to write " ++ config.currentManifestPath)
  let renderedConfig ← readFile (.stagedRenderedConfig package.releaseVersion)
    ("failed to read staged rendered config " ++ artifacts.renderedConfigPath)
  writeFile .currentRenderedConfig renderedConfig ("failed to write " ++ config.currentRenderedConfigPath)
  let certificates ← readFile (.stagedCertificates package.releaseVersion)
    ("failed to read staged certificates " ++ artifacts.certificatesPath)
  writeFile .currentCertificates certificates ("failed to write " ++ config.currentCertificatesPath)

/-- `reported_current_version`. -/
def reportedCurrentVersion (state : LocalAgentState) (fallback : String) : String :=
  state.currentReleaseVersion.getD fallback

/-- `SyncAction`. -/
inductive SyncAction where
  | noRelease
  | idle
  | applied (version : String)
  | acked (version : String)
  deriving DecidableEq, Repr

/-- A program that hands the local state back with its error. -/
abbrev SyncM := Fallible AgentSig (LocalAgentState × Failure)

/-- `?` where the local state is `state`. -/
def keeping {α : Type} (state : LocalAgentState) (x : AgentM α) : SyncM α := mapError (state, ·) x

/-- The state of a node on which a package has become active. -/
def LocalAgentState.activated (state : LocalAgentState) (latest : LatestReleaseResponse)
    (package : ConfigPackageResponse) : LocalAgentState :=
  { state with
    currentReleaseId := some package.releaseId
    currentReleaseVersion := some package.releaseVersion
    currentConfigHash := some latest.configHash
    siteCount := (((package.manifest.get "sites").bind Value.asArray).map fun sites => sites.length % 2 ^ 32).getD 0 }

/-- A release that is not the current one: download, apply, activate, acknowledge. -/
def syncNewRelease (registration : RegistrationMetadata) (state : LocalAgentState) (session : Session)
    (latest : LatestReleaseResponse) : SyncM (SyncAction × LocalAgentState) := do
  let previousVersion := reportedCurrentVersion state latest.releaseVersion
  let _ ← keeping state (reportReleaseStatus config registration session latest.releaseId "downloading" previousVersion
    (some ("node-agent downloading " ++ latest.releaseVersion)))
  let package ← keeping state (getConfigPackage config session latest.downloadUrl)
  let artifacts ← keeping state (persistReleaseArtifacts config package)
  let _ ← keeping state (reportReleaseStatus config registration session latest.releaseId "applying" previousVersion
    (some ("release artifacts staged at " ++ artifacts.releaseDir ++ "; starting apply pipeline")))
  match ← keeping state (ask (.applyReleasePackage registration package artifacts state)) with
  | .error e =>
    let failureMessage := truncateMessage ("release " ++ package.releaseVersion ++ " apply failed: " ++ e.alternate)
    let _ ← caught (reportReleaseStatus config registration session latest.releaseId "failed" previousVersion
      (some failureMessage))
    throw (state, e)
  | .ok applyMessage =>
    keeping state (activateReleaseArtifacts config package artifacts)
    let state := state.activated latest package
    keeping state (acknowledgeRelease config registration session package (some applyMessage))
    let state := { state with lastAcknowledgedReleaseId := some package.releaseId }
    keeping state (persistState config state)
    return (.applied package.releaseVersion, state)

/-- The current release, not acknowledged under this identifier yet: acknowledge it again. -/
def confirmRelease (registration : RegistrationMetadata) (state : LocalAgentState) (session : Session)
    (latest : LatestReleaseResponse) : SyncM (SyncAction × LocalAgentState) := do
  let currentVersion ← okOr state.currentReleaseVersion (state, ⟨"missing current release version for ack", []⟩)
  let _ ← keeping state (reportReleaseStatus config registration session latest.releaseId "success" currentVersion
    (some "node-agent confirmed active release state"))
  let state := { state with lastAcknowledgedReleaseId := some latest.releaseId }
  keeping state (persistState config state)
  return (.acked currentVersion, state)

/-- `sync_latest_release`. -/
def syncLatestRelease (registration : RegistrationMetadata) (state : LocalAgentState) (session : Session) :
    SyncM (SyncAction × LocalAgentState) := do
  match ← caught (getLatestRelease config registration session) with
  | .error e => if isNotFound e then return (.noRelease, state) else throw (state, e)
  | .ok latest =>
    if state.currentReleaseVersion ≠ some latest.releaseVersion then
      syncNewRelease config registration state session latest
    else if state.lastAcknowledgedReleaseId ≠ some latest.releaseId then
      confirmRelease config registration state session latest
    else return (.idle, state)

/-! ## Operations -/

/-- `run_node_operation`. -/
def runNodeOperation (registration : RegistrationMetadata) (operation : PendingOperationResponse) : AgentM String := do
  let currentUser := (← ask (.outside .processUser)).getD "unknown"
  ensure (Text.isEmpty (Text.trim operation.runAsUser) || operation.runAsUser == currentUser)
    ⟨"operation " ++ operation.templateName ++ " requires run_as_user=" ++ operation.runAsUser ++ ", current user=" ++
      currentUser, []⟩
  let outcome ← ask (.outside (.shell (Text.trim operation.renderedCommand)
    [("PINGORAHUB_NODE_ID", Uuid.hyphenated registration.nodeId), ("PINGORAHUB_NODE_CODE", registration.nodeCode),
      ("PINGORAHUB_NODE_HOSTNAME", registration.hostname), ("PINGORAHUB_NODE_PRIVATE_IP", registration.privateIp),
      ("PINGORAHUB_OPERATION_ID", Uuid.hyphenated operation.operationId),
      ("PINGORAHUB_OPERATION_TEMPLATE_ID", Uuid.hyphenated operation.templateId),
      ("PINGORAHUB_OPERATION_TEMPLATE_NAME", operation.templateName),
      ("PINGORAHUB_OPERATION_TYPE", operation.operationType)] (max operation.timeoutSeconds 1)))
  let stdout ← attempt (commandResult "node operation"
    ("operation " ++ operation.templateName ++ " timed out after " ++ toString operation.timeoutSeconds ++ "s")
    "failed to execute node operation command" outcome)
  return if Text.isEmpty stdout then "operation " ++ operation.templateName ++ " completed" else stdout

/-- `classify_operation_error`. -/
def classifyOperationError (e : Failure) : String :=
  if Text.contains e.message "timed out" then "timeout" else "failed"

/-- `sync_pending_operations`, followed for a number of turns. -/
def syncPendingOperations (registration : RegistrationMetadata) (session : Session) : Nat → Nat → AgentM Nat
  | 0, executed => pure executed
  | turns + 1, executed => do
    let answer ← ask (.outside (.pendingOperation session.accessToken registration.nodeId))
    match parseResponse "GET" (config.hubBaseUrl ++ "/api/node/operations/pending?node_id=" ++
        Uuid.hyphenated registration.nodeId) answer with
    | .error e => if isNotFound e then pure executed else throw e
    | .ok operation => do
      let result ← caught (runNodeOperation registration operation)
      let finishedAt ← ask (.outside .utcNow)
      let answer ← ask (.outside (.operationResult session.accessToken operation.operationId (match result with
        | .ok stdout =>
          { nodeId := registration.nodeId, execStatus := "success", exitCode := 0, stdout := stdout, stderr := ""
            finishedAt := finishedAt }
        | .error e =>
          { nodeId := registration.nodeId, execStatus := classifyOperationError e, exitCode := 1, stdout := ""
            stderr := truncateMessage e.alternate, finishedAt := finishedAt })))
      let _ ← attempt (parseResponse "POST" (config.hubBaseUrl ++ "/api/node/operations/" ++
        Uuid.hyphenated operation.operationId ++ "/result") answer)
      syncPendingOperations registration session turns (executed + 1)

/-! ## The main loop -/

/-- What the main loop carries from turn to turn. -/
structure Running where
  registration : RegistrationMetadata
  state : LocalAgentState
  session : Session

/-- Run `x`; if the hub refuses the token, take a new one and run `x` once more. -/
def withFreshToken {α : Type} (registration : RegistrationMetadata) (session : Session)
    (x : RegistrationMetadata → Session → AgentM α) : AgentM (α × Session × RegistrationMetadata) := do
  match ← caught (x registration session) with
  | .ok a => return (a, session, registration)
  | .error e =>
    if isAuthError e then
      let (session, registration) ← refreshSession config registration
      return (← x registration session, session, registration)
    else throw e

/-- The release sync of a turn: a refused token is renewed and the sync run once more, other errors are logged. -/
def syncTurn (run : Running) : AgentM Running := do
  match ← caught (syncLatestRelease config run.registration run.state run.session) with
  | .ok (_, state) => return { run with state := state }
  | .error (state, e) =>
    if isAuthError e then
      let (session, registration) ← refreshSession config run.registration
      let (_, state) ← mapError Prod.snd (syncLatestRelease config registration state session)
      return { registration := registration, state := state, session := session }
    else return { run with state := state }

/-- The operations of a turn: a refused token is renewed and the operations run once more, other errors are logged. -/
def operationsTurn (turns : Nat) (run : Running) : AgentM Running := do
  match ← caught (syncPendingOperations config run.registration run.session turns 0) with
  | .ok _ => return run
  | .error e =>
    if isAuthError e then
      let (session, registration) ← refreshSession config run.registration
      let _ ← syncPendingOperations config registration session turns 0
      return { run with registration := registration, session := session }
    else return run

/-- A new token if the old one is about to expire. -/
def refreshTurn (run : Running) : AgentM Running := do
  let now ← ask (.outside .utcNow)
  if run.session.shouldRefresh now then
    let (session, registration) ← refreshSession config run.registration
    return { run with registration := registration, session := session }
  else return run

/-- One turn of the main loop, and whether `ctrl_c` ends it. -/
def loopTurn (turns : Nat) (run : Running) : AgentM (Running × Bool) := do
  let run ← refreshTurn config run
  let (response, session, registration) ← withFreshToken config run.registration run.session fun registration session =>
    heartbeat config registration run.state session
  let now ← ask (.outside .utcNow)
  let state := { run.state with lastHeartbeatAt := some now }
  persistState config state
  let run ← syncTurn config { registration := registration, state := state, session := session }
  let run ← operationsTurn config turns run
  let stop ← ask (.outside (.sleepOrStop (max response.nextHeartbeatAfterSeconds config.heartbeatIntervalSeconds)))
  return (run, stop)

/-- The loop of `main`, followed for a number of turns. -/
def mainLoop (turns : Nat) : Nat → Running → AgentM Unit
  | 0, _ => pure ()
  | n + 1, run => do
    let (run, stop) ← loopTurn config turns run
    if stop then pure () else mainLoop turns n run

/-- `main`, its loops followed for a number of turns. -/
def main (turns : Nat) : AgentM Unit := do
  ensureDirs config
  let registration ← loadRegistration config
  let state ← loadState config
  let (session, registration) ← refreshSession config registration
  mainLoop config turns turns { registration := registration, state := state, session := session }

end Agent

end PingoraMesh.NodeAgent
