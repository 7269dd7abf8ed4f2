import PingoraMesh.Hub.Records
import PingoraMesh.Hub.Responses
import PingoraMesh.Lib.Prog
import PingoraMesh.Lib.Text
import PingoraMesh.Release.Version

/-!
# The node agent: configuration and apply pipeline

`AgentConfig.fromEnv` reads the environment of the process. `OutsideCall` is what the agent asks of its surroundings:
the hub over HTTP, the clock, the shell, the health check and the disk, any of which may fail in any way.
`applyReleasePackage` runs the apply command and the health check.

* `applyReleasePackage_ok`: an apply that ends well ran the apply command to success, or has none and may do without,
  and passed the health check if there is one (`Applied`).
-/

namespace PingoraMesh.NodeAgent

open Calls Calls.Fallible

/-! ## Configuration -/

/-- `AgentConfig`. -/
structure AgentConfig where
  hubBaseUrl : String
  registrationPath : String
  statePath : String
  dataDir : String
  pingoraVersion : String
  agentVersion : String
  heartbeatIntervalSeconds : Nat
  applyCommand : Option String
  allowNoopApply : Bool
  applyTimeoutSeconds : Nat
  healthcheckUrl : Option String
  healthcheckExpectedStatus : Option Nat
  healthcheckTimeoutSeconds : Nat
  healthcheckRetries : Nat
  healthcheckIntervalSeconds : Nat
  deriving DecidableEq, Repr

/-- The environment variables of the process. -/
abbrev Vars := String → Option String

/-- `PathBuf::join`. -/
def joinPath (base path : String) : String :=
  if Text.startsWith path "/" then path
  else if Text.isEmpty base || Text.endsWith base "/" then base ++ path
  else base ++ "/" ++ path

/-- `Path::parent`, as it is used for the directory of a file. -/
def parentPath (path : String) : String :=
  let dir := Text.trimEndMatches '/' (.ofList (path.toList.reverse.dropWhile (· != '/')).reverse)
  if Text.isEmpty dir && Text.startsWith path "/" then "/" else dir

/-- `optional_env`. -/
def optionalEnv (vars : Vars) (name : String) : Option String :=
  ((vars name).map Text.trim).filter fun value => !Text.isEmpty value

/-- `parse_env_u64` and `parse_env_u32`, by the bound of the type. -/
def parseEnv (bound : Nat) (vars : Vars) (name : String) (defaultValue : Nat) : Nat :=
  ((vars name).bind (Text.parseUnsigned bound)).getD defaultValue

/-- `parse_env_bool`. -/
def parseEnvBool (vars : Vars) (name : String) : Bool :=
  ((vars name).map fun value => ["1", "true", "TRUE", "yes", "YES"].contains value).getD false

namespace AgentConfig

/-- `AgentConfig::from_env`. The package version is the one of `Cargo.toml`. -/
def fromEnv (vars : Vars) : AgentConfig :=
  let dataDir := (vars "PINGORAHUB_NODE_AGENT_DATA_DIR").getD "/var/lib/pingorahub/node-agent"
  { hubBaseUrl := Text.trimEndMatches '/' ((vars "PINGORAHUB_HUB_BASE_URL").getD "http://127.0.0.1:3000")
    registrationPath :=
      (vars "PINGORAHUB_NODE_REGISTRATION_PATH").getD "/etc/pingorahub/manual-node-registration.json"
    statePath := (vars "PINGORAHUB_NODE_AGENT_STATE_PATH").getD (joinPath dataDir "state.json")
    dataDir := dataDir
    pingoraVersion := (vars "PINGORAHUB_NODE_AGENT_PINGORA_VERSION").getD "manual-pending"
    agentVersion := (vars "PINGORAHUB_NODE_AGENT_VERSION").getD "0.1.0"
    heartbeatIntervalSeconds := parseEnv (2 ^ 64) vars "PINGORAHUB_NODE_AGENT_MIN_HEARTBEAT_SECONDS" 15
    applyCommand := optionalEnv vars "PINGORAHUB_NODE_APPLY_COMMAND"
    allowNoopApply := parseEnvBool vars "PINGORAHUB_NODE_ALLOW_NOOP_APPLY"
    applyTimeoutSeconds := parseEnv (2 ^ 64) vars "PINGORAHUB_NODE_APPLY_TIMEOUT_SECONDS" 30
    healthcheckUrl := optionalEnv vars "PINGORAHUB_NODE_APPLY_HEALTHCHECK_URL"
    healthcheckExpectedStatus :=
      (vars "PINGORAHUB_NODE_APPLY_HEALTHCHECK_EXPECT_STATUS").bind (Text.parseUnsigned (2 ^ 16))
    healthcheckTimeoutSeconds := parseEnv (2 ^ 64) vars "PINGORAHUB_NODE_APPLY_HEALTHCHECK_TIMEOUT_SECONDS" 10
    healthcheckRetries := parseEnv (2 ^ 32) vars "PINGORAHUB_NODE_APPLY_HEALTHCHECK_RETRIES" 3
    healthcheckIntervalSeconds := parseEnv (2 ^ 64) vars "PINGORAHUB_NODE_APPLY_HEALTHCHECK_INTERVAL_SECONDS" 2 }

/-- `releases_dir`. -/
def releasesDir (config : AgentConfig) : String := joinPath config.dataDir "releases"

/-- `current_release_version_path`. -/
def currentReleaseVersionPath (config : AgentConfig) : String := joinPath config.dataDir "current-release-version"

/-- `current_manifest_path`. -/
def currentManifestPath (config : AgentConfig) : String := joinPath config.dataDir "current-manifest.json"

/-- `current_rendered_config_path`. -/
def currentRenderedConfigPath (config : AgentConfig) : String := joinPath config.dataDir "current-rendered-config.json"

/-- `current_certificates_path`. -/
def currentCertificatesPath (config : AgentConfig) : String := joinPath config.dataDir "current-certificates.json"

end AgentConfig

/-- A command that comes from the environment has something to run. -/
theorem isEmpty_trim_applyCommand {vars : Vars} {command : String}
    (h : (AgentConfig.fromEnv vars).applyCommand = some command) : Text.isEmpty (Text.trim command) = false := by
  obtain ⟨hmap, hne⟩ := Option.filter_eq_some_iff.1 h
  obtain ⟨raw, -, rfl⟩ := Option.map_eq_some_iff.1 hmap
  rw [Bool.not_eq_true'] at hne
  exact (Text.visible_trim hne).isEmpty_trim

/-! ## Records of the agent -/

/-- `RegistrationMetadata`. -/
structure RegistrationMetadata where
  nodeId : Uuid
  nodeCode : String
  hostname : String
  privateIp : String
  refreshToken : String
  expiresAt : String
  registrationMode : String
  deriving DecidableEq, Repr

/-- `LocalAgentState`. -/
structure LocalAgentState where
  currentReleaseId : Option Uuid := none
  currentReleaseVersion : Option String := none
  currentConfigHash : Option String := none
  siteCount : Nat := 0
  lastAcknowledgedReleaseId : Option Uuid := none
  lastHeartbeatAt : Option DateTime := none
  deriving DecidableEq, Repr

/-- `Session`. -/
structure Session where
  accessToken : String
  expiresAt : DateTime
  deriving DecidableEq, Repr

/-- `ReleaseArtifacts`. -/
structure ReleaseArtifacts where
  releaseDir : String
  packagePath : String
  manifestPath : String
  renderedConfigPath : String
  certificatesPath : String
  deriving DecidableEq, Repr

/-- `ConfigPackageResponse`, as the agent decodes it. -/
structure ConfigPackageResponse where
  releaseId : Uuid
  releaseVersion : String
  manifest : Value
  renderedConfig : Value
  certificates : Value
  signature : String
  deriving Repr

/-! ## Errors -/

/-- `anyhow::Error`: the outermost message and what caused it. -/
structure Failure where
  message : String
  causes : List String := []
  deriving DecidableEq, Repr

/-- `Context::context`. -/
def Failure.context (message : String) (e : Failure) : Failure := ⟨message, e.message :: e.causes⟩

/-- The alternate form, with all the causes. -/
def Failure.alternate (e : Failure) : String := Text.join ": " (e.message :: e.causes)

/-- `is_not_found`. -/
def isNotFound (e : Failure) : Bool := Text.contains e.message "http 404:"

/-- `is_auth_error`. -/
def isAuthError (e : Failure) : Bool := Text.contains e.message "http 401:"

/-- `truncate_message`. -/
def truncateMessage (raw : String) : String :=
  let normalized := Text.join " " (Text.splitWhitespace raw)
  if normalized.toList.length ≤ 400 then normalized else .ofList (normalized.toList.take 400) ++ "..."

/-! ## The surroundings -/

/-- What becomes of an HTTP request: it is not sent, its answer breaks off, or it has a status and a body, which may be
read as an answer. -/
inductive HttpAnswer (α : Type) where
  | sendFailed (cause : String)
  | bodyFailed (cause : String)
  | answered (status : Nat) (body : String) (data : Except String α)

/-- `get_json` and `post_json` down to `parse_response`. -/
def parseResponse {α : Type} (verb url : String) : HttpAnswer α → Except Failure α
  | .sendFailed cause => .error ⟨"failed " ++ verb ++ " " ++ url, [cause]⟩
  | .bodyFailed cause => .error ⟨"failed to read response body", [cause]⟩
  | .answered status body data =>
    if 200 ≤ status ∧ status < 300 then data.mapError fun cause => ⟨"failed to decode api response envelope", [cause]⟩
    else .error ⟨"http " ++ toString status ++ ": " ++ body, []⟩

/-- What becomes of a shell command: it runs out of time, it does not start, or it ends with an exit code, or without
one if a signal ends it. -/
inductive CommandOutcome where
  | timedOut
  | notStarted (cause : String)
  | exited (code : Option Int) (stdout stderr : String)
  deriving DecidableEq, Repr

/-- `ExitStatus::success`. -/
def CommandOutcome.success : CommandOutcome → Bool
  | .exited (some 0) _ _ => true
  | _ => false

/-- The files of the agent. -/
inductive AgentFile where
  | registration
  | state
  /-- `package.json`, `manifest.json`, `rendered-config.json` and `certificates.json` of a staged release. -/
  | stagedPackage (version : String)
  | stagedManifest (version : String)
  | stagedRenderedConfig (version : String)
  | stagedCertificates (version : String)
  /-- `current-release-version` and the active copies. -/
  | currentReleaseVersion
  | currentManifest
  | currentRenderedConfig
  | currentCertificates
  deriving DecidableEq, Repr

/-- What becomes of a write: it is done, or it breaks off before the file is touched or after. -/
inductive WriteOutcome where
  | done
  | untouched (cause : String)
  | torn (cause : String)
  deriving DecidableEq, Repr

/-- What the agent asks of its surroundings. -/
inductive OutsideCall where
  /-- `POST /api/node/auth/refresh`. -/
  | refresh (request : NodeRefreshRequest)
  /-- `POST /api/node/heartbeat`. -/
  | heartbeat (token : String) (request : NodeHeartbeatRequest)
  /-- `GET /api/node/config/releases/latest`. -/
  | latestRelease (token : String) (nodeId : Uuid)
  /-- `GET` of a download URL. -/
  | configPackage (token : String) (downloadUrl : String)
  /-- `POST /api/node/releases/{release_id}/ack`. -/
  | ackRelease (token : String) (releaseId : Uuid) (request : ReleaseAckRequest)
  /-- `GET /api/node/operations/pending`. -/
  | pendingOperation (token : String) (nodeId : Uuid)
  /-- `POST /api/node/operations/{operation_id}/result`. -/
  | operationResult (token : String) (operationId : Uuid) (request : OperationResultRequest)
  /-- `Utc::now`. -/
  | utcNow
  /-- `sh -lc` with variables of its own and a time limit in seconds. -/
  | shell (command : String) (env : List (String × String)) (timeoutSeconds : Nat)
  /-- A `GET` of the health check. -/
  | probe (url : String) (timeoutSeconds : Nat)
  | sleep (seconds : Nat)
  /-- `USER`, or else `LOGNAME`. -/
  | processUser
  /-- Whether `ctrl_c` comes before the time is over. -/
  | sleepOrStop (seconds : Nat)
  /-- Whether a directory can be made. -/
  | createDirAll (dir : String)
  /-- Whether a file can be read. -/
  | openRead (file : AgentFile)
  /-- What becomes of a write. -/
  | openWrite (file : AgentFile)

/-- The answer to each call. -/
@[reducible] def OutsideCall.Ans : OutsideCall → Type
  | .refresh _ => HttpAnswer NodeTokensResponse
  | .heartbeat _ _ => HttpAnswer NodeHeartbeatResponse
  | .latestRelease _ _ => HttpAnswer LatestReleaseResponse
  | .configPackage _ _ => HttpAnswer ConfigPackageResponse
  | .ackRelease _ _ _ => HttpAnswer ReleaseAckResponse
  | .pendingOperation _ _ => HttpAnswer PendingOperationResponse
  | .operationResult _ _ _ => HttpAnswer OperationResultResponse
  | .utcNow => DateTime
  | .shell _ _ _ => CommandOutcome
  | .probe _ _ => Except String Nat
  | .sleep _ => Unit
  | .processUser => Option String
  | .sleepOrStop _ => Bool
  | .createDirAll _ | .openRead _ => Option String
  | .openWrite _ => WriteOutcome

abbrev OutsideSig : Sig := ⟨OutsideCall, OutsideCall.Ans⟩

/-- A program of the agent that does not touch its files. -/
abbrev OutsideM := Fallible OutsideSig Failure

/-- One call of the surroundings. -/
def outside (c : OutsideCall) : OutsideM c.Ans := Fallible.call (S := OutsideSig) c

/-! ## The apply pipeline -/

section Apply

variable (config : AgentConfig)

/-- The variables of the apply command. -/
def applyEnv (registration : RegistrationMetadata) (package : ConfigPackageResponse) (artifacts : ReleaseArtifacts)
    (previousVersion : Option String) : List (String × String) :=
  [("PINGORAHUB_NODE_ID", Uuid.hyphenated registration.nodeId), ("PINGORAHUB_NODE_CODE", registration.nodeCode),
    ("PINGORAHUB_NODE_HOSTNAME", registration.hostname), ("PINGORAHUB_NODE_PRIVATE_IP", registration.privateIp),
    ("PINGORAHUB_DATA_DIR", config.dataDir), ("PINGORAHUB_RELEASE_ID", Uuid.hyphenated package.releaseId),
    ("PINGORAHUB_RELEASE_VERSION", package.releaseVersion), ("PINGORAHUB_RELEASE_DIR", artifacts.releaseDir),
    ("PINGORAHUB_RELEASE_PACKAGE_PATH", artifacts.packagePath),
    ("PINGORAHUB_RELEASE_MANIFEST_PATH", artifacts.manifestPath),
    ("PINGORAHUB_RELEASE_RENDERED_CONFIG_PATH", artifacts.renderedConfigPath),
    ("PINGORAHUB_RELEASE_CERTIFICATES_PATH", artifacts.certificatesPath)] ++
  (previousVersion.map fun version => ("PINGORAHUB_PREVIOUS_RELEASE_VERSION", version)).toList

/-- What is said of an exit code. -/
def exitText (code : Option Int) : String := (code.map toString).getD "signal"

/-- What is said of an output. -/
def outputText (s : String) : String := if Text.isEmpty s then "-" else s

/-- The end of a shell command, with `what` it was: the captured output or an error. -/
def commandResult (what timedOut failed : String) : CommandOutcome → Except Failure String
  | .timedOut => .error ⟨timedOut, ["deadline has elapsed"]⟩
  | .notStarted cause => .error ⟨failed, [cause]⟩
  | .exited code stdout stderr =>
    if CommandOutcome.success (.exited code stdout stderr) then .ok (truncateMessage stdout)
    else .error ⟨what ++ " exited with " ++ exitText code ++ "; stdout=" ++ outputText (truncateMessage stdout) ++
      "; stderr=" ++ outputText (truncateMessage stderr), []⟩

/-- Only a command that ended well has an output. -/
theorem commandResult_success {what timedOut failed out : String} {outcome : CommandOutcome}
    (h : commandResult what timedOut failed outcome = .ok out) : outcome.success = true := by
  cases outcome with
  | timedOut => cases h
  | notStarted cause => cases h
  | exited code stdout stderr =>
    rw [commandResult] at h
    split at h
    · assumption
    · cases h

/-- `run_apply_command`. -/
def runApplyCommand (registration : RegistrationMetadata) (package : ConfigPackageResponse)
    (artifacts : ReleaseArtifacts) (previousVersion : Option String) (command : String) : OutsideM String :=
  let trimmedCommand := Text.trim command
  if Text.isEmpty trimmedCommand then pure "apply command is empty; skipped external apply step"
  else do
    let outcome ← outside (.shell trimmedCommand (applyEnv config registration package artifacts previousVersion)
      config.applyTimeoutSeconds)
    let stdout ← attempt (commandResult "apply command"
      ("apply command timed out after " ++ toString config.applyTimeoutSeconds ++ "s") "failed to execute apply command"
      outcome)
    return if Text.isEmpty stdout then "apply command completed" else "apply command completed: " ++ stdout

/-- `healthcheck_status_matches`. -/
def healthcheckStatusMatches (status : Nat) : Option Nat → Bool
  | some expected => status = expected
  | none => (200 ≤ status && status < 300) || (300 ≤ status && status < 400)

/-- The attempts from `attempt` on of `run_healthcheck`, of which `left` are left. -/
def healthcheckLoop (url : String) : Nat → Nat → String → OutsideM String
  | 0, attempt, lastError =>
    throw ⟨"health check " ++ url ++ " failed after " ++ toString (attempt - 1) ++ " attempt(s): " ++ lastError, []⟩
  | left + 1, attempt, _ => do
    let answer ← outside (.probe url config.healthcheckTimeoutSeconds)
    match answer with
    | .ok status =>
      if healthcheckStatusMatches status config.healthcheckExpectedStatus then
        return "health check passed on attempt " ++ toString attempt ++ " with status " ++ toString status
      else do
        let _ ← onlyIf (0 < left) (outside (.sleep config.healthcheckIntervalSeconds))
        healthcheckLoop url left (attempt + 1)
          ("unexpected status " ++ toString status ++ " on attempt " ++ toString attempt)
    | .error cause => do
      let _ ← onlyIf (0 < left) (outside (.sleep config.healthcheckIntervalSeconds))
      healthcheckLoop url left (attempt + 1)
        ("health check attempt " ++ toString attempt ++ " failed: " ++ cause)

/-- `run_healthcheck`. -/
def runHealthcheck : OutsideM String := do
  let url ← okOr config.healthcheckUrl ⟨"health check url is not configured", []⟩
  healthcheckLoop config url (max config.healthcheckRetries 1) 1 ""

/-- `ensure_apply_mode`. -/
def ensureApplyMode : Except Failure Unit :=
  if config.applyCommand.isNone && !config.allowNoopApply then
    .error ⟨"PINGORAHUB_NODE_APPLY_COMMAND is required unless PINGORAHUB_NODE_ALLOW_NOOP_APPLY=true", []⟩
  else .ok ()

/-- The apply command, or the note that there is none. -/
def applyCommandNote (registration : RegistrationMetadata) (package : ConfigPackageResponse)
    (artifacts : ReleaseArtifacts) (state : LocalAgentState) : OutsideM String :=
  match config.applyCommand with
  | some command => runApplyCommand config registration package artifacts state.currentReleaseVersion command
  | none => pure "no apply command configured; noop apply explicitly allowed"

/-- `apply_release_package`. -/
def applyReleasePackage (registration : RegistrationMetadata) (package : ConfigPackageResponse)
    (artifacts : ReleaseArtifacts) (state : LocalAgentState) : OutsideM String := do
  attempt (ensureApplyMode config)
  let commandMessage ← applyCommandNote config registration package artifacts state
  let healthMessage ←
    if config.healthcheckUrl.isSome then runHealthcheck config else pure "no health check configured"
  return Text.join "; " ["artifacts staged at " ++ artifacts.releaseDir, commandMessage, healthMessage]

end Apply

/-! ## What it takes to apply a package -/

section Applied

variable {η : Type} (net : Handler OutsideSig η) (config : AgentConfig) (registration : RegistrationMetadata)
  (package : ConfigPackageResponse) (artifacts : ReleaseArtifacts) (state : LocalAgentState)

/-- Among the calls, the apply command ended well; or there is none and the agent may do without. -/
def CommandDone (calls : List (OutsideCall × η)) : Prop :=
  (∃ command ∈ config.applyCommand, ∃ s, (OutsideCall.shell (Text.trim command)
    (applyEnv config registration package artifacts state.currentReleaseVersion) config.applyTimeoutSeconds, s) ∈
      calls ∧
    CommandOutcome.success (net (.shell (Text.trim command)
      (applyEnv config registration package artifacts state.currentReleaseVersion) config.applyTimeoutSeconds) s).1) ∨
  config.applyCommand = none ∧ config.allowNoopApply = true

/-- Among the calls, the health check at `url` answered as expected. -/
def HealthPassed (url : String) (calls : List (OutsideCall × η)) : Prop :=
  ∃ s status, (OutsideCall.probe url config.healthcheckTimeoutSeconds, s) ∈ calls ∧
    (net (.probe url config.healthcheckTimeoutSeconds) s).1 = .ok status ∧
    healthcheckStatusMatches status config.healthcheckExpectedStatus

/-- `apply_release_package` ran to `Ok` from a state of the surroundings: the apply command ended well or may be left
out, and the health check passed if one is configured. -/
structure Applied (s : η) (message : String) : Prop where
  ok : (Fallible.run net (applyReleasePackage config registration package artifacts state) s).1 = .ok message
  command : CommandDone net config registration package artifacts state
    (Prog.log net (ExceptT.run (applyReleasePackage config registration package artifacts state)) s)
  health : ∀ url ∈ config.healthcheckUrl, HealthPassed net config url
    (Prog.log net (ExceptT.run (applyReleasePackage config registration package artifacts state)) s)

variable {net config registration package artifacts state}

/-- The surroundings answer, and the calls are written down. -/
def recorded (net : Handler OutsideSig η) : Spec OutsideSig (η × List (OutsideCall × η)) :=
  .alone (Prog.recording net) (fun _ _ => True) fun _ => True

theorem CommandDone.mono {l l' : List (OutsideCall × η)} (hl : l ⊆ l')
    (h : CommandDone net config registration package artifacts state l) :
    CommandDone net config registration package artifacts state l' :=
  h.imp_left fun ⟨command, hc, s, hs, ho⟩ => ⟨command, hc, s, hl hs, ho⟩

theorem runApplyCommand_done {command : String} (hc : config.applyCommand = some command)
    (hne : Text.isEmpty (Text.trim command) = false) (s : η) (l : List (OutsideCall × η)) :
    wp (recorded net) (runApplyCommand config registration package artifacts state.currentReleaseVersion command)
      (fun _ g => CommandDone net config registration package artifacts state g.2) (fun _ _ => True) (s, l) := by
  simp only [runApplyCommand, hne, Bool.false_eq_true, if_false, wp_bind, outside, recorded, wp_call_alone, wp_attempt,
    wp_pure, true_and, forall_const]
  refine ⟨fun out hout => .inl ⟨command, hc, s, ?_, ?_⟩, fun _ _ => trivial⟩
  · exact List.mem_append_right _ List.mem_cons_self
  · exact commandResult_success hout

theorem healthcheckLoop_passes (url : String) (left n : Nat) (lastError : String) (s : η) (l : List (OutsideCall × η)) :
    wp (recorded net) (healthcheckLoop config url left n lastError)
      (fun _ g => l ⊆ g.2 ∧ HealthPassed net config url g.2) (fun _ _ => True) (s, l) := by
  induction left generalizing n lastError s l with
  | zero => exact (wp_throw _).2 trivial
  | succ left ih =>
    -- a failed attempt: the calls so far are among the calls of the attempts that follow
    have hnext : ∀ lastError', wp (recorded net)
        (onlyIf (0 < left) (outside (.sleep config.healthcheckIntervalSeconds)) >>= fun _ =>
          healthcheckLoop config url left (n + 1) lastError')
        (fun _ g => l ⊆ g.2 ∧ HealthPassed net config url g.2) (fun _ _ => True)
        ((net (.probe url config.healthcheckTimeoutSeconds) s).2,
          l ++ [(.probe url config.healthcheckTimeoutSeconds, s)]) := by
      intro lastError'
      have hloop : ∀ s' l', l ⊆ l' → wp (recorded net) (healthcheckLoop config url left (n + 1) lastError')
          (fun _ g => l ⊆ g.2 ∧ HealthPassed net config url g.2) (fun _ _ => True) (s', l') := by
        intro s' l' hl
        exact wp_mono (fun _ _ h => ⟨List.Subset.trans hl h.1, h.2⟩) (fun _ _ _ => trivial)
          (ih (n + 1) lastError' s' l')
      simp only [wp_bind, wp_onlyIf, outside, recorded, wp_call_alone, true_and, forall_const]
      refine ⟨fun _ => hloop _ _ ?_, fun _ => hloop _ _ (List.subset_append_left _ _)⟩
      exact List.Subset.trans (List.subset_append_left _ _) (List.subset_append_left _ _)
    simp only [healthcheckLoop, wp_bind, outside, recorded, wp_call_alone, true_and, forall_const]
    cases hr : (net (.probe url config.healthcheckTimeoutSeconds) s).1 with
    | error cause =>
      simp only [Prog.recording, hr]
      exact hnext _
    | ok status =>
      simp only [Prog.recording, hr]
      split
      · rename_i hstatus
        refine (wp_pure _).2 ⟨List.subset_append_left _ _, s, status, ?_, hr, hstatus⟩
        exact List.mem_append_right _ List.mem_cons_self
      · exact hnext _

theorem applyCommandNote_done (hmode : ensureApplyMode config = .ok ())
    (hne : ∀ command ∈ config.applyCommand, Text.isEmpty (Text.trim command) = false) (s : η) :
    wp (recorded net) (applyCommandNote config registration package artifacts state)
      (fun _ g => CommandDone net config registration package artifacts state g.2) (fun _ _ => True) (s, []) := by
  unfold applyCommandNote
  split
  · rename_i command hc
    exact runApplyCommand_done hc (hne command hc) s []
  · rename_i hc
    refine (wp_pure _).2 (.inr ⟨hc, ?_⟩)
    unfold ensureApplyMode at hmode
    rw [hc] at hmode
    cases hn : config.allowNoopApply with
    | true => rfl
    | false =>
      rw [hn] at hmode
      cases hmode

/-- An apply that ends well did what it takes. -/
theorem applyReleasePackage_ok (hne : ∀ command ∈ config.applyCommand, Text.isEmpty (Text.trim command) = false) {s : η}
    {message : String}
    (h : (Fallible.run net (applyReleasePackage config registration package artifacts state) s).1 = .ok message) :
    Applied net config registration package artifacts state s message := by
  have hw : wp (recorded net) (applyReleasePackage config registration package artifacts state)
      (fun _ g => CommandDone net config registration package artifacts state g.2 ∧
        ∀ url ∈ config.healthcheckUrl, HealthPassed net config url g.2) (fun _ _ => True) (s, []) := by
    simp only [applyReleasePackage, wp_bind, wp_attempt]
    refine ⟨fun _ hmode => ?_, fun _ _ => trivial⟩
    refine wp_mono (fun _ g hg => ?_) (fun _ _ _ => trivial) (applyCommandNote_done hmode hne s)
    obtain ⟨s', l⟩ := g
    cases hurl : config.healthcheckUrl with
    | none => exact (wp_pure _).2 ⟨hg, fun _ e => by cases e⟩
    | some url =>
      simp only [Option.isSome_some, if_true, runHealthcheck, hurl, wp_bind, wp_okOr, Option.some.injEq, forall_eq',
        reduceCtorEq, false_implies, and_true, Option.mem_def]
      exact wp_mono (fun _ _ h => (wp_pure _).2 ⟨hg.mono h.1, h.2⟩) (fun _ _ _ => trivial)
        (healthcheckLoop_passes url _ _ _ s' l)
  have hrun := (Fallible.wp_run (fun _ _ _ _ => trivial) trivial hw).1
  unfold Fallible.run at h hrun
  rw [Prog.run_recording, h] at hrun
  exact ⟨h, hrun.1, hrun.2⟩

end Applied

end PingoraMesh.NodeAgent
