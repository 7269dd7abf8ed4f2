import PingoraMesh.Hub.Calls
import PingoraMesh.Lib.Text

/-!
# Nodes and operations

The requests of `HubService` on nodes, their tokens and heartbeats, and on operation templates and node operations, with
`crates/ops-orchestrator`.
-/

namespace PingoraMesh

open Calls Fallible

/-! ## Command templates -/

inductive OperationKind where
  | vipBind
  | vipUnbind
  | routeSwitch
  | serviceReload
  | customTemplate
  deriving DecidableEq, Repr

structure OperationTemplate where
  name : String
  kind : OperationKind
  commandTemplate : String
  allowedParams : List String
  timeoutSeconds : Nat
  deriving DecidableEq, Repr

inductive OperationValidationError where
  | unknownParam (key : String)
  | invalidValue (key : String)
  | missingValue (key : String)
  deriving DecidableEq, Repr

/-- `OperationValidationError::to_string`. -/
def OperationValidationError.text : OperationValidationError → String
  | .unknownParam key => "unknown parameter: " ++ key
  | .invalidValue key => "invalid parameter value for: " ++ key
  | .missingValue key => "missing placeholder value for: " ++ key

/-- `Number::to_string`. -/
def Number.text : Number → String
  | .posInt n => .ofList (Text.decimal n)
  | .negInt n => toString n
  | .float text => text

/-- The text of a parameter, if it has one. -/
def paramText : Value → Option String
  | .string v => some v
  | .number n => some n.text
  | .bool b => some (if b then "true" else "false")
  | _ => none

/-- The placeholder of a parameter: its name between double braces. -/
def placeholder (key : String) : String := "\x7b\x7b" ++ key ++ "\x7d\x7d"

namespace OperationTemplate

/-- One turn of the loop of `render_command`. -/
def renderParam (params : List (String × Value)) (rendered key : String) : Except OperationValidationError String :=
  if Text.contains rendered (placeholder key) then
    match params.lookup key with
    | none => .error (.missingValue key)
    | some value =>
      match paramText value with
      | none => .error (.invalidValue key)
      | some text => .ok (Text.replace rendered (placeholder key) text)
  else .ok rendered

/-- `OperationTemplate::render_command`. -/
def renderCommand (t : OperationTemplate) (params : List (String × Value)) : Except OperationValidationError String :=
  match params.find? fun param => !t.allowedParams.contains param.1 with
  | some param => .error (.unknownParam param.1)
  | none => t.allowedParams.foldlM (renderParam params) t.commandTemplate

end OperationTemplate

/-! ## Pure parts -/

/-- `hash_bootstrap_token`, also `hash_session_token`. -/
def hashToken (p : Platform) (raw : String) : String := p.sha256Hex raw

/-- `normalize_operation_template_name`. -/
def normalizeOperationTemplateName (p : Platform) (raw : String) : Except AppError String :=
  let name := p.toLowercase (Text.trim raw)
  if Text.isEmpty name then .error (.badRequest "operation template name is required") else .ok name

/-- `normalize_operation_type`. -/
def normalizeOperationType (p : Platform) (raw : String) : Except AppError String :=
  let type := p.toLowercase (Text.trim raw)
  if type ∈ ["vip_bind", "vip_unbind", "route_switch", "service_reload", "custom_template"] then .ok type
  else .error (.badRequest
    "operation_type must be one of vip_bind, vip_unbind, route_switch, service_reload, custom_template")

/-- `normalize_allowed_params`. -/
def normalizeAllowedParams (raw : List String) : Except AppError (List String) :=
  let params := (((raw.map Text.trim).filter fun item => !Text.isEmpty item).insertionSort (· ≤ ·)).dedup
  if params.length > 32 then .error (.badRequest "allowed_params is too large") else .ok params

/-- `normalize_operation_run_as_user`. -/
def normalizeOperationRunAsUser (raw : String) : String :=
  if Text.isEmpty (Text.trim raw) then "root" else Text.trim raw

/-- `normalize_operation_input_params`. -/
def normalizeOperationInputParams : Value → Except AppError (List (String × Value))
  | .object map => .ok map
  | _ => .error (.badRequest "input_params must be a JSON object")

/-- `normalize_operation_input_array`. -/
def normalizeOperationInputArray (raw : Value) : List String := (raw.asArray.getD []).filterMap Value.asStr

/-- `normalize_operation_exec_status`. -/
def normalizeOperationExecStatus (p : Platform) (raw : String) : Except AppError String :=
  let status := p.toLowercase (Text.trim raw)
  if status ∈ ["success", "failed", "timeout", "cancelled"] then .ok status
  else .error (.badRequest "exec_status must be one of success, failed, timeout, cancelled")

/-- `truncate_log_output`. -/
def truncateLogOutput (raw : String) : String :=
  if raw.toList.length ≤ 4000 then raw else .ofList (raw.toList.take 4000) ++ "..."

/-- The kind that `build_operation_template` reads. -/
def operationKind : String → Option OperationKind
  | "vip_bind" => some .vipBind
  | "vip_unbind" => some .vipUnbind
  | "route_switch" => some .routeSwitch
  | "service_reload" => some .serviceReload
  | "custom_template" => some .customTemplate
  | _ => none

/-- `build_operation_template`. -/
def buildOperationTemplate (record : OperationTemplateRecord) : Except AppError OperationTemplate :=
  match operationKind record.operationType with
  | none => .error (.internal ("unsupported operation type " ++ record.operationType))
  | some kind => .ok {
      name := record.name
      kind := kind
      commandTemplate := record.commandTemplate
      allowedParams := normalizeOperationInputArray record.allowedParams
      timeoutSeconds := max record.timeoutSeconds 1 }

/-- Render a stored template; the error becomes a bad request. -/
def renderTemplate (record : OperationTemplateRecord) (params : List (String × Value)) :
    Except AppError (OperationTemplate × String) := do
  let template ← buildOperationTemplate record
  match template.renderCommand params with
  | .ok command => return (template, command)
  | .error e => throw (.badRequest e.text)

/-- `operation_template_overview`. -/
def operationTemplateOverview (t : OperationTemplateRecord) : OperationTemplateOverview :=
  { templateId := t.templateId
    name := t.name
    operationType := t.operationType
    commandTemplate := t.commandTemplate
    allowedParams := normalizeOperationInputArray t.allowedParams
    timeoutSeconds := t.timeoutSeconds
    runAsUser := t.runAsUser
    approvalRequired := t.approvalRequired
    createdAt := t.createdAt }

/-- `node_operation_overview`. -/
def nodeOperationOverview (o : NodeOperationRecord) (t : OperationTemplateRecord) : NodeOperationOverview :=
  { operationId := o.operationId
    nodeId := o.nodeId
    templateId := t.templateId
    templateName := t.name
    operationType := t.operationType
    inputParams := o.inputParams
    execStatus := o.execStatus
    requestedBy := o.requestedBy
    approvedBy := o.approvedBy
    exitCode := o.exitCode
    stdoutLog := o.stdoutLog
    stderrLog := o.stderrLog
    startedAt := o.startedAt
    finishedAt := o.finishedAt
    createdAt := o.createdAt }

/-- `claimed_node_operation_dispatch`. -/
def claimedNodeOperationDispatch (claimed : ClaimedNodeOperation) : Except AppError PendingOperationResponse := do
  let template ← buildOperationTemplate claimed.template
  let params ← normalizeOperationInputParams claimed.operation.inputParams
  match template.renderCommand params with
  | .error e => throw (.badRequest e.text)
  | .ok command => return {
      operationId := claimed.operation.operationId
      nodeId := claimed.operation.nodeId
      templateId := claimed.template.templateId
      templateName := claimed.template.name
      operationType := claimed.template.operationType
      renderedCommand := command
      timeoutSeconds := template.timeoutSeconds
      runAsUser := claimed.template.runAsUser
      createdAt := claimed.operation.createdAt }

namespace HubService

variable (p : Platform)

/-! ## Nodes -/

/-- `create_node`. -/
def createNode (request : CreateNodeRequest) : HubM CreateNodeResponse := do
  ensure (!(Text.isEmpty (Text.trim request.nodeCode) || Text.isEmpty (Text.trim request.name)))
    (.badRequest "node_code and name are required")
  let existing ← repo (.nodeIdByCode request.nodeCode)
  ensure existing.isNone (.conflict "node_code already exists")
  let nodeId ← repo .newUuid
  let token ← repo .newUuid
  let bootstrapToken := "boot-" ++ Uuid.hyphenated token
  repo (.saveNode {
    identity := {
      id := nodeId
      nodeCode := request.nodeCode
      name := request.name
      region := request.region
      idc := request.idc
      status := .pending }
    runtime := { activeConfigVersion := none, lastSeenAt := none, siteCount := 0, healthScore := 100 }
    labels := request.labels
    hostname := none
    publicIp := none
    privateIp := none
    bootstrapToken := some (hashToken p bootstrapToken)
    pingoraVersion := none
    agentVersion := none })
  return { nodeId := nodeId, bootstrapToken := bootstrapToken }

/-- `delete_node`. -/
def deleteNode (nodeId : Uuid) : HubM DeleteNodeResponse := do
  let node ← okOr (← repo (.node nodeId)) (.notFound "node not found")
  let guard ← repo (.nodeDeleteGuard nodeId)
  ensure guard.boundSiteCodes.isEmpty
    (.conflict ("node is still bound to site(s): " ++ Text.join ", " guard.boundSiteCodes))
  ensure (guard.failoverPolicyCount == 0)
    (.conflict ("node is still referenced by " ++ String.ofList (Text.decimal guard.failoverPolicyCount) ++
      " failover policy entries"))
  repo (.revokeTokens nodeId)
  repo (.deleteNode nodeId)
  return { nodeId := nodeId, nodeCode := node.identity.nodeCode, deleted := true }

/-- `issue_node_tokens`. -/
def issueNodeTokens (nodeId : Uuid) : HubM IssuedTokens := repo (.issueTokens nodeId (DateTime.hours 24))

/-- `register_node`. -/
def registerNode (request : NodeRegisterRequest) : HubM NodeTokensResponse := do
  let nodeId ← okOr (← repo (.nodeIdByCode request.nodeCode)) (.notFound "node_code not found")
  let node ← okOr (← repo (.node nodeId)) (.notFound "node not found")
  let expected ← okOr node.bootstrapToken (.unauthorized "bootstrap token already used or unavailable")
  ensure (expected == hashToken p request.bootstrapToken) (.unauthorized "invalid bootstrap token")
  let issued ← issueNodeTokens nodeId
  let now ← repo .utcNow
  repo (.saveNode { node with
    identity := { node.identity with status := .online }
    hostname := some request.hostname
    publicIp := request.publicIp
    privateIp := request.privateIp
    agentVersion := some request.agentVersion
    bootstrapToken := none
    runtime := { node.runtime with lastSeenAt := some now } })
  return {
    nodeId := nodeId
    accessToken := issued.accessToken
    refreshToken := issued.refreshToken
    expiresAt := issued.expiresAt }

/-- `refresh_node_token`. -/
def refreshNodeToken (request : NodeRefreshRequest) : HubM NodeTokensResponse := do
  let lease ← okOr (← repo (.refreshLease request.refreshToken)) (.unauthorized "invalid refresh token")
  ensure (lease.nodeId == request.nodeId) (.unauthorized "refresh token does not match node")
  let issued ← issueNodeTokens request.nodeId
  return {
    nodeId := request.nodeId
    accessToken := issued.accessToken
    refreshToken := issued.refreshToken
    expiresAt := issued.expiresAt }

/-- `authorize_node`. -/
def authorizeNode (nodeId : Uuid) (accessToken : String) : HubM Unit := do
  let lease ← okOr (← repo (.accessLease accessToken)) (.unauthorized "invalid access token")
  ensure (lease.nodeId == nodeId) (.unauthorized "access token does not match node")
  let now ← repo .utcNow
  ensure (!decide (lease.expiresAt < now)) (.unauthorized "access token expired")
  let node ← repo (.node nodeId)
  ensure node.isSome (.notFound "node not found")

/-- `node_heartbeat`. -/
def nodeHeartbeat (request : NodeHeartbeatRequest) : HubM NodeHeartbeatResponse := do
  let node ← repo (.node request.nodeId)
  ensure node.isSome (.notFound "node not found")
  let now ← repo .utcNow
  repo (.recordHeartbeat {
    nodeId := request.nodeId
    pingoraVersion := request.pingoraVersion
    agentVersion := request.agentVersion
    activeConfigVersion := request.activeConfigVersion
    siteCount := request.siteCount
    healthScore := request.healthScore
    reportedAt := now })
  let serverTime ← repo .utcNow
  return { serverTime := serverTime, nextHeartbeatAfterSeconds := 15 }

/-! ## Operation templates -/

/-- What `create_operation_template` and `update_operation_template` check of a request: the name, the type and the
command. -/
def checkTemplateRequest (request : CreateOperationTemplateRequest) : Except AppError (String × String × String) := do
  let name ← normalizeOperationTemplateName p request.name
  let operationType ← normalizeOperationType p request.operationType
  let command := Text.trim request.commandTemplate
  if Text.isEmpty command then throw (.badRequest "command_template is required")
  return (name, operationType, command)

/-- `create_operation_template`: a template of that name is overwritten. -/
def createOperationTemplate (request : CreateOperationTemplateRequest) : HubM OperationTemplateOverview := do
  let (name, operationType, command) ← attempt (checkTemplateRequest p request)
  let allowedParams ← attempt (normalizeAllowedParams request.allowedParams)
  let existing ← repo (.operationTemplateByName name)
  let templateId ← getOr (existing.map (·.templateId)) (repo .newUuid)
  let createdAt ← getOr (existing.map (·.createdAt)) (repo .utcNow)
  let template : OperationTemplateRecord := {
    templateId := templateId
    name := name
    operationType := operationType
    commandTemplate := command
    allowedParams := .strings allowedParams
    timeoutSeconds := max request.timeoutSeconds 1
    runAsUser := normalizeOperationRunAsUser request.runAsUser
    approvalRequired := request.approvalRequired
    createdAt := createdAt }
  repo (.saveOperationTemplate template)
  return operationTemplateOverview template

/-- `update_operation_template`. -/
def updateOperationTemplate (templateId : Uuid) (request : CreateOperationTemplateRequest) :
    HubM OperationTemplateOverview := do
  let existing ← okOr (← repo (.operationTemplate templateId)) (.notFound "operation template not found")
  let (name, operationType, command) ← attempt (checkTemplateRequest p request)
  let duplicated ← repo (.operationTemplateByName name)
  ensure (duplicated.all (·.templateId == templateId)) (.conflict "operation template name already exists")
  let allowedParams ← attempt (normalizeAllowedParams request.allowedParams)
  let template : OperationTemplateRecord := {
    templateId := templateId
    name := name
    operationType := operationType
    commandTemplate := command
    allowedParams := .strings allowedParams
    timeoutSeconds := max request.timeoutSeconds 1
    runAsUser := normalizeOperationRunAsUser request.runAsUser
    approvalRequired := request.approvalRequired
    createdAt := existing.createdAt }
  repo (.saveOperationTemplate template)
  return operationTemplateOverview template

/-- `delete_operation_template`. -/
def deleteOperationTemplate (templateId : Uuid) : HubM DeleteOperationTemplateResponse := do
  let template ← okOr (← repo (.operationTemplate templateId)) (.notFound "operation template not found")
  repo (.deleteOperationTemplate templateId)
  return { templateId := templateId, name := template.name, deleted := true }

/-! ## Node operations -/

/-- `create_node_operation`. -/
def createNodeOperation (nodeId : Uuid) (request : CreateNodeOperationRequest) (requestedBy : String) :
    HubM NodeOperationOverview := do
  let _ ← okOr (← repo (.node nodeId)) (.notFound "node not found")
  let template ← okOr (← repo (.operationTemplate request.templateId)) (.notFound "operation template not found")
  let inputParams ← attempt (normalizeOperationInputParams request.inputParams)
  let _ ← attempt (renderTemplate template inputParams)
  let ticket := (request.approvalTicket.map Text.trim).filter fun v => !Text.isEmpty v
  let pending := template.approvalRequired && ticket.isNone
  let operationId ← repo .newUuid
  let now ← repo .utcNow
  let operation : NodeOperationRecord := {
    operationId := operationId
    nodeId := nodeId
    templateId := template.templateId
    eventId := none
    inputParams := .object inputParams
    execStatus := if pending then "pending" else "approved"
    requestedBy := requestedBy
    approvedBy := if pending then none else some (ticket.getD requestedBy)
    exitCode := none
    stdoutLog := none
    stderrLog := none
    startedAt := none
    finishedAt := none
    createdAt := now }
  repo (.saveNodeOperation operation)
  return nodeOperationOverview operation template

/-- `claim_next_node_operation`. -/
def claimNextNodeOperation (nodeId : Uuid) : HubM (Option PendingOperationResponse) := do
  let claimed ← repo (.claimNextNodeOperation nodeId)
  attempt (claimed.mapM claimedNodeOperationDispatch)

/-- `report_node_operation_result`. -/
def reportNodeOperationResult (operationId : Uuid) (request : OperationResultRequest) :
    HubM OperationResultResponse := do
  let operation ← okOr (← repo (.nodeOperation operationId)) (.notFound "node operation not found")
  ensure (operation.nodeId == request.nodeId) (.unauthorized "operation does not belong to node")
  let execStatus ← attempt (normalizeOperationExecStatus p request.execStatus)
  let startedAt ← getOr operation.startedAt (repo .utcNow)
  repo (.updateNodeOperation { operation with
    execStatus := execStatus
    exitCode := some request.exitCode
    stdoutLog := some (truncateLogOutput request.stdout)
    stderrLog := some (truncateLogOutput request.stderr)
    finishedAt := some request.finishedAt
    startedAt := some startedAt })
  return { operationId := operationId, nodeId := request.nodeId, execStatus := execStatus }

end HubService

end PingoraMesh
