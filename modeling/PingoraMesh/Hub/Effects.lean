import PingoraMesh.Hub.Service
import PingoraMesh.Lib.Maps
import PingoraMesh.Lib.Pool

/-!
# What a request can write

Every call that writes has an effect, and `Request.effects` lists the effects of a request. `program_only` says that a
request makes no other calls than quiet ones and those of its effects, whatever runs beside it: results about some part
of the store need to look only at the requests whose effects touch it. `Draws`: the identifiers that a run draws are
new, and each is drawn by one program.
-/

namespace PingoraMesh

open Calls Fallible HubService

/-- The kinds of writes. -/
inductive Effect where
  | saveNode
  | deleteNode
  | heartbeat
  | saveSite
  | deleteSite
  | policies
  | saveRelease
  | releaseAck
  | dns
  | certificate
  | certificateOrder
  | admin
  | template
  | operation
  | tokens
  | serial
  deriving DecidableEq, Repr

/-- The effect of a call, if it writes. -/
def HubCall.effect : HubCall → Option Effect
  | .saveNode _ => some .saveNode
  | .deleteNode _ => some .deleteNode
  | .recordHeartbeat _ => some .heartbeat
  | .saveSite _ => some .saveSite
  | .deleteSite _ => some .deleteSite
  | .updateActiveFailoverPolicyTargets _ _ _ => some .policies
  | .saveRelease _ => some .saveRelease
  | .updateReleaseAck _ _ _ => some .releaseAck
  | .saveDnsProvider _ | .deleteDnsProvider _ | .saveDnsZone _ | .deleteDnsZone _ => some .dns
  | .saveCertificate _ => some .certificate
  | .saveCertificateOrder _ => some .certificateOrder
  | .saveAdminUser _ | .touchAdminUserLogin _ _ | .saveAdminSession _ | .touchAdminSession _ _
  | .deleteAdminSession _ | .deleteAdminSessionsForUser _ _ => some .admin
  | .saveOperationTemplate _ | .deleteOperationTemplate _ => some .template
  | .saveNodeOperation _ | .claimNextNodeOperation _ | .updateNodeOperation _ => some .operation
  | .issueTokens _ _ | .revokeTokens _ => some .tokens
  | .fetchAddReleaseCounter _ => some .serial
  | .node _ | .nodeIdByCode _ | .listNodes | .nodeDeleteGuard _ | .site _ | .siteIdByCode _ | .listSites | .release _
  | .releaseByVersion _ | .listReleases | .latestReleaseIdForNode _ | .dnsProvider _ | .dnsProviderByName _
  | .listDnsProviders | .dnsZone _ | .dnsZoneByProviderName _ _ | .listDnsZones | .siteCertificates _
  | .certificateOrder _ | .listCertificateOrders | .adminUserByUsername _ | .adminSessionByTokenHash _
  | .operationTemplate _ | .operationTemplateByName _ | .listOperationTemplates | .nodeOperation _
  | .listNodeOperations _ | .accessLease _ | .refreshLease _ | .utcNow | .newUuid | .argon2Hash _ | .listZones _ _ =>
    none

/-- The effects of a request. -/
def Request.effects : Request → List Effect
  | .ensureAdminUser _ _ _ | .loginAdmin _ | .authorizeAdminSession _ | .changeAdminPassword _ _ | .logoutAdmin _ =>
    [.admin]
  | .createNode _ => [.saveNode]
  | .deleteNode _ => [.tokens, .deleteNode]
  | .createOperationTemplate _ | .updateOperationTemplate _ _ | .deleteOperationTemplate _ => [.template]
  | .createNodeOperation _ _ _ | .claimNextNodeOperation _ | .reportNodeOperationResult _ _ => [.operation]
  | .registerNode _ => [.tokens, .saveNode]
  | .refreshNodeToken _ => [.tokens]
  | .nodeHeartbeat _ => [.heartbeat]
  | .createSite _ | .updateSite _ _ | .bindSiteNodes _ _ => [.saveSite]
  | .updateSiteStatus _ _ | .createRelease _ => [.saveSite, .serial, .saveRelease]
  | .deleteSite _ => [.serial, .saveRelease, .deleteSite]
  | .switchSitePrimary _ _ => [.saveSite, .policies, .serial, .saveRelease]
  | .ackRelease _ _ => [.releaseAck, .saveNode]
  | .createDnsProvider _ | .updateDnsProvider _ _ | .deleteDnsProvider _ | .syncDnsZones _ | .updateDnsZoneStatus _ _
  | .deleteDnsZone _ => [.dns]
  | .renewSiteCertificate _ | .createCertificateOrder _ => [.certificate, .certificateOrder]
  | .retryCertificateOrder _ | .resetCertificateOrder _ => [.certificateOrder]
  | _ => []

/-- A call that is quiet or has one of the effects. -/
def HubCall.Within (es : List Effect) (c : HubCall) : Prop :=
  match c.effect with
  | none => True
  | some e => e ∈ es

section Parts

variable {es : List Effect} (p : Platform) (hub : Nat)

theorem siteCodeLoop_only (base : String) (fuel suffix : Nat) (candidate : String) :
    (siteCodeLoop base fuel suffix candidate).Only (HubCall.Within es) := by
  induction fuel generalizing suffix candidate with
  | zero => exact safe_throw _
  | succ fuel ih =>
    refine safe_bind (only_call trivial) fun found => ?_
    cases found with
    | none => exact safe_pure _
    | some _ => exact ih _ _

theorem generateUniqueSiteCode_only (preferred : Option String) (name domain : String) :
    (generateUniqueSiteCode preferred name domain).Only (HubCall.Within es) :=
  safe_bind (safe_getOr (safe_bind (only_call trivial) fun _ => safe_pure _)) fun _ => siteCodeLoop_only _ _ _ _

theorem createSite_only (hw : .saveSite ∈ es) (request : CreateSiteRequest) :
    (createSite request).Only (HubCall.Within es) :=
  safe_bind (safe_ensure _ _) fun _ => safe_bind (safe_attempt _) fun _ => safe_bind (safe_attempt _) fun _ =>
    safe_bind (generateUniqueSiteCode_only _ _ _) fun _ => safe_bind (only_call trivial) fun _ =>
      safe_bind (only_call hw) fun _ => safe_pure _

theorem bindSiteNodes_only (hw : .saveSite ∈ es) (siteId : Uuid) (raw : List SiteBindingItem) :
    (bindSiteNodes siteId raw).Only (HubCall.Within es) := by
  refine safe_bind (safe_attempt _) fun _ => safe_bind (safe_forM fun _ => ?_) fun _ =>
    safe_bind (only_call trivial) fun _ => safe_bind (safe_okOr _ _) fun _ => safe_bind (only_call hw) fun _ =>
      safe_pure _
  exact safe_bind (only_call trivial) fun _ => safe_ensure _ _

theorem operationOverviews_only (os : List NodeOperationRecord) :
    (operationOverviews os).Only (HubCall.Within es) := by
  induction os with
  | nil => exact safe_pure _
  | cons o os ih =>
    exact safe_bind (only_call trivial) fun _ => safe_bind (safe_okOr _ _) fun _ => safe_bind ih fun _ => safe_pure _

theorem syncZones_only (hd : .dns ∈ es) (providerId : Uuid) (infos : List ProviderZone) :
    (syncZones providerId infos).Only (HubCall.Within es) := by
  induction infos with
  | nil => exact safe_pure _
  | cons info infos ih =>
    exact safe_bind (only_call trivial) fun _ => safe_bind (safe_getOr (only_call trivial)) fun _ =>
      safe_bind (only_call trivial) fun _ => safe_bind (only_call hd) fun _ => safe_bind ih fun _ => safe_pure _

theorem saveCompiledRelease_only (hr : .saveRelease ∈ es) (scopeType : String) (scopeId : Option Uuid)
    (releaseType reason : String) (bundle : CompiledConfigBundle) (targets : List Uuid) :
    (saveCompiledRelease scopeType scopeId releaseType reason bundle targets).Only (HubCall.Within es) :=
  safe_bind (only_call trivial) fun _ => safe_bind (only_call hr) fun _ => safe_pure _

theorem saveSiteRelease_only (hs : .serial ∈ es) (hr : .saveRelease ∈ es) (site : SiteRecord)
    (releaseType reason : String) : (saveSiteRelease p hub site releaseType reason).Only (HubCall.Within es) :=
  safe_bind (safe_attempt _) fun _ => safe_bind (only_call hs) fun _ => safe_bind (only_call trivial) fun _ =>
    safe_bind (only_call trivial) fun _ => safe_bind (only_call trivial) fun _ => safe_bind (only_call trivial) fun _ =>
      safe_bind (safe_attempt _) fun _ => saveCompiledRelease_only hr _ _ _ _ _ _

theorem saveSiteCleanupRelease_only (hs : .serial ∈ es) (hr : .saveRelease ∈ es) (site : SiteRecord)
    (detached : List Uuid) (reason : String) :
    (saveSiteCleanupRelease p hub site detached reason).Only (HubCall.Within es) :=
  safe_bind (only_call hs) fun _ => safe_bind (only_call trivial) fun _ => safe_bind (only_call trivial) fun _ =>
    safe_bind (only_call trivial) fun _ => safe_bind (safe_attempt _) fun _ => saveCompiledRelease_only hr _ _ _ _ _ _

section Releases

/-! Requests that save releases, over any specification that allows them to. -/

variable {γ : Type} {T : Spec hubSig γ} (h1 : ∀ site t r, (saveSiteRelease p hub site t r).Safe T)
  (h2 : ∀ site d r, (saveSiteCleanupRelease p hub site d r).Safe T)

include h1 h2 in
theorem createRelease_safe (hok : ∀ c g, HubCall.Within [.saveSite] c → T.ok c g) (request : CreateReleaseRequest) :
    (createRelease p hub request).Safe T :=
  safe_bind (safe_ensure _ _) fun _ => safe_bind (safe_call fun g => hok _ g trivial) fun _ =>
    safe_bind (safe_okOr _ _) fun site =>
      safe_bind (safe_bind (safe_call fun g => hok _ g trivial) fun _ => safe_pure _) fun _ =>
        safe_bind (safe_ensure _ _) fun _ => safe_bind (safe_onlyIf (h1 site _ _)) fun _ =>
          safe_bind (safe_onlyIf (h2 site _ _)) fun _ => safe_bind (safe_call fun g => hok _ g List.mem_cons_self)
            fun _ =>
            safe_bind (safe_okOr _ _) fun _ => safe_pure _

include h1 in
theorem updateSiteStatus_safe (hok : ∀ c g, HubCall.Within [.saveSite] c → T.ok c g) (siteId : Uuid) (enabled : Bool) :
    (updateSiteStatus p hub siteId enabled).Safe T :=
  safe_bind (safe_call fun g => hok _ g trivial) fun _ => safe_bind (safe_okOr _ _) fun _ =>
    safe_bind (safe_call fun g => hok _ g List.mem_cons_self) fun _ =>
      safe_bind (safe_onlyIf (h1 _ _ _)) fun _ => safe_pure _

include h2 in
theorem deleteSite_safe (hok : ∀ c g, HubCall.Within [.deleteSite] c → T.ok c g) (siteId : Uuid) :
    (HubService.deleteSite p hub siteId).Safe T :=
  safe_bind (safe_call fun g => hok _ g trivial) fun _ => safe_bind (safe_okOr _ _) fun _ =>
    safe_bind (safe_onlyIf (h2 _ _ _)) fun _ =>
      safe_bind (safe_call fun g => hok _ g List.mem_cons_self) fun _ => safe_pure _

theorem chooseSwitchTarget_safe (hok : ∀ c g, HubCall.Within [] c → T.ok c g) (site : SiteRecord)
    (current : Option Uuid) (request : SwitchSitePrimaryRequest) :
      (chooseSwitchTarget site current request).Safe T := by
  unfold chooseSwitchTarget
  cases request.targetNodeId with
  | none => exact safe_okOr _ _
  | some target =>
    exact safe_bind (safe_call fun g => hok _ g trivial) fun _ => safe_bind (safe_ensure _ _) fun _ => safe_pure _

theorem HubCall.Within.mono {es es' : List Effect} {c : HubCall} (h : c.Within es) (hs : ∀ e ∈ es, e ∈ es') :
    c.Within es' := by
  unfold HubCall.Within at h ⊢
  cases he : c.effect with
  | none => trivial
  | some e =>
    rw [he] at h
    exact hs e h

include h1 h2 in
theorem switchSitePrimary_safe (hok : ∀ c g, HubCall.Within [.saveSite, .policies] c → T.ok c g) (siteId : Uuid)
    (request : SwitchSitePrimaryRequest) : (switchSitePrimary p hub siteId request).Safe T :=
  safe_bind (safe_call fun g => hok _ g trivial) fun _ => safe_bind (safe_okOr _ _) fun _ =>
    safe_bind (safe_ensure _ _) fun _ =>
      safe_bind (chooseSwitchTarget_safe (fun c g hc => hok c g (hc.mono (by simp))) _ _ _) fun _ =>
        safe_bind (safe_ensure _ _) fun _ => safe_bind (safe_call fun g => hok _ g List.mem_cons_self) fun _ =>
          safe_bind (safe_forSome fun _ => safe_call fun g => hok _ g (List.mem_cons_of_mem _ List.mem_cons_self))
            fun _ =>
            safe_bind (createRelease_safe p hub h1 h2 (fun c g hc => hok c g (hc.mono (by simp))) _)
              fun _ => safe_pure _

end Releases

theorem orderCertificate_only (hc : .certificate ∈ es) (certificateId : Option Uuid) (commonName : String)
    (sans : List String) : (orderCertificate certificateId commonName sans).Only (HubCall.Within es) :=
  safe_getOr (safe_bind (only_call trivial) fun _ => safe_bind (only_call trivial) fun _ =>
    safe_bind (only_call trivial) fun _ => safe_bind (only_call trivial) fun _ => safe_bind (only_call hc) fun _ =>
      safe_pure _)

theorem issueCertificateOrder_only (hc : .certificate ∈ es) (ho : .certificateOrder ∈ es)
    (siteId certificateId : Option Uuid) (commonName : String) (sans : List String) (zoneId : Uuid)
    (zoneName acmeProvider orderType : String) :
    (issueCertificateOrder siteId certificateId commonName sans zoneId zoneName acmeProvider orderType).Only
      (HubCall.Within es) :=
  safe_bind (orderCertificate_only hc _ _ _) fun _ => safe_bind (only_call trivial) fun _ =>
    safe_bind (only_call trivial) fun _ => safe_bind (only_call trivial) fun _ => safe_bind (only_call ho) fun _ =>
      safe_pure _

theorem requestedSite_only (siteId : Option Uuid) : (requestedSite siteId).Only (HubCall.Within es) := by
  cases siteId with
  | none => exact safe_pure _
  | some id => exact safe_bind (only_call trivial) fun _ => safe_bind (safe_okOr _ _) fun _ => safe_pure _

theorem authorizeAdminSession_only (ha : .admin ∈ es) (token : String) :
    (authorizeAdminSession p token).Only (HubCall.Within es) :=
  safe_bind (safe_ensure _ _) fun _ => safe_bind (only_call trivial) fun _ => safe_bind (safe_okOr _ _) fun _ =>
    safe_bind (safe_ensure _ _) fun _ => safe_bind (only_call trivial) fun _ => safe_bind (safe_ensure _ _) fun _ =>
      safe_bind (only_call trivial) fun _ => safe_bind (only_call ha) fun _ => safe_pure _

theorem hashPassword_only (raw : String) : (hashPassword raw).Only (HubCall.Within es) :=
  safe_bind (safe_ensure _ _) fun _ => safe_bind (only_call trivial) fun _ => safe_attempt _

theorem changeAdminPassword_only (ha : .admin ∈ es) (token : String) (request : ChangeAdminPasswordRequest) :
    (changeAdminPassword p token request).Only (HubCall.Within es) :=
  safe_bind (authorizeAdminSession_only p ha token) fun _ => safe_bind (safe_ensure _ _) fun _ =>
    safe_bind (safe_ensure _ _) fun _ => safe_bind (safe_ensure _ _) fun _ => safe_bind (only_call trivial) fun _ =>
      safe_bind (safe_okOr _ _) fun _ => safe_bind (safe_ensure _ _) fun _ => safe_bind (safe_attempt _) fun _ =>
        safe_bind (hashPassword_only _) fun _ => safe_bind (only_call ha) fun _ => safe_bind (only_call ha) fun _ =>
          safe_pure _

section Accounts

variable (ha : .admin ∈ es)

include ha

theorem ensureAdminUser_only (username displayName rawPassword : String) :
    (ensureAdminUser username displayName rawPassword).Only (HubCall.Within es) :=
  safe_bind (safe_attempt _) fun _ => safe_bind (only_call trivial) fun _ =>
    safe_bind (safe_onlyIf (safe_bind (only_call trivial) fun _ => safe_bind (hashPassword_only _) fun _ =>
      safe_bind (only_call trivial) fun _ => only_call ha)) fun _ => safe_pure _

theorem loginAdmin_only (request : AdminLoginRequest) : (loginAdmin p request).Only (HubCall.Within es) :=
  safe_bind (safe_attempt _) fun _ => safe_bind (safe_ensure _ _) fun _ => safe_bind (only_call trivial) fun _ =>
    safe_bind (safe_okOr _ _) fun _ => safe_bind (safe_ensure _ _) fun _ => safe_bind (safe_attempt _) fun _ =>
      safe_bind (only_call trivial) fun _ => safe_bind (only_call trivial) fun _ => safe_bind (only_call trivial)
        fun _ =>
        safe_bind (only_call trivial) fun _ => safe_bind (only_call trivial) fun _ =>
          safe_bind (only_call trivial) fun _ => safe_bind (only_call ha) fun _ =>
            safe_bind (only_call trivial) fun _ => safe_bind (only_call ha) fun _ => safe_pure _

theorem logoutAdmin_only (token : String) : (logoutAdmin p token).Only (HubCall.Within es) :=
  safe_discard (safe_onlyIf (only_call ha))

end Accounts

section Nodes

theorem createNode_only (hn : .saveNode ∈ es) (request : CreateNodeRequest) :
    (createNode p request).Only (HubCall.Within es) :=
  safe_bind (safe_ensure _ _) fun _ => safe_bind (only_call trivial) fun _ => safe_bind (safe_ensure _ _) fun _ =>
    safe_bind (only_call trivial) fun _ => safe_bind (only_call trivial) fun _ => safe_bind (only_call hn) fun _ =>
      safe_pure _

theorem nodeDetail_only (nodeId : Uuid) : (nodeDetail nodeId).Only (HubCall.Within es) :=
  safe_bind (only_call trivial) fun _ => safe_bind (safe_okOr _ _) fun _ => safe_bind (only_call trivial) fun _ =>
    safe_pure _

theorem deleteNode_only (ht : .tokens ∈ es) (hd : .deleteNode ∈ es) (nodeId : Uuid) :
    (HubService.deleteNode nodeId).Only (HubCall.Within es) :=
  safe_bind (only_call trivial) fun _ => safe_bind (safe_okOr _ _) fun _ => safe_bind (only_call trivial) fun _ =>
    safe_bind (safe_ensure _ _) fun _ => safe_bind (safe_ensure _ _) fun _ => safe_bind (only_call ht) fun _ =>
      safe_bind (only_call hd) fun _ => safe_pure _

theorem registerNode_only (ht : .tokens ∈ es) (hn : .saveNode ∈ es) (request : NodeRegisterRequest) :
    (registerNode p request).Only (HubCall.Within es) :=
  safe_bind (only_call trivial) fun _ => safe_bind (safe_okOr _ _) fun _ => safe_bind (only_call trivial) fun _ =>
    safe_bind (safe_okOr _ _) fun _ => safe_bind (safe_okOr _ _) fun _ => safe_bind (safe_ensure _ _) fun _ =>
      safe_bind (only_call ht) fun _ => safe_bind (only_call trivial) fun _ => safe_bind (only_call hn) fun _ =>
        safe_pure _

theorem refreshNodeToken_only (ht : .tokens ∈ es) (request : NodeRefreshRequest) :
    (refreshNodeToken request).Only (HubCall.Within es) :=
  safe_bind (only_call trivial) fun _ => safe_bind (safe_okOr _ _) fun _ => safe_bind (safe_ensure _ _) fun _ =>
    safe_bind (only_call ht) fun _ => safe_pure _

theorem authorizeNode_only (nodeId : Uuid) (accessToken : String) :
    (authorizeNode nodeId accessToken).Only (HubCall.Within es) :=
  safe_bind (only_call trivial) fun _ => safe_bind (safe_okOr _ _) fun _ => safe_bind (safe_ensure _ _) fun _ =>
    safe_bind (only_call trivial) fun _ => safe_bind (safe_ensure _ _) fun _ => safe_bind (only_call trivial) fun _ =>
      safe_ensure _ _

theorem nodeHeartbeat_only (hh : .heartbeat ∈ es) (request : NodeHeartbeatRequest) :
    (nodeHeartbeat request).Only (HubCall.Within es) :=
  safe_bind (only_call trivial) fun _ => safe_bind (safe_ensure _ _) fun _ => safe_bind (only_call trivial) fun _ =>
    safe_bind (only_call hh) fun _ => safe_bind (only_call trivial) fun _ => safe_pure _

end Nodes

section Operations

theorem createOperationTemplate_only (ht : .template ∈ es) (request : CreateOperationTemplateRequest) :
    (createOperationTemplate p request).Only (HubCall.Within es) :=
  safe_bind (safe_attempt _) fun _ => safe_bind (safe_attempt _) fun _ => safe_bind (only_call trivial) fun _ =>
    safe_bind (safe_getOr (only_call trivial)) fun _ => safe_bind (safe_getOr (only_call trivial)) fun _ =>
      safe_bind (only_call ht) fun _ => safe_pure _

theorem updateOperationTemplate_only (ht : .template ∈ es) (templateId : Uuid)
    (request : CreateOperationTemplateRequest) :
    (updateOperationTemplate p templateId request).Only (HubCall.Within es) :=
  safe_bind (only_call trivial) fun _ => safe_bind (safe_okOr _ _) fun _ => safe_bind (safe_attempt _) fun _ =>
    safe_bind (only_call trivial) fun _ => safe_bind (safe_ensure _ _) fun _ => safe_bind (safe_attempt _) fun _ =>
      safe_bind (only_call ht) fun _ => safe_pure _

theorem deleteOperationTemplate_only (ht : .template ∈ es) (templateId : Uuid) :
    (HubService.deleteOperationTemplate templateId).Only (HubCall.Within es) :=
  safe_bind (only_call trivial) fun _ => safe_bind (safe_okOr _ _) fun _ => safe_bind (only_call ht)
    fun _ => safe_pure _

theorem createNodeOperation_only (ho : .operation ∈ es) (nodeId : Uuid) (request : CreateNodeOperationRequest)
    (requestedBy : String) : (createNodeOperation nodeId request requestedBy).Only (HubCall.Within es) :=
  safe_bind (only_call trivial) fun _ => safe_bind (safe_okOr _ _) fun _ => safe_bind (only_call trivial) fun _ =>
    safe_bind (safe_okOr _ _) fun _ => safe_bind (safe_attempt _) fun _ => safe_bind (safe_attempt _) fun _ =>
      safe_bind (only_call trivial) fun _ => safe_bind (only_call trivial) fun _ => safe_bind (only_call ho) fun _ =>
        safe_pure _

theorem listNodeOperations_only (nodeId : Uuid) : (HubService.listNodeOperations nodeId).Only (HubCall.Within es) :=
  safe_bind (only_call trivial) fun _ => safe_bind (safe_okOr _ _) fun _ => safe_bind (only_call trivial) fun _ =>
    operationOverviews_only _

theorem claimNextNodeOperation_only (ho : .operation ∈ es) (nodeId : Uuid) :
    (HubService.claimNextNodeOperation nodeId).Only (HubCall.Within es) :=
  safe_bind (only_call ho) fun _ => safe_attempt _

theorem reportNodeOperationResult_only (ho : .operation ∈ es) (operationId : Uuid) (request : OperationResultRequest) :
    (reportNodeOperationResult p operationId request).Only (HubCall.Within es) :=
  safe_bind (only_call trivial) fun _ => safe_bind (safe_okOr _ _) fun _ => safe_bind (safe_ensure _ _) fun _ =>
    safe_bind (safe_attempt _) fun _ => safe_bind (safe_getOr (only_call trivial)) fun _ =>
      safe_bind (only_call ho) fun _ => safe_pure _

end Operations

section Releases

theorem updateSite_only (hs : .saveSite ∈ es) (siteId : Uuid) (request : UpdateSiteRequest) :
    (updateSite siteId request).Only (HubCall.Within es) :=
  safe_bind (safe_attempt _) fun _ => safe_bind (safe_attempt _) fun _ => safe_bind (only_call trivial) fun _ =>
    safe_bind (safe_okOr _ _) fun _ => safe_bind (only_call hs) fun _ => safe_pure _

theorem siteDetail_only (siteId : Uuid) : (siteDetail siteId).Only (HubCall.Within es) :=
  safe_bind (only_call trivial) fun _ => safe_bind (only_call trivial) fun _ => safe_bind (safe_okOr _ _) fun _ =>
    safe_pure _

theorem latestReleaseForNode_only (nodeId : Uuid) : (latestReleaseForNode nodeId).Only (HubCall.Within es) :=
  safe_bind (only_call trivial) fun _ => safe_bind (safe_okOr _ _) fun _ => safe_bind (only_call trivial) fun _ =>
    safe_bind (safe_okOr _ _) fun _ => safe_pure _

theorem configPackageForNode_only (nodeId : Uuid) (version : String) :
    (configPackageForNode nodeId version).Only (HubCall.Within es) :=
  safe_bind (only_call trivial) fun _ => safe_bind (safe_okOr _ _) fun _ => safe_bind (safe_ensure _ _) fun _ =>
    safe_pure _

theorem ackRelease_only (ha : .releaseAck ∈ es) (hn : .saveNode ∈ es) (releaseId : Uuid)
    (request : ReleaseAckRequest) : (ackRelease releaseId request).Only (HubCall.Within es) :=
  safe_bind (only_call trivial) fun _ => safe_bind (safe_okOr _ _) fun _ => safe_bind (safe_ensure _ _) fun _ =>
    safe_bind (only_call trivial) fun _ => safe_bind (only_call ha) fun _ => safe_bind (only_call trivial) fun _ =>
      safe_bind (safe_forSome fun _ => safe_bind (only_call trivial) fun _ => only_call hn) fun _ => safe_pure _

end Releases

section Dns

variable (hd : .dns ∈ es)

include hd

theorem createDnsProvider_only (request : CreateDnsProviderRequest) :
    (createDnsProvider request).Only (HubCall.Within es) :=
  safe_bind (safe_attempt _) fun _ => safe_bind (only_call trivial) fun _ => safe_bind (safe_ensure _ _) fun _ =>
    safe_bind (only_call trivial) fun _ => safe_bind (only_call trivial) fun _ => safe_bind (only_call hd) fun _ =>
      safe_pure _

theorem updateDnsProvider_only (providerId : Uuid) (request : CreateDnsProviderRequest) :
    (updateDnsProvider providerId request).Only (HubCall.Within es) :=
  safe_bind (safe_attempt _) fun _ => safe_bind (only_call trivial) fun _ => safe_bind (safe_okOr _ _) fun _ =>
    safe_bind (only_call trivial) fun _ => safe_bind (safe_ensure _ _) fun _ => safe_bind (only_call hd) fun _ =>
      safe_pure _

theorem deleteDnsProvider_only (providerId : Uuid) :
    (HubService.deleteDnsProvider providerId).Only (HubCall.Within es) :=
  safe_bind (only_call trivial) fun _ => safe_bind (safe_okOr _ _) fun _ => safe_bind (only_call trivial) fun _ =>
    safe_bind (safe_ensure _ _) fun _ => safe_bind (only_call hd) fun _ => safe_pure _

theorem syncDnsZones_only (request : SyncDnsZonesRequest) : (syncDnsZones request).Only (HubCall.Within es) :=
  safe_bind (safe_ensure _ _) fun _ => safe_bind (only_call trivial) fun _ => safe_bind (safe_okOr _ _) fun _ =>
    safe_bind (only_call trivial) fun _ => safe_bind (safe_attempt _) fun _ => safe_bind (safe_ensure _ _) fun _ =>
      safe_bind (syncZones_only hd _ _) fun _ => safe_pure _

theorem updateDnsZoneStatus_only (zoneId : Uuid) (enabled : Bool) :
    (updateDnsZoneStatus zoneId enabled).Only (HubCall.Within es) :=
  safe_bind (only_call trivial) fun _ => safe_bind (safe_okOr _ _) fun _ => safe_bind (only_call hd) fun _ =>
    safe_pure _

theorem deleteDnsZone_only (zoneId : Uuid) : (HubService.deleteDnsZone zoneId).Only (HubCall.Within es) :=
  safe_bind (only_call trivial) fun _ => safe_bind (safe_okOr _ _) fun _ => safe_bind (only_call trivial) fun _ =>
    safe_bind (safe_ensure _ _) fun _ => safe_bind (only_call hd) fun _ => safe_pure _

end Dns

section Orders

theorem renewSiteCertificate_only (hc : .certificate ∈ es) (ho : .certificateOrder ∈ es) (siteId : Uuid) :
    (renewSiteCertificate siteId).Only (HubCall.Within es) :=
  safe_bind (only_call trivial) fun _ => safe_bind (safe_okOr _ _) fun _ => safe_bind (safe_ensure _ _) fun _ =>
    safe_bind (only_call trivial) fun _ => safe_bind (only_call trivial) fun _ =>
      safe_bind (safe_forSome fun _ => safe_throw _) fun _ => safe_bind (safe_attempt _) fun _ =>
        safe_bind (only_call trivial) fun _ => safe_bind (safe_okOr _ _) fun _ =>
          safe_bind (issueCertificateOrder_only hc ho _ _ _ _ _ _ _ _) fun _ => safe_pure _

theorem createCertificateOrder_only (hc : .certificate ∈ es) (ho : .certificateOrder ∈ es)
    (request : CreateCertificateOrderRequest) : (createCertificateOrder request).Only (HubCall.Within es) :=
  safe_bind (safe_ensure _ _) fun _ => safe_bind (requestedSite_only _) fun _ => safe_bind (safe_okOr _ _) fun _ =>
    safe_bind (safe_attempt _) fun _ => safe_bind (safe_attempt _) fun _ => safe_bind (safe_ensure _ _) fun _ =>
      safe_bind (only_call trivial) fun _ => safe_bind (safe_okOr _ _) fun _ => safe_bind (safe_ensure _ _) fun _ =>
        safe_bind (safe_ensure _ _) fun _ => issueCertificateOrder_only hc ho _ _ _ _ _ _ _ _

theorem requeueCertificateOrder_only (ho : .certificateOrder ∈ es) (renewBeforeDays : Int)
    (order : CertificateOrderRecord) (action : String) :
    (requeueCertificateOrder renewBeforeDays order action).Only (HubCall.Within es) :=
  safe_bind (safe_ensure _ _) fun _ => safe_bind (only_call ho) fun _ => safe_pure _

theorem retryCertificateOrder_only (ho : .certificateOrder ∈ es) (renewBeforeDays : Int) (orderId : Uuid) :
    (retryCertificateOrder renewBeforeDays orderId).Only (HubCall.Within es) :=
  safe_bind (only_call trivial) fun _ => safe_bind (safe_okOr _ _) fun _ => safe_bind (safe_ensure _ _) fun _ =>
    requeueCertificateOrder_only ho _ _ _

theorem resetCertificateOrder_only (ho : .certificateOrder ∈ es) (renewBeforeDays : Int) (orderId : Uuid) :
    (resetCertificateOrder renewBeforeDays orderId).Only (HubCall.Within es) :=
  safe_bind (only_call trivial) fun _ => safe_bind (safe_okOr _ _) fun _ => safe_bind (safe_ensure _ _) fun _ =>
    requeueCertificateOrder_only ho _ _ _

end Orders

end Parts

/-- Whatever runs beside it, a request makes quiet calls and calls of its effects. -/
theorem program_only (p : Platform) (hub : Hub) (r : Request) :
    (HubService.program p hub r).Only (HubCall.Within r.effects) := by
  cases r with
  | ensureAdminUser u d r => exact safe_discard (ensureAdminUser_only (.head _) u d r)
  | loginAdmin r => exact safe_discard (loginAdmin_only p (.head _) r)
  | authorizeAdminSession t => exact safe_discard (authorizeAdminSession_only p (.head _) t)
  | changeAdminPassword t r => exact safe_discard (changeAdminPassword_only p (.head _) t r)
  | logoutAdmin t => exact logoutAdmin_only p (.head _) t
  | createNode r => exact safe_discard (createNode_only p (.head _) r)
  | nodeDetail n => exact safe_discard (nodeDetail_only n)
  | deleteNode n => exact safe_discard (deleteNode_only (.head _) (.tail _ (.head _)) n)
  | createOperationTemplate r => exact safe_discard (createOperationTemplate_only p (.head _) r)
  | updateOperationTemplate i r => exact safe_discard (updateOperationTemplate_only p (.head _) i r)
  | deleteOperationTemplate i => exact safe_discard (deleteOperationTemplate_only (.head _) i)
  | createNodeOperation n r b => exact safe_discard (createNodeOperation_only (.head _) n r b)
  | listNodeOperations n => exact safe_discard (listNodeOperations_only n)
  | registerNode r => exact safe_discard (registerNode_only p (.head _) (.tail _ (.head _)) r)
  | refreshNodeToken r => exact safe_discard (refreshNodeToken_only (.head _) r)
  | authorizeNode n t => exact authorizeNode_only n t
  | claimNextNodeOperation n => exact safe_discard (claimNextNodeOperation_only (.head _) n)
  | reportNodeOperationResult o r => exact safe_discard (reportNodeOperationResult_only p (.head _) o r)
  | nodeHeartbeat r => exact safe_discard (nodeHeartbeat_only (.head _) r)
  | createSite r => exact safe_discard (createSite_only (.head _) r)
  | updateSite s r => exact safe_discard (updateSite_only (.head _) s r)
  | updateSiteStatus s e =>
    exact safe_discard (updateSiteStatus_safe p hub.id (saveSiteRelease_only p hub.id (.tail _ (.head _))
      (.tail _ (.tail _ (.head _)))) (fun c _ hc => hc.mono (by simp [Request.effects])) s e)
  | deleteSite s =>
    exact safe_discard (deleteSite_safe p hub.id (saveSiteCleanupRelease_only p hub.id (.head _) (.tail _ (.head _)))
      (fun c _ hc => hc.mono (by simp [Request.effects])) s)
  | siteDetail s => exact safe_discard (siteDetail_only s)
  | bindSiteNodes s b => exact safe_discard (bindSiteNodes_only (.head _) s b)
  | renewSiteCertificate s => exact safe_discard (renewSiteCertificate_only (.head _) (.tail _ (.head _)) s)
  | switchSitePrimary s r =>
    exact safe_discard (switchSitePrimary_safe p hub.id (saveSiteRelease_only p hub.id (.tail _ (.tail _ (.head _)))
      (.tail _ (.tail _ (.tail _ (.head _)))))
      (saveSiteCleanupRelease_only p hub.id (.tail _ (.tail _ (.head _))) (.tail _ (.tail _ (.tail _ (.head _)))))
        (fun c _ hc => hc.mono (by simp [Request.effects])) s r)
  | createRelease r =>
    exact safe_discard (createRelease_safe p hub.id (saveSiteRelease_only p hub.id (.tail _ (.head _))
      (.tail _ (.tail _ (.head _))))
      (saveSiteCleanupRelease_only p hub.id (.tail _ (.head _)) (.tail _ (.tail _ (.head _))))
        (fun c _ hc => hc.mono (by simp [Request.effects])) r)
  | latestReleaseForNode n => exact safe_discard (latestReleaseForNode_only n)
  | configPackageForNode n v => exact safe_discard (configPackageForNode_only n v)
  | ackRelease i r => exact safe_discard (ackRelease_only (.head _) (.tail _ (.head _)) i r)
  | createDnsProvider r => exact safe_discard (createDnsProvider_only (.head _) r)
  | updateDnsProvider i r => exact safe_discard (updateDnsProvider_only (.head _) i r)
  | deleteDnsProvider i => exact safe_discard (deleteDnsProvider_only (.head _) i)
  | syncDnsZones r => exact safe_discard (syncDnsZones_only (.head _) r)
  | updateDnsZoneStatus z e => exact safe_discard (updateDnsZoneStatus_only (.head _) z e)
  | deleteDnsZone z => exact safe_discard (deleteDnsZone_only (.head _) z)
  | createCertificateOrder r => exact safe_discard (createCertificateOrder_only (.head _) (.tail _ (.head _)) r)
  | retryCertificateOrder o => exact safe_discard (retryCertificateOrder_only (.head _) _ o)
  | resetCertificateOrder o => exact safe_discard (resetCertificateOrder_only (.head _) _ o)
  | listSites =>
    exact safe_discard (safe_bind (only_call trivial) fun _ => safe_bind (only_call trivial) fun _ => safe_pure _)
  | listNodes | listOperationTemplates | listReleases | listDnsProviders | listDnsZones | listCertificateOrders =>
    exact safe_discard (safe_bind (only_call trivial) fun _ => safe_pure _)

/-! ## What a call leaves alone -/

/-- Sites are stored under their identifiers. -/
def SitesKeyed (s : MemoryState) : Prop := ∀ (k : Uuid) (site : SiteRecord), s.sites[k]? = some site → site.id = k

/-- What becomes of a stored release: acknowledgements come in, and deleted nodes go. -/
structure ReleaseRecord.Becomes (r r' : ReleaseRecord) : Prop where
  releaseId : r'.releaseId = r.releaseId
  version : r'.releaseVersion = r.releaseVersion
  scopeType : r'.scopeType = r.scopeType
  scopeId : r'.scopeId = r.scopeId
  createdAt : r'.createdAt = r.createdAt
  bundle : r'.bundle = r.bundle
  targets : ∀ n ∈ r'.targetNodeIds, n ∈ r.targetNodeIds

theorem ReleaseRecord.Becomes.refl (r : ReleaseRecord) : r.Becomes r := ⟨rfl, rfl, rfl, rfl, rfl, rfl, fun _ h => h⟩

section Frames

variable {p : Platform} {c : HubCall} {w : World}

theorem counters_of_effect (h : c.effect ≠ some .serial) : (hubHandler p c w).2.counters = w.counters := by
  cases c with
  | fetchAddReleaseCounter hub => exact absurd rfl h
  | _ => rfl

/-- Unless a release is saved, each release stays but for its acknowledgements and a node that may go. -/
theorem releases_map_of_effect (h : c.effect ≠ some .saveRelease) :
    ∃ (f : Uuid → ReleaseRecord → ReleaseRecord) (gone : Option Uuid),
      (∀ k r, r.Becomes (f k r) ∧ ∀ n, n ∈ (f k r).targetNodeIds ↔ n ∈ r.targetNodeIds ∧ n ∉ gone) ∧
      ∀ k : Uuid, (hubHandler p c w).2.store.releases[k]? = w.store.releases[k]?.map (f k) := by
  have same : ∀ {m : HashMap Uuid ReleaseRecord}, m = w.store.releases →
      ∃ (f : Uuid → ReleaseRecord → ReleaseRecord) (gone : Option Uuid),
        (∀ k r, r.Becomes (f k r) ∧ ∀ n, n ∈ (f k r).targetNodeIds ↔ n ∈ r.targetNodeIds ∧ n ∉ gone) ∧
        ∀ k : Uuid, m[k]? = w.store.releases[k]?.map (f k) := by
    rintro m rfl
    exact ⟨fun _ r => r, none, fun _ r => ⟨.refl r, by simp⟩, fun k => Option.map_id'.symm⟩
  cases c with
  | saveRelease r => exact absurd rfl h
  | deleteNode nodeId =>
    simp only [hubHandler, World.write, MemoryState.deleteNode]
    split
    · exact same rfl
    · refine ⟨fun _ r => MemoryState.dropTarget nodeId r, some nodeId,
        fun k r => ⟨⟨rfl, rfl, rfl, rfl, rfl, rfl, fun n hn =>
        (List.mem_filter.1 hn).1⟩, fun n => ?_⟩, fun k => Std.ExtTreeMap.getElem?_map⟩
      change n ∈ r.targetNodeIds.filter (· != nodeId) ↔ _
      rw [List.mem_filter, bne_iff_ne, Option.mem_some, ne_comm]
  | updateReleaseAck releaseId nodeId ack =>
    refine ⟨fun k r => if releaseId = k then
      { r with
        ackStatus := r.ackStatus.insert nodeId ack
        status := aggregateReleaseStatus (r.ackStatus.insert nodeId ack) } else r, none, fun k r => ?_, fun k => ?_⟩
    · dsimp only
      split
      · exact ⟨⟨rfl, rfl, rfl, rfl, rfl, rfl, fun n hn => hn⟩, by simp⟩
      · exact ⟨.refl r, by simp⟩
    · simp only [hubHandler, World.write, MemoryState.updateReleaseAck, Std.ExtTreeMap.getElem?_modify,
        Std.compare_eq_iff_eq]
      split
      · subst k
        rfl
      · exact Option.map_id'.symm
  | deleteSite siteId =>
    refine same ?_
    simp only [hubHandler, World.write, MemoryState.deleteSite]
    split <;> rfl
  | deleteDnsProvider providerId =>
    refine same ?_
    simp only [hubHandler, World.write, MemoryState.deleteDnsProvider]
    split <;> rfl
  | deleteOperationTemplate templateId =>
    refine same ?_
    simp only [hubHandler, World.write, MemoryState.deleteOperationTemplate]
    split <;> rfl
  | claimNextNodeOperation nodeId =>
    refine same ?_
    simp only [hubHandler, MemoryState.claimNextNodeOperation]
    split <;> rfl
  | _ => exact same rfl

/-- A release that was there before is the same but for its acknowledgements and the nodes that have gone, unless a
release is saved. -/
theorem releases_of_effect (h : c.effect ≠ some .saveRelease) {k : Uuid} {r' : ReleaseRecord}
    (hr : (hubHandler p c w).2.store.releases[k]? = some r') : ∃ r, w.store.releases[k]? = some r ∧ r.Becomes r' := by
  obtain ⟨f, _, hf, hmap⟩ := releases_map_of_effect (p := p) (w := w) h
  rw [hmap, Option.map_eq_some_iff] at hr
  obtain ⟨r, hr, rfl⟩ := hr
  exact ⟨r, hr, (hf k r).1⟩

theorem nextUuid_le : w.nextUuid ≤ (hubHandler p c w).2.nextUuid := by
  cases c with
  | newUuid => exact Nat.le_succ _
  | issueTokens nodeId ttl => exact Nat.le_add_right _ _
  | _ => exact Nat.le_refl _

theorem tick_le : w.tick ≤ (hubHandler p c w).2.tick := by
  cases c with
  | utcNow => exact Nat.le_succ _
  | claimNextNodeOperation nodeId => exact Nat.le_succ _
  | issueTokens nodeId ttl => exact Nat.le_succ _
  | argon2Hash password => exact Nat.le_succ _
  | listZones config names => exact Nat.le_succ _
  | _ => exact Nat.le_refl _

/-- Sites change only when one is saved or deleted, or when a node goes. -/
theorem sites_of_effect (h : ∀ e ∈ c.effect, e ∉ [Effect.saveSite, .deleteSite, .deleteNode]) :
    (hubHandler p c w).2.store.sites = w.store.sites := by
  cases c with
  | saveSite site => exact absurd List.mem_cons_self (h _ rfl)
  | deleteSite siteId => exact absurd (by simp) (h _ rfl)
  | deleteNode nodeId => exact absurd (by simp) (h _ rfl)
  | deleteDnsProvider providerId =>
    simp only [hubHandler, World.write, MemoryState.deleteDnsProvider]
    split <;> rfl
  | deleteOperationTemplate templateId =>
    simp only [hubHandler, World.write, MemoryState.deleteOperationTemplate]
    split <;> rfl
  | claimNextNodeOperation nodeId =>
    simp only [hubHandler, MemoryState.claimNextNodeOperation]
    split <;> rfl
  | _ => rfl

/-- Every call stores sites under their identifiers. -/
theorem SitesKeyed.call (h : SitesKeyed w.store) (c : HubCall) : SitesKeyed (hubHandler p c w).2.store := by
  by_cases he : ∀ e ∈ c.effect, e ∉ [Effect.saveSite, .deleteSite, .deleteNode]
  · unfold SitesKeyed
    rw [sites_of_effect he]
    exact h
  · intro k site hk
    cases c with
    | saveSite record =>
      rcases Maps.getElem?_insert_eq_some hk with ⟨rfl, rfl⟩ | ⟨-, hk⟩
      · rfl
      · exact h k site hk
    | deleteSite siteId =>
      simp only [hubHandler, World.write, MemoryState.deleteSite] at hk
      split at hk
      · exact h k site hk
      · exact h k site (Maps.getElem?_erase_eq_some hk).2
    | deleteNode nodeId =>
      simp only [hubHandler, World.write, MemoryState.deleteNode] at hk
      split at hk
      · exact h k site hk
      · obtain ⟨old, hold, rfl⟩ := Maps.getElem?_map_eq_some hk
        exact h k old hold
    | _ => exact absurd (by simp [HubCall.effect]) he

theorem policies_of_effect (h : c.effect ≠ some .policies) :
    (hubHandler p c w).2.store.failoverPolicies = w.store.failoverPolicies := by
  cases c with
  | updateActiveFailoverPolicyTargets siteId primary standby => exact absurd rfl h
  | deleteNode nodeId =>
    simp only [hubHandler, World.write, MemoryState.deleteNode]
    split <;> rfl
  | deleteSite siteId =>
    simp only [hubHandler, World.write, MemoryState.deleteSite]
    split <;> rfl
  | deleteDnsProvider providerId =>
    simp only [hubHandler, World.write, MemoryState.deleteDnsProvider]
    split <;> rfl
  | deleteOperationTemplate templateId =>
    simp only [hubHandler, World.write, MemoryState.deleteOperationTemplate]
    split <;> rfl
  | claimNextNodeOperation nodeId =>
    simp only [hubHandler, MemoryState.claimNextNodeOperation]
    split <;> rfl
  | _ => rfl

/-- Nodes go only when they are deleted. -/
theorem nodes_of_effect (h : c.effect ≠ some .deleteNode) {k : Uuid} (hk : k ∈ w.store.nodes) :
    k ∈ (hubHandler p c w).2.store.nodes := by
  cases c with
  | deleteNode nodeId => exact absurd rfl h
  | saveNode node => exact Std.ExtTreeMap.mem_insert.2 (.inr hk)
  | recordHeartbeat hb => exact Std.ExtTreeMap.mem_modify.2 hk
  | deleteSite siteId =>
    simp only [hubHandler, World.write, MemoryState.deleteSite]
    split <;> exact hk
  | deleteDnsProvider providerId =>
    simp only [hubHandler, World.write, MemoryState.deleteDnsProvider]
    split <;> exact hk
  | deleteOperationTemplate templateId =>
    simp only [hubHandler, World.write, MemoryState.deleteOperationTemplate]
    split <;> exact hk
  | claimNextNodeOperation nodeId =>
    simp only [hubHandler, MemoryState.claimNextNodeOperation]
    split <;> exact hk
  | _ => exact hk

end Frames

/-! ## Identifiers drawn in a run -/

section Draws

variable {ι : Type} {p : Platform} {w₀ w : World} {tr : List (Event hubSig ι)}

/-- What has been drawn since the start is new, and each identifier was drawn by one program. -/
structure Draws (w₀ w : World) (tr : List (Event hubSig ι)) : Prop where
  later : w₀.nextUuid ≤ w.nextUuid
  drawn : ∀ i k, ⟨i, .newUuid, k⟩ ∈ tr → w₀.nextUuid ≤ k ∧ k < w.nextUuid
  once : ∀ i j k, ⟨i, .newUuid, k⟩ ∈ tr → ⟨j, .newUuid, k⟩ ∈ tr → i = j

theorem Draws.init : Draws w₀ w₀ ([] : List (Event hubSig ι)) where
  later := Nat.le_refl _
  drawn _ _ h := absurd h List.not_mem_nil
  once _ _ _ h := absurd h List.not_mem_nil

theorem Draws.step (h : Draws w₀ w tr) {i : ι} {c : HubCall} :
    Draws w₀ (hubHandler p c w).2 (tr ++ [⟨i, c, (hubHandler p c w).1⟩]) where
  later := h.later.trans nextUuid_le
  drawn j k hk := by
    rcases Pool.mem_concat hk with hold | ⟨rfl, rfl, rfl⟩
    · exact ⟨(h.drawn j k hold).1, (h.drawn j k hold).2.trans_le nextUuid_le⟩
    · exact ⟨h.later, Nat.lt_succ_self _⟩
  once j j' k hk hk' := by
    rcases Pool.mem_concat hk with hold | ⟨rfl, hcall, hans⟩ <;> rcases Pool.mem_concat hk' with hold' |
      ⟨rfl, hcall', hans'⟩
    · exact h.once j j' k hold hold'
    · rw [hans'] at hold
      exact absurd (h.drawn j _ hold).2 (Nat.lt_irrefl _)
    · rw [hans] at hold'
      exact absurd (h.drawn j' _ hold').2 (Nat.lt_irrefl _)
    · rfl

end Draws

end PingoraMesh
