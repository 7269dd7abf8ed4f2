import PingoraMesh.Hub.Calls
import PingoraMesh.Hub.Config
import PingoraMesh.Release.Version

/-!
# Sites and releases

The requests of `HubService` on sites, on their node bindings and on releases, as programs over the calls of the hub.
`hub` names the instance that serves the request: each has a release counter of its own.
-/

namespace PingoraMesh

open Calls Fallible

/-! ## Pure parts -/

/-- `parse_protocol`. -/
def parseProtocol (raw : String) : Except AppError Protocol :=
  match Text.toAsciiLowercase raw with
  | "http" => .ok .http
  | "https" => .ok .https
  | "tcp" => .ok .tcp
  | _ => .error (.badRequest "unsupported protocol")

/-- A character of a site code: `none` is dropped, a separator becomes a dash. -/
def slugChar (c : Char) : Option Char :=
  if ('a' ≤ c ∧ c ≤ 'z') ∨ ('0' ≤ c ∧ c ≤ '9') then some c
  else if 'A' ≤ c ∧ c ≤ 'Z' then some (Text.lowerChar c)
  else if c = '-' ∨ c = '_' ∨ c = '.' ∨ c = ' ' then some '-'
  else none

/-- The loop of `slugify_site_code`: `value` is reversed. -/
def slugLoop : List Char → Bool → List Char → List Char
  | [], _, value => value
  | c :: cs, previousDash, value =>
    match slugChar c with
    | none => slugLoop cs previousDash value
    | some '-' =>
      if previousDash || value.isEmpty then slugLoop cs previousDash value else slugLoop cs true ('-' :: value)
    | some c => slugLoop cs false (c :: value)

/-- `slugify_site_code`. -/
def slugifySiteCode (raw : String) : String :=
  Text.trimMatches '-' (.ofList (slugLoop raw.toList false []).reverse)

theorem slugChar_visible {c d : Char} (h : slugChar c = some d) : Text.isWhitespace d = false := by
  unfold slugChar at h
  split at h
  · rename_i hc
    cases h
    rcases hc with hc | hc
    all_goals
      have h₁ := UInt32.le_iff_toNat_le.1 hc.1
      have h₂ := UInt32.le_iff_toNat_le.1 hc.2
      exact Text.isWhitespace_eq_false (Nat.le_trans (by decide) h₁) (Nat.le_trans h₂ (by decide))
  · split at h
    · rename_i hc
      cases h
      have h₁ : 65 ≤ c.toNat := UInt32.le_iff_toNat_le.1 hc.1
      have h₂ : c.toNat ≤ 90 := UInt32.le_iff_toNat_le.1 hc.2
      have hn := Text.toNat_lowerChar hc
      exact Text.isWhitespace_eq_false (by omega) (by omega)
    · split at h
      · cases h
        decide
      · cases h

theorem slugLoop_visible {cs value : List Char} {previousDash : Bool} (hv : ∀ c ∈ value, Text.isWhitespace c = false) :
    ∀ c ∈ slugLoop cs previousDash value, Text.isWhitespace c = false := by
  induction cs generalizing previousDash value with
  | nil => exact hv
  | cons c cs ih =>
    unfold slugLoop
    split
    · exact ih hv
    · split
      · exact ih hv
      · exact ih (List.forall_mem_cons.2 ⟨by decide, hv⟩)
    · rename_i hd
      exact ih (List.forall_mem_cons.2 ⟨slugChar_visible hd, hv⟩)

/-- A site code that is not empty has something to see. -/
theorem slugifySiteCode_visible {raw : String} (h : Text.isEmpty (slugifySiteCode raw) = false) :
    Text.Visible (slugifySiteCode raw) := by
  obtain ⟨c, hc⟩ := List.exists_mem_of_ne_nil _ (List.isEmpty_eq_false_iff.1 h)
  refine ⟨c, hc, ?_⟩
  rw [slugifySiteCode, Text.trimMatches, String.toList_ofList, String.toList_ofList] at hc
  exact slugLoop_visible (by simp) c (List.mem_reverse.1 (Text.mem_of_mem_stripBoth hc))

/-- `primary_site_binding`. -/
def primarySiteBinding (site : SiteRecord) : Option SiteBindingRecord :=
  site.bindings.find? (·.bindingRole == "primary") <|> site.bindings.head?

/-- `normalize_binding_role`. -/
def normalizeBindingRole (raw : String) : Except AppError String :=
  match Text.toAsciiLowercase (Text.trim raw) with
  | "primary" => .ok "primary"
  | "standby" => .ok "standby"
  | _ => .error (.badRequest "binding_role must be one of primary, standby")

/-- The loop of `normalize_site_bindings`. -/
def normalizeBindingItems : List SiteBindingItem → List Uuid → Except AppError (List SiteBindingRecord)
  | [], _ => .ok []
  | item :: items, seen =>
    if seen.contains item.nodeId then
      .error (.badRequest ("duplicate binding for node " ++ Uuid.hyphenated item.nodeId))
    else do
      let role ← normalizeBindingRole item.bindingRole
      let rest ← normalizeBindingItems items (item.nodeId :: seen)
      return { nodeId := item.nodeId, bindingRole := role, priority := item.priority } :: rest

/-- `normalize_site_bindings`. -/
def normalizeSiteBindings (raw : List SiteBindingItem) : Except AppError (List SiteBindingRecord) :=
  if raw.isEmpty then .error (.badRequest "at least one binding is required")
  else do
    let bindings ← normalizeBindingItems raw []
    if (bindings.filter (·.bindingRole == "primary")).length ≠ 1 then
      throw (.badRequest "exactly one primary binding is required")
    return bindings.insertionSort fun l r => l.priority ≤ r.priority

/-- `select_next_failover_policy_standby`. -/
def selectNextFailoverPolicyStandby (bindings : List SiteBindingRecord) (primaryNodeId : Uuid) : Option Uuid :=
  (minByKey (·.priority)
    (bindings.filter fun b => b.nodeId != primaryNodeId && b.bindingRole == "standby")).map (·.nodeId)

/-- `build_release_ack_status`. -/
def buildReleaseAckStatus (targetNodeIds : List Uuid) : HashMap Uuid NodeAckRecord :=
  targetNodeIds.foldl (fun m nodeId => m.insert nodeId
    { applyStatus := "pending", currentVersion := none, message := none, ackedAt := none }) ∅

/-- The loop of `switch_site_primary` over the other bindings, from a priority on. -/
def renumberBindings : Int → List SiteBindingRecord → List SiteBindingRecord
  | _, [] => []
  | next, b :: bs =>
    { nodeId := b.nodeId
      bindingRole := if b.bindingRole = "primary" then "standby" else b.bindingRole
      priority := next } :: renumberBindings (next + 100) bs

/-- The bindings after `switch_site_primary`. -/
def switchedBindings (bindings : List SiteBindingRecord) (target : Uuid) (previous : Option Uuid) (keep : Bool) :
    List SiteBindingRecord :=
  let kept : List SiteBindingRecord :=
    match previous with
    | some node => if keep && node != target then
      [{ nodeId := node, bindingRole := "standby", priority := 200 }] else []
    | none => []
  let others := (bindings.insertionSort fun l r => l.priority ≤ r.priority).filter fun b =>
    !(b.nodeId == target || some b.nodeId == previous)
  { nodeId := target, bindingRole := "primary", priority := 100 } :: kept ++
    renumberBindings (if kept.isEmpty then 200 else 300) others

/-- The node that `switch_site_primary` turns to when the request names none. -/
def switchTarget (bindings : List SiteBindingRecord) (current : Option Uuid) : Option Uuid :=
  let others := bindings.filter fun b => some b.nodeId != current
  (others.find? (·.bindingRole == "standby") <|> others.head?).map (·.nodeId)

/-- The order of `detached_node_ids_for_site`: by time, then by version. -/
def releaseOrd (l r : ReleaseRecord) : Ordering :=
  (compare l.createdAt r.createdAt).then (compare l.releaseVersion r.releaseVersion)

/-- The pure part of `detached_node_ids_for_site`: the targets of the latest release of the site that it no longer
has. -/
def detachedNodeIds (releases : List ReleaseRecord) (siteId : Uuid) (current : List Uuid) : List Uuid :=
  match maxBy releaseOrd (releases.filter fun r => r.scopeType == "site" && r.scopeId == some siteId) with
  | none => []
  | some release => ((release.targetNodeIds.filter fun n => !current.contains n).insertionSort (· ≤ ·)).dedup

/-- `SavedRelease`. -/
structure SavedRelease where
  releaseId : Uuid
  releaseVersion : String
  configHash : String
  targetNodeIds : List Uuid
  deriving DecidableEq, Repr

/-- `SavedRelease::into_response`. -/
def SavedRelease.intoResponse (r : SavedRelease) : CreateReleaseResponse :=
  ⟨r.releaseId, r.releaseVersion, r.configHash, r.targetNodeIds⟩

namespace HubService

variable (p : Platform) (hub : Nat)

/-! ## Saving releases -/

/-- The release record that `save_compiled_release` builds. -/
def compiledRelease (scopeType : String) (scopeId : Option Uuid) (releaseType reason : String)
    (bundle : CompiledConfigBundle) (targetNodeIds : List Uuid) (now : DateTime) : ReleaseRecord :=
  let ackStatus := buildReleaseAckStatus targetNodeIds
  { releaseId := bundle.manifest.releaseId
    scopeType := scopeType
    scopeId := scopeId
    releaseType := releaseType
    releaseVersion := bundle.manifest.releaseVersion
    reason := reason
    status := aggregateReleaseStatus ackStatus
    bundle := bundle
    targetNodeIds := targetNodeIds
    ackStatus := ackStatus
    createdAt := now }

/-- `save_compiled_release`. -/
def saveCompiledRelease (scopeType : String) (scopeId : Option Uuid) (releaseType reason : String)
    (bundle : CompiledConfigBundle) (targetNodeIds : List Uuid) : HubM SavedRelease := do
  let now ← repo .utcNow
  repo (.saveRelease (compiledRelease scopeType scopeId releaseType reason bundle targetNodeIds now))
  return {
    releaseId := bundle.manifest.releaseId
    releaseVersion := bundle.manifest.releaseVersion
    configHash := bundle.manifest.configHash
    targetNodeIds := targetNodeIds }

/-- `save_site_release`. -/
def saveSiteRelease (site : SiteRecord) (releaseType reason : String) : HubM SavedRelease := do
  attempt (validateSiteConfig site.config)
  let serial ← repo (.fetchAddReleaseCounter hub)
  let issuedAt ← repo .utcNow
  let releaseVersion := buildReleaseVersion "site" issuedAt serial
  let targetNodeIds := site.bindings.map (·.nodeId)
  let certificates ← repo (.siteCertificates site.id)
  let targets : List ReleaseTarget := site.bindings.map fun b =>
    { nodeId := b.nodeId, siteIds := [site.id], preheated := b.bindingRole == "standby" }
  let releaseId ← repo .newUuid
  let now ← repo .utcNow
  let bundle ← attempt (internalError
    (compileSiteBundle (site.toSpec p.toLowercase) certificates targets releaseVersion releaseId now))
  saveCompiledRelease "site" (some site.id) releaseType reason bundle targetNodeIds

/-- `save_site_cleanup_release`. -/
def saveSiteCleanupRelease (site : SiteRecord) (detachedNodeIds : List Uuid) (reason : String) :
    HubM SavedRelease := do
  let serial ← repo (.fetchAddReleaseCounter hub)
  let issuedAt ← repo .utcNow
  let releaseVersion := buildReleaseVersion "cleanup" issuedAt serial
  let targets : List ReleaseTarget := detachedNodeIds.map fun n =>
    { nodeId := n, siteIds := [site.id], preheated := false }
  let releaseId ← repo .newUuid
  let now ← repo .utcNow
  let bundle ← attempt (internalError
    (compileSiteCleanupBundle (site.toSpec p.toLowercase) targets releaseVersion releaseId now))
  saveCompiledRelease "site_cleanup" (some site.id) "cleanup"
    ("cleanup detached nodes for " ++ site.siteCode ++ ": " ++ reason) bundle detachedNodeIds

/-- `detached_node_ids_for_site`. -/
def detachedNodeIdsForSite (siteId : Uuid) (currentTargetNodeIds : List Uuid) : HubM (List Uuid) := do
  let releases ← repo .listReleases
  return detachedNodeIds releases siteId currentTargetNodeIds

/-- `create_release`. -/
def createRelease (request : CreateReleaseRequest) : HubM CreateReleaseResponse := do
  ensure (request.scopeType == "site") (.badRequest "only site scope is implemented in P0/P1")
  let site ← okOr (← repo (.site request.scopeId)) (.notFound "site not found")
  let targetNodeIds := site.bindings.map (·.nodeId)
  let detached ← detachedNodeIdsForSite site.id targetNodeIds
  ensure (!(targetNodeIds.isEmpty && detached.isEmpty)) (.badRequest "site has no node bindings")
  let primaryRelease ← onlyIf (!targetNodeIds.isEmpty)
    (saveSiteRelease p hub site request.releaseType request.reason)
  let cleanupRelease ← onlyIf (!detached.isEmpty) (saveSiteCleanupRelease p hub site detached request.reason)
  repo (.saveSite { site with status := if primaryRelease.isSome then .published else .draft })
  let release ← okOr (primaryRelease <|> cleanupRelease) (.internal "release creation produced no artifacts")
  return release.intoResponse

/-! ## Sites -/

/-- The loop of `generate_unique_site_code`: `base`, then `base-2`, `base-3` and so on. The suffix is a `u32`; adding to
the greatest of them is a panic. -/
def siteCodeLoop (base : String) : Nat → Nat → String → HubM String
  | 0, _, _ => throw (.internal "attempt to add with overflow")
  | fuel + 1, suffix, candidate => do
    match ← repo (.siteIdByCode candidate) with
    | none => return candidate
    | some _ => siteCodeLoop base fuel (suffix + 1) (base ++ "-" ++ String.ofList (Text.decimal (suffix + 1)))

/-- The code that `generate_unique_site_code` starts from, if the request gives one. -/
def baseSiteCode (preferred : Option String) (name domain : String) : Option String :=
  let nonEmpty (s : String) : Option String := if Text.isEmpty s then none else some s
  ((preferred.map Text.trim).bind nonEmpty |>.map slugifySiteCode |>.bind nonEmpty) <|>
    nonEmpty (slugifySiteCode ((Text.split domain '.').headD domain)) <|>
    nonEmpty (slugifySiteCode name)

/-- It is a slug that is not empty. -/
theorem slug_of_baseSiteCode {preferred : Option String} {name domain base : String}
    (h : baseSiteCode preferred name domain = some base) :
    ∃ raw, base = slugifySiteCode raw ∧ Text.isEmpty base = false := by
  have hslug : ∀ raw, (if Text.isEmpty (slugifySiteCode raw) then none else some (slugifySiteCode raw)) = some base →
      ∃ raw, base = slugifySiteCode raw ∧ Text.isEmpty base = false := by
    intro raw hraw
    split at hraw
    · cases hraw
    · rename_i hne
      obtain rfl := Option.some.inj hraw
      exact ⟨raw, rfl, Bool.eq_false_iff.2 hne⟩
  unfold baseSiteCode at h
  dsimp only at h
  rcases (Option.orElse_eq_some _ _ _).1 h with h | ⟨-, h⟩
  · obtain ⟨slug, hs, h⟩ := Option.bind_eq_some_iff.1 h
    obtain ⟨raw, -, rfl⟩ := Option.map_eq_some_iff.1 hs
    exact hslug raw h
  · rcases (Option.orElse_eq_some _ _ _).1 h with h | ⟨-, h⟩
    · exact hslug _ h
    · exact hslug _ h

/-- `generate_unique_site_code`. -/
def generateUniqueSiteCode (preferred : Option String) (name domain : String) : HubM String := do
  let base ← getOr (baseSiteCode preferred name domain) do
    let u ← repo .newUuid
    return "site-" ++ Uuid.simple u
  siteCodeLoop base 4294967295 1 base

/-- `create_site`. -/
def createSite (request : CreateSiteRequest) : HubM CreateSiteResponse := do
  ensure (!Text.isEmpty (Text.trim request.domain)) (.badRequest "domain is required")
  attempt (validateSiteConfig request.config)
  let protocol ← attempt (parseProtocol request.protocol)
  let siteCode ← generateUniqueSiteCode request.siteCode request.name request.domain
  let siteId ← repo .newUuid
  repo (.saveSite {
    id := siteId
    siteCode := siteCode
    name := request.name
    domain := request.domain
    listenPort := request.listenPort
    protocol := protocol
    tlsEnabled := request.tlsEnabled
    status := .draft
    version := 1
    config := request.config
    bindings := [] })
  return { siteId := siteId, siteCode := siteCode, version := 1, status := siteStatusName .draft }

/-- `update_site`. -/
def updateSite (siteId : Uuid) (request : UpdateSiteRequest) : HubM CreateSiteResponse := do
  let protocol ← attempt (parseProtocol request.protocol)
  attempt (validateSiteConfig request.config)
  let site ← okOr (← repo (.site siteId)) (.notFound "site not found")
  repo (.saveSite { site with
    name := request.name
    domain := request.domain
    listenPort := request.listenPort
    protocol := protocol
    tlsEnabled := request.tlsEnabled
    config := request.config
    version := site.version + 1
    status := .draft })
  return { siteId := siteId, siteCode := site.siteCode, version := site.version + 1, status := siteStatusName .draft }

/-- The status that `update_site_status` sets. -/
def switchedStatus (enabled : Bool) (bindings : List SiteBindingRecord) : SiteStatus :=
  if enabled then (if bindings.isEmpty then .draft else .published) else .disabled

/-- `update_site_status`. -/
def updateSiteStatus (siteId : Uuid) (enabled : Bool) : HubM UpdateSiteStatusResponse := do
  let old ← okOr (← repo (.site siteId)) (.notFound "site not found")
  let site := { old with status := switchedStatus enabled old.bindings, version := old.version + 1 }
  repo (.saveSite site)
  let _ ← onlyIf (!site.bindings.isEmpty) (saveSiteRelease p hub site (if enabled then "enable" else "disable")
    ((if enabled then "enable site " else "disable site ") ++ site.siteCode))
  return { siteId := siteId, siteCode := site.siteCode, status := siteStatusName site.status, version := site.version }

/-- `delete_site`. -/
def deleteSite (siteId : Uuid) : HubM DeleteSiteResponse := do
  let site ← okOr (← repo (.site siteId)) (.notFound "site not found")
  let _ ← onlyIf (!site.bindings.isEmpty)
    (saveSiteCleanupRelease p hub site (site.bindings.map (·.nodeId)) "delete site")
  repo (.deleteSite siteId)
  return { siteId := siteId, siteCode := site.siteCode, deleted := true }

/-- `bind_site_nodes`. -/
def bindSiteNodes (siteId : Uuid) (raw : List SiteBindingItem) : HubM CreateSiteBindingsResponse := do
  let bindings ← attempt (normalizeSiteBindings raw)
  bindings.forM fun b => do
    let node ← repo (.node b.nodeId)
    ensure node.isSome (.notFound ("node " ++ Uuid.hyphenated b.nodeId ++ " not found"))
  let site ← okOr (← repo (.site siteId)) (.notFound "site not found")
  repo (.saveSite { site with bindings := bindings })
  return { siteId := siteId, bindingCount := bindings.length }

/-- The target of a switch: the node of the request, which must exist, or the one `switchTarget` picks. -/
def chooseSwitchTarget (site : SiteRecord) (current : Option Uuid) (request : SwitchSitePrimaryRequest) : HubM Uuid :=
  match request.targetNodeId with
  | some target => do
    let node ← repo (.node target)
    ensure node.isSome (.notFound "target node not found")
    return target
  | none => okOr (switchTarget site.bindings current) (.conflict "site has no standby node to switch to")

/-- `switch_site_primary`. -/
def switchSitePrimary (siteId : Uuid) (request : SwitchSitePrimaryRequest) : HubM SwitchSitePrimaryResponse := do
  let old ← okOr (← repo (.site siteId)) (.notFound "site not found")
  ensure (!old.bindings.isEmpty) (.badRequest "site has no node bindings")
  let current := (primarySiteBinding old).map (·.nodeId)
  let target ← chooseSwitchTarget old current request
  ensure (current != some target) (.conflict "target node is already the primary node")
  let bindings := switchedBindings old.bindings target current (request.keepPreviousAsStandby.getD true)
  let next := selectNextFailoverPolicyStandby bindings target
  let site := { old with bindings := bindings, status := .draft, version := old.version + 1 }
  repo (.saveSite site)
  forSome next fun standby => repo (.updateActiveFailoverPolicyTargets siteId target standby)
  let release ← createRelease p hub {
    scopeType := "site"
    scopeId := siteId
    releaseType := "switch"
    reason := request.reason.getD
      ("switch primary node for " ++ site.siteCode ++ " to " ++ Uuid.hyphenated target) }
  return {
    siteId := siteId
    previousPrimaryNodeId := current
    currentPrimaryNodeId := target
    nextStandbyNodeId := next
    bindingCount := bindings.length
    releaseId := release.releaseId
    releaseVersion := release.releaseVersion }

/-! ## What nodes ask of releases -/

/-- `latest_release_for_node`. -/
def latestReleaseForNode (nodeId : Uuid) : HubM LatestReleaseResponse := do
  let releaseId ← okOr (← repo (.latestReleaseIdForNode nodeId)) (.notFound "no release available for node")
  let release ← okOr (← repo (.release releaseId)) (.notFound "release not found")
  return {
    releaseId := releaseId
    releaseVersion := release.releaseVersion
    configHash := release.bundle.manifest.configHash
    downloadUrl :=
      "/api/node/config/package/" ++ release.releaseVersion ++ "?node_id=" ++ Uuid.hyphenated nodeId }

/-- `config_package_for_node`. -/
def configPackageForNode (nodeId : Uuid) (version : String) : HubM ConfigPackageResponse := do
  let release ← okOr (← repo (.releaseByVersion version)) (.notFound "release version not found")
  ensure (release.targetNodeIds.contains nodeId) (.unauthorized "node is not a target of this release")
  return {
    releaseId := release.releaseId
    releaseVersion := release.releaseVersion
    manifest := release.bundle.manifest
    renderedConfig := release.bundle.renderedConfig
    certificates := release.bundle.certificates
    signature := release.bundle.signature }

/-- `ack_release`. -/
def ackRelease (releaseId : Uuid) (request : ReleaseAckRequest) : HubM ReleaseAckResponse := do
  let release ← okOr (← repo (.release releaseId)) (.notFound "release not found")
  ensure (release.targetNodeIds.contains request.nodeId) (.unauthorized "node is not a target of this release")
  let now ← repo .utcNow
  repo (.updateReleaseAck releaseId request.nodeId {
    applyStatus := request.applyStatus
    currentVersion := some request.currentVersion
    message := request.message
    ackedAt := some now })
  forSome (← repo (.node request.nodeId)) fun node => do
    let now ← repo .utcNow
    repo (.saveNode { node with
      runtime := { node.runtime with activeConfigVersion := some request.currentVersion, lastSeenAt := some now } })
  return { releaseId := releaseId, nodeId := request.nodeId, applyStatus := request.applyStatus }

end HubService

end PingoraMesh
