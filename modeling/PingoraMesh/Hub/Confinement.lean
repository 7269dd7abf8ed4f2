import PingoraMesh.Hub.Provenance
import PingoraMesh.Lib.Twin

/-!
# Certificates stay with the nodes of their site

Two runs of a hub in which the same is asked at the same time, but in which some sites, the hidden ones, have other
certificates.

* `AlikeBut` says what the two stores have in common: everything that packages are made of, but for the certificates of
  hidden sites and of their releases; `Abreast` adds that the next identifier and the next reading of the clock are the
  same;
* `serve_alike`: the same request keeps this, whatever it does to the rest of the two stores;
* `certificates_confined`: a package has only certificates of a site that the node was bound to when its release was
  created, a cleanup has none, and certificates of sites that a node was never bound to make no difference to it.
-/

namespace PingoraMesh

open Calls Fallible HubService

/-! ## Stores that are alike -/

/-- A bundle without its certificates. -/
def CompiledConfigBundle.bare (b : CompiledConfigBundle) : CompiledConfigBundle :=
  { b with certificates := [], manifest := { b.manifest with certificates := [] } }

/-- A release without its certificates. -/
def ReleaseRecord.bare (r : ReleaseRecord) : ReleaseRecord := { r with bundle := r.bundle.bare }

/-- The same release, but for the certificates if it is for a hidden site. -/
def SameBut (H : Uuid → Prop) (r r' : ReleaseRecord) : Prop :=
  r = r' ∨ (r.bare = r'.bare ∧ r.scopeType = "site" ∧ ∃ siteId, H siteId ∧ r.scopeId = some siteId)

/-- What packages are made of is the same, but for the certificates of hidden sites. -/
structure AlikeBut (H : Uuid → Prop) (w w' : World) : Prop where
  nodes : w.store.nodes = w'.store.nodes
  nodeIdsByCode : w.store.nodeIdsByCode = w'.store.nodeIdsByCode
  sites : w.store.sites = w'.store.sites
  siteIdsByCode : w.store.siteIdsByCode = w'.store.siteIdsByCode
  releases : ∀ k : Uuid, Option.Rel (SameBut H) w.store.releases[k]? w'.store.releases[k]?
  releaseIdsByVersion : w.store.releaseIdsByVersion = w'.store.releaseIdsByVersion
  latestReleaseByNode : w.store.latestReleaseByNode = w'.store.latestReleaseByNode
  certificates : ∀ siteId : Uuid, ¬ H siteId → w.store.siteCertificates[siteId]? = w'.store.siteCertificates[siteId]?
  policies : w.store.failoverPolicies = w'.store.failoverPolicies
  counters : w.counters = w'.counters

/-- In addition, the next identifier and the next reading of the clock are the same. -/
structure Abreast (H : Uuid → Prop) (w w' : World) : Prop extends AlikeBut H w w' where
  uuids : w.nextUuid = w'.nextUuid
  ticks : w.tick = w'.tick

section SameBut

variable {H : Uuid → Prop} {r r' : ReleaseRecord}

theorem SameBut.bare (h : SameBut H r r') : r.bare = r'.bare := h.elim (fun e => e ▸ rfl) (·.1)

theorem SameBut.targets (h : SameBut H r r') : r.targetNodeIds = r'.targetNodeIds :=
  (congrArg ReleaseRecord.targetNodeIds h.bare : r.bare.targetNodeIds = r'.bare.targetNodeIds)

theorem SameBut.releaseId (h : SameBut H r r') : r.releaseId = r'.releaseId :=
  (congrArg ReleaseRecord.releaseId h.bare : r.bare.releaseId = r'.bare.releaseId)

theorem SameBut.version (h : SameBut H r r') : r.releaseVersion = r'.releaseVersion :=
  (congrArg ReleaseRecord.releaseVersion h.bare : r.bare.releaseVersion = r'.bare.releaseVersion)

/-- A change that neither looks at the bundle nor touches it nor the scope. -/
theorem SameBut.change (h : SameBut H r r') (f : ReleaseRecord → ReleaseRecord) (hf : ∀ r, (f r).bare = f r.bare)
    (ht : ∀ r, (f r).scopeType = r.scopeType) (hs : ∀ r, (f r).scopeId = r.scopeId) : SameBut H (f r) (f r') := by
  rcases h with rfl | ⟨hb, htype, siteId, hH, hscope⟩
  · exact .inl rfl
  · refine .inr ⟨?_, (ht r).trans htype, siteId, hH, (hs r).trans hscope⟩
    rw [hf, hf, hb]

end SameBut

theorem AlikeBut.init (H : Uuid → Prop) : AlikeBut H World.init World.init :=
  ⟨rfl, rfl, rfl, rfl, fun k => by simp [World.init, MemoryState.empty], rfl, rfl, fun _ _ => rfl, rfl, rfl⟩

/-! ## Detached nodes -/

/-- Which nodes are detached does not depend on certificates. -/
theorem detachedNodeIds_bare (rs : List ReleaseRecord) (siteId : Uuid) (current : List Uuid) :
    detachedNodeIds (rs.map ReleaseRecord.bare) siteId current = detachedNodeIds rs siteId current := by
  unfold detachedNodeIds
  have hscope : (fun r : ReleaseRecord => r.scopeType == "site" && r.scopeId == some siteId) ∘ ReleaseRecord.bare =
      fun r => r.scopeType == "site" && r.scopeId == some siteId := rfl
  have hmap : ∀ xs, maxBy releaseOrd (xs.map ReleaseRecord.bare) = (maxBy releaseOrd xs).map ReleaseRecord.bare :=
    maxBy_map fun _ _ => rfl
  rw [List.filter_map, hscope, hmap]
  cases maxBy releaseOrd (rs.filter fun r => r.scopeType == "site" && r.scopeId == some siteId) with
  | none => rfl
  | some r => rfl

theorem AlikeBut.detached {H : Uuid → Prop} {w w' : World} (h : AlikeBut H w w') (siteId : Uuid) (current : List Uuid) :
    detachedNodeIds w.store.releases.values siteId current = detachedNodeIds w'.store.releases.values
      siteId current := by
  have hbare : (w.store.releases.map fun _ r => r.bare) = w'.store.releases.map fun _ r => r.bare := by
    refine Std.ExtTreeMap.ext_getElem? fun k => ?_
    rw [Std.ExtTreeMap.getElem?_map, Std.ExtTreeMap.getElem?_map]
    have hk := h.releases k
    generalize w.store.releases[k]? = o at hk ⊢
    generalize w'.store.releases[k]? = o' at hk ⊢
    cases hk with
    | none => rfl
    | some hr => exact congrArg some hr.bare
  rw [← detachedNodeIds_bare, ← detachedNodeIds_bare w'.store.releases.values, ← Maps.values_map,
    ← Maps.values_map, hbare]

/-! ## Calls -/

/-- Calls whose answers do not depend on certificates, and which write what packages are made of. -/
def HubCall.Shared : HubCall → Prop
  | .saveNode _ | .node _ | .nodeIdByCode _ | .nodeDeleteGuard _ | .deleteNode _ | .recordHeartbeat _ | .saveSite _
  | .site _ | .siteIdByCode _ | .deleteSite _ | .updateActiveFailoverPolicyTargets _ _ _ | .updateReleaseAck _ _ _
  | .issueTokens _ _ | .revokeTokens _ | .fetchAddReleaseCounter _ | .utcNow | .newUuid => True
  | _ => False

section Calls

variable {p : Platform} {H : Uuid → Prop} {w w' : World}

theorem AlikeBut.releases_map (h : AlikeBut H w w') (f : Uuid → ReleaseRecord → ReleaseRecord)
    (hf : ∀ k r r', SameBut H r r' → SameBut H (f k r) (f k r')) (k : Uuid) :
    Option.Rel (SameBut H) (w.store.releases[k]?.map (f k)) (w'.store.releases[k]?.map (f k)) := by
  have hk := h.releases k
  generalize w.store.releases[k]? = o at hk ⊢
  generalize w'.store.releases[k]? = o' at hk ⊢
  cases hk with
  | none => exact .none
  | some hr => exact .some (hf k _ _ hr)

theorem Abreast.deleteNode (h : Abreast H w w') (nodeId : Uuid) :
    Abreast H { w with store := w.store.deleteNode nodeId } { w' with store := w'.store.deleteNode nodeId } := by
  unfold MemoryState.deleteNode
  rw [← h.nodes]
  split
  · exact { h with }
  · refine { h with
      nodeIdsByCode := by dsimp only; rw [h.nodeIdsByCode]
      nodes := rfl
      latestReleaseByNode := by dsimp only; rw [h.latestReleaseByNode]
      sites := by dsimp only; rw [h.sites]
      releases := fun k => ?_ }
    dsimp only
    rw [Std.ExtTreeMap.getElem?_map, Std.ExtTreeMap.getElem?_map]
    exact h.releases_map (fun _ => MemoryState.dropTarget nodeId)
      (fun _ _ _ hr => hr.change _ (fun _ => rfl) (fun _ => rfl) fun _ => rfl) k

theorem Abreast.updateReleaseAck (h : Abreast H w w') (releaseId nodeId : Uuid) (ack : NodeAckRecord) :
    Abreast H { w with store := w.store.updateReleaseAck releaseId nodeId ack }
      { w' with store := w'.store.updateReleaseAck releaseId nodeId ack } := by
  refine { h with releases := fun k => ?_ }
  simp only [MemoryState.updateReleaseAck, Std.ExtTreeMap.getElem?_modify, Std.compare_eq_iff_eq]
  split
  · subst k
    exact h.releases_map (fun _ r => { r with
      ackStatus := r.ackStatus.insert nodeId ack
      status := aggregateReleaseStatus (r.ackStatus.insert nodeId ack) })
      (fun _ _ _ hr => hr.change (fun r => { r with
        ackStatus := r.ackStatus.insert nodeId ack
        status := aggregateReleaseStatus (r.ackStatus.insert nodeId ack) })
        (fun _ => rfl) (fun _ => rfl) fun _ => rfl) releaseId
  · exact h.releases k

theorem Abreast.deleteSite (h : Abreast H w w') (siteId : Uuid) :
    Abreast H { w with store := w.store.deleteSite siteId } { w' with store := w'.store.deleteSite siteId } := by
  unfold MemoryState.deleteSite
  rw [← h.sites]
  split
  · exact { h with }
  · refine { h with
      sites := rfl
      siteIdsByCode := by dsimp only; rw [h.siteIdsByCode]
      certificates := fun s hs => ?_ }
    simp only [Std.ExtTreeMap.getElem?_erase, h.certificates s hs]

/-- Shared calls are answered alike, and keep the two stores alike. -/
theorem Abreast.call (h : Abreast H w w') {c : HubCall} (hc : c.Shared) :
    (hubHandler p c w).1 = (hubHandler p c w').1 ∧ Abreast H (hubHandler p c w).2 (hubHandler p c w').2 := by
  cases c with
  | saveNode node =>
    exact ⟨rfl, { h with
      nodes := congrArg (·.insert node.identity.id node) h.nodes
      nodeIdsByCode := congrArg (·.insert node.identity.nodeCode node.identity.id) h.nodeIdsByCode }⟩
  | node nodeId => exact ⟨by simp only [hubHandler, World.read, h.nodes], h⟩
  | nodeIdByCode code => exact ⟨by simp only [hubHandler, World.read, h.nodeIdsByCode], h⟩
  | nodeDeleteGuard nodeId =>
    exact ⟨by simp only [hubHandler, World.read, MemoryState.nodeDeleteGuard, h.sites, h.policies], h⟩
  | deleteNode nodeId => exact ⟨rfl, h.deleteNode nodeId⟩
  | recordHeartbeat hb =>
    exact ⟨rfl, { h with nodes := by simp only [hubHandler, World.write, MemoryState.recordHeartbeat, h.nodes] }⟩
  | saveSite site =>
    exact ⟨rfl, { h with
      sites := congrArg (·.insert site.id site) h.sites
      siteIdsByCode := congrArg (·.insert site.siteCode site.id) h.siteIdsByCode }⟩
  | site siteId => exact ⟨by simp only [hubHandler, World.read, h.sites], h⟩
  | siteIdByCode code => exact ⟨by simp only [hubHandler, World.read, h.siteIdsByCode], h⟩
  | deleteSite siteId => exact ⟨rfl, h.deleteSite siteId⟩
  | updateActiveFailoverPolicyTargets siteId primary standby =>
    refine ⟨rfl, { h with policies := ?_ }⟩
    simp only [hubHandler, World.write, MemoryState.updateActiveFailoverPolicyTargets, h.policies]
  | updateReleaseAck releaseId nodeId ack => exact ⟨rfl, h.updateReleaseAck releaseId nodeId ack⟩
  | issueTokens nodeId ttl =>
    refine ⟨by simp only [hubHandler, issueTokensCall, h.uuids, h.ticks], { h with uuids := ?_, ticks := ?_ }⟩
    · exact congrArg (· + 2) h.uuids
    · exact congrArg (· + 1) h.ticks
  | revokeTokens nodeId => exact ⟨rfl, { h with }⟩
  | fetchAddReleaseCounter hub =>
    have hs : w.serial hub = w'.serial hub := by simp only [World.serial, h.counters]
    exact ⟨hs, { h with counters := by simp only [hubHandler, hs, h.counters] }⟩
  | utcNow => exact ⟨by simp only [hubHandler, h.ticks], { h with ticks := congrArg (· + 1) h.ticks }⟩
  | newUuid => exact ⟨h.uuids, { h with uuids := congrArg (· + 1) h.uuids }⟩
  | _ => exact hc.elim

theorem Abreast.saveRelease (h : Abreast H w w') {r r' : ReleaseRecord} (hr : SameBut H r r') :
    Abreast H { w with store := w.store.saveRelease r } { w' with store := w'.store.saveRelease r' } := by
  refine { h with
    releases := fun k => ?_
    releaseIdsByVersion := ?_
    latestReleaseByNode := ?_ }
  · simp only [MemoryState.saveRelease, Std.ExtTreeMap.getElem?_insert, hr.releaseId]
    split
    · exact .some hr
    · exact h.releases k
  · simp only [MemoryState.saveRelease, h.releaseIdsByVersion, hr.version, hr.releaseId]
  · simp only [MemoryState.saveRelease, h.latestReleaseByNode, hr.targets, hr.releaseId]

end Calls

/-! ## Requests that write what packages are made of -/

section Requests

variable {p : Platform} {hub : Nat} {H : Uuid → Prop}

/-- The same error or the same result, from worlds that are abreast. -/
abbrev Alike (p : Platform) (H : Uuid → Prop) {α : Type} (x y : HubM α) : Prop :=
  Twin (hubHandler p) (Abreast H) Eq x y

theorem twin_repo {c c' : HubCall} {A : c.Ans → c'.Ans → Prop}
    (hc : ∀ w w', Abreast H w w' →
      A (hubHandler p c w).1 (hubHandler p c' w').1 ∧ Abreast H (hubHandler p c w).2 (hubHandler p c' w').2) :
    Twin (hubHandler p) (Abreast H) A (repo c) (repo c') := hc

theorem shared {c : HubCall} (hc : c.Shared) : Alike p H (repo c) (repo c) := twin_repo fun _ _ h => h.call hc

theorem saveRelease_alike {r r' : ReleaseRecord} (hr : SameBut H r r') :
    Alike p H (repo (.saveRelease r)) (repo (.saveRelease r')) := fun _ _ h => ⟨rfl, h.saveRelease hr⟩

/-- Bundles that are the same but for certificates of a hidden site. -/
def BundlesBut (H : Uuid → Prop) (siteId : Uuid) (b b' : CompiledConfigBundle) : Prop :=
  b = b' ∨ (b.bare = b'.bare ∧ H siteId)

theorem BundlesBut.manifest {siteId : Uuid} {b b' : CompiledConfigBundle} (h : BundlesBut H siteId b b') :
    { b.manifest with certificates := [] } = { b'.manifest with certificates := [] } := by
  rcases h with rfl | ⟨h, -⟩
  · rfl
  · exact (congrArg CompiledConfigBundle.manifest h :)

theorem saveCompiledRelease_alike {siteId : Uuid} {b b' : CompiledConfigBundle} (hb : BundlesBut H siteId b b')
    (releaseType reason : String) (targets : List Uuid) :
    Alike p H (saveCompiledRelease "site" (some siteId) releaseType reason b targets)
      (saveCompiledRelease "site" (some siteId) releaseType reason b' targets) := by
  have hid : b.manifest.releaseId = b'.manifest.releaseId := (congrArg ReleaseManifest.releaseId hb.manifest :)
  have hver : b.manifest.releaseVersion = b'.manifest.releaseVersion :=
    (congrArg ReleaseManifest.releaseVersion hb.manifest :)
  have hhash : b.manifest.configHash = b'.manifest.configHash := (congrArg ReleaseManifest.configHash hb.manifest :)
  refine twin_seq (shared trivial) fun now => twin_seq (saveRelease_alike ?_) fun _ => ?_
  · rcases hb with rfl | ⟨hb, hH⟩
    · exact .inl rfl
    · refine .inr ⟨?_, rfl, siteId, hH, rfl⟩
      simp only [ReleaseRecord.bare, compiledRelease, hb, hid, hver]
  · rw [hid, hver, hhash]
    exact twin_pure rfl

theorem saveSiteRelease_alike (site : SiteRecord) (releaseType reason : String) :
    Alike p H (saveSiteRelease p hub site releaseType reason) (saveSiteRelease p hub site releaseType reason) := by
  refine twin_seq (twin_attempt_eq _) fun _ => twin_seq (shared trivial) fun serial => twin_seq (shared trivial)
    fun at_ =>
    twin_bind (A := fun c c' => c = c' ∨ H site.id) (twin_repo fun w w' h => ⟨?_, h⟩) fun certs certs' hc =>
      twin_seq (shared trivial) fun id => twin_seq (shared trivial) fun now =>
        twin_bind (A := BundlesBut H site.id) (twin_attempt ?_) fun b b' hb => saveCompiledRelease_alike hb _ _ _
  · by_cases hH : H site.id
    · exact .inr hH
    · exact .inl (congrArg (·.getD []) (h.certificates _ hH))
  · rcases hc with rfl | hH
    · generalize internalError _ = x
      cases x with
      | ok b => exact .inl rfl
      | error e => rfl
    · unfold compileSiteBundle
      split
      · rfl
      · exact .inr ⟨rfl, hH⟩

theorem saveSiteCleanupRelease_alike (site : SiteRecord) (detached : List Uuid) (reason : String) :
    Alike p H (saveSiteCleanupRelease p hub site detached reason) (saveSiteCleanupRelease p hub site detached reason) :=
  twin_seq (shared trivial) fun _ => twin_seq (shared trivial) fun _ => twin_seq (shared trivial) fun _ =>
    twin_seq (shared trivial) fun _ => twin_seq (twin_attempt_eq _) fun _ => twin_seq (shared trivial) fun _ =>
      twin_seq (saveRelease_alike (.inl rfl)) fun _ => twin_pure rfl

theorem detachedNodeIdsForSite_alike (siteId : Uuid) (current : List Uuid) :
    Alike p H (detachedNodeIdsForSite siteId current) (detachedNodeIdsForSite siteId current) := fun _ _ h =>
  ⟨h.detached siteId current, h⟩

theorem createRelease_alike (request : CreateReleaseRequest) :
    Alike p H (createRelease p hub request) (createRelease p hub request) :=
  twin_seq (twin_ensure _ _) fun _ => twin_seq (shared trivial) fun _ => twin_seq (twin_okOr_eq _ _) fun site =>
    twin_seq (detachedNodeIdsForSite_alike _ _) fun _ => twin_seq (twin_ensure _ _) fun _ =>
      twin_seq (twin_onlyIf (saveSiteRelease_alike site _ _)) fun _ =>
        twin_seq (twin_onlyIf (saveSiteCleanupRelease_alike site _ _)) fun _ => twin_seq (shared trivial) fun _ =>
          twin_seq (twin_okOr_eq _ _) fun _ => twin_pure rfl

theorem updateSiteStatus_alike (siteId : Uuid) (enabled : Bool) :
    Alike p H (updateSiteStatus p hub siteId enabled) (updateSiteStatus p hub siteId enabled) :=
  twin_seq (shared trivial) fun _ => twin_seq (twin_okOr_eq _ _) fun _ => twin_seq (shared trivial) fun _ =>
    twin_seq (twin_onlyIf (saveSiteRelease_alike _ _ _)) fun _ => twin_pure rfl

theorem deleteSite_alike (siteId : Uuid) :
    Alike p H (HubService.deleteSite p hub siteId) (HubService.deleteSite p hub siteId) :=
  twin_seq (shared trivial) fun _ => twin_seq (twin_okOr_eq _ _) fun _ =>
    twin_seq (twin_onlyIf (saveSiteCleanupRelease_alike _ _ _)) fun _ => twin_seq (shared trivial)
      fun _ => twin_pure rfl

theorem chooseSwitchTarget_alike (site : SiteRecord) (current : Option Uuid) (request : SwitchSitePrimaryRequest) :
    Alike p H (chooseSwitchTarget site current request) (chooseSwitchTarget site current request) := by
  unfold chooseSwitchTarget
  cases request.targetNodeId with
  | none => exact twin_okOr_eq _ _
  | some target => exact twin_seq (shared trivial) fun _ => twin_seq (twin_ensure _ _) fun _ => twin_pure rfl

theorem switchSitePrimary_alike (siteId : Uuid) (request : SwitchSitePrimaryRequest) :
    Alike p H (switchSitePrimary p hub siteId request) (switchSitePrimary p hub siteId request) :=
  twin_seq (shared trivial) fun _ => twin_seq (twin_okOr_eq _ _) fun _ => twin_seq (twin_ensure _ _) fun _ =>
    twin_seq (chooseSwitchTarget_alike _ _ _) fun _ => twin_seq (twin_ensure _ _) fun _ =>
      twin_seq (shared trivial) fun _ => twin_seq (twin_forSome fun _ => shared trivial) fun _ =>
        twin_seq (createRelease_alike _) fun _ => twin_pure rfl

theorem bindSiteNodes_alike (siteId : Uuid) (raw : List SiteBindingItem) :
    Alike p H (bindSiteNodes siteId raw) (bindSiteNodes siteId raw) := by
  refine twin_seq (twin_attempt_eq _) fun _ => twin_seq (twin_forM fun b => ?_) fun _ => twin_seq (shared trivial)
    fun _ =>
    twin_seq (twin_okOr_eq _ _) fun _ => twin_seq (shared trivial) fun _ => twin_pure rfl
  exact twin_seq (shared trivial) fun _ => twin_ensure _ _

theorem siteCodeLoop_alike (base : String) (fuel suffix : Nat) (candidate : String) :
    Alike p H (siteCodeLoop base fuel suffix candidate) (siteCodeLoop base fuel suffix candidate) := by
  induction fuel generalizing suffix candidate with
  | zero => exact twin_throw _
  | succ fuel ih =>
    refine twin_seq (shared trivial) fun found => ?_
    cases found with
    | none => exact twin_pure rfl
    | some _ => exact ih _ _

theorem createSite_alike (request : CreateSiteRequest) : Alike p H (createSite request) (createSite request) :=
  twin_seq (twin_ensure _ _) fun _ => twin_seq (twin_attempt_eq _) fun _ => twin_seq (twin_attempt_eq _) fun _ =>
    twin_seq (twin_seq (twin_getOr (twin_seq (shared trivial) fun _ => twin_pure rfl))
      fun _ => siteCodeLoop_alike _ _ _ _)
      fun _ => twin_seq (shared trivial) fun _ => twin_seq (shared trivial) fun _ => twin_pure rfl

theorem updateSite_alike (siteId : Uuid) (request : UpdateSiteRequest) :
    Alike p H (updateSite siteId request) (updateSite siteId request) :=
  twin_seq (twin_attempt_eq _) fun _ => twin_seq (twin_attempt_eq _) fun _ => twin_seq (shared trivial) fun _ =>
    twin_seq (twin_okOr_eq _ _) fun _ => twin_seq (shared trivial) fun _ => twin_pure rfl

theorem createNode_alike (request : CreateNodeRequest) : Alike p H (createNode p request) (createNode p request) :=
  twin_seq (twin_ensure _ _) fun _ => twin_seq (shared trivial) fun _ => twin_seq (twin_ensure _ _) fun _ =>
    twin_seq (shared trivial) fun _ => twin_seq (shared trivial) fun _ => twin_seq (shared trivial)
      fun _ => twin_pure rfl

theorem deleteNode_alike (nodeId : Uuid) :
    Alike p H (HubService.deleteNode nodeId) (HubService.deleteNode nodeId) :=
  twin_seq (shared trivial) fun _ => twin_seq (twin_okOr_eq _ _) fun _ => twin_seq (shared trivial) fun _ =>
    twin_seq (twin_ensure _ _) fun _ => twin_seq (twin_ensure _ _) fun _ => twin_seq (shared trivial) fun _ =>
      twin_seq (shared trivial) fun _ => twin_pure rfl

theorem registerNode_alike (request : NodeRegisterRequest) :
    Alike p H (registerNode p request) (registerNode p request) :=
  twin_seq (shared trivial) fun _ => twin_seq (twin_okOr_eq _ _) fun _ => twin_seq (shared trivial) fun _ =>
    twin_seq (twin_okOr_eq _ _) fun _ => twin_seq (twin_okOr_eq _ _) fun _ => twin_seq (twin_ensure _ _) fun _ =>
      twin_seq (shared trivial) fun _ => twin_seq (shared trivial) fun _ => twin_seq (shared trivial)
        fun _ => twin_pure rfl

theorem nodeHeartbeat_alike (request : NodeHeartbeatRequest) :
    Alike p H (nodeHeartbeat request) (nodeHeartbeat request) :=
  twin_seq (shared trivial) fun _ => twin_seq (twin_ensure _ _) fun _ => twin_seq (shared trivial) fun _ =>
    twin_seq (shared trivial) fun _ => twin_seq (shared trivial) fun _ => twin_pure rfl

theorem ackRelease_alike (releaseId : Uuid) (request : ReleaseAckRequest) :
    Alike p H (ackRelease releaseId request) (ackRelease releaseId request) := by
  refine twin_bind (A := Option.Rel (SameBut H)) (twin_repo fun w w' h => ⟨h.releases releaseId, h⟩) fun o o' ho =>
    twin_bind (twin_okOr ho _) fun r r' hr => ?_
  rw [hr.targets]
  refine twin_seq (twin_ensure _ _) fun _ => twin_seq (shared trivial) fun _ => twin_seq (shared trivial) fun _ =>
    twin_seq (shared trivial) fun _ => twin_seq (twin_forSome fun _ => ?_) fun _ => twin_pure rfl
  exact twin_seq (shared trivial) fun _ => shared trivial

end Requests

/-! ## The other requests -/

/-- What packages are made of. -/
def World.makings (w : World) :=
  (w.store.nodes, w.store.nodeIdsByCode, w.store.sites, w.store.siteIdsByCode, w.store.releases,
    w.store.releaseIdsByVersion, w.store.latestReleaseByNode, w.store.siteCertificates,
      w.store.failoverPolicies, w.counters)

/-- The effects that leave it as it is. -/
def Effect.aside : List Effect := [.dns, .certificate, .certificateOrder, .admin, .template, .operation, .tokens]

theorem makings_call {p : Platform} {w : World} {c : HubCall} (hc : c.Within Effect.aside) :
    (hubHandler p c w).2.makings = w.makings := by
  cases c with
  | deleteDnsProvider providerId =>
    simp only [hubHandler, World.write, MemoryState.deleteDnsProvider]
    split <;> rfl
  | deleteOperationTemplate templateId =>
    simp only [hubHandler, World.write, MemoryState.deleteOperationTemplate]
    split <;> rfl
  | claimNextNodeOperation nodeId =>
    simp only [hubHandler, MemoryState.claimNextNodeOperation]
    split <;> rfl
  | saveNode _ | deleteNode _ | recordHeartbeat _ | saveSite _ | deleteSite _ | updateActiveFailoverPolicyTargets _ _ _
  | saveRelease _ | updateReleaseAck _ _ _ | fetchAddReleaseCounter _ =>
    simp [HubCall.Within, HubCall.effect, Effect.aside] at hc
  | _ => rfl

theorem makings_serve {p : Platform} {hub : Hub} {r : Request} (hr : ∀ e ∈ r.effects, e ∈ Effect.aside) (w : World) :
    (w.serve p hub r).makings = w.makings :=
  serve_of_wp (Q := fun w' => w'.makings = w.makings)
    (only_alone (program_only p hub r) (fun _ _ hc h => (makings_call (hc.mono hr)).trans h) rfl)

theorem AlikeBut.of_makings {H : Uuid → Prop} {w w' v v' : World} (h : AlikeBut H w w') (hv : v.makings = w.makings)
    (hv' : v'.makings = w'.makings) : AlikeBut H v v' := by
  simp only [World.makings, Prod.mk.injEq] at hv hv'
  obtain ⟨h1, h2, h3, h4, h5, h6, h7, h8, h9, h10⟩ := hv
  obtain ⟨h1', h2', h3', h4', h5', h6', h7', h8', h9', h10'⟩ := hv'
  exact
    { nodes := by rw [h1, h1', h.nodes]
      nodeIdsByCode := by rw [h2, h2', h.nodeIdsByCode]
      sites := by rw [h3, h3', h.sites]
      siteIdsByCode := by rw [h4, h4', h.siteIdsByCode]
      releases := by rw [h5, h5']; exact h.releases
      releaseIdsByVersion := by rw [h6, h6', h.releaseIdsByVersion]
      latestReleaseByNode := by rw [h7, h7', h.latestReleaseByNode]
      certificates := by rw [h8, h8']; exact h.certificates
      policies := by rw [h9, h9', h.policies]
      counters := by rw [h10, h10', h.counters] }

theorem AlikeBut.serve_aside {p : Platform} {hub : Hub} {H : Uuid → Prop} {w w' : World} (h : AlikeBut H w w')
    {r : Request} (hr : ∀ e ∈ r.effects, e ∈ Effect.aside) : AlikeBut H (w.serve p hub r) (w'.serve p hub r) :=
  h.of_makings (makings_serve hr w) (makings_serve hr w')

/-- The same request, at the same time, keeps what packages are made of alike. -/
theorem serve_alike {p : Platform} {hub : Hub} {H : Uuid → Prop} {w w' : World} (h : Abreast H w w') (r : Request) :
    AlikeBut H (w.serve p hub r) (w'.serve p hub r) := by
  cases r with
  | createNode r => exact (twin_discard (createNode_alike r) w w' h).2.toAlikeBut
  | deleteNode n => exact (twin_discard (deleteNode_alike n) w w' h).2.toAlikeBut
  | registerNode r => exact (twin_discard (registerNode_alike r) w w' h).2.toAlikeBut
  | nodeHeartbeat r => exact (twin_discard (nodeHeartbeat_alike r) w w' h).2.toAlikeBut
  | createSite r => exact (twin_discard (createSite_alike r) w w' h).2.toAlikeBut
  | updateSite s r => exact (twin_discard (updateSite_alike s r) w w' h).2.toAlikeBut
  | updateSiteStatus s e => exact (twin_discard (updateSiteStatus_alike s e) w w' h).2.toAlikeBut
  | deleteSite s => exact (twin_discard (deleteSite_alike s) w w' h).2.toAlikeBut
  | bindSiteNodes s b => exact (twin_discard (bindSiteNodes_alike s b) w w' h).2.toAlikeBut
  | switchSitePrimary s r => exact (twin_discard (switchSitePrimary_alike s r) w w' h).2.toAlikeBut
  | createRelease r => exact (twin_discard (createRelease_alike r) w w' h).2.toAlikeBut
  | ackRelease i r => exact (twin_discard (ackRelease_alike i r) w w' h).2.toAlikeBut
  | _ => exact h.toAlikeBut.serve_aside (by simp [Request.effects, Effect.aside])

/-! ## Runs -/

/-- Two runs in which the same is asked with the same identifiers and at the same time, but which put different
certificates in for hidden sites. -/
inductive Parallel (p : Platform) (hub : Hub) (H : Uuid → Prop) : World → World → List HubStep → List HubStep → Prop
  | nil {w w' : World} : Parallel p hub H w w' [] []
  | request {w w' : World} {xs xs' : List HubStep} (r : Request) {uuids uuids' ticks ticks' : Nat}
      (hu : w.nextUuid + uuids = w'.nextUuid + uuids') (ht : w.tick + ticks = w'.tick + ticks')
      (h : Parallel p hub H ((w.later uuids ticks).serve p hub r) ((w'.later uuids' ticks').serve p hub r) xs xs') :
      Parallel p hub H w w' (.request r uuids ticks :: xs) (.request r uuids' ticks' :: xs')
  | certificates {w w' : World} {xs xs' : List HubStep} {siteId : Uuid} {certs certs' : List CertificateRef}
      (hc : certs = certs' ∨ H siteId)
      (h : Parallel p hub H { w with store := w.store.setSiteCertificates siteId certs }
        { w' with store := w'.store.setSiteCertificates siteId certs' } xs xs') :
      Parallel p hub H w w' (.setSiteCertificates siteId certs :: xs) (.setSiteCertificates siteId certs' :: xs')

theorem AlikeBut.setSiteCertificates {H : Uuid → Prop} {w w' : World} (h : AlikeBut H w w') {siteId : Uuid}
    {certs certs' : List CertificateRef} (hc : certs = certs' ∨ H siteId) :
    AlikeBut H { w with store := w.store.setSiteCertificates siteId certs }
      { w' with store := w'.store.setSiteCertificates siteId certs' } := by
  refine { h with certificates := fun s hs => ?_ }
  simp only [MemoryState.setSiteCertificates, Std.ExtTreeMap.getElem?_insert, Std.compare_eq_iff_eq]
  split
  · rename_i e
    subst e
    exact congrArg some (hc.resolve_right hs)
  · exact h.certificates s hs

/-- What packages are made of is alike after two such runs. -/
theorem Parallel.alike {p : Platform} {hub : Hub} {H : Uuid → Prop} {w w' : World} {xs xs' : List HubStep}
    (h : Parallel p hub H w w' xs xs') (log log' : List (HubCall × World)) (hw : AlikeBut H w w') :
    AlikeBut H (xs.foldl (History.step p hub) (w, log)).1 (xs'.foldl (History.step p hub) (w', log')).1 := by
  induction h generalizing log log' with
  | nil => exact hw
  | @request w w' xs xs' r uuids uuids' ticks ticks' hu ht h ih =>
    have hl : Abreast H (w.later uuids ticks) (w'.later uuids' ticks') := ⟨{ hw with }, hu, ht⟩
    exact ih _ _ (serve_alike hl r)
  | certificates hc h ih => exact ih _ _ (hw.setSiteCertificates hc)

/-- The node was bound to the site when none of the calls was made. -/
def NeverBound (log : List (HubCall × World)) (nodeId siteId : Uuid) : Prop :=
  ∀ e ∈ log, ∀ site : SiteRecord, e.2.store.sites[siteId]? = some site → ∀ b ∈ site.bindings, b.nodeId ≠ nodeId

/-- Certificates of sites that a node was never bound to make no difference to its packages. -/
theorem package_of_alike {p : Platform} {hub : Hub} (steps : List HubStep) {nodeId : Uuid} {w' : World}
    (h : AlikeBut (NeverBound (World.history p hub steps).2 nodeId) (World.history p hub steps).1 w')
      (version : String) :
    (World.history p hub steps).1.package p nodeId version = w'.package p nodeId version := by
  have hp : Provenance (World.history p hub steps) := history_provenance steps
  generalize World.history p hub steps = g at h hp
  rw [World.package_eq, World.package_eq]
  unfold MemoryState.releaseByVersion
  rw [← h.releaseIdsByVersion]
  cases g.1.store.releaseIdsByVersion[version]? with
  | none => rfl
  | some k =>
    have hk := h.releases k
    have hcreated := hp.created k
    simp only [Option.bind_some]
    generalize g.1.store.releases[k]? = o at hk hcreated ⊢
    generalize w'.store.releases[k]? = o' at hk ⊢
    cases hk with
    | none => rfl
    | @some r r' hr =>
      dsimp only
      rw [← hr.targets]
      split
      · -- the node is a target, so the release is for a site that it was bound to
        rename_i hn
        rcases hr with rfl | ⟨-, htype, siteId, hH, hscope⟩
        · rfl
        · exfalso
          obtain ⟨pre, r₀, w₀, post, hlog, hi, hb, -⟩ := hcreated r rfl
          have hn := hb.targets nodeId (List.contains_iff_mem.1 hn)
          rcases hi.origin with ⟨-, site, hsite, hsid, ht, -⟩ | ⟨hc, -⟩
          · rw [ht] at hn
            obtain ⟨b, hbm, hbn⟩ := List.mem_map.1 hn
            have hid : site.id = siteId := Option.some.inj (hsid.symm.trans (hb.scopeId.symm.trans hscope))
            subst hid
            exact hH _ (hlog ▸ List.mem_append_right _ List.mem_cons_self) site hsite b hbm hbn
          · rw [← hb.scopeType, htype] at hc
            exact absurd hc (by decide)
      · rfl

/-- A certificate that a node gets is one of a site that the node was bound to when the release was created, and the
node has not been deleted since; certificates of sites that it was never bound to make no difference to its packages, be
it in the store or in a whole run; and cleanups have no certificates. -/
theorem certificates_confined (p : Platform) (hub : Hub) (steps : List HubStep) (nodeId : Uuid) (version : String) :
    (∀ package, (World.history p hub steps).1.package p nodeId version = .ok package →
      (∀ c, c ∈ package.certificates ∨ c ∈ package.manifest.certificates →
        ∃ pre r₀ w₀ post, (World.history p hub steps).2 = pre ++ (HubCall.saveRelease r₀, w₀) :: post ∧
          r₀.releaseVersion = version ∧
          (∃ site : SiteRecord, w₀.store.sites[site.id]? = some site ∧ r₀.scopeId = some site.id ∧
            nodeId ∈ site.bindings.map (·.nodeId) ∧ c ∈ (w₀.store.siteCertificates[site.id]?).getD []) ∧
          ∀ e ∈ post, e.1 ≠ .deleteNode nodeId) ∧
      (package.manifest.scope = "site_cleanup" → package.certificates = [] ∧ package.manifest.certificates = [])) ∧
    (∀ w', AlikeBut (NeverBound (World.history p hub steps).2 nodeId) (World.history p hub steps).1 w' →
      (World.history p hub steps).1.package p nodeId version = w'.package p nodeId version) ∧
    ∀ steps', Parallel p hub (NeverBound (World.history p hub steps).2 nodeId) World.init World.init steps steps' →
      (World.history p hub steps).1.package p nodeId version =
        (World.history p hub steps').1.package p nodeId version := by
  refine ⟨fun package h => ?_, fun w' h => package_of_alike steps h version, fun steps' h => ?_⟩
  · obtain ⟨pre, r₀, w₀, post, hlog, hver, hi, hn, hpost, hman, hcert⟩ := package_of_history h
    have hmc : package.manifest.certificates = package.certificates := by rw [hman, hcert, hi.manifest]
    have hscope : package.manifest.scope = r₀.scopeType := by rw [hman, hi.scope]
    simp only [hmc, or_self, and_self, hscope, hcert]
    rcases hi.origin with ⟨htype, site, hsite, hsid, ht, hcs⟩ | ⟨htype, hcs, -⟩
    · refine ⟨fun c hc => ⟨pre, r₀, w₀, post, hlog, hver, ⟨site, hsite, hsid, ht ▸ hn, hcs ▸ hc⟩, hpost⟩, fun e => ?_⟩
      exact absurd (htype.symm.trans e) (by decide)
    · exact ⟨fun c hc => absurd hc (by rw [hcs]; exact nofun), fun _ => hcs⟩
  · exact package_of_alike steps (h.alike _ _ (.init _)) version

/-- Two nodes, each with a site of its own, both published. The second site has the given key. -/
def twoSites (key : String) : List HubStep :=
  let certificate (id : Uuid) (domain key : String) : CertificateRef :=
    { certificateId := id, version := 1, commonName := domain, sans := [domain], expiresAt := none, certPem := domain
      keyPemEncrypted := key, chainPem := none }
  [.request (.node "edge-1") 0 0, .request (.node "edge-2") 0 0, .request (.site "a.example.com") 0 0,
    .request (.site "b.example.com") 0 0, .request (.bind 4 0 []) 0 0, .request (.bind 5 2 []) 0 0,
    .setSiteCertificates 4 [certificate 100 "a.example.com" "key-a"],
    .setSiteCertificates 5 [certificate 101 "b.example.com" key], .request (.publish 4) 0 0, .request (.publish 5) 0 0]

/-- The first node has the certificate of the first site, and does not see which key the second site has. -/
theorem certificates_confined_two_sites :
    ((World.history .plain ⟨0, 30⟩ (twoSites "key-b")).1.package .plain 0 "rel-site-19700101000000-001").toOption.map
        (fun package => package.certificates.map (·.keyPemEncrypted)) = some ["key-a"] ∧
      (World.history .plain ⟨0, 30⟩ (twoSites "key-b")).1.package .plain 0 "rel-site-19700101000000-001" =
        (World.history .plain ⟨0, 30⟩ (twoSites "key-c")).1.package .plain 0 "rel-site-19700101000000-001" := by
  have hnever : NeverBound (World.history .plain ⟨0, 30⟩ (twoSites "key-b")).2 0 5 := by
    have hall : (World.history .plain ⟨0, 30⟩ (twoSites "key-b")).2.all
        (fun e => e.2.store.sites[5]?.all fun site => site.bindings.all (·.nodeId != 0)) := by decide +kernel
    intro e he site hs b hb hn
    have := List.all_eq_true.1 hall e he
    rw [hs] at this
    simpa [hn] using List.all_eq_true.1 this b hb
  refine ⟨by decide +kernel, (certificates_confined .plain ⟨0, 30⟩ (twoSites "key-b") 0 _).2.2 _ ?_⟩
  refine .request _ rfl rfl (.request _ rfl rfl (.request _ rfl rfl (.request _ rfl rfl (.request _ rfl rfl
    (.request _ rfl rfl (.certificates (.inl rfl) (.certificates (.inr hnever) (.request _ ?_ ?_ (.request _ ?_ ?_
      .nil)))))))))
  all_goals decide +kernel

end PingoraMesh
