import PingoraMesh.Hub.Alone
import PingoraMesh.Hub.Bindings
import PingoraMesh.Hub.Effects
import PingoraMesh.Lib.Maps

/-!
# Sites and releases, one request after another

What holds between the calls of a hub that serves one request after another: `Sound` says that the bindings of the sites
are as they should be and that releases go to nodes that exist.

* `HubCall.Fits` is what is asked of a call, and `Sound.call` the step;
* `program_rule`: every request makes only calls that fit. As in `Hub.Alone` it leaves open what is asked of a call
  (`ok`) and which invariant holds between calls (`I`), as long as that gives `Sound`;
* `serveAll_keeps`: what the calls that fit keep, every sequence of requests keeps.
-/

namespace PingoraMesh

open Calls Fallible HubService

/-! ## The invariant -/

/-- Sites know their identifiers and are bound well, and the targets of releases exist. -/
structure Sound (s : MemoryState) : Prop where
  ident : ∀ (k : Uuid) (site : SiteRecord), s.sites[k]? = some site → site.id = k
  bound : ∀ (k : Uuid) (site : SiteRecord), s.sites[k]? = some site → WellBound s.nodes site.bindings
  targets : ∀ (k : Uuid) (r : ReleaseRecord), s.releases[k]? = some r → ∀ n ∈ r.targetNodeIds, n ∈ s.nodes

theorem Sound.empty : Sound MemoryState.empty := by
  refine ⟨fun k site h => ?_, fun k site h => ?_, fun k r h => ?_⟩
  all_goals simp [MemoryState.empty] at h

/-- A new release: no node has acknowledged it yet, and it is for a site that is stored, with its bindings and its
certificates, or for nodes that a site has left, without any. -/
structure ReleaseRecord.Issued (s : MemoryState) (r : ReleaseRecord) : Prop where
  ackStatus : r.ackStatus = buildReleaseAckStatus r.targetNodeIds
  status : r.status = aggregateReleaseStatus r.ackStatus
  scope : r.bundle.manifest.scope = r.scopeType
  manifest : r.bundle.manifest.certificates = r.bundle.certificates
  origin :
    (r.scopeType = "site" ∧ ∃ site : SiteRecord, s.sites[site.id]? = some site ∧ r.scopeId = some site.id ∧
      r.targetNodeIds = site.bindings.map (·.nodeId) ∧
      r.bundle.certificates = (s.siteCertificates[site.id]?).getD []) ∨
    (r.scopeType = "site_cleanup" ∧ r.bundle.certificates = [] ∧ r.targetNodeIds.Nodup ∧
      ∀ n ∈ r.targetNodeIds, n ∈ s.nodes)

/-- What is asked of the calls that write sites and releases. -/
def HubCall.Fits : HubCall → MemoryState → Prop
  | .saveSite record, s => WellBound s.nodes record.bindings
  | .deleteNode nodeId, s =>
    ∀ (k : Uuid) (site : SiteRecord), s.sites[k]? = some site → ∀ b ∈ site.bindings, b.nodeId ≠ nodeId
  | .saveRelease r, s => r.Issued s
  | .updateReleaseAck releaseId nodeId _, s =>
    ∀ r : ReleaseRecord, s.releases[releaseId]? = some r → nodeId ∈ r.targetNodeIds
  | _, _ => True

/-! ## The step -/

section Step

variable {s s' : MemoryState}

/-- The nodes may become more, and releases may lose targets. -/
theorem Sound.frame (h : Sound s) (hs : s'.sites = s.sites) (hn : ∀ k ∈ s.nodes, k ∈ s'.nodes)
    (hr : ∀ (k : Uuid) (r' : ReleaseRecord), s'.releases[k]? = some r' →
      ∃ r, s.releases[k]? = some r ∧ ∀ n ∈ r'.targetNodeIds, n ∈ r.targetNodeIds) : Sound s' := by
  refine ⟨fun k site hk => h.ident k site (hs ▸ hk), fun k site hk => ?_, fun k r' hk n hm => ?_⟩
  · exact (h.bound k site (hs ▸ hk)).of_nodes fun b _ => hn b.nodeId
  · obtain ⟨r, hr, ht⟩ := hr k r' hk
    exact hn n (h.targets k r hr n (ht n hm))

theorem Sound.saveSite (h : Sound s) {site : SiteRecord} (hb : WellBound s.nodes site.bindings) :
    Sound (s.saveSite site) := by
  refine { h with ident := fun k x hk => ?_, bound := fun k x hk => ?_ }
  all_goals rcases Maps.getElem?_insert_eq_some hk with ⟨rfl, rfl⟩ | ⟨-, hk⟩
  · rfl
  · exact h.ident k x hk
  · exact hb
  · exact h.bound k x hk

theorem Sound.deleteSite (h : Sound s) (siteId : Uuid) : Sound (s.deleteSite siteId) := by
  unfold MemoryState.deleteSite
  split
  · exact h
  · refine { h with ident := fun k x hk => ?_, bound := fun k x hk => ?_ }
    · exact h.ident k x (Maps.getElem?_erase_eq_some hk).2
    · exact h.bound k x (Maps.getElem?_erase_eq_some hk).2

theorem mem_erase_node {nodes : HashMap Uuid NodeRecord} {n nodeId : Uuid} :
    n ∈ nodes.erase nodeId ↔ n ≠ nodeId ∧ n ∈ nodes := by
  rw [Std.ExtTreeMap.mem_erase, ne_eq, Std.compare_eq_iff_eq, eq_comm]

/-- The targets of a release without a node that goes. -/
theorem mem_dropTarget {nodeId n : Uuid} {r : ReleaseRecord} :
    n ∈ (MemoryState.dropTarget nodeId r).targetNodeIds ↔ n ≠ nodeId ∧ n ∈ r.targetNodeIds := by
  rw [MemoryState.dropTarget, List.mem_filter, bne_iff_ne, and_comm]

theorem Sound.deleteNode (h : Sound s) {nodeId : Uuid} (hc : HubCall.Fits (.deleteNode nodeId) s) :
    Sound (s.deleteNode nodeId) := by
  unfold MemoryState.deleteNode
  split
  · exact h
  · refine ⟨fun k x hk => ?_, fun k x hk => ?_, fun k r hk n hn => ?_⟩
    · obtain ⟨site, hsite, rfl⟩ := Maps.getElem?_map_eq_some hk
      exact h.ident k site hsite
    · -- the guard has made sure that no site is bound to the node
      obtain ⟨site, hsite, rfl⟩ := Maps.getElem?_map_eq_some hk
      have hall : site.bindings.filter (·.nodeId != nodeId) = site.bindings :=
        List.filter_eq_self.2 fun b hb => bne_iff_ne.2 (hc k site hsite b hb)
      dsimp only
      rw [hall]
      exact (h.bound k site hsite).of_nodes fun b hb hn => mem_erase_node.2 ⟨hc k site hsite b hb, hn⟩
    · obtain ⟨r₀, hr₀, rfl⟩ := Maps.getElem?_map_eq_some hk
      obtain ⟨hne, hn⟩ := mem_dropTarget.1 hn
      exact mem_erase_node.2 ⟨hne, h.targets k r₀ hr₀ n hn⟩

/-- A new release goes to nodes that exist, each once. -/
theorem ReleaseRecord.Issued.targets {r : ReleaseRecord} (hr : r.Issued s) (h : Sound s) :
    (∀ n ∈ r.targetNodeIds, n ∈ s.nodes) ∧ r.targetNodeIds.Nodup := by
  rcases hr.origin with ⟨-, site, hsite, -, ht, -⟩ | ⟨-, -, hnodup, hex⟩
  · have hb := h.bound _ site hsite
    rw [ht]
    refine ⟨fun n hn => ?_, hb.distinct⟩
    obtain ⟨b, hb', rfl⟩ := List.mem_map.1 hn
    exact hb.existing b hb'
  · exact ⟨hex, hnodup⟩

theorem Sound.saveRelease (h : Sound s) {r : ReleaseRecord} (hr : ∀ n ∈ r.targetNodeIds, n ∈ s.nodes) :
    Sound (s.saveRelease r) := by
  refine { h with targets := fun k x hk => ?_ }
  rcases Maps.getElem?_insert_eq_some hk with ⟨-, rfl⟩ | ⟨-, hk⟩
  · exact hr
  · exact h.targets k x hk

/-- A call that fits keeps the invariant. -/
theorem Sound.call (p : Platform) {c : HubCall} {w : World} (h : Sound w.store) (hc : c.Fits w.store) :
    Sound (hubHandler p c w).2.store := by
  by_cases he : ∀ e ∈ c.effect, e ∉ [Effect.saveSite, .deleteSite, .deleteNode, .saveRelease]
  · refine h.frame (sites_of_effect fun e hm hin => he e hm ?_) (fun k hk => nodes_of_effect (fun e => ?_) hk)
      fun k r' hk => ?_
    · simp only [List.mem_cons, List.not_mem_nil, or_false] at hin ⊢
      tauto
    · exact he _ e (by simp)
    · obtain ⟨r, hr, hb⟩ := releases_of_effect (fun e => he _ e (by simp)) hk
      exact ⟨r, hr, hb.targets⟩
  · cases c with
    | saveSite site => exact h.saveSite hc
    | deleteSite siteId => exact h.deleteSite siteId
    | deleteNode nodeId => exact h.deleteNode hc
    | saveRelease r => exact h.saveRelease (hc.targets h).1
    | _ => exact absurd (by simp [HubCall.effect]) he

end Step

/-! ## The requests -/

theorem HubCall.fits_of_within {es : List Effect}
    (hes : ∀ e ∈ es, e ∉ [Effect.saveSite, .deleteNode, .saveRelease, .releaseAck])
    {c : HubCall} (hc : c.Within es) (s : MemoryState) : c.Fits s := by
  cases c with
  | saveSite record => exact absurd (by simp) (hes _ hc)
  | deleteNode nodeId => exact absurd (by simp) (hes _ hc)
  | saveRelease r => exact absurd (by simp) (hes _ hc)
  | updateReleaseAck releaseId nodeId ack => exact absurd (by simp) (hes _ hc)
  | _ => trivial

theorem HubCall.Quiet.within {c : HubCall} (h : c.Quiet) : c.Within [.serial] := by
  cases c <;> first | exact h.elim | simp [HubCall.Within, HubCall.effect]

section Requests

variable {p : Platform} {hub : Hub} {ok : HubCall → World → Prop} {I : World → Prop} {w : World}
  (hI : ∀ w, I w → Sound w.store) (hcall : ∀ c w, c.effect ≠ some .saveRelease → c.Fits w.store → ok c w)
  (hrelease : ∀ w r, I w → r.releaseId = w.nextUuid → r.Issued w.store → ok (.saveRelease r) (w.issued hub.id 3))

include hcall in
theorem ok_of_quiet (c : HubCall) (w : World) (h : c.Quiet) : ok c w := by
  refine hcall c w ?_ (HubCall.fits_of_within (by simp) h.within _)
  cases c <;> first | exact h.elim | simp [HubCall.effect]

/-- What is left as it was when a release has been saved. -/
def AfterRelease (I : World → Prop) (w w' : World) : Prop :=
  I w' ∧ w'.store.sites = w.store.sites ∧ w'.store.nodes = w.store.nodes

include hcall hrelease

theorem saveSiteRelease_fits (h : I w) {site : SiteRecord} (hsite : w.store.sites[site.id]? = some site)
    (releaseType reason : String) :
    wp (.alone (hubHandler p) ok I) (saveSiteRelease p hub.id site releaseType reason)
      (fun _ => AfterRelease I w) (fun _ _ => True) w := by
  refine saveSiteRelease_rule (ok_of_quiet hcall) (fun _ => trivial) (fun _ => trivial) fun r hr => ⟨?_, ?_⟩
  · refine hrelease w r h hr.releaseId ⟨hr.ackStatus, hr.status, hr.bundleScope, hr.manifestCertificates, .inl ?_⟩
    exact ⟨hr.scopeType, site, hsite, hr.scopeId, hr.targets, hr.certificates.trans (if_pos hr.scopeType)⟩
  · exact fun hi _ _ => ⟨hi, rfl, rfl⟩

theorem saveSiteCleanupRelease_fits (h : I w) (site : SiteRecord) {detached : List Uuid} (hnodup : detached.Nodup)
    (hex : ∀ n ∈ detached, n ∈ w.store.nodes) (reason : String) :
    wp (.alone (hubHandler p) ok I) (saveSiteCleanupRelease p hub.id site detached reason)
      (fun _ => AfterRelease I w) (fun _ _ => True) w := by
  refine saveSiteCleanupRelease_rule (ok_of_quiet hcall) (fun _ _ => trivial) fun r hr => ⟨?_, ?_⟩
  · refine hrelease w r h hr.releaseId ⟨hr.ackStatus, hr.status, hr.bundleScope, hr.manifestCertificates, .inr ?_⟩
    refine ⟨hr.scopeType, hr.certificates.trans (if_neg ?_), hr.targets ▸ hnodup, hr.targets ▸ hex⟩
    rw [hr.scopeType]
    decide
  · exact fun hi _ _ => ⟨hi, rfl, rfl⟩

omit hcall hrelease in
/-- Detached nodes are targets of a stored release. -/
theorem Sound.detached (h : Sound w.store) (siteId : Uuid) (current : List Uuid) :
    (detachedNodeIds w.store.releases.values siteId current).Nodup ∧
      ∀ n ∈ detachedNodeIds w.store.releases.values siteId current, n ∈ w.store.nodes := by
  unfold detachedNodeIds
  split
  · exact ⟨List.nodup_nil, nofun⟩
  · rename_i r hr
    refine ⟨List.nodup_dedup _, fun n hn => ?_⟩
    have hn := (List.perm_insertionSort _ _).mem_iff.1 (List.mem_dedup.1 hn)
    obtain ⟨k, hk⟩ := Maps.mem_values.1 (List.mem_filter.1 (mem_of_maxBy hr)).1
    exact h.targets k r hk n (List.mem_filter.1 hn).1

include hI

theorem createRelease_fits (h : I w) (request : CreateReleaseRequest) :
    wp (.alone (hubHandler p) ok I) (createRelease p hub.id request) (fun _ _ => True) (fun _ _ => True) w := by
  simp only [createRelease, detachedNodeIdsForSite, repo, wp_bind, wp_ensure, wp_okOr, wp_call_alone, wp_pure,
    hubHandler, World.read, implies_true, and_true]
  refine fun _ => ⟨ok_of_quiet hcall _ _ trivial, fun _ site hsite => ⟨ok_of_quiet hcall _ _ trivial, fun _ _ => ?_⟩⟩
  have hid := (hI w h).ident _ site hsite
  rw [← hid] at hsite
  refine wp_mono (fun _ w₁ h₁ => ?_) (fun _ _ he => he)
    (wp_onlyIf_of (saveSiteRelease_fits hcall hrelease h hsite request.releaseType request.reason) ⟨h, rfl, rfl⟩)
  obtain ⟨hnodup, hex⟩ := (hI w h).detached site.id (site.bindings.map (·.nodeId))
  refine wp_mono (fun _ w₂ h₂ => ?_) (fun _ _ he => he) (wp_onlyIf_of (saveSiteCleanupRelease_fits hcall hrelease h₁.1
    site hnodup (by rw [h₁.2.2]; exact hex) request.reason) ⟨h₁.1, rfl, rfl⟩)
  refine hcall _ _ (by simp [HubCall.effect]) ?_
  have hb := (hI w h).bound _ site hsite
  rw [← h₁.2.2, ← h₂.2.2] at hb
  exact hb

theorem updateSiteStatus_fits (h : I w) (siteId : Uuid) (enabled : Bool) :
    wp (.alone (hubHandler p) ok I) (updateSiteStatus p hub.id siteId enabled) (fun _ _ => True)
      (fun _ _ => True) w := by
  simp only [updateSiteStatus, repo, wp_bind, wp_okOr, wp_call_alone, wp_pure, hubHandler, World.read, World.write,
    implies_true, and_true]
  refine ⟨ok_of_quiet hcall _ _ trivial, fun _ old hold => ⟨hcall _ _ (by simp [HubCall.effect]) ?_, fun hi => ?_⟩⟩
  · exact (hI w h).bound _ old hold
  · exact wp_onlyIf_of (wp_mono (fun _ _ _ => trivial) (fun _ _ _ => trivial)
      (saveSiteRelease_fits hcall hrelease hi Std.ExtTreeMap.getElem?_insert_self _ _)) trivial

theorem deleteSite_fits (h : I w) (siteId : Uuid) :
    wp (.alone (hubHandler p) ok I) (HubService.deleteSite p hub.id siteId) (fun _ _ => True) (fun _ _ => True) w := by
  simp only [HubService.deleteSite, repo, wp_bind, wp_okOr, wp_call_alone, wp_pure, hubHandler, World.read, World.write,
    implies_true, and_true]
  refine ⟨ok_of_quiet hcall _ _ trivial, fun _ site hsite => ?_⟩
  have hb := (hI w h).bound _ site hsite
  have hex : ∀ n ∈ site.bindings.map (·.nodeId), n ∈ w.store.nodes := by
    intro n hn
    obtain ⟨b, hm, rfl⟩ := List.mem_map.1 hn
    exact hb.existing b hm
  refine wp_mono (fun _ w₁ _ => ?_) (fun _ _ he => he)
    (wp_onlyIf_of (saveSiteCleanupRelease_fits hcall hrelease h site hb.distinct hex "delete site") ⟨h, rfl, rfl⟩)
  exact hcall _ _ (by simp [HubCall.effect]) trivial

theorem switchSitePrimary_fits (h : I w) (siteId : Uuid) (request : SwitchSitePrimaryRequest) :
    wp (.alone (hubHandler p) ok I) (switchSitePrimary p hub.id siteId request) (fun _ _ => True)
      (fun _ _ => True) w := by
  simp only [switchSitePrimary, repo, wp_bind, wp_okOr, wp_ensure, wp_call_alone, wp_pure, wp_forSome, hubHandler,
    World.read, World.write, implies_true, and_true]
  refine ⟨ok_of_quiet hcall _ _ trivial, fun _ old hold _ => ?_⟩
  have hb := (hI w h).bound _ old hold
  refine chooseSwitchTarget_rule (ok_of_quiet hcall) (fun target ht hnode _ => ?_) fun _ => trivial
  have htarget : target ∈ w.store.nodes := by
    cases hr : request.targetNodeId with
    | some n => exact hnode (by rw [hr] at ht ⊢; exact ht)
    | none =>
      rw [hr] at ht
      obtain ⟨b, hm, rfl⟩ := mem_of_switchTarget ht
      exact hb.existing b hm
  have hprev : ∀ n ∈ (primarySiteBinding old).map (·.nodeId), n ∈ w.store.nodes := by
    intro n hn
    obtain ⟨b, hm, rfl⟩ := mem_of_primarySiteBinding hn
    exact hb.existing b hm
  refine ⟨hcall _ _ (by simp [HubCall.effect]) (hb.switched htarget hprev _),
    fun hi => ⟨fun standby _ => ?_, fun _ => ?_⟩⟩
  · exact ⟨hcall _ _ (by simp [HubCall.effect]) trivial, fun hi => createRelease_fits hI hcall hrelease hi _⟩
  · exact createRelease_fits hI hcall hrelease hi _

omit hrelease

theorem updateSite_fits (h : I w) (siteId : Uuid) (request : UpdateSiteRequest) :
    wp (.alone (hubHandler p) ok I) (updateSite siteId request) (fun _ _ => True) (fun _ _ => True) w := by
  simp only [updateSite, repo, wp_bind, wp_attempt, wp_okOr, wp_call_alone, wp_pure, hubHandler,
    World.read, World.write, implies_true, and_true]
  refine fun _ _ _ _ => ⟨ok_of_quiet hcall _ _ trivial, fun _ old hold => hcall _ _ (by simp [HubCall.effect]) ?_⟩
  exact (hI w h).bound _ old hold

omit hI

theorem bindSiteNodes_fits (siteId : Uuid) (raw : List SiteBindingItem) :
    wp (.alone (hubHandler p) ok I) (bindSiteNodes siteId raw) (fun _ _ => True) (fun _ _ => True) w := by
  simp only [bindSiteNodes, wp_bind, wp_attempt, implies_true, and_true]
  intro bindings hbindings
  refine wp_mono ?_ (fun _ _ h => h) (wp_forM_check (P := fun b => b.nodeId ∈ w.store.nodes) _ bindings fun b _ => ?_)
  · rintro _ _ ⟨rfl, hnodes⟩
    simp only [repo, wp_okOr, wp_call_alone, wp_pure, hubHandler, World.read, World.write, implies_true, and_true]
    refine ⟨ok_of_quiet hcall _ _ trivial, fun _ old _ => hcall _ _ (by simp [HubCall.effect]) ?_⟩
    exact wellBound_normalizeSiteBindings hbindings hnodes
  · simp only [repo, wp_bind, wp_call_alone, wp_ensure, hubHandler, World.read, implies_true, and_true]
    exact ⟨ok_of_quiet hcall _ _ trivial, fun _ hnode => ⟨trivial, Std.ExtTreeMap.mem_iff_isSome_getElem?.2 hnode⟩⟩

theorem createSite_fits (request : CreateSiteRequest) :
    wp (.alone (hubHandler p) ok I) (createSite request) (fun _ _ => True) (fun _ _ => True) w := by
  simp only [createSite, repo, wp_bind, wp_ensure, wp_attempt, wp_call_alone, wp_pure, hubHandler, World.write,
    implies_true, and_true]
  intro _ _ _ protocol _
  have hquiet : ∀ (c : HubCall) (w : World), c.Within [] → ok c w := by
    intro c w hc
    refine hcall c w (fun e => ?_) (HubCall.fits_of_within (by simp) hc _)
    rw [HubCall.Within, e] at hc
    cases hc
  refine wp_mono (fun code w₁ _ => ?_) (fun _ _ h => h)
    ((generateUniqueSiteCode_only _ _ _).safe (T := .alone (hubHandler p) ok I) hquiet w)
  exact ⟨ok_of_quiet hcall _ _ trivial, fun _ => hcall _ _ (by simp [HubCall.effect]) (.nil _)⟩

theorem deleteNode_fits (nodeId : Uuid) :
    wp (.alone (hubHandler p) ok I) (HubService.deleteNode nodeId) (fun _ _ => True) (fun _ _ => True) w := by
  simp only [HubService.deleteNode, repo, wp_bind, wp_ensure, wp_okOr, wp_call_alone, wp_pure, hubHandler, World.read,
    World.write, implies_true, and_true]
  refine ⟨ok_of_quiet hcall _ _ trivial, fun _ node _ => ⟨ok_of_quiet hcall _ _ trivial, fun _ hguard _ => ?_⟩⟩
  refine ⟨hcall _ _ (by simp [HubCall.effect]) trivial, fun _ => hcall _ _ (by simp [HubCall.effect]) ?_⟩
  exact unbound_of_guard hguard

theorem ackRelease_fits (releaseId : Uuid) (request : ReleaseAckRequest) :
    wp (.alone (hubHandler p) ok I) (ackRelease releaseId request) (fun _ _ => True) (fun _ _ => True) w := by
  simp only [ackRelease, repo, wp_bind, wp_ensure, wp_okOr, wp_forSome, wp_call_alone, wp_pure, hubHandler, World.read,
    World.write, implies_true, and_true]
  refine ⟨ok_of_quiet hcall _ _ trivial, fun _ release hrelease htarget => ⟨ok_of_quiet hcall _ _ trivial, fun _ => ?_⟩⟩
  refine ⟨hcall _ _ (by simp [HubCall.effect]) fun r hr => ?_, fun _ => ⟨ok_of_quiet hcall _ _ trivial,
    fun _ node _ => ?_⟩⟩
  · obtain rfl : release = r := Option.some.inj (hrelease.symm.trans hr)
    exact List.contains_iff_mem.1 htarget
  · exact ⟨ok_of_quiet hcall _ _ trivial, fun _ => hcall _ _ (by simp [HubCall.effect]) trivial⟩

/-- A request that writes neither sites nor releases and deletes no node. -/
theorem program_fits_of_effects {r : Request}
    (hr : ∀ e ∈ r.effects, e ∉ [Effect.saveSite, .deleteNode, .saveRelease, .releaseAck]) :
    wp (.alone (hubHandler p) ok I) (HubService.program p hub r) (fun _ _ => True) (fun _ _ => True) w := by
  refine (program_only p hub r).safe (T := .alone (hubHandler p) ok I) (fun c w hc => ?_) w
  refine hcall c w (fun e => ?_) (HubCall.fits_of_within hr hc _)
  rw [HubCall.Within, e] at hc
  exact hr _ hc (by simp)

include hI hrelease in
/-- Every request makes only calls that fit. -/
theorem program_rule (h : I w) (r : Request) :
    wp (.alone (hubHandler p) ok I) (HubService.program p hub r) (fun _ _ => True) (fun _ _ => True) w := by
  cases r with
  | deleteNode n => exact (wp_discard _).2 (deleteNode_fits hcall n)
  | createSite r => exact (wp_discard _).2 (createSite_fits hcall r)
  | updateSite s r => exact (wp_discard _).2 (updateSite_fits hI hcall h s r)
  | updateSiteStatus s e => exact (wp_discard _).2 (updateSiteStatus_fits hI hcall hrelease h s e)
  | deleteSite s => exact (wp_discard _).2 (deleteSite_fits hI hcall hrelease h s)
  | bindSiteNodes s b => exact (wp_discard _).2 (bindSiteNodes_fits hcall s b)
  | switchSitePrimary s r => exact (wp_discard _).2 (switchSitePrimary_fits hI hcall hrelease h s r)
  | createRelease r => exact (wp_discard _).2 (createRelease_fits hI hcall hrelease h r)
  | ackRelease i r => exact (wp_discard _).2 (ackRelease_fits hcall i r)
  | _ => exact program_fits_of_effects hcall (by simp [Request.effects])

end Requests

/-! ## Sequences of requests -/

section Sequences

variable {p : Platform} {hub : Hub} {I : World → Prop} (hI : ∀ w, I w → Sound w.store)
  (hstep : ∀ c w, I w → c.Fits w.store → I (hubHandler p c w).2)
include hI hstep

/-- What the calls that fit keep, a request keeps. -/
theorem serve_keeps {w : World} (h : I w) (r : Request) : I (w.serve p hub r) := by
  have hw : wp (.alone (hubHandler p) (fun c w => c.Fits w.store) I) (HubService.program p hub r) (fun _ _ => True)
      (fun _ _ => True) w :=
    program_rule hI (fun _ _ _ hc => hc) (fun _ _ _ _ hr => hr) h r
  exact (wp_run (fun c w hc hw => hstep c w hw hc) h hw).2

/-- What the calls that fit keep, a sequence of requests keeps. -/
theorem serveAll_keeps {w : World} (h : I w) (rs : List Request) : I (w.serveAll p hub rs) := by
  induction rs generalizing w with
  | nil => exact h
  | cons r rs ih => exact ih (serve_keeps hI hstep h r)

end Sequences

end PingoraMesh
