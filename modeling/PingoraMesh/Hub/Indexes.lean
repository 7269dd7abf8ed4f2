import PingoraMesh.Hub.Alone
import PingoraMesh.Lib.Index

/-!
# The secondary indexes of the store

`MemoryState` keeps six indexes beside its tables, and `Indexed` says that all of them are exact. Every request of the
hub keeps them so, with two exceptions: `update_operation_template` and `update_dns_provider` save a record under a new
name without taking the old name out of the index.

* `IndexInv` is the invariant: the six tables, identifiers drawn from the supply, and release versions with serials
  below the counter; `IndexPre` is what it asks of a save, and `IndexInv.call` the step;
* `program_wp` shows that every request that renames nothing makes only such saves;
* `indexed_iff_forall_not_renames`: the indexes are exact all along a sequence of requests if and only if none of them
  renames a template or a provider.
-/

namespace PingoraMesh

open Calls Fallible Index HubService

/-- The six indexes are exact; in particular no two records share a code, a version or a name. -/
structure Indexed (s : MemoryState) : Prop where
  nodes : Exact s.nodes s.nodeIdsByCode (·.identity.nodeCode)
  sites : Exact s.sites s.siteIdsByCode (·.siteCode)
  releases : Exact s.releases s.releaseIdsByVersion (·.releaseVersion)
  dnsProviders : Exact s.dnsProviders s.dnsProviderIdsByName (·.name)
  adminUsers : Exact s.adminUsers s.adminUserIdsByUsername (·.username)
  operationTemplates : Exact s.operationTemplates s.operationTemplateIdsByName (·.name)

/-- A version that a hub instance built with a serial it has already taken. -/
def Versioned (hub : Nat) (w : World) (version : String) : Prop :=
  ∃ scope t n, version = buildReleaseVersion scope t n ∧ n < w.serial hub

/-- The invariant of the store behind one hub instance. -/
structure IndexInv (hub : Nat) (w : World) : Prop where
  nodes : Table w.nextUuid w.store.nodes w.store.nodeIdsByCode (·.identity.nodeCode) (·.identity.id)
  sites : Table w.nextUuid w.store.sites w.store.siteIdsByCode (·.siteCode) (·.id)
  releases : Table w.nextUuid w.store.releases w.store.releaseIdsByVersion (·.releaseVersion) (·.releaseId)
  dnsProviders : Table w.nextUuid w.store.dnsProviders w.store.dnsProviderIdsByName (·.name) (·.providerId)
  adminUsers : Table w.nextUuid w.store.adminUsers w.store.adminUserIdsByUsername (·.username) (·.userId)
  operationTemplates :
    Table w.nextUuid w.store.operationTemplates w.store.operationTemplateIdsByName (·.name) (·.templateId)
  versions : ∀ (i : Uuid) r, w.store.releases[i]? = some r → Versioned hub w r.releaseVersion

theorem IndexInv.indexed {hub : Nat} {w : World} (h : IndexInv hub w) : Indexed w.store :=
  ⟨h.nodes.exact, h.sites.exact, h.releases.exact, h.dnsProviders.exact, h.adminUsers.exact,
    h.operationTemplates.exact⟩

theorem IndexInv.init (hub : Nat) : IndexInv hub World.init :=
  ⟨.empty, .empty, .empty, .empty, .empty, .empty, fun i r hi => by simp [World.init, MemoryState.empty] at hi⟩

/-- What the invariant asks of the calls that save a record under a key. -/
def IndexPre (hub : Nat) : HubCall → World → Prop
  | .saveNode node, w =>
    node.identity.id < w.nextUuid ∧
      Saves w.store.nodes w.store.nodeIdsByCode (·.identity.nodeCode) node.identity.id node
  | .saveSite site, w =>
    site.id < w.nextUuid ∧ Saves w.store.sites w.store.siteIdsByCode (·.siteCode) site.id site
  | .saveRelease release, w =>
    (release.releaseId < w.nextUuid ∧
      Saves w.store.releases w.store.releaseIdsByVersion (·.releaseVersion) release.releaseId release) ∧
      Versioned hub w release.releaseVersion
  | .saveDnsProvider provider, w =>
    provider.providerId < w.nextUuid ∧
      Saves w.store.dnsProviders w.store.dnsProviderIdsByName (·.name) provider.providerId provider
  | .saveAdminUser user, w =>
    user.userId < w.nextUuid ∧ Saves w.store.adminUsers w.store.adminUserIdsByUsername (·.username) user.userId user
  | .saveOperationTemplate template, w =>
    template.templateId < w.nextUuid ∧
      Saves w.store.operationTemplates w.store.operationTemplateIdsByName (·.name) template.templateId template
  | _, _ => True

/-! ## The step -/

section Step

variable {hub : Nat} {w : World}

/-- More identifiers have been drawn. -/
theorem IndexInv.draw (h : IndexInv hub w) (n : Nat) {w' : World} (hs : w'.store = w.store)
    (hc : w'.counters = w.counters) (hn : w'.nextUuid = w.nextUuid + n) : IndexInv hub w' := by
  have hb : w.nextUuid ≤ w'.nextUuid := by omega
  have hv : w'.serial hub = w.serial hub := by simp only [World.serial, hc]
  refine ⟨?_, ?_, ?_, ?_, ?_, ?_, fun i r hi => ?_⟩
  · exact hs ▸ h.nodes.mono hb
  · exact hs ▸ h.sites.mono hb
  · exact hs ▸ h.releases.mono hb
  · exact hs ▸ h.dnsProviders.mono hb
  · exact hs ▸ h.adminUsers.mono hb
  · exact hs ▸ h.operationTemplates.mono hb
  · obtain ⟨scope, t, n, e, hlt⟩ := h.versions i r (hs ▸ hi)
    exact ⟨scope, t, n, e, hv ▸ hlt⟩

/-- The counter of a hub instance moves on. -/
theorem IndexInv.fetchAdd (h : IndexInv hub w) (hub' : Nat) :
    IndexInv hub { w with counters := w.counters.insert hub' (w.serial hub' + 1) } := by
  refine { h with versions := fun i r hi => ?_ }
  obtain ⟨scope, t, n, e, hlt⟩ := h.versions i r hi
  refine ⟨scope, t, n, e, ?_⟩
  simp only [World.serial, Std.ExtTreeMap.getD_insert, Std.compare_eq_iff_eq] at hlt ⊢
  split
  · subst hub'
    omega
  · exact hlt

theorem IndexInv.saveRelease (h : IndexInv hub w) {release : ReleaseRecord}
    (hp : IndexPre hub (.saveRelease release) w) :
    IndexInv hub { w with store := w.store.saveRelease release } := by
  refine { h with releases := h.releases.insert hp.1.1 hp.1.2, versions := fun i r hi => ?_ }
  simp only [MemoryState.saveRelease, Std.ExtTreeMap.getElem?_insert] at hi
  split at hi
  · cases hi
    exact hp.2
  · exact h.versions i r hi

/-- Releases change, their versions and identifiers do not. -/
theorem IndexInv.mapReleases (h : IndexInv hub w) {releases : HashMap Uuid ReleaseRecord}
    (f : Uuid → ReleaseRecord → ReleaseRecord)
    (hf : ∀ i r, (f i r).releaseVersion = r.releaseVersion ∧ (f i r).releaseId = r.releaseId)
    (hr : ∀ i : Uuid, releases[i]? = w.store.releases[i]?.map (f i)) :
    IndexInv hub { w with store := { w.store with releases := releases } } := by
  refine { h with releases := h.releases.congr f hf hr, versions := fun i r hi => ?_ }
  rw [hr i] at hi
  obtain ⟨r₀, hr₀, rfl⟩ := Option.map_eq_some_iff.1 hi
  exact (hf i r₀).1 ▸ h.versions i r₀ hr₀

theorem IndexInv.deleteNode (h : IndexInv hub w) (nodeId : Uuid) :
    IndexInv hub { w with store := w.store.deleteNode nodeId } := by
  cases hn : w.store.nodes[nodeId]? with
  | none => simpa only [MemoryState.deleteNode, hn] using h
  | some node =>
    have hr := h.mapReleases (fun _ r => MemoryState.dropTarget nodeId r) (fun _ _ => ⟨rfl, rfl⟩)
      (fun i => Std.ExtTreeMap.getElem?_map)
    simp only [MemoryState.deleteNode, hn]
    exact { hr with
      nodes := h.nodes.erase hn
      sites := h.sites.map _ fun _ _ => ⟨rfl, rfl⟩ }

theorem IndexInv.deleteSite (h : IndexInv hub w) (siteId : Uuid) :
    IndexInv hub { w with store := w.store.deleteSite siteId } := by
  cases hn : w.store.sites[siteId]? with
  | none => simpa only [MemoryState.deleteSite, hn] using h
  | some site =>
    simp only [MemoryState.deleteSite, hn]
    exact { h with sites := h.sites.erase hn }

theorem IndexInv.deleteDnsProvider (h : IndexInv hub w) (providerId : Uuid) :
    IndexInv hub { w with store := w.store.deleteDnsProvider providerId } := by
  cases hn : w.store.dnsProviders[providerId]? with
  | none => simpa only [MemoryState.deleteDnsProvider, hn] using h
  | some provider =>
    simp only [MemoryState.deleteDnsProvider, hn]
    exact { h with dnsProviders := h.dnsProviders.erase hn }

theorem IndexInv.deleteOperationTemplate (h : IndexInv hub w) (templateId : Uuid) :
    IndexInv hub { w with store := w.store.deleteOperationTemplate templateId } := by
  cases hn : w.store.operationTemplates[templateId]? with
  | none => simpa only [MemoryState.deleteOperationTemplate, hn] using h
  | some template =>
    simp only [MemoryState.deleteOperationTemplate, hn]
    exact { h with operationTemplates := h.operationTemplates.erase hn }

theorem IndexInv.claimNextNodeOperation (h : IndexInv hub w) (nodeId : Uuid) (now : DateTime) (tick : Nat) :
    IndexInv hub { w with store := (w.store.claimNextNodeOperation nodeId now).2, tick := tick } := by
  unfold MemoryState.claimNextNodeOperation
  cases w.store.nextApproved nodeId with
  | none => exact { h with }
  | some o => exact { h with }

/-- Every call that `IndexPre` allows keeps the invariant. -/
theorem IndexInv.call (p : Platform) (c : HubCall) (w : World) (hp : IndexPre hub c w) (h : IndexInv hub w) :
    IndexInv hub (hubHandler p c w).2 := by
  cases c with
  | saveNode node => exact { h with nodes := h.nodes.insert hp.1 hp.2 }
  | saveSite site => exact { h with sites := h.sites.insert hp.1 hp.2 }
  | saveRelease release => exact h.saveRelease hp
  | saveDnsProvider provider => exact { h with dnsProviders := h.dnsProviders.insert hp.1 hp.2 }
  | saveAdminUser user => exact { h with adminUsers := h.adminUsers.insert hp.1 hp.2 }
  | saveOperationTemplate template => exact { h with operationTemplates := h.operationTemplates.insert hp.1 hp.2 }
  | deleteNode nodeId => exact h.deleteNode nodeId
  | deleteSite siteId => exact h.deleteSite siteId
  | deleteDnsProvider providerId => exact h.deleteDnsProvider providerId
  | deleteOperationTemplate templateId => exact h.deleteOperationTemplate templateId
  | recordHeartbeat hb => exact { h with nodes := h.nodes.modify _ _ fun _ => ⟨rfl, rfl⟩ }
  | touchAdminUserLogin userId t => exact { h with adminUsers := h.adminUsers.modify _ _ fun _ => ⟨rfl, rfl⟩ }
  | updateReleaseAck releaseId nodeId ack =>
    refine h.mapReleases (fun i r => if releaseId = i then
      { r with
        ackStatus := r.ackStatus.insert nodeId ack
        status := aggregateReleaseStatus (r.ackStatus.insert nodeId ack) } else r) (fun i r => ?_) (fun i => ?_)
    · split
      · exact ⟨rfl, rfl⟩
      · exact ⟨rfl, rfl⟩
    · rw [Std.ExtTreeMap.getElem?_modify]
      simp only [Std.compare_eq_iff_eq]
      split
      · subst i
        rfl
      · exact Option.map_id'.symm
  | claimNextNodeOperation nodeId => exact h.claimNextNodeOperation nodeId _ _
  | issueTokens nodeId ttl => exact h.draw 2 rfl rfl rfl
  | newUuid => exact h.draw 1 rfl rfl rfl
  | fetchAddReleaseCounter hub' => exact h.fetchAdd hub'
  | _ => exact { h with }

end Step

/-! ## The requests -/

/-- Running alone, with the invariant between calls. -/
abbrev indexSpec (p : Platform) (hub : Nat) : Spec hubSig World :=
  .alone (hubHandler p) (IndexPre hub) (IndexInv hub)

/-- The program makes only saves that the invariant allows. -/
def SavesWell {α : Type} (p : Platform) (hub : Nat) (x : HubM α) (w : World) : Prop :=
  wp (indexSpec p hub) x (fun _ _ => True) (fun _ _ => True) w

theorem IndexPre.of_quiet {hub : Nat} {c : HubCall} {w : World} (h : c.Quiet) : IndexPre hub c w := by
  cases c <;> first | exact h.elim | trivial

section Requests

variable {p : Platform} {hub : Nat} {w : World}

/-- A version with the next serial is free. -/
theorem IndexInv.version_free (h : IndexInv hub w) (scope : String) (t : DateTime) :
    w.store.releaseIdsByVersion[buildReleaseVersion scope t (w.serial hub)]? = none := by
  cases hv : w.store.releaseIdsByVersion[buildReleaseVersion scope t (w.serial hub)]? with
  | none => rfl
  | some i =>
    obtain ⟨r, hr, he⟩ := (h.releases.exact _ _).1 hv
    obtain ⟨scope', t', n, hn, hlt⟩ := h.versions i r hr
    have := (buildReleaseVersion_serial (he.symm.trans hn)).2
    omega

theorem IndexInv.newRelease (h : IndexInv hub w) {scope scopeType : String} {siteId : Uuid} {targets : List Uuid}
    {r : ReleaseRecord} (hr : NewRelease p hub w scope scopeType siteId targets r) :
    IndexPre hub (.saveRelease r) (w.issued hub 3) := by
  refine ⟨⟨?_, .inl ⟨?_, ?_⟩⟩, scope, _, _, hr.version, ?_⟩
  · rw [hr.releaseId]
    exact Nat.lt_succ_self _
  · rw [hr.releaseId]
    exact h.releases.fresh le_rfl
  · change w.store.releaseIdsByVersion[r.releaseVersion]? = none
    rw [hr.version]
    exact h.version_free scope _
  · rw [World.issued_serial]
    exact Nat.lt_succ_self _

/-- A record is replaced by one with its own key. -/
theorem IndexInv.resave_site (h : IndexInv hub w) {i : Uuid} {old site : SiteRecord} (hs : w.store.sites[i]? = some old)
    (hid : site.id = old.id) (hc : site.siteCode = old.siteCode) : IndexPre hub (.saveSite site) w := by
  have hi := h.sites.ident i old hs
  rw [← hid] at hi
  exact ⟨hi ▸ h.sites.bound i old hs, .inr ⟨old, hi ▸ hs, hc.symm⟩⟩

theorem IndexInv.resave_node (h : IndexInv hub w) {i : Uuid} {old node : NodeRecord}
    (hn : w.store.nodes[i]? = some old) (hid : node.identity.id = old.identity.id)
    (hc : node.identity.nodeCode = old.identity.nodeCode) : IndexPre hub (.saveNode node) w := by
  have hi := h.nodes.ident i old hn
  rw [← hid] at hi
  exact ⟨hi ▸ h.nodes.bound i old hn, .inr ⟨old, hi ▸ hn, hc.symm⟩⟩

theorem saveSiteRelease_keeps (h : IndexInv hub w) (site : SiteRecord) (releaseType reason : String) :
    wp (indexSpec p hub) (saveSiteRelease p hub site releaseType reason)
      (fun _ w' => IndexInv hub w' ∧ w'.store.sites = w.store.sites) (fun _ _ => True) w := by
  refine saveSiteRelease_rule (fun c w' hc => .of_quiet hc) (fun _ => trivial) (fun _ => trivial) fun r hr => ?_
  exact ⟨h.newRelease hr, fun hi _ _ => ⟨hi, rfl⟩⟩

theorem saveSiteCleanupRelease_keeps (h : IndexInv hub w) (site : SiteRecord) (detached : List Uuid)
    (reason : String) :
    wp (indexSpec p hub) (saveSiteCleanupRelease p hub site detached reason)
      (fun _ w' => IndexInv hub w' ∧ w'.store.sites = w.store.sites) (fun _ _ => True) w := by
  refine saveSiteCleanupRelease_rule (fun c w' hc => .of_quiet hc) (fun _ _ => trivial) fun r hr => ?_
  exact ⟨h.newRelease hr, fun hi _ _ => ⟨hi, rfl⟩⟩

theorem createRelease_keeps (h : IndexInv hub w) (request : CreateReleaseRequest) :
    SavesWell p hub (createRelease p hub request) w := by
  simp only [SavesWell, createRelease, detachedNodeIdsForSite, repo, wp_bind, wp_ensure, wp_okOr, wp_call_alone,
    wp_pure, hubHandler, World.read, implies_true, and_true, IndexPre, true_and]
  intro _ _ site hsite _ _
  refine wp_mono (fun _ w₁ h₁ => ?_) (fun _ _ he => he)
    (wp_onlyIf_of (saveSiteRelease_keeps h site request.releaseType request.reason) ⟨h, rfl⟩)
  refine wp_mono (fun _ w₂ h₂ => ?_) (fun _ _ he => he)
    (wp_onlyIf_of (saveSiteCleanupRelease_keeps h₁.1 site _ request.reason) ⟨h₁.1, rfl⟩)
  rw [← h₁.2, ← h₂.2] at hsite
  exact h₂.1.resave_site hsite rfl rfl

theorem updateSiteStatus_keeps (h : IndexInv hub w) (siteId : Uuid) (enabled : Bool) :
    SavesWell p hub (updateSiteStatus p hub siteId enabled) w := by
  simp only [SavesWell, updateSiteStatus, repo, wp_bind, wp_okOr, wp_call_alone, wp_pure, hubHandler, World.read,
    World.write, implies_true, and_true, IndexPre, true_and]
  intro _ old hold
  refine ⟨h.resave_site hold rfl rfl, fun h₁ => ?_⟩
  exact wp_mono (fun _ _ _ => trivial) (fun _ _ he => he) (wp_onlyIf_of (saveSiteRelease_keeps h₁ _ _ _) ⟨h₁, rfl⟩)

theorem deleteSite_keeps (h : IndexInv hub w) (siteId : Uuid) :
    SavesWell p hub (HubService.deleteSite p hub siteId) w := by
  simp only [SavesWell, HubService.deleteSite, repo, wp_bind, wp_okOr, wp_call_alone, wp_pure, hubHandler, World.read,
    implies_true, and_true, IndexPre, true_and]
  intro _ site hsite
  exact wp_mono (fun _ _ _ => trivial) (fun _ _ he => he)
    (wp_onlyIf_of (saveSiteCleanupRelease_keeps h site _ _) ⟨h, rfl⟩)

theorem switchSitePrimary_keeps (h : IndexInv hub w) (siteId : Uuid) (request : SwitchSitePrimaryRequest) :
    SavesWell p hub (switchSitePrimary p hub siteId request) w := by
  simp only [SavesWell, switchSitePrimary, repo, wp_bind, wp_okOr, wp_ensure, wp_call_alone, wp_pure, wp_forSome,
    hubHandler, World.read, World.write, implies_true, and_true]
  refine ⟨trivial, fun _ old hold _ => chooseSwitchTarget_rule (fun _ _ => .of_quiet) (fun target _ _ _ => ?_)
    fun _ => trivial⟩
  refine ⟨h.resave_site hold rfl rfl, fun h₁ => ⟨fun standby _ => ⟨trivial, fun h₂ => ?_⟩, fun _ => ?_⟩⟩
  · exact createRelease_keeps h₂ _
  · exact createRelease_keeps h₁ _

/-- The loop over candidate codes only reads, and ends with a code that is free. -/
theorem siteCodeLoop_keeps (base : String) (fuel suffix : Nat) (candidate : String) :
    wp (indexSpec p hub) (siteCodeLoop base fuel suffix candidate)
      (fun code w' => w' = w ∧ w.store.siteIdsByCode[code]? = none) (fun _ _ => True) w := by
  induction fuel generalizing suffix candidate with
  | zero => exact (wp_throw _).2 trivial
  | succ fuel ih =>
    simp only [siteCodeLoop, repo, wp_bind, wp_call_alone, hubHandler, World.read]
    refine ⟨trivial, fun _ => ?_⟩
    cases hc : w.store.siteIdsByCode[candidate]? with
    | none => exact (wp_pure _).2 ⟨rfl, hc⟩
    | some i => exact ih _ _

theorem createSite_keeps (h : IndexInv hub w) (request : CreateSiteRequest) :
    SavesWell p hub (createSite request) w := by
  simp only [SavesWell, createSite, generateUniqueSiteCode, repo, wp_bind, wp_ensure, wp_attempt, wp_getOr,
    wp_call_alone, wp_pure, hubHandler, World.write, implies_true, and_true]
  intro _ _ _ protocol _
  have hloop : ∀ w₁ base, IndexInv hub w₁ → wp (indexSpec p hub) (siteCodeLoop base 4294967295 1 base)
      (fun code w' => IndexPre hub .newUuid w' ∧ (IndexInv hub { w' with nextUuid := w'.nextUuid + 1 } →
        IndexPre hub (.saveSite
          { id := w'.nextUuid, siteCode := code, name := request.name, domain := request.domain
            listenPort := request.listenPort, protocol := protocol, tlsEnabled := request.tlsEnabled, status := .draft
            version := 1, config := request.config, bindings := [] }) { w' with nextUuid := w'.nextUuid + 1 }))
      (fun _ _ => True) w₁ := by
    intro w₁ base h₁
    refine wp_mono ?_ (fun _ _ he => he) (siteCodeLoop_keeps base _ _ _)
    rintro code _ ⟨rfl, hcode⟩
    exact ⟨trivial, fun _ => ⟨Nat.lt_succ_self _, .inl ⟨h₁.sites.fresh le_rfl, hcode⟩⟩⟩
  exact ⟨fun base _ => hloop w base h, fun _ => ⟨trivial, fun h₁ => hloop _ _ h₁⟩⟩

theorem updateSite_keeps (h : IndexInv hub w) (siteId : Uuid) (request : UpdateSiteRequest) :
    SavesWell p hub (updateSite siteId request) w := by
  simp only [SavesWell, updateSite, repo, wp_bind, wp_attempt, wp_okOr, wp_call_alone, wp_pure, hubHandler, World.read,
    implies_true, and_true]
  exact fun protocol _ _ _ => ⟨trivial, fun _ old hold => h.resave_site hold rfl rfl⟩

theorem bindSiteNodes_keeps (h : IndexInv hub w) (siteId : Uuid) (raw : List SiteBindingItem) :
    SavesWell p hub (bindSiteNodes siteId raw) w := by
  simp only [SavesWell, bindSiteNodes, wp_bind, wp_attempt, implies_true, and_true]
  intro bindings _
  refine wp_mono ?_ (fun _ _ he => he) (wp_forM _ bindings (I := fun w' => w' = w) (fun b _ w' hw => ?_) rfl)
  · rintro _ _ rfl
    simp only [repo, wp_okOr, wp_call_alone, wp_pure, hubHandler, World.read, implies_true, and_true]
    exact ⟨trivial, fun _ old hold => h.resave_site hold rfl rfl⟩
  · subst hw
    simp only [repo, wp_bind, wp_call_alone, wp_ensure, hubHandler, World.read, implies_true, and_true]
    trivial

theorem ackRelease_keeps (h : IndexInv hub w) (releaseId : Uuid) (request : ReleaseAckRequest) :
    SavesWell p hub (ackRelease releaseId request) w := by
  simp only [SavesWell, ackRelease, repo, wp_bind, wp_okOr, wp_ensure, wp_call_alone, wp_pure, wp_forSome, hubHandler,
    World.read, World.write, implies_true, and_true]
  refine ⟨trivial, fun _ release _ _ => ⟨trivial, fun _ => ⟨trivial, fun _ => ⟨trivial, fun h₁ node hnode =>
    ⟨trivial, fun _ => ?_⟩⟩⟩⟩⟩
  exact h.resave_node hnode rfl rfl

theorem createNode_keeps (h : IndexInv hub w) (request : CreateNodeRequest) :
    SavesWell p hub (createNode p request) w := by
  simp only [SavesWell, createNode, repo, wp_bind, wp_ensure, wp_call_alone, wp_pure, hubHandler, World.read,
    implies_true, and_true]
  refine fun _ => ⟨trivial, fun _ hcode => ⟨trivial, fun _ => ⟨trivial, fun _ => ?_⟩⟩⟩
  exact ⟨Nat.lt_succ_of_lt (Nat.lt_succ_self _), .inl ⟨h.nodes.fresh le_rfl, Option.isNone_iff_eq_none.1 hcode⟩⟩

theorem registerNode_keeps (request : NodeRegisterRequest) :
    SavesWell p hub (registerNode p request) w := by
  simp only [SavesWell, registerNode, issueNodeTokens, repo, wp_bind, wp_okOr, wp_ensure, wp_call_alone, wp_pure,
    hubHandler, World.read, implies_true, and_true]
  refine ⟨trivial, fun _ nodeId _ => ⟨trivial, fun _ node hnode _ _ _ => ⟨trivial, fun h₁ => ⟨trivial, fun h₂ => ?_⟩⟩⟩⟩
  exact h₂.resave_node hnode rfl rfl

theorem createOperationTemplate_keeps (h : IndexInv hub w) (request : CreateOperationTemplateRequest) :
    SavesWell p hub (createOperationTemplate p request) w := by
  simp only [SavesWell, createOperationTemplate, repo, wp_bind, wp_attempt, wp_call_alone, wp_getOr, wp_pure,
    hubHandler, World.read, implies_true, and_true]
  refine fun checked _ params _ => ⟨trivial, fun _ => ?_⟩
  have hl := h.operationTemplates.exact.lookup checked.1
  rw [← MemoryState.operationTemplateByName] at hl
  cases hn : w.store.operationTemplateByName checked.1 with
  | none =>
    simp only [Option.map_none, reduceCtorEq, false_implies, implies_true, true_and, forall_const]
    exact ⟨trivial, fun _ => ⟨trivial, fun _ => ⟨Nat.lt_succ_self _,
      .inl ⟨h.operationTemplates.fresh le_rfl, hl.2 hn⟩⟩⟩⟩
  | some old =>
    simp only [Option.map_some, Option.some.injEq, forall_eq', reduceCtorEq, false_implies, and_true]
    obtain ⟨i, hi, hname⟩ := hl.1 old hn
    have hid := h.operationTemplates.ident i old hi
    exact ⟨hid ▸ h.operationTemplates.bound i old hi, .inr ⟨old, hid ▸ hi, hname⟩⟩

theorem createDnsProvider_keeps (h : IndexInv hub w) (request : CreateDnsProviderRequest) :
    SavesWell p hub (createDnsProvider request) w := by
  simp only [SavesWell, createDnsProvider, repo, wp_bind, wp_attempt, wp_ensure, wp_call_alone, wp_pure, hubHandler,
    World.read, implies_true, and_true]
  refine fun _ _ => ⟨trivial, fun _ hn => ⟨trivial, fun _ => ⟨trivial, fun _ => ⟨Nat.lt_succ_self _, .inl ⟨?_, ?_⟩⟩⟩⟩⟩
  · exact h.dnsProviders.fresh le_rfl
  · exact (h.dnsProviders.exact.lookup request.name).2 (Option.isNone_iff_eq_none.1 hn)

theorem ensureAdminUser_keeps (h : IndexInv hub w) (username displayName rawPassword : String) :
    SavesWell p hub (ensureAdminUser username displayName rawPassword) w := by
  simp only [SavesWell, ensureAdminUser, hashPassword, repo, wp_bind, wp_attempt, wp_ensure, wp_onlyIf, wp_call_alone,
    wp_pure, hubHandler, World.read, implies_true, and_true]
  refine fun name _ => ⟨trivial, fun _ hn => ⟨trivial, fun _ _ => ⟨trivial, fun _ _ _ => ⟨trivial, fun _ =>
    ⟨Nat.lt_succ_self _, .inl ⟨?_, ?_⟩⟩⟩⟩⟩⟩
  · exact h.adminUsers.fresh le_rfl
  · exact (h.adminUsers.exact.lookup name).2 (Option.isNone_iff_eq_none.1 hn)

theorem authorizeAdminSession_keeps (token : String) :
    wp (indexSpec p hub) (authorizeAdminSession p token) (fun _ w' => IndexInv hub w') (fun _ _ => True) w := by
  simp only [authorizeAdminSession, repo, wp_bind, wp_okOr, wp_ensure, wp_call_alone, wp_pure, implies_true, and_true]
  exact fun _ => ⟨trivial, fun _ _ _ _ => ⟨trivial, fun _ _ => ⟨trivial, fun _ => ⟨trivial, fun h => h⟩⟩⟩⟩

theorem changeAdminPassword_keeps (token : String) (request : ChangeAdminPasswordRequest) :
    SavesWell p hub (changeAdminPassword p token request) w := by
  unfold SavesWell changeAdminPassword
  rw [wp_bind]
  refine wp_mono (fun session w' h => ?_) (fun _ _ he => he) (authorizeAdminSession_keeps token)
  simp only [hashPassword, repo, wp_bind, wp_attempt, wp_ensure, wp_okOr, wp_call_alone,
    wp_pure, hubHandler, World.read, implies_true, and_true]
  refine fun _ _ _ => ⟨trivial, fun _ user huser _ _ _ _ => ⟨trivial, fun _ _ _ => ⟨?_, fun _ => trivial⟩⟩⟩
  obtain ⟨i, hi, hname⟩ := (h.adminUsers.exact.lookup session.username).1 user huser
  have hid := h.adminUsers.ident i user hi
  exact ⟨hid ▸ h.adminUsers.bound i user hi, .inr ⟨user, hid ▸ hi, rfl⟩⟩

end Requests

/-! ## Renames -/

/-- A request that saves a template or a provider under a name it did not have. -/
def Renames (p : Platform) (s : MemoryState) : Request → Prop
  | .updateOperationTemplate templateId request =>
    ∃ old checked params, s.operationTemplates[templateId]? = some old ∧ checkTemplateRequest p request = .ok checked ∧
      normalizeAllowedParams request.allowedParams = .ok params ∧ s.operationTemplateByName checked.1 = none ∧
      old.name ≠ checked.1
  | .updateDnsProvider providerId request =>
    ∃ old, s.dnsProviders[providerId]? = some old ∧ validateDnsProviderType request.providerType = .ok () ∧
      s.dnsProviderByName request.name = none ∧ old.name ≠ request.name
  | _ => False

section Updates

variable {p : Platform} {hub : Nat} {w : World}

theorem updateOperationTemplate_keeps (h : IndexInv hub w) (templateId : Uuid)
    (request : CreateOperationTemplateRequest)
      (hr : ¬ Renames p w.store (.updateOperationTemplate templateId request)) :
    SavesWell p hub (updateOperationTemplate p templateId request) w := by
  simp only [SavesWell, updateOperationTemplate, repo, wp_bind, wp_attempt, wp_ensure, wp_okOr, wp_call_alone, wp_pure,
    hubHandler, World.read, implies_true, and_true]
  refine ⟨trivial, fun _ old hold checked hc => ⟨trivial, fun _ hdup params hparams => ?_⟩⟩
  refine ⟨h.operationTemplates.bound templateId old hold, .inr ⟨old, hold, ?_⟩⟩
  have hl := h.operationTemplates.exact.lookup checked.1
  rw [← MemoryState.operationTemplateByName] at hl
  cases hn : w.store.operationTemplateByName checked.1 with
  | none =>
    by_contra hname
    exact hr ⟨old, checked, params, hold, hc, hparams, hn, hname⟩
  | some dup =>
    -- the name is taken, and the check lets it pass only if it is this template's own
    obtain ⟨i, hi, hname⟩ := hl.1 dup hn
    rw [hn, Option.all_some, beq_iff_eq, h.operationTemplates.ident i dup hi] at hdup
    rw [hdup, hold] at hi
    cases hi
    exact hname

theorem updateDnsProvider_keeps (h : IndexInv hub w) (providerId : Uuid) (request : CreateDnsProviderRequest)
    (hr : ¬ Renames p w.store (.updateDnsProvider providerId request)) :
    SavesWell p hub (updateDnsProvider providerId request) w := by
  simp only [SavesWell, updateDnsProvider, repo, wp_bind, wp_attempt, wp_ensure, wp_okOr, wp_call_alone, wp_pure,
    hubHandler, World.read, implies_true, and_true]
  refine fun _ hv => ⟨trivial, fun _ old hold => ⟨trivial, fun _ hdup => ?_⟩⟩
  refine ⟨h.dnsProviders.bound providerId old hold, .inr ⟨old, hold, ?_⟩⟩
  have hl := h.dnsProviders.exact.lookup request.name
  rw [← MemoryState.dnsProviderByName] at hl
  cases hn : w.store.dnsProviderByName request.name with
  | none =>
    by_contra hname
    exact hr ⟨old, hold, hv, hn, hname⟩
  | some dup =>
    obtain ⟨i, hi, hname⟩ := hl.1 dup hn
    rw [hn, Option.all_some, beq_iff_eq, h.dnsProviders.ident i dup hi] at hdup
    rw [hdup, hold] at hi
    cases hi
    exact hname

theorem operationOverviews_keeps (os : List NodeOperationRecord) (w : World) :
    wp (indexSpec p hub) (operationOverviews os) (fun _ _ => True) (fun _ _ => True) w := by
  induction os generalizing w with
  | nil => exact (wp_pure _).2 trivial
  | cons o os ih => simp [operationOverviews, ih, repo, IndexPre]

theorem syncZones_keeps (providerId : Uuid) (infos : List ProviderZone) (w : World) :
    wp (indexSpec p hub) (syncZones providerId infos) (fun _ _ => True) (fun _ _ => True) w := by
  induction infos generalizing w with
  | nil => exact (wp_pure _).2 trivial
  | cons info infos ih => simp [syncZones, ih, repo, IndexPre]

theorem issueCertificateOrder_keeps (siteId certificateId : Option Uuid) (commonName : String) (sans : List String)
    (zoneId : Uuid) (zoneName acmeProvider orderType : String) (w : World) :
    wp (indexSpec p hub)
      (issueCertificateOrder siteId certificateId commonName sans zoneId zoneName acmeProvider orderType)
      (fun _ _ => True) (fun _ _ => True) w := by
  simp [issueCertificateOrder, orderCertificate, repo, IndexPre]

theorem createCertificateOrder_keeps (request : CreateCertificateOrderRequest) :
    SavesWell p hub (createCertificateOrder request) w := by
  unfold SavesWell createCertificateOrder
  cases request.siteId with
  | none => simp [requestedSite, issueCertificateOrder_keeps, repo, IndexPre]
  | some siteId => simp [requestedSite, issueCertificateOrder_keeps, repo, IndexPre]

/-- Every request that renames nothing makes only saves that the invariant allows. -/
theorem program_wp {hub : Hub} (h : IndexInv hub.id w) {r : Request} (hr : ¬ Renames p w.store r) :
    SavesWell p hub.id (HubService.program p hub r) w := by
  unfold SavesWell
  cases r with
  | ensureAdminUser u d r => exact (wp_discard _).2 (ensureAdminUser_keeps h u d r)
  | changeAdminPassword t r => exact (wp_discard _).2 (changeAdminPassword_keeps t r)
  | authorizeAdminSession t =>
    exact (wp_discard _).2 (wp_mono (fun _ _ _ => trivial) (fun _ _ he => he) (authorizeAdminSession_keeps t))
  | createNode r => exact (wp_discard _).2 (createNode_keeps h r)
  | registerNode r => exact (wp_discard _).2 (registerNode_keeps r)
  | createOperationTemplate r => exact (wp_discard _).2 (createOperationTemplate_keeps h r)
  | updateOperationTemplate i r => exact (wp_discard _).2 (updateOperationTemplate_keeps h i r hr)
  | createSite r => exact (wp_discard _).2 (createSite_keeps h r)
  | updateSite s r => exact (wp_discard _).2 (updateSite_keeps h s r)
  | updateSiteStatus s e => exact (wp_discard _).2 (updateSiteStatus_keeps h s e)
  | deleteSite s => exact (wp_discard _).2 (deleteSite_keeps h s)
  | bindSiteNodes s b => exact (wp_discard _).2 (bindSiteNodes_keeps h s b)
  | switchSitePrimary s r => exact (wp_discard _).2 (switchSitePrimary_keeps h s r)
  | createRelease r => exact (wp_discard _).2 (createRelease_keeps h r)
  | ackRelease i r => exact (wp_discard _).2 (ackRelease_keeps h i r)
  | createDnsProvider r => exact (wp_discard _).2 (createDnsProvider_keeps h r)
  | updateDnsProvider i r => exact (wp_discard _).2 (updateDnsProvider_keeps (p := p) h i r hr)
  | loginAdmin r => simp [HubService.program, loginAdmin, repo, IndexPre]
  | logoutAdmin t => simp [HubService.program, logoutAdmin, repo, wp_onlyIf, IndexPre]
  | listNodes => simp [HubService.program, HubService.listNodes, repo, IndexPre]
  | nodeDetail n => simp [HubService.program, nodeDetail, repo, IndexPre]
  | deleteNode n => simp [HubService.program, HubService.deleteNode, repo, IndexPre]
  | deleteOperationTemplate i => simp [HubService.program, HubService.deleteOperationTemplate, repo, IndexPre]
  | listOperationTemplates => simp [HubService.program, HubService.listOperationTemplates, repo, IndexPre]
  | createNodeOperation n r b => simp [HubService.program, createNodeOperation, repo, IndexPre]
  | listNodeOperations n =>
    simp [HubService.program, HubService.listNodeOperations, operationOverviews_keeps, repo, IndexPre]
  | refreshNodeToken r => simp [HubService.program, refreshNodeToken, issueNodeTokens, repo, IndexPre]
  | authorizeNode n t => simp [HubService.program, authorizeNode, repo, IndexPre]
  | claimNextNodeOperation n => simp [HubService.program, HubService.claimNextNodeOperation, repo, IndexPre]
  | reportNodeOperationResult o r => simp [HubService.program, reportNodeOperationResult, repo, IndexPre]
  | nodeHeartbeat r => simp [HubService.program, nodeHeartbeat, repo, IndexPre]
  | listSites => simp [HubService.program, HubService.listSites, repo, IndexPre]
  | siteDetail s => simp [HubService.program, siteDetail, repo, IndexPre]
  | renewSiteCertificate s => simp [HubService.program, renewSiteCertificate,
    issueCertificateOrder_keeps, repo, IndexPre]
  | listReleases => simp [HubService.program, HubService.listReleases, repo, IndexPre]
  | latestReleaseForNode n => simp [HubService.program, latestReleaseForNode, repo, IndexPre]
  | configPackageForNode n v => simp [HubService.program, configPackageForNode, repo, IndexPre]
  | deleteDnsProvider i => simp [HubService.program, HubService.deleteDnsProvider, repo, IndexPre]
  | listDnsProviders => simp [HubService.program, HubService.listDnsProviders, repo, IndexPre]
  | syncDnsZones r => simp [HubService.program, syncDnsZones, syncZones_keeps, repo, IndexPre]
  | listDnsZones => simp [HubService.program, HubService.listDnsZones, repo, IndexPre]
  | updateDnsZoneStatus z e => simp [HubService.program, updateDnsZoneStatus, repo, IndexPre]
  | deleteDnsZone z => simp [HubService.program, HubService.deleteDnsZone, repo, IndexPre]
  | createCertificateOrder r => exact (wp_discard _).2 (createCertificateOrder_keeps r)
  | listCertificateOrders => simp [HubService.program, HubService.listCertificateOrders, repo, IndexPre]
  | retryCertificateOrder o => simp [HubService.program, retryCertificateOrder, requeueCertificateOrder, repo, IndexPre]
  | resetCertificateOrder o => simp [HubService.program, resetCertificateOrder, requeueCertificateOrder, repo, IndexPre]

end Updates

/-! ## Sequences of requests -/

section Sequences

variable (p : Platform) (hub : Hub)

/-- None of the requests renames a template or a provider in the store it meets. -/
def NoRename : World → List Request → Prop
  | _, [] => True
  | w, r :: rs => ¬ Renames p w.store r ∧ NoRename (w.serve p hub r) rs

variable {p hub} {w : World}

/-- A request that renames nothing keeps the invariant. -/
theorem IndexInv.serve (h : IndexInv hub.id w) {r : Request} (hr : ¬ Renames p w.store r) :
    IndexInv hub.id (w.serve p hub r) :=
  (wp_run (IndexInv.call p) h (program_wp h hr)).2

/-- The postcondition of a request that runs alone, when it cannot fail. -/
theorem serve_post (p : Platform) (hub : Hub) (w : World) (r : Request) (Q : World → Prop)
    (hw : wp (.alone (hubHandler p) (fun _ _ => True) (fun _ => True)) (HubService.program p hub r) (fun _ w' => Q w')
      (fun _ _ => False) w) : Q (w.serve p hub r) := by
  have := (wp_run (fun _ _ _ _ => trivial) trivial hw).1
  unfold World.serve
  generalize Fallible.run (hubHandler p) (HubService.program p hub r) w = out at this ⊢
  obtain ⟨res, w'⟩ := out
  cases res with
  | ok a => exact this
  | error e => exact this.elim

/-- A rename leaves the old name in the index. -/
theorem not_indexed_of_renames (h : Indexed w.store) {r : Request} (hr : Renames p w.store r) :
    ¬ Indexed (w.serve p hub r).store := by
  cases r with
  | updateOperationTemplate templateId request =>
    obtain ⟨old, checked, params, hold, hc, hparams, hn, hname⟩ := hr
    obtain ⟨t, ht, hid, hs⟩ := serve_post p hub w (.updateOperationTemplate templateId request)
      (fun w' => ∃ t : OperationTemplateRecord, t.name = checked.1 ∧ t.templateId = templateId ∧
        w'.store = w.store.saveOperationTemplate t) (by
      simp only [HubService.program, updateOperationTemplate, repo, hubHandler, World.read, World.write, wp_discard,
        wp_bind, wp_call_alone, wp_okOr, wp_attempt, wp_ensure, wp_pure, hold, hc, hparams]
      simp only [Option.some.injEq, Except.ok.injEq, forall_eq', hn, Option.all_none, reduceCtorEq, false_implies,
        implies_true, and_true, true_and, forall_const]
      exact ⟨_, rfl, rfl, rfl⟩)
    intro hx
    have hx := hx.operationTemplates
    rw [hs] at hx
    simp only [MemoryState.saveOperationTemplate, hid] at hx
    exact not_exact_insert_of_rename h.operationTemplates hold (ht ▸ hname) hx
  | updateDnsProvider providerId request =>
    obtain ⟨old, hold, hv, hn, hname⟩ := hr
    obtain ⟨d, hd, hid, hs⟩ := serve_post p hub w (.updateDnsProvider providerId request)
      (fun w' => ∃ d : DnsProviderRecord, d.name = request.name ∧ d.providerId = providerId ∧
        w'.store = w.store.saveDnsProvider d) (by
      simp only [HubService.program, updateDnsProvider, repo, hubHandler, World.read, World.write, wp_discard, wp_bind,
        wp_call_alone, wp_okOr, wp_attempt, wp_ensure, wp_pure, hold, hv, hn]
      simp only [Option.some.injEq, forall_eq', Option.all_none, reduceCtorEq, false_implies, implies_true, and_true,
        true_and, forall_const]
      exact ⟨_, rfl, rfl, rfl⟩)
    intro hx
    have hx := hx.dnsProviders
    rw [hs] at hx
    simp only [MemoryState.saveDnsProvider, hid] at hx
    exact not_exact_insert_of_rename h.dnsProviders hold (hd ▸ hname) hx
  | _ => exact hr.elim

/-- From an exact store, the indexes are exact after every prefix of a sequence of requests if and only if no request
renames. -/
theorem IndexInv.forall_prefix_iff (h : IndexInv hub.id w) (rs : List Request) :
    (∀ pre, pre <+: rs → Indexed (w.serveAll p hub pre).store) ↔ NoRename p hub w rs :=
  World.forall_prefix_iff (I := IndexInv hub.id) (fun _ => trivial) (fun _ _ _ => Iff.rfl) (fun _ hw => hw.indexed)
    (fun _ _ hw hr => not_indexed_of_renames hw.indexed hr) (fun _ _ hw hr => hw.serve hr) h rs

end Sequences

/-- Over every sequence of requests to a hub on an empty store: the six indexes are exact after each of them if and
only if none of them saves a template or a provider under a new name. -/
theorem indexed_iff_forall_not_renames (p : Platform) (hub : Hub) (rs : List Request) :
    (∀ pre, pre <+: rs → Indexed (World.init.serveAll p hub pre).store) ↔ NoRename p hub World.init rs :=
  (IndexInv.init hub.id).forall_prefix_iff rs

/-- Renaming the template `reload` to `restart` leaves `reload` in the index. -/
theorem rename_leaves_stale_entry :
    ¬ Indexed (World.init.serveAll .plain ⟨0, 30⟩ [.createOperationTemplate (templateRequest "reload"),
      .updateOperationTemplate 0 (templateRequest "restart")]).store := by
  intro h
  obtain ⟨t, ht, hname⟩ := (h.operationTemplates "reload" 0).1 (by decide)
  have hs : (World.init.serveAll .plain ⟨0, 30⟩ [.createOperationTemplate (templateRequest "reload"),
      .updateOperationTemplate 0 (templateRequest "restart")]).store.operationTemplates[0]?.map
        OperationTemplateRecord.name = some "restart" := by decide +kernel
  rw [ht] at hs
  exact absurd (hname.symm.trans (Option.some.inj hs)) (by decide)

end PingoraMesh
