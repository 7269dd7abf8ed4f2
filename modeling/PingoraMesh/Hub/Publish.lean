import PingoraMesh.Hub.Cleanup

/-!
# Stored sites can be published

A site is published if its configuration validates and its domain is not blank. `create_site` asks for both,
`update_site` for the first only.

* `SitesReady.serve`: a request keeps every stored site ready, unless it is an update that leaves the domain blank;
* `program_ready`: with the sites ready, a request that publishes fails for no want of a valid configuration or of a
  bundle;
* `stored_sites_publishable`: so it is after every run without such an update;
* `blank_domain_unpublishable`: an update with a blank domain leaves a bound site that cannot be published.
-/

namespace PingoraMesh

open Calls Fallible HubService

/-! ## Sites that are ready -/

/-- The site is one that `save_site_release` compiles. -/
def SiteRecord.Compiles (site : SiteRecord) : Prop :=
  (validateSiteConfig site.config).isOk = true ∧ Text.isEmpty (Text.trim site.domain) = false

instance (site : SiteRecord) : Decidable site.Compiles := inferInstanceAs (Decidable (_ ∧ _))

/-- The configuration validates, and the site compiles to a bundle, whatever the release. -/
def SiteRecord.Publishable (site : SiteRecord) : Prop :=
  validateSiteConfig site.config = .ok () ∧
    ∀ lower certificates targets version id now,
      (compileSiteBundle (site.toSpec lower) certificates targets version id now).isOk = true

theorem isOk_iff {ε : Type} {x : Except ε Unit} : x.isOk = true ↔ x = .ok () := by
  cases x with
  | error e => exact ⟨nofun, nofun⟩
  | ok a => exact ⟨fun _ => rfl, fun _ => rfl⟩

theorem exists_of_isOk {ε α : Type} {x : Except ε α} (h : x.isOk = true) : ∃ a, x = .ok a := by
  cases x with
  | error e => cases h
  | ok a => exact ⟨a, rfl⟩

/-- A bundle is refused only for a blank domain. -/
theorem compileSiteBundle_error {site : SiteRecord} {lower : String → String} {certificates : List CertificateRef}
    {targets : List ReleaseTarget} {version : String} {id : Uuid} {now : DateTime} {e : AppError}
    (h : internalError (compileSiteBundle (site.toSpec lower) certificates targets version id now) = .error e) :
    Text.isEmpty (Text.trim site.domain) = true := by
  unfold compileSiteBundle at h
  split at h
  · assumption
  · cases h

/-- A bundle is made for a domain that is not blank. -/
theorem compileSiteBundle_ok {site : SiteRecord} {lower : String → String} {certificates : List CertificateRef}
    {targets : List ReleaseTarget} {version : String} {id : Uuid} {now : DateTime} {bundle : CompiledConfigBundle}
    (h : internalError (compileSiteBundle (site.toSpec lower) certificates targets version id now) = .ok bundle) :
    Text.isEmpty (Text.trim site.domain) = false := by
  unfold compileSiteBundle at h
  split at h
  · cases h
  · exact Bool.eq_false_iff.2 (by assumption)

theorem SiteRecord.publishable_iff {site : SiteRecord} : site.Publishable ↔ site.Compiles := by
  unfold SiteRecord.Publishable SiteRecord.Compiles
  rw [isOk_iff]
  refine and_congr_right fun _ => ⟨fun h => ?_, fun h lower certificates targets version id now => ?_⟩
  · obtain ⟨bundle, hb⟩ := exists_of_isOk (h Text.toAsciiLowercase [] [] "" 0 0)
    have hok : internalError (compileSiteBundle (site.toSpec Text.toAsciiLowercase) [] [] "" 0 0) = .ok bundle := by
      rw [hb]
      rfl
    exact compileSiteBundle_ok hok
  · have hdomain : Text.isEmpty (Text.trim (site.toSpec lower).domain) = false := h
    unfold compileSiteBundle
    rw [if_neg (Bool.eq_false_iff.1 hdomain)]
    rfl

/-- The site can be published, and cleaned up. -/
def SiteRecord.Ready (site : SiteRecord) : Prop := site.Compiles ∧ Text.Visible site.siteCode

/-- Every stored site is ready. -/
def SitesReady (w : World) : Prop := ∀ (k : Uuid) (site : SiteRecord), w.store.sites[k]? = some site → site.Ready

/-- A call saves no site that is not ready. -/
def HubCall.SavesReady : HubCall → Prop
  | .saveSite record => record.Ready
  | _ => True

theorem SitesReady.init : SitesReady World.init := by
  intro k site hk
  simp [World.init, MemoryState.empty] at hk

theorem HubCall.savesReady_of_within {es : List Effect} (hes : Effect.saveSite ∉ es) {c : HubCall}
    (hc : c.Within es) : c.SavesReady := by
  cases c with
  | saveSite site => exact absurd hc hes
  | _ => exact trivial

/-- A call that saves no other sites keeps them ready. -/
theorem SitesReady.call {p : Platform} {w : World} (h : SitesReady w) {c : HubCall} (hc : c.SavesReady) :
    SitesReady (hubHandler p c w).2 := by
  by_cases he : ∀ e ∈ c.effect, e ∉ [Effect.saveSite, .deleteSite, .deleteNode]
  · unfold SitesReady
    rw [sites_of_effect he]
    exact h
  · intro k site hk
    cases c with
    | saveSite s =>
      rcases Maps.getElem?_insert_eq_some hk with ⟨-, rfl⟩ | ⟨-, hk⟩
      · exact hc
      · exact h k site hk
    | deleteSite siteId =>
      simp only [hubHandler, World.write, MemoryState.deleteSite] at hk
      split at hk
      · exact h k site hk
      · exact h k site (Maps.getElem?_erase_eq_some hk).2
    | deleteNode nodeId =>
      simp only [hubHandler, World.write, MemoryState.deleteNode] at hk
      split at hk
      · exact h k site hk
      · obtain ⟨old, hold, rfl⟩ := Maps.getElem?_map_eq_some hk
        exact h k old hold
    | _ => exact absurd (by simp [HubCall.effect]) he

/-! ## Requests -/

/-- What a request to publish, to set the status of a site or to switch its primary may answer instead. -/
def publishRefusals : List AppError :=
  [.badRequest "only site scope is implemented in P0/P1", .notFound "site not found",
    .badRequest "site has no node bindings", .notFound "target node not found",
    .conflict "site has no standby node to switch to", .conflict "target node is already the primary node"]

/-- An update that is let through gives the site a domain. -/
def KeepsDomain (s : MemoryState) : Request → Prop
  | .updateSite siteId request =>
    (parseProtocol request.protocol).isOk = true → (validateSiteConfig request.config).isOk = true →
      siteId ∈ s.sites → Text.isEmpty (Text.trim request.domain) = false
  | _ => True

instance (s : MemoryState) (r : Request) : Decidable (KeepsDomain s r) := by
  unfold KeepsDomain
  cases r <;> infer_instance

section Requests

variable {p : Platform} {hub : Nat} {w : World}

theorem SitesReady.saveSite (h : SitesReady w) {site : SiteRecord} (hs : site.Ready) :
    SitesReady { w with store := w.store.saveSite site } :=
  h.call (p := .plain) (c := .saveSite site) hs

/-- The release of a site that is ready is saved. -/
theorem saveSiteRelease_ready (h : SitesReady w) {site : SiteRecord} (hs : site.Ready) (releaseType reason : String) :
    wp (aloneSpec p) (saveSiteRelease p hub site releaseType reason) (fun _ => SitesReady) (fun _ _ => False) w := by
  simp only [saveSiteRelease, saveCompiledRelease, repo, wp_bind, wp_attempt, wp_call_alone, wp_pure, hubHandler,
    World.read, World.write, true_and, forall_const]
  refine ⟨fun _ _ => ⟨fun bundle _ => h, fun e he => ?_⟩, fun e he => ?_⟩
  · have hdomain := compileSiteBundle_error he
    rw [hs.1.2] at hdomain
    cases hdomain
  · rw [isOk_iff.1 hs.1.1] at he
    cases he

theorem saveSiteCleanupRelease_ready (h : SitesReady w) {site : SiteRecord} (hs : site.Ready) (detached : List Uuid)
    (reason : String) :
    wp (aloneSpec p) (saveSiteCleanupRelease p hub site detached reason) (fun _ => SitesReady) (fun _ _ => False)
      w := by
  refine saveSiteCleanupRelease_rule (fun _ _ _ => trivial) (fun hblank => ?_) fun r _ => ⟨trivial, fun _ _ _ => h⟩
  rw [hs.2.isEmpty_trim] at hblank
  cases hblank

theorem createRelease_ready (h : SitesReady w) (request : CreateReleaseRequest) :
    wp (aloneSpec p) (createRelease p hub request) (fun _ => SitesReady)
      (fun e w' => e ∈ publishRefusals ∧ SitesReady w') w := by
  simp only [createRelease, detachedNodeIdsForSite, repo, wp_bind, wp_ensure, wp_okOr, wp_call_alone, wp_pure,
    hubHandler, World.read, World.write, true_and, forall_const]
  refine ⟨fun _ => ⟨fun site hsite => ⟨fun hsome => ?_, fun _ => ?_⟩, fun _ => ?_⟩, fun _ => ?_⟩
  · have hready : site.Ready := h _ site hsite
    -- one of the two releases is made
    have hprimary : wp (aloneSpec p) (onlyIf (!(site.bindings.map (·.nodeId)).isEmpty)
        (saveSiteRelease p hub site request.releaseType request.reason))
        (fun r w' => SitesReady w' ∧ (r.isSome ∨ (site.bindings.map (·.nodeId)).isEmpty = true))
        (fun _ _ => False) w := by
      refine (wp_onlyIf _ _).2 ⟨fun _ => ?_, fun he => ⟨h, .inr (by simpa using he)⟩⟩
      exact wp_mono (fun _ _ h' => ⟨h', .inl rfl⟩) (fun _ _ he => he) (saveSiteRelease_ready h hready _ _)
    refine wp_mono (fun r₁ w₁ h₁ => ?_) (fun _ _ he => he.elim) hprimary
    have hcleanup : ∀ detached : List Uuid, wp (aloneSpec p) (onlyIf (!detached.isEmpty)
        (saveSiteCleanupRelease p hub site detached request.reason))
        (fun r w' => SitesReady w' ∧ (r.isSome ∨ detached.isEmpty = true)) (fun _ _ => False) w₁ := by
      intro detached
      refine (wp_onlyIf _ _).2 ⟨fun _ => ?_, fun he => ⟨h₁.1, .inr (by simpa using he)⟩⟩
      exact wp_mono (fun _ _ h' => ⟨h', .inl rfl⟩) (fun _ _ he => he) (saveSiteCleanupRelease_ready h₁.1 hready _ _)
    refine wp_mono (fun r₂ w₂ h₂ => ?_) (fun _ _ he => he.elim) (hcleanup _)
    refine ⟨fun _ _ => h₂.1.saveSite hready, fun hnone => ?_⟩
    obtain ⟨rfl, rfl⟩ := Option.orElse_eq_none _ _ |>.1 hnone
    rw [h₁.2.resolve_left (by simp), h₂.2.resolve_left (by simp)] at hsome
    cases hsome
  all_goals exact ⟨by simp [publishRefusals], h⟩

theorem updateSiteStatus_ready (h : SitesReady w) (siteId : Uuid) (enabled : Bool) :
    wp (aloneSpec p) (updateSiteStatus p hub siteId enabled) (fun _ => SitesReady)
      (fun e w' => e ∈ publishRefusals ∧ SitesReady w') w := by
  simp only [updateSiteStatus, repo, wp_bind, wp_okOr, wp_call_alone, wp_pure, hubHandler, World.read, World.write,
    true_and, forall_const]
  refine ⟨fun old hold => ?_, fun _ => ⟨by simp [publishRefusals], h⟩⟩
  have hready : ({ old with
      status := switchedStatus enabled old.bindings, version := old.version + 1 } : SiteRecord).Ready := h _ old hold
  generalize ({ old with
      status := switchedStatus enabled old.bindings, version := old.version + 1 } : SiteRecord) = saved at hready ⊢
  have hsaved := h.saveSite hready
  refine wp_onlyIf_of ?_ hsaved
  exact wp_mono (fun _ _ h' => h') (fun _ _ he => he.elim) (saveSiteRelease_ready hsaved hready _ _)

theorem chooseSwitchTarget_ready (h : SitesReady w) {site : SiteRecord} {current : Option Uuid}
    {request : SwitchSitePrimaryRequest} {Q : Uuid → World → Prop} (hQ : ∀ target, Q target w) :
    wp (aloneSpec p) (chooseSwitchTarget site current request) Q (fun e w' => e ∈ publishRefusals ∧ SitesReady w')
      w := by
  unfold chooseSwitchTarget
  cases request.targetNodeId with
  | none => exact (wp_okOr _ _).2 ⟨fun target _ => hQ target, fun _ => ⟨by simp [publishRefusals], h⟩⟩
  | some target =>
    simp only [repo, wp_bind, wp_call_alone, wp_ensure, wp_pure, hubHandler, World.read, true_and, forall_const]
    exact ⟨fun _ => hQ target, fun _ => ⟨by simp [publishRefusals], h⟩⟩

theorem switchSitePrimary_ready (h : SitesReady w) (siteId : Uuid) (request : SwitchSitePrimaryRequest) :
    wp (aloneSpec p) (switchSitePrimary p hub siteId request) (fun _ => SitesReady)
      (fun e w' => e ∈ publishRefusals ∧ SitesReady w') w := by
  simp only [switchSitePrimary, repo, wp_bind, wp_okOr, wp_ensure, wp_call_alone, wp_pure, wp_forSome, true_and,
    forall_const]
  refine ⟨fun old hold => ⟨fun _ => ?_, fun _ => ⟨by simp [publishRefusals], h⟩⟩,
    fun _ => ⟨by simp [publishRefusals], h⟩⟩
  refine chooseSwitchTarget_ready h (fun target => ⟨fun _ => ?_, fun _ => ⟨by simp [publishRefusals], h⟩⟩)
  have hready : ({ old with
      bindings := switchedBindings old.bindings target ((primarySiteBinding old).map (·.nodeId))
        (request.keepPreviousAsStandby.getD true)
      status := .draft, version := old.version + 1 } : SiteRecord).Ready := h _ old hold
  have hsaved := h.saveSite hready
  constructor
  · intro next _
    refine wp_mono (fun _ _ h' => h') (fun _ _ he => he) (createRelease_ready ?_ _)
    exact hsaved.call (p := p) (c := .updateActiveFailoverPolicyTargets siteId target next) trivial
  · intro _
    exact wp_mono (fun _ _ h' => h') (fun _ _ he => he) (createRelease_ready hsaved _)

theorem createSite_ready (h : SitesReady w) (request : CreateSiteRequest) :
    wp (aloneSpec p) (createSite request) (fun _ => SitesReady) (fun _ => SitesReady) w := by
  simp only [createSite, repo, wp_bind, wp_ensure, wp_attempt, wp_call_alone, wp_pure, hubHandler, World.write,
    true_and, forall_const]
  refine ⟨fun hdomain => ⟨fun _ hvalid => ⟨fun protocol _ => ?_, fun _ _ => h⟩, fun _ _ => h⟩, fun _ => h⟩
  have hnew : SitesReady (hubHandler p .newUuid w).2 := h
  refine wp_mono ?_ (fun _ _ he => he) (generateUniqueSiteCode_visible (p := p) _ _ _ h hnew)
  rintro code w' ⟨hcode, h'⟩
  exact SitesReady.saveSite (w := { w' with nextUuid := w'.nextUuid + 1 }) h'
    ⟨⟨isOk_iff.2 hvalid, by simpa using hdomain⟩, hcode⟩

theorem updateSite_ready (h : SitesReady w) (siteId : Uuid) (request : UpdateSiteRequest)
    (hdomain : KeepsDomain w.store (.updateSite siteId request)) :
    wp (aloneSpec p) (updateSite siteId request) (fun _ => SitesReady) (fun _ => SitesReady) w := by
  simp only [updateSite, repo, wp_bind, wp_attempt, wp_okOr, wp_call_alone, wp_pure, hubHandler, World.read,
    World.write, true_and, forall_const]
  refine ⟨fun protocol hprotocol => ⟨fun _ hvalid => ⟨fun old hold => ?_, fun _ => h⟩, fun _ _ => h⟩, fun _ _ => h⟩
  have hvalid := isOk_iff.2 hvalid
  have hsite : siteId ∈ w.store.sites := Std.ExtTreeMap.mem_iff_isSome_getElem?.2 (by rw [hold]; rfl)
  have hkeeps := hdomain (by rw [hprotocol]; rfl) hvalid hsite
  exact h.saveSite ⟨⟨hvalid, hkeeps⟩, (h _ old hold).2⟩

theorem bindSiteNodes_ready (h : SitesReady w) (siteId : Uuid) (raw : List SiteBindingItem) :
    wp (aloneSpec p) (bindSiteNodes siteId raw) (fun _ => SitesReady) (fun _ => SitesReady) w := by
  simp only [bindSiteNodes, wp_bind, wp_attempt]
  refine ⟨fun bindings _ => ?_, fun _ _ => h⟩
  refine wp_mono ?_ (fun _ _ h => h) (wp_forM_check (P := fun _ => True) _ bindings fun b _ => ?_)
  · rintro _ _ ⟨rfl, -⟩
    simp only [repo, wp_okOr, wp_call_alone, wp_pure, hubHandler, World.read, World.write, true_and, forall_const]
    refine ⟨fun old hold => ?_, fun _ => h⟩
    have hready : old.Ready := h _ old hold
    exact h.saveSite hready
  · simp only [repo, wp_bind, wp_call_alone, wp_ensure, hubHandler, World.read, true_and, forall_const]
    exact ⟨fun _ => trivial, fun _ => h⟩

end Requests

/-! ## Runs -/

/-- The request publishes the site that it is about. -/
def Request.publishes : Request → Bool
  | .createRelease _ | .updateSiteStatus _ _ | .switchSitePrimary _ _ => true
  | _ => false

/-- Every stored site can be published, and a request that publishes fails for the listed reasons only. -/
def SitesPublish (p : Platform) (hub : Hub) (w : World) : Prop :=
  (∀ (siteId : Uuid) (site : SiteRecord), w.store.sites[siteId]? = some site → site.Publishable) ∧
    ∀ r : Request, r.publishes = true →
      ∀ e, (Fallible.run (hubHandler p) (HubService.program p hub r) w).1 = .error e → e ∈ publishRefusals

/-- Every update that is let through gives its site a domain. -/
def AllKeepDomains (p : Platform) (hub : Hub) : World → List Request → Prop
  | _, [] => True
  | w, r :: rs => KeepsDomain w.store r ∧ AllKeepDomains p hub (w.serve p hub r) rs

instance decidableAllKeepDomains (p : Platform) (hub : Hub) :
    (w : World) → (rs : List Request) → Decidable (AllKeepDomains p hub w rs)
  | _, [] => inferInstanceAs (Decidable True)
  | w, r :: rs =>
    have : Decidable (AllKeepDomains p hub (w.serve p hub r) rs) := decidableAllKeepDomains p hub _ rs
    inferInstanceAs (Decidable (KeepsDomain w.store r ∧ AllKeepDomains p hub (w.serve p hub r) rs))

section Runs

variable {p : Platform} {hub : Hub} {w : World}

/-- A request that publishes. -/
theorem program_ready (h : SitesReady w) {r : Request} (hr : r.publishes = true) :
    wp (aloneSpec p) (HubService.program p hub r) (fun _ => SitesReady)
      (fun e w' => e ∈ publishRefusals ∧ SitesReady w') w := by
  cases r with
  | createRelease request => exact (wp_discard _).2 (createRelease_ready h request)
  | updateSiteStatus siteId enabled => exact (wp_discard _).2 (updateSiteStatus_ready h siteId enabled)
  | switchSitePrimary siteId request => exact (wp_discard _).2 (switchSitePrimary_ready h siteId request)
  | _ => cases hr

/-- A request keeps the sites ready, unless it takes a domain away. -/
theorem SitesReady.serve (h : SitesReady w) {r : Request} (hr : KeepsDomain w.store r) :
    SitesReady (w.serve p hub r) := by
  refine serve_of_wp ?_
  by_cases he : Effect.saveSite ∉ r.effects
  · exact only_alone (program_only p hub r) (fun c w hc h => h.call (c.savesReady_of_within he hc)) h
  cases r with
  | createSite request => exact (wp_discard _).2 (createSite_ready h request)
  | updateSite siteId request => exact (wp_discard _).2 (updateSite_ready h siteId request hr)
  | bindSiteNodes siteId raw => exact (wp_discard _).2 (bindSiteNodes_ready h siteId raw)
  | createRelease request => exact wp_mono (fun _ _ h => h) (fun _ _ he => he.2) (program_ready h rfl)
  | updateSiteStatus siteId enabled => exact wp_mono (fun _ _ h => h) (fun _ _ he => he.2) (program_ready h rfl)
  | switchSitePrimary siteId request => exact wp_mono (fun _ _ h => h) (fun _ _ he => he.2) (program_ready h rfl)
  | _ => exact absurd (by simp [Request.effects]) he

theorem SitesReady.publish (h : SitesReady w) : SitesPublish p hub w := by
  refine ⟨fun siteId site hsite => SiteRecord.publishable_iff.2 (h siteId site hsite).1, fun r hr e he => ?_⟩
  have hready : wp _ (HubService.program p hub r) _ _ w := program_ready h hr
  have hrun := (wp_run (fun _ _ _ _ => trivial) trivial hready).1
  generalize Fallible.run (hubHandler p) (HubService.program p hub r) w = out at he hrun
  obtain ⟨result, w'⟩ := out
  dsimp only at he
  subst he
  exact hrun.1

/-- Along a run of requests that keep the domains the sites stay ready. -/
theorem SitesReady.serveAll (h : SitesReady w) {rs : List Request} (hrs : AllKeepDomains p hub w rs) :
    SitesReady (w.serveAll p hub rs) := by
  induction rs generalizing w with
  | nil => exact h
  | cons r rs ih => exact ih (h.serve hrs.1) hrs.2

end Runs

/-- **Stored sites can be published**: after every sequence of requests in which each update that is let through gives
its site a domain, every stored site validates and compiles, and no request to publish fails in either. -/
theorem stored_sites_publishable (p : Platform) (hub : Hub) (rs : List Request)
    (hrs : AllKeepDomains p hub World.init rs) : SitesPublish p hub (World.init.serveAll p hub rs) :=
  (SitesReady.init.serveAll hrs).publish

/-- A site on one node that gets another domain. -/
def renamedSite (domain : String) : List Request :=
  [.node "edge-1", .site "example", .bind 2 0 [],
    .updateSite 2 {
      name := "example", domain := domain, listenPort := 80, protocol := "http", tlsEnabled := false
      config := .object [] }]

/-- The site has been renamed, and it can be published. -/
theorem stored_sites_publishable_renamed :
    (World.init.serveAll .plain ⟨0, 30⟩ (renamedSite "example.org")).store.sites[2]?.map (·.domain) =
        some "example.org" ∧
      SitesPublish .plain ⟨0, 30⟩ (World.init.serveAll .plain ⟨0, 30⟩ (renamedSite "example.org")) :=
  ⟨by decide +kernel, stored_sites_publishable .plain ⟨0, 30⟩ (renamedSite "example.org") (by decide +kernel)⟩

/-- A domain of one blank is let through, and then the site is neither compiled nor published. -/
theorem blank_domain_unpublishable :
    ¬ SitesPublish .plain ⟨0, 30⟩ (World.init.serveAll .plain ⟨0, 30⟩ (renamedSite " ")) ∧
      (Fallible.run (hubHandler .plain) (HubService.program .plain ⟨0, 30⟩ (.publish 2))
        (World.init.serveAll .plain ⟨0, 30⟩ (renamedSite " "))).1 =
          .error (.internal "site domain cannot be empty") := by
  have hfails : (Fallible.run (hubHandler .plain) (HubService.program .plain ⟨0, 30⟩ (.publish 2))
      (World.init.serveAll .plain ⟨0, 30⟩ (renamedSite " "))).1 =
        .error (.internal "site domain cannot be empty") := by
    decide +kernel
  refine ⟨fun h => ?_, hfails⟩
  have hrefused := h.2 (.publish 2) rfl _ hfails
  revert hrefused
  decide

end PingoraMesh
