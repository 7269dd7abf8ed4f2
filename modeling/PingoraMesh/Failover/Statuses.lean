import PingoraMesh.Failover.Latest
import PingoraMesh.Failover.OnePrimary
import PingoraMesh.Hub.Publish
import PingoraMesh.Hub.Switch

/-!
# The status of a site and the status in its newest release

A release of a site carries the status that the site had when it was compiled. `update_site_status` sets the status
first and compiles then; `create_release` and the failover compile what is stored and set the status to published
afterwards.

* `saveSiteRelease_tells`: a release of a site says the status of the record it is made from;
* `statuses_agree`: in every run in which no bound site that is disabled is published or failed over, each new release
  of a site says that the site is disabled exactly if the stored site is;
* `disabled_site_published`: publishing a disabled site sends its nodes a configuration that is disabled, and stores the
  site as published.
-/

namespace PingoraMesh

open Calls Fallible HubService

/-- The field `status` in the rendered configuration of a release. -/
def ReleaseRecord.renderedStatus (r : ReleaseRecord) : Option Value := r.bundle.renderedConfig.get "status"

/-- Each release of a site that is new in the second store says that the site is disabled exactly if it is stored so. -/
def StatusesAgree (s s' : MemoryState) : Prop :=
  ∀ (k : Uuid) (r : ReleaseRecord) (siteId : Uuid), s'.releases[k]? = some r → s.releases[k]? = none →
    r.scopeType = "site" → r.scopeId = some siteId →
    (r.renderedStatus = some (.string "disabled") ↔ s'.sites[siteId]?.map (·.status) = some .disabled)

/-! ## What new releases say -/

/-- The releases of sites that are new in the second store are of one site and say one status. -/
def Tells (status : SiteStatus) (siteId : Uuid) (s s' : MemoryState) : Prop :=
  ∀ (k : Uuid) (r : ReleaseRecord), s'.releases[k]? = some r → s.releases[k]? = none → r.scopeType = "site" →
    r.scopeId = some siteId ∧ r.renderedStatus = some (.string (siteStatusName status))

section Tells

variable {status : SiteStatus} {siteId : Uuid} {s s' : MemoryState}

theorem siteStatusName_eq_disabled : siteStatusName status = "disabled" ↔ status = .disabled := by
  cases status <;> decide

/-- There is nothing to say without a new release. -/
theorem Tells.same (h : s'.releases = s.releases) : Tells status siteId s s' := by
  intro k r hr hnew
  rw [h, hnew] at hr
  cases hr

theorem StatusesAgree.same (h : s'.releases = s.releases) : StatusesAgree s s' := by
  intro k r siteId hr hnew
  rw [h, hnew] at hr
  cases hr

theorem Tells.save (h : Tells status siteId s s') {r : ReleaseRecord} (hr : r.scopeType = "site" →
    r.scopeId = some siteId ∧ r.renderedStatus = some (.string (siteStatusName status))) :
    Tells status siteId s (s'.saveRelease r) := by
  intro k r' hr' hnew hscope
  rcases Maps.getElem?_insert_eq_some hr' with ⟨-, rfl⟩ | ⟨-, hold⟩
  · exact hr hscope
  · exact h k r' hold hnew hscope

theorem Tells.agree (h : Tells status siteId s s')
    (hstatus : status = .disabled ↔ s'.sites[siteId]?.map (·.status) = some .disabled) : StatusesAgree s s' := by
  intro k r siteId' hr hnew hscope hid
  obtain ⟨hsite, htold⟩ := h k r hr hnew hscope
  rw [hid] at hsite
  cases hsite
  rw [htold, ← hstatus, ← siteStatusName_eq_disabled]
  simp

end Tells

/-! ## Requests to a hub -/

section Hub

variable {p : Platform} {hub : Nat} {w : World} {s : MemoryState} {site : SiteRecord}

/-- A bundle says the status of its site, which has a domain. -/
theorem compileSiteBundle_says {spec : SiteSpec} {certificates : List CertificateRef} {targets : List ReleaseTarget}
    {version : String} {id : Uuid} {now : DateTime} {bundle : CompiledConfigBundle}
    (h : compileSiteBundle spec certificates targets version id now = .ok bundle) :
    Text.isEmpty (Text.trim spec.domain) = false ∧
      bundle.renderedConfig.get "status" = some (.string (siteStatusName spec.status)) := by
  unfold compileSiteBundle at h
  split at h
  · cases h
  · cases h
    rename_i hdomain
    exact ⟨Bool.eq_false_iff.2 hdomain, rfl⟩

theorem internalError_eq_ok {α : Type} {x : Except String α} {a : α} (h : internalError x = .ok a) : x = .ok a := by
  cases x with
  | error e => cases h
  | ok b =>
    cases h
    rfl

/-- A release of a site says the status of the record it is made from. -/
theorem saveSiteRelease_tells (h : Tells site.status site.id s w.store) (releaseType reason : String) :
    wp (aloneSpec p) (saveSiteRelease p hub site releaseType reason)
      (fun _ w' => (w'.store.sites = w.store.sites ∧ Tells site.status site.id s w'.store) ∧ site.Compiles)
      (fun _ w' => w'.store = w.store) w := by
  simp only [saveSiteRelease, saveCompiledRelease, repo, wp_bind, wp_attempt, wp_call_alone, wp_pure, hubHandler,
    World.read, World.write, implies_true, and_true, true_and, forall_const]
  intro _ hvalid bundle hb
  obtain ⟨hdomain, htold⟩ := compileSiteBundle_says (internalError_eq_ok hb)
  refine ⟨⟨rfl, h.save fun _ => ⟨rfl, htold⟩⟩, ?_, hdomain⟩
  rw [hvalid]
  rfl

/-- A cleanup is no release of a site. -/
theorem saveSiteCleanupRelease_saves (detached : List Uuid) (reason : String) :
    wp (aloneSpec p) (saveSiteCleanupRelease p hub site detached reason)
      (fun _ w' => ∃ r : ReleaseRecord, r.scopeType = "site_cleanup" ∧ w'.store = w.store.saveRelease r)
      (fun _ w' => w'.store = w.store) w := by
  simp only [saveSiteCleanupRelease, saveCompiledRelease, repo, wp_bind, wp_attempt, wp_call_alone, wp_pure, hubHandler,
    World.write, implies_true, and_true, true_and, forall_const]
  intro bundle _
  exact ⟨_, rfl, rfl⟩

theorem Tells.cleanup {status : SiteStatus} {siteId : Uuid} {s' : MemoryState} (h : Tells status siteId s s')
    {r : ReleaseRecord} (hr : r.scopeType = "site_cleanup") : Tells status siteId s (s'.saveRelease r) := by
  refine h.save fun hscope => ?_
  rw [hr] at hscope
  exact absurd hscope (by decide)

/-- Whoever has the status of the stored site agrees with it. -/
theorem Tells.agreeStored {s' : MemoryState} (h : Tells site.status site.id s s')
    (hsite : s'.sites[site.id]? = some site) : StatusesAgree s s' := by
  refine h.agree ?_
  rw [hsite]
  simp

/-- `create_release` of a site that is not disabled, or not bound, or does not compile. -/
theorem createRelease_agrees (hkeyed : SitesKeyed w.store) (hs : w.store.releases = s.releases)
    (request : CreateReleaseRequest) (hcond : request.scopeType = "site" → ∀ site ∈ w.store.sites[request.scopeId]?,
      site.status = .disabled → site.bindings = [] ∨ ¬ site.Compiles) :
    wp (aloneSpec p) (createRelease p hub request) (fun _ w' => StatusesAgree s w'.store)
      (fun _ w' => StatusesAgree s w'.store) w := by
  have hnone : ∀ status siteId, Tells status siteId s w.store := fun _ _ => .same hs
  have hsame : StatusesAgree s w.store := .same hs
  simp only [createRelease, detachedNodeIdsForSite, repo, wp_bind, wp_ensure, wp_okOr, wp_call_alone, wp_pure,
    wp_onlyIf, hubHandler, World.read, World.write, forall_const, true_and]
  refine ⟨fun hscope => ⟨fun site hsite => ⟨fun _ => ⟨fun hbound => ?_, fun hunbound => ?_⟩, fun _ => hsame⟩,
    fun _ => hsame⟩, fun _ => hsame⟩
  all_goals
    have hid : site.id = request.scopeId := hkeyed _ site hsite
    have hstored : w.store.sites[site.id]? = some site := by
      rw [hid]
      exact hsite
  · -- a release of the site is saved with the status it has, and then its status is set
    refine wp_mono ?_ (fun _ w' e => by rw [e]; exact hsame) (saveSiteRelease_tells (hnone site.status site.id) _ _)
    rintro saved w₁ ⟨⟨hsites, htells⟩, hcompiles⟩
    have hne : site.status ≠ .disabled := by
      intro hdisabled
      rcases hcond (beq_iff_eq.1 hscope) site hsite hdisabled with hempty | hnot
      · rw [hempty] at hbound
        cases hbound
      · exact hnot hcompiles
    have hfinal : ∀ w₂ : World, Tells site.status site.id s w₂.store →
        StatusesAgree s (w₂.store.saveSite { site with status := .published }) := by
      intro w₂ htells₂
      have hsaved : Tells site.status site.id s (w₂.store.saveSite { site with status := .published }) := htells₂
      refine hsaved.agree ?_
      simp [MemoryState.saveSite, hne]
    refine ⟨fun _ => ?_, fun _ => ⟨fun _ _ => hfinal w₁ htells, fun _ => hfinal w₁ htells⟩⟩
    refine wp_mono ?_ ?_ (saveSiteCleanupRelease_saves _ _)
    · rintro _ w₂ ⟨r, hr, e⟩
      have htells₂ : Tells site.status site.id s w₂.store := by
        rw [e]
        exact htells.cleanup hr
      exact ⟨fun _ _ => hfinal w₂ htells₂, fun _ => hfinal w₂ htells₂⟩
    · intro _ w₂ e
      rw [e]
      refine htells.agreeStored ?_
      rw [hsites]
      exact hstored
  · -- no release of the site is saved
    have hfinal : ∀ w₂ : World, Tells .draft site.id s w₂.store →
        StatusesAgree s (w₂.store.saveSite { site with status := .draft }) := by
      intro w₂ htells₂
      have hsaved : Tells .draft site.id s (w₂.store.saveSite { site with status := .draft }) := htells₂
      refine hsaved.agree ?_
      simp [MemoryState.saveSite]
    refine ⟨fun _ => ?_, fun _ => ⟨fun _ _ => hfinal w (hnone _ _), fun _ => hfinal w (hnone _ _)⟩⟩
    refine wp_mono ?_ ?_ (saveSiteCleanupRelease_saves _ _)
    · rintro _ w₂ ⟨r, hr, e⟩
      have htells₂ : Tells .draft site.id s w₂.store := by
        rw [e]
        exact (hnone _ _).cleanup hr
      exact ⟨fun _ _ => hfinal w₂ htells₂, fun _ => hfinal w₂ htells₂⟩
    · intro _ w₂ e
      rw [e]
      exact hsame

/-- `update_site_status` sets the status before it compiles the site. -/
theorem updateSiteStatus_agrees (siteId : Uuid) (enabled : Bool) :
    wp (aloneSpec p) (updateSiteStatus p hub siteId enabled) (fun _ w' => StatusesAgree w.store w'.store)
      (fun _ w' => StatusesAgree w.store w'.store) w := by
  simp only [updateSiteStatus, repo, wp_bind, wp_okOr, wp_call_alone, wp_pure, wp_onlyIf, hubHandler, World.read,
    World.write, forall_const, true_and]
  refine ⟨fun old hold => ⟨fun _ => ?_, fun _ => .same rfl⟩, fun _ => .same rfl⟩
  refine wp_mono ?_ ?_ (saveSiteRelease_tells (s := w.store) ?_ _ _)
  · rintro saved w' ⟨⟨hsites, htells⟩, -⟩
    refine htells.agreeStored ?_
    rw [hsites]
    simp [MemoryState.saveSite]
  · intro _ w' e
    rw [e]
    exact .same rfl
  · exact .same rfl

/-- `switch_site_primary` leaves a draft for `create_release`. -/
theorem switchSitePrimary_agrees (hkeyed : SitesKeyed w.store) (siteId : Uuid) (request : SwitchSitePrimaryRequest) :
    wp (aloneSpec p) (switchSitePrimary p hub siteId request) (fun _ w' => StatusesAgree w.store w'.store)
      (fun _ w' => StatusesAgree w.store w'.store) w := by
  simp only [switchSitePrimary, repo, wp_bind, wp_okOr, wp_ensure, wp_call_alone, wp_pure, wp_forSome, hubHandler,
    World.read, World.write, forall_const, true_and]
  refine ⟨fun old hold => ⟨fun _ => ?_, fun _ => .same rfl⟩, fun _ => .same rfl⟩
  refine chooseSwitchTarget_rule (fun _ _ _ => trivial) (fun target _ _ => ⟨fun _ => ?_, fun _ => .same rfl⟩)
    fun _ => .same rfl
  have hid := hkeyed siteId old hold
  -- the site that `create_release` reads is the draft
  have hrelease : ∀ (draft : SiteRecord) (w' : World) (r : CreateReleaseRequest), draft.id = old.id →
      draft.status = .draft → w'.store.sites = w.store.sites.insert draft.id draft →
      w'.store.releases = w.store.releases → r.scopeId = siteId →
      wp (aloneSpec p) (createRelease p hub r) (fun _ w'' => StatusesAgree w.store w''.store)
        (fun _ w'' => StatusesAgree w.store w''.store) w' := by
    intro draft w' r hdraft hstatus hsites hreleases hscope
    refine createRelease_agrees ?_ hreleases r ?_
    · intro k site hsite
      rw [hsites] at hsite
      rcases Maps.getElem?_insert_eq_some hsite with ⟨rfl, rfl⟩ | ⟨-, hsite⟩
      · rfl
      · exact hkeyed k site hsite
    · intro _ site hsite hdisabled
      rw [hsites, hscope, ← hid, ← hdraft, Std.ExtTreeMap.getElem?_insert_self] at hsite
      cases hsite
      rw [hstatus] at hdisabled
      cases hdisabled
  constructor
  · intro next _
    exact hrelease { old with bindings := _, status := .draft, version := _ } _ _ rfl rfl rfl rfl rfl
  · intro _
    exact hrelease { old with bindings := _, status := .draft, version := _ } _ _ rfl rfl rfl rfl rfl

/-- `delete_site` saves no release of a site. -/
theorem deleteSite_agrees (siteId : Uuid) :
    wp (aloneSpec p) (HubService.deleteSite p hub siteId) (fun _ w' => StatusesAgree w.store w'.store)
      (fun _ w' => StatusesAgree w.store w'.store) w := by
  simp only [HubService.deleteSite, repo, wp_bind, wp_okOr, wp_call_alone, wp_pure, wp_onlyIf, hubHandler, World.read,
    World.write, forall_const, true_and]
  have hdelete : ∀ s' : MemoryState, (s'.deleteSite siteId).releases = s'.releases := by
    intro s'
    unfold MemoryState.deleteSite
    split
    · rfl
    · rfl
  refine ⟨fun site hsite => ⟨fun _ => ?_, fun _ => .same (hdelete _)⟩, fun _ => .same rfl⟩
  refine wp_mono ?_ ?_ (saveSiteCleanupRelease_saves _ _)
  · rintro _ w' ⟨r, hr, e⟩ k r' id hr' hnew hscope
    rw [hdelete, e] at hr'
    rcases Maps.getElem?_insert_eq_some hr' with ⟨-, rfl⟩ | ⟨-, hold⟩
    · rw [hr] at hscope
      exact absurd hscope (by decide)
    · rw [hnew] at hold
      cases hold
  · intro _ w' e
    rw [e]
    exact .same rfl

/-- A request to a hub, unless it publishes a disabled site. -/
theorem serve_agrees (hkeyed : SitesKeyed w.store) (hub : Hub) (request : Request)
    (hcond : ∀ r, request = .createRelease r → r.scopeType = "site" → ∀ site ∈ w.store.sites[r.scopeId]?,
      site.status = .disabled → site.bindings = [] ∨ ¬ site.Compiles) :
    StatusesAgree w.store (w.serve p hub request).store := by
  refine serve_of_wp (Q := fun w' => StatusesAgree w.store w'.store) ?_
  have hquiet : Effect.saveRelease ∉ request.effects →
      wp (aloneSpec p) (HubService.program p hub request) (fun _ w' => StatusesAgree w.store w'.store)
        (fun _ w' => StatusesAgree w.store w'.store) w := by
    intro hr
    have hold : ∀ (w' : World), (∀ (k : Uuid) r, w'.store.releases[k]? = some r → w.store.releases[k]? ≠ none) →
        StatusesAgree w.store w'.store := fun w' hw' k r _ hk hnew => absurd hnew (hw' k r hk)
    refine wp_mono (fun _ => hold) (fun _ => hold) (only_alone (program_only p hub request)
      (I := fun w' => ∀ (k : Uuid) r, w'.store.releases[k]? = some r → w.store.releases[k]? ≠ none) ?_ ?_)
    · intro c w' hc hw' k r hk
      have he : c.effect ≠ some .saveRelease := by
        intro he
        rw [HubCall.Within, he] at hc
        exact hr hc
      obtain ⟨r₀, hr₀, -⟩ := releases_of_effect he hk
      exact hw' k r₀ hr₀
    · intro k r hk hnew
      rw [hnew] at hk
      cases hk
  cases request with
  | createRelease r => exact (wp_discard _).2 (createRelease_agrees hkeyed rfl r (hcond r rfl))
  | updateSiteStatus siteId enabled => exact (wp_discard _).2 (updateSiteStatus_agrees siteId enabled)
  | switchSitePrimary siteId r => exact (wp_discard _).2 (switchSitePrimary_agrees hkeyed siteId r)
  | deleteSite siteId => exact (wp_discard _).2 (deleteSite_agrees siteId)
  | _ => exact hquiet (by simp [Request.effects])

end Hub

/-! ## Failovers -/

section Failover

variable {p : Platform} {net : Nat → Delivery} {m : Mesh}

/-- A failover of a site as it is stored, unless it is disabled, or is refused for want of a domain. -/
theorem FailoverStored.agrees {policy : PolicySnapshot} {site : SiteSnapshot} {now : DateTime} {m' : Mesh}
    {record : SiteRecord} (hkeyed : SitesKeyed m.world.store)
      (hrecord : m.world.store.sites[policy.scopeId]? = some record)
    (hid : site.siteId = record.id) (hstatus : site.status = record.status) (hdomain : site.domain = record.domain)
    (hcond : record.status = .disabled → Text.isEmpty (Text.trim record.domain) = true)
    (hdone : FailoverDone policy site now m m') (hstored : FailoverStored p policy site now m m') :
    StatusesAgree m.world.store m'.world.store := by
  obtain ⟨certificates, targets, createdAt, bundle, hb, hreleases⟩ := hstored
  obtain ⟨hnonempty, htold⟩ := compileSiteBundle_says hb
  have htells : Tells record.status record.id m.world.store m'.world.store := by
    intro k r hr hnew hscope
    rw [hreleases] at hr
    rcases Maps.getElem?_insert_eq_some hr with ⟨-, rfl⟩ | ⟨-, hold⟩
    · rw [← hid, ← hstatus]
      exact ⟨rfl, htold⟩
    · rw [hnew] at hold
      cases hold
  have hne : record.status ≠ .disabled := by
    intro hdisabled
    have hempty := hcond hdisabled
    rw [← hdomain] at hempty
    change Text.isEmpty (Text.trim site.domain) = false at hnonempty
    rw [hnonempty] at hempty
    cases hempty
  have hkey := hkeyed _ record hrecord
  have hnow : m'.world.store.sites[record.id]?.map (·.status) = some .published := by
    rw [hdone.sites, hid, Std.ExtTreeMap.getElem?_modify_self, hkey, hrecord]
    rfl
  refine htells.agree ?_
  rw [hnow]
  simp [hne]

theorem SitesKeyed.failover {policy : PolicySnapshot} {site : SiteSnapshot} {now : DateTime} {m' : Mesh}
    (h : SitesKeyed m.world.store) (hdone : FailoverDone policy site now m m') : SitesKeyed m'.world.store := by
  intro k record hk
  rw [hdone.sites] at hk
  rcases Maps.getElem?_modify_eq_some hk with ⟨rfl, old, hold, rfl⟩ | ⟨-, hk⟩
  · exact h _ old hold
  · exact h k record hk

/-- A failover does not reach its transaction, or the site is not disabled. -/
def Presentable (m : Mesh) (policy : PolicySnapshot) : Prop :=
  ∀ site ∈ m.world.store.sites[policy.scopeId]?, site.status = .disabled →
    hasOpenFailoverEvent policy.policyId m = true ∨
      currentPrimaryNodeId (loadSiteBindings policy.scopeId m.world.store) = some policy.standbyNodeId ∨
      Text.isEmpty (Text.trim site.domain) = true

instance (m : Mesh) (policy : PolicySnapshot) : Decidable (Presentable m policy) :=
  inferInstanceAs (Decidable (∀ site ∈ m.world.store.sites[policy.scopeId]?, _))

/-- The transaction and the end of its event, for a site as it is stored. -/
theorem runFailover_agrees (hkeyed : SitesKeyed m.world.store) {policy : PolicySnapshot} {site : SiteSnapshot}
    {record : SiteRecord} (hrecord : m.world.store.sites[policy.scopeId]? = some record) (hid : site.siteId = record.id)
    (hstatus : site.status = record.status) (hdomain : site.domain = record.domain)
    (hcond : record.status = .disabled → Text.isEmpty (Text.trim record.domain) = true) (now : DateTime)
      (eventId : Uuid) :
    wp (.alone (meshHandler p net) (fun _ _ => True) fun _ => True)
      (FailoverWorker.runFailover policy site now eventId)
      (fun _ m' => StatusesAgree m.world.store m'.world.store ∧ SitesKeyed m'.world.store)
      (fun _ m' => StatusesAgree m.world.store m'.world.store ∧ SitesKeyed m'.world.store) m := by
  have hwp := executeSiteFailover_stored p net policy site eventId now m
  simp only [FailoverWorker.runFailover, query, wp_bind, wp_call_alone, meshHandler]
  refine ⟨trivial, fun _ => ?_⟩
  rcases hrun : executeSiteFailover p net policy site eventId now m with ⟨e | _, m'⟩
  · obtain ⟨m'', -, rfl⟩ := Act.wp_error hwp hrun
    simp only [wp_bind, wp_call_alone, wp_throw, meshHandler]
    exact ⟨trivial, fun _ => ⟨.same rfl, hkeyed⟩⟩
  · obtain ⟨hdone, hstored⟩ := Act.wp_ok hwp hrun
    simp only [wp_bind, wp_call_alone, wp_pure, meshHandler]
    exact ⟨trivial, fun _ => ⟨hstored.agrees hkeyed hrecord hid hstatus hdomain hcond hdone, hkeyed.failover hdone⟩⟩

variable (p net) in
theorem triggerPolicyFailover_agrees (hkeyed : SitesKeyed m.world.store) {policy : PolicySnapshot}
    (hcond : Presentable m policy) (now : DateTime) (reason : String) :
    wp (.alone (meshHandler p net) (fun _ _ => True) fun _ => True)
      (FailoverWorker.triggerPolicyFailover policy now reason)
      (fun _ m' => StatusesAgree m.world.store m'.world.store ∧ SitesKeyed m'.world.store)
      (fun _ m' => StatusesAgree m.world.store m'.world.store ∧ SitesKeyed m'.world.store) m := by
  have hsame : ∀ m' : Mesh, m'.world.store = m.world.store →
      StatusesAgree m.world.store m'.world.store ∧ SitesKeyed m'.world.store := by
    intro m' e
    rw [e]
    exact ⟨.same rfl, hkeyed⟩
  simp only [FailoverWorker.triggerPolicyFailover, query, wp_bind, wp_call_alone]
  refine ⟨trivial, fun _ => ?_⟩
  split
  · exact (wp_pure _).2 (hsame m rfl)
  · rename_i hopen
    simp only [FailoverWorker.loadSiteSnapshot, query, wp_bind, wp_call_alone, wp_okOr, wp_pure]
    refine ⟨trivial, fun _ => ⟨fun row hrow => ⟨trivial, fun _ => ?_⟩, fun _ => hsame m rfl⟩⟩
    obtain ⟨record, hrecord, rfl⟩ := Option.map_eq_some_iff.1 hrow
    split
    · exact (wp_pure _).2 (hsame m rfl)
    · rename_i hstandby
      rw [wp_bind, wp_call_alone]
      refine ⟨trivial, fun _ => ?_⟩
      -- what is read is what the transaction meets
      refine runFailover_agrees (m := (createFailoverEvent policy now reason m).2) hkeyed hrecord rfl rfl rfl ?_ now _
      intro hdisabled
      rcases hcond record hrecord hdisabled with h | h | h
      · exact absurd h hopen
      · exact absurd h hstandby
      · exact h

end Failover

/-! ## Runs -/

/-- The site that a step publishes. -/
def SiteStep.publishes : SiteStep → Option Uuid
  | .hub _ (.createRelease r) => if r.scopeType = "site" then some r.scopeId else none
  | _ => none

/-- The policy that a step triggers. -/
def SiteStep.triggers : SiteStep → Option Uuid
  | .trigger policyId _ _ => some policyId
  | _ => none

/-- A step does not publish or fail over a site that is stored as disabled. -/
def Presents (m : Mesh) (x : SiteStep) : Prop :=
  (∀ siteId ∈ x.publishes, ∀ site ∈ m.world.store.sites[siteId]?, site.status = .disabled →
    site.bindings = [] ∨ ¬ site.Compiles) ∧
  ∀ policy ∈ x.triggers.bind m.storedPolicy, Presentable m policy

instance (m : Mesh) (x : SiteStep) : Decidable (Presents m x) := inferInstanceAs (Decidable (_ ∧ _))

section Runs

variable (p : Platform) (net : Nat → Delivery)

/-- Each step presents its site in the mesh it meets. -/
def AllPresent : Mesh → List SiteStep → Prop
  | _, [] => True
  | m, x :: xs => Presents m x ∧ AllPresent (m.afterStep p net x) xs

instance decidableAllPresent : (m : Mesh) → (xs : List SiteStep) → Decidable (AllPresent p net m xs)
  | _, [] => inferInstanceAs (Decidable True)
  | m, x :: xs =>
    have : Decidable (AllPresent p net (m.afterStep p net x) xs) := decidableAllPresent _ xs
    inferInstanceAs (Decidable (Presents m x ∧ AllPresent p net (m.afterStep p net x) xs))

variable {p net} {m : Mesh}

variable (p net) in
/-- One step: the new releases agree with the stored sites, and sites stay under their identifiers. -/
theorem afterStep_agrees (hkeyed : SitesKeyed m.world.store) {x : SiteStep} (hx : Presents m x) :
    StatusesAgree m.world.store (m.afterStep p net x).world.store ∧ SitesKeyed (m.afterStep p net x).world.store := by
  cases x with
  | hub hub request =>
    rw [Mesh.afterStep, Mesh.serve_hub]
    refine ⟨serve_agrees hkeyed hub request ?_, hkeyed.serve hub request⟩
    rintro r rfl hscope
    refine hx.1 r.scopeId ?_
    simp [SiteStep.publishes, hscope]
  | savePolicy policy =>
    change StatusesAgree m.world.store (PingoraMesh.savePolicy policy m.world.store) ∧
      SitesKeyed (PingoraMesh.savePolicy policy m.world.store)
    unfold PingoraMesh.savePolicy
    split
    · exact ⟨.same rfl, hkeyed⟩
    · exact ⟨.same rfl, hkeyed⟩
  | trigger policyId now reason =>
    rw [Mesh.afterStep]
    split
    · exact ⟨.same rfl, hkeyed⟩
    · rename_i policy hpolicy
      have hrun := (wp_run (fun _ _ _ _ => trivial) trivial
        (triggerPolicyFailover_agrees p net hkeyed (hx.2 policy hpolicy) now reason)).1
      generalize Fallible.run (meshHandler p net) (FailoverWorker.triggerPolicyFailover policy now reason) m = out
        at hrun ⊢
      rcases out with ⟨e | _, m'⟩
      · exact hrun
      · exact hrun

/-- In every run in which no disabled site is published or failed over, right after each step the releases of sites that
it has made say that their site is disabled exactly if it is stored so. -/
theorem statuses_agree (remote : RemoteDns) (steps : List SiteStep)
    (hsteps : AllPresent p net (Mesh.init remote) steps) :
    ∀ pre x, pre ++ [x] <+: steps → StatusesAgree ((Mesh.init remote).afterSteps p net pre).world.store
      (((Mesh.init remote).afterSteps p net pre).afterStep p net x).world.store := by
  have hrun : ∀ (xs : List SiteStep) (m : Mesh), SitesKeyed m.world.store → AllPresent p net m xs →
      ∀ pre x, pre ++ [x] <+: xs →
        StatusesAgree (m.afterSteps p net pre).world.store
          ((m.afterSteps p net pre).afterStep p net x).world.store := by
    intro xs
    induction xs with
    | nil =>
      intro m _ _ pre x hpre
      exact absurd (List.prefix_nil.1 hpre) (by simp)
    | cons y ys ih =>
      intro m hkeyed hall pre x hpre
      have hstep := afterStep_agrees p net hkeyed hall.1
      cases pre with
      | nil =>
        obtain ⟨rfl, -⟩ := List.cons_prefix_cons.1 hpre
        exact hstep.1
      | cons z zs =>
        obtain ⟨rfl, hzs⟩ := List.cons_prefix_cons.1 hpre
        exact ih _ hstep.2 hall.2 zs x hzs
  refine hrun steps _ ?_ hsteps
  intro k site hk
  simp [Mesh.init, World.init, MemoryState.empty] at hk

end Runs

/-- A site on two nodes that is published, disabled, edited and published again, and then failed over. -/
def editedSite : List SiteStep :=
  watchedSite ++ [SiteStep.hub ⟨0, 30⟩ (.publish 6), .hub ⟨0, 30⟩ (.updateSiteStatus 6 false),
    .hub ⟨0, 30⟩ (.updateSiteStatus 6 true), .trigger 100 0 "down"]

/-- Each of the four releases agrees with the site, and one of them says that it is disabled. -/
theorem statuses_agree_edited :
    ((Mesh.init (.ofZones [])).afterSteps .plain (fun _ => .done) editedSite).world.store.releases.values.map
        (fun r => (r.renderedStatus.bind Value.asStr)) =
        [some "draft", some "disabled", some "published", some "published"] ∧
      ∀ pre x, pre ++ [x] <+: editedSite →
        StatusesAgree ((Mesh.init (.ofZones [])).afterSteps .plain (fun _ => .done) pre).world.store
          (((Mesh.init (.ofZones [])).afterSteps .plain (fun _ => .done) pre).afterStep .plain
            (fun _ => .done) x).world.store := by
  refine ⟨by decide +kernel, ?_⟩
  exact statuses_agree (.ofZones []) editedSite (by decide +kernel)

/-- A site on three nodes that is disabled. -/
def disabledSite : Mesh :=
  (Mesh.init (.ofZones [])).afterSteps .plain (fun _ => .done)
    (watchedSite ++ [SiteStep.hub ⟨0, 30⟩ (.updateSiteStatus 6 false)])

/-- A new release that says disabled, of a site that is stored as published. -/
theorem not_statusesAgree {s s' : MemoryState} (k siteId : Uuid)
    (hr : s'.releases[k]?.map (fun r => (r.scopeType, r.scopeId, r.renderedStatus.bind Value.asStr)) =
      some ("site", some siteId, some "disabled"))
    (hnew : s.releases[k]?.isNone = true) (hsite : s'.sites[siteId]?.map (·.status) = some .published) :
    ¬ StatusesAgree s s' := by
  intro h
  obtain ⟨r, hk, hfields⟩ := Option.map_eq_some_iff.1 hr
  obtain ⟨hscope, hfields⟩ := Prod.mk.inj hfields
  obtain ⟨hid, hstatus⟩ := Prod.mk.inj hfields
  obtain ⟨value, hvalue, htext⟩ := Option.bind_eq_some_iff.1 hstatus
  have hstring : value = .string "disabled" := by
    cases value with
    | string text =>
      cases htext
      rfl
    | _ => cases htext
  subst hstring
  have hdisabled := (h k r siteId hk (Option.isNone_iff_eq_none.1 hnew) hscope hid).1 hvalue
  rw [hsite] at hdisabled
  cases hdisabled

/-- The disabled site is published, or it is failed over: its nodes are told that it is disabled, and it is stored as
published. -/
theorem disabled_site_published :
    ¬ StatusesAgree disabledSite.world.store
      (disabledSite.afterStep .plain (fun _ => .done) (.hub ⟨0, 30⟩ (.publish 6))).world.store ∧
    ¬ StatusesAgree disabledSite.world.store
      (disabledSite.afterStep .plain (fun _ => .done) (.trigger 100 0 "down")).world.store := by
  constructor
  · exact not_statusesAgree 8 6 (by decide +kernel) (by decide +kernel) (by decide +kernel)
  · exact not_statusesAgree 9 6 (by decide +kernel) (by decide +kernel) (by decide +kernel)

end PingoraMesh
