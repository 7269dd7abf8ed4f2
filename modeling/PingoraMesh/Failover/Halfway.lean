import PingoraMesh.Failover.Statuses
import PingoraMesh.Hub.Halfway

/-!
# Reachable stores and requests that fail halfway

`Hub.Halfway` says which requests leave changes behind when they fail, for stores whose sites lie under their own
identifiers and whose releases lie under identifiers that have been drawn.

* `Keyed.step`: every step of hubs, operators and failover workers keeps this, also a request some of whose repository
  calls fail;
* `operation_unchanged_run_iff`: in every reachable store, an operation leaves the sites, the policies and the releases
  as they were when it fails, exactly if it does not fail after its first write;
* `switch_half_done`: one failing call between the writes of a switch leaves bindings that no release reflects.
-/

namespace PingoraMesh

open Calls Fallible HubService

/-! ## Identifiers of releases -/

/-- Releases are stored under identifiers that have been drawn. -/
def ReleasesDrawn (w : World) : Prop := ∀ (k : Uuid) (r : ReleaseRecord), w.store.releases[k]? = some r → k < w.nextUuid

/-- Sites lie under their own identifiers, and releases under identifiers that have been drawn. -/
structure Keyed (w : World) : Prop where
  sites : SitesKeyed w.store
  releases : ReleasesDrawn w

theorem Keyed.init : Keyed World.init := by
  refine ⟨.init, fun k r hk => ?_⟩
  simp [World.init, MemoryState.empty] at hk

/-- A release is saved under an identifier that has been drawn. -/
def SavesDrawn (c : HubCall) (w : World) : Prop := ∀ r, c = .saveRelease r → r.releaseId < w.nextUuid

section Hub

variable {p : Platform} {w : World}

theorem ReleasesDrawn.next (h : ReleasesDrawn w) : w.nextUuid ∉ w.store.releases := by
  intro hmem
  rw [Std.ExtTreeMap.mem_iff_isSome_getElem?] at hmem
  obtain ⟨r, hr⟩ := Option.isSome_iff_exists.1 hmem
  exact Nat.lt_irrefl _ (h _ r hr)

theorem ReleasesDrawn.call (h : ReleasesDrawn w) {c : HubCall} (hc : SavesDrawn c w) :
    ReleasesDrawn (hubHandler p c w).2 := by
  intro k r' hr'
  by_cases he : c.effect = some .saveRelease
  · cases c with
    | saveRelease r =>
      rcases Maps.getElem?_insert_eq_some hr' with ⟨rfl, -⟩ | ⟨-, hr⟩
      · exact hc r rfl
      · exact h k r' hr
    | _ => simp [HubCall.effect] at he
  · obtain ⟨r, hr, -⟩ := releases_of_effect he hr'
    exact (h k r hr).trans_le nextUuid_le

theorem Keyed.call (h : Keyed w) {c : HubCall} (hc : SavesDrawn c w) : Keyed (hubHandler p c w).2 :=
  ⟨h.sites.call c, h.releases.call hc⟩

/-- The calls of a hub, where a release is saved under a drawn identifier. -/
abbrev drawnSpec (p : Platform) : Spec hubSig World := .alone (hubHandler p) SavesDrawn Keyed

theorem SavesDrawn.of_effect {c : HubCall} (h : c.effect ≠ some .saveRelease) : SavesDrawn c w := by
  rintro r rfl
  exact absurd rfl h

theorem SavesDrawn.of_within {es : List Effect} (hes : .saveRelease ∉ es) {c : HubCall} (h : c.Within es) :
    SavesDrawn c w := by
  refine .of_effect fun he => hes ?_
  unfold HubCall.Within at h
  rw [he] at h
  exact h

theorem SavesDrawn.of_quiet (c : HubCall) (w : World) (h : c.Quiet) : SavesDrawn c w :=
  .of_within (by simp) h.within

theorem saveSiteRelease_drawn (hub : Nat) (site : SiteRecord) (releaseType reason : String) :
    (saveSiteRelease p hub site releaseType reason).Safe (drawnSpec p) := by
  intro w
  refine saveSiteRelease_rule SavesDrawn.of_quiet (fun _ => trivial) (fun _ => trivial) fun r hr => ⟨?_, ?_⟩
  · rintro r' ⟨⟩
    rw [hr.releaseId]
    exact Nat.lt_succ_self _
  · exact fun _ _ _ => trivial

theorem saveSiteCleanupRelease_drawn (hub : Nat) (site : SiteRecord) (detached : List Uuid) (reason : String) :
    (saveSiteCleanupRelease p hub site detached reason).Safe (drawnSpec p) := by
  intro w
  refine saveSiteCleanupRelease_rule SavesDrawn.of_quiet (fun _ _ => trivial) fun r hr => ⟨?_, ?_⟩
  · rintro r' ⟨⟩
    rw [hr.releaseId]
    exact Nat.lt_succ_self _
  · exact fun _ _ _ => trivial

/-- Every request saves releases under identifiers that it has drawn. -/
theorem program_drawn (hub : Hub) (r : Request) : (HubService.program p hub r).Safe (drawnSpec p) := by
  have hsite : ∀ site t reason, (saveSiteRelease p hub.id site t reason).Safe (drawnSpec p) :=
    saveSiteRelease_drawn hub.id
  have hcleanup : ∀ site d reason, (saveSiteCleanupRelease p hub.id site d reason).Safe (drawnSpec p) :=
    saveSiteCleanupRelease_drawn hub.id
  cases r with
  | updateSiteStatus siteId enabled =>
    exact safe_discard (updateSiteStatus_safe p hub.id hsite (fun _ _ hc => .of_within (by simp) hc) siteId enabled)
  | deleteSite siteId =>
    exact safe_discard (deleteSite_safe p hub.id hcleanup (fun _ _ hc => .of_within (by simp) hc) siteId)
  | switchSitePrimary siteId request =>
    exact safe_discard
      (switchSitePrimary_safe p hub.id hsite hcleanup (fun _ _ hc => .of_within (by simp) hc) siteId request)
  | createRelease request =>
    exact safe_discard (createRelease_safe p hub.id hsite hcleanup (fun _ _ hc => .of_within (by simp) hc) request)
  | _ => exact (program_only p hub _).safe fun _ _ hc => .of_within (by simp [Request.effects]) hc

end Hub

/-! ## Reachable stores -/

/-- A step of a hub, an operator or a failover worker, or a request some of whose repository calls fail. -/
inductive FaultyStep where
  | step (x : SiteStep)
  | failing (hub : Hub) (request : Request) (fault : Nat → Bool) (e : AppError)

variable (p : Platform) (net : Nat → Delivery)

/-- The world after a request some of whose repository calls fail. -/
def World.serveFailing (w : World) (hub : Hub) (request : Request) (fault : Nat → Bool) (e : AppError) : World :=
  (Fallible.run (faultyHub p fault e) (faulty (HubService.program p hub request)) (w, 0)).2.1

/-- The mesh after a step. -/
def Mesh.afterFaulty (m : Mesh) : FaultyStep → Mesh
  | .step x => m.afterStep p net x
  | .failing hub request fault e => { m with world := m.world.serveFailing p hub request fault e }

section Steps

variable {p net} {w : World} {m m' : Mesh}

theorem Keyed.serveFailing (h : Keyed w) (hub : Hub) (r : Request) (fault : Nat → Bool) (e : AppError) :
    Keyed (w.serveFailing p hub r fault e) :=
  run_failing_keeps (fun _ _ hc hw => hw.call hc) h (program_drawn hub r w)

theorem Keyed.serve (h : Keyed w) (hub : Hub) (r : Request) : Keyed (w.serve p hub r) :=
  (wp_run (fun _ _ hc hw => hw.call hc) h (program_drawn hub r w)).2

/-- A failover that succeeds stores its release under the identifier that it has drawn. -/
theorem Keyed.failover (h : Keyed m.world) {policy : PolicySnapshot} {site : SiteSnapshot} {eventId : Uuid}
    {now : DateTime} (hrun : executeSiteFailover p net policy site eventId now m = (.ok (), m')) : Keyed m'.world := by
  obtain ⟨hdone, -⟩ := Act.wp_ok (executeSiteFailover_stored p net policy site eventId now m) hrun
  obtain ⟨r, -, -, hreleases⟩ := Act.wp_ok (executeSiteFailover_release p net policy site eventId now m) hrun
  have hdraws : m.world.nextUuid < m'.world.nextUuid :=
    Act.wp_ok (executeSiteFailover_draws p net policy site eventId now m) hrun
  refine ⟨h.sites.failover hdone, fun k r hk => ?_⟩
  rw [hreleases] at hk
  rcases Maps.getElem?_insert_eq_some hk with ⟨rfl, -⟩ | ⟨-, hk⟩
  · exact hdraws
  · exact (h.releases k r hk).trans hdraws

theorem Keyed.trigger (h : Keyed m.world) (policy : PolicySnapshot) (now : DateTime) (reason : String) :
    Keyed (Fallible.run (meshHandler p net) (FailoverWorker.triggerPolicyFailover policy now reason) m).2.world := by
  have hsame : ∀ m' : Mesh, m'.world.store = m.world.store → m.Draws m' → Keyed m'.world := by
    intro m' hs hd
    refine ⟨?_, fun k r hk => ?_⟩
    · rw [hs]
      exact h.sites
    · rw [hs] at hk
      exact (h.releases k r hk).trans_le hd
  have hw : wp (.alone (meshHandler p net) (fun _ _ => True) fun _ => True)
      (FailoverWorker.triggerPolicyFailover policy now reason) (fun _ m' => Keyed m'.world) (fun _ m' => Keyed m'.world)
      m := by
    refine triggerPolicyFailover_runs (fun _ _ _ => trivial) hsame
      (fun site eventId m₁ _ _ hs hd => ⟨trivial, ?_⟩) reason
    intro m' m'' hrun hworld
    rw [hworld]
    exact (hsame m₁ hs hd).failover hrun
  have hrun := (wp_run (fun _ _ _ _ => trivial) trivial hw).1
  generalize Fallible.run (meshHandler p net) (FailoverWorker.triggerPolicyFailover policy now reason) m = out at hrun ⊢
  rcases out with ⟨e | _, m'⟩
  · exact hrun
  · exact hrun

/-- One step. -/
theorem Keyed.step (h : Keyed m.world) (x : FaultyStep) : Keyed (m.afterFaulty p net x).world := by
  cases x with
  | failing hub request fault e => exact h.serveFailing hub request fault e
  | step x =>
    rw [Mesh.afterFaulty]
    cases x with
    | hub hub request =>
      rw [Mesh.afterStep, Mesh.serve_hub]
      exact h.serve hub request
    | savePolicy policy =>
      change Keyed { m.world with store := savePolicy policy m.world.store }
      unfold savePolicy
      split
      · exact ⟨h.sites, h.releases⟩
      · exact ⟨h.sites, h.releases⟩
    | trigger policyId now reason =>
      rw [Mesh.afterStep]
      split
      · exact h
      · rename_i policy _
        exact h.trigger policy now reason

end Steps

/-- The mesh after some steps. -/
def Mesh.afterFaults (m : Mesh) (steps : List FaultyStep) : Mesh := steps.foldl (Mesh.afterFaulty p net) m

variable {p net} in
/-- Runs. -/
theorem Keyed.run {m : Mesh} (h : Keyed m.world) (steps : List FaultyStep) :
    Keyed (m.afterFaults p net steps).world := by
  induction steps generalizing m with
  | nil => exact h
  | cons x xs ih => exact ih (h.step x)

/-- In every reachable store, whatever calls of the repository fail: an operation that comes back with an error has left
the sites, the policies and the releases as they were, exactly if it does not fail after its first write. -/
theorem operation_unchanged_run_iff (remote : RemoteDns) (steps : List FaultyStep) (hub : Hub) (fault : Nat → Bool)
    (e : AppError) (op : SiteOperation) :
    (∀ err s, Fallible.run (faultyHub p fault e) (faulty (HubService.program p hub op.request))
        (((Mesh.init remote).afterFaults p net steps).world, 0) = (.error err, s) →
      ((Mesh.init remote).afterFaults p net steps).world.Unchanged s.1) ↔
    ¬ FailsHalfway ((Mesh.init remote).afterFaults p net steps).world.store fault op := by
  have h : Keyed ((Mesh.init remote).afterFaults p net steps).world := Keyed.init.run steps
  exact operation_unchanged_iff hub h.sites h.releases.next op

/-- A run that fails and leaves the site with another version. -/
theorem not_unchanged_of_run {α ε : Type} {w : World} {out : Except ε α × World × Nat} (siteId : Uuid)
    (hfails : out.1.isOk = false)
    (hversion : out.2.1.store.sites[siteId]?.map (·.version) ≠ w.store.sites[siteId]?.map (·.version)) :
    ¬ ∀ err s, out = (.error err, s) → w.Unchanged s.1 := by
  intro h
  obtain ⟨result, s⟩ := out
  cases result with
  | ok a => cases hfails
  | error err =>
    obtain ⟨hsites, -⟩ := h err s rfl
    exact hversion (congrArg (fun m => m[siteId]?.map (·.version)) hsites)

/-- A site on three nodes whose domain has been blanked. -/
def blankedSite : List FaultyStep :=
  watchedSite.map FaultyStep.step ++ [FaultyStep.step (.hub ⟨0, 30⟩ (.updateSite 6 {
    name := "example", domain := " ", listenPort := 80, protocol := "http", tlsEnabled := false
    config := .object [] }))]

/-- One repository call fails after a switch has saved the bindings; and the status of a site whose domain is blank is
set, where no call fails. -/
theorem switch_half_done :
    (¬ ∀ err s, Fallible.run (faultyHub .plain (· == 4) (.internal "lost"))
        (faulty (HubService.program .plain ⟨0, 30⟩
          (SiteOperation.switchSitePrimary 6
            { targetNodeId := some 2, reason := none, keepPreviousAsStandby := none }).request))
        (((Mesh.init (.ofZones [])).afterFaults .plain (fun _ => .done) (watchedSite.map .step)).world, 0) =
          (.error err, s) →
      ((Mesh.init (.ofZones [])).afterFaults .plain (fun _ => .done) (watchedSite.map .step)).world.Unchanged s.1) ∧
    ¬ ∀ err s, Fallible.run (faultyHub .plain (fun _ => false) (.internal "lost"))
        (faulty (HubService.program .plain ⟨0, 30⟩ (SiteOperation.updateSiteStatus 6 false).request))
        (((Mesh.init (.ofZones [])).afterFaults .plain (fun _ => .done) blankedSite).world, 0) = (.error err, s) →
      ((Mesh.init (.ofZones [])).afterFaults .plain (fun _ => .done) blankedSite).world.Unchanged s.1 := by
  constructor
  · exact not_unchanged_of_run 6 (by decide +kernel) (by decide +kernel)
  · exact not_unchanged_of_run 6 (by decide +kernel) (by decide +kernel)

end PingoraMesh
