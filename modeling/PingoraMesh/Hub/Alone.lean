import PingoraMesh.Hub.Service
import PingoraMesh.Lib.Prog

/-!
# Requests that run alone

Rules for the parts that several requests share, when nothing runs beside them: the two ways to save a release
(`saveSiteRelease_rule`, `saveSiteCleanupRelease_rule`). A rule leaves open what is asked of a call (`ok`) and which
invariant holds between calls (`I`), so that each result about sequences of requests uses it for its own.
-/

namespace PingoraMesh

open Calls Fallible HubService

/-- The calls that leave the stores as they are. -/
def HubCall.Quiet : HubCall → Prop
  | .saveNode _ | .deleteNode _ | .recordHeartbeat _ | .saveSite _ | .deleteSite _
  | .updateActiveFailoverPolicyTargets _ _ _ | .saveRelease _ | .updateReleaseAck _ _ _ | .saveDnsProvider _
  | .deleteDnsProvider _ | .saveDnsZone _ | .deleteDnsZone _ | .saveCertificate _ | .saveCertificateOrder _
  | .saveAdminUser _ | .touchAdminUserLogin _ _ | .saveAdminSession _ | .touchAdminSession _ _ | .deleteAdminSession _
  | .deleteAdminSessionsForUser _ _ | .saveOperationTemplate _ | .deleteOperationTemplate _ | .saveNodeOperation _
  | .claimNextNodeOperation _ | .updateNodeOperation _ | .issueTokens _ _ | .revokeTokens _ => False
  | _ => True

/-- The world after a hub instance has drawn a serial and an identifier and read the clock `n` times. -/
def World.issued (w : World) (hub n : Nat) : World :=
  { w with
    counters := w.counters.insert hub (w.serial hub + 1)
    nextUuid := w.nextUuid + 1
    tick := w.tick + n }

@[simp] theorem World.issued_store (w : World) (hub n : Nat) : (w.issued hub n).store = w.store := rfl

@[simp] theorem World.issued_nextUuid (w : World) (hub n : Nat) : (w.issued hub n).nextUuid = w.nextUuid + 1 := rfl

@[simp] theorem World.issued_tick (w : World) (hub n : Nat) : (w.issued hub n).tick = w.tick + n := rfl

@[simp] theorem World.issued_serial (w : World) (hub n : Nat) : (w.issued hub n).serial hub = w.serial hub + 1 := by
  simp [World.serial, World.issued]

/-- What is known of the release that a hub instance saves next. -/
structure NewRelease (p : Platform) (hub : Nat) (w : World) (scope scopeType : String) (siteId : Uuid)
    (targets : List Uuid) (r : ReleaseRecord) : Prop where
  releaseId : r.releaseId = w.nextUuid
  version : r.releaseVersion = buildReleaseVersion scope (p.clock w.tick) (w.serial hub)
  scopeType : r.scopeType = scopeType
  scopeId : r.scopeId = some siteId
  targets : r.targetNodeIds = targets
  ackStatus : r.ackStatus = buildReleaseAckStatus r.targetNodeIds
  status : r.status = aggregateReleaseStatus r.ackStatus
  createdAt : r.createdAt = p.clock (w.tick + 2)
  bundleScope : r.bundle.manifest.scope = r.scopeType
  certificates : r.bundle.certificates =
    if r.scopeType = "site" then (w.store.siteCertificates[siteId]?).getD [] else []
  manifestCertificates : r.bundle.manifest.certificates = r.bundle.certificates

theorem compileSiteBundle_manifest {site : SiteSpec} {certificates : List CertificateRef}
    {targets : List ReleaseTarget} {version : String} {id : Uuid} {now : DateTime} {bundle : CompiledConfigBundle}
    (h : internalError (compileSiteBundle site certificates targets version id now) = .ok bundle) :
    bundle.manifest.releaseId = id ∧ bundle.manifest.releaseVersion = version ∧ bundle.manifest.scope = "site" ∧
      bundle.certificates = certificates ∧ bundle.manifest.certificates = bundle.certificates := by
  unfold compileSiteBundle at h
  split at h
  · cases h
  · cases h
    exact ⟨rfl, rfl, rfl, rfl, rfl⟩

theorem compileSiteCleanupBundle_manifest {site : SiteSpec} {targets : List ReleaseTarget} {version : String}
    {id : Uuid} {now : DateTime} {bundle : CompiledConfigBundle}
    (h : internalError (compileSiteCleanupBundle site targets version id now) = .ok bundle) :
    bundle.manifest.releaseId = id ∧ bundle.manifest.releaseVersion = version ∧
      bundle.manifest.scope = "site_cleanup" ∧ bundle.certificates = [] ∧
      bundle.manifest.certificates = bundle.certificates := by
  unfold compileSiteCleanupBundle at h
  split at h
  · cases h
  · cases h
    exact ⟨rfl, rfl, rfl, rfl, rfl⟩

/-- A cleanup is refused only for a blank site code. -/
theorem compileSiteCleanupBundle_error {site : SiteRecord} {lower : String → String} {targets : List ReleaseTarget}
    {version : String} {id : Uuid} {now : DateTime} {e : AppError}
    (h : internalError (compileSiteCleanupBundle (site.toSpec lower) targets version id now) = .error e) :
    Text.isEmpty (Text.trim site.siteCode) := by
  unfold compileSiteCleanupBundle at h
  split at h
  · assumption
  · cases h

/-- Running alone, with nothing asked of the calls. -/
abbrev aloneSpec (p : Platform) : Spec hubSig World := .alone (hubHandler p) (fun _ _ => True) fun _ => True

/-- What the calls of a program keep, the program keeps. -/
theorem only_alone {p : Platform} {α : Type} {x : HubM α} {K : HubCall → Prop} (h : x.Only K) {I : World →
    Prop} {w : World} (hI : ∀ c w, K c → I w → I (hubHandler p c w).2) (hw : I w) :
    wp (aloneSpec p) x (fun _ => I) (fun _ => I) w := by
  refine h.wp (fun _ _ _ _ => trivial) (fun c w r w' hc hw hcan => ?_) hw
  obtain ⟨-, rfl, -⟩ := hcan
  exact hI c w hc hw

/-- What holds however a request ends holds of the world after it. -/
theorem serve_of_wp {p : Platform} {hub : Hub} {r : Request} {Q : World → Prop} {w : World}
    (h : wp (aloneSpec p) (HubService.program p hub r) (fun _ => Q) (fun _ => Q) w) : Q (w.serve p hub r) := by
  have := (wp_run (fun _ _ _ _ => trivial) trivial h).1
  unfold World.serve
  generalize Fallible.run (hubHandler p) (HubService.program p hub r) w = out at this ⊢
  rcases out with ⟨e | _, w'⟩
  · exact this
  · exact this

/-- What holds of a program when it succeeds holds when a run of it does. -/
theorem of_run_isOk {p : Platform} {α : Type} {x : HubM α} {P : Prop} {w : World}
    (h : wp (aloneSpec p) x (fun _ _ => P) (fun _ _ => True) w)
      (hok : (Fallible.run (hubHandler p) x w).1.isOk = true) :
    P := by
  have hrun := (wp_run (fun _ _ _ _ => trivial) trivial h).1
  generalize Fallible.run (hubHandler p) x w = out at hrun hok
  rcases out with ⟨e | a, w'⟩
  · cases hok
  · exact hrun

/-- `Good` holds after every prefix of a sequence of requests if and only if none of them is bad in the world it meets,
where a bad request breaks `Good` and the others keep an invariant that gives it. -/
theorem World.forall_prefix_iff {p : Platform} {hub : Hub} {I Good : World → Prop} {Bad : World → Request → Prop}
    {Never : World → List Request → Prop} (hnil : ∀ w, Never w [])
    (hcons : ∀ w r rs, Never w (r :: rs) ↔ ¬ Bad w r ∧ Never (w.serve p hub r) rs) (hgood : ∀ w, I w → Good w)
    (hbad : ∀ w r, I w → Bad w r → ¬ Good (w.serve p hub r)) (hkeep : ∀ w r, I w → ¬ Bad w r → I (w.serve p hub r))
    {w : World} (hw : I w) (rs : List Request) :
    (∀ pre, pre <+: rs → Good (w.serveAll p hub pre)) ↔ Never w rs :=
  Runs.forall_prefix_iff hnil hcons hgood hbad hkeep hw rs

/-- The request succeeds when nothing interrupts it. -/
def World.Succeeds (p : Platform) (hub : Hub) (w : World) (r : Request) : Prop :=
  (Fallible.run (hubHandler p) (HubService.program p hub r) w).1.isOk

instance (p : Platform) (hub : Hub) (w : World) (r : Request) : Decidable (w.Succeeds p hub r) :=
  inferInstanceAs (Decidable (_ = true))

theorem serve_of_succeeds {p : Platform} {hub : Hub} {r : Request} {Q E : World → Prop} {w : World}
    (h : wp (aloneSpec p) (HubService.program p hub r) (fun _ => Q) (fun _ => E) w) (hr : w.Succeeds p hub r) :
    Q (w.serve p hub r) := by
  have := (wp_run (fun _ _ _ _ => trivial) trivial h).1
  unfold World.Succeeds at hr
  unfold World.serve
  generalize Fallible.run (hubHandler p) (HubService.program p hub r) w = out at this hr ⊢
  rcases out with ⟨e | _, w'⟩
  · cases hr
  · exact this

section Rules

variable {p : Platform} {hub : Nat} {ok : HubCall → World → Prop} {I : World → Prop} {w : World}
  {Q : SavedRelease → World → Prop} {E : AppError → World → Prop} {site : SiteRecord}

/-- `save_site_release` alone: a refusal leaves the store, and otherwise one release is saved. -/
theorem saveSiteRelease_rule {releaseType reason : String} (hok : ∀ c w', c.Quiet → ok c w') (hw : ∀ e, E e w)
    (hE : ∀ e, E e (w.issued hub 2))
    (hS : ∀ r, NewRelease p hub w "site" "site" site.id (site.bindings.map (·.nodeId)) r →
      ok (.saveRelease r) (w.issued hub 3) ∧
        (I { w.issued hub 3 with store := w.store.saveRelease r } → ∀ s : SavedRelease, s.releaseId = r.releaseId →
          Q s { w.issued hub 3 with store := w.store.saveRelease r })) :
    wp (.alone (hubHandler p) ok I) (saveSiteRelease p hub site releaseType reason) Q E w := by
  simp only [saveSiteRelease, saveCompiledRelease, repo, wp_bind, wp_attempt, wp_call_alone, wp_pure, hubHandler,
    World.read, World.write]
  refine ⟨fun _ _ => ⟨hok _ _ trivial, fun _ => ⟨hok _ _ trivial, fun _ => ⟨hok _ _ trivial, fun _ =>
    ⟨hok _ _ trivial, fun _ => ⟨hok _ _ trivial, fun _ => ⟨fun bundle hb => ⟨hok _ _ trivial, fun _ => ?_⟩,
      fun e _ => hE e⟩⟩⟩⟩⟩⟩, fun e _ => hw e⟩
  obtain ⟨hid, hver, hscope, hcerts, hman⟩ := compileSiteBundle_manifest hb
  have := hS (compiledRelease "site" (some site.id) releaseType reason bundle (site.bindings.map (·.nodeId))
    (p.clock (w.tick + 2))) ⟨hid, hver, rfl, rfl, rfl, rfl, rfl, rfl, hscope, hcerts.trans (if_pos rfl).symm, hman⟩
  exact ⟨this.1, fun hi => this.2 hi _ rfl⟩

/-- `save_site_cleanup_release` alone: for a blank site code a refusal leaves the store, and otherwise one release is
saved. -/
theorem saveSiteCleanupRelease_rule {detached : List Uuid} {reason : String} (hok : ∀ c w', c.Quiet → ok c w')
    (hE : Text.isEmpty (Text.trim site.siteCode) → ∀ e, E e (w.issued hub 2))
    (hS : ∀ r, NewRelease p hub w "cleanup" "site_cleanup" site.id detached r →
      ok (.saveRelease r) (w.issued hub 3) ∧
        (I { w.issued hub 3 with store := w.store.saveRelease r } → ∀ s : SavedRelease, s.releaseId = r.releaseId →
          Q s { w.issued hub 3 with store := w.store.saveRelease r })) :
    wp (.alone (hubHandler p) ok I) (saveSiteCleanupRelease p hub site detached reason) Q E w := by
  simp only [saveSiteCleanupRelease, saveCompiledRelease, repo, wp_bind, wp_attempt, wp_call_alone, wp_pure,
    hubHandler, World.write]
  refine ⟨hok _ _ trivial, fun _ => ⟨hok _ _ trivial, fun _ => ⟨hok _ _ trivial, fun _ => ⟨hok _ _ trivial, fun _ =>
    ⟨fun bundle hb => ⟨hok _ _ trivial, fun _ => ?_⟩, fun e he => hE (compileSiteCleanupBundle_error he) e⟩⟩⟩⟩⟩
  obtain ⟨hid, hver, hscope, hcerts, hman⟩ := compileSiteCleanupBundle_manifest hb
  have := hS (compiledRelease "site_cleanup" (some site.id) "cleanup"
    ("cleanup detached nodes for " ++ site.siteCode ++ ": " ++ reason) bundle detached (p.clock (w.tick + 2)))
    ⟨hid, hver, rfl, rfl, rfl, rfl, rfl, rfl, hscope, hcerts.trans (if_neg (by simp [compiledRelease])).symm, hman⟩
  exact ⟨this.1, fun hi => this.2 hi _ rfl⟩

/-- The choice of a switch target only looks a node up: one that the request names exists. -/
theorem chooseSwitchTarget_rule {current : Option Uuid} {request : SwitchSitePrimaryRequest} {Q : Uuid → World → Prop}
    (hok : ∀ c w', c.Quiet → ok c w')
    (hQ : ∀ target, target ∈ (request.targetNodeId <|> switchTarget site.bindings current) →
      (target ∈ request.targetNodeId → target ∈ w.store.nodes) → Q target w) (hE : ∀ e, E e w) :
    wp (.alone (hubHandler p) ok I) (chooseSwitchTarget site current request) Q E w := by
  unfold chooseSwitchTarget
  cases ht : request.targetNodeId with
  | none => exact (wp_okOr _ _).2 ⟨fun target h => hQ target (by rw [ht]; exact h) (by rw [ht]; exact nofun),
    fun _ => hE _⟩
  | some target =>
    simp only [repo, wp_bind, wp_call_alone, wp_ensure, wp_pure, hubHandler, World.read]
    refine ⟨hok _ _ trivial, fun _ => ⟨fun hnode => hQ target (by rw [ht]; rfl) fun _ => ?_, fun _ => hE _⟩⟩
    rw [Std.ExtTreeMap.mem_iff_isSome_getElem?]
    exact hnode

end Rules

end PingoraMesh
