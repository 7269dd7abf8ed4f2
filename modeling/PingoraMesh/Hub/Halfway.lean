import PingoraMesh.Hub.Publish
import PingoraMesh.Hub.Switch
import PingoraMesh.Lib.Faulty

/-!
# Requests that fail halfway

The requests on sites make several writes, each a call of its own, and no transaction holds them together. Here the
calls of the repository at some positions fail without effect (`faultyHub`).

* `createRelease_fault`: when publishing a stored site fails, and whether it has saved a release then;
* `updateSiteStatus_fault`, `switchSitePrimary_fault`, `publish_fault`, `deleteSite_fault`: when an operation fails
  after its first write;
* `operation_unchanged_iff`: it leaves the sites, the policies and the releases as they were exactly if it does not.
-/

namespace PingoraMesh

open Calls Fallible HubService

/-! ## Failing calls -/

/-- A call of `HubRepository`: the others go to the clock, the counter, the generators, the token store and the DNS
provider. -/
def HubCall.asksRepository : HubCall → Bool
  | .issueTokens _ _ | .revokeTokens _ | .accessLease _ | .refreshLease _ | .fetchAddReleaseCounter _ | .utcNow
  | .newUuid | .argon2Hash _ | .listZones _ _ => false
  | _ => true

/-- The hub, where the repository calls at the positions in `fault` fail with an error and have no effect. -/
abbrev faultyHub (p : Platform) (fault : Nat → Bool) (e : AppError) : Handler (hubSig.faulty AppError) (World × Nat) :=
  failing (hubHandler p) HubCall.asksRepository fault e

/-- Running alone, with failing calls. -/
abbrev faultSpec (p : Platform) (fault : Nat → Bool) (e : AppError) : Spec (hubSig.faulty AppError) (World × Nat) :=
  .alone (faultyHub p fault e) (fun _ _ => True) fun _ => True

/-- One of the `n` repository calls from the `k`th on fails. -/
def FailsIn (fault : Nat → Bool) (k n : Nat) : Bool := (List.range' k n).any fault

@[simp] theorem failsIn_zero (fault : Nat → Bool) (k : Nat) : FailsIn fault k 0 = false := rfl

@[simp] theorem failsIn_succ (fault : Nat → Bool) (k n : Nat) :
    FailsIn fault k (n + 1) = (fault k || FailsIn fault (k + 1) n) := by
  simp [FailsIn, List.range'_succ]

theorem failsIn_one_add (fault : Nat → Bool) (k n : Nat) :
    FailsIn fault k (1 + n) = (fault k || FailsIn fault (k + 1) n) := by
  rw [Nat.add_comm, failsIn_succ]

theorem failsIn_mono {fault : Nat → Bool} {k m n : Nat} (h : FailsIn fault k m = true) (hmn : m ≤ n) :
    FailsIn fault k n = true := by
  obtain ⟨i, hi, hf⟩ := List.any_eq_true.1 h
  obtain ⟨hk, hi⟩ := List.mem_range'_1.1 hi
  exact List.any_eq_true.2 ⟨i, List.mem_range'_1.2 ⟨hk, by omega⟩, hf⟩

section Parts

variable {p : Platform} {hub : Nat} {fault : Nat → Bool} {e : AppError} {w : World} {k : Nat} {site : SiteRecord}

/-- `save_site_release` makes two repository calls, of which the second is its write. -/
theorem saveSiteRelease_fault {Q : SavedRelease → World × Nat → Prop} {E : Option AppError → World × Nat → Prop}
    (releaseType reason : String)
    (hE : ¬ site.Compiles ∨ FailsIn fault k 2 = true → ∀ e' w' k', w'.store = w.store → E e' (w', k'))
    (hQ : site.Compiles → FailsIn fault k 2 = false → ∀ saved w' r, r.releaseId = w.nextUuid →
      w'.store = w.store.saveRelease r → Q saved (w', k + 2)) :
    wp (faultSpec p fault e) (faulty (saveSiteRelease p hub site releaseType reason)) Q E (w, k) := by
  simp only [saveSiteRelease, saveCompiledRelease, repo, faulty_bind, faulty_attempt, faulty_call, faulty_pure, wp_bind,
    wp_attempt_mapError, wp_pure, wp_tryCall_failing, HubCall.asksRepository, if_true, Bool.false_eq_true, if_false,
    hubHandler, World.read, World.write]
  refine ⟨fun _ hvalid => ⟨fun h₀ => hE (.inr (by simp [h₀])) _ _ _ rfl, fun h₀ => ⟨fun bundle hb =>
    ⟨fun h₁ => hE (.inr (by simp [h₁])) _ _ _ rfl, fun h₁ => ?_⟩, fun e' hb => hE (.inl ?_) _ _ _ rfl⟩⟩,
    fun e' hinvalid => hE (.inl ?_) _ _ _ rfl⟩
  · exact hQ ⟨isOk_iff.2 hvalid, compileSiteBundle_ok hb⟩ (by simp [h₀, h₁]) _ _ _ (compileSiteBundle_manifest hb).1 rfl
  · rintro ⟨-, hdomain⟩
    rw [compileSiteBundle_error hb] at hdomain
    cases hdomain
  · rintro ⟨hvalid, -⟩
    rw [hinvalid] at hvalid
    cases hvalid

/-- `save_site_cleanup_release` makes one repository call, its write. -/
theorem saveSiteCleanupRelease_fault {Q : SavedRelease → World × Nat → Prop}
    {E : Option AppError → World × Nat → Prop} (detached : List Uuid) (reason : String)
    (hE : Text.isEmpty (Text.trim site.siteCode) = true ∨ fault k = true → ∀ e' w' k', w'.store = w.store →
      E e' (w', k'))
    (hQ : Text.isEmpty (Text.trim site.siteCode) = false → fault k = false → ∀ saved w' r, r.releaseId = w.nextUuid →
      w'.store = w.store.saveRelease r → Q saved (w', k + 1)) :
    wp (faultSpec p fault e) (faulty (saveSiteCleanupRelease p hub site detached reason)) Q E (w, k) := by
  simp only [saveSiteCleanupRelease, saveCompiledRelease, repo, faulty_bind, faulty_attempt, faulty_call, faulty_pure,
    wp_bind, wp_attempt_mapError, wp_pure, wp_tryCall_failing, HubCall.asksRepository, if_true, Bool.false_eq_true,
    if_false, hubHandler, World.write]
  refine ⟨fun bundle hb => ⟨fun h₀ => hE (.inr h₀) _ _ _ rfl, fun h₀ => hQ ?_ h₀ _ _ _ ?_ rfl⟩,
    fun e' hb => hE (.inl (compileSiteCleanupBundle_error hb)) _ _ _ rfl⟩
  · unfold compileSiteCleanupBundle at hb
    split at hb
    · cases hb
    · exact Bool.eq_false_iff.2 (by assumption)
  · exact (compileSiteCleanupBundle_manifest hb).1

end Parts

/-! ## Publishing -/

/-- The nodes that `create_release` finds detached from the site. -/
def SiteRecord.detached (site : SiteRecord) (s : MemoryState) : List Uuid :=
  detachedNodeIds s.releases.values site.id (site.bindings.map (·.nodeId))

/-- A cleanup release of the site cannot be compiled. -/
def SiteRecord.Uncoded (site : SiteRecord) : Prop := Text.isEmpty (Text.trim site.siteCode) = true

instance (site : SiteRecord) : Decidable site.Uncoded := inferInstanceAs (Decidable (_ = true))

section Publish

variable (s : MemoryState) (site : SiteRecord) (fault : Nat → Bool) (k : Nat)

/-- `create_release` of the stored site, with its repository calls from the `k`th on, does not come to its end. -/
def PublishStops : Prop :=
  (site.bindings.isEmpty ∧ (site.detached s).isEmpty) ∨ (site.bindings.isEmpty = false ∧ ¬ site.Compiles) ∨
    ((site.detached s).isEmpty = false ∧ site.Uncoded) ∨
      FailsIn fault k (3 + (if site.bindings.isEmpty then 0 else 2) + if (site.detached s).isEmpty then 0 else 1) = true

/-- `create_release` of the stored site saves a release. -/
def PublishSaves : Prop :=
  if site.bindings.isEmpty then (site.detached s).isEmpty = false ∧ ¬ site.Uncoded ∧ FailsIn fault k 3 = false
  else site.Compiles ∧ FailsIn fault k 4 = false

instance : Decidable (PublishStops s site fault k) := inferInstanceAs (Decidable (_ ∨ _))

instance : Decidable (PublishSaves s site fault k) := by
  unfold PublishSaves
  infer_instance

end Publish

section Publish

variable {p : Platform} {hub : Nat} {fault : Nat → Bool} {e : AppError} {w : World} {k : Nat} {site : SiteRecord}

/-- How `create_release` of the stored site fails: whether it has saved a release then, and that it has saved no site.
-/
structure PublishFailed (w : World) (site : SiteRecord) (fault : Nat → Bool) (k : Nat) (w' : World) : Prop where
  stops : PublishStops w.store site fault k
  sites : w'.store.sites = w.store.sites
  policies : w'.store.failoverPolicies = w.store.failoverPolicies
  saved : PublishSaves w.store site fault k → w.nextUuid ∈ w'.store.releases
  unsaved : ¬ PublishSaves w.store site fault k → w'.store = w.store

theorem PublishFailed.early {w' : World} (hstops : PublishStops w.store site fault k)
    (hnone : ¬ PublishSaves w.store site fault k) (h : w'.store = w.store) : PublishFailed w site fault k w' :=
  ⟨hstops, by rw [h], by rw [h], fun hsaves => absurd hsaves hnone, fun _ => h⟩

theorem PublishFailed.late {w' : World} {s : MemoryState} (hstops : PublishStops w.store site fault k)
    (hsaves : PublishSaves w.store site fault k) (h : w'.store = s) (hsites : s.sites = w.store.sites)
    (hpolicies : s.failoverPolicies = w.store.failoverPolicies) (hmem : w.nextUuid ∈ s.releases) :
    PublishFailed w site fault k w' := by
  subst h
  exact ⟨hstops, hsites, hpolicies, fun _ => hmem, fun hnone => absurd hsaves hnone⟩

theorem wp_saveSite_fault {record : SiteRecord} {Q : Unit → World × Nat → Prop}
    {E : Option AppError → World × Nat → Prop} :
    @wp (hubSig.faulty AppError) (Option AppError) Unit (World × Nat) (faultSpec p fault e)
      (@tryCall hubSig AppError (.saveSite record)) Q E (w, k) ↔
      (fault k = true → E (some e) (w, k + 1)) ∧
        (fault k = false → Q () ({ w with store := w.store.saveSite record }, k + 1)) :=
  wp_tryCall_failing

theorem mem_saveRelease_self {s : MemoryState} {r : ReleaseRecord} {id : Uuid} (h : r.releaseId = id) :
    id ∈ (s.saveRelease r).releases := by
  rw [← h]
  exact Std.ExtTreeMap.mem_insert_self

theorem mem_saveRelease_of_mem {s : MemoryState} {r : ReleaseRecord} {id : Uuid} (h : id ∈ s.releases) :
    id ∈ (s.saveRelease r).releases :=
  Std.ExtTreeMap.mem_insert.2 (.inr h)

/-- `create_release` fails in its first two calls, which read. -/
theorem PublishFailed.reads (h : FailsIn fault k 2 = true) : PublishFailed w site fault k w := by
  refine .early (.inr (.inr (.inr (failsIn_mono h (by omega))))) ?_ rfl
  unfold PublishSaves
  rw [failsIn_mono (n := 3) h (by omega), failsIn_mono (n := 4) h (by omega)]
  simp

/-- `create_release` of a stored site: when it fails, and how. -/
theorem createRelease_fault {request : CreateReleaseRequest} (hscope : request.scopeType = "site")
    (hsite : w.store.sites[request.scopeId]? = some site) :
    wp (faultSpec p fault e) (faulty (createRelease p hub request)) (fun _ _ => ¬ PublishStops w.store site fault k)
      (fun _ s => PublishFailed w site fault k s.1) (w, k) := by
  simp only [createRelease, detachedNodeIdsForSite, repo, faulty_bind, faulty_ensure, faulty_okOr, faulty_onlyIf,
    faulty_call, faulty_pure, wp_bind, wp_ensure, wp_okOr, wp_pure, wp_tryCall_failing, HubCall.asksRepository, if_true,
    hubHandler, World.read, wp_onlyIf]
  have hdetached : detachedNodeIds w.store.releases.values site.id (site.bindings.map (·.nodeId)) =
      site.detached w.store := rfl
  rw [hsite]
  refine ⟨fun _ => ⟨fun h₀ => .reads (by simp [h₀]), fun h₀ => ⟨fun found hfound => ?_, fun e => by cases e⟩⟩,
    fun h => ?_⟩
  swap
  · rw [hscope] at h
    cases h
  cases hfound
  rw [hdetached]
  refine ⟨fun h₁ => .reads (by simp [h₁]), fun h₁ => ?_⟩
  cases hbound : site.bindings.isEmpty with
  | true =>
    cases hdet : (site.detached w.store).isEmpty with
    | true =>
      simp only [List.isEmpty_map, hbound, Bool.and_self, Bool.not_true, Bool.false_eq_true, false_imp_iff, true_and,
        forall_const]
      exact .early (.inl ⟨hbound, hdet⟩) (by simp [PublishSaves, hbound, hdet]) rfl
    | false =>
      simp only [List.isEmpty_map, hbound, Bool.and_false, Bool.not_false, Bool.not_true, Bool.false_eq_true,
        Bool.true_eq_false, false_imp_iff, true_and, and_true, forall_const]
      refine saveSiteCleanupRelease_fault _ _ (fun h e' w' k' hs => ?_) fun hcode h₂ saved w₁ r hid hs => ?_
      · rcases h with h | h
        · exact .early (by simp [PublishStops, SiteRecord.Uncoded, hdet, h])
            (by simp [PublishSaves, SiteRecord.Uncoded, hbound, h]) hs
        · exact .early (by simp [PublishStops, hbound, hdet, h]) (by simp [PublishSaves, hbound, h]) hs
      · have hsaves : PublishSaves w.store site fault k := by
          simp [PublishSaves, SiteRecord.Uncoded, hbound, hdet, hcode, h₀, h₁, h₂]
        rw [wp_saveSite_fault]
        refine ⟨fun h₃ => .late ?_ hsaves hs rfl rfl (mem_saveRelease_self hid),
          fun h₃ => ⟨fun _ _ => ?_, fun e => by cases e⟩⟩
        · simp [PublishStops, hbound, hdet, h₃]
        · simp [PublishStops, SiteRecord.Uncoded, hbound, hdet, hcode, h₀, h₁, h₂, h₃]
  | false =>
    -- the release of the bound nodes is the first write
    have hfirst : ∀ w', ¬ site.Compiles ∨ FailsIn fault (k + 1 + 1) 2 = true → w'.store = w.store →
        PublishFailed w site fault k w' := by
      intro w' h hs
      rcases h with h | h
      · exact .early (.inr (.inl ⟨hbound, h⟩)) (by simp [PublishSaves, hbound, h]) hs
      · have hfour : FailsIn fault k 4 = true := by
          simp only [failsIn_succ, h₀, h₁, Bool.false_or] at h ⊢
          exact h
        refine .early (.inr (.inr (.inr (failsIn_mono hfour ?_))))
          (by simp [-failsIn_succ, PublishSaves, hbound, hfour]) hs
        rw [hbound, if_neg (by decide)]
        omega
    have hsaves : site.Compiles → FailsIn fault (k + 1 + 1) 2 = false → PublishSaves w.store site fault k := by
      intro hc hf
      simp only [failsIn_succ, failsIn_zero, Bool.or_eq_false_iff, and_true] at hf
      simp [PublishSaves, hbound, hc, h₀, h₁, hf.1, hf.2]
    cases hdet : (site.detached w.store).isEmpty with
    | true =>
      simp only [List.isEmpty_map, hbound, Bool.false_and, Bool.not_false, Bool.not_true, Bool.false_eq_true,
        Bool.true_eq_false, false_imp_iff, true_and, and_true, forall_const]
      refine saveSiteRelease_fault _ _ (fun h _ w' _ hs => hfirst w' h hs) fun hc hf saved w₁ r hid hs => ?_
      rw [wp_saveSite_fault]
      refine ⟨fun h₄ => .late ?_ (hsaves hc hf) hs rfl rfl (mem_saveRelease_self hid),
        fun h₄ => ⟨fun _ _ => ?_, fun e => by cases e⟩⟩
      · simp [PublishStops, hbound, hdet, h₄]
      · simp only [failsIn_succ, failsIn_zero, Bool.or_eq_false_iff, and_true] at hf
        simp [PublishStops, hbound, hdet, hc, h₀, h₁, hf.1, hf.2, h₄]
    | false =>
      simp only [List.isEmpty_map, hbound, Bool.and_self, Bool.not_false, Bool.true_eq_false, false_imp_iff,
        and_true, forall_const]
      refine saveSiteRelease_fault _ _ (fun h _ w' _ hs => hfirst w' h hs) fun hc hf saved w₁ r hid hs => ?_
      refine saveSiteCleanupRelease_fault _ _ (fun h _ w' _ hs' => ?_) fun hcode h₄ saved' w₂ r' _ hs' => ?_
      · refine .late ?_ (hsaves hc hf) (hs'.trans hs) rfl rfl (mem_saveRelease_self hid)
        rcases h with h | h
        · exact .inr (.inr (.inl ⟨hdet, h⟩))
        · simp [PublishStops, hbound, hdet, h]
      · rw [wp_saveSite_fault]
        refine ⟨fun h₅ => .late ?_ (hsaves hc hf) hs' ?_ ?_ ?_, fun h₅ => ⟨fun _ _ => ?_, fun e => by cases e⟩⟩
        · simp [PublishStops, hbound, hdet, h₅]
        · rw [hs]
          rfl
        · rw [hs]
          rfl
        · rw [hs]
          exact mem_saveRelease_of_mem (mem_saveRelease_self hid)
        · simp only [failsIn_succ, failsIn_zero, Bool.or_eq_false_iff, and_true] at hf
          simp [PublishStops, SiteRecord.Uncoded, hbound, hdet, hc, hcode, h₀, h₁, hf.1, hf.2, h₄, h₅]

end Publish

/-! ## Switching -/

/-- The nodes of the site after a switch from `p` to `t`. -/
def keptNodes (old : List SiteBindingRecord) (p t : Uuid) (keep : Bool) : List Uuid :=
  t :: (old.map (·.nodeId)).filter fun n => keep || n != p

/-- A switch from `p` to `t` leaves a standby. -/
def leavesStandby (old : List SiteBindingRecord) (p t : Uuid) (keep : Bool) : Bool :=
  keep || old.any fun b => b.nodeId != t && b.nodeId != p && (b.bindingRole == "primary" || b.bindingRole == "standby")

section Switch

variable {old : List SiteBindingRecord} {p t : Uuid} {keep : Bool}

theorem detachedNodeIds_congr {releases : List ReleaseRecord} {siteId : Uuid} {a b : List Uuid}
    (h : ∀ n, n ∈ a ↔ n ∈ b) : detachedNodeIds releases siteId a = detachedNodeIds releases siteId b := by
  have hcontains : ∀ n, a.contains n = b.contains n := by
    intro n
    rw [Bool.eq_iff_iff, List.contains_iff_mem, List.contains_iff_mem]
    exact h n
  unfold detachedNodeIds
  simp only [hcontains]

theorem mem_map_switchedBindings (hp : p ∈ old.map (·.nodeId)) (hne : t ≠ p) (n : Uuid) :
    n ∈ (switchedBindings old t (some p) keep).map (·.nodeId) ↔ n ∈ keptNodes old p t keep := by
  rw [switchedBindings_numbered old hne, List.map_cons, List.mem_cons, map_nodeId_renumberBindings,
    mem_map_standbySources, keptNodes, List.mem_cons, List.mem_filter]
  by_cases hnt : n = t
  · simp [hnt]
  · by_cases hnp : n = p
    · subst hnp
      simp [hnt, hp]
    · simp [hnt, hnp]

/-- A role that becomes standby. -/
theorem exists_standby_renumberBindings {P : Uuid → Prop} (next : Int) (bs : List SiteBindingRecord) :
    (∃ b ∈ renumberBindings next bs, P b.nodeId ∧ b.bindingRole = "standby") ↔
      ∃ b ∈ bs, P b.nodeId ∧ (b.bindingRole = "primary" ∨ b.bindingRole = "standby") := by
  induction bs generalizing next with
  | nil => simp [renumberBindings]
  | cons b bs ih =>
    have hrole : (if b.bindingRole = "primary" then "standby" else b.bindingRole) = "standby" ↔
        b.bindingRole = "primary" ∨ b.bindingRole = "standby" := by
      split
      · simp [*]
      · simp [*]
    simp only [renumberBindings, List.mem_cons, exists_eq_or_imp, ih, hrole]

theorem exists_standbySources (hne : t ≠ p) :
    (∃ b ∈ standbySources old p t keep, ¬ b.nodeId = t ∧ (b.bindingRole = "primary" ∨ b.bindingRole = "standby")) ↔
      leavesStandby old p t keep = true := by
  simp only [leavesStandby, Bool.or_eq_true, List.any_eq_true, Bool.and_eq_true, bne_iff_ne, beq_iff_eq]
  constructor
  · rintro ⟨b, hb, ht, hrole⟩
    rcases mem_standbySources hb with ⟨hkeep, -⟩ | ⟨hb, -, hp⟩
    · exact .inl hkeep
    · exact .inr ⟨b, hb, ⟨ht, hp⟩, hrole⟩
  · rintro (rfl | ⟨b, hb, ⟨ht, hp⟩, hrole⟩)
    · exact ⟨{ nodeId := p, bindingRole := "standby", priority := 200 }, List.mem_append_left _ List.mem_cons_self,
        fun e => hne e.symm, .inr rfl⟩
    · refine ⟨b, List.mem_append_right _ ((priorityOrder_remaining old p t).perm.mem_iff.2 ?_), ht, hrole⟩
      rw [remainingBindings, List.mem_filter, Bool.and_eq_true, bne_iff_ne, bne_iff_ne]
      exact ⟨hb, ht, hp⟩

theorem isSome_selectNext (hne : t ≠ p) :
    (selectNextFailoverPolicyStandby (switchedBindings old t (some p) keep) t).isSome = leavesStandby old p t keep := by
  have hselect : ∀ bs : List SiteBindingRecord, (selectNextFailoverPolicyStandby bs t).isSome = true ↔
      ∃ b ∈ bs, b.nodeId ≠ t ∧ b.bindingRole = "standby" := by
    intro bs
    have hmem : ∀ b : SiteBindingRecord, b ∈ bs.filter (fun b => b.nodeId != t && b.bindingRole == "standby") ↔
        b ∈ bs ∧ b.nodeId ≠ t ∧ b.bindingRole = "standby" := by
      intro b
      rw [List.mem_filter, Bool.and_eq_true, bne_iff_ne, beq_iff_eq]
    rw [selectNextFailoverPolicyStandby, Option.isSome_map]
    constructor
    · intro h
      obtain ⟨b, hb⟩ := Option.isSome_iff_exists.1 h
      exact ⟨b, (hmem b).1 (mem_of_minByKey hb)⟩
    · rintro ⟨b, hb⟩
      exact minByKey_isSome ((hmem b).2 hb)
  rw [Bool.eq_iff_iff, hselect, switchedBindings_numbered old hne]
  simp only [List.mem_cons, exists_eq_or_imp, ne_eq, not_true_eq_false, false_and, false_or]
  rw [exists_standby_renumberBindings (P := fun n => ¬ n = t)]
  exact exists_standbySources hne

end Switch

/-! ## The operations -/

/-- The site records, the failover policies and the releases are the same. -/
def World.Unchanged (w w' : World) : Prop :=
  w'.store.sites = w.store.sites ∧ w'.store.failoverPolicies = w.store.failoverPolicies ∧
    w'.store.releases = w.store.releases

/-- The requests that write a site in several calls. -/
inductive SiteOperation where
  | updateSiteStatus (siteId : Uuid) (enabled : Bool)
  | switchSitePrimary (siteId : Uuid) (request : SwitchSitePrimaryRequest)
  | createRelease (request : CreateReleaseRequest)
  | deleteSite (siteId : Uuid)

def SiteOperation.request : SiteOperation → Request
  | .updateSiteStatus siteId enabled => .updateSiteStatus siteId enabled
  | .switchSitePrimary siteId request => .switchSitePrimary siteId request
  | .createRelease request => .createRelease request
  | .deleteSite siteId => .deleteSite siteId

/-- `update_site_status` of the stored site fails after its first write. -/
def StatusHalfway (site : SiteRecord) (fault : Nat → Bool) : Prop :=
  site.bindings.isEmpty = false ∧ FailsIn fault 0 2 = false ∧ (¬ site.Compiles ∨ FailsIn fault 2 2 = true)

/-- `delete_site` of the stored site fails after its first write. -/
def DeleteHalfway (site : SiteRecord) (fault : Nat → Bool) : Prop :=
  site.bindings.isEmpty = false ∧ ¬ site.Uncoded ∧ FailsIn fault 0 2 = false ∧ fault 2 = true

/-- `switch_site_primary` from `p` to `t` makes its first write in the `k`th repository call and fails later. -/
def SwitchFailsFrom (s : MemoryState) (site : SiteRecord) (p t : Uuid) (keep : Bool) (fault : Nat → Bool) (k : Nat) :
    Prop :=
  let policies := if leavesStandby site.bindings p t keep then 1 else 0
  let detached := detachedNodeIds s.releases.values site.id (keptNodes site.bindings p t keep)
  fault k = false ∧
    (¬ site.Compiles ∨ (detached.isEmpty = false ∧ site.Uncoded) ∨
      FailsIn fault (k + 1) (policies + (5 + if detached.isEmpty then 0 else 1)) = true)

/-- `switch_site_primary` of the stored site fails after its first write. -/
def SwitchHalfway (s : MemoryState) (site : SiteRecord) (request : SwitchSitePrimaryRequest)
    (fault : Nat → Bool) : Prop :=
  ∃ p ∈ (primarySiteBinding site).map (·.nodeId), ∃ t ∈ request.targetNodeId <|> switchTarget site.bindings (some p),
    fault 0 = false ∧ (request.targetNodeId.isSome = true → t ∈ s.nodes ∧ fault 1 = false) ∧ t ≠ p ∧
      SwitchFailsFrom s site p t (request.keepPreviousAsStandby.getD true) fault
        (if request.targetNodeId.isSome then 2 else 1)

/-- The operation fails after its first write. -/
def FailsHalfway (s : MemoryState) (fault : Nat → Bool) : SiteOperation → Prop
  | .updateSiteStatus siteId _ => ∃ site ∈ s.sites[siteId]?, StatusHalfway site fault
  | .switchSitePrimary siteId request => ∃ site ∈ s.sites[siteId]?, SwitchHalfway s site request fault
  | .createRelease request =>
    request.scopeType = "site" ∧
      ∃ site ∈ s.sites[request.scopeId]?, PublishSaves s site fault 0 ∧ PublishStops s site fault 0
  | .deleteSite siteId => ∃ site ∈ s.sites[siteId]?, DeleteHalfway site fault

section Operations

variable {p : Platform} {hub : Nat} {fault : Nat → Bool} {e : AppError} {w : World} {siteId : Uuid}

theorem World.Unchanged.of_store {w' : World} (h : w'.store = w.store) : w.Unchanged w' := by
  unfold World.Unchanged
  rw [h]
  exact ⟨rfl, rfl, rfl⟩

/-- A site with another version is a change. -/
theorem not_unchanged_of_version {w' : World} {old new : SiteRecord} (hold : w.store.sites[siteId]? = some old)
    (hnew : w'.store.sites[siteId]? = some new) (hne : new.version ≠ old.version) : ¬ w.Unchanged w' := by
  rintro ⟨hsites, -⟩
  rw [hsites, hold] at hnew
  cases hnew
  exact hne rfl

/-- A release that was not there is a change. -/
theorem not_unchanged_of_release {w' : World} {id : Uuid} (hold : id ∉ w.store.releases)
    (hnew : id ∈ w'.store.releases) : ¬ w.Unchanged w' := by
  rintro ⟨-, -, hreleases⟩
  rw [hreleases] at hnew
  exact hold hnew

/-- Before the first write nothing has changed. -/
theorem unchanged_early {H : Prop} {w' : World} (hH : ¬ H) (h : w'.store = w.store) : H ↔ ¬ w.Unchanged w' :=
  iff_of_false hH (not_not.2 (.of_store h))

theorem updateSiteStatus_fault {old : SiteRecord} (hold : w.store.sites[siteId]? = some old) (hid : old.id = siteId)
    (enabled : Bool) :
    wp (faultSpec p fault e) (faulty (updateSiteStatus p hub siteId enabled)) (fun _ _ => ¬ StatusHalfway old fault)
      (fun _ s => StatusHalfway old fault ↔ ¬ w.Unchanged s.1) (w, 0) := by
  simp only [updateSiteStatus, repo, faulty_bind, faulty_okOr, faulty_onlyIf, faulty_call, faulty_pure,
    wp_bind, wp_okOr,
    wp_pure, wp_tryCall_failing, HubCall.asksRepository, if_true, hubHandler, World.read, World.write, wp_onlyIf]
  rw [hold]
  refine ⟨fun h₀ => unchanged_early (by simp [StatusHalfway, h₀]) rfl,
    fun h₀ => ⟨fun found hfound => ?_, fun e => by cases e⟩⟩
  cases hfound
  refine ⟨fun h₁ => unchanged_early (by simp [StatusHalfway, h₁]) rfl, fun h₁ => ⟨fun hbound => ?_, fun hunbound => ?_⟩⟩
  · have hbound : old.bindings.isEmpty = false := by simpa using hbound
    -- the site has another version from here on
    have hwritten : ∀ s' : MemoryState, s'.sites = w.store.sites.insert old.id { old with
        status := switchedStatus enabled old.bindings, version := old.version + 1 } →
        ∀ w' : World, w'.store = s' → ¬ w.Unchanged w' := by
      rintro s' hs' w' rfl
      have hstored : w'.store.sites[siteId]? = some { old with
          status := switchedStatus enabled old.bindings, version := old.version + 1 } := by
        rw [hs', hid]
        exact Std.ExtTreeMap.getElem?_insert_self
      exact not_unchanged_of_version hold hstored (Nat.succ_ne_self _)
    refine saveSiteRelease_fault _ _ (fun h _ w' _ hs => ?_) fun hc hf _ _ _ _ _ => ?_
    · refine iff_of_true ⟨hbound, by simp [h₀, h₁], ?_⟩ (hwritten _ rfl w' hs)
      exact h
    · have hcompiles : old.Compiles := hc
      rintro ⟨-, -, hnot | hfails⟩
      · exact hnot hcompiles
      · rw [hf] at hfails
        cases hfails
  · have hunbound : old.bindings.isEmpty = true := by simpa using hunbound
    simp [StatusHalfway, hunbound]

theorem deleteSite_fault {old : SiteRecord} (hold : w.store.sites[siteId]? = some old)
    (hfresh : w.nextUuid ∉ w.store.releases) :
    wp (faultSpec p fault e) (faulty (HubService.deleteSite p hub siteId)) (fun _ _ => ¬ DeleteHalfway old fault)
      (fun _ s => DeleteHalfway old fault ↔ ¬ w.Unchanged s.1) (w, 0) := by
  simp only [HubService.deleteSite, repo, faulty_bind, faulty_okOr, faulty_onlyIf, faulty_call, faulty_pure, wp_bind,
    wp_okOr, wp_pure, wp_tryCall_failing, HubCall.asksRepository, if_true, hubHandler, World.read, wp_onlyIf]
  rw [hold]
  refine ⟨fun h₀ => unchanged_early (by simp [DeleteHalfway, h₀]) rfl,
    fun h₀ => ⟨fun found hfound => ?_, fun e => by cases e⟩⟩
  cases hfound
  constructor
  · intro hbound
    have hbound : old.bindings.isEmpty = false := by simpa using hbound
    refine saveSiteCleanupRelease_fault _ _ (fun h _ w' _ hs => ?_) fun hcode h₁ _ w₁ r hid hs => ?_
    · refine unchanged_early ?_ hs
      rcases h with h | h
      · simp [DeleteHalfway, SiteRecord.Uncoded, h]
      · simp [DeleteHalfway, h]
    · refine wp_tryCall_failing.2 ?_
      simp only [HubCall.asksRepository, if_true]
      refine ⟨fun h₂ => iff_of_true ⟨hbound, ?_, ?_, h₂⟩ (not_unchanged_of_release hfresh ?_), fun h₂ => ?_⟩
      · simp [SiteRecord.Uncoded, hcode]
      · simp at h₁
        simp [h₀, h₁]
      · rw [hs]
        exact mem_saveRelease_self hid
      · rintro ⟨-, -, -, hfails⟩
        rw [h₂] at hfails
        cases hfails
  · intro hunbound
    have hunbound : old.bindings.isEmpty = true := by simpa using hunbound
    refine ⟨fun h₁ => unchanged_early (by simp [DeleteHalfway, h₁]) rfl, fun h₁ => ?_⟩
    simp [DeleteHalfway, hunbound]

theorem publish_fault {request : CreateReleaseRequest} {site : SiteRecord} (hscope : request.scopeType = "site")
    (hsite : w.store.sites[request.scopeId]? = some site) (hfresh : w.nextUuid ∉ w.store.releases) :
    wp (faultSpec p fault e) (faulty (createRelease p hub request))
      (fun _ _ => ¬ (PublishSaves w.store site fault 0 ∧ PublishStops w.store site fault 0))
      (fun _ s => (PublishSaves w.store site fault 0 ∧ PublishStops w.store site fault 0) ↔
        ¬ w.Unchanged s.1) (w, 0) := by
  refine wp_mono (fun _ _ h hboth => h hboth.2) (fun _ s h => ?_) (createRelease_fault hscope hsite)
  by_cases hsaves : PublishSaves w.store site fault 0
  · exact iff_of_true ⟨hsaves, h.stops⟩ (not_unchanged_of_release hfresh (h.saved hsaves))
  · exact unchanged_early (fun hboth => hsaves hboth.1) (h.unsaved hsaves)

/-- The choice of the target makes one repository call if the request names a node, and none otherwise. -/
theorem chooseSwitchTarget_fault {site : SiteRecord} {current : Option Uuid} {request : SwitchSitePrimaryRequest}
    {Q : Uuid → World × Nat → Prop} {E : Option AppError → World × Nat → Prop} {k : Nat}
    (hE : (∀ t ∈ request.targetNodeId <|> switchTarget site.bindings current,
      request.targetNodeId.isSome = true ∧ (t ∉ w.store.nodes ∨ fault k = true)) → ∀ e' k', E e' (w, k'))
    (hQ : ∀ t ∈ request.targetNodeId <|> switchTarget site.bindings current,
      (request.targetNodeId.isSome = true → t ∈ w.store.nodes ∧ fault k = false) →
        Q t (w, if request.targetNodeId.isSome then k + 1 else k)) :
    wp (faultSpec p fault e) (faulty (chooseSwitchTarget site current request)) Q E (w, k) := by
  unfold chooseSwitchTarget
  cases ht : request.targetNodeId with
  | none =>
    rw [ht] at hE hQ
    simp only [faulty_okOr, wp_okOr]
    refine ⟨fun t h => hQ t h (fun e => by cases e), fun h => hE (fun t htarget => ?_) _ _⟩
    change switchTarget site.bindings current = some t at htarget
    rw [h] at htarget
    cases htarget
  | some target =>
    rw [ht] at hE hQ
    simp only [repo, faulty_bind, faulty_call, faulty_ensure, faulty_pure, wp_bind, wp_ensure, wp_pure,
      wp_tryCall_failing, HubCall.asksRepository, if_true, hubHandler, World.read]
    have hsame : ∀ t ∈ some target <|> switchTarget site.bindings current, t = target :=
      fun t h => (Option.some.inj h).symm
    refine ⟨fun hf => hE (fun t h => ⟨rfl, .inr hf⟩) _ _, fun hf => ⟨fun hnode => ?_, fun hnode => ?_⟩⟩
    · refine hQ target rfl fun _ => ⟨Std.ExtTreeMap.mem_iff_isSome_getElem?.2 hnode, hf⟩
    · refine hE (fun t h => ⟨rfl, .inl fun hmem => ?_⟩) _ _
      rw [hsame t h, Std.ExtTreeMap.mem_iff_isSome_getElem?, hnode] at hmem
      cases hmem

/-- The draft that `switch_site_primary` stores. -/
def SiteRecord.switched (site : SiteRecord) (current target : Uuid) (keep : Bool) : SiteRecord :=
  { site with
    bindings := switchedBindings site.bindings target (some current) keep
    status := .draft
    version := site.version + 1 }

section Switched

variable {old : SiteRecord} {current target : Uuid} {keep : Bool} {k : Nat}

/-- What publishing the draft needs, by the bindings before the switch. -/
theorem publishStops_switched (hcurrent : current ∈ old.bindings.map (·.nodeId)) (hne : target ≠ current)
    {s : MemoryState} (hs : s.releases = w.store.releases) :
    PublishStops s (old.switched current target keep) fault k ↔
      ¬ old.Compiles ∨
        ((detachedNodeIds w.store.releases.values old.id (keptNodes old.bindings current target keep)).isEmpty = false ∧
          old.Uncoded) ∨
        FailsIn fault k (5 +
          if (detachedNodeIds w.store.releases.values old.id
            (keptNodes old.bindings current target keep)).isEmpty then 0
          else 1) = true := by
  have hdetached : (old.switched current target keep).detached s =
      detachedNodeIds w.store.releases.values old.id (keptNodes old.bindings current target keep) := by
    unfold SiteRecord.detached
    rw [hs]
    exact detachedNodeIds_congr (mem_map_switchedBindings hcurrent hne)
  have hbound : (old.switched current target keep).bindings.isEmpty = false := rfl
  unfold PublishStops
  rw [hdetached, hbound]
  simp only [Bool.false_eq_true, false_and, false_or, true_and, if_false]
  rfl

variable (hub keep) in
/-- The writes of `switch_site_primary`. -/
theorem switchWrites_fault (hold : w.store.sites[siteId]? = some old) (hid : old.id = siteId)
    (hcurrent : current ∈ old.bindings.map (·.nodeId)) (hne : target ≠ current) (request : CreateReleaseRequest)
    (hscope : request.scopeType = "site") (hscopeId : request.scopeId = siteId) :
    wp (faultSpec p fault e)
      (faulty do
        repo (.saveSite (old.switched current target keep))
        forSome (selectNextFailoverPolicyStandby (switchedBindings old.bindings target (some current) keep) target)
          fun standby =>
          repo (.updateActiveFailoverPolicyTargets siteId target standby)
        createRelease p hub request)
      (fun _ _ => ¬ SwitchFailsFrom w.store old current target keep fault k)
      (fun _ s => SwitchFailsFrom w.store old current target keep fault k ↔ ¬ w.Unchanged s.1) (w, k) := by
  simp only [repo, faulty_bind, faulty_forSome, faulty_call, wp_bind, wp_forSome, wp_tryCall_failing,
    HubCall.asksRepository, if_true, hubHandler, World.write]
  refine ⟨fun hk => unchanged_early (fun h => ?_) rfl, fun hk => ?_⟩
  · rw [h.1] at hk
    cases hk
  -- the site has another version from here on
  have hwritten : ∀ w' : World, w'.store.sites = w.store.sites.insert old.id (old.switched current target keep) →
      w'.store.sites[siteId]? = some (old.switched current target keep) ∧ ¬ w.Unchanged w' := by
    intro w' hs'
    have hstored : w'.store.sites[siteId]? = some (old.switched current target keep) := by
      rw [hs', hid]
      exact Std.ExtTreeMap.getElem?_insert_self
    exact ⟨hstored, not_unchanged_of_version hold hstored (Nat.succ_ne_self _)⟩
  have hpublish : ∀ (w' : World) (k' : Nat), w'.store.sites = w.store.sites.insert old.id
      (old.switched current target keep) → (SwitchFailsFrom w.store old current target keep fault k ↔
        PublishStops w'.store (old.switched current target keep) fault k') →
      wp (faultSpec p fault e) (faulty (createRelease p hub request))
        (fun _ _ => ¬ SwitchFailsFrom w.store old current target keep fault k)
        (fun _ s => SwitchFailsFrom w.store old current target keep fault k ↔ ¬ w.Unchanged s.1) (w', k') := by
    intro w' k' hs' hstops
    have hsite : w'.store.sites[request.scopeId]? = some (old.switched current target keep) := by
      rw [hscopeId]
      exact (hwritten w' hs').1
    refine wp_mono (fun _ _ h hH => h (hstops.1 hH)) (fun _ s h => ?_) (createRelease_fault hscope hsite)
    exact iff_of_true (hstops.2 h.stops) (hwritten s.1 (h.sites.trans hs')).2
  have hnext : _ = leavesStandby old.bindings current target keep := isSome_selectNext hne
  constructor
  · intro next hselect
    rw [hselect] at hnext
    refine ⟨fun hk₁ => iff_of_true ⟨hk, .inr (.inr ?_)⟩ (hwritten _ rfl).2, fun hk₁ => hpublish _ _ rfl ?_⟩
    · rw [← hnext, Option.isSome_some, if_pos rfl, failsIn_one_add, hk₁]
      rfl
    · refine Iff.trans ?_ (publishStops_switched (w := w) hcurrent hne (by rfl)).symm
      simp only [SwitchFailsFrom, ← hnext, Option.isSome_some, if_true, failsIn_one_add, hk, hk₁,
        Bool.false_or, true_and]
  · intro hselect
    rw [hselect] at hnext
    refine hpublish _ _ rfl ?_
    refine Iff.trans ?_ (publishStops_switched (w := w) hcurrent hne (by rfl)).symm
    simp only [SwitchFailsFrom, ← hnext, Option.isSome_none, Bool.false_eq_true, if_false, Nat.zero_add, hk, true_and]

end Switched

theorem exists_primarySiteBinding {site : SiteRecord} (h : site.bindings.isEmpty = false) :
    ∃ n, (primarySiteBinding site).map (·.nodeId) = some n := by
  unfold primarySiteBinding
  cases hb : site.bindings with
  | nil =>
    rw [hb] at h
    cases h
  | cons b bs =>
    cases (b :: bs).find? (·.bindingRole == "primary") with
    | none => exact ⟨b.nodeId, rfl⟩
    | some c => exact ⟨c.nodeId, rfl⟩

theorem switchSitePrimary_fault {old : SiteRecord} (hold : w.store.sites[siteId]? = some old) (hid : old.id = siteId)
    (request : SwitchSitePrimaryRequest) :
    wp (faultSpec p fault e) (faulty (switchSitePrimary p hub siteId request))
      (fun _ _ => ¬ SwitchHalfway w.store old request fault)
      (fun _ s => SwitchHalfway w.store old request fault ↔ ¬ w.Unchanged s.1) (w, 0) := by
  simp only [switchSitePrimary, repo, faulty_bind, faulty_ensure, faulty_okOr, faulty_forSome, faulty_call, faulty_pure,
    wp_bind, wp_ensure, wp_okOr, wp_pure, wp_forSome, wp_tryCall_failing, HubCall.asksRepository, if_true, hubHandler,
    World.read]
  rw [hold]
  refine ⟨fun h₀ => unchanged_early ?_ rfl, fun h₀ => ⟨fun found hfound => ?_, fun e => by cases e⟩⟩
  · rintro ⟨_, -, _, -, hf, -⟩
    rw [h₀] at hf
    cases hf
  cases hfound
  refine ⟨fun hbound => ?_, fun hunbound => unchanged_early ?_ rfl⟩
  swap
  · rintro ⟨current, hcurrent, -⟩
    obtain ⟨b, hb, -⟩ := mem_of_primarySiteBinding hcurrent
    rw [Bool.not_eq_false', List.isEmpty_iff] at hunbound
    rw [hunbound] at hb
    cases hb
  have hsome : old.bindings.isEmpty = false := by simpa using hbound
  obtain ⟨current, hcurrent⟩ := exists_primarySiteBinding hsome
  have hmem : current ∈ old.bindings.map (·.nodeId) := by
    obtain ⟨b, hb, rfl⟩ := mem_of_primarySiteBinding hcurrent
    exact List.mem_map_of_mem hb
  rw [hcurrent]
  refine chooseSwitchTarget_fault (fun h _ _ => unchanged_early ?_ rfl) fun target htarget hnode => ?_
  · rintro ⟨current', hcurrent', target, htarget, -, hnode, -⟩
    obtain rfl : current = current' := Option.some.inj (hcurrent.symm.trans hcurrent')
    obtain ⟨hsome, hgone | hf⟩ := h target htarget
    · exact hgone (hnode hsome).1
    · rw [(hnode hsome).2] at hf
      cases hf
  have hH : SwitchHalfway w.store old request fault ↔ target ≠ current ∧ SwitchFailsFrom w.store old current target
      (request.keepPreviousAsStandby.getD true) fault (if request.targetNodeId.isSome then 2 else 1) := by
    constructor
    · rintro ⟨current', hcurrent', target', htarget', -, -, h⟩
      obtain rfl : current = current' := Option.some.inj (hcurrent.symm.trans hcurrent')
      obtain rfl : target = target' := Option.some.inj (htarget.symm.trans htarget')
      exact h
    · exact fun h => ⟨current, hcurrent, target, htarget, h₀, hnode, h⟩
  refine ⟨fun hne => ?_, fun hsame => unchanged_early ?_ rfl⟩
  · have hne : target ≠ current := fun e => bne_iff_ne.1 hne (congrArg some e.symm)
    have hwrites : wp (faultSpec p fault e) _ _ _ (w, if request.targetNodeId.isSome then 2 else 1) :=
      switchWrites_fault hub (request.keepPreviousAsStandby.getD true) hold hid hmem hne {
        scopeType := "site"
        scopeId := siteId
        releaseType := "switch"
        reason := request.reason.getD
          ("switch primary node for " ++ old.siteCode ++ " to " ++ Uuid.hyphenated target) } rfl rfl
    have hiff : SwitchHalfway w.store old request fault ↔ SwitchFailsFrom w.store old current target
        (request.keepPreviousAsStandby.getD true) fault (if request.targetNodeId.isSome then 2 else 1) :=
      hH.trans (and_iff_right hne)
    rw [← hiff] at hwrites
    simp only [repo, faulty_bind, faulty_forSome, faulty_call, wp_bind, wp_forSome] at hwrites
    exact hwrites
  · rw [hH]
    rintro ⟨hne, -⟩
    refine hne (Eq.symm ?_)
    simpa using hsame

/-- A request on a site that is not stored fails in its first call. -/
theorem missing_fault {α : Type} {H : Prop} (hH : ¬ H) (hnone : w.store.sites[siteId]? = none)
    {f : SiteRecord → HubM α} :
    wp (faultSpec p fault e)
      (faulty do
        let site ← okOr (← repo (.site siteId)) (.notFound "site not found")
        f site) (fun _ _ => ¬ H) (fun _ s => H ↔ ¬ w.Unchanged s.1) (w, 0) := by
  simp only [repo, faulty_bind, faulty_okOr, faulty_call, wp_bind, wp_okOr, wp_tryCall_failing, HubCall.asksRepository,
    if_true, hubHandler, World.read]
  rw [hnone]
  exact ⟨fun _ => unchanged_early hH rfl, fun _ => ⟨fun _ e => (by cases e), fun _ => unchanged_early hH rfl⟩⟩

/-- How an operation fails. -/
theorem operation_fault (hub : Hub) (hkeyed : SitesKeyed w.store) (hfresh : w.nextUuid ∉ w.store.releases)
    (op : SiteOperation) :
    wp (faultSpec p fault e) (faulty (HubService.program p hub op.request))
      (fun _ _ => ¬ FailsHalfway w.store fault op)
      (fun _ s => FailsHalfway w.store fault op ↔ ¬ w.Unchanged s.1) (w, 0) := by
  have hnot : ∀ {siteId : Uuid} {P : SiteRecord → Prop}, w.store.sites[siteId]? = none →
      ¬ ∃ site ∈ w.store.sites[siteId]?, P site := by
    rintro siteId P hnone ⟨site, hsite, -⟩
    rw [hnone] at hsite
    cases hsite
  have hstored : ∀ {siteId : Uuid} {P : SiteRecord → Prop} {old : SiteRecord}, w.store.sites[siteId]? = some old →
      ((∃ site ∈ w.store.sites[siteId]?, P site) ↔ P old) := by
    intro siteId P old hold
    rw [hold]
    simp
  cases op with
  | updateSiteStatus siteId enabled =>
    rw [SiteOperation.request, HubService.program, faulty_discard, wp_discard]
    cases hsite : w.store.sites[siteId]? with
    | none => exact missing_fault (hnot hsite) hsite
    | some old =>
      have h : wp (faultSpec p fault e) (faulty (updateSiteStatus p hub.id siteId enabled)) _ _ (w, 0) :=
        updateSiteStatus_fault hsite (hkeyed _ old hsite) enabled
      have hiff : (∃ site ∈ w.store.sites[siteId]?, StatusHalfway site fault) ↔ StatusHalfway old fault := hstored hsite
      rw [← hiff] at h
      exact h
  | switchSitePrimary siteId request =>
    rw [SiteOperation.request, HubService.program, faulty_discard, wp_discard]
    cases hsite : w.store.sites[siteId]? with
    | none => exact missing_fault (hnot hsite) hsite
    | some old =>
      have h : wp (faultSpec p fault e) (faulty (switchSitePrimary p hub.id siteId request)) _ _ (w, 0) :=
        switchSitePrimary_fault hsite (hkeyed _ old hsite) request
      have hiff : (∃ site ∈ w.store.sites[siteId]?, SwitchHalfway w.store site request fault) ↔
          SwitchHalfway w.store old request fault := hstored hsite
      rw [← hiff] at h
      exact h
  | createRelease request =>
    rw [SiteOperation.request, HubService.program, faulty_discard, wp_discard]
    by_cases hscope : request.scopeType = "site"
    · have hstart : ensure (request.scopeType == "site") (.badRequest "only site scope is implemented in P0/P1") =
          (pure () : HubM Unit) := by
        rw [hscope]
        rfl
      cases hsite : w.store.sites[request.scopeId]? with
      | none =>
        unfold createRelease
        rw [hstart, pure_bind]
        exact missing_fault (fun h => hnot hsite h.2) hsite
      | some site =>
        have h : wp (faultSpec p fault e) (faulty (createRelease p hub.id request)) _ _ (w, 0) :=
          publish_fault hscope hsite hfresh
        have hiff : FailsHalfway w.store fault (.createRelease request) ↔
            PublishSaves w.store site fault 0 ∧ PublishStops w.store site fault 0 :=
          (and_iff_right hscope).trans
            (hstored (P := fun site => PublishSaves w.store site fault 0 ∧ PublishStops w.store site fault 0) hsite)
        rw [← hiff] at h
        exact h
    · simp only [createRelease, faulty_bind, faulty_ensure, wp_bind, wp_ensure, beq_iff_eq, beq_eq_false_iff_ne]
      exact ⟨fun h => absurd h hscope, fun _ => unchanged_early (fun h => hscope h.1) rfl⟩
  | deleteSite siteId =>
    rw [SiteOperation.request, HubService.program, faulty_discard, wp_discard]
    cases hsite : w.store.sites[siteId]? with
    | none => exact missing_fault (hnot hsite) hsite
    | some old =>
      have h : wp (faultSpec p fault e) (faulty (HubService.deleteSite p hub.id siteId)) _ _ (w, 0) :=
        deleteSite_fault hsite hfresh
      have hiff : (∃ site ∈ w.store.sites[siteId]?, DeleteHalfway site fault) ↔ DeleteHalfway old fault := hstored hsite
      rw [← hiff] at h
      exact h

/-- An operation leaves everything as it was when it fails, exactly if it does not fail halfway. -/
theorem operation_unchanged_iff (hub : Hub) (hkeyed : SitesKeyed w.store) (hfresh : w.nextUuid ∉ w.store.releases)
    (op : SiteOperation) :
    (∀ err s, Fallible.run (faultyHub p fault e) (faulty (HubService.program p hub op.request)) (w, 0) =
      (.error err, s) → w.Unchanged s.1) ↔ ¬ FailsHalfway w.store fault op := by
  have hop : wp (faultSpec p fault e) (faulty (HubService.program p hub op.request)) _ _ (w, 0) :=
    operation_fault hub hkeyed hfresh op
  have h := (wp_run (fun _ _ _ _ => trivial) trivial hop).1
  generalize Fallible.run (faultyHub p fault e) (faulty (HubService.program p hub op.request)) (w, 0) = out at h ⊢
  obtain ⟨result, s⟩ := out
  cases result with
  | ok a => exact iff_of_true (fun _ _ he => by cases he) h
  | error err =>
    have hhalfway : FailsHalfway w.store fault op ↔ ¬ w.Unchanged s.1 := h
    rw [hhalfway, not_not]
    constructor
    · exact fun hall => hall err s rfl
    · rintro hsame _ _ ⟨⟩
      exact hsame

end Operations

end PingoraMesh
