import PingoraMesh.Hub.Alone
import PingoraMesh.Hub.Effects
import PingoraMesh.Lib.Maps

/-!
# Nodes that a site has left

A node that a site release has gone to keeps serving the site until a cleanup release for it comes. The hub finds the
nodes to clean up by comparing the current bindings with the latest site release alone.

* `Settled` says of a site and a node that the latest site releases still go to the node or that it has been cleaned up
  since the last that did, and `Pending` how far the handling of one site has come in a request;
* `NothingLeft` is what is asked of a request: the status of a site is set and a site is deleted only when all targets
  of its latest release are still bound to it;
* `no_orphans`: along every run of such requests on a clock that advances, a successful `create_release` or
  `delete_site` leaves no node with a site it does not belong to;
* `enable_orphans_node`: a site that is enabled between a rebinding and a publication leaves a node behind.
-/

namespace PingoraMesh

open Calls Fallible HubService

/-! ## Deployments -/

/-- A release that brings a site to a node. -/
def ReleaseRecord.Deploys (r : ReleaseRecord) (siteId nodeId : Uuid) : Prop :=
  r.scopeType = "site" ∧ r.scopeId = some siteId ∧ nodeId ∈ r.targetNodeIds

/-- A release that takes a site off a node. -/
def ReleaseRecord.CleansUp (r : ReleaseRecord) (siteId nodeId : Uuid) : Prop :=
  r.scopeType = "site_cleanup" ∧ r.scopeId = some siteId ∧ nodeId ∈ r.targetNodeIds

instance (r : ReleaseRecord) (siteId nodeId : Uuid) : Decidable (r.Deploys siteId nodeId) :=
  inferInstanceAs (Decidable (_ ∧ _))

instance (r : ReleaseRecord) (siteId nodeId : Uuid) : Decidable (r.CleansUp siteId nodeId) :=
  inferInstanceAs (Decidable (_ ∧ _))

section Deployments

variable (s : MemoryState) (siteId nodeId : Uuid)

/-- Some release has brought the site to the node. -/
def Deployed : Prop := ∃ r ∈ s.releases.values, r.Deploys siteId nodeId

/-- The site has been taken off the node after the last release that brought it there. -/
def Cleaned : Prop :=
  ∃ c ∈ s.releases.values, c.CleansUp siteId nodeId ∧
    ∀ r ∈ s.releases.values, r.Deploys siteId nodeId → r.createdAt < c.createdAt

/-- The latest site releases go to the node. -/
def Kept : Prop :=
  ∀ r ∈ s.releases.values, r.scopeType = "site" → r.scopeId = some siteId →
    (∀ r' ∈ s.releases.values, r'.scopeType = "site" → r'.scopeId = some siteId → r'.createdAt ≤ r.createdAt) →
      nodeId ∈ r.targetNodeIds

/-- The node has the site for a reason, or no more. -/
def Settled : Prop := Deployed s siteId nodeId → Kept s siteId nodeId ∨ Cleaned s siteId nodeId

/-- No node has the site that does not belong to it. -/
def NoOrphans : Prop :=
  ∀ nodeId ∈ s.nodes.keys, (∀ site ∈ s.sites[siteId]?, nodeId ∉ site.bindings.map (·.nodeId)) →
    Deployed s siteId nodeId → Cleaned s siteId nodeId

end Deployments

instance (s : MemoryState) (siteId nodeId : Uuid) : Decidable (Deployed s siteId nodeId) :=
  inferInstanceAs (Decidable (∃ _ ∈ _, _))

instance (s : MemoryState) (siteId nodeId : Uuid) : Decidable (Cleaned s siteId nodeId) :=
  inferInstanceAs (Decidable (∃ _ ∈ _, _))

instance (s : MemoryState) (siteId : Uuid) : Decidable (NoOrphans s siteId) :=
  inferInstanceAs (Decidable (∀ _ ∈ _, _))

/-! ## The detached nodes -/

theorem createdAt_le_of_releaseOrd {l r : ReleaseRecord} (h : releaseOrd l r ≠ .gt) : l.createdAt ≤ r.createdAt := by
  by_contra hlt
  refine h ?_
  have : compare l.createdAt r.createdAt = .gt := Int.compare_eq_gt.2 (not_le.1 hlt)
  simp [releaseOrd, this]

theorem createdAt_le_of_releaseOrd_gt {l r : ReleaseRecord} (h : releaseOrd l r = .gt) : r.createdAt ≤ l.createdAt := by
  by_contra hlt
  have : compare l.createdAt r.createdAt = .lt := Int.compare_eq_lt.2 (not_le.1 hlt)
  simp [releaseOrd, this] at h

/-- The release that `detached_node_ids_for_site` looks at is the latest. -/
theorem createdAt_le_maxBy {rs : List ReleaseRecord} {a : ReleaseRecord} (h : maxBy releaseOrd rs = some a) :
    ∀ r ∈ rs, r.createdAt ≤ a.createdAt := by
  induction rs generalizing a with
  | nil => cases h
  | cons b bs ih =>
    unfold maxBy at h
    cases hm : maxBy releaseOrd bs with
    | none =>
      rw [hm] at h
      cases h
      have hbs : bs = [] := by
        cases bs with
        | nil => rfl
        | cons x xs => exact absurd hm (Option.isSome_iff_ne_none.1 (maxBy_isSome List.mem_cons_self))
      subst hbs
      intro r hr
      rw [List.mem_singleton.1 hr]
    | some c =>
      rw [hm] at h
      dsimp only at h
      split at h
      · rename_i hgt
        cases h
        intro r hr
        rcases List.mem_cons.1 hr with rfl | hr
        · exact le_rfl
        · exact (ih hm r hr).trans (createdAt_le_of_releaseOrd_gt hgt)
      · rename_i hgt
        cases h
        intro r hr
        rcases List.mem_cons.1 hr with rfl | hr
        · exact createdAt_le_of_releaseOrd hgt
        · exact ih hm r hr

/-- A node that the latest release goes to is bound or detached. -/
theorem mem_detachedNodeIds {s : MemoryState} {siteId nodeId : Uuid} (hd : Deployed s siteId nodeId)
    (hk : Kept s siteId nodeId) {current : List Uuid} (hc : nodeId ∉ current) :
    nodeId ∈ detachedNodeIds s.releases.values siteId current := by
  obtain ⟨r, hr, htype, hscope, -⟩ := hd
  have hmem : ∀ r : ReleaseRecord, r ∈ s.releases.values.filter (fun r => r.scopeType == "site" &&
      r.scopeId == some siteId) ↔ r ∈ s.releases.values ∧ r.scopeType = "site" ∧ r.scopeId = some siteId := by
    intro r
    rw [List.mem_filter, Bool.and_eq_true, beq_iff_eq, beq_iff_eq]
  obtain ⟨a, ha⟩ := Option.isSome_iff_exists.1 (@maxBy_isSome _ releaseOrd _ _ ((hmem r).2 ⟨hr, htype, hscope⟩))
  obtain ⟨hav, hat, has⟩ := (hmem a).1 (mem_of_maxBy ha)
  have htarget := hk a hav hat has fun r' hr' ht hs => createdAt_le_maxBy ha r' ((hmem r').2 ⟨hr', ht, hs⟩)
  simp only [detachedNodeIds, ha]
  refine List.mem_dedup.2 ((List.perm_insertionSort _ _).mem_iff.2 (List.mem_filter.2 ⟨htarget, ?_⟩))
  simpa using hc

/-! ## One more release -/

/-- The releases lie in the past, under identifiers that have been drawn; sites know their identifiers and have codes
that are not blank. -/
structure ReleaseBase (p : Platform) (w : World) : Prop where
  ident : ∀ (k : Uuid) (site : SiteRecord), w.store.sites[k]? = some site → site.id = k
  coded : ∀ (k : Uuid) (site : SiteRecord), w.store.sites[k]? = some site → Text.Visible site.siteCode
  fresh : ∀ (k : Uuid) (r : ReleaseRecord), w.store.releases[k]? = some r → k < w.nextUuid
  past : ∀ r ∈ w.store.releases.values, r.createdAt < p.clock w.tick

section Release

variable {p : Platform} {hub : Nat} {w : World} {new : ReleaseRecord}

theorem mem_saveRelease (hnew : w.store.releases[new.releaseId]? = none) {r : ReleaseRecord} :
    r ∈ (w.store.saveRelease new).releases.values ↔ r = new ∨ r ∈ w.store.releases.values := by
  simp only [MemoryState.saveRelease, Maps.mem_values]
  constructor
  · rintro ⟨k, hk⟩
    rcases Maps.getElem?_insert_eq_some hk with ⟨-, rfl⟩ | ⟨-, hk⟩
    · exact .inl rfl
    · exact .inr ⟨k, hk⟩
  · rintro (rfl | ⟨k, hk⟩)
    · exact ⟨r.releaseId, Std.ExtTreeMap.getElem?_insert_self⟩
    · refine ⟨k, ?_⟩
      rw [Std.ExtTreeMap.getElem?_insert, if_neg]
      · exact hk
      · rw [Std.compare_eq_iff_eq]
        rintro rfl
        rw [hnew] at hk
        cases hk

variable {scope scopeType : String} {siteId : Uuid} {targets : List Uuid} (hp : StrictMono p.clock)
  (hn : NewRelease p hub w scope scopeType siteId targets new)
include hn

/-- A new release has an identifier of its own. -/
theorem ReleaseBase.free (h : ReleaseBase p w) : w.store.releases[new.releaseId]? = none := by
  cases hr : w.store.releases[new.releaseId]? with
  | none => rfl
  | some r =>
    have := h.fresh _ r hr
    rw [hn.releaseId] at this
    exact absurd this (Nat.lt_irrefl _)

/-- A release that does not bring the site to the node leaves it clean. -/
theorem Cleaned.save (h : ReleaseBase p w) {s n : Uuid} (hc : Cleaned w.store s n) (hd : ¬ new.Deploys s n) :
    Cleaned (w.store.saveRelease new) s n := by
  obtain ⟨c, hcv, hcc, hlater⟩ := hc
  refine ⟨c, (mem_saveRelease (h.free hn)).2 (.inr hcv), hcc, fun r hr hr' => ?_⟩
  rcases (mem_saveRelease (h.free hn)).1 hr with rfl | hr
  · exact absurd hr' hd
  · exact hlater r hr hr'

/-- A release for another site or of another type settles nothing and unsettles nothing. -/
theorem Settled.save (h : ReleaseBase p w) {s n : Uuid} (hs : Settled w.store s n)
    (hother : new.scopeType ≠ "site" ∨ new.scopeId ≠ some s) : Settled (w.store.saveRelease new) s n := by
  have hnd : ¬ new.Deploys s n := fun hd => hother.elim (fun h => h hd.1) fun h => h hd.2.1
  rintro ⟨r, hr, hd⟩
  rcases (mem_saveRelease (h.free hn)).1 hr with rfl | hr
  · exact absurd hd hnd
  rcases hs ⟨r, hr, hd⟩ with hk | hc
  · refine .inl fun r hr ht hsc hlatest => ?_
    rcases (mem_saveRelease (h.free hn)).1 hr with rfl | hr
    · exact absurd hsc (hother.resolve_left (not_not.2 ht))
    · exact hk r hr ht hsc fun r' hr' => hlatest r' ((mem_saveRelease (h.free hn)).2 (.inr hr'))
  · exact .inr (hc.save hn h hnd)

include hp

/-- A new release is later than all others. -/
theorem ReleaseBase.later (h : ReleaseBase p w) : ∀ r ∈ w.store.releases.values, r.createdAt < new.createdAt := by
  intro r hr
  rw [hn.createdAt]
  exact (h.past r hr).trans (hp (by omega))

theorem ReleaseBase.save (h : ReleaseBase p w) :
    ReleaseBase p { w.issued hub 3 with store := w.store.saveRelease new } := by
  refine ⟨h.ident, h.coded, fun k r hk => ?_, fun r hr => ?_⟩
  · rcases Maps.getElem?_insert_eq_some hk with ⟨rfl, -⟩ | ⟨-, hk⟩
    · rw [hn.releaseId]
      exact Nat.lt_succ_self _
    · exact Nat.lt_succ_of_lt (h.fresh k r hk)
  · rcases (mem_saveRelease (h.free hn)).1 hr with rfl | hr
    · rw [hn.createdAt]
      exact hp (Nat.lt_succ_self _)
    · exact (h.past r hr).trans (hp (Nat.lt_add_of_pos_right (by decide)))

/-- A cleanup release cleans its targets up. -/
theorem cleaned_of_new (h : ReleaseBase p w) {s n : Uuid} (hc : new.CleansUp s n) :
    Cleaned (w.store.saveRelease new) s n := by
  refine ⟨new, (mem_saveRelease (h.free hn)).2 (.inl rfl), hc, fun r hr hd => ?_⟩
  rcases (mem_saveRelease (h.free hn)).1 hr with rfl | hr
  · exact absurd (hd.1.symm.trans hc.1) (by decide)
  · exact h.later hp hn r hr

/-- A site release settles its targets. -/
theorem settled_of_new (h : ReleaseBase p w) {n : Uuid} (ht : new.scopeType = "site") (hs : new.scopeId = some siteId)
    (hmem : n ∈ new.targetNodeIds) : Settled (w.store.saveRelease new) siteId n := by
  refine fun _ => .inl fun r hr _ _ hlatest => ?_
  rcases (mem_saveRelease (h.free hn)).1 hr with rfl | hr
  · exact hmem
  · have := hlatest new ((mem_saveRelease (h.free hn)).2 (.inl rfl)) ht hs
    exact absurd (h.later hp hn r hr) (not_lt.2 this)

end Release

/-! ## The invariant -/

/-- Every node is settled for every site. -/
structure OrphanInv (p : Platform) (w : World) : Prop extends ReleaseBase p w where
  settled : ∀ s n, Settled w.store s n

theorem OrphanInv.init (p : Platform) : OrphanInv p World.init := by
  have hnone : ∀ r : ReleaseRecord, r ∉ World.init.store.releases.values := by
    intro r hr
    obtain ⟨k, hk⟩ := Maps.mem_values.1 hr
    simp [World.init, MemoryState.empty] at hk
  refine ⟨⟨fun k site h => ?_, fun k site h => ?_, fun k r h => ?_, fun r hr => absurd hr (hnone r)⟩,
    fun s n ⟨r, hr, _⟩ => absurd hr (hnone r)⟩
  all_goals simp [World.init, MemoryState.empty] at h

/-- The releases are the same, as far as the node is concerned. -/
theorem Settled.of_map {s s' : MemoryState} {siteId nodeId : Uuid} {f : Uuid → ReleaseRecord → ReleaseRecord}
    (h : Settled s siteId nodeId)
    (hf : ∀ k r, r.Becomes (f k r) ∧ (nodeId ∈ (f k r).targetNodeIds ↔ nodeId ∈ r.targetNodeIds))
    (hmap : ∀ k : Uuid, s'.releases[k]? = s.releases[k]?.map (f k)) : Settled s' siteId nodeId := by
  have forth : ∀ r ∈ s.releases.values, ∃ r' ∈ s'.releases.values,
      r.Becomes r' ∧ (nodeId ∈ r'.targetNodeIds ↔ nodeId ∈ r.targetNodeIds) := by
    intro r hr
    obtain ⟨k, hk⟩ := Maps.mem_values.1 hr
    exact ⟨f k r, Maps.mem_values.2 ⟨k, by rw [hmap, hk]; rfl⟩, hf k r⟩
  have back : ∀ r' ∈ s'.releases.values, ∃ r ∈ s.releases.values,
      r.Becomes r' ∧ (nodeId ∈ r'.targetNodeIds ↔ nodeId ∈ r.targetNodeIds) := by
    intro r' hr'
    obtain ⟨k, hk⟩ := Maps.mem_values.1 hr'
    rw [hmap, Option.map_eq_some_iff] at hk
    obtain ⟨r, hr, rfl⟩ := hk
    exact ⟨r, Maps.mem_values.2 ⟨k, hr⟩, hf k r⟩
  have deploys : ∀ {r r' : ReleaseRecord}, r.Becomes r' → (nodeId ∈ r'.targetNodeIds ↔ nodeId ∈ r.targetNodeIds) →
      r'.Deploys siteId nodeId → r.Deploys siteId nodeId := fun hb hn hd =>
    ⟨hb.scopeType ▸ hd.1, hb.scopeId ▸ hd.2.1, hn.1 hd.2.2⟩
  rintro ⟨r', hr', hd'⟩
  obtain ⟨r, hr, hb, hn⟩ := back r' hr'
  rcases h ⟨r, hr, deploys hb hn hd'⟩ with hk | ⟨c, hc, hcc, hlater⟩
  · refine .inl fun x' hx' ht hs hlatest => ?_
    obtain ⟨x, hx, hxb, hxn⟩ := back x' hx'
    refine hxn.2 (hk x hx (hxb.scopeType ▸ ht) (hxb.scopeId ▸ hs) fun y hy hyt hys => ?_)
    obtain ⟨y', hy', hyb, -⟩ := forth y hy
    rw [← hyb.createdAt, ← hxb.createdAt]
    exact hlatest y' hy' (hyb.scopeType.trans hyt) (hyb.scopeId.trans hys)
  · obtain ⟨c', hc', hcb, hcn⟩ := forth c hc
    refine .inr ⟨c', hc', ⟨hcb.scopeType.trans hcc.1, hcb.scopeId.trans hcc.2.1, hcn.2 hcc.2.2⟩, fun x' hx' hxd => ?_⟩
    obtain ⟨x, hx, hxb, hxn⟩ := back x' hx'
    rw [hxb.createdAt, hcb.createdAt]
    exact hlater x hx (deploys hxb hxn hxd)

/-- A call that saves no site leaves what is known of the sites. -/
theorem sites_call (p : Platform) {w : World} {c : HubCall} (hc : c.effect ≠ some .saveSite) {k : Uuid}
    {site : SiteRecord} (hk : (hubHandler p c w).2.store.sites[k]? = some site) :
    ∃ old : SiteRecord, w.store.sites[k]? = some old ∧ site.id = old.id ∧ site.siteCode = old.siteCode := by
  by_cases he : ∀ e ∈ c.effect, e ∉ [Effect.saveSite, .deleteSite, .deleteNode]
  · rw [sites_of_effect he] at hk
    exact ⟨site, hk, rfl, rfl⟩
  · cases c with
    | saveSite s => exact absurd rfl hc
    | deleteSite siteId =>
      simp only [hubHandler, World.write, MemoryState.deleteSite] at hk
      split at hk
      · exact ⟨site, hk, rfl, rfl⟩
      · exact ⟨site, (Maps.getElem?_erase_eq_some hk).2, rfl, rfl⟩
    | deleteNode nodeId =>
      simp only [hubHandler, World.write, MemoryState.deleteNode] at hk
      split at hk
      · exact ⟨site, hk, rfl, rfl⟩
      · obtain ⟨old, hold, rfl⟩ := Maps.getElem?_map_eq_some hk
        exact ⟨old, hold, rfl, rfl⟩
    | _ => exact absurd (by simp [HubCall.effect]) he

/-- A call that saves neither a release nor a site keeps the invariant. -/
theorem OrphanInv.call {p : Platform} (hp : StrictMono p.clock) {w : World} (h : OrphanInv p w) {c : HubCall}
    (hc : c.effect ≠ some .saveRelease) (hs : c.effect ≠ some .saveSite) : OrphanInv p (hubHandler p c w).2 := by
  obtain ⟨f, gone, hf, hmap⟩ := releases_map_of_effect (p := p) (w := w) hc
  refine ⟨⟨fun k site hk => ?_, fun k site hk => ?_, fun k r hk => ?_, fun r hr => ?_⟩, fun s n => ?_⟩
  · obtain ⟨old, hold, hid, -⟩ := sites_call p hs hk
    exact hid.trans (h.ident k old hold)
  · obtain ⟨old, hold, -, hcode⟩ := sites_call p hs hk
    exact hcode ▸ h.coded k old hold
  · rw [hmap, Option.map_eq_some_iff] at hk
    obtain ⟨r₀, hr₀, -⟩ := hk
    exact (h.fresh k r₀ hr₀).trans_le nextUuid_le
  · obtain ⟨k, hk⟩ := Maps.mem_values.1 hr
    rw [hmap, Option.map_eq_some_iff] at hk
    obtain ⟨r₀, hr₀, rfl⟩ := hk
    rw [(hf k r₀).1.createdAt]
    exact (h.past r₀ (Maps.mem_values.2 ⟨k, hr₀⟩)).trans_le (hp.monotone tick_le)
  · by_cases hn : n ∈ gone
    · rintro ⟨r, hr, hd⟩
      obtain ⟨k, hk⟩ := Maps.mem_values.1 hr
      rw [hmap, Option.map_eq_some_iff] at hk
      obtain ⟨r₀, -, rfl⟩ := hk
      exact absurd hn (((hf k r₀).2 n).1 hd.2.2).2
    · refine (h.settled s n).of_map (fun k r => ⟨(hf k r).1, ?_⟩) hmap
      rw [(hf k r).2 n]
      exact ⟨fun h => h.1, fun h => ⟨h, hn⟩⟩

/-- A site with a code to see may be saved at any time. -/
theorem OrphanInv.saveSite {p : Platform} {w : World} (h : OrphanInv p w) {site : SiteRecord}
    (hcode : Text.Visible site.siteCode) : OrphanInv p { w with store := w.store.saveSite site } := by
  refine { h with ident := fun k s hk => ?_, coded := fun k s hk => ?_ }
  all_goals rcases Maps.getElem?_insert_eq_some hk with ⟨rfl, rfl⟩ | ⟨-, hk⟩
  · rfl
  · exact h.ident k s hk
  · exact hcode
  · exact h.coded k s hk

/-! ## The handling of one site -/

/-- A request is handling the releases of a site: `bound` are the nodes that the site is to have, and `left` those that
are still to be cleaned up. -/
structure Pending (p : Platform) (siteId : Uuid) (bound left : List Uuid) (w : World) :
    Prop extends ReleaseBase p w where
  others : ∀ s n, s ≠ siteId → Settled w.store s n
  settled : ∀ n ∈ bound, Settled w.store siteId n
  cleaned : ∀ n ∉ bound, Deployed w.store siteId n → n ∈ left ∨ Cleaned w.store siteId n

section Pending

variable {p : Platform} {hub : Nat} {w : World} {siteId : Uuid} {bound left : List Uuid}

theorem OrphanInv.pending (h : OrphanInv p w)
    (hl : ∀ n ∉ bound, Deployed w.store siteId n → Kept w.store siteId n → n ∈ left) : Pending p siteId bound left w :=
  { h with
    others := fun s n _ => h.settled s n
    settled := fun n _ => h.settled siteId n
    cleaned := fun n hn hd => (h.settled siteId n hd).imp_left (hl n hn hd) }

/-- Nothing is left to be cleaned up. -/
theorem Pending.done (h : Pending p siteId bound [] w) : OrphanInv p w := by
  refine { h with settled := fun s n => ?_ }
  by_cases hs : s = siteId
  · subst hs
    by_cases hn : n ∈ bound
    · exact h.settled n hn
    · exact fun hd => .inr ((h.cleaned n hn hd).resolve_left (by simp))
  · exact h.others s n hs

variable (hp : StrictMono p.clock)
include hp

theorem Pending.issued (h : Pending p siteId bound left w) (n : Nat) : Pending p siteId bound left (w.issued hub n) :=
  { h with
    fresh := fun k r hk => Nat.lt_succ_of_lt (h.fresh k r hk)
    past := fun r hr => (h.past r hr).trans_le (hp.monotone (Nat.le_add_right _ _)) }

/-- A site release for the bound nodes. -/
theorem Pending.saveSite {site : SiteRecord} (h : Pending p site.id (site.bindings.map (·.nodeId)) left w)
    (releaseType reason : String) :
    wp (aloneSpec p) (saveSiteRelease p hub site releaseType reason)
      (fun _ w' => Pending p site.id (site.bindings.map (·.nodeId)) left w' ∧ w'.store.sites = w.store.sites)
      (fun _ w' => w'.store = w.store ∧ Pending p site.id (site.bindings.map (·.nodeId)) left w') w := by
  refine saveSiteRelease_rule (fun _ _ _ => trivial) (fun _ => ⟨rfl, h⟩) (fun _ => ⟨rfl, h.issued hp 2⟩) fun r hr =>
    ⟨trivial, fun _ _ _ => ⟨?_, rfl⟩⟩
  have hdeploys : ∀ n ∉ site.bindings.map (·.nodeId), ¬ r.Deploys site.id n := by
    intro n hn hd
    exact hn (hr.targets ▸ hd.2.2)
  refine { h.toReleaseBase.save hp hr with
    others := fun s n hs => ?_
    settled := fun n hn => ?_
    cleaned := fun n hn hd => ?_ }
  · refine (h.others s n hs).save hr h.toReleaseBase (.inr ?_)
    rw [hr.scopeId]
    exact fun e => hs (Option.some.inj e).symm
  · exact settled_of_new hp hr h.toReleaseBase hr.scopeType hr.scopeId (hr.targets ▸ hn)
  · obtain ⟨x, hx, hxd⟩ := hd
    rcases (mem_saveRelease (h.toReleaseBase.free hr)).1 hx with rfl | hx
    · exact absurd hxd (hdeploys n hn)
    · exact (h.cleaned n hn ⟨x, hx, hxd⟩).imp_right fun hc => hc.save hr h.toReleaseBase (hdeploys n hn)

/-- A cleanup release for the nodes that are left. -/
theorem Pending.cleanup {site : SiteRecord} (h : Pending p site.id bound left w) (hcode : Text.Visible site.siteCode)
    (reason : String) :
    wp (aloneSpec p) (saveSiteCleanupRelease p hub site left reason)
      (fun _ w' => Pending p site.id bound [] w' ∧ w'.store.sites = w.store.sites) (fun _ _ => False) w := by
  refine saveSiteCleanupRelease_rule (fun _ _ _ => trivial) (fun hblank => ?_)
    fun r hr => ⟨trivial, fun _ _ _ => ⟨?_, rfl⟩⟩
  · rw [hcode.isEmpty_trim] at hblank
    cases hblank
  have hnot : r.scopeType ≠ "site" := by
    rw [hr.scopeType]
    decide
  refine { h.toReleaseBase.save hp hr with
    others := fun s n hs => (h.others s n hs).save hr h.toReleaseBase (.inl hnot)
    settled := fun n hn => (h.settled n hn).save hr h.toReleaseBase (.inl hnot)
    cleaned := fun n hn hd => .inr ?_ }
  obtain ⟨x, hx, hxd⟩ := hd
  rcases (mem_saveRelease (h.toReleaseBase.free hr)).1 hx with rfl | hx
  · exact absurd hxd.1 hnot
  rcases h.cleaned n hn ⟨x, hx, hxd⟩ with hleft | hc
  · exact cleaned_of_new hp hr h.toReleaseBase ⟨hr.scopeType, hr.scopeId, hr.targets ▸ hleft⟩
  · exact hc.save hr h.toReleaseBase fun hd => hnot hd.1

end Pending

/-! ## Requests -/

/-- What is asked of a request: every target of the latest release of a site is still bound to it when the status of the
site is set, and when the site is deleted. -/
def NothingLeft (s : MemoryState) : Request → Prop
  | .updateSiteStatus siteId _ | .deleteSite siteId =>
    ∀ site ∈ s.sites[siteId]?, detachedNodeIds s.releases.values siteId (site.bindings.map (·.nodeId)) = []
  | _ => True

section Requests

variable {p : Platform} {hub : Nat} {w : World} (hp : StrictMono p.clock) (h : OrphanInv p w)
include hp h

theorem createRelease_settles (request : CreateReleaseRequest) :
    wp (aloneSpec p) (createRelease p hub request)
      (fun _ w' => OrphanInv p w' ∧ NoOrphans w'.store request.scopeId) (fun _ => OrphanInv p) w := by
  simp only [createRelease, detachedNodeIdsForSite, repo, wp_bind, wp_ensure, wp_okOr, wp_call_alone, wp_pure,
    hubHandler, World.read, World.write, true_and, forall_const]
  refine ⟨fun _ => ⟨fun site hsite => ⟨fun _ => ?_, fun _ => h⟩, fun _ => h⟩, fun _ => h⟩
  have hid := h.ident _ site hsite
  have hcode := h.coded _ site hsite
  have hpending : Pending p site.id (site.bindings.map (·.nodeId))
      (detachedNodeIds w.store.releases.values site.id (site.bindings.map (·.nodeId))) w :=
    h.pending fun n hn hd hk => mem_detachedNodeIds hd hk hn
  generalize detachedNodeIds w.store.releases.values site.id (site.bindings.map (·.nodeId)) = left at hpending ⊢
  refine wp_mono (fun r₁ w₁ h₁ => ?_) (fun _ w' he => ?_)
    (wp_onlyIf_of (hpending.saveSite hp request.releaseType request.reason) ⟨hpending, rfl⟩)
  swap
  · exact { he.2.toReleaseBase with settled := he.1 ▸ h.settled }
  have hcleanup : wp (aloneSpec p) (onlyIf (!left.isEmpty) (saveSiteCleanupRelease p hub site left request.reason))
      (fun _ w' => Pending p site.id (site.bindings.map (·.nodeId)) [] w' ∧ w'.store.sites = w₁.store.sites)
      (fun _ _ => False) w₁ := by
    refine (wp_onlyIf _ _).2 ⟨fun _ => h₁.1.cleanup hp hcode request.reason, fun he => ⟨?_, rfl⟩⟩
    rw [Bool.not_eq_false', List.isEmpty_iff] at he
    exact he ▸ h₁.1
  refine wp_mono (fun r₂ w₂ h₂ => ?_) (fun _ _ he => he.elim) hcleanup
  have hsaved : OrphanInv p { w₂ with store := w₂.store.saveSite { site with
      status := if r₁.isSome then .published else .draft } } := h₂.1.done.saveSite hcode
  refine ⟨fun _ _ => ⟨hsaved, fun n _ hn hd => ?_⟩, fun _ => hsaved⟩
  have hn : n ∉ site.bindings.map (·.nodeId) := by
    refine hn { site with status := if r₁.isSome then .published else .draft } ?_
    rw [← hid]
    exact Std.ExtTreeMap.getElem?_insert_self
  rw [← hid] at hd ⊢
  exact (h₂.1.cleaned n hn hd).resolve_left (by simp)

theorem deleteSite_settles (siteId : Uuid) (hleft : NothingLeft w.store (.deleteSite siteId)) :
    wp (aloneSpec p) (HubService.deleteSite p hub siteId) (fun _ w' => OrphanInv p w' ∧ NoOrphans w'.store siteId)
      (fun _ => OrphanInv p) w := by
  simp only [HubService.deleteSite, repo, wp_bind, wp_okOr, wp_call_alone, wp_pure, true_and, forall_const]
  refine ⟨fun site hsite => ?_, fun _ => h⟩
  have hid := h.ident _ site hsite
  have hpending : Pending p site.id [] (site.bindings.map (·.nodeId)) w := by
    refine h.pending fun n _ hd hk => ?_
    by_contra hn
    have := mem_detachedNodeIds hd hk hn
    rw [hid, hleft site hsite] at this
    cases this
  have hcleanup : wp (aloneSpec p) (onlyIf (!site.bindings.isEmpty)
      (saveSiteCleanupRelease p hub site (site.bindings.map (·.nodeId)) "delete site"))
      (fun _ w' => Pending p site.id [] [] w') (fun _ _ => False) w := by
    refine (wp_onlyIf _ _).2 ⟨fun _ => ?_, fun he => ?_⟩
    · exact wp_mono (fun _ _ h => h.1) (fun _ _ he => he)
        (hpending.cleanup hp (h.coded _ site hsite) "delete site")
    · rw [Bool.not_eq_false', List.isEmpty_iff] at he
      rw [he] at hpending
      exact hpending
  refine wp_mono (fun _ w₁ h₁ => ?_) (fun _ _ he => he.elim) hcleanup
  refine ⟨h₁.done.call hp (by simp [HubCall.effect]) (by simp [HubCall.effect]), fun n _ _ hd => ?_⟩
  have hreleases : (hubHandler p (.deleteSite siteId) w₁).2.store.releases = w₁.store.releases := by
    simp only [hubHandler, World.write, MemoryState.deleteSite]
    split <;> rfl
  simp only [Deployed, Cleaned, hreleases] at hd ⊢
  rw [← hid] at hd ⊢
  exact (h₁.cleaned n (by simp) hd).resolve_left (by simp)

theorem updateSiteStatus_settles (siteId : Uuid) (enabled : Bool)
    (hleft : NothingLeft w.store (.updateSiteStatus siteId enabled)) :
    wp (aloneSpec p) (updateSiteStatus p hub siteId enabled) (fun _ => OrphanInv p) (fun _ => OrphanInv p) w := by
  simp only [updateSiteStatus, repo, wp_bind, wp_okOr, wp_call_alone, wp_pure, hubHandler, World.read, World.write,
    true_and, forall_const]
  refine ⟨fun old hold => ?_, fun _ => h⟩
  have hid := h.ident _ old hold
  have hsaved : OrphanInv p { w with store := w.store.saveSite { old with
      status := switchedStatus enabled old.bindings, version := old.version + 1 } } := h.saveSite (h.coded _ old hold)
  have hpending : Pending p old.id (old.bindings.map (·.nodeId)) [] _ := hsaved.pending fun n hn hd hk => by
    have := mem_detachedNodeIds hd hk hn
    rw [hid] at this
    exact hleft old hold ▸ this
  refine wp_mono (fun _ w' h' => h'.done) (fun _ w' he => he.2.done) (wp_onlyIf_of (wp_mono (fun _ _ h => h.1)
    (fun _ _ he => he) (@Pending.saveSite _ _ _ _ hp { old with
      status := switchedStatus enabled old.bindings, version := old.version + 1 } hpending _ _)) hpending)

omit hp in
theorem updateSite_settles (siteId : Uuid) (request : UpdateSiteRequest) :
    wp (aloneSpec p) (updateSite siteId request) (fun _ => OrphanInv p) (fun _ => OrphanInv p) w := by
  simp only [updateSite, repo, wp_bind, wp_attempt, wp_okOr, wp_call_alone, wp_pure, hubHandler,
    World.read, World.write, true_and, forall_const]
  exact ⟨fun protocol _ => ⟨fun _ _ => ⟨fun old hold => h.saveSite (h.coded _ old hold), fun _ => h⟩, fun _ _ => h⟩,
    fun _ _ => h⟩

omit hp in
theorem bindSiteNodes_settles (siteId : Uuid) (raw : List SiteBindingItem) :
    wp (aloneSpec p) (bindSiteNodes siteId raw) (fun _ => OrphanInv p) (fun _ => OrphanInv p) w := by
  simp only [bindSiteNodes, wp_bind, wp_attempt]
  refine ⟨fun bindings _ => ?_, fun _ _ => h⟩
  refine wp_mono ?_ (fun _ _ h => h) (wp_forM_check (P := fun _ => True) _ bindings fun b _ => ?_)
  · rintro _ _ ⟨rfl, -⟩
    simp only [repo, wp_okOr, wp_call_alone, wp_pure, hubHandler, World.read, World.write, true_and, forall_const]
    exact ⟨fun old hold => h.saveSite (h.coded _ old hold), fun _ => h⟩
  · simp only [repo, wp_bind, wp_call_alone, wp_ensure, hubHandler, World.read, true_and, forall_const]
    exact ⟨fun _ => trivial, fun _ => h⟩

theorem switchSitePrimary_settles (siteId : Uuid) (request : SwitchSitePrimaryRequest) :
    wp (aloneSpec p) (switchSitePrimary p hub siteId request) (fun _ => OrphanInv p) (fun _ => OrphanInv p) w := by
  simp only [switchSitePrimary, repo, wp_bind, wp_okOr, wp_ensure, wp_call_alone, wp_pure, wp_forSome, true_and,
    forall_const]
  refine ⟨fun old hold => ⟨fun _ => chooseSwitchTarget_rule (fun _ _ _ => trivial) (fun target _ _ =>
    ⟨fun _ => ?_, fun _ => h⟩) fun _ => h, fun _ => h⟩, fun _ => h⟩
  have hsaved : OrphanInv p { w with store := w.store.saveSite { old with
      bindings := switchedBindings old.bindings target ((primarySiteBinding old).map (·.nodeId))
        (request.keepPreviousAsStandby.getD true)
      status := .draft, version := old.version + 1 } } := h.saveSite (h.coded _ old hold)
  constructor
  · intro next _
    exact wp_mono (fun _ _ h => h.1) (fun _ _ he => he) (createRelease_settles hp (hsaved.call hp (c :=
      .updateActiveFailoverPolicyTargets siteId target next) (by simp [HubCall.effect])
      (by simp [HubCall.effect])) _)
  · intro _
    exact wp_mono (fun _ _ h => h.1) (fun _ _ he => he) (createRelease_settles hp hsaved _)

omit h hp in
/-- The loop over candidate codes changes nothing, and ends with a code to see. -/
theorem siteCodeLoop_visible {base candidate : String} (hb : Text.Visible base) (hc : Text.Visible candidate)
    (fuel suffix : Nat) :
    wp (aloneSpec p) (siteCodeLoop base fuel suffix candidate) (fun code w' => Text.Visible code ∧ w' = w)
      (fun _ w' => w' = w) w := by
  induction fuel generalizing suffix candidate with
  | zero => exact (wp_throw _).2 rfl
  | succ fuel ih =>
    simp only [siteCodeLoop, repo, wp_bind, wp_call_alone, hubHandler, World.read, true_and, forall_const]
    cases w.store.siteIdsByCode[candidate]? with
    | none => exact (wp_pure _).2 ⟨hc, rfl⟩
    | some i => exact ih ((hb.append _).append _) _

omit h hp in
theorem baseSiteCode_visible {preferred : Option String} {name domain base : String}
    (hb : baseSiteCode preferred name domain = some base) : Text.Visible base := by
  obtain ⟨raw, rfl, hne⟩ := slug_of_baseSiteCode hb
  exact slugifySiteCode_visible hne

omit h hp in
/-- A generated code is one to see, and at most an identifier has been drawn. -/
theorem generateUniqueSiteCode_visible (preferred : Option String) (name domain : String) {I : World → Prop} (h : I w)
    (hnew : I (hubHandler p .newUuid w).2) :
    wp (aloneSpec p) (generateUniqueSiteCode preferred name domain) (fun code w' => Text.Visible code ∧ I w')
      (fun _ => I) w := by
  have hloop : ∀ {w' : World} {base : String}, I w' → Text.Visible base →
      wp (aloneSpec p) (siteCodeLoop base 4294967295 1 base) (fun code w' => Text.Visible code ∧ I w')
        (fun _ => I) w' := by
    intro w' base h hb
    refine wp_mono ?_ ?_ (siteCodeLoop_visible hb hb _ _)
    · rintro _ _ ⟨hcode, rfl⟩
      exact ⟨hcode, h⟩
    · rintro _ _ rfl
      exact h
  simp only [generateUniqueSiteCode, repo, wp_bind, wp_getOr, wp_call_alone, wp_pure, true_and, forall_const]
  constructor
  · intro base hbase
    exact hloop h (baseSiteCode_visible hbase)
  · intro _
    exact hloop hnew (Text.Visible.append ⟨'s', by decide, by decide⟩ _)

theorem createSite_settles (request : CreateSiteRequest) :
    wp (aloneSpec p) (createSite request) (fun _ => OrphanInv p) (fun _ => OrphanInv p) w := by
  simp only [createSite, repo, wp_bind, wp_ensure, wp_attempt, wp_call_alone, wp_pure, true_and, forall_const]
  refine ⟨fun _ => ⟨fun _ _ => ⟨fun protocol _ => ?_, fun _ _ => h⟩, fun _ _ => h⟩, fun _ => h⟩
  refine wp_mono ?_ (fun _ _ he => he)
    (generateUniqueSiteCode_visible (p := p) (I := OrphanInv p) _ _ _ h
      (h.call hp (by simp [HubCall.effect]) (by simp [HubCall.effect])))
  rintro code w' ⟨hcode, h'⟩
  exact (h'.call hp (c := .newUuid) (by simp [HubCall.effect]) (by simp [HubCall.effect])).saveSite hcode

end Requests

/-! ## Runs -/

/-- The site that a request publishes or deletes. -/
def Request.handles : Request → Option Uuid
  | .createRelease request => some request.scopeId
  | .deleteSite siteId => some siteId
  | _ => none

/-- Each request meets a store in which it leaves nothing behind. -/
def AllNothingLeft (p : Platform) (hub : Hub) : World → List Request → Prop
  | _, [] => True
  | w, r :: rs => NothingLeft w.store r ∧ AllNothingLeft p hub (w.serve p hub r) rs

section Runs

variable {p : Platform} {hub : Hub} {w : World} (hp : StrictMono p.clock)
include hp

/-- A request that leaves nothing behind keeps the invariant. -/
theorem OrphanInv.serve (h : OrphanInv p w) {r : Request} (hr : NothingLeft w.store r) :
    OrphanInv p (w.serve p hub r) := by
  refine serve_of_wp ?_
  by_cases he : Effect.saveRelease ∉ r.effects ∧ Effect.saveSite ∉ r.effects
  · refine only_alone (program_only p hub r) (fun c w hc h => h.call hp (fun e => ?_) fun e => ?_) h
    all_goals
      unfold HubCall.Within at hc
      rw [e] at hc
    · exact he.1 hc
    · exact he.2 hc
  · cases r with
    | createSite request => exact (wp_discard _).2 (createSite_settles hp h request)
    | updateSite siteId request => exact (wp_discard _).2 (updateSite_settles h siteId request)
    | updateSiteStatus siteId enabled => exact (wp_discard _).2 (updateSiteStatus_settles hp h siteId enabled hr)
    | deleteSite siteId =>
      exact (wp_discard _).2 (wp_mono (fun _ _ h => h.1) (fun _ _ he => he) (deleteSite_settles hp h siteId hr))
    | bindSiteNodes siteId raw => exact (wp_discard _).2 (bindSiteNodes_settles h siteId raw)
    | switchSitePrimary siteId request => exact (wp_discard _).2 (switchSitePrimary_settles hp h siteId request)
    | createRelease request =>
      exact (wp_discard _).2 (wp_mono (fun _ _ h => h.1) (fun _ _ he => he) (createRelease_settles hp h request))
    | _ => exact absurd (by simp [Request.effects]) he

/-- A publication or a deletion that succeeds leaves no orphans. -/
theorem OrphanInv.noOrphans (h : OrphanInv p w) {r : Request} (hr : NothingLeft w.store r) {siteId : Uuid}
    (hs : siteId ∈ r.handles) (hok : w.Succeeds p hub r) : NoOrphans (w.serve p hub r).store siteId := by
  cases r with
  | createRelease request =>
    cases hs
    exact (serve_of_succeeds ((wp_discard _).2 (createRelease_settles hp h request)) hok).2
  | deleteSite s =>
    cases hs
    exact (serve_of_succeeds ((wp_discard _).2 (deleteSite_settles hp h siteId hr)) hok).2
  | _ => cases hs

end Runs

/-- In every run of requests that leave nothing behind, on a clock that advances, a publication or a deletion of a site
that succeeds leaves no node with the site that does not belong to it. -/
theorem no_orphans (p : Platform) (hp : StrictMono p.clock) (hub : Hub) (rs : List Request)
    (hrs : AllNothingLeft p hub World.init rs) (pre : List Request) (r : Request) (hpre : pre ++ [r] <+: rs)
    (siteId : Uuid) (hs : siteId ∈ r.handles) (hok : (World.init.serveAll p hub pre).Succeeds p hub r) :
    NoOrphans (World.init.serveAll p hub (pre ++ [r])).store siteId := by
  have hrun : ∀ (pre rs : List Request) (w : World), OrphanInv p w → AllNothingLeft p hub w rs → pre ++ [r] <+: rs →
      (w.serveAll p hub pre).Succeeds p hub r → NoOrphans (w.serveAll p hub (pre ++ [r])).store siteId := by
    intro pre
    induction pre with
    | nil =>
      intro rs w h hrs hpre hok
      obtain ⟨rs', rfl⟩ := hpre
      exact h.noOrphans hp hrs.1 hs hok
    | cons q pre ih =>
      intro rs w h hrs hpre hok
      obtain ⟨rs', rfl⟩ := hpre
      exact ih (pre ++ [r] ++ rs') (w.serve p hub q) (h.serve hp hrs.1) hrs.2 ⟨rs', rfl⟩ hok
  exact hrun pre rs World.init (OrphanInv.init p) hrs hpre hok

theorem plain_clock_strictMono : StrictMono Platform.plain.clock := by
  intro m n hmn
  have h : (m : Int) * 1000000000 < (n : Int) * 1000000000 := by omega
  exact h

/-- Two nodes and a site that is published on the first and then bound to the second. -/
def movedSite : List Request := [.node "edge-1", .node "edge-2", .site "example", .bind 4 0 [],
    .publish 4, .bind 4 2 []]

/-- A site that has moved is published again: the node it has left is cleaned up. -/
theorem no_orphans_moved :
    NoOrphans (World.init.serveAll .plain ⟨0, 30⟩ (movedSite ++ [Request.publish 4])).store 4 :=
  no_orphans .plain plain_clock_strictMono ⟨0, 30⟩ (movedSite ++ [Request.publish 4])
    (by refine ⟨trivial, trivial, trivial, trivial, trivial, trivial, trivial, trivial⟩) movedSite (.publish 4)
    (List.prefix_refl _) 4 rfl (by decide +kernel)

/-- The site is enabled before it is published again: the node it has left is never cleaned up. -/
theorem enable_orphans_node :
    (World.init.serveAll .plain ⟨0, 30⟩ (movedSite ++ [Request.updateSiteStatus 4 true])).Succeeds .plain
      ⟨0, 30⟩ (.publish 4) ∧ ¬ NoOrphans (World.init.serveAll .plain ⟨0, 30⟩
        (movedSite ++ [Request.updateSiteStatus 4 true] ++ [Request.publish 4])).store 4 := by
  decide +kernel

end PingoraMesh
