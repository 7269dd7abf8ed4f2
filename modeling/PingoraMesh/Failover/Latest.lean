import PingoraMesh.Failover.Primary

/-!
# Whether a failover release takes effect

A node asks for its latest release, and the PostgreSQL store takes the one that was created last
(`latestReleaseIdsForNode`; among releases of one microsecond it is free to take any). The release of a failover is
stamped with the time at which its cycle has started.

* `executeSiteFailover_release`: the release that a failover stores;
* `failover_release_latest_iff`: right after its transaction a failover release is the latest one of its nodes exactly
  if every other release of one of them was created before the cycle started;
* `later_release_hides_failover`: a release that a hub has made meanwhile hides it.
-/

namespace PingoraMesh

open Calls

/-! ## The latest release -/

/-- A column of type `TIMESTAMPTZ`: microseconds since the year 2000. -/
def timestamptz (t : DateTime) : Int := Int.tdiv (t - DateTime.seconds 946684800) 1000

/-- The releases with a row in `node_release_status` for a node, under their identifiers. -/
def releasesOfNode (nodeId : Uuid) (s : MemoryState) : List (Uuid × ReleaseRecord) :=
  s.releases.toList.filter fun x => x.2.targetNodeIds.contains nodeId

/-- `latest_release_id_for_node` of the PostgreSQL store: what `ORDER BY created_at DESC LIMIT 1` may give. -/
def latestReleaseIdsForNode (nodeId : Uuid) (s : MemoryState) : List Uuid :=
  ((releasesOfNode nodeId s).filter fun x =>
    (releasesOfNode nodeId s).all fun y => timestamptz y.2.createdAt ≤ timestamptz x.2.createdAt).map (·.1)

theorem mem_releasesOfNode {nodeId k : Uuid} {r : ReleaseRecord} {s : MemoryState} :
    (k, r) ∈ releasesOfNode nodeId s ↔ s.releases[k]? = some r ∧ nodeId ∈ r.targetNodeIds := by
  unfold releasesOfNode
  rw [List.mem_filter, Std.ExtTreeMap.mem_toList_iff_getElem?_eq_some, List.contains_iff_mem]

theorem mem_latestReleaseIdsForNode {nodeId k : Uuid} {s : MemoryState} :
    k ∈ latestReleaseIdsForNode nodeId s ↔ ∃ r, s.releases[k]? = some r ∧ nodeId ∈ r.targetNodeIds ∧
      ∀ (k' : Uuid) r', s.releases[k']? = some r' → nodeId ∈ r'.targetNodeIds →
        timestamptz r'.createdAt ≤ timestamptz r.createdAt := by
  unfold latestReleaseIdsForNode
  simp only [List.mem_map, List.mem_filter, List.all_eq_true, decide_eq_true_eq, Prod.exists, Prod.forall,
    mem_releasesOfNode]
  constructor
  · rintro ⟨k, r, ⟨⟨hk, hn⟩, hall⟩, rfl⟩
    exact ⟨r, hk, hn, fun k' r' hk' hn' => hall k' r' ⟨hk', hn'⟩⟩
  · rintro ⟨r, hk, hn, hall⟩
    exact ⟨k, r, ⟨⟨hk, hn⟩, fun k' r' h => hall k' r' h.1 h.2⟩, rfl⟩

/-- A release that is new in the store is the only one that may be taken for a node exactly if the others are older. -/
theorem latestReleaseIdsForNode_insert_iff {nodeId k : Uuid} {r : ReleaseRecord} {s s' : MemoryState}
    (hs : s'.releases = s.releases.insert k r) (hr : nodeId ∈ r.targetNodeIds) :
    (∀ k', k' ∈ latestReleaseIdsForNode nodeId s' ↔ k' = k) ↔
      ∀ (k' : Uuid) r', s.releases[k']? = some r' → k' ≠ k → nodeId ∈ r'.targetNodeIds →
        timestamptz r'.createdAt < timestamptz r.createdAt := by
  have hnew : s'.releases[k]? = some r := by
    rw [hs]
    exact Std.ExtTreeMap.getElem?_insert_self
  have hold : ∀ {k' : Uuid} {r'}, k' ≠ k → (s'.releases[k']? = some r' ↔ s.releases[k']? = some r') := by
    intro k' r' hne
    rw [hs, Std.ExtTreeMap.getElem?_insert, if_neg fun e => hne (Std.compare_eq_iff_eq.1 e).symm]
  constructor
  · intro h k' r' hk' hne hn
    obtain ⟨r₀, hr₀, -, hall⟩ := mem_latestReleaseIdsForNode.1 ((h k).2 rfl)
    rw [hnew] at hr₀
    cases hr₀
    -- a release that is not older could be taken as well
    refine lt_of_le_of_ne (hall k' r' ((hold hne).2 hk') hn) fun e => hne ((h k').1 ?_)
    refine mem_latestReleaseIdsForNode.2 ⟨r', (hold hne).2 hk', hn, fun k'' r'' hk'' hn'' => ?_⟩
    rw [e]
    exact hall k'' r'' hk'' hn''
  · intro h k'
    constructor
    · intro hk'
      obtain ⟨r', hr', hn, hall⟩ := mem_latestReleaseIdsForNode.1 hk'
      by_contra hne
      exact absurd (hall k r hnew hr) (not_le.2 (h k' r' ((hold hne).1 hr') hne hn))
    · rintro rfl
      refine mem_latestReleaseIdsForNode.2 ⟨r, hnew, hr, fun k'' r'' hk'' hn'' => ?_⟩
      by_cases hne : k'' = k'
      · subst hne
        rw [hnew] at hk''
        cases hk''
        exact le_rfl
      · exact (h k'' r'' ((hold hne).1 hk'') hne hn'').le

/-! ## The release of a failover -/

/-- The identifier that a failover draws for its release. -/
def Mesh.failoverReleaseId (m : Mesh) : Uuid := m.world.nextUuid

variable (p : Platform) (net : Nat → Delivery)

/-- A failover that succeeds has stored one release, for the nodes of the bindings it has written, with its own clock
reading. -/
theorem executeSiteFailover_release (policy : PolicySnapshot) (site : SiteSnapshot) (eventId : Uuid) (now : DateTime)
    (m : Mesh) :
    (executeSiteFailover p net policy site eventId now).wp (fun _ m' => ∃ r : ReleaseRecord, r.createdAt = now ∧
      r.targetNodeIds = (switchedSnapshot policy site).map (·.nodeId) ∧
      m'.world.store.releases = m.world.store.releases.insert m.failoverReleaseId r) (fun _ _ => True) m := by
  refine Act.wp_mono ?_ (fun _ _ _ => trivial) (executeSiteFailover_stored p net policy site eventId now m)
  rintro _ m' ⟨-, certificates, targets, createdAt, bundle, hb, hreleases⟩
  have hid : bundle.manifest.releaseId = m.failoverReleaseId := by
    unfold compileSiteBundle at hb
    split at hb
    · cases hb
    · cases hb
      rfl
  refine ⟨failoverRelease policy site bundle ((switchedSnapshot policy site).map (·.nodeId)) now, rfl, rfl, ?_⟩
  rw [hreleases, hid]

/-! ## Runs -/

/-- In every run of hubs, operators and failover workers, whenever the transaction of a failover commits: its release is
the only one that the store may then take as the latest for each of its nodes exactly if every other release of such a
node was created before the clock reading with which the cycle has started. -/
theorem failover_release_latest_iff {ι : Type} [DecidableEq ι] (m : Mesh) (ms : List (Move ι MeshRequest)) (i : ι)
    (policy : PolicySnapshot) (site : SiteSnapshot) (eventId : Uuid) (now : DateTime)
    (hnext : .executeSiteFailover policy site eventId now ∈
      (Pool.exec (meshHandler p net) (meshProgram p) (Pool.init m) ms).next i)
    (hok : (executeSiteFailover p net policy site eventId now
      (Pool.exec (meshHandler p net) (meshProgram p) (Pool.init m) ms).state).1 = .ok ()) :
    (∀ n ∈ (switchedSnapshot policy site).map (·.nodeId), ∀ k, k ∈ latestReleaseIdsForNode n
        (Pool.exec (meshHandler p net) (meshProgram p) (Pool.init m) (ms ++ [.go i])).state.world.store ↔
          k = (Pool.exec (meshHandler p net) (meshProgram p) (Pool.init m) ms).state.failoverReleaseId) ↔
      ∀ n ∈ (switchedSnapshot policy site).map (·.nodeId), ∀ (k : Uuid) r,
        (Pool.exec (meshHandler p net) (meshProgram p) (Pool.init m) ms).state.world.store.releases[k]? = some r →
          k ≠ (Pool.exec (meshHandler p net) (meshProgram p) (Pool.init m) ms).state.failoverReleaseId →
            n ∈ r.targetNodeIds → timestamptz r.createdAt < timestamptz now := by
  rw [Pool.exec_append, Pool.exec_cons, Pool.exec_nil]
  generalize Pool.exec (meshHandler p net) (meshProgram p) (Pool.init m) ms = P at hnext hok ⊢
  have hmove : (Pool.move (meshHandler p net) (meshProgram p) P (.go i)).state =
      (executeSiteFailover p net policy site eventId now P.state).2 := by
    unfold Pool.next at hnext
    split at hnext
    · rename_i c k hthread
      cases hnext
      simp only [Pool.move, hthread]
      rfl
    · cases hnext
  rw [hmove]
  have hrun : executeSiteFailover p net policy site eventId now P.state =
      (.ok (), (executeSiteFailover p net policy site eventId now P.state).2) := by
    rw [← hok]
  obtain ⟨r, rfl, htargets, hreleases⟩ :=
    Act.wp_ok (executeSiteFailover_release p net policy site eventId now P.state) hrun
  refine forall₂_congr fun n hn => ?_
  rw [← htargets] at hn
  exact latestReleaseIdsForNode_insert_iff hreleases hn

/-- A cycle up to the transaction of its failover, and a request to publish the site that is served after so many
calls of the cycle. -/
def publishedAfter (calls : Nat) : List (Move Nat MeshRequest) :=
  Move.spawn 0 (.failoverCycle 15) :: List.replicate calls (Move.go 0) ++ request 1 0 20 (.publish 4) ++
    List.replicate (6 - calls) (Move.go 0)

/-- The pool after that. -/
def poolPublishedAfter (calls : Nat) : Pool meshSig Unit Nat Mesh :=
  Pool.exec (meshHandler .plain fun _ => .done) (meshProgram .plain) (Pool.init guardedMesh) (publishedAfter calls)

/-- The call is a failover, and `f` holds of its arguments. -/
def failoverSuch (f : PolicySnapshot → SiteSnapshot → Uuid → DateTime → Bool) : Option MeshCall → Bool
  | some (.executeSiteFailover policy site eventId now) => f policy site eventId now
  | _ => false

/-- The site is published before the cycle starts: every release is older than the failover release, which is the
latest one of both nodes. -/
theorem failover_release_latest_iff_before :
    ∃ policy site eventId now, .executeSiteFailover policy site eventId now ∈ (poolPublishedAfter 0).next 0 ∧
      (switchedSnapshot policy site).map (·.nodeId) = [2, 0] ∧
      ∀ n ∈ (switchedSnapshot policy site).map (·.nodeId), ∀ k, k ∈ latestReleaseIdsForNode n
          (Pool.exec (meshHandler .plain fun _ => .done) (meshProgram .plain) (Pool.init guardedMesh)
            (publishedAfter 0 ++ [Move.go 0])).state.world.store ↔
              k = (poolPublishedAfter 0).state.failoverReleaseId := by
  have hcheck : failoverSuch (fun policy site eventId now =>
      decide ((executeSiteFailover .plain (fun _ => .done) policy site eventId now
          (poolPublishedAfter 0).state).1 = .ok () ∧
        (switchedSnapshot policy site).map (·.nodeId) = [2, 0] ∧
        ∀ r ∈ (poolPublishedAfter 0).state.world.store.releases.values, timestamptz r.createdAt < timestamptz now))
      ((poolPublishedAfter 0).next 0) = true := by decide +kernel
  unfold failoverSuch poolPublishedAfter at hcheck
  unfold poolPublishedAfter
  split at hcheck
  · rename_i policy site eventId now hnext
    obtain ⟨hok, hnodes, holder⟩ := of_decide_eq_true hcheck
    refine ⟨policy, site, eventId, now, hnext, hnodes, ?_⟩
    refine (failover_release_latest_iff .plain (fun _ => .done) guardedMesh (publishedAfter 0) 0 policy site eventId now
      hnext hok).2 fun n _ k r hr _ _ => ?_
    exact holder r (Maps.mem_values.2 ⟨k, hr⟩)
  · cases hcheck

/-- The site is published while the cycle looks at its policy: after the failover its nodes are given the release of the
hub. -/
theorem later_release_hides_failover :
    ¬ ∀ policy site eventId now, .executeSiteFailover policy site eventId now ∈ (poolPublishedAfter 3).next 0 →
      (executeSiteFailover .plain (fun _ => .done) policy site eventId now (poolPublishedAfter 3).state).1 = .ok () →
      ∀ n ∈ (switchedSnapshot policy site).map (·.nodeId), ∀ k, k ∈ latestReleaseIdsForNode n
        (executeSiteFailover .plain (fun _ => .done) policy site eventId now
          (poolPublishedAfter 3).state).2.world.store ↔ k = (poolPublishedAfter 3).state.failoverReleaseId := by
  intro h
  have hcheck : failoverSuch (fun policy site eventId now =>
      decide
        ((executeSiteFailover .plain (fun _ => .done) policy site eventId now (poolPublishedAfter 3).state).1 = .ok () ∧
        2 ∈ (switchedSnapshot policy site).map SiteBindingSnapshot.nodeId ∧
        5 ∈ latestReleaseIdsForNode 2 (executeSiteFailover .plain (fun _ => .done) policy site eventId now
          (poolPublishedAfter 3).state).2.world.store ∧ (poolPublishedAfter 3).state.failoverReleaseId = 7))
      ((poolPublishedAfter 3).next 0) = true := by decide +kernel
  unfold failoverSuch at hcheck
  split at hcheck
  · rename_i policy site eventId now hnext
    obtain ⟨hok, hnode, hlatest, hid⟩ := of_decide_eq_true hcheck
    have hnew := (h policy site eventId now hnext hok 2 hnode 5).1 hlatest
    rw [hid] at hnew
    cases hnew
  · cases hcheck

end PingoraMesh
