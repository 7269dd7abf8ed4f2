import PingoraMesh.Hub.Sound

/-!
# What a release says about its acknowledgements

A release keeps a list of targets, a map of acknowledgements and a status, and `summarize_release_counts` counts the
acknowledgements once more.

* `aggregateReleaseStatus_eq`: the status follows from the counts, whatever texts the nodes have sent;
* `ReleaseInv`: the acknowledgements of each release are those of its targets, and its status is up to date; every call
  that fits keeps this (`ReleaseInv.call`);
* `release_truthful`: so it is after every sequence of requests.
-/

namespace PingoraMesh

open Calls Fallible HubService

/-! ## The counts -/

/-- All acknowledgements that the counts are made of. -/
def ReleaseStatusCounts.total (c : ReleaseStatusCounts) : Nat := c.pending + c.inProgress + c.success + c.failed

/-- Each text is of exactly one of the four kinds. -/
theorem ack_kinds (a : String) :
    (if !(a == "success" || a == "failed" || (a == "downloading" || a == "applying")) then 1 else 0) +
      (if a == "downloading" || a == "applying" then 1 else 0) + (if a == "success" then 1 else 0) +
      (if a == "failed" then 1 else 0) = 1 := by
  by_cases h₁ : a = "success"
  · simp [h₁]
  · by_cases h₂ : a = "failed"
    · simp [h₂]
    · by_cases h₃ : a = "downloading" ∨ a = "applying"
      · rcases h₃ with rfl | rfl <;> simp
      · simp [h₁, h₂, not_or.1 h₃]

theorem total_summarizeReleaseCounts (ackStatus : HashMap Uuid NodeAckRecord) :
    (summarizeReleaseCounts ackStatus).total = ackStatus.values.length := by
  unfold summarizeReleaseCounts ReleaseStatusCounts.total
  dsimp only
  rw [← List.length_map fun a : NodeAckRecord => a.applyStatus]
  generalize ackStatus.values.map (·.applyStatus) = acks
  induction acks with
  | nil => rfl
  | cons a acks ih =>
    have hone := ack_kinds a
    simp only [List.countP_cons, List.length_cons]
    omega

/-- The status follows from the counts. -/
theorem aggregateReleaseStatus_eq (ackStatus : HashMap Uuid NodeAckRecord) :
    aggregateReleaseStatus ackStatus =
      let c := summarizeReleaseCounts ackStatus
      if 0 < c.failed then "failed"
      else if 0 < c.total ∧ c.success = c.total then "success"
      else if 0 < c.inProgress then "publishing"
      else "pending" := by
  dsimp only
  rw [total_summarizeReleaseCounts, ← List.length_map fun a : NodeAckRecord => a.applyStatus]
  unfold aggregateReleaseStatus summarizeReleaseCounts
  dsimp only
  generalize ackStatus.values.map (·.applyStatus) = acks
  simp only [List.countP_pos_iff, List.countP_eq_length]
  cases acks with
  | nil => simp
  | cons a acks => simp [List.any_eq_true, List.all_eq_true, @eq_comm _ "failed" a]

/-! ## The invariant -/

/-- The targets are different, the acknowledgements are theirs, and the status sums these up. -/
structure ReleaseRecord.Honest (r : ReleaseRecord) : Prop where
  distinct : r.targetNodeIds.Nodup
  acks : ∀ n, n ∈ r.ackStatus ↔ n ∈ r.targetNodeIds
  status : r.status = aggregateReleaseStatus r.ackStatus

/-- All releases are honest. -/
structure ReleaseInv (w : World) : Prop where
  sound : Sound w.store
  honest : ∀ (k : Uuid) (r : ReleaseRecord), w.store.releases[k]? = some r → r.Honest

theorem ReleaseInv.init : ReleaseInv World.init :=
  ⟨.empty, fun k r h => by simp [World.init, MemoryState.empty] at h⟩

theorem mem_buildReleaseAckStatus {targets : List Uuid} {n : Uuid} : n ∈ buildReleaseAckStatus targets ↔
    n ∈ targets := by
  unfold buildReleaseAckStatus
  generalize hm : (∅ : HashMap Uuid NodeAckRecord) = m
  have hmem : n ∈ targets ↔ n ∈ m ∨ n ∈ targets := by simp [← hm]
  rw [hmem]
  clear hmem hm
  induction targets generalizing m with
  | nil => simp
  | cons t ts ih =>
    refine (ih _).trans ?_
    rw [Std.ExtTreeMap.mem_insert, Std.compare_eq_iff_eq, List.mem_cons, eq_comm]
    tauto

/-- A new release is honest. -/
theorem ReleaseRecord.Issued.honest {s : MemoryState} {r : ReleaseRecord} (hr : r.Issued s) (h : Sound s) : r.Honest :=
  ⟨(hr.targets h).2, fun n => by rw [hr.ackStatus, mem_buildReleaseAckStatus], hr.status⟩

/-- A release without a node that goes. -/
theorem ReleaseRecord.Honest.dropTarget {r : ReleaseRecord} (h : r.Honest) (nodeId : Uuid) :
    (MemoryState.dropTarget nodeId r).Honest where
  distinct := h.distinct.filter _
  acks n := by
    rw [mem_dropTarget, MemoryState.dropTarget, Std.ExtTreeMap.mem_erase, ne_eq, Std.compare_eq_iff_eq,
      h.acks n, eq_comm]
  status := rfl

/-- A release with the acknowledgement of one of its targets. -/
theorem ReleaseRecord.Honest.ack {r : ReleaseRecord} (h : r.Honest) {nodeId : Uuid} (hn : nodeId ∈ r.targetNodeIds)
    (ack : NodeAckRecord) :
    ReleaseRecord.Honest { r with
      ackStatus := r.ackStatus.insert nodeId ack
      status := aggregateReleaseStatus (r.ackStatus.insert nodeId ack) } := by
  refine { h with acks := fun n => ?_, status := rfl }
  dsimp only
  rw [Std.ExtTreeMap.mem_insert, Std.compare_eq_iff_eq, h.acks n]
  exact ⟨fun hm => hm.elim (fun e => e ▸ hn) id, .inr⟩

/-- A call that fits keeps the releases honest. -/
theorem ReleaseInv.call (p : Platform) (c : HubCall) (w : World) (h : ReleaseInv w) (hc : c.Fits w.store) :
    ReleaseInv (hubHandler p c w).2 := by
  refine ⟨h.sound.call p hc, fun k r hk => ?_⟩
  cases c with
  | saveRelease new =>
    rcases Maps.getElem?_insert_eq_some hk with ⟨-, rfl⟩ | ⟨-, hk⟩
    · exact hc.honest h.sound
    · exact h.honest k r hk
  | deleteNode nodeId =>
    simp only [hubHandler, World.write, MemoryState.deleteNode] at hk
    split at hk
    · exact h.honest k r hk
    · obtain ⟨r₀, hr₀, rfl⟩ := Maps.getElem?_map_eq_some hk
      exact (h.honest k r₀ hr₀).dropTarget nodeId
  | updateReleaseAck releaseId nodeId ack =>
    rcases Maps.getElem?_modify_eq_some hk with ⟨rfl, r₀, hr₀, rfl⟩ | ⟨-, hk⟩
    · exact (h.honest _ r₀ hr₀).ack (hc r₀ hr₀) ack
    · exact h.honest k r hk
  | deleteSite siteId =>
    simp only [hubHandler, World.write, MemoryState.deleteSite] at hk
    split at hk <;> exact h.honest k r hk
  | deleteDnsProvider providerId =>
    simp only [hubHandler, World.write, MemoryState.deleteDnsProvider] at hk
    split at hk <;> exact h.honest k r hk
  | deleteOperationTemplate templateId =>
    simp only [hubHandler, World.write, MemoryState.deleteOperationTemplate] at hk
    split at hk <;> exact h.honest k r hk
  | claimNextNodeOperation nodeId =>
    simp only [hubHandler, MemoryState.claimNextNodeOperation] at hk
    split at hk <;> exact h.honest k r hk
  | _ => exact h.honest k r hk

/-! ## The result -/

/-- The acknowledgements are those of the targets and the status is theirs; the counts add up to the targets, and the
status can be read off the counts. -/
structure ReleaseRecord.Truthful (r : ReleaseRecord) : Prop where
  acks : ∀ n, n ∈ r.ackStatus ↔ n ∈ r.targetNodeIds
  status : r.status = aggregateReleaseStatus r.ackStatus
  counts : (summarizeReleaseCounts r.ackStatus).total = r.targetNodeIds.length
  failed : r.status = "failed" ↔ 0 < (summarizeReleaseCounts r.ackStatus).failed
  success : r.status ≠ "failed" → (r.status = "success" ↔
    r.targetNodeIds ≠ [] ∧ (summarizeReleaseCounts r.ackStatus).success = r.targetNodeIds.length)
  publishing : r.status ≠ "failed" → r.status ≠ "success" →
    (r.status = "publishing" ↔ 0 < (summarizeReleaseCounts r.ackStatus).inProgress)
  pending : r.status ≠ "failed" → r.status ≠ "success" → r.status ≠ "publishing" → r.status = "pending"

theorem ReleaseRecord.Honest.truthful {r : ReleaseRecord} (h : r.Honest) : r.Truthful := by
  have hcounts : (summarizeReleaseCounts r.ackStatus).total = r.targetNodeIds.length :=
    (total_summarizeReleaseCounts _).trans (Maps.length_values h.distinct h.acks)
  have hstatus := h.status
  rw [aggregateReleaseStatus_eq] at hstatus
  dsimp only at hstatus
  simp only [hcounts, List.length_pos_iff] at hstatus
  refine ⟨h.acks, h.status, hcounts, ?_, ?_, ?_, ?_⟩
  all_goals
    rw [hstatus]
    split_ifs <;> simp_all

/-- After every sequence of requests, every stored release tells the truth. -/
theorem release_truthful (p : Platform) (hub : Hub) (rs : List Request) :
    ∀ r ∈ (World.init.serveAll p hub rs).store.releases.values, r.Truthful := by
  intro r hr
  obtain ⟨k, hk⟩ := Maps.mem_values.1 hr
  exact ((serveAll_keeps (fun _ h => h.sound) (ReleaseInv.call p) .init rs).honest k r hk).truthful

/-- A site on two nodes is published. -/
def publishedSite : List Request :=
  [.node "edge-1", .node "edge-2", .site "example", .bind 4 0 [2], .publish 4]

/-- What a node says of the release of `publishedSite`. -/
def acknowledgement (nodeId : Uuid) (applyStatus : String) : Request :=
  .ackRelease 5 { nodeId := nodeId, applyStatus := applyStatus, currentVersion := "v-2026", message := none }

/-- One node fails and then succeeds; the other is still applying when it is taken off the site and deleted. -/
def acknowledgedSite : List Request :=
  publishedSite ++ [acknowledgement 0 "failed", acknowledgement 2 "applying", acknowledgement 0 "success",
    .bind 4 0 [], .deleteNode 2]

/-- The status of the release follows its acknowledgements: the second one of a node replaces the first, and a deleted
node no longer counts. -/
theorem release_truthful_published :
    [5, 6, 8, 10].map (fun n => (World.init.serveAll .plain ⟨0, 30⟩ (acknowledgedSite.take n)).store.releases.values.map
        fun r : ReleaseRecord => (r.targetNodeIds, r.status)) =
      [[([0, 2], "pending")], [([0, 2], "failed")], [([0, 2], "publishing")], [([0], "success")]] ∧
      ∀ r ∈ (World.init.serveAll .plain ⟨0, 30⟩ acknowledgedSite).store.releases.values, r.Truthful :=
  ⟨by decide +kernel, release_truthful .plain ⟨0, 30⟩ acknowledgedSite⟩

end PingoraMesh
