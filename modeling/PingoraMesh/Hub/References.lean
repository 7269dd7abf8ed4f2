import PingoraMesh.Hub.Indexes
import PingoraMesh.Hub.Releases

/-!
# References between the tables

The tables of the store refer to each other by identifiers, and nothing but the code keeps these references alive.

* `NoDangling` says that each of them finds its record;
* `RefInv` is the invariant of sequences of requests, `HubCall.Refers` what it asks of a call beside `HubCall.Fits`, and
  `RefInv.call` the step;
* `program_refers`: every request makes only such calls, but for `delete_node`, which leaves the operations of the node;
* `references_iff_no_operation_dropped`: along a sequence of requests no reference dangles if and only if no request
  deletes a node that has operations.
-/

namespace PingoraMesh

open Calls Fallible HubService

/-- Every reference finds its record. -/
structure NoDangling (s : MemoryState) : Prop where
  bindings : ∀ (k : Uuid) (site : SiteRecord), s.sites[k]? = some site → ∀ b ∈ site.bindings, b.nodeId ∈ s.nodes
  targets : ∀ (k : Uuid) (r : ReleaseRecord), s.releases[k]? = some r → ∀ n ∈ r.targetNodeIds, n ∈ s.nodes
  acks : ∀ (k : Uuid) (r : ReleaseRecord), s.releases[k]? = some r → ∀ n ∈ r.ackStatus, n ∈ s.nodes
  latest : ∀ n k : Uuid, s.latestReleaseByNode[n]? = some k → n ∈ s.nodes ∧ k ∈ s.releases
  operations : ∀ (k : Uuid) (o : NodeOperationRecord), s.nodeOperations[k]? = some o →
    o.nodeId ∈ s.nodes ∧ o.templateId ∈ s.operationTemplates
  orders : ∀ (k : Uuid) (o : CertificateOrderRecord), s.certificateOrders[k]? = some o →
    o.zoneId ∈ s.dnsZones ∧ (∃ c ∈ o.certificateId, c ∈ s.certificates) ∧ ∀ siteId ∈ o.siteId, siteId ∈ s.sites
  zones : ∀ (k : Uuid) (z : DnsZoneRecord), s.dnsZones[k]? = some z → z.providerId ∈ s.dnsProviders
  sessions : ∀ (k : String) (x : AdminSessionRecord), s.adminSessions[k]? = some x → x.userId ∈ s.adminUsers

/-! ## The invariant -/

/-- The references that do not come with sites and releases, and what the requests need to know to keep them. -/
structure RefInv (w : World) : Prop where
  releases : ReleaseInv w
  latest : ∀ n k : Uuid, w.store.latestReleaseByNode[n]? = some k → n ∈ w.store.nodes ∧ k ∈ w.store.releases
  operations : ∀ (k : Uuid) (o : NodeOperationRecord), w.store.nodeOperations[k]? = some o →
    o.nodeId ∈ w.store.nodes ∧ o.templateId ∈ w.store.operationTemplates
  orders : ∀ (k : Uuid) (o : CertificateOrderRecord), w.store.certificateOrders[k]? = some o →
    o.zoneId ∈ w.store.dnsZones ∧ (∃ c ∈ o.certificateId, c ∈ w.store.certificates) ∧
      ∀ siteId ∈ o.siteId, siteId ∈ w.store.sites
  zones : ∀ (k : Uuid) (z : DnsZoneRecord), w.store.dnsZones[k]? = some z → z.providerId ∈ w.store.dnsProviders
  sessions : ∀ (k : String) (x : AdminSessionRecord), w.store.adminSessions[k]? = some x → x.userId ∈ w.store.adminUsers
  templateId : ∀ (k : Uuid) (t : OperationTemplateRecord), w.store.operationTemplates[k]? = some t → t.templateId = k
  zoneId : ∀ (k : Uuid) (z : DnsZoneRecord), w.store.dnsZones[k]? = some z → z.zoneId = k
  userId : ∀ (k : Uuid) (u : AdminUserRecord), w.store.adminUsers[k]? = some u → u.userId = k
  /-- No request of the hub puts a certificate in. -/
  bare : ∀ siteId : Uuid, w.store.siteCertificates[siteId]? = none

theorem RefInv.init : RefInv World.init := by
  refine ⟨.init, ?_, ?_, ?_, ?_, ?_, ?_, ?_, ?_, ?_⟩
  all_goals simp [World.init, MemoryState.empty]

theorem RefInv.noDangling {w : World} (h : RefInv w) : NoDangling w.store where
  bindings k site hk := (h.releases.sound.bound k site hk).existing
  targets := h.releases.sound.targets
  acks k r hk n hn := h.releases.sound.targets k r hk n (((h.releases.honest k r hk).acks n).1 hn)
  latest := h.latest
  operations := h.operations
  orders := h.orders
  zones := h.zones
  sessions := h.sessions

/-- What is asked of the calls beside `HubCall.Fits`: what they save refers to records, and what they delete is not
referred to. -/
def HubCall.Refers : HubCall → MemoryState → Prop
  | .deleteNode nodeId, s => ∀ (k : Uuid) (o : NodeOperationRecord), s.nodeOperations[k]? = some o → o.nodeId ≠ nodeId
  | .saveNodeOperation o, s | .updateNodeOperation o, s => o.nodeId ∈ s.nodes ∧ o.templateId ∈ s.operationTemplates
  | .saveCertificateOrder o, s =>
    o.zoneId ∈ s.dnsZones ∧ (∃ c ∈ o.certificateId, c ∈ s.certificates) ∧ ∀ siteId ∈ o.siteId, siteId ∈ s.sites
  | .saveDnsZone z, s => z.providerId ∈ s.dnsProviders
  | .deleteDnsProvider providerId, s =>
    ∀ (k : Uuid) (z : DnsZoneRecord), s.dnsZones[k]? = some z → z.providerId ≠ providerId
  | .deleteDnsZone zoneId, s =>
    ∀ (k : Uuid) (o : CertificateOrderRecord), s.certificateOrders[k]? = some o → o.zoneId ≠ zoneId
  | .saveAdminSession x, s => x.userId ∈ s.adminUsers
  | _, _ => True

/-! ## The step -/

section Step

variable {w : World}

/-- The latest releases after one more: the new one for its targets. -/
theorem getElem?_latest {targets : List Uuid} {id n k : Uuid} {m : HashMap Uuid Uuid}
    (h : (targets.foldl (fun m n => m.insert n id) m)[n]? = some k) : (n ∈ targets ∧ k = id) ∨ m[n]? = some k := by
  induction targets generalizing m with
  | nil => exact .inr h
  | cons t ts ih =>
    rcases ih h with ⟨hn, hk⟩ | hm
    · exact .inl ⟨List.mem_cons_of_mem t hn, hk⟩
    · rcases Maps.getElem?_insert_eq_some hm with ⟨rfl, hk⟩ | ⟨-, hm⟩
      · exact .inl ⟨List.mem_cons_self, hk⟩
      · exact .inr hm

/-- The operation that a claim picks is one of the stored ones. -/
theorem stored_of_nextApproved {s : MemoryState} {nodeId : Uuid} {o : NodeOperationRecord}
    (h : s.nextApproved nodeId = some o) : ∃ k : Uuid, s.nodeOperations[k]? = some o :=
  Maps.mem_values.1 (List.mem_filter.1 (mem_of_minByKey h)).1

/-- The nodes may become more. -/
theorem RefInv.moreNodes (h : RefInv w) {nodes : HashMap Uuid NodeRecord} {ids : HashMap String Uuid}
    (hr : ReleaseInv { w with store := { w.store with nodes := nodes, nodeIdsByCode := ids } })
    (hn : ∀ k ∈ w.store.nodes, k ∈ nodes) :
    RefInv { w with store := { w.store with nodes := nodes, nodeIdsByCode := ids } } :=
  { h with
    releases := hr
    latest := fun n k hk => ⟨hn n (h.latest n k hk).1, (h.latest n k hk).2⟩
    operations := fun k o hk => ⟨hn _ (h.operations k o hk).1, (h.operations k o hk).2⟩ }

theorem RefInv.deleteNode (h : RefInv w) {nodeId : Uuid} (hc : HubCall.Refers (.deleteNode nodeId) w.store)
    (hr : ReleaseInv { w with store := w.store.deleteNode nodeId }) :
    RefInv { w with store := w.store.deleteNode nodeId } := by
  cases hn : w.store.nodes[nodeId]? with
  | none => simpa only [MemoryState.deleteNode, hn] using h
  | some node =>
    simp only [MemoryState.deleteNode, hn] at hr ⊢
    refine { h with releases := hr, latest := fun n k hk => ?_, operations := fun k o hk => ?_, orders :=
      fun k o hk => ?_ }
    · obtain ⟨hne, hk⟩ := Maps.getElem?_erase_eq_some hk
      obtain ⟨h₁, h₂⟩ := h.latest n k hk
      exact ⟨mem_erase_node.2 ⟨hne, h₁⟩, Std.ExtTreeMap.mem_map.2 h₂⟩
    · obtain ⟨h₁, h₂⟩ := h.operations k o hk
      exact ⟨mem_erase_node.2 ⟨hc k o hk, h₁⟩, h₂⟩
    · obtain ⟨h₁, h₂, h₃⟩ := h.orders k o hk
      exact ⟨h₁, h₂, fun siteId hs => Std.ExtTreeMap.mem_map.2 (h₃ siteId hs)⟩

theorem RefInv.deleteSite (h : RefInv w) (siteId : Uuid)
    (hr : ReleaseInv { w with store := w.store.deleteSite siteId }) :
    RefInv { w with store := w.store.deleteSite siteId } := by
  cases hn : w.store.sites[siteId]? with
  | none => simpa only [MemoryState.deleteSite, hn] using h
  | some site =>
    simp only [MemoryState.deleteSite, hn] at hr ⊢
    refine { h with releases := hr, orders := fun k o hk => ?_, bare := fun x => ?_ }
    · obtain ⟨o₀, ho₀, rfl⟩ := Maps.getElem?_map_eq_some hk
      obtain ⟨h₁, h₂, h₃⟩ := h.orders k o₀ ho₀
      -- an order for the site is now for none
      split
      · exact ⟨h₁, h₂, fun _ e => by cases e⟩
      · rename_i hne
        refine ⟨h₁, h₂, fun x hx => ?_⟩
        rw [Std.ExtTreeMap.mem_erase, ne_eq, Std.compare_eq_iff_eq]
        exact ⟨fun e => hne (e ▸ hx), h₃ x hx⟩
    · cases hx : (w.store.siteCertificates.erase siteId)[x]? with
      | none => rfl
      | some cs => exact absurd (Maps.getElem?_erase_eq_some hx).2 (by rw [h.bare x]; rintro ⟨⟩)

theorem RefInv.deleteDnsProvider (h : RefInv w) {providerId : Uuid}
    (hc : HubCall.Refers (.deleteDnsProvider providerId) w.store)
    (hr : ReleaseInv { w with store := w.store.deleteDnsProvider providerId }) :
    RefInv { w with store := w.store.deleteDnsProvider providerId } := by
  cases hn : w.store.dnsProviders[providerId]? with
  | none => simpa only [MemoryState.deleteDnsProvider, hn] using h
  | some provider =>
    have hall : (w.store.dnsZones.filter fun _ zone => zone.providerId != providerId) = w.store.dnsZones :=
      Maps.filter_eq_self fun k z hz => bne_iff_ne.2 (hc k z hz)
    simp only [MemoryState.deleteDnsProvider, hn, hall] at hr ⊢
    refine { h with releases := hr, zones := fun k z hk => ?_ }
    rw [Std.ExtTreeMap.mem_erase, ne_eq, Std.compare_eq_iff_eq]
    exact ⟨fun e => hc k z hk e.symm, h.zones k z hk⟩

theorem RefInv.deleteOperationTemplate (h : RefInv w) (templateId : Uuid)
    (hr : ReleaseInv { w with store := w.store.deleteOperationTemplate templateId }) :
    RefInv { w with store := w.store.deleteOperationTemplate templateId } := by
  cases hn : w.store.operationTemplates[templateId]? with
  | none => simpa only [MemoryState.deleteOperationTemplate, hn] using h
  | some template =>
    simp only [MemoryState.deleteOperationTemplate, hn] at hr ⊢
    refine { h with releases := hr, operations := fun k o hk => ?_, templateId := fun k t hk => ?_ }
    · obtain ⟨hk, hne⟩ := Maps.getElem?_filter_eq_some hk
      obtain ⟨h₁, h₂⟩ := h.operations k o hk
      rw [Std.ExtTreeMap.mem_erase, ne_eq, Std.compare_eq_iff_eq]
      exact ⟨h₁, fun e => bne_iff_ne.1 hne e.symm, h₂⟩
    · exact h.templateId k t (Maps.getElem?_erase_eq_some hk).2

/-- An operation is saved that refers to records. -/
theorem RefInv.saveNodeOperation (h : RefInv w) {o : NodeOperationRecord}
    (ho : o.nodeId ∈ w.store.nodes ∧ o.templateId ∈ w.store.operationTemplates) {w' : World}
    (hs : w'.store = w.store.saveNodeOperation o) (hr : ReleaseInv w') : RefInv w' := by
  have hops : ∀ (k : Uuid) (x : NodeOperationRecord), (w.store.saveNodeOperation o).nodeOperations[k]? = some x →
      x.nodeId ∈ w.store.nodes ∧ x.templateId ∈ w.store.operationTemplates := by
    intro k x hk
    rcases Maps.getElem?_insert_eq_some hk with ⟨-, rfl⟩ | ⟨-, hk⟩
    · exact ho
    · exact h.operations k x hk
  refine ⟨hr, ?_, ?_, ?_, ?_, ?_, ?_, ?_, ?_, ?_⟩
  all_goals rw [hs]
  · exact h.latest
  · exact hops
  · exact h.orders
  · exact h.zones
  · exact h.sessions
  · exact h.templateId
  · exact h.zoneId
  · exact h.userId
  · exact h.bare

theorem RefInv.claimNextNodeOperation (h : RefInv w) {p : Platform} {nodeId : Uuid}
    (hr : ReleaseInv (hubHandler p (.claimNextNodeOperation nodeId) w).2) :
    RefInv (hubHandler p (.claimNextNodeOperation nodeId) w).2 := by
  simp only [hubHandler, MemoryState.claimNextNodeOperation] at hr ⊢
  split at hr
  · exact { h with releases := hr }
  · rename_i o hn
    obtain ⟨k, hk⟩ := stored_of_nextApproved hn
    exact h.saveNodeOperation (o := { o with execStatus := "running", startedAt := some (p.clock w.tick) })
      (h.operations k o hk) rfl hr

theorem RefInv.saveRelease (h : RefInv w) {r : ReleaseRecord} (htargets : ∀ n ∈ r.targetNodeIds, n ∈ w.store.nodes)
    (hr : ReleaseInv { w with store := w.store.saveRelease r }) : RefInv { w with store := w.store.saveRelease r } := by
  refine { h with releases := hr, latest := fun n k hk => ?_ }
  rcases getElem?_latest hk with ⟨hn, rfl⟩ | hk
  · exact ⟨htargets n hn, Std.ExtTreeMap.mem_insert_self⟩
  · exact ⟨(h.latest n k hk).1, Std.ExtTreeMap.mem_insert.2 (.inr (h.latest n k hk).2)⟩

theorem RefInv.saveDnsZone (h : RefInv w) {zone : DnsZoneRecord} (hc : zone.providerId ∈ w.store.dnsProviders)
    (hr : ReleaseInv { w with store := w.store.saveDnsZone zone }) :
    RefInv { w with store := w.store.saveDnsZone zone } := by
  refine { h with releases := hr, orders := fun k o hk => ?_, zones := fun k z hk => ?_, zoneId := fun k z hk => ?_ }
  · obtain ⟨h₁, h₂⟩ := h.orders k o hk
    exact ⟨Std.ExtTreeMap.mem_insert.2 (.inr h₁), h₂⟩
  all_goals rcases Maps.getElem?_insert_eq_some hk with ⟨rfl, rfl⟩ | ⟨-, hk⟩
  · exact hc
  · exact h.zones k z hk
  · rfl
  · exact h.zoneId k z hk

theorem RefInv.deleteDnsZone (h : RefInv w) {zoneId : Uuid} (hc : HubCall.Refers (.deleteDnsZone zoneId) w.store)
    (hr : ReleaseInv { w with store := w.store.deleteDnsZone zoneId }) :
    RefInv { w with store := w.store.deleteDnsZone zoneId } := by
  refine { h with releases := hr, orders := fun k o hk => ?_, zones := fun k z hk => ?_, zoneId := fun k z hk => ?_ }
  · obtain ⟨h₁, h₂⟩ := h.orders k o hk
    refine ⟨?_, h₂⟩
    simp only [MemoryState.deleteDnsZone]
    rw [Std.ExtTreeMap.mem_erase, ne_eq, Std.compare_eq_iff_eq]
    exact ⟨fun e => hc k o hk e.symm, h₁⟩
  · exact h.zones k z (Maps.getElem?_erase_eq_some hk).2
  · exact h.zoneId k z (Maps.getElem?_erase_eq_some hk).2

/-- An order is saved that refers to records. -/
theorem RefInv.saveCertificateOrder (h : RefInv w) {order : CertificateOrderRecord}
    (hc : HubCall.Refers (.saveCertificateOrder order) w.store)
    (hr : ReleaseInv { w with store := w.store.saveCertificateOrder order }) :
    RefInv { w with store := w.store.saveCertificateOrder order } := by
  refine { h with releases := hr, orders := fun k o hk => ?_ }
  rcases Maps.getElem?_insert_eq_some hk with ⟨-, rfl⟩ | ⟨-, hk⟩
  · exact hc
  · exact h.orders k o hk

theorem RefInv.saveAdminUser (h : RefInv w) {user : AdminUserRecord}
    (hr : ReleaseInv { w with store := w.store.saveAdminUser user }) :
    RefInv { w with store := w.store.saveAdminUser user } := by
  refine { h with releases := hr, sessions := fun k x hk => ?_, userId := fun k u hk => ?_ }
  · exact Std.ExtTreeMap.mem_insert.2 (.inr (h.sessions k x hk))
  · rcases Maps.getElem?_insert_eq_some hk with ⟨rfl, rfl⟩ | ⟨-, hk⟩
    · rfl
    · exact h.userId k u hk

theorem RefInv.touchAdminUserLogin (h : RefInv w) {userId : Uuid} {t : DateTime}
    (hr : ReleaseInv { w with store := w.store.touchAdminUserLogin userId t }) :
    RefInv { w with store := w.store.touchAdminUserLogin userId t } := by
  refine { h with releases := hr, sessions := fun k x hk => ?_, userId := fun k u hk => ?_ }
  · exact Std.ExtTreeMap.mem_modify.2 (h.sessions k x hk)
  · rcases Maps.getElem?_modify_eq_some hk with ⟨rfl, u₀, hu₀, rfl⟩ | ⟨-, hk⟩
    · exact h.userId _ u₀ hu₀
    · exact h.userId k u hk

/-- The sessions change, and none is of a user that the sessions before were not of. -/
theorem RefInv.ofSessions (h : RefInv w) {sessions : HashMap String AdminSessionRecord}
    (hr : ReleaseInv { w with store := { w.store with adminSessions := sessions } })
    (hs : ∀ (k : String) (x : AdminSessionRecord), sessions[k]? = some x → x.userId ∈ w.store.adminUsers) :
    RefInv { w with store := { w.store with adminSessions := sessions } } :=
  { h with releases := hr, sessions := hs }

/-- A call that fits and refers to records keeps the invariant. -/
theorem RefInv.call (p : Platform) (c : HubCall) (w : World) (h : RefInv w) (hf : c.Fits w.store)
    (hc : c.Refers w.store) : RefInv (hubHandler p c w).2 := by
  have hr := h.releases.call p c w hf
  cases c with
  | saveNode node => exact h.moreNodes hr fun k hk => Std.ExtTreeMap.mem_insert.2 (.inr hk)
  | recordHeartbeat hb => exact h.moreNodes hr fun k hk => Std.ExtTreeMap.mem_modify.2 hk
  | deleteNode nodeId => exact h.deleteNode hc hr
  | deleteSite siteId => exact h.deleteSite siteId hr
  | deleteDnsProvider providerId => exact h.deleteDnsProvider hc hr
  | deleteOperationTemplate templateId => exact h.deleteOperationTemplate templateId hr
  | saveNodeOperation o => exact h.saveNodeOperation hc rfl hr
  | updateNodeOperation o => exact h.saveNodeOperation hc rfl hr
  | claimNextNodeOperation nodeId => exact h.claimNextNodeOperation hr
  | saveRelease r => exact h.saveRelease (hf.targets h.releases.sound).1 hr
  | saveDnsZone zone => exact h.saveDnsZone hc hr
  | deleteDnsZone zoneId => exact h.deleteDnsZone hc hr
  | saveCertificateOrder order => exact h.saveCertificateOrder hc hr
  | saveAdminUser user => exact h.saveAdminUser hr
  | touchAdminUserLogin userId t => exact h.touchAdminUserLogin hr
  | saveSite site =>
    refine { h with releases := hr, orders := fun k o hk => ?_ }
    obtain ⟨h₁, h₂, h₃⟩ := h.orders k o hk
    exact ⟨h₁, h₂, fun x hx => Std.ExtTreeMap.mem_insert.2 (.inr (h₃ x hx))⟩
  | updateReleaseAck releaseId nodeId ack =>
    refine { h with releases := hr, latest := fun n k hk => ?_ }
    exact ⟨(h.latest n k hk).1, Std.ExtTreeMap.mem_modify.2 (h.latest n k hk).2⟩
  | saveDnsProvider provider =>
    exact { h with
      releases := hr
      zones := fun k z hk => Std.ExtTreeMap.mem_insert.2 (.inr (h.zones k z hk)) }
  | saveCertificate certificate =>
    refine { h with releases := hr, orders := fun k o hk => ?_ }
    obtain ⟨h₁, ⟨c, hco, hc⟩, h₃⟩ := h.orders k o hk
    exact ⟨h₁, ⟨c, hco, Std.ExtTreeMap.mem_insert.2 (.inr hc)⟩, h₃⟩
  | saveOperationTemplate template =>
    refine { h with releases := hr, operations := fun k o hk => ?_, templateId := fun k t hk => ?_ }
    · exact ⟨(h.operations k o hk).1, Std.ExtTreeMap.mem_insert.2 (.inr (h.operations k o hk).2)⟩
    · rcases Maps.getElem?_insert_eq_some hk with ⟨rfl, rfl⟩ | ⟨-, hk⟩
      · rfl
      · exact h.templateId k t hk
  | saveAdminSession session =>
    refine h.ofSessions hr fun k x hk => ?_
    rcases Maps.getElem?_insert_eq_some hk with ⟨-, rfl⟩ | ⟨-, hk⟩
    · exact hc
    · exact h.sessions k x hk
  | touchAdminSession hash t =>
    refine h.ofSessions hr fun k x hk => ?_
    rcases Maps.getElem?_modify_eq_some hk with ⟨-, x₀, hx₀, rfl⟩ | ⟨-, hk⟩
    · exact h.sessions _ x₀ hx₀
    · exact h.sessions k x hk
  | deleteAdminSession hash => exact h.ofSessions hr fun k x hk => h.sessions k x (Maps.getElem?_erase_eq_some hk).2
  | deleteAdminSessionsForUser userId exclude =>
    exact h.ofSessions hr fun k x hk => h.sessions k x (Maps.getElem?_filter_eq_some hk).1
  | _ => exact { h with releases := hr }

end Step

/-! ## The requests -/

/-- Running alone, with the invariant between calls. -/
abbrev refSpec (p : Platform) : Spec hubSig World := .alone (hubHandler p) (fun c w => c.Refers w.store) RefInv

/-- The program only makes calls that refer to records. -/
def RefersWell {α : Type} (p : Platform) (x : HubM α) (w : World) : Prop :=
  wp (refSpec p) x (fun _ _ => True) (fun _ _ => True) w

theorem HubCall.refers_of_within {es : List Effect}
    (hes : ∀ e ∈ es, e ∉ [Effect.deleteNode, .operation, .certificateOrder, .dns, .admin]) {c : HubCall}
    (hc : c.Within es) (s : MemoryState) : c.Refers s := by
  cases c with
  | deleteNode nodeId => exact absurd (by simp) (hes _ hc)
  | saveNodeOperation o => exact absurd (by simp) (hes _ hc)
  | updateNodeOperation o => exact absurd (by simp) (hes _ hc)
  | saveCertificateOrder o => exact absurd (by simp) (hes _ hc)
  | saveDnsZone z => exact absurd (by simp) (hes _ hc)
  | deleteDnsProvider providerId => exact absurd (by simp) (hes _ hc)
  | deleteDnsZone zoneId => exact absurd (by simp) (hes _ hc)
  | saveAdminSession x => exact absurd (by simp) (hes _ hc)
  | _ => trivial

section Requests

variable {p : Platform} {hub : Hub} {w : World}

theorem loginAdmin_refers (h : RefInv w) (request : AdminLoginRequest) : RefersWell p (loginAdmin p request) w := by
  simp only [RefersWell, loginAdmin, repo, wp_bind, wp_attempt, wp_ensure, wp_okOr, wp_call_alone, wp_pure, hubHandler,
    World.read, HubCall.Refers, implies_true, and_true, true_and]
  intro username _ _ _ user huser _ _ _ _ _ _ _ _ _
  obtain ⟨k, -, hk⟩ := Option.bind_eq_some_iff.1 huser
  rw [h.userId k user hk]
  exact Std.ExtTreeMap.mem_iff_isSome_getElem?.2 (Option.isSome_of_eq_some hk)

theorem createNodeOperation_refers (h : RefInv w) (nodeId : Uuid) (request : CreateNodeOperationRequest)
    (requestedBy : String) : RefersWell p (createNodeOperation nodeId request requestedBy) w := by
  simp only [RefersWell, createNodeOperation, repo, wp_bind, wp_attempt, wp_okOr, wp_call_alone, wp_pure, hubHandler,
    World.read, HubCall.Refers, implies_true, and_true, true_and]
  intro _ node hnode _ template htemplate _ _ _ _ _ _
  rw [h.templateId _ template htemplate]
  exact ⟨Std.ExtTreeMap.mem_iff_isSome_getElem?.2 (Option.isSome_of_eq_some hnode),
    Std.ExtTreeMap.mem_iff_isSome_getElem?.2 (Option.isSome_of_eq_some htemplate)⟩

theorem reportNodeOperationResult_refers (h : RefInv w) (operationId : Uuid) (request : OperationResultRequest) :
    RefersWell p (reportNodeOperationResult p operationId request) w := by
  simp only [RefersWell, reportNodeOperationResult, repo, wp_bind, wp_attempt, wp_ensure, wp_okOr, wp_getOr,
    wp_call_alone, wp_pure, hubHandler, World.read, HubCall.Refers, implies_true, and_true, true_and]
  intro _ o ho _ _ _
  exact ⟨fun _ _ => h.operations _ o ho, fun _ _ => h.operations _ o ho⟩

theorem deleteDnsProvider_refers (providerId : Uuid) : RefersWell p (HubService.deleteDnsProvider providerId) w := by
  simp only [RefersWell, HubService.deleteDnsProvider, repo, wp_bind, wp_ensure, wp_okOr, wp_call_alone, wp_pure,
    hubHandler, World.read, HubCall.Refers, implies_true, and_true, true_and]
  intro _ provider _ _ hzones k z hk e
  rw [Bool.not_eq_true', List.any_eq_false] at hzones
  exact hzones z (Maps.mem_values.2 ⟨k, hk⟩) (beq_iff_eq.2 e)

theorem deleteDnsZone_refers (zoneId : Uuid) : RefersWell p (HubService.deleteDnsZone zoneId) w := by
  simp only [RefersWell, HubService.deleteDnsZone, repo, wp_bind, wp_ensure, wp_okOr, wp_call_alone, wp_pure,
    hubHandler, World.read, HubCall.Refers, implies_true, and_true, true_and]
  intro _ zone _ _ horders k o hk e
  rw [Bool.not_eq_true', List.any_eq_false] at horders
  exact horders o (Maps.mem_values.2 ⟨k, hk⟩) (beq_iff_eq.2 e)

theorem updateDnsZoneStatus_refers (h : RefInv w) (zoneId : Uuid) (enabled : Bool) :
    RefersWell p (updateDnsZoneStatus zoneId enabled) w := by
  simp only [RefersWell, updateDnsZoneStatus, repo, wp_bind, wp_okOr, wp_call_alone, wp_pure, hubHandler, World.read,
    HubCall.Refers, implies_true, and_true, true_and]
  intro _ zone hzone
  exact h.zones _ zone hzone

theorem syncZones_refers {providerId : Uuid} (hp : providerId ∈ w.store.dnsProviders) (infos : List ProviderZone) :
    RefersWell p (syncZones providerId infos) w := by
  induction infos generalizing w with
  | nil => exact (wp_pure _).2 trivial
  | cons info infos ih =>
    simp only [RefersWell, syncZones, repo, wp_bind, wp_getOr, wp_call_alone, wp_pure, hubHandler, World.read,
      World.write, HubCall.Refers, true_and]
    exact fun _ => ⟨fun _ _ _ => ⟨hp, fun _ => ih hp⟩, fun _ _ _ => ⟨hp, fun _ => ih hp⟩⟩

theorem syncDnsZones_refers (request : SyncDnsZonesRequest) : RefersWell p (syncDnsZones request) w := by
  simp only [RefersWell, syncDnsZones, repo, wp_bind, wp_attempt, wp_ensure, wp_okOr, wp_call_alone,
    wp_pure, hubHandler, World.read, HubCall.Refers, implies_true, and_true, true_and]
  intro _ _ provider hprovider _ infos _ _
  exact syncZones_refers (w := { w with tick := w.tick + 1 })
    (Std.ExtTreeMap.mem_iff_isSome_getElem?.2 (Option.isSome_of_eq_some hprovider)) infos

/-- A new order for a zone and a site that exist, with a new certificate. -/
theorem issueCertificateOrder_refers {siteId : Option Uuid} {zoneId : Uuid} (hz : zoneId ∈ w.store.dnsZones)
    (hs : ∀ x ∈ siteId, x ∈ w.store.sites) (commonName : String) (sans : List String)
    (zoneName acmeProvider orderType : String) :
    RefersWell p (issueCertificateOrder siteId none commonName sans zoneId zoneName acmeProvider orderType) w := by
  simp only [RefersWell, issueCertificateOrder, orderCertificate, getOr, repo, wp_bind, wp_call_alone, wp_pure,
    hubHandler, World.write, HubCall.Refers, implies_true, and_true, true_and]
  intro _ _ _ _ _ _ _ _
  exact ⟨hz, ⟨_, rfl, Std.ExtTreeMap.mem_insert_self⟩, hs⟩

/-- What is left of `create_certificate_order` once the site is found. -/
theorem requestedSite_refers (h : RefInv w) (siteId : Option Uuid) :
    wp (refSpec p) (requestedSite siteId) (fun site w' => w' = w ∧ ∀ x ∈ site.map (·.id), x ∈ w.store.sites)
      (fun _ _ => True) w := by
  cases siteId with
  | none => exact (wp_pure _).2 ⟨rfl, nofun⟩
  | some id =>
    simp only [requestedSite, repo, wp_bind, wp_okOr, wp_call_alone, wp_pure, hubHandler, World.read, HubCall.Refers,
      implies_true, and_true, true_and]
    intro _ site hsite x hx
    cases hx
    dsimp only
    rw [h.releases.sound.ident id site hsite]
    exact Std.ExtTreeMap.mem_iff_isSome_getElem?.2 (Option.isSome_of_eq_some hsite)

theorem createCertificateOrder_refers (h : RefInv w) (request : CreateCertificateOrderRequest) :
    RefersWell p (createCertificateOrder request) w := by
  simp only [RefersWell, createCertificateOrder, wp_bind, wp_ensure, implies_true, and_true]
  intro _
  refine wp_mono ?_ (fun _ _ h => h) (requestedSite_refers h request.siteId)
  rintro site _ ⟨rfl, hs⟩
  simp only [repo, wp_attempt, wp_okOr, wp_call_alone, hubHandler, World.read, HubCall.Refers, implies_true, and_true,
    true_and]
  intro _ _ commonName _ sans _ _ _ zone hzone _ _
  exact issueCertificateOrder_refers (Std.ExtTreeMap.mem_iff_isSome_getElem?.2
    (Option.isSome_of_eq_some hzone)) hs _ _ _ _ _

theorem renewSiteCertificate_refers (h : RefInv w) (siteId : Uuid) : RefersWell p (renewSiteCertificate siteId) w := by
  simp only [RefersWell, renewSiteCertificate, repo, wp_bind, wp_attempt, wp_ensure, wp_okOr, wp_forSome, wp_throw,
    wp_call_alone, wp_pure, hubHandler, World.read, HubCall.Refers, implies_true, and_true, true_and, h.bare,
    Option.getD_none, List.head?_nil, Option.map_none]
  intro _ site hsite _ _ _ _ commonName _ _ zone hzone
  refine wp_mono (fun _ _ _ => trivial) (fun _ _ _ => trivial) (issueCertificateOrder_refers (p := p) ?_ ?_ _ _ _ _ _)
  · obtain ⟨k, hk⟩ := Maps.mem_values.1 (List.mem_filter.1 (mem_of_maxBy hzone)).1
    rw [h.zoneId k zone hk]
    exact Std.ExtTreeMap.mem_iff_isSome_getElem?.2 (Option.isSome_of_eq_some hk)
  · rintro x ⟨⟩
    rw [h.releases.sound.ident siteId site hsite]
    exact Std.ExtTreeMap.mem_iff_isSome_getElem?.2 (Option.isSome_of_eq_some hsite)

end Requests

/-! ## Deleting a node that has operations -/

/-- A request that deletes a node while there are operations for it. -/
def DropsOperations (s : MemoryState) : Request → Prop
  | .deleteNode nodeId =>
    nodeId ∈ s.nodes ∧ (s.nodeDeleteGuard nodeId).boundSiteCodes.isEmpty ∧
      (s.nodeDeleteGuard nodeId).failoverPolicyCount = 0 ∧ ∃ o ∈ s.nodeOperations.values, o.nodeId = nodeId
  | _ => False

section Sequences

variable {p : Platform} {hub : Hub} {w : World}

theorem deleteNode_refers {nodeId : Uuid} (hd : ¬ DropsOperations w.store (.deleteNode nodeId)) :
    RefersWell p (HubService.deleteNode nodeId) w := by
  simp only [RefersWell, HubService.deleteNode, repo, wp_bind, wp_ensure, wp_okOr, wp_call_alone, wp_pure, hubHandler,
    World.read, HubCall.Refers, implies_true, and_true, true_and]
  intro _ node hnode _ hguard hcount _ k o hk e
  exact hd ⟨Std.ExtTreeMap.mem_iff_isSome_getElem?.2 (Option.isSome_of_eq_some hnode), hguard, beq_iff_eq.1 hcount,
    o, Maps.mem_values.2 ⟨k, hk⟩, e⟩

/-- Every request that deletes no node with operations makes only calls that refer to records. -/
theorem program_refers (h : RefInv w) {r : Request} (hr : ¬ DropsOperations w.store r) :
    RefersWell p (HubService.program p hub r) w := by
  unfold RefersWell
  cases r with
  | deleteNode n => exact (wp_discard _).2 (deleteNode_refers hr)
  | loginAdmin r => exact (wp_discard _).2 (loginAdmin_refers h r)
  | createNodeOperation n r b => exact (wp_discard _).2 (createNodeOperation_refers h n r b)
  | reportNodeOperationResult o r => exact (wp_discard _).2 (reportNodeOperationResult_refers h o r)
  | deleteDnsProvider i => exact (wp_discard _).2 (deleteDnsProvider_refers i)
  | deleteDnsZone z => exact (wp_discard _).2 (deleteDnsZone_refers z)
  | updateDnsZoneStatus z e => exact (wp_discard _).2 (updateDnsZoneStatus_refers h z e)
  | syncDnsZones r => exact (wp_discard _).2 (syncDnsZones_refers r)
  | createCertificateOrder r => exact (wp_discard _).2 (createCertificateOrder_refers h r)
  | renewSiteCertificate s => exact (wp_discard _).2 (renewSiteCertificate_refers h s)
  | retryCertificateOrder o =>
    simp only [HubService.program, retryCertificateOrder, requeueCertificateOrder, repo, wp_discard, wp_bind, wp_ensure,
      wp_okOr, wp_call_alone, wp_pure, hubHandler, World.read, HubCall.Refers, implies_true, and_true, true_and]
    exact fun _ order ho _ _ => h.orders _ order ho
  | resetCertificateOrder o =>
    simp only [HubService.program, resetCertificateOrder, requeueCertificateOrder, repo, wp_discard, wp_bind, wp_ensure,
      wp_okOr, wp_call_alone, wp_pure, hubHandler, World.read, HubCall.Refers, implies_true, and_true, true_and]
    exact fun _ order ho _ _ => h.orders _ order ho
  | ensureAdminUser u d r =>
    simp [HubService.program, ensureAdminUser, hashPassword, repo, wp_onlyIf, HubCall.Refers]
  | authorizeAdminSession t => simp [HubService.program, authorizeAdminSession, repo, HubCall.Refers]
  | changeAdminPassword t r =>
    simp [HubService.program, changeAdminPassword, authorizeAdminSession, hashPassword, repo, HubCall.Refers]
  | logoutAdmin t => simp [HubService.program, logoutAdmin, repo, wp_onlyIf, HubCall.Refers]
  | claimNextNodeOperation n => simp [HubService.program, HubService.claimNextNodeOperation, repo, HubCall.Refers]
  | createDnsProvider r => simp [HubService.program, createDnsProvider, repo, HubCall.Refers]
  | updateDnsProvider i r => simp [HubService.program, updateDnsProvider, repo, HubCall.Refers]
  | _ =>
    exact (program_only p hub _).safe (T := refSpec p)
      (fun c w hc => HubCall.refers_of_within (by simp [Request.effects]) hc w.store) w

/-- A request that deletes no node with operations keeps the invariant. -/
theorem RefInv.serve (h : RefInv w) {r : Request} (hr : ¬ DropsOperations w.store r) : RefInv (w.serve p hub r) := by
  have hfits : wp (.alone (hubHandler p) (fun c w => c.Fits w.store) RefInv) (HubService.program p hub r)
      (fun _ _ => True) (fun _ _ => True) w :=
    program_rule (fun _ h => h.releases.sound) (fun _ _ _ hc => hc) (fun _ _ _ _ hr => hr) h r
  exact (wp_run (fun c w hc hw => hw.call p c w hc.1 hc.2) h (wp_alone_and hfits (program_refers h hr))).2

/-- A node goes and its operations stay. -/
theorem not_noDangling_of_drops {r : Request} (hr : DropsOperations w.store r) :
    ¬ NoDangling (w.serve p hub r).store := by
  cases r with
  | deleteNode nodeId =>
    obtain ⟨hnode, hguard, hcount, o, ho, hid⟩ := hr
    obtain ⟨node, hnode⟩ := Option.isSome_iff_exists.1 (Std.ExtTreeMap.mem_iff_isSome_getElem?.1 hnode)
    have hs := serve_post p hub w (.deleteNode nodeId) (fun w' => w'.store = w.store.deleteNode nodeId) (by
      simp only [HubService.program, HubService.deleteNode, repo, hubHandler, World.read, World.write, wp_discard,
        wp_bind, wp_call_alone, wp_okOr, wp_ensure, wp_pure, hnode, hguard, hcount]
      simp)
    intro hx
    obtain ⟨k, hk⟩ := Maps.mem_values.1 ho
    have hkept : (w.serve p hub (.deleteNode nodeId)).store.nodeOperations[k]? = some o := by
      rw [hs]
      simp only [MemoryState.deleteNode, hnode]
      exact hk
    have := (hx.operations k o hkept).1
    rw [hs] at this
    simp only [MemoryState.deleteNode, hnode] at this
    exact (mem_erase_node.1 this).1 hid
  | _ => exact hr.elim

variable (p hub) in
/-- None of the requests deletes a node that has operations in the store it meets. -/
def DropsNone : World → List Request → Prop
  | _, [] => True
  | w, r :: rs => ¬ DropsOperations w.store r ∧ DropsNone (w.serve p hub r) rs

/-- From a store without dangling references: none dangles after any prefix of a sequence of requests if and only if no
request drops operations. -/
theorem RefInv.forall_prefix_iff (h : RefInv w) (rs : List Request) :
    (∀ pre, pre <+: rs → NoDangling (w.serveAll p hub pre).store) ↔ DropsNone p hub w rs :=
  World.forall_prefix_iff (I := RefInv) (fun _ => trivial) (fun _ _ _ => Iff.rfl) (fun _ hw => hw.noDangling)
    (fun _ _ _ hr => not_noDangling_of_drops hr) (fun _ _ hw hr => hw.serve hr) h rs

end Sequences

/-- Over every sequence of requests to a hub on an empty store: no reference dangles after any of them if and only if
none of them deletes a node that still has operations. -/
theorem references_iff_no_operation_dropped (p : Platform) (hub : Hub) (rs : List Request) :
    (∀ pre, pre <+: rs → NoDangling (World.init.serveAll p hub pre).store) ↔ DropsNone p hub World.init rs :=
  RefInv.init.forall_prefix_iff rs

/-- A node, a template, an operation on the node, and the node is deleted: the operation is left behind. -/
theorem delete_node_leaves_operation :
    ¬ NoDangling (World.init.serveAll .plain ⟨0, 30⟩ [.node "edge-1", .createOperationTemplate
      (templateRequest "reload"),
      .createNodeOperation 0 { templateId := 2, inputParams := .object [], approvalTicket := none } "admin",
      .deleteNode 0]).store := by
  intro h
  have hop : (World.init.serveAll .plain ⟨0, 30⟩ [.node "edge-1",
      .createOperationTemplate (templateRequest "reload"),
      .createNodeOperation 0 { templateId := 2, inputParams := .object [], approvalTicket := none } "admin",
      .deleteNode 0]).store.nodeOperations[3]?.map NodeOperationRecord.nodeId = some 0 := by decide +kernel
  obtain ⟨o, ho, hid⟩ := Option.map_eq_some_iff.1 hop
  have hn := (h.operations 3 o ho).1
  rw [hid] at hn
  revert hn
  decide +kernel

end PingoraMesh
