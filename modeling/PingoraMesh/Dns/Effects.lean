import PingoraMesh.Dns.Worker
import PingoraMesh.Hub.Effects

/-!
# What the statements over the tables of the certificates do

For the calls of the hub and for those of the dns-worker: which of them leave the orders alone, and what the others make
of them.

* `orders_of_effect`, `mem_listed`: the hub writes orders by two calls, and lists all of them;
* `mem_updated`: an update changes one order;
* `mem_claimed`: a claim moves the orders it takes, each of them once (`claimed_distinct`);
* `processDnsChallenge_only`, `finalizeCertificateOrder_only`: between a claim and the updates the worker makes only
  calls that leave the tables alone (`workerHandler_store`).
-/

namespace PingoraMesh

open Calls Fallible

/-- Orders are stored under their identifiers. -/
def OrdersKeyed (s : CertState) : Prop :=
  ∀ (k : Uuid) (o : CertificateOrderRecord), s.orders[k]? = some o → o.orderId = k

/-! ## Statements of the hub -/

section Hub

variable {p : Platform} {rows : RowOrder} {s : CertState} {c : HubCall}

/-- Most calls of the hub leave the orders alone. -/
theorem orders_of_effect (h : c.effect ≠ some .certificateOrder) (hd : c.effect ≠ some .deleteSite) :
    (certHubHandler p rows c s).2.orders = s.orders := by
  cases c with
  | saveCertificateOrder order => exact absurd rfl h
  | deleteSite siteId => exact absurd rfl hd
  | deleteNode nodeId =>
    simp only [certHubHandler, hubHandler, World.write, CertState.orders, MemoryState.deleteNode]
    split <;> rfl
  | deleteDnsProvider providerId =>
    simp only [certHubHandler, hubHandler, World.write, CertState.orders, MemoryState.deleteDnsProvider]
    split <;> rfl
  | deleteOperationTemplate templateId =>
    simp only [certHubHandler, hubHandler, World.write, CertState.orders, MemoryState.deleteOperationTemplate]
    split <;> rfl
  | claimNextNodeOperation nodeId =>
    simp only [certHubHandler, hubHandler, CertState.orders, MemoryState.claimNextNodeOperation]
    split <;> rfl
  | _ => rfl

/-- An order is stored, or refused. -/
theorem putOrder_cases {order : CertificateOrderRecord} {s' : CertState} (h : s.putOrder order = .ok s') :
    s.world.store.hasReferences order = true ∧ indexRefuses s.orders order = false ∧
      s' = s.onStore (·.saveCertificateOrder order) := by
  unfold CertState.putOrder at h
  split at h
  · cases h
  · rename_i hrefs
    split at h
    · cases h
    · rename_i hindex
      cases h
      exact ⟨by simpa using hrefs, by simpa using hindex, rfl⟩

/-- The save of an order: it is stored, or the tables stay as they are. -/
theorem saveOrder_cases (p : Platform) (rows : RowOrder) (order : CertificateOrderRecord) :
    (s.world.store.hasReferences order = true ∧ indexRefuses s.orders order = false ∧
      (certHubHandler p rows (.saveCertificateOrder order) s).2 = s.onStore (·.saveCertificateOrder order)) ∨
    (certHubHandler p rows (.saveCertificateOrder order) s).2 = s := by
  simp only [certHubHandler]
  split
  · rename_i s' hput
    exact .inl (putOrder_cases hput)
  · exact .inr rfl

/-- Certificates change only when one is saved. -/
theorem certificates_of_effect (h : c.effect ≠ some .certificate) :
    (certHubHandler p rows c s).2.world.store.certificates = s.world.store.certificates := by
  cases c with
  | saveCertificate certificate => exact absurd rfl h
  | saveCertificateOrder order =>
    rcases saveOrder_cases p rows order with ⟨-, -, he⟩ | he
    · rw [he]
      rfl
    · rw [he]
  | deleteSite siteId =>
    simp only [certHubHandler, CertState.onStore, MemoryState.deleteSite]
    split <;> rfl
  | deleteNode nodeId =>
    simp only [certHubHandler, hubHandler, World.write, MemoryState.deleteNode]
    split <;> rfl
  | deleteDnsProvider providerId =>
    simp only [certHubHandler, hubHandler, World.write, MemoryState.deleteDnsProvider]
    split <;> rfl
  | deleteOperationTemplate templateId =>
    simp only [certHubHandler, hubHandler, World.write, MemoryState.deleteOperationTemplate]
    split <;> rfl
  | claimNextNodeOperation nodeId =>
    simp only [certHubHandler, hubHandler, MemoryState.claimNextNodeOperation]
    split <;> rfl
  | _ => rfl

/-- Zones change only with the providers. -/
theorem zones_of_effect (h : c.effect ≠ some .dns) :
    (certHubHandler p rows c s).2.world.store.dnsZones = s.world.store.dnsZones := by
  cases c with
  | saveDnsZone zone => exact absurd rfl h
  | deleteDnsZone zoneId => exact absurd rfl h
  | deleteDnsProvider providerId => exact absurd rfl h
  | saveCertificateOrder order =>
    rcases saveOrder_cases p rows order with ⟨-, -, he⟩ | he
    · rw [he]
      rfl
    · rw [he]
  | deleteSite siteId =>
    simp only [certHubHandler, CertState.onStore, MemoryState.deleteSite]
    split <;> rfl
  | deleteNode nodeId =>
    simp only [certHubHandler, hubHandler, World.write, MemoryState.deleteNode]
    split <;> rfl
  | deleteOperationTemplate templateId =>
    simp only [certHubHandler, hubHandler, World.write, MemoryState.deleteOperationTemplate]
    split <;> rfl
  | claimNextNodeOperation nodeId =>
    simp only [certHubHandler, hubHandler, MemoryState.claimNextNodeOperation]
    split <;> rfl
  | _ => rfl

/-- Every call stores sites under their identifiers. -/
theorem certHubHandler_sites (h : SitesKeyed s.world.store) : SitesKeyed (certHubHandler p rows c s).2.world.store := by
  cases c with
  | saveCertificateOrder order =>
    rcases saveOrder_cases p rows order with ⟨-, -, he⟩ | he
    · rw [he]
      exact h
    · rw [he]
      exact h
  | certificateOrder orderId => exact h
  | listCertificateOrders => exact h
  | listDnsZones => exact h
  | siteCertificates siteId => exact h
  | deleteSite siteId => exact h.call (p := p) (.deleteSite siteId)
  | _ => exact h.call _

/-- The orders that the hub lists are the stored ones. -/
theorem mem_listed {k : Uuid} {o : CertificateOrderRecord} (ho : s.orders[k]? = some o) :
    s.joined o ∈ ((rows.orders s.world.tick s.orders.values).insertionSort fun l r => r.createdAt ≤ l.createdAt).map
      s.joined := by
  refine List.mem_map_of_mem ((List.perm_insertionSort _ _).mem_iff.2 ?_)
  exact (rows.orders_perm _ _).mem_iff.2 (Maps.mem_values.2 ⟨k, ho⟩)

end Hub

/-! ## Statements of the worker -/

/-- The calls of the worker that leave the tables alone. -/
def WorkerCall.Silent : WorkerCall → Prop
  | .insertRenewalOrder _ _ _ _ | .claimPendingDnsOrders _ | .updateOrderChallengePayload _ _
  | .claimReadyIssuanceOrders _ | .updateOrderStatus _ _ _ | .persistIssuedCertificate _ => False
  | _ => True

/-- The calls to the ACME server, and those that draw an identifier. -/
def WorkerCall.Acme : WorkerCall → Prop
  | .newOrder _ | .acknowledge _ | .authorized _ | .issue _ | .newUuid => True
  | _ => False

/-- The call that brings orders. -/
def WorkerCall.Inserts : WorkerCall → Prop
  | .insertRenewalOrder _ _ _ _ => True
  | _ => False

/-- The call that issues a certificate. -/
def WorkerCall.Persists : WorkerCall → Prop
  | .persistIssuedCertificate _ => True
  | _ => False

section Worker

variable {p : Platform} {rows : RowOrder} {acme : AcmeServer} {net : Nat → Delivery} {s : CertState}

theorem workerHandler_store {c : WorkerCall} (h : c.Silent) :
    (workerHandler p rows acme net c s).2.world.store = s.world.store := by
  cases c with
  | insertRenewalOrder certificateId zoneId acmeProvider payload => exact h.elim
  | claimPendingDnsOrders limit => exact h.elim
  | updateOrderChallengePayload orderId payload => exact h.elim
  | claimReadyIssuanceOrders limit => exact h.elim
  | updateOrderStatus orderId status errorMessage => exact h.elim
  | persistIssuedCertificate request => exact h.elim
  | _ => rfl

/-- An order after an update: as it was, or updated if it is the one. -/
theorem mem_updated (h : OrdersKeyed s) {orderId : Uuid} {f : CertificateOrderRecord → CertificateOrderRecord}
    (hf : ∀ o, (f o).orderId = o.orderId) {k : Uuid} {o' : CertificateOrderRecord}
    (ho' : (s.afterUpdate (s.updateOrder orderId f)).2.orders[k]? = some o') :
    s.orders[k]? = some o' ∨ (k = orderId ∧ ∃ o, s.orders[k]? = some o ∧ o' = f o) := by
  unfold CertState.updateOrder at ho'
  split at ho'
  · exact .inl ho'
  · rename_i o ho
    split at ho'
    · exact .inl ho'
    · rcases Maps.getElem?_insert_eq_some ho' with ⟨rfl, rfl⟩ | ⟨-, hold⟩
      · have hid : (f o).orderId = orderId := (hf o).trans (h orderId o ho)
        exact .inr ⟨hid, o, hid ▸ ho, rfl⟩
      · exact .inl hold

/-- An update is to the orders. -/
theorem updated_store (orderId : Uuid) (f : CertificateOrderRecord → CertificateOrderRecord) :
    ∃ orders, (s.afterUpdate (s.updateOrder orderId f)).2.world.store =
      { s.world.store with certificateOrders := orders } := by
  unfold CertState.updateOrder
  split
  · exact ⟨_, rfl⟩
  · split
    · exact ⟨_, rfl⟩
    · exact ⟨_, rfl⟩

/-- What `persist_issued_certificate` does: an error changes no table, and success is `CertState.issued`. -/
theorem persist_cases (p : Platform) (request : PersistIssuedCertificateRequest) (s : CertState) :
    ((∃ e, (s.persistIssuedCertificate p request).1 = .error e) ∧ (s.persistIssuedCertificate p request).2 = s.ticked) ∨
      (request.certificateId ∈ s.world.store.certificates ∧
        s.persistIssuedCertificate p request = (.ok (), s.issued p request)) := by
  unfold CertState.persistIssuedCertificate
  split
  · exact .inl ⟨⟨_, rfl⟩, rfl⟩
  · rename_i hrefs
    split
    · exact .inl ⟨⟨_, rfl⟩, rfl⟩
    · refine .inr ⟨?_, rfl⟩
      rw [Bool.or_eq_true, not_or, Bool.not_eq_true, Bool.not_eq_false'] at hrefs
      exact Std.ExtTreeMap.contains_iff_mem.1 hrefs.1

/-! ## Claims -/

/-- The orders after several of them are moved. -/
theorem mem_movedAll {status : String} {orders : List CertificateOrderRecord} {store : MemoryState} {k : Uuid}
    {o' : CertificateOrderRecord}
    (h : (orders.foldl (fun store order => store.saveCertificateOrder (CertState.moved status order))
      store).certificateOrders[k]? = some o') :
    (∃ o ∈ orders, o.orderId = k ∧ o' = CertState.moved status o) ∨
      ((∀ o ∈ orders, o.orderId ≠ k) ∧ store.certificateOrders[k]? = some o') := by
  induction orders generalizing store with
  | nil => exact .inr ⟨fun _ hm => (by cases hm), h⟩
  | cons order orders ih =>
    rcases ih h with ⟨o, hm, hid, rfl⟩ | ⟨hno, hstore⟩
    · exact .inl ⟨o, List.mem_cons_of_mem _ hm, hid, rfl⟩
    · rcases Maps.getElem?_insert_eq_some hstore with ⟨hk, rfl⟩ | ⟨hne, hold⟩
      · exact .inl ⟨order, List.mem_cons_self, hk.symm, rfl⟩
      · refine .inr ⟨fun o hm => ?_, hold⟩
        rcases List.mem_cons.1 hm with rfl | hm
        · exact fun e => hne e.symm
        · exact hno o hm

theorem movedAll_store (status : String) (orders : List CertificateOrderRecord) (store : MemoryState) :
    ∃ orders', orders.foldl (fun store order => store.saveCertificateOrder (CertState.moved status order)) store =
      { store with certificateOrders := orders' } := by
  induction orders generalizing store with
  | nil => exact ⟨_, rfl⟩
  | cons order orders ih =>
    obtain ⟨orders', he⟩ := ih (store.saveCertificateOrder (CertState.moved status order))
    exact ⟨orders', he⟩

/-- What a claim takes is stored, and in the status before. -/
theorem stored_of_claimed (h : OrdersKeyed s) {before : String} {limit : Nat} {o : CertificateOrderRecord}
    (ho : o ∈ s.claimed rows before limit) : s.orders[o.orderId]? = some o ∧ o.orderStatus = before := by
  have hmem := List.mem_of_mem_take ho
  rw [(List.perm_insertionSort _ _).mem_iff, (rows.orders_perm _ _).mem_iff, List.mem_filter] at hmem
  obtain ⟨hvalue, hclaim⟩ := hmem
  obtain ⟨k, hk⟩ := Maps.mem_values.1 hvalue
  have hid := h k o hk
  refine ⟨hid ▸ hk, ?_⟩
  unfold CertState.claimable at hclaim
  split at hclaim
  · rename_i hcond
    simp only [Bool.and_eq_true, beq_iff_eq] at hcond
    exact hcond.1
  · cases hclaim

/-- An order after a claim: moved, if it was in the status before, or as it was. -/
theorem mem_claimed (h : OrdersKeyed s) {before after : String} {limit : Nat} {k : Uuid} {o' : CertificateOrderRecord}
    (ho' : (s.claimOrders rows before after limit).2.orders[k]? = some o') :
    ∃ o, s.orders[k]? = some o ∧ ((o.orderStatus = before ∧ o' = CertState.moved after o) ∨ o' = o) := by
  rcases mem_movedAll ho' with ⟨o, hm, rfl, rfl⟩ | ⟨-, hold⟩
  · obtain ⟨ho, hstatus⟩ := stored_of_claimed h hm
    exact ⟨o, ho, .inl ⟨hstatus, rfl⟩⟩
  · exact ⟨o', hold, .inr rfl⟩

/-- The order of a claimed row. -/
theorem claimable_orderId {status : String} {o : CertificateOrderRecord} {job : QueuedOrder}
    (h : s.claimable status o = some job) : job.orderId = o.orderId := by
  unfold CertState.claimable at h
  split at h
  · simp only [Option.bind_eq_bind, Option.bind_eq_some_iff] at h
    obtain ⟨_, _, _, _, _, _, _, _, hjob⟩ := h
    cases hjob
    rfl
  · cases h

/-- The order of a job is in the status after the claim. -/
theorem status_of_job {before after : String} {limit : Nat} {job : QueuedOrder}
    (hjob : job ∈ (s.claimOrders rows before after limit).1) {o' : CertificateOrderRecord}
    (ho' : (s.claimOrders rows before after limit).2.orders[job.orderId]? = some o') : o'.orderStatus = after := by
  obtain ⟨o, hm, hclaim⟩ := List.mem_filterMap.1 hjob
  rcases mem_movedAll ho' with ⟨_, _, _, rfl⟩ | ⟨hno, -⟩
  · rfl
  · exact absurd (claimable_orderId hclaim).symm (hno o hm)

/-- The jobs of a claim are of different orders. -/
theorem claimed_distinct (h : OrdersKeyed s) (before after : String) (limit : Nat) :
    (s.claimOrders rows before after limit).1.Pairwise fun job job' => job.orderId ≠ job'.orderId := by
  have hvalues : s.orders.values.Pairwise fun o o' => o.orderId ≠ o'.orderId :=
    List.pairwise_map.1 (List.nodup_iff_pairwise_ne.1 (Maps.map_values_nodup h))
  have hsorted : (s.claimed rows before limit).Pairwise fun o o' => o.orderId ≠ o'.orderId := by
    have hperm := (List.perm_insertionSort (fun (l r : CertificateOrderRecord) => l.createdAt ≤ r.createdAt) _).trans
      (rows.orders_perm s.world.tick (s.orders.values.filter fun o => (s.claimable before o).isSome))
    exact (((hvalues.filter _).perm hperm.symm fun hne e => hne e.symm)).take
  refine List.Pairwise.filterMap _ (fun o o' hne job hjob job' hjob' => ?_) hsorted
  rw [claimable_orderId hjob, claimable_orderId hjob']
  exact hne

/-! ## All of them -/

/-- The insert of a renewal: the tables of certificates and zones stay, and an order may come. -/
theorem insertRenewal_cases (p : Platform) (s : CertState) (certificateId zoneId : Uuid) (acmeProvider : String)
    (payload : Value) :
    (s.insertRenewalOrder p certificateId zoneId acmeProvider payload).2.world.store = s.world.store ∨
      ∃ orderId now, (s.insertRenewalOrder p certificateId zoneId acmeProvider payload).2.world.store =
        s.world.store.saveCertificateOrder
          (CertState.renewalOrder orderId certificateId zoneId acmeProvider payload now) := by
  unfold CertState.insertRenewalOrder
  dsimp only
  split
  · exact .inl rfl
  · split
    · rename_i s' hput
      obtain ⟨-, -, rfl⟩ := putOrder_cases hput
      exact .inr ⟨_, _, rfl⟩
    · exact .inl rfl

theorem insertRenewal_tables (p : Platform) (s : CertState) (certificateId zoneId : Uuid) (acmeProvider : String)
    (payload : Value) :
    (s.insertRenewalOrder p certificateId zoneId acmeProvider payload).2.world.store.dnsZones = s.world.store.dnsZones ∧
      (s.insertRenewalOrder p certificateId zoneId acmeProvider payload).2.world.store.certificates =
        s.world.store.certificates := by
  rcases insertRenewal_cases p s certificateId zoneId acmeProvider payload with he | ⟨_, _, he⟩
  · rw [he]
    exact ⟨rfl, rfl⟩
  · rw [he]
    exact ⟨rfl, rfl⟩

/-- The order with another status, another challenge and another message. -/
def CertificateOrderRecord.Proceeds (o o' : CertificateOrderRecord) : Prop :=
  ∃ status payload message, o' = { o with orderStatus := status, challengePayload := payload, errorMessage := message }

theorem CertificateOrderRecord.Proceeds.refl (o : CertificateOrderRecord) : o.Proceeds o := ⟨_, _, _, rfl⟩

theorem CertificateOrderRecord.Proceeds.orderId {o o' : CertificateOrderRecord} (h : o.Proceeds o') :
    o'.orderId = o.orderId := by
  obtain ⟨_, _, _, rfl⟩ := h
  rfl

/-- The calls that bring no order make rows of rows. -/
theorem rows_of_worker (h : OrdersKeyed s) {c : WorkerCall} (hc : ¬ c.Inserts) {k : Uuid} {o' : CertificateOrderRecord}
    (ho' : (workerHandler p rows acme net c s).2.orders[k]? = some o') : ∃ o, s.orders[k]? = some o ∧
      o.Proceeds o' := by
  have hclaim : ∀ {before after : String} {limit : Nat},
      (s.claimOrders rows before after limit).2.orders[k]? = some o' → ∃ o, s.orders[k]? = some o ∧ o.Proceeds o' := by
    intro before after limit ho'
    obtain ⟨o, ho, ⟨-, rfl⟩ | rfl⟩ := mem_claimed h ho'
    · exact ⟨o, ho, _, _, _, rfl⟩
    · exact ⟨o', ho, .refl o'⟩
  have hupdate : ∀ {orderId : Uuid} {f : CertificateOrderRecord → CertificateOrderRecord},
      (∀ o : CertificateOrderRecord, o.Proceeds (f o)) →
        (s.afterUpdate (s.updateOrder orderId f)).2.orders[k]? = some o' →
      ∃ o, s.orders[k]? = some o ∧ o.Proceeds o' := by
    intro orderId f hf ho'
    rcases mem_updated h (fun o => (hf o).orderId) ho' with hold | ⟨rfl, o, ho, rfl⟩
    · exact ⟨o', hold, .refl o'⟩
    · exact ⟨o, ho, hf o⟩
  cases c with
  | insertRenewalOrder certificateId zoneId acmeProvider payload => exact absurd trivial hc
  | claimPendingDnsOrders limit => exact hclaim ho'
  | claimReadyIssuanceOrders limit => exact hclaim ho'
  | updateOrderChallengePayload orderId payload =>
    exact hupdate (f := fun order => { order with challengePayload := payload }) (fun _ => ⟨_, _, _, rfl⟩) ho'
  | updateOrderStatus orderId status errorMessage =>
    exact hupdate (f := fun order => { order with orderStatus := status, errorMessage := errorMessage })
      (fun _ => ⟨_, _, _, rfl⟩) ho'
  | persistIssuedCertificate request =>
    simp only [workerHandler, CertState.persistIssuedCertificate] at ho'
    split at ho'
    · exact ⟨o', ho', .refl o'⟩
    · split at ho'
      · exact ⟨o', ho', .refl o'⟩
      · rcases Maps.getElem?_modify_eq_some ho' with ⟨rfl, o, ho, rfl⟩ | ⟨-, ho⟩
        · exact ⟨o, ho, _, _, _, rfl⟩
        · exact ⟨o', ho, .refl o'⟩
  | _ => exact ⟨o', ho', .refl o'⟩

theorem mem_movedAll_of_mem {status : String} {orders : List CertificateOrderRecord} {store : MemoryState} {k : Uuid}
    (hk : k ∈ store.certificateOrders) :
    k ∈ (orders.foldl (fun store order => store.saveCertificateOrder (CertState.moved status order))
      store).certificateOrders := by
  induction orders generalizing store with
  | nil => exact hk
  | cons order orders ih => exact ih (Std.ExtTreeMap.mem_insert.2 (.inr hk))

theorem mem_updated_of_mem {orderId : Uuid} {f : CertificateOrderRecord → CertificateOrderRecord} {k : Uuid}
    (hk : k ∈ s.orders) : k ∈ (s.afterUpdate (s.updateOrder orderId f)).2.orders := by
  unfold CertState.updateOrder
  split
  · exact hk
  · split
    · exact hk
    · exact Std.ExtTreeMap.mem_insert.2 (.inr hk)

/-- The worker takes no order away. -/
theorem mem_orders_worker {c : WorkerCall} {k : Uuid} (hk : k ∈ s.orders) :
    k ∈ (workerHandler p rows acme net c s).2.orders := by
  cases c with
  | insertRenewalOrder certificateId zoneId acmeProvider payload =>
    change k ∈ (s.insertRenewalOrder p certificateId zoneId acmeProvider payload).2.world.store.certificateOrders
    rcases insertRenewal_cases p s certificateId zoneId acmeProvider payload with he | ⟨_, _, he⟩
    · rw [he]
      exact hk
    · rw [he]
      exact Std.ExtTreeMap.mem_insert.2 (.inr hk)
  | claimPendingDnsOrders limit => exact mem_movedAll_of_mem hk
  | claimReadyIssuanceOrders limit => exact mem_movedAll_of_mem hk
  | updateOrderChallengePayload orderId payload => exact mem_updated_of_mem hk
  | updateOrderStatus orderId status errorMessage => exact mem_updated_of_mem hk
  | persistIssuedCertificate request =>
    simp only [workerHandler, CertState.persistIssuedCertificate]
    split
    · exact hk
    · split
      · exact hk
      · exact Std.ExtTreeMap.mem_modify.2 hk
  | _ => exact hk

/-- All but one call write orders only. -/
theorem store_of_worker {c : WorkerCall} (hc : ∀ request, c ≠ .persistIssuedCertificate request) :
    ∃ orders, (workerHandler p rows acme net c s).2.world.store =
      { s.world.store with certificateOrders := orders } := by
  cases c with
  | insertRenewalOrder certificateId zoneId acmeProvider payload =>
    rcases insertRenewal_cases p s certificateId zoneId acmeProvider payload with he | ⟨_, _, he⟩
    · exact ⟨_, he⟩
    · exact ⟨_, he⟩
  | claimPendingDnsOrders limit => exact movedAll_store _ _ _
  | claimReadyIssuanceOrders limit => exact movedAll_store _ _ _
  | updateOrderChallengePayload orderId payload => exact updated_store _ _
  | updateOrderStatus orderId status errorMessage => exact updated_store _ _
  | persistIssuedCertificate request => exact absurd rfl (hc request)
  | _ => exact ⟨_, rfl⟩

/-- The worker leaves the zones and the sites. -/
theorem tables_of_worker {c : WorkerCall} :
    (workerHandler p rows acme net c s).2.world.store.dnsZones = s.world.store.dnsZones ∧
      (workerHandler p rows acme net c s).2.world.store.sites = s.world.store.sites := by
  by_cases hc : ∃ request, c = .persistIssuedCertificate request
  · obtain ⟨request, rfl⟩ := hc
    rw [workerHandler]
    rcases persist_cases p request s with ⟨-, he⟩ | ⟨-, he⟩
    · rw [he]
      exact ⟨rfl, rfl⟩
    · rw [he]
      exact ⟨rfl, rfl⟩
  · obtain ⟨orders, he⟩ := store_of_worker (fun request e => hc ⟨request, e⟩)
    rw [he]
    exact ⟨rfl, rfl⟩

end Worker

/-! ## Programs of the worker -/

namespace DnsWorker

variable (client : AcmeClient)

theorem prepareDns01Challenge_only (order : QueuedOrder) :
    (prepareDns01Challenge client order).Only WorkerCall.Acme := by
  unfold prepareDns01Challenge
  split
  · exact safe_pure _
  · cases client with
    | mock => exact safe_bind (only_call trivial) fun _ => safe_pure _
    | letsEncrypt =>
      exact safe_bind (safe_ensure _ _) fun _ => safe_bind (only_call trivial) fun _ => safe_bind (safe_attempt _)
        fun _ =>
        safe_pure _

theorem acknowledgeDns01Challenge_only (payload : Value) :
    (acknowledgeDns01Challenge client payload).Only WorkerCall.Acme := by
  cases client with
  | mock => exact safe_pure _
  | letsEncrypt => exact safe_bind (safe_attempt _) fun _ => safe_bind (only_call trivial) fun _ => safe_attempt _

theorem finalizeDns01Order_only (order : QueuedOrder) :
    (finalizeDns01Order client order).Only WorkerCall.Acme := by
  cases client with
  | mock => exact safe_bind (only_call trivial) fun _ => safe_attempt _
  | letsEncrypt =>
    exact safe_bind (safe_attempt _) fun _ => safe_bind (only_call trivial) fun _ => safe_bind (safe_attempt _) fun _ =>
      safe_bind (safe_attempt _) fun _ => safe_bind (safe_attempt _) fun _ => safe_bind (only_call trivial) fun _ =>
        safe_attempt _

theorem silent_of_acme {c : WorkerCall} (h : c.Acme) : c.Silent := by
  cases c with
  | newOrder identifiers => exact trivial
  | acknowledge challengeUrl => exact trivial
  | authorized authorizationUrl => exact trivial
  | issue order => exact trivial
  | newUuid => exact trivial
  | _ => exact h.elim

/-- Until a challenge is presented, the worker leaves the tables alone. -/
theorem processDnsChallenge_only (job : QueuedOrder) : (processDnsChallenge client job).Only WorkerCall.Silent :=
  safe_bind ((prepareDns01Challenge_only client job).safe fun _ _ => silent_of_acme) fun _ =>
    safe_bind (safe_attempt _) fun _ => safe_bind (safe_attempt _) fun _ => safe_bind (only_call trivial) fun _ =>
      safe_bind (safe_attempt _) fun _ =>
        safe_bind ((acknowledgeDns01Challenge_only client _).safe fun _ _ => silent_of_acme) fun _ => safe_pure _

/-- Until a certificate is issued, the worker leaves the tables alone. -/
theorem finalizeCertificateOrder_only (job : QueuedOrder) :
    (finalizeCertificateOrder client job).Only WorkerCall.Silent :=
  safe_bind (safe_attempt _) fun _ => safe_bind (safe_attempt _) fun _ =>
    safe_bind ((finalizeDns01Order_only client job).safe fun _ _ => silent_of_acme) fun _ =>
      safe_bind (only_call trivial) fun _ => safe_pure _

theorem not_inserts_of_silent {c : WorkerCall} (h : c.Silent) : ¬ c.Inserts := by
  cases c with
  | insertRenewalOrder certificateId zoneId acmeProvider payload => exact h.elim
  | _ => exact id

theorem not_persists_of_silent {c : WorkerCall} (h : c.Silent) : ¬ c.Persists := by
  cases c with
  | persistIssuedCertificate request => exact h.elim
  | _ => exact id

theorem updateStatus_only (orderId : Uuid) (status : String) (errorMessage : Option String) :
    (updateStatus orderId status errorMessage).Only fun c : WorkerCall => ¬ c.Inserts ∧ ¬ c.Persists :=
  safe_bind (only_call ⟨id, id⟩) fun _ => safe_attempt _

/-- The challenges of a batch bring no order and issue no certificate. -/
theorem processPendingCertificateOrders_only (limit : Nat) :
    (processPendingCertificateOrders client limit).Only fun c : WorkerCall => ¬ c.Inserts ∧ ¬ c.Persists := by
  refine safe_bind (only_call ⟨id, id⟩) fun jobs => safe_bind (safe_forM fun job => ?_) fun _ => safe_pure _
  refine safe_bind (safe_caught ((processDnsChallenge_only client job).safe fun _ _ hc =>
    ⟨not_inserts_of_silent hc, not_persists_of_silent hc⟩)) fun r => ?_
  cases r with
  | ok payload =>
    exact safe_bind (only_call ⟨id, id⟩) fun _ => safe_bind (safe_attempt _) fun _ => updateStatus_only _ _ _
  | error e => exact updateStatus_only _ _ _

/-- The certificates of a batch bring no order. -/
theorem processPresentedCertificateOrders_only (limit : Nat) :
    (processPresentedCertificateOrders client limit).Only fun c : WorkerCall => ¬ c.Inserts := by
  refine safe_bind (only_call id) fun jobs => safe_bind (safe_forM fun job => ?_) fun _ => safe_pure _
  refine safe_bind (safe_caught ((finalizeCertificateOrder_only client job).safe fun _ _ => not_inserts_of_silent))
    fun r => ?_
  cases r with
  | ok request => exact safe_bind (only_call id) fun _ => safe_attempt _
  | error e => exact (updateStatus_only _ _ _).safe fun _ _ hc => hc.1

end DnsWorker

end PingoraMesh
