import PingoraMesh.Dns.Renewals
import PingoraMesh.Dns.Zones

/-!
# Challenge records that nobody names

A batch of the worker makes the TXT record of a challenge and stores the payload that names it only when the ACME server
has taken note of it; a retry or a reset of the hub erases the payload; and the record is deleted when its certificate
is issued.

* `RecordKey` is what names a record: its zone, its name and its value; `CertState.keyOf` is the key that the stored
  payload of an order gives, unless the order is issued and says nothing of its cleanup;
* `present_wp`, `cleanup_wp`: what the provider makes and leaves;
* `pendingTurn_accounted`, `presentedTurn_accounted`: the turns of both batches, `requeue_accounted` the requests of
  the hub;
* `records_accounted`: in every run whose steps leave no record behind (`recordsKept`), an order accounts for every
  record;
* `refused_acknowledgement_leaks`: a record whose acknowledgement is refused is named by no payload.
-/

namespace PingoraMesh

open Calls Fallible HubService

/-! ## Records and the orders that name them -/

/-- What names a TXT record. -/
structure RecordKey where
  zoneId : String
  name : String
  value : String
  deriving DecidableEq, Repr

/-- The record that a challenge names. -/
def AcmeChallenge.key (c : AcmeChallenge) : Option RecordKey :=
  c.zoneId.map fun zoneId => ⟨zoneId, normalizeRecordName c.fqdn c.zoneName, c.value⟩

/-- The records with a key. -/
def RemoteDns.recordsOf (r : RemoteDns) (key : RecordKey) : List ZoneRecord :=
  (r.recordsAt key.zoneId "TXT" key.name).filter (·.content == key.value)

/-- What `finalize_certificate_order` says of a cleanup that failed. -/
def cleanupWarning : String := "certificate issued but dns challenge cleanup failed: "

/-- The order is not issued, or says that its cleanup failed. -/
def CertificateOrderRecord.keepsTrack (o : CertificateOrderRecord) : Bool :=
  o.orderStatus != "issued" || o.errorMessage.any (Text.startsWith · cleanupWarning)

/-- The record that a payload names, in a zone. -/
def payloadKey (orderId : Uuid) (zoneName externalZoneId : String) (payload : Value) : Option RecordKey :=
  (challengeFromPayload orderId zoneName externalZoneId payload).toOption.bind AcmeChallenge.key

namespace CertState

/-- The record that an order accounts for: its stored payload names it. -/
def keyOf (s : CertState) (k : Uuid) : Option RecordKey :=
  (s.orders[k]?).bind fun order =>
    if order.keepsTrack then
      (s.world.store.dnsZones[order.zoneId]?).bind fun zone =>
        payloadKey order.orderId zone.zoneName zone.externalZoneId order.challengePayload
    else none

/-- Some order accounts for each record that was made since the number `n` and is still there. -/
def Accounted (n : Nat) (s : CertState) : Prop :=
  ∀ zoneId, ∀ x ∈ s.remote.zone zoneId, n ≤ x.id →
    x.recordType = "TXT" ∧ ∃ k, s.keyOf k = some ⟨zoneId, x.name, x.content⟩

/-- An order other than `k` accounts for the records with a key. -/
def namedBeside (s : CertState) (k : Uuid) (key : RecordKey) : Bool :=
  s.orders.keys.any fun k' => k' != k && s.keyOf k' == some key

/-- If the order accounts for a record made since `n`, another one does. -/
def shared (n : Nat) (s : CertState) (k : Uuid) : Bool :=
  (s.keyOf k).all fun key => (s.remote.recordsOf key).all (·.id < n) || s.namedBeside k key

end CertState

/-! ## Steps that leave no record behind -/

section Kept

variable (p : Platform) (rows : RowOrder) (acme : AcmeServer) (net : Nat → Delivery) (n : Nat)

/-- A retry or a reset that goes through takes no record its name. -/
def requeueKept (allowed : String → Bool) (s : CertState) (k : Uuid) : Bool :=
  (s.orders[k]?).all fun o =>
    !allowed o.orderStatus || !(s.putOrder (requeuedOrder (s.joined o))).isOk || s.shared n k

/-- What becomes of the request that makes the record: the provider that does nothing makes none. -/
def postDelivery (provider : DnsProvider) (r : RemoteDns) : Delivery :=
  match provider with
  | .cloudflare _ => net r.asked
  | .noop => .done

/-- A turn of `process_pending_certificate_orders`: the payload is prepared, so that it names the record already; or no
record is made; or its answer arrives and the ACME server takes note of it, and the payload that is replaced named no
record that is left. -/
def pendingKept (client : AcmeClient) (job : QueuedOrder) (s : CertState) : Bool :=
  hasPreparedDnsPayload job.challengePayload ||
    match Fallible.run (workerHandler p rows acme net) (DnsWorker.prepareDns01Challenge client job) s with
    | (.error _, _) => true
    | (.ok payload, s₁) =>
      match buildProvider job.provider, challengeFromPayload job.orderId job.zoneName job.externalZoneId payload with
      | .ok provider, .ok _ =>
        match postDelivery net provider s₁.remote with
        | .refused => true
        | .lost => false
        | .done =>
          if (Fallible.run (workerHandler p rows acme net)
            (DnsWorker.acknowledgeDns01Challenge client payload) s₁).1.isOk then s₁.shared n job.orderId
          else provider == .noop
      | _, _ => true

/-- The records with a key that a cleanup leaves: the provider deletes one of them. -/
def cleanupLeaves (provider : DnsProvider) (r : RemoteDns) (key : RecordKey) : List ZoneRecord :=
  match provider with
  | .cloudflare _ => (r.recordsOf key).tail
  | .noop => r.recordsOf key

/-- The requests of a cleanup arrive. -/
def cleanupArrives (provider : DnsProvider) (r : RemoteDns) : Bool :=
  match provider with
  | .cloudflare _ => net r.asked == .done && net (r.asked + 1) == .done
  | .noop => true

/-- A turn of `process_presented_certificate_orders`: no certificate is issued; or the cleanup fails, and the order
says so; or it leaves no second record of the challenge that no other order accounts for. -/
def presentedKept (client : AcmeClient) (job : QueuedOrder) (s : CertState) : Bool :=
  match Fallible.run (workerHandler p rows acme net) (DnsWorker.finalizeDns01Order client job) s,
    buildProvider job.provider, payloadKey job.orderId job.zoneName job.externalZoneId job.challengePayload with
  | (.ok _, s₁), .ok provider, some key =>
    !cleanupArrives net provider s₁.remote || (cleanupLeaves provider s₁.remote key).all (·.id < n) ||
      s₁.namedBeside job.orderId key
  | _, _, _ => true

/-- Each turn of a loop meets a condition on the tables it finds. -/
def turnsKept (turn : QueuedOrder → WorkerM Unit) (kept : QueuedOrder → CertState → Bool) :
    List QueuedOrder → CertState → Bool
  | [], _ => true
  | job :: jobs, s => kept job s &&
    match Fallible.run (workerHandler p rows acme net) (turn job) s with
    | (.ok _, s') => turnsKept turn kept jobs s'
    | (.error _, _) => true

/-- The retries, resets and batches that leave no record behind. -/
def recordsKept (s : CertState) : CertRequest → Bool
  | .hub _ (.retryCertificateOrder orderId) => requeueKept n isFailedCertificateOrderStatus s orderId
  | .hub _ (.resetCertificateOrder orderId) => requeueKept n (· != "issued") s orderId
  | .pending client limit =>
    let (jobs, s') := s.claimOrders rows "pending_dns_challenge" "dns_challenge_presenting" limit
    turnsKept p rows acme net (DnsWorker.pendingTurn client) (pendingKept p rows acme net n client) jobs s'
  | .presented client limit =>
    let (jobs, s') := s.claimOrders rows "dns_challenge_presented" "issuing" limit
    turnsKept p rows acme net (DnsWorker.presentedTurn client) (presentedKept p rows acme net n client) jobs s'
  | _ => false

end Kept

/-! ## Keys -/

section Keys

variable {n : Nat} {s s' : CertState} {k : Uuid} {key : RecordKey} {r : RemoteDns} {x : ZoneRecord}

theorem mem_recordsOf : x ∈ r.recordsOf key ↔
    x ∈ r.zone key.zoneId ∧ x.recordType = "TXT" ∧ x.name = key.name ∧ x.content = key.value := by
  simp only [RemoteDns.recordsOf, RemoteDns.recordsAt, List.mem_filter, Bool.and_eq_true, beq_iff_eq, and_assoc]

/-- What an order accounts for is in its row and that of its zone. -/
theorem keyOf_eq {o : CertificateOrderRecord} (ho : s.orders[k]? = some o) :
    s.keyOf k = if o.keepsTrack then (s.world.store.dnsZones[o.zoneId]?).bind fun zone =>
      payloadKey o.orderId zone.zoneName zone.externalZoneId o.challengePayload else none := by
  rw [CertState.keyOf, ho]
  rfl

theorem keyOf_congr (ho : s'.orders[k]? = s.orders[k]?) (hz : s'.world.store.dnsZones = s.world.store.dnsZones) :
    s'.keyOf k = s.keyOf k := by
  rw [CertState.keyOf, CertState.keyOf, ho, hz]

theorem mem_orders_of_keyOf (h : s.keyOf k = some key) : k ∈ s.orders := by
  rw [CertState.keyOf, Option.bind_eq_some_iff] at h
  obtain ⟨o, ho, -⟩ := h
  exact Std.ExtTreeMap.mem_iff_isSome_getElem?.2 (by rw [ho]; rfl)

theorem namedBeside_iff : s.namedBeside k key = true ↔ ∃ k', k' ≠ k ∧ s.keyOf k' = some key := by
  rw [CertState.namedBeside, List.any_eq_true]
  constructor
  · rintro ⟨k', -, h⟩
    rw [Bool.and_eq_true, bne_iff_ne, beq_iff_eq] at h
    exact ⟨k', h⟩
  · rintro ⟨k', hne, h⟩
    refine ⟨k', Std.ExtTreeMap.mem_keys.2 (mem_orders_of_keyOf h), ?_⟩
    rw [Bool.and_eq_true, bne_iff_ne, beq_iff_eq]
    exact ⟨hne, h⟩

/-- The records of an order whose records are shared are accounted for without it. -/
theorem named_of_shared (h : s.shared n k = true) (hkey : s.keyOf k = some key) (hx : x ∈ s.remote.recordsOf key)
    (hmade : n ≤ x.id) : ∃ k', k' ≠ k ∧ s.keyOf k' = some key := by
  rw [CertState.shared, hkey, Option.all_some, Bool.or_eq_true, List.all_eq_true] at h
  rcases h with h | h
  · have hold := h x hx
    rw [decide_eq_true_eq] at hold
    omega
  · exact namedBeside_iff.1 h

/-- At the beginning nothing has been made yet. -/
theorem accounted_nextId (s : CertState) : s.Accounted s.remote.nextId := by
  intro zoneId x hx hmade
  have := s.remote.lt zoneId x hx
  omega

/-- One order changes: what it accounted for it accounts for still, or others do; and a record that comes has its key.
-/
theorem CertState.Accounted.step (h : s.Accounted n) (hothers : ∀ k' ≠ k, s'.keyOf k' = s.keyOf k')
    (hkeeps : ∀ key, s.keyOf k = some key → s'.keyOf k = some key ∨
      ∀ x ∈ s'.remote.recordsOf key, n ≤ x.id → ∃ k', k' ≠ k ∧ s.keyOf k' = some key)
    (hrecords : ∀ zoneId, ∀ x ∈ s'.remote.zone zoneId, x ∈ s.remote.zone zoneId ∨
      (x.recordType = "TXT" ∧ s'.keyOf k = some ⟨zoneId, x.name, x.content⟩)) : s'.Accounted n := by
  intro zoneId x hx hmade
  rcases hrecords zoneId x hx with hold | ⟨htype, hnew⟩
  · obtain ⟨htype, k', hk'⟩ := h zoneId x hold hmade
    refine ⟨htype, ?_⟩
    by_cases hne : k' = k
    · obtain rfl := hne
      rcases hkeeps _ hk' with hsame | hbeside
      · exact ⟨k', hsame⟩
      · obtain ⟨k'', hne, hk''⟩ := hbeside x (mem_recordsOf.2 ⟨hx, htype, rfl, rfl⟩) hmade
        refine ⟨k'', ?_⟩
        rw [hothers k'' hne]
        exact hk''
    · refine ⟨k', ?_⟩
      rw [hothers k' hne]
      exact hk'
  · exact ⟨htype, k, hnew⟩

end Keys

/-! ## What the provider does -/

section Provider

variable {net : Nat → Delivery} {provider : DnsProvider} {c : AcmeChallenge} {zoneId : String} {r : RemoteDns}
  {key : RecordKey}

theorem post_zone {name content : String} {ttl : Nat} {z : String} {x : ZoneRecord}
    (hx : x ∈ (r.post zoneId "TXT" name content ttl).zone z) :
    x ∈ r.zone z ∨ (x.recordType = "TXT" ∧ (⟨z, x.name, x.content⟩ : RecordKey) = ⟨zoneId, name, content⟩) := by
  rw [RemoteDns.post, RemoteDns.zone_setZone] at hx
  split at hx
  · rename_i hz
    rcases List.mem_append.1 hx with hx | hx
    · rw [hz]
      exact .inl hx
    · obtain rfl := List.mem_singleton.1 hx
      rw [hz]
      exact .inr ⟨rfl, rfl⟩
  · exact .inl hx

/-- Records come with the key, if any. -/
def Grown (key : RecordKey) (r r' : RemoteDns) : Prop :=
  ∀ z, ∀ x ∈ r'.zone z, x ∈ r.zone z ∨ (x.recordType = "TXT" ∧ (⟨z, x.name, x.content⟩ : RecordKey) = key)

/-- No record comes. -/
def Shrunk (r r' : RemoteDns) : Prop := ∀ z, ∀ x ∈ r'.zone z, x ∈ r.zone z

/-- The zone of a challenge that has a key. -/
theorem zoneId_of_key (h : c.key = some key) :
    c.zoneId = some key.zoneId ∧ normalizeRecordName c.fqdn c.zoneName = key.name ∧ c.value = key.value := by
  rw [AcmeChallenge.key, Option.map_eq_some_iff] at h
  obtain ⟨zoneId, hzone, rfl⟩ := h
  exact ⟨hzone, rfl, rfl⟩

/-- A challenge is presented: its record comes; the request is refused; or the answer to it is lost. -/
theorem present_wp (net : Nat → Delivery) (provider : DnsProvider) (r : RemoteDns) (hkey : c.key = some key) :
    (provider.presentDns01Challenge net c).wp
      (fun _ r' => postDelivery net provider r = .done ∧ Grown key r r')
      (fun _ r' => (postDelivery net provider r = .refused ∧ Shrunk r r') ∨
        (postDelivery net provider r = .lost ∧ Grown key r r')) r := by
  obtain ⟨hzone, hname, hvalue⟩ := zoneId_of_key hkey
  cases provider with
  | noop => exact (Act.wp_pure _).2 ⟨rfl, fun _ _ hx => .inl hx⟩
  | cloudflare config =>
    simp only [DnsProvider.presentDns01Challenge, Cloudflare.createRecord, Cloudflare.zoneIdOf,
      AcmeChallenge.change, hzone, hname, hvalue, Act.wp_bind, Act.wp_pure]
    have hpost : ∀ {r' : RemoteDns}, r'.records = (r.post key.zoneId "TXT" key.name key.value c.ttl).records →
        Grown key r r' := by
      intro r' hr' z x hx
      rw [RemoteDns.zone, hr'] at hx
      exact post_zone hx
    exact wp_ask_iff.2 ⟨fun hnet => ⟨hnet, hpost rfl⟩, fun hnet => .inl ⟨hnet, fun _ _ hx => hx⟩,
      fun hnet => .inr ⟨hnet, hpost rfl⟩⟩

/-- A challenge is cleaned up: of its records one is left less. -/
theorem cleanup_wp (net : Nat → Delivery) (provider : DnsProvider) (r : RemoteDns) (hkey : c.key = some key) :
    (provider.cleanupDns01Challenge net c).wp
      (fun _ r' => Shrunk r r' ∧
        ∀ x ∈ r'.recordsOf key, cleanupArrives net provider r = true ∧ x ∈ cleanupLeaves provider r key)
      (fun _ r' => Shrunk r r') r := by
  obtain ⟨hzone, hname, hvalue⟩ := zoneId_of_key hkey
  cases provider with
  | noop => exact (Act.wp_pure _).2 ⟨fun _ _ hx => hx, fun x hx => ⟨rfl, hx⟩⟩
  | cloudflare config =>
    simp only [DnsProvider.cleanupDns01Challenge, Cloudflare.deleteRecord, Cloudflare.findRecordId, Cloudflare.zoneIdOf,
      AcmeChallenge.change, hzone, hname, hvalue, Act.wp_bind, Act.wp_pure]
    have hsame : Shrunk r { r with asked := r.asked + 1 } := fun _ _ hx => hx
    refine wp_ask_iff.2 ⟨fun hlisted => ?_, fun _ => hsame, fun _ => hsame⟩
    have hfirst : (r.recordsAt key.zoneId "TXT" key.name).find? (·.content == key.value) = (r.recordsOf key).head? :=
      List.head?_filter.symm
    rw [hfirst]
    cases hrecords : r.recordsOf key with
    | nil =>
      refine (Act.wp_pure _).2 ⟨hsame, fun x hx => ?_⟩
      have hx : x ∈ r.recordsOf key := hx
      rw [hrecords] at hx
      cases hx
    | cons y ys =>
      have hdeleted : ∀ {r' : RemoteDns}, r'.records = (r.delete key.zoneId y.id).records → Shrunk r r' := by
        intro r' hr' z x hx
        rw [RemoteDns.zone, hr'] at hx
        have hx : x ∈ (r.delete key.zoneId y.id).zone z := hx
        rw [RemoteDns.delete, RemoteDns.zone_setZone] at hx
        split at hx
        · rename_i hz
          rw [hz]
          exact (List.mem_filter.1 hx).1
        · exact hx
      refine wp_ask_iff.2 ⟨fun harrives => ⟨hdeleted rfl, fun x hx => ⟨?_, ?_⟩⟩, fun _ => hsame, fun _ => hdeleted rfl⟩
      · rw [cleanupArrives, hlisted, harrives]
        rfl
      · -- it is not the one that was deleted
        obtain ⟨hzone, htype, hname, hvalue⟩ := mem_recordsOf.1 hx
        have hzone : x ∈ (r.delete key.zoneId y.id).zone key.zoneId := hzone
        rw [RemoteDns.delete, RemoteDns.zone_setZone, if_pos rfl, List.mem_filter, bne_iff_ne] at hzone
        have hmem : x ∈ r.recordsOf key := mem_recordsOf.2 ⟨hzone.1, htype, hname, hvalue⟩
        rw [cleanupLeaves, hrecords, List.tail_cons]
        rw [hrecords] at hmem
        rcases List.mem_cons.1 hmem with rfl | hrest
        · exact absurd rfl hzone.2
        · exact hrest

end Provider

/-! ## What the index keeps -/

/-- Orders under their identifiers, and at most one renewal under way for each certificate. -/
structure UnderIndex (s : CertState) : Prop where
  keyed : OrdersKeyed s
  certificate : Sole (·.certificateId) s.orders

section Index

variable {p : Platform} {rows : RowOrder} {acme : AcmeServer} {net : Nat → Delivery} {s s' : CertState} {k : Uuid}
  {order : CertificateOrderRecord}

theorem UnderIndex.quieter (h : UnderIndex s) (hq : RowsQuieter s s') : UnderIndex s' := by
  constructor
  · intro k o' ho'
    obtain ⟨o, ho, hq⟩ := hq k o' ho'
    exact hq.orderId.trans (h.keyed k o ho)
  · exact h.certificate.quieter hq fun _ _ hq => hq.certificate

/-- What the index lets through. -/
theorem UnderIndex.save (h : UnderIndex s) (hindex : indexRefuses s.orders order = false) :
    UnderIndex (s.onStore (·.saveCertificateOrder order)) := by
  constructor
  · intro k o ho
    rcases Maps.getElem?_insert_eq_some ho with ⟨rfl, rfl⟩ | ⟨-, ho⟩
    · rfl
    · exact h.keyed k o ho
  · exact h.certificate.insert (keyFree_of_index h.keyed hindex)

/-- Every call of the hub is within the index. -/
theorem UnderIndex.call (h : UnderIndex s) (c : HubCall) : UnderIndex (certHubHandler p rows c s).2 := by
  by_cases heffect : c.effect = some .certificateOrder
  · cases c with
    | saveCertificateOrder order =>
      rcases saveOrder_cases p rows order with ⟨-, hindex, he⟩ | he
      · rw [he]
        exact h.save hindex
      · rw [he]
        exact h
    | _ => cases heffect
  · by_cases hdelete : c.effect = some .deleteSite
    · cases c with
      | deleteSite siteId => exact h.quieter (deleteSite_quieter siteId)
      | _ => cases hdelete
    · exact h.quieter (.of_eq (orders_of_effect heffect hdelete))

/-- An update is within the index. -/
theorem UnderIndex.update (h : UnderIndex s) (orderId : Uuid) (f : CertificateOrderRecord → CertificateOrderRecord) :
    UnderIndex (s.afterUpdate (s.updateOrder orderId f)).2 := by
  unfold CertState.updateOrder
  split
  · exact h
  · split
    · exact h
    · rename_i hindex
      exact h.save (Bool.eq_false_iff.2 hindex)

/-- Every call of the worker is within the index. -/
theorem UnderIndex.work (h : UnderIndex s) (c : WorkerCall) : UnderIndex (workerHandler p rows acme net c s).2 := by
  cases c with
  | insertRenewalOrder certificateId zoneId acmeProvider payload =>
    change UnderIndex (s.insertRenewalOrder p certificateId zoneId acmeProvider payload).2
    unfold CertState.insertRenewalOrder
    dsimp only
    split
    · exact h.quieter (.of_eq rfl)
    · split
      · rename_i s' hput
        obtain ⟨-, hindex, rfl⟩ := putOrder_cases hput
        exact UnderIndex.save (h.quieter (.of_eq rfl)) hindex
      · exact h.quieter (.of_eq rfl)
  | claimPendingDnsOrders limit => exact h.quieter (claim_quieter h.keyed (by decide) limit)
  | claimReadyIssuanceOrders limit => exact h.quieter (claim_quieter h.keyed (by decide) limit)
  | updateOrderChallengePayload orderId payload => exact h.update _ _
  | updateOrderStatus orderId status errorMessage => exact h.update _ _
  | persistIssuedCertificate request => exact h.quieter (persist_quieter request)
  | _ => exact h.quieter (.of_eq rfl)

theorem UnderIndex.init (remote : RemoteDns) : UnderIndex (.init remote) where
  keyed := (Filed.init remote).orders
  certificate k k' o o' c ho := by simp [CertState.init, CertState.orders, World.init, MemoryState.empty] at ho

theorem UnderIndex.serve (h : UnderIndex s) (q : CertRequest) : UnderIndex (s.serve p rows acme net q) := by
  refine Prog.run_keeps (fun c s hs => ?_) _ h
  cases c with
  | inl c => exact hs.call c
  | inr c => exact hs.work c

theorem UnderIndex.serveAll (h : UnderIndex s) (qs : List CertRequest) :
    UnderIndex (s.serveAll p rows acme net qs) := by
  induction qs generalizing s with
  | nil => exact h
  | cons q qs ih => exact ih (h.serve q)

/-- The index lets an order through that is in the table and gets quieter. -/
theorem UnderIndex.passes (h : UnderIndex s) {o : CertificateOrderRecord} (ho : s.orders[k]? = some o)
    (hq : Quieter o order) : indexRefuses s.orders order = false := by
  rw [indexRefuses, Bool.and_eq_false_iff, Bool.and_eq_false_iff]
  cases hcertificate : order.certificateId with
  | none => exact .inl (.inl rfl)
  | some c =>
    cases hactive : order.activeRenewal with
    | false => exact .inl (.inr rfl)
    | true =>
      refine .inr (List.any_eq_false.2 fun other hmem hother => ?_)
      obtain ⟨k', hk'⟩ := Maps.mem_values.1 hmem
      simp only [Bool.and_eq_true, bne_iff_ne, beq_iff_eq] at hother
      obtain ⟨⟨hne, hotherActive⟩, hsame⟩ := hother
      have he : k' = k := h.certificate k' k other o c hk' ho hotherActive (hq.active hactive) hsame
        (hq.certificate c hcertificate)
      refine hne ?_
      rw [h.keyed k' other hk', hq.orderId, h.keyed k o ho]
      exact he

end Index

/-! ## Requests of the hub -/

/-- What is asked of a retry or a reset: an order that it writes back takes no record its name. -/
def SaveKept (n : Nat) : HubCall → CertState → Prop
  | .certificateOrder _, _ => True
  | .saveCertificateOrder order, s => (s.putOrder order).isOk = true → s.shared n order.orderId = true
  | _, _ => False

section Requeue

variable {p : Platform} {rows : RowOrder} {acme : AcmeServer} {net : Nat → Delivery} {n : Nat}
    {s : CertState} {k : Uuid}

/-- An order whose records are shared is written. -/
theorem CertState.Accounted.save (h : s.Accounted n) {order : CertificateOrderRecord}
    (hshared : s.shared n order.orderId = true) : CertState.Accounted n (s.onStore (·.saveCertificateOrder order)) := by
  refine h.step (k := order.orderId) (fun k' hne => keyOf_congr ?_ rfl) (fun key hkey => .inr fun x hx hmade => ?_)
    fun _ _ hx => .inl hx
  · show (s.orders.insert order.orderId order)[k']? = _
    rw [Std.ExtTreeMap.getElem?_insert, if_neg]
    rw [Std.compare_eq_iff_eq]
    exact fun e => hne e.symm
  · exact named_of_shared hshared hkey hx hmade

theorem saveKept_keeps {c : HubCall} (hc : SaveKept n c s) (h : s.Accounted n) :
    (certHubHandler p rows c s).2.Accounted n := by
  cases c with
  | certificateOrder orderId => exact h
  | saveCertificateOrder order =>
    simp only [certHubHandler]
    split
    · rename_i s' hput
      have hshared := hc (by rw [hput]; rfl)
      obtain ⟨-, -, rfl⟩ := putOrder_cases hput
      exact h.save hshared
    · exact h
  | _ => exact hc.elim

/-- The hub over the tables, with the records accounted for. -/
abbrev requeueSpec (p : Platform) (rows : RowOrder) (n : Nat) : Spec (hubSig.faulty AppError) CertState :=
  .alone (certHubHandler p rows) (SaveKept n) (CertState.Accounted n)

theorem requeue_wp (renewBeforeDays : Int) {o : CertificateOrderRecord} (action : String)
    (hkept : (s.putOrder (requeuedOrder (s.joined o))).isOk = true → s.shared n o.orderId = true) :
    wp (answered (requeueSpec p rows n)) (requeueCertificateOrder renewBeforeDays (s.joined o) action) (fun _ _ => True)
      (fun _ _ => True) s := by
  simp only [requeueCertificateOrder, repo, wp_bind, wp_call_answered, wp_ensure, wp_pure, implies_true, and_true]
  exact fun _ => hkept

/-- A retry or a reset leaves every record accounted for. -/
theorem requeue_accounted (h : s.Accounted n) (hfiled : OrdersKeyed s) {hub : Hub} {request : Request}
    (hrequest : (∃ k, request = .retryCertificateOrder k ∧ requeueKept n isFailedCertificateOrderStatus s k = true) ∨
      ∃ k, request = .resetCertificateOrder k ∧ requeueKept n (· != "issued") s k = true) :
    (s.serve p rows acme net (.hub hub request)).Accounted n := by
  have hkept : ∀ {allowed : String → Bool} {k : Uuid} {o : CertificateOrderRecord}, requeueKept n allowed s k = true →
      s.orders[k]? = some o → allowed o.orderStatus = true →
      (s.putOrder (requeuedOrder (s.joined o))).isOk = true → s.shared n o.orderId = true := by
    intro allowed k o hkept ho hallowed hput
    rw [requeueKept, ho, Option.all_some, hallowed, hput, Bool.not_true, Bool.false_or, Bool.false_or] at hkept
    rw [hfiled k o ho]
    exact hkept
  have hwp : wp (answered (requeueSpec p rows n)) (HubService.program p hub request) (fun _ _ => True) (fun _ _ => True)
      s := by
    rcases hrequest with ⟨k, rfl, hk⟩ | ⟨k, rfl, hk⟩
    · refine (wp_discard _).2 ?_
      simp only [retryCertificateOrder, repo, wp_bind, wp_call_answered, wp_okOr, wp_ensure, implies_true, and_true]
      refine ⟨trivial, fun found hfound _ order horder hfailed => ?_⟩
      cases hfound
      obtain ⟨o, ho, rfl⟩ := Option.map_eq_some_iff.1 horder
      exact requeue_wp _ _ (hkept hk ho hfailed)
    · refine (wp_discard _).2 ?_
      simp only [resetCertificateOrder, repo, wp_bind, wp_call_answered, wp_okOr, wp_ensure, implies_true, and_true]
      refine ⟨trivial, fun found hfound _ order horder hstatus => ?_⟩
      cases hfound
      obtain ⟨o, ho, rfl⟩ := Option.map_eq_some_iff.1 horder
      exact requeue_wp _ _ (hkept hk ho hstatus)
  rw [CertState.serve_hub]
  have hfaulty := wp_faulty (T := requeueSpec p rows n) (E := fun _ _ => True) (fun _ _ _ _ _ _ => trivial) hwp
  exact (wp_run (fun c s hc hs => saveKept_keeps hc hs) h hfaulty).2

end Requeue

/-! ## Challenges -/

section Challenges

variable {p : Platform} {rows : RowOrder} {acme : AcmeServer} {net : Nat → Delivery} {n : Nat} {s s' : CertState}
  {k : Uuid} {job : QueuedOrder} {client : AcmeClient}

/-- The tables of the hub and the records are the same. -/
structure SameTables (s s' : CertState) : Prop where
  store : s'.world.store = s.world.store
  remote : s'.remote = s.remote

theorem SameTables.keyOf (h : SameTables s s') (k : Uuid) : s'.keyOf k = s.keyOf k := by
  refine keyOf_congr ?_ ?_
  · rw [CertState.orders, h.store]
  · rw [h.store]

theorem SameTables.shared (h : SameTables s s') (n : Nat) (k : Uuid) : s'.shared n k = s.shared n k := by
  have hbeside : ∀ key, s'.namedBeside k key = s.namedBeside k key := by
    intro key
    rw [Bool.eq_iff_iff, namedBeside_iff, namedBeside_iff]
    simp only [h.keyOf]
  simp only [CertState.shared, h.keyOf, h.remote, hbeside]

/-- The ACME client leaves the tables and the records. -/
theorem sameTables_of_acme {α : Type} {x : WorkerM α} (hx : x.Only WorkerCall.Acme) (s : CertState) :
    SameTables s (Fallible.run (workerHandler p rows acme net) x s).2 := by
  refine hx.run_keeps (I := fun s' => SameTables s s') (fun c s' hc hs => ?_) ⟨rfl, rfl⟩
  cases c with
  | newOrder identifiers => exact ⟨hs.store, hs.remote⟩
  | acknowledge challengeUrl => exact ⟨hs.store, hs.remote⟩
  | authorized authorizationUrl => exact ⟨hs.store, hs.remote⟩
  | issue order => exact ⟨hs.store, hs.remote⟩
  | newUuid => exact ⟨hs.store, hs.remote⟩
  | _ => exact hc.elim

/-- The ACME client does not look at the records. -/
theorem run_acme_remote {α : Type} {x : WorkerM α} (hx : x.Only WorkerCall.Acme) (s : CertState) (r : RemoteDns) :
    (Fallible.run (workerHandler p rows acme net) x { s with remote := r }).1 =
      (Fallible.run (workerHandler p rows acme net) x s).1 := by
  have hrun := hx.run_eq (h := workerHandler p rows acme net) (k := workerHandler p rows acme net)
    (f := fun s : CertState => { s with remote := r }) (fun c s hc => ?_) s
  · rw [hrun]
  · cases c with
    | newOrder identifiers => rfl
    | acknowledge challengeUrl => rfl
    | authorized authorizationUrl => rfl
    | issue order => rfl
    | newUuid => rfl
    | _ => exact hc.elim

/-- A challenge by what becomes of its parts. -/
theorem run_processDnsChallenge (client : AcmeClient) (job : QueuedOrder) (s : CertState) :
    Fallible.run (workerHandler p rows acme net) (DnsWorker.processDnsChallenge client job) s =
      match Fallible.run (workerHandler p rows acme net) (DnsWorker.prepareDns01Challenge client job) s with
      | (.error e, s₁) => (.error e, s₁)
      | (.ok payload, s₁) =>
        match buildProvider job.provider with
        | .error e => (.error e, s₁)
        | .ok provider =>
          match challengeFromPayload job.orderId job.zoneName job.externalZoneId payload with
          | .error e => (.error e, s₁)
          | .ok challenge =>
            match provider.presentDns01Challenge net challenge s₁.remote with
            | (.error e, r) => (.error e, { s₁ with remote := r })
            | (.ok _, r) =>
              match Fallible.run (workerHandler p rows acme net) (DnsWorker.acknowledgeDns01Challenge client payload)
                  { s₁ with remote := r } with
              | (.error e, s₂) => (.error e, s₂)
              | (.ok _, s₂) => (.ok payload, s₂) := by
  rw [DnsWorker.processDnsChallenge, run_bind]
  rcases Fallible.run (workerHandler p rows acme net) (DnsWorker.prepareDns01Challenge client job) s with
    ⟨e | payload, s₁⟩
  · rfl
  · dsimp only
    rw [run_bind, run_attempt]
    cases buildProvider job.provider with
    | error e => rfl
    | ok provider =>
      dsimp only
      rw [run_bind, run_attempt]
      cases challengeFromPayload job.orderId job.zoneName job.externalZoneId payload with
      | error e => rfl
      | ok challenge =>
        dsimp only
        rw [run_bind, run_call, workerHandler]
        rcases provider.presentDns01Challenge net challenge s₁.remote with ⟨e | u, r⟩
        · rfl
        · dsimp only
          rw [run_bind, run_attempt]
          dsimp only
          rw [run_bind]
          rcases Fallible.run (workerHandler p rows acme net) (DnsWorker.acknowledgeDns01Challenge client payload)
            { s₁ with remote := r } with ⟨e | u, s₂⟩
          · rfl
          · rfl

theorem payloadKey_of_challenge {orderId : Uuid} {zoneName externalZoneId : String} {payload : Value}
    {c : AcmeChallenge} (h : challengeFromPayload orderId zoneName externalZoneId payload = .ok c) :
    ∃ key, c.key = some key ∧ payloadKey orderId zoneName externalZoneId payload = some key := by
  have hzone : c.zoneId = some externalZoneId := by
    unfold challengeFromPayload at h
    split at h
    · cases h
    · dsimp only at h
      split at h
      · cases h
      · split at h
        · cases h
        · split at h
          · cases h
          · cases h
            rfl
  have hkey : c.key = some ⟨externalZoneId, normalizeRecordName c.fqdn c.zoneName, c.value⟩ := by
    rw [AcmeChallenge.key, hzone]
    rfl
  refine ⟨_, hkey, ?_⟩
  rw [payloadKey, h]
  exact hkey

/-- A prepared payload is taken as it is. -/
theorem run_prepare_prepared (h : hasPreparedDnsPayload job.challengePayload = true) (s : CertState) :
    Fallible.run (workerHandler p rows acme net) (DnsWorker.prepareDns01Challenge client job) s =
      (.ok job.challengePayload, s) := by
  unfold DnsWorker.prepareDns01Challenge
  rw [if_pos h]
  rfl

/-- The provider refuses a challenge: there is no new record, unless the answer was lost. -/
theorem refused_records {provider : DnsProvider} {c : AcmeChallenge} {key : RecordKey} {r r' : RemoteDns} {e : String}
    {P : Prop} (hkey : c.key = some key) (hout : provider.presentDns01Challenge net c r = (.error e, r'))
    (hlost : postDelivery net provider r = .lost → P) : Shrunk r r' ∨ (P ∧ Grown key r r') := by
  have hpresent := present_wp net provider r hkey
  unfold Act.wp at hpresent
  rw [hout] at hpresent
  rcases hpresent with ⟨-, hr⟩ | ⟨hnet, hr⟩
  · exact .inl hr
  · exact .inr ⟨hlost hnet, hr⟩

/-- The provider takes a challenge: there may be one new record, and none if nothing is asked of a provider. -/
theorem presented_records {provider : DnsProvider} {c : AcmeChallenge} {key : RecordKey} {r r' : RemoteDns} {u : Unit}
    (hkey : c.key = some key) (hout : provider.presentDns01Challenge net c r = (.ok u, r')) :
    postDelivery net provider r = .done ∧ Grown key r r' ∧ (provider = .noop → Shrunk r r') := by
  have hpresent := present_wp net provider r hkey
  unfold Act.wp at hpresent
  rw [hout] at hpresent
  refine ⟨hpresent.1, hpresent.2, ?_⟩
  rintro rfl
  obtain rfl : r = r' := (Prod.mk.inj hout).2
  exact fun _ _ hx => hx

/-- The challenge of a payload is acknowledged: what the ACME server says does not depend on the records, and they stay
as they are. -/
theorem acknowledge_records (client : AcmeClient) (payload : Value) (s : CertState) (r : RemoteDns) :
    (Fallible.run (workerHandler p rows acme net) (DnsWorker.acknowledgeDns01Challenge client payload)
        { s with remote := r }).1 =
      (Fallible.run (workerHandler p rows acme net) (DnsWorker.acknowledgeDns01Challenge client payload) s).1 ∧
    (Fallible.run (workerHandler p rows acme net) (DnsWorker.acknowledgeDns01Challenge client payload)
        { s with remote := r }).2.remote = r :=
  ⟨run_acme_remote (DnsWorker.acknowledgeDns01Challenge_only client payload) s r,
    (sameTables_of_acme (DnsWorker.acknowledgeDns01Challenge_only client payload) _).remote⟩

/-- What a challenge leaves: if it succeeds, a record of its payload at most, and a payload that is replaced was
shared; and if it fails, no record, or one of the stored payload. -/
theorem processDnsChallenge_records (hkept : pendingKept p rows acme net n client job s = true) :
    match Fallible.run (workerHandler p rows acme net) (DnsWorker.processDnsChallenge client job) s with
    | (.ok payload, s') => s'.world.store = s.world.store ∧
      (∃ key, payloadKey job.orderId job.zoneName job.externalZoneId payload = some key ∧
        Grown key s.remote s'.remote) ∧
      (payload = job.challengePayload ∨ s.shared n job.orderId = true)
    | (.error _, s') => s'.world.store = s.world.store ∧ (Shrunk s.remote s'.remote ∨
      ∃ key, payloadKey job.orderId job.zoneName job.externalZoneId job.challengePayload = some key ∧
        Grown key s.remote s'.remote) := by
  have hstored :
      (Fallible.run (workerHandler p rows acme net) (DnsWorker.processDnsChallenge client job) s).2.world.store =
      s.world.store :=
    (DnsWorker.processDnsChallenge_only client job).run_keeps
      (I := fun s' : CertState => s'.world.store = s.world.store)
      (fun _ _ hc hs => (workerHandler_store hc).trans hs) rfl
  rw [run_processDnsChallenge] at hstored ⊢
  have hprepared : SameTables s
      (Fallible.run (workerHandler p rows acme net) (DnsWorker.prepareDns01Challenge client job) s).2 :=
    sameTables_of_acme (DnsWorker.prepareDns01Challenge_only client job) s
  unfold pendingKept at hkept
  rcases hprepare : Fallible.run (workerHandler p rows acme net) (DnsWorker.prepareDns01Challenge client job) s with
    ⟨e | payload, s₁⟩
  · rw [hprepare] at hstored hprepared
    refine ⟨hstored, .inl ?_⟩
    rw [hprepared.remote]
    exact fun _ _ hx => hx
  · have hsame : hasPreparedDnsPayload job.challengePayload = true → payload = job.challengePayload := by
      intro h
      rw [run_prepare_prepared h] at hprepare
      exact (Except.ok.inj (Prod.mk.inj hprepare).1).symm
    rw [hprepare] at hstored hprepared hkept
    have hremote : s₁.remote = s.remote := hprepared.remote
    have hshared := hprepared.shared n job.orderId
    have hnone : Shrunk s.remote s₁.remote := by
      rw [hremote]
      exact fun _ _ hx => hx
    dsimp only at hstored hkept hremote hshared ⊢
    cases hprovider : buildProvider job.provider with
    | error e =>
      rw [hprovider] at hstored
      exact ⟨hstored, .inl hnone⟩
    | ok provider =>
      rw [hprovider] at hstored hkept
      dsimp only at hstored hkept ⊢
      cases hchallenge : challengeFromPayload job.orderId job.zoneName job.externalZoneId payload with
      | error e =>
        rw [hchallenge] at hstored
        exact ⟨hstored, .inl hnone⟩
      | ok challenge =>
        rw [hchallenge] at hstored hkept
        obtain ⟨key, hkey, hpayload⟩ := payloadKey_of_challenge hchallenge
        have hnamed : payload = job.challengePayload → ∀ {r : RemoteDns}, Grown key s₁.remote r →
            ∃ key, payloadKey job.orderId job.zoneName job.externalZoneId job.challengePayload = some key ∧
              Grown key s₁.remote r := by
          rintro rfl r hr
          exact ⟨key, hpayload, hr⟩
        rw [← hremote]
        dsimp only at hstored hkept ⊢
        rcases hout : provider.presentDns01Challenge net challenge s₁.remote with ⟨e | u, r⟩
        · rw [hout] at hstored
          refine ⟨hstored, (refused_records hkey hout fun hlost => ?_).imp_right fun h => hnamed h.1 h.2⟩
          rw [hlost, Bool.or_false] at hkept
          exact hsame hkept
        · rw [hout] at hstored
          obtain ⟨hdone, hgrown, hnoop⟩ := presented_records hkey hout
          obtain ⟨hblind, hlast⟩ := @acknowledge_records p rows acme net client payload s₁ r
          rw [hdone] at hkept
          dsimp only at hstored ⊢
          rcases hack : Fallible.run (workerHandler p rows acme net)
            (DnsWorker.acknowledgeDns01Challenge client payload) { s₁ with remote := r } with ⟨e | u, s₂⟩
          · rw [hack] at hstored hblind hlast
            obtain rfl : s₂.remote = r := hlast
            rw [← hblind, Bool.or_eq_true] at hkept
            refine ⟨hstored, ?_⟩
            rcases hkept with hprep | hnone
            · exact .inr (hnamed (hsame hprep) hgrown)
            · exact .inl (hnoop (beq_iff_eq.1 hnone))
          · rw [hack] at hstored hblind hlast
            obtain rfl : s₂.remote = r := hlast
            rw [← hblind, Bool.or_eq_true] at hkept
            refine ⟨hstored, ⟨key, hpayload, hgrown⟩, ?_⟩
            rcases hkept with hprep | hbeside
            · exact .inl (hsame hprep)
            · rw [hshared] at hbeside
              exact .inr hbeside

end Challenges

/-! ## Turns -/

/-- The zones and the other orders stay. -/
structure OthersKept (k : Uuid) (s s' : CertState) : Prop where
  zones : s'.world.store.dnsZones = s.world.store.dnsZones
  others : ∀ k' ≠ k, s'.orders[k']? = s.orders[k']?

/-- The order of a job has its payload and its zone, and the status of the claim. -/
def JobStored (busy : String) (s : CertState) (job : QueuedOrder) : Prop :=
  ∃ order zone, s.orders[job.orderId]? = some order ∧ order.orderStatus = busy ∧
    order.challengePayload = job.challengePayload ∧ s.world.store.dnsZones[order.zoneId]? = some zone ∧
    zone.zoneName = job.zoneName ∧ zone.externalZoneId = job.externalZoneId

section Turns

variable {p : Platform} {rows : RowOrder} {acme : AcmeServer} {net : Nat → Delivery} {n : Nat} {s s' s'' : CertState}
  {k : Uuid} {job : QueuedOrder} {client : AcmeClient} {o : CertificateOrderRecord} {zone : DnsZoneRecord}

theorem OthersKept.of_store (h : s'.world.store = s.world.store) : OthersKept k s s' where
  zones := by rw [h]
  others k' _ := by rw [CertState.orders, h]

theorem OthersKept.trans (h : OthersKept k s s') (h' : OthersKept k s' s'') : OthersKept k s s'' where
  zones := h'.zones.trans h.zones
  others k' hne := (h'.others k' hne).trans (h.others k' hne)

theorem OthersKept.keyOf (h : OthersKept k s s') : ∀ k' ≠ k, s'.keyOf k' = s.keyOf k' :=
  fun k' hne => keyOf_congr (h.others k' hne) h.zones

theorem OthersKept.jobStored {busy : String} (h : OthersKept k s s') (hne : job.orderId ≠ k)
    (hjob : JobStored busy s job) : JobStored busy s' job := by
  obtain ⟨order, zone, ho, hstatus, hpayload, hzone, hname, hexternal⟩ := hjob
  refine ⟨order, zone, ?_, hstatus, hpayload, ?_, hname, hexternal⟩
  · rw [h.others _ hne]
    exact ho
  · rw [h.zones]
    exact hzone

/-- An order that keeps track, in its zone. -/
theorem keyOf_of_row (h : OrdersKeyed s) (ho : s.orders[k]? = some o) (htrack : o.keepsTrack = true)
    (hzone : s.world.store.dnsZones[o.zoneId]? = some zone) :
    s.keyOf k = payloadKey k zone.zoneName zone.externalZoneId o.challengePayload := by
  rw [keyOf_eq ho, if_pos htrack, hzone, Option.bind_some, h k o ho]

theorem keepsTrack_of_ne (h : o.orderStatus ≠ "issued") : o.keepsTrack = true := by
  rw [CertificateOrderRecord.keepsTrack, bne_iff_ne.2 h, Bool.true_or]

/-- An order that says that its cleanup failed keeps track. -/
theorem keepsTrack_of_warning {e : String} (h : o.errorMessage = some (cleanupWarning ++ e)) : o.keepsTrack = true := by
  have hstart : Text.startsWith (cleanupWarning ++ e) cleanupWarning = true := by
    rw [Text.startsWith, String.toList_append]
    exact List.isPrefixOf_iff_prefix.2 (List.prefix_append _ _)
  rw [CertificateOrderRecord.keepsTrack, h, Option.any_some, hstart, Bool.or_true]

/-- An update is of one order. -/
theorem updated_others (h : OrdersKeyed s) {f : CertificateOrderRecord → CertificateOrderRecord}
    (hf : ∀ o, (f o).orderId = o.orderId) : OthersKept k s (s.afterUpdate (s.updateOrder k f)).2 := by
  unfold CertState.updateOrder
  split
  · exact .of_store rfl
  · rename_i o ho
    split
    · exact .of_store rfl
    · refine ⟨rfl, fun k' hne => ?_⟩
      show (s.orders.insert (f o).orderId (f o))[k']? = _
      rw [Std.ExtTreeMap.getElem?_insert, if_neg]
      rw [Std.compare_eq_iff_eq, hf, h k o ho]
      exact fun e => hne e.symm

theorem updated_remote (f : CertificateOrderRecord → CertificateOrderRecord) :
    (s.afterUpdate (s.updateOrder k f)).2.remote = s.remote := by
  unfold CertState.updateOrder
  split
  · rfl
  · split
    · rfl
    · rfl

/-- The order after an update that the index lets through. -/
theorem updated_row (h : OrdersKeyed s) {f : CertificateOrderRecord → CertificateOrderRecord}
    (ho : s.orders[k]? = some o) (hf : (f o).orderId = o.orderId) (hindex : indexRefuses s.orders (f o) = false) :
    s.afterUpdate (s.updateOrder k f) = (.ok (), s.onStore (·.saveCertificateOrder (f o))) ∧
      (s.onStore (·.saveCertificateOrder (f o))).orders[k]? = some (f o) := by
  constructor
  · rw [CertState.updateOrder, ho]
    dsimp only
    rw [hindex]
    rfl
  · show (s.orders.insert (f o).orderId (f o))[k]? = _
    rw [hf, h k o ho]
    exact Std.ExtTreeMap.getElem?_insert_self

/-- An update that leaves the payload leaves the record that the order accounts for. -/
theorem updated_key (h : UnderIndex s) {f : CertificateOrderRecord → CertificateOrderRecord}
    (hf : ∀ o, (f o).orderId = o.orderId) (ho : s.orders[k]? = some o) (htrack : o.keepsTrack = true)
    (htrack' : (f o).keepsTrack = true) (hzoneId : (f o).zoneId = o.zoneId)
    (hpayload : (f o).challengePayload = o.challengePayload) (hzone : s.world.store.dnsZones[o.zoneId]? = some zone) :
    (s.afterUpdate (s.updateOrder k f)).2.keyOf k =
      payloadKey k zone.zoneName zone.externalZoneId o.challengePayload := by
  have hkeyed := (h.update k f).keyed
  have hzones := (updated_others (k := k) h.keyed hf).zones
  have hmem : k ∈ (s.afterUpdate (s.updateOrder k f)).2.orders :=
    mem_updated_of_mem (Std.ExtTreeMap.mem_iff_isSome_getElem?.2 (Option.isSome_of_eq_some ho))
  obtain ⟨o', ho'⟩ := Option.isSome_iff_exists.1 (Std.ExtTreeMap.mem_iff_isSome_getElem?.1 hmem)
  rcases mem_updated h.keyed hf ho' with hold | ⟨-, x, hx, rfl⟩
  · obtain rfl : o = o' := Option.some.inj (ho.symm.trans hold)
    rw [← hzones] at hzone
    exact keyOf_of_row hkeyed ho' htrack hzone
  · obtain rfl : o = x := Option.some.inj (ho.symm.trans hx)
    rw [← hzones, ← hzoneId] at hzone
    rw [keyOf_of_row hkeyed ho' htrack' hzone, hpayload]

/-- A turn of `process_pending_certificate_orders`, by what becomes of the challenge. -/
theorem run_pendingTurn_eq (client : AcmeClient) (job : QueuedOrder) (s : CertState) :
    Fallible.run (workerHandler p rows acme net) (DnsWorker.pendingTurn client job) s =
      match Fallible.run (workerHandler p rows acme net) (DnsWorker.processDnsChallenge client job) s with
      | (.ok payload, s₁) =>
        match s₁.afterUpdate (s₁.updateOrder job.orderId fun order => { order with challengePayload := payload }) with
        | (.error e, s₂) => (.error e, s₂)
        | (.ok _, s₂) => s₂.afterUpdate (s₂.updateOrder job.orderId fun order =>
          { order with orderStatus := "dns_challenge_presented", errorMessage := none })
      | (.error e, s₁) => s₁.afterUpdate (s₁.updateOrder job.orderId fun order =>
        { order with orderStatus := "dns_challenge_failed", errorMessage := some e }) := by
  rw [DnsWorker.pendingTurn, run_bind, run_caught]
  rcases Fallible.run (workerHandler p rows acme net) (DnsWorker.processDnsChallenge client job) s with
    ⟨e | payload, s₁⟩
  · rfl
  · dsimp only
    rw [run_bind, run_call, workerHandler]
    dsimp only
    rcases s₁.afterUpdate (s₁.updateOrder job.orderId fun order => { order with challengePayload := payload }) with
      ⟨e | u, s₂⟩
    · rfl
    · rfl

/-- What the order of a job accounts for. -/
theorem keyOf_job {busy : String} (h : OrdersKeyed s) (hjob : JobStored busy s job) (hbusy : busy ≠ "issued") :
    s.keyOf job.orderId = payloadKey job.orderId job.zoneName job.externalZoneId job.challengePayload := by
  obtain ⟨order, zone, ho, rfl, hpayload, hzone, hname, hexternal⟩ := hjob
  rw [keyOf_of_row h ho (keepsTrack_of_ne hbusy) hzone, hname, hexternal, hpayload]

/-- The order of a job gets another status, and accounts for the same record. -/
theorem status_written {busy status : String} (hindex : UnderIndex s) (hjob : JobStored busy s job)
    (hbusy : busy ≠ "issued")
    (hstore : s'.world.store = s.world.store) (hstatus : status ≠ "issued") (errorMessage : Option String) :
    ∃ result s'', s'.afterUpdate (s'.updateOrder job.orderId fun order =>
        { order with orderStatus := status, errorMessage := errorMessage }) = (result, s'') ∧
      s''.remote = s'.remote ∧ s''.keyOf job.orderId = s.keyOf job.orderId ∧ OthersKept job.orderId s s'' := by
  have hkey := keyOf_job hindex.keyed hjob hbusy
  obtain ⟨order, zone, ho, rfl, hpayload, hzone, hname, hexternal⟩ := hjob
  have hindex' : UnderIndex s' := hindex.quieter (.of_eq (congrArg (·.certificateOrders) hstore))
  have ho' : s'.orders[job.orderId]? = some order := by
    rw [CertState.orders, hstore]
    exact ho
  have hzone' : s'.world.store.dnsZones[order.zoneId]? = some zone := by
    rw [hstore]
    exact hzone
  generalize hf : (fun order : CertificateOrderRecord =>
    { order with orderStatus := status, errorMessage := errorMessage }) = f
  have hid : ∀ o, (f o).orderId = o.orderId := fun o => by rw [← hf]
  have hother : (f order).orderStatus ≠ "issued" := by
    rw [← hf]
    exact hstatus
  refine ⟨(s'.afterUpdate (s'.updateOrder job.orderId f)).1, (s'.afterUpdate (s'.updateOrder job.orderId f)).2, rfl,
    updated_remote f, ?_, (OthersKept.of_store hstore).trans (updated_others hindex'.keyed hid)⟩
  rw [updated_key hindex' hid ho' (keepsTrack_of_ne hbusy) (keepsTrack_of_ne hother) (by rw [← hf])
    (by rw [← hf]) hzone', hkey, hname, hexternal, hpayload]

/-- The order of a job gets another payload. -/
theorem payload_written {busy : String} (hindex : UnderIndex s) (hjob : JobStored busy s job)
    (hstore : s'.world.store = s.world.store) (payload : Value) :
    ∃ s'', s'.afterUpdate (s'.updateOrder job.orderId fun order => { order with challengePayload := payload }) =
        (.ok (), s'') ∧
      s''.remote = s'.remote ∧ UnderIndex s'' ∧ OthersKept job.orderId s s'' ∧
      JobStored busy s'' { job with challengePayload := payload } := by
  obtain ⟨order, zone, ho, hbusy, hpayload, hzone, hname, hexternal⟩ := hjob
  have hindex' : UnderIndex s' := hindex.quieter (.of_eq (congrArg (·.certificateOrders) hstore))
  have ho' : s'.orders[job.orderId]? = some order := by
    rw [CertState.orders, hstore]
    exact ho
  have hzone' : s'.world.store.dnsZones[order.zoneId]? = some zone := by
    rw [hstore]
    exact hzone
  -- the order is under way as it was
  have hpasses : indexRefuses s'.orders { order with challengePayload := payload } = false :=
    hindex'.passes ho' (quieter_of_status payload order.errorMessage id)
  obtain ⟨hwritten, hrow⟩ := updated_row hindex'.keyed
    (f := fun order => { order with challengePayload := payload }) ho' rfl hpasses
  have hothers := updated_others (k := job.orderId) hindex'.keyed
    (f := fun order => { order with challengePayload := payload }) fun _ => rfl
  have hkept := hindex'.update job.orderId fun order => { order with challengePayload := payload }
  rw [hwritten] at hothers hkept
  exact ⟨_, hwritten, rfl, hkept, (OthersKept.of_store hstore).trans hothers, _, zone, hrow, hbusy, rfl, hzone', hname,
    hexternal⟩

/-- A record that came has the new key, and the others of an order whose records are shared are accounted for without
it. -/
theorem named_of_grown {key old : RecordKey} {r : RemoteDns} {x : ZoneRecord} (hshared : s.shared n k = true)
    (hkey : s.keyOf k = some old) (hgrown : Grown key s.remote r) (hne : old ≠ key) (hx : x ∈ r.recordsOf old)
    (hmade : n ≤ x.id) : ∃ k', k' ≠ k ∧ s.keyOf k' = some old := by
  obtain ⟨hzone, htype, hname, hvalue⟩ := mem_recordsOf.1 hx
  rcases hgrown _ x hzone with hold | ⟨-, rfl⟩
  · exact named_of_shared hshared hkey (mem_recordsOf.2 ⟨hold, htype, hname, hvalue⟩) hmade
  · rw [hname, hvalue] at hne
    exact absurd rfl hne

/-- A challenge that fails leaves every record accounted for. -/
theorem failed_accounted (hindex : UnderIndex s) (h : s.Accounted n) (hjob : JobStored "dns_challenge_presenting" s job)
    (hstore : s'.world.store = s.world.store) (hremote : Shrunk s.remote s'.remote ∨
      ∃ key, payloadKey job.orderId job.zoneName job.externalZoneId job.challengePayload = some key ∧
        Grown key s.remote s'.remote) (message : String) :
    ∃ result s'', s'.afterUpdate (s'.updateOrder job.orderId fun order =>
        { order with orderStatus := "dns_challenge_failed", errorMessage := some message }) = (result, s'') ∧
      s''.Accounted n ∧ OthersKept job.orderId s s'' := by
  have hfailed : "dns_challenge_failed" ≠ "issued" := by decide
  obtain ⟨result, s'', hwritten, hsame, hkey, hothers⟩ := status_written hindex hjob
    (by decide) hstore hfailed (some message)
  refine ⟨result, s'', hwritten, ?_, hothers⟩
  refine h.step hothers.keyOf (fun key hk => .inl (hkey.trans hk)) fun z x hx => ?_
  rw [hsame] at hx
  rcases hremote with hshrunk | ⟨key, hnamed, hgrown⟩
  · exact .inl (hshrunk z x hx)
  · rcases hgrown z x hx with hold | ⟨htype, rfl⟩
    · exact .inl hold
    · rw [hkey, keyOf_job hindex.keyed hjob (by decide)]
      exact .inr ⟨htype, hnamed⟩

/-- A challenge that succeeds leaves every record accounted for. -/
theorem presented_accounted (hindex : UnderIndex s) (h : s.Accounted n)
    (hjob : JobStored "dns_challenge_presenting" s job)
    {key : RecordKey} {payload : Value} (hstore : s'.world.store = s.world.store)
    (hnamed : payloadKey job.orderId job.zoneName job.externalZoneId payload = some key)
    (hgrown : Grown key s.remote s'.remote) (hreplaced : payload = job.challengePayload ∨
      s.shared n job.orderId = true) :
    ∃ s₁ result s'',
        s'.afterUpdate (s'.updateOrder job.orderId fun order => { order with challengePayload := payload }) =
        (.ok (), s₁) ∧
      s₁.afterUpdate (s₁.updateOrder job.orderId fun order =>
        { order with orderStatus := "dns_challenge_presented", errorMessage := none }) = (result, s'') ∧
      s''.Accounted n ∧ OthersKept job.orderId s s'' := by
  obtain ⟨s₁, hpayload, hsame₁, hindex₁, hothers₁, hjob₁⟩ := payload_written hindex hjob hstore payload
  have hpresented : "dns_challenge_presented" ≠ "issued" := by decide
  obtain ⟨result, s'', hwritten, hsame, hkept, hothers₂⟩ := status_written hindex₁ hjob₁ (by decide) rfl hpresented none
  have hothers : OthersKept job.orderId s s'' := hothers₁.trans hothers₂
  have hkey : s''.keyOf job.orderId = some key :=
    hkept.trans ((keyOf_job hindex₁.keyed hjob₁ (by decide)).trans hnamed)
  clear hkept
  have hremote : s''.remote = s'.remote := hsame.trans hsame₁
  refine ⟨s₁, result, s'', hpayload, hwritten, ?_, hothers⟩
  refine h.step hothers.keyOf (fun old hold => ?_) fun z x hx => ?_
  · rcases hreplaced with rfl | hshared
    · rw [keyOf_job hindex.keyed hjob (by decide), hnamed] at hold
      exact .inl (hkey.trans hold)
    · by_cases he : old = key
      · rw [he]
        exact .inl hkey
      · rw [hremote]
        exact .inr fun x hx hmade => named_of_grown hshared hold hgrown he hx hmade
  · rw [hremote] at hx
    rcases hgrown z x hx with hold | ⟨htype, rfl⟩
    · exact .inl hold
    · exact .inr ⟨htype, hkey⟩

/-- A turn of `process_pending_certificate_orders` leaves every record accounted for. -/
theorem pendingTurn_accounted (hindex : UnderIndex s) (h : s.Accounted n)
    (hjob : JobStored "dns_challenge_presenting" s job) (hkept : pendingKept p rows acme net n client job s = true) :
    (Fallible.run (workerHandler p rows acme net) (DnsWorker.pendingTurn client job) s).2.Accounted n ∧
      OthersKept job.orderId s (Fallible.run (workerHandler p rows acme net)
        (DnsWorker.pendingTurn client job) s).2 := by
  have hrecords := processDnsChallenge_records hkept
  rw [run_pendingTurn_eq]
  rcases hout : Fallible.run (workerHandler p rows acme net) (DnsWorker.processDnsChallenge client job) s with
    ⟨e | payload, s₁⟩
  · rw [hout] at hrecords
    obtain ⟨hstore, hremote⟩ := hrecords
    obtain ⟨result, s₂, hwritten, haccounted⟩ := failed_accounted hindex h hjob hstore hremote e
    dsimp only
    rw [hwritten]
    exact haccounted
  · rw [hout] at hrecords
    obtain ⟨hstore, ⟨key, hnamed, hgrown⟩, hreplaced⟩ := hrecords
    obtain ⟨s₂, result, s₃, hpayload, hwritten, haccounted⟩ :=
      presented_accounted hindex h hjob hstore hnamed hgrown hreplaced
    dsimp only
    rw [hpayload]
    dsimp only
    rw [hwritten]
    exact haccounted

/-- What a finalization leaves: if it succeeds, the request says that the cleanup failed, or the records that are left
are accounted for by others. -/
theorem finalizeCertificateOrder_records (hkept : presentedKept p rows acme net n client job s = true) :
    match Fallible.run (workerHandler p rows acme net) (DnsWorker.finalizeCertificateOrder client job) s with
    | (.ok request, s') => s'.world.store = s.world.store ∧ request.orderId = job.orderId ∧ Shrunk s.remote s'.remote ∧
      ((∃ e, request.warningMessage = some (cleanupWarning ++ e)) ∨
        ∀ key, payloadKey job.orderId job.zoneName job.externalZoneId job.challengePayload = some key →
          ∀ x ∈ s'.remote.recordsOf key, n ≤ x.id → ∃ k', k' ≠ job.orderId ∧ s.keyOf k' = some key)
    | (.error _, s') => SameTables s s' := by
  rw [DnsWorker.finalizeCertificateOrder, run_bind, run_attempt]
  unfold presentedKept at hkept
  cases hprovider : buildProvider job.provider with
  | error e => exact ⟨rfl, rfl⟩
  | ok provider =>
    dsimp only
    rw [run_bind, run_attempt]
    cases hchallenge : challengeFromPayload job.orderId job.zoneName job.externalZoneId job.challengePayload with
    | error e => exact ⟨rfl, rfl⟩
    | ok challenge =>
      obtain ⟨key, hkey, hpayload⟩ := payloadKey_of_challenge hchallenge
      have hmaterial : SameTables s
          (Fallible.run (workerHandler p rows acme net) (DnsWorker.finalizeDns01Order client job) s).2 :=
        sameTables_of_acme (DnsWorker.finalizeDns01Order_only client job) s
      rw [hprovider, hpayload] at hkept
      dsimp only
      rw [run_bind]
      rcases hout : Fallible.run (workerHandler p rows acme net) (DnsWorker.finalizeDns01Order client job) s with
        ⟨e | material, s₁⟩
      · rw [hout] at hmaterial
        exact hmaterial
      · rw [hout] at hmaterial hkept
        have hremote : s₁.remote = s.remote := hmaterial.remote
        have hkeys := hmaterial.keyOf
        dsimp only at hkeys hkept ⊢
        rw [run_bind, run_call, workerHandler]
        dsimp only
        have hcleanup := cleanup_wp net provider s₁.remote hkey
        unfold Act.wp at hcleanup
        rcases hcleaned : provider.cleanupDns01Challenge net challenge s₁.remote with ⟨e | u, r⟩
        · rw [hcleaned] at hcleanup
          have hshrunk : Shrunk s₁.remote r := hcleanup
          rw [hremote] at hshrunk
          exact ⟨hmaterial.store, rfl, hshrunk, .inl ⟨e, rfl⟩⟩
        · rw [hcleaned] at hcleanup
          obtain ⟨hshrunk, hleft⟩ := hcleanup
          rw [hremote] at hshrunk
          refine ⟨hmaterial.store, rfl, hshrunk, .inr fun key' hkey' x hx hmade => ?_⟩
          obtain rfl : key = key' := Option.some.inj (hpayload.symm.trans hkey')
          obtain ⟨harrives, hmem⟩ := hleft x hx
          rw [harrives, Bool.not_true, Bool.false_or, Bool.or_eq_true, List.all_eq_true] at hkept
          rcases hkept with hold | hbeside
          · have hbefore := hold x hmem
            rw [decide_eq_true_eq] at hbefore
            omega
          · obtain ⟨k', hne, hk'⟩ := namedBeside_iff.1 hbeside
            rw [hkeys] at hk'
            exact ⟨k', hne, hk'⟩

/-- A turn of `process_presented_certificate_orders`, by what becomes of the certificate. -/
theorem run_presentedTurn_eq (client : AcmeClient) (job : QueuedOrder) (s : CertState) :
    Fallible.run (workerHandler p rows acme net) (DnsWorker.presentedTurn client job) s =
      match Fallible.run (workerHandler p rows acme net) (DnsWorker.finalizeCertificateOrder client job) s with
      | (.ok request, s₁) => s₁.persistIssuedCertificate p request
      | (.error e, s₁) => s₁.afterUpdate (s₁.updateOrder job.orderId fun order =>
        { order with orderStatus := "issue_failed", errorMessage := some e }) := by
  rw [DnsWorker.presentedTurn, run_bind, run_caught]
  rcases Fallible.run (workerHandler p rows acme net) (DnsWorker.finalizeCertificateOrder client job) s with
    ⟨e | request, s₁⟩
  · rfl
  · dsimp only
    rw [run_bind, run_call, workerHandler]
    rcases s₁.persistIssuedCertificate p request with ⟨e | u, s₂⟩
    · rfl
    · rfl

/-- A certificate is persisted: its order is issued, if the database lets it. -/
theorem persisted_rows (p : Platform) (request : PersistIssuedCertificateRequest) (s : CertState) :
    SameTables s (s.persistIssuedCertificate p request).2 ∨
      (OthersKept request.orderId s (s.persistIssuedCertificate p request).2 ∧
        (s.persistIssuedCertificate p request).2.remote = s.remote ∧
        ∀ o, s.orders[request.orderId]? = some o → (s.persistIssuedCertificate p request).2.orders[request.orderId]? =
          some { o with orderStatus := "issued", errorMessage := request.warningMessage }) := by
  rcases persist_cases p request s with ⟨-, he⟩ | ⟨-, he⟩
  · rw [he]
    exact .inl ⟨rfl, rfl⟩
  · rw [he]
    refine .inr ⟨⟨rfl, fun k' hne => ?_⟩, rfl, fun o ho => ?_⟩
    · show (s.orders.modify request.orderId _)[k']? = _
      rw [Std.ExtTreeMap.getElem?_modify, if_neg]
      rw [Std.compare_eq_iff_eq]
      exact fun e => hne e.symm
    · show (s.orders.modify request.orderId _)[request.orderId]? = _
      rw [Std.ExtTreeMap.getElem?_modify_self, ho]
      rfl

/-- A turn of `process_presented_certificate_orders` leaves every record accounted for. -/
theorem presentedTurn_accounted (hindex : UnderIndex s) (h : s.Accounted n) (hjob : JobStored "issuing" s job)
    (hkept : presentedKept p rows acme net n client job s = true) :
    (Fallible.run (workerHandler p rows acme net) (DnsWorker.presentedTurn client job) s).2.Accounted n ∧
      OthersKept job.orderId s (Fallible.run (workerHandler p rows acme net)
        (DnsWorker.presentedTurn client job) s).2 := by
  have hkey := keyOf_job hindex.keyed hjob (by decide)
  have hrecords := finalizeCertificateOrder_records hkept
  rw [run_presentedTurn_eq]
  rcases hout : Fallible.run (workerHandler p rows acme net) (DnsWorker.finalizeCertificateOrder client job) s with
    ⟨e | request, s₁⟩
  · rw [hout] at hrecords
    obtain ⟨hstore, hremote⟩ := hrecords
    have hfailed : "issue_failed" ≠ "issued" := by decide
    obtain ⟨result, s₂, hwritten, hsame, hkey', hothers⟩ := status_written hindex hjob
      (by decide) hstore hfailed (some e)
    dsimp only
    rw [hwritten]
    refine ⟨h.step hothers.keyOf (fun key hk => .inl (hkey'.trans hk)) fun z x hx => .inl ?_, hothers⟩
    rw [hsame, hremote] at hx
    exact hx
  · rw [hout] at hrecords
    obtain ⟨hstore, hid, hshrunk, hleft⟩ := hrecords
    have hstore : s₁.world.store = s.world.store := hstore
    have hothers₁ : OthersKept job.orderId s s₁ := .of_store hstore
    have hkeys₁ : ∀ k, s₁.keyOf k = s.keyOf k := by
      intro k
      refine keyOf_congr ?_ ?_
      · rw [CertState.orders, hstore]
      · rw [hstore]
    dsimp only
    rcases persisted_rows p request s₁ with hsame | ⟨hothers, hremote, hrow⟩
    · have hothers₂ : OthersKept job.orderId s (s₁.persistIssuedCertificate p request).2 :=
        hothers₁.trans (.of_store hsame.store)
      refine ⟨h.step hothers₂.keyOf (fun key hk => .inl ?_) fun z x hx => .inl ?_, hothers₂⟩
      · rw [hsame.keyOf, hkeys₁]
        exact hk
      · rw [hsame.remote] at hx
        exact hshrunk z x hx
    · rw [hid] at hothers hrow
      have hothers₂ : OthersKept job.orderId s (s₁.persistIssuedCertificate p request).2 := hothers₁.trans hothers
      refine ⟨h.step hothers₂.keyOf (fun key hk => ?_) fun z x hx => .inl ?_, hothers₂⟩
      · rcases hleft with ⟨e, hwarning⟩ | hleft
        · -- the order says that its cleanup failed
          obtain ⟨order, zone, ho, -, hpayload, hzone, hname, hexternal⟩ := hjob
          have ho₁ : s₁.orders[job.orderId]? = some order := by
            rw [CertState.orders, hstore]
            exact ho
          have hissued := hrow order ho₁
          rw [hwarning] at hissued
          have hzone₂ : (s₁.persistIssuedCertificate p request).2.world.store.dnsZones[order.zoneId]? = some zone := by
            rw [hothers₂.zones]
            exact hzone
          have hkeyed₂ : OrdersKeyed (s₁.persistIssuedCertificate p request).2 :=
            ((hindex.quieter (.of_eq (congrArg (·.certificateOrders) hstore))).quieter (persist_quieter request)).keyed
          rw [keyOf_of_row hkeyed₂ hissued (keepsTrack_of_warning rfl) hzone₂, hname, hexternal, hpayload, ← hkey]
          exact .inl hk
        · rw [hremote]
          rw [hkey] at hk
          exact .inr fun x hx hmade => hleft key hk x hx hmade
      · rw [hremote] at hx
        exact hshrunk z x hx

end Turns

/-! ## Batches -/

section Batches

variable {p : Platform} {rows : RowOrder} {acme : AcmeServer} {net : Nat → Delivery} {n : Nat} {s : CertState}

/-- The turns of a loop leave every record accounted for. -/
theorem turns_accounted {busy : String} {turn : QueuedOrder → WorkerM Unit} {kept : QueuedOrder → CertState → Bool}
    (hturn : ∀ job s, UnderIndex s → s.Accounted n → JobStored busy s job → kept job s = true →
      (Fallible.run (workerHandler p rows acme net) (turn job) s).2.Accounted n ∧
        OthersKept job.orderId s (Fallible.run (workerHandler p rows acme net) (turn job) s).2)
    {jobs : List QueuedOrder} (hindex : UnderIndex s) (h : s.Accounted n) (hjobs : ∀ job ∈ jobs, JobStored busy s job)
    (hdistinct : jobs.Pairwise fun job job' => job.orderId ≠ job'.orderId)
    (hkept : turnsKept p rows acme net turn kept jobs s = true) :
    (Fallible.run (workerHandler p rows acme net) (jobs.forM turn) s).2.Accounted n := by
  induction jobs generalizing s with
  | nil => exact h
  | cons job jobs ih =>
    obtain ⟨hne, hrest⟩ := List.pairwise_cons.1 hdistinct
    rw [turnsKept, Bool.and_eq_true] at hkept
    obtain ⟨haccounted, hothers⟩ := hturn job s hindex h (hjobs job List.mem_cons_self) hkept.1
    have hindex' : UnderIndex (Fallible.run (workerHandler p rows acme net) (turn job) s).2 :=
      Prog.run_keeps (fun c s hs => hs.work c) _ hindex
    rw [run_forM_cons]
    rcases hout : Fallible.run (workerHandler p rows acme net) (turn job) s with ⟨e | u, s'⟩
    · rw [hout] at haccounted
      exact haccounted
    · rw [hout] at haccounted hothers hindex' hkept
      refine ih hindex' haccounted (fun job' hm => ?_) hrest hkept.2
      exact hothers.jobStored (hne job' hm).symm (hjobs job' (List.mem_cons_of_mem _ hm))

/-- A claimed row is stored with the payload and the zone of its job. -/
theorem jobStored_of_claimed (h : OrdersKeyed s) {before after : String} {limit : Nat} {job : QueuedOrder}
    (hjob : job ∈ (s.claimOrders rows before after limit).1) :
    JobStored after (s.claimOrders rows before after limit).2 job := by
  obtain ⟨order, hm, hclaim⟩ := List.mem_filterMap.1 hjob
  have hid := claimable_orderId hclaim
  have hstored := (stored_of_claimed h hm).1
  have hmem : job.orderId ∈ (s.claimOrders rows before after limit).2.orders := by
    rw [hid]
    exact mem_movedAll_of_mem (Std.ExtTreeMap.mem_iff_isSome_getElem?.2 (Option.isSome_of_eq_some hstored))
  obtain ⟨o', ho'⟩ := Option.isSome_iff_exists.1 (Std.ExtTreeMap.mem_iff_isSome_getElem?.1 hmem)
  have hstatus := status_of_job hjob ho'
  obtain ⟨o, ho, hmoved⟩ := mem_claimed h ho'
  rw [hid] at ho
  obtain rfl : order = o := Option.some.inj (hstored.symm.trans ho)
  have hsame : o'.challengePayload = order.challengePayload ∧ o'.zoneId = order.zoneId := by
    rcases hmoved with ⟨-, rfl⟩ | rfl
    · exact ⟨rfl, rfl⟩
    · exact ⟨rfl, rfl⟩
  unfold CertState.claimable at hclaim
  split at hclaim
  · simp only [Option.bind_eq_bind, Option.bind_eq_some_iff] at hclaim
    obtain ⟨certificateId, -, zone, hzone, provider, -, certificate, -, hjob⟩ := hclaim
    cases hjob
    obtain ⟨orders, he⟩ := movedAll_store after (s.claimed rows before limit) s.world.store
    refine ⟨o', zone, ho', hstatus, hsame.1, ?_, rfl, rfl⟩
    have hzones : (s.claimOrders rows before after limit).2.world.store.dnsZones = s.world.store.dnsZones := by
      show ((s.claimed rows before limit).foldl _ s.world.store).dnsZones = _
      rw [he]
    rw [hzones, hsame.2]
    exact hzone
  · cases hclaim

/-- A claim leaves every record accounted for. -/
theorem claim_accounted (h : s.Accounted n) (hkeyed : OrdersKeyed s) {before after : String}
    (hbefore : before ≠ "issued") (hafter : after ≠ "issued") (limit : Nat) :
    CertState.Accounted n (s.claimOrders rows before after limit).2 := by
  obtain ⟨orders, he⟩ := movedAll_store after (s.claimed rows before limit) s.world.store
  have hzones : (s.claimOrders rows before after limit).2.world.store.dnsZones = s.world.store.dnsZones := by
    show ((s.claimed rows before limit).foldl _ s.world.store).dnsZones = _
    rw [he]
  intro zoneId x hx hmade
  obtain ⟨htype, k, hk⟩ := h zoneId x hx hmade
  refine ⟨htype, k, ?_⟩
  -- a row that is moved was not issued and is not issued
  have hmem : k ∈ (s.claimOrders rows before after limit).2.orders := mem_movedAll_of_mem (mem_orders_of_keyOf hk)
  obtain ⟨o', ho'⟩ := Option.isSome_iff_exists.1 (Std.ExtTreeMap.mem_iff_isSome_getElem?.1 hmem)
  obtain ⟨o, ho, ⟨hstatus, rfl⟩ | rfl⟩ := mem_claimed hkeyed ho'
  · have htrack : o.keepsTrack = true := keepsTrack_of_ne (hstatus ▸ hbefore)
    have htrack' : (CertState.moved after o).keepsTrack = true := keepsTrack_of_ne hafter
    rw [keyOf_eq ho, if_pos htrack] at hk
    rw [keyOf_eq ho', if_pos htrack', hzones]
    exact hk
  · rw [keyOf_eq ho] at hk
    rw [keyOf_eq ho', hzones]
    exact hk

/-- A batch leaves every record accounted for. -/
theorem batch_accounted (hindex : UnderIndex s) (h : s.Accounted n) {before busy : String} (hbefore : before ≠ "issued")
    (hactive : isActiveRenewalOrderStatus before = true) (hbusy : busy ≠ "issued") (limit : Nat)
    {turn : QueuedOrder → WorkerM Unit} {kept : QueuedOrder → CertState → Bool}
    (hturn : ∀ job s, UnderIndex s → s.Accounted n → JobStored busy s job → kept job s = true →
      (Fallible.run (workerHandler p rows acme net) (turn job) s).2.Accounted n ∧
        OthersKept job.orderId s (Fallible.run (workerHandler p rows acme net) (turn job) s).2)
    (hkept : turnsKept p rows acme net turn kept (s.claimOrders rows before busy limit).1
      (s.claimOrders rows before busy limit).2 = true) :
    (Fallible.run (workerHandler p rows acme net) ((s.claimOrders rows before busy limit).1.forM turn)
      (s.claimOrders rows before busy limit).2).2.Accounted n :=
  turns_accounted hturn (hindex.quieter (claim_quieter hindex.keyed hactive limit))
    (claim_accounted h hindex.keyed hbefore hbusy limit) (fun _ => jobStored_of_claimed hindex.keyed)
    (claimed_distinct hindex.keyed before busy limit) hkept

/-- One request or batch leaves every record accounted for. -/
theorem serve_accounted (hindex : UnderIndex s) (h : s.Accounted n) {q : CertRequest}
    (hkept : recordsKept p rows acme net n s q = true) : (s.serve p rows acme net q).Accounted n := by
  have hloop : ∀ (jobs : List QueuedOrder) (s' : CertState) (turn : QueuedOrder → WorkerM Unit),
      (Fallible.run (workerHandler p rows acme net) (jobs.forM turn) s').2.Accounted n →
      (Fallible.run (workerHandler p rows acme net) (jobs.forM turn >>= fun _ => (pure jobs.length : WorkerM Nat))
        s').2.Accounted n := by
    intro jobs s' turn haccounted
    rw [run_bind]
    rcases hout : Fallible.run (workerHandler p rows acme net) (jobs.forM turn) s' with ⟨e | u, s''⟩
    · rw [hout] at haccounted
      exact haccounted
    · rw [hout] at haccounted
      exact haccounted
  cases q with
  | hub hub request =>
    cases request with
    | retryCertificateOrder k => exact requeue_accounted h hindex.keyed (.inl ⟨k, rfl, hkept⟩)
    | resetCertificateOrder k => exact requeue_accounted h hindex.keyed (.inr ⟨k, rfl, hkept⟩)
    | _ => cases hkept
  | enqueue now renewBefore limit acmeProvider => cases hkept
  | pending client limit =>
    rw [CertState.serve_worker _ _ _ _ _ fun _ _ e => by (cases e)]
    refine hloop _ _ _ ?_
    exact batch_accounted hindex h (by decide) (by decide) (by decide) limit
      (fun job s hindex h hjob hkept => pendingTurn_accounted hindex h hjob hkept) hkept
  | presented client limit =>
    rw [CertState.serve_worker _ _ _ _ _ fun _ _ e => by (cases e)]
    refine hloop _ _ _ ?_
    exact batch_accounted hindex h (by decide) (by decide) (by decide) limit
      (fun job s hindex h hjob hkept => presentedTurn_accounted hindex h hjob hkept) hkept

end Batches

/-- Over all tables that requests have left with every record accounted for: in every run of retries, resets and
batches of the worker that leave no record behind, an order accounts for every record made since. -/
theorem records_accounted (p : Platform) (rows : RowOrder) (acme : AcmeServer) (net : Nat → Delivery)
    (remote : RemoteDns)
    (setup : List CertRequest) {n : Nat} (h : ((CertState.init remote).serveAll p rows acme net setup).Accounted n)
    {qs pre : List CertRequest}
    (hqs : ((CertState.init remote).serveAll p rows acme net setup).Meets p rows acme net
      (fun s q => recordsKept p rows acme net n s q = true) qs) (hpre : pre <+: qs) :
    (((CertState.init remote).serveAll p rows acme net setup).serveAll p rows acme net pre).Accounted n := by
  have hindex : UnderIndex ((CertState.init remote).serveAll p rows acme net setup) :=
    (UnderIndex.init remote).serveAll setup
  refine (CertState.serveAll_keeps p rows acme net (I := fun s => UnderIndex s ∧ s.Accounted n) (fun s q hq hs => ?_)
    ⟨hindex, h⟩ hqs hpre).2
  exact ⟨hs.1.serve q, serve_accounted hs.1 hs.2 hq⟩

/-! ## One order -/

/-- A zone of Cloudflare, and an order for a name in it. -/
def cloudflareOrder : List CertRequest :=
  [.ask (.createDnsProvider {
    name := "cf", providerType := "cloudflare", apiEndpoint := none
    credentials := .object [("api_token", .string "secret")] }),
   .ask (.syncDnsZones { providerId := 0, zoneNames := ["example.com"] }),
   .ask (.createCertificateOrder {
    siteId := none, domain := some "www.example.com", sans := [], acmeProvider := "letsencrypt-production"
    challengeType := "dns-01", zoneId := 1 })]

/-- An ACME server that takes note of challenges, or refuses to. -/
def AcmeServer.noting (notes : Bool) : AcmeServer where
  newOrder _ _ := .ok {
    orderUrl := "order", authorizationUrl := "authorization", challengeUrl := "challenge", challengeToken := "token"
    identifier := "www.example.com", recordValue := "proof", finalizeUrl := "finalize" }
  acknowledge _ _ := if notes then .ok () else .error "refused"
  authorized _ _ := .ok ()
  issue n _ := .ok {
    notAfter := DateTime.seconds 7776000, certPem := "cert", keyPemEncrypted := "key", chainPem := none
    fingerprintSha256 := Nat.repr n }

/-- The tables with the order. -/
def cloudflareOrdered (notes : Bool) : CertState :=
  (CertState.init (.ofZones [])).serveAll .plain .plain (.noting notes) (fun _ => .done) cloudflareOrder

/-- The challenge is presented, and the certificate is issued. -/
theorem records_accounted_issued :
    ((cloudflareOrdered true).serveAll .plain .plain (.noting true) (fun _ => .done)
      [.pending .letsEncrypt 10, .presented .letsEncrypt 10]).Accounted (cloudflareOrdered true).remote.nextId :=
  records_accounted .plain .plain (.noting true) (fun _ => .done) (.ofZones []) cloudflareOrder (accounted_nextId _)
    (by decide +kernel) (List.prefix_refl _)

/-- The tables after a batch whose acknowledgement is refused. -/
def unnoted : CertState :=
  (cloudflareOrdered false).serveAll .plain .plain (.noting false) (fun _ => .done) [.pending .letsEncrypt 10]

/-- A record whose acknowledgement is refused stays, and no payload names it. -/
theorem refused_acknowledgement_leaks :
    (unnoted.remote.zone "noop-example.com").map (fun x => (x.recordType, x.name, x.content)) =
        [("TXT", "_acme-challenge.www.example.com", "proof")] ∧
      (∀ o ∈ unnoted.orders.values, (o.challengePayload.get "record_value").bind Value.asStr ≠ some "proof") ∧
      ¬ unnoted.Accounted (cloudflareOrdered false).remote.nextId := by
  obtain ⟨hzone, hunnoted, hmade, hnone⟩ : (unnoted.remote.zone "noop-example.com").map
        (fun x => (x.recordType, x.name, x.content)) = [("TXT", "_acme-challenge.www.example.com", "proof")] ∧
      (∀ o ∈ unnoted.orders.values, (o.challengePayload.get "record_value").bind Value.asStr ≠ some "proof") ∧
      (∀ x ∈ unnoted.remote.zone "noop-example.com", (cloudflareOrdered false).remote.nextId ≤ x.id) ∧
      (unnoted.orders.keys.any fun k => unnoted.keyOf k ==
        some ⟨"noop-example.com", "_acme-challenge.www.example.com", "proof"⟩) = false := by
    decide +kernel
  refine ⟨hzone, hunnoted, fun h => ?_⟩
  obtain ⟨x, hx, hsame⟩ := List.mem_map.1 (hzone ▸ List.mem_singleton.2 rfl :
    ("TXT", "_acme-challenge.www.example.com", "proof") ∈
      (unnoted.remote.zone "noop-example.com").map fun x => (x.recordType, x.name, x.content))
  obtain ⟨-, hrest⟩ := Prod.mk.inj hsame
  obtain ⟨hname, hvalue⟩ := Prod.mk.inj hrest
  obtain ⟨-, k, hk⟩ := h _ x hx (hmade x hx)
  rw [hname, hvalue] at hk
  refine List.any_eq_false.1 hnone k (Std.ExtTreeMap.mem_keys.2 (mem_orders_of_keyOf hk)) ?_
  rw [hk, beq_self_eq_true]

end PingoraMesh
