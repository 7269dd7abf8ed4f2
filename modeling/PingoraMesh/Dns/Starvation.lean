import PingoraMesh.Dns.Zones

/-!
# Renewals that wait

A pass of the worker takes the certificates that expire first, up to a limit, and only then looks for zones: a
certificate that no zone covers keeps its place before the others in every pass.

* `insertRenewalOrder_ok`, `enqueueLoop_places`: the loop places a renewal for each certificate that a zone covers, and
  for no other;
* `not_starved_iff`: a pass renews every certificate that it can, up to the limit, exactly if fewer than the limit are
  before each of them (`CertState.queue`);
* `uncovered_starves`: a certificate without a zone takes the only place of a pass.
-/

namespace PingoraMesh

open Calls Fallible

/-! ## Who waits -/

/-- The certificate expires soon, and no renewal of it is under way. -/
def CertState.due (threshold : DateTime) (s : CertState) (c : CertificateRecord) : Bool :=
  c.status == "active" && c.expiresAt.any (· ≤ threshold) &&
    !s.orders.values.any fun o => o.certificateId == some c.certificateId && o.activeRenewal

/-- The certificates that are due, in the order in which a pass asks for them. -/
def CertState.queue (rows : RowOrder) (threshold : DateTime) (s : CertState) : List CertificateRecord :=
  (rows.certificates s.world.tick (s.world.store.certificates.values.filter (s.due threshold))).insertionSort
    fun l r => l.expiresAt.getD 0 ≤ r.expiresAt.getD 0

/-- The certificates that are due and that some active zone covers. -/
def CertState.renewable (threshold : DateTime) (s : CertState) : List CertificateRecord :=
  s.world.store.certificates.values.filter fun c => s.due threshold c &&
    s.world.store.dnsZones.values.any fun zone => zone.status == "active" &&
      domainMatchesZone c.commonName zone.zoneName

/-- A renewal of the certificate is under way. -/
def CertState.UnderRenewal (s : CertState) (certificateId : Uuid) : Prop :=
  ∃ (k : Uuid) (o : CertificateOrderRecord), s.orders[k]? = some o ∧ o.activeRenewal = true ∧
    o.certificateId = some certificateId

/-- A renewal of the certificate is under way, under an identifier that was drawn. -/
def CertState.Renewed (s : CertState) (certificateId : Uuid) : Prop :=
  ∃ (k : Uuid) (o : CertificateOrderRecord), k < s.world.nextUuid ∧ s.orders[k]? = some o ∧ o.activeRenewal = true ∧
    o.certificateId = some certificateId

section Loop

variable {p : Platform} {rows : RowOrder} {acme : AcmeServer} {net : Nat → Delivery} {s : CertState}

theorem CertState.Renewed.underRenewal {id : Uuid} (h : s.Renewed id) : s.UnderRenewal id := by
  obtain ⟨k, o, -, ho, hactive, hid⟩ := h
  exact ⟨k, o, ho, hactive, hid⟩

theorem not_underRenewal_iff {id : Uuid} : ¬ s.UnderRenewal id ↔
    (s.orders.values.any fun o => o.certificateId == some id && o.activeRenewal) = false := by
  rw [List.any_eq_false]
  constructor
  · intro h o ho
    obtain ⟨k, hk⟩ := Maps.mem_values.1 ho
    rw [Bool.and_eq_true, beq_iff_eq]
    exact fun hactive => h ⟨k, o, hk, hactive.2, hactive.1⟩
  · rintro h ⟨k, o, ho, hactive, hid⟩
    refine h o (Maps.mem_values.2 ⟨k, ho⟩) ?_
    rw [hid, hactive]
    simp

/-- The insert for a stored certificate in a stored zone, if no renewal is under way, makes a row. -/
theorem insertRenewalOrder_ok {certificateId zoneId : Uuid} (hcertificate : certificateId ∈ s.world.store.certificates)
    (hzone : zoneId ∈ s.world.store.dnsZones) (hfree : ¬ s.UnderRenewal certificateId) (acmeProvider : String)
    (payload : Value) : ∃ now s', s.insertRenewalOrder p certificateId zoneId acmeProvider payload = (.ok true, s') ∧
      s'.world.store = s.world.store.saveCertificateOrder
        (CertState.renewalOrder s.world.nextUuid certificateId zoneId acmeProvider payload now) ∧
      s'.world.nextUuid = s.world.nextUuid + 1 := by
  have hindex : ∀ orders, orders = s.orders → indexRefuses orders
      (CertState.renewalOrder s.world.nextUuid certificateId zoneId acmeProvider payload
        (p.clock s.world.tick)) = false := by
    rintro _ rfl
    rw [indexRefuses, Bool.and_eq_false_iff]
    right
    rw [List.any_eq_false]
    intro o ho h
    obtain ⟨k, hk⟩ := Maps.mem_values.1 ho
    simp only [Bool.and_eq_true, beq_iff_eq] at h
    exact hfree ⟨k, o, hk, h.1.2, h.2⟩
  have hrefs : s.world.store.hasReferences
      (CertState.renewalOrder s.world.nextUuid certificateId zoneId acmeProvider payload
        (p.clock s.world.tick)) = true := by
    simp only [MemoryState.hasReferences, CertState.renewalOrder, Option.all_none, Option.all_some, Bool.true_and,
      Bool.and_eq_true]
    exact ⟨Std.ExtTreeMap.contains_iff_mem.2 hcertificate, Std.ExtTreeMap.contains_iff_mem.2 hzone⟩
  have hinsert : s.insertRenewalOrder p certificateId zoneId acmeProvider payload = (.ok true,
      CertState.onStore (·.saveCertificateOrder
        (CertState.renewalOrder s.world.nextUuid certificateId zoneId acmeProvider payload (p.clock s.world.tick)))
        { s with world := { s.world with nextUuid := s.world.nextUuid + 1, tick := s.world.tick + 1 } }) := by
    unfold CertState.insertRenewalOrder
    dsimp only
    rw [if_neg (by rw [hindex _ rfl]; simp), CertState.putOrder]
    dsimp only
    rw [hrefs, hindex _ rfl]
    rfl
  exact ⟨_, _, hinsert, rfl, rfl⟩

variable (p rows acme net) in
/-- The loop places a renewal for each certificate that a zone covers, and for no other. -/
theorem enqueueLoop_places {zones : List DnsZoneRecord} {certificates : List CertificateRecord}
    (hzones : ∀ zone ∈ zones, zone.zoneId ∈ s.world.store.dnsZones)
    (hcertificates : ∀ c ∈ certificates, c.certificateId ∈ s.world.store.certificates)
    (hfree : ∀ c ∈ certificates, ¬ s.UnderRenewal c.certificateId)
    (hdistinct : (certificates.map (·.certificateId)).Nodup) (acmeProvider : String) (created : Nat) :
    wp (batchSpec p rows acme net) (DnsWorker.enqueueLoop zones acmeProvider certificates created)
      (fun _ s' => (∀ c ∈ certificates, (enqueueZone zones c.commonName).isSome → s'.Renewed c.certificateId) ∧
        (∀ id, s.Renewed id → s'.Renewed id) ∧
        ∀ id, s'.UnderRenewal id → s.UnderRenewal id ∨ id ∈ certificates.map (·.certificateId))
      (fun _ _ => False) s := by
  induction certificates generalizing s created with
  | nil =>
    refine (wp_pure _).2 ⟨fun _ h => ?_, fun _ h => h, fun _ h => .inl h⟩
    cases h
  | cons certificate certificates ih =>
    rw [List.map_cons, List.nodup_cons] at hdistinct
    have hrest := fun c hc => hcertificates c (List.mem_cons_of_mem certificate hc)
    have hfreeRest := fun c hc => hfree c (List.mem_cons_of_mem certificate hc)
    unfold DnsWorker.enqueueLoop
    split
    · rename_i hnone
      refine wp_mono ?_ (fun _ _ h => h) (ih hzones hrest hfreeRest hdistinct.2 created)
      rintro _ s' ⟨hplaced, hkept, honly⟩
      refine ⟨fun c hc hzone => ?_, hkept, fun id h => (honly id h).imp_right (List.mem_cons_of_mem _)⟩
      rcases List.mem_cons.1 hc with rfl | hc
      · rw [hnone] at hzone
        cases hzone
      · exact hplaced c hc hzone
    · rename_i zone hzone
      have hmem := (List.mem_filter.1 (mem_of_maxBy hzone)).1
      simp only [work, wp_bind, wp_call_alone, wp_attempt]
      refine ⟨trivial, fun _ => ⟨trivial, fun _ => ?_⟩⟩
      obtain ⟨now, s', hinsert, hstore, huuid⟩ := insertRenewalOrder_ok (p := p)
        (s := (workerHandler p rows acme net .newUuid s).2) (hcertificates certificate List.mem_cons_self)
        (hzones zone hmem) (hfree certificate List.mem_cons_self) acmeProvider
        (renewalPayload zone.zoneName certificate.commonName certificate.sans
          (workerHandler p rows acme net .newUuid s).1)
      rw [workerHandler, hinsert]
      refine ⟨fun inserted _ => ?_, fun e he => by cases he⟩
      have hrows : s'.orders = s.orders.insert (s.world.nextUuid + 1) (CertState.renewalOrder (s.world.nextUuid + 1)
          certificate.certificateId zone.zoneId acmeProvider
          (renewalPayload zone.zoneName certificate.commonName certificate.sans s.world.nextUuid) now) :=
        congrArg (·.certificateOrders) hstore
      have huuid : s'.world.nextUuid = s.world.nextUuid + 1 + 1 := huuid
      -- of the others, none is under renewal yet
      have hback : ∀ id, s'.UnderRenewal id → s.UnderRenewal id ∨ id = certificate.certificateId := by
        rintro id ⟨k, o, ho, hactive, hid⟩
        rw [hrows] at ho
        rcases Maps.getElem?_insert_eq_some ho with ⟨-, rfl⟩ | ⟨-, ho⟩
        · exact .inr (Option.some.inj hid).symm
        · exact .inl ⟨k, o, ho, hactive, hid⟩
      have hkeep : ∀ id, s.Renewed id → s'.Renewed id := by
        rintro id ⟨k, o, hk, ho, hactive, hid⟩
        refine ⟨k, o, ?_, ?_, hactive, hid⟩
        · rw [huuid]
          exact Nat.lt_succ_of_lt (Nat.lt_succ_of_lt hk)
        · rw [hrows, Std.ExtTreeMap.getElem?_insert, if_neg, ho]
          rw [Std.compare_eq_iff_eq]
          rintro rfl
          exact Nat.lt_irrefl _ (Nat.lt_of_succ_lt hk)
      have hnew : s'.Renewed certificate.certificateId := by
        refine ⟨s.world.nextUuid + 1, CertState.renewalOrder
          (s.world.nextUuid + 1) certificate.certificateId zone.zoneId
          acmeProvider (renewalPayload zone.zoneName certificate.commonName certificate.sans s.world.nextUuid) now, ?_,
            ?_,
          rfl, rfl⟩
        · rw [huuid]
          exact Nat.lt_succ_self _
        · rw [hrows]
          exact Std.ExtTreeMap.getElem?_insert_self
      refine wp_mono ?_ (fun _ _ h => h) (ih (fun z hz => ?_) (fun c hc => ?_) (fun c hc h => ?_) hdistinct.2 _)
      · rintro _ s'' ⟨hplaced, hkept, honly⟩
        refine ⟨fun c hc hz => ?_, fun id h => hkept id (hkeep id h), fun id h => ?_⟩
        · rcases List.mem_cons.1 hc with rfl | hc
          · exact hkept _ hnew
          · exact hplaced c hc hz
        · rcases honly id h with h | h
          · rcases hback id h with h | rfl
            · exact .inl h
            · exact .inr List.mem_cons_self
          · exact .inr (List.mem_cons_of_mem _ h)
      · rw [hstore]
        exact hzones z hz
      · rw [hstore]
        exact hrest c hc
      · rcases hback _ h with h | h
        · exact hfreeRest c hc h
        · exact hdistinct.1 (h ▸ List.mem_map_of_mem hc)

/-! ## A pass -/

/-- A pass takes the first certificates of the queue. -/
theorem dueCertificates_eq_take (rows : RowOrder) (threshold : DateTime) (limit : Nat) (s : CertState) :
    s.dueCertificates rows threshold limit = (s.queue rows threshold).take limit := rfl

theorem mem_queue {threshold : DateTime} {c : CertificateRecord} :
    c ∈ s.queue rows threshold ↔ c ∈ s.world.store.certificates.values ∧ s.due threshold c = true := by
  rw [CertState.queue, (List.perm_insertionSort _ _).mem_iff, (rows.certificates_perm _ _).mem_iff, List.mem_filter]

theorem not_underRenewal_of_due {threshold : DateTime} {c : CertificateRecord} (h : s.due threshold c = true) :
    ¬ s.UnderRenewal c.certificateId := by
  rw [not_underRenewal_iff]
  simpa using (Bool.and_eq_true_iff.1 h).2

/-- The certificates of a pass are different. -/
theorem dueCertificates_distinct (h : Filed s) (threshold : DateTime) (limit : Nat) :
    ((s.dueCertificates rows threshold limit).map (·.certificateId)).Nodup := by
  have hvalues := Maps.map_values_nodup h.certificates
  have hfiltered := hvalues.sublist ((List.filter_sublist (p := s.due threshold)).map (·.certificateId))
  have hqueue : ((s.queue rows threshold).map (·.certificateId)).Nodup :=
    (((List.perm_insertionSort _ _).trans (rows.certificates_perm _ _)).map _).nodup_iff.2 hfiltered
  exact hqueue.sublist ((List.take_sublist limit _).map _)

variable (p rows acme net) in
/-- What is under way after a pass. -/
theorem enqueue_places (h : Filed s) (now renewBefore : DateTime) (limit : Nat) (acmeProvider : String) :
    wp (batchSpec p rows acme net) (DnsWorker.enqueueDueRenewalOrders now renewBefore limit acmeProvider)
      (fun _ s' => (∀ c ∈ s.dueCertificates rows (now + renewBefore) limit, c ∈ s.renewable (now + renewBefore) →
          s'.UnderRenewal c.certificateId) ∧
        ∀ id, s'.UnderRenewal id → s.UnderRenewal id ∨
          id ∈ (s.dueCertificates rows (now + renewBefore) limit).map (·.certificateId))
      (fun _ _ => False) s := by
  have hdue : ∀ c ∈ s.dueCertificates rows (now + renewBefore) limit, ¬ s.UnderRenewal c.certificateId := fun c hc =>
    not_underRenewal_of_due (mem_queue.1 (List.mem_of_mem_take hc)).2
  simp only [DnsWorker.enqueueDueRenewalOrders, work, wp_bind, wp_call_alone]
  refine ⟨trivial, fun _ => ?_⟩
  split
  · rename_i hempty
    have hempty : s.dueCertificates rows (now + renewBefore) limit = [] := List.isEmpty_iff.1 hempty
    refine (wp_pure _).2 ⟨fun c hc => ?_, fun id hid => .inl hid⟩
    rw [hempty] at hc
    cases hc
  · simp only [wp_bind, wp_call_alone]
    refine ⟨trivial, fun _ => ?_⟩
    refine wp_mono ?_ (fun _ _ h => h)
      (enqueueLoop_places p rows acme net (s := s.ticked.ticked) ?_ ?_ hdue
        (dueCertificates_distinct h _ _) acmeProvider 0)
    · rintro _ s' ⟨hplaced, -, honly⟩
      refine ⟨fun c hc hrenewable => (hplaced c hc ?_).underRenewal, honly⟩
      obtain ⟨-, hcovered⟩ := Bool.and_eq_true_iff.1 (List.mem_filter.1 hrenewable).2
      obtain ⟨zone, hzone, hcovers⟩ := List.any_eq_true.1 hcovered
      obtain ⟨hactive, hmatches⟩ := Bool.and_eq_true_iff.1 hcovers
      have hmem : zone ∈ rows.zones s.ticked.world.tick
          (s.world.store.dnsZones.values.filter fun z => z.status == "active") :=
        (rows.zones_perm _ _).mem_iff.2 (List.mem_filter.2 ⟨hzone, hactive⟩)
      exact maxBy_isSome (List.mem_filter.2 ⟨hmem, hmatches⟩)
    · intro zone hz
      exact Std.ExtTreeMap.mem_iff_isSome_getElem?.2 (Option.isSome_of_eq_some (stored_of_active h hz))
    · intro c hc
      exact Std.ExtTreeMap.mem_iff_isSome_getElem?.2 (Option.isSome_of_eq_some (stored_of_due h hc))

end Loop

/-- A pass that ends well has placed a renewal for each certificate that it could renew, if they are within the limit.
-/
def NotStarved (p : Platform) (rows : RowOrder) (acme : AcmeServer) (net : Nat → Delivery) (s : CertState)
    (now renewBefore : DateTime) (limit : Nat) (acmeProvider : String) : Prop :=
  let pass := Fallible.run (workerHandler p rows acme net)
    (DnsWorker.enqueueDueRenewalOrders now renewBefore limit acmeProvider) s
  (s.renewable (now + renewBefore)).length ≤ limit → pass.1.isOk = true →
    ∀ c ∈ s.renewable (now + renewBefore), pass.2.UnderRenewal c.certificateId

/-- Fewer than the limit are before each certificate that could be renewed, if those are within the limit. -/
def InReach (rows : RowOrder) (s : CertState) (threshold : DateTime) (limit : Nat) : Prop :=
  (s.renewable threshold).length ≤ limit → ∀ c ∈ s.renewable threshold, (s.queue rows threshold).idxOf c < limit

instance (rows : RowOrder) (s : CertState) (threshold : DateTime) (limit : Nat) :
    Decidable (InReach rows s threshold limit) :=
  inferInstanceAs (Decidable (_ → ∀ c ∈ s.renewable threshold, _))

/-- **Renewals do not starve** in a pass exactly if each certificate that could be renewed is within its reach. -/
theorem not_starved_iff (p : Platform) (rows : RowOrder) (acme : AcmeServer) (net : Nat → Delivery) (s : CertState)
    (h : Filed s) (now renewBefore : DateTime) (limit : Nat) (acmeProvider : String) :
    NotStarved p rows acme net s now renewBefore limit acmeProvider ↔ InReach rows s (now + renewBefore) limit := by
  have hpass := (wp_run (fun _ _ _ _ => trivial) trivial
    (enqueue_places p rows acme net h now renewBefore limit acmeProvider)).1
  have hqueue : ∀ c ∈ s.renewable (now + renewBefore), c ∈ s.queue rows (now + renewBefore) := fun c hc =>
    mem_queue.2 ⟨(List.mem_filter.1 hc).1, (Bool.and_eq_true_iff.1 (List.mem_filter.1 hc).2).1⟩
  unfold NotStarved InReach
  cases hr : (Fallible.run (workerHandler p rows acme net)
      (DnsWorker.enqueueDueRenewalOrders now renewBefore limit acmeProvider) s).1 with
  | error e =>
    rw [hr] at hpass
    exact hpass.elim
  | ok n =>
    rw [hr] at hpass
    obtain ⟨hplaced, honly⟩ := hpass
    constructor
    · intro hrenews hcount c hc
      rw [← List.mem_take_iff_idxOf_lt (hqueue c hc), ← dueCertificates_eq_take]
      have hdue := (mem_queue.1 (hqueue c hc)).2
      rcases honly _ (hrenews hcount (by rw [hr]; rfl) c hc) with hold | hmem
      · exact absurd hold (not_underRenewal_of_due hdue)
      · -- certificates are stored under their identifiers
        obtain ⟨c', hc', hid⟩ := List.mem_map.1 hmem
        have hsame := stored_of_due h hc'
        obtain ⟨k, hk⟩ := Maps.mem_values.1 (List.mem_filter.1 hc).1
        rw [hid, h.certificates k c hk, hk] at hsame
        cases hsame
        exact hc'
    · intro hreach _ hcount _ c hc
      refine hplaced c ?_ hc
      rw [dueCertificates_eq_take, List.mem_take_iff_idxOf_lt (hqueue c hc)]
      exact hreach hcount c hc

/-! ## Two certificates that expire -/

/-- Certificates for names in two zones. -/
def twoCertificates : List CertRequest :=
  let order (domain : String) (zoneId : Uuid) : CertRequest := .ask (.createCertificateOrder {
    siteId := none, domain := some domain, sans := [], acmeProvider := "letsencrypt-production"
    challengeType := "dns-01", zoneId := zoneId })
  [.ask (.createDnsProvider { name := "noop", providerType := "noop", apiEndpoint := none, credentials := .object [] }),
   .ask (.syncDnsZones { providerId := 0, zoneNames := ["example.net", "example.com"] }),
   order "www.example.net" 1, order "www.example.com" 2, .pending .mock 10, .presented .mock 10]

/-- They are issued, and the state of the first zone is set. -/
def secondRenewable (enabled : Bool) : CertState :=
  (CertState.init (.ofZones [])).serveAll .plain .plain .issuing (fun _ => .done)
    (twoCertificates ++ [CertRequest.ask (.updateDnsZoneStatus 1 enabled)])

theorem secondRenewable_filed (enabled : Bool) : Filed (secondRenewable enabled) :=
  (Filed.init _).serveAll _

/-- A pass over two places renews both. -/
theorem not_starved_two :
    NotStarved .plain .plain .issuing (fun _ => .done) (secondRenewable true) (DateTime.seconds 7000000)
      (DateTime.seconds 2592000) 2 "letsencrypt-production" :=
  (not_starved_iff .plain .plain .issuing (fun _ => .done) _ (secondRenewable_filed true) (DateTime.seconds 7000000)
    (DateTime.seconds 2592000) 2 "letsencrypt-production").2 (by decide +kernel)

instance (s : CertState) (certificateId : Uuid) : Decidable (s.UnderRenewal certificateId) :=
  decidable_of_iff ((s.orders.values.any fun o => o.certificateId == some certificateId && o.activeRenewal) = true) (by
    rw [← not_iff_not, not_underRenewal_iff, Bool.not_eq_true])

/-- With the first zone disabled, the first certificate takes the only place of a pass, and the second one is not
renewed. -/
theorem uncovered_starves :
    ¬ NotStarved .plain .plain .issuing (fun _ => .done) (secondRenewable false) (DateTime.seconds 7000000)
      (DateTime.seconds 2592000) 1 "letsencrypt-production" := by
  unfold NotStarved
  decide +kernel

end PingoraMesh
