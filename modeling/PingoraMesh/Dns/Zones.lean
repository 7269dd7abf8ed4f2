import PingoraMesh.Dns.Effects

/-!
# Orders and the zones they are placed in

A certificate order names a certificate and a zone; the dns-worker has the common name of the certificate issued, with a
challenge in that zone. `create_certificate_order` checks the name against the zone, and `enqueue_due_renewal_orders`
takes the zone for the common name of the certificate; `renew_site_certificate` takes it for the domain that the site
has now, and renews the certificate that the site has had issued before.

* `wellPlaced` is what holds of an order when it is placed: its zone covers the common name of its certificate, and its
  challenge is for that name;
* `orders_well_placed`: in every run in which no certificate is renewed for a site whose domain is another name
  (`renewsOther`), every new order is well placed;
* `moved_site_renewed_elsewhere`: a site that has moved to another zone renews its old certificate in the new zone.
-/

namespace PingoraMesh

open Calls Fallible HubService

/-! ## What holds of a new order -/

/-- The zone of an order covers the common name of its certificate, and its challenge is for that name. -/
def wellPlaced (s : CertState) (order : CertificateOrderRecord) : Bool :=
  match order.certificateId.bind fun id => s.world.store.certificates[id]?, s.world.store.dnsZones[order.zoneId]? with
  | some certificate, some zone =>
    domainMatchesZone certificate.commonName zone.zoneName &&
      (order.challengePayload.get "identifier").bind Value.asStr == some certificate.commonName &&
      (order.challengePayload.get "record_name").bind Value.asStr == some (dns01RecordName certificate.commonName)
  | _, _ => false

/-- The orders that are new in the second tables are well placed there. -/
def NewPlaced (s s' : CertState) : Prop :=
  ∀ (k : Uuid) (order : CertificateOrderRecord), s'.orders[k]? = some order → s.orders[k]? = none → wellPlaced s' order

/-- The second tables have no new order. -/
def NoNew (s s' : CertState) : Prop := ∀ k : Uuid, s.orders[k]? = none → s'.orders[k]? = none

/-- Orders, certificates and zones under their identifiers. -/
structure Filed (s : CertState) : Prop where
  orders : OrdersKeyed s
  certificates : ∀ (k : Uuid) (c : CertificateRecord), s.world.store.certificates[k]? = some c → c.certificateId = k
  zones : ∀ (k : Uuid) (z : DnsZoneRecord), s.world.store.dnsZones[k]? = some z → z.zoneId = k

section New

variable {s s' s'' : CertState} {order : CertificateOrderRecord}

theorem wellPlaced_of {certificateId : Uuid} {certificate : CertificateRecord} {zone : DnsZoneRecord}
    (hid : order.certificateId = some certificateId) (hcert : s.world.store.certificates[certificateId]? =
      some certificate)
    (hzone : s.world.store.dnsZones[order.zoneId]? = some zone)
    (hcovered : domainMatchesZone certificate.commonName zone.zoneName = true)
    (hidentifier : order.challengePayload.get "identifier" = some (.string certificate.commonName))
    (hrecord : order.challengePayload.get "record_name" = some (.string (dns01RecordName certificate.commonName))) :
    wellPlaced s order = true := by
  simp [wellPlaced, hid, hcert, hzone, hcovered, hidentifier, hrecord, Value.asStr]

/-- Only the tables of certificates and zones matter. -/
theorem wellPlaced_congr (hcerts : s'.world.store.certificates = s.world.store.certificates)
    (hzones : s'.world.store.dnsZones = s.world.store.dnsZones) : wellPlaced s' order = wellPlaced s order := by
  unfold wellPlaced
  rw [hcerts, hzones]

theorem NoNew.placed (h : NoNew s s') : NewPlaced s s' := by
  intro k order ho hn
  rw [h k hn] at ho
  cases ho

/-- Orders that come from orders are not new. -/
theorem NoNew.of_rows (h : NoNew s s')
    (hrows : ∀ (k : Uuid) (o' : CertificateOrderRecord), s''.orders[k]? = some o' → ∃ o, s'.orders[k]? = some o) :
    NoNew s s'' := by
  intro k hk
  cases ho : s''.orders[k]? with
  | none => rfl
  | some o' =>
    obtain ⟨o, ho'⟩ := hrows k o' ho
    rw [h k hk] at ho'
    cases ho'

/-- A well placed order is stored. -/
theorem NewPlaced.save (h : NewPlaced s s') (horder : order.orderId ∈ s.orders ∨ wellPlaced s' order) :
    NewPlaced s (s'.onStore (·.saveCertificateOrder order)) := by
  intro k o ho hn
  change wellPlaced s' o = true
  rcases Maps.getElem?_insert_eq_some ho with ⟨rfl, rfl⟩ | ⟨-, hold⟩
  · rcases horder with hmem | hplaced
    · rw [Std.ExtTreeMap.mem_iff_isSome_getElem?, hn] at hmem
      cases hmem
    · exact hplaced
  · exact h k o hold hn

/-- Other changes to the orders bring none and leave what they were placed with. -/
theorem NewPlaced.keep (h : NewPlaced s s') (horders : s''.orders = s'.orders)
    (hcerts : s''.world.store.certificates = s'.world.store.certificates)
    (hzones : s''.world.store.dnsZones = s'.world.store.dnsZones) : NewPlaced s s'' := by
  intro k o ho hn
  rw [wellPlaced_congr hcerts hzones]
  rw [horders] at ho
  exact h k o ho hn

end New

/-! ## Statements of the hub -/

/-- An order that the hub saves is known or well placed; certificates and zones change before the orders. -/
def PlaceOk (s₀ : CertState) (c : HubCall) (s : CertState) : Prop :=
  match c with
  | .saveCertificateOrder order => order.orderId ∈ s₀.orders ∨ wellPlaced s order
  | c => c.effect = some .certificate ∨ c.effect = some .dns → NoNew s₀ s

section Hub

variable {p : Platform} {rows : RowOrder} {s₀ s : CertState} {c : HubCall}

/-- Orders lose a site that is deleted. -/
theorem deleteSite_rows {siteId k : Uuid} {o' : CertificateOrderRecord}
    (h : (certHubHandler p rows (.deleteSite siteId) s).2.orders[k]? = some o') :
    ∃ o, s.orders[k]? = some o ∧ ∃ site, (∀ x, site = some x → o.siteId = some x) ∧ o' = { o with siteId := site } := by
  simp only [certHubHandler, CertState.onStore, CertState.orders, MemoryState.deleteSite] at h
  split at h
  · exact ⟨o', h, o'.siteId, fun _ hx => hx, rfl⟩
  · obtain ⟨o, ho, rfl⟩ := Maps.getElem?_map_eq_some h
    refine ⟨o, ho, ?_⟩
    split
    · exact ⟨none, fun _ hx => (by cases hx), rfl⟩
    · exact ⟨o.siteId, fun _ hx => hx, rfl⟩

/-- A call of the hub places no order that is not well placed. -/
theorem NewPlaced.call (h : NewPlaced s₀ s) (hc : PlaceOk s₀ c s) : NewPlaced s₀ (certHubHandler p rows c s).2 := by
  by_cases htables : c.effect = some .certificate ∨ c.effect = some .dns
  · -- certificates and zones: there is no new order yet
    have horders : (certHubHandler p rows c s).2.orders = s.orders := by
      rcases htables with he | he <;> exact orders_of_effect (by rw [he]; simp) (by rw [he]; simp)
    have hno : NoNew s₀ s := by
      cases c with
      | saveCertificateOrder order => rcases htables with he | he <;> cases he
      | _ => exact hc htables
    refine NoNew.placed fun k hk => ?_
    rw [horders]
    exact hno k hk
  · rw [not_or] at htables
    have hcerts : (certHubHandler p rows c s).2.world.store.certificates = s.world.store.certificates :=
      certificates_of_effect htables.1
    have hzones : (certHubHandler p rows c s).2.world.store.dnsZones = s.world.store.dnsZones :=
      zones_of_effect htables.2
    by_cases hsave : c.effect = some .certificateOrder
    · cases c with
      | saveCertificateOrder order =>
        rcases saveOrder_cases p rows order with ⟨-, -, he⟩ | he
        · rw [he]
          exact h.save hc
        · rw [he]
          exact h
      | _ => cases hsave
    · by_cases hdelete : c.effect = some .deleteSite
      · cases c with
        | deleteSite siteId =>
          intro k o' ho' hn
          obtain ⟨o, ho, site, -, rfl⟩ := deleteSite_rows ho'
          rw [wellPlaced_congr hcerts hzones]
          exact h k o ho hn
        | _ => cases hdelete
      · exact h.keep (orders_of_effect hsave hdelete) hcerts hzones

/-- A call that saves no order brings none. -/
theorem NoNew.call (h : NoNew s₀ s) (hc : c.effect ≠ some .certificateOrder) :
    NoNew s₀ (certHubHandler p rows c s).2 := by
  by_cases hdelete : c.effect = some .deleteSite
  · cases c with
    | deleteSite siteId =>
      refine h.of_rows fun k o' ho' => ?_
      obtain ⟨o, ho, -⟩ := deleteSite_rows ho'
      exact ⟨o, ho⟩
    | _ => cases hdelete
  · intro k hk
    rw [orders_of_effect hc hdelete]
    exact h k hk

/-- The hub over the tables, with nothing new but what is well placed. -/
abbrev placeSpec (p : Platform) (rows : RowOrder) (s₀ : CertState) : Spec hubSig CertState :=
  answered (.alone (certHubHandler p rows) (PlaceOk s₀) (NewPlaced s₀))

/-- The certificate of an order has the name of the order. -/
theorem orderCertificate_placed (hno : NoNew s₀ s) {commonName : String} {certificateId : Option Uuid}
    (hcert : ∀ id, certificateId = some id →
      ∃ certificate, s.world.store.certificates[id]? = some certificate ∧ certificate.commonName = commonName)
    (sans : List String) :
    wp (placeSpec p rows s₀) (orderCertificate certificateId commonName sans)
      (fun id s' => (∃ certificate, s'.world.store.certificates[id]? = some certificate ∧
        certificate.commonName = commonName) ∧ s'.world.store.dnsZones = s.world.store.dnsZones ∧ NoNew s₀ s')
      (fun _ _ => True) s := by
  rw [orderCertificate, wp_getOr]
  refine ⟨fun id hid => ⟨hcert id hid, rfl, hno⟩, fun _ => ?_⟩
  simp only [repo, wp_bind, wp_call_answered, wp_pure]
  refine ⟨fun _ => hno, fun id _ _ => ⟨fun _ => hno, fun code _ _ => ⟨fun _ => hno, fun stub _ _ => ⟨fun _ => hno,
    fun now _ _ => ⟨fun _ => hno, fun _ _ _ => ⟨?_, rfl, hno⟩⟩⟩⟩⟩⟩
  refine ⟨_, Std.ExtTreeMap.getElem?_insert_self, ?_⟩
  rfl

/-- An order is placed in a zone that covers the name, for a certificate with that name or a new one. -/
theorem issueCertificateOrder_placed (hno : NoNew s₀ s) {zoneId : Uuid} {zone : DnsZoneRecord} {commonName : String}
    {certificateId : Option Uuid} (hzone : s.world.store.dnsZones[zoneId]? = some zone)
    (hcovered : domainMatchesZone commonName zone.zoneName = true)
    (hcert : ∀ id, certificateId = some id →
      ∃ certificate, s.world.store.certificates[id]? = some certificate ∧ certificate.commonName = commonName)
    (siteId : Option Uuid) (sans : List String) (zoneName acmeProvider orderType : String) :
    wp (placeSpec p rows s₀)
      (issueCertificateOrder siteId certificateId commonName sans zoneId zoneName acmeProvider orderType)
      (fun _ _ => True) (fun _ _ => True) s := by
  rw [issueCertificateOrder, wp_bind]
  refine wp_mono (fun id s' hs => ?_) (fun _ _ _ => trivial) (orderCertificate_placed hno hcert sans)
  obtain ⟨⟨certificate, hcertificate, rfl⟩, hzones, hno⟩ := hs
  rw [← hzones] at hzone
  simp only [repo, wp_bind, wp_call_answered, wp_pure, implies_true, and_true]
  refine ⟨fun _ => hno, fun token _ _ => ⟨fun _ => hno, fun orderId _ _ => ⟨fun _ => hno, fun now _ _ => .inr ?_⟩⟩⟩
  exact wellPlaced_of rfl hcertificate hzone hcovered rfl rfl

theorem createCertificateOrder_placed (hno : NoNew s₀ s) (request : CreateCertificateOrderRequest) :
    wp (placeSpec p rows s₀) (createCertificateOrder request) (fun _ _ => True) (fun _ _ => True) s := by
  have hsite : wp (placeSpec p rows s₀) (requestedSite request.siteId) (fun _ s' => s' = s) (fun _ _ => True) s := by
    cases request.siteId with
    | none => exact (wp_pure _).2 rfl
    | some id =>
      simp only [requestedSite, repo, wp_bind, wp_call_answered, wp_okOr, wp_pure, implies_true, and_true]
      exact ⟨fun _ => hno, fun _ _ _ _ _ => rfl⟩
  simp only [createCertificateOrder, wp_bind, wp_ensure, implies_true, and_true]
  refine fun _ => wp_mono ?_ (fun _ _ _ => trivial) hsite
  rintro site _ rfl
  simp only [repo, wp_call_answered, wp_okOr, wp_attempt, implies_true, and_true]
  refine fun domain _ commonName _ sans _ _ => ⟨fun _ => hno, fun found hfound _ zone hzone _ hcovered => ?_⟩
  cases hfound
  exact issueCertificateOrder_placed hno hzone hcovered (fun _ e => by (cases e)) _ _ _ _ _

/-- The certificate of a site that would be renewed has another name than the site. -/
def renewsOther (s : CertState) (siteId : Uuid) : Bool :=
  match s.world.store.sites[siteId]?, (s.siteCertificates siteId).head? with
  | some site, some certificate =>
    site.tlsEnabled && site.protocol == .https &&
      !s.orders.values.any (activeOrderOf siteId (some certificate.certificateId)) &&
      match normalizeCertificateIdentifier site.domain with
      | .ok name =>
        name != certificate.commonName && s.world.store.dnsZones.values.any fun zone =>
          zone.status == "active" && domainMatchesZone name zone.zoneName
      | .error _ => false
  | _, _ => false

/-- The certificates of a site are stored. -/
theorem stored_of_siteCertificates {siteId : Uuid} {ref : CertificateRef} (h : ref ∈ s.siteCertificates siteId) :
    ∃ certificate, s.world.store.certificates[ref.certificateId]? = some certificate ∧
      certificate.commonName = ref.commonName := by
  obtain ⟨b, -, hb⟩ := List.mem_filterMap.1 h
  simp only [CertState.certificateRef, Option.bind_eq_bind, Option.bind_eq_some_iff] at hb
  obtain ⟨certificate, hcertificate, version, -, href⟩ := hb
  cases href
  exact ⟨certificate, hcertificate, rfl⟩

/-- A renewal is placed in a zone of the name of the site, which is that of its certificate. -/
theorem renewSiteCertificate_placed (h : Filed s) (hno : NoNew s₀ s) {siteId : Uuid}
    (hname : renewsOther s siteId = false) :
    wp (placeSpec p rows s₀) (renewSiteCertificate siteId) (fun _ _ => True) (fun _ _ => True) s := by
  simp only [renewSiteCertificate, repo, wp_bind, wp_call_answered, wp_okOr, wp_ensure, wp_forSome,
    wp_throw, wp_attempt, wp_pure, implies_true, and_true, true_and]
  refine ⟨fun _ => hno, fun found hfound _ site hsite htls => ⟨fun _ => hno, fun certificates hcertificates _ =>
    ⟨fun _ => hno, fun orders horders _ hnone commonName hcommon => ⟨fun _ => hno,
      fun zones hzones _ zone hzone => ?_⟩⟩⟩⟩
  cases hfound
  cases hcertificates
  cases horders
  cases hzones
  have hmem := (List.mem_filter.1 (mem_of_maxBy hzone))
  have hstored : zone ∈ s.world.store.dnsZones.values := by
    have hlisted := (List.perm_insertionSort _ _).mem_iff.1 hmem.1
    exact (rows.zones_perm _ _).mem_iff.1 hlisted
  obtain ⟨k, hk⟩ := Maps.mem_values.1 hstored
  have hkey := h.zones k zone hk
  have hcovered := (Bool.and_eq_true_iff.1 hmem.2).2
  refine issueCertificateOrder_placed hno (hkey ▸ hk) hcovered (fun id hid => ?_) _ _ _ _ _
  obtain ⟨ref, href, rfl⟩ := Option.map_eq_some_iff.1 hid
  obtain ⟨certificate, hcertificate, hcn⟩ := stored_of_siteCertificates (List.mem_of_head? href)
  refine ⟨certificate, hcertificate, hcn.trans ?_⟩
  -- otherwise the request is the one that is ruled out
  by_contra hne
  have hsite : s.world.store.sites[siteId]? = some site := hsite
  have href : (s.siteCertificates siteId).head? = some ref := href
  have hquiet : s.orders.values.any (activeOrderOf siteId (some ref.certificateId)) = false := by
    refine List.any_eq_false.2 fun o ho => ?_
    obtain ⟨k, hk⟩ := Maps.mem_values.1 ho
    have hlisted := List.find?_eq_none.1 hnone _ (mem_listed hk)
    rw [hid] at hlisted
    exact hlisted
  have hzone : (s.world.store.dnsZones.values.any fun zone =>
      zone.status == "active" && domainMatchesZone commonName zone.zoneName) = true :=
    List.any_eq_true.2 ⟨zone, hstored, hmem.2⟩
  have hother : renewsOther s siteId = true := by
    simp only [renewsOther, hsite, href, htls, hquiet, hcommon, hzone, Bool.not_false, Bool.true_and, Bool.and_true,
      bne_iff_ne]
    exact fun e => hne e.symm
  rw [hname] at hother
  cases hother

/-- An order that comes back is known. -/
theorem requeueCertificateOrder_placed (h : Filed s₀) {k : Uuid} {o : CertificateOrderRecord}
    (ho : s₀.orders[k]? = some o) (renewBeforeDays : Int) (action : String) :
    wp (placeSpec p rows s₀) (requeueCertificateOrder renewBeforeDays (s₀.joined o) action) (fun _ _ => True)
      (fun _ _ => True) s₀ := by
  simp only [requeueCertificateOrder, repo, wp_bind, wp_call_answered, wp_ensure, wp_pure, implies_true, and_true]
  refine fun _ => .inl ?_
  change o.orderId ∈ s₀.orders
  rw [h.orders k o ho]
  exact Std.ExtTreeMap.mem_iff_isSome_getElem?.2 (Option.isSome_of_eq_some ho)

/-- A request that does not renew the certificate of another name. -/
def renewsNamed (s : CertState) : CertRequest → Bool
  | .hub _ (.renewSiteCertificate siteId) => !renewsOther s siteId
  | _ => true

/-- A request of the hub places orders well. -/
theorem program_placed (h : Filed s₀) (hub : Hub) (request : Request)
    (hname : renewsNamed s₀ (.hub hub request) = true) :
    NewPlaced s₀ (Fallible.run (certHubHandler p rows) (certRequest p hub request) s₀).2 := by
  have hself : NoNew s₀ s₀ := fun _ hk => hk
  -- a request that places or brings back an order follows the specification
  have hfollows : wp (placeSpec p rows s₀) (HubService.program p hub request) (fun _ _ => True) (fun _ _ => True) s₀ →
      NewPlaced s₀ (Fallible.run (certHubHandler p rows) (certRequest p hub request) s₀).2 := fun hw => by
    have hwp := wp_faulty (T := .alone (certHubHandler p rows) (PlaceOk s₀) (NewPlaced s₀)) (E := fun _ _ => True)
      (fun _ _ _ _ _ _ => trivial) hw
    exact (wp_run (fun c s hc hs => hs.call hc) hself.placed hwp).2
  have hquiet : .certificateOrder ∉ request.effects →
      NewPlaced s₀ (Fallible.run (certHubHandler p rows) (certRequest p hub request) s₀).2 := fun hes =>
    (only_faulty (program_only p hub request)).run_keeps (I := NoNew s₀) (fun c s hc hs => hs.call (fun he => hes (by
      rw [HubCall.Within, he] at hc
      exact hc))) hself |>.placed
  cases request with
  | renewSiteCertificate siteId =>
    exact hfollows ((wp_discard _).2 (renewSiteCertificate_placed h hself (by simpa [renewsNamed] using hname)))
  | createCertificateOrder r => exact hfollows ((wp_discard _).2 (createCertificateOrder_placed hself r))
  | retryCertificateOrder orderId =>
    refine hfollows ((wp_discard _).2 ?_)
    simp only [retryCertificateOrder, repo, wp_bind, wp_call_answered, wp_okOr, wp_ensure, implies_true, and_true]
    refine ⟨fun _ => hself, fun found hfound _ order horder _ => ?_⟩
    cases hfound
    obtain ⟨o, ho, rfl⟩ := Option.map_eq_some_iff.1 horder
    exact requeueCertificateOrder_placed h ho _ _
  | resetCertificateOrder orderId =>
    refine hfollows ((wp_discard _).2 ?_)
    simp only [resetCertificateOrder, repo, wp_bind, wp_call_answered, wp_okOr, wp_ensure, implies_true, and_true]
    refine ⟨fun _ => hself, fun found hfound _ order horder _ => ?_⟩
    cases hfound
    obtain ⟨o, ho, rfl⟩ := Option.map_eq_some_iff.1 horder
    exact requeueCertificateOrder_placed h ho _ _
  | _ => exact hquiet (by simp [Request.effects])

/-- Every call of the hub files what it stores under its identifier. -/
theorem Filed.call (h : Filed s) (c : HubCall) : Filed (certHubHandler p rows c s).2 := by
  constructor
  · intro k o' ho'
    by_cases hsave : c.effect = some .certificateOrder
    · cases c with
      | saveCertificateOrder order =>
        rcases saveOrder_cases p rows order with ⟨-, -, he⟩ | he
        · rw [he] at ho'
          rcases Maps.getElem?_insert_eq_some ho' with ⟨rfl, rfl⟩ | ⟨-, ho⟩
          · rfl
          · exact h.orders k o' ho
        · rw [he] at ho'
          exact h.orders k o' ho'
      | _ => cases hsave
    · by_cases hdelete : c.effect = some .deleteSite
      · cases c with
        | deleteSite siteId =>
          obtain ⟨o, ho, site, -, rfl⟩ := deleteSite_rows ho'
          exact h.orders k o ho
        | _ => cases hdelete
      · rw [orders_of_effect hsave hdelete] at ho'
        exact h.orders k o' ho'
  · intro k certificate hk
    by_cases he : c.effect = some .certificate
    · cases c with
      | saveCertificate certificate =>
        rcases Maps.getElem?_insert_eq_some hk with ⟨rfl, rfl⟩ | ⟨-, hold⟩
        · rfl
        · exact h.certificates k _ hold
      | _ => cases he
    · rw [certificates_of_effect he] at hk
      exact h.certificates k certificate hk
  · intro k zone hk
    by_cases he : c.effect = some .dns
    · cases c with
      | saveDnsZone zone =>
        rcases Maps.getElem?_insert_eq_some hk with ⟨rfl, rfl⟩ | ⟨-, hold⟩
        · rfl
        · exact h.zones k _ hold
      | deleteDnsZone zoneId => exact h.zones k zone (Maps.getElem?_erase_eq_some hk).2
      | deleteDnsProvider providerId =>
        simp only [certHubHandler, hubHandler, World.write, MemoryState.deleteDnsProvider] at hk
        split at hk
        · exact h.zones k zone hk
        · exact h.zones k zone (Maps.getElem?_filter_eq_some hk).1
      | saveDnsProvider provider => exact h.zones k zone hk
      | _ => cases he
    · rw [zones_of_effect he] at hk
      exact h.zones k zone hk

end Hub

/-! ## Statements of the worker -/

section Worker

variable {p : Platform} {rows : RowOrder} {acme : AcmeServer} {net : Nat → Delivery} {s₀ s : CertState}

/-- Certificates stay under their identifiers. -/
theorem certificates_of_worker {c : WorkerCall} {k : Uuid} {certificate' : CertificateRecord}
    (hk : (workerHandler p rows acme net c s).2.world.store.certificates[k]? = some certificate') :
    ∃ certificate, s.world.store.certificates[k]? = some certificate ∧
      certificate'.certificateId = certificate.certificateId := by
  by_cases hc : ∃ request, c = .persistIssuedCertificate request
  · obtain ⟨request, rfl⟩ := hc
    simp only [workerHandler, CertState.persistIssuedCertificate] at hk
    split at hk
    · exact ⟨certificate', hk, rfl⟩
    · split at hk
      · exact ⟨certificate', hk, rfl⟩
      · rcases Maps.getElem?_modify_eq_some hk with ⟨rfl, old, hold, rfl⟩ | ⟨-, hold⟩
        · exact ⟨old, hold, rfl⟩
        · exact ⟨certificate', hold, rfl⟩
  · obtain ⟨orders, he⟩ := store_of_worker (fun request e => hc ⟨request, e⟩)
    rw [he] at hk
    exact ⟨certificate', hk, rfl⟩

/-- Every call of the worker files what it stores under its identifier. -/
theorem Filed.work (h : Filed s) (c : WorkerCall) : Filed (workerHandler p rows acme net c s).2 := by
  constructor
  · intro k o' ho'
    by_cases hc : c.Inserts
    · cases c with
      | insertRenewalOrder certificateId zoneId acmeProvider payload =>
        have ho' :
          (s.insertRenewalOrder p certificateId zoneId acmeProvider payload).2.world.store.certificateOrders[k]? =
          some o' := ho'
        rcases insertRenewal_cases p s certificateId zoneId acmeProvider payload with he | ⟨_, _, he⟩
        · rw [he] at ho'
          exact h.orders k o' ho'
        · rw [he] at ho'
          rcases Maps.getElem?_insert_eq_some ho' with ⟨rfl, rfl⟩ | ⟨-, ho⟩
          · rfl
          · exact h.orders k o' ho
      | _ => exact hc.elim
    · obtain ⟨o, ho, hproceeds⟩ := rows_of_worker h.orders hc ho'
      exact hproceeds.orderId.trans (h.orders k o ho)
  · intro k certificate' hk
    obtain ⟨certificate, hcertificate, hid⟩ := certificates_of_worker hk
    exact hid.trans (h.certificates k certificate hcertificate)
  · intro k zone hk
    rw [tables_of_worker.1] at hk
    exact h.zones k zone hk

/-- A certificate is renewed in a zone that covers it. -/
theorem NewPlaced.insertRenewal (h : NewPlaced s₀ s) {certificate : CertificateRecord} {zone : DnsZoneRecord}
    (hcertificate : s.world.store.certificates[certificate.certificateId]? = some certificate)
    (hzone : s.world.store.dnsZones[zone.zoneId]? = some zone)
    (hcovered : domainMatchesZone certificate.commonName zone.zoneName = true) (acmeProvider : String) (token : Uuid) :
    NewPlaced s₀ (s.insertRenewalOrder p certificate.certificateId zone.zoneId acmeProvider
      (renewalPayload zone.zoneName certificate.commonName certificate.sans token)).2 := by
  rcases insertRenewal_cases p s certificate.certificateId zone.zoneId acmeProvider
    (renewalPayload zone.zoneName certificate.commonName certificate.sans token) with he | ⟨orderId, now, he⟩
  · exact h.keep (congrArg (·.certificateOrders) he) (congrArg (·.certificates) he) (congrArg (·.dnsZones) he)
  · refine NewPlaced.keep (h.save (.inr ?_)) (congrArg (·.certificateOrders) he) (congrArg (·.certificates) he)
      (congrArg (·.dnsZones) he)
    exact wellPlaced_of rfl hcertificate hzone hcovered rfl rfl

/-- The worker over the tables. -/
abbrev batchSpec (p : Platform) (rows : RowOrder) (acme : AcmeServer) (net : Nat → Delivery) :
    Spec workerSig CertState :=
  .alone (workerHandler p rows acme net) (fun _ _ => True) fun _ => True

/-- The loop over certificates and zones that are stored. -/
theorem enqueueLoop_placed {zones : List DnsZoneRecord} {certificates : List CertificateRecord} (h : NewPlaced s₀ s)
    (hzones : ∀ zone ∈ zones, s.world.store.dnsZones[zone.zoneId]? = some zone)
    (hcertificates : ∀ certificate ∈ certificates,
      s.world.store.certificates[certificate.certificateId]? = some certificate) (acmeProvider : String)
        (created : Nat) :
    wp (batchSpec p rows acme net) (DnsWorker.enqueueLoop zones acmeProvider certificates created)
      (fun _ s' => NewPlaced s₀ s') (fun _ s' => NewPlaced s₀ s') s := by
  induction certificates generalizing s created with
  | nil => exact (wp_pure _).2 h
  | cons certificate certificates ih =>
    have hrest := fun c hc => hcertificates c (List.mem_cons_of_mem certificate hc)
    unfold DnsWorker.enqueueLoop
    split
    · exact ih h hzones hrest created
    · rename_i zone hzone
      have hmem := List.mem_filter.1 (mem_of_maxBy hzone)
      simp only [work, wp_bind, wp_call_alone, wp_attempt]
      refine ⟨trivial, fun _ => ⟨trivial, fun _ => ?_⟩⟩
      have hplaced := NewPlaced.insertRenewal (p := p)
        (s := (workerHandler p rows acme net .newUuid s).2) h (hcertificates certificate List.mem_cons_self)
        (hzones zone hmem.1) hmem.2 acmeProvider s.world.nextUuid
      obtain ⟨hz, hc⟩ := insertRenewal_tables p (workerHandler p rows acme net .newUuid s).2 certificate.certificateId
        zone.zoneId acmeProvider (renewalPayload zone.zoneName certificate.commonName certificate.sans s.world.nextUuid)
      refine ⟨fun inserted _ => ih hplaced (fun z hm => ?_) (fun c hm => ?_) _, fun _ _ => hplaced⟩
      · exact (congrArg (·[z.zoneId]?) hz).trans (hzones z hm)
      · exact (congrArg (·[c.certificateId]?) hc).trans (hrest c hm)

/-- The certificates that are due are stored. -/
theorem stored_of_due (h : Filed s) {threshold : DateTime} {limit : Nat} {certificate : CertificateRecord}
    (hc : certificate ∈ s.dueCertificates rows threshold limit) :
    s.world.store.certificates[certificate.certificateId]? = some certificate := by
  have hmem := List.mem_of_mem_take hc
  rw [(List.perm_insertionSort _ _).mem_iff, (rows.certificates_perm _ _).mem_iff, List.mem_filter] at hmem
  obtain ⟨k, hk⟩ := Maps.mem_values.1 hmem.1
  rw [h.certificates k certificate hk]
  exact hk

/-- The zones that are active are stored. -/
theorem stored_of_active (h : Filed s) {n : Nat} {zone : DnsZoneRecord}
    (hz : zone ∈ rows.zones n (s.world.store.dnsZones.values.filter fun z => z.status == "active")) :
    s.world.store.dnsZones[zone.zoneId]? = some zone := by
  rw [(rows.zones_perm _ _).mem_iff, List.mem_filter] at hz
  obtain ⟨k, hk⟩ := Maps.mem_values.1 hz.1
  rw [h.zones k zone hk]
  exact hk

theorem enqueueDueRenewalOrders_placed (h : Filed s) (now renewBefore : DateTime) (limit : Nat)
    (acmeProvider : String) :
    wp (batchSpec p rows acme net) (DnsWorker.enqueueDueRenewalOrders now renewBefore limit acmeProvider)
      (fun _ s' => NewPlaced s s') (fun _ s' => NewPlaced s s') s := by
  have hself : NewPlaced s s := NoNew.placed fun _ hk => hk
  simp only [DnsWorker.enqueueDueRenewalOrders, work, wp_bind, wp_call_alone]
  refine ⟨trivial, fun _ => ?_⟩
  split
  · exact (wp_pure _).2 hself
  · simp only [wp_bind, wp_call_alone]
    refine ⟨trivial, fun _ => ?_⟩
    refine enqueueLoop_placed (s := s.ticked.ticked) hself (fun zone hz => ?_) (fun certificate hc => ?_) _ _
    · exact stored_of_active h hz
    · exact stored_of_due h hc

/-- A batch of the worker places orders well. -/
theorem workerBatch_placed (h : Filed s₀) (q : CertRequest) :
    NewPlaced s₀ (Fallible.run (workerHandler p rows acme net) (workerBatch q) s₀).2 := by
  have hself : NoNew s₀ s₀ := fun _ hk => hk
  have hquiet : ∀ {x : WorkerM Nat}, (x.Only fun c : WorkerCall => ¬ c.Inserts) →
      NewPlaced s₀ (Fallible.run (workerHandler p rows acme net) x s₀).2 := by
    intro x hx
    refine NoNew.placed (hx.run_keeps (I := fun s => NoNew s₀ s ∧ OrdersKeyed s) (fun c s hc hs => ?_)
      ⟨hself, h.orders⟩).1
    refine ⟨hs.1.of_rows fun k o' ho' => ?_, fun k o' ho' => ?_⟩
    · obtain ⟨o, ho, -⟩ := rows_of_worker hs.2 hc ho'
      exact ⟨o, ho⟩
    · obtain ⟨o, ho, hproceeds⟩ := rows_of_worker hs.2 hc ho'
      exact hproceeds.orderId.trans (hs.2 k o ho)
  cases q with
  | hub hub request => exact hself.placed
  | pending client limit => exact hquiet ((DnsWorker.processPendingCertificateOrders_only client limit).safe
    fun _ _ hc => hc.1)
  | presented client limit => exact hquiet (DnsWorker.processPresentedCertificateOrders_only client limit)
  | enqueue now renewBefore limit acmeProvider =>
    have hwp : wp (batchSpec p rows acme net) (DnsWorker.enqueueDueRenewalOrders now renewBefore limit acmeProvider)
        (fun _ s' => NewPlaced s₀ s') (fun _ s' => NewPlaced s₀ s') s₀ :=
      enqueueDueRenewalOrders_placed h now renewBefore limit acmeProvider
    exact (Prog.wp_run (fun _ _ _ _ => trivial) trivial hwp.either).1

end Worker

/-! ## Runs -/

section Runs

variable {p : Platform} {rows : RowOrder} {acme : AcmeServer} {net : Nat → Delivery} {s : CertState}

theorem Filed.init (remote : RemoteDns) : Filed (.init remote) where
  orders k o ho := by simp [CertState.init, CertState.orders, World.init, MemoryState.empty] at ho
  certificates k c hc := by simp [CertState.init, World.init, MemoryState.empty] at hc
  zones k z hz := by simp [CertState.init, World.init, MemoryState.empty] at hz

theorem Filed.serve (h : Filed s) (q : CertRequest) : Filed (s.serve p rows acme net q) := by
  refine Prog.run_keeps (fun c s hs => ?_) _ h
  cases c with
  | inl c => exact hs.call c
  | inr c => exact hs.work c

theorem Filed.serveAll (h : Filed s) (qs : List CertRequest) : Filed (s.serveAll p rows acme net qs) := by
  induction qs generalizing s with
  | nil => exact h
  | cons q qs ih => exact ih (h.serve q)

/-- One request or batch places orders well, unless it renews the certificate of another name. -/
theorem Filed.placed (h : Filed s) {q : CertRequest} (hq : renewsNamed s q = true) :
    NewPlaced s (s.serve p rows acme net q) := by
  cases q with
  | hub hub request =>
    rw [CertState.serve_hub]
    exact program_placed h hub request hq
  | _ =>
    rw [CertState.serve_worker _ _ _ _ _ fun _ _ e => by (cases e)]
    exact workerBatch_placed h _

end Runs

/-- Requests of the hub and batches of the worker one after another: every order that one of them places is in a zone
that covers its certificate, with a challenge for the name of the certificate, as long as no site renews a certificate
of another name. -/
theorem orders_well_placed (p : Platform) (rows : RowOrder) (acme : AcmeServer) (net : Nat → Delivery) {s : CertState}
    (h : Filed s) (qs : List CertRequest) (hqs : s.Meets p rows acme net (fun s q => renewsNamed s q) qs)
    (pre : List CertRequest) (q : CertRequest) (hpre : pre ++ [q] <+: qs) :
    NewPlaced (s.serveAll p rows acme net pre) (s.serveAll p rows acme net (pre ++ [q])) := by
  induction pre generalizing s qs with
  | nil =>
    obtain ⟨rest, rfl⟩ := hpre
    exact h.placed hqs.1
  | cons first pre ih =>
    obtain ⟨rest, rfl⟩ := hpre
    exact ih (h.serve first) _ hqs.2 (List.prefix_append _ rest)

/-- A certificate is issued for a site. -/
def certified : List CertRequest := tlsSetup ++ [CertRequest.ask (.renewSiteCertificate 2), .pending .mock 10,
    .presented .mock 10]

/-- It is renewed. -/
theorem orders_well_placed_renewed :
    NewPlaced ((CertState.init (.ofZones [])).serveAll .plain .plain .issuing (fun _ => .done) certified)
      ((CertState.init (.ofZones [])).serveAll .plain .plain .issuing (fun _ => .done)
        (certified ++ [CertRequest.ask (.renewSiteCertificate 2)])) :=
  orders_well_placed .plain .plain .issuing (fun _ => .done) (.init _)
    (certified ++ [CertRequest.ask (.renewSiteCertificate 2)]) (by decide +kernel) certified _ (List.prefix_refl _)

/-- The site moves to another domain, in another zone. -/
def movedToOrg : List CertRequest :=
  certified ++ [CertRequest.ask (.syncDnsZones { providerId := 0, zoneNames := ["example.org"] }),
    .ask (.updateSite 2 {
      name := "www", domain := "www.example.org", listenPort := 443, protocol := "https", tlsEnabled := true
      config := .object [] })]

/-- The certificate of the old domain is renewed in the zone of the new one. -/
theorem moved_site_renewed_elsewhere :
    ¬ NewPlaced ((CertState.init (.ofZones [])).serveAll .plain .plain .issuing (fun _ => .done) movedToOrg)
      ((CertState.init (.ofZones [])).serveAll .plain .plain .issuing (fun _ => .done)
        (movedToOrg ++ [CertRequest.ask (.renewSiteCertificate 2)])) := by
  obtain ⟨hnew, hmoved⟩ : ((CertState.init (.ofZones [])).serveAll .plain .plain .issuing
        (fun _ => .done) movedToOrg).orders[11]?.isNone ∧
      (((CertState.init (.ofZones [])).serveAll .plain .plain .issuing (fun _ => .done)
        (movedToOrg ++ [CertRequest.ask (.renewSiteCertificate 2)])).orders[11]?).any (fun o =>
          !wellPlaced ((CertState.init (.ofZones [])).serveAll .plain .plain .issuing (fun _ => .done)
            (movedToOrg ++ [CertRequest.ask (.renewSiteCertificate 2)])) o) = true := by
    decide +kernel
  obtain ⟨o, ho, hplaced⟩ := (Option.any_eq_true _ _).1 hmoved
  intro h
  rw [h 11 o ho (Option.isNone_iff_eq_none.1 hnew)] at hplaced
  cases hplaced

end PingoraMesh
