import PingoraMesh.Dns.Effects

/-!
# One renewal at a time

Requests of the hub and batches of the dns-worker run one after another, over tables with the unique partial index of
migration 0005. A renewal is under way while its status is one of `ACTIVE_RENEWAL_ORDER_STATUSES`. The index keeps the
renewals of a certificate apart, and the hub looks for other orders before it places a renewal for a site; a retry or a
reset brings an old order back without a look.

* `RowsQuieter` is what most statements do to the orders: no order becomes a renewal under way (`OneRenewal.quieter`);
* `one_active_renewal`: in every run in which no order is brought back while another renewal of its site is under way
  (`requeuesFree`), each site and each certificate has at most one renewal under way;
* `two_renewals_of_site`: a failed renewal is retried after another was placed, and both are under way.
-/

namespace PingoraMesh

open Calls Fallible HubService

/-! ## The invariant -/

/-- At most one renewal under way for each value of a key. -/
def Sole (key : CertificateOrderRecord → Option Uuid) (orders : HashMap Uuid CertificateOrderRecord) : Prop :=
  ∀ (k k' : Uuid) (o o' : CertificateOrderRecord) (c : Uuid), orders[k]? = some o → orders[k']? = some o' →
    o.activeRenewal → o'.activeRenewal → key o = some c → key o' = some c → k = k'

/-- No other renewal under way has the key of this order. -/
def KeyFree (key : CertificateOrderRecord → Option Uuid) (orders : HashMap Uuid CertificateOrderRecord)
    (order : CertificateOrderRecord) : Prop :=
  order.activeRenewal → ∀ c, key order = some c → ∀ (k : Uuid) (o : CertificateOrderRecord), orders[k]? = some o →
    o.activeRenewal → key o = some c → k = order.orderId

/-- At most one renewal under way for each site and for each certificate; orders and sites under their identifiers. -/
structure OneRenewal (s : CertState) : Prop where
  keyed : OrdersKeyed s
  sites : SitesKeyed s.world.store
  site : Sole (·.siteId) s.orders
  certificate : Sole (·.certificateId) s.orders

/-- An order that changes without becoming a renewal under way. -/
structure Quieter (o o' : CertificateOrderRecord) : Prop where
  orderId : o'.orderId = o.orderId
  active : o'.activeRenewal → o.activeRenewal
  site : ∀ id, o'.siteId = some id → o.siteId = some id
  certificate : ∀ id, o'.certificateId = some id → o.certificateId = some id

/-- No order comes to the table, and none becomes a renewal under way. -/
def RowsQuieter (s s' : CertState) : Prop :=
  ∀ (k : Uuid) (o' : CertificateOrderRecord), s'.orders[k]? = some o' → ∃ o, s.orders[k]? = some o ∧ Quieter o o'

section Invariant

variable {s s' s'' : CertState} {order : CertificateOrderRecord} {orders : HashMap Uuid CertificateOrderRecord}
  {key : CertificateOrderRecord → Option Uuid}

theorem Quieter.refl (o : CertificateOrderRecord) : Quieter o o := ⟨rfl, id, fun _ h => h, fun _ h => h⟩

theorem Quieter.trans {o o' o'' : CertificateOrderRecord} (h : Quieter o o') (h' : Quieter o' o'') : Quieter o o'' where
  orderId := h'.orderId.trans h.orderId
  active ha := h.active (h'.active ha)
  site id hs := h.site id (h'.site id hs)
  certificate id hc := h.certificate id (h'.certificate id hc)

theorem RowsQuieter.of_eq (h : s'.orders = s.orders) : RowsQuieter s s' := by
  intro k o' ho
  rw [h] at ho
  exact ⟨o', ho, .refl o'⟩

theorem RowsQuieter.trans (h : RowsQuieter s s') (h' : RowsQuieter s' s'') : RowsQuieter s s'' := by
  intro k o'' ho''
  obtain ⟨o', ho', hq'⟩ := h' k o'' ho''
  obtain ⟨o, ho, hq⟩ := h k o' ho'
  exact ⟨o, ho, hq.trans hq'⟩

/-- Where no order becomes a renewal under way or gets a key, the renewals of a key stay apart. -/
theorem Sole.quieter (h : Sole key s.orders) (hq : RowsQuieter s s')
    (hkey : ∀ o o' : CertificateOrderRecord, Quieter o o' → ∀ id, key o' = some id → key o = some id) :
    Sole key s'.orders := by
  intro k k' o o' c ho ho' ha ha' hc hc'
  obtain ⟨x, hx, hxq⟩ := hq k o ho
  obtain ⟨x', hx', hxq'⟩ := hq k' o' ho'
  exact h k k' x x' c hx hx' (hxq.active ha) (hxq'.active ha') (hkey x o hxq c hc) (hkey x' o' hxq' c hc')

/-- Quieter orders keep the invariant. -/
theorem OneRenewal.quieter (h : OneRenewal s) (hq : RowsQuieter s s') (hsites : SitesKeyed s'.world.store) :
    OneRenewal s' := by
  constructor
  · intro k o' ho'
    obtain ⟨o, ho, hq⟩ := hq k o' ho'
    exact hq.orderId.trans (h.keyed k o ho)
  · exact hsites
  · exact h.site.quieter hq fun _ _ hq => hq.site
  · exact h.certificate.quieter hq fun _ _ hq => hq.certificate

/-- An order whose key is free joins the table. -/
theorem Sole.insert (h : Sole key orders) (hfree : KeyFree key orders order) :
    Sole key (orders.insert order.orderId order) := by
  intro k k' o o' c ho ho' ha ha' hc hc'
  rcases Maps.getElem?_insert_eq_some ho with ⟨rfl, rfl⟩ | ⟨-, hold⟩
  · rcases Maps.getElem?_insert_eq_some ho' with ⟨rfl, -⟩ | ⟨-, hold'⟩
    · rfl
    · exact (hfree ha c hc k' o' hold' ha' hc').symm
  · rcases Maps.getElem?_insert_eq_some ho' with ⟨rfl, rfl⟩ | ⟨-, hold'⟩
    · exact hfree ha' c hc' k o hold ha hc
    · exact h k k' o o' c hold hold' ha ha' hc hc'

/-- What the index lets through has a free certificate. -/
theorem keyFree_of_index (hkeyed : OrdersKeyed s) (h : indexRefuses s.orders order = false) :
    KeyFree (·.certificateId) s.orders order := by
  intro ha c hc k o ho hao hco
  by_contra hne
  have hc : order.certificateId = some c := hc
  simp [indexRefuses, ha, hc] at h
  refine h o (Maps.mem_values.2 ⟨k, ho⟩) ?_ hao hco
  rw [hkeyed k o ho]
  exact hne

/-- An order is saved whose site is free, and the index lets it through. -/
theorem OneRenewal.save (h : OneRenewal s) (hsite : KeyFree (·.siteId) s.orders order)
    (hindex : indexRefuses s.orders order = false) : OneRenewal (s.onStore (·.saveCertificateOrder order)) := by
  constructor
  · intro k o ho
    rcases Maps.getElem?_insert_eq_some ho with ⟨rfl, rfl⟩ | ⟨-, ho⟩
    · rfl
    · exact h.keyed k o ho
  · exact h.sites
  · exact h.site.insert hsite
  · exact h.certificate.insert (keyFree_of_index h.keyed hindex)

end Invariant

/-! ## Statements of the hub -/

/-- An order that the hub saves has a free site, unless the index refuses it. -/
def SaveFree : HubCall → CertState → Prop
  | .saveCertificateOrder order, s => indexRefuses s.orders order = false → KeyFree (·.siteId) s.orders order
  | _, _ => True

section Hub

variable {p : Platform} {rows : RowOrder} {s : CertState} {c : HubCall}

/-- Orders lose a site that is deleted. -/
theorem deleteSite_quieter (siteId : Uuid) : RowsQuieter s (certHubHandler p rows (.deleteSite siteId) s).2 := by
  intro k o' ho'
  simp only [certHubHandler, CertState.onStore, CertState.orders, MemoryState.deleteSite] at ho'
  split at ho'
  · exact ⟨o', ho', .refl o'⟩
  · obtain ⟨o, ho, rfl⟩ := Maps.getElem?_map_eq_some ho'
    refine ⟨o, ho, ?_⟩
    split
    · exact ⟨rfl, id, fun _ h => (by cases h), fun _ h => h⟩
    · exact .refl o

/-- A call of the hub keeps the invariant. -/
theorem certHubHandler_keeps (hc : SaveFree c s) (h : OneRenewal s) : OneRenewal (certHubHandler p rows c s).2 := by
  by_cases heffect : c.effect = some .certificateOrder
  · cases c with
    | saveCertificateOrder order =>
      rcases saveOrder_cases p rows order with ⟨-, hindex, he⟩ | he
      · rw [he]
        exact h.save (hc hindex) hindex
      · rw [he]
        exact h
    | _ => cases heffect
  · by_cases hdelete : c.effect = some .deleteSite
    · cases c with
      | deleteSite siteId => exact h.quieter (deleteSite_quieter siteId) (certHubHandler_sites h.sites)
      | _ => cases hdelete
    · exact h.quieter (.of_eq (orders_of_effect heffect hdelete)) (certHubHandler_sites h.sites)

/-- The hub over the tables, with the invariant. -/
abbrev renewalSpec (p : Platform) (rows : RowOrder) : Spec hubSig CertState :=
  answered (.alone (certHubHandler p rows) SaveFree OneRenewal)

theorem saveFree_of_effect (h : c.effect ≠ some .certificateOrder) : SaveFree c s := by
  cases c with
  | saveCertificateOrder order => exact absurd rfl h
  | _ => trivial

theorem saveFree_of_within {es : List Effect} (hes : .certificateOrder ∉ es) (hc : c.Within es) : SaveFree c s := by
  refine saveFree_of_effect fun he => hes ?_
  rw [HubCall.Within, he] at hc
  exact hc

theorem activeRenewal_iff {o : CertificateOrderRecord} :
    o.activeRenewal = true ↔ o.orderType = "renew" ∧ isActiveRenewalOrderStatus o.orderStatus = true := by
  simp [CertificateOrderRecord.activeRenewal]

/-- An order is placed for a site that has no renewal under way, if it is a renewal. -/
theorem issueCertificateOrder_wp {siteId : Option Uuid} (certificateId : Option Uuid) (commonName : String)
    (sans : List String) (zoneId : Uuid) (zoneName acmeProvider : String) {orderType : String}
    (hfree : orderType = "renew" → ∀ site, siteId = some site → ∀ (k : Uuid) (o : CertificateOrderRecord),
      s.orders[k]? = some o → o.activeRenewal → o.siteId ≠ some site) :
    wp (renewalSpec p rows)
      (issueCertificateOrder siteId certificateId commonName sans zoneId zoneName acmeProvider orderType)
      (fun _ _ => True) (fun _ _ => True) s := by
  rw [issueCertificateOrder, wp_bind]
  -- the certificate comes first, and leaves the orders
  have honly : (orderCertificate certificateId commonName sans).Only (HubCall.Within [.certificate]) :=
    orderCertificate_only List.mem_cons_self certificateId commonName sans
  have hcert := honly.wp
    (T := renewalSpec p rows) (I := fun s' => s'.orders = s.orders)
    (fun c s' hc _ => saveFree_of_within (by simp) hc) (fun c s' r s'' hc hs hcan => ?_) rfl
  · refine wp_mono (fun _ s' hs => ?_) (fun _ _ _ => trivial) hcert
    simp only [repo, wp_bind, wp_call_answered, wp_pure]
    refine
      ⟨trivial, fun token _ _ => ⟨trivial, fun orderId _ _ => ⟨trivial, fun now _ _ => ⟨?_, fun _ _ _ => trivial⟩⟩⟩⟩
    intro _ hactive site hsite k o ho hao hos
    have hrenew : orderType = "renew" := (activeRenewal_iff.1 hactive).1
    have ho' : s'.orders[k]? = some o := ho
    rw [hs] at ho'
    exact absurd hos (hfree hrenew site hsite k o ho' hao)
  · obtain ⟨-, rfl, -⟩ := hcan
    refine (orders_of_effect (fun he => ?_) fun he => ?_).trans hs
    · rw [HubCall.Within, he] at hc
      simp at hc
    · rw [HubCall.Within, he] at hc
      simp at hc

/-- Orders that are not renewals may always be placed. -/
theorem createCertificateOrder_safe (request : CreateCertificateOrderRequest) :
    (createCertificateOrder request).Safe (renewalSpec p rows) := by
  have hread : ∀ {c : HubCall}, c.effect = none → (repo c).Safe (renewalSpec p rows) := fun he =>
    safe_call fun _ => saveFree_of_effect (by rw [he]; simp)
  refine safe_bind (safe_ensure _ _) fun _ => safe_bind ?_ fun site => safe_bind (safe_okOr _ _) fun domain =>
    safe_bind (safe_attempt _) fun _ => safe_bind (safe_attempt _) fun _ => safe_bind (safe_ensure _ _) fun _ =>
    safe_bind (hread rfl) fun _ => safe_bind (safe_okOr _ _) fun _ => safe_bind (safe_ensure _ _) fun _ =>
    safe_bind (safe_ensure _ _) fun _ s => issueCertificateOrder_wp _ _ _ _ _ _ (fun h => by simp at h)
  have honly : (requestedSite request.siteId).Only (HubCall.Within []) := requestedSite_only _
  exact honly.safe fun _ _ hc => saveFree_of_within (by simp) hc

/-- A renewal under way keeps the hub from placing another for its site. -/
theorem activeOrderOf_of_active {siteId : Uuid} {certificateId : Option Uuid} {o : CertificateOrderRecord}
    (ha : o.activeRenewal) (hs : o.siteId = some siteId) : activeOrderOf siteId certificateId o = true := by
  have hstatus := (activeRenewal_iff.1 ha).2
  simp only [isActiveRenewalOrderStatus, activeRenewalOrderStatuses, List.contains_cons, List.contains_nil,
    Bool.or_false, Bool.or_eq_true, beq_iff_eq] at hstatus
  simp only [activeOrderOf, hs, beq_self_eq_true, Bool.true_or, Bool.true_and, Bool.not_eq_true']
  rcases hstatus with h | h | h | h <;> rw [h] <;> decide

/-- A renewal is placed for a site that has none under way. -/
theorem renewSiteCertificate_wp (h : OneRenewal s) (siteId : Uuid) :
    wp (renewalSpec p rows) (renewSiteCertificate siteId) (fun _ _ => True) (fun _ _ => True) s := by
  simp only [renewSiteCertificate, repo, wp_bind, wp_call_answered, wp_okOr, wp_ensure, wp_forSome,
    wp_throw, wp_attempt, wp_pure, implies_true, and_true, true_and]
  refine
    ⟨trivial, fun found hfound _ site hsite _ => ⟨trivial, fun certificates _ _ => ⟨trivial, fun orders horders _ hnone
    commonName _ => ⟨trivial, fun zones _ _ zone _ => ?_⟩⟩⟩⟩
  cases hfound
  cases horders
  have hid : site.id = siteId := h.sites siteId site hsite
  refine issueCertificateOrder_wp _ _ _ _ _ _ fun _ id hid' k o ho ha hos => ?_
  cases hid'
  rw [hid] at hos
  have hactive := List.find?_eq_none.1 hnone _ (mem_listed ho)
  exact hactive (activeOrderOf_of_active ha hos)

/-- An order may come back: it is under way itself, the index refuses it, or no other renewal of its site is under
way. -/
def requeueFree (s : CertState) (o : CertificateOrderRecord) : Bool :=
  o.activeRenewal || indexRefuses s.orders (requeuedOrder o) ||
    !(o.orderType == "renew" && o.siteId.isSome && s.orders.values.any fun other =>
      other.orderId != o.orderId && other.activeRenewal && other.siteId == o.siteId)

/-- What comes back has a free site. -/
theorem keyFree_of_requeueFree (h : OneRenewal s) {k : Uuid} {o : CertificateOrderRecord} (ho : s.orders[k]? = some o)
    (hfree : requeueFree s o = true) : SaveFree (.saveCertificateOrder (requeuedOrder (s.joined o))) s := by
  intro hindex hactive site hsite k' o' ho' ha' hs'
  have hrenew : o.orderType = "renew" := (activeRenewal_iff.1 hactive).1
  have hsite : o.siteId = some site := hsite
  have hid : o.orderId = k := h.keyed k o ho
  show k' = o.orderId
  by_cases ha : o.activeRenewal
  · rw [hid]
    exact h.site k' k o' o site ho' ho ha' ha hs' hsite
  · have hindex : indexRefuses s.orders (requeuedOrder o) = false := hindex
    by_contra hne
    simp only [requeueFree, ha, hindex, hrenew, hsite, Bool.false_or, Bool.not_eq_true', beq_self_eq_true,
      Option.isSome_some, Bool.true_and, List.any_eq_false] at hfree
    refine hfree o' (Maps.mem_values.2 ⟨k', ho'⟩) ?_
    simp only [Bool.and_eq_true, bne_iff_ne, beq_iff_eq]
    refine ⟨⟨?_, ha'⟩, hs'⟩
    rw [h.keyed k' o' ho']
    exact hne

theorem requeueCertificateOrder_wp (h : OneRenewal s) {k : Uuid} {o : CertificateOrderRecord}
    (ho : s.orders[k]? = some o) (hfree : requeueFree s o = true) (renewBeforeDays : Int) (action : String) :
    wp (renewalSpec p rows) (requeueCertificateOrder renewBeforeDays (s.joined o) action) (fun _ _ => True)
      (fun _ _ => True) s := by
  simp only [requeueCertificateOrder, repo, wp_bind, wp_call_answered, wp_ensure, wp_pure, implies_true, and_true]
  exact fun _ => keyFree_of_requeueFree h ho hfree

/-- A failed order that may come back is retried. -/
theorem retryCertificateOrder_wp (h : OneRenewal s) (renewBeforeDays : Int) (orderId : Uuid)
    (hfree : (s.orders[orderId]?).all fun o => !isFailedCertificateOrderStatus o.orderStatus || requeueFree s o) :
    wp (renewalSpec p rows) (retryCertificateOrder renewBeforeDays orderId) (fun _ _ => True) (fun _ _ => True) s := by
  simp only [retryCertificateOrder, repo, wp_bind, wp_call_answered, wp_okOr, wp_ensure, implies_true, and_true]
  refine ⟨trivial, fun found hfound _ order horder hfailed => ?_⟩
  cases hfound
  obtain ⟨o, ho, rfl⟩ := Option.map_eq_some_iff.1 horder
  have hfailed : isFailedCertificateOrderStatus o.orderStatus = true := hfailed
  rw [ho, Option.all_some, hfailed, Bool.not_true, Bool.false_or] at hfree
  exact requeueCertificateOrder_wp h ho hfree _ _

/-- An order that may come back is reset. -/
theorem resetCertificateOrder_wp (h : OneRenewal s) (renewBeforeDays : Int) (orderId : Uuid)
    (hfree : (s.orders[orderId]?).all fun o => o.orderStatus == "issued" || requeueFree s o) :
    wp (renewalSpec p rows) (resetCertificateOrder renewBeforeDays orderId) (fun _ _ => True) (fun _ _ => True) s := by
  simp only [resetCertificateOrder, repo, wp_bind, wp_call_answered, wp_okOr, wp_ensure, implies_true, and_true]
  refine ⟨trivial, fun found hfound _ order horder hstatus => ?_⟩
  cases hfound
  obtain ⟨o, ho, rfl⟩ := Option.map_eq_some_iff.1 horder
  have hstatus : (o.orderStatus == "issued") = false := by simpa [CertState.joined] using hstatus
  rw [ho, Option.all_some, hstatus, Bool.false_or] at hfree
  exact requeueCertificateOrder_wp h ho hfree _ _

/-- The order that a request brings back may come back. -/
def requeuesFree (s : CertState) : CertRequest → Bool
  | .hub _ (.retryCertificateOrder orderId) =>
    (s.orders[orderId]?).all fun o => !isFailedCertificateOrderStatus o.orderStatus || requeueFree s o
  | .hub _ (.resetCertificateOrder orderId) =>
    (s.orders[orderId]?).all fun o => o.orderStatus == "issued" || requeueFree s o
  | _ => true

/-- A request of the hub that brings back only orders that may come back. -/
theorem program_renewal_wp (h : OneRenewal s) (hub : Hub) (request : Request)
    (hfree : requeuesFree s (.hub hub request)) :
    wp (renewalSpec p rows) (HubService.program p hub request) (fun _ _ => True) (fun _ _ => True) s := by
  have hquiet : .certificateOrder ∉ request.effects →
      wp (renewalSpec p rows) (HubService.program p hub request) (fun _ _ => True) (fun _ _ => True) s := fun hes =>
    (program_only p hub request).safe (fun _ _ hc => saveFree_of_within hes hc) s
  cases request with
  | renewSiteCertificate siteId => exact (wp_discard _).2 (renewSiteCertificate_wp h siteId)
  | createCertificateOrder r => exact (wp_discard _).2 (createCertificateOrder_safe r s)
  | retryCertificateOrder orderId => exact (wp_discard _).2 (retryCertificateOrder_wp h _ orderId hfree)
  | resetCertificateOrder orderId => exact (wp_discard _).2 (resetCertificateOrder_wp h _ orderId hfree)
  | _ => exact hquiet (by simp [Request.effects])

/-- A request of the hub keeps the invariant. -/
theorem OneRenewal.serve_hub {acme : AcmeServer} {net : Nat → Delivery} (h : OneRenewal s) (hub : Hub)
    (request : Request)
    (hfree : requeuesFree s (.hub hub request)) : OneRenewal (s.serve p rows acme net (.hub hub request)) := by
  rw [CertState.serve_hub]
  have hwp := wp_faulty (T := .alone (certHubHandler p rows) SaveFree OneRenewal) (E := fun _ _ => True)
    (fun _ _ _ _ _ _ => trivial) (program_renewal_wp h hub request hfree)
  exact (wp_run (fun c s hc hs => certHubHandler_keeps hc hs) h hwp).2

end Hub

/-! ## Statements of the worker -/

/-- An order in a status of a renewal under way, if it exists. -/
def Ready (s : CertState) (orderId : Uuid) : Prop :=
  ∀ o, s.orders[orderId]? = some o → isActiveRenewalOrderStatus o.orderStatus

/-- An order gets a status of a renewal under way only if it is in one. -/
def UpdateReady : WorkerCall → CertState → Prop
  | .updateOrderStatus orderId status _, s => isActiveRenewalOrderStatus status → Ready s orderId
  | _, _ => True

section Worker

variable {p : Platform} {rows : RowOrder} {acme : AcmeServer} {net : Nat → Delivery} {s : CertState}
  {orderId : Uuid} {job : QueuedOrder}

theorem OneRenewal.of_store {s' : CertState} (h : OneRenewal s) (he : s'.world.store = s.world.store) :
    OneRenewal s' := by
  refine h.quieter (.of_eq ?_) ?_
  · exact congrArg (·.certificateOrders) he
  · rw [he]
    exact h.sites

/-- An update that does not bring an order back keeps the invariant. -/
theorem OneRenewal.update (h : OneRenewal s) {orderId : Uuid} {f : CertificateOrderRecord → CertificateOrderRecord}
    (hf : ∀ o, (f o).orderId = o.orderId) (hq : ∀ o, s.orders[orderId]? = some o → Quieter o (f o)) :
    OneRenewal (s.afterUpdate (s.updateOrder orderId f)).2 := by
  refine h.quieter (fun k o' ho' => ?_) ?_
  · rcases mem_updated h.keyed hf ho' with hold | ⟨rfl, o, ho, rfl⟩
    · exact ⟨o', hold, .refl o'⟩
    · exact ⟨o, ho, hq o ho⟩
  · obtain ⟨orders, he⟩ := updated_store orderId f
    rw [he]
    exact h.sites

/-- A status that is not under way, or an order that is. -/
theorem quieter_of_status {o : CertificateOrderRecord} {status : String} (payload : Value)
    (errorMessage : Option String) (h : isActiveRenewalOrderStatus status → isActiveRenewalOrderStatus o.orderStatus) :
    Quieter o { o with orderStatus := status, challengePayload := payload, errorMessage := errorMessage } where
  orderId := rfl
  active ha := by
    have ha := activeRenewal_iff.1 ha
    exact activeRenewal_iff.2 ⟨ha.1, h ha.2⟩
  site _ h := h
  certificate _ h := h

/-- A claim takes renewals under way. -/
theorem claim_quieter (h : OrdersKeyed s) {before after : String} (hbefore : isActiveRenewalOrderStatus before)
    (limit : Nat) : RowsQuieter s (s.claimOrders rows before after limit).2 := by
  intro k o' ho'
  obtain ⟨o, ho, ⟨hstatus, rfl⟩ | rfl⟩ := mem_claimed h ho'
  · refine ⟨o, ho, quieter_of_status o.challengePayload none fun _ => ?_⟩
    rw [hstatus]
    exact hbefore
  · exact ⟨o', ho, .refl o'⟩

/-- A claim keeps the invariant. -/
theorem OneRenewal.claim (h : OneRenewal s) {before after : String} (hbefore : isActiveRenewalOrderStatus before)
    (limit : Nat) : OneRenewal (s.claimOrders rows before after limit).2 := by
  refine h.quieter (claim_quieter h.keyed hbefore limit) ?_
  obtain ⟨orders, he⟩ := movedAll_store after (s.claimed rows before limit) s.world.store
  have he : (s.claimOrders rows before after limit).2.world.store =
    { s.world.store with certificateOrders := orders } := he
  rw [he]
  exact h.sites

/-- A renewal of the worker has no site. -/
theorem OneRenewal.insertRenewal (h : OneRenewal s) (certificateId zoneId : Uuid) (acmeProvider : String)
    (payload : Value) : OneRenewal (s.insertRenewalOrder p certificateId zoneId acmeProvider payload).2 := by
  unfold CertState.insertRenewalOrder
  dsimp only
  split
  · exact h.of_store rfl
  · split
    · rename_i s' hput
      obtain ⟨-, hindex, rfl⟩ := putOrder_cases hput
      exact OneRenewal.save (h.of_store rfl) (fun _ _ hsite => by (cases hsite)) hindex
    · exact h.of_store rfl

/-- What is issued is not under way any more. -/
theorem persist_quieter (request : PersistIssuedCertificateRequest) :
    RowsQuieter s (s.persistIssuedCertificate p request).2 := by
  rcases persist_cases p request s with ⟨-, he⟩ | ⟨-, he⟩
  · rw [he]
    exact .of_eq rfl
  · rw [he]
    intro k o' ho'
    rcases Maps.getElem?_modify_eq_some ho' with ⟨rfl, o, ho, rfl⟩ | ⟨-, ho⟩
    · exact ⟨o, ho, quieter_of_status o.challengePayload request.warningMessage fun hs => absurd hs (by decide)⟩
    · exact ⟨o', ho, .refl o'⟩

theorem OneRenewal.persist (h : OneRenewal s) (request : PersistIssuedCertificateRequest) :
    OneRenewal (s.persistIssuedCertificate p request).2 := by
  refine h.quieter (persist_quieter request) ?_
  have htables :
      (workerHandler p .plain .refusing (fun _ => .done) (.persistIssuedCertificate request) s).2.world.store.sites =
      s.world.store.sites := tables_of_worker.2
  have hsites : (s.persistIssuedCertificate p request).2.world.store.sites = s.world.store.sites := htables
  rw [SitesKeyed, hsites]
  exact h.sites

/-- A call of the worker keeps the invariant. -/
theorem workerHandler_keeps {c : WorkerCall} (hc : UpdateReady c s) (h : OneRenewal s) :
    OneRenewal (workerHandler p rows acme net c s).2 := by
  cases c with
  | insertRenewalOrder certificateId zoneId acmeProvider payload => exact h.insertRenewal _ _ _ _
  | claimPendingDnsOrders limit => exact h.claim (by decide) limit
  | claimReadyIssuanceOrders limit => exact h.claim (by decide) limit
  | updateOrderChallengePayload orderId payload =>
    exact h.update (fun _ => rfl) fun o _ => quieter_of_status payload o.errorMessage id
  | updateOrderStatus orderId status errorMessage =>
    exact h.update (fun _ => rfl) fun o ho => quieter_of_status o.challengePayload errorMessage fun hs => hc hs o ho
  | persistIssuedCertificate request => exact h.persist request
  | _ => exact h.of_store (workerHandler_store trivial)

/-- The worker over the tables, with the invariant. -/
abbrev workerSpec (p : Platform) (rows : RowOrder) (acme : AcmeServer) (net : Nat → Delivery) :
    Spec workerSig CertState :=
  .alone (workerHandler p rows acme net) UpdateReady OneRenewal

theorem enqueueLoop_safe (zones : List DnsZoneRecord) (acmeProvider : String) (certificates : List CertificateRecord)
    (created : Nat) : (DnsWorker.enqueueLoop zones acmeProvider certificates created).Safe
      (workerSpec p rows acme net) := by
  induction certificates generalizing created with
  | nil => exact safe_pure _
  | cons certificate certificates ih =>
    unfold DnsWorker.enqueueLoop
    split
    · exact ih created
    · exact safe_bind (safe_call fun _ => trivial) fun _ => safe_bind (safe_call fun _ => trivial) fun _ =>
        safe_bind (safe_attempt _) fun _ => ih _

theorem updateReady_of_silent {c : WorkerCall} (hc : c.Silent) : UpdateReady c s := by
  cases c with
  | updateOrderStatus orderId status errorMessage => exact hc.elim
  | _ => trivial

/-- A program that leaves the tables alone. -/
theorem wp_of_silent {α : Type} {x : WorkerM α} (hx : x.Only WorkerCall.Silent) :
    wp (workerSpec p rows acme net) x (fun _ s' => s'.world.store = s.world.store)
      (fun _ s' => s'.world.store = s.world.store) s := by
  refine hx.wp (I := fun s' : CertState => s'.world.store = s.world.store) (fun _ _ hc _ => updateReady_of_silent hc)
    (fun c s' _ _ hc hs hcan => ?_) rfl
  obtain ⟨-, rfl, -⟩ := hcan
  exact (workerHandler_store hc).trans hs

/-- An update leaves the other orders ready, and the order itself if it stays in a status under way. -/
theorem Ready.update {id : Uuid} (hready : Ready s id) (hkeyed : OrdersKeyed s)
    {f : CertificateOrderRecord → CertificateOrderRecord} (hf : ∀ o, (f o).orderId = o.orderId)
    (hid : id = orderId → ∀ o, (f o).orderStatus = o.orderStatus) :
    Ready (s.afterUpdate (s.updateOrder orderId f)).2 id := by
  intro o' ho'
  rcases mem_updated hkeyed hf ho' with hold | ⟨he, o, ho, rfl⟩
  · exact hready o' hold
  · rw [hid he o]
    exact hready o ho

/-- An order gets a status: the others stay ready. -/
theorem updateStatus_wp {status : String} {R : CertState → Prop} (h : OneRenewal s)
    (hready : isActiveRenewalOrderStatus status → Ready s orderId)
    (hR : ∀ s', OneRenewal s' → (∀ id ≠ orderId, Ready s id → Ready s' id) → R s') (errorMessage : Option String) :
    wp (workerSpec p rows acme net) (DnsWorker.updateStatus orderId status errorMessage) (fun _ => R) (fun _ _ => True)
      s := by
  simp only [DnsWorker.updateStatus, work, wp_bind, wp_call_alone, wp_attempt, implies_true, and_true]
  refine ⟨hready, fun hs _ _ => hR _ hs fun id hne hid => ?_⟩
  exact hid.update h.keyed (fun _ => rfl) fun he => absurd he hne

theorem presentedTurn_wp (client : AcmeClient) (h : OneRenewal s) :
    wp (workerSpec p rows acme net) (DnsWorker.presentedTurn client job) (fun _ s' => OneRenewal s')
      (fun _ _ => True) s := by
  rw [DnsWorker.presentedTurn, wp_bind, wp_caught]
  refine wp_mono (fun request s' hs => ?_) (fun e s' hs => ?_)
    (wp_of_silent (DnsWorker.finalizeCertificateOrder_only client job))
  · simp only [work, wp_bind, wp_call_alone, wp_attempt, implies_true, and_true]
    exact ⟨trivial, fun hs _ _ => hs⟩
  · exact updateStatus_wp (h.of_store hs) (fun ha => absurd ha (by decide)) (fun _ hs _ => hs) _

/-- One turn leaves the orders of the other jobs ready. -/
theorem pendingTurn_wp (client : AcmeClient) (h : OneRenewal s) (hready : Ready s job.orderId) :
    wp (workerSpec p rows acme net) (DnsWorker.pendingTurn client job)
      (fun _ s' => OneRenewal s' ∧ ∀ id ≠ job.orderId, Ready s id → Ready s' id) (fun _ _ => True) s := by
  have hstored : ∀ {s' : CertState} {id : Uuid}, s'.world.store = s.world.store → Ready s id → Ready s' id := by
    intro s' id he hr o ho
    have ho : s'.world.store.certificateOrders[id]? = some o := ho
    rw [he] at ho
    exact hr o ho
  rw [DnsWorker.pendingTurn, wp_bind, wp_caught]
  refine wp_mono (fun payload s' hs => ?_) (fun e s' hs => ?_)
    (wp_of_silent (DnsWorker.processDnsChallenge_only client job))
  · simp only [work, wp_bind, wp_call_alone, wp_attempt, implies_true, and_true]
    refine ⟨trivial, fun hnext _ _ => ?_⟩
    -- the payload changes, the status does not
    have hkeep : ∀ id, Ready s id → Ready (workerHandler p rows acme net
        (.updateOrderChallengePayload job.orderId payload) s').2 id := fun id hr =>
      (hstored hs hr).update (h.of_store hs).keyed (fun _ => rfl) fun _ _ => rfl
    refine updateStatus_wp hnext (fun _ => hkeep _ hready) (fun s'' hs'' hothers => ⟨hs'', fun id hne hr => ?_⟩) none
    exact hothers id hne (hkeep id hr)
  · refine updateStatus_wp (h.of_store hs) (fun ha => absurd ha (by decide))
      (fun s'' hs'' hothers => ⟨hs'', fun id hne hr => ?_⟩) _
    exact hothers id hne (hstored hs hr)

/-- The loop over jobs of different orders. -/
theorem pendingTurns_wp (client : AcmeClient) {jobs : List QueuedOrder} (h : OneRenewal s)
    (hready : ∀ job ∈ jobs, Ready s job.orderId)
    (hdistinct : jobs.Pairwise fun job job' => job.orderId ≠ job'.orderId) :
    wp (workerSpec p rows acme net) (jobs.forM (DnsWorker.pendingTurn client)) (fun _ _ => True)
      (fun _ _ => True) s := by
  induction jobs generalizing s with
  | nil => exact (wp_pure _).2 trivial
  | cons job jobs ih =>
    obtain ⟨hne, hrest⟩ := List.pairwise_cons.1 hdistinct
    change wp _ (DnsWorker.pendingTurn client job >>= fun _ => jobs.forM (DnsWorker.pendingTurn client)) _ _ s
    rw [wp_bind]
    refine wp_mono (fun _ s' hs => ?_) (fun _ _ _ => trivial) (pendingTurn_wp client h (hready job List.mem_cons_self))
    refine ih hs.1 (fun job' hm => hs.2 _ (hne job' hm).symm ?_) hrest
    exact hready job' (List.mem_cons_of_mem _ hm)

/-- A batch of the worker follows the specification. -/
theorem workerBatch_wp (h : OneRenewal s) (q : CertRequest) :
    wp (workerSpec p rows acme net) (workerBatch q) (fun _ _ => True) (fun _ _ => True) s := by
  cases q with
  | hub hub request => exact (wp_pure _).2 trivial
  | enqueue now renewBefore limit acmeProvider =>
    refine safe_bind (safe_call fun _ => trivial) (fun certificates => ?_) s
    split
    · exact safe_pure _
    · exact safe_bind (safe_call fun _ => trivial) fun zones => enqueueLoop_safe zones acmeProvider certificates 0
  | pending client limit =>
    simp only [workerBatch, DnsWorker.processPendingCertificateOrders, work, wp_bind, wp_call_alone, wp_pure]
    refine ⟨trivial, fun hs => pendingTurns_wp client hs (fun job hjob o ho => ?_) ?_⟩
    · rw [status_of_job hjob ho]
      decide
    · exact claimed_distinct h.keyed _ _ limit
  | presented client limit =>
    simp only [workerBatch, DnsWorker.processPresentedCertificateOrders, work, wp_bind, wp_call_alone, wp_pure]
    refine ⟨trivial, fun hs => ?_⟩
    have hloop : ∀ (jobs : List QueuedOrder) (s' : CertState), OneRenewal s' → wp (workerSpec p rows acme net)
        (jobs.forM (DnsWorker.presentedTurn client)) (fun _ s'' => OneRenewal s'') (fun _ _ => True) s' :=
      fun jobs _ h => wp_forM _ jobs (fun _ _ _ h => presentedTurn_wp client h) h
    exact wp_mono (fun _ _ _ => trivial) (fun _ _ _ => trivial) (hloop _ _ hs)

/-- A batch of the worker keeps the invariant. -/
theorem OneRenewal.serve_worker (h : OneRenewal s) {q : CertRequest} (hq : ∀ hub request, q ≠ .hub hub request) :
    OneRenewal (s.serve p rows acme net q) := by
  rw [CertState.serve_worker _ _ _ _ _ hq]
  exact (wp_run (fun c s hc hs => workerHandler_keeps hc hs) h (workerBatch_wp h q)).2

end Worker

/-! ## Runs -/

theorem OneRenewal.init (remote : RemoteDns) : OneRenewal (.init remote) where
  keyed k o ho := by simp [CertState.init, CertState.orders, World.init, MemoryState.empty] at ho
  sites k site hk := by simp [CertState.init, World.init, MemoryState.empty] at hk
  site k k' o o' c ho := by simp [CertState.init, CertState.orders, World.init, MemoryState.empty] at ho
  certificate k k' o o' c ho := by simp [CertState.init, CertState.orders, World.init, MemoryState.empty] at ho

/-- Requests of the hub and batches of the worker one after another: at every point each site and each certificate has
at most one renewal under way, as long as no order is brought back beside a renewal of its site. -/
theorem one_active_renewal (p : Platform) (rows : RowOrder) (acme : AcmeServer) (net : Nat → Delivery) {s : CertState}
    (h : OneRenewal s) (qs : List CertRequest) (hqs : s.Meets p rows acme net (fun s q => requeuesFree s q) qs)
    (pre : List CertRequest) (hpre : pre <+: qs) :
    Sole (·.siteId) (s.serveAll p rows acme net pre).orders ∧
      Sole (·.certificateId) (s.serveAll p rows acme net pre).orders := by
  have hend : OneRenewal (s.serveAll p rows acme net pre) := by
    refine CertState.serveAll_keeps p rows acme net (fun s q hq hs => ?_) h hqs hpre
    cases q with
    | hub hub request => exact hs.serve_hub hub request hq
    | _ => exact hs.serve_worker fun _ _ e => by (cases e)
  exact ⟨hend.site, hend.certificate⟩

/-- A renewal fails, and is retried. -/
def retriedRenewal : List CertRequest :=
  tlsSetup ++ [CertRequest.ask (.renewSiteCertificate 2), .pending .letsEncrypt 10, .ask (.retryCertificateOrder 7)]

theorem one_active_renewal_retried :
    Sole (·.siteId) ((CertState.init (.ofZones [])).serveAll .plain .plain .refusing
      (fun _ => .done) retriedRenewal).orders ∧ Sole (·.certificateId)
        ((CertState.init (.ofZones [])).serveAll .plain .plain .refusing (fun _ => .done) retriedRenewal).orders :=
  one_active_renewal .plain .plain .refusing (fun _ => .done) (.init _) retriedRenewal (by decide +kernel) _
    (List.prefix_refl _)

/-- A renewal fails, another is placed for the site, and the first one is retried. -/
def crossedRenewals : List CertRequest :=
  tlsSetup ++ [CertRequest.ask (.renewSiteCertificate 2), .pending .letsEncrypt 10, .ask (.renewSiteCertificate 2),
    .ask (.retryCertificateOrder 7)]

/-- Both are under way, for one site. -/
theorem two_renewals_of_site :
    ¬ Sole (·.siteId)
      ((CertState.init (.ofZones [])).serveAll .plain .plain .refusing (fun _ => .done) crossedRenewals).orders := by
  have hrow : ∀ k ∈ [7, 12], ∃ o, ((CertState.init (.ofZones [])).serveAll .plain .plain .refusing (fun _ => .done)
      crossedRenewals).orders[k]? = some o ∧ (o.activeRenewal && o.siteId == some 2) = true := by
    intro k hk
    refine (Option.any_eq_true _ _).1 ?_
    revert k
    decide +kernel
  obtain ⟨o, ho, hactive⟩ := hrow 7 (by decide)
  obtain ⟨o', ho', hactive'⟩ := hrow 12 (by decide)
  rw [Bool.and_eq_true, beq_iff_eq] at hactive hactive'
  intro hsole
  exact absurd (hsole 7 12 o o' 2 ho ho' hactive.1 hactive'.1 hactive.2 hactive'.2) (by decide)

end PingoraMesh
