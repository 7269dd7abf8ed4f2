import PingoraMesh.Dns.Renewals

/-!
# Renewals that are refused

The hub refuses to renew the certificate of a site while an order for the site or for its certificate has not ended, and
knows three statuses in which an order has ended. The worker knows the four in which one is under way. Migration 0005
writes a status that is on neither list.

* `refused_iff`: the hub refuses exactly if it finds such an order;
* `refused_iff_active_iff`: hub and worker agree exactly if an order is under way or none was canceled;
* `canceled_order_blocks`: an order that was canceled keeps the hub from renewing for ever.
-/

namespace PingoraMesh

open Calls Fallible HubService

/-- The statuses that the hub, the worker and migration 0005 write. -/
def writtenOrderStatuses : List String :=
  ["pending_dns_challenge", "dns_challenge_presenting", "dns_challenge_presented", "issuing", "issued",
    "dns_challenge_failed", "issue_failed", "canceled"]

/-- The order is for the site, or for the certificate. -/
def CertificateOrderRecord.Concerns (o : CertificateOrderRecord) (siteId : Uuid) (certificateId : Option Uuid) : Prop :=
  o.siteId = some siteId ∨ (certificateId.isSome ∧ o.certificateId = certificateId)

/-- The first certificate of a site. -/
def CertState.firstCertificate (s : CertState) (siteId : Uuid) : Option Uuid :=
  (s.siteCertificates siteId).head?.map (·.certificateId)

/-- The refusal of a renewal because of an order. -/
def activeOrderRefusal (order : CertificateOrderRecord) : AppError :=
  .conflict ("site already has an active certificate order " ++ Uuid.hyphenated order.orderId ++ " in status " ++
    order.orderStatus)

/-- A renewal of the site is refused, because the site has an active order. -/
def RefusedAsActive (p : Platform) (rows : RowOrder) (hub : Hub) (s : CertState) (siteId : Uuid) : Prop :=
  ∃ order, (Fallible.run (certHubHandler p rows) (certRequest p hub (.renewSiteCertificate siteId)) s).1 =
    .error (some (activeOrderRefusal order))

/-- An order of the site or of its certificate has a status in the given set. -/
def CertState.HasOrder (s : CertState) (siteId : Uuid) (statuses : String → Prop) : Prop :=
  ∃ (k : Uuid) (o : CertificateOrderRecord), s.orders[k]? = some o ∧ o.Concerns siteId (s.firstCertificate siteId) ∧
    statuses o.orderStatus

section Refusals

variable {p : Platform} {rows : RowOrder} {s : CertState} {siteId : Uuid} {site : SiteRecord}

/-- The statuses in which the hub takes an order to have ended. -/
def endedForHub : List String := ["issued", "dns_challenge_failed", "issue_failed"]

theorem activeOrderOf_iff {certificateId : Option Uuid} {o : CertificateOrderRecord} :
    activeOrderOf siteId certificateId o = true ↔ o.Concerns siteId certificateId ∧ o.orderStatus ∉ endedForHub := by
  simp [activeOrderOf, CertificateOrderRecord.Concerns, endedForHub]

/-- The calls of the hub over the tables; only what places an order may fail, and orders are placed if `free`. -/
abbrev refusalSpec (p : Platform) (rows : RowOrder) (free : Prop) : Spec (hubSig.faulty AppError) CertState :=
  .alone (certHubHandler p rows) (fun c _ => c.effect = some .certificateOrder → free) fun _ => True

/-- A refusal as active is no error of the database. -/
theorem error_of_refusalSpec {free : Prop} {c : HubCall} {s s' : CertState} {e : AppError}
    (hok : (refusalSpec p rows free).ok c s) (h : (refusalSpec p rows free).can c s (.error e) s') :
    free ∧ ∃ text, e = .internal text := by
  obtain ⟨h, -, -⟩ := h
  cases c with
  | saveCertificateOrder order =>
    refine ⟨hok rfl, ?_⟩
    have h : (certHubHandler p rows (.saveCertificateOrder order) s).1 = .error e := h.symm
    simp only [certHubHandler] at h
    split at h
    · cases h
    · cases h
      exact ⟨_, rfl⟩
  | _ => cases h

/-- What the hub lists is stored. -/
theorem mem_orders_of_listed {order : CertificateOrderRecord}
    (h : order ∈ ((rows.orders s.world.tick s.orders.values).insertionSort fun l r => r.createdAt ≤ l.createdAt).map
      s.joined) : ∃ (k : Uuid) (o : CertificateOrderRecord), s.orders[k]? = some o ∧ s.joined o = order := by
  obtain ⟨o, hmem, hjoined⟩ := List.mem_map.1 h
  have hmem := (rows.orders_perm _ _).mem_iff.1 ((List.perm_insertionSort _ _).mem_iff.1 hmem)
  obtain ⟨k, ho⟩ := Maps.mem_values.1 hmem
  exact ⟨k, o, ho, hjoined⟩

theorem certHubHandler_goes (p : Platform) (rows : RowOrder) (c : HubCall) (s : CertState) :
    (certHubHandler p rows c s).1 ≠ .stopped := by
  intro h
  cases c with
  | saveCertificateOrder order =>
    simp only [certHubHandler] at h
    split at h
    · cases h
    · cases h
  | _ => cases h

/-- An order is placed. -/
theorem issueCertificateOrder_places {free : Prop} (h : free) (siteId certificateId : Option Uuid) (commonName : String)
    (sans : List String) (zoneId : Uuid) (zoneName acmeProvider orderType : String) {E : AppError → CertState → Prop}
    {s : CertState} :
    wp (answered (refusalSpec p rows free))
      (issueCertificateOrder siteId certificateId commonName sans zoneId zoneName acmeProvider orderType)
        (fun _ _ => free)
      E s := by
  simp [issueCertificateOrder, orderCertificate, repo, h]

theorem normalizeCertificateIdentifier_error {raw : String} {e : AppError}
    (h : normalizeCertificateIdentifier raw = .error e) : e.code = .badRequest := by
  unfold normalizeCertificateIdentifier at h
  dsimp only at h
  split at h
  · cases h
    rfl
  · split at h
    · cases h
      rfl
    · split at h
      · cases h
        rfl
      · split at h
        · cases h
          rfl
        · split at h
          · cases h
          · cases h
            rfl

/-- A renewal ends with the refusal exactly if an order of the site or of its certificate has not ended. -/
theorem renewSiteCertificate_refuses (hsite : s.world.store.sites[siteId]? = some site)
    (hhttps : site.tlsEnabled = true ∧ site.protocol = .https) :
    wp (answered (refusalSpec p rows ¬ s.HasOrder siteId (· ∉ endedForHub))) (renewSiteCertificate siteId)
      (fun _ _ => ¬ s.HasOrder siteId (· ∉ endedForHub))
      (fun e _ => (∃ order, e = activeOrderRefusal order) ↔ s.HasOrder siteId (· ∉ endedForHub)) s := by
  have hother : ∀ {e : AppError}, ¬ s.HasOrder siteId (· ∉ endedForHub) → e.code ≠ .conflict →
      ((∃ order, e = activeOrderRefusal order) ↔ s.HasOrder siteId (· ∉ endedForHub)) := by
    intro e hnone hcode
    refine iff_of_false ?_ hnone
    rintro ⟨order, rfl⟩
    exact hcode rfl
  simp only [renewSiteCertificate, repo, wp_bind, wp_call_answered, wp_okOr, wp_ensure, wp_forSome,
    wp_throw, wp_attempt, wp_pure, HubCall.effect, reduceCtorEq, false_implies, true_and, forall_const]
  intro found hfound
  cases hfound
  refine ⟨fun site' hsite' => ⟨fun _ certificates hcertificates orders horders => ?_, fun hno => ?_⟩,
    fun hmissing => ?_⟩
  · cases hcertificates
    cases horders
    refine ⟨fun order horder => ?_, fun hnone => ?_⟩
    · -- an order is found, and it has not ended
      refine iff_of_true ⟨order, rfl⟩ ?_
      obtain ⟨hconcerns, hstatus⟩ := activeOrderOf_iff.1 (List.find?_some horder)
      obtain ⟨k, o, ho, rfl⟩ := mem_orders_of_listed (List.mem_of_find?_eq_some horder)
      exact ⟨k, o, ho, hconcerns, hstatus⟩
    · have hfree : ¬ s.HasOrder siteId (· ∉ endedForHub) := by
        rintro ⟨k, o, ho, hconcerns, hstatus⟩
        exact List.find?_eq_none.1 hnone _ (mem_listed ho) (activeOrderOf_iff.2 ⟨hconcerns, hstatus⟩)
      refine ⟨fun commonName _ zones hzones => ⟨fun zone _ => ?_, fun _ => ?_⟩, fun e he => ?_⟩
      · exact issueCertificateOrder_places hfree _ _ _ _ _ _ _ _
      · exact hother hfree (by decide)
      · refine hother hfree ?_
        rw [normalizeCertificateIdentifier_error he]
        decide
  · have hsite' : s.world.store.sites[siteId]? = some site' := hsite'
    rw [hsite] at hsite'
    cases hsite'
    simp [hhttps] at hno
  · have hmissing : s.world.store.sites[siteId]? = none := hmissing
    rw [hsite] at hmissing
    cases hmissing

/-- The hub refuses exactly if an order of the site or of its certificate has not ended. -/
theorem refused_iff (hub : Hub) (hsite : s.world.store.sites[siteId]? = some site)
    (hhttps : site.tlsEnabled = true ∧ site.protocol = .https) :
    RefusedAsActive p rows hub s siteId ↔ s.HasOrder siteId (· ∉ endedForHub) := by
  have hwp : wp (answered (refusalSpec p rows ¬ s.HasOrder siteId (· ∉ endedForHub)))
      (HubService.program p hub (.renewSiteCertificate siteId)) (fun _ _ => ¬ s.HasOrder siteId (· ∉ endedForHub))
      (fun e _ => (∃ order, e = activeOrderRefusal order) ↔ s.HasOrder siteId (· ∉ endedForHub)) s :=
    (wp_discard _).2 (renewSiteCertificate_refuses hsite hhttps)
  have hfaulty := wp_faulty (fun c s' e s'' hok hcan => ?_) hwp
  · have hend := (wp_run (fun _ _ _ _ => trivial) trivial hfaulty).1
    unfold RefusedAsActive certRequest
    cases hr : (Fallible.run (certHubHandler p rows)
        (faulty (HubService.program p hub (.renewSiteCertificate siteId))) s).1 with
    | ok a =>
      rw [hr] at hend
      refine iff_of_false ?_ hend
      rintro ⟨order, h⟩
      cases h
    | error e =>
      rw [hr] at hend
      cases e with
      | none => exact absurd hr (run_faulty_ne_stopped (fun c s => certHubHandler_goes p rows c s) _ s)
      | some e =>
        rw [← hend e rfl]
        simp
  · obtain ⟨hfree, text, rfl⟩ := error_of_refusalSpec hok hcan
    refine iff_of_false ?_ hfree
    rintro ⟨order, h⟩
    cases h

/-- A written status has ended for the hub, is under way, or is that of the migration. -/
theorem written_cases {status : String} (h : status ∈ writtenOrderStatuses) :
    status ∉ endedForHub ↔ isActiveRenewalOrderStatus status = true ∨ status = "canceled" := by
  have hall : ∀ status ∈ writtenOrderStatuses,
      (status ∉ endedForHub ↔ isActiveRenewalOrderStatus status = true ∨ status = "canceled") := by
    decide
  exact hall status h

/-- **Hub and worker agree** on whether an order of the site or of its first certificate is under way, if and only if
one is or none of them was canceled. -/
theorem refused_iff_active_iff (p : Platform) (rows : RowOrder) (hub : Hub) (s : CertState) (siteId : Uuid)
    (site : SiteRecord) (hstatuses : ∀ (k : Uuid) (o : CertificateOrderRecord), s.orders[k]? = some o →
      o.orderStatus ∈ writtenOrderStatuses)
    (hsite : s.world.store.sites[siteId]? = some site) (hhttps : site.tlsEnabled = true ∧ site.protocol = .https) :
    (RefusedAsActive p rows hub s siteId ↔ s.HasOrder siteId (isActiveRenewalOrderStatus · = true)) ↔
      (s.HasOrder siteId (isActiveRenewalOrderStatus · = true) ∨ ¬ s.HasOrder siteId (· = "canceled")) := by
  have hsplit : s.HasOrder siteId (· ∉ endedForHub) ↔
      s.HasOrder siteId (isActiveRenewalOrderStatus · = true) ∨ s.HasOrder siteId (· = "canceled") := by
    constructor
    · rintro ⟨k, o, ho, hconcerns, hstatus⟩
      rcases (written_cases (hstatuses k o ho)).1 hstatus with hactive | hcanceled
      · exact .inl ⟨k, o, ho, hconcerns, hactive⟩
      · exact .inr ⟨k, o, ho, hconcerns, hcanceled⟩
    · rintro (⟨k, o, ho, hconcerns, hactive⟩ | ⟨k, o, ho, hconcerns, hcanceled⟩)
      · exact ⟨k, o, ho, hconcerns, (written_cases (hstatuses k o ho)).2 (.inl hactive)⟩
      · exact ⟨k, o, ho, hconcerns, (written_cases (hstatuses k o ho)).2 (.inr hcanceled)⟩
  rw [refused_iff hub hsite hhttps, hsplit]
  tauto

end Refusals

/-! ## A site with orders -/

/-- Migration 0005 cancels an order. -/
def CertState.canceled (orderId : Uuid) (s : CertState) : CertState :=
  s.onStore fun store => { store with
    certificateOrders := store.certificateOrders.modify orderId fun order => { order with
      orderStatus := "canceled"
      errorMessage := order.errorMessage.or (some "superseded by a newer active auto-renew order") } }

/-- Two renewals of the site, placed one after the other, have failed. -/
def failedRenewals : CertState :=
  (CertState.init (.ofZones [])).serveAll .plain .plain .refusing (fun _ => .done) (tlsSetup ++
    [CertRequest.ask (.renewSiteCertificate 2), .pending .letsEncrypt 10, .ask (.renewSiteCertificate 2),
      .pending .letsEncrypt 10])

instance decidableHasOrder (s : CertState) (siteId : Uuid) (statuses : String → Prop) [DecidablePred statuses] :
    Decidable (s.HasOrder siteId statuses) :=
  decidable_of_iff (∃ o ∈ s.orders.values, (o.siteId = some siteId ∨ ((s.firstCertificate siteId).isSome ∧
      o.certificateId = s.firstCertificate siteId)) ∧ statuses o.orderStatus) (by
    constructor
    · rintro ⟨o, ho, h⟩
      obtain ⟨k, hk⟩ := Maps.mem_values.1 ho
      exact ⟨k, o, hk, h⟩
    · rintro ⟨k, o, hk, h⟩
      exact ⟨o, Maps.mem_values.2 ⟨k, hk⟩, h⟩)

/-- After they have failed, hub and worker agree that none is under way. -/
theorem refused_iff_active_failed :
    RefusedAsActive .plain .plain ⟨0, 30⟩ failedRenewals 2 ↔ failedRenewals.HasOrder 2
      (isActiveRenewalOrderStatus · = true) := by
  obtain ⟨hwritten, hactive, hsite⟩ :
      (∀ o ∈ failedRenewals.orders.values, o.orderStatus ∈ writtenOrderStatuses) ∧
      (failedRenewals.HasOrder 2 (isActiveRenewalOrderStatus · = true) ∨ ¬ failedRenewals.HasOrder 2 (· = "canceled")) ∧
      (failedRenewals.world.store.sites[(2 : Uuid)]?).any (fun site => site.tlsEnabled && site.protocol == .https) =
        true := by
    decide +kernel
  obtain ⟨site, hsite, hhttps⟩ := (Option.any_eq_true _ _).1 hsite
  rw [Bool.and_eq_true, beq_iff_eq] at hhttps
  exact (refused_iff_active_iff .plain .plain ⟨0, 30⟩ failedRenewals 2 site
    (fun k o ho => hwritten o (Maps.mem_values.2 ⟨k, ho⟩)) hsite hhttps).2 hactive

/-- The first of them was canceled instead: no order is under way, and the hub refuses to renew. -/
theorem canceled_order_blocks :
    (∀ o ∈ (failedRenewals.canceled 7).orders.values, o.orderStatus ∈ writtenOrderStatuses) ∧
      ¬ (RefusedAsActive .plain .plain ⟨0, 30⟩ (failedRenewals.canceled 7) 2 ↔
        (failedRenewals.canceled 7).HasOrder 2 (isActiveRenewalOrderStatus · = true)) := by
  obtain ⟨hwritten, hnone, hblocked, hsite⟩ :
      (∀ o ∈ (failedRenewals.canceled 7).orders.values, o.orderStatus ∈ writtenOrderStatuses) ∧
      (¬ (failedRenewals.canceled 7).HasOrder 2 (isActiveRenewalOrderStatus · = true)) ∧
      (failedRenewals.canceled 7).HasOrder 2 (· ∉ endedForHub) ∧
      ((failedRenewals.canceled 7).world.store.sites[(2 : Uuid)]?).any
        (fun site => site.tlsEnabled && site.protocol == .https) = true := by
    decide +kernel
  refine ⟨hwritten, fun h => ?_⟩
  obtain ⟨site, hsite, hhttps⟩ := (Option.any_eq_true _ _).1 hsite
  rw [Bool.and_eq_true, beq_iff_eq] at hhttps
  exact hnone (h.1 ((refused_iff ⟨0, 30⟩ hsite hhttps).2 hblocked))

end PingoraMesh
