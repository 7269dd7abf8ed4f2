import PingoraMesh.Dns.Zones
import PingoraMesh.Lib.Pool

/-!
# Issued orders

Retries and resets of a hub run at once with batches of the dns-worker, over one table of orders. The hub reads an
order, checks its status and writes the whole order back; a batch claims orders and sets their statuses later,
whatever they are then.

* `retry_holds`, `pending_holds`: a request writes the status only of an order that it has in hand, because it has
  read it when it was not issued, or has claimed it;
* `issued_final_iff`: in every run, an order that is issued stays issued, exactly if no status is written of an order
  whose certificate was persisted after the request has taken the order in hand;
* `issued_order_reset`: an order is reset, whose certificate is persisted between the read and the write of the hub.
-/

namespace PingoraMesh

open Calls Fallible HubService

/-- The order is stored as issued. -/
def CertState.Issued (s : CertState) (k : Uuid) : Prop := ∃ o, s.orders[k]? = some o ∧ o.orderStatus = "issued"

/-! ## What a request has in hand -/

/-- The requests that run at once. -/
inductive OrderRequest where
  | retry (hub : Hub) (orderId : Uuid)
  | reset (hub : Hub) (orderId : Uuid)
  | pending (client : AcmeClient) (limit : Nat)
  | presented (client : AcmeClient) (limit : Nat)
  deriving DecidableEq

/-- The request of the hub, or the batch of the worker. -/
def OrderRequest.request : OrderRequest → CertRequest
  | .retry hub orderId => .hub hub (.retryCertificateOrder orderId)
  | .reset hub orderId => .hub hub (.resetCertificateOrder orderId)
  | .pending client limit => .pending client limit
  | .presented client limit => .presented client limit

/-- The order that a read of the hub takes in hand: the one it finds, if it is not issued. -/
def HubCall.taken : (c : HubCall) → Outcome AppError c.Ans → Option (List Uuid)
  | .certificateOrder _, .answer found => some ((found.filter (·.orderStatus != "issued")).toList.map (·.orderId))
  | _, _ => none

/-- The orders that a claim of the worker takes in hand. -/
def WorkerCall.taken : (c : WorkerCall) → c.Ans → Option (List Uuid)
  | .claimPendingDnsOrders _, jobs => some (jobs.map (·.orderId))
  | .claimReadyIssuanceOrders _, jobs => some (jobs.map (·.orderId))
  | _, _ => none

/-- What is asked of the hub: it writes back an order that it has in hand, with another status. -/
def HubCall.Holds : HubCall → List Uuid → Prop
  | .certificateOrder _, _ => True
  | .saveCertificateOrder order, held => order.orderId ∈ held ∧ order.orderStatus ≠ "issued"
  | _, _ => False

/-- What is asked of the worker: it sets the status of an order that it has in hand, to another one. -/
def WorkerCall.Holds : WorkerCall → List Uuid → Prop
  | .updateOrderStatus orderId status _, held => orderId ∈ held ∧ status ≠ "issued"
  | .insertRenewalOrder _ _ _ _, _ => False
  | _, _ => True

/-- The hub, by what it has in hand. -/
abbrev hubHolds : Spec (hubSig.faulty AppError) (List Uuid) :=
  .protocol HubCall.Holds fun c r held => (c.taken r).getD held

/-- The worker, by what it has in hand. -/
abbrev workerHolds : Spec workerSig (List Uuid) :=
  .protocol WorkerCall.Holds fun c r held => (c.taken r).getD held

section Follows

variable (p : Platform) {held : List Uuid}

theorem requeueCertificateOrder_holds {order : CertificateOrderRecord} (hheld : order.orderId ∈ held)
    (renewBeforeDays : Int) (action : String) :
    wp (answered hubHolds) (requeueCertificateOrder renewBeforeDays order action) (fun _ _ => True) (fun _ _ => True)
      held := by
  simp only [requeueCertificateOrder, repo, wp_bind, wp_ensure, wp_pure, wp_call_answered_protocol,
    implies_true, and_true]
  intro _
  refine ⟨hheld, ?_⟩
  show "pending_dns_challenge" ≠ "issued"
  decide

/-- A failed order is not issued. -/
theorem ne_issued_of_failed {status : String} (h : isFailedCertificateOrderStatus status = true) :
    status ≠ "issued" := by
  rintro rfl
  exact absurd h (by decide)

theorem retry_holds (renewBeforeDays : Int) (orderId : Uuid) :
    wp (answered hubHolds) (retryCertificateOrder renewBeforeDays orderId) (fun _ _ => True)
      (fun _ _ => True) held := by
  simp only [retryCertificateOrder, repo, wp_bind, wp_okOr, wp_ensure, wp_call_answered_protocol,
    implies_true, and_true]
  refine ⟨trivial, ?_⟩
  rintro found order rfl hfailed
  refine requeueCertificateOrder_holds ?_ _ _
  simp [HubCall.taken, ne_issued_of_failed hfailed]

theorem reset_holds (renewBeforeDays : Int) (orderId : Uuid) :
    wp (answered hubHolds) (resetCertificateOrder renewBeforeDays orderId) (fun _ _ => True)
      (fun _ _ => True) held := by
  simp only [resetCertificateOrder, repo, wp_bind, wp_okOr, wp_ensure, wp_call_answered_protocol,
    implies_true, and_true]
  refine ⟨trivial, ?_⟩
  rintro found order rfl hstatus
  refine requeueCertificateOrder_holds ?_ _ _
  simp [HubCall.taken, bne_iff_ne.1 hstatus]

/-- What comes between a claim and the updates leaves the orders in hand. -/
theorem silent_holds {α : Type} {x : WorkerM α} (hx : x.Only WorkerCall.Silent) :
    wp workerHolds x (fun _ held' => held' = held) (fun _ held' => held' = held) held := by
  refine hx.wp (I := fun held' => held' = held) (fun c _ hc _ => ?_) (fun c _ r _ hc hI hcan => ?_) rfl
  · cases c with
    | insertRenewalOrder certificateId zoneId acmeProvider payload => exact hc.elim
    | updateOrderStatus orderId status errorMessage => exact hc.elim
    | _ => trivial
  · rw [hcan, ← hI]
    cases c with
    | claimPendingDnsOrders limit => exact hc.elim
    | claimReadyIssuanceOrders limit => exact hc.elim
    | _ => rfl

theorem updateStatus_holds {orderId : Uuid} (hheld : orderId ∈ held) {status : String} (hstatus : status ≠ "issued")
    (errorMessage : Option String) :
    wp workerHolds (DnsWorker.updateStatus orderId status errorMessage) (fun _ held' => held' = held) (fun _ _ => True)
      held := by
  simp only [DnsWorker.updateStatus, work, wp_bind, wp_call_protocol, wp_attempt, WorkerCall.taken, Option.getD_none,
    implies_true, and_true]
  exact ⟨hheld, hstatus⟩

theorem pending_holds (client : AcmeClient) (limit : Nat) :
    wp workerHolds (DnsWorker.processPendingCertificateOrders client limit) (fun _ _ => True)
      (fun _ _ => True) held := by
  simp only [DnsWorker.processPendingCertificateOrders, work, wp_bind, wp_call_protocol, wp_pure]
  refine ⟨trivial, fun jobs => ?_⟩
  refine wp_mono (fun _ _ _ => trivial) (fun _ _ _ => trivial) (wp_forM (E := fun _ _ => True) (I := fun held' =>
    held' = (jobs : List QueuedOrder).map (·.orderId)) (DnsWorker.pendingTurn client) jobs
      (fun job hjob held' hI => ?_) rfl)
  have hheld : job.orderId ∈ held' := by
    rw [hI]
    exact List.mem_map_of_mem hjob
  rw [DnsWorker.pendingTurn, wp_bind, wp_caught]
  refine wp_mono (fun payload held'' h => ?_) (fun e held'' h => ?_)
    (silent_holds (DnsWorker.processDnsChallenge_only client job))
  · subst h
    simp only [work, wp_bind, wp_call_protocol, wp_attempt, WorkerCall.taken, Option.getD_none, implies_true, and_true]
    refine ⟨trivial, fun _ _ _ => ?_⟩
    exact wp_mono (fun _ _ h => h.trans hI) (fun _ _ h => h) (updateStatus_holds hheld (by decide) none)
  · subst h
    exact wp_mono (fun _ _ h => h.trans hI) (fun _ _ h => h) (updateStatus_holds hheld (by decide) _)

theorem presented_holds (client : AcmeClient) (limit : Nat) :
    wp workerHolds (DnsWorker.processPresentedCertificateOrders client limit) (fun _ _ => True)
      (fun _ _ => True) held := by
  simp only [DnsWorker.processPresentedCertificateOrders, work, wp_bind, wp_call_protocol, wp_pure]
  refine ⟨trivial, fun jobs => ?_⟩
  refine wp_mono (fun _ _ _ => trivial) (fun _ _ _ => trivial) (wp_forM (E := fun _ _ => True) (I := fun held' =>
    held' = (jobs : List QueuedOrder).map (·.orderId)) (DnsWorker.presentedTurn client) jobs
      (fun job hjob held' hI => ?_)
    rfl)
  have hheld : job.orderId ∈ held' := by
    rw [hI]
    exact List.mem_map_of_mem hjob
  rw [DnsWorker.presentedTurn, wp_bind, wp_caught]
  refine wp_mono (fun request held'' h => ?_) (fun e held'' h => ?_)
    (silent_holds (DnsWorker.finalizeCertificateOrder_only client job))
  · subst h
    simp only [work, wp_bind, wp_call_protocol, wp_attempt, WorkerCall.taken, Option.getD_none, implies_true, and_true]
    exact ⟨trivial, fun _ _ _ => hI⟩
  · subst h
    exact wp_mono (fun _ _ h => h.trans hI) (fun _ _ h => h) (updateStatus_holds hheld (by decide) _)

/-- The hub and the worker, by what they have in hand. -/
abbrev orderSpec : Spec certSig (List Uuid ⊕ List Uuid) := hubHolds.join workerHolds

/-- What a request has in hand. -/
def inHand (g : List Uuid ⊕ List Uuid) : List Uuid := g.elim id id

/-- Every request begins with empty hands, and writes statuses of what it has in hand. -/
theorem follows_orders (q : OrderRequest) :
    ∃ g, inHand g = [] ∧ Prog.wp orderSpec (certProgram p q.request) (fun _ _ => True) g := by
  have hhub : ∀ {hub : Hub} {request : Request},
      wp (answered hubHolds) (HubService.program p hub request) (fun _ _ => True) (fun _ _ => True) [] →
      Prog.wp orderSpec (certProgram p (.hub hub request)) (fun _ _ => True) (.inl []) := by
    intro hub request h
    have hfaulty := wp_faulty (T := hubHolds) (E := fun _ _ => True) (fun _ _ _ _ _ _ => trivial) h
    rw [certProgram, Prog.wp_bind]
    refine Prog.wp_onLeft (Prog.wp_mono (fun _ _ _ => ?_) (wp_iff_run.1 hfaulty))
    exact (Prog.wp_ret _).2 trivial
  have hworker : ∀ {x : WorkerM Nat}, wp workerHolds x (fun _ _ => True) (fun _ _ => True) [] →
      Prog.wp orderSpec (Prog.onRight (ExceptT.run x) >>= fun _ => .ret ()) (fun _ _ => True) (.inr []) := by
    intro x h
    rw [Prog.wp_bind]
    refine Prog.wp_onRight (Prog.wp_mono (fun _ _ _ => ?_) (wp_iff_run.1 h))
    exact (Prog.wp_ret _).2 trivial
  cases q with
  | retry hub orderId => exact ⟨.inl [], rfl, hhub ((wp_discard _).2 (retry_holds _ orderId))⟩
  | reset hub orderId => exact ⟨.inl [], rfl, hhub ((wp_discard _).2 (reset_holds _ orderId))⟩
  | pending client limit => exact ⟨.inr [], rfl, hworker (pending_holds client limit)⟩
  | presented client limit => exact ⟨.inr [], rfl, hworker (presented_holds client limit)⟩

end Follows

/-! ## What a call does to the statuses -/

/-- What a call takes in hand. -/
def certTaken : (c : certSig.Call) → certSig.Ans c → Option (List Uuid)
  | .inl c, r => c.taken r
  | .inr c, r => c.taken r

/-- The order whose certificate a call has persisted. -/
def certPersisted : (c : certSig.Call) → certSig.Ans c → Option Uuid
  | .inr (.persistIssuedCertificate request), .ok _ => some request.orderId
  | _, _ => none

/-- What is asked of a call. -/
def certHolds : certSig.Call → List Uuid → Prop
  | .inl c, held => c.Holds held
  | .inr c, held => c.Holds held

/-- The order whose status a call sets to another one than issued, unless the database refuses the call. -/
def CertState.statusWritten (s : CertState) : certSig.Call → Option Uuid
  | .inl (.saveCertificateOrder order) =>
    if s.world.store.hasReferences order && !indexRefuses s.orders order then some order.orderId else none
  | .inr (.updateOrderStatus orderId status errorMessage) =>
    if (s.orders[orderId]?).any fun order =>
        !indexRefuses s.orders { order with orderStatus := status, errorMessage := errorMessage } then some orderId
    else none
  | _ => none

section Calls

variable {p : Platform} {rows : RowOrder} {acme : AcmeServer} {net : Nat → Delivery} {s : CertState} {c : certSig.Call}
  {held : List Uuid} {k : Uuid}

/-- Orders stay. -/
theorem mem_orders_call (hc : certHolds c held) (hk : k ∈ s.orders) :
    k ∈ (certHandler p rows acme net c s).2.orders := by
  cases c with
  | inl c =>
    cases c with
    | certificateOrder orderId => exact hk
    | saveCertificateOrder order =>
      rcases saveOrder_cases p rows order with ⟨-, -, he⟩ | he
      · change k ∈ (certHubHandler p rows (.saveCertificateOrder order) s).2.orders
        rw [he]
        exact Std.ExtTreeMap.mem_insert.2 (.inr hk)
      · change k ∈ (certHubHandler p rows (.saveCertificateOrder order) s).2.orders
        rw [he]
        exact hk
    | _ => exact hc.elim
  | inr c => exact mem_orders_worker hk

/-- An order after a call has the status it had, was not issued and is not issued, gets a status that is written, or is
issued now. -/
theorem status_call (h : Filed s) (hc : certHolds c held) (hheld : ∀ k ∈ held, k ∈ s.orders)
    {o' : CertificateOrderRecord} (ho' : (certHandler p rows acme net c s).2.orders[k]? = some o') :
    ∃ o, s.orders[k]? = some o ∧
      (o'.orderStatus = o.orderStatus ∨ (o.orderStatus ≠ "issued" ∧ o'.orderStatus ≠ "issued") ∨
      (s.statusWritten c = some k ∧ o'.orderStatus ≠ "issued") ∨
      (certPersisted c (certHandler p rows acme net c s).1 = some k ∧ o'.orderStatus = "issued")) := by
  have hclaim : ∀ {before after : String} {limit : Nat}, before ≠ "issued" → after ≠ "issued" →
      (s.claimOrders rows before after limit).2.orders[k]? = some o' → ∃ o, s.orders[k]? = some o ∧
        (o'.orderStatus = o.orderStatus ∨ (o.orderStatus ≠ "issued" ∧ o'.orderStatus ≠ "issued")) := by
    intro before after limit hbefore hafter ho'
    obtain ⟨o, ho, ⟨hstatus, rfl⟩ | rfl⟩ := mem_claimed h.orders ho'
    · exact ⟨o, ho, .inr ⟨hstatus ▸ hbefore, hafter⟩⟩
    · exact ⟨o', ho, .inl rfl⟩
  cases c with
  | inl c =>
    cases c with
    | certificateOrder orderId => exact ⟨o', ho', .inl rfl⟩
    | saveCertificateOrder order =>
      change (certHubHandler p rows (.saveCertificateOrder order) s).2.orders[k]? = some o' at ho'
      rcases saveOrder_cases p rows order with ⟨hrefs, hindex, he⟩ | he
      · rw [he] at ho'
        rcases Maps.getElem?_insert_eq_some ho' with ⟨rfl, rfl⟩ | ⟨-, ho⟩
        · have hstored := hheld _ hc.1
          obtain ⟨o, ho⟩ := Option.isSome_iff_exists.1 (Std.ExtTreeMap.mem_iff_isSome_getElem?.1 hstored)
          refine ⟨o, ho, .inr (.inr (.inl ⟨?_, hc.2⟩))⟩
          simp [CertState.statusWritten, hrefs, hindex]
        · exact ⟨o', ho, .inl rfl⟩
      · rw [he] at ho'
        exact ⟨o', ho', .inl rfl⟩
    | _ => exact hc.elim
  | inr c =>
    cases c with
    | insertRenewalOrder certificateId zoneId acmeProvider payload => exact hc.elim
    | claimPendingDnsOrders limit =>
      obtain ⟨o, ho, hcase | hcase⟩ := hclaim (by decide) (by decide) ho'
      · exact ⟨o, ho, .inl hcase⟩
      · exact ⟨o, ho, .inr (.inl hcase)⟩
    | claimReadyIssuanceOrders limit =>
      obtain ⟨o, ho, hcase | hcase⟩ := hclaim (by decide) (by decide) ho'
      · exact ⟨o, ho, .inl hcase⟩
      · exact ⟨o, ho, .inr (.inl hcase)⟩
    | updateOrderChallengePayload orderId payload =>
      rcases mem_updated h.orders (f := fun order => { order with challengePayload := payload }) (fun _ => rfl) ho' with
        ho | ⟨rfl, o, ho, rfl⟩
      · exact ⟨o', ho, .inl rfl⟩
      · exact ⟨o, ho, .inl rfl⟩
    | updateOrderStatus orderId status errorMessage =>
      simp only [certHandler, Handler.join, workerHandler, CertState.updateOrder] at ho'
      split at ho'
      · exact ⟨o', ho', .inl rfl⟩
      · rename_i order horder
        split at ho'
        · exact ⟨o', ho', .inl rfl⟩
        · rename_i hindex
          have hid : order.orderId = orderId := h.orders _ order horder
          rcases Maps.getElem?_insert_eq_some ho' with ⟨hk, rfl⟩ | ⟨-, ho⟩
          · obtain rfl : k = orderId := hk.trans hid
            refine ⟨order, horder, .inr (.inr (.inl ⟨if_pos ?_, hc.2⟩))⟩
            rw [horder, Option.any_some]
            simpa using hindex
          · exact ⟨o', ho, .inl rfl⟩
    | persistIssuedCertificate request =>
      simp only [certHandler, Handler.join, workerHandler, CertState.persistIssuedCertificate] at ho' ⊢
      split at ho'
      · exact ⟨o', ho', .inl rfl⟩
      · split at ho'
        · exact ⟨o', ho', .inl rfl⟩
        · rcases Maps.getElem?_modify_eq_some ho' with ⟨rfl, o, ho, rfl⟩ | ⟨-, ho⟩
          · refine ⟨o, ho, .inr (.inr (.inr ⟨?_, rfl⟩))⟩
            simp [certPersisted, *]
          · exact ⟨o', ho, .inl rfl⟩
    | _ => exact ⟨o', ho', .inl rfl⟩

/-- Nothing else makes an order issued than the certificate that is persisted for it. -/
theorem issued_call (h : Filed s) (hc : certHolds c held) (hheld : ∀ k ∈ held, k ∈ s.orders)
    (hk : (certHandler p rows acme net c s).2.Issued k) :
    s.Issued k ∨ certPersisted c (certHandler p rows acme net c s).1 = some k := by
  obtain ⟨o', ho', hstatus⟩ := hk
  obtain ⟨o, ho, hsame | ⟨-, hother⟩ | ⟨-, hother⟩ | ⟨hpersisted, -⟩⟩ := status_call h hc hheld ho'
  · exact .inl ⟨o, ho, hsame.symm.trans hstatus⟩
  · exact absurd hstatus hother
  · exact absurd hstatus hother
  · exact .inr hpersisted

/-- An issued order stays issued, unless its status is written. -/
theorem issued_kept (h : Filed s) (hc : certHolds c held) (hheld : ∀ k ∈ held, k ∈ s.orders) (hk : s.Issued k)
    (hwritten : s.statusWritten c ≠ some k) : (certHandler p rows acme net c s).2.Issued k := by
  obtain ⟨o, ho, hstatus⟩ := hk
  have hmem : k ∈ s.orders := Std.ExtTreeMap.mem_iff_isSome_getElem?.2 (by rw [ho]; rfl)
  have hmem' : k ∈ (certHandler p rows acme net c s).2.orders := mem_orders_call hc hmem
  obtain ⟨o', ho'⟩ := Option.isSome_iff_exists.1 (Std.ExtTreeMap.mem_iff_isSome_getElem?.1 hmem')
  refine ⟨o', ho', ?_⟩
  obtain ⟨x, hx, hcase⟩ := status_call h hc hheld ho'
  obtain rfl : x = o := Option.some.inj (hx.symm.trans ho)
  rcases hcase with hsame | ⟨hother, -⟩ | ⟨hthis, -⟩ | ⟨-, hnow⟩
  · exact hsame.trans hstatus
  · exact absurd hstatus hother
  · exact absurd hthis hwritten
  · exact hnow

/-- A status that is written is another one. -/
theorem not_issued_of_written (h : Filed s) (hc : certHolds c held) (hwritten : s.statusWritten c = some k) :
    ¬ (certHandler p rows acme net c s).2.Issued k := by
  rintro ⟨o', ho', hstatus⟩
  cases c with
  | inl c =>
    cases c with
    | saveCertificateOrder order =>
      have hcond : (s.world.store.hasReferences order && !indexRefuses s.orders order) = true ∧ order.orderId = k := by
        simpa [CertState.statusWritten] using hwritten
      obtain ⟨hcond, rfl⟩ := hcond
      rw [Bool.and_eq_true, Bool.not_eq_true'] at hcond
      simp only [certHandler, Handler.join, certHubHandler, CertState.putOrder, hcond.1, hcond.2, Bool.not_true,
        Bool.false_eq_true, if_false] at ho'
      have hsaved : (s.orders.insert order.orderId order)[order.orderId]? = some o' := ho'
      rw [Std.ExtTreeMap.getElem?_insert_self] at hsaved
      cases hsaved
      exact hc.2 hstatus
    | _ => cases hwritten
  | inr c =>
    cases c with
    | updateOrderStatus orderId status errorMessage =>
      have hcond : ((s.orders[orderId]?).any fun order =>
          !indexRefuses s.orders { order with orderStatus := status, errorMessage := errorMessage }) = true ∧
            orderId = k := by
        simpa [CertState.statusWritten] using hwritten
      obtain ⟨hcond, rfl⟩ := hcond
      obtain ⟨order, horder, hindex⟩ := (Option.any_eq_true _ _).1 hcond
      rw [Bool.not_eq_true'] at hindex
      have hid : order.orderId = orderId := h.orders _ order horder
      simp only [certHandler, Handler.join, workerHandler, CertState.updateOrder, horder, hindex, Bool.false_eq_true,
        if_false] at ho'
      have hsaved : (s.orders.insert order.orderId
          { order with orderStatus := status, errorMessage := errorMessage })[orderId]? = some o' := ho'
      rw [hid, Std.ExtTreeMap.getElem?_insert_self] at hsaved
      cases hsaved
      exact hc.2 hstatus
    | _ => cases hwritten

/-- A certificate that is persisted makes its order issued. -/
theorem issued_of_persisted (hpersisted : certPersisted c (certHandler p rows acme net c s).1 = some k)
    (hk : k ∈ (certHandler p rows acme net c s).2.orders) : (certHandler p rows acme net c s).2.Issued k := by
  cases c with
  | inl c => cases hpersisted
  | inr c =>
    cases c with
    | persistIssuedCertificate request =>
      simp only [certHandler, Handler.join, workerHandler, CertState.persistIssuedCertificate] at hpersisted hk ⊢
      split at hpersisted
      · cases hpersisted
      · rename_i hrefs
        rw [if_neg hrefs] at hk ⊢
        split at hpersisted
        · cases hpersisted
        · rename_i hunique
          rw [if_neg hunique] at hk ⊢
          obtain rfl : request.orderId = k := Option.some.inj hpersisted
          obtain ⟨o, ho⟩ := Option.isSome_iff_exists.1 (Std.ExtTreeMap.mem_iff_isSome_getElem?.1 hk)
          refine ⟨o, ho, ?_⟩
          rcases Maps.getElem?_modify_eq_some ho with ⟨-, x, -, rfl⟩ | ⟨hne, -⟩
          · rfl
          · exact absurd rfl hne
    | _ => cases hpersisted

/-- What is taken in hand is stored, and not issued. -/
theorem not_issued_of_taken (h : Filed s) {ids : List Uuid}
    (htaken : certTaken c (certHandler p rows acme net c s).1 = some ids) (hk : k ∈ ids) :
    k ∈ (certHandler p rows acme net c s).2.orders ∧ ¬ (certHandler p rows acme net c s).2.Issued k := by
  have hclaim : ∀ {before after : String} {limit : Nat}, after ≠ "issued" →
      k ∈ (s.claimOrders rows before after limit).1.map (·.orderId) →
      k ∈ (s.claimOrders rows before after limit).2.orders ∧ ¬ (s.claimOrders rows before after limit).2.Issued k := by
    intro before after limit hafter hk
    obtain ⟨job, hjob, rfl⟩ := List.mem_map.1 hk
    refine ⟨?_, fun ⟨o', ho', hstatus⟩ => hafter ((status_of_job hjob ho').symm.trans hstatus)⟩
    obtain ⟨o, hm, hclaimable⟩ := List.mem_filterMap.1 hjob
    rw [claimable_orderId hclaimable]
    refine mem_movedAll_of_mem (Std.ExtTreeMap.mem_iff_isSome_getElem?.2 ?_)
    rw [(stored_of_claimed h.orders hm).1]
    rfl
  cases c with
  | inl c =>
    cases c with
    | certificateOrder orderId =>
      obtain rfl : ((((s.orders[orderId]?).map s.joined).filter (·.orderStatus != "issued")).toList.map
        (·.orderId)) = ids :=
        Option.some.inj htaken
      obtain ⟨joined, hjoined, rfl⟩ := List.mem_map.1 hk
      obtain ⟨hfound, hstatus⟩ := Option.filter_eq_some_iff.1 (Option.mem_toList.1 hjoined)
      obtain ⟨o, ho, rfl⟩ := Option.map_eq_some_iff.1 hfound
      have hid : o.orderId = orderId := h.orders _ o ho
      change o.orderId ∈ s.orders ∧ ¬ s.Issued o.orderId
      rw [hid]
      refine ⟨Std.ExtTreeMap.mem_iff_isSome_getElem?.2 (by rw [ho]; rfl), ?_⟩
      rintro ⟨x, hx, hissued⟩
      obtain rfl : o = x := Option.some.inj (ho.symm.trans hx)
      exact bne_iff_ne.1 hstatus hissued
    | _ => cases htaken
  | inr c =>
    cases c with
    | claimPendingDnsOrders limit =>
      obtain rfl := Option.some.inj htaken
      exact hclaim (by decide) hk
    | claimReadyIssuanceOrders limit =>
      obtain rfl := Option.some.inj htaken
      exact hclaim (by decide) hk
    | _ => cases htaken

end Calls

/-! ## The invariant -/

section Invariant

variable {ι : Type} [DecidableEq ι]

/-- The certificate of the order has been persisted after the name has last taken the order in hand. -/
def issuedSince (tr : List (Event certSig ι)) (i : ι) (k : Uuid) : Bool :=
  tr.foldl (fun since e =>
    if certPersisted e.call e.ans = some k then true
    else if e.thread = i ∧ k ∈ (certTaken e.call e.ans).getD [] then false
    else since) false

theorem issuedSince_concat (tr : List (Event certSig ι)) (e : Event certSig ι) (i : ι) (k : Uuid) :
    issuedSince (tr ++ [e]) i k =
      if certPersisted e.call e.ans = some k then true
      else if e.thread = i ∧ k ∈ (certTaken e.call e.ans).getD [] then false
      else issuedSince tr i k := by
  simp [issuedSince]

/-- Requests have stored orders in hand, and know nothing of the certificates that are persisted meanwhile. -/
structure OrderInv (g : ι → Option (List Uuid ⊕ List Uuid)) (s : CertState) (tr : List (Event certSig ι)) : Prop where
  filed : Filed s
  stored : ∀ i gi, g i = some gi → ∀ k ∈ inHand gi, k ∈ s.orders
  since : ∀ i gi, g i = some gi → ∀ k ∈ inHand gi, s.Issued k → issuedSince tr i k = true

variable {p : Platform} {rows : RowOrder} {acme : AcmeServer} {net : Nat → Delivery}
  {g : ι → Option (List Uuid ⊕ List Uuid)} {s : CertState} {tr : List (Event certSig ι)} {i : ι}
  {gi gi' : List Uuid ⊕ List Uuid} {c : certSig.Call}

/-- What a call asks, and what is in hand after it. -/
theorem orderSpec_cases (h : orderSpec.ok c gi) :
    certHolds c (inHand gi) ∧ ∀ r, ∃ gi', orderSpec.can c gi r gi' ∧ inHand gi' = (certTaken c r).getD (inHand gi) := by
  cases c with
  | inl c =>
    cases gi with
    | inl held => exact ⟨h, fun r => ⟨.inl ((c.taken r).getD held), rfl, rfl⟩⟩
    | inr held => exact h.elim
  | inr c =>
    cases gi with
    | inl held => exact h.elim
    | inr held => exact ⟨h, fun r => ⟨.inr ((c.taken r).getD held), rfl, rfl⟩⟩

/-- One call. -/
theorem OrderInv.call (h : OrderInv g s tr) (hi : g i = some gi) (hc : certHolds c (inHand gi))
    (hhand : inHand gi' = (certTaken c (certHandler p rows acme net c s).1).getD (inHand gi)) :
    OrderInv (Function.update g i (some gi')) (certHandler p rows acme net c s).2
      (tr ++ [⟨i, c, (certHandler p rows acme net c s).1⟩]) := by
  have hheld := h.stored i gi hi
  have hissued : ∀ k, (certHandler p rows acme net c s).2.Issued k →
      s.Issued k ∨ certPersisted c (certHandler p rows acme net c s).1 = some k :=
    fun k => issued_call h.filed hc hheld
  refine ⟨?_, Pool.forall_update_ne (fun k hk => ?_) fun j gj _ hj k hk => ?_,
    Pool.forall_update_ne (fun k hk hnow => ?_) fun j gj hne hj k hk hnow => ?_⟩
  · cases c with
    | inl c => exact h.filed.call c
    | inr c => exact h.filed.work c
  · rw [hhand] at hk
    cases htaken : certTaken c (certHandler p rows acme net c s).1 with
    | none =>
      rw [htaken] at hk
      exact mem_orders_call hc (hheld k hk)
    | some ids =>
      rw [htaken] at hk
      exact (not_issued_of_taken h.filed htaken hk).1
  · exact mem_orders_call hc (h.stored j gj hj k hk)
  · rw [issuedSince_concat]
    rw [hhand] at hk
    cases htaken : certTaken c (certHandler p rows acme net c s).1 with
    | none =>
      rw [htaken] at hk
      rcases hissued k hnow with hold | hpersisted
      · simp [h.since i gi hi k hk hold]
      · simp [hpersisted]
    | some ids =>
      rw [htaken] at hk
      exact absurd hnow (not_issued_of_taken h.filed htaken hk).2
  · rw [issuedSince_concat]
    rcases hissued k hnow with hold | hpersisted
    · simp [Ne.symm hne, h.since j gj hj k hk hold]
    · simp [hpersisted]

/-- A start has nothing in hand. -/
theorem OrderInv.spawn (h : OrderInv g s tr) (hgi : inHand gi = []) :
    OrderInv (Function.update g i (some gi)) s tr := by
  refine ⟨h.filed, Pool.forall_update (fun k hk => ?_) h.stored, Pool.forall_update (fun k hk => ?_) h.since⟩
  · rw [hgi] at hk
    cases hk
  · rw [hgi] at hk
    cases hk

end Invariant

/-! ## Runs -/

section Runs

variable {ι : Type} [DecidableEq ι]

/-- The program of a request. -/
abbrev orderProgram (p : Platform) (q : OrderRequest) : Prog certSig Unit := certProgram p q.request

/-- No status is written of an order whose certificate was persisted after the request has taken the order in hand. -/
def WritesFresh (P : Pool certSig Unit ι CertState) : Move ι OrderRequest → Prop
  | .spawn _ _ => True
  | .go i => ∀ c ∈ P.next i, ∀ k ∈ P.state.statusWritten c, issuedSince P.trace i k = false

variable {p : Platform} {rows : RowOrder} {acme : AcmeServer} {net : Nat → Delivery}

/-- A move leaves every issued order issued. -/
def KeepsIssued (p : Platform) (rows : RowOrder) (acme : AcmeServer) (net : Nat → Delivery)
    (P : Pool certSig Unit ι CertState) (m : Move ι OrderRequest) : Prop :=
  ∀ k, P.state.Issued k → (Pool.move (certHandler p rows acme net) (orderProgram p) P m).state.Issued k

/-- An order for which a certificate was persisted is issued. -/
def PersistedIssued (s : CertState) (tr : List (Event certSig ι)) : Prop :=
  ∀ e ∈ tr, ∀ k, certPersisted e.call e.ans = some k → k ∈ s.orders → s.Issued k

omit [DecidableEq ι] in
theorem held_of_written {s : CertState} {c : certSig.Call} {held : List Uuid} {k : Uuid} (hc : certHolds c held)
    (hwritten : s.statusWritten c = some k) : k ∈ held := by
  cases c with
  | inl c =>
    cases c with
    | saveCertificateOrder order =>
      obtain rfl : order.orderId = k := by
        simp only [CertState.statusWritten] at hwritten
        split at hwritten
        · exact Option.some.inj hwritten
        · cases hwritten
      exact hc.1
    | _ => cases hwritten
  | inr c =>
    cases c with
    | updateOrderStatus orderId status errorMessage =>
      obtain rfl : orderId = k := by
        simp only [CertState.statusWritten] at hwritten
        split at hwritten
        · exact Option.some.inj hwritten
        · cases hwritten
      exact hc.1
    | _ => cases hwritten

theorem persisted_of_issuedSince {tr : List (Event certSig ι)} {i : ι} {k : Uuid} (h : issuedSince tr i k = true) :
    ∃ e ∈ tr, certPersisted e.call e.ans = some k := by
  have hfold : ∀ (tr : List (Event certSig ι)) (since : Bool),
      tr.foldl (fun since e => if certPersisted e.call e.ans = some k then true
        else if e.thread = i ∧ k ∈ (certTaken e.call e.ans).getD [] then false else since) since = true →
      since = true ∨ ∃ e ∈ tr, certPersisted e.call e.ans = some k := by
    intro tr
    induction tr with
    | nil => exact fun since h => .inl h
    | cons e tr ih =>
      intro since h
      rcases ih _ h with hsince | ⟨e', he', hp⟩
      · dsimp only at hsince
        split at hsince
        · exact .inr ⟨e, List.mem_cons_self, by assumption⟩
        · split at hsince
          · cases hsince
          · exact .inl hsince
      · exact .inr ⟨e', List.mem_cons_of_mem _ he', hp⟩
  exact (hfold tr false h).resolve_left nofun

theorem spawn_keeps_orders {adm : Pool certSig Unit ι CertState → Move ι OrderRequest → Prop} :
    Pool.SpawnKeeps (orderProgram p) orderSpec OrderInv (fun _ _ => True) adm := by
  intro P g i q _ _ hF
  obtain ⟨gi, hgi, hw⟩ := follows_orders p q
  exact ⟨gi, hw, hF.inv.spawn hgi⟩

theorem call_keeps_orders {adm : Pool certSig Unit ι CertState → Move ι OrderRequest → Prop} :
    Pool.CallKeeps (certHandler p rows acme net) orderSpec OrderInv (fun _ _ => True) adm := by
  intro P g i c k gi _ _ hgi hok hF
  obtain ⟨hc, hnext⟩ := orderSpec_cases hok
  obtain ⟨gi', hcan, hhand⟩ := hnext (certHandler p rows acme net c P.state).1
  exact ⟨gi', hcan, hF.inv.call hgi hc hhand⟩

/-- Where statuses are written of fresh orders, issued orders stay issued. -/
theorem keepsIssued_of_fresh {P : Pool certSig Unit ι CertState} {g : ι → Option (List Uuid ⊕ List Uuid)}
    {m : Move ι OrderRequest} (hm : WritesFresh P m) (hF : Pool.Fits orderSpec OrderInv (fun _ _ => True) P g) :
    KeepsIssued p rows acme net P m := by
  intro k hk
  cases m with
  | spawn i q => cases hi : P.threads i <;> simpa [Pool.move, hi] using hk
  | go i =>
    cases hi : P.threads i with
    | none => simpa [Pool.move, hi] using hk
    | some x =>
      cases x with
      | ret a => simpa [Pool.move, hi] using hk
      | call c f =>
        obtain ⟨gi, hgi, hw⟩ := hF.follows i _ hi
        have hc := (orderSpec_cases (Prog.wp_call.1 hw).1).1
        have hkept : (certHandler p rows acme net c P.state).2.Issued k := by
          refine issued_kept hF.inv.filed hc (hF.inv.stored i gi hgi) hk fun hwritten => ?_
          have hsince := hF.inv.since i gi hgi k (held_of_written hc hwritten) hk
          rw [hm c (Pool.next_eq hi) k hwritten] at hsince
          cases hsince
        simpa [Pool.move, hi] using hkept

omit [DecidableEq ι] in
/-- Where issued orders stay issued, a call keeps `PersistedIssued`. -/
theorem PersistedIssued.call {s : CertState} {tr : List (Event certSig ι)} {i : ι} {c : certSig.Call} {held : List Uuid}
    (h : PersistedIssued s tr) (hfiled : Filed s) (hc : certHolds c held) (hheld : ∀ k ∈ held, k ∈ s.orders)
    (hkept : ∀ k, s.Issued k → (certHandler p rows acme net c s).2.Issued k) :
    PersistedIssued (certHandler p rows acme net c s).2 (tr ++ [⟨i, c, (certHandler p rows acme net c s).1⟩]) := by
  intro e he k hp hk
  rcases List.mem_append.1 he with he | he
  · obtain ⟨o', ho'⟩ := Option.isSome_iff_exists.1 (Std.ExtTreeMap.mem_iff_isSome_getElem?.1 hk)
    obtain ⟨o, ho, -⟩ := status_call hfiled hc hheld ho'
    exact hkept k (h e he k hp (Std.ExtTreeMap.mem_iff_isSome_getElem?.2 (by rw [ho]; rfl)))
  · obtain rfl := List.mem_singleton.1 he
    exact issued_of_persisted hp hk

/-- Where issued orders stay issued, statuses are written of fresh orders. -/
theorem fresh_of_keepsIssued {s : CertState} (hs : Filed s) {ms : List (Move ι OrderRequest)}
    (hms : Pool.Admits (certHandler p rows acme net) (orderProgram p) (KeepsIssued p rows acme net) (Pool.init s) ms) :
    Pool.Admits (certHandler p rows acme net) (orderProgram p) WritesFresh (Pool.init s) ms := by
  have hmove : ∀ {P : Pool certSig Unit ι CertState} {i : ι} {c : certSig.Call} {f : certSig.Ans c → Prog certSig Unit},
      P.threads i = some (.call c f) → KeepsIssued p rows acme net P (.go i) →
      ∀ k, P.state.Issued k → (certHandler p rows acme net c P.state).2.Issued k := by
    intro P i c f hi hkept k hk
    simpa [Pool.move, hi] using hkept k hk
  have hspawn : Pool.SpawnKeeps (orderProgram p) orderSpec (fun g s tr => OrderInv g s tr ∧ PersistedIssued s tr)
      (fun _ _ => True) (KeepsIssued (ι := ι) p rows acme net) := by
    intro P g i q _ _ hF
    obtain ⟨gi, hgi, hw⟩ := follows_orders p q
    exact ⟨gi, hw, hF.inv.1.spawn hgi, hF.inv.2⟩
  have hcall : Pool.CallKeeps (certHandler p rows acme net) orderSpec
      (fun g s tr => OrderInv g s tr ∧ PersistedIssued s tr) (fun _ _ => True)
        (KeepsIssued (ι := ι) p rows acme net) := by
    intro P g i c f gi hadm hi hgi hok hF
    obtain ⟨hc, hnext⟩ := orderSpec_cases hok
    obtain ⟨gi', hcan, hhand⟩ := hnext (certHandler p rows acme net c P.state).1
    refine ⟨gi', hcan, hF.inv.1.call hgi hc hhand, ?_⟩
    exact hF.inv.2.call hF.inv.1.filed hc (hF.inv.1.stored i gi hgi) (hmove hi hadm)
  refine Pool.admits_of_fits hspawn hcall (fun P g m hadm hF => ?_) (Pool.fits_init ⟨?_, ?_⟩) ms hms
  · cases m with
    | spawn i q => trivial
    | go i =>
      intro c hc k hwritten
      obtain ⟨f, hi⟩ : ∃ f, P.threads i = some (.call c f) := by
        unfold Pool.next at hc
        split at hc
        · cases hc
          exact ⟨_, by assumption⟩
        · cases hc
      obtain ⟨gi, hgi, hw⟩ := hF.follows i _ hi
      have hholds := (orderSpec_cases (Prog.wp_call.1 hw).1).1
      by_contra hsince
      -- the certificate has been persisted, so the order is issued, and stays so
      obtain ⟨e, he, hp⟩ := persisted_of_issuedSince (Bool.eq_true_of_not_eq_false hsince)
      have hstored := hF.inv.1.stored i gi hgi k (held_of_written hholds hwritten)
      exact not_issued_of_written hF.inv.1.filed hholds hwritten (hmove hi hadm k (hF.inv.2 e he k hp hstored))
  · exact ⟨hs, fun _ _ e => by (cases e), fun _ _ e => by (cases e)⟩
  · exact fun e he => by (cases he)

/-- The tables after requests and batches one after another, and then the pool of those that run at once. -/
def ordersAfter (p : Platform) (rows : RowOrder) (acme : AcmeServer) (net : Nat → Delivery) (remote : RemoteDns)
    (setup : List CertRequest) (ms : List (Move ι OrderRequest)) : Pool certSig Unit ι CertState :=
  Pool.exec (certHandler p rows acme net) (orderProgram p)
    (Pool.init ((CertState.init remote).serveAll p rows acme net setup)) ms

/-- In every run of retries, resets and batches of the worker, over all tables that requests have left: each order
that is issued stays issued, exactly if no status is written of an order whose certificate was persisted after the
request has taken the order in hand. -/
theorem issued_final_iff (p : Platform) (rows : RowOrder) (acme : AcmeServer) (net : Nat → Delivery)
    (remote : RemoteDns) (setup : List CertRequest) (ms : List (Move ι OrderRequest)) :
    (∀ pre post, pre ++ post <+: ms → ∀ k, (ordersAfter p rows acme net remote setup pre).state.Issued k →
      (ordersAfter p rows acme net remote setup (pre ++ post)).state.Issued k) ↔
    Pool.Admits (certHandler p rows acme net) (orderProgram p) WritesFresh
      (Pool.init ((CertState.init remote).serveAll p rows acme net setup)) ms := by
  have hfiled : Filed ((CertState.init remote).serveAll p rows acme net setup) := (Filed.init remote).serveAll setup
  refine (Pool.forall_prefix_iff_admits _ _ (R := fun s s' : CertState => ∀ k, s.Issued k → s'.Issued k)
    (fun _ _ h => h) fun _ _ _ h h' k hk => h' k (h k hk)).trans ⟨fresh_of_keepsIssued hfiled, fun hms => ?_⟩
  exact Pool.admits_of_fits spawn_keeps_orders call_keeps_orders (fun P g m hm hF => keepsIssued_of_fresh hm hF)
    (Pool.fits_init ⟨hfiled, fun _ _ e => by (cases e), fun _ _ e => by (cases e)⟩) ms hms

end Runs

/-- A certificate is ordered for a site, and its challenge is presented. -/
def presentedOrder : List CertRequest := tlsSetup ++ [CertRequest.ask (.renewSiteCertificate 2), .pending .mock 10]

/-- A batch claims the order, the hub reads it for a reset, and the batch persists the certificate. -/
def resetMeanwhile : List (Move Nat OrderRequest) :=
  [.spawn 0 (.presented .mock 10), .go 0, .spawn 1 (.reset ⟨0, 30⟩ 7), .go 1, .go 0, .go 0, .go 0]

/-- The hub then writes the issued order back as pending. -/
theorem issued_order_reset :
    ¬ ∀ pre post, pre ++ post <+: resetMeanwhile ++ [.go 1] → ∀ k,
      (ordersAfter .plain .plain .issuing (fun _ => .done) (.ofZones []) presentedOrder pre).state.Issued k →
      (ordersAfter .plain .plain .issuing (fun _ => .done) (.ofZones []) presentedOrder
        (pre ++ post)).state.Issued k := by
  intro h
  obtain ⟨hbefore, hafter⟩ : ((ordersAfter .plain .plain .issuing (fun _ => .done) (.ofZones []) presentedOrder
        resetMeanwhile).state.orders[7]?).any (·.orderStatus == "issued") = true ∧
      ((ordersAfter .plain .plain .issuing (fun _ => .done) (.ofZones []) presentedOrder
        (resetMeanwhile ++ [Move.go 1])).state.orders[7]?).any (·.orderStatus == "issued") = false := by
    decide +kernel
  obtain ⟨o, ho, hstatus⟩ := (Option.any_eq_true _ _).1 hbefore
  obtain ⟨o', ho', hstatus'⟩ := h resetMeanwhile [.go 1] (List.prefix_refl _) 7 ⟨o, ho, beq_iff_eq.1 hstatus⟩
  rw [ho', Option.any_some, hstatus'] at hafter
  cases hafter

end PingoraMesh
