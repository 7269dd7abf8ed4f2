import PingoraMesh.Dns.Versions

/-!
# Orders that a batch leaves behind

A batch claims its orders at once, and each of its store writes may fail and end it. No other step takes orders in the
statuses of a claim.

* `failingHandler`: the writes that fail change nothing, and are written down;
* `forM_released_iff`: the orders of a loop are released exactly if no write fails before the last write of a status;
* `claimed_released_iff`: this for both batches, by the pattern of the writes that fail;
* `payload_write_strands`: the payload of the first order is not written, and two orders are left behind.
-/

namespace PingoraMesh

open Calls Fallible

/-! ## Writes that fail -/

/-- The store writes of a batch for an order: that of its payload, and that of its status, with a certificate or
without. A batch makes each of them once at most. -/
inductive Write where
  | payload (orderId : Uuid)
  | status (orderId : Uuid)
  deriving DecidableEq, Repr

/-- `UPDATE certificate_orders SET ... WHERE id = ...`, when nothing refuses it. -/
def CertState.rewriteOrder (orderId : Uuid) (f : CertificateOrderRecord → CertificateOrderRecord) (s : CertState) :
    CertState :=
  s.onStore fun store => { store with certificateOrders := store.certificateOrders.modify orderId f }

/-- A write that fails with an error if the pattern has one for it; what has failed is written down. -/
def tryWrite (fails : Write → Option String) (w : Write) (f : CertState → CertState) (g : CertState × List Write) :
    Except String Unit × (CertState × List Write) :=
  match fails w with
  | some e => (.error e, g.1, g.2 ++ [w])
  | none => (.ok (), f g.1, g.2)

section Handler

variable (p : Platform) (rows : RowOrder) (acme : AcmeServer) (net : Nat → Delivery) (fails : Write → Option String)

/-- The calls of the worker, with the writes that fail. Whatever makes a write fail is in the pattern. -/
def failingHandler : Handler workerSig (CertState × List Write) := fun c g =>
  match c with
  | .updateOrderChallengePayload orderId payload =>
    tryWrite fails (.payload orderId) (·.rewriteOrder orderId fun order => { order with challengePayload := payload }) g
  | .updateOrderStatus orderId status errorMessage =>
    tryWrite fails (.status orderId)
      (·.rewriteOrder orderId fun order => { order with orderStatus := status, errorMessage := errorMessage }) g
  | .persistIssuedCertificate request => tryWrite fails (.status request.orderId) (·.issued p request) g
  | c => ((workerHandler p rows acme net c g.1).1, (workerHandler p rows acme net c g.1).2, g.2)

end Handler

/-- The order is in the status of a claim. -/
def CertState.Busy (s : CertState) (busy : String) (k : Uuid) : Prop :=
  ∃ o, s.orders[k]? = some o ∧ o.orderStatus = busy

instance CertState.decidableBusy (s : CertState) (busy : String) (k : Uuid) : Decidable (s.Busy busy k) :=
  decidable_of_iff ((s.orders[k]?).any (·.orderStatus == busy) = true) (by simp [CertState.Busy, Option.any_eq_true])

/-- Each order has left the status of the claim, unless the write of its status was tried and has failed. -/
def Released (busy : String) (ids : List Uuid) (g : CertState × List Write) : Prop :=
  ∀ k ∈ ids, g.1.Busy busy k → .status k ∈ g.2

instance (busy : String) (ids : List Uuid) (g : CertState × List Write) : Decidable (Released busy ids g) :=
  inferInstanceAs (Decidable (∀ k ∈ ids, g.1.Busy busy k → .status k ∈ g.2))

/-! ## Loops -/

section Loops

variable {p : Platform} {rows : RowOrder} {acme : AcmeServer} {net : Nat → Delivery} {fails : Write → Option String}
  {s : CertState} {busy : String} {turn : QueuedOrder → WorkerM Unit} {stop : QueuedOrder → CertState → Option Write}

variable (p rows acme net) in
/-- The tables after a turn whose writes do not fail. -/
def afterTurn (turn : QueuedOrder → WorkerM Unit) (job : QueuedOrder) (s : CertState) : CertState :=
  (Fallible.run (failingHandler p rows acme net fun _ => none) (turn job) (s, [])).2.1

/-- What one turn does: it ends with the first of its writes that fails, or takes its order out of the status. -/
structure TurnEnds (p : Platform) (rows : RowOrder) (acme : AcmeServer) (net : Nat → Delivery)
    (fails : Write → Option String) (busy : String) (turn : QueuedOrder → WorkerM Unit)
    (stop : QueuedOrder → CertState → Option Write) : Prop where
  goes : ∀ job s, stop job s = none → Fallible.run (failingHandler p rows acme net fails) (turn job) (s, []) =
    (.ok (), afterTurn p rows acme net turn job s, [])
  stops : ∀ job s w, stop job s = some w → (w = .payload job.orderId ∨ w = .status job.orderId) ∧
    ∃ e s', Fallible.run (failingHandler p rows acme net fails) (turn job) (s, []) = (.error e, s', [w]) ∧
      ∀ k, s'.Busy busy k ↔ s.Busy busy k
  frees : ∀ job s, ¬ (afterTurn p rows acme net turn job s).Busy busy job.orderId
  keeps : ∀ job s k, k ≠ job.orderId → ((afterTurn p rows acme net turn job s).Busy busy k ↔ s.Busy busy k)

variable (p rows acme net) in
/-- No write of the loop fails but that of the last status. -/
def Spares (turn : QueuedOrder → WorkerM Unit) (stop : QueuedOrder → CertState → Option Write) :
    List QueuedOrder → CertState → Prop
  | [], _ => True
  | job :: jobs, s =>
    match stop job s with
    | none => Spares turn stop jobs (afterTurn p rows acme net turn job s)
    | some w => w = .status job.orderId ∧ jobs = []

/-- A loop leaves the other orders. -/
theorem forM_keeps (h : TurnEnds p rows acme net fails busy turn stop) {jobs : List QueuedOrder} {k : Uuid}
    (hk : k ∉ jobs.map (·.orderId)) (s : CertState) :
    (Fallible.run (failingHandler p rows acme net fails) (jobs.forM turn) (s, [])).2.1.Busy busy k ↔ s.Busy busy k := by
  induction jobs generalizing s with
  | nil => exact Iff.rfl
  | cons job jobs ih =>
    rw [List.map_cons, List.mem_cons, not_or] at hk
    rw [run_forM_cons]
    cases hstop : stop job s with
    | none =>
      rw [h.goes job s hstop]
      exact (ih hk.2 _).trans (h.keeps job s k hk.1)
    | some w =>
      obtain ⟨-, e, s', hrun, hsame⟩ := h.stops job s w hstop
      rw [hrun]
      exact hsame k

/-- The orders of a loop are released exactly if no write fails but that of the last status. -/
theorem forM_released_iff (h : TurnEnds p rows acme net fails busy turn stop) {jobs : List QueuedOrder}
    (hdistinct : (jobs.map (·.orderId)).Nodup) (s : CertState) (hbusy : ∀ k ∈ jobs.map (·.orderId), s.Busy busy k) :
    Released busy (jobs.map (·.orderId))
      (Fallible.run (failingHandler p rows acme net fails) (jobs.forM turn) (s, [])).2 ↔
    Spares p rows acme net turn stop jobs s := by
  induction jobs generalizing s with
  | nil => exact iff_of_true (fun k hk => by cases hk) trivial
  | cons job jobs ih =>
    rw [List.map_cons, List.nodup_cons] at hdistinct
    rw [run_forM_cons, Spares]
    cases hstop : stop job s with
    | none =>
      rw [h.goes job s hstop]
      refine Iff.trans ?_ (ih hdistinct.2 _ fun k hk => ?_)
      · -- the order of this turn has left the status, and stays out of it
        unfold Released
        rw [List.map_cons, List.forall_mem_cons]
        refine and_iff_right fun hfirst => ?_
        exact absurd ((forM_keeps h hdistinct.1 _).1 hfirst) (h.frees job s)
      · refine (h.keeps job s k ?_).2 (hbusy k (List.mem_cons_of_mem _ hk))
        rintro rfl
        exact hdistinct.1 hk
    | some w =>
      obtain ⟨hw, e, s', hrun, hsame⟩ := h.stops job s w hstop
      rw [hrun]
      constructor
      · intro hreleased
        have hwrite : ∀ k ∈ (job :: jobs).map (·.orderId), Write.status k = w := fun k hk =>
          List.mem_singleton.1 (hreleased k hk ((hsame k).2 (hbusy k hk)))
        have hfirst : Write.status job.orderId = w := hwrite _ List.mem_cons_self
        refine ⟨hfirst.symm, ?_⟩
        cases jobs with
        | nil => rfl
        | cons job' jobs =>
          have hsecond := hwrite job'.orderId (List.mem_cons_of_mem _ List.mem_cons_self)
          rw [← hfirst] at hsecond
          have hid : job'.orderId = job.orderId := Write.status.inj hsecond
          exact absurd (hid ▸ List.mem_cons_self) hdistinct.1
      · rintro ⟨rfl, rfl⟩ k hk _
        obtain rfl := List.mem_singleton.1 hk
        exact List.mem_singleton.2 rfl

end Loops

/-! ## Turns -/

section Turns

variable {p : Platform} {rows : RowOrder} {acme : AcmeServer} {net : Nat → Delivery} {fails : Write → Option String}
  {s s' : CertState} {busy : String} {orderId k : Uuid} {f : CertificateOrderRecord → CertificateOrderRecord}

/-- A row that is rewritten keeps its status if it gets none. -/
theorem busy_of_rewritten (he : s'.orders = s.orders.modify orderId f) (hf : ∀ o, (f o).orderStatus = o.orderStatus) :
    s'.Busy busy k ↔ s.Busy busy k := by
  unfold CertState.Busy
  rw [he, Std.ExtTreeMap.getElem?_modify]
  split
  · rename_i hkey
    obtain rfl := Std.compare_eq_iff_eq.1 hkey
    constructor
    · rintro ⟨o', ho', rfl⟩
      obtain ⟨o, ho, rfl⟩ := Option.map_eq_some_iff.1 ho'
      exact ⟨o, ho, (hf o).symm⟩
    · rintro ⟨o, ho, rfl⟩
      refine ⟨f o, ?_, hf o⟩
      rw [ho]
      rfl
  · exact Iff.rfl

/-- Other rows stay. -/
theorem busy_of_other (he : s'.orders = s.orders.modify orderId f) (hk : k ≠ orderId) :
    s'.Busy busy k ↔ s.Busy busy k := by
  unfold CertState.Busy
  rw [he, Std.ExtTreeMap.getElem?_modify, if_neg]
  rw [Std.compare_eq_iff_eq]
  exact Ne.symm hk

/-- A row gets another status. -/
theorem not_busy_of_rewritten (he : s'.orders = s.orders.modify orderId f) (hf : ∀ o, (f o).orderStatus ≠ busy) :
    ¬ s'.Busy busy orderId := by
  rintro ⟨o', ho', hstatus⟩
  rw [he] at ho'
  rcases Maps.getElem?_modify_eq_some ho' with ⟨-, o, -, rfl⟩ | ⟨hne, -⟩
  · exact hf o hstatus
  · exact hne rfl

theorem busy_of_store (he : s'.world.store = s.world.store) : s'.Busy busy k ↔ s.Busy busy k := by
  show (∃ o, s'.world.store.certificateOrders[k]? = some o ∧ _) ↔ _
  rw [he]
  exact Iff.rfl

/-- What comes between a claim and the writes is the same whatever fails. -/
theorem run_silent {α : Type} {x : WorkerM α} (hx : x.Only WorkerCall.Silent) (s : CertState) :
    Fallible.run (failingHandler p rows acme net fails) x (s, []) =
      ((Fallible.run (workerHandler p rows acme net) x s).1,
        (Fallible.run (workerHandler p rows acme net) x s).2, []) := by
  refine hx.run_eq (f := fun s => (s, [])) (fun c s hc => ?_) s
  cases c with
  | insertRenewalOrder certificateId zoneId acmeProvider payload => exact hc.elim
  | updateOrderChallengePayload orderId payload => exact hc.elim
  | updateOrderStatus orderId status errorMessage => exact hc.elim
  | persistIssuedCertificate request => exact hc.elim
  | _ => rfl

theorem store_of_silent {α : Type} {x : WorkerM α} (hx : x.Only WorkerCall.Silent) (s : CertState) :
    (Fallible.run (workerHandler p rows acme net) x s).2.world.store = s.world.store :=
  hx.run_keeps (I := fun s' : CertState => s'.world.store = s.world.store)
    (fun _ _ hc hs => (workerHandler_store hc).trans hs) rfl

variable (client : AcmeClient)

/-- The write that ends a turn of `process_pending_certificate_orders`. -/
def pendingStop (p : Platform) (rows : RowOrder) (acme : AcmeServer) (net : Nat → Delivery)
    (fails : Write → Option String) (client : AcmeClient) (job : QueuedOrder) (s : CertState) : Option Write :=
  if (Fallible.run (workerHandler p rows acme net) (DnsWorker.processDnsChallenge client job) s).1.isOk &&
      (fails (.payload job.orderId)).isSome then some (.payload job.orderId)
  else if (fails (.status job.orderId)).isSome then some (.status job.orderId)
  else none

/-- The write that ends a turn of `process_presented_certificate_orders`. -/
def presentedStop (fails : Write → Option String) (job : QueuedOrder) (_ : CertState) : Option Write :=
  if (fails (.status job.orderId)).isSome then some (.status job.orderId) else none

theorem run_updateStatus (orderId : Uuid) (status : String) (errorMessage : Option String)
    (g : CertState × List Write) :
    Fallible.run (failingHandler p rows acme net fails) (DnsWorker.updateStatus orderId status errorMessage) g =
      tryWrite fails (.status orderId)
        (·.rewriteOrder orderId fun o => { o with orderStatus := status, errorMessage := errorMessage }) g :=
  rfl

/-- A turn, by what becomes of the challenge. -/
theorem run_pendingTurn (job : QueuedOrder) (s : CertState) :
    Fallible.run (failingHandler p rows acme net fails) (DnsWorker.pendingTurn client job) (s, []) =
      match Fallible.run (workerHandler p rows acme net) (DnsWorker.processDnsChallenge client job) s with
      | (.ok payload, s₁) =>
        match fails (.payload job.orderId) with
        | some e => (.error e, s₁, [.payload job.orderId])
        | none =>
          tryWrite fails (.status job.orderId)
            (·.rewriteOrder job.orderId
              fun o => { o with orderStatus := "dns_challenge_presented", errorMessage := none })
            (s₁.rewriteOrder job.orderId fun o => { o with challengePayload := payload }, [])
      | (.error text, s₁) =>
        tryWrite fails (.status job.orderId)
          (·.rewriteOrder job.orderId
            fun o => { o with orderStatus := "dns_challenge_failed", errorMessage := some text })
          (s₁, []) := by
  rw [DnsWorker.pendingTurn, run_bind, run_caught, run_silent (DnsWorker.processDnsChallenge_only client job)]
  generalize Fallible.run (workerHandler p rows acme net) (DnsWorker.processDnsChallenge client job) s = out
  obtain ⟨r, s₁⟩ := out
  cases r with
  | ok payload =>
    have hwrite : Fallible.run (failingHandler p rows acme net fails)
        (work (.updateOrderChallengePayload job.orderId payload)) (s₁, []) =
        (.ok (tryWrite fails (.payload job.orderId)
          (·.rewriteOrder job.orderId fun o => { o with challengePayload := payload }) (s₁, [])).1,
          (tryWrite fails (.payload job.orderId)
            (·.rewriteOrder job.orderId fun o => { o with challengePayload := payload }) (s₁, [])).2) := rfl
    dsimp only
    rw [run_bind, hwrite]
    dsimp only
    rw [run_bind, run_attempt, tryWrite]
    cases fails (.payload job.orderId) with
    | some e => rfl
    | none => exact run_updateStatus _ _ _ _
  | error text => exact run_updateStatus _ _ _ _

/-- A turn of `process_pending_certificate_orders` whose writes do not fail. -/
theorem afterTurn_pending (job : QueuedOrder) (s : CertState) :
    afterTurn p rows acme net (DnsWorker.pendingTurn client) job s =
      match Fallible.run (workerHandler p rows acme net) (DnsWorker.processDnsChallenge client job) s with
      | (.ok payload, s₁) =>
        (s₁.rewriteOrder job.orderId fun o => { o with challengePayload := payload }).rewriteOrder job.orderId
          fun o => { o with orderStatus := "dns_challenge_presented", errorMessage := none }
      | (.error text, s₁) =>
        s₁.rewriteOrder job.orderId
          fun o => { o with orderStatus := "dns_challenge_failed", errorMessage := some text } := by
  rw [afterTurn, run_pendingTurn]
  cases Fallible.run (workerHandler p rows acme net) (DnsWorker.processDnsChallenge client job) s with
  | mk r s₁ =>
    cases r with
    | ok payload => rfl
    | error text => rfl

theorem pendingTurn_ends : TurnEnds p rows acme net fails "dns_challenge_presenting" (DnsWorker.pendingTurn client)
    (pendingStop p rows acme net fails client) := by
  constructor
  · intro job s hstop
    rw [afterTurn_pending, run_pendingTurn]
    unfold pendingStop at hstop
    cases hout : Fallible.run (workerHandler p rows acme net) (DnsWorker.processDnsChallenge client job) s with
    | mk r s₁ =>
      rw [hout] at hstop
      cases hs : fails (.status job.orderId) with
      | some e =>
        rw [hs] at hstop
        split at hstop
        · cases hstop
        · cases hstop
      | none =>
        cases r with
        | ok payload =>
          cases hp : fails (.payload job.orderId) with
          | some e =>
            rw [hp] at hstop
            cases hstop
          | none =>
            dsimp only
            rw [tryWrite, hs]
        | error text =>
          dsimp only
          rw [tryWrite, hs]
  · intro job s w hstop
    rw [run_pendingTurn]
    unfold pendingStop at hstop
    have hstore := @store_of_silent p rows acme net _ _ (DnsWorker.processDnsChallenge_only client job) s
    cases hout : Fallible.run (workerHandler p rows acme net) (DnsWorker.processDnsChallenge client job) s with
    | mk r s₁ =>
      rw [hout] at hstop hstore
      cases r with
      | ok payload =>
        cases hp : fails (.payload job.orderId) with
        | some e =>
          rw [hp] at hstop
          cases hstop
          exact ⟨.inl rfl, e, s₁, rfl, fun k => busy_of_store hstore⟩
        | none =>
          cases hs : fails (.status job.orderId) with
          | some e =>
            rw [hp, hs] at hstop
            cases hstop
            dsimp only
            rw [tryWrite, hs]
            refine ⟨.inr rfl, e, _, rfl, fun k => ?_⟩
            have hpayload : (s₁.rewriteOrder job.orderId fun o => { o with challengePayload := payload }).Busy
                "dns_challenge_presenting" k ↔ s₁.Busy "dns_challenge_presenting" k :=
              busy_of_rewritten (f := fun o => { o with challengePayload := payload }) rfl fun _ => rfl
            exact hpayload.trans (busy_of_store hstore)
          | none =>
            rw [hp, hs] at hstop
            cases hstop
      | error text =>
        cases hs : fails (.status job.orderId) with
        | some e =>
          rw [hs] at hstop
          cases hstop
          dsimp only
          rw [tryWrite, hs]
          exact ⟨.inr rfl, e, s₁, rfl, fun k => busy_of_store hstore⟩
        | none =>
          rw [hs] at hstop
          cases hstop
  · intro job s
    rw [afterTurn_pending]
    cases Fallible.run (workerHandler p rows acme net) (DnsWorker.processDnsChallenge client job) s with
    | mk r s₁ =>
      cases r with
      | ok payload =>
        refine not_busy_of_rewritten rfl fun _ => ?_
        show "dns_challenge_presented" ≠ "dns_challenge_presenting"
        decide
      | error text =>
        refine not_busy_of_rewritten rfl fun _ => ?_
        show "dns_challenge_failed" ≠ "dns_challenge_presenting"
        decide
  · intro job s k hk
    have hstore := @store_of_silent p rows acme net _ _ (DnsWorker.processDnsChallenge_only client job) s
    rw [afterTurn_pending]
    cases hout : Fallible.run (workerHandler p rows acme net) (DnsWorker.processDnsChallenge client job) s with
    | mk r s₁ =>
      rw [hout] at hstore
      cases r with
      | ok payload => exact ((busy_of_other rfl hk).trans (busy_of_other rfl hk)).trans (busy_of_store hstore)
      | error text => exact (busy_of_other rfl hk).trans (busy_of_store hstore)

/-- A turn, by what becomes of the certificate. -/
theorem run_presentedTurn (job : QueuedOrder) (s : CertState) :
    Fallible.run (failingHandler p rows acme net fails) (DnsWorker.presentedTurn client job) (s, []) =
      match Fallible.run (workerHandler p rows acme net) (DnsWorker.finalizeCertificateOrder client job) s with
      | (.ok request, s₁) => tryWrite fails (.status request.orderId) (·.issued p request) (s₁, [])
      | (.error text, s₁) =>
        tryWrite fails (.status job.orderId)
          (·.rewriteOrder job.orderId fun o => { o with orderStatus := "issue_failed", errorMessage := some text })
          (s₁, []) := by
  rw [DnsWorker.presentedTurn, run_bind, run_caught, run_silent (DnsWorker.finalizeCertificateOrder_only client job)]
  cases Fallible.run (workerHandler p rows acme net) (DnsWorker.finalizeCertificateOrder client job) s with
  | mk r s₁ =>
    cases r with
    | ok request => rfl
    | error text => exact run_updateStatus _ _ _ _

/-- The request is of the order of the job. -/
theorem orderId_of_finalized {job : QueuedOrder} {request : PersistIssuedCertificateRequest} {s₁ : CertState}
    (hout : Fallible.run (workerHandler p rows acme net) (DnsWorker.finalizeCertificateOrder client job) s =
      (.ok request, s₁)) : request.orderId = job.orderId := by
  have hwp := (wp_run (h := workerHandler p rows acme net) (s := s) (I := fun _ => True)
    (fun _ _ _ _ => trivial) trivial (finalizeCertificateOrder_request (fun _ _ _ => trivial) client job)).1
  rw [hout] at hwp
  exact hwp.2.1

/-- Both ends of a turn of `process_presented_certificate_orders` write the status of the order. -/
theorem presentedTurn_write (job : QueuedOrder) (s : CertState) : ∃ (f : CertState → CertState) (s₁ : CertState),
    s₁.world.store = s.world.store ∧
    (∀ fails, Fallible.run (failingHandler p rows acme net fails) (DnsWorker.presentedTurn client job) (s, []) =
      tryWrite fails (.status job.orderId) f (s₁, [])) ∧
    ∃ g : CertificateOrderRecord → CertificateOrderRecord, (∀ o, (g o).orderStatus ≠ "issuing") ∧
      (f s₁).orders = s₁.orders.modify job.orderId g := by
  have hstore := @store_of_silent p rows acme net _ _ (DnsWorker.finalizeCertificateOrder_only client job) s
  cases hout : Fallible.run (workerHandler p rows acme net) (DnsWorker.finalizeCertificateOrder client job) s with
  | mk r s₁ =>
    rw [hout] at hstore
    cases r with
    | ok request =>
      have hid := orderId_of_finalized client hout
      refine ⟨(·.issued p request), s₁, hstore, fun fails => ?_,
        fun o => { o with orderStatus := "issued", errorMessage := request.warningMessage }, fun o => ?_, ?_⟩
      · rw [run_presentedTurn, hout, ← hid]
      · show "issued" ≠ "issuing"
        decide
      · rw [← hid]
        rfl
    | error text =>
      refine
        ⟨(·.rewriteOrder job.orderId fun o => { o with orderStatus := "issue_failed", errorMessage := some text }), s₁,
        hstore, fun fails => ?_, fun o => { o with orderStatus := "issue_failed", errorMessage := some text },
          fun o => ?_,
        rfl⟩
      · rw [run_presentedTurn, hout]
      · show "issue_failed" ≠ "issuing"
        decide

theorem presentedTurn_ends : TurnEnds p rows acme net fails "issuing" (DnsWorker.presentedTurn client)
    (presentedStop fails) := by
  constructor
  · intro job s hstop
    obtain ⟨f, s₁, -, hrun, -⟩ := @presentedTurn_write p rows acme net client job s
    unfold presentedStop at hstop
    cases hs : fails (.status job.orderId) with
    | some e =>
      rw [hs] at hstop
      cases hstop
    | none =>
      rw [afterTurn, hrun, hrun, tryWrite, hs]
      rfl
  · intro job s w hstop
    obtain ⟨f, s₁, hstore, hrun, -⟩ := @presentedTurn_write p rows acme net client job s
    unfold presentedStop at hstop
    cases hs : fails (.status job.orderId) with
    | some e =>
      rw [hs] at hstop
      cases hstop
      rw [hrun, tryWrite, hs]
      exact ⟨.inr rfl, e, s₁, rfl, fun k => busy_of_store hstore⟩
    | none =>
      rw [hs] at hstop
      cases hstop
  · intro job s
    obtain ⟨f, s₁, -, hrun, g, hg, horders⟩ := @presentedTurn_write p rows acme net client job s
    rw [afterTurn, hrun]
    exact not_busy_of_rewritten horders hg
  · intro job s k hk
    obtain ⟨f, s₁, hstore, hrun, g, -, horders⟩ := @presentedTurn_write p rows acme net client job s
    rw [afterTurn, hrun]
    exact (busy_of_other horders hk).trans (busy_of_store hstore)

end Turns

/-! ## Batches -/

section Batches

variable (p : Platform) (rows : RowOrder) (acme : AcmeServer) (net : Nat → Delivery) (fails : Write → Option String)
  (client : AcmeClient)

/-- The orders that a claim takes, in their order. -/
def CertState.claimedIds (rows : RowOrder) (before : String) (limit : Nat) (s : CertState) : List Uuid :=
  (s.claimed rows before limit).map (·.orderId)

/-- Of the jobs of a loop, the orders whose challenges are presented if no write fails. -/
def presentedIds : List QueuedOrder → CertState → List Uuid
  | [], _ => []
  | job :: jobs, s =>
    (if (Fallible.run (workerHandler p rows acme net) (DnsWorker.processDnsChallenge client job) s).1.isOk
      then [job.orderId] else []) ++
      presentedIds jobs (afterTurn p rows acme net (DnsWorker.pendingTurn client) job s)

/-- The tables after a batch, and the writes that have failed. -/
def batchEnd (q : CertRequest) (s : CertState) : CertState × List Write :=
  (Fallible.run (failingHandler p rows acme net fails) (workerBatch q) (s, [])).2

variable {p rows acme net fails client} {s : CertState} {before after : String} {limit : Nat}

/-- The jobs of a claim are of the orders that it takes. -/
theorem jobs_claimedIds (rows : RowOrder) (before after : String) (limit : Nat) (s : CertState) :
    (s.claimOrders rows before after limit).1.map (·.orderId) = s.claimedIds rows before limit := by
  have hall : ∀ orders : List CertificateOrderRecord, (∀ o ∈ orders, (s.claimable before o).isSome) →
      (orders.filterMap (s.claimable before)).map (·.orderId) = orders.map (·.orderId) := by
    intro orders horders
    induction orders with
    | nil => rfl
    | cons o orders ih =>
      obtain ⟨job, hjob⟩ := Option.isSome_iff_exists.1 (horders o List.mem_cons_self)
      rw [List.filterMap_cons_some hjob, List.map_cons, List.map_cons, claimable_orderId hjob,
        ih fun o' ho' => horders o' (List.mem_cons_of_mem _ ho')]
  refine hall _ fun o ho => ?_
  have hmem := List.mem_of_mem_take ho
  rw [(List.perm_insertionSort _ _).mem_iff, (rows.orders_perm _ _).mem_iff, List.mem_filter] at hmem
  exact hmem.2

/-- After a claim its orders are in the status after. -/
theorem busy_of_claimed (h : OrdersKeyed s) {k : Uuid} (hk : k ∈ s.claimedIds rows before limit) :
    (s.claimOrders rows before after limit).2.Busy after k := by
  rw [← jobs_claimedIds rows before after limit s] at hk
  obtain ⟨job, hjob, rfl⟩ := List.mem_map.1 hk
  obtain ⟨o, ho, -⟩ := ordered_of_claimed h hjob
  have hmem : job.orderId ∈ (s.claimOrders rows before after limit).2.orders :=
    mem_movedAll_of_mem (Std.ExtTreeMap.mem_iff_isSome_getElem?.2 (Option.isSome_of_eq_some ho))
  obtain ⟨o', ho'⟩ := Option.isSome_iff_exists.1 (Std.ExtTreeMap.mem_iff_isSome_getElem?.1 hmem)
  exact ⟨o', ho', status_of_job hjob ho'⟩

/-- A claim and a loop release the orders exactly if no write fails but that of the last status. -/
theorem claim_released_iff (h : OrdersKeyed s) {turn : QueuedOrder → WorkerM Unit}
    {stop : QueuedOrder → CertState → Option Write} (hturn : TurnEnds p rows acme net fails after turn stop) :
    Released after (s.claimedIds rows before limit) (Fallible.run (failingHandler p rows acme net fails)
      ((s.claimOrders rows before after limit).1.forM turn) ((s.claimOrders rows before after limit).2, [])).2 ↔
    Spares p rows acme net turn stop (s.claimOrders rows before after limit).1
      (s.claimOrders rows before after limit).2 := by
  rw [← jobs_claimedIds rows before after limit s]
  refine forM_released_iff hturn ?_ _ fun k hk => ?_
  · exact List.nodup_iff_pairwise_ne.2 (List.pairwise_map.2 (claimed_distinct h before after limit))
  · rw [jobs_claimedIds] at hk
    exact busy_of_claimed h hk

theorem forall_dropLast_cons {α : Type} {P : α → Prop} (a : α) (l : List α) :
    (∀ x ∈ (a :: l).dropLast, P x) ↔ (l ≠ [] → P a) ∧ ∀ x ∈ l.dropLast, P x := by
  cases l with
  | nil => simp
  | cons b l => simp

/-- What is asked of the writes of `process_presented_certificate_orders`. -/
theorem spares_presented_iff (jobs : List QueuedOrder) (s : CertState) :
    Spares p rows acme net (DnsWorker.presentedTurn client) (presentedStop fails) jobs s ↔
      ∀ k ∈ (jobs.map (·.orderId)).dropLast, fails (.status k) = none := by
  induction jobs generalizing s with
  | nil => exact iff_of_true trivial fun k hk => by cases hk
  | cons job jobs ih =>
    rw [Spares, presentedStop, List.map_cons, forall_dropLast_cons]
    cases hs : fails (.status job.orderId) with
    | none =>
      rw [and_iff_right fun _ => rfl]
      exact ih _
    | some e =>
      show Write.status job.orderId = .status job.orderId ∧ jobs = [] ↔ _
      cases jobs with
      | nil => simp
      | cons job' jobs => simp

/-- What is asked of the writes of `process_pending_certificate_orders`. -/
theorem spares_pending_iff (jobs : List QueuedOrder) (s : CertState) :
    Spares p rows acme net (DnsWorker.pendingTurn client) (pendingStop p rows acme net fails client) jobs s ↔
      (∀ k ∈ presentedIds p rows acme net client jobs s, fails (.payload k) = none) ∧
        ∀ k ∈ (jobs.map (·.orderId)).dropLast, fails (.status k) = none := by
  induction jobs generalizing s with
  | nil => exact iff_of_true trivial ⟨fun k hk => by (cases hk), fun k hk => by (cases hk)⟩
  | cons job jobs ih =>
    rw [Spares, presentedIds, pendingStop, List.map_cons, forall_dropLast_cons, List.forall_mem_append]
    by_cases hpayload :
        (Fallible.run (workerHandler p rows acme net) (DnsWorker.processDnsChallenge client job) s).1.isOk =
        true ∧ (fails (.payload job.orderId)).isSome = true
    · -- the payload of a presented challenge is not written
      rw [if_pos (Bool.and_eq_true_iff.2 hpayload), if_pos hpayload.1]
      obtain ⟨e, he⟩ := Option.isSome_iff_exists.1 hpayload.2
      simp [he]
    · have hfirst : ∀ k ∈ (if (Fallible.run (workerHandler p rows acme net) (DnsWorker.processDnsChallenge client job)
          s).1.isOk then [job.orderId] else []), fails (.payload k) = none := by
        intro k hk
        split at hk
        · obtain rfl := List.mem_singleton.1 hk
          exact Option.not_isSome_iff_eq_none.1 fun hsome => hpayload ⟨by assumption, hsome⟩
        · cases hk
      rw [if_neg (fun h => hpayload (Bool.and_eq_true_iff.1 h)), and_iff_right hfirst]
      cases hs : fails (.status job.orderId) with
      | none =>
        rw [and_iff_right fun _ => rfl]
        exact ih _
      | some e =>
        show Write.status job.orderId = .status job.orderId ∧ jobs = [] ↔ _
        cases jobs with
        | nil => simp [presentedIds]
        | cons job' jobs => simp

/-- The tables after a claim and a loop. -/
theorem run_batch {jobs : List QueuedOrder} {s' : CertState} (turn : QueuedOrder → WorkerM Unit)
    (x : WorkerM (List QueuedOrder))
    (hx : Fallible.run (failingHandler p rows acme net fails) x (s, []) = (.ok jobs, s', [])) :
    (Fallible.run (failingHandler p rows acme net fails)
      (x >>= fun jobs => jobs.forM turn >>= fun _ => pure jobs.length) (s, [])).2 =
      (Fallible.run (failingHandler p rows acme net fails) (jobs.forM turn) (s', [])).2 := by
  rw [run_bind, hx]
  dsimp only
  rw [run_bind]
  cases Fallible.run (failingHandler p rows acme net fails) (jobs.forM turn) (s', []) with
  | mk r g =>
    cases r with
    | ok _ => rfl
    | error e => rfl

variable (p rows acme net fails client limit) in
/-- **The orders of a batch are released**, but for one whose status write has failed, exactly if no write fails
before the status of the last order is written: no payload of a challenge that is presented, and no status but the
last. -/
theorem claimed_released_iff (h : OrdersKeyed s) :
    (Released "dns_challenge_presenting" (s.claimedIds rows "pending_dns_challenge" limit)
        (batchEnd p rows acme net fails (.pending client limit) s) ↔
      (∀ k ∈ presentedIds p rows acme net client
          (s.claimOrders rows "pending_dns_challenge" "dns_challenge_presenting" limit).1
          (s.claimOrders rows "pending_dns_challenge" "dns_challenge_presenting" limit).2, fails (.payload k) = none) ∧
        ∀ k ∈ (s.claimedIds rows "pending_dns_challenge" limit).dropLast, fails (.status k) = none) ∧
    (Released "issuing" (s.claimedIds rows "dns_challenge_presented" limit)
        (batchEnd p rows acme net fails (.presented client limit) s) ↔
      ∀ k ∈ (s.claimedIds rows "dns_challenge_presented" limit).dropLast, fails (.status k) = none) := by
  constructor
  · have hend : batchEnd p rows acme net fails (.pending client limit) s =
        (Fallible.run (failingHandler p rows acme net fails)
          ((s.claimOrders rows "pending_dns_challenge" "dns_challenge_presenting" limit).1.forM
            (DnsWorker.pendingTurn client))
          ((s.claimOrders rows "pending_dns_challenge" "dns_challenge_presenting" limit).2, [])).2 :=
      run_batch (DnsWorker.pendingTurn client) (work (.claimPendingDnsOrders limit)) rfl
    rw [hend, claim_released_iff h (pendingTurn_ends client), spares_pending_iff, jobs_claimedIds]
  · have hend : batchEnd p rows acme net fails (.presented client limit) s =
        (Fallible.run (failingHandler p rows acme net fails)
          ((s.claimOrders rows "dns_challenge_presented" "issuing" limit).1.forM (DnsWorker.presentedTurn client))
          ((s.claimOrders rows "dns_challenge_presented" "issuing" limit).2, [])).2 :=
      run_batch (DnsWorker.presentedTurn client) (work (.claimReadyIssuanceOrders limit)) rfl
    rw [hend, claim_released_iff h (presentedTurn_ends client), spares_presented_iff, jobs_claimedIds]

end Batches

/-! ## Two orders -/

/-- Two orders are placed, 7 and 12. -/
def twoOrders : CertState :=
  let order (domain : String) : CertRequest := .ask (.createCertificateOrder {
    siteId := none, domain := some domain, sans := [], acmeProvider := "letsencrypt-production"
    challengeType := "dns-01", zoneId := 1 })
  (CertState.init (.ofZones [])).serveAll .plain .plain .issuing (fun _ => .done)
    (tlsSetup ++ [order "a.example.com", order "b.example.com"])

theorem twoOrders_keyed : OrdersKeyed twoOrders := (Filed.serveAll (Filed.init _) _).orders

/-- Writes that fail for one order. -/
def failsAt (w : Write) : Write → Option String := fun w' => if w' = w then some "connection reset by peer" else none

/-- The write of the last status fails, and both orders are released. -/
theorem claimed_released_last :
    Released "dns_challenge_presenting" (twoOrders.claimedIds .plain "pending_dns_challenge" 10)
      (batchEnd .plain .plain .issuing (fun _ => .done) (failsAt (.status 12)) (.pending .mock 10) twoOrders) :=
  (claimed_released_iff .plain .plain .issuing (fun _ => .done) (failsAt (.status 12)) .mock 10 twoOrders_keyed).1.2
    (by decide +kernel)

/-- The payload of the first order is not written: both orders are left behind, and no status write was tried. -/
theorem payload_write_strands :
    ¬ Released "dns_challenge_presenting" (twoOrders.claimedIds .plain "pending_dns_challenge" 10)
      (batchEnd .plain .plain .issuing (fun _ => .done) (failsAt (.payload 7)) (.pending .mock 10) twoOrders) := by
  decide +kernel

end PingoraMesh
