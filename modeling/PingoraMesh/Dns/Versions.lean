import PingoraMesh.Dns.Zones

/-!
# Versions of certificates and the sites that use them

`persist_issued_certificate` numbers the versions of a certificate and makes the new one the default of some sites: of
the site of the order, or, for a renewal without a site, of those whose default is the certificate. That no site is
left behind rests on what nothing says: a certificate is only ever ordered for one site, or bound to it
(`CertState.UsedBy`).

* `CertInv.call`, `CertInv.work`: every statement keeps that a certificate is used by one site, numbers versions from
  1 on, and keeps one default binding for a site;
* `persist_renews`: the site whose default was the certificate of a renewal gets the new version;
* `certificates_stay_bound`: all of this in every run of requests and batches.
-/

namespace PingoraMesh

open Calls Fallible HubService

/-! ## Versions and defaults -/

namespace CertState

/-- The versions of a certificate, in the order in which they came. -/
def versionsOf (s : CertState) (certificateId : Uuid) : List Nat :=
  (s.versions.filter (·.certificateId == certificateId)).map (·.version)

/-- The default bindings. -/
def defaults (s : CertState) : List SiteCertBinding := s.bindings.filter (·.isDefault)

/-- The certificate is ordered for the site, or bound to it. -/
def UsedBy (s : CertState) (certificateId siteId : Uuid) : Prop :=
  (∃ (k : Uuid) (o : CertificateOrderRecord), s.orders[k]? = some o ∧ o.certificateId = some certificateId ∧
    o.siteId = some siteId) ∨
  ∃ b ∈ s.bindings, b.certificateId = certificateId ∧ b.siteId = siteId

/-- The order has this site, this certificate and this type. -/
def Ordered (s : CertState) (orderId : Uuid) (siteId : Option Uuid) (certificateId : Uuid)
    (orderType : String) : Prop :=
  ∃ o, s.orders[orderId]? = some o ∧ o.siteId = siteId ∧ o.certificateId = some certificateId ∧ o.orderType = orderType

end CertState

/-- Versions are numbered from 1 on, bindings are to versions that exist, and there is one default binding for each site
and each certificate. -/
structure BindingsSound (s : CertState) : Prop where
  versions : ∀ id, ∃ n, s.versionsOf id = List.range' 1 n
  bound : ∀ b ∈ s.bindings, b.certificateId ∈ s.world.store.certificates ∧ b.version ∈ s.versionsOf b.certificateId
  sites : (s.defaults.map (·.siteId)).Nodup
  certificates : (s.defaults.map (·.certificateId)).Nodup

/-- If the order is a renewal, each site whose default is its certificate has the new version as its default
afterwards. -/
def RenewsDefault (s s' : CertState) (orderId : Uuid) : Prop :=
  ∀ o, s.orders[orderId]? = some o → o.orderType = "renew" → ∀ c, o.certificateId = some c →
    ∀ b ∈ s.defaults, b.certificateId = c →
      ∃ b' ∈ s'.defaults, b'.siteId = b.siteId ∧ b'.certificateId = c ∧
        s'.versionsOf c = s.versionsOf c ++ [b'.version]

/-! ## The invariant -/

/-- A certificate is used by one site, and has an identifier that was drawn. -/
structure CertInv (s : CertState) : Prop where
  filed : Filed s
  siteKeys : SitesKeyed s.world.store
  drawn : ∀ c x, s.UsedBy c x → c < s.world.nextUuid
  one : ∀ c x y, s.UsedBy c x → s.UsedBy c y → x = y
  versions : ∀ id, ∃ n, s.versionsOf id = List.range' 1 n
  bound : ∀ b ∈ s.bindings, b.certificateId ∈ s.world.store.certificates ∧ b.version ∈ s.versionsOf b.certificateId
  sites : (s.defaults.map (·.siteId)).Nodup

section Invariant

variable {s s' : CertState} {b : SiteCertBinding}

theorem mem_defaults : b ∈ s.defaults ↔ b ∈ s.bindings ∧ b.isDefault = true := List.mem_filter

theorem CertState.UsedBy.of_default (h : b ∈ s.defaults) : s.UsedBy b.certificateId b.siteId :=
  .inr ⟨b, (mem_defaults.1 h).1, rfl, rfl⟩

/-- The sites of the default bindings of a certificate are one site, which has one default binding. -/
theorem CertInv.sound (h : CertInv s) : BindingsSound s := by
  refine ⟨h.versions, h.bound, h.sites, ?_⟩
  have hdefaults : s.defaults.Nodup := .of_map _ h.sites
  refine hdefaults.map_on fun b hb b' hb' hc => ?_
  have hsite : b.siteId = b'.siteId := by
    apply h.one b.certificateId
    · exact .of_default hb
    · rw [hc]
      exact .of_default hb'
  exact List.inj_on_of_nodup_map h.sites hb hb' hsite

/-- A change that uses no certificate for another site, leaves the versions, and adds no binding. -/
theorem CertInv.frame (h : CertInv s) (hfiled : Filed s') (hkeys : SitesKeyed s'.world.store)
    (hused : ∀ c x, s'.UsedBy c x → s.UsedBy c x)
    (huuid : s.world.nextUuid ≤ s'.world.nextUuid) (hversions : s'.versions = s.versions)
    (hbindings : s'.bindings.Sublist s.bindings)
    (hcertificates : ∀ k ∈ s.world.store.certificates, k ∈ s'.world.store.certificates) : CertInv s' := by
  have hof : ∀ id, s'.versionsOf id = s.versionsOf id := by
    intro id
    unfold CertState.versionsOf
    rw [hversions]
  constructor
  · exact hfiled
  · exact hkeys
  · intro c x hx
    exact (h.drawn c x (hused c x hx)).trans_le huuid
  · intro c x y hx hy
    exact h.one c x y (hused c x hx) (hused c y hy)
  · intro id
    rw [hof]
    exact h.versions id
  · intro b hb
    obtain ⟨hcertificate, hversion⟩ := h.bound b (hbindings.subset hb)
    rw [hof]
    exact ⟨hcertificates _ hcertificate, hversion⟩
  · exact h.sites.sublist ((hbindings.filter _).map _)

/-- A certificate is used as before if its orders with a site come from such orders. -/
theorem usedBy_of_rows {c x : Uuid} (hrows : ∀ (k : Uuid) (o' : CertificateOrderRecord), s'.orders[k]? = some o' →
      o'.siteId = some x → ∃ (j : Uuid) (o : CertificateOrderRecord), s.orders[j]? = some o ∧
        o.certificateId = o'.certificateId ∧ o.siteId = some x)
    (hbindings : ∀ b ∈ s'.bindings, b ∈ s.bindings) (hx : s'.UsedBy c x) : s.UsedBy c x := by
  rcases hx with ⟨k, o', ho', hc, hsite⟩ | ⟨b, hb, hc, hsite⟩
  · obtain ⟨j, o, ho, hcert, hs⟩ := hrows k o' ho' hsite
    exact .inl ⟨j, o, ho, hcert.trans hc, hs⟩
  · exact .inr ⟨b, hbindings b hb, hc, hsite⟩

end Invariant

/-! ## Persisting a certificate -/

section Persist

variable {s : CertState} {request : PersistIssuedCertificateRequest} {certificateId : Uuid} {version : Nat}
  {now : DateTime} {bindings : List SiteCertBinding} {sites : List Uuid} {siteId : Uuid}

/-- The greatest of the first versions. -/
theorem foldl_max_range' (n : Nat) : (List.range' 1 n).foldl max 0 = n := by
  induction n with
  | zero => rfl
  | succ n ih =>
    rw [List.range'_1_concat, List.foldl_append, ih]
    show max n (1 + n) = n + 1
    omega

/-- The next version follows the others. -/
theorem versions_next (h : ∀ id, ∃ n, s.versionsOf id = List.range' 1 n) (certificateId : Uuid) :
    ∃ n, s.versionsOf certificateId ++ [s.nextVersion certificateId] = List.range' 1 n := by
  obtain ⟨n, hn⟩ := h certificateId
  have hnext : s.nextVersion certificateId = n + 1 := by
    show (s.versionsOf certificateId).foldl max 0 + 1 = n + 1
    rw [hn, foldl_max_range']
  refine ⟨n + 1, ?_⟩
  rw [hn, hnext, List.range'_1_concat, Nat.add_comm]

/-- A binding is there already, but for its flag, or is the new one. -/
theorem mem_bindDefault {b : SiteCertBinding}
    (hb : b ∈ CertState.bindDefault certificateId version now bindings siteId) :
    (∃ b' ∈ bindings, b.siteId = b'.siteId ∧ b.certificateId = b'.certificateId ∧ b.version = b'.version) ∨
      (b.siteId = siteId ∧ b.certificateId = certificateId ∧ b.version = version) := by
  rcases List.mem_append.1 hb with hb | hb
  · obtain ⟨b', hb', rfl⟩ := List.mem_map.1 hb
    refine .inl ⟨b', hb', ?_⟩
    split
    · exact ⟨rfl, rfl, rfl⟩
    · exact ⟨rfl, rfl, rfl⟩
  · obtain rfl := List.mem_singleton.1 hb
    exact .inr ⟨rfl, rfl, rfl⟩

theorem mem_bindDefaults {b : SiteCertBinding}
    (hb : b ∈ sites.foldl (CertState.bindDefault certificateId version now) bindings) :
    (∃ b' ∈ bindings, b.siteId = b'.siteId ∧ b.certificateId = b'.certificateId ∧ b.version = b'.version) ∨
      (b.siteId ∈ sites ∧ b.certificateId = certificateId ∧ b.version = version) := by
  induction sites generalizing bindings with
  | nil => exact .inl ⟨b, hb, rfl, rfl, rfl⟩
  | cons siteId sites ih =>
    rcases ih hb with ⟨b', hb', hs, hc, hv⟩ | ⟨hs, hc, hv⟩
    · rcases mem_bindDefault hb' with ⟨b'', hb'', hs', hc', hv'⟩ | ⟨hs', hc', hv'⟩
      · exact .inl ⟨b'', hb'', hs.trans hs', hc.trans hc', hv.trans hv'⟩
      · refine .inr ⟨?_, hc.trans hc', hv.trans hv'⟩
        rw [hs, hs']
        exact List.mem_cons_self
    · exact .inr ⟨List.mem_cons_of_mem _ hs, hc, hv⟩

/-- The sites with a default binding, after one of them gets another. -/
theorem defaultSites_bindDefault :
    ((CertState.bindDefault certificateId version now bindings siteId).filter (·.isDefault)).map (·.siteId) =
      ((bindings.filter (·.isDefault)).map (·.siteId)).filter (· ≠ siteId) ++ [siteId] := by
  unfold CertState.bindDefault
  rw [List.filter_append, List.map_append]
  refine congrArg₂ (· ++ ·) ?_ rfl
  induction bindings with
  | nil => rfl
  | cons b bindings ih =>
    by_cases hsite : b.siteId = siteId <;> cases hdefault : b.isDefault <;> simp [hsite, hdefault, ih]

/-- One default binding for a site stays one. -/
theorem defaultSites_bindDefaults (h : ((bindings.filter (·.isDefault)).map (·.siteId)).Nodup) :
    (((sites.foldl (CertState.bindDefault certificateId version now) bindings).filter (·.isDefault)).map
      (·.siteId)).Nodup := by
  induction sites generalizing bindings with
  | nil => exact h
  | cons siteId sites ih =>
    apply ih
    rw [defaultSites_bindDefault, List.nodup_append]
    refine ⟨h.filter _, List.nodup_singleton _, fun x hx y hy => ?_⟩
    obtain rfl := List.mem_singleton.1 hy
    simpa using (List.mem_filter.1 hx).2

/-- Each of the sites has the new version as its default. -/
theorem default_bindDefaults (hsite : siteId ∈ sites) :
    ∃ b ∈ (sites.foldl (CertState.bindDefault certificateId version now) bindings).filter (·.isDefault),
      b.siteId = siteId ∧ b.certificateId = certificateId ∧ b.version = version := by
  -- from the end: the last site gets its binding last, and no other site is touched by that
  induction sites using List.reverseRecOn with
  | nil => cases hsite
  | append_singleton sites last ih =>
    rw [List.foldl_append, List.foldl_cons, List.foldl_nil]
    by_cases hlast : siteId = last
    · subst hlast
      refine ⟨_, List.mem_filter.2 ⟨List.mem_append_right _ List.mem_cons_self, rfl⟩, rfl, rfl, rfl⟩
    · have hold : siteId ∈ sites := by simpa [hlast] using hsite
      obtain ⟨b, hb, hs, hc, hv⟩ := ih hold
      obtain ⟨hmem, hdefault⟩ := List.mem_filter.1 hb
      refine ⟨b, List.mem_filter.2 ⟨?_, hdefault⟩, hs, hc, hv⟩
      refine List.mem_append_left _ (List.mem_map.2 ⟨b, hmem, ?_⟩)
      rw [if_neg]
      rwa [hs]

/-- The versions after a certificate is issued. -/
theorem versionsOf_issued (p : Platform) (id : Uuid) :
    (s.issued p request).versionsOf id =
      if id = request.certificateId then s.versionsOf id ++ [s.nextVersion id] else s.versionsOf id := by
  unfold CertState.versionsOf
  show ((s.versions ++ [_]).filter _).map _ = _
  rw [List.filter_append, List.map_append]
  by_cases hid : id = request.certificateId
  · subst hid
    rw [if_pos rfl, List.filter_singleton, beq_self_eq_true]
    rfl
  · rw [if_neg hid, List.filter_singleton, beq_false_of_ne (Ne.symm hid)]
    simp

/-- The sites that get the new version use the certificate already. -/
theorem usedBy_of_target (h : s.Ordered request.orderId request.siteId request.certificateId request.orderType)
    (hsite : siteId ∈ s.targetSites request) : s.UsedBy request.certificateId siteId := by
  unfold CertState.targetSites at hsite
  split at hsite
  · rename_i site heq
    obtain rfl := List.mem_singleton.1 hsite
    obtain ⟨o, ho, hs, hc, -⟩ := h
    exact .inl ⟨_, o, ho, hc, hs.trans heq⟩
  · split at hsite
    · obtain ⟨b, hb, rfl⟩ := List.mem_map.1 (List.mem_dedup.1 hsite)
      obtain ⟨hmem, hcond⟩ := List.mem_filter.1 hb
      rw [Bool.and_eq_true, beq_iff_eq] at hcond
      exact .inr ⟨b, hmem, hcond.1, rfl⟩
    · cases hsite

/-- A certificate is used by the sites that have used it. -/
theorem usedBy_of_issued {p : Platform} {c x : Uuid}
    (h : s.Ordered request.orderId request.siteId request.certificateId request.orderType)
    (hx : (s.issued p request).UsedBy c x) : s.UsedBy c x := by
  rcases hx with ⟨k, o', ho', hc, hs⟩ | ⟨b, hb, rfl, rfl⟩
  · rcases Maps.getElem?_modify_eq_some ho' with ⟨rfl, o, ho, rfl⟩ | ⟨-, ho⟩
    · exact .inl ⟨_, o, ho, hc, hs⟩
    · exact .inl ⟨k, o', ho, hc, hs⟩
  · rcases mem_bindDefaults hb with ⟨b', hb', hs, hc, -⟩ | ⟨hs, hc, -⟩
    · exact .inr ⟨b', hb', hc.symm, hs.symm⟩
    · rw [hc]
      exact usedBy_of_target h hs

/-- A claimed order is persisted. -/
theorem CertInv.issued (h : CertInv s) (p : Platform) (hfiled : Filed (s.issued p request))
    (hordered : s.Ordered request.orderId request.siteId request.certificateId request.orderType)
    (hstored : request.certificateId ∈ s.world.store.certificates) : CertInv (s.issued p request) := by
  have hmem : ∀ k ∈ s.world.store.certificates, k ∈ (s.issued p request).world.store.certificates := fun k hk =>
    Std.ExtTreeMap.mem_modify.2 hk
  constructor
  · exact hfiled
  · exact h.siteKeys
  · intro c x hx
    exact h.drawn c x (usedBy_of_issued hordered hx)
  · intro c x y hx hy
    exact h.one c x y (usedBy_of_issued hordered hx) (usedBy_of_issued hordered hy)
  · intro id
    rw [versionsOf_issued]
    split
    · exact versions_next h.versions id
    · exact h.versions id
  · intro b hb
    rcases mem_bindDefaults hb with ⟨b', hb', -, hc, hv⟩ | ⟨-, hc, hv⟩
    · obtain ⟨hcertificate, hversion⟩ := h.bound b' hb'
      rw [hc, hv]
      refine ⟨hmem _ hcertificate, ?_⟩
      rw [versionsOf_issued]
      split
      · exact List.mem_append_left _ hversion
      · exact hversion
    · rw [hc, hv]
      refine ⟨hmem _ hstored, ?_⟩
      rw [versionsOf_issued, if_pos rfl]
      exact List.mem_append_right _ List.mem_cons_self
  · exact defaultSites_bindDefaults h.sites

/-- **A renewal reaches the site** whose default was the certificate. -/
theorem persist_renews (h : CertInv s) {p : Platform}
    (hordered : s.Ordered request.orderId request.siteId request.certificateId request.orderType)
    (hok : (s.persistIssuedCertificate p request).1 = .ok ()) :
    RenewsDefault s (s.persistIssuedCertificate p request).2 request.orderId := by
  rcases persist_cases p request s with ⟨⟨e, he⟩, -⟩ | ⟨-, he⟩
  · rw [he] at hok
    cases hok
  · rw [he]
    intro o ho hrenew c hc b hb hbc
    obtain ⟨o', ho', hs, hc', htype⟩ := hordered
    obtain rfl : o = o' := Option.some.inj (ho.symm.trans ho')
    obtain rfl : c = request.certificateId := Option.some.inj (hc.symm.trans hc')
    have htarget : b.siteId ∈ s.targetSites request := by
      unfold CertState.targetSites
      split
      · rename_i site heq
        -- the site of the order uses the certificate too, so it is the same site
        have hsame : b.siteId = site := by
          apply h.one b.certificateId
          · exact .of_default hb
          · exact .inl ⟨_, o, ho, hc.trans (congrArg some hbc.symm), hs.trans heq⟩
        rw [hsame]
        exact List.mem_cons_self
      · rw [if_pos (by rw [← htype, hrenew]; rfl), List.mem_dedup]
        refine List.mem_map.2 ⟨b, List.mem_filter.2 ⟨(mem_defaults.1 hb).1, ?_⟩, rfl⟩
        rw [Bool.and_eq_true, beq_iff_eq]
        exact ⟨hbc, (mem_defaults.1 hb).2⟩
    obtain ⟨b', hb', hs', hc', hv'⟩ : ∃ b' ∈ (s.issued p request).defaults, b'.siteId = b.siteId ∧
        b'.certificateId = request.certificateId ∧ b'.version = s.nextVersion request.certificateId :=
      default_bindDefaults htarget
    refine ⟨b', hb', hs', hc', ?_⟩
    rw [versionsOf_issued, if_pos rfl, hv']

end Persist

/-! ## Statements of the worker -/

/-- What is persisted is of the order, as it is stored. -/
def IssueOk : WorkerCall → CertState → Prop
  | .persistIssuedCertificate r, s => s.Ordered r.orderId r.siteId r.certificateId r.orderType
  | _, _ => True

section Worker

variable {p : Platform} {rows : RowOrder} {acme : AcmeServer} {net : Nat → Delivery} {s : CertState} {c : WorkerCall}
  {orderId certificateId : Uuid} {siteId : Option Uuid} {orderType : String}

theorem issueOk_of_not_persists (hc : ¬ c.Persists) : IssueOk c s := by
  cases c with
  | persistIssuedCertificate request => exact absurd trivial hc
  | _ => trivial

/-- The other calls leave versions and bindings, and draw identifiers only. -/
theorem bindings_of_worker (hc : ¬ c.Persists) :
    (workerHandler p rows acme net c s).2.versions = s.versions ∧
      (workerHandler p rows acme net c s).2.bindings = s.bindings ∧
      s.world.nextUuid ≤ (workerHandler p rows acme net c s).2.world.nextUuid := by
  have hupdate : ∀ (orderId : Uuid) (f : CertificateOrderRecord → CertificateOrderRecord),
      (s.afterUpdate (s.updateOrder orderId f)).2.versions = s.versions ∧
        (s.afterUpdate (s.updateOrder orderId f)).2.bindings = s.bindings ∧
        s.world.nextUuid ≤ (s.afterUpdate (s.updateOrder orderId f)).2.world.nextUuid := by
    intro orderId f
    unfold CertState.updateOrder
    split
    · exact ⟨rfl, rfl, Nat.le_refl _⟩
    · split
      · exact ⟨rfl, rfl, Nat.le_refl _⟩
      · exact ⟨rfl, rfl, Nat.le_refl _⟩
  cases c with
  | persistIssuedCertificate request => exact absurd trivial hc
  | newUuid => exact ⟨rfl, rfl, Nat.le_succ _⟩
  | insertRenewalOrder certificateId zoneId acmeProvider payload =>
    simp only [workerHandler, CertState.insertRenewalOrder]
    split
    · exact ⟨rfl, rfl, Nat.le_succ _⟩
    · split
      · rename_i s' hput
        obtain ⟨-, -, rfl⟩ := putOrder_cases hput
        exact ⟨rfl, rfl, Nat.le_succ _⟩
      · exact ⟨rfl, rfl, Nat.le_succ _⟩
  | updateOrderChallengePayload orderId payload => exact hupdate _ _
  | updateOrderStatus orderId status errorMessage => exact hupdate _ _
  | _ => exact ⟨rfl, rfl, Nat.le_refl _⟩

/-- The worker takes no certificate away. -/
theorem certificates_of_batch (hc : ¬ c.Persists) :
    (workerHandler p rows acme net c s).2.world.store.certificates = s.world.store.certificates := by
  have hother : ∀ request, c ≠ .persistIssuedCertificate request := by
    rintro request rfl
    exact hc trivial
  obtain ⟨orders, he⟩ : ∃ orders, (workerHandler p rows acme net c s).2.world.store =
      { s.world.store with certificateOrders := orders } := store_of_worker hother
  rw [he]

/-- Every call of the worker keeps the invariant. -/
theorem CertInv.work (h : CertInv s) (hc : IssueOk c s) : CertInv (workerHandler p rows acme net c s).2 := by
  by_cases hp : c.Persists
  · cases c with
    | persistIssuedCertificate request =>
      have hfiled : Filed (s.persistIssuedCertificate p request).2 :=
        @Filed.work p rows acme net s h.filed (.persistIssuedCertificate request)
      show CertInv (s.persistIssuedCertificate p request).2
      rcases persist_cases p request s with ⟨-, he⟩ | ⟨hstored, he⟩
      · rw [he] at hfiled ⊢
        exact h.frame hfiled h.siteKeys (fun _ _ hx => hx) (Nat.le_refl _) rfl (List.Sublist.refl _) fun _ hk => hk
      · rw [he] at hfiled ⊢
        exact h.issued p hfiled hc hstored
    | _ => exact hp.elim
  · obtain ⟨hversions, hbindings, huuid⟩ := @bindings_of_worker p rows acme net s c hp
    refine h.frame (h.filed.work c) ?_ (fun certificate x hx => ?_) huuid hversions (hbindings ▸ List.Sublist.refl _)
      fun k hk => ?_
    · unfold SitesKeyed
      rw [tables_of_worker.2]
      exact h.siteKeys
    · refine usedBy_of_rows (fun k o' ho' hsite => ?_) (fun b hb => hbindings ▸ hb) hx
      by_cases hinserts : c.Inserts
      · cases c with
        | insertRenewalOrder certificateId zoneId acmeProvider payload =>
          change
            (s.insertRenewalOrder p certificateId zoneId acmeProvider payload).2.world.store.certificateOrders[k]? =
            some o' at ho'
          rcases insertRenewal_cases p s certificateId zoneId acmeProvider payload with he | ⟨_, _, he⟩
          · rw [he] at ho'
            exact ⟨k, o', ho', rfl, hsite⟩
          · rw [he] at ho'
            rcases Maps.getElem?_insert_eq_some ho' with ⟨-, rfl⟩ | ⟨-, ho⟩
            · cases hsite
            · exact ⟨k, o', ho, rfl, hsite⟩
        | _ => exact hinserts.elim
      · obtain ⟨o, ho, _, _, _, rfl⟩ := rows_of_worker h.filed.orders hinserts ho'
        exact ⟨k, o, ho, rfl, hsite⟩
    · rw [certificates_of_batch hp]
      exact hk

/-- An order keeps its site, its certificate and its type. -/
theorem CertState.Ordered.work (h : s.Ordered orderId siteId certificateId orderType) (hkeyed : OrdersKeyed s)
    (hc : ¬ c.Inserts) : (workerHandler p rows acme net c s).2.Ordered orderId siteId certificateId orderType := by
  obtain ⟨o, ho, hs, hcert, htype⟩ := h
  have hmem : orderId ∈ (workerHandler p rows acme net c s).2.orders :=
    mem_orders_worker (Std.ExtTreeMap.mem_iff_isSome_getElem?.2 (Option.isSome_of_eq_some ho))
  obtain ⟨o', ho'⟩ := Option.isSome_iff_exists.1 (Std.ExtTreeMap.mem_iff_isSome_getElem?.1 hmem)
  obtain ⟨o'', ho'', _, _, _, rfl⟩ := rows_of_worker hkeyed hc ho'
  rw [ho] at ho''
  cases ho''
  exact ⟨_, ho', hs, hcert, htype⟩

/-- What a claim tells of an order is what is stored. -/
theorem ordered_of_claimed (h : OrdersKeyed s) {before after : String} {limit : Nat} {job : QueuedOrder}
    (hjob : job ∈ (s.claimOrders rows before after limit).1) :
    s.Ordered job.orderId job.siteId job.certificateId job.orderType := by
  obtain ⟨o, hm, hclaim⟩ := List.mem_filterMap.1 hjob
  obtain ⟨ho, -⟩ := stored_of_claimed h hm
  unfold CertState.claimable at hclaim
  split at hclaim
  · simp only [Option.bind_eq_bind, Option.bind_eq_some_iff] at hclaim
    obtain ⟨id, hid, _, _, _, _, _, _, he⟩ := hclaim
    cases he
    exact ⟨o, ho, rfl, hid, rfl⟩
  · cases hclaim

/-- The worker over the tables, with the invariant. -/
abbrev issueSpec (p : Platform) (rows : RowOrder) (acme : AcmeServer) (net : Nat → Delivery) :
    Spec workerSig CertState :=
  .alone (workerHandler p rows acme net) IssueOk CertInv

/-- The request of a certificate is of the order of the job, and the tables stay until it is made. -/
theorem finalizeCertificateOrder_request {ok : WorkerCall → CertState → Prop} {I : CertState → Prop}
    (hok : ∀ c s, c.Silent → ok c s) (client : AcmeClient) (job : QueuedOrder) :
    wp (.alone (workerHandler p rows acme net) ok I) (DnsWorker.finalizeCertificateOrder client job)
      (fun request s' => s'.world.store = s.world.store ∧ request.orderId = job.orderId ∧ request.siteId = job.siteId ∧
        request.certificateId = job.certificateId ∧ request.orderType = job.orderType)
      (fun _ s' => s'.world.store = s.world.store) s := by
  have hsilent : ∀ {α : Type} {x : WorkerM α} {s' : CertState}, x.Only WorkerCall.Silent →
      s'.world.store = s.world.store → wp (.alone (workerHandler p rows acme net) ok I) x
        (fun _ s'' => s''.world.store = s.world.store) (fun _ s'' => s''.world.store = s.world.store) s' := by
    intro α x s' hx hs'
    refine hx.wp (I := fun s'' : CertState => s''.world.store = s.world.store) (fun c s hc _ => hok c s hc)
      (fun c s'' _ _ hc hs hcan => ?_) hs'
    obtain ⟨-, rfl, -⟩ := hcan
    exact (workerHandler_store hc).trans hs
  simp only [DnsWorker.finalizeCertificateOrder, wp_bind, wp_attempt, implies_true, and_true]
  refine fun provider _ challenge _ => ?_
  have hmaterial : (DnsWorker.finalizeDns01Order client job).Only WorkerCall.Silent :=
    (DnsWorker.finalizeDns01Order_only client job).safe fun _ _ => DnsWorker.silent_of_acme
  refine wp_mono (fun material s' hs' => ?_) (fun _ _ hs' => hs') (hsilent hmaterial rfl)
  simp only [work, wp_call_alone, wp_pure, and_self, and_true]
  exact ⟨hok _ _ trivial, fun _ => hs'⟩

/-- One turn persists what is ordered, and leaves the other orders. -/
theorem presentedTurn_issues (client : AcmeClient) {jobs : List QueuedOrder} {job : QueuedOrder} (hjob : job ∈ jobs)
    (h : ∀ job ∈ jobs, s.Ordered job.orderId job.siteId job.certificateId job.orderType) (hkeyed : OrdersKeyed s) :
    wp (issueSpec p rows acme net) (DnsWorker.presentedTurn client job)
      (fun _ s' => OrdersKeyed s' ∧ ∀ job ∈ jobs, s'.Ordered job.orderId job.siteId job.certificateId job.orderType)
      (fun _ _ => True) s := by
  have hstored : ∀ {s' : CertState}, s'.world.store = s.world.store → OrdersKeyed s' ∧
      ∀ job ∈ jobs, s'.Ordered job.orderId job.siteId job.certificateId job.orderType := by
    intro s' he
    unfold OrdersKeyed CertState.Ordered CertState.orders
    rw [he]
    exact ⟨hkeyed, h⟩
  have hstep : ∀ {s' : CertState} {c : WorkerCall}, s'.world.store = s.world.store → ¬ c.Inserts →
      CertInv (workerHandler p rows acme net c s').2 → OrdersKeyed (workerHandler p rows acme net c s').2 ∧
        ∀ job ∈ jobs, (workerHandler p rows acme net c s').2.Ordered job.orderId job.siteId job.certificateId
          job.orderType := by
    intro s' c he hc hinv
    obtain ⟨hkeyed', hordered⟩ := hstored he
    exact ⟨hinv.filed.orders, fun job hjob => (hordered job hjob).work hkeyed' hc⟩
  rw [DnsWorker.presentedTurn, wp_bind, wp_caught]
  refine wp_mono ?_ (fun e s' hs => ?_) (finalizeCertificateOrder_request
    (fun _ _ hc => issueOk_of_not_persists (DnsWorker.not_persists_of_silent hc)) client job)
  · rintro request s' ⟨he, horder, hsite, hcert, htype⟩
    simp only [work, wp_bind, wp_call_alone, wp_attempt, implies_true, and_true]
    refine ⟨?_, fun hinv _ _ => hstep he id hinv⟩
    have hordered := (hstored he).2 job hjob
    rw [← horder, ← hsite, ← hcert, ← htype] at hordered
    exact hordered
  · simp only [DnsWorker.updateStatus, work, wp_bind, wp_call_alone, wp_attempt, implies_true, and_true]
    exact ⟨trivial, fun hinv _ _ => hstep hs id hinv⟩

theorem enqueueLoop_issues (zones : List DnsZoneRecord) (acmeProvider : String) (certificates : List CertificateRecord)
    (created : Nat) : (DnsWorker.enqueueLoop zones acmeProvider certificates created).Safe
      (issueSpec p rows acme net) := by
  induction certificates generalizing created with
  | nil => exact safe_pure _
  | cons certificate certificates ih =>
    unfold DnsWorker.enqueueLoop
    split
    · exact ih created
    · exact safe_bind (safe_call fun _ => trivial) fun _ => safe_bind (safe_call fun _ => trivial) fun _ =>
        safe_bind (safe_attempt _) fun _ => ih _

/-- A batch of the worker persists what is ordered. -/
theorem workerBatch_issues (h : CertInv s) (q : CertRequest) :
    wp (issueSpec p rows acme net) (workerBatch q) (fun _ _ => True) (fun _ _ => True) s := by
  cases q with
  | hub hub request => exact (wp_pure _).2 trivial
  | enqueue now renewBefore limit acmeProvider =>
    refine safe_bind (safe_call fun _ => trivial) (fun certificates => ?_) s
    split
    · exact safe_pure _
    · exact safe_bind (safe_call fun _ => trivial) fun zones => enqueueLoop_issues zones acmeProvider certificates 0
  | pending client limit =>
    exact (DnsWorker.processPendingCertificateOrders_only client limit).safe
      (fun _ _ hc => issueOk_of_not_persists hc.2) s
  | presented client limit =>
    simp only [workerBatch, DnsWorker.processPresentedCertificateOrders, work, wp_bind, wp_call_alone, wp_pure]
    refine ⟨trivial, fun hinv => ?_⟩
    refine wp_mono (fun _ _ _ => trivial) (fun _ _ _ => trivial) (wp_forM (I := fun s' => OrdersKeyed s' ∧
      ∀ job ∈ (s.claimOrders rows "dns_challenge_presented" "issuing" limit).1,
        s'.Ordered job.orderId job.siteId job.certificateId job.orderType) (E := fun _ _ => True)
      (DnsWorker.presentedTurn client) _ (fun job hjob s' hs' => presentedTurn_issues client hjob hs'.2 hs'.1) ?_)
    refine ⟨hinv.filed.orders, fun job hjob => ?_⟩
    exact (ordered_of_claimed h.filed.orders hjob).work (c := .claimReadyIssuanceOrders limit) h.filed.orders id

end Worker

/-! ## Statements of the hub -/

/-- An order that the hub saves is for the one site that uses its certificate. -/
def UseOk : HubCall → CertState → Prop
  | .saveCertificateOrder order, s => ∀ c x, order.certificateId = some c → order.siteId = some x →
    c < s.world.nextUuid ∧ ∀ y, s.UsedBy c y → y = x
  | _, _ => True

section Hub

variable {p : Platform} {rows : RowOrder} {s : CertState} {c : HubCall}

/-- The hub leaves the versions, may take bindings away, draws identifiers, and takes no certificate away. -/
theorem bindings_of_hub :
    (certHubHandler p rows c s).2.versions = s.versions ∧
      (certHubHandler p rows c s).2.bindings.Sublist s.bindings ∧
      s.world.nextUuid ≤ (certHubHandler p rows c s).2.world.nextUuid ∧
      ∀ k ∈ s.world.store.certificates, k ∈ (certHubHandler p rows c s).2.world.store.certificates := by
  have hcertificates : c.effect ≠ some .certificate →
      ∀ k ∈ s.world.store.certificates, k ∈ (certHubHandler p rows c s).2.world.store.certificates := by
    intro he k hk
    rw [certificates_of_effect he]
    exact hk
  cases c with
  | saveCertificateOrder order =>
    rcases saveOrder_cases (s := s) p rows order with ⟨-, -, he⟩ | he
    · rw [he]
      exact ⟨rfl, List.Sublist.refl _, Nat.le_refl _, fun _ hk => hk⟩
    · rw [he]
      exact ⟨rfl, List.Sublist.refl _, Nat.le_refl _, fun _ hk => hk⟩
  | deleteSite siteId => exact ⟨rfl, List.filter_sublist, Nat.le_refl _, hcertificates (by simp [HubCall.effect])⟩
  | saveCertificate certificate =>
    exact ⟨rfl, List.Sublist.refl _, Nat.le_refl _, fun _ hk => Std.ExtTreeMap.mem_insert.2 (.inr hk)⟩
  | certificateOrder orderId => exact ⟨rfl, List.Sublist.refl _, Nat.le_refl _, fun _ hk => hk⟩
  | listCertificateOrders => exact ⟨rfl, List.Sublist.refl _, Nat.le_refl _, fun _ hk => hk⟩
  | listDnsZones => exact ⟨rfl, List.Sublist.refl _, Nat.le_refl _, fun _ hk => hk⟩
  | siteCertificates siteId => exact ⟨rfl, List.Sublist.refl _, Nat.le_refl _, fun _ hk => hk⟩
  | _ => exact ⟨rfl, List.Sublist.refl _, nextUuid_le, hcertificates (by simp [HubCall.effect])⟩

/-- Every call of the hub keeps the invariant. -/
theorem CertInv.call (h : CertInv s) (hc : UseOk c s) : CertInv (certHubHandler p rows c s).2 := by
  obtain ⟨hversions, hbindings, huuid, hcertificates⟩ := @bindings_of_hub p rows s c
  have hfiled : Filed (certHubHandler p rows c s).2 := h.filed.call c
  have hrows : (∀ (k : Uuid) (o' : CertificateOrderRecord) (x : Uuid),
      (certHubHandler p rows c s).2.orders[k]? = some o' →
      o'.siteId = some x → ∃ (j : Uuid) (o : CertificateOrderRecord), s.orders[j]? = some o ∧
        o.certificateId = o'.certificateId ∧ o.siteId = some x) → CertInv (certHubHandler p rows c s).2 := fun hrows =>
    h.frame hfiled (certHubHandler_sites h.siteKeys)
      (fun _ x hx => usedBy_of_rows (fun k o' => hrows k o' x) (fun _ hb => hbindings.subset hb) hx) huuid hversions
      hbindings hcertificates
  by_cases hsave : c.effect = some .certificateOrder
  · cases c with
    | saveCertificateOrder order =>
      rcases saveOrder_cases p rows order with ⟨-, -, he⟩ | he
      · -- the order is for the site that uses its certificate, if one does
        have hused : ∀ c x, (certHubHandler p rows (.saveCertificateOrder order) s).2.UsedBy c x →
            s.UsedBy c x ∨ (order.certificateId = some c ∧ order.siteId = some x) := by
          rintro c x (⟨k, o, ho, hcert, hs⟩ | hb)
          · rw [he] at ho
            rcases Maps.getElem?_insert_eq_some ho with ⟨-, rfl⟩ | ⟨-, ho⟩
            · exact .inr ⟨hcert, hs⟩
            · exact .inl (.inl ⟨k, o, ho, hcert, hs⟩)
          · rw [he] at hb
            exact .inl (.inr hb)
        refine ⟨hfiled, certHubHandler_sites h.siteKeys, fun c x hx => ?_, fun c x y hx hy => ?_, ?_, ?_, ?_⟩
        · refine lt_of_lt_of_le ?_ huuid
          rcases hused c x hx with hx | ⟨hcert, hs⟩
          · exact h.drawn c x hx
          · exact (hc c x hcert hs).1
        · rcases hused c x hx with hx | ⟨hcert, hs⟩
          · rcases hused c y hy with hy | ⟨hcert', hs'⟩
            · exact h.one c x y hx hy
            · exact (hc c y hcert' hs').2 x hx
          · rcases hused c y hy with hy | ⟨-, hs'⟩
            · exact ((hc c x hcert hs).2 y hy).symm
            · exact Option.some.inj (hs.symm.trans hs')
        · rw [he]
          exact h.versions
        · rw [he]
          exact h.bound
        · rw [he]
          exact h.sites
      · rw [he]
        exact h
    | _ => cases hsave
  · by_cases hdelete : c.effect = some .deleteSite
    · cases c with
      | deleteSite siteId =>
        refine hrows fun k o' x ho' hsite => ?_
        obtain ⟨o, ho, site, hof, rfl⟩ := deleteSite_rows ho'
        exact ⟨k, o, ho, rfl, hof x hsite⟩
      | _ => cases hdelete
    · refine hrows fun k o' x ho' hsite => ?_
      rw [orders_of_effect hsave hdelete] at ho'
      exact ⟨k, o', ho', rfl, hsite⟩

theorem useOk_of_effect (he : c.effect ≠ some .certificateOrder) : UseOk c s := by
  cases c with
  | saveCertificateOrder order => exact absurd rfl he
  | _ => trivial

/-- The hub over the tables, with the invariant. -/
abbrev useSpec (p : Platform) (rows : RowOrder) : Spec hubSig CertState :=
  answered (.alone (certHubHandler p rows) UseOk CertInv)

/-- The certificate of an order is used by the site of the order only: it is new, or it was so before. -/
theorem orderCertificate_used (h : CertInv s) {site certificateId : Option Uuid}
    (hcert : ∀ id, certificateId = some id → ∀ x, site = some x → id < s.world.nextUuid ∧ ∀ y, s.UsedBy id y → y = x)
    (commonName : String) (sans : List String) :
    wp (useSpec p rows) (orderCertificate certificateId commonName sans)
      (fun id s' => ∀ x, site = some x → id < s'.world.nextUuid ∧ ∀ y, s'.UsedBy id y → y = x) (fun _ _ => True) s := by
  rw [orderCertificate, wp_getOr]
  refine ⟨fun id hid => hcert id hid, fun _ => ?_⟩
  simp only [repo, wp_bind, wp_call_answered, wp_pure]
  refine ⟨trivial, fun id hid _ => ⟨trivial, fun code _ _ => ⟨trivial, fun stub _ _ => ⟨trivial, fun now _ _ =>
    ⟨trivial, fun _ _ _ x _ => ⟨?_, fun y hy => ?_⟩⟩⟩⟩⟩⟩
  · cases hid
    show s.world.nextUuid < s.world.nextUuid + 1 + 1 + 1
    omega
  · -- no order and no binding has a certificate that was not drawn
    cases hid
    exact absurd (h.drawn _ y hy) (Nat.lt_irrefl _)

/-- An order is placed for a site that uses its certificate alone. -/
theorem issueCertificateOrder_used (h : CertInv s) {site certificateId : Option Uuid}
    (hcert : ∀ id, certificateId = some id → ∀ x, site = some x → id < s.world.nextUuid ∧ ∀ y, s.UsedBy id y → y = x)
    (commonName : String) (sans : List String) (zoneId : Uuid) (zoneName acmeProvider orderType : String) :
    wp (useSpec p rows)
      (issueCertificateOrder site certificateId commonName sans zoneId zoneName acmeProvider orderType)
      (fun _ _ => True) (fun _ _ => True) s := by
  rw [issueCertificateOrder, wp_bind]
  refine wp_mono (fun id s' hs' => ?_) (fun _ _ _ => trivial) (orderCertificate_used h hcert commonName sans)
  simp only [repo, wp_bind, wp_call_answered, wp_pure, implies_true, and_true]
  refine ⟨trivial, fun token _ _ => ⟨trivial, fun orderId _ _ => ⟨trivial, fun now _ _ => ?_⟩⟩⟩
  intro c x hc hx
  cases hc
  obtain ⟨hlt, hused⟩ := hs' x hx
  refine ⟨?_, hused⟩
  exact Nat.lt_succ_of_lt (Nat.lt_succ_of_lt hlt)

/-- A new order has a new certificate. -/
theorem createCertificateOrder_used (h : CertInv s) (request : CreateCertificateOrderRequest) :
    wp (useSpec p rows) (createCertificateOrder request) (fun _ _ => True) (fun _ _ => True) s := by
  have hsite : wp (useSpec p rows) (requestedSite request.siteId) (fun _ s' => s' = s) (fun _ _ => True) s := by
    cases request.siteId with
    | none => exact (wp_pure _).2 rfl
    | some id =>
      simp only [requestedSite, repo, wp_bind, wp_call_answered, wp_okOr, wp_pure, implies_true, and_true]
      exact ⟨trivial, fun _ _ _ _ _ => rfl⟩
  simp only [createCertificateOrder, wp_bind, wp_ensure, implies_true, and_true]
  refine fun _ => wp_mono ?_ (fun _ _ _ => trivial) hsite
  rintro site _ rfl
  simp only [repo, wp_call_answered, wp_okOr, wp_attempt, implies_true, and_true]
  refine fun domain _ commonName _ sans _ _ => ⟨trivial, fun found _ _ zone _ _ _ => ?_⟩
  exact issueCertificateOrder_used h (fun _ e => by (cases e)) _ _ _ _ _ _

/-- A certificate of a site is bound to it. -/
theorem usedBy_of_siteCertificates {siteId : Uuid} {ref : CertificateRef} (href : ref ∈ s.siteCertificates siteId) :
    s.UsedBy ref.certificateId siteId := by
  obtain ⟨b, hb, hmap⟩ := List.mem_filterMap.1 href
  have hmem := (List.perm_insertionSort _ _).mem_iff.1 hb
  obtain ⟨hb, hcond⟩ := List.mem_filter.1 hmem
  rw [Bool.and_eq_true, beq_iff_eq] at hcond
  simp only [CertState.certificateRef, Option.bind_eq_bind, Option.bind_eq_some_iff] at hmap
  obtain ⟨_, _, _, _, he⟩ := hmap
  cases he
  exact .inr ⟨b, hb, rfl, hcond.1⟩

/-- A renewal is for the site that its certificate is bound to. -/
theorem renewSiteCertificate_used (h : CertInv s) (siteId : Uuid) :
    wp (useSpec p rows) (renewSiteCertificate siteId) (fun _ _ => True) (fun _ _ => True) s := by
  simp only [renewSiteCertificate, repo, wp_bind, wp_call_answered, wp_okOr, wp_ensure, wp_forSome,
    wp_throw, wp_attempt, wp_pure, implies_true, and_true, true_and]
  refine ⟨trivial, fun found hfound _ site hsite _ => ⟨trivial, fun certificates hcertificates _ => ⟨trivial,
    fun orders _ _ _ commonName _ => ⟨trivial, fun zones _ _ zone _ => ?_⟩⟩⟩⟩
  cases hfound
  cases hcertificates
  refine issueCertificateOrder_used h (fun id hid x hx => ?_) _ _ _ _ _ _
  obtain ⟨ref, href, rfl⟩ := Option.map_eq_some_iff.1 hid
  have hused : s.UsedBy ref.certificateId siteId := usedBy_of_siteCertificates (List.mem_of_head? href)
  have hid : site.id = siteId := h.siteKeys siteId site hsite
  obtain rfl : siteId = x := hid.symm.trans (Option.some.inj hx)
  exact ⟨h.drawn _ _ hused, fun y hy => h.one _ y siteId hy hused⟩

/-- An order that comes back is for the site that it was for. -/
theorem requeueCertificateOrder_used (h : CertInv s) {k : Uuid} {o : CertificateOrderRecord}
    (ho : s.orders[k]? = some o) (renewBeforeDays : Int) (action : String) :
    wp (useSpec p rows) (requeueCertificateOrder renewBeforeDays (s.joined o) action) (fun _ _ => True)
      (fun _ _ => True) s := by
  simp only [requeueCertificateOrder, repo, wp_bind, wp_call_answered, wp_ensure, wp_pure, implies_true, and_true]
  intro _ c x hc hx
  have hused : s.UsedBy c x := .inl ⟨k, o, ho, hc, hx⟩
  exact ⟨h.drawn c x hused, fun y hy => h.one c y x hy hused⟩

/-- A request of the hub orders certificates for the sites that use them. -/
theorem program_used (h : CertInv s) (hub : Hub) (request : Request) :
    wp (useSpec p rows) (HubService.program p hub request) (fun _ _ => True) (fun _ _ => True) s := by
  have hquiet : .certificateOrder ∉ request.effects →
      wp (useSpec p rows) (HubService.program p hub request) (fun _ _ => True) (fun _ _ => True) s := fun hes =>
    (program_only p hub request).safe (fun c _ hc => useOk_of_effect fun he => hes (by
      rw [HubCall.Within, he] at hc
      exact hc)) s
  cases request with
  | renewSiteCertificate siteId => exact (wp_discard _).2 (renewSiteCertificate_used h siteId)
  | createCertificateOrder r => exact (wp_discard _).2 (createCertificateOrder_used h r)
  | retryCertificateOrder orderId =>
    refine (wp_discard _).2 ?_
    simp only [retryCertificateOrder, repo, wp_bind, wp_call_answered, wp_okOr, wp_ensure, implies_true, and_true]
    refine ⟨trivial, fun found hfound _ order horder _ => ?_⟩
    cases hfound
    obtain ⟨o, ho, rfl⟩ := Option.map_eq_some_iff.1 horder
    exact requeueCertificateOrder_used h ho _ _
  | resetCertificateOrder orderId =>
    refine (wp_discard _).2 ?_
    simp only [resetCertificateOrder, repo, wp_bind, wp_call_answered, wp_okOr, wp_ensure, implies_true, and_true]
    refine ⟨trivial, fun found hfound _ order horder _ => ?_⟩
    cases hfound
    obtain ⟨o, ho, rfl⟩ := Option.map_eq_some_iff.1 horder
    exact requeueCertificateOrder_used h ho _ _
  | _ => exact hquiet (by simp [Request.effects])

end Hub

/-! ## Runs -/

section Runs

variable (p : Platform) (rows : RowOrder) (acme : AcmeServer) (net : Nat → Delivery) {s : CertState}

/-- The calls of requests and batches one after another, each with the tables it was made over. -/
def CertState.logAll : CertState → List CertRequest → List (certSig.Call × CertState)
  | _, [] => []
  | s, q :: qs => Prog.log (certHandler p rows acme net) (certProgram p q) s ++ (s.serve p rows acme net q).logAll qs

theorem CertInv.init (remote : RemoteDns) : CertInv (.init remote) := by
  have hnone : ∀ c x, ¬ (CertState.init remote).UsedBy c x := by
    rintro c x (⟨k, o, ho, -, -⟩ | ⟨b, hb, -, -⟩)
    · simp [CertState.init, CertState.orders, World.init, MemoryState.empty] at ho
    · cases hb
  constructor
  · exact .init remote
  · intro k site hk
    simp [CertState.init, World.init, MemoryState.empty] at hk
  · exact fun c x hx => absurd hx (hnone c x)
  · exact fun c x _ hx => absurd hx (hnone c x)
  · exact fun _ => ⟨0, rfl⟩
  · exact fun b hb => by cases hb
  · exact List.nodup_nil

/-- What is asked of the calls of both. -/
def CertOk : certSig.Call → CertState → Prop := Sum.elim UseOk IssueOk

/-- Every call keeps the invariant. -/
theorem CertInv.step (c : certSig.Call) (s : CertState) (hc : CertOk c s) (h : CertInv s) :
    CertInv (certHandler p rows acme net c s).2 := by
  cases c with
  | inl c => exact h.call hc
  | inr c => exact h.work hc

/-- Every request and every batch makes such calls. -/
theorem certProgram_wp (h : CertInv s) (q : CertRequest) :
    Prog.wp (.alone (certHandler p rows acme net) CertOk CertInv) (certProgram p q) (fun _ _ => True) s := by
  have hworker : Prog.wp (.alone (certHandler p rows acme net) CertOk CertInv)
      (Prog.onRight (ExceptT.run (workerBatch q)) >>= fun _ => .ret ()) (fun _ _ => True) s := by
    rw [Prog.wp_bind]
    refine Prog.wp_onRight_alone (Prog.wp_mono (fun _ _ _ => ?_) (wp_iff_run.1 (workerBatch_issues h q)))
    exact (Prog.wp_ret _).2 trivial
  cases q with
  | hub hub request =>
    have hfaulty := wp_faulty (T := .alone (certHubHandler p rows) UseOk CertInv) (E := fun _ _ => True)
      (fun _ _ _ _ _ _ => trivial) (program_used h hub request)
    rw [certProgram, Prog.wp_bind]
    refine Prog.wp_onLeft_alone (Prog.wp_mono (fun _ _ _ => ?_) (wp_iff_run.1 hfaulty))
    exact (Prog.wp_ret _).2 trivial
  | _ => exact hworker

theorem CertInv.serve (h : CertInv s) (q : CertRequest) : CertInv (s.serve p rows acme net q) :=
  (Prog.wp_run (CertInv.step p rows acme net) h (certProgram_wp p rows acme net h q)).2

theorem CertInv.serveAll (h : CertInv s) (qs : List CertRequest) : CertInv (s.serveAll p rows acme net qs) := by
  induction qs generalizing s with
  | nil => exact h
  | cons q qs ih => exact ih (h.serve p rows acme net q)

/-- Every call of a run is allowed, and made over tables with the invariant. -/
theorem logAll_ok (h : CertInv s) (qs : List CertRequest) :
    ∀ e ∈ s.logAll p rows acme net qs, CertOk e.1 e.2 ∧ CertInv e.2 := by
  induction qs generalizing s with
  | nil => exact fun e he => by cases he
  | cons q qs ih =>
    intro e he
    rcases List.mem_append.1 he with he | he
    · exact Prog.wp_log (CertInv.step p rows acme net) h (certProgram_wp p rows acme net h q) e he
    · exact ih (h.serve p rows acme net q) e he

/-- **Versions and default bindings stay consistent.** In every run of requests and batches over tables that begin
empty, versions are numbered from 1 on, bindings are to versions that exist, and each site and each certificate has
one default binding, over which every call is made too; and a renewal that is persisted gives its version to the site
whose default the certificate was. -/
theorem certificates_stay_bound (remote : RemoteDns) (qs : List CertRequest) :
    BindingsSound ((CertState.init remote).serveAll p rows acme net qs) ∧
      ∀ e ∈ (CertState.init remote).logAll p rows acme net qs, BindingsSound e.2 ∧
        ∀ request, e.1 = .inr (.persistIssuedCertificate request) →
          (e.2.persistIssuedCertificate p request).1 = .ok () →
          RenewsDefault e.2 (e.2.persistIssuedCertificate p request).2 request.orderId := by
  refine ⟨((CertInv.init remote).serveAll p rows acme net qs).sound, fun e he => ?_⟩
  obtain ⟨hok, hinv⟩ := logAll_ok p rows acme net (CertInv.init remote) qs e he
  refine ⟨hinv.sound, fun request hc hdone => ?_⟩
  rw [hc] at hok
  exact persist_renews hinv hok hdone

end Runs

/-- A certificate is issued for a site, and renewed. -/
def renewedTwice : List CertRequest :=
  tlsSetup ++ [CertRequest.ask (.renewSiteCertificate 2), .pending .mock 10, .presented .mock 10,
    .ask (.renewSiteCertificate 2), .pending .mock 10, .presented .mock 10]

/-- The second version is the default of the site. -/
theorem certificates_stay_bound_renewed :
    BindingsSound ((CertState.init (.ofZones [])).serveAll .plain .plain .issuing (fun _ => .done) renewedTwice) ∧
      ((CertState.init (.ofZones [])).serveAll .plain .plain .issuing (fun _ => .done) renewedTwice).defaults.map
        (fun b => (b.siteId, b.certificateId, b.version)) = [(2, 3, 2)] :=
  ⟨(certificates_stay_bound .plain .plain .issuing (fun _ => .done) (.ofZones []) renewedTwice).1, by decide +kernel⟩

end PingoraMesh
