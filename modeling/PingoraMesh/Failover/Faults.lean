import PingoraMesh.Failover.DnsSwitch
import PingoraMesh.Failover.Primary

/-!
# Failovers that fail

Every statement of the transaction of `execute_site_failover` may be refused by the database, the commit included
(`siteFailoverWith`, which is `siteFailover` when nothing is refused). The transaction is taken back then; what the DNS
provider was asked for before is not.

* `siteFailoverWith_remote`: when a failover fails, and what it has done to the records of the provider;
* `failed_failover_changes_nothing_iff`: a failover that fails leaves tables and records alone exactly if no statement
  after the change of the records is refused;
* `failed_failover_moves_dns`: the commit fails, and the name points to the standby node.
-/

namespace PingoraMesh

open Act

/-! ## Statements -/

/-- The statements of `execute_site_failover`; those of a loop are numbered. -/
inductive Statement where
  | begin
  | selectZones
  | deleteBindings
  | insertBinding (n : Nat)
  | updatePolicy
  | selectCertificates
  | insertRelease
  | insertNodeReleaseStatus (n : Nat)
  | updateSite
  | selectDnsRecord
  | upsertDnsRecord
  | insertDnsChangeLog
  | insertAuditLog
  | selectTemplate (n : Nat)
  | insertOperation (n : Nat)
  | commit
  deriving DecidableEq, Repr

variable (p : Platform) (net : Nat → Delivery) (fails : Statement → Bool)

/-- A statement of the transaction, as far as the database may refuse it. -/
def sql (s : Statement) : TxM Unit := Act.ensure (!fails s) "error returned from database"

/-- One statement after another. -/
def sqlAll (ss : List Statement) : TxM Unit := ss.forM (sql fails)

/-! ## The transaction -/

/-- The statements of `save_site_bindings`. -/
def bindingStatements (switched : List SiteBindingSnapshot) : List Statement :=
  .deleteBindings :: (List.range switched.length).map .insertBinding

/-- The statements of `advance_failover_policy`. -/
def policyStatements (policy : PolicySnapshot) (switched : List SiteBindingSnapshot) : List Statement :=
  if (selectNextPolicyStandby switched policy.standbyNodeId).isSome then [.updatePolicy] else []

/-- The statements that load the certificates and store the release. -/
def releaseStatements (switched : List SiteBindingSnapshot) : List Statement :=
  [Statement.selectCertificates, .insertRelease] ++ (List.range switched.length).map Statement.insertNodeReleaseStatus

/-- The part of `execute_site_failover` that stores the release and publishes the site. -/
def publishFailover (policy : PolicySnapshot) (site : SiteSnapshot) (switched : List SiteBindingSnapshot)
    (now : DateTime) : TxM Unit := do
  sqlAll fails (releaseStatements switched)
  storeFailoverRelease p policy site switched now
  sql fails .updateSite
  TxM.update fun s => { s with
    sites := s.sites.modify site.siteId fun record => { record with status := .published } }

/-- The part of `execute_site_failover` before the change of DNS. A statement that is refused takes back what was
written before it, so the statements of each part may stand before its writes. -/
def prepareFailover (policy : PolicySnapshot) (site : SiteSnapshot) (now : DateTime) :
    TxM (Option DnsFailoverPlan) := do
  sqlAll fails [.begin, .selectZones]
  let zones ← TxM.store loadDnsZoneSnapshots
  let plan ← Act.attempt (buildDnsFailoverPlan site policy zones)
  let switched := buildSwitchedBindings site.bindings policy.primaryNodeId policy.standbyNodeId
  sqlAll fails (bindingStatements switched)
  saveSiteBindings site.siteId switched
  sqlAll fails (policyStatements policy switched)
  advanceFailoverPolicy policy switched
  publishFailover p fails policy site switched now
  return plan

/-- The DNS provider of a plan. -/
def planProvider (plan : DnsFailoverPlan) : Except String DnsProvider :=
  (buildProvider (providerConfigFromDnsZone plan.zone)).mapError fun _ =>
    "failed to build dns provider " ++ plan.zone.providerType

/-- `apply_dns_failover`. -/
def applyDnsFailoverWith (plan : DnsFailoverPlan) (now : DateTime) : TxM Unit := do
  sql fails .selectDnsRecord
  let existing ← Act.read (loadDnsRecordSnapshot plan)
  let provider ← Act.attempt (planProvider plan)
  changeRecord net provider plan.change existing
  sql fails .upsertDnsRecord
  let _ ← upsertDnsRecordSnapshot plan existing now
  sql fails .insertDnsChangeLog

/-- The statements of a turn of the loop of `enqueue_post_switch_operations`. -/
def operationStatements (policy : PolicySnapshot) (s : MemoryState) (item : Value × Nat) : List Statement :=
  match parsePostSwitchOperation item.1 policy with
  | none => []
  | some spec =>
    .selectTemplate item.2 ::
      if ((loadOperationTemplate spec s).filter fun t => !t.approvalRequired).isSome then
        [.insertOperation item.2] else []

/-- The operations that a policy asks for after a switch. -/
def postSwitchItems (policy : PolicySnapshot) : List Value :=
  ((policy.precheckPolicy.get "post_switch_operations").bind Value.asArray).getD []

/-- `enqueue_post_switch_operations`. -/
def enqueuePostSwitchOperationsWith (policy : PolicySnapshot) (eventId : Uuid) (now : DateTime) : TxM Unit :=
  (postSwitchItems policy).zipIdx.forM fun item => do
    let statements ← TxM.store fun s => operationStatements policy s item
    sqlAll fails statements
    enqueuePostSwitchOperation policy eventId now item.1

/-- The body of `execute_site_failover`. -/
def siteFailoverWith (policy : PolicySnapshot) (site : SiteSnapshot) (eventId : Uuid) (now : DateTime) : TxM Unit := do
  let plan ← prepareFailover p fails policy site now
  Act.forSome plan fun plan => applyDnsFailoverWith net fails plan now
  sql fails .insertAuditLog
  enqueuePostSwitchOperationsWith fails policy eventId now
  sql fails .commit

/-- `execute_site_failover`. -/
def executeSiteFailoverWith (policy : PolicySnapshot) (site : SiteSnapshot) (eventId : Uuid)
    (now : DateTime) : TxM Unit :=
  Act.atomically Mesh.rollback (siteFailoverWith p net fails policy site eventId now)

/-! ## Nothing is refused -/

section None

theorem sqlAll_none (ss : List Statement) : sqlAll (fun _ => false) ss = pure () := by
  induction ss with
  | nil => rfl
  | cons s ss ih => exact ih

theorem enqueuePostSwitchOperationsWith_none (policy : PolicySnapshot) (eventId : Uuid) (now : DateTime) :
    enqueuePostSwitchOperationsWith (fun _ => false) policy eventId now =
      enqueuePostSwitchOperations policy eventId now := by
  have hloop : ∀ (items : List Value) (n : Nat),
      ((items.zipIdx n).forM fun item => do
        let statements ← TxM.store fun s => operationStatements policy s item
        sqlAll (fun _ => false) statements
        enqueuePostSwitchOperation policy eventId now item.1) =
        items.forM (enqueuePostSwitchOperation policy eventId now) := by
    intro items
    induction items with
    | nil => exact fun n => rfl
    | cons item items ih =>
      intro n
      simp only [List.zipIdx_cons, List.forM_eq_forM, List.forM_cons, sqlAll_none, pure_bind] at ih ⊢
      rw [ih]
      rfl
  exact hloop _ 0

theorem applyDnsFailoverWith_none (plan : DnsFailoverPlan) (now : DateTime) :
    applyDnsFailoverWith net (fun _ => false) plan now = applyDnsFailover net plan now := rfl

/-- The transaction in which no statement is refused is the one without faults. -/
theorem executeSiteFailoverWith_none (policy : PolicySnapshot) (site : SiteSnapshot) (eventId : Uuid) (now : DateTime) :
    executeSiteFailoverWith p net (fun _ => false) policy site eventId now =
      executeSiteFailover p net policy site eventId now := by
  have hsql : ∀ s, sql (fun _ => false) s = pure () := fun _ => rfl
  unfold executeSiteFailoverWith executeSiteFailover siteFailoverWith siteFailover prepareFailover
    publishFailover applyPlan
  simp only [sqlAll_none, hsql, applyDnsFailoverWith_none, enqueuePostSwitchOperationsWith_none, pure_bind, bind_assoc,
    bind_pure_unit]

end None

/-! ## What comes before the change of DNS -/

section Rules

variable {fails} {Q : Unit → Mesh → Prop} {E : String → Mesh → Prop} {m : Mesh}

@[simp] theorem wp_sql (s : Statement) :
    (sql fails s).wp Q E m ↔ (fails s = false → Q () m) ∧ (fails s = true → E "error returned from database" m) := by
  simp [sql]

@[simp] theorem wp_sqlAll (ss : List Statement) :
    (sqlAll fails ss).wp Q E m ↔ ((∀ s ∈ ss, fails s = false) → Q () m) ∧
      ((∃ s ∈ ss, fails s = true) → E "error returned from database" m) := by
  induction ss with
  | nil => simp [sqlAll]
  | cons s ss ih =>
    change (sql fails s >>= fun _ => sqlAll fails ss).wp Q E m ↔ _
    rw [wp_bind, wp_sql]
    cases hs : fails s with
    | false => simp [ih, hs]
    | true => simp [hs]

end Rules

/-- The statements before the change of DNS. -/
def openingStatements (policy : PolicySnapshot) (switched : List SiteBindingSnapshot) : List Statement :=
  [Statement.begin, .selectZones] ++ bindingStatements switched ++ policyStatements policy switched ++
    releaseStatements switched ++ [Statement.updateSite]

/-- A failover gets to the change of DNS that it plans, if it plans one: the checks pass, and no statement is refused.
-/
structure Prepares (policy : PolicySnapshot) (site : SiteSnapshot) (m : Mesh)
    (plan : Option DnsFailoverPlan) : Prop where
  plan : buildDnsFailoverPlan site policy (loadDnsZoneSnapshots m.world.store) = .ok plan
  statements : ∀ s ∈ openingStatements policy (switchedSnapshot policy site), fails s = false
  references : (m.world.store.sites.contains site.siteId &&
    (switchedSnapshot policy site).all fun b => m.world.store.nodes.contains b.nodeId) = true
  domain : Text.isEmpty (Text.trim site.domain) = false

/-- What the transaction leaves alone before the change of DNS. -/
structure Mesh.Kept (m m' : Mesh) : Prop where
  remote : m'.remote = m.remote
  dnsRecords : m'.dnsRecords = m.dnsRecords
  templates : m'.world.store.operationTemplates = m.world.store.operationTemplates

theorem switchedSnapshot_isEmpty (policy : PolicySnapshot) (site : SiteSnapshot) :
    (switchedSnapshot policy site).isEmpty = false := by
  have hlen : 0 < (switchedSnapshot policy site).length := by
    unfold switchedSnapshot buildSwitchedBindings
    simp
  cases hs : switchedSnapshot policy site with
  | nil =>
    rw [hs] at hlen
    exact absurd hlen (Nat.lt_irrefl 0)
  | cons b bs => rfl

section Before

variable {p fails} {policy : PolicySnapshot} {site : SiteSnapshot} {now : DateTime} {m : Mesh}

theorem publishFailover_wp {switched : List SiteBindingSnapshot} (hne : switched.isEmpty = false) :
    (publishFailover p fails policy site switched now).wp
      (fun _ m' => m.Kept m' ∧ (∀ s ∈ releaseStatements switched ++ [Statement.updateSite], fails s = false) ∧
        Text.isEmpty (Text.trim site.domain) = false)
      (fun _ m' => m'.remote = m.remote ∧
        ((∃ s ∈ releaseStatements switched ++ [Statement.updateSite], fails s = true) ∨
        Text.isEmpty (Text.trim site.domain) = true)) m := by
  simp only [publishFailover, storeFailoverRelease, TxM.store, TxM.update, TxM.newUuid, TxM.utcNow, Act.wp_bind,
    Act.wp_read, Act.wp_attempt, Act.wp_ensure, Act.wp_write, Act.wp_step, wp_sqlAll, wp_sql, hne, Bool.not_false,
    forall_const]
  refine ⟨fun hstatements => ⟨⟨fun bundle hb => ⟨fun hsite => ?_, fun hsite => ?_⟩, fun e he => ?_⟩,
    fun e => by cases e⟩,
    fun hstopped => ⟨trivial, .inl (hstopped.imp fun _ hs => ⟨List.mem_append_left _ hs.1, hs.2⟩)⟩⟩
  · refine ⟨⟨rfl, rfl, rfl⟩, fun s hs => ?_, ?_⟩
    · rcases List.mem_append.1 hs with hs | hs
      · exact hstatements s hs
      · rw [List.mem_singleton.1 hs]
        exact hsite
    · unfold compileSiteBundle at hb
      split at hb
      · cases hb
      · rename_i hdomain
        exact eq_false_of_ne_true hdomain
  · exact ⟨rfl, .inl ⟨_, List.mem_append_right _ (List.mem_singleton_self _), hsite⟩⟩
  · refine ⟨trivial, .inr ?_⟩
    unfold compileSiteBundle at he
    split at he
    · assumption
    · cases he

/-- The part before the change of DNS succeeds exactly if the failover gets there, and leaves DNS alone. -/
theorem prepareFailover_wp :
    (prepareFailover p fails policy site now).wp (fun plan m' => m.Kept m' ∧ Prepares fails policy site m plan)
      (fun _ m' => m'.remote = m.remote ∧ ∀ plan, ¬ Prepares fails policy site m plan) m := by
  have hrefused : ∀ s, fails s = true → s ∈ openingStatements policy (switchedSnapshot policy site) → ∀ plan,
      ¬ Prepares fails policy site m plan := by
    intro s hs hmem plan h
    rw [h.statements s hmem] at hs
    cases hs
  -- the parts of the list of statements, as the transaction comes to them
  have hmem : ∀ s, s ∈ openingStatements policy (switchedSnapshot policy site) ↔
      s ∈ [Statement.begin, .selectZones] ∨ s ∈ bindingStatements (switchedSnapshot policy site) ∨
        s ∈ policyStatements policy (switchedSnapshot policy site) ∨
        s ∈ releaseStatements (switchedSnapshot policy site) ++ [Statement.updateSite] := by
    intro s
    simp only [openingStatements, List.mem_append, or_assoc]
  simp only [prepareFailover, saveSiteBindings, advanceFailoverPolicy, TxM.store, TxM.update, Act.wp_bind, Act.wp_read,
    Act.wp_attempt, Act.wp_ensure, Act.wp_write, Act.wp_forSome, Act.wp_pure, wp_sqlAll]
  refine
    ⟨fun hbegin => ⟨fun plan hplan => ⟨fun hbindings => ⟨fun hrefs => ⟨fun hpolicy => ?_, ?_⟩, fun hrefs => ?_⟩, ?_⟩,
    fun e he => ?_⟩, ?_⟩
  · have hrest : ∀ m₁ : Mesh, m.Kept m₁ →
        (publishFailover p fails policy site (switchedSnapshot policy site) now).wp
          (fun _ m' => m.Kept m' ∧ Prepares fails policy site m plan)
          (fun _ m' => m'.remote = m.remote ∧ ∀ plan, ¬ Prepares fails policy site m plan) m₁ := by
      intro m₁ hkept
      refine Act.wp_mono (fun _ m' h => ?_) (fun _ m' h => ?_)
        (publishFailover_wp (switchedSnapshot_isEmpty policy site))
      · obtain ⟨hk, hrelease, hdomain⟩ := h
        refine ⟨⟨hk.remote.trans hkept.remote, hk.dnsRecords.trans hkept.dnsRecords,
          hk.templates.trans hkept.templates⟩, hplan, fun s hs => ?_, hrefs, hdomain⟩
        rcases (hmem s).1 hs with hs | hs | hs | hs
        · exact hbegin s hs
        · exact hbindings s hs
        · exact hpolicy s hs
        · exact hrelease s hs
      · obtain ⟨hremote, ⟨s, hs, hf⟩ | hdomain⟩ := h
        · exact ⟨hremote.trans hkept.remote, hrefused s hf ((hmem s).2 (.inr (.inr (.inr hs))))⟩
        · refine ⟨hremote.trans hkept.remote, fun plan h => ?_⟩
          rw [h.domain] at hdomain
          cases hdomain
    exact ⟨fun next _ => hrest _ ⟨rfl, rfl, rfl⟩, fun _ => hrest _ ⟨rfl, rfl, rfl⟩⟩
  · rintro ⟨s, hs, hf⟩
    exact ⟨rfl, hrefused s hf ((hmem s).2 (.inr (.inr (.inl hs))))⟩
  · refine ⟨trivial, fun plan h => ?_⟩
    have href := h.references
    rw [switchedSnapshot, show m.world.store = id m.world.store from rfl, hrefs] at href
    cases href
  · rintro ⟨s, hs, hf⟩
    exact ⟨trivial, hrefused s hf ((hmem s).2 (.inr (.inl hs)))⟩
  · refine ⟨trivial, fun plan h => ?_⟩
    rw [h.plan] at he
    cases he
  · rintro ⟨s, hs, hf⟩
    exact ⟨trivial, hrefused s hf ((hmem s).2 (.inl hs))⟩

end Before

/-! ## The change of DNS -/

/-- The request to the provider in `apply_dns_failover`. -/
def dnsRequest (plan : DnsFailoverPlan) (m : Mesh) (provider : DnsProvider) : RemoteM Unit :=
  if (loadDnsRecordSnapshot plan m).isSome then provider.updateRecord net plan.change
  else provider.createRecord net plan.change

/-- A failover gets to the change of DNS, and the records of the provider are other ones after it. -/
structure MovesDns (policy : PolicySnapshot) (site : SiteSnapshot) (m : Mesh) (plan : DnsFailoverPlan) : Prop where
  prepares : Prepares fails policy site m (some plan)
  selects : fails .selectDnsRecord = false
  moves : ∃ provider r, planProvider plan = .ok provider ∧ dnsRequest net plan m provider m.remote = (.ok (), r) ∧
    r.records ≠ m.remote.records

/-- The statements after the change of DNS. -/
def closingStatements (policy : PolicySnapshot) (s : MemoryState) : List Statement :=
  [Statement.upsertDnsRecord, .insertDnsChangeLog] ++
    ([Statement.insertAuditLog] ++ (postSwitchItems policy).zipIdx.flatMap (operationStatements policy s) ++
      [Statement.commit])

/-- The records are changed, and a statement after the change is refused. -/
def Spoiled (policy : PolicySnapshot) (site : SiteSnapshot) (m : Mesh) : Prop :=
  ∃ plan, MovesDns net fails policy site m plan ∧ ∃ s ∈ closingStatements policy m.world.store, fails s = true

section Requests

variable {net} (hnet : ∀ n, net n ≠ .lost) {r : RemoteDns}
include hnet

/-- A request that is not answered was not carried out. -/
theorem wp_ask_refused {α : Type} {action : String} {f : RemoteDns → α × RemoteDns} {Q : α → RemoteDns → Prop}
    {E : String → RemoteDns → Prop} (h : Q (f r).1 { (f r).2 with asked := r.asked + 1 })
    (hE : ∀ e r', r'.records = r.records → E e r') : (ask net action f).wp Q E r :=
  wp_ask_iff.2 ⟨fun _ => h, fun _ => hE _ _ rfl, fun hn => absurd hn (hnet _)⟩

theorem zoneIdOf_records (change : DnsRecordChange) :
    (Cloudflare.zoneIdOf net change).wp (fun _ r' => r'.records = r.records)
      (fun _ r' => r'.records = r.records) r := by
  unfold Cloudflare.zoneIdOf
  split
  · exact (Act.wp_pure _).2 rfl
  · simp only [Cloudflare.getZoneIdByName, Act.wp_bind]
    refine wp_ask_refused hnet ?_ fun _ _ h => h
    split
    · exact (Act.wp_pure _).2 rfl
    · exact (Act.wp_fail _).2 rfl

theorem createRecord_refused (change : DnsRecordChange) :
    (Cloudflare.createRecord net change).wp (fun _ _ => True) (fun _ r' => r'.records = r.records) r := by
  simp only [Cloudflare.createRecord, Act.wp_bind]
  refine Act.wp_mono (fun zoneId r' h => ?_) (fun _ _ h => h) (zoneIdOf_records hnet change)
  exact wp_ask_refused hnet trivial fun _ _ h' => h'.trans h

theorem updateRecord_refused (change : DnsRecordChange) :
    (Cloudflare.updateRecord net change).wp (fun _ _ => True) (fun _ r' => r'.records = r.records) r := by
  simp only [Cloudflare.updateRecord, Cloudflare.findRecordIdByName, Act.wp_bind]
  refine Act.wp_mono (fun zoneId r' h => ?_) (fun _ _ h => h) (zoneIdOf_records hnet change)
  refine wp_ask_refused hnet ?_ fun _ _ h' => h'.trans h
  split
  · exact (Act.wp_fail _).2 h
  · exact wp_ask_refused hnet trivial fun _ _ h' => h'.trans h

/-- A request of a provider that fails has changed no record. -/
theorem dnsRequest_refused (plan : DnsFailoverPlan) (m : Mesh) (provider : DnsProvider) :
    (dnsRequest net plan m provider).wp (fun _ _ => True) (fun _ r' => r'.records = r.records) r := by
  unfold dnsRequest
  cases provider with
  | noop => split <;> exact (Act.wp_pure _).2 trivial
  | cloudflare config =>
    split
    · exact updateRecord_refused hnet plan.change
    · exact createRecord_refused hnet plan.change

end Requests

section After

variable {p net fails} {policy : PolicySnapshot} {site : SiteSnapshot} {eventId : Uuid} {now : DateTime} {m m₁ : Mesh}

theorem upsertDnsRecordSnapshot_remote (plan : DnsFailoverPlan) (existing : Option DnsRecordRow) :
    (upsertDnsRecordSnapshot plan existing now).wp (fun _ m' => m'.remote = m.remote ∧
      m'.world.store.operationTemplates = m.world.store.operationTemplates) (fun _ _ => False) m := by
  cases existing with
  | some row => simp [upsertDnsRecordSnapshot]
  | none => simp [upsertDnsRecordSnapshot, TxM.newUuid]

theorem changeRecord_eq (net : Nat → Delivery) (provider : DnsProvider) (plan : DnsFailoverPlan) (m : Mesh) :
    ∃ context, changeRecord net provider plan.change (loadDnsRecordSnapshot plan m) =
      TxM.remote context (dnsRequest net plan m provider) := by
  unfold changeRecord dnsRequest Act.choose
  split
  · exact ⟨_, rfl⟩
  · exact ⟨_, rfl⟩

/-- The change of DNS: the records are other ones exactly if they are moved, and then an error comes from a statement
after that. -/
theorem applyDnsFailoverWith_wp (hnet : ∀ n, net n ≠ .lost) {plan : DnsFailoverPlan}
    (hplan : Prepares fails policy site m (some plan)) (hkept : m.Kept m₁) :
    (applyDnsFailoverWith net fails plan now).wp
      (fun _ m' => (m'.remote.records ≠ m.remote.records ↔ MovesDns net fails policy site m plan) ∧
        m'.world.store.operationTemplates = m.world.store.operationTemplates ∧
        ∀ s ∈ [Statement.upsertDnsRecord, .insertDnsChangeLog], fails s = false)
      (fun _ m' => (m'.remote.records ≠ m.remote.records ↔ MovesDns net fails policy site m plan) ∧
        (MovesDns net fails policy site m plan →
          ∃ s ∈ [Statement.upsertDnsRecord, .insertDnsChangeLog], fails s = true)) m₁ := by
  -- an error before the provider has done anything
  have hstill : ∀ m' : Mesh, m'.remote.records = m.remote.records → ¬ MovesDns net fails policy site m plan →
      (m'.remote.records ≠ m.remote.records ↔ MovesDns net fails policy site m plan) ∧
        (MovesDns net fails policy site m plan →
          ∃ s ∈ [Statement.upsertDnsRecord, .insertDnsChangeLog], fails s = true) := by
    intro m' hsame hno
    exact ⟨⟨fun h => absurd hsame h, fun h => absurd h hno⟩, fun h => absurd h hno⟩
  have hload : loadDnsRecordSnapshot plan m₁ = loadDnsRecordSnapshot plan m := by
    unfold loadDnsRecordSnapshot
    rw [hkept.dnsRecords]
  simp only [applyDnsFailoverWith, Act.wp_bind, Act.wp_read, Act.wp_attempt, wp_sql, hload]
  refine ⟨fun hselect => ⟨fun provider hprovider => ?_, fun e he => ?_⟩, fun hselect => ?_⟩
  · obtain ⟨context, hchange⟩ := changeRecord_eq net provider plan m
    rw [hchange, TxM.remote, Act.wp_zoom, hkept.remote]
    refine Act.wp_of_run (fun _ r hr => ?_) fun e r hr => ?_
    · have hmoves : r.records ≠ m.remote.records ↔ MovesDns net fails policy site m plan := by
        refine ⟨fun hne => ⟨hplan, hselect, provider, r, hprovider, hr, hne⟩, fun h => ?_⟩
        obtain ⟨provider', r', hprovider', hr', hne⟩ := h.moves
        rw [hprovider] at hprovider'
        cases hprovider'
        rw [hr] at hr'
        cases hr'
        exact hne
      refine ⟨fun hupsert => ?_, fun hupsert => ⟨hmoves, fun _ => ⟨_, List.mem_cons_self, hupsert⟩⟩⟩
      refine Act.wp_mono (fun _ m' h => ?_) (fun _ _ h => h.elim) (upsertDnsRecordSnapshot_remote plan _)
      rw [h.1]
      refine ⟨fun hlog => ⟨hmoves, h.2.trans hkept.templates, ?_⟩,
        fun hlog => ⟨hmoves, fun _ => ⟨_, List.mem_cons_of_mem _ List.mem_cons_self, hlog⟩⟩⟩
      simp [hupsert, hlog]
    · refine hstill _ (Act.wp_error (dnsRequest_refused hnet plan m provider) hr) fun h => ?_
      obtain ⟨provider', r', hprovider', hr', -⟩ := h.moves
      rw [hprovider] at hprovider'
      cases hprovider'
      rw [hr] at hr'
      cases hr'
  · refine hstill _ (congrArg _ hkept.remote) fun h => ?_
    obtain ⟨provider, r, hprovider, -⟩ := h.moves
    rw [hprovider] at he
    cases he
  · refine hstill _ (congrArg _ hkept.remote) fun h => ?_
    rw [h.selects] at hselect
    cases hselect

/-! ## What comes after it -/

theorem operationStatements_congr {s s' : MemoryState} (h : s'.operationTemplates = s.operationTemplates)
    (item : Value × Nat) : operationStatements policy s' item = operationStatements policy s item := by
  have hload : ∀ spec, loadOperationTemplate spec s' = loadOperationTemplate spec s := by
    intro spec
    unfold loadOperationTemplate
    rw [h]
  unfold operationStatements
  simp only [hload]

/-- The operations are enqueued unless one of their statements is refused. -/
theorem enqueuePostSwitchOperationsWith_wp :
    (enqueuePostSwitchOperationsWith fails policy eventId now).wp
      (fun _ m' => m'.remote = m.remote ∧
        ∀ s ∈ (postSwitchItems policy).zipIdx.flatMap (operationStatements policy m.world.store), fails s = false)
      (fun _ m' => m'.remote = m.remote ∧
        ∃ s ∈ (postSwitchItems policy).zipIdx.flatMap (operationStatements policy m.world.store),
          fails s = true) m := by
  have henqueue : ∀ (item : Value) (m : Mesh), (enqueuePostSwitchOperation policy eventId now item).wp
      (fun _ m' => m'.remote = m.remote ∧ m'.world.store.operationTemplates = m.world.store.operationTemplates)
      (fun _ _ => False) m := by
    intro item m
    simp only [enqueuePostSwitchOperation, TxM.store, TxM.update, TxM.newUuid, Act.wp_forSome, Act.wp_bind, Act.wp_read,
      Act.wp_step, Act.wp_write]
    exact ⟨fun spec _ => ⟨fun template _ => ⟨rfl, rfl⟩, fun _ => ⟨trivial, trivial⟩⟩, fun _ => ⟨trivial, trivial⟩⟩
  unfold enqueuePostSwitchOperationsWith
  generalize (postSwitchItems policy).zipIdx = items
  induction items generalizing m with
  | nil => simp
  | cons item items ih =>
    rw [List.forM_eq_forM, List.forM_cons]
    simp only [TxM.store, Act.wp_bind, Act.wp_read, wp_sqlAll]
    refine ⟨fun hitem => ?_, fun hitem => ⟨trivial, hitem.imp fun _ hs =>
      ⟨List.mem_flatMap.2 ⟨item, List.mem_cons_self, hs.1⟩, hs.2⟩⟩⟩
    refine Act.wp_mono (fun _ m₁ h => ?_) (fun _ _ h => h.elim) (henqueue item.1 m)
    have hstatements : operationStatements policy m₁.world.store = operationStatements policy m.world.store :=
      funext (operationStatements_congr h.2)
    refine Act.wp_mono (fun _ m' h' => ?_) (fun _ m' h' => ?_) (ih (m := m₁))
    · rw [hstatements, h.1] at h'
      refine ⟨h'.1, fun s hs => ?_⟩
      rw [List.flatMap_cons] at hs
      exact (List.mem_append.1 hs).elim (hitem s) (h'.2 s)
    · rw [hstatements, h.1] at h'
      obtain ⟨hremote, s, hs, hf⟩ := h'
      refine ⟨hremote, s, ?_, hf⟩
      rw [List.flatMap_cons]
      exact List.mem_append_right _ hs

/-- The end of the transaction. -/
theorem closeFailover_wp :
    (do
      sql fails .insertAuditLog
      enqueuePostSwitchOperationsWith fails policy eventId now
      sql fails .commit : TxM Unit).wp
      (fun _ m' => m'.remote = m.remote ∧ ∀ s ∈ [Statement.insertAuditLog] ++
        (postSwitchItems policy).zipIdx.flatMap (operationStatements policy m.world.store) ++ [Statement.commit],
          fails s = false)
      (fun _ m' => m'.remote = m.remote ∧ ∃ s ∈ [Statement.insertAuditLog] ++
        (postSwitchItems policy).zipIdx.flatMap (operationStatements policy m.world.store) ++
          [Statement.commit], fails s = true)
      m := by
  simp only [Act.wp_bind, wp_sql]
  refine ⟨fun haudit => ?_, fun haudit => ⟨trivial, _, by simp, haudit⟩⟩
  refine Act.wp_mono (fun _ m' h => ⟨fun hcommit => ⟨h.1, fun s hs => ?_⟩, fun hcommit => ⟨h.1, _, by simp, hcommit⟩⟩)
    (fun _ m' h => ⟨h.1, ?_⟩) enqueuePostSwitchOperationsWith_wp
  · rcases List.mem_append.1 hs with hs | hs
    · rcases List.mem_append.1 hs with hs | hs
      · rw [List.mem_singleton.1 hs]
        exact haudit
      · exact h.2 s hs
    · rw [List.mem_singleton.1 hs]
      exact hcommit
  · obtain ⟨s, hs, hf⟩ := h.2
    exact ⟨s, List.mem_append_left _ (List.mem_append_right _ hs), hf⟩

/-! ## The whole transaction -/

/-- A failover that succeeds has not spoiled anything, and one that fails has changed records exactly if it has. -/
theorem siteFailoverWith_remote (hnet : ∀ n, net n ≠ .lost) :
    (siteFailoverWith p net fails policy site eventId now).wp (fun _ _ => ¬ Spoiled net fails policy site m)
      (fun _ m' => m'.remote.records ≠ m.remote.records ↔ Spoiled net fails policy site m) m := by
  unfold siteFailoverWith
  rw [Act.wp_bind]
  refine Act.wp_mono (fun plan m₁ h => ?_) (fun _ m₁ h => ?_) prepareFailover_wp
  · obtain ⟨hkept, hplan⟩ := h
    rw [Act.wp_bind, Act.wp_forSome]
    refine ⟨fun plan' e => ?_, fun e => ?_⟩
    · subst e
      have hspoiled : Spoiled net fails policy site m ↔ MovesDns net fails policy site m plan' ∧
          ∃ s ∈ closingStatements policy m.world.store, fails s = true := by
        refine ⟨fun ⟨plan'', hm, hs⟩ => ?_, fun h => ⟨plan', h⟩⟩
        have heq := hm.prepares.plan
        rw [hplan.plan] at heq
        cases heq
        exact ⟨hm, hs⟩
      refine Act.wp_mono (fun _ m₂ h => ?_) (fun _ m₂ h => ?_) (applyDnsFailoverWith_wp hnet hplan hkept)
      · obtain ⟨hrecords, htemplates, hpassed⟩ := h
        have hstatements : operationStatements policy m₂.world.store = operationStatements policy m.world.store :=
          funext (operationStatements_congr htemplates)
        refine Act.wp_mono (fun _ m' h => ?_) (fun _ m' h => ?_) (closeFailover_wp (m := m₂))
        · rintro hsp
          obtain ⟨-, s, hs, hf⟩ := hspoiled.1 hsp
          rw [hstatements] at h
          rw [(List.mem_append.1 hs).elim (hpassed s) (h.2 s)] at hf
          cases hf
        · rw [hstatements] at h
          obtain ⟨hremote, s, hs, hf⟩ := h
          rw [hremote, hrecords, hspoiled]
          exact ⟨fun hm => ⟨hm, s, List.mem_append_right _ hs, hf⟩, fun h => h.1⟩
      · rw [h.1, hspoiled]
        refine ⟨fun hm => ⟨hm, ?_⟩, fun h => h.1⟩
        obtain ⟨s, hs, hf⟩ := h.2 hm
        exact ⟨s, List.mem_append_left _ hs, hf⟩
    · subst e
      have hsound : ¬ Spoiled net fails policy site m := by
        rintro ⟨plan', hm, -⟩
        have heq := hm.prepares.plan
        rw [hplan.plan] at heq
        cases heq
      refine Act.wp_mono (fun _ _ _ => hsound) (fun _ m' h => ?_) (closeFailover_wp (m := m₁))
      rw [h.1, hkept.remote]
      exact ⟨fun h => absurd rfl h, fun h => absurd h hsound⟩
  · refine ⟨fun hne => absurd (congrArg _ h.1) hne, ?_⟩
    rintro ⟨plan', hm, -⟩
    exact absurd hm.prepares (h.2 _)

end After

/-- The tables and the records of the provider are as before. -/
structure Mesh.Unchanged (m m' : Mesh) : Prop where
  store : m'.world.store = m.world.store
  counters : m'.world.counters = m.world.counters
  failoverEvents : m'.failoverEvents = m.failoverEvents
  dnsRecords : m'.dnsRecords = m.dnsRecords
  records : m'.remote.records = m.remote.records

/-- Whatever is refused, and wherever a failover fails: it leaves the tables and the records of the provider as they
were exactly if no statement is refused after the provider has changed its records. -/
theorem failed_failover_changes_nothing_iff (hnet : ∀ n, net n ≠ .lost) (policy : PolicySnapshot) (site : SiteSnapshot)
    (eventId : Uuid) (now : DateTime) (m : Mesh) :
    (∀ e m', executeSiteFailoverWith p net fails policy site eventId now m = (.error e, m') → m.Unchanged m') ↔
      ∀ plan, MovesDns net fails policy site m plan → ∀ s ∈ closingStatements policy m.world.store,
        fails s = false := by
  have hiff : ¬ Spoiled net fails policy site m ↔
      ∀ plan, MovesDns net fails policy site m plan → ∀ s ∈ closingStatements policy m.world.store,
        fails s = false := by
    simp [Spoiled]
  rw [← hiff]
  have hwp : (siteFailoverWith p net fails policy site eventId now).wp _ _ m := siteFailoverWith_remote hnet
  unfold executeSiteFailoverWith Act.atomically
  rcases hrun : siteFailoverWith p net fails policy site eventId now m with ⟨e | _, m'⟩
  · have hrecords := Act.wp_error hwp hrun
    constructor
    · intro h hsp
      exact hrecords.2 hsp (h e _ rfl).records
    · rintro hsp e' m'' heq
      cases heq
      exact ⟨rfl, rfl, rfl, rfl, not_not.1 fun hne => hsp (hrecords.1 hne)⟩
  · have hsound := Act.wp_ok hwp hrun
    exact ⟨fun _ => hsound, fun _ e m' heq => by (cases heq)⟩

/-- Two nodes, a site that is bound to them, and the zone of its name at a provider. -/
def wwwRequests : List Request :=
  [.node "a", .node "b", .site "www.example.com", .bind 4 0 [2],
    .createDnsProvider { name := "cf", providerType := "cloudflare", apiEndpoint := none
                         credentials := .object [("api_token", .string "t")] },
    .syncDnsZones { providerId := 5, zoneNames := ["example.com"] }]

/-- The tables after these requests, before a service that has the zone and no record. -/
def wwwMesh : Mesh := { Mesh.init wwwDns with world := World.init.serveAll .plain ⟨0, 30⟩ wwwRequests }

/-- The site as the worker reads it. -/
def wwwStored : SiteSnapshot :=
  { (loadSiteRow 4 wwwMesh.world.store).getD wwwSite with bindings := loadSiteBindings 4 wwwMesh.world.store }

/-- A policy of the site that moves its name from the first node to the second. -/
def wwwStoredPolicy : PolicySnapshot := { wwwPolicy with scopeId := 4, primaryNodeId := 0, standbyNodeId := 2 }

/-- The failover of the site, with one statement refused. -/
def wwwFailover (refused : Statement) : Except String Unit × Mesh :=
  executeSiteFailoverWith .plain (fun _ => .done) (· == refused) wwwStoredPolicy wwwStored 99 0 wwwMesh

/-- The site is not published, and nothing has been changed. -/
theorem failed_failover_changes_nothing_iff_www :
    (wwwFailover .updateSite).1 = .error "error returned from database" ∧
      ((∀ e m', wwwFailover .updateSite = (.error e, m') → wwwMesh.Unchanged m') ↔
        ∀ plan, MovesDns (fun _ => .done) (· == .updateSite) wwwStoredPolicy wwwStored wwwMesh plan →
          ∀ s ∈ closingStatements wwwStoredPolicy wwwMesh.world.store, (s == .updateSite) = false) :=
  ⟨by decide +kernel, failed_failover_changes_nothing_iff .plain (fun _ => .done) (· == .updateSite) (fun _ => nofun)
    wwwStoredPolicy wwwStored 99 0 wwwMesh⟩

/-- The commit fails, and the name points to the standby node. -/
theorem failed_failover_moves_dns :
    ¬ ∀ e m', wwwFailover .commit = (.error e, m') → wwwMesh.Unchanged m' := by
  intro h
  have herror : (wwwFailover .commit).1 = .error "error returned from database" := by decide +kernel
  have hrun : wwwFailover .commit = (.error "error returned from database", (wwwFailover .commit).2) := by
    rw [← herror]
  have hrecords := (h _ _ hrun).records
  have hone : ((wwwFailover .commit).2.remote.zone "noop-example.com").map (·.content) = ["203.0.113.10"] := by
    decide +kernel
  have hnone : (wwwMesh.remote.zone "noop-example.com").map (·.content) = [] := by decide +kernel
  rw [RemoteDns.zone, hrecords] at hone
  rw [RemoteDns.zone, hone] at hnone
  cases hnone

end PingoraMesh
