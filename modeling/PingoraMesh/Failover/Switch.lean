import PingoraMesh.Failover.Worker
import PingoraMesh.Lib.Maps

/-!
# What a failover does to the tables

* `executeSiteFailover_done`: a failover that succeeds has switched the bindings of the site, advanced its policy and
  stored one release under the version of its clock reading, and has left the rest of what is said here alone; a
  failover that fails has left the tables alone altogether;
* `executeSiteFailover_draws`: and it has drawn an identifier;
* `triggerPolicyFailover_rule`: what is to be shown of a policy that is due, when nothing runs beside the worker: that
  it is fine to leave the tables alone, and that it is fine to switch a site as it is stored.
-/

namespace PingoraMesh

open Calls

/-- The parts of the tables that the end of a failover does not touch. -/
structure Mesh.Beside (m m' : Mesh) : Prop where
  nodes : m'.world.store.nodes = m.world.store.nodes
  sites : m'.world.store.sites = m.world.store.sites
  policies : m'.world.store.failoverPolicies = m.world.store.failoverPolicies
  releases : m'.world.store.releases = m.world.store.releases
  counters : m'.world.counters = m.world.counters
  uuids : m.world.nextUuid ≤ m'.world.nextUuid

theorem Mesh.Beside.refl (m : Mesh) : m.Beside m := ⟨rfl, rfl, rfl, rfl, rfl, le_rfl⟩

theorem Mesh.Beside.trans {m₁ m₂ m₃ : Mesh} (h : m₁.Beside m₂) (h' : m₂.Beside m₃) : m₁.Beside m₃ :=
  ⟨h'.nodes.trans h.nodes, h'.sites.trans h.sites, h'.policies.trans h.policies, h'.releases.trans h.releases,
    h'.counters.trans h.counters, h.uuids.trans h'.uuids⟩

section Beside

variable (net : Nat → Delivery) (m : Mesh)

theorem remote_beside {α : Type} (context : String) (x : RemoteM α) :
    (TxM.remote context x).wp (fun _ m' => m.Beside m') (fun _ _ => True) m := by
  unfold TxM.remote Act.wp Act.zoom
  rcases x m.remote with ⟨e | a, r⟩
  · trivial
  · exact ⟨rfl, rfl, rfl, rfl, rfl, le_rfl⟩

theorem upsertDnsRecordSnapshot_beside (plan : DnsFailoverPlan) (existing : Option DnsRecordRow) (now : DateTime) :
    (upsertDnsRecordSnapshot plan existing now).wp (fun _ m' => m.Beside m') (fun _ _ => True) m := by
  cases existing with
  | some row =>
    simp only [upsertDnsRecordSnapshot, Act.wp_bind, Act.wp_write, Act.wp_pure]
    exact ⟨rfl, rfl, rfl, rfl, rfl, le_rfl⟩
  | none =>
    simp only [upsertDnsRecordSnapshot, TxM.newUuid, Act.wp_bind, Act.wp_write, Act.wp_step, Act.wp_pure]
    exact ⟨rfl, rfl, rfl, rfl, rfl, Nat.le_succ _⟩

theorem applyDnsFailover_beside (plan : DnsFailoverPlan) (now : DateTime) :
    (applyDnsFailover net plan now).wp (fun _ m' => m.Beside m') (fun _ _ => True) m := by
  simp only [applyDnsFailover, changeRecord, Act.wp_bind, Act.wp_read, Act.wp_attempt, Act.wp_choose, Act.wp_pure,
    implies_true, and_true]
  intro provider _
  have rest : ∀ {context : String} {x : RemoteM Unit}, (TxM.remote context x).wp (fun _ m' =>
      (upsertDnsRecordSnapshot plan (loadDnsRecordSnapshot plan m) now).wp (fun _ m'' => m.Beside m'')
        (fun _ _ => True) m') (fun _ _ => True) m := fun {context x} =>
    Act.wp_mono (fun _ m' h => Act.wp_mono (fun _ _ h' => h.trans h') (fun _ _ _ => trivial)
      (upsertDnsRecordSnapshot_beside m' plan _ now)) (fun _ _ _ => trivial) (remote_beside m context x)
  exact ⟨fun _ => rest, fun _ => rest⟩

theorem enqueuePostSwitchOperations_beside (policy : PolicySnapshot) (eventId : Uuid) (now : DateTime) :
    (enqueuePostSwitchOperations policy eventId now).wp (fun _ m' => m.Beside m') (fun _ _ => True) m := by
  refine Act.wp_forM _ _ (fun item _ m' h => ?_) (.refl m)
  simp only [enqueuePostSwitchOperation, TxM.store, TxM.update, TxM.newUuid, Act.wp_forSome, Act.wp_bind, Act.wp_read,
    Act.wp_step, Act.wp_write]
  refine ⟨fun spec _ => ⟨fun template _ => h.trans ?_, fun _ => h⟩, fun _ => h⟩
  exact ⟨rfl, rfl, rfl, rfl, rfl, Nat.le_succ _⟩

/-- The end of a failover: its DNS record and its operations. -/
theorem applyPlan_beside (plan : Option DnsFailoverPlan) (policy : PolicySnapshot) (eventId : Uuid) (now : DateTime) :
    (applyPlan net plan now).wp (fun _ m₁ => (enqueuePostSwitchOperations policy eventId now).wp
      (fun _ m' => m.Beside m') (fun _ _ => True) m₁) (fun _ _ => True) m := by
  have hplan : (applyPlan net plan now).wp (fun _ m₁ => m.Beside m₁) (fun _ _ => True) m :=
    (Act.wp_forSome _ _).2 ⟨fun plan _ => applyDnsFailover_beside net m plan now, fun _ => .refl m⟩
  refine Act.wp_mono (fun _ m₁ h₁ => ?_) (fun _ _ _ => trivial) hplan
  exact Act.wp_mono (fun _ _ h₂ => h₁.trans h₂) (fun _ _ _ => trivial)
    (enqueuePostSwitchOperations_beside m₁ policy eventId now)

end Beside

/-! ## The whole transaction -/

/-- The bindings after the failover. -/
def switchedSnapshot (policy : PolicySnapshot) (site : SiteSnapshot) : List SiteBindingSnapshot :=
  buildSwitchedBindings site.bindings policy.primaryNodeId policy.standbyNodeId

/-- What a failover has done when it succeeds. -/
structure FailoverDone (policy : PolicySnapshot) (site : SiteSnapshot) (now : DateTime) (m m' : Mesh) : Prop where
  bound : ∀ b ∈ switchedSnapshot policy site, m.world.store.nodes.contains b.nodeId
  sites : m'.world.store.sites = m.world.store.sites.modify site.siteId fun record =>
    { record with bindings := (switchedSnapshot policy site).map (·.toRecord), status := .published }
  policies : m'.world.store.failoverPolicies =
    match selectNextPolicyStandby (switchedSnapshot policy site) policy.standbyNodeId with
    | none => m.world.store.failoverPolicies
    | some next => m.world.store.failoverPolicies.modify policy.policyId fun f =>
      { f with primaryNodeId := policy.standbyNodeId, standbyNodeId := next }
  release : ∃ r : ReleaseRecord, r.releaseVersion = failoverVersion now ∧
    r.targetNodeIds = (switchedSnapshot policy site).map (·.nodeId) ∧
    m'.world.store.releases = m.world.store.releases.insert r.releaseId r
  nodes : m'.world.store.nodes = m.world.store.nodes
  counters : m'.world.counters = m.world.counters
  uuids : m.world.nextUuid ≤ m'.world.nextUuid

variable (p : Platform) (net : Nat → Delivery)

/-- The release of a failover is stored: it is compiled from the site that was read, under the identifier that is drawn
next. -/
def FailoverStored (policy : PolicySnapshot) (site : SiteSnapshot) (now : DateTime) (m m' : Mesh) : Prop :=
  ∃ certificates targets createdAt bundle,
    compileSiteBundle (site.toSpec p.toLowercase) certificates targets
      (failoverVersion now) m.world.nextUuid createdAt = .ok bundle ∧
    m'.world.store.releases = m.world.store.releases.insert bundle.manifest.releaseId
      (failoverRelease policy site bundle ((switchedSnapshot policy site).map (·.nodeId)) now)

theorem siteFailover_done (policy : PolicySnapshot) (site : SiteSnapshot) (eventId : Uuid) (now : DateTime) (m : Mesh) :
    (siteFailover p net policy site eventId now).wp (fun _ m' => FailoverDone policy site now m m' ∧
      FailoverStored p policy site now m m') (fun _ _ => True) m := by
  have hend : ∀ (plan : Option DnsFailoverPlan) (m₁ : Mesh), FailoverDone policy site now m m₁ →
      FailoverStored p policy site now m m₁ →
      (applyPlan net plan now).wp (fun _ m₂ => (enqueuePostSwitchOperations policy eventId now).wp
        (fun _ m' => FailoverDone policy site now m m' ∧ FailoverStored p policy site now m m')
        (fun _ _ => True) m₂) (fun _ _ => True) m₁ := by
    intro plan m₁ h hstored
    refine Act.wp_mono (fun _ m₂ h₂ => ?_) (fun _ _ _ => trivial) (applyPlan_beside net m₁ plan policy eventId now)
    refine Act.wp_mono (fun _ m₃ hx => ?_) (fun _ _ _ => trivial) h₂
    refine ⟨⟨h.bound, hx.sites.trans h.sites, hx.policies.trans h.policies, hx.releases ▸ h.release,
      hx.nodes.trans h.nodes, hx.counters.trans h.counters, h.uuids.trans hx.uuids⟩, ?_⟩
    unfold FailoverStored
    rw [hx.releases]
    exact hstored
  simp only [siteFailover, saveSiteBindings, advanceFailoverPolicy, storeFailoverRelease, TxM.store, TxM.update,
    TxM.newUuid, TxM.utcNow, Act.wp_bind, Act.wp_read, Act.wp_attempt, Act.wp_ensure, Act.wp_write, Act.wp_forSome,
    Act.wp_step, implies_true, and_true]
  intro plan _ hbound
  rw [Bool.and_eq_true, List.all_eq_true] at hbound
  refine ⟨fun next hnext _ bundle hb => hend plan _ ?_ ⟨_, _, _, bundle, hb, rfl⟩,
    fun hnext _ bundle hb => hend plan _ ?_ ⟨_, _, _, bundle, hb, rfl⟩⟩
  all_goals
    have hversion : bundle.manifest.releaseVersion = failoverVersion now := by
      unfold compileSiteBundle at hb
      split at hb
      · cases hb
      · cases hb
        rfl
    refine ⟨hbound.2, ?_, ?_, ⟨_, hversion, rfl, rfl⟩, rfl, rfl, Nat.le_succ _⟩
  · exact Maps.modify_modify _ _ _ _
  · simp only [switchedSnapshot, hnext]
    rfl
  · exact Maps.modify_modify _ _ _ _
  · simp only [switchedSnapshot, hnext]
    rfl

/-- A failover that succeeds has drawn the identifier of its release. -/
theorem siteFailover_draws (policy : PolicySnapshot) (site : SiteSnapshot) (eventId : Uuid)
    (now : DateTime) (m : Mesh) :
    (siteFailover p net policy site eventId now).wp (fun _ m' => m.world.nextUuid < m'.world.nextUuid) (fun _ _ => True)
      m := by
  have hend : ∀ (plan : Option DnsFailoverPlan) (m₁ : Mesh), m₁.world.nextUuid = m.world.nextUuid + 1 →
      (applyPlan net plan now).wp (fun _ m₂ => (enqueuePostSwitchOperations policy eventId now).wp
        (fun _ m' => m.world.nextUuid < m'.world.nextUuid) (fun _ _ => True) m₂) (fun _ _ => True) m₁ := by
    intro plan m₁ h
    refine Act.wp_mono (fun _ m₂ h₂ => ?_) (fun _ _ _ => trivial) (applyPlan_beside net m₁ plan policy eventId now)
    refine Act.wp_mono (fun _ m₃ hx => ?_) (fun _ _ _ => trivial) h₂
    have huuids := hx.uuids
    rw [h] at huuids
    exact huuids
  simp only [siteFailover, saveSiteBindings, advanceFailoverPolicy, storeFailoverRelease, TxM.store, TxM.update,
    TxM.newUuid, TxM.utcNow, Act.wp_bind, Act.wp_read, Act.wp_attempt, Act.wp_ensure, Act.wp_write, Act.wp_forSome,
    Act.wp_step, implies_true, and_true]
  exact fun plan _ _ => ⟨fun _ _ _ _ _ => hend plan _ rfl, fun _ _ _ _ => hend plan _ rfl⟩

/-! ## Identifiers and operations -/

/-- Identifiers are drawn, and never given back. -/
def Mesh.Draws (m m' : Mesh) : Prop := m.world.nextUuid ≤ m'.world.nextUuid

theorem Mesh.Draws.refl (m : Mesh) : m.Draws m := Nat.le_refl _

/-- An operation that a failover has enqueued: it has a new identifier, and a template that needs no approval. -/
structure Enqueued (m m' : Mesh) (k : Uuid) (o : NodeOperationRecord) : Prop where
  operationId : o.operationId = k
  fresh : m.world.nextUuid ≤ k
  drawn : k < m'.world.nextUuid
  template : ∃ (templateId : Uuid) (t : OperationTemplateRecord),
    m.world.store.operationTemplates[templateId]? = some t ∧ t.approvalRequired = false ∧ o.templateId = t.templateId

/-- What the steps of a failover do to operations: they only enqueue new ones. -/
structure Mesh.Enqueues (m m' : Mesh) : Prop where
  draws : m.Draws m'
  templates : m'.world.store.operationTemplates = m.world.store.operationTemplates
  operations : ∀ (k : Uuid) (o : NodeOperationRecord), m'.world.store.nodeOperations[k]? = some o →
    m.world.store.nodeOperations[k]? = some o ∨ Enqueued m m' k o

section Enqueues

open Act

theorem Mesh.Enqueues.refl (m : Mesh) : m.Enqueues m := ⟨Nat.le_refl _, rfl, fun _ _ h => .inl h⟩

theorem Mesh.Enqueues.trans (m₁ m₂ m₃ : Mesh) (h : m₁.Enqueues m₂) (h' : m₂.Enqueues m₃) : m₁.Enqueues m₃ := by
  refine ⟨Nat.le_trans h.draws h'.draws, h'.templates.trans h.templates, fun k o ho => ?_⟩
  rcases h'.operations k o ho with ho | hnew
  · rcases h.operations k o ho with ho | hnew
    · exact .inl ho
    · exact .inr ⟨hnew.operationId, hnew.fresh, hnew.drawn.trans_le h'.draws, hnew.template⟩
  · exact .inr ⟨hnew.operationId, Nat.le_trans h.draws hnew.fresh, hnew.drawn, h.templates ▸ hnew.template⟩

/-- What a relation between meshes has to allow for the steps of a failover to move along it: a step leaves templates
and operations as they are, or enqueues one operation, under a new identifier, for a template that needs no approval.
-/
structure FailoverSteps (R : Mesh → Mesh → Prop) : Prop where
  refl : ∀ m, R m m
  trans : ∀ m₁ m₂ m₃, R m₁ m₂ → R m₂ m₃ → R m₁ m₃
  beside : ∀ m m' : Mesh, m.Draws m' → m'.world.store.operationTemplates = m.world.store.operationTemplates →
    m'.world.store.nodeOperations = m.world.store.nodeOperations → R m m'
  enqueue : ∀ (m m' : Mesh) (k : Uuid) (t : OperationTemplateRecord) (o : NodeOperationRecord),
    m.world.store.operationTemplates[k]? = some t → t.approvalRequired = false → o.templateId = t.templateId →
    o.operationId = m.world.nextUuid → o.execStatus = "approved" → m'.world.nextUuid = m.world.nextUuid + 1 →
    m'.world.store.operationTemplates = m.world.store.operationTemplates →
    m'.world.store.nodeOperations = m.world.store.nodeOperations.insert o.operationId o → R m m'

section Steps

variable {R : Mesh → Mesh → Prop} (hR : FailoverSteps R)

include hR

theorem update_moves {f : MemoryState → MemoryState}
    (hf : ∀ s, (f s).operationTemplates = s.operationTemplates ∧ (f s).nodeOperations = s.nodeOperations) :
    (TxM.update f).Moves R :=
  fun m => hR.beside _ _ (Nat.le_refl _) (hf m.world.store).1 (hf m.world.store).2

theorem newUuid_moves : TxM.newUuid.Moves R := fun _ => hR.beside _ _ (Nat.le_succ _) rfl rfl

theorem upsertDnsRecordSnapshot_moves (plan : DnsFailoverPlan) (existing : Option DnsRecordRow) (now : DateTime) :
    (upsertDnsRecordSnapshot plan existing now).Moves R := by
  cases existing with
  | some row => exact fun m => hR.beside _ _ (Nat.le_refl _) rfl rfl
  | none => exact moves_bind hR.trans (newUuid_moves hR) fun _ m => hR.beside _ _ (Nat.le_refl _) rfl rfl

theorem applyDnsFailover_moves (plan : DnsFailoverPlan) (now : DateTime) : (applyDnsFailover net plan now).Moves R := by
  refine moves_bind hR.trans (moves_read hR.refl _) fun existing => moves_bind hR.trans (moves_attempt hR.refl _)
    fun provider => moves_bind hR.trans ?_ fun _ => moves_bind hR.trans
      (upsertDnsRecordSnapshot_moves hR plan existing now) fun _ => moves_pure hR.refl _
  unfold changeRecord Act.choose
  split
  · exact fun m => hR.beside _ _ (Nat.le_refl _) rfl rfl
  · exact fun m => hR.beside _ _ (Nat.le_refl _) rfl rfl

omit hR in
theorem loadOperationTemplate_stored {spec : PostSwitchOperationSpec} {s : MemoryState} {t : OperationTemplateRecord}
    (h : loadOperationTemplate spec s = some t) : ∃ k : Uuid, s.operationTemplates[k]? = some t := by
  unfold loadOperationTemplate at h
  split at h
  · exact ⟨_, h⟩
  · exact Maps.mem_values.1 (List.mem_of_find?_eq_some h)
  · cases h

theorem enqueuePostSwitchOperations_moves (policy : PolicySnapshot) (eventId : Uuid) (now : DateTime) :
    (enqueuePostSwitchOperations policy eventId now).Moves R := by
  refine moves_forM hR.refl hR.trans _ fun item => moves_forSome hR.refl fun spec m => ?_
  change R m ((Act.forSome ((loadOperationTemplate spec m.world.store).filter fun t => !t.approvalRequired) _) m).2
  cases ht : (loadOperationTemplate spec m.world.store).filter fun t => !t.approvalRequired with
  | none => exact hR.refl m
  | some t =>
    obtain ⟨hload, hfree⟩ := Option.filter_eq_some_iff.1 ht
    obtain ⟨k, hk⟩ := loadOperationTemplate_stored hload
    exact hR.enqueue m _ k t _ hk (by simpa using hfree) rfl rfl rfl rfl rfl rfl

theorem siteFailover_moves (policy : PolicySnapshot) (site : SiteSnapshot) (eventId : Uuid) (now : DateTime) :
    (siteFailover p net policy site eventId now).Moves R := by
  refine moves_bind hR.trans (moves_read hR.refl _) fun _ => moves_bind hR.trans (moves_attempt hR.refl _) fun _ =>
    moves_bind hR.trans ?_ fun _ => moves_bind hR.trans ?_ fun _ => moves_bind hR.trans ?_ fun _ =>
      moves_bind hR.trans (update_moves hR fun _ => ⟨rfl, rfl⟩) fun _ => moves_bind hR.trans ?_ fun _ =>
        enqueuePostSwitchOperations_moves hR policy eventId now
  · exact moves_bind hR.trans (moves_read hR.refl _) fun _ => moves_bind hR.trans (moves_ensure hR.refl _ _) fun _ =>
      update_moves hR fun _ => ⟨rfl, rfl⟩
  · exact moves_forSome hR.refl fun _ => update_moves hR fun _ => ⟨rfl, rfl⟩
  · exact moves_bind hR.trans (moves_read hR.refl _) fun _ => moves_bind hR.trans (moves_ensure hR.refl _ _) fun _ =>
      moves_bind hR.trans (newUuid_moves hR) fun _ =>
        moves_bind hR.trans (fun m => hR.beside _ _ (Nat.le_refl _) rfl rfl) fun _ =>
          moves_bind hR.trans (moves_attempt hR.refl _) fun _ => update_moves hR fun _ => ⟨rfl, rfl⟩
  · exact moves_forSome hR.refl fun _ => applyDnsFailover_moves net hR _ now

end Steps

theorem failoverSteps_draws : FailoverSteps Mesh.Draws where
  refl m := Nat.le_refl _
  trans _ _ _ h h' := Nat.le_trans h h'
  beside _ _ h _ _ := h
  enqueue m m' _ _ _ _ _ _ _ _ hnext _ _ := by
    rw [Mesh.Draws, hnext]
    exact Nat.le_succ _

/-- A failover moves along what its steps move along; when it fails, only identifiers are gone. -/
theorem executeSiteFailover_moves {R : Mesh → Mesh → Prop} (hR : FailoverSteps R) (policy : PolicySnapshot)
    (site : SiteSnapshot) (eventId : Uuid) (now : DateTime) :
    (executeSiteFailover p net policy site eventId now).Moves R := by
  intro m
  have h := siteFailover_moves p net hR policy site eventId now m
  have hdraws := siteFailover_moves p net failoverSteps_draws policy site eventId now m
  unfold executeSiteFailover Act.atomically
  rcases hrun : siteFailover p net policy site eventId now m with ⟨e | _, m'⟩
  · rw [hrun] at hdraws
    exact hR.beside _ _ hdraws rfl rfl
  · rw [hrun] at h
    exact h

theorem failoverSteps_enqueues : FailoverSteps Mesh.Enqueues where
  refl := .refl
  trans := .trans
  beside m m' hdraws htemplates hops := by
    refine ⟨hdraws, htemplates, fun k o ho => .inl ?_⟩
    rwa [hops] at ho
  enqueue m m' k t o ht hfree htemplate hid _ hnext htemplates hops := by
    refine ⟨?_, htemplates, fun k' o' ho' => ?_⟩
    · rw [Mesh.Draws, hnext]
      exact Nat.le_succ _
    · rw [hops] at ho'
      rcases Maps.getElem?_insert_eq_some ho' with ⟨rfl, rfl⟩ | ⟨-, ho⟩
      · refine .inr ⟨rfl, Nat.le_of_eq hid.symm, ?_, k, t, ht, hfree, htemplate⟩
        rw [hid, hnext]
        exact Nat.lt_succ_self _
      · exact .inl ho

/-- A failover only enqueues operations, and none when it fails. -/
theorem executeSiteFailover_enqueues (policy : PolicySnapshot) (site : SiteSnapshot) (eventId : Uuid) (now : DateTime) :
    (executeSiteFailover p net policy site eventId now).Moves Mesh.Enqueues :=
  executeSiteFailover_moves p net failoverSteps_enqueues policy site eventId now

end Enqueues

/-- A failover that succeeds is done and has stored its release; one that fails has rolled the tables back. -/
theorem executeSiteFailover_stored (policy : PolicySnapshot) (site : SiteSnapshot) (eventId : Uuid) (now : DateTime)
    (m : Mesh) :
    (executeSiteFailover p net policy site eventId now).wp (fun _ m' => FailoverDone policy site now m m' ∧
      FailoverStored p policy site now m m') (fun _ m' => ∃ m'', m.Draws m'' ∧ m' = m.rollback m'') m := by
  have hdone := siteFailover_done p net policy site eventId now m
  have hdraws := siteFailover_moves p net failoverSteps_draws policy site eventId now m
  refine (Act.wp_atomically _ _).2 ?_
  unfold Act.wp at hdone ⊢
  rcases hrun : siteFailover p net policy site eventId now m with ⟨e | _, m'⟩
  · rw [hrun] at hdraws
    exact ⟨m', hdraws, rfl⟩
  · rw [hrun] at hdone
    exact hdone

/-- A failover that succeeds has drawn the identifier of its release. -/
theorem executeSiteFailover_draws (policy : PolicySnapshot) (site : SiteSnapshot) (eventId : Uuid) (now : DateTime)
    (m : Mesh) :
    (executeSiteFailover p net policy site eventId now).wp (fun _ m' => m.world.nextUuid < m'.world.nextUuid)
      (fun _ _ => True) m :=
  (Act.wp_atomically _ _).2 (siteFailover_draws p net policy site eventId now m)

/-- A failover that succeeds is done; one that fails has rolled the tables back. -/
theorem executeSiteFailover_done (policy : PolicySnapshot) (site : SiteSnapshot) (eventId : Uuid) (now : DateTime)
    (m : Mesh) :
    (executeSiteFailover p net policy site eventId now).wp (fun _ m' => FailoverDone policy site now m m')
      (fun _ m' => ∃ m'', m.Draws m'' ∧ m' = m.rollback m'') m :=
  Act.wp_mono (fun _ _ h => h.1) (fun _ _ h => h) (executeSiteFailover_stored p net policy site eventId now m)

/-! ## A policy that is due -/

/-- The transaction of a failover. -/
def MeshCall.Switches : MeshCall → Prop
  | .executeSiteFailover _ _ _ _ => True
  | _ => False

/-- The snapshot shows a stored site and its bindings. -/
def SiteSnapshot.ReadFrom (s : MemoryState) (siteId : Uuid) (site : SiteSnapshot) : Prop :=
  ∃ record : SiteRecord, s.sites[siteId]? = some record ∧ site.siteId = record.id ∧
    site.bindings = loadSiteBindings siteId s

section Trigger

open Fallible

variable {p net} {ok : MeshCall → Mesh → Prop} {I : Mesh → Prop} {m : Mesh}

theorem loadSiteSnapshot_rule (hquiet : ∀ c m', ¬ c.Switches → ok c m') (siteId : Uuid) :
    wp (.alone (meshHandler p net) ok I) (FailoverWorker.loadSiteSnapshot siteId)
      (fun site m' => m' = m ∧ site.ReadFrom m.world.store siteId) (fun _ m' => m' = m) m := by
  simp only [FailoverWorker.loadSiteSnapshot, query, wp_bind, wp_call_alone, wp_okOr, wp_pure]
  refine ⟨hquiet _ _ id, fun _ => ⟨fun row hrow => ⟨hquiet _ _ id, fun _ => ⟨rfl, ?_⟩⟩, fun _ => rfl⟩⟩
  obtain ⟨record, hrecord, rfl⟩ := Option.map_eq_some_iff.1 hrow
  exact ⟨record, hrecord, rfl, rfl⟩

/-- The end of a failover: the transaction and its event. -/
theorem runFailover_rule {policy : PolicySnapshot} {site : SiteSnapshot} {now : DateTime} {eventId : Uuid}
    {Q : Mesh → Prop} (hquiet : ∀ c m', ¬ c.Switches → ok c m')
    (hexec : ok (.executeSiteFailover policy site eventId now) m)
    (hsame : ∀ m', m'.world.store = m.world.store → m.Draws m' → Q m')
    (hdone : ∀ m' m'', executeSiteFailover p net policy site eventId now m = (.ok (), m') →
      m''.world = m'.world → Q m'') :
    wp (.alone (meshHandler p net) ok I) (FailoverWorker.runFailover policy site now eventId) (fun _ => Q) (fun _ => Q)
      m := by
  have hwp := executeSiteFailover_done p net policy site eventId now m
  simp only [FailoverWorker.runFailover, query, wp_bind, wp_call_alone, meshHandler]
  refine ⟨hexec, fun _ => ?_⟩
  rcases hrun : executeSiteFailover p net policy site eventId now m with ⟨e | _, m'⟩
  · obtain ⟨m'', hdraws, rfl⟩ := Act.wp_error hwp hrun
    simp only [wp_bind, wp_call_alone, wp_throw, meshHandler]
    exact ⟨hquiet _ _ id, fun _ => hsame _ rfl hdraws⟩
  · simp only [wp_bind, wp_call_alone, wp_pure, meshHandler]
    exact ⟨hquiet _ _ id, fun _ => hdone m' _ hrun rfl⟩

theorem triggerPolicyFailover_runs {policy : PolicySnapshot} {now : DateTime} {Q : Mesh → Prop}
    (hquiet : ∀ c m', ¬ c.Switches → ok c m')
    (hsame : ∀ m', m'.world.store = m.world.store → m.Draws m' → Q m')
    (hswitch : ∀ site eventId m₁, site.ReadFrom m.world.store policy.scopeId →
      currentPrimaryNodeId site.bindings ≠ some policy.standbyNodeId → m₁.world.store = m.world.store → m.Draws m₁ →
        ok (.executeSiteFailover policy site eventId now) m₁ ∧
          ∀ m' m'', executeSiteFailover p net policy site eventId now m₁ = (.ok (), m') → m''.world = m'.world → Q m'')
    (reason : String) :
    wp (.alone (meshHandler p net) ok I) (FailoverWorker.triggerPolicyFailover policy now reason) (fun _ => Q)
      (fun _ => Q) m := by
  simp only [FailoverWorker.triggerPolicyFailover, query, wp_bind, wp_call_alone]
  refine ⟨hquiet _ _ id, fun _ => ?_⟩
  split
  · exact (wp_pure _).2 (hsame m rfl (.refl m))
  · rw [wp_bind]
    refine wp_mono ?_ (fun _ m' e => by rw [e]; exact hsame m rfl (.refl m))
      (loadSiteSnapshot_rule hquiet policy.scopeId)
    rintro site _ ⟨e, hread⟩
    rw [e]
    split
    · exact (wp_pure _).2 (hsame m rfl (.refl m))
    · rename_i hcur
      simp only [wp_bind, wp_call_alone]
      refine ⟨hquiet _ _ id, fun _ => ?_⟩
      have hm₁ : m.Draws (meshHandler p net (.createFailoverEvent policy now reason) m).2 := Nat.le_succ _
      obtain ⟨hexec, hdone⟩ := hswitch site (meshHandler p net (.createFailoverEvent policy now reason) m).1
        (meshHandler p net (.createFailoverEvent policy now reason) m).2 hread hcur rfl hm₁
      exact runFailover_rule hquiet hexec (fun m' hs hd => hsame m' hs (Nat.le_trans hm₁ hd)) hdone

theorem triggerPolicyFailover_rule {policy : PolicySnapshot} {now : DateTime} {Q : Mesh → Prop}
    (hquiet : ∀ c m', ¬ c.Switches → ok c m')
    (hsame : ∀ m', m'.world.store = m.world.store → m.Draws m' → Q m')
    (hswitch : ∀ site eventId m₁, site.ReadFrom m.world.store policy.scopeId →
      currentPrimaryNodeId site.bindings ≠ some policy.standbyNodeId → m₁.world.store = m.world.store → m.Draws m₁ →
        ok (.executeSiteFailover policy site eventId now) m₁ ∧
          ∀ m' m'', FailoverDone policy site now m₁ m' → m''.world = m'.world → Q m'')
    (reason : String) :
    wp (.alone (meshHandler p net) ok I) (FailoverWorker.triggerPolicyFailover policy now reason) (fun _ => Q)
      (fun _ => Q) m := by
  refine triggerPolicyFailover_runs hquiet hsame (fun site eventId m₁ hread hcur hs hd => ?_) reason
  obtain ⟨hexec, hdone⟩ := hswitch site eventId m₁ hread hcur hs hd
  refine ⟨hexec, fun m' m'' hrun hw => hdone m' m'' ?_ hw⟩
  exact Act.wp_ok (executeSiteFailover_done p net policy site eventId now m₁) hrun

end Trigger

end PingoraMesh
