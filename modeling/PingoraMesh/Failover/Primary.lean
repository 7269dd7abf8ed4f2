import PingoraMesh.Failover.Switch
import PingoraMesh.Hub.Alone
import PingoraMesh.Hub.Bindings
import PingoraMesh.Hub.Effects

/-!
# Policies and primaries

Requests, operators and failover cycles run one after another. A failover is meant to replace the node that its policy
watches; whether it does depends on whether the policies have kept up with the bindings.

* `PolicyInv` says that each active policy of a site watches the one primary of the site;
* `InStep` is what it asks of a request: policies are written for the primary that a site has, a rebinding under a
  policy keeps the primary, a switch under a policy leaves a standby, and a cycle meets no site that has a due policy
  and another active one;
* `failover_replaces_primary`: along every run of such requests, each failover replaces the node of its policy;
* `two_policies_replace_standby`: with two policies on one site the second failover replaces a node that nobody judged.
-/

namespace PingoraMesh

open Calls Fallible HubService

/-! ## The invariant -/

/-- The policy is active for the site. -/
def FailoverPolicy.Guards (siteId : Uuid) (f : FailoverPolicy) : Prop :=
  f.scopeType = "site" ∧ f.scopeId = siteId ∧ f.status = "active"

instance (siteId : Uuid) (f : FailoverPolicy) : Decidable (f.Guards siteId) := inferInstanceAs (Decidable (_ ∧ _))

/-- The node is the primary of the bindings, and the only one. -/
def SolePrimary (n : Uuid) (bindings : List SiteBindingRecord) : Prop :=
  (∃ b ∈ bindings, b.bindingRole = "primary" ∧ b.nodeId = n) ∧ ∀ b ∈ bindings, b.bindingRole = "primary" → b.nodeId = n

instance (n : Uuid) (bindings : List SiteBindingRecord) : Decidable (SolePrimary n bindings) :=
  inferInstanceAs (Decidable (_ ∧ _))

/-- Sites are bound to nodes that exist, and an active policy of a site watches its primary. -/
structure PolicyInv (w : World) : Prop where
  siteId : ∀ (k : Uuid) (site : SiteRecord), w.store.sites[k]? = some site → site.id = k
  bound : ∀ (k : Uuid) (site : SiteRecord), w.store.sites[k]? = some site → ∀ b ∈ site.bindings,
    b.nodeId ∈ w.store.nodes
  policyId : ∀ (k : Uuid) (f : FailoverPolicy), w.store.failoverPolicies[k]? = some f → f.policyId = k
  apart : ∀ (k : Uuid) (f : FailoverPolicy), w.store.failoverPolicies[k]? = some f → f.primaryNodeId ≠ f.standbyNodeId
  old : ∀ (k : Uuid) (f : FailoverPolicy), w.store.failoverPolicies[k]? = some f → f.Guards f.scopeId →
    f.scopeId < w.nextUuid
  watches : ∀ (k : Uuid) (f : FailoverPolicy), w.store.failoverPolicies[k]? = some f → f.Guards f.scopeId →
    ∀ site : SiteRecord, w.store.sites[f.scopeId]? = some site → SolePrimary f.primaryNodeId site.bindings

theorem PolicyInv.init : PolicyInv World.init := by
  constructor
  all_goals
    intro k x h
    simp [World.init, MemoryState.empty] at h

section Invariant

variable {w w' : World}

/-- Nodes may join and identifiers may be drawn. -/
theorem PolicyInv.frame (h : PolicyInv w) (hs : w'.store.sites = w.store.sites)
    (hp : w'.store.failoverPolicies = w.store.failoverPolicies) (hn : ∀ k ∈ w.store.nodes, k ∈ w'.store.nodes)
    (hu : w.nextUuid ≤ w'.nextUuid) : PolicyInv w' where
  siteId := by rw [hs]; exact h.siteId
  bound := by rw [hs]; exact fun k site hk b hb => hn _ (h.bound k site hk b hb)
  policyId := by rw [hp]; exact h.policyId
  apart := by rw [hp]; exact h.apart
  old := by rw [hp]; exact fun k f hf hg => (h.old k f hf hg).trans_le hu
  watches := by rw [hs, hp]; exact h.watches

/-- A site is saved whose bindings suit the policies. -/
theorem PolicyInv.saveSite (h : PolicyInv w) {site : SiteRecord} (hb : ∀ b ∈ site.bindings, b.nodeId ∈ w.store.nodes)
    (hw : ∀ (k : Uuid) (f : FailoverPolicy), w.store.failoverPolicies[k]? = some f → f.Guards site.id →
      SolePrimary f.primaryNodeId site.bindings) :
    PolicyInv { w with store := w.store.saveSite site } := by
  refine { h with siteId := fun k s hk => ?_, bound := fun k s hk => ?_, watches := fun k f hf hg s hk => ?_ }
  · rcases Maps.getElem?_insert_eq_some hk with ⟨rfl, rfl⟩ | ⟨-, hk⟩
    · rfl
    · exact h.siteId k s hk
  · rcases Maps.getElem?_insert_eq_some hk with ⟨rfl, rfl⟩ | ⟨-, hk⟩
    · exact hb
    · exact h.bound k s hk
  · rcases Maps.getElem?_insert_eq_some hk with ⟨e, rfl⟩ | ⟨-, hk⟩
    · exact hw k f hf (e ▸ hg)
    · exact h.watches k f hf hg s hk

/-- A site is saved with the bindings it has. -/
theorem PolicyInv.resaveSite (h : PolicyInv w) {k : Uuid} {old site : SiteRecord} (hk : w.store.sites[k]? = some old)
    (hid : site.id = old.id) (hb : site.bindings = old.bindings) :
    PolicyInv { w with store := w.store.saveSite site } := by
  have hid : site.id = k := hid.trans (h.siteId k old hk)
  refine h.saveSite (by rw [hb]; exact h.bound k old hk) fun i f hf hg => ?_
  rw [hb]
  have hscope : f.scopeId = k := hg.2.1.trans hid
  exact h.watches i f hf (by rw [hscope, ← hid]; exact hg) old (hscope ▸ hk)

theorem PolicyInv.deleteSite (h : PolicyInv w) (siteId : Uuid) :
    PolicyInv { w with store := w.store.deleteSite siteId } := by
  cases hs : w.store.sites[siteId]? with
  | none => simpa only [MemoryState.deleteSite, hs] using h
  | some site =>
    simp only [MemoryState.deleteSite, hs]
    exact { h with
      siteId := fun k s hk => h.siteId k s (Maps.getElem?_erase_eq_some hk).2
      bound := fun k s hk => h.bound k s (Maps.getElem?_erase_eq_some hk).2
      watches := fun k f hf hg s hk => h.watches k f hf hg s (Maps.getElem?_erase_eq_some hk).2 }

/-- A node that no site is bound to goes. -/
theorem PolicyInv.deleteNode (h : PolicyInv w) {nodeId : Uuid}
    (hfree : ∀ (k : Uuid) (site : SiteRecord), w.store.sites[k]? = some site → ∀ b ∈ site.bindings, b.nodeId ≠ nodeId) :
    PolicyInv { w with store := w.store.deleteNode nodeId } := by
  cases hn : w.store.nodes[nodeId]? with
  | none => simpa only [MemoryState.deleteNode, hn] using h
  | some node =>
    simp only [MemoryState.deleteNode, hn]
    have hcase : ∀ (k : Uuid) (s : SiteRecord), (w.store.sites.map fun _ (site : SiteRecord) =>
        { site with bindings := site.bindings.filter (·.nodeId != nodeId) })[k]? = some s →
        w.store.sites[k]? = some s := by
      intro k s hk
      obtain ⟨s₀, hs₀, rfl⟩ := Maps.getElem?_map_eq_some hk
      have hb : s₀.bindings.filter (·.nodeId != nodeId) = s₀.bindings :=
        List.filter_eq_self.2 fun b hb => bne_iff_ne.2 (hfree k s₀ hs₀ b hb)
      rw [hb]
      exact hs₀
    refine { h with
      siteId := fun k s hk => h.siteId k s (hcase k s hk)
      bound := fun k s hk b hb => ?_
      watches := fun k f hf hg s hk => h.watches k f hf hg s (hcase _ s hk) }
    rw [Std.ExtTreeMap.mem_erase]
    have hs := hcase k s hk
    refine ⟨fun e => hfree k s hs b hb ?_, h.bound k s hs b hb⟩
    rw [Std.compare_eq_iff_eq] at e
    exact e.symm

/-- A site is saved with a new primary, and its policies turn to it. -/
theorem PolicyInv.switchPrimary (h : PolicyInv w) {siteId : Uuid} {site : SiteRecord} {primary standby : Uuid}
    (hid : site.id = siteId) (hb : ∀ b ∈ site.bindings, b.nodeId ∈ w.store.nodes)
      (hp : SolePrimary primary site.bindings)
    (hne : primary ≠ standby) :
    PolicyInv { w with
      store := (w.store.saveSite site).updateActiveFailoverPolicyTargets siteId primary standby } := by
  subst hid
  refine ⟨fun k s hk => ?_, fun k s hk => ?_, fun k f hf => ?_, fun k f hf => ?_, fun k f hf => ?_, fun k f hf => ?_⟩
  · rcases Maps.getElem?_insert_eq_some hk with ⟨rfl, rfl⟩ | ⟨-, hk⟩
    · rfl
    · exact h.siteId k s hk
  · rcases Maps.getElem?_insert_eq_some hk with ⟨rfl, rfl⟩ | ⟨-, hk⟩
    · exact hb
    · exact h.bound k s hk
  all_goals
    obtain ⟨f₀, hf₀, rfl⟩ := Maps.getElem?_map_eq_some hf
    split
  · exact h.policyId k f₀ hf₀
  · exact h.policyId k f₀ hf₀
  · exact hne
  · exact h.apart k f₀ hf₀
  · exact h.old k f₀ hf₀
  · exact h.old k f₀ hf₀
  · rename_i hg
    intro _ s hs
    rcases Maps.getElem?_insert_eq_some hs with ⟨-, rfl⟩ | ⟨e, -⟩
    · exact hp
    · exact absurd hg.2.1 e
  · rename_i hg
    intro hg' s hs
    rcases Maps.getElem?_insert_eq_some hs with ⟨e, -⟩ | ⟨-, hs⟩
    · exact absurd (e ▸ hg') hg
    · exact h.watches k f₀ hf₀ hg' s hs

/-- A call that touches no sites and no policies. -/
theorem PolicyInv.call (p : Platform) (h : PolicyInv w) {c : HubCall}
    (hc : ∀ e ∈ c.effect, e ∉ [Effect.saveSite, .deleteSite, .deleteNode, .policies]) :
    PolicyInv (hubHandler p c w).2 := by
  refine h.frame (sites_of_effect fun e he hm => hc e he ?_) (policies_of_effect fun e => ?_)
    (fun k hk => nodes_of_effect (fun e => ?_) hk) nextUuid_le
  · simp only [List.mem_cons, List.not_mem_nil, or_false] at hm ⊢
    tauto
  · exact hc _ e (by simp)
  · exact hc _ e (by simp)

end Invariant

/-! ## Bindings -/

theorem mem_renumberBindings {n : Int} {bs : List SiteBindingRecord} {b : SiteBindingRecord}
    (h : b ∈ renumberBindings n bs) : b.bindingRole ≠ "primary" ∧ ∃ b' ∈ bs, b.nodeId = b'.nodeId := by
  induction bs generalizing n with
  | nil => cases h
  | cons b₀ bs ih =>
    rcases List.mem_cons.1 h with rfl | h
    · refine ⟨?_, b₀, List.mem_cons_self, rfl⟩
      dsimp only
      split
      · decide
      · assumption
    · obtain ⟨hr, b', hb', e⟩ := ih h
      exact ⟨hr, b', List.mem_cons_of_mem _ hb', e⟩

/-- After a switch the target is bound as the primary; nodes of before are bound as something else. -/
theorem mem_switchedBindings {bindings : List SiteBindingRecord} {target : Uuid} {previous : Option Uuid} {keep : Bool}
    {b : SiteBindingRecord} (hb : b ∈ switchedBindings bindings target previous keep) :
    b.nodeId = target ∨
      b.bindingRole ≠ "primary" ∧ (b.nodeId ∈ previous ∨ ∃ b' ∈ bindings, b.nodeId = b'.nodeId) := by
  unfold switchedBindings at hb
  dsimp only at hb
  rw [List.cons_append, List.mem_cons, List.mem_append] at hb
  rcases hb with rfl | hb | hb
  · exact .inl rfl
  · refine .inr ?_
    cases previous with
    | none => cases hb
    | some node =>
      dsimp only at hb
      split at hb
      · rw [List.mem_singleton] at hb
        subst hb
        exact ⟨by simp, .inl rfl⟩
      · cases hb
  · obtain ⟨hr, b', hb', e⟩ := mem_renumberBindings hb
    exact .inr ⟨hr, .inr ⟨b', List.perm_insertionSort _ _ |>.mem_iff.1 (List.mem_filter.1 hb').1, e⟩⟩

theorem solePrimary_switchedBindings (bindings : List SiteBindingRecord) (target : Uuid) (previous : Option Uuid)
    (keep : Bool) : SolePrimary target (switchedBindings bindings target previous keep) := by
  refine ⟨⟨_, List.mem_cons_self, rfl, rfl⟩, fun b hb hr => ?_⟩
  rcases mem_switchedBindings hb with h | ⟨h, -⟩
  · exact h
  · exact absurd hr h

/-- The standby that policies turn to is not the primary. -/
theorem selectNextFailoverPolicyStandby_ne {bindings : List SiteBindingRecord} {primary next : Uuid}
    (h : selectNextFailoverPolicyStandby bindings primary = some next) : next ≠ primary := by
  obtain ⟨b, hb, rfl⟩ := Option.map_eq_some_iff.1 h
  have := (List.mem_filter.1 (mem_of_minByKey hb)).2
  rw [Bool.and_eq_true, bne_iff_ne] at this
  exact this.1

/-- Bindings that pass the checks have one primary. -/
theorem solePrimary_normalizeSiteBindings {raw : List SiteBindingItem} {bindings : List SiteBindingRecord}
    (h : normalizeSiteBindings raw = .ok bindings) : ∃ n, SolePrimary n bindings := by
  unfold normalizeSiteBindings at h
  split at h
  · cases h
  · obtain ⟨items, -, h⟩ := bind_eq_ok.1 h
    split at h
    · cases h
    · rename_i hone
      cases h
      obtain ⟨b, hb⟩ := List.length_eq_one_iff.1 (not_ne_iff.1 hone)
      have hmem : ∀ b' : SiteBindingRecord, b' ∈ items ∧ b'.bindingRole = "primary" ↔ b' = b := by
        intro b'
        rw [← List.mem_singleton (a := b'), ← hb, List.mem_filter, beq_iff_eq]
      have hperm := fun b' : SiteBindingRecord =>
        (List.perm_insertionSort (fun l r : SiteBindingRecord => l.priority ≤ r.priority) items).mem_iff (a := b')
      refine ⟨b.nodeId, ⟨b, (hperm b).2 ((hmem b).2 rfl).1, ((hmem b).2 rfl).2, rfl⟩, fun b' hb' hr => ?_⟩
      rw [(hmem b').1 ⟨(hperm b').1 hb', hr⟩]

/-! ## Requests -/

/-- A rebinding that is accepted keeps the primary of the policies of the site. -/
def KeepsPrimary (s : MemoryState) (siteId : Uuid) (raw : List SiteBindingItem) : Prop :=
  ∀ bindings ∈ (normalizeSiteBindings raw).toOption, (∀ b ∈ bindings, b.nodeId ∈ s.nodes) → siteId ∈ s.sites →
    ∀ f ∈ s.failoverPolicies.values, f.Guards siteId →
      ∀ b ∈ bindings, b.bindingRole = "primary" → b.nodeId = f.primaryNodeId

instance (s : MemoryState) (siteId : Uuid) (raw : List SiteBindingItem) : Decidable (KeepsPrimary s siteId raw) :=
  inferInstanceAs (Decidable (∀ _ ∈ _, _))

/-- A switch that is accepted leaves a standby to the policies of the site. -/
def LeavesStandby (s : MemoryState) (siteId : Uuid) (request : SwitchSitePrimaryRequest) : Prop :=
  ∀ site ∈ s.sites[siteId]?,
    ∀ target ∈ (request.targetNodeId <|> switchTarget site.bindings ((primarySiteBinding site).map (·.nodeId))),
      (target ∈ request.targetNodeId → target ∈ s.nodes) →
      (primarySiteBinding site).map (·.nodeId) ≠ some target →
      (∃ f ∈ s.failoverPolicies.values, f.Guards siteId) →
        (selectNextFailoverPolicyStandby (switchedBindings site.bindings target
          ((primarySiteBinding site).map (·.nodeId)) (request.keepPreviousAsStandby.getD true)) target).isSome

/-- A policy is written for a site that has been named, and watches its primary. -/
def NamesPrimary (w : World) (f : FailoverPolicy) : Prop :=
  f.Guards f.scopeId →
    f.scopeId < w.nextUuid ∧ ∀ site ∈ w.store.sites[f.scopeId]?, SolePrimary f.primaryNodeId site.bindings

instance (w : World) (f : FailoverPolicy) : Decidable (NamesPrimary w f) := inferInstanceAs (Decidable (_ → _))

/-- No site has a due policy and another active one. -/
def StandAlone (p : Platform) (w : World) (expectedHeartbeatSeconds : Nat) : Prop :=
  ∀ f ∈ loadActivePolicies w.store, (evaluatePolicy f (p.clock w.tick) expectedHeartbeatSeconds).isSome →
    ∀ g ∈ w.store.failoverPolicies.values, g.Guards f.scopeId → g.policyId = f.policyId

instance (p : Platform) (w : World) (n : Nat) : Decidable (StandAlone p w n) := inferInstanceAs (Decidable (∀ _ ∈ _, _))

/-- What is asked of a request for the policies to keep up with the bindings. -/
def InStep (p : Platform) (m : Mesh) : MeshRequest → Prop
  | .hub _ (.bindSiteNodes siteId raw) => KeepsPrimary m.world.store siteId raw
  | .hub _ (.switchSitePrimary siteId request) => LeavesStandby m.world.store siteId request
  | .savePolicy f => NamesPrimary m.world f
  | .failoverCycle expectedHeartbeatSeconds => StandAlone p m.world expectedHeartbeatSeconds
  | _ => True

section Requests

variable {p : Platform} {hub : Nat} {w : World}

/-- The invariant, and the sites are those of `w`. -/
def KeepsSites (w w' : World) : Prop := PolicyInv w' ∧ w'.store.sites = w.store.sites

theorem KeepsSites.call {c : HubCall} (w' : World) (hc : c.Within [.serial, .saveRelease]) (h : KeepsSites w w') :
    KeepsSites w (hubHandler p c w').2 := by
  unfold HubCall.Within at hc
  have hne : ∀ e ∈ c.effect, e ∈ [Effect.serial, .saveRelease] := by
    intro e he
    rw [Option.mem_def.1 he] at hc
    exact hc
  refine ⟨h.1.call p fun e he => ?_, (sites_of_effect fun e he => ?_).trans h.2⟩
  all_goals
    have := hne e he
    simp only [List.mem_cons, List.not_mem_nil, or_false] at this ⊢
    rcases this with rfl | rfl <;> decide

theorem createRelease_inStep (h : PolicyInv w) (request : CreateReleaseRequest) :
    wp (aloneSpec p) (createRelease p hub request) (fun _ => PolicyInv) (fun _ => PolicyInv) w := by
  simp only [createRelease, detachedNodeIdsForSite, repo, wp_bind, wp_ensure, wp_okOr, wp_call_alone, wp_pure,
    hubHandler, World.read, World.write, true_and, forall_const]
  refine ⟨fun _ => ⟨fun site hsite => ⟨fun _ => ?_, fun _ => h⟩, fun _ => h⟩, fun _ => h⟩
  refine wp_mono (fun r₁ w₁ h₁ => ?_) (fun _ _ h => h.1) (only_alone (safe_onlyIf (saveSiteRelease_only p hub
    List.mem_cons_self (List.mem_cons_of_mem _ List.mem_cons_self) site _ _)) (fun c => KeepsSites.call) ⟨h, rfl⟩)
  refine wp_mono (fun r₂ w₂ h₂ => ?_) (fun _ _ h => h.1) (only_alone (safe_onlyIf (saveSiteCleanupRelease_only p hub
    List.mem_cons_self (List.mem_cons_of_mem _ List.mem_cons_self) site _ _)) (fun c => KeepsSites.call) h₁)
  rw [← h₂.2] at hsite
  have hres : PolicyInv { w₂ with store := w₂.store.saveSite { site with
      status := if r₁.isSome then .published else .draft } } := h₂.1.resaveSite hsite rfl rfl
  exact ⟨fun _ _ => hres, fun _ => hres⟩

theorem updateSiteStatus_inStep (h : PolicyInv w) (siteId : Uuid) (enabled : Bool) :
    wp (aloneSpec p) (updateSiteStatus p hub siteId enabled) (fun _ => PolicyInv) (fun _ => PolicyInv) w := by
  simp only [updateSiteStatus, repo, wp_bind, wp_okOr, wp_call_alone, wp_pure, hubHandler, World.read, World.write,
    true_and, forall_const]
  refine ⟨fun old hold => ?_, fun _ => h⟩
  have hsaved : PolicyInv { w with store := w.store.saveSite { old with
      status := switchedStatus enabled old.bindings, version := old.version + 1 } } := h.resaveSite hold rfl rfl
  exact wp_mono (fun _ _ h => h.1) (fun _ _ h => h.1) (only_alone (safe_onlyIf (saveSiteRelease_only p hub
    List.mem_cons_self (List.mem_cons_of_mem _ List.mem_cons_self) _ _ _)) (fun c => KeepsSites.call) ⟨hsaved, rfl⟩)

theorem deleteSite_inStep (h : PolicyInv w) (siteId : Uuid) :
    wp (aloneSpec p) (HubService.deleteSite p hub siteId) (fun _ => PolicyInv) (fun _ => PolicyInv) w := by
  simp only [HubService.deleteSite, repo, wp_bind, wp_okOr, wp_call_alone, wp_pure, hubHandler, World.read, World.write,
    true_and, forall_const]
  refine ⟨fun site _ => ?_, fun _ => h⟩
  exact wp_mono (fun _ _ h => h.1.deleteSite siteId) (fun _ _ h => h.1) (only_alone (safe_onlyIf
    (saveSiteCleanupRelease_only p hub List.mem_cons_self (List.mem_cons_of_mem _ List.mem_cons_self) site _ _))
    (fun c => KeepsSites.call) ⟨h, rfl⟩)

theorem updateSite_inStep (h : PolicyInv w) (siteId : Uuid) (request : UpdateSiteRequest) :
    wp (aloneSpec p) (updateSite siteId request) (fun _ => PolicyInv) (fun _ => PolicyInv) w := by
  simp only [updateSite, repo, wp_bind, wp_attempt, wp_okOr, wp_call_alone, wp_pure, hubHandler,
    World.read, World.write, true_and, forall_const]
  refine ⟨fun protocol _ => ⟨fun _ _ => ⟨fun old hold => h.resaveSite hold rfl rfl, fun _ => h⟩, fun _ _ => h⟩,
    fun _ _ => h⟩

theorem createSite_inStep (h : PolicyInv w) (request : CreateSiteRequest) :
    wp (aloneSpec p) (createSite request) (fun _ => PolicyInv) (fun _ => PolicyInv) w := by
  have hread : ∀ (c : HubCall) (w : World), c.Within [] → PolicyInv w → PolicyInv (hubHandler p c w).2 := by
    intro c w hc h
    refine h.call p fun e he => ?_
    unfold HubCall.Within at hc
    rw [Option.mem_def.1 he] at hc
    cases hc
  simp only [createSite, repo, wp_bind, wp_ensure, wp_attempt, wp_call_alone, wp_pure, hubHandler, World.write,
    true_and, forall_const]
  refine ⟨fun _ => ⟨fun _ _ => ⟨fun protocol _ => ?_, fun _ _ => h⟩, fun _ _ => h⟩, fun _ => h⟩
  refine wp_mono (fun code w₁ h₁ => ?_) (fun _ _ h => h) (only_alone (generateUniqueSiteCode_only _ _ _) hread h)
  -- the identifier is new: no policy can be for this site
  refine PolicyInv.saveSite (h₁.call p (c := .newUuid) (by simp [HubCall.effect])) (fun b hb => by cases hb)
    fun k f hf hg => ?_
  have := h₁.old k f hf (by rw [hg.2.1]; exact hg)
  rw [hg.2.1] at this
  exact absurd this (Nat.lt_irrefl _)

theorem bindSiteNodes_inStep (h : PolicyInv w) (siteId : Uuid) (raw : List SiteBindingItem)
    (hstep : KeepsPrimary w.store siteId raw) :
    wp (aloneSpec p) (bindSiteNodes siteId raw) (fun _ => PolicyInv) (fun _ => PolicyInv) w := by
  simp only [bindSiteNodes, wp_bind, wp_attempt]
  refine ⟨fun bindings hbindings => ?_, fun _ _ => h⟩
  have hprimary : (∀ b ∈ bindings, b.nodeId ∈ w.store.nodes) → siteId ∈ w.store.sites → ∀ (k : Uuid)
      (f : FailoverPolicy), w.store.failoverPolicies[k]? = some f → f.Guards siteId →
      SolePrimary f.primaryNodeId bindings := by
    intro hnodes hsite k f hf hg
    have hsole := hstep bindings (by rw [hbindings]; rfl) hnodes hsite f (Maps.mem_values.2 ⟨k, hf⟩) hg
    obtain ⟨n, ⟨b, hb, hr, rfl⟩, -⟩ := solePrimary_normalizeSiteBindings hbindings
    exact ⟨⟨b, hb, hr, hsole b hb hr⟩, hsole⟩
  refine wp_mono ?_ (fun _ _ h => h) (wp_forM_check (P := fun b => b.nodeId ∈ w.store.nodes) _ bindings fun b _ => ?_)
  · rintro _ _ ⟨rfl, hnodes⟩
    simp only [repo, wp_okOr, wp_call_alone, wp_pure, hubHandler, World.read, World.write, true_and, forall_const]
    refine ⟨fun old hold => h.saveSite hnodes fun k f hf hg => hprimary hnodes ?_ k f hf ?_, fun _ => h⟩
    · rw [Std.ExtTreeMap.mem_iff_isSome_getElem?, hold]
      rfl
    · rwa [← h.siteId siteId old hold]
  · simp only [repo, wp_bind, wp_call_alone, wp_ensure, hubHandler, World.read, true_and, forall_const]
    exact ⟨fun hnode => Std.ExtTreeMap.mem_iff_isSome_getElem?.2 hnode, fun _ => h⟩

theorem deleteNode_inStep (h : PolicyInv w) (nodeId : Uuid) :
    wp (aloneSpec p) (HubService.deleteNode nodeId) (fun _ => PolicyInv) (fun _ => PolicyInv) w := by
  simp only [HubService.deleteNode, repo, wp_bind, wp_ensure, wp_okOr, wp_call_alone, wp_pure, hubHandler, World.read,
    World.write, true_and, forall_const]
  refine ⟨fun node _ => ⟨fun hguard => ⟨fun _ => ?_, fun _ => h⟩, fun _ => h⟩, fun _ => h⟩
  exact PolicyInv.deleteNode (h.call p (c := .revokeTokens nodeId) (by simp [HubCall.effect])) (unbound_of_guard hguard)

theorem switchSitePrimary_inStep (h : PolicyInv w) (siteId : Uuid) (request : SwitchSitePrimaryRequest)
    (hstep : LeavesStandby w.store siteId request) :
    wp (aloneSpec p) (switchSitePrimary p hub siteId request) (fun _ => PolicyInv) (fun _ => PolicyInv) w := by
  simp only [switchSitePrimary, repo, wp_bind, wp_okOr, wp_ensure, wp_call_alone, wp_pure, wp_forSome, hubHandler,
    World.read, World.write, true_and, forall_const]
  refine ⟨fun old hold => ⟨fun _ => chooseSwitchTarget_rule (fun _ _ _ => trivial) (fun target htarget hnode =>
    ⟨fun hcurrent => ?_, fun _ => h⟩) fun _ => h, fun _ => h⟩, fun _ => h⟩
  have hid := h.siteId siteId old hold
  have hstep := hstep old hold target htarget hnode (bne_iff_ne.1 hcurrent)
  have hbound : ∀ b ∈ switchedBindings old.bindings target ((primarySiteBinding old).map (·.nodeId))
      (request.keepPreviousAsStandby.getD true), b.nodeId ∈ w.store.nodes := by
    intro b hb
    rcases mem_switchedBindings hb with e | ⟨-, hprev | ⟨b', hb', e⟩⟩
    · rw [e]
      rcases (Option.orElse_eq_some _ _ _).1 htarget with ht | ⟨-, ht⟩
      · exact hnode ht
      · obtain ⟨b', hb', rfl⟩ := mem_of_switchTarget ht
        exact h.bound siteId old hold b' hb'
    · obtain ⟨b', hb', e⟩ := mem_of_primarySiteBinding hprev
      rw [e]
      exact h.bound siteId old hold b' hb'
    · rw [e]
      exact h.bound siteId old hold b' hb'
  constructor
  · intro next hnext
    have := @PolicyInv.switchPrimary _ h siteId { old with
      bindings := switchedBindings old.bindings target ((primarySiteBinding old).map (·.nodeId))
        (request.keepPreviousAsStandby.getD true)
      status := .draft, version := old.version + 1 } _ _ hid hbound (solePrimary_switchedBindings _ _ _ _)
      (selectNextFailoverPolicyStandby_ne hnext).symm
    exact createRelease_inStep this _
  · intro hnext
    refine createRelease_inStep (h.saveSite hbound fun k f hf hg => ?_) _
    have := hstep ⟨f, Maps.mem_values.2 ⟨k, hf⟩, hid ▸ hg⟩
    rw [hnext] at this
    cases this

/-- A request of the hub that is in step keeps the invariant. -/
theorem PolicyInv.serve {m : Mesh} (h : PolicyInv m.world) {hub : Hub} {r : Request}
    (hstep : InStep p m (.hub hub r)) : PolicyInv (m.world.serve p hub r) := by
  refine serve_of_wp ?_
  by_cases he : ∀ e ∈ r.effects, e ∉ [Effect.saveSite, .deleteSite, .deleteNode, .policies]
  · refine only_alone (program_only p hub r) (fun c w hc h => h.call p fun e hce => he e ?_) h
    unfold HubCall.Within at hc
    rw [Option.mem_def.1 hce] at hc
    exact hc
  · cases r with
    | createSite request => exact (wp_discard _).2 (createSite_inStep h request)
    | updateSite siteId request => exact (wp_discard _).2 (updateSite_inStep h siteId request)
    | updateSiteStatus siteId enabled => exact (wp_discard _).2 (updateSiteStatus_inStep h siteId enabled)
    | deleteSite siteId => exact (wp_discard _).2 (deleteSite_inStep h siteId)
    | bindSiteNodes siteId raw => exact (wp_discard _).2 (bindSiteNodes_inStep h siteId raw hstep)
    | switchSitePrimary siteId request => exact (wp_discard _).2 (switchSitePrimary_inStep h siteId request hstep)
    | createRelease request => exact (wp_discard _).2 (createRelease_inStep h request)
    | deleteNode nodeId => exact (wp_discard _).2 (deleteNode_inStep h nodeId)
    | _ => exact absurd (by simp [Request.effects]) he

end Requests

/-! ## A failover -/

theorem SolePrimary.perm {n : Uuid} {bs bs' : List SiteBindingRecord} (h : SolePrimary n bs) (hp : bs'.Perm bs) :
    SolePrimary n bs' := by
  obtain ⟨⟨b, hb, hr, hn⟩, hall⟩ := h
  exact ⟨⟨b, hp.mem_iff.2 hb, hr, hn⟩, fun b hb => hall b (hp.mem_iff.1 hb)⟩

/-- A binding that the worker reads is one of the site. -/
theorem mem_loadSiteBindings {s : MemoryState} {siteId : Uuid} {b : SiteBindingSnapshot}
    (h : b ∈ loadSiteBindings siteId s) : ∃ site, s.sites[siteId]? = some site ∧ b.toRecord ∈ site.bindings := by
  unfold loadSiteBindings at h
  cases hs : s.sites[siteId]? with
  | none =>
    rw [hs] at h
    cases h
  | some site =>
    simp only [hs, List.mem_insertionSort, List.mem_filterMap] at h
    obtain ⟨record, hrecord, hb⟩ := h
    obtain ⟨node, -, rfl⟩ := Option.map_eq_some_iff.1 hb
    exact ⟨site, rfl, hrecord⟩

/-- The worker reads the bindings of a site as they are. -/
theorem map_toRecord_loadSiteBindings {s : MemoryState} {siteId : Uuid} {site : SiteRecord}
    (hs : s.sites[siteId]? = some site) (hb : ∀ b ∈ site.bindings, b.nodeId ∈ s.nodes) :
    ((loadSiteBindings siteId s).map (·.toRecord)).Perm site.bindings := by
  have hmap : ∀ bs : List SiteBindingRecord, (∀ b ∈ bs, b.nodeId ∈ s.nodes) →
      (bs.filterMap (bindingSnapshot s)).map (·.toRecord) = bs := by
    intro bs hbs
    induction bs with
    | nil => rfl
    | cons b bs ih =>
      obtain ⟨node, hnode⟩ := Option.isSome_iff_exists.1
        (Std.ExtTreeMap.mem_iff_isSome_getElem?.1 (hbs b List.mem_cons_self))
      have hsnap : bindingSnapshot s b = some ⟨b.nodeId, node.identity.nodeCode, nodeStatusName node.identity.status,
          b.bindingRole, b.priority⟩ := by rw [bindingSnapshot, hnode]; rfl
      rw [List.filterMap_cons_some hsnap, List.map_cons, ih fun b hb => hbs b (List.mem_cons_of_mem _ hb)]
      rfl
  simp only [loadSiteBindings, hs]
  exact ((List.perm_insertionSort _ _).map _).trans (.of_eq (hmap _ hb))

/-- The one primary is the current one. -/
theorem currentPrimaryNodeId_eq {bs : List SiteBindingSnapshot} {n : Uuid} (h : SolePrimary n (bs.map (·.toRecord))) :
    currentPrimaryNodeId bs = some n := by
  obtain ⟨⟨b, hb, hr, -⟩, hall⟩ := h
  obtain ⟨x, hx, rfl⟩ := List.mem_map.1 hb
  obtain ⟨y, hy⟩ := Option.isSome_iff_exists.1 (@minByKey_isSome _ (·.priority) _ _
    (List.mem_filter.2 ⟨hx, beq_iff_eq.2 hr⟩ : x ∈ bs.filter (·.bindingRole == "primary")))
  have hmem := List.mem_filter.1 (mem_of_minByKey hy)
  rw [currentPrimaryNodeId, hy]
  exact congrArg some (hall y.toRecord (List.mem_map_of_mem hmem.1) (beq_iff_eq.1 hmem.2))

theorem nodeId_find?_getD (bs : List SiteBindingSnapshot) {n : Uuid} {d : SiteBindingSnapshot} (hd : d.nodeId = n) :
    ((bs.find? (·.nodeId == n)).getD d).nodeId = n := by
  cases hf : bs.find? (·.nodeId == n) with
  | none => exact hd
  | some b =>
    have hb := List.find?_some hf
    exact beq_iff_eq.1 hb

/-- What a failover leaves bound: the standby as the primary, the old primary as a standby, and the others as they
were. -/
theorem mem_buildSwitchedBindings {bs : List SiteBindingSnapshot} {primary standby : Uuid} {x : SiteBindingSnapshot}
    (hx : x ∈ buildSwitchedBindings bs primary standby) :
    (x ∈ bs ∧ x.nodeId ≠ primary) ∨ (x.nodeId = standby ∧ x.bindingRole = "primary") ∨ x.bindingRole = "standby" := by
  unfold buildSwitchedBindings at hx
  dsimp only at hx
  rw [(List.perm_insertionSort _ _).mem_iff, List.mem_append, List.mem_filter] at hx
  rcases hx with ⟨hx, hne⟩ | hx
  · rw [Bool.and_eq_true, bne_iff_ne] at hne
    exact .inl ⟨hx, hne.1⟩
  · rw [List.mem_cons, List.mem_singleton] at hx
    rcases hx with rfl | rfl
    · exact .inr (.inl ⟨nodeId_find?_getD bs rfl, rfl⟩)
    · exact .inr (.inr rfl)

theorem exists_mem_buildSwitchedBindings (bs : List SiteBindingSnapshot) (primary standby : Uuid) :
    (∃ x ∈ buildSwitchedBindings bs primary standby, x.nodeId = standby ∧ x.bindingRole = "primary") ∧
      ∃ x ∈ buildSwitchedBindings bs primary standby, x.nodeId = primary ∧ x.bindingRole = "standby" := by
  unfold buildSwitchedBindings
  dsimp only
  constructor
  · refine ⟨_, (List.perm_insertionSort _ _).mem_iff.2 (List.mem_append_right _ List.mem_cons_self), ?_, rfl⟩
    exact nodeId_find?_getD bs rfl
  · refine ⟨_, (List.perm_insertionSort _ _).mem_iff.2
      (List.mem_append_right _ (List.mem_cons_of_mem _ List.mem_cons_self)), ?_, rfl⟩
    exact nodeId_find?_getD bs rfl

/-- After a failover that replaces the one primary, the standby is the one primary. -/
theorem solePrimary_buildSwitchedBindings {bs : List SiteBindingSnapshot} {primary standby : Uuid}
    (h : SolePrimary primary (bs.map (·.toRecord))) :
    SolePrimary standby ((buildSwitchedBindings bs primary standby).map (·.toRecord)) := by
  obtain ⟨x, hx, hn, hr⟩ := (exists_mem_buildSwitchedBindings bs primary standby).1
  refine ⟨⟨x.toRecord, List.mem_map_of_mem hx, hr, hn⟩, fun b hb hr => ?_⟩
  obtain ⟨y, hy, rfl⟩ := List.mem_map.1 hb
  rcases mem_buildSwitchedBindings hy with ⟨hy, hne⟩ | ⟨hn, -⟩ | hs
  · exact absurd (h.2 y.toRecord (List.mem_map_of_mem hy) hr) hne
  · exact hn
  · exact absurd (hs.symm.trans hr) (by decide)

/-- The old primary is there to be the next standby. -/
theorem selectNextPolicyStandby_buildSwitchedBindings {bs : List SiteBindingSnapshot} {primary standby : Uuid}
    (hne : primary ≠ standby) : ∃ next,
    selectNextPolicyStandby (buildSwitchedBindings bs primary standby) standby = some next ∧ next ≠ standby := by
  obtain ⟨x, hx, hn, hr⟩ := (exists_mem_buildSwitchedBindings bs primary standby).2
  have hx : x ∈ (buildSwitchedBindings bs primary standby).filter fun b =>
      b.nodeId != standby && b.bindingRole == "standby" :=
    List.mem_filter.2 ⟨hx, Bool.and_eq_true_iff.2 ⟨bne_iff_ne.2 (hn ▸ hne), beq_iff_eq.2 hr⟩⟩
  obtain ⟨y, hy⟩ := Option.isSome_iff_exists.1 (@minBy_isSome _ standbyOrd _ _ hx)
  have hmem := (List.mem_filter.1 (mem_of_minBy hy)).2
  rw [Bool.and_eq_true, bne_iff_ne] at hmem
  exact ⟨y.nodeId, by rw [selectNextPolicyStandby, hy]; rfl, hmem.1⟩

/-! ## A cycle -/

/-- The snapshot is that of a stored policy, and no other policy is active for its site. -/
structure Current (policies : HashMap Uuid FailoverPolicy) (policy : PolicySnapshot) : Prop where
  row : ∃ f : FailoverPolicy, policies[policy.policyId]? = some f ∧ f.Guards policy.scopeId ∧
    f.primaryNodeId = policy.primaryNodeId ∧ f.standbyNodeId = policy.standbyNodeId
  only : ∀ (k : Uuid) (g : FailoverPolicy), policies[k]? = some g → g.Guards policy.scopeId → k = policy.policyId

/-- A switch replaces the node that the policy watches. -/
def Replaces (p : Platform) (net : Nat → Delivery) (m : Mesh) : MeshCall → Prop
  | .executeSiteFailover policy site eventId now =>
    (executeSiteFailover p net policy site eventId now m).1 = .ok () →
      currentPrimaryNodeId (loadSiteBindings site.siteId m.world.store) = some policy.primaryNodeId
  | _ => True

instance (p : Platform) (net : Nat → Delivery) (m : Mesh) : (c : MeshCall) → Decidable (Replaces p net m c)
  | .executeSiteFailover policy site eventId now => inferInstanceAs (Decidable
    ((executeSiteFailover p net policy site eventId now m).1 = .ok () →
      currentPrimaryNodeId (loadSiteBindings site.siteId m.world.store) = some policy.primaryNodeId))
  | .hub _ | .savePolicy _ | .loadActivePolicies | .hasOpenFailoverEvent _ | .loadSiteRow _ | .loadSiteBindings _
  | .createFailoverEvent _ _ _ | .finishFailoverEvent _ _ _ => inferInstanceAs (Decidable True)

/-- The handling of a policy keeps the invariant and leaves the other policies as they are. -/
def Carries (policy : PolicySnapshot) (m m' : Mesh) : Prop :=
  PolicyInv m'.world ∧ ∀ other : PolicySnapshot, other.policyId ≠ policy.policyId →
    Current m.world.store.failoverPolicies other → Current m'.world.store.failoverPolicies other

section Cycle

variable {p : Platform} {net : Nat → Delivery} {m m' : Mesh} {policy : PolicySnapshot} {site : SiteSnapshot}
  {now : DateTime}

theorem Carries.of_store (h : PolicyInv m.world) (hs : m'.world.store = m.world.store)
    (hu : m.world.nextUuid ≤ m'.world.nextUuid) : Carries policy m m' :=
  ⟨h.frame (by rw [hs]) (by rw [hs]) (by rw [hs]; exact fun _ h => h) hu, fun _ _ hc => by rw [hs]; exact hc⟩

/-- A failover from the one primary keeps the policies of all sites in step. -/
theorem PolicyInv.failover (h : PolicyInv m.world) (hc : Current m.world.store.failoverPolicies policy)
    (hid : site.siteId = policy.scopeId) (hp : SolePrimary policy.primaryNodeId (site.bindings.map (·.toRecord)))
    (hd : FailoverDone policy site now m m') : Carries policy m m' := by
  obtain ⟨f₀, hf₀, hg₀, hprimary, hstandby⟩ := hc.row
  have hne : policy.primaryNodeId ≠ policy.standbyNodeId := by
    rw [← hprimary, ← hstandby]
    exact h.apart _ _ hf₀
  obtain ⟨next, hnext, hnne⟩ := @selectNextPolicyStandby_buildSwitchedBindings site.bindings _ _ hne
  have hpolicies := hd.policies
  rw [switchedSnapshot, hnext] at hpolicies
  have hsites := hd.sites
  have hswitched : SolePrimary policy.standbyNodeId ((switchedSnapshot policy site).map (·.toRecord)) :=
    solePrimary_buildSwitchedBindings hp
  have hrow : ∀ (k : Uuid) (f : FailoverPolicy), m'.world.store.failoverPolicies[k]? = some f →
      (k = policy.policyId ∧ f = { f₀ with primaryNodeId := policy.standbyNodeId, standbyNodeId := next }) ∨
        (k ≠ policy.policyId ∧ m.world.store.failoverPolicies[k]? = some f) := by
    intro k f hf
    rw [hpolicies] at hf
    rcases Maps.getElem?_modify_eq_some hf with ⟨rfl, u, hu, rfl⟩ | h
    · rw [hf₀] at hu
      cases hu
      exact .inl ⟨rfl, rfl⟩
    · exact .inr h
  refine ⟨⟨fun k s hk => ?_, fun k s hk => ?_, fun k f hf => ?_, fun k f hf => ?_, fun k f hf hg => ?_,
    fun k f hf hg s hk => ?_⟩, fun other hother hoc => ⟨?_, fun k g hk hg => ?_⟩⟩
  · rw [hsites] at hk
    rcases Maps.getElem?_modify_eq_some hk with ⟨rfl, u, hu, rfl⟩ | ⟨-, hk⟩
    · exact h.siteId _ u hu
    · exact h.siteId k s hk
  · rw [hsites] at hk
    rw [hd.nodes]
    rcases Maps.getElem?_modify_eq_some hk with ⟨rfl, u, hu, rfl⟩ | ⟨-, hk⟩
    · intro b hb
      obtain ⟨x, hx, rfl⟩ := List.mem_map.1 hb
      exact Std.ExtTreeMap.contains_iff_mem.1 (hd.bound x hx)
    · exact h.bound k s hk
  · rcases hrow k f hf with ⟨rfl, rfl⟩ | ⟨-, hf⟩
    · exact h.policyId _ f₀ hf₀
    · exact h.policyId k f hf
  · rcases hrow k f hf with ⟨rfl, rfl⟩ | ⟨-, hf⟩
    · exact hnne.symm
    · exact h.apart k f hf
  · refine Nat.lt_of_lt_of_le ?_ hd.uuids
    rcases hrow k f hf with ⟨rfl, rfl⟩ | ⟨-, hf⟩
    · exact h.old _ f₀ hf₀ hg
    · exact h.old k f hf hg
  · rw [hsites, hid] at hk
    rcases Maps.getElem?_modify_eq_some hk with ⟨e, u, hu, rfl⟩ | ⟨e, hk⟩ <;>
      rcases hrow k f hf with ⟨rfl, rfl⟩ | ⟨hkne, hf⟩
    · exact hswitched
    · exact absurd (hc.only k f hf (e ▸ hg)) hkne
    · exact absurd hg₀.2.1 e
    · exact h.watches k f hf hg s hk
  · obtain ⟨f, hf, hrest⟩ := hoc.row
    refine ⟨f, ?_, hrest⟩
    rw [hpolicies, Std.ExtTreeMap.getElem?_modify, if_neg]
    · exact hf
    · rw [Std.compare_eq_iff_eq]
      exact fun e => hother e.symm
  · rcases hrow k g hk with ⟨rfl, rfl⟩ | ⟨-, hk⟩
    · exact hoc.only _ f₀ hf₀ hg
    · exact hoc.only k g hk hg

/-- Running alone, where every switch replaces the node of its policy. -/
abbrev replaceSpec (p : Platform) (net : Nat → Delivery) : Spec meshSig Mesh :=
  .alone (meshHandler p net) (fun c m => Replaces p net m c) fun _ => True

/-- Whatever becomes of a due policy, a switch replaces its node. -/
theorem triggerPolicyFailover_replaces (h : PolicyInv m.world) (hc : Current m.world.store.failoverPolicies policy)
    (reason : String) :
    wp (replaceSpec p net) (FailoverWorker.triggerPolicyFailover policy now reason) (fun _ m' => Carries policy m m')
      (fun _ m' => Carries policy m m') m := by
  refine triggerPolicyFailover_rule (fun c m' hc => ?_) (fun m' hs hd => .of_store h hs hd)
    (fun site eventId m₁ hread _ hs₁ hd₁ => ?_) reason
  · cases c with
    | executeSiteFailover f x e t => exact absurd trivial hc
    | _ => trivial
  · obtain ⟨record, hrecord, hsite, hbindings⟩ := hread
    obtain ⟨f, hf, hg, hprimary, -⟩ := hc.row
    have hid : site.siteId = policy.scopeId := hsite.trans (h.siteId policy.scopeId record hrecord)
    have hsole : SolePrimary policy.primaryNodeId (site.bindings.map (·.toRecord)) := by
      rw [← hprimary, hbindings]
      refine (h.watches _ f hf (hg.2.1.symm ▸ hg) record (hg.2.1.symm ▸ hrecord)).perm ?_
      exact map_toRecord_loadSiteBindings hrecord (h.bound _ record hrecord)
    have h₁ : PolicyInv m₁.world := h.frame (by rw [hs₁]) (by rw [hs₁]) (by rw [hs₁]; exact fun _ hk => hk) hd₁
    refine ⟨fun _ => ?_, fun m' m'' hdone e => ?_⟩
    · rw [hs₁, hid, ← hbindings]
      exact currentPrimaryNodeId_eq hsole
    · have hcarries : Carries policy m₁ m' := h₁.failover (by rw [hs₁]; exact hc) hid hsole hdone
      unfold Carries at hcarries ⊢
      rw [e, ← hs₁]
      exact hcarries

theorem policyLoop_replaces (n : Nat) (policies : List PolicySnapshot) (summary : FailoverWorker.RunSummary)
    (hdist : (policies.map (·.policyId)).Nodup) (h : PolicyInv m.world)
    (hc : ∀ policy ∈ policies, (evaluatePolicy policy now n).isSome → Current m.world.store.failoverPolicies policy) :
    Prog.wp (replaceSpec p net) (FailoverWorker.policyLoop now n policies summary) (fun _ m' => PolicyInv m'.world)
      m := by
  induction policies generalizing m summary with
  | nil => exact (Prog.wp_ret _).2 h
  | cons policy policies ih =>
    rw [List.map_cons, List.nodup_cons] at hdist
    unfold FailoverWorker.policyLoop
    cases hdue : evaluatePolicy policy now n with
    | none => exact ih _ hdist.2 h fun other ho => hc other (List.mem_cons_of_mem _ ho)
    | some reason =>
      dsimp only
      rw [Prog.wp_bind]
      refine Prog.wp_mono (fun r m' hr => ?_)
        (triggerPolicyFailover_replaces h (hc policy List.mem_cons_self (by rw [hdue]; rfl)) reason).either
      refine ih _ hdist.2 hr.1 fun other ho hd => hr.2 other (fun e => ?_) (hc other (List.mem_cons_of_mem _ ho) hd)
      exact hdist.1 (e ▸ List.mem_map_of_mem ho)

/-- What a snapshot shows of its policy. -/
structure PolicySnapshot.Shows (policy : PolicySnapshot) (f : FailoverPolicy) : Prop where
  policyId : policy.policyId = f.policyId
  scopeType : policy.scopeType = f.scopeType
  scopeId : policy.scopeId = f.scopeId
  primaryNodeId : policy.primaryNodeId = f.primaryNodeId
  standbyNodeId : policy.standbyNodeId = f.standbyNodeId

theorem policySnapshot_shows {s : MemoryState} {f : FailoverPolicy} (h : policy ∈ policySnapshot s f) :
    policy.Shows f := by
  obtain ⟨_, -, h⟩ := Option.bind_eq_some_iff.1 h
  obtain ⟨_, -, h⟩ := Option.bind_eq_some_iff.1 h
  cases h
  exact ⟨rfl, rfl, rfl, rfl, rfl⟩

theorem loadActivePolicies_nodup (h : PolicyInv m.world) :
    ((loadActivePolicies m.world.store).map (·.policyId)).Nodup := by
  have hvalues := Maps.map_values_nodup h.policyId
  rw [List.nodup_iff_pairwise_ne, List.pairwise_map] at hvalues ⊢
  refine List.pairwise_filterMap.2 (List.Pairwise.imp ?_ ((List.perm_insertionSort _ _).symm.pairwise
    (hvalues.filter _) fun hne e => hne e.symm))
  intro f g hne x hx y hy e
  exact hne (by rw [← (policySnapshot_shows hx).policyId, ← (policySnapshot_shows hy).policyId, e])

/-- A due policy that stands alone is current. -/
theorem current_of_mem_loadActivePolicies {n : Nat} (h : PolicyInv m.world)
    (hp : policy ∈ loadActivePolicies m.world.store) (hdue : (evaluatePolicy policy now n).isSome)
    (halone : ∀ g ∈ m.world.store.failoverPolicies.values, g.Guards policy.scopeId → g.policyId = policy.policyId) :
    Current m.world.store.failoverPolicies policy := by
  obtain ⟨f, hf, hsnap⟩ := List.mem_filterMap.1 hp
  rw [(List.perm_insertionSort _ _).mem_iff, List.mem_filter, beq_iff_eq] at hf
  obtain ⟨k, hk⟩ := Maps.mem_values.1 hf.1
  have hshows := policySnapshot_shows hsnap
  have hscope : f.scopeType = "site" := by
    by_contra hne
    rw [← hshows.scopeType] at hne
    rw [evaluatePolicy, if_pos hne] at hdue
    cases hdue
  refine ⟨⟨f, ?_, ⟨hscope, hshows.scopeId.symm, hf.2⟩, hshows.primaryNodeId.symm, hshows.standbyNodeId.symm⟩,
    fun k' g hg hguards => ?_⟩
  · rw [hshows.policyId, h.policyId k f hk]
    exact hk
  · rw [← h.policyId k' g hg]
    exact halone g (Maps.mem_values.2 ⟨k', hg⟩) hguards

theorem cycle_replaces (h : PolicyInv m.world) (n : Nat) (hstep : StandAlone p m.world n) :
    Prog.wp (replaceSpec p net) (FailoverWorker.cycle n) (fun _ m' => PolicyInv m'.world) m := by
  refine Prog.wp_call.2 ⟨trivial, ?_⟩
  rintro _ _ ⟨rfl, rfl, -⟩
  have h' : PolicyInv (meshHandler p net (.hub .utcNow) m).2.world := h.frame rfl rfl (fun _ hk => hk) le_rfl
  refine Prog.wp_call.2 ⟨trivial, ?_⟩
  rintro _ _ ⟨rfl, rfl, -⟩
  exact policyLoop_replaces n _ _ (loadActivePolicies_nodup h') h' fun policy hpolicy hdue =>
    current_of_mem_loadActivePolicies h' hpolicy hdue (hstep policy hpolicy hdue)

/-- An operator writes a policy for the primary that the site has. -/
theorem PolicyInv.savePolicy (h : PolicyInv m.world) {f : FailoverPolicy} (hstep : NamesPrimary m.world f) :
    PolicyInv (m.onStore (PingoraMesh.savePolicy f)).world := by
  unfold PingoraMesh.savePolicy Mesh.onStore
  dsimp only
  split
  · rename_i hcheck
    rw [Bool.and_eq_true, bne_iff_ne] at hcheck
    refine { h with
      policyId := fun k g hg => ?_
      apart := fun k g hg => ?_
      old := fun k g hg hguards => ?_
      watches := fun k g hg hguards => ?_ }
    all_goals rcases Maps.getElem?_insert_eq_some hg with ⟨rfl, rfl⟩ | ⟨-, hg⟩
    · rfl
    · exact h.policyId k g hg
    · exact hcheck.2
    · exact h.apart k g hg
    · exact (hstep hguards).1
    · exact h.old k g hg hguards
    · exact (hstep hguards).2
    · exact h.watches k g hg hguards
  · exact h

end Cycle

/-! ## Runs -/

/-- The mesh after a request that nothing interrupts. -/
def Mesh.serve (p : Platform) (net : Nat → Delivery) (m : Mesh) (q : MeshRequest) : Mesh :=
  (Prog.run (meshHandler p net) (meshProgram p q) m).2

/-- The calls of requests one after another, each with the mesh it was made in. -/
def Mesh.log (p : Platform) (net : Nat → Delivery) : Mesh → List MeshRequest → List (MeshCall × Mesh)
  | _, [] => []
  | m, q :: qs => Prog.log (meshHandler p net) (meshProgram p q) m ++ Mesh.log p net (m.serve p net q) qs

section Runs

variable {p : Platform} {net : Nat → Delivery} {m : Mesh}

/-- A program of the hub runs on a mesh as it runs on its own. -/
theorem run_onHub {α : Type} (x : Prog hubSig α) (m : Mesh) :
    Prog.run (meshHandler p net) (onHub x) m =
      ((Prog.run (hubHandler p) x m.world).1, { m with world := (Prog.run (hubHandler p) x m.world).2 }) := by
  induction x generalizing m with
  | ret a => rfl
  | call c k ih => exact ih _ _

theorem Mesh.serve_hub (m : Mesh) (hub : Hub) (r : Request) :
    (m.serve p net (.hub hub r)).world = m.world.serve p hub r := by
  simp only [Mesh.serve, meshProgram, Prog.run_bind, Prog.run_ret, run_onHub]
  rfl

/-- A program of the hub switches nothing. -/
theorem onHub_replaces {α : Type} (x : Prog hubSig α) (m : Mesh) :
    Prog.wp (replaceSpec p net) (onHub x) (fun _ _ => True) m := by
  induction x generalizing m with
  | ret a => exact (Prog.wp_ret _).2 trivial
  | call c k ih => exact Prog.wp_call.2 ⟨trivial, fun r m' _ => ih r m'⟩

theorem replaces_of_wp {q : MeshRequest} {Q : Mesh → Prop}
    (hw : Prog.wp (replaceSpec p net) (meshProgram p q) (fun _ => Q) m) :
    Q (m.serve p net q) ∧ ∀ e ∈ Prog.log (meshHandler p net) (meshProgram p q) m, Replaces p net e.2 e.1 :=
  ⟨(Prog.wp_run (fun _ _ _ h => h) trivial hw).1, fun e he => (Prog.wp_log (fun _ _ _ h => h) trivial hw e he).1⟩

/-- A request in step keeps the invariant, and every switch that it makes replaces the node of its policy. -/
theorem PolicyInv.request (h : PolicyInv m.world) {q : MeshRequest} (hq : InStep p m q) :
    PolicyInv (m.serve p net q).world ∧
      ∀ e ∈ Prog.log (meshHandler p net) (meshProgram p q) m, Replaces p net e.2 e.1 := by
  cases q with
  | hub hub r =>
    refine ⟨Mesh.serve_hub m hub r ▸ h.serve hq, (replaces_of_wp (Q := fun _ => True) ?_).2⟩
    rw [meshProgram, Prog.wp_bind]
    exact Prog.wp_mono (fun _ _ _ => (Prog.wp_ret _).2 trivial) (onHub_replaces _ m)
  | savePolicy f =>
    refine ⟨h.savePolicy hq, (replaces_of_wp (Q := fun _ => True) ?_).2⟩
    exact Prog.wp_call.2 ⟨trivial, fun _ _ _ => (Prog.wp_ret _).2 trivial⟩
  | failoverCycle n =>
    refine replaces_of_wp (Q := fun m' => PolicyInv m'.world) ?_
    rw [meshProgram, Prog.wp_bind]
    exact Prog.wp_mono (fun _ _ h => (Prog.wp_ret _).2 h) (cycle_replaces h n hq)

end Runs

/-- A policy from one node to another, which asks nothing of the standby. -/
def plainPolicy (policyId siteId primary standby : Uuid) : FailoverPolicy where
  policyId := policyId
  scopeType := "site"
  scopeId := siteId
  primaryNodeId := primary
  standbyNodeId := standby
  triggerMode := "auto"
  failureThreshold := 3
  precheckPolicy := .object [("require_standby_online", .bool false)]
  status := "active"
  createdAt := 0

/-- Two nodes, a site that is bound to both of them, and a policy from the first to the second. -/
def guardedMesh : Mesh :=
  Mesh.onStore (savePolicy (plainPolicy 100 4 0 2)) { Mesh.init (.ofZones []) with
    world := World.init.serveAll .plain ⟨0, 30⟩ [.node "edge-1", .node "edge-2", .site "example", .bind 4 0 [2]] }

/-- The nodes that a call turns a site from and to. -/
def MeshCall.turns : MeshCall → Option (Uuid × Uuid)
  | .executeSiteFailover policy _ _ _ => some (policy.primaryNodeId, policy.standbyNodeId)
  | _ => none

end PingoraMesh
