import PingoraMesh.Failover.Primary
import PingoraMesh.Hub.Sound

/-!
# One primary for each site

Three algorithms rewrite the bindings of a site: the normalisation of `bind_site_nodes`, the switch of the hub, and the
switch of the failover worker, which goes by the nodes of a policy. The first two leave bindings that are `WellBound`;
the third does so if the primary of the site is one of the nodes of the policy.

* `WellBound.failover`: the switch of the worker on bindings whose primary is known to the policy;
* `sites_wellBound`: the bindings of every site are well after every run in which a policy is only triggered so;
* `drifted_policy_two_primaries`: a policy that no longer knows the primary leaves two.
-/

namespace PingoraMesh

open Calls

/-! ## The switch of the worker -/

/-- The new primary, the old one as a standby, and the other bindings. -/
theorem buildSwitchedBindings_perm (bs : List SiteBindingSnapshot) (primary standby : Uuid) :
    ∃ new old : SiteBindingSnapshot, new.nodeId = standby ∧ new.bindingRole = "primary" ∧ old.nodeId = primary ∧
      old.bindingRole = "standby" ∧ (buildSwitchedBindings bs primary standby).Perm
        ([new, old] ++ bs.filter fun b => b.nodeId != primary && b.nodeId != standby) := by
  unfold buildSwitchedBindings
  refine ⟨_, _, ?_, ?_, ?_, ?_, (List.perm_insertionSort _ _).trans List.perm_append_comm⟩
  · exact nodeId_find?_getD bs rfl
  · rfl
  · exact nodeId_find?_getD bs rfl
  · rfl

/-- A failover between two nodes of which one is the primary, if there is one, keeps bindings well. -/
theorem WellBound.failover {nodes : HashMap Uuid NodeRecord} {bs : List SiteBindingSnapshot} {primary standby : Uuid}
    (h : WellBound nodes (bs.map (·.toRecord))) (hne : primary ≠ standby)
    (hknown : ∀ b ∈ bs, b.bindingRole = "primary" → b.nodeId = primary ∨ b.nodeId = standby)
    (hnodes : ∀ b ∈ buildSwitchedBindings bs primary standby, b.nodeId ∈ nodes) :
    WellBound nodes ((buildSwitchedBindings bs primary standby).map (·.toRecord)) := by
  obtain ⟨new, old, hnew, hnewRole, hold, holdRole, hperm⟩ := buildSwitchedBindings_perm bs primary standby
  refine WellBound.perm ?_ (hperm.map _)
  have hothers : ∀ b ∈ bs.filter (fun b => b.nodeId != primary && b.nodeId != standby),
      b ∈ bs ∧ b.nodeId ≠ primary ∧ b.nodeId ≠ standby := by
    intro b hb
    rw [List.mem_filter, Bool.and_eq_true, bne_iff_ne, bne_iff_ne] at hb
    exact hb
  have hdistinct : ((bs.filter (fun b => b.nodeId != primary && b.nodeId != standby)).map (·.nodeId)).Nodup := by
    have hall := h.distinct
    rw [List.map_map] at hall
    exact hall.sublist (List.filter_sublist.map _)
  generalize bs.filter (fun b => b.nodeId != primary && b.nodeId != standby) = others at hperm hothers hdistinct
  have hstandby : ∀ b ∈ others.map (·.toRecord), b.bindingRole = "standby" := by
    intro b hb
    obtain ⟨x, hx, rfl⟩ := List.mem_map.1 hb
    obtain ⟨hxb, hxp, hxs⟩ := hothers x hx
    refine (h.roles _ (List.mem_map_of_mem hxb)).resolve_left fun hr => ?_
    exact (hknown x hxb hr).elim hxp hxs
  refine ⟨fun b hb => ?_, ?_, fun b hb => ?_, fun _ => ?_⟩
  · obtain ⟨x, hx, rfl⟩ := List.mem_map.1 hb
    exact hnodes x (hperm.mem_iff.2 hx)
  · rw [List.map_map]
    refine List.nodup_cons.2 ⟨fun hm => ?_, List.nodup_cons.2 ⟨fun hm => ?_, hdistinct⟩⟩
    · rcases List.mem_cons.1 hm with e | hm
      · exact hne (hold.symm.trans (e.symm.trans hnew))
      · obtain ⟨x, hx, e⟩ := List.mem_map.1 hm
        exact (hothers x hx).2.2 (e.trans hnew)
    · obtain ⟨x, hx, e⟩ := List.mem_map.1 hm
      exact (hothers x hx).2.1 (e.trans hold)
  · rcases List.mem_cons.1 hb with rfl | hb
    · exact .inl hnewRole
    · rcases List.mem_cons.1 hb with rfl | hb
      · exact .inr holdRole
      · exact .inr (hstandby b hb)
  · have hrest : ∀ b ∈ old.toRecord :: others.map (·.toRecord), b.bindingRole = "standby" :=
      List.forall_mem_cons.2 ⟨holdRole, hstandby⟩
    have hfirst : (new.toRecord.bindingRole == "primary") = true := beq_iff_eq.2 hnewRole
    change ((new.toRecord :: (old.toRecord :: others.map (·.toRecord))).filter (·.bindingRole == "primary")).length = 1
    rw [List.filter_cons, if_pos hfirst]
    exact congrArg (List.length · + 1) (primaries_eq_nil hrest)

/-! ## Steps -/

/-- A request to a hub, a policy that an operator writes, or `trigger_policy_failover` for a stored policy. -/
inductive SiteStep where
  | hub (hub : Hub) (request : Request)
  | savePolicy (policy : FailoverPolicy)
  | trigger (policyId : Uuid) (now : DateTime) (reason : String)

/-- What the worker reads of a stored policy whose nodes exist and differ. -/
def Mesh.storedPolicy (m : Mesh) (policyId : Uuid) : Option PolicySnapshot :=
  (m.world.store.failoverPolicies[policyId]?.bind (policySnapshot m.world.store)).filter fun policy =>
    policy.primaryNodeId != policy.standbyNodeId

variable (p : Platform) (net : Nat → Delivery)

/-- The mesh after a step. -/
def Mesh.afterStep (m : Mesh) : SiteStep → Mesh
  | .hub hub request => m.serve p net (.hub hub request)
  | .savePolicy policy => m.serve p net (.savePolicy policy)
  | .trigger policyId now reason =>
    match m.storedPolicy policyId with
    | none => m
    | some policy => (Fallible.run (meshHandler p net) (FailoverWorker.triggerPolicyFailover policy now reason) m).2

/-- The mesh after some steps. -/
def Mesh.afterSteps (m : Mesh) (steps : List SiteStep) : Mesh := steps.foldl (Mesh.afterStep p net) m

/-- The primary of the site, if it has one, is a node of the policy. -/
def KnowsPrimary (s : MemoryState) (policy : PolicySnapshot) : Prop :=
  ∀ site ∈ s.sites[policy.scopeId]?, ∀ b ∈ site.bindings, b.bindingRole = "primary" →
    b.nodeId = policy.primaryNodeId ∨ b.nodeId = policy.standbyNodeId

instance (s : MemoryState) (policy : PolicySnapshot) : Decidable (KnowsPrimary s policy) :=
  inferInstanceAs (Decidable (∀ site ∈ s.sites[policy.scopeId]?, _))

/-- A policy is only triggered when it knows the primary of its site. -/
def Steady (m : Mesh) : SiteStep → Prop
  | .trigger policyId _ _ => ∀ policy ∈ m.storedPolicy policyId, KnowsPrimary m.world.store policy
  | _ => True

/-- Each step is steady in the mesh it meets. -/
def AllSteady : Mesh → List SiteStep → Prop
  | _, [] => True
  | m, x :: xs => Steady m x ∧ AllSteady (m.afterStep p net x) xs

section Steps

variable {p net} {m m' : Mesh}

/-- A failover by a policy that knows the primary keeps the store sound. -/
theorem Sound.failover (h : Sound m.world.store) {policy : PolicySnapshot} {site : SiteSnapshot} {now : DateTime}
    (hne : policy.primaryNodeId ≠ policy.standbyNodeId) (hknows : KnowsPrimary m.world.store policy)
    (hread : site.ReadFrom m.world.store policy.scopeId) (hd : FailoverDone policy site now m m') :
    Sound m'.world.store := by
  obtain ⟨record, hrecord, hid, hbindings⟩ := hread
  have hnodes : ∀ b ∈ switchedSnapshot policy site, b.nodeId ∈ m.world.store.nodes := fun b hb =>
    Std.ExtTreeMap.contains_iff_mem.1 (hd.bound b hb)
  have hperm := map_toRecord_loadSiteBindings hrecord (h.bound _ record hrecord).existing
  rw [← hbindings] at hperm
  have hwell : WellBound m.world.store.nodes ((switchedSnapshot policy site).map (·.toRecord)) := by
    refine WellBound.failover ((h.bound _ record hrecord).perm hperm) hne (fun b hb hr => ?_) hnodes
    exact hknows record hrecord b.toRecord (hperm.mem_iff.1 (List.mem_map_of_mem hb)) hr
  refine ⟨fun k s hk => ?_, fun k s hk => ?_, fun k r hk n hn => ?_⟩
  · rw [hd.sites] at hk
    rcases Maps.getElem?_modify_eq_some hk with ⟨rfl, u, hu, rfl⟩ | ⟨-, hk⟩
    · exact h.ident _ u hu
    · exact h.ident k s hk
  · rw [hd.sites] at hk
    rw [hd.nodes]
    rcases Maps.getElem?_modify_eq_some hk with ⟨rfl, u, hu, rfl⟩ | ⟨-, hk⟩
    · exact hwell
    · exact h.bound k s hk
  · obtain ⟨new, -, htargets, hreleases⟩ := hd.release
    rw [hreleases] at hk
    rw [hd.nodes]
    rcases Maps.getElem?_insert_eq_some hk with ⟨-, rfl⟩ | ⟨-, hk⟩
    · rw [htargets] at hn
      obtain ⟨b, hb, rfl⟩ := List.mem_map.1 hn
      exact hnodes b hb
    · exact h.targets k r hk n hn

theorem Sound.trigger (h : Sound m.world.store) {policy : PolicySnapshot}
    (hne : policy.primaryNodeId ≠ policy.standbyNodeId)
    (hknows : KnowsPrimary m.world.store policy) (now : DateTime) (reason : String) :
    Sound (Fallible.run (meshHandler p net) (FailoverWorker.triggerPolicyFailover policy now reason)
      m).2.world.store := by
  have hw : Fallible.wp (.alone (meshHandler p net) (fun _ _ => True) fun _ => True)
      (FailoverWorker.triggerPolicyFailover policy now reason) (fun _ m' => Sound m'.world.store)
      (fun _ m' => Sound m'.world.store) m := by
    refine triggerPolicyFailover_rule (fun _ _ _ => trivial) (fun m' hs _ => hs ▸ h)
      (fun site eventId m₁ hread _ hs _ => ⟨trivial, fun m' m'' hd e => ?_⟩) reason
    rw [e]
    exact Sound.failover (hs ▸ h) hne (hs ▸ hknows) (hs ▸ hread) hd
  have hrun := (Fallible.wp_run (fun _ _ _ _ => trivial) trivial hw).1
  generalize Fallible.run (meshHandler p net) (FailoverWorker.triggerPolicyFailover policy now reason) m = out at hrun ⊢
  rcases out with ⟨e | _, m'⟩
  · exact hrun
  · exact hrun

/-- A steady step keeps the store sound. -/
theorem Sound.step (h : Sound m.world.store) {x : SiteStep} (hx : Steady m x) :
    Sound (m.afterStep p net x).world.store := by
  cases x with
  | hub hub r =>
    rw [Mesh.afterStep, Mesh.serve_hub]
    exact serve_keeps (I := fun w => Sound w.store) (fun _ h => h) (fun c w h hc => h.call p hc) h r
  | savePolicy f =>
    change Sound (PingoraMesh.savePolicy f m.world.store)
    unfold PingoraMesh.savePolicy
    split
    · exact { h with }
    · exact h
  | trigger policyId now reason =>
    rw [Mesh.afterStep]
    split
    · exact h
    · rename_i policy hpolicy
      exact h.trigger (bne_iff_ne.1 (Option.filter_eq_some_iff.1 hpolicy).2) (hx policy hpolicy) now reason

end Steps

/-- In every run whose policies are only triggered when they know the primary, the bindings of every site are well in
every state reached. -/
theorem sites_wellBound (remote : RemoteDns) (steps : List SiteStep)
    (hsteps : AllSteady p net (Mesh.init remote) steps) : ∀ pre, pre <+: steps → ∀ (k : Uuid) (site : SiteRecord),
      ((Mesh.init remote).afterSteps p net pre).world.store.sites[k]? = some site →
        WellBound ((Mesh.init remote).afterSteps p net pre).world.store.nodes site.bindings := by
  have hrun : ∀ (xs : List SiteStep) (m : Mesh), Sound m.world.store → AllSteady p net m xs →
      ∀ pre, pre <+: xs → Sound (m.afterSteps p net pre).world.store := by
    intro xs
    induction xs with
    | nil => exact fun m h _ pre hp => List.prefix_nil.1 hp ▸ h
    | cons x xs ih =>
      intro m h hxs pre hp
      cases pre with
      | nil => exact h
      | cons y ys =>
        obtain ⟨rfl, hys⟩ := List.cons_prefix_cons.1 hp
        exact ih _ (h.step hxs.1) hxs.2 ys hys
  exact fun pre hp => (hrun steps _ Sound.empty hsteps pre hp).bound

/-- Three nodes, a site that is bound to all of them, and a policy from the first node to the second. -/
def watchedSite : List SiteStep :=
  [.hub ⟨0, 30⟩ (.node "edge-1"), .hub ⟨0, 30⟩ (.node "edge-2"), .hub ⟨0, 30⟩ (.node "edge-3"),
    .hub ⟨0, 30⟩ (.site "example"), .hub ⟨0, 30⟩ (.bind 6 0 [2, 4]), .savePolicy (plainPolicy 100 6 0 2)]

/-- The policy is triggered twice. -/
def turnedSite : List SiteStep := watchedSite ++ [SiteStep.trigger 100 0 "down", .trigger 100 1 "down"]

/-- The policy turns from the first node to the second, and then from there to the first. -/
theorem sites_wellBound_turned :
    ((Mesh.init (.ofZones [])).afterSteps .plain (fun _ => .done) turnedSite).world.store.sites[6]?.map
        (fun site => (primaries site.bindings).map (·.nodeId)) = some [0] ∧
      ∀ pre, pre <+: turnedSite → ∀ (k : Uuid) (site : SiteRecord),
        ((Mesh.init (.ofZones [])).afterSteps .plain (fun _ => .done) pre).world.store.sites[k]? = some site →
          WellBound ((Mesh.init (.ofZones [])).afterSteps .plain (fun _ => .done) pre).world.store.nodes
            site.bindings :=
  ⟨by decide +kernel, sites_wellBound .plain (fun _ => .done) (.ofZones []) turnedSite
    ⟨trivial, trivial, trivial, trivial,
    trivial, trivial, (by decide +kernel : ∀ policy ∈ Mesh.storedPolicy _ 100, KnowsPrimary _ policy),
    (by decide +kernel : ∀ policy ∈ Mesh.storedPolicy _ 100, KnowsPrimary _ policy), trivial⟩⟩

/-- The primary is moved to the third node, and the policy of the first two is triggered: the site has two primaries. -/
theorem drifted_policy_two_primaries :
    ¬ ∀ (k : Uuid) (site : SiteRecord),
      ((Mesh.init (.ofZones [])).afterSteps .plain (fun _ => .done)
        (watchedSite ++ [SiteStep.hub ⟨0, 30⟩ (.bind 6 4 [0, 2]), .trigger 100 0 "down"])).world.store.sites[k]? =
          some site →
        WellBound ((Mesh.init (.ofZones [])).afterSteps .plain (fun _ => .done)
          (watchedSite ++ [SiteStep.hub ⟨0, 30⟩ (.bind 6 4 [0, 2]), .trigger 100 0 "down"])).world.store.nodes
            site.bindings := by
  intro h
  have htwo : ((Mesh.init (.ofZones [])).afterSteps .plain (fun _ => .done)
      (watchedSite ++ [SiteStep.hub ⟨0, 30⟩ (.bind 6 4 [0, 2]), .trigger 100 0 "down"])).world.store.sites[6]?.map
        (fun site => (primaries site.bindings).map (·.nodeId)) = some [2, 4] := by decide +kernel
  obtain ⟨site, hsite, hprimaries⟩ := Option.map_eq_some_iff.1 htwo
  have hone := (h 6 site hsite).primary fun e => by
    rw [e] at hprimaries
    cases hprimaries
  rw [← List.length_map (·.nodeId), hprimaries] at hone
  cases hone

end PingoraMesh
