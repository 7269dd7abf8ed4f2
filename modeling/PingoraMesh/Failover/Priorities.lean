import PingoraMesh.Failover.Primary
import PingoraMesh.Hub.Sound
import PingoraMesh.Lib.Machine
import PingoraMesh.Lib.Prog

/-!
# Priorities of bindings

The priorities of bindings are `i32`. `build_switched_bindings` adds to the priority of the primary, and the switch of
the hub counts priorities up; here both are written with additions that may overflow.

* `buildSwitchedBindingsI32_eq`: a failover overflows exactly if 10 more than the priority of the primary does;
* `switchedBindingsI32_eq`: the switch of the hub does not, with fewer than 2^24 bindings;
* `Bounded.switched`, `Bounded.failover`: both leave a primary whose priority has room for the 10 if they find one;
* `BoundedSites.request`: so does each request but a rebinding that gives the primary more;
* `priorities_fit_iff`: no addition overflows all along a run exactly if no rebinding does that.
-/

namespace PingoraMesh

open Calls Fallible HubService Machine

/-! ## With additions that may overflow -/

/-- `build_switched_bindings`. The default of the standby's priority is computed in any case. -/
def buildSwitchedBindingsI32 (existing : List SiteBindingSnapshot) (primaryNodeId standbyNodeId : Uuid) :
    Option (List SiteBindingSnapshot) := do
  let currentPriority := currentPrimaryPriority existing primaryNodeId
  let standbyDefault ← IntType.i32.add currentPriority 10
  let standbyPrevious := ((existing.find? (·.nodeId == standbyNodeId)).map (·.priority)).getD standbyDefault
  let primaryRaised ← IntType.i32.add currentPriority 10
  let oldPrimaryPriority := max standbyPrevious primaryRaised
  let others := existing.filter fun b => b.nodeId != primaryNodeId && b.nodeId != standbyNodeId
  let standby := (existing.find? (·.nodeId == standbyNodeId)).getD
    { nodeId := standbyNodeId, nodeCode := Uuid.hyphenated standbyNodeId, nodeStatus := "online"
      bindingRole := "standby", priority := standbyPrevious }
  let oldPrimary := (existing.find? (·.nodeId == primaryNodeId)).getD
    { nodeId := primaryNodeId, nodeCode := Uuid.hyphenated primaryNodeId, nodeStatus := "offline"
      bindingRole := "primary", priority := currentPriority }
  let switched : List SiteBindingSnapshot := others ++
    [{ standby with bindingRole := "primary", priority := currentPriority },
     { oldPrimary with bindingRole := "standby", priority := oldPrimaryPriority }]
  return switched.insertionSort fun l r => bindingOrd l r ≠ .gt

/-- The loop of `switch_site_primary`. It also counts up after the last binding. -/
def renumberBindingsI32 : Int → List SiteBindingRecord → Option (List SiteBindingRecord)
  | _, [] => some []
  | next, b :: bs => do
    let following ← IntType.i32.add next 100
    let rest ← renumberBindingsI32 following bs
    return { nodeId := b.nodeId
             bindingRole := if b.bindingRole = "primary" then "standby" else b.bindingRole
             priority := next } :: rest

/-- The bindings after `switch_site_primary`. -/
def switchedBindingsI32 (bindings : List SiteBindingRecord) (target : Uuid) (previous : Option Uuid) (keep : Bool) :
    Option (List SiteBindingRecord) := do
  let kept : List SiteBindingRecord :=
    match previous with
    | some node => if keep && node != target then
      [{ nodeId := node, bindingRole := "standby", priority := 200 }] else []
    | none => []
  let next ← if kept.isEmpty then some 200 else IntType.i32.add 200 100
  let others := (bindings.insertionSort fun l r => l.priority ≤ r.priority).filter fun b =>
    !(b.nodeId == target || some b.nodeId == previous)
  let renumbered ← renumberBindingsI32 next others
  return { nodeId := target, bindingRole := "primary", priority := 100 } :: kept ++ renumbered

/-- A failover overflows exactly if 10 more than the priority of the primary does. -/
theorem buildSwitchedBindingsI32_eq (existing : List SiteBindingSnapshot) (primary standby : Uuid) :
    buildSwitchedBindingsI32 existing primary standby = some (buildSwitchedBindings existing primary standby) ↔
      IntType.i32.Has (currentPrimaryPriority existing primary + 10) := by
  unfold buildSwitchedBindingsI32
  dsimp only
  constructor
  · intro h
    by_contra hover
    rw [IntType.add_eq_none_iff.2 hover] at h
    cases h
  · intro h
    rw [IntType.add_of_has h]
    rfl

theorem renumberBindingsI32_eq {next : Int} {bs : List SiteBindingRecord} (hnext : 0 ≤ next)
    (h : next + 100 * bs.length ≤ 2147483647) : renumberBindingsI32 next bs = some (renumberBindings next bs) := by
  induction bs generalizing next with
  | nil => rfl
  | cons b bs ih =>
    rw [List.length_cons] at h
    have hfits : IntType.i32.Has (next + 100) := by
      constructor
      · show -2147483648 ≤ next + 100
        omega
      · show next + 100 ≤ 2147483647
        omega
    rw [renumberBindingsI32, IntType.add_of_has hfits, Option.bind_eq_bind, Option.bind_some, ih (by omega) (by omega)]
    rfl

/-- The switch of the hub counts up from 200 or 300. -/
theorem switchedBindingsI32_eq {bindings : List SiteBindingRecord} (h : bindings.length < 2 ^ 24) (target : Uuid)
    (previous : Option Uuid) (keep : Bool) :
    switchedBindingsI32 bindings target previous keep = some (switchedBindings bindings target previous keep) := by
  have hothers : ((bindings.insertionSort fun l r => l.priority ≤ r.priority).filter fun b =>
      !(b.nodeId == target || some b.nodeId == previous)).length < 2 ^ 24 := by
    refine Nat.lt_of_le_of_lt (List.length_filter_le _ _) ?_
    rw [List.length_insertionSort]
    exact h
  unfold switchedBindingsI32 switchedBindings
  dsimp only
  generalize (bindings.insertionSort fun l r => l.priority ≤ r.priority).filter (fun b =>
    !(b.nodeId == target || some b.nodeId == previous)) = others at hothers ⊢
  have hcount : ∀ next, 0 ≤ next → next ≤ 300 → renumberBindingsI32 next others = some (renumberBindings next others) :=
    fun next hnext hle => renumberBindingsI32_eq hnext (by omega)
  cases previous with
  | none =>
    rw [List.isEmpty_nil, if_pos rfl, if_pos rfl, Option.bind_eq_bind, Option.bind_some,
      hcount 200 (by omega) (by omega)]
    rfl
  | some node =>
    dsimp only
    split
    · have hfits : IntType.i32.Has (200 + 100) := by decide
      rw [List.isEmpty_cons, if_neg Bool.false_ne_true, if_neg Bool.false_ne_true, IntType.add_of_has hfits,
        Option.bind_eq_bind, Option.bind_some, hcount (200 + 100) (by omega) (by omega)]
      rfl
    · rw [List.isEmpty_nil, if_pos rfl, if_pos rfl, Option.bind_eq_bind, Option.bind_some,
        hcount 200 (by omega) (by omega)]
      rfl

/-! ## Room above the primary -/

/-- The priority of each primary has room for the 10 that a failover adds. -/
def Bounded (bindings : List SiteBindingRecord) : Prop :=
  ∀ b ∈ bindings, b.bindingRole = "primary" → IntType.i32.Has (b.priority + 10)

theorem Bounded.nil : Bounded [] := fun _ hb => by (cases hb)

theorem Bounded.subset {bs bs' : List SiteBindingRecord} (h : Bounded bs) (hs : ∀ b ∈ bs', b ∈ bs) : Bounded bs' :=
  fun b hb => h b (hs b hb)

/-- After a switch the primary has the priority 100. -/
theorem Bounded.switched (bindings : List SiteBindingRecord) (target : Uuid) (previous : Option Uuid) (keep : Bool) :
    Bounded (switchedBindings bindings target previous keep) := by
  obtain ⟨kept, next, heq, hkept⟩ := switchedBindings_eq bindings target previous keep
  rw [heq]
  intro b hb hr
  rw [List.cons_append, List.mem_cons, List.mem_append] at hb
  rcases hb with rfl | hb | hb
  · show IntType.i32.Has (100 + 10)
    decide
  · rcases hkept with rfl | ⟨node, -, -, rfl⟩
    · cases hb
    · rw [List.mem_singleton.1 hb] at hr
      exact absurd (show "standby" = "primary" from hr) (by decide)
  · exact absurd hr (mem_renumberBindings hb).1

/-- The priority that the new primary takes over is that of a primary, or 10. -/
theorem currentPrimaryPriority_cases (existing : List SiteBindingSnapshot) (primary : Uuid) :
    currentPrimaryPriority existing primary = 10 ∨
      ∃ b ∈ existing, b.bindingRole = "primary" ∧ currentPrimaryPriority existing primary = b.priority := by
  unfold currentPrimaryPriority
  cases hfind : existing.find? fun b => b.nodeId == primary && b.bindingRole == "primary" with
  | some b =>
    have hb := List.find?_some hfind
    rw [Bool.and_eq_true, beq_iff_eq, beq_iff_eq] at hb
    exact .inr ⟨b, List.mem_of_find?_eq_some hfind, hb.2, rfl⟩
  | none =>
    cases hmin : minByKey (·.priority) (existing.filter (·.bindingRole == "primary")) with
    | some b =>
      obtain ⟨hb, hr⟩ := List.mem_filter.1 (mem_of_minByKey hmin)
      exact .inr ⟨b, hb, beq_iff_eq.1 hr, rfl⟩
    | none => exact .inl rfl

theorem has_of_bounded {existing : List SiteBindingSnapshot} (h : Bounded (existing.map (·.toRecord)))
    (primary : Uuid) : IntType.i32.Has (currentPrimaryPriority existing primary + 10) := by
  rcases currentPrimaryPriority_cases existing primary with e | ⟨b, hb, hr, e⟩
  · rw [e]
    decide
  · rw [e]
    exact h b.toRecord (List.mem_map_of_mem hb) hr

/-- A failover passes the priority of the primary on. -/
theorem Bounded.failover {existing : List SiteBindingSnapshot} (h : Bounded (existing.map (·.toRecord)))
    (primary standby : Uuid) : Bounded ((buildSwitchedBindings existing primary standby).map (·.toRecord)) := by
  have hcurrent := has_of_bounded h primary
  intro b hb hr
  obtain ⟨x, hx, rfl⟩ := List.mem_map.1 hb
  unfold buildSwitchedBindings at hx
  dsimp only at hx
  rw [(List.perm_insertionSort _ _).mem_iff, List.mem_append, List.mem_filter, List.mem_cons, List.mem_singleton] at hx
  rcases hx with ⟨hx, -⟩ | rfl | rfl
  · exact h x.toRecord (List.mem_map_of_mem hx) hr
  · exact hcurrent
  · exact absurd (show "standby" = "primary" from hr) (by decide)

/-! ## Requests -/

/-- All sites are bound so. -/
def BoundedSites (s : MemoryState) : Prop := ∀ (k : Uuid) (site : SiteRecord), s.sites[k]? = some site →
    Bounded site.bindings

/-- A call that saves a site binds it so. -/
def HubCall.BindsBounded : HubCall → Prop
  | .saveSite record => Bounded record.bindings
  | _ => True

theorem HubCall.bindsBounded_of_within {es : List Effect} (hes : .saveSite ∉ es) {c : HubCall} (hc : c.Within es) :
    c.BindsBounded := by
  cases c with
  | saveSite site => exact absurd hc hes
  | _ => trivial

section Requests

variable {p : Platform} {hub : Nat} {w : World}

theorem BoundedSites.call (h : BoundedSites w.store) {c : HubCall} (hc : c.BindsBounded) :
    BoundedSites (hubHandler p c w).2.store := by
  by_cases he : ∀ e ∈ c.effect, e ∉ [Effect.saveSite, .deleteSite, .deleteNode]
  · intro k site hk
    rw [sites_of_effect he] at hk
    exact h k site hk
  · cases c with
    | saveSite site =>
      intro k x hk
      rcases Maps.getElem?_insert_eq_some hk with ⟨-, rfl⟩ | ⟨-, hk⟩
      · exact hc
      · exact h k x hk
    | deleteSite siteId =>
      show BoundedSites (w.store.deleteSite siteId)
      unfold MemoryState.deleteSite
      split
      · exact h
      · exact fun k x hk => h k x (Maps.getElem?_erase_eq_some hk).2
    | deleteNode nodeId =>
      show BoundedSites (w.store.deleteNode nodeId)
      unfold MemoryState.deleteNode
      split
      · exact h
      · intro k x hk
        obtain ⟨site, hsite, rfl⟩ := Maps.getElem?_map_eq_some hk
        exact (h k site hsite).subset fun b hb => (List.mem_filter.1 hb).1
    | _ => exact absurd (by simp [HubCall.effect]) he

/-- Running alone, where each site that is saved has room above its primary. -/
abbrev boundedSpec (p : Platform) : Spec hubSig World :=
  .alone (hubHandler p) (fun c _ => c.BindsBounded) fun w => BoundedSites w.store

/-- The program binds sites so. -/
def SavesBounded {α : Type} (p : Platform) (x : HubM α) (w : World) : Prop :=
  wp (boundedSpec p) x (fun _ _ => True) (fun _ _ => True) w

theorem savesBounded_of_only {α : Type} {x : HubM α} {es : List Effect} (hx : x.Only (HubCall.Within es))
    (hes : .saveSite ∉ es) : SavesBounded p x w :=
  hx.safe (T := boundedSpec p) (fun _ _ hc => HubCall.bindsBounded_of_within hes hc) w

theorem saveSiteRelease_bounded (site : SiteRecord) (releaseType reason : String) :
    SavesBounded p (saveSiteRelease p hub site releaseType reason) w := by
  have honly : (saveSiteRelease p hub site releaseType reason).Only (HubCall.Within [.serial, .saveRelease]) :=
    saveSiteRelease_only p hub (by simp) (by simp) site releaseType reason
  exact savesBounded_of_only honly (by simp)

theorem saveSiteCleanupRelease_bounded (site : SiteRecord) (detached : List Uuid) (reason : String) :
    SavesBounded p (saveSiteCleanupRelease p hub site detached reason) w := by
  have honly : (saveSiteCleanupRelease p hub site detached reason).Only (HubCall.Within [.serial, .saveRelease]) :=
    saveSiteCleanupRelease_only p hub (by simp) (by simp) site detached reason
  exact savesBounded_of_only honly (by simp)

theorem createRelease_bounded (h : BoundedSites w.store) (request : CreateReleaseRequest) :
    SavesBounded p (createRelease p hub request) w := by
  simp only [SavesBounded, createRelease, detachedNodeIdsForSite, repo, wp_bind, wp_ensure, wp_okOr, wp_call_alone,
    wp_pure, hubHandler, World.read, implies_true, and_true]
  refine fun _ => ⟨trivial, fun _ site hsite => ⟨trivial, fun _ _ => ?_⟩⟩
  refine wp_mono (fun _ w₁ _ => ?_) (fun _ _ he => he)
    (wp_onlyIf_of (saveSiteRelease_bounded site request.releaseType request.reason) trivial)
  refine wp_mono (fun _ w₂ _ => ?_) (fun _ _ he => he)
    (wp_onlyIf_of (saveSiteCleanupRelease_bounded site _ request.reason) trivial)
  exact h _ site hsite

theorem updateSiteStatus_bounded (h : BoundedSites w.store) (siteId : Uuid) (enabled : Bool) :
    SavesBounded p (updateSiteStatus p hub siteId enabled) w := by
  simp only [SavesBounded, updateSiteStatus, repo, wp_bind, wp_okOr, wp_call_alone, wp_pure, hubHandler, World.read,
    World.write, implies_true, and_true]
  refine ⟨trivial, fun _ old hold => ⟨h _ old hold, fun _ => ?_⟩⟩
  exact wp_onlyIf_of (wp_mono (fun _ _ _ => trivial) (fun _ _ _ => trivial) (saveSiteRelease_bounded _ _ _)) trivial

theorem switchSitePrimary_bounded (siteId : Uuid) (request : SwitchSitePrimaryRequest) :
    SavesBounded p (switchSitePrimary p hub siteId request) w := by
  simp only [SavesBounded, switchSitePrimary, repo, wp_bind, wp_okOr, wp_ensure, wp_call_alone, wp_pure, wp_forSome,
    hubHandler, World.read, World.write, implies_true, and_true]
  have hquiet : ∀ (c : HubCall) (w : World), c.Quiet → c.BindsBounded := fun c _ hc =>
    HubCall.bindsBounded_of_within (by simp) hc.within
  refine ⟨trivial, fun _ old _ _ => chooseSwitchTarget_rule hquiet (fun target _ _ _ => ?_) fun _ => trivial⟩
  refine ⟨Bounded.switched _ _ _ _, fun h₁ => ⟨fun standby _ => ⟨trivial, fun h₂ => ?_⟩, fun _ => ?_⟩⟩
  · exact createRelease_bounded h₂ _
  · exact createRelease_bounded h₁ _

theorem updateSite_bounded (h : BoundedSites w.store) (siteId : Uuid) (request : UpdateSiteRequest) :
    SavesBounded p (updateSite siteId request) w := by
  simp only [SavesBounded, updateSite, repo, wp_bind, wp_attempt, wp_okOr, wp_call_alone, wp_pure, hubHandler,
    World.read, World.write, implies_true, and_true]
  exact fun protocol _ _ _ => ⟨trivial, fun _ old hold => h _ old hold⟩

theorem createSite_bounded (request : CreateSiteRequest) : SavesBounded p (createSite request) w := by
  simp only [SavesBounded, createSite, repo, wp_bind, wp_ensure, wp_attempt, wp_call_alone, wp_pure, hubHandler,
    World.write, implies_true, and_true]
  intro _ _ _ protocol _
  have honly : (generateUniqueSiteCode request.siteCode request.name request.domain).Only (HubCall.Within []) :=
    generateUniqueSiteCode_only _ _ _
  have hcode : SavesBounded p (generateUniqueSiteCode request.siteCode request.name request.domain) w :=
    savesBounded_of_only honly (by simp)
  exact wp_mono (fun code w₁ _ => ⟨trivial, fun _ => Bounded.nil⟩) (fun _ _ he => he) hcode

/-- The rebinding gets through, and leaves a primary without room. -/
def RaisesPrimary (s : MemoryState) (siteId : Uuid) (raw : List SiteBindingItem) : Prop :=
  ∃ bindings, normalizeSiteBindings raw = .ok bindings ∧ (∀ b ∈ bindings, b.nodeId ∈ s.nodes) ∧ siteId ∈ s.sites ∧
    ¬ Bounded bindings

theorem bindSiteNodes_bounded (siteId : Uuid) (raw : List SiteBindingItem) (hraw : ¬ RaisesPrimary w.store siteId raw) :
    SavesBounded p (bindSiteNodes siteId raw) w := by
  simp only [SavesBounded, bindSiteNodes, wp_bind, wp_attempt, implies_true, and_true]
  intro bindings hbindings
  refine wp_mono ?_ (fun _ _ h => h) (wp_forM_check (P := fun b => b.nodeId ∈ w.store.nodes) _ bindings fun b _ => ?_)
  · rintro _ _ ⟨rfl, hnodes⟩
    simp only [repo, wp_okOr, wp_call_alone, wp_pure, hubHandler, World.read, World.write, implies_true, and_true]
    refine ⟨trivial, fun _ old hold => ?_⟩
    by_contra hover
    exact hraw ⟨bindings, hbindings, hnodes, Std.ExtTreeMap.mem_iff_isSome_getElem?.2 (by rw [hold]; rfl), hover⟩
  · simp only [repo, wp_bind, wp_call_alone, wp_ensure, hubHandler, World.read, implies_true, and_true]
    exact ⟨trivial, fun _ hnode => ⟨trivial, Std.ExtTreeMap.mem_iff_isSome_getElem?.2 hnode⟩⟩

/-- A rebinding that gets through stores its bindings. -/
theorem bindSiteNodes_stores {siteId : Uuid} {raw : List SiteBindingItem} {bindings : List SiteBindingRecord}
    {old : SiteRecord} (hbindings : normalizeSiteBindings raw = .ok bindings)
    (hnodes : ∀ b ∈ bindings, b.nodeId ∈ w.store.nodes) (hold : w.store.sites[siteId]? = some old) :
    wp (aloneSpec p) (bindSiteNodes siteId raw)
      (fun _ w' => w'.store = w.store.saveSite { old with bindings := bindings })
      (fun _ w' => w'.store = w.store.saveSite { old with bindings := bindings }) w := by
  simp only [bindSiteNodes, wp_bind, wp_attempt, hbindings]
  refine ⟨fun bs e => ?_, fun _ e => by (cases e)⟩
  obtain rfl := Except.ok.inj e
  refine wp_mono ?_ (fun _ _ h => h) (wp_forM_check (P := fun _ => True) _ bindings fun b hb => ?_)
  · rintro _ _ ⟨rfl, -⟩
    simp only [repo, wp_okOr, wp_call_alone, wp_pure, hubHandler, World.read, World.write, true_and, forall_const, hold]
    refine ⟨fun site e => ?_, fun e => by (cases e)⟩
    rw [← Option.some.inj e]
  · simp only [repo, wp_bind, wp_call_alone, wp_ensure, hubHandler, World.read, true_and, forall_const]
    refine ⟨fun _ => trivial, fun hnone => ?_⟩
    have hnode := Std.ExtTreeMap.mem_iff_isSome_getElem?.1 (hnodes b hb)
    rw [hnode] at hnone
    cases hnone

/-- A request that does not leave a primary without room. -/
theorem BoundedSites.serve (h : BoundedSites w.store) (hub : Hub) {r : Request}
    (hr : ∀ siteId raw, r = .bindSiteNodes siteId raw → ¬ RaisesPrimary w.store siteId raw) :
    BoundedSites (w.serve p hub r).store := by
  have hprogram : SavesBounded p (HubService.program p hub r) w := by
    by_cases he : .saveSite ∈ r.effects
    · cases r with
      | createSite request => exact (wp_discard _).2 (createSite_bounded request)
      | updateSite siteId request => exact (wp_discard _).2 (updateSite_bounded h siteId request)
      | updateSiteStatus siteId enabled => exact (wp_discard _).2 (updateSiteStatus_bounded h siteId enabled)
      | bindSiteNodes siteId raw => exact (wp_discard _).2 (bindSiteNodes_bounded siteId raw (hr siteId raw rfl))
      | switchSitePrimary siteId request => exact (wp_discard _).2 (switchSitePrimary_bounded siteId request)
      | createRelease request => exact (wp_discard _).2 (createRelease_bounded h request)
      | _ => exact absurd he (by simp [Request.effects])
    · exact savesBounded_of_only (program_only p hub r) he
  have hkeep : ∀ (c : HubCall) (w' : World), c.BindsBounded → BoundedSites w'.store →
      BoundedSites (hubHandler p c w').2.store := fun c w' hc hw => hw.call hc
  exact (wp_run (I := fun w' : World => BoundedSites w'.store) hkeep h hprogram).2

end Requests

/-! ## Failovers -/

section Failovers

variable {p : Platform} {net : Nat → Delivery} {m m' : Mesh} {policy : PolicySnapshot} {now : DateTime}

theorem BoundedSites.loaded {s : MemoryState} (h : BoundedSites s) (siteId : Uuid) :
    Bounded ((loadSiteBindings siteId s).map (·.toRecord)) := by
  intro b hb
  obtain ⟨x, hx, rfl⟩ := List.mem_map.1 hb
  obtain ⟨site, hsite, hmem⟩ := mem_loadSiteBindings hx
  exact h siteId site hsite x.toRecord hmem

theorem BoundedSites.failover (h : BoundedSites m.world.store) {site : SiteSnapshot}
    (hread : site.ReadFrom m.world.store policy.scopeId) (hd : FailoverDone policy site now m m') :
    BoundedSites m'.world.store := by
  obtain ⟨-, -, -, hbindings⟩ := hread
  intro k x hk
  rw [hd.sites] at hk
  rcases Maps.getElem?_modify_eq_some hk with ⟨-, u, -, rfl⟩ | ⟨-, hk⟩
  · show Bounded ((switchedSnapshot policy site).map (·.toRecord))
    rw [switchedSnapshot, hbindings]
    exact (h.loaded policy.scopeId).failover _ _
  · exact h k x hk

/-- Running alone, with nothing asked of the calls. -/
abbrev aloneMesh (p : Platform) (net : Nat → Delivery) : Spec meshSig Mesh :=
  .alone (meshHandler p net) (fun _ _ => True) fun _ => True

theorem triggerPolicyFailover_bounded (h : BoundedSites m.world.store) (reason : String) :
    Prog.wp (aloneMesh p net) (ExceptT.run (FailoverWorker.triggerPolicyFailover policy now reason))
      (fun _ m' => BoundedSites m'.world.store) m := by
  refine Fallible.wp.either (triggerPolicyFailover_rule (fun _ _ _ => trivial) (fun m' hs _ => hs ▸ h)
    (fun site eventId m₁ hread _ hs _ => ⟨trivial, fun m' m'' hd e => ?_⟩) reason)
  rw [e]
  exact BoundedSites.failover (hs ▸ h) (hs ▸ hread) hd

theorem policyLoop_bounded (n : Nat) (policies : List PolicySnapshot) (summary : FailoverWorker.RunSummary)
    (h : BoundedSites m.world.store) :
    Prog.wp (aloneMesh p net) (FailoverWorker.policyLoop now n policies summary)
      (fun _ m' => BoundedSites m'.world.store) m := by
  induction policies generalizing m summary with
  | nil => exact (Prog.wp_ret _).2 h
  | cons policy policies ih =>
    unfold FailoverWorker.policyLoop
    cases evaluatePolicy policy now n with
    | none => exact ih _ h
    | some reason =>
      dsimp only
      rw [Prog.wp_bind]
      exact Prog.wp_mono (fun _ m' h' => ih _ h') (triggerPolicyFailover_bounded h reason)

/-- So does a request to a hub, a policy that an operator writes, and a cycle of the worker. -/
theorem BoundedSites.request (h : BoundedSites m.world.store) {q : MeshRequest}
    (hq : ∀ hub siteId raw, q = .hub hub (.bindSiteNodes siteId raw) → ¬ RaisesPrimary m.world.store siteId raw) :
    BoundedSites (m.serve p net q).world.store := by
  cases q with
  | hub hub r =>
    rw [Mesh.serve_hub]
    exact h.serve hub fun siteId raw e => hq hub siteId raw (e ▸ rfl)
  | savePolicy f =>
    show BoundedSites (PingoraMesh.savePolicy f m.world.store)
    unfold PingoraMesh.savePolicy
    split
    · exact h
    · exact h
  | failoverCycle n =>
    have hw : Prog.wp (aloneMesh p net) (meshProgram p (.failoverCycle n))
      (fun _ m' => BoundedSites m'.world.store) m := by
      rw [meshProgram, Prog.wp_bind]
      refine Prog.wp_mono (fun _ _ h => (Prog.wp_ret _).2 h) (Prog.wp_call.2 ⟨trivial, ?_⟩)
      rintro _ _ ⟨rfl, rfl, -⟩
      refine Prog.wp_call.2 ⟨trivial, ?_⟩
      rintro _ _ ⟨rfl, rfl, -⟩
      exact policyLoop_bounded n _ _ h
    exact (Prog.wp_run (fun _ _ _ h => h) trivial hw).1

end Failovers

/-! ## Runs -/

/-- No addition of a failover or of a switch of the hub overflows on the bindings that are stored: failovers of any
site, and switches of a site with fewer than 2^24 bindings. -/
structure PrioritiesFit (s : MemoryState) : Prop where
  failovers : ∀ siteId primary standby, buildSwitchedBindingsI32 (loadSiteBindings siteId s) primary standby =
    some (buildSwitchedBindings (loadSiteBindings siteId s) primary standby)
  switches : ∀ (siteId : Uuid) (site : SiteRecord), s.sites[siteId]? = some site → site.bindings.length < 2 ^ 24 →
    ∀ target previous keep, switchedBindingsI32 site.bindings target previous keep =
      some (switchedBindings site.bindings target previous keep)

theorem BoundedSites.fit {s : MemoryState} (h : BoundedSites s) : PrioritiesFit s where
  failovers siteId primary standby :=
    (buildSwitchedBindingsI32_eq _ primary standby).2 (has_of_bounded (h.loaded siteId) primary)
  switches _ _ _ hlength target previous keep := switchedBindingsI32_eq hlength target previous keep

/-- A rebinding that leaves a primary without room, of a stored site to nodes that exist. -/
def Raises (m : Mesh) : MeshRequest → Prop
  | .hub _ (.bindSiteNodes siteId raw) => RaisesPrimary m.world.store siteId raw
  | _ => False

/-- Then a failover from that primary overflows. -/
theorem not_fit_of_raises {p : Platform} {net : Nat → Delivery} {m : Mesh} {q : MeshRequest} (h : Raises m q) :
    ¬ PrioritiesFit (m.serve p net q).world.store := by
  cases q with
  | savePolicy f => exact h.elim
  | failoverCycle n => exact h.elim
  | hub hub r =>
    cases r with
    | bindSiteNodes siteId raw =>
      obtain ⟨bindings, hbindings, hnodes, hsite, hover⟩ := h
      obtain ⟨old, hold⟩ := Option.isSome_iff_exists.1 (Std.ExtTreeMap.mem_iff_isSome_getElem?.1 hsite)
      have hstored : (m.world.serve p hub (.bindSiteNodes siteId raw)).store =
          m.world.store.saveSite { old with bindings := bindings } :=
        serve_of_wp (Q := fun w' => w'.store = m.world.store.saveSite { old with bindings := bindings })
          ((wp_discard _).2 (bindSiteNodes_stores hbindings hnodes hold))
      have hsaved : (m.world.store.saveSite { old with bindings := bindings }).sites[old.id]? =
          some { old with bindings := bindings } := Std.ExtTreeMap.getElem?_insert_self
      rw [Mesh.serve_hub, hstored]
      have hwell := wellBound_normalizeSiteBindings hbindings hnodes
      have hperm := map_toRecord_loadSiteBindings hsaved hwell.existing
      generalize m.world.store.saveSite { old with bindings := bindings } = s at hperm ⊢
      intro hfit
      refine hover fun b hb hr => ?_
      -- the failover looks the primary up by its node
      obtain ⟨x, hx, rfl⟩ := List.mem_map.1 (hperm.mem_iff.2 hb)
      have hcurrent : currentPrimaryPriority (loadSiteBindings old.id s) x.nodeId = x.priority := by
        have hsome : ((loadSiteBindings old.id s).find? fun y => y.nodeId == x.nodeId &&
          y.bindingRole == "primary").isSome := by
          rw [List.find?_isSome]
          exact ⟨x, hx, by rw [Bool.and_eq_true, beq_iff_eq, beq_iff_eq]; exact ⟨rfl, hr⟩⟩
        obtain ⟨y, hy⟩ := Option.isSome_iff_exists.1 hsome
        have hkey := List.find?_some hy
        rw [Bool.and_eq_true, beq_iff_eq] at hkey
        have hsame : y.toRecord = x.toRecord := by
          refine List.inj_on_of_nodup_map hwell.distinct ?_ hb hkey.1
          exact hperm.mem_iff.1 (List.mem_map_of_mem (List.mem_of_find?_eq_some hy))
        rw [currentPrimaryPriority, hy]
        exact congrArg SiteBindingRecord.priority hsame
      have hhas := (buildSwitchedBindingsI32_eq _ x.nodeId x.nodeId).1 (hfit.failovers old.id x.nodeId x.nodeId)
      rw [hcurrent] at hhas
      exact hhas
    | _ => exact h.elim

variable (p : Platform) (net : Nat → Delivery)

/-- No request of the run is such a rebinding. -/
def NoneRaises : Mesh → List MeshRequest → Prop
  | _, [] => True
  | m, q :: qs => ¬ Raises m q ∧ NoneRaises (m.serve p net q) qs

/-- The mesh after some requests. -/
def Mesh.serveAll (m : Mesh) (qs : List MeshRequest) : Mesh := qs.foldl (Mesh.serve p net) m

/-- In every run of requests and failover cycles, no addition overflows in any state reached if and only if no rebinding
gives a primary a priority that has no room for 10 more. -/
theorem priorities_fit_iff (remote : RemoteDns) (qs : List MeshRequest) :
    (∀ pre, pre <+: qs → PrioritiesFit ((Mesh.init remote).serveAll p net pre).world.store) ↔
      NoneRaises p net (Mesh.init remote) qs := by
  have hnil : ∀ m, NoneRaises p net m [] := fun _ => trivial
  have hcons : ∀ m q qs, NoneRaises p net m (q :: qs) ↔ ¬ Raises m q ∧ NoneRaises p net (m.serve p net q) qs :=
    fun _ _ _ => Iff.rfl
  have hkeep : ∀ (m : Mesh) q, BoundedSites m.world.store → ¬ Raises m q →
    BoundedSites (m.serve p net q).world.store := by
    intro m q h hq
    refine h.request fun hub siteId raw e => ?_
    rw [e] at hq
    exact hq
  have hinit : BoundedSites (Mesh.init remote).world.store := by
    intro k site hk
    simp [Mesh.init, World.init, MemoryState.empty] at hk
  exact Runs.forall_prefix_iff hnil hcons (fun _ h => h.fit) (fun _ _ _ hq => not_fit_of_raises hq) hkeep hinit qs

/-- A site is bound to a primary with the priority 2147483640 and to a standby, under a policy. -/
def raisedPrimary : List MeshRequest :=
  [.hub ⟨0, 30⟩ (.node "edge-1"), .hub ⟨0, 30⟩ (.node "edge-2"), .hub ⟨0, 30⟩ (.site "example"),
    .hub ⟨0, 30⟩ (.bindSiteNodes 4 [
      { nodeId := 0, bindingRole := "primary", priority := 2147483640, nodeCode := none, nodeName := none,
        nodeStatus := none },
      { nodeId := 2, bindingRole := "standby", priority := 2147483641, nodeCode := none, nodeName := none,
        nodeStatus := none }]),
    .savePolicy (plainPolicy 100 4 0 2)]

/-- The policy is due, and the failover overflows. -/
theorem failover_priority_overflows :
    (loadActivePolicies ((Mesh.init (.ofZones [])).serveAll .plain (fun _ => .done) raisedPrimary).world.store).map
        (fun policy => (policy.primaryNodeId, policy.standbyNodeId, (evaluatePolicy policy 0 10).isSome)) =
          [(0, 2, true)] ∧
      buildSwitchedBindingsI32 (loadSiteBindings 4 ((Mesh.init (.ofZones [])).serveAll .plain (fun _ => .done)
        raisedPrimary).world.store) 0 2 = none ∧
      ¬ ∀ pre, pre <+: raisedPrimary →
        PrioritiesFit ((Mesh.init (.ofZones [])).serveAll .plain (fun _ => .done) pre).world.store := by
  have hover : buildSwitchedBindingsI32 (loadSiteBindings 4 ((Mesh.init (.ofZones [])).serveAll .plain (fun _ => .done)
      raisedPrimary).world.store) 0 2 = none := by decide +kernel
  refine ⟨by decide +kernel, hover, fun hall => ?_⟩
  have hfit := (hall raisedPrimary List.prefix_rfl).failovers 4 0 2
  rw [hover] at hfit
  cases hfit

end PingoraMesh
