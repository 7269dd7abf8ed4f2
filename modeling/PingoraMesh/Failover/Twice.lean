import PingoraMesh.Failover.Abandoned
import PingoraMesh.Failover.OnePrimary

/-!
# One failure, one switch

Any number of workers have read the same policy and find it due. Each of them looks for an open event, reads the site,
creates an event, and switches; the two checks are made before the event is created.

* `follows_phase`: the calls of a worker come in this order, and about this policy and its site;
* `one_switch`: if the checks still hold when an event is created, and the policy knows the primary of the site, then at
  most one event ends as switched and at most one release is stored;
* `two_switches`: two workers look before either of them creates its event, and both switch.
-/

namespace PingoraMesh

open Calls Fallible

/-! ## The calls of a worker -/

/-- Where a worker stands: what it has read of the site, the site it is about to switch, its event. -/
inductive Phase where
  | looking (row : Option SiteSnapshot)
  | ready (site : SiteSnapshot)
  | switching (site : SiteSnapshot) (eventId : Uuid)
  | ending (eventId : Uuid) (status : String)
  | done

/-- The event that is in the hands of a worker. -/
def Phase.event : Phase → Option Uuid
  | .switching _ eventId | .ending eventId _ => some eventId
  | _ => none

variable (policy : PolicySnapshot)

/-- What is asked of a call. -/
def Phase.Allows (g : Phase) : MeshCall → Prop
  | .hasOpenFailoverEvent _ => g = .looking none
  | .loadSiteRow siteId => siteId = policy.scopeId ∧ g = .looking none
  | .loadSiteBindings siteId => siteId = policy.scopeId ∧ ∃ row, g = .looking (some row)
  | .createFailoverEvent policy' _ _ => policy' = policy ∧
    ∃ site, g = .ready site ∧ currentPrimaryNodeId site.bindings ≠ some policy.standbyNodeId
  | .executeSiteFailover policy' site eventId _ => policy' = policy ∧ g = .switching site eventId
  | .finishFailoverEvent eventId status _ => g = .ending eventId status
  | _ => False

/-- Where a worker stands after a call. -/
def Phase.next (c : MeshCall) (r : c.Ans) (g : Phase) : Phase :=
  match c, r, g with
  | .loadSiteRow _, row, _ => .looking row
  | .loadSiteBindings _, bindings, .looking (some row) => .ready { row with bindings := bindings }
  | .createFailoverEvent _ _ _, eventId, .ready site => .switching site eventId
  | .executeSiteFailover _ _ eventId _, .ok _, _ => .ending eventId "switched"
  | .executeSiteFailover _ _ eventId _, .error _, _ => .ending eventId "failed"
  | .finishFailoverEvent _ _ _, _, _ => .done
  | _, _, g => g

/-- The calls come in order. -/
def phaseSpec : Spec meshSig Phase := .protocol (fun c g => g.Allows policy c) Phase.next

/-- A worker that finds the policy due. -/
def triggerProgram (q : DateTime × String) : Prog meshSig (Except String Bool) :=
  ExceptT.run (FailoverWorker.triggerPolicyFailover policy q.1 q.2)

theorem follows_phase (q : DateTime × String) :
    Prog.wp (phaseSpec policy) (triggerProgram policy q) (fun _ _ => True) (.looking none) := by
  have htrigger : wp (phaseSpec policy) (FailoverWorker.triggerPolicyFailover policy q.1 q.2) (fun _ _ => True)
      (fun _ _ => True) (.looking none) := by
    unfold phaseSpec
    simp only [FailoverWorker.triggerPolicyFailover, query, wp_bind, wp_call_protocol]
    refine ⟨rfl, fun isOpen => ?_⟩
    split
    · exact (wp_pure _).2 trivial
    · simp only [FailoverWorker.loadSiteSnapshot, query, wp_bind, wp_call_protocol, wp_okOr, wp_pure]
      refine ⟨⟨rfl, rfl⟩, fun row => ⟨fun s hs => ?_, fun _ => trivial⟩⟩
      cases hs
      refine ⟨⟨rfl, s, rfl⟩, fun bindings => ?_⟩
      split
      · exact (wp_pure _).2 trivial
      · rename_i hprimary
        simp only [FailoverWorker.runFailover, query, wp_bind, wp_call_protocol]
        refine ⟨⟨rfl, _, rfl, hprimary⟩, fun eventId => ⟨⟨rfl, rfl⟩, fun result => ?_⟩⟩
        cases result with
        | ok _ =>
          simp only [wp_bind, wp_call_protocol, wp_pure]
          exact ⟨rfl, fun _ => trivial⟩
        | error e =>
          simp only [wp_bind, wp_call_protocol, wp_throw]
          exact ⟨rfl, fun _ => trivial⟩
  exact htrigger.either

/-! ## The switch -/

section Switch

variable {policy}

/-- A switch of bindings whose primary the policy knows leaves the standby node as the one primary. -/
theorem switchedSnapshot_solePrimary {site : SiteSnapshot}
    (hknown : ∀ b ∈ site.bindings, b.bindingRole = "primary" →
      b.nodeId = policy.primaryNodeId ∨ b.nodeId = policy.standbyNodeId) :
    SolePrimary policy.standbyNodeId ((switchedSnapshot policy site).map (·.toRecord)) := by
  obtain ⟨new, old, hnew, hnewRole, hold, holdRole, hperm⟩ :=
    buildSwitchedBindings_perm site.bindings policy.primaryNodeId policy.standbyNodeId
  refine SolePrimary.perm ?_ (hperm.map _)
  refine ⟨⟨new.toRecord, by simp, hnewRole, hnew⟩, fun b hb hrole => ?_⟩
  obtain ⟨x, hx, rfl⟩ := List.mem_map.1 hb
  rcases List.mem_append.1 hx with hx | hx
  · rcases List.mem_cons.1 hx with rfl | hx
    · exact hnew
    · rw [List.mem_singleton.1 hx] at hrole
      exact absurd (holdRole.symm.trans hrole) (by decide)
  · obtain ⟨hmem, hother⟩ := List.mem_filter.1 hx
    rw [Bool.and_eq_true, bne_iff_ne, bne_iff_ne] at hother
    exact ((hknown x hmem hrole).elim hother.1 hother.2).elim

/-- After a failover of a site whose primary the policy knows, the worker reads the standby node as the primary. -/
theorem FailoverDone.currentPrimary {site : SiteSnapshot} {now : DateTime} {m m' : Mesh} {record : SiteRecord}
    (h : FailoverDone policy site now m m') (hid : site.siteId = policy.scopeId)
    (hrecord : m.world.store.sites[policy.scopeId]? = some record)
    (hknown : ∀ b ∈ site.bindings, b.bindingRole = "primary" →
      b.nodeId = policy.primaryNodeId ∨ b.nodeId = policy.standbyNodeId) :
    currentPrimaryNodeId (loadSiteBindings policy.scopeId m'.world.store) = some policy.standbyNodeId := by
  have hsite : m'.world.store.sites[policy.scopeId]? = some { record with
      bindings := (switchedSnapshot policy site).map (·.toRecord), status := .published } := by
    rw [h.sites, hid, Std.ExtTreeMap.getElem?_modify_self, hrecord]
    rfl
  refine currentPrimaryNodeId_eq ((switchedSnapshot_solePrimary hknown).perm ?_)
  refine map_toRecord_loadSiteBindings hsite fun b hb => ?_
  obtain ⟨x, hx, rfl⟩ := List.mem_map.1 hb
  rw [h.nodes]
  exact Std.ExtTreeMap.contains_iff_mem.1 (h.bound x hx)

variable (p : Platform) (net : Nat → Delivery)

theorem executeSiteFailover_sameEvents (policy : PolicySnapshot) (site : SiteSnapshot) (eventId : Uuid)
    (now : DateTime) (m : Mesh) : m.SameEvents (executeSiteFailover p net policy site eventId now m).2 := by
  rw [← executeSiteFailoverWith_none]
  exact executeSiteFailoverWith_sameEvents p net _ policy site eventId now m

end Switch

/-! ## What a trace tells -/

section Trace

variable {ι : Type}

/-- The worker that has created an event, and the event. -/
def createdBy : Event meshSig ι → Option (ι × Uuid)
  | ⟨i, .createFailoverEvent _ _ _, eventId⟩ => some (i, eventId)
  | _ => none

/-- The worker that has switched the site. -/
def switcherOf : Event meshSig ι → Option ι
  | ⟨i, .executeSiteFailover _ _ _ _, .ok _⟩ => some i
  | _ => none

/-- The events that were created. -/
def createdEvents (tr : List (Event meshSig ι)) : List (ι × Uuid) := tr.filterMap createdBy

/-- The workers that have switched the site. -/
def switchers (tr : List (Event meshSig ι)) : List ι := tr.filterMap switcherOf

theorem createdEvents_concat (tr : List (Event meshSig ι)) (e : Event meshSig ι) :
    createdEvents (tr ++ [e]) = createdEvents tr ++ (createdBy e).toList := by
  cases h : createdBy e <;> simp [createdEvents, h]

theorem switchers_concat (tr : List (Event meshSig ι)) (e : Event meshSig ι) :
    switchers (tr ++ [e]) = switchers tr ++ (switcherOf e).toList := by
  cases h : switcherOf e <;> simp [switchers, h]

end Trace

/-! ## The invariant -/

section Invariant

variable {ι : Type} (m₀ m : Mesh)

/-- The bindings of the site as they were at the start. -/
def firstBindings : List SiteBindingSnapshot := loadSiteBindings policy.scopeId m₀.world.store

/-- The event is under way. -/
def OpenEvent (k : Uuid) : Prop :=
  ∃ e, m.failoverEvents[k]? = some e ∧ e.policyId = policy.policyId ∧ e.eventStatus = "switching" ∧ e.finishedAt = none

/-- What is known of a worker. -/
def Phase.Known (tr : List (Event meshSig ι)) (i : ι) : Phase → Prop
  | .looking none | .done => True
  | .looking (some row) => row.siteId = policy.scopeId ∧ m₀.world.store.sites[policy.scopeId]?.isSome
  | .ready site => (site.siteId = policy.scopeId ∧ m₀.world.store.sites[policy.scopeId]?.isSome) ∧
    (site.bindings = firstBindings policy m₀ ∨ currentPrimaryNodeId site.bindings = some policy.standbyNodeId)
  | .switching site eventId => (site.siteId = policy.scopeId ∧ m₀.world.store.sites[policy.scopeId]?.isSome) ∧
    site.bindings = firstBindings policy m₀ ∧ switchers tr = [] ∧ OpenEvent policy m eventId ∧
    (i, eventId) ∈ createdEvents tr
  | .ending eventId status => OpenEvent policy m eventId ∧ (i, eventId) ∈ createdEvents tr ∧
    (status = "switched" → i ∈ switchers tr)

/-- Nobody has switched the site, or one worker has. -/
inductive SwitchState (workers : List ι) : Prop
  | before (nobody : workers = []) (bindings : loadSiteBindings policy.scopeId m.world.store = firstBindings policy m₀)
      (releases : m.world.store.releases = m₀.world.store.releases)
  | after {i : ι} {k : Uuid} {r : ReleaseRecord} (one : workers = [i])
      (primary : currentPrimaryNodeId (loadSiteBindings policy.scopeId m.world.store) = some policy.standbyNodeId)
      (releases : m.world.store.releases = m₀.world.store.releases.insert k r)

/-- One event is in hand at a time, and it is that of the worker that switches. -/
structure SwitchInv (g : ι → Option Phase) (m : Mesh) (tr : List (Event meshSig ι)) : Prop where
  ids : m.world.store.sites[policy.scopeId]?.map (·.id) = m₀.world.store.sites[policy.scopeId]?.map (·.id)
  nodes : m.world.store.nodes = m₀.world.store.nodes
  state : SwitchState policy m₀ m (switchers tr)
  known : ∀ i gi, g i = some gi → gi.Known policy m₀ m tr i
  alone : ∀ i gi, g i = some gi → ∀ j gj, g j = some gj → gi.event.isSome → gj.event.isSome → i = j
  drawn : ∀ x ∈ createdEvents tr, x.2 < m.world.nextUuid
  unique : ∀ x ∈ createdEvents tr, ∀ y ∈ createdEvents tr, x.2 = y.2 → x.1 = y.1
  ended : ∀ x ∈ createdEvents tr, ∀ e, m.failoverEvents[x.2]? = some e → e.eventStatus = "switched" → x.1 ∈ switchers tr

theorem SwitchInv.init : SwitchInv policy m₀ (fun _ : ι => none) m₀ [] where
  ids := rfl
  nodes := rfl
  state := .before rfl rfl rfl
  known _ _ h := by cases h
  alone _ _ h := by cases h
  drawn _ h := by cases h
  unique _ h := by cases h
  ended _ h := by cases h

variable {policy m₀ m} [DecidableEq ι] {g : ι → Option Phase} {m' : Mesh} {tr tr' : List (Event meshSig ι)} {i : ι}
  {gi gi' : Phase}

omit [DecidableEq ι] in
/-- What is known of a worker without an event does not change. -/
theorem Phase.Known.keep (h : gi.Known policy m₀ m tr i) (he : gi.event.isSome = false) :
    gi.Known policy m₀ m' tr' i := by
  cases gi with
  | looking row =>
    cases row with
    | none => trivial
    | some row => exact h
  | ready site => exact h
  | switching site eventId => cases he
  | ending eventId status => cases he
  | done => trivial

/-- A start, or a call that reads. -/
theorem SwitchInv.read (h : SwitchInv policy m₀ g m tr) (he : gi'.event.isSome = false)
    (hk : gi'.Known policy m₀ m tr i) (hcreated : createdEvents tr' = createdEvents tr)
    (hswitchers : switchers tr' = switchers tr) : SwitchInv policy m₀ (Function.update g i (some gi')) m tr' := by
  have hsame : ∀ (j : ι) (gj : Phase), gj.Known policy m₀ m tr j → gj.Known policy m₀ m tr' j := by
    intro j gj hj
    unfold Phase.Known at hj ⊢
    rw [hcreated, hswitchers]
    exact hj
  refine ⟨h.ids, h.nodes, hswitchers ▸ h.state, ?_, ?_, hcreated ▸ h.drawn, hcreated ▸ h.unique, ?_⟩
  · exact Pool.forall_update (hsame i gi' hk) fun j gj hj => hsame j gj (h.known j gj hj)
  · refine Pool.forall_update (fun j gj _ hi => ?_) fun j gj hj => Pool.forall_update (fun _ hi => ?_) (h.alone j gj hj)
    · rw [he] at hi
      cases hi
    · rw [he] at hi
      cases hi
  · rw [hcreated, hswitchers]
    exact h.ended

/-- A call on the event of a worker, while the others have none. -/
theorem SwitchInv.act (h : SwitchInv policy m₀ g m tr)
    (hothers : ∀ j gj, j ≠ i → g j = some gj → gj.event.isSome = false)
    (hids : m'.world.store.sites[policy.scopeId]?.map (·.id) = m.world.store.sites[policy.scopeId]?.map (·.id))
    (hnodes : m'.world.store.nodes = m.world.store.nodes) (hstate : SwitchState policy m₀ m' (switchers tr'))
    (hk : gi'.Known policy m₀ m' tr' i) (hdrawn : ∀ x ∈ createdEvents tr', x.2 < m'.world.nextUuid)
    (hunique : ∀ x ∈ createdEvents tr', ∀ y ∈ createdEvents tr', x.2 = y.2 → x.1 = y.1)
    (hended : ∀ x ∈ createdEvents tr', ∀ e, m'.failoverEvents[x.2]? = some e → e.eventStatus = "switched" →
      x.1 ∈ switchers tr') : SwitchInv policy m₀ (Function.update g i (some gi')) m' tr' := by
  refine ⟨hids.trans h.ids, hnodes.trans h.nodes, hstate, ?_, ?_, hdrawn, hunique, hended⟩
  · exact Pool.forall_update_ne hk fun j gj hne hj => (h.known j gj hj).keep (hothers j gj hne hj)
  · refine Pool.forall_update_ne (Pool.forall_update_ne (fun _ _ => rfl) fun j gj hne hj _ hsome => ?_)
      fun j gj hne hj => Pool.forall_update_ne (fun hsome _ => ?_) fun j' gj' _ hj' => h.alone j gj hj j' gj' hj'
    · rw [hothers j gj hne hj] at hsome
      cases hsome
    · rw [hothers j gj hne hj] at hsome
      cases hsome

omit [DecidableEq ι] in
theorem hasOpenFailoverEvent_of_openEvent {k : Uuid} (h : OpenEvent policy m k) :
    hasOpenFailoverEvent policy.policyId m = true := by
  obtain ⟨e, hk, hpolicy, hstatus, hfinished⟩ := h
  refine List.any_eq_true.2 ⟨e, Maps.mem_values.2 ⟨k, hk⟩, ?_⟩
  simp [hpolicy, hstatus, hfinished]

omit [DecidableEq ι] in
theorem Phase.Known.openEvent (h : gi.Known policy m₀ m tr i) (he : gi.event.isSome = true) :
    ∃ k, OpenEvent policy m k := by
  cases gi with
  | switching site eventId => exact ⟨eventId, h.2.2.2.1⟩
  | ending eventId status => exact ⟨eventId, h.1⟩
  | _ => cases he

/-- An event is created while no event is open and the site is not switched. -/
theorem SwitchInv.create (h : SwitchInv policy m₀ g m tr) {site : SiteSnapshot} (hi : g i = some (.ready site))
    (hsite : currentPrimaryNodeId site.bindings ≠ some policy.standbyNodeId)
    (hopen : hasOpenFailoverEvent policy.policyId m = false)
    (hprimary : currentPrimaryNodeId (loadSiteBindings policy.scopeId m.world.store) ≠ some policy.standbyNodeId)
    (now : DateTime) (reason : String) :
    SwitchInv policy m₀ (Function.update g i (some (.switching site m.world.nextUuid)))
      (createFailoverEvent policy now reason m).2
      (tr ++ [⟨i, .createFailoverEvent policy now reason, m.world.nextUuid⟩]) := by
  have hcreated : createdEvents (tr ++ [⟨i, .createFailoverEvent policy now reason, m.world.nextUuid⟩]) =
      createdEvents tr ++ [(i, m.world.nextUuid)] := createdEvents_concat _ _
  have hswitchers : switchers (tr ++ [⟨i, .createFailoverEvent policy now reason, m.world.nextUuid⟩]) = switchers tr :=
    (switchers_concat _ _).trans (List.append_nil _)
  obtain ⟨hnobody, hbindings, hreleases⟩ : switchers tr = [] ∧
      loadSiteBindings policy.scopeId m.world.store = firstBindings policy m₀ ∧
      m.world.store.releases = m₀.world.store.releases := by
    cases h.state with
    | before h₁ h₂ h₃ => exact ⟨h₁, h₂, h₃⟩
    | after _ h₂ _ => exact absurd h₂ hprimary
  obtain ⟨hread, hfirst⟩ := h.known i _ hi
  have hnew : OpenEvent policy (createFailoverEvent policy now reason m).2 m.world.nextUuid :=
    ⟨_, Std.ExtTreeMap.getElem?_insert_self, rfl, rfl, rfl⟩
  refine h.act (fun j gj _ hj => ?_) rfl rfl ?_ ?_ ?_ ?_ ?_
  · refine Bool.eq_false_iff.2 fun hsome => ?_
    obtain ⟨k, hk⟩ := (h.known j gj hj).openEvent hsome
    rw [hasOpenFailoverEvent_of_openEvent hk] at hopen
    cases hopen
  · rw [hswitchers]
    exact .before hnobody hbindings hreleases
  · refine ⟨hread, hfirst.resolve_right hsite, hswitchers.trans hnobody, hnew, ?_⟩
    rw [hcreated]
    exact List.mem_append_right _ (List.mem_singleton_self _)
  · rw [hcreated]
    intro x hx
    rcases List.mem_append.1 hx with hx | hx
    · exact Nat.lt_succ_of_lt (h.drawn x hx)
    · rw [List.mem_singleton.1 hx]
      exact Nat.lt_succ_self _
  · rw [hcreated]
    intro x hx y hy e
    rcases List.mem_append.1 hx with hx | hx
    · rcases List.mem_append.1 hy with hy | hy
      · exact h.unique x hx y hy e
      · rw [List.mem_singleton.1 hy] at e
        exact absurd e (Nat.ne_of_lt (h.drawn x hx))
    · rcases List.mem_append.1 hy with hy | hy
      · rw [List.mem_singleton.1 hx] at e
        exact absurd e.symm (Nat.ne_of_lt (h.drawn y hy))
      · rw [List.mem_singleton.1 hx, List.mem_singleton.1 hy]
  · rw [hcreated, hswitchers]
    intro x hx e hk hstatus
    rcases Maps.getElem?_insert_eq_some hk with ⟨-, rfl⟩ | ⟨hne, hk⟩
    · exact absurd (show "switching" = "switched" from hstatus) (by decide)
    · rcases List.mem_append.1 hx with hx | hx
      · exact h.ended x hx e hk hstatus
      · rw [List.mem_singleton.1 hx] at hne
        exact absurd rfl hne

omit [DecidableEq ι] in
/-- The others have no event while a worker has one. -/
theorem SwitchInv.others (h : SwitchInv policy m₀ g m tr) (hi : g i = some gi) (he : gi.event.isSome = true) :
    ∀ j gj, j ≠ i → g j = some gj → gj.event.isSome = false := by
  intro j gj hne hj
  refine Bool.eq_false_iff.2 fun hsome => hne ?_
  exact h.alone j gj hj i gi hi hsome he

/-- The transaction fails, and leaves the tables alone. -/
theorem SwitchInv.fail (h : SwitchInv policy m₀ g m tr) {site : SiteSnapshot} {eventId : Uuid}
    (hi : g i = some (.switching site eventId)) (hstore : m'.world.store = m.world.store) (hm : m.SameEvents m')
    (hcreated : createdEvents tr' = createdEvents tr) (hswitchers : switchers tr' = switchers tr) :
    SwitchInv policy m₀ (Function.update g i (some (.ending eventId "failed"))) m' tr' := by
  obtain ⟨-, -, -, hevent, hmem⟩ := h.known i _ hi
  refine h.act (h.others hi rfl) (by rw [hstore]) (by rw [hstore]) ?_ ⟨?_, hcreated ▸ hmem, fun e => ?_⟩ ?_
    (hcreated ▸ h.unique) ?_
  · rw [hswitchers]
    cases h.state with
    | before h₁ h₂ h₃ => exact .before h₁ (hstore ▸ h₂) (hstore ▸ h₃)
    | after h₁ h₂ h₃ => exact .after h₁ (hstore ▸ h₂) (hstore ▸ h₃)
  · unfold OpenEvent
    rw [hm.events]
    exact hevent
  · exact absurd e (by decide)
  · rw [hcreated]
    exact fun x hx => (h.drawn x hx).trans_le hm.draws
  · rw [hcreated, hswitchers, hm.events]
    exact h.ended

/-- The site is switched. -/
theorem SwitchInv.switch (h : SwitchInv policy m₀ g m tr) {site : SiteSnapshot} {eventId : Uuid} {now : DateTime}
    (hknows : KnowsPrimary m₀.world.store policy) (hi : g i = some (.switching site eventId))
    (hdone : FailoverDone policy site now m m') (hm : m.SameEvents m') (hcreated : createdEvents tr' = createdEvents tr)
    (hswitchers : switchers tr' = switchers tr ++ [i]) :
    SwitchInv policy m₀ (Function.update g i (some (.ending eventId "switched"))) m' tr' := by
  obtain ⟨⟨hid, hstored⟩, hfirst, hnobody, hevent, hmem⟩ := h.known i _ hi
  rw [hnobody, List.nil_append] at hswitchers
  obtain ⟨record, hrecord⟩ : ∃ record, m.world.store.sites[policy.scopeId]? = some record := by
    have hmap := congrArg Option.isSome h.ids
    rw [Option.isSome_map, Option.isSome_map, hstored] at hmap
    exact Option.isSome_iff_exists.1 hmap
  have hprimary : currentPrimaryNodeId (loadSiteBindings policy.scopeId m'.world.store) =
    some policy.standbyNodeId := by
    refine hdone.currentPrimary hid hrecord fun b hb hrole => ?_
    rw [hfirst] at hb
    obtain ⟨record₀, hrecord₀, hb⟩ := mem_loadSiteBindings hb
    exact hknows record₀ hrecord₀ _ hb hrole
  obtain ⟨r, -, -, hreleases⟩ := hdone.release
  have hfirstReleases : m.world.store.releases = m₀.world.store.releases := by
    cases h.state with
    | before _ _ h₃ => exact h₃
    | after h₁ _ _ =>
      rw [hnobody] at h₁
      cases h₁
  refine h.act (h.others hi rfl) ?_ hdone.nodes ?_ ⟨?_, hcreated ▸ hmem, fun _ => ?_⟩ ?_ (hcreated ▸ h.unique) ?_
  · rw [hdone.sites, hid, Std.ExtTreeMap.getElem?_modify_self, hrecord]
    rfl
  · rw [hswitchers]
    exact .after rfl hprimary (hfirstReleases ▸ hreleases)
  · unfold OpenEvent
    rw [hm.events]
    exact hevent
  · rw [hswitchers]
    exact List.mem_singleton_self i
  · rw [hcreated]
    exact fun x hx => (h.drawn x hx).trans_le hm.draws
  · rw [hcreated, hm.events]
    intro x hx e hk hstatus
    have hno := h.ended x hx e hk hstatus
    rw [hnobody] at hno
    cases hno

/-- The event is finished. -/
theorem SwitchInv.finish (h : SwitchInv policy m₀ g m tr) {eventId : Uuid} {status : String} {now : DateTime}
    (hi : g i = some (.ending eventId status)) (hcreated : createdEvents tr' = createdEvents tr)
    (hswitchers : switchers tr' = switchers tr) :
    SwitchInv policy m₀ (Function.update g i (some .done)) { m with
      failoverEvents := m.failoverEvents.modify eventId
        fun e => { e with eventStatus := status, finishedAt := some now } }
      tr' := by
  obtain ⟨-, hmem, hswitched⟩ := h.known i _ hi
  refine h.act (h.others hi rfl) rfl rfl ?_ trivial (hcreated ▸ h.drawn) (hcreated ▸ h.unique) ?_
  · rw [hswitchers]
    cases h.state with
    | before h₁ h₂ h₃ => exact .before h₁ h₂ h₃
    | after h₁ h₂ h₃ => exact .after h₁ h₂ h₃
  · rw [hcreated, hswitchers]
    intro x hx e hk hstatus
    rcases Maps.getElem?_modify_eq_some hk with ⟨hid, e₀, -, rfl⟩ | ⟨-, hk⟩
    · rw [h.unique x hx (i, eventId) hmem hid]
      exact hswitched hstatus
    · exact h.ended x hx e hk hstatus

end Invariant

/-! ## Runs -/

/-- When an event is created, what the worker has checked before still holds: no event of the policy is open, and the
primary of the site is not the standby node of the policy. -/
def StillDue (m : Mesh) : MeshCall → Prop
  | .createFailoverEvent _ _ _ => hasOpenFailoverEvent policy.policyId m = false ∧
    currentPrimaryNodeId (loadSiteBindings policy.scopeId m.world.store) ≠ some policy.standbyNodeId
  | _ => True

instance (m : Mesh) : DecidablePred (StillDue policy m)
  | .createFailoverEvent _ _ _ => inferInstanceAs (Decidable (_ = false ∧ _))
  | .hub _ | .savePolicy _ | .loadActivePolicies | .hasOpenFailoverEvent _ | .loadSiteRow _ | .loadSiteBindings _
  | .executeSiteFailover _ _ _ _ | .finishFailoverEvent _ _ _ => inferInstanceAs (Decidable True)

section Runs

variable {ι : Type}

/-- The checks still hold at each move. -/
def Checked (P : Pool meshSig (Except String Bool) ι Mesh) : Move ι (DateTime × String) → Prop
  | .spawn _ _ => True
  | .go i => ∀ c ∈ P.next i, StillDue policy P.state c

instance (P : Pool meshSig (Except String Bool) ι Mesh) : DecidablePred (Checked policy P)
  | .spawn _ _ => inferInstanceAs (Decidable True)
  | .go i => inferInstanceAs (Decidable (∀ c ∈ P.next i, StillDue policy P.state c))

/-- The event has ended as switched. -/
def EndedSwitched (m : Mesh) (k : Uuid) : Prop := ∃ e, m.failoverEvents[k]? = some e ∧ e.eventStatus = "switched"

/-- At most one worker has created an event that has ended as switched, and at most one release is new. -/
structure OneSwitch (m₀ : Mesh) (P : Pool meshSig (Except String Bool) ι Mesh) : Prop where
  events : ∀ x ∈ createdEvents P.trace, ∀ y ∈ createdEvents P.trace, EndedSwitched P.state x.2 →
    EndedSwitched P.state y.2 → x.1 = y.1
  releases : ∀ k k' : Uuid, P.state.world.store.releases[k]? ≠ m₀.world.store.releases[k]? →
    P.state.world.store.releases[k']? ≠ m₀.world.store.releases[k']? → k = k'

theorem SwitchInv.oneSwitch {policy : PolicySnapshot} {m₀ : Mesh} {P : Pool meshSig (Except String Bool) ι Mesh}
    {g : ι → Option Phase} (h : SwitchInv policy m₀ g P.state P.trace) : OneSwitch m₀ P := by
  cases h.state with
  | before hnobody _ hreleases =>
    refine ⟨fun x hx y _ hex _ => ?_, fun k _ hk _ => absurd (by rw [hreleases]) hk⟩
    obtain ⟨e, he, hstatus⟩ := hex
    have hsome := h.ended x hx e he hstatus
    rw [hnobody] at hsome
    cases hsome
  | @after i k r hone _ hreleases =>
    have hevent : ∀ x ∈ createdEvents P.trace, EndedSwitched P.state x.2 → x.1 = i := by
      rintro x hx ⟨e, he, hstatus⟩
      have hsome := h.ended x hx e he hstatus
      rw [hone] at hsome
      exact List.mem_singleton.1 hsome
    have hnew : ∀ k' : Uuid, P.state.world.store.releases[k']? ≠ m₀.world.store.releases[k']? → k' = k := by
      intro k' hk'
      by_contra hne
      refine hk' ?_
      rw [hreleases, Std.ExtTreeMap.getElem?_insert, if_neg fun e => hne (Std.compare_eq_iff_eq.1 e).symm]
    exact ⟨fun x hx y hy hex hey => (hevent x hx hex).trans (hevent y hy hey).symm,
      fun k' k'' hk' hk'' => (hnew k' hk').trans (hnew k'' hk'').symm⟩

variable {policy} [DecidableEq ι] (p : Platform) (net : Nat → Delivery) {m₀ : Mesh}

theorem SwitchInv.spawns : Pool.SpawnKeeps (triggerProgram policy) (phaseSpec policy) (SwitchInv (ι := ι) policy m₀)
    (fun _ _ => True) (Checked policy) := by
  intro P g i q _ _ hF
  exact ⟨.looking none, follows_phase policy q, hF.inv.read rfl trivial rfl rfl⟩

omit [DecidableEq ι] in
/-- What a worker reads of the site. -/
theorem SwitchInv.readRow {g : ι → Option Phase} {m : Mesh} {tr : List (Event meshSig ι)}
    (h : SwitchInv policy m₀ g m tr)
    (hident : ∀ record ∈ m₀.world.store.sites[policy.scopeId]?, record.id = policy.scopeId) (i : ι) :
    Phase.Known policy m₀ m tr i (.looking (loadSiteRow policy.scopeId m.world.store)) := by
  unfold loadSiteRow
  cases hs : m.world.store.sites[policy.scopeId]? with
  | none => trivial
  | some record =>
    have hids := h.ids
    rw [hs] at hids
    obtain ⟨record₀, hrecord₀, hid⟩ := Option.map_eq_some_iff.1 hids.symm
    exact ⟨hid.symm.trans (hident record₀ hrecord₀), Option.isSome_iff_exists.2 ⟨record₀, hrecord₀⟩⟩

theorem SwitchInv.calls (hident : ∀ record ∈ m₀.world.store.sites[policy.scopeId]?, record.id = policy.scopeId)
    (hknows : KnowsPrimary m₀.world.store policy) :
    Pool.CallKeeps (meshHandler p net) (phaseSpec policy) (SwitchInv (ι := ι) policy m₀) (fun _ _ => True)
      (Checked policy) := by
  intro P g i c k gi hadm hi hgi hok hF
  have hdue := hadm c (Pool.next_eq hi)
  refine ⟨_, rfl, ?_⟩
  have hsilent : createdBy (⟨i, c, (meshHandler p net c P.state).1⟩ : Event meshSig ι) = none →
      createdEvents (P.trace ++ [⟨i, c, (meshHandler p net c P.state).1⟩]) = createdEvents P.trace := by
    intro hnone
    rw [createdEvents_concat, hnone]
    exact List.append_nil _
  have hstill : switcherOf (⟨i, c, (meshHandler p net c P.state).1⟩ : Event meshSig ι) = none →
      switchers (P.trace ++ [⟨i, c, (meshHandler p net c P.state).1⟩]) = switchers P.trace := by
    intro hnone
    rw [switchers_concat, hnone]
    exact List.append_nil _
  cases c with
  | hasOpenFailoverEvent policyId =>
    obtain rfl : gi = .looking none := hok
    exact hF.inv.read rfl trivial (hsilent rfl) (hstill rfl)
  | loadSiteRow siteId =>
    obtain ⟨rfl, rfl⟩ := hok
    exact hF.inv.read rfl (hF.inv.readRow hident i) (hsilent rfl) (hstill rfl)
  | loadSiteBindings siteId =>
    obtain ⟨rfl, row, rfl⟩ := hok
    refine hF.inv.read rfl ⟨hF.inv.known i _ hgi, ?_⟩ (hsilent rfl) (hstill rfl)
    cases hF.inv.state with
    | before _ hbindings _ => exact .inl hbindings
    | after _ hprimary _ => exact .inr hprimary
  | createFailoverEvent policy' now reason =>
    obtain ⟨rfl, site, rfl, hsite⟩ := hok
    exact hF.inv.create hgi hsite hdue.1 hdue.2 now reason
  | executeSiteFailover policy' site eventId now =>
    obtain ⟨rfl, rfl⟩ := hok
    have hwp := executeSiteFailover_done p net policy' site eventId now P.state
    have hsame := executeSiteFailover_sameEvents p net policy' site eventId now P.state
    simp only [meshHandler] at hsilent hstill ⊢
    rcases hrun : executeSiteFailover p net policy' site eventId now P.state with ⟨e | _, m'⟩
    · rw [hrun] at hsame hsilent hstill
      obtain ⟨m'', -, rfl⟩ := Act.wp_error hwp hrun
      exact hF.inv.fail hgi rfl hsame (hsilent rfl) (hstill rfl)
    · rw [hrun] at hsame hsilent
      exact hF.inv.switch hknows hgi (Act.wp_ok hwp hrun) hsame (hsilent rfl) (switchers_concat _ _)
  | finishFailoverEvent eventId status now =>
    obtain rfl : gi = .ending eventId status := hok
    exact hF.inv.finish hgi (hsilent rfl) (hstill rfl)
  | _ => exact hok.elim

end Runs

/-- Any number of workers find one policy due, and their calls are interleaved in any way: if the policy knows the
primary of its site, and the checks of a worker still hold when it creates its event, then at most one worker creates
an event that ends as switched, and at most one release is stored. -/
theorem one_switch {ι : Type} [DecidableEq ι] (p : Platform) (net : Nat → Delivery) (m : Mesh)
    (hident : ∀ record ∈ m.world.store.sites[policy.scopeId]?, record.id = policy.scopeId)
    (hknows : KnowsPrimary m.world.store policy) (ms : List (Move ι (DateTime × String)))
    (hms : Pool.Admits (meshHandler p net) (triggerProgram policy) (Checked policy) (Pool.init m) ms) :
    OneSwitch m (Pool.exec (meshHandler p net) (triggerProgram policy) (Pool.init m) ms) := by
  have hspawns : Pool.SpawnKeeps (triggerProgram policy) (phaseSpec policy) (SwitchInv (ι := ι) policy m) _ _ :=
    SwitchInv.spawns
  obtain ⟨g, hF⟩ := Pool.invariant hspawns (SwitchInv.calls p net hident hknows)
    (Pool.fits_init (SwitchInv.init policy m)) ms hms
  exact hF.inv.oneSwitch

/-- The policy of the guarded site, as a worker reads it. -/
def guardedPolicy : PolicySnapshot :=
  (policySnapshot guardedMesh.world.store (plainPolicy 100 4 0 2)).getD wwwPolicy

/-- Two workers; the second one makes so many of its calls before the first one creates its event. -/
def twoWorkers (early : Nat) : List (Move Nat (DateTime × String)) :=
  Move.spawn 0 (0, "down") :: Move.spawn 1 (0, "down") :: List.replicate 3 (Move.go 0) ++
    List.replicate early (Move.go 1) ++ List.replicate 3 (Move.go 0) ++ List.replicate (6 - early) (Move.go 1)

/-- The pool after their calls. -/
def poolTwoWorkers (early : Nat) : Pool meshSig (Except String Bool) Nat Mesh :=
  Pool.exec (meshHandler .plain fun _ => .done) (triggerProgram guardedPolicy) (Pool.init guardedMesh)
    (twoWorkers early)

/-- The second worker comes when the first one is done: one of them switches. -/
theorem one_switch_in_turn :
    ((poolTwoWorkers 0).result 0 = some (.ok true) ∧ (poolTwoWorkers 0).result 1 = some (.ok false)) ∧
      OneSwitch guardedMesh (poolTwoWorkers 0) :=
  ⟨by decide +kernel, one_switch guardedPolicy .plain (fun _ => .done) guardedMesh (by decide +kernel)
    (by decide +kernel) (twoWorkers 0) (by decide +kernel)⟩

/-- Both workers look before either of them creates its event, and both switch. -/
theorem two_switches : ¬ OneSwitch guardedMesh (poolTwoWorkers 3) := by
  intro h
  have hcreated : createdEvents (poolTwoWorkers 3).trace = [(0, 5), (1, 7)] := by decide +kernel
  have hstatus : ((poolTwoWorkers 3).state.failoverEvents[5]?.map (·.eventStatus),
      (poolTwoWorkers 3).state.failoverEvents[7]?.map (·.eventStatus)) = (some "switched", some "switched") := by
    decide +kernel
  obtain ⟨hfirst, hsecond⟩ := Prod.mk.inj hstatus
  obtain ⟨e, he, hs⟩ := Option.map_eq_some_iff.1 hfirst
  obtain ⟨e', he', hs'⟩ := Option.map_eq_some_iff.1 hsecond
  have hsame := h.events (0, 5) (by rw [hcreated]; simp) (1, 7) (by rw [hcreated]; simp) ⟨e, he, hs⟩ ⟨e', he', hs'⟩
  cases hsame

end PingoraMesh
