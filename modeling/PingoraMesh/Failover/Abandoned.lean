import PingoraMesh.Failover.Faults
import PingoraMesh.Lib.Faulty

/-!
# Events that nobody finishes

A failover event is created by one statement, closed by another, and the switch is made by a transaction between the
two. Any number of worker processes run at once; each of their database steps may fail, a process may stop before any
of them, and others move the tables of the hub meanwhile (`Fault`).

* `follows_duty`: a worker that has created an event goes on to its transaction and then to its end;
* `no_abandoned_event`: in every run in which no process stops between the two statements, and the second one does not
  fail, an event is open only while a worker stands between them, and an event whose switch was made ends as switched;
* `abandoned_event`: a process stops after the transaction, and its event stays open.
-/

namespace PingoraMesh

open Calls Fallible

/-! ## Faults -/

/-- What may happen at a call of a worker: others have moved the tables of the hub since the last one, the process stops
before the call, the database refuses it, or it refuses a statement of the transaction. -/
structure Fault where
  others : World → World
  draws : ∀ w, w.nextUuid ≤ (others w).nextUuid
  stops : Bool
  refuses : Bool
  fails : Statement → Bool

/-- Nothing happens. -/
def Fault.none : Fault := ⟨id, fun _ => Nat.le_refl _, false, false, fun _ => false⟩

/-- The tables, and the number of calls so far. -/
structure Faulted where
  mesh : Mesh
  calls : Nat

/-- The calls of the workers, each of which may fail. -/
@[reducible] def faultySig : Sig := meshSig.faulty String

variable (p : Platform) (net : Nat → Delivery) (faults : Nat → Fault)

/-- The tables after what others have done. -/
def Mesh.moved (f : Fault) (m : Mesh) : Mesh := { m with world := f.others m.world }

/-- A call that the process lives to make. The clock does not fail, and a transaction answers for itself. -/
def attemptCall (f : Fault) (c : MeshCall) (m : Mesh) : Outcome String c.Ans × Mesh :=
  match c with
  | .executeSiteFailover policy site eventId now =>
    let out := executeSiteFailoverWith p net f.fails policy site eventId now m
    (.answer out.1, out.2)
  | .hub .utcNow => (.answer (meshHandler p net (.hub .utcNow) m).1, (meshHandler p net (.hub .utcNow) m).2)
  | c =>
    if f.refuses then (.error "error returned from database", m)
    else (.answer (meshHandler p net c m).1, (meshHandler p net c m).2)

/-- What each call does. -/
def faultyHandler : Handler faultySig Faulted := fun c s =>
  let f := faults s.calls
  if f.stops then (.stopped, ⟨s.mesh.moved f, s.calls + 1⟩)
  else ((attemptCall p net f c (s.mesh.moved f)).1, ⟨(attemptCall p net f c (s.mesh.moved f)).2, s.calls + 1⟩)

/-! ## Worker processes -/

/-- A program of a worker whose calls may fail. -/
abbrev FaultyM := Fallible faultySig (Option String)

namespace FailoverWorker

/-- The loop of `process_failover_policies`: an error of one policy is counted, and the next one is looked at. -/
def tryPolicyLoop (now : DateTime) (expectedHeartbeatSeconds : Nat) : List PolicySnapshot → RunSummary →
    FaultyM RunSummary
  | [], summary => return summary
  | policy :: policies, summary =>
    match evaluatePolicy policy now expectedHeartbeatSeconds with
    | none => tryPolicyLoop now expectedHeartbeatSeconds policies { summary with skipped := summary.skipped + 1 }
    | some reason => do
      let result ← survived (faulty (triggerPolicyFailover policy now reason))
      tryPolicyLoop now expectedHeartbeatSeconds policies { summary with
        eligible := summary.eligible + 1
        switched := summary.switched + (if result matches .ok true then 1 else 0)
        skipped := summary.skipped + (if result matches .ok false then 1 else 0)
        failed := summary.failed + (if result matches .error _ then 1 else 0) }

/-- A turn of the loop of `main`. -/
def tryCycle (expectedHeartbeatSeconds : Nat) : FaultyM RunSummary := do
  let now ← faulty (query (.hub .utcNow))
  let policies ← faulty (query .loadActivePolicies)
  tryPolicyLoop now expectedHeartbeatSeconds policies
    { scanned := (policies : List PolicySnapshot).length, eligible := 0, switched := 0, skipped := 0, failed := 0 }

/-- A worker process, for a number of turns: an error outside of the loop over the policies ends it. -/
def process (expectedHeartbeatSeconds : Nat) : Nat → FaultyM Unit
  | 0 => return ()
  | turns + 1 => do
    let _ ← tryCycle expectedHeartbeatSeconds
    process expectedHeartbeatSeconds turns

end FailoverWorker

/-- A process with its expected interval between heartbeats, for a number of turns. -/
def workerProgram (q : Nat × Nat) : Prog faultySig (Except (Option String) Unit) :=
  ExceptT.run (FailoverWorker.process q.1 q.2)

/-! ## What a worker owes -/

/-- Where a worker stands: it owes nothing, or the transaction of the event it has created, or the end of that event. -/
inductive Duty where
  | free
  | switching (policyId eventId : Uuid)
  | ending (policyId eventId : Uuid) (status : String)

/-- The event that a worker has created and not finished, with its policy. -/
def Duty.event : Duty → Option (Uuid × Uuid)
  | .free => none
  | .switching policyId eventId => some (policyId, eventId)
  | .ending policyId eventId _ => some (policyId, eventId)

/-- What is asked of a call. -/
def Duty.Allows (c : MeshCall) : Duty → Prop
  | .free => match c with
    | .executeSiteFailover _ _ _ _ | .finishFailoverEvent _ _ _ => False
    | _ => True
  | .switching policyId eventId => ∃ policy site now, c = .executeSiteFailover policy site eventId now ∧
    policy.policyId = policyId
  | .ending _ eventId status => ∃ now, c = .finishFailoverEvent eventId status now

/-- What a worker owes after a call. It does not stop while it owes something, and its event can be finished. -/
def Duty.After (d : Duty) (c : MeshCall) (r : Outcome String c.Ans) (d' : Duty) : Prop :=
  match d with
  | .free => match c, r with
    | .createFailoverEvent policy _ _, .answer eventId => d' = .switching policy.policyId eventId
    | _, _ => d' = .free
  | .switching policyId eventId => match c, r with
    | .executeSiteFailover _ _ _ _, .answer (.ok _) => d' = .ending policyId eventId "switched"
    | .executeSiteFailover _ _ _ _, .answer (.error _) => d' = .ending policyId eventId "failed"
    | _, _ => False
  | .ending _ _ _ => match c, r with
    | .finishFailoverEvent _ _ _, .answer _ => d' = .free
    | _, _ => False

/-- The calls that are not about an event. -/
def MeshCall.Eventless : MeshCall → Prop
  | .createFailoverEvent _ _ _ | .executeSiteFailover _ _ _ _ | .finishFailoverEvent _ _ _ => False
  | _ => True

/-- An event is created, switched and finished. -/
def dutySpec : Spec faultySig Duty := ⟨fun c d => d.Allows c, fun c d r d' => d.After c r d'⟩

section Follows

open FailoverWorker

/-- A call that is not about an event. -/
theorem tryCall_free (c : MeshCall) (hc : c.Eventless) {Q : c.Ans → Duty → Prop} {E : Option String → Duty → Prop}
    (hQ : ∀ a, Q a .free) (hE : ∀ e, E e .free) : wp dutySpec (@tryCall meshSig String c) Q E .free := by
  have hallows : Duty.Allows c .free := by
    cases c with
    | executeSiteFailover => exact hc.elim
    | finishFailoverEvent => exact hc.elim
    | _ => trivial
  have hafter : ∀ r d', Duty.After .free c r d' → d' = .free := by
    intro r d' h
    cases c with
    | createFailoverEvent => exact hc.elim
    | _ => exact h
  refine (wp_tryCall (S := meshSig) (T := dutySpec) c).2 ⟨hallows, fun a d' h => ?_, fun e d' h => ?_, fun d' h => ?_⟩
  · rw [hafter _ d' h]
    exact hQ a
  · rw [hafter _ d' h]
    exact hE _
  · rw [hafter _ d' h]
    exact hE _

theorem loadSiteSnapshot_free (siteId : Uuid) :
    wp dutySpec (faulty (loadSiteSnapshot siteId)) (fun _ d => d = .free) (fun _ d => d = .free) .free := by
  simp only [loadSiteSnapshot, query, faulty_bind, faulty_call, wp_bind]
  refine tryCall_free (.loadSiteRow siteId) trivial (fun row => ?_) fun _ => rfl
  cases row with
  | none => exact (wp_throw _).2 rfl
  | some site =>
    refine (wp_pure site).2 ?_
    exact tryCall_free (.loadSiteBindings siteId) trivial (fun bindings => (wp_pure _).2 rfl) fun _ => rfl

theorem runFailover_switching (policy : PolicySnapshot) (site : SiteSnapshot) (now : DateTime) (eventId : Uuid) :
    wp dutySpec (faulty (runFailover policy site now eventId)) (fun _ d => d = .free) (fun _ d => d = .free)
      (.switching policy.policyId eventId) := by
  have hend : ∀ status, wp dutySpec (@tryCall meshSig String (.finishFailoverEvent eventId status now))
      (fun _ d => d = .free) (fun _ d => d = .free) (.ending policy.policyId eventId status) := by
    intro status
    exact (wp_tryCall _).2 ⟨⟨now, rfl⟩, fun _ _ h => h, fun _ _ h => h.elim, fun _ h => h.elim⟩
  simp only [runFailover, query, faulty_bind, faulty_call, wp_bind]
  refine (wp_tryCall _).2 ⟨⟨policy, site, now, rfl, rfl⟩, fun result d' h => ?_, fun _ _ h => h.elim, fun _ h => h.elim⟩
  cases result with
  | ok _ =>
    obtain rfl : d' = .ending policy.policyId eventId "switched" := h
    simp only [faulty_bind, faulty_call, faulty_pure, wp_bind]
    exact wp_mono (fun _ _ hd => (wp_pure _).2 hd) (fun _ _ hd => hd) (hend _)
  | error e =>
    obtain rfl : d' = .ending policy.policyId eventId "failed" := h
    simp only [faulty_bind, faulty_call, faulty_throw, wp_bind]
    exact wp_mono (fun _ _ hd => (wp_throw _).2 hd) (fun _ _ hd => hd) (hend _)

theorem triggerPolicyFailover_free (policy : PolicySnapshot) (now : DateTime) (reason : String) :
    wp dutySpec (faulty (triggerPolicyFailover policy now reason)) (fun _ d => d = .free)
      (fun _ d => d = .free) .free := by
  simp only [triggerPolicyFailover, query, faulty_bind, faulty_call, wp_bind]
  refine tryCall_free (.hasOpenFailoverEvent policy.policyId) trivial (fun isOpen => ?_) fun _ => rfl
  split
  · exact (wp_pure _).2 rfl
  · rw [faulty_bind, wp_bind]
    refine wp_mono (fun site d hd => ?_) (fun _ _ hd => hd) (loadSiteSnapshot_free policy.scopeId)
    subst hd
    split
    · exact (wp_pure _).2 rfl
    · rw [faulty_bind, faulty_call, wp_bind]
      refine (wp_tryCall _).2 ⟨trivial, fun eventId d' h => ?_, fun _ _ h => h, fun _ h => h⟩
      obtain rfl : d' = .switching policy.policyId eventId := h
      exact runFailover_switching policy site now eventId

theorem tryPolicyLoop_free (now : DateTime) (n : Nat) (policies : List PolicySnapshot) (summary : RunSummary) :
    wp dutySpec (tryPolicyLoop now n policies summary) (fun _ d => d = .free) (fun _ d => d = .free) .free := by
  induction policies generalizing summary with
  | nil => exact (wp_pure _).2 rfl
  | cons policy policies ih =>
    unfold tryPolicyLoop
    split
    · exact ih _
    · rw [wp_bind]
      refine wp_survived (wp_mono (fun _ d hd => ?_) (fun _ d hd => ⟨fun _ _ => ?_, fun _ => hd⟩)
        (triggerPolicyFailover_free policy now _))
      · subst hd
        exact ih _
      · subst hd
        exact ih _

/-- A worker owes nothing when it has come to an end. -/
theorem follows_duty (q : Nat × Nat) : Prog.wp dutySpec (workerProgram q) (fun _ d => d = .free) .free := by
  have hprocess : ∀ turns, wp dutySpec (process q.1 turns) (fun _ d => d = .free) (fun _ d => d = .free) .free := by
    intro turns
    induction turns with
    | zero => exact (wp_pure _).2 rfl
    | succ turns ih =>
      simp only [process, tryCycle, query, faulty_call, wp_bind]
      refine tryCall_free (.hub .utcNow) trivial (fun now => ?_) fun _ => rfl
      refine tryCall_free .loadActivePolicies trivial (fun policies => ?_) fun _ => rfl
      refine wp_mono (fun _ d hd => ?_) (fun _ _ hd => hd) (tryPolicyLoop_free now q.1 policies _)
      subst hd
      exact ih
  exact (hprocess q.2).either

end Follows

/-! ## What calls do to events -/

/-- The events are as before, and identifiers are only drawn. -/
structure Mesh.SameEvents (m m' : Mesh) : Prop where
  events : m'.failoverEvents = m.failoverEvents
  draws : m.Draws m'

theorem Mesh.SameEvents.refl (m : Mesh) : m.SameEvents m := ⟨rfl, .refl m⟩

theorem Mesh.SameEvents.trans (m₁ m₂ m₃ : Mesh) (h : m₁.SameEvents m₂) (h' : m₂.SameEvents m₃) : m₁.SameEvents m₃ :=
  ⟨h'.events.trans h.events, Nat.le_trans h.draws h'.draws⟩

section Events

open Act Mesh.SameEvents

variable {p net faults}

theorem update_sameEvents (f : MemoryState → MemoryState) : (TxM.update f).Moves Mesh.SameEvents := fun m =>
  ⟨rfl, .refl m⟩

theorem newUuid_sameEvents : TxM.newUuid.Moves Mesh.SameEvents := fun _ => ⟨rfl, Nat.le_succ _⟩

theorem sqlAll_sameEvents (fails : Statement → Bool) (ss : List Statement) : (sqlAll fails ss).Moves Mesh.SameEvents :=
  moves_forM refl trans ss fun _ => moves_ensure refl _ _

theorem prepareFailover_sameEvents (fails : Statement → Bool) (policy : PolicySnapshot) (site : SiteSnapshot)
    (now : DateTime) : (prepareFailover p fails policy site now).Moves Mesh.SameEvents := by
  have hpublish : ∀ switched, (publishFailover p fails policy site switched now).Moves Mesh.SameEvents := by
    intro switched
    refine moves_bind trans (sqlAll_sameEvents _ _) fun _ => moves_bind trans ?_ fun _ =>
      moves_bind trans (moves_ensure refl _ _) fun _ => update_sameEvents _
    exact moves_bind trans (moves_read refl _) fun _ => moves_bind trans (moves_ensure refl _ _) fun _ =>
      moves_bind trans newUuid_sameEvents fun _ => moves_bind trans (fun m => ⟨rfl, .refl m⟩) fun _ =>
        moves_bind trans (moves_attempt refl _) fun _ => update_sameEvents _
  refine moves_bind trans (sqlAll_sameEvents _ _) fun _ => moves_bind trans (moves_read refl _) fun _ =>
    moves_bind trans (moves_attempt refl _) fun _ => moves_bind trans (sqlAll_sameEvents _ _) fun _ =>
      moves_bind trans ?_ fun _ => moves_bind trans (sqlAll_sameEvents _ _) fun _ =>
        moves_bind trans (moves_forSome refl fun _ => update_sameEvents _) fun _ =>
          moves_bind trans (hpublish _) fun _ => moves_pure refl _
  exact moves_bind trans (moves_read refl _) fun _ => moves_bind trans (moves_ensure refl _ _) fun _ =>
    update_sameEvents _

theorem applyDnsFailoverWith_sameEvents (fails : Statement → Bool) (plan : DnsFailoverPlan) (now : DateTime) :
    (applyDnsFailoverWith net fails plan now).Moves Mesh.SameEvents := by
  refine moves_bind trans (moves_ensure refl _ _) fun _ => moves_bind trans (moves_read refl _) fun existing =>
    moves_bind trans (moves_attempt refl _) fun provider => moves_bind trans ?_ fun _ =>
      moves_bind trans (moves_ensure refl _ _) fun _ => moves_bind trans ?_ fun _ => moves_ensure refl _ _
  · unfold changeRecord Act.choose
    split
    · exact fun m => ⟨rfl, .refl m⟩
    · exact fun m => ⟨rfl, .refl m⟩
  · cases existing with
    | some row => exact fun m => ⟨rfl, .refl m⟩
    | none => exact moves_bind trans newUuid_sameEvents fun _ m => ⟨rfl, .refl m⟩

theorem siteFailoverWith_sameEvents (fails : Statement → Bool) (policy : PolicySnapshot) (site : SiteSnapshot)
    (eventId : Uuid) (now : DateTime) :
    (siteFailoverWith p net fails policy site eventId now).Moves Mesh.SameEvents := by
  refine moves_bind trans (prepareFailover_sameEvents _ _ _ _) fun plan =>
    moves_bind trans (moves_forSome refl fun _ => applyDnsFailoverWith_sameEvents _ _ _) fun _ =>
      moves_bind trans (moves_ensure refl _ _) fun _ => moves_bind trans ?_ fun _ => moves_ensure refl _ _
  refine moves_forM refl trans _ fun item => moves_bind trans (moves_read refl _) fun statements =>
    moves_bind trans (sqlAll_sameEvents _ _) fun _ => moves_forSome refl fun spec =>
      moves_bind trans (moves_read refl _) fun template => moves_forSome refl fun _ =>
        moves_bind trans newUuid_sameEvents fun _ => update_sameEvents _

variable (p net) in
theorem executeSiteFailoverWith_sameEvents (fails : Statement → Bool) (policy : PolicySnapshot) (site : SiteSnapshot)
    (eventId : Uuid) (now : DateTime) (m : Mesh) :
    m.SameEvents (executeSiteFailoverWith p net fails policy site eventId now m).2 := by
  have h : m.SameEvents (siteFailoverWith p net fails policy site eventId now m).2 :=
    siteFailoverWith_sameEvents fails policy site eventId now m
  unfold executeSiteFailoverWith Act.atomically
  rcases hrun : siteFailoverWith p net fails policy site eventId now m with ⟨e | _, m'⟩
  · rw [hrun] at h
    exact ⟨rfl, h.draws⟩
  · rw [hrun] at h
    exact h

theorem moved_sameEvents (f : Fault) (m : Mesh) : m.SameEvents (m.moved f) := ⟨rfl, f.draws m.world⟩

variable (p net) in
/-- Calls that are not about an event leave the events alone. -/
theorem attemptCall_sameEvents (f : Fault) {c : MeshCall} (hc : c.Eventless) (m : Mesh) :
    m.SameEvents (attemptCall p net f c m).2 := by
  have hanswered : m.SameEvents (meshHandler p net c m).2 := by
    cases c with
    | hub c => exact ⟨rfl, nextUuid_le⟩
    | createFailoverEvent => exact hc.elim
    | executeSiteFailover => exact hc.elim
    | finishFailoverEvent => exact hc.elim
    | _ => exact ⟨rfl, .refl m⟩
  have hrefused : ∀ (b : Bool) (x : String), m.SameEvents
      (if b then (Outcome.error x, m) else (.answer (meshHandler p net c m).1, (meshHandler p net c m).2)).2 := by
    intro b x
    cases b with
    | false => exact hanswered
    | true => exact .refl m
  cases c with
  | hub c =>
    cases c with
    | utcNow => exact hanswered
    | _ => exact hrefused _ _
  | executeSiteFailover => exact hc.elim
  | _ => exact hrefused _ _

end Events

/-! ## The invariant -/

section Invariant

variable {ι : Type}

/-- The policy and the event of a transaction that has switched the bindings. -/
def switchedBy : Event faultySig ι → Option (Uuid × Uuid)
  | ⟨_, .executeSiteFailover policy _ eventId _, .answer (.ok _)⟩ => some (policy.policyId, eventId)
  | _ => none

/-- The events for which the bindings were switched, with their policies. -/
def switchedEvents (tr : List (Event faultySig ι)) : List (Uuid × Uuid) := tr.filterMap switchedBy

theorem switchedEvents_concat (tr : List (Event faultySig ι)) (e : Event faultySig ι) :
    switchedEvents (tr ++ [e]) = switchedEvents tr ++ (switchedBy e).toList := by
  cases h : switchedBy e <;> simp [switchedEvents, h]

/-- The event for which a worker has not switched the bindings. -/
def Duty.unswitched : Duty → Option Uuid
  | .free => none
  | .switching _ eventId => some eventId
  | .ending _ eventId status => if status = "switched" then none else some eventId

theorem Duty.event_of_unswitched {d : Duty} {k : Uuid} (h : k ∈ d.unswitched) : ∃ policyId,
    d.event = some (policyId, k) := by
  cases d with
  | free => cases h
  | switching policyId eventId =>
    cases h
    exact ⟨policyId, rfl⟩
  | ending policyId eventId status =>
    change k ∈ if status = "switched" then none else some eventId at h
    split at h
    · cases h
    · cases h
      exact ⟨policyId, rfl⟩

/-- An open event is owed by a worker, no two workers owe one event, and an event whose switch was made ends so. -/
structure EventInv (g : ι → Option Duty) (s : Faulted) (tr : List (Event faultySig ι)) : Prop where
  drawn : ∀ k e, s.mesh.failoverEvents[k]? = some e → k < s.mesh.world.nextUuid
  owed : ∀ k e, s.mesh.failoverEvents[k]? = some e → e.finishedAt = none →
    ∃ i gi, g i = some gi ∧ gi.event = some (e.policyId, k)
  stored : ∀ i gi, g i = some gi → ∀ x ∈ gi.event, ∃ e, s.mesh.failoverEvents[x.2]? = some e ∧ e.policyId = x.1
  alone : ∀ i gi, g i = some gi → ∀ j gj, g j = some gj → ∀ x ∈ gi.event, ∀ y ∈ gj.event, x.2 = y.2 → i = j
  switched : ∀ x ∈ switchedEvents tr, ∃ e, s.mesh.failoverEvents[x.2]? = some e ∧ e.policyId = x.1 ∧
    (e.eventStatus = "switched" ∨ ∃ i, g i = some (.ending x.1 x.2 "switched"))
  unswitched : ∀ i gi, g i = some gi → ∀ k ∈ gi.unswitched, ∀ x ∈ switchedEvents tr, x.2 ≠ k

theorem EventInv.init {m : Mesh} (h : m.failoverEvents = ∅) : EventInv (fun _ : ι => none) ⟨m, 0⟩ [] where
  drawn k e hk := by simp [h] at hk
  owed k e hk := by simp [h] at hk
  stored _ _ hi := by cases hi
  alone _ _ hi := by cases hi
  switched x hx := by cases hx
  unswitched _ _ hi := by cases hi

variable [DecidableEq ι] {g : ι → Option Duty} {s s' : Faulted} {tr : List (Event faultySig ι)} {i : ι} {gi : Duty}

/-- A start owes nothing, and neither does a worker that owed nothing and has not created an event. -/
theorem EventInv.quiet (h : EventInv g s tr) (hi : ∀ gi, g i = some gi → gi = .free)
    (hs : s.mesh.SameEvents s'.mesh) {tr' : List (Event faultySig ι)} (htr : switchedEvents tr' = switchedEvents tr) :
    EventInv (Function.update g i (some .free)) s' tr' := by
  have hother : ∀ j gj, g j = some gj → ∀ {x}, gj.event = some x → j ≠ i := by
    rintro j gj hj x hx rfl
    rw [hi gj hj] at hx
    cases hx
  refine ⟨fun k e hk => ?_, fun k e hk hopen => ?_, ?_, ?_, fun x hx => ?_, ?_⟩
  · rw [hs.events] at hk
    exact (h.drawn k e hk).trans_le hs.draws
  · rw [hs.events] at hk
    obtain ⟨j, gj, hj, hevent⟩ := h.owed k e hk hopen
    exact ⟨j, gj, (Function.update_of_ne (hother j gj hj hevent) _ _).trans hj, hevent⟩
  · rw [hs.events]
    exact Pool.forall_update (fun x hx => by cases hx) h.stored
  · refine Pool.forall_update (fun j gj _ x hx => by cases hx) fun j gj hj => ?_
    exact Pool.forall_update (fun x _ y hy => by cases hy) (h.alone j gj hj)
  · rw [htr] at hx
    rw [hs.events]
    obtain ⟨e, hk, hpolicy, hend⟩ := h.switched x hx
    refine ⟨e, hk, hpolicy, hend.imp_right fun ⟨j, hj⟩ => ⟨j, ?_⟩⟩
    exact (Function.update_of_ne (hother j _ hj (x := (x.1, x.2)) rfl) _ _).trans hj
  · rw [htr]
    exact Pool.forall_update (fun k hk => by cases hk) h.unswitched

/-- An event is created. -/
theorem EventInv.create (h : EventInv g s tr) (hi : g i = some .free) {policy : PolicySnapshot} {now : DateTime}
    {reason : String} {m : Mesh} (hm : s.mesh.SameEvents m) (hs : s'.mesh = (createFailoverEvent policy now reason m).2)
    {tr' : List (Event faultySig ι)} (htr : switchedEvents tr' = switchedEvents tr) :
    EventInv (Function.update g i (some (.switching policy.policyId m.world.nextUuid))) s' tr' := by
  have hother : ∀ j gj, g j = some gj → ∀ {x}, gj.event = some x → j ≠ i := by
    rintro j gj hj x hx rfl
    rw [hi] at hj
    cases hj
    cases hx
  have hfresh : ∀ (k : Uuid) e, s.mesh.failoverEvents[k]? = some e → k ≠ m.world.nextUuid := fun k e hk =>
    Nat.ne_of_lt ((h.drawn k e hk).trans_le hm.draws)
  have hkept : ∀ (k : Uuid) e, s.mesh.failoverEvents[k]? = some e → s'.mesh.failoverEvents[k]? = some e := by
    intro k e hk
    rw [hs]
    change (m.failoverEvents.insert m.world.nextUuid _)[k]? = some e
    rw [Std.ExtTreeMap.getElem?_insert, if_neg fun e' => hfresh k e hk (Std.compare_eq_iff_eq.1 e').symm, hm.events]
    exact hk
  have hnew : ∃ e, s'.mesh.failoverEvents[m.world.nextUuid]? = some e ∧ e.policyId = policy.policyId := by
    rw [hs]
    exact ⟨_, Std.ExtTreeMap.getElem?_insert_self, rfl⟩
  have hold : ∀ j gj, j ≠ i → g j = some gj → ∀ x ∈ gj.event, x.2 ≠ m.world.nextUuid := by
    intro j gj _ hj x hx
    obtain ⟨e, hk, -⟩ := h.stored j gj hj x hx
    exact hfresh _ e hk
  refine ⟨fun k e hk => ?_, fun k e hk hopen => ?_, ?_, ?_, fun x hx => ?_, ?_⟩
  · rw [hs] at hk ⊢
    rcases Maps.getElem?_insert_eq_some hk with ⟨rfl, -⟩ | ⟨-, hk⟩
    · exact Nat.lt_succ_self _
    · rw [hm.events] at hk
      exact Nat.lt_succ_of_lt ((h.drawn k e hk).trans_le hm.draws)
  · rw [hs] at hk
    rcases Maps.getElem?_insert_eq_some hk with ⟨rfl, rfl⟩ | ⟨-, hk⟩
    · exact ⟨i, _, Function.update_self _ _ _, rfl⟩
    · rw [hm.events] at hk
      obtain ⟨j, gj, hj, hevent⟩ := h.owed k e hk hopen
      exact ⟨j, gj, (Function.update_of_ne (hother j gj hj hevent) _ _).trans hj, hevent⟩
  · refine Pool.forall_update (fun x hx => ?_) fun j gj hj x hx => ?_
    · cases hx
      exact hnew
    · obtain ⟨e, hk, hpolicy⟩ := h.stored j gj hj x hx
      exact ⟨e, hkept _ e hk, hpolicy⟩
  · refine Pool.forall_update_ne (Pool.forall_update_ne (fun _ _ _ _ _ => rfl) fun j gj hne hj x hx y hy e => ?_)
      fun j gj hne hj => Pool.forall_update_ne (fun x hx y hy e => ?_) fun j' gj' _ hj' => h.alone j gj hj j' gj' hj'
    · cases hx
      exact absurd e.symm (hold j gj hne hj y hy)
    · cases hy
      exact absurd e (hold j gj hne hj x hx)
  · rw [htr] at hx
    obtain ⟨e, hk, hpolicy, hend⟩ := h.switched x hx
    refine ⟨e, hkept _ e hk, hpolicy, hend.imp_right fun ⟨j, hj⟩ => ⟨j, ?_⟩⟩
    exact (Function.update_of_ne (hother j _ hj (x := (x.1, x.2)) rfl) _ _).trans hj
  · rw [htr]
    refine Pool.forall_update (fun k hk x hx => ?_) h.unswitched
    cases hk
    obtain ⟨e, hk, -⟩ := h.switched x hx
    exact hfresh _ e hk

/-- The transaction of an event has come to an end. -/
theorem EventInv.switch (h : EventInv g s tr) {policyId eventId : Uuid} (hi : g i = some (.switching policyId eventId))
    (hs : s.mesh.SameEvents s'.mesh) {tr' : List (Event faultySig ι)} {status : String}
    (htr : switchedEvents tr' = switchedEvents tr ++ if status = "switched" then [(policyId, eventId)] else []) :
    EventInv (Function.update g i (some (.ending policyId eventId status))) s' tr' := by
  have hother : ∀ j (x : Uuid × Uuid) st, g j = some (.ending x.1 x.2 st) → j ≠ i := by
    rintro j x st hj rfl
    rw [hi] at hj
    cases hj
  refine ⟨fun k e hk => ?_, fun k e hk hopen => ?_, ?_, ?_, fun x hx => ?_, ?_⟩
  · rw [hs.events] at hk
    exact (h.drawn k e hk).trans_le hs.draws
  · rw [hs.events] at hk
    obtain ⟨j, gj, hj, hevent⟩ := h.owed k e hk hopen
    by_cases hji : j = i
    · subst hji
      rw [hi] at hj
      cases hj
      exact ⟨j, _, Function.update_self _ _ _, hevent⟩
    · exact ⟨j, gj, (Function.update_of_ne hji _ _).trans hj, hevent⟩
  · rw [hs.events]
    exact Pool.forall_update (h.stored i (.switching policyId eventId) hi) h.stored
  · have halone := h.alone i (.switching policyId eventId) hi
    refine Pool.forall_update (Pool.forall_update (fun _ _ _ _ _ => rfl) halone) fun j gj hj => ?_
    exact Pool.forall_update (h.alone j gj hj i (.switching policyId eventId) hi) (h.alone j gj hj)
  · rw [htr] at hx
    rw [hs.events]
    rcases List.mem_append.1 hx with hx | hx
    · obtain ⟨e, hk, hpolicy, hend⟩ := h.switched x hx
      exact ⟨e, hk, hpolicy, hend.imp_right fun ⟨j, hj⟩ => ⟨j, (Function.update_of_ne (hother j x _ hj) _ _).trans hj⟩⟩
    · split at hx
      · rename_i hstatus
        cases List.mem_singleton.1 hx
        obtain ⟨e, hk, hpolicy⟩ := h.stored i _ hi _ rfl
        exact ⟨e, hk, hpolicy, .inr ⟨i, by rw [Function.update_self, hstatus]⟩⟩
      · cases hx
  · rw [htr]
    refine Pool.forall_update_ne (fun k hk x hx => ?_) fun j gj hne hj k hk x hx => ?_
    · have hstatus : status ≠ "switched" := by
        rintro rfl
        cases hk
      rw [if_neg hstatus, List.append_nil] at hx
      refine h.unswitched i _ hi k ?_ x hx
      rw [Duty.unswitched, if_neg hstatus] at hk
      exact hk
    · rcases List.mem_append.1 hx with hx | hx
      · exact h.unswitched j gj hj k hk x hx
      · split at hx
        · cases List.mem_singleton.1 hx
          rintro rfl
          obtain ⟨policyId', hevent⟩ := Duty.event_of_unswitched hk
          exact hne (h.alone j gj hj i _ hi _ hevent _ rfl rfl)
        · cases hx

/-- An event is finished. -/
theorem EventInv.finish (h : EventInv g s tr) {policyId eventId : Uuid} {status : String} {now : DateTime}
    (hi : g i = some (.ending policyId eventId status)) {m : Mesh} (hm : s.mesh.SameEvents m)
    (hs : s'.mesh = { m with failoverEvents := m.failoverEvents.modify eventId fun e =>
      { e with eventStatus := status, finishedAt := some now } })
    {tr' : List (Event faultySig ι)} (htr : switchedEvents tr' = switchedEvents tr) :
    EventInv (Function.update g i (some .free)) s' tr' := by
  have hevents : s'.mesh.failoverEvents = s.mesh.failoverEvents.modify eventId fun e =>
      { e with eventStatus := status, finishedAt := some now } := by
    rw [hs, ← hm.events]
  have hkept : ∀ (k : Uuid) e, s.mesh.failoverEvents[k]? = some e → ∃ e', s'.mesh.failoverEvents[k]? = some e' ∧
      e'.policyId = e.policyId ∧ (k = eventId → e'.eventStatus = status) ∧ (k ≠ eventId → e' = e) := by
    intro k e hk
    rw [hevents, Std.ExtTreeMap.getElem?_modify]
    by_cases hke : k = eventId
    · subst hke
      rw [if_pos Std.ReflCmp.compare_self, hk]
      exact ⟨_, rfl, rfl, fun _ => rfl, fun hne => absurd rfl hne⟩
    · rw [if_neg fun e' => hke (Std.compare_eq_iff_eq.1 e').symm, hk]
      exact ⟨e, rfl, rfl, fun e' => absurd e' hke, fun _ => rfl⟩
  refine ⟨fun k e hk => ?_, fun k e hk hopen => ?_, ?_, ?_, fun x hx => ?_, ?_⟩
  · rw [hevents] at hk
    have hold : ∃ e₀, s.mesh.failoverEvents[k]? = some e₀ := by
      rcases Maps.getElem?_modify_eq_some hk with ⟨rfl, e₀, hk, -⟩ | ⟨-, hk⟩
      · exact ⟨e₀, hk⟩
      · exact ⟨e, hk⟩
    obtain ⟨e₀, hk⟩ := hold
    rw [hs]
    exact (h.drawn k e₀ hk).trans_le hm.draws
  · rw [hevents] at hk
    rcases Maps.getElem?_modify_eq_some hk with ⟨rfl, e₀, hk, rfl⟩ | ⟨hne, hk⟩
    · cases hopen
    · obtain ⟨j, gj, hj, hevent⟩ := h.owed k e hk hopen
      refine ⟨j, gj, (Function.update_of_ne ?_ _ _).trans hj, hevent⟩
      rintro rfl
      rw [hi] at hj
      cases hj
      exact hne (congrArg Prod.snd (Option.some.inj hevent)).symm
  · refine Pool.forall_update (fun x hx => by cases hx) fun j gj hj x hx => ?_
    obtain ⟨e, hk, hpolicy⟩ := h.stored j gj hj x hx
    obtain ⟨e', hk', hpolicy', -⟩ := hkept _ e hk
    exact ⟨e', hk', hpolicy'.trans hpolicy⟩
  · refine Pool.forall_update (fun j gj _ x hx => by cases hx) fun j gj hj => ?_
    exact Pool.forall_update (fun x _ y hy => by cases hy) (h.alone j gj hj)
  · rw [htr] at hx
    obtain ⟨e, hk, hpolicy, hend⟩ := h.switched x hx
    obtain ⟨e', hk', hpolicy', hsame, hdiff⟩ := hkept _ e hk
    refine ⟨e', hk', hpolicy'.trans hpolicy, ?_⟩
    by_cases hxe : x.2 = eventId
    · refine .inl ((hsame hxe).trans (not_not.1 fun hne => ?_))
      exact h.unswitched i _ hi eventId (if_neg hne) x hx hxe
    · rw [hdiff hxe]
      refine hend.imp_right fun ⟨j, hj⟩ => ⟨j, (Function.update_of_ne ?_ _ _).trans hj⟩
      rintro rfl
      rw [hi] at hj
      cases hj
      exact hxe rfl
  · rw [htr]
    exact Pool.forall_update (fun k hk => by cases hk) h.unswitched

end Invariant

/-! ## Runs -/

section Runs

variable {ι : Type}

/-- A worker stands between the statement that creates an event of the policy and the one that finishes it. -/
def Between (P : Pool faultySig (Except (Option String) Unit) ι Faulted) (i : ι) (policyId : Uuid) : Prop :=
  match P.next i with
  | some (.executeSiteFailover policy _ _ _) => policy.policyId = policyId
  | some (.finishFailoverEvent eventId _ _) => ∃ e ∈ P.state.mesh.failoverEvents[eventId]?, e.policyId = policyId
  | _ => False

/-- A process does not stop before it has switched and finished its event, and the database lets it finish. -/
def Fault.Spares (f : Fault) : MeshCall → Prop
  | .executeSiteFailover _ _ _ _ => f.stops = false
  | .finishFailoverEvent _ _ _ => f.stops = false ∧ f.refuses = false
  | _ => True

instance (f : Fault) : DecidablePred f.Spares
  | .executeSiteFailover _ _ _ _ => inferInstanceAs (Decidable (f.stops = false))
  | .finishFailoverEvent _ _ _ => inferInstanceAs (Decidable (f.stops = false ∧ f.refuses = false))
  | .hub _ | .savePolicy _ | .loadActivePolicies | .hasOpenFailoverEvent _ | .loadSiteRow _ | .loadSiteBindings _
  | .createFailoverEvent _ _ _ => inferInstanceAs (Decidable True)

/-- The faults spare the calls that a worker owes. -/
def Attended (P : Pool faultySig (Except (Option String) Unit) ι Faulted) : Move ι (Nat × Nat) → Prop
  | .spawn _ _ => True
  | .go i => ∀ c ∈ P.next i, (faults P.state.calls).Spares c

instance (P : Pool faultySig (Except (Option String) Unit) ι Faulted) : DecidablePred (Attended (ι := ι) faults P)
  | .spawn _ _ => inferInstanceAs (Decidable True)
  | .go i => inferInstanceAs (Decidable (∀ c ∈ P.next i, (faults P.state.calls).Spares c))

variable {p net faults} [DecidableEq ι]

theorem EventInv.spawns : Pool.SpawnKeeps workerProgram dutySpec (EventInv (ι := ι)) (fun _ d => d = .free)
    (Attended faults) := by
  intro P g i q _ hi hF
  refine ⟨.free, follows_duty q, hF.inv.quiet (fun gi hgi => ?_) (.refl _) rfl⟩
  rw [hF.fresh i hi] at hgi
  cases hgi

/-- What a call that the process lives to make does. -/
theorem faultyHandler_lives {c : MeshCall} {s : Faulted} (h : (faults s.calls).stops = false) :
    faultyHandler p net faults c s = ((attemptCall p net (faults s.calls) c (s.mesh.moved (faults s.calls))).1,
      ⟨(attemptCall p net (faults s.calls) c (s.mesh.moved (faults s.calls))).2, s.calls + 1⟩) := by
  simp [faultyHandler, h]

theorem faultyHandler_stops {c : MeshCall} {s : Faulted} (h : (faults s.calls).stops = true) :
    faultyHandler p net faults c s = (.stopped, ⟨s.mesh.moved (faults s.calls), s.calls + 1⟩) := by
  simp [faultyHandler, h]

/-- A call of a worker that owes nothing. -/
theorem EventInv.call_free {g : ι → Option Duty} {s : Faulted} {tr : List (Event faultySig ι)} {i : ι} {c : MeshCall}
    (h : EventInv g s tr) (hi : g i = some .free) (hok : Duty.Allows c .free) :
    ∃ d', Duty.After .free c (faultyHandler p net faults c s).1 d' ∧ EventInv (Function.update g i (some d'))
      (faultyHandler p net faults c s).2 (tr ++ [⟨i, c, (faultyHandler p net faults c s).1⟩]) := by
  have hfree : ∀ gi, g i = some gi → gi = .free := fun gi hgi => Option.some.inj (hgi.symm.trans hi)
  have hmoved := moved_sameEvents (faults s.calls) s.mesh
  have hsilent : ∀ r : Outcome String c.Ans, switchedEvents (tr ++ [⟨i, c, r⟩]) = switchedEvents tr := by
    intro r
    rw [switchedEvents_concat]
    cases c with
    | executeSiteFailover => exact hok.elim
    | _ => exact List.append_nil _
  cases hstops : (faults s.calls).stops with
  | true =>
    rw [faultyHandler_stops hstops]
    refine ⟨.free, ?_, h.quiet hfree hmoved (hsilent _)⟩
    cases c <;> rfl
  | false =>
    rw [faultyHandler_lives hstops]
    by_cases hc : c.Eventless
    · have hsame := Mesh.SameEvents.trans _ _ _ hmoved
        (attemptCall_sameEvents p net (faults s.calls) hc (s.mesh.moved (faults s.calls)))
      refine ⟨.free, ?_, h.quiet hfree hsame (hsilent _)⟩
      cases c with
      | createFailoverEvent => exact hc.elim
      | _ => rfl
    · cases c with
      | createFailoverEvent policy now reason =>
        cases hrefuses : (faults s.calls).refuses with
        | true =>
          simp only [attemptCall, hrefuses, if_true]
          exact ⟨.free, rfl, h.quiet hfree hmoved (hsilent _)⟩
        | false =>
          simp only [attemptCall, hrefuses, Bool.false_eq_true, if_false]
          exact ⟨_, rfl, h.create hi hmoved rfl (hsilent _)⟩
      | executeSiteFailover => exact hok.elim
      | finishFailoverEvent => exact hok.elim
      | _ => exact absurd trivial hc

theorem EventInv.calls : Pool.CallKeeps (faultyHandler p net faults) dutySpec (EventInv (ι := ι)) (fun _ d => d = .free)
    (Attended faults) := by
  intro P g i c k gi hadm hi hgi hok hF
  have hspares := hadm c (Pool.next_eq hi)
  have hmoved := moved_sameEvents (faults P.state.calls) P.state.mesh
  cases gi with
  | free => exact hF.inv.call_free hgi hok
  | switching policyId eventId =>
    obtain ⟨policy, site, now, rfl, rfl⟩ := hok
    rw [faultyHandler_lives hspares]
    have hsame := Mesh.SameEvents.trans _ _ _ hmoved (executeSiteFailoverWith_sameEvents p net
      (faults P.state.calls).fails policy site eventId now (P.state.mesh.moved (faults P.state.calls)))
    simp only [attemptCall]
    rcases hrun : executeSiteFailoverWith p net (faults P.state.calls).fails policy site eventId now
      (P.state.mesh.moved (faults P.state.calls)) with ⟨e | _, m'⟩
    · rw [hrun] at hsame
      exact ⟨_, rfl, hF.inv.switch hgi hsame (switchedEvents_concat _ _)⟩
    · rw [hrun] at hsame
      exact ⟨_, rfl, hF.inv.switch hgi hsame (switchedEvents_concat _ _)⟩
  | ending policyId eventId status =>
    obtain ⟨now, rfl⟩ := hok
    obtain ⟨hlives, hpasses⟩ := hspares
    rw [faultyHandler_lives hlives]
    simp only [attemptCall, hpasses, Bool.false_eq_true, if_false]
    refine ⟨.free, rfl, hF.inv.finish hgi hmoved rfl ?_⟩
    rw [switchedEvents_concat]
    exact List.append_nil _

omit [DecidableEq ι] in
/-- A worker that owes an event stands between its two statements. -/
theorem between_of_event {P : Pool faultySig (Except (Option String) Unit) ι Faulted} {g : ι → Option Duty}
    (hF : Pool.Fits dutySpec EventInv (fun _ d => d = .free) P g) {i : ι} {gi : Duty} (hi : g i = some gi)
    {policyId k : Uuid} (hevent : gi.event = some (policyId, k)) : Between P i policyId := by
  cases hthread : P.threads i with
  | none =>
    rw [hF.fresh i hthread] at hi
    cases hi
  | some x =>
    obtain ⟨gi', hgi', hw⟩ := hF.follows i x hthread
    rw [hi] at hgi'
    cases hgi'
    cases x with
    | ret a =>
      have hfree := (Prog.wp_ret _).1 hw
      subst hfree
      cases hevent
    | call c cont =>
      have hok := (Prog.wp_call.1 hw).1
      have hnext : P.next i = some c := Pool.next_eq hthread
      unfold Between
      rw [hnext]
      cases gi with
      | free => cases hevent
      | switching policyId' eventId =>
        obtain ⟨policy, site, now, rfl, rfl⟩ := hok
        cases hevent
        rfl
      | ending policyId' eventId status =>
        obtain ⟨now, rfl⟩ := hok
        cases hevent
        exact hF.inv.stored i _ hi _ rfl

end Runs

/-- In every run of worker processes whose database steps may fail and which may stop, save that no process stops before
it has switched and finished an event that it has created, and that the database lets it finish: whenever no worker
stands between the two statements of an event of a policy, the policy has no open event, and every event of the policy
for which the bindings were switched has ended as switched. -/
theorem no_abandoned_event {ι : Type} [DecidableEq ι] (m : Mesh) (hm : m.failoverEvents = ∅)
    (ms : List (Move ι (Nat × Nat)))
    (hms : Pool.Admits (faultyHandler p net faults) workerProgram (Attended faults) (Pool.init ⟨m, 0⟩) ms)
    (policyId : Uuid)
    (hidle : ∀ i, ¬ Between (Pool.exec (faultyHandler p net faults) workerProgram (Pool.init ⟨m, 0⟩) ms) i policyId) :
    hasOpenFailoverEvent policyId
        (Pool.exec (faultyHandler p net faults) workerProgram (Pool.init ⟨m, 0⟩) ms).state.mesh = false ∧
      ∀ x ∈ switchedEvents (Pool.exec (faultyHandler p net faults) workerProgram (Pool.init ⟨m, 0⟩) ms).trace,
        x.1 = policyId → ∃ e, (Pool.exec (faultyHandler p net faults) workerProgram
          (Pool.init ⟨m, 0⟩) ms).state.mesh.failoverEvents[x.2]? = some e ∧ e.eventStatus = "switched" := by
  obtain ⟨g, hF⟩ := Pool.invariant EventInv.spawns EventInv.calls (Pool.fits_init (EventInv.init hm)) ms hms
  generalize Pool.exec (faultyHandler p net faults) workerProgram (Pool.init ⟨m, 0⟩) ms = P at hidle hF ⊢
  constructor
  · refine Bool.eq_false_iff.2 fun hopen => ?_
    obtain ⟨e, he, hcond⟩ := List.any_eq_true.1 hopen
    obtain ⟨k, hk⟩ := Maps.mem_values.1 he
    simp only [Bool.and_eq_true, beq_iff_eq, Option.isNone_iff_eq_none] at hcond
    obtain ⟨i, gi, hi, hevent⟩ := hF.inv.owed k e hk hcond.1.2
    rw [hcond.1.1] at hevent
    exact hidle i (between_of_event hF hi hevent)
  · rintro x hx rfl
    obtain ⟨e, hk, -, hstatus | ⟨i, hi⟩⟩ := hF.inv.switched x hx
    · exact ⟨e, hk, hstatus⟩
    · exact absurd (between_of_event hF hi rfl) (hidle i)

/-- The pool after the calls of one process that goes through one turn. -/
def oneWorker (faults : Nat → Fault) : Pool faultySig (Except (Option String) Unit) Unit Faulted :=
  Pool.exec (faultyHandler .plain (fun _ => .done) faults) workerProgram (Pool.init ⟨guardedMesh, 0⟩)
    (.spawn () (15, 1) :: List.replicate 8 (.go ()))

theorem not_between_of_isNone {P : Pool faultySig (Except (Option String) Unit) Unit Faulted}
    (h : (P.next ()).isNone = true) (i : Unit) (policyId : Uuid) : ¬ Between P i policyId := by
  unfold Between
  rw [Option.isNone_iff_eq_none.1 h]
  exact id

/-- A worker switches the site, and its event is finished. -/
theorem no_abandoned_event_switched :
    (oneWorker fun _ => .none).state.mesh.failoverEvents.values.map (·.eventStatus) = ["switched"] ∧
      (hasOpenFailoverEvent 100 (oneWorker fun _ => .none).state.mesh = false ∧
        ∀ x ∈ switchedEvents (oneWorker fun _ => .none).trace, x.1 = 100 →
          ∃ e, (oneWorker fun _ => .none).state.mesh.failoverEvents[x.2]? = some e ∧ e.eventStatus = "switched") := by
  refine ⟨by decide +kernel, ?_⟩
  have hidle : ∀ i, ¬ Between (oneWorker fun _ => .none) i 100 := fun i =>
    not_between_of_isNone (by decide +kernel) i 100
  unfold oneWorker at hidle ⊢
  exact no_abandoned_event .plain (fun _ => .done) (fun _ => .none) guardedMesh rfl
    (.spawn () (15, 1) :: List.replicate 8 (.go ())) (by decide +kernel) 100 hidle

/-- The process stops after the transaction: nobody stands between the two statements, the bindings are switched, and
the event stays open. -/
theorem abandoned_event :
    ¬ ((∀ i, ¬ Between (oneWorker fun n => { Fault.none with stops := n == 7 }) i 100) →
      hasOpenFailoverEvent 100 (oneWorker fun n => { Fault.none with stops := n == 7 }).state.mesh = false ∧
        ∀ x ∈ switchedEvents (oneWorker fun n => { Fault.none with stops := n == 7 }).trace, x.1 = 100 →
          ∃ e, (oneWorker fun n => { Fault.none with stops := n == 7 }).state.mesh.failoverEvents[x.2]? = some e ∧
            e.eventStatus = "switched") := by
  intro h
  have hopen : hasOpenFailoverEvent 100 (oneWorker fun n => { Fault.none with stops := n == 7 }).state.mesh = true := by
    decide +kernel
  rw [(h fun i => not_between_of_isNone (by decide +kernel) i 100).1] at hopen
  cases hopen

end PingoraMesh
