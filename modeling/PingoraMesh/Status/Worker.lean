import PingoraMesh.Failover.Policy
import PingoraMesh.Hub.Memory
import PingoraMesh.Lib.Maps
import PingoraMesh.Lib.Pool

/-!
# The status worker

`apps/status-worker`: `reconcile_node_statuses` reads all nodes once, decides on the status of each from its last
heartbeat and writes the statuses that change, one node after another. Heartbeats come in and operators set nodes to
`maintenance` between these steps.

* `follows_watch`: a status that is written is the one decided on for a row that was read (`watchSpec`);
* `statuses_justified`: in every run in which a node is not set to `maintenance`, nor reports before it is written off,
  between the reading of its row and the writing of its status, every status written is justified by the stored row;
* `reported_node_written_off`: a heartbeat in between is overwritten.
-/

namespace PingoraMesh

open Calls

/-! ## Deciding on a status -/

/-- `HeartbeatPolicy`. -/
structure HeartbeatPolicy where
  suspectAfterMissed : Nat
  offlineAfterMissed : Nat
  deriving DecidableEq, Repr

/-- `HeartbeatPolicy::default`. -/
def HeartbeatPolicy.default : HeartbeatPolicy := ⟨2, 4⟩

/-- `NodeLifecycleService::evaluate_status`. -/
def evaluateStatus (missedHeartbeats : Nat) (policy : HeartbeatPolicy) : NodeStatus :=
  if missedHeartbeats ≥ policy.offlineAfterMissed then .offline
  else if missedHeartbeats ≥ policy.suspectAfterMissed then .suspect
  else .online

theorem evaluateStatus_ne_maintenance (missed : Nat) (policy : HeartbeatPolicy) :
    evaluateStatus missed policy ≠ .maintenance := by
  unfold evaluateStatus
  split
  · simp
  · split <;> simp

structure NodeSnapshot where
  nodeId : Uuid
  nodeCode : String
  currentStatus : String
  lastSeenAt : Option DateTime
  deriving DecidableEq, Repr

/-- `desired_status_for_snapshot`. -/
def desiredStatusForSnapshot (snapshot : NodeSnapshot) (now : DateTime) (expectedHeartbeatSeconds : Nat)
    (policy : HeartbeatPolicy) : Option NodeStatus :=
  if snapshot.currentStatus = "maintenance" then none
  else snapshot.lastSeenAt.map fun lastSeenAt =>
    evaluateStatus (missedHeartbeats now lastSeenAt expectedHeartbeatSeconds) policy

/-- A decision is made for a node that is not in maintenance and has been seen. -/
theorem desiredStatusForSnapshot_eq_some {snapshot : NodeSnapshot} {now : DateTime} {seconds : Nat}
    {policy : HeartbeatPolicy} {status : NodeStatus}
    (h : desiredStatusForSnapshot snapshot now seconds policy = some status) :
    snapshot.currentStatus ≠ "maintenance" ∧
      ∃ t, snapshot.lastSeenAt = some t ∧ evaluateStatus (missedHeartbeats now t seconds) policy = status := by
  unfold desiredStatusForSnapshot at h
  split at h
  · cases h
  · exact ⟨by assumption, Option.map_eq_some_iff.1 h⟩

/-! ## The worker -/

/-- The statements of the worker, the heartbeats that the hub records and the operator's change. -/
inductive StatusCall where
  | selectNodes
  | updateStatus (nodeId : Uuid) (status : NodeStatus)
  | recordHeartbeat (heartbeat : HeartbeatRecord)
  | setMaintenance (nodeId : Uuid)
  deriving DecidableEq, Repr

/-- The answer to each call. -/
@[reducible] def StatusCall.Ans : StatusCall → Type
  | .selectNodes => List NodeSnapshot
  | .updateStatus _ _ | .recordHeartbeat _ | .setMaintenance _ => Unit

abbrev statusSig : Sig := ⟨StatusCall, StatusCall.Ans⟩

/-- The row of a node. -/
def NodeRecord.snapshot (nodeId : Uuid) (node : NodeRecord) : NodeSnapshot where
  nodeId := nodeId
  nodeCode := node.identity.nodeCode
  currentStatus := nodeStatusName node.identity.status
  lastSeenAt := node.runtime.lastSeenAt

/-- The rows of all nodes by their codes. -/
def selectNodes (s : MemoryState) : List NodeSnapshot :=
  (s.nodes.toList.map fun row => row.2.snapshot row.1).insertionSort fun l r => l.nodeCode ≤ r.nodeCode

/-- `UPDATE nodes SET status`. -/
def updateNodeStatus (nodeId : Uuid) (status : NodeStatus) (s : MemoryState) : MemoryState :=
  { s with nodes := s.nodes.modify nodeId fun node =>
      { node with identity := { node.identity with status := status } } }

/-- What each call does. -/
def statusHandler : Handler statusSig MemoryState := fun c s =>
  match c with
  | .selectNodes => (selectNodes s, s)
  | .updateStatus nodeId status => ((), updateNodeStatus nodeId status s)
  | .recordHeartbeat heartbeat => ((), s.recordHeartbeat heartbeat)
  | .setMaintenance nodeId => ((), updateNodeStatus nodeId .maintenance s)

structure ReconcileSummary where
  scanned : Nat
  changed : Nat
  unchanged : Nat
  skipped : Nat
  online : Nat
  suspect : Nat
  offline : Nat
  deriving DecidableEq, Repr

/-- One more node with a status. -/
def ReconcileSummary.count (summary : ReconcileSummary) : NodeStatus → ReconcileSummary
  | .online => { summary with online := summary.online + 1 }
  | .suspect => { summary with suspect := summary.suspect + 1 }
  | .offline => { summary with offline := summary.offline + 1 }
  | .pending | .maintenance => summary

section Reconcile

variable (now : DateTime) (expectedHeartbeatSeconds : Nat) (policy : HeartbeatPolicy)

/-- The loop of `reconcile_node_statuses`. -/
def reconcileLoop : List NodeSnapshot → ReconcileSummary → Prog statusSig ReconcileSummary
  | [], summary => .ret summary
  | snapshot :: snapshots, summary =>
    match desiredStatusForSnapshot snapshot now expectedHeartbeatSeconds policy with
    | none => reconcileLoop snapshots { summary with skipped := summary.skipped + 1 }
    | some nextStatus =>
      let summary := summary.count nextStatus
      if snapshot.currentStatus = nodeStatusName nextStatus then
        reconcileLoop snapshots { summary with unchanged := summary.unchanged + 1 }
      else
        .call (.updateStatus snapshot.nodeId nextStatus) fun _ =>
          reconcileLoop snapshots { summary with changed := summary.changed + 1 }

/-- `reconcile_node_statuses`. -/
def reconcileNodeStatuses : Prog statusSig ReconcileSummary :=
  .call .selectNodes fun (snapshots : List NodeSnapshot) =>
    reconcileLoop now expectedHeartbeatSeconds policy snapshots ⟨snapshots.length, 0, 0, 0, 0, 0, 0⟩

end Reconcile

/-- What runs on the node table. -/
inductive StatusRequest where
  | reconcile (now : DateTime) (expectedHeartbeatSeconds : Nat) (policy : HeartbeatPolicy)
  | heartbeat (heartbeat : HeartbeatRecord)
  | maintenance (nodeId : Uuid)
  deriving DecidableEq, Repr

/-- The program of each. -/
def statusProgram : StatusRequest → Prog statusSig Unit
  | .reconcile now expectedHeartbeatSeconds policy =>
    reconcileNodeStatuses now expectedHeartbeatSeconds policy >>= fun _ => .ret ()
  | .heartbeat heartbeat => .call (.recordHeartbeat heartbeat) fun _ => .ret ()
  | .maintenance nodeId => .call (.setMaintenance nodeId) fun _ => .ret ()

/-! ## What the worker writes -/

/-- A program under way: its request and the rows that it has read. -/
structure Watching where
  request : StatusRequest
  rows : List NodeSnapshot

namespace Watching

/-- What a call tells. -/
def next (c : StatusCall) (r : c.Ans) (g : Watching) : Watching :=
  match c, r with
  | .selectNodes, rows => { g with rows := rows }
  | _, _ => g

/-- A status is written for a row that was read, as decided on. -/
def Allows (g : Watching) : StatusCall → Prop
  | .updateStatus nodeId status => ∃ now seconds policy, g.request = .reconcile now seconds policy ∧
      ∃ row ∈ g.rows, row.nodeId = nodeId ∧ desiredStatusForSnapshot row now seconds policy = some status
  | _ => True

end Watching

/-- Statuses are written as decided on. -/
def watchSpec : Spec statusSig Watching := .protocol (fun c g => g.Allows c) Watching.next

theorem reconcileLoop_watch (now : DateTime) (seconds : Nat) (policy : HeartbeatPolicy) (rows : List NodeSnapshot)
    (summary : ReconcileSummary) {g : Watching} (hg : g.request = .reconcile now seconds policy)
    (hrows : ∀ row ∈ rows, row ∈ g.rows) :
    Prog.wp watchSpec (reconcileLoop now seconds policy rows summary) (fun _ _ => True) g := by
  induction rows generalizing summary with
  | nil => exact (Prog.wp_ret _).2 trivial
  | cons row rows ih =>
    have hrest : ∀ row ∈ rows, row ∈ g.rows := by
      intro row hrow
      exact hrows row (List.mem_cons_of_mem _ hrow)
    unfold reconcileLoop
    split
    · exact ih _ hrest
    · rename_i status hstatus
      dsimp only
      split
      · exact ih _ hrest
      · refine Prog.wp_call.2 ⟨?_, ?_⟩
        · exact ⟨now, seconds, policy, hg, row, hrows row List.mem_cons_self, rfl, hstatus⟩
        · rintro _ _ rfl
          exact ih _ hrest

/-- Every program writes statuses as decided on for the rows it has read. -/
theorem follows_watch (q : StatusRequest) : Prog.wp watchSpec (statusProgram q) (fun _ _ => True) ⟨q, []⟩ := by
  cases q with
  | reconcile now seconds policy =>
    refine (Prog.wp_bind _ _).2 (Prog.wp_call.2 ⟨trivial, ?_⟩)
    rintro rows _ rfl
    exact Prog.wp_mono (fun _ _ _ => (Prog.wp_ret _).2 trivial)
      (reconcileLoop_watch now seconds policy rows _ rfl fun row hrow => hrow)
  | heartbeat heartbeat => exact Prog.wp_call.2 ⟨trivial, fun _ _ _ => (Prog.wp_ret _).2 trivial⟩
  | maintenance nodeId => exact Prog.wp_call.2 ⟨trivial, fun _ _ _ => (Prog.wp_ret _).2 trivial⟩

/-! ## The condition -/

section Reads

variable {ι : Type} [DecidableEq ι]

/-- The rows that a program has read, after one more call of it. -/
def rowsRead (last : List NodeSnapshot) : Event statusSig ι → List NodeSnapshot
  | ⟨_, .selectNodes, rows⟩ => rows
  | _ => last

/-- The rows that a program has read. -/
def readRows (tr : List (Event statusSig ι)) : ι → List NodeSnapshot := Pool.seen rowsRead [] tr

/-- The nodes set to `maintenance` since a program has read the rows, after one more call. -/
def maintained (i : ι) (last : List Uuid) : Event statusSig ι → List Uuid
  | ⟨j, .selectNodes, _⟩ => if j = i then [] else last
  | ⟨_, .setMaintenance nodeId, _⟩ => nodeId :: last
  | _ => last

/-- The nodes set to `maintenance` since a program has read the rows. -/
def maintainedSince (tr : List (Event statusSig ι)) (i : ι) : List Uuid := tr.foldl (maintained i) []

@[simp] theorem maintainedSince_concat (tr : List (Event statusSig ι)) (e : Event statusSig ι) (i : ι) :
    maintainedSince (tr ++ [e]) i = maintained i (maintainedSince tr i) e := by
  simp [maintainedSince]

/-- The status that a call writes. -/
def StatusCall.written : StatusCall → Option (Uuid × NodeStatus)
  | .updateStatus nodeId status => some (nodeId, status)
  | _ => none

/-- The node of a status that is written has not been set to `maintenance` since its row was read; and if the node is
written off, it was last seen when the row says. -/
def RowKept (P : Pool statusSig Unit ι MemoryState) : Move ι StatusRequest → Prop
  | .spawn _ _ => True
  | .go i => ∀ w ∈ (P.next i).bind StatusCall.written, w.1 ∉ maintainedSince P.trace i ∧
      (w.2 = .suspect ∨ w.2 = .offline → ∀ row ∈ readRows P.trace i, row.nodeId = w.1 →
        ∀ node ∈ P.state.nodes[w.1]?, node.runtime.lastSeenAt = row.lastSeenAt)

instance (P : Pool statusSig Unit ι MemoryState) : DecidablePred (RowKept P)
  | .spawn _ _ => inferInstanceAs (Decidable True)
  | .go i => inferInstanceAs (Decidable (∀ w ∈ (P.next i).bind StatusCall.written, w.1 ∉ maintainedSince P.trace i ∧
      (w.2 = .suspect ∨ w.2 = .offline → ∀ row ∈ readRows P.trace i, row.nodeId = w.1 →
        ∀ node ∈ P.state.nodes[w.1]?, node.runtime.lastSeenAt = row.lastSeenAt)))

/-- A status that is written for a stored node replaces no `maintenance`, and `suspect` and `offline` are what the last
heartbeat of the stored node gives. -/
def Justified (ms : List (Move ι StatusRequest)) (P : Pool statusSig Unit ι MemoryState) : Move ι StatusRequest → Prop
  | .spawn _ _ => True
  | .go i => ∀ nodeId status, P.next i = some (.updateStatus nodeId status) →
      ∀ node, P.state.nodes[nodeId]? = some node → ∀ now seconds policy,
      Pool.asked ms i = some (.reconcile now seconds policy) → node.identity.status ≠ .maintenance ∧
        (status = .suspect ∨ status = .offline → ∃ t, node.runtime.lastSeenAt = some t ∧
          evaluateStatus (missedHeartbeats now t seconds) policy = status)

end Reads

/-! ## The invariant -/

section Invariant

variable {ι : Type} [DecidableEq ι] (q : ι → Option StatusRequest)

/-- Programs know what they have read, and a node that was not in maintenance is not, unless it has been set to it. -/
structure WatchInv (g : ι → Option Watching) (s : MemoryState) (tr : List (Event statusSig ι)) : Prop where
  request : ∀ i gi, g i = some gi → q i = some gi.request
  rows : ∀ i, ((g i).map Watching.rows).getD [] = readRows tr i
  kept : ∀ i gi, g i = some gi → ∀ row ∈ gi.rows, row.currentStatus ≠ "maintenance" →
    row.nodeId ∉ maintainedSince tr i → ∀ node, s.nodes[row.nodeId]? = some node → node.identity.status ≠ .maintenance

variable {q} {g : ι → Option Watching} {s : MemoryState} {tr : List (Event statusSig ι)} {i : ι} {gi : Watching}

theorem mem_selectNodes {row : NodeSnapshot} (h : row ∈ selectNodes s) :
    ∃ node, s.nodes[row.nodeId]? = some node ∧ row.currentStatus = nodeStatusName node.identity.status := by
  have h := (List.perm_insertionSort _ _).mem_iff.1 h
  obtain ⟨⟨k, node⟩, hk, rfl⟩ := List.mem_map.1 h
  exact ⟨node, Std.ExtTreeMap.mem_toList_iff_getElem?_eq_some.1 hk, rfl⟩

theorem status_of_update {nodeId k : Uuid} {status : NodeStatus} {node : NodeRecord}
    (h : (updateNodeStatus nodeId status s).nodes[k]? = some node) :
    node.identity.status = status ∧ k = nodeId ∨ s.nodes[k]? = some node ∧ k ≠ nodeId := by
  rcases Maps.getElem?_modify_eq_some h with ⟨rfl, old, -, rfl⟩ | ⟨hne, hk⟩
  · exact .inl ⟨rfl, rfl⟩
  · exact .inr ⟨hk, hne⟩

theorem status_of_heartbeat {heartbeat : HeartbeatRecord} {k : Uuid} {node : NodeRecord}
    (h : (s.recordHeartbeat heartbeat).nodes[k]? = some node) (hm : node.identity.status = .maintenance) :
    ∃ old, s.nodes[k]? = some old ∧ old.identity.status = .maintenance := by
  rcases Maps.getElem?_modify_eq_some h with ⟨rfl, old, hold, rfl⟩ | ⟨-, hk⟩
  · refine ⟨old, hold, ?_⟩
    by_contra hne
    simp [hne] at hm
  · exact ⟨node, hk, hm⟩

/-- A call that reads no rows and sets no node to `maintenance` keeps the invariant if it keeps nodes out of it. -/
theorem WatchInv.quiet (h : WatchInv q g s tr) (hi : g i = some gi) {c : StatusCall} {r : c.Ans} {s' : MemoryState}
    (hnext : gi.next c r = gi) (hread : ∀ last, rowsRead last ⟨i, c, r⟩ = last)
    (hset : ∀ j last, maintained j last ⟨i, c, r⟩ = last)
    (hs : ∀ (k : Uuid) node, s'.nodes[k]? = some node → node.identity.status = .maintenance →
      ∃ old, s.nodes[k]? = some old ∧ old.identity.status = .maintenance) :
    WatchInv q (Function.update g i (some (gi.next c r))) s' (tr ++ [⟨i, c, r⟩]) := by
  have hrows : readRows (tr ++ [⟨i, c, r⟩]) = readRows tr := by
    unfold readRows
    rw [Pool.seen_concat, hread]
    exact Function.update_eq_self ..
  rw [hnext, show Function.update g i (some gi) = g from Function.update_eq_self_iff.2 hi.symm]
  refine ⟨h.request, ?_, ?_⟩
  · rw [hrows]
    exact h.rows
  · intro j gj hj row hrow hstatus hsince node hnode hm
    rw [maintainedSince_concat, hset] at hsince
    obtain ⟨old, hold, hmold⟩ := hs row.nodeId node hnode hm
    exact h.kept j gj hj row hrow hstatus hsince old hold hmold

/-- The rows are read. -/
theorem WatchInv.read (h : WatchInv q g s tr) (hi : g i = some gi) :
    WatchInv q (Function.update g i (some (gi.next .selectNodes (selectNodes s)))) s
      (tr ++ [⟨i, .selectNodes, selectNodes s⟩]) := by
  have hother : ∀ j, j ≠ i → maintainedSince (tr ++ [⟨i, .selectNodes, selectNodes s⟩]) j = maintainedSince tr j := by
    intro j hj
    rw [maintainedSince_concat]
    exact if_neg (Ne.symm hj)
  refine ⟨Pool.forall_update (h.request i gi hi) h.request, ?_, ?_⟩
  · unfold readRows
    rw [Pool.seen_concat]
    intro j
    by_cases hji : j = i
    · subst hji
      simp [Watching.next, rowsRead]
    · rw [Function.update_of_ne hji, Function.update_of_ne hji]
      exact h.rows j
  · refine Pool.forall_update_ne ?_ fun j gj hji hj => ?_
    · intro row hrow hstatus _ node hnode hm
      obtain ⟨node', hnode', hname⟩ := mem_selectNodes hrow
      obtain rfl : node' = node := Option.some.inj (hnode'.symm.trans hnode)
      rw [hname, hm] at hstatus
      exact hstatus rfl
    · rw [hother j hji]
      exact h.kept j gj hj

/-- A node is set to `maintenance`. -/
theorem WatchInv.setMaintenance (h : WatchInv q g s tr) (hi : g i = some gi) (nodeId : Uuid) :
    WatchInv q (Function.update g i (some (gi.next (.setMaintenance nodeId) ())))
      (updateNodeStatus nodeId .maintenance s) (tr ++ [⟨i, .setMaintenance nodeId, ()⟩]) := by
  have hrows : readRows (tr ++ [⟨i, .setMaintenance nodeId, ()⟩]) = readRows tr := by
    unfold readRows
    rw [Pool.seen_concat]
    exact Function.update_eq_self ..
  show WatchInv q (Function.update g i (some gi)) _ _
  rw [show Function.update g i (some gi) = g from Function.update_eq_self_iff.2 hi.symm]
  refine ⟨h.request, ?_, ?_⟩
  · rw [hrows]
    exact h.rows
  · intro j gj hj row hrow hstatus hsince node hnode
    have hsince : row.nodeId ∉ nodeId :: maintainedSince tr j := by
      rw [maintainedSince_concat] at hsince
      exact hsince
    rw [List.mem_cons, not_or] at hsince
    rcases status_of_update hnode with ⟨-, e⟩ | ⟨hold, -⟩
    · exact absurd e hsince.1
    · exact h.kept j gj hj row hrow hstatus hsince.2 node hold

/-- A call keeps the invariant. -/
theorem WatchInv.call (h : WatchInv q g s tr) (hi : g i = some gi) {c : StatusCall} (hc : gi.Allows c) :
    WatchInv q (Function.update g i (some (gi.next c (statusHandler c s).1))) (statusHandler c s).2
      (tr ++ [⟨i, c, (statusHandler c s).1⟩]) := by
  cases c with
  | selectNodes => exact h.read hi
  | setMaintenance nodeId => exact h.setMaintenance hi nodeId
  | recordHeartbeat heartbeat =>
    exact h.quiet hi rfl (fun _ => rfl) (fun _ _ => rfl) fun k node hk hm => status_of_heartbeat hk hm
  | updateStatus nodeId status =>
    refine h.quiet hi rfl (fun _ => rfl) (fun _ _ => rfl) fun k node hk hm => ?_
    obtain ⟨now, seconds, policy, -, row, -, -, hdesired⟩ := hc
    obtain ⟨-, t, -, hstatus⟩ := desiredStatusForSnapshot_eq_some hdesired
    rcases status_of_update hk with ⟨hnew, -⟩ | ⟨hold, -⟩
    · rw [hnew] at hm
      exact absurd (hstatus.trans hm) (evaluateStatus_ne_maintenance _ _)
    · exact ⟨node, hold, hm⟩

/-- A program starts. -/
theorem WatchInv.spawn (h : WatchInv q g s tr) (hi : g i = none) {request : StatusRequest} (hq : q i = some request) :
    WatchInv q (Function.update g i (some ⟨request, []⟩)) s tr := by
  refine ⟨Pool.forall_update hq h.request, ?_, Pool.forall_update ?_ h.kept⟩
  · intro j
    rw [← h.rows j]
    by_cases hji : j = i
    · subst hji
      simp [hi]
    · rw [Function.update_of_ne hji]
  · intro row hrow
    cases hrow

/-- A status that is written for a row which is kept is justified. -/
theorem WatchInv.justified (h : WatchInv q g s tr) (hi : g i = some gi) {nodeId : Uuid} {status : NodeStatus}
    (hc : gi.Allows (.updateStatus nodeId status)) (hsince : nodeId ∉ maintainedSince tr i)
    (hseen : status = .suspect ∨ status = .offline → ∀ row ∈ readRows tr i, row.nodeId = nodeId →
      ∀ node ∈ s.nodes[nodeId]?, node.runtime.lastSeenAt = row.lastSeenAt)
    {node : NodeRecord} (hnode : s.nodes[nodeId]? = some node) {now : DateTime} {seconds : Nat}
      {policy : HeartbeatPolicy}
    (hq : q i = some (.reconcile now seconds policy)) : node.identity.status ≠ .maintenance ∧
      (status = .suspect ∨ status = .offline → ∃ t, node.runtime.lastSeenAt = some t ∧
        evaluateStatus (missedHeartbeats now t seconds) policy = status) := by
  obtain ⟨now', seconds', policy', hrequest, row, hrow, rfl, hdesired⟩ := hc
  have hsame := Option.some.inj ((h.request i gi hi).symm.trans hq)
  rw [hrequest] at hsame
  cases hsame
  obtain ⟨hstatus, t, ht, hdecided⟩ := desiredStatusForSnapshot_eq_some hdesired
  constructor
  · exact h.kept i gi hi row hrow hstatus hsince node hnode
  · intro hoff
    have hread : row ∈ readRows tr i := by
      rw [← h.rows i, hi]
      exact hrow
    exact ⟨t, (hseen hoff row hread rfl node hnode).trans ht, hdecided⟩

end Invariant

/-! ## Runs -/

section Runs

variable {ι : Type} [DecidableEq ι] {ms : List (Move ι StatusRequest)}

theorem spawn_keeps_watch :
    Pool.SpawnKeeps statusProgram watchSpec (WatchInv (Pool.asked ms)) (fun _ _ => True)
      (fun P m => Pool.AsAsked ms P m ∧ RowKept P m) := by
  intro P g i request hadm hi hF
  exact ⟨⟨request, []⟩, follows_watch request, hF.inv.spawn (hF.fresh i hi) (hadm.1 hi)⟩

theorem call_keeps_watch :
    Pool.CallKeeps statusHandler watchSpec (WatchInv (Pool.asked ms)) (fun (_ : Unit) _ => True)
      (fun P m => Pool.AsAsked ms P m ∧ RowKept P m) := by
  intro P g i c k gi _ _ hgi hok hF
  exact ⟨_, rfl, hF.inv.call hgi hok⟩

/-- From any node table, in every run in which the rows are kept that statuses are written for, every status that the
worker writes is justified. -/
theorem statuses_justified (s : MemoryState)
    (hms : Pool.Admits statusHandler statusProgram RowKept (Pool.init s) ms) :
    Pool.Admits statusHandler statusProgram (Justified ms) (Pool.init s) ms := by
  have hinit : WatchInv (Pool.asked ms) (fun _ : ι => none) s [] :=
    ⟨fun _ _ e => by (cases e), fun _ => rfl, fun _ _ e => by (cases e)⟩
  refine Pool.admits_of_fits spawn_keeps_watch call_keeps_watch ?_ (Pool.fits_init hinit) ms
    (Pool.admits_and _ _ (Pool.admits_asked _ _ s ms) hms)
  intro P g m hadm hF
  cases m with
  | spawn i request => trivial
  | go i =>
    intro nodeId status hnext node hnode now seconds policy hq
    -- the program that writes the status, and what it has read
    cases hi : P.threads i with
    | none => simp [Pool.next, hi] at hnext
    | some a =>
      cases a with
      | ret u => simp [Pool.next, hi] at hnext
      | call c k =>
        obtain rfl : c = .updateStatus nodeId status := by simpa [Pool.next, hi] using hnext
        obtain ⟨gi, hgi, hw⟩ := hF.follows i _ hi
        have hkept := hadm.2 (nodeId, status) (by rw [hnext]; rfl)
        exact hF.inv.justified hgi (Prog.wp_call.1 hw).1 hkept.1 hkept.2 hnode hq

end Runs

/-- A node that was last seen at the beginning. -/
def silentNode : NodeRecord where
  identity := { id := 7, nodeCode := "edge-1", name := "edge-1", region := "eu", idc := "a", status := .online }
  runtime := { activeConfigVersion := none, lastSeenAt := some 0, siteCount := 0, healthScore := 100 }
  labels := .null
  hostname := none
  publicIp := none
  privateIp := none
  bootstrapToken := none
  pingoraVersion := none
  agentVersion := none

/-- A table with that node. -/
def silentTable : MemoryState := { MemoryState.empty with nodes := MemoryState.empty.nodes.insert 7 silentNode }

/-- The worker after two minutes, and a heartbeat that has come in a second before. -/
def lateReport : List (Move Nat StatusRequest) :=
  [.spawn 0 (.reconcile (DateTime.seconds 120) 15 .default),
    .spawn 1 (.heartbeat {
      nodeId := 7, pingoraVersion := "1", agentVersion := "1", activeConfigVersion := none, siteCount := 0
      healthScore := 100, reportedAt := DateTime.seconds 119 })]

/-- A node that does not report is written off, and reports later. -/
theorem statuses_justified_silent :
    (Pool.exec statusHandler statusProgram (Pool.init silentTable)
        (lateReport ++ [Move.go 0, .go 0])).state.nodes[7]?.map (fun node : NodeRecord => node.identity.status) =
      some .offline ∧
      Pool.Admits statusHandler statusProgram (Justified (lateReport ++ [Move.go 0, .go 0, .go 1]))
        (Pool.init silentTable) (lateReport ++ [Move.go 0, .go 0, .go 1]) :=
  ⟨by decide +kernel, statuses_justified silentTable (by decide +kernel)⟩

/-- A node that reports between the reading of its row and the writing of its status is written off. -/
theorem reported_node_written_off :
    ¬ Pool.Admits statusHandler statusProgram (Justified (lateReport ++ [Move.go 0, .go 1, .go 0]))
      (Pool.init silentTable) (lateReport ++ [Move.go 0, .go 1, .go 0]) := by
  intro h
  have hwrite := h.2.2.2.2.1
  have hseen : (Pool.exec statusHandler statusProgram (Pool.init silentTable)
      (lateReport ++ [Move.go 0, .go 1])).state.nodes[7]?.map (·.runtime.lastSeenAt) = some
        (some (DateTime.seconds 119)) := by
    decide +kernel
  obtain ⟨node, hnode, hlast⟩ := Option.map_eq_some_iff.1 hseen
  obtain ⟨-, hoff⟩ := hwrite 7 .offline (by decide +kernel) node hnode (DateTime.seconds 120) 15 .default rfl
  obtain ⟨t, ht, hstatus⟩ := hoff (.inr rfl)
  obtain rfl : t = DateTime.seconds 119 := Option.some.inj (ht.symm.trans hlast)
  exact absurd hstatus (by decide)

end PingoraMesh
