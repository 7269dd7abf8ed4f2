import PingoraMesh.Hub.Registration
import PingoraMesh.Lib.Ledger

/-!
# Requests that write one node

Heartbeats, acknowledgements of releases and deletions of one node run at once. A heartbeat changes the stored record in
place and a deletion removes it; an acknowledgement writes a whole record back that it has read before.

* `heartbeat_tree`, `ack_tree` and `delete_tree` are the calls that these requests make, for given times;
* `node_writes_serial`: in every run in which the record that an acknowledgement writes back is still stored, but for
  what acknowledgements write, the node ends as after some serial order of the requests, and once a deletion has
  succeeded the node is gone;
* `ack_restores_node`: an acknowledgement brings a deleted node back.
-/

namespace PingoraMesh

open Calls Fallible HubService

/-! ## Requests and their times -/

/-- A request, with the times that it reads from the clock. -/
structure TimedRequest where
  hub : Hub
  request : Request
  times : Nat → DateTime

/-- The readings of the clock come from `times`. -/
def readings (times : Nat → DateTime) (c : HubCall) (n : Nat) : Option c.Ans :=
  match c with
  | .utcNow => some (times n)
  | _ => none

/-- The calls of a request other than its readings of the clock. -/
def timedProgram (p : Platform) (t : TimedRequest) : Prog hubSig (Except AppError Unit) :=
  Prog.answering (readings t.times) (hubProgram p (t.hub, t.request)) 0

/-- The requests one after another, each with its times. -/
def World.inOrder (p : Platform) (w : World) (ts : List TimedRequest) : World :=
  ts.foldl (fun w t => (Prog.run (hubHandler p) (timedProgram p t) w).2) w

/-- Heartbeats, acknowledgements and deletions of a node. -/
def Request.OnNode (nodeId : Uuid) : Request → Prop
  | .nodeHeartbeat r => r.nodeId = nodeId
  | .ackRelease _ r => r.nodeId = nodeId
  | .deleteNode id => id = nodeId
  | _ => False

/-! ## The calls of the three requests -/

/-- The heartbeat that a request records. -/
def NodeHeartbeatRequest.record (r : NodeHeartbeatRequest) (now : DateTime) : HeartbeatRecord where
  nodeId := r.nodeId
  pingoraVersion := r.pingoraVersion
  agentVersion := r.agentVersion
  activeConfigVersion := r.activeConfigVersion
  siteCount := r.siteCount
  healthScore := r.healthScore
  reportedAt := now

/-- The acknowledgement that a request records. -/
def ReleaseAckRequest.record (r : ReleaseAckRequest) (now : DateTime) : NodeAckRecord where
  applyStatus := r.applyStatus
  currentVersion := some r.currentVersion
  message := r.message
  ackedAt := some now

/-- A node after an acknowledgement. -/
def NodeRecord.acked (node : NodeRecord) (version : String) (now : DateTime) : NodeRecord :=
  { node with runtime := { node.runtime with activeConfigVersion := some version, lastSeenAt := some now } }

/-- The release exists and has the node among its targets. -/
def Targets (nodeId : Uuid) (release : Option ReleaseRecord) : Bool :=
  release.any fun r => r.targetNodeIds.contains nodeId

/-- What stops a deletion. -/
def NodeDeleteGuard.Refuses (guard : NodeDeleteGuard) : Bool :=
  !guard.boundSiteCodes.isEmpty || guard.failoverPolicyCount != 0

section Trees

variable (p : Platform) (hub : Hub) (ts : Nat → DateTime)

theorem heartbeat_tree (r : NodeHeartbeatRequest) :
    timedProgram p ⟨hub, .nodeHeartbeat r, ts⟩ = .call (.node r.nodeId) fun (node : Option NodeRecord) =>
      match node with
      | none => .ret (.error (.notFound "node not found"))
      | some _ => .call (.recordHeartbeat (r.record (ts 0))) fun _ => .ret (.ok ()) := by
  refine congrArg (Prog.call (S := hubSig) (.node r.nodeId)) (funext fun node => ?_)
  cases node with
  | none => rfl
  | some _ => rfl

theorem ack_tree (releaseId : Uuid) (r : ReleaseAckRequest) :
    timedProgram p ⟨hub, .ackRelease releaseId r, ts⟩ = .call (.release releaseId)
      fun (release : Option ReleaseRecord) =>
      match release with
      | none => .ret (.error (.notFound "release not found"))
      | some release =>
        if release.targetNodeIds.contains r.nodeId then
          .call (.updateReleaseAck releaseId r.nodeId (r.record (ts 0))) fun _ =>
            .call (.node r.nodeId) fun (node : Option NodeRecord) =>
              match node with
              | none => .ret (.ok ())
              | some node => .call (.saveNode (node.acked r.currentVersion (ts 1))) fun _ => .ret (.ok ())
        else .ret (.error (.unauthorized "node is not a target of this release")) := by
  refine congrArg (Prog.call (S := hubSig) (.release releaseId)) (funext fun release => ?_)
  cases release with
  | none => rfl
  | some release =>
    -- the check as a variable, so that both of its outcomes can be computed
    suffices key : ∀ b : Bool, Prog.answering (readings ts) (ExceptT.run (discard (do
        ensure b (.unauthorized "node is not a target of this release")
        let now ← repo .utcNow
        repo (.updateReleaseAck releaseId r.nodeId (r.record now))
        forSome (← repo (.node r.nodeId)) fun node => do
          let now ← repo .utcNow
          repo (.saveNode (node.acked r.currentVersion now))
        pure (⟨releaseId, r.nodeId, r.applyStatus⟩ : ReleaseAckResponse) : HubM ReleaseAckResponse))) 0 =
        if b then
          .call (.updateReleaseAck releaseId r.nodeId (r.record (ts 0))) fun _ =>
            .call (.node r.nodeId) fun (node : Option NodeRecord) =>
              match node with
              | none => .ret (.ok ())
              | some node => .call (.saveNode (node.acked r.currentVersion (ts 1))) fun _ => .ret (.ok ())
        else .ret (.error (.unauthorized "node is not a target of this release")) from
      key (release.targetNodeIds.contains r.nodeId)
    intro b
    cases b with
    | false => rfl
    | true =>
      refine congrArg (Prog.call (S := hubSig) _) (funext fun _ => congrArg (Prog.call (S := hubSig) _)
        (funext fun node => ?_))
      cases node with
      | none => rfl
      | some node => rfl

theorem delete_tree (nodeId : Uuid) :
    timedProgram p ⟨hub, .deleteNode nodeId, ts⟩ = .call (.node nodeId) fun (node : Option NodeRecord) =>
      match node with
      | none => .ret (.error (.notFound "node not found"))
      | some _ => .call (.nodeDeleteGuard nodeId) fun (guard : NodeDeleteGuard) =>
        if guard.boundSiteCodes.isEmpty then
          if guard.failoverPolicyCount == 0 then
            .call (.revokeTokens nodeId) fun _ => .call (.deleteNode nodeId) fun _ => .ret (.ok ())
          else .ret (.error (.conflict ("node is still referenced by " ++
            String.ofList (Text.decimal guard.failoverPolicyCount) ++ " failover policy entries")))
        else .ret (.error (.conflict ("node is still bound to site(s): " ++ Text.join ", " guard.boundSiteCodes))) := by
  refine congrArg (Prog.call (S := hubSig) (.node nodeId)) (funext fun node => ?_)
  cases node with
  | none => rfl
  | some node =>
    refine congrArg (Prog.call (S := hubSig) (.nodeDeleteGuard nodeId)) (funext fun guard => ?_)
    obtain ⟨codes, count⟩ := guard
    cases codes with
    | nil =>
      cases count with
      | zero => rfl
      | succ n => rfl
    | cons code codes => rfl

end Trees

/-! ## What the requests make of the node -/

/-- A node after a heartbeat. -/
def NodeRecord.beaten (node : NodeRecord) (hb : HeartbeatRecord) : NodeRecord :=
  { node with
    identity := { node.identity with status := if node.identity.status = .maintenance then .maintenance else .online }
    pingoraVersion := some hb.pingoraVersion
    agentVersion := some hb.agentVersion
    runtime :=
      { activeConfigVersion := hb.activeConfigVersion
        siteCount := hb.siteCount
        healthScore := hb.healthScore
        lastSeenAt := some hb.reportedAt } }

/-- What a request makes of the record of its node, when it is checked against the world `w₀`. -/
def TimedRequest.effect (w₀ : World) (nodeId : Uuid) (t : TimedRequest) (record : Option NodeRecord) :
    Option NodeRecord :=
  match t.request with
  | .nodeHeartbeat r => record.map (·.beaten (r.record (t.times 0)))
  | .ackRelease releaseId r =>
    if Targets nodeId w₀.store.releases[releaseId]? then record.map (·.acked r.currentVersion (t.times 1)) else record
  | .deleteNode _ => if (w₀.store.nodeDeleteGuard nodeId).Refuses then record else none
  | _ => record

theorem TimedRequest.effect_none (w₀ : World) (nodeId : Uuid) (t : TimedRequest) : t.effect w₀ nodeId none = none := by
  unfold TimedRequest.effect
  split <;> first | rfl | (split <;> rfl)

/-- The checks of the requests come out as in `w₀`; only an acknowledgement of a node that is gone may come out another
way. -/
structure SameChecks (nodeId : Uuid) (w₀ w : World) : Prop where
  guard : w.store.nodeDeleteGuard nodeId = w₀.store.nodeDeleteGuard nodeId
  fewer : ∀ releaseId : Uuid, Targets nodeId w.store.releases[releaseId]? → Targets nodeId w₀.store.releases[releaseId]?
  same : w.store.nodes[nodeId]? ≠ none → ∀ releaseId : Uuid,
    Targets nodeId w₀.store.releases[releaseId]? → Targets nodeId w.store.releases[releaseId]?
  key : ∀ node, w.store.nodes[nodeId]? = some node → node.identity.id = nodeId

section Calls

variable {p : Platform} {nodeId : Uuid} {w₀ w : World}

theorem record_heartbeat {hb : HeartbeatRecord} (hn : hb.nodeId = nodeId) :
    (hubHandler p (.recordHeartbeat hb) w).2.store.nodes[nodeId]? =
      w.store.nodes[nodeId]?.map (·.beaten hb) := by
  subst hn
  exact Std.ExtTreeMap.getElem?_modify_self

theorem SameChecks.heartbeat (h : SameChecks nodeId w₀ w) {hb : HeartbeatRecord} (hn : hb.nodeId = nodeId) :
    SameChecks nodeId w₀ (hubHandler p (.recordHeartbeat hb) w).2 := by
  refine ⟨h.guard, h.fewer, fun hne => h.same fun e => hne ?_, fun node hnode => ?_⟩
  · rw [record_heartbeat hn, e]
    rfl
  · rw [record_heartbeat hn] at hnode
    obtain ⟨old, hold, rfl⟩ := Option.map_eq_some_iff.1 hnode
    exact h.key old hold

theorem SameChecks.releaseAck (h : SameChecks nodeId w₀ w) (releaseId node : Uuid) (ack : NodeAckRecord) :
    SameChecks nodeId w₀ (hubHandler p (.updateReleaseAck releaseId node ack) w).2 := by
  have htargets : ∀ id : Uuid,
      Targets nodeId (hubHandler p (.updateReleaseAck releaseId node ack) w).2.store.releases[id]? =
      Targets nodeId w.store.releases[id]? := by
    intro id
    simp only [hubHandler, World.write, MemoryState.updateReleaseAck, Std.ExtTreeMap.getElem?_modify, Targets]
    split
    · rename_i e
      rw [Std.compare_eq_iff_eq] at e
      rw [Option.any_map, e]
    · rfl
  refine ⟨h.guard, fun id => ?_, fun hne id => ?_, h.key⟩
  · rw [htargets]
    exact h.fewer id
  · rw [htargets]
    exact h.same hne id

theorem record_saveNode {node : NodeRecord} (hn : node.identity.id = nodeId) :
    (hubHandler p (.saveNode node) w).2.store.nodes[nodeId]? = some node := by
  subst hn
  exact Std.ExtTreeMap.getElem?_insert_self

theorem SameChecks.saveNode (h : SameChecks nodeId w₀ w) {node : NodeRecord} (hn : node.identity.id = nodeId)
    (hthere : w.store.nodes[nodeId]? ≠ none) : SameChecks nodeId w₀ (hubHandler p (.saveNode node) w).2 := by
  refine ⟨h.guard, h.fewer, fun _ => h.same hthere, fun node' hnode' => ?_⟩
  rw [record_saveNode hn] at hnode'
  cases hnode'
  exact hn

theorem record_deleteNode : (hubHandler p (.deleteNode nodeId) w).2.store.nodes[nodeId]? = none := by
  simp only [hubHandler, World.write, MemoryState.deleteNode]
  split
  · assumption
  · exact Std.ExtTreeMap.getElem?_erase_self

theorem SameChecks.deleteNode (h : SameChecks nodeId w₀ w) (hg : (w₀.store.nodeDeleteGuard nodeId).Refuses = false) :
    SameChecks nodeId w₀ (hubHandler p (.deleteNode nodeId) w).2 := by
  have hbound : (w.store.nodeDeleteGuard nodeId).boundSiteCodes = [] := by
    rw [h.guard]
    simp only [NodeDeleteGuard.Refuses, Bool.or_eq_false_iff, Bool.not_eq_false', List.isEmpty_iff] at hg
    exact hg.1
  have hguard : (hubHandler p (.deleteNode nodeId) w).2.store.nodeDeleteGuard nodeId =
    w.store.nodeDeleteGuard nodeId := by
    simp only [hubHandler, World.write, MemoryState.deleteNode]
    split
    · rfl
    · -- no site is bound to the node, before the bindings are cleared and after it
      have hcleared :
          ((w.store.sites.map fun _ site => { site with bindings := site.bindings.filter (·.nodeId != nodeId) }
          : HashMap Uuid SiteRecord).values.filter fun site => site.bindings.any (·.nodeId == nodeId)) = [] := by
        rw [Maps.values_map, List.filter_eq_nil_iff]
        intro site hsite
        obtain ⟨old, -, rfl⟩ := List.mem_map.1 hsite
        simp
      have heta : w.store.nodeDeleteGuard nodeId = ⟨[], (w.store.nodeDeleteGuard nodeId).failoverPolicyCount⟩ := by
        rw [← hbound]
      rw [heta]
      simp only [MemoryState.nodeDeleteGuard, hcleared]
      rfl
  have hnone : ∀ id : Uuid, Targets nodeId (hubHandler p (.deleteNode nodeId) w).2.store.releases[id]? →
      Targets nodeId w.store.releases[id]? := by
    intro id
    simp only [hubHandler, World.write, MemoryState.deleteNode]
    split
    · exact fun h => h
    · rw [Std.ExtTreeMap.getElem?_map, Targets, Option.any_map]
      cases w.store.releases[id]? with
      | none => exact fun h => h
      | some r => simp [MemoryState.dropTarget]
  refine ⟨hguard.trans h.guard, fun id hid => h.fewer id (hnone id hid), fun hne => absurd record_deleteNode hne,
    fun node hnode => ?_⟩
  rw [record_deleteNode] at hnode
  cases hnode

end Calls

/-! ## The steps of a request -/

/-- How far a request is: it has the record of its node in hand, or has had its effect. -/
inductive Stage where
  | begun
  | holding (record : NodeRecord)
  | done

/-- A request under way. -/
structure Doing where
  request : TimedRequest
  stage : Stage

/-- The stage after a call: a request has its effect when it writes the node, or when it finds out that it will not. -/
def Stage.next (nodeId : Uuid) (c : HubCall) (r : c.Ans) (stage : Stage) : Stage :=
  match c, r with
  | .node _, found => (found : Option NodeRecord).elim .done .holding
  | .release _, found => if Targets nodeId found then stage else .done
  | .nodeDeleteGuard _, guard => if (guard : NodeDeleteGuard).Refuses then .done else stage
  | .recordHeartbeat _, _ => .done
  | .saveNode _, _ => .done
  | .deleteNode _, _ => .done
  | _, _ => stage

section Spec

variable (w₀ : World) (nodeId : Uuid)

/-- What is asked of the calls of a request on a node. -/
def Doing.Allows (g : Doing) : HubCall → Prop
  | .node id => id = nodeId
  | .release releaseId => ∃ r, g.request.request = .ackRelease releaseId r
  | .updateReleaseAck _ _ _ => True
  | .saveNode record => ∃ releaseId r old, g.request.request = .ackRelease releaseId r ∧ g.stage = .holding old ∧
      record = old.acked r.currentVersion (g.request.times 1) ∧ Targets nodeId w₀.store.releases[releaseId]?
  | .nodeDeleteGuard id => id = nodeId ∧ g.request.request = .deleteNode nodeId
  | .revokeTokens _ => True
  | .deleteNode id => id = nodeId ∧ g.request.request = .deleteNode nodeId ∧
      (w₀.store.nodeDeleteGuard nodeId).Refuses = false
  | .recordHeartbeat hb => hb.nodeId = nodeId ∧
      ∃ r, g.request.request = .nodeHeartbeat r ∧ hb = r.record (g.request.times 0)
  | _ => False

/-- The answers come out as in `w₀`. -/
def Expected (c : HubCall) (r : c.Ans) : Prop :=
  match c, r with
  | .release releaseId, found => Targets nodeId found → Targets nodeId w₀.store.releases[releaseId]?
  | .nodeDeleteGuard _, guard => guard = w₀.store.nodeDeleteGuard nodeId
  | _, _ => True

/-- A request on a node makes its calls in turn, and none after its effect. -/
def nodeSpec : Spec hubSig Doing where
  ok c g := g.stage ≠ .done ∧ g.Allows w₀ nodeId c
  can c g r g' := Expected w₀ nodeId c r ∧ g' = ⟨g.request, g.stage.next nodeId c r⟩

/-- A request that has returned has had its effect, and a deletion that has succeeded was not refused. -/
def Doing.Returns (r : Except AppError Unit) (g : Doing) : Prop :=
  g.stage = .done ∧ (r = .ok () → g.request.request = .deleteNode nodeId →
    (w₀.store.nodeDeleteGuard nodeId).Refuses = false)

variable {w₀ nodeId} (p : Platform)

/-- The three requests follow the specification. -/
theorem follows_node (t : TimedRequest) (ht : t.request.OnNode nodeId) :
    Prog.wp (nodeSpec w₀ nodeId) (timedProgram p t) (Doing.Returns w₀ nodeId) ⟨t, .begun⟩ := by
  obtain ⟨hub, r, ts⟩ := t
  cases r with
  | nodeHeartbeat r =>
    obtain rfl : r.nodeId = nodeId := ht
    rw [heartbeat_tree]
    refine Prog.wp_call.2 ⟨⟨nofun, rfl⟩, ?_⟩
    rintro (_ | node) _ ⟨-, rfl⟩
    · exact (Prog.wp_ret _).2 ⟨rfl, nofun⟩
    · refine Prog.wp_call.2 ⟨⟨nofun, rfl, r, rfl, rfl⟩, ?_⟩
      rintro _ _ ⟨-, rfl⟩
      exact (Prog.wp_ret _).2 ⟨rfl, nofun⟩
  | ackRelease releaseId r =>
    obtain rfl : r.nodeId = nodeId := ht
    rw [ack_tree]
    refine Prog.wp_call.2 ⟨⟨nofun, r, rfl⟩, ?_⟩
    rintro (_ | release) _ ⟨hexp, rfl⟩
    · exact (Prog.wp_ret _).2 ⟨rfl, nofun⟩
    · dsimp only
      split
      · rename_i htarget
        have hstage : Stage.next r.nodeId (.release releaseId) (some release) .begun = .begun := if_pos htarget
        rw [hstage]
        refine Prog.wp_call.2 ⟨⟨nofun, trivial⟩, ?_⟩
        rintro _ _ ⟨-, rfl⟩
        refine Prog.wp_call.2 ⟨⟨nofun, rfl⟩, ?_⟩
        rintro (_ | node) _ ⟨-, rfl⟩
        · exact (Prog.wp_ret _).2 ⟨rfl, nofun⟩
        · refine Prog.wp_call.2 ⟨⟨nofun, releaseId, r, node, rfl, rfl, rfl, hexp htarget⟩, ?_⟩
          rintro _ _ ⟨-, rfl⟩
          exact (Prog.wp_ret _).2 ⟨rfl, nofun⟩
      · rename_i htarget
        exact (Prog.wp_ret _).2 ⟨if_neg htarget, nofun⟩
  | deleteNode id =>
    obtain rfl : id = nodeId := ht
    rw [delete_tree]
    refine Prog.wp_call.2 ⟨⟨nofun, rfl⟩, ?_⟩
    rintro (_ | node) _ ⟨-, rfl⟩
    · exact (Prog.wp_ret _).2 ⟨rfl, nofun⟩
    · refine Prog.wp_call.2 ⟨⟨nofun, rfl, rfl⟩, ?_⟩
      rintro guard _ ⟨rfl, rfl⟩
      split
      · rename_i hbound
        split
        · rename_i hcount
          have hfree : (w₀.store.nodeDeleteGuard id).Refuses = false := by
            rw [NodeDeleteGuard.Refuses, hbound, bne, hcount]
            rfl
          have hstage : Stage.next id (.nodeDeleteGuard id) (w₀.store.nodeDeleteGuard id) (.holding node) =
              .holding node := if_neg (by rw [hfree]; decide)
          change Prog.wp _ _ _
            (⟨_, Stage.next id (.nodeDeleteGuard id) (w₀.store.nodeDeleteGuard id) (.holding node)⟩ : Doing)
          rw [hstage]
          refine Prog.wp_call.2 ⟨⟨nofun, trivial⟩, ?_⟩
          rintro _ _ ⟨-, rfl⟩
          refine Prog.wp_call.2 ⟨⟨nofun, rfl, rfl, hfree⟩, ?_⟩
          rintro _ _ ⟨-, rfl⟩
          exact (Prog.wp_ret _).2 ⟨rfl, fun _ _ => hfree⟩
        · rename_i hcount
          refine (Prog.wp_ret _).2 ⟨if_pos ?_, nofun⟩
          rw [NodeDeleteGuard.Refuses, bne, Bool.eq_false_of_not_eq_true hcount, Bool.not_false, Bool.or_true]
      · rename_i hbound
        refine (Prog.wp_ret _).2 ⟨if_pos ?_, nofun⟩
        rw [NodeDeleteGuard.Refuses, Bool.eq_false_of_not_eq_true hbound, Bool.not_false, Bool.true_or]
  | _ => exact ht.elim

end Spec

section Step

variable {p : Platform} {nodeId : Uuid} {w₀ w : World} {g : Doing}

/-- A record without what acknowledgements write. -/
def NodeRecord.unacked (node : NodeRecord) : NodeRecord :=
  { node with runtime := { node.runtime with activeConfigVersion := none, lastSeenAt := none } }

theorem acked_congr {node node' : NodeRecord} (h : node.unacked = node'.unacked) (version : String) (now : DateTime) :
    node.acked version now = node'.acked version now := by
  have hacked : ∀ n : NodeRecord, n.acked version now = { n.unacked with
      runtime := { n.unacked.runtime with activeConfigVersion := some version, lastSeenAt := some now } } :=
    fun _ => rfl
  rw [hacked, hacked, h]

/-- What one call does, if the record that an acknowledgement writes back is still the stored one, but for what
acknowledgements write: the checks stay as they are, the answer is as expected, and the record changes by the effect of
the request when it is done, and not at all before. -/
structure NodeStep (p : Platform) (nodeId : Uuid) (w₀ w : World) (g : Doing) (c : HubCall) : Prop where
  checks : SameChecks nodeId w₀ (hubHandler p c w).2
  expected : Expected w₀ nodeId c (hubHandler p c w).1
  record : (g.stage.next nodeId c (hubHandler p c w).1 = .done ∧
      (hubHandler p c w).2.store.nodes[nodeId]? = g.request.effect w₀ nodeId w.store.nodes[nodeId]?) ∨
    (g.stage.next nodeId c (hubHandler p c w).1 ≠ .done ∧
      (hubHandler p c w).2.store.nodes[nodeId]? = w.store.nodes[nodeId]?)

theorem node_step (h : SameChecks nodeId w₀ w) {c : HubCall} (hok : (nodeSpec w₀ nodeId).ok c g)
    (hcond : ∀ record ∈ c.savedNode, ∀ old, g.stage = .holding old →
      old.identity.id = nodeId ∧ w.store.nodes[nodeId]?.map NodeRecord.unacked = some old.unacked) :
    NodeStep p nodeId w₀ w g c := by
  obtain ⟨hstage, hallows⟩ := hok
  cases c with
  | node id =>
    obtain rfl : id = nodeId := hallows
    refine ⟨h, trivial, ?_⟩
    change ((w.store.nodes[id]?.elim .done .holding : Stage) = .done ∧ _ = g.request.effect w₀ id w.store.nodes[id]?) ∨
      ((w.store.nodes[id]?.elim .done .holding : Stage) ≠ .done ∧ _)
    change (_ ∧ w.store.nodes[id]? = _) ∨ (_ ∧ w.store.nodes[id]? = w.store.nodes[id]?)
    cases w.store.nodes[id]? with
    | none => exact .inl ⟨rfl, (TimedRequest.effect_none w₀ id g.request).symm⟩
    | some node => exact .inr ⟨nofun, rfl⟩
  | release releaseId =>
    obtain ⟨r, hr⟩ := hallows
    refine ⟨h, h.fewer releaseId, ?_⟩
    by_cases ht : Targets nodeId w.store.releases[releaseId]?
    · exact .inr ⟨fun e => hstage (by rw [← e]; exact (if_pos ht).symm), rfl⟩
    · refine .inl ⟨if_neg ht, ?_⟩
      change w.store.nodes[nodeId]? = _
      -- the release targets the node in `w₀` only if the node is gone
      cases hnode : w.store.nodes[nodeId]? with
      | none => exact (TimedRequest.effect_none w₀ nodeId g.request).symm
      | some node =>
        rw [TimedRequest.effect, hr]
        exact (if_neg fun ht₀ => ht (h.same (by rw [hnode]; exact nofun) releaseId ht₀)).symm
  | updateReleaseAck releaseId id ack => exact ⟨h.releaseAck releaseId id ack, trivial, .inr ⟨hstage, rfl⟩⟩
  | revokeTokens id => exact ⟨⟨h.guard, h.fewer, h.same, h.key⟩, trivial, .inr ⟨hstage, rfl⟩⟩
  | nodeDeleteGuard id =>
    obtain ⟨rfl, hr⟩ := hallows
    refine ⟨h, h.guard, ?_⟩
    by_cases hg : (w.store.nodeDeleteGuard id).Refuses
    · refine .inl ⟨if_pos hg, ?_⟩
      rw [TimedRequest.effect, hr]
      exact (if_pos (h.guard ▸ hg)).symm
    · exact .inr ⟨fun e => hstage (by rw [← e]; exact (if_neg hg).symm), rfl⟩
  | recordHeartbeat hb =>
    obtain ⟨hn, r, hr, rfl⟩ := hallows
    refine ⟨h.heartbeat hn, trivial, .inl ⟨rfl, (record_heartbeat hn).trans ?_⟩⟩
    rw [TimedRequest.effect, hr]
  | saveNode record =>
    obtain ⟨releaseId, r, old, hr, hold, rfl, ht⟩ := hallows
    obtain ⟨hid, hsame⟩ := hcond _ rfl old hold
    obtain ⟨stored, hstored, hunacked⟩ := Option.map_eq_some_iff.1 hsame
    have hkey : (old.acked r.currentVersion (g.request.times 1)).identity.id = nodeId := hid
    refine ⟨h.saveNode hkey (by rw [hstored]; exact nofun), trivial, .inl ⟨rfl, (record_saveNode hkey).trans ?_⟩⟩
    rw [TimedRequest.effect, hr, hstored, ← acked_congr hunacked]
    exact (if_pos ht).symm
  | deleteNode id =>
    obtain ⟨rfl, hr, hfree⟩ := hallows
    refine ⟨h.deleteNode hfree, trivial, .inl ⟨rfl, record_deleteNode.trans ?_⟩⟩
    rw [TimedRequest.effect, hr]
    exact (if_neg (by rw [hfree]; exact nofun)).symm
  | _ => exact hallows.elim

/-- A record in hand was read by this call, or before. -/
theorem holding_cases {c : HubCall} {old : NodeRecord} (hallows : g.Allows w₀ nodeId c)
    (hold : g.stage.next nodeId c (hubHandler p c w).1 = .holding old) :
    (c = .node nodeId ∧ w.store.nodes[nodeId]? = some old) ∨
      (g.stage = .holding old ∧ ∀ {ι : Type} (j : ι) last, nodeRead last ⟨j, c, (hubHandler p c w).1⟩ = last) := by
  cases c with
  | node id =>
    obtain rfl : id = nodeId := hallows
    change (w.store.nodes[id]?.elim .done .holding : Stage) = .holding old at hold
    cases hnode : w.store.nodes[id]? with
    | none =>
      rw [hnode] at hold
      cases hold
    | some node =>
      rw [hnode] at hold
      cases hold
      exact .inl ⟨rfl, rfl⟩
  | release releaseId =>
    simp only [Stage.next] at hold
    split at hold
    · exact .inr ⟨hold, fun _ _ => rfl⟩
    · cases hold
  | nodeDeleteGuard id =>
    simp only [Stage.next] at hold
    split at hold
    · cases hold
    · exact .inr ⟨hold, fun _ _ => rfl⟩
  | updateReleaseAck releaseId id ack => exact .inr ⟨hold, fun _ _ => rfl⟩
  | revokeTokens id => exact .inr ⟨hold, fun _ _ => rfl⟩
  | recordHeartbeat hb => cases hold
  | saveNode record => cases hold
  | deleteNode id => cases hold
  | _ => exact hallows.elim

/-- A request that runs alone has its effect, and the checks stay as they are. -/
theorem run_timed (t : TimedRequest) (ht : t.request.OnNode nodeId) (h : SameChecks nodeId w₀ w) :
    SameChecks nodeId w₀ (Prog.run (hubHandler p) (timedProgram p t) w).2 ∧
      (Prog.run (hubHandler p) (timedProgram p t) w).2.store.nodes[nodeId]? =
        t.effect w₀ nodeId w.store.nodes[nodeId]? := by
  -- until the request is done the record is as it was, and the one in hand is the stored one
  let R : Doing → World → Prop := fun g w' => SameChecks nodeId w₀ w' ∧ g.request = t ∧
    (g.stage = .done → w'.store.nodes[nodeId]? = t.effect w₀ nodeId w.store.nodes[nodeId]?) ∧
    (g.stage ≠ .done → w'.store.nodes[nodeId]? = w.store.nodes[nodeId]?) ∧
    ∀ old, g.stage = .holding old → w.store.nodes[nodeId]? = some old
  have hstep : ∀ c g w', (nodeSpec w₀ nodeId).ok c g → R g w' →
      ∃ g', (nodeSpec w₀ nodeId).can c g (hubHandler p c w').1 g' ∧ R g' (hubHandler p c w').2 := by
    rintro c g w' hok ⟨hchecks, hrequest, -, hsame, hhold⟩
    have hstep := node_step (p := p) hchecks hok fun record _ old hold => by
      have hstored : w'.store.nodes[nodeId]? = some old := (hsame hok.1).trans (hhold old hold)
      exact ⟨hchecks.key old hstored, by rw [hstored]; rfl⟩
    refine ⟨_, ⟨hstep.expected, rfl⟩, hstep.checks, hrequest, fun hd => ?_, fun hd => ?_, fun old hold => ?_⟩
    · rcases hstep.record with ⟨-, hr⟩ | ⟨hn, -⟩
      · rw [hr, hrequest, hsame hok.1]
      · exact absurd hd hn
    · rcases hstep.record with ⟨hn, -⟩ | ⟨-, hr⟩
      · exact absurd hn hd
      · exact hr.trans (hsame hok.1)
    · rcases holding_cases hok.2 hold with ⟨-, hread⟩ | ⟨hold, -⟩
      · exact (hsame hok.1).symm.trans hread
      · exact hhold old hold
  have hw : Prog.wp (nodeSpec w₀ nodeId) (timedProgram p t) (Doing.Returns w₀ nodeId) ⟨t, .begun⟩ := follows_node p t ht
  obtain ⟨g, ⟨hdone, -⟩, hchecks, -, heffect, -⟩ := Prog.wp_simulate hstep hw
    (⟨h, rfl, fun e => (by cases e), fun _ => rfl, fun _ e => (by cases e)⟩ : R ⟨t, .begun⟩ w)
  exact ⟨hchecks, heffect hdone⟩

end Step

/-! ## Interleavings -/

section Invariant

variable {ι : Type} [DecidableEq ι]

/-- What is asked of a program that writes a node which it has read: it is still stored, but for what acknowledgements
write. -/
def Undisturbed (P : Pool hubSig (Except AppError Unit) ι World) : Move ι TimedRequest → Prop
  | .spawn _ _ => True
  | .go i =>
    match (P.next i).bind HubCall.savedNode, readNode P.trace i with
    | some _, some old =>
      P.state.store.nodes[old.identity.id]?.map NodeRecord.unacked = some old.unacked
    | _, _ => True

variable (w₀ : World) (nodeId : Uuid) (q : ι → Option TimedRequest)

/-- The effect of a request by its name. -/
def effectOf (i : ι) (record : Option NodeRecord) : Option NodeRecord :=
  match q i with
  | some t => t.effect w₀ nodeId record
  | none => record

/-- Requests know what they have read, the checks are as they were, and the node is what the requests that are done have
made of it. -/
structure NodeInv (g : ι → Option Doing) (w : World) (tr : List (Event hubSig ι)) : Prop where
  request : ∀ i gi, g i = some gi → q i = some gi.request
  checks : SameChecks nodeId w₀ w
  held : ∀ i gi, g i = some gi → ∀ old, gi.stage = .holding old → readNode tr i = some old ∧ old.identity.id = nodeId
  order : Committed (effectOf w₀ nodeId q) (fun i => ∃ gi, g i = some gi ∧ gi.stage = .done) w₀.store.nodes[nodeId]?
    w.store.nodes[nodeId]?

variable {w₀ nodeId q} {p : Platform} {g : ι → Option Doing} {w : World} {tr : List (Event hubSig ι)}
    {i : ι} {gi : Doing}

theorem NodeInv.init (h : SameChecks nodeId w₀ w₀) : NodeInv w₀ nodeId q (fun _ => none) w₀ [] where
  request _ _ e := by cases e
  checks := h
  held _ _ e := by cases e
  order := .start fun _ ⟨_, e, _⟩ => by cases e

theorem done_update (hi : ∀ gi, g i = some gi → gi.stage ≠ .done) (gi' : Doing) (j : ι) :
    (∃ gj, Function.update g i (some gi') j = some gj ∧ gj.stage = .done) ↔
      (∃ gj, g j = some gj ∧ gj.stage = .done) ∨ (j = i ∧ gi'.stage = .done) := by
  by_cases hj : j = i
  · subst hj
    rw [Function.update_self]
    refine ⟨?_, ?_⟩
    · rintro ⟨_, ⟨⟩, hd⟩
      exact .inr ⟨rfl, hd⟩
    · rintro (⟨gj, hgj, hd⟩ | ⟨-, hd⟩)
      · exact absurd hd (hi gj hgj)
      · exact ⟨gi', rfl, hd⟩
  · rw [Function.update_of_ne hj]
    exact ⟨.inl, fun h => h.resolve_right fun h => hj h.1⟩

theorem NodeInv.spawn (h : NodeInv w₀ nodeId q g w tr) (hi : g i = none) {t : TimedRequest} (ht : q i = some t) :
    NodeInv w₀ nodeId q (Function.update g i (some ⟨t, .begun⟩)) w tr where
  request := Pool.forall_update ht h.request
  checks := h.checks
  held := Pool.forall_update (fun _ e => by cases e) h.held
  order := by
    refine h.order.congr fun j => (done_update (fun gi hgi => ?_) _ j).trans (or_iff_left fun hd => nomatch hd.2)
    rw [hi] at hgi
    cases hgi

/-- One more call. -/
theorem NodeInv.call (h : NodeInv w₀ nodeId q g w tr) (hi : g i = some gi) {c : HubCall}
    (hok : (nodeSpec w₀ nodeId).ok c gi)
    (hcond : ∀ record ∈ c.savedNode, ∀ old ∈ readNode tr i,
      w.store.nodes[old.identity.id]?.map NodeRecord.unacked = some old.unacked) :
    Expected w₀ nodeId c (hubHandler p c w).1 ∧
      NodeInv w₀ nodeId q (Function.update g i (some ⟨gi.request, gi.stage.next nodeId c (hubHandler p c w).1⟩))
        (hubHandler p c w).2 (tr ++ [⟨i, c, (hubHandler p c w).1⟩]) := by
  have hstep := node_step (p := p) h.checks hok fun record hrecord old hold => by
    obtain ⟨hread, hid⟩ := h.held i gi hi old hold
    exact ⟨hid, hid ▸ hcond record hrecord old hread⟩
  have hnotDone : ∀ gi', g i = some gi' → gi'.stage ≠ .done := fun gi' hgi' =>
    Option.some.inj (hi.symm.trans hgi') ▸ hok.1
  refine ⟨hstep.expected, Pool.forall_update (h.request i gi hi) h.request, hstep.checks,
    fun j gj hj old hold => ?_, ?_⟩
  · rw [readNode_concat]
    by_cases hji : j = i
    · subst hji
      rw [Function.update_self] at hj ⊢
      cases hj
      rcases holding_cases hok.2 hold with ⟨rfl, hread⟩ | ⟨hold, hlast⟩
      · exact ⟨hread, h.checks.key old hread⟩
      · rw [hlast]
        exact h.held j gi hi old hold
    · rw [Function.update_of_ne hji] at hj ⊢
      exact h.held j gj hj old hold
  · rcases hstep.record with ⟨hd, hrecord⟩ | ⟨hd, hrecord⟩
    · refine h.order.commit (i := i) (fun ⟨gi', hgi', hd'⟩ => hnotDone gi' hgi' hd') (fun j => ?_) ?_
      · rw [done_update hnotDone]
        exact or_congr_right (and_iff_left hd)
      · rw [hrecord, effectOf, h.request i gi hi]
    · rw [hrecord]
      exact h.order.congr fun j => (done_update hnotDone _ j).trans (or_iff_left fun hdj => hd hdj.2)

end Invariant

/-! ## Runs -/

/-- Nodes are stored under their identifiers. -/
def NodeKeys (w : World) : Prop := ∀ (k : Uuid) (node : NodeRecord), w.store.nodes[k]? = some node →
    node.identity.id = k

theorem NodeKeys.call {p : Platform} (c : HubCall) (w : World) (h : NodeKeys w) : NodeKeys (hubHandler p c w).2 := by
  cases c with
  | saveNode record =>
    intro k node hk
    rcases Maps.getElem?_insert_eq_some hk with ⟨rfl, rfl⟩ | ⟨-, hk⟩
    · rfl
    · exact h k node hk
  | recordHeartbeat hb =>
    intro k node hk
    rcases Maps.getElem?_modify_eq_some hk with ⟨rfl, old, hold, rfl⟩ | ⟨-, hk⟩
    · exact h _ old hold
    · exact h k node hk
  | deleteNode nodeId =>
    simp only [hubHandler, World.write, MemoryState.deleteNode]
    split
    · exact h
    · exact fun k node hk => h k node (Maps.getElem?_erase_eq_some hk).2
  | deleteSite siteId =>
    simp only [hubHandler, World.write, MemoryState.deleteSite]
    split <;> exact h
  | deleteDnsProvider providerId =>
    simp only [hubHandler, World.write, MemoryState.deleteDnsProvider]
    split <;> exact h
  | deleteOperationTemplate templateId =>
    simp only [hubHandler, World.write, MemoryState.deleteOperationTemplate]
    split <;> exact h
  | claimNextNodeOperation nodeId =>
    simp only [hubHandler, MemoryState.claimNextNodeOperation]
    split <;> exact h
  | _ => exact h

section Runs

variable {ι κ : Type} [DecidableEq ι] [DecidableEq κ] {p : Platform} {nodeId : Uuid} {w₀ : World}

theorem NodeKeys.hubRun (ms : List (Move κ (Hub × Request))) : NodeKeys (hubRun p ms).state :=
  Pool.state_invariant _ _ NodeKeys.call (fun k node hk => by simp [Pool.init, World.init, MemoryState.empty] at hk) ms

theorem SameChecks.refl (h : NodeKeys w₀) : SameChecks nodeId w₀ w₀ := ⟨rfl, fun _ h => h, fun _ _ h => h, h nodeId⟩

/-- The pool after a schedule of timed requests. -/
def nodeRun (p : Platform) (w : World) (ms : List (Move ι TimedRequest)) :
    Pool hubSig (Except AppError Unit) ι World :=
  Pool.exec (hubHandler p) (timedProgram p) (Pool.init w) ms

/-- Requests on a node do not undo each other: when all have returned, the node is as after one of their serial orders;
and when a deletion has succeeded, the node is gone. -/
structure WritesSerial (p : Platform) (w : World) (nodeId : Uuid) (ms : List (Move ι TimedRequest)) : Prop where
  serial : (∀ i, (Pool.asked ms i).isSome → ((nodeRun p w ms).result i).isSome) →
    ∃ order : List ι, order.Nodup ∧ (∀ i, i ∈ order ↔ (Pool.asked ms i).isSome) ∧
      (nodeRun p w ms).state.store.nodes[nodeId]? =
        (w.inOrder p (order.filterMap (Pool.asked ms))).store.nodes[nodeId]?
  gone : ∀ i t, Pool.asked ms i = some t → t.request = .deleteNode nodeId → (nodeRun p w ms).result i = some (.ok ()) →
    (nodeRun p w ms).state.store.nodes[nodeId]? = none

/-- Requests in order have their effects in order. -/
theorem inOrder_effects (h : SameChecks nodeId w₀ w₀) (ts : List TimedRequest)
    (hts : ∀ t ∈ ts, t.request.OnNode nodeId) :
    SameChecks nodeId w₀ (w₀.inOrder p ts) ∧ (w₀.inOrder p ts).store.nodes[nodeId]? =
      ts.foldl (fun record t => t.effect w₀ nodeId record) w₀.store.nodes[nodeId]? := by
  induction ts using List.reverseRecOn with
  | nil => exact ⟨h, rfl⟩
  | append_singleton ts t ih =>
    obtain ⟨hchecks, hrecord⟩ := ih fun t' ht' => hts t' (List.mem_append_left _ ht')
    obtain ⟨hchecks', hrecord'⟩ := run_timed (p := p) t (hts t (by simp)) hchecks
    rw [World.inOrder, List.foldl_append, List.foldl_append]
    exact ⟨hchecks', hrecord'.trans (by rw [hrecord]; rfl)⟩

omit [DecidableEq ι] in
/-- The effects of those with a request are the effects of the requests. -/
theorem foldl_effectOf (q : ι → Option TimedRequest) (order : List ι) (record : Option NodeRecord) :
    order.foldl (fun record i => effectOf w₀ nodeId q i record) record =
      (order.filterMap q).foldl (fun record t => t.effect w₀ nodeId record) record := by
  induction order generalizing record with
  | nil => rfl
  | cons i order ih =>
    cases hi : q i with
    | none =>
      rw [List.foldl_cons, ih, List.filterMap_cons_none hi]
      simp only [effectOf, hi]
    | some t =>
      rw [List.foldl_cons, ih, List.filterMap_cons_some hi, List.foldl_cons]
      simp only [effectOf, hi]

variable {ms : List (Move ι TimedRequest)}

/-- The condition of a call, read off the pool. -/
theorem Undisturbed.call {P : Pool hubSig (Except AppError Unit) ι World} {i : ι} (h : Undisturbed P (.go i))
    {c : HubCall} (hc : c ∈ P.next i) (record : NodeRecord) (hrecord : record ∈ c.savedNode) (old : NodeRecord)
    (hold : old ∈ readNode P.trace i) :
    P.state.store.nodes[old.identity.id]?.map NodeRecord.unacked = some old.unacked := by
  have hsaved : (P.next i).bind HubCall.savedNode = some record := Option.bind_eq_some_iff.2 ⟨c, hc, hrecord⟩
  simp only [Undisturbed, hsaved, Option.mem_def.1 hold] at h
  exact h

theorem spawn_keeps_node (hq : ∀ i t, Pool.asked ms i = some t → t.request.OnNode nodeId) :
    Pool.SpawnKeeps (timedProgram p) (nodeSpec w₀ nodeId) (NodeInv w₀ nodeId (Pool.asked ms)) (Doing.Returns w₀ nodeId)
      (fun P m => Pool.AsAsked ms P m ∧ Undisturbed P m) := by
  intro P g i t hadm hi hF
  exact ⟨⟨t, .begun⟩, follows_node p t (hq i t (hadm.1 hi)), hF.inv.spawn (hF.fresh i hi) (hadm.1 hi)⟩

theorem call_keeps_node :
    Pool.CallKeeps (hubHandler p) (nodeSpec w₀ nodeId) (NodeInv w₀ nodeId (Pool.asked ms)) (Doing.Returns w₀ nodeId)
      (fun P m => Pool.AsAsked ms P m ∧ Undisturbed P m) := by
  intro P g i c k gi hadm hi hgi hok hF
  obtain ⟨hexp, hinv⟩ := hF.inv.call (p := p) hgi hok (hadm.2.call (Pool.next_eq hi))
  exact ⟨_, ⟨hexp, rfl⟩, hinv⟩

/-- In every run of heartbeats, acknowledgements and deletions of a node in which the records that acknowledgements
write back are undisturbed, the requests do not undo each other. -/
theorem node_writes_serial (p : Platform) (ms₀ : List (Move κ (Hub × Request))) (nodeId : Uuid)
    (ms : List (Move ι TimedRequest)) (hq : ∀ i t, Pool.asked ms i = some t → t.request.OnNode nodeId)
    (hms : Pool.Admits (hubHandler p) (timedProgram p) Undisturbed (Pool.init (hubRun p ms₀).state) ms) :
    WritesSerial p (hubRun p ms₀).state nodeId ms := by
  have hchecks : SameChecks nodeId (hubRun p ms₀).state (hubRun p ms₀).state := .refl (NodeKeys.hubRun ms₀)
  generalize (hubRun p ms₀).state = w at hms hchecks
  obtain ⟨g, hF⟩ := Pool.invariant (spawn_keeps_node hq) call_keeps_node (Pool.fits_init (NodeInv.init hchecks)) ms
    (Pool.admits_and _ _ (Pool.admits_asked _ _ _ ms) hms)
  have hdone : ∀ i r, (nodeRun p w ms).result i = some r → ∃ gi, g i = some gi ∧ Doing.Returns w nodeId r gi := by
    intro i r hr
    obtain ⟨gi, hgi, hw⟩ := hF.follows i _ (Pool.threads_of_result hr)
    exact ⟨gi, hgi, (Prog.wp_ret _).1 hw⟩
  refine ⟨fun hall => ?_, fun i t ht hdelete hresult => ?_⟩
  · obtain ⟨order, hnodup, horder, hrecord⟩ := hF.inv.order
    refine ⟨order, hnodup, fun i => (horder i).trans ⟨fun ⟨gi, hgi, _⟩ => ?_, fun hi => ?_⟩, ?_⟩
    · rw [hF.inv.request i gi hgi]
      rfl
    · obtain ⟨r, hr⟩ := Option.isSome_iff_exists.1 (hall i hi)
      obtain ⟨gi, hgi, hreturns⟩ := hdone i r hr
      exact ⟨gi, hgi, hreturns.1⟩
    · refine hrecord.trans ((foldl_effectOf _ order _).trans (inOrder_effects hchecks _ fun t ht => ?_).2.symm)
      obtain ⟨i, -, hi⟩ := List.mem_filterMap.1 ht
      exact hq i t hi
  · obtain ⟨gi, hgi, hd, hfree⟩ := hdone i _ hresult
    obtain rfl : t = gi.request := Option.some.inj (ht.symm.trans (hF.inv.request i gi hgi))
    refine hF.inv.order.absorb (i := i) ⟨gi, hgi, hd⟩ (fun record => ?_) fun j => ?_
    · simp only [effectOf, ht, TimedRequest.effect, hdelete, hfree rfl hdelete]
      rfl
    · unfold effectOf
      split
      · exact TimedRequest.effect_none _ _ _
      · rfl

end Runs

/-- A request to a hub as the program `i`, run to its end. -/
def wholeRequest (i : Nat) (r : Request) : List (Move Nat (Hub × Request)) :=
  .spawn i (⟨0, 30⟩, r) :: List.replicate 10 (.go i)

/-- A node that was the target of a release, on a site that is deleted. -/
def retired : List (Move Nat (Hub × Request)) :=
  wholeRequest 0 (.node "edge-1") ++ wholeRequest 1 (.site "example") ++ wholeRequest 2 (.bind 2 0 []) ++
    wholeRequest 3 (.publish 2) ++ wholeRequest 4 (.deleteSite 2)

/-- The node acknowledges the release while it is deleted. -/
def ackAndDelete : List (Move Nat TimedRequest) :=
  [.spawn 0 ⟨⟨0, 30⟩, .ackRelease 3 { nodeId := 0, applyStatus := "success", currentVersion := "v1", message := none },
      fun _ => 0⟩,
    .spawn 1 ⟨⟨0, 30⟩, .deleteNode 0, fun _ => 0⟩]

/-- The acknowledgement is over before the node is deleted. -/
def apart : List (Move Nat TimedRequest) := ackAndDelete ++ [Move.go 1, .go 0, .go 0, .go 0, .go 0, .go 1, .go 1, .go 1]

/-- The node is deleted while the acknowledgement has it in hand. -/
def across : List (Move Nat TimedRequest) := ackAndDelete ++ [Move.go 0, .go 0, .go 0, .go 1, .go 1,
    .go 1, .go 1, .go 0]

section Apart

-- the condition is checked by computing the pool before each move
set_option maxRecDepth 4000

/-- The acknowledgement and the deletion do not meet. -/
theorem node_writes_serial_apart : ((nodeRun .plain (hubRun .plain retired).state apart).result 1).map
    (·.isOk) = some true ∧ WritesSerial .plain (hubRun .plain retired).state 0 apart := by
  refine ⟨by decide +kernel, node_writes_serial .plain retired 0 apart (fun i t h => ?_) ?_⟩
  · simp only [apart, ackAndDelete, List.cons_append, List.nil_append, Pool.asked] at h
    split at h
    · cases h
      rfl
    · split at h
      · cases h
        rfl
      · cases h
  · exact ⟨trivial, trivial, trivial, trivial, trivial, trivial, rfl, trivial, trivial, trivial, trivial⟩

end Apart

/-- A node that was deleted is back when the acknowledgement has written it. -/
theorem ack_restores_node : ¬ WritesSerial .plain (hubRun .plain retired).state 0 across := by
  intro h
  have hok : ((nodeRun .plain (hubRun .plain retired).state across).result 1).map (·.isOk) =
    some true := by decide +kernel
  obtain ⟨r, hr, hr'⟩ := Option.map_eq_some_iff.1 hok
  have hthere : (nodeRun .plain (hubRun .plain retired).state across).state.store.nodes[0]?.isSome = true := by
    decide +kernel
  cases r with
  | error e => cases hr'
  | ok _ =>
    rw [h.gone 1 _ rfl rfl hr] at hthere
    cases hthere

end PingoraMesh
