import PingoraMesh.Failover.Switch
import PingoraMesh.Hub.Operations
import PingoraMesh.Lib.Ledger
import PingoraMesh.Lib.Own

/-!
# How operations are handed out

Any number of hub instances and failover cycles run at once over one store. A request that creates an operation reads
the template, draws an identifier and stores the operation; a report writes a whole record back that it has read before;
a failover enqueues operations in its transaction.

* `follows_making`: every program stores an operation only as the request and the template it has read say, and writes
  one back only when it has ended (`makingSpec`);
* `handed_out_once`: in every run each operation is handed out at most once, to its own node, the oldest approved one
  first, and only if the template that its request has read needed no approval or the request had a ticket;
* `dispatched_once`: in every run in which no template changes in between (`ApprovalStands`), it is the template stored
  when the operation was created that needed no approval;
* `approval_outdated`: where the template changes in between, an operation is handed out without the approval it needed.
-/

namespace PingoraMesh

open Calls Fallible HubService

/-! ## What a program has read and drawn -/

/-- A program under way: its request, the template it has read last with the key it asked for, and the identifier it has
drawn for the operation it stores next. -/
structure Making where
  request : MeshRequest
  seen : Option (Uuid × OperationTemplateRecord)
  drawn : Option Uuid

/-- What a call tells. -/
def Making.next (c : HubCall) (r : c.Ans) (g : Making) : Making :=
  match c, r with
  | .operationTemplate templateId, t => { g with seen := t.map fun t => (templateId, t) }
  | .newUuid, k => { g with drawn := some k }
  | .saveNodeOperation _, _ => { g with drawn := none }
  | _, _ => g

/-- The operation is made as the request says, under the identifier that was drawn, and is approved only if the template
that was read needs no approval or the request has a ticket. -/
def Making.Creates (g : Making) (o : NodeOperationRecord) : Prop :=
  g.drawn = some o.operationId ∧ ∃ hub nodeId request requestedBy t,
    g.request = .hub hub (.createNodeOperation nodeId request requestedBy) ∧ g.seen = some (request.templateId, t) ∧
    o.nodeId = nodeId ∧ o.templateId = t.templateId ∧
    (o.execStatus = "approved" → t.approvalRequired = false ∨ request.ticket.isSome)

/-- What is asked of the calls that write an operation. -/
def Making.Allows (g : Making) : HubCall → Prop
  | .saveNodeOperation o => g.Creates o
  | .updateNodeOperation o => o.Terminal
  | _ => True

/-- New operations are made as requests say, and others are written back only when they have ended. -/
def makingSpec : Spec hubSig Making := .protocol (fun c g => g.Allows c) Making.next

section Follows

variable (p : Platform)

theorem createNodeOperation_making (hub : Hub) (nodeId : Uuid) (request : CreateNodeOperationRequest)
    (requestedBy : String) {g : Making} (hg : g.request = .hub hub (.createNodeOperation nodeId request requestedBy)) :
    wp makingSpec (createNodeOperation nodeId request requestedBy) (fun _ _ => True) (fun _ _ => True) g := by
  simp only [makingSpec, createNodeOperation, repo, wp_bind, wp_okOr, wp_attempt, wp_call_protocol,
    wp_pure, Making.next, Making.Allows, implies_true, and_true, true_and]
  intro _ _ _ found t ht params _ _ _ k now
  refine ⟨rfl, hub, nodeId, request, requestedBy, t, hg, by rw [ht]; rfl, rfl, rfl, fun happroved => ?_⟩
  cases hrequired : t.approvalRequired with
  | false => exact .inl rfl
  | true =>
    cases hticket : request.ticket with
    | some ticket => exact .inr rfl
    | none =>
      rw [CreateNodeOperationRequest.ticket] at hticket
      simp [hrequired, hticket] at happroved

theorem reportNodeOperationResult_making (operationId : Uuid) (request : OperationResultRequest) :
    (reportNodeOperationResult p operationId request).Safe makingSpec := by
  intro g
  simp only [makingSpec, reportNodeOperationResult, repo, wp_bind, wp_okOr, wp_ensure, wp_attempt, wp_getOr,
    wp_call_protocol, wp_pure, Making.Allows, implies_true, and_true, true_and]
  intro _ o _ _ status hs
  exact ⟨fun _ _ => normalizeOperationExecStatus_ok hs, fun _ _ => normalizeOperationExecStatus_ok hs⟩

/-- Every program writes operations as its request says. -/
theorem follows_making (q : MeshRequest) :
    Prog.wp (onMesh makingSpec) (meshProgram p q) (fun _ _ => True) ⟨q, none, none⟩ := by
  refine meshProgram_wp p (fun _ => trivial) q fun hub r hq => ?_
  have hquiet : Effect.operation ∉ r.effects → (HubService.program p hub r).Safe makingSpec := fun hr =>
    (program_only p hub r).safe fun c g hc => by
      cases c with
      | saveNodeOperation o => exact absurd hc hr
      | updateNodeOperation o => exact absurd hc hr
      | _ => trivial
  cases r with
  | createNodeOperation nodeId request requestedBy =>
    exact ((wp_discard _).2 (createNodeOperation_making hub nodeId request requestedBy hq)).either
  | reportNodeOperationResult operationId request =>
    exact (safe_discard (reportNodeOperationResult_making p operationId request)).run
  | claimNextNodeOperation nodeId =>
    exact (safe_discard (safe_bind (safe_call fun _ => trivial) fun _ => safe_attempt _)).run
  | _ => exact (hquiet (by simp [Request.effects])).run

end Follows

/-! ## What a trace tells -/

section Trace

variable {ι : Type}

/-- The operation that a call hands out, if it does. -/
def handedOutBy : Event meshSig ι → Option Uuid
  | ⟨_, .hub (.claimNextNodeOperation _), claimed⟩ =>
    (claimed : Option ClaimedNodeOperation).map (·.operation.operationId)
  | _ => none

/-- The operations that were handed out, in order. -/
def handedOut (tr : List (Event meshSig ι)) : List Uuid := tr.filterMap handedOutBy

theorem handedOut_concat (tr : List (Event meshSig ι)) (e : Event meshSig ι) :
    handedOut (tr ++ [e]) = handedOut tr ++ (handedOutBy e).toList := by
  cases h : handedOutBy e <;> simp [handedOut, h]

variable (p : Platform) (net : Nat → Delivery) (q : ι → Option MeshRequest) (m₀ : Mesh)

/-- The mesh after a trace. -/
abbrev meshAfter (tr : List (Event meshSig ι)) : Mesh := Pool.replay (meshHandler p net) m₀ tr

theorem meshAfter_concat (tr : List (Event meshSig ι)) (e : Event meshSig ι) :
    meshAfter p net m₀ (tr ++ [e]) = (meshHandler p net e.call (meshAfter p net m₀ tr)).2 :=
  Pool.replay_concat _ _ _ _

/-- A request has stored an operation after `pre`: it asked for it, and the template that it had read needs no
approval or the request has a ticket. -/
structure RequestMade (tr pre : List (Event meshSig ι)) (i : ι) (request : CreateNodeOperationRequest)
    (o : NodeOperationRecord) : Prop where
  asked : ∃ hub requestedBy, q i = some (.hub hub (.createNodeOperation o.nodeId request requestedBy))
  event : pre ++ [⟨i, .hub (.saveNodeOperation o), ()⟩] <+: tr
  read : ∃ t, ⟨i, .hub (.operationTemplate request.templateId), some t⟩ ∈ pre ∧ o.templateId = t.templateId ∧
    (t.approvalRequired = false ∨ request.ticket.isSome)

/-- A failover has stored an operation after `pre`, under an identifier drawn there, for a template that needed no
approval then. -/
structure FailoverMade (tr pre : List (Event meshSig ι)) (o : NodeOperationRecord) : Prop where
  event : ∃ (i : ι) (policy : PolicySnapshot) (site : SiteSnapshot) (eventId : Uuid) (now : DateTime)
    (answer : Except String Unit), pre ++ [⟨i, .executeSiteFailover policy site eventId now, answer⟩] <+: tr ∧
      (meshAfter p net m₀ (pre ++ [⟨i, .executeSiteFailover policy site eventId now,
        answer⟩])).world.store.nodeOperations[o.operationId]? = some o
  fresh : (meshAfter p net m₀ pre).world.nextUuid ≤ o.operationId
  template : ∃ (templateId : Uuid) (t : OperationTemplateRecord),
    (meshAfter p net m₀ pre).world.store.operationTemplates[templateId]? = some t ∧ o.templateId = t.templateId ∧
      t.approvalRequired = false

/-- How an approved operation of a node has come into the store: by a request or by a failover. -/
inductive Originated (tr : List (Event meshSig ι)) (operationId nodeId : Uuid) : Prop
  | requested {pre : List (Event meshSig ι)} {i : ι} {request : CreateNodeOperationRequest} {o : NodeOperationRecord}
      (made : RequestMade q tr pre i request o) (operation : o.operationId = operationId ∧ o.nodeId = nodeId) :
      Originated tr operationId nodeId
  | enqueued {pre : List (Event meshSig ι)} {o : NodeOperationRecord} (made : FailoverMade p net m₀ tr pre o)
      (operation : o.operationId = operationId ∧ o.nodeId = nodeId) : Originated tr operationId nodeId

/-- An approved operation of a node was made with the approval it needed: the request had a ticket, or the template of
the operation was stored when the operation was, and needed no approval. -/
inductive Born (tr : List (Event meshSig ι)) (operationId nodeId : Uuid) : Prop
  | requested {pre : List (Event meshSig ι)} {i : ι} {request : CreateNodeOperationRequest} {o : NodeOperationRecord}
      (made : RequestMade q tr pre i request o) (operation : o.operationId = operationId ∧ o.nodeId = nodeId)
      (approval : request.ticket.isSome ∨ ∃ t : OperationTemplateRecord,
        (meshAfter p net m₀ pre).world.store.operationTemplates[o.templateId]? = some t ∧
          t.approvalRequired = false) : Born tr operationId nodeId
  | enqueued {pre : List (Event meshSig ι)} {o : NodeOperationRecord} (made : FailoverMade p net m₀ tr pre o)
      (operation : o.operationId = operationId ∧ o.nodeId = nodeId) : Born tr operationId nodeId

/-- What is known of an operation that is handed out to a node after a trace: it was the oldest approved one of that
node, and it is running now. -/
def HandedOut (tr : List (Event meshSig ι)) (nodeId : Uuid) (claimed : ClaimedNodeOperation) : Prop :=
  ∃ o now, Oldest (meshAfter p net m₀ tr).world.store nodeId o ∧
    claimed.operation = { o with execStatus := "running", startedAt := some now }

/-- The same, and it was made for that node with the approval it needed. -/
structure Dispatched (tr : List (Event meshSig ι)) (nodeId : Uuid) (claimed : ClaimedNodeOperation) : Prop where
  oldest : HandedOut p net m₀ tr nodeId claimed
  born : Born p net q m₀ tr claimed.operation.operationId nodeId

/-- The template that a call has read, if it is one of the program `i`. -/
def templateReadBy [DecidableEq ι] (i : ι) : Event meshSig ι → Option OperationTemplateRecord
  | ⟨j, .hub (.operationTemplate _), t⟩ => if j = i then t else none
  | _ => none

/-- The templates that a program has read. -/
def templatesRead [DecidableEq ι] (tr : List (Event meshSig ι)) (i : ι) : List OperationTemplateRecord :=
  tr.filterMap (templateReadBy i)

/-- A request for an operation without a ticket. -/
def MeshRequest.Ticketless : MeshRequest → Prop
  | .hub _ (.createNodeOperation _ request _) => request.ticket.isNone
  | _ => False

instance : DecidablePred MeshRequest.Ticketless := fun q => by
  unfold MeshRequest.Ticketless
  split <;> infer_instance

/-- The operation that a call of a request stores. -/
def MeshCall.operation : MeshCall → Option NodeOperationRecord
  | .hub (.saveNodeOperation o) => some o
  | _ => none

/-- The condition on a move: a request without a ticket that has read a template which needs no approval stores its
operation only while that template is there and still needs none. -/
def ApprovalStands [DecidableEq ι] (ms : List (Move ι MeshRequest)) (P : Pool meshSig Unit ι Mesh) :
    Move ι MeshRequest → Prop
  | .spawn _ _ => True
  | .go i => ∀ c ∈ P.next i, ∀ o ∈ c.operation, ∀ q ∈ Pool.asked ms i, q.Ticketless →
    (∃ t ∈ templatesRead P.trace i, t.approvalRequired = false) →
      ∃ t ∈ P.state.world.store.operationTemplates[o.templateId]?, t.approvalRequired = false

instance [DecidableEq ι] (ms : List (Move ι MeshRequest)) (P : Pool meshSig Unit ι Mesh) :
    DecidablePred (ApprovalStands ms P)
  | .spawn _ _ => inferInstanceAs (Decidable True)
  | .go i => inferInstanceAs (Decidable (∀ c ∈ P.next i, ∀ o ∈ c.operation, ∀ q ∈ Pool.asked ms i, q.Ticketless →
    (∃ t ∈ templatesRead P.trace i, t.approvalRequired = false) →
      ∃ t ∈ P.state.world.store.operationTemplates[o.templateId]?, t.approvalRequired = false))

variable {p net q m₀}

theorem Originated.concat {tr : List (Event meshSig ι)} {operationId nodeId : Uuid}
    (h : Originated p net q m₀ tr operationId nodeId)
    (e : Event meshSig ι) : Originated p net q m₀ (tr ++ [e]) operationId nodeId := by
  cases h with
  | requested hmade hop =>
    exact .requested ⟨hmade.asked, hmade.event.trans (List.prefix_append _ _), hmade.read⟩ hop
  | enqueued hmade hop =>
    obtain ⟨i, policy, site, eventId, now, answer, hevent, hstored⟩ := hmade.event
    exact .enqueued ⟨⟨i, policy, site, eventId, now, answer, hevent.trans (List.prefix_append _ _),
      hstored⟩, hmade.fresh, hmade.template⟩ hop

theorem mem_templatesRead [DecidableEq ι] {tr : List (Event meshSig ι)} {i : ι} {templateId : Uuid}
    {t : OperationTemplateRecord} (h : ⟨i, .hub (.operationTemplate templateId), some t⟩ ∈ tr) :
    t ∈ templatesRead tr i :=
  List.mem_filterMap.2 ⟨_, h, if_pos rfl⟩

end Trace

/-! ## The invariant -/

section Invariant

variable {ι : Type} (p : Platform) (net : Nat → Delivery) (q : ι → Option MeshRequest) (m₀ : Mesh)

/-- An operation that is ready to be claimed. -/
def Mesh.Waits (m : Mesh) (k : Uuid) : Prop :=
  ∃ o : NodeOperationRecord, m.world.store.nodeOperations[k]? = some o ∧ o.execStatus = "approved"

/-- Programs know what they have read and drawn, identifiers are in one place at a time, every approved operation has
its origin, and so has every operation that was handed out. -/
structure DispatchInv (g : ι → Option Making) (m : Mesh) (tr : List (Event meshSig ι)) : Prop where
  state : m = meshAfter p net m₀ tr
  request : ∀ i gi, g i = some gi → q i = some gi.request
  seen : ∀ i gi, g i = some gi → ∀ x ∈ gi.seen, ⟨i, .hub (.operationTemplate x.1), some x.2⟩ ∈ tr
  ledger : Ledger m.world.nextUuid (fun i => (g i).bind Making.drawn) m.Waits (handedOut tr)
  origin : ∀ (k : Uuid) (o : NodeOperationRecord), m.world.store.nodeOperations[k]? = some o →
    o.execStatus = "approved" → o.operationId = k ∧ Originated p net q m₀ tr k o.nodeId
  dispatched : ∀ pre i nodeId claimed, pre ++ [⟨i, .hub (.claimNextNodeOperation nodeId), some claimed⟩] <+: tr →
    HandedOut p net m₀ pre nodeId claimed ∧ Originated p net q m₀ pre claimed.operation.operationId nodeId

theorem DispatchInv.init (remote : RemoteDns) :
    DispatchInv p net q (Mesh.init remote) (fun _ : ι => none) (Mesh.init remote) [] where
  state := rfl
  request _ _ h := by cases h
  seen _ _ h := by cases h
  ledger :=
    have hwaits : ∀ k, ¬ (Mesh.init remote).Waits k := by
      rintro k ⟨o, ho, -⟩
      simp [Mesh.init, World.init, MemoryState.empty] at ho
    ⟨nofun, fun k hk => absurd hk (hwaits k), nofun, nofun, nofun, nofun, fun k hk => absurd hk (hwaits k), .nil⟩
  origin k o h := by simp [Mesh.init, World.init, MemoryState.empty] at h
  dispatched pre i nodeId claimed h := by simp at h

variable {p net q m₀} [DecidableEq ι] {g : ι → Option Making} {m m' : Mesh} {tr : List (Event meshSig ι)} {i : ι}
  {gi gi' : Making}

/-- A start has read and drawn nothing. -/
theorem DispatchInv.spawn (h : DispatchInv p net q m₀ g m tr) (hi : g i = none) {r : MeshRequest} (hr : q i = some r) :
    DispatchInv p net q m₀ (Function.update g i (some ⟨r, none, none⟩)) m tr := by
  refine { h with request := Pool.forall_update hr h.request, seen := ?_, ledger := ?_ }
  · exact Pool.forall_update nofun h.seen
  · rw [Pool.bind_update_same (by rw [hi]; rfl)]
    exact h.ledger

/-- One more call: what is to be shown of it. -/
theorem DispatchInv.step (h : DispatchInv p net q m₀ g m tr) (hi : g i = some gi) {e : Event meshSig ι}
    (hrequest : gi'.request = gi.request)
    (hseen : ∀ x ∈ gi'.seen, x ∈ gi.seen ∨ e = ⟨i, .hub (.operationTemplate x.1), some x.2⟩)
    (hledger : Ledger m'.world.nextUuid (fun j => (Function.update g i (some gi') j).bind Making.drawn) m'.Waits
      (handedOut (tr ++ [e])))
    (horigin : ∀ (k : Uuid) (o : NodeOperationRecord), m'.world.store.nodeOperations[k]? = some o →
      o.execStatus = "approved" →
        m.world.store.nodeOperations[k]? = some o ∨ (o.operationId = k ∧ Originated p net q m₀ (tr ++ [e]) k o.nodeId))
    (hdispatched : ∀ j nodeId claimed, e = ⟨j, .hub (.claimNextNodeOperation nodeId), some claimed⟩ →
      HandedOut p net m₀ tr nodeId claimed ∧ Originated p net q m₀ tr claimed.operation.operationId nodeId)
    (hstate : m' = (meshHandler p net e.call m).2) :
    DispatchInv p net q m₀ (Function.update g i (some gi')) m' (tr ++ [e]) where
  state := by rw [hstate, h.state]; exact (Pool.replay_concat _ _ _ _).symm
  request := Pool.forall_update (by rw [hrequest]; exact h.request i gi hi) h.request
  seen := by
    refine Pool.forall_update (fun x hx => ?_) fun j gj hj x hx => List.mem_append_left _ (h.seen j gj hj x hx)
    rcases hseen x hx with hx | rfl
    · exact List.mem_append_left _ (h.seen i gi hi x hx)
    · exact List.mem_append_right _ (List.mem_singleton_self _)
  ledger := hledger
  origin k o ho happroved := by
    rcases horigin k o ho happroved with ho | hnew
    · exact ⟨(h.origin k o ho happroved).1, (h.origin k o ho happroved).2.concat e⟩
    · exact hnew
  dispatched pre j nodeId claimed hpre := by
    rcases List.prefix_concat_iff.1 hpre with heq | hpre
    · obtain ⟨rfl, he⟩ := List.append_inj' heq rfl
      exact hdispatched j nodeId claimed (List.cons.inj he).1.symm
    · exact h.dispatched pre j nodeId claimed hpre

/-- A call that hands nothing out. -/
theorem DispatchInv.silent (h : DispatchInv p net q m₀ g m tr) (hi : g i = some gi) {e : Event meshSig ι}
    (hnone : handedOutBy e = none) (hrequest : gi'.request = gi.request)
    (hseen : ∀ x ∈ gi'.seen, x ∈ gi.seen ∨ e = ⟨i, .hub (.operationTemplate x.1), some x.2⟩)
    (hledger : Ledger m'.world.nextUuid (fun j => (Function.update g i (some gi') j).bind Making.drawn) m'.Waits
      (handedOut tr))
    (horigin : ∀ (k : Uuid) (o : NodeOperationRecord), m'.world.store.nodeOperations[k]? = some o →
      o.execStatus = "approved" →
        m.world.store.nodeOperations[k]? = some o ∨ (o.operationId = k ∧ Originated p net q m₀ (tr ++ [e]) k o.nodeId))
    (hstate : m' = (meshHandler p net e.call m).2) :
    DispatchInv p net q m₀ (Function.update g i (some gi')) m' (tr ++ [e]) := by
  refine h.step hi hrequest hseen ?_ horigin (fun j nodeId claimed he => ?_) hstate
  · rw [handedOut_concat, hnone, Option.toList_none, List.append_nil]
    exact hledger
  · rw [he] at hnone
    cases hnone

/-- The calls that tell a program something it needs for an operation. -/
theorem Making.next_cases {c : HubCall} (hc : c.effect ≠ some .operation) :
    c = .newUuid ∨ (∃ templateId, c = .operationTemplate templateId) ∨ ∀ (r : c.Ans) (g : Making), g.next c r = g := by
  cases c with
  | newUuid => exact .inl rfl
  | operationTemplate templateId => exact .inr (.inl ⟨templateId, rfl⟩)
  | saveNodeOperation o => exact absurd rfl hc
  | _ => exact .inr (.inr fun _ _ => rfl)

/-- A call of a hub on something else. -/
theorem DispatchInv.quiet (h : DispatchInv p net q m₀ g m tr) (hi : g i = some gi) {c : HubCall}
    (hc : c.effect ≠ some .operation) :
    DispatchInv p net q m₀ (Function.update g i (some (gi.next c (hubHandler p c m.world).1)))
      { m with world := (hubHandler p c m.world).2 } (tr ++ [⟨i, .hub c, (hubHandler p c m.world).1⟩]) := by
  have hnone : handedOutBy (⟨i, .hub c, (hubHandler p c m.world).1⟩ : Event meshSig ι) = none := by
    cases c with
    | claimNextNodeOperation nodeId => exact absurd rfl hc
    | _ => rfl
  have hops : ∀ (k : Uuid) (o : NodeOperationRecord),
      (hubHandler p c m.world).2.store.nodeOperations[k]? = some o → m.world.store.nodeOperations[k]? = some o :=
    fun k o ho => operations_of_effect hc ho
  have hwaits : ∀ k, Mesh.Waits { m with world := (hubHandler p c m.world).2 } k → m.Waits k := fun k hk =>
    hk.imp fun o ho => ⟨hops k o ho.1, ho.2⟩
  rcases Making.next_cases hc with rfl | ⟨templateId, rfl⟩ | hsame
  · refine h.silent hi hnone rfl (fun x hx => .inl hx) ?_ (fun k o ho _ => .inl (hops k o ho)) rfl
    rw [Pool.bind_update]
    exact h.ledger.draw i
  · refine h.silent hi hnone rfl (fun x hx => .inr ?_) ?_ (fun k o ho _ => .inl (hops k o ho)) rfl
    · obtain ⟨t, ht, rfl⟩ := Option.map_eq_some_iff.1 hx
      rw [← ht]
    · rw [Pool.bind_update_same (by rw [hi]; rfl)]
      exact h.ledger
  · rw [hsame]
    refine h.silent hi hnone rfl (fun x hx => .inl hx) ?_ (fun k o ho _ => .inl (hops k o ho)) rfl
    rw [Pool.bind_update_same (by rw [hi]; rfl)]
    exact h.ledger.mono nextUuid_le (fun _ _ hk => hk) fun k hk => .inl (hwaits k hk)

/-- A call of a worker, or the statement of an operator. -/
theorem DispatchInv.worker (h : DispatchInv p net q m₀ g m tr) (hi : g i = some gi) {c : MeshCall}
    (hnone : handedOutBy (⟨i, c, (meshHandler p net c m).1⟩ : Event meshSig ι) = none)
    (hdraws : m.Draws (meshHandler p net c m).2)
    (hops : ∀ k o, (meshHandler p net c m).2.world.store.nodeOperations[k]? = some o →
      m.world.store.nodeOperations[k]? = some o ∨ (Enqueued m (meshHandler p net c m).2 k o ∧
        Originated p net q m₀ (tr ++ [⟨i, c, (meshHandler p net c m).1⟩]) k o.nodeId)) :
    DispatchInv p net q m₀ (Function.update g i (some gi)) (meshHandler p net c m).2
      (tr ++ [⟨i, c, (meshHandler p net c m).1⟩]) := by
  refine h.silent hi hnone rfl (fun x hx => .inl hx) ?_ (fun k o ho _ => ?_) rfl
  · rw [Pool.bind_update_same (by rw [hi]; rfl)]
    refine h.ledger.mono hdraws (fun _ _ hk => hk) fun k ⟨o, ho, happroved⟩ => ?_
    rcases hops k o ho with ho | ⟨hnew, -⟩
    · exact .inl ⟨o, ho, happroved⟩
    · exact .inr ⟨hnew.fresh, hnew.drawn⟩
  · exact (hops k o ho).imp_right fun hnew => ⟨hnew.1.operationId, hnew.2⟩

/-- A failover enqueues operations for templates that need no approval. -/
theorem DispatchInv.failover (h : DispatchInv p net q m₀ g m tr) (hi : g i = some gi) (policy : PolicySnapshot)
    (site : SiteSnapshot) (eventId : Uuid) (now : DateTime) :
    DispatchInv p net q m₀ (Function.update g i (some gi))
      (meshHandler p net (.executeSiteFailover policy site eventId now) m).2
      (tr ++ [⟨i, .executeSiteFailover policy site eventId now,
        (meshHandler p net (.executeSiteFailover policy site eventId now) m).1⟩]) := by
  have hm : m.Enqueues (meshHandler p net (.executeSiteFailover policy site eventId now) m).2 :=
    executeSiteFailover_enqueues p net policy site eventId now m
  refine h.worker hi rfl hm.draws fun k o ho => (hm.operations k o ho).imp_right fun hnew => ⟨hnew, ?_⟩
  obtain ⟨templateId, t, ht, hfree, htemplate⟩ := hnew.template
  have hfresh := hnew.fresh
  rw [h.state] at ho ht hfresh
  rw [← hnew.operationId] at ho hfresh
  refine .enqueued ⟨⟨i, policy, site, eventId, now, _, List.prefix_refl _, ?_⟩, hfresh, templateId, t, ht,
    htemplate, hfree⟩ ⟨hnew.operationId, rfl⟩
  rw [meshAfter_concat]
  exact ho

/-- A request stores the operation that it has made. -/
theorem DispatchInv.save (h : DispatchInv p net q m₀ g m tr) (hi : g i = some gi) {o : NodeOperationRecord}
    (ho : gi.Creates o) :
    DispatchInv p net q m₀ (Function.update g i (some { gi with drawn := none })) (m.onStore (·.saveNodeOperation o))
      (tr ++ [⟨i, .hub (.saveNodeOperation o), ()⟩]) := by
  obtain ⟨hdrawn, hub, nodeId, request, requestedBy, t, hrequest, hseen, hnode, htemplate, happroval⟩ := ho
  have hstored : ∀ (k : Uuid) (o' : NodeOperationRecord),
      (m.onStore (·.saveNodeOperation o)).world.store.nodeOperations[k]? = some o' →
        (k = o.operationId ∧ o' = o) ∨ m.world.store.nodeOperations[k]? = some o' := by
    intro k o' ho'
    rcases Maps.getElem?_insert_eq_some ho' with ⟨rfl, rfl⟩ | ⟨-, ho'⟩
    · exact .inl ⟨rfl, rfl⟩
    · exact .inr ho'
  refine h.silent hi rfl rfl (fun x hx => .inl hx) ?_ (fun k o' ho' happroved => ?_) rfl
  · rw [Pool.bind_update]
    refine h.ledger.store (k := o.operationId) ?_ fun k ⟨o', ho', happroved⟩ => ?_
    · rw [hi]
      exact hdrawn
    · rcases hstored k o' ho' with ⟨rfl, -⟩ | ho'
      · exact .inl rfl
      · exact .inr ⟨o', ho', happroved⟩
  · rcases hstored k o' ho' with ⟨rfl, rfl⟩ | ho'
    · refine .inr ⟨rfl, .requested ⟨⟨hub, requestedBy, ?_⟩, List.prefix_refl _, t, h.seen i gi hi _ hseen, htemplate,
        happroval happroved⟩ ⟨rfl, rfl⟩⟩
      rw [h.request i gi hi, hrequest, hnode]
    · exact .inl ho'

/-- A report writes an operation back that has ended. -/
theorem DispatchInv.update (h : DispatchInv p net q m₀ g m tr) (hi : g i = some gi) {o : NodeOperationRecord}
    (ho : o.Terminal) :
    DispatchInv p net q m₀ (Function.update g i (some gi)) (m.onStore (·.saveNodeOperation o))
      (tr ++ [⟨i, .hub (.updateNodeOperation o), ()⟩]) := by
  have hstored : ∀ (k : Uuid) (o' : NodeOperationRecord),
      (m.onStore (·.saveNodeOperation o)).world.store.nodeOperations[k]? = some o' → o'.execStatus = "approved" →
        m.world.store.nodeOperations[k]? = some o' := by
    intro k o' ho' happroved
    rcases Maps.getElem?_insert_eq_some ho' with ⟨rfl, rfl⟩ | ⟨-, ho'⟩
    · exact absurd ho (not_terminal_of_mem (by rw [happroved]; simp))
    · exact ho'
  refine h.silent hi rfl rfl (fun x hx => .inl hx) ?_ (fun k o' ho' happroved => .inl (hstored k o' ho' happroved)) rfl
  rw [Pool.bind_update_same (by rw [hi]; rfl)]
  exact h.ledger.mono (Nat.le_refl _) (fun _ _ hk => hk) fun k ⟨o', ho', happroved⟩ =>
    .inl ⟨o', hstored k o' ho' happroved, happroved⟩

/-- A claim takes the oldest approved operation of the node, and hands it out if its template is there. -/
theorem DispatchInv.claim (h : DispatchInv p net q m₀ g m tr) (hi : g i = some gi) (nodeId : Uuid) :
    DispatchInv p net q m₀ (Function.update g i (some gi))
      { m with world := (hubHandler p (.claimNextNodeOperation nodeId) m.world).2 }
      (tr ++ [⟨i, .hub (.claimNextNodeOperation nodeId),
        (hubHandler p (.claimNextNodeOperation nodeId) m.world).1⟩]) := by
  have hstore : (hubHandler p (.claimNextNodeOperation nodeId) m.world).2.store =
      (m.world.store.claimNextNodeOperation nodeId (p.clock m.world.tick)).2 := rfl
  have hans : (hubHandler p (.claimNextNodeOperation nodeId) m.world).1 =
      (m.world.store.claimNextNodeOperation nodeId (p.clock m.world.tick)).1 := rfl
  have hnext : (hubHandler p (.claimNextNodeOperation nodeId) m.world).2.nextUuid = m.world.nextUuid := rfl
  rcases claim_cases m.world.store nodeId (p.clock m.world.tick) with hc | ⟨o, hold, hc⟩
  · rw [hc] at hstore hans
    refine h.silent hi (by rw [hans]; rfl) rfl (fun x hx => .inl hx) ?_ (fun k o ho _ => .inl ?_) rfl
    · rw [Pool.bind_update_same (by rw [hi]; rfl)]
      refine h.ledger.mono (Nat.le_of_eq hnext.symm) (fun _ _ hk => hk) fun k ⟨o, ho, happroved⟩ => .inl
        ⟨o, ?_, happroved⟩
      dsimp only at ho
      rwa [hstore] at ho
    · dsimp only at ho
      rwa [hstore] at ho
  · rw [hc] at hstore hans
    obtain ⟨k, hk⟩ := hold.stored
    obtain ⟨hid, hmade⟩ := h.origin k o hk hold.approved
    rw [hold.node] at hmade
    -- what is approved after the claim was approved before it, under another identifier
    have hleft : ∀ (k' : Uuid) (o' : NodeOperationRecord),
        (hubHandler p (.claimNextNodeOperation nodeId) m.world).2.store.nodeOperations[k']? = some o' →
          o'.execStatus = "approved" → k' ≠ k ∧ m.world.store.nodeOperations[k']? = some o' := by
      intro k' o' ho' happroved
      rw [hstore] at ho'
      rcases Maps.getElem?_insert_eq_some ho' with ⟨rfl, rfl⟩ | ⟨hne, ho'⟩
      · exact absurd happroved (by simp)
      · exact ⟨fun e => hne (e.trans hid.symm), ho'⟩
    cases ht : m.world.store.operationTemplates[o.templateId]? with
    | none =>
      rw [ht] at hans
      refine h.silent hi (by rw [hans]; rfl) rfl (fun x hx => .inl hx) ?_
        (fun k' o' ho' ha => .inl (hleft k' o' ho' ha).2) rfl
      rw [Pool.bind_update_same (by rw [hi]; rfl)]
      exact h.ledger.mono (Nat.le_of_eq hnext.symm) (fun _ _ hk => hk) fun k' ⟨o', ho', ha⟩ => .inl
        ⟨o', (hleft k' o' ho' ha).2, ha⟩
    | some t =>
      rw [ht] at hans
      refine h.step hi rfl (fun x hx => .inl hx) ?_ (fun k' o' ho' ha => .inl (hleft k' o' ho' ha).2)
        (fun j n claimed e => ?_) rfl
      · rw [handedOut_concat, Pool.bind_update_same (by rw [hi]; rfl), hans]
        refine h.ledger.hand (k := o.operationId) ⟨o, hid ▸ hk, hold.approved⟩ fun k' ⟨o', ho', ha⟩ => ?_
        exact ⟨hid ▸ (hleft k' o' ho' ha).1, o', (hleft k' o' ho' ha).2, ha⟩
      · rw [hans] at e
        cases e
        refine ⟨⟨o, _, ?_, rfl⟩, hid ▸ hmade⟩
        rw [← h.state]
        exact hold

end Invariant

/-! ## Runs -/

section Runs

variable {ι : Type} [DecidableEq ι] (p : Platform) (net : Nat → Delivery) (m₀ : Mesh) (ms : List (Move ι MeshRequest))

theorem spawn_keeps_dispatch :
    Pool.SpawnKeeps (meshProgram p) (onMesh makingSpec) (DispatchInv p net (Pool.asked ms) m₀) (fun _ _ => True)
      (Pool.AsAsked ms) := by
  intro P g i q hadm hi hF
  exact ⟨⟨q, none, none⟩, follows_making p q, hF.inv.spawn (hF.fresh i hi) (hadm hi)⟩

theorem call_keeps_dispatch :
    Pool.CallKeeps (meshHandler p net) (onMesh makingSpec) (DispatchInv p net (Pool.asked ms) m₀)
      (fun (_ : Unit) _ => True) (Pool.AsAsked ms) := by
  intro P g i c k gi _ hi hgi hok hF
  have h := hF.inv
  cases c with
  | hub c =>
    refine ⟨gi.next c (hubHandler p c P.state.world).1, rfl, ?_⟩
    by_cases hc : c.effect = some .operation
    · cases c with
      | saveNodeOperation o => exact h.save hgi hok
      | updateNodeOperation o => exact h.update hgi hok
      | claimNextNodeOperation nodeId => exact h.claim hgi nodeId
      | _ => simp [HubCall.effect] at hc
    · exact h.quiet hgi hc
  | executeSiteFailover policy site eventId now => exact ⟨gi, rfl, h.failover hgi policy site eventId now⟩
  | savePolicy policy =>
    refine ⟨gi, rfl, h.worker hgi rfl (Nat.le_refl _) fun k o ho => .inl ?_⟩
    simp only [meshHandler, Mesh.onStore, savePolicy] at ho
    split at ho <;> exact ho
  | createFailoverEvent policy now reason => exact ⟨gi, rfl, h.worker hgi rfl (Nat.le_succ _) fun _ _ ho => .inl ho⟩
  | _ => exact ⟨gi, rfl, h.worker hgi rfl (Nat.le_refl _) fun _ _ ho => .inl ho⟩

/-- In every run each operation is handed out at most once, and it was then the oldest approved one of the node that
asks for it, made for that node with the approval that the template read for it needed. -/
theorem handed_out_once (remote : RemoteDns) :
    (handedOut (Pool.exec (meshHandler p net) (meshProgram p) (Pool.init (Mesh.init remote)) ms).trace).Nodup ∧
    ∀ pre i nodeId claimed,
      pre ++ [⟨i, .hub (.claimNextNodeOperation nodeId), some claimed⟩] <+:
        (Pool.exec (meshHandler p net) (meshProgram p) (Pool.init (Mesh.init remote)) ms).trace →
      HandedOut p net (Mesh.init remote) pre nodeId claimed ∧
        Originated p net (Pool.asked ms) (Mesh.init remote) pre claimed.operation.operationId nodeId := by
  obtain ⟨g, hF⟩ := Pool.invariant (spawn_keeps_dispatch p net (Mesh.init remote) ms)
    (call_keeps_dispatch p net (Mesh.init remote) ms)
    (Pool.fits_init (DispatchInv.init p net (Pool.asked ms) remote)) ms (Pool.admits_asked _ _ _ ms)
  exact ⟨hF.inv.ledger.nodup, hF.inv.dispatched⟩

variable {p net m₀ ms}

/-- Where the condition holds, an operation that was made was made with the approval it needed. -/
theorem Originated.born (hms : Pool.Admits (meshHandler p net) (meshProgram p) (ApprovalStands ms) (Pool.init m₀) ms)
    {tr : List (Event meshSig ι)} (htr : tr <+: (Pool.exec (meshHandler p net) (meshProgram p) (Pool.init m₀) ms).trace)
    {operationId nodeId : Uuid} (h : Originated p net (Pool.asked ms) m₀ tr operationId nodeId) :
    Born p net (Pool.asked ms) m₀ tr operationId nodeId := by
  cases h with
  | enqueued hmade hop => exact .enqueued hmade hop
  | @requested pre i request o hmade hop =>
    refine .requested hmade hop ?_
    obtain ⟨hub, requestedBy, hasked⟩ := hmade.asked
    obtain ⟨t, hread, -, happroval⟩ := hmade.read
    cases hticket : request.ticket with
    | some ticket => exact .inl rfl
    | none =>
      -- the move that has stored the operation met the condition
      obtain ⟨rest, hrest⟩ := hmade.event.trans htr
      rw [List.append_assoc, List.singleton_append] at hrest
      obtain ⟨before, hbefore, hpre, hnext, -⟩ := Pool.at_event hrest.symm (Nat.zero_le _)
      have hstands := (Pool.admits_iff _ _).1 hms before (.go i) hbefore _ hnext o rfl _ hasked
        (by rw [MeshRequest.Ticketless, hticket]; rfl)
      rw [Pool.exec_state, hpre] at hstands
      refine .inr (hstands ⟨t, mem_templatesRead hread, happroval.resolve_right ?_⟩)
      rw [hticket]
      decide

variable (p net ms)

/-- In every run in which the templates stay as the requests have read them, each operation is handed out at most once,
and it was then the oldest approved one of the node that asks for it, made for that node with the approval it needed. -/
theorem dispatched_once (remote : RemoteDns)
    (hms : Pool.Admits (meshHandler p net) (meshProgram p) (ApprovalStands ms) (Pool.init (Mesh.init remote)) ms) :
    (handedOut (Pool.exec (meshHandler p net) (meshProgram p) (Pool.init (Mesh.init remote)) ms).trace).Nodup ∧
    ∀ pre i nodeId claimed,
      pre ++ [⟨i, .hub (.claimNextNodeOperation nodeId), some claimed⟩] <+:
        (Pool.exec (meshHandler p net) (meshProgram p) (Pool.init (Mesh.init remote)) ms).trace →
      Dispatched p net (Pool.asked ms) (Mesh.init remote) pre nodeId claimed := by
  obtain ⟨hnodup, hclaims⟩ := handed_out_once p net ms remote
  refine ⟨hnodup, fun pre i nodeId claimed hpre => ?_⟩
  obtain ⟨holdest, hmade⟩ := hclaims pre i nodeId claimed hpre
  exact ⟨holdest, hmade.born hms ((List.prefix_append _ _).trans hpre)⟩

end Runs

/-- A node, a template and an operation on the node, which then claims it. -/
def reloadRun : List (Move Nat MeshRequest) :=
  request 0 0 4 (.node "edge-1") ++ request 1 0 4 (.createOperationTemplate (templateRequest "reload")) ++
    request 2 0 5
      (.createNodeOperation 0 { templateId := 2, inputParams := .object [], approvalTicket := none } "admin") ++
    request 3 0 1 (.claimNextNodeOperation 0)

/-- The trace of that run. -/
def reloadTrace : List (Event meshSig Nat) :=
  (Pool.exec (meshHandler .plain fun _ => .done) (meshProgram .plain) (Pool.init (Mesh.init (.ofZones [])))
    reloadRun).trace

/-- The operation is handed out, and it has its origin. -/
theorem dispatched_once_reload : handedOut reloadTrace = [3] ∧ (handedOut reloadTrace).Nodup ∧
    ∃ pre claimed, reloadTrace = pre ++ [⟨3, .hub (.claimNextNodeOperation 0), some claimed⟩] ∧
      Dispatched .plain (fun _ => .done) (Pool.asked reloadRun) (Mesh.init (.ofZones [])) pre 0 claimed := by
  obtain ⟨hnodup, hdispatched⟩ := dispatched_once .plain (fun _ => .done) reloadRun (.ofZones [])
    (by decide +kernel)
  obtain ⟨pre, claimed, htrace⟩ : ∃ pre claimed,
      reloadTrace = pre ++ [⟨3, .hub (.claimNextNodeOperation 0), some claimed⟩] := ⟨reloadTrace.dropLast, _, rfl⟩
  refine ⟨by decide +kernel, hnodup, pre, claimed, htrace, hdispatched pre 3 0 claimed ?_⟩
  exact htrace ▸ List.prefix_refl _

/-- The template needs no approval when the request reads it, and does when the request stores the operation. -/
def changedRun : List (Move Nat MeshRequest) :=
  request 0 0 4 (.node "edge-1") ++ request 1 0 4 (.createOperationTemplate (templateRequest "reload")) ++
    request 2 0 2
      (.createNodeOperation 0 { templateId := 2, inputParams := .object [], approvalTicket := none } "admin") ++
    request 3 0 3 (.updateOperationTemplate 2 { templateRequest "reload" with approvalRequired := true }) ++
    List.replicate 3 (Move.go 2) ++ request 4 0 1 (.claimNextNodeOperation 0)

/-- The trace of that run. -/
def changedTrace : List (Event meshSig Nat) :=
  (Pool.exec (meshHandler .plain fun _ => .done) (meshProgram .plain) (Pool.init (Mesh.init (.ofZones [])))
    changedRun).trace

/-- The call is a failover. -/
def MeshCall.isFailover : MeshCall → Bool
  | .executeSiteFailover _ _ _ _ => true
  | _ => false

/-- What happens in that run: one operation is stored, by the request `2`, when its template needs approval. -/
theorem changedTrace_run :
    handedOut changedTrace = [3] ∧
    (∀ n < changedTrace.length, (changedTrace[n]?.bind fun e => e.call.operation).isSome → n = 15) ∧
    changedTrace[15]?.map (·.thread) = some 2 ∧
    ((changedTrace[15]?.bind fun e => e.call.operation).map (·.templateId)) = some 2 ∧
    ((meshAfter .plain (fun _ => .done) (Mesh.init (.ofZones []))
      (changedTrace.take 15)).world.store.operationTemplates[2]?.map (·.approvalRequired)) = some true ∧
    changedTrace.all (fun e => !e.call.isFailover) = true := by
  decide +kernel

/-- The operation is handed out without the approval that its template needed when the operation was created. -/
theorem approval_outdated : handedOut changedTrace = [3] ∧
    ∃ pre claimed, changedTrace = pre ++ [⟨4, .hub (.claimNextNodeOperation 0), some claimed⟩] ∧
      ¬ Dispatched .plain (fun _ => .done) (Pool.asked changedRun) (Mesh.init (.ofZones [])) pre 0 claimed := by
  obtain ⟨hout, hsave, hthread, htemplate, hrequired, hfailover⟩ := changedTrace_run
  obtain ⟨pre, claimed, htrace⟩ : ∃ pre claimed,
      changedTrace = pre ++ [⟨4, .hub (.claimNextNodeOperation 0), some claimed⟩] := ⟨changedTrace.dropLast, _, rfl⟩
  refine ⟨hout, pre, claimed, htrace, fun hdispatched => ?_⟩
  have hpre : pre <+: changedTrace := htrace ▸ List.prefix_append _ _
  cases hdispatched.born with
  | @requested before i request o hmade hoperation happroval =>
    obtain ⟨rest, hrest⟩ := hmade.event.trans hpre
    rw [List.append_assoc, List.singleton_append] at hrest
    have hevent : changedTrace[before.length]? = some ⟨i, .hub (.saveNodeOperation o), ()⟩ := by
      rw [← hrest]
      simp
    -- this is the one operation that is stored
    have hlength : before.length = 15 := by
      refine hsave _ ?_ (by rw [hevent]; rfl)
      rw [← hrest]
      simp
    have hbefore : before = changedTrace.take 15 := by
      rw [← hrest, ← hlength]
      simp
    rw [hlength] at hevent
    rw [hevent] at hthread htemplate
    obtain rfl : i = 2 := Option.some.inj hthread
    have htemplateId : o.templateId = 2 := Option.some.inj htemplate
    rcases happroval with hticket | ⟨t, ht, hfree⟩
    · obtain ⟨hub, requestedBy, hasked⟩ := hmade.asked
      have hrequest := (Request.createNodeOperation.inj (MeshRequest.hub.inj (Option.some.inj hasked)).2).2.1
      rw [← hrequest] at hticket
      cases hticket
    · rw [htemplateId, hbefore] at ht
      rw [ht] at hrequired
      exact absurd (hfree.symm.trans (Option.some.inj hrequired)) Bool.false_ne_true
  | @enqueued before o hmade hoperation =>
    obtain ⟨i, policy, site, eventId, now, answer, hevent, -⟩ := hmade.event
    have hmem := (hevent.trans hpre).subset (List.mem_append_right _ (List.mem_singleton_self _))
    cases List.all_eq_true.1 hfailover _ hmem

end PingoraMesh
