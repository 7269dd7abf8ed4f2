import PingoraMesh.Hub.Alone
import PingoraMesh.Hub.Effects
import PingoraMesh.Lib.Maps

/-!
# The life of a node operation

An operation is created, claimed by its node and reported on, and is gone when its template is deleted.

* `createNodeOperation_rule`, `reportNodeOperationResult_rule` and `claim_cases` say what each of these does when
  nothing runs beside it, and `operations_of_effect` that nothing else adds or changes an operation;
* `lifecycle_iff_inTurn`: over every sequence of requests, operations follow their lifecycle if and only if each report
  that is accepted finds its operation running, or repeats what the operation has already;
* `claimed_from_current_template`: what a claim returns is rendered from the template as it is then, for the parameters
  that the operation was created with.
-/

namespace PingoraMesh

open Calls Fallible HubService

/-- The statuses in which an operation has ended. -/
def terminalStatuses : List String := ["success", "failed", "timeout", "cancelled"]

theorem normalizeOperationExecStatus_ok {p : Platform} {raw status : String}
    (h : normalizeOperationExecStatus p raw = .ok status) : status ∈ terminalStatuses := by
  unfold normalizeOperationExecStatus at h
  dsimp only at h
  split at h
  · cases h
    assumption
  · cases h

/-! ## What requests do to operations -/

section Effects

variable {p : Platform} {w : World}

/-- Only calls on operations add or change one. -/
theorem operations_of_effect {c : HubCall} (h : c.effect ≠ some .operation) {k : Uuid} {o : NodeOperationRecord}
    (ho : (hubHandler p c w).2.store.nodeOperations[k]? = some o) : w.store.nodeOperations[k]? = some o := by
  cases c with
  | saveNodeOperation operation => exact absurd rfl h
  | updateNodeOperation operation => exact absurd rfl h
  | claimNextNodeOperation nodeId => exact absurd rfl h
  | deleteOperationTemplate templateId =>
    simp only [hubHandler, World.write, MemoryState.deleteOperationTemplate] at ho
    split at ho
    · exact ho
    · exact (Maps.getElem?_filter_eq_some ho).1
  | deleteNode nodeId =>
    simp only [hubHandler, World.write, MemoryState.deleteNode] at ho
    split at ho <;> exact ho
  | deleteSite siteId =>
    simp only [hubHandler, World.write, MemoryState.deleteSite] at ho
    split at ho <;> exact ho
  | deleteDnsProvider providerId =>
    simp only [hubHandler, World.write, MemoryState.deleteDnsProvider] at ho
    split at ho <;> exact ho
  | _ => exact ho

/-- The ticket of a request, unless it is blank. -/
def CreateNodeOperationRequest.ticket (request : CreateNodeOperationRequest) : Option String :=
  (request.approvalTicket.map Text.trim).filter fun v => !Text.isEmpty v

/-- The command, the timeout and the user that a template gives for some parameters. -/
def OperationTemplateRecord.dispatch (t : OperationTemplateRecord) (inputParams : Value) :
    Except AppError (String × Nat × String) := do
  let params ← normalizeOperationInputParams inputParams
  let (template, command) ← renderTemplate t params
  return (command, template.timeoutSeconds, t.runAsUser)

/-- What is known of the operation that a request creates next. -/
structure NewOperation (w : World) (nodeId : Uuid) (request : CreateNodeOperationRequest) (t : OperationTemplateRecord)
    (o : NodeOperationRecord) : Prop where
  operationId : o.operationId = w.nextUuid
  node : o.nodeId = nodeId
  template : w.store.operationTemplates[request.templateId]? = some t
  templateId : o.templateId = t.templateId
  inputParams : o.inputParams = request.inputParams
  validated : ∃ out, t.dispatch request.inputParams = .ok out
  execStatus : o.execStatus = if t.approvalRequired && request.ticket.isNone then "pending" else "approved"

theorem createNodeOperation_rule (nodeId : Uuid) (request : CreateNodeOperationRequest) (requestedBy : String) :
    wp (aloneSpec p) (createNodeOperation nodeId request requestedBy)
      (fun _ w' => ∃ t o, NewOperation w nodeId request t o ∧ w'.store = w.store.saveNodeOperation o ∧
        w'.nextUuid = w.nextUuid + 1) (fun _ w' => w' = w) w := by
  simp only [createNodeOperation, repo, wp_bind, wp_call_alone, wp_okOr, wp_attempt, wp_pure, hubHandler, World.read,
    World.write, true_and, forall_const, implies_true, and_true]
  intro node hnode t ht params hparams out hout
  have hobject : request.inputParams = .object params := by
    unfold normalizeOperationInputParams at hparams
    split at hparams
    · rename_i map heq
      cases hparams
      exact heq
    · cases hparams
  have hvalid : t.dispatch request.inputParams = .ok (out.2, out.1.timeoutSeconds, t.runAsUser) := by
    rw [OperationTemplateRecord.dispatch, hparams]
    exact bind_eq_ok.2 ⟨params, rfl, bind_eq_ok.2 ⟨out, hout, rfl⟩⟩
  refine ⟨t, _, ?_, rfl⟩
  exact ⟨rfl, rfl, ht, rfl, hobject.symm, ⟨_, hvalid⟩, rfl⟩

/-- An operation with the result that a request reports. -/
def NodeOperationRecord.reported (o : NodeOperationRecord) (status : String) (request : OperationResultRequest)
    (startedAt : DateTime) : NodeOperationRecord :=
  { o with
    execStatus := status
    exitCode := some request.exitCode
    stdoutLog := some (truncateLogOutput request.stdout)
    stderrLog := some (truncateLogOutput request.stderr)
    finishedAt := some request.finishedAt
    startedAt := some startedAt }

/-- A report is accepted: the operation is there, belongs to the node, and the status is one of the terminal ones. -/
def Accepted (p : Platform) (s : MemoryState) (operationId : Uuid) (request : OperationResultRequest)
    (o : NodeOperationRecord) (status : String) : Prop :=
  s.nodeOperations[operationId]? = some o ∧ o.nodeId = request.nodeId ∧
    normalizeOperationExecStatus p request.execStatus = .ok status

theorem reportNodeOperationResult_rule (operationId : Uuid) (request : OperationResultRequest) :
    wp (aloneSpec p) (reportNodeOperationResult p operationId request)
      (fun _ w' => ∃ o status startedAt, Accepted p w.store operationId request o status ∧
        w'.store = w.store.saveNodeOperation (o.reported status request startedAt) ∧ w'.nextUuid = w.nextUuid)
      (fun _ w' => w' = w ∧ ∀ o status, ¬ Accepted p w.store operationId request o status) w := by
  simp only [reportNodeOperationResult, repo, wp_bind, wp_call_alone, wp_okOr, wp_ensure, wp_attempt, wp_getOr, wp_pure,
    hubHandler, World.read, World.write, true_and, forall_const]
  refine ⟨fun o ho => ⟨fun hnode => ⟨fun status hs => ⟨fun t _ => ?_, fun _ => ?_⟩, fun e he => ?_⟩, fun hnode => ?_⟩,
    fun hn => ?_⟩
  · exact ⟨o, status, t, ⟨ho, beq_iff_eq.1 hnode, hs⟩, rfl, trivial⟩
  · exact ⟨o, status, _, ⟨ho, beq_iff_eq.1 hnode, hs⟩, rfl, trivial⟩
  · rintro o' status ⟨-, -, hs⟩
    rw [hs] at he
    cases he
  · rintro o' status ⟨ho', hnode', -⟩
    rw [ho] at ho'
    cases ho'
    exact beq_eq_false_iff_ne.1 hnode hnode'
  · rintro o' status ⟨ho', -, -⟩
    rw [hn] at ho'
    cases ho'

/-- The oldest approved operation of a node. -/
structure Oldest (s : MemoryState) (nodeId : Uuid) (o : NodeOperationRecord) : Prop where
  stored : ∃ k : Uuid, s.nodeOperations[k]? = some o
  node : o.nodeId = nodeId
  approved : o.execStatus = "approved"
  first : ∀ (k : Uuid) (o' : NodeOperationRecord), s.nodeOperations[k]? = some o' → o'.nodeId = nodeId →
    o'.execStatus = "approved" → o.createdAt ≤ o'.createdAt

theorem oldest_of_nextApproved {s : MemoryState} {nodeId : Uuid} {o : NodeOperationRecord}
    (h : s.nextApproved nodeId = some o) : Oldest s nodeId o := by
  obtain ⟨hmem, hf⟩ := List.mem_filter.1 (mem_of_minByKey h)
  rw [Bool.and_eq_true, beq_iff_eq, beq_iff_eq] at hf
  refine ⟨Maps.mem_values.1 hmem, hf.1, hf.2, fun k o' hk hn ha => minByKey_le h o' (List.mem_filter.2 ⟨?_, ?_⟩)⟩
  · exact Maps.mem_values.2 ⟨k, hk⟩
  · rw [Bool.and_eq_true, beq_iff_eq, beq_iff_eq]
    exact ⟨hn, ha⟩

/-- A claim finds nothing, or the oldest approved operation of the node, which is then running. -/
theorem claim_cases (s : MemoryState) (nodeId : Uuid) (now : DateTime) :
    s.claimNextNodeOperation nodeId now = (none, s) ∨
      ∃ o, Oldest s nodeId o ∧ s.claimNextNodeOperation nodeId now =
        (s.operationTemplates[o.templateId]?.map
          fun t => ⟨{ o with execStatus := "running", startedAt := some now }, t⟩,
          s.saveNodeOperation { o with execStatus := "running", startedAt := some now }) := by
  unfold MemoryState.claimNextNodeOperation
  cases h : s.nextApproved nodeId with
  | none => exact .inl rfl
  | some o => exact .inr ⟨o, oldest_of_nextApproved h, rfl⟩

end Effects

/-- What a request can do to the operations, and what is known of the one that it writes. -/
inductive OperationStep (p : Platform) (w w' : World) : Request → Prop
  | kept {r : Request} (h : ∀ (k : Uuid) (o : NodeOperationRecord), w'.store.nodeOperations[k]? = some o →
      w.store.nodeOperations[k]? = some o) : OperationStep p w w' r
  | created {nodeId : Uuid} {request : CreateNodeOperationRequest} {requestedBy : String} {t : OperationTemplateRecord}
      {o : NodeOperationRecord} (h : NewOperation w nodeId request t o) (hs : w'.store = w.store.saveNodeOperation o)
      (hu : w'.nextUuid = w.nextUuid + 1) : OperationStep p w w' (.createNodeOperation nodeId request requestedBy)
  | claimed {nodeId : Uuid} {o : NodeOperationRecord} {now : DateTime} (h : Oldest w.store nodeId o)
      (hs : w'.store = w.store.saveNodeOperation { o with execStatus := "running", startedAt := some now }) :
      OperationStep p w w' (.claimNextNodeOperation nodeId)
  | reported {operationId : Uuid} {request : OperationResultRequest} {o : NodeOperationRecord} {status : String}
      {startedAt : DateTime} (h : Accepted p w.store operationId request o status)
      (hs : w'.store = w.store.saveNodeOperation (o.reported status request startedAt)) :
      OperationStep p w w' (.reportNodeOperationResult operationId request)

section Step

variable {p : Platform} {hub : Hub} {w : World}

theorem serve_keeps_operations {r : Request} (hr : Effect.operation ∉ r.effects) (k : Uuid) (o : NodeOperationRecord)
    (ho : (w.serve p hub r).store.nodeOperations[k]? = some o) : w.store.nodeOperations[k]? = some o := by
  refine serve_of_wp (Q := fun w' => ∀ (k : Uuid) (o : NodeOperationRecord), w'.store.nodeOperations[k]? = some o →
    w.store.nodeOperations[k]? = some o) (only_alone (program_only p hub r) (fun c w' hc h k o ho => ?_) fun _ _ h => h)
    k o ho
  refine h k o (operations_of_effect (fun e => hr ?_) ho)
  rw [HubCall.Within, e] at hc
  exact hc

theorem nextUuid_le_serve (r : Request) : w.nextUuid ≤ (w.serve p hub r).nextUuid :=
  serve_of_wp (Q := fun w' => w.nextUuid ≤ w'.nextUuid)
    (only_alone (program_only p hub r) (fun _ _ _ h => h.trans nextUuid_le) le_rfl)

theorem serve_operationStep (r : Request) : OperationStep p w (w.serve p hub r) r := by
  cases r with
  | createNodeOperation nodeId request requestedBy =>
    refine serve_of_wp (Q := fun w' => OperationStep p w w' _) ((wp_discard _).2 ?_)
    refine wp_mono ?_ ?_ (createNodeOperation_rule nodeId request requestedBy)
    · rintro _ w' ⟨t, o, hnew, hs, hu⟩
      exact .created hnew hs hu
    · rintro _ w' rfl
      exact .kept fun _ _ h => h
  | claimNextNodeOperation nodeId =>
    have hstore : (w.serve p hub (.claimNextNodeOperation nodeId)).store =
        (w.store.claimNextNodeOperation nodeId (p.clock w.tick)).2 := by
      refine serve_of_wp (Q := fun w' => w'.store = _) ((wp_discard _).2 ?_)
      simp [HubService.claimNextNodeOperation, repo, hubHandler]
    rcases claim_cases w.store nodeId (p.clock w.tick) with hc | ⟨o, ho, hc⟩
    · rw [hc] at hstore
      exact .kept fun k o h => by rw [hstore] at h; exact h
    · rw [hc] at hstore
      exact .claimed ho hstore
  | reportNodeOperationResult operationId request =>
    refine serve_of_wp (Q := fun w' => OperationStep p w w' _) ((wp_discard _).2 ?_)
    refine wp_mono ?_ ?_ (reportNodeOperationResult_rule operationId request)
    · rintro _ w' ⟨o, status, startedAt, hacc, hs, -⟩
      exact .reported hacc hs
    · rintro _ w' ⟨rfl, -⟩
      exact .kept fun _ _ h => h
  | _ => exact .kept (serve_keeps_operations (by simp [Request.effects]))

/-- A report that is accepted is written. -/
theorem serve_report {operationId : Uuid} {request : OperationResultRequest} {o : NodeOperationRecord} {status : String}
    (h : Accepted p w.store operationId request o status) : ∃ startedAt,
    (w.serve p hub (.reportNodeOperationResult operationId request)).store =
      w.store.saveNodeOperation (o.reported status request startedAt) := by
  refine serve_of_wp (Q := fun w' => ∃ startedAt, w'.store = w.store.saveNodeOperation
    (o.reported status request startedAt))
    ((wp_discard _).2 (wp_mono ?_ (fun _ w' hn => absurd h (hn.2 o status))
      (reportNodeOperationResult_rule operationId request)))
  rintro _ w' ⟨o', status', startedAt, hacc, hs, -⟩
  obtain rfl : o' = o := Option.some.inj (hacc.1.symm.trans h.1)
  obtain rfl : status' = status := Except.ok.inj (hacc.2.2.symm.trans h.2.2)
  exact ⟨startedAt, hs⟩

/-- Operations are stored under their identifiers, which have been drawn. -/
def OperationIds (w : World) : Prop :=
  ∀ (k : Uuid) (o : NodeOperationRecord), w.store.nodeOperations[k]? = some o → o.operationId = k ∧ k < w.nextUuid

theorem OperationIds.init : OperationIds World.init := by
  intro k o h
  simp [World.init, MemoryState.empty] at h

theorem OperationIds.serve (h : OperationIds w) (r : Request) : OperationIds (w.serve p hub r) := by
  have hu : w.nextUuid ≤ (w.serve p hub r).nextUuid := nextUuid_le_serve r
  have hstep : OperationStep p w (w.serve p hub r) r := serve_operationStep r
  generalize w.serve p hub r = w' at hstep hu
  intro k x hx
  cases hstep with
  | kept hk => exact ⟨(h k x (hk k x hx)).1, (h k x (hk k x hx)).2.trans_le hu⟩
  | created hnew hs hu' =>
    rw [hs] at hx
    rcases Maps.getElem?_insert_eq_some hx with ⟨rfl, rfl⟩ | ⟨-, hx⟩
    · exact ⟨rfl, by rw [hnew.operationId, hu']; exact Nat.lt_succ_self _⟩
    · exact ⟨(h k x hx).1, (h k x hx).2.trans_le hu⟩
  | claimed hold hs =>
    rw [hs] at hx
    obtain ⟨k', hk'⟩ := hold.stored
    rcases Maps.getElem?_insert_eq_some hx with ⟨rfl, rfl⟩ | ⟨-, hx⟩
    · exact ⟨rfl, (h k' _ hk').1 ▸ (h k' _ hk').2.trans_le hu⟩
    · exact ⟨(h k x hx).1, (h k x hx).2.trans_le hu⟩
  | reported hacc hs =>
    rw [hs] at hx
    rcases Maps.getElem?_insert_eq_some hx with ⟨rfl, rfl⟩ | ⟨-, hx⟩
    · exact ⟨rfl, (h _ _ hacc.1).1 ▸ (h _ _ hacc.1).2.trans_le hu⟩
    · exact ⟨(h k x hx).1, (h k x hx).2.trans_le hu⟩

theorem OperationIds.serveAll (rs : List Request) : OperationIds (World.init.serveAll p hub rs) := by
  induction rs using List.reverseRecOn with
  | nil => exact .init
  | append_singleton rs r ih =>
    rw [World.serveAll_concat]
    exact ih.serve r

end Step

/-! ## The lifecycle -/

/-- The operation has ended. -/
def NodeOperationRecord.Terminal (o : NodeOperationRecord) : Prop := o.execStatus ∈ terminalStatuses

instance (o : NodeOperationRecord) : Decidable o.Terminal := inferInstanceAs (Decidable (_ ∈ _))

/-- The same result: status, exit code and logs. -/
def NodeOperationRecord.SameResult (o o' : NodeOperationRecord) : Prop :=
  o'.execStatus = o.execStatus ∧ o'.exitCode = o.exitCode ∧ o'.stdoutLog = o.stdoutLog ∧ o'.stderrLog = o.stderrLog

/-- From one state to the next: an operation ends only while it is running, which it is since a claim of its node has
found it approved; a result stays as it is; and no operation starts with one. -/
structure Lifecycle (r : Request) (s s' : MemoryState) : Prop where
  ends : ∀ (k : Uuid) (o o' : NodeOperationRecord), s.nodeOperations[k]? = some o → s'.nodeOperations[k]? = some o' →
    o'.Terminal → o.Terminal ∨ o.execStatus = "running"
  stays : ∀ (k : Uuid) (o o' : NodeOperationRecord), s.nodeOperations[k]? = some o → s'.nodeOperations[k]? = some o' →
    o.Terminal → o.SameResult o'
  starts : ∀ (k : Uuid) (o' : NodeOperationRecord), s.nodeOperations[k]? = none → s'.nodeOperations[k]? = some o' →
    o'.execStatus ∈ ["pending", "approved"]
  runs : ∀ (k : Uuid) (o o' : NodeOperationRecord), s.nodeOperations[k]? = some o → s'.nodeOperations[k]? = some o' →
    o'.execStatus = "running" →
      o.execStatus = "running" ∨ (o.execStatus = "approved" ∧ r = .claimNextNodeOperation o.nodeId)

/-- A report that is accepted finds its operation running, or brings the result that it has already. -/
def InTurn (p : Platform) (s : MemoryState) : Request → Prop
  | .reportNodeOperationResult operationId request => ∀ o status, Accepted p s operationId request o status →
      o.execStatus = "running" ∨ o.SameResult (o.reported status request 0)
  | _ => True

section Lifecycle

variable {p : Platform} {hub : Hub} {w : World}

theorem Lifecycle.kept {r : Request} {s s' : MemoryState} (h : ∀ (k : Uuid) (o : NodeOperationRecord),
    s'.nodeOperations[k]? = some o → s.nodeOperations[k]? = some o) : Lifecycle r s s' where
  ends k o o' ho ho' ht := .inl (Option.some.inj (ho.symm.trans (h k o' ho')) ▸ ht)
  stays k o o' ho ho' _ := Option.some.inj (ho.symm.trans (h k o' ho')) ▸ ⟨rfl, rfl, rfl, rfl⟩
  starts k o' ho ho' := by
    have := h k o' ho'
    rw [ho] at this
    cases this
  runs k o o' ho ho' hr := .inl (Option.some.inj (ho.symm.trans (h k o' ho')) ▸ hr)

/-- One operation is written, under an identifier that is free or its own. -/
theorem Lifecycle.saved {r : Request} {s : MemoryState} {new : NodeOperationRecord}
    (hfree : s.nodeOperations[new.operationId]? = none → new.execStatus ∈ ["pending", "approved"])
    (hold : ∀ o, s.nodeOperations[new.operationId]? = some o →
      (new.Terminal → o.Terminal ∨ o.execStatus = "running") ∧ (o.Terminal → o.SameResult new) ∧
      (new.execStatus = "running" →
        o.execStatus = "running" ∨ (o.execStatus = "approved" ∧ r = .claimNextNodeOperation o.nodeId))) :
    Lifecycle r s (s.saveNodeOperation new) := by
  refine ⟨fun k o o' ho ho' => ?_, fun k o o' ho ho' => ?_, fun k o' ho ho' => ?_, fun k o o' ho ho' => ?_⟩
  all_goals rcases Maps.getElem?_insert_eq_some ho' with ⟨rfl, rfl⟩ | ⟨-, hk⟩
  · exact (hold o ho).1
  · rw [ho] at hk
    cases hk
    exact .inl
  · exact (hold o ho).2.1
  · rw [ho] at hk
    cases hk
    exact fun _ => ⟨rfl, rfl, rfl, rfl⟩
  · exact hfree ho
  · rw [ho] at hk
    cases hk
  · exact (hold o ho).2.2
  · rw [ho] at hk
    cases hk
    exact .inl

theorem not_terminal_of_mem {o : NodeOperationRecord} (h : o.execStatus ∈ ["pending", "approved", "running"]) :
    ¬ o.Terminal := by
  unfold NodeOperationRecord.Terminal
  simp only [List.mem_cons, List.not_mem_nil, or_false] at h
  rcases h with h | h | h <;> rw [h] <;> decide

/-- A request in turn keeps the operations on their lifecycle. -/
theorem lifecycle_of_inTurn (h : OperationIds w) {r : Request} (hr : InTurn p w.store r) :
    Lifecycle r w.store (w.serve p hub r).store := by
  have hstep : OperationStep p w (w.serve p hub r) r := serve_operationStep r
  generalize w.serve p hub r = w' at hstep
  cases hstep with
  | kept hk => exact .kept hk
  | @created _ _ _ t o hnew hs hu =>
    rw [hs]
    refine .saved (fun _ => ?_) fun o' ho' => ?_
    · rw [hnew.execStatus]
      split <;> simp
    · have := (h _ _ ho').2
      rw [hnew.operationId] at this
      exact absurd this (Nat.lt_irrefl _)
  | @claimed nodeId o now hold hs =>
    rw [hs]
    obtain ⟨k, hk⟩ := hold.stored
    have hid : o.operationId = k := (h k o hk).1
    refine .saved (fun hn => ?_) fun o' ho' => ?_
    · dsimp only at hn
      rw [hid, hk] at hn
      cases hn
    · dsimp only at ho'
      rw [hid, hk] at ho'
      cases ho'
      refine ⟨fun ht => absurd ht (not_terminal_of_mem (by simp)), fun ht => ?_, fun _ => .inr ⟨hold.approved, ?_⟩⟩
      · exact absurd ht (not_terminal_of_mem (by simp [hold.approved]))
      · rw [hold.node]
  | @reported operationId request o status startedAt hacc hs =>
    rw [hs]
    have hid : o.operationId = operationId := (h _ _ hacc.1).1
    have hterm : (o.reported status request startedAt).Terminal := normalizeOperationExecStatus_ok hacc.2.2
    refine .saved (fun hn => ?_) fun o' ho' => ?_
    · change w.store.nodeOperations[o.operationId]? = none at hn
      rw [hid, hacc.1] at hn
      cases hn
    · change w.store.nodeOperations[o.operationId]? = some o' at ho'
      rw [hid, hacc.1] at ho'
      cases ho'
      refine ⟨fun _ => ?_, fun ht => ?_, fun hrun => ?_⟩
      · rcases hr o status hacc with hrun | hsame
        · exact .inr hrun
        · exact .inl (hsame.1 ▸ hterm : o.execStatus ∈ terminalStatuses)
      · rcases hr o status hacc with hrun | hsame
        · exact absurd ht (not_terminal_of_mem (by simp [hrun]))
        · exact hsame
      · exact absurd hterm (not_terminal_of_mem (by rw [hrun]; simp))

/-- Operations on their lifecycle have been reported on in turn. -/
theorem inTurn_of_lifecycle (h : OperationIds w) {r : Request} (hl : Lifecycle r w.store (w.serve p hub r).store) :
    InTurn p w.store r := by
  cases r with
  | reportNodeOperationResult operationId request =>
    intro o status hacc
    obtain ⟨startedAt, hs⟩ := @serve_report p hub _ _ _ _ _ hacc
    have hid : o.operationId = operationId := (h _ _ hacc.1).1
    have hnew : (w.serve p hub (.reportNodeOperationResult operationId request)).store.nodeOperations[operationId]? =
        some (o.reported status request startedAt) := by
      rw [hs, ← hid]
      exact Std.ExtTreeMap.getElem?_insert_self
    rcases hl.ends operationId o _ hacc.1 hnew (normalizeOperationExecStatus_ok hacc.2.2) with ht | hrun
    · have hsame : o.SameResult (o.reported status request startedAt) := hl.stays operationId o _ hacc.1 hnew ht
      exact .inr hsame
    · exact .inl hrun
  | _ => trivial

end Lifecycle

/-- Over every sequence of requests to a hub on an empty store: operations follow their lifecycle at every request if
and only if every report comes in turn. -/
theorem lifecycle_iff_inTurn (p : Platform) (hub : Hub) (rs : List Request) :
    (∀ pre r, pre ++ [r] <+: rs →
      Lifecycle r (World.init.serveAll p hub pre).store (World.init.serveAll p hub (pre ++ [r])).store) ↔
    ∀ pre r, pre ++ [r] <+: rs → InTurn p (World.init.serveAll p hub pre).store r := by
  refine forall_congr' fun pre => forall_congr' fun r => forall_congr' fun _ => ?_
  rw [World.serveAll_concat]
  exact ⟨inTurn_of_lifecycle (.serveAll pre), lifecycle_of_inTurn (.serveAll pre)⟩

/-- An operation whose template asks for an approval, without a ticket, on a node. -/
def unapproved : List Request :=
  [.node "edge-1", .createOperationTemplate { templateRequest "reload" with approvalRequired := true },
    .createNodeOperation 0 { templateId := 2, inputParams := .object [], approvalTicket := none } "admin"]

/-- The node reports a success for an operation that nobody has approved. -/
def earlyReport : Request :=
  .reportNodeOperationResult 3
    { nodeId := 0, execStatus := "success", exitCode := 0, stdout := "", stderr := "", finishedAt := 0 }

/-- An operation that waits for its approval ends when its node says so. -/
theorem pending_operation_ends :
    ¬ ∀ pre r, pre ++ [r] <+: unapproved ++ [earlyReport] →
      Lifecycle r (World.init.serveAll .plain ⟨0, 30⟩ pre).store
        (World.init.serveAll .plain ⟨0, 30⟩ (pre ++ [r])).store := by
  intro h
  have hl := h unapproved earlyReport (List.prefix_refl _)
  have hbefore : (World.init.serveAll .plain ⟨0, 30⟩ unapproved).store.nodeOperations[3]?.map (·.execStatus) =
      some "pending" := by decide +kernel
  have hafter : (World.init.serveAll .plain ⟨0, 30⟩ (unapproved ++ [earlyReport])).store.nodeOperations[3]?.map
      (·.execStatus) = some "success" := by decide +kernel
  obtain ⟨o, ho, hs⟩ := Option.map_eq_some_iff.1 hbefore
  obtain ⟨o', ho', hs'⟩ := Option.map_eq_some_iff.1 hafter
  have hterm : o'.Terminal := by rw [NodeOperationRecord.Terminal, hs']; decide
  rcases hl.ends 3 o o' ho ho' hterm with ht | hrun
  · exact not_terminal_of_mem (by simp [hs]) ht
  · rw [hs] at hrun
    exact absurd hrun (by decide)

/-! ## What a claim returns -/

/-- The parts of a template that decide what is run. -/
def OperationTemplateRecord.SameCommand (t t' : OperationTemplateRecord) : Prop :=
  t'.operationType = t.operationType ∧ t'.commandTemplate = t.commandTemplate ∧ t'.allowedParams = t.allowedParams ∧
    t'.timeoutSeconds = t.timeoutSeconds ∧ t'.runAsUser = t.runAsUser

theorem dispatch_congr {t t' : OperationTemplateRecord} (h : t.SameCommand t') (params : Value) :
    t'.dispatch params = t.dispatch params := by
  obtain ⟨htype, hcommand, hallowed, htimeout, huser⟩ := h
  unfold OperationTemplateRecord.dispatch renderTemplate buildOperationTemplate OperationTemplate.renderCommand
  rw [htype, hcommand, hallowed, htimeout, huser]
  cases normalizeOperationInputParams params with
  | error e => rfl
  | ok map =>
    cases operationKind t.operationType with
    | none => rfl
    | some kind =>
      dsimp only [bind, Except.bind]
      cases (normalizeOperationInputArray t.allowedParams).foldlM
        (OperationTemplate.renderParam map) t.commandTemplate <;>
        cases map.find? (fun param => !(normalizeOperationInputArray t.allowedParams).contains param.1) <;> rfl

theorem claimedNodeOperationDispatch_ok {claimed : ClaimedNodeOperation} {response : PendingOperationResponse}
    (h : claimedNodeOperationDispatch claimed = .ok response) :
    response.operationId = claimed.operation.operationId ∧
      claimed.template.dispatch claimed.operation.inputParams =
        .ok (response.renderedCommand, response.timeoutSeconds, response.runAsUser) := by
  obtain ⟨template, ht, h⟩ := bind_eq_ok.1 h
  obtain ⟨params, hp, h⟩ := bind_eq_ok.1 h
  split at h
  · cases h
  · rename_i command hc
    cases h
    refine ⟨rfl, ?_⟩
    rw [OperationTemplateRecord.dispatch, hp]
    refine bind_eq_ok.2 ⟨params, rfl, bind_eq_ok.2 ⟨(template, command), ?_, rfl⟩⟩
    rw [renderTemplate, ht]
    dsimp only [bind, Except.bind]
    rw [hc]
    rfl

section Claims

variable {p : Platform} {hub : Hub}

/-- Templates are stored under their identifiers. -/
def TemplateIds (w : World) : Prop :=
  ∀ (k : Uuid) (t : OperationTemplateRecord), w.store.operationTemplates[k]? = some t → t.templateId = k

theorem TemplateIds.call {w : World} (h : TemplateIds w) (c : HubCall) : TemplateIds (hubHandler p c w).2 := by
  cases c with
  | saveOperationTemplate template =>
    intro k t hk
    rcases Maps.getElem?_insert_eq_some hk with ⟨rfl, rfl⟩ | ⟨-, hk⟩
    · rfl
    · exact h k t hk
  | deleteOperationTemplate templateId =>
    simp only [hubHandler, World.write, MemoryState.deleteOperationTemplate]
    split
    · exact h
    · exact fun k t hk => h k t (Maps.getElem?_erase_eq_some hk).2
  | deleteNode nodeId =>
    simp only [hubHandler, World.write, MemoryState.deleteNode]
    split <;> exact h
  | deleteSite siteId =>
    simp only [hubHandler, World.write, MemoryState.deleteSite]
    split <;> exact h
  | deleteDnsProvider providerId =>
    simp only [hubHandler, World.write, MemoryState.deleteDnsProvider]
    split <;> exact h
  | claimNextNodeOperation nodeId =>
    simp only [hubHandler, MemoryState.claimNextNodeOperation]
    split <;> exact h
  | _ => exact h

theorem TemplateIds.serveAll (rs : List Request) : TemplateIds (World.init.serveAll p hub rs) := by
  induction rs using List.reverseRecOn with
  | nil =>
    intro k t h
    simp [World.serveAll, World.init, MemoryState.empty] at h
  | append_singleton rs r ih =>
    rw [World.serveAll_concat]
    exact serve_of_wp (only_alone (program_only p hub r) (fun c _ _ h => h.call c) ih)

/-- The operation was created by a request of the sequence, for this template and these parameters. -/
def CreatedBy (p : Platform) (hub : Hub) (rs : List Request) (o : NodeOperationRecord) : Prop :=
  ∃ pre nodeId request requestedBy post t o₀,
    rs = pre ++ Request.createNodeOperation nodeId request requestedBy :: post ∧
    NewOperation (World.init.serveAll p hub pre) nodeId request t o₀ ∧ o.operationId = o₀.operationId ∧
    o.templateId = o₀.templateId ∧ o.inputParams = o₀.inputParams

theorem CreatedBy.snoc {rs : List Request} {o o' : NodeOperationRecord} (h : CreatedBy p hub rs o)
    (hid : o'.operationId = o.operationId) (ht : o'.templateId = o.templateId) (hp : o'.inputParams = o.inputParams)
    (r : Request) : CreatedBy p hub (rs ++ [r]) o' := by
  obtain ⟨pre, nodeId, request, requestedBy, post, t, o₀, rfl, hnew, h₁, h₂, h₃⟩ := h
  exact ⟨pre, nodeId, request, requestedBy, post ++ [r], t, o₀, by simp, hnew, hid.trans h₁, ht.trans h₂, hp.trans h₃⟩

/-- Every stored operation was created by a request, and keeps its template and its parameters. -/
theorem createdBy_of_stored (rs : List Request) (k : Uuid) (o : NodeOperationRecord)
    (h : (World.init.serveAll p hub rs).store.nodeOperations[k]? = some o) : CreatedBy p hub rs o := by
  induction rs using List.reverseRecOn generalizing k o with
  | nil => simp [World.serveAll, World.init, MemoryState.empty] at h
  | append_singleton rs r ih =>
    rw [World.serveAll_concat] at h
    have hstep : OperationStep p (World.init.serveAll p hub rs) ((World.init.serveAll p hub rs).serve p hub r) r :=
      serve_operationStep r
    generalize (World.init.serveAll p hub rs).serve p hub r = w' at h hstep
    cases hstep with
    | kept hk => exact (ih k o (hk k o h)).snoc rfl rfl rfl r
    | created hnew hs hu =>
      rw [hs] at h
      rcases Maps.getElem?_insert_eq_some h with ⟨rfl, rfl⟩ | ⟨-, h⟩
      · exact ⟨rs, _, _, _, [], _, _, rfl, hnew, rfl, rfl, rfl⟩
      · exact (ih k o h).snoc rfl rfl rfl _
    | claimed hold hs =>
      rw [hs] at h
      obtain ⟨k', hk'⟩ := hold.stored
      rcases Maps.getElem?_insert_eq_some h with ⟨rfl, rfl⟩ | ⟨-, h⟩
      · exact (ih k' _ hk').snoc rfl rfl rfl _
      · exact (ih k o h).snoc rfl rfl rfl _
    | reported hacc hs =>
      rw [hs] at h
      rcases Maps.getElem?_insert_eq_some h with ⟨rfl, rfl⟩ | ⟨-, h⟩
      · exact (ih _ _ hacc.1).snoc rfl rfl rfl _
      · exact (ih k o h).snoc rfl rfl rfl _

/-- The answer of `claim_next_node_operation`. -/
def World.claim (p : Platform) (w : World) (nodeId : Uuid) : Except AppError (Option PendingOperationResponse) :=
  (Fallible.run (hubHandler p) (HubService.claimNextNodeOperation nodeId) w).1

/-- A claim that returns an operation has taken the oldest approved one, with its template as it is then. -/
theorem claim_eq_some {w : World} {nodeId : Uuid} {response : PendingOperationResponse}
    (h : w.claim p nodeId = .ok (some response)) :
    ∃ o t, Oldest w.store nodeId o ∧ w.store.operationTemplates[o.templateId]? = some t ∧
      response.operationId = o.operationId ∧
      t.dispatch o.inputParams = .ok (response.renderedCommand, response.timeoutSeconds, response.runAsUser) := by
  have hrun : w.claim p nodeId =
      (w.store.claimNextNodeOperation nodeId (p.clock w.tick)).1.mapM claimedNodeOperationDispatch := rfl
  rw [hrun] at h
  rcases claim_cases w.store nodeId (p.clock w.tick) with hc | ⟨o, ho, hc⟩
  · rw [hc] at h
    cases h
  · rw [hc] at h
    cases ht : w.store.operationTemplates[o.templateId]? with
    | none =>
      rw [ht] at h
      cases h
    | some t =>
      rw [ht] at h
      obtain ⟨out, hout, e⟩ := bind_eq_ok.1 h
      cases e
      obtain ⟨hid, hd⟩ := claimedNodeOperationDispatch_ok hout
      exact ⟨o, t, ho, ht, hid, hd⟩

/-- What a claim returns is rendered from the template as it is then, for the parameters that the operation was created
with; so it is what the template gave when it was created, if the command of the template has not been changed since. -/
theorem claimed_from_current_template (rs : List Request) (nodeId : Uuid) (response : PendingOperationResponse)
    (h : (World.init.serveAll p hub rs).claim p nodeId = .ok (some response)) :
    ∃ pre node request requestedBy post t₀ t₁,
      rs = pre ++ Request.createNodeOperation node request requestedBy :: post ∧
      response.operationId = (World.init.serveAll p hub pre).nextUuid ∧
      (World.init.serveAll p hub pre).store.operationTemplates[request.templateId]? = some t₀ ∧
      (∃ out, t₀.dispatch request.inputParams = .ok out) ∧
      (World.init.serveAll p hub rs).store.operationTemplates[request.templateId]? = some t₁ ∧
      t₁.dispatch request.inputParams = .ok (response.renderedCommand, response.timeoutSeconds, response.runAsUser) ∧
      (t₀.SameCommand t₁ → t₀.dispatch request.inputParams =
        .ok (response.renderedCommand, response.timeoutSeconds, response.runAsUser)) := by
  obtain ⟨o, t₁, hold, ht₁, hid, hd⟩ := claim_eq_some h
  obtain ⟨k, hk⟩ := hold.stored
  obtain ⟨pre, node, request, requestedBy, post, t₀, o₀, hrs, hnew, ho, ht, hp⟩ := createdBy_of_stored rs k o hk
  have hkey : o.templateId = request.templateId := by
    rw [ht, hnew.templateId]
    exact TemplateIds.serveAll pre request.templateId t₀ hnew.template
  rw [hp, hnew.inputParams] at hd
  rw [hkey] at ht₁
  refine ⟨pre, node, request, requestedBy, post, t₀, t₁, hrs, hid.trans (ho.trans hnew.operationId), hnew.template,
    hnew.validated, ht₁, hd, fun hsame => ?_⟩
  rw [← dispatch_congr hsame]
  exact hd

end Claims

/-- An operation for the template `reload`, on a node. -/
def reload : List Request :=
  [.node "edge-1", .createOperationTemplate (templateRequest "reload"),
    .createNodeOperation 0 { templateId := 2, inputParams := .object [], approvalTicket := none } "admin"]

/-- The same template with another command. -/
def changed : Request := .updateOperationTemplate 2 { templateRequest "reload" with commandTemplate := "rm -rf /srv" }

/-- The claim returns what the template gives when it is made. -/
theorem claimed_from_current_template_reload :
    ∃ response, ∃ request : CreateNodeOperationRequest, ∃ t₁ : OperationTemplateRecord,
    (World.init.serveAll .plain ⟨0, 30⟩ reload).claim .plain 0 = .ok (some response) ∧
      (World.init.serveAll .plain ⟨0, 30⟩ reload).store.operationTemplates[request.templateId]? = some t₁ ∧
      t₁.dispatch request.inputParams = .ok (response.renderedCommand, response.timeoutSeconds,
        response.runAsUser) := by
  obtain ⟨response, hr⟩ : ∃ response, (World.init.serveAll .plain ⟨0, 30⟩ reload).claim .plain 0 = .ok
    (some response) :=
    ⟨_, rfl⟩
  obtain ⟨_, _, request, _, _, _, t₁, -, -, -, -, ht₁, hd, -⟩ := claimed_from_current_template reload 0 response hr
  exact ⟨response, request, t₁, hr, ht₁, hd⟩

/-- What a claim returns is what the template gave when the operation was created. -/
def ClaimsAsCreated (p : Platform) (hub : Hub) (rs : List Request) (nodeId : Uuid) : Prop :=
  ∀ response, (World.init.serveAll p hub rs).claim p nodeId = .ok (some response) →
    ∀ pre node request requestedBy post t₀, rs = pre ++ Request.createNodeOperation node request requestedBy :: post →
      response.operationId = (World.init.serveAll p hub pre).nextUuid →
      (World.init.serveAll p hub pre).store.operationTemplates[request.templateId]? = some t₀ →
        t₀.dispatch request.inputParams = .ok (response.renderedCommand, response.timeoutSeconds, response.runAsUser)

/-- After a change of the template, the claim returns a command that nobody saw when the operation was created. -/
theorem changed_template_runs : ¬ ClaimsAsCreated .plain ⟨0, 30⟩ (reload ++ [changed]) 0 := by
  intro h
  obtain ⟨response, hr⟩ : ∃ response,
      (World.init.serveAll .plain ⟨0, 30⟩ (reload ++ [changed])).claim .plain 0 = .ok (some response) := ⟨_, rfl⟩
  obtain ⟨t₀, ht₀⟩ : ∃ t₀,
    (World.init.serveAll .plain ⟨0, 30⟩ (reload.take 2)).store.operationTemplates[2]? = some t₀ :=
    ⟨_, rfl⟩
  have hid : response.operationId = 3 := by cases hr; rfl
  have hcommand : response.renderedCommand = "rm -rf /srv" := by cases hr; decide
  have hd := h response hr (reload.take 2) 0 _ _ [changed] t₀ rfl hid ht₀
  have hold : t₀.dispatch (.object []) = .ok ("systemctl reload pingora", 30, "root") := by cases ht₀; rfl
  have hcommands := (Prod.mk.inj (Except.ok.inj (hold.symm.trans hd))).1
  rw [hcommand] at hcommands
  exact absurd hcommands (by decide)

end PingoraMesh
