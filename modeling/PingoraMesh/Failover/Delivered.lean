import PingoraMesh.Failover.Dispatch

/-!
# Operations between claim and delivery

A claim sets the oldest approved operation of a node to running inside the repository; only then does the hub render it
from its template, which may be another one by now than when the operation was made, and which nobody has rendered for
an operation that a failover has enqueued.

* `claim_keeps_iff`: a claim delivers an operation or leaves the operations as they are exactly if the operation it
  takes can be rendered (`rendersNext`);
* `none_lost_iff`: so it is with all the claims of a run, and if they do, every operation that is running was
  delivered to its node;
* `edited_template_loses`: a template is edited while an operation waits.
-/

namespace PingoraMesh

open Calls Fallible HubService

/-- The operation that a node gets next can be rendered from its template as it is, if there is one. -/
def MemoryState.rendersNext (s : MemoryState) (nodeId : Uuid) : Bool :=
  match s.nextApproved nodeId with
  | none => true
  | some o =>
    match s.operationTemplates[o.templateId]? with
    | none => false
    | some t => (t.dispatch o.inputParams).isOk

/-- An operation that a node has claimed. -/
def NodeOperationRecord.claimedAt (o : NodeOperationRecord) (now : DateTime) : NodeOperationRecord :=
  { o with execStatus := "running", startedAt := some now }

/-! ## One claim -/

section Claim

variable {p : Platform} {w : World} {nodeId : Uuid}

/-- What can be rendered is dispatched. -/
theorem claimedNodeOperationDispatch_isOk (claimed : ClaimedNodeOperation) :
    (claimedNodeOperationDispatch claimed).isOk = (claimed.template.dispatch claimed.operation.inputParams).isOk := by
  unfold claimedNodeOperationDispatch OperationTemplateRecord.dispatch renderTemplate
  cases buildOperationTemplate claimed.template with
  | error e => cases normalizeOperationInputParams claimed.operation.inputParams <;> rfl
  | ok template =>
    cases normalizeOperationInputParams claimed.operation.inputParams with
    | error e => rfl
    | ok params =>
      dsimp only [bind, Except.bind]
      cases template.renderCommand params <;> rfl

theorem mapM_some_iff {α β ε : Type} {f : α → Except ε β} {a : α} :
    (∃ b, (some a).mapM f = .ok (some b)) ↔ (f a).isOk = true := by
  change (∃ b, (f a >>= fun b => pure (some b)) = .ok (some b)) ↔ _
  cases f a with
  | ok b => exact iff_of_true ⟨b, rfl⟩ rfl
  | error e =>
    refine iff_of_false ?_ Bool.false_ne_true
    rintro ⟨b, h⟩
    cases h

/-- A claim that finds an approved operation. -/
theorem claim_of_next {o : NodeOperationRecord} (h : w.store.nextApproved nodeId = some o) :
    w.claim p nodeId = (w.store.operationTemplates[o.templateId]?.map fun t =>
        (⟨o.claimedAt (p.clock w.tick), t⟩ : ClaimedNodeOperation)).mapM
          claimedNodeOperationDispatch ∧
      (hubHandler p (.claimNextNodeOperation nodeId) w).2.store =
        w.store.saveNodeOperation (o.claimedAt (p.clock w.tick)) := by
  have hclaim : w.store.claimNextNodeOperation nodeId (p.clock w.tick) =
      (w.store.operationTemplates[o.templateId]?.map fun t =>
        (⟨o.claimedAt (p.clock w.tick), t⟩ : ClaimedNodeOperation),
       w.store.saveNodeOperation (o.claimedAt (p.clock w.tick))) := by
    rw [MemoryState.claimNextNodeOperation, h]
    rfl
  constructor
  · change (w.store.claimNextNodeOperation nodeId (p.clock w.tick)).1.mapM claimedNodeOperationDispatch = _
    rw [hclaim]
  · change (w.store.claimNextNodeOperation nodeId (p.clock w.tick)).2 = _
    rw [hclaim]

/-- A claim that finds none. -/
theorem claim_of_none (h : w.store.nextApproved nodeId = none) :
    (hubHandler p (.claimNextNodeOperation nodeId) w).2.store = w.store := by
  change (w.store.claimNextNodeOperation nodeId (p.clock w.tick)).2 = _
  rw [MemoryState.claimNextNodeOperation, h]

/-- A claim gives an operation to the node, or leaves the operations as they are. -/
def KeepsOrDelivers (p : Platform) (w : World) (nodeId : Uuid) : Prop :=
  (∃ response, w.claim p nodeId = .ok (some response)) ∨
    (hubHandler p (.claimNextNodeOperation nodeId) w).2.store.nodeOperations = w.store.nodeOperations

/-- Operations are stored under their identifiers. -/
def OperationsKeyed (s : MemoryState) : Prop :=
  ∀ (k : Uuid) (o : NodeOperationRecord), s.nodeOperations[k]? = some o → o.operationId = k

/-- A claim loses nothing exactly if the operation that it takes can be rendered. -/
theorem claim_keeps_iff (hkeyed : OperationsKeyed w.store) : KeepsOrDelivers p w nodeId ↔
    w.store.rendersNext nodeId = true := by
  unfold MemoryState.rendersNext
  cases hnext : w.store.nextApproved nodeId with
  | none => exact iff_of_true (.inr (by rw [claim_of_none hnext])) rfl
  | some o =>
    obtain ⟨hanswer, hstore⟩ := claim_of_next (p := p) hnext
    have hold := oldest_of_nextApproved hnext
    obtain ⟨k, hk⟩ := hold.stored
    -- the operation is running afterwards, and was approved before
    have hchanged : (hubHandler p (.claimNextNodeOperation nodeId) w).2.store.nodeOperations ≠
      w.store.nodeOperations := by
      intro hsame
      have hnew : w.store.nodeOperations[o.operationId]? =
          some (o.claimedAt (p.clock w.tick)) := by
        rw [← hsame, hstore]
        exact Std.ExtTreeMap.getElem?_insert_self
      rw [hkeyed k o hk, hk] at hnew
      have happroved := hold.approved
      rw [Option.some.inj hnew] at happroved
      exact absurd happroved (by simp [NodeOperationRecord.claimedAt])
    unfold KeepsOrDelivers
    rw [or_iff_left hchanged, hanswer]
    dsimp only
    cases w.store.operationTemplates[o.templateId]? with
    | none =>
      refine iff_of_false ?_ Bool.false_ne_true
      rintro ⟨response, h⟩
      cases h
    | some t =>
      rw [Option.map_some, mapM_some_iff, claimedNodeOperationDispatch_isOk]
      exact Iff.rfl

end Claim

/-! ## Runs -/

section Runs

variable {ι : Type} [DecidableEq ι] (p : Platform) (net : Nat → Delivery)

/-- The claim that a move makes, if it makes one. -/
def claimsFor (P : Pool meshSig Unit ι Mesh) : Move ι MeshRequest → Option Uuid
  | .spawn _ _ => none
  | .go i =>
    match P.next i with
    | some (.hub (.claimNextNodeOperation nodeId)) => some nodeId
    | _ => none

/-- A claim of the schedule finds an operation that can be rendered, or none. -/
def ClaimsRender (P : Pool meshSig Unit ι Mesh) (m : Move ι MeshRequest) : Prop :=
  ∀ nodeId ∈ claimsFor P m, P.state.world.store.rendersNext nodeId = true

instance (P : Pool meshSig Unit ι Mesh) : DecidablePred (ClaimsRender P) := fun _ =>
  inferInstanceAs (Decidable (∀ nodeId ∈ claimsFor P _, _))

/-- A claim of the schedule loses nothing. -/
def ClaimsKeep (P : Pool meshSig Unit ι Mesh) (m : Move ι MeshRequest) : Prop :=
  ∀ nodeId ∈ claimsFor P m, KeepsOrDelivers p P.state.world nodeId

/-- The operation was given to its node by a claim of the trace. -/
def DeliveredIn (tr : List (Event meshSig ι)) (o : NodeOperationRecord) : Prop :=
  ∃ i claimed response, ⟨i, .hub (.claimNextNodeOperation o.nodeId), some claimed⟩ ∈ tr ∧
    claimedNodeOperationDispatch claimed = .ok response ∧ response.operationId = o.operationId

/-- What a hub stores waits for its approval or for its node, and what it writes back has ended. -/
def waitingSpec : Spec hubSig Unit :=
  .protocol (fun c _ => match c with
    | .saveNodeOperation o => o.execStatus ∈ ["pending", "approved"]
    | .updateNodeOperation o => o.Terminal
    | _ => True) fun _ _ g => g

/-- Every program follows it. -/
theorem follows_waiting (q : MeshRequest) :
    Prog.wp (onMesh waitingSpec) (meshProgram p q) (fun _ _ => True) () := by
  refine meshProgram_wp p (fun _ => trivial) q fun hub r hq => ?_
  have hquiet : Effect.operation ∉ r.effects → (HubService.program p hub r).Safe waitingSpec := fun hr =>
    (program_only p hub r).safe fun c g hc => by
      cases c with
      | saveNodeOperation o => exact absurd hc hr
      | updateNodeOperation o => exact absurd hc hr
      | _ => trivial
  cases r with
  | createNodeOperation nodeId request requestedBy =>
    refine ((wp_discard _).2 ?_).either
    simp only [waitingSpec, createNodeOperation, repo, wp_bind, wp_okOr, wp_attempt, wp_call_protocol, wp_pure,
      implies_true, and_true, true_and]
    intro _ _ _ found t ht params _ _ _ k now
    split <;> simp
  | reportNodeOperationResult operationId request =>
    refine (safe_discard fun g => ?_).run
    simp only [waitingSpec, reportNodeOperationResult, repo, wp_bind, wp_okOr, wp_ensure, wp_attempt, wp_getOr,
      wp_call_protocol, wp_pure, implies_true, and_true, true_and]
    intro _ o _ _ status hs
    exact ⟨fun _ _ => normalizeOperationExecStatus_ok hs, fun _ _ => normalizeOperationExecStatus_ok hs⟩
  | claimNextNodeOperation nodeId =>
    exact (safe_discard (safe_bind (safe_call fun _ => trivial) fun _ => safe_attempt _)).run
  | _ => exact (hquiet (by simp [Request.effects])).run

/-- Operations stand under their identifiers, and those that are running were delivered. -/
structure DeliveredInv (m : Mesh) (tr : List (Event meshSig ι)) : Prop where
  keyed : OperationsKeyed m.world.store
  delivered : ∀ (k : Uuid) (o : NodeOperationRecord), m.world.store.nodeOperations[k]? = some o →
    o.execStatus = "running" → DeliveredIn tr o

variable {p net} {m m' : Mesh} {tr : List (Event meshSig ι)} {e : Event meshSig ι}

omit [DecidableEq ι] in
theorem DeliveredIn.concat {o : NodeOperationRecord} (h : DeliveredIn tr o) (e : Event meshSig ι) :
    DeliveredIn (tr ++ [e]) o := by
  obtain ⟨i, claimed, response, hmem, h⟩ := h
  exact ⟨i, claimed, response, List.mem_append_left _ hmem, h⟩

omit [DecidableEq ι] in
/-- A call after which the operations that are running were running before. -/
theorem DeliveredInv.keep (h : DeliveredInv m tr) (hkeyed : OperationsKeyed m'.world.store)
    (hrunning : ∀ (k : Uuid) (o : NodeOperationRecord), m'.world.store.nodeOperations[k]? = some o →
      o.execStatus = "running" → m.world.store.nodeOperations[k]? = some o) (e : Event meshSig ι) :
    DeliveredInv m' (tr ++ [e]) :=
  ⟨hkeyed, fun k o ho hrun => (h.delivered k o (hrunning k o ho hrun) hrun).concat e⟩

omit [DecidableEq ι] in
/-- One operation is stored that is not running. -/
theorem DeliveredInv.save (h : DeliveredInv m tr) {o : NodeOperationRecord} (ho : o.execStatus ≠ "running")
    (e : Event meshSig ι) : DeliveredInv (m.onStore (·.saveNodeOperation o)) (tr ++ [e]) := by
  refine h.keep (fun k o' ho' => ?_) (fun k o' ho' hrun => ?_) e
  · rcases Maps.getElem?_insert_eq_some ho' with ⟨rfl, rfl⟩ | ⟨-, ho'⟩
    · rfl
    · exact h.keyed k o' ho'
  · rcases Maps.getElem?_insert_eq_some ho' with ⟨rfl, rfl⟩ | ⟨-, ho'⟩
    · exact absurd hrun ho
    · exact ho'

/-- Operations that are running after a failover were running before it, and all are under their identifiers. -/
def Mesh.StartsNone (m m' : Mesh) : Prop :=
  (OperationsKeyed m.world.store → OperationsKeyed m'.world.store) ∧
    ∀ (k : Uuid) (o : NodeOperationRecord), m'.world.store.nodeOperations[k]? = some o → o.execStatus = "running" →
      m.world.store.nodeOperations[k]? = some o

theorem failoverSteps_startsNone : FailoverSteps Mesh.StartsNone where
  refl m := ⟨id, fun _ _ h _ => h⟩
  trans _ _ _ h h' := ⟨fun hk => h'.1 (h.1 hk), fun k o ho hrun => h.2 k o (h'.2 k o ho hrun) hrun⟩
  beside m m' _ _ hops := by
    unfold Mesh.StartsNone OperationsKeyed
    rw [hops]
    exact ⟨id, fun _ _ h _ => h⟩
  enqueue m m' k t o _ _ _ _ happroved _ _ hops := by
    unfold Mesh.StartsNone OperationsKeyed
    rw [hops]
    constructor
    · intro hkeyed k' o' ho'
      rcases Maps.getElem?_insert_eq_some ho' with ⟨rfl, rfl⟩ | ⟨-, ho'⟩
      · rfl
      · exact hkeyed k' o' ho'
    · intro k' o' ho' hrun
      rcases Maps.getElem?_insert_eq_some ho' with ⟨rfl, rfl⟩ | ⟨-, ho'⟩
      · rw [happroved] at hrun
        exact absurd hrun (by decide)
      · exact ho'

variable (p net)

theorem spawn_keeps_delivered :
    Pool.SpawnKeeps (meshProgram p) (onMesh waitingSpec) (fun _ m (tr : List (Event meshSig ι)) => DeliveredInv m tr)
      (fun _ _ => True) ClaimsRender :=
  fun _ _ _ q _ _ hF => ⟨(), follows_waiting p q, hF.inv⟩

omit [DecidableEq ι] in
/-- A claim of an operation that can be rendered delivers it. -/
theorem DeliveredInv.claim {m : Mesh} (h : DeliveredInv m tr) {nodeId : Uuid}
    (hrenders : m.world.store.rendersNext nodeId = true) (i : ι) :
    DeliveredInv { m with world := (hubHandler p (.claimNextNodeOperation nodeId) m.world).2 }
      (tr ++
        [⟨i, .hub (.claimNextNodeOperation nodeId), (hubHandler p (.claimNextNodeOperation nodeId) m.world).1⟩]) := by
  unfold MemoryState.rendersNext at hrenders
  cases hnext : m.world.store.nextApproved nodeId with
  | none =>
    have hsame : (hubHandler p (.claimNextNodeOperation nodeId) m.world).2.store = m.world.store := claim_of_none hnext
    refine h.keep (fun k o ho => h.keyed k o ?_) (fun k o ho _ => ?_) _
    all_goals
      dsimp only at ho
      rwa [hsame] at ho
  | some o =>
    rw [hnext] at hrenders
    dsimp only at hrenders
    have hold := oldest_of_nextApproved hnext
    obtain ⟨hanswer, hstore⟩ := claim_of_next (p := p) hnext
    cases ht : m.world.store.operationTemplates[o.templateId]? with
    | none =>
      rw [ht] at hrenders
      cases hrenders
    | some t =>
      rw [ht] at hrenders
      have hclaimed : (hubHandler p (.claimNextNodeOperation nodeId) m.world).1 =
          some ⟨o.claimedAt (p.clock m.world.tick), t⟩ := by
        change (m.world.store.claimNextNodeOperation nodeId (p.clock m.world.tick)).1 = _
        rw [MemoryState.claimNextNodeOperation, hnext]
        change (m.world.store.operationTemplates[o.templateId]?.map _) = _
        rw [ht]
        rfl
      have hok : (claimedNodeOperationDispatch ⟨o.claimedAt (p.clock m.world.tick), t⟩).isOk = true := by
        rw [claimedNodeOperationDispatch_isOk]
        exact hrenders
      obtain ⟨response, hresponse⟩ : ∃ response,
          claimedNodeOperationDispatch ⟨o.claimedAt (p.clock m.world.tick), t⟩ = .ok response := by
        cases hd : claimedNodeOperationDispatch ⟨o.claimedAt (p.clock m.world.tick), t⟩ with
        | ok response => exact ⟨response, rfl⟩
        | error e =>
          rw [hd] at hok
          cases hok
      constructor
      · intro k o' ho'
        dsimp only at ho'
        rw [hstore] at ho'
        rcases Maps.getElem?_insert_eq_some ho' with ⟨rfl, rfl⟩ | ⟨-, ho'⟩
        · rfl
        · exact h.keyed k o' ho'
      · intro k o' ho' hrun
        dsimp only at ho'
        rw [hstore] at ho'
        rcases Maps.getElem?_insert_eq_some ho' with ⟨-, rfl⟩ | ⟨-, ho'⟩
        · refine ⟨i, _, response, List.mem_append_right _ ?_, hresponse, (claimedNodeOperationDispatch_ok hresponse).1⟩
          rw [hclaimed]
          have hnode : (o.claimedAt (p.clock m.world.tick)).nodeId = nodeId := hold.node
          rw [hnode]
          exact List.mem_singleton_self _
        · exact (h.delivered k o' ho' hrun).concat _

theorem call_keeps_delivered :
    Pool.CallKeeps (meshHandler p net) (onMesh waitingSpec) (fun _ m (tr : List (Event meshSig ι)) => DeliveredInv m tr)
      (fun (_ : Unit) _ => True) ClaimsRender := by
  intro P g i c k gi hadm hi hgi hok hF
  have h := hF.inv
  cases c with
  | hub c =>
    refine ⟨(), rfl, ?_⟩
    by_cases hc : c.effect = some .operation
    · cases c with
      | saveNodeOperation o =>
        refine h.save ?_ _
        have hwaits : o.execStatus ∈ ["pending", "approved"] := hok
        rintro hrun
        rw [hrun] at hwaits
        exact absurd hwaits (by decide)
      | updateNodeOperation o =>
        refine h.save (fun hrun => ?_) _
        exact not_terminal_of_mem (by rw [hrun]; simp) hok
      | claimNextNodeOperation nodeId =>
        refine h.claim p (hadm nodeId ?_) i
        simp [claimsFor, Pool.next, hi]
      | _ => simp [HubCall.effect] at hc
    · refine h.keep (fun k o ho => h.keyed k o (operations_of_effect hc ho))
        (fun k o ho _ => operations_of_effect hc ho) _
  | executeSiteFailover policy site eventId now =>
    have hmoves := executeSiteFailover_moves p net failoverSteps_startsNone policy site eventId now P.state
    exact ⟨(), rfl, h.keep (hmoves.1 h.keyed) hmoves.2 _⟩
  | savePolicy policy =>
    have hops : (meshHandler p net (.savePolicy policy) P.state).2.world.store.nodeOperations =
        P.state.world.store.nodeOperations := by
      simp only [meshHandler, Mesh.onStore, savePolicy]
      split <;> rfl
    refine ⟨(), rfl, h.keep (fun k o ho => h.keyed k o ?_) (fun k o ho _ => ?_) _⟩
    all_goals rwa [hops] at ho
  | createFailoverEvent policy now reason =>
    have hkept : ∀ e, DeliveredInv (meshHandler p net (.createFailoverEvent policy now reason) P.state).2
      (P.trace ++ [e]) :=
      h.keep h.keyed fun _ _ ho _ => ho
    exact ⟨(), rfl, hkept _⟩
  | finishFailoverEvent eventId status now =>
    have hkept : ∀ e, DeliveredInv (meshHandler p net (.finishFailoverEvent eventId status now) P.state).2
      (P.trace ++ [e]) :=
      h.keep h.keyed fun _ _ ho _ => ho
    exact ⟨(), rfl, hkept _⟩
  | _ => exact ⟨(), rfl, h.keep h.keyed (fun _ _ ho _ => ho) _⟩

omit [DecidableEq ι] in
/-- Every call leaves the operations under their identifiers. -/
theorem operationsKeyed_call (c : MeshCall) {m : Mesh} (h : OperationsKeyed m.world.store) :
    OperationsKeyed (meshHandler p net c m).2.world.store := by
  have hsave : ∀ o, OperationsKeyed (m.world.store.saveNodeOperation o) := by
    intro o k o' ho'
    rcases Maps.getElem?_insert_eq_some ho' with ⟨rfl, rfl⟩ | ⟨-, ho'⟩
    · rfl
    · exact h k o' ho'
  cases c with
  | hub c =>
    by_cases hc : c.effect = some .operation
    · cases c with
      | saveNodeOperation o => exact hsave o
      | updateNodeOperation o => exact hsave o
      | claimNextNodeOperation nodeId =>
        change OperationsKeyed (m.world.store.claimNextNodeOperation nodeId (p.clock m.world.tick)).2
        rcases claim_cases m.world.store nodeId (p.clock m.world.tick) with hclaim | ⟨o, -, hclaim⟩
        · rw [hclaim]
          exact h
        · rw [hclaim]
          exact hsave _
      | _ => simp [HubCall.effect] at hc
    · exact fun k o ho => h k o (operations_of_effect hc ho)
  | executeSiteFailover policy site eventId now =>
    exact (executeSiteFailover_moves p net failoverSteps_startsNone policy site eventId now m).1 h
  | savePolicy policy =>
    intro k o ho
    simp only [meshHandler, Mesh.onStore, savePolicy] at ho
    split at ho <;> exact h k o ho
  | _ => exact h

/-- **No operation is lost** between claim and delivery: in every run of hubs and failover workers, each claim
delivers an operation or leaves them as they are exactly if each claim finds an operation that can be rendered, or
none; and then every operation that is running was delivered to its node. -/
theorem none_lost_iff (remote : RemoteDns) (ms : List (Move ι MeshRequest)) :
    (Pool.Admits (meshHandler p net) (meshProgram p) (ClaimsKeep p) (Pool.init (Mesh.init remote)) ms ↔
      Pool.Admits (meshHandler p net) (meshProgram p) ClaimsRender (Pool.init (Mesh.init remote)) ms) ∧
    (Pool.Admits (meshHandler p net) (meshProgram p) ClaimsRender (Pool.init (Mesh.init remote)) ms →
      ∀ (k : Uuid) (o : NodeOperationRecord),
        (Pool.exec (meshHandler p net) (meshProgram p)
          (Pool.init (Mesh.init remote)) ms).state.world.store.nodeOperations[k]? = some o → o.execStatus = "running" →
            DeliveredIn (Pool.exec (meshHandler p net) (meshProgram p) (Pool.init (Mesh.init remote)) ms).trace o) := by
  have hempty : DeliveredInv (Mesh.init remote) ([] : List (Event meshSig ι)) := by
    constructor
    · intro k o ho
      simp [Mesh.init, World.init, MemoryState.empty] at ho
    · intro k o ho
      simp [Mesh.init, World.init, MemoryState.empty] at ho
  have hkeyed : ∀ pre : List (Move ι MeshRequest), OperationsKeyed
      (Pool.exec (meshHandler p net) (meshProgram p) (Pool.init (Mesh.init remote)) pre).state.world.store :=
    Pool.state_invariant (I := fun m : Mesh => OperationsKeyed m.world.store) _ _
      (fun c _ => operationsKeyed_call p net c) hempty.keyed
  constructor
  · rw [Pool.admits_iff, Pool.admits_iff]
    refine forall_congr' fun pre => forall_congr' fun m => forall_congr' fun _ => forall₂_congr fun nodeId _ => ?_
    exact claim_keeps_iff (hkeyed pre)
  · intro hadm
    obtain ⟨g, hF⟩ := Pool.invariant (spawn_keeps_delivered p) (call_keeps_delivered p net)
      (Pool.fits_init hempty) ms hadm
    exact hF.inv.delivered

end Runs

/-! ## A template that is edited -/

/-- The mesh after the operation of `reloadRun` was claimed. -/
def reloadPool : Pool meshSig Unit Nat Mesh :=
  Pool.exec (meshHandler .plain fun _ => .done) (meshProgram .plain) (Pool.init (Mesh.init (.ofZones []))) reloadRun

/-- It is running, and was delivered. -/
theorem none_lost_reload : ∃ o : NodeOperationRecord,
    reloadPool.state.world.store.nodeOperations[(3 : Uuid)]? = some o ∧
    o.execStatus = "running" ∧ DeliveredIn reloadPool.trace o := by
  have hrunning : (reloadPool.state.world.store.nodeOperations[(3 : Uuid)]?).any
    (fun o => o.execStatus == "running") = true := by
    decide +kernel
  obtain ⟨o, ho, hrun⟩ := (Option.any_eq_true _ _).1 hrunning
  rw [beq_iff_eq] at hrun
  exact ⟨o, ho, hrun, (none_lost_iff .plain (fun _ => .done) (.ofZones []) reloadRun).2 (by decide +kernel) 3 o ho hrun⟩

/-- An operation waits for its node while its template gets a parameter; then the node claims it. -/
def editedRun : List (Move Nat MeshRequest) :=
  request 0 0 4 (.node "edge-1") ++ request 1 0 4 (.createOperationTemplate (templateRequest "reload")) ++
    request 2 0 5
      (.createNodeOperation 0 { templateId := 2, inputParams := .object [], approvalTicket := none } "admin") ++
    request 3 0 3 (.updateOperationTemplate 2 { templateRequest "reload" with
      commandTemplate := "systemctl reload \x7b\x7bunit\x7d\x7d", allowedParams := ["unit"] }) ++
    [Move.spawn 4 (.hub ⟨0, 30⟩ (.claimNextNodeOperation 0))]

/-- The claim fails, and leaves the operation running. -/
theorem edited_template_loses :
    ¬ Pool.Admits (meshHandler .plain fun _ => .done) (meshProgram .plain) (ClaimsKeep .plain)
      (Pool.init (Mesh.init (.ofZones []))) (editedRun ++ [.go 4]) := by
  intro h
  have hlast := (Pool.admits_iff _ _).1 h editedRun (.go 4) (List.prefix_refl _) 0 (by decide +kernel)
  rcases hlast with ⟨response, hresponse⟩ | hsame
  · have hfails : (World.claim .plain (Pool.exec (meshHandler .plain fun _ => .done) (meshProgram .plain)
        (Pool.init (Mesh.init (.ofZones []))) editedRun).state.world 0).isOk = false := by
      decide +kernel
    rw [hresponse] at hfails
    cases hfails
  · have hstatus := congrArg (fun ops => (ops[(3 : Uuid)]?).map (·.execStatus)) hsame
    revert hstatus
    decide +kernel

end PingoraMesh
