import PingoraMesh.Hub.Effects
import PingoraMesh.Hub.Methods
import PingoraMesh.Hub.NodeWrites
import PingoraMesh.Hub.Operations

/-!
# What a node can reach

The token of a node gives it requests about itself. Handlers write back records that they have read some calls before,
while others move the stores; that no other node is met in between rests on identifiers that are drawn once.

* `OwnOperations` says that a request saves an operation only under an identifier that it has drawn itself, and
  updates one only as it has read it; `Owners.step` keeps from this that an identifier belongs to one node, in every
  run;
* `OnlyNode` says that a step touches the rows of one node only;
* `node_paths_confined`: below `/api/node/`, other than for getting tokens, a request touches the rows of one node
  only, and only once it has found the lease of its token for that node.
-/

namespace PingoraMesh.HubApi

open Calls Fallible HubService

/-! ## Operations and their nodes -/

/-- The call saves an operation. -/
def SavesOperation (c : HubCall) : Prop := ∃ o, c = .saveNodeOperation o

/-- An operation is saved once, under an identifier of the own, and updated as it was read. -/
def OwnOperations (_ : Front × HttpRequest) (l : List (Made hubSig)) : HubCall → Prop
  | .saveNodeOperation o => ⟨.newUuid, o.operationId⟩ ∈ l ∧ Unmade SavesOperation l
  | .updateNodeOperation o => ∃ (k : Uuid) (old : NodeOperationRecord), ⟨.nodeOperation k, some old⟩ ∈ l ∧
      o.operationId = old.operationId ∧ o.nodeId = old.nodeId
  | _ => True

/-- The specification of `OwnOperations`. -/
abbrev ownSpec : Spec hubSig ((Front × HttpRequest) × List (Made hubSig)) := .remembering OwnOperations

section Programs

variable {p : Platform} {q : Front × HttpRequest} {l : List (Made hubSig)} {headers : HeaderMap}

theorem own_of_effect {c : HubCall} (h : c.effect ≠ some .operation) : OwnOperations q l c := by
  cases c with
  | saveNodeOperation o => exact absurd rfl h
  | updateNodeOperation o => exact absurd rfl h
  | _ => trivial

theorem effect_of_writes {es : List Effect} {c : HubCall} (h : Writes p headers es c) (hes : .operation ∉ es) :
    c.effect ≠ some .operation := by
  intro heffect
  rcases h with hwithin | ⟨token, seen, -, rfl⟩
  · rw [HubCall.Within, heffect] at hwithin
    exact hes hwithin
  · cases heffect

/-- A program that makes no calls on operations saves none. -/
theorem own_of_only {α : Type} {es : List Effect} {x : HubM α} (hx : x.Only (Writes p headers es))
    (hes : .operation ∉ es) (hl : Unmade SavesOperation l) :
    wp ownSpec x (fun _ g => Unmade SavesOperation g.2) (fun _ _ => True) (q, l) := by
  refine wp_mono (fun _ _ h => h) (fun _ _ _ => trivial) (hx.wp_unmade ?_ ?_ hl)
  · exact fun q l c hc => own_of_effect (effect_of_writes hc hes)
  · rintro c hc ⟨o, rfl⟩
    exact effect_of_writes hc hes rfl

theorem createNodeOperation_own {nodeId : Uuid} {r : CreateNodeOperationRequest} :
    wp ownSpec (HubApi.createNodeOperation p headers nodeId r) (fun _ _ => True) (fun _ _ => True) (q, []) := by
  rw [HubApi.createNodeOperation, wp_bind]
  have hquiet : (requireAdminSession p headers).Only (Writes p headers []) := requireAdminSession_writes
  refine wp_mono ?_ (fun _ _ h => h) (own_of_only hquiet List.not_mem_nil .nil)
  rintro admin ⟨q', l'⟩ hl'
  simp only [HubService.createNodeOperation, repo, wp_bind, wp_okOr, wp_attempt, wp_call_protocol,
    wp_pure, implies_true, and_true]
  refine ⟨trivial, fun node _ _ => ⟨trivial, fun found template _ params _ rendered _ => ⟨trivial, fun operationId =>
    ⟨trivial, fun now => ?_⟩⟩⟩⟩
  refine ⟨by simp, ((((hl'.concat ?_ _).concat ?_ _).concat ?_ _).concat ?_ _)⟩
  all_goals
    rintro ⟨o, ho⟩
    cases ho

theorem reportNodeOperationResult_own {operationId : Uuid} {r : OperationResultRequest} :
    wp ownSpec (nodeJson headers r.nodeId (HubService.reportNodeOperationResult p operationId r)) (fun _ _ => True)
      (fun _ _ => True) (q, []) := by
  rw [nodeJson, wp_bind, wp_attempt]
  refine ⟨fun token _ => ?_, fun _ _ => trivial⟩
  rw [wp_bind]
  have hquiet : (authorizeNode r.nodeId token).Only (Writes p headers []) := authorizeNode_writes
  refine wp_mono ?_ (fun _ _ h => h) (own_of_only hquiet List.not_mem_nil .nil)
  rintro _ ⟨q', l'⟩ -
  simp only [reportNodeOperationResult, repo, wp_bind, wp_okOr, wp_ensure, wp_attempt, wp_getOr,
    wp_call_protocol, wp_pure, implies_true, and_true]
  refine ⟨trivial, fun found operation hfound _ status _ => ?_⟩
  constructor
  · intro started _
    exact ⟨operationId, operation, by simp [hfound], rfl, rfl⟩
  · intro _
    exact ⟨trivial, fun started => ⟨operationId, operation, by simp [hfound], rfl, rfl⟩⟩

theorem nextNodeOperation_own {nodeId : Uuid} :
    wp ownSpec (nodeJson headers nodeId (HubApi.nextNodeOperation nodeId)) (fun _ _ => True)
      (fun _ _ => True) (q, []) := by
  rw [nodeJson, wp_bind, wp_attempt]
  refine ⟨fun token _ => ?_, fun _ _ => trivial⟩
  rw [wp_bind]
  have hquiet : (authorizeNode nodeId token).Only (Writes .plain headers []) := authorizeNode_writes
  refine wp_mono ?_ (fun _ _ h => h) (own_of_only hquiet List.not_mem_nil .nil)
  rintro _ ⟨q', l'⟩ -
  simp only [HubApi.nextNodeOperation, claimNextNodeOperation, repo, wp_bind, wp_attempt, wp_okOr,
    wp_call_protocol, wp_pure, implies_true, and_true]
  trivial

theorem operation_effects {h : Endpoint} (hh : .operation ∈ h.effects) :
    h = .createNodeOperation ∨ h = .nextNodeOperation ∨ h = .reportNodeOperationResult := by
  revert hh
  cases h <;> decide

theorem run_own (v : Visit) :
    wp ownSpec (v.handler.run p q.1 v.headers v.args) (fun _ _ => True) (fun _ _ => True) (q, []) := by
  by_cases heffects : .operation ∈ v.handler.effects
  · obtain ⟨handler, args, headers⟩ := v
    rcases operation_effects heffects with rfl | rfl | rfl
    · exact createNodeOperation_own
    · exact nextNodeOperation_own
    · exact reportNodeOperationResult_own
  · exact wp_mono (fun _ _ _ => trivial) (fun _ _ h => h)
      (own_of_only (run_only p q.1 v) heffects .nil)

theorem frontProgram_own (q : Front × HttpRequest) :
    Prog.wp ownSpec (frontProgram p q) (fun _ _ => True) (q, []) := by
  suffices hw : wp ownSpec (q.1.program p q.2) (fun _ _ => True) (fun _ _ => True) (q, []) by
    exact Prog.wp_mono (fun _ _ _ => trivial) (wp_iff_run.1 hw)
  rw [Front.program]
  split
  · exact (wp_throw _).2 trivial
  · rename_i v hv
    rw [wp_mapError, Visit.program, wp_map]
    exact run_own v

end Programs

/-! ## Identifiers belong to one node -/

section Owners

variable {ι : Type} {p : Platform}

/-- An operation stood under an identifier at the start, or was saved under it, for a node. -/
def SavedFor (w₀ : World) (tr : List (Event hubSig ι)) (k nodeId : Uuid) : Prop :=
  (∃ o, w₀.store.nodeOperations[k]? = some o ∧ o.nodeId = nodeId) ∨
    ∃ i s, ⟨i, .saveNodeOperation s, ()⟩ ∈ tr ∧ s.operationId = k ∧ s.nodeId = nodeId

/-- What is stored and what was read stands under its identifier; operations were saved once, each by the request that
drew the identifier. -/
structure Owners (w₀ w : World) (tr : List (Event hubSig ι)) : Prop where
  draws : Draws w₀ w tr
  below : ∀ (k : Uuid) (o : NodeOperationRecord), w₀.store.nodeOperations[k]? = some o → k < w₀.nextUuid
  saved : ∀ i o, ⟨i, .saveNodeOperation o, ()⟩ ∈ tr → ⟨i, .newUuid, o.operationId⟩ ∈ tr
  single : ∀ i o o', ⟨i, .saveNodeOperation o, ()⟩ ∈ tr → ⟨i, .saveNodeOperation o', ()⟩ ∈ tr → o = o'
  stored : ∀ (k : Uuid) (o : NodeOperationRecord), w.store.nodeOperations[k]? = some o →
    o.operationId = k ∧ SavedFor w₀ tr k o.nodeId
  read : ∀ i k o, ⟨i, .nodeOperation k, some o⟩ ∈ tr → o.operationId = k ∧ SavedFor w₀ tr k o.nodeId
  keyed : NodeKeys w
  readNode : ∀ i k n, ⟨i, .node k, some n⟩ ∈ tr → n.identity.id = k

variable {w₀ w : World} {tr : List (Event hubSig ι)}

theorem Owners.init (hids : OperationIds w₀) (hkeys : NodeKeys w₀) : Owners w₀ w₀ ([] : List (Event hubSig ι)) where
  draws := .init
  below k o h := (hids k o h).2
  saved _ _ h := absurd h List.not_mem_nil
  single _ _ _ h := absurd h List.not_mem_nil
  stored k o h := ⟨(hids k o h).1, .inl ⟨o, h, rfl⟩⟩
  read _ _ _ h := absurd h List.not_mem_nil
  keyed := hkeys
  readNode _ _ _ h := absurd h List.not_mem_nil

theorem SavedFor.append {k nodeId : Uuid} (h : SavedFor w₀ tr k nodeId) (tr' : List (Event hubSig ι)) :
    SavedFor w₀ (tr ++ tr') k nodeId := by
  obtain hfirst | ⟨i, s, hs, hk, hn⟩ := h
  · exact .inl hfirst
  · exact .inr ⟨i, s, List.mem_append_left _ hs, hk, hn⟩

/-- What stood there at the start has not been saved since. -/
theorem Owners.not_saved (h : Owners w₀ w tr) {k : Uuid} {o s : NodeOperationRecord} {i : ι}
    (ho : w₀.store.nodeOperations[k]? = some o) (hs : ⟨i, .saveNodeOperation s, ()⟩ ∈ tr) : s.operationId ≠ k := by
  rintro rfl
  exact absurd (h.below _ o ho) (Nat.not_lt.2 (h.draws.drawn i _ (h.saved i s hs)).1)

/-- An identifier belongs to one node. -/
theorem Owners.unique (h : Owners w₀ w tr) {k n n' : Uuid} (hn : SavedFor w₀ tr k n) (hn' : SavedFor w₀ tr k n') :
    n = n' := by
  obtain ⟨o, ho, rfl⟩ | ⟨i, s, hs, hk, rfl⟩ := hn <;> obtain ⟨o', ho', rfl⟩ | ⟨j, s', hs', hk', rfl⟩ := hn'
  · rw [Option.some.inj (ho.symm.trans ho')]
  · exact absurd hk' (h.not_saved ho hs')
  · exact absurd hk (h.not_saved ho' hs)
  · have hdrawn := h.saved j s' hs'
    rw [hk', ← hk] at hdrawn
    obtain rfl := h.draws.once i j _ (h.saved i s hs) hdrawn
    rw [h.single i s s' hs hs']

variable [DecidableEq ι]

/-- What is stored after a call was saved. -/
theorem Owners.stored_step (h : Owners w₀ w tr) {q : Front × HttpRequest} {i : ι} {c : HubCall}
    (hc : OwnOperations q (Pool.own tr i) c) (k : Uuid) (o : NodeOperationRecord)
    (ho : (hubHandler p c w).2.store.nodeOperations[k]? = some o) :
    o.operationId = k ∧ SavedFor w₀ (tr ++ [⟨i, c, (hubHandler p c w).1⟩]) k o.nodeId := by
  have hkept : ∀ (k : Uuid) (o : NodeOperationRecord), w.store.nodeOperations[k]? = some o →
      o.operationId = k ∧ SavedFor w₀ (tr ++ [⟨i, c, (hubHandler p c w).1⟩]) k o.nodeId :=
    fun k o ho => ⟨(h.stored k o ho).1, (h.stored k o ho).2.append _⟩
  cases c with
  | saveNodeOperation s =>
    rcases Maps.getElem?_insert_eq_some ho with ⟨rfl, rfl⟩ | ⟨-, ho⟩
    · exact ⟨rfl, .inr ⟨i, o, List.mem_append_right _ (List.mem_singleton.2 rfl), rfl, rfl⟩⟩
    · exact hkept k o ho
  | updateNodeOperation s =>
    obtain ⟨k', old, hold, hid, hnode⟩ := hc
    obtain ⟨hk', hsaved⟩ := h.read i k' old (Pool.mem_own.1 hold)
    rcases Maps.getElem?_insert_eq_some ho with ⟨rfl, rfl⟩ | ⟨-, ho⟩
    · refine ⟨rfl, ?_⟩
      rw [hid, hk', hnode]
      exact hsaved.append _
    · exact hkept k o ho
  | claimNextNodeOperation nodeId =>
    change (w.store.claimNextNodeOperation nodeId (p.clock w.tick)).2.nodeOperations[k]? = some o at ho
    rcases claim_cases w.store nodeId (p.clock w.tick) with hclaim | ⟨old, hold, hclaim⟩
    · rw [hclaim] at ho
      exact hkept k o ho
    · rw [hclaim] at ho
      obtain ⟨k', hk'⟩ := hold.stored
      rcases Maps.getElem?_insert_eq_some ho with ⟨rfl, rfl⟩ | ⟨-, ho⟩
      · refine ⟨rfl, ?_⟩
        have hsaved := hkept k' old hk'
        rw [← hsaved.1] at hsaved
        exact hsaved.2
      · exact hkept k o ho
  | _ => exact hkept k o (operations_of_effect (by simp [HubCall.effect]) ho)

/-- A call keeps the invariant. -/
theorem Owners.step (h : Owners w₀ w tr) {q : Front × HttpRequest} {i : ι} {c : HubCall}
    (hc : OwnOperations q (Pool.own tr i) c) :
    Owners w₀ (hubHandler p c w).2 (tr ++ [⟨i, c, (hubHandler p c w).1⟩]) where
  draws := h.draws.step
  below := h.below
  saved j o ho := by
    rcases Pool.mem_concat ho with hold | ⟨rfl, rfl, -⟩
    · exact List.mem_append_left _ (h.saved j o hold)
    · exact List.mem_append_left _ (Pool.mem_own.1 hc.1)
  single j o o' ho ho' := by
    rcases Pool.mem_concat ho with hold | ⟨rfl, hcall, -⟩ <;> rcases Pool.mem_concat ho' with hold' |
      ⟨hthread, hcall', -⟩
    · exact h.single j o o' hold hold'
    · subst hthread
      rw [← hcall'] at hc
      exact absurd ⟨o, rfl⟩ (hc.2 _ (Pool.mem_own.2 hold))
    · rw [← hcall] at hc
      exact absurd ⟨o', rfl⟩ (hc.2 _ (Pool.mem_own.2 hold'))
    · exact HubCall.saveNodeOperation.inj (hcall.trans hcall'.symm)
  stored := h.stored_step hc
  read j k o ho := by
    rcases Pool.mem_concat ho with hold | ⟨-, -, hans⟩
    · exact ⟨(h.read j k o hold).1, (h.read j k o hold).2.append _⟩
    · exact ⟨(h.stored k o hans.symm).1, (h.stored k o hans.symm).2.append _⟩
  keyed := h.keyed.call c w
  readNode j k n hn := by
    rcases Pool.mem_concat hn with hold | ⟨-, -, hans⟩
    · exact h.readNode j k n hold
    · exact h.keyed k n hans.symm

end Owners

/-! ## The rows of a node -/

/-- A release without the acknowledgement of a node, and without the status that sums the acknowledgements up. -/
def withoutAck (nodeId : Uuid) (r : ReleaseRecord) : ReleaseRecord :=
  { r with ackStatus := r.ackStatus.erase nodeId, status := "" }

/-- The tables that hold rows of nodes. -/
def withoutRows (s : MemoryState) : MemoryState :=
  { s with nodes := ∅, nodeIdsByCode := ∅, releases := ∅, nodeOperations := ∅ }

/-- The release that a call acknowledges. -/
def HubCall.acked : HubCall → Option Uuid
  | .updateReleaseAck releaseId _ _ => some releaseId
  | _ => none

/-- Between two worlds only rows of a node have changed: the node, the entry of a code that leads to it, its
acknowledgement of the release `acked`, with the status of that release, and its operations. -/
structure OnlyNode (nodeId : Uuid) (acked : Option Uuid) (w w' : World) : Prop where
  nodes : ∀ k ≠ nodeId, w'.store.nodes[k]? = w.store.nodes[k]?
  codes : ∀ code : String, w'.store.nodeIdsByCode[code]? = w.store.nodeIdsByCode[code]? ∨
    w'.store.nodeIdsByCode[code]? = some nodeId
  releases : ∀ k : Uuid, acked ≠ some k → w'.store.releases[k]? = w.store.releases[k]?
  acknowledged : ∀ k : Uuid, acked = some k →
    w'.store.releases[k]?.map (withoutAck nodeId) = w.store.releases[k]?.map (withoutAck nodeId)
  operations : ∀ k : Uuid, w'.store.nodeOperations[k]? = w.store.nodeOperations[k]? ∨
    ∃ o, w'.store.nodeOperations[k]? = some o ∧ o.nodeId = nodeId ∧
      ∀ old, w.store.nodeOperations[k]? = some old → old.nodeId = nodeId
  others : withoutRows w'.store = withoutRows w.store
  tokens : w'.tokens = w.tokens

section Rows

variable {ι : Type} {p : Platform} {w₀ w : World} {tr : List (Event hubSig ι)} {nodeId : Uuid}

theorem onlyNode_recordHeartbeat {hb : HeartbeatRecord} (h : hb.nodeId = nodeId) :
    OnlyNode nodeId none w (hubHandler p (.recordHeartbeat hb) w).2 where
  nodes k hk := by
    simp only [hubHandler, World.write, MemoryState.recordHeartbeat, Std.ExtTreeMap.getElem?_modify]
    rw [if_neg]
    rw [Std.compare_eq_iff_eq, h]
    exact hk.symm
  codes _ := .inl rfl
  releases _ _ := rfl
  acknowledged _ _ := rfl
  operations _ := .inl rfl
  others := rfl
  tokens := rfl

theorem onlyNode_saveNode {node : NodeRecord} (h : node.identity.id = nodeId) :
    OnlyNode nodeId none w (hubHandler p (.saveNode node) w).2 where
  nodes k hk := by
    simp only [hubHandler, World.write, MemoryState.saveNode, Std.ExtTreeMap.getElem?_insert]
    rw [if_neg]
    rw [Std.compare_eq_iff_eq, h]
    exact hk.symm
  codes code := by
    simp only [hubHandler, World.write, MemoryState.saveNode, Std.ExtTreeMap.getElem?_insert]
    split
    · exact .inr (congrArg some h)
    · exact .inl rfl
  releases _ _ := rfl
  acknowledged _ _ := rfl
  operations _ := .inl rfl
  others := rfl
  tokens := rfl

theorem erase_insert_self {m : HashMap Uuid NodeAckRecord} {ack : NodeAckRecord} :
    (m.insert nodeId ack).erase nodeId = m.erase nodeId := by
  refine Std.ExtTreeMap.ext_getElem? fun k => ?_
  rw [Std.ExtTreeMap.getElem?_erase, Std.ExtTreeMap.getElem?_erase, Std.ExtTreeMap.getElem?_insert]
  split <;> rfl

theorem onlyNode_updateReleaseAck {releaseId : Uuid} {ack : NodeAckRecord} :
    OnlyNode nodeId (some releaseId) w (hubHandler p (.updateReleaseAck releaseId nodeId ack) w).2 where
  nodes _ _ := rfl
  codes _ := .inl rfl
  releases k hk := by
    simp only [hubHandler, World.write, MemoryState.updateReleaseAck, Std.ExtTreeMap.getElem?_modify]
    rw [if_neg]
    rw [Std.compare_eq_iff_eq]
    rintro rfl
    exact hk rfl
  acknowledged k _ := by
    simp only [hubHandler, World.write, MemoryState.updateReleaseAck, Std.ExtTreeMap.getElem?_modify]
    split
    · rename_i hk
      rw [Std.compare_eq_iff_eq] at hk
      subst hk
      rw [Option.map_map]
      refine Option.map_congr fun r _ => ?_
      simp only [Function.comp, withoutAck, erase_insert_self]
    · rfl
  operations _ := .inl rfl
  others := rfl
  tokens := rfl

/-- An operation is written for the node that its identifier belongs to. -/
theorem Owners.onlyNode_saveNodeOperation (h : Owners w₀ w tr) {w' : World} {o : NodeOperationRecord}
    (hnode : o.nodeId = nodeId) (hsaved : SavedFor w₀ tr o.operationId nodeId)
    (hstore : w'.store = w.store.saveNodeOperation o) (htokens : w'.tokens = w.tokens) : OnlyNode nodeId none w w' where
  nodes _ _ := by rw [hstore]; rfl
  codes _ := by rw [hstore]; exact .inl rfl
  releases _ _ := by rw [hstore]; rfl
  acknowledged _ _ := by rw [hstore]; rfl
  operations k := by
    rw [hstore, MemoryState.saveNodeOperation]
    simp only [Std.ExtTreeMap.getElem?_insert]
    split
    · rename_i hk
      rw [Std.compare_eq_iff_eq] at hk
      subst hk
      exact .inr ⟨o, rfl, hnode, fun old hold => h.unique (h.stored _ old hold).2 hsaved⟩
    · exact .inl rfl
  others := by rw [hstore]; rfl
  tokens := htokens

variable [DecidableEq ι]

/-- What concerns a node touches its rows. -/
theorem Owners.onlyNode (h : Owners w₀ w tr) {i : ι} {c : HubCall} (hc : Concerns nodeId (Pool.own tr i) c) :
    OnlyNode nodeId (HubCall.acked c) w (hubHandler p c w).2 := by
  cases c with
  | recordHeartbeat hb => exact onlyNode_recordHeartbeat hc
  | saveNode node =>
    obtain ⟨old, hold, hidentity⟩ := hc
    refine onlyNode_saveNode ?_
    rw [hidentity]
    exact h.readNode i nodeId old (Pool.mem_own.1 hold)
  | updateReleaseAck releaseId node ack =>
    obtain rfl : node = nodeId := hc
    exact onlyNode_updateReleaseAck
  | claimNextNodeOperation node =>
    obtain rfl : node = nodeId := hc
    rcases claim_cases w.store node (p.clock w.tick) with hclaim | ⟨old, hold, hclaim⟩
    · simp only [hubHandler, hclaim]
      exact ⟨fun _ _ => rfl, fun _ => .inl rfl, fun _ _ => rfl, fun _ _ => rfl, fun _ => .inl rfl, rfl, rfl⟩
    · obtain ⟨k, hk⟩ := hold.stored
      obtain ⟨hid, hsaved⟩ := h.stored k old hk
      rw [hold.node] at hsaved
      refine h.onlyNode_saveNodeOperation
        (o := { old with execStatus := "running", startedAt := some (p.clock w.tick) }) hold.node (hid ▸ hsaved) ?_ rfl
      simp only [hubHandler, hclaim]
  | updateNodeOperation operation =>
    obtain ⟨k, old, hold, hnode, hid, hnode'⟩ := hc
    obtain ⟨hk, hsaved⟩ := h.read i k old (Pool.mem_own.1 hold)
    refine h.onlyNode_saveNodeOperation (hnode'.trans hnode) ?_ rfl rfl
    rw [hid, hk, ← hnode]
    exact hsaved
  | _ => exact hc.elim

theorem stores_of_quiet {c : HubCall} (h : c.Quiet) :
    (hubHandler p c w).2.store = w.store ∧ (hubHandler p c w).2.tokens = w.tokens := by
  cases c <;> first | exact ⟨rfl, rfl⟩ | exact absurd h id

theorem NodeKeys.serveAll (hub : Hub) (rs : List Request) : NodeKeys (World.init.serveAll p hub rs) := by
  induction rs using List.reverseRecOn with
  | nil => exact fun k n h => by simp [World.serveAll, World.init, MemoryState.empty] at h
  | append_singleton rs r ih =>
    rw [World.serveAll_concat]
    exact (program_only p hub r).run_keeps (fun c w _ h => NodeKeys.call c w h) ih

variable {ms : List (Move ι (Front × HttpRequest))}

theorem owners_invariant (hids : OperationIds w₀) (hkeys : NodeKeys w₀) : Pool.Admits (hubHandler p) (frontProgram p)
    (fun P _ => Owners w₀ P.state P.trace) (Pool.init w₀) ms := by
  refine Pool.admits_invariant (fun P m hP hm => ?_) (Owners.init hids hkeys)
    (Pool.admits_remembered (frontProgram_own (p := p)) w₀ ms)
  rcases Pool.move_cases (hubHandler p) (frontProgram p) P m with ⟨hstate, htrace⟩ | ⟨i, c, rfl, hc, hstate, htrace⟩
  · rw [hstate, htrace]
    exact hP
  · obtain ⟨q, -, hown⟩ := hm i rfl c hc
    rw [hstate, htrace]
    exact hP.step hown

/-- Below `/api/node/`, other than for getting tokens: in every run of the front, after any requests one by one, a
request changes nothing, or rows of one node, for which it has then found the lease of its bearer token, unexpired,
and the status of the release that this call acknowledges. -/
theorem node_paths_confined {hub : Hub} (setup : List Request) {i : ι} {x : Front} {r : HttpRequest}
    (hr : Pool.asked ms i = some (x, r)) (hpath : Below "/api/node/" enrolPaths r.path) :
    Pool.Admits (hubHandler p) (frontProgram p) (fun P m => m = .go i →
      ((Pool.move (hubHandler p) (frontProgram p) P m).state.store = P.state.store ∧
        (Pool.move (hubHandler p) (frontProgram p) P m).state.tokens = P.state.tokens) ∨
      ∃ nodeId, ∃ c ∈ P.next i, HasLease (Pool.own P.trace i) r.headers nodeId ∧
        OnlyNode nodeId (HubCall.acked c) P.state (Pool.move (hubHandler p) (frontProgram p) P m).state)
      (Pool.init (World.init.serveAll p hub setup)) ms := by
  refine Pool.admits_mono ?_ (Pool.admits_and _ _ (calls_entitled p _ ms)
    (owners_invariant (OperationIds.serveAll setup) (NodeKeys.serveAll hub setup)))
  rintro P m ⟨hentitled, howners⟩ rfl
  rcases Pool.move_cases (hubHandler p) (frontProgram p) P (.go i) with ⟨hstate, -⟩ | ⟨j, c, hj, hc, hstate, -⟩
  · rw [hstate]
    exact .inl ⟨rfl, rfl⟩
  · obtain rfl : i = j := Move.go.inj hj
    rw [hstate]
    obtain ⟨q, hq, hallows⟩ := hentitled i rfl c hc
    obtain rfl : q = (x, r) := Option.some.inj (hq.symm.trans hr)
    obtain hquiet | ⟨v, hv, hentitled⟩ := hallows
    · exact .inl (stores_of_quiet hquiet)
    · obtain ⟨hheaders, params, hroute⟩ := route_of_visit hv
      have hlease : v.handler.credential = .lease := credential_of_node hroute hpath
      cases hentitled with
      | lease _ shown concerns =>
        rw [hheaders] at shown
        exact .inr ⟨_, c, hc, shown, howners.onlyNode concerns⟩
      | session asked => rcases asked with h | h <;> rw [h] at hlease <;> cases hlease
      | password | bootstrap | refresh | logout => cases hlease

end Rows

/-- A node is created and registers. -/
def enrolled : List Request :=
  [.node "edge-1", .registerNode {
    nodeCode := "edge-1", bootstrapToken := "boot-" ++ Uuid.hyphenated 1, hostname := "edge-1", publicIp := none
    privateIp := none, agentVersion := "1" }]

/-- A front that reads every body as the same heartbeat. -/
def heartbeatFront : Front where
  hub := ⟨0, 30⟩
  bind := "127.0.0.1:8080"
  etcdPrefix := "/pingora"
  json := fun
    | .nodeHeartbeat, _ => .ok {
        nodeId := 0, pingoraVersion := "1", agentVersion := "1", activeConfigVersion := none, siteCount :=
          0, healthScore := 90 }
    | _, _ => .error 415

/-- The heartbeat of the node that has registered. -/
def heartbeat : HttpRequest where
  method := .post
  path := "/api/node/heartbeat"
  query := []
  headers := [("authorization", "Bearer node-at-" ++ Uuid.hyphenated 2)]
  body := ""

/-- It runs alone. -/
def heartbeatOnly : List (Move Unit (Front × HttpRequest)) :=
  .spawn () (heartbeatFront, heartbeat) :: List.replicate 7 (.go ())

theorem node_paths_confined_heartbeat :
    ((Pool.exec (hubHandler .plain) (frontProgram .plain) (Pool.init (World.init.serveAll .plain ⟨0, 30⟩ enrolled))
      heartbeatOnly).state.store.nodes[0]?.map (·.runtime.healthScore)) = some 90 ∧
    Pool.Admits (hubHandler .plain) (frontProgram .plain) (fun P m => m = .go () →
      ((Pool.move (hubHandler .plain) (frontProgram .plain) P m).state.store = P.state.store ∧
        (Pool.move (hubHandler .plain) (frontProgram .plain) P m).state.tokens = P.state.tokens) ∨
      ∃ nodeId, ∃ c ∈ P.next (), HasLease (Pool.own P.trace ()) heartbeat.headers nodeId ∧
        OnlyNode nodeId (HubCall.acked c) P.state (Pool.move (hubHandler .plain) (frontProgram .plain) P m).state)
      (Pool.init (World.init.serveAll .plain ⟨0, 30⟩ enrolled)) heartbeatOnly :=
  ⟨by decide +kernel, node_paths_confined enrolled rfl ⟨⟨"heartbeat", rfl⟩, by decide⟩⟩

end PingoraMesh.HubApi
