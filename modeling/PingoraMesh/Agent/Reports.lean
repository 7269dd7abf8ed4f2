import PingoraMesh.Agent.Acks
import PingoraMesh.Hub.Service
import PingoraMesh.Lib.Join
import PingoraMesh.Lib.Maps

/-!
# What the hub believes of a node

The agent of a node tells the hub the version of its configuration with every heartbeat and every report about a
release, and the hub stores it as `active_config_version`. Processes of the agent and handlers of the hub are one pool.
What the agent sends reaches the hub at any later time or never, and nothing is assumed of the answers that the agent
gets. A report about a release that is under way or has failed gives the version that the agent has; an agent without
one falls back to the version of the release it is about, which it has not applied yet.

* `reporter_conduct`: all other reports give a version that the process knows to be applied (`reporterSpec`);
* `believed_versions_applied`: as long as the agent falls back to versions that were applied before
  (`FallsBackApplied`), every version that the hub stores was applied before it was stored;
* `downloading_version_believed`: a new node is believed to run the first release while it downloads it.
-/

namespace PingoraMesh.NodeAgent

open Calls Calls.Fallible

/-! ## What a process knows of its version -/

/-- The local state that a file holds. -/
def FileBody.state? : FileBody → Option LocalAgentState
  | .state s => some s
  | _ => none

/-- The version that a process has loaded. -/
def loadedVersion (r : Except ReadFailure FileBody) : Option String :=
  (r.toOption.bind FileBody.state?).bind (·.currentReleaseVersion)

/-- The version of the local state after a call of its process: it is loaded, and set where success is reported. -/
def heldAfter (held : Option String) : (c : AgentCall) → c.Ans → Option String
  | .readFile .state, r => loadedVersion r
  | .outside (.ackRelease _ _ request), _ =>
    if request.applyStatus = "success" then some request.currentVersion else held
  | _, _ => held

/-- The versions that a call shows to be applied. -/
def shown : (c : AgentCall) → c.Ans → List String
  | .readFile .state, r => (loadedVersion r).toList
  | .applyReleasePackage _ package _ _, r => (r.toOption.map fun _ => package.releaseVersion).toList
  | _, _ => []

/-- What a process knows: the version of its local state, and versions that were applied. -/
structure Reporter where
  held : Option String
  known : List String

/-- Versions that are reported or stored are known to be applied, unless there is none to report. -/
def Reporter.Allows (g : Reporter) : AgentCall → Prop
  | .outside (.heartbeat _ request) => ∀ version ∈ request.activeConfigVersion, version ∈ g.known
  | .outside (.ackRelease _ _ request) =>
    request.applyStatus = "success" ∨ g.held ≠ none → request.currentVersion ∈ g.known
  | .writeFile .state (.state state) => ∀ version ∈ state.currentReleaseVersion, version ∈ g.known
  | _ => True

/-- What a call adds to the knowledge of its process. -/
def Reporter.next (c : AgentCall) (r : c.Ans) (g : Reporter) : Reporter :=
  ⟨heldAfter g.held c r, shown c r ++ g.known⟩

/-- What a process reports. -/
def reporterSpec : Spec AgentSig Reporter := .protocol (fun c g => g.Allows c) Reporter.next

/-- The version of the local state is the one that is held, and it was applied. -/
def Reporter.Holds (state : LocalAgentState) (g : Reporter) : Prop :=
  state.currentReleaseVersion = g.held ∧ ∀ version ∈ g.held, version ∈ g.known

section Reporter

variable {c : AgentCall} {g : Reporter} {state : LocalAgentState}

theorem AgentCall.Silent.allowed (h : c.Silent) (g : Reporter) : g.Allows c := by
  cases c with
  | outside c =>
    cases c with
    | heartbeat token request => exact h.elim
    | ackRelease token releaseId request => exact h.elim
    | _ => trivial
  | readFile file => trivial
  | writeFile file body =>
    cases file with
    | state => exact h.elim
    | _ => trivial
  | applyReleasePackage registration package artifacts state => exact h.elim

theorem AgentCall.Silent.next (h : c.Silent) (r : c.Ans) (g : Reporter) : g.next c r = g := by
  cases c with
  | outside c =>
    cases c with
    | ackRelease token releaseId request => exact h.elim
    | _ => rfl
  | readFile file =>
    cases file with
    | state => exact h.elim
    | _ => rfl
  | writeFile file body => rfl
  | applyReleasePackage registration package artifacts state => exact h.elim

/-- A report of a version leaves what the process knows. -/
theorem AgentCall.Reports.next (h : c.Reports state) (r : c.Ans) (g : Reporter) : g.next c r = g := by
  cases h with
  | silent h => exact h.next r g
  | heartbeat token request h => rfl
  | progress token releaseId request fallback hs hv =>
    show (⟨if request.applyStatus = "success" then _ else g.held, [] ++ g.known⟩ : Reporter) = g
    rw [if_neg hs]
    rfl

/-- A version that the local state has may be reported. -/
theorem AgentCall.Reports.allowed (h : c.Reports state) (hs : g.Holds state) : g.Allows c := by
  cases h with
  | silent h => exact h.allowed g
  | heartbeat token request h =>
    intro version hv
    rw [h, hs.1] at hv
    exact hs.2 version hv
  | progress token releaseId request fallback hne hv =>
    intro hheld
    have hheld := hheld.resolve_left hne
    obtain ⟨version, hversion⟩ := Option.ne_none_iff_exists'.1 hheld
    have hreported : request.currentVersion = version := by
      rw [hv, reportedCurrentVersion, hs.1, hversion]
      rfl
    rw [hreported]
    exact hs.2 version hversion

/-- A process reports versions that it knows to be applied, unless it has none. -/
theorem reporter_conduct : Conduct reporterSpec (fun state g => g.Holds state) (fun _ _ => True) (fun _ _ => True)
    fun package g => package.releaseVersion ∈ g.known where
  version e hs := ⟨e ▸ hs.1, hs.2⟩
  silent hc := hc.allowed _
  reports hc hs := hc.allowed hs
  keeps hc hcan hs := by
    rw [show _ = _ from hcan, hc.next]
    exact hs
  keeps_served _ _ _ := trivial
  keeps_applied hc hcan hp := by
    rw [show _ = _ from hcan, hc.next]
    exact hp
  latest _ _ := trivial
  package _ _ := trivial
  apply _ := trivial
  apply_keeps hcan hs := by
    rw [show _ = _ from hcan]
    exact ⟨hs.1, fun version hv => List.mem_append_right _ (hs.2 version hv)⟩
  apply_done hcan := by
    rw [show _ = _ from hcan]
    exact List.mem_cons_self
  success _ request state package g hp hstatus hversion hstate := by
    refine ⟨fun _ => hversion ▸ hp, fun r g' hcan => ?_⟩
    rw [show _ = _ from hcan]
    refine ⟨?_, fun version hv => ?_⟩
    · exact hstate.trans (hversion ▸ (if_pos hstatus).symm)
    · rw [show Reporter.held _ = some request.currentVersion from if_pos hstatus] at hv
      cases hv
      rw [hversion]
      exact hp
  confirm _ request latest state g _ hs hstatus hversion hstate := by
    have hknown : request.currentVersion ∈ g.known := by
      rw [hversion]
      exact hs.2 _ (hs.1.symm.trans hstate)
    refine ⟨fun _ => hknown, fun r g' hcan => ?_⟩
    rw [show _ = _ from hcan]
    refine ⟨?_, fun version hv => ?_⟩
    · exact hstate.trans (hversion ▸ (if_pos hstatus).symm)
    · rw [show Reporter.held _ = some request.currentVersion from if_pos hstatus] at hv
      cases hv
      exact hknown
  store hs := by
    refine ⟨fun version hv => hs.2 version (hs.1 ▸ hv), fun r g' hcan => ?_⟩
    rw [show _ = _ from hcan]
    exact hs
  load := trivial
  loaded hcan := by
    rw [show _ = _ from hcan]
    exact ⟨rfl, fun version hv => List.mem_append_left _ (Option.mem_toList.2 hv)⟩
  absent hcan := by
    rw [show _ = _ from hcan]
    exact ⟨rfl, nofun⟩

end Reporter

/-! ## What the hub writes -/

/-- A call of a handler that stores no other version than the one it was told. -/
def Tells (version : Option String) : HubCall → Prop
  | .saveNode node => node.runtime.activeConfigVersion = version
  | .recordHeartbeat heartbeat => heartbeat.activeConfigVersion = version
  | .release _ | .node _ | .updateReleaseAck _ _ _ | .utcNow => True
  | _ => False

theorem ackRelease_tells (releaseId : Uuid) (request : ReleaseAckRequest) :
    (HubService.ackRelease releaseId request).Only (Tells (some request.currentVersion)) := by
  refine safe_bind (only_call trivial) fun _ => safe_bind (safe_okOr _ _) fun _ =>
    safe_bind (safe_ensure _ _) fun _ => safe_bind (only_call trivial) fun _ =>
    safe_bind (only_call trivial) fun _ =>
    safe_bind (only_call trivial) fun _ => safe_bind (safe_forSome fun node => ?_) fun _ => safe_pure _
  exact safe_bind (only_call trivial) fun _ => only_call rfl

theorem nodeHeartbeat_tells (request : NodeHeartbeatRequest) :
    (HubService.nodeHeartbeat request).Only (Tells request.activeConfigVersion) :=
  safe_bind (only_call trivial) fun _ => safe_bind (safe_ensure _ _) fun _ =>
    safe_bind (only_call trivial) fun _ => safe_bind (only_call rfl) fun _ =>
    safe_bind (only_call trivial) fun _ => safe_pure _

/-- The version of a stored node is the old one, or the one that was told. -/
theorem version_hubHandler {p : Platform} {c : HubCall} {w : World} {told : Option String} (hc : Tells told c)
    {nodeId : Uuid} {node : NodeRecord} (h : (hubHandler p c w).2.store.nodes[nodeId]? = some node) :
    node.runtime.activeConfigVersion = told ∨
      ∃ old, w.store.nodes[nodeId]? = some old ∧ node.runtime.activeConfigVersion =
        old.runtime.activeConfigVersion := by
  cases c with
  | saveNode saved =>
    rcases Maps.getElem?_insert_eq_some h with ⟨rfl, rfl⟩ | ⟨-, h⟩
    · exact .inl hc
    · exact .inr ⟨node, h, rfl⟩
  | recordHeartbeat heartbeat =>
    rcases Maps.getElem?_modify_eq_some h with ⟨-, old, -, rfl⟩ | ⟨-, h⟩
    · exact .inl hc
    · exact .inr ⟨node, h, rfl⟩
  | release releaseId => exact .inr ⟨node, h, rfl⟩
  | node id => exact .inr ⟨node, h, rfl⟩
  | updateReleaseAck releaseId id ack => exact .inr ⟨node, h, rfl⟩
  | utcNow => exact .inr ⟨node, h, rfl⟩
  | _ => exact hc.elim

/-! ## The agent and the hub -/

/-- The calls of both. -/
abbrev linkSig : Sig := AgentSig.join hubSig

/-- What runs: processes of the agent, and the handlers of what it has sent. -/
inductive LinkRequest where
  | process (turns : Nat)
  | ackRelease (releaseId : Uuid) (request : ReleaseAckRequest)
  | nodeHeartbeat (request : NodeHeartbeatRequest)
  deriving DecidableEq

/-- What a call sends to the hub. -/
def sends : linkSig.Call → Option LinkRequest
  | .inl (.outside (.ackRelease _ releaseId request)) => some (.ackRelease releaseId request)
  | .inl (.outside (.heartbeat _ request)) => some (.nodeHeartbeat request)
  | _ => none

/-- The version that a handler is told. -/
def LinkRequest.version : LinkRequest → Option String
  | .process _ => none
  | .ackRelease _ request => some request.currentVersion
  | .nodeHeartbeat request => request.activeConfigVersion

/-- A report of a release that is under way or has failed. -/
def progress : linkSig.Call → Option ReleaseAckRequest
  | .inl (.outside (.ackRelease _ _ request)) => if request.applyStatus = "success" then none else some request
  | _ => none

section Link

variable {ι η : Type} (net : Handler OutsideSig η) (config : AgentConfig) (p : Platform)

/-- A node and the world of the hub. -/
def linkHandler : Handler linkSig (Node η × World) :=
  .join (.onFst (agentHandler net config)) (.onSnd (hubHandler p))

/-- The program of each. -/
def linkProgram : LinkRequest → Prog linkSig Unit
  | .process turns => (process config turns).onLeft >>= fun _ => .ret ()
  | .ackRelease releaseId request => Prog.onRight (ExceptT.run (HubService.ackRelease releaseId request)) >>=
    fun _ => .ret ()
  | .nodeHeartbeat request => Prog.onRight (ExceptT.run (HubService.nodeHeartbeat request)) >>= fun _ => .ret ()

/-- The version that `apply_release_package` was run for, if it ended well. -/
def appliedBy : Event linkSig ι → Option String
  | ⟨_, .inl (.applyReleasePackage _ package _ _), r⟩ => (Except.toOption r).map fun _ => package.releaseVersion
  | _ => none

/-- The version was applied: before the run, or in the trace. -/
def AppliedBefore (before : List String) (tr : List (Event linkSig ι)) (version : String) : Prop :=
  version ∈ before ∨ ∃ e ∈ tr, appliedBy e = some version

/-- The version of the local state of a process after one more of its calls. -/
def heldStep (held : Option String) : Event linkSig ι → Option String
  | ⟨_, .inl c, r⟩ => heldAfter held c r
  | ⟨_, .inr _, _⟩ => held

/-- The version of the local state of a process, by its calls. -/
def heldBy [DecidableEq ι] (tr : List (Event linkSig ι)) : ι → Option String := Pool.seen heldStep none tr

instance (before : List String) (tr : List (Event linkSig ι)) (version : String) :
    Decidable (AppliedBefore before tr version) := inferInstanceAs (Decidable (_ ∨ _))

/-- The hub gets only what was sent. -/
def Delivers (P : Pool linkSig Unit ι (Node η × World)) : Move ι LinkRequest → Prop
  | .spawn _ (.process _) => True
  | .spawn _ q => ∃ e ∈ P.trace, sends e.call = some q
  | .go _ => True

instance (P : Pool linkSig Unit ι (Node η × World)) : DecidablePred (Delivers P)
  | .spawn _ (.process _) => inferInstanceAs (Decidable True)
  | .spawn _ (.ackRelease releaseId request) =>
    inferInstanceAs (Decidable (∃ e ∈ P.trace, sends e.call = some (.ackRelease releaseId request)))
  | .spawn _ (.nodeHeartbeat request) =>
    inferInstanceAs (Decidable (∃ e ∈ P.trace, sends e.call = some (.nodeHeartbeat request)))
  | .go _ => inferInstanceAs (Decidable True)

/-- A process that reports progress without a version of its own falls back to one that was applied before. -/
def FallsBackApplied [DecidableEq ι] (before : List String) (P : Pool linkSig Unit ι (Node η × World)) :
    Move ι LinkRequest → Prop
  | .go i => ∀ request ∈ (P.next i).bind progress, heldBy P.trace i = none →
      AppliedBefore before P.trace request.currentVersion
  | .spawn _ _ => True

instance [DecidableEq ι] (before : List String) (P : Pool linkSig Unit ι (Node η × World)) :
    DecidablePred (FallsBackApplied before P)
  | .go i => inferInstanceAs (Decidable (∀ request ∈ (P.next i).bind progress, heldBy P.trace i = none →
      AppliedBefore before P.trace request.currentVersion))
  | .spawn _ _ => inferInstanceAs (Decidable True)

/-- What is known is true, and so is what is on the disk, what was sent and what the hub has stored of the node. -/
structure LinkInv [DecidableEq ι] (before : List String) (nodeId : Uuid) (g : ι → Option (Reporter ⊕ Option String))
    (s : Node η × World) (tr : List (Event linkSig ι)) : Prop where
  known : ∀ i gi, g i = some gi → ∀ version ∈ gi.elim Reporter.known Option.toList, AppliedBefore before tr version
  held : heldBy tr = fun i => (g i).bind (Sum.elim Reporter.held fun _ => none)
  disk : ∀ state, s.1.disk .state = some (.state state) → ∀ version ∈ state.currentReleaseVersion,
    AppliedBefore before tr version
  sent : ∀ e ∈ tr, ∀ q ∈ sends e.call, ∀ version ∈ q.version, AppliedBefore before tr version
  believed : ∀ node, s.2.store.nodes[nodeId]? = some node → ∀ version ∈ node.runtime.activeConfigVersion,
    AppliedBefore before tr version

variable {net config p} {before : List String} {nodeId : Uuid} {g : ι → Option (Reporter ⊕ Option String)}
  {s : Node η × World} {tr : List (Event linkSig ι)}

theorem AppliedBefore.concat {version : String} (h : AppliedBefore before tr version) (e : Event linkSig ι) :
    AppliedBefore before (tr ++ [e]) version :=
  h.imp_right fun ⟨e', he', hv⟩ => ⟨e', List.mem_append_left _ he', hv⟩

/-- The specification of what runs. -/
def linkSpec : Spec linkSig (Reporter ⊕ Option String) :=
  reporterSpec.join (.protocol (fun c told => Tells told c) fun _ _ g => g)

theorem linkProgram_process (turns : Nat) :
    Prog.wp linkSpec (linkProgram config (.process turns)) (fun _ _ => True) (.inl ⟨none, []⟩) := by
  rw [linkProgram, Prog.wp_bind]
  exact Prog.wp_onLeft (Prog.wp_mono (fun _ _ _ => (Prog.wp_ret _).2 trivial) (reporter_conduct.main_follows turns).run)

/-- A handler stores what it was told. -/
theorem linkProgram_handler {q : LinkRequest} (hq : ∀ turns, q ≠ .process turns) :
    Prog.wp linkSpec (linkProgram config q) (fun _ _ => True) (.inr q.version) := by
  have hhandler : ∀ {α : Type} {x : HubM α} {told : Option String}, x.Only (Tells told) →
      Prog.wp linkSpec (Prog.onRight (ExceptT.run x) >>= fun _ => .ret ()) (fun _ _ => True) (.inr told) := by
    intro α x told hx
    rw [Prog.wp_bind]
    have hkeep := Prog.Only.wp (T := Spec.protocol (fun c told => Tells told c) fun _ _ g => g) hx.run
      (I := fun g => g = told) (fun c g hc hg => hg ▸ hc) (fun c g r g' hc hg hcan => hcan.trans hg) rfl
    exact Prog.wp_onRight (Prog.wp_mono (fun _ _ _ => (Prog.wp_ret _).2 trivial) hkeep)
  cases q with
  | process turns => exact absurd rfl (hq turns)
  | ackRelease releaseId request => exact hhandler (ackRelease_tells releaseId request)
  | nodeHeartbeat request => exact hhandler (nodeHeartbeat_tells request)

variable [DecidableEq ι]

/-- At the start, the disk and the hub know only of versions that were applied before. -/
theorem LinkInv.init (hdisk : ∀ state, s.1.disk .state = some (.state state) → ∀ version ∈ state.currentReleaseVersion,
      version ∈ before)
    (hhub : ∀ node, s.2.store.nodes[nodeId]? = some node → ∀ version ∈ node.runtime.activeConfigVersion,
      version ∈ before) : LinkInv before nodeId (fun _ : ι => none) s [] where
  known _ _ e := by cases e
  held := rfl
  disk state hs version hv := .inl (hdisk state hs version hv)
  sent _ he := by cases he
  believed node hn version hv := .inl (hhub node hn version hv)

omit [DecidableEq ι] in
theorem loadedVersion_eq_some {r : Except ReadFailure FileBody} {version : String}
    (h : loadedVersion r = some version) :
    ∃ state, r = .ok (.state state) ∧ state.currentReleaseVersion = some version := by
  match r with
  | .ok (.state state) => exact ⟨state, rfl, h⟩
  | .ok (.registration _) | .ok (.package _) | .ok (.json _) | .ok (.text _) | .ok .torn | .error _ => cases h

/-- What a call shows to be applied was applied. -/
theorem LinkInv.shown (h : LinkInv before nodeId g s tr) {i : ι} {c : AgentCall} {version : String}
    (hv : version ∈ NodeAgent.shown c (agentHandler net config c s.1).1) :
    AppliedBefore before (tr ++ [⟨i, .inl c, (agentHandler net config c s.1).1⟩]) version := by
  cases c with
  | outside c => cases hv
  | writeFile file body => cases hv
  | readFile file =>
    cases file with
    | state =>
      obtain ⟨state, hr, hversion⟩ := loadedVersion_eq_some (Option.mem_toList.1 hv)
      exact (h.disk state (read_agentHandler hr) version hversion).concat _
    | _ => cases hv
  | applyReleasePackage registration package artifacts state =>
    refine .inr ⟨_, List.mem_append_right _ List.mem_cons_self, ?_⟩
    exact Option.mem_toList.1 hv

/-- What a call sends to the hub is known to be applied, or it is a report of progress without a version. -/
theorem Reporter.Allows.sends {r : Reporter} {c : AgentCall} (h : r.Allows c) {q : LinkRequest}
    (hq : NodeAgent.sends (.inl c) = some q) {version : String} (hv : q.version = some version) :
    version ∈ r.known ∨ r.held = none ∧ ∃ request ∈ progress (.inl c), request.currentVersion = version := by
  cases c with
  | outside c =>
    cases c with
    | heartbeat token request =>
      cases hq
      exact .inl (h version hv)
    | ackRelease token releaseId request =>
      cases hq
      cases hv
      by_cases hknown : request.applyStatus = "success" ∨ r.held ≠ none
      · exact .inl (h hknown)
      · rw [not_or, not_not] at hknown
        exact .inr ⟨hknown.2, request, if_neg hknown.1, rfl⟩
    | _ => cases hq
  | _ => cases hq

theorem Reporter.Allows.persists {r : Reporter} {c : AgentCall} (h : r.Allows c) {state : LocalAgentState}
    (hs : c.persists = some state) : ∀ version ∈ state.currentReleaseVersion, version ∈ r.known := by
  unfold AgentCall.persists at hs
  split at hs
  · cases hs
    exact h
  · cases hs

/-- A call of a process: what it shows is true, and what it sends or stores is known. -/
theorem LinkInv.agent (h : LinkInv before nodeId g s tr) {i : ι} {r : Reporter}
    (hi : g i = some (.inl r)) {c : AgentCall} (hok : r.Allows c)
    (hback : ∀ request ∈ progress (.inl c), heldBy tr i = none → AppliedBefore before tr request.currentVersion) :
    LinkInv before nodeId (Function.update g i (some (.inl (r.next c (agentHandler net config c s.1).1))))
      ((agentHandler net config c s.1).2, s.2) (tr ++ [⟨i, .inl c, (agentHandler net config c s.1).1⟩]) := by
  have hknown : ∀ version ∈ r.known, AppliedBefore before tr version := h.known i _ hi
  have hheld : heldBy tr i = r.held := by
    rw [h.held]
    simp [hi]
  constructor
  · refine Pool.forall_update (fun version hv => ?_) fun j gj hj version hv => (h.known j gj hj version hv).concat _
    rcases List.mem_append.1 hv with hv | hv
    · exact h.shown hv
    · exact (hknown version hv).concat _
  · rw [heldBy, Pool.seen_concat, Pool.bind_update]
    show Function.update (heldBy tr) i (heldAfter (heldBy tr i) c _) = _
    rw [hheld, h.held]
    rfl
  · intro state hs version hv
    rcases disk_agentHandler hs with hs | hs
    · exact (h.disk state hs version hv).concat _
    · exact (hknown version (hok.persists hs version hv)).concat _
  · intro e he q hq version hv
    rcases List.mem_append.1 he with he | he
    · exact (h.sent e he q hq version hv).concat _
    · cases List.mem_singleton.1 he
      rcases hok.sends hq hv with hv | ⟨hnone, request, hrequest, rfl⟩
      · exact (hknown version hv).concat _
      · exact (hback request hrequest (hheld.trans hnone)).concat _
  · exact fun node hn version hv => (h.believed node hn version hv).concat _

/-- A call of a handler stores what it was told. -/
theorem LinkInv.hub (h : LinkInv before nodeId g s tr) {i : ι} {told : Option String} (hi : g i = some (.inr told))
    {c : HubCall} (hok : Tells told c) :
    LinkInv before nodeId (Function.update g i (some (.inr told))) (s.1, (hubHandler p c s.2).2)
      (tr ++ [⟨i, .inr c, (hubHandler p c s.2).1⟩]) := by
  have htold : ∀ version ∈ told, AppliedBefore before tr version := fun version hv =>
    h.known i _ hi version (Option.mem_toList.2 hv)
  have hsame : Function.update g i (some (.inr told)) = g := by
    rw [← hi]
    exact Function.update_eq_self i g
  rw [hsame]
  constructor
  · exact fun j gj hj version hv => (h.known j gj hj version hv).concat _
  · rw [heldBy, Pool.seen_concat]
    show Function.update (heldBy tr) i (heldBy tr i) = _
    rw [Function.update_eq_self]
    exact h.held
  · exact fun state hs version hv => (h.disk state hs version hv).concat _
  · intro e he q hq version hv
    rcases List.mem_append.1 he with he | he
    · exact (h.sent e he q hq version hv).concat _
    · cases List.mem_singleton.1 he
      cases hq
  · intro node hn version hv
    rcases version_hubHandler hok hn with hversion | ⟨old, hold, hversion⟩
    · exact (htold version (hversion ▸ hv)).concat _
    · exact (h.believed old hold version (hversion ▸ hv)).concat _

/-- What is asked of a move: the hub gets what was sent, and progress is reported with an applied version. -/
def LinkMove (before : List String) (P : Pool linkSig Unit ι (Node η × World)) (m : Move ι LinkRequest) : Prop :=
  Delivers P m ∧ FallsBackApplied before P m

theorem call_keeps_link :
    Pool.CallKeeps (linkHandler net config p) linkSpec (LinkInv (ι := ι) before nodeId) (fun (_ : Unit) _ => True)
      (LinkMove before) := by
  intro P g i c k gi hadm hthread hi hok hF
  cases c with
  | inl c =>
    cases gi with
    | inr told => exact hok.elim
    | inl r =>
      refine ⟨.inl (r.next c (agentHandler net config c P.state.1).1), rfl, hF.inv.agent hi hok fun request hr => ?_⟩
      refine hadm.2 request ?_
      rw [show P.next i = some (.inl c) from Pool.next_eq hthread]
      exact hr
  | inr c =>
    cases gi with
    | inl r => exact hok.elim
    | inr told => exact ⟨.inr told, rfl, hF.inv.hub hi hok⟩

theorem spawn_keeps_link :
    Pool.SpawnKeeps (linkProgram config) linkSpec (LinkInv (η := η) (ι := ι) before nodeId) (fun _ _ => True)
      (LinkMove before) := by
  intro P g i q hadm hfree hF
  have h := hF.inv
  have hi : g i = none := hF.fresh i hfree
  -- nothing is held by a program that starts
  have hheld : ∀ gi : Reporter ⊕ Option String, gi.elim Reporter.held (fun _ => none) = none →
      heldBy P.trace = fun j => (Function.update g i (some gi) j).bind (Sum.elim Reporter.held fun _ => none) := by
    intro gi hgi
    rw [Pool.bind_update_same (by rw [hgi, hi]; rfl)]
    exact h.held
  by_cases hq : ∃ turns, q = .process turns
  · obtain ⟨turns, rfl⟩ := hq
    refine ⟨.inl ⟨none, []⟩, linkProgram_process turns, ?_⟩
    exact { h with known := Pool.forall_update (fun _ hv => by cases hv) h.known, held := hheld _ rfl }
  · rw [not_exists] at hq
    obtain ⟨e, he, hsent⟩ : ∃ e ∈ P.trace, sends e.call = some q := by
      cases q with
      | process turns => exact absurd rfl (hq turns)
      | ackRelease releaseId request => exact hadm.1
      | nodeHeartbeat request => exact hadm.1
    refine ⟨.inr q.version, linkProgram_handler hq, ?_⟩
    refine { h with known := Pool.forall_update (fun version hv => ?_) h.known, held := hheld _ rfl }
    exact h.sent e he q hsent version (Option.mem_toList.1 hv)

end Link

section Believed

variable {ι η : Type} [DecidableEq ι] (net : Handler OutsideSig η) (config : AgentConfig) (p : Platform)

/-- The version that the hub believes a node to run. -/
def believedVersion (w : World) (nodeId : Uuid) : Option String :=
  (w.store.nodes[nodeId]?).bind (·.runtime.activeConfigVersion)

/-- Whatever fails and however often the agent is started again: if an agent without a version of its own falls back to
versions that were applied before, the hub stores only versions that were applied before. -/
theorem believed_versions_applied (before : List String) (node : Node η) (w : World) (nodeId : Uuid)
    (hdisk : ∀ state, node.disk .state = some (.state state) → ∀ version ∈ state.currentReleaseVersion,
      version ∈ before)
    (hhub : ∀ version ∈ believedVersion w nodeId, version ∈ before) (ms : List (Move ι LinkRequest))
    (hdeliver : Pool.Admits (linkHandler net config p) (linkProgram config) Delivers (.init (node, w)) ms)
    (hback : Pool.Admits (linkHandler net config p) (linkProgram config) (FallsBackApplied before) (.init (node, w)) ms)
    (version : String)
    (hv : believedVersion (Pool.exec (linkHandler net config p) (linkProgram config)
      (.init (node, w)) ms).state.2 nodeId = some version) :
    AppliedBefore before (Pool.exec (linkHandler net config p) (linkProgram config) (.init (node, w)) ms).trace
      version := by
  have hinit : LinkInv before nodeId (fun _ : ι => none) (node, w) [] := by
    refine LinkInv.init hdisk fun record hr version hv => hhub version ?_
    exact Option.bind_eq_some_iff.2 ⟨record, hr, hv⟩
  have hmoves : Pool.Admits (linkHandler net config p) (linkProgram config) (LinkMove before) (.init (node, w)) ms :=
    Pool.admits_and _ _ hdeliver hback
  obtain ⟨g, hF⟩ := Pool.invariant spawn_keeps_link call_keeps_link (Pool.fits_init hinit) ms hmoves
  obtain ⟨record, hr, hv⟩ := Option.bind_eq_some_iff.1 hv
  exact hF.inv.believed record hr version hv

end Believed

/-! ## A node and its first release -/

/-- A hub with one node and a release for it. -/
def publishedWorld : World :=
  World.init.serveAll .plain ⟨0, 30⟩ [.node "edge-1", .site "a.example", .bind 2 0 [], .publish 2]

/-- Surroundings in which everything goes well; the latest release is the one of `publishedWorld`. -/
def offering : Handler OutsideSig Unit := fun c s => match c with
  | .latestRelease _ _ => (.answered 200 "" (.ok {
      releaseId := 3, releaseVersion := "rel-site-19700101000000-001", configHash := "h", downloadUrl := "/p" }), s)
  | .configPackage _ _ => (.answered 200 "" (.ok {
      releaseId := 3, releaseVersion := "rel-site-19700101000000-001", manifest := .null, renderedConfig := .null
      certificates := .null, signature := "s" }), s)
  | c => calm c s

/-- A node whose agent has applied a release before. -/
def usedNode : Node Unit :=
  { freshNode with
    disk := Function.update freshNode.disk .state (some (.state { currentReleaseVersion := some "rel-0" })) }

/-- The agent up to so many calls, and then the handler of one of its reports. -/
def reportHandled (calls : Nat) (request : ReleaseAckRequest) : List (Move Bool LinkRequest) :=
  Move.spawn false (.process 1) :: List.replicate calls (Move.go false) ++
    Move.spawn true (.ackRelease 3 request) :: List.replicate 6 (Move.go true)

/-- The agent of a node that has applied a release before applies the next one. -/
def successHandled : List (Move Bool LinkRequest) :=
  reportHandled 29 ⟨0, "success", "rel-site-19700101000000-001", some ("artifacts staged at " ++
    "/var/lib/pingorahub/node-agent/releases/rel-site-19700101000000-001; apply command completed; " ++
    "no health check configured")⟩

/-- The agent of a new node downloads its first release. -/
def downloadHandled : List (Move Bool LinkRequest) :=
  reportHandled 13 ⟨0, "downloading", "rel-site-19700101000000-001",
    some "node-agent downloading rel-site-19700101000000-001"⟩

/-- The pool after a run. -/
def linkAfter (node : Node Unit) (ms : List (Move Bool LinkRequest)) : Pool linkSig Unit Bool (Node Unit × World) :=
  Pool.exec (linkHandler offering (.fromEnv applyVars) .plain) (linkProgram (.fromEnv applyVars))
    (.init (node, publishedWorld)) ms

/-- The release is believed after it was applied. -/
theorem believed_versions_applied_next :
    believedVersion (linkAfter usedNode successHandled).state.2 0 = some "rel-site-19700101000000-001" ∧
      AppliedBefore ["rel-0"] (linkAfter usedNode successHandled).trace "rel-site-19700101000000-001" := by
  have hv : believedVersion (linkAfter usedNode successHandled).state.2 0 = some "rel-site-19700101000000-001" := by
    decide +kernel
  refine ⟨hv, ?_⟩
  refine believed_versions_applied offering (.fromEnv applyVars) .plain ["rel-0"] usedNode publishedWorld 0 ?_ ?_
    successHandled (by decide +kernel) (by decide +kernel) _ hv
  · intro state hs version hversion
    cases Option.some.inj hs
    cases hversion
    exact List.mem_singleton_self _
  · intro version hversion
    have hnone : believedVersion publishedWorld 0 = none := by decide +kernel
    rw [hnone] at hversion
    cases hversion

/-- Nothing was ever applied on a new node, and the hub believes that it runs the release that it downloads. -/
theorem downloading_version_believed : freshNode.disk .state = none ∧ believedVersion publishedWorld 0 = none ∧
    Pool.Admits (linkHandler offering (.fromEnv applyVars) .plain) (linkProgram (.fromEnv applyVars)) Delivers
      (.init (freshNode, publishedWorld)) downloadHandled ∧
    believedVersion (linkAfter freshNode downloadHandled).state.2 0 = some "rel-site-19700101000000-001" ∧
    ¬ AppliedBefore [] (linkAfter freshNode downloadHandled).trace "rel-site-19700101000000-001" := by
  refine ⟨rfl, ?_, ?_, ?_, ?_⟩
  all_goals decide +kernel

end PingoraMesh.NodeAgent
