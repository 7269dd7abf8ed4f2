import PingoraMesh.Agent.Conduct
import PingoraMesh.Lib.Pool

/-!
# Success is acknowledged only for what was applied

The processes of the agent on one node are a pool: a process starts `main`, and may stop for good between any two of
its calls, so that the next one starts from what is on the disk. Nothing is assumed of the surroundings except that the
hub tells the truth about its releases (`Catalogue.Honest`).

* `ack_conduct`: a process reports success only for a release it knows to be applied, and stores only states whose
  version it knows to be applied (`ackSpec`);
* `success_ack_applied`: every acknowledgement of success comes after a run of `apply_release_package` for the package
  of that release that ended well (`Applied`).
-/

namespace PingoraMesh.NodeAgent

open Calls Calls.Fallible

/-! ## What a process knows -/

/-- What a process knows of its node: packages that have been applied, and what the hub has served. -/
structure Knowledge where
  applied : List ConfigPackageResponse
  seen : List LatestReleaseResponse
  served : List ConfigPackageResponse

namespace Knowledge

instance : LE Knowledge := ⟨fun k k' => k.applied ⊆ k'.applied ∧ k.seen ⊆ k'.seen ∧ k.served ⊆ k'.served⟩

protected theorem le_refl (k : Knowledge) : k ≤ k := ⟨List.Subset.refl _, List.Subset.refl _, List.Subset.refl _⟩

/-- The version of a state is that of an applied package. -/
def Backs (k : Knowledge) (state : LocalAgentState) : Prop :=
  ∀ version ∈ state.currentReleaseVersion, ∃ package ∈ k.applied, package.releaseVersion = version

/-- A release is that of an applied package, or the hub gave it with the version of one. -/
def Vouches (k : Knowledge) (releaseId : Uuid) : Prop :=
  ∃ package ∈ k.applied, package.releaseId = releaseId ∨
    ∃ latest ∈ k.seen, latest.releaseId = releaseId ∧ latest.releaseVersion = package.releaseVersion

theorem Backs.mono {k k' : Knowledge} {state : LocalAgentState} (hk : k ≤ k') (h : k.Backs state) : k'.Backs state :=
  fun version hv => (h version hv).imp fun _ hp => ⟨hk.1 hp.1, hp.2⟩

end Knowledge

/-- The release that a call reports success for. -/
def AgentCall.successFor : AgentCall → Option Uuid
  | .outside (.ackRelease _ releaseId request) => if request.applyStatus = "success" then some releaseId else none
  | _ => none

/-- The package that a call applies. -/
def AgentCall.applies : AgentCall → Option ConfigPackageResponse
  | .applyReleasePackage _ package _ _ => some package
  | _ => none

/-- The state that a call stores. -/
def AgentCall.persists : AgentCall → Option LocalAgentState
  | .writeFile .state (.state state) => some state
  | _ => none

/-- What a process learns from the answer to a call. -/
def Learns (k : Knowledge) : (c : AgentCall) → c.Ans → Knowledge → Prop
  | .applyReleasePackage _ package _ _, .ok _, k' => k' = { k with applied := package :: k.applied }
  | .outside (.latestRelease _ _), answer, k' => k' = { k with seen := answer.data?.toList ++ k.seen }
  | .outside (.configPackage _ _), answer, k' => k' = { k with served := answer.data?.toList ++ k.served }
  | .readFile .state, .ok (.state state), k' => ∃ packages, k' = { k with applied := packages ++ k.applied } ∧
      ∀ version ∈ state.currentReleaseVersion, ∃ package ∈ packages, package.releaseVersion = version
  | _, _, k' => k' = k

/-- Only a state that is loaded teaches something. -/
theorem learns_readFile {k : Knowledge} {file : AgentFile} {r : Except ReadFailure FileBody}
    (h : file = .state → ∀ state, r ≠ .ok (.state state)) : Learns k (.readFile file) r k := by
  cases file with
  | state =>
    match r with
    | .ok (.state state) => exact absurd rfl (h rfl state)
    | .ok (.registration _) | .ok (.package _) | .ok (.json _) | .ok (.text _) | .ok .torn | .error _ => exact rfl
  | _ => rfl

theorem Learns.le {k k' : Knowledge} {c : AgentCall} {r : c.Ans} (h : Learns k c r k') : k ≤ k' := by
  unfold Learns at h
  split at h
  · subst h
    exact ⟨List.subset_cons_self _ _, List.Subset.refl _, List.Subset.refl _⟩
  · subst h
    exact ⟨List.Subset.refl _, List.subset_append_right _ _, List.Subset.refl _⟩
  · subst h
    exact ⟨List.Subset.refl _, List.Subset.refl _, List.subset_append_right _ _⟩
  · obtain ⟨packages, rfl, -⟩ := h
    exact ⟨List.subset_append_right _ _, List.Subset.refl _, List.Subset.refl _⟩
  · rw [h]
    exact Knowledge.le_refl k

/-- Success is reported only for releases that are vouched for, only states that are backed are stored, and only
packages that the hub served are applied. -/
def ackSpec : Spec AgentSig Knowledge where
  ok c k := (∀ releaseId ∈ c.successFor, k.Vouches releaseId) ∧ (∀ state ∈ c.persists, k.Backs state) ∧
    ∀ package ∈ c.applies, package ∈ k.served
  can c k r k' := Learns k c r k'

theorem le_of_can {k k' : Knowledge} {c : AgentCall} {r : c.Ans} (h : ackSpec.can c k r k') : k ≤ k' := Learns.le h

/-- A call that neither reports success nor stores a state nor applies a package. -/
def AgentCall.Quiet (c : AgentCall) : Prop := c.successFor = none ∧ c.persists = none ∧ c.applies = none

/-- What is silent is quiet. -/
theorem AgentCall.Silent.quiet {c : AgentCall} (h : c.Silent) : c.Quiet := by
  cases c with
  | outside c =>
    cases c with
    | ackRelease token releaseId request => exact h.elim
    | _ => exact ⟨rfl, rfl, rfl⟩
  | readFile file => exact ⟨rfl, rfl, rfl⟩
  | writeFile file body =>
    cases file with
    | state => exact h.elim
    | _ => exact ⟨rfl, rfl, rfl⟩
  | applyReleasePackage registration package artifacts state => exact h.elim

/-- A call that only reports the version is quiet. -/
theorem AgentCall.Reports.quiet {state : LocalAgentState} {c : AgentCall} (h : c.Reports state) : c.Quiet := by
  cases h with
  | silent h => exact h.quiet
  | heartbeat token request h => exact ⟨rfl, rfl, rfl⟩
  | progress token releaseId request fallback hs hv => exact ⟨if_neg hs, rfl, rfl⟩

theorem ok_of_quiet {c : AgentCall} (h : c.Quiet) (k : Knowledge) : ackSpec.ok c k := by
  refine ⟨?_, ?_, ?_⟩
  · rw [h.1]
    exact nofun
  · rw [h.2.1]
    exact nofun
  · rw [h.2.2]
    exact nofun

/-- A release that is vouched for may be acknowledged. -/
theorem ack_ok {k : Knowledge} {token : String} {releaseId : Uuid} {request : ReleaseAckRequest}
    (hv : k.Vouches releaseId) : ackSpec.ok (.outside (.ackRelease token releaseId request)) k := by
  refine ⟨fun id he => ?_, nofun, nofun⟩
  change id ∈ (if request.applyStatus = "success" then some releaseId else none) at he
  split at he
  · cases he
    exact hv
  · cases he

/-- A process reports success only for what it knows to be applied, and stores only such states. -/
theorem ack_conduct : Conduct ackSpec (fun state k => k.Backs state) (fun latest k => latest ∈ k.seen)
    (fun package k => package ∈ k.served) fun package k => package ∈ k.applied where
  version e hs version hv := hs version (e.symm ▸ hv)
  silent hc := ok_of_quiet hc.quiet _
  reports hc _ := ok_of_quiet hc.quiet _
  keeps _ hcan hs := hs.mono (le_of_can hcan)
  keeps_served _ hcan hp := (le_of_can hcan).2.2 hp
  keeps_applied _ hcan hp := (le_of_can hcan).1 hp
  latest hcan hl := by
    obtain rfl := hcan
    exact List.mem_append_left _ (Option.mem_toList.2 hl)
  package hcan hp := by
    obtain rfl := hcan
    exact List.mem_append_left _ (Option.mem_toList.2 hp)
  apply hp := by
    refine ⟨nofun, nofun, fun package he => ?_⟩
    cases he
    exact hp
  apply_keeps hcan hs := hs.mono (le_of_can hcan)
  apply_done hcan := by
    obtain rfl := hcan
    exact List.mem_cons_self
  success _ _ _ package _ hp _ _ hv := by
    refine ⟨ack_ok ⟨package, hp, .inl rfl⟩, fun r k' hcan version he => ?_⟩
    cases hv.symm.trans he
    exact ⟨package, (le_of_can hcan).1 hp, rfl⟩
  confirm _ _ latest _ _ hl hs _ _ hv := by
    obtain ⟨package, hp, hversion⟩ := hs _ hv
    exact ⟨ack_ok ⟨package, hp, .inr ⟨latest, hl, rfl, hversion.symm⟩⟩, fun r k' hcan => hs.mono (le_of_can hcan)⟩
  store hs := by
    refine ⟨⟨nofun, fun state he => ?_, nofun⟩, fun r k' hcan => hs.mono (le_of_can hcan)⟩
    cases he
    exact hs
  load := ⟨nofun, nofun, nofun⟩
  loaded hcan version hv := by
    obtain ⟨packages, rfl, hp⟩ := hcan
    obtain ⟨package, hmem, e⟩ := hp version hv
    exact ⟨package, List.mem_append_left _ hmem, e⟩
  absent _ := nofun

/-! ## Runs of a node -/

/-- The releases of the hub: each has its own version. -/
structure Catalogue where
  package : Uuid → ConfigPackageResponse
  releaseId_package : ∀ releaseId, (package releaseId).releaseId = releaseId
  distinct : ∀ r r', (package r).releaseVersion = (package r').releaseVersion → r = r'

/-- The hub gives each release with its version, and serves only packages of its releases. -/
structure Catalogue.Honest {η : Type} (cat : Catalogue) (net : Handler OutsideSig η) : Prop where
  latest : ∀ token nodeId s, ∀ latest ∈ (net (.latestRelease token nodeId) s).1.data?,
    latest.releaseVersion = (cat.package latest.releaseId).releaseVersion
  package : ∀ token downloadUrl s, ∀ package ∈ (net (.configPackage token downloadUrl) s).1.data?,
    package = cat.package package.releaseId

section Runs

variable {ι η : Type} (net : Handler OutsideSig η) (config : AgentConfig) (cat : Catalogue)

/-- The processes of a node: each starts `main`. -/
def process (turns : Nat) : Prog AgentSig (Except Failure Unit) := ExceptT.run (main config turns)

/-- In the trace, `apply_release_package` ran for the package, and ended well. -/
def AppliedIn (tr : List (Event AgentSig ι)) (package : ConfigPackageResponse) : Prop :=
  ∃ i registration artifacts state message s,
    (⟨i, .applyReleasePackage registration package artifacts state, .ok message⟩ : Event AgentSig ι) ∈ tr ∧
      Applied net config registration package artifacts state s message

/-- What processes know is true, what is stored on the disk was applied, and so was what was acknowledged. -/
structure AckInv (g : ι → Option Knowledge) (node : Node η) (tr : List (Event AgentSig ι)) : Prop where
  applied : ∀ i k, g i = some k → ∀ package ∈ k.applied,
    AppliedIn net config tr package ∧ package = cat.package package.releaseId
  seen : ∀ i k, g i = some k → ∀ latest ∈ k.seen,
    latest.releaseVersion = (cat.package latest.releaseId).releaseVersion
  served : ∀ i k, g i = some k → ∀ package ∈ k.served, package = cat.package package.releaseId
  disk : ∀ state, node.disk .state = some (.state state) → ∀ version ∈ state.currentReleaseVersion,
    ∃ package, (AppliedIn net config tr package ∧ package = cat.package package.releaseId) ∧
      package.releaseVersion = version
  acks : ∀ pre e post, tr = pre ++ e :: post → ∀ releaseId ∈ e.call.successFor,
    AppliedIn net config pre (cat.package releaseId)

variable {net config cat} {g : ι → Option Knowledge} {node node' : Node η} {tr : List (Event AgentSig ι)}

theorem AppliedIn.concat {package : ConfigPackageResponse} (h : AppliedIn net config tr package)
    (e : Event AgentSig ι) : AppliedIn net config (tr ++ [e]) package := by
  obtain ⟨i, registration, artifacts, state, message, s, hmem, ha⟩ := h
  exact ⟨i, registration, artifacts, state, message, s, List.mem_append_left _ hmem, ha⟩

/-- A release that is vouched for was applied. -/
theorem AckInv.vouches (h : AckInv net config cat g node tr) {i : ι} {k : Knowledge} (hi : g i = some k)
    {releaseId : Uuid} (hv : k.Vouches releaseId) : AppliedIn net config tr (cat.package releaseId) := by
  obtain ⟨package, hp, hid⟩ := hv
  obtain ⟨happlied, hcat⟩ := h.applied i k hi package hp
  have hid' : package.releaseId = releaseId := by
    rcases hid with hid | ⟨latest, hl, rfl, hversion⟩
    · exact hid
    · apply cat.distinct
      rw [← hcat, ← hversion]
      exact h.seen i k hi latest hl
  rw [hcat, hid'] at happlied
  exact happlied

/-- An event that stores nothing on the state file unless it is backed, and what its process learns is true. -/
theorem AckInv.event [DecidableEq ι] (h : AckInv net config cat g node tr) {i : ι} {k k' : Knowledge}
    {c : AgentCall} {r : c.Ans} (hi : g i = some k) (hok : ackSpec.ok c k)
    (happlied : ∀ package ∈ k'.applied, package ∈ k.applied ∨
      AppliedIn net config (tr ++ [⟨i, c, r⟩]) package ∧ package = cat.package package.releaseId)
    (hseen : ∀ latest ∈ k'.seen, latest ∈ k.seen ∨
      latest.releaseVersion = (cat.package latest.releaseId).releaseVersion)
    (hserved : ∀ package ∈ k'.served, package ∈ k.served ∨ package = cat.package package.releaseId)
    (hdisk : ∀ state, node'.disk .state = some (.state state) →
      node.disk .state = some (.state state) ∨ c.persists = some state) :
    AckInv net config cat (Function.update g i (some k')) node' (tr ++ [⟨i, c, r⟩]) := by
  refine ⟨Pool.forall_update (fun package hp => ?_) fun j k hj package hp => ?_,
    Pool.forall_update (fun latest hl => ?_) h.seen, Pool.forall_update (fun package hp => ?_) h.served,
    fun state hs version hv => ?_, fun pre e post htr releaseId hack => ?_⟩
  · rcases happlied package hp with hp | hp
    · exact ⟨(h.applied i k hi package hp).1.concat _, (h.applied i k hi package hp).2⟩
    · exact hp
  · exact ⟨(h.applied j k hj package hp).1.concat _, (h.applied j k hj package hp).2⟩
  · exact (hseen latest hl).elim (h.seen i k hi latest) id
  · exact (hserved package hp).elim (h.served i k hi package) id
  · rcases hdisk state hs with hs | hs
    · obtain ⟨package, hp, e⟩ := h.disk state hs version hv
      exact ⟨package, ⟨hp.1.concat _, hp.2⟩, e⟩
    · obtain ⟨package, hp, e⟩ := hok.2.1 state hs version hv
      exact ⟨package, ⟨(h.applied i k hi package hp).1.concat _, (h.applied i k hi package hp).2⟩, e⟩
  · -- the acknowledgement is an old event, or the new one
    rcases List.eq_nil_or_concat post with rfl | ⟨post, last, rfl⟩
    · obtain ⟨rfl, hlast⟩ := List.append_inj' htr rfl
      cases hlast
      exact h.vouches hi (hok.1 releaseId hack)
    · rw [List.concat_eq_append, ← List.cons_append, ← List.append_assoc] at htr
      exact h.acks pre e post (List.append_inj' htr rfl).1 releaseId hack

theorem AckInv.init (hfresh : node.disk .state = none) : AckInv net config cat (fun _ : ι => none) node [] := by
  refine ⟨nofun, nofun, nofun, fun state hs => ?_, fun pre e post htr => ?_⟩
  · rw [hfresh] at hs
    cases hs
  · simp at htr

/-- The state on the disk is the old one, or the one that the call stores. -/
theorem disk_agentHandler {c : AgentCall} {state : LocalAgentState}
    (h : (agentHandler net config c node).2.disk .state = some (.state state)) :
    node.disk .state = some (.state state) ∨ c.persists = some state := by
  cases c with
  | outside c => exact .inl h
  | readFile file => exact .inl h
  | applyReleasePackage registration package artifacts before => exact .inl h
  | writeFile file body =>
    have hwrite : ∀ b : FileBody, Function.update node.disk file (some b) .state = some (.state state) →
        node.disk .state = some (.state state) ∨ file = .state ∧ b = .state state := by
      intro b hb
      by_cases hf : AgentFile.state = file
      · subst hf
        rw [Function.update_self] at hb
        exact .inr ⟨rfl, Option.some.inj hb⟩
      · rw [Function.update_of_ne hf] at hb
        exact .inl hb
    simp only [agentHandler] at h
    split at h
    · refine (hwrite body h).imp_right ?_
      rintro ⟨rfl, rfl⟩
      rfl
    · exact .inl h
    · exact .inl ((hwrite .torn h).resolve_right fun hb => nomatch hb.2)

/-- What is read is on the disk. -/
theorem read_agentHandler {file : AgentFile} {body : FileBody}
    (h : (agentHandler net config (.readFile file) node).1 = .ok body) : node.disk file = some body := by
  simp only [agentHandler] at h
  split at h
  · cases h
  · rename_i hdisk
    cases h
    exact hdisk
  · cases h

variable [DecidableEq ι]

/-- A call of the agent keeps the invariant. -/
theorem call_keeps_acks (hne : ∀ command ∈ config.applyCommand, Text.isEmpty (Text.trim command) = false)
    (hhub : cat.Honest net) {adm : Pool AgentSig (Except Failure Unit) ι (Node η) → Move ι Nat → Prop} :
    Pool.CallKeeps (agentHandler net config) ackSpec (AckInv net config cat) (fun _ _ => True) adm := by
  intro P g i c rest k _ _ hi hok hF
  have h := hF.inv
  -- calls from which nothing is learned
  have hplain : ∀ {c : AgentCall} {r : c.Ans} {node' : Node η}, ackSpec.ok c k → (∀ state,
      node'.disk .state = some (.state state) → P.state.disk .state = some (.state state) ∨ c.persists = some state) →
      AckInv net config cat (Function.update g i (some k)) node' (P.trace ++ [⟨i, c, r⟩]) := fun hok hdisk =>
    h.event hi hok (fun _ hp => .inl hp) (fun _ hl => .inl hl) (fun _ hp => .inl hp) hdisk
  cases c with
  | outside c =>
    cases c with
    | latestRelease token nodeId =>
      refine ⟨_, rfl, h.event hi hok (fun _ hp => .inl hp) (fun latest hl => ?_) (fun _ hp => .inl hp)
        fun _ hs => .inl hs⟩
      refine (List.mem_append.1 hl).symm.imp_right fun hl => ?_
      exact hhub.latest token nodeId P.state.env latest (Option.mem_toList.1 hl)
    | configPackage token downloadUrl =>
      refine ⟨_, rfl, h.event hi hok (fun _ hp => .inl hp) (fun _ hl => .inl hl) (fun package hp => ?_)
        fun _ hs => .inl hs⟩
      refine (List.mem_append.1 hp).symm.imp_right fun hp => ?_
      exact hhub.package token downloadUrl P.state.env package (Option.mem_toList.1 hp)
    | _ => exact ⟨k, rfl, hplain hok fun _ hs => .inl hs⟩
  | readFile file =>
    by_cases hload : file = .state ∧ ∃ state, (agentHandler net config (.readFile file) P.state).1 = .ok (.state state)
    · obtain ⟨rfl, state, hans⟩ := hload
      have hs := read_agentHandler hans
      -- the package behind the version of the state, if it has one
      obtain ⟨packages, hp, hv⟩ : ∃ packages : List ConfigPackageResponse,
          (∀ package ∈ packages, AppliedIn net config P.trace package ∧ package = cat.package package.releaseId) ∧
            ∀ version ∈ state.currentReleaseVersion, ∃ package ∈ packages, package.releaseVersion = version := by
        cases hversion : state.currentReleaseVersion with
        | none => exact ⟨[], nofun, nofun⟩
        | some version =>
          obtain ⟨package, hp, e⟩ := h.disk state hs version hversion
          refine ⟨[package], fun q hq => ?_, fun v hv => ?_⟩
          · rw [List.mem_singleton.1 hq]
            exact hp
          · cases hv
            exact ⟨package, List.mem_singleton_self _, e⟩
      rw [hans]
      refine ⟨_, ⟨packages, rfl, hv⟩, h.event hi hok (fun package hm => ?_) (fun _ hl => .inl hl) (fun _ hp => .inl hp)
        fun _ hs => .inl hs⟩
      refine (List.mem_append.1 hm).symm.imp_right fun hm => ?_
      exact ⟨(hp package hm).1.concat _, (hp package hm).2⟩
    · refine ⟨k, ?_, hplain hok fun _ hs => .inl hs⟩
      exact learns_readFile fun hf state hr => hload ⟨hf, state, hr⟩
  | writeFile file body => exact ⟨k, rfl, hplain hok fun _ hs => disk_agentHandler hs⟩
  | applyReleasePackage registration package artifacts state =>
    have hdisk : ∀ s, (agentHandler net config (.applyReleasePackage registration package artifacts state)
        P.state).2.disk .state = some (.state s) → P.state.disk .state = some (.state s) ∨
        (AgentCall.applyReleasePackage registration package artifacts state).persists = some s := fun _ hs => .inl hs
    generalize hr : agentHandler net config (.applyReleasePackage registration package artifacts state) P.state = out
      at hdisk ⊢
    have hans : (Fallible.run net (applyReleasePackage config registration package artifacts state) P.state.env).1 =
        out.1 := by rw [← hr]; rfl
    obtain ⟨result, node'⟩ := out
    cases result with
    | error e => exact ⟨k, rfl, hplain hok hdisk⟩
    | ok message =>
      refine ⟨_, rfl, h.event hi hok (fun p hp => ?_) (fun _ hl => .inl hl) (fun _ hp => .inl hp) hdisk⟩
      rcases List.mem_cons.1 hp with rfl | hp
      · refine .inr ⟨?_, h.served i k hi p (hok.2.2 p rfl)⟩
        exact ⟨i, registration, artifacts, state, message, P.state.env, List.mem_append_right _ List.mem_cons_self,
          applyReleasePackage_ok hne hans⟩
      · exact .inl hp

/-- A process that starts knows nothing. -/
theorem spawn_keeps_acks {adm : Pool AgentSig (Except Failure Unit) ι (Node η) → Move ι Nat → Prop} :
    Pool.SpawnKeeps (process config) ackSpec (AckInv net config cat) (fun _ _ => True) adm := by
  intro P g i turns _ _ hF
  refine ⟨⟨[], [], []⟩, (ack_conduct.main_follows turns).run, ?_⟩
  exact ⟨Pool.forall_update nofun hF.inv.applied, Pool.forall_update nofun hF.inv.seen,
    Pool.forall_update nofun hF.inv.served, hF.inv.disk, hF.inv.acks⟩

end Runs

/-- On a node that starts without a state file, under an honest hub, whatever else fails and however often the agent is
started again: every acknowledgement of success comes after a run of `apply_release_package` for the package of the
release that ended well. -/
theorem success_ack_applied {ι η : Type} [DecidableEq ι] (net : Handler OutsideSig η) (vars : Vars) (node : Node η)
    (hfresh : node.disk .state = none) (cat : Catalogue) (hhub : cat.Honest net) (ms : List (Move ι Nat))
    (pre : List (Event AgentSig ι)) (e : Event AgentSig ι) (post : List (Event AgentSig ι))
    (htr : (Pool.exec (agentHandler net (.fromEnv vars)) (process (.fromEnv vars)) (.init node) ms).trace =
      pre ++ e :: post) (releaseId : Uuid) (hack : e.call.successFor = some releaseId) :
    AppliedIn net (.fromEnv vars) pre (cat.package releaseId) := by
  have hne : ∀ command ∈ (AgentConfig.fromEnv vars).applyCommand, Text.isEmpty (Text.trim command) = false :=
    fun _ hc => isEmpty_trim_applyCommand hc
  have hadm : ∀ (ms : List (Move ι Nat)) P, Pool.Admits (agentHandler net (.fromEnv vars)) (process (.fromEnv vars))
      (fun _ _ => True) P ms := by
    intro ms
    induction ms with
    | nil => exact fun _ => trivial
    | cons m ms ih => exact fun P => ⟨trivial, ih _⟩
  obtain ⟨g, hF⟩ := Pool.invariant spawn_keeps_acks (call_keeps_acks hne hhub)
    (Pool.fits_init (AckInv.init hfresh)) ms (hadm ms _)
  exact hF.inv.acks pre e post htr releaseId hack

/-! ## A node with one release -/

/-- Releases that are numbered by the length of their versions. -/
def numbered : Catalogue where
  package n :=
    { releaseId := n, releaseVersion := .ofList (List.replicate n 'v'), manifest := .null, renderedConfig := .null
      certificates := .null, signature := "sig" }
  releaseId_package _ := rfl
  distinct r r' h := by
    have h := congrArg List.length (String.ofList_injective h)
    rwa [List.length_replicate, List.length_replicate] at h

/-- Surroundings in which everything goes well; the latest release of the hub is the first one. -/
def calm : Handler OutsideSig Unit := fun c s => (match c with
  | .refresh _ => .answered 200 "" (.ok { nodeId := 0, accessToken := "a", refreshToken := "r", expiresAt := 10 ^ 15 })
  | .heartbeat _ _ => .answered 200 "" (.ok { serverTime := 0, nextHeartbeatAfterSeconds := 15 })
  | .latestRelease _ _ =>
    .answered 200 "" (.ok { releaseId := 1, releaseVersion := "v", configHash := "h", downloadUrl := "/v" })
  | .configPackage _ _ => .answered 200 "" (.ok (numbered.package 1))
  | .ackRelease _ id r => .answered 200 "" (.ok { releaseId := id, nodeId := r.nodeId, applyStatus := r.applyStatus })
  | .pendingOperation _ _ => .answered 404 "none" (.error "")
  | .operationResult _ id r => .answered 200 ""
    (.ok { operationId := id, nodeId := r.nodeId, execStatus := r.execStatus })
  | .utcNow => (0 : Int)
  | .shell _ _ _ => .exited (some 0) "" ""
  | .probe _ _ => .ok 200
  | .sleep _ => ()
  | .processUser => none
  | .sleepOrStop _ => false
  | .createDirAll _ | .openRead _ => none
  | .openWrite _ => .done, s)

/-- A registered node. -/
def freshNode : Node Unit where
  disk := Function.update (fun _ => none) .registration (some (.registration
    { nodeId := 0, nodeCode := "edge-1", hostname := "h", privateIp := "10.0.0.1", refreshToken := "r", expiresAt := ""
      registrationMode := "manual" }))
  env := ()

/-- An agent with an apply command. -/
def applyVars : Vars := fun name => if name = "PINGORAHUB_NODE_APPLY_COMMAND" then some "reload" else none

theorem numbered_honest : numbered.Honest calm where
  latest _ _ _ latest h := by
    cases Option.some.inj h
    decide
  package _ _ _ package h := by
    cases Option.some.inj h
    rfl

/-- The calls of the agent up to its first acknowledgement of success. -/
def firstRun : Pool AgentSig (Except Failure Unit) Nat (Node Unit) :=
  Pool.exec (agentHandler calm (.fromEnv applyVars)) (process (.fromEnv applyVars)) (.init freshNode)
    (.spawn 0 1 :: List.replicate 29 (.go 0))

/-- The first release is acknowledged after it was applied. -/
theorem success_ack_applied_first : (firstRun.trace[28]?.bind fun e => e.call.successFor) = some 1 ∧
    AppliedIn calm (.fromEnv applyVars) (firstRun.trace.take 28) (numbered.package 1) := by
  have hack : (firstRun.trace[28]?.bind fun e => e.call.successFor) = some 1 := by decide +kernel
  refine ⟨hack, ?_⟩
  obtain ⟨e, he, hack⟩ := Option.bind_eq_some_iff.1 hack
  obtain ⟨hlt, he⟩ := List.getElem?_eq_some_iff.1 he
  have htr : firstRun.trace = firstRun.trace.take 28 ++ e :: firstRun.trace.drop 29 := by
    rw [← he, ← List.drop_eq_getElem_cons hlt, List.take_append_drop]
  exact success_ack_applied calm applyVars freshNode rfl numbered numbered_honest _ _ e _ htr 1 hack

end PingoraMesh.NodeAgent
