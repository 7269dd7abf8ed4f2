import PingoraMesh.Hub.Effects
import PingoraMesh.Lib.Ledger
import PingoraMesh.Lib.Maps
import PingoraMesh.Lib.Pool

/-!
# Registration with a one-time token

Any number of requests run at once over one store. A registration reads the node, checks the bootstrap token, issues
tokens and only then writes the node back without its bootstrap token; an acknowledgement of a release also writes a
whole node back that it has read before.

* `follows_enrolling`: every request writes a node only as it is made, or as it was read, with its bootstrap token or,
  after a registration, without it (`enrollingSpec`);
* `registers_once_of_unchanged`: in every run in which a node that is written back still has the bootstrap token that
  was read, no two registrations with one bootstrap token succeed;
* `two_registrations`: two registrations that both read the node before either has written it succeed with one token.
-/

namespace PingoraMesh

open Calls Fallible HubService

/-- The program of a request on a hub instance. -/
def hubProgram (p : Platform) (q : Hub × Request) : Prog hubSig (Except AppError Unit) :=
  ExceptT.run (HubService.program p q.1 q.2)

/-- The bootstrap token for a drawn identifier. -/
def bootstrapText (token : Uuid) : String := "boot-" ++ Uuid.hyphenated token

theorem bootstrapText_inj {a b : Uuid} (h : bootstrapText a = bootstrapText b) : a = b := by
  have hlist := congrArg String.toList h
  rw [bootstrapText, bootstrapText, String.toList_append, String.toList_append] at hlist
  exact Uuid.hyphenated_inj (String.toList_inj.1 (List.append_cancel_left hlist))

/-- The bootstrap token that a stored node still has, in the form it is stored. -/
def World.token (w : World) (nodeId : Uuid) : Option String := w.store.nodes[nodeId]?.bind (·.bootstrapToken)

/-! ## What a program has read and drawn -/

/-- A program under way: its request, the node that it has read last, the identifier that it has drawn last, and
whether it has written a node. -/
structure Enrolling where
  request : Hub × Request
  read : Option NodeRecord
  drawn : Option Uuid
  saved : Bool

namespace Enrolling

/-- What a call tells. -/
def next (c : HubCall) (r : c.Ans) (g : Enrolling) : Enrolling :=
  match c, r with
  | .node _, found => { g with read := found }
  | .newUuid, k => { g with drawn := some k }
  | .saveNode _, _ => { g with drawn := none, saved := true }
  | _, _ => g

/-- How a node is written: with the token that was drawn for it, without the token that the request has shown, or with
the one that was read. -/
inductive Writes (p : Platform) (g : Enrolling) (node : NodeRecord) : Prop
  | created {r : CreateNodeRequest} {k : Uuid} (request : g.request.2 = .createNode r) (read : g.read = none)
      (drawn : g.drawn = some k) (token : node.bootstrapToken = some (hashToken p (bootstrapText k)))
  | registered {r : NodeRegisterRequest} {old : NodeRecord} (request : g.request.2 = .registerNode r)
      (read : g.read = some old) (shown : old.bootstrapToken = some (hashToken p r.bootstrapToken))
      (token : node.bootstrapToken = none)
  | acked {releaseId : Uuid} {r : ReleaseAckRequest} {old : NodeRecord}
      (request : g.request.2 = .ackRelease releaseId r)
      (read : g.read = some old) (token : node.bootstrapToken = old.bootstrapToken)

/-- What is asked of the calls that write a node. -/
def Allows (p : Platform) (g : Enrolling) : HubCall → Prop
  | .saveNode node => g.Writes p node
  | _ => True

/-- A registration that has succeeded has written the node. -/
def Returns (r : Except AppError Unit) (g : Enrolling) : Prop :=
  r = .ok () → ∀ request, g.request.2 = .registerNode request → g.saved = true

end Enrolling

/-- Nodes are written as requests say. -/
def enrollingSpec (p : Platform) : Spec hubSig Enrolling := .protocol (fun c g => g.Allows p c) Enrolling.next

section Follows

variable (p : Platform) {g : Enrolling}

theorem createNode_enrolling (r : CreateNodeRequest) (hg : g.request.2 = .createNode r) (hr : g.read = none) :
    wp (enrollingSpec p) (createNode p r) (fun _ _ => True) (fun _ _ => True) g := by
  simp only [enrollingSpec, createNode, repo, wp_bind, wp_ensure, wp_call_protocol, wp_pure, Enrolling.next,
    Enrolling.Allows, implies_true, and_true, true_and]
  intro _ _ _ _ k
  exact .created hg hr rfl rfl

theorem registerNode_enrolling (r : NodeRegisterRequest) (hg : g.request.2 = .registerNode r) :
    wp (enrollingSpec p) (registerNode p r) (fun _ g' => g'.saved = true) (fun _ _ => True) g := by
  simp only [enrollingSpec, registerNode, issueNodeTokens, repo, wp_bind, wp_okOr, wp_ensure, wp_call_protocol, wp_pure,
    Enrolling.next, Enrolling.Allows, implies_true, and_true, true_and]
  intro _ _ _ found node hnode expected hexpected hshown _ _
  exact .registered hg hnode (by rw [hexpected, beq_iff_eq.1 hshown]) rfl

theorem ackRelease_enrolling (releaseId : Uuid) (r : ReleaseAckRequest) (hg : g.request.2 = .ackRelease releaseId r) :
    wp (enrollingSpec p) (ackRelease releaseId r) (fun _ _ => True) (fun _ _ => True) g := by
  simp only [enrollingSpec, ackRelease, repo, wp_bind, wp_okOr, wp_ensure, wp_forSome, wp_call_protocol, wp_pure,
    Enrolling.next, Enrolling.Allows, implies_true, and_true, true_and]
  intro _ _ _ _ _ _ _ _ hnode _
  exact .acked hg hnode rfl

/-- Every request writes nodes as it says, and a registration that succeeds has written its node. -/
theorem follows_enrolling (q : Hub × Request) :
    Prog.wp (enrollingSpec p) (hubProgram p q) Enrolling.Returns ⟨q, none, none, false⟩ := by
  have hkeep : ∀ c g r g', (enrollingSpec p).can c g r g' → g.request = q → g'.request = q := by
    rintro c g r _ rfl hg
    cases c <;> exact hg
  suffices hsaved : Prog.wp (enrollingSpec p) (hubProgram p q) (fun r g' => r = .ok () →
      ∀ request, q.2 = .registerNode request → g'.saved = true) ⟨q, none, none, false⟩ from
    Prog.wp_mono (fun _ _ h hok request hreq => h.1 hok request (h.2 ▸ hreq)) (Prog.wp_keep hkeep hsaved rfl)
  obtain ⟨hub, r⟩ := q
  have hquiet : Effect.saveNode ∉ r.effects → (HubService.program p hub r).Safe (enrollingSpec p) := fun hr =>
    (program_only p hub r).safe fun c g hc => by
      cases c with
      | saveNode node => exact absurd hc hr
      | _ => trivial
  cases r with
  | registerNode r =>
    have hr : wp (enrollingSpec p) (HubService.program p hub (.registerNode r)) (fun _ g' => g'.saved = true)
      (fun _ _ => True) ⟨(hub, .registerNode r), none, none, false⟩ := (wp_discard _).2 (registerNode_enrolling p r rfl)
    refine Prog.wp_mono (fun out g' h hok _ _ => ?_) (wp_iff_run.1 hr)
    subst hok
    exact h
  | createNode r =>
    have hr : wp (enrollingSpec p) (HubService.program p hub (.createNode r)) (fun _ _ => True) (fun _ _ => True)
      ⟨(hub, .createNode r), none, none, false⟩ := (wp_discard _).2 (createNode_enrolling p r rfl rfl)
    exact Prog.wp_mono (fun _ _ _ _ _ e => by cases e) hr.either
  | ackRelease releaseId r =>
    have hr : wp (enrollingSpec p) (HubService.program p hub (.ackRelease releaseId r)) (fun _ _ => True)
      (fun _ _ => True) ⟨(hub, .ackRelease releaseId r), none, none, false⟩ :=
      (wp_discard _).2 (ackRelease_enrolling p releaseId r rfl)
    exact Prog.wp_mono (fun _ _ _ _ _ e => by cases e) hr.either
  | _ => exact Prog.wp_mono (fun _ _ _ _ _ e => by cases e) (hquiet (by simp [Request.effects])).run

end Follows

/-! ## The condition -/

/-- The node that a call writes. -/
def HubCall.savedNode : HubCall → Option NodeRecord
  | .saveNode record => some record
  | _ => none

section Reads

variable {ι : Type}

/-- The node that a program has read last, after one more call of it. -/
def nodeRead (last : Option NodeRecord) : Event hubSig ι → Option NodeRecord
  | ⟨_, .node _, found⟩ => found
  | _ => last

variable [DecidableEq ι]

/-- The node that a program has read last. -/
def readNode (tr : List (Event hubSig ι)) (i : ι) : Option NodeRecord :=
  tr.foldl (fun last e => if e.thread = i then nodeRead last e else last) none

theorem readNode_concat (tr : List (Event hubSig ι)) (e : Event hubSig ι) :
    readNode (tr ++ [e]) = Function.update (readNode tr) e.thread (nodeRead (readNode tr e.thread) e) := by
  funext i
  by_cases hi : i = e.thread
  · subst hi
    simp [readNode]
  · simp [readNode, Function.update_of_ne hi, if_neg (Ne.symm hi)]

/-- What is asked of a program that writes a node which it has read: the stored node still has the bootstrap token that
was read. -/
def TokenUnchanged (P : Pool hubSig (Except AppError Unit) ι World) : Move ι (Hub × Request) → Prop
  | .spawn _ _ => True
  | .go i => ∀ c ∈ P.next i, ∀ node ∈ c.savedNode, ∀ old ∈ readNode P.trace i,
      P.state.token node.identity.id = old.bootstrapToken

instance (P : Pool hubSig (Except AppError Unit) ι World) : DecidablePred (TokenUnchanged P)
  | .spawn _ _ => inferInstanceAs (Decidable True)
  | .go i => inferInstanceAs (Decidable (∀ c ∈ P.next i, ∀ node ∈ c.savedNode, ∀ old ∈ readNode P.trace i,
      P.state.token node.identity.id = old.bootstrapToken))

end Reads

/-! ## The invariant -/

section Tokens

variable {p : Platform} {w : World} {nodeId : Uuid} {token : String}

/-- A call that writes no node brings no token back. -/
theorem token_of_call {c : HubCall} (hc : c.savedNode = none) (h : (hubHandler p c w).2.token nodeId = some token) :
    w.token nodeId = some token := by
  cases c with
  | saveNode node => cases hc
  | recordHeartbeat hb =>
    obtain ⟨node, hnode, ht⟩ := Option.bind_eq_some_iff.1 h
    rcases Maps.getElem?_modify_eq_some hnode with ⟨rfl, old, hold, rfl⟩ | ⟨-, hnode⟩
    · exact Option.bind_eq_some_iff.2 ⟨old, hold, ht⟩
    · exact Option.bind_eq_some_iff.2 ⟨node, hnode, ht⟩
  | deleteNode id =>
    simp only [World.token, hubHandler, World.write, MemoryState.deleteNode] at h
    split at h
    · exact h
    · obtain ⟨node, hnode, ht⟩ := Option.bind_eq_some_iff.1 h
      exact Option.bind_eq_some_iff.2 ⟨node, (Maps.getElem?_erase_eq_some hnode).2, ht⟩
  | deleteSite siteId =>
    simp only [hubHandler, World.write, MemoryState.deleteSite] at h
    split at h <;> exact h
  | deleteDnsProvider providerId =>
    simp only [hubHandler, World.write, MemoryState.deleteDnsProvider] at h
    split at h <;> exact h
  | deleteOperationTemplate templateId =>
    simp only [hubHandler, World.write, MemoryState.deleteOperationTemplate] at h
    split at h <;> exact h
  | claimNextNodeOperation nodeId =>
    simp only [hubHandler, MemoryState.claimNextNodeOperation] at h
    split at h <;> exact h
  | _ => exact h

theorem token_saveNode (node : NodeRecord) :
    (hubHandler p (.saveNode node) w).2.token nodeId =
      if node.identity.id = nodeId then node.bootstrapToken else w.token nodeId := by
  simp only [World.token, hubHandler, World.write, MemoryState.saveNode, Std.ExtTreeMap.getElem?_insert,
    Std.compare_eq_iff_eq]
  split <;> rfl

end Tokens

section Invariant

variable {ι : Type} [DecidableEq ι] (p : Platform) (q : ι → Option (Hub × Request))

/-- The bootstrap token for a drawn identifier, in the form it is stored. -/
def storedToken (k : Uuid) : String := hashToken p (bootstrapText k)

/-- Programs know what they have read; stored tokens come from identifiers that were drawn, each is on one node, and
registrations that have written their nodes have used up theirs. -/
structure EnrolInv (g : ι → Option Enrolling) (w : World) (tr : List (Event hubSig ι)) : Prop where
  request : ∀ i gi, g i = some gi → q i = some gi.request
  read : (fun i => (g i).bind Enrolling.read) = readNode tr
  made : ∀ nodeId token, w.token nodeId = some token → ∃ k, token = storedToken p k
  one : ∀ a b token, w.token a = some token → w.token b = some token → a = b
  used : ∃ out : List (ι × Uuid),
    Ledger w.nextUuid (fun i => (g i).bind Enrolling.drawn) (fun k => ∃ nodeId, w.token nodeId = some (storedToken p k))
      (out.map Prod.snd) ∧
    ∀ i gi, g i = some gi → ∀ r, gi.request.2 = .registerNode r → gi.saved = true →
      ∃ k, (i, k) ∈ out ∧ bootstrapText k = r.bootstrapToken

theorem EnrolInv.init : EnrolInv p q (fun _ : ι => none) World.init [] := by
  have hnone : ∀ nodeId, World.init.token nodeId = none := fun nodeId => by
    simp [World.token, World.init, MemoryState.empty]
  refine ⟨fun _ _ e => by (cases e), rfl, fun nodeId token h => ?_, fun a b token h => ?_, [], ?_,
    fun _ _ e => by (cases e)⟩
  · rw [hnone] at h
    cases h
  · rw [hnone] at h
    cases h
  · refine ⟨nofun, fun k ⟨nodeId, h⟩ => ?_, nofun, nofun, nofun, nofun, fun k ⟨nodeId, h⟩ => ?_, .nil⟩
    · rw [hnone] at h
      cases h
    · rw [hnone] at h
      cases h

variable {p q} {g : ι → Option Enrolling} {w : World} {tr : List (Event hubSig ι)} {i : ι} {gi : Enrolling}

/-- A start has read and drawn nothing. -/
theorem EnrolInv.spawn (h : EnrolInv p q g w tr) (hi : g i = none) {r : Hub × Request} (hr : q i = some r) :
    EnrolInv p q (Function.update g i (some ⟨r, none, none, false⟩)) w tr := by
  obtain ⟨out, hledger, hused⟩ := h.used
  refine { h with request := Pool.forall_update hr h.request, read := ?_, used := ⟨out, ?_, ?_⟩ }
  · rw [Pool.bind_update_same (by rw [hi]; rfl)]
    exact h.read
  · rw [Pool.bind_update_same (by rw [hi]; rfl)]
    exact hledger
  · exact Pool.forall_update nofun hused

omit [DecidableEq ι] in
/-- The calls that tell a program something. -/
theorem Enrolling.next_cases {c : HubCall} (hc : c.savedNode = none) :
    c = .newUuid ∨ (∃ nodeId, c = .node nodeId) ∨
      ∀ (r : c.Ans) (g : Enrolling) (j : ι) (last : Option NodeRecord), g.next c r = g ∧
        nodeRead last ⟨j, c, r⟩ = last := by
  cases c with
  | newUuid => exact .inl rfl
  | node nodeId => exact .inr (.inl ⟨nodeId, rfl⟩)
  | saveNode node => cases hc
  | _ => exact .inr (.inr fun _ _ _ _ => ⟨rfl, rfl⟩)

/-- A call that writes no node. -/
theorem EnrolInv.quiet (h : EnrolInv p q g w tr) (hi : g i = some gi) {c : HubCall} (hc : c.savedNode = none) :
    EnrolInv p q (Function.update g i (some (gi.next c (hubHandler p c w).1))) (hubHandler p c w).2
      (tr ++ [⟨i, c, (hubHandler p c w).1⟩]) := by
  obtain ⟨out, hledger, hused⟩ := h.used
  have hread : readNode tr i = gi.read := by rw [← congrFun h.read i, hi]; rfl
  have hmade : ∀ nodeId token, (hubHandler p c w).2.token nodeId = some token → ∃ k, token = storedToken p k :=
    fun nodeId token ht => h.made nodeId token (token_of_call hc ht)
  have hone : ∀ a b token, (hubHandler p c w).2.token a = some token →
    (hubHandler p c w).2.token b = some token → a = b :=
    fun a b token ha hb => h.one a b token (token_of_call hc ha) (token_of_call hc hb)
  have hwaits : ∀ k, (∃ nodeId, (hubHandler p c w).2.token nodeId = some (storedToken p k)) →
      ∃ nodeId, w.token nodeId = some (storedToken p k) := fun k hk => hk.imp fun _ => token_of_call hc
  rcases Enrolling.next_cases (ι := ι) hc with rfl | ⟨nodeId, rfl⟩ | hsame
  · refine ⟨Pool.forall_update (h.request i gi hi) h.request, ?_, hmade, hone, out, ?_,
      Pool.forall_update (hused i gi hi) hused⟩
    · rw [readNode_concat, Pool.bind_update, h.read]
      exact congrArg (Function.update (readNode tr) i) hread.symm
    · rw [Pool.bind_update]
      exact hledger.draw i
  · refine ⟨Pool.forall_update (h.request i gi hi) h.request, ?_, hmade, hone, out, ?_,
      Pool.forall_update (hused i gi hi) hused⟩
    · rw [readNode_concat, Pool.bind_update, h.read]
      rfl
    · rw [Pool.bind_update_same (by rw [hi]; rfl)]
      exact hledger
  · obtain ⟨hnext, -⟩ := hsame (hubHandler p c w).1 gi i none
    rw [hnext]
    refine ⟨Pool.forall_update (h.request i gi hi) h.request, ?_, hmade, hone, out, ?_,
      Pool.forall_update (hused i gi hi) hused⟩
    · rw [readNode_concat, (hsame (hubHandler p c w).1 gi i _).2, Function.update_eq_self, Pool.bind_update_same
        (by rw [hi]; rfl)]
      exact h.read
    · rw [Pool.bind_update_same (by rw [hi]; rfl)]
      exact hledger.mono nextUuid_le (fun _ _ hk => hk) fun k hk => .inl (hwaits k hk)

/-- A node is written: what is to be shown of the tokens. -/
theorem EnrolInv.saved (h : EnrolInv p q g w tr) (hi : g i = some gi) (node : NodeRecord)
    (hmade : ∀ nodeId token, (hubHandler p (.saveNode node) w).2.token nodeId = some token →
      ∃ k, token = storedToken p k)
    (hone : ∀ a b token, (hubHandler p (.saveNode node) w).2.token a = some token →
      (hubHandler p (.saveNode node) w).2.token b = some token → a = b)
    (out : List (ι × Uuid))
    (hledger : Ledger w.nextUuid (Function.update (fun j => (g j).bind Enrolling.drawn) i none)
      (fun k => ∃ nodeId, (hubHandler p (.saveNode node) w).2.token nodeId = some (storedToken p k)) (out.map Prod.snd))
    (hused : ∀ j gj, g j = some gj → ∀ r, gj.request.2 = .registerNode r → gj.saved = true ∨ j = i →
      ∃ k, (j, k) ∈ out ∧ bootstrapText k = r.bootstrapToken) :
    EnrolInv p q (Function.update g i (some (gi.next (.saveNode node) ()))) (hubHandler p (.saveNode node) w).2
      (tr ++ [⟨i, .saveNode node, ()⟩]) where
  request := Pool.forall_update (h.request i gi hi) h.request
  read := by
    have hread : readNode tr i = gi.read := by rw [← congrFun h.read i, hi]; rfl
    rw [readNode_concat, Pool.bind_update, h.read]
    exact congrArg (Function.update (readNode tr) i) hread.symm
  made := hmade
  one := hone
  used := by
    refine ⟨out, ?_, Pool.forall_update (fun r hr _ => hused i gi hi r hr (.inr rfl)) fun j gj hj r hr hs => ?_⟩
    · rw [Pool.bind_update]
      exact hledger
    · exact hused j gj hj r hr (.inl hs)

/-- A node is written, and the stored one still has the token that was read. -/
theorem EnrolInv.save (hinj : Function.Injective p.sha256Hex) (h : EnrolInv p q g w tr) (hi : g i = some gi)
    {node : NodeRecord} (hnode : gi.Writes p node)
    (hcond : ∀ old ∈ readNode tr i, w.token node.identity.id = old.bootstrapToken) :
    EnrolInv p q (Function.update g i (some (gi.next (.saveNode node) ()))) (hubHandler p (.saveNode node) w).2
      (tr ++ [⟨i, .saveNode node, ()⟩]) := by
  obtain ⟨out, hledger, hused⟩ := h.used
  have hstored : ∀ {a b : Uuid}, storedToken p a = storedToken p b → a = b := fun e => bootstrapText_inj (hinj e)
  -- the token of a stored node after the write: the one that was written, or one that was there
  have hcase : ∀ nodeId token, (hubHandler p (.saveNode node) w).2.token nodeId = some token →
      (nodeId = node.identity.id ∧ node.bootstrapToken = some token) ∨
        (nodeId ≠ node.identity.id ∧ w.token nodeId = some token) := by
    intro nodeId token ht
    rw [token_saveNode] at ht
    split at ht
    · exact .inl ⟨by rename_i e; exact e.symm, ht⟩
    · exact .inr ⟨by rename_i e; exact Ne.symm e, ht⟩
  have hcond' : ∀ old, gi.read = some old → w.token node.identity.id = old.bootstrapToken := fun old hold =>
    hcond old (by rw [← congrFun h.read i, hi]; exact hold)
  cases hnode with
  | @created r k hr _ hk htoken =>
    have hdrawn : k ∈ (fun j => (g j).bind Enrolling.drawn) i := by
      dsimp only
      rw [hi]
      exact hk
    refine h.saved hi node (fun nodeId token ht => ?_) (fun a b token ha hb => ?_) out
      (hledger.store hdrawn fun k' ⟨nodeId, ht⟩ => ?_) fun j gj hj r' hr' hs => ?_
    · rcases hcase nodeId token ht with ⟨-, e⟩ | ⟨-, ht⟩
      · exact ⟨k, Option.some.inj (e.symm.trans htoken)⟩
      · exact h.made nodeId token ht
    · -- the token is new, so no other node has it
      have hnew : ∀ c, w.token c = some token → node.bootstrapToken ≠ some token := fun c hc e =>
        hledger.drawnNotWaiting i k hdrawn ⟨c, hc.trans (e.symm.trans htoken)⟩
      rcases hcase a token ha with ⟨ea, ta⟩ | ⟨-, ta⟩ <;> rcases hcase b token hb with ⟨eb, tb⟩ | ⟨-, tb⟩
      · exact ea.trans eb.symm
      · exact absurd ta (hnew b tb)
      · exact absurd tb (hnew a ta)
      · exact h.one a b token ta tb
    · rcases hcase nodeId _ ht with ⟨-, e⟩ | ⟨-, ht⟩
      · exact .inl (hstored (Option.some.inj (e.symm.trans htoken)))
      · exact .inr ⟨nodeId, ht⟩
    · rcases hs with hs | rfl
      · exact hused j gj hj r' hr' hs
      · obtain rfl : gj = gi := Option.some.inj (hj.symm.trans hi)
        rw [hr] at hr'
        cases hr'
  | @registered r old hr hold hshown htoken =>
    have htaken := (hcond' old hold).trans hshown
    obtain ⟨k, hk⟩ := h.made _ _ htaken
    have hleft : ∀ nodeId token, (hubHandler p (.saveNode node) w).2.token nodeId = some token →
        nodeId ≠ node.identity.id ∧ w.token nodeId = some token := by
      intro nodeId token ht
      rcases hcase nodeId token ht with ⟨-, e⟩ | ht
      · rw [htoken] at e
        cases e
      · exact ht
    have hhand : Ledger w.nextUuid (fun j => (g j).bind Enrolling.drawn)
        (fun k' => ∃ nodeId, (hubHandler p (.saveNode node) w).2.token nodeId = some (storedToken p k'))
        (out.map Prod.snd ++ [k]) := by
      refine hledger.hand ⟨_, hk ▸ htaken⟩ fun k' ⟨nodeId, ht⟩ => ⟨?_, nodeId, (hleft nodeId _ ht).2⟩
      rintro rfl
      exact (hleft nodeId _ ht).1 (h.one _ _ _ (hleft nodeId _ ht).2 (hk ▸ htaken))
    refine h.saved hi node (fun nodeId token ht => h.made nodeId token (hleft nodeId token ht).2)
      (fun a b token ha hb => h.one a b token (hleft a token ha).2 (hleft b token hb).2) (out ++ [(i, k)])
      (by rw [List.map_append]; exact hhand.forget i) fun j gj hj r' hr' hs => ?_
    rcases hs with hs | rfl
    · obtain ⟨k', hk', e⟩ := hused j gj hj r' hr' hs
      exact ⟨k', List.mem_append_left _ hk', e⟩
    · obtain rfl : gj = gi := Option.some.inj (hj.symm.trans hi)
      rw [hr] at hr'
      cases hr'
      exact ⟨k, List.mem_append_right _ (List.mem_singleton_self _), (hinj hk).symm⟩
  | @acked releaseId r old hr hold htoken =>
    have hsame : ∀ nodeId token, (hubHandler p (.saveNode node) w).2.token nodeId = some token →
        w.token nodeId = some token := by
      intro nodeId token ht
      rcases hcase nodeId token ht with ⟨rfl, e⟩ | ⟨-, ht⟩
      · rw [hcond' old hold, ← htoken]
        exact e
      · exact ht
    refine h.saved hi node (fun nodeId token ht => h.made nodeId token (hsame nodeId token ht))
      (fun a b token ha hb => h.one a b token (hsame a token ha) (hsame b token hb)) out
      ((hledger.forget i).mono (Nat.le_refl _) (fun _ _ hk => hk) fun k ⟨nodeId, ht⟩ => .inl
        ⟨nodeId, hsame nodeId _ ht⟩)
      fun j gj hj r' hr' hs => ?_
    rcases hs with hs | rfl
    · exact hused j gj hj r' hr' hs
    · obtain rfl : gj = gi := Option.some.inj (hj.symm.trans hi)
      rw [hr] at hr'
      cases hr'

end Invariant

/-! ## Runs -/

section Runs

variable {ι : Type} [DecidableEq ι]

/-- The pool after a schedule of requests on an empty store. -/
def hubRun (p : Platform) (ms : List (Move ι (Hub × Request))) : Pool hubSig (Except AppError Unit) ι World :=
  Pool.exec (hubHandler p) (hubProgram p) (Pool.init World.init) ms

/-- No two registrations of the schedule with one node code and one bootstrap token succeed. -/
def RegistersOnce (p : Platform) (ms : List (Move ι (Hub × Request))) : Prop :=
  ∀ i j hub hub' r r', Pool.asked ms i = some (hub, .registerNode r) → Pool.asked ms j = some (hub', .registerNode r') →
    r.nodeCode = r'.nodeCode → r.bootstrapToken = r'.bootstrapToken → (hubRun p ms).result i = some (.ok ()) →
    (hubRun p ms).result j = some (.ok ()) → i = j

variable {p : Platform} {ms : List (Move ι (Hub × Request))}

theorem spawn_keeps_enrolling :
    Pool.SpawnKeeps (hubProgram p) (enrollingSpec p) (EnrolInv p (Pool.asked ms)) Enrolling.Returns
      (fun P m => Pool.AsAsked ms P m ∧ TokenUnchanged P m) := by
  intro P g i q hadm hi hF
  exact ⟨⟨q, none, none, false⟩, follows_enrolling p q, hF.inv.spawn (hF.fresh i hi) (hadm.1 hi)⟩

theorem call_keeps_enrolling (hinj : Function.Injective p.sha256Hex) :
    Pool.CallKeeps (hubHandler p) (enrollingSpec p) (EnrolInv p (Pool.asked ms)) Enrolling.Returns
      (fun P m => Pool.AsAsked ms P m ∧ TokenUnchanged P m) := by
  intro P g i c k gi hadm hi hgi hok hF
  refine ⟨gi.next c (hubHandler p c P.state).1, rfl, ?_⟩
  cases hc : c.savedNode with
  | none => exact hF.inv.quiet hgi hc
  | some node =>
    obtain rfl : c = .saveNode node := by
      cases c with
      | saveNode record => cases hc; rfl
      | _ => cases hc
    exact hF.inv.save hinj hgi hok (hadm.2 _ (Pool.next_eq hi) node rfl)

/-- In every run in which nodes are written back with the token that the stored node still has, a bootstrap token
registers a node at most once. -/
theorem registers_once_of_unchanged (hinj : Function.Injective p.sha256Hex)
    (hms : Pool.Admits (hubHandler p) (hubProgram p) TokenUnchanged (Pool.init World.init) ms) :
      RegistersOnce p ms := by
  obtain ⟨g, hF⟩ := Pool.invariant spawn_keeps_enrolling (call_keeps_enrolling hinj)
    (Pool.fits_init (EnrolInv.init p (Pool.asked ms))) ms (Pool.admits_and _ _ (Pool.admits_asked _ _ _ ms) hms)
  obtain ⟨out, hledger, hused⟩ := hF.inv.used
  -- a registration that has succeeded is in the list of those that have used up their tokens
  have hout : ∀ i hub r, Pool.asked ms i = some (hub, .registerNode r) → (hubRun p ms).result i = some (.ok ()) →
      ∃ k, (i, k) ∈ out ∧ bootstrapText k = r.bootstrapToken := by
    intro i hub r hasked hresult
    obtain ⟨gi, hgi, hw⟩ := hF.follows i _ (Pool.threads_of_result hresult)
    have hr : gi.request.2 = .registerNode r := by
      rw [← Option.some.inj (hasked.symm.trans (hF.inv.request i gi hgi))]
    exact hused i gi hgi r hr ((Prog.wp_ret _).1 hw rfl r hr)
  intro i j hub hub' r r' hi hj _ htoken hri hrj
  obtain ⟨k, hk, ek⟩ := hout i hub r hi hri
  obtain ⟨k', hk', ek'⟩ := hout j hub' r' hj hrj
  obtain rfl : k = k' := bootstrapText_inj (ek.trans (htoken.trans ek'.symm))
  exact congrArg Prod.fst (List.inj_on_of_nodup_map hledger.nodup hk hk' rfl)

end Runs

theorem plain_sha256Hex_injective : Function.Injective Platform.plain.sha256Hex := by
  intro a b h
  have hlist := congrArg String.toList h
  simp only [Platform.plain, String.toList_append] at hlist
  exact String.toList_inj.1 (List.append_cancel_left hlist)

/-- A registration of the first node with its bootstrap token. -/
def registration : Hub × Request :=
  (⟨0, 30⟩, .registerNode {
    nodeCode := "edge-1", bootstrapToken := bootstrapText 1, hostname := "host", publicIp := none, privateIp := none
    agentVersion := "1" })

/-- A node is made, and two registrations are started. -/
def enrolment : List (Move Nat (Hub × Request)) :=
  Move.spawn 0 (⟨0, 30⟩, .node "edge-1") :: List.replicate 4 (Move.go 0) ++ [Move.spawn 1 registration,
    Move.spawn 2 registration]

/-- One registration after the other. -/
def oneByOne : List (Move Nat (Hub × Request)) := enrolment ++ List.replicate 5 (Move.go 1) ++
    List.replicate 2 (Move.go 2)

/-- Both registrations read the node before they write it. -/
def crossing : List (Move Nat (Hub × Request)) :=
  enrolment ++ [Move.go 1, .go 1, .go 2, .go 2] ++ List.replicate 3 (Move.go 1) ++ List.replicate 3 (Move.go 2)

/-- One after the other, the first registration succeeds and the second does not. -/
theorem registers_once_one_by_one : ((hubRun .plain oneByOne).result 1).map (·.isOk) = some true ∧
    ((hubRun .plain oneByOne).result 2).map (·.isOk) = some false ∧ RegistersOnce .plain oneByOne :=
  ⟨by decide +kernel, by decide +kernel, registers_once_of_unchanged plain_sha256Hex_injective (by decide +kernel)⟩

/-- Two registrations that cross both succeed with one token. -/
theorem two_registrations : Function.Injective Platform.plain.sha256Hex ∧ ¬ RegistersOnce .plain crossing := by
  refine ⟨plain_sha256Hex_injective, fun h => ?_⟩
  have hresult : ∀ i, ((hubRun .plain crossing).result i).map (·.isOk) = some true →
      (hubRun .plain crossing).result i = some (.ok ()) := by
    intro i hi
    obtain ⟨r, hr, hok⟩ := Option.map_eq_some_iff.1 hi
    cases r with
    | error e => cases hok
    | ok _ => exact hr
  have e := h 1 2 _ _ _ _ rfl rfl rfl rfl (hresult 1 (by decide +kernel)) (hresult 2 (by decide +kernel))
  exact absurd e (by decide)

end PingoraMesh
