import PingoraMesh.Hub.Alone
import PingoraMesh.Hub.Nodes
import PingoraMesh.Lib.Maps

/-!
# Node tokens in memory

`MemoryTokenStore` keeps the leases of the tokens and the current token of each node, in two pairs of maps.

* `Inverse`: in each pair the maps are inverse to each other, which `Inverse.revoke` and `Inverse.issue` keep;
* `PairInv.call`: every call of a hub keeps this, and the current tokens are those last issued and not revoked;
* `token_store_sound`: so it is after any calls, and the node endpoints let no other tokens through.
-/

namespace PingoraMesh

open Calls Fallible HubService

/-! ## Leases and current tokens -/

/-- A token is leased to a node exactly when it is the current token of the node. -/
def Inverse (leases : HashMap String TokenLease) (current : HashMap Uuid String) : Prop :=
  ∀ (t : String) (n : Uuid), leases[t]?.map (·.nodeId) = some n ↔ current[n]? = some t

/-- The leases without that of the current token of a node. -/
def withoutCurrent (leases : HashMap String TokenLease) (current : HashMap Uuid String) (n : Uuid) :
    HashMap String TokenLease :=
  match current[n]? with
  | some t => leases.erase t
  | none => leases

section Maps

variable {leases : HashMap String TokenLease} {current : HashMap Uuid String} {n : Uuid}

theorem Inverse.empty : Inverse ∅ ∅ := by
  intro t n
  simp

/-- What is left are the leases of other nodes. -/
theorem Inverse.getElem?_withoutCurrent (h : Inverse leases current) (n : Uuid) (t : String) (lease : TokenLease) :
    (withoutCurrent leases current n)[t]? = some lease ↔ leases[t]? = some lease ∧ lease.nodeId ≠ n := by
  have hlease : leases[t]? = some lease → (lease.nodeId = n ↔ current[n]? = some t) := by
    intro ht
    have hiff := h t n
    rw [ht, Option.map_some, Option.some_inj] at hiff
    exact hiff
  unfold withoutCurrent
  cases hc : current[n]? with
  | none =>
    refine ⟨fun ht => ⟨ht, fun e => ?_⟩, fun ht => ht.1⟩
    have hcur := (hlease ht).1 e
    rw [hc] at hcur
    cases hcur
  | some t' =>
    dsimp only
    rw [Std.ExtTreeMap.getElem?_erase]
    by_cases htt : compare t' t = .eq
    · have heq := Std.compare_eq_iff_eq.1 htt
      subst heq
      rw [if_pos htt]
      refine ⟨fun ht => (by cases ht), fun ⟨ht, hne⟩ => ?_⟩
      exact absurd ((hlease ht).2 hc) hne
    · rw [if_neg htt]
      refine ⟨fun ht => ⟨ht, fun e => ?_⟩, fun ht => ht.1⟩
      have hcur := (hlease ht).1 e
      rw [hc] at hcur
      cases hcur
      exact htt Std.ReflCmp.compare_self

/-- Revoking the tokens of a node. -/
theorem Inverse.revoke (h : Inverse leases current) (n : Uuid) :
    Inverse (withoutCurrent leases current n) (current.erase n) := by
  intro t m
  have hleft : (withoutCurrent leases current n)[t]?.map (·.nodeId) = some m ↔
      leases[t]?.map (·.nodeId) = some m ∧ m ≠ n := by
    simp only [Option.map_eq_some_iff, h.getElem?_withoutCurrent n t]
    constructor
    · rintro ⟨lease, ⟨hlease, hne⟩, rfl⟩
      exact ⟨⟨lease, hlease, rfl⟩, hne⟩
    · rintro ⟨⟨lease, hlease, rfl⟩, hne⟩
      exact ⟨lease, ⟨hlease, hne⟩, rfl⟩
  rw [hleft, h t m, Std.ExtTreeMap.getElem?_erase]
  by_cases hnm : compare n m = .eq
  · have heq := Std.compare_eq_iff_eq.1 hnm
    rw [if_pos hnm, heq]
    simp
  · rw [if_neg hnm]
    refine and_iff_left ?_
    rintro rfl
    exact hnm Std.ReflCmp.compare_self

/-- Leasing a new token to a node that has none. -/
theorem Inverse.insert (h : Inverse leases current) {t : String} (hfresh : leases[t]? = none)
    (hnone : current[n]? = none) {lease : TokenLease} (hlease : lease.nodeId = n) :
    Inverse (leases.insert t lease) (current.insert n t) := by
  intro t' m
  rw [Std.ExtTreeMap.getElem?_insert, Std.ExtTreeMap.getElem?_insert]
  by_cases htt : compare t t' = .eq
  · have heq := Std.compare_eq_iff_eq.1 htt
    subst heq
    rw [if_pos htt, Option.map_some, hlease, Option.some_inj]
    by_cases hnm : compare n m = .eq
    · rw [if_pos hnm]
      simp [Std.compare_eq_iff_eq.1 hnm]
    · rw [if_neg hnm, ← h t m, hfresh]
      refine iff_of_false ?_ (by simp)
      rintro rfl
      exact hnm Std.ReflCmp.compare_self
  · rw [if_neg htt, h t' m]
    by_cases hnm : compare n m = .eq
    · have heq := Std.compare_eq_iff_eq.1 hnm
      subst heq
      rw [if_pos hnm, hnone]
      refine iff_of_false (by simp) ?_
      rintro ⟨⟩
      exact htt Std.ReflCmp.compare_self
    · rw [if_neg hnm]

end Maps

/-! ## The calls of a hub -/

/-- The pairs of tokens that were last issued to the nodes and not revoked since. -/
abbrev LivePairs := Uuid → Option IssuedTokens

/-- What a call does to the live pairs. -/
def noteTokens (p : Platform) (c : HubCall) (w : World) (live : LivePairs) : LivePairs :=
  match c with
  | .issueTokens n ttl => Function.update live n (some (issueTokensCall p n ttl w).1)
  | .revokeTokens n => Function.update live n none
  | _ => live

/-- The world and the live pairs after some calls. -/
def World.afterCalls (p : Platform) : List HubCall → World → LivePairs → World × LivePairs
  | [], w, live => (w, live)
  | c :: cs, w, live => World.afterCalls p cs (hubHandler p c w).2 (noteTokens p c w live)

/-- The tokens have been made of identifiers that were drawn. -/
def Drawn (start : String) (next : Nat) (leases : HashMap String TokenLease) : Prop :=
  ∀ (t : String) lease, leases[t]? = some lease → ∃ u < next, t = start ++ Uuid.hyphenated u

/-- The maps of each pair are inverse to each other, the current tokens are the live pairs, and the next tokens are
fresh. -/
structure PairInv (w : World) (live : LivePairs) : Prop where
  access : Inverse w.tokens.access w.tokens.currentAccessByNode
  refresh : Inverse w.tokens.refresh w.tokens.currentRefreshByNode
  liveAccess : ∀ n : Uuid, w.tokens.currentAccessByNode[n]? = (live n).map (·.accessToken)
  liveRefresh : ∀ n : Uuid, w.tokens.currentRefreshByNode[n]? = (live n).map (·.refreshToken)
  drawnAccess : Drawn "node-at-" w.nextUuid w.tokens.access
  drawnRefresh : Drawn "node-rt-" w.nextUuid w.tokens.refresh

section Calls

variable {p : Platform} {w : World} {live : LivePairs} {n : Uuid}

theorem Drawn.mono {start : String} {next next' : Nat} {leases : HashMap String TokenLease}
    (h : Drawn start next leases) (hle : next ≤ next') : Drawn start next' leases := by
  intro t lease ht
  obtain ⟨u, hu, e⟩ := h t lease ht
  exact ⟨u, hu.trans_le hle, e⟩

/-- A token of an identifier that was not drawn is fresh. -/
theorem Drawn.fresh {start : String} {next : Nat} {leases : HashMap String TokenLease} (h : Drawn start next leases)
    {u : Uuid} (hu : next ≤ u) : leases[start ++ Uuid.hyphenated u]? = none := by
  by_contra hne
  obtain ⟨lease, hlease⟩ := Option.ne_none_iff_exists'.1 hne
  obtain ⟨v, hv, e⟩ := h _ lease hlease
  have hlist := congrArg String.toList e
  rw [String.toList_append, String.toList_append] at hlist
  have huv := Uuid.hyphenated_inj (String.toList_inj.1 (List.append_cancel_left hlist))
  rw [huv] at hu
  exact Nat.not_lt.2 hu hv

theorem Drawn.insert {start : String} {next u : Nat} {leases : HashMap String TokenLease}
    (h : Drawn start next leases) (hu : u < next) (lease : TokenLease) :
    Drawn start next (leases.insert (start ++ Uuid.hyphenated u) lease) := by
  intro t l ht
  rcases Maps.getElem?_insert_eq_some ht with ⟨rfl, -⟩ | ⟨-, ht⟩
  · exact ⟨u, hu, rfl⟩
  · exact h t l ht

theorem PairInv.drawnWithout {start : String} {next : Nat} {leases : HashMap String TokenLease}
    {current : HashMap Uuid String} (hinv : Inverse leases current) (h : Drawn start next leases) (n : Uuid) :
    Drawn start next (withoutCurrent leases current n) := fun t lease ht =>
  h t lease ((hinv.getElem?_withoutCurrent n t lease).1 ht).1

theorem getElem?_erase_live {current : HashMap Uuid String} {f : IssuedTokens → String}
    (h : ∀ m : Uuid, current[m]? = (live m).map f) (n m : Uuid) :
    (current.erase n)[m]? = (Function.update live n none m).map f := by
  rw [Std.ExtTreeMap.getElem?_erase, Function.update_apply]
  by_cases hnm : m = n
  · rw [if_pos (Std.compare_eq_iff_eq.2 hnm.symm), if_pos hnm, Option.map_none]
  · rw [if_neg (fun e => hnm (Std.compare_eq_iff_eq.1 e).symm), if_neg hnm, h m]

theorem getElem?_insert_live {current : HashMap Uuid String} {f : IssuedTokens → String} {live' : LivePairs}
    (h : ∀ m : Uuid, current[m]? = (live' m).map f) (n m : Uuid) (t : IssuedTokens) :
    (current.insert n (f t))[m]? = (Function.update live' n (some t) m).map f := by
  rw [Std.ExtTreeMap.getElem?_insert, Function.update_apply]
  by_cases hnm : m = n
  · rw [if_pos (Std.compare_eq_iff_eq.2 hnm.symm), if_pos hnm, Option.map_some]
  · rw [if_neg (fun e => hnm (Std.compare_eq_iff_eq.1 e).symm), if_neg hnm, h m]

theorem PairInv.revoke (h : PairInv w live) (n : Uuid) :
    PairInv { w with tokens := w.tokens.revokeTokens n } (Function.update live n none) where
  access := h.access.revoke n
  refresh := h.refresh.revoke n
  liveAccess := getElem?_erase_live h.liveAccess n
  liveRefresh := getElem?_erase_live h.liveRefresh n
  drawnAccess := PairInv.drawnWithout h.access h.drawnAccess n
  drawnRefresh := PairInv.drawnWithout h.refresh h.drawnRefresh n

/-- Tokens are issued after those of the node are revoked. -/
theorem PairInv.issue (h : PairInv w live) (n : Uuid) (ttl : Int) :
    PairInv (issueTokensCall p n ttl w).2 (Function.update live n (some (issueTokensCall p n ttl w).1)) := by
  have hr := h.revoke n
  have hold : Function.update live n (some (issueTokensCall p n ttl w).1) =
      Function.update (Function.update live n none) n (some (issueTokensCall p n ttl w).1) := by
    rw [Function.update_idem]
  have hnone : ∀ f : IssuedTokens → String, (Function.update live n none n).map f = none := by
    intro f
    rw [Function.update_self]
    rfl
  rw [hold]
  refine ⟨?_, ?_, ?_, ?_, ?_, ?_⟩
  · exact hr.access.insert (hr.drawnAccess.fresh le_rfl) ((hr.liveAccess n).trans (hnone _)) rfl
  · exact hr.refresh.insert (hr.drawnRefresh.fresh (Nat.le_succ _)) ((hr.liveRefresh n).trans (hnone _)) rfl
  · exact fun m => getElem?_insert_live hr.liveAccess n m _
  · exact fun m => getElem?_insert_live hr.liveRefresh n m _
  · exact (hr.drawnAccess.mono (Nat.le_add_right _ 2)).insert (Nat.lt_add_of_pos_right (by decide)) _
  · exact (hr.drawnRefresh.mono (Nat.le_add_right _ 2)).insert (Nat.lt_succ_self _) _

/-- A call that leaves the tokens. -/
theorem PairInv.frame {w' : World} (h : PairInv w live) (ht : w'.tokens = w.tokens) (hu : w.nextUuid ≤ w'.nextUuid) :
    PairInv w' live where
  access := by rw [ht]; exact h.access
  refresh := by rw [ht]; exact h.refresh
  liveAccess := by rw [ht]; exact h.liveAccess
  liveRefresh := by rw [ht]; exact h.liveRefresh
  drawnAccess := by rw [ht]; exact h.drawnAccess.mono hu
  drawnRefresh := by rw [ht]; exact h.drawnRefresh.mono hu

/-- **One call** keeps the maps inverse and the live pairs current. -/
theorem PairInv.call (h : PairInv w live) (c : HubCall) : PairInv (hubHandler p c w).2 (noteTokens p c w live) := by
  cases c with
  | issueTokens n ttl => exact h.issue n ttl
  | revokeTokens n => exact h.revoke n
  | newUuid => exact h.frame rfl (Nat.le_succ _)
  | _ => exact h.frame rfl le_rfl

theorem PairInv.afterCalls (h : PairInv w live) (cs : List HubCall) :
    PairInv (World.afterCalls p cs w live).1 (World.afterCalls p cs w live).2 := by
  induction cs generalizing w live with
  | nil => exact h
  | cons c cs ih => exact ih (h.call c)

/-- The call issues or revokes the tokens of a node. -/
def HubCall.TokensOf (n : Uuid) : HubCall → Prop
  | .issueTokens m _ => m = n
  | .revokeTokens m => m = n
  | _ => False

/-- Leases of other nodes stay, and no others come, when the tokens of a node are issued or revoked. -/
theorem PairInv.others (h : PairInv w live) {c : HubCall} (hc : c.TokensOf n) (t : String) {lease : TokenLease}
    (hne : lease.nodeId ≠ n) :
    ((hubHandler p c w).2.tokens.access[t]? = some lease ↔ w.tokens.access[t]? = some lease) ∧
      ((hubHandler p c w).2.tokens.refresh[t]? = some lease ↔ w.tokens.refresh[t]? = some lease) := by
  have hrevoked : ((w.tokens.revokeTokens n).access[t]? = some lease ↔ w.tokens.access[t]? = some lease) ∧
      ((w.tokens.revokeTokens n).refresh[t]? = some lease ↔ w.tokens.refresh[t]? = some lease) :=
    ⟨(h.access.getElem?_withoutCurrent n t lease).trans (and_iff_left hne),
      (h.refresh.getElem?_withoutCurrent n t lease).trans (and_iff_left hne)⟩
  have hinsert : ∀ {leases : HashMap String TokenLease} {start : String} {u : Uuid} {new : TokenLease},
      Drawn start w.nextUuid leases → w.nextUuid ≤ u → new.nodeId = n →
      ((leases.insert (start ++ Uuid.hyphenated u) new)[t]? = some lease ↔ leases[t]? = some lease) := by
    intro leases start u new hd hu hnew
    rw [Std.ExtTreeMap.getElem?_insert]
    by_cases htt : compare (start ++ Uuid.hyphenated u) t = .eq
    · rw [if_pos htt, ← Std.compare_eq_iff_eq.1 htt, hd.fresh hu]
      refine iff_of_false ?_ (by simp)
      rintro ⟨⟩
      exact hne hnew
    · rw [if_neg htt]
  have hr := h.revoke n
  cases c with
  | issueTokens m ttl =>
    obtain rfl : m = n := hc
    exact ⟨(hinsert hr.drawnAccess le_rfl rfl).trans hrevoked.1,
      (hinsert hr.drawnRefresh (Nat.le_succ _) rfl).trans hrevoked.2⟩
  | revokeTokens m =>
    obtain rfl : m = n := hc
    exact hrevoked
  | _ => exact hc.elim

/-- What lets a node through has leased its token to it. -/
theorem authorizeNode_lease (t : String) : wp (aloneSpec p) (authorizeNode n t)
    (fun _ _ => w.tokens.access[t]?.map (·.nodeId) = some n) (fun _ _ => True) w := by
  simp only [authorizeNode, repo, wp_bind, wp_okOr, wp_ensure, wp_call_alone, hubHandler, World.read, implies_true,
    and_true, forall_const, true_and]
  intro lease hlease hnode _ _
  rw [hlease, Option.map_some, beq_iff_eq.1 hnode]

theorem refreshNodeToken_lease (request : NodeRefreshRequest) : wp (aloneSpec p) (refreshNodeToken request)
    (fun _ _ => w.tokens.refresh[request.refreshToken]?.map (·.nodeId) = some request.nodeId) (fun _ _ => True)
    w := by
  simp only [refreshNodeToken, issueNodeTokens, repo, wp_bind, wp_okOr, wp_ensure, wp_call_alone, wp_pure, hubHandler,
    implies_true, and_true, forall_const, true_and]
  intro lease hlease hnode
  rw [hlease, Option.map_some, beq_iff_eq.1 hnode]

end Calls

/-- The world with no tokens. -/
def World.tokenless (w : World) : World := { w with tokens := ⟨∅, ∅, ∅, ∅⟩ }

theorem PairInv.tokenless (w : World) : PairInv w.tokenless fun _ => none where
  access := .empty
  refresh := .empty
  liveAccess n := by simp [World.tokenless]
  liveRefresh n := by simp [World.tokenless]
  drawnAccess t lease h := by simp [World.tokenless] at h
  drawnRefresh t lease h := by simp [World.tokenless] at h

/-- **The token store**: after any calls of a hub, which issue and revoke tokens among other things, the maps of each
pair are inverse to each other; a node is let through only with the access token, and refreshed only with the refresh
token, that was last issued to it and not revoked since; and no call for one node changes what the tokens of another
resolve to. -/
theorem token_store_sound (p : Platform) (w₀ : World) (calls : List HubCall) (w : World) (live : LivePairs)
    (hrun : World.afterCalls p calls w₀.tokenless (fun _ => none) = (w, live)) :
    Inverse w.tokens.access w.tokens.currentAccessByNode ∧
      Inverse w.tokens.refresh w.tokens.currentRefreshByNode ∧
      (∀ n t, (Fallible.run (hubHandler p) (authorizeNode n t) w).1.isOk = true →
        (live n).map (·.accessToken) = some t) ∧
      (∀ request, (Fallible.run (hubHandler p) (refreshNodeToken request) w).1.isOk = true →
        (live request.nodeId).map (·.refreshToken) = some request.refreshToken) ∧
      ∀ (c : HubCall) n, c.TokensOf n → ∀ (t : String) (lease : TokenLease), lease.nodeId ≠ n →
        ((hubHandler p c w).2.tokens.access[t]? = some lease ↔ w.tokens.access[t]? = some lease) ∧
        ((hubHandler p c w).2.tokens.refresh[t]? = some lease ↔ w.tokens.refresh[t]? = some lease) := by
  have h : PairInv w live := by
    have hinv := (PairInv.tokenless w₀).afterCalls (p := p) calls
    rw [hrun] at hinv
    exact hinv
  refine ⟨h.access, h.refresh, ?_, ?_, ?_⟩
  · intro n t hok
    rw [← h.liveAccess n]
    exact (h.access t n).1 (of_run_isOk (authorizeNode_lease t) hok)
  · intro request hok
    rw [← h.liveRefresh request.nodeId]
    exact (h.refresh _ _).1 (of_run_isOk (refreshNodeToken_lease request) hok)
  · intro c n hc t lease hne
    exact h.others hc t hne

/-- A hub with one node. -/
def oneNode : World := World.init.serve .plain ⟨0, 30⟩ (.node "edge-1")

/-- Tokens are issued to the node twice, and to another node in between. -/
def issuedTwice : List HubCall := [.issueTokens 0 1000, .issueTokens 5 1000, .issueTokens 0 10000000000000]

/-- The token that lets the node through is the one that was issued last. -/
theorem token_store_sound_issued :
    (Fallible.run (hubHandler .plain) (authorizeNode 0 ("node-at-" ++ Uuid.hyphenated 6))
        (World.afterCalls .plain issuedTwice oneNode.tokenless fun _ => none).1).1.isOk = true ∧
      ((World.afterCalls .plain issuedTwice oneNode.tokenless fun _ => none).2 0).map (·.accessToken) =
        some ("node-at-" ++ Uuid.hyphenated 6) := by
  have hok : (Fallible.run (hubHandler .plain) (authorizeNode 0 ("node-at-" ++ Uuid.hyphenated 6))
      (World.afterCalls .plain issuedTwice oneNode.tokenless fun _ => none).1).1.isOk = true := by decide +kernel
  have hsound := token_store_sound .plain oneNode issuedTwice _ _ rfl
  exact ⟨hok, hsound.2.2.1 0 _ hok⟩

end PingoraMesh
