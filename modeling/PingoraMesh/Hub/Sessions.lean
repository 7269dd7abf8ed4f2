import PingoraMesh.Hub.Effects
import PingoraMesh.Hub.Methods
import PingoraMesh.Hub.Registration

/-!
# Signing out

The tokens of sessions are made of identifiers drawn by the sign-in, and the store keeps their hashes.

* `OwnSession`: a request stores a session only under the token that it has made, and only once;
* `NoCollision`: the digests tell the session tokens of a run apart;
* `SessionTrace` is the invariant of a run: stored sessions have different tokens (`apart`), and a session that has been
  deleted is not found again unless it is stored again (`gone`);
* `signed_out_for_good`: after signing out, no request with the cookie is answered without an error below `/api/admin/`.
-/

namespace PingoraMesh.HubApi

open Calls Fallible HubService

/-! ## Tokens -/

theorem length_hexDigits {u : Uuid} (h : u < 16 ^ 32) : (Uuid.hexDigits u).length = 32 := by
  have hdigits : (Nat.toDigits 16 u).length ≤ 32 := Nat.toDigits_length 16 u 32 (by decide) h
  simp only [Uuid.hexDigits, List.length_append, List.length_replicate]
  omega

theorem hexDigits_inj {u v : Uuid} (h : Uuid.hexDigits u = Uuid.hexDigits v) : u = v := by
  rw [← Uuid.simple_value u, h, Uuid.simple_value v]

theorem sessionToken_toList (a b : Uuid) :
    (sessionToken a b).toList = ['a', 'd', 'm', '_'] ++ Uuid.hexDigits a ++ Uuid.hexDigits b := by
  simp [sessionToken, Uuid.simple]

/-- The first identifier of a token. -/
theorem sessionToken_inj {a b a' b' : Uuid} (ha : a < 16 ^ 32) (ha' : a' < 16 ^ 32)
    (h : sessionToken a b = sessionToken a' b') : a = a' := by
  have hlist := congrArg String.toList h
  rw [sessionToken_toList, sessionToken_toList, List.append_assoc, List.append_assoc] at hlist
  have hdigits := List.append_cancel_left hlist
  exact hexDigits_inj (List.append_inj_left hdigits ((length_hexDigits ha).trans (length_hexDigits ha').symm))

theorem isEmpty_trim_sessionToken (a b : Uuid) : Text.isEmpty (Text.trim (sessionToken a b)) = false := by
  refine Text.Visible.isEmpty_trim ⟨'a', ?_, by decide⟩
  rw [sessionToken_toList]
  exact List.mem_cons_self

/-! ## Programs -/

/-- The identifier that a call has drawn. -/
def drawnUuid : Made hubSig → Option Uuid
  | ⟨.newUuid, k⟩ => some k
  | _ => none

/-- The identifiers that a program has drawn, in order. -/
def drawnUuids (l : List (Made hubSig)) : List Uuid := l.filterMap drawnUuid

theorem mem_of_drawnUuids {l : List (Made hubSig)} {k : Uuid} (h : k ∈ drawnUuids l) : ⟨.newUuid, k⟩ ∈ l := by
  obtain ⟨⟨c, a⟩, hm, hk⟩ := List.mem_filterMap.1 h
  cases c with
  | newUuid =>
    cases hk
    exact hm
  | _ => cases hk

/-- The call stores a session. -/
def SavesSession (c : HubCall) : Prop := ∃ s, c = .saveAdminSession s

/-- The request signs in and has shown the password of the user. -/
def SignsIn (p : Platform) (q : Front × HttpRequest) (l : List (Made hubSig)) (userId : Uuid) : Prop :=
  ∃ (r : AdminLoginRequest) (headers : HeaderMap), q.1.visit q.2 = .ok ⟨.adminLogin, r, headers⟩ ∧
    ShowsPassword p l r userId

/-- A session is stored once, by a request that signs in, under the hash of the token that it has made of the first two
identifiers that it has drawn. -/
def OwnSession (p : Platform) (q : Front × HttpRequest) (l : List (Made hubSig)) : HubCall → Prop
  | .saveAdminSession s =>
    (∃ a b : Uuid, [a, b] <+: drawnUuids l ∧ s.sessionTokenHash = hashToken p (sessionToken a b)) ∧
      Unmade SavesSession l ∧ SignsIn p q l s.userId
  | _ => True

/-- The specification of `OwnSession`. -/
abbrev sessionSpec (p : Platform) : Spec hubSig ((Front × HttpRequest) × List (Made hubSig)) :=
  .remembering (OwnSession p)

/-- Who signs out deletes the session of the cookie. -/
def SignsOut (p : Platform) (r : Except HttpError (Reply Unit))
    (g : (Front × HttpRequest) × List (Made hubSig)) : Prop :=
  ∀ reply v token, r = .ok reply → g.1.1.visit g.1.2 = .ok v → v.handler = .adminLogout →
    extractCookieValue v.headers adminSessionCookie = some token → Text.isEmpty (Text.trim token) = false →
    ⟨.deleteAdminSession (hashToken p token), ()⟩ ∈ g.2

section Programs

variable {p : Platform} {q : Front × HttpRequest} {l : List (Made hubSig)} {headers : HeaderMap}

theorem session_of_effect {c : HubCall} (h : c.effect ≠ some .admin) : OwnSession p q l c := by
  cases c with
  | saveAdminSession s => exact absurd rfl h
  | _ => trivial

theorem session_of_writes {es : List Effect} {c : HubCall} (h : Writes p headers es c) (hes : .admin ∉ es) :
    OwnSession p q l c := by
  obtain hwithin | ⟨token, seen, -, rfl⟩ := h
  · refine session_of_effect fun heffect => ?_
    rw [HubCall.Within, heffect] at hwithin
    exact hes hwithin
  · trivial

theorem adminLogin_session {r : AdminLoginRequest} (hv : q.1.visit q.2 = .ok ⟨.adminLogin, r, headers⟩) :
    wp (sessionSpec p) (HubApi.adminLogin p r) (fun _ _ => True) (fun _ _ => True) (q, []) := by
  simp only [HubApi.adminLogin, loginAdmin, repo, wp_bind, wp_okOr, wp_ensure, wp_attempt, wp_call_protocol, wp_pure,
    implies_true, and_true]
  refine fun username hname _ => ⟨trivial, fun found user hfound hactive _ hverify => ⟨trivial,
    fun a => ⟨trivial, fun b =>
    ⟨trivial, fun sessionId => ⟨trivial, fun expires => ⟨trivial, fun created => ⟨trivial, fun seen =>
      ⟨⟨⟨a, b, ⟨[sessionId], rfl⟩, rfl⟩, ?_, ?_⟩, fun _ => ⟨trivial, fun _ => ⟨trivial, fun _ => trivial⟩⟩⟩⟩⟩⟩⟩⟩⟩⟩
  · refine ((((((Unmade.nil.concat ?_ _).concat ?_ _).concat ?_ _).concat ?_ _).concat ?_ _).concat ?_ _).concat ?_ _
    all_goals
      rintro ⟨s, hs⟩
      cases hs
  · refine ⟨r, headers, hv, username, user, hname, ?_, beq_iff_eq.1 hactive, hverify, rfl⟩
    simp [hfound]

theorem changeAdminPassword_session {r : ChangeAdminPasswordRequest} :
    wp (sessionSpec p) (HubApi.changeAdminPassword p headers r) (fun _ _ => True) (fun _ _ => True) (q, l) := by
  simp only [HubApi.changeAdminPassword, HubService.changeAdminPassword, authorizeAdminSession,
    hashPassword, repo, wp_bind, wp_okOr, wp_ensure, wp_attempt, wp_call_protocol, wp_pure, implies_true, and_true]
  refine fun token _ _ => ⟨trivial,
    fun found context _ _ => ⟨trivial, fun now _ => ⟨trivial, fun seen => ⟨trivial, fun _ _ _ _ =>
    ⟨trivial, fun found' user _ _ _ _ _ => ⟨trivial, fun salted hash _ => ⟨trivial, fun _ => trivial⟩⟩⟩⟩⟩⟩⟩

theorem adminLogout_session : wp (sessionSpec p) (HubApi.adminLogout p headers)
    (fun _ g => ∀ token, extractCookieValue headers adminSessionCookie = some token →
      Text.isEmpty (Text.trim token) = false → ⟨.deleteAdminSession (hashToken p token), ()⟩ ∈ g.2) (fun _ _ => True)
    (q, l) := by
  simp only [HubApi.adminLogout, logoutAdmin, repo, wp_bind, wp_forSome, wp_discard, wp_onlyIf, wp_attempt,
    wp_call_protocol, wp_pure, implies_true, and_true]
  constructor
  · intro token hcookie
    constructor
    · refine fun _ => ⟨trivial, fun _ cookie _ token' hcookie' _ => ?_⟩
      obtain rfl : token = token' := Option.some.inj (hcookie.symm.trans hcookie')
      simp
    · intro hblank cookie _ token' hcookie' hvisible
      obtain rfl : token = token' := Option.some.inj (hcookie.symm.trans hcookie')
      rw [hvisible] at hblank
      cases hblank
  · intro hnone cookie _ token hcookie _
    rw [hnone] at hcookie
    cases hcookie

theorem admin_effects {h : Endpoint} (hh : .admin ∈ h.effects) :
    h = .adminLogin ∨ h = .changeAdminPassword ∨ h = .adminLogout := by
  revert hh
  cases h <;> decide

theorem run_session {v : Visit} (hv : q.1.visit q.2 = .ok v) : wp (sessionSpec p) (v.handler.run p q.1 v.headers v.args)
    (fun _ g => ∀ token, v.handler = .adminLogout → extractCookieValue v.headers adminSessionCookie = some token →
      Text.isEmpty (Text.trim token) = false → ⟨.deleteAdminSession (hashToken p token), ()⟩ ∈ g.2) (fun _ _ => True)
    (q, []) := by
  by_cases heffects : .admin ∈ v.handler.effects
  · obtain ⟨handler, args, headers⟩ := v
    rcases admin_effects heffects with rfl | rfl | rfl
    · exact wp_mono (fun _ _ _ _ h => by cases h) (fun _ _ h => h) (adminLogin_session hv)
    · exact wp_mono (fun _ _ _ _ h => by cases h) (fun _ _ h => h) changeAdminPassword_session
    · exact wp_mono (fun _ _ h token _ => h token) (fun _ _ h => h) adminLogout_session
  · refine wp_mono (fun _ _ _ token h => ?_) (fun _ _ h => h) ((run_only p q.1 v).wp (I := fun _ => True)
      (fun c g hc _ => session_of_writes (q := g.1) hc heffects) (fun _ _ _ _ _ _ _ => trivial) trivial)
    rw [h] at heffects
    exact absurd (by decide) heffects

theorem frontProgram_session (q : Front × HttpRequest) :
    Prog.wp (sessionSpec p) (frontProgram p q) (SignsOut p) (q, []) := by
  suffices hw : wp (sessionSpec p) (q.1.program p q.2) (fun _ g => ∀ v token, q.1.visit q.2 = .ok v →
      v.handler = .adminLogout → extractCookieValue v.headers adminSessionCookie = some token →
      Text.isEmpty (Text.trim token) = false → ⟨.deleteAdminSession (hashToken p token), ()⟩ ∈ g.2) (fun _ _ => True)
      (q, []) by
    refine Prog.wp_mono ?_ (Prog.wp_remembering (wp_iff_run.1 hw))
    rintro r g ⟨hr, hg⟩ reply v token rfl
    rw [hg]
    exact hr v token
  rw [Front.program]
  split
  · exact (wp_throw _).2 trivial
  · rename_i v hv
    rw [wp_mapError, Visit.program, wp_map]
    refine wp_mono (fun _ g hg v' token hv' => ?_) (fun _ _ h => h) (run_session hv)
    obtain rfl : v = v' := Except.ok.inj (hv.symm.trans hv')
    exact hg token

end Programs

/-! ## Runs -/

section Runs

variable {ι : Type} {p : Platform} {w₀ w : World} {tr : List (Event hubSig ι)}

/-- What stands under a hash after a call was stored by it, or stood there before. -/
theorem adminSessions_stored {c : HubCall} {hash : String} {s : AdminSessionRecord}
    (hs : (hubHandler p c w).2.store.adminSessions[hash]? = some s) :
    (c = .saveAdminSession s ∧ s.sessionTokenHash = hash) ∨ ∃ old, w.store.adminSessions[hash]? = some old ∧
      s.sessionTokenHash = old.sessionTokenHash ∧ s.userId = old.userId := by
  have hkept : w.store.adminSessions[hash]? = some s → (c = .saveAdminSession s ∧ s.sessionTokenHash = hash) ∨
      ∃ old, w.store.adminSessions[hash]? = some old ∧ s.sessionTokenHash = old.sessionTokenHash ∧
        s.userId = old.userId :=
    fun h => .inr ⟨s, h, rfl, rfl⟩
  cases c with
  | saveAdminSession new =>
    rcases Maps.getElem?_insert_eq_some hs with ⟨rfl, rfl⟩ | ⟨-, hs⟩
    · exact .inl ⟨rfl, rfl⟩
    · exact hkept hs
  | touchAdminSession hash' seen =>
    rcases Maps.getElem?_modify_eq_some hs with ⟨rfl, old, hold, rfl⟩ | ⟨-, hs⟩
    · exact .inr ⟨old, hold, rfl, rfl⟩
    · exact hkept hs
  | deleteAdminSession hash' => exact hkept (Maps.getElem?_erase_eq_some hs).2
  | deleteAdminSessionsForUser userId exclude => exact hkept (Maps.getElem?_filter_eq_some hs).1
  | deleteNode nodeId =>
    simp only [hubHandler, World.write, MemoryState.deleteNode] at hs
    split at hs <;> exact hkept hs
  | deleteSite siteId =>
    simp only [hubHandler, World.write, MemoryState.deleteSite] at hs
    split at hs <;> exact hkept hs
  | deleteDnsProvider providerId =>
    simp only [hubHandler, World.write, MemoryState.deleteDnsProvider] at hs
    split at hs <;> exact hkept hs
  | deleteOperationTemplate templateId =>
    simp only [hubHandler, World.write, MemoryState.deleteOperationTemplate] at hs
    split at hs <;> exact hkept hs
  | claimNextNodeOperation nodeId =>
    simp only [hubHandler, MemoryState.claimNextNodeOperation] at hs
    split at hs <;> exact hkept hs
  | _ => exact hkept hs

theorem adminSessions_none {c : HubCall} {hash : String} (h : w.store.adminSessions[hash]? = none)
    (hc : ∀ s, c = .saveAdminSession s → s.sessionTokenHash ≠ hash) :
    (hubHandler p c w).2.store.adminSessions[hash]? = none := by
  rw [Option.eq_none_iff_forall_ne_some]
  intro s hs
  rcases adminSessions_stored hs with ⟨hcall, hhash⟩ | ⟨old, hold, -⟩
  · exact hc s hcall hhash
  · rw [h] at hold
    cases hold

theorem adminSessionByTokenHash_none {s : MemoryState} {hash : String} (h : s.adminSessions[hash]? = none) :
    s.adminSessionByTokenHash hash = none := by
  rw [MemoryState.adminSessionByTokenHash, h]
  rfl

variable [DecidableEq ι]

/-- What a program has drawn first stays so. -/
theorem drawnUuids_own_append {tr : List (Event hubSig ι)} {i : ι} {ks : List Uuid}
    (h : ks <+: drawnUuids (Pool.own tr i)) (tr' : List (Event hubSig ι)) :
    ks <+: drawnUuids (Pool.own (tr ++ tr') i) := by
  rw [Pool.own_append, drawnUuids, List.filterMap_append]
  exact h.trans (List.prefix_append _ _)

/-- Each program stores one session, under a token of the own; a deleted session stays away until it is stored again. -/
structure SessionTrace (p : Platform) (w₀ w : World) (tr : List (Event hubSig ι)) : Prop where
  draws : Draws w₀ w tr
  saved : ∀ i s, ⟨i, .saveAdminSession s, ()⟩ ∈ tr →
    ∃ a b, [a, b] <+: drawnUuids (Pool.own tr i) ∧ s.sessionTokenHash = hashToken p (sessionToken a b)
  apart : tr.Pairwise fun e e' => SavesSession e.call → SavesSession e'.call → e.thread ≠ e'.thread
  gone : ∀ hash before j (after : List (Event hubSig ι)), tr = before ++ ⟨j, .deleteAdminSession hash, ()⟩ :: after →
    (∀ e ∈ after, ∀ s, e.call = .saveAdminSession s → s.sessionTokenHash ≠ hash) →
    w.store.adminSessions[hash]? = none ∧ ∀ i found, ⟨i, .adminSessionByTokenHash hash, found⟩ ∈ after → found = none

theorem SessionTrace.init : SessionTrace p w₀ w₀ ([] : List (Event hubSig ι)) where
  draws := .init
  saved _ _ h := absurd h List.not_mem_nil
  apart := List.Pairwise.nil
  gone _ _ _ _ h := by simp at h

theorem SessionTrace.step (h : SessionTrace p w₀ w tr) {q : Front × HttpRequest} {i : ι} {c : HubCall}
    (hc : OwnSession p q (Pool.own tr i) c) :
    SessionTrace p w₀ (hubHandler p c w).2 (tr ++ [⟨i, c, (hubHandler p c w).1⟩]) where
  draws := h.draws.step
  saved j s hs := by
    rcases Pool.mem_concat hs with hold | ⟨rfl, rfl, -⟩
    · obtain ⟨a, b, hdrawn, hhash⟩ := h.saved j s hold
      exact ⟨a, b, drawnUuids_own_append hdrawn _, hhash⟩
    · obtain ⟨⟨a, b, hdrawn, hhash⟩, -, -⟩ := hc
      exact ⟨a, b, drawnUuids_own_append hdrawn _, hhash⟩
  apart := by
    refine List.pairwise_append.2 ⟨h.apart, List.pairwise_singleton _ _, ?_⟩
    rintro ⟨j, c', a⟩ he _ hlast ⟨s, rfl⟩ ⟨s', hs'⟩ rfl
    cases List.mem_singleton.1 hlast
    dsimp only at hs'
    subst hs'
    exact hc.2.1 _ (Pool.mem_own.2 he) ⟨s, rfl⟩
  gone hash before j after htr hafter := by
    rcases List.eq_nil_or_concat after with rfl | ⟨after', last, rfl⟩
    · -- the session is deleted by this call
      obtain ⟨-, hlast⟩ := List.append_inj' htr rfl
      cases hlast
      refine ⟨?_, fun _ _ hfound => absurd hfound List.not_mem_nil⟩
      simp [hubHandler, World.write, MemoryState.deleteAdminSession]
    · rw [List.concat_eq_append] at htr hafter ⊢
      rw [← List.cons_append, ← List.append_assoc] at htr
      obtain ⟨hold, hlast⟩ := List.append_inj' htr rfl
      obtain rfl := List.singleton_inj.1 hlast
      obtain ⟨hnone, hfound⟩ := h.gone hash before j after' hold fun e he => hafter e (List.mem_append_left _ he)
      refine ⟨adminSessions_none hnone fun s hs => ?_, fun k found hk => ?_⟩
      · exact hafter _ (List.mem_append_right _ (List.mem_singleton.2 rfl)) s hs
      · rcases Pool.mem_concat hk with hk | ⟨-, -, rfl⟩
        · exact hfound k found hk
        · exact adminSessionByTokenHash_none hnone

/-- The invariant holds at the end of every run. -/
theorem sessionTrace_exec (w₀ : World) (ms : List (Move ι (Front × HttpRequest))) :
    SessionTrace p w₀ (Pool.exec (hubHandler p) (frontProgram p) (Pool.init w₀) ms).state
      (Pool.exec (hubHandler p) (frontProgram p) (Pool.init w₀) ms).trace := by
  refine Pool.exec_invariant (I := fun P => SessionTrace p w₀ P.state P.trace) (fun P m hP hm => ?_) .init
    (Pool.admits_remembered (frontProgram_session (p := p)) w₀ ms)
  rcases Pool.move_cases (hubHandler p) (frontProgram p) P m with ⟨hstate, htrace⟩ | ⟨i, c, rfl, hc, hstate, htrace⟩
  · rw [hstate, htrace]
    exact hP
  · obtain ⟨q, -, hown⟩ := hm i rfl c hc
    rw [hstate, htrace]
    exact hP.step hown

/-- A session token of a run: a request presents it as its cookie, or a request that stores a session makes it. -/
inductive HashedToken (ms : List (Move ι (Front × HttpRequest))) (tr : List (Event hubSig ι)) : String → Prop
  | presented {i : ι} {x : Front} {r : HttpRequest} {token : String} (asked : Pool.asked ms i = some (x, r))
      (cookie : extractCookieValue r.headers adminSessionCookie = some token) : HashedToken ms tr token
  | made {i : ι} {s : AdminSessionRecord} {a b : Uuid} (saved : ⟨i, .saveAdminSession s, ()⟩ ∈ tr)
      (drawn : [a, b] <+: drawnUuids (Pool.own tr i)) : HashedToken ms tr (sessionToken a b)

/-- No two session tokens of the run have the same digest. -/
def NoCollision (p : Platform) (ms : List (Move ι (Front × HttpRequest))) (tr : List (Event hubSig ι)) : Prop :=
  ∀ s t, HashedToken ms tr s → HashedToken ms tr t → p.sha256Hex s = p.sha256Hex t → s = t

/-- Different sessions are stored under different hashes. -/
theorem SessionTrace.hashes_apart (h : SessionTrace p w₀ w tr) {ms : List (Move ι (Front × HttpRequest))}
    (hno : NoCollision p ms tr) (hfew : w.nextUuid ≤ 16 ^ 32) {before after : List (Event hubSig ι)}
    (htr : tr = before ++ after) {i j : ι} {s s' : AdminSessionRecord} (hs : ⟨i, .saveAdminSession s, ()⟩ ∈ before)
    (hs' : ⟨j, .saveAdminSession s', ()⟩ ∈ after) : s.sessionTokenHash ≠ s'.sessionTokenHash := by
  intro heq
  have hsaved : ⟨i, .saveAdminSession s, ()⟩ ∈ tr := by rw [htr]; exact List.mem_append_left _ hs
  have hsaved' : ⟨j, .saveAdminSession s', ()⟩ ∈ tr := by rw [htr]; exact List.mem_append_right _ hs'
  obtain ⟨a, b, hdrawn, hhash⟩ := h.saved i s hsaved
  obtain ⟨a', b', hdrawn', hhash'⟩ := h.saved j s' hsaved'
  have htoken : sessionToken a b = sessionToken a' b' :=
    hno _ _ (.made hsaved hdrawn) (.made hsaved' hdrawn') (hhash.symm.trans (heq.trans hhash'))
  have ha : ⟨i, .newUuid, a⟩ ∈ tr := Pool.mem_own.1 (mem_of_drawnUuids (hdrawn.subset List.mem_cons_self))
  have ha' : ⟨j, .newUuid, a'⟩ ∈ tr := Pool.mem_own.1 (mem_of_drawnUuids (hdrawn'.subset List.mem_cons_self))
  have hfirst : a = a' := sessionToken_inj ((h.draws.drawn i a ha).2.trans_le hfew)
    ((h.draws.drawn j a' ha').2.trans_le hfew) htoken
  rw [← hfirst] at ha'
  obtain rfl := h.draws.once i j a ha ha'
  have hapart := h.apart
  rw [htr] at hapart
  exact (List.pairwise_append.1 hapart).2.2 _ hs _ hs' ⟨s, rfl⟩ ⟨s', rfl⟩ rfl

/-- A session was stored for the token, then a request with the cookie signed out and was answered, before `i`
started. -/
structure SignedOut (p : Platform) (w₀ : World) (before during : List (Move ι (Front × HttpRequest))) (token : String)
    (i : ι) : Prop where
  stored : ∃ k s, ⟨k, .saveAdminSession s, ()⟩ ∈ (Pool.exec (hubHandler p) (frontProgram p)
    (Pool.init w₀) before).trace ∧ s.sessionTokenHash = hashToken p token
  leaves : ∃ j x r reply, Pool.asked (before ++ during) j = some (x, r) ∧ r.method = .post ∧
    r.path = "/api/admin/auth/logout" ∧ extractCookieValue r.headers adminSessionCookie = some token ∧
    (Pool.exec (hubHandler p) (frontProgram p) (Pool.init w₀) before).threads j = none ∧
    (Pool.exec (hubHandler p) (frontProgram p) (Pool.init w₀) (before ++ during)).result j = some (.ok reply)
  starts : (Pool.exec (hubHandler p) (frontProgram p) (Pool.init w₀) (before ++ during)).threads i = none

/-- Who signs out and is answered has deleted the session. -/
theorem SignedOut.deleted {w₀ : World} {before during : List (Move ι (Front × HttpRequest))} {token : String} {i : ι}
    (h : SignedOut p w₀ before during token i) (hvisible : Text.isEmpty (Text.trim token) = false) :
    ∃ k s j mid rest, ⟨k, .saveAdminSession s, ()⟩ ∈ mid ∧ s.sessionTokenHash = hashToken p token ∧
      (Pool.exec (hubHandler p) (frontProgram p) (Pool.init w₀) (before ++ during)).trace =
        mid ++ ⟨j, .deleteAdminSession (hashToken p token), ()⟩ :: rest := by
  obtain ⟨k, s, hsaved, hhash⟩ := h.stored
  obtain ⟨j, x, r, reply, hj, hmethod, hpath, hcookie, hlater, hdone⟩ := h.leaves
  have hdelete : ⟨.deleteAdminSession (hashToken p token), ()⟩ ∈
      Pool.own (Pool.exec (hubHandler p) (frontProgram p) (Pool.init w₀) (before ++ during)).trace j := by
    obtain ⟨q, hq, hsignsOut⟩ := Pool.result_remembered frontProgram_session w₀ _ hdone
    obtain rfl : q = (x, r) := Option.some.inj (hq.symm.trans hj)
    obtain ⟨v, hv, -⟩ := answered_shows p w₀ _ hj hdone
    obtain ⟨hheaders, params, hroute⟩ := route_of_visit hv
    have hlogout := route_logout
    rw [hmethod, hpath] at hroute
    rw [hroute] at hlogout
    exact hsignsOut reply v token rfl hv (Except.ok.inj hlogout) (by rw [hheaders]; exact hcookie) hvisible
  have hprefix := Pool.trace_prefix (hubHandler p) (frontProgram p)
    (Pool.exec (hubHandler p) (frontProgram p) (Pool.init w₀) before) during
  rw [← Pool.exec_append] at hprefix
  obtain ⟨more, hmore⟩ := hprefix
  rw [← hmore] at hdelete ⊢
  have hunborn := Pool.own_of_unborn (P := Pool.init w₀) (fun _ _ => rfl) before hlater
  rcases List.mem_append.1 (Pool.mem_own.1 hdelete) with hearly | hdelete
  · rw [← Pool.mem_own, hunborn] at hearly
    cases hearly
  · obtain ⟨mid, rest, hsplit⟩ := List.append_of_mem hdelete
    exact ⟨k, s, j, _ ++ mid, rest, List.mem_append_left _ hsaved, hhash, by rw [hsplit, List.append_assoc]⟩

/-- The token that a session was stored for, presented by a request of the run, is the one that its sign-in has made. -/
theorem NoCollision.token_eq {w₀ : World} {before after : List (Move ι (Front × HttpRequest))}
    (hno : NoCollision p (before ++ after)
      (Pool.exec (hubHandler p) (frontProgram p) (Pool.init w₀) (before ++ after)).trace)
    {token : String} (htoken : HashedToken (before ++ after)
      (Pool.exec (hubHandler p) (frontProgram p) (Pool.init w₀) (before ++ after)).trace token) {k : ι}
    {s : AdminSessionRecord}
    (hs : ⟨k, .saveAdminSession s, ()⟩ ∈ (Pool.exec (hubHandler p) (frontProgram p) (Pool.init w₀) before).trace)
    (hhash : s.sessionTokenHash = hashToken p token) : ∃ a b, token = sessionToken a b := by
  obtain ⟨a, b, hdrawn, hmade⟩ := (sessionTrace_exec w₀ before).saved k s hs
  have hprefix := Pool.trace_prefix (hubHandler p) (frontProgram p)
    (Pool.exec (hubHandler p) (frontProgram p) (Pool.init w₀) before) after
  rw [← Pool.exec_append] at hprefix
  obtain ⟨more, hmore⟩ := hprefix
  rw [← hmore] at hno htoken
  exact ⟨a, b, hno _ _ htoken (.made (List.mem_append_left _ hs) (drawnUuids_own_append hdrawn _))
    (hhash.symm.trans hmade)⟩

/-- After signing out the cookie is worth nothing: below `/api/admin/` no request that starts later is answered
without an error, whatever runs beside it. Fewer than `2 ^ 128` identifiers are drawn, and the digests of the session
tokens of the run are different. -/
theorem signed_out_for_good {w₀ : World} {before during after : List (Move ι (Front × HttpRequest))}
    (hno : NoCollision p (before ++ during ++ after)
      (Pool.exec (hubHandler p) (frontProgram p) (Pool.init w₀) (before ++ during ++ after)).trace)
    (hfew : (Pool.exec (hubHandler p) (frontProgram p) (Pool.init w₀)
      (before ++ during ++ after)).state.nextUuid ≤ 16 ^ 32)
    {token : String} {i : ι} (hout : SignedOut p w₀ before during token i) {x : Front} {r : HttpRequest}
    (hi : Pool.asked (before ++ during ++ after) i = some (x, r))
    (hcookie : extractCookieValue r.headers adminSessionCookie = some token)
    (hpath : Below "/api/admin/" signingPaths r.path) :
    ¬ ∃ reply, (Pool.exec (hubHandler p) (frontProgram p) (Pool.init w₀) (before ++ during ++ after)).result i =
      some (.ok reply) := by
  rintro ⟨reply, hanswer⟩
  have hvisible : Text.isEmpty (Text.trim token) = false := by
    obtain ⟨k, s, hs, hhash⟩ := hout.stored
    have hrun := List.append_assoc before during after
    rw [hrun] at hno hi
    obtain ⟨a, b, rfl⟩ := hno.token_eq (.presented hi hcookie) hs hhash
    exact isEmpty_trim_sessionToken a b
  obtain ⟨k, s, j, mid, rest, hsaved, hhash, htrace⟩ := hout.deleted hvisible
  have hprefix := Pool.trace_prefix (hubHandler p) (frontProgram p)
    (Pool.exec (hubHandler p) (frontProgram p) (Pool.init w₀) (before ++ during)) after
  rw [← Pool.exec_append] at hprefix
  obtain ⟨more, hmore⟩ := hprefix
  have hinv := sessionTrace_exec (p := p) w₀ (before ++ during ++ after)
  have hshape : (Pool.exec (hubHandler p) (frontProgram p) (Pool.init w₀) (before ++ during ++ after)).trace =
      mid ++ ⟨j, .deleteAdminSession (hashToken p token), ()⟩ :: (rest ++ more) := by
    rw [← hmore, htrace, List.append_assoc, List.cons_append]
  -- no other session is stored under the hash
  obtain ⟨-, hgone⟩ := hinv.gone _ mid j _ hshape fun e he s' hs' heq => by
    obtain ⟨l, c, a⟩ := e
    dsimp only at hs'
    subst hs'
    exact hinv.hashes_apart hno hfew hshape hsaved (List.mem_cons_of_mem _ he) (hhash.trans heq.symm)
  -- the request has found the session, and so after it was deleted
  obtain ⟨v, hv, hshows⟩ := answered_shows p w₀ _ hi hanswer
  obtain ⟨hheaders, params, hroute⟩ := route_of_visit hv
  rw [Shows, credential_of_admin hroute hpath, hheaders] at hshows
  obtain ⟨token', htoken', context, now, -, -, hwithin⟩ := hshows
  obtain rfl : token' = token := Option.some.inj (htoken'.symm.trans hcookie)
  have hlookup := Pool.mem_own.1 (hwithin.subset (List.mem_cons_self (a := _)))
  rw [← hmore] at hlookup
  rcases List.mem_append.1 hlookup with hearly | hlate
  · rw [← Pool.mem_own, Pool.own_of_unborn (P := Pool.init w₀) (fun _ _ => rfl)
      (before ++ during) hout.starts] at hearly
    cases hearly
  · cases hgone i _ (List.mem_append_right _ hlate)

end Runs

/-! ## Who is signed in -/

section SignIns

variable {ι : Type} [DecidableEq ι] {p : Platform} {w : World} {tr : List (Event hubSig ι)}

/-- A session was stored under a hash for a user. -/
def StoredFor (tr : List (Event hubSig ι)) (hash : String) (userId : Uuid) : Prop :=
  ∃ j s, ⟨j, .saveAdminSession s, ()⟩ ∈ tr ∧ s.sessionTokenHash = hash ∧ s.userId = userId

omit [DecidableEq ι] in
theorem StoredFor.append {hash : String} {userId : Uuid} (h : StoredFor tr hash userId) (tr' : List (Event hubSig ι)) :
    StoredFor (tr ++ tr') hash userId := by
  obtain ⟨j, s, hs, hhash, huser⟩ := h
  exact ⟨j, s, List.mem_append_left _ hs, hhash, huser⟩

theorem own_subset_append (tr tr' : List (Event hubSig ι)) (j : ι) : Pool.own tr j ⊆ Pool.own (tr ++ tr') j := by
  rintro ⟨c, a⟩ h
  exact Pool.mem_own.2 (List.mem_append_left _ (Pool.mem_own.1 h))

theorem SignsIn.mono {q : Front × HttpRequest} {l l' : List (Made hubSig)} {userId : Uuid} (h : SignsIn p q l userId)
    (hl : l ⊆ l') : SignsIn p q l' userId := by
  obtain ⟨r, headers, hv, username, user, hname, hfound, hactive, hverify, huser⟩ := h
  exact ⟨r, headers, hv, username, user, hname, hl hfound, hactive, hverify, huser⟩

/-- Sessions stand under their hashes and were stored by requests that signed in as their users; users stand under their
identifiers. -/
structure SignIns (p : Platform) (ms : List (Move ι (Front × HttpRequest))) (w : World) (tr : List (Event hubSig ι)) :
    Prop where
  users : ∀ (k : Uuid) (u : AdminUserRecord), w.store.adminUsers[k]? = some u → u.userId = k
  stored : ∀ (hash : String) (s : AdminSessionRecord), w.store.adminSessions[hash]? = some s →
    s.sessionTokenHash = hash ∧ StoredFor tr hash s.userId
  found : ∀ i hash context, ⟨i, .adminSessionByTokenHash hash, some context⟩ ∈ tr → StoredFor tr hash context.userId
  signed : ∀ j s, ⟨j, .saveAdminSession s, ()⟩ ∈ tr → ∃ q, Pool.asked ms j = some q ∧
    SignsIn p q (Pool.own tr j) s.userId

theorem adminUsers_keyed {c : HubCall}
    (h : ∀ (k : Uuid) (u : AdminUserRecord), w.store.adminUsers[k]? = some u → u.userId = k) (k : Uuid)
      (u : AdminUserRecord)
    (hu : (hubHandler p c w).2.store.adminUsers[k]? = some u) : u.userId = k := by
  cases c with
  | saveAdminUser new =>
    rcases Maps.getElem?_insert_eq_some hu with ⟨rfl, rfl⟩ | ⟨-, hu⟩
    · rfl
    · exact h k u hu
  | touchAdminUserLogin userId login =>
    rcases Maps.getElem?_modify_eq_some hu with ⟨rfl, old, hold, rfl⟩ | ⟨-, hu⟩
    · exact h _ old hold
    · exact h k u hu
  | deleteNode nodeId =>
    simp only [hubHandler, World.write, MemoryState.deleteNode] at hu
    split at hu <;> exact h k u hu
  | deleteSite siteId =>
    simp only [hubHandler, World.write, MemoryState.deleteSite] at hu
    split at hu <;> exact h k u hu
  | deleteDnsProvider providerId =>
    simp only [hubHandler, World.write, MemoryState.deleteDnsProvider] at hu
    split at hu <;> exact h k u hu
  | deleteOperationTemplate templateId =>
    simp only [hubHandler, World.write, MemoryState.deleteOperationTemplate] at hu
    split at hu <;> exact h k u hu
  | claimNextNodeOperation nodeId =>
    simp only [hubHandler, MemoryState.claimNextNodeOperation] at hu
    split at hu <;> exact h k u hu
  | _ => exact h k u hu

variable {ms : List (Move ι (Front × HttpRequest))}

/-- What a lookup finds belongs to the user of the session. -/
theorem SignIns.lookup (h : SignIns p ms w tr) {hash : String} {context : AdminSessionContext}
    (hc : w.store.adminSessionByTokenHash hash = some context) : StoredFor tr hash context.userId := by
  obtain ⟨s, hs, hcontext⟩ := Option.bind_eq_some_iff.1 hc
  obtain ⟨u, hu, rfl⟩ := Option.map_eq_some_iff.1 hcontext
  have hkey := h.users s.userId u hu
  rw [hkey]
  exact (h.stored hash s hs).2

theorem SignIns.step (h : SignIns p ms w tr) {q : Front × HttpRequest} {i : ι} {c : HubCall}
    (hq : Pool.asked ms i = some q)
    (hc : OwnSession p q (Pool.own tr i) c) : SignIns p ms (hubHandler p c w).2
      (tr ++ [⟨i, c, (hubHandler p c w).1⟩]) where
  users := adminUsers_keyed h.users
  stored hash s hs := by
    rcases adminSessions_stored hs with ⟨rfl, hhash⟩ | ⟨old, hold, hhash, huser⟩
    · exact ⟨hhash, i, s, List.mem_append_right _ (List.mem_singleton.2 rfl), hhash, rfl⟩
    · obtain ⟨hkey, hstored⟩ := h.stored hash old hold
      rw [hhash, huser]
      exact ⟨hkey, hstored.append _⟩
  found j hash context hfound := by
    rcases Pool.mem_concat hfound with hold | ⟨-, -, hans⟩
    · exact (h.found j hash context hold).append _
    · exact (h.lookup hans.symm).append _
  signed j s hs := by
    rcases Pool.mem_concat hs with hold | ⟨rfl, rfl, -⟩
    · obtain ⟨q', hq', hsigned⟩ := h.signed j s hold
      exact ⟨q', hq', hsigned.mono (own_subset_append _ _ _)⟩
    · exact ⟨q, hq, hc.2.2.mono (own_subset_append _ _ _)⟩

theorem signIns_exec {w₀ : World} (husers : ∀ (k : Uuid) (u : AdminUserRecord), w₀.store.adminUsers[k]? =
    some u → u.userId = k)
    (hsessions : ∀ hash : String, w₀.store.adminSessions[hash]? = none) (ms : List (Move ι (Front × HttpRequest))) :
    SignIns p ms (Pool.exec (hubHandler p) (frontProgram p) (Pool.init w₀) ms).state
      (Pool.exec (hubHandler p) (frontProgram p) (Pool.init w₀) ms).trace := by
  refine Pool.exec_invariant (I := fun P => SignIns p ms P.state P.trace) (fun P m hP hm => ?_) ?_
    (Pool.admits_remembered (frontProgram_session (p := p)) w₀ ms)
  · rcases Pool.move_cases (hubHandler p) (frontProgram p) P m with ⟨hstate, htrace⟩ | ⟨i, c, rfl, hc, hstate, htrace⟩
    · rw [hstate, htrace]
      exact hP
    · obtain ⟨q, hq, hown⟩ := hm i rfl c hc
      rw [hstate, htrace]
      exact hP.step hq hown
  · refine ⟨husers, fun hash s hs => ?_, fun _ _ _ h => absurd h List.not_mem_nil,
      fun _ _ h => absurd h List.not_mem_nil⟩
    rw [Pool.init, hsessions hash] at hs
    cases hs

theorem adminUsers_serveAll (hub : Hub) (rs : List Request) (k : Uuid) (u : AdminUserRecord)
    (hu : (World.init.serveAll p hub rs).store.adminUsers[k]? = some u) : u.userId = k := by
  induction rs using List.reverseRecOn generalizing k u with
  | nil => simp [World.serveAll, World.init, MemoryState.empty] at hu
  | append_singleton rs r ih =>
    rw [World.serveAll_concat] at hu
    exact (program_only p hub r).run_keeps (I := fun w' : World => ∀ (k : Uuid) (u : AdminUserRecord),
      w'.store.adminUsers[k]? = some u → u.userId = k) (fun _ _ _ h => adminUsers_keyed h) ih k u hu

/-- The token `a b` of the cookie was made by the request `j` of the run, which signed in with the password of the
user that the session of the request `i` was found for. -/
structure ByPassword (p : Platform) (ms : List (Move ι (Front × HttpRequest))) (tr : List (Event hubSig ι)) (i j : ι)
    (headers : HeaderMap) (a b : Uuid) : Prop where
  cookie : extractCookieValue headers adminSessionCookie = some (sessionToken a b)
  drawn : [a, b] <+: drawnUuids (Pool.own tr j)
  signedIn : ∃ context q, ⟨.adminSessionByTokenHash (hashToken p (sessionToken a b)), some context⟩ ∈ Pool.own tr i ∧
    Pool.asked ms j = some q ∧ SignsIn p q (Pool.own tr j) context.userId

/-- In every run of the front that starts without sessions, whoever is answered below `/api/admin/` holds the token of a
sign-in by password, as long as no two session tokens of the run have the same digest. -/
theorem answered_by_password {hub : Hub} {setup : List Request}
    (hno : NoCollision p ms
      (Pool.exec (hubHandler p) (frontProgram p) (Pool.init (World.init.serveAll p hub setup)) ms).trace)
    (hsessions : (World.init.serveAll p hub setup).store.adminSessions = ∅) {i : ι} {x : Front} {r : HttpRequest}
    (hi : Pool.asked ms i = some (x, r)) (hpath : Below "/api/admin/" signingPaths r.path) {reply : Reply Unit}
    (hanswer : (Pool.exec (hubHandler p) (frontProgram p) (Pool.init (World.init.serveAll p hub setup)) ms).result i =
      some (.ok reply)) :
    ∃ j a b, ByPassword p ms
      (Pool.exec (hubHandler p) (frontProgram p) (Pool.init (World.init.serveAll p hub setup)) ms).trace i j
        r.headers a b := by
  have husers := adminUsers_serveAll (p := p) hub setup
  generalize World.init.serveAll p hub setup = w₀ at hno hsessions husers hanswer ⊢
  obtain ⟨v, hv, hshows⟩ := answered_shows p w₀ ms hi hanswer
  obtain ⟨hheaders, params, hroute⟩ := route_of_visit hv
  rw [Shows, credential_of_admin hroute hpath, hheaders] at hshows
  obtain ⟨token, hcookie, context, now, -, -, hwithin⟩ := hshows
  have hlookup := hwithin.subset (List.mem_cons_self (a := _))
  have hsignIns := signIns_exec (p := p) husers (fun hash => by rw [hsessions]; rfl) ms
  obtain ⟨j, s, hs, hhash, huser⟩ := hsignIns.found i _ context (Pool.mem_own.1 hlookup)
  obtain ⟨q, hq, hsigned⟩ := hsignIns.signed j s hs
  obtain ⟨a, b, hdrawn, htoken⟩ := (sessionTrace_exec (p := p) w₀ ms).saved j s hs
  obtain rfl : token = sessionToken a b :=
    hno _ _ (.presented hi hcookie) (.made hs hdrawn) (hhash.symm.trans htoken)
  rw [huser] at hsigned
  exact ⟨j, a, b, hcookie, hdrawn, context, q, hlookup, hq, hsigned⟩

end SignIns

/-- A front that reads every body as the same sign-in. -/
def signInFront : Front where
  hub := ⟨0, 30⟩
  bind := "127.0.0.1:8080"
  etcdPrefix := "/pingora"
  json := fun
    | .adminLogin, _ => .ok { username := "admin", password := "secret-1" }
    | _, _ => .error 415

/-- A request with the token of the first sign-in. -/
def withCookie (method : Method) (path : String) : HttpRequest where
  method := method
  path := path
  query := []
  headers := [("cookie", "pingorahub_admin_session=" ++ sessionToken 1 2)]
  body := ""

/-- One administrator, and no session. -/
def oneAdmin : World := World.init.serveAll .plain ⟨0, 30⟩ [.ensureAdminUser "admin" "Admin" "secret-1"]

/-- A sign-in. -/
def signIn : List (Move Nat (Front × HttpRequest)) :=
  .spawn 0 (signInFront, withCookie .post "/api/admin/auth/login") :: List.replicate 10 (.go 0)

/-- The session signs out. -/
def signOut : List (Move Nat (Front × HttpRequest)) :=
  [.spawn 1 (signInFront, withCookie .post "/api/admin/auth/logout"), .go 1]

/-- The cookie is used again. -/
def comeBack : List (Move Nat (Front × HttpRequest)) :=
  [.spawn 2 (signInFront, withCookie .get "/api/admin/auth/me"), .go 2]

/-- The session is used. -/
def useCookie : List (Move Nat (Front × HttpRequest)) :=
  .spawn 1 (signInFront, withCookie .get "/api/admin/auth/me") :: List.replicate 4 (.go 1)

/-- What these runs come to. -/
theorem oneAdmin_runs :
    ((Pool.exec (hubHandler .plain) (frontProgram .plain) (Pool.init oneAdmin) signIn).trace.findSome? fun e =>
      e.call.storedSession).map (·.sessionTokenHash) = some (hashToken .plain (sessionToken 1 2)) ∧
    extractCookieValue (withCookie .post "/api/admin/auth/logout").headers adminSessionCookie = some
      (sessionToken 1 2) ∧
    ((Pool.exec (hubHandler .plain) (frontProgram .plain) (Pool.init oneAdmin) signIn).threads 1).isNone = true ∧
    ((Pool.exec (hubHandler .plain) (frontProgram .plain) (Pool.init oneAdmin) (signIn ++ signOut)).result 1).map
      (·.isOk) = some true ∧
    ((Pool.exec (hubHandler .plain) (frontProgram .plain) (Pool.init oneAdmin) (signIn ++ signOut)).threads
      2).isNone = true ∧
    (Pool.exec (hubHandler .plain) (frontProgram .plain) (Pool.init oneAdmin)
      (signIn ++ signOut ++ comeBack)).state.nextUuid ≤ 16 ^ 32 ∧
    ((Pool.exec (hubHandler .plain) (frontProgram .plain) (Pool.init oneAdmin) (signIn ++ useCookie)).result 1).map
      (·.isOk) = some true ∧
    oneAdmin.store.adminSessions.isEmpty = true := by
  decide +kernel

theorem adminSessions_oneAdmin : oneAdmin.store.adminSessions = ∅ := by
  obtain ⟨-, -, -, -, -, -, -, hempty⟩ := oneAdmin_runs
  exact Std.ExtTreeMap.isEmpty_iff.1 hempty

theorem signedOut_plain : SignedOut .plain oneAdmin signIn signOut (sessionToken 1 2) 2 := by
  obtain ⟨hfirst, hcookie, hunborn, hresult, hstarts, -⟩ := oneAdmin_runs
  constructor
  · obtain ⟨s, hs, hhash⟩ := Option.map_eq_some_iff.1 hfirst
    obtain ⟨⟨k, c, a⟩, he, hcall⟩ := List.exists_of_findSome?_eq_some hs
    cases c <;> cases hcall
    exact ⟨k, s, he, hhash⟩
  · obtain ⟨out, hout, hok⟩ := Option.map_eq_some_iff.1 hresult
    cases out with
    | error e => cases hok
    | ok reply => exact ⟨1, _, _, reply, rfl, rfl, rfl, hcookie, Option.isNone_iff_eq_none.1 hunborn, hout⟩
  · exact Option.isNone_iff_eq_none.1 hstarts

theorem signed_out_for_good_plain :
    ¬ ∃ reply, (Pool.exec (hubHandler .plain) (frontProgram .plain) (Pool.init oneAdmin)
      (signIn ++ signOut ++ comeBack)).result 2 = some (.ok reply) := by
  obtain ⟨-, hcookie, -, -, -, hfew, -⟩ := oneAdmin_runs
  exact signed_out_for_good (p := .plain) (fun _ _ _ _ h => plain_sha256Hex_injective h) hfew
    signedOut_plain rfl hcookie ⟨⟨"auth/me", rfl⟩, by decide⟩

theorem answered_by_password_plain : ∃ j a b, ByPassword .plain (signIn ++ useCookie)
    (Pool.exec (hubHandler .plain) (frontProgram .plain) (Pool.init oneAdmin) (signIn ++ useCookie)).trace 1 j
    (withCookie .get "/api/admin/auth/me").headers a b := by
  obtain ⟨-, -, -, -, -, -, hresult, -⟩ := oneAdmin_runs
  obtain ⟨out, hout, hok⟩ := Option.map_eq_some_iff.1 hresult
  cases out with
  | error e => cases hok
  | ok reply =>
    exact @answered_by_password Nat _ .plain (signIn ++ useCookie) ⟨0, 30⟩
      [.ensureAdminUser "admin" "Admin" "secret-1"] (fun _ _ _ _ h => plain_sha256Hex_injective h)
        adminSessions_oneAdmin 1 signInFront (withCookie .get "/api/admin/auth/me") rfl
      ⟨⟨"auth/me", rfl⟩, by decide⟩ reply hout

end PingoraMesh.HubApi
