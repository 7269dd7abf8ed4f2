import PingoraMesh.Hub.Alone
import PingoraMesh.Hub.Registration

/-!
# A change of password and the sign-ins around it

A change of password runs together with any number of sign-ins and checks of sessions. A sign-in reads the user,
verifies the password against the hash it has read, and only later stores its session; the change stores the new hash
and then deletes the sessions of the user, all but its own.

* `follows_signing`: what the calls of these requests write, in terms of what they have read (`signingSpec`);
* `locks_out_of_unchanged`: if a session is stored only while the stored hash is the one that was verified, or while the
  change is about to delete the sessions, then the old password has no session left;
* `old_password_session`: a sign-in that crosses the change keeps a session of the old password.
-/

namespace PingoraMesh

open Calls Fallible HubService

/-- A sign-in or a check of a session. -/
def Request.signsIn : Request → Bool
  | .loginAdmin _ | .authorizeAdminSession _ => true
  | _ => false

/-- The user whose sessions a call deletes. -/
def HubCall.revokedUser : HubCall → Option Uuid
  | .deleteAdminSessionsForUser userId _ => some userId
  | _ => none

/-- The session that a call stores. -/
def HubCall.storedSession : HubCall → Option AdminSessionRecord
  | .saveAdminSession session => some session
  | _ => none

/-! ## What a program has read and written -/

/-- A program under way: its request, the user that it has read last, the hash of the new password, the user that it has
written and the user whose sessions it has deleted. -/
structure Signing where
  request : Hub × Request
  read : Option AdminUserRecord
  hashed : Option String
  written : Option Uuid
  revoked : Option Uuid

namespace Signing

/-- What a call tells. -/
def next (c : HubCall) (r : c.Ans) (g : Signing) : Signing :=
  match c, r with
  | .adminUserByUsername _, found => { g with read := found }
  | .argon2Hash _, hash => { g with hashed := hash.toOption }
  | .saveAdminUser user, _ => { g with written := some user.userId }
  | .deleteAdminSessionsForUser userId _, _ => { g with revoked := some userId }
  | _, _ => g

/-- What is asked of the calls: users and sessions are written as they were read. -/
def Allows (p : Platform) (g : Signing) : HubCall → Prop
  | .argon2Hash password => ∃ token r, g.request.2 = .changeAdminPassword token r ∧ password = r.newPassword
  | .saveAdminUser user => ∃ token r, g.request.2 = .changeAdminPassword token r ∧ r.currentPassword ≠ r.newPassword ∧
      g.hashed = some user.passwordHash ∧ g.written = none ∧ g.revoked = none
  | .deleteAdminSessionsForUser userId exclude => ∃ token r, g.request.2 = .changeAdminPassword token r ∧
      g.written = some userId ∧ g.revoked = none ∧ exclude = some (hashToken p token)
  | .saveAdminSession session => ∃ r user, g.request.2 = .loginAdmin r ∧ g.read = some user ∧
      verifyPassword p user.passwordHash r.password = .ok () ∧ session.userId = user.userId
  | .adminUserByUsername _ | .adminSessionByTokenHash _ | .touchAdminUserLogin _ _ | .touchAdminSession _ _
  | .newUuid | .utcNow => True
  | _ => False

/-- A change that has succeeded has deleted the sessions of the user. -/
def Returns (r : Except AppError Unit) (g : Signing) : Prop :=
  r = .ok () → ∀ token request, g.request.2 = .changeAdminPassword token request → g.revoked.isSome

end Signing

/-- Users and sessions are written as requests say. -/
def signingSpec (p : Platform) : Spec hubSig Signing := .protocol (fun c g => g.Allows p c) Signing.next

section Follows

variable (p : Platform) {g : Signing}

theorem loginAdmin_signing (r : AdminLoginRequest) (hg : g.request.2 = .loginAdmin r) :
    wp (signingSpec p) (loginAdmin p r) (fun _ _ => True) (fun _ _ => True) g := by
  simp only [signingSpec, loginAdmin, repo, wp_bind, wp_attempt, wp_okOr, wp_ensure, wp_call_protocol, wp_pure,
    Signing.next, Signing.Allows, implies_true, and_true, true_and]
  intro _ _ _ found user hfound _ _ hverify _ _ _ _ _ _
  exact ⟨r, user, hg, hfound, hverify, rfl⟩

theorem authorizeAdminSession_signing (token : String) :
    wp (signingSpec p) (authorizeAdminSession p token) (fun _ g' => g' = g) (fun _ _ => True) g := by
  simp only [signingSpec, authorizeAdminSession, repo, wp_bind, wp_okOr, wp_ensure, wp_call_protocol, wp_pure,
    Signing.next, Signing.Allows, implies_true, and_true, true_and]

theorem changeAdminPassword_signing (token : String) (r : ChangeAdminPasswordRequest)
    (hg : g.request.2 = .changeAdminPassword token r) (hw : g.written = none) (hr : g.revoked = none) :
    wp (signingSpec p) (changeAdminPassword p token r) (fun _ g' => g'.revoked.isSome) (fun _ _ => True) g := by
  unfold changeAdminPassword
  rw [wp_bind]
  refine wp_mono (fun session g' hg' => ?_) (fun _ _ _ => trivial) (authorizeAdminSession_signing p token)
  subst hg'
  simp only [signingSpec, hashPassword, repo, wp_bind, wp_attempt, wp_okOr, wp_ensure, wp_call_protocol, wp_pure,
    Signing.next, Signing.Allows, implies_true, and_true, true_and]
  intro _ _ hne _ user _ _ _ _ _
  refine ⟨⟨token, r, hg, rfl⟩, fun answer hash hhash => ?_⟩
  have hok : answer.toOption = some hash := by
    cases answer with
    | error message => cases hhash
    | ok _ =>
      cases hhash
      rfl
  exact ⟨⟨token, r, hg, bne_iff_ne.1 hne, hok, hw, hr⟩, fun _ => ⟨⟨token, r, hg, hr, rfl⟩, fun _ => rfl⟩⟩

/-- A sign-in, a check of a session and a change write users and sessions as they say, and a change that succeeds has
deleted the sessions of the user. -/
theorem follows_signing (q : Hub × Request)
    (hq : q.2.signsIn = true ∨ ∃ token r, q.2 = .changeAdminPassword token r) :
    Prog.wp (signingSpec p) (hubProgram p q) Signing.Returns ⟨q, none, none, none, none⟩ := by
  have hkeep : ∀ c g r g', (signingSpec p).can c g r g' → g.request = q → g'.request = q := by
    rintro c g r _ rfl hg
    cases c <;> exact hg
  suffices hrevoked : Prog.wp (signingSpec p) (hubProgram p q) (fun r g' => r = .ok () →
      ∀ token request, q.2 = .changeAdminPassword token request → g'.revoked.isSome) ⟨q, none, none, none, none⟩ from
    Prog.wp_mono (fun _ _ h hok token request hreq => h.1 hok token request (h.2 ▸ hreq))
      (Prog.wp_keep hkeep hrevoked rfl)
  obtain ⟨hub, r⟩ := q
  cases r with
  | changeAdminPassword token r =>
    have hr : wp (signingSpec p) (HubService.program p hub (.changeAdminPassword token r))
        (fun _ g' => g'.revoked.isSome)
        (fun _ _ => True) ⟨(hub, .changeAdminPassword token r), none, none, none, none⟩ :=
      (wp_discard _).2 (changeAdminPassword_signing p token r rfl rfl rfl)
    refine Prog.wp_mono (fun out g' h hok _ _ _ => ?_) (wp_iff_run.1 hr)
    subst hok
    exact h
  | loginAdmin r =>
    have hr : wp (signingSpec p) (HubService.program p hub (.loginAdmin r)) (fun _ _ => True) (fun _ _ => True)
        ⟨(hub, .loginAdmin r), none, none, none, none⟩ := (wp_discard _).2 (loginAdmin_signing p r rfl)
    exact Prog.wp_mono (fun _ _ _ _ _ _ e => nomatch e) hr.either
  | authorizeAdminSession token =>
    have hr : wp (signingSpec p) (HubService.program p hub (.authorizeAdminSession token)) (fun _ _ => True)
        (fun _ _ => True) ⟨(hub, .authorizeAdminSession token), none, none, none, none⟩ :=
      (wp_discard _).2 (wp_mono (fun _ _ _ => trivial) (fun _ _ _ => trivial) (authorizeAdminSession_signing p token))
    exact Prog.wp_mono (fun _ _ _ _ _ _ e => nomatch e) hr.either
  | _ =>
    rcases hq with hq | ⟨_, _, hq⟩
    · cases hq
    · cases hq

end Follows

/-! ## The condition -/

/-- The stored password hash of a user. -/
def World.passwordHash (w : World) (userId : Uuid) : Option String := w.store.adminUsers[userId]?.map (·.passwordHash)

/-- `verify_password` of a hash that `hash_password` has made succeeds for the password and for no other. -/
def VerifiesOwn (p : Platform) : Prop :=
  ∀ n password hash raw, p.argon2Hash n password = .ok hash → (verifyPassword p hash raw = .ok () ↔ raw = password)

/-- The sessions of the second world were in the first, for the same users. -/
def World.SessionsFrom (w w' : World) : Prop :=
  ∀ (hash : String) s', w'.store.adminSessions[hash]? = some s' →
    ∃ s, w.store.adminSessions[hash]? = some s ∧ s.userId = s'.userId

section Reads

variable {ι : Type}

/-- The user that a program has read last, after one more call of it. -/
def userRead (last : Option AdminUserRecord) : Event hubSig ι → Option AdminUserRecord
  | ⟨_, .adminUserByUsername _, found⟩ => found
  | _ => last

/-- Who has stored the session under a hash, and what was stored, after one more call. -/
def sessionStored (hash : String) (last : Option (ι × AdminSessionRecord)) (e : Event hubSig ι) :
    Option (ι × AdminSessionRecord) :=
  match e.call.storedSession with
  | some session => if session.sessionTokenHash = hash then some (e.thread, session) else last
  | none => last

/-- Who has last stored a session under a hash, and what was stored. -/
def sessionMaker (tr : List (Event hubSig ι)) (hash : String) : Option (ι × AdminSessionRecord) :=
  tr.foldl (sessionStored hash) none

theorem sessionMaker_concat (tr : List (Event hubSig ι)) (e : Event hubSig ι) (hash : String) :
    sessionMaker (tr ++ [e]) hash = sessionStored hash (sessionMaker tr hash) e := by
  simp [sessionMaker]

variable [DecidableEq ι]

/-- The user that a program has read last. -/
def readUser (tr : List (Event hubSig ι)) (i : ι) : Option AdminUserRecord := Pool.seen userRead none tr i

/-- What is asked of a program that stores a session: the stored hash is still the one that it has read, or the change
is about to delete the sessions of the user. -/
def HashUnchanged (change : ι) (P : Pool hubSig (Except AppError Unit) ι World) : Move ι (Hub × Request) → Prop
  | .spawn _ _ => True
  | .go i => ∀ c ∈ P.next i, ∀ session ∈ c.storedSession, ∀ user ∈ readUser P.trace i,
      P.state.passwordHash session.userId = some user.passwordHash ∨
        session.userId ∈ (P.next change).bind HubCall.revokedUser

instance (change : ι) (P : Pool hubSig (Except AppError Unit) ι World) : DecidablePred (HashUnchanged change P)
  | .spawn _ _ => inferInstanceAs (Decidable True)
  | .go i => inferInstanceAs (Decidable (∀ c ∈ P.next i, ∀ session ∈ c.storedSession, ∀ user ∈ readUser P.trace i,
      P.state.passwordHash session.userId = some user.passwordHash ∨
        session.userId ∈ (P.next change).bind HubCall.revokedUser))

end Reads

/-! ## The invariant -/

section Invariant

variable {ι : Type} [DecidableEq ι] (p : Platform) (q : ι → Option (Hub × Request)) (change : ι) (hub : Hub)
  (token : String) (r : ChangeAdminPasswordRequest)

/-- One change of password among sign-ins and checks of sessions. -/
structure OneChange : Prop where
  asked : q change = some (hub, .changeAdminPassword token r)
  others : ∀ i, ∀ a ∈ q i, i = change ∨ a.2.signsIn = true

/-- A sign-in that has shown the old password. -/
def OldLogin (i : ι) : Prop := ∃ hub l, q i = some (hub, .loginAdmin l) ∧ l.password = r.currentPassword

/-- No session that such a sign-in has made for the user is stored, but for the one of the change. -/
def NoOldSession (userId : Uuid) (w : World) (tr : List (Event hubSig ι)) : Prop :=
  ∀ hash i session, sessionMaker tr hash = some (i, session) → session.userId = userId → OldLogin q r i →
    hash ≠ hashToken p token → w.store.adminSessions[hash]? = none

/-- Programs know what they have read; once the change has written the user, the stored hash is of the new password, and
once it has deleted the sessions there is none of the old password. -/
structure LockInv (g : ι → Option Signing) (w : World) (tr : List (Event hubSig ι)) : Prop where
  request : ∀ i gi, g i = some gi → q i = some gi.request
  read : (fun i => (g i).bind Signing.read) = readUser tr
  hashed : ∀ gc, g change = some gc → ∀ hash ∈ gc.hashed, ∃ n, p.argon2Hash n r.newPassword = .ok hash
  written : ∀ gc, g change = some gc → ∀ userId ∈ gc.written, r.currentPassword ≠ r.newPassword ∧
    ∃ n hash, p.argon2Hash n r.newPassword = .ok hash ∧ w.passwordHash userId = some hash
  revoked : ∀ gc, g change = some gc → ∀ userId ∈ gc.revoked, userId ∈ gc.written ∧
    ⟨change, .deleteAdminSessionsForUser userId (some (hashToken p token)), ()⟩ ∈ tr ∧
      NoOldSession p q token r userId w tr
  stored : ∀ hash i session, sessionMaker tr hash = some (i, session) → ∀ s, w.store.adminSessions[hash]? = some s →
    s.userId = session.userId

variable {p q change hub token r} {g : ι → Option Signing} {w w' : World} {tr : List (Event hubSig ι)} {i : ι}
  {gi : Signing}

theorem LockInv.init (w : World) : LockInv p q change token r (fun _ : ι => none) w [] := by
  refine ⟨?_, rfl, ?_, ?_, ?_, ?_⟩
  · intro i gi hi
    cases hi
  · intro gc hc
    cases hc
  · intro gc hc
    cases hc
  · intro gc hc
    cases hc
  · intro hash i session hmaker
    cases hmaker

omit [DecidableEq ι] in
theorem Signing.next_read (c : HubCall) (a : c.Ans) (i : ι) (gi : Signing) :
    (gi.next c a).read = userRead gi.read ⟨i, c, a⟩ := by
  cases c <;> rfl

theorem Signing.next_request (c : HubCall) (a : c.Ans) (gi : Signing) : (gi.next c a).request = gi.request := by
  cases c <;> rfl

/-- What programs have read, after one more call. -/
theorem LockInv.readNext (h : LockInv p q change token r g w tr) (hi : g i = some gi) (c : HubCall) (a : c.Ans) :
    (fun j => (Function.update g i (some (gi.next c a)) j).bind Signing.read) = readUser (tr ++ [⟨i, c, a⟩]) := by
  have hread : readUser tr i = gi.read := by
    rw [← congrFun h.read i, hi]
    rfl
  have hconcat : readUser (tr ++ [⟨i, c, a⟩]) = Function.update (readUser tr) i (userRead (readUser tr i) ⟨i, c, a⟩) :=
    Pool.seen_concat userRead none tr ⟨i, c, a⟩
  rw [hconcat, hread, Pool.bind_update, h.read, ← Signing.next_read]

/-- What the change has done so far is as before if the program that goes on has not written or deleted anything. -/
theorem forall_change {gi' : Signing} (hi : g i = some gi) {R R' : Signing → Prop}
    (h : ∀ gc, g change = some gc → R gc) (hR : ∀ gc, R gc → R' gc) (hsame : R gi → R' gi') :
    ∀ gc, Function.update g i (some gi') change = some gc → R' gc := by
  intro gc hgc
  by_cases hc : change = i
  · subst hc
    rw [Function.update_self] at hgc
    cases hgc
    exact hsame (h gi hi)
  · rw [Function.update_of_ne hc] at hgc
    exact hR gc (h gc hgc)

omit [DecidableEq ι] in
/-- A call that stores no session has made none. -/
theorem sessionMaker_quiet {e : Event hubSig ι} (he : e.call.storedSession = none) (hash : String) :
    sessionMaker (tr ++ [e]) hash = sessionMaker tr hash := by
  rw [sessionMaker_concat, sessionStored]
  simp only [he]

omit [DecidableEq ι] in
theorem NoOldSession.next {userId : Uuid} (h : NoOldSession p q token r userId w tr) {e : Event hubSig ι}
    (he : e.call.storedSession = none) (hsessions : w.SessionsFrom w') :
    NoOldSession p q token r userId w' (tr ++ [e]) := by
  intro hash j session hmaker huser hlogin hne
  rw [sessionMaker_quiet he] at hmaker
  have hnone := h hash j session hmaker huser hlogin hne
  refine Option.eq_none_iff_forall_ne_some.2 fun s' hs' => ?_
  obtain ⟨s, hs, -⟩ := hsessions hash s' hs'
  rw [hnone] at hs
  cases hs

theorem LockInv.storedNext (h : LockInv p q change token r g w tr) {e : Event hubSig ι}
    (he : e.call.storedSession = none) (hsessions : w.SessionsFrom w') :
    ∀ hash j session, sessionMaker (tr ++ [e]) hash = some (j, session) → ∀ s, w'.store.adminSessions[hash]? = some s →
      s.userId = session.userId := by
  intro hash j session hmaker s' hs'
  rw [sessionMaker_quiet he] at hmaker
  obtain ⟨s, hs, huser⟩ := hsessions hash s' hs'
  exact huser ▸ h.stored hash j session hmaker s hs

theorem LockInv.requestNext (h : LockInv p q change token r g w tr) (hi : g i = some gi) (c : HubCall) (a : c.Ans) :
    ∀ j gj, Function.update g i (some (gi.next c a)) j = some gj → q j = some gj.request := by
  refine Pool.forall_update ?_ h.request
  rw [Signing.next_request]
  exact h.request i gi hi

/-- What the change has deleted, after a call that deletes nothing. -/
theorem LockInv.revokedNext (h : LockInv p q change token r g w tr) (hi : g i = some gi) {c : HubCall} {a : c.Ans}
    (hc : c.storedSession = none) (hsessions : w.SessionsFrom w') (hrevoked : (gi.next c a).revoked = gi.revoked)
    (hwritten : (gi.next c a).written = gi.written ∨ gi.revoked = none) :
    ∀ gc, Function.update g i (some (gi.next c a)) change = some gc → ∀ userId ∈ gc.revoked, userId ∈ gc.written ∧
      ⟨change, .deleteAdminSessionsForUser userId (some (hashToken p token)), ()⟩ ∈ tr ++ [⟨i, c, a⟩] ∧
        NoOldSession p q token r userId w' (tr ++ [⟨i, c, a⟩]) := by
  refine forall_change hi h.revoked (fun gc hgc userId hu => ?_) fun hgi userId hu => ?_
  · obtain ⟨hw, he, hno⟩ := hgc userId hu
    exact ⟨hw, List.mem_append_left _ he, hno.next hc hsessions⟩
  · rw [hrevoked] at hu
    obtain ⟨hw, he, hno⟩ := hgi userId hu
    rcases hwritten with hwritten | hnone
    · rw [hwritten]
      exact ⟨hw, List.mem_append_left _ he, hno.next hc hsessions⟩
    · rw [hnone] at hu
      cases hu

/-- A call that writes no user and no session: hashes stay, and no session comes back. -/
theorem LockInv.quiet (h : LockInv p q change token r g w tr) (hi : g i = some gi) {c : HubCall} {a : c.Ans}
    (hc : c.storedSession = none) (hsessions : w.SessionsFrom w')
    (hhash : ∀ userId, w'.passwordHash userId = w.passwordHash userId) (hhashed : (gi.next c a).hashed = gi.hashed)
    (hwritten : (gi.next c a).written = gi.written) (hrevoked : (gi.next c a).revoked = gi.revoked) :
    LockInv p q change token r (Function.update g i (some (gi.next c a))) w' (tr ++ [⟨i, c, a⟩]) where
  request := h.requestNext hi c a
  read := h.readNext hi c a
  hashed := by
    refine forall_change hi h.hashed (fun _ hgc => hgc) fun hgi => ?_
    rw [hhashed]
    exact hgi
  written := by
    refine forall_change hi h.written (fun gc hgc userId hu => ?_) fun hgi userId hu => ?_
    · rw [hhash]
      exact hgc userId hu
    · rw [hwritten] at hu
      rw [hhash]
      exact hgi userId hu
  revoked := h.revokedNext hi hc hsessions hrevoked (.inl hwritten)
  stored := h.storedNext hc hsessions

/-- The program of a change is the one. -/
theorem LockInv.isChange (h : LockInv p q change token r g w tr) (hone : OneChange q change hub token r)
    (hi : g i = some gi) {token' : String} {r' : ChangeAdminPasswordRequest}
    (hg : gi.request.2 = .changeAdminPassword token' r') : i = change ∧ token' = token ∧ r' = r := by
  have hq := h.request i gi hi
  have hic : i = change := by
    rcases hone.others i gi.request hq with hic | hsigns
    · exact hic
    · rw [hg] at hsigns
      cases hsigns
  subst hic
  have heq := hone.asked.symm.trans hq
  have hreq : Request.changeAdminPassword token r = gi.request.2 := congrArg Prod.snd (Option.some.inj heq)
  rw [hg] at hreq
  cases hreq
  exact ⟨rfl, rfl, rfl⟩

/-- The new password is hashed. -/
theorem LockInv.hash (h : LockInv p q change token r g w tr) (hone : OneChange q change hub token r)
    (hi : g i = some gi) {password : String} (hok : gi.Allows p (.argon2Hash password)) :
    LockInv p q change token r
      (Function.update g i (some (gi.next (.argon2Hash password) (p.argon2Hash w.tick password))))
      { w with tick := w.tick + 1 } (tr ++ [⟨i, .argon2Hash password, p.argon2Hash w.tick password⟩]) := by
  obtain ⟨token', r', hg, rfl⟩ := hok
  obtain ⟨rfl, rfl, rfl⟩ := h.isChange hone hi hg
  have hsessions : w.SessionsFrom { w with tick := w.tick + 1 } := fun _ s hs => ⟨s, hs, rfl⟩
  refine ⟨h.requestNext hi _ _, h.readNext hi _ _, ?_, ?_, h.revokedNext hi rfl hsessions rfl (.inl rfl),
    h.storedNext rfl hsessions⟩
  · refine forall_change hi h.hashed (fun _ hgc => hgc) fun _ hash hhash => ⟨w.tick, ?_⟩
    change hash ∈ (p.argon2Hash w.tick r'.newPassword).toOption at hhash
    cases hres : p.argon2Hash w.tick r'.newPassword with
    | error message =>
      rw [hres] at hhash
      cases hhash
    | ok hash' =>
      rw [hres] at hhash
      cases hhash
      rfl
  · exact forall_change hi h.written (fun _ hgc => hgc) fun hgi => hgi

/-- The change writes the user. -/
theorem LockInv.write (h : LockInv p q change token r g w tr) (hone : OneChange q change hub token r)
    (hi : g i = some gi) {user : AdminUserRecord} (hok : gi.Allows p (.saveAdminUser user)) :
    LockInv p q change token r (Function.update g i (some (gi.next (.saveAdminUser user) ())))
      { w with store := w.store.saveAdminUser user } (tr ++ [⟨i, .saveAdminUser user, ()⟩]) := by
  obtain ⟨token', r', hg, hne, hhash, hwritten, hrevoked⟩ := hok
  obtain ⟨rfl, rfl, rfl⟩ := h.isChange hone hi hg
  have hsessions : w.SessionsFrom { w with store := w.store.saveAdminUser user } := fun _ s hs => ⟨s, hs, rfl⟩
  refine ⟨h.requestNext hi _ _, h.readNext hi _ _, ?_, ?_, h.revokedNext hi rfl hsessions rfl (.inr hrevoked),
    h.storedNext rfl hsessions⟩
  · exact forall_change hi h.hashed (fun _ hgc => hgc) fun hgi => hgi
  · intro gc hgc userId hu
    rw [Function.update_self] at hgc
    cases hgc
    cases hu
    obtain ⟨n, hn⟩ := h.hashed gi hi _ hhash
    refine ⟨hne, n, user.passwordHash, hn, ?_⟩
    simp [World.passwordHash, MemoryState.saveAdminUser]

/-- The change deletes the sessions of the user. -/
theorem LockInv.revoke (h : LockInv p q change token r g w tr) (hone : OneChange q change hub token r)
    (hi : g i = some gi)
    {userId : Uuid} {exclude : Option String} (hok : gi.Allows p (.deleteAdminSessionsForUser userId exclude)) :
    LockInv p q change token r (Function.update g i (some (gi.next (.deleteAdminSessionsForUser userId exclude) ())))
      { w with store := w.store.deleteAdminSessionsForUser userId exclude }
      (tr ++ [⟨i, .deleteAdminSessionsForUser userId exclude, ()⟩]) := by
  obtain ⟨token', r', hg, hwritten, hrevoked, rfl⟩ := hok
  obtain ⟨rfl, rfl, rfl⟩ := h.isChange hone hi hg
  have hleft : ∀ (hash : String) s,
      (w.store.deleteAdminSessionsForUser userId (some (hashToken p token'))).adminSessions[hash]? = some s →
      w.store.adminSessions[hash]? = some s ∧ (s.userId ≠ userId ∨ hash = hashToken p token') := by
    intro hash s hs
    obtain ⟨hs, hpass⟩ := Maps.getElem?_filter_eq_some hs
    rw [Bool.or_eq_true, bne_iff_ne, beq_iff_eq] at hpass
    exact ⟨hs, hpass.imp_right Option.some.inj⟩
  have hsessions :
    w.SessionsFrom { w with store := w.store.deleteAdminSessionsForUser userId (some (hashToken p token')) } :=
    fun hash s hs => ⟨s, (hleft hash s hs).1, rfl⟩
  refine ⟨h.requestNext hi _ _, h.readNext hi _ _, ?_, ?_, ?_, h.storedNext rfl hsessions⟩
  · exact forall_change hi h.hashed (fun _ hgc => hgc) fun hgi => hgi
  · exact forall_change hi h.written (fun _ hgc => hgc) fun hgi => hgi
  · intro gc hgc userId' hu
    rw [Function.update_self] at hgc
    cases hgc
    cases hu
    refine ⟨hwritten, List.mem_append_right _ (List.mem_singleton_self _), ?_⟩
    intro hash j session hmaker huser _ hne
    rw [sessionMaker_quiet rfl] at hmaker
    refine Option.eq_none_iff_forall_ne_some.2 fun s hs => ?_
    obtain ⟨hs, hor⟩ := hleft hash s hs
    rcases hor with hother | hown
    · exact hother ((h.stored hash j session hmaker s hs).trans huser)
    · exact hne hown

/-- A sign-in stores its session: if the change is over, the hash that it has verified is the one of the new password.
-/
theorem LockInv.signIn (hverify : VerifiesOwn p) (h : LockInv p q change token r g w tr)
    (hone : OneChange q change hub token r) (hi : g i = some gi) {session : AdminSessionRecord}
    (hok : gi.Allows p (.saveAdminSession session))
    (hcond : ∀ gc, g change = some gc → session.userId ∈ gc.revoked → ∀ user ∈ gi.read,
      w.passwordHash session.userId = some user.passwordHash) :
    LockInv p q change token r (Function.update g i (some (gi.next (.saveAdminSession session) ())))
      { w with store := w.store.saveAdminSession session } (tr ++ [⟨i, .saveAdminSession session, ()⟩]) := by
  obtain ⟨l, user, hg, hread, hpassword, huser⟩ := hok
  have hmaker : ∀ hash, sessionMaker (tr ++ [⟨i, .saveAdminSession session, ()⟩]) hash =
      if session.sessionTokenHash = hash then some (i, session) else sessionMaker tr hash := by
    intro hash
    rw [sessionMaker_concat]
    rfl
  have hsession : ∀ hash : String, (w.store.saveAdminSession session).adminSessions[hash]? =
      if session.sessionTokenHash = hash then some session else w.store.adminSessions[hash]? := by
    intro hash
    simp only [MemoryState.saveAdminSession, Std.ExtTreeMap.getElem?_insert, Std.compare_eq_iff_eq]
  -- the new session is not of the old password, if the sessions of its user have been deleted
  have hnew : ∀ gc, g change = some gc → session.userId ∈ gc.revoked → ¬ OldLogin q r i := by
    rintro gc hgc hu ⟨hub', l', hq, hold⟩
    obtain ⟨hne, n, hash, hhash, hstored⟩ := h.written gc hgc _ (h.revoked gc hgc _ hu).1
    rw [hcond gc hgc hu user hread] at hstored
    cases hstored
    have hl : Request.loginAdmin l' = gi.request.2 :=
      congrArg Prod.snd (Option.some.inj (hq.symm.trans (h.request i gi hi)))
    rw [hg] at hl
    cases hl
    exact hne (hold.symm.trans ((hverify n r.newPassword _ l.password hhash).1 hpassword))
  have hno : ∀ gc, g change = some gc → ∀ userId ∈ gc.revoked, NoOldSession p q token r userId
      { w with store := w.store.saveAdminSession session } (tr ++ [⟨i, .saveAdminSession session, ()⟩]) := by
    intro gc hgc userId hu hash j session' hm huser' hlogin hne
    rw [hmaker] at hm
    change (w.store.saveAdminSession session).adminSessions[hash]? = none
    rw [hsession]
    split at hm
    · cases hm
      subst huser'
      exact absurd hlogin (hnew gc hgc hu)
    · rw [if_neg (by assumption)]
      exact (h.revoked gc hgc userId hu).2.2 hash j session' hm huser' hlogin hne
  have hic : i ≠ change := by
    rintro rfl
    have hreq := congrArg Prod.snd (Option.some.inj (hone.asked.symm.trans (h.request i gi hi)))
    dsimp only at hreq
    rw [hg] at hreq
    cases hreq
  have hupdate : Function.update g i (some (gi.next (.saveAdminSession session) ())) change = g change :=
    Function.update_of_ne hic.symm _ _
  refine ⟨h.requestNext hi _ _, h.readNext hi _ _, ?_, ?_, ?_, ?_⟩
  · rw [hupdate]
    exact h.hashed
  · rw [hupdate]
    exact h.written
  · rw [hupdate]
    intro gc hgc userId hu
    obtain ⟨hw, he, -⟩ := h.revoked gc hgc userId hu
    exact ⟨hw, List.mem_append_left _ he, hno gc hgc userId hu⟩
  · intro hash j session' hm s hs
    rw [hmaker] at hm
    change (w.store.saveAdminSession session).adminSessions[hash]? = some s at hs
    rw [hsession] at hs
    split at hm
    · cases hm
      rw [if_pos (by assumption)] at hs
      cases hs
      rfl
    · rw [if_neg (by assumption)] at hs
      exact h.stored hash j session' hm s hs

end Invariant

/-! ## Runs -/

section Runs

variable {ι : Type} [DecidableEq ι] {p : Platform} {ms : List (Move ι (Hub × Request))} {change : ι} {hub : Hub}
  {token : String} {r : ChangeAdminPasswordRequest}

theorem spawn_keeps_signing (hone : OneChange (Pool.asked ms) change hub token r) :
    Pool.SpawnKeeps (hubProgram p) (signingSpec p) (LockInv p (Pool.asked ms) change token r) Signing.Returns
      (fun P m => Pool.AsAsked ms P m ∧ HashUnchanged change P m) := by
  intro P g i q hadm hi hF
  have hq := hadm.1 hi
  have hchange : i = change → q = (hub, .changeAdminPassword token r) := by
    rintro rfl
    exact Option.some.inj (hq.symm.trans hone.asked)
  refine ⟨⟨q, none, none, none, none⟩, follows_signing p q ?_, ?_⟩
  · rcases hone.others i q hq with hic | hsigns
    · rw [hchange hic]
      exact .inr ⟨token, r, rfl⟩
    · exact .inl hsigns
  · have hnone := hF.fresh i hi
    -- the change has done nothing if it starts now, and is as it was otherwise
    have hstart : ∀ {R : Signing → Prop}, R ⟨q, none, none, none, none⟩ → (∀ gc, g change = some gc → R gc) →
        ∀ gc, Function.update g i (some ⟨q, none, none, none, none⟩) change = some gc → R gc := by
      intro R hR hg gc hgc
      exact Pool.forall_update (R := fun j gj => j = change → R gj) (fun _ => hR)
        (fun j gj hj hjc => hg gj (hjc ▸ hj)) change gc hgc rfl
    refine ⟨Pool.forall_update hq hF.inv.request, ?_, hstart ?_ hF.inv.hashed, hstart ?_ hF.inv.written,
      hstart ?_ hF.inv.revoked, hF.inv.stored⟩
    · rw [Pool.bind_update_same (by rw [hnone]; rfl)]
      exact hF.inv.read
    · intro hash hh
      cases hh
    · intro userId hu
      cases hu
    · intro userId hu
      cases hu

/-- While the change is about to delete the sessions, it has not deleted them. -/
theorem not_revoked_of_next {P : Pool hubSig (Except AppError Unit) ι World} {g : ι → Option Signing}
    (hF : Pool.Fits (signingSpec p) (LockInv p (Pool.asked ms) change token r) Signing.Returns P g) {userId : Uuid}
    (hnext : userId ∈ (P.next change).bind HubCall.revokedUser) : ∀ gc, g change = some gc → gc.revoked = none := by
  intro gc hgc
  unfold Pool.next at hnext
  split at hnext
  · rename_i c k hthread
    obtain ⟨gc', hgc', hw⟩ := hF.follows change _ hthread
    obtain rfl : gc' = gc := Option.some.inj (hgc'.symm.trans hgc)
    have hok := (Prog.wp_call.1 hw).1
    cases c with
    | deleteAdminSessionsForUser u exclude =>
      obtain ⟨_, _, _, _, hrevoked, _⟩ := hok
      exact hrevoked
    | _ => cases hnext
  · cases hnext

theorem call_keeps_signing (hverify : VerifiesOwn p) (hone : OneChange (Pool.asked ms) change hub token r) :
    Pool.CallKeeps (hubHandler p) (signingSpec p) (LockInv p (Pool.asked ms) change token r) Signing.Returns
      (fun P m => Pool.AsAsked ms P m ∧ HashUnchanged change P m) := by
  intro P g i c k gi hadm hi hgi hok hF
  refine ⟨gi.next c (hubHandler p c P.state).1, rfl, ?_⟩
  have hinv := hF.inv
  have hsame : P.state.SessionsFrom P.state := fun _ s hs => ⟨s, hs, rfl⟩
  cases c with
  | argon2Hash password => exact hinv.hash hone hgi hok
  | saveAdminUser user => exact hinv.write hone hgi hok
  | deleteAdminSessionsForUser userId exclude => exact hinv.revoke hone hgi hok
  | saveAdminSession session =>
    refine hinv.signIn hverify hone hgi hok fun gc hgc hu user huser => ?_
    have hread : user ∈ readUser P.trace i := by
      rw [← congrFun hinv.read i, hgi]
      exact huser
    rcases hadm.2 _ (Pool.next_eq hi) session rfl user hread with hhash | hnext
    · exact hhash
    · rw [not_revoked_of_next hF hnext gc hgc] at hu
      cases hu
  | touchAdminUserLogin userId at' =>
    refine hinv.quiet hgi rfl (fun _ s hs => ⟨s, hs, rfl⟩) (fun u => ?_) rfl rfl rfl
    simp only [World.passwordHash, hubHandler, World.write, MemoryState.touchAdminUserLogin,
      Std.ExtTreeMap.getElem?_modify]
    split
    · rename_i heq
      rw [Std.compare_eq_iff_eq.1 heq, Option.map_map]
      rfl
    · rfl
  | touchAdminSession hash at' =>
    refine hinv.quiet hgi rfl (fun hash' s hs => ?_) (fun _ => rfl) rfl rfl rfl
    rcases Maps.getElem?_modify_eq_some hs with ⟨rfl, old, hold, rfl⟩ | ⟨-, hs⟩
    · exact ⟨old, hold, rfl⟩
    · exact ⟨s, hs, rfl⟩
  | adminUserByUsername username => exact hinv.quiet hgi rfl hsame (fun _ => rfl) rfl rfl rfl
  | adminSessionByTokenHash hash => exact hinv.quiet hgi rfl hsame (fun _ => rfl) rfl rfl rfl
  | newUuid => exact hinv.quiet hgi rfl hsame (fun _ => rfl) rfl rfl rfl
  | utcNow => exact hinv.quiet hgi rfl hsame (fun _ => rfl) rfl rfl rfl
  | _ => exact (hok : False).elim

/-- A token without a stored session is not accepted. -/
theorem authorizeAdminSession_none {w : World} {t : String} (h : w.store.adminSessions[hashToken p t]? = none) :
    ∀ info, (Fallible.run (hubHandler p) (authorizeAdminSession p t) w).1 ≠ .ok info := by
  intro info hrun
  have hwp : wp (aloneSpec p) (authorizeAdminSession p t) (fun _ _ => False) (fun _ _ => True) w := by
    simp only [authorizeAdminSession, repo, wp_bind, wp_okOr, wp_ensure, wp_call_alone, wp_pure, implies_true, and_true,
      true_and]
    intro _ _ context hcontext
    change (w.store.adminSessions[hashToken p t]?.bind _) = some context at hcontext
    rw [h] at hcontext
    cases hcontext
  exact of_run_isOk hwp (by rw [hrun]; rfl)

/-- Once the change has succeeded and every sign-in with the old password has returned, no session that such a sign-in
has made for the user is accepted, but for the one of the change. -/
def LocksOut (p : Platform) (ms : List (Move ι (Hub × Request))) (change : ι) (token : String)
    (r : ChangeAdminPasswordRequest) (P : Pool hubSig (Except AppError Unit) ι World) : Prop :=
  P.result change = some (.ok ()) → (∀ i, OldLogin (Pool.asked ms) r i → (P.result i).isSome) →
    ∃ userId, ⟨change, .deleteAdminSessionsForUser userId (some (hashToken p token)), ()⟩ ∈ P.trace ∧
      ∀ t i session, sessionMaker P.trace (hashToken p t) = some (i, session) → session.userId = userId →
        OldLogin (Pool.asked ms) r i → hashToken p t ≠ hashToken p token →
        ∀ info, (Fallible.run (hubHandler p) (authorizeAdminSession p t) P.state).1 ≠ .ok info

/-- In every run in which a session is stored only while the stored hash is the one that was verified, or while the
change is about to delete the sessions, the change locks out the old password. -/
theorem locks_out_of_unchanged (hverify : VerifiesOwn p)
    (hone : OneChange (Pool.asked ms) change hub token r) (w : World)
    (hms : Pool.Admits (hubHandler p) (hubProgram p) (HashUnchanged change) (Pool.init w) ms) :
    LocksOut p ms change token r (Pool.exec (hubHandler p) (hubProgram p) (Pool.init w) ms) := by
  intro hresult _
  obtain ⟨g, hF⟩ := Pool.invariant (spawn_keeps_signing hone) (call_keeps_signing hverify hone)
    (Pool.fits_init (LockInv.init w)) ms (Pool.admits_and _ _ (Pool.admits_asked _ _ _ ms) hms)
  obtain ⟨gc, hgc, hw⟩ := hF.follows change _ (Pool.threads_of_result hresult)
  have hreturns := (Prog.wp_ret _).1 hw
  have hrequest : gc.request.2 = .changeAdminPassword token r := by
    rw [← Option.some.inj (hone.asked.symm.trans (hF.inv.request change gc hgc))]
  obtain ⟨userId, hu⟩ := Option.isSome_iff_exists.1 (hreturns rfl token r hrequest)
  obtain ⟨-, hevent, hno⟩ := hF.inv.revoked gc hgc userId hu
  refine ⟨userId, hevent, ?_⟩
  intro t i session hmaker huser hlogin hne
  exact authorizeAdminSession_none (hno _ i session hmaker huser hlogin hne)

end Runs

theorem plain_verifiesOwn : VerifiesOwn .plain := by
  intro n password hash raw hhash
  cases hhash
  have hinj : "argon2:" ++ password = "argon2:" ++ raw ↔ raw = password := by
    constructor
    · intro h
      have hlist := congrArg String.toList h
      rw [String.toList_append, String.toList_append] at hlist
      exact (String.toList_inj.1 (List.append_cancel_left hlist)).symm
    · intro h
      rw [h]
  rw [← hinj]
  by_cases heq : "argon2:" ++ password = "argon2:" ++ raw
  · simp [verifyPassword, Platform.plain, heq]
  · have hbeq : ("argon2:" ++ password == "argon2:" ++ raw) = false := beq_eq_false_iff_ne.2 heq
    simp [verifyPassword, Platform.plain, hbeq, heq]

/-- An administrator with one session. -/
def signedIn : World :=
  World.init.serveAll .plain ⟨0, 30⟩ [.ensureAdminUser "admin" "Admin" "secret-1",
    .loginAdmin { username := "admin", password := "secret-1" }]

/-- A token of a session, by the identifiers that were drawn for it. -/
def sessionToken (first second : Uuid) : String := "adm_" ++ Uuid.simple first ++ Uuid.simple second

/-- From the old password to a new one. -/
def newSecret : ChangeAdminPasswordRequest := { currentPassword := "secret-1", newPassword := "secret-2" }

/-- A change with the session of `signedIn`, and a sign-in with the old password. -/
def bothStarted : List (Move Bool (Hub × Request)) :=
  [.spawn true (⟨0, 30⟩, .changeAdminPassword (sessionToken 1 2) newSecret),
    .spawn false (⟨0, 30⟩, .loginAdmin { username := "admin", password := "secret-1" })]

/-- The sign-in comes first. -/
def loginFirst : List (Move Bool (Hub × Request)) :=
  bothStarted ++ List.replicate 10 (Move.go false) ++ List.replicate 8 (Move.go true)

/-- The sign-in has verified the old password when the change begins, and stores its session after it. -/
def loginAcross : List (Move Bool (Hub × Request)) :=
  bothStarted ++ List.replicate 7 (Move.go false) ++ List.replicate 8 (Move.go true) ++ List.replicate 3 (Move.go false)

/-- If the sign-in comes first, its session is not accepted after the change. -/
theorem locks_out_login_first :
      ((Pool.exec (hubHandler .plain) (hubProgram .plain) (Pool.init signedIn) loginFirst).result
      true).map (·.isOk) = some true ∧
    LocksOut .plain loginFirst true (sessionToken 1 2) newSecret
      (Pool.exec (hubHandler .plain) (hubProgram .plain) (Pool.init signedIn) loginFirst) := by
  obtain ⟨hresult, hunchanged⟩ : ((Pool.exec (hubHandler .plain) (hubProgram .plain) (Pool.init signedIn)
        loginFirst).result true).map (·.isOk) = some true ∧
      Pool.Admits (hubHandler .plain) (hubProgram .plain) (HashUnchanged true) (Pool.init signedIn) loginFirst := by
    decide +kernel
  refine ⟨hresult, locks_out_of_unchanged plain_verifiesOwn ⟨rfl, ?_⟩ signedIn hunchanged⟩
  decide +kernel

/-- Both are answered then; the sign-in has stored a session of user 0, and it is accepted. -/
theorem loginAcross_run (P : Pool hubSig (Except AppError Unit) Bool World)
    (hP : Pool.exec (hubHandler .plain) (hubProgram .plain) (Pool.init signedIn) loginAcross = P) :
    (∀ i, (P.result i).map (·.isOk) = some true) ∧ (∀ e ∈ P.trace, ∀ u ∈ e.call.revokedUser, u = 0) ∧
      (sessionMaker P.trace (hashToken .plain (sessionToken 4 5))).map (fun x => (x.1, x.2.userId)) = some (false, 0) ∧
      (Fallible.run (hubHandler .plain) (authorizeAdminSession .plain (sessionToken 4 5)) P.state).1.isOk = true := by
  rw [← hP]
  decide +kernel

/-- If the sign-in crosses the change, its session is accepted afterwards. -/
theorem old_password_session : VerifiesOwn .plain ∧
    OneChange (Pool.asked loginAcross) true ⟨0, 30⟩ (sessionToken 1 2) newSecret ∧
    ¬ LocksOut .plain loginAcross true (sessionToken 1 2) newSecret
      (Pool.exec (hubHandler .plain) (hubProgram .plain) (Pool.init signedIn) loginAcross) := by
  refine ⟨plain_verifiesOwn, ⟨rfl, by decide⟩, fun h => ?_⟩
  generalize hP : Pool.exec (hubHandler .plain) (hubProgram .plain) (Pool.init signedIn) loginAcross = P at h
  obtain ⟨hreturned, hall, hmaker, haccepted⟩ := loginAcross_run P hP
  have hresult : ∀ i, P.result i = some (.ok ()) := by
    intro i
    obtain ⟨out, hout, hok⟩ := Option.map_eq_some_iff.1 (hreturned i)
    cases out with
    | error e => cases hok
    | ok _ => exact hout
  obtain ⟨userId, hevent, hno⟩ := h (hresult true) fun i _ => by rw [hresult i]; rfl
  have huser : userId = 0 := hall _ hevent userId rfl
  obtain ⟨⟨i, session⟩, hm, hi⟩ := Option.map_eq_some_iff.1 hmaker
  obtain ⟨rfl, hsession⟩ := Prod.mk.inj hi
  have hrejected := hno (sessionToken 4 5) false session hm (hsession.trans huser.symm) ⟨_, _, rfl, rfl⟩
    (by decide +kernel)
  cases hrun : (Fallible.run (hubHandler .plain) (authorizeAdminSession .plain (sessionToken 4 5)) P.state).1 with
  | error e =>
    rw [hrun] at haccepted
    cases haccepted
  | ok info => exact hrejected info hrun

end PingoraMesh
