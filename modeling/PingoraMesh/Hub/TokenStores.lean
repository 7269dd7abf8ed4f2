import PingoraMesh.Hub.MemoryTokens
import PingoraMesh.Hub.RedisTokens
import PingoraMesh.Lib.Prog

/-!
# The two token stores

The same requests run one after another on two hubs, one over `MemoryTokenStore` and one over `RedisTokenStore`. Each
request runs at one time, which both hubs and the Redis server read, and both hubs draw the same random identifiers. The
lifetime of the tokens is given with each request; the source asks for a day.

* `Issues` says what both stores are for: the pair that each node was last issued, when, and for how long. `HoldsAll`:
  the memory store has the leases of all pairs, expired or not; `HoldsLive`: Redis has those that are within their
  lifetime in whole seconds.
* `step_matches`: a request is answered alike and keeps both stores with the issues, unless it comes late.
* `same_answers_iff`: so the hubs answer alike all along if and only if no request comes late (`Late`): with a current
  token whose lifetime is over for Redis, but not for the hub over the memory store.
-/

namespace PingoraMesh

open Calls Fallible HubService

/-! ## Two hubs -/

/-- The platform at one time. -/
def Platform.at (p : Platform) (now : DateTime) : Platform := { p with clock := fun _ => now }

section Hubs

variable (p : Platform) (now : DateTime) (ttl : Int)

/-- A hub over `MemoryTokenStore`. -/
def memoryHub : Handler hubSig World := fun c w =>
  match c with
  | .issueTokens nodeId _ => issueTokensCall (p.at now) nodeId ttl w
  | c => hubHandler (p.at now) c w

/-- The Redis server, as a hub at one time sees it. -/
abbrev redisAt : Handler redisSig Redis := redisHandler (p.at now) fun _ => now

/-- A hub over `RedisTokenStore`. -/
def redisHub : Handler hubSig (World × Redis) := fun c g =>
  match c with
  | .issueTokens nodeId _ =>
    let out := Prog.run (redisAt p now) (RedisTokenStore.issueTokens nodeId ttl) { g.2 with nextUuid := g.1.nextUuid }
    (out.1, { g.1 with nextUuid := out.2.nextUuid, tick := g.1.tick + 1 }, out.2)
  | .accessLease accessToken =>
    let out := Prog.run (redisAt p now) (RedisTokenStore.accessLease accessToken) g.2
    (out.1, g.1, out.2)
  | .refreshLease refreshToken =>
    let out := Prog.run (redisAt p now) (RedisTokenStore.refreshLease refreshToken) g.2
    (out.1, g.1, out.2)
  | .revokeTokens nodeId =>
    let out := Prog.run (redisAt p now) (RedisTokenStore.revokeTokens nodeId) g.2
    (out.1, g.1, out.2)
  | c => ((hubHandler (p.at now) c g.1).1, (hubHandler (p.at now) c g.1).2, g.2)

end Hubs

/-- A request that has to do with tokens. -/
inductive TokenQuery where
  | register (request : NodeRegisterRequest)
  | refresh (request : NodeRefreshRequest)
  | authorize (nodeId : Uuid) (accessToken : String)
  | revoke (nodeId : Uuid)
  | delete (nodeId : Uuid)

/-- A request, with its time and the lifetime of the tokens that it may issue. -/
structure TokenStep where
  now : DateTime
  ttl : Int
  query : TokenQuery

/-- The program of a request. -/
def TokenQuery.program (p : Platform) : TokenQuery → HubM Unit
  | .register request => do
    let _ ← registerNode p request
    return ()
  | .refresh request => do
    let _ ← refreshNodeToken request
    return ()
  | .authorize nodeId accessToken => authorizeNode nodeId accessToken
  | .revoke nodeId => repo (.revokeTokens nodeId)
  | .delete nodeId => do
    let _ ← deleteNode nodeId
    return ()

/-- The answers to these requests are compared. -/
def TokenQuery.Asks : TokenQuery → Prop
  | .refresh _ | .authorize _ _ => True
  | _ => False

/-! ## What was issued -/

/-- A pair of tokens, when it was issued, and for how long. -/
structure IssuedPair where
  accessToken : String
  refreshToken : String
  issuedAt : DateTime
  ttl : Int

namespace IssuedPair

/-- The token of a kind. -/
def token (issue : IssuedPair) : TokenKind → String
  | .access => issue.accessToken
  | .refresh => issue.refreshToken

/-- The time that is written in the leases. -/
def expiresAt (issue : IssuedPair) : DateTime := issue.issuedAt + issue.ttl

/-- The time at which the keys go: the lifetime is given to Redis in whole seconds. -/
def deadline (issue : IssuedPair) : DateTime :=
  issue.issuedAt + DateTime.seconds (max (Int.tdiv issue.ttl DateTime.nanosPerSecond) 1)

/-- The lease of a node. -/
def lease (issue : IssuedPair) (nodeId : Uuid) : TokenLease := { nodeId := nodeId, expiresAt := issue.expiresAt }

/-- The pair, as it was given to the node. -/
def tokens (issue : IssuedPair) : IssuedTokens :=
  { accessToken := issue.accessToken, refreshToken := issue.refreshToken, expiresAt := issue.expiresAt }

end IssuedPair

/-- The pair that each node was last issued, unless it was revoked. -/
abbrev Issues := Uuid → Option IssuedPair

/-- What a call and its answer tell of the issues. -/
def Issues.see (now : DateTime) (ttl : Int) (issues : Issues) : (c : HubCall) → c.Ans → Issues
  | .issueTokens nodeId _, (t : IssuedTokens) =>
    Function.update issues nodeId (some
      { accessToken := t.accessToken, refreshToken := t.refreshToken, issuedAt := now, ttl := ttl })
  | .revokeTokens nodeId, _ => Function.update issues nodeId none
  | _, _ => issues

/-- The hub over the memory store, with the issues watched. -/
abbrev watchedHub (p : Platform) (now : DateTime) (ttl : Int) : Handler hubSig (World × Issues) :=
  Prog.observing (memoryHub p now ttl) (Issues.see now ttl)

/-! ## Runs -/

section Runs

variable (p : Platform)

/-- The hub over the memory store runs a request. -/
def TokenStep.onMemory (step : TokenStep) (g : World × Issues) : Except AppError Unit × World × Issues :=
  Fallible.run (watchedHub p step.now step.ttl) (step.query.program p) g

/-- The hub over Redis runs a request. -/
def TokenStep.onRedis (step : TokenStep) (h : World × Redis) : Except AppError Unit × World × Redis :=
  Fallible.run (redisHub p step.now step.ttl) (step.query.program p) h

/-- From these states on, the two hubs answer the requests alike. -/
def SameAnswers : World × Issues → World × Redis → List TokenStep → Prop
  | _, _, [] => True
  | g, h, step :: steps =>
    (step.query.Asks → (step.onMemory p g).1.isOk = (step.onRedis p h).1.isOk) ∧
      SameAnswers (step.onMemory p g).2 (step.onRedis p h).2 steps

/-- A request comes late: with the current refresh token of its node, when the lifetime of that is over in whole
seconds; or with the current access token of a node that exists, when that is so but the time in the lease has not
passed. -/
def TokenStep.Late (step : TokenStep) (g : World × Issues) : Prop :=
  match step.query with
  | .refresh request => ∃ issue ∈ g.2 request.nodeId, issue.refreshToken = request.refreshToken ∧
      issue.deadline ≤ step.now
  | .authorize nodeId accessToken => ∃ issue ∈ g.2 nodeId, issue.accessToken = accessToken ∧
      issue.deadline ≤ step.now ∧ step.now ≤ issue.expiresAt ∧ nodeId ∈ g.1.store.nodes
  | _ => False

/-- No request of the sequence comes late. -/
def NeverLate : World × Issues → List TokenStep → Prop
  | _, [] => True
  | g, step :: steps => ¬ step.Late g ∧ NeverLate (step.onMemory p g).2 steps

end Runs

/-! ## What the Redis commands leave -/

/-- The token of a kind that is issued next. -/
def nextToken (next : Nat) : TokenKind → String
  | .access => "node-at-" ++ Uuid.hyphenated next
  | .refresh => "node-rt-" ++ Uuid.hyphenated (next + 1)

section Redis

variable {now : DateTime} {r : Redis} {n : Uuid}

/-- The keys of the server. -/
abbrev RedisData := (k : RedisKey) → Option (Stored k.Val)

theorem find_eq_some {k : RedisKey} {v : k.Val} :
    r.find now k = some v ↔ ∃ d, r.data k = some ⟨v, d⟩ ∧ now < d := by
  unfold Redis.find
  rw [Option.map_eq_some_iff]
  constructor
  · rintro ⟨⟨v', d⟩, he, rfl⟩
    obtain ⟨he, hd⟩ := Option.filter_eq_some_iff.1 he
    exact ⟨d, he, of_decide_eq_true hd⟩
  · rintro ⟨d, he, hd⟩
    exact ⟨⟨v, d⟩, Option.filter_eq_some_iff.2 ⟨he, decide_eq_true hd⟩, rfl⟩

/-- The keys without the lease of a token. -/
def withoutLease (kind : TokenKind) (token : Option String) (data : RedisData) : RedisData :=
  match token with
  | some t => Function.update data (.lease kind t) none
  | none => data

theorem withoutLease_lease (kind : TokenKind) (old : Option String) (data : RedisData)
    (token : String) :
    withoutLease kind old data (.lease kind token) = if old = some token then none else data (.lease kind token) := by
  cases old with
  | none => simp [withoutLease]
  | some t =>
    by_cases ht : t = token
    · subst ht
      simp [withoutLease]
    · rw [if_neg (by simpa using ht)]
      exact Function.update_of_ne (by simpa using Ne.symm ht) ..

theorem withoutLease_of_ne {kind : TokenKind} {k : RedisKey} (hk : ∀ t, k ≠ .lease kind t) (old : Option String)
    (data : RedisData) : withoutLease kind old data k = data k := by
  cases old with
  | none => rfl
  | some t => exact Function.update_of_ne (hk t) ..

/-- The keys without the leases of two tokens. -/
def withoutLeases (old : TokenKind → Option String) (data : RedisData) : RedisData :=
  withoutLease .refresh (old .refresh) (withoutLease .access (old .access) data)

theorem withoutLeases_lease (old : TokenKind → Option String) (data : RedisData)
    (kind : TokenKind) (token : String) :
    withoutLeases old data (.lease kind token) =
      if old kind = some token then none else data (.lease kind token) := by
  cases kind with
  | access => rw [withoutLeases, withoutLease_of_ne (by simp), withoutLease_lease]
  | refresh => rw [withoutLeases, withoutLease_lease, withoutLease_of_ne (by simp)]

theorem withoutLeases_current (old : TokenKind → Option String) (data : RedisData)
    (kind : TokenKind) (n : Uuid) : withoutLeases old data (.current kind n) = data (.current kind n) := by
  rw [withoutLeases, withoutLease_of_ne (by simp), withoutLease_of_ne (by simp)]

/-- The keys after the pair of a node is set. -/
def withPair (n : Uuid) (pair : TokenKind → String) (lease : TokenLease) (deadline : DateTime)
    (data : RedisData) : RedisData :=
  Function.update (Function.update (Function.update (Function.update data
    (.lease .access (pair .access)) (some ⟨lease, deadline⟩)) (.lease .refresh (pair .refresh))
      (some ⟨lease, deadline⟩))
    (.current .access n) (some ⟨pair .access, deadline⟩)) (.current .refresh n) (some ⟨pair .refresh, deadline⟩)

theorem withPair_lease (n : Uuid) (pair : TokenKind → String) (lease : TokenLease) (deadline : DateTime)
    (data : RedisData) (kind : TokenKind) (token : String) :
    withPair n pair lease deadline data (.lease kind token) =
      if token = pair kind then some ⟨lease, deadline⟩ else data (.lease kind token) := by
  by_cases ht : token = pair kind
  · subst ht
    rw [if_pos rfl]
    cases kind <;> simp [withPair]
  · rw [if_neg ht]
    cases kind <;> simp [withPair, ht]

theorem withPair_current (n : Uuid) (pair : TokenKind → String) (lease : TokenLease) (deadline : DateTime)
    (data : RedisData) (kind : TokenKind) (m : Uuid) :
    withPair n pair lease deadline data (.current kind m) =
      if m = n then some ⟨pair kind, deadline⟩ else data (.current kind m) := by
  by_cases hm : m = n
  · subst hm
    rw [if_pos rfl]
    cases kind <;> simp [withPair]
  · rw [if_neg hm]
    cases kind <;> simp [withPair, hm]

theorem run_get (p : Platform) (now : DateTime) (kind : TokenKind) (n : Uuid) (r : Redis) :
    Prog.run (α := Option String) (redisAt p now) (RedisTokenStore.ask (.get (.current kind n))) r =
      (r.find now (.current kind n), { r with tick := r.tick + 1 }) := rfl

theorem find_tick (r : Redis) (tick : Nat) (now : DateTime) (k : RedisKey) :
    Redis.find { r with tick := tick } now k = r.find now k := rfl

/-- What `issue_tokens` gives, and what it leaves in Redis. -/
theorem run_issueTokens (p : Platform) (now : DateTime) (n : Uuid) (ttl : Int) (r : Redis) :
    let out := Prog.run (redisAt p now) (RedisTokenStore.issueTokens n ttl) r
    (out.1 = { accessToken := nextToken r.nextUuid .access, refreshToken := nextToken r.nextUuid .refresh
               expiresAt := now + ttl } ∧ out.2.nextUuid = r.nextUuid + 2) ∧
    out.2.data = withPair n (nextToken r.nextUuid) { nodeId := n, expiresAt := now + ttl }
      (now + DateTime.seconds (max (Int.tdiv ttl DateTime.nanosPerSecond) 1))
      (withoutLeases (fun kind => r.find now (.current kind n)) r.data) := by
  simp only [RedisTokenStore.issueTokens, Prog.run_bind, run_get, find_tick, withoutLeases]
  generalize r.find now (.current .access n) = a
  generalize r.find now (.current .refresh n) = b
  cases a with
  | none =>
    cases b with
    | none => exact ⟨⟨rfl, rfl⟩, rfl⟩
    | some b => exact ⟨⟨rfl, rfl⟩, rfl⟩
  | some a =>
    cases b with
    | none => exact ⟨⟨rfl, rfl⟩, rfl⟩
    | some b => exact ⟨⟨rfl, rfl⟩, rfl⟩

/-- The keys without the pointers of a node. -/
def withoutPointers (n : Uuid) (data : RedisData) : RedisData :=
  Function.update (Function.update data (.current .access n) none) (.current .refresh n) none

theorem withoutPointers_lease (n : Uuid) (data : RedisData) (kind : TokenKind)
    (token : String) : withoutPointers n data (.lease kind token) = data (.lease kind token) := by
  simp [withoutPointers]

theorem withoutPointers_current (n : Uuid) (data : RedisData) (kind : TokenKind) (m : Uuid) :
    withoutPointers n data (.current kind m) = if m = n then none else data (.current kind m) := by
  by_cases hm : m = n
  · subst hm
    cases kind <;> simp [withoutPointers]
  · rw [if_neg hm]
    cases kind <;> simp [withoutPointers, hm]

/-- What `revoke_tokens` leaves in Redis. -/
theorem run_revokeTokens (p : Platform) (now : DateTime) (n : Uuid) (r : Redis) :
    let out := Prog.run (redisAt p now) (RedisTokenStore.revokeTokens n) r
    out.2.nextUuid = r.nextUuid ∧
    out.2.data = withoutLeases (fun kind => r.find now (.current kind n)) (withoutPointers n r.data) := by
  simp only [RedisTokenStore.revokeTokens, Prog.run_bind, run_get, find_tick, withoutLeases]
  generalize r.find now (.current .access n) = a
  generalize r.find now (.current .refresh n) = b
  cases a with
  | none =>
    cases b with
    | none => exact ⟨rfl, rfl⟩
    | some b => exact ⟨rfl, rfl⟩
  | some a =>
    cases b with
    | none => exact ⟨rfl, rfl⟩
    | some b => exact ⟨rfl, rfl⟩

end Redis

/-! ## Redis holds the pairs within their lifetime -/

/-- The leases and the pointers that have not gone yet are those of the pairs within their lifetime. -/
structure HoldsLive (now : DateTime) (issues : Issues) (data : RedisData) : Prop where
  lease : ∀ kind token (e : Stored TokenLease), (data (.lease kind token) = some e ∧ now < e.deadline) ↔
    ∃ (n : Uuid) (issue : IssuedPair), issues n = some issue ∧ issue.token kind = token ∧
      e = ⟨issue.lease n, issue.deadline⟩ ∧ now < issue.deadline
  pointer : ∀ kind (n : Uuid) (e : Stored String), (data (.current kind n) = some e ∧ now < e.deadline) ↔
    ∃ issue : IssuedPair, issues n = some issue ∧ e = ⟨issue.token kind, issue.deadline⟩ ∧ now < issue.deadline

section HoldsLive

variable {now : DateTime} {issues : Issues} {data : RedisData} {n : Uuid}

theorem HoldsLive.empty : HoldsLive now (fun _ => none) Redis.init.data where
  lease kind token e := by simp [Redis.init]
  pointer kind n e := by simp [Redis.init]

/-- Time passes. -/
theorem HoldsLive.later (h : HoldsLive now issues data) {later : DateTime} (hle : now ≤ later) :
    HoldsLive later issues data where
  lease kind token e := by
    constructor
    · rintro ⟨he, hlater⟩
      obtain ⟨n, issue, hn, htoken, rfl, -⟩ := (h.lease kind token e).1 ⟨he, lt_of_le_of_lt hle hlater⟩
      exact ⟨n, issue, hn, htoken, rfl, hlater⟩
    · rintro ⟨n, issue, hn, htoken, rfl, hlater⟩
      exact ⟨((h.lease kind token _).2 ⟨n, issue, hn, htoken, rfl, lt_of_le_of_lt hle hlater⟩).1, hlater⟩
  pointer kind n e := by
    constructor
    · rintro ⟨he, hlater⟩
      obtain ⟨issue, hn, rfl, -⟩ := (h.pointer kind n e).1 ⟨he, lt_of_le_of_lt hle hlater⟩
      exact ⟨issue, hn, rfl, hlater⟩
    · rintro ⟨issue, hn, rfl, hlater⟩
      exact ⟨((h.pointer kind n _).2 ⟨issue, hn, rfl, lt_of_le_of_lt hle hlater⟩).1, hlater⟩

/-- A pointer that is found names the token of its node. -/
theorem HoldsLive.find_current {r : Redis} (h : HoldsLive now issues r.data) {kind : TokenKind} {token : String} :
    r.find now (.current kind n) = some token ↔
      ∃ issue : IssuedPair, issues n = some issue ∧ issue.token kind = token ∧ now < issue.deadline := by
  rw [find_eq_some]
  constructor
  · rintro ⟨d, hd, hlive⟩
    obtain ⟨issue, hn, he, hlive⟩ := (h.pointer kind n ⟨token, d⟩).1 ⟨hd, hlive⟩
    cases he
    exact ⟨issue, hn, rfl, hlive⟩
  · rintro ⟨issue, hn, rfl, hlive⟩
    exact ⟨issue.deadline, ((h.pointer kind n _).2 ⟨issue, hn, rfl, hlive⟩).1, hlive⟩

/-- A lease that is found is one of a pair within its lifetime. -/
theorem HoldsLive.find_lease {r : Redis} (h : HoldsLive now issues r.data) {kind : TokenKind} {token : String}
    {lease : TokenLease} : r.find now (.lease kind token) = some lease ↔
      ∃ (n : Uuid) (issue : IssuedPair), issues n = some issue ∧ issue.token kind = token ∧ lease = issue.lease n ∧
        now < issue.deadline := by
  rw [find_eq_some]
  constructor
  · rintro ⟨d, hd, hlive⟩
    obtain ⟨n, issue, hn, htoken, he, hlive⟩ := (h.lease kind token ⟨lease, d⟩).1 ⟨hd, hlive⟩
    cases he
    exact ⟨n, issue, hn, htoken, rfl, hlive⟩
  · rintro ⟨n, issue, hn, htoken, rfl, hlive⟩
    exact ⟨issue.deadline, ((h.lease kind token _).2 ⟨n, issue, hn, htoken, rfl, hlive⟩).1, hlive⟩

/-- The pair of a node goes, with the leases that its pointers name. -/
theorem HoldsLive.clear {r : Redis} (h : HoldsLive now issues r.data)
    (hinj : ∀ kind m m' i i', issues m = some i → issues m' = some i' → i.token kind = i'.token kind →
      m = m') (n : Uuid) :
    HoldsLive now (Function.update issues n none)
      (withoutLeases (fun kind => r.find now (.current kind n)) (withoutPointers n r.data)) where
  lease kind token e := by
    rw [withoutLeases_lease, withoutPointers_lease]
    by_cases hold : r.find now (.current kind n) = some token
    · rw [if_pos hold]
      refine iff_of_false (by simp) ?_
      rintro ⟨m, i, hm, htoken, -, -⟩
      obtain ⟨issue, hn, htoken', -⟩ := h.find_current.1 hold
      by_cases hmn : m = n
      · subst hmn
        rw [Function.update_self] at hm
        cases hm
      · rw [Function.update_of_ne hmn] at hm
        exact hmn (hinj kind m n i issue hm hn (htoken.trans htoken'.symm))
    · rw [if_neg hold, h.lease kind token e]
      constructor
      · rintro ⟨m, i, hm, htoken, he, hlive⟩
        have hmn : m ≠ n := by
          rintro rfl
          exact hold (h.find_current.2 ⟨i, hm, htoken, hlive⟩)
        exact ⟨m, i, (Function.update_of_ne hmn ..).trans hm, htoken, he, hlive⟩
      · rintro ⟨m, i, hm, hrest⟩
        by_cases hmn : m = n
        · subst hmn
          rw [Function.update_self] at hm
          cases hm
        · rw [Function.update_of_ne hmn] at hm
          exact ⟨m, i, hm, hrest⟩
  pointer kind m e := by
    rw [withoutLeases_current, withoutPointers_current]
    by_cases hmn : m = n
    · subst hmn
      simp
    · rw [if_neg hmn, Function.update_of_ne hmn]
      exact h.pointer kind m e

/-- A node without a pair gets one, of fresh tokens. -/
theorem HoldsLive.add (h : HoldsLive now issues data) (hnone : issues n = none) {issue : IssuedPair}
    (hfresh : ∀ kind m i, issues m = some i → i.token kind ≠ issue.token kind) :
    HoldsLive now (Function.update issues n (some issue))
      (withPair n issue.token (issue.lease n) issue.deadline data) where
  lease kind token e := by
    rw [withPair_lease]
    by_cases htoken : token = issue.token kind
    · rw [if_pos htoken]
      constructor
      · rintro ⟨he, hlive⟩
        cases he
        exact ⟨n, issue, Function.update_self .., htoken.symm, rfl, hlive⟩
      · rintro ⟨m, i, hm, hi, rfl, hlive⟩
        by_cases hmn : m = n
        · subst hmn
          rw [Function.update_self] at hm
          cases hm
          exact ⟨rfl, hlive⟩
        · rw [Function.update_of_ne hmn] at hm
          exact absurd (hi.trans htoken) (hfresh kind m i hm)
    · rw [if_neg htoken, h.lease kind token e]
      constructor
      · rintro ⟨m, i, hm, hrest⟩
        have hmn : m ≠ n := by
          rintro rfl
          rw [hnone] at hm
          cases hm
        exact ⟨m, i, (Function.update_of_ne hmn ..).trans hm, hrest⟩
      · rintro ⟨m, i, hm, hi, hrest⟩
        by_cases hmn : m = n
        · subst hmn
          rw [Function.update_self] at hm
          cases hm
          exact absurd hi.symm htoken
        · rw [Function.update_of_ne hmn] at hm
          exact ⟨m, i, hm, hi, hrest⟩
  pointer kind m e := by
    rw [withPair_current]
    by_cases hmn : m = n
    · subst hmn
      rw [if_pos rfl, Function.update_self]
      constructor
      · rintro ⟨he, hlive⟩
        cases he
        exact ⟨issue, rfl, rfl, hlive⟩
      · rintro ⟨i, hi, rfl, hlive⟩
        cases hi
        exact ⟨rfl, hlive⟩
    · rw [if_neg hmn, Function.update_of_ne hmn]
      exact h.pointer kind m e

/-- Setting a pair sets the pointers too, so it does not matter whether they were deleted before. -/
theorem withPair_withoutPointers (n : Uuid) (pair : TokenKind → String) (lease : TokenLease) (deadline : DateTime)
    (old : TokenKind → Option String) (data : RedisData) :
    withPair n pair lease deadline (withoutLeases old data) =
      withPair n pair lease deadline (withoutLeases old (withoutPointers n data)) := by
  funext k
  cases k with
  | lease kind token =>
    rw [withPair_lease, withPair_lease, withoutLeases_lease, withoutLeases_lease, withoutPointers_lease]
  | current kind m =>
    rw [withPair_current, withPair_current, withoutLeases_current, withoutLeases_current, withoutPointers_current]
    split
    · rfl
    · rfl

end HoldsLive

/-! ## The memory store holds all pairs -/

/-- The current tokens are those of the issues, and the leases of the access tokens have their times. -/
structure HoldsAll (issues : Issues) (w : World) : Prop where
  pairs : PairInv w fun n => (issues n).map IssuedPair.tokens
  access : ∀ (t : String) (lease : TokenLease), w.tokens.access[t]? = some lease →
    ∃ issue : IssuedPair, issues lease.nodeId = some issue ∧ lease.expiresAt = issue.expiresAt

section HoldsAll

variable {p : Platform} {now : DateTime} {ttl : Int} {issues : Issues} {w : World} {n : Uuid}

theorem HoldsAll.empty (w : World) : HoldsAll (fun _ => none) w.tokenless where
  pairs := PairInv.tokenless w
  access t lease h := by simp [World.tokenless] at h

/-- A token is leased to the node whose current one it is. -/
theorem HoldsAll.leased (h : HoldsAll issues w) {t : String} :
    (w.tokens.access[t]?.map (·.nodeId) = some n ↔ ∃ issue, issues n = some issue ∧ issue.accessToken = t) ∧
      (w.tokens.refresh[t]?.map (·.nodeId) = some n ↔ ∃ issue, issues n = some issue ∧ issue.refreshToken = t) := by
  constructor
  · rw [h.pairs.access t n, h.pairs.liveAccess n]
    cases issues n <;> simp [IssuedPair.tokens]
  · rw [h.pairs.refresh t n, h.pairs.liveRefresh n]
    cases issues n <;> simp [IssuedPair.tokens]

/-- The access leases are those of the issues. -/
theorem HoldsAll.access_eq (h : HoldsAll issues w) {t : String} {lease : TokenLease} :
    w.tokens.access[t]? = some lease ↔
      ∃ (n : Uuid) (issue : IssuedPair), issues n = some issue ∧ issue.accessToken = t ∧ lease = issue.lease n := by
  constructor
  · intro ht
    obtain ⟨issue, hn, htoken⟩ := (h.leased (n := lease.nodeId)).1.1 (by rw [ht]; rfl)
    obtain ⟨issue', hn', hexpires⟩ := h.access t lease ht
    cases Option.some.inj (hn.symm.trans hn')
    refine ⟨lease.nodeId, issue, hn, htoken, ?_⟩
    rw [IssuedPair.lease, ← hexpires]
  · rintro ⟨n, issue, hn, rfl, rfl⟩
    obtain ⟨lease, ht, hnode⟩ := Option.map_eq_some_iff.1 (h.leased.1.2 ⟨issue, hn, rfl⟩)
    obtain ⟨issue', hn', hexpires⟩ := h.access _ lease ht
    rw [hnode, hn] at hn'
    cases hn'
    rw [ht, IssuedPair.lease, ← hexpires, ← hnode]

/-- Two nodes have no current token in common. -/
theorem HoldsAll.token_inj (h : HoldsAll issues w) (kind : TokenKind) (m m' : Uuid) (i i' : IssuedPair)
    (hm : issues m = some i) (hm' : issues m' = some i') (ht : i.token kind = i'.token kind) : m = m' := by
  cases kind with
  | access =>
    have hl := (h.leased (t := i.accessToken) (n := m)).1.2 ⟨i, hm, rfl⟩
    have hl' := (h.leased (t := i.accessToken) (n := m')).1.2 ⟨i', hm', ht.symm⟩
    exact Option.some.inj (hl.symm.trans hl')
  | refresh =>
    have hl := (h.leased (t := i.refreshToken) (n := m)).2.2 ⟨i, hm, rfl⟩
    have hl' := (h.leased (t := i.refreshToken) (n := m')).2.2 ⟨i', hm', ht.symm⟩
    exact Option.some.inj (hl.symm.trans hl')

/-- The next tokens are fresh. -/
theorem HoldsAll.token_ne_next (h : HoldsAll issues w) (kind : TokenKind) (m : Uuid) (i : IssuedPair)
    (hm : issues m = some i) : i.token kind ≠ nextToken w.nextUuid kind := by
  intro ht
  cases kind with
  | access =>
    have hl := (h.leased (n := m)).1.2 ⟨i, hm, ht⟩
    rw [nextToken, h.pairs.drawnAccess.fresh le_rfl] at hl
    cases hl
  | refresh =>
    have hl := (h.leased (n := m)).2.2 ⟨i, hm, ht⟩
    rw [nextToken, h.pairs.drawnRefresh.fresh (Nat.le_succ _)] at hl
    cases hl

theorem map_update (issues : Issues) (n : Uuid) (o : Option IssuedPair) :
    (fun m => (Function.update issues n o m).map IssuedPair.tokens) =
      Function.update (fun m => (issues m).map IssuedPair.tokens) n (o.map IssuedPair.tokens) := by
  funext m
  by_cases hm : m = n
  · subst hm
    rw [Function.update_self, Function.update_self]
  · rw [Function.update_of_ne hm, Function.update_of_ne hm]

/-- The tokens of a node are revoked. -/
theorem HoldsAll.revoke (h : HoldsAll issues w) (n : Uuid) :
    HoldsAll (Function.update issues n none) { w with tokens := w.tokens.revokeTokens n } where
  pairs := by
    rw [map_update]
    exact h.pairs.revoke n
  access t lease ht := by
    obtain ⟨ht, hne⟩ := (h.pairs.access.getElem?_withoutCurrent n t lease).1 ht
    rw [Function.update_of_ne hne]
    exact h.access t lease ht

/-- What a node is issued. -/
def nextIssue (now : DateTime) (ttl : Int) (next : Nat) : IssuedPair where
  accessToken := nextToken next .access
  refreshToken := nextToken next .refresh
  issuedAt := now
  ttl := ttl

/-- Tokens are issued to a node. -/
theorem HoldsAll.issue (h : HoldsAll issues w) (n : Uuid) :
    HoldsAll (Function.update issues n (some (nextIssue now ttl w.nextUuid)))
      (issueTokensCall (p.at now) n ttl w).2 where
  pairs := by
    rw [map_update]
    exact h.pairs.issue n ttl
  access t lease ht := by
    rcases Maps.getElem?_insert_eq_some ht with ⟨-, rfl⟩ | ⟨-, ht⟩
    · exact ⟨nextIssue now ttl w.nextUuid, Function.update_self .., rfl⟩
    · obtain ⟨ht, hne⟩ := (h.pairs.access.getElem?_withoutCurrent n t lease).1 ht
      rw [Function.update_of_ne hne]
      exact h.access t lease ht

/-- What leaves the tokens and the identifiers leaves this. -/
theorem HoldsAll.frame {w' : World} (h : HoldsAll issues w) (ht : w'.tokens = w.tokens)
    (hu : w'.nextUuid = w.nextUuid) : HoldsAll issues w' where
  pairs := h.pairs.frame ht hu.ge
  access := by rw [ht]; exact h.access

end HoldsAll

/-! ## Calls on both hubs -/

/-- The hubs share everything but the tokens, and both token stores are with the issues. -/
structure Matched (now : DateTime) (g : World × Issues) (h : World × Redis) : Prop where
  store : h.1.store = g.1.store
  uuids : h.1.nextUuid = g.1.nextUuid
  all : HoldsAll g.2 g.1
  live : HoldsLive now g.2 h.2.data

/-- The calls that both hubs answer alike; tokens are asked for a day. -/
def HubCall.Alike : HubCall → Prop
  | .node _ | .nodeIdByCode _ | .saveNode _ | .nodeDeleteGuard _ | .deleteNode _ | .utcNow | .revokeTokens _ => True
  | .issueTokens _ asked => asked = DateTime.hours 24
  | _ => False

section Calls

variable {p : Platform} {now : DateTime} {ttl : Int} {g : World × Issues} {h : World × Redis}

/-- Tokens are issued on both hubs. -/
theorem Matched.issue (hm : Matched now g h) (n : Uuid) (asked : Int) :
    (watchedHub p now ttl (.issueTokens n asked) g).1 = (redisHub p now ttl (.issueTokens n asked) h).1 ∧
      Matched now (watchedHub p now ttl (.issueTokens n asked) g).2
        (redisHub p now ttl (.issueTokens n asked) h).2 := by
  obtain ⟨⟨hans, huuid⟩, hdata⟩ := run_issueTokens p now n ttl { h.2 with nextUuid := h.1.nextUuid }
  rw [hm.uuids] at hans huuid hdata
  refine ⟨?_, ?_⟩
  · show _ = (Prog.run (redisAt p now) (RedisTokenStore.issueTokens n ttl) { h.2 with nextUuid := h.1.nextUuid }).1
    rw [hm.uuids, hans]
    rfl
  · refine ⟨hm.store, ?_, hm.all.issue n, ?_⟩
    · show (Prog.run (redisAt p now) (RedisTokenStore.issueTokens n ttl)
        { h.2 with nextUuid := h.1.nextUuid }).2.nextUuid = _
      rw [hm.uuids, huuid]
      rfl
    · have hold : HoldsLive now (Function.update g.2 n none)
          (withoutLeases (fun kind => h.2.find now (.current kind n)) (withoutPointers n h.2.data)) :=
        hm.live.clear hm.all.token_inj n
      have hfresh : ∀ kind m i, Function.update g.2 n none m = some i →
          i.token kind ≠ (nextIssue now ttl g.1.nextUuid).token kind := by
        intro kind m i hi
        by_cases hmn : m = n
        · subst hmn
          rw [Function.update_self] at hi
          cases hi
        · rw [Function.update_of_ne hmn] at hi
          have hne := hm.all.token_ne_next kind m i hi
          cases kind with
          | access => exact hne
          | refresh => exact hne
      have hnew := hold.add (Function.update_self ..) hfresh
      rw [Function.update_idem, ← withPair_withoutPointers] at hnew
      show HoldsLive now (Function.update g.2 n (some (nextIssue now ttl g.1.nextUuid)))
        (Prog.run (redisAt p now) (RedisTokenStore.issueTokens n ttl) { h.2 with nextUuid := h.1.nextUuid }).2.data
      rw [hm.uuids, hdata]
      have hpair : (nextIssue now ttl g.1.nextUuid).token = nextToken g.1.nextUuid := by
        funext kind
        cases kind <;> rfl
      rw [← hpair]
      exact hnew

/-- Tokens are revoked on both hubs. -/
theorem Matched.revoke (hm : Matched now g h) (n : Uuid) :
    Matched now (watchedHub p now ttl (.revokeTokens n) g).2 (redisHub p now ttl (.revokeTokens n) h).2 := by
  obtain ⟨-, hdata⟩ := run_revokeTokens p now n h.2
  refine ⟨hm.store, hm.uuids, hm.all.revoke n, ?_⟩
  show HoldsLive now (Function.update g.2 n none) (Prog.run (redisAt p now) (RedisTokenStore.revokeTokens n) h.2).2.data
  rw [hdata]
  exact hm.live.clear hm.all.token_inj n

/-- Such a call is answered alike and keeps the token stores with the issues. -/
theorem Matched.call (hm : Matched now g h) {c : HubCall} (hc : c.Alike) :
    (watchedHub p now ttl c g).1 = (redisHub p now ttl c h).1 ∧
      Matched now (watchedHub p now ttl c g).2 (redisHub p now ttl c h).2 := by
  have hread : ∀ {α : Type} (f : MemoryState → α), f g.1.store = f h.1.store := fun f => by rw [hm.store]
  cases c with
  | issueTokens n asked => exact hm.issue n asked
  | revokeTokens n => exact ⟨rfl, hm.revoke n⟩
  | node n => exact ⟨hread (·.nodes[n]?), hm⟩
  | nodeIdByCode code => exact ⟨hread (·.nodeIdsByCode[code]?), hm⟩
  | nodeDeleteGuard n => exact ⟨hread (·.nodeDeleteGuard n), hm⟩
  | utcNow => exact ⟨rfl, hm.store, hm.uuids, hm.all.frame rfl rfl, hm.live⟩
  | saveNode node => exact ⟨rfl, congrArg (·.saveNode node) hm.store, hm.uuids, hm.all.frame rfl rfl, hm.live⟩
  | deleteNode n => exact ⟨rfl, congrArg (·.deleteNode n) hm.store, hm.uuids, hm.all.frame rfl rfl, hm.live⟩
  | _ => exact hc.elim

/-! ## Requests on both hubs -/

theorem registerNode_answered (request : NodeRegisterRequest) : (registerNode p request).Only HubCall.Alike :=
  safe_bind (only_call (S := hubSig) trivial) fun _ => safe_bind (safe_okOr _ _) fun _ =>
    safe_bind (only_call (S := hubSig) trivial) fun _ => safe_bind (safe_okOr _ _) fun _ =>
      safe_bind (safe_okOr _ _) fun _ => safe_bind (safe_ensure _ _) fun _ =>
        safe_bind (only_call (S := hubSig) rfl) fun _ => safe_bind (only_call (S := hubSig) trivial) fun _ =>
          safe_bind (only_call (S := hubSig) trivial) fun _ => safe_pure _

theorem deleteNode_answered (n : Uuid) : (deleteNode n).Only HubCall.Alike :=
  safe_bind (only_call (S := hubSig) trivial) fun _ => safe_bind (safe_okOr _ _) fun _ =>
    safe_bind (only_call (S := hubSig) trivial) fun _ => safe_bind (safe_ensure _ _) fun _ =>
      safe_bind (safe_ensure _ _) fun _ => safe_bind (only_call (S := hubSig) trivial) fun _ =>
        safe_bind (only_call (S := hubSig) trivial) fun _ => safe_pure _

/-- A request of such calls is answered alike. -/
theorem Matched.run_alike {x : HubM Unit} (hx : x.Only HubCall.Alike) (hm : Matched now g h) :
    (Fallible.run (watchedHub p now ttl) x g).1 = (Fallible.run (redisHub p now ttl) x h).1 ∧
      Matched now (Fallible.run (watchedHub p now ttl) x g).2 (Fallible.run (redisHub p now ttl) x h).2 :=
  hx.run_related (fun _ _ _ hc hm => hm.call hc) hm

theorem run_ensure_of {σ : Type} (k : Handler hubSig σ) {b : Bool} (hb : b = true) (e : AppError) (f : Unit → HubM Unit)
    (s : σ) : Fallible.run k (ensure b e >>= f) s = Fallible.run k (f ()) s := by
  subst hb
  rfl

theorem run_ensure_not {σ : Type} (k : Handler hubSig σ) {b : Bool} (hb : b = false) (e : AppError)
    (f : Unit → HubM Unit) (s : σ) : Fallible.run k (ensure b e >>= f) s = (.error e, s) := by
  subst hb
  rfl

/-- What lets a node through, on any hub. -/
theorem authorizeNode_isOk {σ : Type} (k : Handler hubSig σ) (n : Uuid) (t : String) (s : σ) :
    (Fallible.run k (authorizeNode n t) s).1.isOk = true ↔
      ∃ lease, (k (.accessLease t) s).1 = some lease ∧ lease.nodeId = n ∧
        ¬ lease.expiresAt < (k .utcNow (k (.accessLease t) s).2).1 ∧
        (k (.node n) (k .utcNow (k (.accessLease t) s).2).2).1.isSome := by
  rw [authorizeNode, run_bind, run_call]
  dsimp only
  cases hl : (k (.accessLease t) s).1 with
  | none =>
    refine iff_of_false Bool.false_ne_true ?_
    rintro ⟨lease, hlease, -⟩
    cases hlease
  | some lease =>
    simp only [Option.some.injEq, exists_eq_left']
    by_cases hnode : lease.nodeId = n
    · show (Fallible.run k (ensure (lease.nodeId == n) _ >>= _) _).1.isOk = true ↔ _
      rw [run_ensure_of k (beq_iff_eq.2 hnode), run_bind, run_call]
      dsimp only
      generalize k .utcNow (k (.accessLease t) s).2 = out
      by_cases hexpired : lease.expiresAt < out.1
      · rw [run_ensure_not k (by simp [hexpired])]
        exact iff_of_false Bool.false_ne_true fun hall => hall.2.1 hexpired
      · rw [run_ensure_of k (by simp [hexpired]), run_bind, run_call]
        dsimp only
        cases hfound : (k (.node n) out.2).1 with
        | none => exact iff_of_false Bool.false_ne_true fun hall => (by cases hall.2.2)
        | some node => exact iff_of_true rfl ⟨hnode, hexpired, rfl⟩
    · show (Fallible.run k (ensure (lease.nodeId == n) _ >>= _) _).1.isOk = true ↔ _
      rw [run_ensure_not k (beq_eq_false_iff_ne.2 hnode)]
      exact iff_of_false Bool.false_ne_true fun hall => hnode hall.1

/-- What renews the tokens of a node, on any hub. -/
theorem run_refresh {σ : Type} (k : Handler hubSig σ) (request : NodeRefreshRequest) (s : σ) :
    ((k (.refreshLease request.refreshToken) s).1.map (·.nodeId) = some request.nodeId →
      Fallible.run k (TokenQuery.program p (.refresh request)) s =
        (.ok (),
          (k (.issueTokens request.nodeId (DateTime.hours 24)) (k (.refreshLease request.refreshToken) s).2).2)) ∧
    ((k (.refreshLease request.refreshToken) s).1.map (·.nodeId) ≠ some request.nodeId →
      ∃ e, Fallible.run k (TokenQuery.program p (.refresh request)) s =
        (.error e, (k (.refreshLease request.refreshToken) s).2)) := by
  rw [TokenQuery.program, refreshNodeToken, run_bind, run_bind, run_call]
  dsimp only
  cases hl : (k (.refreshLease request.refreshToken) s).1 with
  | none => exact ⟨fun hn => (by cases hn), fun _ => ⟨_, rfl⟩⟩
  | some lease =>
    simp only [run_bind, okOr, ensure, run_pure]
    constructor
    · intro hn
      have hensure : (lease.nodeId == request.nodeId) = true := beq_iff_eq.2 (Option.some.inj hn)
      simp only [hensure]
      rfl
    · intro hn
      have hensure : (lease.nodeId == request.nodeId) = false := beq_eq_false_iff_ne.2 fun e => hn (congrArg some e)
      simp only [hensure]
      exact ⟨_, rfl⟩

/-- A hub over the memory store lets a node through until the time in its lease has passed. -/
theorem Matched.memory_authorizes (hm : Matched now g h) (n : Uuid) (t : String) :
    (Fallible.run (watchedHub p now ttl) (authorizeNode n t) g).1.isOk = true ↔
      ∃ issue ∈ g.2 n, issue.accessToken = t ∧ now ≤ issue.expiresAt ∧ n ∈ g.1.store.nodes := by
  rw [authorizeNode_isOk]
  show (∃ lease : TokenLease, g.1.tokens.access[t]? = some lease ∧ lease.nodeId = n ∧ ¬ lease.expiresAt < now ∧
    g.1.store.nodes[n]?.isSome = true) ↔ _
  rw [← Std.ExtTreeMap.mem_iff_isSome_getElem?]
  constructor
  · rintro ⟨lease, hlease, rfl, hexpires, hnode⟩
    obtain ⟨n, issue, hn, rfl, rfl⟩ := hm.all.access_eq.1 hlease
    exact ⟨issue, hn, rfl, not_lt.1 hexpires, hnode⟩
  · rintro ⟨issue, hn, rfl, hexpires, hnode⟩
    exact ⟨issue.lease n, hm.all.access_eq.2 ⟨n, issue, hn, rfl, rfl⟩, rfl, not_lt.2 hexpires, hnode⟩

/-- A hub over Redis lets a node through within the lifetime of its tokens in whole seconds. -/
theorem Matched.redis_authorizes (hm : Matched now g h) (n : Uuid) (t : String) :
    (Fallible.run (redisHub p now ttl) (authorizeNode n t) h).1.isOk = true ↔
      ∃ issue ∈ g.2 n, issue.accessToken = t ∧ now < issue.deadline ∧ now ≤ issue.expiresAt ∧
        n ∈ g.1.store.nodes := by
  rw [authorizeNode_isOk]
  show (∃ lease : TokenLease, h.2.find now (.lease .access t) = some lease ∧ lease.nodeId = n ∧
    ¬ lease.expiresAt < now ∧ h.1.store.nodes[n]?.isSome = true) ↔ _
  rw [← Std.ExtTreeMap.mem_iff_isSome_getElem?, hm.store]
  constructor
  · rintro ⟨lease, hlease, rfl, hexpires, hnode⟩
    obtain ⟨n, issue, hn, rfl, rfl, hlive⟩ := hm.live.find_lease.1 hlease
    exact ⟨issue, hn, rfl, hlive, not_lt.1 hexpires, hnode⟩
  · rintro ⟨issue, hn, rfl, hlive, hexpires, hnode⟩
    exact ⟨issue.lease n, hm.live.find_lease.2 ⟨n, issue, hn, rfl, rfl, hlive⟩, rfl, not_lt.2 hexpires, hnode⟩

/-- A hub over the memory store finds the current refresh token of a node at any time. -/
theorem Matched.memory_refreshes (hm : Matched now g h) (n : Uuid) (t : String) :
    (watchedHub p now ttl (.refreshLease t) g).1.map (·.nodeId) = some n ↔
      ∃ issue ∈ g.2 n, issue.refreshToken = t :=
  hm.all.leased.2

/-- A hub over Redis finds it within its lifetime in whole seconds. -/
theorem Matched.redis_refreshes (hm : Matched now g h) (n : Uuid) (t : String) :
    (redisHub p now ttl (.refreshLease t) h).1.map (·.nodeId) = some n ↔
      ∃ issue ∈ g.2 n, issue.refreshToken = t ∧ now < issue.deadline := by
  show (h.2.find now (.lease .refresh t)).map TokenLease.nodeId = some n ↔ _
  rw [Option.map_eq_some_iff]
  constructor
  · rintro ⟨lease, hlease, rfl⟩
    obtain ⟨n, issue, hn, rfl, rfl, hlive⟩ := hm.live.find_lease.1 hlease
    exact ⟨issue, hn, rfl, hlive⟩
  · rintro ⟨issue, hn, rfl, hlive⟩
    exact ⟨issue.lease n, hm.live.find_lease.2 ⟨n, issue, hn, rfl, rfl, hlive⟩, rfl⟩

/-- The calls that only look at what there is. -/
def HubCall.Looks : HubCall → Prop
  | .accessLease _ | .refreshLease _ | .node _ | .utcNow => True
  | _ => False

/-- A look on either hub leaves both with the issues. -/
theorem Matched.looks {c : HubCall} (hc : c.Looks) (hm : Matched now g h) :
    Matched now (watchedHub p now ttl c g).2 h ∧ Matched now g (redisHub p now ttl c h).2 := by
  cases c with
  | accessLease t => exact ⟨hm, ⟨hm.store, hm.uuids, hm.all, hm.live⟩⟩
  | refreshLease t => exact ⟨hm, ⟨hm.store, hm.uuids, hm.all, hm.live⟩⟩
  | node n => exact ⟨hm, hm⟩
  | utcNow => exact ⟨⟨hm.store, hm.uuids, hm.all.frame rfl rfl, hm.live⟩, ⟨hm.store, hm.uuids, hm.all, hm.live⟩⟩
  | _ => exact hc.elim

theorem authorizeNode_looks (n : Uuid) (t : String) : (authorizeNode n t).Only HubCall.Looks :=
  safe_bind (only_call (S := hubSig) trivial) fun _ => safe_bind (safe_okOr _ _) fun _ =>
    safe_bind (safe_ensure _ _) fun _ => safe_bind (only_call (S := hubSig) trivial) fun _ =>
      safe_bind (safe_ensure _ _) fun _ => safe_bind (only_call (S := hubSig) trivial) fun _ => safe_ensure _ _

theorem Matched.authorize (hm : Matched now g h) (n : Uuid) (t : String) :
    Matched now (Fallible.run (watchedHub p now ttl) (authorizeNode n t) g).2
      (Fallible.run (redisHub p now ttl) (authorizeNode n t) h).2 := by
  have hmemory := (authorizeNode_looks n t).run_keeps (h := watchedHub p now ttl) (I := fun g' => Matched now g' h)
    (fun c g' hc hg => (hg.looks hc).1) hm
  exact (authorizeNode_looks n t).run_keeps (h := redisHub p now ttl)
    (I := fun h' => Matched now (Fallible.run (watchedHub p now ttl) (authorizeNode n t) g).2 h')
    (fun c h' hc hh => (Matched.looks hc hh).2) hmemory

end Calls

/-! ## Whole runs -/

section Runs

variable {p : Platform} {step : TokenStep} {g : World × Issues} {h : World × Redis}

/-- A refresh: alike, unless it comes late. -/
theorem refresh_matches {now : DateTime} (ttl : Int) (hm : Matched now g h) (request : NodeRefreshRequest) :
    let late := ∃ issue ∈ g.2 request.nodeId, issue.refreshToken = request.refreshToken ∧ issue.deadline ≤ now
    let memory := Fallible.run (watchedHub p now ttl) (TokenQuery.program p (.refresh request)) g
    let redis := Fallible.run (redisHub p now ttl) (TokenQuery.program p (.refresh request)) h
    (late → memory.1.isOk ≠ redis.1.isOk) ∧
      (¬ late → memory.1.isOk = redis.1.isOk ∧ Matched now memory.2 redis.2) := by
  intro late memory redis
  have hfound : Matched now (watchedHub p now ttl (.refreshLease request.refreshToken) g).2
      (redisHub p now ttl (.refreshLease request.refreshToken) h).2 := ⟨hm.store, hm.uuids, hm.all, hm.live⟩
  have hmemory : (watchedHub p now ttl (.refreshLease request.refreshToken) g).1.map (·.nodeId) =
    some request.nodeId ↔ _ :=
    hm.memory_refreshes request.nodeId request.refreshToken
  have hredis : (redisHub p now ttl (.refreshLease request.refreshToken) h).1.map (·.nodeId) =
    some request.nodeId ↔ _ :=
    hm.redis_refreshes request.nodeId request.refreshToken
  have hrunm := run_refresh (p := p) (watchedHub p now ttl) request g
  have hrunr := run_refresh (p := p) (redisHub p now ttl) request h
  by_cases hin : ∃ issue ∈ g.2 request.nodeId, issue.refreshToken = request.refreshToken
  · have hm₁ := hrunm.1 (hmemory.2 hin)
    by_cases hlive : ∃ issue ∈ g.2 request.nodeId, issue.refreshToken = request.refreshToken ∧ now < issue.deadline
    · have hr₁ := hrunr.1 (hredis.2 hlive)
      refine ⟨?_, fun _ => ⟨?_, ?_⟩⟩
      · rintro ⟨issue, hn, -, hover⟩
        obtain ⟨issue', hn', -, hlive⟩ := hlive
        cases Option.some.inj (hn.symm.trans hn')
        exact absurd hlive (not_lt.2 hover)
      · rw [show memory = _ from hm₁, show redis = _ from hr₁]
      · rw [show memory = _ from hm₁, show redis = _ from hr₁]
        exact (hfound.issue request.nodeId (DateTime.hours 24)).2
    · obtain ⟨e, hr₁⟩ := hrunr.2 (fun hn => hlive (hredis.1 hn))
      refine ⟨fun _ => ?_, fun hnot => absurd ?_ hnot⟩
      · rw [show memory = _ from hm₁, show redis = _ from hr₁]
        nofun
      · obtain ⟨issue, hn, htoken⟩ := hin
        exact ⟨issue, hn, htoken, not_lt.1 fun hlt => hlive ⟨issue, hn, htoken, hlt⟩⟩
  · obtain ⟨e, hm₁⟩ := hrunm.2 (fun hn => hin (hmemory.1 hn))
    have hnone : ¬ ∃ issue ∈ g.2 request.nodeId, issue.refreshToken = request.refreshToken ∧ now < issue.deadline := by
      rintro ⟨issue, hn, htoken, -⟩
      exact hin ⟨issue, hn, htoken⟩
    obtain ⟨e', hr₁⟩ := hrunr.2 (fun hn => hnone (hredis.1 hn))
    refine ⟨?_, fun _ => ⟨?_, ?_⟩⟩
    · rintro ⟨issue, hn, htoken, -⟩
      exact absurd ⟨issue, hn, htoken⟩ hin
    · rw [show memory = _ from hm₁, show redis = _ from hr₁]
      rfl
    · rw [show memory = _ from hm₁, show redis = _ from hr₁]
      exact hfound

/-- An authorization: alike, unless it comes late. -/
theorem authorize_matches {now : DateTime} (ttl : Int) (hm : Matched now g h) (n : Uuid) (t : String) :
    let late := ∃ issue ∈ g.2 n, issue.accessToken = t ∧ issue.deadline ≤ now ∧ now ≤ issue.expiresAt ∧
      n ∈ g.1.store.nodes
    let memory := (Fallible.run (watchedHub p now ttl) (authorizeNode n t) g).1.isOk
    let redis := (Fallible.run (redisHub p now ttl) (authorizeNode n t) h).1.isOk
    (late → memory ≠ redis) ∧ (¬ late → memory = redis) := by
  intro late memory redis
  have hmemory : memory = true ↔ _ := hm.memory_authorizes n t
  have hredis : redis = true ↔ _ := hm.redis_authorizes n t
  constructor
  · rintro ⟨issue, hn, htoken, hover, hexpires, hnode⟩ heq
    obtain ⟨issue', hn', -, hlive, -⟩ := hredis.1 (heq ▸ hmemory.2 ⟨issue, hn, htoken, hexpires, hnode⟩)
    cases Option.some.inj (hn.symm.trans hn')
    exact absurd hlive (not_lt.2 hover)
  · intro hnot
    rw [Bool.eq_iff_iff, hmemory, hredis]
    constructor
    · rintro ⟨issue, hn, htoken, hexpires, hnode⟩
      refine ⟨issue, hn, htoken, not_le.1 fun hover => hnot ?_, hexpires, hnode⟩
      exact ⟨issue, hn, htoken, hover, hexpires, hnode⟩
    · rintro ⟨issue, hn, htoken, -, hexpires, hnode⟩
      exact ⟨issue, hn, htoken, hexpires, hnode⟩

/-- **One request**: if it comes late, it is answered differently; otherwise alike, and the stores stay with the
issues. -/
theorem step_matches (hm : Matched step.now g h) :
    (step.Late g → step.query.Asks ∧ (step.onMemory p g).1.isOk ≠ (step.onRedis p h).1.isOk) ∧
      (¬ step.Late g → (step.onMemory p g).1.isOk = (step.onRedis p h).1.isOk ∧
        Matched step.now (step.onMemory p g).2 (step.onRedis p h).2) := by
  obtain ⟨now, ttl, query⟩ := step
  have halike : ∀ {x : HubM Unit}, x.Only HubCall.Alike →
      (Fallible.run (watchedHub p now ttl) x g).1.isOk = (Fallible.run (redisHub p now ttl) x h).1.isOk ∧
        Matched now (Fallible.run (watchedHub p now ttl) x g).2 (Fallible.run (redisHub p now ttl) x h).2 := by
    intro x hx
    obtain ⟨hans, hafter⟩ : (Fallible.run (watchedHub p now ttl) x g).1 =
      (Fallible.run (redisHub p now ttl) x h).1 ∧ _ :=
      hm.run_alike hx
    exact ⟨by rw [hans], hafter⟩
  cases query with
  | register request =>
    exact ⟨fun hl => hl.elim, fun _ => halike (safe_bind (registerNode_answered request) fun _ => safe_pure _)⟩
  | delete n => exact ⟨fun hl => hl.elim, fun _ => halike (safe_bind (deleteNode_answered n) fun _ => safe_pure _)⟩
  | revoke n => exact ⟨fun hl => hl.elim, fun _ => halike (only_call (S := hubSig) trivial)⟩
  | refresh request =>
    obtain ⟨hlate, hnot⟩ := refresh_matches (p := p) ttl hm request
    exact ⟨fun hl => ⟨trivial, hlate hl⟩, fun hl => hnot hl⟩
  | authorize n t =>
    obtain ⟨hlate, hnot⟩ := authorize_matches (p := p) ttl hm n t
    exact ⟨fun hl => ⟨trivial, hlate hl⟩, fun hl => ⟨hnot hl, hm.authorize n t⟩⟩

/-- From matching states on. -/
theorem same_answers_of_matched {now : DateTime} (hm : Matched now g h) (steps : List TokenStep)
    (hnow : ∀ step ∈ steps, now ≤ step.now) (hsorted : (steps.map TokenStep.now).Pairwise (· ≤ ·)) :
    SameAnswers p g h steps ↔ NeverLate p g steps := by
  induction steps generalizing now g h with
  | nil => exact iff_of_true trivial trivial
  | cons step steps ih =>
    have hm : Matched step.now g h := { hm with live := hm.live.later (hnow step List.mem_cons_self) }
    rw [List.map_cons, List.pairwise_cons] at hsorted
    by_cases hlate : step.Late g
    · obtain ⟨hasks, hne⟩ := (step_matches (p := p) hm).1 hlate
      exact iff_of_false (fun hsame => hne (hsame.1 hasks)) fun hnever => hnever.1 hlate
    · obtain ⟨heq, hafter⟩ := (step_matches (p := p) hm).2 hlate
      have hrest := ih hafter (fun s hs => hsorted.1 s.now (List.mem_map_of_mem hs)) hsorted.2
      exact ⟨fun hsame => ⟨hlate, hrest.1 hsame.2⟩, fun hnever => ⟨fun _ => heq, hrest.2 hnever.2⟩⟩

end Runs

/-- From the same hubs without tokens on, and with requests at times that do not decrease, the two token stores let
the same refreshes and authorizations through if and only if no request comes late. -/
theorem same_answers_iff (p : Platform) (w : World) (steps : List TokenStep)
    (hsorted : (steps.map TokenStep.now).Pairwise (· ≤ ·)) :
    SameAnswers p (w.tokenless, fun _ => none) (w.tokenless, Redis.init) steps ↔
      NeverLate p (w.tokenless, fun _ => none) steps := by
  have hstart : ∀ now, Matched now (w.tokenless, fun _ => none) (w.tokenless, Redis.init) := fun now =>
    ⟨rfl, rfl, .empty w, .empty⟩
  cases steps with
  | nil => exact iff_of_true trivial trivial
  | cons step steps =>
    refine same_answers_of_matched (hstart step.now) _ (fun s hs => ?_) hsorted
    rw [List.map_cons, List.pairwise_cons] at hsorted
    rcases List.mem_cons.1 hs with rfl | hs
    · exact le_rfl
    · exact hsorted.1 s.now (List.mem_map_of_mem hs)

/-! ## A node that registers and renews its tokens -/

/-- The node of `oneNode` registers. -/
def registerEdge : TokenStep where
  now := 0
  ttl := DateTime.hours 24
  query := .register
    { nodeCode := "edge-1", bootstrapToken := "boot-" ++ Uuid.hyphenated 1, hostname := "h", publicIp := none
      privateIp := none, agentVersion := "1" }

/-- It renews its tokens after some hours. -/
def refreshEdge (hours : Nat) : TokenStep where
  now := DateTime.hours hours
  ttl := DateTime.hours 24
  query := .refresh { nodeId := 0, refreshToken := "node-rt-" ++ Uuid.hyphenated (oneNode.nextUuid + 1) }

/-- A renewal in time does not come late, and both hubs grant it. -/
theorem same_answers_in_time :
    ((refreshEdge 23).onRedis .plain (registerEdge.onRedis .plain (oneNode.tokenless, Redis.init)).2).1.isOk = true ∧
    NeverLate .plain (oneNode.tokenless, fun _ => none) [registerEdge, refreshEdge 23] ∧
    SameAnswers .plain (oneNode.tokenless, fun _ => none) (oneNode.tokenless, Redis.init)
      [registerEdge, refreshEdge 23] := by
  have hmemory : ((refreshEdge 23).onMemory .plain
      (registerEdge.onMemory .plain (oneNode.tokenless, fun _ => none)).2).1.isOk = true := by decide +kernel
  have hredis : ((refreshEdge 23).onRedis .plain
      (registerEdge.onRedis .plain (oneNode.tokenless, Redis.init)).2).1.isOk = true := by decide +kernel
  have hsame : SameAnswers .plain (oneNode.tokenless, fun _ => none) (oneNode.tokenless, Redis.init)
      [registerEdge, refreshEdge 23] := ⟨fun hasks => hasks.elim, fun _ => hmemory.trans hredis.symm, trivial⟩
  exact ⟨hredis, (same_answers_iff .plain oneNode [registerEdge, refreshEdge 23] (by decide +kernel)).1 hsame, hsame⟩

/-- A day and an hour later the hub over the memory store renews the tokens, and the hub over Redis refuses. -/
theorem late_refresh_differs : ([registerEdge, refreshEdge 25].map TokenStep.now).Pairwise (· ≤ ·) ∧
    ¬ SameAnswers .plain (oneNode.tokenless, fun _ => none) (oneNode.tokenless, Redis.init)
      [registerEdge, refreshEdge 25] := by
  have hmemory : ((refreshEdge 25).onMemory .plain
      (registerEdge.onMemory .plain (oneNode.tokenless, fun _ => none)).2).1.isOk = true := by decide +kernel
  have hredis : ((refreshEdge 25).onRedis .plain
      (registerEdge.onRedis .plain (oneNode.tokenless, Redis.init)).2).1.isOk = false := by decide +kernel
  refine ⟨by decide +kernel, fun hsame => ?_⟩
  have hanswer := hsame.2.1 trivial
  rw [hmemory, hredis] at hanswer
  cases hanswer

end PingoraMesh
