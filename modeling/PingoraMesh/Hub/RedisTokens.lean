import PingoraMesh.Hub.Calls
import PingoraMesh.Lib.Pool

/-!
# Node tokens in Redis

`RedisTokenStore` keeps a lease under each token and, for each node, a pointer to its current access token and one to
its current refresh token. `issue_tokens` and `revoke_tokens` read the pointers, delete the leases that these name and
move the pointers, one Redis command after another; between two commands other calls may run.

* `RedisKey.text_inj`: different keys have different texts, so a key can stand for its text;
* `follows_turn`: for each kind of token, a call deletes what it has read and points to what it has written
  (`turnSpec`);
* `one_live_pair`: in every run in which no pointer is moved off a token that still resolves, unless the call is about
  to delete that token, a node has at most one live pair when its calls are done, and none after a revocation;
* `two_live_pairs`: two calls that both read the pointers before either moves them leave two live pairs.
-/

namespace PingoraMesh

open Calls

/-! ## Keys and commands -/

/-- The two tokens of a pair. -/
inductive TokenKind where
  | access
  | refresh
  deriving DecidableEq, Repr

/-- The keys of the store: the lease of a token, and the current token of a node. -/
inductive RedisKey where
  | lease (kind : TokenKind) (token : String)
  | current (kind : TokenKind) (nodeId : Uuid)
  deriving DecidableEq, Repr

namespace RedisKey

/-- What is stored under a key: the lease, kept as JSON, or the token as it is. -/
@[reducible] def Val : RedisKey → Type
  | .lease _ _ => TokenLease
  | .current _ _ => String

/-- What comes after the common part of all keys. -/
def family : RedisKey → String
  | .lease .access _ => ":node:access:"
  | .lease .refresh _ => ":node:refresh:"
  | .current .access _ => ":node:current_access:"
  | .current .refresh _ => ":node:current_refresh:"

/-- What tells the keys of a family apart. -/
def name : RedisKey → String
  | .lease _ token => token
  | .current _ nodeId => Uuid.hyphenated nodeId

/-- The key as Redis knows it. -/
def text (keyPrefix : String) (k : RedisKey) : String := keyPrefix ++ k.family ++ k.name

/-- No family is the beginning of another. -/
theorem family_eq {k k' : RedisKey} (h : k.family.toList <+: k'.family.toList) : k.family = k'.family := by
  rcases k with ⟨_ | _, _⟩ | ⟨_ | _, _⟩ <;> rcases k' with ⟨_ | _, _⟩ | ⟨_ | _, _⟩ <;> simp [family] at h ⊢

/-- Different keys have different texts, so the store may be keyed by either. -/
theorem text_inj {keyPrefix : String} {k k' : RedisKey} (h : k.text keyPrefix = k'.text keyPrefix) : k = k' := by
  have hlist := congrArg String.toList h
  simp only [text, String.toList_append, List.append_assoc] at hlist
  replace hlist := List.append_cancel_left hlist
  have hfamily : k.family = k'.family := by
    rcases List.prefix_or_prefix_of_prefix (List.prefix_append k.family.toList k.name.toList)
      (hlist ▸ List.prefix_append k'.family.toList k'.name.toList) with h | h
    · exact family_eq h
    · exact (family_eq h).symm
  rw [hfamily] at hlist
  have hname : k.name = k'.name := String.toList_inj.1 (List.append_cancel_left hlist)
  rcases k with ⟨_ | _, _⟩ | ⟨_ | _, _⟩ <;> rcases k' with ⟨_ | _, _⟩ | ⟨_ | _, _⟩ <;> simp [family] at hfamily
  · exact congrArg (RedisKey.lease _) hname
  · exact congrArg (RedisKey.lease _) hname
  · exact congrArg (RedisKey.current _) (Uuid.hyphenated_inj hname)
  · exact congrArg (RedisKey.current _) (Uuid.hyphenated_inj hname)

end RedisKey

/-- `access_key`. -/
abbrev accessKey (token : String) : RedisKey := .lease .access token

/-- `refresh_key`. -/
abbrev refreshKey (token : String) : RedisKey := .lease .refresh token

/-- `current_access_key`. -/
abbrev currentAccessKey (nodeId : Uuid) : RedisKey := .current .access nodeId

/-- `current_refresh_key`. -/
abbrev currentRefreshKey (nodeId : Uuid) : RedisKey := .current .refresh nodeId

/-- The commands that the store sends, and what a call does besides. -/
inductive RedisCall where
  | get (k : RedisKey)
  | del (k : RedisKey)
  | setEx (k : RedisKey) (v : k.Val) (seconds : Int)
  | newUuid
  | utcNow

/-- The answer to each call. The number of deleted keys is not used. -/
@[reducible] def RedisCall.Ans : RedisCall → Type
  | .get k => Option k.Val
  | .del _ | .setEx _ _ _ => Unit
  | .newUuid => Uuid
  | .utcNow => DateTime

abbrev redisSig : Sig := ⟨RedisCall, RedisCall.Ans⟩

/-- A value and the time at which it goes. -/
structure Stored (α : Type) where
  value : α
  deadline : DateTime

/-- The keys of the server, the next random identifier and the number of calls made. -/
structure Redis where
  data : (k : RedisKey) → Option (Stored k.Val)
  nextUuid : Nat
  tick : Nat

/-- No keys. -/
def Redis.init : Redis := ⟨fun _ => none, 0, 0⟩

/-- The value of a key, unless its time is over. -/
def Redis.find (r : Redis) (now : DateTime) (k : RedisKey) : Option k.Val :=
  ((r.data k).filter fun e => now < e.deadline).map Stored.value

/-- What each call does; `server` is the time at the server when a call is made, and `p.clock` the time at the hub. -/
def redisHandler (p : Platform) (server : Nat → DateTime) : Handler redisSig Redis := fun c r =>
  match c with
  | .get k => (r.find (server r.tick) k, { r with tick := r.tick + 1 })
  | .del k => ((), { r with data := Function.update r.data k none, tick := r.tick + 1 })
  | .setEx k v seconds =>
    ((), { r with
      data := Function.update r.data k (some ⟨v, server r.tick + DateTime.seconds seconds⟩)
      tick := r.tick + 1 })
  | .newUuid => (r.nextUuid, { r with nextUuid := r.nextUuid + 1, tick := r.tick + 1 })
  | .utcNow => (p.clock r.tick, { r with tick := r.tick + 1 })

/-- The key that a call writes. -/
def RedisCall.writes : RedisCall → Option RedisKey
  | .del k => some k
  | .setEx k _ _ => some k
  | _ => none

/-- A call leaves the keys alone that it does not write. -/
theorem data_of_writes {p : Platform} {server : Nat → DateTime} {c : RedisCall} {k : RedisKey} (h : c.writes ≠ some k)
    (r : Redis) : (redisHandler p server c r).2.data k = r.data k := by
  cases c with
  | del k' => exact Function.update_of_ne (fun e => h (congrArg some e.symm)) ..
  | setEx k' v seconds => exact Function.update_of_ne (fun e => h (congrArg some e.symm)) ..
  | _ => rfl

theorem data_del (p : Platform) (server : Nat → DateTime) (k : RedisKey) (r : Redis) :
    (redisHandler p server (.del k) r).2.data k = none :=
  Function.update_self ..

theorem data_setEx (p : Platform) (server : Nat → DateTime) (k : RedisKey) (v : k.Val) (seconds : Int) (r : Redis) :
    (redisHandler p server (.setEx k v seconds) r).2.data k = some ⟨v, server r.tick + DateTime.seconds seconds⟩ :=
  Function.update_self ..

theorem tick_redisHandler {p : Platform} {server : Nat → DateTime} (c : RedisCall) (r : Redis) :
    (redisHandler p server c r).2.tick = r.tick + 1 := by
  cases c <;> rfl

/-! ## The token store -/

namespace RedisTokenStore

/-- One call. -/
def ask (c : RedisCall) : Prog redisSig c.Ans := Prog.perform (S := redisSig) c

/-- `issue_tokens`. -/
def issueTokens (nodeId : Uuid) (ttl : Int) : Prog redisSig IssuedTokens := do
  let previousAccess ← ask (.get (currentAccessKey nodeId))
  let previousRefresh ← ask (.get (currentRefreshKey nodeId))
  Prog.forSome previousAccess fun previousAccess => ask (.del (accessKey previousAccess))
  Prog.forSome previousRefresh fun previousRefresh => ask (.del (refreshKey previousRefresh))
  let accessToken := "node-at-" ++ Uuid.hyphenated (← ask .newUuid)
  let refreshToken := "node-rt-" ++ Uuid.hyphenated (← ask .newUuid)
  let expiresAt := (← ask .utcNow) + ttl
  let lease : TokenLease := { nodeId := nodeId, expiresAt := expiresAt }
  let ttlSeconds := max (Int.tdiv ttl DateTime.nanosPerSecond) 1
  ask (.setEx (accessKey accessToken) lease ttlSeconds)
  ask (.setEx (refreshKey refreshToken) lease ttlSeconds)
  ask (.setEx (currentAccessKey nodeId) accessToken ttlSeconds)
  ask (.setEx (currentRefreshKey nodeId) refreshToken ttlSeconds)
  return { accessToken := accessToken, refreshToken := refreshToken, expiresAt := expiresAt }

/-- `revoke_tokens`. -/
def revokeTokens (nodeId : Uuid) : Prog redisSig Unit := do
  let currentAccess ← ask (.get (currentAccessKey nodeId))
  let currentRefresh ← ask (.get (currentRefreshKey nodeId))
  ask (.del (currentAccessKey nodeId))
  ask (.del (currentRefreshKey nodeId))
  Prog.forSome currentAccess fun accessToken => ask (.del (accessKey accessToken))
  Prog.forSome currentRefresh fun refreshToken => ask (.del (refreshKey refreshToken))

/-- `access_lease`. -/
def accessLease (accessToken : String) : Prog redisSig (Option TokenLease) := ask (.get (accessKey accessToken))

/-- `refresh_lease`. -/
def refreshLease (refreshToken : String) : Prog redisSig (Option TokenLease) := ask (.get (refreshKey refreshToken))

end RedisTokenStore

/-- A call of the token store that changes tokens. -/
inductive TokenRequest where
  | issue (nodeId : Uuid) (ttl : Int)
  | revoke (nodeId : Uuid)
  deriving DecidableEq, Repr

/-- The node of a call. -/
def TokenRequest.nodeId : TokenRequest → Uuid
  | .issue nodeId _ => nodeId
  | .revoke nodeId => nodeId

/-- The program of a call. -/
def tokenProgram : TokenRequest → Prog redisSig Unit
  | .issue nodeId ttl => do
    let _ ← RedisTokenStore.issueTokens nodeId ttl
    return ()
  | .revoke nodeId => RedisTokenStore.revokeTokens nodeId

/-- The lease that a token resolves to through `access_lease` or `refresh_lease`. -/
def Redis.lease (p : Platform) (server : Nat → DateTime) (r : Redis) : TokenKind → String → Option TokenLease
  | .access, token => (Prog.run (redisHandler p server) (RedisTokenStore.accessLease token) r).1
  | .refresh, token => (Prog.run (redisHandler p server) (RedisTokenStore.refreshLease token) r).1

theorem Redis.lease_eq (p : Platform) (server : Nat → DateTime) (r : Redis) (kind : TokenKind) (token : String) :
    r.lease p server kind token = r.find (server r.tick) (.lease kind token) := by
  cases kind <;> rfl

/-! ## What a call does with the tokens of one kind -/

/-- A call under way: the token it has read, the one that it is still to delete, the lease that it has written and is
still to point to, with its time to live, and whether it has deleted the pointer. -/
structure Turn where
  request : TokenRequest
  read : Option String
  due : Option String
  written : Option (String × Int)
  cleared : Bool

namespace Turn

variable (kind : TokenKind)

/-- What a call of the interface tells. -/
def next (c : RedisCall) (r : c.Ans) (g : Turn) : Turn :=
  match c, r with
  | .get (.current kind' _), token => if kind' = kind then { g with read := token, due := token } else g
  | .del (.lease kind' _), _ => if kind' = kind then { g with due := none } else g
  | .del (.current kind' _), _ => if kind' = kind then { g with cleared := true } else g
  | .setEx (.lease kind' token) _ seconds, _ => if kind' = kind then { g with written := some (token, seconds) } else g
  | .setEx (.current kind' _) _ _, _ => if kind' = kind then { g with written := none } else g
  | _, _ => g

/-- What is asked of the calls: a pointer is read when nothing is to be deleted, and deleted when nothing has been
deleted yet; a lease is deleted after it was read; and only an issue writes, first the lease and then the pointer. -/
def Allows (g : Turn) : RedisCall → Prop
  | .get (.current kind' nodeId) => kind' = kind → nodeId = g.request.nodeId ∧ g.due = none
  | .del (.lease kind' token) => kind' = kind → g.due = some token
  | .del (.current kind' nodeId) => kind' = kind → nodeId = g.request.nodeId ∧ g.due = g.read
  | .setEx (.lease kind' _) lease _ => kind' = kind → lease.nodeId = g.request.nodeId ∧ g.written = none
  | .setEx (.current kind' nodeId) token seconds => kind' = kind →
    nodeId = g.request.nodeId ∧ g.due = none ∧ g.written = some (token, seconds) ∧ ∃ ttl, g.request = .issue nodeId ttl
  | _ => True

/-- A call that is done has deleted what it has read and points to what it has written; a revocation has deleted the
pointer. -/
def Returns (g : Turn) : Prop :=
  g.due = none ∧ g.written = none ∧ ∀ nodeId, g.request = .revoke nodeId → g.cleared = true

/-- A call that has not begun. -/
def start (q : TokenRequest) : Turn := ⟨q, none, none, none, false⟩

end Turn

/-- Calls deal with the tokens of one kind as they should. -/
def turnSpec (kind : TokenKind) : Spec redisSig Turn := .protocol (fun c g => g.Allows kind c) (Turn.next kind)

section Follows

variable (kind : TokenKind) {g : Turn} {α : Type} {Q : α → Turn → Prop}

/-- One call of the interface. -/
theorem wp_redisCall (c : RedisCall) {Q : c.Ans → Turn → Prop} :
    Prog.wp (turnSpec kind) (RedisTokenStore.ask c) Q g ↔ g.Allows kind c ∧ ∀ r, Q r (g.next kind c r) := by
  refine Prog.wp_call.trans (and_congr Iff.rfl ⟨fun h r => (Prog.wp_ret _).1 (h r _ rfl), fun h r g' e => ?_⟩)
  exact (Prog.wp_ret _).2 (e ▸ h r)

/-- The token that was read is deleted. -/
theorem wp_delRead {kind' : TokenKind} {token : Option String} {R : Unit → Turn → Prop}
    (hdue : kind' = kind → g.due = token) (hR : R () (if kind' = kind then { g with due := none } else g)) :
    Prog.wp (turnSpec kind) (Prog.forSome token fun t => RedisTokenStore.ask (.del (.lease kind' t))) R g := by
  refine (Prog.wp_forSome _ _).2 ⟨fun t ht => (wp_redisCall kind _).2 ⟨fun hk => (hdue hk).trans ht, fun _ => hR⟩,
    fun ht => ?_⟩
  split at hR
  · rename_i hk
    obtain ⟨request, read, due, written, cleared⟩ := g
    obtain rfl : due = none := (hdue hk).trans ht
    exact hR
  · exact hR

theorem issueTokens_turn (nodeId : Uuid) (ttl : Int) :
    Prog.wp (turnSpec kind) (RedisTokenStore.issueTokens nodeId ttl) (fun _ g => g.Returns)
      (.start (.issue nodeId ttl)) := by
  simp only [RedisTokenStore.issueTokens, Prog.wp_bind]
  refine (wp_redisCall kind _).2 ⟨fun _ => ⟨rfl, rfl⟩, fun access => (wp_redisCall kind _).2 ⟨?_, fun refresh => ?_⟩⟩
  · rintro rfl
    exact ⟨rfl, rfl⟩
  refine wp_delRead kind ?_ (wp_delRead kind ?_ ?_)
  · rintro rfl
    rfl
  · rintro rfl
    rfl
  refine (wp_redisCall kind _).2 ⟨trivial, fun a => (wp_redisCall kind _).2 ⟨trivial, fun b =>
    (wp_redisCall kind _).2 ⟨trivial, fun now => ?_⟩⟩⟩
  cases kind with
  | access =>
    refine (wp_redisCall _ _).2 ⟨fun _ => ⟨rfl, rfl⟩, fun _ => (wp_redisCall _ _).2 ⟨fun e => by (cases e), fun _ =>
      (wp_redisCall _ _).2 ⟨fun _ => ⟨rfl, rfl, rfl, ttl, rfl⟩, fun _ => (wp_redisCall _ _).2
        ⟨fun e => by (cases e), fun _ => ?_⟩⟩⟩⟩
    exact (Prog.wp_ret _).2 ⟨rfl, rfl, fun _ e => by (cases e)⟩
  | refresh =>
    refine (wp_redisCall _ _).2 ⟨fun e => by (cases e), fun _ => (wp_redisCall _ _).2 ⟨fun _ => ⟨rfl, rfl⟩, fun _ =>
      (wp_redisCall _ _).2 ⟨fun e => by (cases e), fun _ => (wp_redisCall _ _).2 ⟨fun _ => ⟨rfl, rfl, rfl, ttl, rfl⟩,
        fun _ => ?_⟩⟩⟩⟩
    exact (Prog.wp_ret _).2 ⟨rfl, rfl, fun _ e => by (cases e)⟩

theorem revokeTokens_turn (nodeId : Uuid) :
    Prog.wp (turnSpec kind) (RedisTokenStore.revokeTokens nodeId) (fun _ g => g.Returns) (.start (.revoke nodeId)) := by
  simp only [RedisTokenStore.revokeTokens, Prog.wp_bind]
  refine (wp_redisCall kind _).2 ⟨fun _ => ⟨rfl, rfl⟩, fun access => (wp_redisCall kind _).2 ⟨?_, fun refresh =>
    (wp_redisCall kind _).2 ⟨?_, fun _ => (wp_redisCall kind _).2 ⟨?_, fun _ => ?_⟩⟩⟩⟩
  · rintro rfl
    exact ⟨rfl, rfl⟩
  · rintro rfl
    exact ⟨rfl, rfl⟩
  · rintro rfl
    exact ⟨rfl, rfl⟩
  refine wp_delRead kind ?_ (wp_delRead kind ?_ ?_)
  · rintro rfl
    rfl
  · rintro rfl
    rfl
  · cases kind with
    | access => exact ⟨rfl, rfl, fun _ _ => rfl⟩
    | refresh => exact ⟨rfl, rfl, fun _ _ => rfl⟩

/-- Every call deletes what it has read and points to what it has written. -/
theorem follows_turn (q : TokenRequest) :
    Prog.wp (turnSpec kind) (tokenProgram q) (fun _ g => g.Returns) (.start q) := by
  cases q with
  | issue nodeId ttl =>
    exact (Prog.wp_bind _ _).2 (Prog.wp_mono (fun _ _ h => (Prog.wp_ret _).2 h) (issueTokens_turn kind nodeId ttl))
  | revoke nodeId => exact revokeTokens_turn kind nodeId

end Follows

/-! ## Pointers and what the calls have read -/

section Reads

variable {ι : Type} [DecidableEq ι] (kind : TokenKind)

/-- The token that a call has read last. -/
def tokenRead (last : Option String) : Event redisSig ι → Option String
  | ⟨_, .get (.current kind' _), token⟩ => if kind' = kind then token else last
  | _ => last

/-- The token that each call has read last. -/
def readToken (tr : List (Event redisSig ι)) : ι → Option String :=
  tr.foldl (fun reads e => Function.update reads e.thread (tokenRead kind (reads e.thread) e)) fun _ => none

theorem readToken_concat (tr : List (Event redisSig ι)) (e : Event redisSig ι) :
    readToken kind (tr ++ [e]) =
      Function.update (readToken kind tr) e.thread (tokenRead kind (readToken kind tr e.thread) e) := by
  simp [readToken]

/-- The pointer that a call sets. -/
def RedisCall.points : RedisCall → Option (TokenKind × Uuid)
  | .setEx (.current kind nodeId) _ _ => some (kind, nodeId)
  | _ => none

/-- The pointer that a call deletes. -/
def RedisCall.clears : RedisCall → Option (TokenKind × Uuid)
  | .del (.current kind nodeId) => some (kind, nodeId)
  | _ => none

/-- The token that a pointer names, if it still resolves. -/
def Redis.live (p : Platform) (server : Nat → DateTime) (r : Redis) (k : TokenKind × Uuid) : Option String :=
  (r.find (server r.tick) (.current k.1 k.2)).filter fun token => (r.lease p server k.1 token).isSome

/-- No pointer is set that names a token which still resolves, and none is deleted unless the call has read that
token. -/
def InTurns (p : Platform) (server : Nat → DateTime) (P : Pool redisSig Unit ι Redis) : Move ι TokenRequest → Prop
  | .spawn _ _ => True
  | .go i => ∀ c ∈ P.next i, (∀ k ∈ c.points, P.state.live p server k = none) ∧
      ∀ k ∈ c.clears, ∀ token ∈ P.state.live p server k, readToken k.1 P.trace i = some token

instance (p : Platform) (server : Nat → DateTime) (P : Pool redisSig Unit ι Redis) : DecidablePred (InTurns p server P)
  | .spawn _ _ => inferInstanceAs (Decidable True)
  | .go i => inferInstanceAs (Decidable (∀ c ∈ P.next i, (∀ k ∈ c.points, P.state.live p server k = none) ∧
      ∀ k ∈ c.clears, ∀ token ∈ P.state.live p server k, readToken k.1 P.trace i = some token))

end Reads

/-! ## The invariant -/

section Invariant

variable {ι : Type} [DecidableEq ι] (server : Nat → DateTime) (kind : TokenKind) (q : ι → Option TokenRequest)

/-- Why a lease is there: the pointer of its node names the token and goes no earlier; or a call has read the token
and is to delete it; or a call has written the lease and is to point to it. -/
inductive Accounted (g : ι → Option Turn) (r : Redis) (token : String) (e : Stored TokenLease) : Prop
  | current {d : DateTime} (pointer : r.data (.current kind e.value.nodeId) = some ⟨token, d⟩) (later : e.deadline ≤ d)
  | due {i : ι} {gi : Turn} (turn : g i = some gi) (node : gi.request.nodeId = e.value.nodeId)
      (due : gi.due = some token)
  | written {i : ι} {gi : Turn} {seconds : Int} (turn : g i = some gi) (node : gi.request.nodeId = e.value.nodeId)
      (written : gi.written = some (token, seconds)) (soon : e.deadline ≤ server r.tick + DateTime.seconds seconds)

/-- Calls know what they have read, and every live lease is accounted for. -/
structure TokenInv (g : ι → Option Turn) (r : Redis) (tr : List (Event redisSig ι)) : Prop where
  request : ∀ i gi, g i = some gi → q i = some gi.request
  read : (fun i => (g i).bind Turn.read) = readToken kind tr
  accounted : ∀ (token : String) (e : Stored TokenLease), r.data (.lease kind token) = some e →
    server r.tick < e.deadline → Accounted server kind g r token e

theorem TokenInv.init : TokenInv server kind q (fun _ : ι => none) Redis.init [] :=
  ⟨fun _ _ e => by (cases e), rfl, fun _ _ e => by (cases e)⟩

variable {server kind q} {g : ι → Option Turn} {r r' : Redis} {tr : List (Event redisSig ι)} {i : ι} {gi gi' : Turn}

/-- What is to be shown of a lease when a call goes on: only the pointer and the call itself may have changed. -/
theorem Accounted.move {token : String} {e : Stored TokenLease} (h : Accounted server kind g r token e)
    (hi : g i = some gi) (htime : server r.tick ≤ server r'.tick)
    (hcurrent : ∀ d, r.data (.current kind e.value.nodeId) = some ⟨token, d⟩ → e.deadline ≤ d →
      Accounted server kind (Function.update g i (some gi')) r' token e)
    (hdue : gi.request.nodeId = e.value.nodeId → gi.due = some token →
      Accounted server kind (Function.update g i (some gi')) r' token e)
    (hwritten : ∀ seconds, gi.request.nodeId = e.value.nodeId → gi.written = some (token, seconds) →
      e.deadline ≤ server r.tick + DateTime.seconds seconds →
      Accounted server kind (Function.update g i (some gi')) r' token e) :
    Accounted server kind (Function.update g i (some gi')) r' token e := by
  cases h with
  | current pointer later => exact hcurrent _ pointer later
  | @due j gj turn node due =>
    by_cases hj : j = i
    · subst hj
      obtain rfl : gj = gi := Option.some.inj (turn.symm.trans hi)
      exact hdue node due
    · exact .due (by rw [Function.update_of_ne hj, turn]) node due
  | @written j gj seconds turn node written soon =>
    by_cases hj : j = i
    · subst hj
      obtain rfl : gj = gi := Option.some.inj (turn.symm.trans hi)
      exact hwritten seconds node written soon
    · exact .written (by rw [Function.update_of_ne hj, turn]) node written
        (Int.le_trans soon (Int.add_le_add_right htime _))

/-- A lease is still accounted for when a call goes on that is neither about it nor about its pointer. -/
theorem Accounted.keep {token : String} {e : Stored TokenLease} (h : Accounted server kind g r token e)
    (hi : g i = some gi) (htime : server r.tick ≤ server r'.tick) (hreq : gi'.request = gi.request)
    (hdue : gi.due = some token → gi'.due = some token)
    (hwritten : ∀ seconds, gi.written = some (token, seconds) → gi'.written = some (token, seconds))
    (hcurrent : r'.data (.current kind e.value.nodeId) = r.data (.current kind e.value.nodeId)) :
    Accounted server kind (Function.update g i (some gi')) r' token e := by
  refine h.move hi htime (fun d pointer later => ?_) (fun node due => ?_) fun seconds node written soon => ?_
  · exact .current (hcurrent.trans pointer) later
  · exact .due (Function.update_self ..) (hreq ▸ node) (hdue due)
  · exact .written (Function.update_self ..) (hreq ▸ node) (hwritten seconds written)
      (Int.le_trans soon (Int.add_le_add_right htime _))

/-- A call starts. -/
theorem TokenInv.spawn (h : TokenInv server kind q g r tr) (hi : g i = none) {request : TokenRequest}
    (hq : q i = some request) : TokenInv server kind q (Function.update g i (some (.start request))) r tr := by
  refine ⟨Pool.forall_update hq h.request, ?_, fun token e he hlive => ?_⟩
  · rw [Pool.bind_update_same (by rw [hi]; rfl)]
    exact h.read
  · have hother : ∀ {j gj}, g j = some gj → Function.update g i (some (Turn.start request)) j = some gj := by
      intro j gj hj
      rw [Function.update_of_ne (fun e => ?_), hj]
      rw [e, hi] at hj
      cases hj
    cases h.accounted token e he hlive with
    | current pointer later => exact .current pointer later
    | due turn node due => exact .due (hother turn) node due
    | written turn node written soon => exact .written (hother turn) node written soon

/-- What a call leaves alone, if it does not touch the pointers and leases of a kind. -/
structure Aside (kind : TokenKind) (c : RedisCall) : Prop where
  next : ∀ (a : c.Ans) (g : Turn), g.next kind c a = g
  read : ∀ (a : c.Ans) (j : ι) (last : Option String), tokenRead kind last ⟨j, c, a⟩ = last
  lease : ∀ token, c.writes ≠ some (.lease kind token)
  current : ∀ nodeId, c.writes ≠ some (.current kind nodeId)

omit [DecidableEq ι] in
/-- A call is aside, or it reads, sets or deletes a pointer or a lease of the kind. -/
theorem aside_or (kind : TokenKind) (c : RedisCall) : Aside (ι := ι) kind c ∨
    (∃ nodeId, c = .get (.current kind nodeId)) ∨
    (∃ token, c = .del (.lease kind token)) ∨ (∃ nodeId, c = .del (.current kind nodeId)) ∨
    (∃ token lease seconds, c = .setEx (.lease kind token) lease seconds) ∨
    ∃ nodeId token seconds, c = .setEx (.current kind nodeId) token seconds := by
  have hlease : ∀ {kind' token token'}, kind' ≠ kind → some (RedisKey.lease kind' token) ≠ some (.lease kind token') :=
    fun hk e => hk (by cases e; rfl)
  have hcurrent : ∀ {kind' n n'}, kind' ≠ kind → some (RedisKey.current kind' n) ≠ some (.current kind n') :=
    fun hk e => hk (by cases e; rfl)
  cases c with
  | get k =>
    cases k with
    | lease kind' token => exact .inl ⟨fun _ _ => rfl, fun _ _ _ => rfl, fun _ e => by (cases e),
      fun _ e => by (cases e)⟩
    | current kind' nodeId =>
      by_cases hk : kind' = kind
      · exact .inr (.inl ⟨nodeId, hk ▸ rfl⟩)
      · exact .inl ⟨fun _ _ => if_neg hk, fun _ _ _ => if_neg hk, fun _ e => by (cases e), fun _ e => by (cases e)⟩
  | del k =>
    cases k with
    | lease kind' token =>
      by_cases hk : kind' = kind
      · exact .inr (.inr (.inl ⟨token, hk ▸ rfl⟩))
      · exact .inl ⟨fun _ _ => if_neg hk, fun _ _ _ => rfl, fun _ => hlease hk, fun _ e => by (cases e)⟩
    | current kind' nodeId =>
      by_cases hk : kind' = kind
      · exact .inr (.inr (.inr (.inl ⟨nodeId, hk ▸ rfl⟩)))
      · exact .inl ⟨fun _ _ => if_neg hk, fun _ _ _ => rfl, fun _ e => by (cases e), fun _ => hcurrent hk⟩
  | setEx k v seconds =>
    cases k with
    | lease kind' token =>
      by_cases hk : kind' = kind
      · subst hk
        exact .inr (.inr (.inr (.inr (.inl ⟨token, v, seconds, rfl⟩))))
      · exact .inl ⟨fun _ _ => if_neg hk, fun _ _ _ => rfl, fun _ => hlease hk, fun _ e => by (cases e)⟩
    | current kind' nodeId =>
      by_cases hk : kind' = kind
      · subst hk
        exact .inr (.inr (.inr (.inr (.inr ⟨nodeId, v, seconds, rfl⟩))))
      · exact .inl ⟨fun _ _ => if_neg hk, fun _ _ _ => rfl, fun _ e => by (cases e), fun _ => hcurrent hk⟩
  | newUuid => exact .inl ⟨fun _ _ => rfl, fun _ _ _ => rfl, fun _ e => by (cases e), fun _ e => by (cases e)⟩
  | utcNow => exact .inl ⟨fun _ _ => rfl, fun _ _ _ => rfl, fun _ e => by (cases e), fun _ e => by (cases e)⟩

variable {p : Platform}

/-- The pointer to a live lease names a token that resolves. -/
theorem live_of_pointer {token : String} {e : Stored TokenLease} {nodeId : Uuid} {d : DateTime}
    (he : r.data (.lease kind token) = some e) (hlive : server r.tick < e.deadline)
    (hd : r.data (.current kind nodeId) = some ⟨token, d⟩) (hle : e.deadline ≤ d) :
    r.live p server (kind, nodeId) = some token := by
  have hlease : r.lease p server kind token = some e.value := by
    rw [Redis.lease_eq, Redis.find, he]
    simp [hlive]
  have hpointer : r.find (server r.tick) (.current kind nodeId) = some token := by
    rw [Redis.find, hd]
    simp [Int.lt_of_lt_of_le hlive hle]
  simp [Redis.live, hpointer, hlease]

variable (hserver : Monotone server)

include hserver in
/-- What is to be shown of a call: the leases that are there afterwards are accounted for, where those that were there
before and live may be taken to be so. -/
theorem TokenInv.call (h : TokenInv server kind q g r tr) (hi : g i = some gi) {c : RedisCall}
    (hnext : gi.next kind c (redisHandler p server c r).1 = gi') (hreq : gi'.request = gi.request)
    (hread : tokenRead kind gi.read ⟨i, c, (redisHandler p server c r).1⟩ = gi'.read)
    (hacc : ∀ (token : String) (e : Stored TokenLease), (redisHandler p server c r).2.data
      (.lease kind token) = some e →
      (r.data (.lease kind token) = some e → server r.tick < e.deadline ∧ Accounted server kind g r token e) →
      server r.tick ≤ server (redisHandler p server c r).2.tick →
      Accounted server kind (Function.update g i (some gi')) (redisHandler p server c r).2 token e) :
    TokenInv server kind q (Function.update g i (some (gi.next kind c (redisHandler p server c r).1)))
      (redisHandler p server c r).2 (tr ++ [⟨i, c, (redisHandler p server c r).1⟩]) := by
  subst hnext
  have htime : server r.tick ≤ server (redisHandler p server c r).2.tick := by
    rw [tick_redisHandler]
    exact hserver (Nat.le_succ _)
  have hgi : readToken kind tr i = gi.read := by
    rw [← congrFun h.read i, hi]
    rfl
  refine ⟨Pool.forall_update (hreq ▸ h.request i gi hi) h.request, ?_, fun token e he hlive => ?_⟩
  · rw [readToken_concat, Pool.bind_update, h.read, hgi, hread]
  · exact hacc token e he (fun hold => ⟨Int.lt_of_le_of_lt htime hlive,
      h.accounted token e hold (Int.lt_of_le_of_lt htime hlive)⟩) htime

include hserver in
/-- A call that is about other things. -/
theorem TokenInv.aside (h : TokenInv server kind q g r tr) (hi : g i = some gi) {c : RedisCall}
    (hc : Aside (ι := ι) kind c) :
    TokenInv server kind q (Function.update g i (some (gi.next kind c (redisHandler p server c r).1)))
      (redisHandler p server c r).2 (tr ++ [⟨i, c, (redisHandler p server c r).1⟩]) := by
  refine h.call hserver hi (hc.next _ _) rfl (hc.read _ _ _) fun token e he hold htime => ?_
  rw [data_of_writes (hc.lease token)] at he
  exact (hold he).2.keep hi htime rfl id (fun _ => id) (data_of_writes (hc.current _) r)

include hserver in
/-- A call reads the pointer. -/
theorem TokenInv.get (h : TokenInv server kind q g r tr) (hi : g i = some gi) {nodeId : Uuid} (hdue : gi.due = none) :
    TokenInv server kind q
      (Function.update g i (some (gi.next kind (.get (.current kind nodeId))
        (redisHandler p server (.get (.current kind nodeId)) r).1)))
      (redisHandler p server (.get (.current kind nodeId)) r).2
      (tr ++ [⟨i, .get (.current kind nodeId), (redisHandler p server (.get (.current kind nodeId)) r).1⟩]) := by
  refine h.call hserver hi (if_pos rfl) rfl (if_pos rfl) fun token e he hold htime => ?_
  refine (hold he).2.keep hi htime rfl (fun hd => ?_) (fun _ => id) rfl
  rw [hdue] at hd
  cases hd

include hserver in
/-- A call deletes the lease of the token that it has read. -/
theorem TokenInv.delLease (h : TokenInv server kind q g r tr) (hi : g i = some gi) {t : String}
    (hdue : gi.due = some t) :
    TokenInv server kind q (Function.update g i (some (gi.next kind (.del (.lease kind t)) ())))
      (redisHandler p server (.del (.lease kind t)) r).2 (tr ++ [⟨i, .del (.lease kind t), ()⟩]) := by
  refine h.call hserver hi (if_pos rfl) rfl rfl fun token e he hold htime => ?_
  have hne : token ≠ t := by
    rintro rfl
    rw [data_del] at he
    cases he
  rw [data_of_writes fun e => hne (by cases e; rfl)] at he
  exact (hold he).2.keep hi htime rfl (fun hd => absurd (Option.some.inj (hd.symm.trans hdue)) hne) (fun _ => id)
    (data_of_writes (fun e => by (cases e)) r)

include hserver in
/-- A call deletes the pointer, and is to delete the token that the pointer names. -/
theorem TokenInv.delCurrent (h : TokenInv server kind q g r tr) (hi : g i = some gi) {nodeId : Uuid}
    (hnode : nodeId = gi.request.nodeId) (hdue : ∀ token ∈ r.live p server (kind, nodeId), gi.due = some token) :
    TokenInv server kind q (Function.update g i (some (gi.next kind (.del (.current kind nodeId)) ())))
      (redisHandler p server (.del (.current kind nodeId)) r).2 (tr ++ [⟨i, .del (.current kind nodeId), ()⟩]) := by
  refine h.call hserver hi (if_pos rfl) rfl rfl fun token e he hold htime => ?_
  rw [data_of_writes fun e => by (cases e)] at he
  obtain ⟨hlive, hacc⟩ := hold he
  refine hacc.move hi htime (fun d pointer later => ?_) (fun node due => ?_) fun seconds node written soon => ?_
  · by_cases hn : e.value.nodeId = nodeId
    · exact .due (Function.update_self ..) (hnode.symm.trans hn.symm)
        (hdue token (live_of_pointer he hlive (hn ▸ pointer) later))
    · exact .current ((data_of_writes (fun e => hn (by cases e; rfl)) r).trans pointer) later
  · exact .due (Function.update_self ..) node due
  · exact .written (Function.update_self ..) node written (Int.le_trans soon (Int.add_le_add_right htime _))

include hserver in
/-- A call writes a lease. -/
theorem TokenInv.setLease (h : TokenInv server kind q g r tr) (hi : g i = some gi) {t : String} {lease : TokenLease}
    {seconds : Int} (hnode : lease.nodeId = gi.request.nodeId) (hwritten : gi.written = none) :
    TokenInv server kind q (Function.update g i (some (gi.next kind (.setEx (.lease kind t) lease seconds) ())))
      (redisHandler p server (.setEx (.lease kind t) lease seconds) r).2
      (tr ++ [⟨i, .setEx (.lease kind t) lease seconds, ()⟩]) := by
  refine h.call hserver hi (if_pos rfl) rfl rfl fun token e he hold htime => ?_
  by_cases hne : token = t
  · subst hne
    rw [data_setEx] at he
    cases he
    exact .written (Function.update_self ..) hnode.symm rfl (Int.add_le_add_right htime _)
  · rw [data_of_writes fun e => hne (by cases e; rfl)] at he
    refine (hold he).2.keep hi htime rfl id (fun _ hw => ?_) (data_of_writes (fun e => by (cases e)) r)
    rw [hwritten] at hw
    cases hw

include hserver in
/-- A call points to the lease that it has written, and the pointer names no live token. -/
theorem TokenInv.setCurrent (h : TokenInv server kind q g r tr) (hi : g i = some gi) {nodeId : Uuid} {t : String}
    {seconds : Int} (hnode : nodeId = gi.request.nodeId) (hwritten : gi.written = some (t, seconds))
    (hdead : r.live p server (kind, nodeId) = none) :
    TokenInv server kind q (Function.update g i (some (gi.next kind (.setEx (.current kind nodeId) t seconds) ())))
      (redisHandler p server (.setEx (.current kind nodeId) t seconds) r).2
      (tr ++ [⟨i, .setEx (.current kind nodeId) t seconds, ()⟩]) := by
  refine h.call hserver hi (if_pos rfl) rfl rfl fun token e he hold htime => ?_
  rw [data_of_writes fun e => by (cases e)] at he
  obtain ⟨hlive, hacc⟩ := hold he
  refine hacc.move hi htime (fun d pointer later => ?_) (fun node due => ?_) fun seconds' node written soon => ?_
  · by_cases hn : e.value.nodeId = nodeId
    · rw [live_of_pointer he hlive (hn ▸ pointer) later] at hdead
      cases hdead
    · exact .current ((data_of_writes (fun e => hn (by cases e; rfl)) r).trans pointer) later
  · exact .due (Function.update_self ..) node due
  · rw [hwritten] at written
    cases written
    refine .current ?_ soon
    rw [← node, ← hnode]
    exact data_setEx ..

include hserver in
/-- A call in its turn keeps the leases accounted for. -/
theorem TokenInv.step (h : TokenInv server kind q g r tr) (hi : g i = some gi) {c : RedisCall} (hc : gi.Allows kind c)
    (hpoints : ∀ k ∈ c.points, r.live p server k = none)
    (hclears : ∀ k ∈ c.clears, ∀ token ∈ r.live p server k, readToken k.1 tr i = some token) :
    TokenInv server kind q (Function.update g i (some (gi.next kind c (redisHandler p server c r).1)))
      (redisHandler p server c r).2 (tr ++ [⟨i, c, (redisHandler p server c r).1⟩]) := by
  rcases aside_or (ι := ι) kind c with ha | ⟨nodeId, rfl⟩ | ⟨t, rfl⟩ | ⟨nodeId, rfl⟩ | ⟨t, lease, seconds, rfl⟩ |
    ⟨nodeId, t, seconds, rfl⟩
  · exact h.aside hserver hi ha
  · exact h.get hserver hi (hc rfl).2
  · exact h.delLease hserver hi (hc rfl)
  · obtain ⟨hnode, hdue⟩ := hc rfl
    refine h.delCurrent hserver hi hnode fun token ht => ?_
    rw [hdue, ← hclears _ rfl token ht, ← congrFun h.read i, hi]
    rfl
  · exact h.setLease hserver hi (hc rfl).1 (hc rfl).2
  · exact h.setCurrent hserver hi (hc rfl).1 (hc rfl).2.2.1 (hpoints _ rfl)

end Invariant

/-! ## Runs -/

section Runs

variable {ι : Type} [DecidableEq ι] (p : Platform) (server : Nat → DateTime)

/-- The pool after a schedule of calls on an empty Redis. -/
def tokenRun (ms : List (Move ι TokenRequest)) : Pool redisSig Unit ι Redis :=
  Pool.exec (redisHandler p server) tokenProgram (Pool.init Redis.init) ms

/-- All calls of a schedule for a node are done. -/
def AllDone (ms : List (Move ι TokenRequest)) (nodeId : Uuid) : Prop :=
  ∀ i request, Pool.asked ms i = some request → request.nodeId = nodeId → ((tokenRun p server ms).result i).isSome

/-- A revocation starts when every issue of the schedule for the node is done. -/
def RevokedLast (ms : List (Move ι TokenRequest)) (nodeId : Uuid) : Prop :=
  ∃ pre i post, ms = pre ++ Move.spawn i (.revoke nodeId) :: post ∧ (tokenRun p server pre).threads i = none ∧
    ∀ j ttl, Pool.asked ms j = some (.issue nodeId ttl) → ((tokenRun p server pre).result j).isSome

/-- When all calls for a node are done, at most one access token and one refresh token of it resolve, and none does if
it was revoked after the last issue. -/
def OneLivePair (ms : List (Move ι TokenRequest)) : Prop :=
  ∀ nodeId, AllDone p server ms nodeId →
    (∀ kind a b leaseA leaseB, (tokenRun p server ms).state.lease p server kind a = some leaseA →
      (tokenRun p server ms).state.lease p server kind b = some leaseB → leaseA.nodeId = nodeId →
      leaseB.nodeId = nodeId → a = b) ∧
    (RevokedLast p server ms nodeId → ∀ kind token lease,
      (tokenRun p server ms).state.lease p server kind token = some lease → lease.nodeId ≠ nodeId)

variable {p server} {ms : List (Move ι TokenRequest)} (kind : TokenKind)

theorem spawn_keeps_tokens :
    Pool.SpawnKeeps tokenProgram (turnSpec kind) (TokenInv server kind (Pool.asked ms)) (fun _ g => g.Returns)
      (fun P m => Pool.AsAsked ms P m ∧ InTurns p server P m) := by
  intro P g i request hadm hi hF
  exact ⟨.start request, follows_turn kind request, hF.inv.spawn (hF.fresh i hi) (hadm.1 hi)⟩

theorem call_keeps_tokens (hserver : Monotone server) :
    Pool.CallKeeps (redisHandler p server) (turnSpec kind) (TokenInv server kind (Pool.asked ms)) (fun _ g => g.Returns)
      (fun P m => Pool.AsAsked ms P m ∧ InTurns p server P m) := by
  intro P g i c k gi hadm hi hgi hok hF
  obtain ⟨hpoints, hclears⟩ := hadm.2 c (Pool.next_eq hi)
  exact ⟨_, rfl, hF.inv.step hserver hgi hok hpoints hclears⟩

/-- When the calls for a node are done, its live leases are the ones that its pointer names. -/
theorem pointer_of_done {P : Pool redisSig Unit ι Redis} {g : ι → Option Turn}
    (hfollows : ∀ i a, P.threads i = some a → ∃ gi, g i = some gi ∧ Prog.wp (turnSpec kind) a (fun _ g => g.Returns) gi)
    (hinv : TokenInv server kind (Pool.asked ms) g P.state P.trace) {nodeId : Uuid}
    (hdone : ∀ i request, Pool.asked ms i = some request → request.nodeId = nodeId → (P.result i).isSome)
      {token : String}
    {lease : TokenLease} (hlease : P.state.lease p server kind token = some lease) (hnode : lease.nodeId = nodeId) :
    ∃ d, P.state.data (.current kind nodeId) = some ⟨token, d⟩ := by
  rw [Redis.lease_eq] at hlease
  obtain ⟨e, he, rfl⟩ := Option.map_eq_some_iff.1 hlease
  obtain ⟨he, hlive⟩ := Option.filter_eq_some_iff.1 he
  -- a call for the node has nothing left to do
  have hreturns : ∀ i gi, g i = some gi → gi.request.nodeId = nodeId → gi.Returns := by
    intro i gi hi hn
    obtain ⟨a, ha⟩ := Option.isSome_iff_exists.1 (hdone i _ (hinv.request i gi hi) hn)
    obtain ⟨gi', hgi', hw⟩ := hfollows i _ (Pool.threads_of_result ha)
    obtain rfl : gi' = gi := Option.some.inj (hgi'.symm.trans hi)
    have hreturns := (Prog.wp_ret _).1 hw
    exact hreturns
  subst hnode
  cases hinv.accounted token e he (of_decide_eq_true hlive) with
  | current pointer later => exact ⟨_, pointer⟩
  | due turn node due =>
    rw [(hreturns _ _ turn node).1] at due
    cases due
  | written turn node written soon =>
    rw [(hreturns _ _ turn node).2.1] at written
    cases written

/-- The leases are accounted for, and a call that has deleted the pointer of a node leaves none. -/
structure ClearedInv (server : Nat → DateTime) (q : ι → Option TokenRequest) (i : ι) (nodeId : Uuid)
    (g : ι → Option Turn) (r : Redis) (tr : List (Event redisSig ι)) : Prop extends TokenInv server kind q g r tr where
  cleared : ∀ gi, g i = some gi → gi.cleared = true → r.data (.current kind nodeId) = none

/-- No issue for the node is under way. -/
def IssuesDone (ms : List (Move ι TokenRequest)) (nodeId : Uuid) (P : Pool redisSig Unit ι Redis) : Prop :=
  ∀ j ttl, Pool.asked ms j = some (.issue nodeId ttl) → (P.result j).isSome

theorem spawn_keeps_cleared (i : ι) (nodeId : Uuid) :
    Pool.SpawnKeeps tokenProgram (turnSpec kind) (ClearedInv kind server (Pool.asked ms) i nodeId)
      (fun _ g => g.Returns) (fun P m => (Pool.AsAsked ms P m ∧ InTurns p server P m) ∧ IssuesDone ms nodeId P) := by
  intro P g j request hadm hj hF
  refine ⟨.start request, follows_turn kind request, hF.inv.toTokenInv.spawn (hF.fresh j hj) (hadm.1.1 hj),
    fun gi hi hc => ?_⟩
  by_cases hij : i = j
  · subst hij
    rw [Function.update_self] at hi
    cases hi
    cases hc
  · rw [Function.update_of_ne hij] at hi
    exact hF.inv.cleared gi hi hc

omit [DecidableEq ι] in
/-- Only the deletion of its pointer makes a call one that has deleted it. -/
theorem cleared_of_next {c : RedisCall} {a : c.Ans} {g : Turn} (h : (g.next kind c a).cleared = true) :
    g.cleared = true ∨ ∃ nodeId, c = .del (.current kind nodeId) := by
  rcases aside_or (ι := Unit) kind c with ha | ⟨nodeId, rfl⟩ | ⟨t, rfl⟩ | ⟨nodeId, rfl⟩ | ⟨t, lease, seconds, rfl⟩ |
    ⟨nodeId, t, seconds, rfl⟩
  · rw [ha.next] at h
    exact .inl h
  · rw [Turn.next, if_pos rfl] at h
    exact .inl h
  · rw [Turn.next, if_pos rfl] at h
    exact .inl h
  · exact .inr ⟨nodeId, rfl⟩
  · rw [Turn.next, if_pos rfl] at h
    exact .inl h
  · rw [Turn.next, if_pos rfl] at h
    exact .inl h

theorem call_keeps_cleared (hserver : Monotone server) {i : ι} {nodeId : Uuid}
    (hi : Pool.asked ms i = some (.revoke nodeId)) :
    Pool.CallKeeps (redisHandler p server) (turnSpec kind) (ClearedInv kind server (Pool.asked ms) i nodeId)
      (fun _ g => g.Returns) (fun P m => (Pool.AsAsked ms P m ∧ InTurns p server P m) ∧ IssuesDone ms nodeId P) := by
  intro P g j c k gj hadm hj hgj hok hF
  obtain ⟨hpoints, hclears⟩ := hadm.1.2 c (Pool.next_eq hj)
  refine ⟨_, rfl, hF.inv.toTokenInv.step hserver hgj hok hpoints hclears, fun gi' hgi' hcleared => ?_⟩
  by_cases hwrites : c.writes = some (.current kind nodeId)
  · cases c with
    | del key =>
      obtain rfl : key = .current kind nodeId := Option.some.inj hwrites
      exact data_del ..
    | setEx key v seconds =>
      -- only an issue sets the pointer, and there is none under way
      obtain rfl : key = .current kind nodeId := Option.some.inj hwrites
      obtain ⟨-, -, -, ttl, hissue⟩ := hok rfl
      obtain ⟨a, ha⟩ := Option.isSome_iff_exists.1 (hadm.2 j ttl (hissue ▸ hF.inv.request j gj hgj))
      rw [Pool.threads_of_result ha] at hj
      cases hj
    | _ => cases hwrites
  · rw [data_of_writes hwrites]
    by_cases hij : i = j
    · subst hij
      rw [Function.update_self] at hgi'
      cases hgi'
      rcases cleared_of_next kind hcleared with hc | ⟨n, rfl⟩
      · exact hF.inv.cleared gj hgj hc
      · have hrequest := Option.some.inj ((hF.inv.request i gj hgj).symm.trans hi)
        have hn : n = nodeId := by
          rw [(hok rfl).1, hrequest]
          rfl
        exact absurd (hn ▸ rfl) hwrites
    · rw [Function.update_of_ne hij] at hgi'
      exact hF.inv.cleared gi' hgi' hcleared

/-- After a revocation that starts when the issues are done, the pointer of the node is gone. -/
theorem none_after_revocation (hserver : Monotone server)
    (hms : Pool.Admits (redisHandler p server) tokenProgram (InTurns p server)
      (Pool.init Redis.init) ms) {nodeId : Uuid}
    (hdone : AllDone p server ms nodeId) (hlast : RevokedLast p server ms nodeId) {token : String} {lease : TokenLease}
    (hlease : (tokenRun p server ms).state.lease p server kind token = some lease) : lease.nodeId ≠ nodeId := by
  obtain ⟨pre, i, post, hsplit, hfree, hissues⟩ := hlast
  have hadm := Pool.admits_and _ _ (Pool.admits_asked _ _ Redis.init ms) hms
  have hparts : Pool.Admits (redisHandler p server) tokenProgram (fun P m => Pool.AsAsked ms P m ∧ InTurns p server P m)
      (Pool.init Redis.init) (pre ++ .spawn i (.revoke nodeId) :: post) := by
    rw [← hsplit]
    exact hadm
  obtain ⟨hpre, hpost⟩ := (Pool.admits_append _ _ _ _ _).1 hparts
  have hasked : Pool.asked ms i = some (.revoke nodeId) := hpost.1.1 hfree
  have hrun : tokenRun p server ms =
      Pool.exec (redisHandler p server) tokenProgram (tokenRun p server pre) (.spawn i (.revoke nodeId) :: post) := by
    rw [tokenRun, hsplit, Pool.exec_append]
    rfl
  -- up to the start of the revocation, and from there on
  obtain ⟨g, hF⟩ := Pool.invariant (spawn_keeps_tokens kind) (call_keeps_tokens kind hserver)
    (Pool.fits_init (TokenInv.init server kind (Pool.asked ms))) pre hpre
  have hkept : ∀ (P : Pool redisSig Unit ι Redis) m, IssuesDone ms nodeId P →
      IssuesDone ms nodeId (Pool.move (redisHandler p server) tokenProgram P m) := by
    intro P m hP j ttl hj
    obtain ⟨a, ha⟩ := Option.isSome_iff_exists.1 (hP j ttl hj)
    exact Option.isSome_iff_exists.2 ⟨a, Pool.result_move _ _ ha m⟩
  have hclear : Pool.Fits (turnSpec kind) (ClearedInv kind server (Pool.asked ms) i nodeId) (fun _ g => g.Returns)
      (tokenRun p server pre) g := by
    refine ⟨hF.follows, hF.fresh, hF.inv, fun gi hgi => ?_⟩
    rw [hF.fresh i hfree] at hgi
    cases hgi
  obtain ⟨g', hF'⟩ := Pool.invariant (spawn_keeps_cleared kind i nodeId)
    (call_keeps_cleared kind hserver hasked) hclear _
    (Pool.admits_and _ _ hpost (Pool.admits_of_kept _ _ hkept hissues _))
  rw [← hrun] at hF'
  obtain ⟨a, ha⟩ := Option.isSome_iff_exists.1 (hdone i _ hasked rfl)
  obtain ⟨gi, hgi, hw⟩ := hF'.follows i _ (Pool.threads_of_result ha)
  have hreturns := (Prog.wp_ret _).1 hw
  have hrequest := Option.some.inj ((hF'.inv.request i gi hgi).symm.trans hasked)
  intro hnode
  obtain ⟨d, hd⟩ := pointer_of_done kind hF'.follows hF'.inv.toTokenInv hdone hlease hnode
  rw [hF'.inv.cleared gi hgi (hreturns.2.2 nodeId hrequest)] at hd
  cases hd

omit kind in
/-- In every run in which the calls move the pointers in turns, a node has one live pair of tokens at most, and none
after a revocation. -/
theorem one_live_pair (hserver : Monotone server)
    (hms : Pool.Admits (redisHandler p server) tokenProgram (InTurns p server) (Pool.init Redis.init) ms) :
    OneLivePair p server ms := by
  intro nodeId hdone
  refine ⟨fun kind a b leaseA leaseB ha hb hna hnb => ?_, fun hlast kind token lease hlease => ?_⟩
  · obtain ⟨g, hF⟩ := Pool.invariant (spawn_keeps_tokens kind) (call_keeps_tokens kind hserver)
      (Pool.fits_init (TokenInv.init server kind (Pool.asked ms))) ms
      (Pool.admits_and _ _ (Pool.admits_asked _ _ _ ms) hms)
    obtain ⟨d, hd⟩ := pointer_of_done kind hF.follows hF.inv hdone ha hna
    obtain ⟨d', hd'⟩ := pointer_of_done kind hF.follows hF.inv hdone hb hnb
    rw [hd] at hd'
    cases hd'
    rfl
  · exact none_after_revocation kind hserver hms hdone hlast hlease

end Runs

/-- Two calls issue tokens for a node, one after the other, and a third revokes them. -/
def tokensInTurn : List (Move Nat TokenRequest) :=
  Move.spawn 0 (.issue 7 (DateTime.seconds 60)) :: List.replicate 9 (Move.go 0) ++
    Move.spawn 1 (.issue 7 (DateTime.seconds 60)) :: List.replicate 11 (Move.go 1) ++
    Move.spawn 2 (.revoke 7) :: List.replicate 6 (Move.go 2)

/-- Two calls issue tokens for a node; both have read the pointers before either sets them. -/
def tokensCrossing : List (Move Nat TokenRequest) :=
  [Move.spawn 0 (.issue 7 (DateTime.seconds 60)), Move.spawn 1 (.issue 7 (DateTime.seconds 60)), .go 0, .go 0,
    .go 1, .go 1] ++ List.replicate 7 (Move.go 0) ++ List.replicate 7 (Move.go 1)

/-- A second passes with each call. -/
def everySecond (n : Nat) : DateTime := DateTime.seconds n

theorem everySecond_monotone : Monotone everySecond := by
  intro a b hab
  exact Int.mul_le_mul_of_nonneg_right (Int.ofNat_le.2 hab) (by decide)

/-- In turn, the calls leave one live pair at most. -/
theorem one_live_pair_in_turn :
    (∀ i < 3, ((tokenRun .plain everySecond tokensInTurn).result i).isSome) ∧
      OneLivePair .plain everySecond tokensInTurn :=
  ⟨by decide +kernel, one_live_pair everySecond_monotone (by decide +kernel)⟩

/-- Two calls that cross leave two live access tokens. -/
theorem two_live_pairs : Monotone everySecond ∧ ¬ OneLivePair .plain everySecond tokensCrossing := by
  refine ⟨everySecond_monotone, fun h => ?_⟩
  have hdone : AllDone .plain everySecond tokensCrossing 7 := by
    have hboth : ((tokenRun .plain everySecond tokensCrossing).result 0).isSome ∧
        ((tokenRun .plain everySecond tokensCrossing).result 1).isSome := by decide +kernel
    intro i request hi _
    match i with
    | 0 => exact hboth.1
    | 1 => exact hboth.2
    | i + 2 => simp [Pool.asked, tokensCrossing] at hi
  have hlive : ∀ n ∈ [0, 2], ((tokenRun .plain everySecond tokensCrossing).state.lease .plain everySecond .access
      ("node-at-" ++ Uuid.hyphenated n)).map TokenLease.nodeId = some 7 := by decide +kernel
  obtain ⟨leaseA, ha, hna⟩ := Option.map_eq_some_iff.1 (hlive 0 (by decide))
  obtain ⟨leaseB, hb, hnb⟩ := Option.map_eq_some_iff.1 (hlive 2 (by decide))
  exact absurd ((h 7 hdone).1 .access _ _ leaseA leaseB ha hb hna hnb) (by decide +kernel)

end PingoraMesh
