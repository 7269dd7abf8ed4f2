import PingoraMesh.Dns.AcmeConduct

/-!
# The ACME client in every interleaving

Operations share the caches of one client, and their calls come in any order; the server, OpenSSL and the clock are any
handler of the other calls (`Client.handler`).

* `requests_accountable`: every request of a run is for an account of the configured directory, or made under an account
  that such a request has created;
* `nonces_not_reused`: no two requests carry the same nonce unless the server has handed it out twice;
* `certificate_of_own_order`: a certificate that is returned was read where the order of its own payload names it, after
  the same operation has sent the request of the key it has generated.
-/

namespace PingoraMesh.Acme

open Calls Fallible

/-! ## The client -/

/-- The state of a client, and of all that it talks to. -/
structure Client (σ : Type) where
  directoryCache : Option Directory
  accountUrlCache : Option String
  world : σ

/-- A client that has just been built. -/
def Client.fresh {σ : Type} (w : σ) : Client σ := ⟨none, none, w⟩

/-- The caches are cells; the rest answers for itself. -/
def Client.handler {σ : Type} (net : Handler acmeSig σ) : Handler acmeSig (Client σ) := fun c s =>
  match c with
  | .cachedDirectory => (s.directoryCache, s)
  | .cacheDirectory directory => ((), { s with directoryCache := some directory })
  | .cachedAccountUrl => (s.accountUrlCache, s)
  | .cacheAccountUrl url => ((), { s with accountUrlCache := some url })
  | c => ((net c s.world).1, { s with world := (net c s.world).2 })

/-- The program of an operation, with its outcome. -/
def operationProgram (x : Libraries) (config : RealAcmeConfig) (q : Operation) : Prog acmeSig (Except Halt Reply) :=
  ExceptT.run (q.program x config)

theorem operationProgram_wp (x : Libraries) (config : RealAcmeConfig) (q : Operation) :
    Prog.wp (conductSpec x config) (operationProgram x config q)
      (fun r g => ∀ reply, r = .ok reply → Delivers x config g.1 reply g.2) (q, []) := by
  refine Prog.wp_mono ?_ (wp_iff_run.1 (operation_does q))
  rintro r g hr reply rfl
  obtain ⟨new, rfl, hdelivers⟩ := hr
  exact hdelivers

section Runs

variable {ι σ : Type} [DecidableEq ι] {x : Libraries} {config : RealAcmeConfig} {net : Handler acmeSig σ} {w : σ}
  {ms : List (Move ι Operation)}

/-- The run of a schedule, from a fresh client. -/
abbrev runOf (x : Libraries) (config : RealAcmeConfig) (net : Handler acmeSig σ) (w : σ)
    (ms : List (Move ι Operation)) : Pool acmeSig (Except Halt Reply) ι (Client σ) :=
  Pool.exec (Client.handler net) (operationProgram x config) (Pool.init (Client.fresh w)) ms

/-! ## Accounts -/

/-- Some operation has fetched the directory from the configured address. -/
def FetchedBy (x : Libraries) (config : RealAcmeConfig) (tr : List (Event acmeSig ι)) (d : Directory) : Prop :=
  ∃ i, Fetched x config (Pool.own tr i) d

/-- Some operation has created the account at the configured server. -/
def AccountOf (x : Libraries) (config : RealAcmeConfig) (tr : List (Event acmeSig ι)) (kid : String) : Prop :=
  ∃ i d response, FetchedBy x config tr d ∧ Answered x (Pool.own tr i) d.newAccount
    (some (accountPayload config)) response ∧ locationHeader response.headers = .ok kid

theorem FetchedBy.append {tr : List (Event acmeSig ι)} {d : Directory} (h : FetchedBy x config tr d)
    (tr' : List (Event acmeSig ι)) : FetchedBy x config (tr ++ tr') d := by
  obtain ⟨i, hi⟩ := h
  refine ⟨i, ?_⟩
  rw [Pool.own_append]
  exact hi.append _

theorem AccountOf.append {tr : List (Event acmeSig ι)} {kid : String} (h : AccountOf x config tr kid)
    (tr' : List (Event acmeSig ι)) : AccountOf x config (tr ++ tr') kid := by
  obtain ⟨i, d, response, hd, hanswered, hlocation⟩ := h
  refine ⟨i, d, response, hd.append tr', ?_, hlocation⟩
  rw [Pool.own_append]
  exact hanswered.append _

/-- What the caches hold, or have answered, stems from the configured server. -/
structure CachesSound (x : Libraries) (config : RealAcmeConfig) (s : Client σ)
    (tr : List (Event acmeSig ι)) : Prop where
  directory : ∀ d, s.directoryCache = some d → FetchedBy x config tr d
  account : ∀ kid, s.accountUrlCache = some kid → AccountOf x config tr kid
  directoryFound : ∀ i d, ⟨i, .cachedDirectory, some d⟩ ∈ tr → FetchedBy x config tr d
  accountFound : ∀ i kid, ⟨i, .cachedAccountUrl, some kid⟩ ∈ tr → AccountOf x config tr kid

theorem CachesSound.knownDirectory {s : Client σ} {tr : List (Event acmeSig ι)} (h : CachesSound x config s tr) {i : ι}
    {d : Directory} (hd : KnowsDirectory x config (Pool.own tr i) d) : FetchedBy x config tr d := by
  rcases hd with hcached | hfetched
  · exact h.directoryFound i d (Pool.mem_own.1 hcached)
  · exact ⟨i, hfetched⟩

theorem CachesSound.granted {s : Client σ} {tr : List (Event acmeSig ι)} (h : CachesSound x config s tr) {i : ι}
    {kid : String} (hkid : Granted x config (Pool.own tr i) kid) : AccountOf x config tr kid := by
  obtain ⟨d, response, hd, hanswered, hlocation⟩ := hkid
  exact ⟨i, d, response, h.knownDirectory hd, hanswered, hlocation⟩

theorem CachesSound.knownAccount {s : Client σ} {tr : List (Event acmeSig ι)} (h : CachesSound x config s tr) {i : ι}
    {kid : String} (hkid : KnowsAccount x config (Pool.own tr i) kid) : AccountOf x config tr kid := by
  rcases hkid with hcached | hgranted
  · exact h.accountFound i kid (Pool.mem_own.1 hcached)
  · exact h.granted hgranted

theorem CachesSound.step {s : Client σ} {tr : List (Event acmeSig ι)} (h : CachesSound x config s tr)
    {q : Operation} {i : ι} {c : AcmeCall} (hc : Conduct x config q (Pool.own tr i) c) :
    CachesSound x config (Client.handler net c s).2 (tr ++ [⟨i, c, (Client.handler net c s).1⟩]) where
  directory d hd := by
    cases c with
    | cacheDirectory d' =>
      obtain rfl : d' = d := Option.some.inj hd
      exact FetchedBy.append ⟨i, hc⟩ _
    | _ => exact (h.directory d hd).append _
  account kid hkid := by
    cases c with
    | cacheAccountUrl url =>
      obtain rfl : url = kid := Option.some.inj hkid
      exact (h.granted hc).append _
    | _ => exact (h.account kid hkid).append _
  directoryFound j d hd := by
    rcases Pool.mem_concat hd with hold | ⟨rfl, rfl, hans⟩
    · exact (h.directoryFound j d hold).append _
    · exact (h.directory d hans.symm).append _
  accountFound j kid hkid := by
    rcases Pool.mem_concat hkid with hold | ⟨rfl, rfl, hans⟩
    · exact (h.accountFound j kid hold).append _
    · exact (h.account kid hans.symm).append _

/-- The caches are sound in every run. -/
theorem cachesSound_run : CachesSound x config (runOf x config net w ms).state (runOf x config net w ms).trace := by
  refine Pool.exec_invariant (I := fun P => CachesSound x config P.state P.trace) (fun P m hP hm => ?_) ?_
    (Pool.admits_remembered (operationProgram_wp x config) (Client.fresh w) ms)
  · rcases Pool.move_cases (Client.handler net) (operationProgram x config) P m with
      ⟨hstate, htrace⟩ | ⟨i, c, rfl, hc, hstate, htrace⟩
    · rw [hstate, htrace]
      exact hP
    · obtain ⟨q, -, hconduct⟩ := hm i rfl c hc
      rw [hstate, htrace]
      exact hP.step hconduct
  · refine ⟨fun _ h => ?_, fun _ h => ?_, fun _ _ h => absurd h List.not_mem_nil,
      fun _ _ h => absurd h List.not_mem_nil⟩
    · cases h
    · cases h

/-- A request of operation `i`: its nonce was fetched by `i` from the configured server; it is signed with the key
itself only for an account, and under an account that was created there otherwise, to read or to do what the operation
is for. -/
structure Accountable (x : Libraries) (config : RealAcmeConfig) (q : Operation)
    (before : List (Event acmeSig ι)) (i : ι)
    (url nonce : String) (payload : Option Value) (identity : JwsIdentity) (body : JwsBody) : Prop where
  protectedPart : ∃ field, identityField x identity = .ok field ∧
    body.protectedB64 = b64Json x (protectedHeader nonce url field)
  payloadPart : body.payloadB64 = payloadB64 x payload
  nonceFetched : ∃ d response, FetchedBy x config before d ∧ ⟨i, .head d.newNonce, .ok response⟩ ∈ before ∧
    replayNonce response.headers = .ok nonce
  authority :
    (identity = .jwk ∧ payload = some (accountPayload config) ∧ ∃ d, FetchedBy x config before d ∧ url = d.newAccount) ∨
      ∃ kid, identity = .kid kid ∧ AccountOf x config before kid ∧
        ((payload = none ∧ Reads x config q (Pool.own before i) url) ∨
          ∃ v, payload = some v ∧ Purpose x config q (Pool.own before i) url v)

/-- In every run, every request is accountable. -/
theorem requests_accountable {before after : List (Event acmeSig ι)} {i : ι} {url : String} {body : JwsBody}
    {answer : Except String Response}
    (htr : (runOf x config net w ms).trace = before ++ ⟨i, .post url body, answer⟩ :: after) :
    ∃ q nonce payload identity, Pool.asked ms i = some q ∧
      Accountable x config q before i url nonce payload identity body := by
  obtain ⟨q, hq, nonce, payload, identity, hsigned, hsend⟩ :=
    Pool.event_remembered (operationProgram_wp x config) (Client.fresh w) ms htr
  obtain ⟨ms₁, -, hbefore, -⟩ := Pool.at_event htr (Nat.zero_le _)
  have hcaches : CachesSound x config (runOf x config net w ms₁).state (runOf x config net w ms₁).trace :=
    cachesSound_run
  rw [runOf, hbefore] at hcaches
  obtain ⟨field, hfield, hprotected⟩ := hsigned.protectedPart
  obtain ⟨d, response, input, pre, hown, hd, hnonce, -⟩ := hsigned.nonceFetched
  have hknown : KnowsDirectory x config (Pool.own before i) d := by
    rw [hown]
    exact hd.append _
  have hhead : ⟨i, .head d.newNonce, .ok response⟩ ∈ before := by
    refine Pool.mem_own.1 ?_
    rw [hown]
    exact List.mem_append_right _ List.mem_cons_self
  refine ⟨q, nonce, payload, identity, hq, ⟨field, hfield, hprotected⟩, hsigned.payloadPart,
    ⟨d, response, hcaches.knownDirectory hknown, hhead, hnonce⟩, ?_⟩
  cases hsend with
  | account known => exact .inl ⟨rfl, rfl, _, hcaches.knownDirectory known, rfl⟩
  | read known reads => exact .inr ⟨_, rfl, hcaches.knownAccount known, .inl ⟨rfl, reads⟩⟩
  | act known purpose => exact .inr ⟨_, rfl, hcaches.knownAccount known, .inr ⟨_, rfl, purpose⟩⟩

/-! ## Nonces -/

/-- The nonce that a call has fetched. -/
def madeNonce : Made acmeSig → Option String
  | ⟨.head _, .ok response⟩ => (replayNonce response.headers).toOption
  | _ => none

/-- The nonces that the server has handed out, in order. -/
def answeredNonces (tr : List (Event acmeSig ι)) : List String := tr.filterMap fun e => madeNonce ⟨e.call, e.ans⟩

/-- The body carries the nonce in its protected header. -/
def Carries (x : Libraries) (body : JwsBody) (nonce : String) : Prop :=
  ∃ url field, body.protectedB64 = b64Json x (protectedHeader nonce url field)

theorem madeNonce_head {url nonce : String} {response : Response} (h : replayNonce response.headers = .ok nonce) :
    madeNonce ⟨.head url, .ok response⟩ = some nonce := by
  rw [madeNonce, h]
  rfl

theorem own_nonces_sublist (tr : List (Event acmeSig ι)) (i : ι) :
    ((Pool.own tr i).filterMap madeNonce).Sublist (answeredNonces tr) := by
  induction tr with
  | nil => exact List.Sublist.refl _
  | cons e tr ih =>
    have hcons : answeredNonces (e :: tr) = (madeNonce ⟨e.call, e.ans⟩).toList ++ answeredNonces tr := by
      cases h : madeNonce ⟨e.call, e.ans⟩ <;> simp [answeredNonces, h]
    rw [hcons]
    obtain ⟨j, c, r⟩ := e
    by_cases hij : j = i
    · subst hij
      rw [Pool.own_cons_self]
      have hown : (⟨c, r⟩ :: Pool.own tr j).filterMap madeNonce =
          (madeNonce ⟨c, r⟩).toList ++ (Pool.own tr j).filterMap madeNonce := by
        cases h : madeNonce ⟨c, r⟩ <;> simp [h]
      rw [hown]
      exact List.Sublist.append (List.Sublist.refl _) ih
    · rw [Pool.own_cons_ne hij]
      exact ih.trans (List.sublist_append_right _ _)

/-- A list without repetitions comes from different members. -/
theorem eq_of_filterMap_nodup {α β : Type} {f : α → Option β} {l : List α} (h : (l.filterMap f).Nodup)
    {a b : α} (ha : a ∈ l) (hb : b ∈ l) {v : β} (hfa : f a = some v) (hfb : f b = some v) : a = b := by
  induction l with
  | nil => cases ha
  | cons y l ih =>
    have hrest : (l.filterMap f).Nodup := h.sublist ((List.sublist_cons_self y l).filterMap f)
    -- a member of the tail does not have the value of the head
    have htail : ∀ z ∈ l, f y = some v → f z ≠ some v := by
      intro z hz hy hzv
      rw [List.filterMap_cons_some hy, List.nodup_cons] at h
      exact h.1 (List.mem_filterMap.2 ⟨z, hz, hzv⟩)
    rcases List.mem_cons.1 ha with rfl | hin
    · rcases List.mem_cons.1 hb with rfl | hin'
      · rfl
      · exact absurd hfb (htail b hin' hfa)
    · rcases List.mem_cons.1 hb with rfl | hin'
      · exact absurd hfa (htail a hin hfb)
      · exact ih hrest hin hin'

/-- The last two of a list come after another member that is neither. -/
theorem pair_after {α : Type} {l m k : List α} {a y z : α} (h : l ++ a :: m = k ++ [y, z]) (hy : a ≠ y) (hz : a ≠ z) :
    ∃ m', k = l ++ a :: m' := by
  rcases List.eq_nil_or_concat m with rfl | ⟨m₁, z', rfl⟩
  · have hlast := List.append_inj' (h.trans (List.append_cons k y [z])) rfl
    exact absurd (List.singleton_inj.1 hlast.2) hz
  · rw [List.concat_eq_append, ← List.cons_append, ← List.append_assoc] at h
    obtain ⟨h, -⟩ := List.append_inj' (h.trans (List.append_cons k y [z])) rfl
    rcases List.eq_nil_or_concat m₁ with rfl | ⟨m₂, y', rfl⟩
    · exact absurd (List.singleton_inj.1 (List.append_inj' h rfl).2) hy
    · rw [List.concat_eq_append, ← List.cons_append, ← List.append_assoc] at h
      exact ⟨m₂, (List.append_inj' h rfl).1.symm⟩

/-- The protected header tells nonces apart. -/
def HeadersTell (x : Libraries) : Prop := ∀ n n' url url' field field',
  b64Json x (protectedHeader n url field) = b64Json x (protectedHeader n' url' field') → n = n'

/-- Two requests carry different nonces, and if the header tells nonces apart no nonce is that of both. -/
def CarryApart (x : Libraries) (body body' : JwsBody) : Prop :=
  (∃ n n', n ≠ n' ∧ Carries x body n ∧ Carries x body' n') ∧
    (HeadersTell x → ∀ n n', Carries x body n → Carries x body' n' → n ≠ n')

theorem Carries.unique {body : JwsBody} {n n' : String} (hx : HeadersTell x) (h : Carries x body n)
    (h' : Carries x body n') : n = n' := by
  obtain ⟨url, field, hbody⟩ := h
  obtain ⟨url', field', hbody'⟩ := h'
  exact hx n n' url url' field field' (hbody.symm.trans hbody')

theorem CarryApart.of_ne {body body' : JwsBody} {n n' : String} (hne : n ≠ n') (h : Carries x body n)
    (h' : Carries x body' n') : CarryApart x body body' := by
  refine ⟨⟨n, n', hne, h, h'⟩, fun hx m m' hm hm' => ?_⟩
  rw [hm.unique hx h, hm'.unique hx h']
  exact hne

/-- Two requests of a run carry different nonces. -/
theorem posts_apart {a b c : List (Event acmeSig ι)} {i j : ι} {url url' : String} {body body' : JwsBody}
    {r r' : Except String Response} (hnodup : (answeredNonces (runOf x config net w ms).trace).Nodup)
    (htr : (runOf x config net w ms).trace = a ++ ⟨i, .post url body, r⟩ :: (b ++ ⟨j, .post url' body', r'⟩ :: c)) :
    CarryApart x body body' := by
  have htr' : (runOf x config net w ms).trace = (a ++ ⟨i, .post url body, r⟩ :: b) ++
    ⟨j, .post url' body', r'⟩ :: c := by
    rw [htr]
    simp
  obtain ⟨q, -, n, payload, identity, hsigned, -⟩ :=
    Pool.event_remembered (operationProgram_wp x config) (Client.fresh w) ms htr
  obtain ⟨q', -, n', payload', identity', hsigned', -⟩ :=
    Pool.event_remembered (operationProgram_wp x config) (Client.fresh w) ms htr'
  obtain ⟨d, response, input, pre, hown, -, hnonce, -⟩ := hsigned.nonceFetched
  obtain ⟨d', response', input', pre', hown', -, hnonce', -⟩ := hsigned'.nonceFetched
  obtain ⟨field, -, hfield⟩ := hsigned.protectedPart
  obtain ⟨field', -, hfield'⟩ := hsigned'.protectedPart
  have hcarry : Carries x body n := ⟨url, field, hfield⟩
  have hcarry' : Carries x body' n' := ⟨url', field', hfield'⟩
  refine CarryApart.of_ne ?_ hcarry hcarry'
  rintro rfl
  have hmid : (answeredNonces (a ++ ⟨i, .post url body, r⟩ :: b)).Nodup := by
    refine hnodup.sublist ?_
    rw [htr']
    exact List.Sublist.filterMap _ (List.sublist_append_left _ _)
  dsimp only at hown hown'
  have hhead : ⟨.head d.newNonce, .ok response⟩ ∈ Pool.own a i := by
    rw [hown]
    exact List.mem_append_right _ List.mem_cons_self
  by_cases hij : i = j
  · -- the second nonce was fetched after the first request
    subst hij
    rw [Pool.own_append, Pool.own_cons_self] at hown'
    obtain ⟨m, hm⟩ := pair_after hown' (by simp) (by simp)
    have hown'' := (own_nonces_sublist (a ++ ⟨i, .post url body, r⟩ :: b) i).nodup hmid
    rw [Pool.own_append, Pool.own_cons_self, hown', List.filterMap_append] at hown''
    refine List.disjoint_of_nodup_append hown'' (a := n) ?_ ?_
    · rw [hm]
      exact List.mem_filterMap.2 ⟨_, List.mem_append_left _ hhead, madeNonce_head hnonce⟩
    · exact List.mem_filterMap.2 ⟨_, List.mem_cons_self, madeNonce_head hnonce'⟩
  · have hhead' : ⟨.head d'.newNonce, .ok response'⟩ ∈ Pool.own (a ++ ⟨i, .post url body, r⟩ :: b) j := by
      rw [hown']
      exact List.mem_append_right _ List.mem_cons_self
    have heq := eq_of_filterMap_nodup hmid (List.mem_append_left _ (Pool.mem_own.1 hhead)) (Pool.mem_own.1 hhead')
      (madeNonce_head hnonce) (madeNonce_head hnonce')
    exact hij (congrArg Event.thread heq)

/-- What holds of any two members, in their order, holds pairwise. -/
theorem pairwise_of_splits {α : Type} {R : α → α → Prop} {l : List α}
    (h : ∀ a y b z c, l = a ++ y :: (b ++ z :: c) → R y z) : l.Pairwise R := by
  induction l with
  | nil => exact List.Pairwise.nil
  | cons y l ih =>
    refine List.pairwise_cons.2 ⟨fun z hz => ?_, ih fun a y' b z c hl => h (y :: a) y' b z c (by rw [hl]; rfl)⟩
    obtain ⟨b, c, rfl⟩ := List.append_of_mem hz
    exact h [] y b z c rfl

/-- No two requests carry the same nonce, as long as the server has handed out no nonce twice and, for all the nonces
that a body can be said to carry, as long as the header tells nonces apart. -/
theorem nonces_not_reused (hnodup : (answeredNonces (runOf x config net w ms).trace).Nodup) :
    (runOf x config net w ms).trace.Pairwise fun e e' => ∀ url body url' body', e.call = .post url body →
      e'.call = .post url' body' → CarryApart x body body' := by
  refine pairwise_of_splits fun a e b e' c htr url body url' body' he he' => ?_
  obtain ⟨i, _, r⟩ := e
  obtain ⟨j, _, r'⟩ := e'
  dsimp only at he he'
  subst he he'
  exact posts_apart hnodup htr

/-! ## Certificates -/

/-- A certificate that is returned was read from the address that the order of the payload names, once it was valid, by
the operation that has seen the authorization valid and has sent the request of the key it has generated to finalize the
order. -/
theorem certificate_of_own_order {i : ι} {turns : ℕ} {order : QueuedOrder}
    (hi : Pool.asked ms i = some (.finalize turns order)) {reply : Reply}
    (hr : (runOf x config net w ms).result i = some (.ok reply)) :
    ∃ m csr before after, reply = .material m ∧
      FinalizedBy x config (Pool.own (runOf x config net w ms).trace i) order m csr before after := by
  obtain ⟨q, hq, hdelivers⟩ := Pool.result_remembered (operationProgram_wp x config) (Client.fresh w) ms hr
  obtain rfl : q = .finalize turns order := Option.some.inj (hq.symm.trans hi)
  have hdone := hdelivers reply rfl
  cases reply with
  | material m =>
    obtain ⟨csr, before, after, hfinalized⟩ := hdone
    exact ⟨m, csr, before, after, rfl, hfinalized⟩
  | payload v => exact hdone.elim
  | done => exact hdone.elim

end Runs

/-! ## A server -/

/-- An object of texts, as JSON. -/
def plainJson : Value → String
  | .object fields => "\x7b" ++ Text.join "," (fields.map fun f => "\"" ++ f.1 ++ "\":\"" ++
    f.2.asStr.getD "" ++ "\"") ++ "\x7d"
  | _ => ""

/-- The directory of the server below. -/
def directoryText : String :=
  "\x7b\"newNonce\":\"https://ca/nonce\",\"newAccount\":\"https://ca/account\",\"newOrder\":\"https://ca/order\"\x7d"

/-- Encodings that leave texts as they are, and the documents of the server below. -/
def Libraries.plain : Libraries where
  toJson := plainJson
  b64 bs := String.ofList (bs.map fun b => Char.ofNat b.toNat)
  sha256 bs := bs
  accountJwk := .ok { crv := "P-256", kty := "EC", x := "x", y := "y" }
  readDirectory text :=
    if text = directoryText then
      some { newNonce := "https://ca/nonce", newAccount := "https://ca/account", newOrder := "https://ca/order" }
    else none
  readOrder text :=
    if text = "an order" then
      some { status := "valid", authorizations := ["https://ca/authz/1"], finalize := "https://ca/finalize/1"
             certificate := some "https://ca/cert/1", error := none }
    else none
  readAuthorization text :=
    if text = "an authorization" then
      some { status := "valid", identifier := { value := "www.example.com" }, challenges := [] }
    else none
  stackFromPem text :=
    if text = "leaf" then
      some
        [{ notBefore := .ok 0, notAfter := .ok (DateTime.seconds 7776000), pem := .ok "leaf", fingerprint := .ok "00" }]
    else none
  statusText := Nat.repr

/-- What the server below answers to a signed request. -/
def plainAnswer (url : String) : Response :=
  if url = "https://ca/account" then
    { status := 201, headers := [("location", "https://ca/account/1")], body := .ok "" }
  else if url = "https://ca/authz/1" then { status := 200, headers := [], body := .ok "an authorization" }
  else if url = "https://ca/order/1" then { status := 200, headers := [], body := .ok "an order" }
  else if url = "https://ca/cert/1" then { status := 200, headers := [], body := .ok "leaf" }
  else { status := 200, headers := [], body := .ok "" }

/-- A server that numbers its nonces, and finds everything valid. -/
def plainServer : Handler acmeSig Nat := fun c n =>
  match c with
  | .get _ => (.ok { status := 200, headers := [], body := .ok directoryText }, n)
  | .head _ => (.ok { status := 200, headers := [("replay-nonce", "nonce-" ++ Nat.repr n)], body := .ok "" }, n + 1)
  | .post url _ => (.ok (plainAnswer url), n)
  | .sign _ => (.ok "signature", n)
  | .generateCsr _ _ _ => (.ok { csrDer := [1], keyPemEncrypted := "key" }, n)
  | .instantNow => (n, n)
  | .cachedDirectory => (none, n)
  | .cachedAccountUrl => (none, n)
  | .cacheDirectory _ | .cacheAccountUrl _ | .sleep _ => ((), n)

/-- A client of it. -/
def plainConfig : RealAcmeConfig where
  directoryUrl := "https://ca/directory"
  contactEmail := none
  certKeyPassphrase := "secret"
  dnsPropagationWaitSeconds := 0
  pollIntervalSeconds := 5
  pollTimeoutSeconds := 180

/-- The payload of an order that has been prepared. -/
def plainPayload : Value :=
  challengePayload "example.com"
    { orderUrl := "https://ca/order/1", authorizationUrl := "https://ca/authz/1",
      challengeUrl := "https://ca/challenge/1"
      challengeToken := "token", identifier := "www.example.com", recordValue := "record"
      finalizeUrl := "https://ca/finalize/1" }

/-- The order, claimed for its certificate. -/
def plainOrder : QueuedOrder where
  orderId := 1
  siteId := none
  certificateId := 2
  orderType := "issue"
  acmeProvider := "custom"
  provider := { providerType := "noop", apiEndpoint := none, credentials := .object [] }
  zoneName := "example.com"
  externalZoneId := "zone-1"
  challengePayload := plainPayload
  commonName := "www.example.com"
  sans := []

/-- An acknowledgement and a finalization, turn by turn. -/
def plainTurns : List (Move Nat Operation) :=
  [Move.spawn 0 (.acknowledge plainPayload), Move.spawn 1 (.finalize 3 plainOrder)] ++
    (List.replicate 40 [Move.go 0, .go 1]).flatten

/-- The address of a signed request. -/
def postedUrl : Event acmeSig Nat → Option String
  | ⟨_, .post url _, _⟩ => some url
  | _ => none

/-- There is a request in that run, no nonce is handed out twice, and the finalization returns. -/
theorem plainTurns_run :
    ((runOf .plain plainConfig plainServer 0 plainTurns).trace.findSome? postedUrl).isSome = true ∧
    (answeredNonces (runOf .plain plainConfig plainServer 0 plainTurns).trace).Nodup ∧
    ((runOf .plain plainConfig plainServer 0 plainTurns).result 1).map (·.isOk) = some true := by
  decide +kernel

theorem requests_accountable_plain : ∃ before i url body answer after q nonce payload identity,
    (runOf .plain plainConfig plainServer 0 plainTurns).trace = before ++ ⟨i, .post url body, answer⟩ :: after ∧
      Pool.asked plainTurns i = some q ∧
        Accountable .plain plainConfig q before i url nonce payload identity body := by
  obtain ⟨hsome, -, -⟩ := plainTurns_run
  obtain ⟨url, hurl⟩ := Option.isSome_iff_exists.1 hsome
  obtain ⟨⟨i, c, answer⟩, he, hposted⟩ := List.exists_of_findSome?_eq_some hurl
  cases c with
  | post url' body =>
    obtain ⟨before, after, hsplit⟩ := List.append_of_mem he
    obtain ⟨q, nonce, payload, identity, hq, haccountable⟩ := requests_accountable hsplit
    exact ⟨before, i, url', body, answer, after, q, nonce, payload, identity, hsplit, hq, haccountable⟩
  | _ => cases hposted

theorem nonces_not_reused_plain : (runOf .plain plainConfig plainServer 0 plainTurns).trace.Pairwise fun e e' =>
    ∀ url body url' body', e.call = .post url body → e'.call = .post url' body' → CarryApart .plain body body' :=
  nonces_not_reused plainTurns_run.2.1

theorem certificate_of_own_order_plain : ∃ m csr before after,
    FinalizedBy .plain plainConfig (Pool.own (runOf .plain plainConfig plainServer 0 plainTurns).trace 1)
      plainOrder m csr before after := by
  obtain ⟨-, -, hresult⟩ := plainTurns_run
  obtain ⟨out, hout, hok⟩ := Option.map_eq_some_iff.1 hresult
  cases out with
  | error e => cases hok
  | ok reply =>
    have hasked : Pool.asked plainTurns 1 = some (.finalize 3 plainOrder) := rfl
    obtain ⟨m, csr, before, after, -, hfinalized⟩ := certificate_of_own_order hasked hout
    exact ⟨m, csr, before, after, hfinalized⟩

end PingoraMesh.Acme
