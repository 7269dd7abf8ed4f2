import PingoraMesh.Dns.Acme
import PingoraMesh.Lib.Own

/-!
# What the ACME client sends

* `Conduct` says which requests an operation may send after those that it has sent;
* `Does` is the judgement for programs of the client: the calls are allowed, and result and calls fit together;
* `operation_does`: all operations conduct themselves so, and `Delivers` holds of what they return.
-/

namespace PingoraMesh.Acme

open Calls Fallible

/-! ## What has been learnt -/

section Learnt

variable (x : Libraries) (config : RealAcmeConfig)

/-- The directory has been fetched. -/
def Fetched (l : List (Made acmeSig)) (d : Directory) : Prop :=
  ∃ response body, ⟨.get config.directoryUrl, .ok response⟩ ∈ l ∧ response.isSuccess = true ∧ response.body = .ok body ∧
    x.readDirectory body = some d

/-- The directory has been fetched, or found in the cache. -/
def KnowsDirectory (l : List (Made acmeSig)) (d : Directory) : Prop :=
  ⟨.cachedDirectory, some d⟩ ∈ l ∨ Fetched x config l d

/-- A request was answered with success. -/
def Answered (l : List (Made acmeSig)) (url : String) (payload : Option Value) (response : Response) : Prop :=
  ∃ body, ⟨.post url body, .ok response⟩ ∈ l ∧ body.payloadB64 = payloadB64 x payload ∧ response.isSuccess = true

/-- The account was created, or fetched, by a request to `newAccount`. -/
def Granted (l : List (Made acmeSig)) (kid : String) : Prop :=
  ∃ d response, KnowsDirectory x config l d ∧ Answered x l d.newAccount (some (accountPayload config)) response ∧
    locationHeader response.headers = .ok kid

/-- The account has been created, or found in the cache. -/
def KnowsAccount (l : List (Made acmeSig)) (kid : String) : Prop :=
  ⟨.cachedAccountUrl, some kid⟩ ∈ l ∨ Granted x config l kid

/-- A POST-as-GET was answered with a document. -/
def ReadFrom {α : Type} (read : String → Option α) (l : List (Made acmeSig)) (url : String) (a : α) : Prop :=
  ∃ response body, Answered x l url none response ∧ response.body = .ok body ∧ read body = some a

/-- The authorization was seen to be valid. -/
def Authorized (l : List (Made acmeSig)) (url : String) : Prop :=
  ∃ a : Authorization, ReadFrom x x.readAuthorization l url a ∧ a.status = "valid"

/-- An order was placed. -/
structure Placed (l : List (Made acmeSig)) (identifiers : List String) (orderUrl : String) (order : Order) : Prop where
  answered : ∃ d response body, KnowsDirectory x config l d ∧
    Answered x l d.newOrder (some (orderPayload identifiers)) response ∧
      locationHeader response.headers = .ok orderUrl ∧
    response.body = .ok body ∧ x.readOrder body = some order

variable {x config} {l : List (Made acmeSig)}

theorem Fetched.append {d : Directory} (h : Fetched x config l d) (l' : List (Made acmeSig)) : Fetched x config
    (l ++ l') d := by
  obtain ⟨response, body, hget, hrest⟩ := h
  exact ⟨response, body, List.mem_append_left _ hget, hrest⟩

theorem KnowsDirectory.append {d : Directory} (h : KnowsDirectory x config l d) (l' : List (Made acmeSig)) :
    KnowsDirectory x config (l ++ l') d := by
  rcases h with hcached | hfetched
  · exact .inl (List.mem_append_left _ hcached)
  · exact .inr (hfetched.append l')

theorem Answered.append {url : String} {payload : Option Value} {response : Response}
    (h : Answered x l url payload response)
    (l' : List (Made acmeSig)) : Answered x (l ++ l') url payload response := by
  obtain ⟨body, hpost, hrest⟩ := h
  exact ⟨body, List.mem_append_left _ hpost, hrest⟩

theorem Answered.prepend {url : String} {payload : Option Value} {response : Response}
    (h : Answered x l url payload response)
    (l' : List (Made acmeSig)) : Answered x (l' ++ l) url payload response := by
  obtain ⟨body, hpost, hrest⟩ := h
  exact ⟨body, List.mem_append_right _ hpost, hrest⟩

theorem Granted.append {kid : String} (h : Granted x config l kid) (l' : List (Made acmeSig)) :
    Granted x config (l ++ l') kid := by
  obtain ⟨d, response, hd, hanswered, hlocation⟩ := h
  exact ⟨d, response, hd.append l', hanswered.append l', hlocation⟩

theorem KnowsAccount.append {kid : String} (h : KnowsAccount x config l kid) (l' : List (Made acmeSig)) :
    KnowsAccount x config (l ++ l') kid := by
  rcases h with hcached | hgranted
  · exact .inl (List.mem_append_left _ hcached)
  · exact .inr (hgranted.append l')

theorem ReadFrom.append {α : Type} {read : String → Option α} {url : String} {a : α} (h : ReadFrom x read l url a)
    (l' : List (Made acmeSig)) : ReadFrom x read (l ++ l') url a := by
  obtain ⟨response, body, hanswered, hrest⟩ := h
  exact ⟨response, body, hanswered.append l', hrest⟩

theorem ReadFrom.prepend {α : Type} {read : String → Option α} {url : String} {a : α} (h : ReadFrom x read l url a)
    (l' : List (Made acmeSig)) : ReadFrom x read (l' ++ l) url a := by
  obtain ⟨response, body, hanswered, hrest⟩ := h
  exact ⟨response, body, hanswered.prepend l', hrest⟩

theorem Authorized.append {url : String} (h : Authorized x l url) (l' : List (Made acmeSig)) :
    Authorized x (l ++ l') url := by
  obtain ⟨a, hread, hvalid⟩ := h
  exact ⟨a, hread.append l', hvalid⟩

theorem Placed.append {identifiers : List String} {orderUrl : String} {order : Order}
    (h : Placed x config l identifiers orderUrl order) (l' : List (Made acmeSig)) :
    Placed x config (l ++ l') identifiers orderUrl order := by
  obtain ⟨d, response, body, hd, hanswered, hrest⟩ := h.answered
  exact ⟨d, response, body, hd.append l', hanswered.append l', hrest⟩

end Learnt

/-! ## Operations -/

/-- The operations of the client. -/
inductive Operation where
  | prepare (order : QueuedOrder)
  | acknowledge (payload : Value)
  | finalize (turns : Nat) (order : QueuedOrder)

/-- What the operations return. -/
inductive Reply where
  | payload (value : Value)
  | done
  | material (material : IssuedCertificateMaterial)

/-- The program of an operation. -/
def Operation.program (x : Libraries) (config : RealAcmeConfig) : Operation → AcmeM Reply
  | .prepare order => .payload <$> prepareDns01Challenge x config order
  | .acknowledge payload => (fun _ => .done) <$> acknowledgeDns01Challenge x config payload
  | .finalize turns order => .material <$> finalizeDns01Order x config turns order

section Conduct

variable (x : Libraries) (config : RealAcmeConfig)

/-- The request for a certificate of an order, and its key, were generated. -/
abbrev csrMade (order : QueuedOrder) (csr : GeneratedCertificateRequest) : Made acmeSig :=
  ⟨.generateCsr order.commonName (uniqueIdentifiers order.commonName order.sans) config.certKeyPassphrase, .ok csr⟩

/-- What an operation may ask for with a payload, once it has an account. -/
def Purpose : Operation → List (Made acmeSig) → String → Value → Prop
  | .prepare order, l, url, payload => ∃ d name, KnowsDirectory x config l d ∧ url = d.newOrder ∧
      uniqueIdentifiers order.commonName order.sans = [name] ∧ payload = orderPayload [name]
  | .acknowledge challenge, _, url, payload => payloadStr challenge "challenge_url" = .ok url ∧ payload = .object []
  | .finalize _ order, l, url, payload => ∃ authorizationUrl csr,
      payloadStr order.challengePayload "authorization_url" = .ok authorizationUrl ∧ Authorized x l authorizationUrl ∧
      payloadStr order.challengePayload "finalize_url" = .ok url ∧
      csrMade config order csr ∈ l ∧ payload = csrPayload x csr

/-- What an operation may read. -/
def Reads : Operation → List (Made acmeSig) → String → Prop
  | .prepare order, l, url => ∃ orderUrl placed,
      Placed x config l (uniqueIdentifiers order.commonName order.sans) orderUrl placed ∧
        placed.authorizations.head? = some url
  | .acknowledge _, _, _ => False
  | .finalize _ order, l, url => payloadStr order.challengePayload "authorization_url" = .ok url ∨
      payloadStr order.challengePayload "order_url" = .ok url ∨
      ∃ orderUrl placed, payloadStr order.challengePayload "order_url" = .ok orderUrl ∧
        ReadFrom x x.readOrder l orderUrl placed ∧ placed.status = "valid" ∧ placed.certificate = some url

/-- Which requests there are: for an account, under the key itself, and all others under the account. -/
inductive MaySend (q : Operation) (l : List (Made acmeSig)) : String → Option Value → JwsIdentity → Prop
  | account {d : Directory} (known : KnowsDirectory x config l d) :
      MaySend q l d.newAccount (some (accountPayload config)) .jwk
  | read {url kid : String} (known : KnowsAccount x config l kid) (reads : Reads x config q l url) :
      MaySend q l url none (.kid kid)
  | act {url kid : String} {payload : Value} (known : KnowsAccount x config l kid)
      (purpose : Purpose x config q l url payload) : MaySend q l url (some payload) (.kid kid)

/-- The request is signed with the nonce that the call before the signature has fetched. -/
structure Signed (l : List (Made acmeSig)) (url : String) (payload : Option Value) (identity : JwsIdentity)
    (body : JwsBody) (nonce : String) : Prop where
  nonceFetched : ∃ d response input pre, l = pre ++ [⟨.head d.newNonce, .ok response⟩,
    ⟨.sign input, .ok body.signature⟩] ∧ KnowsDirectory x config pre d ∧ replayNonce response.headers = .ok nonce ∧
    input = body.protectedB64 ++ "." ++ body.payloadB64
  protectedPart : ∃ field, identityField x identity = .ok field ∧
    body.protectedB64 = b64Json x (protectedHeader nonce url field)
  payloadPart : body.payloadB64 = payloadB64 x payload

/-- What an operation may call after its earlier calls. -/
def Conduct (q : Operation) (l : List (Made acmeSig)) : AcmeCall → Prop
  | .cacheDirectory d => Fetched x config l d
  | .cacheAccountUrl kid => Granted x config l kid
  | .post url body => ∃ nonce payload identity, Signed x config l url payload identity body nonce ∧
      MaySend x config q l url payload identity
  | _ => True

/-- The specification of `Conduct`. -/
abbrev conductSpec : Spec acmeSig (Operation × List (Made acmeSig)) := .remembering (Conduct x config)

/-- The calls of a program are allowed after those in `l`, and its result and its calls fit together. -/
def Does {α : Type} (q : Operation) (l : List (Made acmeSig)) (m : AcmeM α)
    (R : α → List (Made acmeSig) → Prop) : Prop :=
  wp (conductSpec x config) m (fun a g => ∃ new, g = (q, l ++ new) ∧ R a new) (fun _ _ => True) (q, l)

end Conduct

/-! ## Rules -/

section Rules

variable {x : Libraries} {config : RealAcmeConfig} {q : Operation} {l : List (Made acmeSig)} {α β : Type}
  {R : α → List (Made acmeSig) → Prop} {R' : β → List (Made acmeSig) → Prop}

theorem Does.pure {a : α} (h : R a []) : Does x config q l (Pure.pure a) R := (wp_pure a).2 ⟨[], by simp, h⟩

theorem Does.throw {e : Halt} : Does x config q l (MonadExcept.throw e) R := (wp_throw e).2 trivial

theorem Does.bind {m : AcmeM α} {f : α → AcmeM β} (hm : Does x config q l m R)
    (hf : ∀ a new, R a new → Does x config q (l ++ new) (f a) fun b new' => R' b (new ++ new')) :
    Does x config q l (m >>= f) R' := by
  rw [Does, wp_bind]
  refine wp_mono ?_ (fun _ _ h => h) hm
  rintro a _ ⟨new, rfl, ha⟩
  refine wp_mono ?_ (fun _ _ h => h) (hf a new ha)
  rintro b _ ⟨new', rfl, hb⟩
  exact ⟨new ++ new', by rw [List.append_assoc], hb⟩

theorem Does.mono {R₁ : α → List (Made acmeSig) → Prop} {m : AcmeM α} (h : Does x config q l m R)
    (hR : ∀ a new, R a new → R₁ a new) : Does x config q l m R₁ := by
  refine wp_mono ?_ (fun _ _ h => h) h
  rintro a g ⟨new, hg, ha⟩
  exact ⟨new, hg, hR a new ha⟩

/-- A call, and then the rest. -/
theorem Does.ask {c : AcmeCall} {f : c.Ans → AcmeM β} (hc : Conduct x config q l c)
    (hf : ∀ r, Does x config q (l ++ [⟨c, r⟩]) (f r) fun b new => R' b (⟨c, r⟩ :: new)) :
    Does x config q l (Acme.ask c >>= f) R' := by
  have hcall : Does x config q l (Acme.ask c) fun r new => new = [⟨c, r⟩] :=
    (wp_call (S := acmeSig) (T := conductSpec x config) c).2 ⟨hc, fun r _ hg => ⟨[⟨c, r⟩], hg, rfl⟩⟩
  refine hcall.bind ?_
  rintro r _ rfl
  exact hf r

/-- The value of a pure computation, and then the rest. -/
theorem Does.attempt {y : Except Halt α} {f : α → AcmeM β} (hf : ∀ a, y = .ok a → Does x config q l (f a) R') :
    Does x config q l (Fallible.attempt y >>= f) R' := by
  rw [Does, wp_bind, wp_attempt]
  exact ⟨hf, fun _ _ => trivial⟩

theorem ok_of_mapError {ε ε' : Type} {f : ε → ε'} {y : Except ε α} {a : α} (h : y.mapError f = .ok a) : y = .ok a := by
  cases y with
  | error e => cases h
  | ok b => exact congrArg _ (Except.ok.inj h)

theorem Does.orFail {message : String} {y : Except String α} {f : α → AcmeM β}
    (hf : ∀ a, y = .ok a → Does x config q l (f a) R') : Does x config q l (Acme.orFail message y >>= f) R' :=
  Does.attempt fun a ha => hf a (ok_of_mapError ha)

theorem Does.orStop {y : Except String α} {f : α → AcmeM β} (hf : ∀ a, y = .ok a → Does x config q l (f a) R') :
    Does x config q l (Acme.orStop y >>= f) R' :=
  Does.attempt fun a ha => hf a (ok_of_mapError ha)

theorem Does.okOr {o : Option α} {e : Halt} {f : α → AcmeM β} (hf : ∀ a, o = some a → Does x config q l (f a) R') :
    Does x config q l (Fallible.okOr o e >>= f) R' := by
  rw [Does, wp_bind, wp_okOr]
  exact ⟨hf, fun _ => trivial⟩

theorem Does.ensure {b : Bool} {e : Halt} {f : Unit → AcmeM β} (hf : b = true → Does x config q l (f ()) R') :
    Does x config q l (Fallible.ensure b e >>= f) R' := by
  rw [Does, wp_bind, wp_ensure]
  exact ⟨hf, fun _ => trivial⟩

theorem Does.getOr {o : Option α} {m : AcmeM α} (hsome : ∀ a, o = some a → R a []) (hnone : o = none →
    Does x config q l m R) : Does x config q l (Fallible.getOr o m) R := by
  cases o with
  | none => exact hnone rfl
  | some a => exact Does.pure (hsome a rfl)

theorem Does.mapError {f : Halt → Halt} {m : AcmeM α} (h : Does x config q l m R) :
    Does x config q l (Fallible.mapError f m) R :=
  (wp_mapError f m).2 h

end Rules

/-! ## Requests -/

section Requests

variable {x : Libraries} {config : RealAcmeConfig} {q : Operation} {l : List (Made acmeSig)} {α : Type}

theorem ensureSuccess_does {response : Response} {action : String} :
    Does x config q l (ensureSuccess x response action) fun r new => new = [] ∧ r = response ∧
      response.isSuccess = true :=
  Does.ensure fun hsuccess => Does.pure ⟨rfl, rfl, hsuccess⟩

theorem parseJsonResponse_does {read : String → Option α} {response : Response} {action : String} :
    Does x config q l (parseJsonResponse x read response action) fun a new => new = [] ∧ response.isSuccess = true ∧
      ∃ body, response.body = .ok body ∧ read body = some a := by
  refine ensureSuccess_does.bind ?_
  rintro _ _ ⟨rfl, rfl, hsuccess⟩
  refine Does.orFail fun body hbody => ?_
  rw [Does, wp_okOr]
  exact ⟨fun a ha => ⟨[], by simp, rfl, hsuccess, body, hbody, ha⟩, fun _ => trivial⟩

theorem parseTextResponse_does {response : Response} {action : String} :
    Does x config q l (parseTextResponse x response action) fun text new => new = [] ∧ response.isSuccess = true ∧
      response.body = .ok text := by
  refine ensureSuccess_does.bind ?_
  rintro _ _ ⟨rfl, rfl, hsuccess⟩
  rw [Does, Acme.orFail, wp_attempt]
  exact ⟨fun text htext => ⟨[], by simp, rfl, hsuccess, ok_of_mapError htext⟩, fun _ _ => trivial⟩

/-- A directory is the one of the cache, or has been fetched. -/
theorem directory_does : Does x config q l (directory x config) fun d new => KnowsDirectory x config (l ++ new) d := by
  refine Does.ask trivial fun cached => ?_
  refine Does.getOr (fun d hd => ?_) fun _ => ?_
  · subst hd
    exact .inl (List.mem_append_right _ List.mem_cons_self)
  · refine Does.ask trivial fun sent => Does.orFail fun response hsent => ?_
    subst hsent
    refine parseJsonResponse_does.bind ?_
    rintro d _ ⟨rfl, hsuccess, body, hbody, hread⟩
    have hfetched : Fetched x config
      (l ++ [⟨.cachedDirectory, cached⟩] ++ [⟨.get config.directoryUrl, .ok response⟩]) d :=
      ⟨response, body, List.mem_append_right _ List.mem_cons_self, hsuccess, hbody, hread⟩
    rw [List.append_nil]
    refine Does.ask hfetched fun _ => Does.pure ?_
    right
    simpa using hfetched.append [⟨.cacheDirectory d, ()⟩]

/-- The nonce is that of the last call. -/
theorem newNonce_does : Does x config q l (newNonce x config) fun nonce new => ∃ d response pre,
    new = pre ++ [⟨.head d.newNonce, .ok response⟩] ∧ KnowsDirectory x config (l ++ pre) d ∧
      replayNonce response.headers = .ok nonce := by
  refine directory_does.bind fun d pre hd => ?_
  refine Does.ask trivial fun sent => Does.orFail fun response hsent => ?_
  subst hsent
  rw [Does, Acme.orStop, wp_attempt]
  exact ⟨fun nonce hnonce => ⟨[], by simp, d, response, pre, by simp, hd, ok_of_mapError hnonce⟩, fun _ _ => trivial⟩

/-- What may be known, or asked for, stays so. -/
theorem Purpose.append {url : String} {payload : Value} (h : Purpose x config q l url payload)
    (l' : List (Made acmeSig)) : Purpose x config q (l ++ l') url payload := by
  cases q with
  | prepare order =>
    obtain ⟨d, name, hd, hrest⟩ := h
    exact ⟨d, name, hd.append l', hrest⟩
  | acknowledge challenge => exact h
  | finalize turns order =>
    obtain ⟨authorizationUrl, csr, hpayload, hauthorized, hurl, hcsr, hcsrPayload⟩ := h
    exact ⟨authorizationUrl, csr, hpayload, hauthorized.append l', hurl, List.mem_append_left _ hcsr, hcsrPayload⟩

theorem Reads.append {url : String} (h : Reads x config q l url) (l' : List (Made acmeSig)) :
    Reads x config q (l ++ l') url := by
  cases q with
  | prepare order =>
    obtain ⟨orderUrl, placed, hplaced, hurl⟩ := h
    exact ⟨orderUrl, placed, hplaced.append l', hurl⟩
  | acknowledge challenge => exact h
  | finalize turns order =>
    rcases h with h | h | ⟨orderUrl, placed, hpayload, hread, hvalid, hcertificate⟩
    · exact .inl h
    · exact .inr (.inl h)
    · exact .inr (.inr ⟨orderUrl, placed, hpayload, hread.append l', hvalid, hcertificate⟩)

theorem MaySend.append {url : String} {payload : Option Value} {identity : JwsIdentity}
    (h : MaySend x config q l url payload identity) (l' : List (Made acmeSig)) :
    MaySend x config q (l ++ l') url payload identity := by
  cases h with
  | account known => exact .account (known.append l')
  | read known reads => exact .read (known.append l') (reads.append l')
  | act known purpose => exact .act (known.append l') (purpose.append l')

/-- A request that may be sent is signed, and answered. -/
theorem signedPost_does {url : String} {payload : Option Value} {identity : JwsIdentity}
    (h : MaySend x config q l url payload identity) :
    Does x config q l (signedPost x config url payload identity) fun response new => ∃ body,
      ⟨.post url body, .ok response⟩ ∈ new ∧ body.payloadB64 = payloadB64 x payload := by
  refine newNonce_does.bind ?_
  rintro nonce _ ⟨d, fetched, pre, rfl, hd, hnonce⟩
  refine Does.orStop fun field hfield => Does.ask trivial fun signed => Does.orStop fun signature hsigned => ?_
  subst hsigned
  refine Does.ask ?_ fun sent => ?_
  · refine ⟨nonce, payload, identity, ⟨⟨d, fetched, _, l ++ pre, ?_, hd, hnonce, rfl⟩, ⟨field, hfield, rfl⟩, rfl⟩, ?_⟩
    · simp
    · rw [List.append_assoc]
      exact h.append _
  · rw [Does, Acme.orFail, wp_attempt]
    refine ⟨fun response hresponse => ⟨[], by simp, ⟨b64Json x (protectedHeader nonce url field), payloadB64 x payload,
      signature⟩, ?_, rfl⟩, fun _ _ => trivial⟩
    rw [ok_of_mapError hresponse]
    simp

/-- The account is the one of the cache, or has been created. -/
theorem accountUrl_does : Does x config q l (accountUrl x config) fun kid new => KnowsAccount x config
    (l ++ new) kid := by
  refine Does.ask trivial fun cached => ?_
  refine Does.getOr (fun kid hkid => ?_) fun _ => ?_
  · subst hkid
    exact .inl (List.mem_append_right _ List.mem_cons_self)
  · refine directory_does.bind fun d pre hd => ?_
    refine (Does.mapError (signedPost_does (.account hd))).bind ?_
    rintro response new ⟨body, hpost, hpayload⟩
    refine ensureSuccess_does.bind ?_
    rintro _ _ ⟨rfl, rfl, hsuccess⟩
    refine Does.orFail fun kid hkid => ?_
    have hgranted : Granted x config (l ++ [⟨.cachedAccountUrl, cached⟩] ++ pre ++ new) kid :=
      ⟨d, _, hd.append new, ⟨body, List.mem_append_right _ hpost, hpayload, hsuccess⟩, hkid⟩
    rw [List.append_nil]
    refine Does.ask hgranted fun _ => Does.pure ?_
    right
    simpa using hgranted.append [⟨.cacheAccountUrl kid, ()⟩]

/-- A document is read as the server has sent it in answer to a request without a payload. -/
theorem postAsGetJson_does {read : String → Option α} {url : String} (h : Reads x config q l url) :
    Does x config q l (postAsGetJson x config read url) fun a new => ReadFrom x read new url a := by
  refine accountUrl_does.bind fun kid pre hkid => ?_
  refine (Does.mapError (signedPost_does (.read hkid (h.append pre)))).bind ?_
  rintro response new ⟨body, hpost, hpayload⟩
  refine parseJsonResponse_does.mono ?_
  rintro a _ ⟨rfl, hsuccess, text, htext, hread⟩
  refine ⟨response, text, ⟨body, ?_, hpayload, hsuccess⟩, htext, hread⟩
  simp [hpost]

theorem postAsGetText_does {url : String} (h : Reads x config q l url) :
    Does x config q l (postAsGetText x config url) fun text new => ReadFrom x some new url text := by
  refine accountUrl_does.bind fun kid pre hkid => ?_
  refine (Does.mapError (signedPost_does (.read hkid (h.append pre)))).bind ?_
  rintro response new ⟨body, hpost, hpayload⟩
  refine parseTextResponse_does.mono ?_
  rintro text _ ⟨rfl, hsuccess, htext⟩
  refine ⟨response, text, ⟨body, ?_, hpayload, hsuccess⟩, htext, rfl⟩
  simp [hpost]

end Requests

/-! ## Results -/

section Results

variable (x : Libraries) (config : RealAcmeConfig)

/-- The challenge was prepared from the answers of the server to one new order. -/
structure PreparedBy (l : List (Made acmeSig)) (order : QueuedOrder) (placed : AcmeOrder) : Prop where
  placedOrder : ∃ name orderBody, uniqueIdentifiers order.commonName order.sans = [name] ∧
    Placed x config l [name] placed.orderUrl orderBody ∧ orderBody.authorizations.head? = some placed.authorizationUrl ∧
    orderBody.finalize = placed.finalizeUrl
  challenge : ∃ authorization challenge, ReadFrom x x.readAuthorization l placed.authorizationUrl authorization ∧
    authorization.challenges.find? (fun c => c.kind == "dns-01") = some challenge ∧
    authorization.identifier.value = placed.identifier ∧ challenge.url = placed.challengeUrl ∧
    challenge.token = some placed.challengeToken
  record : ∃ thumbprint, jwkThumbprint x = .ok thumbprint ∧
    placed.recordValue = x.b64 (x.sha256 (bytes (placed.challengeToken ++ "." ++ thumbprint)))

/-- What stands behind a certificate: the authorization was valid and the order was finalized with the request of a key
that was generated for it, and then the order of the payload was valid and named the address that the certificate was
read from. -/
structure FinalizedBy (l : List (Made acmeSig)) (order : QueuedOrder) (material : IssuedCertificateMaterial)
    (csr : GeneratedCertificateRequest) (before after : List (Made acmeSig)) : Prop where
  calls : l = before ++ after
  authorized : ∃ url, payloadStr order.challengePayload "authorization_url" = .ok url ∧ Authorized x before url
  generated : csrMade config order csr ∈ before
  finalized : ∃ url response, payloadStr order.challengePayload "finalize_url" = .ok url ∧
    Answered x before url (some (csrPayload x csr)) response
  issued : ∃ url placed certificateUrl chain, payloadStr order.challengePayload "order_url" = .ok url ∧
    ReadFrom x x.readOrder after url placed ∧ placed.status = "valid" ∧ placed.certificate = some certificateUrl ∧
    ReadFrom x some after certificateUrl chain ∧ issuedMaterialFromChain x chain csr.keyPemEncrypted = .ok material

/-- What an operation that succeeds has done. -/
def Delivers : Operation → Reply → List (Made acmeSig) → Prop
  | .prepare order, .payload v, l => (hasPreparedDnsPayload order.challengePayload = true ∧
      v = order.challengePayload) ∨
      ∃ placed, v = challengePayload order.zoneName placed ∧ PreparedBy x config l order placed
  | .acknowledge payload, .done, l => ∃ url response, payloadStr payload "challenge_url" = .ok url ∧
      Answered x l url (some (.object [])) response
  | .finalize _ order, .material m, l => ∃ csr before after, FinalizedBy x config l order m csr before after
  | _, _, _ => False

end Results

/-! ## Operations, call by call -/

section Operations

variable {x : Libraries} {config : RealAcmeConfig} {q : Operation} {l : List (Made acmeSig)} {α : Type}

/-- What each turn gives, the loop gives. -/
theorem poll_does {turn : AcmeM (Option α)} {deadline : Nat} {message : String} {R : α → List (Made acmeSig) → Prop}
    (hturn : ∀ new, Does x config q (l ++ new) turn fun done new' => ∀ a, done = some a →
      R a (new ++ new')) (turns : Nat) :
    Does x config q l (poll config turn deadline message turns) R := by
  suffices h : ∀ new, Does x config q (l ++ new) (poll config turn deadline message turns) fun a new' => R a
    (new ++ new') by
    simpa using h []
  induction turns with
  | zero => exact fun _ => Does.throw
  | succ turns ih =>
    intro new
    refine (hturn new).bind fun done new' hdone => ?_
    refine Does.getOr (fun a ha => ?_) fun _ => ?_
    · simpa using hdone a ha
    · refine Does.bind (R := fun _ _ => True) ?_ fun _ pause _ => ?_
      · exact Does.ask trivial fun now => Does.ensure fun _ => Does.ask trivial fun _ => Does.pure trivial
      · have hrest := ih (new ++ new' ++ pause)
        simpa [List.append_assoc] using hrest

theorem deadline_does : Does x config q l (deadline config) fun _ _ => True :=
  Does.ask trivial fun _ => Does.pure trivial

theorem authorizationTurn_does {url : String} (h : Reads x config q l url) :
    Does x config q l (authorizationTurn x config url) fun done new => ∀ a, done = some a → Authorized x new url := by
  refine (postAsGetJson_does h).bind fun authorization new hread => ?_
  split
  · rename_i hvalid
    exact Does.pure fun _ _ => by simpa using ⟨authorization, hread, hvalid⟩
  · exact Does.pure fun _ h => by cases h
  · exact Does.pure fun _ h => by cases h
  · exact Does.throw
  · exact Does.throw

theorem pollAuthorizationValid_does {turns : Nat} {url : String} (h : Reads x config q l url) :
    Does x config q l (pollAuthorizationValid x config turns url) fun _ new => Authorized x (l ++ new) url := by
  refine deadline_does.bind fun deadline pause _ => ?_
  refine poll_does (fun new => (authorizationTurn_does ?_).mono ?_) turns
  · exact (h.append pause).append new
  · rintro done new' hdone a ha
    obtain ⟨authorization, hread, hvalid⟩ := hdone a ha
    exact ⟨authorization, by simpa using hread.prepend (l ++ pause ++ new), hvalid⟩

/-- The material comes from the certificate that the valid order names. -/
theorem orderTurn_does {turns : Nat} {order : QueuedOrder} {url : String} {csr : GeneratedCertificateRequest}
    (h : payloadStr order.challengePayload "order_url" = .ok url) :
    Does x config (.finalize turns order) l (orderTurn x config url csr) fun done new => ∀ m, done = some m →
      ∃ placed certificateUrl chain, ReadFrom x x.readOrder new url placed ∧ placed.status = "valid" ∧
        placed.certificate = some certificateUrl ∧ ReadFrom x some new certificateUrl chain ∧
        issuedMaterialFromChain x chain csr.keyPemEncrypted = .ok m := by
  have hreads : Reads x config (.finalize turns order) l url := .inr (.inl h)
  refine (postAsGetJson_does hreads).bind fun placed new hread => ?_
  split
  · rename_i hvalid
    refine Does.okOr fun certificateUrl hcertificate => ?_
    have hknown : ReadFrom x x.readOrder (l ++ new) url placed := hread.prepend l
    have hdownload : Reads x config (.finalize turns order) (l ++ new) certificateUrl :=
      .inr (.inr ⟨url, placed, h, hknown, hvalid, hcertificate⟩)
    refine (postAsGetText_does hdownload).bind fun chain new' hchain => ?_
    refine Does.orStop fun material hmaterial => Does.pure ?_
    rintro _ ⟨⟩
    refine ⟨placed, certificateUrl, chain, ?_, hvalid, hcertificate, ?_, hmaterial⟩
    · simpa using hread.append new'
    · simpa using hchain.prepend new
  · exact Does.pure fun _ h => by cases h
  · exact Does.pure fun _ h => by cases h
  · exact Does.pure fun _ h => by cases h
  · exact Does.throw
  · exact Does.throw

theorem finalizeDns01Order_does {turns : Nat} {order : QueuedOrder} :
    Does x config (.finalize turns order) l (finalizeDns01Order x config turns order) fun m new =>
      ∃ csr before after, FinalizedBy x config (l ++ new) order m csr before after := by
  refine Does.orStop fun authorizationUrl hauthorizationUrl => ?_
  have hreads : Reads x config (.finalize turns order) l authorizationUrl := .inl hauthorizationUrl
  refine (pollAuthorizationValid_does hreads).bind fun _ polled hauthorized => ?_
  refine Does.orStop fun finalizeUrl hfinalizeUrl => Does.orStop fun orderUrl horderUrl => ?_
  refine Does.ask trivial fun generated => Does.orStop fun csr hcsr => ?_
  subst hcsr
  refine accountUrl_does.bind fun kid account hkid => ?_
  have hgenerated : csrMade config order csr ∈ l ++ polled ++ [csrMade config order csr] ++ account :=
    List.mem_append_left _ (List.mem_append_right _ List.mem_cons_self)
  have hauthorized' := (hauthorized.append [csrMade config order csr]).append account
  have hpurpose : Purpose x config (.finalize turns order) _ finalizeUrl (csrPayload x csr) :=
    ⟨authorizationUrl, csr, hauthorizationUrl, hauthorized', hfinalizeUrl, hgenerated, rfl⟩
  refine (Does.mapError (signedPost_does (.act hkid hpurpose))).bind ?_
  rintro response posted ⟨body, hpost, hpayload⟩
  refine ensureSuccess_does.bind ?_
  rintro _ _ ⟨rfl, rfl, hsuccess⟩
  refine deadline_does.bind fun deadline pause _ => ?_
  refine (poll_does (R := fun m new => ∃ placed certificateUrl chain, ReadFrom x x.readOrder new orderUrl placed ∧
    placed.status = "valid" ∧ placed.certificate = some certificateUrl ∧ ReadFrom x some new certificateUrl chain ∧
    issuedMaterialFromChain x chain csr.keyPemEncrypted = .ok m)
      (fun new => (orderTurn_does horderUrl).mono ?_) turns).mono ?_
  · rintro done new' hdone m hm
    obtain ⟨placed, certificateUrl, chain, hread, hvalid, hcertificate, hchain, hmaterial⟩ := hdone m hm
    exact ⟨placed, certificateUrl, chain, hread.prepend new, hvalid, hcertificate, hchain.prepend new, hmaterial⟩
  · rintro m after ⟨placed, certificateUrl, chain, hread, hvalid, hcertificate, hchain, hmaterial⟩
    have hanswered : Answered x posted finalizeUrl (some (csrPayload x csr)) _ := ⟨body, hpost, hpayload, hsuccess⟩
    refine ⟨csr, l ++ polled ++ [csrMade config order csr] ++ account ++ posted ++ pause, after,
      by simp, ?_, ?_, ?_, ?_⟩
    · exact ⟨authorizationUrl, hauthorizationUrl, (hauthorized'.append posted).append pause⟩
    · exact List.mem_append_left _ (List.mem_append_left _ hgenerated)
    · exact ⟨finalizeUrl, _, hfinalizeUrl, (hanswered.prepend _).append pause⟩
    · exact ⟨orderUrl, placed, certificateUrl, chain, horderUrl, hread, hvalid, hcertificate, hchain, hmaterial⟩

theorem acknowledgeDns01Challenge_does {payload : Value} :
    Does x config (.acknowledge payload) l (acknowledgeDns01Challenge x config payload) fun _ new =>
      ∃ url response, payloadStr payload "challenge_url" = .ok url ∧
        Answered x new url (some (.object [])) response := by
  refine Does.orStop fun url hurl => ?_
  refine Does.bind (R := fun _ _ => True) ?_ fun _ waited _ => ?_
  · rw [Does, wp_onlyIf]
    exact ⟨fun _ => Does.ask trivial fun _ => Does.pure trivial, fun _ => ⟨[], by simp, trivial⟩⟩
  · refine accountUrl_does.bind fun kid account hkid => ?_
    have hpurpose : Purpose x config (.acknowledge payload) (l ++ waited ++ account) url (.object []) := ⟨hurl, rfl⟩
    refine (Does.mapError (signedPost_does (.act hkid hpurpose))).bind ?_
    rintro response posted ⟨body, hpost, hpayload⟩
    refine ensureSuccess_does.bind ?_
    rintro _ _ ⟨rfl, rfl, hsuccess⟩
    refine Does.pure ⟨url, _, hurl, body, ?_, hpayload, hsuccess⟩
    simp [hpost]

theorem placeOrder_does {order : QueuedOrder} {name : String}
    (hname : uniqueIdentifiers order.commonName order.sans = [name]) :
    Does x config (.prepare order) l (placeOrder x config [name]) fun placed new =>
      PreparedBy x config (l ++ new) order placed := by
  refine directory_does.bind fun d fetched hd => ?_
  refine accountUrl_does.bind fun kid account hkid => ?_
  have hpurpose : Purpose x config (.prepare order) (l ++ fetched ++ account) d.newOrder (orderPayload [name]) :=
    ⟨d, name, hd.append account, rfl, hname, rfl⟩
  refine (Does.mapError (signedPost_does (.act hkid hpurpose))).bind ?_
  rintro response posted ⟨body, hpost, hpayload⟩
  refine Does.orFail fun orderUrl horderUrl => ?_
  refine parseJsonResponse_does.bind ?_
  rintro orderBody _ ⟨rfl, hsuccess, text, htext, hread⟩
  have hplaced : Placed x config (l ++ fetched ++ account ++ posted) [name] orderUrl orderBody :=
    ⟨d, response, text, (hd.append account).append posted, ⟨body, List.mem_append_right _ hpost, hpayload,
      hsuccess⟩, horderUrl, htext, hread⟩
  refine Does.okOr fun authorizationUrl hauthorizationUrl => ?_
  have hreads : Reads x config (.prepare order) (l ++ fetched ++ account ++ posted) authorizationUrl := by
    refine ⟨orderUrl, orderBody, ?_, hauthorizationUrl⟩
    rw [hname]
    exact hplaced
  rw [List.append_nil]
  refine (postAsGetJson_does hreads).bind fun authorization got hauthorization => ?_
  refine Does.okOr fun challenge hchallenge => Does.okOr fun token htoken => Does.orStop
    fun thumbprint hthumbprint => ?_
  refine Does.pure ⟨⟨name, orderBody, hname, ?_, hauthorizationUrl, rfl⟩,
    ⟨authorization, challenge, ?_, hchallenge, rfl, rfl, htoken⟩, thumbprint, hthumbprint, rfl⟩
  · simpa using hplaced.append got
  · simpa using hauthorization.prepend (l ++ fetched ++ account ++ posted)

theorem prepareDns01Challenge_does {order : QueuedOrder} :
    Does x config (.prepare order) l (prepareDns01Challenge x config order) fun v new =>
      (hasPreparedDnsPayload order.challengePayload = true ∧ v = order.challengePayload) ∨
        ∃ placed, v = challengePayload order.zoneName placed ∧ PreparedBy x config (l ++ new) order placed := by
  rw [prepareDns01Challenge]
  split
  · rename_i hprepared
    exact Does.pure (.inl ⟨hprepared, rfl⟩)
  · refine Does.ensure fun hone => ?_
    obtain ⟨name, hname⟩ := List.length_eq_one_iff.1 (beq_iff_eq.1 hone)
    rw [hname]
    refine (placeOrder_does hname).bind fun placed new hplaced => Does.pure (.inr ⟨placed, rfl, ?_⟩)
    simpa using hplaced

/-- Operations make allowed calls only, and have done what they return. -/
theorem operation_does (q : Operation) :
    Does x config q [] (q.program x config) fun reply new => Delivers x config q reply new := by
  cases q with
  | prepare order =>
    refine (wp_map _ _).2 (prepareDns01Challenge_does.mono fun v new h => ?_)
    exact h
  | acknowledge payload =>
    refine (wp_map _ _).2 (acknowledgeDns01Challenge_does.mono fun _ new h => ?_)
    exact h
  | finalize turns order =>
    refine (wp_map _ _).2 (finalizeDns01Order_does.mono fun m new h => ?_)
    exact h

end Operations

end PingoraMesh.Acme
