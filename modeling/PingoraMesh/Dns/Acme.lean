import PingoraMesh.Dns.Worker
import PingoraMesh.Hub.Http

/-!
# The ACME client over HTTP

`LetsEncryptAcmeClient` of `apps/dns-worker`: its three operations as programs of HTTP requests to any server. OpenSSL,
the encodings and the decoders of responses are parameters (`Libraries`); signatures, keys and the clock are calls. The
loops of the source that poll have no bound of their own; they are followed for a number of turns (`Halt.outOfTurns`).
-/

namespace PingoraMesh.Acme

open Calls Fallible
open HubApi (HeaderMap headerText)

/-! ## Records -/

/-- `AcmeDirectory`. -/
structure Directory where
  newNonce : String
  newAccount : String
  newOrder : String
  deriving DecidableEq, Repr

/-- `AcmeProblem`. -/
structure Problem where
  detail : Option String
  deriving DecidableEq, Repr

/-- `AcmeOrder`, as the server sends it. -/
structure Order where
  status : String
  authorizations : List String
  finalize : String
  certificate : Option String
  error : Option Problem
  deriving DecidableEq, Repr

/-- `AcmeIdentifier`. -/
structure Identifier where
  value : String
  deriving DecidableEq, Repr

/-- `AcmeAuthorizationChallenge`. -/
structure Challenge where
  kind : String
  url : String
  token : Option String
  error : Option Problem
  deriving DecidableEq, Repr

/-- `AcmeAuthorization`. -/
structure Authorization where
  status : String
  identifier : Identifier
  challenges : List Challenge
  deriving DecidableEq, Repr

/-- `EcJwk`. -/
structure EcJwk where
  crv : String
  kty : String
  x : String
  y : String
  deriving DecidableEq, Repr

/-- The key as serde writes it. -/
def EcJwk.value (k : EcJwk) : Value :=
  .object [("crv", .string k.crv), ("kty", .string k.kty), ("x", .string k.x), ("y", .string k.y)]

/-- `JwsIdentity`. -/
inductive JwsIdentity where
  | jwk
  | kid (url : String)
  deriving DecidableEq, Repr

/-- The body of a signed request. -/
structure JwsBody where
  protectedB64 : String
  payloadB64 : String
  signature : String
  deriving DecidableEq, Repr

/-- `GeneratedCertificateRequest`. -/
structure GeneratedCertificateRequest where
  csrDer : List UInt8
  keyPemEncrypted : String
  deriving DecidableEq, Repr

/-- `X509`, as the client reads it. -/
structure X509 where
  notBefore : Except String DateTime
  notAfter : Except String DateTime
  pem : Except String String
  fingerprint : Except String String

/-- A response; reading its body may fail. -/
structure Response where
  status : Nat
  headers : HeaderMap
  body : Except String String

/-- `RealAcmeConfig`, less the account key, which only `Libraries.accountJwk` and the signing read. -/
structure RealAcmeConfig where
  directoryUrl : String
  contactEmail : Option String
  certKeyPassphrase : String
  dnsPropagationWaitSeconds : Nat
  pollIntervalSeconds : Nat
  pollTimeoutSeconds : Nat
  deriving DecidableEq, Repr

/-- What `serde_json`, `base64`, `sha2`, `openssl` and `http` compute. -/
structure Libraries where
  /-- `serde_json::to_string`. -/
  toJson : Value → String
  /-- `URL_SAFE_NO_PAD.encode`. -/
  b64 : List UInt8 → String
  /-- `Sha256::digest`. -/
  sha256 : List UInt8 → List UInt8
  /-- `account_jwk`. -/
  accountJwk : Except String EcJwk
  readDirectory : String → Option Directory
  readOrder : String → Option Order
  readAuthorization : String → Option Authorization
  /-- `X509::stack_from_pem`. -/
  stackFromPem : String → Option (List X509)
  /-- `StatusCode`, as text. -/
  statusText : Nat → String

/-! ## Calls -/

/-- The calls of the client. -/
inductive AcmeCall where
  | cachedDirectory
  | cacheDirectory (directory : Directory)
  | cachedAccountUrl
  | cacheAccountUrl (url : String)
  | get (url : String)
  | head (url : String)
  | post (url : String) (body : JwsBody)
  /-- `sign_compact_jws`, from the signing input on. -/
  | sign (input : String)
  /-- `generate_certificate_csr`, with its names. -/
  | generateCsr (commonName : String) (names : List String) (passphrase : String)
  /-- `Instant::now`, in nanoseconds. -/
  | instantNow
  | sleep (seconds : Nat)

/-- The answer to each call. -/
@[reducible] def AcmeCall.Ans : AcmeCall → Type
  | .cachedDirectory => Option Directory
  | .cachedAccountUrl => Option String
  | .get _ | .head _ | .post _ _ => Except String Response
  | .sign _ => Except String String
  | .generateCsr _ _ _ => Except String GeneratedCertificateRequest
  | .instantNow => Nat
  | _ => Unit

/-- The calls of the client, as an interface. -/
@[reducible] def acmeSig : Sig := ⟨AcmeCall, AcmeCall.Ans⟩

/-- Why an operation stops: with an error of `anyhow`, or because it is not followed any further. -/
inductive Halt where
  | failed (message : String)
  | outOfTurns
  deriving DecidableEq, Repr

/-- A program of the client. -/
abbrev AcmeM := Fallible acmeSig Halt

/-- A call of the client. -/
abbrev ask (c : AcmeCall) : AcmeM c.Ans := @Fallible.call acmeSig Halt c

/-- `Context::context`. -/
def Halt.context (message : String) : Halt → Halt
  | .failed _ => .failed message
  | .outOfTurns => .outOfTurns

/-- A result with its `context`. -/
def orFail {α : Type} (message : String) (x : Except String α) : AcmeM α :=
  attempt (x.mapError fun _ => .failed message)

/-- A result with its own message. -/
def orStop {α : Type} (x : Except String α) : AcmeM α := attempt (x.mapError .failed)

/-! ## Pure parts -/

/-- `as_bytes`. -/
def bytes (s : String) : List UInt8 := s.toUTF8.toList

/-- `StatusCode::is_success`. -/
def Response.isSuccess (r : Response) : Bool := 200 ≤ r.status && r.status < 300

/-- `header_to_string`. -/
def headerToString (value : Option String) (name : String) : Except String String :=
  match value with
  | none => .error ("missing " ++ name ++ " header")
  | some v =>
    match headerText v with
    | none => .error "invalid header value"
    | some text => .ok text

/-- `location_header`. -/
def locationHeader (headers : HeaderMap) : Except String String := headerToString (headers.lookup "location") "Location"

/-- `replay_nonce`. -/
def replayNonce (headers : HeaderMap) : Except String String :=
  headerToString (headers.lookup "replay-nonce") "Replay-Nonce"

/-- The protected header, with the field of the identity. -/
def protectedHeader (nonce url : String) (identity : String × Value) : Value :=
  .object [("alg", .string "ES256"), ("nonce", .string nonce), ("url", .string url), identity]

/-- The payload of `newAccount`. -/
def accountPayload (config : RealAcmeConfig) : Value :=
  match config.contactEmail with
  | some email => .object [("termsOfServiceAgreed", .bool true), ("contact", .array [.string ("mailto:" ++ email)])]
  | none => .object [("termsOfServiceAgreed", .bool true)]

/-- The payload of `newOrder`. -/
def orderPayload (identifiers : List String) : Value :=
  .object [("identifiers", .array (identifiers.map fun v => .object [("type", .string "dns"), ("value", .string v)]))]

/-- The problem that the first challenge with a detailed one has. -/
def firstDetail (challenges : List Challenge) : Option String :=
  challenges.findSome? fun c => c.error.bind Problem.detail

/-- What a message says of a problem. -/
def detailText (detail : Option String) : String := (detail.map (": " ++ ·)).getD ""

section Client

variable (x : Libraries) (config : RealAcmeConfig)

/-- `URL_SAFE_NO_PAD.encode` after `serde_json::to_vec`. -/
def b64Json (v : Value) : String := x.b64 (bytes (x.toJson v))

/-- The field of an identity. -/
def identityField : JwsIdentity → Except String (String × Value)
  | .jwk => x.accountJwk.map fun k => ("jwk", k.value)
  | .kid url => .ok ("kid", .string url)

/-- `jwk_thumbprint`. -/
def jwkThumbprint : Except String String := x.accountJwk.map fun k => x.b64 (x.sha256 (bytes (x.toJson k.value)))

/-- The payload of a request, encoded. -/
def payloadB64 : Option Value → String
  | some payload => b64Json x payload
  | none => ""

/-- The payload of a finalization. -/
def csrPayload (csr : GeneratedCertificateRequest) : Value := .object [("csr", .string (x.b64 csr.csrDer))]

/-- `issued_material_from_chain`, less the issuer and the start. -/
def issuedMaterialFromChain (chainPem keyPemEncrypted : String) : Except String IssuedCertificateMaterial := do
  match x.stackFromPem chainPem with
  | none => .error "failed to parse downloaded certificate chain pem"
  | some [] => .error "empty certificate chain received from acme server"
  | some (leaf :: rest) =>
    let _ ← leaf.notBefore
    let notAfter ← leaf.notAfter
    let certPem ← leaf.pem
    let chain ← rest.mapM X509.pem
    let fingerprint ← leaf.fingerprint
    return {
      notAfter := notAfter
      certPem := certPem
      keyPemEncrypted := keyPemEncrypted
      chainPem := if rest.isEmpty then none else some (String.join chain)
      fingerprintSha256 := fingerprint }

/-! ## Requests -/

/-- `ensure_success`. -/
def ensureSuccess (response : Response) (action : String) : AcmeM Response := do
  ensure response.isSuccess (.failed (action ++ " failed with status " ++ x.statusText response.status ++ ": " ++
    (response.body.toOption.getD "")))
  return response

/-- `parse_text_response`. -/
def parseTextResponse (response : Response) (action : String) : AcmeM String := do
  let response ← ensureSuccess x response action
  orFail ("failed to decode " ++ action ++ " response text") response.body

/-- `parse_json_response`. -/
def parseJsonResponse {α : Type} (read : String → Option α) (response : Response) (action : String) : AcmeM α := do
  let response ← ensureSuccess x response action
  let body ← orFail ("failed to decode " ++ action ++ " response json") response.body
  okOr (read body) (.failed ("failed to decode " ++ action ++ " response json"))

/-- `directory`. -/
def directory : AcmeM Directory := do
  let cached ← ask .cachedDirectory
  getOr cached do
    let sent ← ask (.get config.directoryUrl)
    let response ← orFail "failed to fetch acme directory" sent
    let directory ← parseJsonResponse x x.readDirectory response "fetch acme directory"
    ask (.cacheDirectory directory)
    return directory

/-- `new_nonce`. -/
def newNonce : AcmeM String := do
  let directory ← directory x config
  let sent ← ask (.head directory.newNonce)
  let response ← orFail "failed to fetch acme replay nonce" sent
  orStop (replayNonce response.headers)

/-- `signed_post`. -/
def signedPost (url : String) (payload : Option Value) (identity : JwsIdentity) : AcmeM Response := do
  let nonce ← newNonce x config
  let field ← orStop (identityField x identity)
  let protectedB64 := b64Json x (protectedHeader nonce url field)
  let signed ← ask (.sign (protectedB64 ++ "." ++ payloadB64 x payload))
  let signature ← orStop signed
  let sent ← ask
    (.post url { protectedB64 := protectedB64, payloadB64 := payloadB64 x payload, signature := signature })
  orFail ("failed to call acme endpoint " ++ url) sent

/-- `account_url`. -/
def accountUrl : AcmeM String := do
  let cached ← ask .cachedAccountUrl
  getOr cached do
    let directory ← directory x config
    let response ← mapError (.context "failed to create or fetch acme account")
      (signedPost x config directory.newAccount (some (accountPayload config)) .jwk)
    let response ← ensureSuccess x response "create acme account"
    let accountUrl ← orFail "acme newAccount response missing Location header" (locationHeader response.headers)
    ask (.cacheAccountUrl accountUrl)
    return accountUrl

/-- `post_as_get_json`. -/
def postAsGetJson {α : Type} (read : String → Option α) (url : String) : AcmeM α := do
  let accountUrl ← accountUrl x config
  let response ← mapError (.context ("failed acme POST-as-GET for " ++ url))
    (signedPost x config url none (.kid accountUrl))
  parseJsonResponse x read response "acme POST-as-GET"

/-- `post_as_get_text`. -/
def postAsGetText (url : String) : AcmeM String := do
  let accountUrl ← accountUrl x config
  let response ← mapError (.context ("failed acme POST-as-GET text for " ++ url))
    (signedPost x config url none (.kid accountUrl))
  parseTextResponse x response "acme POST-as-GET text"

/-! ## Polling -/

/-- The end of a turn of both loops: the deadline, and the pause before the next turn. -/
def pause (deadline : Nat) (message : String) : AcmeM Unit := do
  let now ← ask .instantNow
  ensure (now < deadline) (.failed message)
  ask (.sleep (max config.pollIntervalSeconds 1))

/-- Both loops: turns until one of them has a result. -/
def poll {α : Type} (turn : AcmeM (Option α)) (deadline : Nat) (message : String) : Nat → AcmeM α
  | 0 => throw .outOfTurns
  | turns + 1 => do
    let done ← turn
    getOr done do
      pause config deadline message
      poll turn deadline message turns

/-- The deadline of a loop that starts now. -/
def deadline : AcmeM Nat := do
  let now ← ask .instantNow
  return now + 1000000000 * max config.pollTimeoutSeconds 1

/-- One turn of `poll_authorization_valid`. -/
def authorizationTurn (url : String) : AcmeM (Option Unit) := do
  let authorization ← postAsGetJson x config x.readAuthorization url
  match authorization.status with
  | "valid" => return some ()
  | "pending" | "processing" => return none
  | "invalid" =>
    throw (.failed ("acme authorization became invalid" ++ detailText (firstDetail authorization.challenges)))
  | other => throw (.failed ("unexpected acme authorization status: " ++ other))

/-- `poll_authorization_valid`. -/
def pollAuthorizationValid (turns : Nat) (url : String) : AcmeM Unit := do
  let deadline ← deadline config
  poll config (authorizationTurn x config url) deadline "timed out waiting for acme authorization to become valid" turns

/-- One turn of the loop of `finalize_and_download_certificate`: the material, once the order is valid. -/
def orderTurn (orderUrl : String) (csr : GeneratedCertificateRequest) : AcmeM (Option IssuedCertificateMaterial) := do
  let order ← postAsGetJson x config x.readOrder orderUrl
  match order.status with
  | "valid" => do
    let certificateUrl ← okOr order.certificate (.failed "acme order missing certificate url")
    let chainPem ← postAsGetText x config certificateUrl
    let material ← orStop (issuedMaterialFromChain x chainPem csr.keyPemEncrypted)
    return some material
  | "ready" | "processing" | "pending" => return none
  | "invalid" => throw (.failed ("acme order became invalid" ++ detailText (order.error.bind Problem.detail)))
  | other => throw (.failed ("unexpected acme order status: " ++ other))

/-! ## Operations -/

/-- `finalize_and_download_certificate`. -/
def finalizeAndDownloadCertificate (turns : Nat) (challengePayload : Value) (commonName : String) (sans : List String) :
    AcmeM IssuedCertificateMaterial := do
  let finalizeUrl ← orStop (payloadStr challengePayload "finalize_url")
  let orderUrl ← orStop (payloadStr challengePayload "order_url")
  let generated ← ask (.generateCsr commonName (uniqueIdentifiers commonName sans) config.certKeyPassphrase)
  let csr ← orStop generated
  let accountUrl ← accountUrl x config
  let response ← mapError (.context "failed to finalize acme order")
    (signedPost x config finalizeUrl (some (csrPayload x csr)) (.kid accountUrl))
  let _ ← ensureSuccess x response "finalize acme order"
  let deadline ← deadline config
  poll config (orderTurn x config orderUrl csr) deadline "timed out waiting for acme order to become valid" turns

/-- The order and its authorization, as `prepare_dns01_challenge` places it. -/
def placeOrder (identifiers : List String) : AcmeM AcmeOrder := do
  let directory ← directory x config
  let accountUrl ← accountUrl x config
  let response ← mapError (.context "failed to create acme order")
    (signedPost x config directory.newOrder (some (orderPayload identifiers)) (.kid accountUrl))
  let orderUrl ← orFail "acme newOrder response missing Location header" (locationHeader response.headers)
  let orderBody ← parseJsonResponse x x.readOrder response "create acme order"
  let authorizationUrl ← okOr orderBody.authorizations.head? (.failed "acme order missing authorization url")
  let authorization ← postAsGetJson x config x.readAuthorization authorizationUrl
  let dnsChallenge ← okOr (authorization.challenges.find? fun c => c.kind == "dns-01")
    (.failed "acme authorization missing dns-01 challenge")
  let token ← okOr dnsChallenge.token (.failed "acme dns-01 challenge missing token")
  let thumbprint ← orStop (jwkThumbprint x)
  return {
    orderUrl := orderUrl
    authorizationUrl := authorizationUrl
    challengeUrl := dnsChallenge.url
    challengeToken := token
    identifier := authorization.identifier.value
    recordValue := x.b64 (x.sha256 (bytes (token ++ "." ++ thumbprint)))
    finalizeUrl := orderBody.finalize }

/-- The payload of a challenge, as `prepare_dns01_challenge` writes it. -/
def challengePayload (zoneName : String) (placed : AcmeOrder) : Value :=
  .object
    [("zone_name", .string zoneName), ("record_name", .string (dns01RecordName placed.identifier)),
     ("record_type", .string "TXT"), ("record_value", .string placed.recordValue), ("ttl", .ofInt 60),
     ("identifier", .string placed.identifier), ("order_url", .string placed.orderUrl),
     ("authorization_url", .string placed.authorizationUrl), ("challenge_url", .string placed.challengeUrl),
     ("challenge_token", .string placed.challengeToken), ("finalize_url", .string placed.finalizeUrl)]

/-- `prepare_dns01_challenge`. -/
def prepareDns01Challenge (order : QueuedOrder) : AcmeM Value :=
  if hasPreparedDnsPayload order.challengePayload then pure order.challengePayload
  else do
    let identifiers := uniqueIdentifiers order.commonName order.sans
    ensure (identifiers.length == 1) (.failed "real acme mode currently supports a single dns identifier per order")
    let placed ← placeOrder x config identifiers
    return challengePayload order.zoneName placed

/-- `acknowledge_dns01_challenge`. -/
def acknowledgeDns01Challenge (payload : Value) : AcmeM Unit := do
  let challengeUrl ← orStop (payloadStr payload "challenge_url")
  let _ ← onlyIf (0 < config.dnsPropagationWaitSeconds) (ask (.sleep config.dnsPropagationWaitSeconds))
  let accountUrl ← accountUrl x config
  let response ← mapError (.context "failed to acknowledge acme dns-01 challenge")
    (signedPost x config challengeUrl (some (.object [])) (.kid accountUrl))
  let _ ← ensureSuccess x response "acknowledge acme dns-01 challenge"
  return ()

/-- `finalize_dns01_order`. -/
def finalizeDns01Order (turns : Nat) (order : QueuedOrder) : AcmeM IssuedCertificateMaterial := do
  let authorizationUrl ← orStop (payloadStr order.challengePayload "authorization_url")
  pollAuthorizationValid x config turns authorizationUrl
  finalizeAndDownloadCertificate x config turns order.challengePayload order.commonName order.sans

end Client

end PingoraMesh.Acme
