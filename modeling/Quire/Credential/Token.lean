import Quire.Credential.Key
import Quire.Http.Wire
import Quire.Time.Instant

/-! Access tokens.

A key is exchanged for a token that is valid for a while. A `TokenCache` keeps the last token
and exchanges again when no more than five minutes of it are left. -/
namespace Quire.Credential

structure AccessToken where
  token : String
  expiresAt : Instant
  deriving DecidableEq, Repr

/-! ### The exchange -/

def grantType : String := "urn:ietf:params:oauth:grant-type:jwt-bearer"

def scope : String := "https://www.googleapis.com/auth/cloud-platform"

/-- The lifetime of an assertion, in seconds. -/
def assertionLifetime : Int := 3600

/-- What is asserted when a key asks for a token. -/
structure Claims where
  issuer : String
  scope : String
  audience : String
  issuedAt : Int
  expiresAt : Int

def Claims.toJson (c : Claims) : Json :=
  .ofMembers
    [("iss", .text c.issuer), ("scope", .text c.scope), ("aud", .text c.audience),
      ("iat", .ofInt c.issuedAt), ("exp", .ofInt c.expiresAt)]

/-- The claims of a key at a time. -/
def ServiceAccountKey.claims (key : ServiceAccountKey) (now : Instant) : Claims where
  issuer := key.clientEmail
  scope := Credential.scope
  audience := key.tokenUri
  issuedAt := now.seconds
  expiresAt := now.seconds + assertionLifetime

/-- A token and its lifetime in seconds. -/
def grantShape : Json.Shape (String × Int) :=
  Json.Record.shape "TokenResponse" <|
    Prod.mk <$> .required "access_token" .string <*>
      .optional "expires_in" .signed64 assertionLifetime

/-- How an exchange ends. -/
inductive Exchanged
  | token (t : AccessToken)
  | refused (e : AuthError)
  /-- The token expires beyond every instant, and the run is broken off. -/
  | brokenOff

/-- What the surroundings of an exchange do. -/
structure Signer (m : Type → Type) where
  now : m Instant
  /-- A signed assertion, if the private key is of use. -/
  sign : (privateKey : String) → Claims → m (Option String)

/-- The instant that lies some seconds after another, if there is one. -/
def expiry? (now : Instant) (seconds : Int) : Option Instant :=
  if seconds.natAbs ≤ Span.limit then
    let t := now.after ⟨seconds⟩
    if Instant.inRange t.date.year then some t else none
  else none

/-- What the token endpoint's reply gives. -/
def granted (now : Instant) (r : Http.Reply) : Exchanged :=
  if ! r.isSuccess then .refused (.tokenEndpoint r.status (Http.truncated r.text))
  else match r.read grantShape with
    | .error _ => .refused .request
    | .ok (token, lifetime) =>
      match expiry? now lifetime with
      | some t => .token ⟨token, t⟩
      | none => .brokenOff

variable {m : Type → Type} [Monad m]

/-- One exchange of a key for a token. -/
def exchange (key : ServiceAccountKey) (signer : Signer m) (wire : Http.Wire m) :
    m Exchanged := do
  match ← signer.sign key.privateKey (key.claims (← signer.now)) with
  | none => return .refused .signing
  | some assertion =>
    let form := [("grant_type", grantType), ("assertion", assertion)]
    match ← wire.send ⟨.post, key.tokenUri, [], none, .form form⟩ with
    | none => return .refused .request
    | some reply => return granted (← signer.now) reply

/-! ### The cache -/

/-- The last token, if there is one. -/
structure TokenCache where
  cached : Option AccessToken
  deriving DecidableEq, Repr

namespace TokenCache

def empty : TokenCache := ⟨none⟩

/-- A token is exchanged this long before it expires. -/
def margin : Span := ⟨300⟩

/-- What a look into the cache comes to. -/
inductive Look
  | fresh (token : String)
  | stale
  /-- The cached token expires so early that no instant lies the margin before it, and the run is
  broken off. -/
  | brokenOff
  deriving DecidableEq, Repr

/-- The cached token is fresh while more than the margin is left of it. -/
def look (c : TokenCache) (now : Instant) : Look :=
  match c.cached with
  | none => .stale
  | some t =>
    match expiry? t.expiresAt (-margin.seconds) with
    | none => .brokenOff
    | some due => if now.before due then .fresh t.token else .stale

/-- What a caller is given, and the cache afterwards. -/
def get (c : TokenCache) (now : Instant) (exchange : m Exchanged) :
    m (Option (Except AuthError String) × TokenCache) := do
  match c.look now with
  | .fresh token => return (some (.ok token), c)
  | .brokenOff => return (none, c)
  | .stale =>
    match ← exchange with
    | .token t => return (some (.ok t.token), ⟨some t⟩)
    | .refused e => return (some (.error e), c)
    | .brokenOff => return (none, c)

/-- Callers who come at the same time are served one after the other. -/
def getEach (c : TokenCache) (now : Instant) (exchange : m Exchanged) :
    Nat → m (List (Option (Except AuthError String)) × TokenCache)
  | 0 => return ([], c)
  | callers + 1 => do
    let (answer, c) ← c.get now exchange
    let (answers, c) ← getEach c now exchange callers
    return (answer :: answers, c)

def invalidate (_ : TokenCache) : TokenCache := empty

end TokenCache
end Quire.Credential
