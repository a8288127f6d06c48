import RoadVisionAI.Db.Models

/-!
# Passwords and tokens (`app/core/security.py`)

The hasher and the signing library are parameters.  `Jwt.Lawful` is what PyJWT documents of a token
under the key that has signed it: at a time between its `iat` and its `exp` it decodes to its
payload, before and after it raises.

Times are whole seconds from the epoch.  `jwt.encode` writes `iat` and `exp` in whole seconds, and a
whole number is at most the clock exactly when it is at most its whole seconds.
-/

namespace RoadVisionAI.Auth

open Python Db

/-- `Settings`, the fields that shape the tokens. -/
structure Settings where
  jwtSecretKey : String
  jwtAlgorithm : String := "HS256"
  accessTokenExpireMinutes : ℤ := 30
  refreshTokenExpireDays : ℤ := 7

/-! ### Passwords -/

/-- `_hasher.verify(hash, password)` of `argon2.PasswordHasher`. -/
structure PasswordHasher where
  verify : String → String → Except PyException Bool

def verifyPassword (hasher : PasswordHasher) (plain passwordHash : String) :
    Except PyException Bool :=
  match hasher.verify passwordHash plain with
  | .error (.other "VerifyMismatchError" _) => .ok false
  | .error (.other "VerificationError" _) => .ok false
  | outcome => outcome

/-! ### JWT -/

/-- `TokenType`. -/
inductive TokenType where
  | access | refresh
deriving DecidableEq

def TokenType.value : TokenType → String
  | .access => "access"
  | .refresh => "refresh"

/-- The claims of a token; `role` is the one extra claim. -/
structure Payload where
  sub : String
  type : TokenType
  iat : ℤ
  exp : ℤ
  jti : String
  role : Option String
deriving DecidableEq

/-- The exceptions of `jwt.decode`: `ExpiredSignatureError`, or another `InvalidTokenError`. -/
inductive JwtError where
  | expiredSignature | invalidToken

/-- `jwt.encode(payload, key, algorithm)` and `jwt.decode(token, key, algorithms)` at a time. -/
structure Jwt where
  encode : Payload → String → String → String
  decode : String → String → List String → ℤ → Except JwtError Payload

/-- The documented behaviour on a token signed with the key of the application. -/
structure Jwt.Lawful (jwt : Jwt) (settings : Settings) : Prop where
  decode_encode : ∀ (payload : Payload) (now : ℤ), payload.iat ≤ now → now < payload.exp →
    jwt.decode (jwt.encode payload settings.jwtSecretKey settings.jwtAlgorithm)
      settings.jwtSecretKey [settings.jwtAlgorithm] now = .ok payload
  decode_expired : ∀ (payload : Payload) (now : ℤ), payload.iat ≤ now → payload.exp ≤ now →
    jwt.decode (jwt.encode payload settings.jwtSecretKey settings.jwtAlgorithm)
      settings.jwtSecretKey [settings.jwtAlgorithm] now = .error .expiredSignature
  decode_immature : ∀ (payload : Payload) (now : ℤ), now < payload.iat →
    jwt.decode (jwt.encode payload settings.jwtSecretKey settings.jwtAlgorithm)
      settings.jwtSecretKey [settings.jwtAlgorithm] now = .error .invalidToken

/-- `TokenError`. -/
structure TokenError where
  message : String

/-- What `_create_token` finds: the clock and a `uuid4`. -/
structure Mint where
  now : ℤ
  jti : String

/-- The dictionary `_create_token` builds. -/
def tokenPayload (subject : String) (tokenType : TokenType) (expiresDelta : ℤ)
    (role : Option String) (mint : Mint) : Payload where
  sub := subject
  type := tokenType
  iat := mint.now
  exp := mint.now + expiresDelta
  jti := mint.jti
  role := role

def createToken (jwt : Jwt) (subject : String) (tokenType : TokenType) (expiresDelta : ℤ)
    (settings : Settings) (role : Option String) (mint : Mint) : String :=
  jwt.encode (tokenPayload subject tokenType expiresDelta role mint) settings.jwtSecretKey
    settings.jwtAlgorithm

def createAccessToken (jwt : Jwt) (userId : Uuid) (role : String) (settings : Settings)
    (mint : Mint) : String :=
  createToken jwt userId.str .access (settings.accessTokenExpireMinutes * 60) settings (some role)
    mint

def createRefreshToken (jwt : Jwt) (userId : Uuid) (settings : Settings) (mint : Mint) : String :=
  createToken jwt userId.str .refresh (settings.refreshTokenExpireDays * 24 * 60 * 60) settings none
    mint

def decodeToken (jwt : Jwt) (token : String) (expectedType : TokenType) (settings : Settings)
    (now : ℤ) : Except TokenError Payload :=
  match jwt.decode token settings.jwtSecretKey [settings.jwtAlgorithm] now with
  | .error .expiredSignature => .error ⟨"Token expired"⟩
  | .error .invalidToken => .error ⟨"Invalid token"⟩
  | .ok payload =>
    if payload.type ≠ expectedType then .error ⟨s!"Expected {expectedType.value} token"⟩
    else .ok payload

end RoadVisionAI.Auth
