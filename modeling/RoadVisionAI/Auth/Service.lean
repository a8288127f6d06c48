import RoadVisionAI.Auth.Security
import RoadVisionAI.Transition.LockedTable
import RoadVisionAI.Transition.Machine

/-!
# Logins, refreshes and authenticated requests

`AuthService.login` and `AuthService.refresh` (`app/services/auth_service.py`), `get_current_user`
and `require_roles` (`app/core/dependencies.py`) as processes over the `users` table.  An action
starts a call, lets it make its next statement, or makes it fail there; the clock a statement finds
is part of the action.  Accounts change from outside at any time: an action commits any version of a
user's row that no transaction has locked, be it a new account, a deactivation, a soft delete,
another role or another password.

`history` records what the calls have answered.
-/

namespace RoadVisionAI.Auth

open Python Db Transition

/-! ### Accounts -/

/-- A row of `users`, the columns that authentication reads and writes. -/
structure User where
  id : Uuid
  email : String
  passwordHash : String
  role : UserRole
  isActive : Bool
  lastLogin : Option ℤ
  deletedAt : Option ℤ
deriving DecidableEq

/-- A row of `audit_logs`, as `login` fills it in. -/
structure AuditLog where
  action : String
  entityType : String
  entityId : Uuid
  userId : Uuid
  ipAddress : Option String
  userAgent : Option String

/-- What the application is configured with, and the equality of `CITEXT`. -/
structure Env where
  settings : Settings
  jwt : Jwt
  hasher : PasswordHasher
  sameEmail : String → String → Bool

structure Database where
  users : LockedTable Uuid User
  auditLogs : List AuditLog

/-- `scalar_one_or_none()` of a `SELECT` of process `p`. -/
def scalarOneOrNone (users : LockedTable Uuid User) (p : ℕ) (cond : User → Bool) :
    Except PyException (Option User) :=
  match users.select p cond with
  | [] => .ok none
  | [k] => .ok ((users.slots k).visible p)
  | _ => .error (.other "MultipleResultsFound"
      "Multiple rows were found when one or none was required")

/-- `UserRepository.get_by_email`. -/
def getByEmail (env : Env) (users : LockedTable Uuid User) (p : ℕ) (email : String) :
    Except PyException (Option User) :=
  scalarOneOrNone users p fun user => env.sameEmail user.email email && user.deletedAt.isNone

/-- `UserRepository.get_by_id`. -/
def getById (users : LockedTable Uuid User) (p : ℕ) (userId : Uuid) :
    Except PyException (Option User) :=
  scalarOneOrNone users p fun user => user.id = userId && user.deletedAt.isNone

/-! ### Answers -/

def bearerHeader : List (String × String) := [("WWW-Authenticate", "Bearer")]

/-- `_INVALID_CREDENTIALS`. -/
def invalidCredentials : HttpException := ⟨401, "Invalid email or password", bearerHeader⟩

/-- `_UNAUTHORIZED`. -/
def unauthorized : HttpException := ⟨401, "Not authenticated", bearerHeader⟩

/-- The answer to a `TokenError`. -/
def TokenError.toHttp (error : TokenError) : HttpException := ⟨401, error.message, bearerHeader⟩

structure TokenResponse where
  accessToken : String
  refreshToken : String
  tokenType : String := "bearer"
  expiresIn : ℤ

/-- `_issue_tokens`. -/
def issueTokens (env : Env) (user : User) (access refresh : Mint) : TokenResponse where
  accessToken := createAccessToken env.jwt user.id user.role.value env.settings access
  refreshToken := createRefreshToken env.jwt user.id env.settings refresh
  expiresIn := env.settings.accessTokenExpireMinutes * 60

def TokenResponse.tokens (response : TokenResponse) : List String :=
  [response.accessToken, response.refreshToken]

/-! ### The code between the statements -/

/-- The arguments of `login`. -/
structure LoginCall where
  email : String
  password : String
  ip : Option String
  userAgent : Option String

/-- `login`, up to its first write: the user who may log in. -/
def authenticate (env : Env) (call : LoginCall) (found : Option User) : Except Raised User :=
  match found with
  | none => .error (.http invalidCredentials)
  | some user =>
    match verifyPassword env.hasher call.password user.passwordHash with
    | .error exc => .error (.other exc)
    | .ok false => .error (.http invalidCredentials)
    | .ok true =>
      if user.isActive then .ok user else .error (.http ⟨403, "Account is deactivated", []⟩)

/-- The audit entry of `login`. -/
def loginLog (call : LoginCall) (user : User) : AuditLog where
  action := "LOGIN"
  entityType := "users"
  entityId := user.id
  userId := user.id
  ipAddress := call.ip
  userAgent := call.userAgent

/-- The guard of `require_roles`. -/
def requireRoles (roles : List UserRole) (user : User) : Except HttpException User :=
  if user.role ∉ roles then
    let values := ", ".intercalate (roles.map UserRole.value)
    .error ⟨403, s!"Requires role: {values}", []⟩
  else .ok user

/-- An authenticated request: its bearer token, and the roles its endpoint requires, if any. -/
structure Request where
  credentials : Option String
  roles : Option (List UserRole)

/-- What becomes of a request that `get_current_user` has accepted. -/
def Request.verdict (request : Request) (user : User) : Except HttpException User :=
  match request.roles with
  | none => .ok user
  | some roles => requireRoles roles user

/-! ### Processes -/

inductive LoginStage where
  | started
  /-- The user may log in. -/
  | found (user : User)
  /-- `touch_last_login` has flushed. -/
  | touched (user : User)
  /-- The audit entry is flushed. -/
  | audited (user : User) (auditLog : AuditLog)
  | committed (user : User)

inductive RefreshStage where
  | started
  | decoded (payload : Payload)

inductive RequestStage where
  | started
  /-- `decode_token` has accepted the token, at a time. -/
  | decoded (token : String) (payload : Payload) (checkedAt : ℤ)

inductive Proc where
  | idle
  | login (call : LoginCall) (stage : LoginStage)
  | refresh (refreshToken : String) (stage : RefreshStage)
  | request (request : Request) (stage : RequestStage)

/-- An acceptance by `get_current_user`: the token, when it was decoded, and the user returned. -/
structure Acceptance where
  request : Request
  token : String
  checkedAt : ℤ
  user : User

/-- What a call has answered. -/
inductive Event where
  | loggedIn (call : LoginCall) (user : User) (response : TokenResponse)
  | refreshed (refreshToken : String) (user : User) (response : TokenResponse)
  | accepted (acceptance : Acceptance) (verdict : Except HttpException User)
  | refused (raised : Raised)

/-- The tokens an answer hands out. -/
def Event.tokens : Event → List String
  | .loggedIn _ _ response | .refreshed _ _ response => response.tokens
  | .accepted .. | .refused _ => []

/-- What a statement finds outside: the clock, and what `_create_token` finds at its two calls. -/
structure Input where
  now : ℤ
  access : Mint
  refresh : Mint

/-- What a statement does. -/
inductive Effect where
  | none
  | write (users : LockedTable Uuid User)
  | commit (auditLog : AuditLog)
  | rollback

/-- The database after the effect of a statement of process `p`. -/
def Effect.apply (p : ℕ) (db : Database) : Effect → Database
  | .none => db
  | .write users => { db with users }
  | .commit auditLog => { users := db.users.commit p, auditLogs := db.auditLogs ++ [auditLog] }
  | .rollback => { db with users := db.users.rollback p }

structure Outcome where
  effect : Effect
  proc : Proc
  events : List Event

/-- The call goes on. -/
def next (effect : Effect) (proc : Proc) : Option Outcome := some ⟨effect, proc, []⟩

/-- The call ends with an answer; its session is closed. -/
def answer (event : Event) : Option Outcome := some ⟨.rollback, .idle, [event]⟩

/-- `login`. -/
def execLogin (env : Env) (db : Database) (p : ℕ) (input : Input) (call : LoginCall) :
    LoginStage → Option Outcome
  | .started =>
    match getByEmail env db.users p call.email with
    | .error exc => answer (.refused (.other exc))
    | .ok found =>
      match authenticate env call found with
      | .error raised => answer (.refused raised)
      | .ok user => next .none (.login call (.found user))
  | .found user =>
    -- the flush updates the row as it is now, and waits while another transaction has it locked
    if (db.users.slots user.id).Free p then
      match (db.users.slots user.id).visible p with
      | none => answer (.refused (.other (.other "StaleDataError" "")))
      | some row =>
        next (.write (db.users.write p user.id { row with lastLogin := some input.now }))
          (.login call (.touched { user with lastLogin := some input.now }))
    else none
  | .touched user => next .none (.login call (.audited user (loginLog call user)))
  | .audited user auditLog => next (.commit auditLog) (.login call (.committed user))
  | .committed user =>
    answer (.loggedIn call user (issueTokens env user input.access input.refresh))

/-- `refresh`. -/
def execRefresh (env : Env) (db : Database) (p : ℕ) (input : Input) (refreshToken : String) :
    RefreshStage → Option Outcome
  | .started =>
    match decodeToken env.jwt refreshToken .refresh env.settings input.now with
    | .error error => answer (.refused (.http error.toHttp))
    | .ok payload => next .none (.refresh refreshToken (.decoded payload))
  | .decoded payload =>
    match getById db.users p ⟨payload.sub⟩ with
    | .error exc => answer (.refused (.other exc))
    | .ok none => answer (.refused (.http ⟨401, "User no longer active", []⟩))
    | .ok (some user) =>
      if user.isActive then
        answer (.refreshed refreshToken user (issueTokens env user input.access input.refresh))
      else answer (.refused (.http ⟨401, "User no longer active", []⟩))

/-- `get_current_user`, and the guard of the endpoint. -/
def execRequest (env : Env) (db : Database) (p : ℕ) (input : Input) (request : Request) :
    RequestStage → Option Outcome
  | .started =>
    match request.credentials with
    | none => answer (.refused (.http unauthorized))
    | some token =>
      match decodeToken env.jwt token .access env.settings input.now with
      | .error error => answer (.refused (.http error.toHttp))
      | .ok payload => next .none (.request request (.decoded token payload input.now))
  | .decoded token payload checkedAt =>
    match getById db.users p ⟨payload.sub⟩ with
    | .error exc => answer (.refused (.other exc))
    | .ok none => answer (.refused (.http unauthorized))
    | .ok (some user) =>
      if user.isActive then
        answer (.accepted { request, token, checkedAt, user } (request.verdict user))
      else answer (.refused (.http unauthorized))

/-- The next statement of a process. -/
def exec (env : Env) (db : Database) (p : ℕ) (input : Input) : Proc → Option Outcome
  | .idle => none
  | .login call stage => execLogin env db p input call stage
  | .refresh refreshToken stage => execRefresh env db p input refreshToken stage
  | .request request stage => execRequest env db p input request stage

/-! ### The machine -/

structure State where
  db : Database
  procs : ℕ → Proc
  history : List Event

/-- A call that arrives. -/
inductive Call where
  | login (body : LoginCall)
  | refresh (body : String)
  | request (body : Request)

def Call.proc : Call → Proc
  | .login body => .login body .started
  | .refresh body => .refresh body .started
  | .request body => .request body .started

/-- An action: a call arrives, a process makes its next statement or fails there, or the transaction
of an idle process commits a version of a user's row. -/
inductive Action where
  | start (p : ℕ) (call : Call)
  | exec (p : ℕ) (input : Input)
  | fail (p : ℕ)
  | account (p : ℕ) (user : User)

/-- Process `p` has made a statement. -/
def State.after (s : State) (p : ℕ) (outcome : Outcome) : State where
  db := outcome.effect.apply p s.db
  procs := Function.update s.procs p outcome.proc
  history := s.history ++ outcome.events

/-- One action. -/
def step (env : Env) (s : State) : Action → Option State
  | .start p call =>
    match s.procs p with
    | .idle => some (s.after p ⟨.none, call.proc, []⟩)
    | _ => none
  | .exec p input => (exec env s.db p input (s.procs p)).map (s.after p)
  | .fail p =>
    match s.procs p with
    | .idle => none
    | _ => some (s.after p ⟨.rollback, .idle, []⟩)
  | .account p user =>
    match s.procs p with
    | .idle =>
      if (s.db.users.slots user.id).Free p then
        some { s with db := { s.db with users := (s.db.users.write p user.id user).commit p } }
      else none
    | _ => none

/-- No token has been handed out under the key, no call is under way, nothing is locked. -/
structure State.Fresh (s : State) : Prop where
  unissued : s.history = []
  idle : ∀ p, s.procs p = .idle
  settled : ∀ k, (s.db.users.slots k).pending = none
  keyed : ∀ k user, s.db.users.committed k = some user → user.id = k

/-- The service, from any fresh state. -/
def service (env : Env) : Machine State Action where
  init := State.Fresh
  step := step env

end RoadVisionAI.Auth
