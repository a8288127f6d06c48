import RoadVisionAI.Auth.Equiv.Security
import RoadVisionAI.Auth.Equiv.Statements
import Mathlib.Logic.Relation

/-!
# Token discipline

A token that decodes has been handed out (`Unforged`), so it has been minted for a user by a login
of that user or by a refresh, which has itself been shown a token of the same user: the chain ends
at a login (`Stems`).  What `get_current_user` then reads decides the rest: the user it returns is
the committed row, active and not deleted, and `require_roles` looks at the role of that row alone
(`token_discipline`).  The type claim keeps the two kinds of tokens apart.
-/

namespace RoadVisionAI.Auth

open Python Db Transition

variable {env : Env} {p q : ℕ}

/-! ### Where tokens come from -/

/-- A successful login of the user has handed out the token. -/
def LoggedIn (env : Env) (history : List Event) (userId : Uuid) (token : String) : Prop :=
  ∃ call user response, .loggedIn call user response ∈ history ∧ Verified env call user ∧
    user.id = userId ∧ token ∈ response.tokens

/-- A refresh has handed out the token to the user, in exchange for the one it was shown. -/
def Exchanged (history : List Event) (userId : Uuid) (shown token : String) : Prop :=
  ∃ user response, .refreshed shown user response ∈ history ∧ user.id = userId ∧
    token ∈ response.tokens

/-- A chain of refreshes leads from a successful login of the user to the token. -/
def Stems (env : Env) (history : List Event) (userId : Uuid) (token : String) : Prop :=
  ∃ first, LoggedIn env history userId first ∧
    Relation.ReflTransGen (Exchanged history userId) first token

theorem Stems.mono {history history' : List Event} {userId : Uuid} {token : String}
    (h : Stems env history userId token) (hsub : history ⊆ history') :
    Stems env history' userId token := by
  obtain ⟨first, ⟨call, user, response, hmem, hlogin⟩, hchain⟩ := h
  refine ⟨first, ⟨call, user, response, hsub hmem, hlogin⟩,
    Relation.ReflTransGen.mono ?_ _ _ hchain⟩
  rintro shown token ⟨user, response, hmem, hexchange⟩
  exact ⟨user, response, hsub hmem, hexchange⟩

/-- The tokens handed out so far. -/
def minted (history : List Event) : List String := history.flatMap Event.tokens

/-- What the history says of the tokens of an answer. -/
def Event.Traced (env : Env) (history : List Event) : Event → Prop
  | .loggedIn call user response =>
    Verified env call user ∧ ∃ access refresh, response = issueTokens env user access refresh
  | .refreshed shown user response =>
    Stems env history user.id shown ∧ ∃ access refresh, response = issueTokens env user access refresh
  | .accepted .. | .refused _ => True

theorem Event.Traced.mono {history history' : List Event} {event : Event}
    (h : event.Traced env history) (hsub : history ⊆ history') : event.Traced env history' := by
  cases event with
  | loggedIn | accepted | refused => exact h
  | refreshed => exact ⟨h.1.mono hsub, h.2⟩

theorem mem_tokens_issueTokens {user : User} {access refresh : Mint} {token : String}
    (h : token ∈ (issueTokens env user access refresh).tokens) :
    token = createAccessToken env.jwt user.id user.role.value env.settings access ∨
      token = createRefreshToken env.jwt user.id env.settings refresh := by
  simpa [TokenResponse.tokens, issueTokens] using h

/-- A token that has been handed out is of one of the two kinds, and its user has logged in. -/
theorem minted_cases {history : List Event} (hevents : ∀ event ∈ history, event.Traced env history)
    {token : String} (h : token ∈ minted history) :
    ∃ userId, Stems env history userId token ∧
      ((∃ role mint, token = createAccessToken env.jwt userId role env.settings mint) ∨
        ∃ mint, token = createRefreshToken env.jwt userId env.settings mint) := by
  obtain ⟨event, hevent, htoken⟩ := List.mem_flatMap.mp h
  have htraced := hevents event hevent
  cases event with
  | loggedIn call user response =>
    obtain ⟨hverified, access, refresh, rfl⟩ := htraced
    refine ⟨user.id, ⟨token, ⟨call, user, _, hevent, hverified, rfl, htoken⟩, .refl⟩, ?_⟩
    exact (mem_tokens_issueTokens htoken).imp (fun h => ⟨_, _, h⟩) fun h => ⟨_, h⟩
  | refreshed shown user response =>
    obtain ⟨⟨first, hfirst, hchain⟩, access, refresh, rfl⟩ := htraced
    -- one more link
    have hlink : Exchanged history user.id shown token := ⟨user, _, hevent, rfl, htoken⟩
    refine ⟨user.id, ⟨first, hfirst, hchain.tail hlink⟩, ?_⟩
    exact (mem_tokens_issueTokens htoken).imp (fun h => ⟨_, _, h⟩) fun h => ⟨_, h⟩
  | accepted => cases htoken
  | refused => cases htoken

/-! ### The tokens -/

/-- The token a process is about to have decoded. -/
def Proc.presented : Proc → Option String
  | .refresh shown .started => some shown
  | .request body .started => body.credentials
  | _ => none

/-- Signatures cannot be forged: a token that decodes has been handed out. -/
def Unforged (env : Env) (s : State) : Action → Prop
  | .exec p input => ∀ token ∈ (s.procs p).presented,
      (env.jwt.decode token env.settings.jwtSecretKey [env.settings.jwtAlgorithm] input.now).isOk →
        token ∈ minted s.history
  | .start .. | .fail _ | .account .. => True

instance (s : State) : DecidablePred (Unforged env s)
  | .exec p input => inferInstanceAs (Decidable (∀ token ∈ (s.procs p).presented,
      (env.jwt.decode token env.settings.jwtSecretKey [env.settings.jwtAlgorithm] input.now).isOk →
        token ∈ minted s.history))
  | .start .. | .fail _ | .account .. => .isTrue trivial

/-- A token that has been handed out, and has been decoded. -/
structure Presents (env : Env) (history : List Event) (token : String) (type : TokenType)
    (payload : Payload) (now : ℤ) : Prop where
  decodes : decodeToken env.jwt token type env.settings now = .ok payload
  minted : token ∈ minted history

theorem isOk_decode {token : String} {type : TokenType} {payload : Payload} {now : ℤ}
    (h : decodeToken env.jwt token type env.settings now = .ok payload) :
    (env.jwt.decode token env.settings.jwtSecretKey [env.settings.jwtAlgorithm] now).isOk := by
  unfold decodeToken at h
  split at h
  · cases h
  · cases h
  next payload' hdecode =>
    rw [hdecode]
    rfl

theorem minted_mono {history history' : List Event} (hsub : history ⊆ history') :
    minted history ⊆ minted history' := by
  intro token htoken
  obtain ⟨event, hevent, hmem⟩ := List.mem_flatMap.mp htoken
  exact List.mem_flatMap.mpr ⟨event, hsub hevent, hmem⟩

theorem Presents.mono {history history' : List Event} {token : String} {type : TokenType}
    {payload : Payload} {now : ℤ} (h : Presents env history token type payload now)
    (hsub : history ⊆ history') : Presents env history' token type payload now :=
  ⟨h.decodes, minted_mono hsub h.minted⟩

/-- What a process knows of its user at its stage. -/
def Proc.Traced (env : Env) (history : List Event) : Proc → Prop
  | .login call (.found user) | .login call (.touched user) | .login call (.audited user _)
  | .login call (.committed user) => Verified env call user
  | .refresh shown (.decoded payload) => ∃ now, Presents env history shown .refresh payload now
  | .request body (.decoded token payload checkedAt) =>
    body.credentials = some token ∧ Presents env history token .access payload checkedAt
  | _ => True

theorem Proc.Traced.mono {history history' : List Event} {proc : Proc}
    (h : proc.Traced env history) (hsub : history ⊆ history') : proc.Traced env history' := by
  unfold Proc.Traced at h ⊢
  split at h
  · exact h
  · exact h
  · exact h
  · exact h
  · exact h.imp fun _ hpresents => hpresents.mono hsub
  · exact ⟨h.1, h.2.mono hsub⟩
  · trivial

/-- The origin of every token, and of what the processes have been shown. -/
structure Traced (env : Env) (s : State) : Prop where
  events : ∀ event ∈ s.history, event.Traced env s.history
  procs : ∀ p, (s.procs p).Traced env s.history

theorem Traced.after {s : State} {outcome : Outcome} (hs : Traced env s)
    (hevents : ∀ event ∈ outcome.events, event.Traced env s.history)
    (hproc : outcome.proc.Traced env s.history) : Traced env (s.after p outcome) where
  events event hevent := by
    have hsub : s.history ⊆ s.history ++ outcome.events := List.subset_append_left ..
    rcases List.mem_append.mp hevent with hold | hnew
    · exact (hs.events event hold).mono hsub
    · exact (hevents event hnew).mono hsub
  procs := by
    have hsub : s.history ⊆ s.history ++ outcome.events := List.subset_append_left ..
    apply State.forall_procs_after
      (P := fun _ proc => proc.Traced env (s.history ++ outcome.events)) (hproc.mono hsub)
    exact fun q _ => (hs.procs q).mono hsub

/-- A refresh that is answered has been shown a refresh token of the user it answers. -/
theorem Presents.refresh {history : List Event} {shown : String} {payload : Payload} {now : ℤ}
    (hjwt : env.jwt.Lawful env.settings)
    (hevents : ∀ event ∈ history, event.Traced env history)
    (h : Presents env history shown .refresh payload now) :
    Stems env history ⟨payload.sub⟩ shown := by
  obtain ⟨userId, hstems, ⟨role, mint, rfl⟩ | ⟨mint, rfl⟩⟩ := minted_cases hevents h.minted
  · obtain ⟨htype, -⟩ := decodeToken_createAccessToken hjwt h.decodes
    cases htype
  · obtain ⟨-, hsub⟩ := decodeToken_createRefreshToken hjwt h.decodes
    rw [hsub]
    exact hstems

/-- What the events and the stage of a statement say of the tokens. -/
theorem traced_of_makes {s : State} {input : Input} {outcome : Outcome}
    (hjwt : env.jwt.Lawful env.settings) (hsound : Sound s) (hs : Traced env s)
    (hunforged : Unforged env s (.exec p input))
    (h : (s.procs p).Makes env s.db p input outcome) :
    (∀ event ∈ outcome.events, event.Traced env s.history) ∧
      outcome.proc.Traced env s.history := by
  have hproc := hs.procs p
  have hreading := hsound.nothing p
  have hpresented : ∀ token ∈ (s.procs p).presented, ∀ type payload,
      decodeToken env.jwt token type env.settings input.now = .ok payload →
      Presents env s.history token type payload input.now := by
    intro token htoken type payload hdecode
    exact ⟨hdecode, hunforged token htoken (isOk_decode hdecode)⟩
  generalize s.procs p = proc at h hproc hreading hpresented
  cases h with
  | refuse => exact ⟨by simp [Event.Traced], trivial⟩
  | find _ hverified => exact ⟨by simp, hverified⟩
  | touch =>
    have hverified : Verified env _ _ := hproc
    exact ⟨by simp, hverified.email, hverified.password, hverified.active, hverified.live⟩
  | audit | commit => exact ⟨by simp, hproc⟩
  | issue =>
    refine ⟨fun event hevent => ?_, trivial⟩
    rw [List.mem_singleton.mp hevent]
    exact ⟨hproc, input.access, input.refresh, rfl⟩
  | decodeRefresh hdecode =>
    exact ⟨by simp, input.now, hpresented _ rfl _ _ hdecode⟩
  | refresh hget _ =>
    refine ⟨fun event hevent => ?_, trivial⟩
    obtain ⟨now, hpresents⟩ := hproc
    obtain ⟨-, hid, -⟩ := getById_eq_some hsound.keyed (hreading trivial) hget
    rw [List.mem_singleton.mp hevent]
    refine ⟨?_, input.access, input.refresh, rfl⟩
    rw [hid]
    exact hpresents.refresh hjwt hs.events
  | decodeAccess htoken hdecode => exact ⟨by simp, htoken, hpresented _ htoken _ _ hdecode⟩
  | accept => exact ⟨by simp [Event.Traced], trivial⟩

theorem traced_call {history : List Event} (call : Call) : (Call.proc call).Traced env history := by
  cases call <;> trivial

theorem traced_step (hjwt : env.jwt.Lawful env.settings) {s s' : State} {a : Action}
    (hsound : Sound s) (hs : Traced env s) (hunforged : Unforged env s a)
    (h : step env s a = some s') : Traced env s' := by
  rcases step_cases h with ⟨p, input, outcome, rfl, hmakes, rfl⟩ | ⟨p, call, -, -, rfl⟩ |
    ⟨p, -, rfl⟩ | ⟨p, user, -, -, -, rfl⟩
  · obtain ⟨hevents, hproc⟩ := traced_of_makes hjwt hsound hs hunforged hmakes
    exact hs.after hevents hproc
  · exact hs.after (by simp) (traced_call call)
  · exact hs.after (by simp) trivial
  · exact ⟨hs.events, hs.procs⟩

theorem State.Fresh.traced {s : State} (h : s.Fresh) : Traced env s where
  events := by simp [h.unissued]
  procs p := by
    rw [h.idle p]
    trivial

/-! ### What an acceptance means -/

/-- The discipline of an acceptance that reads the database of `s`, and of the verdict on it. -/
structure Acceptance.Disciplined (env : Env) (s : State) (acceptance : Acceptance)
    (verdict : Except HttpException User) : Prop where
  /-- The request presents the token. -/
  presented : acceptance.request.credentials = some acceptance.token
  /-- It is an unexpired access token of the user, whatever role it was minted with. -/
  unexpired : ∃ role mint,
    acceptance.token = createAccessToken env.jwt acceptance.user.id role env.settings mint ∧
      mint.now ≤ acceptance.checkedAt ∧
      acceptance.checkedAt < mint.now + env.settings.accessTokenExpireMinutes * 60
  /-- It is not a refresh token. -/
  not_refresh : ∀ userId mint,
    acceptance.token ≠ createRefreshToken env.jwt userId env.settings mint
  /-- A chain of refreshes leads to it from a login of the user. -/
  stems : Stems env s.history acceptance.user.id acceptance.token
  /-- The user returned is the committed row, active and not deleted. -/
  committed : s.db.users.committed acceptance.user.id = some acceptance.user
  active : acceptance.user.isActive = true
  live : acceptance.user.deletedAt = none
  /-- The role of the committed row decides on the request. -/
  verdict_iff : ∀ row, s.db.users.committed acceptance.user.id = some row →
    (verdict.isOk ↔ ∀ roles ∈ acceptance.request.roles, row.role ∈ roles)

theorem isOk_verdict_iff {request : Request} {user : User} :
    (request.verdict user).isOk ↔ ∀ roles ∈ request.roles, user.role ∈ roles := by
  unfold Request.verdict
  cases request.roles with
  | none => simp [Except.isOk, Except.toBool]
  | some roles =>
    by_cases hrole : user.role ∈ roles
    · simp [requireRoles, hrole, Except.isOk, Except.toBool]
    · simp [requireRoles, hrole, Except.isOk, Except.toBool]

/-- An access token that has been presented is an unexpired one of the user it names. -/
theorem Presents.access {history : List Event} {token : String} {payload : Payload} {now : ℤ}
    (hjwt : env.jwt.Lawful env.settings)
    (hevents : ∀ event ∈ history, event.Traced env history)
    (h : Presents env history token .access payload now) :
    Stems env history ⟨payload.sub⟩ token ∧
      ∃ role mint, token = createAccessToken env.jwt ⟨payload.sub⟩ role env.settings mint ∧
        mint.now ≤ now ∧ now < mint.now + env.settings.accessTokenExpireMinutes * 60 := by
  obtain ⟨userId, hstems, ⟨role, mint, rfl⟩ | ⟨mint, rfl⟩⟩ := minted_cases hevents h.minted
  · obtain ⟨-, hsub, hiat, hexp⟩ := decodeToken_createAccessToken hjwt h.decodes
    rw [hsub]
    exact ⟨hstems, role, mint, rfl, hiat, hexp⟩
  · obtain ⟨htype, -⟩ := decodeToken_createRefreshToken hjwt h.decodes
    cases htype

/-- Answers are only added. -/
theorem history_step {s s' : State} {a : Action} (h : step env s a = some s') :
    ∃ events, s'.history = s.history ++ events := by
  rcases step_cases h with ⟨p, input, outcome, -, -, rfl⟩ | ⟨p, call, -, -, rfl⟩ |
    ⟨p, -, rfl⟩ | ⟨p, user, -, -, -, rfl⟩
  · exact ⟨outcome.events, rfl⟩
  · exact ⟨[], rfl⟩
  · exact ⟨[], rfl⟩
  · exact ⟨[], (List.append_nil _).symm⟩

/-- The events a step adds are those of the statement it makes. -/
theorem makes_of_history {s s' : State} {a : Action} {event : Event} (h : step env s a = some s')
    (hevent : s'.history = s.history ++ [event]) :
    ∃ p input outcome, (s.procs p).Makes env s.db p input outcome ∧ outcome.events = [event] := by
  rcases step_cases h with ⟨p, input, outcome, -, hmakes, rfl⟩ | ⟨p, call, -, -, rfl⟩ |
    ⟨p, -, rfl⟩ | ⟨p, user, -, -, -, rfl⟩
  · exact ⟨p, input, outcome, hmakes, List.append_cancel_left hevent⟩
  · exact absurd (List.append_cancel_left hevent) (by simp)
  · exact absurd (List.append_cancel_left hevent) (by simp)
  · exact absurd hevent (by simp)

theorem disciplined_of_accepted (hjwt : env.jwt.Lawful env.settings) {s s' : State} {a : Action}
    {acceptance : Acceptance} {verdict : Except HttpException User} (hsound : Sound s)
    (hs : Traced env s) (h : step env s a = some s')
    (hevent : s'.history = s.history ++ [.accepted acceptance verdict]) :
    acceptance.Disciplined env s verdict := by
  obtain ⟨p, input, outcome, hmakes, hevents⟩ := makes_of_history h hevent
  have hproc := hs.procs p
  have hreading := hsound.nothing p
  generalize s.procs p = proc at hmakes hproc hreading
  cases hmakes with
  | accept hget hactive =>
    obtain ⟨rfl, rfl⟩ := Event.accepted.inj (List.singleton_inj.mp hevents)
    obtain ⟨hcredentials, hpresents⟩ := hproc
    obtain ⟨hcommitted, hid, hlive⟩ := getById_eq_some hsound.keyed (hreading trivial) hget
    obtain ⟨hstems, hunexpired⟩ := hpresents.access hjwt hs.events
    rw [← hid] at hstems hunexpired hcommitted
    refine ⟨hcredentials, hunexpired, ?_, hstems, hcommitted, hactive, hlive, ?_⟩
    · rintro userId mint rfl
      obtain ⟨htype, -⟩ := decodeToken_createRefreshToken hjwt hpresents.decodes
      cases htype
    · intro row hrow
      obtain rfl := Option.some.inj (hcommitted.symm.trans hrow)
      exact isOk_verdict_iff
  | refuse | issue | refresh => cases List.singleton_inj.mp hevents
  | find | touch | audit | commit | decodeRefresh | decodeAccess => cases hevents

theorem not_access_of_refreshed (hjwt : env.jwt.Lawful env.settings) {s s' : State} {a : Action}
    {shown : String} {user : User} {response : TokenResponse} (hs : Traced env s)
    (h : step env s a = some s')
    (hevent : s'.history = s.history ++ [.refreshed shown user response]) (userId : Uuid)
    (role : String) (mint : Mint) :
    shown ≠ createAccessToken env.jwt userId role env.settings mint := by
  obtain ⟨p, input, outcome, hmakes, hevents⟩ := makes_of_history h hevent
  have hproc := hs.procs p
  generalize s.procs p = proc at hmakes hproc
  cases hmakes with
  | refresh hget hactive =>
    obtain ⟨rfl, -⟩ := Event.refreshed.inj (List.singleton_inj.mp hevents)
    obtain ⟨now, hpresents⟩ := hproc
    rintro rfl
    obtain ⟨htype, -⟩ := decodeToken_createAccessToken hjwt hpresents.decodes
    cases htype
  | refuse | issue | accept => cases List.singleton_inj.mp hevents
  | find | touch | audit | commit | decodeRefresh | decodeAccess => cases hevents

/-- **Token discipline.**  Take any run of logins, refreshes, requests and changes of accounts in
which no signature is forged, and any further step.  If the step accepts a request, then the
request, its user and the verdict on it are `Disciplined`; if it answers a refresh, then not one of
an access token. -/
theorem token_discipline (hjwt : env.jwt.Lawful env.settings) {s t t' : State}
    {actions : List Action} {a : Action} (hs : s.Fresh)
    (hrun : (service env).run s actions = some t)
    (hunforged : (service env).ActionsMeet (Unforged env) s actions)
    (hstep : (service env).step t a = some t') :
    (∀ acceptance verdict, t'.history = t.history ++ [.accepted acceptance verdict] →
      acceptance.Disciplined env t verdict) ∧
    ∀ shown user response, t'.history = t.history ++ [.refreshed shown user response] →
      ∀ userId role mint, shown ≠ createAccessToken env.jwt userId role env.settings mint := by
  have hsound : Sound t := sound_invariant.of_run hs.sound hrun
  have htraced : Traced env t :=
    (sound_invariant.statesMeet_of_actionsMeet
      (fun _ _ _ hsound htraced hunforged hstep => traced_step hjwt hsound htraced hunforged hstep)
      hs.sound hs.traced hunforged).last hrun
  constructor
  · intro acceptance verdict hevent
    exact disciplined_of_accepted hjwt hsound htraced hstep hevent
  · intro shown user response hevent
    exact not_access_of_refreshed hjwt htraced hstep hevent

/-- An installation with tokens in the clear. -/
def clearEnv : Env where
  settings := { jwtSecretKey := "0123456789abcdef0123456789abcdef" }
  jwt := clearJwt
  hasher := ⟨fun passwordHash plain =>
    if passwordHash = "argon2id$" ++ plain then .ok true
    else .error (.other "VerifyMismatchError" "The password does not match the supplied hash")⟩
  sameEmail email email' := email.toList.map Char.toLower = email'.toList.map Char.toLower

def noAccounts : State where
  db := { users := .empty, auditLogs := [] }
  procs := fun _ => .idle
  history := []

def admin : User where
  id := ⟨"u1"⟩
  email := "Admin@dgr.gov.ma"
  passwordHash := "argon2id$Admin@2026!"
  role := .ADMINISTRATOR
  isActive := true
  lastLogin := none
  deletedAt := none

/-- What the statements of a process find at a time. -/
def inputAt (now : ℤ) : Input := ⟨now, ⟨now, "a"⟩, ⟨now, "r"⟩⟩

/-- An administrator logs in and refreshes an hour later, becomes a road engineer, and presents the
new token, which still names the old role. -/
def newRole : List Action :=
  [.account 9 admin,
    .start 1 (.login ⟨"admin@dgr.gov.ma", "Admin@2026!", none, none⟩),
    .exec 1 (inputAt 0), .exec 1 (inputAt 0), .exec 1 (inputAt 0), .exec 1 (inputAt 0),
    .exec 1 (inputAt 0),
    .start 2 (.refresh (createRefreshToken clearJwt ⟨"u1"⟩ clearEnv.settings ⟨0, "r"⟩)),
    .exec 2 (inputAt 3600), .exec 2 (inputAt 3600),
    .account 9 { admin with role := .ROAD_ENGINEER },
    .start 3 (.request {
      credentials :=
        some (createAccessToken clearJwt ⟨"u1"⟩ "ADMINISTRATOR" clearEnv.settings ⟨3600, "a"⟩)
      roles := some [.ROAD_ENGINEER] }),
    .exec 3 (inputAt 3660)]

theorem fresh_noAccounts : noAccounts.Fresh where
  unissued := rfl
  idle _ := rfl
  settled _ := rfl
  keyed _ _ h := nomatch h

/-- The role of the user of an acceptance, and whether the verdict is for it. -/
def Event.acceptedRole? : Event → Option (UserRole × Bool)
  | .accepted acceptance verdict => some (acceptance.user.role, verdict.isOk)
  | _ => none

/-- The request is accepted, and allowed by the new role. -/
theorem token_discipline_newRole :
    ∃ t t' acceptance verdict,
      (service clearEnv).run noAccounts newRole = some t ∧
      (service clearEnv).step t (.exec 3 (inputAt 3660)) = some t' ∧
      t'.history = t.history ++ [.accepted acceptance verdict] ∧
      acceptance.user.role = .ROAD_ENGINEER ∧ verdict.isOk ∧
      acceptance.Disciplined clearEnv t verdict := by
  have heval : ((service clearEnv).run noAccounts newRole).bind (fun t =>
      ((service clearEnv).step t (.exec 3 (inputAt 3660))).map fun t' =>
        (t'.history.drop t.history.length).map Event.acceptedRole?)
      = some [some (.ROAD_ENGINEER, true)] := by
    decide
  have hunforged : (service clearEnv).ActionsMeet (Unforged clearEnv) noAccounts newRole := by
    decide
  obtain ⟨t, hrun, heval⟩ := Option.bind_eq_some_iff.mp heval
  obtain ⟨t', hstep, heval⟩ := Option.map_eq_some_iff.mp heval
  have hstep' : step clearEnv t (.exec 3 (inputAt 3660)) = some t' := hstep
  obtain ⟨events, hhistory⟩ := history_step hstep'
  rw [hhistory, List.drop_left] at heval
  obtain ⟨event, rfl, hevent⟩ := List.map_eq_singleton_iff.mp heval
  cases event with
  | accepted acceptance verdict =>
    obtain ⟨hrole, hok⟩ := Prod.mk.inj (Option.some.inj hevent)
    refine ⟨t, t', acceptance, verdict, hrun, hstep, hhistory, hrole, hok, ?_⟩
    exact (token_discipline (lawful_clearJwt _) fresh_noAccounts hrun hunforged hstep).1
      acceptance verdict hhistory
  | loggedIn | refreshed | refused => cases hevent

end RoadVisionAI.Auth
