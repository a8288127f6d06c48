import RoadVisionAI.Auth.Service

/-!
# The statements of the authentication service

What a statement does, and what it leaves of the rows: a process that is not between its first write
and its commit holds nothing (`Sound`), so it reads the committed row of a user (`getById_eq_some`).
-/

namespace RoadVisionAI.Auth

open Python Db Transition

variable {env : Env} {db : Database} {p q : ℕ}

/-! ### Reading a user -/

theorem scalarOneOrNone_eq_some {users : LockedTable Uuid User} {cond : User → Bool} {user : User}
    (h : scalarOneOrNone users p cond = .ok (some user)) :
    ∃ k, (users.slots k).visible p = some user ∧ cond user = true := by
  unfold scalarOneOrNone at h
  split at h
  · cases h
  next k hselect =>
    have hk : k ∈ users.select p cond := by rw [hselect]; exact List.mem_singleton_self k
    have hvisible : (users.slots k).visible p = some user := Except.ok.inj h
    have hcond := (List.mem_filter.mp hk).2
    rw [hvisible] at hcond
    exact ⟨k, hvisible, hcond⟩
  · cases h

/-- A process that holds nothing reads the committed row. -/
theorem getById_eq_some {users : LockedTable Uuid User} {userId : Uuid} {user : User}
    (hkeyed : users.EveryVersion fun k user => user.id = k) (hnothing : users.HoldsNothing p)
    (h : getById users p userId = .ok (some user)) :
    users.committed userId = some user ∧ user.id = userId ∧ user.deletedAt = none := by
  obtain ⟨k, hvisible, hcond⟩ := scalarOneOrNone_eq_some h
  obtain ⟨hid, hdeleted⟩ : user.id = userId ∧ user.deletedAt = none := by simpa using hcond
  have hkey : user.id = k := hkeyed.visible hvisible
  refine ⟨?_, hid, hdeleted⟩
  rw [← hid, hkey, ← hnothing.visible]
  exact hvisible

/-- The row `login` finds, likewise. -/
theorem getByEmail_eq_some {users : LockedTable Uuid User} {email : String} {user : User}
    (hkeyed : users.EveryVersion fun k user => user.id = k) (hnothing : users.HoldsNothing p)
    (h : getByEmail env users p email = .ok (some user)) :
    users.committed user.id = some user := by
  obtain ⟨k, hvisible, -⟩ := scalarOneOrNone_eq_some h
  have hkey : user.id = k := hkeyed.visible hvisible
  rw [hkey, ← hnothing.visible]
  exact hvisible

/-- What `login` has checked of the user it has found. -/
structure Verified (env : Env) (call : LoginCall) (user : User) : Prop where
  email : env.sameEmail user.email call.email = true
  password : verifyPassword env.hasher call.password user.passwordHash = .ok true
  active : user.isActive = true
  live : user.deletedAt = none

theorem authenticate_eq_ok {call : LoginCall} {found : Option User} {user : User}
    (h : authenticate env call found = .ok user) :
    found = some user ∧ verifyPassword env.hasher call.password user.passwordHash = .ok true ∧
      user.isActive = true := by
  unfold authenticate at h
  split at h
  · cases h
  next row =>
    split at h
    · cases h
    · cases h
    next hpassword =>
      split_ifs at h with hactive
      obtain rfl := Except.ok.inj h
      exact ⟨rfl, hpassword, hactive⟩

theorem verified_of_authenticate {users : LockedTable Uuid User} {call : LoginCall} {user : User}
    (hget : getByEmail env users p call.email = .ok (some user))
    (h : authenticate env call (some user) = .ok user) : Verified env call user := by
  obtain ⟨-, hpassword, hactive⟩ := authenticate_eq_ok h
  obtain ⟨k, -, hcond⟩ := scalarOneOrNone_eq_some hget
  obtain ⟨hemail, hdeleted⟩ :
      env.sameEmail user.email call.email = true ∧ user.deletedAt = none := by
    simpa using hcond
  exact ⟨hemail, hpassword, hactive, hdeleted⟩

/-! ### What a statement can do -/

/-- The case analysis of the statements. -/
inductive Proc.Makes (env : Env) (db : Database) (p : ℕ) (input : Input) : Proc → Outcome → Prop
  | refuse {proc raised} : Makes env db p input proc ⟨.rollback, .idle, [.refused raised]⟩
  | find {call user} (hget : getByEmail env db.users p call.email = .ok (some user))
      (h : Verified env call user) :
      Makes env db p input (.login call .started) ⟨.none, .login call (.found user), []⟩
  | touch {call user row} (hfree : (db.users.slots user.id).Free p)
      (hrow : (db.users.slots user.id).visible p = some row) :
      Makes env db p input (.login call (.found user))
        ⟨.write (db.users.write p user.id { row with lastLogin := some input.now }),
          .login call (.touched { user with lastLogin := some input.now }), []⟩
  | audit {call user} :
      Makes env db p input (.login call (.touched user))
        ⟨.none, .login call (.audited user (loginLog call user)), []⟩
  | commit {call user auditLog} :
      Makes env db p input (.login call (.audited user auditLog))
        ⟨.commit auditLog, .login call (.committed user), []⟩
  | issue {call user} :
      Makes env db p input (.login call (.committed user))
        ⟨.rollback, .idle,
          [.loggedIn call user (issueTokens env user input.access input.refresh)]⟩
  | decodeRefresh {shown payload}
      (h : decodeToken env.jwt shown .refresh env.settings input.now = .ok payload) :
      Makes env db p input (.refresh shown .started) ⟨.none, .refresh shown (.decoded payload), []⟩
  | refresh {shown payload user} (hget : getById db.users p ⟨payload.sub⟩ = .ok (some user))
      (hactive : user.isActive = true) :
      Makes env db p input (.refresh shown (.decoded payload))
        ⟨.rollback, .idle,
          [.refreshed shown user (issueTokens env user input.access input.refresh)]⟩
  | decodeAccess {request token payload} (htoken : request.credentials = some token)
      (h : decodeToken env.jwt token .access env.settings input.now = .ok payload) :
      Makes env db p input (.request request .started)
        ⟨.none, .request request (.decoded token payload input.now), []⟩
  | accept {request token payload checkedAt user}
      (hget : getById db.users p ⟨payload.sub⟩ = .ok (some user)) (hactive : user.isActive = true) :
      Makes env db p input (.request request (.decoded token payload checkedAt))
        ⟨.rollback, .idle,
          [.accepted { request, token, checkedAt, user } (request.verdict user)]⟩

theorem execLogin_cases {input : Input} {call : LoginCall} {stage : LoginStage} {outcome : Outcome}
    (h : execLogin env db p input call stage = some outcome) :
    (Proc.login call stage).Makes env db p input outcome := by
  cases stage with
  | started =>
    simp only [execLogin, answer, next] at h
    split at h
    · cases h
      exact .refuse
    next found hget =>
      split at h <;> cases h
      · exact .refuse
      next user hauth =>
        obtain ⟨rfl, -⟩ := authenticate_eq_ok hauth
        exact .find hget (verified_of_authenticate hget hauth)
  | found user =>
    simp only [execLogin, answer, next] at h
    split_ifs at h with hfree
    split at h <;> cases h
    · exact .refuse
    next row hrow => exact .touch hfree hrow
  | touched user =>
    cases h
    exact .audit
  | audited user auditLog =>
    cases h
    exact .commit
  | committed user =>
    cases h
    exact .issue

theorem execRefresh_cases {input : Input} {shown : String} {stage : RefreshStage}
    {outcome : Outcome} (h : execRefresh env db p input shown stage = some outcome) :
    (Proc.refresh shown stage).Makes env db p input outcome := by
  cases stage with
  | started =>
    simp only [execRefresh, answer, next] at h
    split at h <;> cases h
    · exact .refuse
    next payload hdecode => exact .decodeRefresh hdecode
  | decoded payload =>
    simp only [execRefresh, answer] at h
    split at h
    · cases h
      exact .refuse
    · cases h
      exact .refuse
    next user hget =>
      split_ifs at h with hactive <;> cases h
      · exact .refresh hget hactive
      · exact .refuse

theorem execRequest_cases {input : Input} {request : Request} {stage : RequestStage}
    {outcome : Outcome} (h : execRequest env db p input request stage = some outcome) :
    (Proc.request request stage).Makes env db p input outcome := by
  cases stage with
  | started =>
    simp only [execRequest, answer, next] at h
    split at h
    · cases h
      exact .refuse
    next token htoken =>
      split at h <;> cases h
      · exact .refuse
      next payload hdecode => exact .decodeAccess htoken hdecode
  | decoded token payload checkedAt =>
    simp only [execRequest, answer] at h
    split at h
    · cases h
      exact .refuse
    · cases h
      exact .refuse
    next user hget =>
      split_ifs at h with hactive <;> cases h
      · exact .accept hget hactive
      · exact .refuse

theorem exec_cases {input : Input} {proc : Proc} {outcome : Outcome}
    (h : exec env db p input proc = some outcome) : proc.Makes env db p input outcome := by
  cases proc with
  | idle => cases h
  | login call stage => exact execLogin_cases h
  | refresh shown stage => exact execRefresh_cases h
  | request request stage => exact execRequest_cases h

/-- A step is a statement of a process, the start or the failure of a call, or a change of an
account. -/
theorem step_cases {s s' : State} {a : Action} (h : step env s a = some s') :
    (∃ p input outcome, a = .exec p input ∧ (s.procs p).Makes env s.db p input outcome ∧
      s' = s.after p outcome) ∨
    (∃ p call, a = .start p call ∧ s.procs p = .idle ∧
      s' = s.after p ⟨.none, Call.proc call, []⟩) ∨
    (∃ p, a = .fail p ∧ s' = s.after p ⟨.rollback, .idle, []⟩) ∨
    ∃ p user, a = .account p user ∧ s.procs p = .idle ∧ (s.db.users.slots user.id).Free p ∧
      s' = { s with db := { s.db with users := (s.db.users.write p user.id user).commit p } } := by
  cases a with
  | start p call =>
    simp only [step] at h
    split at h <;> cases h
    next hidle => exact Or.inr (Or.inl ⟨p, call, rfl, hidle, rfl⟩)
  | exec p input =>
    obtain ⟨outcome, hexec, rfl⟩ := Option.map_eq_some_iff.mp h
    exact Or.inl ⟨p, input, outcome, rfl, exec_cases hexec, rfl⟩
  | fail p =>
    simp only [step] at h
    split at h <;> cases h
    exact Or.inr (Or.inr (Or.inl ⟨p, rfl, rfl⟩))
  | account p user =>
    simp only [step] at h
    split at h
    next hidle =>
      split_ifs at h with hfree
      exact Or.inr (Or.inr (Or.inr ⟨p, user, rfl, hidle, hfree, (Option.some.inj h).symm⟩))
    · cases h

/-! ### The rows -/

/-- Not between its first write and its commit. -/
def Proc.Reading : Proc → Prop
  | .login _ (.touched _) | .login _ (.audited ..) => False
  | _ => True

/-- Rows keep their keys, and a process that only reads holds nothing. -/
structure Sound (s : State) : Prop where
  keyed : s.db.users.EveryVersion fun k user => user.id = k
  nothing : ∀ p, (s.procs p).Reading → s.db.users.HoldsNothing p

/-- What an effect of `p` may do to the rows. -/
structure Effect.Clean (effect : Effect) (db : Database) (p : ℕ) : Prop where
  keyed : (db.users.EveryVersion fun k user => user.id = k) →
    (effect.apply p db).users.EveryVersion fun k user => user.id = k
  undisturbed : ∀ q, q ≠ p → LockedTable.Undisturbed q db.users (effect.apply p db).users

theorem clean_none : Effect.none.Clean db p where
  keyed := id
  undisturbed _ _ := ⟨fun _ _ => Iff.rfl, fun _ _ _ => rfl⟩

theorem clean_rollback : Effect.rollback.Clean db p where
  keyed h := h.rollback p
  undisturbed _ hq := LockedTable.undisturbed_rollback hq

theorem Proc.Makes.clean {proc : Proc} {input : Input} {outcome : Outcome}
    (hkeyed : db.users.EveryVersion fun k user => user.id = k)
    (h : proc.Makes env db p input outcome) : outcome.effect.Clean db p := by
  cases h with
  | refuse | issue | refresh | accept => exact clean_rollback
  | find | audit | decodeRefresh | decodeAccess => exact clean_none
  | touch hfree hrow =>
    have hid := hkeyed.visible hrow
    exact ⟨fun hkeyed => hkeyed.write hid, fun q hq => LockedTable.undisturbed_write hq hfree⟩
  | commit => exact ⟨fun hkeyed => hkeyed.commit p, fun q hq => LockedTable.undisturbed_commit hq⟩

/-- A process that has just made a statement holds nothing, unless it is about to commit. -/
theorem Proc.Makes.nothing {proc : Proc} {input : Input} {outcome : Outcome}
    (h : proc.Makes env db p input outcome) (hnothing : proc.Reading → db.users.HoldsNothing p)
    (hreading : outcome.proc.Reading) :
    (outcome.effect.apply p db).users.HoldsNothing p := by
  cases h with
  | refuse | issue | refresh | accept => exact LockedTable.holdsNothing_rollback
  | find | decodeRefresh | decodeAccess => exact hnothing trivial
  | touch | audit => exact hreading.elim
  | commit => exact LockedTable.holdsNothing_commit

/-- What holds of the process that acts, and of all others, holds of all. -/
theorem State.forall_procs_after {s : State} {outcome : Outcome} {P : ℕ → Proc → Prop}
    (hself : P p outcome.proc) (hothers : ∀ q, q ≠ p → P q (s.procs q)) (q : ℕ) :
    P q ((s.after p outcome).procs q) :=
  (Function.forall_update_iff s.procs P).mpr ⟨hself, hothers⟩ q

theorem Sound.after {s : State} {outcome : Outcome} (hs : Sound s)
    (hclean : outcome.effect.Clean s.db p)
    (hself : outcome.proc.Reading → (outcome.effect.apply p s.db).users.HoldsNothing p) :
    Sound (s.after p outcome) where
  keyed := hclean.keyed hs.keyed
  nothing := by
    apply State.forall_procs_after
      (P := fun q proc => proc.Reading → (outcome.effect.apply p s.db).users.HoldsNothing q) hself
    intro q hq hreading
    exact (hs.nothing q hreading).frame (hclean.undisturbed q hq)

theorem sound_step {s s' : State} {a : Action} (hs : Sound s) (h : step env s a = some s') :
    Sound s' := by
  rcases step_cases h with ⟨p, input, outcome, -, hmakes, rfl⟩ | ⟨p, call, -, hidle, rfl⟩ |
    ⟨p, -, rfl⟩ | ⟨p, user, -, hidle, hfree, rfl⟩
  · exact hs.after (hmakes.clean hs.keyed) (hmakes.nothing (hs.nothing p))
  · have hnothing : s.db.users.HoldsNothing p := hs.nothing p (by rw [hidle]; trivial)
    exact hs.after clean_none fun _ => hnothing
  · exact hs.after clean_rollback fun _ => LockedTable.holdsNothing_rollback
  · refine ⟨(hs.keyed.write rfl).commit p, fun q hreading => ?_⟩
    by_cases hq : q = p
    · subst hq
      exact LockedTable.holdsNothing_commit
    · exact (hs.nothing q hreading).frame
        ((LockedTable.undisturbed_write hq hfree).trans (LockedTable.undisturbed_commit hq))

theorem State.Fresh.sound {s : State} (h : s.Fresh) : Sound s where
  keyed k user hversion := by
    rcases hversion with hcommitted | ⟨p, hpending⟩
    · exact h.keyed k user hcommitted
    · rw [h.settled k] at hpending
      cases hpending
  nothing _ _ := LockedTable.holdsNothing_of_quiet h.settled

theorem sound_invariant : (service env).Invariant Sound where
  init _ hs := hs.sound
  step _ _ _ hs h := sound_step hs h

end RoadVisionAI.Auth
