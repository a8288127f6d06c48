import RoadVisionAI.Auth.Equiv.TokenDiscipline

/-!
# A locked account stays out

Tokens are not revoked, but `get_current_user` and `refresh` read the row of the user again, and a
login writes nothing but the time to it (`Touches`).  So a deactivation or a soft delete takes
effect with its commit, whatever calls are under way (`locked_out`): what can still come is the
answer of a login that had passed its check, and its tokens are refused.
-/

namespace RoadVisionAI.Auth

open Python Db Transition

variable {env : Env} {db : Database} {p q : ℕ} {userId : Uuid}

/-! ### Locked accounts -/

/-- Deactivated, or deleted. -/
def User.Locked (user : User) : Prop := user.isActive = false ∨ user.deletedAt ≠ none

instance (user : User) : Decidable user.Locked := inferInstanceAs (Decidable (_ ∨ _))

theorem User.not_locked {user : User} (hactive : user.isActive = true)
    (hlive : user.deletedAt = none) : ¬ user.Locked := by
  rintro (h | h)
  · rw [hactive] at h
    cases h
  · exact h hlive

/-- The row of the user, if there is one, is locked. -/
def LockedOut (users : LockedTable Uuid User) (userId : Uuid) : Prop :=
  ∀ row, users.committed userId = some row → row.Locked

/-- The action gives the user a row that is not. -/
def Action.Reinstates (userId : Uuid) : Action → Prop
  | .account _ user => user.id = userId ∧ ¬ user.Locked
  | _ => False

instance (a : Action) : Decidable (a.Reinstates userId) :=
  match a with
  | .account _ user => inferInstanceAs (Decidable (user.id = userId ∧ ¬ user.Locked))
  | .start .. | .exec .. | .fail .. => inferInstanceAs (Decidable False)

/-! ### What a login writes -/

/-- What is about to be committed is what is committed, at another time. -/
def Touches (users : LockedTable Uuid User) : Prop :=
  ∀ p k row, users.Holds p k row →
    ∃ old lastLogin, users.committed k = some old ∧ row = { old with lastLogin }

theorem Touches.after {users users' : LockedTable Uuid User} (h : Touches users)
    (hundisturbed : ∀ q, q ≠ p → LockedTable.Undisturbed q users users')
    (hself : ∀ k row, users'.Holds p k row →
      ∃ old lastLogin, users'.committed k = some old ∧ row = { old with lastLogin }) :
    Touches users' := by
  intro q k row hrow
  by_cases hq : q = p
  · rw [hq] at hrow
    exact hself k row hrow
  · have hold := ((hundisturbed q hq).holds k row).mp hrow
    rw [(hundisturbed q hq).committed k row hold]
    exact h q k row hold

/-- The version a login writes. -/
theorem Touches.visible {users : LockedTable Uuid User} {k : Uuid} {row : User} (h : Touches users)
    (hrow : (users.slots k).visible p = some row) :
    ∃ old lastLogin, users.committed k = some old ∧ row = { old with lastLogin } := by
  rcases Slot.visible_cases hrow with hholds | ⟨hcommitted, -⟩
  · exact h p k row hholds
  · exact ⟨row, row.lastLogin, hcommitted, rfl⟩

theorem Touches.touch {users : LockedTable Uuid User} {k : Uuid} {row : User} {now : Option ℤ}
    (h : Touches users) (hfree : (users.slots k).Free p)
    (hrow : (users.slots k).visible p = some row) :
    Touches (users.write p k { row with lastLogin := now }) := by
  refine h.after (fun q hq => LockedTable.undisturbed_write hq hfree) fun j row' hrow' => ?_
  rw [LockedTable.committed_write]
  rcases LockedTable.pending_write_cases hrow' with ⟨rfl, hw⟩ | ⟨-, hpending⟩
  · obtain ⟨old, lastLogin, hold, rfl⟩ := h.visible hrow
    obtain ⟨-, rfl⟩ := Prod.mk.inj hw
    exact ⟨old, now, hold, rfl⟩
  · exact h p j row' hpending

theorem Touches.commit {users : LockedTable Uuid User} (h : Touches users) :
    Touches (users.commit p) :=
  h.after (fun _ hq => LockedTable.undisturbed_commit hq)
    fun k row hrow => (LockedTable.holdsNothing_commit k row hrow).elim

theorem Touches.rollback {users : LockedTable Uuid User} (h : Touches users) :
    Touches (users.rollback p) :=
  h.after (fun _ hq => LockedTable.undisturbed_rollback hq)
    fun k row hrow => (LockedTable.holdsNothing_rollback k row hrow).elim

/-- What another transaction commits. -/
theorem Touches.account {users : LockedTable Uuid User} {user : User} (h : Touches users)
    (hfree : (users.slots user.id).Free p) : Touches ((users.write p user.id user).commit p) :=
  h.after
    (fun _ hq => (LockedTable.undisturbed_write hq hfree).trans (LockedTable.undisturbed_commit hq))
    fun k row hrow => (LockedTable.holdsNothing_commit k row hrow).elim

theorem touches_step {s s' : State} {a : Action} (hs : Touches s.db.users)
    (h : step env s a = some s') : Touches s'.db.users := by
  rcases step_cases h with ⟨p, input, outcome, -, hmakes, rfl⟩ | ⟨p, call, -, -, rfl⟩ |
    ⟨p, -, rfl⟩ | ⟨p, user, -, -, hfree, rfl⟩
  · show Touches (outcome.effect.apply p s.db).users
    generalize s.procs p = proc at hmakes
    cases hmakes with
    | touch hfree hrow => exact hs.touch hfree hrow
    | commit => exact hs.commit
    | refuse | issue | refresh | accept => exact hs.rollback
    | find | audit | decodeRefresh | decodeAccess => exact hs
  · exact hs
  · exact hs.rollback
  · exact hs.account hfree

theorem State.Fresh.touches {s : State} (h : s.Fresh) : Touches s.db.users := by
  intro p k row hrow
  exact (LockedTable.holdsNothing_of_quiet h.settled k row hrow).elim

theorem touches_invariant : (service env).Invariant fun s => Sound s ∧ Touches s.db.users :=
  sound_invariant.and (fun _ hs => hs.touches) fun _ _ _ _ hs h => touches_step hs h

/-! ### A lock is kept -/

section

variable {users : LockedTable Uuid User}

theorem LockedOut.write {k : Uuid} {row : User} (h : LockedOut users userId) :
    LockedOut (users.write p k row) userId := by
  intro row' hrow'
  rw [LockedTable.committed_write] at hrow'
  exact h row' hrow'

/-- A commit changes the time of a row at most. -/
theorem LockedOut.commit (h : LockedOut users userId) (htouches : Touches users) :
    LockedOut (users.commit p) userId := by
  intro row hrow
  rcases Slot.visible_cases hrow with hholds | ⟨hcommitted, -⟩
  · obtain ⟨old, lastLogin, hold, rfl⟩ := htouches p userId row hholds
    exact h old hold
  · exact h row hcommitted

theorem LockedOut.makes {proc : Proc} {input : Input} {outcome : Outcome}
    (h : LockedOut db.users userId) (htouches : Touches db.users)
    (hmakes : proc.Makes env db p input outcome) :
    LockedOut (outcome.effect.apply p db).users userId := by
  cases hmakes with
  | touch => exact h.write
  | commit => exact h.commit htouches
  | refuse | issue | refresh | accept => exact h
  | find | audit | decodeRefresh | decodeAccess => exact h

theorem LockedOut.account {user : User} (h : LockedOut users userId)
    (hnothing : users.HoldsNothing p) (huser : user.id = userId → user.Locked) :
    LockedOut ((users.write p user.id user).commit p) userId := by
  intro row hrow
  rcases Slot.visible_cases hrow with hholds | ⟨hcommitted, -⟩
  · rcases LockedTable.pending_write_cases hholds with ⟨heq, hw⟩ | ⟨-, hpending⟩
    · obtain ⟨-, rfl⟩ := Prod.mk.inj hw
      exact huser heq.symm
    · exact (hnothing userId row hpending).elim
  · exact h.write row hcommitted

end

/-! ### What can still happen -/

/-- The user a login has let in. -/
def Proc.admitted? : Proc → Option User
  | .login _ (.found user) | .login _ (.touched user) | .login _ (.audited user _)
  | .login _ (.committed user) => some user
  | _ => none

/-- Some login has let the user in. -/
def State.Admits (s : State) (userId : Uuid) (p : ℕ) : Prop :=
  ∃ user, (s.procs p).admitted? = some user ∧ user.id = userId

/-- An answer after the lock: no request is accepted, no token is refreshed, and if a login is
answered it had let the user in before. -/
def Event.Barred (userId : Uuid) (s : State) : Event → Prop
  | .loggedIn _ user _ => user.id = userId → ∃ p, s.Admits userId p
  | .refreshed _ user _ => user.id ≠ userId
  | .accepted acceptance _ => acceptance.user.id ≠ userId
  | .refused _ => True

/-- From `s`, where the user is locked out, to `t`. -/
structure Shut (userId : Uuid) (s t : State) : Prop where
  locked : LockedOut t.db.users userId
  admits : ∀ p, t.Admits userId p → s.Admits userId p
  events : ∃ events, t.history = s.history ++ events ∧ ∀ event ∈ events, event.Barred userId s

/-- A locked user is not read as one who can act. -/
theorem ne_of_getById {users : LockedTable Uuid User} {sub : Uuid} {user : User}
    (hlocked : LockedOut users userId)
    (hkeyed : users.EveryVersion fun k user => user.id = k) (hnothing : users.HoldsNothing p)
    (hget : getById users p sub = .ok (some user)) (hactive : user.isActive = true) :
    user.id ≠ userId := by
  rintro rfl
  obtain ⟨hcommitted, hid, hlive⟩ := getById_eq_some hkeyed hnothing hget
  rw [← hid] at hcommitted
  exact User.not_locked hactive hlive (hlocked user hcommitted)

theorem ne_of_find {call : LoginCall} {user : User} (hlocked : LockedOut db.users userId)
    (hkeyed : db.users.EveryVersion fun k user => user.id = k)
    (hnothing : db.users.HoldsNothing p) (hverified : Verified env call user)
    (hget : getByEmail env db.users p call.email = .ok (some user)) : user.id ≠ userId := by
  rintro rfl
  have hcommitted := getByEmail_eq_some hkeyed hnothing hget
  exact User.not_locked hverified.active hverified.live (hlocked user hcommitted)

section Steps

variable {s t : State} {input : Input} {outcome : Outcome}

/-- A step of `p`. -/
theorem Shut.after (h : Shut userId s t)
    (hlocked : LockedOut (outcome.effect.apply p t.db).users userId)
    (hadmitted : ∀ user, outcome.proc.admitted? = some user → user.id = userId →
      t.Admits userId p) (hevents : ∀ event ∈ outcome.events, event.Barred userId s) :
    Shut userId s (t.after p outcome) where
  locked := hlocked
  admits q hq := by
    refine h.admits q ?_
    obtain ⟨user, huser, hid⟩ := hq
    have hall : ∀ q, ((t.after p outcome).procs q).admitted? = some user → t.Admits userId q :=
      State.forall_procs_after (P := fun q proc => proc.admitted? = some user → t.Admits userId q)
        (fun huser => hadmitted user huser hid) fun q _ huser => ⟨user, huser, hid⟩
    exact hall q huser
  events := by
    obtain ⟨events, hhistory, hbarred⟩ := h.events
    refine ⟨events ++ outcome.events, ?_, fun event hevent => ?_⟩
    · show t.history ++ outcome.events = _
      rw [hhistory, List.append_assoc]
    · rcases List.mem_append.mp hevent with hold | hnew
      · exact hbarred event hold
      · exact hevents event hnew

theorem Shut.of_exec (h : Shut userId s t) (hsound : Sound t) (htouches : Touches t.db.users)
    (hexec : exec env t.db p input (t.procs p) = some outcome) :
    Shut userId s (t.after p outcome) := by
  have hmakes := exec_cases hexec
  have hnothing := hsound.nothing p
  have hadmits : ∀ user, (t.procs p).admitted? = some user → user.id = userId →
      s.Admits userId p := fun user huser hid => h.admits p ⟨user, huser, hid⟩
  refine h.after (h.locked.makes htouches hmakes) (fun user huser hid => ?_) fun event hevent => ?_
  · show ∃ user, (t.procs p).admitted? = some user ∧ user.id = userId
    generalize t.procs p = proc at hmakes hnothing
    cases hmakes with
    | find hget hverified =>
      -- the row it has found can act
      obtain rfl := Option.some.inj huser
      exact (ne_of_find h.locked hsound.keyed (hnothing trivial) hverified hget hid).elim
    | @touch call user' =>
      obtain rfl := Option.some.inj huser
      exact ⟨user', rfl, hid⟩
    | audit | commit => exact ⟨user, huser, hid⟩
    | refuse | issue | refresh | accept | decodeRefresh | decodeAccess => cases huser
  · generalize t.procs p = proc at hmakes hadmits hnothing
    cases hmakes with
    | @issue call user =>
      obtain rfl := List.mem_singleton.mp hevent
      exact fun hid => ⟨p, hadmits user rfl hid⟩
    | refresh hget hactive =>
      obtain rfl := List.mem_singleton.mp hevent
      exact ne_of_getById h.locked hsound.keyed (hnothing trivial) hget hactive
    | accept hget hactive =>
      obtain rfl := List.mem_singleton.mp hevent
      exact ne_of_getById h.locked hsound.keyed (hnothing trivial) hget hactive
    | refuse =>
      obtain rfl := List.mem_singleton.mp hevent
      trivial
    | find | touch | audit | commit | decodeRefresh | decodeAccess => cases hevent

end Steps

/-- An account that the transaction of an idle process changes. -/
theorem account_cases {s s' : State} {user : User} (h : step env s (.account p user) = some s') :
    s.procs p = .idle ∧ (s.db.users.slots user.id).Free p ∧
      s' = { s with db := { s.db with users := (s.db.users.write p user.id user).commit p } } := by
  simp only [step] at h
  split at h
  next hidle =>
    split_ifs at h with hfree
    exact ⟨hidle, hfree, (Option.some.inj h).symm⟩
  · cases h

theorem shut_step {s t t' : State} {a : Action} (hsound : Sound t) (htouches : Touches t.db.users)
    (h : Shut userId s t) (ha : ¬ a.Reinstates userId) (hstep : step env t a = some t') :
    Shut userId s t' := by
  cases a with
  | exec p input =>
    obtain ⟨outcome, hexec, rfl⟩ := Option.map_eq_some_iff.mp hstep
    exact h.of_exec hsound htouches hexec
  | account p user =>
    obtain ⟨hidle, -, rfl⟩ := account_cases hstep
    have hnothing : t.db.users.HoldsNothing p := hsound.nothing p (by rw [hidle]; trivial)
    have huser : user.id = userId → user.Locked := fun hid => by
      by_contra hlocked
      exact ha ⟨hid, hlocked⟩
    exact ⟨h.locked.account hnothing huser, h.admits, h.events⟩
  | start p call =>
    simp only [step] at hstep
    split at hstep <;> cases hstep
    refine h.after h.locked (fun user huser _ => ?_) (by simp)
    cases call <;> cases huser
  | fail p =>
    simp only [step] at hstep
    split at hstep <;> cases hstep
    refine h.after h.locked (fun user huser _ => ?_) (by simp)
    cases huser

/-- **A locked account stays out.**  Once the row of a user is deactivated or deleted, and as long
as no one reinstates it, no request is accepted as the user and no token is refreshed, whatever
tokens are shown and whatever calls are under way; and if a login of the user is answered, it had
been let in before. -/
theorem locked_out {s t : State} {actions : List Action} (hs : (service env).Reachable s)
    (hlocked : LockedOut s.db.users userId) (hactions : ∀ a ∈ actions, ¬ a.Reinstates userId)
    (hrun : (service env).run s actions = some t) :
    LockedOut t.db.users userId ∧
      ∃ events, t.history = s.history ++ events ∧ ∀ event ∈ events, event.Barred userId s := by
  obtain ⟨hsound, htouches⟩ := touches_invariant.holds hs
  have hshut : Shut userId s s := ⟨hlocked, fun _ => id, [], (List.append_nil _).symm, by simp⟩
  have hall : Shut userId s t :=
    (touches_invariant.statesMeet_of_actionsMeet
      (C := fun _ a => ¬ a.Reinstates userId)
      (fun _ _ _ hs h ha hstep => shut_step hs.1 hs.2 h ha hstep) ⟨hsound, htouches⟩ hshut
      (.of_forall fun a ha _ => hactions a ha)).last hrun
  exact ⟨hall.locked, hall.events⟩

/-- The administrator has logged in, is logging in again, and is deactivated. -/
def dismissed : List Action :=
  .account 9 admin ::
    .start 1 (.login ⟨"admin@dgr.gov.ma", "Admin@2026!", none, none⟩) ::
    List.replicate 5 (.exec 1 (inputAt 0)) ++
      [.start 2 (.login ⟨"admin@dgr.gov.ma", "Admin@2026!", none, none⟩), .exec 2 (inputAt 60),
        .account 9 { admin with isActive := false }]

/-- The second login ends; a request with the first token and a refresh come. -/
def knocking : List Action :=
  List.replicate 4 (.exec 2 (inputAt 61)) ++
    [.start 3 (.request {
        credentials :=
          some (createAccessToken clearJwt ⟨"u1"⟩ "ADMINISTRATOR" clearEnv.settings ⟨0, "a"⟩)
        roles := none }),
      .exec 3 (inputAt 62), .exec 3 (inputAt 62),
      .start 4 (.refresh (createRefreshToken clearJwt ⟨"u1"⟩ clearEnv.settings ⟨0, "r"⟩)),
      .exec 4 (inputAt 63), .exec 4 (inputAt 63)]

/-- The login is answered, the others are refused. -/
theorem locked_out_dismissed :
    ∃ s t events, (service clearEnv).run noAccounts dismissed = some s ∧
      (service clearEnv).run s knocking = some t ∧ t.history = s.history ++ events ∧
      events.length = 3 ∧ ∀ event ∈ events, event.Barred ⟨"u1"⟩ s := by
  have heval : (((service clearEnv).run noAccounts dismissed).bind fun s =>
      ((service clearEnv).run s knocking).map fun t =>
        (s.db.users.committed ⟨"u1"⟩, t.history.length - s.history.length))
      = some (some { admin with isActive := false }, 3) := by
    decide +kernel
  have hactions : ∀ a ∈ knocking, ¬ a.Reinstates ⟨"u1"⟩ := by
    simp [knocking, Action.Reinstates]
  obtain ⟨s, hs, hmore⟩ := Option.bind_eq_some_iff.mp heval
  obtain ⟨t, ht, hend⟩ := Option.map_eq_some_iff.mp hmore
  obtain ⟨hrow, hlength⟩ := Prod.mk.inj hend
  have hlocked : LockedOut s.db.users ⟨"u1"⟩ := by
    intro row hrow'
    obtain rfl := Option.some.inj (hrow.symm.trans hrow')
    exact Or.inl rfl
  obtain ⟨-, events, hhistory, hbarred⟩ :=
    locked_out ⟨noAccounts, fresh_noAccounts, dismissed, hs⟩ hlocked hactions ht
  refine ⟨s, t, events, hs, ht, hhistory, ?_, hbarred⟩
  rwa [hhistory, List.length_append, Nat.add_sub_cancel_left] at hlength

end RoadVisionAI.Auth
