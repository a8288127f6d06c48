import RoadVisionAI.Auth.Equiv.TokenDiscipline
import RoadVisionAI.Transition.Ledger
import RoadVisionAI.Transition.Past

/-!
# Every session is on the record

A login hands out its tokens after its commit, which has written a `LOGIN` entry.  So the log grows
by the entries of logins that have arrived and passed their check, each its own, and those that have
been answered are among them (`logins_recorded`).
-/

namespace RoadVisionAI.Auth

open Python Db Transition Machine

variable {env : Env} {db : Database} {p q : ℕ} {done : List (State × Action)}

/-! ### Logins -/

/-- A login: what it is called with, and who logs in. -/
structure Login where
  call : LoginCall
  userId : Uuid

/-- The entry says who has logged in, and from where. -/
structure Login.Told (login : Login) (entry : AuditLog) : Prop where
  action : entry.action = "LOGIN"
  entityType : entry.entityType = "users"
  entityId : entry.entityId = login.userId
  userId : entry.userId = login.userId
  ipAddress : entry.ipAddress = login.call.ip
  userAgent : entry.userAgent = login.call.userAgent

theorem told_loginLog (call : LoginCall) (user : User) :
    Login.Told ⟨call, user.id⟩ (loginLog call user) := ⟨rfl, rfl, rfl, rfl, rfl, rfl⟩

/-- The user stands in the database, and passes the check of the login. -/
def Login.Passes (env : Env) (db : Database) (login : Login) : Prop :=
  ∃ user, db.users.committed login.userId = some user ∧ Verified env login.call user

/-- The login that arrives, if any. -/
def Action.login? : Action → Option LoginCall
  | .start _ (.login call) => some call
  | _ => none

/-- The login that is answered, if any. -/
def Event.login? : Event → Option Login
  | .loggedIn call user _ => some ⟨call, user.id⟩
  | _ => none

/-! ### What a login has done -/

/-- The process a move is of. -/
def procOf (move : State × Action) : Option ℕ :=
  match move.2 with
  | .start p _ | .exec p _ | .fail p | .account p _ => some p

/-- A statement: the state it is made in, and what it finds outside. -/
structure Statement where
  state : State
  input : Input

/-- The moves of a login that has made these statements. -/
def loginMoves (p : ℕ) (call : LoginCall) (begun : State) (made : List Statement) :
    List (State × Action) :=
  (begun, .start p (.login call)) ::
    made.map fun statement => (statement.state, .exec p statement.input)

section

variable (env : Env) (done : List (State × Action))

/-- The login has arrived and made its statements: the first has found the user, who passes the
check, and the last has committed the entry. -/
def Login.Made (login : Login) : Prop :=
  ∃ p begun, ∃ found touched audited committed : Statement,
    loginMoves p login.call begun [found, touched, audited, committed] <:+: own procOf p done ∧
      login.Passes env found.state.db

/-- The stage a login has come to by the statements it has made. -/
inductive Comes (call : LoginCall) : List Statement → LoginStage → Prop
  | started : Comes call [] .started
  | found {find user} (h : Login.Passes env find.state.db ⟨call, user.id⟩) :
      Comes call [find] (.found user)
  | touched {find user} (touch) (h : Login.Passes env find.state.db ⟨call, user.id⟩) :
      Comes call [find, touch] (.touched user)
  | audited {find user} (touch audit) (h : Login.Passes env find.state.db ⟨call, user.id⟩) :
      Comes call [find, touch, audit] (.audited user (loginLog call user))
  | committed {find user} (touch audit commit)
      (h : Login.Passes env find.state.db ⟨call, user.id⟩) :
      Comes call [find, touch, audit, commit] (.committed user)

/-- What a process has done since its call arrived. -/
def Proc.Knows (p : ℕ) : Proc → Prop
  | .login call stage => ∃ begun made, loginMoves p call begun made <:+ own procOf p done ∧
      Comes env call made stage
  | _ => True

end

/-- What the others do leaves it. -/
theorem Proc.Knows.frame {proc : Proc} {move : State × Action} (h : proc.Knows env done p)
    (hmove : procOf move ≠ some p) : proc.Knows env (done ++ [move]) p := by
  cases proc with
  | login call stage =>
    obtain ⟨begun, made, hmoves, hcomes⟩ := h
    exact ⟨begun, made, suffix_own_other hmoves hmove, hcomes⟩
  | idle | refresh | request => trivial

theorem Login.Made.append {login : Login} (h : login.Made env done) (move : State × Action) :
    login.Made env (done ++ [move]) := by
  obtain ⟨p, begun, found, touched, audited, committed, hmoves, hpasses⟩ := h
  exact ⟨p, begun, found, touched, audited, committed, infix_own_append hmoves, hpasses⟩

/-- A statement of a process. -/
theorem knows_of_makes {s : State} {input : Input} {outcome : Outcome} (hs : Sound s)
    (h : (s.procs p).Knows env done p) (hmakes : (s.procs p).Makes env s.db p input outcome) :
    outcome.proc.Knows env (done ++ [(s, .exec p input)]) p := by
  have hnothing := hs.nothing p
  generalize s.procs p = proc at h hmakes hnothing
  cases hmakes with
  | find hget hverified =>
    obtain ⟨begun, made, hmoves, ⟨⟩⟩ := h
    have hcommitted := getByEmail_eq_some hs.keyed (hnothing trivial) hget
    exact ⟨begun, [⟨s, input⟩], suffix_own_next hmoves rfl, .found ⟨_, hcommitted, hverified⟩⟩
  | touch =>
    obtain ⟨begun, made, hmoves, hcomes⟩ := h
    cases hcomes with
    | @found find _ hpasses =>
      exact ⟨begun, [find, ⟨s, input⟩], suffix_own_next hmoves rfl, .touched _ hpasses⟩
  | audit =>
    obtain ⟨begun, made, hmoves, hcomes⟩ := h
    cases hcomes with
    | @touched find _ touch hpasses =>
      exact ⟨begun, [find, touch, ⟨s, input⟩], suffix_own_next hmoves rfl, .audited _ _ hpasses⟩
  | commit =>
    obtain ⟨begun, made, hmoves, hcomes⟩ := h
    cases hcomes with
    | @audited find _ touch audit hpasses =>
      exact ⟨begun, [find, touch, audit, ⟨s, input⟩], suffix_own_next hmoves rfl,
        .committed _ _ _ hpasses⟩
  | refuse | issue | refresh | accept | decodeRefresh | decodeAccess => trivial

/-! ### Accounts -/

/-- A login that has yet to commit its entry. -/
def Proc.pending : Proc → Multiset LoginCall
  | .login _ (.committed _) => 0
  | .login call _ => {call}
  | _ => 0

/-- A login that has committed its entry and is yet to be answered. -/
def Proc.unanswered : Proc → Multiset Login
  | .login call (.committed user) => {⟨call, user.id⟩}
  | _ => 0

/-- What is answered. -/
def State.answered (s : State) : Multiset Login := s.history.filterMap Event.login?

/-- What an effect adds to the log. -/
def Effect.logs : Effect → List AuditLog
  | .commit auditLog => [auditLog]
  | _ => []

theorem auditLogs_apply {effect : Effect} :
    (effect.apply p db).auditLogs = db.auditLogs ++ effect.logs := by
  cases effect with
  | commit => rfl
  | none | write | rollback => exact (List.append_nil _).symm

/-- What a move of `p` may do for the logins: it commits the entries of `logins`, from those that
are pending or arrive, and answers from those that have committed. -/
structure Advances (env : Env) (done : List (State × Action)) (arrives : Option LoginCall)
    (proc : Proc) (outcome : Outcome) (logins : List Login) : Prop where
  told : List.Forall₂ Login.Told logins outcome.effect.logs
  made : ∀ login ∈ logins, login.Made env done
  commits : (logins.map Login.call : Multiset LoginCall) + outcome.proc.pending
    ≤ proc.pending + (arrives.toList : List LoginCall)
  answers : (outcome.events.filterMap Event.login? : Multiset Login) + outcome.proc.unanswered
    ≤ proc.unanswered + (logins : Multiset Login)

/-- A statement. -/
theorem advances_of_makes {s : State} {input : Input} {proc : Proc} {outcome : Outcome}
    (hold : proc.Knows env done p)
    (hnew : outcome.proc.Knows env (done ++ [(s, .exec p input)]) p)
    (hmakes : proc.Makes env db p input outcome) :
    ∃ logins, Advances env (done ++ [(s, .exec p input)]) none proc outcome logins := by
  cases hmakes with
  | @commit call user auditLog =>
    obtain ⟨_, _, _, hcomes⟩ := hold
    obtain ⟨begun, made, hmoves, hcommitted⟩ := hnew
    cases hcomes
    cases hcommitted with
    | @committed find _ touch audit commit hpasses =>
      refine ⟨[⟨call, user.id⟩], ?_, List.forall_mem_singleton.mpr ?_, le_rfl, le_rfl⟩
      · exact .cons (told_loginLog call user) .nil
      · exact ⟨p, begun, find, touch, audit, commit, hmoves.isInfix, hpasses⟩
  | issue => exact ⟨[], .nil, nofun, Multiset.zero_le _, le_rfl⟩
  | find | touch | audit => exact ⟨[], .nil, nofun, le_rfl, le_rfl⟩
  | refuse | refresh | accept | decodeRefresh | decodeAccess =>
    exact ⟨[], .nil, nofun, Multiset.zero_le _, Multiset.zero_le _⟩

/-- The log has grown since `s` by the entries of these logins. -/
structure Account (env : Env) (s t : State) (done : List (State × Action)) (logins : List Login) :
    Prop where
  logs : ∃ logs, t.db.auditLogs = s.db.auditLogs ++ logs ∧ List.Forall₂ Login.Told logins logs
  made : ∀ login ∈ logins, login.Made env done
  commits : Covered (fun (now : State × List Login) p => (now.1.procs p).pending)
    (fun now => (now.2.map Login.call : Multiset LoginCall)) (t, logins)
    (done.filterMap fun move => move.2.login? : List LoginCall)
  answers : Covered (fun (t : State) p => (t.procs p).unanswered) State.answered t
    (logins : Multiset Login)

section Steps

variable {s t t' : State} {a : Action} {outcome : Outcome} {logins more : List Login}

/-- A move of `p`. -/
theorem Account.move (h : Account env s t done logins)
    (hlogs : t'.db.auditLogs = t.db.auditLogs ++ outcome.effect.logs)
    (hprocs : t'.procs = Function.update t.procs p outcome.proc)
    (hhistory : t'.history = t.history ++ outcome.events)
    (hmore : Advances env (done ++ [(t, a)]) a.login? (t.procs p) outcome more) :
    Account env s t' (done ++ [(t, a)]) (logins ++ more) := by
  have hself : t'.procs p = outcome.proc := by rw [hprocs, Function.update_self]
  have hothers : ∀ q, q ≠ p → t'.procs q = t.procs q := fun q hq => by
    rw [hprocs, Function.update_of_ne hq]
  refine ⟨?_, ?_, ?_, ?_⟩
  · obtain ⟨logs, hgrown, htold⟩ := h.logs
    refine ⟨logs ++ outcome.effect.logs, ?_, List.rel_append htold hmore.told⟩
    rw [hlogs, hgrown, List.append_assoc]
  · exact List.forall_mem_append.mpr
      ⟨fun login hlogin => (h.made login hlogin).append _, hmore.made⟩
  · rw [List.filterMap_append, ← Multiset.coe_add]
    refine h.commits.step p (fun q hq => congrArg Proc.pending (hothers q hq)) ?_
    rw [hself, List.map_append, ← Multiset.coe_add, add_assoc, add_assoc]
    exact add_le_add le_rfl hmore.commits
  · rw [← Multiset.coe_add]
    refine h.answers.step p (fun q hq => congrArg Proc.unanswered (hothers q hq)) ?_
    rw [hself, State.answered, State.answered, hhistory, List.filterMap_append, ← Multiset.coe_add,
      add_assoc, add_assoc]
    exact add_le_add le_rfl hmore.answers

theorem Account.of_fresh (h : s.Fresh) : Account env s s [] [] where
  logs := ⟨[], (List.append_nil _).symm, .nil⟩
  made := nofun
  commits := by
    refine ⟨∅, fun p _ => ?_, le_rfl⟩
    show (s.procs p).pending = 0
    rw [h.idle p]
    rfl
  answers := by
    have hnothing : s.answered = 0 := by
      rw [State.answered, h.unissued]
      rfl
    rw [Multiset.coe_nil, ← hnothing]
    refine .of_unheld fun p => ?_
    rw [h.idle p]
    rfl

/-- A state, and what has been done since `s`. -/
structure Accounted (env : Env) (s t : State) (done : List (State × Action)) : Prop where
  sound : Sound t
  knows : ∀ p, (t.procs p).Knows env done p
  account : ∃ logins, Account env s t done logins

theorem State.Fresh.accounted (h : s.Fresh) : Accounted env s s [] := by
  refine ⟨h.sound, fun p => ?_, [], .of_fresh h⟩
  rw [h.idle p]
  trivial

/-- Who has not moved knows what it knew. -/
theorem Accounted.knows_after (h : Accounted env s t done) (hmove : procOf (t, a) = some p)
    (hself : outcome.proc.Knows env (done ++ [(t, a)]) p) (q : ℕ) :
    ((t.after p outcome).procs q).Knows env (done ++ [(t, a)]) q := by
  refine State.forall_procs_after (P := fun q proc => proc.Knows env (done ++ [(t, a)]) q) hself
    (fun q hq => (h.knows q).frame fun he => hq ?_) q
  exact Option.some.inj (he.symm.trans hmove)

theorem accounted_step (h : Accounted env s t done) (hstep : step env t a = some t') :
    Accounted env s t' (done ++ [(t, a)]) := by
  have hsound := sound_step h.sound hstep
  obtain ⟨logins, haccount⟩ := h.account
  rcases step_cases hstep with ⟨p, input, outcome, rfl, hmakes, rfl⟩ | ⟨p, call, rfl, hidle, rfl⟩ |
    ⟨p, rfl, rfl⟩ | ⟨p, user, rfl, hidle, -, rfl⟩
  · have hknows := knows_of_makes h.sound (h.knows p) hmakes
    obtain ⟨more, hmore⟩ := advances_of_makes (h.knows p) hknows hmakes
    exact ⟨hsound, h.knows_after rfl hknows, _,
      haccount.move auditLogs_apply rfl rfl hmore⟩
  · have hnothing : Advances env (done ++ [(t, .start p call)]) (Action.start p call).login? .idle
        ⟨.none, call.proc, []⟩ [] := by
      cases call with
      | login => exact ⟨.nil, nofun, le_rfl, Multiset.zero_le _⟩
      | refresh | request => exact ⟨.nil, nofun, Multiset.zero_le _, Multiset.zero_le _⟩
    refine ⟨hsound, h.knows_after rfl ?_, _,
      haccount.move auditLogs_apply rfl rfl (hidle.symm ▸ hnothing)⟩
    cases call with
    | login => exact ⟨t, [], suffix_own_first rfl, .started⟩
    | refresh | request => trivial
  · have hnothing : Advances env (done ++ [(t, .fail p)]) none (t.procs p) ⟨.rollback, .idle, []⟩
        [] := ⟨.nil, nofun, Multiset.zero_le _, Multiset.zero_le _⟩
    exact ⟨hsound, h.knows_after rfl trivial, _, haccount.move auditLogs_apply rfl rfl hnothing⟩
  · have hnothing : Advances env (done ++ [(t, .account p user)]) none (t.procs p)
        ⟨.none, .idle, []⟩ [] := ⟨.nil, nofun, Multiset.zero_le _, Multiset.zero_le _⟩
    refine ⟨hsound, fun q => ?_, _, haccount.move (List.append_nil _).symm ?_
      (List.append_nil _).symm hnothing⟩
    · obtain rfl | hq := eq_or_ne q p
      · show (t.procs q).Knows env _ q
        rw [hidle]
        trivial
      · exact (h.knows q).frame fun he => hq (Option.some.inj he).symm
    · rw [← hidle, Function.update_eq_self]

end Steps

/-- **Every session is on the record.**  Along every run, whatever fails, the log grows by the
entries of logins, each with its user, address and user agent.  Each of these logins is one that has
arrived in the run, each its own arrival; its first statement has found its user, committed, whom
its email and its password fit, active and not deleted; and its fourth has committed the entry.  And
every login that has been answered with tokens is among them, each as often as it has been
answered. -/
theorem logins_recorded {s t : State} {actions : List Action} (hs : s.Fresh)
    (hrun : (service env).run s actions = some t) :
    ∃ logs logins, t.db.auditLogs = s.db.auditLogs ++ logs ∧ List.Forall₂ Login.Told logins logs ∧
      (∀ login ∈ logins, login.Made env ((service env).moves s actions)) ∧
      (logins.map Login.call).Subperm (actions.filterMap Action.login?) ∧
      (t.history.filterMap Event.login?).Subperm logins := by
  have hall : Accounted env s t ((service env).moves s actions) :=
    moves_of_run (P := Accounted env s) (fun _ _ _ _ => accounted_step) [] hs.accounted hrun
  obtain ⟨logins, haccount⟩ := hall.account
  obtain ⟨logs, hlogs, htold⟩ := haccount.logs
  refine ⟨logs, logins, hlogs, htold, haccount.made, Multiset.coe_le.mp ?_, Multiset.coe_le.mp ?_⟩
  · have harrived := haccount.commits.spent_le fun p => Multiset.zero_le _
    rw [← map_snd_moves hrun, List.filterMap_map]
    exact harrived
  · exact haccount.answers.spent_le fun p => Multiset.zero_le _

/-- The administrator's login, and its refresh, leave one entry. -/
theorem logins_recorded_newRole :
    ∃ t login entry, (service clearEnv).run noAccounts newRole = some t ∧
      t.db.auditLogs = [entry] ∧ login.Told entry ∧
      login.Made clearEnv ((service clearEnv).moves noAccounts newRole) ∧
      t.history.filterMap Event.login? = [login] := by
  have heval : ((service clearEnv).run noAccounts newRole).map (fun t =>
      (t.db.auditLogs.length, (t.history.filterMap Event.login?).length)) = some (1, 1) := by
    decide +kernel
  obtain ⟨t, ht, hend⟩ := Option.map_eq_some_iff.mp heval
  obtain ⟨hone, hanswered⟩ := Prod.mk.inj hend
  obtain ⟨logs, logins, hlogs, htold, hmade, -, hsub⟩ := logins_recorded fresh_noAccounts ht
  have hlogs : t.db.auditLogs = logs := hlogs
  obtain ⟨entry, rfl⟩ := List.length_eq_one_iff.mp (hlogs ▸ hone)
  obtain ⟨login, rfl⟩ := List.length_eq_one_iff.mp htold.length_eq
  obtain ⟨answered, hone⟩ := List.length_eq_one_iff.mp hanswered
  rw [hone, List.singleton_subperm_iff, List.mem_singleton] at hsub
  subst hsub
  exact ⟨t, answered, entry, ht, hlogs, (List.forall₂_cons.mp htold).1,
    hmade _ (List.mem_singleton_self _), hone⟩

end RoadVisionAI.Auth
