import ClusterFtpd.Login
import ClusterFtpd.VfsRuns

/-!
# Whole sessions

`SessionRun` is the life of a session up to a moment at which it waits for the next command line.
Its history has every line received, with the world it was received in.  Between two lines anything
but the login of the session can change: transfer threads, other sessions and the administrator
work at the same time.

Main results:

* `session_sound`: a session that is logged in has been authenticated by its last `USER`; one that
  is not cannot change anything; and it ends with the last refused `PASS` it is allowed;
* `tries_wrap`: the number of tries is a 32-bit counter, and a session that overflows it is allowed
  more than that.
-/

namespace ClusterFtpd

open Interaction MachineInt

/-- A command line, and the world before its turn. -/
structure Received where
  line : Text
  before : World

/-- The command of a line. -/
def Received.cmd (r : Received) : Option Cmd := (parseLine r.line).1

/-- The argument of a line. -/
def Received.arg (r : Received) : Option Text := (parseLine r.line).2

/-- A live session whose turns all satisfy `ok`, a condition on the world before the turn. -/
inductive SessionRun (cfg : Config) (ok : World → Option Cmd → Option Text → Prop) :
    List Received → World → Prop where
  | connect {w : World} : w.client.toLoginState = {} → w.client.toCommandState = {} →
      SessionRun cfg ok [] w
  | turn {hist w w'} (env : Env) (line : Text) : SessionRun cfg ok hist w →
      ok w (parseLine line).1 (parseLine line).2 →
      run (serveShell env) (dispatch cfg (parseLine line).1 (parseLine line).2) w =
        .done .continue w' →
      SessionRun cfg ok (hist ++ [⟨line, w⟩]) w'
  | others {hist w w'} : SessionRun cfg ok hist w →
      w'.client.toLoginState = w.client.toLoginState → SessionRun cfg ok hist w'

/-! ### Authentication -/

/-- `USER` with an argument. -/
def Received.SelectsUser (r : Received) : Prop := r.cmd = some .user ∧ r.arg ≠ none

/-- The last `USER` with an argument of the history, the record `h` it found, and the lines after
it. -/
def LastUser (hist : List Received) (h : UserHash) (later : List Received) : Prop :=
  ∃ earlier r szLogin, hist = earlier ++ r :: later ∧ r.cmd = some .user ∧
    r.arg = some szLogin ∧ r.before.db.username szLogin = some h ∧ ∀ t ∈ later, ¬ t.SelectsUser

/-- The last `USER` with an argument named an enabled record, which has no password or whose
password came in a later `PASS`. -/
def Authenticated (hist : List Received) : Prop :=
  ∃ h later, LastUser hist h later ∧ h.enabled = "true".toList ∧
    (h.password = [] ∨ ∃ t ∈ later, t.cmd = some .pass ∧ t.arg = some h.password)

/-- What a session knows of its user object. -/
structure LoginInv (hist : List Received) (s : LoginState) : Prop where
  user : ∀ u, s.pUser = some u → ∃ h later, LastUser hist h later ∧
    (u.bIsEnabled = true ↔ h.enabled = "true".toList) ∧ u.szPassword = h.password ∧
    (s.bIsLogged = true → u.bIsEnabled = true ∧
      (h.password = [] ∨ ∃ t ∈ later, t.cmd = some .pass ∧ t.arg = some h.password))
  logged : s.bIsLogged = true → s.pUser ≠ none

theorem LastUser.append {hist later : List Received} {h : UserHash} {r : Received}
    (hl : LastUser hist h later) (hr : ¬ r.SelectsUser) :
    LastUser (hist ++ [r]) h (later ++ [r]) := by
  obtain ⟨earlier, r₀, szLogin, rfl, hcmd, harg, hrec, hlater⟩ := hl
  refine ⟨earlier, r₀, szLogin, by simp, hcmd, harg, hrec, ?_⟩
  intro t ht
  rw [List.mem_append, List.mem_singleton] at ht
  obtain ht | rfl := ht
  · exact hlater t ht
  · exact hr

/-- A line that keeps the user object, its login and the flags keeps the invariant. -/
theorem LoginInv.append {hist : List Received} {s s' : LoginState} {r : Received}
    (hinv : LoginInv hist s) (hr : ¬ r.SelectsUser) (hu : s'.pUser = s.pUser)
    (hb : s'.bIsLogged = s.bIsLogged) : LoginInv (hist ++ [r]) s' := by
  refine ⟨?_, by rw [hu, hb]; exact hinv.logged⟩
  intro u huser
  rw [hu] at huser
  obtain ⟨h, later, hlast, hen, hpw, hauth⟩ := hinv.user u huser
  refine ⟨h, later ++ [r], hlast.append hr, hen, hpw, ?_⟩
  intro hlogged
  rw [hb] at hlogged
  obtain ⟨henabled, hpass⟩ := hauth hlogged
  refine ⟨henabled, hpass.imp_right ?_⟩
  rintro ⟨t, ht, htc⟩
  exact ⟨t, List.mem_append_left _ ht, htc⟩

variable {cfg : Config} {w w' : World}

/-- One turn keeps the invariant. -/
theorem LoginInv.turn {hist : List Received} {r : Received} {nCmd : Option Cmd}
    {pszCmdArg : Option Text} {next : Next} (hinv : LoginInv hist r.before.client.toLoginState)
    (hcmd : r.cmd = nCmd) (harg : r.arg = pszCmdArg)
    (hturn : Turn cfg r.before w' nCmd pszCmdArg next) :
    LoginInv (hist ++ [r]) w'.client.toLoginState := by
  have hother : nCmd ≠ some .user → ¬ r.SelectsUser := by
    intro hne hsel
    exact hne (hcmd.symm.trans hsel.1)
  cases hturn with
  | idle huser _ _ hlogin => exact hinv.append (hother huser) (by rw [hlogin]) (by rw [hlogin])
  | cwd hcwd _ _ hlogin =>
      refine hinv.append (hother ?_) (by rw [hlogin]) (by rw [hlogin])
      rintro heq
      rw [Option.some.injEq] at heq
      simp [heq] at hcwd
  | cdup hcdup _ hlogin =>
      refine hinv.append (hother ?_) (by rw [hlogin]) (by rw [hlogin])
      rintro heq
      rw [Option.some.injEq] at heq
      simp [heq] at hcdup
  | logout hlogin =>
      have hr : ¬ r.SelectsUser := fun hsel => hsel.2 harg
      by_cases hlogged : r.before.client.bIsLogged = true
      · rw [if_pos hlogged] at hlogin
        rw [hlogin]
        exact ⟨by simp [Client.logOut], by simp [Client.logOut]⟩
      · rw [if_neg hlogged] at hlogin
        exact hinv.append hr (by rw [hlogin]) (by rw [hlogin])
  | @user szLogin pUser hrecord hlogin =>
      rw [hlogin]
      refine ⟨?_, ?_⟩
      · intro u hu
        obtain ⟨h, hrec, hof, hopens⟩ := ofRecord_of_chosenUser hrecord hu
        have hlast : LastUser (hist ++ [r]) h [] :=
          ⟨hist, r, szLogin, rfl, hcmd, harg, hrec, by simp⟩
        refine ⟨h, [], hlast, hof.enabled, hof.password, ?_⟩
        intro hlogged
        have hu' : u.opens = true := hopens ▸ hlogged
        rw [UserEntry.opens, Bool.and_eq_true, List.isEmpty_iff] at hu'
        exact ⟨hu'.1, .inl (by rw [← hof.password]; exact hu'.2)⟩
      · intro hlogged hnone
        cases hp : pUser with
        | none => simp [hp] at hlogged
        | some u₀ =>
            rw [hp, chosenUser_some] at hnone
            exact absurd hnone (by simp)
  | passIn hpasses hlogin =>
      have hr : ¬ r.SelectsUser := hother (by simp)
      rw [hlogin]
      obtain ⟨hout, u, hu, hchecks⟩ : r.before.client.bIsLogged = false ∧
          ∃ u, r.before.client.pUser = some u ∧
            (u.bIsEnabled && u.accepts pszCmdArg && u.hasRoom) = true := by
        cases hp : r.before.client.pUser with
        | none => simp [Client.passes, hp] at hpasses
        | some u =>
            simp only [Client.passes, hp, Option.any_some, Bool.and_eq_true, Bool.not_eq_true']
              at hpasses
            exact ⟨hpasses.1, u, rfl, by simpa using hpasses.2⟩
      rw [Bool.and_eq_true, Bool.and_eq_true] at hchecks
      refine ⟨?_, fun _ => by simp [hu]⟩
      intro u' hu'
      have hcount : u' = u.counted := by
        rw [hu, Option.map_some, Option.some.injEq] at hu'
        exact hu'.symm
      obtain ⟨h, later, hlast, hen, hpw, -⟩ := hinv.user u hu
      refine ⟨h, later ++ [r], hlast.append hr, by rw [hcount]; exact hen,
        by rw [hcount]; exact hpw, fun _ => ⟨by rw [hcount]; exact hchecks.1.1, ?_⟩⟩
      have hacc := hchecks.1.2
      rw [UserEntry.accepts, Bool.or_eq_true, decide_eq_true_eq, List.isEmpty_iff] at hacc
      obtain hpass | hempty := hacc
      · right
        exact ⟨r, by simp, hcmd, by rw [harg, hpass, hpw]⟩
      · left
        rw [← hpw]
        exact hempty
  | passOut _ hlogin =>
      exact hinv.append (hother (by simp)) (by rw [hlogin]) (by rw [hlogin])

/-! ### Refused passwords -/

/-- `PASS` that does not log the client in. -/
def Received.refused (r : Received) : Bool :=
  r.cmd = some .pass && !r.before.client.passes r.arg

/-- The counter of tries is not about to overflow. -/
def NoWrap (w : World) (nCmd : Option Cmd) (_ : Option Text) : Prop :=
  nCmd = some .pass → w.client.nPasswordTries + 1 < 4294967296

/-- A live session has had fewer refused passwords than it is allowed, and its counter knows. -/
structure TriesInv (cfg : Config) (hist : List Received) (s : LoginState) : Prop where
  counted : hist.countP Received.refused ≤ s.nPasswordTries
  fewer : cfg.uiMaxPasswordTries ≠ 0 → hist.countP Received.refused < cfg.uiMaxPasswordTries

theorem TriesInv.append {hist : List Received} {s s' : LoginState} {r : Received}
    (hinv : TriesInv cfg hist s) (hr : r.refused = false)
    (hn : s.nPasswordTries ≤ s'.nPasswordTries) : TriesInv cfg (hist ++ [r]) s' := by
  have hcount : (hist ++ [r]).countP Received.refused = hist.countP Received.refused := by
    simp [List.countP_append, hr]
  refine ⟨?_, ?_⟩
  · rw [hcount]
    exact hinv.counted.trans hn
  · rw [hcount]
    exact hinv.fewer

/-- One turn that the session survives keeps the invariant. -/
theorem TriesInv.turn {hist : List Received} {r : Received} {nCmd : Option Cmd}
    {pszCmdArg : Option Text} (hinv : TriesInv cfg hist r.before.client.toLoginState)
    (hok : NoWrap r.before nCmd pszCmdArg) (hcmd : r.cmd = nCmd) (harg : r.arg = pszCmdArg)
    (hturn : Turn cfg r.before w' nCmd pszCmdArg .continue) :
    TriesInv cfg (hist ++ [r]) w'.client.toLoginState := by
  have hother : nCmd ≠ some .pass → r.refused = false := by
    intro hne
    simp [Received.refused, hcmd, hne]
  generalize hnext : Next.continue = next at hturn
  cases hturn with
  | idle _ hpass _ hlogin => exact hinv.append (hother hpass) (by rw [hlogin])
  | cwd hcwd _ _ hlogin =>
      refine hinv.append (hother ?_) (by rw [hlogin])
      rintro heq
      rw [Option.some.injEq] at heq
      simp [heq] at hcwd
  | cdup hcdup _ hlogin =>
      refine hinv.append (hother ?_) (by rw [hlogin])
      rintro heq
      rw [Option.some.injEq] at heq
      simp [heq] at hcdup
  | logout hlogin =>
      refine hinv.append (hother (by simp)) ?_
      rw [hlogin]
      split_ifs <;> exact Nat.le_refl _
  | user pUser _ hlogin => exact hinv.append (hother (by simp)) (by rw [hlogin])
  | passIn hpasses hlogin =>
      have hr : r.refused = false := by simp [Received.refused, harg, hpasses]
      refine hinv.append hr ?_
      rw [hlogin]
      show r.before.client.nPasswordTries ≤ u32 (r.before.client.nPasswordTries + 1 : ℤ)
      have hn := hok rfl
      have hu := u32_natCast hn
      push_cast at hu
      omega
  | passOut hpasses hlogin =>
      have hr : r.refused = true := by simp [Received.refused, hcmd, harg, hpasses]
      have hn := hok rfl
      have hu := u32_natCast hn
      push_cast at hu
      rw [hu] at hnext hlogin
      have hcount : (hist ++ [r]).countP Received.refused =
          hist.countP Received.refused + 1 := by
        simp [List.countP_append, hr]
      have hcounted := hinv.counted
      refine ⟨?_, ?_⟩
      · rw [hcount, hlogin]
        exact Nat.succ_le_succ hcounted
      · intro hm
        split_ifs at hnext with hmax
        rw [hcount]
        have hlt : r.before.client.nPasswordTries + 1 < cfg.uiMaxPasswordTries := by
          by_contra hge
          exact hmax ⟨hm, by omega⟩
        omega

/-! ### The session -/

/-- Before the login every command but `USER`, `PASS` and `QUIT` leaves everything alone. -/
theorem run_not_logged (hlogged : w.client.bIsLogged = false) (env : Env) {nCmd : Option Cmd}
    (huser : nCmd ≠ some .user) (hpass : nCmd ≠ some .pass) (hquit : nCmd ≠ some .quit)
    (pszCmdArg : Option Text) :
    ∃ reply, run (serveShell env) (dispatch cfg nCmd pszCmdArg) w =
      .done .continue { w with replies := w.replies ++ [reply] } := by
  cases nCmd with
  | none => exact ⟨_, rfl⟩
  | some nCmd =>
      rw [dispatch_gate (by simpa using hquit) (by simpa using huser) (by simpa using hpass),
        run_command_client_bind, hlogged, if_neg (by simp)]
      exact ⟨_, rfl⟩

/-- The invariants of a run. -/
theorem SessionRun.inv {hist : List Received} (hrun : SessionRun cfg NoWrap hist w) :
    LoginInv hist w.client.toLoginState ∧ TriesInv cfg hist w.client.toLoginState := by
  induction hrun with
  | connect hlogin _ =>
      rw [hlogin]
      exact ⟨⟨by simp, by simp⟩, ⟨by simp, fun hm => Nat.pos_of_ne_zero hm⟩⟩
  | turn env line _ hok hturn ih =>
      have hturn' := turn_of_run hturn
      exact ⟨LoginInv.turn ih.1 rfl rfl hturn', TriesInv.turn ih.2 hok rfl rfl hturn'⟩
  | others _ hlogin ih =>
      rw [hlogin]
      exact ih

/-- What the login promises of a live session: it is authenticated if it is logged in, it changes
nothing if it is not, and it has had fewer refused passwords than it is allowed. -/
structure SessionSound (cfg : Config) (hist : List Received) (w : World) : Prop where
  authenticated : w.client.bIsLogged = true → Authenticated hist
  gate : w.client.bIsLogged = false → ∀ env line, (parseLine line).1 ≠ some .user →
    (parseLine line).1 ≠ some .pass → (parseLine line).1 ≠ some .quit → ∃ w',
      run (serveShell env) (dispatch cfg (parseLine line).1 (parseLine line).2) w =
        .done .continue w' ∧ w'.db = w.db ∧ w'.client = w.client
  tries : cfg.uiMaxPasswordTries ≠ 0 →
    hist.countP Received.refused < cfg.uiMaxPasswordTries

/-- **Every session is sound** as long as its counter of tries does not overflow. -/
theorem session_sound {hist : List Received} (hrun : SessionRun cfg NoWrap hist w) :
    SessionSound cfg hist w := by
  obtain ⟨hlogin, htries⟩ := hrun.inv
  refine ⟨?_, ?_, htries.fewer⟩
  · intro hlogged
    obtain ⟨u, hu⟩ := Option.ne_none_iff_exists'.mp (hlogin.logged hlogged)
    obtain ⟨h, later, hlast, hen, -, hauth⟩ := hlogin.user u hu
    obtain ⟨henabled, hpass⟩ := hauth hlogged
    exact ⟨h, later, hlast, hen.mp henabled, hpass⟩
  · intro hlogged env line huser hpass hquit
    obtain ⟨reply, hdone⟩ := run_not_logged hlogged env huser hpass hquit (parseLine line).2
    exact ⟨_, hdone, rfl, rfl⟩

/-! ### The administrator logs in -/

/-- `USER` of an enabled account with a password leaves the session waiting for it.  The counter of
the new user object is 0, so the account has room. -/
theorem run_user_closed (cfg : Config) {env : Env} {szLogin : Text} {h : UserHash} {c : Char}
    (hconn : env w.clock .redisConnect = true) (hrec : w.db.username szLogin = some h)
    (hfits : h.Fits szLogin) (hpriv : h.privileges = [c]) (hen : h.enabled = "true".toList)
    (hpw : h.password ≠ []) : ∃ w',
    run (serveShell env) (dispatch cfg (some .user) (some szLogin)) w = .done .continue w' ∧
      w'.db = w.db ∧ w'.client.nPasswordTries = w.client.nPasswordTries ∧
      w'.client.pUser = some (h.toEntry szLogin c) ∧
      ∀ arg, w'.client.passes arg = decide (arg = some h.password) := by
  obtain ⟨w', hrun, hdb, -, hlogin⟩ := run_user cfg hconn hrec hfits hpriv
  have hempty : (h.toEntry szLogin c).szPassword.isEmpty = false := by
    simpa [UserHash.toEntry] using hpw
  have hopens : (h.toEntry szLogin c).opens = false := by
    rw [UserEntry.opens, hempty, Bool.and_false]
  have henabled : (h.toEntry szLogin c).bIsEnabled = true := by simp [UserHash.toEntry, hen]
  have hroom : (h.toEntry szLogin c).hasRoom = true := UserEntry.hasRoom_of_fresh rfl
  rw [chosenUser_some, hopens, if_neg (by simp)] at hlogin
  refine ⟨w', hrun, hdb, by rw [hlogin], by rw [hlogin], ?_⟩
  intro arg
  have hpasses : w'.client.passes arg =
      (!w'.client.toLoginState.bIsLogged && w'.client.toLoginState.pUser.any fun u =>
        u.bIsEnabled && u.accepts arg && u.hasRoom) := rfl
  rw [hpasses, hlogin, Option.any_some, henabled, hroom, UserEntry.accepts, hempty,
    Bool.not_false, Bool.true_and, Bool.true_and, Bool.and_true, Bool.or_false]
  rfl

/-- The record `InitRedis` writes for the administrator. -/
def adminRecord : UserHash where
  password := "admin".toList
  start_directory := "/".toList
  enabled := "true".toList
  uid := "1".toList
  gid := "1".toList
  max_logins := "0".toList
  privileges := "?".toList

/-- `USER admin` leaves the session waiting for the password. -/
theorem run_user_admin (cfg : Config) (hdb : w.db = initRedis 0) : ∃ w',
    run (serveShell .calm) (dispatch cfg (some .user) (some "admin".toList)) w =
      .done .continue w' ∧ w'.db = initRedis 0 ∧
      w'.client.nPasswordTries = w.client.nPasswordTries ∧
      ∀ arg, w'.client.passes arg = decide (arg = some "admin".toList) := by
  have hrec : w.db.username "admin".toList = some adminRecord := by
    rw [hdb]
    rfl
  have hconn : Env.calm w.clock .redisConnect = true := rfl
  obtain ⟨w', hrun, hdb', hn, -, hpasses⟩ :=
    run_user_closed cfg hconn hrec (by decide) rfl rfl (by decide)
  exact ⟨w', hrun, hdb'.trans hdb, hn, hpasses⟩

/-- One login of the administrator, as two lines of a session that promises nothing. -/
theorem SessionRun.login {ok : World → Option Cmd → Option Text → Prop} {hist : List Received}
    (hrun : SessionRun cfg ok hist w) (hdb : w.db = initRedis 0)
    (hok : ∀ w nCmd arg, w.client.nPasswordTries + 1 < 4294967296 → ok w nCmd arg)
    (hn : w.client.nPasswordTries + 1 < 4294967296) :
    ∃ hist' w', SessionRun cfg ok hist' w' ∧ w'.db = initRedis 0 ∧
      w'.client.nPasswordTries = w.client.nPasswordTries + 1 ∧ w'.client.bIsLogged = true ∧
      hist'.countP Received.refused = hist.countP Received.refused := by
  obtain ⟨w₁, hrun₁, hdb₁, hn₁, hpasses⟩ := run_user_admin cfg hdb
  have hpasses₁ : w₁.client.passes (some "admin".toList) = true := by simp [hpasses]
  obtain ⟨w₂, hrun₂, hdb₂, hclient⟩ := run_pass .calm cfg hpasses₁
  have huser : parseLine "USER admin".toList = (some .user, some "admin".toList) := by decide
  have hpass : parseLine "PASS admin".toList = (some .pass, some "admin".toList) := by decide
  have hturn₁ := hrun.turn .calm "USER admin".toList (hok _ _ _ hn) (by rw [huser]; exact hrun₁)
  have hturn₂ := hturn₁.turn .calm "PASS admin".toList (hok _ _ _ (by rw [hn₁]; exact hn))
    (by rw [hpass]; exact hrun₂)
  refine ⟨_, w₂, hturn₂, hdb₂.trans hdb₁, ?_, by rw [hclient]; rfl, ?_⟩
  · have hu := u32_natCast hn
    push_cast at hu
    rw [hclient, ← hu, ← hn₁]
    rfl
  · have hr₁ : (⟨"USER admin".toList, w⟩ : Received).refused = false := by
      rw [Received.refused, Received.cmd, huser]
      rfl
    have hr₂ : (⟨"PASS admin".toList, w₁⟩ : Received).refused = false := by
      rw [Received.refused, Received.cmd, Received.arg, hpass, hpasses₁, Bool.not_true,
        Bool.and_false]
    rw [List.countP_append, List.countP_append, List.countP_singleton, List.countP_singleton, hr₁,
      hr₂]
    rfl

/-- The administrator's first login. -/
theorem session_sound_login : ∃ hist w, w.client.bIsLogged = true ∧
    SessionSound { uiMaxPasswordTries := 3 } hist w := by
  have hconnect : SessionRun { uiMaxPasswordTries := 3 } NoWrap [] ⟨initRedis 0, {}, [], 0⟩ :=
    .connect rfl rfl
  obtain ⟨hist, w, hrun, -, -, hlogged, -⟩ := hconnect.login rfl (fun w _ _ hn _ => hn) (by decide)
  exact ⟨hist, w, hlogged, session_sound hrun⟩

/-- The administrator logs in as often as the counter of tries can count. -/
theorem sessionRun_logins (n : ℕ) (hn : n < 4294967296) : ∃ hist w,
    SessionRun { uiMaxPasswordTries := 1 } (fun _ _ _ => True) hist w ∧ w.db = initRedis 0 ∧
      w.client.nPasswordTries = n ∧ hist.countP Received.refused = 0 := by
  induction n with
  | zero => exact ⟨[], ⟨initRedis 0, {}, [], 0⟩, .connect rfl rfl, rfl, rfl, rfl⟩
  | succ n ih =>
      obtain ⟨hist, w, hrun, hdb, htries, hcount⟩ := ih (by omega)
      obtain ⟨hist', w', hrun', hdb', htries', -, hcount'⟩ :=
        hrun.login hdb (fun _ _ _ _ => trivial) (by omega)
      exact ⟨hist', w', hrun', hdb', by omega, by omega⟩

/-- **The counter of tries overflows**: after 2^32 - 1 logins the session of a server that allows
one try outlives a refused password. -/
theorem tries_wrap : ¬ ∀ cfg hist w, SessionRun cfg (fun _ _ _ => True) hist w →
    SessionSound cfg hist w := by
  intro hall
  obtain ⟨hist, w, hrun, hdb, htries, hcount⟩ := sessionRun_logins 4294967295 (by omega)
  obtain ⟨w₁, hrun₁, -, hn₁, hpasses⟩ := run_user_admin { uiMaxPasswordTries := 1 } hdb
  have huser : parseLine "USER admin".toList = (some .user, some "admin".toList) := by decide
  have hpass : parseLine "PASS wrong".toList = (some .pass, some "wrong".toList) := by decide
  have hturn₁ := hrun.turn .calm "USER admin".toList trivial (by rw [huser]; exact hrun₁)
  have hpasses₁ : w₁.client.passes (some "wrong".toList) = false := by simp [hpasses]
  have hout : w₁.client.bIsLogged = false := by
    have hright : w₁.client.passes (some "admin".toList) = true := by simp [hpasses]
    rw [Client.passes, Bool.and_eq_true, Bool.not_eq_true'] at hright
    exact hright.1
  obtain ⟨w₂, hrun₂⟩ := run_pass_refused .calm { uiMaxPasswordTries := 1 } hout hpasses₁
  -- the counter goes from 2^32 - 1 to 0
  rw [hn₁, htries, if_neg (by decide)] at hrun₂
  have hturn₂ := hturn₁.turn .calm "PASS wrong".toList trivial (by rw [hpass]; exact hrun₂)
  have hr₂ : (⟨"PASS wrong".toList, w₁⟩ : Received).refused = true := by
    rw [Received.refused, Received.cmd, Received.arg, hpass, hpasses₁]
    rfl
  have hfewer := (hall _ _ _ hturn₂).tries (by decide)
  rw [List.countP_append, List.countP_singleton, hr₂] at hfewer
  have hone : ({ uiMaxPasswordTries := 1 } : Config).uiMaxPasswordTries = 1 := rfl
  rw [hone, if_pos rfl] at hfewer
  omega

end ClusterFtpd
