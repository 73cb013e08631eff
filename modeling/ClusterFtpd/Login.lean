import ClusterFtpd.Shell

/-!
# What one command line does to the login of a session

`Turn` lists everything one turn of the shell's loop can do to the login state: the session is left
alone, `CWD` and `CDUP` move the working directory, `USER` logs out and looks a record up, `PASS`
counts and may log in.  `turn_of_run` reads this off `dispatch`; the statements about whole sessions
follow from it and never unfold the shell again.
-/

namespace ClusterFtpd

open Interaction MachineInt

/-- The user object is the one made from a record. -/
structure UserEntry.OfRecord (u : UserEntry) (szLogin : Text) (h : UserHash) : Prop where
  login : u.szLogin = szLogin
  password : u.szPassword = h.password
  startDirectory : u.szStartDirectory = h.start_directory
  startDirectory_le : u.szStartDirectory.length ≤ MAX_PATH
  enabled : u.bIsEnabled = true ↔ h.enabled = "true".toList
  maxLogins : u.uiMaxNumberOfClient = u32 (atoiText h.max_logins)

/-- Counting a client keeps the object one of the record. -/
theorem UserEntry.OfRecord.counted {u : UserEntry} {szLogin : Text} {h : UserHash}
    (hu : u.OfRecord szLogin h) : u.counted.OfRecord szLogin h :=
  ⟨hu.login, hu.password, hu.startDirectory, hu.startDirectory_le, hu.enabled, hu.maxLogins⟩

variable {env : Env} {w w' : World}

theorem userEntry_done {szLogin : Text} {h : UserHash} {u : UserEntry}
    (hrun : run (serveCommand env) (userEntry szLogin h) w = .done u w') :
    w' = w ∧ u.OfRecord szLogin h ∧ u.uiNumberOfClient = 0 := by
  unfold userEntry at hrun
  split_ifs at hrun with hfits
  · split at hrun
    · simp only [Prog.pure_eq, run_ret, Outcome.done.injEq] at hrun
      obtain ⟨rfl, rfl⟩ := hrun
      exact ⟨rfl, ⟨rfl, rfl, rfl, hfits.2.2, by simp [UserHash.toEntry], rfl⟩, rfl⟩
    · exact absurd hrun (by simp)
  · exact absurd hrun (by simp)

/-- What `SearchUserFromLogin` can find: nothing without a connection, else an object that is made
anew from the record, if there is one. -/
structure Found (env : Env) (w : World) (szLogin : Text) (pUser : Option UserEntry) : Prop where
  unread : env w.clock .redisConnect = false → pUser = none
  read : env w.clock .redisConnect = true → pUser.isSome = (w.db.username szLogin).isSome
  record : ∀ u, pUser = some u → ∃ h, w.db.username szLogin = some h ∧ u.OfRecord szLogin h
  counter : ∀ u, pUser = some u → u.uiNumberOfClient = 0

/-- The user found by `SearchUserFromLogin` comes from a record; nothing else happens. -/
theorem searchUser_done {szLogin : Text} {pUser : Option UserEntry}
    (hrun : run (serveCommand env) (searchUserFromLogin szLogin) w = .done pUser w') :
    w'.db = w.db ∧ w'.client = w.client ∧ Found env w szLogin pUser := by
  unfold searchUserFromLogin at hrun
  rw [run_sys_bind] at hrun
  cases hconn : env w.clock .redisConnect with
  | false =>
      simp only [hconn, Bool.false_eq_true, if_false, Prog.pure_eq, run_ret,
        Outcome.done.injEq] at hrun
      obtain ⟨rfl, rfl⟩ := hrun
      exact ⟨rfl, rfl, fun _ => rfl, by simp [hconn], by simp, by simp⟩
  | true =>
      simp only [hconn, if_true] at hrun
      rw [run_bind, run_redis] at hrun
      cases hrec : w.db.username szLogin with
      | none =>
          simp [Prog.op, hrec] at hrun
          obtain ⟨rfl, rfl⟩ := hrun
          exact ⟨rfl, rfl, fun _ => rfl, by simp [hrec], by simp, by simp⟩
      | some h =>
          simp only [Prog.op, run_call, serveRedis_hgetallUsername, run_ret, hrec,
            Outcome.mapState_done, Outcome.done_andThen] at hrun
          obtain ⟨u, w₁, hentry, hdone⟩ := (run_bind_done _).mp hrun
          simp only [Prog.pure_eq, run_ret, Outcome.done.injEq] at hdone
          obtain ⟨rfl, rfl⟩ := hdone
          obtain ⟨rfl, hu, hcount⟩ := userEntry_done hentry
          refine ⟨rfl, rfl, by simp [hconn], by simp [hrec], ?_, ?_⟩
          · intro u' hu'
            rw [Option.some.injEq] at hu'
            subst hu'
            exact ⟨h, hrec, hu⟩
          · intro u' hu'
            rw [Option.some.injEq] at hu'
            subst hu'
            exact hcount

/-- A record that fits its fields is found. -/
theorem run_searchUser {szLogin : Text} {h : UserHash} {c : Char}
    (hconn : env w.clock .redisConnect = true) (hrec : w.db.username szLogin = some h)
    (hfits : h.Fits szLogin) (hpriv : h.privileges = [c]) :
    run (serveCommand env) (searchUserFromLogin szLogin) w =
      .done (some (h.toEntry szLogin c)) { w with clock := w.clock + 1 } := by
  unfold searchUserFromLogin
  rw [run_sys_bind, hconn, if_pos rfl, run_bind, run_redis]
  simp only [Prog.op, run_call, serveRedis_hgetallUsername, run_ret, hrec, Outcome.mapState_done,
    Outcome.done_andThen]
  unfold userEntry
  rw [if_pos hfits, hpriv]
  rfl

/-! ### One turn of the loop -/

/-- The password check of the code: `PASS` with this argument logs the client in. -/
def Client.passes (c : Client) (pszCmdArg : Option Text) : Bool :=
  !c.bIsLogged && c.pUser.any fun u => u.bIsEnabled && u.accepts pszCmdArg && u.hasRoom

/-- The user object after `USER`: an account that opens is counted at once. -/
def chosenUser (pUser : Option UserEntry) : Option UserEntry :=
  if pUser.any UserEntry.opens then pUser.map UserEntry.counted else pUser

theorem chosenUser_some (u : UserEntry) :
    chosenUser (some u) = some (if u.opens then u.counted else u) := by
  unfold chosenUser
  rw [Option.any_some]
  split_ifs <;> rfl

/-- The chosen user comes from the record that was found. -/
theorem ofRecord_of_chosenUser {pUser : Option UserEntry} {szLogin : Text}
    {rec : Option UserHash}
    (hrecord : ∀ u, pUser = some u → ∃ h, rec = some h ∧ u.OfRecord szLogin h) {u : UserEntry}
    (hu : chosenUser pUser = some u) : ∃ h, rec = some h ∧ u.OfRecord szLogin h ∧
      pUser.any UserEntry.opens = u.opens := by
  cases hp : pUser with
  | none => simp [chosenUser, hp] at hu
  | some u₀ =>
      obtain ⟨h, hrec, hof⟩ := hrecord u₀ hp
      rw [hp, chosenUser_some, Option.some.injEq] at hu
      refine ⟨h, hrec, ?_⟩
      rw [Option.any_some, ← hu]
      split_ifs with hopens
      · exact ⟨hof.counted, rfl⟩
      · exact ⟨hof, rfl⟩

/-- What a turn of the loop can do to the login state. -/
inductive Turn (cfg : Config) (w w' : World) : Option Cmd → Option Text → Next → Prop where
  | idle {nCmd pszCmdArg next} :
      nCmd ≠ some .user → nCmd ≠ some .pass →
      (w.client.bIsLogged = false → w'.db = w.db ∧ w'.client = w.client) →
      w'.client.toLoginState = w.client.toLoginState →
      Turn cfg w w' nCmd pszCmdArg next
  | cwd {nCmd arg path virtualPath} :
      nCmd = .cwd ∨ nCmd = .xcwd → w.client.bIsLogged = true →
      w.client.buildPathVirtual (some arg) = some (path, virtualPath) →
      w'.client.toLoginState = { w.client.toLoginState with szWorkingDir := virtualPath } →
      Turn cfg w w' (some nCmd) (some arg) .continue
  | cdup {nCmd pszCmdArg} :
      nCmd = .cdup ∨ nCmd = .xcup → w.client.bIsLogged = true →
      w'.client.toLoginState =
        { w.client.toLoginState with szWorkingDir := cdup w.client.szWorkingDir } →
      Turn cfg w w' (some nCmd) pszCmdArg .continue
  | logout :
      w'.client.toLoginState = (if w.client.bIsLogged then w.client.logOut else w.client).toLoginState →
      Turn cfg w w' (some .user) none .continue
  | user {szLogin} (pUser : Option UserEntry) :
      (∀ u, pUser = some u → ∃ h, w.db.username szLogin = some h ∧ u.OfRecord szLogin h) →
      w'.client.toLoginState =
        { pUser := chosenUser pUser
          bIsLogged := pUser.any UserEntry.opens
          nPasswordTries := w.client.nPasswordTries
          szWorkingDir := if w.client.bIsLogged then ['/'] else w.client.szWorkingDir } →
      Turn cfg w w' (some .user) (some szLogin) .continue
  | passIn {pszCmdArg} :
      w.client.passes pszCmdArg = true →
      w'.client.toLoginState =
        { w.client.toLoginState with
          pUser := w.client.pUser.map UserEntry.counted
          bIsLogged := true
          nPasswordTries := u32 (w.client.nPasswordTries + 1) } →
      Turn cfg w w' (some .pass) pszCmdArg .continue
  | passOut {pszCmdArg} :
      w.client.passes pszCmdArg = false →
      w'.client.toLoginState =
        { w.client.toLoginState with nPasswordTries := u32 (w.client.nPasswordTries + 1) } →
      Turn cfg w w' (some .pass) pszCmdArg
        (if cfg.uiMaxPasswordTries ≠ 0 ∧
            cfg.uiMaxPasswordTries ≤ u32 (w.client.nPasswordTries + 1) then .break
          else .continue)

variable {cfg : Config}

/-- The end of a refused `PASS`. -/
theorem run_rejectPass (env : Env) (cfg : Config) (w : World) :
    ∃ w', run (serveShell env) (rejectPass cfg) w =
        .done (if cfg.uiMaxPasswordTries ≠ 0 ∧ cfg.uiMaxPasswordTries ≤ w.client.nPasswordTries
          then .break else .continue) w' ∧ w'.client = w.client := by
  unfold rejectPass
  rw [run_command_client_bind]
  by_cases hm : cfg.uiMaxPasswordTries ≠ 0 ∧ cfg.uiMaxPasswordTries ≤ w.client.nPasswordTries
  · rw [if_pos hm, if_pos hm]
    exact ⟨w, rfl, rfl⟩
  · rw [if_neg hm, if_neg hm]
    exact ⟨_, rfl, rfl⟩

/-- The password check logs in exactly when the account, the password and the counter say so. -/
theorem run_checkPass (env : Env) (w : World) (hlogged : w.client.bIsLogged = false)
    (pszCmdArg : Option Text) :
    ∃ w', run (serveShell env) (checkPass pszCmdArg) w =
        .done (w.client.passes pszCmdArg) w' ∧ w'.db = w.db ∧
      w'.client = if w.client.passes pszCmdArg then w.client.logIn else w.client := by
  have hpasses : w.client.passes pszCmdArg =
      w.client.pUser.any fun u => u.bIsEnabled && u.accepts pszCmdArg && u.hasRoom := by
    rw [Client.passes, hlogged, Bool.not_false, Bool.true_and]
  rw [hpasses]
  unfold checkPass
  rw [run_command_client_bind]
  cases hu : w.client.pUser with
  | none => exact ⟨w, rfl, rfl, rfl⟩
  | some u =>
      rw [Option.any_some]
      cases hen : u.bIsEnabled with
      | false =>
          simp only [hen, Bool.false_eq_true, if_false, Bool.false_and]
          exact ⟨w, rfl, rfl, rfl⟩
      | true =>
          cases hacc : u.accepts pszCmdArg with
          | false =>
              simp only [hen, hacc, Bool.false_eq_true, if_false, if_true, Bool.and_false,
                Bool.false_and]
              by_cases harg : pszCmdArg = none
              · rw [if_pos harg]
                exact ⟨_, rfl, rfl, rfl⟩
              · rw [if_neg harg]
                exact ⟨w, rfl, rfl, rfl⟩
          | true =>
              cases hroom : u.hasRoom with
              | false =>
                  simp only [hen, hacc, hroom, Bool.false_eq_true, if_false, if_true,
                    Bool.and_false]
                  exact ⟨_, rfl, rfl, rfl⟩
              | true =>
                  simp only [hen, hacc, hroom, if_true, Bool.and_true]
                  exact ⟨_, rfl, rfl, rfl⟩

/-- A fresh user object has room, whatever its limit. -/
theorem UserEntry.hasRoom_of_fresh {u : UserEntry} (hu : u.uiNumberOfClient = 0) :
    u.hasRoom = true := by
  rw [UserEntry.hasRoom, hu, Bool.or_eq_true, decide_eq_true_eq, decide_eq_true_eq]
  omega

theorem Client.passes_countTry (c : Client) (pszCmdArg : Option Text) :
    c.countTry.passes pszCmdArg = c.passes pszCmdArg := rfl

/-- A `PASS` that is refused. -/
theorem turn_rejectPass {pszCmdArg : Option Text} {next : Next} {w₁ : World}
    (hpasses : w.client.passes pszCmdArg = false) (hclient : w₁.client = w.client.countTry)
    (hrun : run (serveShell env) (rejectPass cfg) w₁ = .done next w') :
    Turn cfg w w' (some .pass) pszCmdArg next := by
  obtain ⟨w₂, hreject, hclient'⟩ := run_rejectPass env cfg w₁
  have heq := hreject.symm.trans hrun
  rw [Outcome.done.injEq] at heq
  obtain ⟨rfl, rfl⟩ := heq
  rw [hclient]
  exact .passOut hpasses (by rw [hclient', hclient]; rfl)

theorem turn_pass {pszCmdArg : Option Text} {next : Next}
    (hrun : run (serveShell env) (cmdPass cfg pszCmdArg) w = .done next w') :
    Turn cfg w w' (some .pass) pszCmdArg next := by
  unfold cmdPass at hrun
  rw [run_login_bind, run_command_client_bind] at hrun
  by_cases hlogged : w.client.countTry.bIsLogged = true
  · rw [if_pos hlogged, run_command_sendReply_bind] at hrun
    have hpasses : w.client.countTry.passes pszCmdArg = false := by simp [Client.passes, hlogged]
    exact turn_rejectPass hpasses rfl hrun
  · rw [if_neg hlogged] at hrun
    obtain ⟨b, w₁, hcheck, hrest⟩ := (run_bind_done _).mp hrun
    have hout : w.client.countTry.bIsLogged = false := by simpa using hlogged
    obtain ⟨w₂, hcheck', -, hclient⟩ := run_checkPass env { w with client := w.client.countTry } hout
      pszCmdArg
    have heq := hcheck'.symm.trans hcheck
    rw [Outcome.done.injEq] at heq
    obtain ⟨rfl, rfl⟩ := heq
    rw [Client.passes_countTry] at hrest hclient
    cases hpasses : w.client.passes pszCmdArg with
    | true =>
        rw [hpasses, if_pos rfl] at hrest hclient
        simp only [Prog.pure_eq, run_ret, Outcome.done.injEq] at hrest
        obtain ⟨rfl, rfl⟩ := hrest
        exact .passIn hpasses (by rw [hclient]; rfl)
    | false =>
        rw [hpasses, if_neg (by simp)] at hrest hclient
        exact turn_rejectPass hpasses hclient hrest

/-- `USER` with an argument takes what is found, and logs in at once if the account opens. -/
theorem selectUser_done {szLogin : Text} {u : Unit}
    (hrun : run (serveShell env) (cmdUser (some szLogin)) w = .done u w') :
    ∃ pUser, Found env w szLogin pUser ∧ w'.client.toLoginState =
      { pUser := chosenUser pUser
        bIsLogged := pUser.any UserEntry.opens
        nPasswordTries := w.client.nPasswordTries
        szWorkingDir := if w.client.bIsLogged then ['/'] else w.client.szWorkingDir } := by
  unfold cmdUser at hrun
  rw [run_login_bind] at hrun
  obtain ⟨pUser, w₁, hsearch, hrest⟩ := (run_bind_done _).mp hrun
  rw [run_command] at hsearch
  obtain ⟨hdb, hclient, hfound⟩ := searchUser_done hsearch
  refine ⟨pUser, ⟨hfound.unread, hfound.read, hfound.record, hfound.counter⟩, ?_⟩
  rw [run_login_bind] at hrest
  cases hopens : pUser.any UserEntry.opens with
  | true =>
      rw [hopens, if_pos rfl] at hrest
      have hdone := congrArg (fun o => o.state.client.toLoginState) hrest
      have hlogin : w'.client.toLoginState =
          ({ w₁.client with pUser } : Client).logIn.toLoginState := hdone.symm
      have hchosen : chosenUser pUser = pUser.map UserEntry.counted := by
        rw [chosenUser, hopens, if_pos rfl]
      rw [hlogin, hclient, hchosen]
      cases hb : w.client.bIsLogged <;> rfl
  | false =>
      rw [hopens, if_neg (by simp)] at hrest
      have hdone := congrArg (fun o => o.state.client.toLoginState) hrest
      have hlogin : w'.client.toLoginState =
          ({ w₁.client with pUser } : Client).toLoginState := hdone.symm
      have hchosen : chosenUser pUser = pUser := by simp [chosenUser, hopens]
      rw [hlogin, hclient, hchosen]
      cases hb : w.client.bIsLogged <;> simp [Client.logOut, hb]

theorem turn_user {pszCmdArg : Option Text} {u : Unit}
    (hrun : run (serveShell env) (cmdUser pszCmdArg) w = .done u w') :
    Turn cfg w w' (some .user) pszCmdArg .continue := by
  cases pszCmdArg with
  | none =>
      unfold cmdUser at hrun
      rw [run_login_bind] at hrun
      have hclient : w'.client = if w.client.bIsLogged then w.client.logOut else w.client := by
        have hdone := congrArg (fun o => o.state.client) hrun
        exact hdone.symm
      exact .logout (by rw [hclient])
  | some szLogin =>
      obtain ⟨pUser, hfound, hlogin⟩ := selectUser_done hrun
      exact .user pUser hfound.record hlogin

/-- `USER` of a record that fits its fields. -/
theorem run_user (cfg : Config) {szLogin : Text} {h : UserHash} {c : Char}
    (hconn : env w.clock .redisConnect = true) (hrec : w.db.username szLogin = some h)
    (hfits : h.Fits szLogin) (hpriv : h.privileges = [c]) :
    ∃ w', run (serveShell env) (dispatch cfg (some .user) (some szLogin)) w =
        .done .continue w' ∧ w'.db = w.db ∧ w'.clock = w.clock + 1 ∧ w'.client.toLoginState =
      { pUser := chosenUser (some (h.toEntry szLogin c))
        bIsLogged := (h.toEntry szLogin c).opens
        nPasswordTries := w.client.nPasswordTries
        szWorkingDir := if w.client.bIsLogged then ['/'] else w.client.szWorkingDir } := by
  have hsearch := run_searchUser
    (w := { w with client := if w.client.bIsLogged then w.client.logOut else w.client })
    hconn hrec hfits hpriv
  have hselect : ∃ w', run (serveShell env) (cmdUser (some szLogin)) w = .done () w' ∧
      w'.db = w.db ∧ w'.clock = w.clock + 1 ∧ w'.client.toLoginState =
        { pUser := chosenUser (some (h.toEntry szLogin c))
          bIsLogged := (h.toEntry szLogin c).opens
          nPasswordTries := w.client.nPasswordTries
          szWorkingDir := if w.client.bIsLogged then ['/'] else w.client.szWorkingDir } := by
    unfold cmdUser
    rw [run_login_bind]
    show ∃ w', run (serveShell env) (selectUser szLogin) _ = _ ∧ _
    unfold selectUser
    rw [run_command_bind, hsearch, Outcome.done_andThen, run_login_bind, Option.any_some,
      chosenUser_some]
    cases hopens : (h.toEntry szLogin c).opens with
    | true =>
        refine ⟨_, rfl, rfl, rfl, ?_⟩
        cases hb : w.client.bIsLogged <;> rfl
    | false =>
        refine ⟨_, rfl, rfl, rfl, ?_⟩
        cases hb : w.client.bIsLogged <;> simp [serveShell, serveCommand, Client.logOut, hb]
  obtain ⟨w', hrun, hw'⟩ := hselect
  refine ⟨w', ?_, hw'⟩
  show run (serveShell env) (cmdUser (some szLogin) >>= fun _ => .ret Next.continue) w = _
  rw [run_bind, hrun]
  rfl

/-- `PASS` with the right password. -/
theorem run_pass (env : Env) (cfg : Config) {pszCmdArg : Option Text}
    (hpasses : w.client.passes pszCmdArg = true) :
    ∃ w', run (serveShell env) (dispatch cfg (some .pass) pszCmdArg) w = .done .continue w' ∧
      w'.db = w.db ∧ w'.client = w.client.countTry.logIn := by
  have hout : w.client.countTry.bIsLogged = false := by
    rw [Client.passes, Bool.and_eq_true, Bool.not_eq_true'] at hpasses
    exact hpasses.1
  obtain ⟨w₁, hcheck, hdb, hclient⟩ :=
    run_checkPass env { w with client := w.client.countTry } hout pszCmdArg
  rw [Client.passes_countTry, hpasses] at hcheck hclient
  refine ⟨w₁, ?_, hdb, hclient⟩
  show run (serveShell env) (cmdPass cfg pszCmdArg) w = _
  unfold cmdPass
  rw [run_login_bind, run_command_client_bind, if_neg (by simpa using hout), run_bind, hcheck]
  rfl

/-- `PASS` with a wrong password. -/
theorem run_pass_refused (env : Env) (cfg : Config) {pszCmdArg : Option Text}
    (hout : w.client.bIsLogged = false) (hpasses : w.client.passes pszCmdArg = false) :
    ∃ w', run (serveShell env) (dispatch cfg (some .pass) pszCmdArg) w =
      .done (if cfg.uiMaxPasswordTries ≠ 0 ∧
          cfg.uiMaxPasswordTries ≤ u32 (w.client.nPasswordTries + 1) then .break
        else .continue) w' := by
  obtain ⟨w₁, hcheck, -, hclient⟩ :=
    run_checkPass env { w with client := w.client.countTry } hout pszCmdArg
  rw [Client.passes_countTry, hpasses] at hcheck hclient
  obtain ⟨w₂, hreject, -⟩ := run_rejectPass env cfg w₁
  rw [hclient] at hreject
  refine ⟨w₂, ?_⟩
  show run (serveShell env) (cmdPass cfg pszCmdArg) w = _
  unfold cmdPass
  have hout' : ¬ w.client.countTry.bIsLogged = true := by
    rw [show w.client.countTry.bIsLogged = false from hout]
    simp
  rw [run_login_bind, run_command_client_bind, if_neg hout', run_bind, hcheck]
  exact hreject

/-- The directory `CWD` goes to is the virtual path of a built path. -/
theorem newWorkingDir_done {arg : Text} {r : Option Text}
    (hrun : run (serveCommand env) (newWorkingDir arg) w = .done r w') :
    ∀ v, r = some v → ∃ path, w.client.buildPathVirtual (some arg) = some (path, v) := by
  intro v hv
  unfold newWorkingDir at hrun
  rw [run_client_bind] at hrun
  cases hbuild : w.client.buildPathVirtual (some arg) with
  | none =>
      rw [hbuild] at hrun
      simp only [Prog.pure_eq, run_ret, Outcome.done.injEq] at hrun
      rw [← hrun.1] at hv
      exact absurd hv (by simp)
  | some pv =>
      obtain ⟨path, virtualPath⟩ := pv
      rw [hbuild] at hrun
      obtain ⟨st, w₁, -, hdone⟩ := (run_bind_done _).mp hrun
      simp only [Prog.pure_eq, run_ret, Outcome.done.injEq] at hdone
      rw [← hdone.1] at hv
      split_ifs at hv with hdir
      rw [Option.some.injEq] at hv
      exact ⟨path, by rw [hv]⟩

theorem turn_cwd {nCmd : Cmd} (hcmd : nCmd = .cwd ∨ nCmd = .xcwd)
    (hlogged : w.client.bIsLogged = true) {pszCmdArg : Option Text} {u : Unit}
    (hrun : run (serveShell env) (cmdCwd pszCmdArg) w = .done u w') :
    Turn cfg w w' (some nCmd) pszCmdArg .continue := by
  have hidle : w'.client.toLoginState = w.client.toLoginState →
      Turn cfg w w' (some nCmd) pszCmdArg .continue := by
    intro hlogin
    have hnuser : nCmd ≠ .user := by rintro rfl; simp at hcmd
    have hnpass : nCmd ≠ .pass := by rintro rfl; simp at hcmd
    exact .idle (by simpa using hnuser) (by simpa using hnpass) (by simp [hlogged]) hlogin
  unfold cmdCwd at hrun
  cases pszCmdArg with
  | none =>
      have hdone := congrArg (fun o => o.state.client.toLoginState) hrun
      exact hidle hdone.symm
  | some arg =>
      obtain ⟨r, w₁, hdir, hrest⟩ := (run_bind_done _).mp hrun
      rw [run_command] at hdir
      have hstate := congrArg (fun o => o.state.client.toLoginState) hdir
      rw [run_command_login] at hstate
      have hrest' := congrArg (fun o => o.state.client.toLoginState) hrest
      cases r with
      | none => exact hidle (hrest'.symm.trans hstate.symm)
      | some v =>
          obtain ⟨path, hbuild⟩ := newWorkingDir_done hdir v rfl
          refine .cwd hcmd hlogged hbuild ?_
          rw [hstate]
          exact hrest'.symm

/-- Behind `QUIT`, `USER` and `PASS` comes the login gate. -/
theorem dispatch_gate {nCmd : Cmd} (hquit : nCmd ≠ .quit) (huser : nCmd ≠ .user)
    (hpass : nCmd ≠ .pass) (pszCmdArg : Option Text) :
    dispatch cfg (some nCmd) pszCmdArg = command client >>= fun c =>
      if c.bIsLogged then shellLogged cfg nCmd pszCmdArg >>= fun _ => return .continue
      else command (sendReply (.line 530 "Please login with USER and PASS.")) >>= fun _ =>
        return .continue := by
  cases nCmd <;> first | rfl | contradiction

theorem shellLogged_command {nCmd : Cmd} (hcwd : ¬ (nCmd = .cwd ∨ nCmd = .xcwd))
    (hcdup : ¬ (nCmd = .cdup ∨ nCmd = .xcup)) (pszCmdArg : Option Text) :
    shellLogged cfg nCmd pszCmdArg = command (shellCmd cfg nCmd pszCmdArg) := by
  cases nCmd <;> first | rfl | simp at hcwd hcdup

/-- A command of a client that is logged in runs alone. -/
theorem dispatch_logged {nCmd : Cmd} (hquit : nCmd ≠ .quit) (huser : nCmd ≠ .user)
    (hpass : nCmd ≠ .pass) (hcwd : ¬ (nCmd = .cwd ∨ nCmd = .xcwd))
    (hcdup : ¬ (nCmd = .cdup ∨ nCmd = .xcup)) (hlogged : w.client.bIsLogged = true) (env : Env)
    (pszCmdArg : Option Text) :
    run (serveShell env) (dispatch cfg (some nCmd) pszCmdArg) w =
      (run (serveCommand env) (shellCmd cfg nCmd pszCmdArg) w).andThen fun _ w =>
        .done .continue w := by
  rw [dispatch_gate hquit huser hpass, run_command_client_bind, if_pos hlogged,
    shellLogged_command hcwd hcdup, run_command_bind]
  rfl

/-- A turn of a client that is not logged in is answered 530. -/
theorem turn_gated {nCmd : Cmd} (hquit : nCmd ≠ .quit) (huser : nCmd ≠ .user)
    (hpass : nCmd ≠ .pass) (hlogged : w.client.bIsLogged = false) {pszCmdArg : Option Text} {next : Next}
    (hrun : run (serveShell env) (dispatch cfg (some nCmd) pszCmdArg) w = .done next w') :
    w'.client = w.client ∧ w'.db = w.db := by
  rw [dispatch_gate hquit huser hpass, run_command_client_bind, hlogged, if_neg (by simp)] at hrun
  have hend : Outcome.done _ _ = Outcome.done next w' := hrun
  rw [Outcome.done.injEq] at hend
  obtain ⟨-, rfl⟩ := hend
  exact ⟨rfl, rfl⟩

theorem turn_logged {nCmd : Cmd} (huser : nCmd ≠ .user) (hpass : nCmd ≠ .pass)
    (hlogged : w.client.bIsLogged = true) {pszCmdArg : Option Text} {u : Unit}
    (hrun : run (serveShell env) (shellLogged cfg nCmd pszCmdArg) w = .done u w') :
    Turn cfg w w' (some nCmd) pszCmdArg .continue := by
  by_cases hcwd : nCmd = .cwd ∨ nCmd = .xcwd
  · have hcmd : shellLogged cfg nCmd pszCmdArg = cmdCwd pszCmdArg := by
      obtain rfl | rfl := hcwd <;> rfl
    rw [hcmd] at hrun
    exact turn_cwd hcwd hlogged hrun
  · by_cases hcdup : nCmd = .cdup ∨ nCmd = .xcup
    · have hcmd : shellLogged cfg nCmd pszCmdArg = cmdCdup := by
        obtain rfl | rfl := hcdup <;> rfl
      rw [hcmd] at hrun
      have hdone := congrArg (fun o => o.state.client.toLoginState) hrun
      exact .cdup hcdup hlogged hdone.symm
    · rw [shellLogged_command hcwd hcdup, run_command] at hrun
      have hdone := congrArg (fun o => o.state.client.toLoginState) hrun
      rw [run_command_login] at hdone
      exact .idle (by simpa using huser) (by simpa using hpass) (by simp [hlogged]) hdone.symm

/-- **What one turn does.**  Every turn that comes to its end is one of the cases of `Turn`. -/
theorem turn_of_run {nCmd : Option Cmd} {pszCmdArg : Option Text} {next : Next}
    (hrun : run (serveShell env) (dispatch cfg nCmd pszCmdArg) w = .done next w') :
    Turn cfg w w' nCmd pszCmdArg next := by
  cases nCmd with
  | none =>
      have hclient := congrArg (fun o => o.state.client) hrun
      have hdb := congrArg (fun o => o.state.db) hrun
      exact .idle (by simp) (by simp) (fun _ => ⟨hdb.symm, hclient.symm⟩)
        (congrArg Client.toLoginState hclient.symm)
  | some nCmd =>
      by_cases hquit : nCmd = .quit
      · subst hquit
        have hclient := congrArg (fun o => o.state.client) hrun
        have hdb := congrArg (fun o => o.state.db) hrun
        exact .idle (by simp) (by simp) (fun _ => ⟨hdb.symm, hclient.symm⟩)
          (congrArg Client.toLoginState hclient.symm)
      by_cases huser : nCmd = .user
      · subst huser
        obtain ⟨u, w₁, huser, hdone⟩ := (run_bind_done _).mp hrun
        simp only [Prog.pure_eq, run_ret, Outcome.done.injEq] at hdone
        obtain ⟨rfl, rfl⟩ := hdone
        exact turn_user huser
      by_cases hpass : nCmd = .pass
      · subst hpass
        exact turn_pass hrun
      rw [dispatch_gate hquit huser hpass, run_command_client_bind] at hrun
      by_cases hlogged : w.client.bIsLogged = true
      · rw [if_pos hlogged] at hrun
        obtain ⟨u, w₁, hcmd, hdone⟩ := (run_bind_done _).mp hrun
        simp only [Prog.pure_eq, run_ret, Outcome.done.injEq] at hdone
        obtain ⟨rfl, rfl⟩ := hdone
        exact turn_logged huser hpass hlogged hcmd
      · rw [if_neg hlogged, run_command_sendReply_bind] at hrun
        have hclient := congrArg (fun o => o.state.client) hrun
        have hdb := congrArg (fun o => o.state.db) hrun
        exact .idle (by simpa using huser) (by simpa using hpass)
          (fun _ => ⟨hdb.symm, hclient.symm⟩) (congrArg Client.toLoginState hclient.symm)

end ClusterFtpd
