import ClusterFtpd.Jail

/-!
# The login limit of an account

`ServerRun` is the life of a server with any number of sessions: clients connect and disconnect, and
the sessions take their turns in any order on the one database.  `USER` and `PASS` decide about a
login under the user list lock, so their turns are not interleaved with one another.

The counter that `PASS` compares with `max_logins` lives in the user object of the session, which
`USER` makes anew from the record; it never counts another session, and `USER` on an account without
a password does not look at it.  So who is logged in can be told from the lines each session has
sent, without any limit: `standing` reads it off them.

Main results:

* `pass_finds_room`: the check of `PASS` never refuses a client, in any state of a server;
* `limit_respected_iff`: the limits hold exactly where the clients keep to them by themselves;
* `limit_exceeded`: the limits do not hold in every state.
-/

namespace ClusterFtpd

open Interaction MachineInt

/-- A connected client, with the lines it has sent and the environment of each turn. -/
structure Visitor where
  client : Client
  received : List (Env × Text)

/-- The database and the clients that are connected. -/
structure Server where
  db : Redis
  visitors : List Visitor

/-- The client is logged in under the name. -/
def Client.loggedAs (c : Client) (szLogin : Text) : Bool :=
  c.bIsLogged && c.pUser.any fun u => u.szLogin = szLogin

/-- `max_logins` of a record, as the server reads it; 0 is no limit. -/
def maxLogins (db : Redis) (szLogin : Text) : ℕ :=
  ((db.username szLogin).map fun h => u32 (atoiText h.max_logins)).getD 0

/-- The lives of a server. -/
inductive ServerRun (cfg : Config) : Server → Prop where
  | start (db : Redis) : ServerRun cfg ⟨db, []⟩
  | connect {s} (c : Client) : ServerRun cfg s → c.toLoginState = {} → c.toCommandState = {} →
      ServerRun cfg ⟨s.db, s.visitors ++ [⟨c, []⟩]⟩
  | turn {s xs v ys w'} (env : Env) (line : Text) : ServerRun cfg s →
      s.visitors = xs ++ v :: ys →
      run (serveShell env) (dispatch cfg (parseLine line).1 (parseLine line).2)
        ⟨s.db, v.client, [], 0⟩ = .done .continue w' →
      ServerRun cfg ⟨w'.db, xs ++ ⟨w'.client, v.received ++ [(env, line)]⟩ :: ys⟩
  | leave {s xs v ys w'} (env : Env) (line : Text) : ServerRun cfg s →
      s.visitors = xs ++ v :: ys →
      run (serveShell env) (dispatch cfg (parseLine line).1 (parseLine line).2)
        ⟨s.db, v.client, [], 0⟩ = .done .break w' →
      ServerRun cfg ⟨w'.db, xs ++ ys⟩
  | disconnect {s xs v ys} : ServerRun cfg s → s.visitors = xs ++ v :: ys →
      ServerRun cfg ⟨s.db, xs ++ ys⟩
  | others {s s'} : ServerRun cfg s → s'.db.username = s.db.username →
      s'.visitors.map (fun v => (v.client.toLoginState, v.received)) =
        s.visitors.map (fun v => (v.client.toLoginState, v.received)) →
      ServerRun cfg s'

/-- The limits of the accounts hold. -/
def Limited (s : Server) : Prop :=
  ∀ szLogin, 0 < maxLogins s.db szLogin →
    s.visitors.countP (fun v => v.client.loggedAs szLogin) ≤ maxLogins s.db szLogin

/-! ### What the lines of a session say -/

/-- The record names an account that opens without a password. -/
def opensWithout (db : Redis) (szLogin : Text) : Bool :=
  (db.username szLogin).any fun h => h.enabled = "true".toList && h.password.isEmpty

/-- The record names an enabled account, and `PASS` with this argument gives its password. -/
def unlocks (db : Redis) (szLogin : Text) (pszCmdArg : Option Text) : Bool :=
  (db.username szLogin).any fun h =>
    h.enabled = "true".toList && (pszCmdArg = some h.password || h.password.isEmpty)

/-- The account a session has named, and whether it has entered it. -/
structure Standing where
  named : Option Text := none
  entered : Bool := false
  deriving DecidableEq

/-- One more line: `USER` leaves, and names an account whose record can be read; `PASS` with its
password enters. -/
def Standing.hear (db : Redis) (s : Standing) (env : Env) : Option Cmd → Option Text → Standing
  | some .user, some szLogin =>
      if env 0 .redisConnect = true then
        { named := (db.username szLogin).map fun _ => szLogin, entered := opensWithout db szLogin }
      else {}
  | some .user, none => if s.entered then {} else s
  | some .pass, pszCmdArg =>
      { s with entered := s.entered || s.named.any fun szLogin => unlocks db szLogin pszCmdArg }
  | _, _ => s

/-- What all lines of a session make of it. -/
def standing (db : Redis) (received : List (Env × Text)) : Standing :=
  received.foldl (fun s x => s.hear db x.1 (parseLine x.2).1 (parseLine x.2).2) {}

/-- By its lines, the client has entered the account. -/
def Visitor.hasEntered (db : Redis) (v : Visitor) (szLogin : Text) : Bool :=
  (standing db v.received).entered && (standing db v.received).named = some szLogin

/-- The clients keep to the limits by themselves. -/
def EnteredWithin (s : Server) : Prop :=
  ∀ szLogin, 0 < maxLogins s.db szLogin →
    s.visitors.countP (fun v => v.hasEntered s.db szLogin) ≤ maxLogins s.db szLogin

theorem standing_concat (db : Redis) (received : List (Env × Text)) (env : Env) (line : Text) :
    standing db (received ++ [(env, line)]) =
      (standing db received).hear db env (parseLine line).1 (parseLine line).2 := by
  rw [standing, List.foldl_append]
  rfl

theorem opensWithout_congr {db db' : Redis} (h : db'.username = db.username) :
    opensWithout db' = opensWithout db := by
  funext szLogin
  rw [opensWithout, opensWithout, h]

theorem standing_congr {db db' : Redis} (h : db'.username = db.username) :
    standing db' = standing db := by
  have hhear : ∀ (s : Standing) (env : Env) (nCmd : Option Cmd) (arg : Option Text),
      s.hear db' env nCmd arg = s.hear db env nCmd arg := by
    intro s env nCmd arg
    have hunlocks : unlocks db' = unlocks db := by
      funext szLogin arg
      rw [unlocks, unlocks, h]
    unfold Standing.hear
    rw [opensWithout_congr h, hunlocks, h]
  funext received
  simp only [standing, hhear]

/-! ### One turn -/

/-- The login state of a client is what its lines say, its user object is one of the record, and a
client that has not entered has a fresh one. -/
structure StandsAs (db : Redis) (l : LoginState) (s : Standing) : Prop where
  named : l.pUser.map UserEntry.szLogin = s.named
  entered : l.bIsLogged = s.entered
  record : ∀ u, l.pUser = some u → ∃ h, db.username u.szLogin = some h ∧ u.OfRecord u.szLogin h
  counter : l.bIsLogged = false → ∀ u, l.pUser = some u → u.uiNumberOfClient = 0

theorem StandsAs.congr {db db' : Redis} {l l' : LoginState} {s : Standing}
    (hs : StandsAs db l s) (hdb : db'.username = db.username) (hu : l'.pUser = l.pUser)
    (hb : l'.bIsLogged = l.bIsLogged) : StandsAs db' l' s := by
  refine ⟨by rw [hu, hs.named], by rw [hb, hs.entered], ?_, ?_⟩
  · rw [hu, hdb]
    exact hs.record
  · rw [hu, hb]
    exact hs.counter

/-- Before it has entered, `PASS` admits a client exactly if it gives the password. -/
theorem StandsAs.passes {db : Redis} {c : Client} {s : Standing}
    (hs : StandsAs db c.toLoginState s) (hout : c.bIsLogged = false) (pszCmdArg : Option Text) :
    c.passes pszCmdArg = s.named.any fun szLogin => unlocks db szLogin pszCmdArg := by
  rw [Client.passes, hout, Bool.not_false, Bool.true_and, ← hs.named]
  cases hu : c.pUser with
  | none => rfl
  | some u =>
      obtain ⟨h, hrec, hof⟩ := hs.record u hu
      have henabled : u.bIsEnabled = decide (h.enabled = "true".toList) := by
        rw [Bool.eq_iff_iff, decide_eq_true_eq]
        exact hof.enabled
      rw [Option.any_some, Option.map_some, Option.any_some,
        UserEntry.hasRoom_of_fresh (hs.counter hout u hu), Bool.and_true, unlocks, hrec,
        Option.any_some, UserEntry.accepts, hof.password, henabled]

theorem serve_username {cfg : Config} {env : Env} {db : Redis} {c : Client} {w' : World}
    {nCmd : Option Cmd} {pszCmdArg : Option Text} {next : Next}
    (hrun : run (serveShell env) (dispatch cfg nCmd pszCmdArg) ⟨db, c, [], 0⟩ = .done next w') :
    w'.db.username = db.username := by
  have hdb := run_username env ⟨db, c, [], 0⟩ (dispatch cfg nCmd pszCmdArg)
  rw [hrun] at hdb
  exact hdb

/-- `USER` with an argument. -/
theorem StandsAs.user {env : Env} {w : World} {l : LoginState} {szLogin : Text}
    {pUser : Option UserEntry} (s : Standing) (hfound : Found env w szLogin pUser)
    (hclock : w.clock = 0) (hu : l.pUser = chosenUser pUser)
    (hb : l.bIsLogged = pUser.any UserEntry.opens) :
    StandsAs w.db l (s.hear w.db env (some .user) (some szLogin)) := by
  show StandsAs w.db l (if env 0 .redisConnect = true then _ else _)
  rw [← hclock]
  cases hconn : env w.clock .redisConnect with
  | false =>
      have hnone : pUser = none := hfound.unread hconn
      subst hnone
      rw [if_neg (by simp)]
      exact ⟨by rw [hu]; rfl, hb, by simp [hu, chosenUser], by simp [hu, chosenUser]⟩
  | true =>
      rw [if_pos rfl]
      cases hp : pUser with
      | none =>
          subst hp
          have hrec : w.db.username szLogin = none := by simpa using hfound.read hconn
          refine ⟨?_, ?_, by simp [hu, chosenUser], by simp [hu, chosenUser]⟩
          · rw [hu, hrec]
            rfl
          · rw [hb, opensWithout, hrec]
            rfl
      | some u₀ =>
          subst hp
          obtain ⟨h, hrec, hof⟩ := hfound.record u₀ rfl
          have hopens : opensWithout w.db szLogin = u₀.opens := by
            rw [opensWithout, hrec, Option.any_some, UserEntry.opens, hof.password]
            congr 1
            rw [Bool.eq_iff_iff, decide_eq_true_eq]
            exact hof.enabled.symm
          have hchosen : l.pUser = some (if u₀.opens then u₀.counted else u₀) := by
            rw [hu, chosenUser_some]
          have hof' : ∀ u, l.pUser = some u → u.OfRecord szLogin h := by
            intro u hul
            rw [hchosen, Option.some.injEq] at hul
            rw [← hul]
            split_ifs
            · exact hof.counted
            · exact hof
          refine ⟨?_, ?_, ?_, ?_⟩
          · rw [hchosen, Option.map_some, hrec, Option.map_some, (hof' _ hchosen).login]
          · rw [hb, Option.any_some, hopens]
          · intro u hul
            have hofu := hof' u hul
            rw [hofu.login]
            exact ⟨h, hrec, hofu⟩
          · intro hout u hul
            rw [hb, Option.any_some] at hout
            rw [hchosen, hout, if_neg (by simp), Option.some.injEq] at hul
            rw [← hul]
            exact hfound.counter u₀ rfl

/-- **One turn** does to the login state what its line says. -/
theorem StandsAs.turn {cfg : Config} {env : Env} {db : Redis} {c : Client} {w' : World}
    {nCmd : Option Cmd} {pszCmdArg : Option Text} {next : Next} {s : Standing}
    (hs : StandsAs db c.toLoginState s)
    (hrun : run (serveShell env) (dispatch cfg nCmd pszCmdArg) ⟨db, c, [], 0⟩ = .done next w') :
    StandsAs w'.db w'.client.toLoginState (s.hear db env nCmd pszCmdArg) := by
  have hdb := serve_username hrun
  have hturn := turn_of_run hrun
  cases hturn with
  | idle huser hpass _ hlogin =>
      have hsame : s.hear db env nCmd pszCmdArg = s := by
        unfold Standing.hear
        split <;> simp_all
      rw [hsame]
      exact hs.congr hdb (by rw [hlogin]) (by rw [hlogin])
  | cwd hcmd _ _ hlogin =>
      rcases hcmd with rfl | rfl
      · exact hs.congr hdb (by rw [hlogin]) (by rw [hlogin])
      · exact hs.congr hdb (by rw [hlogin]) (by rw [hlogin])
  | cdup hcmd _ hlogin =>
      rcases hcmd with rfl | rfl
      · exact hs.congr hdb (by rw [hlogin]) (by rw [hlogin])
      · exact hs.congr hdb (by rw [hlogin]) (by rw [hlogin])
  | logout hlogin =>
      show StandsAs w'.db _ (if s.entered then {} else s)
      have hb : c.bIsLogged = s.entered := hs.entered
      rw [hlogin]
      cases hin : s.entered with
      | true =>
          rw [if_pos (hb.trans hin), if_pos rfl]
          exact ⟨rfl, rfl, by simp [Client.logOut], by simp [Client.logOut]⟩
      | false =>
          have hout : ¬ c.bIsLogged = true := by simp [hb, hin]
          rw [if_neg hout, if_neg (by simp)]
          exact hs.congr hdb rfl rfl
  | @user szLogin _ _ _ =>
      have hcmd : run (serveShell env) (cmdUser (some szLogin) >>= fun _ => .ret Next.continue)
          ⟨db, c, [], 0⟩ = .done .continue w' := hrun
      obtain ⟨u, w₁, huser, hdone⟩ := (run_bind_done _).mp hcmd
      simp only [run_ret, Outcome.done.injEq, true_and] at hdone
      subst hdone
      obtain ⟨pUser, hfound, hlogin⟩ := selectUser_done huser
      have hstands : StandsAs db w₁.client.toLoginState _ :=
        StandsAs.user s hfound rfl (by rw [hlogin]) (by rw [hlogin])
      exact hstands.congr hdb rfl rfl
  | passIn hpasses hlogin =>
      have hout : c.bIsLogged = false := by
        rw [Client.passes, Bool.and_eq_true, Bool.not_eq_true'] at hpasses
        exact hpasses.1
      have hunlocks := hs.passes hout pszCmdArg
      rw [hpasses] at hunlocks
      show StandsAs w'.db _ { s with entered := s.entered || s.named.any _ }
      rw [hlogin, ← hunlocks, Bool.or_true]
      refine ⟨?_, rfl, ?_, by simp⟩
      · rw [Option.map_map, ← hs.named]
        rfl
      · intro u hu
        obtain ⟨u₀, hu₀, rfl⟩ := Option.map_eq_some_iff.mp hu
        obtain ⟨h, hrec, hof⟩ := hs.record u₀ hu₀
        exact ⟨h, by rw [hdb]; exact hrec, hof.counted⟩
  | passOut hpasses hlogin =>
      show StandsAs w'.db _ { s with entered := s.entered || s.named.any _ }
      have hb : c.bIsLogged = s.entered := hs.entered
      cases hin : s.entered with
      | true =>
          rw [Bool.true_or, ← hin]
          exact hs.congr hdb (by rw [hlogin]) (by rw [hlogin])
      | false =>
          have hunlocks := hs.passes (hb.trans hin) pszCmdArg
          rw [hpasses] at hunlocks
          rw [← hunlocks, Bool.or_false, ← hin]
          exact hs.congr hdb (by rw [hlogin]) (by rw [hlogin])

/-! ### The server -/

/-- Every client of the server stands as its lines say. -/
def AllStand (s : Server) : Prop :=
  ∀ v ∈ s.visitors, StandsAs s.db v.client.toLoginState (standing s.db v.received)

theorem AllStand.congr {s s' : Server} (h : AllStand s) (hdb : s'.db.username = s.db.username)
    (hsub : ∀ v ∈ s'.visitors, ∃ v' ∈ s.visitors,
      v.client.toLoginState = v'.client.toLoginState ∧ v.received = v'.received) :
    AllStand s' := by
  intro v hv
  obtain ⟨v', hv', hlogin, hreceived⟩ := hsub v hv
  rw [standing_congr hdb, hlogin, hreceived]
  exact (h v' hv').congr hdb rfl rfl

/-- In every state of a server the clients stand as their lines say. -/
theorem ServerRun.allStand {cfg : Config} {s : Server} (hrun : ServerRun cfg s) : AllStand s := by
  induction hrun with
  | start db => simp [AllStand]
  | @connect s c _ hlogin _ ih =>
      intro v hv
      rw [List.mem_append, List.mem_singleton] at hv
      obtain hv | rfl := hv
      · exact ih v hv
      · show StandsAs s.db c.toLoginState {}
        rw [hlogin]
        exact ⟨rfl, rfl, by simp, by simp⟩
  | @turn s xs v ys w' env line _ hvisitors hturn ih =>
      have hdb := serve_username hturn
      intro v' hv'
      rw [List.mem_append, List.mem_cons] at hv'
      have hother : v' ∈ xs ∨ v' ∈ ys →
          StandsAs w'.db v'.client.toLoginState (standing w'.db v'.received) := by
        intro hmem
        have hin : v' ∈ s.visitors := by
          rw [hvisitors, List.mem_append, List.mem_cons]
          exact hmem.imp_right .inr
        rw [standing_congr hdb]
        exact (ih v' hin).congr hdb rfl rfl
      rcases hv' with hv' | rfl | hv'
      · exact hother (.inl hv')
      · have hin : v ∈ s.visitors := by simp [hvisitors]
        show StandsAs w'.db w'.client.toLoginState (standing w'.db (v.received ++ [(env, line)]))
        rw [standing_congr hdb, standing_concat]
        exact (ih v hin).turn hturn
      · exact hother (.inr hv')
  | @leave s xs v ys w' env line _ hvisitors hturn ih =>
      refine ih.congr (serve_username hturn) fun v' hv' => ⟨v', ?_, rfl, rfl⟩
      rw [hvisitors, List.mem_append, List.mem_cons]
      exact (List.mem_append.mp hv').imp_right .inr
  | @disconnect s xs v ys _ hvisitors ih =>
      refine ih.congr rfl fun v' hv' => ⟨v', ?_, rfl, rfl⟩
      rw [hvisitors, List.mem_append, List.mem_cons]
      exact (List.mem_append.mp hv').imp_right .inr
  | @others s s' _ hdb hsame ih =>
      refine ih.congr hdb fun v hv => ?_
      have hmem := List.mem_map_of_mem (f := fun v => (v.client.toLoginState, v.received)) hv
      rw [hsame] at hmem
      obtain ⟨v', hv', heq⟩ := List.mem_map.mp hmem
      exact ⟨v', hv', (Prod.mk.inj heq).1.symm, (Prod.mk.inj heq).2.symm⟩

/-- **The check of `PASS` never refuses a client**: its own user object counts nobody. -/
theorem pass_finds_room {cfg : Config} {s : Server} (hrun : ServerRun cfg s) {v : Visitor}
    (hv : v ∈ s.visitors) (hout : v.client.bIsLogged = false) {u : UserEntry}
    (hu : v.client.pUser = some u) : u.hasRoom = true :=
  UserEntry.hasRoom_of_fresh ((hrun.allStand v hv).counter hout u hu)

/-- A client is logged in under a name exactly if its lines have entered it there. -/
theorem StandsAs.loggedAs {db : Redis} {v : Visitor}
    (hs : StandsAs db v.client.toLoginState (standing db v.received)) (szLogin : Text) :
    v.client.loggedAs szLogin = v.hasEntered db szLogin := by
  rw [Client.loggedAs, Visitor.hasEntered, ← hs.entered, ← hs.named]
  cases v.client.pUser with
  | none => simp
  | some u => simp

/-- **The limits hold exactly where the clients keep to them by themselves**: where no account has
been entered, by the lines of the connected sessions, more often than its limit. -/
theorem limit_respected_iff {cfg : Config} {s : Server} (hrun : ServerRun cfg s) :
    Limited s ↔ EnteredWithin s := by
  have hcount : ∀ szLogin, s.visitors.countP (fun v => v.client.loggedAs szLogin) =
      s.visitors.countP (fun v => v.hasEntered s.db szLogin) := by
    intro szLogin
    apply List.countP_congr
    intro v hv
    rw [(hrun.allStand v hv).loggedAs szLogin]
  rw [Limited, EnteredWithin]
  simp only [hcount]

/-! ### An account for a few clients -/

/-- The administrator's record, with a limit. -/
def limitedRecord (max_logins : Text) : UserHash := { adminRecord with max_logins }

/-- A database whose accounts all have the limit. -/
def limitedDb (max_logins : Text) : Redis :=
  { initRedis 0 with username := fun _ => some (limitedRecord max_logins) }

/-- The lines of a login as the administrator. -/
def loginLines : List (Env × Text) :=
  [(.calm, "USER admin".toList), (.calm, "PASS admin".toList)]

/-- A client that has sent nothing yet logs in with `USER` and `PASS`. -/
theorem ServerRun.login {cfg : Config} {max_logins : Text} (xs ys : List Visitor) {c : Client}
    (hrun : ServerRun cfg ⟨limitedDb max_logins, xs ++ ⟨c, []⟩ :: ys⟩) :
    ∃ c', ServerRun cfg ⟨limitedDb max_logins, xs ++ ⟨c', loginLines⟩ :: ys⟩ := by
  have hconn : Env.calm (⟨limitedDb max_logins, c, [], 0⟩ : World).clock .redisConnect = true := rfl
  have hfits : (limitedRecord max_logins).Fits "admin".toList := by
    show adminRecord.Fits "admin".toList
    decide
  have hclosed : (limitedRecord max_logins).password ≠ [] := by
    show adminRecord.password ≠ []
    decide
  obtain ⟨w₁, hrun₁, hdb₁, -, -, hpasses⟩ :=
    run_user_closed (w := ⟨limitedDb max_logins, c, [], 0⟩) cfg hconn
      (h := limitedRecord max_logins) rfl hfits (c := '?') rfl rfl hclosed
  have hline₁ : parseLine "USER admin".toList = (some .user, some "admin".toList) := by decide
  have hline₂ : parseLine "PASS admin".toList = (some .pass, some "admin".toList) := by decide
  have hturn₁ := hrun.turn .calm "USER admin".toList rfl (by rw [hline₁]; exact hrun₁)
  have hw₁ : w₁.db = limitedDb max_logins := hdb₁
  rw [hw₁] at hturn₁
  have hpasses₁ : w₁.client.passes (some "admin".toList) = true := by
    rw [hpasses, decide_eq_true_eq]
    rfl
  obtain ⟨w₂, hrun₂, hdb₂, -⟩ :=
    run_pass (w := ⟨limitedDb max_logins, w₁.client, [], 0⟩) .calm cfg hpasses₁
  have hturn₂ := hturn₁.turn .calm "PASS admin".toList rfl (by rw [hline₂]; exact hrun₂)
  have hw₂ : w₂.db = limitedDb max_logins := hdb₂
  rw [hw₂] at hturn₂
  exact ⟨w₂.client, hturn₂⟩

/-- Two clients are logged in to an account for two, and a third one is connected; then the third
logs in as well, and the limit does not hold any more. -/
theorem limit_respected_iff_double : ∃ a b c c' : Client,
    Limited ⟨limitedDb "2".toList, [⟨a, loginLines⟩, ⟨b, loginLines⟩, ⟨c, []⟩]⟩ ∧
      ¬ Limited ⟨limitedDb "2".toList, [⟨a, loginLines⟩, ⟨b, loginLines⟩, ⟨c', loginLines⟩]⟩ := by
  have r0 : ServerRun {} ⟨limitedDb "2".toList, [⟨{}, []⟩, ⟨{}, []⟩, ⟨{}, []⟩]⟩ :=
    (((ServerRun.start _).connect {} rfl rfl).connect {} rfl rfl).connect {} rfl rfl
  obtain ⟨a, r1⟩ := ServerRun.login [] [⟨{}, []⟩, ⟨{}, []⟩] r0
  obtain ⟨b, r2⟩ := ServerRun.login [⟨a, loginLines⟩] [⟨{}, []⟩] r1
  obtain ⟨c', r3⟩ := ServerRun.login [⟨a, loginLines⟩, ⟨b, loginLines⟩] [] r2
  refine ⟨a, b, {}, c', (limit_respected_iff r2).mpr ?_, fun hlim => ?_⟩
  · intro szLogin _
    have hmax : maxLogins (limitedDb "2".toList) szLogin = 2 := rfl
    have hthird : (Visitor.mk {} []).hasEntered (limitedDb "2".toList) szLogin = false := rfl
    show List.countP _ [Visitor.mk a loginLines, ⟨b, loginLines⟩, ⟨{}, []⟩] ≤ _
    rw [hmax, List.countP_cons, List.countP_cons, List.countP_cons, List.countP_nil,
      if_neg (by rw [hthird]; exact Bool.false_ne_true)]
    split_ifs <;> omega
  · have hmax : maxLogins (limitedDb "2".toList) "admin".toList = 2 := rfl
    have hthree := (limit_respected_iff r3).mp hlim "admin".toList (by rw [hmax]; omega)
    have hcount : List.countP (fun v => v.hasEntered (limitedDb "2".toList) "admin".toList)
        [Visitor.mk a loginLines, ⟨b, loginLines⟩, ⟨c', loginLines⟩] = 3 := rfl
    have hle : 3 ≤ 2 := hcount ▸ hmax ▸ hthree
    omega

/-- **The limit is exceeded**: two clients log in to an account for one. -/
theorem limit_exceeded : ¬ ∀ cfg s, ServerRun cfg s → Limited s := by
  intro hall
  have r0 : ServerRun {} ⟨limitedDb "1".toList, [⟨{}, []⟩, ⟨{}, []⟩]⟩ :=
    ((ServerRun.start _).connect {} rfl rfl).connect {} rfl rfl
  obtain ⟨a, r1⟩ := ServerRun.login [] [⟨{}, []⟩] r0
  obtain ⟨b, r2⟩ := ServerRun.login [⟨a, loginLines⟩] [] r1
  have hin : ∀ c, ⟨c, loginLines⟩ ∈ [Visitor.mk a loginLines, ⟨b, loginLines⟩] →
      c.loggedAs "admin".toList = true := by
    intro c hc
    exact (r2.allStand _ hc).loggedAs "admin".toList
  have htwo : [Visitor.mk a loginLines, ⟨b, loginLines⟩].countP
      (fun v => v.client.loggedAs "admin".toList) = 2 := by
    rw [List.countP_cons, List.countP_cons, List.countP_nil, if_pos (hin a (by simp)),
      if_pos (hin b (by simp))]
  have hmax : maxLogins (limitedDb "1".toList) "admin".toList = 1 := rfl
  have hlimit := hall _ _ r2 "admin".toList (by rw [hmax]; omega)
  have hle : 2 ≤ 1 := htwo ▸ hmax ▸ hlimit
  omega

end ClusterFtpd
