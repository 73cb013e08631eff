import ClusterFtpd.Calls
import ClusterFtpd.Jail

/-!
# Which slave a download asks

`SequentialRun` is a session whose transfers end before its next line.  In passive mode the slave is
chosen by `PASV`, for the file the last `PRET` named; the file is looked up again by `RETR`.  A
`PRET` between the two changes the file and not the slave.

Main results:

* `line_keeps_files`: no line changes the record of a regular file that stays one;
* `retrieve_from_holder`: a download goes to the slave that holds the file, in passive mode if no
  `PRET` came after the last `PASV`.
-/

namespace ClusterFtpd

open Interaction MachineInt

/-- The line starts the transfer thread. -/
def Starts (env : Env) (cfg : Config) (line : Text) (w : World) (thread : TransferThread) : Prop :=
  ⟨.pthread_create thread, true⟩ ∈
    lineCalls env (dispatch cfg (parseLine line).1 (parseLine line).2) w

/-- A session whose transfers end before its next line.  Between two lines others may change the
database, as far as `others` allows. -/
inductive SequentialRun (cfg : Config) (others : World → Redis → Prop) :
    List Received → World → Prop where
  | connect {w : World} : w.client.toLoginState = {} → w.client.toCommandState = {} →
      SequentialRun cfg others [] w
  | line {hist w w'} (env : Env) (line : Text) : SequentialRun cfg others hist w →
      run (serveShell env) (dispatch cfg (parseLine line).1 (parseLine line).2) w =
        .done .continue w' →
      (∀ thread, ¬ Starts env cfg line w thread) →
      SequentialRun cfg others (hist ++ [⟨line, w⟩]) w'
  | transfer {hist w w₁ w'} (env : Env) (line : Text) (thread : TransferThread) :
      SequentialRun cfg others hist w →
      run (serveShell env) (dispatch cfg (parseLine line).1 (parseLine line).2) w =
        .done .continue w₁ →
      Starts env cfg line w thread →
      run (serveCommand env) (thread.body cfg >>= fun _ => endTransfer) w₁ = .done () w' →
      SequentialRun cfg others (hist ++ [⟨line, w⟩]) w'
  | others {hist w} (db : Redis) : SequentialRun cfg others hist w → others w db →
      SequentialRun cfg others hist { w with db }

/-! ### The records of the files -/

/-- The record is that of a regular file. -/
def IsReg (h : StatHash) : Prop := S_ISREG h.toStat.st_mode = true

/-- What is a regular file afterwards was one before, with the same record. -/
def FilesKept (db db' : Redis) : Prop := ∀ k, IsReg (db'.stat k) → db'.stat k = db.stat k

theorem FilesKept.trans {a b c : Redis} (hab : FilesKept a b) (hbc : FilesKept b c) :
    FilesKept a c := by
  intro k hreg
  have hb := hbc k hreg
  rw [hb] at hreg
  rw [hb, hab k hreg]

theorem filesKept_of_stat {db db' : Redis} (h : db'.stat = db.stat) : FilesKept db db' :=
  fun k _ => congrFun h k

/-- A record that is not that of a regular file may be written anywhere. -/
theorem filesKept_update {db db' : Redis} {k : ℕ} {h : StatHash} (hreg : ¬ IsReg h)
    (hstat : db'.stat = Function.update db.stat k h) : FilesKept db db' := by
  intro j hj
  rw [hstat] at hj ⊢
  by_cases hk : j = k
  · subst hk
    rw [Function.update_self] at hj
    exact absurd hj hreg
  · rw [Function.update_of_ne hk]

theorem not_isReg_absent : ¬ IsReg .absent := by
  unfold IsReg
  decide

theorem not_isReg_mkdirStat (h : StatHash) (now : ℤ) (uid gid : ℕ) :
    ¬ IsReg (mkdirStat h now uid gid) := by
  have hmode : (mkdirStat h now uid gid).toStat.st_mode = 16895 := rfl
  rw [IsReg, hmode]
  decide

/-- **No line** changes the record of a regular file that stays one. -/
theorem line_keeps_files (cfg : Config) (env : Env) (nCmd : Option Cmd) (pszCmdArg : Option Text)
    (w : World) :
    FilesKept w.db (run (serveShell env) (dispatch cfg nCmd pszCmdArg) w).state.db := by
  refine run_shell_db (Q := fun o => ∀ db, FilesKept db (serveRedis o db).2)
    (fun _ => filesKept_of_stat rfl) (fun _ _ _ => FilesKept.trans) (fun o ho => ho) ?_ env w
  refine every_line ?_ ?_ ?_ ?_ ?_ ?_ cfg nCmd pszCmdArg
  · intro o ho db
    cases o with
    | multiExec ws => exact absurd rfl ho
    | _ => exact filesKept_of_stat rfl
  · intro db
    exact filesKept_of_stat rfl
  · intro f e k db
    exact filesKept_update not_isReg_absent (removeWrites_stat ..)
  · intro f e f' e' k db
    exact filesKept_of_stat rfl
  · intro now f e uid gid k db
    exact filesKept_update (not_isReg_mkdirStat _ _ _ _) (mkdirWrites_stat ..)
  · intro f e k db
    exact filesKept_update not_isReg_absent (rmdirWrites_stat ..)

/-! ### The last `PASV` -/

/-- A `PASV` that is not refused. -/
def Received.AcceptedPasv (r : Received) : Prop :=
  r.cmd = some .pasv ∧ r.before.client.bIsLogged = true ∧ r.before.client.eStatus = .waiting

/-- A `PRET` of a client that is logged in. -/
def Received.IsPret (r : Received) : Prop :=
  r.cmd = some .pret ∧ r.before.client.bIsLogged = true

/-- A `PRET` has been received since the last accepted `PASV`. -/
def PretSince (hist : List Received) : Prop :=
  ∃ earlier r later, hist = earlier ++ r :: later ∧ r.IsPret ∧ ∀ t ∈ later, ¬ t.AcceptedPasv

variable {cfg : Config} {env : Env} {w w' : World} {hist : List Received} {r : Received}

theorem PretSince.append (h : PretSince hist) (hr : ¬ r.AcceptedPasv) : PretSince (hist ++ [r]) := by
  obtain ⟨earlier, t, later, rfl, ht, hlater⟩ := h
  refine ⟨earlier, t, later ++ [r], by simp, ht, ?_⟩
  intro x hx
  rw [List.mem_append, List.mem_singleton] at hx
  obtain hx | rfl := hx
  · exact hlater x hx
  · exact hr

theorem pretSince_of_isPret (hr : r.IsPret) : PretSince (hist ++ [r]) :=
  ⟨hist, r, [], rfl, hr, by simp⟩

/-! ### The slave of a passive connection -/

/-- In passive mode the slave is that of the file the last `PRET` named, unless a `PRET` came after
the last `PASV`. -/
def SlaveHolds (hist : List Received) (w : World) : Prop :=
  w.client.eDataConnection = .pasv → w.client.nPRET_CMD = some .retr → ¬ PretSince hist →
    IsReg (w.db.stat (u32 w.client.llPRET_fid)) → slaveOf w.db w.client.llPRET_fid = w.client.SlaveInfo

/-- The record of the file that the last `PRET` named is the same, if it is still there. -/
def KeepsNamed (w : World) (db' : Redis) : Prop :=
  IsReg (db'.stat (u32 w.client.llPRET_fid)) →
    db'.stat (u32 w.client.llPRET_fid) = w.db.stat (u32 w.client.llPRET_fid)

theorem slaveOf_congr {db db' : Redis} {fid : ℤ} (h : db'.stat (u32 fid) = db.stat (u32 fid)) :
    slaveOf db' fid = slaveOf db fid := by
  rw [slaveOf, slaveOf, h]

/-- Nothing that matters has changed. -/
theorem SlaveHolds.keep {hist' : List Received} (h : SlaveHolds hist w)
    (hview : w'.view = w.view) (hkept : KeepsNamed w w'.db)
    (hhist : PretSince hist → PretSince hist') : SlaveHolds hist' w' := by
  intro hpasv hretr hno hreg
  have hconn := congrArg TransferView.eDataConnection hview
  have hpret := congrArg TransferView.nPRET_CMD hview
  have hfid : w'.client.llPRET_fid = w.client.llPRET_fid := congrArg TransferView.llPRET_fid hview
  have hslave : w'.client.SlaveInfo = w.client.SlaveInfo := congrArg TransferView.SlaveInfo hview
  rw [hfid] at hreg ⊢
  have hsame := hkept hreg
  rw [hsame] at hreg
  rw [slaveOf_congr hsame, hslave]
  exact h (hconn.symm.trans hpasv) (hpret.symm.trans hretr) (fun hp => hno (hhist hp)) hreg

/-- A connection that is not passive needs no slave. -/
theorem slaveHolds_of_ne (h : w.view.eDataConnection ≠ .pasv) : SlaveHolds hist w :=
  fun hpasv => absurd hpasv h

theorem SlaveHolds.acceptedPasv {line : Text} {next : Next}
    (hacc : Received.AcceptedPasv ⟨line, w⟩)
    (hrun : run (serveShell env) (dispatch cfg (parseLine line).1 (parseLine line).2) w =
      .done next w') : SlaveHolds hist w' := by
  obtain ⟨hcmd, hlogged, hwait⟩ := hacc
  have hcmd' : (parseLine line).1 = some .pasv := hcmd
  rw [hcmd'] at hrun
  have hdoes := does_of_dispatch (by simp) hlogged hrun
  generalize lineCalls env _ w = cs at hdoes
  obtain ⟨hne, -⟩ | ⟨-, ⟨hpret, hturn⟩ | ⟨cmd, hpret, hturn⟩⟩ := pasv_does hdoes
  · exact absurd hwait hne
  · have hview : w'.view.nPRET_CMD = w.view.nPRET_CMD := by
      cases hturn with
      | refused h => rw [h]
      | reset conn _ _ h => rw [h]; rfl
    intro _ hretr
    have hnone : w'.client.nPRET_CMD = none := hview.trans hpret
    rw [hnone] at hretr
    exact absurd hretr (by simp)
  · cases hturn with
    | init slave answer hslave _ hview hdb =>
        intro _ hretr _ _
        have hpret' : w'.client.nPRET_CMD = some cmd := by
          rw [← hpret]
          exact congrArg TransferView.nPRET_CMD hview
        have hfid : w'.client.llPRET_fid = w.client.llPRET_fid :=
          congrArg TransferView.llPRET_fid hview
        have hinfo : w'.client.SlaveInfo = slave := congrArg TransferView.SlaveInfo hview
        rw [hpret', Option.some.injEq] at hretr
        rw [hfid, hinfo, hslave (by rw [hretr]; simp), hdb]
        rfl

/-- A line that starts no thread keeps the slave that of the file. -/
theorem SlaveHolds.line {line : Text} (h : SlaveHolds hist w)
    (hrun : run (serveShell env) (dispatch cfg (parseLine line).1 (parseLine line).2) w =
      .done .continue w')
    (hno : ∀ thread, ¬ Starts env cfg line w thread) :
    SlaveHolds (hist ++ [⟨line, w⟩]) w' := by
  have hkept : KeepsNamed w w'.db := by
    have hfiles := line_keeps_files cfg env (parseLine line).1 (parseLine line).2 w
    rw [hrun] at hfiles
    exact hfiles _
  by_cases hacc : Received.AcceptedPasv ⟨line, w⟩
  · exact SlaveHolds.acceptedPasv hacc hrun
  have hkeep : w'.view = w.view → SlaveHolds (hist ++ [⟨line, w⟩]) w' :=
    fun hview => h.keep hview hkept fun hp => hp.append hacc
  have hcut : w'.view.eDataConnection ≠ .pasv → SlaveHolds (hist ++ [⟨line, w⟩]) w' :=
    slaveHolds_of_ne
  cases hlogged : w.client.bIsLogged with
  | false => exact hkeep ((line_not_logged hlogged hrun).1)
  | true =>
      have hturn := dataTurn_of_run hrun
      by_cases hpret : (parseLine line).1 = some .pret
      · exact fun _ _ hsince => absurd (pretSince_of_isPret (r := ⟨line, w⟩) ⟨hpret, hlogged⟩) hsince
      · have hpasv : (parseLine line).1 = some .pasv → w.client.eStatus ≠ .waiting :=
          fun hcmd hwait => hacc ⟨hcmd, hlogged, hwait⟩
        obtain hview | ⟨conn, hconn, hview⟩ := hturn.of_not_started hno hpret hpasv
        · exact hkeep hview
        · refine hcut ?_
          rw [hview]
          exact hconn

/-- A transfer ends without a data connection. -/
theorem transfer_ends {p : CommandProg Unit}
    (hrun : run (serveCommand env) (p >>= fun _ => endTransfer) w = .done () w') :
    ∃ w₁, run (serveCommand env) p w = .done () w₁ ∧ w'.view = w₁.view.reset := by
  obtain ⟨u, w₁, hp, hend⟩ := (run_bind_done _).mp hrun
  exact ⟨w₁, hp, (reset_does ⟨hend, rfl⟩).1⟩

/-- **The slave of a passive connection** is that of the file, in every run. -/
theorem SequentialRun.slaveHolds (hrun : SequentialRun cfg KeepsNamed hist w) :
    SlaveHolds hist w := by
  induction hrun with
  | connect _ hcommand =>
      intro hpasv
      have hconn := congrArg CommandState.eDataConnection hcommand
      rw [hpasv] at hconn
      exact absurd hconn (by simp)
  | line env line _ hturn hno ih => exact ih.line hturn hno
  | transfer env line thread _ hturn hstart hbody ih =>
      obtain ⟨w₂, -, hview⟩ := transfer_ends hbody
      refine slaveHolds_of_ne ?_
      rw [hview]
      simp [TransferView.reset]
  | others db _ hkept ih => exact ih.keep rfl hkept id

/-! ### Downloads -/

/-- A request for a file goes to the slave that holds it, and the file is the one the path leads
to. -/
def FromHolder (path : Text) : CommandOp → World → Prop
  | .sys (.activeRetrieveTransfer slave p), w =>
      ask (lookupFid path) w.db = some p.fid ∧ slave = slaveOf w.db p.fid
  | .sys (.pasvRetrieveTransfer slave p), w =>
      ask (lookupFid path) w.db = some p.fid ∧ slave = slaveOf w.db p.fid
  | _, _ => True

variable {α β : Type} {path : Text} {fid : ℤ}

/-- A program that makes no transfer requests no file. -/
theorem along_of_within {ps : List Part} {p : CommandProg α} (hp : Every (Within ps) p)
    (hps : Part.transferring ∉ ps) : Along (serveCommand env) (FromHolder path) p w := by
  refine hp.along (serveCommand env) (fun o w ho => ?_) w
  cases o with
  | sys o =>
      cases o with
      | activeRetrieveTransfer slave p => exact absurd (ho _ rfl) hps
      | pasvRetrieveTransfer slave p => exact absurd (ho _ rfl) hps
      | _ => trivial
  | _ => trivial

/-- The part of a program that makes no transfer can be run off. -/
theorem along_bind_of_within {ps : List Part} {p : CommandProg α} {f : α → CommandProg β}
    (hp : Every (Within ps) p) (hps : Part.transferring ∉ ps)
    (hf : ∀ a t, run (serveCommand env) p w = .done a t →
      Along (serveCommand env) (FromHolder path) (f a) t) :
    Along (serveCommand env) (FromHolder path) (p >>= f) w :=
  (along_bind _ p f w).mpr ⟨along_of_within hp hps, hf⟩

/-- What a lookup answers depends on the directories alone. -/
theorem lookupFid_done {db db' : Redis}
    (hrun : run serveRedis (lookupFid path) db = .done fid db') :
    db' = db ∧ ∀ d : Redis, d.dirent = db.dirent → ask (lookupFid path) d = some fid := by
  unfold ask lookupFid at *
  by_cases hroot : (path.splitOn '/').length = 2 ∧ (path.splitOn '/')[1]? = some []
  · rw [if_pos hroot] at hrun ⊢
    rw [run_ret, Outcome.done.injEq] at hrun
    obtain ⟨rfl, rfl⟩ := hrun
    exact ⟨rfl, fun _ _ => rfl⟩
  · rw [if_neg hroot] at hrun ⊢
    cases hts : lookupTokens path with
    | none =>
        rw [hts] at hrun
        exact absurd hrun (by simp)
    | some ts =>
        rw [hts] at hrun
        dsimp only at hrun ⊢
        rw [run_lookupWalk] at hrun
        cases hr : lookupResult db 0 ts with
        | none => rw [hr] at hrun; exact absurd hrun (by simp [answer])
        | some f =>
            rw [hr] at hrun
            have hend : Outcome.done f db = .done fid db' := hrun
            rw [Outcome.done.injEq] at hend
            obtain ⟨rfl, rfl⟩ := hend
            refine ⟨rfl, fun d hd => ?_⟩
            rw [run_lookupWalk, lookupResult_congr hd, hr]
            rfl

/-- A path that `stat` finds has a fid, whose record is what `stat` shows. -/
theorem stat_done {db db' : Redis} {st : Stat}
    (hrun : run serveRedis (stat path) db = .done (some st) db') :
    ∃ fid, run serveRedis (lookupFid path) db = .done fid db ∧
      st = (db.stat (u32 fid)).toStat := by
  obtain ⟨fid, db₁, hlookup, hrest⟩ := (run_bind_done _).mp hrun
  obtain ⟨rfl, -⟩ := lookupFid_done hlookup
  refine ⟨fid, hlookup, ?_⟩
  by_cases hneg : fid < 0
  · rw [if_pos hneg] at hrest
    exact absurd hrest (by simp)
  · rw [if_neg hneg] at hrest
    have hread : run serveRedis (if db₁.stat (u32 fid) = .absent then (return none)
      else return some (db₁.stat (u32 fid)).toStat : RedisProg (Option Stat)) db₁ =
        .done (some st) db' := hrest
    by_cases habs : db₁.stat (u32 fid) = .absent
    · rw [if_pos habs] at hread
      exact absurd hread (by simp)
    · rw [if_neg habs] at hread
      simp only [Prog.pure_eq, run_ret, Outcome.done.injEq, Option.some.injEq] at hread
      exact hread.1.symm

/-- The active half asks the slave of the file it has found. -/
theorem along_retrieveActive (hpath : w.client.CurrentTransfer.szPath = path)
    (hfound : run serveRedis (lookupFid path) w.db = .done fid w.db) :
    Along (serveCommand env) (FromHolder path) (retrieveActive cfg fid) w := by
  have hfinish : ∀ answer, Every (Within []) (finishRetrieve answer) := within_finishRetrieve
  unfold retrieveActive
  by_cases hslaves : cfg.Slaves ≠ [] ∧ 0 ≤ fid
  swap
  · rw [if_neg hslaves]
    trivial
  rw [if_pos hslaves]
  refine ⟨trivial, ?_⟩
  show Along _ _ (redis (lookupSlaveInfo w.client.CurrentTransfer.szPath) >>= _) w
  rw [hpath]
  have hq : Every (Within []) (redis (lookupSlaveInfo path)) :=
    within_redis_of_reads (reads_lookupSlaveInfo path)
  refine along_bind_of_within hq (by simp) fun slave w₁ hslave => ?_
  have hrun : run serveRedis (lookupSlaveInfo path) w.db = .done (slaveOf w.db fid) w.db := by
    rw [lookupSlaveInfo, run_bind, hfound, Outcome.done_andThen, run_lookupSlaveInfoFid]
  rw [run_redis, hrun, Outcome.mapState_done, Outcome.done.injEq] at hslave
  obtain ⟨rfl, rfl⟩ := hslave
  refine ⟨trivial, ?_⟩
  show Along _ _ (client >>= fun c => randomPort cfg >>= _) _
  refine ⟨trivial, ?_⟩
  show Along _ _ (randomPort cfg >>= _) _
  have hport : Every (Within []) (randomPort cfg) := within_randomPort cfg
  refine along_bind_of_within hport (by simp) fun port w₃ hw₃ => ?_
  have hdb₃ : w₃.db = { w.db with transaction_counter := w.db.transaction_counter + 1 } := by
    have hdb := run_within_db hport (by simp) (by simp) env
      { w with db := { w.db with transaction_counter := w.db.transaction_counter + 1 } }
    have hrun₃ : run (serveCommand env) (randomPort cfg)
      { w with db := { w.db with transaction_counter := w.db.transaction_counter + 1 } } =
        .done port w₃ := hw₃
    rw [hrun₃] at hdb
    exact hdb
  refine ⟨trivial, ?_, along_of_within (hfinish _) (by simp)⟩
  show ask (lookupFid path) w₃.db = some fid ∧ _ = slaveOf w₃.db fid
  rw [hdb₃]
  exact ⟨(lookupFid_done hfound).2 _ rfl, rfl⟩

/-- The passive half asks the slave of the client entry. -/
theorem along_retrievePassive (hfound : run serveRedis (lookupFid path) w.db = .done fid w.db)
    (hslave : w.client.nPRET_CMD = some .retr → w.client.llPRET_fid = fid →
      slaveOf w.db fid = w.client.SlaveInfo) :
    Along (serveCommand env) (FromHolder path) (retrievePassive cfg fid) w := by
  have hfinish : ∀ answer, Every (Within []) (finishRetrieve answer) := within_finishRetrieve
  unfold retrievePassive
  refine ⟨trivial, ?_⟩
  show Along _ _ (if w.client.nPRET_CMD ≠ some .retr then _ else _) w
  by_cases hpret : w.client.nPRET_CMD ≠ some .retr
  · rw [if_pos hpret]
    exact ⟨trivial, trivial⟩
  rw [if_neg hpret]
  refine ⟨trivial, ?_⟩
  show Along _ _ (if w.client.llPRET_fid ≠ fid then _ else _) w
  by_cases hfid : w.client.llPRET_fid ≠ fid
  · rw [if_pos hfid]
    exact ⟨trivial, trivial⟩
  rw [if_neg hfid]
  rw [ne_eq, not_not] at hpret hfid
  refine ⟨trivial, trivial, ?_, along_of_within (hfinish _) (by simp)⟩
  show ask (lookupFid path) w.db = some fid ∧ w.client.SlaveInfo = slaveOf w.db fid
  exact ⟨(lookupFid_done hfound).2 _ rfl, (hslave hpret hfid).symm⟩

/-- A download asks the right slave, if in passive mode that of the client entry is right. -/
theorem along_retrieveTransfer (hpath : w.client.CurrentTransfer.szPath = path)
    (hfound : run serveRedis (lookupFid path) w.db = .done fid w.db)
    (hslave : w.client.eDataConnection = .pasv → w.client.nPRET_CMD = some .retr →
      w.client.llPRET_fid = fid → slaveOf w.db fid = w.client.SlaveInfo) :
    Along (serveCommand env) (FromHolder path) (retrieveTransfer cfg) w := by
  unfold retrieveTransfer
  refine ⟨trivial, ?_⟩
  show Along _ _ (redis (lookupFid w.client.CurrentTransfer.szPath) >>= _) w
  rw [hpath]
  have hq : Every (Within []) (redis (lookupFid path)) :=
    within_redis_of_reads (reads_lookupFid path)
  refine along_bind_of_within hq (by simp) fun fid' w₁ hw₁ => ?_
  rw [run_redis, hfound, Outcome.mapState_done, Outcome.done.injEq] at hw₁
  obtain ⟨rfl, rfl⟩ := hw₁
  show Along _ _ (whenConnected .port (some .empty) (retrieveActive cfg fid) >>= _) w
  rw [along_bind]
  have hlast : ∀ msg w₂, Along (serveCommand env) (FromHolder path) (sendLast msg) w₂ := by
    intro msg w₂
    cases msg with
    | none => trivial
    | some msg => exact ⟨trivial, trivial⟩
  by_cases hport : w.client.eDataConnection = .port
  · have hactive : whenConnected .port (some .empty) (retrieveActive cfg fid) = client >>= fun c =>
        if c.eDataConnection = .port then retrieveActive cfg fid else return some .empty := rfl
    rw [hactive]
    refine ⟨⟨trivial, ?_⟩, ?_⟩
    · show Along _ _ (if w.client.eDataConnection = .port then _ else _) w
      rw [if_pos hport]
      exact along_retrieveActive hpath hfound
    · intro msg w₂ hrun
      rw [run_client_bind, if_pos hport] at hrun
      have hconn : _ = _ := run_same (within_retrieveActive cfg fid)
        (show Part.connection ∉ retrieveParts by decide) env w
      rw [hrun] at hconn
      have hne : w₂.client.eDataConnection ≠ .pasv := by
        rw [show w₂.client.eDataConnection = w.client.eDataConnection from hconn, hport]
        simp
      rw [along_bind]
      cases msg with
      | none => exact ⟨trivial, fun msg w₃ _ => hlast msg w₃⟩
      | some msg =>
          refine ⟨⟨trivial, ?_⟩, fun msg w₃ _ => hlast msg w₃⟩
          show Along _ _ (if w₂.client.eDataConnection = .pasv then _ else _) w₂
          rw [if_neg hne]
          trivial
  · refine ⟨⟨trivial, ?_⟩, ?_⟩
    · show Along _ _ (if w.client.eDataConnection = .port then _ else _) w
      rw [if_neg hport]
      trivial
    · intro msg w₂ hrun
      have hend : run (serveCommand env) (if w.client.eDataConnection = .port then
        retrieveActive cfg fid else return some .empty) w = .done msg w₂ := hrun
      rw [if_neg hport, Prog.pure_eq, run_ret, Outcome.done.injEq] at hend
      obtain ⟨rfl, rfl⟩ := hend
      rw [along_bind]
      refine ⟨⟨trivial, ?_⟩, fun msg w₃ _ => hlast msg w₃⟩
      show Along _ _ (if w.client.eDataConnection = .pasv then _ else _) w
      by_cases hpasv : w.client.eDataConnection = .pasv
      · rw [if_pos hpasv]
        exact along_retrievePassive hfound (hslave hpasv)
      · rw [if_neg hpasv]
        trivial

/-! ### The statement -/

/-- A `RETR` that starts its thread leads it to the slave that holds the file of its path. -/
def AsksHolder (cfg : Config) (env : Env) (w : World) (line : Text) : Prop :=
  ∀ w₁ path, run (serveShell env) (dispatch cfg (parseLine line).1 (parseLine line).2) w =
      .done .continue w₁ → Starts env cfg line w .retrieve →
    w.client.buildPath (parseLine line).2 = some path →
    Along (serveCommand env) (FromHolder path) (retrieveTransfer cfg) w₁

/-- Only a `RETR` with an argument starts this thread. -/
theorem retr_of_starts {line : Text} {next : Next} {w₁ : World}
    (hrun : run (serveShell env) (dispatch cfg (parseLine line).1 (parseLine line).2) w =
      .done next w₁) (hstart : Starts env cfg line w .retrieve) :
    ∃ arg cs, (parseLine line).2 = some arg ∧ Does env (cmdRetr arg) w () w₁ cs ∧
      ⟨.pthread_create .retrieve, true⟩ ∈ cs := by
  have hturn := dataTurn_of_run hrun
  have hlogged : w.client.bIsLogged = true := by
    by_contra hno
    rw [Starts, (line_not_logged (by simpa using hno) hrun).2] at hstart
    exact absurd hstart (by simp)
  have hcmd : (parseLine line).1 = some .retr := by
    have hstarted := hturn.of_started hstart
    generalize lineCalls env _ w = cs at hstarted
    generalize (parseLine line).1 = nCmd at hstarted
    cases hstarted
    rfl
  rw [Starts, hcmd] at hstart
  rw [hcmd] at hrun
  have hdoes := does_of_dispatch (by simp) hlogged hrun
  generalize lineCalls env _ w = cs at hdoes hstart
  obtain ⟨-, rfl⟩ | ⟨-, hdoes⟩ := withPrivilege_does hdoes
  · exact absurd hstart (by simp)
  · obtain ⟨-, rfl⟩ | ⟨arg, harg, hdoes⟩ := withArg_does hdoes
    · exact absurd hstart (by simp)
    · exact ⟨arg, cs, harg, hdoes, hstart⟩

/-- **A download asks the slave that holds the file**: in passive mode if no `PRET` has come since
the last `PASV`. -/
theorem retrieve_from_holder (hrun : SequentialRun cfg KeepsNamed hist w) (env : Env) (line : Text)
    (hlast : w.client.eDataConnection = .pasv → ¬ PretSince hist) :
    AsksHolder cfg env w line := by
  intro w₁ path hturn hstart hpath
  obtain ⟨arg, cs, harg, hdoes, hmem⟩ := retr_of_starts hturn hstart
  obtain ⟨path', st, hpath', hstat, hreg, hdb, hclient⟩ := retr_starts hdoes hmem
  rw [harg, hpath', Option.some.injEq] at hpath
  subst hpath
  obtain ⟨fid, hfound, rfl⟩ := stat_done hstat
  rw [← hdb] at hfound hreg
  refine along_retrieveTransfer (by rw [hclient]) hfound ?_
  rw [hclient, hdb]
  intro hpasv hretr hfid
  have hfid' : w.client.llPRET_fid = fid := hfid
  rw [hdb] at hreg
  have hholds := hrun.slaveHolds hpasv hretr (hlast hpasv)
  rw [hfid'] at hholds
  exact hholds hreg

/-! ### A `PRET` after `PASV` -/

/-- The two slaves. -/
def slaveA : SlaveInfo := ⟨['A'], some 9090⟩
def slaveB : SlaveInfo := ⟨['B'], some 9090⟩

/-- A configuration with one slave. -/
def oneSlave : Config := { Slaves := [slaveA] }

/-- A file on either slave, and a guest. -/
def twoFiles : Redis :=
  applyAll (saveWrites 0 0 ['b'] ⟨0, 0, 0, 2, slaveB⟩)
    (applyAll (saveWrites 0 0 ['a'] ⟨0, 0, 0, 1, slaveA⟩) (guestDb ['/']))

/-- The regular files carry a host and a port. -/
def CarrySlaves (db : Redis) : Prop :=
  ∀ k, IsReg (db.stat k) → (db.stat k).slave_host.isSome ∧ (db.stat k).slave_port.isSome

/-- After a successful `PRET RETR`. -/
def pretWorld (w : World) (fid : ℤ) : World :=
  { w with
    client := { w.client with nPRET_CMD := some .retr, llPRET_fid := fid }
    replies := w.replies ++ [.line 200 "Command OK"] }

/-- After `PRET RETR /a` and `PASV`. -/
def passiveWorld : World :=
  { pretWorld (guestWorld twoFiles) 1 with
    db := { twoFiles with transaction_counter := 1 }
    client := { (pretWorld (guestWorld twoFiles) 1).client with
      SlaveInfo := slaveA, llPRET_trans_id := 1, eDataConnection := .pasv }
    replies := (pretWorld (guestWorld twoFiles) 1).replies ++ [.line 227 "Entering Passive Mode"]
    clock := 2 }

/-- After `PRET RETR /b` and `RETR /b` as well. -/
def retrWorld : World :=
  { pretWorld passiveWorld 2 with
    client := { (pretWorld passiveWorld 2).client with
      eStatus := .downloading
      CurrentTransfer := { szPath := "/b".toList, TransferThreadID := true } }
    replies := (pretWorld passiveWorld 2).replies ++ [.line 150 "Opening data channel"]
    clock := 4 }

/-- The session after `PORT 127,0,0,1,4,0`. -/
def World.ported (w : World) : World :=
  { w with
    client := { w.client with eDataConnection := .port, ulDataIp := loopbackIP, usDataPort := 1024 }
    replies := w.replies ++ [.line 200 "PORT command successful."] }

/-- The session after a `RETR /a`. -/
def World.retrieving (w : World) : World :=
  { w with
    client := { w.client with
      eStatus := .downloading
      CurrentTransfer := { w.client.CurrentTransfer with
        szPath := "/a".toList, TransferThreadID := true } }
    clock := w.clock + 1 }

theorem canonical_b : Canonical "/b".toList := ⟨[['b']], by decide, rfl⟩

theorem guest_a {c : Client} (hu : c.pUser = some guestUser) :
    c.buildPath (some "/a".toList) = some "/a".toList := guest_buildPath hu canonical_a (by decide)

theorem guest_b {c : Client} (hu : c.pUser = some guestUser) :
    c.buildPath (some "/b".toList) = some "/b".toList := guest_buildPath hu canonical_b (by decide)

/-- `USER guest` in a database that has the guest. -/
theorem run_user_guest : run (serveShell .willing)
    (dispatch {} (some .user) (some "guest".toList)) ⟨twoFiles, {}, [], 0⟩ =
      .done .continue (guestWorld twoFiles) := rfl

/-- A line whose command is known to run. -/
theorem SequentialRun.command {others : World → Redis → Prop} {nCmd : Cmd}
    {pszCmdArg : Option Text} {cs : List Call} (hrun : SequentialRun cfg others hist w) (line : Text)
    (hline : parseLine line = (some nCmd, pszCmdArg))
    (hnot : nCmd ∉ [Cmd.quit, .user, .pass, .cwd, .xcwd, .cdup, .xcup])
    (hlogged : w.client.bIsLogged = true)
    (h : Does env (shellCmd cfg nCmd pszCmdArg) w () w' cs)
    (hno : ∀ thread, ⟨.pthread_create thread, true⟩ ∉ cs) :
    SequentialRun cfg others (hist ++ [⟨line, w⟩]) w' := by
  obtain ⟨hends, hcalls⟩ := line_of_does hnot hlogged h
  refine hrun.line env line (by rw [hline]; exact hends) fun thread hstart => hno thread ?_
  rw [Starts, hline, hcalls] at hstart
  exact hstart

theorem pret_a : Does .willing (shellCmd {} .pret (some "RETR /a".toList)) (guestWorld twoFiles) ()
    (pretWorld (guestWorld twoFiles) 1) [] := by
  constructor
  · show run _ (statPath (Client.buildPath _ (some "/a".toList)) >>= _) _ = _
    rw [guest_a rfl]
    rfl
  · show trace _ _ (statPath (Client.buildPath _ (some "/a".toList)) >>= _) _ = _
    rw [guest_a rfl]
    rfl

theorem pret_b : Does .willing (shellCmd {} .pret (some "RETR /b".toList)) passiveWorld ()
    (pretWorld passiveWorld 2) [] := by
  constructor
  · show run _ (statPath (Client.buildPath _ (some "/b".toList)) >>= _) _ = _
    rw [guest_b rfl]
    rfl
  · show trace _ _ (statPath (Client.buildPath _ (some "/b".toList)) >>= _) _ = _
    rw [guest_b rfl]
    rfl

theorem retr_b : Does .willing (shellCmd {} .retr (some "/b".toList)) (pretWorld passiveWorld 2) ()
    retrWorld [passiveWorld.view.opening (.reply (.line 150 "Opening data channel")),
      ⟨.pthread_create .retrieve, true⟩] := by
  constructor
  · show run _ (statPath (Client.buildPath _ (some "/b".toList)) >>= _) _ = _
    rw [guest_b rfl]
    rfl
  · show trace _ _ (statPath (Client.buildPath _ (some "/b".toList)) >>= _) _ = _
    rw [guest_b rfl]
    rfl

theorem pasv_a : Does .willing (shellCmd {} .pasv none) (pretWorld (guestWorld twoFiles) 1) ()
    passiveWorld [⟨.initPasvDataConnection slaveA { server_ip := ['A'], trans_id := 1 } 100 900,
      .reply (.line 227 "Entering Passive Mode")⟩] := ⟨rfl, rfl⟩

theorem carrySlaves_twoFiles : CarrySlaves twoFiles := by
  intro k hreg
  by_cases h₂ : k = 2
  · subst h₂
    exact ⟨rfl, rfl⟩
  · by_cases h₁ : k = 1
    · subst h₁
      exact ⟨rfl, rfl⟩
    · have hstat : twoFiles.stat k = (guestDb ['/']).stat k := by
        rw [twoFiles, saveWrites_stat, saveWrites_stat]
        exact (Function.update_of_ne h₂ _ _).trans (Function.update_of_ne h₁ _ _)
      rw [hstat] at hreg
      by_cases h₀ : k = 0
      · subst h₀
        exact absurd hreg (by unfold IsReg; decide)
      · have habs : (guestDb ['/']).stat k = .absent :=
          Function.update_of_ne h₀ _ fun _ => StatHash.absent
        rw [habs] at hreg
        exact absurd hreg not_isReg_absent

/-- The guest names `/a` and opens a passive connection. -/
theorem sequentialRun_passive (others : World → Redis → Prop) :
    ∃ hist, SequentialRun {} others hist passiveWorld ∧ ¬ PretSince hist := by
  have huser : parseLine "USER guest".toList = (some .user, some "guest".toList) := by decide
  have hconnect : SequentialRun {} others [] ⟨twoFiles, {}, [], 0⟩ := .connect rfl rfl
  have h₁ := hconnect.line .willing "USER guest".toList (by rw [huser]; exact run_user_guest) (by
    intro thread hstart
    rw [Starts, huser, (line_not_logged rfl run_user_guest).2] at hstart
    exact absurd hstart (by simp))
  have h₂ := h₁.command "PRET RETR /a".toList (by decide) (by simp) rfl pret_a (by simp)
  have h₃ := h₂.command "PASV".toList (by decide) (by simp) rfl pasv_a (by simp)
  refine ⟨_, h₃, ?_⟩
  rintro ⟨earlier, r, later, heq, ⟨hpret, -⟩, hno⟩
  rcases List.eq_nil_or_concat later with rfl | ⟨later', t, rfl⟩
  · have hlast := (List.append_inj' heq rfl).2
    rw [List.cons.injEq] at hlast
    rw [← hlast.1] at hpret
    exact absurd hpret (by decide)
  · rw [List.concat_eq_append, ← List.cons_append, ← List.append_assoc] at heq
    have hlast := (List.append_inj' heq rfl).2
    rw [List.cons.injEq] at hlast
    refine hno t (by simp) ?_
    rw [← hlast.1]
    exact ⟨by decide, rfl, rfl⟩

/-- The guest retrieves `/a` from its slave. -/
theorem retrieve_from_holder_a : AsksHolder {} .willing passiveWorld "RETR /a".toList := by
  obtain ⟨hist, hrun, hno⟩ := sequentialRun_passive KeepsNamed
  exact retrieve_from_holder hrun .willing "RETR /a".toList fun _ => hno

/-- **A `PRET` after `PASV`** leads the download of `/b` to the slave of `/a`. -/
theorem retrieve_from_other : ¬ ∀ cfg hist w env line,
    SequentialRun cfg (fun _ _ => False) hist w → CarrySlaves w.db → AsksHolder cfg env w line := by
  intro hall
  obtain ⟨hist, hrun, -⟩ := sequentialRun_passive fun _ _ => False
  have hpret := hrun.command "PRET RETR /b".toList (by decide) (by simp) rfl pret_b (by simp)
  have hretr : parseLine "RETR /b".toList = (some .retr, some "/b".toList) := by decide
  obtain ⟨hends, hcalls⟩ := line_of_does (by simp) rfl retr_b
  have hasks := hall {} _ _ .willing "RETR /b".toList hpret carrySlaves_twoFiles retrWorld
    "/b".toList (by rw [hretr]; exact hends) (by rw [Starts, hretr, hcalls]; simp)
    (by rw [hretr]; exact guest_b rfl)
  have hop : ask (lookupFid "/b".toList) retrWorld.db = some 2 ∧
      slaveA = slaveOf retrWorld.db 2 := ((hasks.2.2 rfl).2.2.2.2.2.2.1)
  exact absurd hop.2 (by decide)

end ClusterFtpd
