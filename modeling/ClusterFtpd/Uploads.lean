import ClusterFtpd.Calls
import ClusterFtpd.VfsRuns

/-!
# What an upload does

`StoreTurn` lists the ends of `StoreThread`: which RPC it sends and with which parameters, what it
replies, and what it records in the database.  The statements about uploads are case analyses over
it.  `storeTransfer_stores`: its part in the database is that of the command `store` of
`VfsCommands`.
-/

namespace ClusterFtpd

open Interaction MachineInt NameGraph

variable {cfg : Config} {env : Env} {w w' : World} {cs : List Call}

/-- What follows the RPC of an upload, up to the last reply: a refusal, or the record of the file
and the message of the slave. -/
inductive UploadEnd (fid : ℤ) (slave : SlaveInfo) (w w' : World) :
    RpcResult StorRetVal → Option Reply → Prop where
  | exception : w'.client = w.client → w'.db = w.db →
      w'.replies = w.replies ++ [.line 550 "Can't store file."] →
      UploadEnd fid slave w w' .exception none
  | unrecorded (retval : StorRetVal) : retval.size < 0 → w'.client = w.client → w'.db = w.db →
      w'.replies = w.replies → UploadEnd fid slave w w' (.reply retval) (some retval.msg)
  | recorded (retval : StorRetVal) (u : UserEntry) (now r : ℤ) : 0 ≤ retval.size →
      w.client.pUser = some u →
      run serveRedis (saveNewFile now w.client.CurrentTransfer.szPath
        { size := retval.size, uid := u.uid, gid := u.gid, fid, slave }) w.db = .done r w'.db →
      w'.client = w.client → w'.replies = w.replies →
      UploadEnd fid slave w w' (.reply retval) (some retval.msg)

theorem UploadEnd.client_eq {fid : ℤ} {slave : SlaveInfo} {answer : RpcResult StorRetVal}
    {msg : Option Reply} (h : UploadEnd fid slave w w' answer msg) : w'.client = w.client := by
  cases h with
  | exception hclient _ _ => exact hclient
  | unrecorded _ _ hclient _ _ => exact hclient
  | recorded _ _ _ _ _ _ _ hclient _ => exact hclient

theorem recordUpload_does {retval : StorRetVal} {fid : ℤ} {slave : SlaveInfo} {u : Unit}
    (h : Does env (recordUpload retval fid slave) w u w' cs) :
    cs = [] ∧ w'.client = w.client ∧ w'.replies = w.replies ∧
      ((retval.size < 0 ∧ w'.db = w.db) ∨ (0 ≤ retval.size ∧ ∃ user now r,
        w.client.pUser = some user ∧ run serveRedis (saveNewFile now
          w.client.CurrentTransfer.szPath
          { size := retval.size, uid := user.uid, gid := user.gid, fid, slave }) w.db =
            .done r w'.db)) := by
  unfold recordUpload at h
  by_cases hsize : 0 ≤ retval.size
  · rw [if_pos hsize] at h
    have h₁ := h.of_client
    cases huser : w.client.pUser with
    | none =>
        rw [huser] at h₁
        exact h₁.of_stop.elim
    | some user =>
        rw [huser] at h₁
        have h₂ := h₁.of_sys rfl
        obtain ⟨r, w₁, cs₁, cs₂, hsave, hret, rfl⟩ := h₂.of_bind
        obtain ⟨-, rfl, rfl⟩ := hret.of_ret
        obtain ⟨hrun, heq, rfl⟩ := hsave.of_redis
        rw [heq]
        exact ⟨rfl, rfl, rfl, .inr ⟨hsize, user, _, r, rfl, hrun⟩⟩
  · rw [if_neg hsize] at h
    obtain ⟨-, rfl, rfl⟩ := h.of_ret
    exact ⟨rfl, rfl, rfl, .inl ⟨by omega, rfl⟩⟩

theorem finishUpload_does {fid : ℤ} {slave : SlaveInfo} {answer : RpcResult StorRetVal}
    {msg : Option Reply} (h : Does env (finishUpload fid slave answer) w msg w' cs) :
    cs = [] ∧ UploadEnd fid slave w w' answer msg := by
  cases answer with
  | noReturn => exact h.of_stop.elim
  | exception =>
      obtain ⟨rfl, rfl, rfl⟩ := h.of_sendReply.of_ret
      exact ⟨rfl, .exception rfl rfl rfl⟩
  | reply retval =>
      have h₁ : Does env (recordUpload retval fid slave >>= fun _ => .ret (some retval.msg)) w msg w' cs := h
      obtain ⟨u₁, w₁, cs₁, cs₂, hrecord, hret, rfl⟩ := h₁.of_bind
      obtain ⟨rfl, rfl, rfl⟩ := hret.of_ret
      obtain ⟨rfl, hclient, hreplies, ⟨hsize, hdb⟩ | ⟨hsize, user, now, r, huser, hrun⟩⟩ :=
        recordUpload_does hrecord
      · exact ⟨rfl, .unrecorded retval hsize hclient hdb hreplies⟩
      · exact ⟨rfl, .recorded retval user now r hsize huser hrun hclient hreplies⟩

/-! ### The thread -/

/-- The flag an upload is opened with on the slave. -/
def DataTransfer.iflags (t : DataTransfer) : OpenFlag := if 0 < t.RestartAt then .append else .trunc

/-- The fid of the next file. -/
def Redis.nextFid (db : Redis) : ℤ := ((db.fid_counter + 1 : ℕ) : ℤ)

/-- **What `StoreThread` does.** -/
inductive StoreTurn (cfg : Config) (w w' : World) : List Call → Prop where
  | unconnected : w.client.eDataConnection = .none → w'.client = w.client → w'.db = w.db.incrFid →
      w'.replies = w.replies ++ [.empty] → StoreTurn cfg w w' []
  | noSlaves : w.client.eDataConnection = .port → cfg.Slaves = [] → w'.client = w.client →
      w'.db = w.db.incrFid →
      w'.replies = w.replies ++ [.line 550 "Can't store file.", .empty] → StoreTurn cfg w w' []
  | active {slave : SlaveInfo} {server_port : ℕ} {answer : RpcResult StorRetVal}
      {msg : Option Reply} {w₁ w₂ : World} : w.client.eDataConnection = .port →
      slave ∈ cfg.Slaves → w₁.client = w.client →
      w₁.db = { w.db.incrFid with transaction_counter := w.db.transaction_counter + 1 } →
      w₁.replies = w.replies ++ [.line 150 "Opening data channel."] →
      UploadEnd w.db.nextFid slave w₁ w₂ answer msg → w'.client = w₂.client → w'.db = w₂.db →
      w'.replies = w₂.replies ++ msg.toList →
      StoreTurn cfg w w' [⟨.activeStoreTransfer slave
        { client_ip := w.client.ulClientIP, client_port := w.client.usDataPort, fid := w.db.nextFid
          restart_at := w.client.CurrentTransfer.RestartAt
          transfer_buffer_size := cfg.uiTransferBufferSize
          server_ip := slave.host, server_port
          trans_id := ((w.db.transaction_counter + 1 : ℕ) : ℤ) } w.client.CurrentTransfer.iflags,
        answer⟩]
  | unnamed : w.client.eDataConnection = .pasv → w.client.nPRET_CMD ≠ some .stor →
      w.client.nPRET_CMD ≠ some .appe → w'.client = w.client → w'.db = w.db.incrFid →
      w'.replies = w.replies ++ [.line 503 "Bad sequence of commands STOR"] →
      StoreTurn cfg w w' []
  | passive {answer : RpcResult StorRetVal} {msg : Option Reply} {w₁ w₂ : World} :
      w.client.eDataConnection = .pasv →
      w.client.nPRET_CMD = some .stor ∨ w.client.nPRET_CMD = some .appe →
      w₁.client = w.client → w₁.db = w.db.incrFid → w₁.replies = w.replies →
      UploadEnd w.db.nextFid w.client.SlaveInfo w₁ w₂ answer msg → w'.client = w₂.client →
      w'.db = w₂.db → w'.replies = w₂.replies ++ msg.toList →
      StoreTurn cfg w w' [⟨.pasvStoreTransfer w.client.SlaveInfo
        { fid := w.db.nextFid, restart_at := w.client.CurrentTransfer.RestartAt
          transfer_buffer_size := cfg.uiTransferBufferSize, trans_id := w.client.llPRET_trans_id }
        w.client.CurrentTransfer.iflags, answer⟩]

theorem sendLast_does {msg : Option Reply} {u : Unit} (h : Does env (sendLast msg) w u w' cs) :
    w' = { w with replies := w.replies ++ msg.toList } ∧ cs = [] := by
  cases msg with
  | none =>
      obtain ⟨-, rfl, rfl⟩ := h.of_ret
      refine ⟨?_, rfl⟩
      rw [Option.toList_none, List.append_nil]
  | some r => exact h.of_reply

theorem randomPort_does {port : ℕ} (h : Does env (randomPort cfg) w port w' cs) :
    w'.client = w.client ∧ w'.db = w.db ∧ w'.replies = w.replies ∧ cs = [] := by
  have h₁ := h.of_sys rfl
  by_cases hlen : cfg.usLen = 0
  · rw [if_pos hlen] at h₁
    exact h₁.of_stop.elim
  · rw [if_neg hlen] at h₁
    obtain ⟨-, rfl, rfl⟩ := h₁.of_ret
    exact ⟨rfl, rfl, rfl, rfl⟩

theorem getRandomSlave_does {slave : SlaveInfo} (h : Does env (getRandomSlave cfg) w slave w' cs) :
    slave ∈ cfg.Slaves ∧ w'.client = w.client ∧ w'.db = w.db ∧ w'.replies = w.replies ∧ cs = [] := by
  have h₁ := h.of_sys rfl
  generalize hslave : cfg.Slaves[env w.clock .rand % cfg.Slaves.length % 65536]? = found at h₁
  cases found with
  | none => exact h₁.of_stop.elim
  | some s =>
      obtain ⟨rfl, rfl, rfl⟩ := h₁.of_ret
      exact ⟨List.mem_of_getElem? hslave, rfl, rfl, rfl, rfl⟩

/-- A half whose data connection is of another kind. -/
theorem whenConnected_skips {kind : DataConnection} {m : Reply} {half : CommandProg (Option Reply)}
    {msg : Option Reply} (hkind : w.client.eDataConnection ≠ kind)
    (h : Does env (whenConnected kind (some m) half) w msg w' cs) :
    msg = some m ∧ w' = w ∧ cs = [] := by
  have h₁ := h.of_client
  rw [if_neg hkind] at h₁
  exact h₁.of_ret

/-- A half whose data connection is of its kind. -/
theorem whenConnected_does {kind : DataConnection} {m : Reply} {half : CommandProg (Option Reply)}
    {msg : Option Reply} (hkind : w.client.eDataConnection = kind)
    (h : Does env (whenConnected kind (some m) half) w msg w' cs) : Does env half w msg w' cs := by
  have h₁ := h.of_client
  rw [if_pos hkind] at h₁
  exact h₁

/-- The passive half, behind the active one. -/
theorem whenPassive_skips {msg msg' : Option Reply} {half : CommandProg (Option Reply)}
    (hkind : w.client.eDataConnection ≠ .pasv)
    (h : Does env (whenConnected .pasv msg half) w msg' w' cs) :
    msg' = msg ∧ w' = w ∧ cs = [] := by
  cases msg with
  | none => exact h.of_ret
  | some m => exact whenConnected_skips hkind h

/-- The active half of an upload. -/
theorem storeActive_does {iflags : OpenFlag} {msg : Option Reply}
    (hport : w.client.eDataConnection = .port) (hflags : iflags = w.client.CurrentTransfer.iflags)
    {w₀ : World} (hclient₀ : w₀.client = w.client) (hdb₀ : w₀.db = w.db.incrFid)
    (hreplies₀ : w₀.replies = w.replies)
    (h : Does env (storeActive cfg iflags w.db.nextFid) w₀ msg w' cs) :
    w'.client = w.client ∧ ∀ w₂ : World, w₂.client = w'.client → w₂.db = w'.db →
      w₂.replies = w'.replies ++ msg.toList → StoreTurn cfg w w₂ cs := by
  unfold storeActive at h
  by_cases hslaves : cfg.Slaves = []
  · rw [if_pos hslaves] at h
    obtain ⟨rfl, rfl, rfl⟩ := h.of_sendReply.of_ret
    refine ⟨hclient₀, fun w₂ hclient hdb hreplies => ?_⟩
    refine .noSlaves hport hslaves (hclient.trans hclient₀) (hdb.trans hdb₀) ?_
    rw [hreplies, hreplies₀, List.append_assoc]
    rfl
  · rw [if_neg hslaves] at h
    obtain ⟨slave, w₁, cs₁, cs₂, hslave, h₁, rfl⟩ := h.of_bind
    obtain ⟨hmem, hclient₁, hdb₁, hreplies₁, rfl⟩ := getRandomSlave_does hslave
    obtain ⟨trans_id, w₂, cs₃, cs₄, htrans, h₂, rfl⟩ := h₁.of_bind
    obtain ⟨hdraw, hw₂, rfl⟩ := htrans.of_redis
    have hdraw' : Outcome.done ((w₁.db.transaction_counter + 1 : ℕ) : ℤ)
        { w₁.db with transaction_counter := w₁.db.transaction_counter + 1 } =
        .done trans_id w₂.db := hdraw
    rw [Outcome.done.injEq] at hdraw'
    obtain ⟨rfl, hdb₂⟩ := hdraw'
    have hclient₂ : w₂.client = w.client := by
      rw [hw₂]
      exact hclient₁.trans hclient₀
    have hreplies₂ : w₂.replies = w.replies := by
      rw [hw₂]
      exact hreplies₁.trans hreplies₀
    have hcounter : w₁.db.transaction_counter = w.db.transaction_counter := by
      rw [hdb₁, hdb₀]
      rfl
    have h₃ := h₂.of_client
    rw [hclient₂, hcounter, hflags] at h₃
    obtain ⟨server_port, w₃, cs₅, cs₆, hportno, h₄, rfl⟩ := h₃.of_bind
    obtain ⟨hclient₃, hdb₃, hreplies₃, rfl⟩ := randomPort_does hportno
    obtain ⟨cs₇, rfl, h₅⟩ := h₄.of_sendReply.of_call rfl
    generalize env _ _ = answer at h₅ ⊢
    obtain ⟨rfl, hend⟩ := finishUpload_does h₅
    have hdb : w₃.db =
        { w.db.incrFid with transaction_counter := w.db.transaction_counter + 1 } := by
      rw [hdb₃, ← hdb₂, hcounter, hdb₁, hdb₀]
    refine ⟨hend.client_eq.trans (hclient₃.trans hclient₂), fun w₅ hclient hdb₅ hreplies => ?_⟩
    refine .active hport hmem ?_ ?_ ?_ hend hclient hdb₅ hreplies
    · exact hclient₃.trans hclient₂
    · exact hdb
    · exact congrArg (· ++ _) (hreplies₃.trans hreplies₂)

/-- The passive half of an upload. -/
theorem storePassive_does {iflags : OpenFlag} {msg : Option Reply}
    (hpasv : w.client.eDataConnection = .pasv) (hflags : iflags = w.client.CurrentTransfer.iflags)
    {w₀ : World} (hclient₀ : w₀.client = w.client) (hdb₀ : w₀.db = w.db.incrFid)
    (hreplies₀ : w₀.replies = w.replies)
    (h : Does env (storePassive cfg iflags w.db.nextFid) w₀ msg w' cs) (w₂ : World)
    (hclient : w₂.client = w'.client) (hdb : w₂.db = w'.db)
    (hreplies : w₂.replies = w'.replies ++ msg.toList) : StoreTurn cfg w w₂ cs := by
  have h₁ := h.of_client
  rw [hclient₀] at h₁
  by_cases hpret : w.client.nPRET_CMD ≠ some .stor ∧ w.client.nPRET_CMD ≠ some .appe
  · rw [if_pos hpret] at h₁
    obtain ⟨rfl, rfl, rfl⟩ := h₁.of_sendReply.of_ret
    refine .unnamed hpasv hpret.1 hpret.2 (hclient.trans hclient₀) (hdb.trans hdb₀) ?_
    rw [hreplies, Option.toList_none, List.append_nil]
    exact congrArg (· ++ _) hreplies₀
  · rw [if_neg hpret] at h₁
    have h₂ := h₁.of_client.of_client
    rw [hclient₀, hflags] at h₂
    obtain ⟨cs₁, rfl, h₃⟩ := h₂.of_call rfl
    generalize env _ _ = answer at h₃ ⊢
    obtain ⟨rfl, hend⟩ := finishUpload_does h₃
    refine .passive hpasv ?_ ?_ ?_ ?_ hend hclient hdb hreplies
    · rw [not_and_or, not_not, not_not] at hpret
      exact hpret
    · exact hclient₀
    · exact hdb₀
    · exact hreplies₀

theorem storeTransfer_does {u : Unit} (h : Does env (storeTransfer cfg) w u w' cs) :
    StoreTurn cfg w w' cs := by
  obtain ⟨fid, w₁, cs₁, cs₂, hfid, h₁, rfl⟩ := h.of_client.of_bind
  obtain ⟨hdraw, hw₁, rfl⟩ := hfid.of_redis
  have hdraw' : Outcome.done w.db.nextFid w.db.incrFid = .done fid w₁.db := hdraw
  rw [Outcome.done.injEq] at hdraw'
  obtain ⟨rfl, hdb₁⟩ := hdraw'
  have hclient₁ : w₁.client = w.client := by rw [hw₁]
  have hreplies₁ : w₁.replies = w.replies := by rw [hw₁]
  obtain ⟨msg, w₂, cs₃, cs₄, hactive, h₂, rfl⟩ := h₁.of_bind
  obtain ⟨msg', w₃, cs₅, cs₆, hpassive, hlast, rfl⟩ := h₂.of_bind
  obtain ⟨hw', rfl⟩ := sendLast_does hlast
  have hclient' : w'.client = w₃.client := by rw [hw']
  have hdb' : w'.db = w₃.db := by rw [hw']
  have hreplies' : w'.replies = w₃.replies ++ msg'.toList := by rw [hw']
  cases hconn : w.client.eDataConnection with
  | none =>
      obtain ⟨rfl, rfl, rfl⟩ := whenConnected_skips (by rw [hclient₁, hconn]; simp) hactive
      obtain ⟨rfl, rfl, rfl⟩ := whenPassive_skips (by rw [hclient₁, hconn]; simp) hpassive
      refine .unconnected hconn (hclient'.trans hclient₁) (hdb'.trans hdb₁.symm) ?_
      rw [hreplies', hreplies₁]
      rfl
  | port =>
      have hhalf := whenConnected_does (by rw [hclient₁, hconn]) hactive
      obtain ⟨hclient₂, hturn⟩ :=
        storeActive_does hconn rfl hclient₁ hdb₁.symm hreplies₁ hhalf
      obtain ⟨rfl, rfl, rfl⟩ := whenPassive_skips (by rw [hclient₂, hconn]; simp) hpassive
      have hcs : [] ++ (cs₃ ++ ([] ++ [])) = cs₃ := by simp
      rw [hcs]
      exact hturn w' hclient' hdb' hreplies'
  | pasv =>
      obtain ⟨rfl, rfl, rfl⟩ := whenConnected_skips (by rw [hclient₁, hconn]; simp) hactive
      have hhalf := whenConnected_does (by rw [hclient₁, hconn]) hpassive
      have hturn := storePassive_does hconn rfl hclient₁ hdb₁.symm hreplies₁ hhalf w' hclient' hdb'
        hreplies'
      rw [List.nil_append, List.nil_append, List.append_nil]
      exact hturn

/-! ### The database part of an upload -/

/-- The end of an upload is the record of the file, or nothing. -/
theorem UploadEnd.records {fid : ℤ} {slave : SlaveInfo} {answer : RpcResult StorRetVal}
    {msg : Option Reply} {user : UserEntry} (h : UploadEnd fid slave w w' answer msg)
    (huser : w.client.pUser = some user) : ∃ now result r,
      run serveRedis (recordFile now w.client.CurrentTransfer.szPath user.uid user.gid fid result)
        w.db = .done r w'.db := by
  cases h with
  | exception _ hdb _ =>
      refine ⟨0, none, none, ?_⟩
      rw [hdb]
      rfl
  | unrecorded _ _ _ hdb _ =>
      refine ⟨0, none, none, ?_⟩
      rw [hdb]
      rfl
  | recorded retval u now r hsize hu hrun _ _ =>
      have hsame : user = u := Option.some.inj (huser.symm.trans hu)
      subst hsame
      refine ⟨now, some (retval.size, slave), some r, ?_⟩
      rw [recordFile, if_pos hsize, run_bind, hrun]
      rfl

/-- What `StoreThread` does to the database is `storeThread`. -/
theorem StoreTurn.stores {user : UserEntry} (h : StoreTurn cfg w w' cs)
    (huser : w.client.pUser = some user) : ∃ newTransaction now transfer r,
      run serveRedis (storeThread newTransaction now w.client.CurrentTransfer.szPath user.uid
        user.gid transfer) w.db = .done r w'.db := by
  have hnothing : w'.db = w.db.incrFid → ∃ newTransaction now transfer r,
      run serveRedis (storeThread newTransaction now w.client.CurrentTransfer.szPath user.uid
        user.gid transfer) w.db = .done r w'.db := by
    intro hdb
    refine ⟨false, 0, fun _ => none, none, ?_⟩
    rw [hdb]
    rfl
  cases h with
  | unconnected _ _ hdb _ => exact hnothing hdb
  | noSlaves _ _ _ hdb _ => exact hnothing hdb
  | unnamed _ _ _ _ hdb _ => exact hnothing hdb
  | active _ _ hclient hdb _ hend _ hdb' _ =>
      obtain ⟨now, result, r, hrun⟩ := hend.records (by rw [hclient]; exact huser)
      refine ⟨true, now, fun _ => result, r, ?_⟩
      rw [hclient, hdb] at hrun
      rw [hdb']
      exact hrun
  | passive _ _ hclient hdb _ hend _ hdb' _ =>
      obtain ⟨now, result, r, hrun⟩ := hend.records (by rw [hclient]; exact huser)
      refine ⟨false, now, fun _ => result, r, ?_⟩
      rw [hclient, hdb] at hrun
      rw [hdb']
      exact hrun

/-- **The database part of an upload**: what `StoreThread` does to the database is what `storeFile`
does, where the command that looks at the path first has found it, or has found it free. -/
theorem storeTransfer_stores {cmd : UploadCmd} {user : UserEntry} {u : Unit}
    (huser : w.client.pUser = some user)
    (hlooked : cmd ≠ .stor → ∃ st,
      run serveRedis (stat w.client.CurrentTransfer.szPath) w.db = .done st w.db ∧
        (cmd = .stou → st = none))
    (h : Does env (storeTransfer cfg) w u w' cs) : ∃ newTransaction now transfer r,
      run serveRedis (storeFile cmd newTransaction now w.client.CurrentTransfer.szPath user.uid
        user.gid transfer) w.db = .done r w'.db := by
  obtain ⟨newTransaction, now, transfer, r, hrun⟩ := (storeTransfer_does h).stores huser
  refine ⟨newTransaction, now, transfer, r, ?_⟩
  cases cmd with
  | stor => exact hrun
  | appe =>
      obtain ⟨st, hstat, -⟩ := hlooked (by decide)
      rw [storeFile, run_bind, hstat]
      exact hrun
  | stou =>
      obtain ⟨st, hstat, hfree⟩ := hlooked (by decide)
      rw [storeFile, run_bind, hstat, hfree rfl]
      exact hrun

end ClusterFtpd
