import ClusterFtpd.DrawnFids
import ClusterFtpd.Privileges
import ClusterFtpd.SlaveServices
import ClusterFtpd.SlaveStore

/-!
# Uploads from the line to the record

An upload is a line of the control thread, the transfer thread that the line starts, and the slave
that serves the RPC of this thread.  `UploadRun` puts the two threads together; `Served` says what
the slaves answer them and which files the slaves then have.  Their replies to a connection are
those of the handler, by `openPasvDataConnection_answers`.

`UploadRun.outcome` lists how an upload ends: without an RPC, or with one RPC for the next fid,
whose file is recorded when the slave answers a size.

Main result: `failed_upload_iff`: when an upload that fails leaves the file system as it was.
-/

namespace ClusterFtpd

open Interaction MachineInt NameGraph

/-! ### The run of an upload -/

/-- The command word of an upload. -/
def UploadCmd.nCmd : UploadCmd → Cmd
  | .stor => .stor
  | .appe => .appe
  | .stou => .stou

/-- A run of `STOR`, `APPE` or `STOU` of `path`: the line, and the transfer thread if it is
started. -/
inductive UploadRun (cfg : Config) (cmd : UploadCmd) (pszCmdArg : Option Text) (path : Text)
    (w : World) : World → List Call → Prop where
  | alone {env : Env} {next : Next} {w' : World} :
      run (serveShell env) (dispatch cfg (some cmd.nCmd) pszCmdArg) w = .done next w' →
      ⟨.pthread_create .store, true⟩ ∉ lineCalls env (dispatch cfg (some cmd.nCmd) pszCmdArg) w →
      UploadRun cfg cmd pszCmdArg path w w'
        (lineCalls env (dispatch cfg (some cmd.nCmd) pszCmdArg) w)
  | threaded {env env' : Env} {next : Next} {w₁ w' : World} {cs : List Call} :
      run (serveShell env) (dispatch cfg (some cmd.nCmd) pszCmdArg) w = .done next w₁ →
      ⟨.pthread_create .store, true⟩ ∈ lineCalls env (dispatch cfg (some cmd.nCmd) pszCmdArg) w →
      w₁.client.CurrentTransfer.szPath = path →
      Does env' (storeTransfer cfg >>= fun _ => endTransfer) w₁ () w' cs →
      UploadRun cfg cmd pszCmdArg path w w'
        (lineCalls env (dispatch cfg (some cmd.nCmd) pszCmdArg) w ++ cs)

/-- An RPC that stores a file, with its answer. -/
structure UploadRpc where
  slave : SlaveInfo
  active : Bool
  fid : ℤ
  restart_at : ℤ
  transfer_buffer_size : ℕ
  iflags : OpenFlag
  answer : RpcResult StorRetVal

def Call.upload : Call → Option UploadRpc
  | ⟨.activeStoreTransfer slave p iflags, answer⟩ =>
      some { slave, active := true, fid := p.fid, restart_at := p.restart_at
             transfer_buffer_size := p.transfer_buffer_size, iflags, answer }
  | ⟨.pasvStoreTransfer slave p iflags, answer⟩ =>
      some { slave, active := false, fid := p.fid, restart_at := p.restart_at
             transfer_buffer_size := p.transfer_buffer_size, iflags, answer }
  | _ => none

/-- The RPCs that store files. -/
def uploads (cs : List Call) : List UploadRpc := cs.filterMap Call.upload

/-- The answer to `OpenPasvDataConnection`. -/
def Call.opened : Call → Option Reply
  | ⟨.openPasvDataConnection _ _, .reply r⟩ => some r
  | _ => none

/-- The code of the last reply of a run. -/
def finalCode (w w' : World) : Option ℕ :=
  (w'.replies.drop w.replies.length).getLast?.bind Reply.code

/-! ### The slaves -/

/-- The files of the slaves, by their fids. -/
abbrev Disks := SlaveInfo → ℤ → Option Bytes

/-- The files after one of them is written. -/
def Disks.put (disks : Disks) (slave : SlaveInfo) (fid : ℤ) (file : Option Bytes) : Disks :=
  fun slave' fid' => if slave' = slave ∧ fid' = fid then file else disks slave' fid'

/-- What the system answers a slave: to `Store`, to `OpenActiveDataConnection`, and whether the
passive data socket is one. -/
structure SlaveCalls extends StoreCalls where
  connects : Bool
  valid : Bool

/-- `ActiveStoreTransfer` and `PasvStoreTransfer`, over the file of the fid. -/
def UploadRpc.serve (x : UploadRpc) (s : SlaveCalls) (file : Option Bytes) :
    Option (StorRetVal × Option Bytes) :=
  if x.active ∧ ¬ s.connects then
    some ({ msg := .line 425 "Can't open data connection.", size := -1 }, file)
  else store s.toStoreCalls x.transfer_buffer_size x.restart_at x.iflags (x.active || s.valid) file

/-- The answers of `OpenPasvDataConnection`. -/
def openReplies : List Reply :=
  [.line 150 "Connection accepted.", .line 425 "Can't open data connection.", .empty]

theorem openReplies_code : ∀ r ∈ openReplies, r.code ≠ some 226 := by decide

/-- **The handler of the slave** answers `OpenPasvDataConnection` with one of these. -/
theorem openPasvDataConnection_answers {env : SlaveEnv} {p : PasvParams} {t t' : SlaveState}
    {r : Reply} (h : run (serveSlave env) (SlaveServices.openPasvDataConnection p) t = .done r t') :
    r ∈ openReplies := by
  have hreturns : ∀ {r' : Reply} {t₁ : SlaveState},
      run (serveSlave env) (.ret r' : SlaveProg Reply) t₁ = .done r t' → r = r' := by
    intro r' t₁ hret
    rw [run_ret, Outcome.done.injEq] at hret
    exact hret.1.symm
  obtain ⟨_, t₁, -, h₁⟩ := (run_bind_done _).mp h
  obtain ⟨_, t₂, -, h₂⟩ := (run_bind_done _).mp h₁
  obtain ⟨_, t₃, -, h₃⟩ := (run_bind_done _).mp h₂
  obtain ⟨readable, t₄, -, h₄⟩ := (run_bind_done _).mp h₃
  cases readable with
  | false =>
      rw [hreturns h₄]
      decide
  | true =>
      obtain ⟨_, t₅, -, h₅⟩ := (run_bind_done _).mp h₄
      obtain ⟨sTmpWs, t₆, -, h₆⟩ := (run_bind_done _).mp h₅
      obtain ⟨_, t₇, -, h₇⟩ := (run_bind_done _).mp h₆
      obtain ⟨_, t₈, -, h₈⟩ := (run_bind_done _).mp h₇
      obtain ⟨_, t₉, -, h₉⟩ := (run_bind_done _).mp h₈
      cases sTmpWs with
      | some fd =>
          rw [hreturns h₉]
          decide
      | none =>
          obtain ⟨_, t₁₀, -, h₁₀⟩ := (run_bind_done _).mp h₉
          rw [hreturns h₁₀]
          decide

/-- What the slaves answer, from their files to those they then have. -/
structure Served (s : SlaveCalls) (disks disks' : Disks) (cs : List Call) : Prop where
  stored : ∀ x ∈ uploads cs, ∀ retval, x.answer = .reply retval → x.slave.port.isSome = true ∧
    ∃ file', x.serve s (disks x.slave x.fid) = some (retval, file') ∧
      disks' = disks.put x.slave x.fid file'
  others : ∀ slave fid, (∀ x ∈ uploads cs, ¬ (slave = x.slave ∧ fid = x.fid)) →
    disks' slave fid = disks slave fid
  opened : ∀ c ∈ cs, ∀ r, c.opened = some r → r ∈ openReplies

variable {cfg : Config} {env : Env} {cmd : UploadCmd} {pszCmdArg : Option Text} {path : Text}
  {w w' : World} {cs : List Call}

/-! ### The line -/

theorem TransferView.Relays.uploads {v : TransferView} {os : List Reply} (h : v.Relays cs os) :
    uploads cs = [] := by
  cases h with
  | direct _ => rfl
  | relayed r _ => rfl

theorem OnlyCancels.uploads (h : OnlyCancels cs) : uploads cs = [] := by
  apply List.filterMap_eq_nil_iff.mpr
  intro c hc
  obtain ⟨op, res⟩ := c
  have hop : op = .pthread_cancel := h _ hc
  subst hop
  rfl

theorem uploads_append (cs cs' : List Call) : uploads (cs ++ cs') = uploads cs ++ uploads cs' :=
  List.filterMap_append

theorem StoreLine.uploads (h : StoreLine cmd pszCmdArg w w' cs) : uploads cs = [] := by
  cases h with
  | refused _ _ _ _ => rfl
  | unopened _ _ _ _ _ => rfl
  | started _ hrelays _ _ _ =>
      rw [uploads_append, hrelays.uploads]
      rfl
  | failed _ hrelays honly _ _ _ _ =>
      rw [uploads_append, hrelays.uploads]
      exact honly.uploads

/-- The line is refused before the command, or does what the command does. -/
theorem uploadLine_does {next : Next}
    (hrun : run (serveShell env) (dispatch cfg (some cmd.nCmd) pszCmdArg) w = .done next w') :
    (lineCalls env (dispatch cfg (some cmd.nCmd) pszCmdArg) w = [] ∧ w'.db = w.db ∧
      ∃ r : Reply, w'.replies = w.replies ++ [r] ∧ r.code ≠ some 226) ∨
      StoreLine cmd pszCmdArg w w' (lineCalls env (dispatch cfg (some cmd.nCmd) pszCmdArg) w) := by
  have hquit : cmd.nCmd ≠ .quit := by cases cmd <;> decide
  have huser : cmd.nCmd ≠ .user := by cases cmd <;> decide
  have hpass : cmd.nCmd ≠ .pass := by cases cmd <;> decide
  cases hlogged : w.client.bIsLogged with
  | false =>
      left
      refine ⟨(line_not_logged hlogged hrun).2, ?_⟩
      rw [dispatch_gate hquit huser hpass, run_command_client_bind, hlogged,
        if_neg Bool.false_ne_true] at hrun
      have hend : Outcome.done _ _ = Outcome.done next w' := hrun
      rw [Outcome.done.injEq] at hend
      rw [← hend.2]
      exact ⟨rfl, _, rfl, by decide⟩
  | true =>
      have hnot : cmd.nCmd ∉ [Cmd.quit, .user, .pass, .cwd, .xcwd, .cdup, .xcup] := by
        cases cmd <;> decide
      have hshell := does_of_dispatch hnot hlogged hrun
      have hgate : Does env (withPrivilege WRITEFILE (discard (cmdStore cmd pszCmdArg))) w () w'
          (lineCalls env (dispatch cfg (some cmd.nCmd) pszCmdArg) w) := by
        cases cmd with
        | stor => exact hshell
        | appe => exact hshell
        | stou => exact hshell
      have h₁ := hgate.of_client
      by_cases hpriv : w.client.checkPrivileges WRITEFILE = true
      · rw [if_pos hpriv] at h₁
        obtain ⟨ok, w₁, cs₁, cs₂, h₂, hret, hcs⟩ := h₁.of_bind
        obtain ⟨-, hend, hnil⟩ := hret.of_ret
        rw [hcs, hnil, List.append_nil, hend]
        exact .inr (storeLine_does h₂)
      · rw [if_neg hpriv] at h₁
        obtain ⟨hend, hnil⟩ := h₁.of_reply
        rw [hend, hnil]
        exact .inl ⟨rfl, rfl, _, rfl, by decide⟩

/-! ### The outcome -/

/-- The same files, under the same names. -/
structure SameFiles (db db' : Redis) : Prop where
  dirent : db'.dirent = db.dirent
  stat : db'.stat = db.stat

/-- The same files, and the next fid is drawn. -/
structure FidTaken (db db' : Redis) : Prop extends SameFiles db db' where
  fid_counter : db'.fid_counter = db.fid_counter + 1

/-- The RPC is the one for the next file. -/
structure UploadRpc.Asked (x : UploadRpc) (cfg : Config) (cmd : UploadCmd) (path : Text)
    (w : World) : Prop where
  active : x.active = true ↔ w.client.eDataConnection = .port
  fid : x.fid = w.db.nextFid
  restart_at : x.restart_at = w.startOffset cmd path
  transfer_buffer_size : x.transfer_buffer_size = cfg.uiTransferBufferSize
  iflags : x.iflags = if 0 < x.restart_at then .append else .trunc

/-- How an upload ends: without an RPC, or with one that is answered by an exception, by no size,
or by the size of a file, which is then recorded. -/
inductive UploadOutcome (cfg : Config) (cmd : UploadCmd) (path : Text) (w w' : World)
    (cs : List Call) : Prop where
  | idle : uploads cs = [] → SameFiles w.db w'.db → w.db.fid_counter ≤ w'.db.fid_counter →
      ((∀ c ∈ cs, ∀ r, c.opened = some r → r.code ≠ some 226) → finalCode w w' ≠ some 226) →
      UploadOutcome cfg cmd path w w' cs
  | exception (x : UploadRpc) : uploads cs = [x] → x.Asked cfg cmd path w →
      x.answer = .exception → FidTaken w.db w'.db → finalCode w w' = some 550 →
      UploadOutcome cfg cmd path w w' cs
  | unrecorded (x : UploadRpc) (retval : StorRetVal) : uploads cs = [x] →
      x.Asked cfg cmd path w → x.answer = .reply retval → retval.size < 0 →
      FidTaken w.db w'.db → finalCode w w' = retval.msg.code → UploadOutcome cfg cmd path w w' cs
  | recorded (x : UploadRpc) (retval : StorRetVal) (uid gid : ℕ) (now r : ℤ) (db : Redis) :
      uploads cs = [x] → x.Asked cfg cmd path w → x.answer = .reply retval → 0 ≤ retval.size →
      FidTaken w.db db →
      run serveRedis (saveNewFile now path
        { size := retval.size, uid, gid, fid := x.fid, slave := x.slave }) db = .done r w'.db →
      finalCode w w' = retval.msg.code → UploadOutcome cfg cmd path w w' cs

theorem finalCode_of_append {rs : List Reply} (h : w'.replies = w.replies ++ rs) :
    finalCode w w' = rs.getLast?.bind Reply.code := by
  unfold finalCode
  rw [h, List.drop_left]

theorem finalCode_of_last {rs : List Reply} {r : Reply} (h : w'.replies = w.replies ++ rs ++ [r]) :
    finalCode w w' = r.code := by
  rw [List.append_assoc] at h
  rw [finalCode_of_append h, List.getLast?_concat]
  rfl

/-- The thread after its RPC. -/
theorem UploadEnd.outcome {x : UploadRpc} {rs : List Reply} {w₁ w₂ : World} {msg : Option Reply}
    (h : UploadEnd x.fid x.slave w₁ w₂ x.answer msg) (hx : x.Asked cfg cmd path w)
    (hcs : uploads cs = [x]) (hpath : w₁.client.CurrentTransfer.szPath = path)
    (hsame : FidTaken w.db w₁.db) (hreplies : w₁.replies = w.replies ++ rs) (hdb : w'.db = w₂.db)
    (hlast : w'.replies = w₂.replies ++ msg.toList) : UploadOutcome cfg cmd path w w' cs := by
  generalize hanswer : x.answer = answer at h
  cases h with
  | exception _ hdb₂ hreplies₂ =>
      refine .exception x hcs hx hanswer ?_ ?_
      · rw [hdb, hdb₂]
        exact hsame
      · rw [hreplies₂, hreplies, Option.toList_none, List.append_nil] at hlast
        exact finalCode_of_last hlast
  | unrecorded retval hsize _ hdb₂ hreplies₂ =>
      refine .unrecorded x retval hcs hx hanswer hsize ?_ ?_
      · rw [hdb, hdb₂]
        exact hsame
      · rw [hreplies₂, hreplies, Option.toList_some] at hlast
        exact finalCode_of_last hlast
  | recorded retval u now r hsize _ hrun _ hreplies₂ =>
      rw [← hdb, hpath] at hrun
      refine .recorded x retval u.uid u.gid now r w₁.db hcs hx hanswer hsize hsame hrun ?_
      rw [hreplies₂, hreplies, Option.toList_some] at hlast
      exact finalCode_of_last hlast

theorem finalCode_ne {rs : List Reply} (h : w'.replies = w.replies ++ rs)
    (hrs : ∀ r ∈ rs, r.code ≠ some 226) : finalCode w w' ≠ some 226 := by
  rw [finalCode_of_append h]
  cases hlast : rs.getLast? with
  | none =>
      intro hnone
      cases hnone
  | some r => exact hrs r (List.mem_of_getLast? hlast)

theorem UploadName.code_ne {rs : List Reply} (h : UploadName cmd pszCmdArg w path rs) :
    ∀ r ∈ rs, r.code ≠ some 226 := by
  intro r hr
  cases h with
  | asked _ _ => cases hr
  | made szName _ _ _ =>
      rw [List.mem_singleton.mp hr]
      show some 150 ≠ some 226
      decide

theorem TransferView.Relays.opened {v : TransferView} {os : List Reply} (h : v.Relays cs os) :
    ∀ r ∈ os, ∃ c ∈ cs, c.opened = some r := by
  intro r hr
  cases h with
  | direct _ => cases hr
  | relayed r' _ =>
      rw [List.mem_singleton.mp hr]
      exact ⟨_, List.mem_singleton_self _, rfl⟩

theorem UploadOutcome.congr {w₁ : World} (h : UploadOutcome cfg cmd path w w₁ cs)
    (hdb : w'.db = w₁.db) (hreplies : w'.replies = w₁.replies) :
    UploadOutcome cfg cmd path w w' cs := by
  have hcode : finalCode w w' = finalCode w w₁ := by
    unfold finalCode
    rw [hreplies]
  cases h with
  | idle hnone hsame hle hne =>
      rw [← hdb] at hsame hle
      rw [← hcode] at hne
      exact .idle hnone hsame hle hne
  | exception x hone hx hanswer hsame hfinal =>
      rw [← hdb] at hsame
      rw [← hcode] at hfinal
      exact .exception x hone hx hanswer hsame hfinal
  | unrecorded x retval hone hx hanswer hsize hsame hfinal =>
      rw [← hdb] at hsame
      rw [← hcode] at hfinal
      exact .unrecorded x retval hone hx hanswer hsize hsame hfinal
  | recorded x retval uid gid now r db hone hx hanswer hsize hsame hrun hfinal =>
      rw [← hdb] at hrun
      rw [← hcode] at hfinal
      exact .recorded x retval uid gid now r db hone hx hanswer hsize hsame hrun hfinal

/-- A line that starts its thread has left it the path, the offset and the database. -/
theorem StoreLine.of_started (h : StoreLine cmd pszCmdArg w w' cs)
    (hstart : ⟨.pthread_create .store, true⟩ ∈ cs) : ∃ (path : Text) (rs : List Reply),
    UploadName cmd pszCmdArg w path rs ∧ w'.client = { w.client with
      eStatus := .uploading
      CurrentTransfer := { w.client.CurrentTransfer with
        RestartAt := w.startOffset cmd path, szPath := path, TransferThreadID := true } } ∧
    w'.db = w.db ∧ ∃ rs', w'.replies = w.replies ++ rs' := by
  cases h with
  | refused _ _ _ _ => cases hstart
  | unopened _ _ _ _ _ =>
      rw [List.mem_singleton, TransferView.opening, Call.mk.injEq] at hstart
      exact absurd hstart.1 (by simp)
  | started hname _ hclient hdb hreplies =>
      rw [List.append_assoc] at hreplies
      exact ⟨_, _, hname, hclient, hdb, _, hreplies⟩
  | failed _ hrelays honly _ _ _ _ =>
      rw [List.mem_append, List.mem_cons] at hstart
      rcases hstart with hopening | hfails | hcancel
      · exact absurd hopening (hrelays.opens.not_create .store true)
      · simp at hfails
      · exact absurd hcancel (honly.not_create .store true)

/-- A line that starts no thread. -/
theorem StoreLine.outcome (h : StoreLine cmd pszCmdArg w w' cs)
    (hno : ⟨.pthread_create .store, true⟩ ∉ cs) : UploadOutcome cfg cmd path w w' cs := by
  have hnone := h.uploads
  have hsame : w'.db = w.db → SameFiles w.db w'.db ∧ w.db.fid_counter ≤ w'.db.fid_counter := by
    intro hdb
    rw [hdb]
    exact ⟨⟨rfl, rfl⟩, Nat.le_refl _⟩
  cases h with
  | refused hrs _ hdb hreplies =>
      refine .idle hnone (hsame hdb).1 (hsame hdb).2 fun _ => finalCode_ne hreplies ?_
      intro r hr
      rcases hrs with hnil | hwrong
      · rw [hnil] at hr
        cases hr
      · rw [hwrong, List.mem_singleton] at hr
        rw [hr]
        decide
  | unopened hname _ _ hdb hreplies =>
      refine .idle hnone (hsame hdb).1 (hsame hdb).2 fun _ => ?_
      rw [finalCode_of_last hreplies]
      decide
  | started _ _ _ _ _ => exact absurd (List.mem_append_right _ (List.mem_singleton_self _)) hno
  | failed hname hrelays _ _ _ hdb hreplies =>
      refine .idle hnone (hsame hdb).1 (hsame hdb).2 fun hopened => ?_
      rw [List.append_assoc] at hreplies
      apply finalCode_ne hreplies
      intro r hr
      rcases List.mem_append.mp hr with hfile | hrelayed
      · exact hname.code_ne r hfile
      · obtain ⟨c, hc, hcr⟩ := hrelays.opened r hrelayed
        exact hopened c (List.mem_append_left _ hc) r hcr

/-- The thread of an upload, behind its line. -/
theorem StoreTurn.outcome {w₁ : World} {rs : List Reply} {cs₁ : List Call}
    (h : StoreTurn cfg w₁ w' cs) (hpath : w₁.client.CurrentTransfer.szPath = path)
    (hoffset : w₁.client.CurrentTransfer.RestartAt = w.startOffset cmd path)
    (hconn : w₁.client.eDataConnection = w.client.eDataConnection)
    (hdb : w₁.db = w.db) (hreplies : w₁.replies = w.replies ++ rs) (hline : uploads cs₁ = []) :
    UploadOutcome cfg cmd path w w' (cs₁ ++ cs) := by
  have hnext : w₁.db.nextFid = w.db.nextFid := by rw [hdb]
  have hdrawn : w'.db = w₁.db.incrFid →
      SameFiles w.db w'.db ∧ w.db.fid_counter ≤ w'.db.fid_counter := by
    intro hdb'
    rw [hdb', hdb]
    exact ⟨⟨rfl, rfl⟩, Nat.le_succ _⟩
  have hone : uploads (cs₁ ++ cs) = uploads cs := by rw [uploads_append, hline, List.nil_append]
  have hflags : w₁.client.CurrentTransfer.iflags =
      if 0 < w₁.client.CurrentTransfer.RestartAt then .append else .trunc := rfl
  cases h with
  | unconnected _ _ hdb' hreplies' =>
      rw [hreplies] at hreplies'
      refine .idle hone (hdrawn hdb').1 (hdrawn hdb').2 fun _ => ?_
      rw [finalCode_of_last hreplies']
      decide
  | noSlaves _ _ _ hdb' hreplies' =>
      rw [hreplies, List.append_assoc] at hreplies'
      refine .idle hone (hdrawn hdb').1 (hdrawn hdb').2 fun _ => ?_
      rw [finalCode_of_append hreplies', List.getLast?_append]
      show (none : Option ℕ) ≠ some 226
      decide
  | unnamed _ _ _ _ hdb' hreplies' =>
      rw [hreplies] at hreplies'
      refine .idle hone (hdrawn hdb').1 (hdrawn hdb').2 fun _ => ?_
      rw [finalCode_of_last hreplies']
      decide
  | @active slave port answer msg w₂ w₃ hkind _ hclient hdb₂ hreplies₂ hend _ hdb' hreplies' =>
      have hsame : FidTaken w.db w₂.db := by
        rw [hdb₂, hdb]
        exact ⟨⟨rfl, rfl⟩, rfl⟩
      rw [hreplies, List.append_assoc] at hreplies₂
      let x : UploadRpc :=
        { slave, active := true, fid := w₁.db.nextFid
          restart_at := w₁.client.CurrentTransfer.RestartAt
          transfer_buffer_size := cfg.uiTransferBufferSize
          iflags := w₁.client.CurrentTransfer.iflags, answer }
      have hactive : x.active = true ↔ w.client.eDataConnection = .port :=
        iff_of_true rfl (hconn.symm.trans hkind)
      have hx : x.Asked cfg cmd path w := ⟨hactive, hnext, hoffset, rfl, hflags⟩
      have hend' : UploadEnd x.fid x.slave w₂ w₃ x.answer msg := hend
      apply hend'.outcome hx hone _ hsame hreplies₂ hdb' hreplies'
      rw [hclient]
      exact hpath
  | @passive answer msg w₂ w₃ hkind _ hclient hdb₂ hreplies₂ hend _ hdb' hreplies' =>
      have hsame : FidTaken w.db w₂.db := by
        rw [hdb₂, hdb]
        exact ⟨⟨rfl, rfl⟩, rfl⟩
      rw [hreplies] at hreplies₂
      let x : UploadRpc :=
        { slave := w₁.client.SlaveInfo, active := false, fid := w₁.db.nextFid
          restart_at := w₁.client.CurrentTransfer.RestartAt
          transfer_buffer_size := cfg.uiTransferBufferSize
          iflags := w₁.client.CurrentTransfer.iflags, answer }
      have hactive : x.active = true ↔ w.client.eDataConnection = .port := by
        rw [← hconn, hkind]
        exact iff_of_false Bool.false_ne_true DataConnection.noConfusion
      have hx : x.Asked cfg cmd path w := ⟨hactive, hnext, hoffset, rfl, hflags⟩
      have hend' : UploadEnd x.fid x.slave w₂ w₃ x.answer msg := hend
      apply hend'.outcome hx hone _ hsame hreplies₂ hdb' hreplies'
      rw [hclient]
      exact hpath

/-- **An upload** ends in one of these ways. -/
theorem UploadRun.outcome (h : UploadRun cfg cmd pszCmdArg path w w' cs) :
    UploadOutcome cfg cmd path w w' cs := by
  cases h with
  | @alone env next _ hrun hno =>
      rcases uploadLine_does hrun with ⟨hnil, hdb, r, hreplies, hcode⟩ | hline
      · refine .idle ?_ ?_ ?_ fun _ => finalCode_ne hreplies ?_
        · rw [hnil]
          rfl
        · rw [hdb]
          exact ⟨rfl, rfl⟩
        · rw [hdb]
        · intro r' hr'
          rw [List.mem_singleton.mp hr']
          exact hcode
      · exact hline.outcome hno
  | @threaded env env' next w₁ _ cs₂ hrun hstart hpath hthread =>
      obtain ⟨u, w₂, cs₃, cs₄, hstore, hend, hcs⟩ := hthread.of_bind
      obtain ⟨-, hdb, hreplies⟩ := reset_transfer hend
      have hquiet : cs₄ = [] := by
        obtain ⟨-, hcalls⟩ := reset_calls hend
        rw [hcalls, if_neg]
        exact fun hwait => Bool.false_ne_true hwait.2
      rcases uploadLine_does hrun with ⟨hnil, -, -⟩ | hline
      · rw [hnil] at hstart
        cases hstart
      have hnone := hline.uploads
      obtain ⟨path', rs, -, hclient, hdb₁, rs', hreplies₁⟩ := hline.of_started hstart
      have hpath' : path' = path := by
        rw [← hpath, hclient]
      have hoffset : w₁.client.CurrentTransfer.RestartAt = w.startOffset cmd path := by
        rw [hclient, hpath']
      have hconn : w₁.client.eDataConnection = w.client.eDataConnection := by rw [hclient]
      have hthread :=
        (storeTransfer_does hstore).outcome hpath hoffset hconn hdb₁ hreplies₁ hnone
      rw [hcs, hquiet, List.append_nil]
      exact hthread.congr hdb hreplies

/-! ### The lookups before and after -/

/-- Every lookup answers as before. -/
structure SameAnswers (db db' : Redis) : Prop where
  fid : ∀ q, ask (lookupFid q) db' = ask (lookupFid q) db
  status : ∀ q, ask (stat q) db' = ask (stat q) db
  slave : ∀ q, ask (lookupSlaveInfo q) db' = ask (lookupSlaveInfo q) db

/-- `lookup_fid` is the loop over some names, or undefined. -/
theorem lookupFid_form (q : Text) :
    (∃ ns, lookupFid q = lookupWalk 0 ns) ∨ lookupFid q = .stop .undefinedBehaviour := by
  unfold lookupFid
  split_ifs
  · exact .inl ⟨[], rfl⟩
  · cases lookupTokens q with
    | none => exact .inr rfl
    | some ts => exact .inl ⟨ts, rfl⟩

theorem SameFiles.lookup_bind {α : Type} {db db' : Redis} (h : SameFiles db db')
    {f : ℤ → RedisProg α} (hf : ∀ fid, ask (f fid) db' = ask (f fid) db) (q : Text) :
    ask (lookupFid q >>= f) db' = ask (lookupFid q >>= f) db := by
  unfold ask
  rcases lookupFid_form q with ⟨ns, hwalk⟩ | hundefined
  · rw [run_lookup_bind hwalk, run_lookup_bind hwalk, lookupResult_congr h.dirent]
    cases lookupResult db 0 ns with
    | none => rfl
    | some fid => exact hf fid
  · rw [run_lookup_undefined hundefined, run_lookup_undefined hundefined]
    rfl

theorem SameFiles.stat_bind {α : Type} {db db' : Redis} (h : SameFiles db db')
    {f : StatHash → RedisProg α} (hf : ∀ reply, ask (f reply) db' = ask (f reply) db) (k : ℕ) :
    ask (Prog.op (I := RedisI) (.hgetallStat k) >>= f) db' =
      ask (Prog.op (I := RedisI) (.hgetallStat k) >>= f) db := by
  show ask (f (db'.stat k)) db' = ask (f (db.stat k)) db
  rw [h.stat]
  exact hf _

/-- The lookups read the files and their names only. -/
theorem SameFiles.answers {db db' : Redis} (h : SameFiles db db') : SameAnswers db db' := by
  have hslave : ∀ fid, ask (lookupSlaveInfoFid fid) db' = ask (lookupSlaveInfoFid fid) db := by
    intro fid
    apply h.stat_bind
    intro reply
    split_ifs <;> rfl
  refine ⟨ask_lookupFid_congr h.dirent, ?_, fun q => h.lookup_bind hslave q⟩
  apply h.lookup_bind
  intro fid
  split_ifs
  · rfl
  · apply h.stat_bind
    intro reply
    split_ifs <;> rfl

/-! ### What the slave answers -/

variable {s : SlaveCalls} {disks disks' : Disks} {x : UploadRpc} {retval : StorRetVal}
  {file file' : Option Bytes}

/-- The slave has a file at the end: `stat` succeeds, and the file is there or was opened. -/
def SlaveCalls.LeavesFile (s : SlaveCalls) (x : UploadRpc) (file : Option Bytes) : Prop :=
  (x.active = true → s.connects = true) ∧ s.statOk = true ∧
    (s.openOk = true ∨ file.isSome = true)

/-- The file is not opened, or the connection does not come to its end with every full buffer
written. -/
def SlaveCalls.BreaksOff (s : SlaveCalls) (x : UploadRpc) : Prop :=
  s.openOk = false ∨ s.Seeks x.restart_at ∧ (x.active || s.valid) = true ∧
    ¬ Arrives s.toStoreCalls x.transfer_buffer_size

/-- What was opened, to be written from the offset. -/
abbrev UploadRpc.start (x : UploadRpc) (file : Option Bytes) : OpenFile :=
  { openFile x.iflags file with offset := x.restart_at.toNat }

/-- The loop of `Store` is reached. -/
def SlaveCalls.Loops (s : SlaveCalls) (x : UploadRpc) : Prop :=
  s.Seeks x.restart_at ∧ (x.active || s.valid) = true

/-- **How an RPC of an upload ends**: without a connection, without a file, in the loop, at the end
of the connection, or without the loop. -/
inductive ServeEnd (s : SlaveCalls) (x : UploadRpc) (file : Option Bytes) :
    StorRetVal → Option Bytes → Prop where
  | refused : ¬ (x.active = true → s.connects = true) →
      ServeEnd s x file { msg := .line 425 "Can't open data connection.", size := -1 } file
  | closed : (x.active = true → s.connects = true) → s.openOk = false →
      ServeEnd s x file { msg := .line 550 "Can't store file.", size := s.found file } file
  | broken (g : OpenFile) : (x.active = true → s.connects = true) → s.openOk = true → s.Loops x →
      ¬ Arrives s.toStoreCalls x.transfer_buffer_size →
      ServeEnd s x file { msg := .line 550 "Can't store file.", size := s.found (some g.content) }
        (some g.content)
  | ended (g : OpenFile) (m : ℕ) : (x.active = true → s.connects = true) → s.openOk = true →
      s.Loops x → Arrives s.toStoreCalls x.transfer_buffer_size →
      g.content = (openFile x.iflags file).content ++ s.incoming.take m →
      (g.content = (openFile x.iflags file).content ++ s.incoming ↔
        Delivers s.toStoreCalls x.transfer_buffer_size) →
      ServeEnd s x file { msg := storedMsg, size := s.found (some g.content) } (some g.content)
  | idle : (x.active = true → s.connects = true) → s.openOk = true → ¬ s.Loops x →
      ServeEnd s x file
        { msg := storedMsg, size := s.found (some (openFile x.iflags file).content) }
        (some (openFile x.iflags file).content)

/-- The loop that comes to the end leaves a part of the stream behind the file. -/
theorem storeLoop_taken (x : StoreCalls) (B : ℕ) {f g : OpenFile} (hf : f.AtEnd)
    (h : storeLoop x B [] f 0 0 x.incoming = some (true, g)) :
    ∃ m, g.content = f.content ++ x.incoming.take m := by
  rcases Nat.eq_zero_or_pos B with hzero | hB
  · have hkept : g = f := by
      rw [hzero, storeLoop_zero] at h
      by_cases hin : x.incoming = []
      · rw [if_pos hin] at h
        cases hend : x.ending with
        | eof =>
            rw [hend, Option.some.injEq, Prod.mk.injEq] at h
            exact h.2.symm
        | recvFails => simp [hend] at h
        | selectFails => simp [hend] at h
        | never => simp [hend] at h
      · rw [if_neg hin, Option.some.injEq, Prod.mk.injEq] at h
        exact h.2.symm
    exact ⟨0, by rw [hkept, List.take_zero, List.append_nil]⟩
  · have hspec := storeLoop_spec x hB [] f 0 0 x.incoming hB hf
    rw [h, List.nil_append] at hspec
    cases hspec with
    | ended _ m _ _ _ hcontent _ => exact ⟨_, hcontent⟩

/-- The flags of an upload open its file at the end: behind what is there, or empty. -/
theorem atEnd_of_flags (hflags : x.iflags = if 0 < x.restart_at then .append else .trunc) :
    (x.start file).AtEnd := by
  show OpenFile.AtEnd { openFile x.iflags file with offset := x.restart_at.toNat }
  rw [hflags]
  by_cases hpos : 0 < x.restart_at
  · rw [if_pos hpos]
    exact .inl rfl
  · rw [if_neg hpos]
    right
    show x.restart_at.toNat = 0
    omega

theorem serve_ends (hflags : x.iflags = if 0 < x.restart_at then .append else .trunc)
    (h : x.serve s file = some (retval, file')) : ServeEnd s x file retval file' := by
  unfold UploadRpc.serve at h
  by_cases hrefused : x.active = true ∧ ¬ s.connects = true
  · rw [if_pos hrefused, Option.some.injEq, Prod.mk.injEq] at h
    rw [← h.1, ← h.2]
    exact .refused fun hconnects => hrefused.2 (hconnects hrefused.1)
  rw [if_neg hrefused] at h
  have hconnects : x.active = true → s.connects = true := by
    intro hactive
    by_contra hno
    exact hrefused ⟨hactive, hno⟩
  cases hopen : s.openOk with
  | false =>
      rw [store_closed hopen, Option.some.injEq, Prod.mk.injEq] at h
      rw [← h.1, ← h.2]
      exact .closed hconnects hopen
  | true =>
      by_cases hloops : s.Loops x
      · rw [store_looped hopen hloops.1 hloops.2, Option.map_eq_some_iff] at h
        obtain ⟨r, hloop, hr⟩ := h
        have hstart : (x.start file).AtEnd := atEnd_of_flags hflags
        rcases storeLoop_cases s.toStoreCalls x.transfer_buffer_size hstart with
          ⟨hnone, -⟩ | ⟨g, hfailed, -, hno⟩ | ⟨g, hended, -, harrives, hall⟩
        · rw [hnone] at hloop
          cases hloop
        · rw [hfailed, Option.some.injEq] at hloop
          rw [← hloop, Prod.mk.injEq] at hr
          rw [← hr.1, ← hr.2]
          exact .broken g hconnects hopen hloops hno
        · obtain ⟨m, htaken⟩ :=
            storeLoop_taken s.toStoreCalls x.transfer_buffer_size hstart hended
          rw [hended, Option.some.injEq] at hloop
          rw [← hloop, Prod.mk.injEq] at hr
          rw [← hr.1, ← hr.2]
          exact .ended g m hconnects hopen hloops harrives htaken hall
      · rw [store_idle hopen hloops, Option.some.injEq, Prod.mk.injEq] at h
        rw [← h.1, ← h.2]
        exact .idle hconnects hopen hloops

theorem found_nonneg {x : StoreCalls} :
    0 ≤ x.found file ↔ x.statOk = true ∧ file.isSome = true := by
  unfold StoreCalls.found
  cases x.statOk with
  | false => simp
  | true =>
      cases file with
      | none => simp
      | some b => simp

/-- There is a size when the slave has a file at the end. -/
theorem ServeEnd.size (h : ServeEnd s x file retval file') :
    0 ≤ retval.size ↔ s.LeavesFile x file := by
  unfold SlaveCalls.LeavesFile
  cases h with
  | refused hrefused =>
      refine iff_of_false ?_ fun hleaves => hrefused hleaves.1
      show ¬ (0 : ℤ) ≤ -1
      omega
  | closed hconnects hopen =>
      rw [found_nonneg, hopen, and_iff_right hconnects]
      simp
  | broken g hconnects hopen _ _ =>
      rw [found_nonneg, hopen, and_iff_right hconnects]
      simp
  | ended g m hconnects hopen _ _ _ _ =>
      rw [found_nonneg, hopen, and_iff_right hconnects]
      simp
  | idle hconnects hopen _ =>
      rw [found_nonneg, hopen, and_iff_right hconnects]
      simp

/-- The slave answers 226 unless the upload breaks off. -/
theorem ServeEnd.code (h : ServeEnd s x file retval file')
    (hconnects : x.active = true → s.connects = true) :
    retval.msg.code = some 226 ↔ ¬ s.BreaksOff x := by
  have hrefusal : (Reply.line 550 "Can't store file.").code ≠ some 226 := by decide
  cases h with
  | refused hrefused => exact absurd hconnects hrefused
  | closed _ hopen => exact iff_of_false hrefusal fun hno => hno (.inl hopen)
  | broken g _ _ hloops hno =>
      exact iff_of_false hrefusal fun hnot => hnot (.inr ⟨hloops.1, hloops.2, hno⟩)
  | ended g m _ hopen _ harrives _ _ =>
      refine iff_of_true rfl ?_
      intro hbreaks
      rcases hbreaks with hclosed | ⟨-, -, hno⟩
      · rw [hopen] at hclosed
        cases hclosed
      · exact hno harrives
  | idle _ hopen hidle =>
      refine iff_of_true rfl ?_
      intro hbreaks
      rcases hbreaks with hclosed | ⟨hseeks, hvalid, -⟩
      · rw [hopen] at hclosed
        cases hclosed
      · exact hidle ⟨hseeks, hvalid⟩

/-! ### Failed uploads -/

/-- The path of an upload that comes to its RPC is one that `BuildPath` returns. -/
theorem UploadRun.built (h : UploadRun cfg cmd pszCmdArg path w w' cs) (hne : uploads cs ≠ []) :
    ∃ arg, w.client.buildPath arg = some path := by
  cases h with
  | alone hrun hno =>
      rcases uploadLine_does hrun with ⟨hnil, -, -⟩ | hline
      · rw [hnil] at hne
        exact absurd rfl hne
      · exact absurd hline.uploads hne
  | @threaded _ _ _ w₁ _ _ hrun hstart hpath _ =>
      rcases uploadLine_does hrun with ⟨hnil, -, -⟩ | hline
      · rw [hnil] at hstart
        cases hstart
      · obtain ⟨path', rs, hname, hclient, -, -⟩ := hline.of_started hstart
        have hpath' : path' = path := by
          rw [← hpath, hclient]
        rw [← hpath']
        cases hname with
        | asked _ hbuild => exact ⟨_, hbuild⟩
        | made szName _ hbuild _ => exact ⟨_, hbuild⟩

/-- What `save_new_file` does with the next fid: nothing, or one entry and one record. -/
theorem UploadRpc.Asked.saves {file : FileRecord} {now r : ℤ} {db : Redis}
    (hx : x.Asked cfg cmd path w) (hfile : file.fid = x.fid)
    (hcounter : w.db.fid_counter + 1 < 4294967296) (htaken : FidTaken w.db db)
    (hrun : run serveRedis (saveNewFile now path file) db = .done r w'.db) :
    (w'.db = db ∧ ∃ fid < 0, ask (lookupFid (parentPath path)) w.db = some fid) ∨
      ∃ f : ℕ, ask (lookupFid (parentPath path)) w.db = some (f : ℤ) ∧
        w'.db.dirent =
          setEntry w.db.dirent f (entryName path) ((w.db.fid_counter + 1 : ℕ) : ℤ) ∧
        w'.db.stat = Function.update w.db.stat (w.db.fid_counter + 1) (saveStat now file) ∧
        w'.db.fid_counter = w.db.fid_counter + 1 := by
  have hfid : u32 file.fid = w.db.fid_counter + 1 := by
    rw [hfile, hx.fid]
    exact u32_natCast hcounter
  rw [← htaken.toSameFiles.answers.fid]
  rcases saveNewFile_done hrun with hnowhere | ⟨f, hf, hlt, hsaved⟩
  · exact .inl hnowhere
  refine .inr ⟨f, hf, ?_, ?_, ?_⟩
  · rw [hsaved, saveWrites_dirent, htaken.dirent, hfid, u32_natCast (by omega)]
  · rw [hsaved, saveWrites_stat, htaken.stat, hfid]
  · rw [hsaved, applyAll_fid_counter, htaken.fid_counter]

/-- Two slashes: the entry of the root without a name. -/
theorem lookupFid_slashes : lookupFid ['/', '/'] = lookupWalk 0 [[]] := by
  have hpieces : PathComponents.pieces '/' ['/', '/'] = [] :: [[], []] := rfl
  exact lookupFid_of_pieces hpieces (List.cons_ne_nil _ _)

/-- What is stored under the next fid is found where it was not found before. -/
theorem not_sameAnswers_of_saved {db db' : Redis} {f : ℕ} (hdrawn : FidsDrawn db)
    (hcounter : db.fid_counter + 1 < 2147483648)
    (hpath : BarePath path ∨ ∃ names parent entry, Addresses path names parent entry)
    (hf : ask (lookupFid (parentPath path)) db = some (f : ℤ))
    (hd : db'.dirent = setEntry db.dirent f (entryName path) ((db.fid_counter + 1 : ℕ) : ℤ)) :
    ¬ SameAnswers db db' := by
  intro hsame
  rcases hpath with hbare | ⟨names, parent, entry, ha⟩
  · rw [ask, hbare.lookup_parent] at hf
    cases hf
  have hparent : ask (lookupFid (parentPath path)) db' = some (f : ℤ) :=
    (hsame.fid _).trans hf
  rw [ask_lookupFid_natCast ha.lookup_parent] at hparent
  have hnext : lookupResult db' 0 (parent ++ [entry]) =
      some ((db.fid_counter + 1 : ℕ) : ℤ) := by
    rw [lookupResult_eq_natCast, namedFid_eq_some]
    refine ⟨?_, hcounter⟩
    rw [walk_concat, (namedFid_eq_some.mp hparent).1, Option.bind_some]
    show ((db'.dirent f).lookup entry).map u32 = _
    rw [hd, ha.entry_eq, lookup_setEntry, if_pos ⟨rfl, rfl⟩, Option.map_some,
      u32_natCast (by omega)]
  obtain ⟨q, hq⟩ : ∃ q, lookupFid q = lookupWalk 0 (parent ++ [entry]) := by
    rcases ha.shape with ⟨hnames, -⟩ | ⟨-, hnil, hempty⟩
    · rw [← hnames]
      exact ⟨path, ha.lookup_names⟩
    · rw [hnil, hempty]
      exact ⟨_, lookupFid_slashes⟩
  have hbefore := hsame.fid q
  rw [ask_lookupFid hq, ask_lookupFid hq, hnext] at hbefore
  exact hdrawn.lookup_ne_next (by omega) _ hbefore.symm

/-- The upload does not end with 226, or the slave answered its opening with another reply than
150. -/
def FailedUpload (w w' : World) (cs : List Call) : Prop :=
  finalCode w w' ≠ some 226 ∨ ∃ c ∈ cs, ∃ r, c.opened = some r ∧ r.code ≠ some 150

/-- **A failed upload leaves the file system as it was.** -/
def FailureKeeps (w w' : World) (cs : List Call) : Prop :=
  FailedUpload w w' cs → SameAnswers w.db w'.db

/-- A slave that answers has a file at the end, the directory of the path is found, and the upload
breaks off or the data connection was not opened. -/
def LeavesPart (s : SlaveCalls) (disks : Disks) (db : Redis) (path : Text) (cs : List Call) :
    Prop :=
  ∃ x ∈ uploads cs, (∃ retval, x.answer = .reply retval) ∧
    s.LeavesFile x (disks x.slave x.fid) ∧
    (s.BreaksOff x ∨ ∃ c ∈ cs, ∃ r, c.opened = some r ∧ r.code ≠ some 150) ∧
    ∃ f : ℕ, ask (lookupFid (parentPath path)) db = some (f : ℤ)

/-- What the outcome of an upload says about a failure. -/
theorem keeps_of_no_part (h : UploadRun cfg cmd pszCmdArg path w w' cs)
    (hserved : Served s disks disks' cs) (hno : ¬ LeavesPart s disks w.db path cs) :
    FailureKeeps w w' cs := by
  intro hfailed
  cases h.outcome with
  | idle _ hsame _ _ => exact hsame.answers
  | exception x _ _ _ hsame _ => exact hsame.toSameFiles.answers
  | unrecorded x retval _ _ _ _ hsame _ => exact hsame.toSameFiles.answers
  | recorded x retval uid gid now r db hone hx hanswer hsize hsame hrun hcode =>
      rcases saveNewFile_done hrun with ⟨hdb, -⟩ | ⟨f, hf, -, -⟩
      · rw [hdb]
        exact hsame.toSameFiles.answers
      exfalso
      have hmem : x ∈ uploads cs := by
        rw [hone]
        exact List.mem_singleton_self x
      obtain ⟨-, file', hserve, -⟩ := hserved.stored x hmem retval hanswer
      have hend := serve_ends hx.iflags hserve
      have hleaves := hend.size.mp hsize
      rw [hsame.toSameFiles.answers.fid] at hf
      refine hno ⟨x, hmem, ⟨retval, hanswer⟩, hleaves, ?_, f, hf⟩
      rcases hfailed with hcode' | hopening
      · left
        by_contra hends
        rw [hcode] at hcode'
        exact hcode' ((hend.code hleaves.1).mpr hends)
      · exact .inr hopening

/-- A part of a file that is left is recorded, and found. -/
theorem not_keeps_of_part (h : UploadRun cfg cmd pszCmdArg path w w' cs)
    (hserved : Served s disks disks' cs) (hdrawn : FidsDrawn w.db)
    (hcounter : w.db.fid_counter + 1 < 2147483648) (hpart : LeavesPart s disks w.db path cs) :
    ¬ FailureKeeps w w' cs := by
  obtain ⟨x, hmem, ⟨retval, hanswer⟩, hleaves, hwhy, f, hf⟩ := hpart
  obtain ⟨-, file', hserve, -⟩ := hserved.stored x hmem retval hanswer
  cases h.outcome with
  | idle hnone _ _ _ =>
      rw [hnone] at hmem
      cases hmem
  | exception x' hone _ hanswer' _ _ =>
      rw [hone, List.mem_singleton] at hmem
      rw [hmem, hanswer'] at hanswer
      cases hanswer
  | unrecorded x' retval' hone hx hanswer' hsize' _ _ =>
      rw [hone, List.mem_singleton] at hmem
      rw [← hmem] at hx hanswer'
      rw [hanswer', RpcResult.reply.injEq] at hanswer
      have hsize := (serve_ends hx.iflags hserve).size.mpr hleaves
      rw [hanswer] at hsize'
      omega
  | recorded x' retval' uid gid now r db hone hx hanswer' _ hsame hrun hcode =>
      have hne : uploads cs ≠ [] := by
        rw [hone]
        exact List.cons_ne_nil _ _
      rw [hone, List.mem_singleton] at hmem
      rw [← hmem] at hx hanswer' hrun
      rw [hanswer', RpcResult.reply.injEq] at hanswer
      rw [hanswer] at hcode
      intro hkeeps
      have hfailed : FailedUpload w w' cs := by
        rcases hwhy with hbreaks | hopening
        · left
          rw [hcode]
          exact fun hok => ((serve_ends hx.iflags hserve).code hleaves.1).mp hok hbreaks
        · exact .inr hopening
      rcases hx.saves rfl (by omega) hsame hrun with ⟨-, fid, hneg, hfid⟩ | ⟨g, hg, hd, -, -⟩
      · rw [hf, Option.some.injEq] at hfid
        omega
      · obtain ⟨arg, hbuild⟩ := h.built hne
        exact not_sameAnswers_of_saved hdrawn hcounter (addresses_of_built hbuild) hg hd
          (hkeeps hfailed)

/-- **A failed upload** leaves the file system as it was unless a part of the file is left on the
slave; and only then, where the entries hold drawn fids. -/
theorem failed_upload_iff (h : UploadRun cfg cmd pszCmdArg path w w' cs)
    (hserved : Served s disks disks' cs) :
    (¬ LeavesPart s disks w.db path cs → FailureKeeps w w' cs) ∧
      (FidsDrawn w.db → w.db.fid_counter + 1 < 2147483648 →
        (FailureKeeps w w' cs ↔ ¬ LeavesPart s disks w.db path cs)) := by
  refine ⟨keeps_of_no_part h hserved, ?_⟩
  intro hdrawn hcounter
  constructor
  · intro hkeeps hpart
    exact not_keeps_of_part h hserved hdrawn hcounter hpart hkeeps
  · exact keeps_of_no_part h hserved

/-! ### A file of one byte -/

/-- A file `/a` of one byte on a slave, and a guest. -/
def oneByte : Redis :=
  applyAll (saveWrites 0 0 ['a'] ⟨1, 1, 1, 1, slaveA⟩) (guestDb ['/']).incrFid

/-- The session of the guest, with the address of a data connection. -/
def uploadWorld : World :=
  { guestWorld oneByte with
    client := { (guestWorld oneByte).client with eDataConnection := .port, usDataPort := 1024 } }

/-- A system on which everything succeeds, and whose slaves answer uploads. -/
def Env.storing (retval : StorRetVal) : Env := fun n o =>
  match o with
  | .activeStoreTransfer _ _ _ => .reply retval
  | .pasvStoreTransfer _ _ _ => .reply retval
  | o => Env.willing n o

/-- The thread of the upload. -/
abbrev storing : CommandProg Unit := storeTransfer oneSlave >>= fun _ => endTransfer

/-- The session when the slave has answered. -/
def storedWorld (w : World) (retval : StorRetVal) : World :=
  (run (serveCommand (.storing retval)) storing w).state

/-- The session of the guest after the line `STOR` or `APPE` of `path`. -/
def startedWorld (path : Text) (RestartAt : ℤ) : World :=
  { uploadWorld with
    client := { uploadWorld.client with
      eStatus := .uploading
      CurrentTransfer := { RestartAt, szPath := path, TransferThreadID := true } }
    clock := 2 }

/-- The RPC of the upload. -/
def storedRpc (RestartAt : ℤ) (retval : StorRetVal) : UploadRpc where
  slave := slaveA
  active := true
  fid := 2
  restart_at := RestartAt
  transfer_buffer_size := 32768
  iflags := if 0 < RestartAt then .append else .trunc
  answer := .reply retval

theorem fidsDrawn_oneByte : FidsDrawn oneByte := by
  intro k name v hv
  have hentry : (setEntry (initRedis 0).dirent 0 ['a'] 1 k).lookup name = some v := hv
  rw [lookup_setEntry] at hentry
  have hcounter : oneByte.fid_counter = 1 := rfl
  by_cases hset : k = 0 ∧ name = ['a']
  · rw [if_pos hset, Option.some.injEq] at hentry
    exact ⟨by omega, .inr ⟨1, by omega, hentry.symm⟩⟩
  · rw [if_neg hset] at hentry
    obtain ⟨hk, hplaceholder | ⟨j, hj, hvj⟩⟩ := fidsDrawn_initRedis 0 k name v hentry
    · exact ⟨hk.trans (Nat.zero_le _), .inl hplaceholder⟩
    · exact ⟨hk.trans (Nat.zero_le _), .inr ⟨j, hj.trans (Nat.zero_le _), hvj⟩⟩

/-- The calls of the upload. -/
def storingCalls (path : Text) (RestartAt : ℤ) (retval : StorRetVal) : List Call :=
  ⟨.pthread_create .store, true⟩ :: calls (.storing retval) storing (startedWorld path RestartAt)

/-- The upload of the guest with its thread. -/
theorem uploadRun_guest (hcmd : cmd ≠ .stou) (RestartAt : ℤ) (retval : StorRetVal)
    (hpath : uploadWorld.client.buildPath (some path) = some path)
    (hstarts : Does .calm (openSlaveConnection >>= fun opened =>
      if opened then startStore cmd path else return false) uploadWorld true
      (startedWorld path RestartAt) [⟨.pthread_create .store, true⟩])
    (hends : run (serveCommand (.storing retval)) storing (startedWorld path RestartAt) =
      .done () (storedWorld (startedWorld path RestartAt) retval)) :
    UploadRun oneSlave cmd (some path) path uploadWorld
      (storedWorld (startedWorld path RestartAt) retval) (storingCalls path RestartAt retval) := by
  have hnot : cmd.nCmd ∉ [Cmd.quit, .user, .pass, .cwd, .xcwd, .cdup, .xcup] := by
    cases cmd <;> decide
  have hline : Does .calm (shellCmd oneSlave cmd.nCmd (some path)) uploadWorld ()
      (startedWorld path RestartAt) [⟨.pthread_create .store, true⟩] := by
    have hupload := does_upload hcmd rfl hpath hstarts
    cases cmd with
    | stor => exact hupload
    | appe => exact hupload
    | stou => exact absurd rfl hcmd
  obtain ⟨hrun, hcalls⟩ := line_of_does hnot rfl hline
  have hmem : ⟨.pthread_create .store, true⟩ ∈ lineCalls .calm
      (dispatch oneSlave (some cmd.nCmd) (some path)) uploadWorld := by
    rw [hcalls]
    exact List.mem_singleton_self _
  have hupload := UploadRun.threaded hrun hmem rfl ⟨hends, rfl⟩
  rw [hcalls] at hupload
  exact hupload

/-- `STOR /a` with its thread. -/
theorem uploadRun_a (retval : StorRetVal)
    (hends : run (serveCommand (.storing retval)) storing (startedWorld "/a".toList 0) =
      .done () (storedWorld (startedWorld "/a".toList 0) retval)) :
    UploadRun oneSlave .stor (some "/a".toList) "/a".toList uploadWorld
      (storedWorld (startedWorld "/a".toList 0) retval) (storingCalls "/a".toList 0 retval) :=
  uploadRun_guest UploadCmd.noConfusion 0 retval (guest_a rfl) ⟨rfl, rfl⟩ hends

/-- One slave answers, and no passive connection was asked for. -/
theorem served_one (hone : uploads cs = [x]) (hopened : cs.filterMap Call.opened = [])
    (hport : x.slave.port.isSome = true) (hanswer : x.answer = .reply retval)
    (hserve : x.serve s (disks x.slave x.fid) = some (retval, file')) :
    Served s disks (disks.put x.slave x.fid file') cs := by
  refine ⟨?_, ?_, ?_⟩
  · intro y hy retval' hanswer'
    rw [hone, List.mem_singleton] at hy
    rw [hy, hanswer, RpcResult.reply.injEq] at hanswer'
    rw [hy, ← hanswer']
    exact ⟨hport, file', hserve, rfl⟩
  · intro slave fid hother
    have hne : ¬ (slave = x.slave ∧ fid = x.fid) := by
      apply hother
      rw [hone]
      exact List.mem_singleton_self x
    exact if_neg hne
  · intro c hc r hr
    have hmem := List.mem_filterMap.mpr ⟨c, hc, hr⟩
    rw [hopened] at hmem
    cases hmem

/-- The client sends nothing, and the connection ends as `ending` says. -/
def emptyUpload (connects : Bool) (ending : Ending) : SlaveCalls where
  openOk := true
  seekOk := true
  incoming := []
  recvs := fun _ => 1
  ending
  writes := fun _ _ => some 1
  statOk := true
  connects
  valid := true

/-- The slave does not connect to the client. -/
def refusal : StorRetVal := ⟨.line 425 "Can't open data connection.", -1⟩

/-- The slave has the empty file, and reports a failure. -/
def broken : StorRetVal := ⟨.line 550 "Can't store file.", 0⟩

/-- No connection to the client: there is no size, and nothing is recorded. -/
theorem failed_upload_refused :
    FailureKeeps uploadWorld (storedWorld (startedWorld "/a".toList 0) refusal)
      (storingCalls "/a".toList 0 refusal) := by
  have hrun := uploadRun_a refusal rfl
  have hone : uploads (storingCalls "/a".toList 0 refusal) = [storedRpc 0 refusal] := rfl
  have hserve : (storedRpc 0 refusal).serve (emptyUpload false .eof) none =
      some (refusal, none) := rfl
  have hserved : Served (emptyUpload false .eof) (fun _ _ => none) _
      (storingCalls "/a".toList 0 refusal) := served_one hone rfl rfl rfl hserve
  refine ((failed_upload_iff hrun hserved).2 fidsDrawn_oneByte (by decide)).mpr ?_
  intro hpart
  obtain ⟨x, hx, -, hleaves, -⟩ := hpart
  rw [hone, List.mem_singleton] at hx
  rw [hx] at hleaves
  exact Bool.false_ne_true (hleaves.1 rfl)

/-- `recv` fails, and the answer is 550 with the size of the empty file, which is recorded. -/
theorem part_recorded :
    ¬ ∀ (cfg : Config) (cmd : UploadCmd) (pszCmdArg : Option Text) (path : Text) (w w' : World)
      (cs : List Call) (s : SlaveCalls) (disks disks' : Disks),
      UploadRun cfg cmd pszCmdArg path w w' cs → Served s disks disks' cs →
      FailureKeeps w w' cs := by
  intro hall
  have hrun := uploadRun_a broken rfl
  have hone : uploads (storingCalls "/a".toList 0 broken) = [storedRpc 0 broken] := rfl
  have hserve : (storedRpc 0 broken).serve (emptyUpload true .recvFails) none =
      some (broken, some []) := by
    show store (emptyUpload true .recvFails).toStoreCalls 32768 0 .trunc true none = _
    rw [store_looped rfl (.inr rfl) rfl, storeLoop]
    rfl
  have hserved : Served (emptyUpload true .recvFails) (fun _ _ => none) _
      (storingCalls "/a".toList 0 broken) := served_one hone rfl rfl rfl hserve
  have hcode : finalCode uploadWorld (storedWorld (startedWorld "/a".toList 0) broken) =
      some 550 := rfl
  have hfailed : FailedUpload uploadWorld (storedWorld (startedWorld "/a".toList 0) broken)
      (storingCalls "/a".toList 0 broken) := by
    left
    rw [hcode]
    decide
  have hsame := hall _ _ _ _ _ _ _ _ _ _ hrun hserved hfailed
  have hbefore : ask (lookupFid "/a".toList) uploadWorld.db = some 1 := rfl
  have hdb : (storedWorld (startedWorld "/a".toList 0) broken).db = applyAll
      (saveWrites 0 0 ['a'] ⟨0, 1, 1, 2, slaveA⟩)
      { oneByte.incrFid with transaction_counter := 1 } := rfl
  have hafter : ask (lookupFid "/a".toList)
      (storedWorld (startedWorld "/a".toList 0) broken).db = some 2 := by
    rw [hdb]
    rfl
  have hfid := hsame.fid "/a".toList
  rw [hbefore, hafter] at hfid
  exact absurd hfid (by decide)

end ClusterFtpd
