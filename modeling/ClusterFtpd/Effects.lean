import ClusterFtpd.Transfer

/-!
# What each command may touch

The client entry, the database and the calls to the system are divided into parts.  `Cmd.parts`
lists the parts a command may touch, and `shellCmd_within` proves it of its program: every
operation the program can issue, whatever the answers to the earlier ones, stays within them.

With the frame rule, a part that is not in the list is as it was after the command, and after each
of its operations.
-/

namespace ClusterFtpd

open Interaction MachineInt

/-- The parts of the client entry (the first eight), of the database, and of the system. -/
inductive Part where
  | rename | settings | status | connection | socket | transfer | pret | slave
  | database | counter
  | create | cancel | init | opening | transferring
  deriving DecidableEq

/-- The part is the same in two client entries. -/
def Part.Same : Part → CommandState → CommandState → Prop
  | .rename, c, d => d.szRenameFromPath = c.szRenameFromPath
  | .settings, c, d => d.eDataMode = c.eDataMode ∧ d.eDataType = c.eDataType
  | .status, c, d => d.eStatus = c.eStatus
  | .connection, c, d => d.eDataConnection = c.eDataConnection
  | .socket, c, d => d.ulDataIp = c.ulDataIp ∧ d.usDataPort = c.usDataPort ∧ d.DataSock = c.DataSock
  | .transfer, c, d => d.CurrentTransfer = c.CurrentTransfer
  | .pret, c, d => d.nPRET_CMD = c.nPRET_CMD ∧ d.llPRET_fid = c.llPRET_fid
  | .slave, c, d => d.llPRET_trans_id = c.llPRET_trans_id ∧ d.SlaveInfo = c.SlaveInfo
  | _, _, _ => True

theorem Part.Same.refl (x : Part) (c : CommandState) : x.Same c c := by
  cases x <;> simp [Part.Same]

theorem Part.Same.trans {x : Part} {c d e : CommandState} (hcd : x.Same c d) (hde : x.Same d e) :
    x.Same c e := by
  cases x <;> simp only [Part.Same] at * <;> grind

/-- The part of the database a Redis command writes. -/
def RedisOp.part : RedisOp → Option Part
  | .multiExec _ => some .database
  | .incrFidCounter => some .database
  | .incrTransactionCounter => some .counter
  | _ => none

/-- The part of the system a call belongs to; calls of the C library and of the sockets to none. -/
def SysOp.part : SysOp → Option Part
  | .pthread_create _ => some .create
  | .pthread_cancel => some .cancel
  | .initPasvDataConnection .. => some .init
  | .openPasvDataConnection .. => some .opening
  | .activeStoreTransfer .. => some .transferring
  | .pasvStoreTransfer .. => some .transferring
  | .activeRetrieveTransfer .. => some .transferring
  | .pasvRetrieveTransfer .. => some .transferring
  | _ => none

/-- An operation touches no part but those of the list. -/
def Within (ps : List Part) : CommandOp → Prop
  | .redis o => ∀ x, o.part = some x → x ∈ ps
  | .client => True
  | .modify f => ∀ x ∉ ps, ∀ c, x.Same c (f c)
  | .sendReply _ => True
  | .sys o => ∀ x, o.part = some x → x ∈ ps

theorem Within.mono {ps qs : List Part} (h : ps ⊆ qs) {o : CommandOp} (ho : Within ps o) :
    Within qs o := by
  cases o with
  | redis o => exact fun x hx => h (ho x hx)
  | client => trivial
  | modify f => exact fun x hx c => ho x (fun hp => hx (h hp)) c
  | sendReply r => trivial
  | sys o => exact fun x hx => h (ho x hx)

variable {α β : Type} {P : CommandOp → Prop} {ps qs : List Part}

theorem every_client_bind (f : Client → CommandProg β) :
    Every P (client >>= f) ↔ P .client ∧ ∀ c, Every P (f c) := Iff.rfl

theorem every_modify (g : CommandState → CommandState) :
    Every P (modify g) ↔ P (.modify g) := and_iff_left fun _ => trivial

theorem every_sys_bind (o : SysOp) (f : o.Res → CommandProg β) :
    Every P (sys o >>= f) ↔ P (.sys o) ∧ ∀ r, Every P (f r) := Iff.rfl

theorem every_sys (o : SysOp) : Every P (sys o) ↔ P (.sys o) := and_iff_left fun _ => trivial

theorem every_redis {p : RedisProg α} (hp : Every (fun o => P (.redis o)) p) :
    Every P (redis p) :=
  Every.translate (I := RedisI) (J := CommandI) (P := fun o => P (.redis o)) (fun _ h => h) hp

/-! ### The database -/

/-- A Redis command reads. -/
def RedisOp.Reads (o : RedisOp) : Prop := o.part = none

theorem within_of_reads {o : RedisOp} (h : o.Reads) : Within ps (.redis o) := by
  intro x hx
  rw [RedisOp.Reads] at h
  rw [h] at hx
  exact absurd hx (by simp)

theorem reads_lookupWalk (fid : ℤ) (ts : List Text) :
    Every RedisOp.Reads (lookupWalk fid ts) := by
  induction ts generalizing fid with
  | nil => trivial
  | cons t ts ih =>
      refine ⟨rfl, ?_⟩
      intro my_map
      cases hv : my_map.lookup t with
      | none => simp only [hv]; trivial
      | some v => simp only [hv]; exact ih _

theorem reads_lookupFid (path : Text) : Every RedisOp.Reads (lookupFid path) := by
  unfold lookupFid
  rw [every_ite]
  refine ⟨fun _ => trivial, fun _ => ?_⟩
  cases lookupTokens path with
  | none => trivial
  | some ts => exact reads_lookupWalk 0 ts

theorem reads_stat (path : Text) : Every RedisOp.Reads (stat path) := by
  refine (reads_lookupFid path).bind fun fid => ?_
  rw [every_ite]
  refine ⟨fun _ => trivial, fun _ => ⟨rfl, fun reply => ?_⟩⟩
  show Every _ (if _ then _ else _)
  rw [every_ite]
  exact ⟨fun _ => trivial, fun _ => trivial⟩

theorem reads_lookupSlaveInfoFid (fid : ℤ) : Every RedisOp.Reads (lookupSlaveInfoFid fid) := by
  refine ⟨rfl, fun reply => ?_⟩
  show Every _ (if _ then _ else _)
  rw [every_ite]
  exact ⟨fun _ => trivial, fun _ => trivial⟩

theorem reads_lookupSlaveInfo (path : Text) : Every RedisOp.Reads (lookupSlaveInfo path) :=
  (reads_lookupFid path).bind reads_lookupSlaveInfoFid

theorem reads_cmdRnfr (pszPath : Option Text) (szFrom : Text) :
    Every RedisOp.Reads (cmdRnfr pszPath szFrom) := by
  cases pszPath with
  | none => trivial
  | some path =>
      refine (reads_stat path).bind fun st => ?_
      show Every _ (if _ then _ else _)
      rw [every_ite]
      exact ⟨fun _ => trivial, fun _ => trivial⟩

theorem within_redis_of_reads {p : RedisProg α} (hp : Every RedisOp.Reads p) :
    Every (Within ps) (redis p) :=
  every_redis (hp.mono fun _ h => within_of_reads h)

/-! ### What the commands share -/

theorem within_modify {f : CommandState → CommandState} :
    Every (Within ps) (modify f) ↔ ∀ x ∉ ps, ∀ c, x.Same c (f c) := every_modify f

theorem within_sys {o : SysOp} (h : ∀ x, o.part = some x → x ∈ ps) :
    Every (Within ps) (sys o) := (every_sys o).mpr h

theorem within_rpc (answer : RpcResult α) : Every (Within ps) (rpc answer) := by
  cases answer <;> trivial

theorem within_onlyIf {b : Prop} [Decidable b] {p : CommandProg Unit}
    (hp : Every (Within ps) p) : Every (Within ps) (onlyIf b p) := by
  unfold onlyIf
  rw [every_ite]
  exact ⟨fun _ => hp, fun _ => trivial⟩

theorem within_closeData (DataSock : Option ℕ) : Every (Within ps) (closeData DataSock) := by
  cases DataSock with
  | none => trivial
  | some fd => exact within_sys (by simp [SysOp.part])

/-- The parts `ResetDataConnection` touches. -/
def resetParts : List Part := [.status, .connection, .socket, .transfer, .cancel]

theorem within_resetDataConnection (bSyncWait : Bool) :
    Every (Within resetParts) (resetDataConnection bSyncWait) := by
  refine ⟨trivial, fun c => ?_⟩
  refine (within_closeData _).bind fun _ => ?_
  refine (within_onlyIf (within_sys (by simp [SysOp.part, resetParts]))).bind fun _ => ?_
  rw [within_modify]
  intro x hx c
  cases x <;> simp_all [resetParts, Part.Same]

theorem within_getRandomSlave (cfg : Config) : Every (Within ps) (getRandomSlave cfg) := by
  unfold getRandomSlave
  rw [every_sys_bind]
  refine ⟨by simp [Within, SysOp.part], fun r => ?_⟩
  cases cfg.Slaves[r % cfg.Slaves.length % 65536]? <;> trivial

theorem within_randomPort (cfg : Config) : Every (Within ps) (randomPort cfg) := by
  refine ⟨by simp [Within, SysOp.part], fun r => ?_⟩
  show Every _ (if _ then _ else _)
  rw [every_ite]
  exact ⟨fun _ => trivial, fun _ => trivial⟩

theorem within_statPath (pszPath : Option Text) : Every (Within ps) (statPath pszPath) := by
  cases pszPath with
  | none => trivial
  | some path => exact (within_redis_of_reads (reads_stat path)).bind fun _ => trivial

/-! ### The commands -/

/-- The parts a command touches. -/
def Cmd.parts : Cmd → List Part
  | .mode | .type => [.settings]
  | .port | .abor => resetParts
  | .pret => [.pret]
  | .pasv => resetParts ++ [.slave, .counter, .init]
  | .list | .nlst | .stat => resetParts ++ [.create]
  | .rest => [.transfer]
  | .retr | .stor | .appe | .stou => resetParts ++ [.create, .opening]
  | .rnfr => [.rename]
  | .rnto => [.rename, .database]
  | .dele | .mkd | .xmkd | .rmd | .xrmd => [.database]
  | .user => [.rename]
  | _ => []

theorem within_reset (h : resetParts ⊆ ps) (bSyncWait : Bool) :
    Every (Within ps) (resetDataConnection bSyncWait) :=
  (within_resetDataConnection bSyncWait).mono fun _ ho => ho.mono h

theorem within_modifyTransfer (h : Part.transfer ∈ ps) (f : DataTransfer → DataTransfer) :
    Every (Within ps) (modifyTransfer f) := by
  refine within_modify.mpr fun x hx c => ?_
  cases x <;> simp_all [Part.Same]

theorem within_startTransfer (h : resetParts ⊆ ps) (hc : Part.create ∈ ps)
    (thread : TransferThread) : Every (Within ps) (startTransfer thread) := by
  have ht : Part.transfer ∈ ps := h (by simp [resetParts])
  unfold startTransfer
  rw [every_client_bind]
  refine ⟨trivial, fun c => ?_⟩
  refine (within_modifyTransfer ht _).bind fun _ => ?_
  refine ⟨by simpa [Within, SysOp.part] using hc, fun ok => ?_⟩
  show Every _ (if _ then _ else _)
  rw [every_ite]
  refine ⟨fun _ => trivial, fun _ => ?_⟩
  exact (within_modifyTransfer ht _).bind fun _ => (within_reset h true).bind fun _ => trivial

theorem within_withPrivilege (ucPriv : ℕ) {body : CommandProg Unit}
    (hbody : Every (Within ps) body) : Every (Within ps) (withPrivilege ucPriv body) := by
  refine ⟨trivial, fun c => ?_⟩
  show Every _ (if _ then _ else _)
  rw [every_ite]
  exact ⟨fun _ => hbody, fun _ => ⟨trivial, fun _ => trivial⟩⟩

theorem within_withArg {body : Text → CommandProg Unit} (pszCmdArg : Option Text)
    (refusal : String) (hbody : ∀ arg, Every (Within ps) (body arg)) :
    Every (Within ps) (withArg pszCmdArg refusal body) := by
  cases pszCmdArg with
  | none => exact ⟨trivial, fun _ => trivial⟩
  | some arg => exact hbody arg

/-- A reply is within everything. -/
theorem within_sendReply (r : Reply) : Every (Within ps) (sendReply r) :=
  ⟨trivial, fun _ => trivial⟩

theorem within_cmdMode (arg : Text) : Every (Within [.settings]) (cmdMode arg) := by
  unfold cmdMode
  rw [every_ite, every_ite]
  refine ⟨fun _ => ?_, fun _ => ⟨fun _ => within_sendReply _, fun _ => within_sendReply _⟩⟩
  refine Every.bind (within_modify.mpr fun x hx c => ?_) fun _ => within_sendReply _
  cases x <;> simp_all [Part.Same]

theorem within_cmdType (arg : Text) : Every (Within [.settings]) (cmdType arg) := by
  unfold cmdType
  rw [every_ite, every_ite]
  refine ⟨fun _ => ?_, fun _ => ⟨fun _ => ?_, fun _ => within_sendReply _⟩⟩
  · refine Every.bind (within_modify.mpr fun x hx c => ?_) fun _ => within_sendReply _
    cases x <;> simp_all [Part.Same]
  · refine Every.bind (within_modify.mpr fun x hx c => ?_) fun _ => within_sendReply _
    cases x <;> simp_all [Part.Same]

theorem within_cmdRest (pszCmdArg : Option Text) :
    Every (Within [.transfer]) (cmdRest pszCmdArg) := by
  unfold cmdRest
  rw [every_client_bind]
  refine ⟨trivial, fun c => ?_⟩
  cases (if c.eStatus = .waiting then pszCmdArg else none) with
  | none => exact within_sendReply _
  | some arg => exact (within_modifyTransfer (by simp) _).bind fun _ => within_sendReply _

theorem within_cmdPort (cfg : Config) (pszCmdArg : Option Text) :
    Every (Within resetParts) (cmdPort cfg pszCmdArg) := by
  unfold cmdPort
  rw [every_client_bind]
  refine ⟨trivial, fun c => ?_⟩
  cases (if c.eStatus = .waiting then pszCmdArg.bind scanPort else none) with
  | none => exact within_sendReply _
  | some a =>
      refine (within_onlyIf (within_resetDataConnection true)).bind fun _ => ?_
      show Every _ (if _ then _ else _)
      rw [every_ite]
      refine ⟨fun _ => ?_, fun _ => within_sendReply _⟩
      refine Every.bind (within_modify.mpr fun x hx c => ?_) fun _ => within_sendReply _
      cases x <;> simp_all [Part.Same, resetParts]

theorem within_cmdAbor : Every (Within resetParts) cmdAbor := by
  refine ⟨trivial, fun c => ?_⟩
  refine (within_onlyIf ?_).bind fun _ => within_sendReply _
  exact (within_resetDataConnection true).bind fun _ => within_sendReply _

theorem within_cmdPret (arg : Text) : Every (Within [.pret]) (cmdPret arg) := by
  unfold cmdPret
  show Every _ (if _ then _ else _)
  rw [every_ite]
  refine ⟨fun _ => trivial, fun _ => ?_⟩
  refine Every.bind (within_modify.mpr fun x hx c => ?_) fun _ => ?_
  · cases x <;> simp_all [Part.Same]
  show Every _ (if _ then _ else _)
  rw [every_ite]
  refine ⟨fun _ => ?_, fun _ => within_sendReply _⟩
  rw [every_ite]
  refine ⟨fun _ => trivial, fun _ => ⟨trivial, fun c => ?_⟩⟩
  refine (within_statPath _).bind fun found => ?_
  cases found with
  | none => exact within_sendReply _
  | some a =>
      show Every _ (if _ then _ else _)
      rw [every_ite]
      refine ⟨fun _ => ?_, fun _ => within_sendReply _⟩
      refine (within_redis_of_reads (reads_lookupFid _)).bind fun fid => ?_
      refine Every.bind (within_modify.mpr fun x hx c => ?_) fun _ => ?_
      · cases x <;> simp_all [Part.Same]
      show Every _ (if _ then _ else _)
      rw [every_ite]
      exact ⟨fun _ => within_sendReply _, fun _ => within_sendReply _⟩

/-! ### Data connections and transfers -/

theorem within_bindLoop (cfg : Config) (fd usFirstTry fuel usTriedPort : ℕ) :
    Every (Within ps) (bindLoop cfg fd usFirstTry fuel usTriedPort) := by
  induction fuel generalizing usTriedPort with
  | zero => trivial
  | succ fuel ih =>
      refine ⟨by simp [Within, SysOp.part], fun bound => ?_⟩
      show Every _ (if _ then _ else _)
      rw [every_ite]
      refine ⟨fun _ => trivial, fun _ => ?_⟩
      show Every _ (if _ then _ else _)
      rw [every_ite]
      exact ⟨fun _ => trivial, fun _ => ih _⟩

theorem within_part {y : Part} (h : y ∈ ps) {f : CommandState → CommandState}
    (hf : ∀ x : Part, x ≠ y → ∀ c, x.Same c (f c)) : Every (Within ps) (modify f) := by
  refine within_modify.mpr fun x hx c => hf x ?_ c
  intro hxy
  rw [hxy] at hx
  exact hx h

/-- `PASV` without a `PRET`, behind the reset. -/
theorem within_pasvSocket (hconn : Part.connection ∈ ps) (hsock : Part.socket ∈ ps) (cfg : Config)
    (c : Client) : Every (Within ps) (do
      let DataSock ← sys .socket
      modify fun c => { c with DataSock }
      match DataSock with
      | none => return ()
      | some fd => do
          if ← sys (.setsockopt fd) then do
            modify fun c => { c with usDataPort := 0 }
            let usFirstTry ← randomPort cfg
            let usTriedPort ← bindLoop cfg fd usFirstTry 131072 usFirstTry
            modify fun c => { c with usDataPort := usTriedPort.getD 0 }
            if usTriedPort.getD 0 = 0 then
              sendReply (.line 451 "Internal error - No more data port available.")
            else if ← sys (.listen fd) then do
              sendReply (passiveReply c.ulServerIP (usTriedPort.getD 0))
              modify fun c => { c with eDataConnection := .pasv }
            else return ()
          else return ()) := by
  rw [every_sys_bind]
  refine ⟨by simp [Within, SysOp.part], fun DataSock => ?_⟩
  refine Every.bind (within_part hsock fun x hx c => ?_) fun _ => ?_
  · cases x <;> simp_all [Part.Same]
  cases DataSock with
  | none => trivial
  | some fd =>
      show Every _ (sys (.setsockopt fd) >>= _)
      rw [every_sys_bind]
      refine ⟨by simp [Within, SysOp.part], fun ok => ?_⟩
      rw [every_ite]
      refine ⟨fun _ => ?_, fun _ => trivial⟩
      refine Every.bind (within_part hsock fun x hx c => ?_) fun _ => ?_
      · cases x <;> simp_all [Part.Same]
      refine (within_randomPort cfg).bind fun usFirstTry => ?_
      refine (within_bindLoop cfg fd usFirstTry _ _).bind fun usTriedPort => ?_
      refine Every.bind (within_part hsock fun x hx c => ?_) fun _ => ?_
      · cases x <;> simp_all [Part.Same]
      rw [every_ite]
      refine ⟨fun _ => within_sendReply _, fun _ => ?_⟩
      rw [every_sys_bind]
      refine ⟨by simp [Within, SysOp.part], fun ok => ?_⟩
      rw [every_ite]
      refine ⟨fun _ => (within_sendReply _).bind fun _ => ?_, fun _ => trivial⟩
      refine within_part hconn fun x hx c => ?_
      cases x <;> simp_all [Part.Same]

theorem within_pasvLocal (cfg : Config) : Every (Within resetParts) (pasvLocal cfg) := by
  unfold pasvLocal
  rw [every_client_bind]
  refine ⟨trivial, fun c => ?_⟩
  refine (within_onlyIf (within_resetDataConnection true)).bind fun _ => ?_
  exact within_pasvSocket (by simp [resetParts]) (by simp [resetParts]) cfg c

theorem within_pasvSlave (cfg : Config) (cmd : PretCmd) (fid : ℤ) :
    Every (Within ps) (pasvSlave cfg cmd fid) := by
  cases cmd with
  | stor =>
      show Every _ (if _ then _ else _)
      rw [every_ite]
      exact ⟨fun _ => (within_sendReply _).bind fun _ => trivial, fun _ => within_getRandomSlave cfg⟩
  | retr => exact within_redis_of_reads (reads_lookupSlaveInfoFid fid)
  | appe => exact within_redis_of_reads (reads_lookupSlaveInfoFid fid)

/-- The parts `PASV` touches after a `PRET`. -/
def remoteParts : List Part := [.connection, .slave, .counter, .init]

theorem within_pasvRemote (cfg : Config) (cmd : PretCmd) :
    Every (Within remoteParts) (pasvRemote cfg cmd) := by
  unfold pasvRemote
  rw [every_client_bind]
  refine ⟨trivial, fun c => ?_⟩
  refine (within_pasvSlave cfg cmd _).bind fun slave => ?_
  refine Every.bind (within_modify.mpr fun x hx c => ?_) fun _ => ?_
  · cases x <;> simp_all [Part.Same, remoteParts]
  have hcounter : Every (Within remoteParts) (redis getNewTransactionId) :=
    every_redis ⟨by simp [Within, RedisOp.part, remoteParts], fun _ => trivial⟩
  refine hcounter.bind fun trans_id => ?_
  refine Every.bind (within_modify.mpr fun x hx c => ?_) fun _ => ?_
  · cases x <;> simp_all [Part.Same, remoteParts]
  rw [every_sys_bind]
  refine ⟨by simp [Within, SysOp.part, remoteParts], fun answer => ?_⟩
  refine (within_rpc answer).bind fun reply => ?_
  cases reply with
  | none => exact within_sendReply _
  | some reply =>
      refine (within_sendReply _).bind fun _ => within_modify.mpr fun x hx c => ?_
      cases x <;> simp_all [Part.Same, remoteParts]

theorem within_cmdPasv (cfg : Config) :
    Every (Within (resetParts ++ [.slave, .counter, .init])) (cmdPasv cfg) := by
  unfold cmdPasv
  rw [every_client_bind]
  refine ⟨trivial, fun c => ?_⟩
  rw [every_ite]
  refine ⟨fun _ => ?_, fun _ => within_sendReply _⟩
  cases c.nPRET_CMD with
  | none => exact (within_pasvLocal cfg).mono fun _ ho => ho.mono (by decide)
  | some cmd => exact (within_pasvRemote cfg cmd).mono fun _ ho => ho.mono (by decide)

theorem within_openSlaveConnection (h : Part.opening ∈ ps) :
    Every (Within ps) openSlaveConnection := by
  unfold openSlaveConnection
  rw [every_client_bind]
  refine ⟨trivial, fun c => ?_⟩
  rw [every_ite]
  refine ⟨fun _ => ?_, fun _ => trivial⟩
  rw [every_sys_bind]
  refine ⟨by simpa [Within, SysOp.part] using h, fun answer => ?_⟩
  refine (within_rpc answer).bind fun reply => ?_
  cases reply with
  | none => exact (within_sendReply _).bind fun _ => trivial
  | some reply => exact (within_sendReply _).bind fun _ => trivial

/-- The parts of a command that starts a transfer. -/
def transferParts : List Part := resetParts ++ [.create, .opening]

theorem within_cmdRetr (arg : Text) : Every (Within transferParts) (cmdRetr arg) := by
  unfold cmdRetr
  rw [every_client_bind]
  refine ⟨trivial, fun c => ?_⟩
  refine (within_statPath _).bind fun found => ?_
  cases found with
  | none => exact within_sendReply _
  | some a =>
      rw [every_ite]
      refine ⟨fun _ => ?_, fun _ => within_sendReply _⟩
      refine (within_openSlaveConnection (by decide)).bind fun opened => within_onlyIf ?_
      refine Every.bind (within_modify.mpr fun x hx c => ?_) fun _ => ?_
      · cases x <;> simp_all [Part.Same, transferParts, resetParts]
      exact (within_startTransfer (by decide) (by decide) .retrieve).bind fun _ => trivial

theorem within_uploadPath (cmd : UploadCmd) (pszCmdArg : Option Text) :
    Every (Within ps) (uploadPath cmd pszCmdArg) := by
  unfold uploadPath
  rw [every_client_bind]
  refine ⟨trivial, fun c => ?_⟩
  cases cmd with
  | stou =>
      show Every _ (sys .rand >>= _)
      rw [every_sys_bind]
      refine ⟨by simp [Within, SysOp.part], fun r => ?_⟩
      generalize "file.".toList ++ (toString (r % 9999999)).toList = szName
      dsimp only
      cases c.buildPath (some szName) with
      | none => trivial
      | some path =>
          refine (within_redis_of_reads (reads_stat path)).bind fun st => ?_
          rw [every_ite]
          exact ⟨fun _ => trivial, fun _ => (within_sendReply _).bind fun _ => trivial⟩
  | stor => trivial
  | appe => trivial

theorem within_startStore (cmd : UploadCmd) (path : Text) :
    Every (Within transferParts) (startStore cmd path) := by
  refine Every.bind (within_modify.mpr fun x hx c => ?_) fun _ => ?_
  · cases x <;> simp_all [Part.Same, transferParts, resetParts]
  have happend : Every (Within transferParts) (appendOffset path) :=
    (within_redis_of_reads (reads_stat path)).bind fun _ => within_modifyTransfer (by decide) _
  refine (within_onlyIf happend).bind fun _ => ?_
  refine (within_modifyTransfer (by decide) _).bind fun _ => ?_
  exact within_startTransfer (by decide) (by decide) .store

theorem within_cmdStore (cmd : UploadCmd) (pszCmdArg : Option Text) :
    Every (Within transferParts) (cmdStore cmd pszCmdArg) := by
  unfold cmdStore
  rw [every_ite]
  refine ⟨fun _ => ?_, fun _ => (within_sendReply _).bind fun _ => trivial⟩
  refine (within_uploadPath cmd pszCmdArg).bind fun path => ?_
  cases path with
  | none => trivial
  | some path =>
      refine (within_openSlaveConnection (by decide)).bind fun opened => ?_
      rw [every_ite]
      exact ⟨fun _ => within_startStore cmd path, fun _ => trivial⟩

/-! ### Listings, and the commands on the virtual file system -/

theorem within_acceptData (h : Part.socket ∈ ps) (fd : ℕ) :
    Every (Within ps) (acceptData fd) := by
  unfold acceptData
  rw [every_sys_bind]
  refine ⟨by simp [Within, SysOp.part], fun ready => ?_⟩
  rw [every_ite]
  refine ⟨fun _ => ?_, fun _ => trivial⟩
  rw [every_sys_bind]
  refine ⟨by simp [Within, SysOp.part], fun sTmpWs => ?_⟩
  rw [every_sys_bind]
  refine ⟨by simp [Within, SysOp.part], fun _ => ?_⟩
  refine Every.bind (within_part h fun x hx c => ?_) fun _ => ?_
  · cases x <;> simp_all [Part.Same]
  rw [every_ite]
  exact ⟨fun _ => (within_sendReply _).bind fun _ => trivial, fun _ => trivial⟩

theorem within_connectData (cfg : Config) (fd : ℕ) : Every (Within ps) (connectData cfg fd) := by
  unfold connectData
  rw [every_client_bind]
  refine ⟨trivial, fun c => ?_⟩
  refine (within_randomPort cfg).bind fun port => ?_
  rw [every_sys_bind]
  refine ⟨by simp [Within, SysOp.part], fun _ => ?_⟩
  rw [every_sys_bind]
  refine ⟨by simp [Within, SysOp.part], fun bound => ?_⟩
  rw [every_ite]
  exact ⟨fun _ => within_sys (by simp [SysOp.part]), fun _ => trivial⟩

theorem within_activeSocket (h : Part.socket ∈ ps) : Every (Within ps) activeSocket := by
  unfold activeSocket
  refine (within_sendReply _).bind fun _ => ?_
  rw [every_sys_bind]
  refine ⟨by simp [Within, SysOp.part], fun DataSock => within_part h fun x hx c => ?_⟩
  cases x <;> simp_all [Part.Same]

theorem within_tryDataConnection (h : Part.socket ∈ ps) (cfg : Config) :
    Every (Within ps) (tryDataConnection cfg) := by
  unfold tryDataConnection
  rw [every_client_bind]
  refine ⟨trivial, fun c => ?_⟩
  cases c.DataSock with
  | none => trivial
  | some fd =>
      show Every _ (sys (.setsockopt fd) >>= _)
      rw [every_sys_bind]
      refine ⟨by simp [Within, SysOp.part], fun ok => ?_⟩
      rw [every_ite, every_ite]
      exact ⟨fun _ => ⟨fun _ => within_acceptData h fd, fun _ => within_connectData cfg fd⟩,
        fun _ => trivial⟩

theorem within_openDataConnection (h : resetParts ⊆ ps) (cfg : Config) :
    Every (Within ps) (openDataConnection cfg) := by
  have hsock : Part.socket ∈ ps := h (by simp [resetParts])
  unfold openDataConnection
  rw [every_client_bind]
  refine ⟨trivial, fun c => ?_⟩
  rw [every_ite]
  refine ⟨fun _ => (within_sendReply _).bind fun _ => trivial, fun _ => ?_⟩
  refine (within_onlyIf (within_activeSocket hsock)).bind fun _ => ?_
  refine (within_tryDataConnection hsock cfg).bind fun opened => ?_
  rw [every_ite]
  refine ⟨fun _ => trivial, fun _ => ?_⟩
  exact (within_sendReply _).bind fun _ => (within_reset h true).bind fun _ => trivial

/-- The parts of a listing. -/
def listParts : List Part := resetParts ++ [.create]

theorem within_cmdList (cfg : Config) (nCmd : Cmd) (pszCmdArg : Option Text) :
    Every (Within listParts) (cmdList cfg nCmd pszCmdArg) := by
  have htransfer : Part.transfer ∈ listParts := by decide
  have hopen : Every (Within listParts) (openListing cfg nCmd) := by
    unfold openListing
    rw [every_ite]
    refine ⟨fun _ => ?_, fun _ => ?_⟩
    · exact (within_sendReply _).bind fun _ =>
        (within_modifyTransfer htransfer _).bind fun _ => trivial
    · refine (within_openDataConnection (by decide) cfg).bind fun opened => ?_
      exact (within_onlyIf (within_modifyTransfer htransfer _)).bind fun _ => trivial
  unfold cmdList
  rw [every_client_bind]
  refine ⟨trivial, fun c => ?_⟩
  rw [every_ite]
  refine ⟨fun _ => within_sendReply _, fun _ => ?_⟩
  refine (within_modifyTransfer htransfer _).bind fun _ => ?_
  refine (within_statPath _).bind fun found => ?_
  cases found with
  | none => exact within_sendReply _
  | some a =>
      refine (within_modifyTransfer htransfer _).bind fun _ => ?_
      refine hopen.bind fun opened => within_onlyIf ?_
      refine Every.bind (within_modify.mpr fun x hx c => ?_) fun _ => ?_
      · cases x <;> simp_all [Part.Same, listParts, resetParts]
      exact (within_startTransfer (by decide) (by decide) .list).bind fun _ => trivial

/-- A Redis command does not draw a transaction number. -/
def RedisOp.Files (o : RedisOp) : Prop := o.part ≠ some .counter

theorem within_database (h : Part.database ∈ ps) {p : RedisProg α}
    (hp : Every RedisOp.Files p) : Every (Within ps) (redis p) := by
  refine every_redis (hp.mono fun o ho x hx => ?_)
  cases o <;> simp_all [RedisOp.part, RedisOp.Files]

section Writes

/-! What the functions of `redis_vfs` issue besides reads: a condition `Q` that holds of every read,
of a new fid and of the transactions holds of all they do. -/

variable {Q : RedisOp → Prop} (hread : ∀ o, o.Reads → Q o)

include hread

/-- A transaction behind a lookup that has to find something. -/
theorem every_commit {path : Text} {r : ℤ} {ws : ℤ → List Write}
    (hws : ∀ fid, Q (.multiExec (ws fid))) :
    Every Q (do
      let fid ← lookupFid path
      if fid < 0 then return -1
      else do
        Prog.op (I := RedisI) (.multiExec (ws fid))
        return r) := by
  refine ((reads_lookupFid path).mono hread).bind fun fid => ?_
  rw [every_ite]
  exact ⟨fun _ => trivial, fun _ => ⟨hws fid, fun _ => trivial⟩⟩

theorem every_remove (hws : ∀ f e k, Q (.multiExec (removeWrites f e k))) (path : Text) :
    Every Q (remove path) := by
  refine ((reads_lookupFid path).mono hread).bind fun fid => ?_
  rw [every_ite]
  exact ⟨fun _ => trivial, fun _ => every_commit hread fun _ => hws _ _ _⟩

theorem every_rmdir (hws : ∀ f e k, Q (.multiExec (rmdirWrites f e k))) (path : Text) :
    Every Q (rmdir path) := by
  refine ((reads_lookupFid path).mono hread).bind fun fid => ?_
  rw [every_ite]
  refine ⟨fun _ => trivial, fun _ => ⟨hread _ rfl, fun size => ?_⟩⟩
  show Every _ (if _ then _ else _)
  rw [every_ite]
  exact ⟨fun _ => every_commit hread fun _ => hws _ _ _, fun _ => trivial⟩

theorem every_rename (hws : ∀ f e f' e' k, Q (.multiExec (renameWrites f e f' e' k)))
    (oldpath newpath : Text) : Every Q (rename oldpath newpath) := by
  refine ((reads_lookupFid oldpath).mono hread).bind fun fid => ?_
  rw [every_ite]
  refine ⟨fun _ => trivial, fun _ => ?_⟩
  refine ((reads_lookupFid _).mono hread).bind fun oldparent_fid => ?_
  rw [every_ite]
  exact ⟨fun _ => trivial, fun _ => every_commit hread fun _ => hws _ _ _ _ _⟩

theorem every_mkdir (hfid : Q .incrFidCounter)
    (hws : ∀ now f e uid gid k, Q (.multiExec (mkdirWrites now f e uid gid k)))
    (now : ℤ) (path : Text) (uid gid : ℕ) : Every Q (mkdir now path uid gid) :=
  ⟨hfid, fun _ => every_commit hread fun _ => hws _ _ _ _ _ _⟩

theorem every_cmdDele (hws : ∀ f e k, Q (.multiExec (removeWrites f e k)))
    (pszPath : Option Text) : Every Q (cmdDele pszPath) := by
  cases pszPath with
  | none => trivial
  | some path =>
      refine ((reads_stat path).mono hread).bind fun st => ?_
      cases st with
      | none => trivial
      | some st =>
          show Every _ (if _ then _ else _)
          rw [every_ite]
          refine ⟨fun _ => (every_remove hread hws path).bind fun r => ?_, fun _ => trivial⟩
          rw [every_ite]
          exact ⟨fun _ => trivial, fun _ => trivial⟩

theorem every_cmdRnto (hws : ∀ f e f' e' k, Q (.multiExec (renameWrites f e f' e' k)))
    (pszPath : Option Text) (szFrom : Text) : Every Q (cmdRnto pszPath szFrom) := by
  cases pszPath with
  | none => trivial
  | some path =>
      refine (every_rename hread hws szFrom path).bind fun r => ?_
      rw [every_ite]
      exact ⟨fun _ => trivial, fun _ => trivial⟩

theorem every_cmdMkd (hfid : Q .incrFidCounter)
    (hws : ∀ now f e uid gid k, Q (.multiExec (mkdirWrites now f e uid gid k)))
    (now : ℤ) (pszPath : Option Text) (uid gid : ℕ) : Every Q (cmdMkd now pszPath uid gid) := by
  cases pszPath with
  | none => trivial
  | some path =>
      refine ((reads_stat path).mono hread).bind fun st => ?_
      rw [every_ite]
      refine ⟨fun _ => trivial, fun _ => (every_mkdir hread hfid hws now path uid gid).bind fun r => ?_⟩
      rw [every_ite]
      exact ⟨fun _ => trivial, fun _ => trivial⟩

theorem every_cmdRmd (hws : ∀ f e k, Q (.multiExec (rmdirWrites f e k))) (pszPath : Option Text) :
    Every Q (cmdRmd pszPath) := by
  cases pszPath with
  | none => trivial
  | some path =>
      refine ((reads_stat path).mono hread).bind fun st => ?_
      rw [every_ite]
      refine ⟨fun _ => (every_rmdir hread hws path).bind fun r => ?_, fun _ => trivial⟩
      rw [every_ite]
      exact ⟨fun _ => trivial, fun _ => trivial⟩

end Writes

theorem files_of_reads (o : RedisOp) (ho : o.Reads) : o.Files := by
  rw [RedisOp.Reads] at ho
  rw [RedisOp.Files, ho]
  simp

theorem files_multiExec (ws : List Write) : RedisOp.Files (.multiExec ws) := by
  simp [RedisOp.Files, RedisOp.part]

theorem within_shellDele (arg : Text) : Every (Within [.database]) (shellDele arg) := by
  unfold shellDele
  rw [every_client_bind]
  refine ⟨trivial, fun c => ?_⟩
  exact (within_database (by simp)
    (every_cmdDele files_of_reads (fun _ _ _ => files_multiExec _) _)).bind fun _ => within_sendReply _

theorem within_shellRmd (arg : Text) : Every (Within [.database]) (shellRmd arg) := by
  unfold shellRmd
  rw [every_client_bind]
  refine ⟨trivial, fun c => ?_⟩
  exact (within_database (by simp)
    (every_cmdRmd files_of_reads (fun _ _ _ => files_multiExec _) _)).bind fun _ => within_sendReply _

theorem within_shellMkd (arg : Text) : Every (Within [.database]) (shellMkd arg) := by
  unfold shellMkd
  rw [every_client_bind]
  refine ⟨trivial, fun c => ?_⟩
  rw [every_sys_bind]
  refine ⟨by simp [Within, SysOp.part], fun now => ?_⟩
  cases c.pUser with
  | none => exact within_sendReply _
  | some u =>
      exact (within_database (by simp) (every_cmdMkd files_of_reads (by simp [RedisOp.Files, RedisOp.part])
        (fun _ _ _ _ _ _ => files_multiExec _) _ _ _ _)).bind fun _ => within_sendReply _

theorem within_shellRnto (arg : Text) : Every (Within [.rename, .database]) (shellRnto arg) := by
  unfold shellRnto
  rw [every_client_bind]
  refine ⟨trivial, fun c => ?_⟩
  refine (within_database (by simp)
    (every_cmdRnto files_of_reads (fun _ _ _ _ _ => files_multiExec _) _ _)).bind fun reply => ?_
  refine (within_sendReply _).bind fun _ => within_modify.mpr fun x hx c => ?_
  cases x <;> simp_all [Part.Same]

theorem within_shellRnfr (arg : Text) : Every (Within [.rename]) (shellRnfr arg) := by
  unfold shellRnfr
  rw [every_client_bind]
  refine ⟨trivial, fun c => ?_⟩
  refine (within_redis_of_reads (reads_cmdRnfr _ _)).bind fun a => ?_
  refine Every.bind (within_modify.mpr fun x hx c => ?_) fun _ => within_sendReply _
  cases x <;> simp_all [Part.Same]

theorem within_cmdStru (arg : Text) : Every (Within ps) (cmdStru arg) := by
  unfold cmdStru
  rw [every_ite]
  exact ⟨fun _ => within_sendReply _, fun _ => within_sendReply _⟩

theorem within_cmdMdtm (arg : Text) : Every (Within ps) (cmdMdtm arg) := by
  unfold cmdMdtm
  rw [every_client_bind]
  refine ⟨trivial, fun c => ?_⟩
  refine (within_statPath _).bind fun found => ?_
  cases found with
  | none => exact within_sendReply _
  | some a =>
      show Every _ (sys (.gmtime a.2.st_mtime) >>= _)
      rw [every_sys_bind]
      refine ⟨by simp [Within, SysOp.part], fun t => ?_⟩
      cases t <;> exact within_sendReply _

theorem within_cmdSize (arg : Text) : Every (Within ps) (cmdSize arg) := by
  unfold cmdSize
  rw [every_client_bind]
  refine ⟨trivial, fun c => ?_⟩
  refine (within_statPath _).bind fun found => ?_
  cases found with
  | none => exact within_sendReply _
  | some a =>
      show Every _ (if _ then _ else _)
      rw [every_ite]
      exact ⟨fun _ => within_sendReply _, fun _ => within_sendReply _⟩

theorem within_cmdPwd : Every (Within ps) cmdPwd := ⟨trivial, fun _ => within_sendReply _⟩

/-- **Every command** stays within its parts. -/
theorem shellCmd_within (cfg : Config) (nCmd : Cmd) (pszCmdArg : Option Text) :
    Every (Within nCmd.parts) (shellCmd cfg nCmd pszCmdArg) := by
  have hdiscard : ∀ cmd, Every (Within transferParts) (discard (cmdStore cmd pszCmdArg)) :=
    fun cmd => (within_cmdStore cmd pszCmdArg).bind fun _ => trivial
  cases nCmd with
  | clnt => exact within_withArg _ _ fun _ => within_sendReply _
  | stru => exact within_withArg _ _ within_cmdStru
  | opts => exact within_withArg _ _ fun _ => within_sendReply _
  | mode => exact within_withArg _ _ within_cmdMode
  | type => exact within_withArg _ _ within_cmdType
  | port => exact within_cmdPort cfg pszCmdArg
  | pret => exact within_withArg _ _ within_cmdPret
  | pasv => exact within_cmdPasv cfg
  | list => exact within_withPrivilege _ (within_cmdList cfg _ pszCmdArg)
  | nlst => exact within_withPrivilege _ (within_cmdList cfg _ pszCmdArg)
  | stat =>
      show Every _ (if _ then _ else _)
      rw [every_ite]
      exact ⟨fun _ => within_sendReply _,
        fun _ => within_withPrivilege _ (within_cmdList cfg _ pszCmdArg)⟩
  | mdtm => exact within_withArg _ _ within_cmdMdtm
  | pwd => exact within_cmdPwd
  | xpwd => exact within_cmdPwd
  | abor => exact within_cmdAbor
  | rest => exact within_cmdRest pszCmdArg
  | retr => exact within_withPrivilege _ (within_withArg _ _ within_cmdRetr)
  | stor => exact within_withPrivilege _ (hdiscard .stor)
  | appe => exact within_withPrivilege _ (hdiscard .appe)
  | stou => exact within_withPrivilege _ (hdiscard .stou)
  | size => exact within_withArg _ _ within_cmdSize
  | dele => exact within_withPrivilege _ (within_withArg _ _ within_shellDele)
  | rnfr => exact within_withPrivilege _ (within_withArg _ _ within_shellRnfr)
  | rnto => exact within_withArg _ _ within_shellRnto
  | mkd => exact within_withPrivilege _ (within_withArg _ _ within_shellMkd)
  | xmkd => exact within_withPrivilege _ (within_withArg _ _ within_shellMkd)
  | rmd => exact within_withPrivilege _ (within_withArg _ _ within_shellRmd)
  | xrmd => exact within_withPrivilege _ (within_withArg _ _ within_shellRmd)
  | _ => exact within_sendReply _

/-! ### The transfer threads -/

theorem within_sendLast (msg : Option Reply) : Every (Within ps) (sendLast msg) := by
  cases msg with
  | none => trivial
  | some r => exact within_sendReply r

theorem within_whenConnected {kind : DataConnection} {msg : Option Reply}
    {half : CommandProg (Option Reply)} (hhalf : Every (Within ps) half) :
    Every (Within ps) (whenConnected kind msg half) := by
  cases msg with
  | none => trivial
  | some msg =>
      refine ⟨trivial, fun c => ?_⟩
      show Every _ (if _ then _ else _)
      rw [every_ite]
      exact ⟨fun _ => hhalf, fun _ => trivial⟩

theorem within_getNewTransactionId (h : Part.counter ∈ ps) :
    Every (Within ps) (redis getNewTransactionId) :=
  every_redis ⟨by simpa [Within, RedisOp.part] using h, fun _ => trivial⟩

theorem within_finishRetrieve (answer : RpcResult Reply) :
    Every (Within ps) (finishRetrieve answer) := by
  refine (within_rpc answer).bind fun a => ?_
  cases a with
  | none => exact (within_sendReply _).bind fun _ => trivial
  | some r => trivial

/-- The parts of a download. -/
def retrieveParts : List Part := [.counter, .transferring]

theorem within_retrieveActive (cfg : Config) (fid : ℤ) :
    Every (Within retrieveParts) (retrieveActive cfg fid) := by
  unfold retrieveActive
  rw [every_ite]
  refine ⟨fun _ => ?_, fun _ => trivial⟩
  rw [every_client_bind]
  refine ⟨trivial, fun c => ?_⟩
  refine (within_redis_of_reads (reads_lookupSlaveInfo _)).bind fun slave => ?_
  refine (within_getNewTransactionId (by decide)).bind fun trans_id => ?_
  rw [every_client_bind]
  refine ⟨trivial, fun c => ?_⟩
  refine (within_randomPort cfg).bind fun server_port => ?_
  refine (within_sendReply _).bind fun _ => ?_
  rw [every_sys_bind]
  exact ⟨by simp [Within, SysOp.part, retrieveParts], within_finishRetrieve⟩

theorem within_retrievePassive (cfg : Config) (fid : ℤ) :
    Every (Within retrieveParts) (retrievePassive cfg fid) := by
  unfold retrievePassive
  rw [every_client_bind]
  refine ⟨trivial, fun c => ?_⟩
  rw [every_ite]
  refine ⟨fun _ => (within_sendReply _).bind fun _ => trivial, fun _ => ?_⟩
  rw [every_client_bind]
  refine ⟨trivial, fun c => ?_⟩
  rw [every_ite]
  refine ⟨fun _ => (within_sendReply _).bind fun _ => trivial, fun _ => ?_⟩
  rw [every_client_bind]
  refine ⟨trivial, fun c => ?_⟩
  show Every _ (client >>= _)
  rw [every_client_bind]
  refine ⟨trivial, fun c => ?_⟩
  rw [every_sys_bind]
  exact ⟨by simp [Within, SysOp.part, retrieveParts], within_finishRetrieve⟩

theorem within_retrieveTransfer (cfg : Config) :
    Every (Within retrieveParts) (retrieveTransfer cfg) := by
  unfold retrieveTransfer
  rw [every_client_bind]
  refine ⟨trivial, fun c => ?_⟩
  refine (within_redis_of_reads (reads_lookupFid _)).bind fun fid => ?_
  refine (within_whenConnected (within_retrieveActive cfg fid)).bind fun msg => ?_
  exact (within_whenConnected (within_retrievePassive cfg fid)).bind within_sendLast

theorem reads_findNext (szDirPath : Text) (names : List Text) :
    Every RedisOp.Reads (findNext szDirPath names) := by
  induction names with
  | nil => trivial
  | cons name names ih =>
      unfold findNext
      rw [every_ite]
      exact ⟨fun _ => trivial, fun _ => (reads_stat _).bind fun st => ih.bind fun _ => every_ret _⟩

theorem reads_listDirectory (szDirPath : Text) :
    Every RedisOp.Reads (listDirectory szDirPath) := by
  unfold listDirectory
  refine (reads_lookupFid _).bind fun fid => ?_
  rw [every_ite]
  exact ⟨fun _ => trivial, fun _ => ⟨rfl, fun reply => reads_findNext _ _⟩⟩

theorem within_listTransfer : Every (Within ps) listTransfer := by
  have hlist : ∀ szDirPath, Every (Within ps) (discard (redis (listDirectory szDirPath))) :=
    fun szDirPath => (within_redis_of_reads (reads_listDirectory szDirPath)).bind fun _ => every_ret _
  unfold listTransfer
  rw [every_client_bind]
  refine ⟨trivial, fun c => ?_⟩
  refine (within_onlyIf (hlist _)).bind fun _ => ?_
  rw [every_client_bind]
  refine ⟨trivial, fun c => ?_⟩
  rw [every_ite]
  exact ⟨fun _ => within_sendReply _, fun _ => within_sendReply _⟩

/-- The parts of a transfer thread. -/
def bodyParts : List Part := [.database, .counter, .transferring]

theorem within_finishUpload (fid : ℤ) (slave : SlaveInfo) (answer : RpcResult StorRetVal) :
    Every (Within bodyParts) (finishUpload fid slave answer) := by
  have hsave : ∀ now path f, Every RedisOp.Files (saveNewFile now path f) := by
    intro now path f
    exact every_commit (fun o ho => by rw [RedisOp.Reads] at ho; rw [RedisOp.Files, ho]; simp)
      fun _ => by simp [RedisOp.Files, RedisOp.part]
  have hrecord : ∀ retval, Every (Within bodyParts) (recordUpload retval fid slave) := by
    intro retval
    unfold recordUpload
    rw [every_ite]
    refine ⟨fun _ => ?_, fun _ => trivial⟩
    rw [every_client_bind]
    refine ⟨trivial, fun c => ?_⟩
    cases c.pUser with
    | none => trivial
    | some u =>
        show Every _ (sys .time >>= _)
        rw [every_sys_bind]
        refine ⟨by simp [Within, SysOp.part], fun now => ?_⟩
        exact (within_database (by decide) (hsave _ _ _)).bind fun _ => every_ret _
  refine (within_rpc answer).bind fun a => ?_
  cases a with
  | none => exact (within_sendReply _).bind fun _ => trivial
  | some retval => exact (hrecord retval).bind fun _ => trivial

theorem within_storeTransfer (cfg : Config) : Every (Within bodyParts) (storeTransfer cfg) := by
  have hactive : ∀ iflags fid, Every (Within bodyParts) (storeActive cfg iflags fid) := by
    intro iflags fid
    unfold storeActive
    rw [every_ite]
    refine ⟨fun _ => (within_sendReply _).bind fun _ => trivial, fun _ => ?_⟩
    refine (within_getRandomSlave cfg).bind fun slave => ?_
    refine (within_getNewTransactionId (by decide)).bind fun trans_id => ?_
    rw [every_client_bind]
    refine ⟨trivial, fun c => ?_⟩
    refine (within_randomPort cfg).bind fun server_port => ?_
    refine (within_sendReply _).bind fun _ => ?_
    rw [every_sys_bind]
    exact ⟨by simp [Within, SysOp.part, bodyParts], within_finishUpload fid slave⟩
  have hpassive : ∀ iflags fid, Every (Within bodyParts) (storePassive cfg iflags fid) := by
    intro iflags fid
    unfold storePassive
    rw [every_client_bind]
    refine ⟨trivial, fun c => ?_⟩
    rw [every_ite]
    refine ⟨fun _ => (within_sendReply _).bind fun _ => trivial, fun _ => ?_⟩
    rw [every_client_bind]
    refine ⟨trivial, fun c => ?_⟩
    show Every _ (client >>= _)
    rw [every_client_bind]
    refine ⟨trivial, fun c => ?_⟩
    rw [every_sys_bind]
    exact ⟨by simp [Within, SysOp.part, bodyParts], within_finishUpload fid _⟩
  have hfid : Every (Within bodyParts) (redis getNewFid) :=
    every_redis ⟨by simp [Within, RedisOp.part, bodyParts], fun _ => trivial⟩
  unfold storeTransfer
  rw [every_client_bind]
  refine ⟨trivial, fun c => ?_⟩
  refine hfid.bind fun fid => ?_
  refine (within_whenConnected (hactive _ fid)).bind fun msg => ?_
  exact (within_whenConnected (hpassive _ fid)).bind within_sendLast

/-- **Every transfer thread** stays within its parts, up to its end. -/
theorem body_within (cfg : Config) (thread : TransferThread) :
    Every (Within bodyParts) (thread.body cfg) := by
  cases thread with
  | list => exact within_listTransfer
  | retrieve => exact (within_retrieveTransfer cfg).mono fun _ ho => ho.mono (by decide)
  | store => exact within_storeTransfer cfg

/-! ### The loop -/

/-- An operation of a session touches no part but those of the list. -/
def ShellWithin (ps : List Part) : ShellOp → Prop
  | .command o => Within ps o
  | .login f => ∀ x ∉ ps, ∀ c, x.Same c.toCommandState (f c).toCommandState

/-- The parts a line may touch. -/
def partsOf (nCmd : Option Cmd) : List Part := (nCmd.map Cmd.parts).getD []

theorem within_command {p : CommandProg α} (hp : Every (Within ps) p) :
    Every (ShellWithin ps) (command p) :=
  Every.translate (I := CommandI) (J := ShellI) (P := Within ps) (fun _ h => h) hp

theorem within_login {f : Client → Client}
    (hf : ∀ x ∉ ps, ∀ c, x.Same c.toCommandState (f c).toCommandState) :
    Every (ShellWithin ps) (login f) := ⟨hf, fun _ => trivial⟩

theorem within_logIn : Every (ShellWithin ps) logIn :=
  (within_login fun x _ _ => Part.Same.refl x _).bind fun _ => within_command (within_sendReply _)

theorem within_searchUserFromLogin (szLogin : Text) :
    Every (Within ps) (searchUserFromLogin szLogin) := by
  unfold searchUserFromLogin
  rw [every_sys_bind]
  refine ⟨by simp [Within, SysOp.part], fun ok => ?_⟩
  rw [every_ite]
  refine ⟨fun _ => ?_, fun _ => trivial⟩
  have hget : Every RedisOp.Reads (Prog.op (I := RedisI) (.hgetallUsername szLogin)) :=
    ⟨rfl, fun _ => trivial⟩
  refine (within_redis_of_reads hget).bind fun found => ?_
  cases found with
  | none => trivial
  | some h =>
      have hentry : Every (Within ps) (userEntry szLogin h) := by
        unfold userEntry
        rw [every_ite]
        refine ⟨fun _ => ?_, fun _ => trivial⟩
        split <;> trivial
      exact hentry.bind fun _ => trivial

theorem within_selectUser (szLogin : Text) : Every (ShellWithin ps) (selectUser szLogin) := by
  unfold selectUser
  refine (within_command (within_searchUserFromLogin szLogin)).bind fun pUser => ?_
  refine Every.bind (within_login fun x _ c => Part.Same.refl x _) fun _ => ?_
  rw [every_ite]
  exact ⟨fun _ => within_logIn, fun _ => within_command (within_sendReply _)⟩

theorem within_cmdUser (pszCmdArg : Option Text) :
    Every (ShellWithin [.rename]) (cmdUser pszCmdArg) := by
  unfold cmdUser
  refine Every.bind (within_login fun x hx c => ?_) fun _ => ?_
  · split_ifs
    · cases x <;> simp_all [Part.Same, Client.logOut]
    · exact Part.Same.refl x _
  cases pszCmdArg with
  | none => exact within_command (within_sendReply _)
  | some szLogin => exact within_selectUser szLogin

theorem every_command_client_bind {α : Type} {P : ShellOp → Prop} (f : Client → ShellProg α) :
    Every P (command client >>= f) ↔ P (.command .client) ∧ ∀ c, Every P (f c) := Iff.rfl

/-- The operations of `PASS`. -/
theorem every_cmdPass {P : ShellOp → Prop} (hcommand : ∀ o, Within [] o → P (.command o))
    (htry : P (.login Client.countTry)) (hlogIn : P (.login Client.logIn)) (cfg : Config)
    (pszCmdArg : Option Text) : Every P (cmdPass cfg pszCmdArg) := by
  have hreply : ∀ r, Every P (command (sendReply r)) := fun r =>
    Every.translate (I := CommandI) (J := ShellI) (P := Within []) hcommand (within_sendReply r)
  have hlogged : Every P logIn := ⟨hlogIn, fun _ => hreply _⟩
  have hreject : Every P (rejectPass cfg) := by
    refine ⟨hcommand .client trivial, fun c => ?_⟩
    show Every _ (if _ then _ else _)
    rw [every_ite]
    exact ⟨fun _ => trivial, fun _ => (hreply _).bind fun _ => trivial⟩
  have hcheck : Every P (checkPass pszCmdArg) := by
    unfold checkPass
    rw [every_command_client_bind]
    refine ⟨hcommand .client trivial, fun c => ?_⟩
    cases c.pUser with
    | none => trivial
    | some u =>
        rw [every_ite]
        refine ⟨fun _ => ?_, fun _ => trivial⟩
        rw [every_ite]
        refine ⟨fun _ => ?_, fun _ => ?_⟩
        · rw [every_ite]
          exact ⟨fun _ => hlogged.bind fun _ => trivial, fun _ => (hreply _).bind fun _ => trivial⟩
        · rw [every_ite]
          exact ⟨fun _ => (hreply _).bind fun _ => trivial, fun _ => trivial⟩
  refine ⟨htry, fun _ => ⟨hcommand .client trivial, fun c => ?_⟩⟩
  show Every _ (if _ then _ else _)
  rw [every_ite]
  refine ⟨fun _ => (hreply _).bind fun _ => hreject, fun _ => hcheck.bind fun loggedIn => ?_⟩
  rw [every_ite]
  exact ⟨fun _ => trivial, fun _ => hreject⟩

theorem within_cmdPass (cfg : Config) (pszCmdArg : Option Text) :
    Every (ShellWithin []) (cmdPass cfg pszCmdArg) :=
  every_cmdPass (fun _ ho => ho) (fun x _ _ => Part.Same.refl x _) (fun x _ _ => Part.Same.refl x _)
    cfg pszCmdArg

/-- The operations of `CWD` and `XCWD`. -/
theorem every_cmdCwd {P : ShellOp → Prop} (hcommand : ∀ o, Within [] o → P (.command o))
    (hdir : ∀ szWorkingDir, P (.login fun c => { c with szWorkingDir })) (pszCmdArg : Option Text) :
    Every P (cmdCwd pszCmdArg) := by
  have hP : ∀ {α : Type} {p : CommandProg α}, Every (Within []) p → Every P (command p) :=
    Every.translate (I := CommandI) (J := ShellI) (P := Within []) hcommand
  cases pszCmdArg with
  | none => exact hP (within_sendReply _)
  | some arg =>
      have hnew : Every (Within []) (newWorkingDir arg) := by
        unfold newWorkingDir
        rw [every_client_bind]
        refine ⟨trivial, fun c => ?_⟩
        cases c.buildPathVirtual (some arg) with
        | none => trivial
        | some a => exact (within_redis_of_reads (reads_stat a.1)).bind fun _ => trivial
      refine (hP hnew).bind fun szWorkingDir => ?_
      cases szWorkingDir with
      | none => exact hP (within_sendReply _)
      | some d => exact ⟨hdir d, fun _ => hP (within_sendReply _)⟩

theorem within_shellLogged (cfg : Config) (nCmd : Cmd) (pszCmdArg : Option Text) :
    Every (ShellWithin nCmd.parts) (shellLogged cfg nCmd pszCmdArg) := by
  have hcwd : Every (ShellWithin []) (cmdCwd pszCmdArg) :=
    every_cmdCwd (fun _ ho => ho) (fun _ x _ _ => Part.Same.refl x _) pszCmdArg
  have hcdup : Every (ShellWithin []) cmdCdup :=
    (within_login fun x _ c => Part.Same.refl x _).bind fun _ => within_command (within_sendReply _)
  cases nCmd with
  | cwd => exact hcwd
  | xcwd => exact hcwd
  | cdup => exact hcdup
  | xcup => exact hcdup
  | _ => exact within_command (shellCmd_within cfg _ pszCmdArg)

/-- **Every line** stays within the parts of its command. -/
theorem dispatch_within (cfg : Config) (nCmd : Option Cmd) (pszCmdArg : Option Text) :
    Every (ShellWithin (partsOf nCmd)) (dispatch cfg nCmd pszCmdArg) := by
  cases nCmd with
  | none => exact (within_command (within_sendReply _)).bind fun _ => trivial
  | some nCmd =>
      have hgate : ∀ p : ShellProg Next, p = (do
          let c ← command client
          if c.bIsLogged then do
            shellLogged cfg nCmd pszCmdArg
            return .continue
          else do
            command (sendReply (.line 530 "Please login with USER and PASS."))
            return .continue) → Every (ShellWithin nCmd.parts) p := by
        rintro p rfl
        refine ⟨trivial, fun c => ?_⟩
        show Every _ (if _ then _ else _)
        rw [every_ite]
        exact ⟨fun _ => (within_shellLogged cfg nCmd pszCmdArg).bind fun _ => trivial,
          fun _ => (within_command (within_sendReply _)).bind fun _ => trivial⟩
      cases nCmd with
      | quit => exact (within_command (within_sendReply _)).bind fun _ => trivial
      | user => exact (within_cmdUser pszCmdArg).bind fun _ => trivial
      | pass => exact within_cmdPass cfg pszCmdArg
      | _ => exact hgate _ rfl

/-! ### The Redis commands of a line -/

/-- A condition on Redis commands, read as one on the operations of a command. -/
def OnRedis (Q : RedisOp → Prop) : CommandOp → Prop
  | .redis o => Q o
  | _ => True

/-- The same for the operations of a session. -/
def ShellOnRedis (Q : RedisOp → Prop) : ShellOp → Prop
  | .command o => OnRedis Q o
  | .login _ => True

section Line

/-! A condition `Q` that holds of every Redis command outside the files, and of the transactions
behind `DELE`, `RNTO`, `MKD` and `RMD`, holds of all that a line issues. -/

variable {Q : RedisOp → Prop} (hother : ∀ o : RedisOp, o.part ≠ some .database → Q o)

include hother

theorem onRedis_of_within (hd : Part.database ∉ ps) {o : CommandOp} (ho : Within ps o) :
    OnRedis Q o := by
  cases o with
  | redis o => exact hother o fun hpart => hd (ho _ hpart)
  | _ => trivial

theorem every_line (hfid : Q .incrFidCounter)
    (hremove : ∀ f e k, Q (.multiExec (removeWrites f e k)))
    (hrename : ∀ f e f' e' k, Q (.multiExec (renameWrites f e f' e' k)))
    (hmkdir : ∀ now f e uid gid k, Q (.multiExec (mkdirWrites now f e uid gid k)))
    (hrmdir : ∀ f e k, Q (.multiExec (rmdirWrites f e k)))
    (cfg : Config) (nCmd : Option Cmd) (pszCmdArg : Option Text) :
    Every (ShellOnRedis Q) (dispatch cfg nCmd pszCmdArg) := by
  have hread : ∀ o : RedisOp, o.Reads → Q o := fun o ho => hother o (by rw [ho]; simp)
  have hprog : ∀ {γ : Type} {p : RedisProg γ}, Every Q p → Every (OnRedis Q) (redis p) :=
    fun hp => every_redis hp
  have hmade : ∀ arg, Every (OnRedis Q) (shellMkd arg) := by
    intro arg
    refine ⟨trivial, fun c => ⟨trivial, fun now => ?_⟩⟩
    cases c.pUser with
    | none => exact ⟨trivial, fun _ => trivial⟩
    | some u =>
        exact (hprog (every_cmdMkd hread hfid hmkdir _ _ _ _)).bind fun _ =>
          ⟨trivial, fun _ => trivial⟩
  have hcmd : ∀ nCmd : Cmd, Every (OnRedis Q) (shellCmd cfg nCmd pszCmdArg) := by
    intro nCmd
    have hgated : ∀ ucPriv (body : Text → CommandProg Unit),
        (∀ arg, Every (OnRedis Q) (body arg)) → Every (OnRedis Q)
          (withPrivilege ucPriv (withArg pszCmdArg "Syntax error in arguments." body)) := by
      intro ucPriv body hbody
      refine ⟨trivial, fun c => ?_⟩
      show Every _ (if _ then _ else _)
      rw [every_ite]
      refine ⟨fun _ => ?_, fun _ => ⟨trivial, fun _ => trivial⟩⟩
      cases pszCmdArg with
      | none => exact ⟨trivial, fun _ => trivial⟩
      | some arg => exact hbody arg
    by_cases hd : Part.database ∈ nCmd.parts
    · cases nCmd with
      | dele =>
          exact hgated _ _ fun arg => ⟨trivial, fun c =>
            (hprog (every_cmdDele hread hremove _)).bind fun _ => ⟨trivial, fun _ => trivial⟩⟩
      | rnto =>
          cases pszCmdArg with
          | none => exact ⟨trivial, fun _ => trivial⟩
          | some arg =>
              exact ⟨trivial, fun c => (hprog (every_cmdRnto hread hrename _ _)).bind fun _ =>
                ⟨trivial, fun _ => ⟨trivial, fun _ => trivial⟩⟩⟩
      | mkd => exact hgated _ _ hmade
      | xmkd => exact hgated _ _ hmade
      | rmd =>
          exact hgated _ _ fun arg => ⟨trivial, fun c =>
            (hprog (every_cmdRmd hread hrmdir _)).bind fun _ => ⟨trivial, fun _ => trivial⟩⟩
      | xrmd =>
          exact hgated _ _ fun arg => ⟨trivial, fun c =>
            (hprog (every_cmdRmd hread hrmdir _)).bind fun _ => ⟨trivial, fun _ => trivial⟩⟩
      | _ => simp [Cmd.parts, resetParts] at hd
    · exact (shellCmd_within cfg nCmd pszCmdArg).mono fun o ho => onRedis_of_within hother hd ho
  have hreply : ∀ r, Every (ShellOnRedis Q) (command (sendReply r)) :=
    fun r => ⟨trivial, fun _ => trivial⟩
  have hquiet : ∀ qs (p : ShellProg Next), Part.database ∉ qs → Every (ShellWithin qs) p →
      Every (ShellOnRedis Q) p := by
    intro qs p hqs hp
    refine hp.mono fun o ho => ?_
    cases o with
    | command o => exact onRedis_of_within hother hqs ho
    | login f => trivial
  by_cases hd : Part.database ∈ partsOf nCmd
  · cases nCmd with
    | none => exact absurd hd (by simp [partsOf])
    | some nCmd =>
        have hgate : dispatch cfg (some nCmd) pszCmdArg = command client >>= fun c =>
            if c.bIsLogged then command (shellCmd cfg nCmd pszCmdArg) >>= fun _ => return .continue
            else command (sendReply (.line 530 "Please login with USER and PASS.")) >>= fun _ =>
              return .continue := by
          cases nCmd <;> first | rfl | simp [partsOf, Cmd.parts] at hd
        rw [hgate]
        refine ⟨trivial, fun c => ?_⟩
        show Every _ (if _ then _ else _)
        rw [every_ite]
        refine ⟨fun _ => ?_, fun _ => (hreply _).bind fun _ => trivial⟩
        exact (Every.translate (I := CommandI) (J := ShellI) (P := OnRedis Q) (fun _ h => h)
          (hcmd nCmd)).bind fun _ => trivial
  · exact hquiet _ _ hd (dispatch_within cfg nCmd pszCmdArg)

end Line

/-! ### Frames -/

variable {w : World}

theorem serveCommand_same {o : CommandOp} (ho : Within ps o) {x : Part} (hx : x ∉ ps) (env : Env)
    (w : World) :
    x.Same w.client.toCommandState (serveCommand env o w).2.client.toCommandState := by
  cases o with
  | modify f => exact ho x hx _
  | _ => exact Part.Same.refl x _

theorem serveCommand_db {o : CommandOp} (ho : Within ps o) (hd : Part.database ∉ ps)
    (hc : Part.counter ∉ ps) (env : Env) (w : World) : (serveCommand env o w).2.db = w.db := by
  cases o with
  | redis o =>
      cases o with
      | multiExec ws => exact absurd (ho _ rfl) hd
      | incrFidCounter => exact absurd (ho _ rfl) hd
      | incrTransactionCounter => exact absurd (ho _ rfl) hc
      | _ => rfl
  | _ => rfl

theorem serveShell_same {o : ShellOp} (ho : ShellWithin ps o) {x : Part} (hx : x ∉ ps) (env : Env)
    (w : World) :
    x.Same w.client.toCommandState (serveShell env o w).2.client.toCommandState := by
  cases o with
  | command o => exact serveCommand_same ho hx env w
  | login f => exact ho x hx _

/-- What a program does not touch is the same after it. -/
theorem run_same {p : CommandProg α} (hp : Every (Within ps) p) {x : Part} (hx : x ∉ ps)
    (env : Env) (w : World) :
    x.Same w.client.toCommandState (run (serveCommand env) p w).state.client.toCommandState :=
  hp.run_state (serveCommand env)
    (R := fun s t => x.Same s.client.toCommandState t.client.toCommandState)
    (fun _ => Part.Same.refl x _) (fun _ _ _ h₁ h₂ => h₁.trans h₂)
    (fun _ ho s => serveCommand_same ho hx env s) w

/-- What a line does not touch is the same after its turn. -/
theorem run_shell_same {p : ShellProg α} (hp : Every (ShellWithin ps) p) {x : Part} (hx : x ∉ ps)
    (env : Env) (w : World) :
    x.Same w.client.toCommandState (run (serveShell env) p w).state.client.toCommandState :=
  hp.run_state (serveShell env)
    (R := fun s t => x.Same s.client.toCommandState t.client.toCommandState)
    (fun _ => Part.Same.refl x _) (fun _ _ _ h₁ h₂ => h₁.trans h₂)
    (fun _ ho s => serveShell_same ho hx env s) w

/-- A relation between databases that every Redis command of a line keeps, the line keeps. -/
theorem run_shell_db {Q : RedisOp → Prop} {R : Redis → Redis → Prop} (hrefl : ∀ db, R db db)
    (htrans : ∀ a b c, R a b → R b c → R a c) (hstep : ∀ o, Q o → ∀ db, R db (serveRedis o db).2)
    {p : ShellProg α} (hp : Every (ShellOnRedis Q) p) (env : Env) (w : World) :
    R w.db (run (serveShell env) p w).state.db := by
  refine hp.run_state (serveShell env) (R := fun s t => R s.db t.db) (fun _ => hrefl _)
    (fun _ _ _ h₁ h₂ => htrans _ _ _ h₁ h₂) (fun o ho s => ?_) w
  cases o with
  | login f => exact hrefl _
  | command o =>
      cases o with
      | redis o => exact hstep o ho s.db
      | _ => exact hrefl _

theorem run_within_db {p : CommandProg α} (hp : Every (Within ps) p) (hd : Part.database ∉ ps)
    (hc : Part.counter ∉ ps) (env : Env) (w : World) :
    (run (serveCommand env) p w).state.db = w.db :=
  hp.run_keeps (serveCommand env) World.db (fun _ ho s => serveCommand_db ho hd hc env s) w

end ClusterFtpd
