import ClusterFtpd.Shell
import Mathlib.Data.Char
import Mathlib.Data.Finset.Sort
import Mathlib.Data.List.Lex

/-!
# The transfer threads

`StoreThread`, `RetrieveThread` and `ListThread` as programs over the same interface as the
commands.  A thread works on the client entry it shares with the shell: every field is read again
at the place where the source reads it.

The programs end where the source takes `ClientListLock`; what is under the lock is `endTransfer`.
A branch that goes to this end without the last reply answers `none`.
-/

namespace ClusterFtpd

open Interaction MachineInt

/-! ### Uploads -/

/-- The record of an upload; a client without a user has no `uid`. -/
def recordUpload (retval : StorRetVal) (fid : ℤ) (slave : SlaveInfo) : CommandProg Unit :=
  if 0 ≤ retval.size then do
    let c ← client
    match c.pUser with
    | some u => do
        let now ← sys .time
        discard (redis (saveNewFile now c.CurrentTransfer.szPath
          { size := retval.size, uid := u.uid, gid := u.gid, fid, slave }))
    | none => .stop .undefinedBehaviour
  else return ()

/-- What follows the RPC of an upload. -/
def finishUpload (fid : ℤ) (slave : SlaveInfo) (answer : RpcResult StorRetVal) :
    CommandProg (Option Reply) := do
  match ← rpc answer with
  | none => do
      sendReply (.line 550 "Can't store file.")
      return none
  | some retval => do
      recordUpload retval fid slave
      return some retval.msg

/-- The active half of `StoreThread`. -/
def storeActive (cfg : Config) (iflags : OpenFlag) (fid : ℤ) : CommandProg (Option Reply) :=
  if cfg.Slaves = [] then do
    sendReply (.line 550 "Can't store file.")
    return some .empty
  else do
    let slave ← getRandomSlave cfg
    let trans_id ← redis getNewTransactionId
    let c ← client
    let server_port ← randomPort cfg
    sendReply (.line 150 "Opening data channel.")
    let answer ← sys (.activeStoreTransfer slave
      { client_ip := c.ulClientIP, client_port := c.usDataPort, fid
        restart_at := c.CurrentTransfer.RestartAt
        transfer_buffer_size := cfg.uiTransferBufferSize
        server_ip := slave.host, server_port, trans_id } iflags)
    finishUpload fid slave answer

/-- The passive half of `StoreThread`. -/
def storePassive (cfg : Config) (iflags : OpenFlag) (fid : ℤ) : CommandProg (Option Reply) := do
  let c ← client
  if c.nPRET_CMD ≠ some .stor ∧ c.nPRET_CMD ≠ some .appe then do
    sendReply (.line 503 "Bad sequence of commands STOR")
    return none
  else do
    let c ← client
    let slave := c.SlaveInfo
    let c ← client
    let answer ← sys (.pasvStoreTransfer slave
      { fid, restart_at := c.CurrentTransfer.RestartAt
        transfer_buffer_size := cfg.uiTransferBufferSize, trans_id := c.llPRET_trans_id } iflags)
    finishUpload fid slave answer

/-- One of the two halves of a transfer, if the data connection is of its kind. -/
def whenConnected (kind : DataConnection) (msg : Option Reply)
    (half : CommandProg (Option Reply)) : CommandProg (Option Reply) :=
  match msg with
  | none => return none
  | some msg => do
      let c ← client
      if c.eDataConnection = kind then half else return some msg

/-- The last reply of a transfer. -/
def sendLast : Option Reply → CommandProg Unit
  | some msg => sendReply msg
  | none => return ()

/-- `StoreThread`. -/
def storeTransfer (cfg : Config) : CommandProg Unit := do
  let c ← client
  let iflags : OpenFlag := if 0 < c.CurrentTransfer.RestartAt then .append else .trunc
  let fid ← redis getNewFid
  let msg ← whenConnected .port (some .empty) (storeActive cfg iflags fid)
  let msg ← whenConnected .pasv msg (storePassive cfg iflags fid)
  sendLast msg

/-! ### Downloads -/

/-- What follows the RPC of a download. -/
def finishRetrieve (answer : RpcResult Reply) : CommandProg (Option Reply) := do
  match ← rpc answer with
  | none => do
      sendReply (.line 550 "Can't retrieve File.")
      return none
  | some retval => return some retval

/-- The active half of `RetrieveThread`. -/
def retrieveActive (cfg : Config) (fid : ℤ) : CommandProg (Option Reply) :=
  if cfg.Slaves ≠ [] ∧ 0 ≤ fid then do
    let c ← client
    let slave ← redis (lookupSlaveInfo c.CurrentTransfer.szPath)
    let trans_id ← redis getNewTransactionId
    let c ← client
    let server_port ← randomPort cfg
    sendReply (.line 150 "Opening data channel.")
    let answer ← sys (.activeRetrieveTransfer slave
      { client_ip := c.ulClientIP, client_port := c.usDataPort, fid
        restart_at := c.CurrentTransfer.RestartAt
        transfer_buffer_size := cfg.uiTransferBufferSize
        server_ip := slave.host, server_port, trans_id })
    finishRetrieve answer
  else return some .empty

/-- The passive half of `RetrieveThread`. -/
def retrievePassive (cfg : Config) (fid : ℤ) : CommandProg (Option Reply) := do
  let c ← client
  if c.nPRET_CMD ≠ some .retr then do
    sendReply (.line 503 "Bad sequence of commands")
    return none
  else do
    let c ← client
    if c.llPRET_fid ≠ fid then do
      sendReply (.line 503 "Bad sequence of commands")
      return none
    else do
      let c ← client
      let slave := c.SlaveInfo
      let c ← client
      let answer ← sys (.pasvRetrieveTransfer slave
        { server_ip := slave.host, server_port := c.usDataPort, fid
          restart_at := c.CurrentTransfer.RestartAt
          transfer_buffer_size := cfg.uiTransferBufferSize, trans_id := c.llPRET_trans_id })
      finishRetrieve answer

/-- `RetrieveThread`. -/
def retrieveTransfer (cfg : Config) : CommandProg Unit := do
  let c ← client
  let fid ← redis (lookupFid c.CurrentTransfer.szPath)
  let msg ← whenConnected .port (some .empty) (retrieveActive cfg fid)
  let msg ← whenConnected .pasv msg (retrievePassive cfg fid)
  sendLast msg

/-! ### Listings -/

/-- The path of an entry of a directory. -/
def fullPath (szDirPath name : Text) : Text :=
  szDirPath ++ (if szDirPath.getLast? = some '/' then [] else ['/']) ++ name

/-- The calls of `FindNext`: every entry with its `stat`, up to one whose path would be too long. -/
def findNext (szDirPath : Text) : List Text → RedisProg (List (Text × Option Stat))
  | [] => return []
  | name :: names =>
      if MAX_PATH ≤ szDirPath.length + name.length then return []
      else do
        let st ← stat (fullPath szDirPath name)
        let rest ← findNext szDirPath names
        return (name, st) :: rest

/-- `FindFirst` and `FindNext`: the entries of a directory in the order of their names. -/
def listDirectory (szDirPath : Text) : RedisProg (List (Text × Option Stat)) := do
  let fid ← lookupFid (fullPath szDirPath [])
  if fid < 0 then return []
  else
    let reply ← Prog.op (I := RedisI) (.hgetallDirent (u32 fid))
    findNext szDirPath (reply.keys.sort (· ≤ ·))

/-- `ListThread`; what it sends to the data socket is left out. -/
def listTransfer : CommandProg Unit := do
  let c ← client
  let isDir := c.CurrentTransfer.st.any fun st => S_ISDIR st.st_mode
  onlyIf (¬ (c.CurrentTransfer.options.opt_d = true ∨ isDir = false))
    (discard (redis (listDirectory c.CurrentTransfer.szPath)))
  let c ← client
  if c.CurrentTransfer.nCmd = some .stat then sendReply (.line 213 "End of status")
  else sendReply (.line 226 "Transfer complete.")

/-! ### The threads -/

/-- The program of a transfer thread. -/
def TransferThread.body (cfg : Config) : TransferThread → CommandProg Unit
  | .list => listTransfer
  | .retrieve => retrieveTransfer cfg
  | .store => storeTransfer cfg

/-- The end of a transfer thread, under `ClientListLock`. -/
def endTransfer : CommandProg Unit := resetDataConnection false

end ClusterFtpd
