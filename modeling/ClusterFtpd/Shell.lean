import ClusterFtpd.Client

/-!
# The command shell

Every branch of the loop in `Shell` as a program, under the name of its command, and `dispatch`,
which chooses the branch.  A branch that starts a transfer thread ends when the thread is created;
the thread is a program of its own.

`CMD_NONE`, `QUIT`, `USER` and `PASS` come before the login gate; every other command of a client
that is not logged in is answered 530.
-/

namespace ClusterFtpd

open Interaction MachineInt

/-- Whether the loop goes on. -/
inductive Next where
  | «continue»
  | «break»
  deriving DecidableEq

/-- A statement under a condition. -/
def onlyIf (b : Prop) [Decidable b] (p : CommandProg Unit) : CommandProg Unit :=
  if b then p else return ()

/-! ### Accounts -/

/-- `MaxLoginLen` and `MaxPasswordLen`. -/
def MaxLoginLen : ℕ := 16

/-- The user object made from a record whose privileges are the character `c`. -/
def UserHash.toEntry (h : UserHash) (szLogin : Text) (c : Char) : UserEntry where
  szLogin := szLogin
  szPassword := h.password
  szStartDirectory := h.start_directory
  bIsEnabled := h.enabled = "true".toList
  uid := u32 (atoiText h.uid)
  gid := u32 (atoiText h.gid)
  ucPrivileges := c.toNat % 256
  uiMaxNumberOfClient := u32 (atoiText h.max_logins)

/-- The texts of a record fit the fields of the user object. -/
def UserHash.Fits (h : UserHash) (szLogin : Text) : Prop :=
  szLogin.length ≤ MaxLoginLen ∧ h.password.length ≤ MaxLoginLen ∧
    h.start_directory.length ≤ MAX_PATH

instance (h : UserHash) (szLogin : Text) : Decidable (h.Fits szLogin) :=
  inferInstanceAs (Decidable (_ ∧ _))

/-- Make the user object.  `strcpy` into a field that is too short is undefined, and `lexical_cast`
throws unless the privileges are one character. -/
def userEntry (szLogin : Text) (h : UserHash) : CommandProg UserEntry :=
  if h.Fits szLogin then
    match h.privileges with
    | [c] => return h.toEntry szLogin c
    | _ => .stop .terminate
  else .stop .undefinedBehaviour

/-- `SearchUserFromLogin`, with a connection of its own. -/
def searchUserFromLogin (szLogin : Text) : CommandProg (Option UserEntry) := do
  if ← sys .redisConnect then
    match ← redis (Prog.op (I := RedisI) (.hgetallUsername szLogin)) with
    | some h => return some (← userEntry szLogin h)
    | none => return none
  else return none

/-- `++pUser->uiNumberOfClient`. -/
def UserEntry.counted (u : UserEntry) : UserEntry :=
  { u with uiNumberOfClient := u32 (u.uiNumberOfClient + 1) }

/-- `LogIn`, the change of the client entry. -/
def Client.logIn (c : Client) : Client :=
  { c with bIsLogged := true, pUser := c.pUser.map UserEntry.counted }

/-- `LogOut`.  The counter that is decremented belongs to an object nothing points to any more. -/
def Client.logOut (c : Client) : Client :=
  { c with pUser := none, bIsLogged := false, szWorkingDir := ['/'], szRenameFromPath := [] }

/-- `LogIn`. -/
def logIn : ShellProg Unit := do
  login Client.logIn
  command (sendReply (.line 230 "User Logged In."))

/-- An account that needs no `PASS`. -/
def UserEntry.opens (u : UserEntry) : Bool := u.bIsEnabled && u.szPassword.isEmpty

/-- `USER` with an argument, of a client that is not logged in. -/
def selectUser (szLogin : Text) : ShellProg Unit := do
  let pUser ← command (searchUserFromLogin szLogin)
  login fun c => { c with pUser }
  if pUser.any UserEntry.opens then logIn
  else command (sendReply (.line 331 "Password required for this user."))

/-- `USER`. -/
def cmdUser (pszCmdArg : Option Text) : ShellProg Unit := do
  login fun c => if c.bIsLogged then c.logOut else c
  match pszCmdArg with
  | none => command (sendReply (.line 501 "Invalid number of arguments."))
  | some szLogin => selectUser szLogin

/-- The password is the one of the account, or the account has none. -/
def UserEntry.accepts (u : UserEntry) (pszCmdArg : Option Text) : Bool :=
  pszCmdArg = some u.szPassword || u.szPassword.isEmpty

/-- One more client fits the account, by the counter of the user object. -/
def UserEntry.hasRoom (u : UserEntry) : Bool :=
  u.uiMaxNumberOfClient = 0 || u.uiNumberOfClient < u.uiMaxNumberOfClient

/-- `PASS` of a client that is not logged in: whether it logs in. -/
def checkPass (pszCmdArg : Option Text) : ShellProg Bool := do
  let c ← command client
  match c.pUser with
  | some u =>
      if u.bIsEnabled then
        if u.accepts pszCmdArg then
          if u.hasRoom then do
            logIn
            return true
          else do
            command (sendReply (.line 421 "Too many users logged in for this account."))
            return false
        else if pszCmdArg = none then do
          command (sendReply (.line 501 "Invalid number of arguments."))
          return false
        else return false
      else return false
  | none => return false

/-- The end of a `PASS` that did not log the client in. -/
def rejectPass (cfg : Config) : ShellProg Next := do
  let c ← command client
  if cfg.uiMaxPasswordTries ≠ 0 ∧ cfg.uiMaxPasswordTries ≤ c.nPasswordTries then return .break
  else do
    command (sendReply (.line 530 "Login or password incorrect!"))
    return .continue

/-- `++nPasswordTries`, an `unsigned int`. -/
def Client.countTry (c : Client) : Client :=
  { c with nPasswordTries := u32 (c.nPasswordTries + 1) }

/-- `PASS`.  A client that is logged in is told so and then refused like any other. -/
def cmdPass (cfg : Config) (pszCmdArg : Option Text) : ShellProg Next := do
  login Client.countTry
  let c ← command client
  if c.bIsLogged then do
    command (sendReply (.line 230 "User Logged In."))
    rejectPass cfg
  else do
    let loggedIn ← checkPass pszCmdArg
    if loggedIn then return .continue else rejectPass cfg

/-! ### What the commands share -/

/-- The privilege bits. -/
def READFILE : ℕ := 0x1
def WRITEFILE : ℕ := 0x2
def DELETEFILE : ℕ := 0x4
def LIST : ℕ := 0x8
def CREATEDIR : ℕ := 0x10
def DELETEDIR : ℕ := 0x20

/-- `CheckPrivileges`. -/
def Client.checkPrivileges (c : Client) (ucPriv : ℕ) : Bool :=
  c.bIsLogged && c.pUser.any fun u => ucPriv &&& u.ucPrivileges == ucPriv

/-- A command behind its privilege check. -/
def withPrivilege (ucPriv : ℕ) (body : CommandProg Unit) : CommandProg Unit := do
  let c ← client
  if c.checkPrivileges ucPriv then body else sendReply (.line 550 "Permission denied.")

/-- A command that needs an argument; `refusal` is the text of the 501. -/
def withArg (pszCmdArg : Option Text) (refusal : String) (body : Text → CommandProg Unit) :
    CommandProg Unit :=
  match pszCmdArg with
  | some arg => body arg
  | none => sendReply (.line 501 refusal)

/-- `BuildPath`, with the virtual path. -/
def Client.buildPathVirtual (c : Client) (pszAskedPath : Option Text) : Option (Text × Text) :=
  match c.pUser with
  | some u => ClusterFtpd.buildPathVirtual u.szStartDirectory c.szWorkingDir pszAskedPath
  | none => none

/-- `BuildPath`. -/
def Client.buildPath (c : Client) (pszAskedPath : Option Text) : Option Text :=
  (c.buildPathVirtual pszAskedPath).map Prod.fst

/-- `stat` of a path that `BuildPath` may have refused. -/
def statPath (pszPath : Option Text) : CommandProg (Option (Text × Stat)) :=
  match pszPath with
  | some path => do
      let st ← redis (stat path)
      return st.map fun st => (path, st)
  | none => return none

/-- `CloseSocket` of a data socket, if there is one. -/
def closeData : Option ℕ → CommandProg Unit
  | some fd => sys (.closeSocket fd)
  | none => return ()

/-- `ResetDataConnection`. -/
def resetDataConnection (bSyncWait : Bool) : CommandProg Unit := do
  let c ← client
  closeData c.DataSock
  onlyIf (c.CurrentTransfer.TransferThreadID ∧ bSyncWait) (sys .pthread_cancel)
  modify fun c => { c with
    DataSock := none, CurrentTransfer := {}, eStatus := .waiting, eDataConnection := .none }

/-- `pthread_create` of a transfer thread: whether it runs.  The identifier of the thread is stored
before the thread starts.  A failure leaves it as it was and resets the data connection. -/
def startTransfer (thread : TransferThread) : CommandProg Bool := do
  let c ← client
  modifyTransfer fun t => { t with TransferThreadID := true }
  if ← sys (.pthread_create thread) then return true
  else do
    modifyTransfer fun t => { t with TransferThreadID := c.CurrentTransfer.TransferThreadID }
    resetDataConnection true
    return false

/-- `GetRandomSlave`. -/
def getRandomSlave (cfg : Config) : CommandProg SlaveInfo := do
  let r ← sys .rand
  match cfg.Slaves[r % cfg.Slaves.length % 65536]? with
  | some slave => return slave
  | none => .stop .undefinedBehaviour

/-- A port of the data port range at random; an empty range divides by zero. -/
def randomPort (cfg : Config) : CommandProg ℕ := do
  let r ← sys .rand
  if cfg.usLen = 0 then .stop .undefinedBehaviour else return (cfg.usStart + r % cfg.usLen) % 65536

/-! ### Settings -/

/-- `STRU`. -/
def cmdStru (arg : Text) : CommandProg Unit :=
  if arg = "F".toList then sendReply (.line 200 "STRU Command Successful.")
  else sendReply (.line 504 "STRU failed. Parameter not implemented")

/-- `MODE`, without compression. -/
def cmdMode (arg : Text) : CommandProg Unit :=
  if arg = "S".toList then do
    modify fun c => { c with eDataMode := .stream }
    sendReply (.line 200 "MODE set to S.")
  else if arg = "Z".toList then sendReply (.line 502 "MODE Z non-implemented.")
  else sendReply (.line 504 ("\"" ++ String.ofList arg ++ "\": Unsupported transfer MODE."))

/-- `TYPE`. -/
def cmdType (arg : Text) : CommandProg Unit :=
  if arg.head? = some 'A' then do
    modify fun c => { c with eDataType := .ascii }
    sendReply (.line 200 "ASCII transfer mode active.")
  else if arg.head? = some 'I' then do
    modify fun c => { c with eDataType := .binary }
    sendReply (.line 200 "Binary transfer mode active.")
  else sendReply (.line 550 "Error - unknown binary mode.")

/-- `REST`; `RestartAt` is an `int`. -/
def cmdRest (pszCmdArg : Option Text) : CommandProg Unit := do
  let c ← client
  match (if c.eStatus = .waiting then pszCmdArg else none) with
  | some arg => do
      modifyTransfer fun t => { t with RestartAt := atoiText arg }
      sendReply (.line 350 "REST command successful.")
  | none => sendReply (.line 501 "Syntax error in arguments.")

/-! ### Data connections -/

/-- `inet_addr("127.0.0.1")` on a little-endian machine. -/
def loopbackIP : ℕ := 0x0100007F

/-- `PORT`.  The address has to be the originator's when FXP is *enabled*. -/
def cmdPort (cfg : Config) (pszCmdArg : Option Text) : CommandProg Unit := do
  let c ← client
  match (if c.eStatus = .waiting then pszCmdArg.bind scanPort else none) with
  | some (ulPortIp, port) => do
      onlyIf (c.eDataConnection ≠ .none) (resetDataConnection true)
      if ¬ cfg.bEnableFXP ∨ ulPortIp = c.ulClientIP ∨ c.ulClientIP = loopbackIP then do
        modify fun c => { c with
          eDataConnection := .port, ulDataIp := ulPortIp, usDataPort := port }
        sendReply (.line 200 "PORT command successful.")
      else sendReply (.line 501 "PORT address does not match originator.")
  | none => sendReply (.line 501 "Syntax error in arguments.")

/-- The search for a free port, downwards from `usFirstTry` and around.  `fuel` bounds the tries:
a search that is still going on has lost its way back to `usFirstTry`. -/
def bindLoop (cfg : Config) (fd usFirstTry : ℕ) : (fuel : ℕ) → (usTriedPort : ℕ) →
    CommandProg (Option ℕ)
  | 0, _ => .stop .loops
  | fuel + 1, usTriedPort => do
      if ← sys (.bind fd usTriedPort) then return some usTriedPort
      else
        let below := (usTriedPort + 65535) % 65536
        let next := if below < usFirstTry then (cfg.usStart + cfg.usLen) % 65536 else below
        if next = usFirstTry then return none else bindLoop cfg fd usFirstTry fuel next

/-- `227 Entering Passive Mode`, for an address in network order. -/
def passiveReply (ip port : ℕ) : Reply :=
  .line 227 ("Entering Passive Mode (" ++ toString (ip % 256) ++ "," ++ toString (ip / 256 % 256) ++
    "," ++ toString (ip / 65536 % 256) ++ "," ++ toString (ip / 16777216 % 256) ++ "," ++
    toString (port / 256) ++ "," ++ toString (port % 256) ++ ")")

/-- `PASV` without a `PRET`: a data socket of the metaserver. -/
def pasvLocal (cfg : Config) : CommandProg Unit := do
  let c ← client
  onlyIf (c.eDataConnection ≠ .none) (resetDataConnection true)
  let DataSock ← sys .socket
  modify fun c => { c with DataSock }
  match DataSock with
  | none => return ()
  | some fd => do
      if ← sys (.setsockopt fd) then do
        modify fun c => { c with usDataPort := 0 }
        let usFirstTry ← randomPort cfg
        let usTriedPort ← bindLoop cfg fd usFirstTry 131072 usFirstTry
        modify fun c => { c with usDataPort := usTriedPort.getD 0 }
        if usTriedPort.getD 0 = 0 then
          sendReply (.line 451 "Internal error - No more data port available.")
        else if ← sys (.listen fd) then do
          sendReply (passiveReply c.ulServerIP (usTriedPort.getD 0))
          modify fun c => { c with eDataConnection := .pasv }
        else return ()
      else return ()

/-- The slave `PASV` chooses after a `PRET`. -/
def pasvSlave (cfg : Config) (cmd : PretCmd) (llPRET_fid : ℤ) : CommandProg SlaveInfo :=
  match cmd with
  | .stor =>
      if cfg.Slaves = [] then do
        sendReply (.line 550 "Can't store file.")
        return {}
      else getRandomSlave cfg
  | _ => redis (lookupSlaveInfoFid llPRET_fid)

/-- `PASV` after a `PRET`: a data socket of a slave. -/
def pasvRemote (cfg : Config) (cmd : PretCmd) : CommandProg Unit := do
  let c ← client
  let slave ← pasvSlave cfg cmd c.llPRET_fid
  modify fun c => { c with SlaveInfo := slave }
  let trans_id ← redis getNewTransactionId
  modify fun c => { c with llPRET_trans_id := trans_id }
  let answer ← sys (.initPasvDataConnection slave { server_ip := slave.host, trans_id }
    cfg.usStart cfg.usLen)
  match ← rpc answer with
  | none => sendReply (.line 425 "Can't open data connection.")
  | some reply => do
      sendReply reply
      modify fun c => { c with eDataConnection := .pasv }

/-- `PASV`. -/
def cmdPasv (cfg : Config) : CommandProg Unit := do
  let c ← client
  if c.eStatus = .waiting then
    match c.nPRET_CMD with
    | none => pasvLocal cfg
    | some cmd => pasvRemote cfg cmd
  else sendReply (.line 425 "You're already connected.")

/-- The command a `PRET` is for. -/
def pretCmd (scmd : Text) : Option PretCmd :=
  if scmd = "RETR".toList then some .retr
  else if scmd = "APPE".toList then some .appe
  else if scmd = "STOR".toList then some .stor
  else none

/-- `PRET`.  `cmd` has 4 bytes, so a word of 4 letters already writes one byte behind it; this byte
is taken to do no harm.  Longer words, and words that are not there, are undefined. -/
def cmdPret (arg : Text) : CommandProg Unit := do
  let (cmd, rest) := scanWord arg
  let (file, _) := scanWord rest
  if cmd = [] ∨ 4 < cmd.length ∨ MAX_PATH < file.length then .stop .undefinedBehaviour
  else do
    modify fun c => { c with nPRET_CMD := pretCmd cmd }
    if pretCmd cmd = some .retr ∨ pretCmd cmd = some .appe then
      if file = [] then .stop .undefinedBehaviour
      else do
        let c ← client
        match ← statPath (c.buildPath (some file)) with
        | some (path, st) =>
            if S_ISREG st.st_mode then do
              let fid ← redis (lookupFid path)
              modify fun c => { c with llPRET_fid := fid }
              if 0 ≤ fid then sendReply (.line 200 "Command OK")
              else sendReply (.line 550 "No such file or directory.")
            else sendReply (.line 550 "No such file or directory.")
        | none => sendReply (.line 550 "No such file or directory.")
    else sendReply (.line 200 "Command OK")

/-- The passive half of `OpenDataConnection`: `select` and `accept`. -/
def acceptData (fd : ℕ) : CommandProg Bool := do
  if ← sys (.select fd) then do
    let sTmpWs ← sys (.accept fd)
    sys (.closeSocket fd)
    modify fun c => { c with DataSock := sTmpWs }
    if sTmpWs.isSome then do
      sendReply (.line 150 "Connection accepted.")
      return true
    else return false
  else return false

/-- The active half of `OpenDataConnection`: `bind` and `connect`.  The port goes into `sin_port`
without `htons`. -/
def connectData (cfg : Config) (fd : ℕ) : CommandProg Bool := do
  let c ← client
  let port ← randomPort cfg
  let _ ← sys (.setsockopt fd)
  if ← sys (.bind fd (ntohs port)) then sys (.connect fd c.ulDataIp c.usDataPort) else return false

/-- The socket of an active data connection. -/
def activeSocket : CommandProg Unit := do
  sendReply (.line 150 "Opening data channel.")
  let DataSock ← sys .socket
  modify fun c => { c with DataSock }

/-- The socket calls of `OpenDataConnection`. -/
def tryDataConnection (cfg : Config) : CommandProg Bool := do
  let c ← client
  match c.DataSock with
  | some fd => do
      if ← sys (.setsockopt fd) then
        if c.eDataConnection = .pasv then acceptData fd else connectData cfg fd
      else return false
  | none => return false

/-- `OpenDataConnection`; its callers have checked that no transfer is going on. -/
def openDataConnection (cfg : Config) : CommandProg Bool := do
  let c ← client
  if c.eDataConnection = .none then do
    sendReply (.line 503 "Bad sequence of commands.")
    return false
  else do
    onlyIf (c.eDataConnection = .port) activeSocket
    let opened ← tryDataConnection cfg
    if opened then return true
    else do
      sendReply (.line 425 "Can't open data connection.")
      resetDataConnection true
      return false

/-- The RPC `OpenPasvDataConnection` in front of a passive transfer: whether the command goes on.
The reply of the slave is passed on as it is. -/
def openSlaveConnection : CommandProg Bool := do
  let c ← client
  if c.eDataConnection = .pasv then do
    let answer ← sys (.openPasvDataConnection c.SlaveInfo { trans_id := c.llPRET_trans_id })
    match ← rpc answer with
    | none => do
        sendReply (.line 425 "Can't open data connection.")
        return false
    | some reply => do
        sendReply reply
        return true
  else return true

/-! ### Listings -/

/-- Where the listing goes: `STAT` writes on the control connection. -/
def openListing (cfg : Config) (nCmd : Cmd) : CommandProg Bool :=
  if nCmd = .stat then do
    sendReply (.multiline 213 "Status follows:")
    modifyTransfer fun t => { t with SockList := .ctrl }
    return true
  else do
    let opened ← openDataConnection cfg
    onlyIf opened (modifyTransfer fun t => { t with SockList := .data })
    return opened

/-- `LIST`, `NLST` and `STAT` of a path. -/
def cmdList (cfg : Config) (nCmd : Cmd) (pszCmdArg : Option Text) : CommandProg Unit := do
  let c ← client
  if c.eStatus ≠ .waiting then sendReply (.line 425 "You're already connected.")
  else do
    let options := (pszCmdArg.map fun arg => (scanOptions .dash {} arg).1).getD {}
    let pszArg := pszCmdArg.map fun arg => (scanOptions .dash {} arg).2
    modifyTransfer fun _ => { options }
    match ← statPath (c.buildPath pszArg) with
    | some (path, st) => do
        modifyTransfer fun t => { t with szPath := path, st := some st }
        let opened ← openListing cfg nCmd
        onlyIf opened do
          modify fun c => { c with
            eStatus := .listing
            CurrentTransfer := { c.CurrentTransfer with nCmd := some nCmd } }
          discard (startTransfer .list)
    | none => sendReply (.line 550 "No such file or directory.")

/-! ### Directories and files -/

/-- `PWD` and `XPWD`. -/
def cmdPwd : CommandProg Unit := do
  let c ← client
  sendReply (.line 257 ("\"" ++ String.ofList c.szWorkingDir ++ "\" is current directory."))

/-- `%02d` and `%04d`. -/
def padded (width n : ℕ) : String :=
  String.ofList (List.replicate (width - (toString n).length) '0') ++ toString n

/-- `MDTM`. -/
def cmdMdtm (arg : Text) : CommandProg Unit := do
  let c ← client
  match ← statPath (c.buildPath (some arg)) with
  | some (_, st) => do
      match ← sys (.gmtime st.st_mtime) with
      | some t =>
          sendReply (.line 213 (padded 4 t.year ++ padded 2 t.month ++ padded 2 t.day ++
            padded 2 t.hour ++ padded 2 t.min ++ padded 2 t.sec))
      | none => sendReply (.line 550 "No such file or directory.")
  | none => sendReply (.line 550 "No such file or directory.")

/-- `SIZE`. -/
def cmdSize (arg : Text) : CommandProg Unit := do
  let c ← client
  match ← statPath (c.buildPath (some arg)) with
  | some (_, st) =>
      if S_ISREG st.st_mode then sendReply (.line 213 (toString st.st_size))
      else sendReply (.line 550 "No such file.")
  | none => sendReply (.line 550 "No such file.")

/-- `DELE`, from its argument on. -/
def shellDele (arg : Text) : CommandProg Unit := do
  let c ← client
  let reply ← redis (cmdDele (c.buildPath (some arg)))
  sendReply reply

/-- `RNFR`, from its argument on. -/
def shellRnfr (arg : Text) : CommandProg Unit := do
  let c ← client
  let (reply, szRenameFromPath) ← redis (cmdRnfr (c.buildPath (some arg)) c.szRenameFromPath)
  modify fun c => { c with szRenameFromPath }
  sendReply reply

/-- `RNTO`, from its argument on. -/
def shellRnto (arg : Text) : CommandProg Unit := do
  let c ← client
  let reply ← redis (cmdRnto (c.buildPath (some arg)) c.szRenameFromPath)
  sendReply reply
  modify fun c => { c with szRenameFromPath := [] }

/-- `MKD` and `XMKD`, from the argument on. -/
def shellMkd (arg : Text) : CommandProg Unit := do
  let c ← client
  let now ← sys .time
  match c.pUser with
  | some u => do
      let reply ← redis (cmdMkd now (c.buildPath (some arg)) u.uid u.gid)
      sendReply reply
  | none => sendReply (.line 550 "File Already Exists.")

/-- `RMD` and `XRMD`, from the argument on. -/
def shellRmd (arg : Text) : CommandProg Unit := do
  let c ← client
  let reply ← redis (cmdRmd (c.buildPath (some arg)))
  sendReply reply

/-- `ABOR`. -/
def cmdAbor : CommandProg Unit := do
  let c ← client
  onlyIf (c.eStatus ≠ .waiting) do
    resetDataConnection true
    sendReply (.line 426 "Previous command has been finished abnormally.")
  sendReply (.line 226 "ABOR command successful.")

/-! ### Transfers -/

/-- `RETR`, from its argument on. -/
def cmdRetr (arg : Text) : CommandProg Unit := do
  let c ← client
  match ← statPath (c.buildPath (some arg)) with
  | some (path, st) =>
      if S_ISREG st.st_mode then do
        let opened ← openSlaveConnection
        onlyIf opened do
          modify fun c => { c with
            eStatus := .downloading, CurrentTransfer := { c.CurrentTransfer with szPath := path } }
          discard (startTransfer .retrieve)
      else sendReply (.line 550 "File not found.")
  | none => sendReply (.line 550 "File not found.")

/-- The path of an upload.  `STOU` makes up a name, and says nothing when the name is taken. -/
def uploadPath (cmd : UploadCmd) (pszCmdArg : Option Text) : CommandProg (Option Text) := do
  let c ← client
  match cmd with
  | .stou => do
      let r ← sys .rand
      let szName := "file.".toList ++ (toString (r % 9999999)).toList
      match c.buildPath (some szName) with
      | none => return none
      | some path => do
          let st ← redis (stat path)
          if st.isSome then return none
          else do
            sendReply (.line 150 ("FILE: " ++ String.ofList szName))
            return some path
  | _ => return c.buildPath pszCmdArg

/-- `APPE` goes on at the end of what is there. -/
def appendOffset (path : Text) : CommandProg Unit := do
  let st ← redis (stat path)
  modifyTransfer fun t => { t with RestartAt := (st.map Stat.st_size).getD 0 }

/-- The command starts the transfer thread. -/
def startStore (cmd : UploadCmd) (path : Text) : CommandProg Bool := do
  modify fun c => { c with eStatus := .uploading }
  onlyIf (cmd = .appe) (appendOffset path)
  modifyTransfer fun t => { t with szPath := path }
  startTransfer .store

/-- `STOR`, `APPE` and `STOU`, behind the privilege check: whether the transfer thread runs. -/
def cmdStore (cmd : UploadCmd) (pszCmdArg : Option Text) : CommandProg Bool :=
  if pszCmdArg.isSome ∨ cmd = .stou then do
    match ← uploadPath cmd pszCmdArg with
    | some path => do
        let opened ← openSlaveConnection
        if opened then startStore cmd path else return false
    | none => return false
  else do
    sendReply (.line 501 "Syntax error in arguments.")
    return false

/-! ### The working directory -/

/-- The directory `CWD` goes to: the virtual path, if the path is a directory. -/
def newWorkingDir (arg : Text) : CommandProg (Option Text) := do
  let c ← client
  match c.buildPathVirtual (some arg) with
  | some (pszPath, pszVirtualPath) => do
      let st ← redis (stat pszPath)
      return if st.any fun st => S_ISDIR st.st_mode then some pszVirtualPath else none
  | none => return none

/-- `CWD` and `XCWD`. -/
def cmdCwd (pszCmdArg : Option Text) : ShellProg Unit :=
  match pszCmdArg with
  | some arg => do
      match ← command (newWorkingDir arg) with
      | some szWorkingDir => do
          login fun c => { c with szWorkingDir }
          command (sendReply (.line 250 "CWD command successful."))
      | none => command (sendReply (.line 550 "No such file or directory."))
  | none => command (sendReply (.line 501 "Invalid number of arguments."))

/-- `strncat(szWorkingDir, "/..", 3)` and `SimplifyPath`. -/
def cdup (szWorkingDir : Text) : Text := simplifyPath (szWorkingDir ++ ['/', '.', '.'])

/-- `CDUP` and `XCUP`. -/
def cmdCdup : ShellProg Unit := do
  login fun c => { c with szWorkingDir := cdup c.szWorkingDir }
  command (sendReply (.line 250 "CDUP command successful."))

/-! ### The loop -/

/-- The other commands of a client that is logged in. -/
def shellCmd (cfg : Config) (nCmd : Cmd) (pszCmdArg : Option Text) : CommandProg Unit :=
  match nCmd with
  | .noop | .allo => sendReply (.line 200 "NOOP Command Successful.")
  | .help => sendReply (.line 500 "No Help Available.")
  | .syst => sendReply (.line 215 "UNIX Type: L8")
  | .clnt => withArg pszCmdArg "Invalid number of arguments." fun _ => sendReply (.line 200 "Ok.")
  | .stru => withArg pszCmdArg "Invalid number of arguments." cmdStru
  | .opts =>
      withArg pszCmdArg "Invalid number of arguments." fun _ =>
        sendReply (.line 501 "Option not understood.")
  | .mode => withArg pszCmdArg "Invalid number of arguments." cmdMode
  | .type => withArg pszCmdArg "Invalid number of arguments." cmdType
  | .feat =>
      sendReply (.multiline 211
        "Features:\r\n CLNT\r\n MDTM\r\n REST STREAM\r\n PRET\r\n SIZE\r\n211 End")
  | .port => cmdPort cfg pszCmdArg
  | .pret => withArg pszCmdArg "Invalid number of arguments." cmdPret
  | .pasv => cmdPasv cfg
  | .list | .nlst => withPrivilege LIST (cmdList cfg nCmd pszCmdArg)
  | .stat =>
      if pszCmdArg = none then
        sendReply (.line 211 ":: CFtpServer / Browser FTP Server:: thebrowser@gmail.com")
      else withPrivilege LIST (cmdList cfg nCmd pszCmdArg)
  | .mdtm => withArg pszCmdArg "Invalid number of arguments." cmdMdtm
  | .pwd | .xpwd => cmdPwd
  | .abor => cmdAbor
  | .rest => cmdRest pszCmdArg
  | .retr => withPrivilege READFILE (withArg pszCmdArg "Syntax error in arguments." cmdRetr)
  | .stor => withPrivilege WRITEFILE (discard (cmdStore .stor pszCmdArg))
  | .appe => withPrivilege WRITEFILE (discard (cmdStore .appe pszCmdArg))
  | .stou => withPrivilege WRITEFILE (discard (cmdStore .stou pszCmdArg))
  | .size => withArg pszCmdArg "Syntax error in arguments." cmdSize
  | .dele => withPrivilege DELETEFILE (withArg pszCmdArg "Syntax error in arguments." shellDele)
  | .rnfr => withPrivilege DELETEFILE (withArg pszCmdArg "Syntax error in arguments." shellRnfr)
  | .rnto => withArg pszCmdArg "Syntax error in arguments." shellRnto
  | .mkd | .xmkd => withPrivilege CREATEDIR (withArg pszCmdArg "Syntax error in arguments." shellMkd)
  | .rmd | .xrmd => withPrivilege DELETEDIR (withArg pszCmdArg "Syntax error in arguments." shellRmd)
  | .quit | .user | .pass | .cwd | .xcwd | .cdup | .xcup | .site =>
      sendReply (.line 500 "Command not understood.")

/-- The commands behind the login gate. -/
def shellLogged (cfg : Config) (nCmd : Cmd) (pszCmdArg : Option Text) : ShellProg Unit :=
  match nCmd with
  | .cwd | .xcwd => cmdCwd pszCmdArg
  | .cdup | .xcup => cmdCdup
  | nCmd => command (shellCmd cfg nCmd pszCmdArg)

/-- One turn of the loop. -/
def dispatch (cfg : Config) (nCmd : Option Cmd) (pszCmdArg : Option Text) : ShellProg Next :=
  match nCmd with
  | none => do
      command (sendReply (.line 500 "Command not understood."))
      return .continue
  | some .quit => do
      command (sendReply (.line 221 "Goodbye."))
      return .break
  | some .user => do
      cmdUser pszCmdArg
      return .continue
  | some .pass => cmdPass cfg pszCmdArg
  | some nCmd => do
      let c ← command client
      if c.bIsLogged then do
        shellLogged cfg nCmd pszCmdArg
        return .continue
      else do
        command (sendReply (.line 530 "Please login with USER and PASS."))
        return .continue

end ClusterFtpd
