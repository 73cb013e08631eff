import ClusterFtpd.CommandLine
import ClusterFtpd.VfsCommands

/-!
# The client entry and the world a session runs in

`Client` is the state of a `CClientEntry` that the command shell reads and writes, `UserEntry` the
user object it points to.  A session is a program over `ShellI`: it talks to Redis, reads and
changes its client entry, sends replies, and asks the system (`SysOp`: the C library, the sockets
and the RPCs to the slaves).

`serveShell env` runs a session in a `World`.  The answers of the system are a parameter, a
function of how many were asked before, so a statement for every `env` covers every outcome of
every call.
-/

namespace ClusterFtpd

open Interaction MachineInt

/-- `CUserEntry`. -/
structure UserEntry where
  szLogin : Text
  szPassword : Text
  szStartDirectory : Text
  bIsEnabled : Bool
  uid : ℕ
  gid : ℕ
  ucPrivileges : ℕ
  uiMaxNumberOfClient : ℕ
  uiNumberOfClient : ℕ := 0
  deriving DecidableEq

/-- `Status_t`. -/
inductive Status where
  | waiting | listing | uploading | downloading
  deriving DecidableEq

/-- `DataConnection_t`. -/
inductive DataConnection where
  | none | pasv | port
  deriving DecidableEq

/-- `DataMode_t`, without the compression that is not compiled in. -/
inductive DataMode where
  | stream
  deriving DecidableEq

/-- `DataType_t`. -/
inductive DataType where
  | ascii | binary | ebcdic
  deriving DecidableEq

/-- The commands that `PRET` remembers; `CMD_NONE` is `none`. -/
inductive PretCmd where
  | retr | appe | stor
  deriving DecidableEq

/-- Where a listing is sent. -/
inductive SockList where
  | none | ctrl | data
  deriving DecidableEq

/-- `DataTransfer_t`.  `TransferThreadID` tells whether it is not 0. -/
structure DataTransfer where
  RestartAt : ℤ := 0
  szPath : Text := []
  st : Option Stat := none
  nCmd : Option Cmd := none
  SockList : SockList := .none
  options : ListOptions := {}
  TransferThreadID : Bool := false
  deriving DecidableEq

/-- The login and the working directory of a client: what `USER`, `PASS`, `CWD` and `CDUP` change. -/
structure LoginState where
  pUser : Option UserEntry := none
  bIsLogged : Bool := false
  nPasswordTries : ℕ := 0
  szWorkingDir : Text := ['/']
  deriving DecidableEq

/-- What the other commands change.  `INVALID_SOCKET` is `none`. -/
structure CommandState where
  szRenameFromPath : Text := []
  eStatus : Status := .waiting
  eDataMode : DataMode := .stream
  eDataType : DataType := .ascii
  eDataConnection : DataConnection := .none
  ulDataIp : ℕ := 0
  usDataPort : ℕ := 0
  DataSock : Option ℕ := none
  CurrentTransfer : DataTransfer := {}
  nPRET_CMD : Option PretCmd := none
  llPRET_fid : ℤ := -1
  llPRET_trans_id : ℤ := -1
  SlaveInfo : SlaveInfo := {}
  deriving DecidableEq

/-- `CClientEntry`, with the two addresses of the control connection. -/
structure Client extends LoginState, CommandState where
  ulServerIP : ℕ := 0
  ulClientIP : ℕ := 0
  deriving DecidableEq

/-- The configuration of the server. -/
structure Config where
  bEnableFXP : Bool := false
  uiMaxPasswordTries : ℕ := 3
  uiTransferBufferSize : ℕ := 32768
  usStart : ℕ := 100
  usLen : ℕ := 900
  Slaves : List SlaveInfo := []

/-! ### The RPCs to the slaves -/

/-- `PasvParams`; `server_ip` is the host whose `inet_addr` is sent. -/
structure PasvParams where
  server_ip : Text := []
  server_port : ℕ := 0
  fid : ℤ := 0
  restart_at : ℤ := 0
  transfer_buffer_size : ℕ := 0
  trans_id : ℤ
  deriving DecidableEq

/-- `ActiveParams`. -/
structure ActiveParams where
  client_ip : ℕ
  client_port : ℕ
  fid : ℤ
  restart_at : ℤ
  transfer_buffer_size : ℕ
  server_ip : Text
  server_port : ℕ
  trans_id : ℤ
  deriving DecidableEq

/-- The open flags of an upload besides `O_WRONLY | O_CREAT`. -/
inductive OpenFlag where
  | append | trunc
  deriving DecidableEq

/-- `StorRetVal`. -/
structure StorRetVal where
  msg : Reply
  size : ℤ
  deriving DecidableEq

/-- How an RPC ends: with its result, with a `TException`, or not at all. -/
inductive RpcResult (α : Type) where
  | reply (a : α)
  | exception
  | noReturn
  deriving DecidableEq

/-- The transfer threads. -/
inductive TransferThread where
  | list | retrieve | store
  deriving DecidableEq

/-- `struct tm`, as far as `MDTM` prints it. -/
structure Tm where
  year : ℕ
  month : ℕ
  day : ℕ
  hour : ℕ
  min : ℕ
  sec : ℕ

/-- `ntohs` on a little-endian machine. -/
def ntohs (x : ℕ) : ℕ := x % 256 * 256 + x / 256 % 256

/-- The calls of a session to the system.  The port of `bind` is the one that is bound, in host
order. -/
inductive SysOp where
  | rand
  | time
  | gmtime (t : ℤ)
  | redisConnect
  | socket
  | setsockopt (fd : ℕ)
  | bind (fd : ℕ) (port : ℕ)
  | listen (fd : ℕ)
  | select (fd : ℕ)
  | accept (fd : ℕ)
  | connect (fd : ℕ) (ip port : ℕ)
  | closeSocket (fd : ℕ)
  | pthread_create (thread : TransferThread)
  | pthread_cancel
  | initPasvDataConnection (slave : SlaveInfo) (p : PasvParams) (startPort portLen : ℕ)
  | openPasvDataConnection (slave : SlaveInfo) (p : PasvParams)
  | activeStoreTransfer (slave : SlaveInfo) (p : ActiveParams) (iflags : OpenFlag)
  | pasvStoreTransfer (slave : SlaveInfo) (p : PasvParams) (iflags : OpenFlag)
  | activeRetrieveTransfer (slave : SlaveInfo) (p : ActiveParams)
  | pasvRetrieveTransfer (slave : SlaveInfo) (p : PasvParams)

/-- What each call answers: calls that can only fail or not say whether they succeeded. -/
abbrev SysOp.Res : SysOp → Type
  | .rand => ℕ
  | .time => ℤ
  | .gmtime _ => Option Tm
  | .socket => Option ℕ
  | .accept _ => Option ℕ
  | .closeSocket _ => Unit
  | .pthread_cancel => Unit
  | .initPasvDataConnection .. => RpcResult Reply
  | .openPasvDataConnection .. => RpcResult Reply
  | .activeStoreTransfer .. => RpcResult StorRetVal
  | .pasvStoreTransfer .. => RpcResult StorRetVal
  | .activeRetrieveTransfer .. => RpcResult Reply
  | .pasvRetrieveTransfer .. => RpcResult Reply
  | _ => Bool

/-! ### Sessions as programs -/

/-- The operations of a command. -/
inductive CommandOp where
  | redis (o : RedisOp)
  | client
  | modify (f : CommandState → CommandState)
  | sendReply (r : Reply)
  | sys (o : SysOp)

/-- The answers to them. -/
abbrev CommandOp.Res : CommandOp → Type
  | .redis o => o.Res
  | .client => Client
  | .modify _ => Unit
  | .sendReply _ => Unit
  | .sys o => o.Res

/-- The interface of a command. -/
abbrev CommandI : Interface := ⟨CommandOp, CommandOp.Res⟩

/-- The operations of a session: those of a command, and changes of the login. -/
inductive ShellOp where
  | command (o : CommandOp)
  | login (f : Client → Client)

/-- The answers to them. -/
abbrev ShellOp.Res : ShellOp → Type
  | .command o => o.Res
  | .login _ => Unit

/-- The interface of a session. -/
abbrev ShellI : Interface := ⟨ShellOp, ShellOp.Res⟩

/-- The programs of commands, and of sessions. -/
abbrev CommandProg := Prog CommandI
abbrev ShellProg := Prog ShellI

/-- What a session runs in: the database, its client entry, the replies sent and the number of
calls to the system. -/
structure World where
  db : Redis
  client : Client
  replies : List Reply := []
  clock : ℕ := 0

/-- The answers of the system to the calls of a session, in their order. -/
abbrev Env := ℕ → (o : SysOp) → o.Res

/-- A system whose calls succeed, and whose RPCs do not. -/
def Env.calm : Env := fun _ o =>
  match o with
  | .rand => 0
  | .time => 0
  | .gmtime _ => none
  | .redisConnect => true
  | .socket => some 3
  | .setsockopt _ => true
  | .bind _ _ => true
  | .listen _ => true
  | .select _ => true
  | .accept _ => some 4
  | .connect _ _ _ => true
  | .closeSocket _ => ()
  | .pthread_create _ => true
  | .pthread_cancel => ()
  | .initPasvDataConnection _ _ _ _ => .exception
  | .openPasvDataConnection _ _ => .exception
  | .activeStoreTransfer _ _ _ => .exception
  | .pasvStoreTransfer _ _ _ => .exception
  | .activeRetrieveTransfer _ _ => .exception
  | .pasvRetrieveTransfer _ _ => .exception

/-- A system whose calls and RPCs succeed. -/
def Env.willing : Env := fun n o =>
  match o with
  | .initPasvDataConnection _ _ _ _ => .reply (.line 227 "Entering Passive Mode")
  | .openPasvDataConnection _ _ => .reply (.line 150 "Opening data channel")
  | .activeStoreTransfer _ _ _ => .reply ⟨.line 226 "Transfer complete", 1⟩
  | .pasvStoreTransfer _ _ _ => .reply ⟨.line 226 "Transfer complete", 1⟩
  | .activeRetrieveTransfer _ _ => .reply (.line 226 "Transfer complete")
  | .pasvRetrieveTransfer _ _ => .reply (.line 226 "Transfer complete")
  | o => Env.calm n o

/-- Run the operations of a command. -/
def serveCommand (env : Env) : Handler CommandI World
  | .redis o, w => ((serveRedis o w.db).1, { w with db := (serveRedis o w.db).2 })
  | .client, w => (w.client, w)
  | .modify f, w =>
      ((), { w with client := { w.client with toCommandState := f w.client.toCommandState } })
  | .sendReply r, w => ((), { w with replies := w.replies ++ [r] })
  | .sys o, w => (env w.clock o, { w with clock := w.clock + 1 })

/-- Run the operations of a session. -/
def serveShell (env : Env) : Handler ShellI World
  | .command o, w => serveCommand env o w
  | .login f, w => ((), { w with client := f w.client })

/-- Read the client entry. -/
def client : CommandProg Client := Prog.op (I := CommandI) .client

/-- Change the client entry. -/
def modify (f : CommandState → CommandState) : CommandProg Unit :=
  Prog.op (I := CommandI) (.modify f)

/-- Change the current transfer. -/
def modifyTransfer (f : DataTransfer → DataTransfer) : CommandProg Unit :=
  modify fun c => { c with CurrentTransfer := f c.CurrentTransfer }

/-- `SendReply`. -/
def sendReply (r : Reply) : CommandProg Unit := Prog.op (I := CommandI) (.sendReply r)

/-- A call to the system. -/
def sys (o : SysOp) : CommandProg o.Res := Prog.op (I := CommandI) (.sys o)

/-- A program of Redis commands on the connection of the session. -/
def redis {α : Type} (p : RedisProg α) : CommandProg α :=
  translate (J := CommandI) CommandOp.redis (fun _ r => r) p

/-- The result of an RPC, `none` for an exception; a call that does not return blocks. -/
def rpc {α : Type} : RpcResult α → CommandProg (Option α)
  | .reply a => return some a
  | .exception => return none
  | .noReturn => .stop .blocked

/-- A command in a session. -/
def command {α : Type} (p : CommandProg α) : ShellProg α :=
  translate (J := ShellI) ShellOp.command (fun _ r => r) p

/-- Change the login. -/
def login (f : Client → Client) : ShellProg Unit := Prog.op (I := ShellI) (.login f)

/-! ### Running them -/

variable {α β : Type} (env : Env) (w : World)

@[simp] theorem run_client_bind (f : Client → CommandProg β) :
    run (serveCommand env) (client >>= f) w = run (serveCommand env) (f w.client) w := rfl

@[simp] theorem run_modify_bind (g : CommandState → CommandState) (f : Unit → CommandProg β) :
    run (serveCommand env) (modify g >>= f) w =
      run (serveCommand env) (f ())
        { w with client := { w.client with toCommandState := g w.client.toCommandState } } := rfl

@[simp] theorem run_sendReply_bind (r : Reply) (f : Unit → CommandProg β) :
    run (serveCommand env) (sendReply r >>= f) w =
      run (serveCommand env) (f ()) { w with replies := w.replies ++ [r] } := rfl

theorem run_sys_bind (o : SysOp) (f : o.Res → CommandProg β) :
    run (serveCommand env) (sys o >>= f) w =
      run (serveCommand env) (f (env w.clock o)) { w with clock := w.clock + 1 } := rfl

@[simp] theorem run_sendReply (r : Reply) :
    run (serveCommand env) (sendReply r) w = .done () { w with replies := w.replies ++ [r] } := rfl

@[simp] theorem run_login_bind (g : Client → Client) (f : Unit → ShellProg β) :
    run (serveShell env) (login g >>= f) w =
      run (serveShell env) (f ()) { w with client := g w.client } := rfl

@[simp] theorem run_login (g : Client → Client) :
    run (serveShell env) (login g) w = .done () { w with client := g w.client } := rfl

/-- A program of Redis commands runs on the database alone. -/
@[simp] theorem run_redis (p : RedisProg α) :
    run (serveCommand env) (redis p) w =
      (run serveRedis p w.db).mapState fun db => { w with db := db } :=
  run_translate (fun t : World => t.db) (fun t s => { t with db := s }) (fun _ _ => rfl)
    (fun _ _ _ => rfl) (fun _ => rfl) (fun _ _ => ⟨rfl, rfl⟩) p w

/-- A command runs in a session as it does alone. -/
@[simp] theorem run_command (p : CommandProg α) :
    run (serveShell env) (command p) w = run (serveCommand env) p w := by
  have hrun := run_translate (h := serveCommand env) (g := serveShell env) (fun t : World => t)
    (fun _ s => s) (fun _ _ => rfl) (fun _ _ _ => rfl) (fun _ => rfl)
    (fun o t => ⟨rfl, rfl⟩) p w (φ := ShellOp.command) (ρ := fun _ r => r)
  rw [command, hrun]
  cases run (serveCommand env) p w <;> rfl

@[simp] theorem run_command_client_bind (f : Client → ShellProg β) :
    run (serveShell env) (command client >>= f) w = run (serveShell env) (f w.client) w := rfl

@[simp] theorem run_command_sendReply_bind (r : Reply) (f : Unit → ShellProg β) :
    run (serveShell env) (command (sendReply r) >>= f) w =
      run (serveShell env) (f ()) { w with replies := w.replies ++ [r] } := rfl

theorem run_command_bind (p : CommandProg α) (f : α → ShellProg β) :
    run (serveShell env) (command p >>= f) w =
      (run (serveCommand env) p w).andThen fun a w => run (serveShell env) (f a) w := by
  rw [run_bind, run_command]

/-! ### Frames -/

/-- No command changes the login. -/
theorem run_command_login (p : CommandProg α) :
    (run (serveCommand env) p w).state.client.toLoginState = w.client.toLoginState := by
  apply (every_true p).run_keeps (serveCommand env) (fun w => w.client.toLoginState)
  intro o _ w
  cases o <;> rfl

/-- The user records never change. -/
theorem serveRedis_username (o : RedisOp) (db : Redis) :
    (serveRedis o db).2.username = db.username := by
  cases o <;> simp

theorem serveCommand_username (o : CommandOp) :
    (serveCommand env o w).2.db.username = w.db.username := by
  cases o with
  | redis o => exact serveRedis_username o w.db
  | client => rfl
  | modify f => rfl
  | sendReply r => rfl
  | sys o => rfl

theorem run_username (p : ShellProg α) :
    (run (serveShell env) p w).state.db.username = w.db.username := by
  apply (every_true p).run_keeps (serveShell env) (fun w => w.db.username)
  intro o _ w
  cases o with
  | command o => exact serveCommand_username env w o
  | login f => rfl

end ClusterFtpd
