import ClusterFtpd.Pret
import ClusterFtpd.SlaveServices

/-!
# Where active data connections go

`PORT` checks an address and stores it with its port in `ulDataIp` and `usDataPort`.  The metaserver
itself connects to both for a listing.  For a file a slave connects, and is told `ulClientIP` and
`usDataPort`.  The check is made when FXP is *enabled*.

Main results:

* `active_right_iff`: in every run in which the stored port is not overwritten under a transfer that
  still needs it, every active connection is right if and only if each is for an address that both
  fields agree on, or for a listing that FXP or a loopback client allows;
* `active_right_of_fxp`: enabled FXP makes the two fields agree, but for a loopback client;
* `listing_elsewhere`: with FXP disabled, a listing goes to another host than the client's.
-/

namespace ClusterFtpd

open Interaction MachineInt

/-! ### What is connected to -/

/-- An active connection: the metaserver connects for a listing, or a slave is told to. -/
inductive Opening where
  | listing (ip port : ℕ)
  | slave (p : ActiveParams)
  deriving DecidableEq

/-- The active connection a call opens. -/
def SysOp.opening : SysOp → Option Opening
  | .connect _ ip port => some (.listing ip port)
  | .activeStoreTransfer _ p _ => some (.slave p)
  | .activeRetrieveTransfer _ p => some (.slave p)
  | _ => none

/-- The active connection an operation opens. -/
def openingOf : (o : ShellOp) → o.Res → Option Opening
  | .command (.sys o), _ => o.opening
  | _, _ => none

/-- What a slave connects to. -/
def noteConnect : (o : SlaveOp) → o.Res → Option (ℕ × ℕ)
  | .connect _ ip port, _ => some (ip, port)
  | _, _ => none

/-- The RPCs of an active transfer. -/
def SlaveRpc.activeParams : SlaveRpc → Option ActiveParams
  | .activeStoreTransfer p _ _ => some p
  | .activeRetrieveTransfer p _ => some p
  | _ => none

/-- An active connection goes to this address and port; a slave's goes where the slave connects to
when it is called with these parameters. -/
def Opening.GoesTo : Opening → ℕ × ℕ → Prop
  | .listing ip port, a => a = (ip, port)
  | .slave p, a => ∃ (rpc : SlaveRpc) (env : SlaveEnv) (rounds : ℕ) (s : SlaveState),
      rpc.activeParams = some p ∧ a ∈ trace (serveSlave env) noteConnect (rpc.body rounds) s

/-! ### The active connections of a session -/

/-- An active connection, with the address and port of the last `PORT` answered 200, and the address
of the control connection. -/
structure ActiveConnection where
  opening : Opening
  told : Option (ℕ × ℕ)
  ulClientIP : ℕ

/-- The last `PORT` that was answered 200, after a line. -/
def toldAfter (told : Option (ℕ × ℕ)) (nCmd : Option Cmd) (pszCmdArg : Option Text) (w' : World) :
    Option (ℕ × ℕ) :=
  if nCmd = some .port ∧ w'.lastCode = some 200 then pszCmdArg.bind scanPort else told

/-- A condition on a line: the session, and the line. -/
abbrev LineCondition := LiveSession → Option Cmd → Option Text → Prop

/-- The runs of a session whose lines all satisfy `ok`, with the last `PORT` answered 200, and every
active connection. -/
inductive PortRun (cfg : Config) (ok : LineCondition) :
    LiveSession → Option (ℕ × ℕ) → List ActiveConnection → Prop where
  | connect {w : World} : w.client.toLoginState = {} → w.client.toCommandState = {} →
      PortRun cfg ok ⟨w, [], true⟩ none []
  | line {s : LiveSession} {told : Option (ℕ × ℕ)} {as : List ActiveConnection} {w' : World}
      {next : Next} (env : Env) (line : Text) : PortRun cfg ok s told as → s.opened = true →
      ok s (parseLine line).1 (parseLine line).2 →
      run (serveShell env) (dispatch cfg (parseLine line).1 (parseLine line).2) s.world =
        .done next w' →
      PortRun cfg ok
        ⟨w', threadsAfter cfg s.threads
          (lineCalls env (dispatch cfg (parseLine line).1 (parseLine line).2) s.world),
          next = .continue⟩
        (toldAfter told (parseLine line).1 (parseLine line).2 w')
        (as ++ (trace (serveShell env) openingOf
          (dispatch cfg (parseLine line).1 (parseLine line).2) s.world).map
            (⟨·, told, s.world.client.ulClientIP⟩))
  | other {s s' : LiveSession} {told : Option (ℕ × ℕ)} {as : List ActiveConnection}
      {who : Happening} {cs : List Call} : PortRun cfg ok s told as → (∀ nCmd, who ≠ .line nCmd) →
      LiveStep cfg s who cs s' →
      PortRun cfg ok s' told (as ++ (cs.filterMap fun c => c.op.opening).map
        (⟨·, told, s.world.client.ulClientIP⟩))

namespace ActiveConnection

variable (cfg : Config) (a : ActiveConnection)

/-- It goes exactly where the last `PORT` said, and while FXP is disabled this is the host of the
client, unless the client is the loopback address. -/
def Right : Prop :=
  ∀ ip port, a.opening.GoesTo (ip, port) → a.told = some (ip, port) ∧
    (cfg.bEnableFXP = false → a.ulClientIP ≠ loopbackIP → ip = a.ulClientIP)

/-- The last `PORT` named the client's own address, or the connection is for a listing and FXP or a
loopback client allows every address. -/
def Allowed : Prop :=
  a.told.map Prod.fst = some a.ulClientIP ∨
    (∃ ip port, a.opening = .listing ip port) ∧
      (cfg.bEnableFXP = true ∨ a.ulClientIP = loopbackIP)

end ActiveConnection

/-- The line overwrites `usDataPort`, if it is carried out. -/
def Redirects (c : Client) (nCmd : Option Cmd) (pszCmdArg : Option Text) : Prop :=
  c.bIsLogged = true ∧ c.eStatus = .waiting ∧
    (nCmd = some .port ∧ (pszCmdArg.bind scanPort).isSome = true ∨
      nCmd = some .pasv ∧ c.nPRET_CMD = none)

/-- An operation that opens no active connection. -/
def OpensNothing : CommandOp → Prop
  | .sys o => o.opening = none
  | _ => True

/-- The line does not overwrite `usDataPort` while a transfer thread still has the RPC of an active
transfer in front of it. -/
def Undisturbed : LineCondition := fun s nCmd pszCmdArg =>
  Redirects s.world.client nCmd pszCmdArg → ∀ p ∈ s.threads, Every OpensNothing p

variable {cfg : Config} {env : Env} {s s' : LiveSession} {w w' : World}
  {told : Option (ℕ × ℕ)} {as : List ActiveConnection} {cs : List Call} {α β : Type}

/-! ### What a slave connects to -/

/-- The operation connects to the client of the parameters, if it connects. -/
def ConnectsTo (p : ActiveParams) : SlaveOp → Prop
  | .connect _ ip port => ip = p.client_ip ∧ port = p.client_port
  | _ => True

variable {p : ActiveParams}

theorem connectsTo_reset (t : ℤ) : Every (ConnectsTo p) (SlaveServices.resetDataConnection t) := by
  refine ⟨trivial, fun sock => ?_⟩
  show Every _ (if _ then _ else _)
  rw [every_ite]
  exact ⟨fun _ => ⟨trivial, fun _ => ⟨trivial, fun _ => ⟨trivial, fun _ => trivial⟩⟩⟩,
    fun _ => trivial⟩

theorem connectsTo_atOffset {restart_at : ℤ} {transfer : SlaveProg ℤ}
    (h : Every (ConnectsTo p) transfer) :
    Every (ConnectsTo p) (SlaveServices.atOffset restart_at transfer) := by
  unfold SlaveServices.atOffset
  rw [every_ite, every_ite]
  refine ⟨fun _ => h, fun _ => ⟨fun _ => ⟨trivial, fun ok => ?_⟩, fun _ => trivial⟩⟩
  show Every _ (if _ then _ else _)
  rw [every_ite]
  exact ⟨fun _ => h, fun _ => trivial⟩

theorem connectsTo_withFile {hFile : Bool} {restart_at : ℤ} {transfer : SlaveProg ℤ}
    (h : Every (ConnectsTo p) transfer) :
    Every (ConnectsTo p) (SlaveServices.withFile hFile restart_at transfer) := by
  unfold SlaveServices.withFile
  rw [every_ite]
  exact ⟨fun _ => (connectsTo_atOffset h).bind fun len => ⟨trivial, fun _ => trivial⟩,
    fun _ => trivial⟩

theorem connectsTo_retrieveLoop (t : ℤ) (uiBufferSize rounds : ℕ) (len : ℤ) :
    Every (ConnectsTo p) (SlaveServices.retrieveLoop t uiBufferSize rounds len) := by
  induction rounds generalizing len with
  | zero => trivial
  | succ rounds ih =>
      refine ⟨trivial, fun sock => ?_⟩
      show Every _ (if _ then _ else _)
      rw [every_ite]
      refine ⟨fun _ => ⟨trivial, fun BlockSize => ?_⟩, fun _ => trivial⟩
      show Every _ (if _ then _ else _)
      rw [every_ite]
      refine ⟨fun _ => ⟨trivial, fun sock => ⟨trivial, fun len => ?_⟩⟩, fun _ => trivial⟩
      show Every _ (if _ then _ else _)
      rw [every_ite]
      exact ⟨fun _ => trivial, fun _ => ih len⟩

theorem connectsTo_storeLoop (t : ℤ) (uiBufferSize rounds filled : ℕ) (len : ℤ) :
    Every (ConnectsTo p) (SlaveServices.storeLoop t uiBufferSize rounds filled len) := by
  induction rounds generalizing filled len with
  | zero => trivial
  | succ rounds ih =>
      refine ⟨trivial, fun sock => ?_⟩
      show Every _ (if _ then _ else _)
      rw [every_ite]
      refine ⟨fun _ => ⟨trivial, fun sock => ⟨trivial, fun _ => ⟨trivial, fun sock =>
        ⟨trivial, fun ready => ?_⟩⟩⟩⟩, fun _ => trivial⟩
      show Every _ (if _ then _ else _)
      rw [every_ite]
      refine ⟨fun _ => ⟨trivial, fun sock => ⟨trivial, fun len => ?_⟩⟩, fun _ => trivial⟩
      show Every _ (if _ then _ else _)
      rw [every_ite]
      refine ⟨fun _ => ?_, fun _ => ?_⟩
      · rw [every_ite]
        refine ⟨fun _ => ⟨trivial, fun ok => ?_⟩, fun _ => ih _ _⟩
        show Every _ (if _ then _ else _)
        rw [every_ite]
        exact ⟨fun _ => ih _ _, fun _ => trivial⟩
      · rw [every_ite]
        exact ⟨fun _ => ⟨trivial, fun _ => trivial⟩, fun _ => trivial⟩

theorem connectsTo_active (p : ActiveParams) (server_ip : ℕ) :
    Every (ConnectsTo p) (SlaveServices.openActiveDataConnection p server_ip) := by
  have hconnect : Every (ConnectsTo p) (SlaveServices.connectActive p server_ip) := by
    refine ⟨trivial, fun sock => ?_⟩
    show Every _ (if _ then _ else _)
    rw [every_ite]
    refine ⟨fun _ => ⟨trivial, fun sock => ⟨trivial, fun ok => ?_⟩⟩, fun _ => trivial⟩
    show Every _ (if _ then _ else _)
    rw [every_ite]
    refine ⟨fun _ => ⟨trivial, fun sock => ⟨trivial, fun _ => ⟨trivial, fun sock =>
      ⟨trivial, fun ok => ?_⟩⟩⟩⟩, fun _ => trivial⟩
    show Every _ (if _ then _ else _)
    rw [every_ite]
    exact ⟨fun _ => ⟨trivial, fun sock => ⟨⟨rfl, rfl⟩, fun _ => trivial⟩⟩, fun _ => trivial⟩
  refine ⟨trivial, fun sock => ⟨trivial, fun _ => hconnect.bind fun opened => ?_⟩⟩
  rw [every_ite]
  exact ⟨fun _ => trivial, fun _ => (connectsTo_reset _).bind fun _ => trivial⟩

/-- The program of an active RPC connects to nothing else. -/
theorem connectsTo_body {rpc : SlaveRpc} (h : rpc.activeParams = some p) (rounds : ℕ) :
    Every (ConnectsTo p) (rpc.body rounds) := by
  cases rpc with
  | activeStoreTransfer q server_ip iflags =>
      rw [SlaveRpc.activeParams, Option.some.injEq] at h
      subst h
      refine Every.bind ?_ fun retval => trivial
      refine (connectsTo_active _ server_ip).bind fun opened => ?_
      rw [every_ite]
      refine ⟨fun _ => ⟨trivial, fun hFile => ?_⟩, fun _ => trivial⟩
      refine (connectsTo_withFile (connectsTo_storeLoop _ _ _ _ _)).bind fun len => ?_
      exact (connectsTo_reset _).bind fun _ => ⟨trivial, fun _ => trivial⟩
  | activeRetrieveTransfer q server_ip =>
      rw [SlaveRpc.activeParams, Option.some.injEq] at h
      subst h
      refine (connectsTo_active _ server_ip).bind fun opened => ?_
      rw [every_ite]
      refine ⟨fun _ => ⟨trivial, fun hFile => ?_⟩, fun _ => trivial⟩
      refine (connectsTo_withFile (connectsTo_retrieveLoop _ _ _ _)).bind fun len => ?_
      refine (connectsTo_reset _).bind fun _ => ?_
      rw [every_ite]
      exact ⟨fun _ => trivial, fun _ => trivial⟩
  | initPasvDataConnection _ _ _ _ => exact absurd h (by simp [SlaveRpc.activeParams])
  | openPasvDataConnection _ => exact absurd h (by simp [SlaveRpc.activeParams])
  | pasvStoreTransfer _ _ => exact absurd h (by simp [SlaveRpc.activeParams])
  | pasvRetrieveTransfer _ => exact absurd h (by simp [SlaveRpc.activeParams])

theorem connects_active (p : ActiveParams) (server_ip : ℕ) :
    trace (serveSlave .willing) noteConnect (SlaveServices.openActiveDataConnection p server_ip) {} =
      [(p.client_ip, p.client_port)] := by
  simp [SlaveServices.openActiveDataConnection, SlaveServices.connectActive, trace, Prog.op,
    slaveCall, SlaveServices.dataSock, serveSlave, SlaveEnv.willing, SlaveState.obtain,
    SlaveState.assign, SlaveState.tick, noteConnect]

/-- **A slave connects to the client of the parameters.** -/
theorem goesTo_slave {a : ℕ × ℕ} :
    (Opening.slave p).GoesTo a ↔ a = (p.client_ip, p.client_port) := by
  constructor
  · rintro ⟨rpc, env, rounds, s, hrpc, ha⟩
    have hbody := connectsTo_body hrpc rounds
    obtain ⟨o, r, ho, hnote⟩ := hbody.mem_trace (serveSlave env) noteConnect ha
    cases o with
    | connect fd ip port =>
        have heq : some (ip, port) = some a := hnote
        rw [Option.some.injEq] at heq
        rw [← heq, ho.1, ho.2]
    | _ => exact absurd hnote (by simp [noteConnect])
  · rintro rfl
    refine ⟨.activeRetrieveTransfer p 0, .willing, 0, {}, rfl, ?_⟩
    show _ ∈ trace _ _ (SlaveServices.openActiveDataConnection p 0 >>= _) _
    rw [trace_bind, connects_active]
    exact List.mem_append_left _ (List.mem_singleton_self _)

/-! ### What the commands leave alone -/

/-- The addresses of the data connection are as they were, and no connection has become active. -/
def SameTarget (c d : CommandState) : Prop :=
  d.ulDataIp = c.ulDataIp ∧ d.usDataPort = c.usDataPort ∧
    (d.eDataConnection = .port → c.eDataConnection = .port)

/-- The operation keeps the target, and opens no active connection unless `connects`. -/
def Tame (connects : Prop) : CommandOp → Prop
  | .modify f => ∀ c, SameTarget c (f c)
  | .sys o => o.opening = none ∨ connects
  | _ => True

variable {connects : Prop}

theorem tame_redis (p : RedisProg α) : Every (Tame connects) (redis p) :=
  every_redis ((every_true p).mono fun _ _ => trivial)

theorem tame_sys {o : SysOp} (h : o.opening = none) : Every (Tame connects) (sys o) :=
  (every_sys o).mpr (.inl h)

theorem tame_sendReply (r : Reply) : Every (Tame connects) (sendReply r) :=
  ⟨trivial, fun _ => trivial⟩

theorem tame_modify {f : CommandState → CommandState} (h : ∀ c, SameTarget c (f c)) :
    Every (Tame connects) (modify f) := (every_modify f).mpr h

theorem tame_modifyTransfer (f : DataTransfer → DataTransfer) :
    Every (Tame connects) (modifyTransfer f) := tame_modify fun _ => ⟨rfl, rfl, id⟩

theorem tame_rpc (answer : RpcResult α) : Every (Tame connects) (rpc answer) := by
  cases answer <;> trivial

theorem tame_onlyIf {b : Prop} [Decidable b] {p : CommandProg Unit}
    (hp : Every (Tame connects) p) : Every (Tame connects) (onlyIf b p) := by
  unfold onlyIf
  rw [every_ite]
  exact ⟨fun _ => hp, fun _ => trivial⟩

theorem tame_client_bind {f : Client → CommandProg β} (hf : ∀ c, Every (Tame connects) (f c)) :
    Every (Tame connects) (client >>= f) := ⟨trivial, hf⟩

theorem tame_sys_bind {o : SysOp} {f : o.Res → CommandProg β} (h : o.opening = none)
    (hf : ∀ r, Every (Tame connects) (f r)) : Every (Tame connects) (sys o >>= f) := ⟨.inl h, hf⟩

theorem tame_ite {b : Prop} [Decidable b] {p q : CommandProg α} (hp : Every (Tame connects) p)
    (hq : Every (Tame connects) q) : Every (Tame connects) (if b then p else q) := by
  rw [every_ite]
  exact ⟨fun _ => hp, fun _ => hq⟩

theorem tame_statPath (pszPath : Option Text) : Every (Tame connects) (statPath pszPath) := by
  cases pszPath with
  | none => trivial
  | some path => exact (tame_redis _).bind fun _ => trivial

theorem tame_reset (bSyncWait : Bool) : Every (Tame connects) (resetDataConnection bSyncWait) := by
  refine tame_client_bind fun c => ?_
  have hclose : Every (Tame connects) (closeData c.DataSock) := by
    cases c.DataSock with
    | none => trivial
    | some fd => exact tame_sys rfl
  refine hclose.bind fun _ => (tame_onlyIf (tame_sys rfl)).bind fun _ => tame_modify fun c => ?_
  exact ⟨rfl, rfl, fun h => absurd h (by simp)⟩

theorem tame_startTransfer (thread : TransferThread) :
    Every (Tame connects) (startTransfer thread) := by
  refine tame_client_bind fun c => (tame_modifyTransfer _).bind fun _ => ?_
  refine tame_sys_bind rfl fun ok => ?_
  refine tame_ite trivial ?_
  exact (tame_modifyTransfer _).bind fun _ => (tame_reset true).bind fun _ => trivial

theorem tame_randomPort (cfg : Config) : Every (Tame connects) (randomPort cfg) :=
  tame_sys_bind rfl fun _ => tame_ite trivial trivial

theorem tame_getRandomSlave (cfg : Config) : Every (Tame connects) (getRandomSlave cfg) := by
  refine tame_sys_bind rfl fun r => ?_
  cases cfg.Slaves[r % cfg.Slaves.length % 65536]? <;> trivial

theorem tame_openSlaveConnection : Every (Tame connects) openSlaveConnection := by
  refine tame_client_bind fun c => tame_ite (tame_sys_bind rfl fun answer => ?_) trivial
  refine (tame_rpc answer).bind fun reply => ?_
  cases reply with
  | none => exact (tame_sendReply _).bind fun _ => trivial
  | some reply => exact (tame_sendReply _).bind fun _ => trivial

theorem tame_cmdRetr (arg : Text) : Every (Tame connects) (cmdRetr arg) := by
  refine tame_client_bind fun c => (tame_statPath _).bind fun found => ?_
  cases found with
  | none => exact tame_sendReply _
  | some a =>
      refine tame_ite (tame_openSlaveConnection.bind fun opened => tame_onlyIf ?_) (tame_sendReply _)
      refine (tame_modify fun _ => ⟨rfl, rfl, id⟩).bind fun _ => ?_
      exact (tame_startTransfer .retrieve).bind fun _ => trivial

theorem tame_uploadPath (cmd : UploadCmd) (pszCmdArg : Option Text) :
    Every (Tame connects) (uploadPath cmd pszCmdArg) := by
  refine tame_client_bind fun c => ?_
  cases cmd with
  | stou =>
      refine tame_sys_bind rfl fun r => ?_
      generalize "file.".toList ++ (toString (r % 9999999)).toList = szName
      dsimp only
      cases c.buildPath (some szName) with
      | none => trivial
      | some path =>
          exact (tame_redis _).bind fun st =>
            tame_ite trivial ((tame_sendReply _).bind fun _ => trivial)
  | stor => trivial
  | appe => trivial

theorem tame_cmdStore (cmd : UploadCmd) (pszCmdArg : Option Text) :
    Every (Tame connects) (cmdStore cmd pszCmdArg) := by
  refine tame_ite ?_ ((tame_sendReply _).bind fun _ => trivial)
  refine (tame_uploadPath cmd pszCmdArg).bind fun path => ?_
  cases path with
  | none => trivial
  | some path =>
      refine tame_openSlaveConnection.bind fun opened => tame_ite ?_ trivial
      refine (tame_modify fun _ => ⟨rfl, rfl, id⟩).bind fun _ => ?_
      refine (tame_onlyIf ((tame_redis _).bind fun _ => tame_modifyTransfer _)).bind fun _ => ?_
      exact (tame_modifyTransfer _).bind fun _ => tame_startTransfer .store

theorem tame_cmdAbor : Every (Tame connects) cmdAbor :=
  tame_client_bind fun _ =>
    (tame_onlyIf ((tame_reset true).bind fun _ => tame_sendReply _)).bind fun _ => tame_sendReply _

theorem tame_cmdRest (pszCmdArg : Option Text) : Every (Tame connects) (cmdRest pszCmdArg) := by
  refine tame_client_bind fun c => ?_
  cases (if c.eStatus = .waiting then pszCmdArg else none) with
  | none => exact tame_sendReply _
  | some arg => exact (tame_modifyTransfer _).bind fun _ => tame_sendReply _

theorem tame_cmdMode (arg : Text) : Every (Tame connects) (cmdMode arg) :=
  tame_ite ((tame_modify fun _ => ⟨rfl, rfl, id⟩).bind fun _ => tame_sendReply _)
    (tame_ite (tame_sendReply _) (tame_sendReply _))

theorem tame_cmdType (arg : Text) : Every (Tame connects) (cmdType arg) :=
  tame_ite ((tame_modify fun _ => ⟨rfl, rfl, id⟩).bind fun _ => tame_sendReply _)
    (tame_ite ((tame_modify fun _ => ⟨rfl, rfl, id⟩).bind fun _ => tame_sendReply _)
      (tame_sendReply _))

theorem tame_cmdPret (arg : Text) : Every (Tame connects) (cmdPret arg) := by
  refine tame_ite trivial ?_
  refine (tame_modify fun _ => ⟨rfl, rfl, id⟩).bind fun _ => tame_ite ?_ (tame_sendReply _)
  refine tame_ite trivial (tame_client_bind fun c => (tame_statPath _).bind fun found => ?_)
  cases found with
  | none => exact tame_sendReply _
  | some a =>
      refine tame_ite ((tame_redis _).bind fun fid => ?_) (tame_sendReply _)
      exact (tame_modify fun _ => ⟨rfl, rfl, id⟩).bind fun _ =>
        tame_ite (tame_sendReply _) (tame_sendReply _)

/-- `PASV` after a `PRET`. -/
theorem tame_pasvRemote (cfg : Config) (cmd : PretCmd) :
    Every (Tame connects) (pasvRemote cfg cmd) := by
  refine tame_client_bind fun c => ?_
  have hslave : Every (Tame connects) (pasvSlave cfg cmd c.llPRET_fid) := by
    cases cmd with
    | stor => exact tame_ite ((tame_sendReply _).bind fun _ => trivial) (tame_getRandomSlave cfg)
    | retr => exact tame_redis _
    | appe => exact tame_redis _
  refine hslave.bind fun slave => (tame_modify fun _ => ⟨rfl, rfl, id⟩).bind fun _ => ?_
  refine (tame_redis _).bind fun trans_id => (tame_modify fun _ => ⟨rfl, rfl, id⟩).bind fun _ => ?_
  refine tame_sys_bind rfl fun answer => (tame_rpc answer).bind fun reply => ?_
  cases reply with
  | none => exact tame_sendReply _
  | some reply =>
      exact (tame_sendReply _).bind fun _ =>
        tame_modify fun _ => ⟨rfl, rfl, fun h => absurd h (by simp)⟩

theorem tame_withPrivilege (ucPriv : ℕ) {body : CommandProg Unit}
    (hbody : Every (Tame connects) body) : Every (Tame connects) (withPrivilege ucPriv body) :=
  tame_client_bind fun _ => tame_ite hbody (tame_sendReply _)

theorem tame_withArg {body : Text → CommandProg Unit} (pszCmdArg : Option Text)
    (refusal : String) (hbody : ∀ arg, Every (Tame connects) (body arg)) :
    Every (Tame connects) (withArg pszCmdArg refusal body) := by
  cases pszCmdArg with
  | none => exact tame_sendReply _
  | some arg => exact hbody arg

theorem tame_cmdMdtm (arg : Text) : Every (Tame connects) (cmdMdtm arg) := by
  refine tame_client_bind fun c => (tame_statPath _).bind fun found => ?_
  cases found with
  | none => exact tame_sendReply _
  | some a =>
      refine tame_sys_bind rfl fun t => ?_
      cases t <;> exact tame_sendReply _

theorem tame_cmdSize (arg : Text) : Every (Tame connects) (cmdSize arg) := by
  refine tame_client_bind fun c => (tame_statPath _).bind fun found => ?_
  cases found with
  | none => exact tame_sendReply _
  | some a => exact tame_ite (tame_sendReply _) (tame_sendReply _)

theorem tame_shellMkd (arg : Text) : Every (Tame connects) (shellMkd arg) := by
  refine tame_client_bind fun c => tame_sys_bind rfl fun now => ?_
  cases c.pUser with
  | none => exact tame_sendReply _
  | some u => exact (tame_redis _).bind fun _ => tame_sendReply _

theorem tame_openDataConnection (cfg : Config) : Every (Tame True) (openDataConnection cfg) := by
  have haccept : ∀ fd, Every (Tame True) (acceptData fd) := fun fd =>
    tame_sys_bind rfl fun ready => tame_ite (tame_sys_bind rfl fun sTmpWs =>
      tame_sys_bind rfl fun _ => (tame_modify fun _ => ⟨rfl, rfl, id⟩).bind fun _ =>
        tame_ite ((tame_sendReply _).bind fun _ => trivial) trivial) trivial
  have hconnect : ∀ fd, Every (Tame True) (connectData cfg fd) := fun fd =>
    tame_client_bind fun c => (tame_randomPort cfg).bind fun port => tame_sys_bind rfl fun _ =>
      tame_sys_bind rfl fun bound => tame_ite ((every_sys _).mpr (.inr trivial)) trivial
  have htry : Every (Tame True) (tryDataConnection cfg) := by
    refine tame_client_bind fun c => ?_
    cases c.DataSock with
    | none => trivial
    | some fd =>
        exact tame_sys_bind rfl fun ok => tame_ite (tame_ite (haccept fd) (hconnect fd)) trivial
  have hsocket : Every (Tame True) activeSocket :=
    (tame_sendReply _).bind fun _ => tame_sys_bind rfl fun _ => tame_modify fun _ => ⟨rfl, rfl, id⟩
  refine tame_client_bind fun c => tame_ite ((tame_sendReply _).bind fun _ => trivial) ?_
  refine (tame_onlyIf hsocket).bind fun _ => htry.bind fun opened => tame_ite trivial ?_
  exact (tame_sendReply _).bind fun _ => (tame_reset true).bind fun _ => trivial

theorem tame_cmdList (cfg : Config) (nCmd : Cmd) (pszCmdArg : Option Text) :
    Every (Tame True) (cmdList cfg nCmd pszCmdArg) := by
  have hopen : Every (Tame True) (openListing cfg nCmd) := by
    refine tame_ite ?_ ((tame_openDataConnection cfg).bind fun opened => ?_)
    · exact (tame_sendReply _).bind fun _ => (tame_modifyTransfer _).bind fun _ => trivial
    · exact (tame_onlyIf (tame_modifyTransfer _)).bind fun _ => trivial
  refine tame_client_bind fun c => tame_ite (tame_sendReply _) ?_
  refine (tame_modifyTransfer _).bind fun _ => (tame_statPath _).bind fun found => ?_
  cases found with
  | none => exact tame_sendReply _
  | some a =>
      refine (tame_modifyTransfer _).bind fun _ => hopen.bind fun opened => tame_onlyIf ?_
      refine (tame_modify fun _ => ⟨rfl, rfl, id⟩).bind fun _ => ?_
      exact (tame_startTransfer .list).bind fun _ => trivial

/-- The commands that send a listing. -/
def Lists (nCmd : Option Cmd) : Prop := nCmd = some .list ∨ nCmd = some .nlst ∨ nCmd = some .stat

instance (nCmd : Option Cmd) : Decidable (Lists nCmd) := inferInstanceAs (Decidable (_ ∨ _))

theorem tame_of_connects {p : CommandProg α} (h : Every (Tame True) p) (hconnects : connects) :
    Every (Tame connects) p := by
  refine h.mono fun o ho => ?_
  cases o with
  | sys o => exact .inr hconnects
  | _ => exact ho

/-- **Every other command than `PORT` and `PASV`** keeps the target, and only listings open active
connections. -/
theorem tame_shellCmd (cfg : Config) {nCmd : Cmd} (hport : nCmd ≠ .port) (hpasv : nCmd ≠ .pasv)
    (pszCmdArg : Option Text) : Every (Tame (Lists nCmd)) (shellCmd cfg nCmd pszCmdArg) := by
  have hstore : ∀ {x : Prop} cmd, Every (Tame x) (discard (cmdStore cmd pszCmdArg)) :=
    fun cmd => (tame_cmdStore cmd pszCmdArg).bind fun _ => trivial
  have hlist : ∀ nCmd, Lists (some nCmd) →
      Every (Tame (Lists (some nCmd))) (withPrivilege LIST (cmdList cfg nCmd pszCmdArg)) :=
    fun nCmd h => tame_withPrivilege _ (tame_of_connects (tame_cmdList cfg nCmd pszCmdArg) h)
  cases nCmd with
  | port => exact absurd rfl hport
  | pasv => exact absurd rfl hpasv
  | clnt => exact tame_withArg _ _ fun _ => tame_sendReply _
  | stru => exact tame_withArg _ _ fun _ => tame_ite (tame_sendReply _) (tame_sendReply _)
  | opts => exact tame_withArg _ _ fun _ => tame_sendReply _
  | mode => exact tame_withArg _ _ tame_cmdMode
  | type => exact tame_withArg _ _ tame_cmdType
  | pret => exact tame_withArg _ _ tame_cmdPret
  | list => exact hlist .list (.inl rfl)
  | nlst => exact hlist .nlst (.inr (.inl rfl))
  | stat => exact tame_ite (tame_sendReply _) (hlist .stat (.inr (.inr rfl)))
  | mdtm => exact tame_withArg _ _ tame_cmdMdtm
  | pwd => exact tame_client_bind fun _ => tame_sendReply _
  | xpwd => exact tame_client_bind fun _ => tame_sendReply _
  | abor => exact tame_cmdAbor
  | rest => exact tame_cmdRest pszCmdArg
  | retr => exact tame_withPrivilege _ (tame_withArg _ _ tame_cmdRetr)
  | stor => exact tame_withPrivilege _ (hstore .stor)
  | appe => exact tame_withPrivilege _ (hstore .appe)
  | stou => exact tame_withPrivilege _ (hstore .stou)
  | size => exact tame_withArg _ _ tame_cmdSize
  | dele =>
      exact tame_withPrivilege _ (tame_withArg _ _ fun _ =>
        tame_client_bind fun _ => (tame_redis _).bind fun _ => tame_sendReply _)
  | rnfr =>
      exact tame_withPrivilege _ (tame_withArg _ _ fun _ =>
        tame_client_bind fun _ => (tame_redis _).bind fun _ =>
          (tame_modify fun _ => ⟨rfl, rfl, id⟩).bind fun _ => tame_sendReply _)
  | rnto =>
      exact tame_withArg _ _ fun _ => tame_client_bind fun _ => (tame_redis _).bind fun _ =>
        (tame_sendReply _).bind fun _ => tame_modify fun _ => ⟨rfl, rfl, id⟩
  | mkd => exact tame_withPrivilege _ (tame_withArg _ _ tame_shellMkd)
  | xmkd => exact tame_withPrivilege _ (tame_withArg _ _ tame_shellMkd)
  | rmd =>
      exact tame_withPrivilege _ (tame_withArg _ _ fun _ =>
        tame_client_bind fun _ => (tame_redis _).bind fun _ => tame_sendReply _)
  | xrmd =>
      exact tame_withPrivilege _ (tame_withArg _ _ fun _ =>
        tame_client_bind fun _ => (tame_redis _).bind fun _ => tame_sendReply _)
  | _ => exact tame_sendReply _

/-- The same for the operations of a session; nothing changes the address of the control
connection. -/
def ShellTame (connects : Prop) : ShellOp → Prop
  | .command o => Tame connects o
  | .login f => ∀ c, SameTarget c.toCommandState (f c).toCommandState ∧
      (f c).ulClientIP = c.ulClientIP

theorem tame_command {p : CommandProg α} (hp : Every (Tame connects) p) :
    Every (ShellTame connects) (command p) :=
  Every.translate (I := CommandI) (J := ShellI) (P := Tame connects) (fun _ h => h) hp

theorem tame_login {f : Client → Client}
    (hf : ∀ c, SameTarget c.toCommandState (f c).toCommandState ∧
      (f c).ulClientIP = c.ulClientIP) : Every (ShellTame connects) (login f) :=
  ⟨hf, fun _ => trivial⟩

theorem tame_logIn : Every (ShellTame connects) logIn :=
  (tame_login fun _ => ⟨⟨rfl, rfl, id⟩, rfl⟩).bind fun _ => tame_command (tame_sendReply _)

theorem tame_cmdUser (pszCmdArg : Option Text) :
    Every (ShellTame connects) (cmdUser pszCmdArg) := by
  refine (tame_login fun c => ?_).bind fun _ => ?_
  · split_ifs
    · exact ⟨⟨rfl, rfl, id⟩, rfl⟩
    · exact ⟨⟨rfl, rfl, id⟩, rfl⟩
  cases pszCmdArg with
  | none => exact tame_command (tame_sendReply _)
  | some szLogin =>
      have hsearch : Every (Tame connects) (searchUserFromLogin szLogin) := by
        refine tame_sys_bind rfl fun ok => tame_ite ((tame_redis _).bind fun found => ?_) trivial
        cases found with
        | none => trivial
        | some h =>
            have hentry : Every (Tame connects) (userEntry szLogin h) := by
              unfold userEntry
              rw [every_ite]
              refine ⟨fun _ => ?_, fun _ => trivial⟩
              split <;> trivial
            exact hentry.bind fun _ => trivial
      refine (tame_command hsearch).bind fun pUser => ?_
      refine (tame_login fun _ => ⟨⟨rfl, rfl, id⟩, rfl⟩).bind fun _ => ?_
      rw [every_ite]
      exact ⟨fun _ => tame_logIn, fun _ => tame_command (tame_sendReply _)⟩

theorem tame_cmdPass (cfg : Config) (pszCmdArg : Option Text) :
    Every (ShellTame connects) (cmdPass cfg pszCmdArg) := by
  have hreject : Every (ShellTame connects) (rejectPass cfg) := by
    refine ⟨trivial, fun c => ?_⟩
    show Every _ (if _ then _ else _)
    rw [every_ite]
    exact ⟨fun _ => trivial, fun _ => (tame_command (tame_sendReply _)).bind fun _ => trivial⟩
  have hcheck : Every (ShellTame connects) (checkPass pszCmdArg) := by
    unfold checkPass
    rw [every_command_client_bind]
    refine ⟨trivial, fun c => ?_⟩
    cases c.pUser with
    | none => trivial
    | some u =>
        rw [every_ite]
        refine ⟨fun _ => ?_, fun _ => trivial⟩
        rw [every_ite]
        refine ⟨fun _ => ?_, fun _ => ?_⟩
        · rw [every_ite]
          exact ⟨fun _ => tame_logIn.bind fun _ => trivial,
            fun _ => (tame_command (tame_sendReply _)).bind fun _ => trivial⟩
        · rw [every_ite]
          exact ⟨fun _ => (tame_command (tame_sendReply _)).bind fun _ => trivial, fun _ => trivial⟩
  refine (tame_login fun _ => ⟨⟨rfl, rfl, id⟩, rfl⟩).bind fun _ => ⟨trivial, fun c => ?_⟩
  show Every _ (if _ then _ else _)
  rw [every_ite]
  refine ⟨fun _ => (tame_command (tame_sendReply _)).bind fun _ => hreject,
    fun _ => hcheck.bind fun loggedIn => ?_⟩
  rw [every_ite]
  exact ⟨fun _ => trivial, fun _ => hreject⟩

theorem tame_shellLogged (cfg : Config) {nCmd : Cmd} (hport : nCmd ≠ .port) (hpasv : nCmd ≠ .pasv)
    (pszCmdArg : Option Text) :
    Every (ShellTame (Lists nCmd)) (shellLogged cfg nCmd pszCmdArg) := by
  have hcwd : ∀ {x : Prop}, Every (ShellTame x) (cmdCwd pszCmdArg) := by
    intro x
    cases pszCmdArg with
    | none => exact tame_command (tame_sendReply _)
    | some arg =>
        have hnew : Every (Tame x) (newWorkingDir arg) := by
          refine tame_client_bind fun c => ?_
          cases c.buildPathVirtual (some arg) with
          | none => trivial
          | some a => exact (tame_redis _).bind fun _ => trivial
        refine (tame_command hnew).bind fun szWorkingDir => ?_
        cases szWorkingDir with
        | none => exact tame_command (tame_sendReply _)
        | some d =>
            exact (tame_login fun _ => ⟨⟨rfl, rfl, id⟩, rfl⟩).bind fun _ =>
              tame_command (tame_sendReply _)
  have hcdup : ∀ {x : Prop}, Every (ShellTame x) cmdCdup :=
    (tame_login fun _ => ⟨⟨rfl, rfl, id⟩, rfl⟩).bind fun _ => tame_command (tame_sendReply _)
  cases nCmd with
  | cwd => exact hcwd
  | xcwd => exact hcwd
  | cdup => exact hcdup
  | xcup => exact hcdup
  | _ => exact tame_command (tame_shellCmd cfg hport hpasv pszCmdArg)

/-- **Every other line than `PORT` and `PASV`** keeps the target, and only listings open active
connections. -/
theorem tame_dispatch (cfg : Config) {nCmd : Option Cmd} (hport : nCmd ≠ some .port)
    (hpasv : nCmd ≠ some .pasv) (pszCmdArg : Option Text) :
    Every (ShellTame (Lists nCmd)) (dispatch cfg nCmd pszCmdArg) := by
  cases nCmd with
  | none => exact (tame_command (tame_sendReply _)).bind fun _ => trivial
  | some nCmd =>
      cases hcmd : nCmd with
      | quit => exact (tame_command (tame_sendReply _)).bind fun _ => trivial
      | user => exact (tame_cmdUser pszCmdArg).bind fun _ => trivial
      | pass => exact tame_cmdPass cfg pszCmdArg
      | _ =>
          rw [← hcmd, dispatch_gate (by simp [hcmd]) (by simp [hcmd]) (by simp [hcmd])]
          refine ⟨trivial, fun c => ?_⟩
          show Every _ (if _ then _ else _)
          rw [every_ite]
          have hlogged := tame_shellLogged cfg (fun h => hport (congrArg some h))
            (fun h => hpasv (congrArg some h)) pszCmdArg
          exact ⟨fun _ => hlogged.bind fun _ => trivial,
            fun _ => (tame_command (tame_sendReply _)).bind fun _ => trivial⟩

/-- What a tame program leaves alone. -/
theorem run_tame {p : ShellProg α} (hp : Every (ShellTame connects) p) (env : Env) (w : World) :
    SameTarget w.client.toCommandState (run (serveShell env) p w).state.client.toCommandState ∧
      (run (serveShell env) p w).state.client.ulClientIP = w.client.ulClientIP := by
  refine hp.run_state (serveShell env) (R := fun s t =>
    SameTarget s.client.toCommandState t.client.toCommandState ∧
      t.client.ulClientIP = s.client.ulClientIP) ?_ ?_ ?_ w
  · exact fun s => ⟨⟨rfl, rfl, id⟩, rfl⟩
  · intro s t u hst htu
    obtain ⟨⟨hip, hport, hconn⟩, hclient⟩ := hst
    obtain ⟨⟨hip', hport', hconn'⟩, hclient'⟩ := htu
    exact ⟨⟨hip'.trans hip, hport'.trans hport, fun h => hconn (hconn' h)⟩, hclient'.trans hclient⟩
  · intro o ho s
    cases o with
    | login f => exact ho s.client
    | command o =>
        cases o with
        | modify f => exact ⟨ho _, rfl⟩
        | _ => exact ⟨⟨rfl, rfl, id⟩, rfl⟩

/-- A program that may not connect opens no active connection. -/
theorem openings_nil {p : ShellProg α} (hp : Every (ShellTame False) p) (env : Env) (w : World) :
    trace (serveShell env) openingOf p w = [] := by
  refine hp.trace_eq_nil (serveShell env) openingOf (fun o r ho => ?_) w
  cases o with
  | login f => rfl
  | command o =>
      cases o with
      | sys o =>
          obtain ho | ho := ho
          · exact ho
          · exact ho.elim
      | _ => rfl

/-! ### Where a listing goes -/

/-- The fields a listing goes by. -/
structure ListingTarget where
  ulDataIp : ℕ
  usDataPort : ℕ
  eDataConnection : DataConnection

/-- The client entry of the world has them. -/
def World.Aimed (x : ListingTarget) (w : World) : Prop :=
  w.client.ulDataIp = x.ulDataIp ∧ w.client.usDataPort = x.usDataPort ∧
    w.client.eDataConnection = x.eDataConnection

/-- An operation connects to the target, when the data connection is active. -/
def ListsTo (x : ListingTarget) : CommandOp → World → Prop
  | .sys o, _ => ∀ a, o.opening = some a →
      x.eDataConnection = .port ∧ a = .listing x.ulDataIp x.usDataPort
  | _, _ => True

/-- An operation keeps the fields, and opens no active connection. -/
def Still : CommandOp → Prop
  | .modify f => ∀ c, (f c).ulDataIp = c.ulDataIp ∧ (f c).usDataPort = c.usDataPort ∧
      (f c).eDataConnection = c.eDataConnection
  | .sys o => o.opening = none
  | _ => True

variable {x : ListingTarget} {Q : α → World → Prop}

theorem sound_still {p : CommandProg α} (hp : Every Still p) :
    Sound (serveCommand env) (ListsTo x) (World.Aimed x) p fun _ => World.Aimed x := by
  refine Sound.frame hp fun o ho w hw => ?_
  cases o with
  | sys o => exact ⟨fun a ha => absurd (ho.symm.trans ha) (by simp), hw⟩
  | modify f =>
      obtain ⟨hip, hport, hconn⟩ := ho w.client.toCommandState
      exact ⟨trivial, hip.trans hw.1, hport.trans hw.2.1, hconn.trans hw.2.2⟩
  | _ => exact ⟨trivial, hw⟩

/-- The end of a command that opens nothing more. -/
theorem sound_tame {P : World → Prop} {p : CommandProg α} (hp : Every (Tame False) p) :
    Sound (serveCommand env) (ListsTo x) P p fun _ _ => True := by
  refine ⟨fun w _ => hp.along (serveCommand env) (fun o w ho => ?_) w, fun _ _ _ _ _ => trivial⟩
  cases o with
  | sys o =>
      obtain ho | ho := ho
      · exact fun a ha => absurd (ho.symm.trans ha) (by simp)
      · exact ho.elim
  | _ => trivial

theorem sound_client_bind {f : Client → CommandProg α}
    (hf : ∀ c : Client, (c.ulDataIp = x.ulDataIp ∧ c.usDataPort = x.usDataPort ∧
      c.eDataConnection = x.eDataConnection) →
      Sound (serveCommand env) (ListsTo x) (World.Aimed x) (f c) Q) :
    Sound (serveCommand env) (ListsTo x) (World.Aimed x) (client >>= f) Q :=
  ⟨fun w hw => ⟨trivial, (hf w.client hw).along w hw⟩, fun w hw => (hf w.client hw).ends w hw⟩

theorem sound_ite {b : Prop} [Decidable b] {P : World → Prop} {p q : CommandProg α}
    (hp : b → Sound (serveCommand env) (ListsTo x) P p Q)
    (hq : ¬b → Sound (serveCommand env) (ListsTo x) P q Q) :
    Sound (serveCommand env) (ListsTo x) P (if b then p else q) Q := by
  by_cases hb : b
  · rw [if_pos hb]
    exact hp hb
  · rw [if_neg hb]
    exact hq hb

theorem sound_sys_bind {o : SysOp} {f : o.Res → CommandProg α} (ho : o.opening = none)
    (hf : ∀ r, Sound (serveCommand env) (ListsTo x) (World.Aimed x) (f r) Q) :
    Sound (serveCommand env) (ListsTo x) (World.Aimed x) (sys o >>= f) Q :=
  (sound_still ((every_sys o).mpr ho)).bind hf

theorem still_modifyTransfer (f : DataTransfer → DataTransfer) : Every Still (modifyTransfer f) :=
  (every_modify _).mpr fun _ => ⟨rfl, rfl, rfl⟩

theorem still_statPath (pszPath : Option Text) : Every Still (statPath pszPath) := by
  cases pszPath with
  | none => trivial
  | some path =>
      have hstat : Every Still (redis (stat path)) :=
        every_redis ((every_true _).mono fun _ _ => trivial)
      exact hstat.bind fun _ => trivial

/-- The active half connects to what `PORT` has stored. -/
theorem sound_connectData (cfg : Config) (fd : ℕ) (hport : x.eDataConnection = .port) :
    Sound (serveCommand env) (ListsTo x) (World.Aimed x) (connectData cfg fd) fun _ _ => True := by
  refine sound_client_bind fun c hc => ?_
  have hrandom : Every Still (randomPort cfg) := by
    refine ⟨rfl, fun r => ?_⟩
    show Every _ (if _ then _ else _)
    rw [every_ite]
    exact ⟨fun _ => trivial, fun _ => trivial⟩
  refine (sound_still hrandom).bind fun port => sound_sys_bind rfl fun _ => ?_
  refine sound_sys_bind rfl fun ok => ?_
  refine sound_ite (fun _ => ⟨fun w _ => ⟨?_, trivial⟩, fun _ _ _ _ _ => trivial⟩)
    fun _ => sound_tame trivial
  intro a ha
  rw [SysOp.opening, Option.some.injEq] at ha
  rw [← ha, hc.1, hc.2.1]
  exact ⟨hport, rfl⟩

theorem sound_openDataConnection (cfg : Config) :
    Sound (serveCommand env) (ListsTo x) (World.Aimed x) (openDataConnection cfg)
      fun _ _ => True := by
  have htry : x.eDataConnection ≠ .none → Sound (serveCommand env) (ListsTo x) (World.Aimed x)
      (tryDataConnection cfg) fun _ _ => True := by
    intro hconn
    refine sound_client_bind fun c hc => ?_
    cases c.DataSock with
    | none => exact sound_tame trivial
    | some fd =>
        refine sound_sys_bind rfl fun ok => sound_ite (fun _ => ?_) fun _ => sound_tame trivial
        refine sound_ite (fun _ => ?_) fun hnot => sound_connectData cfg fd ?_
        · exact sound_tame (tame_sys_bind rfl fun ready => tame_ite (tame_sys_bind rfl fun sTmpWs =>
            tame_sys_bind rfl fun _ => (tame_modify fun _ => ⟨rfl, rfl, id⟩).bind fun _ =>
              tame_ite ((tame_sendReply _).bind fun _ => trivial) trivial) trivial)
        · rw [hc.2.2] at hnot
          cases hx : x.eDataConnection with
          | none => exact absurd hx hconn
          | pasv => exact absurd hx hnot
          | port => rfl
  refine sound_client_bind fun c hc => sound_ite (fun _ => ?_) fun hconn => ?_
  · exact sound_tame ((tame_sendReply _).bind fun _ => trivial)
  · have hsocket : Every Still (onlyIf (c.eDataConnection = .port) activeSocket) := by
      unfold onlyIf
      rw [every_ite]
      refine ⟨fun _ => ⟨trivial, fun _ => ⟨rfl, fun _ => ?_⟩⟩, fun _ => trivial⟩
      exact (every_modify _).mpr fun _ => ⟨rfl, rfl, rfl⟩
    rw [hc.2.2] at hconn
    refine (sound_still hsocket).bind fun _ => (htry hconn).bind fun opened => ?_
    exact sound_tame (tame_ite trivial
      ((tame_sendReply _).bind fun _ => (tame_reset true).bind fun _ => trivial))

/-- **A listing** goes to what `PORT` has stored. -/
theorem sound_cmdList (cfg : Config) (nCmd : Cmd) (pszCmdArg : Option Text) :
    Sound (serveCommand env) (ListsTo x) (World.Aimed x) (cmdList cfg nCmd pszCmdArg)
      fun _ _ => True := by
  have hopen : Sound (serveCommand env) (ListsTo x) (World.Aimed x) (openListing cfg nCmd)
      fun _ _ => True := by
    refine sound_ite (fun _ => ?_) fun _ => (sound_openDataConnection cfg).bind fun opened => ?_
    · exact sound_tame ((tame_sendReply _).bind fun _ =>
        (tame_modifyTransfer _).bind fun _ => trivial)
    · exact sound_tame ((tame_onlyIf (tame_modifyTransfer _)).bind fun _ => trivial)
  refine sound_client_bind fun c _ => sound_ite (fun _ => sound_tame (tame_sendReply _)) fun _ => ?_
  refine (sound_still (still_modifyTransfer _)).bind fun _ => ?_
  refine (sound_still (still_statPath _)).bind fun found => ?_
  cases found with
  | none => exact sound_tame (tame_sendReply _)
  | some a =>
      refine (sound_still (still_modifyTransfer _)).bind fun _ => hopen.bind fun opened => ?_
      exact sound_tame (tame_onlyIf ((tame_modify fun _ => ⟨rfl, rfl, id⟩).bind fun _ =>
        (tame_startTransfer .list).bind fun _ => trivial))

/-! ### The lines -/

/-- The active connections a command opens. -/
def openings (env : Env) (p : CommandProg α) (w : World) : List Opening :=
  trace (serveCommand env) (fun o => openingOf (.command o)) p w

theorem openings_none {p : CommandProg α} (hp : Every OpensNothing p) : openings env p w = [] := by
  refine hp.trace_eq_nil (serveCommand env) _ (fun o r ho => ?_) w
  cases o with
  | sys o => exact ho
  | _ => rfl

theorem opensNothing_of_tame {p : CommandProg α} (hp : Every (Tame False) p) :
    Every OpensNothing p := by
  refine hp.mono fun o ho => ?_
  cases o with
  | sys o => exact ho.resolve_right id
  | _ => trivial

/-- The line of a client that is logged in opens what its command opens. -/
theorem openings_dispatch {nCmd : Cmd} (pszCmdArg : Option Text)
    (hnot : nCmd ∉ [Cmd.quit, .user, .pass, .cwd, .xcwd, .cdup, .xcup])
    (hlogged : w.client.bIsLogged = true) :
    trace (serveShell env) openingOf (dispatch cfg (some nCmd) pszCmdArg) w =
      openings env (shellCmd cfg nCmd pszCmdArg) w := by
  simp only [List.mem_cons, List.not_mem_nil, or_false, not_or] at hnot
  obtain ⟨hquit, huser, hpass, hcwd, hxcwd, hcdup, hxcup⟩ := hnot
  have hcwds : ¬ (nCmd = .cwd ∨ nCmd = .xcwd) := by simp [hcwd, hxcwd]
  have hcdups : ¬ (nCmd = .cdup ∨ nCmd = .xcup) := by simp [hcdup, hxcup]
  have hcommand : trace (serveShell env) openingOf (command (shellCmd cfg nCmd pszCmdArg)) w =
      openings env (shellCmd cfg nCmd pszCmdArg) w :=
    trace_translate (I := CommandI) (J := ShellI) (h := serveCommand env) (g := serveShell env)
      (φ := ShellOp.command) (ρ := fun _ r => r) (fun _ _ => ⟨rfl, rfl⟩) (fun _ _ => rfl) _ w
  rw [dispatch_gate hquit huser hpass]
  show trace _ _ (if w.client.bIsLogged = true then _ else _) w = _
  rw [if_pos hlogged, shellLogged_command hcwds hcdups, trace_bind, hcommand]
  cases run (serveShell env) (command (shellCmd cfg nCmd pszCmdArg)) w <;> exact List.append_nil _

/-- What a line opens, its command opens. -/
theorem openings_mem {nCmd : Cmd} {pszCmdArg : Option Text} {a : Opening}
    (hnot : nCmd ∉ [Cmd.quit, .user, .pass, .cwd, .xcwd, .cdup, .xcup])
    (ha : a ∈ trace (serveShell env) openingOf (dispatch cfg (some nCmd) pszCmdArg) w) :
    a ∈ openings env (shellCmd cfg nCmd pszCmdArg) w := by
  cases hlogged : w.client.bIsLogged with
  | true =>
      rw [openings_dispatch pszCmdArg hnot hlogged] at ha
      exact ha
  | false =>
      simp only [List.mem_cons, List.not_mem_nil, or_false, not_or] at hnot
      obtain ⟨hquit, huser, hpass, -⟩ := hnot
      rw [dispatch_gate hquit huser hpass] at ha
      have hgate : a ∈ trace (serveShell env) openingOf
          (if w.client.bIsLogged = true then _ else _) w := ha
      rw [hlogged, if_neg (by simp)] at hgate
      have hnone : a ∈ ([] : List Opening) := hgate
      exact absurd hnone List.not_mem_nil

/-- A listing goes to what `PORT` has stored. -/
theorem listing_target {nCmd : Option Cmd} {pszCmdArg : Option Text} {a : Opening}
    (hlists : Lists nCmd)
    (ha : a ∈ trace (serveShell env) openingOf (dispatch cfg nCmd pszCmdArg) w) :
    w.client.eDataConnection = .port ∧ a = .listing w.client.ulDataIp w.client.usDataPort := by
  let x : ListingTarget :=
    ⟨w.client.ulDataIp, w.client.usDataPort, w.client.eDataConnection⟩
  have hgate : ∀ nCmd, Sound (serveCommand env) (ListsTo x) (World.Aimed x)
      (withPrivilege LIST (cmdList cfg nCmd pszCmdArg)) fun _ _ => True := fun nCmd =>
    sound_client_bind fun c _ =>
      sound_ite (fun _ => sound_cmdList cfg nCmd pszCmdArg) fun _ => sound_tame (tame_sendReply _)
  have hfound : ∀ cmd, cmd ∉ [Cmd.quit, .user, .pass, .cwd, .xcwd, .cdup, .xcup] →
      nCmd = some cmd → Sound (serveCommand env) (ListsTo x) (World.Aimed x)
        (shellCmd cfg cmd pszCmdArg) (fun _ _ => True) →
      w.client.eDataConnection = .port ∧ a = .listing w.client.ulDataIp w.client.usDataPort := by
    intro cmd hnot hcmd hsound
    rw [hcmd] at ha
    obtain ⟨o, w₁, ho, hnote⟩ := (hsound.along w ⟨rfl, rfl, rfl⟩).mem_trace (serveCommand env) _
      (openings_mem hnot ha)
    cases o with
    | sys o => exact ho a hnote
    | _ => exact absurd hnote (by simp [openingOf])
  obtain hcmd | hcmd | hcmd := hlists
  · exact hfound .list (by simp) hcmd (hgate .list)
  · exact hfound .nlst (by simp) hcmd (hgate .nlst)
  · exact hfound .stat (by simp) hcmd
      (sound_ite (fun _ => sound_tame (tame_sendReply _)) fun _ => hgate .stat)

theorem opensNothing_cmdPort (cfg : Config) (pszCmdArg : Option Text) :
    Every OpensNothing (cmdPort cfg pszCmdArg) := by
  unfold cmdPort
  rw [every_client_bind]
  refine ⟨trivial, fun c => ?_⟩
  cases (if c.eStatus = .waiting then pszCmdArg.bind scanPort else none) with
  | none => exact ⟨trivial, fun _ => trivial⟩
  | some a =>
      refine (opensNothing_of_tame (tame_onlyIf (tame_reset true))).bind fun _ => ?_
      show Every _ (if _ then _ else _)
      rw [every_ite]
      exact ⟨fun _ => ⟨trivial, fun _ => ⟨trivial, fun _ => trivial⟩⟩,
        fun _ => ⟨trivial, fun _ => trivial⟩⟩

theorem opensNothing_bindLoop (cfg : Config) (fd usFirstTry fuel usTriedPort : ℕ) :
    Every OpensNothing (bindLoop cfg fd usFirstTry fuel usTriedPort) := by
  induction fuel generalizing usTriedPort with
  | zero => trivial
  | succ fuel ih =>
      refine ⟨rfl, fun bound => ?_⟩
      show Every _ (if _ then _ else _)
      rw [every_ite]
      refine ⟨fun _ => trivial, fun _ => ?_⟩
      show Every _ (if _ then _ else _)
      rw [every_ite]
      exact ⟨fun _ => trivial, fun _ => ih _⟩

theorem opensNothing_cmdPasv (cfg : Config) : Every OpensNothing (cmdPasv cfg) := by
  unfold cmdPasv
  rw [every_client_bind]
  refine ⟨trivial, fun c => ?_⟩
  rw [every_ite]
  refine ⟨fun _ => ?_, fun _ => ⟨trivial, fun _ => trivial⟩⟩
  cases c.nPRET_CMD with
  | some cmd => exact opensNothing_of_tame (tame_pasvRemote cfg cmd)
  | none =>
      refine ⟨trivial, fun c => ?_⟩
      refine (opensNothing_of_tame (tame_onlyIf (tame_reset true))).bind fun _ => ?_
      refine ⟨rfl, fun DataSock => ⟨trivial, fun _ => ?_⟩⟩
      cases DataSock with
      | none => trivial
      | some fd =>
          refine ⟨rfl, fun ok => ?_⟩
          show Every _ (if _ then _ else _)
          rw [every_ite]
          refine ⟨fun _ => ⟨trivial, fun _ => ?_⟩, fun _ => trivial⟩
          refine (opensNothing_of_tame (tame_randomPort cfg)).bind fun usFirstTry => ?_
          refine (opensNothing_bindLoop cfg fd usFirstTry _ _).bind fun usTriedPort => ?_
          refine ⟨trivial, fun _ => ?_⟩
          show Every _ (if _ then _ else _)
          rw [every_ite]
          refine ⟨fun _ => ⟨trivial, fun _ => trivial⟩, fun _ => ⟨rfl, fun ok => ?_⟩⟩
          show Every _ (if _ then _ else _)
          rw [every_ite]
          exact ⟨fun _ => ⟨trivial, fun _ => ⟨trivial, fun _ => trivial⟩⟩, fun _ => trivial⟩

/-- What a `PORT` does. -/
inductive PortTurn (cfg : Config) (w w' : World) (pszCmdArg : Option Text)
    (told told' : Option (ℕ × ℕ)) : Prop where
  | refused : w'.client = w.client → told' = told → PortTurn cfg w w' pszCmdArg told told'
  | elsewhere : Redirects w.client (some .port) pszCmdArg → w'.client.eDataConnection = .none →
      told' = told → PortTurn cfg w w' pszCmdArg told told'
  | accepted (ip port : ℕ) : Redirects w.client (some .port) pszCmdArg →
      (cfg.bEnableFXP = true → ip = w.client.ulClientIP ∨ w.client.ulClientIP = loopbackIP) →
      w'.client.ulDataIp = ip → w'.client.usDataPort = port → told' = some (ip, port) →
      PortTurn cfg w w' pszCmdArg told told'

theorem toldAfter_of_ne {nCmd : Option Cmd} {pszCmdArg : Option Text} (h : nCmd ≠ some .port) :
    toldAfter told nCmd pszCmdArg w' = told := by
  rw [toldAfter, if_neg (fun hport => h hport.1)]

theorem toldAfter_reply (pszCmdArg : Option Text) (w : World) (r : Reply) :
    toldAfter told (some .port) pszCmdArg { w with replies := w.replies ++ [r] } =
      if r.code = some 200 then pszCmdArg.bind scanPort else told := by
  rw [toldAfter, lastCode_reply]
  simp

/-- No command changes the address of the control connection. -/
theorem Does.ulClientIP {p : CommandProg α} {a : α} (h : Does env p w a w' cs) :
    w'.client.ulClientIP = w.client.ulClientIP := by
  have hkept := (every_true p).run_keeps (serveCommand env) (fun w => w.client.ulClientIP)
    (fun o _ w => by cases o <;> rfl) w
  rw [h.ends] at hkept
  exact hkept

/-- A line of a client that is not logged in is answered 530. -/
theorem gate_line {nCmd : Cmd} {pszCmdArg : Option Text} {next : Next} (hquit : nCmd ≠ .quit)
    (huser : nCmd ≠ .user) (hpass : nCmd ≠ .pass) (hlogged : w.client.bIsLogged = false)
    (hrun : run (serveShell env) (dispatch cfg (some nCmd) pszCmdArg) w = .done next w') :
    w' = { w with
      replies := w.replies ++ [.line 530 "Please login with USER and PASS."] } := by
  rw [dispatch_gate hquit huser hpass, run_command_client_bind, hlogged, if_neg (by simp)] at hrun
  exact (Outcome.done.inj hrun).2.symm

/-- `PORT`. -/
theorem port_turn {pszCmdArg : Option Text} {next : Next} (told : Option (ℕ × ℕ))
    (hrun : run (serveShell env) (dispatch cfg (some .port) pszCmdArg) w = .done next w') :
    PortTurn cfg w w' pszCmdArg told (toldAfter told (some .port) pszCmdArg w') := by
  cases hlogged : w.client.bIsLogged with
  | false =>
      rw [gate_line (by simp) (by simp) (by simp) hlogged hrun]
      exact .refused rfl (toldAfter_reply _ _ _)
  | true =>
      have hdoes := (does_of_dispatch (by simp) hlogged hrun).of_client
      by_cases hwait : w.client.eStatus = .waiting
      · rw [if_pos hwait] at hdoes
        cases hscan : pszCmdArg.bind scanPort with
        | none =>
            rw [hscan] at hdoes
            obtain ⟨rfl, -⟩ := hdoes.of_reply
            exact .refused rfl (toldAfter_reply _ _ _)
        | some a =>
            rw [hscan] at hdoes
            obtain ⟨ip, port⟩ := a
            have hredirects : Redirects w.client (some .port) pszCmdArg :=
              ⟨hlogged, hwait, .inl ⟨rfl, by rw [hscan]; rfl⟩⟩
            obtain ⟨u₁, w₁, cs₁, cs₂, hreset, h₁, -⟩ := hdoes.of_bind
            obtain ⟨hview, -⟩ := onlyIf_reset_does hwait hreset
            by_cases hfree : ¬ cfg.bEnableFXP = true ∨ ip = w.client.ulClientIP ∨
                w.client.ulClientIP = loopbackIP
            · have h₂ : Does env (if _ then _ else _) w₁ () w' cs₂ := h₁
              rw [if_pos hfree] at h₂
              obtain ⟨rfl, -⟩ := h₂.of_modify.of_reply
              refine .accepted ip port hredirects ?_ rfl rfl ?_
              · exact fun hfxp => hfree.resolve_left (not_not.mpr hfxp)
              · have hcode : (Reply.line 200 "PORT command successful.").code = some 200 := rfl
                rw [toldAfter_reply, if_pos hcode, hscan]
            · have h₂ : Does env (if _ then _ else _) w₁ () w' cs₂ := h₁
              rw [if_neg hfree] at h₂
              obtain ⟨rfl, -⟩ := h₂.of_reply
              refine .elsewhere hredirects (congrArg TransferView.eDataConnection hview) ?_
              exact toldAfter_reply _ _ _
      · rw [if_neg hwait] at hdoes
        obtain ⟨rfl, -⟩ := hdoes.of_reply
        exact .refused rfl (toldAfter_reply _ _ _)

/-- `PASV` does not make the connection active, and overwrites the stored port only if it opens a
data socket of the metaserver. -/
theorem pasv_target {pszCmdArg : Option Text} {next : Next}
    (hrun : run (serveShell env) (dispatch cfg (some .pasv) pszCmdArg) w = .done next w') :
    w'.client.ulClientIP = w.client.ulClientIP ∧
      (SameTarget w.client.toCommandState w'.client.toCommandState ∨
        Redirects w.client (some .pasv) pszCmdArg ∧ w'.client.eDataConnection ≠ .port) := by
  cases hlogged : w.client.bIsLogged with
  | false =>
      rw [gate_line (by simp) (by simp) (by simp) hlogged hrun]
      exact ⟨rfl, .inl ⟨rfl, rfl, id⟩⟩
  | true =>
      have hdoes := does_of_dispatch (by simp) hlogged hrun
      refine ⟨hdoes.ulClientIP, ?_⟩
      have h₁ := hdoes.of_client
      by_cases hwait : w.client.eStatus = .waiting
      · rw [if_pos hwait] at h₁
        cases hpret : w.client.nPRET_CMD with
        | none =>
            rw [hpret] at h₁
            refine .inr ⟨⟨hlogged, hwait, .inr ⟨rfl, hpret⟩⟩, ?_⟩
            obtain ⟨conn, hconn, -, hview⟩ := pasvLocal_resets hwait h₁
            have hend : w'.client.eDataConnection = conn :=
              congrArg TransferView.eDataConnection hview
            rw [hend]
            obtain rfl | rfl := hconn <;> simp
        | some cmd =>
            rw [hpret] at h₁
            have htame : Every (ShellTame False) (command (pasvRemote cfg cmd)) :=
              tame_command (tame_pasvRemote cfg cmd)
            have hsame := (run_tame htame env w).1
            rw [run_command, h₁.ends] at hsame
            exact .inl hsame
      · rw [if_neg hwait] at h₁
        obtain ⟨rfl, -⟩ := h₁.of_reply
        exact .inl ⟨rfl, rfl, id⟩

/-! ### The transfer threads -/

/-- The connection goes to the last `PORT`, but a slave is told the address `ip`. -/
def Opening.Meant (a : Opening) (ip : ℕ) (told : Option (ℕ × ℕ)) : Prop :=
  match a with
  | .listing addr port => told = some (addr, port)
  | .slave p => p.client_ip = ip ∧ told.map Prod.snd = some p.client_port

/-- An operation opens no other active connections. -/
def Aims (ip : ℕ) (told : Option (ℕ × ℕ)) : CommandOp → Prop
  | .sys o => ∀ a, o.opening = some a → a.Meant ip told
  | _ => True

/-- The client entry holds what `PORT` has stored, if the connection is active. -/
structure Stored (ip port : ℕ) (told : Option (ℕ × ℕ)) (c : Client) : Prop where
  client : c.ulClientIP = ip
  stored : c.usDataPort = port
  told : c.eDataConnection = .port → told = some (c.ulDataIp, c.usDataPort)

/-- What a thread reads. -/
def SeesStored (ip port : ℕ) (told : Option (ℕ × ℕ)) : (o : CommandOp) → o.Res → Prop
  | .client, c => Stored ip port told c
  | _, _ => True

/-- What is left of a thread opens no other active connections, as long as the client entry holds
what `PORT` has stored. -/
def AimsAt (ip port : ℕ) (told : Option (ℕ × ℕ)) (p : CommandProg α) : Prop :=
  EveryIf (SeesStored ip port told) (Aims ip told) p

variable {ip port : ℕ}

theorem aimsAt_of_opensNothing {p : CommandProg α} (hp : Every OpensNothing p) :
    AimsAt ip port told p := by
  refine hp.everyIf fun o ho => ?_
  cases o with
  | sys o => exact fun a ha => absurd (ho.symm.trans ha) (by simp)
  | _ => trivial

theorem aimsAt_tame {p : CommandProg α} (hp : Every (Tame False) p) : AimsAt ip port told p :=
  aimsAt_of_opensNothing (opensNothing_of_tame hp)

theorem AimsAt.bind {p : CommandProg α} {f : α → CommandProg β} (hp : AimsAt ip port told p)
    (hf : ∀ a, AimsAt ip port told (f a)) : AimsAt ip port told (p >>= f) := EveryIf.bind hp hf

theorem aimsAt_client_bind {f : Client → CommandProg α}
    (hf : ∀ c, Stored ip port told c → AimsAt ip port told (f c)) :
    AimsAt ip port told (client >>= f) := ⟨trivial, hf⟩

theorem aimsAt_sys_bind {o : SysOp} {f : o.Res → CommandProg α}
    (ho : ∀ a, o.opening = some a → a.Meant ip told) (hf : ∀ r, AimsAt ip port told (f r)) :
    AimsAt ip port told (sys o >>= f) := ⟨ho, fun r _ => hf r⟩

theorem tame_finishUpload (fid : ℤ) (slave : SlaveInfo) (answer : RpcResult StorRetVal) :
    Every (Tame connects) (finishUpload fid slave answer) := by
  have hrecord : ∀ retval, Every (Tame connects) (recordUpload retval fid slave) := by
    intro retval
    refine tame_ite (tame_client_bind fun c => ?_) trivial
    cases c.pUser with
    | none => trivial
    | some u => exact tame_sys_bind rfl fun now => (tame_redis _).bind fun _ => trivial
  refine (tame_rpc answer).bind fun a => ?_
  cases a with
  | none => exact (tame_sendReply _).bind fun _ => trivial
  | some retval => exact (hrecord retval).bind fun _ => trivial

theorem tame_finishRetrieve (answer : RpcResult Reply) :
    Every (Tame connects) (finishRetrieve answer) := by
  refine (tame_rpc answer).bind fun a => ?_
  cases a with
  | none => exact (tame_sendReply _).bind fun _ => trivial
  | some r => trivial

/-- The active half of an upload. -/
theorem aimsAt_storeActive (cfg : Config) (iflags : OpenFlag) (fid : ℤ)
    (htold : told.map Prod.snd = some port) : AimsAt ip port told (storeActive cfg iflags fid) := by
  unfold storeActive
  split_ifs
  · exact aimsAt_tame ((tame_sendReply _).bind fun _ => trivial)
  · refine (aimsAt_tame (tame_getRandomSlave cfg)).bind fun slave => ?_
    refine (aimsAt_tame (tame_redis _)).bind fun trans_id => aimsAt_client_bind fun c hc => ?_
    refine (aimsAt_tame (tame_randomPort cfg)).bind fun server_port => ?_
    refine (aimsAt_tame (tame_sendReply _)).bind fun _ => aimsAt_sys_bind (fun a ha => ?_)
      fun answer => aimsAt_tame (tame_finishUpload fid slave answer)
    rw [SysOp.opening, Option.some.injEq] at ha
    rw [← ha]
    exact ⟨hc.client, by rw [htold, hc.stored]⟩

/-- The active half of a download. -/
theorem aimsAt_retrieveActive (cfg : Config) (fid : ℤ) (htold : told.map Prod.snd = some port) :
    AimsAt ip port told (retrieveActive cfg fid) := by
  unfold retrieveActive
  split_ifs
  · refine aimsAt_client_bind fun c _ => (aimsAt_tame (tame_redis _)).bind fun slave => ?_
    refine (aimsAt_tame (tame_redis _)).bind fun trans_id => aimsAt_client_bind fun c hc => ?_
    refine (aimsAt_tame (tame_randomPort cfg)).bind fun server_port => ?_
    refine (aimsAt_tame (tame_sendReply _)).bind fun _ => aimsAt_sys_bind (fun a ha => ?_)
      fun answer => aimsAt_tame (tame_finishRetrieve answer)
    rw [SysOp.opening, Option.some.injEq] at ha
    rw [← ha]
    exact ⟨hc.client, by rw [htold, hc.stored]⟩
  · trivial

theorem tame_storePassive (cfg : Config) (iflags : OpenFlag) (fid : ℤ) :
    Every (Tame connects) (storePassive cfg iflags fid) := by
  refine tame_client_bind fun c => tame_ite ((tame_sendReply _).bind fun _ => trivial) ?_
  refine tame_client_bind fun c => tame_client_bind fun c => tame_sys_bind rfl fun answer => ?_
  exact tame_finishUpload fid _ answer

theorem tame_retrievePassive (cfg : Config) (fid : ℤ) :
    Every (Tame connects) (retrievePassive cfg fid) := by
  refine tame_client_bind fun c => tame_ite ((tame_sendReply _).bind fun _ => trivial) ?_
  refine tame_client_bind fun c => tame_ite ((tame_sendReply _).bind fun _ => trivial) ?_
  refine tame_client_bind fun c => tame_client_bind fun c => tame_sys_bind rfl fun answer => ?_
  exact tame_finishRetrieve answer

/-- The active half is run when the connection is active, and the passive half opens nothing. -/
theorem aimsAt_halves {active passive : CommandProg (Option Reply)}
    (hactive : told.map Prod.snd = some port → AimsAt ip port told active)
    (hpassive : Every (Tame False) passive) :
    AimsAt ip port told (do
      let msg ← whenConnected .port (some .empty) active
      let msg ← whenConnected .pasv msg passive
      sendLast msg) := by
  have hfirst : AimsAt ip port told (whenConnected .port (some .empty) active) := by
    refine aimsAt_client_bind fun c hc => ?_
    split_ifs with hport
    · refine hactive ?_
      rw [hc.told hport, ← hc.stored]
      rfl
    · trivial
  refine hfirst.bind fun msg => aimsAt_tame ?_
  have hsecond : Every (Tame False) (whenConnected .pasv msg passive) := by
    cases msg with
    | none => trivial
    | some msg => exact tame_client_bind fun c => tame_ite hpassive trivial
  refine hsecond.bind fun msg => ?_
  cases msg with
  | none => trivial
  | some msg => exact tame_sendReply msg

/-- **Every transfer thread** tells a slave what the client entry holds. -/
theorem aimsAt_body (cfg : Config) (thread : TransferThread) :
    AimsAt ip port told (thread.body cfg) := by
  cases thread with
  | list =>
      refine aimsAt_tame (tame_client_bind fun c => ?_)
      refine (tame_onlyIf ((tame_redis _).bind fun _ => every_ret _)).bind fun _ => ?_
      exact tame_client_bind fun c => tame_ite (tame_sendReply _) (tame_sendReply _)
  | retrieve =>
      refine aimsAt_client_bind fun c _ => (aimsAt_tame (tame_redis _)).bind fun fid => ?_
      exact aimsAt_halves (aimsAt_retrieveActive cfg fid) (tame_retrievePassive cfg fid)
  | store =>
      refine aimsAt_client_bind fun c _ => (aimsAt_tame (tame_redis _)).bind fun fid => ?_
      exact aimsAt_halves (aimsAt_storeActive cfg _ fid) (tame_storePassive cfg _ fid)

/-! ### The invariant of a session -/

/-- What `PORT` has stored is what it said, if the connection is active, and the transfer threads go
by it. -/
structure PortInv (cfg : Config) (s : LiveSession) (told : Option (ℕ × ℕ)) : Prop where
  aim : s.world.client.eDataConnection = .port →
    told = some (s.world.client.ulDataIp, s.world.client.usDataPort)
  checked : cfg.bEnableFXP = true → s.world.client.ulClientIP ≠ loopbackIP →
    ∀ a, told = some a → a.1 = s.world.client.ulClientIP
  within : ∀ p ∈ s.threads, Every (Within bodyParts) p
  aims : ∀ p ∈ s.threads, AimsAt s.world.client.ulClientIP s.world.client.usDataPort told p

theorem PortInv.stored (h : PortInv cfg s told) :
    Stored s.world.client.ulClientIP s.world.client.usDataPort told s.world.client :=
  ⟨rfl, rfl, h.aim⟩

/-- What a line makes of the target. -/
theorem line_target {nCmd : Option Cmd} {pszCmdArg : Option Text} {next : Next}
    (told : Option (ℕ × ℕ))
    (hrun : run (serveShell env) (dispatch cfg nCmd pszCmdArg) w = .done next w') :
    w'.client.ulClientIP = w.client.ulClientIP ∧
      (SameTarget w.client.toCommandState w'.client.toCommandState ∧
          toldAfter told nCmd pszCmdArg w' = told ∨
        Redirects w.client nCmd pszCmdArg ∧
          (w'.client.eDataConnection = .port → toldAfter told nCmd pszCmdArg w' =
            some (w'.client.ulDataIp, w'.client.usDataPort))) ∧
      (cfg.bEnableFXP = true → w.client.ulClientIP ≠ loopbackIP →
        toldAfter told nCmd pszCmdArg w' ≠ told →
        ∀ a, toldAfter told nCmd pszCmdArg w' = some a → a.1 = w.client.ulClientIP) := by
  by_cases hport : nCmd = some .port
  · subst hport
    have hclient : w'.client.ulClientIP = w.client.ulClientIP := by
      cases hlogged : w.client.bIsLogged with
      | false => rw [gate_line (by simp) (by simp) (by simp) hlogged hrun]
      | true => exact (does_of_dispatch (by simp) hlogged hrun).ulClientIP
    refine ⟨hclient, ?_⟩
    have hturn := port_turn told hrun
    generalize toldAfter told (some .port) pszCmdArg w' = told' at hturn ⊢
    cases hturn with
    | refused hsame htold =>
        rw [hsame]
        exact ⟨.inl ⟨⟨rfl, rfl, id⟩, htold⟩, fun _ _ hne => absurd htold hne⟩
    | elsewhere hredirects hnone htold =>
        refine ⟨.inr ⟨hredirects, fun h => ?_⟩, fun _ _ hne => absurd htold hne⟩
        rw [hnone] at h
        exact absurd h (by simp)
    | accepted ip port hredirects hfree hip hstored htold =>
        refine ⟨.inr ⟨hredirects, fun _ => by rw [htold, hip, hstored]⟩, ?_⟩
        intro hfxp hloop _ a ha
        rw [htold, Option.some.injEq] at ha
        rw [← ha]
        exact (hfree hfxp).resolve_right hloop
  · have htold : toldAfter told nCmd pszCmdArg w' = told := toldAfter_of_ne hport
    rw [htold]
    by_cases hpasv : nCmd = some .pasv
    · subst hpasv
      obtain ⟨hclient, hsame | ⟨hredirects, hnot⟩⟩ := pasv_target hrun
      · exact ⟨hclient, .inl ⟨hsame, rfl⟩, fun _ _ hne => absurd rfl hne⟩
      · exact ⟨hclient, .inr ⟨hredirects, fun h => absurd h hnot⟩, fun _ _ hne => absurd rfl hne⟩
    · have hsame := run_tame (tame_dispatch cfg hport hpasv pszCmdArg) env w
      rw [hrun] at hsame
      exact ⟨hsame.2, .inl ⟨hsame.1, rfl⟩, fun _ _ hne => absurd rfl hne⟩

/-- A line that opens an active connection sends a listing. -/
theorem lists_of_opening {nCmd : Option Cmd} {pszCmdArg : Option Text} {a : Opening}
    (ha : a ∈ trace (serveShell env) openingOf (dispatch cfg nCmd pszCmdArg) w) : Lists nCmd := by
  by_contra hlists
  have hnot : ∀ cmd p, cmd ∉ [Cmd.quit, .user, .pass, .cwd, .xcwd, .cdup, .xcup] →
      nCmd = some cmd → shellCmd cfg cmd pszCmdArg = p → Every OpensNothing p → False := by
    intro cmd p hcmd heq hp hquiet
    rw [heq] at ha
    have hopens := openings_mem hcmd ha
    rw [hp, openings_none hquiet] at hopens
    exact absurd hopens (by simp)
  by_cases hport : nCmd = some .port
  · exact hnot .port _ (by simp) hport rfl (opensNothing_cmdPort cfg pszCmdArg)
  by_cases hpasv : nCmd = some .pasv
  · exact hnot .pasv _ (by simp) hpasv rfl (opensNothing_cmdPasv cfg)
  have htame := tame_dispatch cfg hport hpasv pszCmdArg
  rw [eq_false hlists] at htame
  rw [openings_nil htame] at ha
  exact absurd ha (by simp)

/-- The active connections of a line are those `PORT` meant. -/
theorem PortInv.line_meant {nCmd : Option Cmd} {pszCmdArg : Option Text} {a : Opening}
    (h : PortInv cfg s told)
    (ha : a ∈ trace (serveShell env) openingOf (dispatch cfg nCmd pszCmdArg) s.world) :
    a.Meant s.world.client.ulClientIP told := by
  obtain ⟨hport, rfl⟩ := listing_target (lists_of_opening ha) ha
  exact h.aim hport

theorem PortInv.line {nCmd : Option Cmd} {pszCmdArg : Option Text} {next : Next} {opened : Bool}
    (h : PortInv cfg s told) (hok : Undisturbed s nCmd pszCmdArg)
    (hrun : run (serveShell env) (dispatch cfg nCmd pszCmdArg) s.world = .done next w') :
    PortInv cfg ⟨w', threadsAfter cfg s.threads cs, opened⟩ (toldAfter told nCmd pszCmdArg w') := by
  obtain ⟨hclient, htarget, hfxp⟩ := line_target told hrun
  have hthreads : ∀ p ∈ s.threads, AimsAt w'.client.ulClientIP w'.client.usDataPort
      (toldAfter told nCmd pszCmdArg w') p := by
    intro p hp
    obtain ⟨⟨-, hport, -⟩, htold⟩ | ⟨hredirects, -⟩ := htarget
    · rw [hclient, hport, htold]
      exact h.aims p hp
    · exact aimsAt_of_opensNothing (hok hredirects p hp)
  constructor
  · intro hactive
    obtain ⟨⟨hip, hport, hconn⟩, htold⟩ | ⟨-, haim⟩ := htarget
    · rw [htold, h.aim (hconn hactive), hip, hport]
    · exact haim hactive
  · intro hon hloop a ha
    have hloop' : s.world.client.ulClientIP ≠ loopbackIP := by rw [← hclient]; exact hloop
    show a.1 = w'.client.ulClientIP
    rw [hclient]
    by_cases hsame : toldAfter told nCmd pszCmdArg w' = told
    · rw [hsame] at ha
      exact h.checked hon hloop' a ha
    · exact hfxp hon hloop' hsame a ha
  · exact threadsAfter_within cfg h.within cs
  · exact threadsAfter_forall (aimsAt_body cfg) hthreads cs

/-- A step that leaves the stored port and the address of the control connection as they are. -/
theorem PortInv.keeps (h : PortInv cfg s told)
    (hsame : SameTarget s.world.client.toCommandState s'.world.client.toCommandState)
    (hclient : s'.world.client.ulClientIP = s.world.client.ulClientIP)
    (hthreads : ∀ p ∈ s'.threads, Every (Within bodyParts) p ∧
      AimsAt s.world.client.ulClientIP s.world.client.usDataPort told p) : PortInv cfg s' told := by
  obtain ⟨hip, hport, hconn⟩ := hsame
  constructor
  · intro hactive
    rw [h.aim (hconn hactive), hip, hport]
  · rw [hclient]
    exact h.checked
  · exact fun p hp => (hthreads p hp).1
  · rw [hclient, hport]
    exact fun p hp => (hthreads p hp).2

theorem sameTarget_serve {o : CommandOp} (ho : Within bodyParts o) (env : Env) (w : World) :
    SameTarget w.client.toCommandState (serveCommand env o w).2.client.toCommandState ∧
      (serveCommand env o w).2.client.ulClientIP = w.client.ulClientIP := by
  have hsock : _ ∧ _ ∧ _ := serveCommand_same ho (show Part.socket ∉ bodyParts by decide) env w
  have hconn : _ = _ := serveCommand_same ho (show Part.connection ∉ bodyParts by decide) env w
  refine ⟨⟨hsock.1, hsock.2.1, fun h => hconn.symm.trans h⟩, ?_⟩
  cases o <;> rfl

/-- What a thread is answered is what the client entry holds. -/
theorem PortInv.sees (h : PortInv cfg s told) (env : Env) (o : CommandOp) :
    SeesStored s.world.client.ulClientIP s.world.client.usDataPort told o
      (serveCommand env o s.world).1 := by
  cases o with
  | client => exact h.stored
  | _ => trivial

/-- The call a thread makes is one that `PORT` meant. -/
theorem PortInv.call_meant {o : CommandOp} {r : o.Res} {a : Opening}
    (ho : Aims s.world.client.ulClientIP told o)
    (ha : a ∈ (noteCommand o r).toList.filterMap fun c => c.op.opening) :
    a.Meant s.world.client.ulClientIP told := by
  rw [List.mem_filterMap] at ha
  obtain ⟨c, hc, hopening⟩ := ha
  have hop : o = .sys c.op := op_of_note (Option.mem_toList.1 hc)
  subst hop
  exact ho a hopening

/-- A step of a thread, or of someone else. -/
theorem PortInv.other {who : Happening} (h : PortInv cfg s told) (hwho : ∀ nCmd, who ≠ .line nCmd)
    (hstep : LiveStep cfg s who cs s') : PortInv cfg s' told ∧
      s'.world.client.ulClientIP = s.world.client.ulClientIP ∧
      ∀ a ∈ cs.filterMap fun c => c.op.opening, a.Meant s.world.client.ulClientIP told := by
  have hthreads : ∀ p ∈ s.threads, Every (Within bodyParts) p ∧
      AimsAt s.world.client.ulClientIP s.world.client.usDataPort told p :=
    fun p hp => ⟨h.within p hp, h.aims p hp⟩
  cases hstep with
  | line env line hopened hrun => exact absurd rfl (hwho _)
  | hangUp hopened => exact ⟨h.keeps ⟨rfl, rfl, id⟩ rfl hthreads, rfl, by simp⟩
  | @op xs ys o k env heq =>
      obtain ⟨⟨hwithin, hrestw⟩, haims, hresta⟩ := hthreads (.call o k) (by rw [heq]; simp)
      obtain ⟨hsame, hclient⟩ := sameTarget_serve hwithin env s.world
      refine ⟨h.keeps hsame hclient ?_, hclient, fun a ha => call_meant haims ha⟩
      exact forall_replaced hthreads heq ⟨hrestw _, hresta _ (h.sees env o)⟩
  | @poll xs ys o again k env heq hdone =>
      obtain ⟨⟨hwithin, hrestw⟩, haims, hresta⟩ := hthreads (.poll o again k) (by rw [heq]; simp)
      obtain ⟨hsame, hclient⟩ := sameTarget_serve hwithin env s.world
      refine ⟨h.keeps hsame hclient ?_, hclient, fun a ha => call_meant haims ha⟩
      exact forall_replaced hthreads heq ⟨hrestw _, hresta _ (h.sees env o)⟩
  | @ends xs ys w' env heq hrun =>
      have htame : Every (ShellTame False) (command (resetDataConnection false)) :=
        tame_command (tame_reset false)
      obtain ⟨hsame, hclient⟩ := run_tame htame env s.world
      have hrun' : run (serveCommand env) (resetDataConnection false) s.world = .done () w' := hrun
      rw [run_command, hrun'] at hsame hclient
      exact ⟨h.keeps hsame hclient (forall_removed hthreads heq), hclient, by simp⟩
  | others db hdb => exact ⟨h.keeps ⟨rfl, rfl, id⟩ rfl hthreads, rfl, by simp⟩

/-- **Every active connection** of a session is one that `PORT` meant, and enabled FXP has checked
its address. -/
theorem PortRun.meant (h : PortRun cfg Undisturbed s told as) : PortInv cfg s told ∧
    ∀ a ∈ as, a.opening.Meant a.ulClientIP a.told ∧
      (cfg.bEnableFXP = true → a.ulClientIP ≠ loopbackIP →
        ∀ addr, a.told = some addr → addr.1 = a.ulClientIP) := by
  induction h with
  | connect hlogin hcommand =>
      refine ⟨⟨fun hport => ?_, fun _ _ a ha => absurd ha (by simp), ?_, ?_⟩, ?_⟩
      · have hcommand' : CommandState.eDataConnection _ = _ :=
          congrArg CommandState.eDataConnection hcommand
        exact absurd (hport.symm.trans hcommand') (by simp)
      · exact fun p hp => absurd hp (by simp)
      · exact fun p hp => absurd hp (by simp)
      · exact fun a ha => absurd ha (by simp)
  | line env line _ hopened hok hrun ih =>
      obtain ⟨hinv, hall⟩ := ih
      refine ⟨hinv.line hok hrun, fun a ha => ?_⟩
      rw [List.mem_append, List.mem_map] at ha
      obtain ha | ⟨x, hx, rfl⟩ := ha
      · exact hall a ha
      · exact ⟨hinv.line_meant hx, hinv.checked⟩
  | other _ hwho hstep ih =>
      obtain ⟨hinv, hall⟩ := ih
      obtain ⟨hinv', -, hmeant⟩ := hinv.other hwho hstep
      refine ⟨hinv', fun a ha => ?_⟩
      rw [List.mem_append, List.mem_map] at ha
      obtain ha | ⟨x, hx, rfl⟩ := ha
      · exact hall a ha
      · exact ⟨hmeant x hx, hinv.checked⟩

/-! ### The exact condition -/

/-- A connection that `PORT` meant. -/
theorem ActiveConnection.right_iff {a : ActiveConnection}
    (h : a.opening.Meant a.ulClientIP a.told) : a.Right cfg ↔ a.Allowed cfg := by
  obtain ⟨opening, told, ulClientIP⟩ := a
  cases opening with
  | listing ip port =>
      have htold : told = some (ip, port) := h
      subst htold
      constructor
      · intro hright
        obtain ⟨-, hpolicy⟩ := hright ip port rfl
        by_cases hallowed : cfg.bEnableFXP = true ∨ ulClientIP = loopbackIP
        · exact .inr ⟨⟨ip, port, rfl⟩, hallowed⟩
        · rw [not_or, Bool.not_eq_true] at hallowed
          exact .inl (congrArg some (hpolicy hallowed.1 hallowed.2))
      · intro hallowed ip' port' hgoes
        have heq : (ip', port') = (ip, port) := hgoes
        rw [heq]
        refine ⟨rfl, fun hoff hloop => ?_⟩
        have hip : ip' = ip := congrArg Prod.fst heq
        rw [hip]
        obtain hown | ⟨-, hon | hclient⟩ := hallowed
        · exact Option.some.inj hown
        · rw [hoff] at hon
          exact absurd hon (by simp)
        · exact absurd hclient hloop
  | slave p =>
      obtain ⟨hclient, hport⟩ :
        p.client_ip = ulClientIP ∧ told.map Prod.snd = some p.client_port := h
      constructor
      · intro hright
        obtain ⟨htold, -⟩ := hright p.client_ip p.client_port (goesTo_slave.mpr rfl)
        have htold' : told = some (p.client_ip, p.client_port) := htold
        refine .inl ?_
        show told.map Prod.fst = some ulClientIP
        rw [htold', ← hclient]
        rfl
      · rintro (hown | ⟨⟨_, _, hlisting⟩, -⟩) ip port' hgoes
        · rw [goesTo_slave] at hgoes
          rw [hgoes]
          have hown' : told.map Prod.fst = some ulClientIP := hown
          refine ⟨?_, fun _ _ => (congrArg Prod.fst hgoes).trans hclient⟩
          show told = _
          cases told with
          | none => exact absurd hport (by simp)
          | some addr =>
              rw [Option.map_some, Option.some.injEq] at hport hown'
              rw [hclient, ← hport, ← hown']
        · exact absurd hlisting (by simp)

/-- **Every active connection is right if and only if each is allowed**: the last `PORT` answered
200 named the client's own address, or the connection is for a listing and FXP or a loopback client
allows every address.  This is so in every run in which no line overwrites the stored port while a
transfer thread still has the RPC of an active transfer in front of it. -/
theorem active_right_iff (h : PortRun cfg Undisturbed s told as) :
    (∀ a ∈ as, a.Right cfg) ↔ ∀ a ∈ as, a.Allowed cfg := by
  have hmeant := h.meant.2
  constructor
  · exact fun hright a ha => (ActiveConnection.right_iff (hmeant a ha).1).mp (hright a ha)
  · exact fun hallowed a ha => (ActiveConnection.right_iff (hmeant a ha).1).mpr (hallowed a ha)

/-- With FXP enabled every active connection of a client is right, but of a loopback client. -/
theorem active_right_of_fxp (h : PortRun cfg Undisturbed s told as) (hfxp : cfg.bEnableFXP = true) :
    ∀ a ∈ as, a.ulClientIP ≠ loopbackIP → a.Right cfg := by
  intro a ha hloop
  obtain ⟨hmeant, hchecked⟩ := h.meant.2 a ha
  have hsome : a.told ≠ none := by
    obtain ⟨opening, told, ulClientIP⟩ := a
    intro hnone
    rw [show told = none from hnone] at hmeant
    cases opening with
    | listing ip port => exact absurd hmeant (by simp [Opening.Meant])
    | slave p => exact absurd hmeant.2 (by simp)
  obtain ⟨addr, haddr⟩ := Option.ne_none_iff_exists'.mp hsome
  refine (ActiveConnection.right_iff hmeant).mpr (.inl ?_)
  rw [haddr, Option.map_some, hchecked hfxp hloop addr haddr]

/-! ### A listing for a client of another host -/

/-- A line whose command is known to run. -/
theorem PortRun.command {ok : LineCondition} {ts : List (CommandProg Unit)} {nCmd : Cmd}
    {pszCmdArg : Option Text} {xs : List Opening} (h : PortRun cfg ok ⟨w, ts, true⟩ told as)
    (line : Text) (hline : parseLine line = (some nCmd, pszCmdArg))
    (hnot : nCmd ∉ [Cmd.quit, .user, .pass, .cwd, .xcwd, .cdup, .xcup])
    (hlogged : w.client.bIsLogged = true) (hok : ok ⟨w, ts, true⟩ (some nCmd) pszCmdArg)
    (hdoes : Does env (shellCmd cfg nCmd pszCmdArg) w () w' cs)
    (hopens : openings env (shellCmd cfg nCmd pszCmdArg) w = xs) :
    PortRun cfg ok ⟨w', threadsAfter cfg ts cs, true⟩ (toldAfter told (some nCmd) pszCmdArg w')
      (as ++ xs.map (⟨·, told, w.client.ulClientIP⟩)) := by
  obtain ⟨hends, hcalls⟩ := line_of_does hnot hlogged hdoes
  have hstep := h.line env line rfl (by rw [hline]; exact hok) (by rw [hline]; exact hends)
  rw [hline] at hstep
  dsimp only at hstep
  rw [hcalls, openings_dispatch pszCmdArg hnot hlogged, hopens] at hstep
  exact hstep

/-- The guest logs in from 10.0.0.2. -/
def remoteWorld : World :=
  { guestWorld twoFiles with
    client := { (guestWorld twoFiles).client with ulClientIP := 0x0200000A } }

/-- After a `PORT` of port 1025. -/
def toldWorld (ip : ℕ) : World :=
  { remoteWorld with
    client := { remoteWorld.client with
      eDataConnection := .port, ulDataIp := ip, usDataPort := 1025 }
    replies := remoteWorld.replies ++ [.line 200 "PORT command successful."] }

theorem portRun_remote (ok : LineCondition) (hok : ∀ nCmd arg s, s.threads = [] → ok s nCmd arg) :
    PortRun {} ok ⟨remoteWorld, [], true⟩ none [] := by
  have huser : parseLine "USER guest".toList = (some .user, some "guest".toList) := by decide
  have hlogin : run (serveShell .willing) (dispatch {} (some .user) (some "guest".toList))
      ⟨twoFiles, { ulClientIP := 0x0200000A }, [], 0⟩ = .done .continue remoteWorld := rfl
  have hconnect : PortRun {} ok ⟨⟨twoFiles, { ulClientIP := 0x0200000A }, [], 0⟩, [], true⟩
      none [] :=
    .connect rfl rfl
  have hstep := hconnect.line .willing "USER guest".toList rfl (hok _ _ _ rfl) (by
    rw [huser]
    exact hlogin)
  rw [huser] at hstep
  dsimp only at hstep
  rw [(line_not_logged rfl hlogin).2] at hstep
  exact hstep

/-- `LIST /a` connects to what `PORT` has stored. -/
theorem list_a (ip : ℕ) : ∃ w',
    Does .willing (shellCmd {} .list (some "/a".toList)) (toldWorld ip) () w'
        [⟨.pthread_create .list, true⟩] ∧
      openings .willing (shellCmd {} .list (some "/a".toList)) (toldWorld ip) =
        [.listing ip 1025] := by
  have hrun : ∃ w', run (serveCommand .willing) (shellCmd {} .list (some "/a".toList))
      (toldWorld ip) = .done () w' := by
    show ∃ w', run _ (statPath (Client.buildPath _ (some "/a".toList)) >>= _) _ = _
    rw [guest_a rfl]
    exact ⟨_, rfl⟩
  obtain ⟨w', hrun⟩ := hrun
  refine ⟨w', ⟨hrun, ?_⟩, ?_⟩
  · show trace _ _ (statPath (Client.buildPath _ (some "/a".toList)) >>= _) _ = _
    rw [guest_a rfl]
    rfl
  · show trace _ _ (statPath (Client.buildPath _ (some "/a".toList)) >>= _) _ = _
    rw [guest_a rfl]
    rfl

/-- A listing behind `PORT`, with the client's own address or another. -/
theorem portRun_list (ok : LineCondition) (hok : ∀ nCmd arg s, s.threads = [] → ok s nCmd arg)
    {ip : ℕ} {arg : Text}
    (hline : parseLine ("PORT ".toList ++ arg) = (some .port, some arg))
    (hscan : scanPort arg = some (ip, 1025))
    (hport : Does .willing (shellCmd {} .port (some arg)) remoteWorld () (toldWorld ip) []) :
    ∃ s told, PortRun {} ok s told
      [⟨.listing ip 1025, some (ip, 1025), remoteWorld.client.ulClientIP⟩] := by
  have h₁ := (portRun_remote ok hok).command _ hline (by simp) rfl (hok _ _ _ rfl) hport
    (openings_none (opensNothing_cmdPort _ _))
  have htold : toldAfter none (some .port) (some arg) (toldWorld ip) = some (ip, 1025) := by
    have hcode : World.lastCode (toldWorld ip) = some 200 := rfl
    rw [toldAfter, if_pos ⟨rfl, hcode⟩]
    exact hscan
  rw [htold] at h₁
  obtain ⟨w', hdoes, hopens⟩ := list_a ip
  have h₂ := h₁.command "LIST /a".toList (by decide) (by simp) rfl (hok _ _ _ rfl) hdoes hopens
  exact ⟨_, _, h₂⟩

/-- `PORT` with the client's own address. -/
theorem port_own : Does .willing (shellCmd {} .port (some "10,0,0,2,4,1".toList)) remoteWorld ()
    (toldWorld 0x0200000A) [] := ⟨rfl, rfl⟩

/-- `PORT` with the address of another host. -/
theorem port_other : Does .willing (shellCmd {} .port (some "10,0,0,3,4,1".toList)) remoteWorld ()
    (toldWorld 0x0300000A) [] := ⟨rfl, rfl⟩

/-- A listing for the client itself. -/
theorem active_right_own : ActiveConnection.Right {}
    ⟨.listing 0x0200000A 1025, some (0x0200000A, 1025), 0x0200000A⟩ := by
  obtain ⟨s, told, hrun⟩ := portRun_list Undisturbed
    (fun _ _ s hs _ p hp => by rw [hs] at hp; exact absurd hp (by simp)) (by decide) (by decide)
    port_own
  refine (active_right_iff hrun).mpr (fun a ha => ?_) _ (List.mem_singleton_self _)
  rw [List.mem_singleton] at ha
  rw [ha]
  exact .inl rfl

/-- **A listing goes to another host** than the client's while FXP is disabled. -/
theorem listing_elsewhere : ¬ ∀ cfg s told as,
    PortRun cfg (fun _ _ _ => True) s told as → ∀ a ∈ as, a.Right cfg := by
  intro hall
  obtain ⟨s, told, hrun⟩ := portRun_list (fun _ _ _ => True) (fun _ _ _ _ => trivial) (by decide)
    (by decide) port_other
  have hright := hall _ _ _ _ hrun _ (List.mem_singleton_self _)
  have hpolicy := (hright 0x0300000A 1025 rfl).2 rfl (by decide)
  exact absurd hpolicy (by decide)

end ClusterFtpd
