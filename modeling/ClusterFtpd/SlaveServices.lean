import ClusterFtpd.Shell

/-!
# The sockets of a slave

`slave_servicesHandler` with its map `mDataSock` from transactions to data sockets.  A lookup of the
map is `operator[]`: it inserts 0 for a transaction that is not there.

The state also keeps which descriptors are open, and for which transaction they were obtained; the
handler does not read this.  What is received and sent, and what the file calls do, is left to the
answers of the system.

Main results:

* `descriptors_owned_iff`: a call uses its own open descriptors, and refuses a transaction that is
  not open, exactly when the transaction is open, or is finished and the file does not open;
* `open_unknown`: an `OpenPasvDataConnection` of an unknown transaction uses descriptor 0.
-/

namespace ClusterFtpd

open Interaction MachineInt

/-! ### The calls of the handler -/

/-- The calls of the handler.  A descriptor is `none` for `INVALID_SOCKET`; `socket` and `accept`
carry the transaction they are made for; the port of `bind` is in host order. -/
inductive SlaveOp where
  | lookup (trans_id : ℤ)
  | assign (trans_id : ℤ) (sock : Option ℕ)
  | rand
  | socket (trans_id : ℤ)
  | setsockopt (fd : Option ℕ)
  | bind (fd : Option ℕ) (ip port : ℕ)
  | listen (fd : Option ℕ)
  | connect (fd : Option ℕ) (ip port : ℕ)
  | fdSet (fd : Option ℕ)
  | select (fd : Option ℕ)
  | accept (trans_id : ℤ) (fd : Option ℕ)
  | recv (fd : Option ℕ) (len : ℕ)
  | send (fd : Option ℕ) (len : ℤ)
  | closeSocket (fd : Option ℕ)
  | openFile (fid : ℤ) (iflags : Option OpenFlag)
  | lseek (offset : ℤ)
  | read (len : ℕ)
  | safeWrite (len : ℕ)
  | closeFile
  | stat (fid : ℤ)

/-- What each call answers; `select` tells whether the descriptor is readable. -/
abbrev SlaveOp.Res : SlaveOp → Type
  | .lookup _ => Option ℕ
  | .rand => ℕ
  | .socket _ => Option ℕ
  | .accept _ _ => Option ℕ
  | .setsockopt _ => Bool
  | .bind _ _ _ => Bool
  | .listen _ => Bool
  | .connect _ _ _ => Bool
  | .select _ => Bool
  | .recv _ _ => ℤ
  | .send _ _ => ℤ
  | .openFile _ _ => Bool
  | .lseek _ => Bool
  | .read _ => ℤ
  | .safeWrite _ => Bool
  | .stat _ => Option ℤ
  | _ => Unit

/-- The interface of the handler. -/
abbrev SlaveI : Interface := ⟨SlaveOp, SlaveOp.Res⟩

abbrev SlaveProg := Prog SlaveI

/-- The state of a slave: the map, the transaction each open descriptor was obtained for, and the
number of calls to the system. -/
structure SlaveState where
  mDataSock : ℤ → Option (Option ℕ) := fun _ => none
  owner : ℕ → Option ℤ := fun _ => none
  clock : ℕ := 0

namespace SlaveState

/-- `(*mDataSock)[trans_id] = sock`. -/
def assign (s : SlaveState) (trans_id : ℤ) (sock : Option ℕ) : SlaveState :=
  { s with mDataSock := Function.update s.mDataSock trans_id (some sock) }

/-- The system has answered a call. -/
def tick (s : SlaveState) : SlaveState := { s with clock := s.clock + 1 }

/-- A descriptor the system gives; it never gives one that is open. -/
def obtain (s : SlaveState) (trans_id : ℤ) (answer : Option ℕ) : Option ℕ × SlaveState :=
  match answer with
  | some fd =>
      if s.owner fd = none then
        (some fd, { s.tick with owner := Function.update s.owner fd (some trans_id) })
      else (none, s.tick)
  | none => (none, s.tick)

/-- `CloseSocket`. -/
def close (s : SlaveState) (fd : Option ℕ) : SlaveState :=
  match fd with
  | some fd => { s with owner := Function.update s.owner fd none }
  | none => s

end SlaveState

/-- The answers of the system to the calls of the handler. -/
abbrev SlaveEnv := ℕ → (o : SlaveOp) → o.Res

/-- Run the calls of the handler. -/
def serveSlave (env : SlaveEnv) : Handler SlaveI SlaveState
  | .lookup trans_id, s =>
      match s.mDataSock trans_id with
      | some sock => (sock, s)
      | none => (some 0, s.assign trans_id (some 0))
  | .assign trans_id sock, s => ((), s.assign trans_id sock)
  | .socket trans_id, s => s.obtain trans_id (env s.clock (.socket trans_id))
  | .accept trans_id fd, s => s.obtain trans_id (env s.clock (.accept trans_id fd))
  | .closeSocket fd, s => ((), s.close fd)
  | o, s => (env s.clock o, s.tick)

/-- A call of the handler. -/
def slaveCall (o : SlaveOp) : SlaveProg o.Res := Prog.op (I := SlaveI) o

namespace SlaveServices

/-! ### `slave_servicesHandler` -/

/-- `(*mDataSock)[trans_id]`. -/
def dataSock (trans_id : ℤ) : SlaveProg (Option ℕ) := slaveCall (.lookup trans_id)

/-- `ResetDataConnection`. -/
def resetDataConnection (trans_id : ℤ) : SlaveProg Unit := do
  let sock ← dataSock trans_id
  if sock.isSome then do
    let tmpSock ← dataSock trans_id
    slaveCall (.assign trans_id none)
    slaveCall (.closeSocket tmpSock)
  else return ()

/-- The search for a free port. -/
def bindLoop (trans_id : ℤ) (ip usStart usLen usFirstTry : ℕ) : (fuel : ℕ) → (usTriedPort : ℕ) →
    SlaveProg (Option ℕ)
  | 0, _ => .stop .loops
  | fuel + 1, usTriedPort => do
      let sock ← dataSock trans_id
      if ← slaveCall (.bind sock ip usTriedPort) then return some usTriedPort
      else
        let below := (usTriedPort + 65535) % 65536
        let next := if below < usFirstTry then (usStart + usLen) % 65536 else below
        if next = usFirstTry then return none
        else bindLoop trans_id ip usStart usLen usFirstTry fuel next

/-- The end of `InitPasvDataConnection`, with a port or without one. -/
def listenOn (trans_id : ℤ) (ip server_port : ℕ) : SlaveProg Reply :=
  if server_port = 0 then
    return .line 451 "Internal error - No more data port available."
  else do
    let sock ← dataSock trans_id
    if ← slaveCall (.listen sock) then return passiveReply ip server_port
    else return .line 451 "Internal error - Unable to listen."

/-- `InitPasvDataConnection`; `ip` is `p.server_ip`, an address in network order. -/
def initPasvDataConnection (p : PasvParams) (ip startPort portLen : ℕ) : SlaveProg Reply := do
  let sock ← slaveCall (.socket p.trans_id)
  slaveCall (.assign p.trans_id sock)
  let sock ← dataSock p.trans_id
  if sock.isSome then do
    let sock ← dataSock p.trans_id
    if ← slaveCall (.setsockopt sock) then do
      let usLen := portLen % 65536
      let usStart := startPort % 65536
      let r ← slaveCall .rand
      if usLen = 0 then .stop .undefinedBehaviour
      else do
        let usFirstTry := (usStart + r % usLen) % 65536
        let server_port ← bindLoop p.trans_id ip usStart usLen usFirstTry 131072 usFirstTry
        listenOn p.trans_id ip (server_port.getD 0)
    else return .empty
  else return .empty

/-- `OpenPasvDataConnection`. -/
def openPasvDataConnection (p : PasvParams) : SlaveProg Reply := do
  let sock ← dataSock p.trans_id
  slaveCall (.fdSet sock)
  let sock ← dataSock p.trans_id
  if ← slaveCall (.select sock) then do
    let sock ← dataSock p.trans_id
    let sTmpWs ← slaveCall (.accept p.trans_id sock)
    let sock ← dataSock p.trans_id
    slaveCall (.closeSocket sock)
    slaveCall (.assign p.trans_id sTmpWs)
    if sTmpWs.isSome then return .line 150 "Connection accepted."
    else do
      resetDataConnection p.trans_id
      return .line 425 "Can't open data connection."
  else return .empty

/-- A transfer from the offset on: its last `len`. -/
def atOffset (restart_at : ℤ) (transfer : SlaveProg ℤ) : SlaveProg ℤ :=
  if restart_at = 0 then transfer
  else if 0 < restart_at then do
    if ← slaveCall (.lseek restart_at) then transfer else return 0
  else return 0

/-- What is done with the file: nothing if it does not open. -/
def withFile (hFile : Bool) (restart_at : ℤ) (transfer : SlaveProg ℤ) : SlaveProg ℤ :=
  if hFile then do
    let len ← atOffset restart_at transfer
    slaveCall .closeFile
    return len
  else return 0

/-- The loop of `Retrieve`.  `rounds` bounds how often it has gone around so far; a transfer that is
still going on blocks. -/
def retrieveLoop (trans_id : ℤ) (uiBufferSize : ℕ) : (rounds : ℕ) → (len : ℤ) → SlaveProg ℤ
  | 0, _ => .stop .blocked
  | rounds + 1, len => do
      let sock ← dataSock trans_id
      if sock.isSome then do
        let BlockSize ← slaveCall (.read uiBufferSize)
        if 0 < BlockSize then do
          let sock ← dataSock trans_id
          let len ← slaveCall (.send sock BlockSize)
          if len ≤ 0 then return len else retrieveLoop trans_id uiBufferSize rounds len
        else return len
      else return len

/-- `Retrieve`. -/
def retrieve (rounds uiBufferSize : ℕ) (fid restart_at trans_id : ℤ) : SlaveProg Reply := do
  let hFile ← slaveCall (.openFile fid none)
  let len ← withFile hFile restart_at (retrieveLoop trans_id uiBufferSize (rounds + 1) 0)
  resetDataConnection trans_id
  if len < 0 ∨ hFile = false then return .line 550 "Can't retrieve File."
  else return .line 226 "Transfer complete."

/-- The loop of `Store`: `filled` bytes of the buffer are in use. -/
def storeLoop (trans_id : ℤ) (uiBufferSize : ℕ) : (rounds filled : ℕ) → (len : ℤ) → SlaveProg ℤ
  | 0, _, _ => .stop .blocked
  | rounds + 1, filled, len => do
      let sock ← dataSock trans_id
      if sock.isSome then do
        let sock ← dataSock trans_id
        slaveCall (.fdSet sock)
        let sock ← dataSock trans_id
        if ← slaveCall (.select sock) then do
          let sock ← dataSock trans_id
          let len ← slaveCall (.recv sock (uiBufferSize - filled))
          if 0 < len then
            if filled + len.toNat = uiBufferSize then do
              if ← slaveCall (.safeWrite uiBufferSize) then
                storeLoop trans_id uiBufferSize rounds 0 len
              else return -1
            else storeLoop trans_id uiBufferSize rounds (filled + len.toNat) len
          else if len = 0 then do
            let _ ← slaveCall (.safeWrite filled)
            return len
          else return len
        else return -1
      else return len

/-- `Store`. -/
def store (rounds uiBufferSize : ℕ) (fid restart_at : ℤ) (iflags : OpenFlag) (trans_id : ℤ) :
    SlaveProg StorRetVal := do
  let hFile ← slaveCall (.openFile fid (some iflags))
  let len ← withFile hFile restart_at (storeLoop trans_id uiBufferSize (rounds + 1) 0 0)
  resetDataConnection trans_id
  let st ← slaveCall (.stat fid)
  return { msg := if len < 0 ∨ hFile = false then .line 550 "Can't store file."
                  else .line 226 "Transfer complete."
           size := st.getD (-1) }

/-- The socket calls of `OpenActiveDataConnection`, behind `socket`.  The port to bind goes into
`sin_port` without `htons`. -/
def connectActive (p : ActiveParams) (server_ip : ℕ) : SlaveProg Bool := do
  let sock ← dataSock p.trans_id
  if sock.isSome then do
    let sock ← dataSock p.trans_id
    if ← slaveCall (.setsockopt sock) then do
      let sock ← dataSock p.trans_id
      let _ ← slaveCall (.setsockopt sock)
      let sock ← dataSock p.trans_id
      if ← slaveCall (.bind sock server_ip (ntohs p.server_port)) then do
        let sock ← dataSock p.trans_id
        slaveCall (.connect sock p.client_ip p.client_port)
      else return false
    else return false
  else return false

/-- `OpenActiveDataConnection`; the addresses are those of the two ends. -/
def openActiveDataConnection (p : ActiveParams) (server_ip : ℕ) : SlaveProg Bool := do
  let sock ← slaveCall (.socket p.trans_id)
  slaveCall (.assign p.trans_id sock)
  if ← connectActive p server_ip then return true
  else do
    resetDataConnection p.trans_id
    return false

/-- `ActiveStoreTransfer`. -/
def activeStoreTransfer (rounds : ℕ) (p : ActiveParams) (server_ip : ℕ) (iflags : OpenFlag) :
    SlaveProg StorRetVal := do
  if ← openActiveDataConnection p server_ip then
    store rounds p.transfer_buffer_size p.fid p.restart_at iflags p.trans_id
  else return { msg := .line 425 "Can't open data connection.", size := -1 }

/-- `ActiveRetrieveTransfer`. -/
def activeRetrieveTransfer (rounds : ℕ) (p : ActiveParams) (server_ip : ℕ) : SlaveProg Reply := do
  if ← openActiveDataConnection p server_ip then
    retrieve rounds p.transfer_buffer_size p.fid p.restart_at p.trans_id
  else return .line 425 "Can't open data connection."

/-- `PasvStoreTransfer`. -/
def pasvStoreTransfer (rounds : ℕ) (p : PasvParams) (iflags : OpenFlag) : SlaveProg StorRetVal :=
  store rounds p.transfer_buffer_size p.fid p.restart_at iflags p.trans_id

/-- `PasvRetrieveTransfer`. -/
def pasvRetrieveTransfer (rounds : ℕ) (p : PasvParams) : SlaveProg Reply :=
  retrieve rounds p.transfer_buffer_size p.fid p.restart_at p.trans_id

end SlaveServices

/-- An RPC a slave receives; the addresses are those its parameters hold. -/
inductive SlaveRpc where
  | initPasvDataConnection (p : PasvParams) (server_ip startPort portLen : ℕ)
  | openPasvDataConnection (p : PasvParams)
  | activeStoreTransfer (p : ActiveParams) (server_ip : ℕ) (iflags : OpenFlag)
  | pasvStoreTransfer (p : PasvParams) (iflags : OpenFlag)
  | activeRetrieveTransfer (p : ActiveParams) (server_ip : ℕ)
  | pasvRetrieveTransfer (p : PasvParams)

/-- The message of an upload. -/
def storeMsg (p : SlaveProg StorRetVal) : SlaveProg Reply := do
  let retval ← p
  return retval.msg

/-- What the slave does, up to the reply. -/
def SlaveRpc.body (rounds : ℕ) : SlaveRpc → SlaveProg Reply
  | .initPasvDataConnection p ip startPort portLen =>
      SlaveServices.initPasvDataConnection p ip startPort portLen
  | .openPasvDataConnection p => SlaveServices.openPasvDataConnection p
  | .activeStoreTransfer p ip iflags =>
      storeMsg (SlaveServices.activeStoreTransfer rounds p ip iflags)
  | .pasvStoreTransfer p iflags => storeMsg (SlaveServices.pasvStoreTransfer rounds p iflags)
  | .activeRetrieveTransfer p ip => SlaveServices.activeRetrieveTransfer rounds p ip
  | .pasvRetrieveTransfer p => SlaveServices.pasvRetrieveTransfer rounds p

/-- The transaction of an RPC. -/
def SlaveRpc.trans_id : SlaveRpc → ℤ
  | .initPasvDataConnection p _ _ _ => p.trans_id
  | .openPasvDataConnection p => p.trans_id
  | .activeStoreTransfer p _ _ => p.trans_id
  | .pasvStoreTransfer p _ => p.trans_id
  | .activeRetrieveTransfer p _ => p.trans_id
  | .pasvRetrieveTransfer p => p.trans_id

/-! ### Ownership -/

/-- A descriptor handed to the system is open and was obtained for the transaction `t`. -/
def Owns (t : ℤ) (o : SlaveOp) (s : SlaveState) : Prop :=
  match o with
  | .fdSet fd | .select fd | .accept _ fd | .recv fd _ | .send fd _ | .closeSocket fd =>
      ∃ n, fd = some n ∧ s.owner n = some t
  | _ => True

/-- The descriptors of the map are open, and those that are open are of transactions of the map. -/
structure SlaveInv (s : SlaveState) : Prop where
  owned : ∀ u fd, s.mDataSock u = some (some fd) → s.owner fd = some u
  known : ∀ u fd, s.owner fd = some u → s.mDataSock u ≠ none

/-- The same for the transactions besides `t`. -/
structure Foreign (t : ℤ) (s : SlaveState) : Prop where
  owned : ∀ u ≠ t, ∀ fd, s.mDataSock u = some (some fd) → s.owner fd = some u
  known : ∀ u ≠ t, ∀ fd, s.owner fd = some u → s.mDataSock u ≠ none

/-- The entry of the transaction `t` is `sock`, and is its own. -/
structure Holds (t : ℤ) (sock : Option ℕ) (s : SlaveState) : Prop extends Foreign t s where
  entry : s.mDataSock t = some sock
  own : ∀ fd, sock = some fd → s.owner fd = some t

/-- The transaction is in the map with a descriptor of its own, or finished. -/
def Tracked (t : ℤ) (s : SlaveState) : Prop := ∃ sock, Holds t sock s

variable {t : ℤ} {sock : Option ℕ} {s s' : SlaveState} {env : SlaveEnv}

theorem SlaveInv.foreign (h : SlaveInv s) (t : ℤ) : Foreign t s :=
  ⟨fun u _ fd => h.owned u fd, fun u _ fd => h.known u fd⟩

theorem SlaveInv.holds (h : SlaveInv s) (hentry : s.mDataSock t = some sock) : Holds t sock s :=
  ⟨h.foreign t, hentry, fun fd hfd => h.owned t fd (by rw [hentry, hfd])⟩

theorem Holds.inv (h : Holds t sock s) : SlaveInv s := by
  constructor
  · intro u fd hentry
    by_cases hu : u = t
    · rw [hu, h.entry, Option.some.injEq] at hentry
      rw [hu]
      exact h.own fd hentry
    · exact h.owned u hu fd hentry
  · intro u fd howner
    by_cases hu : u = t
    · rw [hu, h.entry]
      simp
    · exact h.known u hu fd howner

theorem Tracked.inv (h : Tracked t s) : SlaveInv s := by
  obtain ⟨sock, hsock⟩ := h
  exact hsock.inv

theorem Holds.tick (h : Holds t sock s) : Holds t sock s.tick :=
  ⟨⟨h.owned, h.known⟩, h.entry, h.own⟩

/-- The entry of `t` is a matter of its own. -/
theorem Foreign.assign (h : Foreign t s) (sock : Option ℕ) : Foreign t (s.assign t sock) := by
  have hother : ∀ u ≠ t, (s.assign t sock).mDataSock u = s.mDataSock u :=
    fun u hu => Function.update_of_ne hu _ _
  constructor
  · intro u hu fd hentry
    rw [hother u hu] at hentry
    exact h.owned u hu fd hentry
  · intro u hu fd howner
    rw [hother u hu]
    exact h.known u hu fd howner

theorem assign_entry (s : SlaveState) (t : ℤ) (sock : Option ℕ) :
    (s.assign t sock).mDataSock t = some sock := Function.update_self _ _ _

/-- A new descriptor is nobody else's. -/
theorem Foreign.obtain (h : Foreign t s) (answer : Option ℕ) : Foreign t (s.obtain t answer).2 ∧
    (∀ fd, (s.obtain t answer).1 = some fd →
      (s.obtain t answer).2.owner fd = some t ∧ s.owner fd = none) ∧
    (∀ fd, s.owner fd ≠ none → (s.obtain t answer).2.owner fd = s.owner fd) ∧
    (s.obtain t answer).2.mDataSock = s.mDataSock := by
  cases answer with
  | none => exact ⟨⟨h.owned, h.known⟩, fun fd hfd => absurd hfd (by simp [SlaveState.obtain]),
      fun fd _ => rfl, rfl⟩
  | some fd =>
      by_cases hfree : s.owner fd = none
      · have hobtain : s.obtain t (some fd) =
            (some fd, { s.tick with owner := Function.update s.owner fd (some t) }) := if_pos hfree
        rw [hobtain]
        have hkept : ∀ fd', s.owner fd' ≠ none →
            Function.update s.owner fd (some t) fd' = s.owner fd' := by
          intro fd' howner
          refine Function.update_of_ne ?_ _ _
          intro heq
          rw [heq] at howner
          exact howner hfree
        refine ⟨⟨?_, ?_⟩, ?_, hkept, rfl⟩
        · intro u hu fd' hentry
          have howner := h.owned u hu fd' hentry
          show Function.update s.owner fd (some t) fd' = some u
          rw [hkept fd' (by rw [howner]; simp)]
          exact howner
        · intro u hu fd' howner
          have hupd : Function.update s.owner fd (some t) fd' = some u := howner
          rw [Function.update_apply] at hupd
          split_ifs at hupd
          · rw [Option.some.injEq] at hupd
            exact absurd hupd.symm hu
          · exact h.known u hu fd' hupd
        · intro fd' hfd
          rw [Option.some.injEq] at hfd
          subst hfd
          exact ⟨Function.update_self _ _ _, hfree⟩
      · have hobtain : s.obtain t (some fd) = (none, s.tick) := if_neg hfree
        rw [hobtain]
        exact ⟨⟨h.owned, h.known⟩, fun fd hfd => absurd hfd (by simp), fun fd _ => rfl, rfl⟩

/-- Closing a descriptor of `t` does not concern the others. -/
theorem Foreign.close (h : Foreign t s) {fd : ℕ} (hown : s.owner fd = some t) :
    Foreign t (s.close (some fd)) := by
  constructor
  · intro u hu fd' hentry
    have howner := h.owned u hu fd' hentry
    have hne : fd' ≠ fd := by
      intro heq
      rw [heq, hown, Option.some.injEq] at howner
      exact hu howner.symm
    show Function.update s.owner fd none fd' = some u
    rw [Function.update_of_ne hne]
    exact howner
  · intro u hu fd' howner
    have hold : s.owner fd' = some u := by
      have hupd : Function.update s.owner fd none fd' = some u := howner
      rw [Function.update_apply] at hupd
      split_ifs at hupd
      exact hupd
    exact h.known u hu fd' hold

/-! ### The triples of the handler -/

/-- The triples of the calls of a transaction. -/
abbrev Handles (env : SlaveEnv) (t : ℤ) {α : Type} (P : SlaveState → Prop) (p : SlaveProg α)
    (Q : α → SlaveState → Prop) : Prop := Sound (serveSlave env) (Owns t) P p Q

variable {α β : Type} {P : SlaveState → Prop} {Q : α → SlaveState → Prop}

/-- A lookup of a transaction that is in the map. -/
theorem handles_dataSock {f : Option ℕ → SlaveProg α} (hP : ∀ s, P s → s.mDataSock t = some sock)
    (hf : Handles env t P (f sock) Q) : Handles env t P (SlaveServices.dataSock t >>= f) Q := by
  have hlookup : ∀ s, P s → serveSlave env (.lookup t) s = (sock, s) := by
    intro s hs
    show (match s.mDataSock t with | some sock => _ | none => _) = _
    rw [hP s hs]
  constructor
  · intro s hs
    refine ⟨trivial, ?_⟩
    show Along _ _ (f (serveSlave env (.lookup t) s).1) (serveSlave env (.lookup t) s).2
    rw [hlookup s hs]
    exact hf.along s hs
  · intro s hs a u hrun
    have hrun' : run (serveSlave env) (f (serveSlave env (.lookup t) s).1)
        (serveSlave env (.lookup t) s).2 = .done a u := hrun
    rw [hlookup s hs] at hrun'
    exact hf.ends s hs a u hrun'

/-- A call that only the system answers. -/
theorem handles_call {o : SlaveOp} {f : o.Res → SlaveProg α}
    (ho : ∀ s, (serveSlave env o s).2 = s.tick) (hP : ∀ s, P s → P s.tick)
    (hown : ∀ s, P s → Owns t o s) (hf : ∀ r, Handles env t P (f r) Q) :
    Handles env t P (slaveCall o >>= f) Q := by
  refine Sound.bind (Q := fun _ => P) (Sound.op hown fun s hs => ?_) hf
  rw [show (serveSlave env o s).2 = s.tick from ho s]
  exact hP s hs

theorem Holds.owns_fd {fd : ℕ} (h : Holds t (some fd) s) : ∃ n, some fd = some n ∧ s.owner n = some t :=
  ⟨fd, rfl, h.own fd rfl⟩

/-- `(*mDataSock)[trans_id] = socket(..)`. -/
theorem handles_socket {f : Option ℕ → SlaveProg α}
    (hf : ∀ sock, Handles env t (Holds t sock) (f sock) Q) :
    Handles env t (Foreign t) (slaveCall (.socket t) >>= fun sock =>
      slaveCall (.assign t sock) >>= fun _ => f sock) Q := by
  refine Sound.bind
    (Q := fun (sock : Option ℕ) s => Foreign t s ∧ ∀ fd, sock = some fd → s.owner fd = some t)
    (Sound.op (fun s _ => trivial) fun s hs => ?_) fun sock => ?_
  · obtain ⟨hforeign, hnew, -, -⟩ := hs.obtain (env s.clock (.socket t))
    exact ⟨hforeign, fun fd hfd => (hnew fd hfd).1⟩
  · refine Sound.bind (Q := fun _ => Holds t sock) (Sound.op (fun s _ => trivial) fun s hs => ?_)
      fun _ => hf sock
    exact ⟨hs.1.assign sock, assign_entry s t sock, hs.2⟩

/-- `ResetDataConnection` leaves the transaction finished. -/
theorem handles_reset : Handles env t (Tracked t) (SlaveServices.resetDataConnection t)
    fun _ => Holds t none := by
  have hsock : ∀ sock, Handles env t (Holds t sock) (SlaveServices.resetDataConnection t)
      fun _ => Holds t none := by
    intro sock
    refine handles_dataSock (fun s hs => hs.entry) ?_
    cases sock with
    | none => exact Sound.ret fun s hs => hs
    | some fd =>
        refine handles_dataSock (fun s hs => hs.entry) ?_
        refine Sound.bind (Q := fun _ s => Foreign t s ∧ s.mDataSock t = some none ∧
          s.owner fd = some t) (Sound.op (fun s _ => trivial) fun s hs => ?_) fun _ => ?_
        · exact ⟨hs.assign none, assign_entry s t none, hs.own fd rfl⟩
        · refine Sound.op (fun s hs => ⟨fd, rfl, hs.2.2⟩) fun s hs => ?_
          exact ⟨hs.1.close hs.2.2, hs.2.1, fun fd' hfd => absurd hfd (by simp)⟩
  constructor
  · intro s hs
    obtain ⟨sock, hs⟩ := hs
    exact (hsock sock).along s hs
  · intro s hs
    obtain ⟨sock, hs⟩ := hs
    exact (hsock sock).ends s hs

/-! ### What each call of the handler keeps -/

namespace SlaveServices

variable {sock : Option ℕ}

theorem handles_bindLoop (ip usStart usLen usFirstTry fuel usTriedPort : ℕ) :
    Handles env t (Holds t sock) (bindLoop t ip usStart usLen usFirstTry fuel usTriedPort)
      fun _ => Holds t sock := by
  induction fuel generalizing usTriedPort with
  | zero => exact Sound.stop
  | succ fuel ih =>
      rw [bindLoop]
      refine handles_dataSock (fun s hs => hs.entry) ?_
      refine handles_call (fun _ => rfl) (fun s hs => hs.tick) (fun s _ => trivial) fun bound => ?_
      split
      · exact Sound.ret fun s hs => hs
      · dsimp only
        generalize (if (usTriedPort + 65535) % 65536 < usFirstTry then (usStart + usLen) % 65536
          else (usTriedPort + 65535) % 65536) = next
        split_ifs
        · exact Sound.ret fun s hs => hs
        · exact ih next

/-- `InitPasvDataConnection` works on the socket it has made. -/
theorem handles_init (p : PasvParams) (ip startPort portLen : ℕ) :
    Handles env p.trans_id (Foreign p.trans_id) (initPasvDataConnection p ip startPort portLen)
      fun _ => Tracked p.trans_id := by
  refine handles_socket fun sock => ?_
  have htracked : ∀ r : Reply, Handles env p.trans_id (Holds p.trans_id sock)
      (.ret r : SlaveProg Reply) fun _ => Tracked p.trans_id :=
    fun r => Sound.ret fun s hs => ⟨sock, hs⟩
  refine handles_dataSock (fun s hs => hs.entry) ?_
  cases sock with
  | none => exact htracked _
  | some fd =>
      refine handles_dataSock (fun s hs => hs.entry) ?_
      refine handles_call (fun _ => rfl) (fun s hs => hs.tick) (fun s _ => trivial) fun ok => ?_
      cases ok with
      | false => exact htracked _
      | true =>
          refine handles_call (fun _ => rfl) (fun s hs => hs.tick) (fun s _ => trivial) fun r => ?_
          show Handles env p.trans_id _ (if portLen % 65536 = 0 then .stop .undefinedBehaviour else _) _
          split_ifs
          · exact Sound.stop
          · refine Sound.bind (handles_bindLoop _ _ _ _ _ _) fun server_port => ?_
            unfold listenOn
            split_ifs
            · exact htracked _
            · refine handles_dataSock (fun s hs => hs.entry) ?_
              refine handles_call (fun _ => rfl) (fun s hs => hs.tick) (fun s _ => trivial)
                fun listening => ?_
              cases listening with
              | true => exact htracked _
              | false => exact htracked _

/-- `OpenPasvDataConnection` of an open transaction. -/
theorem handles_open (p : PasvParams) (fd : ℕ) :
    Handles env p.trans_id (Holds p.trans_id (some fd)) (openPasvDataConnection p)
      fun _ => Tracked p.trans_id := by
  refine handles_dataSock (fun s hs => hs.entry) ?_
  refine handles_call (fun _ => rfl) (fun s hs => hs.tick) (fun s hs => hs.owns_fd) fun _ => ?_
  refine handles_dataSock (fun s hs => hs.entry) ?_
  refine handles_call (fun _ => rfl) (fun s hs => hs.tick) (fun s hs => hs.owns_fd) fun ready => ?_
  cases ready with
  | false => exact Sound.ret fun s hs => ⟨some fd, hs⟩
  | true =>
      refine handles_dataSock (fun s hs => hs.entry) ?_
      -- the accepted socket is another one than the listening socket, which is then closed
      refine Sound.bind (Q := fun (sock : Option ℕ) s => Holds p.trans_id (some fd) s ∧
        ∀ fd', sock = some fd' → s.owner fd' = some p.trans_id ∧ fd' ≠ fd)
        (Sound.op (fun s hs => hs.owns_fd) fun s hs => ?_) fun sock => ?_
      · obtain ⟨hforeign, hnew, hold, hmap⟩ :=
          hs.toForeign.obtain (env s.clock (.accept p.trans_id (some fd)))
        have hopen := hs.own fd rfl
        refine ⟨⟨hforeign, ?_, ?_⟩, ?_⟩
        · exact (congrFun hmap _).trans hs.entry
        · intro fd' hfd
          rw [Option.some.injEq] at hfd
          rw [← hfd]
          exact (hold fd (by rw [hopen]; simp)).trans hopen
        · intro fd' hfd
          refine ⟨(hnew fd' hfd).1, fun heq => ?_⟩
          have hfree := (hnew fd' hfd).2
          rw [heq, hopen] at hfree
          exact absurd hfree (by simp)
      · refine handles_dataSock (fun s hs => hs.1.entry) ?_
        refine Sound.bind (Q := fun _ s => Foreign p.trans_id s ∧
          ∀ fd', sock = some fd' → s.owner fd' = some p.trans_id)
          (Sound.op (fun s hs => hs.1.owns_fd) fun s hs => ?_) fun _ => ?_
        · refine ⟨hs.1.toForeign.close (hs.1.own fd rfl), fun fd' hfd => ?_⟩
          obtain ⟨hown, hne⟩ := hs.2 fd' hfd
          exact (Function.update_of_ne hne _ _).trans hown
        · refine Sound.bind (Q := fun _ => Holds p.trans_id sock)
            (Sound.op (fun s _ => trivial) fun s hs => ?_) fun _ => ?_
          · exact ⟨hs.1.assign sock, assign_entry s _ sock, hs.2⟩
          · cases sock with
            | some fd' => exact Sound.ret fun s hs => ⟨some fd', hs⟩
            | none =>
                refine Sound.bind (handles_reset.imp (fun s hs => ⟨none, hs⟩) fun _ s hs => hs)
                  fun _ => Sound.ret fun s hs => ⟨none, hs⟩

theorem handles_retrieveLoop (uiBufferSize rounds : ℕ) (len : ℤ) :
    Handles env t (Holds t sock) (retrieveLoop t uiBufferSize rounds len) fun _ => Holds t sock := by
  induction rounds generalizing len with
  | zero => exact Sound.stop
  | succ rounds ih =>
      refine handles_dataSock (fun s hs => hs.entry) ?_
      cases sock with
      | none => exact Sound.ret fun s hs => hs
      | some fd =>
          refine handles_call (fun _ => rfl) (fun s hs => hs.tick) (fun s _ => trivial)
            fun BlockSize => ?_
          split_ifs
          · refine handles_dataSock (fun s hs => hs.entry) ?_
            refine handles_call (fun _ => rfl) (fun s hs => hs.tick) (fun s hs => hs.owns_fd)
              fun len => ?_
            split_ifs
            · exact Sound.ret fun s hs => hs
            · exact ih len
          · exact Sound.ret fun s hs => hs

theorem handles_storeLoop (uiBufferSize rounds filled : ℕ) (len : ℤ) :
    Handles env t (Holds t sock) (storeLoop t uiBufferSize rounds filled len)
      fun _ => Holds t sock := by
  induction rounds generalizing filled len with
  | zero => exact Sound.stop
  | succ rounds ih =>
      refine handles_dataSock (fun s hs => hs.entry) ?_
      cases sock with
      | none => exact Sound.ret fun s hs => hs
      | some fd =>
          refine handles_dataSock (fun s hs => hs.entry) ?_
          refine handles_call (fun _ => rfl) (fun s hs => hs.tick) (fun s hs => hs.owns_fd) fun _ => ?_
          refine handles_dataSock (fun s hs => hs.entry) ?_
          refine handles_call (fun _ => rfl) (fun s hs => hs.tick) (fun s hs => hs.owns_fd)
            fun ready => ?_
          cases ready with
          | false => exact Sound.ret fun s hs => hs
          | true =>
              refine handles_dataSock (fun s hs => hs.entry) ?_
              refine handles_call (fun _ => rfl) (fun s hs => hs.tick) (fun s hs => hs.owns_fd)
                fun len => ?_
              split_ifs
              · refine handles_call (fun _ => rfl) (fun s hs => hs.tick) (fun s _ => trivial)
                  fun ok => ?_
                cases ok with
                | true => exact ih 0 len
                | false => exact Sound.ret fun s hs => hs
              · exact ih _ len
              · refine handles_call (fun _ => rfl) (fun s hs => hs.tick) (fun s _ => trivial)
                  fun _ => Sound.ret fun s hs => hs
              · exact Sound.ret fun s hs => hs

theorem handles_withFile {transfer : SlaveProg ℤ} (hFile : Bool) (restart_at : ℤ)
    (h : Handles env t (Holds t sock) transfer fun _ => Holds t sock) :
    Handles env t (Holds t sock) (withFile hFile restart_at transfer) fun _ => Holds t sock := by
  cases hFile with
  | false => exact Sound.ret fun s hs => hs
  | true =>
      refine Sound.bind (Q := fun _ => Holds t sock) ?_ fun len => ?_
      · unfold atOffset
        split_ifs
        · exact h
        · refine handles_call (fun _ => rfl) (fun s hs => hs.tick) (fun s _ => trivial) fun ok => ?_
          cases ok with
          | true => exact h
          | false => exact Sound.ret fun s hs => hs
        · exact Sound.ret fun s hs => hs
      · exact handles_call (fun _ => rfl) (fun s hs => hs.tick) (fun s _ => trivial)
          fun _ => Sound.ret fun s hs => hs

theorem handles_retrieve (rounds uiBufferSize : ℕ) (fid restart_at : ℤ) :
    Handles env t (Tracked t) (retrieve rounds uiBufferSize fid restart_at t)
      fun _ => Tracked t := by
  have hsock : ∀ sock, Handles env t (Holds t sock) (retrieve rounds uiBufferSize fid restart_at t)
      fun _ => Tracked t := by
    intro sock
    refine handles_call (fun _ => rfl) (fun s hs => hs.tick) (fun s _ => trivial) fun hFile => ?_
    refine Sound.bind (handles_withFile hFile restart_at (handles_retrieveLoop _ _ _)) fun len => ?_
    refine Sound.bind (handles_reset.imp (fun s hs => ⟨sock, hs⟩) fun _ s hs => hs) fun _ => ?_
    split_ifs
    · exact Sound.ret fun s hs => ⟨none, hs⟩
    · exact Sound.ret fun s hs => ⟨none, hs⟩
  exact ⟨fun s ⟨sock, hs⟩ => (hsock sock).along s hs, fun s ⟨sock, hs⟩ => (hsock sock).ends s hs⟩

theorem handles_store (rounds uiBufferSize : ℕ) (fid restart_at : ℤ) (iflags : OpenFlag) :
    Handles env t (Tracked t) (store rounds uiBufferSize fid restart_at iflags t)
      fun _ => Tracked t := by
  have hsock : ∀ sock, Handles env t (Holds t sock)
      (store rounds uiBufferSize fid restart_at iflags t) fun _ => Tracked t := by
    intro sock
    refine handles_call (fun _ => rfl) (fun s hs => hs.tick) (fun s _ => trivial) fun hFile => ?_
    refine Sound.bind (handles_withFile hFile restart_at (handles_storeLoop _ _ _ _)) fun len => ?_
    refine Sound.bind (handles_reset.imp (fun s hs => ⟨sock, hs⟩) fun _ s hs => hs) fun _ => ?_
    exact handles_call (fun _ => rfl) (fun s hs => hs.tick) (fun s _ => trivial)
      fun st => Sound.ret fun s hs => ⟨none, hs⟩
  exact ⟨fun s ⟨sock, hs⟩ => (hsock sock).along s hs, fun s ⟨sock, hs⟩ => (hsock sock).ends s hs⟩

/-- `OpenActiveDataConnection` works on the socket it has made. -/
theorem handles_openActive (p : ActiveParams) (server_ip : ℕ) :
    Handles env p.trans_id (Foreign p.trans_id) (openActiveDataConnection p server_ip)
      fun _ => Tracked p.trans_id := by
  refine handles_socket fun sock => ?_
  refine Sound.bind (Q := fun _ => Holds p.trans_id sock) ?_ fun opened => ?_
  · refine handles_dataSock (fun s hs => hs.entry) ?_
    cases sock with
    | none => exact Sound.ret fun s hs => hs
    | some fd =>
        refine handles_dataSock (fun s hs => hs.entry) ?_
        refine handles_call (fun _ => rfl) (fun s hs => hs.tick) (fun s _ => trivial) fun ok => ?_
        cases ok with
        | false => exact Sound.ret fun s hs => hs
        | true =>
            refine handles_dataSock (fun s hs => hs.entry) ?_
            refine handles_call (fun _ => rfl) (fun s hs => hs.tick) (fun s _ => trivial) fun _ => ?_
            refine handles_dataSock (fun s hs => hs.entry) ?_
            refine handles_call (fun _ => rfl) (fun s hs => hs.tick) (fun s _ => trivial)
              fun bound => ?_
            cases bound with
            | false => exact Sound.ret fun s hs => hs
            | true =>
                refine handles_dataSock (fun s hs => hs.entry) ?_
                exact Sound.op (fun s _ => trivial) fun s hs => hs.tick
  · cases opened with
    | true => exact Sound.ret fun s hs => ⟨sock, hs⟩
    | false =>
        refine Sound.bind (handles_reset.imp (fun s hs => ⟨sock, hs⟩) fun _ s hs => hs)
          fun _ => Sound.ret fun s hs => ⟨none, hs⟩

end SlaveServices

/-- The transaction of an RPC is as the handler takes it to be. -/
def SlaveRpc.Ready (s : SlaveState) : SlaveRpc → Prop
  | .openPasvDataConnection p => ∃ fd, s.mDataSock p.trans_id = some (some fd)
  | .pasvStoreTransfer p _ => s.mDataSock p.trans_id ≠ none
  | .pasvRetrieveTransfer p => s.mDataSock p.trans_id ≠ none
  | _ => True

theorem handles_storeMsg {p : SlaveProg StorRetVal} {Q : SlaveState → Prop}
    (h : Handles env t P p fun _ => Q) : Handles env t P (storeMsg p) fun _ => Q :=
  h.bind fun _ => Sound.ret fun _ hs => hs

/-- **A call** uses its own open descriptors, and keeps the invariant. -/
theorem SlaveRpc.handles (rpc : SlaveRpc) (rounds : ℕ) : Handles env rpc.trans_id
    (fun s => SlaveInv s ∧ rpc.Ready s) (rpc.body rounds) fun _ => Tracked rpc.trans_id := by
  have htracked : ∀ {s : SlaveState} {t : ℤ}, SlaveInv s → s.mDataSock t ≠ none → Tracked t s := by
    intro s t hinv hentry
    obtain ⟨sock, hsock⟩ := Option.ne_none_iff_exists'.mp hentry
    exact ⟨sock, hinv.holds hsock⟩
  cases rpc with
  | initPasvDataConnection p ip startPort portLen =>
      exact (SlaveServices.handles_init p ip startPort portLen).imp (fun s hs => hs.1.foreign _)
        fun _ _ hs => hs
  | openPasvDataConnection p =>
      constructor
      · intro s hs
        obtain ⟨hinv, fd, hentry⟩ := hs
        exact (SlaveServices.handles_open p fd).along s (hinv.holds hentry)
      · intro s hs
        obtain ⟨hinv, fd, hentry⟩ := hs
        exact (SlaveServices.handles_open p fd).ends s (hinv.holds hentry)
  | activeStoreTransfer p ip iflags =>
      refine handles_storeMsg (Sound.bind (Q := fun _ => Tracked p.trans_id)
        ((SlaveServices.handles_openActive p ip).imp (fun s hs => hs.1.foreign _) fun _ _ hs => hs)
        fun opened => ?_)
      cases opened with
      | true => exact SlaveServices.handles_store _ _ _ _ _
      | false => exact Sound.ret fun s hs => hs
  | pasvStoreTransfer p iflags =>
      exact handles_storeMsg ((SlaveServices.handles_store _ _ _ _ _).imp
        (fun s hs => htracked hs.1 hs.2) fun _ _ hs => hs)
  | activeRetrieveTransfer p ip =>
      refine Sound.bind (Q := fun _ => Tracked p.trans_id)
        ((SlaveServices.handles_openActive p ip).imp (fun s hs => hs.1.foreign _) fun _ _ hs => hs)
        fun opened => ?_
      cases opened with
      | true => exact SlaveServices.handles_retrieve _ _ _ _
      | false => exact Sound.ret fun s hs => hs
  | pasvRetrieveTransfer p =>
      exact (SlaveServices.handles_retrieve _ _ _ _).imp (fun s hs => htracked hs.1 hs.2)
        fun _ _ hs => hs

/-! ### Transactions that are finished -/

theorem run_dataSock_bind {f : Option ℕ → SlaveProg α} (h : s.mDataSock t = some sock) :
    run (serveSlave env) (SlaveServices.dataSock t >>= f) s = run (serveSlave env) (f sock) s := by
  have hlookup : serveSlave env (.lookup t) s = (sock, s) := by
    show (match s.mDataSock t with | some sock => _ | none => _) = _
    rw [h]
  show run _ (f (serveSlave env (.lookup t) s).1) (serveSlave env (.lookup t) s).2 = _
  rw [hlookup]

theorem finished_reset (h : s.mDataSock t = some none) :
    run (serveSlave env) (SlaveServices.resetDataConnection t) s = .done () s := by
  rw [SlaveServices.resetDataConnection, run_dataSock_bind h]
  rfl

/-- A transfer of a finished transaction moves nothing. -/
theorem finished_withFile (env : SlaveEnv) (transfer : SlaveProg ℤ) (hFile : Bool) (restart_at : ℤ)
    (h : s.mDataSock t = some none) (htransfer : ∀ s : SlaveState, s.mDataSock t = some none →
      run (serveSlave env) transfer s = .done 0 s) :
    ∃ s', run (serveSlave env) (SlaveServices.withFile hFile restart_at transfer) s = .done 0 s' ∧
      s'.mDataSock t = some none := by
  cases hFile with
  | false => exact ⟨s, rfl, h⟩
  | true =>
      have hoffset : ∃ s', run (serveSlave env) (SlaveServices.atOffset restart_at transfer) s =
          .done 0 s' ∧ s'.mDataSock t = some none := by
        unfold SlaveServices.atOffset
        split_ifs
        · exact ⟨s, htransfer s h, h⟩
        · show ∃ s', run _ (if env s.clock (.lseek restart_at) = true then transfer else return 0)
            s.tick = _ ∧ _
          split_ifs
          · exact ⟨s.tick, htransfer s.tick h, h⟩
          · exact ⟨s.tick, rfl, h⟩
        · exact ⟨s, rfl, h⟩
      obtain ⟨s', hrun, hentry⟩ := hoffset
      refine ⟨s'.tick, ?_, hentry⟩
      show run _ (SlaveServices.atOffset restart_at transfer >>= _) s = _
      rw [run_bind, hrun]
      rfl

/-- The reply to a download of a finished transaction goes by whether the file opens. -/
theorem finished_retrieve (rounds uiBufferSize : ℕ) (fid restart_at : ℤ)
    (h : s.mDataSock t = some none) : ∃ s',
    run (serveSlave env) (SlaveServices.retrieve rounds uiBufferSize fid restart_at t) s =
      .done (if env s.clock (.openFile fid none) = true then .line 226 "Transfer complete."
        else .line 550 "Can't retrieve File.") s' := by
  have hrest : ∀ hFile : Bool, ∃ s', run (serveSlave env) (do
      let len ← SlaveServices.withFile hFile restart_at
        (SlaveServices.retrieveLoop t uiBufferSize (rounds + 1) 0)
      SlaveServices.resetDataConnection t
      if len < 0 ∨ hFile = false then return .line 550 "Can't retrieve File."
      else return .line 226 "Transfer complete." : SlaveProg Reply) s.tick =
        .done (if hFile = true then .line 226 "Transfer complete."
          else .line 550 "Can't retrieve File.") s' := by
    intro hFile
    obtain ⟨s', hrun, hentry⟩ := finished_withFile (s := s.tick) env
      (SlaveServices.retrieveLoop t uiBufferSize (rounds + 1) 0) hFile restart_at h
      fun s hs => by
        rw [SlaveServices.retrieveLoop, run_dataSock_bind hs]
        rfl
    refine ⟨s', ?_⟩
    rw [run_bind, hrun, Outcome.done_andThen, run_bind, finished_reset hentry,
      Outcome.done_andThen]
    cases hFile <;> rfl
  exact hrest (env s.clock (.openFile fid none))

/-- And so does the message of an upload. -/
theorem finished_store (rounds uiBufferSize : ℕ) (fid restart_at : ℤ) (iflags : OpenFlag)
    (h : s.mDataSock t = some none) : ∃ s' size,
    run (serveSlave env) (SlaveServices.store rounds uiBufferSize fid restart_at iflags t) s =
      .done ⟨if env s.clock (.openFile fid (some iflags)) = true then .line 226 "Transfer complete."
        else .line 550 "Can't store file.", size⟩ s' := by
  have hrest : ∀ hFile : Bool, ∃ s' size, run (serveSlave env) (do
      let len ← SlaveServices.withFile hFile restart_at
        (SlaveServices.storeLoop t uiBufferSize (rounds + 1) 0 0)
      SlaveServices.resetDataConnection t
      let st ← slaveCall (.stat fid)
      return { msg := if len < 0 ∨ hFile = false then .line 550 "Can't store file."
                      else .line 226 "Transfer complete."
               size := st.getD (-1) } : SlaveProg StorRetVal) s.tick =
        .done ⟨if hFile = true then .line 226 "Transfer complete."
          else .line 550 "Can't store file.", size⟩ s' := by
    intro hFile
    obtain ⟨s', hrun, hentry⟩ := finished_withFile (s := s.tick) env
      (SlaveServices.storeLoop t uiBufferSize (rounds + 1) 0 0) hFile restart_at h
      fun s hs => by
        rw [SlaveServices.storeLoop, run_dataSock_bind hs]
        rfl
    refine ⟨s'.tick, (env s'.clock (.stat fid)).getD (-1), ?_⟩
    rw [run_bind, hrun, Outcome.done_andThen, run_bind, finished_reset hentry,
      Outcome.done_andThen]
    cases hFile <;> rfl
  exact hrest (env s.clock (.openFile fid (some iflags)))

/-! ### Transactions that are unknown -/

/-- The transaction is not in the map, or has got the 0 of a lookup; descriptor 0 is not its own. -/
structure Unknown (t : ℤ) (s : SlaveState) : Prop where
  entry : s.mDataSock t = none ∨ s.mDataSock t = some (some 0)
  other : s.owner 0 ≠ some t

theorem SlaveInv.unknown (h : SlaveInv s) (hentry : s.mDataSock t = none) : Unknown t s :=
  ⟨.inl hentry, fun howner => h.known t 0 howner hentry⟩

theorem Unknown.not_owned (h : Unknown t s) : ¬ ∃ n, some 0 = some n ∧ s.owner n = some t := by
  rintro ⟨n, hn, howner⟩
  rw [Option.some.injEq] at hn
  rw [← hn] at howner
  exact h.other howner

/-- A lookup answers 0. -/
theorem Unknown.lookup (h : Unknown t s) (env : SlaveEnv) :
    ∃ s', serveSlave env (.lookup t) s = (some 0, s') ∧ Unknown t s' ∧
      s'.mDataSock t = some (some 0) := by
  obtain hentry | hentry := h.entry
  · refine ⟨s.assign t (some 0), ?_, ⟨.inr (assign_entry s t _), h.other⟩, assign_entry s t _⟩
    show (match s.mDataSock t with | some sock => _ | none => _) = _
    rw [hentry]
  · refine ⟨s, ?_, h, hentry⟩
    show (match s.mDataSock t with | some sock => _ | none => _) = _
    rw [hentry]

/-- Until it uses a descriptor that is not its own, the program runs to its end and the transaction
stays unknown. -/
def Strays (env : SlaveEnv) (t : ℤ) {α : Type} (p : SlaveProg α) : Prop :=
  ∀ s, Unknown t s → Along (serveSlave env) (Owns t) p s →
    ∃ a s', run (serveSlave env) p s = .done a s' ∧ Unknown t s'

theorem Strays.bind {p : SlaveProg α} {f : α → SlaveProg β} (hp : Strays env t p)
    (hf : ∀ a, Strays env t (f a)) : Strays env t (p >>= f) := by
  intro s hs halong
  rw [along_bind] at halong
  obtain ⟨a, s₁, hrun, hs₁⟩ := hp s hs halong.1
  obtain ⟨b, s₂, hrun₂, hs₂⟩ := hf a s₁ hs₁ (halong.2 a s₁ hrun)
  exact ⟨b, s₂, by rw [run_bind, hrun, Outcome.done_andThen, hrun₂], hs₂⟩

theorem strays_ret (a : α) : Strays env t (.ret a : SlaveProg α) := fun s hs _ => ⟨a, s, rfl, hs⟩

theorem strays_call {o : SlaveOp} {f : o.Res → SlaveProg α}
    (ho : ∀ s, (serveSlave env o s).2 = s.tick) (hf : ∀ r, Strays env t (f r)) :
    Strays env t (slaveCall o >>= f) := by
  refine Strays.bind ?_ hf
  intro s hs _
  refine ⟨_, _, rfl, ?_⟩
  rw [show (serveSlave env o s).2 = s.tick from ho s]
  exact ⟨hs.entry, hs.other⟩

theorem strays_dataSock {f : Option ℕ → SlaveProg α} (hf : Strays env t (f (some 0))) :
    Strays env t (SlaveServices.dataSock t >>= f) := by
  intro s hs halong
  obtain ⟨s₁, hlookup, hs₁, -⟩ := hs.lookup env
  have hrest : Along (serveSlave env) (Owns t) (f (serveSlave env (.lookup t) s).1)
      (serveSlave env (.lookup t) s).2 := halong.2
  show ∃ a s', run (serveSlave env) (f (serveSlave env (.lookup t) s).1)
    (serveSlave env (.lookup t) s).2 = .done a s' ∧ Unknown t s'
  rw [hlookup] at hrest ⊢
  exact hf s₁ hs₁ hrest

/-- A use of descriptor 0. -/
theorem strays_misuse {o : SlaveOp} {f : o.Res → SlaveProg α}
    (ho : ∀ s, Unknown t s → ¬ Owns t o s) : Strays env t (slaveCall o >>= f) :=
  fun s hs halong => absurd halong.1 (ho s hs)

/-- `ResetDataConnection` closes descriptor 0. -/
theorem unknown_reset (h : Unknown t s) :
    ¬ Along (serveSlave env) (Owns t) (SlaveServices.resetDataConnection t) s := by
  intro halong
  obtain ⟨s₁, hlookup, hs₁, hentry⟩ := h.lookup env
  have h₁ : Along (serveSlave env) (Owns t) (if (serveSlave env (.lookup t) s).1.isSome then _
    else _) (serveSlave env (.lookup t) s).2 := halong.2
  rw [hlookup] at h₁
  obtain ⟨s₂, hlookup₂, hs₂, -⟩ := hs₁.lookup env
  have h₂ : Along (serveSlave env) (Owns t) (slaveCall (.assign t none) >>= fun _ =>
    slaveCall (.closeSocket (serveSlave env (.lookup t) s₁).1)) (serveSlave env (.lookup t) s₁).2 :=
    h₁.2
  rw [hlookup₂] at h₂
  obtain ⟨-, ⟨n, hn, howner⟩, -⟩ := h₂
  rw [Option.some.injEq] at hn
  rw [← hn] at howner
  exact hs₂.other howner

theorem strays_retrieveLoop (uiBufferSize rounds : ℕ) (len : ℤ) :
    Strays env t (SlaveServices.retrieveLoop t uiBufferSize (rounds + 1) len) := by
  refine strays_dataSock (strays_call (fun _ => rfl) fun BlockSize => ?_)
  split_ifs
  · exact strays_dataSock (strays_misuse fun _ hs => hs.not_owned)
  · exact strays_ret _

theorem strays_storeLoop (uiBufferSize rounds filled : ℕ) (len : ℤ) :
    Strays env t (SlaveServices.storeLoop t uiBufferSize (rounds + 1) filled len) :=
  strays_dataSock (strays_dataSock (strays_misuse fun _ hs => hs.not_owned))

theorem strays_withFile {transfer : SlaveProg ℤ} (hFile : Bool) (restart_at : ℤ)
    (h : Strays env t transfer) :
    Strays env t (SlaveServices.withFile hFile restart_at transfer) := by
  cases hFile with
  | false => exact strays_ret 0
  | true =>
      refine Strays.bind ?_ fun len => strays_call (fun _ => rfl) fun _ => strays_ret len
      unfold SlaveServices.atOffset
      split_ifs
      · exact h
      · refine strays_call (fun _ => rfl) fun ok => ?_
        cases ok with
        | true => exact h
        | false => exact strays_ret 0
      · exact strays_ret 0

/-- A transfer of an unknown transaction uses descriptor 0, at the latest to close it. -/
theorem unknown_transfer (o : SlaveOp) (transfer : o.Res → SlaveProg ℤ)
    (f : o.Res → ℤ → Unit → SlaveProg α) (ho : ∀ s, (serveSlave env o s).2 = s.tick)
    (h : ∀ r, Strays env t (transfer r)) (hs : Unknown t s) :
    ¬ Along (serveSlave env) (Owns t) (slaveCall o >>= fun r => transfer r >>= fun len =>
      SlaveServices.resetDataConnection t >>= f r len) s := by
  intro halong
  have hs₁ : Unknown t (serveSlave env o s).2 := by
    rw [ho s]
    exact ⟨hs.entry, hs.other⟩
  have hrest : Along (serveSlave env) (Owns t) (transfer (serveSlave env o s).1 >>= _)
    (serveSlave env o s).2 := halong.2
  rw [along_bind] at hrest
  obtain ⟨len, s₂, hrun, hs₂⟩ := h _ _ hs₁ hrest.1
  have hreset := hrest.2 len s₂ hrun
  rw [along_bind] at hreset
  exact unknown_reset hs₂ hreset.1

theorem unknown_store (rounds uiBufferSize : ℕ) (fid restart_at : ℤ) (iflags : OpenFlag)
    (hs : Unknown t s) : ¬ Along (serveSlave env) (Owns t)
      (SlaveServices.store rounds uiBufferSize fid restart_at iflags t) s :=
  unknown_transfer (.openFile fid (some iflags))
    (fun hFile => SlaveServices.withFile hFile restart_at
      (SlaveServices.storeLoop t uiBufferSize (rounds + 1) 0 0)) _ (fun _ => rfl)
    (fun hFile => strays_withFile hFile restart_at (strays_storeLoop _ _ _ _)) hs

theorem unknown_retrieve (rounds uiBufferSize : ℕ) (fid restart_at : ℤ) (hs : Unknown t s) :
    ¬ Along (serveSlave env) (Owns t)
      (SlaveServices.retrieve rounds uiBufferSize fid restart_at t) s :=
  unknown_transfer (.openFile fid none)
    (fun hFile => SlaveServices.withFile hFile restart_at
      (SlaveServices.retrieveLoop t uiBufferSize (rounds + 1) 0)) _ (fun _ => rfl)
    (fun hFile => strays_withFile hFile restart_at (strays_retrieveLoop _ _ _)) hs

/-! ### The statement -/

/-- An error reply. -/
def Reply.IsError (r : Reply) : Prop := ∃ c, r.code = some c ∧ 400 ≤ c

/-- The RPCs that work on a transaction that is there. -/
def SlaveRpc.NeedsOpen : SlaveRpc → Prop
  | .openPasvDataConnection _ | .pasvStoreTransfer _ _ | .pasvRetrieveTransfer _ => True
  | _ => False

/-- The transaction has a descriptor. -/
def SlaveState.IsOpen (s : SlaveState) (t : ℤ) : Prop := ∃ fd, s.mDataSock t = some (some fd)

/-- The call uses open descriptors of its own transaction only, and answers one that is unknown or
finished with an error. -/
def SlaveRpc.Proper (env : SlaveEnv) (rounds : ℕ) (rpc : SlaveRpc) (s : SlaveState) : Prop :=
  Along (serveSlave env) (Owns rpc.trans_id) (rpc.body rounds) s ∧
    (rpc.NeedsOpen → ¬ s.IsOpen rpc.trans_id →
      ∃ r s', run (serveSlave env) (rpc.body rounds) s = .done r s' ∧ r.IsError)

/-- The transaction is open; or it is finished, and the file of the transfer does not open. -/
def SlaveRpc.Served (env : SlaveEnv) (s : SlaveState) : SlaveRpc → Prop
  | .openPasvDataConnection p => s.IsOpen p.trans_id
  | .pasvStoreTransfer p iflags => s.IsOpen p.trans_id ∨ s.mDataSock p.trans_id = some none ∧
      env s.clock (.openFile p.fid (some iflags)) = false
  | .pasvRetrieveTransfer p => s.IsOpen p.trans_id ∨ s.mDataSock p.trans_id = some none ∧
      env s.clock (.openFile p.fid none) = false
  | _ => True

theorem SlaveRpc.Served.ready {rpc : SlaveRpc} (h : rpc.Served env s) : rpc.Ready s := by
  have hentry : ∀ {t : ℤ} {b : Prop}, s.IsOpen t ∨ s.mDataSock t = some none ∧ b →
      s.mDataSock t ≠ none := by
    intro t b h
    obtain ⟨fd, hfd⟩ | ⟨hfin, -⟩ := h
    · rw [hfd]; simp
    · rw [hfin]; simp
  cases rpc with
  | openPasvDataConnection p => exact h
  | pasvStoreTransfer p iflags => exact hentry h
  | pasvRetrieveTransfer p => exact hentry h
  | _ => trivial

/-- The calls a slave has answered, each under a condition. -/
inductive SlaveRun (ok : SlaveEnv → SlaveState → SlaveRpc → Prop) : SlaveState → Prop where
  | start : SlaveRun ok {}
  | call {s s' : SlaveState} {r : Reply} (env : SlaveEnv) (rounds : ℕ) (rpc : SlaveRpc) :
      SlaveRun ok s → ok env s rpc → run (serveSlave env) (rpc.body rounds) s = .done r s' →
      SlaveRun ok s'

/-- Between calls the map is right. -/
theorem SlaveRun.inv (h : SlaveRun (fun env s rpc => rpc.Served env s) s) : SlaveInv s := by
  induction h with
  | start => exact ⟨fun u fd hentry => absurd hentry (by simp), fun u fd howner => absurd howner (by simp)⟩
  | call env rounds rpc _ hserved hrun ih =>
      exact ((rpc.handles rounds).ends _ ⟨ih, hserved.ready⟩ _ _ hrun).inv

/-- A finished transfer is answered with an error if the file does not open, and else with 226. -/
theorem isError_iff {opened : Bool} {refusal : Reply} (hrefusal : refusal.IsError) :
    (if opened = true then Reply.line 226 "Transfer complete." else refusal).IsError ↔
      opened = false := by
  cases opened with
  | true =>
      refine iff_of_false ?_ (by simp)
      rintro ⟨c, hc, hle⟩
      have hcode : (226 : ℕ) = c := Option.some.inj hc
      omega
  | false => exact iff_of_true hrefusal rfl

/-- What the refusal of a finished transaction comes down to. -/
theorem refuses_iff {p : SlaveProg Reply} {opened : Bool} {refusal : Reply}
    (hrefusal : refusal.IsError) (hrun : ∃ s', run (serveSlave env) p s = .done
      (if opened = true then .line 226 "Transfer complete." else refusal) s') :
    (∃ r s', run (serveSlave env) p s = .done r s' ∧ r.IsError) ↔ opened = false := by
  obtain ⟨s', hrun⟩ := hrun
  rw [← isError_iff hrefusal]
  constructor
  · rintro ⟨r, s'', hrun', herror⟩
    rw [hrun, Outcome.done.injEq] at hrun'
    rw [hrun'.1]
    exact herror
  · intro herror
    exact ⟨_, s', hrun, herror⟩

/-- A transfer of a passive transaction. -/
theorem transfer_proper_iff {p : SlaveProg Reply} {t : ℤ} {opened : Bool} (refusal : Reply)
    (hrefusal : refusal.IsError) (hinv : SlaveInv s)
    (halong : s.mDataSock t ≠ none → Along (serveSlave env) (Owns t) p s)
    (hfinished : s.mDataSock t = some none → ∃ s', run (serveSlave env) p s = .done
      (if opened = true then .line 226 "Transfer complete." else refusal) s')
    (hunknown : Unknown t s → ¬ Along (serveSlave env) (Owns t) p s) :
    (Along (serveSlave env) (Owns t) p s ∧ (True → ¬ s.IsOpen t →
      ∃ r s', run (serveSlave env) p s = .done r s' ∧ r.IsError)) ↔
      s.IsOpen t ∨ s.mDataSock t = some none ∧ opened = false := by
  cases hentry : s.mDataSock t with
  | none =>
      refine iff_of_false (fun h => hunknown (hinv.unknown hentry) h.1) ?_
      rintro (⟨fd, hfd⟩ | ⟨hfin, -⟩)
      · rw [hentry] at hfd
        exact absurd hfd (by simp)
      · exact absurd hfin (by simp)
  | some sock =>
      have hready := halong (by rw [hentry]; simp)
      cases sock with
      | some fd =>
          have hopen : s.IsOpen t := ⟨fd, hentry⟩
          exact iff_of_true ⟨hready, fun _ hno => absurd hopen hno⟩ (.inl hopen)
      | none =>
          have hclosed : ¬ s.IsOpen t := by
            rintro ⟨fd, hfd⟩
            rw [hentry] at hfd
            exact absurd hfd (by simp)
          rw [← refuses_iff hrefusal (hfinished hentry)]
          constructor
          · intro h
            exact .inr ⟨rfl, h.2 trivial hclosed⟩
          · intro h
            exact ⟨hready, fun _ _ => (h.resolve_left hclosed).2⟩

/-- **The slave uses only descriptors it owns**: whenever all calls so far found their transaction
open, or finished with a file that did not open, the next call does so exactly if it does, too. -/
theorem descriptors_owned_iff (h : SlaveRun (fun env s rpc => rpc.Served env s) s) (env : SlaveEnv)
    (rounds : ℕ) (rpc : SlaveRpc) : rpc.Proper env rounds s ↔ rpc.Served env s := by
  have hinv := h.inv
  have halong : rpc.Ready s → Along (serveSlave env) (Owns rpc.trans_id) (rpc.body rounds) s :=
    fun hready => (rpc.handles rounds).along s ⟨hinv, hready⟩
  cases rpc with
  | initPasvDataConnection p ip startPort portLen =>
      exact iff_of_true ⟨halong trivial, fun hneeds => hneeds.elim⟩ trivial
  | activeStoreTransfer p ip iflags =>
      exact iff_of_true ⟨halong trivial, fun hneeds => hneeds.elim⟩ trivial
  | activeRetrieveTransfer p ip =>
      exact iff_of_true ⟨halong trivial, fun hneeds => hneeds.elim⟩ trivial
  | openPasvDataConnection p =>
      constructor
      · intro hproper
        -- otherwise `FD_SET` is given 0 or -1
        by_contra hclosed
        obtain ⟨-, ⟨n, hn, howner⟩, -⟩ := hproper.1
        cases hentry : s.mDataSock p.trans_id with
        | none =>
            obtain ⟨s₁, hlookup, hs₁, -⟩ := (hinv.unknown hentry).lookup env
            rw [hlookup] at hn howner
            exact hs₁.not_owned ⟨n, hn, howner⟩
        | some sock =>
            have hlookup : (serveSlave env (.lookup p.trans_id) s).1 = sock := by
              show (match s.mDataSock p.trans_id with | some sock => _ | none => _ : _ × _).1 = _
              rw [hentry]
            rw [hlookup] at hn
            exact hclosed ⟨n, by rw [hentry, hn]⟩
      · intro hopen
        exact ⟨halong hopen, fun _ hclosed => absurd hopen hclosed⟩
  | pasvStoreTransfer p iflags =>
      refine transfer_proper_iff (.line 550 "Can't store file.") ⟨550, rfl, by simp⟩ hinv
        halong ?_ ?_
      · intro hentry
        have hentry' : s.mDataSock p.trans_id = some none := hentry
        obtain ⟨s', size, hrun⟩ := finished_store rounds p.transfer_buffer_size p.fid
          p.restart_at iflags hentry'
        refine ⟨s', ?_⟩
        show run _ (storeMsg _) s = _
        rw [storeMsg, run_bind, SlaveServices.pasvStoreTransfer, hrun]
        rfl
      · intro hs hmsg
        have hstore : Along (serveSlave env) (Owns p.trans_id) (SlaveServices.pasvStoreTransfer
          rounds p iflags >>= _) s := hmsg
        rw [along_bind] at hstore
        exact unknown_store rounds _ _ _ _ hs hstore.1
  | pasvRetrieveTransfer p =>
      refine transfer_proper_iff (.line 550 "Can't retrieve File.") ⟨550, rfl, by simp⟩
        hinv halong ?_ ?_
      · intro hentry
        exact finished_retrieve rounds p.transfer_buffer_size p.fid p.restart_at hentry
      · intro hs hstore
        exact unknown_retrieve rounds _ _ _ hs hstore

/-- A system whose calls succeed. -/
def SlaveEnv.willing : SlaveEnv := fun _ o =>
  match o with
  | .lookup _ => none
  | .assign _ _ => ()
  | .rand => 0
  | .socket _ => some 3
  | .setsockopt _ => true
  | .bind _ _ _ => true
  | .listen _ => true
  | .connect _ _ _ => true
  | .fdSet _ => ()
  | .select _ => true
  | .accept _ _ => some 4
  | .recv _ _ => 0
  | .send _ len => len
  | .closeSocket _ => ()
  | .openFile _ _ => true
  | .lseek _ => true
  | .read _ => 0
  | .safeWrite _ => true
  | .closeFile => ()
  | .stat _ => some 0

/-- After an `InitPasvDataConnection` of transaction 1. -/
def initState : SlaveState where
  mDataSock := Function.update (fun _ => none) 1 (some (some 3))
  owner := Function.update (fun _ => none) 3 (some 1)
  clock := 5

/-- The connection of transaction 1 is accepted on its own socket. -/
theorem descriptors_owned_open :
    (SlaveRpc.openPasvDataConnection { trans_id := 1 }).Proper .willing 0 initState := by
  have hrun : run (serveSlave .willing)
      ((SlaveRpc.initPasvDataConnection { trans_id := 1 } 0 100 900).body 0) {} =
        .done (passiveReply 0 100) initState := rfl
  have hinit : SlaveRun (fun env s rpc => rpc.Served env s) initState :=
    SlaveRun.start.call .willing 0 (.initPasvDataConnection { trans_id := 1 } 0 100 900) trivial hrun
  exact (descriptors_owned_iff hinit .willing 0 _).mpr ⟨3, rfl⟩

/-- **An unknown transaction** is waited for on descriptor 0. -/
theorem open_unknown : ¬ ∀ s env rounds rpc, SlaveRun (fun _ _ _ => True) s →
    SlaveRpc.Proper env rounds rpc s := by
  intro hall
  have hproper := hall {} .willing 0 (.openPasvDataConnection { trans_id := 1 }) .start
  obtain ⟨-, ⟨n, -, howner⟩, -⟩ := hproper.1
  exact absurd howner (by simp [serveSlave, SlaveState.assign])

end ClusterFtpd
