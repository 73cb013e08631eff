import ClusterFtpd.Lib.Values
import ClusterFtpd.PassiveReply
import ClusterFtpd.SlaveServices
import ClusterFtpd.SlaveServicesRpc

/-!
# A slave behind its RPCs

The handler of a slave takes the numbers of the wire into the widths that it works with, and gives
its replies back as text; the metaserver narrows its own numbers to those of the wire.  `slaveIface`
is the handler of `SlaveServices` as the processor calls it, `SlaveRpc.args` what the metaserver
sends.

`slave_over_wire`: over the wire a slave is in the states that its handler reaches, and answers the
metaserver as the handler does.
-/

namespace ClusterFtpd

open Interaction MachineInt FieldCodec

/-- The text of a reply. -/
def Reply.text : Reply → Text
  | .line code text => Nat.toDigits 10 code ++ ' ' :: text.toList
  | .multiline code text => Nat.toDigits 10 code ++ '-' :: text.toList
  | .empty => []

/-- An `unsigned short`. -/
def u16 (x : ℤ) : ℕ := (x % 65536).toNat

/-- The numbers of an `int64_t`. -/
def InI64 (x : ℤ) : Prop := -2 ^ 63 ≤ x ∧ x < 2 ^ 63

/-! ### The side of the slave -/

namespace Slave

/-- The parameters as the handler reads them; it does not use the host. -/
def PasvParams.forHandler (p : PasvParams) : ClusterFtpd.PasvParams where
  server_port := u16 p.server_port.toInt
  fid := p.fid.toInt
  restart_at := p.restart_at.toInt
  transfer_buffer_size := u32 p.transfer_buffer_size.toInt
  trans_id := p.trans_id.toInt

def ActiveParams.forHandler (p : ActiveParams) : ClusterFtpd.ActiveParams where
  client_ip := u32 p.client_ip.toInt
  client_port := u16 p.client_port.toInt
  fid := p.fid.toInt
  restart_at := p.restart_at.toInt
  transfer_buffer_size := u32 p.transfer_buffer_size.toInt
  server_ip := []
  server_port := u16 p.server_port.toInt
  trans_id := p.trans_id.toInt

end Slave

/-- `O_WRONLY | O_CREAT` with `O_APPEND` or `O_TRUNC`, as Linux numbers them. -/
def OpenFlag.iflags : OpenFlag → Int32
  | .append => 1089
  | .trunc => 577

/-- The flags that `open` is given; only the two of `StoreThread` come. -/
def openFlag (iflags : Int32) : OpenFlag := if iflags = 1089 then .append else .trunc

/-- The result of an upload on the wire. -/
def StorRetVal.wire (r : StorRetVal) : Slave.StorRetVal where
  msg := r.msg.text
  size := Int64.ofInt r.size

/-- How a run of the handler ends for the processor. -/
def endedWith {α γ : Type} (f : α → γ) : Outcome SlaveState α → Slave.Ended γ × SlaveState
  | .done a s => (.returned (f a), s)
  | .stopped _ s => (.noReturn, s)

/-- `slave_servicesHandler` behind the processor. -/
def slaveIface (env : SlaveEnv) (rounds : ℕ) : Slave.Iface SlaveState
  | .initPasvDataConnection, a, s =>
      endedWith Reply.text (run (serveSlave env) (SlaveServices.initPasvDataConnection
        a.p.forHandler (u32 a.p.server_ip.toInt) (u32 a.startPort.toInt)
        (u16 a.portLen.toInt)) s)
  | .openPasvDataConnection, a, s =>
      endedWith Reply.text
        (run (serveSlave env) (SlaveServices.openPasvDataConnection a.p.forHandler) s)
  | .activeStoreTransfer, a, s =>
      endedWith StorRetVal.wire (run (serveSlave env) (SlaveServices.activeStoreTransfer rounds
        a.p.forHandler (u32 a.p.server_ip.toInt) (openFlag a.iflags)) s)
  | .pasvStoreTransfer, a, s =>
      endedWith StorRetVal.wire (run (serveSlave env) (SlaveServices.pasvStoreTransfer rounds
        a.p.forHandler (openFlag a.iflags)) s)
  | .activeRetrieveTransfer, a, s =>
      endedWith Reply.text (run (serveSlave env) (SlaveServices.activeRetrieveTransfer rounds
        a.p.forHandler (u32 a.p.server_ip.toInt)) s)
  | .pasvRetrieveTransfer, a, s =>
      endedWith Reply.text (run (serveSlave env) (SlaveServices.pasvRetrieveTransfer rounds
        a.p.forHandler) s)

/-! ### The side of the metaserver -/

/-- The parameters as they are sent; `server_ip` is the address of the host. -/
def PasvParams.wire (server_ip : ℕ) (p : PasvParams) : Slave.PasvParams where
  server_ip := Int64.ofInt server_ip
  server_port := Int32.ofInt p.server_port
  fid := Int64.ofInt p.fid
  restart_at := Int64.ofInt p.restart_at
  transfer_buffer_size := Int32.ofInt p.transfer_buffer_size
  trans_id := Int64.ofInt p.trans_id

def ActiveParams.wire (server_ip : ℕ) (p : ActiveParams) : Slave.ActiveParams where
  client_ip := Int64.ofInt p.client_ip
  client_port := Int32.ofInt p.client_port
  fid := Int64.ofInt p.fid
  restart_at := Int64.ofInt p.restart_at
  transfer_buffer_size := Int32.ofInt p.transfer_buffer_size
  server_ip := Int64.ofInt server_ip
  server_port := Int32.ofInt p.server_port
  trans_id := Int64.ofInt p.trans_id

/-- The method of an RPC. -/
def SlaveRpc.method : SlaveRpc → Slave.Method
  | .initPasvDataConnection _ _ _ _ => .initPasvDataConnection
  | .openPasvDataConnection _ => .openPasvDataConnection
  | .activeStoreTransfer _ _ _ => .activeStoreTransfer
  | .pasvStoreTransfer _ _ => .pasvStoreTransfer
  | .activeRetrieveTransfer _ _ => .activeRetrieveTransfer
  | .pasvRetrieveTransfer _ => .pasvRetrieveTransfer

/-- What the metaserver sends; `inet_addr` gives the address of a host. -/
def SlaveRpc.args (inet_addr : Text → ℕ) : (rpc : SlaveRpc) → rpc.method.Args
  | .initPasvDataConnection p server_ip startPort portLen =>
      { p := p.wire server_ip, startPort := Int32.ofInt startPort, portLen := Int16.ofInt portLen }
  | .openPasvDataConnection p => ⟨p.wire (inet_addr p.server_ip)⟩
  | .activeStoreTransfer p server_ip iflags =>
      { p := p.wire server_ip, iflags := iflags.iflags }
  | .pasvStoreTransfer p iflags =>
      { p := p.wire (inet_addr p.server_ip), iflags := iflags.iflags }
  | .activeRetrieveTransfer p server_ip => ⟨p.wire server_ip⟩
  | .pasvRetrieveTransfer p => ⟨p.wire (inet_addr p.server_ip)⟩

/-- How a run of the handler ends for the metaserver. -/
def resultOf {α γ : Type} (f : α → γ) : Outcome SlaveState α → RpcResult γ × SlaveState
  | .done a s => (.reply (f a), s)
  | .stopped _ s => (.noReturn, s)

/-- The RPC as a call of the handler, without a wire. -/
def SlaveRpc.direct (env : SlaveEnv) (rounds : ℕ) :
    (rpc : SlaveRpc) → SlaveState → RpcResult rpc.method.Ret × SlaveState
  | .initPasvDataConnection p ip startPort portLen, s =>
      resultOf Reply.text
        (run (serveSlave env) (SlaveServices.initPasvDataConnection p ip startPort portLen) s)
  | .openPasvDataConnection p, s =>
      resultOf Reply.text (run (serveSlave env) (SlaveServices.openPasvDataConnection p) s)
  | .activeStoreTransfer p ip iflags, s =>
      resultOf StorRetVal.wire
        (run (serveSlave env) (SlaveServices.activeStoreTransfer rounds p ip iflags) s)
  | .pasvStoreTransfer p iflags, s =>
      resultOf StorRetVal.wire
        (run (serveSlave env) (SlaveServices.pasvStoreTransfer rounds p iflags) s)
  | .activeRetrieveTransfer p ip, s =>
      resultOf Reply.text
        (run (serveSlave env) (SlaveServices.activeRetrieveTransfer rounds p ip) s)
  | .pasvRetrieveTransfer p, s =>
      resultOf Reply.text (run (serveSlave env) (SlaveServices.pasvRetrieveTransfer rounds p) s)

/-! ### The numbers -/

theorem toInt_i64 {x : ℤ} (h : InI64 x) : (Int64.ofInt x).toInt = x :=
  Int64.toInt_ofInt_of_le h.1 h.2

theorem u32_i64 {n : ℕ} (h : n < 4294967296) : u32 (Int64.ofInt n).toInt = n := by
  rw [toInt_i64 ⟨by omega, by omega⟩, u32_natCast h]

theorem u32_i32 {n : ℕ} (h : n < 4294967296) : u32 (Int32.ofInt n).toInt = n := by
  rw [Int32.toInt_ofInt]
  show (Int.bmod n 4294967296 % ((4294967296 : ℕ) : ℤ)).toNat = n
  rw [Int.bmod_emod]
  omega

theorem u16_i32 {n : ℕ} (h : n < 65536) : u16 (Int32.ofInt n).toInt = n := by
  rw [Int32.toInt_ofInt_of_le (by omega) (by omega)]
  unfold u16
  omega

theorem u16_i16 {n : ℕ} (h : n < 65536) : u16 (Int16.ofInt n).toInt = n := by
  rw [Int16.toInt_ofInt]
  show (Int.bmod n 65536 % ((65536 : ℕ) : ℤ)).toNat = n
  rw [Int.bmod_emod]
  omega

theorem openFlag_iflags (f : OpenFlag) : openFlag f.iflags = f := by
  cases f <;> rfl

/-- The numbers fit the variables that the metaserver keeps them in. -/
structure PasvParams.InRange (p : PasvParams) : Prop where
  server_port : p.server_port < 65536
  fid : InI64 p.fid
  restart_at : InI64 p.restart_at
  transfer_buffer_size : p.transfer_buffer_size < 4294967296
  trans_id : InI64 p.trans_id

structure ActiveParams.InRange (p : ActiveParams) : Prop where
  client_ip : p.client_ip < 4294967296
  client_port : p.client_port < 65536
  fid : InI64 p.fid
  restart_at : InI64 p.restart_at
  transfer_buffer_size : p.transfer_buffer_size < 4294967296
  server_port : p.server_port < 65536
  trans_id : InI64 p.trans_id

theorem PasvParams.forHandler_wire {p : PasvParams} (h : p.InRange) (server_ip : ℕ) :
    (p.wire server_ip).forHandler = { p with server_ip := [] } := by
  unfold wire Slave.PasvParams.forHandler
  rw [u16_i32 h.server_port, toInt_i64 h.fid, toInt_i64 h.restart_at,
    u32_i32 h.transfer_buffer_size, toInt_i64 h.trans_id]

theorem ActiveParams.forHandler_wire {p : ActiveParams} (h : p.InRange) (server_ip : ℕ) :
    (p.wire server_ip).forHandler = { p with server_ip := [] } := by
  unfold wire Slave.ActiveParams.forHandler
  rw [u32_i64 h.client_ip, u16_i32 h.client_port, toInt_i64 h.fid, toInt_i64 h.restart_at,
    u32_i32 h.transfer_buffer_size, u16_i32 h.server_port, toInt_i64 h.trans_id]

/-- The numbers of an RPC fit. -/
def SlaveRpc.InRange : SlaveRpc → Prop
  | .initPasvDataConnection p server_ip startPort portLen =>
      p.InRange ∧ server_ip < 4294967296 ∧ startPort < 65536 ∧ portLen < 65536
  | .openPasvDataConnection p => p.InRange
  | .activeStoreTransfer p server_ip _ => p.InRange ∧ server_ip < 4294967296
  | .pasvStoreTransfer p _ => p.InRange
  | .activeRetrieveTransfer p server_ip => p.InRange ∧ server_ip < 4294967296
  | .pasvRetrieveTransfer p => p.InRange

section Iface

variable {env : SlaveEnv} {rounds : ℕ} {s : SlaveState}

theorem endedWith_toResult {α γ : Type} (f : α → γ) (o : Outcome SlaveState α) :
    ((endedWith f o).1.toResult, (endedWith f o).2) = resultOf f o := by
  cases o <;> rfl

/-- The handler gets the numbers that the metaserver had. -/
theorem iface_direct {rpc : SlaveRpc} (h : rpc.InRange) (inet_addr : Text → ℕ) :
    ((slaveIface env rounds rpc.method (rpc.args inet_addr) s).1.toResult,
      (slaveIface env rounds rpc.method (rpc.args inet_addr) s).2) = rpc.direct env rounds s := by
  cases rpc with
  | initPasvDataConnection p server_ip startPort portLen =>
      obtain ⟨hp, hip, hstart, hlen⟩ := h
      have hport : u32 (Int32.ofInt startPort).toInt = startPort := u32_i32 (by omega)
      show (((endedWith Reply.text _).1.toResult, (endedWith Reply.text _).2) : _ × _) = _
      rw [endedWith_toResult]
      show resultOf Reply.text (run (serveSlave env) (SlaveServices.initPasvDataConnection
        (p.wire server_ip).forHandler (u32 (Int64.ofInt server_ip).toInt)
        (u32 (Int32.ofInt startPort).toInt) (u16 (Int16.ofInt portLen).toInt)) s) = _
      rw [PasvParams.forHandler_wire hp, u32_i64 hip, hport, u16_i16 hlen]
      rfl
  | openPasvDataConnection p =>
      show (((endedWith Reply.text _).1.toResult, (endedWith Reply.text _).2) : _ × _) = _
      rw [endedWith_toResult]
      show resultOf Reply.text (run (serveSlave env) (SlaveServices.openPasvDataConnection
        (p.wire (inet_addr p.server_ip)).forHandler) s) = _
      rw [PasvParams.forHandler_wire h]
      rfl
  | activeStoreTransfer p server_ip iflags =>
      obtain ⟨hp, hip⟩ := h
      show (((endedWith StorRetVal.wire _).1.toResult, (endedWith StorRetVal.wire _).2) : _ × _) = _
      rw [endedWith_toResult]
      show resultOf StorRetVal.wire (run (serveSlave env) (SlaveServices.activeStoreTransfer rounds
        (p.wire server_ip).forHandler (u32 (Int64.ofInt server_ip).toInt)
        (openFlag iflags.iflags)) s) = _
      rw [ActiveParams.forHandler_wire hp, u32_i64 hip, openFlag_iflags]
      rfl
  | pasvStoreTransfer p iflags =>
      show (((endedWith StorRetVal.wire _).1.toResult, (endedWith StorRetVal.wire _).2) : _ × _) = _
      rw [endedWith_toResult]
      show resultOf StorRetVal.wire (run (serveSlave env) (SlaveServices.pasvStoreTransfer rounds
        (p.wire (inet_addr p.server_ip)).forHandler (openFlag iflags.iflags)) s) = _
      rw [PasvParams.forHandler_wire h, openFlag_iflags]
      rfl
  | activeRetrieveTransfer p server_ip =>
      obtain ⟨hp, hip⟩ := h
      show (((endedWith Reply.text _).1.toResult, (endedWith Reply.text _).2) : _ × _) = _
      rw [endedWith_toResult]
      show resultOf Reply.text (run (serveSlave env) (SlaveServices.activeRetrieveTransfer rounds
        (p.wire server_ip).forHandler (u32 (Int64.ofInt server_ip).toInt)) s) = _
      rw [ActiveParams.forHandler_wire hp, u32_i64 hip]
      rfl
  | pasvRetrieveTransfer p =>
      show (((endedWith Reply.text _).1.toResult, (endedWith Reply.text _).2) : _ × _) = _
      rw [endedWith_toResult]
      show resultOf Reply.text (run (serveSlave env) (SlaveServices.pasvRetrieveTransfer rounds
        (p.wire (inet_addr p.server_ip)).forHandler) s) = _
      rw [PasvParams.forHandler_wire h]
      rfl

end Iface

/-! ### The replies of the handler -/

/-- A line of printable characters. -/
def ShortLine (t : Text) : Prop := t.length ≤ 64 ∧ ∀ c ∈ t, c.toNat < 128

theorem shortLine_of_all {t : Text} (hlength : t.length ≤ 64)
    (hall : (t.all fun c => decide (c.toNat < 128)) = true) : ShortLine t := by
  refine ⟨hlength, ?_⟩
  intro c hc
  exact of_decide_eq_true (List.all_eq_true.mp hall c hc)

theorem char_digits {n : ℕ} {c : Char} (h : c ∈ Nat.toDigits 10 n) : c.toNat < 128 := by
  have hdigit := Nat.isDigit_of_mem_toDigits (by decide) (by decide) h
  unfold Char.isDigit at hdigit
  rw [Bool.and_eq_true, decide_eq_true_iff, decide_eq_true_iff] at hdigit
  have hle : c.toNat ≤ 57 := hdigit.2
  omega

theorem char_numberList {ns : List ℕ} {c : Char} (h : c ∈ numberList ns) : c.toNat < 128 := by
  induction ns with
  | nil => exact absurd h List.not_mem_nil
  | cons n ns ih =>
      cases ns with
      | nil => exact char_digits h
      | cons m ns =>
          rw [numberList, List.mem_append, List.mem_cons] at h
          obtain h | rfl | h := h
          · exact char_digits h
          · decide
          · exact ih h

/-- The reply to a passive connection is a short line. -/
theorem shortLine_passive (ip : ℕ) {port : ℕ} (hport : port < 65536) :
    ShortLine (passiveReply ip port).text := by
  obtain ⟨text, hreply, htext⟩ := passiveReply_text ip port
  have hfront : Nat.toDigits 10 227 ++ [' '] = "227 ".toList := by decide
  have hline : (passiveReply ip port).text =
      passiveText (numberList (passiveFields (ntohl ip) port)) := by
    rw [hreply, ← htext, ← hfront, List.append_assoc]
    rfl
  have hfields : ∀ n ∈ passiveFields (ntohl ip) port, n ≤ 255 := by
    intro n hn
    rw [passiveFields_eq] at hn
    simp only [List.mem_cons, List.not_mem_nil, or_false] at hn
    omega
  have hdigits := digitCount_le hfields
  rw [hline]
  refine ⟨?_, ?_⟩
  · rw [length_passiveText, show passiveFields (ntohl ip) port = _ :: _ from rfl,
      length_numberList]
    have hlength : (passiveFields (ntohl ip) port).length = 6 := rfl
    rw [hlength] at hdigits
    show digitCount (passiveFields (ntohl ip) port) + 5 + 28 ≤ 64
    omega
  · intro c hc
    have hall : ("227 Entering Passive Mode (".toList.all fun c => decide (c.toNat < 128)) = true :=
      by decide +kernel
    unfold passiveText at hc
    rw [List.mem_append, List.mem_append] at hc
    obtain hc | hc | hc := hc
    · exact of_decide_eq_true (List.all_eq_true.mp hall c hc)
    · exact char_numberList hc
    · rw [List.mem_singleton] at hc
      rw [hc]
      decide

/-- A reply that goes over the wire as a short line. -/
def Reply.IsShort (r : Reply) : Prop := ShortLine r.text

namespace SlaveServices

theorem gives_bindLoop (trans_id : ℤ) (ip usStart usLen usFirstTry : ℕ) {fuel usTriedPort : ℕ}
    (hport : usTriedPort < 65536) :
    Gives (fun port => port.getD 0 < 65536)
      (bindLoop trans_id ip usStart usLen usFirstTry fuel usTriedPort) := by
  induction fuel generalizing usTriedPort with
  | zero => exact trivial
  | succ fuel ih =>
      intro sock bound
      show Gives _
        (if bound = true then (Prog.ret (some usTriedPort) : SlaveProg (Option ℕ)) else _)
      refine gives_if hport (gives_if ?_ (ih ?_))
      · show (0 : ℕ) < 65536
        omega
      · by_cases hbelow : (usTriedPort + 65535) % 65536 < usFirstTry
        · rw [if_pos hbelow]
          omega
        · rw [if_neg hbelow]
          omega

theorem gives_init (p : PasvParams) (ip startPort portLen : ℕ) :
    Gives Reply.IsShort (initPasvDataConnection p ip startPort portLen) := by
  have hempty : Reply.IsShort .empty := shortLine_of_all (by decide) rfl
  have hlisten : ∀ port < 65536, Gives Reply.IsShort (listenOn p.trans_id ip port) := by
    intro port hport
    unfold listenOn
    refine gives_if ?_ ?_
    · exact shortLine_of_all (by decide) (by decide)
    · intro sock listening
      refine gives_if ?_ ?_
      · exact shortLine_passive ip hport
      · exact shortLine_of_all (by decide) (by decide)
  intro sock assigned sock'
  show Gives _ (if sock'.isSome = true then _ else (Prog.ret .empty : SlaveProg Reply))
  refine gives_if ?_ hempty
  intro sock'' set
  show Gives _ (if set = true then _ else (Prog.ret .empty : SlaveProg Reply))
  refine gives_if ?_ hempty
  intro r
  show Gives _ (if portLen % 65536 = 0 then (.stop .undefinedBehaviour : SlaveProg Reply) else _)
  refine gives_if trivial ?_
  refine (gives_bindLoop p.trans_id ip _ _ _ (by omega)).bind ?_
  intro port hport
  exact hlisten _ hport

theorem gives_open (p : PasvParams) : Gives Reply.IsShort (openPasvDataConnection p) := by
  have hempty : Reply.IsShort .empty := shortLine_of_all (by decide) rfl
  have hrefused : Reply.IsShort (.line 425 "Can't open data connection.") :=
    shortLine_of_all (by decide) (by decide)
  intro sock set sock' readable
  show Gives _ (if readable = true then _ else (Prog.ret .empty : SlaveProg Reply))
  refine gives_if ?_ hempty
  intro sock'' sTmpWs sock₃ closed assigned
  show Gives _ (if sTmpWs.isSome = true then
    (Prog.ret (.line 150 "Connection accepted.") : SlaveProg Reply) else _)
  refine gives_if ?_ ?_
  · exact shortLine_of_all (by decide) (by decide)
  · exact Gives.after (p := resetDataConnection p.trans_id) fun _ => hrefused

theorem gives_retrieve (rounds uiBufferSize : ℕ) (fid restart_at trans_id : ℤ) :
    Gives Reply.IsShort (retrieve rounds uiBufferSize fid restart_at trans_id) := by
  intro hFile
  refine Gives.after (p := withFile hFile restart_at
    (retrieveLoop trans_id uiBufferSize (rounds + 1) 0)) fun len => ?_
  refine Gives.after (p := resetDataConnection trans_id) fun _ => ?_
  refine gives_if ?_ ?_
  · exact shortLine_of_all (by decide) (by decide)
  · exact shortLine_of_all (by decide) (by decide)

theorem gives_store (rounds uiBufferSize : ℕ) (fid restart_at : ℤ) (iflags : OpenFlag)
    (trans_id : ℤ) : Gives (fun r => r.msg.IsShort)
      (store rounds uiBufferSize fid restart_at iflags trans_id) := by
  intro hFile
  refine Gives.after (p := withFile hFile restart_at
    (storeLoop trans_id uiBufferSize (rounds + 1) 0 0)) fun len => ?_
  refine Gives.after (p := resetDataConnection trans_id) fun _ => ?_
  intro st
  show Reply.IsShort (if len < 0 ∨ hFile = false then _ else _)
  by_cases hfailed : len < 0 ∨ hFile = false
  · rw [if_pos hfailed]
    exact shortLine_of_all (by decide) (by decide)
  · rw [if_neg hfailed]
    exact shortLine_of_all (by decide) (by decide)

theorem gives_activeStore (rounds : ℕ) (p : ActiveParams) (server_ip : ℕ) (iflags : OpenFlag) :
    Gives (fun r => r.msg.IsShort) (activeStoreTransfer rounds p server_ip iflags) := by
  have hrefused : Reply.IsShort (.line 425 "Can't open data connection.") :=
    shortLine_of_all (by decide) (by decide)
  exact Gives.after (p := openActiveDataConnection p server_ip) fun opened =>
    gives_if (gives_store rounds _ _ _ iflags _) hrefused

theorem gives_activeRetrieve (rounds : ℕ) (p : ActiveParams) (server_ip : ℕ) :
    Gives Reply.IsShort (activeRetrieveTransfer rounds p server_ip) := by
  have hrefused : Reply.IsShort (.line 425 "Can't open data connection.") :=
    shortLine_of_all (by decide) (by decide)
  exact Gives.after (p := openActiveDataConnection p server_ip) fun opened =>
    gives_if (gives_retrieve rounds _ _ _ _) hrefused

end SlaveServices

variable {β : Type} {P : Protocol β Text}

theorem fits_endedWith {α : Type} {Q : α → Prop} {m : Slave.Method} {f : α → m.Ret}
    {p : SlaveProg α} (hp : Gives Q p) (hfits : ∀ a, Q a → m.RetFits P (f a)) (env : SlaveEnv)
    (s : SlaveState) : (endedWith f (run (serveSlave env) p s)).1.Fits P m := by
  cases hrun : run (serveSlave env) p s with
  | done a s' => exact hfits a (hp.run hrun)
  | stopped w s' => exact trivial

/-- What the handler sends back are short lines. -/
theorem fits_iface (hshort : ∀ t, ShortLine t → P.Fits t) (env : SlaveEnv) (rounds : ℕ)
    (m : Slave.Method) (a : m.Args) (s : SlaveState) :
    (slaveIface env rounds m a s).1.Fits P m := by
  cases m with
  | initPasvDataConnection =>
      exact fits_endedWith (m := .initPasvDataConnection) (SlaveServices.gives_init _ _ _ _)
        (fun r hr => hshort r.text hr) env s
  | openPasvDataConnection =>
      exact fits_endedWith (m := .openPasvDataConnection) (SlaveServices.gives_open _)
        (fun r hr => hshort r.text hr) env s
  | activeStoreTransfer =>
      exact fits_endedWith (m := .activeStoreTransfer) (f := StorRetVal.wire)
        (SlaveServices.gives_activeStore _ _ _ _) (fun r hr => hshort r.msg.text hr) env s
  | pasvStoreTransfer =>
      exact fits_endedWith (m := .pasvStoreTransfer) (f := StorRetVal.wire)
        (SlaveServices.gives_store _ _ _ _ _ _) (fun r hr => hshort r.msg.text hr) env s
  | activeRetrieveTransfer =>
      exact fits_endedWith (m := .activeRetrieveTransfer)
        (SlaveServices.gives_activeRetrieve _ _ _) (fun r hr => hshort r.text hr) env s
  | pasvRetrieveTransfer =>
      exact fits_endedWith (m := .pasvRetrieveTransfer) (SlaveServices.gives_retrieve _ _ _ _ _)
        (fun r hr => hshort r.text hr) env s

theorem shortLine_name (m : Slave.Method) : ShortLine m.name := by
  cases m <;> exact shortLine_of_all (by decide) (by decide)

/-- The servers around the handlers of a slave. -/
abbrev SlaveServer (P : Protocol β Text) : Type :=
  ∀ env rounds, Slave.Server P (slaveIface env rounds)

/-- A call over the wire is the call of the handler. -/
theorem call_direct (server : SlaveServer P) (hP : P.Lawful)
    (hshort : ∀ t, ShortLine t → P.Fits t) (env : SlaveEnv)
    (rounds : ℕ) (inet_addr : Text → ℕ) {rpc : SlaveRpc} (h : rpc.InRange) (s : SlaveState) :
    (server env rounds).call rpc.method (rpc.args inet_addr) s = rpc.direct env rounds s := by
  rw [Slave.Server.call_eq _ _ hP rpc.method (hshort _ (shortLine_name _)) _ s
    (fits_iface hshort env rounds rpc.method _ s)]
  exact iface_direct h inet_addr

/-! ### Runs -/

/-- The RPCs of the metaserver that a slave has answered over the wire, each under a condition. -/
inductive RpcRun (server : SlaveServer P) (inet_addr : Text → ℕ)
    (ok : SlaveEnv → SlaveState → SlaveRpc → Prop) : SlaveState → Prop where
  | start : RpcRun server inet_addr ok {}
  | call {s s' : SlaveState} (env : SlaveEnv) (rounds : ℕ) (rpc : SlaveRpc) (a : rpc.method.Ret) :
      RpcRun server inet_addr ok s → rpc.InRange ∧ ok env s rpc →
      (server env rounds).call rpc.method (rpc.args inet_addr) s = (.reply a, s') →
      RpcRun server inet_addr ok s'

theorem resultOf_reply {α γ : Type} {f : α → γ} {o : Outcome SlaveState α} {s : SlaveState} :
    (∃ a, resultOf f o = (.reply a, s)) ↔ ∃ r, o = .done r s := by
  constructor
  · intro h
    obtain ⟨a, h⟩ := h
    cases o with
    | done r t =>
        rw [resultOf, Prod.mk.injEq] at h
        exact ⟨r, by rw [h.2]⟩
    | stopped w t => exact absurd h (by simp [resultOf])
  · intro h
    obtain ⟨r, rfl⟩ := h
    exact ⟨f r, rfl⟩

theorem run_storeMsg {env : SlaveEnv} {p : SlaveProg StorRetVal} {s s' : SlaveState} :
    (∃ r, run (serveSlave env) p s = .done r s') ↔
      ∃ r, run (serveSlave env) (storeMsg p) s = .done r s' := by
  constructor
  · intro h
    obtain ⟨r, h⟩ := h
    exact ⟨r.msg, (run_bind_done _).mpr ⟨r, s', h, rfl⟩⟩
  · intro h
    obtain ⟨msg, h⟩ := h
    obtain ⟨r, t, hrun, hret⟩ := (run_bind_done _).mp h
    have hstate : t = s' := by
      have hdone : Outcome.done r.msg t = Outcome.done msg s' := hret
      rw [Outcome.done.injEq] at hdone
      exact hdone.2
    exact ⟨r, by rw [← hstate]; exact hrun⟩

/-- An RPC is answered exactly when the call of the handler comes back. -/
theorem SlaveRpc.direct_reply {env : SlaveEnv} {rounds : ℕ} (rpc : SlaveRpc) {s s' : SlaveState} :
    (∃ a, rpc.direct env rounds s = (.reply a, s')) ↔
      ∃ r, run (serveSlave env) (rpc.body rounds) s = .done r s' := by
  cases rpc with
  | activeStoreTransfer p ip iflags => exact resultOf_reply.trans run_storeMsg
  | pasvStoreTransfer p iflags => exact resultOf_reply.trans run_storeMsg
  | _ => exact resultOf_reply

/-- **The slave over the wire**: for every server and every protocol that can write short lines, a
slave is over the wire in the states that its handler reaches in the same calls, and an RPC of the
metaserver, with numbers that fit its own variables, ends for the metaserver in each of them as the
handler ends, and leaves the slave in the state that the handler leaves. -/
theorem slave_over_wire (server : SlaveServer P) (hP : P.Lawful)
    (hshort : ∀ t, ShortLine t → P.Fits t) (inet_addr : Text → ℕ)
    (ok : SlaveEnv → SlaveState → SlaveRpc → Prop) (s : SlaveState) :
    (RpcRun server inet_addr ok s ↔ SlaveRun (fun env s rpc => rpc.InRange ∧ ok env s rpc) s) ∧
    ∀ env rounds (rpc : SlaveRpc), rpc.InRange →
      (server env rounds).call rpc.method (rpc.args inet_addr) s = rpc.direct env rounds s := by
  refine ⟨⟨?_, ?_⟩, fun env rounds rpc h => call_direct server hP hshort env rounds inet_addr h s⟩
  · intro h
    induction h with
    | start => exact .start
    | call env rounds rpc a _ hok hcall ih =>
        rw [call_direct server hP hshort env rounds inet_addr hok.1] at hcall
        obtain ⟨r, hrun⟩ := rpc.direct_reply.mp ⟨a, hcall⟩
        exact .call env rounds rpc ih hok hrun
  · intro h
    induction h with
    | start => exact .start
    | call env rounds rpc _ hok hrun ih =>
        obtain ⟨a, hcall⟩ := rpc.direct_reply.mpr ⟨_, hrun⟩
        rw [← call_direct server hP hshort env rounds inet_addr hok.1] at hcall
        exact .call env rounds rpc a ih hok hcall

theorem shortLine_binary {t : Text} (h : ShortLine t) : BinaryProtocol.binary.Fits t := by
  obtain ⟨hlength, hall⟩ := h
  refine ⟨by omega, ?_⟩
  intro c hc
  have hlt := hall c hc
  omega

/-- A passive connection that the metaserver asks for in the binary protocol. -/
theorem slave_over_wire_binary :
    (Slave.binaryServer (slaveIface .willing 0)).call .initPasvDataConnection
      ((SlaveRpc.initPasvDataConnection { trans_id := 1 } 0 100 900).args fun _ => 0) {} =
        (.reply (passiveReply 0 100).text, initState) := by
  have hrange : (SlaveRpc.initPasvDataConnection { trans_id := 1 } 0 100 900).InRange :=
    ⟨⟨by decide, ⟨by decide, by decide⟩, ⟨by decide, by decide⟩, by decide, ⟨by decide, by decide⟩⟩,
      by decide, by decide, by decide⟩
  exact (slave_over_wire (fun _ _ => Slave.binaryServer _) BinaryProtocol.binary_lawful
    (fun _ => shortLine_binary) (fun _ => 0)
    (fun _ _ _ => True) {}).2 .willing 0
      (.initPasvDataConnection { trans_id := 1 } 0 100 900) hrange

end ClusterFtpd
