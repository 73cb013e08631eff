import ClusterFtpd.SlaveServicesTypes
import ClusterFtpd.Client

/-!
# The RPCs between the metaserver and a slave

The generated code of `slave_services`: for each of the six methods its arguments and its result,
the two halves of a call in `slave_servicesClient`, and `slave_servicesProcessor`, which answers a
message with what the handler does.  The code of the six methods differs in the names, the fields
and the type of the result only; `Method` holds these.

The bytes of a connection arrive in the order in which they were sent.  A reader that fails stands
for an exception of the library.  The library's own part of a server is a parameter, `Server`.

Main results:

* `Server.call_eq`: a call over the wire is the call of the handler;
* `calls_in_order`: the calls of one connection get their own results, in their order;
* `unknown_passed`: calls of methods that are not there do not disturb the other calls;
* `recv_message`: behind a message that is not the reply it waits for, a client takes its result
  from the next struct.
-/

namespace ClusterFtpd.Slave

open FieldCodec

/-! ### The methods -/

/-- The methods of the service. -/
inductive Method where
  | initPasvDataConnection
  | openPasvDataConnection
  | activeStoreTransfer
  | pasvStoreTransfer
  | activeRetrieveTransfer
  | pasvRetrieveTransfer
  deriving DecidableEq

namespace Method

/-- The name of a method in messages. -/
def name : Method → Text
  | .initPasvDataConnection => "InitPasvDataConnection".toList
  | .openPasvDataConnection => "OpenPasvDataConnection".toList
  | .activeStoreTransfer => "ActiveStoreTransfer".toList
  | .pasvStoreTransfer => "PasvStoreTransfer".toList
  | .activeRetrieveTransfer => "ActiveRetrieveTransfer".toList
  | .pasvRetrieveTransfer => "PasvRetrieveTransfer".toList

/-- `processMap_`. -/
def processMap : List Method :=
  [.initPasvDataConnection, .openPasvDataConnection, .activeStoreTransfer, .pasvStoreTransfer,
    .activeRetrieveTransfer, .pasvRetrieveTransfer]

theorem find_name (m : Method) : (processMap.find? fun k => k.name = m.name) = some m := by
  cases m <;> rfl

end Method

/-- `slave_services_InitPasvDataConnection_args`. -/
structure InitPasvDataConnection_args where
  p : PasvParams := {}
  startPort : Int32 := 0
  portLen : Int16 := 0
  deriving DecidableEq

/-- The arguments of the methods that have only the parameters of the connection. -/
structure ParamsArgs (π : Type) where
  p : π
  deriving DecidableEq

/-- The arguments of the uploads. -/
structure StoreArgs (π : Type) where
  p : π
  iflags : Int32 := 0
  deriving DecidableEq

abbrev OpenPasvDataConnection_args := ParamsArgs PasvParams

abbrev ActiveStoreTransfer_args := StoreArgs ActiveParams

abbrev PasvStoreTransfer_args := StoreArgs PasvParams

abbrev ActiveRetrieveTransfer_args := ParamsArgs ActiveParams

abbrev PasvRetrieveTransfer_args := ParamsArgs PasvParams

/-- A result: the value of `success`, and whether it is set. -/
structure Result (α : Type) where
  success : α
  isset : Bool := false

namespace Method

abbrev Args : Method → Type
  | .initPasvDataConnection => InitPasvDataConnection_args
  | .openPasvDataConnection => OpenPasvDataConnection_args
  | .activeStoreTransfer => ActiveStoreTransfer_args
  | .pasvStoreTransfer => PasvStoreTransfer_args
  | .activeRetrieveTransfer => ActiveRetrieveTransfer_args
  | .pasvRetrieveTransfer => PasvRetrieveTransfer_args

abbrev Ret : Method → Type
  | .activeStoreTransfer => StorRetVal
  | .pasvStoreTransfer => StorRetVal
  | _ => Text

/-- The arguments before they are read. -/
def noArgs : (m : Method) → m.Args
  | .initPasvDataConnection => {}
  | .openPasvDataConnection => ⟨{}⟩
  | .activeStoreTransfer => { p := {} }
  | .pasvStoreTransfer => { p := {} }
  | .activeRetrieveTransfer => ⟨{}⟩
  | .pasvRetrieveTransfer => ⟨{}⟩

/-- The value that a result is read into. -/
def noRet : (m : Method) → m.Ret
  | .initPasvDataConnection => []
  | .openPasvDataConnection => []
  | .activeStoreTransfer => {}
  | .pasvStoreTransfer => {}
  | .activeRetrieveTransfer => []
  | .pasvRetrieveTransfer => []

end Method

section Fields

variable {β : Type} (P : Protocol β Text)

/-- The parameters of a passive connection as the first argument. -/
def pasvField {A : Type} (get : A → PasvParams) (set : A → PasvParams → A) : Field β Text A :=
  .part "p".toList .struct 1 (PasvParams.write P) (PasvParams.read P) get set

/-- The parameters of an active connection as the first argument. -/
def activeField {A : Type} (get : A → ActiveParams) (set : A → ActiveParams → A) :
    Field β Text A :=
  .part "p".toList .struct 1 (ActiveParams.write P) (ActiveParams.read P) get set

/-- A scalar argument. -/
def scalarField {A : Type} (name : Text) (id : Int16) (part : Scalar Text A) : Field β Text A :=
  ScalarField.field P ⟨name, id, part⟩

/-- The fields of the arguments. -/
def Method.argsFields : (m : Method) → List (Field β Text m.Args)
  | .initPasvDataConnection =>
      [pasvField P (fun a => a.p) (fun a v => { a with p := v }),
        scalarField P "startPort".toList 2
          (.i32 (fun a => a.startPort) fun a v => { a with startPort := v }),
        scalarField P "portLen".toList 3
          (.i16 (fun a => a.portLen) fun a v => { a with portLen := v })]
  | .openPasvDataConnection => [pasvField P (fun a => a.p) (fun a v => { a with p := v })]
  | .activeStoreTransfer =>
      [activeField P (fun a => a.p) (fun a v => { a with p := v }),
        scalarField P "iflags".toList 2
          (.i32 (fun a => a.iflags) fun a v => { a with iflags := v })]
  | .pasvStoreTransfer =>
      [pasvField P (fun a => a.p) (fun a v => { a with p := v }),
        scalarField P "iflags".toList 2
          (.i32 (fun a => a.iflags) fun a v => { a with iflags := v })]
  | .activeRetrieveTransfer => [activeField P (fun a => a.p) (fun a v => { a with p := v })]
  | .pasvRetrieveTransfer => [pasvField P (fun a => a.p) (fun a v => { a with p := v })]

/-- Reading the value of `success` sets it. -/
def Result.set {α : Type} (_ : Result α) (v : α) : Result α := { success := v, isset := true }

/-- The field of a result that is a string. -/
def stringResult : Field β Text (Result Text) :=
  .part "success".toList .string 0 P.writeString (fun _ => P.readString) (fun r => r.success)
    Result.set

/-- The field of a result that is a `StorRetVal`. -/
def storResult : Field β Text (Result StorRetVal) :=
  .part "success".toList .struct 0 (StorRetVal.write P) (StorRetVal.read P) (fun r => r.success)
    Result.set

/-- The field `success` of the result. -/
def Method.successField : (m : Method) → Field β Text (Result m.Ret)
  | .initPasvDataConnection => stringResult P
  | .openPasvDataConnection => stringResult P
  | .activeStoreTransfer => storResult P
  | .pasvStoreTransfer => storResult P
  | .activeRetrieveTransfer => stringResult P
  | .pasvRetrieveTransfer => stringResult P

/-- `slave_services_..._pargs::write`. -/
def Method.writeArgs (m : Method) (args : m.Args) : List β :=
  P.writeStruct ("slave_services_".toList ++ m.name ++ "_pargs".toList) (m.argsFields P) args

/-- `slave_services_..._args::read`. -/
def Method.readArgs (m : Method) (args : m.Args) : Reader β m.Args :=
  P.readStruct (m.argsFields P) args

/-- `slave_services_..._result::write`: a result that is not set has no field. -/
def Method.writeResult (m : Method) (r : Result m.Ret) : List β :=
  P.writeEntries ("slave_services_".toList ++ m.name ++ "_result".toList)
    (if r.isset then [(m.successField P).entry r] else [])

/-- `slave_services_..._presult::read`. -/
def Method.readResult (m : Method) (r : Result m.Ret) : Reader β (Result m.Ret) :=
  P.readStruct [m.successField P] r

/-! ### The client -/

/-- `send_...`. -/
def send (m : Method) (args : m.Args) : List β :=
  P.writeMessageBegin m.name .call 0 ++ m.writeArgs P args ++ P.writeMessageEnd

/-- The end of `recv_...`, from the result on. -/
def recvResult (m : Method) (ret : m.Ret) :
    Reader β (Except (ApplicationException Text) m.Ret) := do
  let result ← m.readResult P { success := ret }
  P.readMessageEnd
  if result.isset then return .ok result.success
  else return .error ⟨.missingResult, m.name ++ " failed: unknown result".toList⟩

/-- Skip the struct of a message, and its end. -/
def skipMessage : Reader β Unit := do
  P.skip .struct
  P.readMessageEnd

/-- The checks of `recv_...` behind the header of a message.  A message of another type or of
another method is skipped, and the result is read all the same. -/
def recvChecks (m : Method) (ret : m.Ret) (fname : Text) (mtype : TMessageType) :
    Reader β (Except (ApplicationException Text) m.Ret) := do
  if mtype ≠ .reply then skipMessage P else pure ()
  if fname ≠ m.name then skipMessage P else pure ()
  recvResult P m ret

/-- `recv_...`. -/
def recv (m : Method) (ret : m.Ret) : Reader β (Except (ApplicationException Text) m.Ret) := do
  let (fname, mtype, _) ← P.readMessageBegin
  if mtype = .exception then do
    let x ← P.readException
    P.readMessageEnd
    return .error x
  else recvChecks P m ret fname mtype

/-! ### The processor -/

/-- How a call of the handler ends: it returns, it throws a `std::exception`, or it does not come
back. -/
inductive Ended (α : Type) where
  | returned (a : α)
  | threw (what : Text)
  | noReturn

/-- A handler over the states `σ`. -/
abbrev Iface (σ : Type) := (m : Method) → m.Args → σ → Ended m.Ret × σ

variable {σ : Type} (iface : Iface σ)

/-- A message with an exception. -/
def exceptionMessage (fname : Text) (seqid : Int32) (x : ApplicationException Text) : List β :=
  P.writeMessageBegin fname .exception seqid ++ P.writeException x ++ P.writeMessageEnd

/-- A message with the result of a method. -/
def replyMessage (m : Method) (seqid : Int32) (r : Result m.Ret) : List β :=
  P.writeMessageBegin m.name .reply seqid ++ m.writeResult P r ++ P.writeMessageEnd

/-- What is sent back when the handler has ended. -/
def answer (m : Method) (seqid : Int32) : Ended m.Ret → Option (List β)
  | .returned a => some (replyMessage P m seqid { success := a, isset := true })
  | .threw what => some (exceptionMessage P m.name seqid ⟨.unknown, what⟩)
  | .noReturn => none

/-- `process_...`. -/
def process (m : Method) (seqid : Int32) (s : σ) : Reader β (Option (List β) × σ) := do
  let args ← m.readArgs P m.noArgs
  P.readMessageEnd
  return (answer P m seqid (iface m args s).1, (iface m args s).2)

/-- The exception for a method that is not in the map. -/
def invalidMethod (fname : Text) : ApplicationException Text :=
  ⟨.unknownMethod, "Invalid method name: '".toList ++ fname ++ ['\'']⟩

/-- `dispatchCall`. -/
def dispatchCall (fname : Text) (seqid : Int32) (s : σ) : Reader β (Option (List β) × σ) :=
  match Method.processMap.find? fun m => m.name = fname with
  | none => do
      skipMessage P
      return (some (exceptionMessage P fname seqid (invalidMethod fname)), s)
  | some m => process P iface m seqid s

/-- A server of the library, as the generated code relies on it: `process` takes the header of a
message and hands a call to `dispatchCall`, and the loop takes the messages of a connection one by
one, up to a call that does not come back.  The fuel of the loop bounds the messages. -/
structure Server where
  process : σ → Reader β (Option (List β) × σ)
  serveAll : (fuel : ℕ) → σ → List β → Option (List β × σ)
  process_call : ∀ fname seqid s, P.Fits fname → ∀ rest,
    (process s).run (P.writeMessageBegin fname .call seqid ++ rest) =
      (dispatchCall P iface fname seqid s).run rest
  serveAll_end : ∀ fuel s, serveAll (fuel + 1) s [] = some ([], s)
  serveAll_answered : ∀ fuel s b bs out s' rest,
    (process s).run (b :: bs) = some ((some out, s'), rest) →
      serveAll (fuel + 1) s (b :: bs) = (serveAll fuel s' rest).map fun p => (out ++ p.1, p.2)
  serveAll_noReturn : ∀ fuel s b bs s' rest,
    (process s).run (b :: bs) = some ((none, s'), rest) →
      serveAll (fuel + 1) s (b :: bs) = some ([], s')

/-- What a client gets out of an answer. -/
def received (m : Method) (out : List β) : RpcResult m.Ret :=
  match (recv P m m.noRet).run out with
  | some (.ok a, _) => .reply a
  | _ => .exception

variable {P iface} in
/-- A call over a connection of its own. -/
def Server.call (server : Server P iface) (m : Method) (args : m.Args) (s : σ) :
    RpcResult m.Ret × σ :=
  match (server.process s).run (send P m args) with
  | some ((some out, s'), _) => (received P m out, s')
  | some ((none, s'), _) => (.noReturn, s')
  | none => (.exception, s)

/-! ### Arguments and results -/

/-- The strings of a result fit. -/
def Method.RetFits : (m : Method) → m.Ret → Prop
  | .initPasvDataConnection, a => P.Fits a
  | .openPasvDataConnection, a => P.Fits a
  | .activeStoreTransfer, a => P.Fits a.msg
  | .pasvStoreTransfer, a => P.Fits a.msg
  | .activeRetrieveTransfer, a => P.Fits a
  | .pasvRetrieveTransfer, a => P.Fits a

variable {P}

theorem copies_pasv (hP : P.Lawful) {A : Type} (get : A → PasvParams) (set : A → PasvParams → A)
    (b : A) : (pasvField P get set).Copies b fun a => set a (get b) :=
  Field.copies_part (by decide) fun v => PasvParams.reads_write hP v (get b)

theorem copies_active (hP : P.Lawful) {A : Type} (get : A → ActiveParams)
    (set : A → ActiveParams → A) (b : A) :
    (activeField P get set).Copies b fun a => set a (get b) :=
  Field.copies_part (by decide) fun v => ActiveParams.reads_write hP v (get b)

theorem copies_i32 (hP : P.Lawful) {A : Type} (name : Text) (id : Int16) (get : A → Int32)
    (set : A → Int32 → A) (b : A) :
    (scalarField P name id (.i32 get set)).Copies b fun a => set a (get b) :=
  Protocol.copies_scalar (f := ⟨name, id, .i32 get set⟩) hP trivial

theorem copies_i16 (hP : P.Lawful) {A : Type} (name : Text) (id : Int16) (get : A → Int16)
    (set : A → Int16 → A) (b : A) :
    (scalarField P name id (.i16 get set)).Copies b fun a => set a (get b) :=
  Protocol.copies_scalar (f := ⟨name, id, .i16 get set⟩) hP trivial

theorem Method.nodup_args (m : Method) : ((m.argsFields P).map fun f => f.id).Nodup := by
  have hthree : ([1, 2, 3] : List Int16).Nodup := by decide
  have htwo : ([1, 2] : List Int16).Nodup := by decide
  have hone : ([1] : List Int16).Nodup := by decide
  cases m with
  | initPasvDataConnection => exact hthree
  | activeStoreTransfer => exact htwo
  | pasvStoreTransfer => exact htwo
  | _ => exact hone

/-- The arguments of a method are read as they were written. -/
theorem Method.reads_args (hP : P.Lawful) (m : Method) (args : m.Args) :
    Reads (m.readArgs P m.noArgs) (m.writeArgs P args) args := by
  cases m with
  | initPasvDataConnection =>
      exact Protocol.reads_writeStruct hP _ (Method.nodup_args .initPasvDataConnection)
        (.cons (copies_pasv hP _ _ args) (.cons (copies_i32 hP _ _ _ _ args)
          (.cons (copies_i16 hP _ _ _ _ args) .nil))) _
  | openPasvDataConnection =>
      exact Protocol.reads_writeStruct hP _ (Method.nodup_args .openPasvDataConnection)
        (.cons (copies_pasv hP _ _ args) .nil) _
  | activeStoreTransfer =>
      exact Protocol.reads_writeStruct hP _ (Method.nodup_args .activeStoreTransfer)
        (.cons (copies_active hP _ _ args) (.cons (copies_i32 hP _ _ _ _ args) .nil)) _
  | pasvStoreTransfer =>
      exact Protocol.reads_writeStruct hP _ (Method.nodup_args .pasvStoreTransfer)
        (.cons (copies_pasv hP _ _ args) (.cons (copies_i32 hP _ _ _ _ args) .nil)) _
  | activeRetrieveTransfer =>
      exact Protocol.reads_writeStruct hP _ (Method.nodup_args .activeRetrieveTransfer)
        (.cons (copies_active hP _ _ args) .nil) _
  | pasvRetrieveTransfer =>
      exact Protocol.reads_writeStruct hP _ (Method.nodup_args .pasvRetrieveTransfer)
        (.cons (copies_pasv hP _ _ args) .nil) _

/-- Reading the field `success` sets the result to its value. -/
theorem Method.copies_success (hP : P.Lawful) (m : Method) (r : Result m.Ret)
    (hfits : m.RetFits P r.success) :
    (m.successField P).Copies r fun _ => { success := r.success, isset := true } := by
  have hstring : ∀ r : Result Text, P.Fits r.success → (stringResult P).Copies r fun _ =>
      { success := r.success, isset := true } := fun r h =>
    Field.copies_part (by decide) fun _ => hP.string r.success h
  have hstor : ∀ r : Result StorRetVal, P.Fits r.success.msg → (storResult P).Copies r fun _ =>
      { success := r.success, isset := true } := fun r h =>
    Field.copies_part (by decide) fun v => StorRetVal.reads_write hP v h
  cases m with
  | activeStoreTransfer => exact hstor r hfits
  | pasvStoreTransfer => exact hstor r hfits
  | _ => exact hstring r hfits

/-- A result that is set is read as it was written. -/
theorem Method.reads_result (hP : P.Lawful) (m : Method) (a : m.Ret) (hfits : m.RetFits P a)
    (r : Result m.Ret) :
    Reads (m.readResult P r) (m.writeResult P { success := a, isset := true })
      { success := a, isset := true } := by
  have hcopies : List.Forall₂ (fun f copy => Field.Copies f { success := a, isset := true } copy)
      [m.successField P] [fun _ => { success := a, isset := true }] :=
    .cons (m.copies_success hP _ hfits) .nil
  exact Protocol.reads_writeStruct hP _ (by simp) hcopies r

/-! ### A call -/

/-- What the handler sends back fits. -/
def Ended.Fits (P : Protocol β Text) (m : Method) : Ended m.Ret → Prop
  | .returned a => m.RetFits P a
  | .threw what => P.Fits what
  | .noReturn => True

/-- How a call ends for the one who calls. -/
def Ended.toResult {α : Type} : Ended α → RpcResult α
  | .returned a => .reply a
  | .threw _ => .exception
  | .noReturn => .noReturn

/-- The processor reads the arguments of a call and leaves what follows them. -/
theorem reads_process (hP : P.Lawful) (m : Method) (seqid : Int32) (args : m.Args) (s : σ) :
    Reads (process P iface m seqid s) (m.writeArgs P args ++ P.writeMessageEnd)
      (answer P m seqid (iface m args s).1, (iface m args s).2) :=
  (m.reads_args hP args).bind (hP.messageEnd.map fun _ =>
    (answer P m seqid (iface m args s).1, (iface m args s).2))

variable {iface} in
/-- **A call on the wire**: the server reads exactly the message, and sends back what the handler
has ended with. -/
theorem Server.reads_process (server : Server P iface) (hP : P.Lawful) (m : Method)
    (hname : P.Fits m.name) (args : m.Args) (s : σ) :
    Reads (server.process s) (send P m args)
      (answer P m 0 (iface m args s).1, (iface m args s).2) := by
  intro rest
  have hdispatch : dispatchCall P iface m.name 0 s = Slave.process P iface m 0 s := by
    unfold dispatchCall
    rw [m.find_name]
  have hread := Slave.reads_process iface hP m 0 args s rest
  unfold send
  rw [List.append_assoc, List.append_assoc, server.process_call m.name 0 s hname, hdispatch,
    ← List.append_assoc]
  exact hread

/-- The result is taken from its struct. -/
theorem reads_recvResult (hP : P.Lawful) (m : Method) (a : m.Ret) (hfits : m.RetFits P a)
    (ret : m.Ret) : Reads (recvResult P m ret)
      (m.writeResult P { success := a, isset := true } ++ P.writeMessageEnd) (.ok a) := by
  refine (m.reads_result hP a hfits { success := ret }).bind ?_
  exact hP.messageEnd.map fun _ => (.ok a : Except (ApplicationException Text) m.Ret)

/-- A reply of the method is read, whatever its number. -/
theorem reads_reply (hP : P.Lawful) (m : Method) (hname : P.Fits m.name) (seqid : Int32)
    (a : m.Ret) (hfits : m.RetFits P a) (ret : m.Ret) :
    Reads (recv P m ret) (replyMessage P m seqid { success := a, isset := true }) (.ok a) := by
  unfold replyMessage recv
  rw [List.append_assoc]
  refine (hP.messageBegin m.name .reply seqid hname).bind ?_
  show Reads (if TMessageType.reply = .exception then _ else recvChecks P m ret m.name .reply) _ _
  rw [if_neg (by decide)]
  unfold recvChecks
  rw [if_neg (fun h => h rfl), if_neg (fun h => h rfl)]
  exact reads_recvResult hP m a hfits ret

/-- An exception is thrown on. -/
theorem reads_thrown (hP : P.Lawful) (m : Method) {fname : Text} (hname : P.Fits fname)
    (seqid : Int32) (x : ApplicationException Text) (hfits : P.Fits x.message) (ret : m.Ret) :
    Reads (recv P m ret) (exceptionMessage P fname seqid x) (.error x) := by
  unfold exceptionMessage recv
  rw [List.append_assoc]
  refine (hP.messageBegin fname .exception seqid hname).bind ?_
  show Reads (if TMessageType.exception = .exception then _ else _) _ _
  rw [if_pos rfl]
  exact (hP.exception x hfits).bind (hP.messageEnd.map fun _ =>
    (.error x : Except (ApplicationException Text) m.Ret))

/-- The answer to a call gives the client what the handler ended with. -/
theorem received_answer (hP : P.Lawful) (m : Method) (hname : P.Fits m.name) (seqid : Int32)
    {e : Ended m.Ret} (hfits : e.Fits P m) {out : List β} (hout : answer P m seqid e = some out) :
    received P m out = e.toResult := by
  unfold received
  cases e with
  | returned a =>
      have hread := reads_reply hP m hname seqid a hfits m.noRet []
      rw [List.append_nil] at hread
      rw [answer, Option.some.injEq] at hout
      rw [← hout, hread]
      rfl
  | threw what =>
      have hread := reads_thrown hP m hname seqid ⟨.unknown, what⟩ hfits m.noRet []
      rw [List.append_nil] at hread
      rw [answer, Option.some.injEq] at hout
      rw [← hout, hread]
      rfl
  | noReturn => exact absurd hout (by simp [answer])

/-- **A call over the wire is the call of the handler**: the caller gets what the handler returns,
an exception if it throws one and nothing if it does not come back, and the handler is called once,
with the arguments that were sent. -/
theorem Server.call_eq (server : Server P iface) (hP : P.Lawful) (m : Method)
    (hname : P.Fits m.name) (args : m.Args) (s : σ) (hfits : (iface m args s).1.Fits P m) :
    server.call m args s = ((iface m args s).1.toResult, (iface m args s).2) := by
  have hserve := server.reads_process hP m hname args s []
  rw [List.append_nil] at hserve
  unfold Server.call
  rw [hserve]
  cases hout : answer P m 0 (iface m args s).1 with
  | none =>
      cases hended : (iface m args s).1 with
      | noReturn => rfl
      | _ =>
          rw [hended] at hout
          exact absurd hout (by simp [answer])
  | some out =>
      show (received P m out, (iface m args s).2) = _
      rw [received_answer hP m hname 0 hfits hout]

/-! ### The messages of one connection -/

variable (P)

/-- A message to a server: a call of a method, or a call of a method that it does not have, with
any struct of arguments. -/
inductive Request (β : Type) where
  | known (m : Method) (args : m.Args)
  | unknown (fname : Text) (seqid : Int32) (name : Text) (es : List (Entry β Text))

namespace Request

def encode : Request β → List β
  | .known m args => send P m args
  | .unknown fname seqid name es =>
      P.writeMessageBegin fname .call seqid ++ P.writeEntries name es ++ P.writeMessageEnd

/-- The names can be written, the unknown one is not that of a method, and its arguments are values
that can be skipped. -/
def WellFormed : Request β → Prop
  | .known m _ => P.Fits m.name
  | .unknown fname _ _ es => P.Fits fname ∧ (∀ m : Method, fname ≠ m.name) ∧
      ∀ e ∈ es, e.type ≠ .stop ∧ Reads (P.skip e.type) e.payload ()

/-- What a server sends back, and what becomes of its state. -/
def answered : Request β → σ → Option (List β) × σ
  | .known m args, s => (answer P m 0 (iface m args s).1, (iface m args s).2)
  | .unknown fname seqid _ _, s =>
      (some (exceptionMessage P fname seqid (invalidMethod fname)), s)

end Request

/-- The answers to some messages, up to a call that does not come back. -/
def answers : List (Request β) → σ → List β × σ
  | [], s => ([], s)
  | r :: rs, s =>
      match r.answered P iface s with
      | (none, s') => ([], s')
      | (some out, s') => (out ++ (answers rs s').1, (answers rs s').2)

variable {P}

theorem writeEntries_ne_nil (hP : P.Lawful) (name : Text) (es : List (Entry β Text)) :
    P.writeEntries name es ≠ [] := by
  obtain ⟨fid, hstop⟩ := hP.fieldStop
  have htakes := hP.fieldBegin_takes _ _ _ (hstop [])
  rw [List.append_nil] at htakes
  intro hnil
  have hlength := congrArg List.length hnil
  unfold Protocol.writeEntries at hlength
  simp only [List.length_append, List.length_nil] at hlength htakes
  omega

namespace Request

variable {r : Request β} {rs : List (Request β)}

theorem encode_ne_nil (hP : P.Lawful) (r : Request β) : r.encode P ≠ [] := by
  cases r with
  | known m args =>
      intro hnil
      unfold encode send at hnil
      rw [List.append_eq_nil_iff, List.append_eq_nil_iff] at hnil
      exact writeEntries_ne_nil hP _ _ hnil.1.2
  | unknown fname seqid name es =>
      intro hnil
      unfold encode at hnil
      rw [List.append_eq_nil_iff, List.append_eq_nil_iff] at hnil
      exact writeEntries_ne_nil hP _ _ hnil.1.2

/-- A message is answered, and what follows it is left. -/
theorem reads_answered (server : Server P iface) (hP : P.Lawful) (h : r.WellFormed P) (s : σ) :
    Reads (server.process s) (r.encode P) (r.answered P iface s) := by
  cases r with
  | known m args => exact server.reads_process hP m h args s
  | unknown fname seqid name es =>
      obtain ⟨hname, hunknown, hes⟩ := h
      have hfind : (Method.processMap.find? fun m => m.name = fname) = none := by
        rw [List.find?_eq_none]
        intro m _
        simpa using fun heq => hunknown m heq.symm
      have hskip : Reads (dispatchCall P iface fname seqid s)
          (P.writeEntries name es ++ P.writeMessageEnd)
          (some (exceptionMessage P fname seqid (invalidMethod fname)), s) := by
        unfold dispatchCall
        rw [hfind]
        exact ((hP.skip_struct name es hes).bind hP.messageEnd).map fun _ =>
          (some (exceptionMessage P fname seqid (invalidMethod fname)), s)
      intro rest
      rw [encode, List.append_assoc, List.append_assoc, server.process_call fname seqid s hname,
        ← List.append_assoc]
      exact hskip rest

end Request

/-- **A connection in step**: the messages of a connection are answered one by one in their order;
a call of a method that is not there is answered with an exception, its arguments are passed over,
and the state of the handler is as if it had not come. -/
theorem Server.serveAll_requests (server : Server P iface) (hP : P.Lawful)
    {rs : List (Request β)} (hrs : ∀ r ∈ rs, r.WellFormed P) (s : σ) {fuel : ℕ}
    (hfuel : rs.length < fuel) :
    server.serveAll fuel s (rs.flatMap (Request.encode P)) = some (answers P iface rs s) := by
  induction rs generalizing s fuel with
  | nil =>
      obtain ⟨n, rfl⟩ : ∃ n, fuel = n + 1 := ⟨fuel - 1, by omega⟩
      exact server.serveAll_end n s
  | cons r rs ih =>
      obtain ⟨n, rfl⟩ : ∃ n, fuel = n + 1 := ⟨fuel - 1, by omega⟩
      rw [List.length_cons] at hfuel
      have hread := Request.reads_answered iface server hP (hrs r List.mem_cons_self) s
        (rs.flatMap (Request.encode P))
      have hn : rs.length < n := by omega
      have hrest := ih (fun r' hr' => hrs r' (List.mem_cons_of_mem r hr'))
        (r.answered P iface s).2 hn
      obtain ⟨b, bs, hbytes⟩ := List.exists_cons_of_ne_nil (r.encode_ne_nil hP)
      rw [List.flatMap_cons, hbytes, List.cons_append]
      rw [hbytes, List.cons_append] at hread
      unfold answers
      cases hout : r.answered P iface s with
      | mk out s' =>
          rw [hout] at hread hrest
          cases out with
          | none => exact server.serveAll_noReturn n s b _ s' _ hread
          | some out =>
              rw [server.serveAll_answered n s b _ out s' _ hread, hrest]
              rfl

/-! ### Calls one after the other -/

/-- What a client gets when it sends several calls over one connection and then takes the
answers. -/
def recvAll (P : Protocol β Text) : (ms : List Method) →
    Reader β (List (Σ m : Method, Except (ApplicationException Text) m.Ret))
  | [] => return []
  | m :: ms => do
      let r ← recv P m m.noRet
      let rs ← recvAll P ms
      return ⟨m, r⟩ :: rs

/-- What the call has ended with, as the client sees it. -/
def Ended.toExcept {α : Type} : Ended α → Option (Except (ApplicationException Text) α)
  | .returned a => some (.ok a)
  | .threw what => some (.error ⟨.unknown, what⟩)
  | .noReturn => none

/-- The calls of the handler one after the other: what each has ended with, and the state behind
them, if all of them come back. -/
def callAll : (calls : List (Σ m : Method, m.Args)) → σ →
    Option (List (Σ m : Method, Except (ApplicationException Text) m.Ret) × σ)
  | [], s => some ([], s)
  | c :: cs, s => do
      let r ← (iface c.1 c.2 s).1.toExcept
      let (rs, s') ← callAll cs (iface c.1 c.2 s).2
      return (⟨c.1, r⟩ :: rs, s')

/-- What the handler sends back in these calls fits. -/
def FitsAll (P : Protocol β Text) : (calls : List (Σ m : Method, m.Args)) → σ → Prop
  | [], _ => True
  | c :: cs, s => (iface c.1 c.2 s).1.Fits P c.1 ∧ FitsAll P cs (iface c.1 c.2 s).2

/-- The answer to a call that comes back is read as what it has ended with. -/
theorem reads_answer (hP : P.Lawful) (m : Method) (hname : P.Fits m.name) (seqid : Int32)
    {e : Ended m.Ret} (hfits : e.Fits P m) {r : Except (ApplicationException Text) m.Ret}
    (hr : e.toExcept = some r) :
    ∃ out, answer P m seqid e = some out ∧ Reads (recv P m m.noRet) out r := by
  cases e with
  | returned a =>
      rw [Ended.toExcept, Option.some.injEq] at hr
      rw [← hr]
      exact ⟨_, rfl, reads_reply hP m hname seqid a hfits m.noRet⟩
  | threw what =>
      rw [Ended.toExcept, Option.some.injEq] at hr
      rw [← hr]
      exact ⟨_, rfl, reads_thrown hP m hname seqid ⟨.unknown, what⟩ hfits m.noRet⟩
  | noReturn => exact absurd hr (by simp [Ended.toExcept])

theorem recvAll_answers (hP : P.Lawful) {calls : List (Σ m : Method, m.Args)}
    (hnames : ∀ c ∈ calls, P.Fits c.1.name) {s s' : σ}
    {rs : List (Σ m : Method, Except (ApplicationException Text) m.Ret)}
    (hfits : FitsAll iface P calls s) (hcalls : callAll iface calls s = some (rs, s')) :
    Reads (recvAll P (calls.map Sigma.fst))
      (answers P iface (calls.map fun c => Request.known c.1 c.2) s).1 rs ∧
    (answers P iface (calls.map fun c => Request.known c.1 c.2) s).2 = s' := by
  induction calls generalizing s rs with
  | nil =>
      rw [callAll, Option.some.injEq, Prod.mk.injEq] at hcalls
      rw [← hcalls.1, ← hcalls.2]
      exact ⟨Reads.ret [], rfl⟩
  | cons c cs ih =>
      obtain ⟨hfit, hfits⟩ := hfits
      rw [callAll] at hcalls
      cases hr : (iface c.1 c.2 s).1.toExcept with
      | none =>
          rw [hr] at hcalls
          exact absurd hcalls (by simp)
      | some r =>
          cases hrest : callAll iface cs (iface c.1 c.2 s).2 with
          | none =>
              rw [hr, hrest] at hcalls
              exact absurd hcalls (by simp)
          | some p =>
              rw [hr, hrest] at hcalls
              simp only [Option.bind_eq_bind, Option.bind_some, Option.pure_def,
                Option.some.injEq, Prod.mk.injEq] at hcalls
              obtain ⟨out, hout, hread⟩ := reads_answer hP c.1 (hnames c List.mem_cons_self) 0
                hfit hr
              have hpair : callAll iface cs (iface c.1 c.2 s).2 = some (p.1, s') := by
                rw [hrest, ← hcalls.2]
              have hih := ih (fun c' hc' => hnames c' (List.mem_cons_of_mem c hc')) hfits hpair
              rw [← hcalls.1, List.map_cons, List.map_cons, answers, Request.answered, hout]
              refine ⟨hread.bind ?_, hih.2⟩
              exact hih.1.map fun rs => ⟨c.1, r⟩ :: rs

/-- **The calls of a connection**: when all calls come back, the client gets the results of the
calls of the handler, each its own, and nothing is left on the connection. -/
theorem calls_in_order (server : Server P iface) (hP : P.Lawful) {calls : List (Σ m : Method, m.Args)}
    (hnames : ∀ c ∈ calls, P.Fits c.1.name) {s s' : σ}
    {rs : List (Σ m : Method, Except (ApplicationException Text) m.Ret)}
    (hfits : FitsAll iface P calls s) (hcalls : callAll iface calls s = some (rs, s')) {fuel : ℕ}
    (hfuel : calls.length < fuel) :
    ∃ out, server.serveAll fuel s (calls.flatMap fun c => send P c.1 c.2) = some (out, s') ∧
      (recvAll P (calls.map Sigma.fst)).run out = some (rs, []) := by
  have hwell : ∀ r ∈ calls.map (fun c => (Request.known c.1 c.2 : Request β)), r.WellFormed P := by
    intro r hr
    obtain ⟨c, hc, rfl⟩ := List.mem_map.mp hr
    exact hnames c hc
  have hlength : (calls.map fun c => (Request.known c.1 c.2 : Request β)).length < fuel := by
    rwa [List.length_map]
  have hserve := server.serveAll_requests iface hP hwell s hlength
  obtain ⟨hread, hstate⟩ := recvAll_answers iface hP hnames hfits hcalls
  have hrun := hread []
  rw [List.append_nil] at hrun
  refine ⟨_, ?_, hrun⟩
  rw [List.flatMap_map] at hserve
  rw [← hstate]
  exact hserve

/-! ### Methods that are not there -/

def Request.isKnown : Request β → Bool
  | .known _ _ => true
  | .unknown _ _ _ _ => false

/-- The handler is left as if the unknown calls had not come. -/
theorem answers_known (rs : List (Request β)) (s : σ) :
    (answers P iface rs s).2 = (answers P iface (rs.filter Request.isKnown) s).2 := by
  induction rs generalizing s with
  | nil => rfl
  | cons r rs ih =>
      cases r with
      | unknown fname seqid name es =>
          rw [answers, Request.answered, List.filter_cons_of_neg (by simp [Request.isKnown])]
          exact ih s
      | known m args =>
          rw [List.filter_cons_of_pos rfl, answers, answers, Request.answered]
          cases answer P m 0 (iface m args s).1 with
          | none => rfl
          | some out => exact ih (iface m args s).2

/-- **Unknown methods**: every message of a connection gets its answer, also where some of them call
methods that are not there; these get an exception with their name, and the others change the
handler as they do alone. -/
theorem unknown_passed (server : Server P iface) (hP : P.Lawful) {rs : List (Request β)}
    (hrs : ∀ r ∈ rs, r.WellFormed P) (s : σ) {fuel : ℕ} (hfuel : rs.length < fuel) :
    server.serveAll fuel s (rs.flatMap (Request.encode P)) = some (answers P iface rs s) ∧
    server.serveAll fuel s ((rs.filter Request.isKnown).flatMap (Request.encode P)) =
      some ((answers P iface (rs.filter Request.isKnown) s).1, (answers P iface rs s).2) ∧
    ∀ fname, P.Fits fname → P.Fits (invalidMethod fname).message → ∀ seqid m ret,
      (recv P m ret).run (exceptionMessage P fname seqid (invalidMethod fname)) =
        some (.error (invalidMethod fname), []) := by
  refine ⟨server.serveAll_requests iface hP hrs s hfuel, ?_, ?_⟩
  · have hsub : ∀ r ∈ rs.filter Request.isKnown, r.WellFormed P := fun r hr =>
      hrs r (List.mem_of_mem_filter hr)
    have hlength := List.length_filter_le Request.isKnown rs
    rw [server.serveAll_requests iface hP hsub s (by omega), answers_known]
  · intro fname hname hmessage seqid m ret
    have hread := reads_thrown hP m hname seqid (invalidMethod fname) hmessage ret []
    rw [List.append_nil] at hread
    exact hread

/-! ### Messages that are not the reply -/

theorem reads_skipMessage (hP : P.Lawful) (name : Text) {es : List (Entry β Text)}
    (hes : ∀ e ∈ es, e.type ≠ .stop ∧ Reads (P.skip e.type) e.payload ()) :
    Reads (skipMessage P) (P.writeEntries name es ++ P.writeMessageEnd) () :=
  (hP.skip_struct name es hes).bind hP.messageEnd

/-- A result can be skipped. -/
theorem Method.skips_success (hP : P.Lawful) (m : Method) (r : Result m.Ret)
    (hfits : m.RetFits P r.success) : ((m.successField P).entry r).type ≠ .stop ∧
      Reads (P.skip ((m.successField P).entry r).type) ((m.successField P).entry r).payload () := by
  have hstor : ∀ v : StorRetVal, P.Fits v.msg → Reads (P.skip .struct) (v.write P) () := by
    intro v hv
    refine hP.skip_struct "StorRetVal".toList _ ?_
    intro e he
    obtain ⟨f, hf, rfl⟩ := List.mem_map.mp he
    simp only [StorRetVal.fields, List.map_cons, List.map_nil, List.mem_cons, List.not_mem_nil,
      or_false] at hf
    obtain rfl | rfl := hf
    · exact ⟨TType.noConfusion, hP.skip_string v.msg hv⟩
    · exact ⟨TType.noConfusion, hP.skip_i64 v.size⟩
  cases m with
  | activeStoreTransfer => exact ⟨TType.noConfusion, hstor r.success hfits⟩
  | pasvStoreTransfer => exact ⟨TType.noConfusion, hstor r.success hfits⟩
  | _ => exact ⟨TType.noConfusion, hP.skip_string r.success hfits⟩

/-- **A message that is not the reply**: a client that waits for the reply of one method passes over
a message of another type or of another method, and over a second struct if both are wrong; then it
takes the next struct for its result, without the header of a message, and leaves what is behind
it. -/
theorem recv_message (hP : P.Lawful) (m : Method) (ret : m.Ret) {fname : Text}
    (hname : P.Fits fname) (mtype : TMessageType) (hmtype : mtype ≠ .exception)
    (hother : mtype ≠ .reply ∨ fname ≠ m.name) (seqid : Int32) (name name' : Text)
    (es es' : List (Entry β Text))
    (hes : ∀ e ∈ es, e.type ≠ .stop ∧ Reads (P.skip e.type) e.payload ())
    (hes' : ∀ e ∈ es', e.type ≠ .stop ∧ Reads (P.skip e.type) e.payload ())
    (a : m.Ret) (hfits : m.RetFits P a) :
    Reads (recv P m ret)
      (P.writeMessageBegin fname mtype seqid ++ (P.writeEntries name es ++ P.writeMessageEnd) ++
        (if mtype ≠ .reply ∧ fname ≠ m.name then P.writeEntries name' es' ++ P.writeMessageEnd
          else []) ++
        (m.writeResult P { success := a, isset := true } ++ P.writeMessageEnd))
      (.ok a) := by
  have hskip := reads_skipMessage hP name hes
  have hskip' := reads_skipMessage hP name' hes'
  have hresult := reads_recvResult hP m a hfits ret
  have hchecks : Reads (recvChecks P m ret fname mtype)
      ((P.writeEntries name es ++ P.writeMessageEnd) ++
        ((if mtype ≠ .reply ∧ fname ≠ m.name then P.writeEntries name' es' ++ P.writeMessageEnd
          else []) ++
        (m.writeResult P { success := a, isset := true } ++ P.writeMessageEnd))) (.ok a) := by
    unfold recvChecks
    by_cases htype : mtype = .reply
    · -- the reply of another method
      have hfname : fname ≠ m.name := hother.resolve_left fun h => h htype
      rw [if_neg (fun h => h htype), if_pos hfname, if_neg (fun h => h.1 htype), List.nil_append]
      exact hskip.bind hresult
    · by_cases hfname : fname = m.name
      · rw [if_pos htype, if_neg (fun h => h hfname), if_neg (fun h => h.2 hfname),
          List.nil_append]
        exact hskip.bind hresult
      · rw [if_pos htype, if_pos hfname, if_pos ⟨htype, hfname⟩]
        exact hskip.bind (hskip'.bind hresult)
  have hread := (hP.messageBegin fname mtype seqid hname).bind (f := fun h =>
    if h.2.1 = .exception then (do
      let x ← P.readException
      P.readMessageEnd
      return .error x)
    else recvChecks P m ret h.1 h.2.1) (by
      show Reads (if mtype = .exception then _ else _) _ _
      rw [if_neg hmtype]
      exact hchecks)
  rw [← List.append_assoc, ← List.append_assoc] at hread
  exact hread

end Fields

/-! ### In the binary protocol -/

open BinaryProtocol

theorem fits_name (m : Method) : binary.Fits m.name := by
  cases m <;> exact fits_of_all (by decide) (by decide)

/-- A server that takes the header of a message and dispatches it if it is a call. -/
def serve {σ : Type} (iface : Iface σ) (s : σ) : Reader UInt8 (Option (List UInt8) × σ) := do
  let (fname, mtype, seqid) ← binary.readMessageBegin
  if mtype = .call ∨ mtype = .oneway then dispatchCall binary iface fname seqid s
  else fun _ => none

/-- Its loop over a connection. -/
def serveAll {σ : Type} (iface : Iface σ) : (fuel : ℕ) → σ → List UInt8 → Option (List UInt8 × σ)
  | 0, _, _ => none
  | _ + 1, s, [] => some ([], s)
  | fuel + 1, s, b :: bs =>
      match (serve iface s).run (b :: bs) with
      | none => some ([], s)
      | some ((none, s'), _) => some ([], s')
      | some ((some out, s'), rest) => (serveAll iface fuel s' rest).map fun p => (out ++ p.1, p.2)

/-- A server of the binary protocol. -/
def binaryServer {σ : Type} (iface : Iface σ) : Server binary iface where
  process := serve iface
  serveAll := serveAll iface
  process_call := by
    intro fname seqid s hname rest
    unfold serve
    rw [StateT.run_bind, binary_lawful.messageBegin fname .call seqid hname]
    rfl
  serveAll_end _ _ := rfl
  serveAll_answered := by
    intro fuel s b bs out s' rest h
    rw [serveAll, h]
  serveAll_noReturn := by
    intro fuel s b bs s' rest h
    rw [serveAll, h]

/-- A handler that counts its calls. -/
def countCalls : Iface ℕ := fun m _ n => (.returned m.noRet, n + 1)

/-- Two calls. -/
def openThenStore : List (Σ m : Method, m.Args) :=
  [⟨.openPasvDataConnection, ⟨{ trans_id := 7 }⟩⟩, ⟨.pasvStoreTransfer, { p := {}, iflags := 1 }⟩]

theorem calls_in_order_two : ∃ out,
    (binaryServer countCalls).serveAll 3 0 (openThenStore.flatMap fun c => send binary c.1 c.2) =
      some (out, 2) ∧
    (recvAll binary (openThenStore.map Sigma.fst)).run out =
      some ([⟨.openPasvDataConnection, .ok []⟩, ⟨.pasvStoreTransfer, .ok {}⟩], []) := by
  have hempty : binary.Fits [] := fits_of_all (by decide) rfl
  have hfits : FitsAll countCalls binary openThenStore 0 := ⟨hempty, hempty, trivial⟩
  exact calls_in_order countCalls (binaryServer countCalls) binary_lawful (fun c _ => fits_name c.1)
    hfits rfl (by decide)

/-- A call of a method that is not there, and one of a method that is. -/
def pingThenOpen : List (Request UInt8) :=
  [.unknown "Ping".toList 3 [] [], .known .openPasvDataConnection ⟨{}⟩]

theorem unknown_passed_ping : ∃ out,
    (binaryServer countCalls).serveAll 3 0 (pingThenOpen.flatMap (Request.encode binary)) =
      some (out, 1) := by
  have hwell : ∀ r ∈ pingThenOpen, r.WellFormed binary := by
    intro r hr
    simp only [pingThenOpen, List.mem_cons, List.not_mem_nil, or_false] at hr
    obtain rfl | rfl := hr
    · refine ⟨fits_of_all (by decide) (by decide), ?_, by simp⟩
      intro m
      cases m <;> decide
    · exact fits_name .openPasvDataConnection
  have hlength : pingThenOpen.length < 3 := by decide
  exact ⟨_, (unknown_passed countCalls (binaryServer countCalls) binary_lawful hwell 0 hlength).1⟩

/-- The reply to an upload, and the result of another method without a header behind it. -/
theorem recv_message_other : (recv binary .openPasvDataConnection []).run
    (replyMessage binary .pasvStoreTransfer 0
        { success := { msg := "226 Transfer complete".toList, size := 7 }, isset := true } ++
      (Method.writeResult binary .openPasvDataConnection
        { success := "150 Opening data channel".toList, isset := true } ++
          binary.writeMessageEnd)) =
      some (.ok "150 Opening data channel".toList, []) := by
  have hother : binary.Fits "226 Transfer complete".toList := fits_of_all (by decide) (by decide)
  have hown : binary.Fits "150 Opening data channel".toList := fits_of_all (by decide) (by decide)
  have hskips : ∀ e ∈ [(Method.successField binary .pasvStoreTransfer).entry
      { success := { msg := "226 Transfer complete".toList, size := 7 }, isset := true }],
      e.type ≠ .stop ∧ Reads (binary.skip e.type) e.payload () := by
    intro e he
    rw [List.mem_singleton] at he
    subst he
    exact Method.skips_success binary_lawful .pasvStoreTransfer _ hother
  have hread := recv_message binary_lawful .openPasvDataConnection []
    (fits_name .pasvStoreTransfer) .reply (by decide) (.inr (by decide)) 0
    ("slave_services_".toList ++ Method.name .pasvStoreTransfer ++ "_result".toList) [] _ [] hskips
    (by simp) "150 Opening data channel".toList hown []
  rw [if_neg (fun h => h.1 rfl), List.append_nil, List.append_nil] at hread
  unfold replyMessage
  rw [List.append_assoc (binary.writeMessageBegin _ _ _)]
  exact hread

end ClusterFtpd.Slave
