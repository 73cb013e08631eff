import ClusterFtpd.Effects
import ClusterFtpd.Login

/-!
# What a line does to the data connection

The calls to the slaves and to the threads are noted, with their answers.  `DataTurn` lists what a
line can do: which calls it makes and what it leaves of the fields that decide about the next
transfer.  `dataTurn_of_run` reads this off `dispatch`, command by command; the statements about
whole sessions follow from it.
-/

namespace ClusterFtpd

open Interaction MachineInt

/-- A call to the system, with its answer. -/
structure Call where
  op : SysOp
  res : op.Res

/-- The calls to the slaves and to the threads are noted. -/
def noteSys (o : SysOp) (r : o.Res) : Option Call := if o.part.isSome then some ⟨o, r⟩ else none

/-- The notes of a command. -/
def noteCommand : (o : CommandOp) → o.Res → Option Call
  | .sys o, r => noteSys o r
  | .redis _, _ => none
  | .client, _ => none
  | .modify _, _ => none
  | .sendReply _, _ => none

/-- The notes of a session. -/
def noteShell : (o : ShellOp) → o.Res → Option Call
  | .command o, r => noteCommand o r
  | .login _, _ => none

/-- The noted calls of a command. -/
def calls {α : Type} (env : Env) (p : CommandProg α) (w : World) : List Call :=
  trace (serveCommand env) noteCommand p w

/-- The noted calls of a line. -/
def lineCalls {α : Type} (env : Env) (p : ShellProg α) (w : World) : List Call :=
  trace (serveShell env) noteShell p w

variable {α β : Type} {env : Env} {w w' : World} {ps : List Part}

/-- An operation that touches neither slaves nor threads is not noted. -/
theorem noteCommand_none {o : CommandOp} (r : o.Res) (ho : Within ps o)
    (hps : ∀ x ∈ ps, x ∉ [Part.create, .cancel, .init, .opening, .transferring]) :
    noteCommand o r = none := by
  cases o with
  | sys o =>
      have hpart : ∀ x, o.part = some x → x ∉ [Part.create, .cancel, .init, .opening, .transferring] :=
        fun x hx => hps x (ho x hx)
      have hnone : o.part = none := by
        cases o with
        | pthread_create t => exact absurd (hpart _ rfl) (by decide)
        | pthread_cancel => exact absurd (hpart _ rfl) (by decide)
        | initPasvDataConnection => exact absurd (hpart _ rfl) (by decide)
        | openPasvDataConnection => exact absurd (hpart _ rfl) (by decide)
        | activeStoreTransfer => exact absurd (hpart _ rfl) (by decide)
        | pasvStoreTransfer => exact absurd (hpart _ rfl) (by decide)
        | activeRetrieveTransfer => exact absurd (hpart _ rfl) (by decide)
        | pasvRetrieveTransfer => exact absurd (hpart _ rfl) (by decide)
        | _ => rfl
      show noteSys o r = none
      rw [noteSys, hnone]
      rfl
  | _ => rfl

theorem calls_nil {p : CommandProg α} (hp : Every (Within ps) p)
    (hps : ∀ x ∈ ps, x ∉ [Part.create, .cancel, .init, .opening, .transferring]) :
    calls env p w = [] :=
  hp.trace_eq_nil (serveCommand env) noteCommand (fun _ r ho => noteCommand_none r ho hps) w

/-! ### Runs with their calls -/

/-- The command ends with `a` and `w'` and makes the calls `cs`. -/
structure Does (env : Env) (p : CommandProg α) (w : World) (a : α) (w' : World)
    (cs : List Call) : Prop where
  ends : run (serveCommand env) p w = .done a w'
  makes : calls env p w = cs

variable {p : CommandProg α} {f : α → CommandProg β} {a : α} {b : β} {cs : List Call}

/-- A sequence makes the calls of both parts. -/
theorem Does.of_bind (h : Does env (p >>= f) w b w' cs) : ∃ a w₁ cs₁ cs₂,
    Does env p w a w₁ cs₁ ∧ Does env (f a) w₁ b w' cs₂ ∧ cs = cs₁ ++ cs₂ := by
  obtain ⟨hrun, hcalls⟩ := h
  obtain ⟨a, w₁, hp, hf⟩ := (run_bind_done _).mp hrun
  have htrace := trace_bind (serveCommand env) noteCommand p f w
  rw [hp] at htrace
  exact ⟨a, w₁, _, _, ⟨hp, rfl⟩, ⟨hf, rfl⟩, hcalls.symm.trans htrace⟩

/-- A sequence of two parts. -/
theorem Does.bind {w₁ : World} {cs₁ cs₂ : List Call} (hp : Does env p w a w₁ cs₁)
    (hf : Does env (f a) w₁ b w' cs₂) : Does env (p >>= f) w b w' (cs₁ ++ cs₂) := by
  refine ⟨(run_bind_done _).mpr ⟨a, w₁, hp.ends, hf.ends⟩, ?_⟩
  have htrace := trace_bind (serveCommand env) noteCommand p f w
  rw [hp.ends] at htrace
  rw [← hp.makes, ← hf.makes]
  exact htrace

theorem Does.of_ret {a₀ : α} (h : Does env (.ret a₀) w a w' cs) : a = a₀ ∧ w' = w ∧ cs = [] := by
  obtain ⟨hrun, hcalls⟩ := h
  rw [run_ret, Outcome.done.injEq] at hrun
  exact ⟨hrun.1.symm, hrun.2.symm, hcalls.symm⟩

theorem Does.of_stop {why : Stop} (h : Does env (.stop why : CommandProg α) w a w' cs) : False := by
  have hrun := h.ends
  exact absurd hrun (by simp)

theorem Does.of_client {f : Client → CommandProg β} (h : Does env (client >>= f) w b w' cs) :
    Does env (f w.client) w b w' cs := ⟨h.ends, h.makes⟩

theorem Does.of_modify {g : CommandState → CommandState} {f : Unit → CommandProg β}
    (h : Does env (modify g >>= f) w b w' cs) : Does env (f ())
      { w with client := { w.client with toCommandState := g w.client.toCommandState } } b w' cs :=
  ⟨h.ends, h.makes⟩

theorem Does.of_sendReply {r : Reply} {f : Unit → CommandProg β}
    (h : Does env (sendReply r >>= f) w b w' cs) :
    Does env (f ()) { w with replies := w.replies ++ [r] } b w' cs := ⟨h.ends, h.makes⟩

/-- The last reply. -/
theorem Does.of_reply {r : Reply} {u : Unit} (h : Does env (sendReply r) w u w' cs) :
    w' = { w with replies := w.replies ++ [r] } ∧ cs = [] := by
  obtain ⟨hrun, hcalls⟩ := h
  rw [run_sendReply, Outcome.done.injEq] at hrun
  exact ⟨hrun.2.symm, hcalls.symm⟩

/-- A call that is not noted. -/
theorem Does.of_sys {o : SysOp} {f : o.Res → CommandProg β} (ho : o.part = none)
    (h : Does env (sys o >>= f) w b w' cs) :
    Does env (f (env w.clock o)) { w with clock := w.clock + 1 } b w' cs := by
  refine ⟨h.ends, ?_⟩
  rw [← h.makes]
  have hnote : noteCommand (.sys o) (env w.clock o) = none := by
    show noteSys o _ = none
    rw [noteSys, ho]
    rfl
  show _ = (noteCommand (.sys o) (env w.clock o)).toList ++ calls env (f (env w.clock o)) _
  rw [hnote]
  rfl

/-- A call that is noted. -/
theorem Does.of_call {o : SysOp} {f : o.Res → CommandProg β} (ho : o.part.isSome = true)
    (h : Does env (sys o >>= f) w b w' cs) : ∃ cs', cs = ⟨o, env w.clock o⟩ :: cs' ∧
      Does env (f (env w.clock o)) { w with clock := w.clock + 1 } b w' cs' := by
  refine ⟨calls env (f (env w.clock o)) { w with clock := w.clock + 1 }, ?_, h.ends, rfl⟩
  have hnote : noteCommand (.sys o) (env w.clock o) = some ⟨o, env w.clock o⟩ := by
    show noteSys o _ = _
    rw [noteSys, if_pos ho]
  rw [← h.makes]
  show (noteCommand (.sys o) (env w.clock o)).toList ++ calls env (f (env w.clock o)) _ = _
  rw [hnote]
  rfl

/-- A part of the client entry that the command does not touch. -/
theorem Does.same (hp : Every (Within ps) p) (h : Does env p w a w' cs) {x : Part} (hx : x ∉ ps) :
    x.Same w.client.toCommandState w'.client.toCommandState := by
  have hsame := run_same hp hx env w
  rw [h.ends] at hsame
  exact hsame

/-- The operation of a noted call. -/
theorem op_of_note {o : CommandOp} {r : o.Res} {c : Call} (h : noteCommand o r = some c) :
    o = .sys c.op := by
  cases o with
  | sys o =>
      have hnote : noteSys o r = some c := h
      rw [noteSys] at hnote
      split_ifs at hnote
      have hcall : (⟨o, r⟩ : Call) = c := Option.some.inj hnote
      rw [← hcall]
  | _ => exact absurd h (by simp [noteCommand])

/-- A program that makes no noted calls. -/
theorem Does.quiet (hp : Every (Within ps) p)
    (hps : ∀ x ∈ ps, x ∉ [.create, .cancel, .init, .opening, .transferring])
    (h : Does env p w a w' cs) : cs = [] := h.makes.symm.trans (calls_nil hp hps)

/-- The calls of a program belong to the parts it touches. -/
theorem Does.part (hp : Every (Within ps) p) (h : Does env p w a w' cs) {c : Call} (hc : c ∈ cs) :
    ∃ x ∈ ps, c.op.part = some x := by
  rw [← h.makes] at hc
  obtain ⟨o, r, ho, hnote⟩ := hp.mem_trace (serveCommand env) noteCommand hc
  have hop : o = .sys c.op := op_of_note hnote
  subst hop
  have hnoted : noteSys c.op r = some c := hnote
  rw [noteSys] at hnoted
  split_ifs at hnoted with hpart
  obtain ⟨x, hx⟩ := Option.isSome_iff_exists.mp hpart
  exact ⟨x, ho x hx, hx⟩

/-- The answer of a noted call is the system's. -/
theorem Does.answered (h : Does env p w a w' cs) {c : Call} (hc : c ∈ cs) :
    ∃ n, c.res = env n c.op := by
  rw [← h.makes] at hc
  obtain ⟨o, t, -, hnote⟩ :=
    ((every_true p).along (serveCommand env) (fun _ _ _ => trivial) w
      (B := fun _ _ => True)).mem_trace (serveCommand env) noteCommand hc
  have hop : o = .sys c.op := op_of_note hnote
  subst hop
  have hnoted : noteSys c.op (env t.clock c.op) = some c := hnote
  rw [noteSys] at hnoted
  split_ifs at hnoted
  have hcall : (⟨c.op, env t.clock c.op⟩ : Call) = c := Option.some.inj hnoted
  refine ⟨t.clock, ?_⟩
  rw [← hcall]

theorem Does.db (hp : Every (Within ps) p) (h : Does env p w a w' cs)
    (hd : Part.database ∉ ps) (hc : Part.counter ∉ ps) : w'.db = w.db := by
  have hdb := run_within_db hp hd hc env w
  rw [h.ends] at hdb
  exact hdb

/-- A program of Redis commands in a session. -/
theorem Does.of_redis {α : Type} {p : RedisProg α} {a : α}
    (h : Does env (redis p) w a w' cs) :
    run serveRedis p w.db = .done a w'.db ∧ w' = { w with db := w'.db } ∧ cs = [] := by
  have hrun := h.ends
  rw [run_redis] at hrun
  have hcs : cs = [] := by
    have htrace : ∀ (q : RedisProg α) (w : World),
        trace (serveCommand env) noteCommand (redis q) w = [] := by
      intro q
      induction q with
      | ret a => exact fun _ => rfl
      | stop why => exact fun _ => rfl
      | call o k ih => exact fun _ => ih _ _
      | poll o again k ih =>
          intro w
          show [] ++ (if again _ then [] else trace (serveCommand env) noteCommand (redis (k _)) _) = []
          split_ifs
          · rfl
          · exact ih _ _
    exact h.makes.symm.trans (htrace p w)
  cases hr : run serveRedis p w.db with
  | stopped why db => rw [hr] at hrun; exact absurd hrun (by simp)
  | done b db =>
      rw [hr, Outcome.mapState_done, Outcome.done.injEq] at hrun
      obtain ⟨rfl, rfl⟩ := hrun
      exact ⟨rfl, rfl, hcs⟩

/-! ### The fields that decide about the next transfer -/

/-- The fields of the client entry that decide about the next transfer. -/
structure TransferView where
  eStatus : Status
  eDataConnection : DataConnection
  nPRET_CMD : Option PretCmd
  llPRET_fid : ℤ
  llPRET_trans_id : ℤ
  SlaveInfo : SlaveInfo

def CommandState.view (c : CommandState) : TransferView where
  eStatus := c.eStatus
  eDataConnection := c.eDataConnection
  nPRET_CMD := c.nPRET_CMD
  llPRET_fid := c.llPRET_fid
  llPRET_trans_id := c.llPRET_trans_id
  SlaveInfo := c.SlaveInfo

/-- The view of a world. -/
def World.view (w : World) : TransferView := w.client.toCommandState.view

/-- The view after `ResetDataConnection`. -/
def TransferView.reset (v : TransferView) : TransferView :=
  { v with eStatus := .waiting, eDataConnection := .none }

theorem view_of_same (hp : Every (Within ps) p) (h : Does env p w a w' cs)
    (hps : ∀ x ∈ [Part.status, .connection, .pret, .slave], x ∉ ps) : w'.view = w.view := by
  have hstatus : _ = _ := h.same hp (hps .status (by simp))
  have hconn : _ = _ := h.same hp (hps .connection (by simp))
  have hpret : _ ∧ _ := h.same hp (hps .pret (by simp))
  have hslave : _ ∧ _ := h.same hp (hps .slave (by simp))
  simp only [World.view, CommandState.view, TransferView.mk.injEq]
  exact ⟨hstatus, hconn, hpret.1, hpret.2, hslave.1, hslave.2⟩

/-- Calls that cancel threads and nothing else. -/
def OnlyCancels (cs : List Call) : Prop := ∀ c ∈ cs, c.op = .pthread_cancel

theorem onlyCancels_nil : OnlyCancels [] := fun c hc => absurd hc (by simp)

/-- `ResetDataConnection` cancels the thread whose identifier is stored, if it is told to wait. -/
theorem reset_calls {bSyncWait : Bool} {u : Unit}
    (h : Does env (resetDataConnection bSyncWait) w u w' cs) :
    w'.view = w.view.reset ∧
      cs = if w.client.CurrentTransfer.TransferThreadID ∧ bSyncWait then [⟨.pthread_cancel, ()⟩]
        else [] := by
  have hclose : ∀ DataSock, Every (Within []) (closeData DataSock) :=
    fun DataSock => within_closeData DataSock
  have hcancel : ∀ b : Prop, [Decidable b] →
      Every (Within [.cancel]) (onlyIf b (sys .pthread_cancel)) :=
    fun b _ => within_onlyIf (within_sys (by simp [SysOp.part]))
  obtain ⟨u₁, w₁, cs₁, cs₂, h₁, h₂, rfl⟩ := h.of_client.of_bind
  obtain ⟨u₂, w₂, cs₃, cs₄, h₃, h₄, rfl⟩ := h₂.of_bind
  have hview₁ := view_of_same (hclose _) h₁ (by simp)
  have hview₂ := view_of_same (hcancel _) h₃ (by simp)
  have h₅ : w' = _ ∧ cs₄ = [] := ⟨(Outcome.done.inj h₄.ends).2.symm, h₄.makes.symm⟩
  obtain ⟨rfl, rfl⟩ := h₅
  rw [h₁.quiet (hclose _) (by simp), List.nil_append, List.append_nil]
  refine ⟨?_, ?_⟩
  · rw [← hview₁, ← hview₂]
    rfl
  · unfold onlyIf at h₃
    by_cases hset : w.client.CurrentTransfer.TransferThreadID = true ∧ bSyncWait = true
    · rw [if_pos hset] at h₃ ⊢
      exact h₃.makes.symm
    · rw [if_neg hset] at h₃ ⊢
      exact h₃.makes.symm

/-- `ResetDataConnection`. -/
theorem reset_does {bSyncWait : Bool} {u : Unit}
    (h : Does env (resetDataConnection bSyncWait) w u w' cs) :
    w'.view = w.view.reset ∧ OnlyCancels cs := by
  obtain ⟨hview, rfl⟩ := reset_calls h
  refine ⟨hview, fun c hc => ?_⟩
  split_ifs at hc
  · rw [List.mem_singleton] at hc
    rw [hc]
  · exact absurd hc (by simp)

/-- `pthread_create` runs the thread, or fails and resets the data connection. -/
theorem startTransfer_does {thread : TransferThread} {ok : Bool}
    (h : Does env (startTransfer thread) w ok w' cs) :
    (ok = true ∧ cs = [⟨.pthread_create thread, true⟩] ∧ w'.db = w.db ∧
        w'.client = { w.client with CurrentTransfer :=
          { w.client.CurrentTransfer with TransferThreadID := true } }) ∨
      (ok = false ∧ w'.view = w.view.reset ∧ ∃ cs', OnlyCancels cs' ∧
        cs = ⟨.pthread_create thread, false⟩ :: cs') := by
  have h₁ := h.of_client.of_modify
  obtain ⟨cs₁, rfl, h₂⟩ := h₁.of_call rfl
  cases hok : env w.clock (.pthread_create thread) with
  | true =>
      rw [hok, if_pos rfl] at h₂
      obtain ⟨rfl, rfl, rfl⟩ := h₂.of_ret
      exact .inl ⟨rfl, rfl, rfl, rfl⟩
  | false =>
      rw [hok, if_neg (by simp)] at h₂
      obtain ⟨u, w₁, cs₂, cs₃, hreset, hret, rfl⟩ := h₂.of_modify.of_bind
      obtain ⟨rfl, rfl, rfl⟩ := hret.of_ret
      obtain ⟨hview, honly⟩ := reset_does hreset
      refine .inr ⟨rfl, hview, cs₂, honly, by rw [List.append_nil]⟩

/-- The call that opens a passive connection on the slave, and the answer `r`. -/
def TransferView.opening (v : TransferView) (r : RpcResult Reply) : Call :=
  ⟨.openPasvDataConnection v.SlaveInfo { trans_id := v.llPRET_trans_id }, r⟩

/-- The calls in front of a transfer: one in passive mode, which the slave answers, else none. -/
def TransferView.Opens (v : TransferView) (cs : List Call) : Prop :=
  if v.eDataConnection = .pasv then ∃ r, cs = [v.opening (.reply r)] else cs = []

/-- The data connection on the slave: the call, and its answer, which is relayed. -/
inductive TransferView.Relays (v : TransferView) : List Call → List Reply → Prop where
  | direct : v.eDataConnection ≠ .pasv → v.Relays [] []
  | relayed (r : Reply) : v.eDataConnection = .pasv → v.Relays [v.opening (.reply r)] [r]

theorem TransferView.Relays.opens {v : TransferView} {os : List Reply} (h : v.Relays cs os) :
    v.Opens cs := by
  unfold TransferView.Opens
  cases h with
  | direct hconn => rw [if_neg hconn]
  | relayed r hconn =>
      rw [if_pos hconn]
      exact ⟨r, rfl⟩

/-- `OpenPasvDataConnection` is answered, or the command ends with an exception. -/
theorem openSlaveConnection_relays {opened : Bool}
    (h : Does env openSlaveConnection w opened w' cs) : w'.client = w.client ∧ w'.db = w.db ∧
      ((opened = true ∧ ∃ os, w.view.Relays cs os ∧ w'.replies = w.replies ++ os) ∨
        (opened = false ∧ w.client.eDataConnection = .pasv ∧ cs = [w.view.opening .exception] ∧
          w'.replies = w.replies ++ [.line 425 "Can't open data connection."])) := by
  have h₁ := h.of_client
  by_cases hpasv : w.client.eDataConnection = .pasv
  · rw [if_pos hpasv] at h₁
    obtain ⟨cs₁, hcs, h₂⟩ := h₁.of_call rfl
    obtain ⟨r, hr⟩ : ∃ r, env w.clock (.openPasvDataConnection w.client.SlaveInfo
        { trans_id := w.client.llPRET_trans_id }) = r := ⟨_, rfl⟩
    rw [hr] at h₂ hcs
    rw [hcs]
    cases r with
    | reply reply =>
        obtain ⟨hopened, hend, hnil⟩ := h₂.of_sendReply.of_ret
        rw [hend, hnil]
        exact ⟨rfl, rfl, .inl ⟨hopened, [reply], .relayed reply hpasv, rfl⟩⟩
    | exception =>
        obtain ⟨hopened, hend, hnil⟩ := h₂.of_sendReply.of_ret
        rw [hend, hnil]
        exact ⟨rfl, rfl, .inr ⟨hopened, hpasv, rfl, rfl⟩⟩
    | noReturn => exact h₂.of_stop.elim
  · rw [if_neg hpasv] at h₁
    obtain ⟨hopened, hend, hnil⟩ := h₁.of_ret
    rw [hend, hnil]
    exact ⟨rfl, rfl, .inl ⟨hopened, [], .direct hpasv, (List.append_nil _).symm⟩⟩

theorem openSlaveConnection_does {opened : Bool} (h : Does env openSlaveConnection w opened w' cs) :
    w'.client = w.client ∧ w'.db = w.db ∧ ((opened = true ∧ w.view.Opens cs) ∨
      (opened = false ∧ w.client.eDataConnection = .pasv ∧
        cs = [w.view.opening .exception])) := by
  obtain ⟨hclient, hdb, hends⟩ := openSlaveConnection_relays h
  refine ⟨hclient, hdb, ?_⟩
  rcases hends with ⟨hopened, os, hrelays, -⟩ | ⟨hopened, hpasv, hcall, -⟩
  · exact .inl ⟨hopened, hrelays.opens⟩
  · exact .inr ⟨hopened, hpasv, hcall⟩

/-- The identifier of a transfer thread is stored. -/
def World.Threaded (w : World) : Prop := w.client.CurrentTransfer.TransferThreadID = true

/-- What a command that starts a transfer does to the data connection. -/
inductive TransferTurn (w w' : World) (thread : TransferThread) (status : Status) :
    List Call → Prop where
  | refused : w'.view = w.view → TransferTurn w w' thread status []
  | unopened : w'.view = w.view → w.client.eDataConnection = .pasv →
      TransferTurn w w' thread status [w.view.opening .exception]
  | started {cs₁ : List Call} : w.view.Opens cs₁ →
      w'.view = { w.view with eStatus := status } → w'.Threaded →
      TransferTurn w w' thread status (cs₁ ++ [⟨.pthread_create thread, true⟩])
  | failed {cs₁ cs₂ : List Call} : w.view.Opens cs₁ → OnlyCancels cs₂ →
      w'.view = w.view.reset →
      TransferTurn w w' thread status (cs₁ ++ ⟨.pthread_create thread, false⟩ :: cs₂)

/-- The end of such a command: the status, then the thread. -/
theorem started_of_start {thread : TransferThread} {status : Status} {w₂ : World} {ok : Bool}
    {cs₁ : List Call} (hopens : w.view.Opens cs₁)
    (hview : w₂.view = { w.view with eStatus := status })
    (h : Does env (startTransfer thread) w₂ ok w' cs) :
    TransferTurn w w' thread status (cs₁ ++ cs) := by
  obtain ⟨-, rfl, -, hclient⟩ | ⟨-, hreset, cs', honly, rfl⟩ := startTransfer_does h
  · refine .started hopens ?_ (by rw [World.Threaded, hclient])
    rw [← hview]
    simp only [World.view, hclient]
    rfl
  · refine .failed hopens honly ?_
    rw [hreset, hview]
    rfl

/-- `RETR`. -/
theorem retr_does {arg : Text} {u : Unit} (h : Does env (cmdRetr arg) w u w' cs) :
    TransferTurn w w' .retrieve .downloading cs := by
  obtain ⟨found, w₁, cs₁, cs₂, hstat, h₁, rfl⟩ := h.of_client.of_bind
  have hq : ∀ pszPath, Every (Within []) (statPath pszPath) := fun pszPath => within_statPath pszPath
  have hview₁ := view_of_same (hq _) hstat (by simp)
  rw [hstat.quiet (hq _) (by simp), List.nil_append]
  cases found with
  | none =>
      obtain ⟨rfl, rfl⟩ := h₁.of_reply
      exact .refused hview₁
  | some a =>
      obtain ⟨path, st⟩ := a
      dsimp only at h₁
      by_cases hreg : S_ISREG st.st_mode = true
      · rw [if_pos hreg] at h₁
        obtain ⟨opened, w₂, cs₃, cs₄, hopen, h₂, rfl⟩ := h₁.of_bind
        obtain ⟨hclient, -, hends⟩ := openSlaveConnection_does hopen
        have hview₂ : w₂.view = w.view := by
          rw [← hview₁]
          simp only [World.view, hclient]
        obtain ⟨rfl, hopens⟩ | ⟨rfl, hpasv, rfl⟩ := hends
        · have h₃ : Does env _ w₂ u w' cs₄ := h₂
          obtain ⟨ok, w₃, cs₅, cs₆, hstart, hret, rfl⟩ := h₃.of_modify.of_bind
          obtain ⟨-, rfl, rfl⟩ := hret.of_ret
          rw [List.append_nil]
          rw [hview₁] at hopens
          refine started_of_start hopens ?_ hstart
          rw [← hview₂]
          rfl
        · obtain ⟨-, rfl, rfl⟩ := h₂.of_ret
          rw [List.append_nil, hview₁]
          refine .unopened hview₂ ?_
          have hconn := congrArg TransferView.eDataConnection hview₁
          exact hconn.symm.trans hpasv
      · rw [if_neg hreg] at h₁
        obtain ⟨rfl, rfl⟩ := h₁.of_reply
        exact .refused hview₁

/-- A `RETR` that starts its thread has found a regular file, and left its path to the thread. -/
theorem retr_starts {arg : Text} {u : Unit} (h : Does env (cmdRetr arg) w u w' cs)
    (hstart : ⟨.pthread_create .retrieve, true⟩ ∈ cs) :
    ∃ path st, w.client.buildPath (some arg) = some path ∧
      run serveRedis (stat path) w.db = .done (some st) w.db ∧ S_ISREG st.st_mode = true ∧
      w'.db = w.db ∧ w'.client = { w.client with
        eStatus := .downloading
        CurrentTransfer :=
          { w.client.CurrentTransfer with szPath := path, TransferThreadID := true } } := by
  obtain ⟨found, w₁, cs₁, cs₂, hstat, h₁, rfl⟩ := h.of_client.of_bind
  have hq : Every (Within []) (statPath (w.client.buildPath (some arg))) := within_statPath _
  rw [hstat.quiet hq (by simp), List.nil_append] at hstart
  cases hbuild : w.client.buildPath (some arg) with
  | none =>
      rw [hbuild] at hstat
      obtain ⟨rfl, rfl, -⟩ := Does.of_ret hstat
      obtain ⟨rfl, rfl⟩ := h₁.of_reply
      exact absurd hstart (by simp)
  | some path =>
      rw [hbuild] at hstat
      have hq' : Every (Within []) (statPath (some path)) := within_statPath _
      have hdb : w₁.db = w.db := hstat.db hq' (by simp) (by simp)
      obtain ⟨st, w₂, cs₃, cs₄, hread, hret, -⟩ := Does.of_bind hstat
      obtain ⟨rfl, rfl, -⟩ := hret.of_ret
      have hrun := hread.ends
      rw [run_redis] at hrun
      cases hr : run serveRedis (stat path) w.db with
      | stopped why db => rw [hr] at hrun; exact absurd hrun (by simp)
      | done st' db =>
          rw [hr, Outcome.mapState_done, Outcome.done.injEq] at hrun
          obtain ⟨rfl, rfl⟩ := hrun
          have hdb' : db = w.db := hdb
          rw [hdb'] at h₁ hr
          cases st' with
          | none =>
              obtain ⟨rfl, rfl⟩ := h₁.of_reply
              exact absurd hstart (by simp)
          | some st =>
              dsimp only [Option.map_some] at h₁
              by_cases hreg : S_ISREG st.st_mode = true
              · rw [if_pos hreg] at h₁
                obtain ⟨opened, w₃, cs₅, cs₆, hopen, h₂, rfl⟩ := h₁.of_bind
                obtain ⟨hclient, hdb₃, hends⟩ := openSlaveConnection_does hopen
                have hcalls : ⟨.pthread_create .retrieve, true⟩ ∈ cs₅ → False := by
                  intro hmem
                  have hq₃ : Every (Within [.opening]) openSlaveConnection :=
                    within_openSlaveConnection (by simp)
                  obtain ⟨x, hx, hpart⟩ := hopen.part hq₃ hmem
                  rw [List.mem_singleton.mp hx] at hpart
                  exact absurd hpart (by simp [SysOp.part])
                have hrest : ⟨.pthread_create .retrieve, true⟩ ∈ cs₆ :=
                  (List.mem_append.mp hstart).resolve_left hcalls
                obtain ⟨rfl, -⟩ | ⟨rfl, -, -⟩ := hends
                · have h₃ : Does env _ w₃ u w' cs₆ := h₂
                  obtain ⟨ok, w₄, cs₇, cs₈, hthread, hret, rfl⟩ := h₃.of_modify.of_bind
                  obtain ⟨-, rfl, rfl⟩ := hret.of_ret
                  rw [List.append_nil] at hrest
                  obtain ⟨-, -, hdb₄, hclient₄⟩ | ⟨-, -, cs', honly, rfl⟩ :=
                    startTransfer_does hthread
                  · refine ⟨path, st, rfl, hr, hreg, ?_, ?_⟩
                    · rw [hdb₄]
                      exact hdb₃
                    · rw [hclient₄, hclient]
                  · rw [List.mem_cons] at hrest
                    obtain heq | hmem := hrest
                    · simp at heq
                    · exact absurd (honly _ hmem) (by simp)
                · obtain ⟨-, rfl, rfl⟩ := h₂.of_ret
                  exact absurd hrest (by simp)
              · rw [if_neg hreg] at h₁
                obtain ⟨rfl, rfl⟩ := h₁.of_reply
                exact absurd hstart (by simp)

/-! ### Uploads -/

/-- An operation that replies nothing. -/
def Silent : CommandOp → Prop
  | .sendReply _ => False
  | .redis _ => True
  | .client => True
  | .modify _ => True
  | .sys _ => True

theorem Does.silent (hp : Every Silent p) (h : Does env p w a w' cs) : w'.replies = w.replies := by
  have hkeeps := hp.run_keeps (serveCommand env) World.replies (fun o ho s => by
    cases o with
    | sendReply r => cases ho
    | _ => rfl) w
  rw [h.ends] at hkeeps
  exact hkeeps

theorem silent_reset (bSyncWait : Bool) : Every Silent (resetDataConnection bSyncWait) := by
  refine ⟨trivial, ?_⟩
  intro c
  have hclose : Every Silent (closeData c.DataSock) := by
    cases c.DataSock with
    | none => trivial
    | some fd => exact ⟨trivial, fun _ => trivial⟩
  apply hclose.bind
  intro _
  unfold onlyIf
  split
  · exact ⟨trivial, fun _ => ⟨trivial, fun _ => trivial⟩⟩
  · exact ⟨trivial, fun _ => trivial⟩

theorem silent_startTransfer (thread : TransferThread) : Every Silent (startTransfer thread) := by
  refine ⟨trivial, ?_⟩
  intro c
  refine ⟨trivial, fun _ => ⟨trivial, ?_⟩⟩
  intro ok
  cases ok with
  | true => trivial
  | false => exact ⟨trivial, fun _ => (silent_reset true).bind fun _ => trivial⟩

/-- A `stat` in a session. -/
theorem Does.of_stat {path : Text} {st : Option Stat}
    (h : Does env (redis (stat path)) w st w' cs) :
    ask (stat path) w.db = some st ∧ w' = w ∧ cs = [] := by
  have hin : Every (Within []) (redis (stat path)) := within_redis_of_reads (reads_stat path)
  have hdb : w'.db = w.db := h.db hin List.not_mem_nil List.not_mem_nil
  obtain ⟨hrun, hw', hcs⟩ := h.of_redis
  rw [hdb] at hw'
  refine ⟨?_, hw', hcs⟩
  unfold ask
  rw [hrun]
  rfl

/-- How an upload comes to its path, and what is replied on the way. -/
inductive UploadName (cmd : UploadCmd) (pszCmdArg : Option Text) (w : World) (path : Text) :
    List Reply → Prop where
  | asked : cmd ≠ .stou → w.client.buildPath pszCmdArg = some path →
      UploadName cmd pszCmdArg w path []
  | made (szName : Text) : cmd = .stou → w.client.buildPath (some szName) = some path →
      ask (stat path) w.db = some none →
      UploadName cmd pszCmdArg w path [.line 150 ("FILE: " ++ String.ofList szName)]

theorem uploadPath_does {cmd : UploadCmd} {pszCmdArg path : Option Text}
    (h : Does env (uploadPath cmd pszCmdArg) w path w' cs) :
    cs = [] ∧ w'.client = w.client ∧ w'.db = w.db ∧ ∃ rs, w'.replies = w.replies ++ rs ∧
      (path = none → rs = []) ∧ ∀ p, path = some p → UploadName cmd pszCmdArg w p rs := by
  have h₁ := h.of_client
  by_cases hstou : cmd = .stou
  · rw [hstou] at h₁
    have h₂ := h₁.of_sys rfl
    generalize "file.".toList ++ (toString (env w.clock .rand % 9999999)).toList = szName at h₂
    dsimp only at h₂
    cases hbuild : w.client.buildPath (some szName) with
    | none =>
        rw [hbuild] at h₂
        obtain ⟨hpath, hend, hnil⟩ := h₂.of_ret
        rw [hend, hpath]
        exact ⟨hnil, rfl, rfl, [], (List.append_nil _).symm, fun _ => rfl, fun p hp => nomatch hp⟩
    | some built =>
        rw [hbuild] at h₂
        obtain ⟨st, w₁, cs₁, cs₂, hstat, h₃, hcs⟩ := Does.of_bind h₂
        obtain ⟨hask, hw₁, hnil₁⟩ := hstat.of_stat
        rw [hw₁] at h₃
        rw [hcs, hnil₁, List.nil_append]
        cases st with
        | some st =>
            obtain ⟨hpath, hend, hnil⟩ := h₃.of_ret
            rw [hend, hpath]
            exact ⟨hnil, rfl, rfl, [], (List.append_nil _).symm, fun _ => rfl,
              fun p hp => nomatch hp⟩
        | none =>
            obtain ⟨hpath, hend, hnil⟩ := h₃.of_sendReply.of_ret
            rw [hend, hpath]
            refine ⟨hnil, rfl, rfl, _, rfl, ?_, ?_⟩
            · intro hnone
              cases hnone
            · intro p hp
              rw [Option.some.injEq] at hp
              rw [← hp]
              exact .made szName hstou hbuild hask
  · have h₂ : Does env (.ret (w.client.buildPath pszCmdArg)) w path w' cs := by
      cases cmd with
      | stor => exact h₁
      | appe => exact h₁
      | stou => exact absurd rfl hstou
    obtain ⟨hpath, hend, hnil⟩ := h₂.of_ret
    rw [hend]
    refine ⟨hnil, rfl, rfl, [], (List.append_nil _).symm, fun _ => rfl, ?_⟩
    intro p hp
    exact .asked hstou (hpath.symm.trans hp)

/-- The offset an upload starts at: with `APPE` the size that `stat` finds. -/
def World.startOffset (w : World) (cmd : UploadCmd) (path : Text) : ℤ :=
  if cmd = .appe then ((ask (stat path) w.db).join.map Stat.st_size).getD 0
  else w.client.CurrentTransfer.RestartAt

/-- **What `STOR`, `APPE` and `STOU` do** up to the transfer thread. -/
inductive StoreLine (cmd : UploadCmd) (pszCmdArg : Option Text) (w w' : World) :
    List Call → Prop where
  | refused {rs : List Reply} : rs = [] ∨ rs = [.line 501 "Syntax error in arguments."] →
      w'.client = w.client → w'.db = w.db → w'.replies = w.replies ++ rs →
      StoreLine cmd pszCmdArg w w' []
  | unopened {path : Text} {rs : List Reply} : UploadName cmd pszCmdArg w path rs →
      w.client.eDataConnection = .pasv → w'.client = w.client → w'.db = w.db →
      w'.replies = w.replies ++ rs ++ [.line 425 "Can't open data connection."] →
      StoreLine cmd pszCmdArg w w' [w.view.opening .exception]
  | started {path : Text} {rs os : List Reply} {cs : List Call} :
      UploadName cmd pszCmdArg w path rs → w.view.Relays cs os →
      w'.client = { w.client with
        eStatus := .uploading
        CurrentTransfer := { w.client.CurrentTransfer with
          RestartAt := w.startOffset cmd path, szPath := path, TransferThreadID := true } } →
      w'.db = w.db → w'.replies = w.replies ++ rs ++ os →
      StoreLine cmd pszCmdArg w w' (cs ++ [⟨.pthread_create .store, true⟩])
  | failed {path : Text} {rs os : List Reply} {cs cs' : List Call} :
      UploadName cmd pszCmdArg w path rs → w.view.Relays cs os → OnlyCancels cs' →
      w'.view = w.view.reset → w'.client.CurrentTransfer = {} → w'.db = w.db →
      w'.replies = w.replies ++ rs ++ os →
      StoreLine cmd pszCmdArg w w' (cs ++ ⟨.pthread_create .store, false⟩ :: cs')

theorem reset_transfer {bSyncWait : Bool} {u : Unit}
    (h : Does env (resetDataConnection bSyncWait) w u w' cs) :
    w'.client.CurrentTransfer = {} ∧ w'.db = w.db ∧ w'.replies = w.replies := by
  have hdb : w'.db = w.db :=
    h.db (within_resetDataConnection bSyncWait) (by decide) (by decide)
  refine ⟨?_, hdb, h.silent (silent_reset bSyncWait)⟩
  obtain ⟨u₁, w₁, cs₁, cs₂, -, h₂, -⟩ := h.of_client.of_bind
  obtain ⟨u₂, w₂, cs₃, cs₄, -, h₄, -⟩ := h₂.of_bind
  have hend : w' = _ := (Outcome.done.inj h₄.ends).2.symm
  rw [hend]
  rfl

/-- `pthread_create` fails. -/
theorem startTransfer_fails {thread : TransferThread}
    (h : Does env (startTransfer thread) w false w' cs) :
    w'.client.CurrentTransfer = {} ∧ w'.db = w.db ∧ w'.replies = w.replies := by
  have h₁ := h.of_client.of_modify
  obtain ⟨cs₁, -, h₂⟩ := h₁.of_call rfl
  cases hok : env w.clock (.pthread_create thread) with
  | true =>
      rw [hok, if_pos rfl] at h₂
      obtain ⟨hfalse, -, -⟩ := h₂.of_ret
      cases hfalse
  | false =>
      rw [hok, if_neg Bool.false_ne_true] at h₂
      obtain ⟨u, w₁, cs₂, cs₃, hreset, hret, -⟩ := h₂.of_modify.of_bind
      obtain ⟨-, hend, -⟩ := hret.of_ret
      obtain ⟨htransfer, hdb, hreplies⟩ := reset_transfer hreset
      rw [hend]
      exact ⟨htransfer, hdb, hreplies⟩

/-- The offset of the transfer, before its thread starts. -/
theorem append_does {cmd : UploadCmd} {path : Text} {u : Unit} {w₀ : World}
    (h : Does env (onlyIf (cmd = .appe) (appendOffset path)) w u w' cs) (hdb : w.db = w₀.db)
    (hclient : w.client = { w₀.client with eStatus := .uploading }) :
    cs = [] ∧ w'.db = w.db ∧ w'.replies = w.replies ∧ w'.client = { w₀.client with
      eStatus := .uploading
      CurrentTransfer := { w₀.client.CurrentTransfer with
        RestartAt := w₀.startOffset cmd path } } := by
  unfold World.startOffset
  by_cases happe : cmd = .appe
  · rw [onlyIf, if_pos happe] at h
    obtain ⟨st, w₁, cs₁, cs₂, hstat, h₁, hcs⟩ := Does.of_bind h
    obtain ⟨hask, hw₁, hnil⟩ := hstat.of_stat
    have hend : w' = _ ∧ cs₂ = [] := ⟨(Outcome.done.inj h₁.ends).2.symm, h₁.makes.symm⟩
    rw [if_pos happe, ← hdb, hask, hcs, hnil, hend.2, hend.1, hw₁]
    refine ⟨rfl, rfl, rfl, ?_⟩
    show ({ w.client with toCommandState := _ } : Client) = _
    rw [hclient]
    rfl
  · rw [onlyIf, if_neg happe] at h
    obtain ⟨-, hend, hnil⟩ := h.of_ret
    rw [if_neg happe, hend, hnil, hclient]
    exact ⟨rfl, rfl, rfl, rfl⟩

theorem storeLine_does {cmd : UploadCmd} {pszCmdArg : Option Text} {ok : Bool}
    (h : Does env (cmdStore cmd pszCmdArg) w ok w' cs) : StoreLine cmd pszCmdArg w w' cs := by
  unfold cmdStore at h
  by_cases harg : pszCmdArg.isSome ∨ cmd = .stou
  · rw [if_pos harg] at h
    obtain ⟨path, w₁, cs₁, cs₂, hpath, h₁, hcs⟩ := h.of_bind
    obtain ⟨hnil₁, hclient₁, hdb₁, rs, hreplies₁, hnone, hname⟩ := uploadPath_does hpath
    rw [hcs, hnil₁, List.nil_append]
    cases path with
    | none =>
        obtain ⟨-, hend, hnil⟩ := h₁.of_ret
        rw [hend, hnil]
        exact .refused (.inl (hnone rfl)) hclient₁ hdb₁ hreplies₁
    | some path =>
        have hpath' := hname path rfl
        obtain ⟨opened, w₂, cs₃, cs₄, hopen, h₂, hcs₂⟩ := h₁.of_bind
        obtain ⟨hclient₂, hdb₂, hends⟩ := openSlaveConnection_relays hopen
        have hview₁ : w₁.view = w.view := by
          unfold World.view
          rw [hclient₁]
        have hclient : w₂.client = w.client := hclient₂.trans hclient₁
        have hdb : w₂.db = w.db := hdb₂.trans hdb₁
        rw [hview₁, hclient₁, hreplies₁] at hends
        rw [hcs₂]
        rcases hends with ⟨hopened, os, hrelays, hreplies₂⟩ | ⟨hopened, hpasv, hcall, hreplies₂⟩
        · rw [hopened] at h₂
          have h₃ : Does env (startStore cmd path) w₂ ok w' cs₄ := h₂
          obtain ⟨u₄, w₄, cs₅, cs₆, happend, h₄, hcs₄⟩ := h₃.of_modify.of_bind
          have hbegun : ({ w₂.client with eStatus := .uploading } : Client) =
              { w.client with eStatus := .uploading } := by rw [hclient]
          obtain ⟨hnil₅, hdb₄, hreplies₄, hclient₄⟩ := append_does happend hdb hbegun
          have hview₄ : w₄.view = { w.view with eStatus := .uploading } := by
            unfold World.view
            rw [hclient₄]
            rfl
          rw [hcs₄, hnil₅, List.nil_append]
          have hsilent := Does.silent (silent_startTransfer .store) h₄.of_modify
          have hreplies : w'.replies = w₂.replies := hsilent.trans hreplies₄
          rcases startTransfer_does h₄.of_modify with
            ⟨-, hstarted, hdb', hclient'⟩ | ⟨hfalse, hreset, cs₇, honly, hfails⟩
          · rw [hstarted]
            refine .started hpath' hrelays ?_ (hdb'.trans (hdb₄.trans hdb))
              (hreplies.trans hreplies₂)
            rw [hclient', hclient₄]
          · rw [hfalse] at h₄
            obtain ⟨htransfer, hdb', -⟩ := startTransfer_fails h₄.of_modify
            rw [hfails]
            refine .failed hpath' hrelays honly ?_ htransfer (hdb'.trans (hdb₄.trans hdb))
              (hreplies.trans hreplies₂)
            rw [hreset]
            show w₄.view.reset = w.view.reset
            rw [hview₄]
            rfl
        · rw [hopened] at h₂
          obtain ⟨-, hend, hnil⟩ := h₂.of_ret
          rw [hend, hcall, hnil, List.append_nil]
          exact .unopened hpath' hpasv hclient hdb hreplies₂
  · rw [if_neg harg] at h
    obtain ⟨-, hend, hnil⟩ := h.of_sendReply.of_ret
    rw [hend, hnil]
    exact .refused (.inr rfl) rfl rfl rfl

/-- `STOR`, `APPE` and `STOU`. -/
theorem store_does {cmd : UploadCmd} {pszCmdArg : Option Text} {ok : Bool}
    (h : Does env (cmdStore cmd pszCmdArg) w ok w' cs) :
    TransferTurn w w' .store .uploading cs := by
  cases storeLine_does h with
  | refused hrs hclient hdb hreplies =>
      apply TransferTurn.refused
      unfold World.view
      rw [hclient]
  | unopened hname hpasv hclient hdb hreplies =>
      refine .unopened ?_ hpasv
      unfold World.view
      rw [hclient]
  | started hname hrelays hclient hdb hreplies =>
      refine .started hrelays.opens ?_ ?_
      · unfold World.view
        rw [hclient]
        rfl
      · rw [World.Threaded, hclient]
  | failed hname hrelays honly hview htransfer hdb hreplies =>
      exact .failed hrelays.opens honly hview

/-! ### Listings -/

/-- `OpenDataConnection` leaves the view alone, or resets the data connection. -/
theorem openDataConnection_does {opened : Bool} {cfg : Config}
    (h : Does env (openDataConnection cfg) w opened w' cs) :
    (opened = true ∧ w'.view = w.view ∧ cs = []) ∨
      (opened = false ∧ (w'.view = w.view ∨ w'.view = w.view.reset) ∧ OnlyCancels cs) := by
  have h₁ := h.of_client
  by_cases hnone : w.client.eDataConnection = .none
  · rw [if_pos hnone] at h₁
    obtain ⟨rfl, rfl, rfl⟩ := h₁.of_sendReply.of_ret
    exact .inr ⟨rfl, .inl rfl, onlyCancels_nil⟩
  · rw [if_neg hnone] at h₁
    obtain ⟨u, w₁, cs₁, cs₂, hactive, h₂, rfl⟩ := h₁.of_bind
    obtain ⟨ok, w₂, cs₃, cs₄, htry, h₃, rfl⟩ := h₂.of_bind
    have hq₁ : Every (Within [.socket]) (onlyIf (w.client.eDataConnection = .port) activeSocket) :=
      within_onlyIf (within_activeSocket (by simp))
    have hq₂ : Every (Within [.socket]) (tryDataConnection cfg) :=
      within_tryDataConnection (by simp) cfg
    have hview : w₂.view = w.view :=
      (view_of_same hq₂ htry (by simp)).trans (view_of_same hq₁ hactive (by simp))
    rw [hactive.quiet hq₁ (by simp), htry.quiet hq₂ (by simp), List.nil_append, List.nil_append]
    cases ok with
    | true =>
        rw [if_pos rfl] at h₃
        obtain ⟨rfl, rfl, rfl⟩ := h₃.of_ret
        exact .inl ⟨rfl, hview, rfl⟩
    | false =>
        rw [if_neg (by simp)] at h₃
        obtain ⟨u', w₃, cs₅, cs₆, hreset, hret, rfl⟩ := h₃.of_sendReply.of_bind
        obtain ⟨rfl, rfl, rfl⟩ := hret.of_ret
        obtain ⟨hview', honly⟩ := reset_does hreset
        rw [List.append_nil]
        refine .inr ⟨rfl, .inr ?_, honly⟩
        rw [hview', ← hview]
        rfl

/-- What a listing does to the data connection. -/
inductive ListTurn (w w' : World) : List Call → Prop where
  | refused : w'.view = w.view → ListTurn w w' []
  | unopened {cs : List Call} : w.client.eStatus = .waiting → OnlyCancels cs →
      w'.view = w.view ∨ w'.view = w.view.reset → ListTurn w w' cs
  | started : w.client.eStatus = .waiting → w'.view = { w.view with eStatus := .listing } →
      w'.Threaded → ListTurn w w' [⟨.pthread_create .list, true⟩]
  | failed {cs : List Call} : w.client.eStatus = .waiting → OnlyCancels cs →
      w'.view = w.view.reset → ListTurn w w' (⟨.pthread_create .list, false⟩ :: cs)

/-- A change of the current transfer is not in the view. -/
theorem openListing_does {opened : Bool} {cfg : Config} {nCmd : Cmd}
    (h : Does env (openListing cfg nCmd) w opened w' cs) :
    (opened = true ∧ w'.view = w.view ∧ cs = []) ∨
      (opened = false ∧ (w'.view = w.view ∨ w'.view = w.view.reset) ∧ OnlyCancels cs) := by
  unfold openListing at h
  by_cases hstat : nCmd = .stat
  · rw [if_pos hstat] at h
    obtain ⟨rfl, rfl, rfl⟩ := h.of_sendReply.of_modify.of_ret
    exact .inl ⟨rfl, rfl, rfl⟩
  · rw [if_neg hstat] at h
    obtain ⟨ok, w₁, cs₁, cs₂, hopen, h₁, rfl⟩ := h.of_bind
    obtain ⟨u, w₂, cs₃, cs₄, hmod, hret, rfl⟩ := h₁.of_bind
    obtain ⟨rfl, rfl, rfl⟩ := hret.of_ret
    have hq : Every (Within [.transfer]) (onlyIf (opened = true)
        (modifyTransfer fun t => { t with SockList := .data })) :=
      within_onlyIf (within_modifyTransfer (by simp) _)
    have hview := view_of_same hq hmod (by simp)
    rw [hmod.quiet hq (by simp), List.append_nil, List.append_nil, hview]
    exact openDataConnection_does hopen

theorem list_does {cfg : Config} {nCmd : Cmd} {pszCmdArg : Option Text} {u : Unit}
    (h : Does env (cmdList cfg nCmd pszCmdArg) w u w' cs) : ListTurn w w' cs := by
  have h₁ := h.of_client
  by_cases hwait : w.client.eStatus = .waiting
  · rw [if_neg (by simp [hwait])] at h₁
    obtain ⟨found, w₁, cs₁, cs₂, hstat, h₂, rfl⟩ := h₁.of_modify.of_bind
    have hq : ∀ pszPath, Every (Within []) (statPath pszPath) :=
      fun pszPath => within_statPath pszPath
    have hsame := view_of_same (hq _) hstat (by simp)
    have hview₁ : w₁.view = w.view := hsame
    rw [hstat.quiet (hq _) (by simp), List.nil_append]
    cases found with
    | none =>
        obtain ⟨rfl, rfl⟩ := h₂.of_reply
        exact .refused hview₁
    | some a =>
        obtain ⟨opened, w₂, cs₃, cs₄, hopen, h₃, rfl⟩ := h₂.of_modify.of_bind
        obtain ⟨rfl, hview₂, rfl⟩ | ⟨rfl, hview₂, honly⟩ := openListing_does hopen
        · have hview₃ : w₂.view = w.view := hview₂.trans hview₁
          have h₄ : Does env _ w₂ u w' cs₄ := h₃
          obtain ⟨ok, w₃, cs₅, cs₆, hstart, hret, rfl⟩ := h₄.of_modify.of_bind
          obtain ⟨-, rfl, rfl⟩ := hret.of_ret
          rw [List.append_nil, List.nil_append]
          obtain ⟨-, rfl, -, hclient⟩ | ⟨-, hreset, cs', honly, rfl⟩ := startTransfer_does hstart
          · refine .started hwait ?_ (by rw [World.Threaded, hclient])
            rw [← hview₃]
            simp only [World.view, hclient]
            rfl
          · refine .failed hwait honly ?_
            rw [hreset, ← hview₃]
            rfl
        · obtain ⟨-, rfl, rfl⟩ := h₃.of_ret
          rw [List.append_nil]
          refine .unopened hwait honly ?_
          rw [← hview₁]
          exact hview₂
  · rw [if_pos hwait] at h₁
    obtain ⟨rfl, rfl⟩ := h₁.of_reply
    exact .refused rfl

/-! ### The data connection -/

/-- What `PORT`, `PASV` without a `PRET` and `ABOR` do: they leave the view alone, or reset the data
connection and set up the one of their kind. -/
inductive ResetTurn (w w' : World) (kind : DataConnection) : List Call → Prop where
  | refused : w'.view = w.view → ResetTurn w w' kind []
  | reset {cs : List Call} (conn : DataConnection) : conn = .none ∨ conn = kind →
      OnlyCancels cs → w'.view = { w.view.reset with eDataConnection := conn } →
      ResetTurn w w' kind cs

/-- The view after a reset that is only made when there is a data connection. -/
theorem onlyIf_reset_does {w₁ : World} {u : Unit} (hwait : w.client.eStatus = .waiting)
    (h : Does env (onlyIf (w.client.eDataConnection ≠ .none) (resetDataConnection true)) w u w₁ cs) :
    w₁.view = w.view.reset ∧ OnlyCancels cs := by
  by_cases hnone : w.client.eDataConnection ≠ .none
  · rw [onlyIf, if_pos hnone] at h
    exact reset_does h
  · rw [onlyIf, if_neg hnone] at h
    obtain ⟨-, rfl, rfl⟩ := h.of_ret
    have hconn : w₁.client.eDataConnection = .none := by simpa using hnone
    refine ⟨?_, onlyCancels_nil⟩
    simp only [World.view, CommandState.view, TransferView.reset, hwait, hconn]

theorem port_does {cfg : Config} {pszCmdArg : Option Text} {u : Unit}
    (h : Does env (cmdPort cfg pszCmdArg) w u w' cs) :
    cs = [] ∧ w'.view = w.view ∨ w.client.eStatus = .waiting ∧ ResetTurn w w' .port cs := by
  have h₁ := h.of_client
  by_cases hwait : w.client.eStatus = .waiting
  · rw [if_pos hwait] at h₁
    cases hscan : pszCmdArg.bind scanPort with
    | none =>
        rw [hscan] at h₁
        obtain ⟨rfl, rfl⟩ := h₁.of_reply
        exact .inl ⟨rfl, rfl⟩
    | some a =>
        rw [hscan] at h₁
        obtain ⟨u₁, w₁, cs₁, cs₂, hreset, h₂, rfl⟩ := h₁.of_bind
        obtain ⟨hview, honly⟩ := onlyIf_reset_does hwait hreset
        refine .inr ⟨hwait, ?_⟩
        by_cases hfxp : ¬ cfg.bEnableFXP ∨ a.1 = w.client.ulClientIP ∨ w.client.ulClientIP = loopbackIP
        · have h₃ := (if_pos hfxp).subst (motive := fun p => Does env p w₁ u w' cs₂) h₂
          obtain ⟨rfl, rfl⟩ := h₃.of_modify.of_reply
          rw [List.append_nil]
          refine .reset .port (.inr rfl) honly ?_
          rw [← hview]
          rfl
        · have h₃ := (if_neg hfxp).subst (motive := fun p => Does env p w₁ u w' cs₂) h₂
          obtain ⟨rfl, rfl⟩ := h₃.of_reply
          rw [List.append_nil]
          exact .reset .none (.inl rfl) honly hview
  · rw [if_neg hwait] at h₁
    obtain ⟨rfl, rfl⟩ := h₁.of_reply
    exact .inl ⟨rfl, rfl⟩

/-- The end of a `PASV` without a `PRET`, behind the reset. -/
theorem listen_does {cfg : Config} {c : Client} {fd : ℕ} {u : Unit}
    (h : Does env (do
      if ← sys (.setsockopt fd) then do
        modify fun c => { c with usDataPort := 0 }
        let usFirstTry ← randomPort cfg
        let usTriedPort ← bindLoop cfg fd usFirstTry 131072 usFirstTry
        modify fun c => { c with usDataPort := usTriedPort.getD 0 }
        if usTriedPort.getD 0 = 0 then
          sendReply (.line 451 "Internal error - No more data port available.")
        else if ← sys (.listen fd) then do
          sendReply (passiveReply c.ulServerIP (usTriedPort.getD 0))
          modify fun c => { c with eDataConnection := .pasv }
        else return ()
      else return ()) w u w' cs) :
    cs = [] ∧ (w'.view = w.view ∨ w'.view = { w.view with eDataConnection := .pasv }) := by
  have h₁ := h.of_sys rfl
  by_cases hset : env w.clock (.setsockopt fd) = true
  · rw [if_pos hset] at h₁
    have h₂ := h₁.of_modify
    obtain ⟨usFirstTry, w₁, cs₁, cs₂, hrand, h₃, rfl⟩ := h₂.of_bind
    obtain ⟨usTriedPort, w₂, cs₃, cs₄, hbind, h₄, rfl⟩ := h₃.of_bind
    have hq₁ : Every (Within []) (randomPort cfg) := within_randomPort cfg
    have hq₂ : Every (Within []) (bindLoop cfg fd usFirstTry 131072 usFirstTry) :=
      within_bindLoop cfg fd usFirstTry 131072 usFirstTry
    have hview₁ := view_of_same hq₁ hrand (by simp)
    have hview₂ : w₂.view = w.view := (view_of_same hq₂ hbind (by simp)).trans hview₁
    rw [hrand.quiet hq₁ (by simp), hbind.quiet hq₂ (by simp), List.nil_append, List.nil_append]
    have h₅ := h₄.of_modify
    by_cases hport : usTriedPort.getD 0 = 0
    · rw [if_pos hport] at h₅
      obtain ⟨rfl, rfl⟩ := h₅.of_reply
      exact ⟨rfl, .inl hview₂⟩
    · rw [if_neg hport] at h₅
      have h₆ := h₅.of_sys rfl
      by_cases hlisten : env w₂.clock (.listen fd) = true
      · rw [if_pos hlisten] at h₆
        have h₇ := h₆.of_sendReply
        have hend : w' = _ ∧ cs₄ = [] := ⟨(Outcome.done.inj h₇.ends).2.symm, h₇.makes.symm⟩
        obtain ⟨rfl, rfl⟩ := hend
        refine ⟨rfl, .inr ?_⟩
        rw [← hview₂]
        rfl
      · rw [if_neg hlisten] at h₆
        obtain ⟨-, rfl, rfl⟩ := h₆.of_ret
        exact ⟨rfl, .inl hview₂⟩
  · rw [if_neg hset] at h₁
    obtain ⟨-, rfl, rfl⟩ := h₁.of_ret
    exact ⟨rfl, .inl rfl⟩

/-- `PASV` without a `PRET` resets the data connection, which is then passive or none. -/
theorem pasvLocal_resets {cfg : Config} {u : Unit} (hwait : w.client.eStatus = .waiting)
    (h : Does env (pasvLocal cfg) w u w' cs) : ∃ conn, (conn = .none ∨ conn = .pasv) ∧
      OnlyCancels cs ∧ w'.view = { w.view.reset with eDataConnection := conn } := by
  obtain ⟨u₁, w₁, cs₁, cs₂, hreset, h₁, rfl⟩ := h.of_client.of_bind
  obtain ⟨hview, honly⟩ := onlyIf_reset_does hwait hreset
  have h₂ := (h₁.of_sys rfl).of_modify
  cases hsock : env w₁.clock .socket with
  | none =>
      rw [hsock] at h₂
      obtain ⟨-, rfl, rfl⟩ := h₂.of_ret
      rw [List.append_nil]
      exact ⟨.none, .inl rfl, honly, hview⟩
  | some fd =>
      rw [hsock] at h₂
      obtain ⟨rfl, hends⟩ := listen_does h₂
      rw [List.append_nil]
      obtain hend | hend := hends
      · exact ⟨.none, .inl rfl, honly, hend.trans hview⟩
      · refine ⟨.pasv, .inr rfl, honly, hend.trans ?_⟩
        rw [← hview]
        rfl

theorem pasvLocal_does {cfg : Config} {u : Unit} (hwait : w.client.eStatus = .waiting)
    (h : Does env (pasvLocal cfg) w u w' cs) : ResetTurn w w' .pasv cs := by
  obtain ⟨conn, hconn, honly, hview⟩ := pasvLocal_resets hwait h
  exact .reset conn hconn honly hview

theorem abor_does {u : Unit} (h : Does env cmdAbor w u w' cs) : ResetTurn w w' .none cs := by
  obtain ⟨u₁, w₁, cs₁, cs₂, habort, h₁, rfl⟩ := h.of_client.of_bind
  obtain ⟨rfl, rfl⟩ := h₁.of_reply
  rw [List.append_nil]
  by_cases hwait : w.client.eStatus ≠ .waiting
  · rw [onlyIf, if_pos hwait] at habort
    obtain ⟨u₂, w₂, cs₃, cs₄, hreset, h₂, rfl⟩ := habort.of_bind
    obtain ⟨rfl, rfl⟩ := h₂.of_reply
    obtain ⟨hview, honly⟩ := reset_does hreset
    rw [List.append_nil]
    exact .reset .none (.inl rfl) honly hview
  · rw [onlyIf, if_neg hwait] at habort
    obtain ⟨-, rfl, rfl⟩ := habort.of_ret
    exact .refused rfl

/-- What `PASV` after a `PRET` does: the slave and a new transaction are in force, and the
connection is passive when the slave has answered. -/
inductive InitTurn (cfg : Config) (cmd : PretCmd) (w w' : World) : List Call → Prop where
  | init (slave : SlaveInfo) (answer : RpcResult Reply) :
      (cmd ≠ .stor → slave = slaveOf w.db w.client.llPRET_fid) → answer ≠ .noReturn →
      w'.view = { w.view with
        llPRET_trans_id := ((w.db.transaction_counter + 1 : ℕ) : ℤ), SlaveInfo := slave
        eDataConnection :=
          if answer = .exception then w.client.eDataConnection else .pasv } →
      w'.db = { w.db with transaction_counter := w.db.transaction_counter + 1 } →
      InitTurn cfg cmd w w' [⟨.initPasvDataConnection slave
        { server_ip := slave.host, trans_id := ((w.db.transaction_counter + 1 : ℕ) : ℤ) }
        cfg.usStart cfg.usLen, answer⟩]

theorem run_lookupSlaveInfoFid (db : Redis) (fid : ℤ) :
    run serveRedis (lookupSlaveInfoFid fid) db = .done (slaveOf db fid) db := by
  show run serveRedis (if db.stat (u32 fid) = .absent then _ else _) db = _
  unfold slaveOf
  by_cases h : db.stat (u32 fid) = .absent
  · rw [if_pos h, if_pos h]
    rfl
  · rw [if_neg h, if_neg h]
    rfl

/-- The slave `PASV` chooses: that of the file, or any. -/
theorem pasvSlave_does {cfg : Config} {cmd : PretCmd} {fid : ℤ} {slave : SlaveInfo}
    (h : Does env (pasvSlave cfg cmd fid) w slave w' cs) :
    w'.client = w.client ∧ w'.db = w.db ∧ cs = [] ∧ (cmd ≠ .stor → slave = slaveOf w.db fid) := by
  have hlookup : ∀ {w' : World}, Does env (redis (lookupSlaveInfoFid fid)) w slave w' cs →
      w'.client = w.client ∧ w'.db = w.db ∧ cs = [] ∧ (cmd ≠ .stor → slave = slaveOf w.db fid) := by
    intro w' h
    have hq : Every (Within []) (redis (lookupSlaveInfoFid fid)) :=
      within_redis_of_reads (reads_lookupSlaveInfoFid fid)
    have hrun := h.ends
    rw [run_redis, run_lookupSlaveInfoFid, Outcome.mapState_done, Outcome.done.injEq] at hrun
    obtain ⟨rfl, rfl⟩ := hrun
    exact ⟨rfl, rfl, h.quiet hq (by simp), fun _ => rfl⟩
  cases cmd with
  | retr => exact hlookup h
  | appe => exact hlookup h
  | stor =>
      have h₁ : Does env (if cfg.Slaves = [] then do
        sendReply (.line 550 "Can't store file.")
        return {}
      else getRandomSlave cfg) w slave w' cs := h
      by_cases hnone : cfg.Slaves = []
      · rw [if_pos hnone] at h₁
        obtain ⟨rfl, rfl, rfl⟩ := h₁.of_sendReply.of_ret
        exact ⟨rfl, rfl, rfl, fun hne => absurd rfl hne⟩
      · rw [if_neg hnone] at h₁
        have h₂ := h₁.of_sys rfl
        generalize hslave : cfg.Slaves[env w.clock .rand % cfg.Slaves.length % 65536]? = found at h₂
        cases found with
        | none => exact h₂.of_stop.elim
        | some s =>
            obtain ⟨rfl, rfl, rfl⟩ := h₂.of_ret
            exact ⟨rfl, rfl, rfl, fun hne => absurd rfl hne⟩

theorem pasvRemote_does {cfg : Config} {cmd : PretCmd} {u : Unit}
    (h : Does env (pasvRemote cfg cmd) w u w' cs) : InitTurn cfg cmd w w' cs := by
  obtain ⟨slave, w₁, cs₁, cs₂, hslave, h₁, rfl⟩ := h.of_client.of_bind
  obtain ⟨hclient, hdb, rfl, hfile⟩ := pasvSlave_does hslave
  obtain ⟨trans_id, w₂, cs₃, cs₄, htrans, h₂, rfl⟩ := h₁.of_modify.of_bind
  have hdraw : trans_id = ((w₁.db.transaction_counter + 1 : ℕ) : ℤ) ∧ w₂ = _ ∧ cs₃ = [] :=
    ⟨(Outcome.done.inj htrans.ends).1.symm, (Outcome.done.inj htrans.ends).2.symm,
      htrans.makes.symm⟩
  obtain ⟨rfl, rfl, rfl⟩ := hdraw
  obtain ⟨cs₅, rfl, h₃⟩ := h₂.of_modify.of_call rfl
  rw [List.nil_append, List.nil_append]
  rw [hdb] at h₃ ⊢
  generalize hanswer : env _ _ = answer at h₃ ⊢
  cases answer with
  | noReturn => exact h₃.of_stop.elim
  | exception =>
      obtain ⟨rfl, rfl⟩ := h₃.of_reply
      refine .init slave .exception hfile (by simp) ?_ rfl
      simp only [World.view, CommandState.view, hclient]
      rfl
  | reply reply =>
      have h₄ := h₃.of_sendReply
      have hend : w' = _ ∧ cs₅ = [] := ⟨(Outcome.done.inj h₄.ends).2.symm, h₄.makes.symm⟩
      obtain ⟨rfl, rfl⟩ := hend
      refine .init slave (.reply reply) hfile (by simp) ?_ rfl
      simp only [World.view, CommandState.view, hclient]
      rfl

/-- `PASV`. -/
theorem pasv_does {cfg : Config} {u : Unit} (h : Does env (cmdPasv cfg) w u w' cs) :
    (w.client.eStatus ≠ .waiting ∧ w'.view = w.view ∧ cs = []) ∨ (w.client.eStatus = .waiting ∧
      ((w.client.nPRET_CMD = none ∧ ResetTurn w w' .pasv cs) ∨
        ∃ cmd, w.client.nPRET_CMD = some cmd ∧ InitTurn cfg cmd w w' cs)) := by
  have h₁ := h.of_client
  by_cases hwait : w.client.eStatus = .waiting
  · rw [if_pos hwait] at h₁
    refine .inr ⟨hwait, ?_⟩
    cases hpret : w.client.nPRET_CMD with
    | none =>
        rw [hpret] at h₁
        exact .inl ⟨rfl, pasvLocal_does hwait h₁⟩
    | some cmd =>
        rw [hpret] at h₁
        exact .inr ⟨cmd, rfl, pasvRemote_does h₁⟩
  · rw [if_neg hwait] at h₁
    obtain ⟨rfl, rfl⟩ := h₁.of_reply
    exact .inl ⟨hwait, rfl, rfl⟩

/-- `PRET` changes what it is about and nothing else. -/
theorem pret_does {arg : Text} {u : Unit} (h : Does env (cmdPret arg) w u w' cs) :
    cs = [] ∧ w'.view =
      { w.view with nPRET_CMD := w'.client.nPRET_CMD, llPRET_fid := w'.client.llPRET_fid } := by
  have hq := within_cmdPret arg
  have hstatus : _ = _ := h.same hq (show Part.status ∉ [Part.pret] by simp)
  have hconn : _ = _ := h.same hq (show Part.connection ∉ [Part.pret] by simp)
  have hslave : _ ∧ _ := h.same hq (show Part.slave ∉ [Part.pret] by simp)
  refine ⟨h.quiet hq (by simp), ?_⟩
  simp only [World.view, CommandState.view, TransferView.mk.injEq]
  exact ⟨hstatus, hconn, trivial, trivial, hslave.1, hslave.2⟩

/-! ### A line -/

/-- The upload command of a command. -/
def Cmd.isTransfer : Cmd → Bool
  | .retr | .stor | .appe | .stou => true
  | _ => false

/-- What a line can do to the data connection. -/
inductive DataTurn (cfg : Config) (w w' : World) : Option Cmd → List Call → Prop where
  | quiet {nCmd : Option Cmd} : w'.view = w.view → DataTurn cfg w w' nCmd []
  | pret : w'.view = { w.view with
        nPRET_CMD := w'.client.nPRET_CMD, llPRET_fid := w'.client.llPRET_fid } →
      DataTurn cfg w w' (some .pret) []
  | port {cs : List Call} : w.client.eStatus = .waiting → ResetTurn w w' .port cs →
      DataTurn cfg w w' (some .port) cs
  | abor {cs : List Call} : ResetTurn w w' .none cs → DataTurn cfg w w' (some .abor) cs
  | pasv {cs : List Call} : w.client.eStatus = .waiting → w.client.nPRET_CMD = none →
      ResetTurn w w' .pasv cs → DataTurn cfg w w' (some .pasv) cs
  | init {cs : List Call} (cmd : PretCmd) : w.client.eStatus = .waiting →
      w.client.nPRET_CMD = some cmd → InitTurn cfg cmd w w' cs →
      DataTurn cfg w w' (some .pasv) cs
  | list {nCmd : Cmd} {cs : List Call} : nCmd = .list ∨ nCmd = .nlst ∨ nCmd = .stat →
      ListTurn w w' cs → DataTurn cfg w w' (some nCmd) cs
  | retrieve {cs : List Call} : TransferTurn w w' .retrieve .downloading cs →
      DataTurn cfg w w' (some .retr) cs
  | store {nCmd : Cmd} {cs : List Call} : nCmd = .stor ∨ nCmd = .appe ∨ nCmd = .stou →
      TransferTurn w w' .store .uploading cs → DataTurn cfg w w' (some nCmd) cs

/-! ### Turns that start a thread, and turns that do not -/

theorem OnlyCancels.not_create (h : OnlyCancels cs) (thread : TransferThread) (ok : Bool) :
    ⟨.pthread_create thread, ok⟩ ∉ cs := fun hmem => absurd (h _ hmem) (by simp)

theorem TransferView.Opens.not_create {v : TransferView} (h : v.Opens cs) (thread : TransferThread)
    (ok : Bool) : ⟨.pthread_create thread, ok⟩ ∉ cs := by
  intro hmem
  unfold TransferView.Opens at h
  split_ifs at h with hpasv
  · obtain ⟨r, rfl⟩ := h
    rw [List.mem_singleton, TransferView.opening, Call.mk.injEq] at hmem
    exact absurd hmem.1 (by simp)
  · rw [h] at hmem
    exact absurd hmem (by simp)

/-- A command that starts a thread starts its own, behind the connection to the slave. -/
theorem TransferTurn.of_started {thread t : TransferThread} {status : Status}
    (h : TransferTurn w w' thread status cs) (hmem : ⟨.pthread_create t, true⟩ ∈ cs) :
    t = thread ∧ w'.view = { w.view with eStatus := status } ∧ w'.Threaded ∧
      ∃ cs₁, w.view.Opens cs₁ ∧ cs = cs₁ ++ [⟨.pthread_create thread, true⟩] := by
  cases h with
  | refused _ => exact absurd hmem (by simp)
  | unopened _ _ =>
      rw [List.mem_singleton, TransferView.opening, Call.mk.injEq] at hmem
      exact absurd hmem.1 (by simp)
  | started hopens hview hthread =>
      rw [List.mem_append, List.mem_singleton] at hmem
      obtain hmem | hmem := hmem
      · exact absurd hmem (hopens.not_create t true)
      · rw [Call.mk.injEq, SysOp.pthread_create.injEq] at hmem
        exact ⟨hmem.1, hview, hthread, _, hopens, rfl⟩
  | failed hopens honly _ =>
      rw [List.mem_append, List.mem_cons] at hmem
      obtain hmem | hmem | hmem := hmem
      · exact absurd hmem (hopens.not_create t true)
      · simp at hmem
      · exact absurd hmem (honly.not_create t true)

/-- A listing that starts a thread was asked for while no transfer was going on. -/
theorem ListTurn.of_started {t : TransferThread} (h : ListTurn w w' cs)
    (hmem : ⟨.pthread_create t, true⟩ ∈ cs) :
    t = .list ∧ w.client.eStatus = .waiting ∧ w'.view = { w.view with eStatus := .listing } ∧
      w'.Threaded ∧ cs = [⟨.pthread_create .list, true⟩] := by
  cases h with
  | refused _ => exact absurd hmem (by simp)
  | unopened _ honly _ => exact absurd hmem (honly.not_create t true)
  | started hwait hview hthread =>
      rw [List.mem_singleton, Call.mk.injEq, SysOp.pthread_create.injEq] at hmem
      exact ⟨hmem.1, hwait, hview, hthread, rfl⟩
  | failed _ honly _ =>
      rw [List.mem_cons] at hmem
      obtain hmem | hmem := hmem
      · simp at hmem
      · exact absurd hmem (honly.not_create t true)

theorem ResetTurn.not_started {kind : DataConnection} (h : ResetTurn w w' kind cs)
    (t : TransferThread) : ⟨.pthread_create t, true⟩ ∉ cs := by
  cases h with
  | refused _ => simp
  | reset conn _ honly _ => exact honly.not_create t true

/-- What a line that starts a thread has done. -/
inductive Started (w w' : World) : Option Cmd → TransferThread → List Call → Prop where
  | list {nCmd : Cmd} : nCmd = .list ∨ nCmd = .nlst ∨ nCmd = .stat →
      w.client.eStatus = .waiting → w'.view = { w.view with eStatus := .listing } →
      w'.Threaded → Started w w' (some nCmd) .list [⟨.pthread_create .list, true⟩]
  | retrieve {cs₁ : List Call} : w.view.Opens cs₁ →
      w'.view = { w.view with eStatus := .downloading } → w'.Threaded →
      Started w w' (some .retr) .retrieve (cs₁ ++ [⟨.pthread_create .retrieve, true⟩])
  | store {nCmd : Cmd} {cs₁ : List Call} : nCmd = .stor ∨ nCmd = .appe ∨ nCmd = .stou →
      w.view.Opens cs₁ → w'.view = { w.view with eStatus := .uploading } → w'.Threaded →
      Started w w' (some nCmd) .store (cs₁ ++ [⟨.pthread_create .store, true⟩])

theorem DataTurn.of_started {cfg : Config} {nCmd : Option Cmd} {t : TransferThread}
    (h : DataTurn cfg w w' nCmd cs) (hmem : ⟨.pthread_create t, true⟩ ∈ cs) :
    Started w w' nCmd t cs := by
  cases h with
  | quiet _ => exact absurd hmem (by simp)
  | pret _ => exact absurd hmem (by simp)
  | port _ hreset => exact absurd hmem (hreset.not_started t)
  | abor hreset => exact absurd hmem (hreset.not_started t)
  | pasv _ _ hreset => exact absurd hmem (hreset.not_started t)
  | init cmd _ _ hinit =>
      cases hinit with
      | init slave answer _ _ _ _ =>
          rw [List.mem_singleton, Call.mk.injEq] at hmem
          exact absurd hmem.1 (by simp)
  | list hcmd hlist =>
      obtain ⟨rfl, hwait, hview, hthread, rfl⟩ := hlist.of_started hmem
      exact .list hcmd hwait hview hthread
  | retrieve htransfer =>
      obtain ⟨rfl, hview, hthread, cs₁, hopens, rfl⟩ := htransfer.of_started hmem
      exact .retrieve hopens hview hthread
  | store hcmd htransfer =>
      obtain ⟨rfl, hview, hthread, cs₁, hopens, rfl⟩ := htransfer.of_started hmem
      exact .store hcmd hopens hview hthread

/-- A line that starts no thread leaves the view alone or the data connection without a slave, but
for `PRET` and `PASV`. -/
theorem DataTurn.of_not_started {cfg : Config} {nCmd : Option Cmd}
    (h : DataTurn cfg w w' nCmd cs) (hno : ∀ t, ⟨.pthread_create t, true⟩ ∉ cs)
    (hpret : nCmd ≠ some .pret) (hpasv : nCmd = some .pasv → w.client.eStatus ≠ .waiting) :
    w'.view = w.view ∨ ∃ conn ≠ .pasv, w'.view = { w.view.reset with eDataConnection := conn } := by
  have hreset : w'.view = w.view.reset → ∃ conn ≠ DataConnection.pasv,
      w'.view = { w.view.reset with eDataConnection := conn } := fun h => ⟨.none, by simp, h⟩
  have htransfer : ∀ {thread status}, TransferTurn w w' thread status cs →
      w'.view = w.view ∨ ∃ conn ≠ .pasv, w'.view = { w.view.reset with eDataConnection := conn } := by
    intro thread status h
    cases h with
    | refused hview => exact .inl hview
    | unopened hview _ => exact .inl hview
    | started _ _ _ => exact absurd (by simp) (hno thread)
    | failed _ _ hview => exact .inr (hreset hview)
  have hkind : ∀ {kind}, kind ≠ .pasv → ResetTurn w w' kind cs →
      w'.view = w.view ∨ ∃ conn ≠ .pasv, w'.view = { w.view.reset with eDataConnection := conn } := by
    intro kind hkind h
    cases h with
    | refused hview => exact .inl hview
    | reset conn hconn _ hview =>
        refine .inr ⟨conn, ?_, hview⟩
        obtain rfl | rfl := hconn
        · simp
        · exact hkind
  cases h with
  | quiet hview => exact .inl hview
  | pret _ => exact absurd rfl hpret
  | port _ h => exact hkind (by simp) h
  | abor h => exact hkind (by simp) h
  | pasv hwait _ _ => exact absurd hwait (hpasv rfl)
  | init cmd hwait _ _ => exact absurd hwait (hpasv rfl)
  | list _ h =>
      cases h with
      | refused hview => exact .inl hview
      | unopened _ _ hview => exact hview.imp id hreset
      | started _ _ _ => exact absurd (by simp) (hno .list)
      | failed _ _ hview => exact .inr (hreset hview)
  | retrieve h => exact htransfer h
  | store _ h => exact htransfer h

/-! ### The commands behind the gate -/

theorem withPrivilege_does {ucPriv : ℕ} {body : CommandProg Unit} {u : Unit}
    (h : Does env (withPrivilege ucPriv body) w u w' cs) :
    (w'.view = w.view ∧ cs = []) ∨
      (w.client.checkPrivileges ucPriv = true ∧ Does env body w u w' cs) := by
  have h₁ := h.of_client
  by_cases hpriv : w.client.checkPrivileges ucPriv = true
  · rw [if_pos hpriv] at h₁
    exact .inr ⟨hpriv, h₁⟩
  · rw [if_neg hpriv] at h₁
    obtain ⟨rfl, rfl⟩ := h₁.of_reply
    exact .inl ⟨rfl, rfl⟩

theorem withArg_does {refusal : String} {body : Text → CommandProg Unit} {pszCmdArg : Option Text}
    {u : Unit} (h : Does env (withArg pszCmdArg refusal body) w u w' cs) :
    (w'.view = w.view ∧ cs = []) ∨ ∃ arg, pszCmdArg = some arg ∧ Does env (body arg) w u w' cs := by
  cases pszCmdArg with
  | none =>
      obtain ⟨rfl, rfl⟩ := h.of_reply
      exact .inl ⟨rfl, rfl⟩
  | some arg => exact .inr ⟨arg, rfl, h⟩

/-- A command that touches none of the fields. -/
theorem dataTurn_quiet {cfg : Config} {nCmd : Cmd} (hp : Every (Within ps) p)
    (hps : ∀ x ∈ ps, x ∈ [Part.rename, .settings, .socket, .transfer, .database, .counter])
    (h : Does env p w a w' cs) : DataTurn cfg w w' (some nCmd) cs := by
  have hcs : ∀ x ∈ ps, x ∉ [Part.create, .cancel, .init, .opening, .transferring] := by
    intro x hx
    have hmem := hps x hx
    cases x <;> simp_all
  rw [h.quiet hp hcs]
  refine .quiet (view_of_same hp h ?_)
  intro x hx hmem
  have hother := hps x hmem
  cases x <;> simp_all

/-- A `STOR` or `APPE` whose path is known, behind the login gate. -/
theorem does_upload {cmd : UploadCmd} (hcmd : cmd ≠ .stou) {arg path : Text} {ok : Bool}
    (hpriv : w.client.checkPrivileges WRITEFILE = true)
    (hpath : w.client.buildPath (some arg) = some path)
    (h : Does env (openSlaveConnection >>= fun opened =>
      if opened then startStore cmd path else return false) w ok w' cs) :
    Does env (withPrivilege WRITEFILE (discard (cmdStore cmd (some arg)))) w () w' cs := by
  have hupload : Does env (uploadPath cmd (some arg)) w (some path) w [] := by
    rw [← hpath]
    cases cmd with
    | stor => exact ⟨rfl, rfl⟩
    | appe => exact ⟨rfl, rfl⟩
    | stou => exact absurd rfl hcmd
  have hstore : Does env (cmdStore cmd (some arg)) w ok w' cs := by
    unfold cmdStore
    rw [if_pos (.inl rfl)]
    exact hupload.bind h
  have hbody : Does env (discard (cmdStore cmd (some arg))) w () w' cs := by
    rw [← List.append_nil cs]
    exact hstore.bind ⟨rfl, rfl⟩
  have hgate : Does env (if w.client.checkPrivileges WRITEFILE then
      discard (cmdStore cmd (some arg)) else sendReply (.line 550 "Permission denied.")) w () w'
      cs := by
    rw [if_pos hpriv]
    exact hbody
  exact ⟨hgate.ends, hgate.makes⟩

/-- What the commands behind the login gate do to the data connection. -/
theorem shellCmd_does {cfg : Config} {nCmd : Cmd} {pszCmdArg : Option Text} {u : Unit}
    (h : Does env (shellCmd cfg nCmd pszCmdArg) w u w' cs) :
    DataTurn cfg w w' (some nCmd) cs := by
  have hlist : ∀ {nCmd' : Cmd}, nCmd = .list ∨ nCmd = .nlst ∨ nCmd = .stat →
      Does env (withPrivilege LIST (cmdList cfg nCmd' pszCmdArg)) w u w' cs →
      DataTurn cfg w w' (some nCmd) cs := by
    intro nCmd' hcmd h
    obtain ⟨hview, rfl⟩ | ⟨-, h₁⟩ := withPrivilege_does h
    · exact .quiet hview
    · exact .list hcmd (list_does h₁)
  have hstore : ∀ cmd, nCmd = .stor ∨ nCmd = .appe ∨ nCmd = .stou →
      Does env (withPrivilege WRITEFILE (discard (cmdStore cmd pszCmdArg))) w u w' cs →
      DataTurn cfg w w' (some nCmd) cs := by
    intro cmd hcmd h
    obtain ⟨hview, rfl⟩ | ⟨-, h₁⟩ := withPrivilege_does h
    · exact .quiet hview
    · obtain ⟨ok, w₁, cs₁, cs₂, h₂, hret, rfl⟩ := h₁.of_bind
      obtain ⟨-, rfl, rfl⟩ := hret.of_ret
      rw [List.append_nil]
      exact .store hcmd (store_does h₂)
  cases nCmd with
  | port =>
      obtain ⟨rfl, hview⟩ | ⟨hwait, hturn⟩ := port_does h
      · exact .quiet hview
      · exact .port hwait hturn
  | pret =>
      obtain ⟨hview, rfl⟩ | ⟨arg, -, h₁⟩ := withArg_does h
      · exact .quiet hview
      · obtain ⟨rfl, hview⟩ := pret_does h₁
        exact .pret hview
  | pasv =>
      obtain ⟨-, hview, rfl⟩ | ⟨hwait, ⟨hpret, hturn⟩ | ⟨cmd, hpret, hturn⟩⟩ := pasv_does h
      · exact .quiet hview
      · exact .pasv hwait hpret hturn
      · exact .init cmd hwait hpret hturn
  | list => exact hlist (by simp) h
  | nlst => exact hlist (by simp) h
  | stat =>
      have h₁ : Does env (if pszCmdArg = none then
          sendReply (.line 211 ":: CFtpServer / Browser FTP Server:: thebrowser@gmail.com")
        else withPrivilege LIST (cmdList cfg .stat pszCmdArg)) w u w' cs := h
      by_cases harg : pszCmdArg = none
      · rw [if_pos harg] at h₁
        obtain ⟨rfl, rfl⟩ := h₁.of_reply
        exact .quiet rfl
      · rw [if_neg harg] at h₁
        exact hlist (by simp) h₁
  | abor => exact .abor (abor_does h)
  | retr =>
      obtain ⟨hview, rfl⟩ | ⟨-, h₁⟩ := withPrivilege_does h
      · exact .quiet hview
      · obtain ⟨hview, rfl⟩ | ⟨arg, -, h₂⟩ := withArg_does h₁
        · exact .quiet hview
        · exact .retrieve (retr_does h₂)
  | stor => exact hstore .stor (by simp) h
  | appe => exact hstore .appe (by simp) h
  | stou => exact hstore .stou (by simp) h
  | _ => exact dataTurn_quiet (shellCmd_within cfg _ pszCmdArg) (by simp [Cmd.parts]) h

/-- A line that touches none of the fields. -/
theorem line_quiet {p : ShellProg α} (hp : Every (ShellWithin ps) p)
    (hps : ∀ x ∈ ps, x ∈ [Part.rename, .settings, .socket, .transfer, .database, .counter])
    (hrun : run (serveShell env) p w = .done a w') :
    w'.view = w.view ∧ lineCalls env p w = [] := by
  have hnot : ∀ x ∈ [Part.status, .connection, .pret, .slave], x ∉ ps := by
    intro x hx hmem
    have hother := hps x hmem
    cases x <;> simp_all
  have hsame : ∀ x ∈ [Part.status, .connection, .pret, .slave],
      x.Same w.client.toCommandState w'.client.toCommandState := by
    intro x hx
    have h := run_shell_same hp (hnot x hx) env w
    rw [hrun] at h
    exact h
  refine ⟨?_, hp.trace_eq_nil (serveShell env) noteShell ?_ w⟩
  · have hstatus : _ = _ := hsame .status (by simp)
    have hconn : _ = _ := hsame .connection (by simp)
    have hpret : _ ∧ _ := hsame .pret (by simp)
    have hslave : _ ∧ _ := hsame .slave (by simp)
    simp only [World.view, CommandState.view, TransferView.mk.injEq]
    exact ⟨hstatus, hconn, hpret.1, hpret.2, hslave.1, hslave.2⟩
  · intro o r ho
    cases o with
    | login f => rfl
    | command o =>
        refine noteCommand_none r ho ?_
        intro x hx
        have hmem := hps x hx
        cases x <;> simp_all

/-- A command makes the same calls in a session as alone. -/
theorem lineCalls_command (p : CommandProg α) : lineCalls env (command p) w = calls env p w :=
  trace_translate (I := CommandI) (J := ShellI) (h := serveCommand env) (g := serveShell env)
    (φ := ShellOp.command) (ρ := fun _ r => r) (fun _ _ => ⟨rfl, rfl⟩) (fun _ _ => rfl) p w

theorem lineCalls_command_bind (p : CommandProg α) (f : α → ShellProg β)
    (hf : ∀ a w, lineCalls env (f a) w = []) :
    lineCalls env (command p >>= f) w = calls env p w := by
  rw [lineCalls, trace_bind, ← lineCalls, lineCalls_command]
  cases run (serveShell env) (command p) w with
  | done a t =>
      show calls env p w ++ lineCalls env (f a) t = _
      rw [hf, List.append_nil]
  | stopped why t => exact List.append_nil _

/-- A command that is not refused at the gate runs alone. -/
theorem does_of_dispatch {nCmd : Cmd} {pszCmdArg : Option Text} {next : Next}
    (hnot : nCmd ∉ [Cmd.quit, .user, .pass, .cwd, .xcwd, .cdup, .xcup])
    (hlogged : w.client.bIsLogged = true)
    (hrun : run (serveShell env) (dispatch cfg (some nCmd) pszCmdArg) w = .done next w') :
    Does env (shellCmd cfg nCmd pszCmdArg) w () w'
      (lineCalls env (dispatch cfg (some nCmd) pszCmdArg) w) := by
  simp only [List.mem_cons, List.not_mem_nil, or_false, not_or] at hnot
  obtain ⟨hquit, huser, hpass, hcwd, hxcwd, hcdup, hxcup⟩ := hnot
  have hcwds : ¬ (nCmd = .cwd ∨ nCmd = .xcwd) := by simp [hcwd, hxcwd]
  have hcdups : ¬ (nCmd = .cdup ∨ nCmd = .xcup) := by simp [hcdup, hxcup]
  rw [dispatch_logged hquit huser hpass hcwds hcdups hlogged] at hrun
  have hcalls : lineCalls env (dispatch cfg (some nCmd) pszCmdArg) w =
      calls env (shellCmd cfg nCmd pszCmdArg) w := by
    rw [dispatch_gate hquit huser hpass]
    show lineCalls env (if w.client.bIsLogged = true then _ else _) w = _
    rw [hlogged, if_pos rfl, shellLogged_command hcwds hcdups]
    exact lineCalls_command_bind _ _ fun _ _ => rfl
  cases hr : run (serveCommand env) (shellCmd cfg nCmd pszCmdArg) w with
  | stopped why w₁ => rw [hr] at hrun; exact absurd hrun (by simp)
  | done u w₁ =>
      rw [hr, Outcome.done_andThen, Outcome.done.injEq] at hrun
      obtain ⟨-, rfl⟩ := hrun
      exact ⟨hr, hcalls.symm⟩

theorem line_of_does {cfg : Config} {nCmd : Cmd} {pszCmdArg : Option Text} {u : Unit}
    (hnot : nCmd ∉ [Cmd.quit, .user, .pass, .cwd, .xcwd, .cdup, .xcup])
    (hlogged : w.client.bIsLogged = true) (h : Does env (shellCmd cfg nCmd pszCmdArg) w u w' cs) :
    run (serveShell env) (dispatch cfg (some nCmd) pszCmdArg) w = .done .continue w' ∧
      lineCalls env (dispatch cfg (some nCmd) pszCmdArg) w = cs := by
  have hrun : run (serveShell env) (dispatch cfg (some nCmd) pszCmdArg) w = .done .continue w' := by
    simp only [List.mem_cons, List.not_mem_nil, or_false, not_or] at hnot
    obtain ⟨hquit, huser, hpass, hcwd, hxcwd, hcdup, hxcup⟩ := hnot
    rw [dispatch_logged hquit huser hpass (by simp [hcwd, hxcwd]) (by simp [hcdup, hxcup]) hlogged,
      h.ends]
    rfl
  exact ⟨hrun, (does_of_dispatch hnot hlogged hrun).makes.symm.trans h.makes⟩

/-- A line of a client that is not logged in leaves the data connection alone. -/
theorem line_not_logged {cfg : Config} {nCmd : Option Cmd} {pszCmdArg : Option Text} {next : Next}
    (hlogged : w.client.bIsLogged = false)
    (hrun : run (serveShell env) (dispatch cfg nCmd pszCmdArg) w = .done next w') :
    w'.view = w.view ∧ lineCalls env (dispatch cfg nCmd pszCmdArg) w = [] := by
  have hquiet : (∀ x ∈ partsOf nCmd,
      x ∈ [Part.rename, .settings, .socket, .transfer, .database, .counter]) →
      w'.view = w.view ∧ lineCalls env (dispatch cfg nCmd pszCmdArg) w = [] :=
    fun hps => line_quiet (dispatch_within cfg nCmd pszCmdArg) hps hrun
  cases nCmd with
  | none => exact hquiet (by simp [partsOf])
  | some nCmd =>
      by_cases hfree : nCmd = .quit ∨ nCmd = .user ∨ nCmd = .pass
      · refine hquiet ?_
        obtain rfl | rfl | rfl := hfree <;> simp [partsOf, Cmd.parts]
      · rw [not_or, not_or] at hfree
        obtain ⟨hquit, huser, hpass⟩ := hfree
        have hclient := (turn_gated hquit huser hpass hlogged hrun).1
        refine ⟨by simp only [World.view, hclient], ?_⟩
        rw [dispatch_gate hquit huser hpass]
        show lineCalls env (if w.client.bIsLogged = true then _ else _) w = []
        rw [hlogged, if_neg (by simp)]
        rfl

/-- **What a line does** to the data connection. -/
theorem dataTurn_of_run {cfg : Config} {nCmd : Option Cmd} {pszCmdArg : Option Text} {next : Next}
    (hrun : run (serveShell env) (dispatch cfg nCmd pszCmdArg) w = .done next w') :
    DataTurn cfg w w' nCmd (lineCalls env (dispatch cfg nCmd pszCmdArg) w) := by
  have hquiet : ∀ ps', Every (ShellWithin ps') (dispatch cfg nCmd pszCmdArg) →
      (∀ x ∈ ps', x ∈ [Part.rename, .settings, .socket, .transfer, .database, .counter]) →
      DataTurn cfg w w' nCmd (lineCalls env (dispatch cfg nCmd pszCmdArg) w) := by
    intro ps' hp hps'
    obtain ⟨hview, hcalls⟩ := line_quiet hp hps' hrun
    rw [hcalls]
    exact .quiet hview
  cases nCmd with
  | none => exact hquiet _ (dispatch_within cfg none pszCmdArg) (by simp [partsOf])
  | some nCmd =>
      by_cases hharmless : ∀ x ∈ nCmd.parts,
          x ∈ [Part.rename, .settings, .socket, .transfer, .database, .counter]
      · exact hquiet _ (dispatch_within cfg (some nCmd) pszCmdArg) (by simpa [partsOf] using hharmless)
      · have hquit : nCmd ≠ .quit := by rintro rfl; simp [Cmd.parts] at hharmless
        have huser : nCmd ≠ .user := by rintro rfl; simp [Cmd.parts] at hharmless
        have hpass : nCmd ≠ .pass := by rintro rfl; simp [Cmd.parts] at hharmless
        have hcwd : ¬ (nCmd = .cwd ∨ nCmd = .xcwd) := by
          rintro (rfl | rfl) <;> simp [Cmd.parts] at hharmless
        have hcdup : ¬ (nCmd = .cdup ∨ nCmd = .xcup) := by
          rintro (rfl | rfl) <;> simp [Cmd.parts] at hharmless
        cases hlogged : w.client.bIsLogged with
        | false =>
            obtain ⟨hview, hcalls⟩ := line_not_logged hlogged hrun
            rw [hcalls]
            exact .quiet hview
        | true =>
            refine shellCmd_does (does_of_dispatch ?_ hlogged hrun)
            simp only [not_or] at hcwd hcdup
            simp [hquit, huser, hpass, hcwd, hcdup]

end ClusterFtpd
