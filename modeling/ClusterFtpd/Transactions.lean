import ClusterFtpd.LiveSession
import ClusterFtpd.Retrieve

/-!
# Passive transactions

A passive transfer takes three RPCs of one transaction: `InitPasvDataConnection` when `PASV` is
received, `OpenPasvDataConnection` when the transfer is asked for, and the transfer itself, which
the transfer thread sends.  Nothing records how far a transaction has come: the shell goes by
`eDataConnection` and `eStatus`, and passes the replies of the slave on without looking at them.

Main results:

* `transactions_in_order`: the RPCs of every transaction come in this order, to one slave, as long
  as the commands that start a transfer come when none is going on, and in passive mode behind a
  `PASV` of their own;
* `open_without_init`: a passive connection of the metaserver itself leads to an
  `OpenPasvDataConnection` without a transaction.
-/

namespace ClusterFtpd

open Interaction MachineInt

/-! ### The order of the RPCs -/

/-- The steps of a passive transaction. -/
inductive PassiveStep where
  | init | opening | transfer
  deriving DecidableEq

/-- An RPC of a passive transaction: its transaction, its slave and the code of the reply. -/
structure PassiveRpc where
  step : PassiveStep
  trans_id : ℤ
  slave : SlaveInfo
  code : Option ℕ

/-- The code of a reply, if there is one. -/
def RpcResult.code : RpcResult Reply → Option ℕ
  | .reply r => r.code
  | _ => none

/-- The RPC of a passive transaction that a call is. -/
def Call.passive : Call → Option PassiveRpc
  | ⟨.initPasvDataConnection slave p _ _, r⟩ => some ⟨.init, p.trans_id, slave, RpcResult.code r⟩
  | ⟨.openPasvDataConnection slave p, r⟩ => some ⟨.opening, p.trans_id, slave, RpcResult.code r⟩
  | ⟨.pasvStoreTransfer slave p _, _⟩ => some ⟨.transfer, p.trans_id, slave, none⟩
  | ⟨.pasvRetrieveTransfer slave p, _⟩ => some ⟨.transfer, p.trans_id, slave, none⟩
  | _ => none

/-- The RPCs of passive transactions. -/
def passives (sent : List Call) : List PassiveRpc := sent.filterMap Call.passive

/-- The RPCs of the transaction `t`. -/
def rpcs (t : ℤ) (sent : List Call) : List PassiveRpc := (passives sent).filter (·.trans_id = t)

/-- The protocol: each RPC only behind the reply it needs, and all to one slave. -/
inductive InOrder : List PassiveRpc → Prop where
  | idle : InOrder []
  | init (t : ℤ) (s : SlaveInfo) (c : Option ℕ) : InOrder [⟨.init, t, s, c⟩]
  | opened (t : ℤ) (s : SlaveInfo) (c : Option ℕ) :
      InOrder [⟨.init, t, s, some 227⟩, ⟨.opening, t, s, c⟩]
  | transferred (t : ℤ) (s : SlaveInfo) (c : Option ℕ) :
      InOrder [⟨.init, t, s, some 227⟩, ⟨.opening, t, s, some 150⟩, ⟨.transfer, t, s, c⟩]

/-- Every transaction is in order. -/
def TransactionsInOrder (sent : List Call) : Prop := ∀ t, InOrder (rpcs t sent)

variable {sent cs : List Call} {t : ℤ} {r : PassiveRpc}

theorem passives_append (sent cs : List Call) :
    passives (sent ++ cs) = passives sent ++ passives cs := List.filterMap_append

theorem rpcs_append (t : ℤ) (sent cs : List Call) : rpcs t (sent ++ cs) = rpcs t sent ++ rpcs t cs := by
  rw [rpcs, passives_append, List.filter_append]
  rfl

theorem rpcs_eq_nil (h : passives cs = []) (t : ℤ) : rpcs t cs = [] := by
  rw [rpcs, h]
  rfl

/-- One more RPC. -/
theorem rpcs_single (h : passives cs = [r]) (t : ℤ) :
    rpcs t cs = if r.trans_id = t then [r] else [] := by
  rw [rpcs, h, List.filter_cons, List.filter_nil]
  by_cases ht : r.trans_id = t <;> simp [ht]

/-- One RPC that continues its transaction leaves the others as they are. -/
theorem TransactionsInOrder.append (h : TransactionsInOrder sent) (hcs : passives cs = [r])
    (hr : InOrder (rpcs r.trans_id sent ++ [r])) : TransactionsInOrder (sent ++ cs) := by
  intro t
  rw [rpcs_append, rpcs_single hcs]
  by_cases ht : r.trans_id = t
  · rw [if_pos ht, ← ht]
    exact hr
  · rw [if_neg ht, List.append_nil]
    exact h t

theorem TransactionsInOrder.append_nil (h : TransactionsInOrder sent) (hcs : passives cs = []) :
    TransactionsInOrder (sent ++ cs) := by
  intro t
  rw [rpcs_append, rpcs_eq_nil hcs, List.append_nil]
  exact h t

/-- An `Init` behind which there is nothing but transfers is all there is. -/
theorem InOrder.of_init {xs ys : List PassiveRpc} (h : InOrder (xs ++ r :: ys))
    (hr : r.step = .init) (hys : ∀ d ∈ ys, d.step = .transfer) : xs = [] ∧ ys = [] := by
  cases xs with
  | nil =>
      refine ⟨rfl, ?_⟩
      rw [List.nil_append] at h
      cases h with
      | init t s c => rfl
      | opened t s c => exact absurd (hys _ (List.mem_singleton_self _)) (by simp)
      | transferred t s c => exact absurd (hys _ List.mem_cons_self) (by simp)
  | cons x xs =>
      -- behind its first RPC a transaction has no `Init`
      have hmem : ∀ d ∈ xs ++ r :: ys, d.step ≠ .init := by
        rw [List.cons_append] at h
        generalize xs ++ r :: ys = zs at h
        cases h <;> simp
      exact absurd hr (hmem r (by simp))

/-! ### What a transfer thread sends -/

/-- The fields a passive transfer goes by. -/
structure Target where
  eDataConnection : DataConnection
  llPRET_trans_id : ℤ
  SlaveInfo : SlaveInfo

/-- The target of a view. -/
def TransferView.target (v : TransferView) : Target :=
  ⟨v.eDataConnection, v.llPRET_trans_id, v.SlaveInfo⟩

/-- An operation of a thread whose view has the target `x`: it leaves the client entry alone, and
uses one of `n` transfers, leaving `m`, or none. -/
def Issues (x : Target) : CommandOp → ℕ → ℕ → Prop
  | .sys (.pasvStoreTransfer slave p _), n, m =>
      n = m + 1 ∧ p.trans_id = x.llPRET_trans_id ∧ slave = x.SlaveInfo
  | .sys (.pasvRetrieveTransfer slave p), n, m =>
      n = m + 1 ∧ p.trans_id = x.llPRET_trans_id ∧ slave = x.SlaveInfo
  | .sys o, n, m => n = m ∧ (o.part = none ∨ o.part = some .transferring)
  | .modify f, n, m => n = m ∧ ∀ c, f c = c
  | _, n, m => n = m

/-- What the thread reads while the view has the target `x`. -/
def Reads (x : Target) : (o : CommandOp) → o.Res → Prop
  | .client, c => c.toCommandState.view.target = x
  | _, _ => True

/-- The program sends at most `n` passive transfers, all to the target `x`. -/
def Sends (x : Target) {α : Type} : CommandProg α → ℕ → Prop
  | .ret _, _ => True
  | .stop _, _ => True
  | .call o k, n => ∃ m, Issues x o n m ∧ ∀ r, Reads x o r → Sends x (k r) m
  | .poll o _ k, n => ∃ m, Issues x o n m ∧ ∀ r, Reads x o r → Sends x (k r) m

variable {x : Target} {α β : Type} {n m : ℕ}

theorem Issues.add {o : CommandOp} (h : Issues x o n m) (k : ℕ) : Issues x o (n + k) (m + k) := by
  cases o with
  | sys o =>
      cases o <;> simp only [Issues] at h ⊢ <;> first
        | exact ⟨by omega, h.2⟩
  | modify f => exact ⟨by rw [h.1], h.2⟩
  | _ =>
      have heq : n = m := h
      show n + k = m + k
      rw [heq]

theorem Sends.add {p : CommandProg α} (h : Sends x p n) (k : ℕ) : Sends x p (n + k) := by
  induction p generalizing n with
  | ret a => trivial
  | stop w => trivial
  | call o f ih =>
      obtain ⟨m, hissue, hrest⟩ := h
      exact ⟨m + k, hissue.add k, fun r hr => ih r (hrest r hr)⟩
  | poll o again f ih =>
      obtain ⟨m, hissue, hrest⟩ := h
      exact ⟨m + k, hissue.add k, fun r hr => ih r (hrest r hr)⟩

theorem Sends.bind {p : CommandProg α} {f : α → CommandProg β} (hp : Sends x p n)
    (hf : ∀ a, Sends x (f a) m) : Sends x (p >>= f) (n + m) := by
  induction p generalizing n with
  | ret a =>
      rw [Nat.add_comm]
      exact (hf a).add n
  | stop w => trivial
  | call o k ih =>
      obtain ⟨l, hissue, hrest⟩ := hp
      exact ⟨l + m, hissue.add m, fun r hr => ih r (hrest r hr)⟩
  | poll o again k ih =>
      obtain ⟨l, hissue, hrest⟩ := hp
      exact ⟨l + m, hissue.add m, fun r hr => ih r (hrest r hr)⟩

/-- A program without transfers sends none. -/
theorem sends_redis (p : RedisProg α) : Sends x (redis p) 0 := by
  induction p with
  | ret a => trivial
  | stop w => trivial
  | call o k ih => exact ⟨0, rfl, fun r _ => ih r⟩
  | poll o again k ih => exact ⟨0, rfl, fun r _ => ih r⟩

theorem sends_client_bind {f : Client → CommandProg α}
    (hf : ∀ c : Client, c.toCommandState.view.target = x → Sends x (f c) n) :
    Sends x (client >>= f) n := ⟨n, rfl, fun c hc => hf c hc⟩

theorem sends_reply_bind {r : Reply} {f : Unit → CommandProg α} (hf : ∀ u, Sends x (f u) n) :
    Sends x (sendReply r >>= f) n := ⟨n, rfl, fun u _ => hf u⟩

theorem sends_sys_bind {o : SysOp} {f : o.Res → CommandProg α} (ho : o.part = none)
    (hf : ∀ r, Sends x (f r) n) : Sends x (sys o >>= f) n := by
  refine ⟨n, ?_, fun r _ => hf r⟩
  cases o <;> first | exact ⟨rfl, .inl ho⟩ | exact absurd ho (by simp [SysOp.part])

theorem sends_reply (r : Reply) : Sends x (sendReply r) 0 := ⟨0, rfl, fun _ _ => trivial⟩

theorem sends_rpc {γ : Type} (answer : RpcResult γ) : Sends x (rpc answer) 0 := by
  cases answer <;> trivial

theorem sends_randomPort (cfg : Config) : Sends x (randomPort cfg) 0 := by
  refine sends_sys_bind rfl fun r => ?_
  split <;> trivial

theorem sends_getRandomSlave (cfg : Config) : Sends x (getRandomSlave cfg) 0 := by
  refine sends_sys_bind rfl fun r => ?_
  split <;> trivial

theorem sends_recordUpload (retval : StorRetVal) (fid : ℤ) (slave : SlaveInfo) :
    Sends x (recordUpload retval fid slave) 0 := by
  unfold recordUpload
  split_ifs
  · refine sends_client_bind fun c _ => ?_
    cases c.pUser with
    | none => trivial
    | some u => exact sends_sys_bind rfl fun now => (sends_redis _).bind (m := 0) fun _ => trivial
  · trivial

theorem sends_finishUpload (fid : ℤ) (slave : SlaveInfo) (answer : RpcResult StorRetVal) :
    Sends x (finishUpload fid slave answer) 0 := by
  refine (sends_rpc answer).bind (m := 0) fun a => ?_
  cases a with
  | none => exact sends_reply_bind fun _ => trivial
  | some retval => exact (sends_recordUpload retval fid slave).bind (m := 0) fun _ => trivial

theorem sends_finishRetrieve (answer : RpcResult Reply) : Sends x (finishRetrieve answer) 0 := by
  refine (sends_rpc answer).bind (m := 0) fun a => ?_
  cases a with
  | none => exact sends_reply_bind fun _ => trivial
  | some retval => trivial

theorem sends_storeActive (cfg : Config) (iflags : OpenFlag) (fid : ℤ) :
    Sends x (storeActive cfg iflags fid) 0 := by
  unfold storeActive
  split_ifs
  · exact sends_reply_bind fun _ => trivial
  · refine (sends_getRandomSlave cfg).bind (m := 0) fun slave => ?_
    refine (sends_redis _).bind (m := 0) fun trans_id => sends_client_bind fun c _ => ?_
    refine (sends_randomPort cfg).bind (m := 0) fun port => sends_reply_bind fun _ => ?_
    exact ⟨0, ⟨rfl, .inr rfl⟩, fun answer _ => sends_finishUpload fid slave answer⟩

theorem sends_retrieveActive (cfg : Config) (fid : ℤ) : Sends x (retrieveActive cfg fid) 0 := by
  unfold retrieveActive
  split_ifs
  · refine sends_client_bind fun c _ => (sends_redis _).bind (m := 0) fun slave => ?_
    refine (sends_redis _).bind (m := 0) fun trans_id => sends_client_bind fun c _ => ?_
    refine (sends_randomPort cfg).bind (m := 0) fun port => sends_reply_bind fun _ => ?_
    exact ⟨0, ⟨rfl, .inr rfl⟩, fun answer _ => sends_finishRetrieve answer⟩
  · trivial

theorem sends_storePassive (cfg : Config) (iflags : OpenFlag) (fid : ℤ) :
    Sends x (storePassive cfg iflags fid) 1 := by
  refine sends_client_bind fun c _ => ?_
  split_ifs
  · exact sends_reply_bind fun _ => trivial
  · refine sends_client_bind fun c hc => sends_client_bind fun c' hc' => ?_
    have hslave : c.SlaveInfo = x.SlaveInfo := congrArg Target.SlaveInfo hc
    have htrans : c'.llPRET_trans_id = x.llPRET_trans_id := congrArg Target.llPRET_trans_id hc'
    exact ⟨0, ⟨rfl, htrans, hslave⟩, fun answer _ => sends_finishUpload fid _ answer⟩

theorem sends_retrievePassive (cfg : Config) (fid : ℤ) : Sends x (retrievePassive cfg fid) 1 := by
  refine sends_client_bind fun c _ => ?_
  split_ifs
  · exact sends_reply_bind fun _ => trivial
  · refine sends_client_bind fun c _ => ?_
    split_ifs
    · exact sends_reply_bind fun _ => trivial
    · refine sends_client_bind fun c hc => sends_client_bind fun c' hc' => ?_
      have hslave : c.SlaveInfo = x.SlaveInfo := congrArg Target.SlaveInfo hc
      have htrans : c'.llPRET_trans_id = x.llPRET_trans_id := congrArg Target.llPRET_trans_id hc'
      exact ⟨0, ⟨rfl, htrans, hslave⟩, fun answer _ => sends_finishRetrieve answer⟩

theorem sends_whenConnected {kind : DataConnection} {msg : Option Reply}
    {half : CommandProg (Option Reply)} (h : x.eDataConnection = kind → Sends x half n) :
    Sends x (whenConnected kind msg half) n := by
  cases msg with
  | none => trivial
  | some msg =>
      refine sends_client_bind fun c hc => ?_
      have hconn : c.eDataConnection = x.eDataConnection := congrArg Target.eDataConnection hc
      rw [hconn]
      split_ifs with hkind
      · exact h hkind
      · trivial

theorem sends_sendLast (msg : Option Reply) : Sends x (sendLast msg) 0 := by
  cases msg with
  | none => trivial
  | some msg => exact sends_reply msg

/-- The number of passive transfers a target allows. -/
def Target.allows (x : Target) : ℕ := if x.eDataConnection = .pasv then 1 else 0

theorem sends_passiveHalf {msg : Option Reply} {half : CommandProg (Option Reply)}
    (h : Sends x half 1) : Sends x (whenConnected .pasv msg half >>= sendLast) x.allows := by
  refine Sends.bind (n := x.allows) (m := 0) (sends_whenConnected fun hpasv => ?_) sends_sendLast
  rw [Target.allows, if_pos hpasv]
  exact h

theorem sends_listTransfer : Sends x listTransfer 0 := by
  refine sends_client_bind fun c _ => ?_
  refine Sends.bind (m := 0) (n := 0) ?_ fun _ => sends_client_bind fun c _ => ?_
  · unfold onlyIf
    split_ifs
    · trivial
    · exact (sends_redis _).bind (m := 0) fun _ => trivial
  · split_ifs <;> exact sends_reply _

/-- **A transfer thread** sends at most one passive transfer, and only in passive mode. -/
theorem sends_body (cfg : Config) (thread : TransferThread) :
    Sends x (thread.body cfg) x.allows := by
  cases thread with
  | list =>
      rw [← Nat.zero_add x.allows]
      exact sends_listTransfer.add _
  | retrieve =>
      refine sends_client_bind fun c _ => ?_
      rw [← Nat.zero_add x.allows]
      refine (sends_redis _).bind fun fid => ?_
      rw [← Nat.zero_add x.allows]
      refine (sends_whenConnected fun _ => sends_retrieveActive cfg fid).bind fun msg => ?_
      exact sends_passiveHalf (sends_retrievePassive cfg fid)
  | store =>
      refine sends_client_bind fun c _ => ?_
      rw [← Nat.zero_add x.allows]
      refine (sends_redis _).bind fun fid => ?_
      rw [← Nat.zero_add x.allows]
      refine (sends_whenConnected fun _ => sends_storeActive cfg _ fid).bind fun msg => ?_
      exact sends_passiveHalf (sends_storePassive cfg _ fid)

/-! ### The counter -/

theorem serveRedis_counter (o : RedisOp) (db : Redis) :
    db.transaction_counter ≤ (serveRedis o db).2.transaction_counter := by
  cases o with
  | incrTransactionCounter => exact Nat.le_succ _
  | multiExec ws =>
      have heq : (applyAll ws db).transaction_counter = db.transaction_counter := by
        induction ws generalizing db with
        | nil => rfl
        | cons w ws ih => simp [ih]
      exact heq.ge
  | _ => exact le_refl _

theorem serveCommand_counter (env : Env) (o : CommandOp) (w : World) :
    w.db.transaction_counter ≤ (serveCommand env o w).2.db.transaction_counter := by
  cases o with
  | redis o => exact serveRedis_counter o w.db
  | _ => exact le_refl _

/-- No line takes a transaction number back. -/
theorem run_counter (env : Env) (p : ShellProg α) (w : World) :
    w.db.transaction_counter ≤ (run (serveShell env) p w).state.db.transaction_counter := by
  refine (every_true p).run_state (serveShell env)
    (R := fun s t => s.db.transaction_counter ≤ t.db.transaction_counter) (fun _ => le_refl _)
    (fun _ _ _ h₁ h₂ => le_trans h₁ h₂) (fun o _ s => ?_) w
  cases o with
  | command o => exact serveCommand_counter env o s
  | login f => exact le_refl _

/-! ### The invariant -/

/-- The last `Init` or `Open` of the session is an `Init` that was answered 227. -/
def InitAnswered (sent : List Call) : Prop :=
  ∃ earlier r later, passives sent = earlier ++ r :: later ∧ r.step = .init ∧ r.code = some 227 ∧
    ∀ d ∈ later, d.step = .transfer

/-- A command that starts a transfer comes when none is going on; in passive mode the last `Init` or
`Open` is an `Init` that was answered 227; and the slave answers the `Open` with 150. -/
def KeepsOrder : LiveCondition := fun s sent who cs => ∀ nCmd, who = .line nCmd → Blind nCmd →
  s.world.client.eStatus = .waiting ∧
    (s.world.client.eDataConnection = .pasv → InitAnswered sent) ∧
    ∀ slave p r, ⟨.openPasvDataConnection slave p, .reply r⟩ ∈ cs → r.code = some 150

/-- The transaction of the client entry has come as far as the transfer. -/
def ReadyToTransfer (x : Target) (sent : List Call) : Prop :=
  rpcs x.llPRET_trans_id sent = [⟨.init, x.llPRET_trans_id, x.SlaveInfo, some 227⟩,
    ⟨.opening, x.llPRET_trans_id, x.SlaveInfo, some 150⟩]

/-- The transfer threads of a session and its status. -/
inductive Busy (s : LiveSession) (sent : List Call) : Prop where
  | no : s.threads = [] → s.world.client.eStatus = .waiting → Busy s sent
  | yes (p : CommandProg Unit) (n : ℕ) : s.threads = [p] → s.world.client.eStatus ≠ .waiting →
      s.world.Threaded → Sends s.world.view.target p n → n ≤ 1 →
      (n = 1 → ReadyToTransfer s.world.view.target sent) → Busy s sent

/-- What a run knows about its transactions. -/
structure TransactionInv (s : LiveSession) (sent : List Call) : Prop where
  ordered : TransactionsInOrder sent
  drawn : ∀ r ∈ passives sent, r.trans_id ≤ s.world.db.transaction_counter
  last : ∀ earlier r later, passives sent = earlier ++ r :: later → r.step = .init →
    (∀ d ∈ later, d.step ≠ .init) →
    r.trans_id = s.world.view.llPRET_trans_id ∧ r.slave = s.world.view.SlaveInfo
  busy : Busy s sent

variable {s s' : LiveSession} {cfg : Config} {env : Env} {w w' : World}

/-- The transaction that a passive transfer is about to open. -/
theorem TransactionInv.answered (h : TransactionInv s sent) (hinit : InitAnswered sent) :
    rpcs s.world.view.llPRET_trans_id sent =
      [⟨.init, s.world.view.llPRET_trans_id, s.world.view.SlaveInfo, some 227⟩] := by
  obtain ⟨earlier, r, later, heq, hstep, hcode, hlater⟩ := hinit
  have hno : ∀ d ∈ later, d.step ≠ .init := by
    intro d hd
    rw [hlater d hd]
    simp
  obtain ⟨htrans, hslave⟩ := h.last earlier r later heq hstep hno
  have hin := h.ordered s.world.view.llPRET_trans_id
  rw [rpcs, heq, List.filter_append, List.filter_cons, if_pos (by simpa using htrans)] at hin ⊢
  obtain ⟨hnil, hnil'⟩ := hin.of_init hstep fun d hd => hlater d (List.mem_filter.mp hd).1
  rw [hnil, hnil', List.nil_append, List.cons.injEq]
  refine ⟨?_, rfl⟩
  obtain ⟨step, trans_id, slave, code⟩ := r
  simp_all

/-- Calls without an `Init` leave the last one as it is. -/
theorem TransactionInv.last_append (h : TransactionInv s sent)
    (hcs : ∀ d ∈ passives cs, d.step ≠ .init)
    (htrans : s'.world.view.llPRET_trans_id = s.world.view.llPRET_trans_id)
    (hslave : s'.world.view.SlaveInfo = s.world.view.SlaveInfo) :
    ∀ earlier r later, passives (sent ++ cs) = earlier ++ r :: later → r.step = .init →
      (∀ d ∈ later, d.step ≠ .init) →
      r.trans_id = s'.world.view.llPRET_trans_id ∧ r.slave = s'.world.view.SlaveInfo := by
  intro earlier r later heq hstep hlater
  rw [htrans, hslave]
  rw [passives_append, List.append_eq_append_iff] at heq
  obtain ⟨a, -, hmid⟩ | ⟨a, hsent, hmid⟩ := heq
  · exact absurd hstep (hcs r (by rw [hmid]; simp))
  · cases a with
    | nil =>
        rw [List.nil_append] at hmid
        exact absurd hstep (hcs r (by rw [← hmid]; simp))
    | cons d later' =>
        rw [List.cons_append, List.cons.injEq] at hmid
        obtain ⟨rfl, rfl⟩ := hmid
        exact h.last earlier r later' hsent hstep fun d hd => hlater d (by simp [hd])

/-- A step without RPCs of passive transactions. -/
theorem TransactionInv.quiet (h : TransactionInv s sent) (hcs : passives cs = [])
    (hcounter : s.world.db.transaction_counter ≤ s'.world.db.transaction_counter)
    (htrans : s'.world.view.llPRET_trans_id = s.world.view.llPRET_trans_id)
    (hslave : s'.world.view.SlaveInfo = s.world.view.SlaveInfo) (hbusy : Busy s' (sent ++ cs)) :
    TransactionInv s' (sent ++ cs) := by
  refine ⟨h.ordered.append_nil hcs, ?_, h.last_append (by simp [hcs]) htrans hslave, hbusy⟩
  intro r hr
  rw [passives_append, hcs, List.append_nil] at hr
  have hdrawn := h.drawn r hr
  omega

/-- A step that sends the next RPC of the transaction of the client entry. -/
theorem TransactionInv.send (h : TransactionInv s sent) (hcs : passives cs = [r])
    (hstep : r.step ≠ .init) (hr : r.trans_id = s.world.view.llPRET_trans_id)
    (hin : InOrder (rpcs s.world.view.llPRET_trans_id sent ++ [r]))
    (hne : rpcs s.world.view.llPRET_trans_id sent ≠ [])
    (hcounter : s.world.db.transaction_counter ≤ s'.world.db.transaction_counter)
    (htrans : s'.world.view.llPRET_trans_id = s.world.view.llPRET_trans_id)
    (hslave : s'.world.view.SlaveInfo = s.world.view.SlaveInfo) (hbusy : Busy s' (sent ++ cs)) :
    TransactionInv s' (sent ++ cs) := by
  refine ⟨h.ordered.append hcs (by rw [hr]; exact hin), ?_,
    h.last_append (by simp [hcs, hstep]) htrans hslave, hbusy⟩
  have hold : s.world.view.llPRET_trans_id ≤ s.world.db.transaction_counter := by
    obtain ⟨d, hd⟩ := List.exists_mem_of_ne_nil _ hne
    obtain ⟨hmem, hid⟩ := List.mem_filter.mp hd
    have hdrawn := h.drawn d hmem
    rw [of_decide_eq_true hid] at hdrawn
    exact hdrawn
  intro d hd
  rw [passives_append, hcs, List.mem_append, List.mem_singleton] at hd
  obtain hd | rfl := hd
  · have hdrawn := h.drawn d hd
    omega
  · rw [hr]
    omega

/-! ### Lines -/

theorem passives_onlyCancels (h : OnlyCancels cs) : passives cs = [] := by
  induction cs with
  | nil => rfl
  | cons c cs ih =>
      obtain ⟨op, res⟩ := c
      have hop : op = .pthread_cancel := h ⟨op, res⟩ List.mem_cons_self
      subst hop
      exact ih fun d hd => h d (List.mem_cons_of_mem _ hd)

theorem threadsAfter_append (ts : List (CommandProg Unit)) (cs cs' : List Call) :
    threadsAfter cfg ts (cs ++ cs') = threadsAfter cfg (threadsAfter cfg ts cs) cs' :=
  List.foldl_append

theorem threadsAfter_onlyCancels (h : OnlyCancels cs) : threadsAfter cfg [] cs = [] := by
  induction cs with
  | nil => rfl
  | cons c cs ih =>
      obtain ⟨op, res⟩ := c
      have hop : op = .pthread_cancel := h ⟨op, res⟩ List.mem_cons_self
      subst hop
      exact ih fun d hd => h d (List.mem_cons_of_mem _ hd)

/-- The calls in front of a transfer. -/
theorem passives_opens (cfg : Config) (hopens : w.view.Opens cs)
    (h150 : ∀ slave p r, ⟨.openPasvDataConnection slave p, .reply r⟩ ∈ cs → r.code = some 150) :
    threadsAfter cfg [] cs = [] ∧
      ((w.view.eDataConnection = .pasv ∧ passives cs =
          [⟨.opening, w.view.llPRET_trans_id, w.view.SlaveInfo, some 150⟩]) ∨
        (w.view.eDataConnection ≠ .pasv ∧ passives cs = [])) := by
  unfold TransferView.Opens at hopens
  split_ifs at hopens with hpasv
  · obtain ⟨r, rfl⟩ := hopens
    refine ⟨rfl, .inl ⟨hpasv, ?_⟩⟩
    have hcode := h150 _ _ r (List.mem_singleton_self _)
    show [PassiveRpc.mk .opening w.view.llPRET_trans_id w.view.SlaveInfo r.code] = _
    rw [hcode]
  · rw [hopens]
    exact ⟨rfl, .inr ⟨hpasv, rfl⟩⟩

/-- A command that starts a transfer. -/
theorem TransactionInv.transferTurn {thread : TransferThread} {status : Status} {opened : Bool}
    (h : TransactionInv s sent) (hidle : s.threads = []) (hwait : s.world.client.eStatus = .waiting)
    (hstatus : status ≠ .waiting) (hturn : TransferTurn s.world w' thread status cs)
    (hpasv : s.world.client.eDataConnection = .pasv → InitAnswered sent)
    (h150 : ∀ slave p r, ⟨.openPasvDataConnection slave p, .reply r⟩ ∈ cs → r.code = some 150)
    (hcounter : s.world.db.transaction_counter ≤ w'.db.transaction_counter) :
    TransactionInv ⟨w', threadsAfter cfg s.threads cs, opened⟩ (sent ++ cs) := by
  rw [hidle]
  have hopened : ∀ {c : Option ℕ} {cs' : List Call} {s' : LiveSession},
      s.world.client.eDataConnection = .pasv →
      passives cs' = [⟨.opening, s.world.view.llPRET_trans_id, s.world.view.SlaveInfo, c⟩] →
      s.world.db.transaction_counter ≤ s'.world.db.transaction_counter →
      s'.world.view.llPRET_trans_id = s.world.view.llPRET_trans_id →
      s'.world.view.SlaveInfo = s.world.view.SlaveInfo → Busy s' (sent ++ cs') →
      TransactionInv s' (sent ++ cs') := by
    intro c cs' s' hconn hcs hcount htrans hslave hbusy
    have hinit := h.answered (hpasv hconn)
    refine h.send hcs (by simp) rfl ?_ (by rw [hinit]; simp) hcount htrans hslave hbusy
    rw [hinit]
    exact .opened _ _ _
  cases hturn with
  | refused hview =>
      refine h.quiet rfl hcounter (congrArg _ hview) (congrArg _ hview) (.no rfl ?_)
      exact (congrArg TransferView.eStatus hview).trans hwait
  | unopened hview hconn =>
      refine hopened hconn rfl hcounter (congrArg _ hview) (congrArg _ hview) (.no rfl ?_)
      exact (congrArg TransferView.eStatus hview).trans hwait
  | @started cs₁ hopens hview hthread =>
      have h150' : ∀ slave p r, ⟨.openPasvDataConnection slave p, .reply r⟩ ∈ cs₁ →
          r.code = some 150 :=
        fun slave p r hr => h150 slave p r (List.mem_append_left _ hr)
      obtain ⟨hthreads, hends⟩ := passives_opens cfg hopens h150'
      have hthreads' : threadsAfter cfg [] (cs₁ ++ [⟨.pthread_create thread, true⟩]) =
          [thread.body cfg] := by
        rw [threadsAfter_append, hthreads]
        rfl
      have hpass : passives (cs₁ ++ [⟨.pthread_create thread, true⟩]) = passives cs₁ := by
        rw [passives_append]
        exact List.append_nil _
      have htarget : w'.view.target = s.world.view.target := by rw [hview]; rfl
      have htrans : w'.view.llPRET_trans_id = s.world.view.llPRET_trans_id := by rw [hview]
      have hslave : w'.view.SlaveInfo = s.world.view.SlaveInfo := by rw [hview]
      have hsends := sends_body (x := w'.view.target) cfg thread
      have hnot : w'.client.eStatus ≠ .waiting := by
        rw [show w'.client.eStatus = status from congrArg TransferView.eStatus hview]
        exact hstatus
      rw [hthreads']
      obtain ⟨hconn, hcs⟩ | ⟨hconn, hcs⟩ := hends
      · refine hopened hconn (hpass.trans hcs) hcounter htrans hslave ?_
        refine .yes _ 1 rfl hnot hthread ?_ (le_refl 1) fun _ => ?_
        · have hallows : w'.view.target.allows = 1 := by
            rw [htarget]
            exact if_pos hconn
          rw [hallows] at hsends
          exact hsends
        · show rpcs w'.view.llPRET_trans_id _ = [⟨.init, w'.view.llPRET_trans_id, w'.view.SlaveInfo,
            some 227⟩, ⟨.opening, w'.view.llPRET_trans_id, w'.view.SlaveInfo, some 150⟩]
          rw [htrans, hslave, rpcs_append, rpcs_single (hpass.trans hcs), if_pos rfl,
            h.answered (hpasv hconn)]
          rfl
      · refine h.quiet (hpass.trans hcs) hcounter htrans hslave ?_
        refine .yes _ 0 rfl hnot hthread ?_ (Nat.zero_le 1) fun h01 => absurd h01 (by simp)
        have hallows : w'.view.target.allows = 0 := by
          rw [htarget]
          exact if_neg hconn
        rw [hallows] at hsends
        exact hsends
  | @failed cs₁ cs₂ hopens honly hview =>
      have h150' : ∀ slave p r, ⟨.openPasvDataConnection slave p, .reply r⟩ ∈ cs₁ →
          r.code = some 150 :=
        fun slave p r hr => h150 slave p r (List.mem_append_left _ hr)
      obtain ⟨hthreads, hends⟩ := passives_opens cfg hopens h150'
      have hthreads' : threadsAfter cfg [] (cs₁ ++ ⟨.pthread_create thread, false⟩ :: cs₂) = [] := by
        rw [threadsAfter_append, hthreads]
        show threadsAfter cfg [] cs₂ = []
        exact threadsAfter_onlyCancels honly
      have hpass : passives (cs₁ ++ ⟨.pthread_create thread, false⟩ :: cs₂) = passives cs₁ := by
        rw [passives_append]
        show passives cs₁ ++ passives cs₂ = _
        rw [passives_onlyCancels honly, List.append_nil]
      have htrans : w'.view.llPRET_trans_id = s.world.view.llPRET_trans_id := by rw [hview]; rfl
      have hslave : w'.view.SlaveInfo = s.world.view.SlaveInfo := by rw [hview]; rfl
      have hidle' : ∀ sent', Busy ⟨w', [], opened⟩ sent' := fun sent' =>
        .no rfl (congrArg TransferView.eStatus hview)
      rw [hthreads']
      obtain ⟨hconn, hcs⟩ | ⟨-, hcs⟩ := hends
      · exact hopened hconn (hpass.trans hcs) hcounter htrans hslave (hidle' _)
      · exact h.quiet (hpass.trans hcs) hcounter htrans hslave (hidle' _)

/-- A line that does nothing but reset the data connection, or set up another one. -/
theorem TransactionInv.resets {opened : Bool} (h : TransactionInv s sent) (hidle : s.threads = [])
    (honly : OnlyCancels cs) (htrans : w'.view.llPRET_trans_id = s.world.view.llPRET_trans_id)
    (hslave : w'.view.SlaveInfo = s.world.view.SlaveInfo) (hwait : w'.client.eStatus = .waiting)
    (hcounter : s.world.db.transaction_counter ≤ w'.db.transaction_counter) :
    TransactionInv ⟨w', threadsAfter cfg s.threads cs, opened⟩ (sent ++ cs) := by
  rw [hidle, threadsAfter_onlyCancels honly]
  exact h.quiet (passives_onlyCancels honly) hcounter htrans hslave (.no rfl hwait)

theorem TransactionInv.resetTurn {kind : DataConnection} {opened : Bool}
    (h : TransactionInv s sent) (hidle : s.threads = []) (hwait : s.world.client.eStatus = .waiting)
    (hturn : ResetTurn s.world w' kind cs)
    (hcounter : s.world.db.transaction_counter ≤ w'.db.transaction_counter) :
    TransactionInv ⟨w', threadsAfter cfg s.threads cs, opened⟩ (sent ++ cs) := by
  cases hturn with
  | refused hview =>
      refine h.resets hidle onlyCancels_nil (by rw [hview]) (by rw [hview]) ?_ hcounter
      exact (congrArg TransferView.eStatus hview).trans hwait
  | reset conn _ honly hview =>
      exact h.resets hidle honly (by rw [hview]; rfl) (by rw [hview]; rfl)
        (congrArg TransferView.eStatus hview) hcounter

/-- `PASV` after a `PRET` starts a transaction of its own. -/
theorem TransactionInv.initTurn {cmd : PretCmd} {opened : Bool} (h : TransactionInv s sent)
    (hidle : s.threads = []) (hwait : s.world.client.eStatus = .waiting)
    (hturn : InitTurn cfg cmd s.world w' cs) :
    TransactionInv ⟨w', threadsAfter cfg s.threads cs, opened⟩ (sent ++ cs) := by
  cases hturn with
  | init slave answer _ _ hview hdb =>
      rw [hidle]
      have hpass : passives [⟨.initPasvDataConnection slave
          { server_ip := slave.host, trans_id := ((s.world.db.transaction_counter + 1 : ℕ) : ℤ) }
          cfg.usStart cfg.usLen, answer⟩] =
          [⟨.init, ((s.world.db.transaction_counter + 1 : ℕ) : ℤ), slave, RpcResult.code answer⟩] :=
        rfl
      generalize hcs : [Call.mk _ _] = cs at hpass ⊢
      have hfresh : rpcs ((s.world.db.transaction_counter + 1 : ℕ) : ℤ) sent = [] := by
        rw [rpcs, List.filter_eq_nil_iff]
        intro d hd htrans
        have hdrawn := h.drawn d hd
        rw [of_decide_eq_true htrans] at hdrawn
        push_cast at hdrawn
        omega
      refine ⟨h.ordered.append hpass ?_, ?_, ?_, ?_⟩
      · rw [hfresh]
        exact .init _ _ _
      · intro d hd
        rw [passives_append, hpass, List.mem_append, List.mem_singleton] at hd
        show _ ≤ (w'.db.transaction_counter : ℤ)
        rw [hdb]
        obtain hd | rfl := hd
        · have hdrawn := h.drawn d hd
          push_cast
          omega
        · exact le_refl _
      · -- the last `Init` is this one
        intro earlier r later heq hstep hlater
        rw [passives_append, hpass] at heq
        rw [show w'.view.llPRET_trans_id = _ from congrArg TransferView.llPRET_trans_id hview,
          show w'.view.SlaveInfo = _ from congrArg TransferView.SlaveInfo hview]
        cases List.eq_nil_or_concat later with
        | inl hnil =>
            rw [hnil] at heq
            have hlast := (List.append_inj' heq rfl).2
            rw [List.cons.injEq] at hlast
            rw [← hlast.1]
            exact ⟨rfl, rfl⟩
        | inr hconcat =>
            obtain ⟨later', d, rfl⟩ := hconcat
            rw [List.concat_eq_append, ← List.cons_append, ← List.append_assoc] at heq
            have hlast := (List.append_inj' heq rfl).2
            rw [List.cons.injEq] at hlast
            have hd := hlater d (by simp)
            rw [← hlast.1] at hd
            exact absurd rfl hd
      · refine .no ?_ ((congrArg TransferView.eStatus hview).trans hwait)
        rw [← hcs]
        rfl

/-- A listing. -/
theorem TransactionInv.listTurn {opened : Bool} (h : TransactionInv s sent)
    (hidle : s.threads = []) (hwait : s.world.client.eStatus = .waiting)
    (hturn : ListTurn s.world w' cs)
    (hcounter : s.world.db.transaction_counter ≤ w'.db.transaction_counter) :
    TransactionInv ⟨w', threadsAfter cfg s.threads cs, opened⟩ (sent ++ cs) := by
  cases hturn with
  | refused hview =>
      refine h.resets hidle onlyCancels_nil (by rw [hview]) (by rw [hview]) ?_ hcounter
      exact (congrArg TransferView.eStatus hview).trans hwait
  | unopened _ honly hview =>
      obtain hview | hview := hview
      · refine h.resets hidle honly (by rw [hview]) (by rw [hview]) ?_ hcounter
        exact (congrArg TransferView.eStatus hview).trans hwait
      · exact h.resets hidle honly (by rw [hview]; rfl) (by rw [hview]; rfl)
          (congrArg TransferView.eStatus hview) hcounter
  | started _ hview hthread =>
      have hstatus : w'.client.eStatus = .listing := congrArg TransferView.eStatus hview
      rw [hidle]
      refine h.quiet rfl hcounter (by rw [hview]) (by rw [hview]) ?_
      exact .yes listTransfer 0 rfl (by rw [hstatus]; simp) hthread sends_listTransfer (Nat.zero_le 1)
        fun h01 => absurd h01 (by simp)
  | @failed cs₂ _ honly hview =>
      have hthreads : threadsAfter cfg [] (⟨.pthread_create .list, false⟩ :: cs₂) = [] := by
        show threadsAfter cfg [] cs₂ = []
        exact threadsAfter_onlyCancels honly
      have hpass : passives (⟨.pthread_create .list, false⟩ :: cs₂) = [] := by
        show passives cs₂ = []
        exact passives_onlyCancels honly
      rw [hidle, hthreads]
      exact h.quiet hpass hcounter (by rw [hview]; rfl) (by rw [hview]; rfl)
        (.no rfl (congrArg TransferView.eStatus hview))

/-- A line while no transfer is going on. -/
theorem TransactionInv.idleLine {nCmd : Option Cmd} {opened : Bool} (h : TransactionInv s sent)
    (hidle : s.threads = []) (hwait : s.world.client.eStatus = .waiting)
    (hturn : DataTurn cfg s.world w' nCmd cs)
    (hcounter : s.world.db.transaction_counter ≤ w'.db.transaction_counter)
    (hkeeps : KeepsOrder s sent (.line nCmd) cs) :
    TransactionInv ⟨w', threadsAfter cfg s.threads cs, opened⟩ (sent ++ cs) := by
  cases hturn with
  | quiet hview =>
      refine h.resets hidle onlyCancels_nil (by rw [hview]) (by rw [hview]) ?_ hcounter
      exact (congrArg TransferView.eStatus hview).trans hwait
  | pret hview =>
      refine h.resets hidle onlyCancels_nil (by rw [hview]) (by rw [hview]) ?_ hcounter
      exact (congrArg TransferView.eStatus hview).trans hwait
  | port _ hreset => exact h.resetTurn hidle hwait hreset hcounter
  | abor hreset => exact h.resetTurn hidle hwait hreset hcounter
  | pasv _ _ hreset => exact h.resetTurn hidle hwait hreset hcounter
  | init cmd _ _ hinit => exact h.initTurn hidle hwait hinit
  | list _ hlist => exact h.listTurn hidle hwait hlist hcounter
  | retrieve htransfer =>
      obtain ⟨-, hpasv, h150⟩ := hkeeps _ rfl (.inl rfl)
      exact h.transferTurn hidle hwait (by simp) htransfer hpasv h150 hcounter
  | store hcmd htransfer =>
      obtain ⟨-, hpasv, h150⟩ := hkeeps _ rfl (by
        obtain rfl | rfl | rfl := hcmd <;> simp [Blind])
      exact h.transferTurn hidle hwait (by simp) htransfer hpasv h150 hcounter

/-- A line while a transfer is going on. -/
theorem TransactionInv.busyLine {p : CommandProg Unit} {n : ℕ} {nCmd : Option Cmd} {opened : Bool}
    (h : TransactionInv s sent) (hthreads : s.threads = [p])
    (hbusy : s.world.client.eStatus ≠ .waiting) (hthread : s.world.Threaded)
    (hsends : Sends s.world.view.target p n) (hn : n ≤ 1)
    (hready : n = 1 → ReadyToTransfer s.world.view.target sent)
    (hturn : BusyTurn s.world w' nCmd cs)
    (hcounter : s.world.db.transaction_counter ≤ w'.db.transaction_counter) :
    TransactionInv ⟨w', threadsAfter cfg s.threads cs, opened⟩ (sent ++ cs) := by
  have hstays : w'.view.target = s.world.view.target → w'.client.eStatus = s.world.client.eStatus →
      w'.client.CurrentTransfer = s.world.client.CurrentTransfer →
      TransactionInv ⟨w', threadsAfter cfg s.threads [], opened⟩ (sent ++ []) := by
    intro htarget hstatus hsame
    have htrans : w'.view.llPRET_trans_id = s.world.view.llPRET_trans_id :=
      congrArg Target.llPRET_trans_id htarget
    have hslave : w'.view.SlaveInfo = s.world.view.SlaveInfo :=
      congrArg Target.SlaveInfo htarget
    rw [hthreads]
    refine h.quiet rfl hcounter htrans hslave ?_
    refine .yes p n rfl (by rw [hstatus]; exact hbusy) ?_ (by rw [htarget]; exact hsends) hn ?_
    · rw [World.Threaded, hsame]
      exact hthread
    · rw [htarget, List.append_nil]
      exact hready
  cases hturn with
  | quiet hview hsame =>
      exact hstays (by rw [hview]) (congrArg TransferView.eStatus hview) hsame
  | pret hview hsame =>
      exact hstays (by rw [hview]; rfl) (congrArg TransferView.eStatus hview) hsame
  | abor hview =>
      rw [hthreads]
      exact h.quiet rfl hcounter (by rw [hview]; rfl) (by rw [hview]; rfl)
        (.no rfl (congrArg TransferView.eStatus hview))

/-! ### Threads -/

/-- The RPC that an operation of a thread is. -/
theorem Issues.note {o : CommandOp} (h : Issues x o n m) (r : o.Res) :
    (n = m ∧ passives (noteCommand o r).toList = []) ∨ (n = m + 1 ∧ ∃ c,
      passives (noteCommand o r).toList = [⟨.transfer, x.llPRET_trans_id, x.SlaveInfo, c⟩]) := by
  cases o with
  | sys o =>
      cases o with
      | pasvStoreTransfer slave p iflags =>
          obtain ⟨hn, htrans, hslave⟩ := h
          refine .inr ⟨hn, none, ?_⟩
          rw [← htrans, ← hslave]
          rfl
      | pasvRetrieveTransfer slave p =>
          obtain ⟨hn, htrans, hslave⟩ := h
          refine .inr ⟨hn, none, ?_⟩
          rw [← htrans, ← hslave]
          rfl
      | initPasvDataConnection slave p startPort portLen =>
          obtain ⟨-, hpart⟩ := h
          exact absurd hpart (by simp [SysOp.part])
      | openPasvDataConnection slave p =>
          obtain ⟨-, hpart⟩ := h
          exact absurd hpart (by simp [SysOp.part])
      | _ => exact .inl ⟨h.1, rfl⟩
  | modify f => exact .inl ⟨h.1, rfl⟩
  | _ => exact .inl ⟨h, rfl⟩

/-- It leaves the client entry alone. -/
theorem Issues.client {o : CommandOp} (h : Issues x o n m) (env : Env) (w : World) :
    (serveCommand env o w).2.client = w.client := by
  cases o with
  | modify f =>
      show ({ w.client with toCommandState := f w.client.toCommandState } : Client) = _
      rw [h.2]
  | _ => rfl

/-- A thread reads the target of the view. -/
theorem reads_serve (env : Env) (o : CommandOp) (w : World) :
    Reads w.view.target o (serveCommand env o w).1 := by
  cases o with
  | client => rfl
  | _ => trivial

/-- An operation of the transfer thread. -/
theorem TransactionInv.threadStep {p' : CommandProg Unit} {o : CommandOp} {n m : ℕ} {opened : Bool}
    (h : TransactionInv s sent) (hbusy : s.world.client.eStatus ≠ .waiting)
    (hthread : s.world.Threaded) (hn : n ≤ 1)
    (hready : n = 1 → ReadyToTransfer s.world.view.target sent)
    (hissue : Issues s.world.view.target o n m) (hrest : Sends s.world.view.target p' m)
    (env : Env) :
    TransactionInv ⟨(serveCommand env o s.world).2, [p'], opened⟩
      (sent ++ (noteCommand o (serveCommand env o s.world).1).toList) := by
  have hclient := hissue.client env s.world
  have hview : (serveCommand env o s.world).2.view = s.world.view := by
    simp only [World.view, hclient]
  have hcounter := serveCommand_counter env o s.world
  have htrans : (serveCommand env o s.world).2.view.llPRET_trans_id =
      s.world.view.llPRET_trans_id := by rw [hview]
  have hslave : (serveCommand env o s.world).2.view.SlaveInfo = s.world.view.SlaveInfo := by
    rw [hview]
  have hstays : ∀ sent', (m = 1 → ReadyToTransfer s.world.view.target sent') →
      m ≤ 1 → Busy ⟨(serveCommand env o s.world).2, [p'], opened⟩ sent' := by
    intro sent' hready' hm
    refine .yes p' m rfl ?_ ?_ ?_ hm ?_
    · rw [hclient]
      exact hbusy
    · rw [World.Threaded, hclient]
      exact hthread
    · rw [hview]
      exact hrest
    · rw [hview]
      exact hready'
  obtain ⟨hsame, hcs⟩ | ⟨hsend, c, hcs⟩ := hissue.note (serveCommand env o s.world).1
  · refine h.quiet hcs hcounter htrans hslave (hstays _ ?_ (by omega))
    intro hm
    have hopen := hready (hsame.trans hm)
    rw [ReadyToTransfer, rpcs_append, rpcs_eq_nil hcs, List.append_nil]
    exact hopen
  · have hopen := hready (by omega)
    rw [ReadyToTransfer] at hopen
    have hopen' : rpcs s.world.view.llPRET_trans_id sent = _ := hopen
    refine h.send hcs (by simp) rfl ?_ (by rw [hopen']; simp) hcounter htrans hslave
      (hstays _ (fun hm => ?_) (by omega))
    · rw [hopen']
      exact .transferred _ _ _
    · omega

theorem single_eq_append {p q : CommandProg Unit} {xs ys : List (CommandProg Unit)}
    (h : [p] = xs ++ q :: ys) : xs = [] ∧ ys = [] ∧ p = q := by
  cases xs with
  | nil =>
      rw [List.nil_append, List.cons.injEq] at h
      exact ⟨rfl, h.2.symm, h.1⟩
  | cons x xs =>
      rw [List.cons_append, List.cons.injEq] at h
      exact absurd h.2 (by simp)

/-! ### Runs -/

/-- **One step** of a session that keeps the order. -/
theorem TransactionInv.step {who : Happening} (h : TransactionInv s sent)
    (hstep : LiveStep cfg s who cs s') (hkeeps : KeepsOrder s sent who cs) :
    TransactionInv s' (sent ++ cs) := by
  cases hstep with
  | @line w' next env line hopened hrun =>
      have hcounter := run_counter env (dispatch cfg (parseLine line).1 (parseLine line).2) s.world
      rw [hrun] at hcounter
      cases h.busy with
      | no hidle hwait => exact h.idleLine hidle hwait (dataTurn_of_run hrun) hcounter hkeeps
      | yes p n hthreads hbusy hthread hsends hn hready =>
          have hblind : ¬ Blind (parseLine line).1 := fun hblind =>
            hbusy (hkeeps _ rfl hblind).1
          exact h.busyLine hthreads hbusy hthread hsends hn hready
            (busyTurn_of_run hblind hbusy hthread hrun) hcounter
  | hangUp hopened =>
      refine h.quiet rfl (le_refl _) rfl rfl ?_
      cases h.busy with
      | no hidle hwait => exact .no hidle hwait
      | yes p n hthreads hbusy hthread hsends hn hready =>
          refine .yes p n hthreads hbusy hthread hsends hn ?_
          rw [List.append_nil]
          exact hready
  | @op xs ys o k env hthreads =>
      cases h.busy with
      | no hidle _ => rw [hidle] at hthreads; exact absurd hthreads (by simp)
      | yes p n hsingle hbusy hthread hsends hn hready =>
          rw [hsingle] at hthreads
          obtain ⟨rfl, rfl, rfl⟩ := single_eq_append hthreads
          obtain ⟨m, hissue, hrest⟩ := hsends
          exact h.threadStep hbusy hthread hn hready hissue (hrest _ (reads_serve env o s.world)) env
  | @poll xs ys o again k env hthreads hdone =>
      cases h.busy with
      | no hidle _ => rw [hidle] at hthreads; exact absurd hthreads (by simp)
      | yes p n hsingle hbusy hthread hsends hn hready =>
          rw [hsingle] at hthreads
          obtain ⟨rfl, rfl, rfl⟩ := single_eq_append hthreads
          obtain ⟨m, hissue, hrest⟩ := hsends
          exact h.threadStep hbusy hthread hn hready hissue (hrest _ (reads_serve env o s.world)) env
  | @ends xs ys w' env hthreads hrun =>
      cases h.busy with
      | no hidle _ => rw [hidle] at hthreads; exact absurd hthreads (by simp)
      | yes p n hsingle _ _ _ _ _ =>
          rw [hsingle] at hthreads
          obtain ⟨rfl, rfl, rfl⟩ := single_eq_append hthreads
          have hdoes : Does env endTransfer s.world () w' _ := ⟨hrun, rfl⟩
          obtain ⟨hview, -⟩ := reset_calls hdoes
          have hcounter := run_counter env (command endTransfer) s.world
          rw [run_command, hrun] at hcounter
          exact h.quiet rfl hcounter (by rw [hview]; rfl) (by rw [hview]; rfl)
            (.no rfl (congrArg TransferView.eStatus hview))
  | others db hdb =>
      refine h.quiet rfl hdb rfl rfl ?_
      rw [List.append_nil]
      cases h.busy with
      | no hidle hwait => exact .no hidle hwait
      | yes p n hthreads hbusy hthread hsends hn hready =>
          exact .yes p n hthreads hbusy hthread hsends hn hready

theorem LiveRun.transactionInv (h : LiveRun cfg KeepsOrder s sent) : TransactionInv s sent := by
  induction h with
  | connect hlogin hcommand =>
      refine ⟨fun t => .idle, fun r hr => absurd hr (by simp [passives]), ?_, ?_⟩
      · intro earlier r later heq
        exact absurd heq (by simp [passives])
      · exact .no rfl (by rw [hcommand])
  | step hrun hstep hkeeps ih => exact ih.step hstep hkeeps

/-- **Passive transactions are in order** in every run whose transfers come one after the other, in
passive mode behind a `PASV` of their own, and are opened with 150. -/
theorem transactions_in_order (h : LiveRun cfg KeepsOrder s sent) : TransactionsInOrder sent :=
  h.transactionInv.ordered

/-! ### A passive download, and a passive connection without a slave -/

variable {ok : LiveCondition}

/-- A line whose command is known to run. -/
theorem LiveRun.command {ts : List (CommandProg Unit)} (line : Text) {nCmd : Cmd}
    {pszCmdArg : Option Text} (hrun : LiveRun cfg ok ⟨w, ts, true⟩ sent)
    (hline : parseLine line = (some nCmd, pszCmdArg))
    (hnot : nCmd ∉ [Cmd.quit, .user, .pass, .cwd, .xcwd, .cdup, .xcup])
    (hlogged : w.client.bIsLogged = true)
    (h : Does env (shellCmd cfg nCmd pszCmdArg) w () w' cs)
    (hok : ok ⟨w, ts, true⟩ sent (.line (some nCmd)) cs) :
    LiveRun cfg ok ⟨w', threadsAfter cfg ts cs, true⟩ (sent ++ cs) := by
  obtain ⟨hends, hcalls⟩ := line_of_does hnot hlogged h
  have hstep : LiveStep cfg ⟨w, ts, true⟩ _ _ _ := .line env line rfl (by
    rw [hline]
    exact hends)
  rw [hline, hcalls] at hstep
  exact hrun.step hstep hok

/-- The guest logs in. -/
theorem liveRun_guest (ok : LiveCondition)
    (hok : ∀ s sent nCmd, ¬ Blind nCmd → ok s sent (.line nCmd) []) :
    LiveRun {} ok ⟨guestWorld twoFiles, [], true⟩ [] := by
  have huser : parseLine "USER guest".toList = (some .user, some "guest".toList) := by decide
  have hconnect : LiveRun {} ok ⟨⟨twoFiles, {}, [], 0⟩, [], true⟩ [] := .connect rfl rfl
  have hstep : LiveStep {} ⟨⟨twoFiles, {}, [], 0⟩, [], true⟩ _ _ _ := .line .willing
    "USER guest".toList rfl (by rw [huser]; exact run_user_guest)
  rw [huser, (line_not_logged rfl run_user_guest).2] at hstep
  exact hconnect.step hstep (hok _ _ _ (by decide))

/-- After `RETR /a` as well. -/
def downloadWorld : World :=
  { passiveWorld with
    client := { passiveWorld.client with
      eStatus := .downloading
      CurrentTransfer := { szPath := "/a".toList, TransferThreadID := true } }
    replies := passiveWorld.replies ++ [.line 150 "Opening data channel"]
    clock := 4 }

/-- The calls of `PASV` and of `RETR /a`. -/
def pasvCalls : List Call :=
  [⟨.initPasvDataConnection slaveA { server_ip := ['A'], trans_id := 1 } 100 900,
    .reply (.line 227 "Entering Passive Mode")⟩]

def retrCalls : List Call :=
  [passiveWorld.view.opening (.reply (.line 150 "Opening data channel")),
    ⟨.pthread_create .retrieve, true⟩]

theorem retr_a : Does .willing (shellCmd {} .retr (some "/a".toList)) passiveWorld () downloadWorld
    retrCalls := by
  constructor
  · show run _ (statPath (Client.buildPath _ (some "/a".toList)) >>= _) _ = _
    rw [guest_a rfl]
    rfl
  · show trace _ _ (statPath (Client.buildPath _ (some "/a".toList)) >>= _) _ = _
    rw [guest_a rfl]
    rfl

/-- A line that starts no transfer keeps the order. -/
theorem keepsOrder_quiet {s : LiveSession} {calls : List Call} {nCmd : Option Cmd}
    (h : ¬ Blind nCmd) : KeepsOrder s calls (.line nCmd) cs := by
  intro nCmd' heq hblind
  rw [Happening.line.injEq] at heq
  rw [heq] at h
  exact absurd hblind h

/-- A transfer behind `PASV` that the slave answers with 150 keeps the order. -/
theorem keepsOrder_opening {w : World} {ts : List (CommandProg Unit)} {calls : List Call}
    {v : TransferView} {r : Reply} {thread : TransferThread} (nCmd : Option Cmd)
    (hwait : w.client.eStatus = .waiting) (hinit : InitAnswered calls) (hcode : r.code = some 150) :
    KeepsOrder ⟨w, ts, true⟩ calls (.line nCmd)
      [v.opening (.reply r), ⟨.pthread_create thread, true⟩] := by
  intro _ _ _
  refine ⟨hwait, fun _ => hinit, ?_⟩
  intro slave p r' hr
  simp only [TransferView.opening, List.mem_cons, Call.mk.injEq] at hr
  obtain ⟨hop, hres⟩ | ⟨hop, -⟩ | hr := hr
  · cases hop
    rw [heq_eq_eq, RpcResult.reply.injEq] at hres
    rw [hres]
    exact hcode
  · exact absurd hop (by simp)
  · exact absurd hr (by simp)

theorem initAnswered_pasv : InitAnswered pasvCalls :=
  ⟨[], ⟨.init, 1, slaveA, some 227⟩, [], rfl, rfl, rfl, by simp⟩

/-- The guest names `/a`, opens a passive connection and retrieves `/a`. -/
theorem liveRun_download : LiveRun {} KeepsOrder
    ⟨downloadWorld, [retrieveTransfer {}], true⟩ (pasvCalls ++ retrCalls) := by
  have h₁ := liveRun_guest KeepsOrder fun _ _ _ hblind => keepsOrder_quiet hblind
  have h₂ := h₁.command "PRET RETR /a".toList (by decide) (by simp) rfl pret_a
    (keepsOrder_quiet (by decide))
  have h₃ := h₂.command "PASV".toList (by decide) (by simp) rfl pasv_a
    (keepsOrder_quiet (by decide))
  exact h₃.command "RETR /a".toList (by decide) (by simp) rfl retr_a
    (keepsOrder_opening _ rfl initAnswered_pasv rfl)

theorem transactions_in_order_download : TransactionsInOrder (pasvCalls ++ retrCalls) :=
  transactions_in_order liveRun_download

/-- After `PASV` without a `PRET`. -/
def localWorld : World :=
  { guestWorld twoFiles with
    client := { (guestWorld twoFiles).client with
      DataSock := some 3, usDataPort := 100, eDataConnection := .pasv }
    replies := (guestWorld twoFiles).replies ++ [passiveReply 0 100]
    clock := 6 }

/-- After `STOR /b` as well. -/
def localStoreWorld : World :=
  { localWorld with
    client := { localWorld.client with
      eStatus := .uploading
      CurrentTransfer := { szPath := "/b".toList, TransferThreadID := true } }
    replies := localWorld.replies ++ [.line 150 "Opening data channel"]
    clock := 8 }

theorem pasv_local : Does .willing (shellCmd {} .pasv none) (guestWorld twoFiles) () localWorld
    [] := ⟨rfl, rfl⟩

theorem stor_local : Does .willing (shellCmd {} .stor (some "/b".toList)) localWorld ()
    localStoreWorld [localWorld.view.opening (.reply (.line 150 "Opening data channel")),
      ⟨.pthread_create .store, true⟩] :=
  does_upload UploadCmd.noConfusion rfl (guest_b rfl) ⟨rfl, rfl⟩

/-- **A passive connection of the metaserver** leads to an `OpenPasvDataConnection` without an
`InitPasvDataConnection`. -/
theorem open_without_init : ¬ ∀ cfg s sent,
    LiveRun cfg (fun _ _ _ _ => True) s sent → TransactionsInOrder sent := by
  intro hall
  have h₁ := liveRun_guest (fun _ _ _ _ => True) fun _ _ _ _ => trivial
  have h₂ := h₁.command "PASV".toList (by decide) (by simp) rfl pasv_local trivial
  have h₃ := h₂.command "STOR /b".toList (by decide) (by simp) rfl stor_local trivial
  have hin := hall _ _ _ h₃ (-1)
  have hrpcs : rpcs (-1) [localWorld.view.opening (.reply (.line 150 "Opening data channel")),
      ⟨.pthread_create .store, true⟩] = [⟨.opening, -1, {}, some 150⟩] := rfl
  rw [List.nil_append, List.nil_append, hrpcs] at hin
  cases hin

end ClusterFtpd
