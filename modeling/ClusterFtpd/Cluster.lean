import ClusterFtpd.SlaveSockets
import ClusterFtpd.TransactionIds

/-!
# The metaserver and its slaves

The sessions of a metaserver call the slaves, and the slaves answer.  A call that is answered has
been carried out when the session goes on.  Of a call that ends with an exception, or that a
transfer thread waits for without end, the metaserver does not know what has become of it: it is on
its way (`late`), and the slave may carry it out at any time, or never.  A slave carries out one
call at a time.

All sessions keep the order of their transfers (`KeepsOrder`), and what they send is `Orderly`; so
every call comes to a slave that is ready for it.

Main results:

* `slaves_ready`: in every order of steps, each call finds its transaction as the handler takes it
  to be, and the handler uses open descriptors of this transaction only;
* `slave_sockets`: which transactions have a data socket on a slave;
* `sockets_abandoned`: a transaction that its session has left keeps its data socket for ever.
-/

namespace ClusterFtpd

open Interaction MachineInt

/-! ### The calls -/

/-- A call to a slave. -/
structure Remote where
  slave : SlaveInfo
  rpc : SlaveRpc

/-- The reply, if there is one. -/
def RpcResult.toOption {α : Type} : RpcResult α → Option α
  | .reply a => some a
  | _ => none

/-- The call to a slave that a noted call is, with its reply; `inet_addr` gives the address of a
host.  The result of an upload has its reply in it. -/
def Call.remote (inet_addr : Text → ℕ) : Call → Option (Remote × Option Reply)
  | ⟨.initPasvDataConnection slave p startPort portLen, r⟩ =>
      some (⟨slave, .initPasvDataConnection p (inet_addr p.server_ip) startPort portLen⟩,
        RpcResult.toOption r)
  | ⟨.openPasvDataConnection slave p, r⟩ =>
      some (⟨slave, .openPasvDataConnection p⟩, RpcResult.toOption r)
  | ⟨.activeStoreTransfer slave p iflags, r⟩ =>
      some (⟨slave, .activeStoreTransfer p (inet_addr p.server_ip) iflags⟩,
        (RpcResult.toOption r).map StorRetVal.msg)
  | ⟨.pasvStoreTransfer slave p iflags, r⟩ =>
      some (⟨slave, .pasvStoreTransfer p iflags⟩, (RpcResult.toOption r).map StorRetVal.msg)
  | ⟨.activeRetrieveTransfer slave p, r⟩ =>
      some (⟨slave, .activeRetrieveTransfer p (inet_addr p.server_ip)⟩, RpcResult.toOption r)
  | ⟨.pasvRetrieveTransfer slave p, r⟩ =>
      some (⟨slave, .pasvRetrieveTransfer p⟩, RpcResult.toOption r)
  | _ => none

/-- The step of a passive transaction that an RPC is. -/
def SlaveRpc.step : SlaveRpc → Option PassiveStep
  | .initPasvDataConnection _ _ _ _ => some .init
  | .openPasvDataConnection _ => some .opening
  | .pasvStoreTransfer _ _ => some .transfer
  | .pasvRetrieveTransfer _ => some .transfer
  | .activeStoreTransfer _ _ _ => none
  | .activeRetrieveTransfer _ _ => none

/-- The transaction of a call. -/
abbrev Remote.trans_id (x : Remote) : ℤ := x.rpc.trans_id

/-- The code that is noted of the reply of a step; of a transfer there is none. -/
def PassiveStep.codeOf : PassiveStep → Option Reply → Option ℕ
  | .transfer, _ => none
  | _, reply => reply.bind Reply.code

theorem code_toOption (r : RpcResult Reply) :
    RpcResult.code r = (RpcResult.toOption r).bind Reply.code := by
  cases r <;> rfl

variable {inet_addr : Text → ℕ} {c : Call} {x y : Remote} {reply : Option Reply} {r : Reply} {t : ℤ}

/-- What is noted of a call in a passive transaction. -/
theorem passive_of_remote (h : c.remote inet_addr = some (x, reply)) :
    c.passive = x.rpc.step.map fun k => ⟨k, x.trans_id, x.slave, k.codeOf reply⟩ := by
  obtain ⟨op, res⟩ := c
  cases op with
  | initPasvDataConnection slave p startPort portLen =>
      rw [Call.remote, Option.some.injEq, Prod.mk.injEq] at h
      obtain ⟨rfl, rfl⟩ := h
      show some (PassiveRpc.mk _ _ _ (RpcResult.code res)) = _
      rw [code_toOption]
      rfl
  | openPasvDataConnection slave p =>
      rw [Call.remote, Option.some.injEq, Prod.mk.injEq] at h
      obtain ⟨rfl, rfl⟩ := h
      show some (PassiveRpc.mk _ _ _ (RpcResult.code res)) = _
      rw [code_toOption]
      rfl
  | activeStoreTransfer slave p iflags =>
      rw [Call.remote, Option.some.injEq, Prod.mk.injEq] at h
      obtain ⟨rfl, rfl⟩ := h
      rfl
  | pasvStoreTransfer slave p iflags =>
      rw [Call.remote, Option.some.injEq, Prod.mk.injEq] at h
      obtain ⟨rfl, rfl⟩ := h
      rfl
  | activeRetrieveTransfer slave p =>
      rw [Call.remote, Option.some.injEq, Prod.mk.injEq] at h
      obtain ⟨rfl, rfl⟩ := h
      rfl
  | pasvRetrieveTransfer slave p =>
      rw [Call.remote, Option.some.injEq, Prod.mk.injEq] at h
      obtain ⟨rfl, rfl⟩ := h
      rfl
  | _ => exact absurd h (by simp [Call.remote])

theorem passive_of_local (h : c.remote inet_addr = none) : c.passive = none := by
  obtain ⟨op, res⟩ := c
  cases op <;> first | rfl | exact absurd h (by simp [Call.remote])

/-- A call that is in no passive transaction is an active transfer. -/
theorem active_of_remote (h : c.remote inet_addr = some (x, reply)) (hstep : x.rpc.step = none) :
    actives [c] = [x.trans_id] := by
  have hpassive : c.passive = none := by
    rw [passive_of_remote h, hstep]
    rfl
  obtain ⟨op, res⟩ := c
  cases op with
  | activeStoreTransfer slave p iflags =>
      rw [Call.remote, Option.some.injEq, Prod.mk.injEq] at h
      obtain ⟨rfl, rfl⟩ := h
      rfl
  | activeRetrieveTransfer slave p =>
      rw [Call.remote, Option.some.injEq, Prod.mk.injEq] at h
      obtain ⟨rfl, rfl⟩ := h
      rfl
  | initPasvDataConnection slave p startPort portLen =>
      exact absurd hpassive (by simp [Call.passive])
  | openPasvDataConnection slave p => exact absurd hpassive (by simp [Call.passive])
  | pasvStoreTransfer slave p iflags => exact absurd hpassive (by simp [Call.passive])
  | pasvRetrieveTransfer slave p => exact absurd hpassive (by simp [Call.passive])
  | _ => exact absurd h (by simp [Call.remote])

/-! ### The slaves -/

/-- The slaves, the calls each of them has answered, and the calls that are on their way. -/
structure Slaves where
  states : SlaveInfo → SlaveState := fun _ => {}
  answered : SlaveInfo → List Answered := fun _ => []
  late : List Remote := []

/-- A slave carries out the call `x`, and replies `r`. -/
inductive CarriesOut (x : Remote) (r : Reply) (n : Slaves) : Slaves → Prop where
  | run (env : SlaveEnv) (rounds : ℕ) {s' : SlaveState} :
      run (serveSlave env) (x.rpc.body rounds) (n.states x.slave) = .done r s' →
      CarriesOut x r n { n with
        states := Function.update n.states x.slave s'
        answered := Function.update n.answered x.slave
          (⟨n.states x.slave, x.rpc, r⟩ :: n.answered x.slave) }

/-- What becomes of a call: it is answered, or it is on its way. -/
inductive Delivered (inet_addr : Text → ℕ) (n : Slaves) (c : Call) : Slaves → Prop where
  | here : c.remote inet_addr = none → Delivered inet_addr n c n
  | answered {x : Remote} {r : Reply} {n' : Slaves} : c.remote inet_addr = some (x, some r) →
      CarriesOut x r n n' → Delivered inet_addr n c n'
  | lost {x : Remote} : c.remote inet_addr = some (x, none) →
      Delivered inet_addr n c { n with late := x :: n.late }

/-- The calls of a step, one after the other. -/
inductive AllDelivered (inet_addr : Text → ℕ) : Slaves → List Call → Slaves → Prop where
  | nil (n : Slaves) : AllDelivered inet_addr n [] n
  | cons {n n₁ n₂ : Slaves} {c : Call} {cs : List Call} : Delivered inet_addr n c n₁ →
      AllDelivered inet_addr n₁ cs n₂ → AllDelivered inet_addr n (c :: cs) n₂

/-- A metaserver with its slaves. -/
structure Deployment where
  metaserver : Metaserver
  slaves : Slaves

/-- A session that keeps the order of its transfers makes a step, or a slave carries out a call that
has been on its way. -/
inductive DeployStep (cfg : Config) (inet_addr : Text → ℕ) (d : Deployment) :
    Deployment → Prop where
  | session {i : ℕ} {who : Happening} {cs : List Call} {s' : LiveSession} {n' : Slaves} :
      LiveStep cfg (d.metaserver.sessions i) who cs s' →
      KeepsOrder (d.metaserver.sessions i) (d.metaserver.sent i) who cs →
      AllDelivered inet_addr d.slaves cs n' →
      DeployStep cfg inet_addr d ⟨d.metaserver.set i s' cs, n'⟩
  | late {x : Remote} {xs ys : List Remote} {r : Reply} {n' : Slaves} :
      d.slaves.late = xs ++ x :: ys → CarriesOut x r { d.slaves with late := xs ++ ys } n' →
      DeployStep cfg inet_addr d ⟨d.metaserver, n'⟩

/-- The runs of a metaserver with its slaves. -/
inductive Deployed (cfg : Config) (inet_addr : Text → ℕ) : Deployment → Prop where
  | start {m : Metaserver} : m.Fresh → Deployed cfg inet_addr ⟨m, {}⟩
  | step {d d' : Deployment} : Deployed cfg inet_addr d → DeployStep cfg inet_addr d d' →
      Deployed cfg inet_addr d'

variable {cfg : Config} {d d' : Deployment} {n n' : Slaves} {sent : ℕ → List Call} {i j : ℕ}
  {cs : List Call} {slave : SlaveInfo}

theorem Deployed.metaserverRun (h : Deployed cfg inet_addr d) : MetaserverRun cfg d.metaserver := by
  induction h with
  | start hfresh => exact .start hfresh
  | step _ hstep ih =>
      cases hstep with
      | session hlive hkeeps _ => exact ih.step hlive hkeeps
      | late _ _ => exact ih

/-! ### The order of a transaction -/

/-- The transaction waits for its next RPC, with all so far answered as they should be. -/
def Waiting (t : ℤ) (slave : SlaveInfo) (rs : List PassiveRpc) : Prop :=
  rs = [⟨.init, t, slave, some 227⟩] ∨
    rs = [⟨.init, t, slave, some 227⟩, ⟨.opening, t, slave, some 150⟩]

section Order

variable {rs : List PassiveRpc} {k : PassiveStep} {code : Option ℕ}

theorem InOrder.of_append {xs ys : List PassiveRpc} (h : InOrder (xs ++ ys)) : InOrder xs := by
  generalize hzs : xs ++ ys = zs at h
  have hfront : xs <+: zs := ⟨ys, hzs⟩
  cases h with
  | idle =>
      rw [List.prefix_nil] at hfront
      rw [hfront]
      exact .idle
  | init t slave c =>
      rw [List.prefix_cons_iff] at hfront
      obtain rfl | ⟨l, rfl, hl⟩ := hfront
      · exact .idle
      · rw [List.prefix_nil] at hl
        rw [hl]
        exact .init _ _ _
  | opened t slave c =>
      rw [List.prefix_cons_iff] at hfront
      obtain rfl | ⟨l, rfl, hl⟩ := hfront
      · exact .idle
      · rw [List.prefix_cons_iff] at hl
        obtain rfl | ⟨l', rfl, hl⟩ := hl
        · exact .init _ _ _
        · rw [List.prefix_nil] at hl
          rw [hl]
          exact .opened _ _ _
  | transferred t slave c =>
      rw [List.prefix_cons_iff] at hfront
      obtain rfl | ⟨l, rfl, hl⟩ := hfront
      · exact .idle
      · rw [List.prefix_cons_iff] at hl
        obtain rfl | ⟨l', rfl, hl⟩ := hl
        · exact .init _ _ _
        · rw [List.prefix_cons_iff] at hl
          obtain rfl | ⟨l'', rfl, hl⟩ := hl
          · exact .opened _ _ _
          · rw [List.prefix_nil] at hl
            rw [hl]
            exact .transferred _ _ _

/-- The RPC behind `rs`: the first one is an `Init`; the others find the transaction waiting. -/
theorem InOrder.last (h : InOrder (rs ++ [⟨k, t, slave, code⟩])) :
    (rs = [] ∧ k = .init) ∨
      (rs = [⟨.init, t, slave, some 227⟩] ∧ k = .opening) ∨
      (rs = [⟨.init, t, slave, some 227⟩, ⟨.opening, t, slave, some 150⟩] ∧ k = .transfer) := by
  generalize hzs : rs ++ [⟨k, t, slave, code⟩] = zs at h
  cases h with
  | idle => exact absurd hzs (by simp)
  | init u sl c =>
      have hsplit : rs ++ [⟨k, t, slave, code⟩] = [] ++ [⟨.init, u, sl, c⟩] := hzs
      obtain ⟨hrs, hlast⟩ := List.append_inj' hsplit rfl
      simp_all
  | opened u sl c =>
      have hsplit : rs ++ [⟨k, t, slave, code⟩] = [⟨.init, u, sl, some 227⟩] ++
        [⟨.opening, u, sl, c⟩] := hzs
      obtain ⟨hrs, hlast⟩ := List.append_inj' hsplit rfl
      simp_all
  | transferred u sl c =>
      have hsplit : rs ++ [⟨k, t, slave, code⟩] = [⟨.init, u, sl, some 227⟩,
        ⟨.opening, u, sl, some 150⟩] ++ [⟨.transfer, u, sl, c⟩] := hzs
      obtain ⟨hrs, hlast⟩ := List.append_inj' hsplit rfl
      simp_all

/-- Nothing comes behind an RPC without an answer. -/
theorem InOrder.not_behind {d : PassiveRpc} (h : InOrder (rs ++ [⟨k, t, slave, none⟩] ++ [d])) :
    False := by
  obtain ⟨step, u, sl, c⟩ := d
  obtain ⟨hnil, -⟩ | ⟨hone, -⟩ | ⟨htwo, -⟩ := h.last
  · exact absurd hnil (by simp)
  · have hsplit : rs ++ [⟨k, t, slave, none⟩] = [] ++ [⟨.init, u, sl, some 227⟩] := hone
    have hlast := (List.append_inj' hsplit rfl).2
    exact absurd hlast (by simp)
  · have hsplit : rs ++ [⟨k, t, slave, none⟩] = [⟨.init, u, sl, some 227⟩] ++
      [⟨.opening, u, sl, some 150⟩] := htwo
    have hlast := (List.append_inj' hsplit rfl).2
    exact absurd hlast (by simp)

/-- All RPCs of a transaction go to one slave. -/
theorem InOrder.one_slave (h : InOrder (rs ++ [⟨k, t, slave, code⟩])) :
    ∀ d ∈ rs ++ [⟨k, t, slave, code⟩], d.slave = slave := by
  intro d hd
  obtain ⟨rfl, -⟩ | ⟨rfl, -⟩ | ⟨rfl, -⟩ := h.last
  · rw [List.nil_append, List.mem_singleton] at hd
    rw [hd]
  · simp only [List.cons_append, List.nil_append, List.mem_cons, List.not_mem_nil, or_false] at hd
    obtain rfl | rfl := hd <;> rfl
  · simp only [List.cons_append, List.nil_append, List.mem_cons, List.not_mem_nil, or_false] at hd
    obtain rfl | rfl | rfl := hd <;> rfl

/-- A transaction whose last RPC is no transfer has none. -/
theorem InOrder.no_transfer (h : InOrder (rs ++ [⟨k, t, slave, code⟩])) (hk : k ≠ .transfer) :
    ∀ d ∈ rs ++ [⟨k, t, slave, code⟩], d.step ≠ .transfer := by
  intro d hd
  obtain ⟨rfl, rfl⟩ | ⟨rfl, rfl⟩ | ⟨-, rfl⟩ := h.last
  · rw [List.nil_append, List.mem_singleton] at hd
    rw [hd]
    simp
  · simp only [List.cons_append, List.nil_append, List.mem_cons, List.not_mem_nil, or_false] at hd
    obtain rfl | rfl := hd <;> simp
  · exact absurd rfl hk

theorem not_waiting_nil : ¬ Waiting t slave [] := by
  intro h
  obtain h | h := h
  · exact absurd h (by simp)
  · exact absurd h (by simp)

theorem Waiting.exists_mem (h : Waiting t slave rs) : ∃ e, e ∈ rs := by
  refine List.exists_mem_of_ne_nil rs ?_
  intro hnil
  rw [hnil] at h
  exact not_waiting_nil h

/-- What the last RPC of a transaction that waits has been answered. -/
theorem Waiting.last {sl : SlaveInfo} (h : Waiting t sl (rs ++ [⟨k, t, slave, code⟩])) :
    sl = slave ∧ (k = .init ∧ code = some 227 ∨ k = .opening ∧ code = some 150) := by
  obtain h | h := h
  · have hsplit : rs ++ [⟨k, t, slave, code⟩] = [] ++ [⟨.init, t, sl, some 227⟩] := h
    have hlast := (List.append_inj' hsplit rfl).2
    rw [List.cons.injEq, PassiveRpc.mk.injEq] at hlast
    obtain ⟨⟨hk, -, hslave, hcode⟩, -⟩ := hlast
    exact ⟨hslave.symm, .inl ⟨hk, hcode⟩⟩
  · have hsplit : rs ++ [⟨k, t, slave, code⟩] = [⟨.init, t, sl, some 227⟩] ++
      [⟨.opening, t, sl, some 150⟩] := h
    have hlast := (List.append_inj' hsplit rfl).2
    rw [List.cons.injEq, PassiveRpc.mk.injEq] at hlast
    obtain ⟨⟨hk, -, hslave, hcode⟩, -⟩ := hlast
    exact ⟨hslave.symm, .inr ⟨hk, hcode⟩⟩

end Order

theorem Orderly.mono {sent' : ℕ → List Call} (h : Orderly sent')
    (hsent : ∀ i, ∃ cs, sent' i = sent i ++ cs) : Orderly sent := by
  have hpassive : ∀ i, ∀ d ∈ passives (sent i), d ∈ passives (sent' i) := by
    intro i d hd
    obtain ⟨cs, hcs⟩ := hsent i
    rw [hcs, passives_append]
    exact List.mem_append_left _ hd
  refine ⟨?_, ?_, ?_⟩
  · intro i t
    obtain ⟨cs, hcs⟩ := hsent i
    have hin := h.ordered i t
    rw [hcs, rpcs_append] at hin
    exact hin.of_append
  · intro i j d hd e he heq
    exact h.apart i j d (hpassive i d hd) e (hpassive j e he) heq
  · intro i j d hd hactive
    obtain ⟨cs, hcs⟩ := hsent j
    refine h.active i j d (hpassive i d hd) ?_
    rw [hcs, actives_append]
    exact List.mem_append_left _ hactive

/-! ### A call in what has been sent -/

/-- The call is the last one of its transaction, with this code in the reply; or it is an active
transfer. -/
inductive Noted (sent : ℕ → List Call) (x : Remote) (code : Option ℕ) : Prop where
  | passive (i : ℕ) (k : PassiveStep) (earlier : List PassiveRpc) : x.rpc.step = some k →
      rpcs x.trans_id (sent i) = earlier ++ [⟨k, x.trans_id, x.slave, code⟩] → Noted sent x code
  | active (i : ℕ) : x.rpc.step = none → x.trans_id ∈ actives (sent i) → Noted sent x code

variable {code : Option ℕ} {k : PassiveStep}

/-- Only one session has RPCs of a passive transaction. -/
theorem Orderly.session {d e : PassiveRpc} (h : Orderly sent) (hd : d ∈ rpcs t (sent i))
    (he : e ∈ rpcs t (sent j)) : i = j := by
  obtain ⟨hd, hdt⟩ := mem_rpcs.mp hd
  obtain ⟨he, het⟩ := mem_rpcs.mp he
  exact h.apart i j d hd e he (hdt.trans het.symm)

theorem Orderly.rpcs_active (h : Orderly sent) (ht : t ∈ actives (sent i)) (j : ℕ) :
    rpcs t (sent j) = [] := by
  rw [List.eq_nil_iff_forall_not_mem]
  intro d hd
  obtain ⟨hd, hdt⟩ := mem_rpcs.mp hd
  rw [← hdt] at ht
  exact h.active j i d hd ht

theorem Noted.one_slave {d : PassiveRpc} (h : Noted sent x code) (horder : Orderly sent)
    (hd : d ∈ rpcs x.trans_id (sent j)) : d.slave = x.slave := by
  cases h with
  | passive i k earlier hstep heq =>
      have hlast : PassiveRpc.mk k x.trans_id x.slave code ∈ rpcs x.trans_id (sent i) := by
        rw [heq]
        simp
      have hij := horder.session hlast hd
      rw [← hij, heq] at hd
      have hin := horder.ordered i x.trans_id
      rw [heq] at hin
      exact hin.one_slave d hd
  | active i hstep hactive =>
      rw [horder.rpcs_active hactive j] at hd
      exact absurd hd List.not_mem_nil

/-- A transaction that waits has its last reply from the call. -/
theorem Noted.waiting (h : Noted sent x code) (horder : Orderly sent)
    (hw : Waiting x.trans_id slave (rpcs x.trans_id (sent j))) : slave = x.slave ∧
      (x.rpc.step = some .init ∧ code = some 227 ∨
        x.rpc.step = some .opening ∧ code = some 150) := by
  cases h with
  | passive i k earlier hstep heq =>
      obtain ⟨d, hd⟩ := hw.exists_mem
      have hlast : PassiveRpc.mk k x.trans_id x.slave code ∈ rpcs x.trans_id (sent i) := by
        rw [heq]
        simp
      have hij := horder.session hlast hd
      rw [← hij, heq] at hw
      obtain ⟨hslave, hcase⟩ := hw.last
      rw [hstep, Option.some.injEq, Option.some.injEq]
      exact ⟨hslave, hcase⟩
  | active i hstep hactive =>
      rw [horder.rpcs_active hactive j] at hw
      exact absurd hw not_waiting_nil

/-! ### A call that is carried out -/

theorem isOpen_congr {s s' : SlaveState} (h : s'.mDataSock t = s.mDataSock t) :
    s'.IsOpen t ↔ s.IsOpen t := by
  unfold SlaveState.IsOpen
  rw [h]

theorem ready_congr {s s' : SlaveState} {rpc : SlaveRpc}
    (h : s'.mDataSock rpc.trans_id = s.mDataSock rpc.trans_id) (hready : rpc.Ready s) :
    rpc.Ready s' := by
  cases rpc with
  | openPasvDataConnection p =>
      obtain ⟨fd, hfd⟩ := hready
      exact ⟨fd, h.trans hfd⟩
  | pasvStoreTransfer p iflags =>
      intro hnone
      exact hready (h.symm.trans hnone)
  | pasvRetrieveTransfer p =>
      intro hnone
      exact hready (h.symm.trans hnone)
  | _ => trivial

theorem ready_of_active {s : SlaveState} {rpc : SlaveRpc} (h : rpc.step = none) : rpc.Ready s := by
  cases rpc <;> trivial

/-- The slaves are at work: every call has found its transaction as the handler takes it to be. -/
def Slaves.AtWork (n : Slaves) : Prop :=
  ∀ slave, SlaveHistory (n.answered slave) (n.states slave)

/-- What carrying out a call does. -/
structure Carried (x : Remote) (r : Reply) (n n' : Slaves) : Prop where
  late : n'.late = n.late
  atWork : n'.AtWork
  others : ∀ slave u, slave ≠ x.slave ∨ u ≠ x.trans_id →
    (n'.states slave).mDataSock u = (n.states slave).mDataSock u
  opens : x.rpc.Connected r → (n'.states x.slave).IsOpen x.trans_id
  open_of : (n'.states x.slave).IsOpen x.trans_id → x.rpc.Connected r ∨ x.rpc.Unanswered r

theorem CarriesOut.carried (h : CarriesOut x r n n') (hwork : n.AtWork)
    (hready : x.rpc.Ready (n.states x.slave)) : Carried x r n n' := by
  cases h with
  | @run env rounds s' hrun =>
      have heffect := SlaveRpc.effect (hwork x.slave).inv hready hrun
      have hself : Function.update n.states x.slave s' x.slave = s' := Function.update_self _ _ _
      refine ⟨rfl, ?_, ?_, ?_, ?_⟩
      · intro slave
        by_cases hslave : slave = x.slave
        · subst hslave
          simp only [Function.update_self]
          exact (hwork _).call env rounds x.rpc hready hrun
        · simp only [Function.update_of_ne hslave]
          exact hwork slave
      · intro slave u hu
        by_cases hslave : slave = x.slave
        · subst hslave
          simp only [Function.update_self]
          exact heffect.moves.others u (hu.resolve_left fun hne => hne rfl)
        · simp only [Function.update_of_ne hslave]
      · intro hconnected
        simp only [hself]
        exact heffect.opens hconnected
      · intro hopen
        simp only [hself] at hopen
        exact heffect.open_of hopen

/-- The replies that the next RPC of a transaction needs. -/
theorem connected_of_code {rpc : SlaveRpc} (h : rpc.step = some .init ∧ code = some 227 ∨
      rpc.step = some .opening ∧ code = some 150)
    (hcode : ∀ c, code = some c → r.code = some c) : rpc.Connected r := by
  cases rpc with
  | initPasvDataConnection p ip startPort portLen =>
      obtain ⟨-, hc⟩ | ⟨hstep, -⟩ := h
      · intro hempty
        have hr := hcode _ hc
        rw [hempty] at hr
        exact absurd hr (by simp [Reply.code])
      · exact absurd hstep (by simp [SlaveRpc.step])
  | openPasvDataConnection p =>
      obtain ⟨hstep, -⟩ | ⟨-, hc⟩ := h
      · exact absurd hstep (by simp [SlaveRpc.step])
      · intro hrefused
        have hr := hcode _ hc
        rw [hrefused] at hr
        exact absurd hr (by simp)
  | _ => exact absurd h (by simp [SlaveRpc.step])

/-- Only an `Init` or an `Open` leaves its transaction with a socket. -/
theorem step_of_open (h : x.rpc.Connected r ∨ x.rpc.Unanswered r) :
    ∃ k, x.rpc.step = some k ∧ k ≠ .transfer := by
  cases hrpc : x.rpc with
  | initPasvDataConnection p ip startPort portLen => exact ⟨.init, rfl, by simp⟩
  | openPasvDataConnection p => exact ⟨.opening, rfl, by simp⟩
  | _ =>
      rw [hrpc] at h
      exact (h.elim id id).elim

/-! ### The invariant -/

/-- The transaction may have a socket on the slave: it has been sent there, and a transfer in it is
still on its way. -/
def MayHaveSocket (sent : ℕ → List Call) (late : List Remote) (slave : SlaveInfo) (t : ℤ) : Prop :=
  ∃ i, (∃ e ∈ rpcs t (sent i), e.slave = slave) ∧ ∀ e ∈ rpcs t (sent i), e.step = .transfer →
    ∃ y ∈ late, y.trans_id = t ∧ y.rpc.step = some .transfer

/-- The two calls are not of one passive transaction. -/
def Remote.Apart (x y : Remote) : Prop :=
  x.rpc.step ≠ none → y.rpc.step ≠ none → x.trans_id ≠ y.trans_id

theorem Remote.Apart.symm (h : x.Apart y) : y.Apart x := fun hy hx heq => h hx hy heq.symm

/-- What the slaves are like; of the sockets only those of the transactions of `A` are known. -/
structure NetInv (A : ℤ → Prop) (sent : ℕ → List Call) (n : Slaves) : Prop where
  atWork : n.AtWork
  ready : ∀ y ∈ n.late, y.rpc.Ready (n.states y.slave)
  noted : ∀ y ∈ n.late, Noted sent y none
  single : n.late.Pairwise Remote.Apart
  waiting : ∀ i t slave, A t → Waiting t slave (rpcs t (sent i)) → (n.states slave).IsOpen t
  sockets : ∀ slave t, A t → (n.states slave).IsOpen t → MayHaveSocket sent n.late slave t

/-- **A call is carried out**: what is known of all other transactions is known of all. -/
theorem NetInv.carry (h : NetInv (fun u => u ≠ x.trans_id) sent n) (horder : Orderly sent)
    (hnoted : Noted sent x code) (hcode : ∀ c, code = some c → r.code = some c)
    (hready : x.rpc.Ready (n.states x.slave)) (hcarries : CarriesOut x r n n')
    (hother : ∀ slave ≠ x.slave, ¬ (n.states slave).IsOpen x.trans_id)
    (hlate : ∀ y ∈ n.late, y.rpc.step ≠ none → x.trans_id ≠ y.trans_id) :
    NetInv (fun _ => True) sent n' := by
  have hcarried := hcarries.carried h.atWork hready
  have hsame : ∀ slave u, u ≠ x.trans_id →
      ((n'.states slave).IsOpen u ↔ (n.states slave).IsOpen u) :=
    fun slave u hu => isOpen_congr (hcarried.others slave u (.inr hu))
  refine ⟨hcarried.atWork, ?_, ?_, ?_, ?_, ?_⟩
  · intro y hy
    rw [hcarried.late] at hy
    by_cases hactive : y.rpc.step = none
    · exact ready_of_active hactive
    · have hne := hlate y hy hactive
      exact ready_congr (hcarried.others y.slave _ (.inr hne.symm)) (h.ready y hy)
  · intro y hy
    rw [hcarried.late] at hy
    exact h.noted y hy
  · rw [hcarried.late]
    exact h.single
  · intro i u slave _ hw
    by_cases hu : u = x.trans_id
    · subst hu
      obtain ⟨rfl, hcase⟩ := hnoted.waiting horder hw
      exact hcarried.opens (connected_of_code hcase hcode)
    · exact (hsame slave u hu).mpr (h.waiting i u slave hu hw)
  · intro slave u _ hopen
    rw [hcarried.late]
    by_cases hu : u = x.trans_id
    · subst hu
      by_cases hslave : slave = x.slave
      · subst hslave
        obtain ⟨k, hstep, hk⟩ := step_of_open (hcarried.open_of hopen)
        cases hnoted with
        | passive i k' earlier hstep' heq =>
            rw [hstep, Option.some.injEq] at hstep'
            rw [← hstep'] at heq
            have hin := horder.ordered i x.trans_id
            rw [heq] at hin
            refine ⟨i, ⟨_, by rw [heq]; exact List.mem_append_right _ List.mem_cons_self, rfl⟩, ?_⟩
            intro e he htransfer
            rw [heq] at he
            exact absurd htransfer (hin.no_transfer hk e he)
        | active i hstep' _ =>
            rw [hstep] at hstep'
            exact absurd hstep' (by simp)
      · have hold := (isOpen_congr (hcarried.others slave _ (.inl hslave))).mp hopen
        exact absurd hold (hother slave hslave)
    · exact h.sockets slave u hu ((hsame slave u hu).mp hopen)

/-! ### A call is sent -/

/-- What has been sent, with one more call of session `i`. -/
def withCalls (sent : ℕ → List Call) (i : ℕ) (cs : List Call) : ℕ → List Call :=
  Function.update sent i (sent i ++ cs)

theorem withCalls_self : withCalls sent i cs i = sent i ++ cs := Function.update_self _ _ _

theorem withCalls_other (h : j ≠ i) : withCalls sent i cs j = sent j := Function.update_of_ne h _ _

theorem withCalls_nil : withCalls sent i [] = sent := by
  rw [withCalls, List.append_nil, Function.update_eq_self]

theorem withCalls_cons : withCalls (withCalls sent i [c]) i cs = withCalls sent i (c :: cs) := by
  rw [withCalls, withCalls_self, List.append_assoc, withCalls, withCalls, Function.update_idem]
  rfl

theorem exists_withCalls (sent : ℕ → List Call) (i : ℕ) (cs : List Call) (j : ℕ) :
    ∃ cs', withCalls sent i cs j = sent j ++ cs' := by
  by_cases h : j = i
  · subst h
    exact ⟨cs, withCalls_self⟩
  · exact ⟨[], by rw [withCalls_other h, List.append_nil]⟩

theorem rpcs_withCalls (h : rpcs t cs = []) : rpcs t (withCalls sent i cs j) = rpcs t (sent j) := by
  by_cases hj : j = i
  · subst hj
    rw [withCalls_self, rpcs_append, h, List.append_nil]
  · rw [withCalls_other hj]

theorem mem_actives_withCalls (h : t ∈ actives (sent j)) : t ∈ actives (withCalls sent i cs j) := by
  obtain ⟨cs', hcs'⟩ := exists_withCalls sent i cs j
  rw [hcs', actives_append]
  exact List.mem_append_left _ h

/-- The RPCs of other transactions than that of the call. -/
theorem rpcs_remote_other (hc : c.remote inet_addr = some (x, reply)) (ht : t ≠ x.trans_id) :
    rpcs t [c] = [] := by
  rw [List.eq_nil_iff_forall_not_mem]
  intro e he
  obtain ⟨he, het⟩ := mem_rpcs.mp he
  rw [passives, List.mem_filterMap] at he
  obtain ⟨c', hc', heq⟩ := he
  rw [List.mem_singleton] at hc'
  rw [hc', passive_of_remote hc, Option.map_eq_some_iff] at heq
  obtain ⟨k, -, rfl⟩ := heq
  exact ht het.symm

theorem rpcs_remote_self (hc : c.remote inet_addr = some (x, reply)) (hk : x.rpc.step = some k) :
    rpcs x.trans_id [c] = [⟨k, x.trans_id, x.slave, k.codeOf reply⟩] := by
  have hpassive := passive_of_remote hc
  rw [hk] at hpassive
  have hcs : passives [c] = [⟨k, x.trans_id, x.slave, k.codeOf reply⟩] := by
    rw [passives, List.filterMap_cons_some hpassive]
    rfl
  rw [rpcs_single hcs, if_pos rfl]

theorem rpcs_remote_active (hc : c.remote inet_addr = some (x, reply)) (hk : x.rpc.step = none) :
    rpcs t [c] = [] := by
  have hpassive := passive_of_remote hc
  rw [hk] at hpassive
  have hcs : passives [c] = [] := by
    rw [passives, List.filterMap_cons_none hpassive]
    rfl
  exact rpcs_eq_nil hcs t

theorem codeOf_some {c : ℕ} (h : k.codeOf reply = some c) : reply.bind Reply.code = some c := by
  cases k with
  | init => exact h
  | opening => exact h
  | transfer => exact absurd h (by simp [PassiveStep.codeOf])

/-- The transaction of the call with it. -/
theorem rpcs_withCalls_self (sent : ℕ → List Call) (i : ℕ)
    (hc : c.remote inet_addr = some (x, reply)) (hk : x.rpc.step = some k) :
    rpcs x.trans_id (withCalls sent i [c] i) =
      rpcs x.trans_id (sent i) ++ [⟨k, x.trans_id, x.slave, k.codeOf reply⟩] := by
  rw [withCalls_self, rpcs_append, rpcs_remote_self hc hk]

theorem actives_withCalls_self (sent : ℕ → List Call) (i : ℕ)
    (hc : c.remote inet_addr = some (x, reply)) (hk : x.rpc.step = none) :
    x.trans_id ∈ actives (withCalls sent i [c] i) := by
  rw [withCalls_self, actives_append, active_of_remote hc hk]
  exact List.mem_append_right _ List.mem_cons_self

/-- The call in what has been sent with it. -/
theorem noted_withCalls (sent : ℕ → List Call) (i : ℕ) (hc : c.remote inet_addr = some (x, reply)) :
    ∃ code, Noted (withCalls sent i [c]) x code ∧
      ∀ c, code = some c → reply.bind Reply.code = some c := by
  cases hstep : x.rpc.step with
  | none =>
      refine ⟨none, .active i hstep (actives_withCalls_self sent i hc hstep), ?_⟩
      intro c hc
      exact absurd hc (by simp)
  | some k =>
      exact ⟨k.codeOf reply, .passive i k _ hstep (rpcs_withCalls_self sent i hc hstep),
        fun _ => codeOf_some⟩

section Send

variable (h : NetInv (fun _ => True) sent n) (horder : Orderly (withCalls sent i [c]))
  (hc : c.remote inet_addr = some (x, reply))
include h horder hc

/-- A call that is on its way is not in the transaction of the next one. -/
theorem NetInv.apart (hy : y ∈ n.late) (hstep : y.rpc.step ≠ none) : x.trans_id ≠ y.trans_id := by
  intro heq
  cases h.noted y hy with
  | active j hnone _ => exact hstep hnone
  | passive j k earlier _ hlist =>
      have hmem : PassiveRpc.mk k y.trans_id y.slave none ∈
          rpcs x.trans_id (withCalls sent i [c] j) := by
        obtain ⟨cs', hcs'⟩ := exists_withCalls sent i [c] j
        rw [hcs', rpcs_append, heq, hlist]
        simp
      cases hx : x.rpc.step with
      | none =>
          rw [horder.rpcs_active (actives_withCalls_self sent i hc hx) j] at hmem
          exact absurd hmem List.not_mem_nil
      | some k' =>
          have hself := rpcs_withCalls_self sent i hc hx
          have hnew : PassiveRpc.mk k' x.trans_id x.slave (k'.codeOf reply) ∈
              rpcs x.trans_id (withCalls sent i [c] i) := by
            rw [hself]
            simp
          have hij := horder.session hnew hmem
          have hin := horder.ordered i x.trans_id
          rw [hself, heq, hij, hlist] at hin
          exact hin.not_behind

/-- **The slave is ready** for the next call. -/
theorem NetInv.ready_next : x.rpc.Ready (n.states x.slave) := by
  have hopen : ∀ k, x.rpc.step = some k → k ≠ .init → (n.states x.slave).IsOpen x.trans_id := by
    intro k hk hne
    have hin := horder.ordered i x.trans_id
    rw [rpcs_withCalls_self sent i hc hk] at hin
    obtain ⟨-, hinit⟩ | ⟨hone, -⟩ | ⟨htwo, -⟩ := hin.last
    · exact absurd hinit hne
    · exact h.waiting i _ _ trivial (.inl hone)
    · exact h.waiting i _ _ trivial (.inr htwo)
  have hentry : (n.states x.slave).IsOpen x.trans_id →
      (n.states x.slave).mDataSock x.trans_id ≠ none := by
    intro hopen
    obtain ⟨fd, hfd⟩ := hopen
    rw [hfd]
    simp
  obtain ⟨slave, rpc⟩ := x
  cases rpc with
  | openPasvDataConnection p => exact hopen .opening rfl (by simp)
  | pasvStoreTransfer p iflags => exact hentry (hopen .transfer rfl (by simp))
  | pasvRetrieveTransfer p => exact hentry (hopen .transfer rfl (by simp))
  | _ => trivial

/-- Only the slave that is called can have a socket for the transaction. -/
theorem NetInv.not_open_elsewhere (hslave : slave ≠ x.slave) :
    ¬ (n.states slave).IsOpen x.trans_id := by
  intro hopen
  obtain ⟨j, ⟨e, he, hes⟩, -⟩ := h.sockets slave x.trans_id trivial hopen
  obtain ⟨code, hnoted, -⟩ := noted_withCalls sent i hc
  obtain ⟨cs', hcs'⟩ := exists_withCalls sent i [c] j
  have hmem : e ∈ rpcs x.trans_id (withCalls sent i [c] j) := by
    rw [hcs', rpcs_append]
    exact List.mem_append_left _ he
  exact hslave (hes.symm.trans (hnoted.one_slave horder hmem))

/-- What is known of the other transactions is so with the next call, too. -/
theorem NetInv.send : NetInv (fun u => u ≠ x.trans_id) (withCalls sent i [c]) n := by
  have hlists : ∀ u, u ≠ x.trans_id → ∀ j, rpcs u (withCalls sent i [c] j) = rpcs u (sent j) :=
    fun u hu j => rpcs_withCalls (rpcs_remote_other hc hu)
  refine ⟨h.atWork, h.ready, ?_, h.single, ?_, ?_⟩
  · intro y hy
    cases h.noted y hy with
    | active j hnone hactive => exact .active j hnone (mem_actives_withCalls hactive)
    | passive j k earlier hk hlist =>
        have hne := h.apart horder hc hy (by rw [hk]; simp)
        refine .passive j k earlier hk ?_
        rw [hlists _ hne.symm j]
        exact hlist
  · intro j u sl hu hw
    rw [hlists u hu j] at hw
    exact h.waiting j u sl trivial hw
  · intro sl u hu hopen
    obtain ⟨j, hsent, htransfers⟩ := h.sockets sl u trivial hopen
    refine ⟨j, ?_, ?_⟩
    · rw [hlists u hu j]
      exact hsent
    · rw [hlists u hu j]
      exact htransfers

end Send

/-! ### The steps -/

/-- A call that is not answered is on its way. -/
theorem NetInv.lose (h : NetInv (fun _ => True) sent n) (horder : Orderly (withCalls sent i [c]))
    (hc : c.remote inet_addr = some (x, none)) :
    NetInv (fun _ => True) (withCalls sent i [c]) { n with late := x :: n.late } := by
  have hsend := h.send horder hc
  obtain ⟨code, hnoted, hcode⟩ := noted_withCalls sent i hc
  have hnone : code = none := by
    cases code with
    | none => rfl
    | some c => exact absurd (hcode c rfl) (by simp)
  rw [hnone] at hnoted
  have hlate : ∀ y ∈ n.late, x.Apart y := fun y hy _ hstep => h.apart horder hc hy hstep
  refine ⟨h.atWork, ?_, ?_, List.pairwise_cons.mpr ⟨hlate, h.single⟩, ?_, ?_⟩
  · intro y hy
    obtain rfl | hy := List.mem_cons.mp hy
    · exact h.ready_next horder hc
    · exact h.ready y hy
  · intro y hy
    obtain rfl | hy := List.mem_cons.mp hy
    · exact hnoted
    · exact hsend.noted y hy
  · intro j u sl _ hw
    by_cases hu : u = x.trans_id
    · subst hu
      -- the last RPC of its transaction has no answer
      obtain ⟨-, ⟨-, hno⟩ | ⟨-, hno⟩⟩ := hnoted.waiting horder hw
      · exact absurd hno (by simp)
      · exact absurd hno (by simp)
    · exact hsend.waiting j u sl hu hw
  · intro sl u _ hopen
    obtain ⟨j, ⟨e, he, hes⟩, htransfers⟩ := h.sockets sl u trivial hopen
    obtain ⟨cs', hcs'⟩ := exists_withCalls sent i [c] j
    refine ⟨j, ⟨e, by rw [hcs', rpcs_append]; exact List.mem_append_left _ he, hes⟩, ?_⟩
    intro e' he' htransfer
    by_cases hold : e' ∈ rpcs u (sent j)
    · obtain ⟨y, hy, hyt, hystep⟩ := htransfers e' hold htransfer
      exact ⟨y, List.mem_cons_of_mem _ hy, hyt, hystep⟩
    · -- then the transfer is this call
      by_cases hu : u = x.trans_id
      · subst hu
        cases hx : x.rpc.step with
        | none =>
            rw [rpcs_withCalls (rpcs_remote_active hc hx)] at he'
            exact absurd he' hold
        | some k =>
            by_cases hj : j = i
            · subst hj
              rw [rpcs_withCalls_self sent j hc hx, List.mem_append, List.mem_singleton] at he'
              have hlast := he'.resolve_left hold
              rw [hlast] at htransfer
              have hk : k = .transfer := htransfer
              exact ⟨x, List.mem_cons_self, rfl, by rw [hx, hk]⟩
            · rw [withCalls_other hj] at he'
              exact absurd he' hold
      · rw [rpcs_withCalls (rpcs_remote_other hc hu)] at he'
        exact absurd he' hold

/-- One call of a step. -/
theorem NetInv.deliver (h : NetInv (fun _ => True) sent n)
    (horder : Orderly (withCalls sent i [c])) (hdelivered : Delivered inet_addr n c n') :
    NetInv (fun _ => True) (withCalls sent i [c]) n' := by
  cases hdelivered with
  | here hlocal =>
      have hpassive : passives [c] = [] := by
        rw [passives, List.filterMap_cons_none (passive_of_local hlocal)]
        rfl
      have hlists : ∀ u j, rpcs u (withCalls sent i [c] j) = rpcs u (sent j) :=
        fun u j => rpcs_withCalls (rpcs_eq_nil hpassive u)
      refine ⟨h.atWork, h.ready, ?_, h.single, ?_, ?_⟩
      · intro y hy
        cases h.noted y hy with
        | active j hnone hactive => exact .active j hnone (mem_actives_withCalls hactive)
        | passive j k earlier hk hlist =>
            refine .passive j k earlier hk ?_
            rw [hlists]
            exact hlist
      · intro j u sl _ hw
        rw [hlists] at hw
        exact h.waiting j u sl trivial hw
      · intro sl u _ hopen
        obtain ⟨j, hsent, htransfers⟩ := h.sockets sl u trivial hopen
        refine ⟨j, ?_, ?_⟩
        · rw [hlists]
          exact hsent
        · rw [hlists]
          exact htransfers
  | @answered x r n' hc hcarries =>
      obtain ⟨code, hnoted, hcode⟩ := noted_withCalls sent i hc
      exact (h.send horder hc).carry horder hnoted hcode (h.ready_next horder hc) hcarries
        (fun sl hsl => h.not_open_elsewhere horder hc hsl) fun y hy => h.apart horder hc hy
  | lost hc => exact h.lose horder hc

/-- The calls of a step. -/
theorem NetInv.deliver_all (hdelivered : AllDelivered inet_addr n cs n')
    (h : NetInv (fun _ => True) sent n) (horder : Orderly (withCalls sent i cs)) :
    NetInv (fun _ => True) (withCalls sent i cs) n' := by
  induction hdelivered generalizing sent with
  | nil n =>
      rw [withCalls_nil]
      exact h
  | @cons n n₁ n₂ c cs hone _ ih =>
      rw [← withCalls_cons] at horder ⊢
      have hfirst : Orderly (withCalls sent i [c]) :=
        horder.mono fun j => exists_withCalls _ i cs j
      exact ih (h.deliver hfirst hone) horder

/-- A slave carries out a call that has been on its way. -/
theorem NetInv.carry_late {xs ys : List Remote} (h : NetInv (fun _ => True) sent n)
    (horder : Orderly sent) (hlate : n.late = xs ++ x :: ys)
    (hcarries : CarriesOut x r { n with late := xs ++ ys } n') :
    NetInv (fun _ => True) sent n' := by
  have hmem : x ∈ n.late := by
    rw [hlate]
    simp
  have hrest : ∀ y ∈ xs ++ ys, y ∈ n.late := by
    intro y hy
    rw [hlate]
    rw [List.mem_append] at hy ⊢
    exact hy.imp_right (List.mem_cons_of_mem x)
  have hsingle := h.single
  rw [hlate, List.pairwise_middle fun h => h.symm, List.pairwise_cons] at hsingle
  have hnoted := h.noted x hmem
  have hreduced : NetInv (fun u => u ≠ x.trans_id) sent { n with late := xs ++ ys } := by
    refine ⟨h.atWork, fun y hy => h.ready y (hrest y hy), fun y hy => h.noted y (hrest y hy),
      hsingle.2, fun j u sl _ hw => h.waiting j u sl trivial hw, ?_⟩
    intro sl u hu hopen
    obtain ⟨j, hsent, htransfers⟩ := h.sockets sl u trivial hopen
    refine ⟨j, hsent, ?_⟩
    intro e he htransfer
    obtain ⟨y, hy, hyt, hystep⟩ := htransfers e he htransfer
    refine ⟨y, ?_, hyt, hystep⟩
    rw [hlate, List.mem_append, List.mem_cons] at hy
    rw [List.mem_append]
    obtain hy | rfl | hy := hy
    · exact .inl hy
    · exact absurd hyt.symm hu
    · exact .inr hy
  refine hreduced.carry horder hnoted (fun c hc => absurd hc (by simp)) (h.ready x hmem) hcarries
    ?_ ?_
  · intro sl hsl hopen
    obtain ⟨j, ⟨e, he, hes⟩, -⟩ := h.sockets sl x.trans_id trivial hopen
    exact hsl (hes.symm.trans (hnoted.one_slave horder he))
  · intro y hy hystep
    cases hnoted with
    | passive i k earlier hk _ => exact hsingle.1 y hy (by rw [hk]; simp) hystep
    | active i _ hactive =>
        intro heq
        cases h.noted y (hrest y hy) with
        | active j hnone _ => exact hystep hnone
        | passive j k earlier _ hlist =>
            have hnil := horder.rpcs_active hactive j
            rw [heq, hlist] at hnil
            exact absurd hnil (by simp)

/-! ### The runs -/

theorem Deployed.netInv (h : Deployed cfg inet_addr d) :
    NetInv (fun _ => True) d.metaserver.sent d.slaves := by
  induction h with
  | @start m hfresh =>
      have hnil : ∀ t i, rpcs t (m.sent i) = [] := by
        intro t i
        rw [hfresh.sent i]
        rfl
      refine ⟨fun _ => .start, fun y hy => absurd hy List.not_mem_nil,
        fun y hy => absurd hy List.not_mem_nil, List.Pairwise.nil, ?_, ?_⟩
      · intro i t sl _ hw
        rw [hnil t i] at hw
        exact absurd hw not_waiting_nil
      · intro sl t _ hopen
        obtain ⟨fd, hfd⟩ := hopen
        exact absurd hfd (by simp)
  | @step d d' hrun hstep ih =>
      have horder := (hrun.step hstep).metaserverRun.orderly
      cases hstep with
      | session hlive hkeeps hdelivered => exact ih.deliver_all hdelivered horder
      | late hlate hcarries => exact ih.carry_late horder hlate hcarries

/-- The slave is ready for the call, and carries it out on open descriptors of its transaction. -/
def SlaveRpc.Safe (rpc : SlaveRpc) (s : SlaveState) : Prop :=
  rpc.Ready s ∧ ∀ env rounds, Along (serveSlave env) (Owns rpc.trans_id) (rpc.body rounds) s

theorem SlaveHistory.safe {calls : List Answered} {s : SlaveState} (h : SlaveHistory calls s) :
    ∀ a ∈ calls, a.rpc.Safe a.before := by
  induction h with
  | start => exact fun a ha => absurd ha List.not_mem_nil
  | @call calls s s' r env rounds rpc hcalls hready hrun ih =>
      intro a ha
      obtain rfl | ha := List.mem_cons.mp ha
      · exact ⟨hready, fun env rounds => (rpc.handles rounds).along s ⟨hcalls.inv, hready⟩⟩
      · exact ih a ha

/-- **The slaves are ready**: whatever the order of the steps of all sessions is, if each session
keeps the order of its transfers, and whenever a call without an answer is carried out, each call
that has come to a slave has found its transaction as the handler takes it to be, and so will each
call that is on its way. -/
theorem slaves_ready (h : Deployed cfg inet_addr d) :
    (∀ slave, ∀ a ∈ d.slaves.answered slave, a.rpc.Safe a.before) ∧
      ∀ x ∈ d.slaves.late, x.rpc.Safe (d.slaves.states x.slave) := by
  have hinv := h.netInv
  refine ⟨fun slave => (hinv.atWork slave).safe, ?_⟩
  intro x hx
  have hready := hinv.ready x hx
  refine ⟨hready, ?_⟩
  intro env rounds
  exact (x.rpc.handles rounds).along _ ⟨(hinv.atWork x.slave).inv, hready⟩

/-- **The sockets of the slaves**: a slave has a data socket for every transaction that waits for
its next RPC, and for no others than those that have been sent there and whose transfer, if there is
one, has not been carried out. -/
theorem slave_sockets (h : Deployed cfg inet_addr d) (slave : SlaveInfo) (t : ℤ) :
    ((∃ i, Waiting t slave (rpcs t (d.metaserver.sent i))) → (d.slaves.states slave).IsOpen t) ∧
      ((d.slaves.states slave).IsOpen t →
        MayHaveSocket d.metaserver.sent d.slaves.late slave t) := by
  constructor
  · intro hw
    obtain ⟨i, hw⟩ := hw
    exact h.netInv.waiting i t slave trivial hw
  · exact h.netInv.sockets slave t trivial

/-! ### Transactions that are left -/

/-- The session sends nothing more in the transaction: the client entry has another one, or the
session is over. -/
def LiveSession.HasLeft (s : LiveSession) (t : ℤ) : Prop :=
  s.world.view.llPRET_trans_id ≠ t ∨ s.opened = false ∧ s.threads = []

/-- A step of a session that has left a transaction. -/
theorem LiveSession.HasLeft.step {s s' : LiveSession} {who : Happening} {calls : List Call}
    (h : s.HasLeft t) (hinv : TransactionInv s calls) (hstep : LiveStep cfg s who cs s')
    (ht : t ≤ (s.counter : ℤ)) : s'.HasLeft t ∧ rpcs t cs = [] := by
  obtain hother | ⟨hclosed, hidle⟩ := h
  · have hissued := hinv.issued hstep
    constructor
    · left
      obtain hkept | hnew := hissued.kept
      · rw [hkept]
        exact hother
      · intro heq
        rw [heq] at hnew
        omega
    · rw [List.eq_nil_iff_forall_not_mem]
      intro e he
      obtain ⟨he, het⟩ := mem_rpcs.mp he
      by_cases hinit : e.step = .init
      · have hfresh := hissued.fresh e he hinit
        omega
      · exact hother ((hissued.current e he hinit).symm.trans het)
  · cases hstep with
    | line env line hopened => rw [hclosed] at hopened; exact absurd hopened (by simp)
    | hangUp hopened => rw [hclosed] at hopened; exact absurd hopened (by simp)
    | op env hthreads => rw [hidle] at hthreads; exact absurd hthreads (by simp)
    | poll env hthreads _ => rw [hidle] at hthreads; exact absurd hthreads (by simp)
    | ends env hthreads _ => rw [hidle] at hthreads; exact absurd hthreads (by simp)
    | others db _ => exact ⟨.inr ⟨hclosed, hidle⟩, rfl⟩

/-- What stays as it is of a transaction that has been left. -/
structure Abandoned (d : Deployment) (i : ℕ) (t : ℤ) (slave : SlaveInfo) : Prop where
  left : (d.metaserver.sessions i).HasLeft t
  waiting : Waiting t slave (rpcs t (d.metaserver.sent i))

theorem Abandoned.step (h : Abandoned d i t slave) (hrun : Deployed cfg inet_addr d)
    (hstep : DeployStep cfg inet_addr d d') : Abandoned d' i t slave := by
  cases hstep with
  | late _ _ => exact ⟨h.left, h.waiting⟩
  | @session j who cs s' n' hlive hkeeps _ =>
      by_cases hij : i = j
      · subst hij
        have hinv := (hrun.metaserverRun.live i).transactionInv
        have hdrawn : t ≤ ((d.metaserver.sessions i).counter : ℤ) := by
          obtain ⟨e, he⟩ := h.waiting.exists_mem
          obtain ⟨he, het⟩ := mem_rpcs.mp he
          have hle := hinv.drawn e he
          rwa [het] at hle
        obtain ⟨hleft, hnone⟩ := h.left.step hinv hlive hdrawn
        refine ⟨?_, ?_⟩
        · simp only [set_sessions_self]
          exact hleft
        · simp only [set_sent_self, rpcs_append, hnone, List.append_nil]
          exact h.waiting
      · refine ⟨?_, ?_⟩
        · simp only [set_sessions_other hij]
          exact h.left
        · simp only [set_sent_other hij]
          exact h.waiting

/-- **Sockets for ever**: when a session leaves a transaction behind its `PASV`, or in front of its
transfer, the slave keeps the data socket, with an open descriptor of its own, whatever happens from
then on. -/
theorem sockets_abandoned (h : Deployed cfg inet_addr d)
    (hleft : (d.metaserver.sessions i).HasLeft t)
    (hwaiting : Waiting t slave (rpcs t (d.metaserver.sent i)))
    (hlater : Relation.ReflTransGen (DeployStep cfg inet_addr) d d') :
    ∃ fd, (d'.slaves.states slave).mDataSock t = some (some fd) ∧
      (d'.slaves.states slave).owner fd = some t := by
  have hkept : Deployed cfg inet_addr d' ∧ Abandoned d' i t slave := by
    induction hlater with
    | refl => exact ⟨h, ⟨hleft, hwaiting⟩⟩
    | tail _ hstep ih => exact ⟨ih.1.step hstep, ih.2.step ih.1 hstep⟩
  obtain ⟨hrun, habandoned⟩ := hkept
  have hinv := hrun.netInv
  obtain ⟨fd, hfd⟩ := hinv.waiting i t slave trivial habandoned.waiting
  exact ⟨fd, hfd, (hinv.atWork slave).inv.owned t fd hfd⟩

/-! ### A passive connection that is left, and a download without an answer -/

theorem allDelivered_local (inet_addr : Text → ℕ) (h : ∀ c ∈ cs, c.remote inet_addr = none)
    (n : Slaves) : AllDelivered inet_addr n cs n := by
  induction cs with
  | nil => exact .nil n
  | cons c cs ih =>
      refine .cons (.here (h c List.mem_cons_self)) (ih fun c' hc' => ?_)
      exact h c' (List.mem_cons_of_mem c hc')

/-- A call that its slave answers, in front of calls that are none to slaves. -/
theorem allDelivered_answered {env : SlaveEnv} {rounds : ℕ} {s' : SlaveState}
    (hc : c.remote inet_addr = some (x, some r))
    (hrun : run (serveSlave env) (x.rpc.body rounds) (n.states x.slave) = .done r s')
    (hlocal : ∀ c ∈ cs, c.remote inet_addr = none) :
    ∃ n', AllDelivered inet_addr n (c :: cs) n' ∧ n'.states x.slave = s' ∧
      n'.answered x.slave = ⟨n.states x.slave, x.rpc, r⟩ :: n.answered x.slave := by
  refine ⟨_, .cons (.answered hc (.run env rounds hrun)) (allDelivered_local _ hlocal _), ?_, ?_⟩
  · exact Function.update_self x.slave s' n.states
  · exact Function.update_self x.slave _ n.answered

/-- Calls that no slave answers: those to slaves are on their way from then on. -/
theorem allDelivered_lost (h : ∀ c ∈ cs, ∀ x r, c.remote inet_addr ≠ some (x, some r))
    (n : Slaves) : ∃ n', AllDelivered inet_addr n cs n' ∧ n'.answered = n.answered ∧
      (∀ x ∈ n.late, x ∈ n'.late) ∧
      ∀ c ∈ cs, ∀ x, c.remote inet_addr = some (x, none) → x ∈ n'.late := by
  induction cs generalizing n with
  | nil => exact ⟨n, .nil n, rfl, fun x hx => hx, fun c hc => absurd hc List.not_mem_nil⟩
  | cons c cs ih =>
      have hrest : ∀ c' ∈ cs, ∀ x r, c'.remote inet_addr ≠ some (x, some r) :=
        fun c' hc' => h c' (List.mem_cons_of_mem c hc')
      cases hc : c.remote inet_addr with
      | none =>
          obtain ⟨n', hall, hanswered, hold, hnew⟩ := ih hrest n
          refine ⟨n', .cons (.here hc) hall, hanswered, hold, ?_⟩
          intro c' hc' x hx
          obtain rfl | hc' := List.mem_cons.mp hc'
          · rw [hc] at hx
            cases hx
          · exact hnew c' hc' x hx
      | some sent =>
          obtain ⟨y, reply⟩ := sent
          cases reply with
          | some r => exact absurd hc (h c List.mem_cons_self y r)
          | none =>
              obtain ⟨n', hall, hanswered, hold, hnew⟩ := ih hrest { n with late := y :: n.late }
              refine ⟨n', .cons (.lost hc) hall, hanswered,
                fun x hx => hold x (List.mem_cons_of_mem y hx), ?_⟩
              intro c' hc' x hx
              obtain rfl | hc' := List.mem_cons.mp hc'
              · rw [hc, Option.some.injEq, Prod.mk.injEq] at hx
                rw [← hx.1]
                exact hold y List.mem_cons_self
              · exact hnew c' hc' x hx

/-- A session that has called no slave. -/
theorem LiveRun.deployed {s : LiveSession} {calls : List Call} (h : LiveRun cfg KeepsOrder s calls)
    (inet_addr : Text → ℕ) (hlocal : ∀ c ∈ calls, c.remote inet_addr = none) :
    ∃ m, Deployed cfg inet_addr ⟨m, {}⟩ ∧ m.sessions 0 = s ∧ m.sent 0 = calls := by
  induction h with
  | @connect w hlogin hcommand =>
      refine ⟨⟨fun _ => ⟨w, [], true⟩, fun _ => []⟩, .start ?_, rfl, rfl⟩
      exact ⟨fun _ => ⟨w, rfl, hlogin, hcommand⟩, fun _ _ => rfl, fun _ => rfl⟩
  | step _ hstep hkeeps ih =>
      obtain ⟨m, hrun, rfl, rfl⟩ := ih fun c hc => hlocal c (List.mem_append_left _ hc)
      have hnone := allDelivered_local inet_addr
        (fun c hc => hlocal c (List.mem_append_right _ hc)) {}
      exact ⟨_, hrun.step (.session hstep hkeeps hnone), set_sessions_self, set_sent_self⟩

/-- A session `i` of a deployment with the calls it has made. -/
structure DeployedSession (cfg : Config) (inet_addr : Text → ℕ) (d : Deployment) (i : ℕ)
    (s : LiveSession) (sent : List Call) : Prop where
  run : Deployed cfg inet_addr d
  session : d.metaserver.sessions i = s
  sent : d.metaserver.sent i = sent

theorem DeployedSession.step {s s' : LiveSession} {calls : List Call} {who : Happening}
    (h : DeployedSession cfg inet_addr d i s calls) (hstep : LiveStep cfg s who cs s')
    (hkeeps : KeepsOrder s calls who cs) (hdelivered : AllDelivered inet_addr d.slaves cs n') :
    DeployedSession cfg inet_addr ⟨d.metaserver.set i s' cs, n'⟩ i s' (calls ++ cs) := by
  obtain ⟨hrun, rfl, rfl⟩ := h
  exact ⟨hrun.step (.session hstep hkeeps hdelivered), set_sessions_self, set_sent_self⟩

/-- A command of a deployed session. -/
theorem DeployedSession.command {w w' : World} {calls : List Call} {ts : List (CommandProg Unit)}
    {env : Env} {nCmd : Cmd} {pszCmdArg : Option Text} (line : Text)
    (h : DeployedSession cfg inet_addr d i ⟨w, ts, true⟩ calls)
    (hline : parseLine line = (some nCmd, pszCmdArg))
    (hnot : nCmd ∉ [Cmd.quit, .user, .pass, .cwd, .xcwd, .cdup, .xcup])
    (hlogged : w.client.bIsLogged = true)
    (hdoes : Does env (shellCmd cfg nCmd pszCmdArg) w () w' cs)
    (hkeeps : KeepsOrder ⟨w, ts, true⟩ calls (.line (some nCmd)) cs)
    (hdelivered : AllDelivered inet_addr d.slaves cs n') :
    DeployedSession cfg inet_addr
      ⟨d.metaserver.set i ⟨w', threadsAfter cfg ts cs, true⟩ cs, n'⟩ i
      ⟨w', threadsAfter cfg ts cs, true⟩ (calls ++ cs) := by
  obtain ⟨hends, hcalls⟩ := line_of_does hnot hlogged hdoes
  have hstep : LiveStep cfg ⟨w, ts, true⟩ _ _ _ := .line env line rfl (by rw [hline]; exact hends)
  rw [hline, hcalls] at hstep
  exact h.step hstep hkeeps hdelivered

/-- A system whose slaves answer `PASV` and the start of a download as the handlers do, and whose
downloads end in an exception. -/
def Env.passive : Env := fun n o =>
  match o with
  | .initPasvDataConnection _ _ _ _ => .reply (passiveReply 0 100)
  | .openPasvDataConnection _ _ => .reply (.line 150 "Connection accepted.")
  | .pasvRetrieveTransfer _ _ => .exception
  | o => Env.willing n o

/-- The call of `PASV` behind `PRET RETR /a`. -/
def initCall : Call :=
  ⟨.initPasvDataConnection slaveA { server_ip := ['A'], trans_id := 1 } 100 900,
    .reply (passiveReply 0 100)⟩

/-- After this `PASV`. -/
def waitingWorld : World :=
  { passiveWorld with
    replies := (pretWorld (guestWorld twoFiles) 1).replies ++ [passiveReply 0 100] }

theorem pasv_waiting : Does .passive (shellCmd {} .pasv none) (pretWorld (guestWorld twoFiles) 1) ()
    waitingWorld [initCall] := ⟨rfl, rfl⟩

theorem init_waiting : run (serveSlave .willing) ((SlaveRpc.initPasvDataConnection
    { server_ip := ['A'], trans_id := 1 } 0 100 900).body 0) {} =
      .done (passiveReply 0 100) initState := rfl

/-- The guest names `/a` and opens a passive connection. -/
theorem deployed_pasv : ∃ d, DeployedSession {} (fun _ => 0) d 0 ⟨waitingWorld, [], true⟩
    [initCall] ∧ d.slaves.states slaveA = initState := by
  have h₁ := liveRun_guest KeepsOrder fun _ _ _ hblind => keepsOrder_quiet hblind
  have h₂ := h₁.command "PRET RETR /a".toList (by decide) (by simp) rfl pret_a
    (keepsOrder_quiet (by decide))
  obtain ⟨m, hrun, hsession, hsent⟩ := h₂.deployed (fun _ => 0) (by simp)
  have hbefore : DeployedSession {} (fun _ => 0) ⟨m, {}⟩ 0
      ⟨pretWorld (guestWorld twoFiles) 1, [], true⟩ [] := ⟨hrun, hsession, hsent⟩
  have hcall : initCall.remote (fun _ => 0) = some (⟨slaveA, .initPasvDataConnection
      { server_ip := ['A'], trans_id := 1 } 0 100 900⟩, some (passiveReply 0 100)) := rfl
  have hnone : ∀ c ∈ ([] : List Call), c.remote (fun _ => 0) = none := by simp
  obtain ⟨n', hdelivered, hstate, -⟩ := allDelivered_answered (n := {}) hcall init_waiting hnone
  have hpasv := hbefore.command "PASV".toList (by decide) (by simp) rfl pasv_waiting
    (keepsOrder_quiet (by decide)) hdelivered
  exact ⟨_, hpasv, hstate⟩

/-- The guest hangs up behind its `PASV`. -/
theorem deployed_left : ∃ d, Deployed {} (fun _ => 0) d ∧ (d.metaserver.sessions 0).HasLeft 1 ∧
    d.metaserver.sent 0 = [initCall] := by
  obtain ⟨d, hpasv, -⟩ := deployed_pasv
  have hkeeps : KeepsOrder ⟨waitingWorld, [], true⟩ [initCall] .hangUp [] := by
    intro nCmd heq
    exact absurd heq (by simp)
  have hleft := hpasv.step (.hangUp rfl) hkeeps (.nil _)
  refine ⟨_, hleft.run, .inr ⟨?_, ?_⟩, hleft.sent⟩
  · rw [hleft.session]
  · rw [hleft.session]

/-- The call of `RETR /a` and the reply of the slave. -/
def openCall : Call :=
  waitingWorld.view.opening (.reply (.line 150 "Connection accepted."))

/-- After this `RETR`. -/
def openedWorld : World :=
  { waitingWorld with
    client := { waitingWorld.client with
      eStatus := .downloading
      CurrentTransfer := { szPath := "/a".toList, TransferThreadID := true } }
    replies := waitingWorld.replies ++ [.line 150 "Connection accepted."]
    clock := 4 }

theorem retr_waiting : Does .passive (shellCmd {} .retr (some "/a".toList)) waitingWorld ()
    openedWorld [openCall, ⟨.pthread_create .retrieve, true⟩] := by
  constructor
  · show run _ (statPath (Client.buildPath _ (some "/a".toList)) >>= _) _ = _
    rw [guest_a rfl]
    rfl
  · show trace _ _ (statPath (Client.buildPath _ (some "/a".toList)) >>= _) _ = _
    rw [guest_a rfl]
    rfl

theorem open_waiting : ∃ s', run (serveSlave .willing)
    ((SlaveRpc.openPasvDataConnection { trans_id := 1 }).body 0) initState =
      .done (.line 150 "Connection accepted.") s' := ⟨_, rfl⟩

/-- The parameters of the transfer. -/
def downloadParams : PasvParams :=
  { server_ip := ['A'], fid := 1, transfer_buffer_size := 32768, trans_id := 1 }

/-- The call of its thread, which the slave does not answer. -/
def lostCall : Call :=
  ⟨.pasvRetrieveTransfer slaveA downloadParams, .exception⟩

theorem thread_waiting : ∃ w' w'',
    Does .passive (retrieveTransfer {}) openedWorld () w' [lostCall] ∧
    run (serveCommand .passive) endTransfer w' = .done () w'' := ⟨_, _, ⟨rfl, rfl⟩, rfl⟩

/-- No slave answers the call. -/
def Call.Unheard (inet_addr : Text → ℕ) (c : Call) : Prop :=
  ∀ x r, c.remote inet_addr ≠ some (x, some r)

/-- What a slave has answered stays, and what is on its way stays on its way, while a thread makes
calls that nobody answers. -/
theorem DeployedSession.unheard {s s' : LiveSession} {calls : List Call}
    (h : DeployedSession cfg inet_addr d i s calls) (hstep : LiveStep cfg s .thread cs s')
    (hunheard : ∀ c ∈ cs, c.Unheard inet_addr) :
    ∃ d', DeployedSession cfg inet_addr d' i s' (calls ++ cs) ∧
      d'.slaves.answered = d.slaves.answered ∧ (∀ x ∈ d.slaves.late, x ∈ d'.slaves.late) ∧
      ∀ c ∈ cs, ∀ x, c.remote inet_addr = some (x, none) → x ∈ d'.slaves.late := by
  obtain ⟨n', hdelivered, hanswered, hold, hnew⟩ := allDelivered_lost hunheard d.slaves
  have hkeeps : KeepsOrder s calls .thread cs := by
    intro nCmd heq
    exact absurd heq (by simp)
  exact ⟨_, h.step hstep hkeeps hdelivered, hanswered, hold, hnew⟩

theorem initAnswered_waiting : InitAnswered [initCall] :=
  ⟨[], ⟨.init, 1, slaveA, some 227⟩, [], rfl, rfl, rfl, by simp⟩

/-- The download of session 0 is under way: the slave has answered its `Open`, and every call of its
thread that has no answer is on its way. -/
def Underway (s : LiveSession) (sent : List Call) : Prop :=
  ∃ d, DeployedSession {} (fun _ => 0) d 0 s
      ([initCall, openCall, ⟨.pthread_create .retrieve, true⟩] ++ sent) ∧
    (∃ a ∈ d.slaves.answered slaveA, a.rpc = .openPasvDataConnection { trans_id := 1 }) ∧
    ∀ c ∈ sent, ∀ x, c.remote (fun _ => 0) = some (x, none) → x ∈ d.slaves.late

theorem Underway.step {s s' : LiveSession} {calls : List Call} (h : Underway s calls)
    (hstep : LiveStep {} s .thread cs s') (hunheard : ∀ c ∈ cs, c.Unheard fun _ => 0) :
    Underway s' (calls ++ cs) := by
  obtain ⟨d, hsession, ⟨a, ha, harpc⟩, hlate⟩ := h
  obtain ⟨d', hnext, hanswered, hold, hnew⟩ := hsession.unheard hstep hunheard
  rw [List.append_assoc] at hnext
  refine ⟨d', hnext, ⟨a, by rw [hanswered]; exact ha, harpc⟩, ?_⟩
  intro c hc x hx
  obtain hc | hc := List.mem_append.mp hc
  · exact hold x (hlate c hc x hx)
  · exact hnew c hc x hx

/-- The guest retrieves `/a`, and the call of the thread ends in an exception. -/
theorem deployed_download : ∃ d s, DeployedSession {} (fun _ => 0) d 0 s
    [initCall, openCall, ⟨.pthread_create .retrieve, true⟩, lostCall] ∧
    (∃ a ∈ d.slaves.answered slaveA, a.rpc = .openPasvDataConnection { trans_id := 1 }) ∧
    ⟨slaveA, .pasvRetrieveTransfer downloadParams⟩ ∈ d.slaves.late := by
  obtain ⟨d, hpasv, hstate⟩ := deployed_pasv
  obtain ⟨s', hopen⟩ := open_waiting
  obtain ⟨w', w'', hthread, hend⟩ := thread_waiting
  have hcall : openCall.remote (fun _ => 0) = some (⟨slaveA, .openPasvDataConnection
      { trans_id := 1 }⟩, some (.line 150 "Connection accepted.")) := rfl
  have hlost : lostCall.remote (fun _ => 0) =
      some (⟨slaveA, .pasvRetrieveTransfer downloadParams⟩, none) := rfl
  have hlocal : ∀ c ∈ [(⟨.pthread_create .retrieve, true⟩ : Call)],
      c.remote (fun _ => 0) = none := by
    intro c hc
    rw [List.mem_singleton.mp hc]
    rfl
  obtain ⟨n', hdelivered, -, hopened⟩ := allDelivered_answered (n := d.slaves) hcall
    (by rw [hstate]; exact hopen) hlocal
  dsimp only at hopened
  have hretr := hpasv.command "RETR /a".toList (by decide) (by simp) rfl retr_waiting
    (keepsOrder_opening _ rfl initAnswered_waiting rfl) hdelivered
  have hbegin : Underway ⟨openedWorld, [retrieveTransfer {}], true⟩ [] := by
    have hmem : ⟨d.slaves.states slaveA, .openPasvDataConnection { trans_id := 1 },
        .line 150 "Connection accepted."⟩ ∈ n'.answered slaveA := by
      rw [hopened]
      exact List.mem_cons_self
    exact ⟨_, hretr, ⟨_, hmem, rfl⟩, fun c hc => absurd hc List.not_mem_nil⟩
  have hunheard : ∀ c ∈ [lostCall], c.Unheard fun _ => 0 := by
    intro c hc x r heq
    rw [List.mem_singleton.mp hc, hlost] at heq
    cases heq
  obtain ⟨d', hsession, hanswered, hlate⟩ := thread_finishes (R := Underway) [] [] [] Underway.step
    hthread
    hunheard hend hbegin
  exact ⟨d', _, hsession, hanswered, hlate lostCall (by simp) _ hlost⟩

/-- The guest names `/a`, opens a passive connection and starts a download, whose transfer has not
been carried out when its call ends in an exception. -/
theorem slaves_ready_left : ∃ d, Deployed {} (fun _ => 0) d ∧
    d.metaserver.sent 0 = [initCall, openCall, ⟨.pthread_create .retrieve, true⟩, lostCall] ∧
    (∃ a ∈ d.slaves.answered slaveA, a.rpc = .openPasvDataConnection { trans_id := 1 } ∧
      a.rpc.Safe a.before) ∧
    ∃ x ∈ d.slaves.late, x.rpc = .pasvRetrieveTransfer downloadParams ∧
      x.rpc.Safe (d.slaves.states slaveA) := by
  obtain ⟨d, s, ⟨hrun, -, hsent⟩, ⟨a, ha, harpc⟩, hlate⟩ := deployed_download
  obtain ⟨hanswered, hready⟩ := slaves_ready hrun
  exact ⟨d, hrun, hsent, ⟨a, ha, harpc, hanswered slaveA a ha⟩, _, hlate, rfl, hready _ hlate⟩

theorem slave_sockets_left : ∃ d, Deployed {} (fun _ => 0) d ∧
    (d.slaves.states slaveA).IsOpen 1 := by
  obtain ⟨d, hrun, -, hsent⟩ := deployed_left
  refine ⟨d, hrun, (slave_sockets hrun slaveA 1).1 ⟨0, .inl ?_⟩⟩
  rw [hsent]
  rfl

theorem sockets_abandoned_left : ∃ d, Deployed {} (fun _ => 0) d ∧
    ∃ fd, (d.slaves.states slaveA).owner fd = some 1 := by
  obtain ⟨d, hrun, hleft, hsent⟩ := deployed_left
  have hothers : DeployStep {} (fun _ => 0) d _ := .session (i := 0)
    (.others _ (le_refl _)) (keepsOrder_others _ _ _) (.nil _)
  have hwaiting : Waiting 1 slaveA (rpcs 1 (d.metaserver.sent 0)) := by
    rw [hsent]
    exact .inl rfl
  obtain ⟨fd, -, howner⟩ := sockets_abandoned hrun hleft hwaiting (.single hothers)
  exact ⟨_, hrun.step hothers, fd, howner⟩

end ClusterFtpd
