import ClusterFtpd.ActiveConnections
import ClusterFtpd.Lib.Provenance
import ClusterFtpd.Transactions

/-!
# The transactions of all sessions

All sessions of a metaserver work on one database and draw their transaction identifiers from its
counter: `PASV` draws one for the passive transaction it starts, a transfer thread one for an active
transfer.  The slaves get these identifiers from all of them and have nothing else to go by.

A step of one session is here a step of the metaserver; the others see its database.  Each session
by itself is a `LiveRun`.

Main result: `transactions_apart`: the passive transactions of all sessions are in order, each is of
one session, and no active transfer has the identifier of one.
-/

namespace ClusterFtpd

open Interaction MachineInt

/-! ### The sessions -/

/-- The sessions of a metaserver, and the noted calls of each.  A session that is not connected yet
has not done anything. -/
structure Metaserver where
  sessions : ℕ → LiveSession
  sent : ℕ → List Call

/-- The session sees another database. -/
def LiveSession.withDb (s : LiveSession) (db : Redis) : LiveSession :=
  { s with world := { s.world with db } }

/-- Session `i` has made a step to `s`, with the calls `cs`. -/
def Metaserver.set (m : Metaserver) (i : ℕ) (s : LiveSession) (cs : List Call) : Metaserver where
  sessions := Function.update (fun j => (m.sessions j).withDb s.world.db) i s
  sent := Function.update m.sent i (m.sent i ++ cs)

/-- No session has done anything. -/
structure Metaserver.Fresh (m : Metaserver) : Prop where
  session : ∀ i, ∃ w : World, m.sessions i = ⟨w, [], true⟩ ∧ w.client.toLoginState = {} ∧
    w.client.toCommandState = {}
  db : ∀ i j, (m.sessions i).world.db = (m.sessions j).world.db
  sent : ∀ i, m.sent i = []

/-- The runs of a metaserver whose sessions all keep the order of their transfers. -/
inductive MetaserverRun (cfg : Config) : Metaserver → Prop where
  | start {m : Metaserver} : m.Fresh → MetaserverRun cfg m
  | step {m : Metaserver} {i : ℕ} {who : Happening} {cs : List Call} {s' : LiveSession} :
      MetaserverRun cfg m → LiveStep cfg (m.sessions i) who cs s' →
      KeepsOrder (m.sessions i) (m.sent i) who cs → MetaserverRun cfg (m.set i s' cs)

variable {cfg : Config} {m : Metaserver} {s s' : LiveSession} {who : Happening}
  {cs sent : List Call} {i j : ℕ} {t : ℤ}

theorem set_sessions_self : (m.set i s cs).sessions i = s := by
  simp only [Metaserver.set, Function.update_self]

theorem set_sessions_other (h : j ≠ i) :
    (m.set i s cs).sessions j = (m.sessions j).withDb s.world.db := by
  simp only [Metaserver.set, Function.update_of_ne h]

theorem set_sent_self : (m.set i s cs).sent i = m.sent i ++ cs := Function.update_self _ _ _

theorem set_sent_other (h : j ≠ i) : (m.set i s cs).sent j = m.sent j := Function.update_of_ne h _ _

theorem set_db : ((m.set i s cs).sessions j).world.db = s.world.db := by
  by_cases h : j = i
  · rw [h, set_sessions_self]
  · rw [set_sessions_other h]
    rfl

/-- The transactions drawn so far. -/
abbrev LiveSession.counter (s : LiveSession) : ℕ := s.world.db.transaction_counter

theorem LiveStep.counter_le (h : LiveStep cfg s who cs s') : s.counter ≤ s'.counter := by
  cases h with
  | @line w' next env line hopened hrun =>
      have hcounter := run_counter env (dispatch cfg (parseLine line).1 (parseLine line).2) s.world
      rw [hrun] at hcounter
      exact hcounter
  | hangUp hopened => exact le_refl _
  | @op xs ys o k env hthreads => exact serveCommand_counter env o s.world
  | @poll xs ys o again k env hthreads hdone => exact serveCommand_counter env o s.world
  | @ends xs ys w' env hthreads hrun =>
      have hcounter := run_counter env (command endTransfer) s.world
      rw [run_command, hrun] at hcounter
      exact hcounter
  | others db hdb => exact hdb

theorem keepsOrder_others (s : LiveSession) (sent cs : List Call) :
    KeepsOrder s sent .others cs := by
  intro nCmd hline
  exact absurd hline (by simp)

/-- All sessions see one database. -/
theorem MetaserverRun.db (h : MetaserverRun cfg m) (i j : ℕ) :
    (m.sessions i).world.db = (m.sessions j).world.db := by
  cases h with
  | start hfresh => exact hfresh.db i j
  | step _ _ _ => rw [set_db, set_db]

/-- **Each session** runs as it does by itself, beside others that change the database. -/
theorem MetaserverRun.live (h : MetaserverRun cfg m) (i : ℕ) :
    LiveRun cfg KeepsOrder (m.sessions i) (m.sent i) := by
  induction h with
  | start hfresh =>
      obtain ⟨w, hw, hlogin, hcommand⟩ := hfresh.session i
      rw [hw, hfresh.sent i]
      exact .connect hlogin hcommand
  | @step m j who cs s' hrun hstep hkeeps ih =>
      by_cases hij : i = j
      · subst hij
        rw [set_sessions_self, set_sent_self]
        exact ih.step hstep hkeeps
      · rw [set_sessions_other hij, set_sent_other hij]
        have hcounter : (m.sessions i).counter ≤ s'.counter := by
          have hdb := hrun.db i j
          have hle := hstep.counter_le
          rw [LiveSession.counter, hdb]
          exact hle
        have hothers := ih.step (.others s'.world.db hcounter) (keepsOrder_others _ _ _)
        rw [List.append_nil] at hothers
        exact hothers

/-! ### The passive transactions of a step -/

/-- The RPCs of a step belong to the transaction of the client entry; an `Init` starts a new one,
which the client entry then has. -/
structure Issued (s s' : LiveSession) (cs : List Call) : Prop where
  current : ∀ r ∈ passives cs, r.step ≠ .init → r.trans_id = s.world.view.llPRET_trans_id
  fresh : ∀ r ∈ passives cs, r.step = .init → (s.counter : ℤ) < r.trans_id
  kept : s'.world.view.llPRET_trans_id = s.world.view.llPRET_trans_id ∨
    (s.counter : ℤ) < s'.world.view.llPRET_trans_id

/-- A step that starts no transaction. -/
theorem issued_of_current (hcs : ∀ r ∈ passives cs, r.step ≠ .init ∧
      r.trans_id = s.world.view.llPRET_trans_id)
    (hview : s'.world.view.llPRET_trans_id = s.world.view.llPRET_trans_id) : Issued s s' cs :=
  ⟨fun r hr _ => (hcs r hr).2, fun r hr hinit => absurd hinit (hcs r hr).1, .inl hview⟩

theorem issued_of_none (hcs : passives cs = [])
    (hview : s'.world.view.llPRET_trans_id = s.world.view.llPRET_trans_id) : Issued s s' cs := by
  refine issued_of_current ?_ hview
  rw [hcs]
  intro r hr
  exact absurd hr List.not_mem_nil

theorem eq_of_mem_passives {r e : PassiveRpc} (hcs : passives cs = [e]) (hr : r ∈ passives cs) :
    r = e := by
  rw [hcs, List.mem_singleton] at hr
  exact hr

/-- The calls in front of a transfer are of the transaction of the client entry. -/
theorem opens_current {w : World} (h : w.view.Opens cs) :
    ∀ r ∈ passives cs, r.step ≠ .init ∧ r.trans_id = w.view.llPRET_trans_id := by
  intro r hr
  unfold TransferView.Opens at h
  split_ifs at h with hpasv
  · obtain ⟨answer, rfl⟩ := h
    rw [eq_of_mem_passives (e := ⟨.opening, w.view.llPRET_trans_id, w.view.SlaveInfo, answer.code⟩)
      rfl hr]
    exact ⟨by simp, rfl⟩
  · rw [h] at hr
    exact absurd hr List.not_mem_nil

theorem issued_transfer {w' : World} {thread : TransferThread} {status : Status}
    {ts : List (CommandProg Unit)} {opened : Bool}
    (h : TransferTurn s.world w' thread status cs) : Issued s ⟨w', ts, opened⟩ cs := by
  cases h with
  | refused hview => exact issued_of_none rfl (congrArg TransferView.llPRET_trans_id hview)
  | unopened hview _ =>
      refine issued_of_current ?_ (congrArg TransferView.llPRET_trans_id hview)
      intro r hr
      rw [eq_of_mem_passives (e := ⟨.opening, s.world.view.llPRET_trans_id,
        s.world.view.SlaveInfo, none⟩) rfl hr]
      exact ⟨by simp, rfl⟩
  | @started cs₁ hopens hview _ =>
      refine issued_of_current ?_ (by rw [hview])
      have hpass : passives (cs₁ ++ [⟨.pthread_create thread, true⟩]) = passives cs₁ := by
        rw [passives_append]
        exact List.append_nil _
      rw [hpass]
      exact opens_current hopens
  | @failed cs₁ cs₂ hopens honly hview =>
      refine issued_of_current ?_ (by rw [hview]; rfl)
      have hpass : passives (cs₁ ++ ⟨.pthread_create thread, false⟩ :: cs₂) = passives cs₁ := by
        rw [passives_append]
        show passives cs₁ ++ passives cs₂ = _
        rw [passives_onlyCancels honly, List.append_nil]
      rw [hpass]
      exact opens_current hopens

theorem issued_reset {w' : World} {kind : DataConnection} {ts : List (CommandProg Unit)}
    {opened : Bool} (h : ResetTurn s.world w' kind cs) : Issued s ⟨w', ts, opened⟩ cs := by
  cases h with
  | refused hview => exact issued_of_none rfl (congrArg TransferView.llPRET_trans_id hview)
  | reset conn _ honly hview =>
      exact issued_of_none (passives_onlyCancels honly)
        (by rw [hview]; rfl)

theorem issued_list {w' : World} {ts : List (CommandProg Unit)} {opened : Bool}
    (h : ListTurn s.world w' cs) : Issued s ⟨w', ts, opened⟩ cs := by
  cases h with
  | refused hview => exact issued_of_none rfl (congrArg TransferView.llPRET_trans_id hview)
  | unopened _ honly hview =>
      refine issued_of_none (passives_onlyCancels honly) ?_
      obtain hview | hview := hview
      · exact congrArg TransferView.llPRET_trans_id hview
      · rw [hview]
        rfl
  | started _ hview _ => exact issued_of_none rfl (by rw [hview])
  | @failed cs₂ _ honly hview =>
      have hpass : passives (⟨.pthread_create .list, false⟩ :: cs₂) = [] := by
        show passives cs₂ = []
        exact passives_onlyCancels honly
      exact issued_of_none hpass (by rw [hview]; rfl)

theorem issued_init {w' : World} {cmd : PretCmd} {ts : List (CommandProg Unit)} {opened : Bool}
    (h : InitTurn cfg cmd s.world w' cs) : Issued s ⟨w', ts, opened⟩ cs := by
  cases h with
  | init slave answer _ _ hview _ =>
      have hlt : (s.counter : ℤ) < ((s.world.db.transaction_counter + 1 : ℕ) : ℤ) := by
        push_cast
        exact lt_add_one _
      let e : PassiveRpc :=
        ⟨.init, ((s.world.db.transaction_counter + 1 : ℕ) : ℤ), slave, answer.code⟩
      refine ⟨?_, ?_, .inr ?_⟩
      · intro r hr hstep
        rw [eq_of_mem_passives (e := e) rfl hr] at hstep
        exact absurd rfl hstep
      · intro r hr _
        rw [eq_of_mem_passives (e := e) rfl hr]
        exact hlt
      · rw [show w'.view.llPRET_trans_id = _ from congrArg TransferView.llPRET_trans_id hview]
        exact hlt

theorem issued_line {w' : World} {nCmd : Option Cmd} {ts : List (CommandProg Unit)} {opened : Bool}
    (h : DataTurn cfg s.world w' nCmd cs) : Issued s ⟨w', ts, opened⟩ cs := by
  cases h with
  | quiet hview => exact issued_of_none rfl (congrArg TransferView.llPRET_trans_id hview)
  | pret hview => exact issued_of_none rfl (by rw [hview])
  | port _ hreset => exact issued_reset hreset
  | abor hreset => exact issued_reset hreset
  | pasv _ _ hreset => exact issued_reset hreset
  | init cmd _ _ hinit => exact issued_init hinit
  | list _ hlist => exact issued_list hlist
  | retrieve htransfer => exact issued_transfer htransfer
  | store _ htransfer => exact issued_transfer htransfer

/-- An operation of a thread. -/
theorem issued_note {o : CommandOp} {n l : ℕ} {ts : List (CommandProg Unit)} {opened : Bool}
    (h : Issues s.world.view.target o n l) (env : Env) :
    Issued s ⟨(serveCommand env o s.world).2, ts, opened⟩
      (noteCommand o (serveCommand env o s.world).1).toList := by
  have hview : (serveCommand env o s.world).2.view = s.world.view := by
    simp only [World.view, h.client env s.world]
  refine issued_of_current ?_ (congrArg TransferView.llPRET_trans_id hview)
  intro r hr
  obtain ⟨-, hcs⟩ | ⟨-, c, hcs⟩ := h.note (serveCommand env o s.world).1
  · rw [hcs] at hr
    exact absurd hr List.not_mem_nil
  · rw [hcs, List.mem_singleton] at hr
    rw [hr]
    exact ⟨by simp, rfl⟩

/-- **The RPCs of one step.** -/
theorem TransactionInv.issued (h : TransactionInv s sent) (hstep : LiveStep cfg s who cs s') :
    Issued s s' cs := by
  cases hstep with
  | @line w' next env line hopened hrun => exact issued_line (dataTurn_of_run hrun)
  | hangUp hopened => exact issued_of_none rfl rfl
  | @op xs ys o k env hthreads =>
      cases h.busy with
      | no hidle _ => rw [hidle] at hthreads; exact absurd hthreads (by simp)
      | yes p n hsingle _ _ hsends _ _ =>
          rw [hsingle] at hthreads
          obtain ⟨rfl, rfl, rfl⟩ := single_eq_append hthreads
          obtain ⟨l, hissue, -⟩ := hsends
          exact issued_note hissue env
  | @poll xs ys o again k env hthreads hdone =>
      cases h.busy with
      | no hidle _ => rw [hidle] at hthreads; exact absurd hthreads (by simp)
      | yes p n hsingle _ _ hsends _ _ =>
          rw [hsingle] at hthreads
          obtain ⟨rfl, rfl, rfl⟩ := single_eq_append hthreads
          obtain ⟨l, hissue, -⟩ := hsends
          exact issued_note hissue env
  | @ends xs ys w' env hthreads hrun =>
      have hdoes : Does env endTransfer s.world () w' _ := ⟨hrun, rfl⟩
      obtain ⟨hview, -⟩ := reset_calls hdoes
      exact issued_of_none rfl (by rw [hview]; rfl)
  | others db hdb => exact issued_of_none rfl rfl

/-- A transaction begins with its `Init`. -/
theorem InOrder.exists_init {rs : List PassiveRpc} (h : InOrder rs) (hne : rs ≠ []) :
    ∃ r ∈ rs, r.step = .init := by
  cases h with
  | idle => exact absurd rfl hne
  | init t slave c => exact ⟨_, List.mem_cons_self, rfl⟩
  | opened t slave c => exact ⟨_, List.mem_cons_self, rfl⟩
  | transferred t slave c => exact ⟨_, List.mem_cons_self, rfl⟩

theorem mem_rpcs {r : PassiveRpc} : r ∈ rpcs t sent ↔ r ∈ passives sent ∧ r.trans_id = t := by
  rw [rpcs, List.mem_filter, decide_eq_true_iff]

/-- The transactions of a step are known to the session, or new. -/
theorem Issued.known {r : PassiveRpc} (h : Issued s s' cs)
    (hordered : TransactionsInOrder (sent ++ cs)) (hr : r ∈ passives cs) :
    (∃ d ∈ passives sent, d.trans_id = r.trans_id) ∨ (s.counter : ℤ) < r.trans_id := by
  have hmem : r ∈ rpcs r.trans_id (sent ++ cs) := by
    rw [mem_rpcs, passives_append]
    exact ⟨List.mem_append_right _ hr, rfl⟩
  obtain ⟨d, hd, hinit⟩ := (hordered r.trans_id).exists_init (List.ne_nil_of_mem hmem)
  obtain ⟨hd, htrans⟩ := mem_rpcs.mp hd
  rw [passives_append, List.mem_append] at hd
  obtain hd | hd := hd
  · exact .inl ⟨d, hd, htrans⟩
  · right
    rw [← htrans]
    exact h.fresh d hd hinit

/-! ### The identifiers of active transfers -/

/-- The transaction of an active transfer. -/
def SysOp.activeId : SysOp → Option ℤ
  | .activeStoreTransfer _ p _ => some p.trans_id
  | .activeRetrieveTransfer _ p => some p.trans_id
  | _ => none

/-- The transactions of the active transfers. -/
def actives (sent : List Call) : List ℤ := sent.filterMap fun c => c.op.activeId

theorem actives_append (sent cs : List Call) : actives (sent ++ cs) = actives sent ++ actives cs :=
  List.filterMap_append

/-- An operation uses a transaction for an active transfer. -/
def UsesId : CommandOp → ℤ → Prop
  | .sys o, t => o.activeId = some t
  | _, _ => False

/-- The answer is a new transaction. -/
def DrawsId : (o : CommandOp) → o.Res → ℤ → Prop
  | .redis .incrTransactionCounter, n, t => t = ((n : ℕ) : ℤ)
  | _, _, _ => False

/-- The active transfers of the program are of the transactions of `A`, or of ones it draws. -/
abbrev Drawing (A : ℤ → Prop) {α : Type} (p : CommandProg α) : Prop := Sourced UsesId DrawsId A p

variable {A B : ℤ → Prop} {α β : Type}

theorem activeId_of_opening {o : SysOp} (h : o.opening = none) : o.activeId = none := by
  cases o <;> first | rfl | cases h

theorem drawing_of_tame {p : CommandProg α} (hp : Every (Tame False) p) : Drawing A p := by
  refine (opensNothing_of_tame hp).sourced ?_
  intro o t ho huse
  cases o with
  | sys o =>
      have hsome : o.activeId = some t := huse
      rw [activeId_of_opening ho] at hsome
      exact absurd hsome (by simp)
  | redis o => exact huse
  | client => exact huse
  | modify f => exact huse
  | sendReply r => exact huse

theorem drawing_tame_bind {p : CommandProg α} {f : α → CommandProg β} (hp : Every (Tame False) p)
    (hf : ∀ a, Drawing A (f a)) : Drawing A (p >>= f) := (drawing_of_tame hp).bind hf

theorem tame_client : Every (Tame False) client := ⟨trivial, fun _ => trivial⟩

/-- `get_new_transaction_id`, and what is done with it. -/
theorem drawing_new {f : ℤ → CommandProg α} (hf : ∀ t, Drawing (fun u => A u ∨ u = t) (f t)) :
    Drawing A (redis getNewTransactionId >>= f) := by
  refine ⟨fun t ht => ht.elim, ?_⟩
  intro n
  exact hf _

theorem drawing_active {o : SysOp} {f : o.Res → CommandProg α} (ht : o.activeId = some t) (hA : A t)
    (hf : ∀ r, Every (Tame False) (f r)) : Drawing A (sys o >>= f) := by
  refine ⟨?_, fun r => drawing_of_tame (hf r)⟩
  intro u hu
  have heq : some t = some u := ht.symm.trans hu
  rw [Option.some.injEq] at heq
  rwa [← heq]

theorem drawing_storeActive (cfg : Config) (iflags : OpenFlag) (fid : ℤ) :
    Drawing A (storeActive cfg iflags fid) := by
  unfold storeActive
  split_ifs
  · exact drawing_of_tame ((tame_sendReply _).bind fun _ => trivial)
  · refine drawing_tame_bind (tame_getRandomSlave cfg) fun slave => drawing_new fun trans_id => ?_
    refine drawing_tame_bind tame_client fun c => ?_
    refine drawing_tame_bind (tame_randomPort cfg) fun server_port => ?_
    refine drawing_tame_bind (tame_sendReply _) fun _ => ?_
    exact drawing_active rfl (.inr rfl) fun answer => tame_finishUpload fid slave answer

theorem drawing_retrieveActive (cfg : Config) (fid : ℤ) : Drawing A (retrieveActive cfg fid) := by
  unfold retrieveActive
  split_ifs
  · refine drawing_tame_bind tame_client fun c => drawing_tame_bind (tame_redis _) fun slave => ?_
    refine drawing_new fun trans_id => drawing_tame_bind tame_client fun c => ?_
    refine drawing_tame_bind (tame_randomPort cfg) fun server_port => ?_
    refine drawing_tame_bind (tame_sendReply _) fun _ => ?_
    exact drawing_active rfl (.inr rfl) fun answer => tame_finishRetrieve answer
  · trivial

theorem drawing_whenConnected {kind : DataConnection} {msg : Option Reply}
    {half : CommandProg (Option Reply)} (h : Drawing A half) :
    Drawing A (whenConnected kind msg half) := by
  cases msg with
  | none => trivial
  | some msg =>
      refine drawing_tame_bind tame_client fun c => ?_
      split_ifs
      · exact h
      · trivial

theorem drawing_halves {active passive : CommandProg (Option Reply)} (hactive : Drawing A active)
    (hpassive : Every (Tame False) passive) :
    Drawing A (do
      let msg ← whenConnected .port (some .empty) active
      let msg ← whenConnected .pasv msg passive
      sendLast msg) := by
  refine (drawing_whenConnected hactive).bind fun msg => ?_
  refine (drawing_whenConnected (drawing_of_tame hpassive)).bind fun msg => ?_
  cases msg with
  | none => trivial
  | some msg => exact drawing_of_tame (tame_sendReply msg)

/-- **A transfer thread** makes an active transfer only with a transaction it has drawn. -/
theorem drawing_body (cfg : Config) (thread : TransferThread) : Drawing A (thread.body cfg) := by
  cases thread with
  | list =>
      refine drawing_of_tame (tame_client_bind fun c => ?_)
      refine (tame_onlyIf ((tame_redis _).bind fun _ => every_ret _)).bind fun _ => ?_
      exact tame_client_bind fun c => tame_ite (tame_sendReply _) (tame_sendReply _)
  | retrieve =>
      refine drawing_tame_bind tame_client fun c => drawing_tame_bind (tame_redis _) fun fid => ?_
      exact drawing_halves (drawing_retrieveActive cfg fid) (tame_retrievePassive cfg fid)
  | store =>
      refine drawing_tame_bind tame_client fun c => drawing_tame_bind (tame_redis _) fun fid => ?_
      exact drawing_halves (drawing_storeActive cfg _ fid) (tame_storePassive cfg _ fid)

/-- No line makes an active transfer itself. -/
theorem actives_line (env : Env) (nCmd : Option Cmd) (pszCmdArg : Option Text) (w : World) :
    actives (lineCalls env (dispatch cfg nCmd pszCmdArg) w) = [] := by
  rw [actives, List.filterMap_eq_nil_iff]
  intro c hc
  obtain ⟨o, r, ho, hnote⟩ :=
    (dispatch_within cfg nCmd pszCmdArg).mem_trace (serveShell env) noteShell hc
  cases o with
  | login f => exact absurd hnote (by simp [noteShell])
  | command o =>
      cases o with
      | sys o =>
          have hsys : noteSys o r = some c := hnote
          unfold noteSys at hsys
          split_ifs at hsys with hpart
          rw [Option.some.injEq] at hsys
          rw [← hsys]
          have htransfer : o.part ≠ some .transferring := by
            intro heq
            have hmem : Part.transferring ∈ partsOf nCmd := ho _ heq
            cases nCmd with
            | none => exact absurd hmem List.not_mem_nil
            | some cmd => cases cmd <;> exact absurd hmem (by decide)
          cases o <;> first | rfl | exact absurd rfl htransfer
      | redis o => exact absurd hnote (by simp [noteShell, noteCommand])
      | client => exact absurd hnote (by simp [noteShell, noteCommand])
      | modify f => exact absurd hnote (by simp [noteShell, noteCommand])
      | sendReply r => exact absurd hnote (by simp [noteShell, noteCommand])

/-- The active transfer that an operation of a thread is. -/
theorem mem_actives_note {o : CommandOp} {r : o.Res} (h : t ∈ actives (noteCommand o r).toList) :
    UsesId o t := by
  cases o with
  | sys o =>
      have hmem : t ∈ actives (noteSys o r).toList := h
      unfold noteSys at hmem
      split_ifs at hmem with hpart
      · rw [actives, List.mem_filterMap] at hmem
        obtain ⟨c, hc, hid⟩ := hmem
        rw [Option.toList_some, List.mem_singleton] at hc
        rw [hc] at hid
        exact hid
      · exact absurd hmem List.not_mem_nil
  | redis o => exact absurd h List.not_mem_nil
  | client => exact absurd h List.not_mem_nil
  | modify f => exact absurd h List.not_mem_nil
  | sendReply r => exact absurd h List.not_mem_nil

/-- The active transfers of a step. -/
theorem LiveStep.actives_mem (h : LiveStep cfg s who cs s')
    (hthreads : ∀ p ∈ s.threads, Drawing A p) : ∀ t ∈ actives cs, A t := by
  intro t ht
  cases h with
  | @line w' next env line hopened hrun =>
      rw [actives_line] at ht
      exact absurd ht List.not_mem_nil
  | hangUp hopened => exact absurd ht List.not_mem_nil
  | @op xs ys o k env heq =>
      have hp : Drawing A (.call o k) := hthreads _ (by rw [heq]; simp)
      exact hp.1 t (mem_actives_note ht)
  | @poll xs ys o again k env heq hdone =>
      have hp : Drawing A (.poll o again k) := hthreads _ (by rw [heq]; simp)
      exact hp.1 t (mem_actives_note ht)
  | @ends xs ys w' env heq hrun => exact absurd ht List.not_mem_nil
  | others db hdb => exact absurd ht List.not_mem_nil

/-- A transaction that an answer gives is new. -/
theorem drawsId_serve {o : CommandOp} {env : Env} {w : World}
    (h : DrawsId o (serveCommand env o w).1 t) :
    (w.db.transaction_counter : ℤ) < t ∧
      t ≤ ((serveCommand env o w).2.db.transaction_counter : ℤ) ∧
      (noteCommand o (serveCommand env o w).1).toList = [] := by
  cases o with
  | redis o =>
      cases o with
      | incrTransactionCounter =>
          have heq : t = ((w.db.transaction_counter + 1 : ℕ) : ℤ) := h
          have hafter : (serveCommand env (.redis .incrTransactionCounter) w).2.db =
            { w.db with transaction_counter := w.db.transaction_counter + 1 } := rfl
          rw [hafter, heq]
          push_cast
          exact ⟨lt_add_one _, le_refl _, rfl⟩
      | _ => exact h.elim
  | client => exact h.elim
  | modify f => exact h.elim
  | sendReply r => exact h.elim
  | sys o => exact h.elim

/-- The threads of a step. -/
theorem LiveStep.drawing (h : LiveStep cfg s who cs s') (hthreads : ∀ p ∈ s.threads, Drawing A p)
    (hAB : ∀ t, A t → B t)
    (hnew : cs = [] → ∀ t, (s.counter : ℤ) < t → t ≤ (s'.counter : ℤ) → B t) :
    ∀ p ∈ s'.threads, Drawing B p := by
  have hall : ∀ p ∈ s.threads, Drawing B p := fun p hp => (hthreads p hp).mono hAB
  cases h with
  | @line w' next env line hopened hrun =>
      exact threadsAfter_forall (fun thread => drawing_body cfg thread) hall _
  | hangUp hopened => exact hall
  | @op xs ys o k env heq =>
      have hp : Drawing A (.call o k) := hthreads _ (by rw [heq]; simp)
      refine forall_replaced hall heq ((hp.2 _).answer hAB fun t ht => ?_)
      obtain ⟨hlt, hle, hcs⟩ := drawsId_serve ht
      exact hnew hcs t hlt hle
  | @poll xs ys o again k env heq hdone =>
      have hp : Drawing A (.poll o again k) := hthreads _ (by rw [heq]; simp)
      refine forall_replaced hall heq ((hp.2 _).answer hAB fun t ht => ?_)
      obtain ⟨hlt, hle, hcs⟩ := drawsId_serve ht
      exact hnew hcs t hlt hle
  | @ends xs ys w' env heq hrun => exact forall_removed hall heq
  | others db hdb => exact hall

/-! ### The invariant -/

/-- The passive transactions of all sessions are in order, each is of one session, and no active
transfer has the identifier of one. -/
structure Orderly (sent : ℕ → List Call) : Prop where
  ordered : ∀ i, TransactionsInOrder (sent i)
  apart : ∀ i j, ∀ r ∈ passives (sent i), ∀ d ∈ passives (sent j), r.trans_id = d.trans_id → i = j
  active : ∀ i j, ∀ r ∈ passives (sent i), r.trans_id ∉ actives (sent j)

/-- The identifier has been drawn, and not for a passive transaction. -/
def Metaserver.Taken (m : Metaserver) (t : ℤ) : Prop :=
  t ≤ ((m.sessions 0).counter : ℤ) ∧ ∀ i, ∀ r ∈ passives (m.sent i), r.trans_id ≠ t

/-- What a run knows about the identifiers. -/
structure IdsInv (m : Metaserver) : Prop where
  apart : ∀ i j, ∀ r ∈ passives (m.sent i), ∀ d ∈ passives (m.sent j),
    r.trans_id = d.trans_id → i = j
  active : ∀ i, ∀ t ∈ actives (m.sent i), m.Taken t
  threads : ∀ i, ∀ p ∈ (m.sessions i).threads, Drawing m.Taken p

theorem mem_set_sent {r : PassiveRpc} (h : r ∈ passives ((m.set i s cs).sent j)) :
    r ∈ passives (m.sent j) ∨ j = i ∧ r ∈ passives cs := by
  by_cases hj : j = i
  · subst hj
    rw [set_sent_self, passives_append, List.mem_append] at h
    exact h.imp_right fun hr => ⟨rfl, hr⟩
  · rw [set_sent_other hj] at h
    exact .inl h

/-- **One step** of one of the sessions. -/
theorem IdsInv.step (hinv : IdsInv m) (hrun : MetaserverRun cfg m)
    (hstep : LiveStep cfg (m.sessions i) who cs s')
    (hkeeps : KeepsOrder (m.sessions i) (m.sent i) who cs) : IdsInv (m.set i s' cs) := by
  have htrans := (hrun.live i).transactionInv
  have hissued := htrans.issued hstep
  have hordered := (htrans.step hstep hkeeps).ordered
  have hcounter : ∀ j, (m.sessions j).counter = (m.sessions i).counter := by
    intro j
    rw [LiveSession.counter, hrun.db j i]
  have hdrawn : ∀ j, ∀ r ∈ passives (m.sent j), r.trans_id ≤ ((m.sessions i).counter : ℤ) := by
    intro j r hr
    rw [← hcounter j]
    exact (hrun.live j).transactionInv.drawn r hr
  have hle := hstep.counter_le
  have hnew : ((m.set i s' cs).sessions 0).counter = s'.counter := by
    rw [LiveSession.counter, set_db]
  -- an identifier in use stays what it is used for
  have htaken : ∀ t, m.Taken t → (m.set i s' cs).Taken t := by
    intro t ht
    obtain ⟨hlow, hpassive⟩ := ht
    rw [hcounter 0] at hlow
    refine ⟨by rw [hnew]; omega, ?_⟩
    intro j r hr heq
    obtain hr | ⟨-, hr⟩ := mem_set_sent hr
    · exact hpassive j r hr heq
    · obtain ⟨d, hd, hsame⟩ | hfresh := hissued.known hordered hr
      · exact hpassive i d hd (hsame.trans heq)
      · omega
  refine ⟨?_, ?_, ?_⟩
  · intro j k r hr d hd heq
    -- a transaction of the step is of session `i` alone
    have hstranger : ∀ k, ∀ r ∈ passives cs, ∀ d ∈ passives (m.sent k), r.trans_id = d.trans_id →
        i = k := by
      intro k r hr d hd heq
      obtain ⟨d', hd', hsame⟩ | hfresh := hissued.known hordered hr
      · exact hinv.apart i k d' hd' d hd (hsame.trans heq)
      · have hold := hdrawn k d hd
        omega
    obtain hold | ⟨rfl, hmine⟩ := mem_set_sent hr
    · obtain hold' | ⟨rfl, hmine⟩ := mem_set_sent hd
      · exact hinv.apart j k r hold d hold' heq
      · exact (hstranger j d hmine r hold heq.symm).symm
    · obtain hold' | ⟨rfl, -⟩ := mem_set_sent hd
      · exact hstranger k r hmine d hold' heq
      · rfl
  · intro j t ht
    refine htaken t ?_
    by_cases hj : j = i
    · subst hj
      rw [set_sent_self, actives_append, List.mem_append] at ht
      obtain ht | ht := ht
      · exact hinv.active j t ht
      · exact hstep.actives_mem (hinv.threads j) t ht
    · rw [set_sent_other hj] at ht
      exact hinv.active j t ht
  · intro j
    by_cases hj : j = i
    · subst hj
      rw [set_sessions_self]
      refine hstep.drawing (hinv.threads j) htaken ?_
      intro hcs t hlt hle
      refine ⟨by rw [hnew]; exact hle, ?_⟩
      intro k r hr heq
      obtain hr | ⟨-, hr⟩ := mem_set_sent hr
      · have hold := hdrawn k r hr
        omega
      · rw [hcs] at hr
        exact absurd hr List.not_mem_nil
    · rw [set_sessions_other hj]
      intro p hp
      exact (hinv.threads j p hp).mono htaken

theorem MetaserverRun.idsInv (h : MetaserverRun cfg m) : IdsInv m := by
  induction h with
  | @start m hfresh =>
      refine ⟨?_, ?_, ?_⟩
      · intro i j r hr
        rw [hfresh.sent i] at hr
        exact absurd hr List.not_mem_nil
      · intro i t ht
        rw [hfresh.sent i] at ht
        exact absurd ht List.not_mem_nil
      · intro i p hp
        obtain ⟨w, hw, -⟩ := hfresh.session i
        rw [hw] at hp
        exact absurd hp List.not_mem_nil
  | step hrun hstep hkeeps ih => exact ih.step hrun hstep hkeeps

/-- What the slaves are sent by all sessions together. -/
theorem MetaserverRun.orderly (h : MetaserverRun cfg m) : Orderly m.sent := by
  refine ⟨fun i => (h.live i).transactionInv.ordered, h.idsInv.apart, ?_⟩
  intro i j r hr hactive
  exact (h.idsInv.active j _ hactive).2 i r hr rfl

/-- **The transactions of all sessions**: whatever the order of their steps is, the passive
transactions of each session are in order, two sessions have none in common, and the active
transfers of no session have the identifier of one. -/
theorem transactions_apart (h : MetaserverRun cfg m) : Orderly m.sent := h.orderly

/-! ### Two passive connections at once -/

/-- A line of session `i`. -/
theorem MetaserverRun.command {env : Env} {w w' : World} {ts : List (CommandProg Unit)}
    (i : ℕ) (line : Text) {nCmd : Cmd} {pszCmdArg : Option Text} {u : Unit}
    (hsession : m.sessions i = ⟨w, ts, true⟩) (hline : parseLine line = (some nCmd, pszCmdArg))
    (hnot : nCmd ∉ [Cmd.quit, .user, .pass, .cwd, .xcwd, .cdup, .xcup])
    (hlogged : w.client.bIsLogged = true) (h : Does env (shellCmd cfg nCmd pszCmdArg) w u w' cs)
    (hkeeps : KeepsOrder ⟨w, ts, true⟩ (m.sent i) (.line (some nCmd)) cs)
    (hrun : MetaserverRun cfg m) :
    MetaserverRun cfg (m.set i ⟨w', threadsAfter cfg ts cs, true⟩ cs) := by
  obtain ⟨hends, hcalls⟩ := line_of_does hnot hlogged h
  have hstep : LiveStep cfg ⟨w, ts, true⟩ _ _ _ := .line env line rfl (by
    rw [hline]
    exact hends)
  rw [hline, hcalls] at hstep
  have hstep' : LiveStep cfg (m.sessions i) (.line (some nCmd)) cs
      ⟨w', threadsAfter cfg ts cs, true⟩ := by
    rw [hsession]
    exact hstep
  exact hrun.step hstep' (by rw [hsession]; exact hkeeps)

/-- The guest logs in in session `i`. -/
theorem MetaserverRun.guest (i : ℕ) {db : Redis}
    (hsession : m.sessions i = ⟨⟨db, {}, [], 0⟩, [], true⟩)
    (hlogin : run (serveShell .willing) (dispatch cfg (some .user) (some "guest".toList))
      ⟨db, {}, [], 0⟩ = .done .continue (guestWorld db)) (hrun : MetaserverRun cfg m) :
    MetaserverRun cfg (m.set i ⟨guestWorld db, [], true⟩ []) := by
  have hline : parseLine "USER guest".toList = (some .user, some "guest".toList) := by decide
  have hstep : LiveStep cfg ⟨⟨db, {}, [], 0⟩, [], true⟩ _ _ _ :=
    .line .willing "USER guest".toList rfl (by rw [hline]; exact hlogin)
  rw [hline, (line_not_logged rfl hlogin).2] at hstep
  have hstep' : LiveStep cfg (m.sessions i) (.line (some .user)) [] ⟨guestWorld db, [], true⟩ := by
    rw [hsession]
    exact hstep
  refine hrun.step hstep' ?_
  intro nCmd hcmd hblind
  rw [Happening.line.injEq] at hcmd
  rw [← hcmd] at hblind
  exact absurd hblind (by decide)

/-- Two sessions on a database with two files. -/
def twoSessions : Metaserver := ⟨fun _ => ⟨⟨twoFiles, {}, [], 0⟩, [], true⟩, fun _ => []⟩

theorem twoSessions_fresh : twoSessions.Fresh :=
  ⟨fun _ => ⟨_, rfl, rfl, rfl⟩, fun _ _ => rfl, fun _ => rfl⟩

/-- The database after two passive connections. -/
def twiceDrawn : Redis := { twoFiles with transaction_counter := 2 }

/-- The world of the session that opens the second passive connection. -/
def secondPassive : World :=
  { pretWorld (guestWorld twoFiles) 1 with
    db := twiceDrawn
    client := { (pretWorld (guestWorld twoFiles) 1).client with
      SlaveInfo := slaveA, llPRET_trans_id := 2, eDataConnection := .pasv }
    replies := (pretWorld (guestWorld twoFiles) 1).replies ++ [.line 227 "Entering Passive Mode"]
    clock := 2 }

/-- The call of its `PASV`. -/
def secondCall : Call :=
  ⟨.initPasvDataConnection slaveA { server_ip := ['A'], trans_id := 2 } 100 900,
    .reply (.line 227 "Entering Passive Mode")⟩

theorem pasv_second : Does .willing (shellCmd {} .pasv none)
    { pretWorld (guestWorld twoFiles) 1 with db := { twoFiles with transaction_counter := 1 } } ()
    secondPassive [secondCall] := ⟨rfl, rfl⟩

theorem retr_between : Does .willing (shellCmd {} .retr (some "/a".toList))
    { passiveWorld with db := twiceDrawn } () { downloadWorld with db := twiceDrawn } retrCalls := by
  constructor
  · show run _ (statPath (Client.buildPath _ (some "/a".toList)) >>= _) _ = _
    rw [guest_a rfl]
    rfl
  · show trace _ _ (statPath (Client.buildPath _ (some "/a".toList)) >>= _) _ = _
    rw [guest_a rfl]
    rfl

/-- Two sessions name `/a` and open passive connections, and then the first one retrieves it. -/
theorem transactions_apart_two : ∃ m, MetaserverRun {} m ∧ m.sent 0 = pasvCalls ++ retrCalls ∧
    m.sent 1 = [secondCall] ∧ Orderly m.sent := by
  have hstart : MetaserverRun {} twoSessions := .start twoSessions_fresh
  have h₀ := hstart.guest 0 rfl run_user_guest
  have h₁ := h₀.guest 1 rfl run_user_guest
  have h₂ := MetaserverRun.command 0 "PRET RETR /a".toList rfl (by decide) (by simp) rfl pret_a
    (keepsOrder_quiet (by decide)) h₁
  have h₃ := MetaserverRun.command 1 "PRET RETR /a".toList rfl (by decide) (by simp) rfl pret_a
    (keepsOrder_quiet (by decide)) h₂
  have h₄ := MetaserverRun.command 0 "PASV".toList rfl (by decide) (by simp) rfl pasv_a
    (keepsOrder_quiet (by decide)) h₃
  have h₅ := MetaserverRun.command 1 "PASV".toList rfl (by decide) (by simp) rfl pasv_second
    (keepsOrder_quiet (by decide)) h₄
  have hkeeps : KeepsOrder ⟨{ passiveWorld with db := twiceDrawn }, [], true⟩ pasvCalls
      (.line (some .retr)) retrCalls :=
    keepsOrder_opening _ rfl initAnswered_pasv rfl
  have h₆ := MetaserverRun.command 0 "RETR /a".toList rfl (by decide) (by simp) rfl retr_between
    hkeeps h₅
  exact ⟨_, h₆, rfl, rfl, transactions_apart h₆⟩

end ClusterFtpd
