import ClusterFtpd.HeldConnections

/-!
# Sockets that nobody holds

A slave opens the data socket of a transaction in `InitPasvDataConnection`, and closes it when it
carries out the transfer.  No call closes the socket of a transfer that is not wanted any more.

The sessions need not keep the order of their transfers here, and the slaves may find a transaction
in any state.

Main results:

* `no_orphans`: while no session gives up a transaction that a slave has a socket for, and no
  transfer is on its way for, every socket is that of a transaction that a session holds, or that a
  transfer is on its way for;
* `orphan_left`: a client that hangs up behind its `PASV` leaves a socket to nobody.
-/

namespace ClusterFtpd

open Interaction MachineInt

variable {inet_addr : Text → ℕ} {x : Remote} {r : Reply} {t : ℤ} {cfg : Config} {d d' : Deployment}
  {n n' : Slaves} {s s' : LiveSession} {i j : ℕ} {cs : List Call} {slave : SlaveInfo}

/-! ### What the slaves have -/

/-- The entries that carrying out a call leaves alone. -/
theorem CarriesOut.entry (h : CarriesOut x r n n') (hother : slave ≠ x.slave ∨ t ≠ x.trans_id) :
    (n'.states slave).mDataSock t = (n.states slave).mDataSock t := by
  cases h with
  | run env rounds hrun =>
      by_cases hslave : slave = x.slave
      · subst hslave
        simp only [Function.update_self]
        exact entry_kept hrun (hother.resolve_left fun hne => hne rfl)
      · simp only [Function.update_of_ne hslave]

theorem CarriesOut.late (h : CarriesOut x r n n') : n'.late = n.late := by
  cases h with
  | run env rounds hrun => rfl

theorem CarriesOut.closes (h : CarriesOut x r n n') (htransfer : x.rpc.IsTransfer) :
    ¬ (n'.states x.slave).IsOpen x.trans_id := by
  cases h with
  | run env rounds hrun =>
      simp only [Function.update_self]
      exact transfer_closes htransfer hrun

/-- A data socket behind a call that has been carried out: it was there, or it is that of the call,
which is no transfer. -/
theorem CarriesOut.isOpen (h : CarriesOut x r n n') (hopen : (n'.states slave).IsOpen t) :
    (n.states slave).IsOpen t ∧ (x.rpc.IsTransfer → slave ≠ x.slave ∨ t ≠ x.trans_id) ∨
      ¬ x.rpc.IsTransfer ∧ x.slave = slave ∧ x.trans_id = t := by
  by_cases hother : slave ≠ x.slave ∨ t ≠ x.trans_id
  · exact .inl ⟨(isOpen_congr (h.entry hother)).mp hopen, fun _ => hother⟩
  · simp only [ne_eq, not_or, not_not] at hother
    obtain ⟨rfl, rfl⟩ := hother
    exact .inr ⟨fun htransfer => h.closes htransfer hopen, rfl, rfl⟩

/-- A transfer in the transaction is on its way to the slave. -/
def Slaves.Serves (n : Slaves) (slave : SlaveInfo) (t : ℤ) : Prop :=
  ∃ x ∈ n.late, x.slave = slave ∧ x.trans_id = t ∧ x.rpc.IsTransfer

/-- **The calls of a step**: a new data socket comes from one that is no transfer, and what was on
its way still is. -/
structure Delivery (inet_addr : Text → ℕ) (n : Slaves) (cs : List Call) (n' : Slaves) : Prop where
  isOpen : ∀ slave t, (n'.states slave).IsOpen t →
    (n.states slave).IsOpen t ∨ ∃ c ∈ cs, c.Connects inet_addr t
  kept : ∀ x ∈ n.late, x ∈ n'.late
  late : ∀ x ∈ n'.late, ¬ x.rpc.IsTransfer → x ∈ n.late ∨ ∃ c ∈ cs, c.Connects inet_addr x.trans_id

theorem AllDelivered.delivery (h : AllDelivered inet_addr n cs n') :
    Delivery inet_addr n cs n' := by
  induction h with
  | nil n => exact ⟨fun _ _ h => .inl h, fun _ h => h, fun _ h _ => .inl h⟩
  | @cons n n₁ n₂ c cs hone _ ih =>
      have hlast : ∀ t, (∃ c ∈ cs, c.Connects inet_addr t) →
          ∃ c' ∈ c :: cs, c'.Connects inet_addr t := by
        intro t hmem
        obtain ⟨c', hc', hconnects⟩ := hmem
        exact ⟨c', List.mem_cons_of_mem c hc', hconnects⟩
      cases hone with
      | here hlocal =>
          exact ⟨fun slave t hopen => (ih.isOpen slave t hopen).imp_right (hlast t), ih.kept,
            fun x hx hno => (ih.late x hx hno).imp_right (hlast _)⟩
      | @answered x r n₁ hc hcarries =>
          have hlate := hcarries.late
          refine ⟨?_, ?_, ?_⟩
          · intro slave t hopen
            obtain hopen | hnew := ih.isOpen slave t hopen
            · obtain ⟨hold, -⟩ | ⟨hno, -, ht⟩ := hcarries.isOpen hopen
              · exact .inl hold
              · exact .inr ⟨c, List.mem_cons_self, x, some r, hc, hno, ht⟩
            · exact .inr (hlast t hnew)
          · intro y hy
            rw [← hlate] at hy
            exact ih.kept y hy
          · intro y hy hno
            rw [← hlate]
            exact (ih.late y hy hno).imp_right (hlast _)
      | @lost x hc =>
          refine ⟨?_, ?_, ?_⟩
          · intro slave t hopen
            exact (ih.isOpen slave t hopen).imp_right (hlast t)
          · intro y hy
            exact ih.kept y (List.mem_cons_of_mem x hy)
          · intro y hy hno
            obtain hy | hnew := ih.late y hy hno
            · obtain rfl | hy := List.mem_cons.mp hy
              · exact .inr ⟨c, List.mem_cons_self, y, none, hc, hno, rfl⟩
              · exact .inl hy
            · exact .inr (hlast _ hnew)

/-! ### Runs -/

/-- A condition on a step of a session: the system, the session, what happens, and the calls. -/
abbrev SystemCondition := Deployment → ℕ → SessionEvent → List Call → Prop

/-- A session makes a step, or a slave carries out a call that has been on its way. -/
inductive SystemStep (cfg : Config) (inet_addr : Text → ℕ) (ok : SystemCondition)
    (d : Deployment) : Deployment → Prop where
  | session {i : ℕ} {ev : SessionEvent} {cs : List Call} {s' : LiveSession} {n' : Slaves} :
      SessionStep cfg (d.metaserver.sessions i) ev cs s' → ok d i ev cs →
      AllDelivered inet_addr d.slaves cs n' →
      SystemStep cfg inet_addr ok d ⟨d.metaserver.set i s' cs, n'⟩
  | late {x : Remote} {xs ys : List Remote} {r : Reply} {n' : Slaves} :
      d.slaves.late = xs ++ x :: ys → CarriesOut x r { d.slaves with late := xs ++ ys } n' →
      SystemStep cfg inet_addr ok d ⟨d.metaserver, n'⟩

/-- The runs of a metaserver with its slaves whose steps all satisfy `ok`. -/
inductive SystemRun (cfg : Config) (inet_addr : Text → ℕ) (ok : SystemCondition) :
    Deployment → Prop where
  | start {m : Metaserver} : m.Fresh → SystemRun cfg inet_addr ok ⟨m, {}⟩
  | step {d d' : Deployment} : SystemRun cfg inet_addr ok d → SystemStep cfg inet_addr ok d d' →
      SystemRun cfg inet_addr ok d'

/-- A slave has a socket for the transaction, and no transfer is on its way to it; or an `Init` or
an `Open` is on its way. -/
def Slaves.Unserved (n : Slaves) (t : ℤ) : Prop :=
  (∃ slave, (n.states slave).IsOpen t ∧ ¬ n.Serves slave t) ∨
    ∃ x ∈ n.late, x.trans_id = t ∧ ¬ x.rpc.IsTransfer

/-- The session holds a transaction that is not served. -/
def Deployment.AtRisk (d : Deployment) (i : ℕ) : Prop :=
  ∃ t, (d.metaserver.sessions i).Holds t ∧ d.slaves.Unserved t

/-- A session that holds a transaction that is not served does not give it up, and can create its
thread; behind an `Open` every thread can be created, and an `Init` is answered, unless the
connection is passive already. -/
structure KeepsSockets (cfg : Config) (d : Deployment) (i : ℕ) (ev : SessionEvent)
    (cs : List Call) : Prop where
  kept : d.AtRisk i → ¬ GivesUp cfg (d.metaserver.sessions i) ev
  created : ∀ thread, ⟨.pthread_create thread, false⟩ ∈ cs → ¬ d.AtRisk i ∧
    ∀ slave p answer, ⟨.openPasvDataConnection slave p, answer⟩ ∉ cs
  answered : ∀ slave p startPort portLen, ⟨.initPasvDataConnection slave p startPort portLen,
    .exception⟩ ∈ cs → (d.metaserver.sessions i).world.client.eDataConnection = .pasv

/-- Every data socket on a slave is that of a transaction that a session holds, or that a transfer
is on its way for. -/
def NoOrphans (d : Deployment) : Prop :=
  ∀ slave t, (d.slaves.states slave).IsOpen t →
    (∃ i, (d.metaserver.sessions i).Holds t) ∨ d.slaves.Serves slave t

/-- What every run keeps. -/
structure Accounted (d : Deployment) : Prop where
  sockets : NoOrphans d
  late : ∀ x ∈ d.slaves.late, ¬ x.rpc.IsTransfer → ∃ i, (d.metaserver.sessions i).Holds x.trans_id
  bodies : ∀ i, (d.metaserver.sessions i).Bodies

/-- A transaction that is held stays so, if it is not served. -/
theorem Accounted.held {ev : SessionEvent} (h : Accounted d)
    (hstep : SessionStep cfg (d.metaserver.sessions i) ev cs s')
    (hkeeps : KeepsSockets cfg d i ev cs) (hj : (d.metaserver.sessions j).Holds t)
    (hunserved : d.slaves.Unserved t) :
    ((d.metaserver.set i s' cs).sessions j).Holds t := by
  by_cases hij : j = i
  · subst hij
    rw [set_sessions_self]
    have hrisk : d.AtRisk j := ⟨t, hj, hunserved⟩
    exact hstep.holds (h.bodies j) (hkeeps.kept hrisk)
      (fun thread hmem => (hkeeps.created thread hmem).1 hrisk) hj
  · rw [set_sessions_other hij]
    exact hj

theorem Accounted.step (h : Accounted d)
    (hstep : SystemStep cfg inet_addr (KeepsSockets cfg) d d') : Accounted d' := by
  cases hstep with
  | @session i ev cs s' n' hsession hkeeps hdelivered =>
      have hdelivery := hdelivered.delivery
      have hnew : ∀ t, (∃ c ∈ cs, c.Connects inet_addr t) →
          ∃ j, ((d.metaserver.set i s' cs).sessions j).Holds t := by
        intro t hmem
        obtain ⟨c, hc, hconnects⟩ := hmem
        refine ⟨i, ?_⟩
        rw [set_sessions_self]
        exact hsession.connects (h.bodies i)
          (fun thread hcreate => (hkeeps.created thread hcreate).2) hkeeps.answered hc hconnects
      refine ⟨?_, ?_, ?_⟩
      · intro slave t hopen
        obtain hold | hmem := hdelivery.isOpen slave t hopen
        · by_cases hserves : d.slaves.Serves slave t
          · obtain ⟨x, hx, hserved⟩ := hserves
            exact .inr ⟨x, hdelivery.kept x hx, hserved⟩
          · obtain ⟨j, hj⟩ := (h.sockets slave t hold).resolve_right hserves
            exact .inl ⟨j, h.held hsession hkeeps hj (.inl ⟨slave, hold, hserves⟩)⟩
        · exact .inl (hnew t hmem)
      · intro x hx hno
        obtain hold | hmem := hdelivery.late x hx hno
        · obtain ⟨j, hj⟩ := h.late x hold hno
          exact ⟨j, h.held hsession hkeeps hj (.inr ⟨x, hold, rfl, hno⟩)⟩
        · exact hnew _ hmem
      · intro j
        by_cases hij : j = i
        · subst hij
          obtain ⟨who, hlive⟩ := hsession.live
          simp only [set_sessions_self]
          exact hlive.bodies (h.bodies j)
        · simp only [set_sessions_other hij]
          exact h.bodies j
  | @late x xs ys r n' hlate hcarries =>
      have hmem : x ∈ d.slaves.late := by
        rw [hlate]
        simp
      have hrest : n'.late = xs ++ ys := hcarries.late
      refine ⟨?_, ?_, h.bodies⟩
      · intro slave t hopen
        obtain ⟨hold, hother⟩ | ⟨hno, -, ht⟩ := hcarries.isOpen hopen
        · obtain hheld | ⟨y, hy, hslave, ht, htransfer⟩ := h.sockets slave t hold
          · exact .inl hheld
          · refine .inr ⟨y, ?_, hslave, ht, htransfer⟩
            rw [hlate, List.mem_append, List.mem_cons] at hy
            rw [hrest, List.mem_append]
            obtain hy | rfl | hy := hy
            · exact .inl hy
            · obtain hne | hne := hother htransfer
              · exact absurd hslave.symm hne
              · exact absurd ht.symm hne
            · exact .inr hy
        · rw [← ht]
          exact .inl (h.late x hmem hno)
      · intro y hy hno
        refine h.late y ?_ hno
        rw [hrest, List.mem_append] at hy
        rw [hlate, List.mem_append, List.mem_cons]
        exact hy.imp_right .inr

theorem SystemRun.accounted (h : SystemRun cfg inet_addr (KeepsSockets cfg) d) : Accounted d := by
  induction h with
  | start hfresh =>
      refine ⟨?_, fun x hx => absurd hx List.not_mem_nil, ?_⟩
      · intro slave t hopen
        obtain ⟨fd, hfd⟩ := hopen
        exact absurd hfd (by simp)
      · intro i p hp
        obtain ⟨w, hw, -⟩ := hfresh.session i
        rw [hw] at hp
        exact absurd hp List.not_mem_nil
  | step _ hstep ih => exact ih.step hstep

/-- **No socket is left behind** while no session gives up a transaction that a slave has a socket
for and no transfer is on its way for: every data socket is that of a transaction that a session
holds, with a passive connection pending, or that a transfer is on its way for. -/
theorem no_orphans (h : SystemRun cfg inet_addr (KeepsSockets cfg) d) : NoOrphans d :=
  h.accounted.sockets

/-! ### A guest who downloads, and one who hangs up -/

theorem SystemRun.mono {ok ok' : SystemCondition} (hok : ∀ d i ev cs, ok d i ev cs → ok' d i ev cs)
    (h : SystemRun cfg inet_addr ok d) : SystemRun cfg inet_addr ok' d := by
  induction h with
  | start hfresh => exact .start hfresh
  | step _ hstep ih =>
      refine ih.step ?_
      cases hstep with
      | session hsession hkeeps hdelivered =>
          exact .session hsession (hok _ _ _ _ hkeeps) hdelivered
      | late hlate hcarries => exact .late hlate hcarries

/-- Session 0 is `s` and has made these calls; the others hold nothing. -/
structure SoleSession (d : Deployment) (s : LiveSession) (calls : List Call) : Prop where
  session : d.metaserver.sessions 0 = s
  sent : d.metaserver.sent 0 = calls
  others : ∀ j ≠ 0, ∀ t, ¬ (d.metaserver.sessions j).Holds t

theorem SoleSession.set {calls : List Call} (h : SoleSession d s calls) (s' : LiveSession)
    (cs : List Call) (n' : Slaves) :
    SoleSession ⟨d.metaserver.set 0 s' cs, n'⟩ s' (calls ++ cs) := by
  obtain ⟨rfl, rfl, hothers⟩ := h
  refine ⟨set_sessions_self, set_sent_self, ?_⟩
  intro j hj t
  simp only [set_sessions_other hj]
  exact hothers j hj t

/-- Calls that no slave hears of carry nothing out. -/
theorem AllDelivered.unheard (h : AllDelivered inet_addr n cs n')
    (hcs : ∀ c ∈ cs, c.Unheard inet_addr) : n'.states = n.states := by
  induction h with
  | nil n => rfl
  | @cons n n₁ n₂ c cs hone _ ih =>
      rw [ih fun c hc => hcs c (List.mem_cons_of_mem _ hc)]
      cases hone with
      | here _ => rfl
      | answered hc _ => exact absurd hc (hcs c List.mem_cons_self _ _)
      | lost _ => rfl

/-- A command of the session. -/
theorem SoleSession.command {ok : SystemCondition} {w w' : World} {ts : List (CommandProg Unit)}
    {calls : List Call} {env : Env} {nCmd : Cmd} {pszCmdArg : Option Text} (line : Text)
    (hrun : SystemRun cfg inet_addr ok d) (h : SoleSession d ⟨w, ts, true⟩ calls)
    (hline : parseLine line = (some nCmd, pszCmdArg))
    (hnot : nCmd ∉ [Cmd.quit, .user, .pass, .cwd, .xcwd, .cdup, .xcup])
    (hlogged : w.client.bIsLogged = true)
    (hdoes : Does env (shellCmd cfg nCmd pszCmdArg) w () w' cs) (hok : ok d 0 (.line line) cs)
    (hdelivered : AllDelivered inet_addr d.slaves cs n') :
    ∃ d', SystemRun cfg inet_addr ok d' ∧ d'.slaves = n' ∧
      SoleSession d' ⟨w', threadsAfter cfg ts cs, true⟩ (calls ++ cs) := by
  obtain ⟨hends, hcalls⟩ := line_of_does hnot hlogged hdoes
  have hstep : SessionStep cfg ⟨w, ts, true⟩ (.line line) _ _ := .line env line rfl (by
    rw [hline]
    exact hends)
  rw [hline, hcalls] at hstep
  have hsession : SessionStep cfg (d.metaserver.sessions 0) (.line line) cs
      ⟨w', threadsAfter cfg ts cs, true⟩ := by
    rw [h.session]
    exact hstep
  exact ⟨_, hrun.step (.session hsession hok hdelivered), rfl, h.set _ cs n'⟩

/-- Nothing is at risk while the slaves have nothing. -/
theorem not_atRisk_empty (m : Metaserver) (i : ℕ) : ¬ Deployment.AtRisk ⟨m, {}⟩ i := by
  intro hrisk
  obtain ⟨t, -, ⟨slave, ⟨fd, hfd⟩, -⟩ | ⟨x, hx, -⟩⟩ := hrisk
  · exact absurd hfd (by simp)
  · exact absurd hx List.not_mem_nil

/-- A session that has called no slave. -/
theorem LiveRun.system {ok : LiveCondition} {calls : List Call} (h : LiveRun cfg ok s calls)
    (inet_addr : Text → ℕ) (hlocal : ∀ c ∈ calls, c.remote inet_addr = none) :
    ∃ m, SystemRun cfg inet_addr (KeepsSockets cfg) ⟨m, {}⟩ ∧ SoleSession ⟨m, {}⟩ s calls := by
  induction h with
  | @connect w hlogin hcommand =>
      refine ⟨⟨fun _ => ⟨w, [], true⟩, fun _ => []⟩, .start ?_, rfl, rfl, ?_⟩
      · exact ⟨fun _ => ⟨w, rfl, hlogin, hcommand⟩, fun _ _ => rfl, fun _ => rfl⟩
      · intro j _ t hheld
        obtain ⟨-, -, hpasv⟩ := hheld
        have hnone : w.view.eDataConnection = .none := by
          rw [World.view, hcommand]
          rfl
        rw [hnone] at hpasv
        cases hpasv
  | @step s s' calls cs who _ hstep _ ih =>
      obtain ⟨m, hrun, hsole⟩ := ih fun c hc => hlocal c (List.mem_append_left _ hc)
      have hcs : ∀ c ∈ cs, c.remote inet_addr = none :=
        fun c hc => hlocal c (List.mem_append_right _ hc)
      have hsafe := not_atRisk_empty m 0
      have hkeeps : ∀ ev, KeepsSockets cfg ⟨m, {}⟩ 0 ev cs := by
        intro ev
        refine ⟨fun hrisk => absurd hrisk hsafe, fun thread _ => ⟨hsafe, ?_⟩, ?_⟩
        · intro slave p answer hmem
          exact absurd (hcs _ hmem) (by simp [Call.remote])
        · intro slave p startPort portLen hmem
          exact absurd (hcs _ hmem) (by simp [Call.remote])
      obtain ⟨ev, hevent⟩ := hstep.event
      have hsession : SessionStep cfg (m.sessions 0) ev cs s' := by
        rw [hsole.session]
        exact hevent
      have hnone := allDelivered_local inet_addr hcs {}
      exact ⟨_, hrun.step (.session hsession (hkeeps ev) hnone), hsole.set s' cs {}⟩

/-- The only socket is that of the transaction 1 on slave A, and nothing but transfers is on its
way. -/
structure OneSocket (n : Slaves) : Prop where
  only : ∀ slave t, (n.states slave).IsOpen t → slave = slaveA ∧ t = 1
  isOpen : (n.states slaveA).IsOpen 1
  late : ∀ x ∈ n.late, x.rpc.IsTransfer

/-- The call of `PASV`, as the slave gets it. -/
def initRemote : Remote :=
  ⟨slaveA, .initPasvDataConnection { server_ip := ['A'], trans_id := 1 } 0 100 900⟩

/-- The call of `RETR /a`. -/
def openRemote : Remote := ⟨slaveA, .openPasvDataConnection { trans_id := 1 }⟩

/-- The guest names `/a` and opens a passive connection. -/
theorem system_pasv : ∃ d, SystemRun {} (fun _ => 0) (KeepsSockets {}) d ∧
    SoleSession d ⟨waitingWorld, [], true⟩ [initCall] ∧ d.slaves.states slaveA = initState ∧
    OneSocket d.slaves ∧ d.slaves.late = [] := by
  have h₁ := liveRun_guest (fun _ _ _ _ => True) fun _ _ _ _ => trivial
  have h₂ := h₁.command "PRET RETR /a".toList (by decide) (by simp) rfl pret_a trivial
  obtain ⟨m, hrun, hsole⟩ := h₂.system (fun _ => 0) (by simp)
  have hcarries : CarriesOut initRemote (passiveReply 0 100) {} _ := .run .willing 0 init_waiting
  have hdelivered : AllDelivered (fun _ => 0) {} [initCall] _ :=
    .cons (.answered rfl hcarries) (.nil _)
  have hkeeps : KeepsSockets {} ⟨m, {}⟩ 0 (.line "PASV".toList) [initCall] := by
    refine ⟨fun hrisk => absurd hrisk (not_atRisk_empty m 0), ?_, ?_⟩
    · intro thread hmem
      exact absurd hmem (by simp [initCall])
    · intro slave p startPort portLen hmem
      exact absurd hmem (by simp [initCall])
  obtain ⟨d, hpasv, hslaves, hsole'⟩ := hsole.command "PASV".toList hrun (by decide) (by simp) rfl
    pasv_waiting hkeeps hdelivered
  have hstate : d.slaves.states slaveA = initState := by
    have hself : Function.update (fun _ => ({} : SlaveState)) slaveA initState slaveA = initState :=
      Function.update_self _ _ _
    rw [hslaves]
    exact hself
  have hlate : d.slaves.late = [] := by
    rw [hslaves]
  refine ⟨d, hpasv, hsole', hstate, ⟨?_, ?_, ?_⟩, hlate⟩
  · intro slave t hopen
    rw [hslaves] at hopen
    obtain ⟨⟨fd, hfd⟩, -⟩ | ⟨-, hslave, ht⟩ := hcarries.isOpen hopen
    · exact absurd hfd (by simp)
    · exact ⟨hslave.symm, ht.symm⟩
  · rw [hstate]
    exact ⟨3, rfl⟩
  · rw [hlate]
    exact fun x hx => absurd hx List.not_mem_nil

/-- **A guest who hangs up** behind `PASV` leaves the socket to nobody. -/
theorem orphan_left : ¬ ∀ d, SystemRun {} (fun _ => 0) (fun _ _ _ _ => True) d → NoOrphans d := by
  intro hall
  obtain ⟨d, hrun, hsole, -, hone, hlate⟩ := system_pasv
  have hany := hrun.mono fun _ _ _ _ _ => trivial
  have hsession : SessionStep {} (d.metaserver.sessions 0) .hangUp []
      ⟨waitingWorld, [], false⟩ := by
    rw [hsole.session]
    exact .hangUp rfl
  have hleft := hany.step (.session hsession trivial (.nil _))
  obtain ⟨hsession, -, hothers⟩ := hsole.set ⟨waitingWorld, [], false⟩ [] d.slaves
  obtain ⟨i, hheld⟩ | ⟨x, hx, -⟩ := hall _ hleft slaveA 1 hone.isOpen
  · by_cases hi : i = 0
    · subst hi
      rw [hsession] at hheld
      obtain ⟨hopened | hbusy, -⟩ := hheld
      · exact absurd hopened (by simp)
      · exact hbusy rfl
    · exact hothers i hi 1 hheld
  · rw [hlate] at hx
    exact absurd hx List.not_mem_nil

/-- The download is under way: the slave has its socket, and every call without an answer is on its
way. -/
structure Downloading (d : Deployment) (s : LiveSession) (sent : List Call) : Prop where
  run : SystemRun {} (fun _ => 0) (KeepsSockets {}) d
  sole : SoleSession d s ([initCall, openCall, ⟨.pthread_create .retrieve, true⟩] ++ sent)
  one : OneSocket d.slaves
  lost : ∀ c ∈ sent, ∀ x, c.remote (fun _ => 0) = some (x, none) → x ∈ d.slaves.late

/-- A thread goes on, and no slave hears of its calls. -/
theorem Downloading.works {sent : List Call} (h : Downloading d s sent)
    (hstep : LiveStep {} s .thread cs s') (hlength : s'.threads.length = s.threads.length)
    (hcs : ∀ c ∈ cs, c = lostCall) : ∃ d', Downloading d' s' (sent ++ cs) := by
  obtain ⟨hrun, hsole, hone, hlost⟩ := h
  have hunheard : ∀ c ∈ cs, c.Unheard fun _ => 0 := by
    intro c hc x r heq
    rw [hcs c hc] at heq
    cases heq
  have hbodies : s.Bodies := by
    rw [← hsole.session]
    exact hrun.accounted.bodies 0
  have hworking : Working (fun _ => 0) s s' cs := hstep.working hbodies hlength
  obtain ⟨n', hdelivered, -, hold, hnew⟩ := allDelivered_lost hunheard d.slaves
  have hstates := hdelivered.unheard hunheard
  have hdelivery := hdelivered.delivery
  have hkeeps : KeepsSockets {} d 0 .works cs := by
    refine ⟨fun _ hgives => hgives, ?_, ?_⟩
    · intro thread hmem
      exact absurd (hcs _ hmem) (by simp [lostCall])
    · intro slave p startPort portLen hmem
      exact absurd (hcs _ hmem) (by simp [lostCall])
  have hsession : SessionStep {} (d.metaserver.sessions 0) .works cs s' := by
    rw [hsole.session]
    exact .works hstep hlength
  have hset := hsole.set s' cs n'
  rw [List.append_assoc] at hset
  refine ⟨_, hrun.step (.session hsession hkeeps hdelivered), hset, ⟨?_, ?_, ?_⟩, ?_⟩
  · rw [hstates]
    exact hone.only
  · rw [hstates]
    exact hone.isOpen
  · intro x hx
    by_contra hno
    obtain hx | ⟨c, hc, hconnects⟩ := hdelivery.late x hx hno
    · exact hno (hone.late x hx)
    · exact hworking.calls c hc _ hconnects
  · intro c hc x hx
    obtain hc | hc := List.mem_append.mp hc
    · exact hold x (hlost c hc x hx)
    · exact hnew c hc x hx

/-- A thread ends, and a transfer in its transaction is on its way. -/
theorem Downloading.ends {sent : List Call} (h : Downloading d s sent)
    (hstep : LiveStep {} s .thread [] s') (hlength : s'.threads.length < s.threads.length)
    (hserves : d.slaves.Serves slaveA 1) : ∃ d', Downloading d' s' sent := by
  obtain ⟨hrun, hsole, hone, hlost⟩ := h
  have hsafe : ¬ d.AtRisk 0 := by
    intro hrisk
    obtain ⟨t, -, ⟨slave, hopen, hno⟩ | ⟨x, hx, -, hno⟩⟩ := hrisk
    · obtain ⟨rfl, rfl⟩ := hone.only slave t hopen
      exact hno hserves
    · exact hno (hone.late x hx)
  have hkeeps : KeepsSockets {} d 0 .ends [] :=
    ⟨fun hrisk => absurd hrisk hsafe, fun thread hmem => absurd hmem List.not_mem_nil,
      fun _ _ _ _ hmem => absurd hmem List.not_mem_nil⟩
  have hsession : SessionStep {} (d.metaserver.sessions 0) .ends [] s' := by
    rw [hsole.session]
    exact .ends hstep hlength
  have hset := hsole.set s' [] d.slaves
  rw [List.append_nil] at hset
  exact ⟨_, hrun.step (.session hsession hkeeps (.nil _)), hset, hone, hlost⟩

theorem open_held : ∃ s', run (serveSlave .willing)
    ((SlaveRpc.openPasvDataConnection { trans_id := 1 }).body 0) initState =
      .done (.line 150 "Connection accepted.") s' ∧ s'.IsOpen 1 := ⟨_, rfl, _, rfl⟩

/-- The slave answers the `Open` of `RETR /a`. -/
theorem system_retr : ∃ d, Downloading d ⟨openedWorld, [retrieveTransfer {}], true⟩ [] := by
  obtain ⟨d, hrun, hsole, hstate, hone, hlate⟩ := system_pasv
  obtain ⟨s', hopen, hsocket⟩ := open_held
  rw [← hstate] at hopen
  have hcarries : CarriesOut openRemote (.line 150 "Connection accepted.") d.slaves _ :=
    .run .willing 0 hopen
  have hdelivered : AllDelivered (fun _ => 0) d.slaves
      [openCall, ⟨.pthread_create .retrieve, true⟩] _ :=
    .cons (.answered rfl hcarries) (.cons (.here rfl) (.nil _))
  have hkeeps : KeepsSockets {} d 0 (.line "RETR /a".toList)
      [openCall, ⟨.pthread_create .retrieve, true⟩] := by
    refine ⟨fun _ hgives => ?_, ?_, ?_⟩
    · have hline : parseLine "RETR /a".toList = (some .retr, some "/a".toList) := by decide
      rw [GivesUp, hline] at hgives
      exact hgives
    · intro thread hmem
      exact absurd hmem (by simp [openCall, TransferView.opening])
    · intro slave p startPort portLen hmem
      exact absurd hmem (by simp [openCall, TransferView.opening])
  obtain ⟨d', hretr, hslaves, hsole'⟩ := hsole.command "RETR /a".toList hrun (by decide) (by simp)
    rfl retr_waiting hkeeps hdelivered
  refine ⟨d', hretr, hsole', ⟨?_, ?_, ?_⟩, fun c hc => absurd hc List.not_mem_nil⟩
  · intro slave t hopen
    rw [hslaves] at hopen
    obtain ⟨hold, -⟩ | ⟨-, hslave, ht⟩ := hcarries.isOpen hopen
    · exact hone.only slave t hold
    · exact ⟨hslave.symm, ht.symm⟩
  · have hself : (Function.update d.slaves.states slaveA s' slaveA).IsOpen 1 := by
      rw [Function.update_self]
      exact hsocket
    rw [hslaves]
    exact hself
  · intro x hx
    rw [hslaves] at hx
    have hold : x ∈ d.slaves.late := hx
    rw [hlate] at hold
    exact absurd hold List.not_mem_nil

/-- Session 0 with one thread at most; while it has one, the download is under way. -/
def OneThread (s : LiveSession) (sent : List Call) : Prop :=
  s.threads.length ≤ 1 ∧ (s.threads.length = 1 → ∃ d, Downloading d s sent)

theorem OneThread.step {sent : List Call} (h : OneThread s sent)
    (hstep : LiveStep {} s .thread cs s') (hcs : ∀ c ∈ cs, c = lostCall) :
    OneThread s' (sent ++ cs) := by
  obtain ⟨hle, hdown⟩ := h
  obtain hsame | hless := hstep.length
  · refine ⟨by omega, fun hone => ?_⟩
    obtain ⟨d, hd⟩ := hdown (by omega)
    exact hd.works hstep hsame hcs
  · exact ⟨by omega, fun hone => by omega⟩

/-- The guest retrieves `/a`; the call of the thread ends in an exception, and the thread ends.  The
slave has its socket for the call that is still on its way. -/
theorem no_orphans_download : ∃ d, SystemRun {} (fun _ => 0) (KeepsSockets {}) d ∧
    d.metaserver.sent 0 = [initCall, openCall, ⟨.pthread_create .retrieve, true⟩, lostCall] ∧
    (d.metaserver.sessions 0).threads = [] ∧ (d.slaves.states slaveA).IsOpen 1 ∧ NoOrphans d := by
  obtain ⟨d, hretr⟩ := system_retr
  obtain ⟨w', w'', hthread, hend⟩ := thread_waiting
  have hbegin : OneThread ⟨openedWorld, [] ++ retrieveTransfer {} :: [], true⟩ [] :=
    ⟨le_refl 1, fun _ => ⟨d, hretr⟩⟩
  have hruns := thread_runs (R := OneThread) OneThread.step hthread (by simp) hbegin
  obtain ⟨d₁, hdown⟩ := hruns.2 rfl
  have hlost : ⟨slaveA, .pasvRetrieveTransfer downloadParams⟩ ∈ d₁.slaves.late :=
    hdown.lost lostCall (by simp) _ rfl
  have hends : LiveStep {} ⟨w', [] ++ .ret () :: [], true⟩ .thread [] ⟨w'', [] ++ [], true⟩ :=
    .ends .passive rfl hend
  obtain ⟨d₂, hlast⟩ := hdown.ends hends (by simp) ⟨_, hlost, rfl, rfl, trivial⟩
  refine ⟨d₂, hlast.run, hlast.sole.sent, ?_, hlast.one.isOpen, no_orphans hlast.run⟩
  rw [hlast.sole.session]
  rfl

end ClusterFtpd
