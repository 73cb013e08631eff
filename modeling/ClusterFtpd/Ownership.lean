import ClusterFtpd.Handover
import ClusterFtpd.Transactions

/-!
# Who owns a session

The control thread and the transfer threads of a session, operation by operation.  What stands
under `ClientListLock` is one step: the end of a transfer thread, and the end of the control
thread.  Either may delete the client entry, and `deleted` counts how often that happens.

`SessionInv` says who owns the entry: the control thread as long as it runs, and after it the
transfer thread that is still alive.  A line keeps it by `line_honours`.
-/

namespace ClusterFtpd

open Interaction MachineInt

/-! ### The threads of a session -/

/-- Where the control thread is: it waits for a line, it is in the turn of a line, it has left the
loop, or it has ended. -/
inductive Control where
  | idle
  | running (p : ShellProg Next)
  | leaving
  | left

/-- A transfer thread that is alive, with the fields it was started with. -/
structure Worker where
  thread : TransferThread
  started : TransferFields
  prog : CommandProg Unit

/-- A session with its threads, the last transfer thread first. -/
structure SharedSession where
  world : World
  control : Control := .idle
  workers : List Worker := []
  bIsCtrlCanalOpen : Bool := true
  deleted : ℕ := 0

/-- The transfer threads after an operation of the control thread. -/
def SharedSession.workersAfter (cfg : Config) (s : SharedSession) : ShellOp → List Worker
  | .command (.sys (.pthread_create thread)) =>
      ⟨thread, s.world.client.transferFields, thread.body cfg⟩ :: s.workers
  | .command (.sys .pthread_cancel) => s.workers.tail
  | _ => s.workers

/-- The session after an operation of the control thread; `p` is the rest of the turn. -/
def SharedSession.afterControl (cfg : Config) (env : Env) (s : SharedSession) (o : ShellOp)
    (p : ShellProg Next) : SharedSession :=
  { s with
    world := (serveShell env o s.world).2
    control := .running p
    workers := s.workersAfter cfg o }

/-- Who makes a step. -/
inductive Move where
  | line (nCmd : Option Cmd) (pszCmdArg : Option Text)
  | hangUp
  | control
  | worker
  | others

/-- The creation of a thread succeeds. -/
def Env.Creates (env : Env) : Prop := ∀ n thread, env n (.pthread_create thread) = true

/-- One step of one thread, or of the other sessions. -/
inductive SharedStep (cfg : Config) : SharedSession → Move → SharedSession → Prop where
  | line {s : SharedSession} (line : Text) : s.control = .idle →
      SharedStep cfg s (.line (parseLine line).1 (parseLine line).2)
        { s with control := .running (dispatch cfg (parseLine line).1 (parseLine line).2) }
  | hangUp {s : SharedSession} : s.control = .idle →
      SharedStep cfg s .hangUp { s with control := .leaving }
  | control {s : SharedSession} {o : ShellOp} {k : o.Res → ShellProg Next} (env : Env) :
      env.Creates → s.control = .running (.call o k) →
      SharedStep cfg s .control (s.afterControl cfg env o (k (serveShell env o s.world).1))
  | controlPoll {s : SharedSession} {o : ShellOp} {again : o.Res → Bool}
      {k : o.Res → ShellProg Next} (env : Env) :
      env.Creates → s.control = .running (.poll o again k) →
      again (serveShell env o s.world).1 = false →
      SharedStep cfg s .control (s.afterControl cfg env o (k (serveShell env o s.world).1))
  | turn {s : SharedSession} {next : Next} : s.control = .running (.ret next) →
      SharedStep cfg s .control
        { s with control := if next = .continue then .idle else .leaving }
  -- the end of the control thread, under `ClientListLock`
  | leaveWaiting {s : SharedSession} : s.control = .leaving → s.world.client.eStatus = .waiting →
      SharedStep cfg s .control { s with control := .left, deleted := s.deleted + 1 }
  | leaveBusy {s : SharedSession} : s.control = .leaving → s.world.client.eStatus ≠ .waiting →
      SharedStep cfg s .control { s with control := .left, bIsCtrlCanalOpen := false }
  | worker {s : SharedSession} {xs ys : List Worker} {thread : TransferThread}
      {started : TransferFields} {o : CommandOp} {k : o.Res → CommandProg Unit} (env : Env) :
      s.workers = xs ++ ⟨thread, started, .call o k⟩ :: ys →
      SharedStep cfg s .worker
        { s with
          world := (serveCommand env o s.world).2
          workers := xs ++ ⟨thread, started, k (serveCommand env o s.world).1⟩ :: ys }
  | workerPoll {s : SharedSession} {xs ys : List Worker} {thread : TransferThread}
      {started : TransferFields} {o : CommandOp} {again : o.Res → Bool}
      {k : o.Res → CommandProg Unit} (env : Env) :
      s.workers = xs ++ ⟨thread, started, .poll o again k⟩ :: ys →
      again (serveCommand env o s.world).1 = false →
      SharedStep cfg s .worker
        { s with
          world := (serveCommand env o s.world).2
          workers := xs ++ ⟨thread, started, k (serveCommand env o s.world).1⟩ :: ys }
  -- the end of a transfer thread, under `ClientListLock`
  | workerEnds {s : SharedSession} {xs ys : List Worker} {thread : TransferThread}
      {started : TransferFields} {w' : World} (env : Env) :
      s.workers = xs ++ ⟨thread, started, .ret ()⟩ :: ys →
      run (serveCommand env) endTransfer s.world = .done () w' →
      SharedStep cfg s .worker
        { s with
          world := w'
          workers := xs ++ ys
          deleted := if s.bIsCtrlCanalOpen then s.deleted else s.deleted + 1 }
  | others {s : SharedSession} (db : Redis) :
      SharedStep cfg s .others { s with world := { s.world with db } }

/-- The runs of a session whose steps all satisfy `ok`. -/
inductive SharedRun (cfg : Config) (ok : SharedSession → Move → Prop) : SharedSession → Prop where
  | connect {w : World} : w.client.toLoginState = {} → w.client.toCommandState = {} →
      SharedRun cfg ok { world := w }
  | step {s s' : SharedSession} {who : Move} : SharedRun cfg ok s → SharedStep cfg s who s' →
      ok s who → SharedRun cfg ok s'

/-! ### The invariant -/

variable {cfg : Config} {env : Env} {fixed : Prop} {s s' : SharedSession} {who : Move}

/-- What the control thread shares with the transfer threads. -/
def SharedSession.shared (s : SharedSession) : Shared :=
  ⟨s.world.client, s.workers.head?.map Worker.thread⟩

/-- What holds where the control thread is. -/
def SharedSession.ControlInv (fixed : Prop) (s : SharedSession) : Prop :=
  match s.control with
  | .idle => Idle s.shared ∧ s.bIsCtrlCanalOpen = true ∧ s.deleted = 0
  | .running p => Honours (sessionContract fixed) (fun _ => Idle) p s.shared ∧
      s.bIsCtrlCanalOpen = true ∧ s.deleted = 0
  | .leaving => Idle s.shared ∧ s.bIsCtrlCanalOpen = true ∧ s.deleted = 0
  | .left => if s.workers = [] then s.deleted = 1 else s.bIsCtrlCanalOpen = false ∧ s.deleted = 0

/-- What holds of the transfer threads beside the client entry `c`. -/
structure WorkersInv (fixed : Prop) (c : Client) (ws : List Worker) : Prop where
  one : ws.length ≤ 1
  bodies : ∀ w ∈ ws, Every (Within bodyParts) w.prog
  users : ∀ w ∈ ws, w.started.user ≠ none
  fields : fixed → ∀ w ∈ ws, c.transferFields.seenBy w.thread = w.started.seenBy w.thread

/-- The invariant of a session. -/
structure SessionInv (fixed : Prop) (s : SharedSession) : Prop where
  workers : WorkersInv fixed s.world.client s.workers
  control : s.ControlInv fixed

/-- Two client entries with the same parts are the same. -/
theorem CommandState.eq_of_same {c d : CommandState} (h : ∀ x : Part, x.Same c d) : d = c := by
  have hrename : _ = _ := h .rename
  have hsettings : _ ∧ _ := h .settings
  have hstatus : _ = _ := h .status
  have hconn : _ = _ := h .connection
  have hsocket : _ ∧ _ ∧ _ := h .socket
  have htransfer : _ = _ := h .transfer
  have hpret : _ ∧ _ := h .pret
  have hslave : _ ∧ _ := h .slave
  cases c
  cases d
  simp_all

/-- A transfer thread does not change the client entry. -/
theorem serveCommand_body {o : CommandOp} (ho : Within bodyParts o) (env : Env) (w : World) :
    (serveCommand env o w).2.client = w.client := by
  cases o with
  | modify f =>
      have hsame : f w.client.toCommandState = w.client.toCommandState := by
        refine CommandState.eq_of_same fun x => ?_
        by_cases hx : x ∈ bodyParts
        · simp only [bodyParts, List.mem_cons, List.not_mem_nil, or_false] at hx
          obtain rfl | rfl | rfl := hx <;> trivial
        · exact ho x hx _
      show { w.client with toCommandState := f w.client.toCommandState } = w.client
      rw [hsame]
  | _ => rfl

/-- The end of a transfer thread resets the data connection. -/
theorem run_endTransfer {w w' : World} (h : run (serveCommand env) endTransfer w = .done () w') :
    w'.client = w.client.reset := by
  rw [endTransfer, resetDataConnection, run_client_bind, run_bind_done] at h
  obtain ⟨u, w₁, hclose, h₁⟩ := h
  have hsame : w₁.client = w.client := by
    cases hsock : w.client.DataSock with
    | none =>
        rw [hsock] at hclose
        rw [← (Outcome.done.inj hclose).2]
    | some fd =>
        rw [hsock] at hclose
        rw [← (Outcome.done.inj hclose).2]
        rfl
  rw [onlyIf, if_neg (by simp)] at h₁
  rw [← (Outcome.done.inj h₁).2, ← hsame]
  rfl

/-! ### The steps of the control thread -/

variable {o : ShellOp} {p : ShellProg Next} {c : Client} {ws : List Worker}

theorem workersInv_nil : WorkersInv fixed c [] where
  one := Nat.zero_le 1
  bodies := fun _ hw => absurd hw List.not_mem_nil
  users := fun _ hw => absurd hw List.not_mem_nil
  fields := fun _ _ hw => absurd hw List.not_mem_nil

/-- A thread that is there is the one that is alive. -/
theorem WorkersInv.alive (h : WorkersInv fixed c ws) {w : Worker} (hw : w ∈ ws) :
    ws = [w] ∧ ws.head?.map Worker.thread = some w.thread := by
  obtain ⟨v, hv⟩ : ∃ v, ws = [v] := by
    rw [← List.length_eq_one_iff]
    have hpos := List.length_pos_of_mem hw
    have hone := h.one
    omega
  rw [hv, List.mem_singleton] at hw
  rw [hv, hw]
  exact ⟨rfl, rfl⟩

/-- The fields of a running transfer may change as far as the pledge allows it. -/
theorem WorkersInv.changed {c' : Client} (h : WorkersInv fixed c ws)
    (hkeeps : KeepsFields fixed ⟨c, ws.head?.map Worker.thread⟩ c') : WorkersInv fixed c' ws where
  one := h.one
  bodies := h.bodies
  users := h.users
  fields := fun hf w hw => (hkeeps hf w.thread (h.alive hw).2).trans (h.fields hf w hw)

/-- What an operation does to the shared part of a session is the effect of its contract. -/
theorem effect_of_control (hone : s.workers.length ≤ 1) (henv : env.Creates) :
    shellEffect o s.shared (serveShell env o s.world).1 (s.afterControl cfg env o p).shared := by
  cases o with
  | login f => rfl
  | command o =>
      cases o with
      | client => exact ⟨rfl, rfl⟩
      | redis o => rfl
      | sendReply r => rfl
      | modify f => rfl
      | sys o =>
          cases o with
          | pthread_create thread => exact ⟨henv s.world.clock thread, rfl⟩
          | pthread_cancel =>
              have htail : s.workers.tail = [] := by
                rw [← List.length_eq_zero_iff, List.length_tail]
                omega
              show Shared.mk s.world.client (s.workers.tail.head?.map Worker.thread) = _
              rw [htail]
              rfl
          | _ => rfl

/-- The transfer threads after an operation within the pledge. -/
theorem WorkersInv.control (h : WorkersInv fixed s.world.client s.workers)
    (hpledge : shellPledge fixed o s.shared) :
    WorkersInv fixed (serveShell env o s.world).2.client (s.workersAfter cfg o) := by
  cases o with
  | login f => exact h.changed hpledge
  | command o =>
      cases o with
      | client => exact h
      | redis o => exact h
      | sendReply r => exact h
      | modify f => exact h.changed hpledge
      | sys o =>
          cases o with
          | pthread_create thread =>
              have hnone : s.workers = [] := by
                have hhead : s.workers.head?.map Worker.thread = none := hpledge.1
                rw [Option.map_eq_none_iff, List.head?_eq_none_iff] at hhead
                exact hhead
              have huser : s.world.client.pUser ≠ none := hpledge.2
              show WorkersInv fixed s.world.client (_ :: s.workers)
              rw [hnone]
              refine ⟨le_refl 1, fun w hw => ?_, fun w hw => ?_, fun _ w hw => ?_⟩
              · rw [List.mem_singleton.mp hw]
                exact body_within cfg thread
              · rw [List.mem_singleton.mp hw]
                exact fun hmap => huser (Option.map_eq_none_iff.mp hmap)
              · rw [List.mem_singleton.mp hw]
          | pthread_cancel =>
              have htail : s.workers.tail = [] := by
                have hone := h.one
                rw [← List.length_eq_zero_iff, List.length_tail]
                omega
              show WorkersInv fixed s.world.client s.workers.tail
              rw [htail]
              exact workersInv_nil
          | _ => exact h

/-- An operation of the control thread keeps the invariant. -/
theorem SessionInv.afterControl (h : SessionInv fixed s) (henv : env.Creates)
    (hdue : s.bIsCtrlCanalOpen = true ∧ s.deleted = 0) (hpledge : shellPledge fixed o s.shared)
    (hrest : ∀ u, shellEffect o s.shared (serveShell env o s.world).1 u →
      Honours (sessionContract fixed) (fun _ => Idle) p u) :
    SessionInv fixed (s.afterControl cfg env o p) where
  workers := h.workers.control hpledge
  control := ⟨hrest _ (effect_of_control h.workers.one henv), hdue⟩

/-! ### The steps of a transfer thread -/

/-- The one transfer thread that is alive. -/
theorem WorkersInv.only {xs ys : List Worker} {w : Worker} (h : WorkersInv fixed c ws)
    (heq : ws = xs ++ w :: ys) : xs = [] ∧ ys = [] ∧ ws = [w] := by
  have hone := h.one
  rw [heq, List.length_append, List.length_cons] at hone
  have hxs : xs = [] := List.length_eq_zero_iff.mp (by omega)
  have hys : ys = [] := List.length_eq_zero_iff.mp (by omega)
  rw [heq, hxs, hys]
  exact ⟨rfl, rfl, rfl⟩

/-- What a transfer thread does leaves the control thread where it is. -/
theorem controlInv_others (h : s.ControlInv fixed) (hcontrol : s'.control = s.control)
    (ho : Shared.Others s.shared s'.shared) (hopened : s'.bIsCtrlCanalOpen = s.bIsCtrlCanalOpen)
    (hdeleted : s.bIsCtrlCanalOpen = true → s'.deleted = s.deleted)
    (hleft : s.control = .left → s'.ControlInv fixed) : s'.ControlInv fixed := by
  have hdue : s.bIsCtrlCanalOpen = true ∧ s.deleted = 0 →
      s'.bIsCtrlCanalOpen = true ∧ s'.deleted = 0 :=
    fun hdue => ⟨hopened.trans hdue.1, (hdeleted hdue.1).trans hdue.2⟩
  cases hwhere : s.control with
  | left => exact hleft hwhere
  | idle =>
      rw [SharedSession.ControlInv, hwhere] at h
      rw [SharedSession.ControlInv, hcontrol, hwhere]
      exact ⟨h.1.others ho, hdue h.2⟩
  | running p =>
      rw [SharedSession.ControlInv, hwhere] at h
      rw [SharedSession.ControlInv, hcontrol, hwhere]
      exact ⟨h.1.others ho, hdue h.2⟩
  | leaving =>
      rw [SharedSession.ControlInv, hwhere] at h
      rw [SharedSession.ControlInv, hcontrol, hwhere]
      exact ⟨h.1.others ho, hdue h.2⟩

/-- An operation of a transfer thread. -/
theorem SessionInv.workerMoves {xs ys : List Worker} {thread : TransferThread}
    {started : TransferFields} {p q : CommandProg Unit} {o : CommandOp} (h : SessionInv fixed s)
    (hworkers : s.workers = xs ++ ⟨thread, started, p⟩ :: ys) (ho : Within bodyParts o)
    (hq : Every (Within bodyParts) q) (env : Env) :
    SessionInv fixed { s with
      world := (serveCommand env o s.world).2
      workers := xs ++ ⟨thread, started, q⟩ :: ys } := by
  obtain ⟨rfl, rfl, honly⟩ := h.workers.only hworkers
  have hclient : (serveCommand env o s.world).2.client = s.world.client :=
    serveCommand_body ho env s.world
  have hmem : (⟨thread, started, p⟩ : Worker) ∈ s.workers := by
    rw [honly]
    exact List.mem_singleton.mpr rfl
  have hshared : SharedSession.shared { s with
      world := (serveCommand env o s.world).2
      workers := [] ++ ⟨thread, started, q⟩ :: [] } = s.shared := by
    rw [SharedSession.shared, SharedSession.shared, hclient, honly]
    rfl
  refine ⟨⟨le_refl 1, fun w hw => ?_, fun w hw => ?_, fun hf w hw => ?_⟩, ?_⟩
  · rw [List.mem_singleton.mp hw]
    exact hq
  · have huser := h.workers.users _ hmem
    rw [List.mem_singleton.mp hw]
    exact huser
  · have hfields := h.workers.fields hf _ hmem
    rw [List.mem_singleton.mp hw, hclient]
    exact hfields
  · refine controlInv_others h.control rfl (hshared ▸ .same _) rfl (fun _ => rfl) fun hleft => ?_
    have hcontrol := h.control
    rw [SharedSession.ControlInv, hleft] at hcontrol
    rw [SharedSession.ControlInv, hleft]
    dsimp only at hcontrol ⊢
    rw [if_neg (List.ne_nil_of_mem hmem)] at hcontrol
    exact hcontrol

/-- The end of a transfer thread. -/
theorem SessionInv.workerEnds {xs ys : List Worker} {w : Worker} {w' : World}
    (h : SessionInv fixed s) (hworkers : s.workers = xs ++ w :: ys)
    (hclient : w'.client = s.world.client.reset) :
    SessionInv fixed { s with
      world := w'
      workers := xs ++ ys
      deleted := if s.bIsCtrlCanalOpen then s.deleted else s.deleted + 1 } := by
  obtain ⟨rfl, rfl, honly⟩ := h.workers.only hworkers
  have hothers : Shared.Others s.shared ⟨w'.client, none⟩ := by
    rw [SharedSession.shared, honly, hclient]
    exact .ends s.world.client w.thread
  refine ⟨workersInv_nil, controlInv_others h.control rfl hothers rfl (fun hopened => ?_)
    fun hleft => ?_⟩
  · dsimp only
    rw [if_pos hopened]
  · have hcontrol := h.control
    rw [SharedSession.ControlInv, hleft] at hcontrol
    rw [SharedSession.ControlInv, hleft]
    dsimp only at hcontrol ⊢
    rw [honly, if_neg (by simp)] at hcontrol
    show (if s.bIsCtrlCanalOpen = true then s.deleted else s.deleted + 1) = 1
    rw [hcontrol.1, hcontrol.2]
    rfl

/-! ### Runs -/

/-- The lines of a run are apart from the transfers that run beside them. -/
def LinesApart (fixed : Prop) (s : SharedSession) (who : Move) : Prop :=
  ∀ nCmd pszCmdArg, who = .line nCmd pszCmdArg → Apart fixed s.world.client nCmd pszCmdArg

/-- **Every step** keeps the invariant. -/
theorem SessionInv.step (h : SessionInv fixed s) (hstep : SharedStep cfg s who s')
    (hapart : LinesApart fixed s who) : SessionInv fixed s' := by
  have hcontrol := h.control
  rw [SharedSession.ControlInv] at hcontrol
  cases hstep with
  | line line hidle =>
      rw [hidle] at hcontrol
      obtain ⟨hclient, hdue⟩ := hcontrol
      exact ⟨h.workers, line_honours cfg _ _ hclient (hapart _ _ rfl), hdue⟩
  | hangUp hidle =>
      rw [hidle] at hcontrol
      exact ⟨h.workers, hcontrol⟩
  | control env henv hat =>
      rw [hat] at hcontrol
      obtain ⟨hpledge, hrest⟩ := hcontrol.1 s.shared (Shared.Others.same _)
      exact h.afterControl henv hcontrol.2 hpledge fun u hu => hrest _ u hu
  | controlPoll env henv hat hagain =>
      rw [hat] at hcontrol
      obtain ⟨hpledge, hrest⟩ := hcontrol.1 s.shared (Shared.Others.same _)
      exact h.afterControl henv hcontrol.2 hpledge fun u hu => hrest _ u hu hagain
  | turn hat =>
      rw [hat] at hcontrol
      have hidle : Idle s.shared := hcontrol.1 s.shared (Shared.Others.same _)
      refine ⟨h.workers, ?_⟩
      rw [SharedSession.ControlInv]
      dsimp only
      split_ifs <;> exact ⟨hidle, hcontrol.2⟩
  | leaveWaiting hat hwait =>
      rw [hat] at hcontrol
      have hnone : s.workers = [] := by
        have hhead := (hcontrol.1.alone hwait).alone
        rw [SharedSession.shared, Option.map_eq_none_iff, List.head?_eq_none_iff] at hhead
        exact hhead
      refine ⟨h.workers, ?_⟩
      rw [SharedSession.ControlInv]
      dsimp only
      rw [if_pos hnone, hcontrol.2.2]
  | leaveBusy hat hbusy =>
      rw [hat] at hcontrol
      have hsome : s.workers ≠ [] := by
        intro hnone
        refine hbusy (hcontrol.1.free ?_)
        rw [SharedSession.shared, hnone]
        rfl
      refine ⟨h.workers, ?_⟩
      rw [SharedSession.ControlInv]
      dsimp only
      rw [if_neg hsome]
      exact ⟨rfl, hcontrol.2.2⟩
  | worker env hworkers =>
      have hbody := h.workers.bodies _ (hworkers ▸ List.mem_append_right _ List.mem_cons_self)
      exact h.workerMoves hworkers hbody.1 (hbody.2 _) env
  | workerPoll env hworkers hagain =>
      have hbody := h.workers.bodies _ (hworkers ▸ List.mem_append_right _ List.mem_cons_self)
      exact h.workerMoves hworkers hbody.1 (hbody.2 _) env
  | workerEnds env hworkers hrun => exact h.workerEnds hworkers (run_endTransfer hrun)
  | others db => exact ⟨h.workers, h.control⟩

theorem SharedRun.sessionInv (h : SharedRun cfg (LinesApart fixed) s) : SessionInv fixed s := by
  induction h with
  | connect hlogin hcommand =>
      refine ⟨workersInv_nil, ⟨fun _ halive => absurd halive (by simp [SharedSession.shared]),
        fun _ => ?_⟩, rfl, rfl⟩
      exact congrArg CommandState.eStatus hcommand
  | step hrun hstep hok ih => exact ih.step hstep hok

/-! ### The two properties -/

/-- **A session object is deleted once and not used afterwards.**  At most one transfer thread is
alive; the object is deleted at most once, and then neither the control thread nor a transfer
thread will touch it again; and when they have all ended it has been deleted. -/
structure SoundlyOwned (s : SharedSession) : Prop where
  alive : s.workers.length ≤ 1
  once : s.deleted ≤ 1
  unused : 0 < s.deleted → s.control = .left ∧ s.workers = []
  finished : s.control = .left → s.workers = [] → s.deleted = 1

/-- A line asks for an upload or a download only while no transfer is going on. -/
def AsksWhenWaiting (s : SharedSession) (who : Move) : Prop :=
  ∀ nCmd pszCmdArg, who = .line nCmd pszCmdArg → s.world.client.asksTransfer nCmd pszCmdArg →
    s.world.client.eStatus = .waiting

theorem SharedRun.imp {ok ok' : SharedSession → Move → Prop} (h : SharedRun cfg ok s)
    (himp : ∀ s who, ok s who → ok' s who) : SharedRun cfg ok' s := by
  induction h with
  | connect hlogin hcommand => exact .connect hlogin hcommand
  | step hrun hstep hok ih => exact ih.step hstep (himp _ _ hok)

/-- **The session object** is deleted once and not used afterwards, in every run whose uploads and
downloads are asked for while no transfer is going on. -/
theorem soundly_owned (h : SharedRun cfg AsksWhenWaiting s) : SoundlyOwned s := by
  have hrun : SharedRun cfg (LinesApart False) s := h.imp fun s who hok nCmd pszCmdArg hwho =>
    ⟨hok nCmd pszCmdArg hwho, False.elim, False.elim⟩
  obtain ⟨hworkers, hcontrol⟩ := hrun.sessionInv
  have hdue : s.bIsCtrlCanalOpen = true ∧ s.deleted = 0 → s.control ≠ .left → SoundlyOwned s :=
    fun hdue hnot => ⟨hworkers.one, by omega, fun hpos => absurd hpos (by omega),
      fun hleft => absurd hleft hnot⟩
  rw [SharedSession.ControlInv] at hcontrol
  cases hwhere : s.control with
  | idle =>
      rw [hwhere] at hcontrol
      exact hdue hcontrol.2 (by simp [hwhere])
  | running p =>
      rw [hwhere] at hcontrol
      exact hdue hcontrol.2 (by simp [hwhere])
  | leaving =>
      rw [hwhere] at hcontrol
      exact hdue hcontrol.2 (by simp [hwhere])
  | left =>
      rw [hwhere] at hcontrol
      dsimp only at hcontrol
      split_ifs at hcontrol with hnone
      · exact ⟨hworkers.one, by omega, fun _ => ⟨hwhere, hnone⟩, fun _ _ => hcontrol⟩
      · exact ⟨hworkers.one, by omega, fun hpos => absurd hpos (by omega),
          fun _ hnil => absurd hnil hnone⟩

/-- **The fields of a running transfer** are those it was started with, and an upload has a
user. -/
structure TransfersFixed (s : SharedSession) : Prop where
  fields : ∀ w ∈ s.workers,
    s.world.client.transferFields.seenBy w.thread = w.started.seenBy w.thread
  user : ∀ w ∈ s.workers, w.thread = .store → s.world.client.pUser ≠ none

/-- **A running transfer is not changed by later commands**, in every run whose lines are apart
from the transfers beside them. -/
theorem transfers_fixed (h : SharedRun cfg (LinesApart True) s) : TransfersFixed s := by
  have hworkers := h.sessionInv.workers
  refine ⟨hworkers.fields trivial, fun w hw hstore hnone => hworkers.users w hw ?_⟩
  have hfields := hworkers.fields trivial w hw
  rw [hstore] at hfields
  have huser : s.world.client.transferFields.user = w.started.user :=
    congrArg TransferFields.user hfields
  rw [← huser, Client.transferFields, hnone]
  rfl

/-! ### Lines without interruption -/

/-- The transfer threads after a noted call. -/
def Call.alive (ts : List TransferThread) (c : Call) : List TransferThread :=
  match c with
  | ⟨.pthread_create t, true⟩ => t :: ts
  | ⟨.pthread_cancel, _⟩ => ts.tail
  | _ => ts

theorem alive_of_op (henv : env.Creates) (o : ShellOp) :
    (s.workersAfter cfg o).map Worker.thread =
      (noteShell o (serveShell env o s.world).1).toList.foldl Call.alive
        (s.workers.map Worker.thread) := by
  cases o with
  | login f => rfl
  | command o =>
      cases o with
      | client => rfl
      | redis o => rfl
      | sendReply r => rfl
      | modify f => rfl
      | sys o =>
          cases o with
          | pthread_create thread =>
              have hcreate : (serveShell env (.command (.sys (.pthread_create thread))) s.world).1
                  = true := henv s.world.clock thread
              rw [hcreate]
              rfl
          | pthread_cancel =>
              show s.workers.tail.map Worker.thread = (s.workers.map Worker.thread).tail
              rw [List.map_tail]
          | _ => rfl

/-- A turn of the control thread that nothing interrupts. -/
theorem SharedRun.running {ok : SharedSession → Move → Prop} (hok : ∀ s, ok s .control)
    (henv : env.Creates) {p : ShellProg Next} {next : Next} {w w' : World} {ws : List Worker}
    {opened : Bool} {deleted : ℕ} (h : SharedRun cfg ok ⟨w, .running p, ws, opened, deleted⟩)
    (hrun : run (serveShell env) p w = .done next w') :
    ∃ ws', SharedRun cfg ok ⟨w', .running (.ret next), ws', opened, deleted⟩ ∧
      ws'.map Worker.thread = (lineCalls env p w).foldl Call.alive (ws.map Worker.thread) := by
  induction p generalizing w ws with
  | ret a =>
      obtain ⟨rfl, rfl⟩ := Outcome.done.inj hrun
      exact ⟨ws, h, rfl⟩
  | stop why => exact absurd hrun (by simp)
  | call o k ih =>
      obtain ⟨ws', hruns, halive⟩ := ih _ (h.step (.control env henv rfl) (hok _)) hrun
      refine ⟨ws', hruns, ?_⟩
      have hcalls : lineCalls env (.call o k) w = (noteShell o (serveShell env o w).1).toList ++
          lineCalls env (k (serveShell env o w).1) (serveShell env o w).2 := rfl
      rw [halive, hcalls, List.foldl_append]
      exact congrArg (fun ts => List.foldl Call.alive ts _)
        (alive_of_op (s := ⟨w, .running (.call o k), ws, opened, deleted⟩) henv o)
  | poll o again k ih =>
      rw [run_poll] at hrun
      split_ifs at hrun with hagain
      have hstep := h.step (.controlPoll env henv rfl (by simpa using hagain)) (hok _)
      obtain ⟨ws', hruns, halive⟩ := ih _ hstep hrun
      refine ⟨ws', hruns, ?_⟩
      have hcalls : lineCalls env (.poll o again k) w =
          (noteShell o (serveShell env o w).1).toList ++
            lineCalls env (k (serveShell env o w).1) (serveShell env o w).2 := by
        rw [lineCalls, trace, if_neg hagain]
        rfl
      rw [halive, hcalls, List.foldl_append]
      exact congrArg (fun ts => List.foldl Call.alive ts _)
        (alive_of_op (s := ⟨w, .running (.poll o again k), ws, opened, deleted⟩) henv o)

/-- A line that nothing interrupts. -/
theorem SharedRun.line {ok : SharedSession → Move → Prop} (hok : ∀ s, ok s .control)
    (henv : env.Creates) {w w' : World} {ws : List Worker} {opened : Bool} {deleted : ℕ}
    {nCmd : Option Cmd} {pszCmdArg : Option Text} {cs : List Call} (line : Text)
    (h : SharedRun cfg ok ⟨w, .idle, ws, opened, deleted⟩)
    (hparse : parseLine line = (nCmd, pszCmdArg))
    (hrun : run (serveShell env) (dispatch cfg nCmd pszCmdArg) w = .done .continue w')
    (hcalls : lineCalls env (dispatch cfg nCmd pszCmdArg) w = cs)
    (hline : ok ⟨w, .idle, ws, opened, deleted⟩ (.line nCmd pszCmdArg)) :
    ∃ ws', SharedRun cfg ok ⟨w', .idle, ws', opened, deleted⟩ ∧
      ws'.map Worker.thread = cs.foldl Call.alive (ws.map Worker.thread) := by
  have hstart : SharedStep cfg ⟨w, .idle, ws, opened, deleted⟩ (.line nCmd pszCmdArg)
      ⟨w, .running (dispatch cfg nCmd pszCmdArg), ws, opened, deleted⟩ := by
    have hline : SharedStep cfg ⟨w, .idle, ws, opened, deleted⟩ _ _ := .line line rfl
    rw [hparse] at hline
    exact hline
  obtain ⟨ws', hruns, halive⟩ := (h.step hstart hline).running hok henv hrun
  have hturn : SharedStep cfg ⟨w', .running (.ret .continue), ws', opened, deleted⟩ .control _ :=
    .turn rfl
  refine ⟨ws', hruns.step hturn (hok _), ?_⟩
  rw [halive, hcalls]

/-- A line whose command is known to run. -/
theorem SharedRun.command {ok : SharedSession → Move → Prop} (hok : ∀ s, ok s .control)
    (henv : env.Creates) {w w' : World} {ws : List Worker} {opened : Bool} {deleted : ℕ}
    {nCmd : Cmd} {pszCmdArg : Option Text} {cs : List Call} (line : Text)
    (h : SharedRun cfg ok ⟨w, .idle, ws, opened, deleted⟩)
    (hparse : parseLine line = (some nCmd, pszCmdArg))
    (hnot : nCmd ∉ [Cmd.quit, .user, .pass, .cwd, .xcwd, .cdup, .xcup])
    (hlogged : w.client.bIsLogged = true)
    (hdoes : Does env (shellCmd cfg nCmd pszCmdArg) w () w' cs)
    (hline : ok ⟨w, .idle, ws, opened, deleted⟩ (.line (some nCmd) pszCmdArg)) :
    ∃ ws', SharedRun cfg ok ⟨w', .idle, ws', opened, deleted⟩ ∧
      ws'.map Worker.thread = cs.foldl Call.alive (ws.map Worker.thread) := by
  obtain ⟨hends, hcalls⟩ := line_of_does hnot hlogged hdoes
  exact h.line hok henv line hparse hends hcalls hline

theorem willing_creates : Env.willing.Creates := fun _ _ => rfl

/-- The guest logs in. -/
theorem sharedRun_guest {ok : SharedSession → Move → Prop} (hok : ∀ s, ok s .control)
    (huser : ∀ s, s.world.client = {} → ok s (.line (some .user) (some "guest".toList))) :
    SharedRun {} ok ⟨guestWorld twoFiles, .idle, [], true, 0⟩ := by
  have hconnect : SharedRun {} ok ⟨⟨twoFiles, {}, [], 0⟩, .idle, [], true, 0⟩ := .connect rfl rfl
  obtain ⟨ws, hrun, halive⟩ := hconnect.line hok willing_creates "USER guest".toList (by decide)
    run_user_guest (line_not_logged rfl run_user_guest).2 (huser _ rfl)
  rw [List.map_eq_nil_iff.mp halive] at hrun
  exact hrun

/-! ### Two transfers at once, and a login during an upload -/

/-- The session of the guest after a `RETR /a`. -/
def retrieveWorld (w : World) : World :=
  { w with
    client := { w.client with
      eStatus := .downloading
      CurrentTransfer := { szPath := "/a".toList, TransferThreadID := true } }
    clock := w.clock + 1 }

/-- The session of the guest after a `STOR /a`. -/
def storeWorld (w : World) : World :=
  { w with
    client := { w.client with
      eStatus := .uploading
      CurrentTransfer := { szPath := "/a".toList, TransferThreadID := true } }
    clock := w.clock + 1 }

theorem retr_once : Does .willing (shellCmd {} .retr (some "/a".toList)) (guestWorld twoFiles) ()
    (retrieveWorld (guestWorld twoFiles)) [⟨.pthread_create .retrieve, true⟩] := by
  constructor
  · show run _ (statPath (Client.buildPath _ (some "/a".toList)) >>= _) _ = _
    rw [guest_a rfl]
    rfl
  · show trace _ _ (statPath (Client.buildPath _ (some "/a".toList)) >>= _) _ = _
    rw [guest_a rfl]
    rfl

theorem retr_again : Does .willing (shellCmd {} .retr (some "/a".toList))
    (retrieveWorld (guestWorld twoFiles)) () (retrieveWorld (retrieveWorld (guestWorld twoFiles)))
    [⟨.pthread_create .retrieve, true⟩] := by
  constructor
  · show run _ (statPath (Client.buildPath _ (some "/a".toList)) >>= _) _ = _
    rw [guest_a rfl]
    rfl
  · show trace _ _ (statPath (Client.buildPath _ (some "/a".toList)) >>= _) _ = _
    rw [guest_a rfl]
    rfl

theorem stor_once : Does .willing (shellCmd {} .stor (some "/a".toList)) (guestWorld twoFiles) ()
    (storeWorld (guestWorld twoFiles)) [⟨.pthread_create .store, true⟩] :=
  does_upload UploadCmd.noConfusion rfl (guest_a rfl) ⟨rfl, rfl⟩

/-- The guest retrieves `/a` and nothing else. -/
theorem soundly_owned_once : ∃ ws, SoundlyOwned
    ⟨retrieveWorld (guestWorld twoFiles), .idle, ws, true, 0⟩ := by
  have hlogin : SharedRun {} AsksWhenWaiting ⟨guestWorld twoFiles, .idle, [], true, 0⟩ := by
    refine sharedRun_guest (fun s nCmd arg hwho => absurd hwho (by simp)) fun s hs nCmd arg hwho _ => ?_
    rw [hs]
  obtain ⟨ws, hrun, -⟩ := hlogin.command (fun s nCmd arg hwho => absurd hwho (by simp))
    willing_creates "RETR /a".toList (by decide) (by simp) rfl retr_once fun _ _ _ _ => rfl
  exact ⟨ws, soundly_owned hrun⟩

/-- **Two `RETR`** in a row: the second does not look at the status, and two transfer threads are
alive. -/
theorem two_transfers : ¬ ∀ cfg s, SharedRun cfg (fun _ _ => True) s → SoundlyOwned s := by
  intro hall
  have hlogin : SharedRun {} (fun _ _ => True) ⟨guestWorld twoFiles, .idle, [], true, 0⟩ :=
    sharedRun_guest (fun _ => trivial) fun _ _ => trivial
  obtain ⟨ws₁, hfirst, halive₁⟩ := hlogin.command (fun _ => trivial) willing_creates
    "RETR /a".toList (by decide) (by simp) rfl retr_once trivial
  obtain ⟨ws₂, hsecond, halive₂⟩ := hfirst.command (fun _ => trivial) willing_creates
    "RETR /a".toList (by decide) (by simp) rfl retr_again trivial
  have hlength : ws₂.length = 2 := by
    rw [← List.length_map (f := Worker.thread), halive₂, halive₁]
    rfl
  have hone : ws₂.length ≤ 1 := (hall _ _ hsecond).alive
  omega

/-- The guest stores `/a` and nothing else. -/
theorem transfers_fixed_once : ∃ ws, TransfersFixed
    ⟨storeWorld (guestWorld twoFiles), .idle, ws, true, 0⟩ := by
  have hlogin : SharedRun {} (LinesApart True) ⟨guestWorld twoFiles, .idle, [], true, 0⟩ := by
    refine sharedRun_guest (fun s nCmd arg hwho => absurd hwho (by simp)) fun s hs nCmd arg hwho => ?_
    rw [hs]
    exact ⟨fun _ => rfl, fun _ _ => .inl rfl, fun _ _ => by simp⟩
  obtain ⟨ws, hrun, -⟩ := hlogin.command (fun s nCmd arg hwho => absurd hwho (by simp))
    willing_creates "STOR /a".toList (by decide) (by simp) rfl stor_once
    fun _ _ _ => ⟨fun _ => rfl, fun _ _ => .inl rfl, fun _ _ => by simp [guestWorld]⟩
  exact ⟨ws, transfers_fixed hrun⟩

/-- **`USER` during an upload** takes the user away that the upload reads. -/
theorem user_during_store : ¬ ∀ cfg s, SharedRun cfg (fun _ _ => True) s → TransfersFixed s := by
  intro hall
  have hlogin : SharedRun {} (fun _ _ => True) ⟨guestWorld twoFiles, .idle, [], true, 0⟩ :=
    sharedRun_guest (fun _ => trivial) fun _ _ => trivial
  obtain ⟨ws₁, hstore, halive₁⟩ := hlogin.command (fun _ => trivial) willing_creates
    "STOR /a".toList (by decide) (by simp) rfl stor_once trivial
  obtain ⟨ws₂, huser, halive₂⟩ := hstore.line (fun _ => trivial) willing_creates "USER".toList
    (by decide : _ = (some Cmd.user, none)) rfl rfl trivial
  have hthreads : ws₂.map Worker.thread = [.store] := by
    rw [halive₂, halive₁]
    rfl
  obtain ⟨w, hw, hthread⟩ : ∃ w ∈ ws₂, w.thread = .store := by
    rw [← List.mem_map, hthreads]
    exact List.mem_singleton.mpr rfl
  exact (hall _ _ huser).user w hw hthread rfl

end ClusterFtpd
