import ClusterFtpd.Cluster
import ClusterFtpd.Lib.Values
import ClusterFtpd.SlaveEntries

/-!
# The passive connection a session holds

A session holds its transaction as long as its client entry is there, with a passive connection
pending.  `GivesUp` lists what makes it do without: it ends, it is told to use another data
connection, or its transfer thread ends.

Main results:

* `SessionStep.holds`: every other step keeps the transaction;
* `SessionStep.connects`: an `Init` or an `Open` is of the transaction that the session then holds.
-/

namespace ClusterFtpd

open Interaction MachineInt

variable {inet_addr : Text → ℕ} {c : Call} {t : ℤ} {cfg : Config} {s s' : LiveSession}
  {cs : List Call}

/-! ### What a session holds -/

/-- The client entry is there: the control connection is open, or a transfer is going on. -/
def LiveSession.IsLive (s : LiveSession) : Prop :=
  s.opened = true ∨ s.world.client.eStatus ≠ .waiting

/-- The session has this transaction, with a passive connection pending. -/
def LiveSession.Holds (s : LiveSession) (t : ℤ) : Prop :=
  s.IsLive ∧ s.world.view.llPRET_trans_id = t ∧ s.world.view.eDataConnection = .pasv

/-- What happens in a session: a line comes, the client hangs up, a transfer thread works or ends,
or other sessions change the database. -/
inductive SessionEvent where
  | line (line : Text)
  | hangUp
  | works
  | ends
  | others

/-- The steps of a session, by what happens. -/
inductive SessionStep (cfg : Config) (s : LiveSession) :
    SessionEvent → List Call → LiveSession → Prop where
  | line {w' : World} {next : Next} (env : Env) (line : Text) : s.opened = true →
      run (serveShell env) (dispatch cfg (parseLine line).1 (parseLine line).2) s.world =
        .done next w' →
      SessionStep cfg s (.line line)
        (lineCalls env (dispatch cfg (parseLine line).1 (parseLine line).2) s.world)
        ⟨w', threadsAfter cfg s.threads
          (lineCalls env (dispatch cfg (parseLine line).1 (parseLine line).2) s.world),
          next = .continue⟩
  | hangUp : s.opened = true → SessionStep cfg s .hangUp [] { s with opened := false }
  | works {cs : List Call} {s' : LiveSession} : LiveStep cfg s .thread cs s' →
      s'.threads.length = s.threads.length → SessionStep cfg s .works cs s'
  | ends {cs : List Call} {s' : LiveSession} : LiveStep cfg s .thread cs s' →
      s'.threads.length < s.threads.length → SessionStep cfg s .ends cs s'
  | others {cs : List Call} {s' : LiveSession} : LiveStep cfg s .others cs s' →
      SessionStep cfg s .others cs s'

/-- The path of a listing is there. -/
def World.Finds (w : World) (pszCmdArg : Option Text) : Prop :=
  ∃ path st, w.client.buildPath (pszCmdArg.map fun arg => (scanOptions .dash {} arg).2) =
    some path ∧ ask (stat path) w.db = some (some st)

/-- The line ends the session, or takes its data connection away, or asks for another one. -/
def DropsConnection (cfg : Config) (w : World) (pszCmdArg : Option Text) : Option Cmd → Prop
  -- during a transfer the client entry stays until its end
  | some .quit => w.client.eStatus = .waiting
  -- one wrong password too many
  | some .pass => w.client.eStatus = .waiting ∧ w.client.passes pszCmdArg = false ∧
      cfg.uiMaxPasswordTries ≠ 0 ∧ cfg.uiMaxPasswordTries ≤ u32 (w.client.nPasswordTries + 1)
  | some .abor => w.client.bIsLogged = true ∧ w.client.eStatus ≠ .waiting
  | some .port => w.client.bIsLogged = true ∧ w.client.eStatus = .waiting ∧
      (pszCmdArg.bind scanPort).isSome = true
  | some .pasv => w.client.bIsLogged = true ∧ w.client.eStatus = .waiting
  -- a listing goes over a data connection of the metaserver
  | some .list => w.client.eStatus = .waiting ∧ w.client.checkPrivileges LIST = true ∧
      w.Finds pszCmdArg
  | some .nlst => w.client.eStatus = .waiting ∧ w.client.checkPrivileges LIST = true ∧
      w.Finds pszCmdArg
  | _ => False

/-- The session does not hold its transaction any longer, or will not when the transfer ends. -/
def GivesUp (cfg : Config) (s : LiveSession) : SessionEvent → Prop
  | .line line => DropsConnection cfg s.world (parseLine line).2 (parseLine line).1
  | .hangUp => s.world.client.eStatus = .waiting
  | .works => False
  | .ends => True
  | .others => False

/-- The call is no transfer, and of the transaction `t`. -/
def Call.Connects (inet_addr : Text → ℕ) (c : Call) (t : ℤ) : Prop :=
  ∃ x reply, c.remote inet_addr = some (x, reply) ∧ ¬ x.rpc.IsTransfer ∧ x.trans_id = t

/-! ### Lines -/

section Line

variable {env : Env} {w w' : World} {nCmd : Option Cmd} {pszCmdArg : Option Text} {next : Next}
  {u : Unit}

/-- Only `QUIT` and `PASS` can end the loop. -/
theorem gives_continue (hquit : nCmd ≠ some .quit) (hpass : nCmd ≠ some .pass) :
    Gives (fun next => next = .continue) (dispatch cfg nCmd pszCmdArg) := by
  cases nCmd with
  | none => exact Gives.after fun _ => rfl
  | some nCmd =>
      have hcontinue : Gives (fun next => next = .continue) (.ret .continue : ShellProg Next) := rfl
      by_cases huser : nCmd = .user
      · rw [huser]
        exact Gives.after fun _ => hcontinue
      · rw [dispatch_gate (by simpa using hquit) huser (by simpa using hpass)]
        refine Gives.after fun c => gives_if ?_ ?_
        · exact Gives.after fun _ => hcontinue
        · exact Gives.after fun _ => hcontinue

/-- A line that ends the loop leaves the data connection alone. -/
theorem line_ends (hnext : next ≠ .continue)
    (hrun : run (serveShell env) (dispatch cfg nCmd pszCmdArg) w = .done next w') :
    w'.view = w.view ∧ lineCalls env (dispatch cfg nCmd pszCmdArg) w = [] ∧
      (w.client.eStatus = .waiting → DropsConnection cfg w pszCmdArg nCmd) := by
  by_cases hquit : nCmd = some .quit
  · subst hquit
    obtain ⟨hview, hcalls⟩ := line_quiet (dispatch_within cfg (some .quit) pszCmdArg)
      (by simp [partsOf, Cmd.parts]) hrun
    exact ⟨hview, hcalls, fun hwait => hwait⟩
  · by_cases hpass : nCmd = some .pass
    · subst hpass
      obtain ⟨hview, hcalls⟩ := line_quiet (dispatch_within cfg (some .pass) pszCmdArg)
        (by simp [partsOf, Cmd.parts]) hrun
      refine ⟨hview, hcalls, fun hwait => ?_⟩
      generalize hend : next = e at hnext hrun
      have hturn := turn_of_run hrun
      cases hturn with
      | idle _ hno _ _ => exact absurd rfl hno
      | cwd hcmd => simp at hcmd
      | cdup hcmd => simp at hcmd
      | passIn _ _ => exact absurd rfl hnext
      | passOut hpasses _ =>
          split_ifs at hnext with hmax
          · exact ⟨hwait, hpasses, hmax⟩
          · exact absurd rfl hnext
    · exact absurd ((gives_continue hquit hpass).run hrun) hnext

/-- A `PORT` that comes during a transfer, or that does not name an address. -/
theorem port_refused
    (hdrop : ¬ (w.client.eStatus = .waiting ∧ (pszCmdArg.bind scanPort).isSome = true))
    (h : Does env (cmdPort cfg pszCmdArg) w u w' cs) : w'.view = w.view := by
  have h₁ := h.of_client
  have hnone : (if w.client.eStatus = .waiting then pszCmdArg.bind scanPort else none) = none := by
    by_cases hwait : w.client.eStatus = .waiting
    · rw [if_pos hwait]
      rw [not_and, Bool.not_eq_true, Option.isSome_eq_false_iff, Option.isNone_iff_eq_none] at hdrop
      exact hdrop hwait
    · rw [if_neg hwait]
  rw [hnone] at h₁
  obtain ⟨rfl, rfl⟩ := h₁.of_reply
  rfl

theorem abor_idle (hwait : w.client.eStatus = .waiting) (h : Does env cmdAbor w u w' cs) :
    w'.view = w.view := by
  obtain ⟨u₁, w₁, cs₁, cs₂, habort, h₁, rfl⟩ := h.of_client.of_bind
  obtain ⟨rfl, rfl⟩ := h₁.of_reply
  rw [onlyIf, if_neg (by simp [hwait])] at habort
  obtain ⟨-, rfl, rfl⟩ := habort.of_ret
  rfl

/-- A path that a listing is made of is there. -/
theorem finds_of_statPath {w₁ : World} {a : Text × Stat} (hdb : w₁.db = w.db)
    (h : Does env (statPath (w.client.buildPath
      (pszCmdArg.map fun arg => (scanOptions .dash {} arg).2))) w₁ (some a) w' cs) :
    w.Finds pszCmdArg := by
  cases hpath : w.client.buildPath (pszCmdArg.map fun arg => (scanOptions .dash {} arg).2) with
  | none =>
      rw [hpath] at h
      obtain ⟨hno, -, -⟩ := h.of_ret
      cases hno
  | some path =>
      rw [hpath] at h
      obtain ⟨st, w₂, cs₁, cs₂, hstat, hret, -⟩ := Does.of_bind h
      obtain ⟨hask, -, -⟩ := hstat.of_stat
      obtain ⟨hsome, -, -⟩ := hret.of_ret
      cases st with
      | none => cases hsome
      | some st =>
          rw [hdb] at hask
          exact ⟨path, st, hpath, hask⟩

/-- The passive connection of the session is as it was. -/
def KeepsPassive (w w' : World) : Prop :=
  w'.view.llPRET_trans_id = w.view.llPRET_trans_id ∧
    w'.view.eDataConnection = w.view.eDataConnection

theorem keepsPassive_of_view (h : w'.view = w.view) : KeepsPassive w w' := by
  rw [KeepsPassive, h]
  exact ⟨rfl, rfl⟩

/-- `LIST` and `NLST` of a path that is not there, and `STAT`. -/
theorem list_keeps {cmd : Cmd} (hfinds : cmd = .stat ∨ w.client.eStatus ≠ .waiting ∨
      ¬ w.Finds pszCmdArg)
    (hcreate : ⟨.pthread_create .list, false⟩ ∉ cs)
    (h : Does env (cmdList cfg cmd pszCmdArg) w u w' cs) : KeepsPassive w w' := by
  have h₁ := h.of_client
  by_cases hwait : w.client.eStatus = .waiting
  · rw [if_neg (by simp [hwait])] at h₁
    obtain ⟨found, w₁, cs₁, cs₂, hstat, h₂, rfl⟩ := h₁.of_modify.of_bind
    have hq : ∀ pszPath, Every (Within []) (statPath pszPath) :=
      fun pszPath => within_statPath pszPath
    have hsame := view_of_same (hq _) hstat (by simp)
    have hview₁ : w₁.view = w.view := hsame
    cases found with
    | none =>
        obtain ⟨rfl, rfl⟩ := h₂.of_reply
        exact keepsPassive_of_view hview₁
    | some a =>
        have hfound : w.Finds pszCmdArg := by
          refine finds_of_statPath ?_ hstat
          rfl
        have hstatus : cmd = .stat := by
          obtain hstatus | hbusy | hno := hfinds
          · exact hstatus
          · exact absurd hwait hbusy
          · exact absurd hfound hno
        subst hstatus
        obtain ⟨opened, w₂, cs₃, cs₄, hopen, h₃, rfl⟩ := h₂.of_modify.of_bind
        obtain ⟨rfl, rfl, rfl⟩ := hopen.of_sendReply.of_modify.of_ret
        have h₄ : Does env _ _ u w' cs₄ := h₃
        obtain ⟨ok, w₃, cs₅, cs₆, hstart, hret, rfl⟩ := h₄.of_modify.of_bind
        obtain ⟨-, rfl, rfl⟩ := hret.of_ret
        obtain ⟨-, rfl, -, hclient⟩ | ⟨-, -, cs', -, rfl⟩ := startTransfer_does hstart
        · rw [KeepsPassive, ← hview₁]
          simp only [World.view, hclient]
          exact ⟨rfl, rfl⟩
        · simp at hcreate
  · rw [if_pos hwait] at h₁
    obtain ⟨rfl, rfl⟩ := h₁.of_reply
    exact keepsPassive_of_view rfl

theorem listing_keeps {cmd : Cmd}
    (hfinds : cmd = .stat ∨ ¬ (w.client.eStatus = .waiting ∧
      w.client.checkPrivileges LIST = true ∧ w.Finds pszCmdArg))
    (hcreate : ⟨.pthread_create .list, false⟩ ∉ cs)
    (h : Does env (withPrivilege LIST (cmdList cfg cmd pszCmdArg)) w u w' cs) :
    KeepsPassive w w' := by
  have h₁ := h.of_client
  by_cases hpriv : w.client.checkPrivileges LIST = true
  · rw [if_pos hpriv] at h₁
    refine list_keeps (hfinds.imp_right fun hno => ?_) hcreate h₁
    rw [← not_and_or]
    exact fun hboth => hno ⟨hboth.1, hpriv, hboth.2⟩
  · rw [if_neg hpriv] at h₁
    obtain ⟨rfl, rfl⟩ := h₁.of_reply
    exact keepsPassive_of_view rfl

theorem transfer_keeps {thread : TransferThread} {status : Status}
    (hcreate : ⟨.pthread_create thread, false⟩ ∉ cs) (h : TransferTurn w w' thread status cs) :
    KeepsPassive w w' := by
  cases h with
  | refused hview => exact keepsPassive_of_view hview
  | unopened hview _ => exact keepsPassive_of_view hview
  | started _ hview _ =>
      rw [KeepsPassive, hview]
      exact ⟨rfl, rfl⟩
  | failed _ _ _ => simp at hcreate

/-- **Another line** keeps the passive connection, unless a thread cannot be created. -/
theorem line_keeps (hdrop : ¬ DropsConnection cfg w pszCmdArg nCmd)
    (hrun : run (serveShell env) (dispatch cfg nCmd pszCmdArg) w = .done next w')
    (hcreate : ∀ thread, ⟨.pthread_create thread, false⟩ ∉
      lineCalls env (dispatch cfg nCmd pszCmdArg) w) : KeepsPassive w w' := by
  cases hlogged : w.client.bIsLogged with
  | false => exact keepsPassive_of_view (line_not_logged hlogged hrun).1
  | true =>
      have hturn := dataTurn_of_run hrun
      have hdoes : ∀ {cmd : Cmd}, nCmd = some cmd →
          cmd ∉ [Cmd.quit, .user, .pass, .cwd, .xcwd, .cdup, .xcup] →
          Does env (shellCmd cfg cmd pszCmdArg) w () w'
            (lineCalls env (dispatch cfg nCmd pszCmdArg) w) := by
        intro cmd hcmd hnot
        subst hcmd
        exact does_of_dispatch hnot hlogged hrun
      generalize lineCalls env (dispatch cfg nCmd pszCmdArg) w = cs at hturn hdoes hcreate
      cases hturn with
      | quiet hview => exact keepsPassive_of_view hview
      | pret hview =>
          rw [KeepsPassive, hview]
          exact ⟨rfl, rfl⟩
      | port hwait _ =>
          have hnot : ¬ (w.client.eStatus = .waiting ∧ (pszCmdArg.bind scanPort).isSome = true) :=
            fun hport => hdrop ⟨hlogged, hport⟩
          exact keepsPassive_of_view (port_refused hnot (hdoes rfl (by simp)))
      | abor _ =>
          by_cases hwait : w.client.eStatus = .waiting
          · exact keepsPassive_of_view (abor_idle hwait (hdoes rfl (by simp)))
          · exact absurd ⟨hlogged, hwait⟩ hdrop
      | pasv hwait _ _ => exact absurd ⟨hlogged, hwait⟩ hdrop
      | init cmd hwait _ _ => exact absurd ⟨hlogged, hwait⟩ hdrop
      | list hcmd _ =>
          obtain rfl | rfl | rfl := hcmd
          · exact listing_keeps (.inr hdrop) (hcreate .list) (hdoes rfl (by simp))
          · exact listing_keeps (.inr hdrop) (hcreate .list) (hdoes rfl (by simp))
          · have h : Does env (if pszCmdArg = none then
                sendReply (.line 211 ":: CFtpServer / Browser FTP Server:: thebrowser@gmail.com")
              else withPrivilege LIST (cmdList cfg .stat pszCmdArg)) w () w' cs :=
              hdoes rfl (by simp)
            by_cases harg : pszCmdArg = none
            · rw [if_pos harg] at h
              obtain ⟨rfl, rfl⟩ := h.of_reply
              exact keepsPassive_of_view rfl
            · rw [if_neg harg] at h
              exact listing_keeps (.inl rfl) (hcreate .list) h
      | retrieve htransfer => exact transfer_keeps (hcreate .retrieve) htransfer
      | store _ htransfer => exact transfer_keeps (hcreate .store) htransfer

/-- A call that is none to a slave. -/
theorem not_connects (h : c.remote inet_addr = none) : ¬ c.Connects inet_addr t := by
  intro hconnects
  obtain ⟨x, reply, hc, -⟩ := hconnects
  rw [h] at hc
  cases hc

theorem onlyCancels_not_connects (h : OnlyCancels cs) (hc : c ∈ cs) : ¬ c.Connects inet_addr t := by
  have hop := h c hc
  obtain ⟨op, res⟩ := c
  have hcancel : op = .pthread_cancel := hop
  subst hcancel
  exact not_connects rfl

theorem connects_opening {v : TransferView} {answer : RpcResult Reply}
    (h : (v.opening answer).Connects inet_addr t) : v.llPRET_trans_id = t := by
  obtain ⟨x, reply, hc, -, ht⟩ := h
  have hremote : (v.opening answer).remote inet_addr =
      some (⟨v.SlaveInfo, .openPasvDataConnection { trans_id := v.llPRET_trans_id }⟩,
        RpcResult.toOption answer) := rfl
  rw [hremote, Option.some.injEq, Prod.mk.injEq] at hc
  rw [← ht, ← hc.1]
  rfl

/-- The calls in front of a transfer are made in passive mode. -/
theorem connects_opens {v : TransferView} (h : v.Opens cs) (hc : c ∈ cs)
    (hconnects : c.Connects inet_addr t) :
    v.llPRET_trans_id = t ∧ v.eDataConnection = .pasv ∧ ∃ r, c = v.opening (.reply r) := by
  unfold TransferView.Opens at h
  split_ifs at h with hpasv
  · obtain ⟨r, rfl⟩ := h
    rw [List.mem_singleton] at hc
    subst hc
    exact ⟨connects_opening hconnects, hpasv, r, rfl⟩
  · rw [h] at hc
    exact absurd hc List.not_mem_nil

theorem transfer_connects {thread : TransferThread} {status : Status}
    (hcreated : ⟨.pthread_create thread, false⟩ ∈ cs →
      ∀ slave p answer, ⟨.openPasvDataConnection slave p, answer⟩ ∉ cs)
    (h : TransferTurn w w' thread status cs) (hc : c ∈ cs) (hconnects : c.Connects inet_addr t) :
    w'.view.llPRET_trans_id = t ∧ w'.view.eDataConnection = .pasv := by
  cases h with
  | refused hview => exact absurd hc List.not_mem_nil
  | unopened hview hpasv =>
      rw [List.mem_singleton] at hc
      subst hc
      rw [hview]
      exact ⟨connects_opening hconnects, hpasv⟩
  | started hopens hview _ =>
      rw [List.mem_append, List.mem_singleton] at hc
      obtain hc | rfl := hc
      · obtain ⟨ht, hpasv, -⟩ := connects_opens hopens hc hconnects
        rw [hview]
        exact ⟨ht, hpasv⟩
      · exact absurd hconnects (not_connects rfl)
  | @failed cs₁ cs₂ hopens honly hview =>
      rw [List.mem_append, List.mem_cons] at hc
      obtain hc | rfl | hc := hc
      · obtain ⟨-, -, r, hopening⟩ := connects_opens hopens hc hconnects
        have hmem := List.mem_append_left (⟨.pthread_create thread, false⟩ :: cs₂) hc
        rw [hopening] at hmem
        exact absurd hmem (hcreated (by simp) _ _ _)
      · exact absurd hconnects (not_connects rfl)
      · exact absurd hconnects (onlyCancels_not_connects honly hc)

/-- **The calls of a line**: behind an `Init` or an `Open` the session has the transaction, in
passive mode. -/
theorem line_connects
    (hrun : run (serveShell env) (dispatch cfg nCmd pszCmdArg) w = .done next w')
    (hcreated : ∀ thread, ⟨.pthread_create thread, false⟩ ∈
        lineCalls env (dispatch cfg nCmd pszCmdArg) w →
      ∀ slave p answer, ⟨.openPasvDataConnection slave p, answer⟩ ∉
        lineCalls env (dispatch cfg nCmd pszCmdArg) w)
    (hanswered : ∀ slave p startPort portLen, ⟨.initPasvDataConnection slave p startPort portLen,
        .exception⟩ ∈ lineCalls env (dispatch cfg nCmd pszCmdArg) w →
      w.client.eDataConnection = .pasv)
    (hc : c ∈ lineCalls env (dispatch cfg nCmd pszCmdArg) w)
    (hconnects : c.Connects inet_addr t) :
    w'.view.llPRET_trans_id = t ∧ w'.view.eDataConnection = .pasv := by
  have hturn := dataTurn_of_run hrun
  generalize lineCalls env (dispatch cfg nCmd pszCmdArg) w = cs at hturn hcreated hanswered hc
  have hreset : ∀ {kind : DataConnection} {cs : List Call}, ResetTurn w w' kind cs → c ∉ cs := by
    intro kind cs hreset hc
    cases hreset with
    | refused _ => exact absurd hc List.not_mem_nil
    | reset conn _ honly _ => exact onlyCancels_not_connects honly hc hconnects
  cases hturn with
  | quiet _ => exact absurd hc List.not_mem_nil
  | pret _ => exact absurd hc List.not_mem_nil
  | port _ hport => exact absurd hc (hreset hport)
  | abor habor => exact absurd hc (hreset habor)
  | pasv _ _ hpasv => exact absurd hc (hreset hpasv)
  | init cmd _ _ hinit =>
      cases hinit with
      | init slave answer _ _ hview _ =>
          rw [List.mem_singleton] at hc
          subst hc
          obtain ⟨x, reply, hremote, -, ht⟩ := hconnects
          rw [Call.remote, Option.some.injEq, Prod.mk.injEq] at hremote
          rw [hview, ← ht, ← hremote.1]
          refine ⟨rfl, ?_⟩
          by_cases hlost : answer = .exception
          · subst hlost
            dsimp only
            rw [if_pos rfl]
            exact hanswered _ _ _ _ List.mem_cons_self
          · exact if_neg hlost
  | list _ hlist =>
      cases hlist with
      | refused _ => exact absurd hc List.not_mem_nil
      | unopened _ honly _ => exact absurd hconnects (onlyCancels_not_connects honly hc)
      | started _ _ _ =>
          rw [List.mem_singleton] at hc
          subst hc
          exact absurd hconnects (not_connects rfl)
      | failed _ honly _ =>
          obtain rfl | hc := List.mem_cons.mp hc
          · exact absurd hconnects (not_connects rfl)
          · exact absurd hconnects (onlyCancels_not_connects honly hc)
  | retrieve htransfer => exact transfer_connects (hcreated _) htransfer hc hconnects
  | store _ htransfer => exact transfer_connects (hcreated _) htransfer hc hconnects

end Line

/-! ### Threads -/

section Thread

variable {env : Env} {w : World} {o : CommandOp}

/-- An operation of a thread leaves the view alone. -/
theorem body_view (ho : Within bodyParts o) (env : Env) (w : World) :
    (serveCommand env o w).2.view = w.view := by
  have hstatus : _ = _ := serveCommand_same ho (x := .status) (by decide) env w
  have hconn : _ = _ := serveCommand_same ho (x := .connection) (by decide) env w
  have hpret : _ ∧ _ := serveCommand_same ho (x := .pret) (by decide) env w
  have hslave : _ ∧ _ := serveCommand_same ho (x := .slave) (by decide) env w
  simp only [World.view, CommandState.view, TransferView.mk.injEq]
  exact ⟨hstatus, hconn, hpret.1, hpret.2, hslave.1, hslave.2⟩

/-- It calls a slave for a transfer, or not at all. -/
theorem body_not_connects (ho : Within bodyParts o) {r : o.Res}
    (hc : c ∈ (noteCommand o r).toList) : ¬ c.Connects inet_addr t := by
  intro hconnects
  rw [Option.mem_toList] at hc
  have hop := op_of_note hc
  subst hop
  have hpart : ∀ x, c.op.part = some x → x ∈ bodyParts := ho
  obtain ⟨x, reply, hremote, hno, -⟩ := hconnects
  obtain ⟨op, res⟩ := c
  cases op with
  | initPasvDataConnection slave p startPort portLen => exact absurd (hpart .init rfl) (by decide)
  | openPasvDataConnection slave p => exact absurd (hpart .opening rfl) (by decide)
  | activeStoreTransfer slave p iflags =>
      rw [Call.remote, Option.some.injEq, Prod.mk.injEq] at hremote
      rw [← hremote.1] at hno
      exact hno trivial
  | pasvStoreTransfer slave p iflags =>
      rw [Call.remote, Option.some.injEq, Prod.mk.injEq] at hremote
      rw [← hremote.1] at hno
      exact hno trivial
  | activeRetrieveTransfer slave p =>
      rw [Call.remote, Option.some.injEq, Prod.mk.injEq] at hremote
      rw [← hremote.1] at hno
      exact hno trivial
  | pasvRetrieveTransfer slave p =>
      rw [Call.remote, Option.some.injEq, Prod.mk.injEq] at hremote
      rw [← hremote.1] at hno
      exact hno trivial
  | _ => exact absurd hremote (by simp [Call.remote])

end Thread

/-- The threads of the session are transfer threads. -/
def LiveSession.Bodies (s : LiveSession) : Prop := ∀ p ∈ s.threads, Every (Within bodyParts) p

theorem LiveStep.bodies {who : Happening} (h : LiveStep cfg s who cs s') (hbodies : s.Bodies) :
    s'.Bodies := by
  cases h with
  | line env line _ _ => exact threadsAfter_forall (body_within cfg) hbodies _
  | hangUp _ => exact hbodies
  | op env hthreads =>
      have hrest := hbodies _ (by rw [hthreads]; exact List.mem_append_right _ List.mem_cons_self)
      exact forall_replaced hbodies hthreads (hrest.2 _)
  | poll env hthreads _ =>
      have hrest := hbodies _ (by rw [hthreads]; exact List.mem_append_right _ List.mem_cons_self)
      exact forall_replaced hbodies hthreads (hrest.2 _)
  | ends env hthreads _ => exact forall_removed hbodies hthreads
  | others db _ => exact hbodies

/-- What a step of a thread that goes on leaves alone. -/
structure Working (inet_addr : Text → ℕ) (s s' : LiveSession) (cs : List Call) : Prop where
  opened : s'.opened = s.opened
  view : s'.world.view = s.world.view
  calls : ∀ c ∈ cs, ∀ t, ¬ c.Connects inet_addr t

theorem LiveStep.working (h : LiveStep cfg s .thread cs s') (hbodies : s.Bodies)
    (hlength : s'.threads.length = s.threads.length) : Working inet_addr s s' cs := by
  cases h with
  | @op xs ys o k env hthreads =>
      have hwithin := hbodies _ (by rw [hthreads]; exact List.mem_append_right _ List.mem_cons_self)
      exact ⟨rfl, body_view hwithin.1 env s.world, fun c hc t => body_not_connects hwithin.1 hc⟩
  | @poll xs ys o again k env hthreads _ =>
      have hwithin := hbodies _ (by rw [hthreads]; exact List.mem_append_right _ List.mem_cons_self)
      exact ⟨rfl, body_view hwithin.1 env s.world, fun c hc t => body_not_connects hwithin.1 hc⟩
  | ends env hthreads _ =>
      rw [hthreads] at hlength
      simp at hlength

/-- A thread goes on or ends. -/
theorem LiveStep.length (h : LiveStep cfg s .thread cs s') :
    s'.threads.length = s.threads.length ∨ s'.threads.length < s.threads.length := by
  cases h with
  | op env hthreads => exact .inl (by simp [hthreads])
  | poll env hthreads _ => exact .inl (by simp [hthreads])
  | ends env hthreads _ => exact .inr (by simp [hthreads])

/-- A thread that ends makes no call. -/
theorem LiveStep.ending (h : LiveStep cfg s .thread cs s')
    (hlength : s'.threads.length < s.threads.length) : cs = [] := by
  cases h with
  | op env hthreads => simp [hthreads] at hlength
  | poll env hthreads _ => simp [hthreads] at hlength
  | ends env hthreads _ => rfl

/-! ### Steps of a session -/

theorem SessionStep.live {ev : SessionEvent} (h : SessionStep cfg s ev cs s') :
    ∃ who, LiveStep cfg s who cs s' := by
  cases h with
  | line env line hopened hrun => exact ⟨_, .line env line hopened hrun⟩
  | hangUp hopened => exact ⟨_, .hangUp hopened⟩
  | works hstep _ => exact ⟨_, hstep⟩
  | ends hstep _ => exact ⟨_, hstep⟩
  | others hstep => exact ⟨_, hstep⟩

theorem LiveStep.event {who : Happening} (h : LiveStep cfg s who cs s') :
    ∃ ev, SessionStep cfg s ev cs s' := by
  cases h with
  | line env line hopened hrun => exact ⟨_, .line env line hopened hrun⟩
  | hangUp hopened => exact ⟨_, .hangUp hopened⟩
  | op env hthreads => exact ⟨_, .works (.op env hthreads) (by simp [hthreads])⟩
  | poll env hthreads hagain => exact ⟨_, .works (.poll env hthreads hagain) (by simp [hthreads])⟩
  | ends env hthreads hrun => exact ⟨_, .ends (.ends env hthreads hrun) (by simp [hthreads])⟩
  | others db hdb => exact ⟨_, .others (.others db hdb)⟩

theorem LiveSession.Holds.of_view (h : s.Holds t) (hview : s'.world.view = s.world.view)
    (hopened : s'.opened = s.opened) : s'.Holds t := by
  obtain ⟨hlive, ht, hpasv⟩ := h
  have hstatus : s'.world.client.eStatus = s.world.client.eStatus :=
    congrArg TransferView.eStatus hview
  refine ⟨?_, by rw [hview]; exact ht, by rw [hview]; exact hpasv⟩
  rw [LiveSession.IsLive, hopened, hstatus]
  exact hlive

/-- **A step that does not give it up** keeps the transaction. -/
theorem SessionStep.holds {ev : SessionEvent} (h : SessionStep cfg s ev cs s')
    (hbodies : s.Bodies) (hkeeps : ¬ GivesUp cfg s ev)
    (hcreate : ∀ thread, ⟨.pthread_create thread, false⟩ ∉ cs) (hs : s.Holds t) : s'.Holds t := by
  cases h with
  | @line w' next env line hopened hrun =>
      by_cases hnext : next = .continue
      · obtain ⟨-, ht, hpasv⟩ := hs
        obtain ⟨hid, hconn⟩ := line_keeps hkeeps hrun hcreate
        exact ⟨.inl (by simp [hnext]), hid.trans ht, hconn.trans hpasv⟩
      · obtain ⟨hview, -, hdrop⟩ := line_ends hnext hrun
        have hbusy : s.world.client.eStatus ≠ .waiting := fun hwait => hkeeps (hdrop hwait)
        have hstatus : w'.client.eStatus = s.world.client.eStatus :=
          congrArg TransferView.eStatus hview
        obtain ⟨-, ht, hpasv⟩ := hs
        refine ⟨.inr ?_, by rw [hview]; exact ht, by rw [hview]; exact hpasv⟩
        rw [hstatus]
        exact hbusy
  | hangUp hopened => exact ⟨.inr hkeeps, hs.2⟩
  | works hstep hlength =>
      have hworking : Working (fun _ => 0) s s' cs := hstep.working hbodies hlength
      exact hs.of_view hworking.view hworking.opened
  | ends hstep hlength => exact absurd trivial hkeeps
  | others hstep =>
      cases hstep with
      | others db _ => exact hs.of_view rfl rfl

/-- **An `Init` or an `Open`** is of the transaction that the session then holds. -/
theorem SessionStep.connects {ev : SessionEvent} (h : SessionStep cfg s ev cs s')
    (hbodies : s.Bodies)
    (hcreated : ∀ thread, ⟨.pthread_create thread, false⟩ ∈ cs →
      ∀ slave p answer, ⟨.openPasvDataConnection slave p, answer⟩ ∉ cs)
    (hanswered : ∀ slave p startPort portLen, ⟨.initPasvDataConnection slave p startPort portLen,
      .exception⟩ ∈ cs → s.world.client.eDataConnection = .pasv)
    (hc : c ∈ cs) (hconnects : c.Connects inet_addr t) : s'.Holds t := by
  cases h with
  | @line w' next env line hopened hrun =>
      by_cases hnext : next = .continue
      · exact ⟨.inl (by simp [hnext]), line_connects hrun hcreated hanswered hc hconnects⟩
      · obtain ⟨-, hcalls, -⟩ := line_ends hnext hrun
        rw [hcalls] at hc
        exact absurd hc List.not_mem_nil
  | hangUp hopened => exact absurd hc List.not_mem_nil
  | works hstep hlength => exact absurd hconnects ((hstep.working hbodies hlength).calls c hc t)
  | ends hstep hlength =>
      rw [hstep.ending hlength] at hc
      exact absurd hc List.not_mem_nil
  | others hstep =>
      cases hstep with
      | others db _ => exact absurd hc List.not_mem_nil

end ClusterFtpd
