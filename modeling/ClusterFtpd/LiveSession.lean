import ClusterFtpd.Calls

/-!
# A session with its transfer threads

The lines of a session are turns; the operations of its transfer threads come between them, in any
order.  `pthread_create` starts a thread, `pthread_cancel` takes the last one away.

`BusyTurn` lists what a line can do while a transfer is going on, if it is not one of the commands
that start a transfer without looking at the status.
-/

namespace ClusterFtpd

open Interaction MachineInt

/-- A session: its world, the rest of every transfer thread, the last one first, and whether the
control connection is open. -/
structure LiveSession where
  world : World
  threads : List (CommandProg Unit) := []
  opened : Bool := true

/-- The threads after a call of the shell. -/
def Call.threads (cfg : Config) (ts : List (CommandProg Unit)) (c : Call) :
    List (CommandProg Unit) :=
  match c with
  | ⟨.pthread_create t, true⟩ => t.body cfg :: ts
  | ⟨.pthread_cancel, _⟩ => ts.tail
  | _ => ts

/-- The threads after the calls of a line. -/
def threadsAfter (cfg : Config) (ts : List (CommandProg Unit)) (cs : List Call) :
    List (CommandProg Unit) := cs.foldl (Call.threads cfg) ts

/-- What holds of every transfer thread at its start holds of those that a line leaves. -/
theorem threadsAfter_forall {cfg : Config} {P : CommandProg Unit → Prop}
    (hbody : ∀ thread, P (TransferThread.body cfg thread)) {ts : List (CommandProg Unit)}
    (h : ∀ p ∈ ts, P p) (cs : List Call) : ∀ p ∈ threadsAfter cfg ts cs, P p := by
  induction cs generalizing ts with
  | nil => exact h
  | cons c cs ih =>
      have hc : ∀ p ∈ c.threads cfg ts, P p := by
        intro p hp
        unfold Call.threads at hp
        split at hp
        · rw [List.mem_cons] at hp
          obtain rfl | hp := hp
          · exact hbody _
          · exact h p hp
        · exact h p (List.mem_of_mem_tail hp)
        · exact h p hp
      exact ih hc

/-- What holds of every thread still does where one is exchanged for another. -/
theorem forall_replaced {P : CommandProg Unit → Prop} {ts xs ys : List (CommandProg Unit)}
    {p q : CommandProg Unit} (h : ∀ r ∈ ts, P r) (hts : ts = xs ++ p :: ys) (hq : P q) :
    ∀ r ∈ xs ++ q :: ys, P r := by
  intro r hr
  rw [hts] at h
  rcases List.mem_append.1 hr with hxs | hys
  · exact h r (List.mem_append_left _ hxs)
  · rcases List.mem_cons.1 hys with hhead | htail
    · rw [hhead]
      exact hq
    · exact h r (List.mem_append_right _ (List.mem_cons_of_mem p htail))

/-- What holds of every thread still does when one is gone. -/
theorem forall_removed {P : CommandProg Unit → Prop} {ts xs ys : List (CommandProg Unit)}
    {p : CommandProg Unit} (h : ∀ r ∈ ts, P r) (hts : ts = xs ++ p :: ys) :
    ∀ r ∈ xs ++ ys, P r := by
  intro r hr
  rw [hts] at h
  exact h r (List.mem_append.2 ((List.mem_append.1 hr).imp_right (List.mem_cons_of_mem p)))

/-- Who makes a step. -/
inductive Happening where
  | line (nCmd : Option Cmd)
  | hangUp
  | thread
  | others
  deriving DecidableEq

/-- One step of a session, with the noted calls it makes. -/
inductive LiveStep (cfg : Config) : LiveSession → Happening → List Call → LiveSession → Prop where
  | line {s : LiveSession} {w' : World} {next : Next} (env : Env) (line : Text) :
      s.opened = true →
      run (serveShell env) (dispatch cfg (parseLine line).1 (parseLine line).2) s.world =
        .done next w' →
      LiveStep cfg s (.line (parseLine line).1)
        (lineCalls env (dispatch cfg (parseLine line).1 (parseLine line).2) s.world)
        ⟨w', threadsAfter cfg s.threads
          (lineCalls env (dispatch cfg (parseLine line).1 (parseLine line).2) s.world),
          next = .continue⟩
  | hangUp {s : LiveSession} : s.opened = true →
      LiveStep cfg s .hangUp [] { s with opened := false }
  | op {s : LiveSession} {xs ys : List (CommandProg Unit)} {o : CommandOp}
      {k : o.Res → CommandProg Unit} (env : Env) : s.threads = xs ++ .call o k :: ys →
      LiveStep cfg s .thread (noteCommand o (serveCommand env o s.world).1).toList
        { s with
          world := (serveCommand env o s.world).2
          threads := xs ++ k (serveCommand env o s.world).1 :: ys }
  | poll {s : LiveSession} {xs ys : List (CommandProg Unit)} {o : CommandOp}
      {again : o.Res → Bool} {k : o.Res → CommandProg Unit} (env : Env) :
      s.threads = xs ++ .poll o again k :: ys →
      again (serveCommand env o s.world).1 = false →
      LiveStep cfg s .thread (noteCommand o (serveCommand env o s.world).1).toList
        { s with
          world := (serveCommand env o s.world).2
          threads := xs ++ k (serveCommand env o s.world).1 :: ys }
  | ends {s : LiveSession} {xs ys : List (CommandProg Unit)} {w' : World} (env : Env) :
      s.threads = xs ++ .ret () :: ys →
      run (serveCommand env) endTransfer s.world = .done () w' →
      LiveStep cfg s .thread [] { s with world := w', threads := xs ++ ys }
  -- the counters of the database only grow
  | others {s : LiveSession} (db : Redis) :
      s.world.db.transaction_counter ≤ db.transaction_counter →
      LiveStep cfg s .others [] { s with world := { s.world with db } }

/-- A condition on a step: the session, the calls so far, who makes the step, and its calls. -/
abbrev LiveCondition := LiveSession → List Call → Happening → List Call → Prop

/-- The runs of a session whose steps all satisfy `ok`, with all their noted calls. -/
inductive LiveRun (cfg : Config) (ok : LiveCondition) : LiveSession → List Call → Prop where
  | connect {w : World} : w.client.toLoginState = {} → w.client.toCommandState = {} →
      LiveRun cfg ok ⟨w, [], true⟩ []
  | step {s s' : LiveSession} {sent cs : List Call} {who : Happening} : LiveRun cfg ok s sent →
      LiveStep cfg s who cs s' → ok s sent who cs → LiveRun cfg ok s' (sent ++ cs)

/-! ### Lines while a transfer is going on -/

variable {env : Env} {cfg : Config} {w w' : World} {cs : List Call} {nCmd : Option Cmd}

/-- The commands that start a transfer without looking at the status. -/
def Blind (nCmd : Option Cmd) : Prop :=
  nCmd = some .retr ∨ nCmd = some .stor ∨ nCmd = some .appe ∨ nCmd = some .stou

instance (nCmd : Option Cmd) : Decidable (Blind nCmd) := inferInstanceAs (Decidable (_ ∨ _))

/-- What another line can do while a transfer is going on. -/
inductive BusyTurn (w w' : World) : Option Cmd → List Call → Prop where
  | quiet {nCmd : Option Cmd} : w'.view = w.view →
      w'.client.CurrentTransfer = w.client.CurrentTransfer → BusyTurn w w' nCmd []
  | pret : w'.view = { w.view with
        nPRET_CMD := w'.client.nPRET_CMD, llPRET_fid := w'.client.llPRET_fid } →
      w'.client.CurrentTransfer = w.client.CurrentTransfer → BusyTurn w w' (some .pret) []
  | abor : w'.view = w.view.reset → BusyTurn w w' (some .abor) [⟨.pthread_cancel, ()⟩]

/-- `ABOR` cancels the thread. -/
theorem abor_busy {u : Unit} (hbusy : w.client.eStatus ≠ .waiting) (hthread : w.Threaded)
    (h : Does env cmdAbor w u w' cs) :
    w'.view = w.view.reset ∧ cs = [⟨.pthread_cancel, ()⟩] := by
  obtain ⟨u₁, w₁, cs₁, cs₂, habort, h₁, rfl⟩ := h.of_client.of_bind
  obtain ⟨rfl, rfl⟩ := h₁.of_reply
  rw [onlyIf, if_pos hbusy] at habort
  obtain ⟨u₂, w₂, cs₃, cs₄, hreset, h₂, rfl⟩ := habort.of_bind
  obtain ⟨rfl, rfl⟩ := h₂.of_reply
  obtain ⟨hview, rfl⟩ := reset_calls hreset
  refine ⟨hview, ?_⟩
  rw [World.Threaded] at hthread
  rw [hthread]
  rfl

/-- A command that first looks at the status does nothing else. -/
theorem busy_refused {p : Client → CommandProg Unit} {r : Reply} {u : Unit}
    (hp : p w.client = sendReply r) (h : Does env (client >>= p) w u w' cs) :
    w'.client = w.client ∧ cs = [] := by
  have h₁ := h.of_client
  rw [hp] at h₁
  obtain ⟨rfl, rfl⟩ := h₁.of_reply
  exact ⟨rfl, rfl⟩

theorem busyTurn_of_client (hclient : w'.client = w.client) : BusyTurn w w' nCmd [] := by
  refine .quiet ?_ (by rw [hclient])
  simp only [World.view, hclient]

/-- `LIST`, `NLST` and `STAT` of a path. -/
theorem list_busy {ucPriv : ℕ} {cmd : Cmd} {pszCmdArg : Option Text} {u : Unit}
    (hbusy : w.client.eStatus ≠ .waiting)
    (h : Does env (withPrivilege ucPriv (cmdList cfg cmd pszCmdArg)) w u w' cs) :
    w'.client = w.client ∧ cs = [] := by
  have h₁ := h.of_client
  by_cases hpriv : w.client.checkPrivileges ucPriv = true
  · rw [if_pos hpriv] at h₁
    exact busy_refused (if_pos hbusy) h₁
  · rw [if_neg hpriv] at h₁
    obtain ⟨rfl, rfl⟩ := h₁.of_reply
    exact ⟨rfl, rfl⟩

/-- The commands that look at the status leave the client entry alone. -/
theorem guarded_busy {cmd : Cmd} {pszCmdArg : Option Text} {u : Unit}
    (hcmd : cmd ∈ [Cmd.port, .pasv, .list, .nlst, .stat, .rest])
    (hbusy : w.client.eStatus ≠ .waiting) (h : Does env (shellCmd cfg cmd pszCmdArg) w u w' cs) :
    w'.client = w.client ∧ cs = [] := by
  simp only [List.mem_cons, List.not_mem_nil, or_false] at hcmd
  obtain rfl | rfl | rfl | rfl | rfl | rfl := hcmd
  · refine busy_refused (r := .line 501 "Syntax error in arguments.") ?_ h
    rw [if_neg hbusy]
  · exact busy_refused (if_neg hbusy) h
  · exact list_busy hbusy h
  · exact list_busy hbusy h
  · have h₁ : Does env (if pszCmdArg = none then
        sendReply (.line 211 ":: CFtpServer / Browser FTP Server:: thebrowser@gmail.com")
      else withPrivilege LIST (cmdList cfg .stat pszCmdArg)) w u w' cs := h
    by_cases harg : pszCmdArg = none
    · rw [if_pos harg] at h₁
      obtain ⟨rfl, rfl⟩ := h₁.of_reply
      exact ⟨rfl, rfl⟩
    · rw [if_neg harg] at h₁
      exact list_busy hbusy h₁
  · refine busy_refused (r := .line 501 "Syntax error in arguments.") ?_ h
    rw [if_neg hbusy]

/-- **What a line does while a transfer is going on.** -/
theorem busyTurn_of_run {pszCmdArg : Option Text} {next : Next} (hblind : ¬ Blind nCmd)
    (hbusy : w.client.eStatus ≠ .waiting) (hthread : w.Threaded)
    (hrun : run (serveShell env) (dispatch cfg nCmd pszCmdArg) w = .done next w') :
    BusyTurn w w' nCmd (lineCalls env (dispatch cfg nCmd pszCmdArg) w) := by
  have hkept : Part.transfer ∉ partsOf nCmd →
      w'.client.CurrentTransfer = w.client.CurrentTransfer := by
    intro hparts
    have hsame := run_shell_same (dispatch_within cfg nCmd pszCmdArg) hparts env w
    rw [hrun] at hsame
    exact hsame
  have hturn := dataTurn_of_run hrun
  cases nCmd with
  | none =>
      generalize lineCalls env _ w = cs at hturn
      cases hturn with
      | quiet hview => exact .quiet hview (hkept (by simp [partsOf]))
  | some cmd =>
      cases hlogged : w.client.bIsLogged with
      | false =>
          obtain ⟨hview, hcalls⟩ := line_not_logged hlogged hrun
          rw [hcalls]
          refine .quiet hview ?_
          by_cases hfree : cmd = .quit ∨ cmd = .user ∨ cmd = .pass
          · refine hkept ?_
            obtain rfl | rfl | rfl := hfree <;> simp [partsOf, Cmd.parts]
          · rw [not_or, not_or] at hfree
            rw [(turn_gated hfree.1 hfree.2.1 hfree.2.2 hlogged hrun).1]
      | true =>
          by_cases hguarded : cmd ∈ [Cmd.port, .pasv, .list, .nlst, .stat, .rest]
          · have hdoes := does_of_dispatch (by cases cmd <;> simp_all) hlogged hrun
            obtain ⟨hclient, hcalls⟩ := guarded_busy hguarded hbusy hdoes
            rw [hcalls]
            exact busyTurn_of_client hclient
          · by_cases habor : cmd = .abor
            · subst habor
              have hdoes := does_of_dispatch (by simp) hlogged hrun
              obtain ⟨hview, hcalls⟩ := abor_busy hbusy hthread hdoes
              rw [hcalls]
              exact .abor hview
            · have hparts : Part.transfer ∉ partsOf (some cmd) := by
                cases cmd <;> simp_all [partsOf, Cmd.parts, Blind]
              have hsame := hkept hparts
              generalize lineCalls env _ w = cs at hturn
              cases hturn with
              | quiet hview => exact .quiet hview hsame
              | pret hview => exact .pret hview hsame
              | port _ _ => simp at hguarded
              | abor _ => simp at habor
              | pasv _ _ _ => simp at hguarded
              | init _ _ _ _ => simp at hguarded
              | list hcmd _ => obtain rfl | rfl | rfl := hcmd <;> simp at hguarded
              | retrieve _ => simp [Blind] at hblind
              | store hcmd _ => obtain rfl | rfl | rfl := hcmd <;> simp [Blind] at hblind

/-! ### A transfer thread that nothing interrupts -/

/-- What each step of a thread keeps, with calls of a kind, is kept while it runs to its end with
such calls. -/
theorem thread_runs {R : LiveSession → List Call → Prop} {C : Call → Prop}
    (hstep : ∀ {s s' : LiveSession} {sent cs : List Call}, R s sent →
      LiveStep cfg s .thread cs s' → (∀ c ∈ cs, C c) → R s' (sent ++ cs))
    {p : CommandProg Unit} {u : Unit} {xs ys : List (CommandProg Unit)} {opened : Bool}
    {sent : List Call} (hp : Does env p w u w' cs) (hcs : ∀ c ∈ cs, C c)
    (h : R ⟨w, xs ++ p :: ys, opened⟩ sent) :
    R ⟨w', xs ++ .ret () :: ys, opened⟩ (sent ++ cs) := by
  obtain ⟨hends, rfl⟩ := hp
  induction p generalizing w sent with
  | ret a =>
      cases hends
      show R _ (sent ++ [])
      rw [List.append_nil]
      exact h
  | stop why => cases hends
  | call o k ih =>
      have hcalls : calls env (.call o k) w = (noteCommand o (serveCommand env o w).1).toList ++
          calls env (k (serveCommand env o w).1) (serveCommand env o w).2 := rfl
      rw [hcalls] at hcs ⊢
      have hnext := hstep h (.op env rfl) fun c hc => hcs c (List.mem_append_left _ hc)
      rw [← List.append_assoc]
      exact ih _ hnext hends fun c hc => hcs c (List.mem_append_right _ hc)
  | poll o again k ih =>
      cases hagain : again (serveCommand env o w).1 with
      | true =>
          rw [run, hagain] at hends
          cases hends
      | false =>
          have hrest : run (serveCommand env) (k (serveCommand env o w).1)
              (serveCommand env o w).2 = .done u w' := by
            rw [run, hagain] at hends
            exact hends
          have hcalls : calls env (.poll o again k) w =
              (noteCommand o (serveCommand env o w).1).toList ++
                calls env (k (serveCommand env o w).1) (serveCommand env o w).2 := by
            show (noteCommand o _).toList ++ (if again _ then [] else _) = _
            rw [hagain]
            rfl
          rw [hcalls] at hcs ⊢
          have hnext := hstep h (.poll env rfl hagain) fun c hc => hcs c (List.mem_append_left _ hc)
          rw [← List.append_assoc]
          exact ih _ hnext hrest fun c hc => hcs c (List.mem_append_right _ hc)

/-- The same for the thread and its end. -/
theorem thread_finishes {R : LiveSession → List Call → Prop} {C : Call → Prop}
    (xs ys : List (CommandProg Unit)) (sent : List Call)
    (hstep : ∀ {s s' : LiveSession} {sent cs : List Call}, R s sent →
      LiveStep cfg s .thread cs s' → (∀ c ∈ cs, C c) → R s' (sent ++ cs))
    {p : CommandProg Unit} {u : Unit} {opened : Bool} {w'' : World} (hp : Does env p w u w' cs)
    (hcs : ∀ c ∈ cs, C c) (hend : run (serveCommand env) endTransfer w' = .done () w'')
    (h : R ⟨w, xs ++ p :: ys, opened⟩ sent) : R ⟨w'', xs ++ ys, opened⟩ (sent ++ cs) := by
  have hlast := hstep (thread_runs hstep hp hcs h) (.ends env rfl hend) (by simp)
  rw [List.append_nil] at hlast
  exact hlast

end ClusterFtpd
