import ClusterFtpd.ActiveConnections
import ClusterFtpd.Leftovers
import ClusterFtpd.Pret
import ClusterFtpd.Privileges

/-!
# What a login inherits

`Shown` is a step of a session with what is seen of it from outside: its replies, every call to the
system with its answer, without transaction identifiers, and the virtual file system behind it.
`CleanLogin` compares two sessions from a login on: whatever is seen of one can be seen of the
other, under the same answers of the system.

`LogOut` forgets the user, the working directory and the rename source.  `login_clean` says that two
histories cannot be told apart by what follows a `USER` if they leave the same of the rest
(`SameLeftovers`); `login_inherits` is a `PRET` of one user that the next one's `PASV` carries out.
-/

namespace ClusterFtpd

open Interaction MachineInt

/-! ### What is seen of a session -/

/-- What is done next: a line comes, the client hangs up, a thread makes a step, or another session
changes the database. -/
inductive Motion where
  | line (text : Text)
  | hangUp
  | thread (n : ℕ)
  | others
  deriving DecidableEq

/-- What is seen of a step. -/
structure Seen where
  move : Motion
  replies : List Reply
  calls : List Call
  vfs : Redis

/-- What is seen of a step from one world to another. -/
def seenOf (move : Motion) (w w' : World) (calls : List Call) : Seen :=
  ⟨move, w'.replies.drop w.replies.length, calls, w'.db.vfs⟩

/-- One step of a session, with what is seen of it. -/
inductive Shown (cfg : Config) : LiveSession → Seen → LiveSession → Prop where
  | line {s : LiveSession} {w' : World} {next : Next} (env : Env) (text : Text) :
      s.opened = true →
      run (serveShell env) (dispatch cfg (parseLine text).1 (parseLine text).2) s.world =
        .done next w' →
      Shown cfg s
        (seenOf (.line text) s.world w' (trace (serveShell env) seeShell
          (dispatch cfg (parseLine text).1 (parseLine text).2) s.world))
        ⟨w', threadsAfter cfg s.threads
          (lineCalls env (dispatch cfg (parseLine text).1 (parseLine text).2) s.world),
          next = .continue⟩
  | hangUp {s : LiveSession} : s.opened = true →
      Shown cfg s (seenOf .hangUp s.world s.world []) { s with opened := false }
  | op {s : LiveSession} {xs ys : List (CommandProg Unit)} {o : CommandOp}
      {k : o.Res → CommandProg Unit} (env : Env) : s.threads = xs ++ .call o k :: ys →
      Shown cfg s
        (seenOf (.thread xs.length) s.world (serveCommand env o s.world).2
          (seeCommand o (serveCommand env o s.world).1).toList)
        { s with
          world := (serveCommand env o s.world).2
          threads := xs ++ k (serveCommand env o s.world).1 :: ys }
  | poll {s : LiveSession} {xs ys : List (CommandProg Unit)} {o : CommandOp}
      {again : o.Res → Bool} {k : o.Res → CommandProg Unit} (env : Env) :
      s.threads = xs ++ .poll o again k :: ys →
      again (serveCommand env o s.world).1 = false →
      Shown cfg s
        (seenOf (.thread xs.length) s.world (serveCommand env o s.world).2
          (seeCommand o (serveCommand env o s.world).1).toList)
        { s with
          world := (serveCommand env o s.world).2
          threads := xs ++ k (serveCommand env o s.world).1 :: ys }
  | ends {s : LiveSession} {xs ys : List (CommandProg Unit)} {w' : World} (env : Env) :
      s.threads = xs ++ .ret () :: ys →
      run (serveCommand env) endTransfer s.world = .done () w' →
      Shown cfg s
        (seenOf (.thread xs.length) s.world w'
          (trace (serveCommand env) seeCommand endTransfer s.world))
        { s with world := w', threads := xs ++ ys }
  | others {s : LiveSession} (db : Redis) :
      s.world.db.transaction_counter ≤ db.transaction_counter →
      Shown cfg s (seenOf .others s.world { s.world with db } [])
        { s with world := { s.world with db } }

/-- Several steps. -/
inductive Shows (cfg : Config) : LiveSession → List Seen → LiveSession → Prop where
  | nil (s : LiveSession) : Shows cfg s [] s
  | cons {s t u : LiveSession} {seen : Seen} {rest : List Seen} : Shown cfg s seen t →
      Shows cfg t rest u → Shows cfg s (seen :: rest) u

variable {cfg : Config} {s s' t t' : LiveSession} {seen : Seen} {k k' : Known}

/-- What is shown is a step of the session. -/
theorem Shown.liveStep (h : Shown cfg s seen t) : ∃ who cs, LiveStep cfg s who cs t := by
  cases h with
  | line env text hopened hrun => exact ⟨_, _, .line env text hopened hrun⟩
  | hangUp hopened => exact ⟨_, _, .hangUp hopened⟩
  | op env hthreads => exact ⟨_, _, .op env hthreads⟩
  | poll env hthreads hagain => exact ⟨_, _, .poll env hthreads hagain⟩
  | ends env hthreads hrun => exact ⟨_, _, .ends env hthreads hrun⟩
  | others db hcounter => exact ⟨_, _, .others db hcounter⟩

/-- Every step of a session can be shown. -/
theorem exists_shown {who : Happening} {cs : List Call} (h : LiveStep cfg s who cs t) :
    ∃ seen, Shown cfg s seen t := by
  cases h with
  | line env text hopened hrun => exact ⟨_, .line env text hopened hrun⟩
  | hangUp hopened => exact ⟨_, .hangUp hopened⟩
  | op env hthreads => exact ⟨_, .op env hthreads⟩
  | poll env hthreads hagain => exact ⟨_, .poll env hthreads hagain⟩
  | ends env hthreads hrun => exact ⟨_, .ends env hthreads hrun⟩
  | others db hcounter => exact ⟨_, .others db hcounter⟩

/-! ### Sessions side by side -/

/-- The threads of a line are those of all the calls that are seen. -/
theorem threads_seen {α : Type} (env : Env) (p : ShellProg α) (w : World)
    (ts : List (CommandProg Unit)) :
    threadsAfter cfg ts (trace (serveShell env) seeShell p w) =
      threadsAfter cfg ts (lineCalls env p w) := by
  have hop : ∀ (o : ShellOp) (r : o.Res) ts, threadsAfter cfg ts (seeShell o r).toList =
      threadsAfter cfg ts (noteShell o r).toList := by
    intro o r ts
    cases o with
    | login f => rfl
    | command o =>
        cases o with
        | sys o => cases o <;> rfl
        | _ => rfl
  induction p generalizing w ts with
  | ret a => rfl
  | stop why => rfl
  | call o k ih =>
      show threadsAfter cfg ts (_ ++ _) = threadsAfter cfg ts (_ ++ _)
      rw [threadsAfter_append, threadsAfter_append, hop]
      exact ih _ _ _
  | poll o again k ih =>
      show threadsAfter cfg ts (_ ++ _) = threadsAfter cfg ts (_ ++ _)
      rw [threadsAfter_append, threadsAfter_append, hop]
      by_cases hagain : again (serveShell env o w).1 = true
      · rw [if_pos hagain, if_pos hagain]
      · rw [if_neg hagain, if_neg hagain]
        exact ih _ _ _

/-- Two sessions whose client entries agree so far, with threads that go together. -/
structure Side (k : Known) (s s' : LiveSession) : Prop where
  vfs : s'.world.db.vfs = s.world.db.vfs
  client : s.world.client.Like k s'.world.client
  threads : List.Forall₂ (Together (Matched k) Eq) s.threads s'.threads
  opened : s'.opened = s.opened

/-- What goes together goes together when more is known. -/
theorem together_mono {α : Type} {p p' : CommandProg α} (hk : k.Le k')
    (h : Together (Matched k) Eq p p') : Together (Matched k') Eq p p' := by
  refine h.mono fun o o' V hop => ?_
  cases hop with
  | outer hop => exact ⟨V, .outer (hop.mono fun _ => Known.Ready.mono hk), fun _ _ hr => hr⟩
  | client => exact ⟨_, .client, fun _ _ hc => hc.mono hk⟩
  | modify hcarries => exact ⟨_, .modify hcarries, fun _ _ hr => hr⟩

/-- The threads that calls leave go together. -/
theorem threads_together (hcfg : Config) {cs : List Call} {ts ts' : List (CommandProg Unit)}
    (hready : ∀ thread, ⟨.pthread_create thread, true⟩ ∈ cs → k.Ready thread)
    (h : List.Forall₂ (Together (Matched k) Eq) ts ts') :
    List.Forall₂ (Together (Matched k) Eq) (threadsAfter hcfg ts cs)
      (threadsAfter hcfg ts' cs) := by
  induction cs generalizing ts ts' with
  | nil => exact h
  | cons c cs ih =>
      have hc : List.Forall₂ (Together (Matched k) Eq) (c.threads hcfg ts)
          (c.threads hcfg ts') := by
        unfold Call.threads
        split
        · exact .cons (together_body hcfg (hready _ List.mem_cons_self)) h
        · cases h with
          | nil => exact .nil
          | cons _ htail => exact htail
        · exact h
      exact ih (fun thread hmem => hready thread (List.mem_cons_of_mem c hmem)) hc

/-- What is seen of two worlds side by side. -/
theorem seenOf_beside {L : Client → Client → Prop} {ready : TransferThread → Prop} {w w' : World}
    {v v' : Watched} (h : Beside L ready w.replies w'.replies v v') (move : Motion) :
    seenOf move w' v'.1 v'.2 = seenOf move w v.1 v.2 := by
  obtain ⟨new, hnew, hnew'⟩ := h.replies
  rw [seenOf, seenOf, hnew, hnew', List.drop_left, List.drop_left, h.calls, h.vfs]

/-- Worlds side by side before a step. -/
theorem Side.alike (h : Side k s s') :
    Alike k s.world.replies s'.world.replies (s.world, []) (s'.world, []) :=
  ⟨h.vfs, h.client, ⟨[], (List.append_nil _).symm, (List.append_nil _).symm⟩, rfl,
    fun _ hmem => absurd hmem List.not_mem_nil⟩

/-- **A line** of one session is one of the other, if it does the same in both. -/
theorem shown_line {R : Watched → Watched → Prop} {text : Text} {env : Env} {w' : World}
    {next : Next} (hopened : s'.opened = true)
    (hthreads : List.Forall₂ (Together (Matched k) Eq) s.threads s'.threads)
    (hpaired : Paired (someAnswer watchShell) R
      (dispatch cfg (parseLine text).1 (parseLine text).2)
      (dispatch cfg (parseLine text).1 (parseLine text).2) fun a b v v' =>
        b = a ∧ Onward k s.world.replies s'.world.replies v v')
    (hR : R (s.world, []) (s'.world, []))
    (hrun : run (serveShell env) (dispatch cfg (parseLine text).1 (parseLine text).2) s.world =
      .done next w') :
    ∃ k' t', k.Le k' ∧ Shown cfg s'
      (seenOf (.line text) s.world w' (trace (serveShell env) seeShell
        (dispatch cfg (parseLine text).1 (parseLine text).2) s.world)) t' ∧
      Side k' ⟨w', threadsAfter cfg s.threads
        (lineCalls env (dispatch cfg (parseLine text).1 (parseLine text).2) s.world),
        next = .continue⟩ t' := by
  generalize hp : dispatch cfg (parseLine text).1 (parseLine text).2 = p at hrun hpaired ⊢
  rw [← timed_serveShell] at hrun
  obtain ⟨env', next', v', hrun', hnext, k', hk, hv⟩ :=
    hpaired.exists_run serveShell_readsOnce hR hrun
  rw [timed_serveShell] at hrun' hv
  rw [timed_serveShell] at hv
  have hshown : Shown cfg s' _ _ := .line env' text hopened (by rw [hp]; exact hrun')
  rw [hp, hnext] at hshown
  have hseen : seenOf (.line text) s'.world v' (trace (serveShell env') seeShell p s'.world) =
      seenOf (.line text) s.world w' (trace (serveShell env) seeShell p s.world) :=
    seenOf_beside hv _
  rw [hseen] at hshown
  refine ⟨k', _, hk, hshown, hv.vfs, hv.client, ?_, rfl⟩
  have hcalls : trace (serveShell env') seeShell p s'.world =
      trace (serveShell env) seeShell p s.world := hv.calls
  have hstill : List.Forall₂ (Together (Matched k') Eq) s.threads s'.threads :=
    hthreads.imp fun _ _ => together_mono hk
  show List.Forall₂ _ (threadsAfter cfg s.threads (lineCalls env p s.world))
    (threadsAfter cfg s'.threads (lineCalls env' p s'.world))
  rw [← threads_seen env, ← threads_seen env', hcalls]
  exact threads_together cfg hv.ready hstill

/-- A thread in a list of threads that go together. -/
theorem forall₂_split {xs ys ts' : List (CommandProg Unit)} {p : CommandProg Unit}
    (h : List.Forall₂ (Together (Matched k) Eq) (xs ++ p :: ys) ts') :
    ∃ xs' p' ys', ts' = xs' ++ p' :: ys' ∧ xs'.length = xs.length ∧
      Together (Matched k) Eq p p' ∧ ∀ qs qs', List.Forall₂ (Together (Matched k) Eq) qs qs' →
        List.Forall₂ (Together (Matched k) Eq) (xs ++ (qs ++ ys)) (xs' ++ (qs' ++ ys')) := by
  induction xs generalizing ts' with
  | nil =>
      cases h with
      | @cons _ p' _ ys' hp hys =>
          exact ⟨[], p', ys', rfl, rfl, hp, fun qs qs' hqs => List.rel_append hqs hys⟩
  | cons x xs ih =>
      cases h with
      | @cons _ x' _ ts' hx hts =>
          obtain ⟨xs', p', ys', hts', hlength, hp, hrest⟩ := ih hts
          subst hts'
          refine ⟨x' :: xs', p', ys', rfl, congrArg (· + 1) hlength, hp, fun qs qs' hqs => ?_⟩
          exact .cons hx (hrest qs qs' hqs)

/-- An operation of a thread of one session is one of the other. -/
theorem Side.serves {o o' : CommandOp} {V : o.Res → o'.Res → Prop} (h : Side k s s') (env : Env)
    (hop : Matched k o o' V) : ∃ env',
      V (serveCommand env o s.world).1 (serveCommand env' o' s'.world).1 ∧
      Alike k s.world.replies s'.world.replies
        ((serveCommand env o s.world).2, (seeCommand o (serveCommand env o s.world).1).toList)
        ((serveCommand env' o' s'.world).2,
          (seeCommand o' (serveCommand env' o' s'.world).1).toList) := by
  have hserve : serveCommand (fun _ => env s.world.clock) o s.world = serveCommand env o s.world :=
    congrFun (congrFun (timed_serveCommand env) o) s.world
  obtain ⟨r', v', ⟨answer, hanswer⟩, hV, hv⟩ := lockstep_matched (Known.Le.refl k) o o' V hop
    (s.world, []) (s'.world, []) _ _ h.alike ⟨env s.world.clock, rfl⟩
  have hres : (serveCommand (fun _ => answer) o' s'.world).1 = r' := congrArg Prod.fst hanswer
  have hbehind : ((serveCommand (fun _ => answer) o' s'.world).2,
      [] ++ (seeCommand o' (serveCommand (fun _ => answer) o' s'.world).1).toList) = v' :=
    congrArg Prod.snd hanswer
  subst hres hbehind
  refine ⟨fun _ => answer, ?_, ?_⟩
  · rw [← hserve]
    exact hV
  · rw [← hserve]
    exact hv

/-- The session behind an operation of a thread. -/
theorem Side.served {w w' : World} {cs : List Call} {ts ts' : List (CommandProg Unit)}
    (h : Side k s s')
    (hv : Alike k s.world.replies s'.world.replies (w, cs) (w', cs))
    (hthreads : List.Forall₂ (Together (Matched k) Eq) ts ts') :
    Side k { s with world := w, threads := ts } { s' with world := w', threads := ts' } :=
  ⟨hv.vfs, hv.client, hthreads, h.opened⟩

/-- **The end of a transfer** in one session is one in the other. -/
theorem Side.ends {env : Env} {w' : World} (h : Side k s s')
    (hrun : run (serveCommand env) endTransfer s.world = .done () w') : ∃ env' v',
    run (serveCommand env') endTransfer s'.world = .done () v' ∧
      Alike k s.world.replies s'.world.replies
        (w', trace (serveCommand env) seeCommand endTransfer s.world)
        (v', trace (serveCommand env') seeCommand endTransfer s'.world) := by
  have hpaired : Paired (someAnswer watchCommand) (Alike k s.world.replies s'.world.replies)
      endTransfer endTransfer fun a b v v' =>
        a = b ∧ Alike k s.world.replies s'.world.replies v v' :=
    paired_of_together (together_resetDataConnection false) fun _ _ hs => hs
  rw [← timed_serveCommand] at hrun
  obtain ⟨env', u, v', hrun', -, hv⟩ := hpaired.exists_run serveCommand_readsOnce h.alike hrun
  rw [timed_serveCommand] at hrun' hv
  rw [timed_serveCommand] at hv
  exact ⟨env', v', hrun', hv⟩

/-- **One step** of a session is one of the other. -/
theorem Side.step (h : Side k s s') (hstep : Shown cfg s seen t) :
    ∃ k' t', k.Le k' ∧ Shown cfg s' seen t' ∧ Side k' t t' := by
  cases hstep with
  | line env text hopened hrun =>
      exact shown_line (h.opened.trans hopened) h.threads (goes_dispatch cfg _ _ _ _) h.alike hrun
  | hangUp hopened =>
      have hshown : Shown cfg s' _ _ := .hangUp (h.opened.trans hopened)
      have hseen : seenOf .hangUp s'.world s'.world [] = seenOf .hangUp s.world s.world [] :=
        seenOf_beside h.alike _
      rw [hseen] at hshown
      exact ⟨k, _, Known.Le.refl k, hshown, h.vfs, h.client, h.threads, rfl⟩
  | @op xs ys o f env hthreads =>
      have hall := h.threads
      rw [hthreads] at hall
      obtain ⟨xs', p', ys', hthreads', hlength, hp, hrest⟩ := forall₂_split hall
      cases hp with
      | @call _ o' V _ f' hop hf =>
          obtain ⟨env', hV, hv⟩ := h.serves env hop
          have hshown : Shown cfg s' _ _ := .op env' hthreads'
          have hcalls := hv.calls
          rw [hlength, seenOf_beside hv] at hshown
          dsimp only at hcalls
          rw [hcalls] at hv
          exact ⟨k, _, Known.Le.refl k, hshown, h.served hv (hrest _ _ (.cons (hf _ _ hV) .nil))⟩
  | @poll xs ys o again f env hthreads hagain =>
      have hall := h.threads
      rw [hthreads] at hall
      obtain ⟨xs', p', ys', hthreads', hlength, hp, hrest⟩ := forall₂_split hall
      cases hp with
      | @poll _ o' V _ again' _ f' hop hsame hf =>
          obtain ⟨env', hV, hv⟩ := h.serves env hop
          have hshown : Shown cfg s' _ _ := .poll env' hthreads' ((hsame _ _ hV).symm.trans hagain)
          have hcalls := hv.calls
          rw [hlength, seenOf_beside hv] at hshown
          dsimp only at hcalls
          rw [hcalls] at hv
          exact ⟨k, _, Known.Le.refl k, hshown, h.served hv (hrest _ _ (.cons (hf _ _ hV) .nil))⟩
  | @ends xs ys w' env hthreads hrun =>
      have hall := h.threads
      rw [hthreads] at hall
      obtain ⟨xs', p', ys', hthreads', hlength, hp, hrest⟩ := forall₂_split hall
      cases hp with
      | ret _ =>
          obtain ⟨env', v', hrun', hv⟩ := h.ends hrun
          have hshown : Shown cfg s' _ _ := .ends env' hthreads' hrun'
          have hcalls := hv.calls
          rw [hlength, seenOf_beside hv] at hshown
          dsimp only at hcalls
          rw [hcalls] at hv
          exact ⟨k, _, Known.Le.refl k, hshown, h.served hv (hrest [] [] .nil)⟩
  | others db hcounter =>
      have hshown : Shown cfg s' _ _ :=
        .others { db with transaction_counter := s'.world.db.transaction_counter } (Nat.le_refl _)
      have hv : Alike k s.world.replies s'.world.replies ({ s.world with db }, [])
          ({ s'.world with db := { db with
            transaction_counter := s'.world.db.transaction_counter } }, []) :=
        ⟨rfl, h.client, h.alike.replies, rfl, h.alike.ready⟩
      rw [seenOf_beside hv] at hshown
      exact ⟨k, _, Known.Le.refl k, hshown, rfl, h.client, h.threads, h.opened⟩

/-- **Whatever is seen** of one session can be seen of the other. -/
theorem Side.shows {obs : List Seen} (h : Side k s s') (hshows : Shows cfg s obs t) :
    ∃ t', Shows cfg s' obs t' := by
  induction hshows generalizing s' k with
  | nil s => exact ⟨s', .nil s'⟩
  | cons hstep _ ih =>
      obtain ⟨k', u', -, hshown, hside⟩ := h.step hstep
      obtain ⟨t', hrest⟩ := ih hside
      exact ⟨t', .cons hshown hrest⟩

/-! ### What a history leaves -/

/-- The fields of the client entry that two histories leave alike. -/
structure SameLeftovers (c c' : Client) : Prop where
  RestartAt : c'.CurrentTransfer.RestartAt = c.CurrentTransfer.RestartAt
  eDataConnection : c'.eDataConnection = c.eDataConnection
  ulDataIp : c.eDataConnection = .port → c'.ulDataIp = c.ulDataIp
  usDataPort : c'.usDataPort = c.usDataPort
  DataSock : c'.DataSock = c.DataSock
  nPRET_CMD : c'.nPRET_CMD = c.nPRET_CMD
  llPRET_fid : c'.llPRET_fid = c.llPRET_fid
  SlaveInfo : c'.SlaveInfo = c.SlaveInfo

theorem SameLeftovers.symm {c c' : Client} (h : SameLeftovers c c') : SameLeftovers c' c where
  RestartAt := h.RestartAt.symm
  eDataConnection := h.eDataConnection.symm
  ulDataIp := fun hport => (h.ulDataIp (h.eDataConnection.symm.trans hport)).symm
  usDataPort := h.usDataPort.symm
  DataSock := h.DataSock.symm
  nPRET_CMD := h.nPRET_CMD.symm
  llPRET_fid := h.llPRET_fid.symm
  SlaveInfo := h.SlaveInfo.symm

/-- No transfer is in progress. -/
structure LiveSession.Idle (s : LiveSession) : Prop where
  threads : s.threads = []
  waiting : s.world.client.eStatus = .waiting
  unthreaded : s.world.client.CurrentTransfer.TransferThreadID = false

/-- The settings of a connection: its addresses, the tries at a password, `MODE` and `TYPE`. -/
structure SameSettings (c c' : Client) : Prop where
  nPasswordTries : c'.nPasswordTries = c.nPasswordTries
  eDataMode : c'.eDataMode = c.eDataMode
  eDataType : c'.eDataType = c.eDataType
  ulServerIP : c'.ulServerIP = c.ulServerIP
  ulClientIP : c'.ulClientIP = c.ulClientIP

theorem SameSettings.symm {c c' : Client} (h : SameSettings c c') : SameSettings c' c where
  nPasswordTries := h.nPasswordTries.symm
  eDataMode := h.eDataMode.symm
  eDataType := h.eDataType.symm
  ulServerIP := h.ulServerIP.symm
  ulClientIP := h.ulClientIP.symm

/-- Two sessions with no transfer in progress, the same settings and the same virtual file
system. -/
structure Comparable (s s' : LiveSession) : Prop where
  idle : s.Idle
  idle' : s'.Idle
  opened : s'.opened = s.opened
  settings : SameSettings s.world.client s'.world.client
  vfs : s'.world.db.vfs = s.world.db.vfs

theorem Comparable.symm (h : Comparable s s') : Comparable s' s :=
  ⟨h.idle', h.idle, h.opened.symm, h.settings.symm, h.vfs.symm⟩

/-- A client that is not logged in is in the root and renames nothing. -/
def Client.Fresh (c : Client) : Prop :=
  c.bIsLogged = false → c.szWorkingDir = ['/'] ∧ c.szRenameFromPath = []

/-- `USER` before its lookup. -/
def Client.leaves (c : Client) : Client := if c.bIsLogged then c.logOut else c

theorem Client.Fresh.leaves {c : Client} (h : c.Fresh) : c.leaves.bIsLogged = false ∧
    c.leaves.szWorkingDir = ['/'] ∧ c.leaves.szRenameFromPath = [] := by
  unfold Client.leaves
  by_cases hlogged : c.bIsLogged = true
  · rw [if_pos hlogged]
    exact ⟨rfl, rfl, rfl⟩
  · rw [if_neg hlogged]
    have hfree : c.bIsLogged = false := Bool.eq_false_of_not_eq_true hlogged
    exact ⟨hfree, h hfree⟩

/-- `LogOut` changes nothing that is left. -/
theorem SameLeftovers.leaves {c c' : Client} (h : SameLeftovers c c') :
    SameLeftovers c.leaves c'.leaves := by
  obtain ⟨hrestart, hconn, hip, hport, hsock, hpret, hfid, hslave⟩ := h
  unfold Client.leaves
  split_ifs <;> exact ⟨hrestart, hconn, hip, hport, hsock, hpret, hfid, hslave⟩

theorem SameSettings.leaves {c c' : Client} (h : SameSettings c c') :
    SameSettings c.leaves c'.leaves := by
  obtain ⟨htries, hmode, htype, hserver, hclient⟩ := h
  unfold Client.leaves
  split_ifs <;> exact ⟨htries, hmode, htype, hserver, hclient⟩

theorem Client.leaves_status (c : Client) : c.leaves.eStatus = c.eStatus ∧
    c.leaves.CurrentTransfer = c.CurrentTransfer := by
  unfold Client.leaves
  split_ifs <;> exact ⟨rfl, rfl⟩

/-- Two client entries but for the user. -/
def LikeButUser (c c' : Client) : Prop :=
  ∀ pUser, ({ c with pUser } : Client).Like {} { c' with pUser }

theorem likeButUser_of_leftovers {c c' : Client} (hleft : SameLeftovers c c')
    (hset : SameSettings c c') (hlogged : c'.bIsLogged = c.bIsLogged)
    (hdir : c'.szWorkingDir = c.szWorkingDir) (hfrom : c'.szRenameFromPath = c.szRenameFromPath)
    (hstatus : c'.eStatus = c.eStatus)
    (hthread : c'.CurrentTransfer.TransferThreadID = c.CurrentTransfer.TransferThreadID) :
    LikeButUser c c' := by
  intro pUser
  refine ⟨c'.toCommandState.unread, ⟨?_, fun h => ?_, fun h => ?_⟩, ?_⟩
  · intro hport
    exact hleft.ulDataIp (hport.resolve_left Bool.false_ne_true)
  · exact absurd h Bool.false_ne_true
  · exact absurd h Bool.false_ne_true
  · obtain ⟨hrestart, hconn, -, hport, hsock, hpret, hfid, hslave⟩ := hleft
    obtain ⟨htries, hmode, htype, hserver, hclient⟩ := hset
    obtain ⟨login, command, _, _⟩ := c
    obtain ⟨login', command', _, _⟩ := c'
    obtain ⟨_, _, _, _⟩ := login
    obtain ⟨_, _, _, _⟩ := login'
    obtain ⟨_, _, _, _, _, _, _, _, transfer, _, _, _, _⟩ := command
    obtain ⟨_, _, _, _, _, _, _, _, transfer', _, _, _, _⟩ := command'
    cases transfer
    cases transfer'
    dsimp only at *
    subst hrestart hconn hport hsock hpret hfid hslave htries hmode htype hserver hclient hlogged
      hdir hfrom hstatus hthread
    rfl

/-- A change of the login, in both sessions. -/
theorem paired_login {L N : Client → Client → Prop} {ready : TransferThread → Prop}
    {rs rs' : List Reply} {f : Client → Client} (hf : ∀ c c', L c c' → N (f c) (f c')) :
    Paired (someAnswer watchShell) (Beside L ready rs rs') (login f) (login f)
      fun _ _ => Beside N ready rs rs' := by
  refine Paired.op fun v v' hv r u hr => ?_
  obtain ⟨answer, hanswer⟩ := hr
  have hbehind : (watchShell answer (.login f) v).2 = u := congrArg Prod.snd hanswer
  subst hbehind
  exact ⟨(), _, ⟨answer, rfl⟩, hv.vfs, hf _ _ hv.client, hv.replies,
    congrArg (· ++ []) hv.calls, hv.ready_quiet rfl⟩

/-- **`USER`** makes two client entries alike. -/
theorem paired_user (rs rs' : List Reply) (szLogin : Text) :
    Paired (someAnswer watchShell)
      (Beside (fun c c' => LikeButUser c.leaves c'.leaves) (Known.Ready {}) rs rs')
      (dispatch cfg (some .user) (some szLogin)) (dispatch cfg (some .user) (some szLogin))
      fun a b v v' => b = a ∧ Onward {} rs rs' v v' := by
  have hsearch : Paired (someAnswer watchShell) (Beside LikeButUser (Known.Ready {}) rs rs')
      (command (searchUserFromLogin szLogin)) (command (searchUserFromLogin szLogin))
      fun a b v v' => a = b ∧ Beside LikeButUser (Known.Ready {}) rs rs' v v' := by
    have htogether : Together (Outer (Known.Ready {})) Eq (searchUserFromLogin szLogin)
        (searchUserFromLogin szLogin) :=
      (plain_searchUserFromLogin szLogin).together fun _ => outer_plain
    exact paired_command (htogether.paired lockstep_outer)
  have hselect : Paired (someAnswer watchShell) (Beside LikeButUser (Known.Ready {}) rs rs')
      (selectUser szLogin) (selectUser szLogin) fun a b v v' => b = a ∧ Onward {} rs rs' v v' := by
    refine hsearch.bind fun pUser pUser' => ?_
    intro v v' hv
    obtain ⟨hsame, hbeside⟩ := hv
    subst hsame
    have hchoose : Paired (someAnswer watchShell) (Beside LikeButUser (Known.Ready {}) rs rs')
        _ _ _ :=
      (paired_login fun c c' hc => hc pUser).bind fun _ _ => goesShell_chosen pUser rs rs'
    exact hchoose v v' hbeside
  have huser : Paired (someAnswer watchShell)
      (Beside (fun c c' => LikeButUser c.leaves c'.leaves) (Known.Ready {}) rs rs')
      (cmdUser (some szLogin)) (cmdUser (some szLogin)) fun a b v v' =>
        b = a ∧ Onward {} rs rs' v v' := by
    have hleave : Paired (someAnswer watchShell)
        (Beside (fun c c' => LikeButUser c.leaves c'.leaves) (Known.Ready {}) rs rs')
        (login Client.leaves) (login Client.leaves)
        fun _ _ => Beside LikeButUser (Known.Ready {}) rs rs' := paired_login fun _ _ hc => hc
    exact hleave.bind fun _ _ => hselect
  refine huser.bind fun a b => Paired.ret fun v v' hv => ⟨rfl, hv.2⟩

/-- **The `USER` of a new login** is one of both sessions. -/
theorem Comparable.user {text szLogin : Text} {env : Env} {w' : World} {next : Next}
    (h : Comparable s s') (hleft : SameLeftovers s.world.client s'.world.client)
    (hfresh : s.world.client.Fresh) (hfresh' : s'.world.client.Fresh)
    (htext : parseLine text = (some .user, some szLogin)) (hopened : s.opened = true)
    (hrun : run (serveShell env) (dispatch cfg (parseLine text).1 (parseLine text).2) s.world =
      .done next w') :
    ∃ k' t', Shown cfg s'
      (seenOf (.line text) s.world w' (trace (serveShell env) seeShell
        (dispatch cfg (parseLine text).1 (parseLine text).2) s.world)) t' ∧
      Side k' ⟨w', threadsAfter cfg s.threads
        (lineCalls env (dispatch cfg (parseLine text).1 (parseLine text).2) s.world),
        next = .continue⟩ t' := by
  have hlike : LikeButUser s.world.client.leaves s'.world.client.leaves := by
    obtain ⟨hlogged, hdir, hfrom⟩ := hfresh.leaves
    obtain ⟨hlogged', hdir', hfrom'⟩ := hfresh'.leaves
    obtain ⟨hstatus, htransfer⟩ := s.world.client.leaves_status
    obtain ⟨hstatus', htransfer'⟩ := s'.world.client.leaves_status
    apply likeButUser_of_leftovers hleft.leaves h.settings.leaves
    · rw [hlogged, hlogged']
    · rw [hdir, hdir']
    · rw [hfrom, hfrom']
    · rw [hstatus, hstatus', h.idle.waiting, h.idle'.waiting]
    · rw [htransfer, htransfer', h.idle.unthreaded, h.idle'.unthreaded]
  have hbeside : Beside (fun c c' => LikeButUser c.leaves c'.leaves) (Known.Ready {})
      s.world.replies s'.world.replies (s.world, []) (s'.world, []) :=
    ⟨h.vfs, hlike, ⟨[], (List.append_nil _).symm, (List.append_nil _).symm⟩, rfl,
      fun _ hmem => absurd hmem List.not_mem_nil⟩
  have hthreads : List.Forall₂ (Together (Matched {}) Eq) s.threads s'.threads := by
    rw [h.idle.threads, h.idle'.threads]
    exact .nil
  have hpaired : Paired (someAnswer watchShell)
      (Beside (fun c c' => LikeButUser c.leaves c'.leaves) (Known.Ready {}) s.world.replies
        s'.world.replies)
      (dispatch cfg (parseLine text).1 (parseLine text).2)
      (dispatch cfg (parseLine text).1 (parseLine text).2) fun a b v v' =>
        b = a ∧ Onward {} s.world.replies s'.world.replies v v' := by
    rw [htext]
    exact paired_user _ _ szLogin
  obtain ⟨k', t', -, hshown, hside⟩ :=
    shown_line (h.opened.trans hopened) hthreads hpaired hbeside hrun
  exact ⟨k', t', hshown, hside⟩

/-! ### A client that is not logged in -/

/-- **A line** leaves a client that is not logged in in the root. -/
theorem fresh_line {w w' : World} {env : Env} {nCmd : Option Cmd} {pszCmdArg : Option Text}
    {next : Next} (h : w.client.Fresh)
    (hrun : run (serveShell env) (dispatch cfg nCmd pszCmdArg) w = .done next w') :
    w'.client.Fresh := by
  intro hout
  have hlogin : ∀ {l : LoginState}, w'.client.toLoginState = l → l.bIsLogged = false ∧
      w'.client.szWorkingDir = l.szWorkingDir := by
    intro l hl
    rw [← hl]
    exact ⟨hout, rfl⟩
  cases turn_of_run hrun with
  | idle _ _ hkept hsame =>
      obtain ⟨hfree, hdir⟩ := hlogin hsame
      rw [(hkept hfree).2]
      exact h hfree
  | cwd _ hin _ hsame => exact absurd (hin.symm.trans (hlogin hsame).1) (by decide)
  | cdup _ hin hsame => exact absurd (hin.symm.trans (hlogin hsame).1) (by decide)
  | logout hsame =>
      obtain ⟨-, hdir⟩ := hlogin hsame
      rw [hdir, user_turn hrun]
      cases hlogged : w.client.bIsLogged with
      | true => exact ⟨rfl, rfl⟩
      | false => exact h hlogged
  | user pUser _ hsame =>
      obtain ⟨-, hdir⟩ := hlogin hsame
      rw [hdir, user_turn hrun]
      cases hlogged : w.client.bIsLogged with
      | true => exact ⟨rfl, rfl⟩
      | false => exact h hlogged
  | passIn _ hsame => exact absurd (hlogin hsame).1.symm Bool.false_ne_true
  | passOut _ hsame =>
      obtain ⟨hfree, hdir⟩ := hlogin hsame
      have hfrom := run_shell_same (dispatch_within cfg (some .pass) pszCmdArg)
        (show Part.rename ∉ partsOf (some .pass) by decide) env w
      rw [hrun] at hfrom
      have hpath : w'.client.szRenameFromPath = w.client.szRenameFromPath := hfrom
      rw [hdir, hpath]
      exact h hfree

/-- The client entry and the threads of a session. -/
structure FreshInv (s : LiveSession) : Prop where
  client : s.world.client.Fresh
  within : ∀ p ∈ s.threads, Every (Within bodyParts) p

/-- A change of the client entry that keeps the login and the rename source. -/
theorem Client.Fresh.kept {c c' : Client} (h : c.Fresh) (hlogin : c'.toLoginState = c.toLoginState)
    (hfrom : c'.szRenameFromPath = c.szRenameFromPath) : c'.Fresh := by
  intro hout
  have hfree : c.bIsLogged = false := by
    rw [← hout]
    exact (congrArg LoginState.bIsLogged hlogin).symm
  have hdir : c'.szWorkingDir = c.szWorkingDir := congrArg LoginState.szWorkingDir hlogin
  rw [hdir, hfrom]
  exact h hfree

theorem FreshInv.serves {p q : CommandProg Unit} {xs ys : List (CommandProg Unit)} {o : CommandOp}
    (h : FreshInv s) (env : Env) (hthreads : s.threads = xs ++ p :: ys)
    (hwithin : Every (Within bodyParts) p → Within bodyParts o ∧ Every (Within bodyParts) q) :
    FreshInv { s with world := (serveCommand env o s.world).2, threads := xs ++ q :: ys } := by
  have hp : p ∈ s.threads := by
    rw [hthreads]
    exact List.mem_append_right _ List.mem_cons_self
  obtain ⟨ho, hq⟩ := hwithin (h.within p hp)
  have hlogin : (serveCommand env o s.world).2.client.toLoginState =
      s.world.client.toLoginState := by
    cases o <;> rfl
  have hfrom : (serveCommand env o s.world).2.client.szRenameFromPath =
      s.world.client.szRenameFromPath :=
    serveCommand_same ho (show Part.rename ∉ bodyParts by decide) env s.world
  exact ⟨h.client.kept hlogin hfrom, forall_replaced h.within hthreads hq⟩

theorem FreshInv.step {who : Happening} {cs : List Call} (h : FreshInv s)
    (hstep : LiveStep cfg s who cs t) : FreshInv t := by
  cases hstep with
  | line env line _ hrun =>
      exact ⟨fresh_line h.client hrun, threadsAfter_within cfg h.within _⟩
  | hangUp _ => exact ⟨h.client, h.within⟩
  | op env hthreads => exact h.serves env hthreads fun hp => ⟨hp.1, hp.2 _⟩
  | poll env hthreads _ => exact h.serves env hthreads fun hp => ⟨hp.1, hp.2 _⟩
  | @ends xs ys w' env hthreads hrun =>
      have hreset : Does env (resetDataConnection false) s.world () w' _ := ⟨hrun, rfl⟩
      have hfrom : w'.client.szRenameFromPath = s.world.client.szRenameFromPath :=
        hreset.same (within_resetDataConnection false) (show Part.rename ∉ resetParts by decide)
      have hlogin : (run (serveCommand env) (resetDataConnection false)
          s.world).state.client.toLoginState = s.world.client.toLoginState :=
        run_command_login _ _ _
      rw [hreset.ends] at hlogin
      exact ⟨h.client.kept hlogin hfrom, forall_removed h.within hthreads⟩
  | others db _ => exact ⟨h.client, h.within⟩

theorem LiveRun.fresh {ok : LiveCondition} {sent : List Call} (h : LiveRun cfg ok s sent) :
    FreshInv s := by
  induction h with
  | @connect w hlogin hcommand =>
      refine ⟨fun _ => ⟨congrArg LoginState.szWorkingDir hlogin, ?_⟩, fun p hp => ?_⟩
      · exact congrArg CommandState.szRenameFromPath hcommand
      · exact absurd hp List.not_mem_nil
  | step _ hstep _ ih => exact ih.step hstep

/-! ### A new login -/

/-- A `USER` with a name comes first, and the client is logged in then or later. -/
def NewLogin (obs : List Seen) : Prop :=
  (∃ first rest text szLogin, obs = first :: rest ∧ first.move = .line text ∧
    parseLine text = (some .user, some szLogin)) ∧
  ∃ x ∈ obs, ∃ r ∈ x.replies, r.code = some 230

/-- A `USER` that needs no `PASS`. -/
theorem newLogin_user {first : Seen} {rest : List Seen} {text szLogin : Text} {r : Reply}
    (hmove : first.move = .line text) (htext : parseLine text = (some .user, some szLogin))
    (hr : r ∈ first.replies) (hcode : r.code = some 230) : NewLogin (first :: rest) :=
  ⟨⟨first, rest, text, szLogin, rfl, hmove, htext⟩, first, List.mem_cons_self, r, hr, hcode⟩

/-- **Two sessions that a login makes alike**: from it on, what can be seen of one can be seen of
the other. -/
def CleanLogin (cfg : Config) (s s' : LiveSession) : Prop :=
  ∀ obs, NewLogin obs → ((∃ t, Shows cfg s obs t) ↔ ∃ t, Shows cfg s' obs t)

/-- Whatever is seen of one session from a `USER` on can be seen of the other. -/
theorem Comparable.shows {obs : List Seen} (h : Comparable s s')
    (hleft : SameLeftovers s.world.client s'.world.client) (hfresh : s.world.client.Fresh)
    (hfresh' : s'.world.client.Fresh) (hobs : NewLogin obs) (hshows : Shows cfg s obs t) :
    ∃ t', Shows cfg s' obs t' := by
  obtain ⟨⟨first, rest, text, szLogin, hsplit, hmove, htext⟩, -⟩ := hobs
  rw [hsplit] at hshows ⊢
  cases hshows with
  | cons hstep hrest =>
      cases hstep with
      | line env text' hopened hrun =>
          have hsame : text' = text := Motion.line.inj hmove
          rw [← hsame] at htext
          obtain ⟨k', u', hshown, hside⟩ := h.user hleft hfresh hfresh' htext hopened hrun
          obtain ⟨t', hshows'⟩ := hside.shows hrest
          exact ⟨t', .cons hshown hshows'⟩
      | hangUp _ => cases hmove
      | op _ _ => cases hmove
      | poll _ _ _ => cases hmove
      | ends _ _ _ => cases hmove
      | others _ _ => cases hmove

/-- **A new login starts clean** behind two histories that leave the same. -/
theorem login_clean {ok ok' : LiveCondition} {sent sent' : List Call} (h : LiveRun cfg ok s sent)
    (h' : LiveRun cfg ok' s' sent') (hcomp : Comparable s s')
    (hleft : SameLeftovers s.world.client s'.world.client) : CleanLogin cfg s s' := by
  intro obs hobs
  constructor
  · intro hshows
    obtain ⟨t, ht⟩ := hshows
    exact hcomp.shows hleft h.fresh.client h'.fresh.client hobs ht
  · intro hshows
    obtain ⟨t, ht⟩ := hshows
    exact hcomp.symm.shows hleft.symm h'.fresh.client h.fresh.client hobs ht

/-! ### A rename source, and a `PRET` -/

/-- After `RNFR /a`. -/
def renamingWorld : World :=
  { guestWorld twoFiles with
    client := { (guestWorld twoFiles).client with szRenameFromPath := "/a".toList }
    replies := (guestWorld twoFiles).replies ++
      [.line 350 "File or directory exists, ready for destination name."] }

theorem rnfr_a : Does .willing (shellCmd {} .rnfr (some "/a".toList)) (guestWorld twoFiles) ()
    renamingWorld [] := by
  constructor
  · show run _ (redis (cmdRnfr (Client.buildPath _ (some "/a".toList)) _) >>= _) _ = _
    rw [guest_a rfl]
    rfl
  · show trace _ _ (redis (cmdRnfr (Client.buildPath _ (some "/a".toList)) _) >>= _) _ = _
    rw [guest_a rfl]
    rfl

/-- A rename source of the user before is forgotten. -/
theorem login_clean_rename :
    CleanLogin {} ⟨guestWorld twoFiles, [], true⟩ ⟨renamingWorld, [], true⟩ := by
  have hguest : LiveRun {} (fun _ _ _ _ => True) ⟨guestWorld twoFiles, [], true⟩ [] :=
    liveRun_guest _ fun _ _ _ _ => trivial
  have hrename := hguest.command "RNFR /a".toList (by decide) (by decide) rfl rnfr_a trivial
  refine login_clean hguest hrename ?_ ?_
  · exact ⟨⟨rfl, rfl, rfl⟩, ⟨rfl, rfl, rfl⟩, rfl, ⟨rfl, rfl, rfl, rfl, rfl⟩, rfl⟩
  · exact ⟨rfl, rfl, fun _ => rfl, rfl, rfl, rfl, rfl, rfl⟩

/-- A noted call is seen. -/
theorem seen_of_noted {α : Type} {env : Env} {p : ShellProg α} {w : World} {c : Call}
    (h : c ∈ lineCalls env p w) : c.anonymous ∈ trace (serveShell env) seeShell p w := by
  have hop : ∀ (o : ShellOp) (r : o.Res), c ∈ (noteShell o r).toList →
      c.anonymous ∈ (seeShell o r).toList := by
    intro o r hc
    have hnote := Option.mem_toList.1 hc
    cases o with
    | login f => cases hnote
    | command o =>
        have hsys : o = .sys c.op := op_of_note hnote
        subst hsys
        have hnoted : noteSys c.op r = some c := hnote
        rw [noteSys] at hnoted
        split_ifs at hnoted
        have hcall : (⟨c.op, r⟩ : Call) = c := Option.some.inj hnoted
        apply Option.mem_toList.2
        show some (Call.anonymous ⟨c.op, r⟩) = some c.anonymous
        rw [hcall]
  unfold lineCalls at h
  induction p generalizing w with
  | ret a => exact absurd h (by simp)
  | stop why => exact absurd h (by simp)
  | call o k ih =>
      rw [trace_call, List.mem_append] at h ⊢
      exact h.imp (hop o _) (ih _)
  | poll o again k ih =>
      rw [trace, List.mem_append] at h ⊢
      refine h.imp (hop o _) fun hrest => ?_
      by_cases hagain : again (serveShell env o w).1 = true
      · rw [if_pos hagain] at hrest
        exact absurd hrest List.not_mem_nil
      · rw [if_neg hagain] at hrest ⊢
        exact ih _ hrest

/-- A line that is shown. -/
theorem Shown.of_line {text : Text} (h : Shown cfg s seen t) (hmove : seen.move = .line text) :
    ∃ env next, run (serveShell env) (dispatch cfg (parseLine text).1 (parseLine text).2) s.world =
        .done next t.world ∧
      seen.replies = t.world.replies.drop s.world.replies.length ∧
      seen.calls = trace (serveShell env) seeShell
        (dispatch cfg (parseLine text).1 (parseLine text).2) s.world := by
  cases h with
  | line env text' _ hrun =>
      have hsame : text' = text := Motion.line.inj hmove
      subst hsame
      exact ⟨env, _, hrun, rfl, rfl⟩
  | hangUp _ => cases hmove
  | op _ _ => cases hmove
  | poll _ _ _ => cases hmove
  | ends _ _ _ => cases hmove
  | others _ _ => cases hmove

/-- A `PASV` behind a `PRET` is refused, or goes to a slave. -/
theorem pasv_shown {cmd : PretCmd} (hpret : s.world.client.nPRET_CMD = some cmd)
    (hwait : s.world.client.eStatus = .waiting) (h : Shown cfg s seen t)
    (hmove : seen.move = .line "PASV".toList) :
    seen.replies = [.line 530 "Please login with USER and PASS."] ∨
      ∃ c ∈ seen.calls, c.op.part = some .init := by
  obtain ⟨env, next, hrun, hreplies, hcalls⟩ := h.of_line hmove
  have htext : parseLine "PASV".toList = (some .pasv, none) := by decide
  rw [htext] at hrun hcalls
  dsimp only at hrun hcalls
  cases hlogged : s.world.client.bIsLogged with
  | false =>
      left
      rw [hreplies, gate_line (by decide) (by decide) (by decide) hlogged hrun, List.drop_left]
  | true =>
      right
      have hdoes := does_of_dispatch (by decide) hlogged hrun
      rcases pasv_does hdoes with ⟨hbusy, -⟩ | ⟨-, ⟨hnone, -⟩ | ⟨cmd', -, hinit⟩⟩
      · exact absurd hwait hbusy
      · rw [hnone] at hpret
        cases hpret
      · have hseen : ∀ c ∈ lineCalls env (dispatch cfg (some .pasv) none) s.world,
            c.anonymous ∈ seen.calls := by
          intro c hc
          rw [hcalls]
          exact seen_of_noted hc
        generalize lineCalls env (dispatch cfg (some .pasv) none) s.world = cs at hinit hseen
        cases hinit with
        | init slave answer _ _ _ _ => exact ⟨_, hseen _ (List.mem_singleton_self _), rfl⟩

/-- The guest logs in again. -/
def guestAgain : World :=
  { guestWorld twoFiles with
    replies := (guestWorld twoFiles).replies ++ [.line 230 "User Logged In."]
    clock := 2 }

theorem run_guest_again : run (serveShell .willing)
    (dispatch {} (some .user) (some "guest".toList)) (guestWorld twoFiles) =
      .done .continue guestAgain := rfl

/-- `PASV` of a session without a `PRET` opens a port of the metaserver. -/
theorem guest_pasv : ∃ w', run (serveShell .willing) (dispatch {} (some .pasv) none) guestAgain =
    .done .continue w' ∧
      w'.replies.drop guestAgain.replies.length ≠ [.line 530 "Please login with USER and PASS."] ∧
      ∀ c ∈ trace (serveShell .willing) seeShell (dispatch {} (some .pasv) none) guestAgain,
        c.op.part ≠ some .init :=
  ⟨_, rfl, by decide, by decide⟩

/-- **A `PRET` of the user before** sends the `PASV` of the next one to a slave. -/
theorem login_inherits : ¬ ∀ cfg s sent s' sent', LiveRun cfg (fun _ _ _ _ => True) s sent →
    LiveRun cfg (fun _ _ _ _ => True) s' sent' → Comparable s s' → CleanLogin cfg s s' := by
  intro hall
  have huser : parseLine "USER guest".toList = (some .user, some "guest".toList) := by decide
  have hpasv : parseLine "PASV".toList = (some .pasv, none) := by decide
  have hguest : LiveRun {} (fun _ _ _ _ => True) ⟨guestWorld twoFiles, [], true⟩ [] :=
    liveRun_guest _ fun _ _ _ _ => trivial
  have hpret := hguest.command "PRET RETR /a".toList (by decide) (by decide) rfl pret_a trivial
  have hcomp : Comparable ⟨pretWorld (guestWorld twoFiles) 1, [], true⟩
      ⟨guestWorld twoFiles, [], true⟩ :=
    ⟨⟨rfl, rfl, rfl⟩, ⟨rfl, rfl, rfl⟩, rfl, ⟨rfl, rfl, rfl, rfl, rfl⟩, rfl⟩
  have hclean := hall {} _ _ _ _ hpret hguest hcomp
  -- what is seen without the `PRET`
  obtain ⟨w', hrun, hanswered, hlocal⟩ := guest_pasv
  have h₁ : Shown {} ⟨guestWorld twoFiles, [], true⟩ _ _ := .line .willing "USER guest".toList rfl
    (by rw [huser]; exact run_guest_again)
  have hquiet : lineCalls .willing (dispatch {} (some .user) (some "guest".toList))
      (guestWorld twoFiles) = [] := rfl
  rw [huser] at h₁
  dsimp only at h₁
  rw [hquiet] at h₁
  have h₂ : Shown {} ⟨guestAgain, [], true⟩ _ _ := .line .willing "PASV".toList rfl
    (by rw [hpasv]; exact hrun)
  rw [hpasv] at h₂
  have hshows : ∃ t, Shows {} ⟨guestWorld twoFiles, [], true⟩ [_, _] t :=
    ⟨_, .cons h₁ (.cons h₂ (.nil _))⟩
  have hsame : NewLogin _ → _ := fun hlogin => (hclean _ hlogin).mpr hshows
  have hreply : Reply.line 230 "User Logged In." ∈ [Reply.line 230 "User Logged In."] :=
    List.mem_singleton_self _
  obtain ⟨t, ht⟩ := hsame (newLogin_user rfl huser hreply rfl)
  -- what is seen with it
  cases ht with
  | @cons _ u _ _ _ husered hrest =>
      cases hrest with
      | @cons _ v _ _ _ hpassive _ =>
          obtain ⟨env, next, hlogin, -, -⟩ := husered.of_line rfl
          rw [huser] at hlogin
          have hkept : u.world.client.nPRET_CMD = some .retr := by
            have hsame := run_shell_same (dispatch_within {} (some .user) (some "guest".toList))
              (show Part.pret ∉ partsOf (some .user) by decide) env
              (pretWorld (guestWorld twoFiles) 1)
            rw [hlogin] at hsame
            exact hsame.1
          have hwait : u.world.client.eStatus = .waiting := by
            have hsame := run_shell_same (dispatch_within {} (some .user) (some "guest".toList))
              (show Part.status ∉ partsOf (some .user) by decide) env
              (pretWorld (guestWorld twoFiles) 1)
            rw [hlogin] at hsame
            exact hsame
          rcases pasv_shown hkept hwait hpassive rfl with hrefused | ⟨c, hc, hinit⟩
          · exact hanswered hrefused
          · exact hlocal c hc hinit

end ClusterFtpd
