import ClusterFtpd.Transactions

/-!
# Which `PASV` a `PRET` is for

`PRET` says which transfer the next `PASV` is for, and `PASV` opens its data socket on a slave if
there was one.  A `PRET` is for one transfer: it is over when the transfer is, when another user logs
in, and when a later `PRET` comes.  The client entry does not know this.  `nPRET_CMD` is written by
every `PRET` that has an argument, before the argument is looked at, and by nothing else.

Main results:

* `pasv_right_iff`: every `PASV` of a session is right if and only if none of them finds a `PRET`
  that is over;
* `pasv_after_transfer`: the `PASV` behind a finished download still goes to the slave.
-/

namespace ClusterFtpd

open Interaction MachineInt

/-! ### What has been asked for -/

/-- The command a `PRET` names. -/
def namedCmd (pszCmdArg : Option Text) : Option PretCmd :=
  pszCmdArg.bind fun arg => pretCmd (scanWord arg).1

/-- The code of the last reply. -/
def World.lastCode (w : World) : Option ℕ := w.replies.getLast?.bind Reply.code

/-- The `PRET` that is pending, and the last one that had an argument. -/
structure Asked where
  pending : Option PretCmd := none
  last : Option PretCmd := none

/-- A line logs a user in. -/
def BeginsLogin (nCmd : Option Cmd) (w w' : World) : Prop :=
  w'.client.bIsLogged = true ∧ (nCmd = some .user ∨ w.client.bIsLogged = false)

instance (nCmd : Option Cmd) (w w' : World) : Decidable (BeginsLogin nCmd w w') :=
  inferInstanceAs (Decidable (_ ∧ _))

/-- The calls of a line take a transfer thread away. -/
def cancels (cs : List Call) : Bool := cs.any fun c => c.op.part = some .cancel

/-- What a line makes of it. -/
def Asked.afterLine (asked : Asked) (nCmd : Option Cmd) (pszCmdArg : Option Text) (w w' : World)
    (cs : List Call) : Asked :=
  if nCmd = some .pret then
    { pending := if w'.lastCode = some 200 then namedCmd pszCmdArg else none
      last := if w.client.bIsLogged ∧ pszCmdArg.isSome then namedCmd pszCmdArg else asked.last }
  else if BeginsLogin nCmd w w' ∨ cancels cs then { asked with pending := none }
  else asked

/-- What another step makes of it: a transfer thread that ends takes its `PRET` along. -/
def Asked.afterStep (asked : Asked) (s s' : LiveSession) : Asked :=
  if s'.threads.length < s.threads.length then { asked with pending := none } else asked

/-! ### The `PASV`s of a session -/

/-- A `PASV`: what has been asked for, and the worlds before and after it. -/
structure PasvLine where
  env : Env
  pszCmdArg : Option Text
  asked : Asked
  before : World
  after : World

/-- The runs of a session, with what has been asked for and every `PASV` received. -/
inductive PretRun (cfg : Config) : LiveSession → Asked → List PasvLine → Prop where
  | connect {w : World} : w.client.toLoginState = {} → w.client.toCommandState = {} →
      PretRun cfg ⟨w, [], true⟩ {} []
  | line {s : LiveSession} {asked : Asked} {ls : List PasvLine} {w' : World} {next : Next}
      (env : Env) (line : Text) : PretRun cfg s asked ls → s.opened = true →
      run (serveShell env) (dispatch cfg (parseLine line).1 (parseLine line).2) s.world =
        .done next w' →
      PretRun cfg
        ⟨w', threadsAfter cfg s.threads
          (lineCalls env (dispatch cfg (parseLine line).1 (parseLine line).2) s.world),
          next = .continue⟩
        (asked.afterLine (parseLine line).1 (parseLine line).2 s.world w'
          (lineCalls env (dispatch cfg (parseLine line).1 (parseLine line).2) s.world))
        (ls ++ if (parseLine line).1 = some .pasv then
          [⟨env, (parseLine line).2, asked, s.world, w'⟩] else [])
  | other {s s' : LiveSession} {asked : Asked} {ls : List PasvLine} {who : Happening}
      {cs : List Call} : PretRun cfg s asked ls → (∀ nCmd, who ≠ .line nCmd) →
      LiveStep cfg s who cs s' → PretRun cfg s' (asked.afterStep s s') ls

/-- The calls of `socket`. -/
def noteSocket : (o : ShellOp) → o.Res → Option (Option ℕ)
  | .command (.sys .socket), r => some r
  | _, _ => none

/-- The path of a listing, behind its options. -/
def listArg (pszCmdArg : Option Text) : Option Text :=
  pszCmdArg.map fun arg => (scanOptions .dash {} arg).2

/-- The client comes to the data socket, and the thread is started. -/
structure Comes (env : Env) : Prop where
  setsockopt : ∀ n fd, env n (.setsockopt fd) = true
  select : ∀ n fd, env n (.select fd) = true
  accept : ∀ n fd, (env n (.accept fd)).isSome = true
  pthread_create : ∀ n thread, env n (.pthread_create thread) = true

/-- Every listing of something that is there reaches a client that comes: a thread is started that
writes it to the connection that was accepted. -/
def DeliversListings (cfg : Config) (w : World) : Prop :=
  ∀ env nCmd pszCmdArg path st, Comes env → nCmd = Cmd.list ∨ nCmd = .nlst →
    w.client.checkPrivileges LIST = true → w.client.buildPath (listArg pszCmdArg) = some path →
    ask (stat path) w.db = some (some st) →
    ∃ w', run (serveShell env) (dispatch cfg (some nCmd) pszCmdArg) w = .done .continue w' ∧
      w'.client.eStatus = .listing ∧ w'.client.CurrentTransfer.SockList = .data ∧
      w'.client.DataSock.isSome = true ∧ lineCalls env (dispatch cfg (some nCmd) pszCmdArg) w =
        [⟨.pthread_create .list, true⟩]

namespace PasvLine

variable (cfg : Config) (l : PasvLine)

/-- It is not refused. -/
def CarriedOut : Prop := l.before.client.bIsLogged = true ∧ l.before.client.eStatus = .waiting

/-- It asks a slave for a data socket. -/
def Delegated : Prop :=
  ∃ c ∈ lineCalls l.env (dispatch cfg (some .pasv) l.pszCmdArg) l.before, c.op.part = some .init

/-- It opens a data socket of the metaserver. -/
def OpensHere : Prop :=
  trace (serveShell l.env) noteSocket (dispatch cfg (some .pasv) l.pszCmdArg) l.before ≠ []

/-- It goes to a slave if a `PRET` is pending, and else the metaserver opens the data socket, and
delivers listings through it. -/
structure Right : Prop where
  delegated : l.Delegated cfg ↔ l.CarriedOut ∧ l.asked.pending ≠ none
  here : l.OpensHere cfg ↔ l.CarriedOut ∧ l.asked.pending = none
  delivers : l.CarriedOut → l.asked.pending = none → l.after.client.eDataConnection = .pasv →
    DeliversListings cfg l.after

end PasvLine

variable {cfg : Config} {env : Env} {s s' : LiveSession} {w w' : World} {asked : Asked}
  {ls : List PasvLine} {cs : List Call}

/-! ### What the client entry remembers -/

/-- The client entry remembers the last `PRET` that had an argument, and the transfer threads leave
this alone. -/
structure Remembers (s : LiveSession) (asked : Asked) : Prop where
  last : s.world.client.nPRET_CMD = asked.last
  pending : asked.pending ≠ none → asked.pending = asked.last
  threads : ∀ p ∈ s.threads, Every (Within bodyParts) p

theorem threadsAfter_within (cfg : Config) {ts : List (CommandProg Unit)}
    (h : ∀ p ∈ ts, Every (Within bodyParts) p) (cs : List Call) :
    ∀ p ∈ threadsAfter cfg ts cs, Every (Within bodyParts) p :=
  threadsAfter_forall (body_within cfg) h cs

theorem lastCode_reply (w : World) (r : Reply) :
    World.lastCode { w with replies := w.replies ++ [r] } = r.code := by
  rw [World.lastCode, List.getLast?_concat]
  rfl

/-- `PRET` with an argument remembers what it names. -/
theorem pret_remembers {arg : Text} {u : Unit} (h : Does env (cmdPret arg) w u w' cs) :
    w'.client.nPRET_CMD = pretCmd (scanWord arg).1 := by
  unfold cmdPret at h
  generalize scanWord arg = word at h ⊢
  obtain ⟨cmd, rest⟩ := word
  dsimp only at h ⊢
  generalize scanWord rest = word at h
  obtain ⟨file, tail⟩ := word
  have h₁ : Does env (if _ then _ else _) w u w' cs := h
  by_cases hbad : cmd = [] ∨ 4 < cmd.length ∨ MAX_PATH < file.length
  · rw [if_pos hbad] at h₁
    exact h₁.of_stop.elim
  · rw [if_neg hbad] at h₁
    have h₂ : Does env (if _ then _ else _) _ u w' cs := h₁.of_modify
    by_cases hnamed : pretCmd cmd = some .retr ∨ pretCmd cmd = some .appe
    · rw [if_pos hnamed] at h₂
      by_cases hfile : file = []
      · rw [if_pos hfile] at h₂
        exact h₂.of_stop.elim
      · rw [if_neg hfile] at h₂
        obtain ⟨found, w₁, cs₁, cs₂, hstat, h₃, rfl⟩ := h₂.of_client.of_bind
        have hpret : _ ∧ _ := hstat.same (within_statPath _) (show Part.pret ∉ [] by simp)
        cases found with
        | none =>
            obtain ⟨rfl, -⟩ := h₃.of_reply
            exact hpret.1
        | some a =>
            have h₄ : Does env (if _ then _ else _) w₁ u w' cs₂ := h₃
            by_cases hreg : S_ISREG a.2.st_mode = true
            · rw [if_pos hreg] at h₄
              obtain ⟨fid, w₂, cs₃, cs₄, hfid, h₅, rfl⟩ := h₄.of_bind
              have hpret' : _ ∧ _ := hfid.same (within_redis_of_reads (reads_lookupFid _))
                (show Part.pret ∉ [] by simp)
              have h₆ : Does env (if _ then _ else _) _ u w' cs₄ := h₅.of_modify
              have hsame : w₂.client.nPRET_CMD = pretCmd cmd := hpret'.1.trans hpret.1
              by_cases hneg : 0 ≤ fid
              · rw [if_pos hneg] at h₆
                obtain ⟨rfl, -⟩ := h₆.of_reply
                exact hsame
              · rw [if_neg hneg] at h₆
                obtain ⟨rfl, -⟩ := h₆.of_reply
                exact hsame
            · rw [if_neg hreg] at h₄
              obtain ⟨rfl, -⟩ := h₄.of_reply
              exact hpret.1
    · rw [if_neg hnamed] at h₂
      obtain ⟨rfl, -⟩ := h₂.of_reply
      rfl

/-- What a `PRET` makes of it. -/
theorem Remembers.pret {pszCmdArg : Option Text} {next : Next} (h : Remembers s asked)
    (cs : List Call)
    (hrun : run (serveShell env) (dispatch cfg (some .pret) pszCmdArg) s.world = .done next w') :
    w'.client.nPRET_CMD = (asked.afterLine (some .pret) pszCmdArg s.world w' cs).last ∧
      ((asked.afterLine (some .pret) pszCmdArg s.world w' cs).pending ≠ none →
        (asked.afterLine (some .pret) pszCmdArg s.world w' cs).pending =
          (asked.afterLine (some .pret) pszCmdArg s.world w' cs).last) := by
  rw [Asked.afterLine, if_pos rfl]
  cases hlogged : s.world.client.bIsLogged with
  | false =>
      rw [dispatch_gate (by simp) (by simp) (by simp), run_command_client_bind, hlogged,
        if_neg (by simp)] at hrun
      have hend : w' = _ := (Outcome.done.inj hrun).2.symm
      have hcode : w'.lastCode = some 530 := by
        rw [hend]
        exact lastCode_reply _ _
      rw [hcode, hend]
      exact ⟨h.last, fun hne => absurd rfl hne⟩
  | true =>
      have hdoes := does_of_dispatch (by simp) hlogged hrun
      obtain harg | ⟨arg, harg⟩ := Option.eq_none_or_eq_some pszCmdArg
      · subst harg
        obtain ⟨rfl, -⟩ := hdoes.of_reply
        rw [lastCode_reply]
        exact ⟨h.last, fun hne => absurd rfl hne⟩
      · subst harg
        have hpret := pret_remembers hdoes
        refine ⟨hpret, ?_⟩
        by_cases hcode : w'.lastCode = some 200
        · intro _
          rw [if_pos hcode]
          rfl
        · intro hne
          rw [if_neg hcode] at hne
          exact absurd rfl hne

theorem pret_notMem_parts {nCmd : Option Cmd} (h : nCmd ≠ some .pret) :
    Part.pret ∉ partsOf nCmd := by
  cases nCmd with
  | none => simp [partsOf]
  | some cmd =>
      rw [Ne, Option.some.injEq] at h
      show Part.pret ∉ cmd.parts
      cases cmd <;> simp_all [Cmd.parts, resetParts]

theorem Asked.afterLine_of_ne {nCmd : Option Cmd} {pszCmdArg : Option Text} (h : nCmd ≠ some .pret)
    (asked : Asked) (w w' : World) (cs : List Call) :
    asked.afterLine nCmd pszCmdArg w w' cs = asked ∨
      asked.afterLine nCmd pszCmdArg w w' cs = { asked with pending := none } := by
  rw [Asked.afterLine, if_neg h]
  by_cases hover : BeginsLogin nCmd w w' ∨ cancels cs = true
  · rw [if_pos hover]
    exact .inr rfl
  · rw [if_neg hover]
    exact .inl rfl

theorem Asked.afterStep_cases (asked : Asked) (s s' : LiveSession) :
    asked.afterStep s s' = asked ∨ asked.afterStep s s' = { asked with pending := none } := by
  rw [Asked.afterStep]
  by_cases hover : s'.threads.length < s.threads.length
  · rw [if_pos hover]
    exact .inr rfl
  · rw [if_neg hover]
    exact .inl rfl

/-- Nothing but a `PRET` with an argument is remembered. -/
theorem Remembers.keeps {asked' : Asked} (h : Remembers s asked)
    (hsame : s'.world.client.nPRET_CMD = s.world.client.nPRET_CMD)
    (hasked : asked' = asked ∨ asked' = { asked with pending := none })
    (hthreads : ∀ p ∈ s'.threads, Every (Within bodyParts) p) : Remembers s' asked' := by
  obtain rfl | rfl := hasked
  · exact ⟨hsame.trans h.last, h.pending, hthreads⟩
  · exact ⟨hsame.trans h.last, fun hne => absurd rfl hne, hthreads⟩

theorem Remembers.line {nCmd : Option Cmd} {pszCmdArg : Option Text} {next : Next} {opened : Bool}
    (h : Remembers s asked)
    (hrun : run (serveShell env) (dispatch cfg nCmd pszCmdArg) s.world = .done next w') :
    Remembers ⟨w', threadsAfter cfg s.threads cs, opened⟩
      (asked.afterLine nCmd pszCmdArg s.world w' cs) := by
  have hthreads := threadsAfter_within cfg h.threads cs
  by_cases hpret : nCmd = some .pret
  · subst hpret
    obtain ⟨hlast, hpending⟩ := h.pret cs hrun
    exact ⟨hlast, hpending, hthreads⟩
  · have hsame : _ ∧ _ :=
      run_shell_same (dispatch_within cfg nCmd pszCmdArg) (pret_notMem_parts hpret) env s.world
    rw [hrun] at hsame
    exact h.keeps hsame.1 (Asked.afterLine_of_ne hpret asked s.world w' cs) hthreads

/-- An operation of a transfer thread. -/
theorem serve_pret {o : CommandOp} (ho : Within bodyParts o) (env : Env) (w : World) :
    (serveCommand env o w).2.client.nPRET_CMD = w.client.nPRET_CMD := by
  have hsame : _ ∧ _ := serveCommand_same ho (show Part.pret ∉ bodyParts by decide) env w
  exact hsame.1

theorem Remembers.other {who : Happening} (h : Remembers s asked) (hwho : ∀ nCmd, who ≠ .line nCmd)
    (hstep : LiveStep cfg s who cs s') : Remembers s' (asked.afterStep s s') := by
  have hasked := asked.afterStep_cases s s'
  have hfirst : ∀ {xs ys : List (CommandProg Unit)} {p : CommandProg Unit},
      s.threads = xs ++ p :: ys → Every (Within bodyParts) p := by
    intro xs ys p hthreads
    exact h.threads p (by rw [hthreads]; simp)
  cases hstep with
  | line env line hopened hrun => exact absurd rfl (hwho _)
  | hangUp hopened => exact h.keeps rfl hasked h.threads
  | op env hthreads =>
      obtain ⟨ho, hk⟩ := hfirst hthreads
      exact h.keeps (serve_pret ho env _) hasked (forall_replaced h.threads hthreads (hk _))
  | poll env hthreads hdone =>
      obtain ⟨ho, hk⟩ := hfirst hthreads
      exact h.keeps (serve_pret ho env _) hasked (forall_replaced h.threads hthreads (hk _))
  | @ends xs ys w' env hthreads hrun =>
      have hsame : _ ∧ _ := run_same (within_resetDataConnection false)
        (show Part.pret ∉ resetParts by decide) env s.world
      have hrun' : run (serveCommand env) (resetDataConnection false) s.world = .done () w' := hrun
      rw [hrun'] at hsame
      exact h.keeps hsame.1 hasked (forall_removed h.threads hthreads)
  | others db hdb => exact h.keeps rfl hasked h.threads

theorem PretRun.remembers (h : PretRun cfg s asked ls) : Remembers s asked := by
  induction h with
  | connect hlogin hcommand =>
      exact ⟨by rw [hcommand], fun hne => absurd rfl hne, fun p hp => absurd hp (by simp)⟩
  | line env line _ hopened hrun ih => exact ih.line hrun
  | other _ hwho hstep ih => exact ih.other hwho hstep

/-- Every `PASV` of a session was received when the client entry remembered the last `PRET`. -/
theorem PretRun.received (h : PretRun cfg s asked ls) : ∀ l ∈ ls,
    (∃ next, run (serveShell l.env) (dispatch cfg (some .pasv) l.pszCmdArg) l.before =
      .done next l.after) ∧ l.before.client.nPRET_CMD = l.asked.last ∧
      (l.asked.pending ≠ none → l.asked.pending = l.asked.last) := by
  induction h with
  | connect _ _ => exact fun l hl => absurd hl (by simp)
  | @line s asked ls w' next env line hrun hopened hline ih =>
      intro l hl
      rw [List.mem_append] at hl
      obtain hl | hl := hl
      · exact ih l hl
      · by_cases hpasv : (parseLine line).1 = some .pasv
        · rw [if_pos hpasv, List.mem_singleton] at hl
          rw [hl]
          rw [hpasv] at hline
          exact ⟨⟨next, hline⟩, hrun.remembers.last, hrun.remembers.pending⟩
        · rw [if_neg hpasv] at hl
          exact absurd hl (by simp)
  | other _ _ _ ih => exact ih

/-! ### Listings through a data socket of the metaserver -/

theorem stat_answers {db : Redis} {path : Text} {st : Option Stat}
    (h : ask (stat path) db = some st) : run serveRedis (stat path) db = .done st db := by
  have hkeeps := (reads_stat path).run_keeps serveRedis (fun db => db) (by
    intro o ho db
    cases o <;> first | rfl | exact absurd ho (by simp [RedisOp.Reads, RedisOp.part])) db
  rw [ask] at h
  cases hrun : run serveRedis (stat path) db with
  | done a db' =>
      rw [hrun] at h hkeeps
      rw [Outcome.value_done, Option.some.injEq] at h
      have hdb : db' = db := hkeeps
      rw [h, hdb]
  | stopped why db' =>
      rw [hrun] at h
      exact absurd h (by simp)

theorem statPath_finds {path : Text} {st : Stat} (h : ask (stat path) w.db = some (some st)) :
    Does env (statPath (some path)) w (some (path, st)) w [] := by
  have hrun : run (serveCommand env) (statPath (some path)) w = .done (some (path, st)) w := by
    show run (serveCommand env) (redis (stat path) >>= _) w = _
    rw [run_bind, run_redis, stat_answers h]
    rfl
  have hquiet : Every (Within []) (statPath (some path)) := within_statPath _
  exact ⟨hrun, calls_nil hquiet (by simp)⟩

theorem Does.ret {α : Type} (a : α) : Does env (.ret a) w a w [] := ⟨rfl, rfl⟩

theorem Does.client_bind {β : Type} {f : Client → CommandProg β} {b : β}
    (h : Does env (f w.client) w b w' cs) : Does env (client >>= f) w b w' cs := ⟨h.ends, h.makes⟩

theorem Does.modify_bind {β : Type} {g : CommandState → CommandState} {f : Unit → CommandProg β}
    {b : β} (h : Does env (f ())
      { w with client := { w.client with toCommandState := g w.client.toCommandState } } b w' cs) :
    Does env (modify g >>= f) w b w' cs := ⟨h.ends, h.makes⟩

/-- The world after a client has been accepted. -/
def World.accepted (w : World) (conn : ℕ) : World :=
  { w with
    client := { w.client with DataSock := some conn }
    replies := w.replies ++ [.line 150 "Connection accepted."]
    clock := w.clock + 4 }

theorem acceptData_accepts (fd : ℕ) (hcomes : Comes env) (w : World) :
    ∃ conn, run (serveCommand env) (acceptData fd) { w with clock := w.clock + 1 } =
      .done true (w.accepted conn) := by
  obtain ⟨conn, hconn⟩ := Option.isSome_iff_exists.mp (hcomes.accept (w.clock + 2) fd)
  have hselect := hcomes.select (w.clock + 1) fd
  refine ⟨conn, ?_⟩
  unfold acceptData
  rw [run_sys_bind]
  dsimp only
  rw [hselect, if_pos rfl, run_sys_bind]
  dsimp only
  rw [hconn, run_sys_bind]
  rfl

/-- A client that comes to the data socket is accepted. -/
theorem openDataConnection_accepts (cfg : Config) {fd : ℕ} (hcomes : Comes env)
    (hconn : w.client.eDataConnection = .pasv) (hsock : w.client.DataSock = some fd) :
    ∃ conn, Does env (openDataConnection cfg) w true (w.accepted conn) [] := by
  obtain ⟨conn, haccept⟩ := acceptData_accepts fd hcomes w
  have htry : run (serveCommand env) (tryDataConnection cfg) w = .done true (w.accepted conn) := by
    unfold tryDataConnection
    rw [run_client_bind, hsock]
    dsimp only
    rw [run_sys_bind, hcomes.setsockopt, if_pos rfl, if_pos hconn]
    exact haccept
  have hopen : run (serveCommand env) (openDataConnection cfg) w =
      .done true (w.accepted conn) := by
    unfold openDataConnection
    rw [run_client_bind, hconn, if_neg (by simp), onlyIf, if_neg (by simp)]
    show run _ (tryDataConnection cfg >>= _) w = _
    rw [run_bind, htry]
    rfl
  have hdoes : Does env (openDataConnection cfg) w true (w.accepted conn) _ := ⟨hopen, rfl⟩
  obtain ⟨-, -, hcalls⟩ | ⟨hfalse, -⟩ := openDataConnection_does hdoes
  · exact ⟨conn, hopen, hcalls⟩
  · exact absurd hfalse (by simp)

/-- The world with another current transfer. -/
def World.withTransfer (w : World) (t : DataTransfer) : World :=
  { w with client := { w.client with CurrentTransfer := t } }

/-- The world after a transfer thread has been started. -/
def World.started (w : World) : World :=
  { w.withTransfer { w.client.CurrentTransfer with TransferThreadID := true } with
    clock := w.clock + 1 }

theorem startTransfer_starts {thread : TransferThread} (hcomes : Comes env) :
    Does env (startTransfer thread) w true w.started [⟨.pthread_create thread, true⟩] := by
  have hcreate : env w.clock (.pthread_create thread) = true := hcomes.pthread_create w.clock thread
  have hrun : run (serveCommand env) (startTransfer thread) w = .done true w.started := by
    unfold startTransfer
    rw [run_client_bind]
    show run _ (if env w.clock (.pthread_create thread) = true then _ else _) _ = _
    rw [if_pos hcreate]
    rfl
  have hdoes : Does env (startTransfer thread) w true w.started _ := ⟨hrun, rfl⟩
  obtain ⟨-, hcs, -, -⟩ | ⟨hfalse, -⟩ := startTransfer_does hdoes
  · exact ⟨hrun, hcs⟩
  · exact absurd hfalse (by simp)

theorem openListing_opens (cfg : Config) {fd : ℕ} {nCmd : Cmd} (hcomes : Comes env)
    (hcmd : nCmd ≠ .stat)
    (hconn : w.client.eDataConnection = .pasv) (hsock : w.client.DataSock = some fd) :
    ∃ conn, Does env (openListing cfg nCmd) w true ((w.accepted conn).withTransfer
      { w.client.CurrentTransfer with SockList := .data }) [] := by
  obtain ⟨conn, haccept⟩ := openDataConnection_accepts cfg hcomes hconn hsock
  refine ⟨conn, ?_⟩
  unfold openListing
  rw [if_neg hcmd]
  exact haccept.bind (Does.modify_bind (Does.ret true))

/-- A listing through a data socket. -/
theorem cmdList_delivers (cfg : Config) {fd : ℕ} {nCmd : Cmd} {pszCmdArg : Option Text}
    {path : Text} {st : Stat}
    (hcomes : Comes env) (hcmd : nCmd ≠ .stat) (hwait : w.client.eStatus = .waiting)
    (hconn : w.client.eDataConnection = .pasv) (hsock : w.client.DataSock = some fd)
    (hpath : w.client.buildPath (listArg pszCmdArg) = some path)
    (hstat : ask (stat path) w.db = some (some st)) :
    ∃ w', Does env (cmdList cfg nCmd pszCmdArg) w () w' [⟨.pthread_create .list, true⟩] ∧
      w'.client.eStatus = .listing ∧ w'.client.CurrentTransfer.SockList = .data ∧
      w'.client.DataSock.isSome = true := by
  let options := (pszCmdArg.map fun arg => (scanOptions .dash {} arg).1).getD {}
  let w₁ := w.withTransfer { options }
  let w₂ := w.withTransfer { options, szPath := path, st := some st }
  obtain ⟨conn, hopen⟩ := openListing_opens cfg (w := w₂) hcomes hcmd hconn hsock
  let w₃ := (w₂.accepted conn).withTransfer { w₂.client.CurrentTransfer with SockList := .data }
  let w₄ : World := { w₃ with client := { w₃.client with
    eStatus := .listing, CurrentTransfer := { w₃.client.CurrentTransfer with nCmd := some nCmd } } }
  have hstart : Does env (discard (startTransfer .list)) w₄ () w₄.started
      [⟨.pthread_create .list, true⟩] :=
    (startTransfer_starts hcomes).bind (Does.ret ())
  have hfound : Does env (statPath (w.client.buildPath (listArg pszCmdArg))) w₁
      (some (path, st)) w₁ [] := by
    rw [hpath]
    exact statPath_finds hstat
  have hlist : Does env (cmdList cfg nCmd pszCmdArg) w () w₄.started
      ([] ++ ([] ++ [⟨.pthread_create .list, true⟩])) := by
    unfold cmdList
    refine Does.client_bind ?_
    rw [if_neg (by simp [hwait])]
    refine Does.modify_bind (hfound.bind ?_)
    refine Does.modify_bind (hopen.bind ?_)
    rw [onlyIf, if_pos rfl]
    exact Does.modify_bind hstart
  exact ⟨w₄.started, hlist, rfl, rfl, rfl⟩

theorem deliversListings_of_sock {fd : ℕ} (hwait : w.client.eStatus = .waiting)
    (hconn : w.client.eDataConnection = .pasv) (hsock : w.client.DataSock = some fd) :
    DeliversListings cfg w := by
  intro env nCmd pszCmdArg path st hcomes hcmd hpriv hpath hstat
  have hlogged : w.client.bIsLogged = true := by
    rw [Client.checkPrivileges, Bool.and_eq_true] at hpriv
    exact hpriv.1
  have hnot : nCmd ≠ .stat := by obtain rfl | rfl := hcmd <;> simp
  obtain ⟨w', hlist, hstatus, hdata, hsome⟩ := cmdList_delivers cfg hcomes hnot hwait hconn
    hsock hpath hstat
  have hgate : Does env (withPrivilege LIST (cmdList cfg nCmd pszCmdArg)) w () w'
      [⟨.pthread_create .list, true⟩] := by
    refine Does.client_bind ?_
    rw [if_pos hpriv]
    exact hlist
  have hdoes : Does env (shellCmd cfg nCmd pszCmdArg) w () w' [⟨.pthread_create .list, true⟩] := by
    obtain rfl | rfl := hcmd <;> exact hgate
  obtain ⟨hends, hcalls⟩ := line_of_does (by obtain rfl | rfl := hcmd <;> simp) hlogged hdoes
  exact ⟨w', hends, hstatus, hdata, hsome, hcalls⟩

/-! ### What a `PASV` does -/

/-- The operation leaves the data socket alone. -/
def KeepsSock (o : CommandOp) : Prop :=
  ∀ env w, (serveCommand env o w).2.client.DataSock = w.client.DataSock

theorem keepsSock_of_within {α : Type} {ps : List Part} {p : CommandProg α}
    (hp : Every (Within ps) p) (hsock : Part.socket ∉ ps) : Every KeepsSock p := by
  refine hp.mono fun o ho env w => ?_
  have hsame : _ ∧ _ ∧ _ := serveCommand_same ho hsock env w
  exact hsame.2.2

theorem keepsSock_nothing {α : Type} {p : CommandProg α} (hp : Every (Within []) p) :
    Every KeepsSock p := keepsSock_of_within hp (by simp)

theorem Does.sock {α : Type} {p : CommandProg α} {a : α} (h : Does env p w a w' cs)
    (hp : Every KeepsSock p) : w'.client.DataSock = w.client.DataSock := by
  have hkept := hp.run_keeps (serveCommand env) (fun w => w.client.DataSock)
    (fun _ ho s => ho env s) w
  rw [h.ends] at hkept
  exact hkept

/-- A data socket of the metaserver stays the one that was opened. -/
theorem pasvLocal_sock {u : Unit} (hwait : w.client.eStatus = .waiting)
    (h : Does env (pasvLocal cfg) w u w' cs) (hpasv : w'.client.eDataConnection = .pasv) :
    w'.client.DataSock.isSome = true := by
  obtain ⟨u₁, w₁, cs₁, cs₂, hreset, h₁, rfl⟩ := h.of_client.of_bind
  obtain ⟨hview, -⟩ := onlyIf_reset_does hwait hreset
  have hconn : w₁.client.eDataConnection = .none := congrArg TransferView.eDataConnection hview
  have h₂ := (h₁.of_sys rfl).of_modify
  cases hsock : env w₁.clock .socket with
  | none =>
      rw [hsock] at h₂
      obtain ⟨-, rfl, -⟩ := h₂.of_ret
      rw [show _ = DataConnection.none from hconn] at hpasv
      exact absurd hpasv (by simp)
  | some fd =>
      rw [hsock] at h₂
      have hkept : w'.client.DataSock = some fd := by
        refine h₂.sock ⟨fun _ _ => rfl, fun ok => ?_⟩
        show Every _ (if _ then _ else _)
        rw [every_ite]
        refine ⟨fun _ => ⟨fun _ _ => rfl, fun _ => ?_⟩, fun _ => trivial⟩
        refine (keepsSock_nothing (within_randomPort cfg)).bind fun usFirstTry => ?_
        refine (keepsSock_nothing (within_bindLoop cfg fd usFirstTry 131072 usFirstTry)).bind
          fun usTriedPort => ⟨fun _ _ => rfl, fun _ => ?_⟩
        show Every _ (if _ then _ else _)
        rw [every_ite]
        refine ⟨fun _ => ⟨fun _ _ => rfl, fun _ => trivial⟩, fun _ => ⟨fun _ _ => rfl, fun ok => ?_⟩⟩
        show Every _ (if _ then _ else _)
        rw [every_ite]
        exact ⟨fun _ => ⟨fun _ _ => rfl, fun _ => ⟨fun _ _ => rfl, fun _ => trivial⟩⟩,
          fun _ => trivial⟩
      rw [hkept]
      rfl

/-- The operation opens no socket. -/
def OpensNone (o : CommandOp) : Prop := ∀ r, noteSocket (.command o) r = none

theorem opensNone_redis {α : Type} (p : RedisProg α) : Every OpensNone (redis p) :=
  every_redis ((every_true p).mono fun _ _ _ => rfl)

/-- `PASV` after a `PRET` opens no socket. -/
theorem pasvRemote_opensNone (cmd : PretCmd) : Every OpensNone (pasvRemote cfg cmd) := by
  refine ⟨fun _ => rfl, fun c => ?_⟩
  have hslave : Every OpensNone (pasvSlave cfg cmd c.llPRET_fid) := by
    cases cmd with
    | stor =>
        show Every _ (if _ then _ else _)
        rw [every_ite]
        refine ⟨fun _ => ⟨fun _ => rfl, fun _ => trivial⟩, fun _ => ?_⟩
        unfold getRandomSlave
        rw [every_sys_bind]
        refine ⟨fun _ => rfl, fun r => ?_⟩
        cases cfg.Slaves[r % cfg.Slaves.length % 65536]? <;> trivial
    | _ => exact opensNone_redis _
  refine hslave.bind fun slave => ⟨fun _ => rfl, fun _ => ?_⟩
  refine (opensNone_redis _).bind fun trans_id => ⟨fun _ => rfl, fun _ => ?_⟩
  refine ⟨fun _ => rfl, fun answer => ?_⟩
  cases answer with
  | reply r => exact ⟨fun _ => rfl, fun _ => ⟨fun _ => rfl, fun _ => trivial⟩⟩
  | exception => exact ⟨fun _ => rfl, fun _ => trivial⟩
  | noReturn => trivial

/-- The calls of `socket` of a command. -/
def sockets {α : Type} (env : Env) (p : CommandProg α) (w : World) : List (Option ℕ) :=
  trace (serveCommand env) (fun o => noteSocket (.command o)) p w

theorem sockets_nil {α : Type} {p : CommandProg α} (hp : Every OpensNone p) :
    sockets env p w = [] :=
  hp.trace_eq_nil (serveCommand env) _ (fun _ r ho => ho r) w

theorem sockets_client_bind {β : Type} (f : Client → CommandProg β) :
    sockets env (client >>= f) w = sockets env (f w.client) w := rfl

/-- `PASV` without a `PRET` opens one. -/
theorem pasvLocal_sockets {u : Unit} (h : Does env (pasvLocal cfg) w u w' cs) :
    sockets env (pasvLocal cfg) w ≠ [] := by
  obtain ⟨u₁, w₁, cs₁, cs₂, hreset, h₁, rfl⟩ := h.of_client.of_bind
  have hsplit : sockets env (pasvLocal cfg) w = _ :=
    trace_bind (serveCommand env) (fun o => noteSocket (.command o))
      (onlyIf (w.client.eDataConnection ≠ .none) (resetDataConnection true)) _ w
  rw [hreset.ends] at hsplit
  rw [hsplit]
  exact List.append_ne_nil_of_right_ne_nil _ (List.cons_ne_nil _ _)

/-- The line opens the sockets of its command. -/
theorem sockets_dispatch {pszCmdArg : Option Text} (hlogged : w.client.bIsLogged = true) :
    trace (serveShell env) noteSocket (dispatch cfg (some .pasv) pszCmdArg) w =
      sockets env (cmdPasv cfg) w := by
  have hcommand : trace (serveShell env) noteSocket (command (cmdPasv cfg)) w =
      sockets env (cmdPasv cfg) w :=
    trace_translate (I := CommandI) (J := ShellI) (h := serveCommand env) (g := serveShell env)
      (φ := ShellOp.command) (ρ := fun _ r => r) (fun _ _ => ⟨rfl, rfl⟩) (fun _ _ => rfl) _ w
  rw [dispatch_gate (by simp) (by simp) (by simp)]
  show trace _ _ (if w.client.bIsLogged = true then _ else _) w = _
  rw [if_pos hlogged, trace_bind, ← hcommand]
  show trace _ _ (command (cmdPasv cfg)) w ++ _ = _
  cases run (serveShell env) (shellLogged cfg .pasv pszCmdArg) w <;> exact List.append_nil _

/-- A `PASV` that is refused does nothing. -/
theorem PasvLine.refused {l : PasvLine} {next : Next} (h : ¬ l.CarriedOut)
    (hrun : run (serveShell l.env) (dispatch cfg (some .pasv) l.pszCmdArg) l.before =
      .done next l.after) : ¬ l.Delegated cfg ∧ ¬ l.OpensHere cfg := by
  cases hlogged : l.before.client.bIsLogged with
  | false =>
      refine ⟨?_, ?_⟩
      · rintro ⟨c, hc, -⟩
        rw [(line_not_logged hlogged hrun).2] at hc
        exact absurd hc (by simp)
      · intro hopens
        refine hopens ?_
        rw [dispatch_gate (by simp) (by simp) (by simp)]
        show trace _ _ (if l.before.client.bIsLogged = true then _ else _) l.before = _
        rw [hlogged, if_neg (by simp)]
        rfl
  | true =>
      have hbusy : l.before.client.eStatus ≠ .waiting := fun hwait => h ⟨hlogged, hwait⟩
      refine ⟨?_, ?_⟩
      · rintro ⟨c, hc, -⟩
        obtain ⟨-, -, hcs⟩ | ⟨hwait, -⟩ := pasv_does (does_of_dispatch (by simp) hlogged hrun)
        · rw [hcs] at hc
          exact absurd hc (by simp)
        · exact hbusy hwait
      · intro hopens
        refine hopens ?_
        rw [sockets_dispatch hlogged]
        rw [cmdPasv, sockets_client_bind, if_neg hbusy]
        rfl

/-- A `PASV` of a client entry that remembers no `PRET`. -/
theorem PasvLine.onMetaserver {l : PasvLine} {next : Next} (h : l.CarriedOut)
    (hpret : l.before.client.nPRET_CMD = none)
    (hrun : run (serveShell l.env) (dispatch cfg (some .pasv) l.pszCmdArg) l.before =
      .done next l.after) :
    ¬ l.Delegated cfg ∧ l.OpensHere cfg ∧
      (l.after.client.eDataConnection = .pasv → DeliversListings cfg l.after) := by
  obtain ⟨hlogged, hwait⟩ := h
  have hlocal : Does l.env (pasvLocal cfg) l.before () l.after
      (lineCalls l.env (dispatch cfg (some .pasv) l.pszCmdArg) l.before) := by
    have h₁ := (does_of_dispatch (by simp) hlogged hrun).of_client
    rw [if_pos hwait, hpret] at h₁
    exact h₁
  have hturn := pasvLocal_does hwait hlocal
  have hstatus : l.after.client.eStatus = .waiting := by
    generalize lineCalls l.env (dispatch cfg (some .pasv) l.pszCmdArg) l.before = cs at hturn
    cases hturn with
    | refused hview => exact (congrArg TransferView.eStatus hview).trans hwait
    | reset conn _ _ hview => exact congrArg TransferView.eStatus hview
  refine ⟨?_, ?_, ?_⟩
  · intro hinit
    obtain ⟨c, hc, hpart⟩ := hinit
    have honly : OnlyCancels (lineCalls l.env (dispatch cfg (some .pasv) l.pszCmdArg) l.before) := by
      generalize lineCalls l.env (dispatch cfg (some .pasv) l.pszCmdArg) l.before = cs at hturn ⊢
      cases hturn with
      | refused _ => exact onlyCancels_nil
      | reset _ _ honly _ => exact honly
    rw [honly c hc] at hpart
    exact absurd hpart (by simp [SysOp.part])
  · rw [OpensHere, sockets_dispatch hlogged]
    rw [cmdPasv, sockets_client_bind, if_pos hwait, hpret]
    exact pasvLocal_sockets hlocal
  · intro hpasv
    obtain ⟨fd, hfd⟩ := Option.isSome_iff_exists.mp (pasvLocal_sock hwait hlocal hpasv)
    exact deliversListings_of_sock hstatus hpasv hfd

/-- A `PASV` of a client entry that remembers a `PRET`. -/
theorem PasvLine.onSlave {l : PasvLine} {cmd : PretCmd} {next : Next} (h : l.CarriedOut)
    (hpret : l.before.client.nPRET_CMD = some cmd)
    (hrun : run (serveShell l.env) (dispatch cfg (some .pasv) l.pszCmdArg) l.before =
      .done next l.after) : l.Delegated cfg ∧ ¬ l.OpensHere cfg := by
  obtain ⟨hlogged, hwait⟩ := h
  refine ⟨?_, ?_⟩
  · obtain ⟨hbusy, -⟩ | ⟨-, ⟨hnone, -⟩ | ⟨cmd', -, hturn⟩⟩ :=
      pasv_does (does_of_dispatch (by simp) hlogged hrun)
    · exact absurd hwait hbusy
    · rw [hpret] at hnone
      exact absurd hnone (by simp)
    · rw [Delegated]
      generalize lineCalls l.env _ l.before = cs at hturn
      cases hturn with
      | init slave answer _ _ _ _ => exact ⟨_, List.mem_singleton_self _, rfl⟩
  · intro hopens
    refine hopens ?_
    rw [sockets_dispatch hlogged]
    rw [cmdPasv, sockets_client_bind, if_pos hwait, hpret]
    exact sockets_nil (pasvRemote_opensNone cmd)

/-! ### The exact condition -/

/-- A `PASV` is right if and only if it does not find a `PRET` that is over. -/
theorem PasvLine.right_iff {l : PasvLine} {next : Next}
    (hrun : run (serveShell l.env) (dispatch cfg (some .pasv) l.pszCmdArg) l.before =
      .done next l.after)
    (hlast : l.before.client.nPRET_CMD = l.asked.last)
    (hpending : l.asked.pending ≠ none → l.asked.pending = l.asked.last) :
    l.Right cfg ↔ (l.CarriedOut → l.asked.last ≠ none → l.asked.pending ≠ none) := by
  by_cases hcarried : l.CarriedOut
  · cases hsaid : l.asked.last with
    | none =>
        obtain ⟨hnot, hopens, hdelivers⟩ := PasvLine.onMetaserver hcarried (hlast.trans hsaid) hrun
        have hnone : l.asked.pending = none := by
          by_contra hne
          exact hne ((hpending hne).trans hsaid)
        refine ⟨fun _ _ hne => absurd rfl hne, fun _ => ⟨?_, ?_, fun _ _ => hdelivers⟩⟩
        · exact ⟨fun h => absurd h hnot, fun h => absurd hnone h.2⟩
        · exact ⟨fun _ => ⟨hcarried, hnone⟩, fun _ => hopens⟩
    | some cmd =>
        obtain ⟨hasks, hnot⟩ := PasvLine.onSlave hcarried (hlast.trans hsaid) hrun
        constructor
        · intro hright _ _
          exact (hright.delegated.mp hasks).2
        · intro hover
          have hne := hover hcarried (by simp)
          refine ⟨?_, ?_, ?_⟩
          · exact ⟨fun _ => ⟨hcarried, hne⟩, fun _ => hasks⟩
          · exact ⟨fun h => absurd h hnot, fun h => absurd h.2 hne⟩
          · exact fun _ hnone _ => absurd hnone hne
  · obtain ⟨hnot, hnot'⟩ := PasvLine.refused hcarried hrun
    refine ⟨fun _ h => absurd h hcarried, fun _ => ⟨?_, ?_, fun h => absurd h hcarried⟩⟩
    · exact ⟨fun h => absurd h hnot, fun h => absurd h.1 hcarried⟩
    · exact ⟨fun h => absurd h hnot', fun h => absurd h.1 hcarried⟩

/-- **Every `PASV` of a session is right if and only if none that is carried out finds a `PRET` that
is over**: one that was not answered 200, or after which a transfer ended, a user logged in or
another `PRET` came. -/
theorem pasv_right_iff (h : PretRun cfg s asked ls) :
    (∀ l ∈ ls, l.Right cfg) ↔
      ∀ l ∈ ls, l.CarriedOut → l.asked.last ≠ none → l.asked.pending ≠ none := by
  have hline := fun l hl => h.received l hl
  constructor
  · intro hright l hl
    obtain ⟨⟨next, hrun⟩, hlast, hpending⟩ := hline l hl
    exact (PasvLine.right_iff hrun hlast hpending).mp (hright l hl)
  · intro hover l hl
    obtain ⟨⟨next, hrun⟩, hlast, hpending⟩ := hline l hl
    exact (PasvLine.right_iff hrun hlast hpending).mpr (hover l hl)

/-! ### A `PASV` behind a finished download -/

/-- A line whose command is known to run. -/
theorem PretRun.command {ts : List (CommandProg Unit)} {nCmd : Cmd} {pszCmdArg : Option Text}
    (h : PretRun cfg ⟨w, ts, true⟩ asked ls) (line : Text)
    (hline : parseLine line = (some nCmd, pszCmdArg))
    (hnot : nCmd ∉ [Cmd.quit, .user, .pass, .cwd, .xcwd, .cdup, .xcup])
    (hlogged : w.client.bIsLogged = true)
    (hdoes : Does env (shellCmd cfg nCmd pszCmdArg) w () w' cs) :
    PretRun cfg ⟨w', threadsAfter cfg ts cs, true⟩
      (asked.afterLine (some nCmd) pszCmdArg w w' cs)
      (ls ++ if nCmd = .pasv then [⟨env, pszCmdArg, asked, w, w'⟩] else []) := by
  obtain ⟨hends, hcalls⟩ := line_of_does hnot hlogged hdoes
  have hstep := h.line env line rfl (by rw [hline]; exact hends)
  rw [hline] at hstep
  dsimp only at hstep
  rw [hcalls] at hstep
  simp only [Option.some.injEq] at hstep
  exact hstep

/-- A transfer thread runs to its end. -/
theorem PretRun.thread {p : CommandProg Unit} {opened : Bool}
    (h : PretRun cfg ⟨w, [p], opened⟩ asked ls) (hrun : run (serveCommand env) p w = .done () w') :
    PretRun cfg ⟨w', [.ret ()], opened⟩ asked ls := by
  induction p generalizing w with
  | ret u =>
      rw [run_ret, Outcome.done.injEq] at hrun
      rw [← hrun.2]
      exact h
  | stop why => exact absurd hrun (by simp)
  | call o k ih =>
      have hstep : LiveStep cfg ⟨w, [.call o k], opened⟩ .thread _
          ⟨_, [] ++ k (serveCommand env o w).1 :: [], opened⟩ := .op env rfl
      exact ih _ (h.other (by simp) hstep) hrun
  | poll o again k ih =>
      rw [run_poll] at hrun
      by_cases hagain : again (serveCommand env o w).1 = true
      · rw [if_pos hagain] at hrun
        exact absurd hrun (by simp)
      · rw [if_neg hagain] at hrun
        have hstep : LiveStep cfg ⟨w, [.poll o again k], opened⟩ .thread _
            ⟨_, [] ++ k (serveCommand env o w).1 :: [], opened⟩ :=
          .poll env rfl (by simpa using hagain)
        exact ih _ (h.other (by simp) hstep) hrun

/-- The guest logs in. -/
theorem pretRun_guest : PretRun {} ⟨guestWorld twoFiles, [], true⟩ {} [] := by
  have huser : parseLine "USER guest".toList = (some .user, some "guest".toList) := by decide
  have hconnect : PretRun {} ⟨⟨twoFiles, {}, [], 0⟩, [], true⟩ {} [] := .connect rfl rfl
  have hstep := hconnect.line .willing "USER guest".toList rfl (by
    rw [huser]
    exact run_user_guest)
  rw [huser] at hstep
  dsimp only at hstep
  rw [(line_not_logged rfl run_user_guest).2] at hstep
  exact hstep

/-- The `PASV` behind `PRET RETR /a`. -/
def pasvLine : PasvLine :=
  ⟨.willing, none, ⟨some .retr, some .retr⟩, pretWorld (guestWorld twoFiles) 1, passiveWorld⟩

/-- The guest names `/a` and opens a passive connection. -/
theorem pretRun_passive :
    PretRun {} ⟨passiveWorld, [], true⟩ ⟨some .retr, some .retr⟩ [pasvLine] := by
  have h₁ := pretRun_guest.command "PRET RETR /a".toList (by decide) (by simp) rfl pret_a
  exact h₁.command "PASV".toList (by decide) (by simp) rfl pasv_a

/-- The `PASV` is for the download of `/a`. -/
theorem pasv_right_passive : pasvLine.Right {} := by
  have hright := (pasv_right_iff pretRun_passive).mpr fun l hl _ _ => by
    rw [List.mem_singleton.mp hl]
    exact Option.some_ne_none _
  exact hright pasvLine (List.mem_singleton_self _)

/-- After the download. -/
def downloadedWorld : World :=
  { passiveWorld with
    client := { passiveWorld.client with eDataConnection := .none }
    replies := downloadWorld.replies ++ [.line 226 "Transfer complete"]
    clock := 5 }

/-- After another `PASV`. -/
def passiveAgain : World :=
  { downloadedWorld with
    db := { downloadedWorld.db with transaction_counter := 2 }
    client := { downloadedWorld.client with llPRET_trans_id := 2, eDataConnection := .pasv }
    replies := downloadedWorld.replies ++ [.line 227 "Entering Passive Mode"]
    clock := 6 }

theorem pasv_again : Does .willing (shellCmd {} .pasv none) downloadedWorld () passiveAgain
    [⟨.initPasvDataConnection slaveA { server_ip := ['A'], trans_id := 2 } 100 900,
      .reply (.line 227 "Entering Passive Mode")⟩] := ⟨rfl, rfl⟩

/-- The `PASV` behind the download. -/
def pasvLineAgain : PasvLine := ⟨.willing, none, ⟨none, some .retr⟩, downloadedWorld, passiveAgain⟩

/-- The guest downloads `/a`, and opens a passive connection again. -/
theorem pretRun_again :
    PretRun {} ⟨passiveAgain, [], true⟩ ⟨none, some .retr⟩ [pasvLine, pasvLineAgain] := by
  have h₁ := pretRun_passive.command "RETR /a".toList (by decide) (by simp) rfl retr_a
  have h₂ : PretRun {} ⟨downloadWorld, [retrieveTransfer {}], true⟩ ⟨some .retr, some .retr⟩
      [pasvLine] := h₁
  have hthread : run (serveCommand .willing) (retrieveTransfer {}) downloadWorld = .done ()
      { downloadWorld with
        replies := downloadWorld.replies ++ [.line 226 "Transfer complete"], clock := 5 } := rfl
  have h₃ := h₂.thread hthread
  have hends : LiveStep {} ⟨{ downloadWorld with
        replies := downloadWorld.replies ++ [.line 226 "Transfer complete"], clock := 5 },
      [.ret ()], true⟩ .thread [] ⟨downloadedWorld, [] ++ [], true⟩ := .ends .willing rfl rfl
  have h₄ := h₃.other (by simp) hends
  exact h₄.command "PASV".toList (by decide) (by simp) rfl pasv_again

/-- **The `PASV` behind a finished download** goes to the slave of the download. -/
theorem pasv_after_transfer : ¬ ∀ cfg s asked ls,
    PretRun cfg s asked ls → ∀ l ∈ ls, l.Right cfg := by
  intro hall
  have hright := hall _ _ _ _ pretRun_again pasvLineAgain (by simp)
  obtain ⟨next, hrun⟩ := (pretRun_again.received pasvLineAgain (by simp)).1
  have hpret : pasvLineAgain.before.client.nPRET_CMD = some .retr := rfl
  have hasks := (PasvLine.onSlave ⟨rfl, rfl⟩ hpret hrun).1
  exact (hright.delegated.mp hasks).2 rfl

end ClusterFtpd
