import ClusterFtpd.Lib.Relational
import ClusterFtpd.LiveSession

/-!
# What one session keeps from another

Two client entries that differ in a transaction identifier and in fields that a session writes
before it reads them (`Unread`) are told apart by no command and by no transfer thread.  `Known` says
which of these fields are known to agree by now: a thread may only start when those it reads do.

`together_body` and `goes_dispatch` prove this of the threads, operation by operation, and of the
lines.  What is compared is every call to the system, without transaction identifiers, with its
answer, every reply, and the virtual file system.
-/

namespace ClusterFtpd

open Interaction MachineInt

/-- The transaction identifier, and the fields a session writes before it reads them. -/
structure Unread where
  ulDataIp : ℕ
  llPRET_trans_id : ℤ
  szPath : Text
  st : Option Stat
  nCmd : Option Cmd
  SockList : SockList
  options : ListOptions

/-- These fields of a client entry. -/
def CommandState.unread (c : CommandState) : Unread where
  ulDataIp := c.ulDataIp
  llPRET_trans_id := c.llPRET_trans_id
  szPath := c.CurrentTransfer.szPath
  st := c.CurrentTransfer.st
  nCmd := c.CurrentTransfer.nCmd
  SockList := c.CurrentTransfer.SockList
  options := c.CurrentTransfer.options

def CommandState.withUnread (c : CommandState) (x : Unread) : CommandState :=
  { c with
    ulDataIp := x.ulDataIp
    llPRET_trans_id := x.llPRET_trans_id
    CurrentTransfer := { c.CurrentTransfer with
      szPath := x.szPath, st := x.st, nCmd := x.nCmd, SockList := x.SockList
      options := x.options } }

/-- The client entry with other values in these fields. -/
def Client.withUnread (c : Client) (x : Unread) : Client :=
  { c with toCommandState := c.toCommandState.withUnread x }

section Fields

variable (c : Client) (x : Unread)

theorem Client.withUnread_eStatus : (c.withUnread x).eStatus = c.eStatus := rfl

theorem Client.withUnread_eDataConnection :
    (c.withUnread x).eDataConnection = c.eDataConnection := rfl

theorem Client.withUnread_DataSock : (c.withUnread x).DataSock = c.DataSock := rfl

theorem Client.withUnread_nPRET_CMD : (c.withUnread x).nPRET_CMD = c.nPRET_CMD := rfl

theorem Client.withUnread_pUser : (c.withUnread x).pUser = c.pUser := rfl

theorem Client.buildPath_withUnread (pszAskedPath : Option Text) :
    (c.withUnread x).buildPath pszAskedPath = c.buildPath pszAskedPath := rfl

end Fields

/-- Which of the fields are known to agree: the address of `PORT`, the path of the transfer, and
what a listing reads besides. -/
structure Known where
  address : Bool := false
  path : Bool := false
  listing : Bool := false

/-- The second knows all the first does. -/
structure Known.Le (k k' : Known) : Prop where
  address : k.address = true → k'.address = true
  path : k.path = true → k'.path = true
  listing : k.listing = true → k'.listing = true

theorem Known.Le.refl (k : Known) : k.Le k := ⟨id, id, id⟩

theorem Known.Le.trans {k₁ k₂ k₃ : Known} (h : k₁.Le k₂) (h' : k₂.Le k₃) : k₁.Le k₃ :=
  ⟨h'.address ∘ h.address, h'.path ∘ h.path, h'.listing ∘ h.listing⟩

/-- What a transfer thread reads agrees. -/
def Known.Ready (k : Known) : TransferThread → Prop
  | .list => k.path = true ∧ k.listing = true
  | .retrieve => k.path = true
  | .store => k.path = true

theorem Known.Ready.mono {k k' : Known} (hk : k.Le k') {thread : TransferThread}
    (h : k.Ready thread) : k'.Ready thread := by
  cases thread with
  | list => exact ⟨hk.path h.1, hk.listing h.2⟩
  | retrieve => exact hk.path h
  | store => exact hk.path h

/-- The values agree with those of the client entry as far as is known.  An address that `PORT` has
given always does. -/
structure Unread.Agrees (k : Known) (c : CommandState) (x : Unread) : Prop where
  address : k.address = true ∨ c.eDataConnection = .port → x.ulDataIp = c.ulDataIp
  path : k.path = true → x.szPath = c.CurrentTransfer.szPath
  listing : k.listing = true → x.st = c.CurrentTransfer.st ∧ x.nCmd = c.CurrentTransfer.nCmd ∧
    x.options = c.CurrentTransfer.options

theorem Unread.Agrees.mono {k k' : Known} {c : CommandState} {x : Unread} (hk : k.Le k')
    (h : x.Agrees k' c) : x.Agrees k c :=
  ⟨fun ha => h.address (ha.imp_left hk.address), fun hp => h.path (hk.path hp),
    fun hl => h.listing (hk.listing hl)⟩

/-- The second client entry has other values in these fields. -/
def Client.Like (k : Known) (c c' : Client) : Prop :=
  ∃ x : Unread, x.Agrees k c.toCommandState ∧ c' = c.withUnread x

/-! ### What is compared -/

/-- The call without its transaction identifier. -/
def SysOp.anonymous : SysOp → SysOp
  | .initPasvDataConnection slave p startPort portLen =>
      .initPasvDataConnection slave { p with trans_id := 0 } startPort portLen
  | .openPasvDataConnection slave p => .openPasvDataConnection slave { p with trans_id := 0 }
  | .activeStoreTransfer slave p iflags => .activeStoreTransfer slave { p with trans_id := 0 } iflags
  | .pasvStoreTransfer slave p iflags => .pasvStoreTransfer slave { p with trans_id := 0 } iflags
  | .activeRetrieveTransfer slave p => .activeRetrieveTransfer slave { p with trans_id := 0 }
  | .pasvRetrieveTransfer slave p => .pasvRetrieveTransfer slave { p with trans_id := 0 }
  | o => o

theorem SysOp.res_anonymous (o : SysOp) : o.anonymous.Res = o.Res := by
  cases o <;> rfl

/-- The call and its answer, without the transaction identifier. -/
def Call.anonymous (c : Call) : Call := ⟨c.op.anonymous, cast c.op.res_anonymous.symm c.res⟩

/-- Calls that differ in their transaction identifiers. -/
theorem Call.anonymous_congr {o o' : SysOp} {r : o.Res} {r' : o'.Res}
    (ho : o'.anonymous = o.anonymous) (hr : HEq r r') :
    Call.anonymous ⟨o', r'⟩ = Call.anonymous ⟨o, r⟩ := by
  have hcast : HEq (cast o'.res_anonymous.symm r') (cast o.res_anonymous.symm r) :=
    (cast_heq _ r').trans (hr.symm.trans (cast_heq _ r).symm)
  rw [Call.anonymous, Call.anonymous, Call.mk.injEq]
  exact ⟨ho, hcast⟩

/-- Every call to the system is seen. -/
def seeCommand : (o : CommandOp) → o.Res → Option Call
  | .sys o, r => some (Call.anonymous ⟨o, r⟩)
  | .redis _, _ => none
  | .client, _ => none
  | .modify _, _ => none
  | .sendReply _, _ => none

def seeShell : (o : ShellOp) → o.Res → Option Call
  | .command o, r => seeCommand o r
  | .login _, _ => none

/-- The virtual file system: the database without the counter of the transactions. -/
def Redis.vfs (db : Redis) : Redis := { db with transaction_counter := 0 }

theorem eq_of_vfs {db db' : Redis} (h : db'.vfs = db.vfs) :
    ∃ n, db' = { db with transaction_counter := n } := by
  refine ⟨db'.transaction_counter, ?_⟩
  have hfid := congrArg Redis.fid_counter h
  have hdirent := congrArg Redis.dirent h
  have hstat := congrArg Redis.stat h
  have husername := congrArg Redis.username h
  ext1
  · exact hfid
  · rfl
  · exact hdirent
  · exact hstat
  · exact husername

/-- A system that answers every call in the same way, whenever it comes. -/
abbrev Answering := (o : SysOp) → o.Res

instance : Inhabited Answering := ⟨Env.calm 0⟩

/-- A world, and the calls seen so far. -/
abbrev Watched := World × List Call

/-- A command, watched. -/
def watchCommand (answer : Answering) : Handler CommandI Watched :=
  noted (serveCommand fun _ => answer) seeCommand

/-- A session, watched. -/
def watchShell (answer : Answering) : Handler ShellI Watched :=
  noted (serveShell fun _ => answer) seeShell

theorem timed_serveCommand (env : Env) :
    timed (fun answer : Answering => serveCommand fun _ => answer) World.clock env =
      serveCommand env := by
  funext o w
  cases o <;> rfl

theorem timed_serveShell (env : Env) :
    timed (fun answer : Answering => serveShell fun _ => answer) World.clock env =
      serveShell env := by
  funext o w
  cases o with
  | command o => cases o <;> rfl
  | login f => rfl

/-- The system is asked at most once at a time. -/
theorem serveCommand_readsOnce :
    ReadsOnce (fun answer : Answering => serveCommand fun _ => answer) World.clock := by
  intro o w
  cases o with
  | sys o => exact .inr fun _ => Nat.lt_succ_self _
  | redis o => exact .inl fun _ _ => ⟨rfl, rfl⟩
  | client => exact .inl fun _ _ => ⟨rfl, rfl⟩
  | modify f => exact .inl fun _ _ => ⟨rfl, rfl⟩
  | sendReply r => exact .inl fun _ _ => ⟨rfl, rfl⟩

theorem serveShell_readsOnce :
    ReadsOnce (fun answer : Answering => serveShell fun _ => answer) World.clock := by
  intro o w
  cases o with
  | command o => exact serveCommand_readsOnce o w
  | login f => exact .inl fun _ _ => ⟨rfl, rfl⟩

/-! ### Worlds side by side -/

/-- Two watched worlds: the client entries in the relation `L`, the same virtual file system, the
same replies behind `rs` and `rs'`, the same calls, and threads that are ready. -/
structure Beside (L : Client → Client → Prop) (ready : TransferThread → Prop)
    (rs rs' : List Reply) (s s' : Watched) : Prop where
  vfs : s'.1.db.vfs = s.1.db.vfs
  client : L s.1.client s'.1.client
  replies : ∃ new, s.1.replies = rs ++ new ∧ s'.1.replies = rs' ++ new
  calls : s'.2 = s.2
  ready : ∀ thread, ⟨.pthread_create thread, true⟩ ∈ s.2 → ready thread

/-- Operations that leave the client entry alone. -/
inductive Outer (ready : TransferThread → Prop) : Matching CommandI
  | redis {o : RedisOp} : o.Files → Outer ready (.redis o) (.redis o) Eq
  | transaction : Outer ready (.redis .incrTransactionCounter) (.redis .incrTransactionCounter)
      fun _ _ => True
  | sendReply (r : Reply) : Outer ready (.sendReply r) (.sendReply r) Eq
  | sys {o o' : SysOp} : o'.anonymous = o.anonymous →
      (∀ thread, o = .pthread_create thread → ready thread) →
      Outer ready (.sys o) (.sys o') fun r r' => HEq r r'

variable {L : Client → Client → Prop} {ready : TransferThread → Prop} {rs rs' : List Reply}
  {k k' : Known}

theorem applyAll_counter (ws : List Write) (db : Redis) (n : ℕ) :
    applyAll ws { db with transaction_counter := n } =
      { applyAll ws db with transaction_counter := n } := by
  induction ws generalizing db with
  | nil => rfl
  | cons w ws ih =>
      have hw : w.apply { db with transaction_counter := n } =
          { w.apply db with transaction_counter := n } := by
        cases w <;> rfl
      rw [applyAll_cons, applyAll_cons, hw]
      exact ih _

/-- A Redis command does the same whatever the counter of the transactions is. -/
theorem serveRedis_files {o : RedisOp} (ho : o.Files) (db : Redis) (n : ℕ) :
    serveRedis o { db with transaction_counter := n } =
      ((serveRedis o db).1, { (serveRedis o db).2 with transaction_counter := n }) := by
  cases o with
  | incrTransactionCounter => exact absurd rfl ho
  | multiExec ws =>
      show ((), applyAll ws { db with transaction_counter := n }) = _
      rw [applyAll_counter]
      rfl
  | _ => rfl

/-- A step that is no call to the system adds no threads. -/
theorem Beside.ready_quiet {s s' : Watched} (h : Beside L ready rs rs' s s') {cs : List Call}
    (hcs : cs = s.2 ++ []) :
    ∀ thread, ⟨.pthread_create thread, true⟩ ∈ cs → ready thread := by
  rw [List.append_nil] at hcs
  rw [hcs]
  exact h.ready

/-- Operations that leave the client entry alone keep any relation of the two. -/
theorem lockstep_outer :
    Lockstep (someAnswer watchCommand) (Outer ready) (Beside L ready rs rs') := by
  classical
  intro o o' V hop s s' r t hs hr
  obtain ⟨x, hx⟩ := hr
  have hfirst : (watchCommand x o s).1 = r := congrArg Prod.fst hx
  have hsecond : (watchCommand x o s).2 = t := congrArg Prod.snd hx
  subst hfirst hsecond
  have hcalls : s'.2 ++ [] = s.2 ++ [] := congrArg (· ++ []) hs.calls
  cases hop with
  | @redis o ho =>
      obtain ⟨n, hdb⟩ := eq_of_vfs hs.vfs
      have hserve := serveRedis_files ho s.1.db n
      rw [← hdb] at hserve
      refine ⟨_, _, ⟨x, rfl⟩, (congrArg Prod.fst hserve).symm, ?_, hs.client, hs.replies, hcalls,
        hs.ready_quiet rfl⟩
      show Redis.vfs (serveRedis o s'.1.db).2 = _
      rw [hserve]
      rfl
  | transaction =>
      exact ⟨_, _, ⟨x, rfl⟩, trivial, hs.vfs, hs.client, hs.replies, hcalls, hs.ready_quiet rfl⟩
  | sendReply reply =>
      obtain ⟨new, hnew, hnew'⟩ := hs.replies
      refine ⟨_, _, ⟨x, rfl⟩, rfl, hs.vfs, hs.client, ⟨new ++ [reply], ?_, ?_⟩, hcalls,
        hs.ready_quiet rfl⟩
      · show s.1.replies ++ [reply] = _
        rw [hnew, List.append_assoc]
      · show s'.1.replies ++ [reply] = _
        rw [hnew', List.append_assoc]
  | @sys o o' ho hthread =>
      have hres : o.Res = o'.Res := by
        rw [← o.res_anonymous, ← ho, o'.res_anonymous]
      have hanswer : HEq (x o) (cast hres (x o)) := (cast_heq hres (x o)).symm
      refine ⟨cast hres (x o), ({ s'.1 with clock := s'.1.clock + 1 },
        s'.2 ++ [Call.anonymous ⟨o', cast hres (x o)⟩]),
        ⟨Function.update x o' (cast hres (x o)), ?_⟩, hanswer, hs.vfs, hs.client, hs.replies, ?_, ?_⟩
      · show (Function.update x o' (cast hres (x o)) o', _, s'.2 ++ [Call.anonymous
          ⟨o', Function.update x o' (cast hres (x o)) o'⟩]) = _
        rw [Function.update_self]
        rfl
      · show s'.2 ++ _ = s.2 ++ [Call.anonymous ⟨o, x o⟩]
        rw [hs.calls, Call.anonymous_congr ho hanswer]
      · intro thread hmem
        have hseen : (⟨.pthread_create thread, true⟩ : Call) ∈ s.2 ++ [Call.anonymous ⟨o, x o⟩] :=
          hmem
        rw [List.mem_append, List.mem_singleton] at hseen
        obtain hold | hnow := hseen
        · exact hs.ready thread hold
        · apply hthread
          have hop : o.anonymous = .pthread_create thread := (congrArg Call.op hnow).symm
          cases o <;> simp_all [SysOp.anonymous]

theorem Outer.mono {ready' : TransferThread → Prop} (h : ∀ thread, ready thread → ready' thread)
    {o o' : CommandOp} {V : o.Res → o'.Res → Prop} (hop : Outer ready o o' V) :
    Outer ready' o o' V := by
  cases hop with
  | redis ho => exact .redis ho
  | transaction => exact .transaction
  | sendReply r => exact .sendReply r
  | sys ho hthread => exact .sys ho fun thread hcreate => h thread (hthread thread hcreate)

/-- The two changes take client entries that agree so far to ones that agree so far. -/
def Carries (k k' : Known) (f g : CommandState → CommandState) : Prop :=
  ∀ c (x : Unread), x.Agrees k c →
    ∃ y : Unread, y.Agrees k' (f c) ∧ g (c.withUnread x) = (f c).withUnread y

/-- Operations on client entries that agree so far: what is read agrees, and a change keeps all that
is known. -/
inductive Matched (k : Known) : Matching CommandI
  | outer {o o' : CommandOp} {V : o.Res → o'.Res → Prop} : Outer k.Ready o o' V → Matched k o o' V
  | client : Matched k .client .client (Client.Like k)
  | modify {f g : CommandState → CommandState} : (∀ k', Carries k' k' f g) →
      Matched k (.modify f) (.modify g) Eq

/-- Two watched worlds whose client entries agree so far. -/
abbrev Alike (k : Known) (rs rs' : List Reply) : Watched → Watched → Prop :=
  Beside (Client.Like k) k.Ready rs rs'

theorem Client.Like.mono {c c' : Client} (hk : k.Le k') (h : c.Like k' c') : c.Like k c' := by
  obtain ⟨x, hx, hc⟩ := h
  exact ⟨x, hx.mono hk, hc⟩

theorem lockstep_matched (hk : k.Le k') :
    Lockstep (someAnswer watchCommand) (Matched k) (Alike k' rs rs') := by
  intro o o' V hop s s' r t hs hr
  cases hop with
  | outer hop => exact lockstep_outer _ _ _ (hop.mono fun _ => Known.Ready.mono hk) s s' r t hs hr
  | client =>
      obtain ⟨x, hx⟩ := hr
      have hfirst : s.1.client = r := congrArg Prod.fst hx
      have hsecond : (s.1, s.2 ++ []) = t := congrArg Prod.snd hx
      subst hfirst hsecond
      exact ⟨_, _, ⟨x, rfl⟩, hs.client.mono hk, hs.vfs, hs.client, hs.replies,
        congrArg (· ++ []) hs.calls, hs.ready_quiet rfl⟩
  | @modify f g hcarries =>
      obtain ⟨x, hx⟩ := hr
      have hsecond : (watchCommand x (.modify f) s).2 = t := congrArg Prod.snd hx
      subst hsecond
      obtain ⟨y, hy, hc⟩ := hs.client
      obtain ⟨z, hz, hg⟩ := hcarries k' s.1.client.toCommandState y hy
      refine ⟨(), _, ⟨x, rfl⟩, rfl, hs.vfs, ⟨z, hz, ?_⟩, hs.replies, congrArg (· ++ []) hs.calls,
        hs.ready_quiet rfl⟩
      show ({ s'.1.client with toCommandState := g s'.1.client.toCommandState } : Client) = _
      rw [hc]
      show ({ s.1.client with toCommandState := g (s.1.client.toCommandState.withUnread y) } :
        Client) = _
      rw [hg]
      rfl

/-! ### Programs beside themselves -/

variable {α β γ : Type} {Q : α → β → Prop}

/-- An operation that leaves the client entry alone, and starts no thread. -/
def Plain : CommandOp → Prop
  | .redis o => o.Files
  | .client => False
  | .modify _ => False
  | .sendReply _ => True
  | .sys o => o.part ≠ some .create

theorem outer_plain {o : CommandOp} (h : Plain o) : Outer ready o o Eq := by
  cases o with
  | redis o => exact .redis h
  | client => exact h.elim
  | modify f => exact h.elim
  | sendReply r => exact .sendReply r
  | sys o =>
      have hsys : Outer ready (.sys o) (.sys o) fun r r' => HEq r r' := by
        refine .sys rfl fun thread ho => absurd ?_ h
        rw [ho]
        rfl
      have heq : (fun r r' : o.Res => HEq r r') = Eq := by
        funext r r'
        exact heq_eq_eq r r'
      rw [heq] at hsys
      exact hsys

theorem matched_plain {o : CommandOp} (h : Plain o) : Matched k o o Eq := .outer (outer_plain h)

/-- Programs of such operations go together with themselves. -/
theorem together_plain {p : CommandProg α} (hp : Every Plain p) : Together (Matched k) Eq p p :=
  hp.together fun _ => matched_plain

theorem plain_redis {p : RedisProg α} (hp : Every RedisOp.Files p) : Every Plain (redis p) :=
  every_redis hp

theorem plain_reads {p : RedisProg α} (hp : Every RedisOp.Reads p) : Every Plain (redis p) :=
  plain_redis (hp.mono files_of_reads)

theorem plain_sendReply (r : Reply) : Every Plain (sendReply r) := ⟨trivial, fun _ => trivial⟩

theorem plain_sys {o : SysOp} (ho : o.part ≠ some .create) : Every Plain (sys o) :=
  ⟨ho, fun _ => trivial⟩

theorem plain_rpc (answer : RpcResult α) : Every Plain (rpc answer) := by
  cases answer <;> trivial

theorem plain_onlyIf {b : Prop} [Decidable b] {p : CommandProg Unit} (hp : Every Plain p) :
    Every Plain (onlyIf b p) := by
  unfold onlyIf
  rw [every_ite]
  exact ⟨fun _ => hp, fun _ => trivial⟩

theorem plain_closeData (DataSock : Option ℕ) : Every Plain (closeData DataSock) := by
  cases DataSock with
  | none => trivial
  | some fd => exact plain_sys (by simp [SysOp.part])

theorem plain_statPath (pszPath : Option Text) : Every Plain (statPath pszPath) := by
  cases pszPath with
  | none => trivial
  | some path => exact (plain_reads (reads_stat path)).bind fun _ => trivial

theorem plain_getRandomSlave (cfg : Config) : Every Plain (getRandomSlave cfg) := by
  unfold getRandomSlave
  rw [every_sys_bind]
  refine ⟨by simp [Plain, SysOp.part], fun r => ?_⟩
  cases cfg.Slaves[r % cfg.Slaves.length % 65536]? <;> trivial

theorem plain_randomPort (cfg : Config) : Every Plain (randomPort cfg) := by
  refine ⟨by simp [Plain, SysOp.part], fun r => ?_⟩
  show Every _ (if _ then _ else _)
  rw [every_ite]
  exact ⟨fun _ => trivial, fun _ => trivial⟩

theorem plain_bindLoop (cfg : Config) (fd usFirstTry fuel usTriedPort : ℕ) :
    Every Plain (bindLoop cfg fd usFirstTry fuel usTriedPort) := by
  induction fuel generalizing usTriedPort with
  | zero => trivial
  | succ fuel ih =>
      refine ⟨by simp [Plain, SysOp.part], fun bound => ?_⟩
      show Every _ (if _ then _ else _)
      rw [every_ite]
      refine ⟨fun _ => trivial, fun _ => ?_⟩
      show Every _ (if _ then _ else _)
      rw [every_ite]
      exact ⟨fun _ => trivial, fun _ => ih _⟩

theorem plain_pasvSlave (cfg : Config) (cmd : PretCmd) (fid : ℤ) :
    Every Plain (pasvSlave cfg cmd fid) := by
  cases cmd with
  | stor =>
      show Every _ (if _ then _ else _)
      rw [every_ite]
      exact ⟨fun _ => (plain_sendReply _).bind fun _ => trivial, fun _ => plain_getRandomSlave cfg⟩
  | retr => exact plain_reads (reads_lookupSlaveInfoFid fid)
  | appe => exact plain_reads (reads_lookupSlaveInfoFid fid)

theorem plain_cmdStru (arg : Text) : Every Plain (cmdStru arg) := by
  unfold cmdStru
  rw [every_ite]
  exact ⟨fun _ => plain_sendReply _, fun _ => plain_sendReply _⟩

/-- Reading the client entry, where nothing unread is used. -/
theorem together_client_bind {f : Client → CommandProg α} {f' : Client → CommandProg β}
    (hf : ∀ c (x : Unread), x.Agrees k c.toCommandState →
      Together (Matched k) Q (f c) (f' (c.withUnread x))) :
    Together (Matched k) Q (client >>= f) (client >>= f') := by
  refine .call .client fun c c' hc => ?_
  obtain ⟨x, hx, rfl⟩ := hc
  exact hf c x hx

/-- Changing the client entry. -/
theorem together_modify_bind {f g : CommandState → CommandState} {p : Unit → CommandProg α}
    {p' : Unit → CommandProg β} (hcarries : ∀ k', Carries k' k' f g)
    (hp : Together (Matched k) Q (p ()) (p' ())) :
    Together (Matched k) Q (modify f >>= p) (modify g >>= p') :=
  .call (.modify hcarries) fun _ _ _ => hp

theorem together_modify {f g : CommandState → CommandState} (hcarries : ∀ k', Carries k' k' f g) :
    Together (Matched k) Eq (modify f) (modify g) :=
  .call (.modify hcarries) fun _ _ hr => .ret hr

theorem together_sendReply_bind (r : Reply) {p : Unit → CommandProg α} {p' : Unit → CommandProg β}
    (hp : Together (Matched k) Q (p ()) (p' ())) :
    Together (Matched k) Q (sendReply r >>= p) (sendReply r >>= p') :=
  .call (.outer (.sendReply r)) fun _ _ _ => hp

theorem together_sendReply (r : Reply) : Together (Matched k) Eq (sendReply r) (sendReply r) :=
  together_plain (plain_sendReply r)

/-- A call to the system that differs in its transaction identifier. -/
theorem together_call_bind {o o' : SysOp} {f : o.Res → CommandProg α} {f' : o'.Res → CommandProg β}
    (ho : o'.anonymous = o.anonymous) (hpart : o.part ≠ some .create)
    (hf : ∀ r r', HEq r r' → Together (Matched k) Q (f r) (f' r')) :
    Together (Matched k) Q (sys o >>= f) (sys o' >>= f') := by
  refine .call (.outer (.sys ho fun thread heq => absurd ?_ hpart)) hf
  rw [heq]
  rfl

/-- A plain program in front of two. -/
theorem together_plain_bind {p : CommandProg γ} {f : γ → CommandProg α} {f' : γ → CommandProg β}
    (hp : Every Plain p) (hf : ∀ c, Together (Matched k) Q (f c) (f' c)) :
    Together (Matched k) Q (p >>= f) (p >>= f') := by
  refine (together_plain hp).bind fun a b hab => ?_
  subst hab
  exact hf a

theorem together_sys_bind {o : SysOp} {f : o.Res → CommandProg α} {f' : o.Res → CommandProg β}
    (ho : o.part ≠ some .create) (hf : ∀ r, Together (Matched k) Q (f r) (f' r)) :
    Together (Matched k) Q (sys o >>= f) (sys o >>= f') :=
  together_plain_bind (plain_sys ho) hf

theorem together_ite {b : Prop} [Decidable b] {p q : CommandProg α} {p' q' : CommandProg β}
    (hp : b → Together (Matched k) Q p p') (hq : ¬ b → Together (Matched k) Q q q') :
    Together (Matched k) Q (if b then p else q) (if b then p' else q') := by
  by_cases hb : b
  · rw [if_pos hb, if_pos hb]
    exact hp hb
  · rw [if_neg hb, if_neg hb]
    exact hq hb

theorem together_onlyIf {b : Prop} [Decidable b] {p : CommandProg Unit}
    (hp : Together (Matched k) Eq p p) : Together (Matched k) Eq (onlyIf b p) (onlyIf b p) :=
  together_ite (fun _ => hp) fun _ => .ret rfl

theorem together_getNewTransactionId :
    Together (Matched k) (fun _ _ => True) (redis getNewTransactionId) (redis getNewTransactionId) :=
  .call (.outer .transaction) fun _ _ _ => .ret trivial

/-! ### Data connections -/

/-- A change that touches none of the fields. -/
theorem carries_same {f : CommandState → CommandState}
    (hunread : ∀ c x, f (c.withUnread x) = (f c).withUnread x)
    (hkeeps : ∀ c, (f c).unread = c.unread)
    (hport : ∀ c, (f c).eDataConnection = .port → c.eDataConnection = .port) : Carries k k f f := by
  intro c x hx
  have hip : (f c).ulDataIp = c.ulDataIp := congrArg Unread.ulDataIp (hkeeps c)
  have hpath : (f c).CurrentTransfer.szPath = c.CurrentTransfer.szPath :=
    congrArg Unread.szPath (hkeeps c)
  have hst : (f c).CurrentTransfer.st = c.CurrentTransfer.st := congrArg Unread.st (hkeeps c)
  have hcmd : (f c).CurrentTransfer.nCmd = c.CurrentTransfer.nCmd :=
    congrArg Unread.nCmd (hkeeps c)
  have hoptions : (f c).CurrentTransfer.options = c.CurrentTransfer.options :=
    congrArg Unread.options (hkeeps c)
  refine ⟨x, ⟨fun ha => ?_, fun hp => ?_, fun hl => ?_⟩, hunread c x⟩
  · rw [hip]
    exact hx.address (ha.imp_right (hport c))
  · rw [hpath]
    exact hx.path hp
  · rw [hst, hcmd, hoptions]
    exact hx.listing hl

theorem together_resetDataConnection (bSyncWait : Bool) :
    Together (Matched k) Eq (resetDataConnection bSyncWait) (resetDataConnection bSyncWait) := by
  refine together_client_bind fun c x _ => ?_
  refine together_plain_bind (plain_closeData _) fun _ => ?_
  refine together_plain_bind (plain_onlyIf (plain_sys (by simp [SysOp.part]))) fun _ => ?_
  refine together_modify fun k' c x hx => ?_
  refine ⟨{ x with szPath := [], st := none, nCmd := none, SockList := .none, options := {} }, ?_, rfl⟩
  exact ⟨fun ha => hx.address (.inl (ha.resolve_right (by simp))), fun _ => rfl,
    fun _ => ⟨rfl, rfl, rfl⟩⟩

theorem together_startTransfer {thread : TransferThread} (hready : k.Ready thread) :
    Together (Matched k) Eq (startTransfer thread) (startTransfer thread) := by
  have hset : ∀ b, ∀ k', Carries k' k' (fun c => { c with CurrentTransfer :=
      { c.CurrentTransfer with TransferThreadID := b } }) (fun c => { c with CurrentTransfer :=
      { c.CurrentTransfer with TransferThreadID := b } }) := fun b k' =>
    carries_same (fun _ _ => rfl) (fun _ => rfl) fun _ h => h
  refine together_client_bind fun c x _ => ?_
  refine together_modify_bind (hset true) ?_
  refine .call (.outer (.sys rfl fun t ht => ?_)) fun r r' hr => ?_
  · rw [← SysOp.pthread_create.inj ht]
    exact hready
  · obtain rfl := eq_of_heq hr
    refine together_ite (fun _ => .ret rfl) fun _ => ?_
    refine together_modify_bind (hset _) ?_
    exact (together_resetDataConnection true).bind fun _ _ _ => .ret rfl

theorem together_cmdMode (arg : Text) : Together (Matched k) Eq (cmdMode arg) (cmdMode arg) := by
  refine together_ite (fun _ => ?_) fun _ => together_ite (fun _ => together_sendReply _)
    fun _ => together_sendReply _
  exact together_modify_bind (fun k' => carries_same (fun _ _ => rfl) (fun _ => rfl) fun _ h => h)
    (together_sendReply _)

theorem together_cmdType (arg : Text) : Together (Matched k) Eq (cmdType arg) (cmdType arg) := by
  refine together_ite (fun _ => ?_) fun _ => together_ite (fun _ => ?_)
    fun _ => together_sendReply _
  · exact together_modify_bind (fun k' => carries_same (fun _ _ => rfl) (fun _ => rfl) fun _ h => h)
      (together_sendReply _)
  · exact together_modify_bind (fun k' => carries_same (fun _ _ => rfl) (fun _ => rfl) fun _ h => h)
      (together_sendReply _)

theorem together_cmdRest (pszCmdArg : Option Text) :
    Together (Matched k) Eq (cmdRest pszCmdArg) (cmdRest pszCmdArg) := by
  unfold cmdRest
  refine together_client_bind fun c x _ => ?_
  rw [Client.withUnread_eStatus]
  cases (if c.eStatus = .waiting then pszCmdArg else none) with
  | none => exact together_sendReply _
  | some arg =>
      exact together_modify_bind (fun k' => carries_same (fun _ _ => rfl) (fun _ => rfl)
        fun _ h => h) (together_sendReply _)

theorem together_cmdPort (cfg : Config) (pszCmdArg : Option Text) :
    Together (Matched k) Eq (cmdPort cfg pszCmdArg) (cmdPort cfg pszCmdArg) := by
  unfold cmdPort
  refine together_client_bind fun c x _ => ?_
  rw [Client.withUnread_eStatus]
  cases (if c.eStatus = .waiting then pszCmdArg.bind scanPort else none) with
  | none => exact together_sendReply _
  | some a =>
      refine (together_onlyIf (together_resetDataConnection true)).bind fun _ _ _ => ?_
      refine together_ite (fun _ => ?_) fun _ => together_sendReply _
      refine together_modify_bind (fun k' c x hx => ?_) (together_sendReply _)
      exact ⟨{ x with ulDataIp := a.1 }, ⟨fun _ => rfl, hx.path, hx.listing⟩, rfl⟩

theorem together_pasvLocal (cfg : Config) :
    Together (Matched k) Eq (pasvLocal cfg) (pasvLocal cfg) := by
  unfold pasvLocal
  refine together_client_bind fun c x _ => ?_
  refine (together_onlyIf (together_resetDataConnection true)).bind fun _ _ _ => ?_
  refine together_sys_bind (by simp [SysOp.part]) fun DataSock => ?_
  refine together_modify_bind (fun k' => carries_same (fun _ _ => rfl) (fun _ => rfl)
    fun _ h => h) ?_
  cases DataSock with
  | none => exact .ret rfl
  | some fd =>
      refine together_sys_bind (by simp [SysOp.part]) fun ok => ?_
      refine together_ite (fun _ => ?_) fun _ => .ret rfl
      refine together_modify_bind (fun k' => carries_same (fun _ _ => rfl) (fun _ => rfl)
        fun _ h => h) ?_
      refine together_plain_bind (plain_randomPort cfg) fun usFirstTry => ?_
      refine together_plain_bind (plain_bindLoop cfg fd usFirstTry _ _) fun usTriedPort => ?_
      refine together_modify_bind (fun k' => carries_same (fun _ _ => rfl) (fun _ => rfl)
        fun _ h => h) ?_
      refine together_ite (fun _ => together_sendReply _) fun _ => ?_
      refine together_sys_bind (by simp [SysOp.part]) fun ok => ?_
      refine together_ite (fun _ => ?_) fun _ => .ret rfl
      refine together_sendReply_bind _ ?_
      exact together_modify fun k' => carries_same (fun _ _ => rfl) (fun _ => rfl)
        fun _ h => absurd h (by simp)

theorem together_pasvRemote (cfg : Config) (cmd : PretCmd) :
    Together (Matched k) Eq (pasvRemote cfg cmd) (pasvRemote cfg cmd) := by
  unfold pasvRemote
  refine together_client_bind fun c x _ => ?_
  refine together_plain_bind (plain_pasvSlave cfg cmd _) fun slave => ?_
  refine together_modify_bind (fun k' => carries_same (fun _ _ => rfl) (fun _ => rfl)
    fun _ h => h) ?_
  refine together_getNewTransactionId.bind fun trans_id trans_id' _ => ?_
  refine together_modify_bind (fun k' c x hx => ?_) ?_
  · exact ⟨{ x with llPRET_trans_id := trans_id' }, ⟨hx.address, hx.path, hx.listing⟩, rfl⟩
  refine together_call_bind rfl (by simp [SysOp.part]) fun answer answer' hanswer => ?_
  obtain rfl := eq_of_heq hanswer
  refine together_plain_bind (plain_rpc answer) fun reply => ?_
  cases reply with
  | none => exact together_sendReply _
  | some reply =>
      refine together_sendReply_bind _ ?_
      exact together_modify fun k' => carries_same (fun _ _ => rfl) (fun _ => rfl)
        fun _ h => absurd h (by simp)

theorem together_cmdPasv (cfg : Config) : Together (Matched k) Eq (cmdPasv cfg) (cmdPasv cfg) := by
  unfold cmdPasv
  refine together_client_bind fun c x _ => ?_
  refine together_ite (fun _ => ?_) fun _ => together_sendReply _
  rw [Client.withUnread_nPRET_CMD]
  cases c.nPRET_CMD with
  | none => exact together_pasvLocal cfg
  | some cmd => exact together_pasvRemote cfg cmd

theorem together_cmdAbor : Together (Matched k) Eq cmdAbor cmdAbor := by
  refine together_client_bind fun c x _ => ?_
  refine Together.bind (together_onlyIf ?_) fun _ _ _ => together_sendReply _
  exact (together_resetDataConnection true).bind fun _ _ _ => together_sendReply _

theorem together_cmdPret (arg : Text) : Together (Matched k) Eq (cmdPret arg) (cmdPret arg) := by
  unfold cmdPret
  refine together_ite (fun _ => .stop _) fun _ => ?_
  refine together_modify_bind (fun k' => carries_same (fun _ _ => rfl) (fun _ => rfl)
    fun _ h => h) ?_
  refine together_ite (fun _ => ?_) fun _ => together_sendReply _
  refine together_ite (fun _ => .stop _) fun _ => together_client_bind fun c x _ => ?_
  refine together_plain_bind (plain_statPath _) fun found => ?_
  cases found with
  | none => exact together_sendReply _
  | some a =>
      refine together_ite (fun _ => ?_) fun _ => together_sendReply _
      refine together_plain_bind (plain_reads (reads_lookupFid _)) fun fid => ?_
      refine together_modify_bind (fun k' => carries_same (fun _ _ => rfl) (fun _ => rfl)
        fun _ h => h) ?_
      exact together_ite (fun _ => together_sendReply _) fun _ => together_sendReply _

/-! ### The commands on the virtual file system -/

/-- A command that asks the database about a path, and answers. -/
theorem together_redis_reply {p : RedisProg Reply} (hp : Every RedisOp.Files p) :
    Together (Matched k) Eq (redis p >>= sendReply) (redis p >>= sendReply) :=
  together_plain_bind (plain_redis hp) fun _ => together_sendReply _

theorem together_shellDele (arg : Text) :
    Together (Matched k) Eq (shellDele arg) (shellDele arg) :=
  together_client_bind fun _ _ _ =>
    together_redis_reply (every_cmdDele files_of_reads (fun _ _ _ => files_multiExec _) _)

theorem together_shellRmd (arg : Text) : Together (Matched k) Eq (shellRmd arg) (shellRmd arg) :=
  together_client_bind fun _ _ _ =>
    together_redis_reply (every_cmdRmd files_of_reads (fun _ _ _ => files_multiExec _) _)

theorem together_shellMkd (arg : Text) : Together (Matched k) Eq (shellMkd arg) (shellMkd arg) := by
  unfold shellMkd
  refine together_client_bind fun c x _ => ?_
  refine together_sys_bind (by simp [SysOp.part]) fun now => ?_
  rw [Client.withUnread_pUser]
  cases c.pUser with
  | none => exact together_sendReply _
  | some u =>
      exact together_redis_reply (every_cmdMkd files_of_reads (by simp [RedisOp.Files, RedisOp.part])
        (fun _ _ _ _ _ _ => files_multiExec _) _ _ _ _)

theorem together_shellRnfr (arg : Text) :
    Together (Matched k) Eq (shellRnfr arg) (shellRnfr arg) := by
  unfold shellRnfr
  refine together_client_bind fun c x _ => ?_
  refine together_plain_bind (plain_reads (reads_cmdRnfr _ _)) fun a => ?_
  exact together_modify_bind (fun k' => carries_same (fun _ _ => rfl) (fun _ => rfl)
    fun _ h => h) (together_sendReply _)

theorem together_shellRnto (arg : Text) :
    Together (Matched k) Eq (shellRnto arg) (shellRnto arg) := by
  unfold shellRnto
  refine together_client_bind fun c x _ => ?_
  refine together_plain_bind (plain_redis (every_cmdRnto files_of_reads
    (fun _ _ _ _ _ => files_multiExec _) _ _)) fun reply => ?_
  refine together_sendReply_bind _ ?_
  exact together_modify fun k' => carries_same (fun _ _ => rfl) (fun _ => rfl) fun _ h => h

theorem together_cmdMdtm (arg : Text) : Together (Matched k) Eq (cmdMdtm arg) (cmdMdtm arg) := by
  unfold cmdMdtm
  refine together_client_bind fun c x _ => ?_
  refine together_plain_bind (plain_statPath _) fun found => ?_
  cases found with
  | none => exact together_sendReply _
  | some a =>
      refine together_sys_bind (by simp [SysOp.part]) fun t => ?_
      cases t <;> exact together_sendReply _

theorem together_cmdSize (arg : Text) : Together (Matched k) Eq (cmdSize arg) (cmdSize arg) := by
  unfold cmdSize
  refine together_client_bind fun c x _ => ?_
  refine together_plain_bind (plain_statPath _) fun found => ?_
  cases found with
  | none => exact together_sendReply _
  | some a => exact together_ite (fun _ => together_sendReply _) fun _ => together_sendReply _

theorem together_cmdPwd : Together (Matched k) Eq cmdPwd cmdPwd :=
  together_client_bind fun _ _ _ => together_sendReply _

/-! ### Transfers -/

theorem together_openSlaveConnection :
    Together (Matched k) Eq openSlaveConnection openSlaveConnection := by
  unfold openSlaveConnection
  refine together_client_bind fun c x _ => ?_
  refine together_ite (fun _ => ?_) fun _ => .ret rfl
  refine together_call_bind rfl (by simp [SysOp.part]) fun answer answer' hanswer => ?_
  obtain rfl := eq_of_heq hanswer
  refine together_plain_bind (plain_rpc answer) fun reply => ?_
  cases reply with
  | none => exact together_sendReply_bind _ (.ret rfl)
  | some reply => exact together_sendReply_bind _ (.ret rfl)

theorem together_uploadPath (cmd : UploadCmd) (pszCmdArg : Option Text) :
    Together (Matched k) Eq (uploadPath cmd pszCmdArg) (uploadPath cmd pszCmdArg) := by
  unfold uploadPath
  refine together_client_bind fun c x _ => ?_
  cases cmd with
  | stor => exact .ret rfl
  | appe => exact .ret rfl
  | stou =>
      refine together_sys_bind (by simp [SysOp.part]) fun r => ?_
      generalize "file.".toList ++ (toString (r % 9999999)).toList = szName
      dsimp only
      rw [Client.buildPath_withUnread]
      cases c.buildPath (some szName) with
      | none => exact .ret rfl
      | some path =>
          refine together_plain_bind (plain_reads (reads_stat path)) fun st => ?_
          exact together_ite (fun _ => .ret rfl) fun _ => together_sendReply_bind _ (.ret rfl)

theorem together_appendOffset (path : Text) :
    Together (Matched k) Eq (appendOffset path) (appendOffset path) :=
  together_plain_bind (plain_reads (reads_stat path)) fun _ =>
    together_modify fun _ => carries_same (fun _ _ => rfl) (fun _ => rfl) fun _ h => h

/-! ### The transfer threads -/

theorem together_sendLast (msg : Option Reply) :
    Together (Matched k) Eq (sendLast msg) (sendLast msg) := by
  cases msg with
  | none => exact .ret rfl
  | some r => exact together_sendReply r

theorem together_whenConnected {kind : DataConnection} {msg : Option Reply}
    {half : CommandProg (Option Reply)} (hhalf : Together (Matched k) Eq half half) :
    Together (Matched k) Eq (whenConnected kind msg half) (whenConnected kind msg half) := by
  cases msg with
  | none => exact .ret rfl
  | some msg => exact together_client_bind fun c x _ => together_ite (fun _ => hhalf) fun _ => .ret rfl

/-- The record of an upload has the path of the transfer. -/
theorem together_recordUpload (hpath : k.path = true) (retval : StorRetVal) (fid : ℤ)
    (slave : SlaveInfo) :
    Together (Matched k) Eq (recordUpload retval fid slave) (recordUpload retval fid slave) := by
  unfold recordUpload
  refine together_ite (fun _ => together_client_bind fun c x hx => ?_) fun _ => .ret rfl
  rw [Client.withUnread_pUser]
  cases c.pUser with
  | none => exact .stop _
  | some u =>
      refine together_sys_bind (by simp [SysOp.part]) fun now => ?_
      have hsame : (c.withUnread x).CurrentTransfer.szPath = c.CurrentTransfer.szPath :=
        hx.path hpath
      rw [hsame]
      have hsave : ∀ path f, Every RedisOp.Files (saveNewFile now path f) := fun path f =>
        every_commit files_of_reads fun _ => files_multiExec _
      exact together_plain_bind (plain_redis (hsave _ _)) fun _ => .ret rfl

theorem together_finishUpload (hpath : k.path = true) (fid : ℤ) (slave : SlaveInfo)
    (answer : RpcResult StorRetVal) :
    Together (Matched k) Eq (finishUpload fid slave answer) (finishUpload fid slave answer) := by
  refine together_plain_bind (plain_rpc answer) fun a => ?_
  cases a with
  | none => exact together_sendReply_bind _ (.ret rfl)
  | some retval => exact (together_recordUpload hpath retval fid slave).bind fun _ _ _ => .ret rfl

theorem together_storeActive (hpath : k.path = true) (cfg : Config) (iflags : OpenFlag) (fid : ℤ) :
    Together (Matched k) Eq (storeActive cfg iflags fid) (storeActive cfg iflags fid) := by
  unfold storeActive
  refine together_ite (fun _ => together_sendReply_bind _ (.ret rfl)) fun _ => ?_
  refine together_plain_bind (plain_getRandomSlave cfg) fun slave => ?_
  refine together_getNewTransactionId.bind fun trans_id trans_id' _ => ?_
  refine together_client_bind fun c x hx => ?_
  refine together_plain_bind (plain_randomPort cfg) fun server_port => ?_
  refine together_sendReply_bind _ ?_
  refine together_call_bind rfl (by simp [SysOp.part]) fun answer answer' hanswer => ?_
  obtain rfl := eq_of_heq hanswer
  exact together_finishUpload hpath fid slave answer

theorem together_storePassive (hpath : k.path = true) (cfg : Config) (iflags : OpenFlag) (fid : ℤ) :
    Together (Matched k) Eq (storePassive cfg iflags fid) (storePassive cfg iflags fid) := by
  unfold storePassive
  refine together_client_bind fun c x hx => ?_
  refine together_ite (fun _ => together_sendReply_bind _ (.ret rfl)) fun _ => ?_
  refine together_client_bind fun c x hx => together_client_bind fun d y hy => ?_
  refine together_call_bind rfl (by simp [SysOp.part]) fun answer answer' hanswer => ?_
  obtain rfl := eq_of_heq hanswer
  exact together_finishUpload hpath fid _ answer

theorem together_storeTransfer (hpath : k.path = true) (cfg : Config) :
    Together (Matched k) Eq (storeTransfer cfg) (storeTransfer cfg) := by
  have hfid : Every RedisOp.Files getNewFid := ⟨by simp [RedisOp.Files, RedisOp.part], fun _ => trivial⟩
  unfold storeTransfer
  refine together_client_bind fun c x hx => ?_
  refine together_plain_bind (plain_redis hfid) fun fid => ?_
  refine Together.bind (together_whenConnected (together_storeActive hpath cfg _ fid)) ?_
  intro msg msg' hmsg
  subst hmsg
  refine Together.bind (together_whenConnected (together_storePassive hpath cfg _ fid)) ?_
  intro msg msg' hmsg
  subst hmsg
  exact together_sendLast msg

theorem together_finishRetrieve (answer : RpcResult Reply) :
    Together (Matched k) Eq (finishRetrieve answer) (finishRetrieve answer) := by
  refine together_plain_bind (plain_rpc answer) fun a => ?_
  cases a with
  | none => exact together_sendReply_bind _ (.ret rfl)
  | some r => exact .ret rfl

theorem together_retrieveActive (hpath : k.path = true) (cfg : Config) (fid : ℤ) :
    Together (Matched k) Eq (retrieveActive cfg fid) (retrieveActive cfg fid) := by
  unfold retrieveActive
  refine together_ite (fun _ => together_client_bind fun c x hx => ?_) fun _ => .ret rfl
  have hsame : (c.withUnread x).CurrentTransfer.szPath = c.CurrentTransfer.szPath := hx.path hpath
  rw [hsame]
  refine together_plain_bind (plain_reads (reads_lookupSlaveInfo _)) fun slave => ?_
  refine together_getNewTransactionId.bind fun trans_id trans_id' _ => ?_
  refine together_client_bind fun d y hy => ?_
  refine together_plain_bind (plain_randomPort cfg) fun server_port => ?_
  refine together_sendReply_bind _ ?_
  refine together_call_bind rfl (by simp [SysOp.part]) fun answer answer' hanswer => ?_
  obtain rfl := eq_of_heq hanswer
  exact together_finishRetrieve answer

theorem together_retrievePassive (cfg : Config) (fid : ℤ) :
    Together (Matched k) Eq (retrievePassive cfg fid) (retrievePassive cfg fid) := by
  unfold retrievePassive
  refine together_client_bind fun c x hx => ?_
  refine together_ite (fun _ => together_sendReply_bind _ (.ret rfl)) fun _ => ?_
  refine together_client_bind fun c x hx => ?_
  refine together_ite (fun _ => together_sendReply_bind _ (.ret rfl)) fun _ => ?_
  refine together_client_bind fun c x hx => together_client_bind fun d y hy => ?_
  refine together_call_bind rfl (by simp [SysOp.part]) fun answer answer' hanswer => ?_
  obtain rfl := eq_of_heq hanswer
  exact together_finishRetrieve answer

theorem together_retrieveTransfer (hpath : k.path = true) (cfg : Config) :
    Together (Matched k) Eq (retrieveTransfer cfg) (retrieveTransfer cfg) := by
  unfold retrieveTransfer
  refine together_client_bind fun c x hx => ?_
  have hsame : (c.withUnread x).CurrentTransfer.szPath = c.CurrentTransfer.szPath := hx.path hpath
  rw [hsame]
  refine together_plain_bind (plain_reads (reads_lookupFid _)) fun fid => ?_
  refine Together.bind (together_whenConnected (together_retrieveActive hpath cfg fid)) ?_
  intro msg msg' hmsg
  subst hmsg
  refine Together.bind (together_whenConnected (together_retrievePassive cfg fid)) ?_
  intro msg msg' hmsg
  subst hmsg
  exact together_sendLast msg

theorem together_listTransfer (hpath : k.path = true) (hlisting : k.listing = true) :
    Together (Matched k) Eq listTransfer listTransfer := by
  unfold listTransfer
  refine together_client_bind fun c x hx => ?_
  obtain ⟨hst, -, hoptions⟩ := hx.listing hlisting
  have hsame : (c.withUnread x).CurrentTransfer.szPath = c.CurrentTransfer.szPath := hx.path hpath
  have hst' : (c.withUnread x).CurrentTransfer.st = c.CurrentTransfer.st := hst
  have hoptions' : (c.withUnread x).CurrentTransfer.options = c.CurrentTransfer.options := hoptions
  rw [hsame, hst', hoptions']
  have hlist : Every Plain (discard (redis (listDirectory c.CurrentTransfer.szPath))) :=
    (plain_reads (reads_listDirectory _)).bind fun _ => every_ret _
  refine together_plain_bind (plain_onlyIf hlist) fun _ => ?_
  refine together_client_bind fun d y hy => ?_
  have hcmd : (d.withUnread y).CurrentTransfer.nCmd = d.CurrentTransfer.nCmd :=
    (hy.listing hlisting).2.1
  rw [hcmd]
  exact together_ite (fun _ => together_sendReply _) fun _ => together_sendReply _

/-- **A transfer thread** that is ready does the same beside itself. -/
theorem together_body (cfg : Config) {thread : TransferThread} (hready : k.Ready thread) :
    Together (Matched k) Eq (thread.body cfg) (thread.body cfg) := by
  cases thread with
  | list => exact together_listTransfer hready.1 hready.2
  | retrieve => exact together_retrieveTransfer hready cfg
  | store => exact together_storeTransfer hready cfg

/-! ### Lines -/

/-- Two watched worlds that agree as far as before, or further. -/
def Onward (k : Known) (rs rs' : List Reply) (s s' : Watched) : Prop :=
  ∃ k', k.Le k' ∧ Alike k' rs rs' s s'

/-- A command does the same from worlds that agree so far. -/
def Goes (k : Known) (p : CommandProg α) : Prop :=
  ∀ rs rs', Paired (someAnswer watchCommand) (Alike k rs rs') p p fun a b s s' =>
    b = a ∧ Onward k rs rs' s s'

theorem paired_of_together {R : Watched → Watched → Prop} {p : CommandProg α} {p' : CommandProg β}
    (h : Together (Matched k) Q p p') (hR : ∀ s s', R s s' → Alike k rs rs' s s') :
    Paired (someAnswer watchCommand) R p p' fun a b s s' => Q a b ∧ Alike k rs rs' s s' :=
  (h.paired (lockstep_matched (Known.Le.refl k))).imp hR fun _ _ _ _ hq => hq

theorem onward_of_together {R : Watched → Watched → Prop} {p : CommandProg α}
    (h : Together (Matched k') Eq p p) (hk : k.Le k')
    (hR : ∀ s s', R s s' → Alike k' rs rs' s s') :
    Paired (someAnswer watchCommand) R p p fun a b s s' => b = a ∧ Onward k rs rs' s s' :=
  (paired_of_together h hR).imp (fun _ _ hs => hs) fun _ _ _ _ hq => ⟨hq.1.symm, k', hk, hq.2⟩

theorem goes_of_together {p : CommandProg α} (h : Together (Matched k) Eq p p) : Goes k p :=
  fun _ _ => onward_of_together h (Known.Le.refl k) fun _ _ hs => hs

/-- The rule of sequences: the second part begins with what is known behind the first. -/
theorem onward_bind {I : Interface} {A : Answers I Watched} {p : Prog I α} {f : α → Prog I β}
    (hp : Paired A (Alike k rs rs') p p fun a b s s' => b = a ∧ Onward k rs rs' s s')
    (hf : ∀ a k', k.Le k' → Paired A (Alike k' rs rs') (f a) (f a) fun c d s s' =>
      d = c ∧ Onward k' rs rs' s s') :
    Paired A (Alike k rs rs') (p >>= f) (p >>= f) fun c d s s' =>
      d = c ∧ Onward k rs rs' s s' := by
  refine hp.bind fun a b => ?_
  intro s s' hs c t hends
  obtain ⟨hsame, k', hk, hs'⟩ := hs
  subst hsame
  obtain ⟨d, t', hends', hd, k'', hk', ht⟩ := hf b k' hk s s' hs' c t hends
  exact ⟨d, t', hends', hd, k'', hk.trans hk', ht⟩

theorem Goes.bind {p : CommandProg α} {f : α → CommandProg β} (hp : Goes k p)
    (hf : ∀ a k', k.Le k' → Goes k' (f a)) : Goes k (p >>= f) := by
  intro rs rs'
  exact onward_bind (hp rs rs') fun a k' hk => hf a k' hk rs rs'

/-- What is read is remembered. -/
theorem paired_client_bind {P : Client → Prop} {f : Client → CommandProg α}
    {f' : Client → CommandProg β} {T : α → β → Watched → Watched → Prop}
    (hf : ∀ c (x : Unread), x.Agrees k c.toCommandState → P c →
      Paired (someAnswer watchCommand) (fun s s' => Alike k rs rs' s s' ∧ s.1.client = c) (f c)
        (f' (c.withUnread x)) T) :
    Paired (someAnswer watchCommand) (fun s s' => Alike k rs rs' s s' ∧ P s.1.client)
      (client >>= f) (client >>= f') T := by
  intro s s' hs a t hends
  obtain ⟨c, u, hread, hrest⟩ := hends
  obtain ⟨c', u', hread', hc, hu⟩ :=
    lockstep_matched (Known.Le.refl k) _ _ _ .client s s' c u hs.1 hread
  obtain ⟨x, hx, rfl⟩ := hc
  obtain ⟨y, hy⟩ := hread
  have hclient : s.1.client = c := congrArg Prod.fst hy
  have hkept : u.1.client = c := by
    rw [← hclient]
    exact congrArg (fun a => a.2.1.client) hy.symm
  obtain ⟨b, t', hrest', ht⟩ := hf c x hx (by rw [← hclient]; exact hs.2) u u' ⟨hu, hkept⟩ a t hrest
  exact ⟨b, t', ⟨_, u', hread', hrest'⟩, ht⟩

/-- Reading the client entry, where nothing unread is used. -/
theorem goes_client_bind {f : Client → CommandProg α} (hsame : ∀ c x, f (c.withUnread x) = f c)
    (hf : ∀ c, Goes k (f c)) : Goes k (client >>= f) := by
  intro rs rs'
  have hbind : Paired (someAnswer watchCommand) (fun s s' => Alike k rs rs' s s' ∧ True)
      (client >>= f) (client >>= f) fun a b s s' => b = a ∧ Onward k rs rs' s s' := by
    refine paired_client_bind (P := fun _ => True) fun c x _ _ => ?_
    rw [hsame]
    exact (hf c rs rs').imp (fun _ _ hs => hs.1) fun _ _ _ _ hq => hq
  exact hbind.imp (fun _ _ hs => ⟨hs, trivial⟩) fun _ _ _ _ hq => hq

/-- A change behind which more is known. -/
theorem goes_raise_bind {f : CommandState → CommandState} {p : Unit → CommandProg α}
    (hk : k.Le k') (hcarries : Carries k k' f f) (hp : Goes k' (p ())) :
    Goes k (modify f >>= p) := by
  intro rs rs' s s' hs a t hends
  obtain ⟨r, u, ⟨x, hx⟩, hrest⟩ := hends
  have hsecond : (watchCommand x (.modify f) s).2 = u := congrArg Prod.snd hx
  subst hsecond
  obtain ⟨y, hy, hc⟩ := hs.client
  obtain ⟨z, hz, hf⟩ := hcarries s.1.client.toCommandState y hy
  have hclient : ({ s'.1.client with toCommandState := f s'.1.client.toCommandState } : Client) =
      ({ s.1.client with toCommandState := f s.1.client.toCommandState } : Client).withUnread z := by
    rw [hc]
    show ({ s.1.client with toCommandState := f (s.1.client.toCommandState.withUnread y) } :
      Client) = _
    rw [hf]
    rfl
  have hu : Alike k' rs rs' (watchCommand x (.modify f) s).2 (watchCommand x (.modify f) s').2 :=
    ⟨hs.vfs, ⟨z, hz, hclient⟩, hs.replies, congrArg (· ++ []) hs.calls,
      fun thread hmem => (hs.ready_quiet rfl thread hmem).mono hk⟩
  obtain ⟨b, t', hrest', hb, k'', hk', ht⟩ := hp rs rs' _ _ hu a t hrest
  exact ⟨b, t', ⟨(), _, ⟨x, rfl⟩, hrest'⟩, hb, k'', hk.trans hk', ht⟩

theorem goes_ite {b : Prop} [Decidable b] {p q : CommandProg α} (hp : b → Goes k p)
    (hq : ¬ b → Goes k q) : Goes k (if b then p else q) := by
  by_cases hb : b
  · rw [if_pos hb]
    exact hp hb
  · rw [if_neg hb]
    exact hq hb

theorem goes_onlyIf {b : Prop} [Decidable b] {p : CommandProg Unit} (hp : Goes k p) :
    Goes k (onlyIf b p) :=
  goes_ite (fun _ => hp) fun _ => goes_of_together (.ret rfl)

theorem goes_plain_bind {p : CommandProg γ} {f : γ → CommandProg α} (hp : Every Plain p)
    (hf : ∀ c k', k.Le k' → Goes k' (f c)) : Goes k (p >>= f) :=
  (goes_of_together (together_plain hp)).bind hf

theorem goes_sendReply (r : Reply) : Goes k (sendReply r) := goes_of_together (together_sendReply r)

theorem goes_withPrivilege {ucPriv : ℕ} {body : CommandProg Unit} (hbody : Goes k body) :
    Goes k (withPrivilege ucPriv body) :=
  goes_client_bind (fun _ _ => rfl) fun _ => goes_ite (fun _ => hbody) fun _ => goes_sendReply _

theorem goes_withArg {body : Text → CommandProg Unit} (pszCmdArg : Option Text) (refusal : String)
    (hbody : ∀ arg, Goes k (body arg)) : Goes k (withArg pszCmdArg refusal body) := by
  cases pszCmdArg with
  | none => exact goes_sendReply _
  | some arg => exact hbody arg

theorem goes_discard {p : CommandProg α} (hp : Goes k p) : Goes k (discard p) :=
  hp.bind fun _ _ _ => goes_of_together (.ret rfl)

/-- `RETR`: the path is known behind its assignment. -/
theorem goes_cmdRetr (arg : Text) : Goes k (cmdRetr arg) := by
  unfold cmdRetr
  refine goes_client_bind (fun _ _ => rfl) fun c => ?_
  refine goes_plain_bind (plain_statPath _) fun found k₁ _ => ?_
  cases found with
  | none => exact goes_sendReply _
  | some a =>
      refine goes_ite (fun _ => ?_) fun _ => goes_sendReply _
      refine (goes_of_together together_openSlaveConnection).bind fun opened k₂ _ => goes_onlyIf ?_
      have hle : k₂.Le { k₂ with path := true } := ⟨id, fun _ => rfl, id⟩
      refine goes_raise_bind hle ?_ ?_
      · intro c x hx
        exact ⟨{ x with szPath := a.1 }, ⟨hx.address, fun _ => rfl, hx.listing⟩, rfl⟩
      · exact goes_discard (goes_of_together (together_startTransfer rfl))

/-- `STOR`, `APPE` and `STOU`. -/
theorem goes_cmdStore (cmd : UploadCmd) (pszCmdArg : Option Text) :
    Goes k (cmdStore cmd pszCmdArg) := by
  unfold cmdStore
  refine goes_ite (fun _ => ?_) fun _ => goes_of_together (together_sendReply_bind _ (.ret rfl))
  refine (goes_of_together (together_uploadPath cmd pszCmdArg)).bind fun path k₁ _ => ?_
  cases path with
  | none => exact goes_of_together (.ret rfl)
  | some path =>
      refine (goes_of_together together_openSlaveConnection).bind fun opened k₂ _ => ?_
      refine goes_ite (fun _ => ?_) fun _ => goes_of_together (.ret rfl)
      refine goes_raise_bind (Known.Le.refl k₂) (carries_same (fun _ _ => rfl) (fun _ => rfl)
        fun _ h => h) ?_
      refine (goes_of_together (together_onlyIf (together_appendOffset path))).bind fun _ k₃ _ => ?_
      have hle : k₃.Le { k₃ with path := true } := ⟨id, fun _ => rfl, id⟩
      refine goes_raise_bind hle ?_ ?_
      · intro c x hx
        exact ⟨{ x with szPath := path }, ⟨hx.address, fun _ => rfl, hx.listing⟩, rfl⟩
      · exact goes_of_together (together_startTransfer rfl)

/-! ### Listings -/

theorem together_acceptData (fd : ℕ) :
    Together (Matched k) Eq (acceptData fd) (acceptData fd) := by
  unfold acceptData
  refine together_sys_bind (by simp [SysOp.part]) fun ready => ?_
  refine together_ite (fun _ => ?_) fun _ => .ret rfl
  refine together_sys_bind (by simp [SysOp.part]) fun sTmpWs => ?_
  refine together_sys_bind (by simp [SysOp.part]) fun _ => ?_
  refine together_modify_bind (fun k' => carries_same (fun _ _ => rfl) (fun _ => rfl)
    fun _ h => h) ?_
  exact together_ite (fun _ => together_sendReply_bind _ (.ret rfl)) fun _ => .ret rfl

theorem together_connectData (haddress : k.address = true) (cfg : Config) (fd : ℕ) :
    Together (Matched k) Eq (connectData cfg fd) (connectData cfg fd) := by
  unfold connectData
  refine together_client_bind fun c x hx => ?_
  refine together_plain_bind (plain_randomPort cfg) fun port => ?_
  refine together_sys_bind (by simp [SysOp.part]) fun _ => ?_
  refine together_sys_bind (by simp [SysOp.part]) fun bound => ?_
  have hsame : (c.withUnread x).ulDataIp = c.ulDataIp := hx.address (.inl haddress)
  rw [hsame]
  exact together_ite (fun _ => together_plain (plain_sys (by simp [SysOp.part]))) fun _ => .ret rfl

theorem together_activeSocket : Together (Matched k) Eq activeSocket activeSocket := by
  unfold activeSocket
  refine together_sendReply_bind _ (together_sys_bind (by simp [SysOp.part]) fun DataSock => ?_)
  exact together_modify fun _ => carries_same (fun _ _ => rfl) (fun _ => rfl) fun _ h => h

theorem together_tryDataConnection (haddress : k.address = true) (cfg : Config) :
    Together (Matched k) Eq (tryDataConnection cfg) (tryDataConnection cfg) := by
  unfold tryDataConnection
  refine together_client_bind fun c x _ => ?_
  rw [Client.withUnread_DataSock]
  cases c.DataSock with
  | none => exact .ret rfl
  | some fd =>
      refine together_sys_bind (by simp [SysOp.part]) fun ok => ?_
      refine together_ite (fun _ => ?_) fun _ => .ret rfl
      exact together_ite (fun _ => together_acceptData fd) fun _ =>
        together_connectData haddress cfg fd

/-- The end of `OpenDataConnection`. -/
theorem together_opened (opened : Bool) :
    Together (Matched k) Eq
      (if opened then (return true : CommandProg Bool) else do
        sendReply (.line 425 "Can't open data connection.")
        resetDataConnection true
        return false)
      (if opened then return true else do
        sendReply (.line 425 "Can't open data connection.")
        resetDataConnection true
        return false) :=
  together_ite (fun _ => .ret rfl) fun _ => together_sendReply_bind _
    ((together_resetDataConnection true).bind fun _ _ _ => .ret rfl)

/-- A passive connection does not use the address of `PORT`. -/
theorem paired_tryPassive (cfg : Config) :
    Paired (someAnswer watchCommand)
      (fun s s' => Alike k rs rs' s s' ∧ s.1.client.eDataConnection = .pasv)
      (tryDataConnection cfg) (tryDataConnection cfg) fun a b s s' => a = b ∧ Alike k rs rs' s s' := by
  unfold tryDataConnection
  refine paired_client_bind (P := fun c => c.eDataConnection = .pasv) fun c x _ hpasv => ?_
  refine paired_of_together ?_ fun _ _ hs => hs.1
  rw [Client.withUnread_DataSock]
  cases c.DataSock with
  | none => exact .ret rfl
  | some fd =>
      refine together_sys_bind (by simp [SysOp.part]) fun ok => ?_
      refine together_ite (fun _ => ?_) fun _ => .ret rfl
      exact together_ite (fun _ => together_acceptData fd) fun hother => absurd hpasv hother

/-- `OpenDataConnection`: an active connection goes to the address of `PORT`, which then agrees. -/
theorem goes_openDataConnection (cfg : Config) : Goes k (openDataConnection cfg) := by
  intro rs rs'
  have hbind : Paired (someAnswer watchCommand) (fun s s' => Alike k rs rs' s s' ∧ True)
      (openDataConnection cfg) (openDataConnection cfg) fun a b s s' =>
        b = a ∧ Onward k rs rs' s s' := by
    unfold openDataConnection
    refine paired_client_bind (P := fun _ => True) fun c x _ _ => ?_
    rw [Client.withUnread_eDataConnection]
    cases hconn : c.eDataConnection with
    | none =>
        exact onward_of_together (together_sendReply_bind _ (.ret rfl)) (Known.Le.refl k)
          fun _ _ hs => hs.1
    | port =>
        have hle : k.Le { k with address := true } := ⟨fun _ => rfl, id, id⟩
        refine onward_of_together ?_ hle ?_
        · rw [if_neg (by simp)]
          refine (together_onlyIf together_activeSocket).bind fun _ _ _ => ?_
          refine (together_tryDataConnection rfl cfg).bind fun opened opened' hopened => ?_
          subst hopened
          exact together_opened opened
        · intro s s' hs
          obtain ⟨y, hy, hc⟩ := hs.1.client
          have hport : s.1.client.eDataConnection = .port := by
            rw [hs.2]
            exact hconn
          exact ⟨hs.1.vfs, ⟨y, ⟨fun _ => hy.address (.inr hport), hy.path, hy.listing⟩, hc⟩,
            hs.1.replies, hs.1.calls, hs.1.ready⟩
    | pasv =>
        rw [if_neg (by simp), onlyIf, if_neg (by simp)]
        show Paired _ _ (tryDataConnection cfg >>= _) (tryDataConnection cfg >>= _) _
        refine Paired.bind (Q := fun a b s s' => a = b ∧ Alike k rs rs' s s') ?_ fun a b => ?_
        · refine (paired_tryPassive cfg).imp (fun s s' hs => ⟨hs.1, ?_⟩) fun _ _ _ _ hq => hq
          rw [hs.2]
          exact hconn
        · intro s s' hs
          obtain ⟨rfl, halike⟩ := hs
          exact onward_of_together (together_opened a) (Known.Le.refl k) (fun _ _ h => h) s s' halike
  exact hbind.imp (fun _ _ hs => ⟨hs, trivial⟩) fun _ _ _ _ hq => hq

theorem goes_openListing (cfg : Config) (nCmd : Cmd) : Goes k (openListing cfg nCmd) := by
  have hsock : ∀ b (k' : Known), Carries k' k' (fun c : CommandState => { c with CurrentTransfer :=
      { c.CurrentTransfer with SockList := b } }) (fun c => { c with CurrentTransfer :=
      { c.CurrentTransfer with SockList := b } }) := by
    intro b k' c x hx
    exact ⟨{ x with SockList := b }, ⟨hx.address, hx.path, hx.listing⟩, rfl⟩
  unfold openListing
  refine goes_ite (fun _ => ?_) fun _ => ?_
  · exact goes_of_together (together_sendReply_bind _ (together_modify_bind (hsock _) (.ret rfl)))
  · refine (goes_openDataConnection cfg).bind fun opened k' _ => goes_of_together ?_
    exact (together_onlyIf (together_modify (hsock _))).bind fun _ _ _ => .ret rfl

/-- `LIST`, `NLST` and `STAT`: behind the assignment to the current transfer everything agrees. -/
theorem goes_cmdList (cfg : Config) (nCmd : Cmd) (pszCmdArg : Option Text) :
    Goes k (cmdList cfg nCmd pszCmdArg) := by
  unfold cmdList
  refine goes_client_bind (fun _ _ => rfl) fun c => ?_
  refine goes_ite (fun _ => goes_sendReply _) fun _ => ?_
  generalize (pszCmdArg.map fun arg => (scanOptions .dash {} arg).1).getD {} = options
  generalize (pszCmdArg.map fun arg => (scanOptions .dash {} arg).2) = pszArg
  have hle : k.Le { k with path := true, listing := true } := ⟨id, fun _ => rfl, fun _ => rfl⟩
  refine goes_raise_bind hle ?_ ?_
  · intro d x hx
    exact ⟨⟨x.ulDataIp, x.llPRET_trans_id, [], none, none, .none, options⟩,
      ⟨hx.address, fun _ => rfl, fun _ => ⟨rfl, rfl, rfl⟩⟩, rfl⟩
  refine goes_plain_bind (plain_statPath _) fun found k₁ hk₁ => ?_
  cases found with
  | none => exact goes_sendReply _
  | some a =>
      refine goes_raise_bind (Known.Le.refl k₁) ?_ ?_
      · intro d x hx
        exact ⟨{ x with szPath := a.1, st := some a.2 },
          ⟨hx.address, fun _ => rfl, fun hl => ⟨rfl, (hx.listing hl).2⟩⟩, rfl⟩
      refine (goes_openListing cfg nCmd).bind fun opened k₂ hk₂ => goes_onlyIf ?_
      refine goes_raise_bind (Known.Le.refl k₂) ?_ ?_
      · intro d x hx
        exact ⟨{ x with nCmd := some nCmd },
          ⟨hx.address, hx.path, fun hl => ⟨(hx.listing hl).1, rfl, (hx.listing hl).2.2⟩⟩, rfl⟩
      have hk := hk₁.trans hk₂
      exact goes_discard (goes_of_together (together_startTransfer ⟨hk.path rfl, hk.listing rfl⟩))

/-- **Every command** does the same from worlds that agree so far. -/
theorem goes_shellCmd (cfg : Config) (nCmd : Cmd) (pszCmdArg : Option Text) :
    Goes k (shellCmd cfg nCmd pszCmdArg) := by
  have hlist : ∀ cmd, Goes k (withPrivilege LIST (cmdList cfg cmd pszCmdArg)) :=
    fun cmd => goes_withPrivilege (goes_cmdList cfg cmd pszCmdArg)
  have hstore : ∀ cmd, Goes k (withPrivilege WRITEFILE (discard (cmdStore cmd pszCmdArg))) :=
    fun cmd => goes_withPrivilege (goes_discard (goes_cmdStore cmd pszCmdArg))
  cases nCmd with
  | clnt => exact goes_withArg _ _ fun _ => goes_sendReply _
  | stru => exact goes_withArg _ _ fun arg => goes_of_together (together_plain (plain_cmdStru arg))
  | opts => exact goes_withArg _ _ fun _ => goes_sendReply _
  | mode => exact goes_withArg _ _ fun arg => goes_of_together (together_cmdMode arg)
  | type => exact goes_withArg _ _ fun arg => goes_of_together (together_cmdType arg)
  | port => exact goes_of_together (together_cmdPort cfg pszCmdArg)
  | pret => exact goes_withArg _ _ fun arg => goes_of_together (together_cmdPret arg)
  | pasv => exact goes_of_together (together_cmdPasv cfg)
  | list => exact hlist _
  | nlst => exact hlist _
  | stat => exact goes_ite (fun _ => goes_sendReply _) fun _ => hlist _
  | mdtm => exact goes_withArg _ _ fun arg => goes_of_together (together_cmdMdtm arg)
  | pwd => exact goes_of_together together_cmdPwd
  | xpwd => exact goes_of_together together_cmdPwd
  | abor => exact goes_of_together together_cmdAbor
  | rest => exact goes_of_together (together_cmdRest pszCmdArg)
  | retr => exact goes_withPrivilege (goes_withArg _ _ goes_cmdRetr)
  | stor => exact hstore .stor
  | appe => exact hstore .appe
  | stou => exact hstore .stou
  | size => exact goes_withArg _ _ fun arg => goes_of_together (together_cmdSize arg)
  | dele =>
      exact goes_withPrivilege (goes_withArg _ _ fun arg => goes_of_together (together_shellDele arg))
  | rnfr =>
      exact goes_withPrivilege (goes_withArg _ _ fun arg => goes_of_together (together_shellRnfr arg))
  | rnto => exact goes_withArg _ _ fun arg => goes_of_together (together_shellRnto arg)
  | mkd =>
      exact goes_withPrivilege (goes_withArg _ _ fun arg => goes_of_together (together_shellMkd arg))
  | xmkd =>
      exact goes_withPrivilege (goes_withArg _ _ fun arg => goes_of_together (together_shellMkd arg))
  | rmd =>
      exact goes_withPrivilege (goes_withArg _ _ fun arg => goes_of_together (together_shellRmd arg))
  | xrmd =>
      exact goes_withPrivilege (goes_withArg _ _ fun arg => goes_of_together (together_shellRmd arg))
  | _ => exact goes_sendReply _

/-! ### The loop -/

/-- A program of the session does the same from worlds that agree so far. -/
def GoesShell (k : Known) (p : ShellProg α) : Prop :=
  ∀ rs rs', Paired (someAnswer watchShell) (Alike k rs rs') p p fun a b s s' =>
    b = a ∧ Onward k rs rs' s s'

/-- A command in a session runs as it does alone. -/
theorem paired_command {R : Watched → Watched → Prop} {p : CommandProg α} {p' : CommandProg β}
    {T : α → β → Watched → Watched → Prop} (h : Paired (someAnswer watchCommand) R p p' T) :
    Paired (someAnswer watchShell) R (command p) (command p') T :=
  h.translate (I := CommandI) (J := ShellI) (fun _ r => ⟨r, rfl⟩) fun _ _ _ _ => Iff.rfl

theorem goesShell_command {p : CommandProg α} (h : Goes k p) : GoesShell k (command p) :=
  fun rs rs' => paired_command (h rs rs')

theorem goesShell_ret (a : α) : GoesShell k (.ret a) :=
  fun _ _ => Paired.ret fun _ _ hs => ⟨rfl, k, Known.Le.refl k, hs⟩

theorem GoesShell.bind {p : ShellProg α} {f : α → ShellProg β} (hp : GoesShell k p)
    (hf : ∀ a k', k.Le k' → GoesShell k' (f a)) : GoesShell k (p >>= f) := by
  intro rs rs'
  exact onward_bind (hp rs rs') fun a k' hk => hf a k' hk rs rs'

theorem goesShell_ite {b : Prop} [Decidable b] {p q : ShellProg α} (hp : b → GoesShell k p)
    (hq : ¬ b → GoesShell k q) : GoesShell k (if b then p else q) := by
  by_cases hb : b
  · rw [if_pos hb]
    exact hp hb
  · rw [if_neg hb]
    exact hq hb

theorem goesShell_client_bind {f : Client → ShellProg α}
    (hsame : ∀ c x, f (c.withUnread x) = f c) (hf : ∀ c, GoesShell k (f c)) :
    GoesShell k (command client >>= f) := by
  intro rs rs' s s' hs a t hends
  obtain ⟨c, u, hread, hrest⟩ := hends
  obtain ⟨c', u', hread', hc, hu⟩ :=
    lockstep_matched (Known.Le.refl k) _ _ _ .client s s' c u hs hread
  obtain ⟨x, hx, rfl⟩ := hc
  obtain ⟨b, t', hrest', ht⟩ := hf c rs rs' u u' hu a t hrest
  refine ⟨b, t', ⟨_, u', hread', ?_⟩, ht⟩
  show Ends _ (f (c.withUnread x)) u' b t'
  rw [hsame]
  exact hrest'

/-- A change of the login that touches none of the unread fields. -/
theorem goesShell_login_bind {f : Client → Client} {p : Unit → ShellProg α}
    (hunread : ∀ c x, f (c.withUnread x) = (f c).withUnread x)
    (hagrees : ∀ c (x : Unread), x.Agrees k c.toCommandState → x.Agrees k (f c).toCommandState)
    (hp : ∀ u k', k.Le k' → GoesShell k' (p u)) : GoesShell k (login f >>= p) := by
  refine GoesShell.bind ?_ hp
  intro rs rs'
  refine Paired.op fun s s' hs r t hr => ?_
  obtain ⟨x, hx⟩ := hr
  have hsecond : (watchShell x (.login f) s).2 = t := congrArg Prod.snd hx
  subst hsecond
  obtain ⟨y, hy, hc⟩ := hs.client
  refine ⟨(), _, ⟨x, rfl⟩, rfl, k, Known.Le.refl k, hs.vfs, ⟨y, hagrees _ y hy, ?_⟩, hs.replies,
    congrArg (· ++ []) hs.calls, hs.ready_quiet rfl⟩
  show f s'.1.client = (f s.1.client).withUnread y
  rw [hc, hunread]

theorem goesShell_sendReply (r : Reply) : GoesShell k (command (sendReply r)) :=
  goesShell_command (goes_sendReply r)

theorem goesShell_logIn : GoesShell k logIn :=
  goesShell_login_bind (fun _ _ => rfl) (fun _ _ hx => hx) fun _ _ _ => goesShell_sendReply _

theorem plain_searchUserFromLogin (szLogin : Text) :
    Every Plain (searchUserFromLogin szLogin) := by
  unfold searchUserFromLogin
  refine (plain_sys (by simp [SysOp.part])).bind fun ok => ?_
  rw [every_ite]
  refine ⟨fun _ => ?_, fun _ => trivial⟩
  have hget : Every RedisOp.Reads (Prog.op (I := RedisI) (.hgetallUsername szLogin)) :=
    ⟨rfl, fun _ => trivial⟩
  refine (plain_reads hget).bind fun found => ?_
  cases found with
  | none => trivial
  | some h =>
      have hentry : Every Plain (userEntry szLogin h) := by
        unfold userEntry
        rw [every_ite]
        refine ⟨fun _ => ?_, fun _ => trivial⟩
        split <;> trivial
      exact hentry.bind fun _ => trivial

/-- `USER` behind the lookup. -/
theorem goesShell_chosen (pUser : Option UserEntry) :
    GoesShell k (if pUser.any UserEntry.opens then logIn
      else command (sendReply (.line 331 "Password required for this user."))) :=
  goesShell_ite (fun _ => goesShell_logIn) fun _ => goesShell_sendReply _

theorem goesShell_cmdUser (pszCmdArg : Option Text) : GoesShell k (cmdUser pszCmdArg) := by
  unfold cmdUser
  refine goesShell_login_bind (fun c x => ?_) (fun c x hx => ?_) fun _ k₁ _ => ?_
  · show (if c.bIsLogged = true then _ else _) = _
    split_ifs <;> rfl
  · split_ifs
    · exact ⟨hx.address, hx.path, hx.listing⟩
    · exact hx
  cases pszCmdArg with
  | none => exact goesShell_sendReply _
  | some szLogin =>
      refine (goesShell_command (goes_of_together (together_plain
        (plain_searchUserFromLogin szLogin)))).bind fun pUser k₂ _ => ?_
      exact goesShell_login_bind (fun _ _ => rfl) (fun _ _ hx => hx) fun _ _ _ =>
        goesShell_chosen pUser

theorem goesShell_checkPass (pszCmdArg : Option Text) : GoesShell k (checkPass pszCmdArg) := by
  unfold checkPass
  refine goesShell_client_bind (fun _ _ => rfl) fun c => ?_
  cases c.pUser with
  | none => exact goesShell_ret _
  | some u =>
      refine goesShell_ite (fun _ => ?_) fun _ => goesShell_ret _
      refine goesShell_ite (fun _ => ?_) fun _ => ?_
      · refine goesShell_ite (fun _ => ?_) fun _ => ?_
        · exact goesShell_logIn.bind fun _ _ _ => goesShell_ret _
        · exact (goesShell_sendReply _).bind fun _ _ _ => goesShell_ret _
      · refine goesShell_ite (fun _ => ?_) fun _ => goesShell_ret _
        exact (goesShell_sendReply _).bind fun _ _ _ => goesShell_ret _

theorem goesShell_rejectPass (cfg : Config) : GoesShell k (rejectPass cfg) := by
  unfold rejectPass
  refine goesShell_client_bind (fun _ _ => rfl) fun c => ?_
  exact goesShell_ite (fun _ => goesShell_ret _) fun _ =>
    (goesShell_sendReply _).bind fun _ _ _ => goesShell_ret _

theorem goesShell_cmdPass (cfg : Config) (pszCmdArg : Option Text) :
    GoesShell k (cmdPass cfg pszCmdArg) := by
  unfold cmdPass
  refine goesShell_login_bind (fun _ _ => rfl) (fun _ _ hx => hx) fun _ k₁ _ => ?_
  refine goesShell_client_bind (fun _ _ => rfl) fun c => ?_
  refine goesShell_ite (fun _ => ?_) fun _ => ?_
  · exact (goesShell_sendReply _).bind fun _ _ _ => goesShell_rejectPass cfg
  · refine (goesShell_checkPass pszCmdArg).bind fun loggedIn k₂ _ => ?_
    exact goesShell_ite (fun _ => goesShell_ret _) fun _ => goesShell_rejectPass cfg

theorem goesShell_cmdCwd (pszCmdArg : Option Text) : GoesShell k (cmdCwd pszCmdArg) := by
  cases pszCmdArg with
  | none => exact goesShell_sendReply _
  | some arg =>
      have hdir : Goes k (newWorkingDir arg) := by
        unfold newWorkingDir
        refine goes_client_bind (fun _ _ => rfl) fun c => ?_
        cases c.buildPathVirtual (some arg) with
        | none => exact goes_of_together (.ret rfl)
        | some a =>
            exact goes_plain_bind (plain_reads (reads_stat _)) fun _ _ _ => goes_of_together (.ret rfl)
      refine (goesShell_command hdir).bind fun found k₁ _ => ?_
      cases found with
      | none => exact goesShell_sendReply _
      | some szWorkingDir =>
          exact goesShell_login_bind (fun _ _ => rfl) (fun _ _ hx => hx) fun _ _ _ =>
            goesShell_sendReply _

theorem goesShell_cmdCdup : GoesShell k cmdCdup :=
  goesShell_login_bind (fun _ _ => rfl) (fun _ _ hx => hx) fun _ _ _ => goesShell_sendReply _

/-- **Every line** does the same from worlds that agree so far. -/
theorem goes_dispatch (cfg : Config) (nCmd : Option Cmd) (pszCmdArg : Option Text) :
    GoesShell k (dispatch cfg nCmd pszCmdArg) := by
  have hlogged : ∀ cmd, GoesShell k (shellLogged cfg cmd pszCmdArg) := by
    intro cmd
    have hcommand : GoesShell k (command (shellCmd cfg cmd pszCmdArg)) :=
      goesShell_command (goes_shellCmd cfg cmd pszCmdArg)
    cases cmd with
    | cwd => exact goesShell_cmdCwd pszCmdArg
    | xcwd => exact goesShell_cmdCwd pszCmdArg
    | cdup => exact goesShell_cmdCdup
    | xcup => exact goesShell_cmdCdup
    | _ => exact hcommand
  have hgate : ∀ cmd, GoesShell k (do
      let c ← command client
      if c.bIsLogged then do
        shellLogged cfg cmd pszCmdArg
        return Next.continue
      else do
        command (sendReply (.line 530 "Please login with USER and PASS."))
        return Next.continue) := by
    intro cmd
    refine goesShell_client_bind (fun _ _ => rfl) fun c => ?_
    exact goesShell_ite (fun _ => (hlogged cmd).bind fun _ _ _ => goesShell_ret _)
      fun _ => (goesShell_sendReply _).bind fun _ _ _ => goesShell_ret _
  cases nCmd with
  | none => exact (goesShell_sendReply _).bind fun _ _ _ => goesShell_ret _
  | some cmd =>
      cases cmd with
      | quit => exact (goesShell_sendReply _).bind fun _ _ _ => goesShell_ret _
      | user => exact (goesShell_cmdUser pszCmdArg).bind fun _ _ _ => goesShell_ret _
      | pass => exact goesShell_cmdPass cfg pszCmdArg
      | _ => exact hgate _

end ClusterFtpd
