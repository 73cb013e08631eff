import ClusterFtpd.ActiveConnections
import ClusterFtpd.Ownership
import ClusterFtpd.Decimal

/-!
# Where transfers start

`REST` and `APPE` leave the offset of the next transfer in `CurrentTransfer.RestartAt`, an `int`
that `atoi` fills, and `StoreThread` and `RetrieveThread` tell it to the slave.  `ResetDataConnection`
clears `CurrentTransfer`, and so does every listing at its begin.

`Offsets` is what the client has asked for.  `transfers_start_right` says that every `REST` that is
answered 350 is a number and that every transfer starts where it should, in every run whose lines
satisfy `KeepsOffset`: numbers below `2 ^ 31`, one transfer at a time, and nothing that clears
`CurrentTransfer` between a `REST` and its transfer.  `rest_without_number` is a `REST` of letters.
-/

namespace ClusterFtpd

open Interaction MachineInt

/-! ### Numbers -/

/-- A decimal number. -/
def IsDecimal (s : Text) : Prop := s ≠ [] ∧ ∀ c ∈ s, c.isDigit = true

instance (s : Text) : Decidable (IsDecimal s) :=
  decidable_of_iff (s ≠ [] ∧ s.all Char.isDigit = true) (and_congr_right fun _ => List.all_eq_true)

/-- The number that digits stand for. -/
def decimalValue (s : Text) : ℕ := Nat.ofDigitChars 10 s 0

theorem IsDecimal.digitsThen {s : Text} (h : IsDecimal s) : DigitsThen s [] :=
  ⟨h.2, h.1, fun _ hc => nomatch hc⟩

/-- `atoi` reads a number that an `int` holds. -/
theorem atoiText_decimal {s : Text} (h : IsDecimal s) (hlt : decimalValue s < 2147483648) :
    atoiText s = decimalValue s := by
  have hsigned := h.digitsThen.signedDigits
  have hvalue := h.digitsThen.digitsValue
  rw [List.append_nil] at hsigned hvalue
  have hmin : min (decimalValue s : ℤ) 9223372036854775807 = decimalValue s := by omega
  unfold atoiText
  rw [hsigned]
  dsimp only
  rw [hvalue, if_neg Bool.false_ne_true]
  show int32 (min (decimalValue s : ℤ) 9223372036854775807) = _
  rw [hmin]
  exact int32_of_range (by omega) (by omega)

/-- The size that is recorded for the file of a path. -/
def recordedSize (db : Redis) (path : Text) : Option ℤ :=
  (ask (lookupFid path) db).bind fun fid => if fid < 0 then none else (db.stat (u32 fid)).st_size

/-- `stat` narrows the size to an `int`; there is none where it fails. -/
theorem size_of_stat {db db' : Redis} {path : Text} {st : Option Stat}
    (h : run serveRedis (stat path) db = .done st db') :
    (st.map Stat.st_size).getD 0 = int32 ((recordedSize db path).getD 0) := by
  have hzero : (0 : ℤ) = int32 0 := (int32_of_range (by decide) (by decide)).symm
  obtain ⟨fid, db₁, hlookup, hrest⟩ := (run_bind_done _).1 h
  have hdb : db = db₁ := (lookupFid_done hlookup).1.symm
  rw [← hdb] at hrest
  have hrecorded : recordedSize db path =
      if fid < 0 then none else (db.stat (u32 fid)).st_size := by
    unfold recordedSize ask
    rw [hlookup]
    rfl
  rw [hrecorded]
  by_cases hneg : fid < 0
  · rw [if_pos hneg] at hrest ⊢
    cases hrest
    exact hzero
  · rw [if_neg hneg] at hrest ⊢
    have hread : run serveRedis (if db.stat (u32 fid) = .absent then return none
      else return some (db.stat (u32 fid)).toStat : RedisProg (Option Stat)) db =
        .done st db' := hrest
    by_cases habsent : db.stat (u32 fid) = .absent
    · rw [if_pos habsent] at hread
      cases hread
      rw [habsent]
      exact hzero
    · rw [if_neg habsent] at hread
      cases hread
      rfl

/-! ### What the client has asked for -/

/-- The offset of a `REST` that no transfer has taken yet, and that of the transfer that was begun
last. -/
structure Offsets where
  wanted : ℤ := 0
  due : ℤ := 0

/-- The call begins a transfer of a file. -/
def Call.begins : Call → Bool
  | ⟨.pthread_create .retrieve, true⟩ => true
  | ⟨.pthread_create .store, true⟩ => true
  | _ => false

/-- The size of the file that an `APPE` names; a new file has none. -/
def appendedSize (w : World) (pszCmdArg : Option Text) : ℤ :=
  ((w.client.buildPath pszCmdArg).bind (recordedSize w.db)).getD 0

/-- What a line makes of it. -/
def Offsets.afterLine (g : Offsets) (nCmd : Option Cmd) (pszCmdArg : Option Text) (w w' : World)
    (cs : List Call) : Offsets :=
  if nCmd = some .rest ∧ w'.lastCode = some 350 then
    { g with wanted := (pszCmdArg.map decimalValue).getD 0 }
  else if cs.any Call.begins then
    { wanted := 0, due := if nCmd = some .appe then appendedSize w pszCmdArg else g.wanted }
  else g

/-- The `restart_at` field of an RPC. -/
def SysOp.restart_at : SysOp → Option ℤ
  | .activeStoreTransfer _ p _ => some p.restart_at
  | .pasvStoreTransfer _ p _ => some p.restart_at
  | .activeRetrieveTransfer _ p => some p.restart_at
  | .pasvRetrieveTransfer _ p => some p.restart_at
  | _ => none

/-- A `REST` that is answered 350, or the RPC of a transfer with the offset that is due. -/
inductive OffsetSeen where
  | answered (pszCmdArg : Option Text)
  | transfer (restart_at due : ℤ)

/-- The `REST` is a number; the transfer starts where it is due. -/
def OffsetSeen.Right : OffsetSeen → Prop
  | .answered pszCmdArg => ∃ s, pszCmdArg = some s ∧ IsDecimal s
  | .transfer restart_at due => restart_at = due

/-- The RPCs among the calls. -/
def transfersSeen (due : ℤ) (cs : List Call) : List OffsetSeen :=
  (cs.filterMap fun c => c.op.restart_at).map (OffsetSeen.transfer · due)

/-- What is seen of a line. -/
def lineSeen (g : Offsets) (nCmd : Option Cmd) (pszCmdArg : Option Text) (w' : World)
    (cs : List Call) : List OffsetSeen :=
  (if nCmd = some .rest ∧ w'.lastCode = some 350 then [.answered pszCmdArg] else []) ++
    transfersSeen g.due cs

/-- A condition on a line: the session, what the client has asked for, the answers of the system,
and the line. -/
abbrev OffsetCondition := LiveSession → Offsets → Env → Option Cmd → Option Text → Prop

/-- The runs of a session whose lines all satisfy `ok`, with what the client has asked for and what
is seen of it. -/
inductive OffsetRun (cfg : Config) (ok : OffsetCondition) :
    LiveSession → Offsets → List OffsetSeen → Prop where
  | connect {w : World} : w.client.toLoginState = {} → w.client.toCommandState = {} →
      OffsetRun cfg ok ⟨w, [], true⟩ {} []
  | line {s : LiveSession} {g : Offsets} {seen : List OffsetSeen} {w' : World} {next : Next}
      (env : Env) (line : Text) : OffsetRun cfg ok s g seen → s.opened = true →
      ok s g env (parseLine line).1 (parseLine line).2 →
      run (serveShell env) (dispatch cfg (parseLine line).1 (parseLine line).2) s.world =
        .done next w' →
      OffsetRun cfg ok
        ⟨w', threadsAfter cfg s.threads
          (lineCalls env (dispatch cfg (parseLine line).1 (parseLine line).2) s.world),
          next = .continue⟩
        (g.afterLine (parseLine line).1 (parseLine line).2 s.world w'
          (lineCalls env (dispatch cfg (parseLine line).1 (parseLine line).2) s.world))
        (seen ++ lineSeen g (parseLine line).1 (parseLine line).2 w'
          (lineCalls env (dispatch cfg (parseLine line).1 (parseLine line).2) s.world))
  | other {s s' : LiveSession} {g : Offsets} {seen : List OffsetSeen} {who : Happening}
      {cs : List Call} : OffsetRun cfg ok s g seen → (∀ nCmd, who ≠ .line nCmd) →
      LiveStep cfg s who cs s' → OffsetRun cfg ok s' g (seen ++ transfersSeen g.due cs)

/-! ### The condition -/

/-- The line clears `CurrentTransfer`, or may: `PORT` and `PASV` where there is a data connection,
every listing, and a transfer whose thread cannot be created. -/
def Clears (env : Env) (c : Client) (nCmd : Option Cmd) (pszCmdArg : Option Text) : Prop :=
  nCmd = some .port ∧ c.eDataConnection ≠ .none ∧ (pszCmdArg.bind scanPort).isSome = true ∨
    nCmd = some .pasv ∧ c.eDataConnection ≠ .none ∧ c.nPRET_CMD = none ∨
    Lists nCmd ∧ ¬ (nCmd = some .stat ∧ pszCmdArg = none) ∧ c.checkPrivileges LIST = true ∨
    Blind nCmd ∧ ¬ env.Creates

/-- The lines that keep offsets, of a client that is logged in: a `REST` is a number that an `int`
holds, an `APPE` is for a file whose size is one, a transfer begins when none is going on, and
nothing clears an offset that is wanted. -/
def KeepsOffset : OffsetCondition := fun s g env nCmd pszCmdArg =>
  s.world.client.bIsLogged = true →
    (nCmd = some .rest → s.world.client.eStatus = .waiting → ∀ a ∈ pszCmdArg,
      IsDecimal a ∧ decimalValue a < 2147483648) ∧
    (nCmd = some .appe → -2147483648 ≤ appendedSize s.world pszCmdArg ∧
      appendedSize s.world pszCmdArg < 2147483648) ∧
    (Blind nCmd → s.threads = []) ∧
    (g.wanted ≠ 0 → ¬ Clears env s.world.client nCmd pszCmdArg)

variable {cfg : Config} {env : Env} {ok : OffsetCondition} {s s' : LiveSession} {w w' : World}
  {g : Offsets} {seen : List OffsetSeen} {cs : List Call} {α β : Type} {restartAt due : ℤ}

/-! ### The transfer threads -/

/-- The operation tells a slave no other offset than the one that is due. -/
def StartsDue (due : ℤ) : CommandOp → Prop
  | .sys o => ∀ r, o.restart_at = some r → r = due
  | _ => True

/-- What a thread reads. -/
def SeesOffset (restartAt : ℤ) : (o : CommandOp) → o.Res → Prop
  | .client, c => c.CurrentTransfer.RestartAt = restartAt
  | _, _ => True

/-- What is left of a thread starts where it is due, as long as the client entry has the offset. -/
def StartsAt (restartAt due : ℤ) (p : CommandProg α) : Prop :=
  EveryIf (SeesOffset restartAt) (StartsDue due) p

theorem restart_at_of_within {ps : List Part} (h : Part.transferring ∉ ps) {o : SysOp}
    (ho : ∀ x, o.part = some x → x ∈ ps) : o.restart_at = none := by
  cases o with
  | activeStoreTransfer => exact absurd (ho _ rfl) h
  | pasvStoreTransfer => exact absurd (ho _ rfl) h
  | activeRetrieveTransfer => exact absurd (ho _ rfl) h
  | pasvRetrieveTransfer => exact absurd (ho _ rfl) h
  | _ => rfl

/-- A program that asks no slave for anything. -/
theorem startsAt_quiet {p : CommandProg α} (hp : Every (Within []) p) :
    StartsAt restartAt due p := by
  apply hp.everyIf
  intro o ho
  cases o with
  | sys o =>
      intro r hr
      rw [restart_at_of_within List.not_mem_nil ho] at hr
      cases hr
  | _ => trivial

theorem startsAt_redis (p : RedisProg α) : StartsAt restartAt due (redis p) := by
  have hredis : Every (StartsDue due) (redis p) :=
    every_redis ((every_true p).mono fun _ _ => trivial)
  exact hredis.everyIf fun _ ho => ho

theorem StartsAt.bind {p : CommandProg α} {f : α → CommandProg β} (hp : StartsAt restartAt due p)
    (hf : ∀ a, StartsAt restartAt due (f a)) : StartsAt restartAt due (p >>= f) :=
  EveryIf.bind hp hf

theorem startsAt_client_bind {f : Client → CommandProg α}
    (hf : ∀ c : Client, c.CurrentTransfer.RestartAt = restartAt → StartsAt restartAt due (f c)) :
    StartsAt restartAt due (client >>= f) := ⟨trivial, hf⟩

/-- An RPC with the offset of the client entry. -/
theorem startsAt_rpc {o : SysOp} {f : o.Res → CommandProg α} (ho : o.restart_at = some due)
    (hf : ∀ r, StartsAt restartAt due (f r)) : StartsAt restartAt due (sys o >>= f) := by
  constructor
  · intro r hr
    rw [ho] at hr
    exact (Option.some.inj hr).symm
  · intro r _
    exact hf r

theorem startsAt_finishUpload (fid : ℤ) (slave : SlaveInfo) (answer : RpcResult StorRetVal) :
    StartsAt restartAt due (finishUpload fid slave answer) := by
  have hrecord : ∀ retval, StartsAt restartAt due (recordUpload retval fid slave) := by
    intro retval
    unfold recordUpload
    split
    · apply startsAt_client_bind
      intro c _
      cases c.pUser with
      | none => trivial
      | some u =>
          apply (startsAt_quiet (within_sys (by simp [SysOp.part]))).bind
          intro now
          exact (startsAt_redis _).bind fun _ => trivial
    · trivial
  apply (startsAt_quiet (within_rpc answer)).bind
  intro retval
  cases retval with
  | none => exact startsAt_quiet ((within_sendReply _).bind fun _ => trivial)
  | some retval => exact (hrecord retval).bind fun _ => trivial

theorem startsAt_finishRetrieve (answer : RpcResult Reply) :
    StartsAt restartAt due (finishRetrieve answer) :=
  startsAt_quiet (within_finishRetrieve answer)

/-- The active half of an upload. -/
theorem startsAt_storeActive (cfg : Config) (iflags : OpenFlag) (fid : ℤ) :
    StartsAt due due (storeActive cfg iflags fid) := by
  unfold storeActive
  split
  · exact startsAt_quiet ((within_sendReply _).bind fun _ => trivial)
  · apply (startsAt_quiet (within_getRandomSlave cfg)).bind
    intro slave
    apply (startsAt_redis _).bind
    intro trans_id
    apply startsAt_client_bind
    intro c hc
    apply (startsAt_quiet (within_randomPort cfg)).bind
    intro server_port
    apply (startsAt_quiet (within_sendReply _)).bind
    intro _
    exact startsAt_rpc (congrArg some hc) fun answer => startsAt_finishUpload fid slave answer

/-- The passive half of an upload. -/
theorem startsAt_storePassive (cfg : Config) (iflags : OpenFlag) (fid : ℤ) :
    StartsAt due due (storePassive cfg iflags fid) := by
  apply startsAt_client_bind
  intro c _
  split
  · exact startsAt_quiet ((within_sendReply _).bind fun _ => trivial)
  · apply startsAt_client_bind
    intro c _
    apply startsAt_client_bind
    intro d hd
    exact startsAt_rpc (congrArg some hd) fun answer => startsAt_finishUpload fid _ answer

/-- The active half of a download. -/
theorem startsAt_retrieveActive (cfg : Config) (fid : ℤ) :
    StartsAt due due (retrieveActive cfg fid) := by
  unfold retrieveActive
  split
  · apply startsAt_client_bind
    intro c _
    apply (startsAt_redis _).bind
    intro slave
    apply (startsAt_redis _).bind
    intro trans_id
    apply startsAt_client_bind
    intro c hc
    apply (startsAt_quiet (within_randomPort cfg)).bind
    intro server_port
    apply (startsAt_quiet (within_sendReply _)).bind
    intro _
    exact startsAt_rpc (congrArg some hc) startsAt_finishRetrieve
  · trivial

/-- The passive half of a download. -/
theorem startsAt_retrievePassive (cfg : Config) (fid : ℤ) :
    StartsAt due due (retrievePassive cfg fid) := by
  apply startsAt_client_bind
  intro c _
  split
  · exact startsAt_quiet ((within_sendReply _).bind fun _ => trivial)
  · apply startsAt_client_bind
    intro c _
    split
    · exact startsAt_quiet ((within_sendReply _).bind fun _ => trivial)
    · apply startsAt_client_bind
      intro c _
      apply startsAt_client_bind
      intro d hd
      exact startsAt_rpc (congrArg some hd) startsAt_finishRetrieve

theorem startsAt_whenConnected {kind : DataConnection} {half : CommandProg (Option Reply)}
    (h : StartsAt restartAt due half) (msg : Option Reply) :
    StartsAt restartAt due (whenConnected kind msg half) := by
  cases msg with
  | none => trivial
  | some msg =>
      apply startsAt_client_bind
      intro c _
      split
      · exact h
      · trivial

/-- **Every transfer thread** starts where the client entry says. -/
theorem startsAt_transfer (cfg : Config) {thread : TransferThread} (h : thread ≠ .list) :
    StartsAt due due (thread.body cfg) := by
  cases thread with
  | list => exact absurd rfl h
  | retrieve =>
      apply startsAt_client_bind
      intro c _
      apply (startsAt_redis _).bind
      intro fid
      apply (startsAt_whenConnected (startsAt_retrieveActive cfg fid) _).bind
      intro msg
      apply (startsAt_whenConnected (startsAt_retrievePassive cfg fid) msg).bind
      intro last
      exact startsAt_quiet (within_sendLast last)
  | store =>
      apply startsAt_client_bind
      intro c _
      apply (startsAt_redis _).bind
      intro fid
      apply (startsAt_whenConnected (startsAt_storeActive cfg _ fid) _).bind
      intro msg
      apply (startsAt_whenConnected (startsAt_storePassive cfg _ fid) msg).bind
      intro last
      exact startsAt_quiet (within_sendLast last)

/-! ### What the commands make of the offset -/

/-- The offset of the client entry. -/
def World.offset (w : World) : ℤ := w.client.CurrentTransfer.RestartAt

theorem Does.offset {p : CommandProg α} {a : α} {ps : List Part} (hp : Every (Within ps) p)
    (h : Does env p w a w' cs) (hps : Part.transfer ∉ ps) : w'.offset = w.offset := by
  have hsame : w'.client.CurrentTransfer = w.client.CurrentTransfer := h.same hp hps
  unfold World.offset
  rw [hsame]

/-- `ResetDataConnection` clears it. -/
theorem reset_offset {bSyncWait : Bool} {u : Unit}
    (h : Does env (resetDataConnection bSyncWait) w u w' cs) : w'.offset = 0 := by
  obtain ⟨u₁, w₁, cs₁, cs₂, -, h₁, -⟩ := h.of_client.of_bind
  obtain ⟨u₂, w₂, cs₃, cs₄, -, h₂, -⟩ := h₁.of_bind
  have hend : w' = _ := (Outcome.done.inj h₂.ends).2.symm
  rw [hend]
  rfl

/-- Calls that begin no transfer. -/
def BeginsNone (cs : List Call) : Prop := cs.any Call.begins = false

theorem OnlyCancels.beginsNone (h : OnlyCancels cs) : BeginsNone cs := by
  apply List.any_eq_false.2
  intro c hc
  obtain ⟨op, res⟩ := c
  have hop : op = .pthread_cancel := h ⟨op, res⟩ hc
  subst hop
  exact Bool.false_ne_true

theorem beginsNone_opens {v : TransferView} (h : v.Opens cs) : BeginsNone cs := by
  unfold TransferView.Opens at h
  split at h
  · obtain ⟨r, hcs⟩ := h
    rw [hcs]
    rfl
  · rw [h]
    rfl

theorem any_begins_append {cs₁ : List Call} (h : BeginsNone cs₁) (cs₂ : List Call) :
    (cs₁ ++ cs₂).any Call.begins = cs₂.any Call.begins := by
  rw [List.any_append, h, Bool.false_or]

/-- A thread that is created leaves it alone. -/
theorem startTransfer_offset {thread : TransferThread} {started : Bool}
    (h : Does env (startTransfer thread) w started w' cs) :
    w'.offset = w.offset ∨ w'.offset = 0 ∧ ¬ env.Creates := by
  rcases startTransfer_does h with ⟨-, -, -, hclient⟩ | ⟨hfalse, -, cs', -, hcs⟩
  · left
    unfold World.offset
    rw [hclient]
  · right
    rw [hfalse] at h
    refine ⟨congrArg DataTransfer.RestartAt (startTransfer_fails h).1, ?_⟩
    intro hcreates
    rw [hcs] at h
    obtain ⟨n, hn⟩ := h.answered List.mem_cons_self
    rw [hcreates] at hn
    cases hn

/-- What a transfer command makes of the offset. -/
theorem openSlaveConnection_offset {opened : Bool}
    (h : Does env openSlaveConnection w opened w' cs) : w'.offset = w.offset := by
  unfold World.offset
  rw [(openSlaveConnection_does h).1]

/-- `RETR`. -/
theorem retr_offset {arg : Text} {u : Unit} (h : Does env (cmdRetr arg) w u w' cs) :
    w'.offset = w.offset ∨ w'.offset = 0 ∧ ¬ env.Creates := by
  obtain ⟨found, w₁, cs₁, cs₂, hstat, h₁, -⟩ := h.of_client.of_bind
  have hsame₁ : w₁.offset = w.offset := hstat.offset (within_statPath _) List.not_mem_nil
  cases found with
  | none =>
      obtain ⟨hend, -⟩ := h₁.of_reply
      left
      rw [hend]
      exact hsame₁
  | some a =>
      have h₂ : Does env (if _ then _ else _) w₁ u w' cs₂ := h₁
      by_cases hreg : S_ISREG a.2.st_mode = true
      · rw [if_pos hreg] at h₂
        obtain ⟨opened, w₂, cs₃, cs₄, hopen, h₃, -⟩ := h₂.of_bind
        have hsame₂ : w₂.offset = w.offset := (openSlaveConnection_offset hopen).trans hsame₁
        cases opened with
        | true =>
            have h₄ : Does env _ w₂ u w' cs₄ := h₃
            obtain ⟨ok, w₃, cs₅, cs₆, hstart, hret, -⟩ := h₄.of_modify.of_bind
            obtain ⟨-, hend, -⟩ := hret.of_ret
            rw [hend, ← hsame₂]
            have hended := startTransfer_offset hstart
            exact hended
        | false =>
            obtain ⟨-, hend, -⟩ := h₃.of_ret
            left
            rw [hend]
            exact hsame₂
      · rw [if_neg hreg] at h₂
        obtain ⟨hend, -⟩ := h₂.of_reply
        left
        rw [hend]
        exact hsame₁

/-- `APPE` takes the recorded size, as `stat` narrows it. -/
theorem startOffset_appe (w : World) (path : Text) :
    w.startOffset .appe path = int32 ((recordedSize w.db path).getD 0) := by
  unfold World.startOffset
  rw [if_pos rfl]
  cases hrun : run serveRedis (stat path) w.db with
  | done st db =>
      have hask : ask (stat path) w.db = some st := by
        unfold ask
        rw [hrun]
        rfl
      rw [hask]
      exact size_of_stat hrun
  | stopped why db =>
      have hask : ask (stat path) w.db = none := by
        unfold ask
        rw [hrun]
        rfl
      have hfound : ask (lookupFid path) w.db = none := by
        unfold ask
        cases hlookup : run serveRedis (lookupFid path) w.db with
        | stopped why' db' => rfl
        | done fid db' =>
            unfold stat at hrun
            rw [run_bind, hlookup, Outcome.done_andThen] at hrun
            by_cases hneg : fid < 0
            · rw [if_pos hneg] at hrun
              cases hrun
            · rw [if_neg hneg] at hrun
              by_cases habsent : db'.stat (u32 fid) = .absent
              · have hend : run serveRedis (if db'.stat (u32 fid) = .absent then _ else _) db' = _ :=
                  hrun
                rw [if_pos habsent] at hend
                cases hend
              · have hend : run serveRedis (if db'.stat (u32 fid) = .absent then _ else _) db' = _ :=
                  hrun
                rw [if_neg habsent] at hend
                cases hend
      have hsize : recordedSize w.db path = none := by
        unfold recordedSize
        rw [hfound]
        rfl
      rw [hask, hsize]
      exact (int32_of_range (by decide) (by decide)).symm

/-- `STOR`, `APPE` and `STOU`: an `APPE` that begins its transfer takes the size of the file. -/
theorem store_offset {cmd : UploadCmd} {pszCmdArg : Option Text} {ok : Bool}
    (h : Does env (cmdStore cmd pszCmdArg) w ok w' cs) :
    (w'.offset = 0 ∧ ¬ env.Creates ∧ BeginsNone cs) ∨
      w'.offset = if cmd = .appe ∧ cs.any Call.begins = true then int32 (appendedSize w pszCmdArg)
        else w.offset := by
  have hkept : w'.client = w.client → BeginsNone cs → w'.offset =
      if cmd = .appe ∧ cs.any Call.begins = true then int32 (appendedSize w pszCmdArg)
        else w.offset := by
    intro hclient hnone
    rw [if_neg fun hboth => Bool.false_ne_true (hnone.symm.trans hboth.2)]
    unfold World.offset
    rw [hclient]
  cases storeLine_does h with
  | refused hrs hclient hdb hreplies => exact .inr (hkept hclient rfl)
  | unopened hname hpasv hclient hdb hreplies => exact .inr (hkept hclient rfl)
  | @started path rs os cs₁ hname hrelays hclient hdb hreplies =>
      right
      have hoffset : w'.offset = w.startOffset cmd path := by
        unfold World.offset
        rw [hclient]
      rw [hoffset, any_begins_append (beginsNone_opens hrelays.opens)]
      by_cases happe : cmd = .appe
      · subst happe
        rw [if_pos ⟨rfl, rfl⟩, startOffset_appe]
        cases hname with
        | asked _ hpath => rw [appendedSize, hpath]; rfl
        | made _ hstou _ _ => cases hstou
      · rw [if_neg fun hboth => happe hboth.1, World.startOffset, if_neg happe]
        rfl
  | failed hname hrelays honly hview htransfer hdb hreplies =>
      left
      refine ⟨congrArg DataTransfer.RestartAt htransfer, ?_, ?_⟩
      · intro hcreates
        have hanswer := h.answered (List.mem_append_right _ List.mem_cons_self)
        obtain ⟨n, hn⟩ := hanswer
        rw [hcreates] at hn
        cases hn
      · exact (any_begins_append (beginsNone_opens hrelays.opens) _).trans honly.beginsNone

/-- The operation does not raise the offset. -/
def LeavesZero : CommandOp → Prop
  | .modify f => ∀ c, c.CurrentTransfer.RestartAt = 0 → (f c).CurrentTransfer.RestartAt = 0
  | _ => True

theorem leavesZero_of_within {ps : List Part} {p : CommandProg α} (hps : Part.transfer ∉ ps)
    (hp : Every (Within ps) p) : Every LeavesZero p := by
  apply hp.mono
  intro o ho
  cases o with
  | modify f =>
      intro c hc
      have hsame : (f c).CurrentTransfer = c.CurrentTransfer := ho .transfer hps c
      rw [hsame]
      exact hc
  | _ => trivial

theorem leavesZero_quiet {p : CommandProg α} (hp : Every (Within []) p) : Every LeavesZero p :=
  leavesZero_of_within List.not_mem_nil hp

theorem leavesZero_modify {f : CommandState → CommandState}
    (h : ∀ c, c.CurrentTransfer.RestartAt = 0 → (f c).CurrentTransfer.RestartAt = 0) :
    Every LeavesZero (modify f) := (every_modify f).2 h

theorem leavesZero_onlyIf {b : Prop} [Decidable b] {p : CommandProg Unit}
    (hp : Every LeavesZero p) : Every LeavesZero (onlyIf b p) := by
  unfold onlyIf
  rw [every_ite]
  exact ⟨fun _ => hp, fun _ => trivial⟩

theorem leavesZero_ite {b : Prop} [Decidable b] {p q : CommandProg α} (hp : Every LeavesZero p)
    (hq : Every LeavesZero q) : Every LeavesZero (if b then p else q) := by
  rw [every_ite]
  exact ⟨fun _ => hp, fun _ => hq⟩

theorem leavesZero_reset (bSyncWait : Bool) : Every LeavesZero (resetDataConnection bSyncWait) := by
  refine ⟨trivial, fun c => ?_⟩
  apply (leavesZero_quiet (within_closeData c.DataSock)).bind
  intro _
  have hcancel : Every LeavesZero (onlyIf
      (c.CurrentTransfer.TransferThreadID = true ∧ bSyncWait = true) (sys .pthread_cancel)) :=
    leavesZero_onlyIf ⟨trivial, fun _ => trivial⟩
  exact hcancel.bind fun _ => leavesZero_modify fun _ _ => rfl

theorem leavesZero_startTransfer (thread : TransferThread) :
    Every LeavesZero (startTransfer thread) := by
  refine ⟨trivial, fun c => ⟨fun _ hc => hc, fun _ => ⟨trivial, fun ok => ?_⟩⟩⟩
  apply leavesZero_ite
  · trivial
  · exact (leavesZero_modify fun _ hc => hc).bind fun _ =>
      (leavesZero_reset true).bind fun _ => trivial

theorem leavesZero_openDataConnection (cfg : Config) :
    Every LeavesZero (openDataConnection cfg) := by
  have hsocket : Part.transfer ∉ [Part.socket] := by decide
  refine ⟨trivial, fun c => ?_⟩
  apply leavesZero_ite
  · exact (leavesZero_quiet (within_sendReply _)).bind fun _ => trivial
  · apply (leavesZero_onlyIf (leavesZero_of_within hsocket (within_activeSocket (by simp)))).bind
    intro _
    apply (leavesZero_of_within hsocket (within_tryDataConnection (by simp) cfg)).bind
    intro opened
    apply leavesZero_ite
    · trivial
    · exact (leavesZero_quiet (within_sendReply _)).bind fun _ =>
        (leavesZero_reset true).bind fun _ => trivial

/-- What runs from a cleared offset on. -/
theorem Does.leavesZero {p : CommandProg α} {a : α} (hp : Every LeavesZero p)
    (h : Does env p w a w' cs) (hzero : w.offset = 0) : w'.offset = 0 := by
  have hrun := hp.run_state (serveCommand env) (R := fun s t => s.offset = 0 → t.offset = 0)
    (fun _ hs => hs) (fun _ _ _ hst htu hs => htu (hst hs)) (fun o ho s hs => by
      cases o with
      | modify f => exact ho _ hs
      | _ => exact hs) w
  rw [h.ends] at hrun
  exact hrun hzero

/-- A listing clears the offset. -/
theorem list_offset {nCmd : Cmd} {pszCmdArg : Option Text} {u : Unit}
    (h : Does env (cmdList cfg nCmd pszCmdArg) w u w' cs) :
    (w'.offset = w.offset ∧ cs = []) ∨ w'.offset = 0 := by
  have h₁ := h.of_client
  by_cases hbusy : w.client.eStatus ≠ .waiting
  · rw [if_pos hbusy] at h₁
    obtain ⟨hend, hnil⟩ := h₁.of_reply
    left
    rw [hend]
    exact ⟨rfl, hnil⟩
  · rw [if_neg hbusy] at h₁
    right
    have h₂ := h₁.of_modify
    have hopen : Every LeavesZero (openListing cfg nCmd) := by
      apply leavesZero_ite
      · exact (leavesZero_quiet (within_sendReply _)).bind fun _ =>
          (leavesZero_modify fun _ hc => hc).bind fun _ => trivial
      · have hsock : Every LeavesZero (modifyTransfer fun t => { t with SockList := .data }) :=
          leavesZero_modify fun _ hc => hc
        apply (leavesZero_openDataConnection cfg).bind
        intro opened
        exact (leavesZero_onlyIf hsock).bind fun _ => every_ret _
    refine Does.leavesZero ?_ h₂ rfl
    apply (leavesZero_quiet (within_statPath _)).bind
    intro found
    cases found with
    | none => exact leavesZero_quiet (within_sendReply _)
    | some a =>
        apply (leavesZero_modify fun _ hc => hc).bind
        intro _
        apply hopen.bind
        intro opened
        apply leavesZero_onlyIf
        apply (leavesZero_modify fun _ hc => hc).bind
        intro _
        exact (leavesZero_startTransfer .list).bind fun _ => trivial

/-- `PORT` and `PASV` without a `PRET` clear the offset if there is a data connection. -/
theorem onlyIf_reset_offset {c : Prop} [Decidable c] {u : Unit}
    (h : Does env (onlyIf c (resetDataConnection true)) w u w' cs) :
    w'.offset = w.offset ∨ w'.offset = 0 ∧ c := by
  unfold onlyIf at h
  by_cases hc : c
  · rw [if_pos hc] at h
    exact .inr ⟨reset_offset h, hc⟩
  · rw [if_neg hc] at h
    obtain ⟨-, hend, -⟩ := h.of_ret
    rw [hend]
    exact .inl rfl

theorem port_offset {pszCmdArg : Option Text} {u : Unit}
    (h : Does env (cmdPort cfg pszCmdArg) w u w' cs) :
    w'.offset = w.offset ∨ w'.offset = 0 ∧ w.client.eDataConnection ≠ .none ∧
      (pszCmdArg.bind scanPort).isSome = true := by
  have h₁ := h.of_client
  by_cases hwait : w.client.eStatus = .waiting
  · rw [if_pos hwait] at h₁
    cases hscan : pszCmdArg.bind scanPort with
    | none =>
        rw [hscan] at h₁
        obtain ⟨hend, -⟩ := h₁.of_reply
        rw [hend]
        exact .inl rfl
    | some a =>
        rw [hscan] at h₁
        obtain ⟨u₁, w₁, cs₁, cs₂, hreset, h₂, -⟩ := h₁.of_bind
        have hrest : w'.offset = w₁.offset := by
          have h₃ : Does env (if ¬ cfg.bEnableFXP = true ∨ a.1 = w.client.ulClientIP ∨
              w.client.ulClientIP = loopbackIP then _ else _) w₁ u w' cs₂ := h₂
          by_cases hfree : ¬ cfg.bEnableFXP = true ∨ a.1 = w.client.ulClientIP ∨
              w.client.ulClientIP = loopbackIP
          · rw [if_pos hfree] at h₃
            obtain ⟨hend, -⟩ := h₃.of_modify.of_reply
            rw [hend]
            rfl
          · rw [if_neg hfree] at h₃
            obtain ⟨hend, -⟩ := h₃.of_reply
            rw [hend]
            rfl
        rw [hrest]
        exact (onlyIf_reset_offset hreset).imp_right fun hzero => ⟨hzero.1, hzero.2, rfl⟩
  · rw [if_neg hwait] at h₁
    obtain ⟨hend, -⟩ := h₁.of_reply
    rw [hend]
    exact .inl rfl

theorem pasv_offset {u : Unit} (h : Does env (cmdPasv cfg) w u w' cs) :
    w'.offset = w.offset ∨
      w'.offset = 0 ∧ w.client.eDataConnection ≠ .none ∧ w.client.nPRET_CMD = none := by
  have h₁ := h.of_client
  by_cases hwait : w.client.eStatus = .waiting
  · rw [if_pos hwait] at h₁
    cases hpret : w.client.nPRET_CMD with
    | some cmd =>
        rw [hpret] at h₁
        exact .inl (Does.offset (within_pasvRemote cfg cmd) h₁ (by decide))
    | none =>
        rw [hpret] at h₁
        have h₂ : Does env (pasvLocal cfg) w u w' cs := h₁
        obtain ⟨u₁, w₁, cs₁, cs₂, hreset, h₃, -⟩ := h₂.of_client.of_bind
        have hconn : Part.connection ∈ [Part.connection, .socket] := by decide
        have hsock : Part.socket ∈ [Part.connection, .socket] := by decide
        have hsocket := within_pasvSocket hconn hsock cfg w.client
        have hrest : w'.offset = w₁.offset := Does.offset hsocket h₃ (by decide)
        rw [hrest]
        exact (onlyIf_reset_offset hreset).imp_right fun hzero => ⟨hzero.1, hzero.2, rfl⟩
  · rw [if_neg hwait] at h₁
    obtain ⟨hend, -⟩ := h₁.of_reply
    rw [hend]
    exact .inl rfl

/-- `ABOR` does nothing while no transfer is going on. -/
theorem abor_offset {u : Unit} (hwait : w.client.eStatus = .waiting)
    (h : Does env cmdAbor w u w' cs) : w'.offset = w.offset := by
  obtain ⟨u₁, w₁, cs₁, cs₂, habort, h₁, -⟩ := h.of_client.of_bind
  obtain ⟨hend, -⟩ := h₁.of_reply
  have hidle : ¬ w.client.eStatus ≠ .waiting := not_not.2 hwait
  rw [onlyIf, if_neg hidle] at habort
  obtain ⟨-, hw₁, -⟩ := habort.of_ret
  rw [hend, hw₁]
  rfl

/-- `REST`: the reply says whether the number was taken. -/
theorem rest_offset {pszCmdArg : Option Text} {u : Unit} (hwait : w.client.eStatus = .waiting)
    (h : Does env (cmdRest pszCmdArg) w u w' cs) :
    (∃ a, pszCmdArg = some a ∧ w'.lastCode = some 350 ∧ w'.offset = atoiText a) ∨
      (w'.lastCode ≠ some 350 ∧ w'.offset = w.offset) := by
  have h₁ := h.of_client
  rw [if_pos hwait] at h₁
  cases pszCmdArg with
  | some a =>
      obtain ⟨hend, -⟩ := h₁.of_modify.of_reply
      left
      rw [hend, lastCode_reply]
      exact ⟨a, rfl, rfl, rfl⟩
  | none =>
      obtain ⟨hend, -⟩ := h₁.of_reply
      right
      rw [hend, lastCode_reply]
      exact ⟨by decide, rfl⟩

/-! ### A line of a client for whom no transfer is going on -/

/-- What such a line makes of the offset. -/
inductive OffsetTurn (env : Env) (w w' : World) (nCmd : Option Cmd) (pszCmdArg : Option Text)
    (cs : List Call) : Prop where
  | kept : nCmd ≠ some .rest ∨ w'.lastCode ≠ some 350 →
      ¬ (nCmd = some .appe ∧ cs.any Call.begins = true) → (Lists nCmd → cs = []) →
      w'.offset = w.offset → OffsetTurn env w w' nCmd pszCmdArg cs
  | cleared : nCmd ≠ some .rest → ¬ (nCmd = some .appe ∧ cs.any Call.begins = true) →
      w'.offset = 0 → Clears env w.client nCmd pszCmdArg →
      OffsetTurn env w w' nCmd pszCmdArg cs
  | rest (a : Text) : nCmd = some .rest → pszCmdArg = some a → w'.lastCode = some 350 →
      w'.offset = atoiText a → OffsetTurn env w w' nCmd pszCmdArg cs
  | appe : nCmd = some .appe → cs.any Call.begins = true →
      w'.offset = int32 (appendedSize w pszCmdArg) → OffsetTurn env w w' nCmd pszCmdArg cs

theorem withPrivilege_offset {ucPriv : ℕ} {body : CommandProg Unit} {u : Unit}
    (h : Does env (withPrivilege ucPriv body) w u w' cs) :
    (w'.offset = w.offset ∧ cs = []) ∨
      (w.client.checkPrivileges ucPriv = true ∧ Does env body w u w' cs) := by
  have h₁ := h.of_client
  by_cases hpriv : w.client.checkPrivileges ucPriv = true
  · rw [if_pos hpriv] at h₁
    exact .inr ⟨hpriv, h₁⟩
  · rw [if_neg hpriv] at h₁
    obtain ⟨hend, hnil⟩ := h₁.of_reply
    rw [hend]
    exact .inl ⟨rfl, hnil⟩

/-- Listings. -/
theorem listLine_offset {nCmd : Cmd} {pszCmdArg : Option Text} {u : Unit}
    (hlists : Lists (some nCmd)) (harg : ¬ (nCmd = .stat ∧ pszCmdArg = none))
    (h : Does env (withPrivilege LIST (cmdList cfg nCmd pszCmdArg)) w u w' cs) :
    OffsetTurn env w w' (some nCmd) pszCmdArg cs := by
  have hrest : some nCmd ≠ some Cmd.rest := by
    rcases hlists with hcmd | hcmd | hcmd <;> rw [hcmd] <;> decide
  have happe : ¬ (some nCmd = some Cmd.appe ∧ cs.any Call.begins = true) := by
    intro hboth
    rw [hboth.1] at hlists
    exact absurd hlists (by decide)
  rcases withPrivilege_offset h with ⟨hkept, hnil⟩ | ⟨hpriv, hbody⟩
  · exact .kept (.inl hrest) happe (fun _ => hnil) hkept
  · rcases list_offset hbody with ⟨hkept, hnil⟩ | hzero
    · exact .kept (.inl hrest) happe (fun _ => hnil) hkept
    · refine .cleared hrest happe hzero (.inr (.inr (.inl ⟨hlists, ?_, hpriv⟩)))
      intro hstat
      exact harg ⟨Option.some.inj hstat.1, hstat.2⟩

/-- Uploads. -/
theorem storeLine_offset {nCmd : Cmd} {cmd : UploadCmd} {pszCmdArg : Option Text} {u : Unit}
    (hblind : Blind (some nCmd)) (happe : nCmd = .appe ↔ cmd = .appe)
    (hother : some nCmd ≠ some .rest ∧ ¬ Lists (some nCmd))
    (h : Does env (withPrivilege WRITEFILE (discard (cmdStore cmd pszCmdArg))) w u w' cs) :
    OffsetTurn env w w' (some nCmd) pszCmdArg cs := by
  obtain ⟨hrest', hlists⟩ := hother
  rcases withPrivilege_offset h with ⟨hkept, hnil⟩ | ⟨-, hbody⟩
  · refine .kept (.inl hrest') ?_ (fun hlist => absurd hlist hlists) hkept
    rw [hnil]
    exact fun hboth => Bool.false_ne_true hboth.2
  · obtain ⟨ok, w₁, cs₁, cs₂, hstore, hret, hcs⟩ := Does.of_bind hbody
    obtain ⟨-, hend, hnil⟩ := hret.of_ret
    rw [hcs, hnil, List.append_nil]
    rw [hend]
    rcases store_offset hstore with ⟨hzero, hfails, hnone⟩ | hoffset
    · refine .cleared hrest' ?_ hzero (.inr (.inr (.inr ⟨hblind, hfails⟩)))
      rw [hnone]
      exact fun hboth => Bool.false_ne_true hboth.2
    · by_cases hstarts : cmd = .appe ∧ cs₁.any Call.begins = true
      · rw [if_pos hstarts] at hoffset
        exact .appe (congrArg some (happe.2 hstarts.1)) hstarts.2 hoffset
      · rw [if_neg hstarts] at hoffset
        refine .kept (.inl hrest') ?_ (fun hlist => absurd hlist hlists) hoffset
        intro hboth
        exact hstarts ⟨happe.1 (Option.some.inj hboth.1), hboth.2⟩

/-- `RETR`. -/
theorem retrLine_offset {pszCmdArg : Option Text} {u : Unit}
    (h : Does env (shellCmd cfg .retr pszCmdArg) w u w' cs) :
    OffsetTurn env w w' (some .retr) pszCmdArg cs := by
  have happe : ¬ (some Cmd.retr = some .appe ∧ cs.any Call.begins = true) := fun hboth =>
    absurd hboth.1 (by decide)
  have hlists : Lists (some .retr) → cs = [] := fun hlist => absurd hlist (by decide)
  rcases withPrivilege_offset h with ⟨hkept, -⟩ | ⟨-, hbody⟩
  · exact .kept (.inl (by decide)) happe hlists hkept
  · cases pszCmdArg with
    | none =>
        obtain ⟨hend, -⟩ := Does.of_reply hbody
        refine .kept (.inl (by decide)) happe hlists ?_
        rw [hend]
        rfl
    | some arg =>
        rcases retr_offset hbody with hkept | ⟨hzero, hfails⟩
        · exact .kept (.inl (by decide)) happe hlists hkept
        · exact .cleared (by decide) happe hzero (.inr (.inr (.inr ⟨.inl rfl, hfails⟩)))

/-- The commands that touch `CurrentTransfer`. -/
theorem transferLine_offset {cmd : Cmd} {pszCmdArg : Option Text} {u : Unit}
    (hwait : w.client.eStatus = .waiting) (hparts : Part.transfer ∈ partsOf (some cmd))
    (h : Does env (shellCmd cfg cmd pszCmdArg) w u w' cs) :
    OffsetTurn env w w' (some cmd) pszCmdArg cs := by
  have hother : ∀ nCmd : Cmd, nCmd ≠ .appe →
      ¬ (some nCmd = some Cmd.appe ∧ cs.any Call.begins = true) :=
    fun nCmd hne hboth => hne (Option.some.inj hboth.1)
  have hnone : ∀ nCmd : Cmd, ¬ Lists (some nCmd) → Lists (some nCmd) → cs = [] :=
    fun nCmd hnot hlist => absurd hlist hnot
  cases cmd with
  | port =>
      rcases port_offset h with hkept | ⟨hzero, hconn, hscan⟩
      · exact .kept (.inl (by decide)) (hother _ (by decide)) (hnone _ (by decide)) hkept
      · exact .cleared (by decide) (hother _ (by decide)) hzero (.inl ⟨rfl, hconn, hscan⟩)
  | pasv =>
      rcases pasv_offset h with hkept | ⟨hzero, hconn, hpret⟩
      · exact .kept (.inl (by decide)) (hother _ (by decide)) (hnone _ (by decide)) hkept
      · exact .cleared (by decide) (hother _ (by decide)) hzero (.inr (.inl ⟨rfl, hconn, hpret⟩))
  | abor =>
      exact .kept (.inl (by decide)) (hother _ (by decide)) (hnone _ (by decide))
        (abor_offset hwait h)
  | rest =>
      rcases rest_offset hwait h with ⟨a, harg, hcode, hoffset⟩ | ⟨hcode, hkept⟩
      · exact .rest a rfl harg hcode hoffset
      · exact .kept (.inr hcode) (hother _ (by decide)) (hnone _ (by decide)) hkept
  | list => exact listLine_offset (.inl rfl) (fun hstat => absurd hstat.1 (by decide)) h
  | nlst => exact listLine_offset (.inr (.inl rfl)) (fun hstat => absurd hstat.1 (by decide)) h
  | stat =>
      have h₁ : Does env (if pszCmdArg = none then
          sendReply (.line 211 ":: CFtpServer / Browser FTP Server:: thebrowser@gmail.com")
        else withPrivilege LIST (cmdList cfg .stat pszCmdArg)) w u w' cs := h
      by_cases harg : pszCmdArg = none
      · rw [if_pos harg] at h₁
        obtain ⟨hend, hnil⟩ := h₁.of_reply
        refine .kept (.inl (by decide)) (hother _ (by decide)) (fun _ => hnil) ?_
        rw [hend]
        rfl
      · rw [if_neg harg] at h₁
        exact listLine_offset (.inr (.inr rfl)) (fun hstat => harg hstat.2) h₁
  | retr => exact retrLine_offset h
  | stor => exact storeLine_offset (.inr (.inl rfl)) (by decide) (by decide) h
  | appe => exact storeLine_offset (.inr (.inr (.inl rfl))) (by decide) (by decide) h
  | stou => exact storeLine_offset (.inr (.inr (.inr rfl))) (by decide) (by decide) h
  | _ => exact absurd hparts (by decide)

/-- **What a line makes of the offset** while no transfer is going on. -/
theorem offsetTurn_of_run {nCmd : Option Cmd} {pszCmdArg : Option Text} {next : Next}
    (hwait : w.client.eStatus = .waiting)
    (hrun : run (serveShell env) (dispatch cfg nCmd pszCmdArg) w = .done next w') :
    OffsetTurn env w w' nCmd pszCmdArg (lineCalls env (dispatch cfg nCmd pszCmdArg) w) := by
  by_cases hparts : Part.transfer ∈ partsOf nCmd
  · cases nCmd with
    | none => exact absurd hparts List.not_mem_nil
    | some cmd =>
        have hnot : cmd ∉ [Cmd.quit, .user, .pass, .cwd, .xcwd, .cdup, .xcup] := by
          intro hmem
          revert hparts
          simp only [List.mem_cons, List.not_mem_nil, or_false] at hmem
          rcases hmem with hcmd | hcmd | hcmd | hcmd | hcmd | hcmd | hcmd <;> rw [hcmd] <;> decide
        cases hlogged : w.client.bIsLogged with
        | false =>
            have hfree : cmd ≠ .quit ∧ cmd ≠ .user ∧ cmd ≠ .pass := by
              simp only [List.mem_cons, not_or] at hnot
              exact ⟨hnot.1, hnot.2.1, hnot.2.2.1⟩
            rw [(line_not_logged hlogged hrun).2,
              gate_line hfree.1 hfree.2.1 hfree.2.2 hlogged hrun]
            refine .kept (.inr ?_) (fun hboth => Bool.false_ne_true hboth.2) (fun _ => rfl) rfl
            rw [lastCode_reply]
            decide
        | true =>
            have hdoes := does_of_dispatch hnot hlogged hrun
            generalize lineCalls env (dispatch cfg (some cmd) pszCmdArg) w = cs at hdoes
            exact transferLine_offset hwait hparts hdoes
  · have hsame := run_shell_same (dispatch_within cfg nCmd pszCmdArg) hparts env w
    rw [hrun] at hsame
    have hkept : w'.offset = w.offset := by
      have htransfer : w'.client.CurrentTransfer = w.client.CurrentTransfer := hsame
      unfold World.offset
      rw [htransfer]
    refine .kept (.inl ?_) ?_ ?_ hkept
    · intro hrest
      rw [hrest] at hparts
      exact hparts (by decide)
    · intro hboth
      rw [hboth.1] at hparts
      exact hparts (by decide)
    · intro hlists
      rcases hlists with hcmd | hcmd | hcmd <;> rw [hcmd] at hparts <;>
        exact absurd (by decide) hparts

/-! ### The threads that a line leaves -/

/-- What a line leaves while no transfer is going on: no thread and the status as it was, or one
thread of its own. -/
inductive IdleTurn (cfg : Config) (w' : World) (nCmd : Option Cmd) (cs : List Call) : Prop where
  | idle : threadsAfter cfg [] cs = [] → w'.client.eStatus = .waiting → BeginsNone cs →
      IdleTurn cfg w' nCmd cs
  | begun (thread : TransferThread) : threadsAfter cfg [] cs = [thread.body cfg] →
      w'.client.eStatus ≠ .waiting → w'.Threaded →
      (thread = .list → Lists nCmd ∧ cs ≠ [] ∧ BeginsNone cs) →
      (thread ≠ .list → Blind nCmd ∧ cs.any Call.begins = true) → IdleTurn cfg w' nCmd cs

theorem threadsAfter_opens {v : TransferView} (h : v.Opens cs) : threadsAfter cfg [] cs = [] := by
  unfold TransferView.Opens at h
  split at h
  · obtain ⟨r, hcs⟩ := h
    rw [hcs]
    rfl
  · rw [h]
    rfl

theorem threadsAfter_begins {cs₁ : List Call} (h : threadsAfter cfg [] cs₁ = [])
    (thread : TransferThread) :
    threadsAfter cfg [] (cs₁ ++ [⟨.pthread_create thread, true⟩]) = [thread.body cfg] := by
  rw [threadsAfter_append, h]
  rfl

/-- Calls that begin no thread leave none. -/
theorem threadsAfter_none (h : ∀ t, ⟨.pthread_create t, true⟩ ∉ cs) :
    threadsAfter cfg [] cs = [] ∧ BeginsNone cs := by
  induction cs with
  | nil => exact ⟨rfl, rfl⟩
  | cons c cs ih =>
      obtain ⟨hthreads, hnone⟩ := ih fun t hmem => h t (List.mem_cons_of_mem c hmem)
      have hfirst : c.threads cfg [] = [] ∧ c.begins = false := by
        obtain ⟨op, res⟩ := c
        cases op with
        | pthread_create t =>
            have hno : res ≠ true := fun hyes => h t (hyes ▸ List.mem_cons_self)
            have hres : res = false := Bool.eq_false_of_not_eq_true hno
            subst hres
            exact ⟨rfl, by cases t <;> rfl⟩
        | _ => exact ⟨rfl, rfl⟩
      constructor
      · show threadsAfter cfg (c.threads cfg []) cs = []
        rw [hfirst.1]
        exact hthreads
      · show (c.begins || cs.any Call.begins) = false
        rw [hfirst.2, Bool.false_or]
        exact hnone

theorem waits_of_view {v : TransferView} (hview : w'.view = v) (hwait : v.eStatus = .waiting) :
    w'.client.eStatus = .waiting := by
  rw [← hview] at hwait
  exact hwait

theorem ResetTurn.waits {kind : DataConnection} (h : ResetTurn w w' kind cs)
    (hwait : w.client.eStatus = .waiting) : w'.client.eStatus = .waiting := by
  cases h with
  | refused hview => exact waits_of_view hview hwait
  | reset conn _ _ hview => exact waits_of_view hview rfl

theorem TransferTurn.waits {thread : TransferThread} {status : Status}
    (h : TransferTurn w w' thread status cs) (hnot : ⟨.pthread_create thread, true⟩ ∉ cs)
    (hwait : w.client.eStatus = .waiting) : w'.client.eStatus = .waiting := by
  cases h with
  | refused hview => exact waits_of_view hview hwait
  | unopened hview _ => exact waits_of_view hview hwait
  | started _ _ _ => exact absurd (List.mem_append_right _ (List.mem_singleton_self _)) hnot
  | failed _ _ hview => exact waits_of_view hview rfl

theorem ListTurn.waits (h : ListTurn w w' cs) (hnot : ⟨.pthread_create .list, true⟩ ∉ cs)
    (hwait : w.client.eStatus = .waiting) : w'.client.eStatus = .waiting := by
  cases h with
  | refused hview => exact waits_of_view hview hwait
  | unopened _ _ hview =>
      exact hview.elim (waits_of_view · hwait) (waits_of_view · rfl)
  | started _ _ _ => exact absurd (List.mem_singleton_self _) hnot
  | failed _ _ hview => exact waits_of_view hview rfl

/-- A line that begins no thread leaves the session waiting. -/
theorem DataTurn.waits {nCmd : Option Cmd} (h : DataTurn cfg w w' nCmd cs)
    (hnot : ∀ t, ⟨.pthread_create t, true⟩ ∉ cs) (hwait : w.client.eStatus = .waiting) :
    w'.client.eStatus = .waiting := by
  cases h with
  | quiet hview => exact waits_of_view hview hwait
  | pret hview => exact waits_of_view hview hwait
  | port _ hreset => exact hreset.waits hwait
  | abor hreset => exact hreset.waits hwait
  | pasv _ _ hreset => exact hreset.waits hwait
  | init cmd _ _ hinit =>
      cases hinit with
      | init slave answer _ _ hview _ => exact waits_of_view hview hwait
  | list _ hlist => exact hlist.waits (hnot _) hwait
  | retrieve htransfer => exact htransfer.waits (hnot _) hwait
  | store _ htransfer => exact htransfer.waits (hnot _) hwait

/-- A thread of a transfer command, behind the connection to the slave. -/
theorem IdleTurn.of_begun {thread : TransferThread} {v : TransferView} {nCmd : Option Cmd}
    {cs₁ : List Call} (hthread : thread ≠ .list) (hblind : Blind nCmd) (hopens : v.Opens cs₁)
    (hbusy : w'.client.eStatus ≠ .waiting) (hthreaded : w'.Threaded) :
    IdleTurn cfg w' nCmd (cs₁ ++ [⟨.pthread_create thread, true⟩]) := by
  have hthreads : threadsAfter cfg [] (cs₁ ++ [⟨.pthread_create thread, true⟩]) =
      [thread.body cfg] := threadsAfter_begins (threadsAfter_opens hopens) thread
  refine .begun thread hthreads hbusy hthreaded (fun h => absurd h hthread) fun _ => ⟨hblind, ?_⟩
  rw [any_begins_append (beginsNone_opens hopens)]
  cases thread with
  | list => exact absurd rfl hthread
  | _ => rfl

/-- **What a line leaves** while no transfer is going on. -/
theorem idleTurn_of_run {nCmd : Option Cmd} {pszCmdArg : Option Text} {next : Next}
    (hwait : w.client.eStatus = .waiting)
    (hrun : run (serveShell env) (dispatch cfg nCmd pszCmdArg) w = .done next w') :
    IdleTurn cfg w' nCmd (lineCalls env (dispatch cfg nCmd pszCmdArg) w) := by
  have hturn := dataTurn_of_run hrun
  generalize lineCalls env (dispatch cfg nCmd pszCmdArg) w = cs at hturn ⊢
  by_cases hstarts : ∃ t, ⟨.pthread_create t, true⟩ ∈ cs
  · obtain ⟨t, hmem⟩ := hstarts
    have hstatus : ∀ {st : Status}, st ≠ .waiting → w'.view = { w.view with eStatus := st } →
        w'.client.eStatus ≠ .waiting := by
      intro st hne hview
      have heq : w'.client.eStatus = st := congrArg TransferView.eStatus hview
      rw [heq]
      exact hne
    cases hturn.of_started hmem with
    | list hcmd _ hview hthreaded =>
        have hbusy := hstatus (by decide) hview
        refine .begun .list rfl hbusy hthreaded (fun _ => ⟨?_, by simp, rfl⟩) fun h => absurd rfl h
        exact hcmd.imp (congrArg some) (Or.imp (congrArg some) (congrArg some))
    | retrieve hopens hview hthreaded =>
        exact .of_begun (by decide) (.inl rfl) hopens (hstatus (by decide) hview) hthreaded
    | store hcmd hopens hview hthreaded =>
        have hstores := hcmd.imp (congrArg some) (Or.imp (congrArg some) (congrArg some))
        exact .of_begun (by decide) (.inr hstores) hopens (hstatus (by decide) hview) hthreaded
  · have hnot : ∀ t, ⟨.pthread_create t, true⟩ ∉ cs := not_exists.1 hstarts
    have hleft : threadsAfter cfg [] cs = [] ∧ BeginsNone cs := threadsAfter_none hnot
    obtain ⟨hthreads, hnone⟩ := hleft
    exact .idle hthreads (hturn.waits hnot hwait) hnone

/-! ### Lines whose client is not logged in, and lines during a transfer -/

/-- The lines of a client that is not logged in leave the offset alone and answer no `REST`. -/
theorem offset_not_logged {nCmd : Option Cmd} {pszCmdArg : Option Text} {next : Next}
    (hlogged : w.client.bIsLogged = false)
    (hrun : run (serveShell env) (dispatch cfg nCmd pszCmdArg) w = .done next w') :
    w'.client.CurrentTransfer = w.client.CurrentTransfer ∧
      ¬ (nCmd = some .rest ∧ w'.lastCode = some 350) := by
  by_cases hparts : Part.transfer ∈ partsOf nCmd
  · cases nCmd with
    | none => exact absurd hparts List.not_mem_nil
    | some cmd =>
        have hquit : cmd ≠ .quit := fun hcmd => absurd (hcmd ▸ hparts) (by decide)
        have huser : cmd ≠ .user := fun hcmd => absurd (hcmd ▸ hparts) (by decide)
        have hpass : cmd ≠ .pass := fun hcmd => absurd (hcmd ▸ hparts) (by decide)
        have hend := gate_line hquit huser hpass hlogged hrun
        rw [hend]
        refine ⟨rfl, fun hboth => ?_⟩
        rw [lastCode_reply] at hboth
        exact absurd hboth.2 (by decide)
  · have hsame := run_shell_same (dispatch_within cfg nCmd pszCmdArg) hparts env w
    rw [hrun] at hsame
    refine ⟨hsame, fun hboth => hparts ?_⟩
    rw [hboth.1]
    decide

/-- `REST` is refused during a transfer. -/
theorem rest_busy {pszCmdArg : Option Text} {u : Unit} (hbusy : w.client.eStatus ≠ .waiting)
    (h : Does env (cmdRest pszCmdArg) w u w' cs) : w'.lastCode ≠ some 350 := by
  have h₁ := h.of_client
  rw [if_neg hbusy] at h₁
  obtain ⟨hend, -⟩ := h₁.of_reply
  rw [hend, lastCode_reply]
  decide

/-- `ABOR` clears the offset during a transfer. -/
theorem abor_busy_offset {u : Unit} (hbusy : w.client.eStatus ≠ .waiting)
    (h : Does env cmdAbor w u w' cs) : w'.offset = 0 := by
  obtain ⟨u₁, w₁, cs₁, cs₂, habort, h₁, -⟩ := h.of_client.of_bind
  obtain ⟨hend, -⟩ := h₁.of_reply
  rw [onlyIf, if_pos hbusy] at habort
  obtain ⟨u₂, w₂, cs₃, cs₄, hreset, h₂, -⟩ := habort.of_bind
  obtain ⟨hw₁, -⟩ := h₂.of_reply
  have hzero : w₂.offset = 0 := reset_offset hreset
  rw [hend, hw₁, ← hzero]
  rfl

/-- What a line does during a transfer: nothing to the offset, or it ends the transfer. -/
inductive BusyOffset (w w' : World) (cs : List Call) : Prop where
  | going : w'.client.eStatus = w.client.eStatus →
      w'.client.CurrentTransfer = w.client.CurrentTransfer → cs = [] → BusyOffset w w' cs
  | aborted : w'.client.eStatus = .waiting → w'.offset = 0 → cs = [⟨.pthread_cancel, ()⟩] →
      BusyOffset w w' cs

/-- **What a line does** during a transfer. -/
theorem busyOffset_of_run {nCmd : Option Cmd} {pszCmdArg : Option Text} {next : Next}
    (hblind : w.client.bIsLogged = true → ¬ Blind nCmd) (hbusy : w.client.eStatus ≠ .waiting)
    (hthreaded : w.Threaded)
    (hrun : run (serveShell env) (dispatch cfg nCmd pszCmdArg) w = .done next w') :
    BusyOffset w w' (lineCalls env (dispatch cfg nCmd pszCmdArg) w) ∧
      ¬ (nCmd = some .rest ∧ w'.lastCode = some 350) := by
  cases hlogged : w.client.bIsLogged with
  | false =>
      obtain ⟨hview, hcalls⟩ := line_not_logged hlogged hrun
      obtain ⟨hsame, hrest⟩ := offset_not_logged hlogged hrun
      exact ⟨.going (congrArg TransferView.eStatus hview) hsame hcalls, hrest⟩
  | true =>
      constructor
      · have hturn := busyTurn_of_run (hblind hlogged) hbusy hthreaded hrun
        by_cases habor : nCmd = some .abor
        · subst habor
          have hzero := abor_busy_offset hbusy (does_of_dispatch (by decide) hlogged hrun)
          generalize lineCalls env (dispatch cfg (some .abor) pszCmdArg) w = cs at hturn ⊢
          cases hturn with
          | quiet hview hsame => exact .going (congrArg TransferView.eStatus hview) hsame rfl
          | abor hview => exact .aborted (congrArg TransferView.eStatus hview) hzero rfl
        · generalize lineCalls env (dispatch cfg nCmd pszCmdArg) w = cs at hturn ⊢
          cases hturn with
          | quiet hview hsame => exact .going (congrArg TransferView.eStatus hview) hsame rfl
          | pret hview hsame => exact .going (congrArg TransferView.eStatus hview) hsame rfl
          | abor hview => exact absurd rfl habor
      · intro hboth
        have hcmd := hboth.1
        subst hcmd
        exact rest_busy hbusy (does_of_dispatch (by decide) hlogged hrun) hboth.2

/-! ### The invariant of a session -/

/-- The client entry has the offset that is wanted, or the transfer that is going on starts where it
is due. -/
inductive OffsetInv (s : LiveSession) (g : Offsets) : Prop where
  | idle : s.threads = [] → s.world.client.eStatus = .waiting → s.world.offset = g.wanted →
      OffsetInv s g
  | busy (p : CommandProg Unit) : s.threads = [p] → s.world.client.eStatus ≠ .waiting →
      s.world.Threaded → g.wanted = 0 → Every (Within bodyParts) p →
      StartsAt s.world.offset g.due p → OffsetInv s g

/-- The thread that a line begins. -/
theorem OffsetInv.begun {thread : TransferThread} (hthreads : s.threads = [thread.body cfg])
    (hbusy : s.world.client.eStatus ≠ .waiting) (hthreaded : s.world.Threaded)
    (hwanted : g.wanted = 0) (hdue : thread ≠ .list → s.world.offset = g.due) : OffsetInv s g := by
  refine .busy (thread.body cfg) hthreads hbusy hthreaded hwanted (body_within cfg thread) ?_
  by_cases hlist : thread = .list
  · subst hlist
    exact startsAt_quiet within_listTransfer
  · rw [hdue hlist]
    exact startsAt_transfer cfg hlist

/-- The calls of a line tell no slave an offset. -/
theorem transfersSeen_line {nCmd : Option Cmd} (pszCmdArg : Option Text) (w : World) :
    transfersSeen due (lineCalls env (dispatch cfg nCmd pszCmdArg) w) = [] := by
  have hparts : Part.transferring ∉ partsOf nCmd := by
    cases nCmd with
    | none => exact List.not_mem_nil
    | some cmd => cases cmd <;> decide
  have hnone : ∀ c ∈ lineCalls env (dispatch cfg nCmd pszCmdArg) w, c.op.restart_at = none := by
    intro c hc
    obtain ⟨o, r, ho, hnote⟩ := (dispatch_within cfg nCmd pszCmdArg).mem_trace (serveShell env)
      noteShell hc
    cases o with
    | command o =>
        have hop : o = .sys c.op := op_of_note hnote
        subst hop
        exact restart_at_of_within hparts ho
    | login f => cases hnote
  unfold transfersSeen
  rw [List.filterMap_eq_nil_iff.2 hnone]
  rfl

/-- The call of a thread tells the offset that is due. -/
theorem transfersSeen_call {o : CommandOp} {r : o.Res} (ho : StartsDue due o) :
    ∀ x ∈ transfersSeen due (noteCommand o r).toList, x.Right := by
  intro x hx
  obtain ⟨y, hy, hseen⟩ := List.mem_map.1 hx
  obtain ⟨c, hc, hrestart⟩ := List.mem_filterMap.1 hy
  have hop : o = .sys c.op := op_of_note (Option.mem_toList.1 hc)
  subst hop
  rw [← hseen]
  exact ho y hrestart

/-- The invariant where a line has begun no transfer and has not been a `REST`. -/
theorem afterLine_same {nCmd : Option Cmd} {pszCmdArg : Option Text}
    (hrest : ¬ (nCmd = some .rest ∧ w'.lastCode = some 350)) (hnone : BeginsNone cs) :
    g.afterLine nCmd pszCmdArg w w' cs = g := by
  have hbegins : ¬ cs.any Call.begins = true := by
    rw [hnone]
    exact Bool.false_ne_true
  unfold Offsets.afterLine
  rw [if_neg hrest, if_neg hbegins]

theorem afterLine_begins {nCmd : Option Cmd} {pszCmdArg : Option Text}
    (hrest : nCmd ≠ some .rest) (hbegins : cs.any Call.begins = true) :
    g.afterLine nCmd pszCmdArg w w' cs =
      { wanted := 0, due := if nCmd = some .appe then appendedSize w pszCmdArg else g.wanted } := by
  unfold Offsets.afterLine
  rw [if_neg fun h => hrest h.1, if_pos hbegins]

/-- A line that leaves the offset that is wanted, and may begin a transfer with it. -/
theorem OffsetInv.turned {nCmd : Option Cmd} {pszCmdArg : Option Text} {opened : Bool}
    (hrest : ¬ (nCmd = some .rest ∧ w'.lastCode = some 350))
    (happe : ¬ (nCmd = some .appe ∧ cs.any Call.begins = true)) (hoffset : w'.offset = g.wanted)
    (hlist : Lists nCmd → cs ≠ [] → g.wanted = 0) (hidle : IdleTurn cfg w' nCmd cs) :
    OffsetInv ⟨w', threadsAfter cfg [] cs, opened⟩ (g.afterLine nCmd pszCmdArg w w' cs) := by
  cases hidle with
  | idle hthreads hwait hnone =>
      rw [afterLine_same hrest hnone]
      exact .idle hthreads hwait hoffset
  | begun thread hthreads hbusy hthreaded hlisting hother =>
      by_cases hthread : thread = .list
      · obtain ⟨hlists, hcalls, hnone⟩ := hlisting hthread
        rw [afterLine_same hrest hnone]
        exact .begun hthreads hbusy hthreaded (hlist hlists hcalls) fun h => absurd hthread h
      · obtain ⟨hblind, hbegins⟩ := hother hthread
        have hcmd : nCmd ≠ some .rest := by
          intro hcmd
          rw [hcmd] at hblind
          exact absurd hblind (by decide)
        rw [afterLine_begins hcmd hbegins, if_neg fun h => happe ⟨h, hbegins⟩]
        exact .begun hthreads hbusy hthreaded rfl fun _ => hoffset

/-- What is seen of a line that answers no `REST`. -/
theorem lineSeen_nil {nCmd : Option Cmd} {pszCmdArg : Option Text}
    (hrest : ¬ (nCmd = some .rest ∧ w'.lastCode = some 350)) :
    lineSeen g nCmd pszCmdArg w'
      (lineCalls env (dispatch cfg nCmd pszCmdArg) w) = [] := by
  unfold lineSeen
  rw [if_neg hrest, transfersSeen_line]
  rfl

/-- **A line** while no transfer is going on. -/
theorem OffsetInv.idle_line {nCmd : Option Cmd} {pszCmdArg : Option Text} {next : Next}
    {opened : Bool} (hthreads : s.threads = []) (hwait : s.world.client.eStatus = .waiting)
    (hoffset : s.world.offset = g.wanted) (hok : KeepsOffset s g env nCmd pszCmdArg)
    (hrun : run (serveShell env) (dispatch cfg nCmd pszCmdArg) s.world = .done next w') :
    OffsetInv ⟨w', threadsAfter cfg s.threads
        (lineCalls env (dispatch cfg nCmd pszCmdArg) s.world), opened⟩
        (g.afterLine nCmd pszCmdArg s.world w'
          (lineCalls env (dispatch cfg nCmd pszCmdArg) s.world)) ∧
      ∀ x ∈ lineSeen g nCmd pszCmdArg w'
        (lineCalls env (dispatch cfg nCmd pszCmdArg) s.world), x.Right := by
  have hidle := idleTurn_of_run hwait hrun
  rw [hthreads]
  cases hlogged : s.world.client.bIsLogged with
  | false =>
      obtain ⟨hsame, hrest⟩ := offset_not_logged hlogged hrun
      have hkept : w'.offset = g.wanted := by
        rw [← hoffset]
        exact congrArg DataTransfer.RestartAt hsame
      rw [lineSeen_nil hrest]
      rw [(line_not_logged hlogged hrun).2] at hidle ⊢
      refine ⟨.turned hrest ?_ hkept (fun _ h => absurd rfl h) hidle, fun x hx => ?_⟩
      · exact fun hboth => Bool.false_ne_true hboth.2
      · exact absurd hx List.not_mem_nil
  | true =>
      obtain ⟨hnumber, hsize, -, hclears⟩ := hok hlogged
      cases offsetTurn_of_run hwait hrun with
      | kept hcode happe hlists hkept =>
          have hrest : ¬ (nCmd = some .rest ∧ w'.lastCode = some 350) := by
            intro hboth
            exact hcode.elim (fun hne => hne hboth.1) fun hne => hne hboth.2
          rw [lineSeen_nil hrest]
          refine ⟨.turned hrest happe (hkept.trans hoffset) ?_ hidle, fun x hx => ?_⟩
          · exact fun hlist hcalls => absurd (hlists hlist) hcalls
          · exact absurd hx List.not_mem_nil
      | cleared hcmd happe hzero hclear =>
          have hrest : ¬ (nCmd = some .rest ∧ w'.lastCode = some 350) := fun hboth => hcmd hboth.1
          have hwanted : g.wanted = 0 := by
            by_contra hne
            exact hclears hne hclear
          rw [lineSeen_nil hrest]
          refine ⟨.turned hrest happe (hzero.trans hwanted.symm) (fun _ _ => hwanted) hidle,
            fun x hx => ?_⟩
          exact absurd hx List.not_mem_nil
      | rest a hcmd harg hcode hread =>
          obtain ⟨hdecimal, hlt⟩ := hnumber hcmd hwait a (by rw [harg]; exact rfl)
          have hafter : ∀ cs : List Call, g.afterLine nCmd pszCmdArg s.world w' cs =
              { g with wanted := decimalValue a } := by
            intro cs
            unfold Offsets.afterLine
            rw [if_pos ⟨hcmd, hcode⟩, harg]
            rfl
          rw [hafter]
          constructor
          · cases hidle with
            | idle hnone hwaits _ =>
                refine .idle hnone hwaits ?_
                show w'.offset = decimalValue a
                rw [hread]
                exact atoiText_decimal hdecimal hlt
            | begun thread _ _ _ hlisting hother =>
                exfalso
                rw [hcmd] at hlisting hother
                by_cases hthread : thread = .list
                · exact absurd (hlisting hthread).1 (by decide)
                · exact absurd (hother hthread).1 (by decide)
          · intro x hx
            unfold lineSeen at hx
            rw [if_pos ⟨hcmd, hcode⟩, transfersSeen_line, List.append_nil,
              List.mem_singleton] at hx
            rw [hx]
            exact ⟨a, harg, hdecimal⟩
      | appe hcmd hbegins hread =>
          have hcmd' : nCmd ≠ some .rest := by
            rw [hcmd]
            decide
          obtain ⟨hlow, hhigh⟩ := hsize hcmd
          rw [lineSeen_nil fun hboth => hcmd' hboth.1]
          refine ⟨?_, fun x hx => absurd hx List.not_mem_nil⟩
          rw [afterLine_begins hcmd' hbegins, if_pos hcmd]
          cases hidle with
          | idle _ _ hnone =>
              rw [hnone] at hbegins
              exact absurd hbegins Bool.false_ne_true
          | begun thread hone hbusy hthreaded _ _ =>
              refine .begun hone hbusy hthreaded rfl fun _ => ?_
              show w'.offset = appendedSize s.world pszCmdArg
              rw [hread]
              exact int32_of_range hlow hhigh

/-- **A line** during a transfer. -/
theorem OffsetInv.busy_line {p : CommandProg Unit} {nCmd : Option Cmd} {pszCmdArg : Option Text}
    {next : Next} {opened : Bool} (hthreads : s.threads = [p])
    (hbusy : s.world.client.eStatus ≠ .waiting) (hthreaded : s.world.Threaded)
    (hwanted : g.wanted = 0) (hwithin : Every (Within bodyParts) p)
    (hstarts : StartsAt s.world.offset g.due p) (hok : KeepsOffset s g env nCmd pszCmdArg)
    (hrun : run (serveShell env) (dispatch cfg nCmd pszCmdArg) s.world = .done next w') :
    OffsetInv ⟨w', threadsAfter cfg s.threads
        (lineCalls env (dispatch cfg nCmd pszCmdArg) s.world), opened⟩
        (g.afterLine nCmd pszCmdArg s.world w'
          (lineCalls env (dispatch cfg nCmd pszCmdArg) s.world)) ∧
      ∀ x ∈ lineSeen g nCmd pszCmdArg w'
        (lineCalls env (dispatch cfg nCmd pszCmdArg) s.world), x.Right := by
  have hblind : s.world.client.bIsLogged = true → ¬ Blind nCmd := by
    intro hlogged hblind
    have hnone : s.threads = [] := (hok hlogged).2.2.1 hblind
    rw [hthreads] at hnone
    cases hnone
  obtain ⟨hturn, hrest⟩ := busyOffset_of_run hblind hbusy hthreaded hrun
  rw [lineSeen_nil hrest]
  refine ⟨?_, fun x hx => absurd hx List.not_mem_nil⟩
  rw [hthreads]
  cases hturn with
  | going hstatus hsame hcalls =>
      have hnone : BeginsNone ([] : List Call) := rfl
      rw [hcalls, afterLine_same hrest hnone]
      have hoffset : w'.offset = s.world.offset := congrArg DataTransfer.RestartAt hsame
      refine .busy p rfl ?_ ?_ hwanted hwithin ?_
      · rw [hstatus]
        exact hbusy
      · unfold World.Threaded
        rw [hsame]
        exact hthreaded
      · rw [hoffset]
        exact hstarts
  | aborted hstatus hzero hcalls =>
      have hnone : BeginsNone [⟨.pthread_cancel, ()⟩] := rfl
      rw [hcalls, afterLine_same hrest hnone]
      exact .idle rfl hstatus (hzero.trans hwanted.symm)

/-- What a thread reads is what the client entry has. -/
theorem seesOffset_serve (env : Env) (o : CommandOp) (w : World) :
    SeesOffset w.offset o (serveCommand env o w).1 := by
  cases o with
  | client => rfl
  | _ => trivial

/-- An operation of the thread. -/
theorem OffsetInv.serves {p q : CommandProg Unit} {xs ys : List (CommandProg Unit)} {o : CommandOp}
    (h : OffsetInv s g) (hthreads : s.threads = xs ++ p :: ys)
    (hwithin : Every (Within bodyParts) p → Within bodyParts o ∧ Every (Within bodyParts) q)
    (hstarts : StartsAt s.world.offset g.due p →
      StartsDue g.due o ∧ StartsAt s.world.offset g.due q) :
    OffsetInv { s with world := (serveCommand env o s.world).2, threads := xs ++ q :: ys } g ∧
      ∀ x ∈ transfersSeen g.due (noteCommand o (serveCommand env o s.world).1).toList, x.Right := by
  cases h with
  | idle hnone _ _ =>
      rw [hnone] at hthreads
      exact absurd hthreads.symm (by simp)
  | busy r hone hbusy hthreaded hwanted hin hstart =>
      rw [hone] at hthreads
      obtain ⟨hxs, hys, hr⟩ := single_eq_append hthreads
      subst hxs hys hr
      obtain ⟨ho, hq⟩ := hwithin hin
      obtain ⟨hdue, hrest⟩ := hstarts hstart
      have hstatus : (serveCommand env o s.world).2.client.eStatus = s.world.client.eStatus :=
        serveCommand_same ho (show Part.status ∉ bodyParts by decide) env s.world
      have htransfer : (serveCommand env o s.world).2.client.CurrentTransfer =
          s.world.client.CurrentTransfer :=
        serveCommand_same ho (show Part.transfer ∉ bodyParts by decide) env s.world
      have hoffset : (serveCommand env o s.world).2.offset = s.world.offset :=
        congrArg DataTransfer.RestartAt htransfer
      refine ⟨.busy q rfl ?_ ?_ hwanted hq ?_, transfersSeen_call hdue⟩
      · rw [hstatus]
        exact hbusy
      · unfold World.Threaded
        rw [htransfer]
        exact hthreaded
      · rw [hoffset]
        exact hrest

/-- **A step** of a thread, or of someone else. -/
theorem OffsetInv.other {who : Happening} (h : OffsetInv s g) (hwho : ∀ nCmd, who ≠ .line nCmd)
    (hstep : LiveStep cfg s who cs s') :
    OffsetInv s' g ∧ ∀ x ∈ transfersSeen g.due cs, x.Right := by
  have hnothing : ∀ x ∈ transfersSeen g.due [], x.Right := fun x hx => absurd hx List.not_mem_nil
  cases hstep with
  | line env line _ _ => exact absurd rfl (hwho _)
  | hangUp _ =>
      refine ⟨?_, hnothing⟩
      cases h with
      | idle hthreads hwait hoffset => exact .idle hthreads hwait hoffset
      | busy p hone hbusy hthreaded hwanted hin hstarts =>
          exact .busy p hone hbusy hthreaded hwanted hin hstarts
  | @op xs ys o k env hthreads =>
      exact h.serves hthreads (fun hin => ⟨hin.1, hin.2 _⟩) fun hstarts =>
        ⟨hstarts.1, hstarts.2 _ (seesOffset_serve env o s.world)⟩
  | @poll xs ys o again k env hthreads _ =>
      exact h.serves hthreads (fun hin => ⟨hin.1, hin.2 _⟩) fun hstarts =>
        ⟨hstarts.1, hstarts.2 _ (seesOffset_serve env o s.world)⟩
  | @ends xs ys w' env hthreads hrun =>
      refine ⟨?_, hnothing⟩
      cases h with
      | idle hnone _ _ =>
          rw [hnone] at hthreads
          exact absurd hthreads.symm (by simp)
      | busy p hone _ _ hwanted _ _ =>
          rw [hone] at hthreads
          obtain ⟨hxs, hys, -⟩ := single_eq_append hthreads
          subst hxs hys
          have hreset : Does env (resetDataConnection false) s.world () w' _ := ⟨hrun, rfl⟩
          have hview : w'.view = s.world.view.reset := (reset_does hreset).1
          refine .idle rfl ?_ ?_
          · exact congrArg TransferView.eStatus hview
          · rw [hwanted]
            exact reset_offset hreset
  | others db _ =>
      refine ⟨?_, hnothing⟩
      cases h with
      | idle hthreads hwait hoffset => exact .idle hthreads hwait hoffset
      | busy p hone hbusy hthreaded hwanted hin hstarts =>
          exact .busy p hone hbusy hthreaded hwanted hin hstarts

/-- The run lemma. -/
theorem OffsetRun.inv (h : OffsetRun cfg KeepsOffset s g seen) :
    OffsetInv s g ∧ ∀ x ∈ seen, x.Right := by
  induction h with
  | @connect w hlogin hcommand =>
      have hstatus : w.client.eStatus = .waiting := congrArg CommandState.eStatus hcommand
      have htransfer : w.client.CurrentTransfer = {} :=
        congrArg CommandState.CurrentTransfer hcommand
      refine ⟨.idle rfl hstatus ?_, fun x hx => absurd hx List.not_mem_nil⟩
      unfold World.offset
      rw [htransfer]
  | line env line _ _ hok hrun ih =>
      obtain ⟨hinv, hseen⟩ := ih
      have hstep := hinv
      cases hstep with
      | idle hthreads hwait hoffset =>
          obtain ⟨hnext, hright⟩ := OffsetInv.idle_line hthreads hwait hoffset hok hrun
          refine ⟨hnext, fun x hx => ?_⟩
          exact (List.mem_append.1 hx).elim (hseen x) (hright x)
      | busy p hone hbusy hthreaded hwanted hin hstarts =>
          obtain ⟨hnext, hright⟩ :=
            OffsetInv.busy_line hone hbusy hthreaded hwanted hin hstarts hok hrun
          refine ⟨hnext, fun x hx => ?_⟩
          exact (List.mem_append.1 hx).elim (hseen x) (hright x)
  | other _ hwho hstep ih =>
      obtain ⟨hinv, hseen⟩ := ih
      obtain ⟨hnext, hright⟩ := hinv.other hwho hstep
      refine ⟨hnext, fun x hx => ?_⟩
      exact (List.mem_append.1 hx).elim (hseen x) (hright x)

/-- A line of the session. -/
theorem OffsetRun.command (line : Text) {nCmd : Cmd} {pszCmdArg : Option Text} {u : Unit}
    {ts : List (CommandProg Unit)} (hparse : parseLine line = (some nCmd, pszCmdArg))
    (hnot : nCmd ∉ [Cmd.quit, .user, .pass, .cwd, .xcwd, .cdup, .xcup])
    (hlogged : w.client.bIsLogged = true) (h : Does env (shellCmd cfg nCmd pszCmdArg) w u w' cs)
    (hok : ok ⟨w, ts, true⟩ g env (some nCmd) pszCmdArg)
    (hrun : OffsetRun cfg ok ⟨w, ts, true⟩ g seen) :
    OffsetRun cfg ok ⟨w', threadsAfter cfg ts cs, true⟩ (g.afterLine (some nCmd) pszCmdArg w w' cs)
      (seen ++ lineSeen g (some nCmd) pszCmdArg w' cs) := by
  obtain ⟨hends, hcalls⟩ := line_of_does hnot hlogged h
  have hnext := hrun.line env line rfl (by rw [hparse]; exact hok) (by rw [hparse]; exact hends)
  rw [hparse] at hnext
  dsimp only at hnext
  rw [hcalls] at hnext
  exact hnext

/-- The transfer thread runs to its end. -/
theorem OffsetRun.transfer {p : CommandProg Unit} {u : Unit} {w'' : World} {opened : Bool}
    (hp : Does env p w u w' cs) (hend : run (serveCommand env) endTransfer w' = .done () w'')
    (hrun : OffsetRun cfg ok ⟨w, [p], opened⟩ g seen) :
    OffsetRun cfg ok ⟨w'', [], opened⟩ g (seen ++ transfersSeen g.due cs) := by
  have happ : ∀ cs cs' : List Call, transfersSeen g.due (cs ++ cs') =
      transfersSeen g.due cs ++ transfersSeen g.due cs' := by
    intro cs cs'
    rw [transfersSeen, List.filterMap_append, List.map_append]
    rfl
  have hstart : OffsetRun cfg ok ⟨w, [] ++ p :: [], opened⟩ g (seen ++ transfersSeen g.due []) := by
    show OffsetRun cfg ok ⟨w, [p], opened⟩ g (seen ++ [])
    rw [List.append_nil]
    exact hrun
  have hkeep : ∀ {s s' : LiveSession} {sent cs : List Call},
      OffsetRun cfg ok s g (seen ++ transfersSeen g.due sent) → LiveStep cfg s .thread cs s' →
        (∀ c ∈ cs, True) → OffsetRun cfg ok s' g (seen ++ transfersSeen g.due (sent ++ cs)) := by
    intro s s' sent cs h hstep _
    rw [happ, ← List.append_assoc]
    exact h.other (by simp) hstep
  exact thread_finishes (R := fun s cs => OffsetRun cfg ok s g (seen ++ transfersSeen g.due cs))
    [] [] [] hkeep hp (fun _ _ => trivial) hend hstart

end ClusterFtpd
