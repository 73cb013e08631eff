import ClusterFtpd.Lib.Contracts
import ClusterFtpd.LiveSession

/-!
# What the control thread does beside a transfer

The control thread and the transfer threads share the client entry.  Of the others the control
thread sees one thing only: a transfer thread ends, and resets the data connection.  What the
control thread owes in return is the pledge of `sessionContract`: it creates a thread only while
none is alive, and, as far as `fixed` asks for it, it does not touch what a running transfer reads.

Between two lines the client entry is `Idle`: its status says whether a transfer thread is alive.
`line_honours` proves that a line leads from an idle entry to an idle entry, command by command, if
a command that starts a transfer comes while none is running.
-/

namespace ClusterFtpd

open Interaction MachineInt

/-! ### The contract -/

/-- The client entry, and the transfer thread that is alive. -/
structure Shared where
  client : Client
  alive : Option TransferThread

/-- The client entry after `ResetDataConnection`. -/
def Client.reset (c : Client) : Client :=
  { c with DataSock := none, CurrentTransfer := {}, eStatus := .waiting, eDataConnection := .none }

/-- What the control thread sees of the others. -/
inductive Shared.Others : Shared → Shared → Prop where
  | same (s : Shared) : Others s s
  | ends (c : Client) (thread : TransferThread) : Others ⟨c, some thread⟩ ⟨c.reset, none⟩

theorem Shared.Others.trans {s t u : Shared} (hst : Others s t) (htu : Others t u) : Others s u := by
  cases hst with
  | same => exact htu
  | ends c thread =>
      cases htu with
      | same => exact .ends c thread

/-- A thread that is not alive changes nothing. -/
theorem Shared.Others.eq {s t : Shared} (h : Others s t) (hs : s.alive = none) : t = s := by
  cases h with
  | same => rfl
  | ends c thread => exact absurd hs (by simp)

/-- The others start no thread. -/
theorem Shared.Others.alive {s t : Shared} (h : Others s t) {thread : TransferThread}
    (ht : t.alive = some thread) : s.alive = some thread := by
  cases h with
  | same => exact ht
  | ends c thread' => exact absurd ht (by simp)

/-- The others never change the login. -/
theorem Shared.Others.login {s t : Shared} (h : Others s t) :
    t.client.toLoginState = s.client.toLoginState := by
  cases h <;> rfl

/-- What a transfer thread reads in the client entry. -/
structure TransferFields where
  szPath : Text
  RestartAt : ℤ
  eDataConnection : DataConnection
  nPRET_CMD : Option PretCmd
  llPRET_fid : ℤ
  llPRET_trans_id : ℤ
  SlaveInfo : SlaveInfo
  user : Option (ℕ × ℕ)
  deriving DecidableEq

def Client.transferFields (c : Client) : TransferFields where
  szPath := c.CurrentTransfer.szPath
  RestartAt := c.CurrentTransfer.RestartAt
  eDataConnection := c.eDataConnection
  nPRET_CMD := c.nPRET_CMD
  llPRET_fid := c.llPRET_fid
  llPRET_trans_id := c.llPRET_trans_id
  SlaveInfo := c.SlaveInfo
  user := c.pUser.map fun u => (u.uid, u.gid)

/-- The fields as a transfer thread sees them: a listing does not look at the `PRET`, and only an
upload looks at the user. -/
def TransferFields.seenBy (f : TransferFields) : TransferThread → TransferFields
  | .list => { f with nPRET_CMD := none, llPRET_fid := -1, user := none }
  | .retrieve => { f with user := none }
  | .store => f

/-- The status while a transfer thread runs. -/
def TransferThread.status : TransferThread → Status
  | .list => .listing
  | .retrieve => .downloading
  | .store => .uploading

theorem TransferThread.status_ne (thread : TransferThread) : thread.status ≠ .waiting := by
  cases thread <;> simp [TransferThread.status]

/-- The effect of an operation of a command.  Threads can be created. -/
def commandEffect : (o : CommandOp) → Shared → o.Res → Shared → Prop
  | .client, s, r, t => r = s.client ∧ t = s
  | .modify f, s, _, t =>
      t = { s with client := { s.client with toCommandState := f s.client.toCommandState } }
  | .sys (.pthread_create thread), s, r, t => r = true ∧ t = { s with alive := some thread }
  | .sys .pthread_cancel, s, _, t => t = { s with alive := none }
  | .sys _, s, _, t => t = s
  | .redis _, s, _, t => t = s
  | .sendReply _, s, _, t => t = s

/-- What an operation may do to the client entry of a running transfer, if it is `fixed`. -/
def KeepsFields (fixed : Prop) (s : Shared) (c : Client) : Prop :=
  fixed → ∀ thread, s.alive = some thread →
    c.transferFields.seenBy thread = s.client.transferFields.seenBy thread

/-- The pledge of a command. -/
def commandPledge (fixed : Prop) : CommandOp → Shared → Prop
  | .sys (.pthread_create _), s => s.alive = none ∧ s.client.pUser ≠ none
  | .modify f, s => KeepsFields fixed s { s.client with toCommandState := f s.client.toCommandState }
  | _, _ => True

/-- The contract of a command. -/
def commandContract (fixed : Prop) : Contract CommandI Shared where
  others := Shared.Others
  others_refl := .same
  others_trans := .trans
  effect := commandEffect
  pledge := commandPledge fixed

/-- The effect of an operation of the control thread. -/
def shellEffect : (o : ShellOp) → Shared → o.Res → Shared → Prop
  | .command o, s, r, t => commandEffect o s r t
  | .login f, s, _, t => t = { s with client := f s.client }

/-- The pledge of the control thread. -/
def shellPledge (fixed : Prop) : ShellOp → Shared → Prop
  | .command o, s => commandPledge fixed o s
  | .login f, s => KeepsFields fixed s (f s.client)

/-- The contract of the control thread. -/
def sessionContract (fixed : Prop) : Contract ShellI Shared where
  others := Shared.Others
  others_refl := .same
  others_trans := .trans
  effect := shellEffect
  pledge := shellPledge fixed

/-! ### Idle entries -/

/-- The status of the client entry tells which transfer thread is alive, and the identifier of a
thread that is alive is stored. -/
structure Idle (s : Shared) : Prop where
  busy : ∀ thread, s.alive = some thread → s.client.eStatus = thread.status ∧
    s.client.CurrentTransfer.TransferThreadID = true
  free : s.alive = none → s.client.eStatus = .waiting

/-- No transfer thread is alive. -/
structure Alone (status : Status) (u : Option UserEntry) (s : Shared) : Prop where
  alone : s.alive = none
  status : s.client.eStatus = status
  user : s.client.pUser = u

variable {fixed : Prop} {α β : Type} {s t : Shared} {status : Status} {u : Option UserEntry}
  {ps : List Part} {cfg : Config} {Q : α → Shared → Prop}

theorem Idle.others (h : Idle s) (ho : Shared.Others s t) : Idle t := by
  cases ho with
  | same => exact h
  | ends c thread => exact ⟨fun _ halive => absurd halive (by simp), fun _ => rfl⟩

theorem Alone.others (h : Alone status u s) (ho : Shared.Others s t) : Alone status u t := by
  rw [ho.eq h.alone]
  exact h

theorem Alone.idle (h : Alone .waiting u s) : Idle s :=
  ⟨fun _ halive => absurd halive (by simp [h.alone]), fun _ => h.status⟩

/-- A status of waiting says that there is no transfer. -/
theorem Idle.alone (h : Idle s) (hwait : s.client.eStatus = .waiting) :
    Alone .waiting s.client.pUser s := by
  refine ⟨?_, hwait, rfl⟩
  cases halive : s.alive with
  | none => rfl
  | some thread => exact absurd hwait ((h.busy thread halive).1 ▸ thread.status_ne)

/-! ### Rules -/

/-- What happens while no thread is alive is between the control thread and the client entry. -/
theorem honours_within (ps : List Part) {p : CommandProg α} (hp : Every (Within ps) p)
    (hstatus : Part.status ∉ ps) (hcreate : Part.create ∉ ps) (hs : Alone status u s) :
    Honours (commandContract fixed) (fun _ => Alone status u) p s := by
  refine Honours.frame hp (fun s t ho h => h.others ho) (fun o ho s hs => ?_) hs
  cases o with
  | client => exact ⟨trivial, fun r t ht => ht.2 ▸ hs⟩
  | redis o => exact ⟨trivial, fun r t ht => ht ▸ hs⟩
  | sendReply r => exact ⟨trivial, fun r t ht => ht ▸ hs⟩
  | modify f =>
      have hsame : _ = _ := ho .status hstatus s.client.toCommandState
      refine ⟨fun _ _ halive => absurd halive (by simp [hs.alone]), fun r t ht => ?_⟩
      rw [ht]
      exact ⟨hs.alone, hsame.trans hs.status, hs.user⟩
  | sys o =>
      cases o with
      | pthread_create thread => exact absurd (ho .create rfl) hcreate
      | pthread_cancel => exact ⟨trivial, fun r t ht => ht ▸ ⟨rfl, hs.status, hs.user⟩⟩
      | _ => exact ⟨trivial, fun r t ht => ht ▸ hs⟩

/-- The identifiers of the user. -/
def Client.ids (c : Client) : Option (ℕ × ℕ) := c.pUser.map fun u => (u.uid, u.gid)

/-- A change of the client entry that leaves alone what the running transfer reads. -/
theorem Idle.changed {c : Client} (hs : Idle s)
    (hsame : ∀ x ∈ [Part.status, .connection, .transfer, .slave],
      x.Same s.client.toCommandState c.toCommandState)
    (hpret : fixed → ∀ thread, s.alive = some thread → thread ≠ .list →
      Part.pret.Same s.client.toCommandState c.toCommandState)
    (huser : fixed → s.alive = some .store → c.ids = s.client.ids) :
    KeepsFields fixed s c ∧ Idle { s with client := c } := by
  have hstatus : _ = _ := hsame .status (by simp)
  have hconn : _ = _ := hsame .connection (by simp)
  have htransfer : _ = _ := hsame .transfer (by simp)
  have hslave : _ ∧ _ := hsame .slave (by simp)
  refine ⟨fun hf thread halive => ?_, fun thread halive => ?_, fun halive => ?_⟩
  · simp only [Client.transferFields, htransfer, hconn, hslave.1, hslave.2]
    cases thread with
    | list => rfl
    | retrieve =>
        have hkept : _ ∧ _ := hpret hf .retrieve halive (by simp)
        simp only [TransferFields.seenBy, hkept.1, hkept.2]
    | store =>
        have hkept : _ ∧ _ := hpret hf .store halive (by simp)
        have hids : c.pUser.map (fun u => (u.uid, u.gid)) = s.client.pUser.map _ :=
          huser hf halive
        simp only [TransferFields.seenBy, hkept.1, hkept.2, hids]
  · obtain ⟨hbusy, hthread⟩ := hs.busy thread halive
    exact ⟨hstatus.trans hbusy, (congrArg DataTransfer.TransferThreadID htransfer).trans hthread⟩
  · exact hstatus.trans (hs.free halive)

/-- An operation that touches nothing the transfer that is running reads. -/
theorem Idle.operation {o : CommandOp} (ho : Within ps o)
    (hps : ∀ x ∈ [Part.status, .connection, .transfer, .slave, .create, .cancel], x ∉ ps)
    (hpret : fixed → ∀ thread, s.alive = some thread → thread ≠ .list → Part.pret ∉ ps)
    (hs : Idle s) : commandPledge fixed o s ∧
      ∀ r t, commandEffect o s r t → Idle t ∧ t.alive = s.alive := by
  have hkeep : ∀ t, t = s → Idle t ∧ t.alive = s.alive := by
    intro t ht
    rw [ht]
    exact ⟨hs, rfl⟩
  cases o with
  | client => exact ⟨trivial, fun r t ht => hkeep t ht.2⟩
  | redis o => exact ⟨trivial, fun r t ht => hkeep t ht⟩
  | sendReply r => exact ⟨trivial, fun r t ht => hkeep t ht⟩
  | modify f =>
      have hsame : ∀ x ∈ [Part.status, .connection, .transfer, .slave],
          x.Same s.client.toCommandState (f s.client.toCommandState) :=
        fun x hx => ho x (hps x (by simp at hx ⊢; tauto)) _
      obtain ⟨hkeeps, hidle⟩ := hs.changed
        (c := { s.client with toCommandState := f s.client.toCommandState }) hsame
        (fun hf thread halive hlist => ho .pret (hpret hf thread halive hlist) _)
        (fun _ _ => rfl)
      refine ⟨hkeeps, fun r t ht => ?_⟩
      rw [ht]
      exact ⟨hidle, rfl⟩
  | sys o =>
      cases o with
      | pthread_create thread => exact absurd (ho .create rfl) (hps _ (by simp))
      | pthread_cancel => exact absurd (ho .cancel rfl) (hps _ (by simp))
      | _ => exact ⟨trivial, fun r t ht => hkeep t ht⟩

/-- What a command that starts no thread keeps: an idle entry, with no other thread than in `s`. -/
def IdleSince (s t : Shared) : Prop := Idle t ∧ ∀ thread, t.alive = some thread →
  s.alive = some thread

theorem IdleSince.others {s t v : Shared} (h : IdleSince s t) (ho : Shared.Others t v) :
    IdleSince s v := ⟨h.1.others ho, fun thread hv => h.2 thread (ho.alive hv)⟩

/-- A command that touches nothing the transfer that is running reads. -/
theorem honours_beside {p : CommandProg α} (hp : Every (Within ps) p)
    (hps : ∀ x ∈ [Part.status, .connection, .transfer, .slave, .create, .cancel], x ∉ ps)
    (hpret : fixed → ∀ thread, s.alive = some thread → thread ≠ .list → Part.pret ∉ ps)
    (hs : Idle s) : Honours (commandContract fixed) (fun _ => Idle) p s := by
  have hframe : Honours (commandContract fixed) (fun _ => IdleSince s) p s := by
    refine Honours.frame hp (fun t v ho ht => ht.others ho) (fun o ho t ht => ?_)
      ⟨hs, fun _ h => h⟩
    obtain ⟨hpledge, heffect⟩ := ht.1.operation ho hps fun hf thread halive =>
      hpret hf thread (ht.2 thread halive)
    refine ⟨hpledge, fun r v hv => ⟨(heffect r v hv).1, fun thread halive => ht.2 thread ?_⟩⟩
    rw [← (heffect r v hv).2]
    exact halive
  exact hframe.imp fun _ _ ht => ht.1

theorem honours_sendReply (r : Reply) (hs : Idle s) :
    Honours (commandContract fixed) (fun _ => Idle) (sendReply r) s := by
  have hp : Every (Within []) (sendReply r) := within_sendReply r
  exact honours_beside hp (by simp) (by simp) hs

theorem honours_ret {a : α} (hs : Idle s) :
    Honours (commandContract fixed) (fun _ => Idle) (.ret a) s := fun _ ho => hs.others ho

/-- A read of the client entry beside a transfer. -/
theorem honours_client {f : Client → CommandProg α} (hs : Idle s)
    (h : ∀ t, Idle t → Shared.Others s t → Honours (commandContract fixed) Q (f t.client) t) :
    Honours (commandContract fixed) Q (client >>= f) s := by
  refine Honours.call fun t ht => ⟨trivial, fun r t' hr => ?_⟩
  obtain ⟨rfl, rfl⟩ := hr
  exact h _ (hs.others ht) ht

/-- A read of the client entry alone. -/
theorem honours_alone_client {f : Client → CommandProg α} (hs : s.alive = none)
    (h : Honours (commandContract fixed) Q (f s.client) s) :
    Honours (commandContract fixed) Q (client >>= f) s := by
  refine Honours.call fun t ht => ⟨trivial, fun r t' hr => ?_⟩
  obtain ⟨rfl, rfl⟩ := hr
  rw [Shared.Others.eq ht hs]
  exact h

/-- A change of the client entry alone. -/
theorem honours_alone_modify {g : CommandState → CommandState} {f : Unit → CommandProg α}
    (hs : s.alive = none) (h : Honours (commandContract fixed) Q (f ())
      { s with client := { s.client with toCommandState := g s.client.toCommandState } }) :
    Honours (commandContract fixed) Q (modify g >>= f) s := by
  refine Honours.call fun t ht => ?_
  rw [Shared.Others.eq ht hs]
  refine ⟨fun _ _ halive => absurd halive (by simp [hs]), fun r t' ht' => ?_⟩
  rw [ht']
  exact h

/-- The status is set before the thread is started. -/
theorem honours_setStatus {g : CommandState → CommandState} {f : Unit → CommandProg α}
    (thread : TransferThread) (hs : Alone status u s) (hg : ∀ c, (g c).eStatus = thread.status)
    (h : ∀ t, Alone thread.status u t → Honours (commandContract fixed) Q (f ()) t) :
    Honours (commandContract fixed) Q (modify g >>= f) s :=
  honours_alone_modify hs.alone (h _ ⟨hs.alone, hg s.client.toCommandState, hs.user⟩)

/-- Reset the data connection: a thread whose identifier is stored is cancelled. -/
theorem honours_reset
    (hs : s.alive ≠ none → s.client.CurrentTransfer.TransferThreadID = true) :
    Honours (commandContract fixed) (fun _ => Alone .waiting s.client.pUser)
      (resetDataConnection true) s := by
  refine Honours.call fun t ht => ⟨trivial, fun r t' hr => ?_⟩
  obtain ⟨rfl, rfl⟩ := hr
  have hthread : t'.alive ≠ none → t'.client.CurrentTransfer.TransferThreadID = true := by
    cases ht with
    | same => exact hs
    | ends c thread => exact fun halive => absurd rfl halive
  have huser : t'.client.pUser = s.client.pUser := by
    cases ht <;> rfl
  -- until the cancellation the thread may end at any time
  let Inv : Shared → Prop := fun v =>
    (v.alive ≠ none → t'.client.CurrentTransfer.TransferThreadID = true) ∧
      v.client.pUser = s.client.pUser
  have hothers : ∀ v v', Shared.Others v v' → Inv v → Inv v' := by
    intro v v' ho hv
    cases ho with
    | same => exact hv
    | ends c thread => exact ⟨fun halive => absurd rfl halive, hv.2⟩
  have hclose : Honours (commandContract fixed) (fun _ => Inv) (closeData t'.client.DataSock) t' := by
    have hp : ∀ fd, Every (fun o : CommandOp => o = .sys (.closeSocket fd))
        (sys (.closeSocket fd)) :=
      fun fd => ⟨rfl, fun _ => trivial⟩
    cases t'.client.DataSock with
    | none => exact fun v ho => hothers t' v ho ⟨hthread, huser⟩
    | some fd =>
        refine Honours.frame (hp fd) hothers (fun o ho v hv => ?_) ⟨hthread, huser⟩
        subst ho
        exact ⟨trivial, fun r v' hv' => hv' ▸ hv⟩
  refine hclose.bind fun _ v hv => ?_
  have hcancel : Honours (commandContract fixed)
      (fun _ (v : Shared) => v.alive = none ∧ v.client.pUser = s.client.pUser)
      (onlyIf (t'.client.CurrentTransfer.TransferThreadID = true ∧ (true : Bool) = true)
        (sys .pthread_cancel)) v := by
    unfold onlyIf
    by_cases hid : t'.client.CurrentTransfer.TransferThreadID = true
    · rw [if_pos ⟨hid, rfl⟩]
      refine Honours.call fun v₁ hv₁ => ⟨trivial, fun r v₂ hv₂ => ?_⟩
      intro v₃ hv₃
      have heq : v₃ = v₂ := Shared.Others.eq hv₃ (by rw [hv₂])
      rw [heq, hv₂]
      exact ⟨rfl, (hothers v v₁ hv₁ hv).2⟩
    · rw [if_neg fun h => hid h.1]
      intro v₁ hv₁
      have hv' := hothers v v₁ hv₁ hv
      refine ⟨?_, hv'.2⟩
      by_contra halive
      exact hid (hv'.1 halive)
  refine hcancel.bind fun _ v hv => ?_
  refine Honours.call fun v₁ hv₁ => ?_
  rw [Shared.Others.eq hv₁ hv.1]
  refine ⟨fun _ _ halive => absurd halive (by simp [hv.1]), fun r v₂ hv₂ => ?_⟩
  intro v₃ hv₃
  have heq : v₃ = v₂ := Shared.Others.eq hv₃ (by rw [hv₂]; exact hv.1)
  rw [heq, hv₂]
  exact ⟨hv.1, rfl, hv.2⟩

theorem honours_alone_reset (hs : Alone .waiting u s) :
    Honours (commandContract fixed) (fun _ => Alone .waiting u) (resetDataConnection true) s := by
  have hnone : s.alive ≠ none → s.client.CurrentTransfer.TransferThreadID = true :=
    fun halive => absurd hs.alone halive
  have hreset : Honours (commandContract fixed) _ _ s := honours_reset hnone
  rw [hs.user] at hreset
  exact hreset

theorem honours_onlyIf {b : Prop} [Decidable b] {p : CommandProg Unit} (hs : Alone status u s)
    (hp : Honours (commandContract fixed) (fun _ => Alone status u) p s) :
    Honours (commandContract fixed) (fun _ => Alone status u) (onlyIf b p) s := by
  unfold onlyIf
  split_ifs
  · exact hp
  · exact fun t ho => hs.others ho

/-- A thread is started when none is alive, by a user. -/
theorem honours_startTransfer {thread : TransferThread} (hs : Alone thread.status u s)
    (hu : u ≠ none) :
    Honours (commandContract fixed) (fun _ => Idle) (startTransfer thread) s := by
  unfold startTransfer
  refine honours_alone_client hs.alone (honours_alone_modify hs.alone ?_)
  refine Honours.call fun t ht => ?_
  rw [Shared.Others.eq ht hs.alone]
  refine ⟨⟨hs.alone, by rw [hs.user]; exact hu⟩, fun r t' ht' => ?_⟩
  obtain ⟨rfl, rfl⟩ := ht'
  show Honours _ _ (.ret true) _
  refine honours_ret ⟨fun thread' hthread => ?_, fun halive => absurd halive (by simp)⟩
  obtain rfl : thread = thread' := Option.some.inj hthread
  exact ⟨hs.status, rfl⟩

/-! ### The commands -/

/-- What is left of a command when no thread is alive, up to its end. -/
theorem honours_rest (ps : List Part) {p : CommandProg α} (hp : Every (Within ps) p)
    (hstatus : Part.status ∉ ps) (hcreate : Part.create ∉ ps) (hs : Alone .waiting u s) :
    Honours (commandContract fixed) (fun _ => Idle) p s :=
  (honours_within ps hp hstatus hcreate hs).imp fun _ _ h => h.idle

theorem honours_cmdRest (pszCmdArg : Option Text) (hs : Idle s) :
    Honours (commandContract fixed) (fun _ => Idle) (cmdRest pszCmdArg) s := by
  unfold cmdRest
  refine honours_client hs fun t ht _ => ?_
  by_cases hwait : t.client.eStatus = .waiting
  · rw [if_pos hwait]
    cases pszCmdArg with
    | none => exact honours_sendReply _ ht
    | some arg =>
        have hp : Every (Within [.transfer]) (modifyTransfer fun t =>
            { t with RestartAt := atoiText arg }) := within_modifyTransfer (by simp) _
        exact honours_rest _ (hp.bind fun _ => within_sendReply _) (by simp) (by simp) (ht.alone hwait)
  · rw [if_neg hwait]
    exact honours_sendReply _ ht

theorem honours_cmdPort (cfg : Config) (pszCmdArg : Option Text) (hs : Idle s) :
    Honours (commandContract fixed) (fun _ => Idle) (cmdPort cfg pszCmdArg) s := by
  unfold cmdPort
  refine honours_client hs fun t ht _ => ?_
  by_cases hwait : t.client.eStatus = .waiting
  · have halone := ht.alone hwait
    rw [if_pos hwait]
    cases pszCmdArg.bind scanPort with
    | none => exact honours_sendReply _ ht
    | some a =>
        refine (honours_onlyIf halone (honours_alone_reset halone)).bind fun _ v hv => ?_
        refine honours_rest [.connection, .socket] ?_ (by simp) (by simp) hv
        show Every _ (if _ then _ else _)
        rw [every_ite]
        refine ⟨fun _ => ?_, fun _ => within_sendReply _⟩
        refine Every.bind (within_modify.mpr fun x hx c => ?_) fun _ => within_sendReply _
        cases x <;> simp_all [Part.Same]
  · rw [if_neg hwait]
    exact honours_sendReply _ ht

theorem honours_cmdPasv (cfg : Config) (hs : Idle s) :
    Honours (commandContract fixed) (fun _ => Idle) (cmdPasv cfg) s := by
  unfold cmdPasv
  refine honours_client hs fun t ht _ => ?_
  by_cases hwait : t.client.eStatus = .waiting
  · have halone := ht.alone hwait
    rw [if_pos hwait]
    cases t.client.nPRET_CMD with
    | none =>
        show Honours _ _ (pasvLocal cfg) t
        unfold pasvLocal
        refine honours_alone_client halone.alone ?_
        refine (honours_onlyIf halone (honours_alone_reset halone)).bind fun _ v hv => ?_
        have hp := @within_pasvSocket [.connection, .socket] (by simp) (by simp) cfg t.client
        exact honours_rest _ hp (by simp) (by simp) hv
    | some cmd =>
        exact honours_rest _ (within_pasvRemote cfg cmd) (by decide) (by decide) halone
  · rw [if_neg hwait]
    exact honours_sendReply _ ht

theorem honours_cmdAbor (hs : Idle s) :
    Honours (commandContract fixed) (fun _ => Idle) cmdAbor s := by
  unfold cmdAbor
  refine honours_client hs fun t ht _ => ?_
  have hreset : Honours (commandContract fixed) (fun _ => Idle)
      (onlyIf (t.client.eStatus ≠ .waiting) do
        resetDataConnection true
        sendReply (.line 426 "Previous command has been finished abnormally.")) t := by
    unfold onlyIf
    split_ifs
    · have hthread : t.alive ≠ none → t.client.CurrentTransfer.TransferThreadID = true := by
        intro halive
        obtain ⟨thread, hsome⟩ := Option.ne_none_iff_exists'.mp halive
        exact (ht.busy thread hsome).2
      exact (honours_reset hthread).bind fun _ v hv => honours_sendReply _ hv.idle
    · exact honours_ret ht
  exact hreset.bind fun _ v hv => honours_sendReply _ hv

/-- `OpenDataConnection` leaves no thread behind. -/
theorem honours_openDataConnection (cfg : Config) (hs : Alone .waiting u s) :
    Honours (commandContract fixed) (fun _ => Alone .waiting u) (openDataConnection cfg) s := by
  unfold openDataConnection
  refine honours_alone_client hs.alone ?_
  have hret : ∀ (b : Bool) v, Alone .waiting u v →
      Honours (commandContract fixed) (fun _ => Alone .waiting u) (.ret b) v :=
    fun b v hv w ho => hv.others ho
  have hreply : ∀ r v, Alone .waiting u v →
      Honours (commandContract fixed) (fun _ => Alone .waiting u) (sendReply r) v :=
    fun r v hv => honours_within [] (within_sendReply r) (by simp) (by simp) hv
  by_cases hnone : s.client.eDataConnection = .none
  · rw [if_pos hnone]
    exact (hreply _ s hs).bind fun _ v hv => hret false v hv
  · rw [if_neg hnone]
    have hsocket : Every (Within [.socket]) activeSocket := within_activeSocket (by simp)
    have htry : Every (Within [.socket]) (tryDataConnection cfg) :=
      within_tryDataConnection (by simp) cfg
    refine (honours_onlyIf hs (honours_within _ hsocket (by simp) (by simp) hs)).bind
      fun _ v hv => ?_
    refine (honours_within _ htry (by simp) (by simp) hv).bind fun opened v hv => ?_
    cases opened with
    | true => exact hret true v hv
    | false =>
        refine (hreply _ v hv).bind fun _ v hv => ?_
        exact (honours_alone_reset hv).bind fun _ v hv => hret false v hv

theorem honours_openListing (cfg : Config) (nCmd : Cmd) (hs : Alone .waiting u s) :
    Honours (commandContract fixed) (fun _ => Alone .waiting u) (openListing cfg nCmd) s := by
  have htransfer : ∀ f, Every (Within [.transfer]) (modifyTransfer f) :=
    fun f => within_modifyTransfer (by simp) f
  unfold openListing
  split_ifs
  · refine honours_within [.transfer] ?_ (by simp) (by simp) hs
    exact (within_sendReply _).bind fun _ => (htransfer _).bind fun _ => trivial
  · refine (honours_openDataConnection cfg hs).bind fun opened v hv => ?_
    refine (honours_onlyIf hv (honours_within _ (htransfer _) (by simp) (by simp) hv)).bind
      fun _ v hv => fun w ho => hv.others ho

theorem honours_cmdList (cfg : Config) (nCmd : Cmd) (pszCmdArg : Option Text)
    (hu : s.client.pUser ≠ none) (hs : Idle s) :
    Honours (commandContract fixed) (fun _ => Idle) (cmdList cfg nCmd pszCmdArg) s := by
  have htransfer : ∀ f, Every (Within [.transfer]) (modifyTransfer f) :=
    fun f => within_modifyTransfer (by simp) f
  unfold cmdList
  refine honours_client hs fun t ht ho => ?_
  have hsame : t.client.pUser = s.client.pUser := congrArg LoginState.pUser ho.login
  by_cases hwait : t.client.eStatus = .waiting
  · rw [if_neg (not_not_intro hwait)]
    have halone := ht.alone hwait
    refine (honours_within _ (htransfer _) (by simp) (by simp) halone).bind fun _ v hv => ?_
    have hstat : Every (Within []) (statPath (t.client.buildPath
        (pszCmdArg.map fun arg => (scanOptions .dash {} arg).2))) := within_statPath _
    refine (honours_within _ hstat (by simp) (by simp) hv).bind fun found v hv => ?_
    cases found with
    | none => exact honours_sendReply _ hv.idle
    | some a =>
        refine (honours_within _ (htransfer _) (by simp) (by simp) hv).bind fun _ v hv => ?_
        refine (honours_openListing cfg nCmd hv).bind fun opened v hv => ?_
        unfold onlyIf
        split_ifs
        · refine honours_setStatus .list hv (fun _ => rfl) fun v hv => ?_
          exact (honours_startTransfer hv (hsame ▸ hu)).bind fun _ v hv => honours_ret hv
        · exact honours_ret hv.idle
  · rw [if_pos hwait]
    exact honours_sendReply _ ht

theorem honours_cmdRetr (arg : Text) (hu : u ≠ none) (hs : Alone .waiting u s) :
    Honours (commandContract fixed) (fun _ => Idle) (cmdRetr arg) s := by
  unfold cmdRetr
  refine honours_alone_client hs.alone ?_
  have hstat : Every (Within []) (statPath (s.client.buildPath (some arg))) := within_statPath _
  refine (honours_within _ hstat (by simp) (by simp) hs).bind fun found v hv => ?_
  cases found with
  | none => exact honours_sendReply _ hv.idle
  | some a =>
      show Honours _ _ (if _ then _ else _) v
      split_ifs
      · have hopen : Every (Within [.opening]) openSlaveConnection :=
          within_openSlaveConnection (by simp)
        refine (honours_within _ hopen (by simp) (by simp) hv).bind fun opened v hv => ?_
        unfold onlyIf
        split_ifs
        · refine honours_setStatus .retrieve hv (fun _ => rfl) fun v hv => ?_
          exact (honours_startTransfer hv hu).bind fun _ v hv => honours_ret hv
        · exact honours_ret hv.idle
      · exact honours_sendReply _ hv.idle

theorem honours_cmdStore (cmd : UploadCmd) (pszCmdArg : Option Text) (hu : u ≠ none)
    (hs : Alone .waiting u s) :
    Honours (commandContract fixed) (fun _ => Idle) (cmdStore cmd pszCmdArg) s := by
  have htransfer : ∀ f, Every (Within [.transfer]) (modifyTransfer f) :=
    fun f => within_modifyTransfer (by simp) f
  unfold cmdStore
  split_ifs
  · have hpath : Every (Within []) (uploadPath cmd pszCmdArg) := within_uploadPath cmd pszCmdArg
    refine (honours_within _ hpath (by simp) (by simp) hs).bind fun path v hv => ?_
    cases path with
    | none => exact honours_ret hv.idle
    | some path =>
        have hopen : Every (Within [.opening]) openSlaveConnection :=
          within_openSlaveConnection (by simp)
        refine (honours_within _ hopen (by simp) (by simp) hv).bind fun opened v hv => ?_
        split_ifs
        · unfold startStore
          refine honours_setStatus .store hv (fun _ => rfl) fun v hup => ?_
          have happend : Every (Within [.transfer]) (appendOffset path) :=
            (within_redis_of_reads (reads_stat path)).bind fun _ => htransfer _
          refine (honours_onlyIf hup (honours_within _ happend (by simp) (by simp) hup)).bind
            fun _ v hv => ?_
          refine (honours_within _ (htransfer _) (by simp) (by simp) hv).bind fun _ v hv => ?_
          exact honours_startTransfer hv hu
        · exact honours_ret hv.idle
  · exact (honours_sendReply _ hs.idle).bind fun _ v hv => honours_ret hv

/-! ### Lines -/

/-- The line asks for an upload or a download: it is one of the commands that start a transfer
without looking at the status, with its privilege and its argument. -/
def Client.asksTransfer (c : Client) (nCmd : Option Cmd) (pszCmdArg : Option Text) : Prop :=
  (nCmd = some .retr ∧ c.checkPrivileges READFILE = true ∧ pszCmdArg.isSome = true) ∨
    ((nCmd = some .stor ∨ nCmd = some .appe) ∧ c.checkPrivileges WRITEFILE = true ∧
      pszCmdArg.isSome = true) ∨
    (nCmd = some .stou ∧ c.checkPrivileges WRITEFILE = true)

instance (c : Client) (nCmd : Option Cmd) (pszCmdArg : Option Text) :
    Decidable (c.asksTransfer nCmd pszCmdArg) := inferInstanceAs (Decidable (_ ∨ _))

/-- A user who has a privilege is there. -/
theorem Client.user_of_privileges {c : Client} {ucPriv : ℕ} (h : c.checkPrivileges ucPriv = true) :
    c.pUser ≠ none := by
  intro hnone
  rw [Client.checkPrivileges, hnone] at h
  simp at h

theorem Shared.Others.privileges (h : Shared.Others s t) (ucPriv : ℕ) :
    t.client.checkPrivileges ucPriv = s.client.checkPrivileges ucPriv := by
  cases h <;> rfl

theorem Shared.Others.asksTransfer {nCmd : Option Cmd} {pszCmdArg : Option Text}
    (h : Shared.Others s t) :
    t.client.asksTransfer nCmd pszCmdArg ↔ s.client.asksTransfer nCmd pszCmdArg := by
  cases h <;> exact Iff.rfl

theorem honours_withPrivilege {ucPriv : ℕ} {body : CommandProg Unit} (hs : Idle s)
    (hbody : ∀ t, Idle t → Shared.Others s t → s.client.checkPrivileges ucPriv = true →
      Honours (commandContract fixed) (fun _ => Idle) body t) :
    Honours (commandContract fixed) (fun _ => Idle) (withPrivilege ucPriv body) s := by
  unfold withPrivilege
  refine honours_client hs fun t ht ho => ?_
  rw [ho.privileges]
  split_ifs with hpriv
  · exact hbody t ht ho hpriv
  · exact honours_sendReply _ ht

/-- A listing is for a user who may list. -/
theorem honours_listing (cfg : Config) (nCmd : Cmd) (pszCmdArg : Option Text) (hs : Idle s) :
    Honours (commandContract fixed) (fun _ => Idle)
      (withPrivilege LIST (cmdList cfg nCmd pszCmdArg)) s := by
  refine honours_withPrivilege hs fun t ht ho hpriv => honours_cmdList cfg nCmd pszCmdArg ?_ ht
  exact Client.user_of_privileges (ho.privileges LIST ▸ hpriv)

/-- An upload that no other transfer runs beside. -/
theorem honours_upload (cmd : UploadCmd) (pszCmdArg : Option Text) (hs : Idle s)
    (hasks : s.client.checkPrivileges WRITEFILE = true → (pszCmdArg.isSome = true ∨ cmd = .stou) →
      s.alive = none) :
    Honours (commandContract fixed) (fun _ => Idle)
      (withPrivilege WRITEFILE (discard (cmdStore cmd pszCmdArg))) s := by
  refine honours_withPrivilege hs fun t ht ho hpriv => ?_
  have hstore : Honours (commandContract fixed) (fun _ => Idle) (cmdStore cmd pszCmdArg) t := by
    by_cases harg : pszCmdArg.isSome = true ∨ cmd = .stou
    · have hnone := hasks hpriv harg
      obtain rfl := ho.eq hnone
      exact honours_cmdStore cmd pszCmdArg (Client.user_of_privileges hpriv)
        (hs.alone (hs.free hnone))
    · unfold cmdStore
      rw [if_neg harg]
      exact (honours_sendReply _ ht).bind fun _ v hv => honours_ret hv
  exact hstore.bind fun _ v hv => honours_ret hv

/-- **A command** leads from an idle entry to an idle entry, if it asks for a transfer only while
none is running and, where this matters, does not change the `PRET` of a running transfer. -/
theorem honours_shellCmd (cfg : Config) (nCmd : Cmd) (pszCmdArg : Option Text) (hs : Idle s)
    (hasks : s.client.asksTransfer (some nCmd) pszCmdArg → s.alive = none)
    (hpret : fixed → nCmd = .pret → ∀ thread, s.alive = some thread → thread = .list) :
    Honours (commandContract fixed) (fun _ => Idle) (shellCmd cfg nCmd pszCmdArg) s := by
  by_cases hbeside : nCmd ∈ [Cmd.port, .pasv, .abor, .rest, .list, .nlst, .stat, .retr, .stor,
      .appe, .stou]
  · simp only [List.mem_cons, List.not_mem_nil, or_false] at hbeside
    obtain rfl | rfl | rfl | rfl | rfl | rfl | rfl | rfl | rfl | rfl | rfl := hbeside
    · exact honours_cmdPort cfg pszCmdArg hs
    · exact honours_cmdPasv cfg hs
    · exact honours_cmdAbor hs
    · exact honours_cmdRest pszCmdArg hs
    · exact honours_listing cfg .list pszCmdArg hs
    · exact honours_listing cfg .nlst pszCmdArg hs
    · show Honours _ _ (if _ then _ else _) s
      split_ifs
      · exact honours_sendReply _ hs
      · exact honours_listing cfg .stat pszCmdArg hs
    · refine honours_withPrivilege hs fun t ht ho hpriv => ?_
      cases pszCmdArg with
      | none => exact honours_sendReply _ ht
      | some arg =>
          have hnone : s.alive = none := hasks (.inl ⟨rfl, hpriv, rfl⟩)
          obtain rfl := ho.eq hnone
          exact honours_cmdRetr arg (Client.user_of_privileges hpriv) (hs.alone (hs.free hnone))
    · refine honours_upload .stor pszCmdArg hs fun hpriv harg => hasks ?_
      exact .inr (.inl ⟨.inl rfl, hpriv, by simpa using harg⟩)
    · refine honours_upload .appe pszCmdArg hs fun hpriv harg => hasks ?_
      exact .inr (.inl ⟨.inr rfl, hpriv, by simpa using harg⟩)
    · exact honours_upload .stou pszCmdArg hs fun hpriv _ => hasks (.inr (.inr ⟨rfl, hpriv⟩))
  · refine honours_beside (shellCmd_within cfg nCmd pszCmdArg) ?_ ?_ hs
    · intro x hx
      cases nCmd <;> simp_all [Cmd.parts] <;> grind
    · intro hf thread halive hlist
      have hnot : nCmd ≠ .pret := fun h => hlist (hpret hf h thread halive)
      cases nCmd <;> simp_all [Cmd.parts]

/-- A change of the login that keeps the identifiers of the user. -/
def KeepsUser : ShellOp → Prop
  | .command _ => True
  | .login f => ∀ c, (f c).ids = c.ids

theorem honours_command {p : CommandProg α}
    (hp : Honours (commandContract fixed) Q p s) : Honours (sessionContract fixed) Q (command p) s :=
  Honours.translate (C := commandContract fixed) (D := sessionContract fixed)
    (φ := ShellOp.command) (ρ := fun _ r => r)
    (fun _ _ h => h) (fun _ _ h => h) (fun _ _ _ _ h => h) hp

/-- A command for the login. -/
theorem honours_login {p : ShellProg α} (hp : Every (fun o => ShellWithin [.rename] o ∧
      (fixed → s.alive = some .store → KeepsUser o)) p) (hs : Idle s) :
    Honours (sessionContract fixed) (fun _ => Idle) p s := by
  have hframe : Honours (sessionContract fixed) (fun _ => IdleSince s) p s := by
    refine Honours.frame hp (fun t v ho ht => ht.others ho) (fun o ho t ht => ?_)
      ⟨hs, fun _ h => h⟩
    obtain ⟨hwithin, huser⟩ := ho
    have hpledge : shellPledge fixed o t ∧
        ∀ r v, shellEffect o t r v → Idle v ∧ v.alive = t.alive := by
      cases o with
      | command o => exact ht.1.operation hwithin (by simp) (by simp)
      | login f =>
          obtain ⟨hkeeps, hidle⟩ := ht.1.changed (c := f t.client)
            (fun x hx => hwithin x (by simp at hx ⊢; grind) _)
            (fun _ _ _ _ => hwithin .pret (by simp) _)
            (fun hf halive => huser hf (ht.2 _ halive) t.client)
          refine ⟨hkeeps, fun r v hv => ?_⟩
          rw [hv]
          exact ⟨hidle, rfl⟩
    refine ⟨hpledge.1, fun r v hv => ⟨(hpledge.2 r v hv).1, fun thread halive => ht.2 thread ?_⟩⟩
    rw [← (hpledge.2 r v hv).2]
    exact halive
  exact hframe.imp fun _ _ ht => ht.1

theorem ShellWithin.mono {qs : List Part} (h : ps ⊆ qs) {o : ShellOp} (ho : ShellWithin ps o) :
    ShellWithin qs o := by
  cases o with
  | command o => exact Within.mono h ho
  | login f => exact fun x hx c => ho x (fun hp => hx (h hp)) c

/-- A line asks for a transfer only while none is running.  If the transfer is `fixed`, the line is
no `PRET` during an upload or a download and no `USER` during an upload. -/
structure Apart (fixed : Prop) (c : Client) (nCmd : Option Cmd) (pszCmdArg : Option Text) :
    Prop where
  asks : c.asksTransfer nCmd pszCmdArg → c.eStatus = .waiting
  pret : fixed → nCmd = some .pret → c.eStatus = .waiting ∨ c.eStatus = .listing
  user : fixed → nCmd = some .user → c.eStatus ≠ .uploading

/-- A thread that runs in an idle entry is the one of the status. -/
theorem Idle.thread (hs : Idle s) {thread thread' : TransferThread} (halive : s.alive = some thread)
    (hstatus : s.client.eStatus = thread'.status) : thread = thread' := by
  have hsame : thread.status = thread'.status := (hs.busy thread halive).1.symm.trans hstatus
  cases thread <;> cases thread' <;> simp_all [TransferThread.status]

/-- A command for the login that keeps the identifiers of the user. -/
theorem honours_keepsUser {p : ShellProg α} (hs : Idle s)
    (hp : Every (fun o => ShellWithin [] o ∧ KeepsUser o) p) :
    Honours (sessionContract fixed) (fun _ => Idle) p s :=
  honours_login (hp.mono fun _ ho => ⟨ho.1.mono (List.nil_subset _), fun _ _ => ho.2⟩) hs

/-- A command behind the login gate. -/
theorem honours_shellLogged (cfg : Config) (cmd : Cmd) (pszCmdArg : Option Text) (hs : Idle s)
    (hasks : s.client.asksTransfer (some cmd) pszCmdArg → s.alive = none)
    (hpret : fixed → cmd = .pret → ∀ thread, s.alive = some thread → thread = .list) :
    Honours (sessionContract fixed) (fun _ => Idle) (shellLogged cfg cmd pszCmdArg) s := by
  have hcwd : Honours (sessionContract fixed) (fun _ => Idle) (cmdCwd pszCmdArg) s :=
    honours_keepsUser hs (every_cmdCwd (fun _ ho => ⟨ho, trivial⟩)
      (fun _ => ⟨fun x _ _ => Part.Same.refl x _, fun _ => rfl⟩) pszCmdArg)
  have hcdup : Honours (sessionContract fixed) (fun _ => Idle) cmdCdup s := by
    have hreply : Every (fun o => ShellWithin [] o ∧ KeepsUser o)
        (command (sendReply (.line 250 "CDUP command successful."))) :=
      ⟨⟨trivial, trivial⟩, fun _ => trivial⟩
    exact honours_keepsUser hs ⟨⟨fun x _ _ => Part.Same.refl x _, fun _ => rfl⟩, fun _ => hreply⟩
  have hcommand := honours_command (honours_shellCmd cfg cmd pszCmdArg hs hasks hpret)
  cases cmd with
  | cwd => exact hcwd
  | xcwd => exact hcwd
  | cdup => exact hcdup
  | xcup => exact hcdup
  | _ => exact hcommand

/-- **A line** leads from an idle entry to an idle entry, whatever a running transfer does beside
it. -/
theorem line_honours (cfg : Config) (nCmd : Option Cmd) (pszCmdArg : Option Text) (hs : Idle s)
    (hapart : Apart fixed s.client nCmd pszCmdArg) :
    Honours (sessionContract fixed) (fun _ => Idle) (dispatch cfg nCmd pszCmdArg) s := by
  have hret : ∀ (next : Next) t, Idle t →
      Honours (sessionContract fixed) (fun _ => Idle) (.ret next) t :=
    fun next t ht v ho => ht.others ho
  have hreply : ∀ r t, Idle t →
      Honours (sessionContract fixed) (fun _ => Idle) (command (sendReply r)) t :=
    fun r t ht => honours_command (honours_sendReply r ht)
  cases nCmd with
  | none => exact (hreply _ s hs).bind fun _ t ht => hret _ t ht
  | some cmd =>
      have hgate : cmd ≠ .quit → cmd ≠ .user → cmd ≠ .pass →
          Honours (sessionContract fixed) (fun _ => Idle) (dispatch cfg (some cmd) pszCmdArg) s := by
        intro hquit huser hpass
        have hshape : dispatch cfg (some cmd) pszCmdArg = (do
            let c ← command client
            if c.bIsLogged then do
              shellLogged cfg cmd pszCmdArg
              return .continue
            else do
              command (sendReply (.line 530 "Please login with USER and PASS."))
              return .continue) := by
          cases cmd <;> first | rfl | contradiction
        rw [hshape]
        refine Honours.call fun t ho => ⟨trivial, fun c t' hread => ?_⟩
        obtain ⟨rfl, rfl⟩ := hread
        have ht := hs.others ho
        show Honours _ _ (if _ then _ else _) _
        split_ifs
        · have hlogged : Honours (sessionContract fixed) (fun _ => Idle)
              (shellLogged cfg cmd pszCmdArg) t' := by
            refine honours_shellLogged cfg cmd pszCmdArg ht (fun hasks => ?_)
              fun hf hpret thread halive => ?_
            · have hwait := hapart.asks (ho.asksTransfer.mp hasks)
              have hnone := (hs.alone hwait).alone
              rw [ho.eq hnone]
              exact hnone
            · have hlive := ho.alive halive
              obtain hwait | hlist := hapart.pret hf (congrArg some hpret)
              · exact absurd hlive (by simp [(hs.alone hwait).alone])
              · exact hs.thread hlive hlist
          exact hlogged.bind fun _ v hv => hret _ v hv
        · exact (hreply _ _ ht).bind fun _ v hv => hret _ v hv
      cases cmd with
      | quit => exact (hreply _ s hs).bind fun _ t ht => hret _ t ht
      | user =>
          have hp : Every (fun o => ShellWithin [.rename] o ∧
              (fixed → s.alive = some .store → KeepsUser o)) (cmdUser pszCmdArg) := by
            refine (within_cmdUser pszCmdArg).mono fun o ho => ⟨ho, fun hf halive => ?_⟩
            exact absurd (hs.busy _ halive).1 (hapart.user hf rfl)
          exact (honours_login hp hs).bind fun _ t ht => hret _ t ht
      | pass =>
          refine honours_keepsUser hs (every_cmdPass (fun o ho => ⟨ho, trivial⟩) ⟨?_, fun c => rfl⟩
            ⟨?_, fun c => ?_⟩ cfg pszCmdArg)
          · exact fun x _ _ => Part.Same.refl x _
          · exact fun x _ _ => Part.Same.refl x _
          · rw [Client.ids, Client.logIn, Client.ids]
            cases c.pUser <;> rfl
      | _ => exact hgate (by simp) (by simp) (by simp)

end ClusterFtpd
