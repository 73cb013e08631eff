import ClusterFtpd.Calls
import ClusterFtpd.Lib.Outputs
import ClusterFtpd.Lib.Values
import ClusterFtpd.Retrieve

/-!
# What a command is answered

What a line says: its replies and its noted calls, in their order.  A line is answered once if it
ends with a last reply, or with the start of the thread that sends it, and has sent preliminary
replies only before.  `Irregular` lists the lines that are not.  `Concludes` is said of a line that
is answered by its command itself, with a final reply behind replies of code 1xx.

Main result:

* `answered_once_iff`: a line is answered once, unless it is one of these.
-/

namespace ClusterFtpd

open Interaction MachineInt

/-! ### Replies and calls -/

/-- A reply or a noted call. -/
inductive Said where
  | reply (r : Reply)
  | call (c : Call)

/-- What an operation of a command says. -/
def saysCommand : (o : CommandOp) → o.Res → Option Said
  | .sendReply r, _ => some (.reply r)
  | .sys o, r => (noteSys o r).map .call
  | .redis _, _ => none
  | .client, _ => none
  | .modify _, _ => none

/-- What an operation of a session says. -/
def saysShell : (o : ShellOp) → o.Res → Option Said
  | .command o, r => saysCommand o r
  | .login _, _ => none

/-- What a line says. -/
def said {α : Type} (env : Env) (p : ShellProg α) (w : World) : List Said :=
  trace (serveShell env) saysShell p w

/-- The reply is the last one to its command: it is none of 1xx, nor the first line of a status,
which the thread goes on with.  The lines of `FEAT` are one reply, and so is the empty line that a
transfer without a data connection ends with. -/
def Reply.isLast : Reply → Bool
  | .line code _ => 200 ≤ code
  | .multiline code _ => code = 211
  | .empty => true

/-- A line of code 1xx: another reply follows. -/
def Reply.isPreliminary : Reply → Bool
  | .line code _ => 100 ≤ code && code < 200
  | .multiline _ _ => false
  | .empty => false

/-- A whole reply with a code from 200 to 599.  One of several lines ends with a line that begins
with its code and a blank. -/
def Reply.isFinal : Reply → Bool
  | .line code _ => 200 ≤ code && code ≤ 599
  | .multiline code text =>
      200 ≤ code && code ≤ 599 && decide (("\r\n" ++ toString code ++ " ").toList <:+: text.toList)
  | .empty => false

/-- With this the command has been answered, or the thread runs that answers it. -/
def Said.ends : Said → Bool
  | .reply r => r.isLast
  | .call ⟨.pthread_create _, ok⟩ => ok
  | .call _ => false

/-- Nothing but the thread may be cancelled. -/
def Cancels (xs : List Said) : Prop := xs = [] ∨ xs = [.call ⟨.pthread_cancel, ()⟩]

/-- Answered once, and nothing is said behind the answer. -/
def Once (xs : List Said) : Prop :=
  ∃ pre x post, xs = pre ++ x :: post ∧ x.ends = true ∧ (∀ y ∈ pre, y.ends = false) ∧ Cancels post

/-- The command is still to be answered after this: a preliminary reply, or another call. -/
def Said.goesOn : Said → Bool
  | .reply r => r.isPreliminary
  | .call c => !(Said.call c).ends

/-- A last reply, whole and with a code from 200 to 599. -/
abbrev Last (r : Reply) : Prop := (r.isLast && r.isFinal) = true

/-- Answered once, by a reply of the command itself, and behind preliminary replies only. -/
def Concludes (xs : List Said) : Prop :=
  ∃ pre r post, xs = pre ++ .reply r :: post ∧ Last r ∧ (∀ y ∈ pre, y.goesOn = true) ∧ Cancels post

/-- The transfers. -/
def Cmd.uploads : Cmd → Bool
  | .stor | .appe | .stou => true
  | _ => false

def Cmd.lists : Cmd → Bool
  | .list | .nlst | .stat => true
  | _ => false

/-- The lines that are not answered once. -/
inductive Irregular (cfg : Config) : Option Cmd → List Said → Prop where
  -- too many wrong passwords: the connection is closed without a reply
  | kicked : Irregular cfg (some .pass) []
  -- logged in already, the account is full, or the password is missing
  | refusedTwice {r : Reply} : r.isLast = true → Irregular cfg (some .pass)
      [.reply r, .reply (.line 530 "Login or password incorrect!")]
  | aborted {xs : List Said} : Cancels xs → Irregular cfg (some .abor)
      (xs ++ [.reply (.line 426 "Previous command has been finished abnormally."),
        .reply (.line 226 "ABOR command successful.")])
  -- `PASV` after `PRET STOR` goes on without a slave
  | noSlave {xs : List Said} : cfg.Slaves = [] → ¬ Cancels xs → Irregular cfg (some .pasv)
      (.reply (.line 550 "Can't store file.") :: xs)
  | relayed {slave : SlaveInfo} {p : PasvParams} {n m : ℕ} {r : Reply} : r.isLast = false →
      Irregular cfg (some .pasv) [.call ⟨.initPasvDataConnection slave p n m, .reply r⟩, .reply r]
  -- a socket call of `PASV` has failed, or there is no path to store to
  | silent {nCmd : Cmd} {xs : List Said} : nCmd = .pasv ∨ nCmd.uploads = true → Cancels xs →
      Irregular cfg (some nCmd) xs
  | notStarted {nCmd : Cmd} {thread : TransferThread} {pre post : List Said} :
      (∀ x ∈ pre, x.ends = false) → Cancels post →
      nCmd.lists = true ∨ nCmd = .retr ∨ nCmd.uploads = true →
      Irregular cfg (some nCmd) (pre ++ .call ⟨.pthread_create thread, false⟩ :: post)
  -- the slave has refused the connection, or has said nothing, and the thread is started
  | refused {nCmd : Cmd} {slave : SlaveInfo} {p : PasvParams} {r : Reply} {pre post : List Said} :
      r.isLast = true → ¬ Cancels post → nCmd = .retr ∨ nCmd.uploads = true →
      Irregular cfg (some nCmd)
        (pre ++ .call ⟨.openPasvDataConnection slave p, .reply r⟩ :: .reply r :: post)

/-! ### Once -/

variable {xs : List Said} {x : Said} {cfg : Config} {nCmd : Option Cmd}

theorem cancels_nil : Cancels [] := .inl rfl

theorem Cancels.eq (h : Cancels xs) (hx : x ∈ xs) : x = .call ⟨.pthread_cancel, ()⟩ := by
  obtain rfl | rfl := h
  · exact absurd hx List.not_mem_nil
  · exact List.mem_singleton.mp hx

theorem Cancels.ends (h : Cancels xs) : ∀ x ∈ xs, x.ends = false := by
  intro x hx
  rw [h.eq hx]
  rfl

theorem once_single (h : x.ends = true) : Once [x] := ⟨[], x, [], rfl, h, by simp, cancels_nil⟩

theorem Once.cons (h : Once xs) (hx : x.ends = false) : Once (x :: xs) := by
  obtain ⟨pre, y, post, rfl, hy, hpre, hpost⟩ := h
  refine ⟨x :: pre, y, post, rfl, hy, ?_, hpost⟩
  intro z hz
  obtain rfl | hz := List.mem_cons.mp hz
  · exact hx
  · exact hpre z hz

theorem Once.after {pre : List Said} (h : Once xs) (hpre : ∀ x ∈ pre, x.ends = false) :
    Once (pre ++ xs) := by
  induction pre with
  | nil => exact h
  | cons x pre ih =>
      exact (ih fun y hy => hpre y (List.mem_cons_of_mem x hy)).cons (hpre x List.mem_cons_self)

theorem Last.isLast {r : Reply} (h : Last r) : r.isLast = true := ((Bool.and_eq_true _ _).mp h).1

theorem Last.isFinal {r : Reply} (h : Last r) : r.isFinal = true := ((Bool.and_eq_true _ _).mp h).2

/-- What goes on does not answer the command. -/
theorem Said.ends_of_goesOn (h : x.goesOn = true) : x.ends = false := by
  cases x with
  | call c => exact (Bool.not_eq_true' _).mp h
  | reply r =>
      cases r with
      | line code text =>
          have hcode : (decide (100 ≤ code) && decide (code < 200)) = true := h
          rw [Bool.and_eq_true, decide_eq_true_eq, decide_eq_true_eq] at hcode
          exact decide_eq_false (by omega)
      | multiline code text => cases h
      | empty => cases h

theorem ends_of_goesOn (h : ∀ x ∈ xs, x.goesOn = true) : ∀ x ∈ xs, x.ends = false :=
  fun x hx => Said.ends_of_goesOn (h x hx)

theorem Cancels.goesOn (h : Cancels xs) : ∀ x ∈ xs, x.goesOn = true := by
  intro x hx
  rw [h.eq hx]
  rfl

theorem concludes_single {r : Reply} (h : Last r) : Concludes [.reply r] :=
  ⟨[], r, [], rfl, h, by simp, cancels_nil⟩

theorem Concludes.after {pre : List Said} (h : Concludes xs) (hpre : ∀ x ∈ pre, x.goesOn = true) :
    Concludes (pre ++ xs) := by
  obtain ⟨pre', r, post, rfl, hr, hpre', hpost⟩ := h
  refine ⟨pre ++ pre', r, post, by rw [List.append_assoc], hr, ?_, hpost⟩
  intro y hy
  obtain hy | hy := List.mem_append.mp hy
  · exact hpre y hy
  · exact hpre' y hy

theorem Concludes.once (h : Concludes xs) : Once xs := by
  obtain ⟨pre, r, post, rfl, hr, hpre, hpost⟩ := h
  exact ⟨pre, .reply r, post, rfl, hr.isLast, ends_of_goesOn hpre, hpost⟩

/-- Nothing answers the command. -/
theorem not_once_of_open (h : ∀ x ∈ xs, x.ends = false) : ¬ Once xs := by
  intro honce
  obtain ⟨pre, y, post, rfl, hy, -, -⟩ := honce
  rw [h y (by simp)] at hy
  exact absurd hy (by decide)

/-- Something is said behind the answer. -/
theorem not_once_of_ended (pre : List Said) {post : List Said} (hx : x.ends = true)
    (hpost : ¬ Cancels post) : ¬ Once (pre ++ x :: post) := by
  intro honce
  obtain ⟨pre', y, post', heq, -, hpre', hpost'⟩ := honce
  obtain ⟨mid, hmid, htail⟩ | ⟨mid, hmid, htail⟩ := List.append_eq_append_iff.mp heq
  · cases mid with
    | nil =>
        rw [List.nil_append, List.cons.injEq] at htail
        rw [htail.2] at hpost
        exact hpost hpost'
    | cons z mid =>
        rw [List.cons_append, List.cons.injEq] at htail
        have hfalse := hpre' x (by rw [hmid, htail.1]; simp)
        rw [hfalse] at hx
        exact absurd hx (by decide)
  · cases mid with
    | nil =>
        rw [List.nil_append, List.cons.injEq] at htail
        rw [← htail.2] at hpost
        exact hpost hpost'
    | cons z mid =>
        rw [List.cons_append, List.cons.injEq] at htail
        have hfalse := hpost'.ends x (by rw [htail.2]; simp)
        rw [hfalse] at hx
        exact absurd hx (by decide)

/-- A reply is no cancellation. -/
theorem not_cancels {r : Reply} (h : .reply r ∈ xs) : ¬ Cancels xs := by
  intro hcancels
  exact absurd (hcancels.eq h) (by simp)

/-- These lines are not answered once. -/
theorem Irregular.not_once (h : Irregular cfg nCmd xs) : ¬ Once xs := by
  cases h with
  | kicked => exact not_once_of_open (by simp)
  | @refusedTwice r hr =>
      exact not_once_of_ended [] (x := .reply r) hr
        (not_cancels (r := .line 530 "Login or password incorrect!") (by simp))
  | @aborted pre hcancels =>
      exact not_once_of_ended pre
        (x := .reply (.line 426 "Previous command has been finished abnormally.")) rfl
        (not_cancels (r := .line 226 "ABOR command successful.") (by simp))
  | noSlave _ hne =>
      exact not_once_of_ended [] (x := .reply (.line 550 "Can't store file.")) rfl hne
  | relayed hr =>
      refine not_once_of_open fun x hx => ?_
      simp only [List.mem_cons, List.not_mem_nil, or_false] at hx
      obtain rfl | rfl := hx
      · rfl
      · exact hr
  | silent _ hcancels => exact not_once_of_open hcancels.ends
  | notStarted hpre hpost _ =>
      refine not_once_of_open fun x hx => ?_
      obtain hx | hx := List.mem_append.mp hx
      · exact hpre x hx
      · obtain rfl | hx := List.mem_cons.mp hx
        · rfl
        · exact hpost.ends x hx
  | @refused cmd slave p r pre post hr hpost _ =>
      have hsplit : pre ++ Said.call ⟨.openPasvDataConnection slave p, .reply r⟩ ::
          .reply r :: post = (pre ++ [.call ⟨.openPasvDataConnection slave p, .reply r⟩]) ++
            .reply r :: post := by simp
      rw [hsplit]
      exact not_once_of_ended _ (x := .reply r) hr hpost

/-- What a command says, whatever it is answered. -/
abbrev Says {α : Type} (p : CommandProg α) (Q : α → List Said → Prop) : Prop :=
  Yields saysCommand p Q

/-! ### Programs that say nothing -/

/-- An operation that neither replies nor is noted. -/
def Mute : CommandOp → Prop
  | .sendReply _ => False
  | .sys o => o.part = none
  | .redis _ | .client | .modify _ => True

theorem mute_says (o : CommandOp) (r : o.Res) (ho : Mute o) : saysCommand o r = none := by
  cases o with
  | sendReply r => exact ho.elim
  | sys o =>
      have hpart : o.part = none := ho
      show (noteSys o r).map Said.call = none
      rw [noteSys, hpart]
      rfl
  | _ => rfl

section Mute

variable {α β : Type} {Q : β → List Said → Prop}

/-- The rule for a part that says nothing. -/
theorem says_after {p : CommandProg α} {f : α → CommandProg β} (hp : Every Mute p)
    (hf : ∀ a, Says (f a) Q) : Says (p >>= f) Q :=
  Yields.after hp mute_says hf

/-- A part that says nothing. -/
theorem says_nil {p : CommandProg α} (hp : Every Mute p) : Says p fun _ xs => xs = [] :=
  hp.yields_nil mute_says

theorem says_if {b : Prop} [Decidable b] {p q : CommandProg β} (hp : Says p Q)
    (hq : Says q Q) : Says (if b then p else q) Q := by
  by_cases hb : b
  · rw [if_pos hb]
    exact hp
  · rw [if_neg hb]
    exact hq

theorem mute_redis (p : RedisProg α) : Every Mute (redis p) :=
  every_redis ((every_true p).mono fun _ _ => trivial)

theorem mute_sys {o : SysOp} (ho : o.part = none) : Every Mute (sys o) := ⟨ho, fun _ => trivial⟩

theorem mute_client : Every Mute client := ⟨trivial, fun _ => trivial⟩

theorem mute_modify (f : CommandState → CommandState) : Every Mute (modify f) :=
  ⟨trivial, fun _ => trivial⟩

theorem mute_statPath (pszPath : Option Text) : Every Mute (statPath pszPath) := by
  cases pszPath with
  | none => trivial
  | some path => exact (mute_redis _).bind fun _ => trivial

theorem mute_closeData (DataSock : Option ℕ) : Every Mute (closeData DataSock) := by
  cases DataSock with
  | none => trivial
  | some fd => exact mute_sys rfl

theorem mute_getRandomSlave (cfg : Config) : Every Mute (getRandomSlave cfg) := by
  unfold getRandomSlave
  rw [every_sys_bind]
  refine ⟨rfl, fun r => ?_⟩
  cases cfg.Slaves[r % cfg.Slaves.length % 65536]? <;> trivial

theorem mute_randomPort (cfg : Config) : Every Mute (randomPort cfg) := by
  refine ⟨rfl, fun r => ?_⟩
  show Every _ (if _ then _ else _)
  rw [every_ite]
  exact ⟨fun _ => trivial, fun _ => trivial⟩

theorem mute_bindLoop (cfg : Config) (fd usFirstTry fuel usTriedPort : ℕ) :
    Every Mute (bindLoop cfg fd usFirstTry fuel usTriedPort) := by
  induction fuel generalizing usTriedPort with
  | zero => trivial
  | succ fuel ih =>
      refine ⟨rfl, fun bound => ?_⟩
      show Every _ (if _ then _ else _)
      rw [every_ite]
      refine ⟨fun _ => trivial, fun _ => ?_⟩
      show Every _ (if _ then _ else _)
      rw [every_ite]
      exact ⟨fun _ => trivial, fun _ => ih _⟩

theorem mute_connectData (cfg : Config) (fd : ℕ) : Every Mute (connectData cfg fd) := by
  refine ⟨trivial, fun c => ?_⟩
  refine (mute_randomPort cfg).bind fun port => ?_
  rw [every_sys_bind]
  refine ⟨rfl, fun _ => ?_⟩
  rw [every_sys_bind]
  refine ⟨rfl, fun bound => ?_⟩
  rw [every_ite]
  exact ⟨fun _ => mute_sys rfl, fun _ => trivial⟩

end Mute

/-! ### The data connection -/

/-- `ResetDataConnection` may cancel the thread. -/
theorem says_reset (bSyncWait : Bool) :
    Says (resetDataConnection bSyncWait) fun _ xs => Cancels xs := by
  have hcancel : ∀ b : Prop, [Decidable b] →
      Says (onlyIf b (sys .pthread_cancel)) fun _ xs => Cancels xs := by
    intro b _
    unfold onlyIf
    exact says_if (fun _ => .inr rfl) cancels_nil
  unfold resetDataConnection
  refine says_after mute_client fun c => ?_
  refine says_after (mute_closeData c.DataSock) fun _ => ?_
  refine (hcancel _).bind fun _ xs hxs => ?_
  refine (says_nil (mute_modify _)).mono fun _ ys hys => ?_
  rw [hys, List.append_nil]
  exact hxs

theorem says_onlyIf_reset {b : Prop} [Decidable b] :
    Says (onlyIf b (resetDataConnection true)) fun _ xs => Cancels xs := by
  unfold onlyIf
  exact says_if (says_reset true) cancels_nil

/-- The thread is created, or not. -/
theorem says_startTransfer (thread : TransferThread) :
    Says (startTransfer thread) fun ok xs =>
      ok = true ∧ xs = [.call ⟨.pthread_create thread, true⟩] ∨
      ok = false ∧ ∃ post, xs = .call ⟨.pthread_create thread, false⟩ :: post ∧ Cancels post := by
  intro c _ ok
  cases ok with
  | true => exact .inl ⟨rfl, rfl⟩
  | false =>
      intro _
      refine (says_reset true).bind fun _ xs hxs => ?_
      exact .inr ⟨rfl, xs, by simp; rfl, hxs⟩

/-- What `OpenPasvDataConnection` says. -/
theorem says_openSlaveConnection :
    Says openSlaveConnection fun opened xs =>
      opened = true ∧ (xs = [] ∨ ∃ slave p r,
        xs = [.call ⟨.openPasvDataConnection slave p, .reply r⟩, .reply r]) ∨
      opened = false ∧ Concludes xs := by
  intro c
  show Says (if c.eDataConnection = .pasv then _ else _) _
  refine says_if ?_ (.inl ⟨rfl, .inl rfl⟩)
  intro answer
  cases answer with
  | reply r => exact fun _ => .inl ⟨rfl, .inr ⟨_, _, r, rfl⟩⟩
  | exception =>
      intro _
      refine .inr ⟨rfl, (concludes_single rfl).after ?_⟩
      exact fun x hx => by rw [List.mem_singleton.mp hx]; rfl
  | noReturn => trivial

theorem says_activeSocket :
    Says activeSocket fun _ xs => ∀ x ∈ xs, x.goesOn = true := by
  intro _ DataSock
  refine (says_nil (mute_modify _)).mono fun _ xs hxs => ?_
  rw [hxs]
  intro x hx
  rw [show x = .reply (.line 150 "Opening data channel.") from List.mem_singleton.mp hx]
  rfl

theorem says_acceptData (fd : ℕ) : Says (acceptData fd) fun _ xs => ∀ x ∈ xs, x.goesOn = true := by
  have hno : ∀ x ∈ ([] : List Said), x.goesOn = true := by simp
  unfold acceptData
  refine says_after (mute_sys rfl) fun ready => ?_
  refine says_if ?_ hno
  refine says_after (mute_sys rfl) fun sTmpWs => ?_
  refine says_after (mute_sys rfl) fun _ => ?_
  refine says_after (mute_modify _) fun _ => ?_
  refine says_if ?_ hno
  intro _ x hx
  rw [show x = .reply (.line 150 "Connection accepted.") from List.mem_singleton.mp hx]
  rfl

theorem says_tryDataConnection (cfg : Config) :
    Says (tryDataConnection cfg) fun _ xs => ∀ x ∈ xs, x.goesOn = true := by
  have hno : ∀ x ∈ ([] : List Said), x.goesOn = true := by simp
  unfold tryDataConnection
  refine says_after mute_client fun c => ?_
  cases c.DataSock with
  | none => exact hno
  | some fd =>
      show Says (sys (.setsockopt fd) >>= _) _
      refine says_after (mute_sys rfl) fun ok => ?_
      refine says_if (says_if (says_acceptData fd) ?_) hno
      refine (says_nil (mute_connectData cfg fd)).mono fun _ xs hxs => ?_
      rw [hxs]
      exact hno

/-- A connection is opened behind preliminary replies, or refused with a last one. -/
theorem says_openDataConnection (cfg : Config) :
    Says (openDataConnection cfg) fun opened xs =>
      opened = true ∧ (∀ x ∈ xs, x.goesOn = true) ∨ opened = false ∧ Concludes xs := by
  have hsocket : ∀ b : Prop, [Decidable b] →
      Says (onlyIf b activeSocket) fun _ xs => ∀ x ∈ xs, x.goesOn = true := by
    intro b _
    unfold onlyIf
    exact says_if says_activeSocket (fun x hx => absurd hx List.not_mem_nil)
  unfold openDataConnection
  refine says_after mute_client fun c => ?_
  refine says_if ?_ ?_
  · intro _
    exact .inr ⟨rfl, concludes_single rfl⟩
  · refine (hsocket _).bind fun _ xs hxs => ?_
    refine (says_tryDataConnection cfg).bind fun opened ys hys => ?_
    refine says_if ?_ ?_
    · refine .inl ⟨rfl, fun x hx => ?_⟩
      rw [List.append_nil, List.mem_append] at hx
      exact hx.elim (hxs x) (hys x)
    · intro _
      refine (says_reset true).bind fun _ zs hzs => ?_
      have hend : Concludes (.reply (.line 425 "Can't open data connection.") :: zs) :=
        ⟨[], _, zs, rfl, rfl, by simp, hzs⟩
      refine .inr ⟨rfl, ?_⟩
      show Concludes (xs ++ (ys ++ .reply (.line 425 "Can't open data connection.") :: (zs ++ [])))
      rw [List.append_nil]
      exact (hend.after hys).after hxs

/-! ### The commands that are answered at once -/

theorem concludes_reply {r : Reply} (h : Last r) : Says (sendReply r) fun _ xs => Concludes xs :=
  fun _ => concludes_single h

theorem says_withPrivilege {ucPriv : ℕ} {body : CommandProg Unit} {Q : Unit → List Said → Prop}
    (hbody : Says body Q) (hreply : Q () [.reply (.line 550 "Permission denied.")]) :
    Says (withPrivilege ucPriv body) Q := by
  unfold withPrivilege
  exact says_after mute_client fun c => says_if hbody fun _ => hreply

theorem says_withArg {pszCmdArg : Option Text} {refusal : String} {body : Text → CommandProg Unit}
    {Q : Unit → List Said → Prop} (hbody : ∀ arg, Says (body arg) Q)
    (hreply : Q () [.reply (.line 501 refusal)]) : Says (withArg pszCmdArg refusal body) Q := by
  cases pszCmdArg with
  | none => exact fun _ => hreply
  | some arg => exact hbody arg

theorem concludes_cmdStru (arg : Text) : Says (cmdStru arg) fun _ xs => Concludes xs :=
  says_if (concludes_reply rfl) (concludes_reply rfl)

theorem concludes_cmdMode (arg : Text) : Says (cmdMode arg) fun _ xs => Concludes xs := by
  refine says_if ?_ (says_if (concludes_reply rfl) (concludes_reply rfl))
  exact says_after (mute_modify _) fun _ => concludes_reply rfl

theorem concludes_cmdType (arg : Text) : Says (cmdType arg) fun _ xs => Concludes xs := by
  refine says_if ?_ (says_if ?_ (concludes_reply rfl))
  · exact says_after (mute_modify _) fun _ => concludes_reply rfl
  · exact says_after (mute_modify _) fun _ => concludes_reply rfl

theorem concludes_cmdRest (pszCmdArg : Option Text) :
    Says (cmdRest pszCmdArg) fun _ xs => Concludes xs := by
  unfold cmdRest
  refine says_after mute_client fun c => ?_
  cases (if c.eStatus = .waiting then pszCmdArg else none) with
  | none => exact concludes_reply rfl
  | some arg =>
      show Says (modifyTransfer _ >>= _) _
      exact says_after (mute_modify _) fun _ => concludes_reply rfl

theorem concludes_cmdPort (cfg : Config) (pszCmdArg : Option Text) :
    Says (cmdPort cfg pszCmdArg) fun _ xs => Concludes xs := by
  unfold cmdPort
  refine says_after mute_client fun c => ?_
  cases (if c.eStatus = .waiting then pszCmdArg.bind scanPort else none) with
  | none => exact concludes_reply rfl
  | some port =>
      show Says (onlyIf _ (resetDataConnection true) >>= _) _
      refine says_onlyIf_reset.bind fun _ xs hxs => ?_
      refine says_if ?_ ?_
      · refine says_after (mute_modify _) fun _ => ?_
        exact fun _ => (concludes_single rfl).after hxs.goesOn
      · exact fun _ => (concludes_single rfl).after hxs.goesOn

theorem concludes_cmdPret (arg : Text) : Says (cmdPret arg) fun _ xs => Concludes xs := by
  unfold cmdPret
  show Says (if _ then _ else _) _
  refine says_if trivial (says_after (mute_modify _) fun _ => ?_)
  show Says (if _ then _ else _) _
  refine says_if (says_if trivial ?_) (concludes_reply rfl)
  refine says_after mute_client fun c => says_after (mute_statPath _) fun found => ?_
  cases found with
  | none => exact concludes_reply rfl
  | some a =>
      show Says (if _ then _ else _) _
      refine says_if ?_ (concludes_reply rfl)
      refine says_after (mute_redis _) fun fid => says_after (mute_modify _) fun _ => ?_
      exact says_if (concludes_reply rfl) (concludes_reply rfl)

theorem concludes_cmdMdtm (arg : Text) : Says (cmdMdtm arg) fun _ xs => Concludes xs := by
  unfold cmdMdtm
  refine says_after mute_client fun c => says_after (mute_statPath _) fun found => ?_
  cases found with
  | none => exact concludes_reply rfl
  | some a =>
      show Says (sys (.gmtime a.2.st_mtime) >>= _) _
      refine says_after (mute_sys rfl) fun t => ?_
      cases t <;> exact concludes_reply rfl

theorem concludes_cmdSize (arg : Text) : Says (cmdSize arg) fun _ xs => Concludes xs := by
  unfold cmdSize
  refine says_after mute_client fun c => says_after (mute_statPath _) fun found => ?_
  cases found with
  | none => exact concludes_reply rfl
  | some a =>
      show Says (if _ then _ else _) _
      exact says_if (concludes_reply rfl) (concludes_reply rfl)

/-! ### The commands on the file system -/

/-- A reply that is made from the database. -/
theorem concludes_redis {α : Type} {p : RedisProg α} {S : α → Prop} {f : α → CommandProg Unit}
    (hp : Gives S p) (hf : ∀ a, S a → Says (f a) fun _ xs => Concludes xs) :
    Says (redis p >>= f) fun _ xs => Concludes xs := by
  induction p with
  | ret a => exact hf a hp
  | stop w => trivial
  | call o k ih => exact fun r => ih r (hp r)
  | poll o again k ih => exact fun r _ => ih r (hp r)

theorem last_cmdDele (pszPath : Option Text) : Gives Last (cmdDele pszPath) := by
  cases pszPath with
  | none => rfl
  | some path =>
      refine Gives.after (p := stat path) fun st => ?_
      cases st with
      | none => rfl
      | some st =>
          refine gives_if ?_ rfl
          exact Gives.after (p := remove path) fun r => gives_if rfl rfl

theorem last_cmdRnfr (pszPath : Option Text) (szRenameFromPath : Text) :
    Gives (fun a => Last a.1) (cmdRnfr pszPath szRenameFromPath) := by
  cases pszPath with
  | none => rfl
  | some path => exact Gives.after (p := stat path) fun st => gives_if rfl rfl

theorem last_cmdRnto (pszPath : Option Text) (szRenameFromPath : Text) :
    Gives Last (cmdRnto pszPath szRenameFromPath) := by
  cases pszPath with
  | none => rfl
  | some path => exact Gives.after (p := rename szRenameFromPath path) fun r => gives_if rfl rfl

theorem last_cmdMkd (now : ℤ) (pszPath : Option Text) (uid gid : ℕ) :
    Gives Last (cmdMkd now pszPath uid gid) := by
  cases pszPath with
  | none => rfl
  | some path =>
      refine Gives.after (p := stat path) fun st => gives_if rfl ?_
      exact Gives.after (p := mkdir now path uid gid) fun r => gives_if rfl rfl

theorem last_cmdRmd (pszPath : Option Text) : Gives Last (cmdRmd pszPath) := by
  cases pszPath with
  | none => rfl
  | some path =>
      refine Gives.after (p := stat path) fun st => gives_if ?_ rfl
      exact Gives.after (p := rmdir path) fun r => gives_if rfl rfl

theorem concludes_shellDele (arg : Text) : Says (shellDele arg) fun _ xs => Concludes xs := by
  unfold shellDele
  refine says_after mute_client fun c => ?_
  exact concludes_redis (last_cmdDele _) fun r hr => concludes_reply hr

theorem concludes_shellRnfr (arg : Text) : Says (shellRnfr arg) fun _ xs => Concludes xs := by
  unfold shellRnfr
  refine says_after mute_client fun c => concludes_redis (last_cmdRnfr _ _) fun a ha => ?_
  show Says (modify _ >>= _) _
  exact says_after (mute_modify _) fun _ => concludes_reply ha

theorem concludes_shellRnto (arg : Text) : Says (shellRnto arg) fun _ xs => Concludes xs := by
  unfold shellRnto
  refine says_after mute_client fun c => concludes_redis (last_cmdRnto _ _) fun r hr => ?_
  exact fun _ _ => concludes_single hr

theorem concludes_shellMkd (arg : Text) : Says (shellMkd arg) fun _ xs => Concludes xs := by
  unfold shellMkd
  refine says_after mute_client fun c => says_after (mute_sys rfl) fun now => ?_
  cases c.pUser with
  | none => exact concludes_reply rfl
  | some u =>
      show Says (redis _ >>= _) _
      exact concludes_redis (last_cmdMkd _ _ _ _) fun r hr => concludes_reply hr

theorem concludes_shellRmd (arg : Text) : Says (shellRmd arg) fun _ xs => Concludes xs := by
  unfold shellRmd
  refine says_after mute_client fun c => ?_
  exact concludes_redis (last_cmdRmd _) fun r hr => concludes_reply hr

/-! ### The commands of a transfer -/

/-- What a line of the command says. -/
abbrev Turns (cfg : Config) (nCmd : Cmd) {α : Type} (p : CommandProg α) : Prop :=
  Says p fun _ xs => Once xs ∨ Irregular cfg (some nCmd) xs

variable {α : Type} {nCmd : Cmd}

theorem turns_of_concludes {p : CommandProg α} (h : Says p fun _ xs => Concludes xs) :
    Turns cfg nCmd p :=
  h.mono fun _ _ hxs => .inl hxs.once

/-- The thread is started behind preliminary replies. -/
theorem start_turn {thread : TransferThread} {ok : Bool} {pre ys : List Said}
    (hpre : ∀ x ∈ pre, x.ends = false)
    (hys : ok = true ∧ ys = [.call ⟨.pthread_create thread, true⟩] ∨
      ok = false ∧ ∃ post, ys = .call ⟨.pthread_create thread, false⟩ :: post ∧ Cancels post)
    (hcmd : nCmd.lists = true ∨ nCmd = .retr ∨ nCmd.uploads = true) :
    Once (pre ++ ys) ∨ Irregular cfg (some nCmd) (pre ++ ys) := by
  obtain ⟨-, rfl⟩ | ⟨-, post, rfl, hpost⟩ := hys
  · exact .inl ((once_single rfl).after hpre)
  · exact .inr (.notStarted hpre hpost hcmd)

theorem turns_cmdList (hcmd : nCmd.lists = true) (pszCmdArg : Option Text) :
    Turns cfg nCmd (cmdList cfg nCmd pszCmdArg) := by
  have hopen : Says (openListing cfg nCmd) fun opened xs =>
      opened = true ∧ (∀ x ∈ xs, x.ends = false) ∨ opened = false ∧ Concludes xs := by
    unfold openListing
    refine says_if ?_ ?_
    · intro _ _
      refine .inl ⟨rfl, fun x hx => ?_⟩
      rw [show x = .reply (.multiline 213 "Status follows:") from List.mem_singleton.mp hx]
      rfl
    · refine (says_openDataConnection cfg).bind fun opened xs hxs => ?_
      cases opened with
      | true =>
          refine says_after (mute_modify _) fun _ => ?_
          show _ ∨ _
          rw [List.append_nil]
          exact hxs.imp_left fun h => ⟨h.1, ends_of_goesOn h.2⟩
      | false =>
          show _ ∨ _
          rw [List.append_nil]
          exact hxs.imp_left fun h => ⟨h.1, ends_of_goesOn h.2⟩
  unfold cmdList
  refine says_after mute_client fun c => ?_
  refine says_if (turns_of_concludes (concludes_reply rfl)) ?_
  refine says_after (mute_modify _) fun _ => says_after (mute_statPath _) fun found => ?_
  cases found with
  | none => exact turns_of_concludes (concludes_reply rfl)
  | some a =>
      show Says (modifyTransfer _ >>= _) _
      refine says_after (mute_modify _) fun _ => hopen.bind fun opened xs hxs => ?_
      cases opened with
      | false =>
          have hend : Concludes xs := hxs.elim (fun h => absurd h.1 (by decide)) fun h => h.2
          show _ ∨ _
          rw [List.append_nil]
          exact .inl hend.once
      | true =>
          have hpre : ∀ x ∈ xs, x.ends = false :=
            hxs.elim (fun h => h.2) fun h => absurd h.1 (by decide)
          show Says (modify _ >>= _) _
          refine says_after (mute_modify _) fun _ => ?_
          refine (says_startTransfer .list).bind fun ok ys hys => ?_
          show _ ∨ _
          rw [List.append_nil]
          exact start_turn hpre hys (.inl hcmd)

/-- A transfer behind `OpenPasvDataConnection`. -/
theorem opened_turn (pre : List Said) {thread : TransferThread} {ok : Bool} {xs ys : List Said}
    (hpre : ∀ x ∈ pre, x.ends = false)
    (hxs : xs = [] ∨
      ∃ slave p r, xs = [.call ⟨.openPasvDataConnection slave p, .reply r⟩, .reply r])
    (hys : ok = true ∧ ys = [.call ⟨.pthread_create thread, true⟩] ∨
      ok = false ∧ ∃ post, ys = .call ⟨.pthread_create thread, false⟩ :: post ∧ Cancels post)
    (hcmd : nCmd = .retr ∨ nCmd.uploads = true) :
    Once (pre ++ (xs ++ ys)) ∨ Irregular cfg (some nCmd) (pre ++ (xs ++ ys)) := by
  obtain rfl | ⟨slave, p, r, rfl⟩ := hxs
  · exact start_turn hpre hys (.inr hcmd)
  · by_cases hr : r.isLast = true
    · refine .inr (.refused hr ?_ hcmd)
      intro hcancels
      obtain ⟨-, rfl⟩ | ⟨-, post, rfl, -⟩ := hys
      · exact absurd (hcancels.eq List.mem_cons_self) (by simp)
      · exact absurd (hcancels.eq List.mem_cons_self) (by simp)
    · have hpre' : ∀ x ∈ pre ++ [Said.call ⟨.openPasvDataConnection slave p, .reply r⟩, .reply r],
          x.ends = false := by
        intro x hx
        simp only [List.mem_append, List.mem_cons, List.not_mem_nil, or_false] at hx
        obtain hx | rfl | rfl := hx
        · exact hpre x hx
        · rfl
        · exact Bool.eq_false_iff.mpr hr
      have hturn : _ ∨ Irregular cfg _ _ := start_turn hpre' hys (.inr hcmd)
      rwa [List.append_assoc] at hturn

theorem turns_cmdRetr (arg : Text) : Turns cfg .retr (cmdRetr arg) := by
  unfold cmdRetr
  refine says_after mute_client fun c => says_after (mute_statPath _) fun found => ?_
  cases found with
  | none => exact turns_of_concludes (concludes_reply rfl)
  | some a =>
      show Says (if _ then _ else _) _
      refine says_if ?_ (turns_of_concludes (concludes_reply rfl))
      refine says_openSlaveConnection.bind fun opened xs hxs => ?_
      obtain ⟨rfl, hxs⟩ | ⟨rfl, honce⟩ := hxs
      · show Says (modify _ >>= _) _
        refine says_after (mute_modify _) fun _ => ?_
        refine (says_startTransfer .retrieve).bind fun ok ys hys => ?_
        have hturn : _ ∨ Irregular cfg _ _ := opened_turn [] (by simp) hxs hys (.inl rfl)
        show _ ∨ _
        rw [List.append_nil]
        exact hturn
      · show _ ∨ _
        rw [List.append_nil]
        exact .inl honce.once

/-- A path is chosen behind preliminary replies, or there is none and nothing is said. -/
theorem says_uploadPath (cmd : UploadCmd) (pszCmdArg : Option Text) :
    Says (uploadPath cmd pszCmdArg) fun path xs =>
      (∀ x ∈ xs, x.goesOn = true) ∧ (path = none → xs = []) := by
  have hnone : (∀ x ∈ ([] : List Said), x.goesOn = true) ∧
      ((none : Option Text) = none → ([] : List Said) = []) := ⟨by simp, fun _ => rfl⟩
  unfold uploadPath
  refine says_after mute_client fun c => ?_
  cases cmd with
  | stor => exact ⟨by simp, fun _ => rfl⟩
  | appe => exact ⟨by simp, fun _ => rfl⟩
  | stou =>
      show Says (sys .rand >>= _) _
      refine says_after (mute_sys rfl) fun r => ?_
      dsimp only
      cases c.buildPath (some ("file.".toList ++ (toString (r % 9999999)).toList)) with
      | none => exact hnone
      | some path =>
          show Says (redis (stat path) >>= _) _
          refine says_after (mute_redis _) fun st => says_if hnone ?_
          intro _
          refine ⟨fun x hx => ?_, fun h => absurd h (by simp)⟩
          obtain ⟨text, rfl⟩ : ∃ text, x = .reply (.line 150 text) :=
            ⟨_, List.mem_singleton.mp hx⟩
          rfl

theorem says_startStore (cmd : UploadCmd) (path : Text) :
    Says (startStore cmd path) fun ok ys =>
      ok = true ∧ ys = [.call ⟨.pthread_create .store, true⟩] ∨
      ok = false ∧ ∃ post, ys = .call ⟨.pthread_create .store, false⟩ :: post ∧ Cancels post := by
  have hoffset : ∀ b : Prop, [Decidable b] → Every Mute (onlyIf b (appendOffset path)) := by
    intro b _
    unfold onlyIf
    rw [every_ite]
    exact ⟨fun _ => (mute_redis _).bind fun _ => mute_modify _, fun _ => trivial⟩
  unfold startStore
  refine says_after (mute_modify _) fun _ => says_after (hoffset _) fun _ => ?_
  exact says_after (mute_modify _) fun _ => says_startTransfer .store

theorem turns_cmdStore (hcmd : nCmd.uploads = true) (cmd : UploadCmd) (pszCmdArg : Option Text) :
    Turns cfg nCmd (discard (cmdStore cmd pszCmdArg)) := by
  have hstore : Says (cmdStore cmd pszCmdArg) fun _ xs =>
      Once xs ∨ Irregular cfg (some nCmd) xs := by
    unfold cmdStore
    refine says_if ?_ (fun _ => .inl (once_single rfl))
    refine (says_uploadPath cmd pszCmdArg).bind fun path pre hpre => ?_
    cases path with
    | none =>
        rw [hpre.2 rfl]
        exact .inr (.silent (.inr hcmd) cancels_nil)
    | some path =>
        show Says (openSlaveConnection >>= _) _
        refine says_openSlaveConnection.bind fun opened xs hxs => ?_
        obtain ⟨rfl, hxs⟩ | ⟨rfl, honce⟩ := hxs
        · show Says (startStore cmd path) _
          refine (says_startStore cmd path).mono fun ok ys hys => ?_
          exact opened_turn _ (ends_of_goesOn hpre.1) hxs hys (.inr hcmd)
        · show _ ∨ _
          rw [List.append_nil]
          exact .inl (honce.after hpre.1).once
  refine hstore.bind fun _ xs hxs => ?_
  show _ ∨ _
  rw [List.append_nil]
  exact hxs

/-! ### `PASV` and `ABOR` -/

theorem turns_cmdAbor : Turns cfg .abor cmdAbor := by
  unfold cmdAbor
  refine says_after mute_client fun c => ?_
  unfold onlyIf
  by_cases hbusy : c.eStatus ≠ .waiting
  · rw [if_pos hbusy]
    refine ((says_reset true).bind (S := fun _ xs => ∃ ys, Cancels ys ∧
      xs = ys ++ [.reply (.line 426 "Previous command has been finished abnormally.")])
      fun _ ys hys => ?_).bind fun _ xs hxs => ?_
    · exact fun _ => ⟨ys, hys, rfl⟩
    · obtain ⟨ys, hys, rfl⟩ := hxs
      intro _
      show Once (ys ++ _ ++ [_]) ∨ Irregular _ _ (ys ++ _ ++ [_])
      rw [List.append_assoc]
      exact .inr (.aborted hys)
  · rw [if_neg hbusy]
    exact fun _ => .inl (once_single rfl)

/-- The socket calls of a local `PASV`: one reply, or none. -/
theorem turns_pasvLocal : Turns cfg .pasv (pasvLocal cfg) := by
  have hsilent : ∀ {xs : List Said}, Cancels xs →
      Once (xs ++ []) ∨ Irregular cfg (some .pasv) (xs ++ []) := by
    intro xs hxs
    rw [List.append_nil]
    exact .inr (.silent (.inl rfl) hxs)
  unfold pasvLocal
  refine says_after mute_client fun c => ?_
  refine says_onlyIf_reset.bind fun _ xs hxs => ?_
  have honce : ∀ {r : Reply}, r.isLast = true →
      Once (xs ++ [.reply r]) ∨ Irregular cfg (some .pasv) (xs ++ [.reply r]) :=
    fun {r} hr => .inl ((once_single (x := .reply r) hr).after hxs.ends)
  refine says_after (mute_sys rfl) fun DataSock => says_after (mute_modify _) fun _ => ?_
  cases DataSock with
  | none => exact hsilent hxs
  | some fd =>
      show Says (sys (.setsockopt fd) >>= _) _
      refine says_after (mute_sys rfl) fun ok => says_if ?_ (hsilent hxs)
      refine says_after (mute_modify _) fun _ => says_after (mute_randomPort cfg) fun port => ?_
      refine says_after (mute_bindLoop cfg fd port 131072 port) fun tried => ?_
      refine says_after (mute_modify _) fun _ => says_if (fun _ => honce rfl) ?_
      refine says_after (mute_sys rfl) fun listening => says_if ?_ (hsilent hxs)
      intro _ _
      exact honce rfl

/-- `PASV` after a `PRET`. -/
theorem turns_pasvRemote (cmd : PretCmd) : Turns cfg .pasv (pasvRemote cfg cmd) := by
  have hslave : ∀ fid, Says (pasvSlave cfg cmd fid) fun _ xs => xs = [] ∨
      cfg.Slaves = [] ∧ xs = [.reply (.line 550 "Can't store file.")] := by
    intro fid
    cases cmd with
    | stor =>
        show Says (if _ then _ else _) _
        by_cases hslaves : cfg.Slaves = []
        · rw [if_pos hslaves]
          exact fun _ => .inr ⟨hslaves, rfl⟩
        · rw [if_neg hslaves]
          exact (says_nil (mute_getRandomSlave cfg)).mono fun _ xs hxs => .inl hxs
    | retr => exact (says_nil (mute_redis _)).mono fun _ xs hxs => .inl hxs
    | appe => exact (says_nil (mute_redis _)).mono fun _ xs hxs => .inl hxs
  have hturn : ∀ {xs ys : List Said}, (xs = [] ∨
      cfg.Slaves = [] ∧ xs = [.reply (.line 550 "Can't store file.")]) → ¬ Cancels ys →
      (Once ys ∨ Irregular cfg (some .pasv) ys) →
      Once (xs ++ ys) ∨ Irregular cfg (some .pasv) (xs ++ ys) := by
    intro xs ys hxs hys hturn
    obtain rfl | ⟨hslaves, rfl⟩ := hxs
    · exact hturn
    · exact .inr (.noSlave hslaves hys)
  have hsaid : ∀ (c : Call) (r : Reply), ¬ Cancels [.call c, .reply r] :=
    fun c r => not_cancels (r := r) (by simp)
  unfold pasvRemote
  refine says_after mute_client fun c => ?_
  refine (hslave _).bind fun slave xs hxs => ?_
  refine says_after (mute_modify _) fun _ => says_after (mute_redis _) fun trans_id => ?_
  refine says_after (mute_modify _) fun _ => ?_
  intro answer
  cases answer with
  | noReturn => trivial
  | exception =>
      intro _
      exact hturn hxs (hsaid _ _) (.inl ((once_single rfl).cons rfl))
  | reply r =>
      intro _ _
      refine hturn hxs (hsaid _ r) ?_
      by_cases hr : r.isLast = true
      · exact .inl ((once_single (x := .reply r) hr).cons rfl)
      · exact .inr (.relayed (Bool.eq_false_iff.mpr hr))

theorem turns_cmdPasv : Turns cfg .pasv (cmdPasv cfg) := by
  unfold cmdPasv
  refine says_after mute_client fun c => says_if ?_ (turns_of_concludes (concludes_reply rfl))
  cases c.nPRET_CMD with
  | none => exact turns_pasvLocal
  | some cmd => exact turns_pasvRemote cmd

/-! ### The lines -/

/-- The commands that are answered at once, whatever the state is. -/
def Cmd.plain : Cmd → Bool
  | .pass | .pasv | .list | .nlst | .stat | .abor | .retr | .stor | .appe | .stou => false
  | _ => true

theorem concludes_shellCmd {nCmd : Cmd} (hplain : nCmd.plain = true) (pszCmdArg : Option Text) :
    Says (shellCmd cfg nCmd pszCmdArg) fun _ xs => Concludes xs := by
  have hprivilege : ∀ {ucPriv : ℕ} {body : CommandProg Unit},
      (Says body fun _ xs => Concludes xs) →
      Says (withPrivilege ucPriv body) fun _ xs => Concludes xs :=
    fun hbody => says_withPrivilege hbody (concludes_single rfl)
  have harg : ∀ {refusal : String} {body : Text → CommandProg Unit},
      (∀ arg, Says (body arg) fun _ xs => Concludes xs) →
      Says (withArg pszCmdArg refusal body) fun _ xs => Concludes xs :=
    fun hbody => says_withArg hbody (concludes_single rfl)
  cases nCmd with
  | clnt => exact harg fun _ => concludes_reply rfl
  | stru => exact harg concludes_cmdStru
  | opts => exact harg fun _ => concludes_reply rfl
  | mode => exact harg concludes_cmdMode
  | type => exact harg concludes_cmdType
  | feat => exact concludes_reply (by decide)
  | port => exact concludes_cmdPort cfg pszCmdArg
  | pret => exact harg concludes_cmdPret
  | mdtm => exact harg concludes_cmdMdtm
  | pwd => exact says_after mute_client fun _ => concludes_reply rfl
  | xpwd => exact says_after mute_client fun _ => concludes_reply rfl
  | rest => exact concludes_cmdRest pszCmdArg
  | size => exact harg concludes_cmdSize
  | dele => exact hprivilege (harg concludes_shellDele)
  | rnfr => exact hprivilege (harg concludes_shellRnfr)
  | rnto => exact harg concludes_shellRnto
  | mkd => exact hprivilege (harg concludes_shellMkd)
  | xmkd => exact hprivilege (harg concludes_shellMkd)
  | rmd => exact hprivilege (harg concludes_shellRmd)
  | xrmd => exact hprivilege (harg concludes_shellRmd)
  | pasv | list | nlst | stat | abor | retr | stor | appe | stou => cases hplain
  | _ => exact concludes_reply rfl

/-- Every command behind the login gate. -/
theorem turns_shellCmd (nCmd : Cmd) (pszCmdArg : Option Text) :
    Turns cfg nCmd (shellCmd cfg nCmd pszCmdArg) := by
  have hprivilege : ∀ {nCmd : Cmd} {ucPriv : ℕ} {body : CommandProg Unit}, Turns cfg nCmd body →
      Turns cfg nCmd (withPrivilege ucPriv body) :=
    fun hbody => says_withPrivilege hbody (.inl (once_single rfl))
  by_cases hplain : nCmd.plain = true
  · exact turns_of_concludes (concludes_shellCmd hplain pszCmdArg)
  · cases nCmd with
    | pass => exact turns_of_concludes (concludes_reply rfl)
    | pasv => exact turns_cmdPasv
    | list => exact hprivilege (turns_cmdList rfl pszCmdArg)
    | nlst => exact hprivilege (turns_cmdList rfl pszCmdArg)
    | stat =>
        show Says (if _ then _ else _) _
        exact says_if (turns_of_concludes (concludes_reply rfl))
          (hprivilege (turns_cmdList rfl pszCmdArg))
    | abor => exact turns_cmdAbor
    | retr =>
        exact hprivilege (says_withArg (fun arg => turns_cmdRetr arg) (.inl (once_single rfl)))
    | stor => exact hprivilege (turns_cmdStore rfl .stor pszCmdArg)
    | appe => exact hprivilege (turns_cmdStore rfl .appe pszCmdArg)
    | stou => exact hprivilege (turns_cmdStore rfl .stou pszCmdArg)
    | _ => exact absurd rfl hplain

/-- What a line says, whatever it is answered. -/
abbrev SaysLine {α : Type} (p : ShellProg α) (Q : α → List Said → Prop) : Prop :=
  Yields saysShell p Q

section Line

variable {β : Type} {Q : β → List Said → Prop}

theorem line_command {p : CommandProg β} (hp : Says p Q) : SaysLine (command p) Q :=
  Yields.translate (J := ShellI) (φ := ShellOp.command) (ρ := fun _ r => r) (fun _ _ => rfl) hp

theorem line_if {b : Prop} [Decidable b] {p q : ShellProg β} (hp : SaysLine p Q)
    (hq : SaysLine q Q) : SaysLine (if b then p else q) Q := by
  by_cases hb : b
  · rw [if_pos hb]
    exact hp
  · rw [if_neg hb]
    exact hq

/-- A part of a line that says nothing. -/
theorem line_after {p : CommandProg α} {f : α → ShellProg β} (hp : Every Mute p)
    (hf : ∀ a, SaysLine (f a) Q) : SaysLine (command p >>= f) Q := by
  refine (line_command (says_nil hp)).bind fun a xs hxs => ?_
  rw [hxs]
  exact hf a

/-- A line that says something and goes on. -/
theorem line_next {p : ShellProg Unit} {S : List Said → Prop} {next : Next}
    (hp : SaysLine p fun _ xs => S xs) :
    SaysLine (p >>= fun _ => (.ret next : ShellProg Next)) fun _ xs => S xs := by
  refine hp.bind fun _ xs hxs => ?_
  show S (xs ++ [])
  rw [List.append_nil]
  exact hxs

end Line

theorem line_reply {r : Reply} (hr : Last r) :
    SaysLine (command (sendReply r)) fun _ xs => Concludes xs := line_command (concludes_reply hr)

theorem line_cmdUser (pszCmdArg : Option Text) :
    SaysLine (cmdUser pszCmdArg) fun _ xs => Concludes xs := by
  have hlogIn : SaysLine logIn fun _ xs => Concludes xs := fun _ => line_reply rfl
  have hmute : ∀ szLogin, Every Mute (searchUserFromLogin szLogin) := by
    intro szLogin
    unfold searchUserFromLogin
    rw [every_sys_bind]
    refine ⟨rfl, fun connected => ?_⟩
    rw [every_ite]
    refine ⟨fun _ => ?_, fun _ => trivial⟩
    refine (mute_redis _).bind fun found => ?_
    cases found with
    | none => trivial
    | some h =>
        have hentry : Every Mute (userEntry szLogin h) := by
          unfold userEntry
          rw [every_ite]
          refine ⟨fun _ => ?_, fun _ => trivial⟩
          split <;> trivial
        exact hentry.bind fun _ => trivial
  intro _
  cases pszCmdArg with
  | none => exact line_reply rfl
  | some szLogin =>
      show SaysLine (selectUser szLogin) _
      unfold selectUser
      refine line_after (hmute szLogin) fun pUser => ?_
      exact fun _ => line_if hlogIn (line_reply rfl)

/-- What the check of a password says: the login, or one refusal, or nothing. -/
theorem line_checkPass (pszCmdArg : Option Text) : SaysLine (checkPass pszCmdArg) fun ok xs =>
    ok = true ∧ Once xs ∨
      ok = false ∧ (xs = [] ∨ ∃ r : Reply, r.isLast = true ∧ xs = [.reply r]) := by
  unfold checkPass
  refine line_after mute_client fun c => ?_
  cases c.pUser with
  | none => exact .inr ⟨rfl, .inl rfl⟩
  | some u =>
      show SaysLine (if _ then _ else _) _
      refine line_if (line_if (line_if ?_ ?_) (line_if ?_ ?_)) ?_
      · intro _ _
        exact .inl ⟨rfl, once_single rfl⟩
      · exact fun _ => .inr ⟨rfl, .inr ⟨_, rfl, rfl⟩⟩
      · exact fun _ => .inr ⟨rfl, .inr ⟨_, rfl, rfl⟩⟩
      · exact .inr ⟨rfl, .inl rfl⟩
      · exact .inr ⟨rfl, .inl rfl⟩

theorem line_cmdPass (pszCmdArg : Option Text) : SaysLine (cmdPass cfg pszCmdArg) fun _ xs =>
    Once xs ∨ Irregular cfg (some .pass) xs := by
  have hreject : ∀ {xs : List Said}, (xs = [] ∨ ∃ r : Reply, r.isLast = true ∧ xs = [.reply r]) →
      SaysLine (rejectPass cfg) fun _ ys =>
        Once (xs ++ ys) ∨ Irregular cfg (some .pass) (xs ++ ys) := by
    intro xs hxs
    unfold rejectPass
    refine line_after mute_client fun c => line_if ?_ ?_
    · show Once (xs ++ []) ∨ Irregular cfg (some .pass) (xs ++ [])
      rw [List.append_nil]
      obtain rfl | ⟨r, hr, rfl⟩ := hxs
      · exact .inr .kicked
      · exact .inl (once_single hr)
    · intro _
      obtain rfl | ⟨r, hr, rfl⟩ := hxs
      · exact .inl (once_single rfl)
      · exact .inr (.refusedTwice hr)
  unfold cmdPass
  intro _
  refine line_after mute_client fun c => line_if ?_ ?_
  · intro _
    exact hreject (.inr ⟨_, rfl, rfl⟩)
  · refine (line_checkPass pszCmdArg).bind fun ok xs hxs => ?_
    obtain ⟨rfl, honce⟩ | ⟨rfl, hxs⟩ := hxs
    · show _ ∨ _
      rw [List.append_nil]
      exact .inl honce
    · exact hreject hxs

theorem line_cmdCwd (pszCmdArg : Option Text) :
    SaysLine (cmdCwd pszCmdArg) fun _ xs => Concludes xs := by
  have hmute : ∀ arg, Every Mute (newWorkingDir arg) := by
    intro arg
    unfold newWorkingDir
    rw [every_client_bind]
    refine ⟨trivial, fun c => ?_⟩
    cases c.buildPathVirtual (some arg) with
    | none => trivial
    | some a => exact (mute_redis (stat a.1)).bind fun _ => trivial
  cases pszCmdArg with
  | none => exact line_reply rfl
  | some arg =>
      refine line_after (hmute arg) fun found => ?_
      cases found with
      | none => exact line_reply rfl
      | some szWorkingDir => exact fun _ => line_reply rfl

/-- The directories, and the commands of `shellCmd`. -/
theorem line_shellLogged {nCmd : Cmd} {pszCmdArg : Option Text} {Q : List Said → Prop}
    (hQ : ∀ xs, Concludes xs → Q xs) (hrest : Says (shellCmd cfg nCmd pszCmdArg) fun _ xs => Q xs) :
    SaysLine (shellLogged cfg nCmd pszCmdArg) fun _ xs => Q xs := by
  have hcwd : SaysLine (cmdCwd pszCmdArg) fun _ xs => Q xs :=
    (line_cmdCwd pszCmdArg).mono fun _ xs h => hQ xs h
  have hcdup : SaysLine cmdCdup fun _ xs => Q xs :=
    fun _ => (line_reply rfl).mono fun _ xs h => hQ xs h
  have hline : SaysLine (command (shellCmd cfg nCmd pszCmdArg)) _ := line_command hrest
  cases nCmd with
  | cwd => exact hcwd
  | xcwd => exact hcwd
  | cdup => exact hcdup
  | xcup => exact hcdup
  | _ => exact hline

/-- A line that is no `PASS`, from what its command says behind the login. -/
theorem line_gated {nCmd : Option Cmd} (pszCmdArg : Option Text) {Q : List Said → Prop}
    (hQ : ∀ xs, Concludes xs → Q xs) (hpass : nCmd ≠ some .pass)
    (hrest : ∀ cmd, nCmd = some cmd → Says (shellCmd cfg cmd pszCmdArg) fun _ xs => Q xs) :
    SaysLine (dispatch cfg nCmd pszCmdArg) fun _ xs => Q xs := by
  have hreply : ∀ {r : Reply} {next : Next}, Last r →
      SaysLine (command (sendReply r) >>= fun _ => (.ret next : ShellProg Next)) fun _ xs => Q xs :=
    fun hr => line_next ((line_reply hr).mono fun _ xs h => hQ xs h)
  cases nCmd with
  | none => exact hreply rfl
  | some cmd =>
      have hgate : SaysLine (command client >>= fun c => if c.bIsLogged then
          (shellLogged cfg cmd pszCmdArg >>= fun _ => (.ret .continue : ShellProg Next))
        else (command (sendReply (.line 530 "Please login with USER and PASS.")) >>=
          fun _ => (.ret .continue : ShellProg Next))) fun _ xs => Q xs := by
        refine line_after mute_client fun c => line_if ?_ (hreply rfl)
        exact line_next (line_shellLogged hQ (hrest cmd rfl))
      cases cmd with
      | quit => exact hreply rfl
      | user => exact line_next ((line_cmdUser pszCmdArg).mono fun _ xs h => hQ xs h)
      | pass => exact absurd rfl hpass
      | _ => exact hgate

/-- **What a line says.** -/
theorem line_dispatch (nCmd : Option Cmd) (pszCmdArg : Option Text) :
    SaysLine (dispatch cfg nCmd pszCmdArg) fun _ xs => Once xs ∨ Irregular cfg nCmd xs := by
  by_cases hpass : nCmd = some .pass
  · rw [hpass]
    exact line_cmdPass pszCmdArg
  · refine line_gated pszCmdArg (fun xs h => .inl h.once) hpass fun cmd hcmd => ?_
    rw [hcmd]
    exact turns_shellCmd cmd pszCmdArg

/-- **Answered once**: a line whose handling ends is answered with one last reply, or starts the
thread that sends it, behind preliminary replies only, exactly if it is none of the irregular
ones. -/
theorem answered_once_iff {env : Env} {w w' : World} {next : Next} {nCmd : Option Cmd}
    {pszCmdArg : Option Text}
    (hrun : run (serveShell env) (dispatch cfg nCmd pszCmdArg) w = .done next w') :
    Once (said env (dispatch cfg nCmd pszCmdArg) w) ↔
      ¬ Irregular cfg nCmd (said env (dispatch cfg nCmd pszCmdArg) w) := by
  constructor
  · intro honce hirregular
    exact hirregular.not_once honce
  · intro hregular
    exact ((line_dispatch nCmd pszCmdArg).run hrun).resolve_right hregular

/-! ### A download whose slave lets the connection in, and one whose slave does not -/

/-- A system with slaves that refuse every passive connection. -/
def Env.refusing : Env := fun n o =>
  match o with
  | .openPasvDataConnection _ _ => .reply (.line 425 "Can't open data connection.")
  | o => Env.willing n o

/-- The world after `PASV` and `PRET RETR /b`. -/
abbrev namedWorld : World := pretWorld passiveWorld 2

theorem said_retr :
    said .willing (dispatch {} (some .retr) (some "/b".toList)) namedWorld =
      [.call (passiveWorld.view.opening (.reply (.line 150 "Opening data channel"))),
        .reply (.line 150 "Opening data channel"), .call ⟨.pthread_create .retrieve, true⟩] := by
  rw [said, dispatch_gate (by decide) (by decide) (by decide)]
  show trace _ _ (shellLogged {} .retr (some "/b".toList) >>= fun _ => pure Next.continue) _ = _
  rw [shellLogged_command (by decide) (by decide)]
  show trace _ _ (command (statPath (Client.buildPath _ (some "/b".toList)) >>= _) >>= _) _ = _
  rw [guest_b rfl]
  rfl

theorem said_retr_refused :
    said .refusing (dispatch {} (some .retr) (some "/b".toList)) namedWorld =
      [.call (passiveWorld.view.opening (.reply (.line 425 "Can't open data connection."))),
        .reply (.line 425 "Can't open data connection."),
        .call ⟨.pthread_create .retrieve, true⟩] := by
  rw [said, dispatch_gate (by decide) (by decide) (by decide)]
  show trace _ _ (shellLogged {} .retr (some "/b".toList) >>= fun _ => pure Next.continue) _ = _
  rw [shellLogged_command (by decide) (by decide)]
  show trace _ _ (command (statPath (Client.buildPath _ (some "/b".toList)) >>= _) >>= _) _ = _
  rw [guest_b rfl]
  rfl

/-- After this `RETR`. -/
def refusedWorld : World :=
  { retrWorld with
    replies := namedWorld.replies ++ [.line 425 "Can't open data connection."] }

theorem retr_refused : Does .refusing (shellCmd {} .retr (some "/b".toList)) namedWorld ()
    refusedWorld [passiveWorld.view.opening (.reply (.line 425 "Can't open data connection.")),
      ⟨.pthread_create .retrieve, true⟩] := by
  constructor
  · show run _ (statPath (Client.buildPath _ (some "/b".toList)) >>= _) _ = _
    rw [guest_b rfl]
    rfl
  · show trace _ _ (statPath (Client.buildPath _ (some "/b".toList)) >>= _) _ = _
    rw [guest_b rfl]
    rfl

/-- `RETR /b` behind `PASV` is answered once where the slave says 150, and not once where it refuses
the connection: the thread is started all the same. -/
theorem answered_once_retr :
    ¬ Irregular {} (some .retr)
      (said .willing (dispatch {} (some .retr) (some "/b".toList)) namedWorld) ∧
    ¬ Once (said .refusing (dispatch {} (some .retr) (some "/b".toList)) namedWorld) := by
  constructor
  · obtain ⟨hrun, -⟩ := line_of_does (by simp) rfl retr_b
    refine (answered_once_iff hrun).mp ?_
    rw [said_retr]
    have hstart : Once [.call ⟨.pthread_create .retrieve, true⟩] := once_single rfl
    exact (hstart.cons rfl).cons rfl
  · obtain ⟨hrun, -⟩ := line_of_does (by simp) rfl retr_refused
    intro honce
    refine (answered_once_iff hrun).mp honce ?_
    rw [said_retr_refused]
    have hstart : ¬ Cancels [.call ⟨.pthread_create .retrieve, true⟩] := by
      rintro (hnil | hcancel)
      · exact absurd hnil (by simp)
      · exact absurd hcancel (by simp)
    have hrefused : Irregular {} (some .retr) ([] ++ .call (passiveWorld.view.opening
        (.reply (.line 425 "Can't open data connection."))) ::
          .reply (.line 425 "Can't open data connection.") ::
            [.call ⟨.pthread_create .retrieve, true⟩]) := .refused rfl hstart (.inl rfl)
    exact hrefused

end ClusterFtpd
