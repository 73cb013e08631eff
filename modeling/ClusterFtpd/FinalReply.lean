import ClusterFtpd.ActiveConnections
import ClusterFtpd.TransferReplies
import ClusterFtpd.UploadRuns

/-!
# The final reply

A line is to be answered by preliminary replies of code 1xx and then by one final reply, which the
control thread sends, or the transfer thread that the line has started.  `Handled` runs the line and
then its thread; `Answers` says, from the state before the line and from what the slaves and the
system answer, which lines get their final reply.

Main results:

* `one_final_reply_iff`: a line gets exactly one final reply, and no empty one, if and only if it
  and its thread come to their end and it is one of these;
* `no_final_reply`: a `RETR` without a data connection ends with an empty line.
-/

namespace ClusterFtpd

open Interaction MachineInt

/-! ### One final reply -/

/-- **The replies to a command.**  `ABOR` during a transfer sends two, and the listing of a `STAT`
is a reply that the control thread begins and the transfer thread ends. -/
inductive Complete (busy : Prop) : Option Cmd → List Reply → Prop where
  | once {nCmd : Option Cmd} {rs : List Reply} : OneFinal rs → Complete busy nCmd rs
  | aborted {text text' : String} : busy →
      Complete busy (some .abor) [.line 426 text, .line 226 text']
  | status {text text' : String} :
      Complete busy (some .stat) [.multiline 213 text, .line 213 text']

variable {cfg : Config} {env : Env} {w w' : World} {cs : List Call} {rs : List Reply} {u : Unit}
  {busy : Prop} {nCmd : Option Cmd}

theorem complete_iff (habor : nCmd ≠ some .abor) (hstat : nCmd ≠ some .stat) :
    Complete busy nCmd rs ↔ OneFinal rs := by
  constructor
  · intro h
    cases h with
    | once hone => exact hone
    | aborted _ => exact absurd rfl habor
    | status => exact absurd rfl hstat
  · exact .once

/-! ### The replies of a command -/

/-- The reply that is sent. -/
def repliesCommand : (o : CommandOp) → o.Res → Option Reply
  | .sendReply r, _ => some r
  | .sys _, _ => none
  | .redis _, _ => none
  | .client, _ => none
  | .modify _, _ => none

/-- What is said of replies is sent. -/
theorem Does.replies_noted {α : Type} {p : CommandProg α} {a : α}
    {note : (o : CommandOp) → o.Res → Option Said}
    (hnote : ∀ o r, (note o r).bind Said.reply? = repliesCommand o r) (h : Does env p w a w' cs) :
    w'.replies = w.replies ++ (trace (serveCommand env) note p w).filterMap Said.reply? := by
  have hstate := state_eq_trace repliesCommand (serveCommand env) World.replies ?_ p w
  · rw [h.ends] at hstate
    rw [trace_filterMap (serveCommand env) fun o r => (hnote o r).symm] at hstate
    exact hstate
  · intro o w
    cases o with
    | sendReply r => rfl
    | _ => exact (List.append_nil _).symm

theorem replies_saysCommand (o : CommandOp) (r : o.Res) :
    (saysCommand o r).bind Said.reply? = repliesCommand o r := by
  cases o with
  | sys o =>
      show ((noteSys o r).map Said.call).bind Said.reply? = none
      cases noteSys o r <;> rfl
  | _ => rfl

theorem preliminary_of_goesOn {xs : List Said} (h : ∀ x ∈ xs, x.goesOn = true) :
    ∀ r ∈ xs.filterMap Said.reply?, r.isPreliminary = true := by
  intro r hr
  obtain ⟨x, hx, hsaid⟩ := List.mem_filterMap.mp hr
  cases x with
  | reply r' =>
      have hsame : r' = r := Option.some.inj hsaid
      rw [← hsame]
      exact h _ hx
  | call c => cases hsaid

/-- A command that concludes is answered with one final reply. -/
theorem Concludes.oneFinal {xs : List Said} (h : Concludes xs) :
    OneFinal (xs.filterMap Said.reply?) := by
  obtain ⟨pre, r, post, rfl, hr, hpre, hpost⟩ := h
  have hnone : post.filterMap Said.reply? = [] := by
    obtain rfl | rfl := hpost <;> rfl
  refine ⟨pre.filterMap Said.reply?, r, ?_, ?_, hr.isFinal⟩
  · rw [List.filterMap_append]
    show _ ++ r :: post.filterMap Said.reply? = _
    rw [hnone]
  · exact preliminary_of_goesOn hpre

/-! ### `PASS` -/

/-- `PASS` is answered once: the client is not logged in, and with the right password there is room
for it, and a wrong one is not missing. -/
def Client.AnswersPass (c : Client) (pszCmdArg : Option Text) : Prop :=
  c.bIsLogged = false ∧ ∀ u, c.pUser = some u → u.bIsEnabled = true →
    (u.accepts pszCmdArg = true → u.hasRoom = true) ∧
      (u.accepts pszCmdArg = false → pszCmdArg ≠ none)

theorem rejectPass_replies (h : run (serveShell env) (rejectPass cfg) w = .done .continue w') :
    w'.replies = w.replies ++ [.line 530 "Login or password incorrect!"] := by
  unfold rejectPass at h
  rw [run_command_client_bind] at h
  split_ifs at h with htries
  · cases h
  · have hend := (Outcome.done.inj h).2
    rw [← hend]
    rfl

/-- What the check of a password says before it ends. -/
theorem checkPass_replies {pszCmdArg : Option Text} {ok : Bool}
    (h : run (serveShell env) (checkPass pszCmdArg) w = .done ok w') :
    (ok = true ∧ w'.replies = w.replies ++ [.line 230 "User Logged In."] ∧
        ∃ u, w.client.pUser = some u ∧ u.accepts pszCmdArg = true ∧ u.hasRoom = true) ∨
      (ok = false ∧ w'.replies = w.replies ∧ ∀ u, w.client.pUser = some u → u.bIsEnabled = true →
        u.accepts pszCmdArg = false ∧ pszCmdArg ≠ none) ∨
      (ok = false ∧ (∃ r : Reply, w'.replies = w.replies ++ [r] ∧ r.isPreliminary = false) ∧
        ∃ u, w.client.pUser = some u ∧ u.bIsEnabled = true ∧
          (u.accepts pszCmdArg = true ∧ u.hasRoom = false ∨
            u.accepts pszCmdArg = false ∧ pszCmdArg = none)) := by
  unfold checkPass at h
  rw [run_command_client_bind] at h
  cases huser : w.client.pUser with
  | none =>
      rw [huser] at h
      obtain ⟨rfl, rfl⟩ := Outcome.done.inj h
      exact .inr (.inl ⟨rfl, rfl, by simp⟩)
  | some u =>
      rw [huser] at h
      dsimp only at h
      split_ifs at h with henabled haccepts hroom hmissing
      · obtain ⟨rfl, rfl⟩ := Outcome.done.inj h
        exact .inl ⟨rfl, rfl, u, rfl, haccepts, hroom⟩
      · obtain ⟨rfl, rfl⟩ := Outcome.done.inj h
        exact .inr (.inr ⟨rfl, ⟨_, rfl, rfl⟩, u, rfl, henabled,
          .inl ⟨haccepts, Bool.eq_false_iff.mpr hroom⟩⟩)
      · obtain ⟨rfl, rfl⟩ := Outcome.done.inj h
        exact .inr (.inr ⟨rfl, ⟨_, rfl, rfl⟩, u, rfl, henabled,
          .inr ⟨Bool.eq_false_iff.mpr haccepts, hmissing⟩⟩)
      · obtain ⟨rfl, rfl⟩ := Outcome.done.inj h
        refine .inr (.inl ⟨rfl, rfl, ?_⟩)
        intro u' hu' _
        rw [Option.some.injEq] at hu'
        subst hu'
        exact ⟨Bool.eq_false_iff.mpr haccepts, hmissing⟩
      · obtain ⟨rfl, rfl⟩ := Outcome.done.inj h
        refine .inr (.inl ⟨rfl, rfl, ?_⟩)
        intro u' hu' henabled'
        rw [Option.some.injEq] at hu'
        subst hu'
        exact absurd henabled' henabled

theorem pass_answers {pszCmdArg : Option Text}
    (hrun : run (serveShell env) (dispatch cfg (some .pass) pszCmdArg) w = .done .continue w') :
    ∃ rs, w'.replies = w.replies ++ rs ∧ (OneFinal rs ↔ w.client.AnswersPass pszCmdArg) := by
  have h : run (serveShell env) (cmdPass cfg pszCmdArg) w = _ := hrun
  unfold cmdPass at h
  rw [run_login_bind, run_command_client_bind] at h
  split_ifs at h with hlogged
  · rw [run_command_sendReply_bind] at h
    have hin : w.client.bIsLogged = true := hlogged
    refine ⟨_, (rejectPass_replies h).trans (List.append_assoc _ _ _), ?_⟩
    refine iff_of_false (not_oneFinal_twice rfl) fun hanswers => ?_
    rw [hanswers.1] at hin
    cases hin
  · have hout : w.client.bIsLogged = false := Bool.eq_false_iff.mpr hlogged
    obtain ⟨ok, w₁, hcheck, hrest⟩ := (run_bind_done _).mp h
    obtain ⟨rfl, hreplies, u, huser, haccepts, hroom⟩ | ⟨rfl, hreplies, hwrong⟩ |
      ⟨rfl, ⟨r, hreplies, hr⟩, u, huser, henabled, hsaid⟩ := checkPass_replies hcheck
    · have hend : w₁ = w' := (Outcome.done.inj hrest).2
      subst hend
      refine ⟨_, hreplies, iff_of_true (oneFinal_single.mpr rfl) ⟨hout, ?_⟩⟩
      intro u' hu' _
      have hsame : u = u' := Option.some.inj (huser.symm.trans hu')
      subst hsame
      refine ⟨fun _ => hroom, fun hno => ?_⟩
      rw [haccepts] at hno
      cases hno
    · rw [if_neg (by simp)] at hrest
      have hreject := rejectPass_replies hrest
      rw [hreplies] at hreject
      refine ⟨_, hreject, iff_of_true (oneFinal_single.mpr rfl) ⟨hout, ?_⟩⟩
      intro u hu henabled
      obtain ⟨haccepts, hmissing⟩ := hwrong u hu henabled
      refine ⟨fun hyes => ?_, fun _ => hmissing⟩
      rw [haccepts] at hyes
      cases hyes
    · rw [if_neg (by simp)] at hrest
      have hreject := rejectPass_replies hrest
      rw [hreplies, List.append_assoc] at hreject
      refine ⟨_, hreject, iff_of_false (not_oneFinal_twice hr) fun hanswers => ?_⟩
      obtain ⟨hroom, hmissing⟩ := hanswers.2 u huser henabled
      obtain ⟨haccepts, hfull⟩ | ⟨haccepts, hnone⟩ := hsaid
      · rw [hroom haccepts] at hfull
        cases hfull
      · exact hmissing haccepts hnone

/-! ### `PASV` and `ABOR` -/

/-- A socket call of `PASV` that fails. -/
def Call.fails : Call → Bool
  | ⟨.socket, DataSock⟩ => DataSock.isNone
  | ⟨.setsockopt _, ok⟩ => !ok
  | ⟨.listen _, ok⟩ => !ok
  | _ => false

/-- The replies of a command, and its socket calls that fail. -/
def failsCommand : (o : CommandOp) → o.Res → Option Said
  | .sendReply r, _ => some (.reply r)
  | .sys o, r => if Call.fails ⟨o, r⟩ then some (.call ⟨o, r⟩) else none
  | .redis _, _ => none
  | .client, _ => none
  | .modify _, _ => none

/-- The replies of a command, and its socket calls that fail, in a run of it. -/
def failed {α : Type} (env : Env) (p : CommandProg α) (w : World) : List Said :=
  trace (serveCommand env) failsCommand p w

/-- The socket calls of `PASV` all work. -/
def World.Listens (cfg : Config) (env : Env) (w : World) : Prop :=
  (failed env (pasvLocal cfg) w).filterMap Said.call? = []

theorem replies_failsCommand (o : CommandOp) (r : o.Res) :
    (failsCommand o r).bind Said.reply? = repliesCommand o r := by
  cases o with
  | sys o =>
      show (if Call.fails ⟨o, r⟩ then some (Said.call ⟨o, r⟩) else none).bind Said.reply? = none
      split <;> rfl
  | _ => rfl

/-- An operation that is no reply and cannot fail. -/
def Sure : CommandOp → Prop
  | .sendReply _ => False
  | .sys o => ∀ r, Call.fails ⟨o, r⟩ = false
  | .redis _ | .client | .modify _ => True

theorem sure_fails (o : CommandOp) (r : o.Res) (ho : Sure o) : failsCommand o r = none := by
  cases o with
  | sendReply r => exact ho.elim
  | sys o =>
      have hsure : Call.fails ⟨o, r⟩ = false := ho r
      show (if Call.fails ⟨o, r⟩ = true then _ else _) = _
      rw [hsure]
      rfl
  | _ => rfl

theorem sure_sys {o : SysOp} (ho : ∀ r, Call.fails ⟨o, r⟩ = false) : Every Sure (sys o) :=
  ⟨ho, fun _ => trivial⟩

theorem sure_randomPort (cfg : Config) : Every Sure (randomPort cfg) := by
  refine ⟨fun _ => rfl, fun r => ?_⟩
  show Every _ (if _ then _ else _)
  rw [every_ite]
  exact ⟨fun _ => trivial, fun _ => trivial⟩

theorem sure_bindLoop (cfg : Config) (fd usFirstTry fuel usTriedPort : ℕ) :
    Every Sure (bindLoop cfg fd usFirstTry fuel usTriedPort) := by
  induction fuel generalizing usTriedPort with
  | zero => trivial
  | succ fuel ih =>
      refine ⟨fun _ => rfl, fun bound => ?_⟩
      show Every _ (if _ then _ else _)
      rw [every_ite]
      refine ⟨fun _ => trivial, fun _ => ?_⟩
      show Every _ (if _ then _ else _)
      rw [every_ite]
      exact ⟨fun _ => trivial, fun _ => ih _⟩

theorem sure_reset (bSyncWait : Bool) : Every Sure (resetDataConnection bSyncWait) := by
  have hclose : ∀ DataSock, Every Sure (closeData DataSock) := by
    intro DataSock
    cases DataSock with
    | none => trivial
    | some fd => exact sure_sys fun _ => rfl
  have hcancel : ∀ b : Prop, [Decidable b] → Every Sure (onlyIf b (sys .pthread_cancel)) := by
    intro b _
    unfold onlyIf
    rw [every_ite]
    exact ⟨fun _ => sure_sys fun _ => rfl, fun _ => trivial⟩
  unfold resetDataConnection
  rw [every_client_bind]
  refine ⟨trivial, fun c => (hclose c.DataSock).bind fun _ => (hcancel _).bind fun _ => ?_⟩
  exact ⟨trivial, fun _ => trivial⟩

/-- **`PASV` without a `PRET`** says one final reply, or a socket call fails and it says nothing. -/
theorem pasvLocal_fails : Yields failsCommand (pasvLocal cfg) fun _ xs =>
    (∃ r : Reply, r.isFinal = true ∧ xs = [.reply r]) ∨ ∃ c, xs = [.call c] := by
  have hlisten : ∀ (c : Client) (fd port : ℕ) (next : CommandProg Unit),
      Every Sure next → Yields failsCommand (if port = 0 then
        sendReply (.line 451 "Internal error - No more data port available.")
      else sys (.listen fd) >>= fun listening =>
        if listening then sendReply (passiveReply c.ulServerIP port) >>= fun _ => next
        else return ()) fun _ xs =>
      (∃ r : Reply, r.isFinal = true ∧ xs = [.reply r]) ∨ ∃ c, xs = [.call c] := by
    intro c fd port next hnext
    by_cases hport : port = 0
    · rw [if_pos hport]
      exact fun _ => .inl ⟨_, rfl, rfl⟩
    · rw [if_neg hport]
      intro listening
      cases listening with
      | true =>
          intro _
          refine (hnext.yields_nil sure_fails).mono fun _ xs hxs => ?_
          rw [hxs]
          exact .inl ⟨_, rfl, rfl⟩
      | false => exact .inr ⟨_, rfl⟩
  unfold pasvLocal
  refine Yields.after (P := Sure) ⟨trivial, fun _ => trivial⟩ sure_fails fun c => ?_
  refine Yields.after (P := Sure) ?_ sure_fails fun _ => ?_
  · unfold onlyIf
    rw [every_ite]
    exact ⟨fun _ => sure_reset true, fun _ => trivial⟩
  intro DataSock
  cases DataSock with
  | none => exact fun _ => .inr ⟨_, rfl⟩
  | some fd =>
      intro _ ok
      cases ok with
      | false => exact .inr ⟨_, rfl⟩
      | true =>
          intro _
          refine Yields.after (p := randomPort cfg) (sure_randomPort cfg) sure_fails fun first => ?_
          refine Yields.after (sure_bindLoop cfg fd first 131072 first) sure_fails fun tried => ?_
          intro _
          exact hlisten c fd (tried.getD 0) _ ⟨trivial, fun _ => trivial⟩

theorem pasvLocal_replies (h : Does env (pasvLocal cfg) w u w' cs) :
    ∃ rs, w'.replies = w.replies ++ rs ∧ (OneFinal rs ↔ w.Listens cfg env) := by
  refine ⟨_, h.replies_noted replies_failsCommand, ?_⟩
  unfold World.Listens
  obtain ⟨r, hr, hsaid⟩ | ⟨c, hsaid⟩ := pasvLocal_fails.run h.ends
  · rw [failed, hsaid]
    exact iff_of_true (oneFinal_single.mpr hr) rfl
  · rw [failed, hsaid]
    exact iff_of_false not_oneFinal_nil (by simp [Said.call?])

theorem pasvSlave_replies {cmd : PretCmd} {fid : ℤ} {slave : SlaveInfo}
    (h : Does env (pasvSlave cfg cmd fid) w slave w' cs) : cs = [] ∧ w'.replies = w.replies ++
      if cmd = .stor ∧ cfg.Slaves = [] then [.line 550 "Can't store file."] else [] := by
  have hredis : ∀ {p : RedisProg SlaveInfo}, Does env (redis p) w slave w' cs →
      cs = [] ∧ w'.replies = w.replies ++ [] := by
    intro p h
    obtain ⟨-, hw', rfl⟩ := h.of_redis
    rw [hw']
    exact ⟨rfl, (List.append_nil _).symm⟩
  cases cmd with
  | stor =>
      have h₁ : Does env (if cfg.Slaves = [] then _ else _) w slave w' cs := h
      by_cases hslaves : cfg.Slaves = []
      · rw [if_pos hslaves] at h₁
        obtain ⟨-, rfl, rfl⟩ := h₁.of_sendReply.of_ret
        rw [if_pos ⟨rfl, hslaves⟩]
        exact ⟨rfl, rfl⟩
      · rw [if_neg hslaves] at h₁
        rw [if_neg fun hboth => hslaves hboth.2, List.append_nil]
        have h₂ := h₁.of_sys rfl
        cases hslave : cfg.Slaves[env w.clock .rand % cfg.Slaves.length % 65536]? with
        | none =>
            rw [hslave] at h₂
            exact h₂.of_stop.elim
        | some slave' =>
            rw [hslave] at h₂
            obtain ⟨-, rfl, rfl⟩ := h₂.of_ret
            exact ⟨rfl, rfl⟩
  | retr => exact hredis h
  | appe => exact hredis h

/-- **`PASV` behind a `PRET`.** -/
theorem pasvRemote_replies {cmd : PretCmd} (h : Does env (pasvRemote cfg cmd) w u w' cs) :
    ∃ rs, w'.replies = w.replies ++ rs ∧
      (OneFinal rs ↔ ¬ (cmd = .stor ∧ cfg.Slaves = []) ∧ ∀ c ∈ cs, c.EndsFinal) := by
  obtain ⟨slave, w₁, cs₁, cs₂, hslave, h₁, rfl⟩ := h.of_client.of_bind
  obtain ⟨rfl, hreplies₁⟩ := pasvSlave_replies hslave
  obtain ⟨trans_id, w₂, cs₃, cs₄, hid, h₂, rfl⟩ := h₁.of_modify.of_bind
  obtain ⟨-, hw₂, rfl⟩ := hid.of_redis
  have hreplies₂ : w₂.replies = w₁.replies := by
    rw [hw₂]
  obtain ⟨cs₅, rfl, h₃⟩ := h₂.of_modify.of_call rfl
  have hsaid : ∀ r : Reply, OneFinal ((if cmd = .stor ∧ cfg.Slaves = [] then
      [.line 550 "Can't store file."] else []) ++ [r]) ↔
        ¬ (cmd = .stor ∧ cfg.Slaves = []) ∧ r.isFinal = true := by
    intro r
    by_cases hno : cmd = .stor ∧ cfg.Slaves = []
    · rw [if_pos hno]
      exact iff_of_false (not_oneFinal_twice rfl) fun hboth => hboth.1 hno
    · rw [if_neg hno, List.nil_append, oneFinal_single]
      exact (and_iff_right hno).symm
  generalize env _ (SysOp.initPasvDataConnection _ _ _ _) = answer at h₃ ⊢
  cases answer with
  | noReturn => exact h₃.of_stop.elim
  | exception =>
      have h₄ : Does env (sendReply (.line 425 "Can't open data connection.")) _ u w' cs₅ := h₃
      obtain ⟨hend, rfl⟩ := h₄.of_reply
      refine ⟨_, ?_, (hsaid (.line 425 "Can't open data connection.")).trans ?_⟩
      · rw [hend, ← List.append_assoc, ← hreplies₁]
        exact congrArg (· ++ _) hreplies₂
      · exact and_congr_right fun _ => iff_of_true rfl (by simp [Call.EndsFinal])
  | reply r =>
      have h₄ := h₃.of_sendReply
      have hend : w' = _ ∧ cs₅ = [] := ⟨(Outcome.done.inj h₄.ends).2.symm, h₄.makes.symm⟩
      obtain ⟨hend, rfl⟩ := hend
      refine ⟨_, ?_, (hsaid r).trans ?_⟩
      · rw [hend, ← List.append_assoc, ← hreplies₁]
        exact congrArg (· ++ _) hreplies₂
      · exact and_congr_right fun _ => by simp [Call.EndsFinal]

/-- `ABOR` is always answered as it should be. -/
theorem abor_replies (h : Does env cmdAbor w u w' cs) : ∃ rs, w'.replies = w.replies ++ rs ∧
    Complete (w.client.eStatus ≠ .waiting) (some .abor) rs := by
  obtain ⟨u₁, w₁, cs₁, cs₂, hreset, h₁, -⟩ := h.of_client.of_bind
  obtain ⟨hend, -⟩ := h₁.of_reply
  unfold onlyIf at hreset
  by_cases hbusy : w.client.eStatus ≠ .waiting
  · rw [if_pos hbusy] at hreset
    obtain ⟨u₂, w₂, cs₃, cs₄, hdrop, h₂, -⟩ := hreset.of_bind
    obtain ⟨hsaid, -⟩ := h₂.of_reply
    have hsilent := hdrop.silent (silent_reset true)
    refine ⟨[.line 426 "Previous command has been finished abnormally.",
      .line 226 "ABOR command successful."], ?_, .aborted hbusy⟩
    rw [hend, hsaid, hsilent]
    exact List.append_assoc _ _ _
  · rw [if_neg hbusy] at hreset
    obtain ⟨-, rfl, -⟩ := hreset.of_ret
    refine ⟨[.line 226 "ABOR command successful."], ?_, .once (oneFinal_single.mpr rfl)⟩
    rw [hend]

/-! ### Listings -/

/-- What a listing says before its thread. -/
def Announces (cmd : Cmd) (pre : List Reply) : Prop :=
  if cmd = .stat then pre = [.multiline 213 "Status follows:"]
  else ∀ p ∈ pre, p.isPreliminary = true

theorem announces_status {cmd : Cmd} {pre : List Reply} (hstat : cmd = .stat) :
    Announces cmd pre ↔ pre = [.multiline 213 "Status follows:"] := by
  unfold Announces
  rw [if_pos hstat]

theorem announces_listing {cmd : Cmd} {pre : List Reply} (hstat : cmd ≠ .stat) :
    Announces cmd pre ↔ ∀ p ∈ pre, p.isPreliminary = true := by
  unfold Announces
  rw [if_neg hstat]

/-- What the thread of a listing says. -/
def listReply (cmd : Option Cmd) : Reply :=
  if cmd = some .stat then .line 213 "End of status" else .line 226 "Transfer complete."

/-- With the reply of its thread a listing is answered. -/
theorem Announces.complete {cmd : Cmd} {pre : List Reply} (h : Announces cmd pre) :
    Complete busy (some cmd) (pre ++ [listReply (some cmd)]) := by
  by_cases hstat : cmd = .stat
  · rw [announces_status hstat] at h
    rw [h, hstat]
    exact .status
  · rw [announces_listing hstat] at h
    have hlast : listReply (some cmd) = .line 226 "Transfer complete." :=
      if_neg fun hcmd => hstat (Option.some.inj hcmd)
    rw [hlast]
    exact .once ((oneFinal_append h).mpr (oneFinal_single.mpr rfl))

/-- Without its thread it is not. -/
theorem Announces.not_complete {cmd : Cmd} {pre : List Reply} (hcmd : cmd.lists = true)
    (h : Announces cmd pre) : ¬ Complete busy (some cmd) pre := by
  intro hcomplete
  by_cases hstat : cmd = .stat
  · rw [announces_status hstat] at h
    rw [h, hstat] at hcomplete
    cases hcomplete with
    | once hone => exact absurd (oneFinal_single.mp hone) (by decide)
  · rw [announces_listing hstat] at h
    have habor : some cmd ≠ some .abor := by
      intro heq
      rw [Option.some.inj heq] at hcmd
      cases hcmd
    have hone := (complete_iff habor fun heq => hstat (Option.some.inj heq)).mp hcomplete
    rw [← List.append_nil pre, oneFinal_append h] at hone
    exact not_oneFinal_nil hone

/-- The data connection of a listing. -/
theorem openListing_announces {cmd : Cmd} {opened : Bool}
    (h : Does env (openListing cfg cmd) w opened w' cs) : OnlyCancels cs ∧ ∃ pre,
      w'.replies = w.replies ++ pre ∧
        (opened = true ∧ Announces cmd pre ∨ opened = false ∧ OneFinal pre) := by
  unfold openListing at h
  by_cases hstat : cmd = .stat
  · rw [if_pos hstat] at h
    obtain ⟨rfl, rfl, rfl⟩ := h.of_sendReply.of_modify.of_ret
    exact ⟨onlyCancels_nil, _, rfl, .inl ⟨rfl, (announces_status hstat).mpr rfl⟩⟩
  · rw [if_neg hstat] at h
    obtain ⟨ok, w₁, cs₁, cs₂, hopen, h₁, rfl⟩ := h.of_bind
    have hreplies := hopen.replies_noted replies_saysCommand
    have hconnects := (says_openDataConnection cfg).run hopen.ends
    have hcancels : OnlyCancels cs₁ := by
      obtain ⟨-, -, rfl⟩ | ⟨-, -, honly⟩ := openDataConnection_does hopen
      · exact onlyCancels_nil
      · exact honly
    obtain ⟨u₁, w₂, cs₃, cs₄, hset, h₂, rfl⟩ := h₁.of_bind
    obtain ⟨rfl, rfl, rfl⟩ := h₂.of_ret
    have hsame : w'.replies = w₁.replies ∧ cs₃ = [] := by
      unfold onlyIf at hset
      cases opened with
      | true => exact ⟨by rw [← (Outcome.done.inj hset.ends).2]; rfl, hset.makes.symm⟩
      | false => exact ⟨by rw [← (Outcome.done.inj hset.ends).2], hset.makes.symm⟩
    obtain ⟨hsame, rfl⟩ := hsame
    rw [List.append_nil, List.append_nil]
    refine ⟨hcancels, _, hsame.trans hreplies, ?_⟩
    obtain ⟨hok, hpre⟩ | ⟨hok, hends⟩ := hconnects
    · exact .inl ⟨hok, (announces_listing hstat).mpr (preliminary_of_goesOn hpre)⟩
    · exact .inr ⟨hok, hends.oneFinal⟩

/-- What `LIST`, `NLST` and `STAT` say before their thread. -/
inductive ListSays (cmd : Cmd) (w w' : World) (cs : List Call) : Prop where
  | answered {rs : List Reply} : OneFinal rs → w'.replies = w.replies ++ rs →
      (∀ ok, ⟨.pthread_create .list, ok⟩ ∉ cs) → ListSays cmd w w' cs
  | started {pre : List Reply} : Announces cmd pre → w'.replies = w.replies ++ pre →
      ⟨.pthread_create .list, true⟩ ∈ cs → ⟨.pthread_create .list, false⟩ ∉ cs →
      w'.client.CurrentTransfer.nCmd = some cmd → ListSays cmd w w' cs
  | failed {pre : List Reply} : Announces cmd pre → w'.replies = w.replies ++ pre →
      ⟨.pthread_create .list, false⟩ ∈ cs → ⟨.pthread_create .list, true⟩ ∉ cs →
      ListSays cmd w w' cs

theorem list_begins {cmd : Cmd} {pszCmdArg : Option Text}
    (h : Does env (cmdList cfg cmd pszCmdArg) w u w' cs) : ListSays cmd w w' cs := by
  have hreply : ∀ {w₁ : World} {r : Reply}, w₁.replies = w.replies → r.isFinal = true →
      Does env (sendReply r) w₁ u w' cs → ListSays cmd w w' cs := by
    intro w₁ r hsame hr h
    obtain ⟨rfl, rfl⟩ := h.of_reply
    exact .answered (oneFinal_single.mpr hr) (by rw [← hsame]) (by simp)
  have h₁ := h.of_client
  by_cases hwait : w.client.eStatus = .waiting
  · rw [if_neg (by simp [hwait])] at h₁
    obtain ⟨found, w₁, cs₁, cs₂, hstat, h₂, rfl⟩ := h₁.of_modify.of_bind
    obtain ⟨hw₁, rfl, -⟩ := statPath_does hstat
    have hsame : w₁.replies = w.replies := by rw [hw₁]
    rw [List.nil_append] at hreply ⊢
    cases found with
    | none => exact hreply hsame rfl h₂
    | some a =>
        obtain ⟨opened, w₂, cs₃, cs₄, hopen, h₃, rfl⟩ := h₂.of_modify.of_bind
        obtain ⟨hcancels, pre, hreplies, hends⟩ := openListing_announces hopen
        have hreplies₂ : w₂.replies = w.replies ++ pre := hreplies.trans (by rw [← hsame])
        obtain ⟨rfl, hpre⟩ | ⟨rfl, hone⟩ := hends
        · obtain ⟨ok, w₃, cs₅, cs₆, hstart, hret, rfl⟩ := Does.of_bind (Does.of_modify h₃)
          obtain ⟨-, rfl, rfl⟩ := hret.of_ret
          have hreplies₃ : w'.replies = w.replies ++ pre :=
            (hstart.silent (silent_startTransfer .list)).trans hreplies₂
          rw [List.append_nil]
          obtain ⟨-, rfl, -, hclient⟩ | ⟨-, -, cs', honly, rfl⟩ := startTransfer_does hstart
          · refine .started hpre hreplies₃ (by simp) ?_ (by rw [hclient])
            simp [hcancels.not_create]
          · refine .failed hpre hreplies₃ (by simp) ?_
            simp [hcancels.not_create, honly.not_create]
        · obtain ⟨-, rfl, rfl⟩ := Does.of_ret h₃
          rw [List.append_nil]
          exact .answered hone hreplies₂ fun ok => hcancels.not_create .list ok
  · rw [if_pos hwait] at h₁
    exact hreply rfl rfl h₁

/-- The thread of a listing. -/
theorem listTransfer_replies (h : Does env listTransfer w u w' cs) :
    w'.replies = w.replies ++ [listReply w.client.CurrentTransfer.nCmd] ∧ cs = [] := by
  obtain ⟨u₁, w₁, cs₁, cs₂, hread, h₁, rfl⟩ := h.of_client.of_bind
  have hsame : w₁.client = w.client ∧ w₁.replies = w.replies ∧ cs₁ = [] := by
    unfold onlyIf at hread
    by_cases hdir : ¬ (w.client.CurrentTransfer.options.opt_d = true ∨
        (w.client.CurrentTransfer.st.any fun st => S_ISDIR st.st_mode) = false)
    · rw [if_pos hdir] at hread
      obtain ⟨names, w₂, cs₃, cs₄, hlist, hret, rfl⟩ := hread.of_bind
      obtain ⟨-, hw₂, rfl⟩ := hlist.of_redis
      obtain ⟨-, rfl, rfl⟩ := hret.of_ret
      rw [hw₂]
      exact ⟨rfl, rfl, rfl⟩
    · rw [if_neg hdir] at hread
      obtain ⟨-, rfl, rfl⟩ := hread.of_ret
      exact ⟨rfl, rfl, rfl⟩
  obtain ⟨hclient, hreplies, rfl⟩ := hsame
  have h₂ := h₁.of_client
  rw [← hclient, ← hreplies]
  unfold listReply
  by_cases hstat : w₁.client.CurrentTransfer.nCmd = some .stat
  · rw [if_pos hstat] at h₂ ⊢
    obtain ⟨rfl, rfl⟩ := h₂.of_reply
    exact ⟨rfl, rfl⟩
  · rw [if_neg hstat] at h₂ ⊢
    obtain ⟨rfl, rfl⟩ := h₂.of_reply
    exact ⟨rfl, rfl⟩

/-! ### A line and its thread -/

variable {db db' : Redis} {hs hs' : List Call} {rs' : List Reply} {pszCmdArg : Option Text}
  {d : Later}

/-- The thread finds its data connection and its transfer as the line has left them; the rest may
have changed. -/
structure World.Hands (w v : World) : Prop where
  eDataConnection : v.client.eDataConnection = w.client.eDataConnection
  CurrentTransfer : v.client.CurrentTransfer = w.client.CurrentTransfer

/-- What goes on between a line and its thread, and what the thread is answered. -/
structure Later where
  world : World → World
  env : Env
  hands : ∀ w : World, w.Hands (world w)

/-- **A line that comes to its end**, with the thread that it has started: what the thread finds in
Redis, and the calls and the replies of both. -/
inductive Handled (cfg : Config) (env : Env) (d : Later) (w : World) (nCmd : Option Cmd)
    (pszCmdArg : Option Text) : Redis → List Call → List Reply → Prop where
  | alone {w' : World} {rs : List Reply} :
      run (serveShell env) (dispatch cfg nCmd pszCmdArg) w = .done .continue w' →
      w'.replies = w.replies ++ rs →
      (∀ thread, ⟨.pthread_create thread, true⟩ ∉ lineCalls env (dispatch cfg nCmd pszCmdArg) w) →
      Handled cfg env d w nCmd pszCmdArg (d.world w').db
        (lineCalls env (dispatch cfg nCmd pszCmdArg) w) rs
  | transfer {w' v : World} {thread : TransferThread} {rs rs' : List Reply} {cs : List Call} :
      run (serveShell env) (dispatch cfg nCmd pszCmdArg) w = .done .continue w' →
      w'.replies = w.replies ++ rs →
      ⟨.pthread_create thread, true⟩ ∈ lineCalls env (dispatch cfg nCmd pszCmdArg) w →
      Does d.env (thread.body cfg) (d.world w') () v cs →
      v.replies = (d.world w').replies ++ rs' →
      Handled cfg env d w nCmd pszCmdArg (d.world w').db
        (lineCalls env (dispatch cfg nCmd pszCmdArg) w ++ cs) (rs ++ rs')

/-- The line and its thread come to their end, and the command has been answered once. -/
def AnsweredOnce (cfg : Config) (env : Env) (d : Later) (w : World) (nCmd : Option Cmd)
    (pszCmdArg : Option Text) : Prop :=
  ∃ db hs rs, Handled cfg env d w nCmd pszCmdArg db hs rs ∧
    Complete (w.client.eStatus ≠ .waiting) nCmd rs

/-- `PASV` is answered once: without a `PRET` its socket calls work; behind one there is a slave,
and its reply is final. -/
def World.AnswersPasv (w : World) (cfg : Config) (env : Env) (hs : List Call) : Prop :=
  match w.client.nPRET_CMD with
  | none => w.Listens cfg env
  | some cmd => ¬ (cmd = .stor ∧ cfg.Slaves = []) ∧ ∀ c ∈ hs, c.EndsFinal

/-- An upload that is asked for has a path and is answered once. -/
def World.AnswersStore (w : World) (cfg : Config) (env : Env) (hs : List Call) (cmd : UploadCmd)
    (pszCmdArg : Option Text) : Prop :=
  w.client.checkPrivileges WRITEFILE = true ∧ (pszCmdArg.isSome = true ∨ cmd = .stou) →
    w.Names env cmd pszCmdArg ∧ AnswersTransfer w .store (cfg.Slaves ≠ []) hs

/-- **The lines that get their final reply.** -/
def World.Answers (w : World) (cfg : Config) (env : Env) (db : Redis) (hs : List Call)
    (pszCmdArg : Option Text) : Option Cmd → Prop
  | some .pass => w.client.AnswersPass pszCmdArg
  | some .pasv => w.client.bIsLogged = true → w.client.eStatus = .waiting → w.AnswersPasv cfg env hs
  | some .list | some .nlst | some .stat => ⟨.pthread_create .list, false⟩ ∉ hs
  | some .retr => ∀ path, w.client.checkPrivileges READFILE = true ∧ w.FetchesSome pszCmdArg path →
      AnswersTransfer w .retrieve (Fetchable cfg path db) hs
  | some .stor => w.AnswersStore cfg env hs .stor pszCmdArg
  | some .appe => w.AnswersStore cfg env hs .appe pszCmdArg
  | some .stou => w.AnswersStore cfg env hs .stou pszCmdArg
  | _ => True

/-- The commands that start a thread. -/
theorem Started.transfers {thread : TransferThread} (h : Started w w' nCmd thread cs) :
    ∃ cmd, nCmd = some cmd ∧ (cmd.lists = true ∨ cmd.isTransfer = true) := by
  cases h with
  | list hcmd _ _ _ =>
      refine ⟨_, rfl, .inl ?_⟩
      obtain rfl | rfl | rfl := hcmd <;> rfl
  | retrieve _ _ _ => exact ⟨_, rfl, .inr rfl⟩
  | store hcmd _ _ _ =>
      refine ⟨_, rfl, .inr ?_⟩
      obtain rfl | rfl | rfl := hcmd <;> rfl

/-- The thread is that of the command. -/
theorem Started.own {thread : TransferThread} {cmd : Cmd}
    (h : Started w w' (some cmd) thread cs) : (cmd.lists = true → thread = .list) ∧
      (cmd = .retr → thread = .retrieve) ∧ (cmd.uploads = true → thread = .store) := by
  cases h with
  | list hcmd _ _ _ => obtain rfl | rfl | rfl := hcmd <;> simp [Cmd.uploads]
  | retrieve _ _ _ => simp [Cmd.lists, Cmd.uploads]
  | store hcmd _ _ _ => obtain rfl | rfl | rfl := hcmd <;> simp [Cmd.lists]

theorem Started.unique {thread thread' : TransferThread} (h : Started w w' nCmd thread cs)
    (h' : Started w w' nCmd thread' cs) : thread = thread' := by
  obtain ⟨cmd, rfl, -⟩ := h.transfers
  cases h with
  | list hcmd _ _ _ =>
      refine (h'.own.1 ?_).symm
      obtain rfl | rfl | rfl := hcmd <;> rfl
  | retrieve _ _ _ => exact (h'.own.2.1 rfl).symm
  | store hcmd _ _ _ =>
      refine (h'.own.2.2 ?_).symm
      obtain rfl | rfl | rfl := hcmd <;> rfl

/-- The thread has the data connection of the line. -/
theorem Started.connection {thread : TransferThread} (h : Started w w' nCmd thread cs) :
    w'.client.eDataConnection = w.client.eDataConnection := by
  cases h with
  | list _ _ hview _ => exact congrArg TransferView.eDataConnection hview
  | retrieve _ hview _ => exact congrArg TransferView.eDataConnection hview
  | store _ _ hview _ => exact congrArg TransferView.eDataConnection hview

/-- A command without transfers starts no thread. -/
theorem Handled.line (hcmd : ∀ cmd, nCmd = some cmd → cmd.lists = false ∧ cmd.isTransfer = false)
    (h : Handled cfg env d w nCmd pszCmdArg db hs rs) : ∃ w',
      run (serveShell env) (dispatch cfg nCmd pszCmdArg) w = .done .continue w' ∧
        w'.replies = w.replies ++ rs ∧ hs = lineCalls env (dispatch cfg nCmd pszCmdArg) w := by
  cases h with
  | alone hrun hreplies _ => exact ⟨_, hrun, hreplies, rfl⟩
  | transfer hrun _ hstart _ _ =>
      obtain ⟨cmd, hsome, hkind⟩ := ((dataTurn_of_run hrun).of_started hstart).transfers
      obtain ⟨hlists, htransfer⟩ := hcmd cmd hsome
      rw [hlists, htransfer] at hkind
      simp at hkind

/-- A line and its thread are handled in one way only. -/
theorem Handled.unique (h : Handled cfg env d w nCmd pszCmdArg db hs rs)
    (h' : Handled cfg env d w nCmd pszCmdArg db' hs' rs') : rs = rs' := by
  have hsame : ∀ {w₁ w₂ : World} {rs₁ rs₂ : List Reply},
      run (serveShell env) (dispatch cfg nCmd pszCmdArg) w = .done .continue w₁ →
      run (serveShell env) (dispatch cfg nCmd pszCmdArg) w = .done .continue w₂ →
      w₁.replies = w.replies ++ rs₁ → w₂.replies = w.replies ++ rs₂ → w₁ = w₂ ∧ rs₁ = rs₂ := by
    intro w₁ w₂ rs₁ rs₂ hrun hrun' hreplies hreplies'
    have hend : w₁ = w₂ := (Outcome.done.inj (hrun.symm.trans hrun')).2
    rw [hend] at hreplies
    exact ⟨hend, List.append_cancel_left (hreplies.symm.trans hreplies')⟩
  cases h with
  | alone hrun hreplies hno =>
      cases h' with
      | alone hrun' hreplies' _ => exact (hsame hrun hrun' hreplies hreplies').2
      | transfer _ _ hstart' _ _ => exact absurd hstart' (hno _)
  | transfer hrun hreplies hstart hthread hsaid =>
      cases h' with
      | alone _ _ hno' => exact absurd hstart (hno' _)
      | transfer hrun' hreplies' hstart' hthread' hsaid' =>
          obtain ⟨rfl, rfl⟩ := hsame hrun hrun' hreplies hreplies'
          have hown := ((dataTurn_of_run hrun).of_started hstart).unique
            ((dataTurn_of_run hrun).of_started hstart')
          subst hown
          have hend := (Outcome.done.inj (hthread.ends.symm.trans hthread'.ends)).2
          rw [hend] at hsaid
          rw [List.append_cancel_left (hsaid.symm.trans hsaid')]

/-- Behind the login gate: the command, or one refusal. -/
theorem gated_line {cmd : Cmd} {next : Next}
    (hnot : cmd ∉ [Cmd.quit, .user, .pass, .cwd, .xcwd, .cdup, .xcup])
    (hrun : run (serveShell env) (dispatch cfg (some cmd) pszCmdArg) w = .done next w') :
    (w.client.bIsLogged = false ∧ lineCalls env (dispatch cfg (some cmd) pszCmdArg) w = [] ∧
      w'.replies = w.replies ++ [.line 530 "Please login with USER and PASS."]) ∨
      (w.client.bIsLogged = true ∧ Does env (shellCmd cfg cmd pszCmdArg) w () w'
        (lineCalls env (dispatch cfg (some cmd) pszCmdArg) w)) := by
  cases hlogged : w.client.bIsLogged with
  | true => exact .inr ⟨rfl, does_of_dispatch hnot hlogged hrun⟩
  | false =>
      simp only [List.mem_cons, List.not_mem_nil, or_false, not_or] at hnot
      obtain ⟨hquit, huser, hpass, -⟩ := hnot
      refine .inl ⟨rfl, (line_not_logged hlogged hrun).2, ?_⟩
      rw [gate_line hquit huser hpass hlogged hrun]

/-! ### The commands -/

/-- A command that is answered at once. -/
theorem plain_complete (hplain : ∀ cmd, nCmd = some cmd → cmd.plain = true)
    (h : Handled cfg env d w nCmd pszCmdArg db hs rs) : Complete busy nCmd rs := by
  obtain ⟨w', hrun, hreplies, -⟩ := h.line fun cmd hcmd => by
    have hkind := hplain cmd hcmd
    cases cmd <;> first | exact ⟨rfl, rfl⟩ | cases hkind
  have hpass : nCmd ≠ some .pass := fun hcmd => by cases hplain _ hcmd
  have hline : SaysLine (dispatch cfg nCmd pszCmdArg) fun _ xs => Concludes xs :=
    line_gated pszCmdArg (fun _ hxs => hxs) hpass
      fun cmd hcmd => concludes_shellCmd (hplain cmd hcmd) pszCmdArg
  have hconcludes := hline.run hrun
  have hsaid := replies_said env (dispatch cfg nCmd pszCmdArg) w
  rw [hrun] at hsaid
  have hrs : rs = (said env (dispatch cfg nCmd pszCmdArg) w).filterMap Said.reply? :=
    List.append_cancel_left (hreplies.symm.trans hsaid)
  rw [hrs]
  exact .once hconcludes.oneFinal

theorem pass_complete (h : Handled cfg env d w (some .pass) pszCmdArg db hs rs) :
    Complete busy (some .pass) rs ↔ w.client.AnswersPass pszCmdArg := by
  obtain ⟨w', hrun, hreplies, -⟩ := h.line fun cmd hcmd => by
    rw [← Option.some.inj hcmd]
    exact ⟨rfl, rfl⟩
  obtain ⟨rs', hreplies', hone⟩ := pass_answers hrun
  have hrs : rs = rs' := List.append_cancel_left (hreplies.symm.trans hreplies')
  rw [complete_iff (by simp) (by simp), hrs]
  exact hone

theorem pasv_complete (h : Handled cfg env d w (some .pasv) pszCmdArg db hs rs) :
    Complete busy (some .pasv) rs ↔ (w.client.bIsLogged = true → w.client.eStatus = .waiting →
      w.AnswersPasv cfg env hs) := by
  obtain ⟨w', hrun, hreplies, rfl⟩ := h.line fun cmd hcmd => by
    rw [← Option.some.inj hcmd]
    exact ⟨rfl, rfl⟩
  rw [complete_iff (by simp) (by simp)]
  have hrs : ∀ {rs'}, w'.replies = w.replies ++ rs' → rs = rs' :=
    fun hreplies' => List.append_cancel_left (hreplies.symm.trans hreplies')
  obtain ⟨hlogged, -, hrefused⟩ | ⟨hlogged, hdoes⟩ := gated_line (by simp) hrun
  · rw [hrs hrefused]
    refine iff_of_true (oneFinal_single.mpr rfl) fun hin => ?_
    rw [hlogged] at hin
    cases hin
  · have h₁ : Does env (if w.client.eStatus = .waiting then _ else _) w () w' _ := hdoes.of_client
    by_cases hwait : w.client.eStatus = .waiting
    · rw [if_pos hwait] at h₁
      have hshould : (w.client.bIsLogged = true → w.client.eStatus = .waiting →
          w.AnswersPasv cfg env (lineCalls env (dispatch cfg (some .pasv) pszCmdArg) w)) ↔
            w.AnswersPasv cfg env (lineCalls env (dispatch cfg (some .pasv) pszCmdArg) w) :=
        ⟨fun h => h hlogged hwait, fun h _ _ => h⟩
      rw [hshould]
      unfold World.AnswersPasv
      cases hpret : w.client.nPRET_CMD with
      | none =>
          rw [hpret] at h₁
          obtain ⟨rs', hreplies', hone⟩ := pasvLocal_replies h₁
          rw [hrs hreplies']
          exact hone
      | some cmd =>
          rw [hpret] at h₁
          obtain ⟨rs', hreplies', hone⟩ := pasvRemote_replies h₁
          rw [hrs hreplies']
          exact hone
    · rw [if_neg hwait] at h₁
      obtain ⟨hend, -⟩ := h₁.of_reply
      have hrefused : w'.replies = w.replies ++ [.line 425 "You're already connected."] := by
        rw [hend]
      rw [hrs hrefused]
      exact iff_of_true (oneFinal_single.mpr rfl) fun _ hw => absurd hw hwait

theorem abor_complete (h : Handled cfg env d w (some .abor) pszCmdArg db hs rs) :
    Complete (w.client.eStatus ≠ .waiting) (some .abor) rs := by
  obtain ⟨w', hrun, hreplies, -⟩ := h.line fun cmd hcmd => by
    rw [← Option.some.inj hcmd]
    exact ⟨rfl, rfl⟩
  have hrs : ∀ {rs'}, w'.replies = w.replies ++ rs' → rs = rs' :=
    fun hreplies' => List.append_cancel_left (hreplies.symm.trans hreplies')
  obtain ⟨-, -, hrefused⟩ | ⟨-, hdoes⟩ := gated_line (by simp) hrun
  · rw [hrs hrefused]
    exact .once (oneFinal_single.mpr rfl)
  · obtain ⟨rs', hreplies', hcomplete⟩ := abor_replies hdoes
    rw [hrs hreplies']
    exact hcomplete

/-- The line of a listing. -/
theorem listLine_begins {cmd : Cmd} (hcmd : cmd.lists = true)
    (hrun : run (serveShell env) (dispatch cfg (some cmd) pszCmdArg) w = .done .continue w') :
    ListSays cmd w w' (lineCalls env (dispatch cfg (some cmd) pszCmdArg) w) := by
  have hnot : cmd ∉ [Cmd.quit, .user, .pass, .cwd, .xcwd, .cdup, .xcup] := by
    intro hmem
    simp only [List.mem_cons, List.not_mem_nil, or_false] at hmem
    obtain rfl | rfl | rfl | rfl | rfl | rfl | rfl := hmem <;> cases hcmd
  have hprivilege : ∀ {cs : List Call},
      Does env (withPrivilege LIST (cmdList cfg cmd pszCmdArg)) w () w' cs →
        ListSays cmd w w' cs := by
    intro cs h
    have h₁ := h.of_client
    by_cases hpriv : w.client.checkPrivileges LIST = true
    · rw [if_pos hpriv] at h₁
      exact list_begins h₁
    · rw [if_neg hpriv] at h₁
      obtain ⟨rfl, rfl⟩ := h₁.of_reply
      exact .answered (oneFinal_single.mpr rfl) rfl (by simp)
  obtain ⟨-, hnil, hrefused⟩ | ⟨-, hdoes⟩ := gated_line hnot hrun
  · rw [hnil]
    exact .answered (oneFinal_single.mpr rfl) hrefused (by simp)
  · generalize lineCalls env (dispatch cfg (some cmd) pszCmdArg) w = cs at hdoes ⊢
    cases cmd with
    | list => exact hprivilege hdoes
    | nlst => exact hprivilege hdoes
    | stat =>
        have h : Does env (if pszCmdArg = none then _ else _) w () w' cs := hdoes
        by_cases harg : pszCmdArg = none
        · rw [if_pos harg] at h
          obtain ⟨rfl, rfl⟩ := h.of_reply
          exact .answered (oneFinal_single.mpr rfl) rfl (by simp)
        · rw [if_neg harg] at h
          exact hprivilege h
    | _ => cases hcmd

theorem list_complete {cmd : Cmd} (hcmd : cmd.lists = true)
    (h : Handled cfg env d w (some cmd) pszCmdArg db hs rs) :
    Complete busy (some cmd) rs ↔ ⟨.pthread_create .list, false⟩ ∉ hs := by
  cases h with
  | alone hrun hreplies hno =>
      have hrs : ∀ {rs'}, _ = w.replies ++ rs' → rs = rs' :=
        fun hreplies' => List.append_cancel_left (hreplies.symm.trans hreplies')
      cases listLine_begins hcmd hrun with
      | answered hone hreplies' hnone =>
          rw [hrs hreplies']
          exact iff_of_true (.once hone) (hnone false)
      | started _ _ hstart _ _ => exact absurd hstart (hno .list)
      | failed hpre hreplies' hfailed _ =>
          rw [hrs hreplies']
          exact iff_of_false (hpre.not_complete hcmd) fun hok => hok hfailed
  | @transfer w₁ v thread rs₁ rs' cs hrun hreplies hstart hthread hsaid =>
      have hrs : ∀ {rs₂}, w₁.replies = w.replies ++ rs₂ → rs₁ = rs₂ :=
        fun hreplies' => List.append_cancel_left (hreplies.symm.trans hreplies')
      have hlist : thread = .list := ((dataTurn_of_run hrun).of_started hstart).own.1 hcmd
      subst hlist
      obtain ⟨hlast, rfl⟩ := listTransfer_replies hthread
      cases listLine_begins hcmd hrun with
      | answered _ _ hnone => exact absurd hstart (hnone true)
      | failed _ _ _ hno => exact absurd hstart hno
      | started hpre hreplies' _ hcreated hlisted =>
          have hrs' : rs' = [listReply (some cmd)] := by
            rw [← hlisted, ← (d.hands w₁).CurrentTransfer]
            exact List.append_cancel_left (hsaid.symm.trans hlast)
          rw [hrs hreplies', hrs', List.append_nil]
          exact iff_of_true hpre.complete hcreated

/-- The line of a `RETR`, and the file that its thread has. -/
theorem retrLine_begins
    (hrun : run (serveShell env) (dispatch cfg (some .retr) pszCmdArg) w = .done .continue w') :
    ∃ rs, w'.replies = w.replies ++ rs ∧
      LineSays w .retrieve (w.client.checkPrivileges READFILE = true ∧
        ∃ path, w.FetchesSome pszCmdArg path) True
          (lineCalls env (dispatch cfg (some .retr) pszCmdArg) w) rs ∧
      (⟨.pthread_create .retrieve, true⟩ ∈ lineCalls env (dispatch cfg (some .retr) pszCmdArg) w →
        w.FetchesSome pszCmdArg w'.client.CurrentTransfer.szPath) := by
  obtain ⟨hlogged, hnil, hrefused⟩ | ⟨-, hdoes⟩ := gated_line (by simp) hrun
  · rw [hnil]
    refine ⟨_, hrefused, .refused (fun hasked => ?_) rfl, fun hmem => absurd hmem List.not_mem_nil⟩
    rw [Client.checkPrivileges, hlogged] at hasked
    exact absurd hasked.1 (by simp)
  · exact privileged_begins (fun v => w.FetchesSome pszCmdArg v.client.CurrentTransfer.szPath)
      retrieve_begins hdoes

theorem retr_complete (h : Handled cfg env d w (some .retr) pszCmdArg db hs rs) :
    Complete busy (some .retr) rs ↔ ∀ path,
      w.client.checkPrivileges READFILE = true ∧ w.FetchesSome pszCmdArg path →
        AnswersTransfer w .retrieve (Fetchable cfg path db) hs := by
  rw [complete_iff (by simp) (by simp)]
  -- the argument names one path at most
  have hpath : ∀ {path : Text} {P : Text → Prop}, w.FetchesSome pszCmdArg path →
      ((∀ path, w.client.checkPrivileges READFILE = true ∧ w.FetchesSome pszCmdArg path → P path) ↔
        ((w.client.checkPrivileges READFILE = true ∧ ∃ path, w.FetchesSome pszCmdArg path) →
          True ∧ P path)) := by
    intro path P hfetches
    constructor
    · exact fun h hasked => ⟨trivial, h path ⟨hasked.1, hfetches⟩⟩
    · intro h path' hboth
      rw [← hfetches.unique hboth.2]
      exact (h ⟨hboth.1, path, hfetches⟩).2
  cases h with
  | alone hrun hreplies hno =>
      obtain ⟨rs', hreplies', hbegins, -⟩ := retrLine_begins hrun
      have hrs : rs = rs' := List.append_cancel_left (hreplies.symm.trans hreplies')
      rw [hrs]
      by_cases hsome : ∃ path, w.FetchesSome pszCmdArg path
      · obtain ⟨path, hfetches⟩ := hsome
        rw [hpath hfetches]
        exact hbegins.alone _ (hno .retrieve)
      · rw [hbegins.alone True (hno .retrieve)]
        refine iff_of_true (fun hasked => absurd hasked.2 hsome) fun path hboth => ?_
        exact absurd ⟨path, hboth.2⟩ hsome
  | @transfer w₁ v thread rs₁ rs₂ cs hrun hreplies hstart hthread hsaid =>
      have hstarted := (dataTurn_of_run hrun).of_started hstart
      have hown : thread = .retrieve := hstarted.own.2.1 rfl
      subst hown
      obtain ⟨rs', hreplies', hbegins, hfile⟩ := retrLine_begins hrun
      have hrs : rs₁ = rs' := List.append_cancel_left (hreplies.symm.trans hreplies')
      obtain ⟨rs₃, hreplies₃, hturn⟩ := retrieveTransfer_does hthread
      have hrs₂ : rs₂ = rs₃ := List.append_cancel_left (hsaid.symm.trans hreplies₃)
      have hends := hturn.ends
      rw [(d.hands w₁).eDataConnection, hstarted.connection, (d.hands w₁).CurrentTransfer] at hends
      rw [hrs, hrs₂, hpath (hfile hstart)]
      exact hbegins.transfer hstart hends

/-- The line of an upload. -/
theorem storeLine_begins {cmd : UploadCmd} (hrun : run (serveShell env)
      (dispatch cfg (some cmd.nCmd) pszCmdArg) w = .done .continue w') :
    ∃ rs, w'.replies = w.replies ++ rs ∧
      LineSays w .store (w.client.checkPrivileges WRITEFILE = true ∧
        (pszCmdArg.isSome = true ∨ cmd = .stou)) (w.Names env cmd pszCmdArg)
          (lineCalls env (dispatch cfg (some cmd.nCmd) pszCmdArg) w) rs := by
  have hnot : cmd.nCmd ∉ [Cmd.quit, .user, .pass, .cwd, .xcwd, .cdup, .xcup] := by
    cases cmd <;> decide
  obtain ⟨hlogged, hnil, hrefused⟩ | ⟨-, hdoes⟩ := gated_line hnot hrun
  · rw [hnil]
    refine ⟨_, hrefused, .refused (fun hasked => ?_) rfl⟩
    rw [Client.checkPrivileges, hlogged] at hasked
    exact absurd hasked.1 (by simp)
  · have hgate : Does env (withPrivilege WRITEFILE (discard (cmdStore cmd pszCmdArg))) w () w'
        (lineCalls env (dispatch cfg (some cmd.nCmd) pszCmdArg) w) := by
      cases cmd with
      | stor => exact hdoes
      | appe => exact hdoes
      | stou => exact hdoes
    have hstore : ∀ {cs}, Does env (discard (cmdStore cmd pszCmdArg)) w () w' cs →
        ∃ rs, w'.replies = w.replies ++ rs ∧
          LineSays w .store (pszCmdArg.isSome = true ∨ cmd = .stou) (w.Names env cmd pszCmdArg)
            cs rs ∧ (⟨.pthread_create .store, true⟩ ∈ cs → True) := by
      intro cs h
      obtain ⟨ok, w₁, cs₁, cs₂, hstore, hret, rfl⟩ := h.of_bind
      obtain ⟨-, rfl, rfl⟩ := hret.of_ret
      obtain ⟨rs, hreplies, hbegins⟩ := store_begins hstore
      rw [List.append_nil]
      exact ⟨rs, hreplies, hbegins, fun _ => trivial⟩
    obtain ⟨rs, hreplies, hbegins, -⟩ := privileged_begins (fun _ => True) hstore hgate
    exact ⟨rs, hreplies, hbegins⟩

theorem store_complete (cmd : UploadCmd)
    (h : Handled cfg env d w (some cmd.nCmd) pszCmdArg db hs rs) :
    Complete busy (some cmd.nCmd) rs ↔ w.AnswersStore cfg env hs cmd pszCmdArg := by
  have hother : some cmd.nCmd ≠ some .abor ∧ some cmd.nCmd ≠ some .stat := by
    cases cmd <;> decide
  rw [complete_iff hother.1 hother.2]
  unfold World.AnswersStore
  cases h with
  | alone hrun hreplies hno =>
      obtain ⟨rs', hreplies', hbegins⟩ := storeLine_begins hrun
      have hrs : rs = rs' := List.append_cancel_left (hreplies.symm.trans hreplies')
      rw [hrs]
      exact hbegins.alone _ (hno .store)
  | @transfer w₁ v thread rs₁ rs₂ cs hrun hreplies hstart hthread hsaid =>
      have hstarted := (dataTurn_of_run hrun).of_started hstart
      have hown : thread = .store := hstarted.own.2.2 (by cases cmd <;> rfl)
      subst hown
      obtain ⟨rs', hreplies', hbegins⟩ := storeLine_begins hrun
      have hrs : rs₁ = rs' := List.append_cancel_left (hreplies.symm.trans hreplies')
      obtain ⟨rs₃, hreplies₃, hends⟩ := (storeTransfer_does hthread).ends
      have hrs₂ : rs₂ = rs₃ := List.append_cancel_left (hsaid.symm.trans hreplies₃)
      rw [(d.hands w₁).eDataConnection, hstarted.connection] at hends
      rw [hrs, hrs₂]
      exact hbegins.transfer hstart hends

/-! ### The lines -/

/-- What is said by a line that comes to its end, and by its thread. -/
theorem handled_complete_iff (h : Handled cfg env d w nCmd pszCmdArg db hs rs) :
    Complete (w.client.eStatus ≠ .waiting) nCmd rs ↔ w.Answers cfg env db hs pszCmdArg nCmd := by
  have hplain : (∀ cmd, nCmd = some cmd → cmd.plain = true) →
      (Complete (w.client.eStatus ≠ .waiting) nCmd rs ↔ True) :=
    fun hplain => iff_of_true (plain_complete hplain h) trivial
  cases nCmd with
  | none => exact hplain (by simp)
  | some cmd =>
      cases cmd with
      | pass => exact pass_complete h
      | pasv => exact pasv_complete h
      | abor => exact iff_of_true (abor_complete h) trivial
      | list => exact list_complete rfl h
      | nlst => exact list_complete rfl h
      | stat => exact list_complete rfl h
      | retr => exact retr_complete h
      | stor => exact store_complete .stor h
      | appe => exact store_complete .appe h
      | stou => exact store_complete .stou h
      | _ =>
          refine hplain fun cmd hcmd => ?_
          rw [← Option.some.inj hcmd]
          rfl

/-- **One final reply.**  A line and its thread come to their end, with preliminary replies and then
one final reply, or with `426` and `226` for an `ABOR` during a transfer, if and only if they come
to their end and the line is one of those of `Answers`. -/
theorem one_final_reply_iff (cfg : Config) (env : Env) (d : Later) (w : World)
    (nCmd : Option Cmd) (pszCmdArg : Option Text) :
    AnsweredOnce cfg env d w nCmd pszCmdArg ↔ ∃ db hs rs,
      Handled cfg env d w nCmd pszCmdArg db hs rs ∧ w.Answers cfg env db hs pszCmdArg nCmd := by
  constructor
  · intro h
    obtain ⟨db, hs, rs, hhandled, hcomplete⟩ := h
    exact ⟨db, hs, rs, hhandled, (handled_complete_iff hhandled).mp hcomplete⟩
  · intro h
    obtain ⟨db, hs, rs, hhandled, hanswers⟩ := h
    exact ⟨db, hs, rs, hhandled, (handled_complete_iff hhandled).mpr hanswers⟩

/-! ### A download without a data connection, and one with `PORT` -/

/-- The thread runs right behind its line, in the same surroundings. -/
def Later.now (env : Env) : Later where
  world := id
  env := env
  hands := fun _ => ⟨rfl, rfl⟩

/-- A command, and its thread right behind it. -/
theorem handled_of_does {cmd : Cmd} (thread : TransferThread) {v : World} {cs' : List Call}
    {rs' : List Reply} (hnot : cmd ∉ [Cmd.quit, .user, .pass, .cwd, .xcwd, .cdup, .xcup])
    (hlogged : w.client.bIsLogged = true)
    (hline : Does env (shellCmd cfg cmd pszCmdArg) w () w' cs) (hsilent : w'.replies = w.replies)
    (hstart : ⟨.pthread_create thread, true⟩ ∈ cs)
    (hthread : Does env (thread.body cfg) w' () v cs') (hsaid : v.replies = w'.replies ++ rs') :
    Handled cfg env (.now env) w (some cmd) pszCmdArg w'.db (cs ++ cs') rs' := by
  obtain ⟨hrun, hcalls⟩ := line_of_does hnot hlogged hline
  rw [← hcalls] at hstart ⊢
  have hreplies : w'.replies = w.replies ++ [] := by
    rw [hsilent, List.append_nil]
  exact .transfer hrun hreplies hstart hthread hsaid

/-- The guest sends `RETR /a` without `PORT` or `PASV`: the thread ends with an empty line. -/
theorem no_final_reply :
    Handled oneSlave .willing (.now .willing) (guestWorld twoFiles) (some .retr)
      (some "/a".toList) twoFiles [⟨.pthread_create .retrieve, true⟩] [.empty] ∧
    ¬ AnsweredOnce oneSlave .willing (.now .willing) (guestWorld twoFiles) (some .retr)
      (some "/a".toList) := by
  have hline : Does .willing (shellCmd oneSlave .retr (some "/a".toList)) (guestWorld twoFiles) ()
      (guestWorld twoFiles).retrieving [⟨.pthread_create .retrieve, true⟩] := by
    refine ⟨?_, ?_⟩
    · show run _ (statPath (Client.buildPath _ (some "/a".toList)) >>= _) _ = _
      rw [guest_a rfl]
      rfl
    · show trace _ _ (statPath (Client.buildPath _ (some "/a".toList)) >>= _) _ = _
      rw [guest_a rfl]
      rfl
  have hthread : ∃ v, Does .willing (retrieveTransfer oneSlave) (guestWorld twoFiles).retrieving ()
      v [] ∧ v.replies = (guestWorld twoFiles).retrieving.replies ++ [.empty] :=
    ⟨_, ⟨rfl, rfl⟩, rfl⟩
  obtain ⟨v, hthread, hsaid⟩ := hthread
  have hhandled := handled_of_does .retrieve (by simp) rfl hline rfl (by simp) hthread hsaid
  refine ⟨hhandled, fun honce => ?_⟩
  obtain ⟨db, hs, rs, hhandled', hcomplete⟩ := honce
  rw [hhandled'.unique hhandled, complete_iff (by simp) (by simp)] at hcomplete
  exact absurd (oneFinal_single.mp hcomplete) (by decide)

/-- The guest sends `PORT` and then `RETR /a`: the slave is called, and its reply is the last one,
behind that of the thread. -/
theorem one_final_reply_ported :
    AnsweredOnce oneSlave .willing (.now .willing) portedWorld (some .retr) (some "/a".toList) := by
  obtain ⟨-, -, -, hline, -⟩ := retr_ported
  have hthread : ∃ v slave p, Does .willing (retrieveTransfer oneSlave) portedWorld.retrieving () v
      [⟨.activeRetrieveTransfer slave p, .reply (.line 226 "Transfer complete")⟩] ∧
        v.replies = portedWorld.retrieving.replies ++
          [.line 150 "Opening data channel.", .line 226 "Transfer complete"] :=
    ⟨_, _, _, ⟨rfl, rfl⟩, rfl⟩
  obtain ⟨v, slave, p, hthread, hsaid⟩ := hthread
  have hhandled := handled_of_does .retrieve (by simp) rfl hline rfl (by simp) hthread hsaid
  refine (one_final_reply_iff _ _ _ _ _ _).mpr ⟨_, _, _, hhandled, ?_⟩
  intro path hasked
  obtain ⟨-, arg, harg, st, hpath, -⟩ := hasked
  rw [Option.some.injEq] at harg
  rw [← harg, guest_a rfl, Option.some.injEq] at hpath
  subst hpath
  refine ⟨by decide, fun _ => ⟨⟨List.cons_ne_nil _ _, fun fid hask => ?_⟩, by simp⟩, by simp, ?_⟩
  · have hheld : ask (lookupFid "/a".toList) twoFiles = some 1 := rfl
    have hfid : (1 : ℤ) = fid := Option.some.inj (hheld.symm.trans hask)
    omega
  · intro c hc
    simp only [List.cons_append, List.nil_append, List.mem_cons, List.not_mem_nil, or_false] at hc
    obtain rfl | rfl := hc
    · trivial
    · exact (rfl : Reply.isFinal (.line 226 "Transfer complete") = true)

end ClusterFtpd
