import ClusterFtpd.Downloads
import ClusterFtpd.SessionReplies

/-!
# The replies to a transfer

`OneFinal` are preliminary replies of code 1xx and a final one.  `StartEnds` lists what `RETR`,
`STOR`, `APPE` and `STOU` say before their thread, and `ThreadEnds` what the thread says.

Main results:

* `StartEnds.alone`: what is said without a thread is one final reply if and only if
  `AnswersTransfer` holds;
* `StartEnds.transfer`: the same for a command and its thread.
-/

namespace ClusterFtpd

open Interaction MachineInt

/-! ### One final reply -/

/-- Preliminary replies, and a final one. -/
def OneFinal (rs : List Reply) : Prop :=
  ∃ pre r, rs = pre ++ [r] ∧ (∀ p ∈ pre, p.isPreliminary = true) ∧ r.isFinal = true

section OneFinal

variable {r : Reply} {rs pre : List Reply}

theorem preliminary_not_final (h : r.isPreliminary = true) : r.isFinal = false := by
  cases r with
  | line code text =>
      have hcode : (decide (100 ≤ code) && decide (code < 200)) = true := h
      rw [Bool.and_eq_true, decide_eq_true_eq, decide_eq_true_eq] at hcode
      have hlow : decide (200 ≤ code) = false := decide_eq_false (by omega)
      show (decide (200 ≤ code) && decide (code ≤ 599)) = false
      rw [hlow]
      rfl
  | multiline code text => cases h
  | empty => cases h

theorem not_oneFinal_nil : ¬ OneFinal [] := by
  intro h
  obtain ⟨pre, r, heq, -⟩ := h
  exact absurd heq (by simp)

theorem oneFinal_single : OneFinal [r] ↔ r.isFinal = true := by
  constructor
  · intro h
    obtain ⟨pre, r', heq, -, hr⟩ := h
    cases pre with
    | nil =>
        rw [List.nil_append, List.cons.injEq] at heq
        rw [heq.1]
        exact hr
    | cons p pre => simp at heq
  · exact fun hr => ⟨[], r, rfl, by simp, hr⟩

theorem oneFinal_cons (hrs : rs ≠ []) :
    OneFinal (r :: rs) ↔ r.isPreliminary = true ∧ OneFinal rs := by
  constructor
  · intro h
    obtain ⟨pre, r', heq, hpre, hr⟩ := h
    cases pre with
    | nil =>
        rw [List.nil_append, List.cons.injEq] at heq
        exact absurd heq.2 hrs
    | cons p pre =>
        rw [List.cons_append, List.cons.injEq] at heq
        obtain ⟨rfl, rfl⟩ := heq
        exact ⟨hpre _ List.mem_cons_self, pre, r', rfl,
          fun p hp => hpre p (List.mem_cons_of_mem _ hp), hr⟩
  · intro h
    obtain ⟨hfirst, pre, r', rfl, hpre, hr⟩ := h
    refine ⟨r :: pre, r', rfl, ?_, hr⟩
    intro p hp
    obtain rfl | hp := List.mem_cons.mp hp
    · exact hfirst
    · exact hpre p hp

/-- Preliminary replies in front. -/
theorem oneFinal_append (hpre : ∀ p ∈ pre, p.isPreliminary = true) :
    OneFinal (pre ++ rs) ↔ OneFinal rs := by
  induction pre with
  | nil => exact Iff.rfl
  | cons p pre ih =>
      have hp := hpre p List.mem_cons_self
      have hrest := ih fun q hq => hpre q (List.mem_cons_of_mem p hq)
      by_cases hnil : pre ++ rs = []
      · obtain ⟨rfl, rfl⟩ := List.append_eq_nil_iff.mp hnil
        refine iff_of_false ?_ not_oneFinal_nil
        intro h
        have hfinal := oneFinal_single.mp h
        rw [preliminary_not_final hp] at hfinal
        exact absurd hfinal (by decide)
      · rw [List.cons_append, oneFinal_cons hnil, hrest]
        exact and_iff_right hp

/-- Two replies, where the first is no preliminary one. -/
theorem not_oneFinal_twice {r' : Reply} (hr : r.isPreliminary = false) : ¬ OneFinal [r, r'] := by
  intro htwo
  rw [oneFinal_cons (by simp), hr] at htwo
  exact absurd htwo.1 (by decide)

/-- An empty line is never right. -/
theorem not_oneFinal_empty : ¬ OneFinal (rs ++ [.empty]) := by
  intro h
  obtain ⟨pre, r, heq, -, hr⟩ := h
  obtain ⟨-, hlast⟩ := List.append_inj' heq rfl
  rw [List.cons.injEq] at hlast
  rw [← hlast.1] at hr
  exact absurd hr (by decide)

end OneFinal

/-! ### Transfers -/

variable {cfg : Config} {env : Env} {w w' : World} {cs cs' hs hs' : List Call}
  {rs rs' pre : List Reply} {thread : TransferThread} {served : Prop} {u : Unit}

/-- What a slave says in the place of a last reply is a final reply. -/
def Call.EndsFinal : Call → Prop
  | ⟨.initPasvDataConnection _ _ _ _, .reply r⟩ => r.isFinal = true
  | ⟨.activeStoreTransfer _ _ _, .reply r⟩ => r.msg.isFinal = true
  | ⟨.pasvStoreTransfer _ _ _, .reply r⟩ => r.msg.isFinal = true
  | ⟨.activeRetrieveTransfer _ _, .reply r⟩ => r.isFinal = true
  | ⟨.pasvRetrieveTransfer _ _, .reply r⟩ => r.isFinal = true
  | _ => True

/-- **A transfer is answered once**: there is a data connection; an active one finds its slave and
its thread; the answer of a slave to `OpenPasvDataConnection` is preliminary, or final where no
thread follows; and the message about the transfer is final. -/
structure AnswersTransfer (w : World) (thread : TransferThread) (served : Prop) (hs : List Call) :
    Prop where
  connected : w.client.eDataConnection ≠ .none
  active : w.client.eDataConnection = .port → served ∧ ⟨.pthread_create thread, false⟩ ∉ hs
  opened : ∀ slave p r, ⟨.openPasvDataConnection slave p, .reply r⟩ ∈ hs →
    (⟨.pthread_create thread, false⟩ ∈ hs → r.isFinal = true) ∧
      (⟨.pthread_create thread, false⟩ ∉ hs → r.isPreliminary = true)
  ended : ∀ c ∈ hs, c.EndsFinal

/-- What a command says before its transfer thread. -/
inductive StartEnds (w : World) (thread : TransferThread) (pre : List Reply) :
    List Call → List Reply → Prop where
  | unopened : w.client.eDataConnection = .pasv →
      StartEnds w thread pre [w.view.opening .exception]
        (pre ++ [.line 425 "Can't open data connection."])
  | started {os : List Reply} {cs : List Call} : w.view.Relays cs os →
      StartEnds w thread pre (cs ++ [⟨.pthread_create thread, true⟩]) (pre ++ os)
  | failed {os : List Reply} {cs cs' : List Call} : w.view.Relays cs os → OnlyCancels cs' →
      StartEnds w thread pre (cs ++ ⟨.pthread_create thread, false⟩ :: cs') (pre ++ os)

/-- What a transfer thread calls and says, with this data connection. -/
inductive ThreadEnds (conn : DataConnection) (served : Prop) : List Call → List Reply → Prop where
  | idle (rs : List Reply) : conn = .none ∨ conn = .port ∧ ¬ served →
      ThreadEnds conn served [] (rs ++ [.empty])
  | refused {r : Reply} : conn = .pasv → r.isFinal = true → ThreadEnds conn served [] [r]
  | asked (pre : List Reply) {r : Reply} {c : Call} : conn = .pasv ∨ conn = .port ∧ served →
      (∀ p ∈ pre, p.isPreliminary = true) → c.op.part = some .transferring →
      (c.EndsFinal ↔ r.isFinal = true) → ThreadEnds conn served [c] (pre ++ [r])

theorem onlyCancels_endsFinal (h : OnlyCancels cs) : ∀ c ∈ cs, c.EndsFinal := by
  intro c hc
  have hop := h c hc
  obtain ⟨op, res⟩ := c
  have hcancel : op = .pthread_cancel := hop
  subst hcancel
  trivial

section Thread

variable {conn : DataConnection}

/-- The thread only makes the transfer call. -/
theorem ThreadEnds.not_mem (h : ThreadEnds conn served cs rs) (o : SysOp) (r : o.Res)
    (ho : o.part ≠ some .transferring) : ⟨o, r⟩ ∉ cs := by
  intro hmem
  cases h with
  | idle _ _ => exact absurd hmem List.not_mem_nil
  | refused _ _ => exact absurd hmem List.not_mem_nil
  | asked _ _ _ hpart _ =>
      rw [← List.mem_singleton.mp hmem] at hpart
      exact ho hpart

theorem ThreadEnds.ne_nil (h : ThreadEnds conn served cs rs) : rs ≠ [] := by
  cases h <;> simp

/-- **A thread is answered once** if and only if it has a data connection, with its slave and its
file if that is active, and the message of the slave is final. -/
theorem ThreadEnds.oneFinal_iff (h : ThreadEnds conn served cs rs) : OneFinal rs ↔
    (conn = .pasv ∨ conn = .port ∧ served) ∧ ∀ c ∈ cs, c.EndsFinal := by
  cases h with
  | idle _ hidle =>
      refine iff_of_false not_oneFinal_empty fun hserved => ?_
      obtain hnone | ⟨hport, hno⟩ := hidle
      · simp [hnone] at hserved
      · simp [hport, hno] at hserved
  | refused hpasv hr => exact iff_of_true (oneFinal_single.mpr hr) ⟨.inl hpasv, by simp⟩
  | asked _ hserved hpre _ hends =>
      rw [oneFinal_append hpre, oneFinal_single, ← hends]
      simp [hserved]

end Thread

theorem opening_reply {v : TransferView} {slave : SlaveInfo} {p : PasvParams} {r r' : Reply}
    (h : (⟨.openPasvDataConnection slave p, .reply r'⟩ : Call) = v.opening (.reply r)) :
    r' = r := by
  rw [TransferView.opening, Call.mk.injEq] at h
  obtain ⟨heq, hres⟩ := h
  rw [SysOp.openPasvDataConnection.injEq] at heq
  obtain ⟨rfl, rfl⟩ := heq
  exact RpcResult.reply.inj (eq_of_heq hres)

/-- A transfer over a passive connection that the slave has answered for with `r`. -/
theorem answersTransfer_passive {r : Reply} (hpasv : w.client.eDataConnection = .pasv)
    (hmem : w.view.opening (.reply r) ∈ hs)
    (honly : ∀ slave p r', ⟨.openPasvDataConnection slave p, .reply r'⟩ ∈ hs → r' = r) :
    AnswersTransfer w thread served hs ↔
      ((⟨.pthread_create thread, false⟩ ∈ hs → r.isFinal = true) ∧
        (⟨.pthread_create thread, false⟩ ∉ hs → r.isPreliminary = true)) ∧
          ∀ c ∈ hs, c.EndsFinal := by
  constructor
  · exact fun h => ⟨h.opened _ _ r hmem, h.ended⟩
  · intro h
    refine ⟨by simp [hpasv], fun hport => ?_, ?_, h.2⟩
    · rw [hpasv] at hport
      cases hport
    · intro slave p r' hr'
      rw [honly slave p r' hr']
      exact h.1

/-- A transfer without a passive connection. -/
theorem answersTransfer_direct (hconn : w.client.eDataConnection ≠ .pasv)
    (hnone : ∀ slave p r, ⟨.openPasvDataConnection slave p, .reply r⟩ ∉ hs) :
    AnswersTransfer w thread served hs ↔ (w.client.eDataConnection = .port ∧ served) ∧
      ⟨.pthread_create thread, false⟩ ∉ hs ∧ ∀ c ∈ hs, c.EndsFinal := by
  constructor
  · intro h
    have hport : w.client.eDataConnection = .port := by
      cases hcase : w.client.eDataConnection with
      | none => exact absurd hcase h.connected
      | port => rfl
      | pasv => exact absurd hcase hconn
    obtain ⟨hserved, hcreated⟩ := h.active hport
    exact ⟨⟨hport, hserved⟩, hcreated, h.ended⟩
  · intro h
    obtain ⟨⟨hport, hserved⟩, hcreated, hended⟩ := h
    exact ⟨by simp [hport], fun _ => ⟨hserved, hcreated⟩,
      fun slave p r hmem => absurd hmem (hnone slave p r), hended⟩

/-- The slave does not answer: the command says so. -/
theorem answersTransfer_unopened (hpasv : w.client.eDataConnection = .pasv) :
    AnswersTransfer w thread served [w.view.opening .exception] := by
  refine ⟨by simp [hpasv], fun hport => ?_, ?_, ?_⟩
  · rw [hpasv] at hport
    cases hport
  · intro slave p r hmem
    exact absurd hmem (by simp [TransferView.opening])
  · intro c hc
    rw [List.mem_singleton.mp hc]
    trivial

/-- The thread cannot be created: the reply to the passive connection is the only one. -/
theorem failed_answers {os : List Reply} (hrelays : w.view.Relays cs os)
    (honly : OnlyCancels cs') : OneFinal os ↔
      AnswersTransfer w thread served (cs ++ ⟨.pthread_create thread, false⟩ :: cs') := by
  have hfailed : (⟨.pthread_create thread, false⟩ : Call) ∈
      cs ++ ⟨.pthread_create thread, false⟩ :: cs' :=
    List.mem_append_right _ List.mem_cons_self
  have hnone : ∀ slave p r, (⟨.openPasvDataConnection slave p, .reply r⟩ : Call) ∉
      ⟨.pthread_create thread, false⟩ :: cs' := by
    intro slave p r hmem
    obtain heq | hmem := List.mem_cons.mp hmem
    · cases heq
    · exact absurd (honly _ hmem) (by simp)
  cases hrelays with
  | direct hconn =>
      rw [List.nil_append, answersTransfer_direct hconn hnone]
      exact iff_of_false not_oneFinal_nil fun hanswers => hanswers.2.1 hfailed
  | relayed r hconn =>
      have hone : ∀ slave p r', (⟨.openPasvDataConnection slave p, .reply r'⟩ : Call) ∈
          [w.view.opening (.reply r)] ++ ⟨.pthread_create thread, false⟩ :: cs' → r' = r := by
        intro slave p r' hmem
        obtain heq | hmem := List.mem_cons.mp hmem
        · exact opening_reply heq
        · exact absurd hmem (hnone slave p r')
      rw [answersTransfer_passive hconn (List.mem_append_left _ List.mem_cons_self) hone,
        oneFinal_single]
      constructor
      · intro hr
        refine ⟨⟨fun _ => hr, fun hno => absurd hfailed hno⟩, ?_⟩
        intro c hc
        obtain rfl | hc := List.mem_cons.mp hc
        · trivial
        · obtain rfl | hc := List.mem_cons.mp hc
          · trivial
          · exact onlyCancels_endsFinal honly c hc
      · exact fun hanswers => hanswers.1.1 hfailed

/-- Without a thread: one reply, or none. -/
theorem StartEnds.alone (served : Prop) (h : StartEnds w thread pre cs rs)
    (hpre : ∀ p ∈ pre, p.isPreliminary = true) (hno : ⟨.pthread_create thread, true⟩ ∉ cs) :
    OneFinal rs ↔ AnswersTransfer w thread served cs := by
  cases h with
  | unopened hpasv =>
      rw [oneFinal_append hpre]
      exact iff_of_true (oneFinal_single.mpr rfl) (answersTransfer_unopened hpasv)
  | started _ => exact absurd (List.mem_append_right _ List.mem_cons_self) hno
  | failed hrelays honly =>
      rw [oneFinal_append hpre]
      exact failed_answers hrelays honly

/-- A command whose thread is not created does not create it. -/
theorem TransferView.Relays.not_started {v : TransferView} {os : List Reply}
    (h : v.Relays cs os) (honly : OnlyCancels cs') :
    ⟨.pthread_create thread, true⟩ ∉ cs ++ ⟨.pthread_create thread, false⟩ :: cs' := by
  intro hmem
  rw [List.mem_append, List.mem_cons] at hmem
  obtain hmem | hmem | hmem := hmem
  · exact h.opens.not_create _ _ hmem
  · cases hmem
  · exact honly.not_create _ _ hmem

/-- With its thread: the reply of the slave to the connection, and what the thread says. -/
theorem StartEnds.transfer (h : StartEnds w thread pre cs rs)
    (hpre : ∀ p ∈ pre, p.isPreliminary = true) (hstart : ⟨.pthread_create thread, true⟩ ∈ cs)
    (hthread : ThreadEnds w.client.eDataConnection served cs' rs') :
    OneFinal (rs ++ rs') ↔ AnswersTransfer w thread served (cs ++ cs') := by
  have hcreate : ∀ ok, ⟨.pthread_create thread, ok⟩ ∉ cs' :=
    fun ok => hthread.not_mem (.pthread_create thread) ok (by simp [SysOp.part])
  have hopen : ∀ slave p r, ⟨.openPasvDataConnection slave p, .reply r⟩ ∉ cs' :=
    fun slave p r => hthread.not_mem (.openPasvDataConnection slave p) _ (by simp [SysOp.part])
  cases h with
  | unopened _ => exact absurd hstart (by simp [TransferView.opening])
  | failed hrelays honly => exact absurd hstart (hrelays.not_started honly)
  | @started os cs₁ hrelays =>
      rw [List.append_assoc, oneFinal_append hpre]
      cases hrelays with
      | direct hconn =>
          rw [answersTransfer_direct hconn ?_, List.nil_append, hthread.oneFinal_iff]
          · have hkind : (w.client.eDataConnection = .pasv ∨
                w.client.eDataConnection = .port ∧ served) ↔
                w.client.eDataConnection = .port ∧ served := or_iff_right hconn
            rw [hkind]
            simp [hcreate, Call.EndsFinal]
          · simp [hopen]
      | relayed r hconn =>
          have hpasv : w.client.eDataConnection = .pasv := hconn
          rw [answersTransfer_passive (r := r) hconn (by simp) ?_, List.singleton_append,
            oneFinal_cons hthread.ne_nil, hthread.oneFinal_iff]
          · simp [hpasv, hcreate, Call.EndsFinal, TransferView.opening]
          · intro slave p r' hmem
            simp only [List.cons_append, List.nil_append, List.mem_cons] at hmem
            obtain heq | heq | hmem := hmem
            · exact opening_reply heq
            · cases heq
            · exact absurd hmem (hopen slave p r')

/-- What a transfer command says before its thread: it is `asked` for a transfer, and has a file
for it when it is `named`. -/
inductive LineSays (w : World) (thread : TransferThread) (asked named : Prop) :
    List Call → List Reply → Prop where
  | refused {r : Reply} : ¬ asked → r.isFinal = true → LineSays w thread asked named [] [r]
  | unnamed : asked → ¬ named → LineSays w thread asked named [] []
  | begun (pre : List Reply) {rs : List Reply} {cs : List Call} : asked → named →
      (∀ p ∈ pre, p.isPreliminary = true) → StartEnds w thread pre cs rs →
      LineSays w thread asked named cs rs

variable {asked named : Prop}

/-- **A transfer command without its thread** is answered once if and only if it is not asked for a
transfer, or has a file and answers it. -/
theorem LineSays.alone (served : Prop) (h : LineSays w thread asked named cs rs)
    (hno : ⟨.pthread_create thread, true⟩ ∉ cs) :
    OneFinal rs ↔ (asked → named ∧ AnswersTransfer w thread served cs) := by
  cases h with
  | refused hasked hr => exact iff_of_true (oneFinal_single.mpr hr) fun h => absurd h hasked
  | unnamed hasked hnamed =>
      exact iff_of_false not_oneFinal_nil fun h => hnamed (h hasked).1
  | begun _ hasked hnamed hpre hstarts =>
      rw [hstarts.alone served hpre hno]
      exact ⟨fun h _ => ⟨hnamed, h⟩, fun h => (h hasked).2⟩

/-- **A transfer command and its thread.** -/
theorem LineSays.transfer (h : LineSays w thread asked named cs rs)
    (hstart : ⟨.pthread_create thread, true⟩ ∈ cs)
    (hthread : ThreadEnds w.client.eDataConnection served cs' rs') :
    OneFinal (rs ++ rs') ↔ (asked → named ∧ AnswersTransfer w thread served (cs ++ cs')) := by
  cases h with
  | refused _ _ => exact absurd hstart List.not_mem_nil
  | unnamed _ _ => exact absurd hstart List.not_mem_nil
  | begun _ hasked hnamed hpre hstarts =>
      rw [hstarts.transfer hpre hstart hthread]
      exact ⟨fun h _ => ⟨hnamed, h⟩, fun h => (h hasked).2⟩

/-- Behind a privilege. -/
theorem privileged_begins (kept : World → Prop) {ucPriv : ℕ} {body : CommandProg Unit}
    (hbody : Does env body w () w' cs → ∃ rs, w'.replies = w.replies ++ rs ∧
      LineSays w thread asked named cs rs ∧ (⟨.pthread_create thread, true⟩ ∈ cs → kept w'))
    (h : Does env (withPrivilege ucPriv body) w () w' cs) : ∃ rs, w'.replies = w.replies ++ rs ∧
      LineSays w thread (w.client.checkPrivileges ucPriv = true ∧ asked) named cs rs ∧
        (⟨.pthread_create thread, true⟩ ∈ cs → kept w') := by
  have h₁ := h.of_client
  by_cases hpriv : w.client.checkPrivileges ucPriv = true
  · rw [if_pos hpriv] at h₁
    obtain ⟨rs, hreplies, hbegins, hkept⟩ := hbody h₁
    refine ⟨rs, hreplies, ?_, hkept⟩
    cases hbegins with
    | refused hasked hr => exact .refused (fun hboth => hasked hboth.2) hr
    | unnamed hasked hnamed => exact .unnamed ⟨hpriv, hasked⟩ hnamed
    | begun pre hasked hnamed hpre hstarts =>
        exact .begun pre ⟨hpriv, hasked⟩ hnamed hpre hstarts
  · rw [if_neg hpriv] at h₁
    obtain ⟨rfl, rfl⟩ := h₁.of_reply
    refine ⟨_, rfl, .refused (fun hboth => hpriv hboth.1) rfl, ?_⟩
    exact fun hmem => absurd hmem List.not_mem_nil

/-! ### Downloads -/

/-- An argument that names a file. -/
def World.FetchesSome (w : World) (pszCmdArg : Option Text) (path : Text) : Prop :=
  ∃ arg, pszCmdArg = some arg ∧ w.Fetches arg path

theorem World.FetchesSome.unique {pszCmdArg : Option Text} {path path' : Text}
    (h : w.FetchesSome pszCmdArg path) (h' : w.FetchesSome pszCmdArg path') : path = path' := by
  obtain ⟨arg, rfl, st, hpath, -⟩ := h
  obtain ⟨arg', harg, st', hpath', -⟩ := h'
  rw [Option.some.injEq] at harg
  subst harg
  rw [hpath, Option.some.injEq] at hpath'
  exact hpath'

/-- What `RETR` says before its thread, which has the file of the line. -/
theorem retrieve_begins {pszCmdArg : Option Text}
    (h : Does env (withArg pszCmdArg "Syntax error in arguments." cmdRetr) w u w' cs) :
    ∃ rs, w'.replies = w.replies ++ rs ∧
      LineSays w .retrieve (∃ path, w.FetchesSome pszCmdArg path) True cs rs ∧
        (⟨.pthread_create .retrieve, true⟩ ∈ cs →
          w.FetchesSome pszCmdArg w'.client.CurrentTransfer.szPath) := by
  cases pszCmdArg with
  | none =>
      have h₁ : Does env (sendReply _) w u w' cs := h
      obtain ⟨rfl, rfl⟩ := h₁.of_reply
      refine ⟨_, rfl, .refused (fun hasked => ?_) rfl, fun hmem => absurd hmem List.not_mem_nil⟩
      obtain ⟨path, arg, harg, -⟩ := hasked
      cases harg
  | some arg =>
      have hfetches : ∀ {path : Text}, w.Fetches arg path →
          ∃ path, w.FetchesSome (some arg) path := fun hpath => ⟨_, arg, rfl, hpath⟩
      have h₁ : Does env (cmdRetr arg) w u w' cs := h
      cases retrieveLine_does h₁ with
      | refused hno hreplies =>
          refine ⟨_, hreplies, .refused (fun hasked => ?_) rfl,
            fun hmem => absurd hmem List.not_mem_nil⟩
          obtain ⟨path, arg', harg, hpath⟩ := hasked
          rw [Option.some.injEq] at harg
          subst harg
          exact hno path hpath
      | unopened hpath hpasv hreplies =>
          refine ⟨_, hreplies, .begun [] (hfetches hpath) trivial (by simp)
            (.unopened hpasv), fun hmem => ?_⟩
          exact absurd hmem (by simp [TransferView.opening])
      | started hpath hrelays hclient hreplies =>
          refine ⟨_, hreplies, .begun [] (hfetches hpath) trivial (by simp)
            (.started hrelays), fun _ => ?_⟩
          rw [hclient]
          exact ⟨arg, rfl, hpath⟩
      | failed hpath hrelays honly hreplies =>
          refine ⟨_, hreplies, .begun [] (hfetches hpath) trivial (by simp)
            (.failed hrelays honly), fun hmem => ?_⟩
          exact absurd hmem (hrelays.not_started honly)

/-- An active download has its slaves and its file. -/
def Fetchable (cfg : Config) (path : Text) (db : Redis) : Prop :=
  cfg.Slaves ≠ [] ∧ ∀ fid, ask (lookupFid path) db = some fid → 0 ≤ fid

theorem RetrieveTurn.ends (h : RetrieveTurn cfg w cs rs) : ThreadEnds w.client.eDataConnection
    (Fetchable cfg w.client.CurrentTransfer.szPath w.db) cs rs := by
  have hserved : ∀ {fid : ℤ}, ask (lookupFid w.client.CurrentTransfer.szPath) w.db = some fid →
      (Fetchable cfg w.client.CurrentTransfer.szPath w.db ↔ cfg.Slaves ≠ [] ∧ 0 ≤ fid) := by
    intro fid hask
    refine and_congr_right fun _ => ⟨fun h => h fid hask, ?_⟩
    intro hfid fid' hask'
    rw [hask, Option.some.injEq] at hask'
    rw [← hask']
    exact hfid
  cases h with
  | unconnected hconn => exact .idle [] (.inl hconn)
  | unheld hport hask hno =>
      rw [← hserved hask] at hno
      exact .idle [] (.inr ⟨hport, hno⟩)
  | @active fid slave p answer hport hask hsource hanswer =>
      rw [← hserved hask] at hsource
      refine .asked [_] (.inr ⟨hport, hsource⟩) ?_ rfl ?_
      · intro q hq
        rw [List.mem_singleton.mp hq]
        rfl
      · cases answer with
        | reply r => exact Iff.rfl
        | exception => exact iff_of_true trivial rfl
        | noReturn => exact absurd rfl hanswer
  | unnamed hpasv => exact .refused hpasv rfl
  | @passive slave p answer hpasv hanswer =>
      refine .asked [] (.inl hpasv) (by simp) rfl ?_
      cases answer with
      | reply r => exact Iff.rfl
      | exception => exact iff_of_true trivial rfl
      | noReturn => exact absurd rfl hanswer

/-! ### Uploads -/

/-- The last reply to an upload that has been asked for. -/
theorem UploadEnd.replied {fid : ℤ} {slave : SlaveInfo} {answer : RpcResult StorRetVal}
    {msg : Option Reply} (h : UploadEnd fid slave w w' answer msg) :
    ∃ r : Reply, w'.replies ++ msg.toList = w.replies ++ [r] ∧
      (∀ p iflags, Call.EndsFinal ⟨.activeStoreTransfer slave p iflags, answer⟩ ↔
        r.isFinal = true) ∧
      ∀ p iflags, Call.EndsFinal ⟨.pasvStoreTransfer slave p iflags, answer⟩ ↔
        r.isFinal = true := by
  cases h with
  | exception _ _ hreplies =>
      refine ⟨.line 550 "Can't store file.", ?_, ?_, ?_⟩
      · rw [hreplies]
        exact List.append_nil _
      · exact fun _ _ => iff_of_true trivial rfl
      · exact fun _ _ => iff_of_true trivial rfl
  | unrecorded retval _ _ _ hreplies =>
      refine ⟨retval.msg, ?_, fun _ _ => Iff.rfl, fun _ _ => Iff.rfl⟩
      rw [hreplies]
      rfl
  | recorded retval _ _ _ _ _ _ _ hreplies =>
      refine ⟨retval.msg, ?_, fun _ _ => Iff.rfl, fun _ _ => Iff.rfl⟩
      rw [hreplies]
      rfl

theorem StoreTurn.ends (h : StoreTurn cfg w w' cs) : ∃ rs, w'.replies = w.replies ++ rs ∧
    ThreadEnds w.client.eDataConnection (cfg.Slaves ≠ []) cs rs := by
  cases h with
  | unconnected hconn _ _ hreplies =>
      exact ⟨_, hreplies, .idle [] (.inl hconn)⟩
  | noSlaves hport hslaves _ _ hreplies =>
      exact ⟨_, hreplies, .idle [_] (.inr ⟨hport, fun hne => hne hslaves⟩)⟩
  | active hport hslave _ _ hreplies₁ hend _ _ hreplies =>
      obtain ⟨r, hlast, hfinal, -⟩ := hend.replied
      refine ⟨[.line 150 "Opening data channel."] ++ [r], ?_, ?_⟩
      · rw [hreplies, hlast, hreplies₁, List.append_assoc]
      · refine .asked [_] (.inr ⟨hport, List.ne_nil_of_mem hslave⟩) ?_ rfl (hfinal _ _)
        intro q hq
        rw [List.mem_singleton.mp hq]
        rfl
  | unnamed hpasv _ _ _ _ hreplies => exact ⟨_, hreplies, .refused hpasv rfl⟩
  | passive hpasv _ _ _ hreplies₁ hend _ _ hreplies =>
      obtain ⟨r, hlast, -, hfinal⟩ := hend.replied
      refine ⟨[] ++ [r], ?_, .asked [] (.inl hpasv) (by simp) rfl (hfinal _ _)⟩
      rw [hreplies, hlast, hreplies₁]
      rfl

/-- The name that `STOU` makes up. -/
def stouName (r : ℕ) : Text := "file.".toList ++ (toString (r % 9999999)).toList

/-- The upload has a path; that of `STOU` is made up, and must be free. -/
def World.Names (w : World) (env : Env) (cmd : UploadCmd) (pszCmdArg : Option Text) : Prop :=
  if cmd = .stou then
    ∃ path, w.client.buildPath (some (stouName (env w.clock .rand))) = some path ∧
      ask (stat path) w.db = some none
  else w.client.buildPath pszCmdArg ≠ none

/-- A path is chosen if and only if there is one. -/
theorem uploadPath_names {cmd : UploadCmd} {pszCmdArg path : Option Text}
    (h : Does env (uploadPath cmd pszCmdArg) w path w' cs) :
    path = none ↔ ¬ w.Names env cmd pszCmdArg := by
  have h₁ := h.of_client
  unfold World.Names
  by_cases hstou : cmd = .stou
  · rw [if_pos hstou]
    rw [hstou] at h₁
    have h₂ := h₁.of_sys rfl
    have hname : "file.".toList ++ (toString (env w.clock .rand % 9999999)).toList =
      stouName (env w.clock .rand) := rfl
    dsimp only at h₂
    rw [hname] at h₂
    generalize stouName (env w.clock .rand) = szName at h₂ ⊢
    cases hbuild : w.client.buildPath (some szName) with
    | none =>
        rw [hbuild] at h₂
        obtain ⟨rfl, -, -⟩ := h₂.of_ret
        simp
    | some built =>
        rw [hbuild] at h₂
        obtain ⟨st, w₁, cs₁, cs₂, hstat, h₃, -⟩ := Does.of_bind h₂
        obtain ⟨hask, rfl, -⟩ := hstat.of_stat
        have hask' : ask (stat built) w.db = some st := hask
        cases st with
        | some st =>
            obtain ⟨rfl, -, -⟩ := h₃.of_ret
            simp [hask']
        | none =>
            obtain ⟨rfl, -, -⟩ := h₃.of_sendReply.of_ret
            simp [hask']
  · rw [if_neg hstou]
    have h₂ : Does env (.ret (w.client.buildPath pszCmdArg)) w path w' cs := by
      cases cmd with
      | stor => exact h₁
      | appe => exact h₁
      | stou => exact absurd rfl hstou
    obtain ⟨rfl, -, -⟩ := h₂.of_ret
    exact not_not.symm

theorem UploadName.preliminary {cmd : UploadCmd} {pszCmdArg : Option Text} {path : Text}
    (h : UploadName cmd pszCmdArg w path pre) : ∀ p ∈ pre, p.isPreliminary = true := by
  cases h with
  | asked _ _ => simp
  | made szName _ _ _ =>
      intro q hq
      rw [List.mem_singleton.mp hq]
      rfl

theorem startStore_ends {cmd : UploadCmd} {path : Text} {ok : Bool}
    (h : Does env (startStore cmd path) w ok w' cs) : w'.replies = w.replies ∧
      (cs = [⟨.pthread_create .store, true⟩] ∨
        ∃ cs', OnlyCancels cs' ∧ cs = ⟨.pthread_create .store, false⟩ :: cs') := by
  obtain ⟨u, w₁, cs₁, cs₂, happend, h₁, rfl⟩ := h.of_modify.of_bind
  obtain ⟨rfl, -, hreplies, -⟩ := append_does happend (rfl : _ = w.db) rfl
  have hsilent := h₁.of_modify.silent (silent_startTransfer .store)
  refine ⟨hsilent.trans hreplies, ?_⟩
  rw [List.nil_append]
  obtain ⟨-, rfl, -, -⟩ | ⟨-, -, cs', honly, rfl⟩ := startTransfer_does h₁.of_modify
  · exact .inl rfl
  · exact .inr ⟨cs', honly, rfl⟩

/-- What `STOR`, `APPE` and `STOU` say before their thread. -/
theorem store_begins {cmd : UploadCmd} {pszCmdArg : Option Text} {ok : Bool}
    (h : Does env (cmdStore cmd pszCmdArg) w ok w' cs) : ∃ rs, w'.replies = w.replies ++ rs ∧
      LineSays w .store (pszCmdArg.isSome = true ∨ cmd = .stou) (w.Names env cmd pszCmdArg)
        cs rs := by
  unfold cmdStore at h
  by_cases harg : pszCmdArg.isSome = true ∨ cmd = .stou
  · rw [if_pos harg] at h
    obtain ⟨path, w₁, cs₁, cs₂, hpath, h₁, rfl⟩ := h.of_bind
    have hnames := uploadPath_names hpath
    obtain ⟨rfl, hclient₁, -, pre, hreplies₁, hnil, hname⟩ := uploadPath_does hpath
    rw [List.nil_append]
    cases path with
    | none =>
        obtain ⟨-, rfl, rfl⟩ := h₁.of_ret
        refine ⟨_, ?_, .unnamed harg (hnames.mp rfl)⟩
        rw [hreplies₁, hnil rfl]
    | some path =>
        have hnamed : w.Names env cmd pszCmdArg := by
          by_contra hno
          exact absurd (hnames.mpr hno) (by simp)
        have hpre := (hname path rfl).preliminary
        obtain ⟨opened, w₂, cs₃, cs₄, hopen, h₂, rfl⟩ := h₁.of_bind
        obtain ⟨-, -, hends⟩ := openSlaveConnection_relays hopen
        have hview : w₁.view = w.view := by
          unfold World.view
          rw [hclient₁]
        rw [hview, hclient₁] at hends
        obtain ⟨rfl, os, hrelays, hreplies₂⟩ | ⟨rfl, hpasv, rfl, hreplies₂⟩ := hends
        · have h₃ : Does env (startStore cmd path) w₂ ok w' cs₄ := h₂
          obtain ⟨hreplies₃, hstarts⟩ := startStore_ends h₃
          refine ⟨pre ++ os, ?_, ?_⟩
          · rw [hreplies₃, hreplies₂, hreplies₁, List.append_assoc]
          · obtain rfl | ⟨cs', honly, rfl⟩ := hstarts
            · exact .begun pre harg hnamed hpre (.started hrelays)
            · exact .begun pre harg hnamed hpre (.failed hrelays honly)
        · obtain ⟨-, rfl, rfl⟩ := h₂.of_ret
          refine ⟨_, ?_, .begun pre harg hnamed hpre (.unopened hpasv)⟩
          rw [hreplies₂, hreplies₁, List.append_assoc]
  · rw [if_neg harg] at h
    obtain ⟨-, rfl, rfl⟩ := h.of_sendReply.of_ret
    exact ⟨_, rfl, .refused harg rfl⟩

end ClusterFtpd
