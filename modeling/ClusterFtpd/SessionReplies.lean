import ClusterFtpd.LiveSession
import ClusterFtpd.Replies
import ClusterFtpd.Retrieve
import Mathlib.Algebra.Order.BigOperators.Group.List

/-!
# The replies of a session

A session with its transfer threads, in any interleaving: every line is answered by one last reply,
of the control thread or of the transfer thread that the line has started.  A transfer thread owes
its last reply until it has sent it; `ABOR` pays with a 426 for the thread that it cancels.

Main result:

* `replies_balanced`: as long as no line is irregular, there are as many last replies as lines, but
  for those that threads still owe.
-/

namespace ClusterFtpd

open Interaction MachineInt

/-! ### What a thread owes -/

/-- The last replies of an operation. -/
def weighs : (o : CommandOp) → o.Res → ℕ
  | .sendReply r, _ => if r.isLast = true then 1 else 0
  | .redis _, _ => 0
  | .client, _ => 0
  | .modify _, _ => 0
  | .sys _, _ => 0

/-- The slave ends a transfer with a last reply. -/
def Call.Closes : Call → Prop
  | ⟨.activeStoreTransfer _ _ _, .reply r⟩ => r.msg.isLast = true
  | ⟨.pasvStoreTransfer _ _ _, .reply r⟩ => r.msg.isLast = true
  | ⟨.activeRetrieveTransfer _ _, .reply r⟩ => r.isLast = true
  | ⟨.pasvRetrieveTransfer _ _, .reply r⟩ => r.isLast = true
  | _ => True

/-- The assumption on the answers. -/
def Closing : (o : CommandOp) → o.Res → Prop
  | .sys o, r => Call.Closes ⟨o, r⟩
  | .sendReply _, _ => True
  | .redis _, _ => True
  | .client, _ => True
  | .modify _, _ => True

/-- The thread still owes `n` last replies. -/
def OwesLast (p : CommandProg Unit) (n : ℕ) : Prop := Owes Closing weighs (fun _ m => m = 0) p n

/-- With a message to send one reply is owed, and without one none. -/
def Pending (msg : Option Reply) (n : ℕ) : Prop :=
  msg = none ∧ n = 0 ∨ ∃ r, msg = some r ∧ r.isLast = true ∧ n = 1

abbrev OwesMsg (p : CommandProg (Option Reply)) (n : ℕ) : Prop := Owes Closing weighs Pending p n

section Threads

variable {α β : Type} {S : β → ℕ → Prop} {n : ℕ} {cfg : Config}

theorem weighs_mute (o : CommandOp) (r : o.Res) (ho : Mute o) : weighs o r = 0 := by
  cases o with
  | sendReply r => exact ho.elim
  | _ => rfl

theorem owes_after {p : CommandProg α} {f : α → CommandProg β} (hp : Every Mute p)
    (hf : ∀ a, Owes Closing weighs S (f a) n) : Owes Closing weighs S (p >>= f) n :=
  Owes.after hp weighs_mute hf

theorem owes_if {b : Prop} [Decidable b] {p q : CommandProg β} (hp : Owes Closing weighs S p n)
    (hq : Owes Closing weighs S q n) : Owes Closing weighs S (if b then p else q) n := by
  by_cases hb : b
  · rw [if_pos hb]
    exact hp
  · rw [if_neg hb]
    exact hq

/-- A preliminary reply. -/
theorem owes_preliminary {r : Reply} {f : Unit → CommandProg β} (hr : r.isLast = false)
    (hf : Owes Closing weighs S (f ()) n) : Owes Closing weighs S (sendReply r >>= f) n := by
  intro u _
  have hweight : weighs (.sendReply r) u = 0 := by
    show (if r.isLast = true then 1 else 0) = 0
    rw [hr]
    rfl
  rw [hweight]
  exact ⟨Nat.zero_le n, hf⟩

/-- The last reply. -/
theorem owes_last {r : Reply} {f : Unit → CommandProg β} (hr : r.isLast = true)
    (hf : Owes Closing weighs S (f ()) 0) : Owes Closing weighs S (sendReply r >>= f) 1 := by
  intro u _
  have hweight : weighs (.sendReply r) u = 1 := if_pos hr
  rw [hweight]
  exact ⟨le_refl 1, hf⟩

theorem owes_refusal {r : Reply} (hr : r.isLast = true) :
    OwesMsg (sendReply r >>= fun _ => .ret none) 1 :=
  owes_last hr (.inl ⟨rfl, rfl⟩)

theorem owes_whenConnected {kind : DataConnection} {msg : Option Reply}
    {half : CommandProg (Option Reply)} (hhalf : OwesMsg half 1) (hmsg : Pending msg n) :
    OwesMsg (whenConnected kind msg half) n := by
  obtain ⟨rfl, rfl⟩ | ⟨r, rfl, hr, rfl⟩ := hmsg
  · exact .inl ⟨rfl, rfl⟩
  · exact owes_after mute_client fun c => owes_if hhalf (.inr ⟨r, rfl, hr, rfl⟩)

theorem owes_sendLast {msg : Option Reply} (hmsg : Pending msg n) : OwesLast (sendLast msg) n := by
  obtain ⟨rfl, rfl⟩ | ⟨r, rfl, hr, rfl⟩ := hmsg
  · exact rfl
  · exact owes_last (f := fun _ => .ret ()) hr rfl

theorem mute_recordUpload (retval : StorRetVal) (fid : ℤ) (slave : SlaveInfo) :
    Every Mute (recordUpload retval fid slave) := by
  unfold recordUpload
  rw [every_ite]
  refine ⟨fun _ => ?_, fun _ => trivial⟩
  rw [every_client_bind]
  refine ⟨trivial, fun c => ?_⟩
  cases c.pUser with
  | none => trivial
  | some u => exact ⟨rfl, fun now => (mute_redis _).bind fun _ => trivial⟩

theorem owes_finishUpload (fid : ℤ) (slave : SlaveInfo) {answer : RpcResult StorRetVal}
    (hanswer : ∀ r, answer = .reply r → r.msg.isLast = true) :
    OwesMsg (finishUpload fid slave answer) 1 := by
  cases answer with
  | reply r =>
      show OwesMsg (recordUpload r fid slave >>= fun _ => .ret (some r.msg)) 1
      refine owes_after (mute_recordUpload r fid slave) fun _ => ?_
      exact .inr ⟨r.msg, rfl, hanswer r rfl, rfl⟩
  | exception => exact owes_refusal rfl
  | noReturn => trivial

theorem owes_finishRetrieve {answer : RpcResult Reply}
    (hanswer : ∀ r, answer = .reply r → r.isLast = true) : OwesMsg (finishRetrieve answer) 1 := by
  cases answer with
  | reply r => exact .inr ⟨r, rfl, hanswer r rfl, rfl⟩
  | exception => exact owes_refusal rfl
  | noReturn => trivial

theorem owes_storeActive (hslaves : cfg.Slaves ≠ []) (iflags : OpenFlag) (fid : ℤ) :
    OwesMsg (storeActive cfg iflags fid) 1 := by
  unfold storeActive
  rw [if_neg hslaves]
  refine owes_after (mute_getRandomSlave cfg) fun slave => ?_
  refine owes_after (mute_redis _) fun trans_id => owes_after mute_client fun c => ?_
  refine owes_after (mute_randomPort cfg) fun server_port => owes_preliminary rfl ?_
  intro answer hanswer
  refine ⟨Nat.zero_le 1, owes_finishUpload fid slave fun r hr => ?_⟩
  rw [hr] at hanswer
  exact hanswer

theorem owes_storePassive (iflags : OpenFlag) (fid : ℤ) :
    OwesMsg (storePassive cfg iflags fid) 1 := by
  unfold storePassive
  refine owes_after mute_client fun c => owes_if (owes_refusal rfl) ?_
  refine owes_after mute_client fun c => owes_after mute_client fun c' => ?_
  intro answer hanswer
  refine ⟨Nat.zero_le 1, owes_finishUpload fid c.SlaveInfo fun r hr => ?_⟩
  rw [hr] at hanswer
  exact hanswer

theorem owes_retrieveActive (fid : ℤ) : OwesMsg (retrieveActive cfg fid) 1 := by
  unfold retrieveActive
  refine owes_if ?_ (.inr ⟨.empty, rfl, rfl, rfl⟩)
  refine owes_after mute_client fun c => owes_after (mute_redis _) fun slave => ?_
  refine owes_after (mute_redis _) fun trans_id => owes_after mute_client fun c => ?_
  refine owes_after (mute_randomPort cfg) fun server_port => owes_preliminary rfl ?_
  intro answer hanswer
  refine ⟨Nat.zero_le 1, owes_finishRetrieve fun r hr => ?_⟩
  rw [hr] at hanswer
  exact hanswer

theorem owes_retrievePassive (fid : ℤ) : OwesMsg (retrievePassive cfg fid) 1 := by
  unfold retrievePassive
  refine owes_after mute_client fun c => owes_if (owes_refusal rfl) ?_
  refine owes_after mute_client fun c => owes_if (owes_refusal rfl) ?_
  refine owes_after mute_client fun c => owes_after mute_client fun c' => ?_
  intro answer hanswer
  refine ⟨Nat.zero_le 1, owes_finishRetrieve fun r hr => ?_⟩
  rw [hr] at hanswer
  exact hanswer

/-- **A transfer thread** sends one last reply. -/
theorem owes_body (hslaves : cfg.Slaves ≠ []) (thread : TransferThread) :
    OwesLast (thread.body cfg) 1 := by
  have hempty : Pending (some .empty) 1 := .inr ⟨.empty, rfl, rfl, rfl⟩
  cases thread with
  | list =>
      have hlist : ∀ b : Prop, [Decidable b] → ∀ path : Text,
          Every Mute (onlyIf b (discard (redis (listDirectory path)))) := by
        intro b _ path
        unfold onlyIf
        rw [every_ite]
        exact ⟨fun _ => (mute_redis _).bind fun _ => trivial, fun _ => trivial⟩
      show Owes _ _ _ listTransfer 1
      unfold listTransfer
      refine owes_after mute_client fun c => owes_after (hlist _ _) fun _ => ?_
      refine owes_after mute_client fun c' => owes_if ?_ ?_
      · exact owes_last (f := fun _ => .ret ()) rfl rfl
      · exact owes_last (f := fun _ => .ret ()) rfl rfl
  | retrieve =>
      show Owes _ _ _ (retrieveTransfer cfg) 1
      unfold retrieveTransfer
      refine owes_after mute_client fun c => owes_after (mute_redis _) fun fid => ?_
      refine (owes_whenConnected (owes_retrieveActive fid) hempty).bind fun msg n hmsg => ?_
      exact (owes_whenConnected (owes_retrievePassive fid) hmsg).bind fun _ _ hlast =>
        owes_sendLast hlast
  | store =>
      show Owes _ _ _ (storeTransfer cfg) 1
      unfold storeTransfer
      refine owes_after mute_client fun c => owes_after (mute_redis _) fun fid => ?_
      refine (owes_whenConnected (owes_storeActive hslaves _ fid) hempty).bind fun msg n hmsg => ?_
      exact (owes_whenConnected (owes_storePassive _ fid) hmsg).bind fun _ _ hlast =>
        owes_sendLast hlast

end Threads

/-! ### What a line leaves -/

def Said.reply? : Said → Option Reply
  | .reply r => some r
  | .call _ => none

def Said.call? : Said → Option Call
  | .reply _ => none
  | .call c => some c

variable {env : Env} {cfg : Config} {w w' : World} {nCmd : Option Cmd} {cs : List Call}
  {s s' : LiveSession} {xs : List Said}

/-- The replies of a line are sent. -/
theorem replies_said {α : Type} (env : Env) (p : ShellProg α) (w : World) :
    (run (serveShell env) p w).state.replies =
      w.replies ++ (said env p w).filterMap Said.reply? := by
  have hstate := state_eq_trace (fun o r => (saysShell o r).bind Said.reply?) (serveShell env)
    World.replies ?_ p w
  · rw [hstate, said, trace_filterMap (serveShell env) fun _ _ => rfl]
  · intro o w
    cases o with
    | login f => exact (List.append_nil _).symm
    | command o =>
        cases o with
        | sendReply r => rfl
        | sys o =>
            show w.replies =
              w.replies ++ (((noteSys o (env w.clock o)).map Said.call).bind _).toList
            cases noteSys o (env w.clock o) <;> exact (List.append_nil _).symm
        | _ => exact (List.append_nil _).symm

/-- The noted calls of a line. -/
theorem lineCalls_said {α : Type} (env : Env) (p : ShellProg α) (w : World) :
    lineCalls env p w = (said env p w).filterMap Said.call? := by
  refine trace_filterMap (serveShell env) ?_ p w
  intro o r
  cases o with
  | login f => rfl
  | command o =>
      cases o with
      | sys o =>
          show noteSys o r = ((noteSys o r).map Said.call).bind Said.call?
          cases noteSys o r <;> rfl
      | _ => rfl

/-- The last replies of a list. -/
def lasts (rs : List Reply) : ℕ := rs.countP Reply.isLast

theorem lasts_append (rs rs' : List Reply) : lasts (rs ++ rs') = lasts rs + lasts rs' :=
  List.countP_append

/-- A call that neither starts a thread nor cancels one. -/
def Call.Idle : Call → Prop
  | ⟨.pthread_create _, ok⟩ => ok = false
  | ⟨.pthread_cancel, _⟩ => False
  | _ => True

theorem threads_idle {c : Call} (hc : c.Idle) (ts : List (CommandProg Unit)) :
    c.threads cfg ts = ts := by
  obtain ⟨o, r⟩ := c
  cases o with
  | pthread_create thread =>
      have hfalse : r = false := hc
      rw [hfalse]
      rfl
  | pthread_cancel => exact hc.elim
  | _ => rfl

theorem threadsAfter_idle (hcs : ∀ c ∈ cs, c.Idle) (ts : List (CommandProg Unit)) :
    threadsAfter cfg ts cs = ts := by
  induction cs with
  | nil => rfl
  | cons c cs ih =>
      show threadsAfter cfg (c.threads cfg ts) cs = ts
      rw [threads_idle (hcs c List.mem_cons_self)]
      exact ih fun c' hc' => hcs c' (List.mem_cons_of_mem c hc')

/-- Preliminary replies, and calls that start no thread. -/
theorem said_idle (hxs : ∀ x ∈ xs, x.ends = false)
    (hkept : (⟨.pthread_cancel, ()⟩ : Call) ∉ xs.filterMap Said.call?) :
    lasts (xs.filterMap Said.reply?) = 0 ∧ ∀ c ∈ xs.filterMap Said.call?, c.Idle := by
  constructor
  · refine List.countP_eq_zero.mpr fun r hr => ?_
    obtain ⟨x, hx, hreply⟩ := List.mem_filterMap.mp hr
    cases x with
    | call c => exact absurd hreply (by simp [Said.reply?])
    | reply r' =>
        rw [Said.reply?, Option.some.injEq] at hreply
        rw [← hreply]
        exact Bool.eq_false_iff.mp (hxs _ hx)
  · intro c hc
    obtain ⟨x, hx, hcall⟩ := List.mem_filterMap.mp hc
    cases x with
    | reply r => exact absurd hcall (by simp [Said.call?])
    | call c' =>
        rw [Said.call?, Option.some.injEq] at hcall
        subst hcall
        obtain ⟨o, r⟩ := c'
        cases o with
        | pthread_create thread => exact hxs _ hx
        | pthread_cancel => exact absurd hc hkept
        | _ => exact trivial

/-- A line that is answered once pays its last reply, or leaves a thread that owes it. -/
theorem once_pays (cfg : Config) (h : Once xs)
    (hkept : (⟨.pthread_cancel, ()⟩ : Call) ∉ xs.filterMap Said.call?)
    (ts : List (CommandProg Unit)) :
    lasts (xs.filterMap Said.reply?) = 1 ∧
        threadsAfter cfg ts (xs.filterMap Said.call?) = ts ∨
      lasts (xs.filterMap Said.reply?) = 0 ∧
        ∃ thread, threadsAfter cfg ts (xs.filterMap Said.call?) =
          TransferThread.body cfg thread :: ts := by
  obtain ⟨pre, x, post, rfl, hx, hpre, hpost⟩ := h
  have hnil : post = [] := by
    obtain rfl | rfl := hpost
    · rfl
    · have hin : Said.call ⟨.pthread_cancel, ()⟩ ∈ pre ++ x :: [.call ⟨.pthread_cancel, ()⟩] :=
        List.mem_append_right pre (List.mem_cons_of_mem x List.mem_cons_self)
      exact (hkept (List.mem_filterMap.mpr ⟨_, hin, rfl⟩)).elim
  subst hnil
  have hkept' : (⟨.pthread_cancel, ()⟩ : Call) ∉ pre.filterMap Said.call? := by
    intro hin
    rw [List.filterMap_append, List.mem_append] at hkept
    exact hkept (.inl hin)
  obtain ⟨hlasts, hidle⟩ := said_idle hpre hkept'
  rw [List.filterMap_append, List.filterMap_append, lasts_append, hlasts]
  cases x with
  | reply r =>
      have hr : r.isLast = true := hx
      refine .inl ⟨?_, ?_⟩
      · show 0 + lasts [r] = 1
        rw [lasts, List.countP_singleton, if_pos hr]
      · show threadsAfter cfg ts (pre.filterMap Said.call? ++ []) = ts
        rw [List.append_nil]
        exact threadsAfter_idle hidle ts
  | call c =>
      obtain ⟨o, ok⟩ := c
      cases o with
      | pthread_create thread =>
          have hok : ok = true := hx
          subst hok
          refine .inr ⟨rfl, thread, ?_⟩
          show threadsAfter cfg ts
            (pre.filterMap Said.call? ++ [⟨.pthread_create thread, true⟩]) = _
          rw [threadsAfter, List.foldl_append]
          have hpre : (pre.filterMap Said.call?).foldl (Call.threads cfg) ts = ts :=
            threadsAfter_idle hidle ts
          rw [hpre]
          rfl
      | _ => exact absurd hx Bool.false_ne_true

/-! ### Sessions -/

/-- The line is none of the irregular ones, as far as its calls and its replies tell. -/
structure RegularLine (s : LiveSession) (nCmd : Option Cmd) (cs : List Call) (s' : LiveSession) :
    Prop where
  started : ∀ thread, (⟨.pthread_create thread, false⟩ : Call) ∉ cs
  opened : ∀ slave p r, (⟨.openPasvDataConnection slave p, .reply r⟩ : Call) ∈ cs →
    r.isLast = false
  inited : ∀ slave p n m r, (⟨.initPasvDataConnection slave p n m, .reply r⟩ : Call) ∈ cs →
    r.isLast = true
  kept : (⟨.pthread_cancel, ()⟩ : Call) ∉ cs
  single : nCmd = some .pass ∨ nCmd = some .abor →
    s'.world.replies.length = s.world.replies.length + 1
  heard : s'.world.replies = s.world.replies →
    ∃ thread, (⟨.pthread_create thread, true⟩ : Call) ∈ cs

/-- The sessions in which every line so far was regular, or an `ABOR` that has cancelled a thread
with its last reply still to send; the number of lines. -/
inductive Dialogue (cfg : Config) : LiveSession → ℕ → Prop where
  | connect {w : World} : w.client.toLoginState = {} → w.client.toCommandState = {} →
      w.replies = [] → Dialogue cfg ⟨w, [], true⟩ 0
  | line {s s' : LiveSession} {n : ℕ} {nCmd : Option Cmd} {cs : List Call} : Dialogue cfg s n →
      LiveStep cfg s (.line nCmd) cs s' → RegularLine s nCmd cs s' → Dialogue cfg s' (n + 1)
  | abort {s s' : LiveSession} {n : ℕ} {p : CommandProg Unit} {ps : List (CommandProg Unit)} :
      Dialogue cfg s n → LiveStep cfg s (.line (some .abor)) [⟨.pthread_cancel, ()⟩] s' →
      s'.world.replies = s.world.replies ++
        [.line 426 "Previous command has been finished abnormally.",
          .line 226 "ABOR command successful."] →
      s.threads = p :: ps → ¬ OwesLast p 0 → Dialogue cfg s' (n + 1)
  | other {s s' : LiveSession} {n : ℕ} {who : Happening} {cs : List Call} : Dialogue cfg s n →
      LiveStep cfg s who cs s' → (∀ nCmd, who ≠ .line nCmd) → (∀ c ∈ cs, c.Closes) →
      Dialogue cfg s' n

/-- A line that is regular by its calls and replies is answered once. -/
theorem RegularLine.once (hslaves : cfg.Slaves ≠ []) (h : RegularLine s nCmd
      (xs.filterMap Said.call?) s')
    (hreplies : s'.world.replies = s.world.replies ++ xs.filterMap Said.reply?)
    (hturn : Once xs ∨ Irregular cfg nCmd xs) : Once xs := by
  have hcall : ∀ {c : Call}, .call c ∈ xs → c ∈ xs.filterMap Said.call? :=
    fun hc => List.mem_filterMap.mpr ⟨_, hc, rfl⟩
  have hlength : s'.world.replies.length =
      s.world.replies.length + (xs.filterMap Said.reply?).length := by
    rw [hreplies, List.length_append]
  have hquiet : Cancels xs → xs = [] := by
    intro hcancels
    obtain hnil | rfl := hcancels
    · exact hnil
    · exact absurd List.mem_cons_self h.kept
  have hnil : xs ≠ [] := by
    intro hnil
    subst hnil
    obtain ⟨thread, hthread⟩ := h.heard (hreplies.trans (List.append_nil _))
    exact absurd hthread List.not_mem_nil
  refine hturn.resolve_right fun hirregular => ?_
  cases hirregular with
  | kicked => exact hnil rfl
  | refusedTwice _ =>
      have hone := h.single (.inl rfl)
      rw [hlength] at hone
      exact absurd hone (by simp [Said.reply?])
  | @aborted ys hys =>
      have hone := h.single (.inr rfl)
      have hys' : ys = [] := by
        obtain hys | rfl := hys
        · exact hys
        · exact absurd (hcall List.mem_cons_self) h.kept
      rw [hlength, hys'] at hone
      exact absurd hone (by simp [Said.reply?])
  | noSlave hnone _ => exact hslaves hnone
  | relayed hr =>
      have htrue := h.inited _ _ _ _ _ (hcall List.mem_cons_self)
      rw [hr] at htrue
      exact absurd htrue (by decide)
  | silent _ hcancels => exact hnil (hquiet hcancels)
  | notStarted _ _ _ =>
      exact h.started _ (hcall (List.mem_append_right _ List.mem_cons_self))
  | refused hr _ _ =>
      have hfalse := h.opened _ _ _ (hcall (List.mem_append_right _ List.mem_cons_self))
      rw [hfalse] at hr
      exact absurd hr (by decide)

/-- What an operation of a thread sends. -/
theorem lasts_op (env : Env) (o : CommandOp) (w : World) :
    lasts (serveCommand env o w).2.replies =
      lasts w.replies + weighs o (serveCommand env o w).1 := by
  cases o with
  | sendReply r =>
      show lasts (w.replies ++ [r]) = lasts w.replies + if r.isLast = true then 1 else 0
      rw [lasts_append, lasts, lasts, List.countP_singleton]
  | _ => rfl

/-- The calls of a thread are closing, and so are its answers. -/
theorem closing_of_calls {o : CommandOp} {r : o.Res}
    (h : ∀ c ∈ (noteCommand o r).toList, c.Closes) : Closing o r := by
  cases o with
  | sys o =>
      show Call.Closes ⟨o, r⟩
      by_cases hpart : o.part.isSome = true
      · refine h _ ?_
        show (⟨o, r⟩ : Call) ∈ (noteSys o r).toList
        rw [noteSys, if_pos hpart]
        exact List.mem_cons_self
      · cases o <;> first | exact trivial | exact absurd rfl hpart
  | _ => exact trivial

theorem LiveStep.threads_line (hstep : LiveStep cfg s (.line nCmd) cs s') :
    s'.threads = threadsAfter cfg s.threads cs := by
  cases hstep with
  | line env text hopened hrun => rfl

/-- The threads with what they owe; all lines are paid, but for this. -/
def Balanced (s : LiveSession) (n : ℕ) : Prop :=
  ∃ owing : List (CommandProg Unit × ℕ), owing.map Prod.fst = s.threads ∧
    (∀ x ∈ owing, OwesLast x.1 x.2 ∧ x.2 ≤ 1) ∧
    lasts s.world.replies + (owing.map Prod.snd).sum = n

theorem Balanced.line (hslaves : cfg.Slaves ≠ []) {n : ℕ} (hbal : Balanced s n)
    (hstep : LiveStep cfg s (.line nCmd) cs s') (h : RegularLine s nCmd cs s') :
    Balanced s' (n + 1) := by
  obtain ⟨owing, hmap, howes, hsum⟩ := hbal
  cases hstep with
  | @line w' next env text hopened hrun =>
      have hcalls := lineCalls_said env
        (dispatch cfg (parseLine text).1 (parseLine text).2) s.world
      have hreplies := replies_said env
        (dispatch cfg (parseLine text).1 (parseLine text).2) s.world
      rw [hrun] at hreplies
      have hturn := (line_dispatch (parseLine text).1 (parseLine text).2).run hrun
      rw [hcalls] at h ⊢
      have honce := h.once hslaves hreplies hturn
      have hlasts : lasts w'.replies = lasts s.world.replies + lasts (List.filterMap Said.reply?
          (said env (dispatch cfg (parseLine text).1 (parseLine text).2) s.world)) := by
        rw [← lasts_append]
        exact congrArg lasts hreplies
      obtain ⟨hone, hthreads⟩ | ⟨hzero, thread, hthreads⟩ :=
        once_pays cfg honce h.kept s.threads
      · refine ⟨owing, hmap.trans hthreads.symm, howes, ?_⟩
        show lasts w'.replies + _ = n + 1
        omega
      · refine ⟨(TransferThread.body cfg thread, 1) :: owing, ?_, ?_, ?_⟩
        · rw [List.map_cons, hmap]
          exact hthreads.symm
        · intro x hx
          obtain rfl | hx := List.mem_cons.mp hx
          · exact ⟨owes_body hslaves thread, le_refl 1⟩
          · exact howes x hx
        · rw [List.map_cons, List.sum_cons]
          show lasts w'.replies + (1 + _) = n + 1
          omega

theorem Balanced.abort {n : ℕ} {p : CommandProg Unit} {ps : List (CommandProg Unit)}
    (hbal : Balanced s n)
    (hstep : LiveStep cfg s (.line (some .abor)) [⟨.pthread_cancel, ()⟩] s')
    (hreplies : s'.world.replies = s.world.replies ++
      [.line 426 "Previous command has been finished abnormally.",
        .line 226 "ABOR command successful."])
    (hthreads : s.threads = p :: ps) (howed : ¬ OwesLast p 0) : Balanced s' (n + 1) := by
  obtain ⟨owing, hmap, howes, hsum⟩ := hbal
  have hleft : s'.threads = s.threads.tail := hstep.threads_line
  have htwo : lasts s'.world.replies = lasts s.world.replies + 2 := by
    rw [hreplies, lasts_append]
    rfl
  rw [hthreads, List.map_eq_cons_iff] at hmap
  obtain ⟨x, rest, rfl, rfl, hrest⟩ := hmap
  obtain ⟨hx, hle⟩ := howes x List.mem_cons_self
  -- the cancelled thread owed its last reply; the 426 is in its place
  have hone : x.2 = 1 := by
    by_cases hzero : x.2 = 0
    · rw [hzero] at hx
      exact absurd hx howed
    · omega
  refine ⟨rest, ?_, fun y hy => howes y (List.mem_cons_of_mem x hy), ?_⟩
  · rw [hleft, hthreads, List.tail_cons]
    exact hrest
  · rw [List.map_cons, List.sum_cons] at hsum
    omega

/-- A thread goes on. -/
theorem Balanced.thread {n : ℕ} {ps qs : List (CommandProg Unit)} {p q : CommandProg Unit}
    {w' : World} {k : ℕ} (hbal : Balanced s n) (hthreads : s.threads = ps ++ p :: qs)
    (hp : ∀ m, OwesLast p m → k ≤ m ∧ OwesLast q (m - k))
    (hlasts : lasts w'.replies = lasts s.world.replies + k) :
    Balanced { s with world := w', threads := ps ++ q :: qs } n := by
  obtain ⟨owing, hmap, howes, hsum⟩ := hbal
  rw [hthreads, List.map_eq_append_iff] at hmap
  obtain ⟨front, rest, rfl, hfront, hrest⟩ := hmap
  rw [List.map_eq_cons_iff] at hrest
  obtain ⟨x, back, rfl, rfl, hback⟩ := hrest
  obtain ⟨hx, hle⟩ := howes x (List.mem_append_right front List.mem_cons_self)
  obtain ⟨hk, hq⟩ := hp x.2 hx
  refine ⟨front ++ (q, x.2 - k) :: back, ?_, ?_, ?_⟩
  · rw [List.map_append, List.map_cons, hfront, hback]
  · intro y hy
    obtain hy | hy := List.mem_append.mp hy
    · exact howes y (List.mem_append_left _ hy)
    · obtain rfl | hy := List.mem_cons.mp hy
      · exact ⟨hq, (Nat.sub_le _ _).trans hle⟩
      · exact howes y (List.mem_append_right _ (List.mem_cons_of_mem x hy))
  · simp only [List.map_append, List.map_cons, List.sum_append, List.sum_cons] at hsum ⊢
    show lasts w'.replies + _ = n
    omega

/-- A thread that has ended owes nothing. -/
theorem Balanced.ended {n : ℕ} {ps qs : List (CommandProg Unit)} {w' : World}
    (hbal : Balanced s n) (hthreads : s.threads = ps ++ .ret () :: qs)
    (hreplies : w'.replies = s.world.replies) :
    Balanced { s with world := w', threads := ps ++ qs } n := by
  obtain ⟨owing, hmap, howes, hsum⟩ := hbal
  rw [hthreads, List.map_eq_append_iff] at hmap
  obtain ⟨front, rest, rfl, hfront, hrest⟩ := hmap
  rw [List.map_eq_cons_iff] at hrest
  obtain ⟨x, back, rfl, hx, hback⟩ := hrest
  have hzero : x.2 = 0 := by
    have howed := (howes x (List.mem_append_right front List.mem_cons_self)).1
    rw [hx] at howed
    exact howed
  refine ⟨front ++ back, ?_, ?_, ?_⟩
  · rw [List.map_append, hfront, hback]
  · intro y hy
    obtain hy | hy := List.mem_append.mp hy
    · exact howes y (List.mem_append_left _ hy)
    · exact howes y (List.mem_append_right _ (List.mem_cons_of_mem x hy))
  · simp only [List.map_append, List.map_cons, List.sum_append, List.sum_cons, hzero,
      Nat.zero_add] at hsum ⊢
    show lasts w'.replies + _ = n
    rw [hreplies]
    exact hsum

theorem Balanced.other {n : ℕ} {who : Happening} (hbal : Balanced s n)
    (hstep : LiveStep cfg s who cs s') (hwho : ∀ nCmd, who ≠ .line nCmd)
    (hcalls : ∀ c ∈ cs, c.Closes) : Balanced s' n := by
  cases hstep with
  | line env text _ _ => exact absurd rfl (hwho _)
  | hangUp _ => exact hbal
  | op env hthreads =>
      exact hbal.thread hthreads (fun m hm => hm _ (closing_of_calls hcalls)) (lasts_op env _ _)
  | poll env hthreads _ =>
      exact hbal.thread hthreads (fun m hm => hm _ (closing_of_calls hcalls)) (lasts_op env _ _)
  | @ends ps qs w' env hthreads hrun =>
      have hdoes : Does env endTransfer s.world () w' (calls env endTransfer s.world) := ⟨hrun, rfl⟩
      exact hbal.ended hthreads (hdoes.silent (silent_reset false))
  | others db _ => exact hbal

/-- **The replies of a session**: in any interleaving of the lines and the transfer threads, if a
slave is configured, no line is irregular, the slaves reply to a transfer with a last reply, and
every cancelled thread has its last reply still to send, the last replies are as many as the lines,
but for those of threads that still run: one for each at most. -/
theorem replies_balanced (hslaves : cfg.Slaves ≠ []) {n : ℕ} (h : Dialogue cfg s n) :
    lasts s.world.replies ≤ n ∧ n ≤ lasts s.world.replies + s.threads.length ∧
      (s.threads = [] → lasts s.world.replies = n) := by
  have hbal : Balanced s n := by
    induction h with
    | connect _ _ hreplies =>
        refine ⟨[], rfl, by simp, ?_⟩
        show lasts _ + 0 = 0
        rw [hreplies]
        rfl
    | line _ hstep hregular ih => exact ih.line hslaves hstep hregular
    | abort _ hstep hreplies hthreads howed ih => exact ih.abort hstep hreplies hthreads howed
    | other _ hstep hwho hcalls ih => exact ih.other hstep hwho hcalls
  obtain ⟨owing, hmap, howes, hsum⟩ := hbal
  have hle : (owing.map Prod.snd).sum ≤ owing.length := by
    have hcard := List.sum_le_card_nsmul (owing.map Prod.snd) 1 ?_
    · rwa [List.length_map, Nat.nsmul_eq_mul, mul_one] at hcard
    · intro k hk
      obtain ⟨x, hx, rfl⟩ := List.mem_map.mp hk
      exact (howes x hx).2
  have hlength : owing.length = s.threads.length := by rw [← hmap, List.length_map]
  refine ⟨by omega, by omega, fun hnone => ?_⟩
  rw [hnone, List.length_nil] at hlength
  omega

/-! ### A download -/

/-- A line of a client that is logged in. -/
theorem Dialogue.command (text : Text) {cmd : Cmd} {pszCmdArg : Option Text} {u : Unit} {n : ℕ}
    {ts : List (CommandProg Unit)} (hline : parseLine text = (some cmd, pszCmdArg))
    (hnot : cmd ∉ [Cmd.quit, .user, .pass, .cwd, .xcwd, .cdup, .xcup])
    (hlogged : w.client.bIsLogged = true) (h : Does env (shellCmd cfg cmd pszCmdArg) w u w' cs)
    (hregular : RegularLine ⟨w, ts, true⟩ (some cmd) cs ⟨w', threadsAfter cfg ts cs, true⟩)
    (hrun : Dialogue cfg ⟨w, ts, true⟩ n) :
    Dialogue cfg ⟨w', threadsAfter cfg ts cs, true⟩ (n + 1) := by
  obtain ⟨hends, hcalls⟩ := line_of_does hnot hlogged h
  have hstep : LiveStep cfg ⟨w, ts, true⟩ _ _ _ := .line env text rfl (by
    rw [hline]
    exact hends)
  rw [hline, hcalls] at hstep
  exact hrun.line hstep hregular

/-- The transfer thread runs to its end. -/
theorem Dialogue.transfer {p : CommandProg Unit} {u : Unit} {w'' : World} {opened : Bool} {n : ℕ}
    (hp : Does env p w u w' cs) (hcs : ∀ c ∈ cs, c.Closes)
    (hend : run (serveCommand env) endTransfer w' = .done () w'')
    (hrun : Dialogue cfg ⟨w, [p], opened⟩ n) : Dialogue cfg ⟨w'', [], opened⟩ n := by
  have hkeep : ∀ {s s' : LiveSession} {cs : List Call}, Dialogue cfg s n →
      LiveStep cfg s .thread cs s' → (∀ c ∈ cs, c.Closes) → Dialogue cfg s' n :=
    fun h hstep hcs => h.other hstep (by simp) hcs
  exact thread_finishes (R := fun s _ => Dialogue cfg s n) [] [] [] hkeep hp hcs hend hrun

/-- A line that calls nobody and is answered is regular. -/
theorem regularLine_answered (hother : nCmd ≠ some .pass ∧ nCmd ≠ some .abor)
    (hreplies : s'.world.replies ≠ s.world.replies) : RegularLine s nCmd [] s' := by
  refine ⟨by simp, by simp, by simp, by simp, ?_, fun hsame => absurd hsame hreplies⟩
  intro hsingle
  exact absurd hsingle (by simp [hother])

/-- The guest's session after `PORT`. -/
abbrev portedWorld : World := (guestWorld twoFiles).ported

/-- `RETR /a` and its thread: the slave closes the transfer with a last reply. -/
theorem retr_ported : ∃ w₁ w₂ cs,
    Does .willing (shellCmd oneSlave .retr (some "/a".toList)) portedWorld ()
      portedWorld.retrieving [⟨.pthread_create .retrieve, true⟩] ∧
    Does .willing (retrieveTransfer oneSlave) portedWorld.retrieving () w₁ cs ∧
    (∀ c ∈ cs, c.Closes) ∧ run (serveCommand .willing) endTransfer w₁ = .done () w₂ := by
  refine ⟨_, _, _, ⟨?_, ?_⟩, ⟨rfl, rfl⟩, ?_, rfl⟩
  · show run _ (statPath (Client.buildPath _ (some "/a".toList)) >>= _) _ = _
    rw [guest_a rfl]
    rfl
  · show trace _ _ (statPath (Client.buildPath _ (some "/a".toList)) >>= _) _ = _
    rw [guest_a rfl]
    rfl
  · intro c hc
    rw [List.mem_singleton.mp hc]
    exact rfl

/-- The guest logs in, sends `PORT` and downloads `/a`: three lines, two last replies while the
thread runs, and three at its end. -/
theorem replies_balanced_download : ∃ s s' : LiveSession,
    Dialogue oneSlave s 3 ∧ s.threads = [retrieveTransfer oneSlave] ∧ lasts s.world.replies ≤ 3 ∧
      3 ≤ lasts s.world.replies + 1 ∧
    Dialogue oneSlave s' 3 ∧ s'.threads = [] ∧ lasts s'.world.replies = 3 := by
  obtain ⟨w₁, w₂, cs, hretr, hthread, hcloses, hend⟩ := retr_ported
  have hslaves : oneSlave.Slaves ≠ [] := List.cons_ne_nil _ _
  have hport : Does .willing (shellCmd oneSlave .port (some "127,0,0,1,4,0".toList))
      (guestWorld twoFiles) () portedWorld [] := ⟨rfl, rfl⟩
  have hlogin : run (serveShell .willing) (dispatch oneSlave (some .user) (some "guest".toList))
      ⟨twoFiles, {}, [], 0⟩ = .done .continue (guestWorld twoFiles) := rfl
  have hline : parseLine "USER guest".toList = (some .user, some "guest".toList) := by decide
  have huser : LiveStep oneSlave ⟨⟨twoFiles, {}, [], 0⟩, [], true⟩ (.line (some .user)) []
      ⟨guestWorld twoFiles, [], true⟩ := by
    have hstep : LiveStep oneSlave ⟨⟨twoFiles, {}, [], 0⟩, [], true⟩ _ _ _ :=
      .line .willing "USER guest".toList rfl (by rw [hline]; exact hlogin)
    rw [hline, (line_not_logged rfl hlogin).2] at hstep
    exact hstep
  have hconnect : Dialogue oneSlave ⟨⟨twoFiles, {}, [], 0⟩, [], true⟩ 0 := .connect rfl rfl rfl
  have h₁ := hconnect.line huser (regularLine_answered (by decide) (by decide))
  have h₂ : Dialogue oneSlave ⟨portedWorld, [], true⟩ 2 :=
    h₁.command "PORT 127,0,0,1,4,0".toList (by decide) (by decide) rfl hport
      (regularLine_answered (by decide) (by decide))
  have h₃ : Dialogue oneSlave ⟨portedWorld.retrieving, [retrieveTransfer oneSlave], true⟩ 3 := by
    refine h₂.command "RETR /a".toList (by decide) (by decide) rfl hretr ?_
    exact ⟨by simp, by simp, by simp, by simp, by simp, fun _ => ⟨.retrieve, by simp⟩⟩
  have h₄ := Dialogue.transfer hthread hcloses hend h₃
  have hwhile := replies_balanced hslaves h₃
  exact ⟨_, _, h₃, rfl, hwhile.1, hwhile.2.1, h₄, rfl, (replies_balanced hslaves h₄).2.2 rfl⟩

end ClusterFtpd
