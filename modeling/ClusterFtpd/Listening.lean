import Mathlib.Data.Finset.Card
import Mathlib.Data.Fintype.EquivFin
import Mathlib.Logic.Function.Basic
import Mathlib.Logic.Relation

/-!
# Listening and accepting

`StartListening`, `StopListening` and `StartAccepting` run under `FtpServerLock`, but the accepting
thread clears the two flags at its end without it.  The model interleaves the calls, in any order,
with the steps of the accepting threads; `StartAccepting` stores `bIsAccepting` in a step of its
own, behind the creation of the thread.

`StopListening` cancels the accepting thread, and a thread that is cancelled in its loop does not
clear `bIsAccepting`.  `Fate` says what has happened to a server; main results:

* `accepts_again_iff`: a server can accept a client again exactly if no accepting thread has been
  cancelled in its loop, and none has ended before `StartAccepting` stored the flag;
* `listening_sockets`: the sockets it has open for listening, in every run.
-/

namespace ClusterFtpd

/-- Where an accepting thread is. -/
inductive AcceptPhase where
  -- it has not read `ListeningSock`
  | created
  -- in the loop, with its copy of `ListeningSock`
  | loop (ListeningSock : Option ℕ)
  | left
  -- it has cleared `bIsAccepting`
  | cleared
  -- but it has not been joined
  | ended
  deriving DecidableEq

def AcceptPhase.inLoop : AcceptPhase → Bool
  | .loop _ => true
  | _ => false

/-- The fields of `CFtpServer` for its connections, the sockets that are open for listening, the
accepting threads that have not been joined, and the clients that were accepted. -/
structure Listener where
  bIsListening : Bool := false
  bIsAccepting : Bool := false
  usListeningPort : ℕ := 21
  ListeningSock : Option ℕ := none
  AcceptingThreadID : Option ℕ := none
  sockets : Finset ℕ := ∅
  threads : ℕ → Option AcceptPhase := fun _ => none
  accepted : List ℕ := []
  -- `StartAccepting` has the lock: the thread has been created, and the flag not yet stored
  starting : Bool := false

/-- The thread at `t` goes to another phase, or is gone. -/
def Listener.setThread (s : Listener) (t : ℕ) (phase : Option AcceptPhase) : Listener :=
  { s with threads := Function.update s.threads t phase }

/-- `CFtpServer::StartListening` behind the loop that stops the server: what `socket` returns, and
whether `setsockopt`, `bind` and `listen` succeed. -/
def Listener.startListening (s : Listener) (usPort : ℕ) (socket : Option ℕ) (listens : Bool) :
    Listener :=
  match socket with
  | none => { s with ListeningSock := none }
  | some fd =>
      if listens then
        { s with
          ListeningSock := some fd
          sockets := insert fd s.sockets
          usListeningPort := usPort
          bIsListening := true }
      -- the socket is closed again
      else { s with ListeningSock := some fd }

/-- How `pthread_cancel` and `pthread_join` end: the thread has ended where it was cancelled, or it
has gone to its end, or there was nothing left to cancel. -/
inductive Cancellation where
  | cancelled
  | finished
  | refused
  deriving DecidableEq

/-- Whether the thread clears `bIsAccepting` until it is joined, and what is left of it.  Only in
the loop there are cancellation points. -/
def AcceptPhase.join : AcceptPhase → Cancellation → Option (Bool × Option AcceptPhase)
  | .created, .cancelled => some (false, none)
  | .loop _, .cancelled => some (false, none)
  | .created, .finished => some (true, none)
  | .loop _, .finished => some (true, none)
  | .left, .finished => some (true, none)
  | .cleared, .finished => some (false, none)
  | .ended, .finished => some (false, none)
  | .ended, .refused => some (false, some .ended)
  | _, _ => none

/-- `pthread_cancel(AcceptingThreadID)` and `pthread_join`; `none` where the thread has been joined
already, and where it does not end in this way. -/
def Listener.joinThread (s : Listener) (how : Cancellation) : Option Listener := do
  let t ← s.AcceptingThreadID
  let phase ← s.threads t
  let (clears, rest) ← phase.join how
  return { s.setThread t rest with bIsAccepting := s.bIsAccepting && !clears }

/-- `ListeningSock` is closed, behind `ListeningSock = INVALID_SOCKET`. -/
def Listener.closeSock (s : Listener) : Listener :=
  match s.ListeningSock with
  | none => s
  | some fd => { s with ListeningSock := none, sockets := s.sockets.erase fd }

/-- `CFtpServer::StopListening`. -/
def Listener.stopListening (s : Listener) (how : Cancellation) : Option Listener :=
  if s.bIsListening then
    if s.bIsAccepting then
      (s.closeSock.joinThread how).map fun s' => { s' with bIsListening := false }
    else some { s.closeSock with bIsListening := false }
  else some s

/-- `CFtpServer::StartAccepting` up to `pthread_create`: which thread it gives, if any. -/
def Listener.startAccepting (s : Listener) (thread : Option ℕ) : Listener :=
  if !s.bIsAccepting && s.bIsListening then
    match thread with
    | none => s
    | some t =>
        { s.setThread t (some .created) with AcceptingThreadID := some t, starting := true }
  else s

/-- The steps: the calls of the server, which have the lock, and those of the accepting threads,
`StartAcceptingEx`. -/
inductive ListeningAct where
  | startListening (usPort : ℕ) (socket : Option ℕ) (listens : Bool)
  | stopListening (how : Cancellation)
  | startAccepting (thread : Option ℕ)
  | started
  | begins (t : ℕ)
  | accepts (t client : ℕ)
  -- `select` or `accept` has failed
  | leaves (t : ℕ)
  | clears (t : ℕ)
  | ends (t : ℕ)

/-- One step; `none` where it cannot be made or is undefined.  `socket` gives a new descriptor, and
`pthread_create` a new thread; only an open socket accepts. -/
def Listener.step (s : Listener) : ListeningAct → Option Listener
  | .startListening usPort socket listens =>
      if s.starting = false ∧ s.bIsListening = false ∧ ∀ fd ∈ socket, fd ∉ s.sockets then
        some (s.startListening usPort socket listens)
      else none
  | .stopListening how => if s.starting = false then s.stopListening how else none
  | .startAccepting thread =>
      if s.starting = false ∧ ∀ t ∈ thread, s.threads t = none then some (s.startAccepting thread)
      else none
  | .started =>
      if s.starting then some { s with starting := false, bIsAccepting := true } else none
  | .begins t =>
      if s.threads t = some .created then some (s.setThread t (some (.loop s.ListeningSock)))
      else none
  | .accepts t client =>
      if ∃ fd ∈ s.sockets, s.threads t = some (.loop (some fd)) then
        some { s with accepted := s.accepted ++ [client] }
      else none
  | .leaves t =>
      if (s.threads t).any AcceptPhase.inLoop then some (s.setThread t (some .left)) else none
  | .clears t =>
      if s.threads t = some .left then
        some { s.setThread t (some .cleared) with bIsAccepting := false }
      else none
  | .ends t =>
      if s.threads t = some .cleared then
        some { s.setThread t (some .ended) with bIsListening := false }
      else none

/-! ### The thread that accepts -/

/-- The thread has not cleared `bIsAccepting`. -/
def AcceptPhase.live : AcceptPhase → Bool
  | .created | .loop _ | .left => true
  | .cleared | .ended => false

/-- The thread at `t` is one of these. -/
def Listener.Live (s : Listener) (t : ℕ) : Prop := ∃ phase ∈ s.threads t, phase.live = true

/-- The flag is set, or will be, without such a thread. -/
def Listener.Stuck (s : Listener) : Prop :=
  (s.bIsAccepting = true ∨ s.starting = true) ∧ ∀ t, ¬ s.Live t

/-- What becomes of a server.  It works; or its accepting thread was cancelled in the loop; or that
thread had cleared the flag before `StartAccepting` stored it. -/
inductive Fate where
  | works
  | cancelled
  | overtaken
  deriving DecidableEq

/-- The fate after a step. -/
def Fate.after (s : Listener) (a : ListeningAct) : Fate → Fate
  | .works =>
      match a with
      | .stopListening .cancelled => if s.bIsListening && s.bIsAccepting then .cancelled else .works
      | .clears _ => if s.starting then .overtaken else .works
      | _ => .works
  | fate => fate

/-- The sockets that a step leaves open: the thread clears `bIsListening` and closes nothing. -/
def ListeningAct.leaks (s : Listener) : ListeningAct → ℕ
  | .ends _ => if s.bIsListening then 1 else 0
  | _ => 0

/-- The runs of a server, with its fate and the number of sockets that its threads left open. -/
inductive ListeningRun : Listener → Fate → ℕ → Prop where
  | start : ListeningRun {} .works 0
  | step {s s' : Listener} {fate : Fate} {n : ℕ} (a : ListeningAct) : ListeningRun s fate n →
      s.step a = some s' → ListeningRun s' (fate.after s a) (n + a.leaks s)

/-! ### What a step does -/

variable {s s' : Listener} {fate : Fate} {n t : ℕ} {a : ListeningAct} {how : Cancellation}

theorem threads_setThread (s : Listener) (t : ℕ) (phase : Option AcceptPhase) (u : ℕ) :
    (s.setThread t phase).threads u = if u = t then phase else s.threads u := by
  by_cases hu : u = t
  · rw [if_pos hu, hu]
    exact Function.update_self t phase s.threads
  · rw [if_neg hu]
    exact Function.update_of_ne hu phase s.threads

/-- The live threads after a thread has gone to another phase. -/
theorem live_setThread {phase : Option AcceptPhase} {u : ℕ} : (s.setThread t phase).Live u ↔
    u = t ∧ (∃ p ∈ phase, p.live = true) ∨ u ≠ t ∧ s.Live u := by
  unfold Listener.Live
  rw [threads_setThread]
  by_cases hu : u = t
  · rw [if_pos hu]
    simp [hu]
  · rw [if_neg hu]
    simp [hu]

theorem live_of_inLoop {phase : AcceptPhase} (h : phase.inLoop = true) : phase.live = true := by
  cases phase with
  | loop sock => rfl
  | _ => exact absurd h Bool.false_ne_true

/-- Only a live thread that is cancelled ends without clearing the flag. -/
theorem join_clears {phase : AcceptPhase} {clears : Bool} {rest : Option AcceptPhase}
    (h : phase.join how = some (clears, rest)) :
    (clears = true ↔ phase.live = true ∧ how ≠ .cancelled) ∧ (how = .cancelled → rest = none) ∧
      ∀ p ∈ rest, p.live = false := by
  cases phase <;> cases how <;> simp only [AcceptPhase.join, Option.some.injEq, Prod.mk.injEq,
    reduceCtorEq] at h <;> obtain ⟨rfl, rfl⟩ := h <;> simp [AcceptPhase.live]

theorem closeSock_fields (s : Listener) :
    s.closeSock.threads = s.threads ∧ s.closeSock.AcceptingThreadID = s.AcceptingThreadID ∧
      s.closeSock.bIsAccepting = s.bIsAccepting ∧ s.closeSock.starting = s.starting ∧
      s.closeSock.accepted = s.accepted := by
  unfold Listener.closeSock
  cases s.ListeningSock with
  | none => exact ⟨rfl, rfl, rfl, rfl, rfl⟩
  | some fd => exact ⟨rfl, rfl, rfl, rfl, rfl⟩

/-- What `StopListening` does. -/
theorem stopListening_cases (h : s.stopListening how = some s') :
    s.bIsListening = false ∧ s' = s ∨
      s.bIsListening = true ∧ s.bIsAccepting = false ∧
        s' = { s.closeSock with bIsListening := false } ∨
      s.bIsListening = true ∧ s.bIsAccepting = true ∧ ∃ t phase clears rest,
        s.AcceptingThreadID = some t ∧ s.threads t = some phase ∧
        phase.join how = some (clears, rest) ∧
        s' = { s.closeSock.setThread t rest with
          bIsAccepting := !clears, bIsListening := false } := by
  unfold Listener.stopListening at h
  obtain ⟨hthreads, hid, haccepting, -⟩ := closeSock_fields s
  by_cases hlistening : s.bIsListening = true
  · rw [if_pos hlistening] at h
    by_cases hflag : s.bIsAccepting = true
    · rw [if_pos hflag, Option.map_eq_some_iff] at h
      obtain ⟨s₁, hjoin, rfl⟩ := h
      simp only [Listener.joinThread, Option.bind_eq_bind, Option.bind_eq_some_iff, hid,
        hthreads] at hjoin
      obtain ⟨t, ht, phase, hphase, ⟨clears, rest⟩, hhow, hs₁⟩ := hjoin
      refine .inr (.inr ⟨hlistening, hflag, t, phase, clears, rest, ht, hphase, hhow, ?_⟩)
      rw [← Option.some.inj hs₁]
      simp [haccepting, hflag]
    · rw [if_neg hflag, Option.some.injEq] at h
      exact .inr (.inl ⟨hlistening, by simpa using hflag, h.symm⟩)
  · rw [if_neg hlistening, Option.some.injEq] at h
    exact .inl ⟨by simpa using hlistening, h.symm⟩

/-- What a step can do. -/
inductive ListeningTurn (s : Listener) : ListeningAct → Listener → Prop where
  | startListening {usPort : ℕ} {socket : Option ℕ} {listens : Bool} : s.starting = false →
      s.bIsListening = false → (∀ fd ∈ socket, fd ∉ s.sockets) →
      ListeningTurn s (.startListening usPort socket listens)
        (s.startListening usPort socket listens)
  | stopListening {how : Cancellation} {s' : Listener} : s.starting = false →
      s.stopListening how = some s' → ListeningTurn s (.stopListening how) s'
  | unstarted (thread : Option ℕ) : ListeningTurn s (.startAccepting thread) s
  | creates {t : ℕ} : s.bIsAccepting = false → s.bIsListening = true → s.threads t = none →
      s.starting = false → ListeningTurn s (.startAccepting (some t))
        { s.setThread t (some .created) with AcceptingThreadID := some t, starting := true }
  | started : s.starting = true →
      ListeningTurn s .started { s with starting := false, bIsAccepting := true }
  | begins {t : ℕ} : s.threads t = some .created →
      ListeningTurn s (.begins t) (s.setThread t (some (.loop s.ListeningSock)))
  | accepts {t client fd : ℕ} : s.threads t = some (.loop (some fd)) → fd ∈ s.sockets →
      ListeningTurn s (.accepts t client) { s with accepted := s.accepted ++ [client] }
  | leaves {t : ℕ} {phase : AcceptPhase} : s.threads t = some phase → phase.inLoop = true →
      ListeningTurn s (.leaves t) (s.setThread t (some .left))
  | clears {t : ℕ} : s.threads t = some .left →
      ListeningTurn s (.clears t) { s.setThread t (some .cleared) with bIsAccepting := false }
  | ends {t : ℕ} : s.threads t = some .cleared →
      ListeningTurn s (.ends t) { s.setThread t (some .ended) with bIsListening := false }

theorem step_turn (h : s.step a = some s') : ListeningTurn s a s' := by
  cases a with
  | startListening usPort socket listens =>
      obtain ⟨⟨hlock, hclosed, hnew⟩, heq⟩ := Option.ite_none_right_eq_some.mp h
      cases heq
      exact .startListening hlock hclosed hnew
  | stopListening how =>
      obtain ⟨hlock, hstop⟩ := Option.ite_none_right_eq_some.mp h
      exact .stopListening hlock hstop
  | startAccepting thread =>
      obtain ⟨⟨hlock, hfree⟩, heq⟩ := Option.ite_none_right_eq_some.mp h
      cases heq
      unfold Listener.startAccepting
      by_cases hguard : (!s.bIsAccepting && s.bIsListening) = true
      · rw [if_pos hguard]
        rw [Bool.and_eq_true, Bool.not_eq_true'] at hguard
        cases thread with
        | none => exact .unstarted none
        | some t => exact .creates hguard.1 hguard.2 (hfree t rfl) hlock
      · rw [if_neg hguard]
        exact .unstarted thread
  | started =>
      obtain ⟨hstarting, heq⟩ := Option.ite_none_right_eq_some.mp h
      cases heq
      exact .started hstarting
  | begins t =>
      obtain ⟨ht, heq⟩ := Option.ite_none_right_eq_some.mp h
      cases heq
      exact .begins ht
  | accepts t client =>
      obtain ⟨⟨fd, hopen, ht⟩, heq⟩ := Option.ite_none_right_eq_some.mp h
      cases heq
      exact .accepts ht hopen
  | leaves t =>
      obtain ⟨hloop, heq⟩ := Option.ite_none_right_eq_some.mp h
      cases heq
      obtain ⟨phase, ht, hloop⟩ := (Option.any_eq_true _ _).mp hloop
      exact .leaves ht hloop
  | clears t =>
      obtain ⟨ht, heq⟩ := Option.ite_none_right_eq_some.mp h
      cases heq
      exact .clears ht
  | ends t =>
      obtain ⟨ht, heq⟩ := Option.ite_none_right_eq_some.mp h
      cases heq
      exact .ends ht

/-! ### Invariants of a run -/

/-- A live thread is the one that `StopListening` would cancel, and its flag is set or will be. -/
structure ListeningInv (s : Listener) (n : ℕ) : Prop where
  live : ∀ t, s.Live t → s.AcceptingThreadID = some t ∧ (s.bIsAccepting = true ∨ s.starting = true)
  opened : s.bIsListening = true → ∃ fd ∈ s.sockets, s.ListeningSock = some fd
  number : s.sockets.card = n + if s.bIsListening = true then 1 else 0
  fresh : ∃ k, ∀ t, k ≤ t → s.threads t = none

/-- Threads that have ended stay below a bound, with those that run. -/
theorem fresh_setThread {phase : Option AcceptPhase} (h : ∃ k, ∀ u, k ≤ u → s.threads u = none) :
    ∃ k, ∀ u, k ≤ u → (s.setThread t phase).threads u = none := by
  obtain ⟨k, hk⟩ := h
  refine ⟨max k (t + 1), fun u hu => ?_⟩
  have hne : u ≠ t := by omega
  rw [threads_setThread, if_neg hne]
  exact hk u (by omega)

theorem ListeningInv.startListening (hinv : ListeningInv s n) {usPort : ℕ} {socket : Option ℕ}
    {listens : Bool} (hclosed : s.bIsListening = false) (hnew : ∀ fd ∈ socket, fd ∉ s.sockets) :
    ListeningInv (s.startListening usPort socket listens) n := by
  obtain ⟨hlive, -, hnumber, hfresh⟩ := hinv
  rw [hclosed, if_neg Bool.false_ne_true] at hnumber
  have hsame : ∀ sock : Option ℕ, ListeningInv { s with ListeningSock := sock } n := by
    intro sock
    refine ⟨hlive, ?_, ?_, hfresh⟩
    · intro hopen
      rw [show s.bIsListening = true from hopen] at hclosed
      exact absurd hclosed (by simp)
    · show s.sockets.card = n + if s.bIsListening = true then 1 else 0
      rw [hclosed, if_neg Bool.false_ne_true]
      exact hnumber
  cases socket with
  | none => exact hsame none
  | some fd =>
      cases listens with
      | false => exact hsame (some fd)
      | true =>
          refine ⟨hlive, fun _ => ⟨fd, Finset.mem_insert_self fd _, rfl⟩, ?_, hfresh⟩
          show (insert fd s.sockets).card = n + 1
          rw [Finset.card_insert_of_notMem (hnew fd rfl)]
          omega

/-- The socket of a server that listens is closed. -/
theorem ListeningInv.card_closeSock (hinv : ListeningInv s n) (hopen : s.bIsListening = true) :
    s.closeSock.sockets.card = n := by
  obtain ⟨fd, hfd, hsock⟩ := hinv.opened hopen
  have hnumber := hinv.number
  rw [if_pos hopen] at hnumber
  unfold Listener.closeSock
  rw [hsock]
  show (s.sockets.erase fd).card = n
  rw [Finset.card_erase_of_mem hfd]
  omega

theorem ListeningInv.stopListening (hinv : ListeningInv s n)
    (h : s.stopListening how = some s') : ListeningInv s' n := by
  obtain ⟨hthreads, hid, haccepting, hstarting, -⟩ := closeSock_fields s
  obtain ⟨-, rfl⟩ | ⟨hopen, -, rfl⟩ |
    ⟨hopen, hflag, t, phase, clears, rest, ht, hphase, hhow, rfl⟩ := stopListening_cases h
  · exact hinv
  · refine ⟨?_, fun hfalse => absurd hfalse Bool.false_ne_true, ?_, ?_⟩
    · intro t hlive
      unfold Listener.Live at hlive
      simp only [hthreads] at hlive
      simp only [hid, haccepting, hstarting]
      exact hinv.live t hlive
    · exact hinv.card_closeSock hopen
    · simp only [hthreads]
      exact hinv.fresh
  · have hsame : ∀ u, (s.closeSock.setThread t rest).Live u ↔ (s.setThread t rest).Live u := by
      intro u
      unfold Listener.Live
      rw [threads_setThread, threads_setThread, hthreads]
    have hdead : ∀ u, ¬ (s.setThread t rest).Live u := by
      intro u hlive
      obtain ⟨-, p, hp, hlive⟩ | ⟨hne, hlive⟩ := live_setThread.mp hlive
      · rw [(join_clears hhow).2.2 p hp] at hlive
        exact absurd hlive Bool.false_ne_true
      · have hthis := (hinv.live u hlive).1
        rw [ht, Option.some.injEq] at hthis
        exact hne hthis.symm
    refine ⟨?_, fun hfalse => absurd hfalse Bool.false_ne_true, ?_, ?_⟩
    · intro u hlive
      exact absurd ((hsame u).mp hlive) (hdead u)
    · exact hinv.card_closeSock hopen
    · have hfresh : ∃ k, ∀ u, k ≤ u → s.closeSock.threads u = none := by
        rw [hthreads]
        exact hinv.fresh
      exact fresh_setThread hfresh

/-- A thread goes on, as live as it was. -/
theorem live_moved (next : AcceptPhase) {phase : AcceptPhase} (ht : s.threads t = some phase)
    (hsame : next.live = phase.live) (u : ℕ) : (s.setThread t (some next)).Live u ↔ s.Live u := by
  rw [live_setThread]
  constructor
  · intro h
    obtain ⟨rfl, p, hp, hlive⟩ | ⟨-, hlive⟩ := h
    · rw [Option.mem_some_iff] at hp
      refine ⟨phase, ht, ?_⟩
      rw [← hsame, hp]
      exact hlive
    · exact hlive
  · intro hlive
    by_cases hu : u = t
    · subst hu
      obtain ⟨p, hp, hlive⟩ := hlive
      rw [ht, Option.mem_some_iff] at hp
      refine .inl ⟨rfl, next, rfl, ?_⟩
      rw [hsame, hp]
      exact hlive
    · exact .inr ⟨hu, hlive⟩

theorem ListeningInv.moved (hinv : ListeningInv s n) (next : AcceptPhase) {phase : AcceptPhase}
    (ht : s.threads t = some phase) (hsame : next.live = phase.live) :
    ListeningInv (s.setThread t (some next)) n :=
  ⟨fun u hlive => hinv.live u ((live_moved next ht hsame u).mp hlive), hinv.opened, hinv.number,
    fresh_setThread hinv.fresh⟩

/-- Without its live thread a server has none. -/
theorem ListeningInv.not_live (hinv : ListeningInv s n) (ht : s.Live t) (phase : Option AcceptPhase)
    (hdead : ∀ p ∈ phase, p.live = false) (u : ℕ) : ¬ (s.setThread t phase).Live u := by
  intro hlive
  obtain ⟨-, p, hp, hlive⟩ | ⟨hne, hlive⟩ := live_setThread.mp hlive
  · rw [hdead p hp] at hlive
    exact absurd hlive Bool.false_ne_true
  · have hsame := (hinv.live u hlive).1
    rw [(hinv.live t ht).1, Option.some.injEq] at hsame
    exact hne hsame.symm

/-- The thread that `StartAccepting` has created. -/
theorem ListeningInv.created (hinv : ListeningInv s n) (hlock : s.starting = false)
    (hflag : s.bIsAccepting = false) (t : ℕ) :
    ListeningInv
      { s.setThread t (some .created) with AcceptingThreadID := some t, starting := true } n := by
  refine ⟨?_, hinv.opened, hinv.number, fresh_setThread hinv.fresh⟩
  intro u hlive
  obtain ⟨rfl, -⟩ | ⟨-, hlive⟩ := live_setThread.mp hlive
  · exact ⟨rfl, .inr rfl⟩
  · obtain ⟨-, hset | hset⟩ := hinv.live u hlive
    · rw [hflag] at hset
      exact absurd hset Bool.false_ne_true
    · rw [hlock] at hset
      exact absurd hset Bool.false_ne_true

/-- **One step** keeps the invariant, and leaves the sockets open that it leaks. -/
theorem ListeningInv.step (hinv : ListeningInv s n) (h : s.step a = some s') :
    ListeningInv s' (n + a.leaks s) := by
  cases step_turn h with
  | startListening _ hclosed hnew => exact hinv.startListening hclosed hnew
  | stopListening _ hstop => exact hinv.stopListening hstop
  | unstarted thread => exact hinv
  | creates hflag _ _ hlock => exact hinv.created hlock hflag _
  | started _ =>
      exact ⟨fun t hlive => ⟨(hinv.live t hlive).1, .inl rfl⟩, hinv.opened, hinv.number, hinv.fresh⟩
  | begins ht => exact hinv.moved _ ht rfl
  | accepts _ _ => exact ⟨hinv.live, hinv.opened, hinv.number, hinv.fresh⟩
  | leaves ht hloop => exact hinv.moved _ ht (live_of_inLoop hloop).symm
  | clears ht =>
      have hdead := hinv.not_live ⟨_, ht, rfl⟩ (some .cleared) (by simp [AcceptPhase.live])
      exact ⟨fun u hlive => absurd hlive (hdead u), hinv.opened, hinv.number,
        fresh_setThread hinv.fresh⟩
  | ends ht =>
      have hmoved := hinv.moved .ended ht rfl
      refine ⟨hmoved.live, fun hfalse => absurd hfalse Bool.false_ne_true, ?_, hmoved.fresh⟩
      exact hinv.number

theorem ListeningRun.inv (h : ListeningRun s fate n) : ListeningInv s n := by
  induction h with
  | start =>
      refine ⟨?_, fun hfalse => absurd hfalse Bool.false_ne_true, rfl, 0, fun t _ => rfl⟩
      intro t hlive
      obtain ⟨p, hp, -⟩ := hlive
      exact absurd hp (by simp)
  | step a _ hstep ih => exact ih.step hstep

/-- **The sockets of a server**, in any interleaving of the calls with the accepting threads: a
socket that it closes is open; it has one open besides those its threads left open, if it listens;
and at most one accepting thread has not yet cleared `bIsAccepting`. -/
theorem listening_sockets (h : ListeningRun s fate n) :
    (s.bIsListening = true → ∃ fd ∈ s.sockets, s.ListeningSock = some fd) ∧
      s.sockets.card = n + (if s.bIsListening = true then 1 else 0) ∧
      ∀ t u, s.Live t → s.Live u → t = u := by
  refine ⟨h.inv.opened, h.inv.number, ?_⟩
  intro t u ht hu
  have hid := (h.inv.live t ht).1
  rw [(h.inv.live u hu).1, Option.some.injEq] at hid
  exact hid.symm

/-! ### The fate of a server -/

/-- What a fate says of the state. -/
def Fate.Holds (s : Listener) : Fate → Prop
  | .works => ¬ s.Stuck
  -- the thread that `StopListening` would cancel has been joined
  | .cancelled => s.Stuck ∧ s.starting = false ∧
      ∃ t, s.AcceptingThreadID = some t ∧ s.threads t = none
  | .overtaken => s.Stuck

theorem startListening_fields (s : Listener) (usPort : ℕ) (socket : Option ℕ) (listens : Bool) :
    ∃ sock sockets port opened, s.startListening usPort socket listens = { s with
      ListeningSock := sock, sockets := sockets, usListeningPort := port,
      bIsListening := opened } := by
  cases socket with
  | none => exact ⟨_, _, _, _, rfl⟩
  | some fd =>
      cases listens with
      | false => exact ⟨_, _, _, _, rfl⟩
      | true => exact ⟨_, _, _, _, rfl⟩

/-- The flags and the live threads decide. -/
theorem Listener.Stuck.congr (h : s.Stuck) (haccepting : s'.bIsAccepting = s.bIsAccepting)
    (hstarting : s'.starting = s.starting) (hlive : ∀ t, s'.Live t → s.Live t) : s'.Stuck := by
  refine ⟨?_, fun t ht => h.2 t (hlive t ht)⟩
  rw [haccepting, hstarting]
  exact h.1

/-- The thread is joined, and lives no longer. -/
theorem not_live_joined {phase : AcceptPhase} {clears : Bool} {rest : Option AcceptPhase}
    (hothers : ∀ u, u ≠ t → ¬ s.Live u) (hhow : phase.join how = some (clears, rest)) (u : ℕ) :
    ¬ (s.closeSock.setThread t rest).Live u := by
  intro hlive
  obtain ⟨-, p, hp, hlive⟩ | ⟨hne, hlive⟩ := live_setThread.mp hlive
  · rw [(join_clears hhow).2.2 p hp] at hlive
    exact absurd hlive Bool.false_ne_true
  · unfold Listener.Live at hlive
    rw [(closeSock_fields s).1] at hlive
    exact hothers u hne hlive

/-- A server that is stuck stays so, and accepts nobody. -/
theorem Listener.Stuck.step (h : s.Stuck) (hstep : s.step a = some s') :
    s'.Stuck ∧ s'.accepted = s.accepted := by
  have hdead : ∀ {t : ℕ} {phase : AcceptPhase}, s.threads t = some phase → phase.live = true →
      False := fun ht hlive => h.2 _ ⟨_, ht, hlive⟩
  cases step_turn hstep with
  | @startListening usPort socket listens _ _ _ =>
      obtain ⟨sock, sockets, port, opened, heq⟩ := startListening_fields s usPort socket listens
      rw [heq]
      exact ⟨h.congr rfl rfl fun _ hlive => hlive, rfl⟩
  | stopListening hlock hstop =>
      obtain ⟨hthreads, -, haccepting, hstarting, haccepted⟩ := closeSock_fields s
      obtain ⟨-, rfl⟩ | ⟨-, hflag, -⟩ | ⟨-, hflag, t, phase, clears, rest, ht, hphase, hhow, rfl⟩ :=
        stopListening_cases hstop
      · exact ⟨h, rfl⟩
      · obtain ⟨hset | hset, -⟩ := h
        · rw [hflag] at hset
          exact absurd hset Bool.false_ne_true
        · rw [hlock] at hset
          exact absurd hset Bool.false_ne_true
      · have hkept : clears = false := by
          rw [Bool.eq_false_iff]
          intro hclears
          exact hdead hphase ((join_clears hhow).1.mp hclears).1
        refine ⟨⟨.inl ?_, not_live_joined (fun u _ => h.2 u) hhow⟩, haccepted⟩
        show (!clears) = true
        rw [hkept]
        rfl
  | unstarted thread => exact ⟨h, rfl⟩
  | creates hflag _ _ hlock =>
      obtain ⟨hset | hset, -⟩ := h
      · rw [hflag] at hset
        exact absurd hset Bool.false_ne_true
      · rw [hlock] at hset
        exact absurd hset Bool.false_ne_true
  | started _ => exact ⟨⟨.inl rfl, h.2⟩, rfl⟩
  | begins ht => exact (hdead ht rfl).elim
  | accepts ht _ => exact (hdead ht rfl).elim
  | leaves ht hloop => exact (hdead ht (live_of_inLoop hloop)).elim
  | clears ht => exact (hdead ht rfl).elim
  | ends ht =>
      exact ⟨h.congr rfl rfl fun u hlive => (live_moved .ended ht rfl u).mp hlive, rfl⟩

/-- Behind a cancelled thread: its number is not given anew. -/
theorem cancelled_kept (h : Fate.cancelled.Holds s) (hstep : s.step a = some s') :
    Fate.cancelled.Holds s' := by
  obtain ⟨hstuck, hlock, t, ht, hjoined⟩ := h
  refine ⟨(hstuck.step hstep).1, ?_⟩
  have hflag : s.bIsAccepting = true := by
    obtain ⟨hset | hset, -⟩ := hstuck
    · exact hset
    · rw [hlock] at hset
      exact absurd hset Bool.false_ne_true
  have hother : ∀ {u : ℕ} {phase : AcceptPhase}, s.threads u = some phase → t ≠ u := by
    intro u phase hu heq
    rw [← heq, hjoined] at hu
    cases hu
  have hmoved : ∀ {u : ℕ} {phase next : AcceptPhase}, s.threads u = some phase →
      (s.setThread u (some next)).threads t = none := by
    intro u phase next hu
    rw [threads_setThread, if_neg (hother hu)]
    exact hjoined
  cases step_turn hstep with
  | @startListening usPort socket listens _ _ _ =>
      obtain ⟨sock, sockets, port, opened, heq⟩ := startListening_fields s usPort socket listens
      rw [heq]
      exact ⟨hlock, t, ht, hjoined⟩
  | stopListening _ hstop =>
      obtain ⟨-, rfl⟩ | ⟨-, hunset, -⟩ | ⟨-, -, u, phase, clears, rest, hu, hphase, -, -⟩ :=
        stopListening_cases hstop
      · exact ⟨hlock, t, ht, hjoined⟩
      · rw [hflag] at hunset
        cases hunset
      · rw [ht, Option.some.injEq] at hu
        exact absurd hu (hother hphase)
  | unstarted thread => exact ⟨hlock, t, ht, hjoined⟩
  | creates hunset _ _ _ =>
      rw [hflag] at hunset
      cases hunset
  | started hset =>
      rw [hlock] at hset
      cases hset
  | begins hu => exact ⟨hlock, t, ht, hmoved hu⟩
  | accepts _ _ => exact ⟨hlock, t, ht, hjoined⟩
  | leaves hu _ => exact ⟨hlock, t, ht, hmoved hu⟩
  | clears hu => exact ⟨hlock, t, ht, hmoved hu⟩
  | ends hu => exact ⟨hlock, t, ht, hmoved hu⟩

/-- The flags are off. -/
theorem not_stuck_of_unset (haccepting : s.bIsAccepting = false) (hlock : s.starting = false) :
    ¬ s.Stuck := by
  intro hstuck
  obtain ⟨hset | hset, -⟩ := hstuck
  · rw [haccepting] at hset
    cases hset
  · rw [hlock] at hset
    cases hset

theorem not_stuck_of_live (h : s.Live t) : ¬ s.Stuck := fun hstuck => hstuck.2 t h

/-- `StopListening` of a server that works: only a cancelled thread leaves it stuck. -/
theorem works_stopListening (hinv : ListeningInv s n) (hworks : ¬ s.Stuck)
    (hlock : s.starting = false) (hstop : s.stopListening how = some s') :
    ((Fate.works).after s (.stopListening how)).Holds s' := by
  obtain ⟨hthreads, hid, haccepting, hstarting, -⟩ := closeSock_fields s
  obtain ⟨hclosed, heq⟩ | ⟨-, hflag, rfl⟩ |
    ⟨hopen, hflag, t, phase, clears, rest, ht, hphase, hhow, rfl⟩ := stopListening_cases hstop
  · rw [heq]
    have hafter : (Fate.works).after s (.stopListening how) = .works := by
      cases how with
      | cancelled =>
          show (if _ then _ else _) = _
          rw [hclosed]
          rfl
      | _ => rfl
    rw [hafter]
    exact hworks
  · have hafter : (Fate.works).after s (.stopListening how) = .works := by
      cases how with
      | cancelled =>
          show (if _ then _ else _) = _
          rw [hflag, Bool.and_false]
          rfl
      | _ => rfl
    rw [hafter]
    refine not_stuck_of_unset ?_ ?_
    · show s.closeSock.bIsAccepting = false
      rw [haccepting]
      exact hflag
    · show s.closeSock.starting = false
      rw [hstarting]
      exact hlock
  · -- its live thread is the one that is joined
    have hlive : phase.live = true := by
      by_contra hdead
      refine hworks ⟨.inl hflag, fun u hu => hdead ?_⟩
      obtain ⟨p, hp, hlive⟩ := hu
      have hsame := (hinv.live u ⟨p, hp, hlive⟩).1
      rw [ht, Option.some.injEq] at hsame
      rw [← hsame, hphase, Option.mem_some_iff] at hp
      rw [hp]
      exact hlive
    have hothers : ∀ u, u ≠ t → ¬ s.Live u := by
      intro u hne hu
      have hsame := (hinv.live u hu).1
      rw [ht, Option.some.injEq] at hsame
      exact hne hsame.symm
    have hdead := not_live_joined hothers hhow
    obtain ⟨hclears, hnone, -⟩ := join_clears hhow
    by_cases hcancelled : how = .cancelled
    · subst hcancelled
      have hafter : (Fate.works).after s (.stopListening .cancelled) = .cancelled := by
        show (if _ then _ else _) = _
        rw [hopen, hflag]
        rfl
      have hkept : clears = false := by
        rw [Bool.eq_false_iff]
        intro hset
        exact (hclears.mp hset).2 rfl
      rw [hafter]
      refine ⟨⟨.inl ?_, hdead⟩, ?_, t, ?_, ?_⟩
      · show (!clears) = true
        rw [hkept]
        rfl
      · exact hstarting.trans hlock
      · exact hid.trans ht
      · show (s.closeSock.setThread t rest).threads t = none
        rw [threads_setThread, if_pos rfl]
        exact hnone rfl
    · have hafter : (Fate.works).after s (.stopListening how) = .works := by
        cases how with
        | cancelled => exact absurd rfl hcancelled
        | _ => rfl
      rw [hafter]
      refine not_stuck_of_unset ?_ (hstarting.trans hlock)
      show (!clears) = false
      rw [hclears.mpr ⟨hlive, hcancelled⟩]
      rfl

/-- **One step** of a server that works: its fate. -/
theorem works_step (hinv : ListeningInv s n) (hworks : ¬ s.Stuck) (hstep : s.step a = some s') :
    ((Fate.works).after s a).Holds s' := by
  cases step_turn hstep with
  | @startListening usPort socket listens _ _ _ =>
      obtain ⟨sock, sockets, port, opened, heq⟩ := startListening_fields s usPort socket listens
      rw [heq]
      exact hworks
  | stopListening hlock hstop => exact works_stopListening hinv hworks hlock hstop
  | unstarted thread => exact hworks
  | @creates t _ _ _ _ => exact not_stuck_of_live (live_setThread.mpr (.inl ⟨rfl, _, rfl, rfl⟩))
  | started hset =>
      intro hstuck
      exact hworks ⟨.inr hset, hstuck.2⟩
  | begins ht =>
      intro hstuck
      refine hworks ⟨hstuck.1, fun u hu => hstuck.2 u ?_⟩
      exact (live_moved (.loop s.ListeningSock) ht rfl u).mpr hu
  | accepts _ _ => exact hworks
  | leaves ht hloop =>
      intro hstuck
      refine hworks ⟨hstuck.1, fun u hu => hstuck.2 u ((live_moved _ ht ?_ u).mpr hu)⟩
      exact (live_of_inLoop hloop).symm
  | @clears t ht =>
      have hdead := hinv.not_live ⟨_, ht, rfl⟩ (some .cleared) (by simp [AcceptPhase.live])
      by_cases hset : s.starting = true
      · have hafter : (Fate.works).after s (.clears t) = .overtaken := if_pos hset
        rw [hafter]
        exact ⟨.inr hset, hdead⟩
      · have hafter : (Fate.works).after s (.clears t) = .works := if_neg hset
        rw [hafter]
        exact not_stuck_of_unset rfl (Bool.eq_false_iff.mpr hset)
  | ends ht =>
      intro hstuck
      exact hworks ⟨hstuck.1, fun u hu => hstuck.2 u ((live_moved .ended ht rfl u).mpr hu)⟩

theorem ListeningRun.holds (h : ListeningRun s fate n) : fate.Holds s := by
  induction h with
  | start => exact not_stuck_of_unset rfl rfl
  | @step s s' fate n a hrun hstep ih =>
      cases fate with
      | works => exact works_step hrun.inv ih hstep
      | cancelled => exact cancelled_kept ih hstep
      | overtaken => exact (Listener.Stuck.step ih hstep).1

/-! ### A server that works accepts again -/

/-- The states that a server can come to. -/
def Listener.Reaches : Listener → Listener → Prop :=
  Relation.ReflTransGen fun s s' => ∃ a, s.step a = some s'

theorem Listener.Reaches.step {s₀ : Listener} (h : s₀.Reaches s) (a : ListeningAct)
    (hstep : s.step a = some s') : s₀.Reaches s' := Relation.ReflTransGen.tail h ⟨a, hstep⟩

theorem Listener.Stuck.reaches (h : s.Stuck) (hreaches : s.Reaches s') :
    s'.Stuck ∧ s'.accepted = s.accepted := by
  induction hreaches with
  | refl => exact ⟨h, rfl⟩
  | tail _ hstep ih =>
      obtain ⟨a, hstep⟩ := hstep
      obtain ⟨hstuck, haccepted⟩ := ih.1.step hstep
      exact ⟨hstuck, haccepted.trans ih.2⟩

/-- What the way back needs of a state. -/
structure Listener.Rests (s s' : Listener) : Prop where
  bIsAccepting : s'.bIsAccepting = false
  starting : s'.starting = false
  accepted : s'.accepted = s.accepted
  fresh : ∃ t, s'.threads t = none

/-- The thread of a server can come to its end, whatever the phase it is in. -/
theorem leaves_loop {phase : AcceptPhase} (ht : s.threads t = some phase)
    (hlive : phase.live = true) : s.Reaches (s.setThread t (some .left)) := by
  have hloop : ∀ sock, (s.setThread t (some (.loop sock))).step (.leaves t) =
      some (s.setThread t (some .left)) := by
    intro sock
    have hany : ((s.setThread t (some (.loop sock))).threads t).any AcceptPhase.inLoop = true := by
      rw [threads_setThread, if_pos rfl]
      rfl
    show (if _ then _ else _) = _
    rw [if_pos hany]
    unfold Listener.setThread
    simp only [Function.update_idem]
  have hself : s.setThread t (some phase) = s := by
    unfold Listener.setThread
    rw [← ht, Function.update_eq_self]
  cases phase with
  | created =>
      have hbegins : s.step (.begins t) = some (s.setThread t (some (.loop s.ListeningSock))) :=
        if_pos ht
      exact (Listener.Reaches.step .refl _ hbegins).step _ (hloop s.ListeningSock)
  | loop sock =>
      have hleaves := hloop sock
      rw [hself] at hleaves
      exact Listener.Reaches.step .refl _ hleaves
  | left =>
      rw [hself]
      exact .refl
  | _ => exact absurd hlive Bool.false_ne_true

/-- A server that works comes to rest: its thread ends. -/
theorem comes_to_rest (hinv : ListeningInv s n) (hworks : ¬ s.Stuck) :
    ∃ s', s.Reaches s' ∧ s.Rests s' := by
  obtain ⟨k, hk⟩ := hinv.fresh
  -- `StartAccepting` stores its flag first
  have hstored : ∃ s₁, s.Reaches s₁ ∧ s₁.starting = false ∧ s₁.accepted = s.accepted ∧
      s₁.threads = s.threads ∧ (s₁.bIsAccepting = true → ∃ t, s.Live t) := by
    by_cases hset : s.starting = true
    · have hstarted : s.step .started = some { s with starting := false, bIsAccepting := true } :=
        if_pos hset
      refine ⟨_, Listener.Reaches.step .refl _ hstarted, rfl, rfl, rfl, fun _ => ?_⟩
      by_contra hnone
      exact hworks ⟨.inr hset, fun t ht => hnone ⟨t, ht⟩⟩
    · refine ⟨s, .refl, Bool.eq_false_iff.mpr hset, rfl, rfl, fun hflag => ?_⟩
      by_contra hnone
      exact hworks ⟨.inl hflag, fun t ht => hnone ⟨t, ht⟩⟩
  obtain ⟨s₁, hreaches, hlock, haccepted, hthreads, halive⟩ := hstored
  by_cases hflag : s₁.bIsAccepting = true
  · obtain ⟨t, phase, ht, hlive⟩ := halive hflag
    have hleft := hreaches.trans (leaves_loop (hthreads ▸ ht) hlive)
    have hclears : (s₁.setThread t (some .left)).step (.clears t) = some
        { (s₁.setThread t (some .left)).setThread t (some .cleared) with
          bIsAccepting := false } := by
      refine if_pos ?_
      rw [threads_setThread, if_pos rfl]
    refine ⟨_, Listener.Reaches.step hleft _ hclears, rfl, hlock, haccepted, max k (t + 1), ?_⟩
    have hne : max k (t + 1) ≠ t := by omega
    show ((s₁.setThread t _).setThread t _).threads _ = none
    rw [threads_setThread, if_neg hne, threads_setThread, if_neg hne, hthreads]
    exact hk _ (by omega)
  · refine ⟨s₁, hreaches, Bool.eq_false_iff.mpr hflag, hlock, haccepted, k, ?_⟩
    rw [hthreads]
    exact hk k (le_refl k)

/-- A server at rest can stop listening, listen, and accept. -/
theorem Listener.Rests.accepts {s₀ : Listener} (h : s₀.Rests s) :
    ∃ s', s.Reaches s' ∧ s'.accepted.length = s₀.accepted.length + 1 := by
  obtain ⟨hflag, hlock, haccepted, t, ht⟩ := h
  -- the server is stopped
  have hstopped : ∃ s₁, s.Reaches s₁ ∧ s₁.bIsListening = false ∧ s₁.bIsAccepting = false ∧
      s₁.starting = false ∧ s₁.accepted = s₀.accepted ∧ s₁.threads t = none := by
    by_cases hopen : s.bIsListening = true
    · obtain ⟨hthreads, -, haccepting, hstarting, hsame⟩ := closeSock_fields s
      have hstop : s.step (.stopListening .finished) =
          some { s.closeSock with bIsListening := false } := by
        show (if _ then (if _ then (if _ then _ else _) else _) else _) = _
        rw [if_pos hlock, if_pos hopen, hflag, if_neg Bool.false_ne_true]
      refine ⟨_, Listener.Reaches.step .refl _ hstop, rfl, haccepting.trans hflag,
        hstarting.trans hlock, hsame.trans haccepted, ?_⟩
      show s.closeSock.threads t = none
      rw [hthreads]
      exact ht
    · exact ⟨s, .refl, Bool.eq_false_iff.mpr hopen, hflag, hlock, haccepted, ht⟩
  obtain ⟨s₁, hreaches, hclosed, hflag₁, hlock₁, haccepted₁, ht₁⟩ := hstopped
  obtain ⟨fd, hfd⟩ := Infinite.exists_notMem_finset s₁.sockets
  have hlistens : s₁.step (.startListening 21 (some fd) true) =
      some (s₁.startListening 21 (some fd) true) := by
    refine if_pos ⟨hlock₁, hclosed, fun fd' hfd' => ?_⟩
    rw [Option.mem_some_iff] at hfd'
    rw [← hfd']
    exact hfd
  let s₂ := s₁.startListening 21 (some fd) true
  let s₃ : Listener :=
    { s₂.setThread t (some .created) with AcceptingThreadID := some t, starting := true }
  have hcreates : s₂.step (.startAccepting (some t)) = some s₃ := by
    have hguard : (!s₂.bIsAccepting && s₂.bIsListening) = true := by
      show (!s₁.bIsAccepting && true) = true
      rw [hflag₁]
      rfl
    show (if _ then some (if _ then _ else _) else _) = _
    rw [if_pos hguard, if_pos]
    refine ⟨hlock₁, fun u hu => ?_⟩
    rw [Option.mem_some_iff] at hu
    rw [← hu]
    exact ht₁
  let s₄ : Listener := { s₃ with starting := false, bIsAccepting := true }
  have hbegins : s₄.step (.begins t) = some (s₄.setThread t (some (.loop (some fd)))) :=
    if_pos (Function.update_self t _ _)
  have haccepts : (s₄.setThread t (some (.loop (some fd)))).step (.accepts t 0) =
      some { s₄.setThread t (some (.loop (some fd))) with accepted := s₁.accepted ++ [0] } :=
    if_pos ⟨fd, Finset.mem_insert_self fd _, Function.update_self t _ _⟩
  have hstored : s₃.step .started = some s₄ := rfl
  have hloop := (((hreaches.step _ hlistens).step _ hcreates).step _ hstored).step _ hbegins
  refine ⟨_, hloop.step _ haccepts, ?_⟩
  show (s₁.accepted ++ [0]).length = _
  rw [haccepted₁, List.length_append]
  rfl

/-- **A server accepts again** exactly if none of its accepting threads was cancelled in the loop by
`StopListening`, and none has cleared `bIsAccepting` before `StartAccepting` stored it. -/
theorem accepts_again_iff (h : ListeningRun s fate n) :
    (∃ s', s.Reaches s' ∧ s.accepted.length < s'.accepted.length) ↔ fate = .works := by
  constructor
  · intro hagain
    obtain ⟨s', hreaches, hlength⟩ := hagain
    by_contra hfate
    have hstuck : s.Stuck := by
      have hholds := h.holds
      cases fate with
      | works => exact absurd rfl hfate
      | cancelled => exact hholds.1
      | overtaken => exact hholds
    rw [(hstuck.reaches hreaches).2] at hlength
    exact absurd hlength (lt_irrefl _)
  · intro hfate
    subst hfate
    obtain ⟨s₁, hrest, hrests⟩ := comes_to_rest h.inv h.holds
    obtain ⟨s₂, hreaches, hlength⟩ := hrests.accepts
    refine ⟨s₂, hrest.trans hreaches, ?_⟩
    omega

/-- **A cancelled thread**: `StartAccepting` finds the flag set ever after, and a `StopListening` of
the server while it listens cancels a thread that has been joined. -/
theorem stopped_for_good (h : ListeningRun s .cancelled n) :
    s.bIsAccepting = true ∧ (s.bIsListening = true → ∀ how, s.stopListening how = none) := by
  obtain ⟨⟨hset, -⟩, hlock, t, ht, hjoined⟩ := h.holds
  have hflag : s.bIsAccepting = true := by
    obtain hset | hset := hset
    · exact hset
    · rw [hlock] at hset
      cases hset
  refine ⟨hflag, fun hopen how => ?_⟩
  obtain ⟨hthreads, hid, -⟩ := closeSock_fields s
  show (if _ then (if _ then _ else _) else _) = _
  rw [if_pos hopen, if_pos hflag]
  have hnone : s.closeSock.joinThread how = none := by
    unfold Listener.joinThread
    rw [hid, ht, hthreads]
    simp [hjoined]
  rw [hnone]
  rfl

/-! ### A visit -/

/-- The server listens, and its thread is in the loop. -/
def visited : Listener where
  bIsListening := true
  bIsAccepting := true
  ListeningSock := some 3
  AcceptingThreadID := some 0
  sockets := {3}
  threads := Function.update (Function.update (fun _ => none) 0 (some .created)) 0
    (some (.loop (some 3)))

theorem listeningRun_visited : ListeningRun visited .works 0 := by
  have hlistens := ListeningRun.start.step (.startListening 21 (some 3) true) rfl
  have hcreates := hlistens.step (.startAccepting (some 0)) rfl
  exact (hcreates.step .started rfl).step (.begins 0) rfl

theorem listening_sockets_visited : visited.sockets.card = 0 + 1 :=
  (listening_sockets listeningRun_visited).2.1

/-- The server is stopped; the thread was cancelled in the loop. -/
def silenced : Listener :=
  { visited.closeSock.setThread 0 none with bIsListening := false }

theorem listeningRun_silenced : ListeningRun silenced .cancelled 0 :=
  listeningRun_visited.step (.stopListening .cancelled) rfl

theorem accepts_again_silenced :
    ¬ ∃ s', silenced.Reaches s' ∧ silenced.accepted.length < s'.accepted.length := by
  rw [accepts_again_iff listeningRun_silenced]
  decide

/-- It listens once more, and cannot be stopped. -/
theorem stopped_for_good_silenced :
    let s := silenced.startListening 21 (some 4) true
    s.stopListening .cancelled = none ∧ s.stopListening .finished = none := by
  have hrun := listeningRun_silenced.step (.startListening 21 (some 4) true) rfl
  have hundefined := (stopped_for_good hrun).2 rfl
  exact ⟨hundefined .cancelled, hundefined .finished⟩

end ClusterFtpd
