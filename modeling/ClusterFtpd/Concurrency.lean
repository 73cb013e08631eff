import ClusterFtpd.Footprints
import ClusterFtpd.VfsFrame
import Mathlib.Data.List.Permutation

/-!
# Concurrent sessions

Each session runs its commands one after the other on its own connection; the Redis commands of
different sessions interleave in any order, with a `MULTI .. EXEC` block as one operation.  The
final save of an upload runs in its own thread, so it is a job on its own.

A run keeps the trace of its Redis operations and the log of the ended commands with their replies.
`Serial` runs the same commands one after the other.

Main results:

* `run_serial`: a complete run has the replies and the final database of every order of its commands
  in which no operation was executed before a conflicting one of an earlier command;
* `mkd_mkd_not_serial`: two `MKD` of one path both succeed when their lookups come before both
  transactions.
-/

namespace ClusterFtpd

open Interaction MachineInt

/-- What a session or a transfer thread runs on its connection. -/
inductive Job where
  | cmd (c : VfsCmd)
  | save (path : Text) (f : FileRecord) (now : ℤ)

/-- The program of a job, from `szRenameFromPath` to its reply and the new `szRenameFromPath`. -/
def Job.prog : Job → Text → RedisProg (Option Reply × Text)
  | .cmd c, szFrom => c.prog szFrom
  | .save path f now, szFrom => do
      let _ ← saveNewFile now path f
      return (none, szFrom)

/-- The names of the entries a job asks for. -/
def Job.names : Job → Text → List Text
  | .cmd c, szFrom => c.names szFrom
  | .save path _ _, _ => lookupNames path

/-- A job asks only for its names. -/
theorem Job.uses_prog (j : Job) (szFrom : Text) :
    Uses (SameAnswer (j.names szFrom)) (j.prog szFrom) := by
  cases j with
  | cmd c => exact c.uses_prog szFrom
  | save path f now => exact (uses_saveNewFile (fun _ ht => ht) now f).bind fun _ => trivial

/-- A session: its pending path, how many of its jobs ended, and the one that runs with the rest
of its program. -/
structure Session where
  szRenameFromPath : Text
  ended : ℕ
  running : Option (Job × RedisProg (Option Reply × Text))

/-- An ended job: the `number`-th of its session. -/
structure Ended where
  session : ℕ
  number : ℕ
  job : Job
  reply : Option Reply

/-- The name of a job in a trace: its session and its number there. -/
abbrev JobName := ℕ × ℕ

/-- The name of an ended job. -/
def Ended.name (y : Ended) : JobName := (y.session, y.number)

/-- An executed operation, with its job and the pending path that job was started with. -/
structure Operation where
  session : ℕ
  number : ℕ
  job : Job
  szRenameFromPath : Text
  event : Event RedisI

/-- The name of the job of an operation. -/
def Operation.name (x : Operation) : JobName := (x.session, x.number)

/-- The names of the entries the job of an operation asks for. -/
def Operation.names (x : Operation) : List Text := x.job.names x.szRenameFromPath

/-- The operation under the name of its job. -/
def Operation.named (x : Operation) : JobName × Event RedisI := (x.name, x.event)

/-- The operations of a run. -/
abbrev Trace := List Operation

/-- **The runs of any number of sessions**, one Redis operation at a time. -/
inductive Interleaved (db₀ : Redis) (szFrom₀ : ℕ → Text) :
    Redis → (ℕ → Session) → Trace → List Ended → Prop where
  | init : Interleaved db₀ szFrom₀ db₀ (fun i => ⟨szFrom₀ i, 0, none⟩) [] []
  | start {db ss tr log} (i : ℕ) (j : Job) : Interleaved db₀ szFrom₀ db ss tr log →
      (ss i).running = none →
      Interleaved db₀ szFrom₀ db
        (Function.update ss i { ss i with running := some (j, j.prog (ss i).szRenameFromPath) })
        tr log
  | op {db ss tr log} (i : ℕ) {j p e q db'} : Interleaved db₀ szFrom₀ db ss tr log →
      (ss i).running = some (j, p) → Step serveRedis p db e q db' →
      Interleaved db₀ szFrom₀ db'
        (Function.update ss i { ss i with running := some (j, q) })
        (tr ++ [⟨i, (ss i).ended, j, (ss i).szRenameFromPath, e⟩]) log
  -- the loop of `lookup_fid` asks again: nothing changes
  | wait {db ss tr log} (i : ℕ) {j k again q} : Interleaved db₀ szFrom₀ db ss tr log →
      (ss i).running = some (j, .poll (.hgetallDirent k) again q) → again (db.dirent k) = true →
      Interleaved db₀ szFrom₀ db ss tr log
  | reply {db ss tr log} (i : ℕ) {j r szFrom} : Interleaved db₀ szFrom₀ db ss tr log →
      (ss i).running = some (j, .ret (r, szFrom)) →
      Interleaved db₀ szFrom₀ db
        (Function.update ss i ⟨szFrom, (ss i).ended + 1, none⟩)
        tr (log ++ [⟨i, (ss i).ended, j, r⟩])

/-- The same jobs one after the other, each to its end, with the replies of the log. -/
inductive Serial : Redis → (ℕ → Text) → List Ended → Redis → Prop where
  | nil {db szFrom} : Serial db szFrom [] db
  | cons {db db' db'' szFrom szFrom' y ys} :
      run serveRedis (y.job.prog (szFrom y.session)) db = .done (y.reply, szFrom') db' →
      Serial db' (Function.update szFrom y.session szFrom') ys db'' →
      Serial db szFrom (y :: ys) db''

/-- The order of a log keeps the order of each session. -/
def KeepsSessions (order : List Ended) : Prop :=
  order.Pairwise fun y z => y.session = z.session → y.number < z.number

/-! ### The invariant of a run -/

variable {db₀ db : Redis} {szFrom₀ : ℕ → Text} {ss : ℕ → Session} {log : List Ended}

section Invariant

variable {tr : List (JobName × Event RedisI)}

/-- What a run knows about its trace: `szFrom i n` is the pending path of session `i` before its
`n`-th job. -/
structure RunInv (db₀ : Redis) (szFrom₀ : ℕ → Text) (db : Redis) (ss : ℕ → Session)
    (tr : List (JobName × Event RedisI)) (log : List Ended) (szFrom : ℕ → ℕ → Text) : Prop where
  replays : Replays serveRedis (tr.map Prod.snd) db₀ db
  first : ∀ i, szFrom i 0 = szFrom₀ i
  last : ∀ i, szFrom i (ss i).ended = (ss i).szRenameFromPath
  nodup : (log.map Ended.name).Nodup
  logged : ∀ i n, (i, n) ∈ log.map Ended.name ↔ n < (ss i).ended
  traced : ∀ x ∈ tr, x.1.2 < (ss x.1.1).ended ∨
    (x.1.2 = (ss x.1.1).ended ∧ (ss x.1.1).running ≠ none)
  played : ∀ y ∈ log, Plays (y.job.prog (szFrom y.session y.number)) (eventsOf y.name tr)
    (y.reply, szFrom y.session (y.number + 1))
  running : ∀ i j p, (ss i).running = some (j, p) → ∀ es a, Plays p es a →
    Plays (j.prog (szFrom i (ss i).ended)) (eventsOf (i, (ss i).ended) tr ++ es) a

theorem RunInv.init :
    RunInv db₀ szFrom₀ db₀ (fun i => ⟨szFrom₀ i, 0, none⟩) [] [] (fun i _ => szFrom₀ i) where
  replays := rfl
  first := fun _ => rfl
  last := fun _ => rfl
  nodup := List.nodup_nil
  logged := by simp
  traced := by simp
  played := by simp
  running := by simp

/-- Only one session is touched by a step. -/
theorem session_update {i i' : ℕ} {s : Session} :
    Function.update ss i s i' = if i' = i then s else ss i' := by
  by_cases h : i' = i
  · subst h
    rw [Function.update_self, if_pos rfl]
  · rw [Function.update_of_ne h, if_neg h]

variable {szFrom : ℕ → ℕ → Text}

/-- A job that has not been started has no events. -/
theorem RunInv.eventsOf_idle (h : RunInv db₀ szFrom₀ db ss tr log szFrom) {i : ℕ}
    (hidle : (ss i).running = none) : eventsOf (i, (ss i).ended) tr = [] := by
  rw [List.eq_nil_iff_forall_not_mem]
  intro e he
  have htr := h.traced _ (mem_eventsOf.mp he)
  simp [hidle] at htr

theorem RunInv.start (h : RunInv db₀ szFrom₀ db ss tr log szFrom) {i : ℕ} (j : Job)
    (hidle : (ss i).running = none) :
    RunInv db₀ szFrom₀ db
      (Function.update ss i { ss i with running := some (j, j.prog (ss i).szRenameFromPath) })
      tr log szFrom := by
  have hended : ∀ i', (Function.update ss i
      { ss i with running := some (j, j.prog (ss i).szRenameFromPath) } i').ended =
        (ss i').ended := by
    intro i'
    rw [session_update]
    by_cases hi : i' = i
    · rw [if_pos hi, hi]
    · rw [if_neg hi]
  refine ⟨h.replays, h.first, ?_, h.nodup, ?_, ?_, h.played, ?_⟩
  · intro i'
    rw [hended, h.last, session_update]
    by_cases hi : i' = i
    · rw [if_pos hi, hi]
    · rw [if_neg hi]
  · intro i' n
    rw [hended]
    exact h.logged i' n
  · intro x hx
    rw [hended, session_update]
    by_cases hi : x.1.1 = i
    · have htr := h.traced x hx
      rw [hi] at htr
      simp [hidle] at htr
      rw [hi]
      exact .inl htr
    · rw [if_neg hi]
      exact h.traced x hx
  · intro i' j' p hrun es a hp
    rw [hended]
    rw [session_update] at hrun
    by_cases hi : i' = i
    · subst hi
      rw [if_pos rfl, Option.some.injEq, Prod.mk.injEq] at hrun
      obtain ⟨rfl, rfl⟩ := hrun
      rw [h.eventsOf_idle hidle, h.last]
      exact hp
    · rw [if_neg hi] at hrun
      exact h.running i' j' p hrun es a hp

theorem RunInv.op (h : RunInv db₀ szFrom₀ db ss tr log szFrom) {i : ℕ} {j : Job}
    {p q : RedisProg (Option Reply × Text)} {e : Event RedisI} {db' : Redis}
    (hrun : (ss i).running = some (j, p)) (hst : Step serveRedis p db e q db') :
    RunInv db₀ szFrom₀ db' (Function.update ss i { ss i with running := some (j, q) })
      (tr ++ [((i, (ss i).ended), e)]) log szFrom := by
  have hended : ∀ i', (Function.update ss i { ss i with running := some (j, q) } i').ended =
      (ss i').ended := by
    intro i'
    rw [session_update]
    by_cases hi : i' = i
    · rw [if_pos hi, hi]
    · rw [if_neg hi]
  refine ⟨?_, h.first, ?_, h.nodup, ?_, ?_, ?_, ?_⟩
  · rw [List.map_append, replays_append]
    exact ⟨db, h.replays, hst.happens.1, hst.happens.2⟩
  · intro i'
    rw [hended, h.last, session_update]
    by_cases hi : i' = i
    · rw [if_pos hi, hi]
    · rw [if_neg hi]
  · intro i' n
    rw [hended]
    exact h.logged i' n
  · intro x hx
    rw [hended, session_update]
    rw [List.mem_append, List.mem_singleton] at hx
    by_cases hi : x.1.1 = i
    · rw [if_pos hi]
      obtain hx | rfl := hx
      · have htr := h.traced x hx
        rw [hi] at htr
        rw [hi]
        exact htr.imp_right fun ht => ⟨ht.1, by simp⟩
      · exact .inr ⟨rfl, by simp⟩
    · rw [if_neg hi]
      obtain hx | rfl := hx
      · exact h.traced x hx
      · exact absurd rfl hi
  · intro y hy
    have hne : (i, (ss i).ended) ≠ y.name := by
      intro heq
      have hlog := (h.logged i (ss i).ended).mp (heq ▸ List.mem_map_of_mem hy)
      omega
    rw [eventsOf_append, eventsOf_cons_of_ne hne, eventsOf_nil, List.append_nil]
    exact h.played y hy
  · intro i' j' p' hrun' es a hp
    rw [hended]
    rw [session_update] at hrun'
    by_cases hi : i' = i
    · subst hi
      rw [if_pos rfl, Option.some.injEq, Prod.mk.injEq] at hrun'
      obtain ⟨rfl, rfl⟩ := hrun'
      rw [eventsOf_append, eventsOf_cons_self, eventsOf_nil, List.append_assoc]
      exact h.running i' j p hrun (e :: es) a (hst.plays hp)
    · rw [if_neg hi] at hrun'
      have hne : (i, (ss i).ended) ≠ (i', (ss i').ended) := by
        intro heq
        exact hi (Prod.mk.inj heq).1.symm
      rw [eventsOf_append, eventsOf_cons_of_ne hne, eventsOf_nil, List.append_nil]
      exact h.running i' j' p' hrun' es a hp

theorem RunInv.reply (h : RunInv db₀ szFrom₀ db ss tr log szFrom) {i : ℕ} {j : Job}
    {r : Option Reply} {szFrom' : Text} (hrun : (ss i).running = some (j, .ret (r, szFrom'))) :
    RunInv db₀ szFrom₀ db (Function.update ss i ⟨szFrom', (ss i).ended + 1, none⟩) tr
      (log ++ [⟨i, (ss i).ended, j, r⟩])
      (Function.update szFrom i (Function.update (szFrom i) ((ss i).ended + 1) szFrom')) := by
  have hold : ∀ i' n, n ≤ (ss i').ended →
      Function.update szFrom i (Function.update (szFrom i) ((ss i).ended + 1) szFrom') i' n =
        szFrom i' n := by
    intro i' n hn
    by_cases hi : i' = i
    · subst hi
      rw [Function.update_self, Function.update_of_ne (by omega)]
    · rw [Function.update_of_ne hi]
  refine ⟨h.replays, ?_, ?_, ?_, ?_, ?_, ?_, ?_⟩
  · intro i'
    rw [hold i' 0 (Nat.zero_le _)]
    exact h.first i'
  · intro i'
    rw [session_update]
    by_cases hi : i' = i
    · subst hi
      rw [if_pos rfl, Function.update_self, Function.update_self]
    · rw [if_neg hi, hold i' _ (Nat.le_refl _)]
      exact h.last i'
  · rw [List.map_append, List.nodup_append]
    refine ⟨h.nodup, by simp, ?_⟩
    rintro ⟨i', n⟩ hx y hy heq
    rw [List.map_singleton, List.mem_singleton] at hy
    subst hy
    rw [heq] at hx
    have hlog := (h.logged i (ss i).ended).mp hx
    omega
  · intro i' n
    rw [List.map_append, List.mem_append, h.logged, List.map_singleton, List.mem_singleton,
      session_update]
    by_cases hi : i' = i
    · subst hi
      rw [if_pos rfl]
      simp only [Ended.name, Prod.mk.injEq, true_and]
      omega
    · rw [if_neg hi]
      simp [Ended.name, hi]
  · intro x hx
    rw [session_update]
    by_cases hi : x.1.1 = i
    · have htr := h.traced x hx
      rw [hi] at htr
      rw [if_pos hi]
      exact .inl (by show x.1.2 < (ss i).ended + 1; omega)
    · rw [if_neg hi]
      exact h.traced x hx
  · intro y hy
    rw [List.mem_append, List.mem_singleton] at hy
    obtain hy | rfl := hy
    · have hlt : y.number < (ss y.session).ended :=
        (h.logged y.session y.number).mp (List.mem_map_of_mem hy)
      rw [hold _ _ (by omega), hold _ _ (by omega)]
      exact h.played y hy
    · have hend : szFrom' = Function.update szFrom i
          (Function.update (szFrom i) ((ss i).ended + 1) szFrom') i ((ss i).ended + 1) := by
        rw [Function.update_self, Function.update_self]
      show Plays (j.prog _) (eventsOf (i, (ss i).ended) tr) (r, _)
      rw [hold _ _ (Nat.le_refl _), ← hend]
      have hplay := h.running i j _ hrun [] _ (.ret (r, szFrom'))
      rw [List.append_nil] at hplay
      exact hplay
  · intro i' j' p' hrun' es a hp
    rw [session_update] at hrun' ⊢
    by_cases hi : i' = i
    · rw [if_pos hi] at hrun'
      exact absurd hrun' (by simp)
    · rw [if_neg hi] at hrun' ⊢
      rw [hold i' _ (Nat.le_refl _)]
      exact h.running i' j' p' hrun' es a hp

end Invariant

variable {tr : Trace} {szFrom : ℕ → ℕ → Text}

/-- Every run has its invariant. -/
theorem Interleaved.inv (hrun : Interleaved db₀ szFrom₀ db ss tr log) :
    ∃ szFrom, RunInv db₀ szFrom₀ db ss (tr.map Operation.named) log szFrom := by
  induction hrun with
  | init => exact ⟨_, RunInv.init⟩
  | start i j _ hidle ih =>
      obtain ⟨szFrom, h⟩ := ih
      exact ⟨szFrom, h.start j hidle⟩
  | op i _ hrun hst ih =>
      obtain ⟨szFrom, h⟩ := ih
      rw [List.map_append]
      exact ⟨szFrom, h.op hrun hst⟩
  | wait i _ _ _ ih => exact ih
  | reply i _ hrun ih =>
      obtain ⟨szFrom, h⟩ := ih
      exact ⟨_, h.reply hrun⟩

/-- The programs of a run ask only for the names of their jobs, and so do its operations. -/
theorem Interleaved.respects (hrun : Interleaved db₀ szFrom₀ db ss tr log) :
    (∀ x ∈ tr, x.event.Respects (SameAnswer x.names)) ∧
      ∀ i j p, (ss i).running = some (j, p) →
        Uses (SameAnswer (j.names (ss i).szRenameFromPath)) p := by
  induction hrun with
  | init => simp
  | @start db ss tr log i j _ _ ih =>
      refine ⟨ih.1, ?_⟩
      intro i' j' p hrun'
      rw [session_update] at hrun' ⊢
      by_cases hi : i' = i
      · rw [if_pos hi, Option.some.injEq, Prod.mk.injEq] at hrun'
        obtain ⟨rfl, rfl⟩ := hrun'
        rw [if_pos hi]
        exact j.uses_prog _
      · rw [if_neg hi] at hrun' ⊢
        exact ih.2 i' j' p hrun'
  | @op db ss tr log i j p e q db' _ hrun hst ih =>
      obtain ⟨hresp, huses⟩ := hst.uses (ih.2 i j p hrun)
      refine ⟨?_, ?_⟩
      · intro x hx
        rw [List.mem_append, List.mem_singleton] at hx
        obtain hx | rfl := hx
        · exact ih.1 x hx
        · exact hresp
      · intro i' j' p' hrun'
        rw [session_update] at hrun' ⊢
        by_cases hi : i' = i
        · rw [if_pos hi, Option.some.injEq, Prod.mk.injEq] at hrun'
          obtain ⟨rfl, rfl⟩ := hrun'
          rw [if_pos hi]
          exact huses
        · rw [if_neg hi] at hrun' ⊢
          exact ih.2 i' j' p' hrun'
  | wait i _ _ _ ih => exact ih
  | @reply db ss tr log i j r szFrom _ _ ih =>
      refine ⟨ih.1, ?_⟩
      intro i' j' p hrun'
      rw [session_update] at hrun' ⊢
      by_cases hi : i' = i
      · rw [if_pos hi] at hrun'
        exact absurd hrun' (by simp)
      · rw [if_neg hi] at hrun' ⊢
        exact ih.2 i' j' p hrun'

/-! ### Conflicts in a run -/

/-- An entry that is there at the start of the run and that no transaction of the run deletes. -/
def Stays (db₀ : Redis) (tr : Trace) (key : ℕ) (n : Text) : Prop :=
  n ∈ db₀.dirent key ∧ ∀ x ∈ tr, Cell.entry key n ∉ RedisOp.deletes x.event.op

/-- The hash `dirent:<key>` has an entry that stays. -/
def KeepsEntry (db₀ : Redis) (tr : Trace) (key : ℕ) : Prop := ∃ n, Stays db₀ tr key n

/-- **No conflict against the order**: an operation that was executed before one of a command which
is earlier in `order` neither writes what that one reads or writes, nor reads what it writes. -/
def ConflictFree (db₀ : Redis) (tr : Trace) (order : List JobName) : Prop :=
  tr.Pairwise fun x y => [y.name, x.name].Sublist order →
    ¬ Conflict (KeepsEntry db₀ tr) x.names x.event.op y.names y.event.op

/-- It is enough to look at the hashes of which is known that they keep an entry. -/
theorem ConflictFree.of_kept {db₀ : Redis} {tr : Trace} {order : List JobName} (kept : ℕ → Prop)
    (hkept : ∀ key, kept key → KeepsEntry db₀ tr key)
    (h : tr.Pairwise fun x y => [y.name, x.name].Sublist order →
      ¬ Conflict kept x.names x.event.op y.names y.event.op) : ConflictFree db₀ tr order :=
  h.imp fun hxy hsub hc => hxy hsub (hc.mono hkept)

/-- Every entry that stays is there. -/
def StaysIn (db₀ : Redis) (tr : Trace) (db : Redis) : Prop :=
  ∀ key n, Stays db₀ tr key n → n ∈ db.dirent key

theorem StaysIn.ne_empty (h : StaysIn db₀ tr db) {key : ℕ} (hk : KeepsEntry db₀ tr key) :
    db.dirent key ≠ ∅ := by
  obtain ⟨n, hn⟩ := hk
  have hmem := h key n hn
  intro hempty
  rw [hempty] at hmem
  exact Finmap.notMem_empty hmem

/-- The operations of a run keep what stays. -/
theorem keeps_staysIn {x : Operation} (hx : x ∈ tr) :
    x.event.Keeps serveRedis (StaysIn db₀ tr) := by
  intro db hdb key n hn
  have hdel := hn.2 x hx
  have hmem := hdb key n hn
  show n ∈ ((serveRedis x.event.op db).2).dirent key
  revert hdel
  cases x.event.op with
  | multiExec queued => exact fun hdel => mem_applyAll hmem hdel
  | _ => exact fun _ => hmem

/-- A run without a conflict against the order can be reordered. -/
theorem ConflictFree.reorders {order : List JobName} (hrun : Interleaved db₀ szFrom₀ db ss tr log)
    (hfree : ConflictFree db₀ tr order) :
    Reorders serveRedis (StaysIn db₀ tr) order (tr.map Operation.named) := by
  rw [Reorders, List.pairwise_map]
  apply List.Pairwise.imp_of_mem _ hfree
  intro x y hx hy hxy hsub
  exact exchangeable_of_not_conflict (fun s hs k hk => StaysIn.ne_empty hs hk)
    (hrun.respects.1 x hx) (hrun.respects.1 y hy) (keeps_staysIn hx) (keeps_staysIn hy) (hxy hsub)

/-! ### The sequential order -/

/-- Jobs run in an order that keeps each session's: the pending paths pass from job to job. -/
theorem serial_of_runsInOrder {order : List Ended} {cur : ℕ → Text} (done : ℕ → ℕ)
    (hsess : KeepsSessions order)
    (hall : ∀ i n, (i, n) ∈ order.map Ended.name → done i ≤ n)
    (hnext : ∀ i n m, (i, n) ∈ order.map Ended.name → done i ≤ m → m ≤ n →
      (i, m) ∈ order.map Ended.name)
    (hcur : ∀ i, cur i = szFrom i (done i))
    (hrun : RunsInOrder serveRedis (fun y : Ended => y.job.prog (szFrom y.session y.number))
      (fun y => (y.reply, szFrom y.session (y.number + 1))) order db₀ db) :
    Serial db₀ cur order db := by
  induction order generalizing cur done db₀ with
  | nil =>
      obtain rfl : db₀ = db := hrun
      exact .nil
  | cons y ys ih =>
      obtain ⟨db₁, hy, hrest⟩ := hrun
      obtain ⟨hfirst, hsess⟩ := List.pairwise_cons.mp hsess
      have hmem : y.name ∈ (y :: ys).map Ended.name := List.mem_map_of_mem List.mem_cons_self
      -- `y` is the next job of its session: no smaller number comes later
      have hnum : y.number = done y.session := by
        have hle := hall y.session y.number hmem
        by_contra hne
        have hm := hnext y.session y.number (done y.session) hmem (Nat.le_refl _) hle
        rw [List.map_cons, List.mem_cons] at hm
        obtain hm | hm := hm
        · exact hne (Prod.mk.inj hm).2.symm
        · obtain ⟨z, hz, hzn⟩ := List.mem_map.mp hm
          have hz1 : z.session = y.session := (Prod.mk.inj hzn).1
          have hz2 : z.number = done y.session := (Prod.mk.inj hzn).2
          have hlt := hfirst z hz hz1.symm
          omega
      have htail : ∀ i n, (i, n) ∈ ys.map Ended.name →
          Function.update done y.session (done y.session + 1) i ≤ n := by
        intro i n hin
        by_cases hi : i = y.session
        · subst hi
          obtain ⟨z, hz, hzn⟩ := List.mem_map.mp hin
          have hz1 : z.session = y.session := (Prod.mk.inj hzn).1
          have hz2 : z.number = n := (Prod.mk.inj hzn).2
          have hlt := hfirst z hz hz1.symm
          rw [Function.update_self]
          omega
        · rw [Function.update_of_ne hi]
          exact hall i n (List.mem_cons_of_mem _ hin)
      have hstart : run serveRedis (y.job.prog (cur y.session)) db₀ =
          .done (y.reply, szFrom y.session (y.number + 1)) db₁ := by
        rw [hcur, ← hnum]
        exact hy
      refine .cons hstart (ih (Function.update done y.session (done y.session + 1)) hsess htail
        ?_ ?_ hrest)
      · intro i n m hin hm hmn
        have hdm : done i ≤ m := by
          by_cases hi : i = y.session
          · subst hi
            rw [Function.update_self] at hm
            omega
          · rw [Function.update_of_ne hi] at hm
            exact hm
        have hmem' := hnext i n m (List.mem_cons_of_mem _ hin) hdm hmn
        rw [List.map_cons, List.mem_cons] at hmem'
        refine hmem'.resolve_left fun heq => ?_
        have hi : i = y.session := (Prod.mk.inj heq).1
        have hmy : m = y.number := (Prod.mk.inj heq).2
        subst hi
        rw [Function.update_self] at hm
        omega
      · intro i
        by_cases hi : i = y.session
        · subst hi
          rw [Function.update_self, Function.update_self, hnum]
        · rw [Function.update_of_ne hi, Function.update_of_ne hi]
          exact hcur i

/-- **Concurrent sessions are serial** where no conflict runs against the order: a complete run has
the replies and the final database of the sequential `order`. -/
theorem run_serial {order : List Ended} (hrun : Interleaved db₀ szFrom₀ db ss tr log)
    (hidle : ∀ i, (ss i).running = none) (hperm : order.Perm log) (hsess : KeepsSessions order)
    (hfree : ConflictFree db₀ tr (order.map Ended.name)) : Serial db₀ szFrom₀ order db := by
  obtain ⟨szFrom, h⟩ := hrun.inv
  have hnames : (order.map Ended.name).Perm (log.map Ended.name) := hperm.map _
  have hmem : ∀ i n, (i, n) ∈ order.map Ended.name ↔ n < (ss i).ended := by
    intro i n
    rw [hnames.mem_iff]
    exact h.logged i n
  have hin : ∀ x ∈ tr.map Operation.named, x.1 ∈ order.map Ended.name := by
    intro x hx
    have htr := h.traced x hx
    simp only [hidle, ne_eq, not_true_eq_false, and_false, or_false] at htr
    exact (hmem x.1.1 x.1.2).mpr htr
  have hkeep : ∀ x ∈ tr.map Operation.named, x.2.Keeps serveRedis (StaysIn db₀ tr) := by
    intro x hx
    obtain ⟨y, hy, rfl⟩ := List.mem_map.mp hx
    exact keeps_staysIn hy
  have hstart : StaysIn db₀ tr db₀ := fun key n hn => hn.1
  have hseq := Replays.serial (hnames.nodup_iff.mpr h.nodup) hin
    (fun y hy => h.played y (hperm.mem_iff.mp hy)) hkeep hstart (hfree.reorders hrun) h.replays
  refine serial_of_runsInOrder (fun _ => 0) hsess (fun _ _ _ => Nat.zero_le _) ?_ ?_ hseq
  · intro i n m hin' _ hmn
    rw [hmem] at hin' ⊢
    omega
  · intro i
    exact (h.first i).symm

/-! ### Examples of runs -/

/-- `MKD` of the path `p`, as user and group 1 at time 0. -/
def mkdJob (p : BuiltPath) : Job := .cmd (.mkd p 1 1 0)

/-- The reply of an `MKD` that succeeds. -/
def mkdDone : Option Reply := some (.line 250 "MKD command successful.")

/-- The path `/b`. -/
def pathB : BuiltPath := .ofCanonical (p := "/b".toList) ⟨[['b']], by decide, rfl⟩ (by decide)

/-- Two sessions make directories in the root: both look before either transaction, and the
transactions come in the other order than the new fids. -/
theorem run_serial_mkd_mkd : ∃ db y z, Ended.job y = mkdJob pathA ∧ y.reply = mkdDone ∧
    Ended.job z = mkdJob pathB ∧ z.reply = mkdDone ∧
    Serial (initRedis 0) (fun _ => []) [y, z] db := by
  have r0 : Interleaved (initRedis 0) (fun _ => []) (initRedis 0) (fun _ => ⟨[], 0, none⟩) [] [] :=
    .init
  have r1 := (r0.start 0 (mkdJob pathA) rfl).start 1 (mkdJob pathB) rfl
  have r2 := (r1.op 0 rfl (.poll rfl)).op 1 rfl (.poll rfl)
  have r3 := (r2.op 0 rfl .call).op 1 rfl .call
  have r4 := (r3.op 1 rfl .call).op 0 rfl .call
  have r5 := (r4.reply 0 rfl).reply 1 rfl
  refine ⟨_, ⟨0, 0, mkdJob pathA, mkdDone⟩, ⟨1, 0, mkdJob pathB, mkdDone⟩, rfl, rfl, rfl, rfl,
    run_serial r5 ?_ (List.Perm.refl _) ?_ ?_⟩
  · intro i
    by_cases h1 : i = 1
    · subst h1
      rfl
    · by_cases h0 : i = 0
      · subst h0
        rfl
      · simp only [session_update, h0, h1, if_false]
  · exact .cons (by simp) (.cons (by simp) .nil)
  · -- the root keeps the entry of `InitRedis`
    refine .of_kept (fun key => key = 0) ?_ ?_
    · rintro key rfl
      exact ⟨".foo".toList, by decide, by decide⟩
    · decide

/-- Two sessions create `/a`: both look before either transaction, and both succeed. -/
theorem interleaved_mkd_twice : ∃ db ss tr,
    Interleaved (initRedis 0) (fun _ => []) db ss tr
      [⟨0, 0, mkdJob pathA, mkdDone⟩, ⟨1, 0, mkdJob pathA, mkdDone⟩] ∧
    ∀ i, (ss i).running = none := by
  have r0 : Interleaved (initRedis 0) (fun _ => []) (initRedis 0) (fun _ => ⟨[], 0, none⟩) [] [] :=
    .init
  have r1 := (r0.start 0 (mkdJob pathA) rfl).start 1 (mkdJob pathA) rfl
  -- the lookups of both, then the new fids, then the transactions
  have r2 := (r1.op 0 rfl (.poll rfl)).op 1 rfl (.poll rfl)
  have r3 := (r2.op 0 rfl .call).op 1 rfl .call
  have r4 := (r3.op 0 rfl .call).op 1 rfl .call
  have r5 := (r4.reply 0 rfl).reply 1 rfl
  refine ⟨_, _, _, r5, ?_⟩
  intro i
  by_cases h1 : i = 1
  · subst h1
    rfl
  · by_cases h0 : i = 0
    · subst h0
      rfl
    · simp only [session_update, h0, h1, if_false]

/-- In sequence the second `MKD` finds the directory of the first. -/
theorem not_serial_mkd_twice {i k : ℕ} {db : Redis} :
    ¬ Serial (initRedis 0) (fun _ => [])
      [⟨i, 0, mkdJob pathA, mkdDone⟩, ⟨k, 0, mkdJob pathA, mkdDone⟩] db := by
  intro h
  have hfirst : run serveRedis ((mkdJob pathA).prog []) (initRedis 0) =
      .done (mkdDone, []) withA := rfl
  have hsecond : ∀ szFrom, run serveRedis ((mkdJob pathA).prog szFrom) withA =
      .done (some (.line 550 "File Already Exists."), szFrom) withA := fun _ => rfl
  cases h with
  | cons h1 hrest =>
      have h1' := hfirst.symm.trans h1
      rw [Outcome.done.injEq] at h1'
      obtain ⟨-, rfl⟩ := h1'
      cases hrest with
      | cons h2 _ =>
          have h2' := (hsecond _).symm.trans h2
          rw [Outcome.done.injEq, Prod.mk.injEq] at h2'
          have hreply : some (Reply.line 550 "File Already Exists.") = mkdDone := h2'.1.1
          exact absurd hreply (by decide)

/-- **Two `MKD` of one path can both succeed**, which no sequential order allows: the runs of two
sessions from the database of `InitRedis` do not all have a serial order. -/
theorem mkd_mkd_not_serial : ¬ ∀ db₀ szFrom₀ db ss tr log, TreeShaped db₀ →
    Interleaved db₀ szFrom₀ db ss tr log → (∀ i, (ss i).running = none) →
    ∃ order, order.Perm log ∧ KeepsSessions order ∧ Serial db₀ szFrom₀ order db := by
  intro hall
  obtain ⟨db, ss, tr, hrun, hidle⟩ := interleaved_mkd_twice
  obtain ⟨order, hperm, -, hser⟩ :=
    hall (initRedis 0) (fun _ => []) db ss tr _ (treeShaped_initRedis 0) hrun hidle
  obtain rfl | rfl := List.perm_pair.mp hperm
  · exact not_serial_mkd_twice hser
  · exact not_serial_mkd_twice hser

end ClusterFtpd
