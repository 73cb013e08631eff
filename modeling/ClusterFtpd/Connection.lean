import ClusterFtpd.Ownership

/-!
# The Redis connection of a session

The control thread and the transfer threads of a session send their commands on one connection.
Here a transaction is what it is on the wire: `MULTI`, the writes, `EXEC`, each a command of its
own, between which another thread may send.  As long as the connection is inside a `MULTI`, every
other command is answered `QUEUED`, which reads as a reply without elements, and runs at `EXEC`.

`WireInv` says where the threads are: outside their transactions, but for one as long as the
connection is inside a `MULTI`, and what is queued is what this one has queued so far.  It is kept
by every step in which no thread comes between the `MULTI` and the `EXEC` of another
(`Exclusive`).
-/

namespace ClusterFtpd

open Interaction MachineInt

/-! ### Commands on the wire -/

/-- The operations of a thread, one `redisCommand` at a time; `exec` carries the transaction it is
the end of. -/
inductive WireOp where
  | plain (o : ShellOp)
  | multi
  | queue (w : Write)
  | exec (own : List Write)

/-- The answers to them. -/
abbrev WireOp.Res : WireOp → Type
  | .plain o => o.Res
  | .multi => Unit
  | .queue _ => Unit
  | .exec _ => Unit

/-- The interface of a thread on the wire. -/
abbrev WireI : Interface := ⟨WireOp, WireOp.Res⟩

abbrev WireProg := Prog WireI

/-- The rest of the transaction `own`: the writes that are still to be queued, and `EXEC`. -/
def queueAll (own : List Write) : List Write → WireProg Unit
  | [] => Prog.op (I := WireI) (.exec own)
  | w :: ws => do
      Prog.op (I := WireI) (.queue w)
      queueAll own ws

/-- A transaction. -/
def transaction (own : List Write) : WireProg Unit := do
  Prog.op (I := WireI) .multi
  queueAll own own

/-- The transaction an operation stands for. -/
def ShellOp.transaction : ShellOp → Option (List Write)
  | .command (.redis (.multiExec ws)) => some ws
  | _ => none

/-- An operation on the wire. -/
def wireOp : (o : ShellOp) → WireProg o.Res
  | .command (.redis (.multiExec ws)) => ClusterFtpd.transaction ws
  | .command (.redis (.hgetallDirent k)) =>
      Prog.op (I := WireI) (.plain (.command (.redis (.hgetallDirent k))))
  | .command (.redis (.hlenDirent k)) =>
      Prog.op (I := WireI) (.plain (.command (.redis (.hlenDirent k))))
  | .command (.redis (.hgetallStat k)) =>
      Prog.op (I := WireI) (.plain (.command (.redis (.hgetallStat k))))
  | .command (.redis .incrFidCounter) =>
      Prog.op (I := WireI) (.plain (.command (.redis .incrFidCounter)))
  | .command (.redis .incrTransactionCounter) =>
      Prog.op (I := WireI) (.plain (.command (.redis .incrTransactionCounter)))
  | .command (.redis (.hgetallUsername login)) =>
      Prog.op (I := WireI) (.plain (.command (.redis (.hgetallUsername login))))
  | .command .client => Prog.op (I := WireI) (.plain (.command .client))
  | .command (.modify f) => Prog.op (I := WireI) (.plain (.command (.modify f)))
  | .command (.sendReply r) => Prog.op (I := WireI) (.plain (.command (.sendReply r)))
  | .command (.sys o) => Prog.op (I := WireI) (.plain (.command (.sys o)))
  | .login f => Prog.op (I := WireI) (.plain (.login f))

/-- A program on the wire. -/
def wire {α : Type} (p : ShellProg α) : WireProg α :=
  expand (J := WireI) wireOp WireOp.plain (fun _ r => r) p

/-! ### The connection -/

/-- A command that waits for `EXEC`. -/
inductive Queued where
  | write (w : Write)
  | command (o : RedisOp)

/-- The effect of a queued command. -/
def Queued.run : Queued → Redis → Redis
  | .write w, db => w.apply db
  | .command o, db => (serveRedis o db).2

/-- The effect of `EXEC`. -/
def runQueued : List Queued → Redis → Redis
  | [], db => db
  | q :: qs, db => runQueued qs (q.run db)

/-- The connection, with the world behind it; `multi` holds what is queued inside a `MULTI`. -/
structure Connection where
  world : World
  multi : Option (List Queued) := none

/-- How the programs read `QUEUED`: a reply without elements whose integer is 0. -/
def RedisOp.queued : (o : RedisOp) → o.Res
  | .hgetallDirent _ => (∅ : Dirent)
  | .hlenDirent _ => (0 : ℕ)
  | .hgetallStat _ => StatHash.absent
  | .incrFidCounter => (0 : ℕ)
  | .incrTransactionCounter => (0 : ℕ)
  | .hgetallUsername _ => (none : Option UserHash)
  | .multiExec _ => ()

/-- A Redis command goes over the connection of the session; `SearchUserFromLogin` has one of its
own. -/
def RedisOp.shared : RedisOp → Bool
  | .hgetallUsername _ => false
  | _ => true

/-- A Redis command that is no part of a transaction. -/
def serveShared (o : RedisOp) (s : Connection) : o.Res × Connection :=
  match (if o.shared then s.multi else none) with
  | some qs => (o.queued, { s with multi := some (qs ++ [.command o]) })
  | none => ((serveRedis o s.world.db).1,
      { s with world := { s.world with db := (serveRedis o s.world.db).2 } })

/-- `MULTI`; inside another one it is an error. -/
def serveMulti (s : Connection) : Connection := { s with multi := some (s.multi.getD []) }

/-- A write. -/
def serveWrite (w : Write) (s : Connection) : Connection :=
  match s.multi with
  | some qs => { s with multi := some (qs ++ [.write w]) }
  | none => { s with world := { s.world with db := w.apply s.world.db } }

/-- `EXEC`; without a `MULTI` it is an error. -/
def serveExec (s : Connection) : Connection :=
  { world := { s.world with db := runQueued (s.multi.getD []) s.world.db }, multi := none }

/-- Run the operations of a thread. -/
def serveWire (env : Env) : Handler WireI Connection
  | .plain (.command (.redis o)), s => serveShared o s
  | .plain (.command .client), s => (s.world.client, s)
  | .plain (.command (.modify f)), s =>
      ((), { s with world := (serveCommand env (.modify f) s.world).2 })
  | .plain (.command (.sendReply r)), s =>
      ((), { s with world := (serveCommand env (.sendReply r) s.world).2 })
  | .plain (.command (.sys o)), s =>
      (env s.world.clock o, { s with world := (serveCommand env (.sys o) s.world).2 })
  | .plain (.login f), s => ((), { s with world := (serveShell env (.login f) s.world).2 })
  | .multi, s => ((), serveMulti s)
  | .queue w, s => ((), serveWrite w s)
  | .exec _, s => ((), serveExec s)

/-- What a thread can see of the connection: the answer to a command with the database it was
given in, or what an `EXEC` runs with the transaction it belongs to. -/
inductive Exchange where
  | answered (o : RedisOp) (r : o.Res) (db : Redis)
  | executed (queued : List Queued) (own : List Write)

/-- The command is answered with the content of the database; the transaction consists of its own
commands. -/
def Exchange.Proper : Exchange → Prop
  | .answered o r db => r = (serveRedis o db).1
  | .executed queued own => queued = own.map .write

/-- The exchange of an operation. -/
def exchange (s : Connection) : (o : WireOp) → o.Res → Option Exchange
  | .plain (.command (.redis o)), r => some (.answered o r s.world.db)
  | .exec own, _ => some (.executed (s.multi.getD []) own)
  | .plain (.command .client), _ => none
  | .plain (.command (.modify _)), _ => none
  | .plain (.command (.sendReply _)), _ => none
  | .plain (.command (.sys _)), _ => none
  | .plain (.login _), _ => none
  | .multi, _ => none
  | .queue _, _ => none

/-! ### Threads on one connection -/

/-- Where the control thread is. -/
inductive WireControl where
  | idle
  | running (p : WireProg Next)
  | ended

/-- A session on the wire, the last transfer thread first. -/
structure WireSession where
  conn : Connection
  control : WireControl := .idle
  workers : List (WireProg Unit) := []

/-- The transfer threads after an operation of the control thread, with its answer. -/
def workersOnWire (cfg : Config) (ws : List (WireProg Unit)) :
    (Σ o, WireOp.Res o) → List (WireProg Unit)
  | ⟨.plain (.command (.sys (.pthread_create thread))), true⟩ =>
      wire (command (thread.body cfg)) :: ws
  | ⟨.plain (.command (.sys .pthread_cancel)), _⟩ => ws.tail
  | _ => ws

/-- Who makes a step: the control thread, a transfer thread with others beside it, or nobody that
uses the connection. -/
inductive WireMove where
  | control (o : WireOp)
  | worker (beside : List (WireProg Unit)) (o : WireOp)
  | free

/-- One step of one thread, or of the other sessions, with what it exchanges. -/
inductive WireStep (cfg : Config) :
    WireSession → WireMove → Option Exchange → WireSession → Prop where
  | line {s : WireSession} (line : Text) : s.control = .idle →
      WireStep cfg s .free none { s with
        control := .running (wire (dispatch cfg (parseLine line).1 (parseLine line).2)) }
  | hangUp {s : WireSession} : s.control = .idle →
      WireStep cfg s .free none { s with control := .ended }
  | turn {s : WireSession} {next : Next} : s.control = .running (.ret next) →
      WireStep cfg s .free none
        { s with control := if next = .continue then .idle else .ended }
  | control {s : WireSession} {p q : WireProg Next} {o : WireOp} {r : o.Res} {conn' : Connection}
      (env : Env) : s.control = .running p →
      step (serveWire env) p s.conn = some (⟨o, r⟩, q, conn') →
      WireStep cfg s (.control o) (exchange s.conn o r)
        { conn := conn', control := .running q, workers := workersOnWire cfg s.workers ⟨o, r⟩ }
  | worker {s : WireSession} {xs ys : List (WireProg Unit)} {p q : WireProg Unit} {o : WireOp}
      {r : o.Res} {conn' : Connection} (env : Env) : s.workers = xs ++ p :: ys →
      step (serveWire env) p s.conn = some (⟨o, r⟩, q, conn') →
      WireStep cfg s (.worker (xs ++ ys) o) (exchange s.conn o r)
        { s with conn := conn', workers := xs ++ q :: ys }
  | ends {s : WireSession} {xs ys : List (WireProg Unit)} {w' : World} (env : Env) :
      s.workers = xs ++ .ret () :: ys →
      run (serveCommand env) endTransfer s.conn.world = .done () w' →
      WireStep cfg s .free none
        { s with conn := { s.conn with world := w' }, workers := xs ++ ys }
  | others {s : WireSession} (db : Redis) :
      WireStep cfg s .free none
        { s with conn := { s.conn with world := { s.conn.world with db } } }

/-- The runs of a session whose steps all satisfy `ok`, with all their exchanges. -/
inductive WireRun (cfg : Config) (ok : WireSession → WireMove → Prop) :
    WireSession → List Exchange → Prop where
  | connect {w : World} : w.client.toLoginState = {} → w.client.toCommandState = {} →
      WireRun cfg ok { conn := { world := w } } []
  | step {s s' : WireSession} {xs : List Exchange} {x : Option Exchange} {who : WireMove} :
      WireRun cfg ok s xs → WireStep cfg s who x s' → ok s who → WireRun cfg ok s' (xs ++ x.toList)

/-- The thread is between its `MULTI` and its `EXEC`. -/
def inside {α : Type} : WireProg α → Bool
  | .call (.queue _) _ => true
  | .call (.exec _) _ => true
  | _ => false

def WireControl.inside : WireControl → Bool
  | .running p => ClusterFtpd.inside p
  | _ => false

/-- The operation goes over the connection. -/
def WireOp.onConnection : WireOp → Bool
  | .plain (.command (.redis o)) => o.shared
  | .plain _ => false
  | _ => true

/-- No thread comes between the `MULTI` and the `EXEC` of another, with a command of its own or
by cancelling it. -/
def Exclusive (s : WireSession) : WireMove → Prop
  | .control o => (o.onConnection = true → ∀ p ∈ s.workers, inside p = false) ∧
      (o = .plain (.command (.sys .pthread_cancel)) → ∀ p ∈ s.workers.head?, inside p = false)
  | .worker beside o => o.onConnection = true →
      s.control.inside = false ∧ ∀ p ∈ beside, inside p = false
  | .free => True

/-! ### Where the threads are -/

variable {α : Type} {cfg : Config} {env : Env} {c c' : Connection} {o : WireOp} {r : o.Res}
  {q : WireProg α} {s s' : WireSession} {who : WireMove} {x : Option Exchange}

/-- The thread is outside a transaction. -/
def Outside (p : WireProg α) : Prop := ∃ p' : ShellProg α, p = wire p'

/-- The thread is inside its transaction, and `multi` is what it has queued so far. -/
def InTransaction (multi : Option (List Queued)) (p : WireProg α) : Prop :=
  ∃ (done rest : List Write) (p' : ShellProg α),
    p = (queueAll (done ++ rest) rest >>= fun _ => wire p') ∧ multi = some (done.map .write)

theorem wire_plain {o : ShellOp} (ho : o.transaction = none) (k : o.Res → ShellProg α) :
    wire (.call o k) = .call (.plain o) fun r => wire (k r) := by
  cases o with
  | login f => rfl
  | command o =>
      cases o with
      | redis o =>
          cases o with
          | multiExec ws => exact absurd ho (by simp [ShellOp.transaction])
          | _ => rfl
      | _ => rfl

theorem wire_transaction (ws : List Write) (k : Unit → ShellProg α) :
    wire (.call (.command (.redis (.multiExec ws))) k) =
      .call .multi fun _ => queueAll ws ws >>= fun _ => wire (k ()) := rfl

theorem eq_multiExec {o : ShellOp} {ws : List Write} (ho : o.transaction = some ws) :
    o = .command (.redis (.multiExec ws)) := by
  cases o with
  | login f => exact absurd ho (by simp [ShellOp.transaction])
  | command o =>
      cases o with
      | redis o =>
          cases o with
          | multiExec vs => rw [Option.some.inj ho]
          | _ => exact absurd ho (by simp [ShellOp.transaction])
      | _ => exact absurd ho (by simp [ShellOp.transaction])

theorem not_inside {p : WireProg α} (hp : Outside p) : inside p = false := by
  obtain ⟨p', rfl⟩ := hp
  cases p' with
  | ret a => rfl
  | stop w => rfl
  | poll o again k => rfl
  | call o k =>
      cases ho : o.transaction with
      | none =>
          rw [wire_plain ho]
          rfl
      | some ws =>
          obtain rfl := eq_multiExec ho
          rfl

theorem inside_of_transaction {multi : Option (List Queued)} {p : WireProg α}
    (hp : InTransaction multi p) : inside p = true := by
  obtain ⟨done, rest, p', rfl, -⟩ := hp
  cases rest <;> rfl

/-- A plain operation that finds the connection outside a `MULTI`, or does not use it. -/
theorem serveWire_plain (env : Env) (o : ShellOp)
    (hfree : (WireOp.plain o).onConnection = true → c.multi = none) :
    (serveWire env (.plain o) c).2.multi = c.multi ∧
      ∀ x ∈ exchange c (.plain o) (serveWire env (.plain o) c).1, x.Proper := by
  cases o with
  | login f => exact ⟨rfl, fun x hx => absurd hx (by simp [exchange])⟩
  | command o =>
      cases o with
      | redis o =>
          have hnone : (if o.shared then c.multi else none) = none := by
            split_ifs with hshared
            · exact hfree hshared
            · rfl
          have hserve : serveWire env (.plain (.command (.redis o))) c = serveShared o c := rfl
          rw [hserve, serveShared, hnone]
          refine ⟨rfl, fun x hx => ?_⟩
          rw [exchange, Option.mem_some_iff] at hx
          rw [← hx]
          rfl
      | client => exact ⟨rfl, fun x hx => absurd hx (by simp [exchange])⟩
      | modify f => exact ⟨rfl, fun x hx => absurd hx (by simp [exchange])⟩
      | sendReply r => exact ⟨rfl, fun x hx => absurd hx (by simp [exchange])⟩
      | sys o => exact ⟨rfl, fun x hx => absurd hx (by simp [exchange])⟩

/-- **A step outside a transaction** starts one, or is answered from the database. -/
theorem step_outside {p : WireProg α} (hp : Outside p)
    (hstep : step (serveWire env) p c = some (⟨o, r⟩, q, c'))
    (hfree : o.onConnection = true → c.multi = none) :
    (∀ x ∈ exchange c o r, x.Proper) ∧
      ((o = .multi ∧ InTransaction c'.multi q) ∨ (Outside q ∧ c'.multi = c.multi)) := by
  obtain ⟨p', rfl⟩ := hp
  cases p' with
  | ret a => exact absurd hstep (by simp [wire, expand, step])
  | stop w => exact absurd hstep (by simp [wire, expand, step])
  | poll o' again k =>
      obtain ⟨hop, hrest⟩ := Prod.mk.inj (Option.some.inj hstep)
      obtain ⟨hq, rfl⟩ := Prod.mk.inj hrest
      cases hop
      obtain ⟨hmulti, hproper⟩ := serveWire_plain env (c := c) o' hfree
      refine ⟨hproper, .inr ⟨?_, hmulti⟩⟩
      rw [← hq]
      split_ifs
      · exact ⟨.poll o' again k, rfl⟩
      · exact ⟨_, rfl⟩
  | call o' k =>
      cases ho : o'.transaction with
      | none =>
          rw [wire_plain ho] at hstep
          obtain ⟨hop, hrest⟩ := Prod.mk.inj (Option.some.inj hstep)
          obtain ⟨rfl, rfl⟩ := Prod.mk.inj hrest
          cases hop
          obtain ⟨hmulti, hproper⟩ := serveWire_plain env (c := c) o' hfree
          exact ⟨hproper, .inr ⟨⟨_, rfl⟩, hmulti⟩⟩
      | some ws =>
          obtain rfl := eq_multiExec ho
          rw [wire_transaction] at hstep
          obtain ⟨hop, hrest⟩ := Prod.mk.inj (Option.some.inj hstep)
          obtain ⟨rfl, rfl⟩ := Prod.mk.inj hrest
          cases hop
          refine ⟨fun x hx => absurd hx (by simp [exchange]), .inl ⟨rfl, [], ws, k (), rfl, ?_⟩⟩
          show some (c.multi.getD []) = some []
          rw [hfree rfl]
          rfl

/-- **A step inside a transaction** queues one more of its writes, or ends it. -/
theorem step_inside {p : WireProg α} (hp : InTransaction c.multi p)
    (hstep : step (serveWire env) p c = some (⟨o, r⟩, q, c')) :
    o.onConnection = true ∧ (∀ x ∈ exchange c o r, x.Proper) ∧
      (InTransaction c'.multi q ∨ (Outside q ∧ c'.multi = none)) := by
  obtain ⟨done, rest, p', rfl, hmulti⟩ := hp
  cases rest with
  | nil =>
      have hexec : some ((⟨.exec (done ++ []), ()⟩ : Σ o, WireI.Res o), wire p', serveExec c) =
          some (⟨o, r⟩, q, c') := hstep
      obtain ⟨hop, hrest⟩ := Prod.mk.inj (Option.some.inj hexec)
      obtain ⟨rfl, rfl⟩ := Prod.mk.inj hrest
      cases hop
      refine ⟨rfl, fun x hx => ?_, .inr ⟨⟨p', rfl⟩, rfl⟩⟩
      rw [exchange, Option.mem_some_iff] at hx
      rw [← hx, hmulti, List.append_nil]
      rfl
  | cons w rest =>
      have hqueue : some ((⟨.queue w, ()⟩ : Σ o, WireI.Res o),
          (queueAll (done ++ w :: rest) rest >>= fun _ => wire p'), serveWrite w c) =
          some (⟨o, r⟩, q, c') := hstep
      obtain ⟨hop, hrest⟩ := Prod.mk.inj (Option.some.inj hqueue)
      obtain ⟨rfl, rfl⟩ := Prod.mk.inj hrest
      cases hop
      refine ⟨rfl, fun x hx => absurd hx (by simp [exchange]),
        .inl ⟨done ++ [w], rest, p', ?_, ?_⟩⟩
      · rw [List.append_assoc]
        rfl
      · rw [serveWrite, hmulti, List.map_append]
        rfl

/-! ### One step of one thread -/

/-- Where a thread is. -/
def Placed (multi : Option (List Queued)) (p : WireProg α) : Prop :=
  Outside p ∨ InTransaction multi p

/-- How many threads are inside a transaction, if this one is and `n` others are. -/
def countInside (p : WireProg α) (n : ℕ) : ℕ := (if inside p then 1 else 0) + n

/-- The number of threads inside a transaction. -/
def Tally (multi : Option (List Queued)) (n : ℕ) : Prop := n = if multi.isSome then 1 else 0

/-- **A step of one thread** beside `n` others that are inside a transaction. -/
theorem thread_step {p : WireProg α} {n : ℕ} (hp : Placed c.multi p)
    (htally : Tally c.multi (countInside p n))
    (hstep : step (serveWire env) p c = some (⟨o, r⟩, q, c'))
    (hfree : o.onConnection = true → n = 0) :
    (∀ x ∈ exchange c o r, x.Proper) ∧ Placed c'.multi q ∧ Tally c'.multi (countInside q n) ∧
      (c'.multi = c.multi ∨ n = 0) := by
  rw [Tally, countInside] at htally
  obtain hout | hin := hp
  · have hnot := not_inside hout
    rw [hnot] at htally
    have hnone : o.onConnection = true → c.multi = none := by
      intro ho
      rw [hfree ho] at htally
      cases hmulti : c.multi with
      | none => rfl
      | some qs => exact absurd htally (by simp [hmulti])
    obtain ⟨hproper, ⟨rfl, htrans⟩ | ⟨hout', hmulti⟩⟩ := step_outside hout hstep hnone
    · refine ⟨hproper, .inr htrans, ?_, .inr (hfree rfl)⟩
      obtain ⟨done, rest, p', -, hmulti⟩ := id htrans
      rw [Tally, countInside, inside_of_transaction htrans, hmulti, hfree rfl]
      rfl
    · refine ⟨hproper, .inl hout', ?_, .inl hmulti⟩
      rw [Tally, countInside, not_inside hout', hmulti]
      exact htally
  · have hn : n = 0 := by
      rw [inside_of_transaction hin] at htally
      obtain ⟨done, rest, p', -, hmulti⟩ := hin
      rw [hmulti] at htally
      simp at htally
      exact htally
    obtain ⟨-, hproper, htrans | ⟨hout, hmulti⟩⟩ := step_inside hin hstep
    · refine ⟨hproper, .inr htrans, ?_, .inr hn⟩
      obtain ⟨done, rest, p', -, hmulti⟩ := id htrans
      rw [Tally, countInside, inside_of_transaction htrans, hmulti, hn]
      rfl
    · refine ⟨hproper, .inl hout, ?_, .inr hn⟩
      rw [Tally, countInside, not_inside hout, hmulti, hn]
      rfl

/-! ### The invariant -/

/-- Every thread is in its place, and one of them is inside a transaction exactly while the
connection is. -/
structure WireInv (s : WireSession) : Prop where
  control : ∀ p, s.control = .running p → Placed s.conn.multi p
  workers : ∀ p ∈ s.workers, Placed s.conn.multi p
  one : Tally s.conn.multi ((if s.control.inside then 1 else 0) + s.workers.countP inside)

theorem Placed.outside {multi : Option (List Queued)} {p : WireProg α} (hp : Placed multi p)
    (hnot : inside p = false) : Outside p := by
  obtain hout | hin := hp
  · exact hout
  · exact absurd (inside_of_transaction hin) (by simp [hnot])

/-- The threads beside the one that makes a step. -/
theorem Placed.beside {multi multi' : Option (List Queued)} {ps : List (WireProg Unit)} {n : ℕ}
    (hps : ∀ p ∈ ps, Placed multi p) (hn : ps.countP inside ≤ n) (h : multi' = multi ∨ n = 0) :
    ∀ p ∈ ps, Placed multi' p := by
  intro p hp
  obtain rfl | hzero := h
  · exact hps p hp
  · refine .inl ((hps p hp).outside ?_)
    have hcount : ps.countP inside = 0 := by omega
    rw [List.countP_eq_zero] at hcount
    simpa using hcount p hp

/-- The transfer threads after an operation of the control thread. -/
theorem workersOnWire_cases (cfg : Config) (ws : List (WireProg Unit)) (o : WireOp) (r : o.Res) :
    workersOnWire cfg ws ⟨o, r⟩ = ws ∨
      (o = .plain (.command (.sys .pthread_cancel)) ∧ workersOnWire cfg ws ⟨o, r⟩ = ws.tail) ∨
      ∃ thread : TransferThread, workersOnWire cfg ws ⟨o, r⟩ =
        wire (command (thread.body cfg)) :: ws := by
  cases o with
  | plain o =>
      cases o with
      | login f => exact .inl rfl
      | command o =>
          cases o with
          | sys o =>
              cases o with
              | pthread_create thread =>
                  cases r with
                  | true => exact .inr (.inr ⟨thread, rfl⟩)
                  | false => exact .inl rfl
              | pthread_cancel => exact .inr (.inl ⟨rfl, rfl⟩)
              | _ => exact .inl rfl
          | _ => exact .inl rfl
  | _ => exact .inl rfl

/-- None of the threads that come or go is inside a transaction. -/
theorem workersOnWire_inside (cfg : Config) {ws : List (WireProg Unit)}
    (hcancel : o = .plain (.command (.sys .pthread_cancel)) →
      ∀ p ∈ ws.head?, inside p = false) :
    (workersOnWire cfg ws ⟨o, r⟩).countP inside = ws.countP inside ∧
      ∀ multi, (∀ p ∈ ws, Placed multi p) →
        ∀ p ∈ workersOnWire cfg ws ⟨o, r⟩, Placed multi p := by
  obtain hsame | ⟨ho, htail⟩ | ⟨thread, hnew⟩ := workersOnWire_cases cfg ws o r
  · rw [hsame]
    exact ⟨rfl, fun _ h => h⟩
  · rw [htail]
    cases ws with
    | nil => exact ⟨rfl, fun _ h => h⟩
    | cons p ws =>
        have hnot : inside p = false := hcancel ho p rfl
        refine ⟨?_, fun _ h q hq => h q (List.mem_cons_of_mem p hq)⟩
        rw [List.tail_cons, List.countP_cons_of_neg (by simp [hnot])]
  · rw [hnew]
    have hout : Outside (wire (command (thread.body cfg))) := ⟨_, rfl⟩
    refine ⟨List.countP_cons_of_neg (by simp [not_inside hout]), fun multi h q hq => ?_⟩
    obtain rfl | hq := List.mem_cons.mp hq
    · exact .inl hout
    · exact h q hq

/-- **Every exclusive step** keeps the invariant, and what it exchanges is proper. -/
theorem WireInv.step (h : WireInv s) (hstep : WireStep cfg s who x s') (hok : Exclusive s who) :
    (∀ y ∈ x, y.Proper) ∧ WireInv s' := by
  cases hstep with
  | line line hidle =>
      refine ⟨fun y hy => absurd hy (by simp), fun p hp => .inl ⟨_, (WireControl.running.inj hp).symm⟩,
        h.workers, ?_⟩
      have hone := h.one
      rw [hidle] at hone
      have hout : inside (wire (dispatch cfg (parseLine line).1 (parseLine line).2)) = false :=
        not_inside ⟨_, rfl⟩
      show Tally _ ((if inside (wire _) = true then 1 else 0) + _)
      rw [hout]
      exact hone
  | hangUp hidle =>
      refine ⟨fun y hy => absurd hy (by simp), fun p hp => absurd hp (by simp), h.workers, ?_⟩
      have hone := h.one
      rw [hidle] at hone
      exact hone
  | @turn next hat =>
      refine ⟨fun y hy => absurd hy (by simp), fun p hp => ?_, h.workers, ?_⟩
      · dsimp only at hp
        split_ifs at hp
      · have hone := h.one
        rw [hat] at hone
        cases next <;> exact hone
  | @control p q o r conn' env hat hmove =>
      have hone : Tally s.conn.multi (countInside p (s.workers.countP inside)) := by
        have hone := h.one
        rw [hat] at hone
        exact hone
      have hfree : o.onConnection = true → s.workers.countP inside = 0 := by
        intro ho
        rw [List.countP_eq_zero]
        intro p hp
        simp [hok.1 ho p hp]
      obtain ⟨hproper, hplaced, htally, hbeside⟩ := thread_step (h.control p hat) hone hmove hfree
      obtain ⟨hcount, hworkers⟩ := workersOnWire_inside cfg (r := r) hok.2
      refine ⟨hproper, fun p' hp => ?_, ?_, ?_⟩
      · rw [← WireControl.running.inj hp]
        exact hplaced
      · exact hworkers _ (Placed.beside h.workers (le_refl _) hbeside)
      · dsimp only
        rw [hcount]
        exact htally
  | @worker xs ys p q o r conn' env hworkers hmove =>
      have hcount : ∀ t : WireProg Unit, (xs ++ t :: ys).countP inside =
          (if inside t then 1 else 0) + (xs ++ ys).countP inside := by
        intro t
        rw [List.countP_append, List.countP_cons, List.countP_append]
        omega
      have hone : Tally s.conn.multi
          (countInside p ((if s.control.inside then 1 else 0) + (xs ++ ys).countP inside)) := by
        have hone := h.one
        rw [hworkers, hcount] at hone
        rw [countInside]
        rw [show (if inside p = true then 1 else 0) + ((if s.control.inside = true then 1 else 0) +
          (xs ++ ys).countP inside) = (if s.control.inside = true then 1 else 0) +
          ((if inside p = true then 1 else 0) + (xs ++ ys).countP inside) by omega]
        exact hone
      have hfree : o.onConnection = true →
          (if s.control.inside then 1 else 0) + (xs ++ ys).countP inside = 0 := by
        intro ho
        obtain ⟨hcontrol, hothers⟩ := hok ho
        have hzero : (xs ++ ys).countP inside = 0 := by
          rw [List.countP_eq_zero]
          intro p hp
          simp [hothers p hp]
        rw [hcontrol, hzero]
        rfl
      have hmem : p ∈ s.workers := hworkers ▸ List.mem_append_right _ List.mem_cons_self
      obtain ⟨hproper, hplaced, htally, hbeside⟩ :=
        thread_step (h.workers p hmem) hone hmove hfree
      have hothers : ∀ t ∈ xs ++ ys, Placed s.conn.multi t := by
        intro t ht
        refine h.workers t ?_
        rw [hworkers]
        rw [List.mem_append] at ht ⊢
        exact ht.imp_right (List.mem_cons_of_mem p)
      refine ⟨hproper, fun p' hp => ?_, fun t ht => ?_, ?_⟩
      · obtain hsame | hzero := hbeside
        · rw [hsame]
          exact h.control p' hp
        · refine .inl ((h.control p' hp).outside ?_)
          have hnot : s.control.inside = false := by
            cases hin : s.control.inside with
            | false => rfl
            | true => rw [hin] at hzero; simp at hzero
          rw [hp] at hnot
          exact hnot
      · rw [List.mem_append, List.mem_cons] at ht
        have hor : t = q ∨ t ∈ xs ++ ys := by
          rw [List.mem_append]
          tauto
        obtain rfl | ht := hor
        · exact hplaced
        · exact Placed.beside hothers (by omega) hbeside t ht
      · dsimp only
        rw [hcount]
        rw [countInside] at htally
        rw [show (if s.control.inside = true then 1 else 0) + ((if inside q = true then 1 else 0) +
          (xs ++ ys).countP inside) = (if inside q = true then 1 else 0) +
          ((if s.control.inside = true then 1 else 0) + (xs ++ ys).countP inside) by omega]
        exact htally
  | @ends xs ys w' env hworkers hrun =>
      have hcount : (xs ++ ys).countP inside = s.workers.countP inside := by
        rw [hworkers, List.countP_append, List.countP_append, List.countP_cons_of_neg (by simp [inside])]
      refine ⟨fun y hy => absurd hy (by simp), h.control, fun t ht => h.workers t ?_, ?_⟩
      · rw [hworkers]
        rw [List.mem_append] at ht ⊢
        exact ht.imp_right (List.mem_cons_of_mem _)
      · dsimp only
        rw [hcount]
        exact h.one
  | others db => exact ⟨fun y hy => absurd hy (by simp), h.control, h.workers, h.one⟩

/-- **The connection is not disturbed**: every command is answered with the content of the
database, every transaction consists of its own commands, and a session whose threads have come to
rest does not leave the connection inside a `MULTI`. -/
structure ConnectionSound (s : WireSession) (xs : List Exchange) : Prop where
  proper : ∀ x ∈ xs, x.Proper
  closed : (∀ p, s.control ≠ .running p) → s.workers = [] → s.conn.multi = none

/-- **Commands and transfer threads do not disturb each other** on the connection, in every run in
which no thread comes between the `MULTI` and the `EXEC` of another. -/
theorem connection_sound {xs : List Exchange} (h : WireRun cfg Exclusive s xs) :
    ConnectionSound s xs := by
  have hinv : (∀ x ∈ xs, x.Proper) ∧ WireInv s := by
    induction h with
    | connect hlogin hcommand =>
        exact ⟨fun x hx => absurd hx (by simp), fun p hp => absurd hp (by simp),
          fun p hp => absurd hp (by simp), rfl⟩
    | step hrun hstep hok ih =>
        obtain ⟨hproper, hinv⟩ := ih.2.step hstep hok
        refine ⟨fun y hy => ?_, hinv⟩
        obtain hy | hy := List.mem_append.mp hy
        · exact ih.1 y hy
        · exact hproper y (Option.mem_toList.mp hy)
  refine ⟨hinv.1, fun hrest hnone => ?_⟩
  have hone := hinv.2.one
  have hcontrol : s.control.inside = false := by
    cases hat : s.control with
    | running p => exact absurd hat (hrest p)
    | idle => rfl
    | ended => rfl
  rw [hnone, hcontrol] at hone
  cases hmulti : s.conn.multi with
  | none => rfl
  | some qs => exact absurd hone (by simp [Tally, hmulti])

/-! ### Turns that nothing interrupts -/

/-- A transfer thread on the wire. -/
def onWire (p : CommandProg Unit) : WireProg Unit := wire (command p)

theorem runQueued_write (ws : List Write) (db : Redis) :
    runQueued (ws.map .write) db = applyAll ws db := by
  induction ws generalizing db with
  | nil => rfl
  | cons w ws ih => exact ih (w.apply db)

/-- The session can come about. -/
def Reaches (cfg : Config) (ok : WireSession → WireMove → Prop) (s : WireSession) : Prop :=
  ∃ xs, WireRun cfg ok s xs

variable {ok : WireSession → WireMove → Prop} {w w' : World} {ws : List (WireProg Unit)}

theorem Reaches.step (h : Reaches cfg ok s) (hstep : WireStep cfg s who x s') (hok : ok s who) :
    Reaches cfg ok s' := by
  obtain ⟨xs, hrun⟩ := h
  exact ⟨_, hrun.step hstep hok⟩

theorem Reaches.control (env : Env) {p q : WireProg Next} (h : Reaches cfg ok ⟨c, .running p, ws⟩)
    (hstep : Interaction.step (serveWire env) p c = some (⟨o, r⟩, q, c'))
    (hok : ok ⟨c, .running p, ws⟩ (.control o)) :
    Reaches cfg ok ⟨c', .running q, workersOnWire cfg ws ⟨o, r⟩⟩ :=
  h.step (.control env rfl hstep) hok

/-- A transaction that nothing interrupts is one operation. -/
theorem Reaches.transaction (env : Env) (hok : ∀ c p o, ok ⟨c, .running p, ws⟩ (.control o))
    {own : List Write} {p : WireProg Next} (h : Reaches cfg ok
      ⟨⟨w, none⟩, .running (ClusterFtpd.transaction own >>= fun _ => p), ws⟩) :
    Reaches cfg ok ⟨⟨{ w with db := applyAll own w.db }, none⟩, .running p, ws⟩ := by
  have hqueue : ∀ rest done : List Write,
      Reaches cfg ok ⟨⟨w, some (done.map .write)⟩,
        .running (queueAll own rest >>= fun _ => p), ws⟩ →
      Reaches cfg ok ⟨⟨{ w with db := applyAll (done ++ rest) w.db }, none⟩, .running p, ws⟩ := by
    intro rest
    induction rest with
    | nil =>
        intro done h
        have hexec := h.control env rfl (hok _ _ _)
        rw [List.append_nil, ← runQueued_write]
        exact hexec
    | cons v rest ih =>
        intro done h
        have hmap : done.map Queued.write ++ [.write v] = (done ++ [v]).map .write := by
          rw [List.map_append]
          rfl
        have hnext : Reaches cfg ok ⟨⟨w, some ((done ++ [v]).map .write)⟩,
            .running (queueAll own rest >>= fun _ => p), ws⟩ := by
          have hqueued := h.control env rfl (hok _ _ _)
          rw [← hmap]
          exact hqueued
        rw [show done ++ v :: rest = done ++ [v] ++ rest by simp]
        exact ih (done ++ [v]) hnext
  have hmulti := h.control env rfl (hok _ _ _)
  exact hqueue own [] hmulti

/-- The transfer threads after a call of the shell. -/
def Call.threadsOnWire (cfg : Config) (ws : List (WireProg Unit)) (c : Call) :
    List (WireProg Unit) :=
  match c with
  | ⟨.pthread_create thread, true⟩ => wire (command (thread.body cfg)) :: ws
  | ⟨.pthread_cancel, _⟩ => ws.tail
  | _ => ws

/-- The transfer threads after an operation that is no transaction. -/
theorem workersOnWire_plain (env : Env) (ws : List (WireProg Unit)) (o : ShellOp) (w : World) :
    workersOnWire cfg ws ⟨.plain o, (serveShell env o w).1⟩ =
      (noteShell o (serveShell env o w).1).toList.foldl (Call.threadsOnWire cfg) ws := by
  cases o with
  | login f => rfl
  | command o =>
      cases o with
      | redis o => rfl
      | client => rfl
      | modify f => rfl
      | sendReply r => rfl
      | sys o =>
          cases o with
          | pthread_create thread =>
              have hcases : ∀ created : Bool, workersOnWire cfg ws
                  ⟨.plain (.command (.sys (.pthread_create thread))), created⟩ =
                    ([⟨.pthread_create thread, created⟩] : List Call).foldl
                      (Call.threadsOnWire cfg) ws := by
                intro created
                cases created <;> rfl
              exact hcases (env w.clock (.pthread_create thread))
          | pthread_cancel => rfl
          | _ => rfl

/-- Outside a `MULTI` a plain operation is served as it is without the connection. -/
theorem serveWire_free (env : Env) (o : ShellOp) (w : World) :
    serveWire env (.plain o) ⟨w, none⟩ = ((serveShell env o w).1, ⟨(serveShell env o w).2, none⟩) := by
  cases o with
  | login f => rfl
  | command o =>
      cases o with
      | redis o => cases o <;> rfl
      | _ => rfl

section Beside

variable (P : List (WireProg Unit) → Prop) (hkeep : ∀ ws x, P ws → P (workersOnWire cfg ws x))
  (hok : ∀ c p ws o, P ws → ok ⟨c, .running p, ws⟩ (.control o))

include hkeep hok

/-- **A turn that nothing interrupts**, beside transfer threads that all satisfy `P`, runs as it
does where a transaction is one operation. -/
theorem Reaches.running (env : Env) {p : ShellProg Next} {next : Next} (hws : P ws)
    (h : Reaches cfg ok ⟨⟨w, none⟩, .running (wire p), ws⟩)
    (hrun : run (serveShell env) p w = .done next w') :
    Reaches cfg ok ⟨⟨w', none⟩, .running (.ret next),
      (lineCalls env p w).foldl (Call.threadsOnWire cfg) ws⟩ := by
  induction p generalizing w ws with
  | ret a =>
      obtain ⟨rfl, rfl⟩ := Outcome.done.inj hrun
      exact h
  | stop why => exact absurd hrun (by simp)
  | call o k ih =>
      have hcalls : (lineCalls env (.call o k) w).foldl (Call.threadsOnWire cfg) ws =
          (lineCalls env (k (serveShell env o w).1) (serveShell env o w).2).foldl
            (Call.threadsOnWire cfg)
            ((noteShell o (serveShell env o w).1).toList.foldl (Call.threadsOnWire cfg) ws) :=
        List.foldl_append
      rw [hcalls, ← workersOnWire_plain]
      refine ih _ (hkeep _ _ hws) ?_ hrun
      cases ho : o.transaction with
      | none =>
          rw [wire_plain ho] at h
          have hstep := h.control env rfl (hok _ _ _ _ hws)
          rw [serveWire_free env o w] at hstep
          exact hstep
      | some own =>
          obtain rfl := eq_multiExec ho
          exact h.transaction env fun c p o => hok c p ws o hws
  | poll o again k ih =>
      rw [run_poll] at hrun
      split_ifs at hrun with hagain
      have hcalls : (lineCalls env (.poll o again k) w).foldl (Call.threadsOnWire cfg) ws =
          (lineCalls env (k (serveShell env o w).1) (serveShell env o w).2).foldl
            (Call.threadsOnWire cfg)
            ((noteShell o (serveShell env o w).1).toList.foldl (Call.threadsOnWire cfg) ws) := by
        rw [lineCalls, trace, if_neg hagain]
        exact List.foldl_append
      rw [hcalls, ← workersOnWire_plain]
      refine ih _ (hkeep _ _ hws) ?_ hrun
      have hstep := h.control env rfl (hok _ _ _ _ hws)
      rw [serveWire_free env o w, if_neg (by exact hagain)] at hstep
      exact hstep

/-- A line that nothing interrupts. -/
theorem Reaches.line (env : Env) (hfree : ∀ s, ok s .free) {nCmd : Option Cmd}
    {pszCmdArg : Option Text} {cs : List Call} (line : Text) (hws : P ws)
    (h : Reaches cfg ok ⟨⟨w, none⟩, .idle, ws⟩) (hparse : parseLine line = (nCmd, pszCmdArg))
    (hrun : run (serveShell env) (dispatch cfg nCmd pszCmdArg) w = .done .continue w')
    (hcalls : lineCalls env (dispatch cfg nCmd pszCmdArg) w = cs) :
    Reaches cfg ok ⟨⟨w', none⟩, .idle, cs.foldl (Call.threadsOnWire cfg) ws⟩ := by
  have hstart := h.step (.line line rfl) (hfree _)
  rw [hparse] at hstart
  have hturn := Reaches.running P hkeep hok env hws hstart hrun
  rw [hcalls] at hturn
  have hidle := hturn.step (.turn rfl) (hfree _)
  exact hidle

end Beside

/-- Some operations of the control thread, with the transfer threads beside it. -/
def controlSteps (cfg : Config) (env : Env) : ℕ → WireProg Next → Connection →
    List (WireProg Unit) → Option (WireProg Next × Connection × List (WireProg Unit))
  | 0, p, c, ws => some (p, c, ws)
  | n + 1, p, c, ws =>
      match Interaction.step (serveWire env) p c with
      | some (⟨o, r⟩, q, c') => controlSteps cfg env n q c' (workersOnWire cfg ws ⟨o, r⟩)
      | none => none

/-- Some operations of a thread. -/
def threadSteps (env : Env) : ℕ → WireProg Unit → Connection → Option (WireProg Unit × Connection)
  | 0, p, c => some (p, c)
  | n + 1, p, c =>
      match Interaction.step (serveWire env) p c with
      | some (_, q, c') => threadSteps env n q c'
      | none => none

/-- Operations of the control thread, beside transfer threads that all satisfy `P`. -/
theorem Reaches.controls (env : Env) (P : List (WireProg Unit) → Prop)
    (hkeep : ∀ ws x, P ws → P (workersOnWire cfg ws x))
    (hok : ∀ c p ws o, P ws → ok ⟨c, .running p, ws⟩ (.control o)) {n : ℕ}
    {p q : WireProg Next} {ws ws' : List (WireProg Unit)} (hws : P ws)
    (h : Reaches cfg ok ⟨c, .running p, ws⟩)
    (hsteps : controlSteps cfg env n p c ws = some (q, c', ws')) :
    Reaches cfg ok ⟨c', .running q, ws'⟩ := by
  induction n generalizing p c ws with
  | zero =>
      obtain ⟨rfl, hrest⟩ := Prod.mk.inj (Option.some.inj hsteps)
      obtain ⟨rfl, rfl⟩ := Prod.mk.inj hrest
      exact h
  | succ n ih =>
      rw [controlSteps] at hsteps
      cases hmove : Interaction.step (serveWire env) p c with
      | none =>
          rw [hmove] at hsteps
          exact absurd hsteps (by simp)
      | some t =>
          rw [hmove] at hsteps
          exact ih (hkeep _ _ hws) (h.control env hmove (hok _ _ _ _ hws)) hsteps

/-- Operations of the only transfer thread. -/
theorem Reaches.thread (env : Env) {n : ℕ} {p q : WireProg Unit} {control : WireControl}
    (hok : ∀ c p o, ok ⟨c, control, [p]⟩ (.worker [] o)) (h : Reaches cfg ok ⟨c, control, [p]⟩)
    (hsteps : threadSteps env n p c = some (q, c')) : Reaches cfg ok ⟨c', control, [q]⟩ := by
  induction n generalizing p c with
  | zero =>
      obtain ⟨rfl, rfl⟩ := Prod.mk.inj (Option.some.inj hsteps)
      exact h
  | succ n ih =>
      rw [threadSteps] at hsteps
      cases hmove : Interaction.step (serveWire env) p c with
      | none =>
          rw [hmove] at hsteps
          exact absurd hsteps (by simp)
      | some t =>
          rw [hmove] at hsteps
          have hone : WireStep cfg ⟨c, control, [] ++ p :: []⟩ _ _ _ := .worker env rfl hmove
          exact ih (h.step hone (hok _ _ _)) hsteps

/-! ### An upload that is cancelled inside its transaction -/

/-- The session of the guest after `PORT 127,0,0,1,4,0`. -/
def portWorld : World :=
  (run (serveCommand .willing) (cmdPort oneSlave (some "127,0,0,1,4,0".toList))
    (guestWorld twoFiles)).state

theorem port_guest : Does .willing (shellCmd oneSlave .port (some "127,0,0,1,4,0".toList))
    (guestWorld twoFiles) () portWorld [] := ⟨rfl, rfl⟩

theorem stor_active : Does .willing (shellCmd oneSlave .stor (some "/a".toList)) portWorld ()
    (storeWorld portWorld) [⟨.pthread_create .store, true⟩] :=
  does_upload UploadCmd.noConfusion rfl (guest_a rfl) ⟨rfl, rfl⟩

/-- The session in which the transfer thread has sent its `MULTI`, after `ABOR`. -/
theorem abor_steps : ∃ q c' c'', threadSteps .willing 12 (onWire (storeTransfer oneSlave))
      ⟨storeWorld portWorld, none⟩ = some (q, c') ∧
    controlSteps oneSlave .willing 7 (wire (dispatch oneSlave (some .abor) none)) c' [q] =
      some (.ret .continue, c'', []) ∧ c''.multi = some [] :=
  ⟨_, _, _, rfl, rfl, rfl⟩

/-- The guest logs in, on a connection that no other thread uses. -/
theorem reaches_guest (P : List (WireProg Unit) → Prop)
    (hkeep : ∀ ws x, P ws → P (workersOnWire oneSlave ws x))
    (hok : ∀ c p ws o, P ws → ok ⟨c, .running p, ws⟩ (.control o)) (hfree : ∀ s, ok s .free)
    (hnil : P []) : Reaches oneSlave ok ⟨⟨guestWorld twoFiles, none⟩, .idle, []⟩ := by
  have hconnect : Reaches oneSlave ok ⟨⟨⟨twoFiles, {}, [], 0⟩, none⟩, .idle, []⟩ :=
    ⟨[], .connect rfl rfl⟩
  have hrun : run (serveShell .willing) (dispatch oneSlave (some .user) (some "guest".toList))
      ⟨twoFiles, {}, [], 0⟩ = .done .continue (guestWorld twoFiles) := rfl
  exact hconnect.line P hkeep hok .willing hfree "USER guest".toList hnil (by decide) hrun
    (line_not_logged rfl hrun).2

/-- The guest logs in, sends `PORT` and starts an upload. -/
theorem reaches_stor (P : List (WireProg Unit) → Prop)
    (hkeep : ∀ ws x, P ws → P (workersOnWire oneSlave ws x))
    (hok : ∀ c p ws o, P ws → ok ⟨c, .running p, ws⟩ (.control o)) (hfree : ∀ s, ok s .free)
    (hnil : P []) : Reaches oneSlave ok
      ⟨⟨storeWorld portWorld, none⟩, .idle, [onWire (storeTransfer oneSlave)]⟩ := by
  obtain ⟨hport, hportCalls⟩ := line_of_does (by simp) rfl port_guest
  obtain ⟨hstor, hstorCalls⟩ := line_of_does (by simp) rfl stor_active
  have hlogin := reaches_guest P hkeep hok hfree hnil
  have hasked := hlogin.line P hkeep hok .willing hfree "PORT 127,0,0,1,4,0".toList hnil
    (by decide) hport hportCalls
  exact hasked.line P hkeep hok .willing hfree "STOR /a".toList hnil (by decide) hstor hstorCalls

/-- No transfer thread is inside a transaction. -/
def NoneInside (ws : List (WireProg Unit)) : Prop := ∀ p ∈ ws, inside p = false

theorem NoneInside.workersOnWire {ws : List (WireProg Unit)} (x : Σ o, WireOp.Res o)
    (h : NoneInside ws) : NoneInside (workersOnWire cfg ws x) := by
  unfold ClusterFtpd.workersOnWire
  split
  · intro p hp
    rcases List.mem_cons.mp hp with rfl | hp
    · exact not_inside ⟨_, rfl⟩
    · exact h p hp
  · exact fun p hp => h p (List.mem_of_mem_tail hp)
  · exact h

theorem NoneInside.exclusive {p : WireProg Next} (h : NoneInside ws) :
    Exclusive ⟨c, .running p, ws⟩ (.control o) :=
  ⟨fun _ => h, fun _ p hp => h p (List.mem_of_mem_head? hp)⟩

/-- The world after an answer to `SIZE`. -/
def World.told (w : World) (st : Stat) : World :=
  { w with replies := w.replies ++
      [if S_ISREG st.st_mode then .line 213 (toString st.st_size) else .line 550 "No such file."] }

/-- `SIZE /a` looks the file up. -/
theorem size_guest (st : Stat) (hu : w.client.pUser = some guestUser)
    (hst : run serveRedis (stat "/a".toList) w.db = .done (some st) w.db) :
    Does .willing (shellCmd oneSlave .size (some "/a".toList)) w () (w.told st) [] := by
  have hfound : run (serveCommand .willing) (redis (stat "/a".toList)) w = .done (some st) w := by
    rw [run_redis, hst]
    rfl
  have hreply : ∀ c : Prop, [Decidable c] → ∀ r r' : Reply,
      run (serveCommand .willing) (if c then sendReply r else sendReply r') w =
        .done () { w with replies := w.replies ++ [if c then r else r'] } := by
    intro c _ r r'
    split_ifs <;> rfl
  constructor
  · show run _ (statPath (w.client.buildPath (some "/a".toList)) >>= _) w = _
    rw [guest_a hu]
    show run _ ((redis (stat "/a".toList) >>= _) >>= _) w = _
    rw [run_bind, run_bind, hfound]
    exact hreply _ _ _
  · have hwithin : Every (Within []) (cmdSize "/a".toList) := within_cmdSize _
    exact calls_nil hwithin (by simp)

/-- The world of the session when the transfer thread has come to its transaction. -/
def uploadingWorld : World :=
  { storeWorld portWorld with
    db := { portWorld.db with
      fid_counter := portWorld.db.fid_counter + 1
      transaction_counter := portWorld.db.transaction_counter + 1 }
    replies := portWorld.replies ++ [.line 150 "Opening data channel."]
    clock := (storeWorld portWorld).clock + 4 }

/-- The database after the upload: the slave got one byte. -/
def uploadedDb : Redis :=
  applyAll (saveWrites 0 0 ['a']
    { size := 1, uid := guestUser.uid, gid := guestUser.gid, fid := 1, slave := slaveA })
    uploadingWorld.db

theorem stat_uploaded : run serveRedis (stat "/a".toList) uploadedDb =
    .done (some ⟨33279, 1, guestUser.uid, guestUser.gid, 0⟩) uploadedDb := rfl

/-- The upload of `/a`, with a `SIZE` right before its `MULTI`. -/
theorem stor_steps (st : Stat) : ∃ q₁ q₂ c₁ c₂ w,
    threadSteps .willing 11 (onWire (storeTransfer oneSlave)) ⟨storeWorld portWorld, none⟩ =
      some (q₁, ⟨uploadingWorld, none⟩) ∧ inside q₁ = false ∧
    threadSteps .willing 1 q₁ ⟨uploadingWorld.told st, none⟩ = some (q₂, c₁) ∧ inside q₂ = true ∧
    threadSteps .willing 11 q₂ c₁ = some (.ret (), c₂) ∧ c₂.multi = none ∧
    run (serveCommand .willing) endTransfer c₂.world = .done () w ∧
    w.client.pUser = some guestUser ∧ w.client.bIsLogged = true ∧ w.db = uploadedDb := by
  refine ⟨_, _, _, _, _, rfl, rfl, rfl, rfl, rfl, rfl, rfl, rfl, rfl, ?_⟩
  rfl

/-- The guest uploads `/a`, of size 0 before, and asks for its size while the transfer thread runs
and after its end: nobody comes between its `MULTI` and its `EXEC`. -/
theorem connection_sound_stor : ∃ s xs, s.control = .idle ∧ s.workers = [] ∧
    s.conn.world.db = uploadedDb ∧ ConnectionSound s xs := by
  have hkeep : ∀ ws x, NoneInside ws → NoneInside (ClusterFtpd.workersOnWire oneSlave ws x) :=
    fun _ x h => h.workersOnWire x
  have hcontrol : ∀ c p ws o, NoneInside ws → Exclusive ⟨c, .running p, ws⟩ (.control o) :=
    fun _ _ _ _ h => h.exclusive
  have hworker : ∀ c p o, Exclusive ⟨c, .idle, [p]⟩ (.worker [] o) :=
    fun _ _ _ _ => ⟨rfl, by simp⟩
  have hnil : NoneInside [] := fun p hp => absurd hp (by simp)
  have hparse : parseLine "SIZE /a".toList = (some .size, some "/a".toList) := by decide
  have h₀ := reaches_stor NoneInside hkeep hcontrol (fun _ => trivial) hnil
  obtain ⟨q₁, q₂, c₁, c₂, w, hdraw, hout, hmulti, -, hexec, hclosed, hends, hu, hin, hdb⟩ :=
    stor_steps ⟨33279, 0, 0, 0, 0⟩
  have h₁ := Reaches.thread .willing hworker h₀ hdraw
  -- `SIZE` while the thread is about to send its `MULTI`
  have hone : NoneInside [q₁] := by
    intro p hp
    rw [List.mem_singleton.mp hp]
    exact hout
  obtain ⟨hsize, hsizeCalls⟩ := line_of_does (by simp) rfl
    (size_guest (w := uploadingWorld) ⟨33279, 0, 0, 0, 0⟩ rfl rfl)
  have h₂ := h₁.line NoneInside hkeep hcontrol .willing (fun _ => trivial) "SIZE /a".toList hone
    hparse hsize hsizeCalls
  have h₃ := Reaches.thread .willing hworker (Reaches.thread .willing hworker h₂ hmulti) hexec
  have hend : WireStep oneSlave ⟨c₂, .idle, [] ++ .ret () :: []⟩ _ _ _ := .ends .willing rfl hends
  have h₄ : Reaches oneSlave Exclusive ⟨⟨w, none⟩, .idle, []⟩ := hclosed ▸ h₃.step hend trivial
  -- `SIZE` after the end of the thread
  obtain ⟨hlast, hlastCalls⟩ := line_of_does (by simp) hin
    (size_guest _ hu (by rw [hdb]; exact stat_uploaded))
  obtain ⟨xs, hrun⟩ := h₄.line NoneInside hkeep hcontrol .willing (fun _ => trivial)
    "SIZE /a".toList hnil hparse hlast hlastCalls
  exact ⟨_, xs, rfl, rfl, hdb, connection_sound hrun⟩

/-- **`ABOR` during the transaction** of an upload leaves the connection inside a `MULTI`. -/
theorem abor_inside_multi : ¬ ∀ cfg s xs, WireRun cfg (fun _ _ => True) s xs →
    ConnectionSound s xs := by
  intro hall
  have h₂ : Reaches oneSlave (fun _ _ => True) _ :=
    reaches_stor (fun _ => True) (fun _ _ _ => trivial) (fun _ _ _ _ _ => trivial)
      (fun _ => trivial) trivial
  obtain ⟨q, c', c'', hthread, hcontrol, hmulti⟩ := abor_steps
  have h₃ := Reaches.thread .willing (fun _ _ _ => trivial) h₂ hthread
  have hline : WireStep oneSlave ⟨c', .idle, [q]⟩ _ _ _ := .line "ABOR".toList rfl
  have habor : parseLine "ABOR".toList = (some .abor, none) := by decide
  rw [habor] at hline
  have h₄ := Reaches.controls .willing (fun _ => True) (fun _ _ _ => trivial)
    (fun _ _ _ _ _ => trivial) trivial (h₃.step hline trivial) hcontrol
  have hturn : WireStep oneSlave ⟨c'', .running (.ret .continue), []⟩ _ _ _ := .turn rfl
  obtain ⟨xs, hrun⟩ := h₄.step hturn trivial
  have hclosed := (hall _ _ _ hrun).closed (fun p hp => by cases hp) rfl
  rw [show c''.multi = none from hclosed] at hmulti
  exact absurd hmulti (by simp)

end ClusterFtpd
