import ClusterFtpd.Lib.Search
import ClusterFtpd.Shell
import ClusterFtpd.SlaveServices
import ClusterFtpd.VfsRuns

/-!
# The ports of the data connections

The metaserver and the slaves search for a free port in the same way (`searchLoop`): downwards from
a port drawn at random, and on from the end of the range, until they are back.  `candidates` is the
order of the tries.  It has the end of the range itself, which is not a port of it, in the second
place, and none of the ports below the one that was drawn.

An active connection binds the port that was drawn with its bytes exchanged.

`dataPorts_iff` says for which ranges, draws and free ports all of this is right.
-/

namespace ClusterFtpd

open Interaction

/-- `SetDataPortRange` accepts the range. -/
def Config.RangeAccepted (cfg : Config) : Prop :=
  cfg.usLen ≠ 0 ∧ 0 < cfg.usStart ∧ cfg.usStart + cfg.usLen ≤ 65535

/-- A port of the range. -/
def Config.InRange (cfg : Config) (port : ℕ) : Prop :=
  cfg.usStart ≤ port ∧ port < cfg.usStart + cfg.usLen

/-- The port that `usStart + (rand() % usLen)` draws. -/
def Config.drawn (cfg : Config) (r : ℕ) : ℕ := cfg.usStart + r % cfg.usLen

variable {cfg : Config}

theorem Config.RangeAccepted.drawn (h : cfg.RangeAccepted) (r : ℕ) : cfg.InRange (cfg.drawn r) := by
  have hlt : r % cfg.usLen < cfg.usLen := Nat.mod_lt r (Nat.pos_of_ne_zero h.1)
  unfold Config.InRange Config.drawn
  omega

/-! ### The order of the tries -/

section

variable {I : Interface}

/-- The loop of both searches: `first` is the port that was drawn, `top` the end of the range. -/
def searchLoop (ask : ℕ → Prog I Bool) (top first : ℕ) : (fuel : ℕ) → (tried : ℕ) →
    Prog I (Option ℕ)
  | 0, _ => .stop .loops
  | fuel + 1, tried => do
      if ← ask tried then return some tried
      else
        let below := (tried + 65535) % 65536
        let next := if below < first then top % 65536 else below
        if next = first then return none else searchLoop ask top first fuel next

/-- The `n` ports above `first`, downwards. -/
def countdown (first : ℕ) : ℕ → List ℕ
  | 0 => []
  | n + 1 => (first + n + 1) :: countdown first n

/-- The ports that are tried, in their order. -/
def candidates (top first : ℕ) : List ℕ := first :: countdown first (top - first)

variable {top first : ℕ} (ask : ℕ → Prog I Bool)

/-- From a port above the first one the loop counts down to it. -/
theorem searchLoop_countdown (hfirst : 0 < first) {n fuel : ℕ} (htop : first + n + 1 < 65536)
    (hfuel : n < fuel) :
    searchLoop ask top first fuel (first + n + 1) = tryEach ask (countdown first (n + 1)) := by
  induction n generalizing fuel with
  | zero =>
      cases fuel with
      | zero => exact absurd hfuel (Nat.lt_irrefl 0)
      | succ fuel =>
          have hbelow : (first + 0 + 1 + 65535) % 65536 = first := by omega
          rw [searchLoop, countdown, tryEach]
          simp only [hbelow, Nat.lt_irrefl, if_false, if_true]
          rfl
  | succ n ih =>
      cases fuel with
      | zero => exact absurd hfuel (Nat.not_lt_zero _)
      | succ fuel =>
          have hbelow : (first + (n + 1) + 1 + 65535) % 65536 = first + n + 1 := by omega
          have hnext : ¬ first + n + 1 < first := by omega
          have hgo : first + n + 1 ≠ first := by omega
          rw [searchLoop, countdown, tryEach]
          simp only [hbelow, if_neg hnext, if_neg hgo]
          rw [ih (by omega) (by omega)]

/-- **The tries of the loop.** -/
theorem searchLoop_eq (hfirst : 0 < first) (hlt : first < top) (htop : top < 65536) {fuel : ℕ}
    (hfuel : 65536 ≤ fuel) :
    searchLoop ask top first fuel first = tryEach ask (candidates top first) := by
  cases fuel with
  | zero => exact absurd hfuel (by decide)
  | succ fuel =>
      have hbelow : (first + 65535) % 65536 < first := by omega
      have hnext : top % 65536 = first + (top - first - 1) + 1 := by omega
      have hgo : first + (top - first - 1) + 1 ≠ first := by omega
      have hlist : top - first = top - first - 1 + 1 := by omega
      rw [searchLoop, candidates, tryEach]
      simp only [if_pos hbelow, hnext, if_neg hgo]
      rw [searchLoop_countdown ask hfirst (by omega) (by omega), ← hlist]

end

theorem bindLoop_eq (cfg : Config) (fd first fuel tried : ℕ) :
    bindLoop cfg fd first fuel tried =
      searchLoop (fun port => sys (.bind fd port)) (cfg.usStart + cfg.usLen) first fuel tried := by
  induction fuel generalizing tried with
  | zero => rfl
  | succ fuel ih => simp only [bindLoop, searchLoop, ih]

theorem SlaveServices.bindLoop_eq (trans_id : ℤ) (ip usStart usLen first fuel tried : ℕ) :
    SlaveServices.bindLoop trans_id ip usStart usLen first fuel tried =
      searchLoop (fun port => dataSock trans_id >>= fun sock => slaveCall (.bind sock ip port))
        (usStart + usLen) first fuel tried := by
  induction fuel generalizing tried with
  | zero => rfl
  | succ fuel ih =>
      simp only [SlaveServices.bindLoop, searchLoop, ih]
      rfl

/-! ### The programs -/

/-- The search of `PASV`. -/
def searchPort (cfg : Config) (fd : ℕ) : CommandProg (Option ℕ) := do
  let usFirstTry ← randomPort cfg
  bindLoop cfg fd usFirstTry 131072 usFirstTry

/-- What `pasvLocal` does with the port, behind its search. -/
theorem searchPort_bind {α : Type} (cfg : Config) (fd : ℕ) (k : Option ℕ → CommandProg α) :
    searchPort cfg fd >>= k = randomPort cfg >>= fun usFirstTry =>
      bindLoop cfg fd usFirstTry 131072 usFirstTry >>= k := by
  unfold searchPort
  rw [bind_bind]

/-- `portLen` as an RPC carries it, a signed number of 16 bits. -/
def int16 (n : ℕ) : ℤ := ((n : ℤ) + 32768) % 65536 - 32768

/-- `unsigned short int usLen = portLen`. -/
def ushort (n : ℤ) : ℕ := (n % 65536).toNat

theorem ushort_int16 {n : ℕ} (h : n < 65536) : ushort (int16 n) = n := by
  unfold ushort int16
  omega

/-- The search of `InitPasvDataConnection`. -/
def SlaveServices.searchPort (trans_id : ℤ) (ip startPort : ℕ) (portLen : ℤ) :
    SlaveProg (Option ℕ) := do
  let usLen := ushort portLen
  let usStart := startPort % 65536
  let r ← slaveCall .rand
  if usLen = 0 then .stop .undefinedBehaviour
  else do
    let usFirstTry := (usStart + r % usLen) % 65536
    SlaveServices.bindLoop trans_id ip usStart usLen usFirstTry 131072 usFirstTry

/-- `InitPasvDataConnection` searches, and `listenOn` answers 451 if it has no port afterwards. -/
theorem SlaveServices.initPasvDataConnection_eq (p : PasvParams) (ip startPort : ℕ) {portLen : ℕ}
    (hlen : portLen < 65536) : initPasvDataConnection p ip startPort portLen = (do
    let sock ← slaveCall (.socket p.trans_id)
    slaveCall (.assign p.trans_id sock)
    let sock ← dataSock p.trans_id
    if sock.isSome then do
      let sock ← dataSock p.trans_id
      if ← slaveCall (.setsockopt sock) then do
        let server_port ← SlaveServices.searchPort p.trans_id ip startPort (int16 portLen)
        listenOn p.trans_id ip (server_port.getD 0)
      else return .empty
    else return .empty) := by
  have hsearch : (SlaveServices.searchPort p.trans_id ip startPort (int16 portLen) >>=
      fun server_port => listenOn p.trans_id ip (server_port.getD 0)) =
      (slaveCall .rand >>= fun r => if portLen % 65536 = 0 then .stop .undefinedBehaviour
        else SlaveServices.bindLoop p.trans_id ip (startPort % 65536) (portLen % 65536)
          ((startPort % 65536 + r % (portLen % 65536)) % 65536) 131072
          ((startPort % 65536 + r % (portLen % 65536)) % 65536) >>=
            fun server_port => listenOn p.trans_id ip (server_port.getD 0)) := by
    unfold SlaveServices.searchPort
    rw [bind_bind]
    apply congrArg
    funext r
    rw [ushort_int16 hlen, Nat.mod_eq_of_lt hlen]
    by_cases hzero : portLen = 0
    · rw [if_pos hzero, if_pos hzero]
      exact Prog.stop_bind _ _
    · rw [if_neg hzero, if_neg hzero]
  unfold initPasvDataConnection
  simp only [hsearch]

/-! ### The ports that are bound -/

/-- A call of `bind` of the metaserver. -/
def noteBind : (o : CommandOp) → o.Res → Option ℕ
  | .sys (.bind _ port), _ => some port
  | _, _ => none

/-- A call of `bind` of a slave. -/
def noteSlaveBind : (o : SlaveOp) → o.Res → Option ℕ
  | .bind _ _ port, _ => some port
  | _, _ => none

/-- A system that draws `r`, and on which the ports `free` can be bound. -/
def Draws (r : ℕ) (free : ℕ → Bool) (env : Env) : Prop :=
  ∀ n, env n .rand = r ∧ ∀ fd port, env n (.bind fd port) = free port

/-- The same for a slave. -/
def SlaveDraws (r : ℕ) (free : ℕ → Bool) (env : SlaveEnv) : Prop :=
  ∀ n, env n .rand = r ∧ ∀ sock ip port, env n (.bind sock ip port) = free port

/-- A search with the ports it tried and its outcome: it ends, it tries ports of the range only and
none of them twice, and it is without a port, which is answered 451, only if none is free. -/
structure SearchRight {σ : Type} (cfg : Config) (free : ℕ → Bool) (tries : List ℕ)
    (outcome : Outcome σ (Option ℕ)) : Prop where
  terminates : ∃ found s, outcome = .done found s
  inRange : ∀ p ∈ tries, cfg.InRange p
  nodup : tries.Nodup
  complete : ∀ found s, outcome = .done found s → found.getD 0 = 0 →
    ∀ p, cfg.InRange p → free p = false

/-- The passive searches of the metaserver and of a slave are right, and so are the ports that
active connections bind. -/
structure DataPortsRight (cfg : Config) (r : ℕ) (free : ℕ → Bool) : Prop where
  metaserver : ∀ env fd w, Draws r free env → SearchRight cfg free
    (trace (serveCommand env) noteBind (searchPort cfg fd) w)
    (run (serveCommand env) (searchPort cfg fd) w)
  slave : ∀ env trans_id ip s, SlaveDraws r free env → SearchRight cfg free
    (trace (serveSlave env) noteSlaveBind
      (SlaveServices.searchPort trans_id ip cfg.usStart (int16 cfg.usLen)) s)
    (run (serveSlave env) (SlaveServices.searchPort trans_id ip cfg.usStart (int16 cfg.usLen)) s)
  active : ∀ env fd w, Draws r free env →
    ∀ p ∈ trace (serveCommand env) noteBind (connectData cfg fd) w, cfg.InRange p
  activeSlave : ∀ env w w' server_port slaveEnv p server_ip s, Draws r free env →
    run (serveCommand env) (randomPort cfg) w = .done server_port w' →
    p.server_port = server_port →
    ∀ port ∈ trace (serveSlave slaveEnv) noteSlaveBind
      (SlaveServices.openActiveDataConnection p server_ip) s, cfg.InRange port

variable {r : ℕ} {free : ℕ → Bool}

/-- **A search over the candidates** is right exactly when it needs no second try. -/
theorem searchRight_iff {σ : Type} {tries : List ℕ} {outcome : Outcome σ (Option ℕ)} {s : σ}
    (h : cfg.RangeAccepted)
    (htries : tries = asked free (candidates (cfg.usStart + cfg.usLen) (cfg.drawn r)))
    (houtcome : outcome =
      .done ((candidates (cfg.usStart + cfg.usLen) (cfg.drawn r)).find? free) s) :
    SearchRight cfg free tries outcome ↔ free (cfg.drawn r) = true := by
  have hdrawn := h.drawn r
  subst htries houtcome
  constructor
  · intro hright
    by_contra hfree
    obtain ⟨n, hn⟩ : ∃ n, cfg.usStart + cfg.usLen - cfg.drawn r = n + 1 :=
      Nat.exists_eq_succ_of_ne_zero (Nat.sub_ne_zero_of_lt hdrawn.2)
    have htop : cfg.drawn r + n + 1 ∈
        asked free (candidates (cfg.usStart + cfg.usLen) (cfg.drawn r)) := by
      rw [candidates, hn, countdown]
      exact mem_asked_second (Bool.eq_false_iff.2 hfree)
    have hout := (hright.inRange _ htop).2
    omega
  · intro hfree
    have hfind : (candidates (cfg.usStart + cfg.usLen) (cfg.drawn r)).find? free =
        some (cfg.drawn r) := List.find?_cons_of_pos hfree
    have hasked : asked free (candidates (cfg.usStart + cfg.usLen) (cfg.drawn r)) =
        [cfg.drawn r] := by
      rw [candidates, asked, if_pos hfree]
    rw [hfind, hasked]
    refine ⟨⟨_, _, rfl⟩, ?_, List.nodup_singleton _, ?_⟩
    · intro p hp
      rw [List.mem_singleton.1 hp]
      exact hdrawn
    · intro found s' hfound hzero
      cases hfound
      have hpos : 0 < cfg.drawn r := h.2.1.trans_le hdrawn.1
      exact absurd hzero (Nat.ne_of_gt hpos)

/-- A port drawn in the metaserver. -/
theorem randomPort_drawn (h : cfg.RangeAccepted) {env : Env} (henv : Draws r free env) (w : World) :
    run (serveCommand env) (randomPort cfg) w =
      .done (cfg.drawn r) { w with clock := w.clock + 1 } := by
  have hlt : cfg.drawn r < 65536 := by
    have := h.2.2
    have := (h.drawn r).2
    omega
  have hrun : run (serveCommand env) (randomPort cfg) w =
      run (serveCommand env) (if cfg.usLen = 0 then .stop .undefinedBehaviour
        else .ret ((cfg.usStart + env w.clock .rand % cfg.usLen) % 65536))
        { w with clock := w.clock + 1 } := rfl
  rw [hrun, if_neg h.1, (henv w.clock).1]
  show Outcome.done (cfg.drawn r % 65536) _ = _
  rw [Nat.mod_eq_of_lt hlt]

theorem trace_randomPort (h : cfg.RangeAccepted) (env : Env) (w : World) :
    trace (serveCommand env) noteBind (randomPort cfg) w = [] := by
  have htrace : trace (serveCommand env) noteBind (randomPort cfg) w =
      trace (serveCommand env) noteBind (if cfg.usLen = 0 then .stop .undefinedBehaviour
        else .ret ((cfg.usStart + env w.clock .rand % cfg.usLen) % 65536))
        { w with clock := w.clock + 1 } := rfl
  rw [htrace, if_neg h.1]
  rfl

/-- The search of the metaserver. -/
theorem run_searchPort (h : cfg.RangeAccepted) {env : Env} (henv : Draws r free env) (fd : ℕ)
    (w : World) : ∃ w',
    run (serveCommand env) (searchPort cfg fd) w =
      .done ((candidates (cfg.usStart + cfg.usLen) (cfg.drawn r)).find? free) w' ∧
    trace (serveCommand env) noteBind (searchPort cfg fd) w =
      asked free (candidates (cfg.usStart + cfg.usLen) (cfg.drawn r)) := by
  have hasks : Asks (serveCommand env) noteBind (fun _ => True) free
      (fun port => sys (.bind fd port)) := by
    intro port w _
    have hanswer : env w.clock (.bind fd port) = free port := (henv w.clock).2 fd port
    have hrun : run (serveCommand env) (sys (.bind fd port)) w =
        .done (env w.clock (.bind fd port)) { w with clock := w.clock + 1 } := rfl
    rw [hanswer] at hrun
    exact ⟨_, hrun, rfl, trivial⟩
  have hdrawn := h.drawn r
  have hloop : bindLoop cfg fd (cfg.drawn r) 131072 (cfg.drawn r) =
      tryEach (fun port => sys (.bind fd port))
        (candidates (cfg.usStart + cfg.usLen) (cfg.drawn r)) := by
    rw [bindLoop_eq]
    exact searchLoop_eq _ (h.2.1.trans_le hdrawn.1) hdrawn.2 (Nat.lt_succ_of_le h.2.2) (by decide)
  obtain ⟨w', hrun, htrace, _⟩ := run_tryEach hasks
    (candidates (cfg.usStart + cfg.usLen) (cfg.drawn r)) (s := { w with clock := w.clock + 1 }) trivial
  refine ⟨w', ?_, ?_⟩
  · unfold searchPort
    rw [run_bind, randomPort_drawn h henv, Outcome.done_andThen, hloop]
    exact hrun
  · unfold searchPort
    rw [trace_bind, randomPort_drawn h henv, trace_randomPort h]
    show [] ++ trace _ _ (bindLoop cfg fd (cfg.drawn r) 131072 (cfg.drawn r)) _ = _
    rw [hloop]
    exact htrace

/-- The search of a slave. -/
theorem SlaveServices.run_searchPort (h : cfg.RangeAccepted) {env : SlaveEnv}
    (henv : SlaveDraws r free env) (trans_id : ℤ) (ip : ℕ) (s : SlaveState) : ∃ s',
    run (serveSlave env) (SlaveServices.searchPort trans_id ip cfg.usStart (int16 cfg.usLen)) s =
      .done ((candidates (cfg.usStart + cfg.usLen) (cfg.drawn r)).find? free) s' ∧
    trace (serveSlave env) noteSlaveBind
        (SlaveServices.searchPort trans_id ip cfg.usStart (int16 cfg.usLen)) s =
      asked free (candidates (cfg.usStart + cfg.usLen) (cfg.drawn r)) := by
  have hdrawn := h.drawn r
  have hstart : cfg.usStart < 65536 := by
    have := h.2.2
    omega
  have hlen : cfg.usLen < 65536 := by
    have := h.2.2
    omega
  have hlt : cfg.drawn r < 65536 := by
    have := h.2.2
    have := hdrawn.2
    omega
  have hasks : Asks (serveSlave env) noteSlaveBind (fun _ => True) free
      (fun port => dataSock trans_id >>= fun sock => slaveCall (.bind sock ip port)) := by
    intro port s _
    have hrun : run (serveSlave env)
        (dataSock trans_id >>= fun sock => slaveCall (.bind sock ip port)) s =
        .done (env (serveSlave env (.lookup trans_id) s).2.clock
          (.bind (serveSlave env (.lookup trans_id) s).1 ip port))
          (serveSlave env (.lookup trans_id) s).2.tick := rfl
    rw [(henv _).2] at hrun
    exact ⟨_, hrun, rfl, trivial⟩
  have hloop : SlaveServices.bindLoop trans_id ip cfg.usStart cfg.usLen (cfg.drawn r) 131072
      (cfg.drawn r) =
      tryEach (fun port => dataSock trans_id >>= fun sock => slaveCall (.bind sock ip port))
        (candidates (cfg.usStart + cfg.usLen) (cfg.drawn r)) := by
    rw [SlaveServices.bindLoop_eq]
    exact searchLoop_eq _ (h.2.1.trans_le hdrawn.1) hdrawn.2 (Nat.lt_succ_of_le h.2.2) (by decide)
  obtain ⟨s', hrun, htrace, _⟩ := run_tryEach hasks
    (candidates (cfg.usStart + cfg.usLen) (cfg.drawn r)) (s := s.tick) trivial
  have hsearch : SlaveServices.searchPort trans_id ip cfg.usStart (int16 cfg.usLen) =
      .call .rand fun r => SlaveServices.bindLoop trans_id ip cfg.usStart cfg.usLen
        ((cfg.usStart + r % cfg.usLen) % 65536) 131072 ((cfg.usStart + r % cfg.usLen) % 65536) := by
    unfold SlaveServices.searchPort
    rw [ushort_int16 hlen, Nat.mod_eq_of_lt hstart]
    apply congrArg (Prog.call (I := SlaveI) .rand)
    funext r
    exact if_neg h.1
  have hdraw : (serveSlave env .rand s).1 = r ∧ (serveSlave env .rand s).2 = s.tick :=
    ⟨(henv s.clock).1, rfl⟩
  have hfirst : (cfg.usStart + r % cfg.usLen) % 65536 = cfg.drawn r := Nat.mod_eq_of_lt hlt
  refine ⟨s', ?_, ?_⟩
  · rw [hsearch, run_call, hdraw.1, hdraw.2, hfirst, hloop]
    exact hrun
  · rw [hsearch, trace_call, hdraw.1, hdraw.2, hfirst, hloop]
    exact htrace

/-! ### Active connections -/

/-- The active half of `OpenDataConnection` binds the drawn port with its bytes exchanged. -/
theorem trace_connectData (h : cfg.RangeAccepted) {env : Env} (henv : Draws r free env) (fd : ℕ)
    (w : World) :
    trace (serveCommand env) noteBind (connectData cfg fd) w = [ntohs (cfg.drawn r)] := by
  show trace _ _ (randomPort cfg >>= _) w = _
  rw [trace_bind, trace_randomPort h, randomPort_drawn h henv]
  show ntohs (cfg.drawn r) :: trace _ _ (if _ then _ else _) _ = _
  split
  · rfl
  · rfl

/-- A call that binds no port but `q`. -/
def BindsOnly (q : ℕ) : SlaveOp → Prop
  | .bind _ _ port => port = q
  | _ => True

theorem bindsOnly_call {q : ℕ} {α : Type} {o : SlaveOp} {f : o.Res → SlaveProg α}
    (hf : ∀ a, Every (BindsOnly q) (f a)) (ho : BindsOnly q o := by exact trivial) :
    Every (BindsOnly q) (slaveCall o >>= f) :=
  ⟨ho, hf⟩

theorem bindsOnly_connectActive (p : ActiveParams) (server_ip : ℕ) :
    Every (BindsOnly (ntohs p.server_port)) (SlaveServices.connectActive p server_ip) := by
  refine bindsOnly_call fun sock => ?_
  rw [every_ite]
  refine ⟨fun _ => bindsOnly_call fun sock => bindsOnly_call fun set => ?_, fun _ => trivial⟩
  rw [every_ite]
  refine ⟨fun _ => bindsOnly_call fun sock => bindsOnly_call fun _ => bindsOnly_call fun sock =>
    bindsOnly_call (fun bound => ?_) rfl, fun _ => trivial⟩
  rw [every_ite]
  exact ⟨fun _ => bindsOnly_call fun sock => ⟨trivial, fun _ => trivial⟩, fun _ => trivial⟩

theorem bindsOnly_openActive (p : ActiveParams) (server_ip : ℕ) :
    Every (BindsOnly (ntohs p.server_port)) (SlaveServices.openActiveDataConnection p server_ip) := by
  refine bindsOnly_call fun sock => bindsOnly_call fun _ => ?_
  apply (bindsOnly_connectActive p server_ip).bind
  intro opened
  rw [every_ite]
  refine ⟨fun _ => trivial, fun _ => Every.bind (bindsOnly_call fun sock => ?_) fun _ => trivial⟩
  rw [every_ite]
  exact ⟨fun _ => bindsOnly_call fun _ => bindsOnly_call fun _ => ⟨trivial, fun _ => trivial⟩,
    fun _ => trivial⟩

/-- A slave binds the port of its parameters with the bytes exchanged, if it comes to that. -/
theorem mem_trace_openActive {env : SlaveEnv} {p : ActiveParams} {server_ip port : ℕ}
    {s : SlaveState} (h : port ∈ trace (serveSlave env) noteSlaveBind
      (SlaveServices.openActiveDataConnection p server_ip) s) : port = ntohs p.server_port := by
  obtain ⟨o, a, ho, hnote⟩ := (bindsOnly_openActive p server_ip).mem_trace (serveSlave env)
    noteSlaveBind h
  cases o with
  | bind sock ip q =>
      cases hnote
      exact ho
  | _ => cases hnote

/-! ### When the ports are right -/

/-- A system that draws `r` and has the ports `free`. -/
def drawing (r : ℕ) (free : ℕ → Bool) : Env := fun n o =>
  match o with
  | .rand => r
  | .bind _ port => free port
  | o => Env.calm n o

theorem draws_drawing (r : ℕ) (free : ℕ → Bool) : Draws r free (drawing r free) :=
  fun _ => ⟨rfl, fun _ _ => rfl⟩

/-- **The ports of the data connections are right** for a range that is accepted when the port
drawn for a passive connection is free, and the one drawn for an active connection lies in the
range with its bytes exchanged. -/
theorem dataPorts_iff (cfg : Config) (r : ℕ) (free : ℕ → Bool) (h : cfg.RangeAccepted) :
    DataPortsRight cfg r free ↔
      free (cfg.drawn r) = true ∧ cfg.InRange (ntohs (cfg.drawn r)) := by
  constructor
  · intro hright
    let w₀ : World := { db := initRedis 0, client := {} }
    obtain ⟨w', hrun, htrace⟩ := run_searchPort h (draws_drawing r free) 0 w₀
    have hsearch := hright.metaserver _ 0 w₀ (draws_drawing r free)
    have hactive := hright.active _ 0 w₀ (draws_drawing r free)
      (ntohs (cfg.drawn r))
    rw [trace_connectData h (draws_drawing r free)] at hactive
    exact ⟨(searchRight_iff h htrace hrun).1 hsearch, hactive List.mem_cons_self⟩
  · intro hcondition
    refine ⟨?_, ?_, ?_, ?_⟩
    · intro env fd w henv
      obtain ⟨w', hrun, htrace⟩ := run_searchPort h henv fd w
      exact (searchRight_iff h htrace hrun).2 hcondition.1
    · intro env trans_id ip s henv
      obtain ⟨s', hrun, htrace⟩ := SlaveServices.run_searchPort h henv trans_id ip s
      exact (searchRight_iff h htrace hrun).2 hcondition.1
    · intro env fd w henv port hport
      rw [trace_connectData h henv] at hport
      rw [List.mem_singleton.1 hport]
      exact hcondition.2
    · intro env w w' server_port slaveEnv p server_ip s henv hdraw hparams port hport
      rw [randomPort_drawn h henv] at hdraw
      cases hdraw
      rw [mem_trace_openActive hport, hparams]
      exact hcondition.2

/-- The ports 200 to 299; the two bytes of 257 are the same. -/
def hundredPorts : Config := { usStart := 200, usLen := 100 }

/-- Port 257 is drawn, and no other port is free. -/
theorem dataPorts_257 : hundredPorts.RangeAccepted ∧ hundredPorts.drawn 57 = 257 ∧
    DataPortsRight hundredPorts 57 fun p => p == 257 := by
  have haccepted : hundredPorts.RangeAccepted := ⟨by decide, by decide, by decide⟩
  have hdrawn : hundredPorts.drawn 57 = 257 := rfl
  have hswapped : hundredPorts.InRange (ntohs (hundredPorts.drawn 57)) := ⟨by decide, by decide⟩
  exact ⟨haccepted, hdrawn, (dataPorts_iff hundredPorts 57 _ haccepted).2 ⟨rfl, hswapped⟩⟩

/-- The ports 100 to 102. -/
def threePorts : Config := { usStart := 100, usLen := 3 }

/-- Port 101 is drawn and only port 100 is free: 103, 102 are tried, and the reply is 451.  An active
connection binds port 25856. -/
theorem threePorts_wrong : threePorts.RangeAccepted ∧
    trace (serveCommand (drawing 1 fun p => p == 100)) noteBind (searchPort threePorts 3)
      { db := initRedis 0, client := {} } = [101, 103, 102] ∧
    ntohs (threePorts.drawn 1) = 25856 ∧ ¬ DataPortsRight threePorts 1 fun p => p == 100 := by
  have haccepted : threePorts.RangeAccepted := ⟨by decide, by decide, by decide⟩
  have hdraws := draws_drawing 1 fun p => p == 100
  obtain ⟨w', _, htrace⟩ := run_searchPort haccepted hdraws 3 { db := initRedis 0, client := {} }
  have htries : trace (serveCommand (drawing 1 fun p => p == 100)) noteBind
      (searchPort threePorts 3) { db := initRedis 0, client := {} } = [101, 103, 102] :=
    htrace.trans (by decide)
  refine ⟨haccepted, htries, rfl, ?_⟩
  intro h
  have hrange := (h.metaserver _ 3 { db := initRedis 0, client := {} } hdraws).inRange 103
    (htries ▸ by decide)
  exact absurd hrange.2 (by decide)

end ClusterFtpd
