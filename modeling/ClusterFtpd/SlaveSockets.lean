import ClusterFtpd.SlaveServices

/-!
# The descriptors of a slave

What the calls of the handler do to `mDataSock` and to the open descriptors, and what becomes of
them over the calls that a slave answers: a transaction has a data socket or none, and a descriptor
that is open without being in the map stays open.

Main results:

* `descriptors_leaked`: a slave has one such descriptor for every call that makes a new socket for a
  transaction that has one;
* `transaction_open`: whether a transaction has a socket is a matter of its own last call.
-/

namespace ClusterFtpd

open Interaction MachineInt

/-! ### What a program does to the map -/

/-- The map is `m`, and the open descriptors are those of `o`. -/
def SlaveState.At (m : ℤ → Option (Option ℕ)) (o : ℕ → Option ℤ) (s : SlaveState) : Prop :=
  s.mDataSock = m ∧ s.owner = o

/-- The open descriptors behind a `CloseSocket`. -/
def closeIn (o : ℕ → Option ℤ) : Option ℕ → ℕ → Option ℤ
  | some fd => Function.update o fd none
  | none => o

/-- The triples from a map and its descriptors. -/
abbrev Leads (env : SlaveEnv) {α : Type} (m : ℤ → Option (Option ℕ)) (o : ℕ → Option ℤ)
    (p : SlaveProg α) (Q : α → SlaveState → Prop) : Prop :=
  Sound (serveSlave env) (fun _ _ => True) (SlaveState.At m o) p Q

section Leads

variable {env : SlaveEnv} {α : Type} {m : ℤ → Option (Option ℕ)} {o : ℕ → Option ℤ} {t : ℤ}
  {sock : Option ℕ} {Q : α → SlaveState → Prop}

theorem Leads.done {a : α} (h : ∀ s, SlaveState.At m o s → Q a s) :
    Leads env m o (.ret a : SlaveProg α) Q := Sound.ret h

theorem leads_dataSock {f : Option ℕ → SlaveProg α} (h : m t = some sock)
    (hf : Leads env m o (f sock) Q) : Leads env m o (SlaveServices.dataSock t >>= f) Q := by
  refine Sound.bind_inv (S := fun r => r = sock) (Sound.op (fun _ _ => trivial) ?_) ?_
  · intro s hs
    have hentry : s.mDataSock t = some sock := by rw [hs.1, h]
    have hlookup : serveSlave env (.lookup t) s = (sock, s) := by
      simp only [serveSlave, hentry]
    rw [hlookup]
    exact ⟨rfl, hs⟩
  · intro r hr
    rw [hr]
    exact hf

/-- A call that only the system answers. -/
theorem leads_call {c : SlaveOp} {f : c.Res → SlaveProg α}
    (hc : ∀ s, (serveSlave env c s).2 = s.tick) (hf : ∀ r, Leads env m o (f r) Q) :
    Leads env m o (slaveCall c >>= f) Q := by
  refine Sound.bind (Q := fun _ => SlaveState.At m o) (Sound.op (fun _ _ => trivial) ?_) hf
  intro s hs
  rw [hc s]
  exact hs

theorem leads_assign {f : Unit → SlaveProg α}
    (hf : Leads env (Function.update m t (some sock)) o (f ()) Q) :
    Leads env m o (slaveCall (.assign t sock) >>= f) Q := by
  refine Sound.bind (Q := fun _ => SlaveState.At (Function.update m t (some sock)) o)
    (Sound.op (fun _ _ => trivial) ?_) fun _ => hf
  intro s hs
  have hmap : (s.assign t sock).mDataSock = Function.update m t (some sock) := by
    show Function.update s.mDataSock t (some sock) = _
    rw [hs.1]
  exact ⟨hmap, hs.2⟩

theorem leads_close {f : Unit → SlaveProg α} (hf : Leads env m (closeIn o sock) (f ()) Q) :
    Leads env m o (slaveCall (.closeSocket sock) >>= f) Q := by
  refine Sound.bind (Q := fun _ => SlaveState.At m (closeIn o sock))
    (Sound.op (fun _ _ => trivial) ?_) fun _ => hf
  intro s hs
  cases sock with
  | none => exact hs
  | some fd =>
      have howner : (s.close (some fd)).owner = Function.update o fd none := by
        show Function.update s.owner fd none = _
        rw [hs.2]
      exact ⟨hs.1, howner⟩

/-- A descriptor that the system has given, which was not open, or none. -/
def Obtained (m : ℤ → Option (Option ℕ)) (o : ℕ → Option ℤ) (t : ℤ) (r : Option ℕ)
    (s : SlaveState) : Prop :=
  r = none ∧ SlaveState.At m o s ∨
    ∃ fd, r = some fd ∧ o fd = none ∧ SlaveState.At m (Function.update o fd (some t)) s

theorem SlaveState.At.obtain {s : SlaveState} (h : SlaveState.At m o s) (t : ℤ)
    (answer : Option ℕ) : Obtained m o t (s.obtain t answer).1 (s.obtain t answer).2 := by
  cases answer with
  | none => exact .inl ⟨rfl, h⟩
  | some fd =>
      by_cases hfree : s.owner fd = none
      · have hobtain : s.obtain t (some fd) =
            (some fd, { s.tick with owner := Function.update s.owner fd (some t) }) := if_pos hfree
        rw [hobtain]
        refine .inr ⟨fd, rfl, by rw [← h.2, hfree], h.1, ?_⟩
        show Function.update s.owner fd (some t) = _
        rw [h.2]
      · have hobtain : s.obtain t (some fd) = (none, s.tick) := if_neg hfree
        rw [hobtain]
        exact .inl ⟨rfl, h⟩

theorem leads_obtained {p : Option ℕ → SlaveProg α} (hnone : Leads env m o (p none) Q)
    (hsome : ∀ fd, o fd = none → Leads env m (Function.update o fd (some t)) (p (some fd)) Q)
    (r : Option ℕ) :
    Sound (serveSlave env) (fun _ _ => True) (Obtained m o t r) (p r) Q := by
  constructor
  · intro s hs
    obtain ⟨rfl, hat⟩ | ⟨fd, rfl, hfree, hat⟩ := hs
    · exact hnone.along s hat
    · exact (hsome fd hfree).along s hat
  · intro s hs
    obtain ⟨rfl, hat⟩ | ⟨fd, rfl, hfree, hat⟩ := hs
    · exact hnone.ends s hat
    · exact (hsome fd hfree).ends s hat

theorem leads_socket {f : Option ℕ → SlaveProg α} (hnone : Leads env m o (f none) Q)
    (hsome : ∀ fd, o fd = none → Leads env m (Function.update o fd (some t)) (f (some fd)) Q) :
    Leads env m o (slaveCall (.socket t) >>= f) Q :=
  Sound.bind (Q := Obtained m o t) (Sound.op (fun _ _ => trivial) fun _ hs => hs.obtain t _)
    (leads_obtained hnone hsome)

theorem leads_accept {fd : Option ℕ} {f : Option ℕ → SlaveProg α}
    (hnone : Leads env m o (f none) Q)
    (hsome : ∀ fd, o fd = none → Leads env m (Function.update o fd (some t)) (f (some fd)) Q) :
    Leads env m o (slaveCall (.accept t fd) >>= f) Q :=
  Sound.bind (Q := Obtained m o t) (Sound.op (fun _ _ => trivial) fun _ hs => hs.obtain t _)
    (leads_obtained hnone hsome)

end Leads

namespace SlaveServices

variable {env : SlaveEnv} {m : ℤ → Option (Option ℕ)} {o : ℕ → Option ℤ} {t : ℤ}
  {sock : Option ℕ}

/-- `ResetDataConnection` closes the socket of the transaction. -/
theorem leads_reset (h : m t = some sock) : Leads env m o (resetDataConnection t)
    fun _ => SlaveState.At (Function.update m t (some none)) (closeIn o sock) := by
  refine leads_dataSock h ?_
  cases sock with
  | none =>
      refine Leads.done fun s hs => ?_
      rw [← h, Function.update_eq_self]
      exact hs
  | some fd =>
      refine leads_dataSock h (leads_assign ?_)
      exact (leads_close (Leads.done (a := ()) fun s hs => hs))

/-! ### The transfers -/

theorem leads_retrieveLoop (h : m t = some sock) (uiBufferSize rounds : ℕ) (len : ℤ) :
    Leads env m o (retrieveLoop t uiBufferSize rounds len) fun _ => SlaveState.At m o := by
  induction rounds generalizing len with
  | zero => exact Sound.stop
  | succ rounds ih =>
      have hdone : ∀ len, Leads env m o (.ret len : SlaveProg ℤ) fun _ => SlaveState.At m o :=
        fun len => Leads.done fun s hs => hs
      refine leads_dataSock h ?_
      cases sock with
      | none => exact hdone len
      | some fd =>
          refine leads_call (fun _ => rfl) fun BlockSize => ?_
          split_ifs
          · refine leads_dataSock h (leads_call (fun _ => rfl) fun len => ?_)
            split_ifs
            · exact hdone len
            · exact ih len
          · exact hdone len

theorem leads_storeLoop (h : m t = some sock) (uiBufferSize rounds filled : ℕ) (len : ℤ) :
    Leads env m o (storeLoop t uiBufferSize rounds filled len) fun _ => SlaveState.At m o := by
  induction rounds generalizing filled len with
  | zero => exact Sound.stop
  | succ rounds ih =>
      have hdone : ∀ len, Leads env m o (.ret len : SlaveProg ℤ) fun _ => SlaveState.At m o :=
        fun len => Leads.done fun s hs => hs
      refine leads_dataSock h ?_
      cases sock with
      | none => exact hdone len
      | some fd =>
          refine leads_dataSock h (leads_call (fun _ => rfl) fun _ => ?_)
          refine leads_dataSock h (leads_call (fun _ => rfl) fun ready => ?_)
          cases ready with
          | false => exact hdone (-1)
          | true =>
              refine leads_dataSock h (leads_call (fun _ => rfl) fun len => ?_)
              split_ifs
              · refine leads_call (fun _ => rfl) fun ok => ?_
                cases ok with
                | true => exact ih 0 len
                | false => exact hdone (-1)
              · exact ih _ len
              · exact leads_call (fun _ => rfl) fun _ => hdone len
              · exact hdone len

theorem leads_withFile {transfer : SlaveProg ℤ} (hFile : Bool) (restart_at : ℤ)
    (h : Leads env m o transfer fun _ => SlaveState.At m o) :
    Leads env m o (withFile hFile restart_at transfer) fun _ => SlaveState.At m o := by
  have hdone : ∀ len, Leads env m o (.ret len : SlaveProg ℤ) fun _ => SlaveState.At m o :=
    fun len => Leads.done fun s hs => hs
  cases hFile with
  | false => exact hdone 0
  | true =>
      have hoffset : Leads env m o (atOffset restart_at transfer) fun _ => SlaveState.At m o := by
        unfold atOffset
        split_ifs
        · exact h
        · refine leads_call (fun _ => rfl) fun ok => ?_
          cases ok with
          | true => exact h
          | false => exact hdone 0
        · exact hdone 0
      exact Sound.bind hoffset fun len => leads_call (fun _ => rfl) fun _ => hdone len

/-- `Retrieve` ends with the socket of the transaction closed. -/
theorem leads_retrieve (h : m t = some sock) (rounds uiBufferSize : ℕ) (fid restart_at : ℤ) :
    Leads env m o (retrieve rounds uiBufferSize fid restart_at t)
      fun _ => SlaveState.At (Function.update m t (some none)) (closeIn o sock) := by
  refine leads_call (fun _ => rfl) fun hFile => ?_
  refine Sound.bind (leads_withFile hFile restart_at (leads_retrieveLoop h _ _ _)) fun len => ?_
  refine Sound.bind (leads_reset h) fun _ => ?_
  split_ifs
  · exact Leads.done fun s hs => hs
  · exact Leads.done fun s hs => hs

/-- And so does `Store`. -/
theorem leads_store (h : m t = some sock) (rounds uiBufferSize : ℕ) (fid restart_at : ℤ)
    (iflags : OpenFlag) : Leads env m o (store rounds uiBufferSize fid restart_at iflags t)
      fun _ => SlaveState.At (Function.update m t (some none)) (closeIn o sock) := by
  refine leads_call (fun _ => rfl) fun hFile => ?_
  refine Sound.bind (leads_withFile hFile restart_at (leads_storeLoop h _ _ _ _)) fun len => ?_
  refine Sound.bind (leads_reset h) fun _ => ?_
  exact leads_call (fun _ => rfl) fun st => Leads.done fun s hs => hs

/-! ### The connections -/

/-- The transaction has a new socket. -/
def Opened (m : ℤ → Option (Option ℕ)) (o : ℕ → Option ℤ) (t : ℤ) (s : SlaveState) : Prop :=
  ∃ fd, o fd = none ∧
    SlaveState.At (Function.update m t (some (some fd))) (Function.update o fd (some t)) s

theorem leads_bindLoop (h : m t = some sock) (ip usStart usLen usFirstTry fuel usTriedPort : ℕ) :
    Leads env m o (bindLoop t ip usStart usLen usFirstTry fuel usTriedPort)
      fun _ => SlaveState.At m o := by
  induction fuel generalizing usTriedPort with
  | zero => exact Sound.stop
  | succ fuel ih =>
      rw [bindLoop]
      refine leads_dataSock h (leads_call (fun _ => rfl) fun bound => ?_)
      split
      · exact Leads.done fun s hs => hs
      · dsimp only
        generalize (if (usTriedPort + 65535) % 65536 < usFirstTry then (usStart + usLen) % 65536
          else (usTriedPort + 65535) % 65536) = next
        split_ifs
        · exact Leads.done fun s hs => hs
        · exact ih next

/-- `InitPasvDataConnection` gives the transaction a new socket, or answers nothing and leaves it
without one. -/
theorem leads_init (p : PasvParams) (ip startPort portLen : ℕ) :
    Leads env m o (initPasvDataConnection p ip startPort portLen) fun r s =>
      Opened m o p.trans_id s ∨
      r = .empty ∧ SlaveState.At (Function.update m p.trans_id (some none)) o s := by
  refine leads_socket (t := p.trans_id) ?_ fun fd hfree => ?_
  · refine leads_assign (leads_dataSock (Function.update_self _ _ _) ?_)
    exact Leads.done fun s hs => .inr ⟨rfl, hs⟩
  · refine leads_assign (leads_dataSock (Function.update_self _ _ _) ?_)
    have hentry := Function.update_self (β := fun _ => Option (Option ℕ)) p.trans_id
      (some (some fd)) m
    have hdone : ∀ r : Reply, Leads env (Function.update m p.trans_id (some (some fd)))
        (Function.update o fd (some p.trans_id)) (.ret r : SlaveProg Reply) fun r s =>
        Opened m o p.trans_id s ∨
        r = .empty ∧ SlaveState.At (Function.update m p.trans_id (some none)) o s :=
      fun r => Leads.done fun s hs => .inl ⟨fd, hfree, hs⟩
    refine leads_dataSock hentry (leads_call (fun _ => rfl) fun ok => ?_)
    cases ok with
    | false => exact hdone _
    | true =>
        refine leads_call (fun _ => rfl) fun r => ?_
        show Leads env _ _ (if portLen % 65536 = 0 then .stop .undefinedBehaviour else _) _
        split_ifs
        · exact Sound.stop
        · refine Sound.bind (leads_bindLoop hentry _ _ _ _ _ _) fun server_port => ?_
          unfold listenOn
          split_ifs
          · exact hdone _
          · refine leads_dataSock hentry (leads_call (fun _ => rfl) fun listening => ?_)
            cases listening with
            | true => exact hdone _
            | false => exact hdone _

/-- `OpenPasvDataConnection` leaves the listening socket where it is, or puts that of the client in
its place; or it answers 425 and the transaction has none any more. -/
theorem leads_open (p : PasvParams) {fd : ℕ} (h : m p.trans_id = some (some fd)) :
    Leads env m o (openPasvDataConnection p) fun r s =>
      r.code ≠ some 425 ∧ SlaveState.At m o s ∨
      r.code ≠ some 425 ∧ (∃ fd', o fd' = none ∧
        SlaveState.At (Function.update m p.trans_id (some (some fd')))
          (closeIn (Function.update o fd' (some p.trans_id)) (some fd)) s) ∨
      r.code = some 425 ∧
        SlaveState.At (Function.update m p.trans_id (some none)) (closeIn o (some fd)) s := by
  refine leads_dataSock h (leads_call (fun _ => rfl) fun _ => ?_)
  refine leads_dataSock h (leads_call (fun _ => rfl) fun ready => ?_)
  cases ready with
  | false => exact Leads.done fun s hs => .inl ⟨by decide, hs⟩
  | true =>
      refine leads_dataSock h (leads_accept (t := p.trans_id) ?_ fun fd' hfree => ?_)
      · refine leads_dataSock h (leads_close (leads_assign ?_))
        refine Sound.bind (leads_reset (Function.update_self _ _ _)) fun _ => ?_
        refine Leads.done fun s hs => .inr (.inr ⟨by decide, ?_⟩)
        rw [Function.update_idem] at hs
        exact hs
      · refine leads_dataSock h (leads_close (leads_assign ?_))
        exact Leads.done fun s hs => .inr (.inl ⟨by decide, fd', hfree, hs⟩)

theorem leads_connectActive (p : ActiveParams) (server_ip : ℕ) {fd : ℕ}
    (h : m p.trans_id = some (some fd)) :
    Leads env m o (connectActive p server_ip) fun _ => SlaveState.At m o := by
  have hdone : ∀ b, Leads env m o (.ret b : SlaveProg Bool) fun _ => SlaveState.At m o :=
    fun b => Leads.done fun s hs => hs
  refine leads_dataSock h (leads_dataSock h (leads_call (fun _ => rfl) fun ok => ?_))
  cases ok with
  | false => exact hdone false
  | true =>
      refine leads_dataSock h (leads_call (fun _ => rfl) fun _ => ?_)
      refine leads_dataSock h (leads_call (fun _ => rfl) fun bound => ?_)
      cases bound with
      | false => exact hdone false
      | true =>
          refine leads_dataSock h ?_
          exact leads_call (f := Prog.ret) (fun _ => rfl) fun connected => hdone connected

/-- `OpenActiveDataConnection` gives the transaction a new socket, or leaves it without one. -/
theorem leads_openActive (p : ActiveParams) (server_ip : ℕ) :
    Leads env m o (openActiveDataConnection p server_ip) fun opened s =>
      opened = true ∧ Opened m o p.trans_id s ∨
      opened = false ∧ SlaveState.At (Function.update m p.trans_id (some none)) o s := by
  refine leads_socket (t := p.trans_id) ?_ fun fd hfree => ?_
  · refine leads_assign ?_
    have hrefused : Leads env (Function.update m p.trans_id (some none)) o
        (connectActive p server_ip) fun opened s => opened = false ∧
          SlaveState.At (Function.update m p.trans_id (some none)) o s :=
      leads_dataSock (Function.update_self _ _ _) (Leads.done fun s hs => ⟨rfl, hs⟩)
    refine Sound.bind_inv hrefused fun opened hopened => ?_
    rw [hopened]
    refine Sound.bind (leads_reset (Function.update_self _ _ _)) fun _ => ?_
    refine Leads.done fun s hs => .inr ⟨rfl, ?_⟩
    rw [Function.update_idem] at hs
    exact hs
  · refine leads_assign ?_
    have hentry := Function.update_self (β := fun _ => Option (Option ℕ)) p.trans_id
      (some (some fd)) m
    refine Sound.bind (leads_connectActive p server_ip hentry) fun opened => ?_
    cases opened with
    | true => exact Leads.done fun s hs => .inl ⟨rfl, fd, hfree, hs⟩
    | false =>
        refine Sound.bind (leads_reset hentry) fun _ => Leads.done fun s hs => .inr ⟨rfl, ?_⟩
        -- the descriptor is as free as it was
        have hclosed : Function.update (Function.update o fd (some p.trans_id)) fd none = o := by
          rw [Function.update_idem, ← hfree, Function.update_eq_self]
        rw [Function.update_idem] at hs
        exact ⟨hs.1, hs.2.trans hclosed⟩

/-- A transfer over a new connection leaves the descriptors as they were. -/
theorem leads_active {α : Type} (p : ActiveParams) (server_ip : ℕ) {transfer refusal : SlaveProg α}
    (htransfer : ∀ {m o sock}, m p.trans_id = some sock → Leads env m o transfer
      fun _ => SlaveState.At (Function.update m p.trans_id (some none)) (closeIn o sock))
    (hrefusal : ∀ {m o}, Leads env m o refusal fun _ => SlaveState.At m o) :
    Leads env m o (openActiveDataConnection p server_ip >>= fun opened =>
      if opened = true then transfer else refusal)
      fun _ => SlaveState.At (Function.update m p.trans_id (some none)) o := by
  refine Sound.bind (leads_openActive p server_ip) fun opened => ?_
  cases opened with
  | true =>
      have hrest : ∀ fd, o fd = none →
          Leads env (Function.update m p.trans_id (some (some fd)))
            (Function.update o fd (some p.trans_id)) transfer
            fun _ => SlaveState.At (Function.update m p.trans_id (some none)) o := by
        intro fd hfree
        have hclosed : Function.update (Function.update o fd (some p.trans_id)) fd none = o := by
          rw [Function.update_idem, ← hfree, Function.update_eq_self]
        have hend := htransfer (m := Function.update m p.trans_id (some (some fd)))
          (o := Function.update o fd (some p.trans_id)) (Function.update_self _ _ _)
        rw [Function.update_idem, show closeIn _ (some fd) = o from hclosed] at hend
        exact hend
      constructor
      · intro s hs
        obtain ⟨-, fd, hfree, hat⟩ | ⟨hno, -⟩ := hs
        · exact (hrest fd hfree).along s hat
        · exact absurd hno (by decide)
      · intro s hs
        obtain ⟨-, fd, hfree, hat⟩ | ⟨hno, -⟩ := hs
        · exact (hrest fd hfree).ends s hat
        · exact absurd hno (by decide)
  | false =>
      refine (hrefusal (m := Function.update m p.trans_id (some none)) (o := o)).imp ?_
        fun _ _ hs => hs
      intro s hs
      exact (hs.resolve_left fun h => absurd h.1 (by decide)).2

end SlaveServices

/-! ### One call -/

/-- The RPC makes a new socket, whether the transaction has one or not. -/
def SlaveRpc.renews : SlaveRpc → Bool
  | .initPasvDataConnection _ _ _ _ | .activeStoreTransfer _ _ _ | .activeRetrieveTransfer _ _ =>
      true
  | _ => false

/-- What a call does to the map and the open descriptors: the transaction gets a socket that was not
open, keeps the one it has, or has none; the one it had is closed, unless the call only puts another
in its place. -/
structure Moves (renews : Bool) (t : ℤ) (s s' : SlaveState) : Prop where
  others : ∀ u ≠ t, s'.mDataSock u = s.mDataSock u
  own : ∀ fd, s'.mDataSock t = some (some fd) → s'.owner fd = some t ∧
    (s.owner fd = none ∨ renews = false ∧ s.mDataSock t = some (some fd))
  old : ∀ fd, s.mDataSock t = some (some fd) → s'.mDataSock t ≠ some (some fd) →
    s'.owner fd = if renews then some t else none
  kept : ∀ fd, s.mDataSock t ≠ some (some fd) → s'.mDataSock t ≠ some (some fd) →
    s'.owner fd = s.owner fd

section Moves

variable {s s' : SlaveState} {t : ℤ}

theorem Moves.same (hinv : SlaveInv s) (h : SlaveState.At s.mDataSock s.owner s') :
    Moves false t s s' := by
  refine ⟨fun u _ => by rw [h.1], ?_, ?_, fun fd _ _ => by rw [h.2]⟩
  · intro fd hentry
    rw [h.1] at hentry
    rw [h.2]
    exact ⟨hinv.owned t fd hentry, .inr ⟨rfl, hentry⟩⟩
  · intro fd hentry hgone
    rw [h.1] at hgone
    exact absurd hentry hgone

theorem entry_other {m : ℤ → Option (Option ℕ)} {sock : Option (Option ℕ)} {u : ℤ} (h : u ≠ t) :
    Function.update m t sock u = m u := Function.update_of_ne h _ _

theorem Moves.opened (hinv : SlaveInv s)
    (h : SlaveServices.Opened s.mDataSock s.owner t s') : Moves true t s s' := by
  obtain ⟨fd, hfree, hmap, howner⟩ := h
  have hentry : s'.mDataSock t = some (some fd) := by rw [hmap, Function.update_self]
  have hother : ∀ fd', s'.mDataSock t ≠ some (some fd') → s'.owner fd' = s.owner fd' := by
    intro fd' hne
    rw [howner]
    refine Function.update_of_ne ?_ _ _
    intro heq
    rw [heq] at hne
    exact hne hentry
  refine ⟨fun u hu => by rw [hmap, entry_other hu], ?_, ?_, fun fd' _ hne => hother fd' hne⟩
  · intro fd' hfd
    rw [hentry, Option.some.injEq, Option.some.injEq] at hfd
    rw [← hfd, howner, Function.update_self]
    exact ⟨rfl, .inl hfree⟩
  · intro fd' hold hne
    rw [hother fd' hne]
    exact hinv.owned t fd' hold

theorem Moves.lost (hinv : SlaveInv s)
    (h : SlaveState.At (Function.update s.mDataSock t (some none)) s.owner s') :
    Moves true t s s' := by
  have hentry : s'.mDataSock t = some none := by rw [h.1, Function.update_self]
  refine ⟨fun u hu => by rw [h.1, entry_other hu], ?_, ?_, fun fd _ _ => by rw [h.2]⟩
  · intro fd hfd
    rw [hentry] at hfd
    exact absurd hfd (by simp)
  · intro fd hold _
    rw [h.2]
    exact hinv.owned t fd hold

theorem closeIn_other {o : ℕ → Option ℤ} {sock : Option ℕ} {fd : ℕ} (h : sock ≠ some fd) :
    closeIn o sock fd = o fd := by
  cases sock with
  | none => rfl
  | some fd' =>
      refine Function.update_of_ne ?_ _ _
      intro heq
      rw [heq] at h
      exact h rfl

theorem Moves.closed {sock : Option ℕ} (hsock : s.mDataSock t = some sock)
    (h : SlaveState.At (Function.update s.mDataSock t (some none)) (closeIn s.owner sock) s') :
    Moves false t s s' := by
  have hentry : s'.mDataSock t = some none := by rw [h.1, Function.update_self]
  refine ⟨fun u hu => by rw [h.1, entry_other hu], ?_, ?_, ?_⟩
  · intro fd hfd
    rw [hentry] at hfd
    exact absurd hfd (by simp)
  · intro fd hold _
    rw [hsock, Option.some.injEq] at hold
    rw [h.2, hold]
    exact Function.update_self _ _ _
  · intro fd hold _
    rw [h.2]
    refine closeIn_other ?_
    intro heq
    rw [heq] at hsock
    exact hold hsock

theorem Moves.swapped {fd fd' : ℕ} (hinv : SlaveInv s) (hold : s.mDataSock t = some (some fd))
    (hfree : s.owner fd' = none)
    (h : SlaveState.At (Function.update s.mDataSock t (some (some fd')))
      (closeIn (Function.update s.owner fd' (some t)) (some fd)) s') : Moves false t s s' := by
  have hentry : s'.mDataSock t = some (some fd') := by rw [h.1, Function.update_self]
  have hne : fd' ≠ fd := by
    intro heq
    rw [heq, hinv.owned t fd hold] at hfree
    exact absurd hfree (by simp)
  refine ⟨fun u hu => by rw [h.1, entry_other hu], ?_, ?_, ?_⟩
  · intro n hn
    rw [hentry, Option.some.injEq, Option.some.injEq] at hn
    rw [← hn, h.2]
    refine ⟨?_, .inl hfree⟩
    show Function.update (Function.update s.owner fd' (some t)) fd none fd' = _
    rw [Function.update_of_ne hne, Function.update_self]
  · intro n hn _
    rw [hold, Option.some.injEq, Option.some.injEq] at hn
    rw [h.2, ← hn]
    exact Function.update_self _ _ _
  · intro n hn hn'
    have hfd : n ≠ fd := by
      intro heq
      rw [heq] at hn
      exact hn hold
    have hfd' : n ≠ fd' := by
      intro heq
      rw [heq] at hn'
      exact hn' hentry
    rw [h.2]
    show Function.update (Function.update s.owner fd' (some t)) fd none n = _
    rw [Function.update_of_ne hfd, Function.update_of_ne hfd']

end Moves

/-- The reply tells that the transaction has a socket. -/
def SlaveRpc.Connected (r : Reply) : SlaveRpc → Prop
  | .initPasvDataConnection _ _ _ _ => r ≠ .empty
  | .openPasvDataConnection _ => r.code ≠ some 425
  | _ => False

/-- An `InitPasvDataConnection` without a reply; it may have a socket all the same, on which
`setsockopt` has failed. -/
def SlaveRpc.Unanswered (r : Reply) : SlaveRpc → Prop
  | .initPasvDataConnection _ _ _ _ => r = .empty
  | _ => False

/-- What a call does, and what its reply tells of it. -/
structure SlaveRpc.Effect (rpc : SlaveRpc) (r : Reply) (s s' : SlaveState) : Prop where
  moves : Moves rpc.renews rpc.trans_id s s'
  opens : rpc.Connected r → s'.IsOpen rpc.trans_id
  open_of : s'.IsOpen rpc.trans_id → rpc.Connected r ∨ rpc.Unanswered r

section Effect

variable {env : SlaveEnv} {rounds : ℕ} {rpc : SlaveRpc} {r : Reply} {s s' : SlaveState} {t : ℤ}

theorem not_open {m : ℤ → Option (Option ℕ)} {o : ℕ → Option ℤ}
    (h : SlaveState.At (Function.update m t (some none)) o s) : ¬ s.IsOpen t := by
  intro hopen
  obtain ⟨fd, hfd⟩ := hopen
  rw [h.1, Function.update_self] at hfd
  exact absurd hfd (by simp)

theorem run_leads {α : Type} {p : SlaveProg α} {Q : α → SlaveState → Prop} {a : α}
    (h : Leads env s.mDataSock s.owner p Q) (hrun : run (serveSlave env) p s = .done a s') :
    Q a s' := h.ends s ⟨rfl, rfl⟩ a s' hrun

theorem leads_storeMsg {m : ℤ → Option (Option ℕ)} {o : ℕ → Option ℤ} {p : SlaveProg StorRetVal}
    {Q : SlaveState → Prop} (h : Leads env m o p fun _ => Q) :
    Leads env m o (storeMsg p) fun _ => Q :=
  h.bind fun _ => Sound.ret fun _ hs => hs

/-- **The effect of a call.** -/
theorem SlaveRpc.effect (hinv : SlaveInv s) (hready : rpc.Ready s)
    (hrun : run (serveSlave env) (rpc.body rounds) s = .done r s') : rpc.Effect r s s' := by
  cases rpc with
  | initPasvDataConnection p ip startPort portLen =>
      obtain hopened | ⟨hempty, hlost⟩ :=
        run_leads (SlaveServices.leads_init p ip startPort portLen) hrun
      · have hopen : s'.IsOpen p.trans_id := by
          obtain ⟨fd, -, hmap, -⟩ := hopened
          exact ⟨fd, by rw [hmap, Function.update_self]⟩
        refine ⟨.opened hinv hopened, fun _ => hopen, fun _ => ?_⟩
        by_cases hempty : r = .empty
        · exact .inr hempty
        · exact .inl hempty
      · exact ⟨.lost hinv hlost, fun hne => absurd hempty hne, fun _ => .inr hempty⟩
  | openPasvDataConnection p =>
      obtain ⟨fd, hfd⟩ := hready
      obtain ⟨hcode, hat⟩ | ⟨hcode, fd', hfree, hat⟩ | ⟨hcode, hat⟩ :=
        run_leads (SlaveServices.leads_open p hfd) hrun
      · have hopen : s'.IsOpen p.trans_id := ⟨fd, by rw [hat.1, hfd]⟩
        exact ⟨.same hinv hat, fun _ => hopen, fun _ => .inl hcode⟩
      · have hopen : s'.IsOpen p.trans_id := ⟨fd', by rw [hat.1, Function.update_self]⟩
        exact ⟨.swapped hinv hfd hfree hat, fun _ => hopen, fun _ => .inl hcode⟩
      · refine ⟨.closed hfd hat, fun hne => absurd hcode hne, ?_⟩
        exact fun hopen => absurd hopen (not_open hat)
  | activeStoreTransfer p ip iflags =>
      have hlost := run_leads (leads_storeMsg (SlaveServices.leads_active p ip
        (fun h => SlaveServices.leads_store h rounds p.transfer_buffer_size p.fid p.restart_at
          iflags) (Sound.ret fun _ hs => hs))) hrun
      exact ⟨.lost hinv hlost, fun h => h.elim, fun hopen => absurd hopen (not_open hlost)⟩
  | pasvStoreTransfer p iflags =>
      obtain ⟨sock, hsock⟩ := Option.ne_none_iff_exists'.mp hready
      have hclosed := run_leads (leads_storeMsg (SlaveServices.leads_store hsock rounds
        p.transfer_buffer_size p.fid p.restart_at iflags)) hrun
      exact ⟨.closed hsock hclosed, fun h => h.elim, fun hopen => absurd hopen (not_open hclosed)⟩
  | activeRetrieveTransfer p ip =>
      have hlost := run_leads (SlaveServices.leads_active p ip
        (fun h => SlaveServices.leads_retrieve h rounds p.transfer_buffer_size p.fid p.restart_at)
        (Sound.ret fun _ hs => hs)) hrun
      exact ⟨.lost hinv hlost, fun h => h.elim, fun hopen => absurd hopen (not_open hlost)⟩
  | pasvRetrieveTransfer p =>
      obtain ⟨sock, hsock⟩ := Option.ne_none_iff_exists'.mp hready
      have hclosed := run_leads (SlaveServices.leads_retrieve hsock rounds p.transfer_buffer_size
        p.fid p.restart_at) hrun
      exact ⟨.closed hsock hclosed, fun h => h.elim, fun hopen => absurd hopen (not_open hclosed)⟩

end Effect

/-! ### The calls that a slave has answered -/

/-- A call with its reply, and the state it has come in. -/
structure Answered where
  before : SlaveState
  rpc : SlaveRpc
  reply : Reply

/-- The calls that a slave has answered, the last one first; each finds its transaction as the
handler takes it to be. -/
inductive SlaveHistory : List Answered → SlaveState → Prop where
  | start : SlaveHistory [] {}
  | call {calls : List Answered} {s s' : SlaveState} {r : Reply} (env : SlaveEnv) (rounds : ℕ)
      (rpc : SlaveRpc) : SlaveHistory calls s → rpc.Ready s →
      run (serveSlave env) (rpc.body rounds) s = .done r s' →
      SlaveHistory (⟨s, rpc, r⟩ :: calls) s'

variable {calls : List Answered} {s s' : SlaveState} {t : ℤ}

theorem SlaveHistory.inv (h : SlaveHistory calls s) : SlaveInv s := by
  induction h with
  | start =>
      exact ⟨fun u fd hentry => absurd hentry (by simp), fun u fd howner => absurd howner (by simp)⟩
  | call env rounds rpc _ hready hrun ih =>
      exact ((rpc.handles rounds).ends _ ⟨ih, hready⟩ _ _ hrun).inv

/-- An open descriptor that is not in the map: no call finds it any more. -/
def SlaveState.Leaked (s : SlaveState) (fd : ℕ) : Prop :=
  ∃ t, s.owner fd = some t ∧ s.mDataSock t ≠ some (some fd)

/-- The transaction has a socket. -/
def SlaveState.hasSocket (s : SlaveState) (t : ℤ) : Bool :=
  match s.mDataSock t with
  | some (some _) => true
  | _ => false

theorem hasSocket_iff : s.hasSocket t = true ↔ s.IsOpen t := by
  unfold SlaveState.hasSocket SlaveState.IsOpen
  cases s.mDataSock t with
  | none => simp
  | some sock => cases sock <;> simp

/-- A call that makes a socket for a transaction that has one. -/
def Answered.leaks (c : Answered) : Bool := c.rpc.renews && c.before.hasSocket c.rpc.trans_id

/-- What a call leaks. -/
theorem Moves.leaked_iff {renews : Bool} (h : Moves renews t s s') (hinv : SlaveInv s) (fd : ℕ) :
    s'.Leaked fd ↔ s.Leaked fd ∨ renews = true ∧ s.mDataSock t = some (some fd) := by
  have hmapped : ∀ {s : SlaveState}, s.mDataSock t = some (some fd) → s.owner fd = some t →
      ¬ s.Leaked fd := by
    intro s hentry howner hleaked
    obtain ⟨u, hu, hne⟩ := hleaked
    rw [howner, Option.some.injEq] at hu
    rw [← hu] at hne
    exact hne hentry
  by_cases hold : s.mDataSock t = some (some fd)
  · have howner := hinv.owned t fd hold
    have hno := hmapped hold howner
    by_cases hnew : s'.mDataSock t = some (some fd)
    · obtain ⟨hown, hcase⟩ := h.own fd hnew
      have hrenews : renews = false := by
        obtain hfree | hkept := hcase
        · rw [howner] at hfree
          exact absurd hfree (by simp)
        · exact hkept.1
      exact iff_of_false (hmapped hnew hown) (by simp [hno, hrenews])
    · have hlost := h.old fd hold hnew
      cases renews with
      | true => exact iff_of_true ⟨t, hlost, hnew⟩ (.inr ⟨rfl, hold⟩)
      | false =>
          refine iff_of_false ?_ (by simp [hno])
          intro hleaked
          obtain ⟨u, hu, -⟩ := hleaked
          rw [hlost] at hu
          exact absurd hu (by simp)
  · have hrest : (s.Leaked fd ∨ renews = true ∧ s.mDataSock t = some (some fd)) ↔ s.Leaked fd := by
      simp [hold]
    rw [hrest]
    by_cases hnew : s'.mDataSock t = some (some fd)
    · obtain ⟨hown, hcase⟩ := h.own fd hnew
      have hfree : s.owner fd = none := hcase.resolve_right fun hkept => hold hkept.2
      refine iff_of_false (hmapped hnew hown) ?_
      intro hleaked
      obtain ⟨u, hu, -⟩ := hleaked
      rw [hfree] at hu
      exact absurd hu (by simp)
    · have hentry : ∀ u, s'.mDataSock u ≠ some (some fd) ↔ s.mDataSock u ≠ some (some fd) := by
        intro u
        by_cases hu : u = t
        · rw [hu]
          exact iff_of_true hnew hold
        · rw [h.others u hu]
      unfold SlaveState.Leaked
      rw [h.kept fd hold hnew]
      exact exists_congr fun u => and_congr_right fun _ => hentry u

/-- **Leaked descriptors**: a slave has exactly one open descriptor outside its map for each call
that has made a new socket for a transaction with a socket, and none of them is ever closed. -/
theorem descriptors_leaked (h : SlaveHistory calls s) :
    ∃ leaked : Finset ℕ, (∀ fd, fd ∈ leaked ↔ s.Leaked fd) ∧
      leaked.card = calls.countP Answered.leaks ∧
      ∀ c ∈ calls, ∀ fd, c.before.Leaked fd → fd ∈ leaked := by
  induction h with
  | start => exact ⟨∅, by simp [SlaveState.Leaked], rfl, by simp⟩
  | @call calls s s' r env rounds rpc h hready hrun ih =>
      obtain ⟨leaked, hmem, hcard, hstay⟩ := ih
      have hinv := h.inv
      have hmoves := (SlaveRpc.effect hinv hready hrun).moves
      have hiff := hmoves.leaked_iff hinv
      by_cases hleaks : Answered.leaks ⟨s, rpc, r⟩ = true
      · have hboth : rpc.renews = true ∧ s.hasSocket rpc.trans_id = true := by
          rwa [Answered.leaks, Bool.and_eq_true] at hleaks
        obtain ⟨fd, hfd⟩ := hasSocket_iff.mp hboth.2
        have hnew : fd ∉ leaked := by
          intro hin
          obtain ⟨u, hu, hne⟩ := (hmem fd).mp hin
          rw [hinv.owned _ fd hfd, Option.some.injEq] at hu
          rw [← hu] at hne
          exact hne hfd
        refine ⟨insert fd leaked, ?_, ?_, ?_⟩
        · intro n
          rw [Finset.mem_insert, hiff n, hmem n, hfd, Option.some.injEq, Option.some.injEq]
          constructor
          · intro hn
            obtain hn | hn := hn
            · exact .inr ⟨hboth.1, hn.symm⟩
            · exact .inl hn
          · intro hn
            obtain hn | hn := hn
            · exact .inr hn
            · exact .inl hn.2.symm
        · rw [Finset.card_insert_of_notMem hnew, List.countP_cons_of_pos hleaks, hcard]
        · intro c hc n hn
          rw [Finset.mem_insert]
          obtain rfl | hc := List.mem_cons.mp hc
          · exact .inr ((hmem n).mpr hn)
          · exact .inr (hstay c hc n hn)
      · have hnone : ∀ fd, ¬ (rpc.renews = true ∧ s.mDataSock rpc.trans_id = some (some fd)) := by
          intro fd hfd
          have hsocket : s.hasSocket rpc.trans_id = true := hasSocket_iff.mpr ⟨fd, hfd.2⟩
          have hboth : Answered.leaks ⟨s, rpc, r⟩ = true := by
            rw [Answered.leaks, Bool.and_eq_true]
            exact ⟨hfd.1, hsocket⟩
          exact hleaks hboth
        refine ⟨leaked, ?_, ?_, ?_⟩
        · intro n
          rw [hiff n, hmem n]
          simp [hnone n]
        · rw [List.countP_cons_of_neg hleaks, hcard]
        · intro c hc n hn
          obtain rfl | hc := List.mem_cons.mp hc
          · exact (hmem n).mpr hn
          · exact hstay c hc n hn

/-- **A transaction with a socket**: the last call of a transaction decides whether it has a socket,
whatever the calls of the other transactions have been.  An `InitPasvDataConnection` without a reply
leaves it open. -/
theorem transaction_open (h : SlaveHistory calls s) (t : ℤ) :
    (calls.find? (fun c => c.rpc.trans_id = t) = none → s.mDataSock t = none) ∧
    ∀ c, calls.find? (fun c => c.rpc.trans_id = t) = some c →
      (c.rpc.Connected c.reply → s.IsOpen t) ∧
      (s.IsOpen t → c.rpc.Connected c.reply ∨ c.rpc.Unanswered c.reply) := by
  induction h with
  | start => exact ⟨fun _ => rfl, fun c hc => absurd hc (by simp)⟩
  | @call calls s s' r env rounds rpc h hready hrun ih =>
      have heffect := SlaveRpc.effect h.inv hready hrun
      by_cases ht : rpc.trans_id = t
      · rw [List.find?_cons_of_pos (by simpa using ht)]
        refine ⟨fun hc => absurd hc (by simp), ?_⟩
        intro c hc
        rw [Option.some.injEq] at hc
        rw [← hc, ← ht]
        exact ⟨heffect.opens, heffect.open_of⟩
      · rw [List.find?_cons_of_neg (by simpa using ht)]
        have hsame := heffect.moves.others t fun heq => ht heq.symm
        unfold SlaveState.IsOpen
        rw [hsame]
        exact ih

/-- Two passive connections for one transaction; the first one is lost. -/
theorem descriptors_leaked_twice : ∃ (s : SlaveState) (leaked : Finset ℕ),
    (∀ fd, fd ∈ leaked ↔ s.Leaked fd) ∧ leaked.card = 1 := by
  have hrun : run (serveSlave .willing)
      ((SlaveRpc.initPasvDataConnection { trans_id := 1 } 0 100 900).body 0) {} =
        .done (passiveReply 0 100) initState := rfl
  have hfirst := SlaveHistory.start.call .willing 0
    (.initPasvDataConnection { trans_id := 1 } 0 100 900) trivial hrun
  have hagain : run (serveSlave .willing)
      ((SlaveRpc.initPasvDataConnection { trans_id := 1 } 0 100 900).body 0) initState =
        .done .empty (initState.tick.assign 1 none) := rfl
  have hsecond := hfirst.call .willing 0
    (.initPasvDataConnection { trans_id := 1 } 0 100 900) trivial hagain
  obtain ⟨leaked, hmem, hcard, -⟩ := descriptors_leaked hsecond
  exact ⟨_, leaked, hmem, hcard⟩

/-- A transaction that waits for its client has a socket. -/
theorem transaction_open_one : initState.IsOpen 1 := by
  have hrun : run (serveSlave .willing)
      ((SlaveRpc.initPasvDataConnection { trans_id := 1 } 0 100 900).body 0) {} =
        .done (passiveReply 0 100) initState := rfl
  have hinit := SlaveHistory.start.call .willing 0
    (.initPasvDataConnection { trans_id := 1 } 0 100 900) trivial hrun
  exact ((transaction_open hinit 1).2 _ rfl).1 (by simp [SlaveRpc.Connected, passiveReply])

end ClusterFtpd
