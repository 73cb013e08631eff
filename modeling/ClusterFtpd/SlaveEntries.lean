import ClusterFtpd.SlaveSockets

/-!
# The entries of the map

What a call to a slave does to `mDataSock`, whatever its transaction is like: it reads and writes
the entry of its own transaction only, and a transfer leaves this transaction without a socket.
-/

namespace ClusterFtpd

open Interaction MachineInt

variable {r : Reply} {t u : ℤ}

/-! ### One entry -/

/-- The operation is about the entry of this transaction, or about no entry. -/
def SlaveOp.Of (t : ℤ) : SlaveOp → Prop
  | .lookup u => u = t
  | .assign u _ => u = t
  | _ => True

namespace SlaveServices

variable {α : Type}

theorem of_call {o : SlaveOp} {f : o.Res → SlaveProg α} (ho : o.Of t)
    (hf : ∀ r, Every (SlaveOp.Of t) (f r)) : Every (SlaveOp.Of t) (slaveCall o >>= f) := ⟨ho, hf⟩

theorem of_dataSock {f : Option ℕ → SlaveProg α} (hf : ∀ r, Every (SlaveOp.Of t) (f r)) :
    Every (SlaveOp.Of t) (dataSock t >>= f) := ⟨rfl, hf⟩

theorem of_if {b : Prop} [Decidable b] {p q : SlaveProg α} (hp : Every (SlaveOp.Of t) p)
    (hq : Every (SlaveOp.Of t) q) : Every (SlaveOp.Of t) (if b then p else q) := by
  rw [every_ite]
  exact ⟨fun _ => hp, fun _ => hq⟩

theorem of_reset : Every (SlaveOp.Of t) (resetDataConnection t) := by
  refine of_dataSock fun sock => of_if ?_ trivial
  exact of_dataSock fun sock => of_call rfl fun _ => of_call trivial fun _ => trivial

theorem of_bindLoop (ip usStart usLen usFirstTry fuel usTriedPort : ℕ) :
    Every (SlaveOp.Of t) (bindLoop t ip usStart usLen usFirstTry fuel usTriedPort) := by
  induction fuel generalizing usTriedPort with
  | zero => trivial
  | succ fuel ih =>
      refine of_dataSock fun sock => of_call trivial fun bound => of_if trivial ?_
      exact of_if trivial (ih _)

theorem of_init (p : PasvParams) (ip startPort portLen : ℕ) :
    Every (SlaveOp.Of p.trans_id) (initPasvDataConnection p ip startPort portLen) := by
  refine of_call trivial fun sock => of_call rfl fun _ => of_dataSock fun sock => of_if ?_ trivial
  refine of_dataSock fun sock => of_call trivial fun ok => of_if ?_ trivial
  refine of_call trivial fun r => of_if trivial ?_
  refine (of_bindLoop _ _ _ _ _ _).bind fun server_port => of_if trivial ?_
  exact of_dataSock fun sock => of_call trivial fun ok => of_if trivial trivial

theorem of_open (p : PasvParams) :
    Every (SlaveOp.Of p.trans_id) (openPasvDataConnection p) := by
  refine of_dataSock fun sock => of_call trivial fun _ => of_dataSock fun sock => ?_
  refine of_call trivial fun ready => of_if ?_ trivial
  refine of_dataSock fun sock => of_call trivial fun sTmpWs => of_dataSock fun sock => ?_
  refine of_call trivial fun _ => of_call rfl fun _ => of_if trivial ?_
  exact of_reset.bind fun _ => trivial

theorem of_withFile {transfer : SlaveProg ℤ} (hFile : Bool) (restart_at : ℤ)
    (h : Every (SlaveOp.Of t) transfer) :
    Every (SlaveOp.Of t) (withFile hFile restart_at transfer) := by
  refine of_if (Every.bind (of_if h (of_if ?_ trivial)) fun len => ?_) trivial
  · exact of_call trivial fun ok => of_if h trivial
  · exact of_call trivial fun _ => trivial

theorem of_retrieveLoop (uiBufferSize rounds : ℕ) (len : ℤ) :
    Every (SlaveOp.Of t) (retrieveLoop t uiBufferSize rounds len) := by
  induction rounds generalizing len with
  | zero => trivial
  | succ rounds ih =>
      refine of_dataSock fun sock => of_if ?_ trivial
      refine of_call trivial fun BlockSize => of_if ?_ trivial
      refine of_dataSock fun sock => of_call trivial fun len => ?_
      exact of_if trivial (ih len)

theorem of_storeLoop (uiBufferSize rounds filled : ℕ) (len : ℤ) :
    Every (SlaveOp.Of t) (storeLoop t uiBufferSize rounds filled len) := by
  induction rounds generalizing filled len with
  | zero => trivial
  | succ rounds ih =>
      refine of_dataSock fun sock => of_if ?_ trivial
      refine of_dataSock fun sock => of_call trivial fun _ => of_dataSock fun sock => ?_
      refine of_call trivial fun ready => of_if ?_ trivial
      refine of_dataSock fun sock => of_call trivial fun len => of_if (of_if ?_ (ih _ len)) ?_
      · exact of_call trivial fun ok => of_if (ih 0 len) trivial
      · exact of_if (of_call trivial fun _ => trivial) trivial

theorem of_retrieve (rounds uiBufferSize : ℕ) (fid restart_at : ℤ) :
    Every (SlaveOp.Of t) (retrieve rounds uiBufferSize fid restart_at t) := by
  refine of_call trivial fun hFile => ?_
  refine (of_withFile hFile restart_at (of_retrieveLoop _ _ _)).bind fun len => ?_
  exact of_reset.bind fun _ => of_if trivial trivial

theorem of_store (rounds uiBufferSize : ℕ) (fid restart_at : ℤ) (iflags : OpenFlag) :
    Every (SlaveOp.Of t) (store rounds uiBufferSize fid restart_at iflags t) := by
  refine of_call trivial fun hFile => ?_
  refine (of_withFile hFile restart_at (of_storeLoop _ _ _ _)).bind fun len => ?_
  exact of_reset.bind fun _ => of_call trivial fun st => trivial

theorem of_openActive (p : ActiveParams) (server_ip : ℕ) :
    Every (SlaveOp.Of p.trans_id) (openActiveDataConnection p server_ip) := by
  refine of_call trivial fun sock => of_call rfl fun _ => Every.bind ?_ fun opened => ?_
  · refine of_dataSock fun sock => of_if ?_ trivial
    refine of_dataSock fun sock => of_call trivial fun ok => of_if ?_ trivial
    refine of_dataSock fun sock => of_call trivial fun _ => of_dataSock fun sock => ?_
    refine of_call trivial fun bound => of_if ?_ trivial
    exact of_dataSock fun sock => ⟨trivial, fun _ => trivial⟩
  · exact of_if trivial (of_reset.bind fun _ => trivial)

end SlaveServices

/-- **A call** is about the entry of its own transaction. -/
theorem SlaveRpc.body_of (rpc : SlaveRpc) (rounds : ℕ) :
    Every (SlaveOp.Of rpc.trans_id) (rpc.body rounds) := by
  cases rpc with
  | initPasvDataConnection p ip startPort portLen =>
      exact SlaveServices.of_init p ip startPort portLen
  | openPasvDataConnection p => exact SlaveServices.of_open p
  | activeStoreTransfer p ip iflags =>
      refine Every.bind ?_ fun _ => trivial
      exact (SlaveServices.of_openActive p ip).bind fun opened =>
        SlaveServices.of_if (SlaveServices.of_store _ _ _ _ _) trivial
  | pasvStoreTransfer p iflags =>
      exact (SlaveServices.of_store _ _ _ _ _).bind fun _ => trivial
  | activeRetrieveTransfer p ip =>
      exact (SlaveServices.of_openActive p ip).bind fun opened =>
        SlaveServices.of_if (SlaveServices.of_retrieve _ _ _ _) trivial
  | pasvRetrieveTransfer p => exact SlaveServices.of_retrieve _ _ _ _

/-- The transaction of the call has an entry of its own. -/
theorem entry_kept {env : SlaveEnv} {rounds : ℕ} {rpc : SlaveRpc} {s s' : SlaveState}
    (hrun : run (serveSlave env) (rpc.body rounds) s = .done r s') (hu : u ≠ rpc.trans_id) :
    s'.mDataSock u = s.mDataSock u := by
  have hstep : ∀ o : SlaveOp, o.Of rpc.trans_id → ∀ s : SlaveState,
      (serveSlave env o s).2.mDataSock u = s.mDataSock u := by
    intro o ho s
    cases o with
    | lookup v =>
        have hv : v = rpc.trans_id := ho
        cases hentry : s.mDataSock v with
        | some sock => simp only [serveSlave, hentry]
        | none =>
            simp only [serveSlave, hentry]
            exact Function.update_of_ne (by rw [hv]; exact hu) _ _
    | assign v sock =>
        have hv : v = rpc.trans_id := ho
        exact Function.update_of_ne (by rw [hv]; exact hu) _ _
    | socket v =>
        show (s.obtain v _).2.mDataSock u = s.mDataSock u
        unfold SlaveState.obtain
        split
        · split_ifs <;> rfl
        · rfl
    | accept v fd =>
        show (s.obtain v _).2.mDataSock u = s.mDataSock u
        unfold SlaveState.obtain
        split
        · split_ifs <;> rfl
        · rfl
    | closeSocket fd => cases fd <;> rfl
    | _ => rfl
  have hkept := (rpc.body_of rounds).run_keeps (serveSlave env) (fun s => s.mDataSock u) hstep s
  rw [hrun] at hkept
  exact hkept

/-! ### Transfers -/

/-- The RPC is a transfer. -/
def SlaveRpc.IsTransfer : SlaveRpc → Prop
  | .initPasvDataConnection _ _ _ _ => False
  | .openPasvDataConnection _ => False
  | _ => True

/-- The program leaves the transaction without a socket. -/
abbrev Closes (env : SlaveEnv) (t : ℤ) {α : Type} (p : SlaveProg α) : Prop :=
  Sound (serveSlave env) (fun _ _ => True) (fun _ => True) p fun _ s => ¬ s.IsOpen t

section Closes

variable {env : SlaveEnv} {α β : Type}

/-- Whatever comes before. -/
theorem Closes.after {p : SlaveProg α} {f : α → SlaveProg β} (hf : ∀ a, Closes env t (f a)) :
    Closes env t (p >>= f) :=
  Sound.bind (Sound.frame (every_true p) fun _ _ _ _ => ⟨trivial, trivial⟩) hf

/-- With a result that is made of its end. -/
theorem Closes.map {p : SlaveProg α} {f : α → β} (hp : Closes env t p) :
    Closes env t (p >>= fun a => .ret (f a)) :=
  Sound.bind hp fun _ => Sound.ret fun _ hs => hs

end Closes

namespace SlaveServices

variable {env : SlaveEnv} {α : Type}

theorem closes_reset : Closes env t (resetDataConnection t) := by
  refine Sound.bind (Q := fun sock s => s.mDataSock t = some sock)
    (Sound.op (fun _ _ => trivial) ?_) ?_
  · intro s _
    cases hentry : s.mDataSock t with
    | some sock =>
        simp only [serveSlave, hentry]
    | none =>
        simp only [serveSlave, hentry]
        exact Function.update_self _ _ _
  · intro sock
    cases sock with
    | none =>
        refine Sound.ret fun s hs hopen => ?_
        obtain ⟨fd, hfd⟩ := hopen
        rw [hs] at hfd
        exact absurd hfd (by simp)
    | some fd =>
        refine Sound.imp (P := fun _ => True) ?_ (fun _ _ => trivial) fun _ _ hs => hs
        refine Closes.after (p := dataSock t) fun tmpSock => ?_
        refine Sound.bind (Q := fun _ s => ¬ s.IsOpen t) (Sound.op (fun _ _ => trivial) ?_) ?_
        · intro s _ hopen
          obtain ⟨fd, hfd⟩ := hopen
          have hnone : (s.assign t none).mDataSock t = some none := Function.update_self _ _ _
          exact absurd (hnone.symm.trans hfd) (by simp)
        · intro _
          refine Sound.op (fun _ _ => trivial) fun s hs hopen => hs ?_
          obtain ⟨fd, hfd⟩ := hopen
          refine ⟨fd, ?_⟩
          cases tmpSock <;> exact hfd

theorem closes_retrieve (rounds uiBufferSize : ℕ) (fid restart_at : ℤ) :
    Closes env t (retrieve rounds uiBufferSize fid restart_at t) := by
  refine Closes.after fun hFile => Closes.after fun len => Sound.bind closes_reset fun _ => ?_
  split_ifs
  · exact Sound.ret fun s hs => hs
  · exact Sound.ret fun s hs => hs

theorem closes_store (rounds uiBufferSize : ℕ) (fid restart_at : ℤ) (iflags : OpenFlag) :
    Closes env t (store rounds uiBufferSize fid restart_at iflags t) := by
  refine Closes.after fun hFile => Closes.after fun len => Sound.bind closes_reset fun _ => ?_
  refine Sound.bind (Q := fun _ s => ¬ s.IsOpen t) (Sound.op (fun _ _ => trivial) ?_) ?_
  · exact fun s hs => hs
  · exact fun st => Sound.ret fun s hs => hs

/-- A transfer over a new connection; without one there is no socket either. -/
theorem closes_active (p : ActiveParams) (server_ip : ℕ) {transfer : SlaveProg α} (refusal : α)
    (htransfer : Closes env p.trans_id transfer) :
    Closes env p.trans_id (openActiveDataConnection p server_ip >>= fun opened =>
      if opened = true then transfer else .ret refusal) := by
  refine Sound.bind (Q := fun opened s => opened = false → ¬ s.IsOpen p.trans_id) ?_ ?_
  · unfold openActiveDataConnection
    refine Sound.bind (Sound.frame (every_true _) fun _ _ _ _ => ⟨trivial, trivial⟩) fun sock => ?_
    refine Sound.bind (Sound.frame (every_true _) fun _ _ _ _ => ⟨trivial, trivial⟩) fun _ => ?_
    refine Sound.bind (Sound.frame (every_true _) fun _ _ _ _ => ⟨trivial, trivial⟩) ?_
    intro opened
    cases opened with
    | true => exact Sound.ret fun s _ hno => absurd hno (by simp)
    | false => exact Sound.bind closes_reset fun _ => Sound.ret fun s hs _ => hs
  · intro opened
    cases opened with
    | true => exact htransfer.imp (fun _ _ => trivial) fun _ _ hs => hs
    | false => exact Sound.ret fun s hs => hs rfl

end SlaveServices

/-- **A transfer** leaves its transaction without a socket. -/
theorem transfer_closes {env : SlaveEnv} {rounds : ℕ} {rpc : SlaveRpc} {s s' : SlaveState}
    (htransfer : rpc.IsTransfer)
    (hrun : run (serveSlave env) (rpc.body rounds) s = .done r s') : ¬ s'.IsOpen rpc.trans_id := by
  cases rpc with
  | initPasvDataConnection p ip startPort portLen => exact htransfer.elim
  | openPasvDataConnection p => exact htransfer.elim
  | activeStoreTransfer p ip iflags =>
      have hstore : Closes env p.trans_id _ :=
        SlaveServices.closes_store rounds p.transfer_buffer_size p.fid p.restart_at iflags
      have hcloses := SlaveServices.closes_active p ip
        ({ msg := .line 425 "Can't open data connection.", size := -1 } : StorRetVal) hstore
      exact (Closes.map hcloses).ends s trivial r s' hrun
  | pasvStoreTransfer p iflags =>
      have hstore : Closes env p.trans_id _ :=
        SlaveServices.closes_store rounds p.transfer_buffer_size p.fid p.restart_at iflags
      exact (Closes.map hstore).ends s trivial r s' hrun
  | activeRetrieveTransfer p ip =>
      have hretrieve : Closes env p.trans_id _ :=
        SlaveServices.closes_retrieve rounds p.transfer_buffer_size p.fid p.restart_at
      have hcloses := SlaveServices.closes_active p ip
        (.line 425 "Can't open data connection.") hretrieve
      exact hcloses.ends s trivial r s' hrun
  | pasvRetrieveTransfer p =>
      have hretrieve : Closes env p.trans_id _ :=
        SlaveServices.closes_retrieve rounds p.transfer_buffer_size p.fid p.restart_at
      exact hretrieve.ends s trivial r s' hrun

end ClusterFtpd
