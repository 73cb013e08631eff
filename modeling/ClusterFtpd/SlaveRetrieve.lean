import ClusterFtpd.Slave

/-!
# What a slave does with a download

`retrieve` is `slave_servicesHandler::Retrieve` with the bytes that `send` accepts.  One variable,
`len`, holds what the last `send` answered; the reply is 226 unless it is negative.

`retrieve_right_iff` says when a reply of 226 means that the file was sent from the offset to its
end.
-/

namespace ClusterFtpd

/-- What the system answers one `Retrieve`: whether `open` and `lseek` succeed, whether the data
socket is one at each turn of the loop, how much each `read` reads at most and each `send` takes at
most, and `none` for an error of theirs. -/
structure RetrieveCalls where
  openOk : Bool
  seekOk : Bool
  valid : ℕ → Bool
  reads : ℕ → Option ℕ
  sends : ℕ → Option ℕ

/-- The loop of `Retrieve` at its turn `i`: `rest` is the file from its offset on, `accepted` what
`send` has taken.  The result is `len` with the bytes accepted. -/
def retrieveLoop (x : RetrieveCalls) (uiBufferSize : ℕ) (i : ℕ) (rest : Bytes) (len : ℤ)
    (accepted : Bytes) : ℤ × Bytes :=
  if x.valid i then
    match x.reads i with
    | none => (len, accepted)
    | some k =>
        let BlockSize := min (min k uiBufferSize) rest.length
        if _h : BlockSize = 0 then (len, accepted)
        else
          match x.sends i with
          | none => (-1, accepted)
          | some m =>
              let len := min m BlockSize
              if len = 0 then (0, accepted)
              else
                retrieveLoop x uiBufferSize (i + 1) (rest.drop BlockSize) len
                  (accepted ++ rest.take len)
  else (len, accepted)
termination_by rest.length
decreasing_by
  rw [List.length_drop]
  omega

/-- The offset can be reached. -/
def RetrieveCalls.Seeks (x : RetrieveCalls) (restart_at : ℤ) : Prop :=
  restart_at = 0 ∨ (0 < restart_at ∧ x.seekOk = true)

instance (x : RetrieveCalls) (restart_at : ℤ) : Decidable (x.Seeks restart_at) :=
  inferInstanceAs (Decidable (_ ∨ _))

/-- `slave_servicesHandler::Retrieve`: the reply, with the bytes that `send` accepted. -/
def retrieve (x : RetrieveCalls) (uiBufferSize : ℕ) (restart_at : ℤ) (content : Bytes) :
    Reply × Bytes :=
  let outcome : ℤ × Bytes :=
    if x.openOk then
      if x.Seeks restart_at then
        retrieveLoop x uiBufferSize 0 (content.drop restart_at.toNat) 0 []
      else (0, [])
    else (0, [])
  (if outcome.1 < 0 ∨ x.openOk = false then .line 550 "Can't retrieve File."
    else .line 226 "Transfer complete.", outcome.2)

/-- A reply of 226 means that the offset lies in the file, and that the file was accepted from there
to its end. -/
def RetrieveRight (x : RetrieveCalls) (uiBufferSize : ℕ) (restart_at : ℤ) (content : Bytes) : Prop :=
  ∀ accepted,
    retrieve x uiBufferSize restart_at content = (.line 226 "Transfer complete.", accepted) →
    0 ≤ restart_at ∧ restart_at ≤ content.length ∧ accepted = content.drop restart_at.toNat

/-! ### The answers of the system -/

/-- The block that turn `i` reads. -/
def RetrieveCalls.Block (x : RetrieveCalls) (B i : ℕ) (rest : Bytes) (BlockSize : ℕ) : Prop :=
  x.valid i = true ∧ ∃ k, x.reads i = some k ∧ BlockSize = min (min k B) rest.length ∧ BlockSize ≠ 0

/-- From turn `i` on the loop comes to a `send` that fails. -/
inductive SendFails (x : RetrieveCalls) (B : ℕ) : ℕ → Bytes → Prop where
  | here {i BlockSize : ℕ} {rest : Bytes} : x.Block B i rest BlockSize → x.sends i = none →
      SendFails x B i rest
  | later {i BlockSize m : ℕ} {rest : Bytes} : x.Block B i rest BlockSize → x.sends i = some m →
      m ≠ 0 → SendFails x B (i + 1) (rest.drop BlockSize) → SendFails x B i rest

/-- From turn `i` on the socket stays, every `read` reads something up to the end of the file, and
every `send` takes the whole block. -/
inductive SendsAll (x : RetrieveCalls) (B : ℕ) : ℕ → Bytes → Prop where
  | done {i : ℕ} : SendsAll x B i []
  | block {i BlockSize m : ℕ} {rest : Bytes} : x.Block B i rest BlockSize → x.sends i = some m →
      BlockSize ≤ m → SendsAll x B (i + 1) (rest.drop BlockSize) → SendsAll x B i rest

variable {x : RetrieveCalls} {B i BlockSize : ℕ} {rest content : Bytes}

theorem RetrieveCalls.Block.unique {n : ℕ} (h : x.Block B i rest BlockSize)
    (h' : x.Block B i rest n) : n = BlockSize := by
  obtain ⟨_, k, hk, hsize, _⟩ := h
  obtain ⟨_, k', hk', hsize', _⟩ := h'
  rw [hk] at hk'
  cases hk'
  rw [hsize, hsize']

theorem RetrieveCalls.Block.le (h : x.Block B i rest BlockSize) :
    0 < BlockSize ∧ BlockSize ≤ rest.length := by
  obtain ⟨_, k, _, hsize, hne⟩ := h
  omega

/-- Without a block no `send` is made. -/
theorem not_sendFails_of_no_block (h : ∀ n, ¬ x.Block B i rest n) : ¬ SendFails x B i rest := by
  intro hfails
  cases hfails with
  | here hblock _ => exact h _ hblock
  | later hblock _ _ _ => exact h _ hblock

/-- Without a block all has been sent only at the end of the file. -/
theorem sendsAll_of_no_block (h : ∀ n, ¬ x.Block B i rest n) : SendsAll x B i rest ↔ rest = [] := by
  constructor
  · intro hall
    cases hall with
    | done => rfl
    | block hblock _ _ _ => exact absurd hblock (h _)
  · intro hrest
    rw [hrest]
    exact .done

/-- What a turn with a block says about the next. -/
theorem sendFails_iff (hblock : x.Block B i rest BlockSize) {m : ℕ} (hsend : x.sends i = some m)
    (hm : m ≠ 0) : SendFails x B i rest ↔ SendFails x B (i + 1) (rest.drop BlockSize) := by
  constructor
  · intro h
    cases h with
    | here _ hnone =>
        rw [hsend] at hnone
        cases hnone
    | later hother _ _ hlater =>
        rw [hblock.unique hother] at hlater
        exact hlater
  · exact .later hblock hsend hm

theorem sendsAll_iff (hblock : x.Block B i rest BlockSize) {m : ℕ} (hsend : x.sends i = some m) :
    SendsAll x B i rest ↔ BlockSize ≤ m ∧ SendsAll x B (i + 1) (rest.drop BlockSize) := by
  constructor
  · intro h
    cases h with
    | done => exact absurd hblock.le.2 (Nat.not_le_of_lt hblock.le.1)
    | block hother hsome hle hlater =>
        rw [hsend] at hsome
        cases hsome
        rw [hblock.unique hother] at hle hlater
        exact ⟨hle, hlater⟩
  · intro h
    exact .block hblock hsend h.1 h.2

/-! ### The loop -/

/-- The end of the loop: `len` is negative when a `send` failed, and otherwise all has been sent only
if nothing went wrong. -/
structure Sent (x : RetrieveCalls) (B i : ℕ) (rest accepted : Bytes) (r : ℤ × Bytes) : Prop where
  failed : r.1 < 0 ↔ SendFails x B i rest
  bytes : ∃ more : Bytes, r.2 = accepted ++ more ∧ more.length ≤ rest.length ∧
    (¬ SendFails x B i rest → (more = rest ↔ SendsAll x B i rest))

/-- The loop ends without a block. -/
theorem sent_of_no_block {len : ℤ} {accepted : Bytes} (h : ∀ n, ¬ x.Block B i rest n)
    (hlen : 0 ≤ len) : Sent x B i rest accepted (len, accepted) := by
  have hfails := not_sendFails_of_no_block h
  refine ⟨iff_of_false (Int.not_lt.2 hlen) hfails, [], (List.append_nil _).symm, Nat.zero_le _, ?_⟩
  intro _
  rw [sendsAll_of_no_block h]
  exact eq_comm

/-- **The loop** of a download. -/
theorem retrieveLoop_sent (x : RetrieveCalls) (B i : ℕ) (rest : Bytes) (len : ℤ)
    (accepted : Bytes) (hlen : 0 ≤ len) :
    Sent x B i rest accepted (retrieveLoop x B i rest len accepted) := by
  fun_induction retrieveLoop x B i rest len accepted with
  | case1 i rest len accepted hvalid hread =>
      apply sent_of_no_block _ hlen
      intro n hblock
      obtain ⟨_, k, hk, _⟩ := hblock
      rw [hread] at hk
      cases hk
  | case2 i rest len accepted hvalid k hread BlockSize hzero =>
      apply sent_of_no_block _ hlen
      intro n hblock
      obtain ⟨_, k', hk, hsize, hne⟩ := hblock
      rw [hread] at hk
      cases hk
      exact hne (hsize.trans hzero)
  | case3 i rest len accepted hvalid k hread BlockSize hne hsend =>
      have hblock : x.Block B i rest BlockSize := ⟨hvalid, k, hread, rfl, hne⟩
      have hfails : SendFails x B i rest := .here hblock hsend
      exact ⟨iff_of_true (show (-1 : ℤ) < 0 by decide) hfails, [], (List.append_nil _).symm, Nat.zero_le _,
        fun hno => absurd hfails hno⟩
  | case4 i rest len accepted hvalid k hread BlockSize hne m hsend taken hzero =>
      have hblock : x.Block B i rest BlockSize := ⟨hvalid, k, hread, rfl, hne⟩
      have hpos := hblock.le
      have hm : m = 0 := by omega
      have hfails : ¬ SendFails x B i rest := by
        intro h
        cases h with
        | here _ hnone =>
            rw [hsend] at hnone
            cases hnone
        | later _ hsome hm' _ =>
            rw [hsend] at hsome
            cases hsome
            exact hm' hm
      refine ⟨iff_of_false (show ¬ (0 : ℤ) < 0 by decide) hfails, [], (List.append_nil _).symm,
        Nat.zero_le _, ?_⟩
      intro _
      rw [sendsAll_iff hblock hsend]
      apply iff_of_false
      · intro hnil
        rw [← hnil] at hpos
        exact absurd hpos.2 (Nat.not_le_of_lt hpos.1)
      · intro h
        have := h.1
        omega
  | case5 i rest len accepted hvalid k hread BlockSize hne m hsend taken htaken ih =>
      have hblock : x.Block B i rest BlockSize := ⟨hvalid, k, hread, rfl, hne⟩
      have hpos := hblock.le
      have hm : m ≠ 0 := by omega
      obtain ⟨hfailed, more, hmore, hlength, hall⟩ := ih (Int.natCast_nonneg taken)
      rw [← sendFails_iff hblock hsend hm] at hfailed hall
      rw [List.length_drop] at hlength
      have htake : (rest.take taken).length = taken := by
        rw [List.length_take]
        omega
      refine ⟨hfailed, rest.take taken ++ more, ?_, ?_, ?_⟩
      · rw [hmore, List.append_assoc]
      · rw [List.length_append, htake]
        omega
      · intro hno
        rw [sendsAll_iff hblock hsend, ← hall hno]
        by_cases hle : BlockSize ≤ m
        · have heq : taken = BlockSize := by omega
          rw [heq]
          constructor
          · intro h
            refine ⟨hle, ?_⟩
            exact List.append_cancel_left (h.trans (List.take_append_drop BlockSize rest).symm)
          · intro h
            rw [h.2, List.take_append_drop]
        · apply iff_of_false
          · intro h
            have hlen := congrArg List.length h
            rw [List.length_append, htake] at hlen
            omega
          · intro h
            exact hle h.1
  | case6 i rest len accepted hvalid =>
      apply sent_of_no_block _ hlen
      intro n hblock
      exact hvalid hblock.1

/-! ### The reply -/

theorem retrieve_closed {restart_at : ℤ} (hopen : x.openOk = false) :
    retrieve x B restart_at content = (.line 550 "Can't retrieve File.", []) := by
  simp [retrieve, hopen]

theorem retrieve_unseeked {restart_at : ℤ} (hopen : x.openOk = true)
    (hseek : ¬ x.Seeks restart_at) :
    retrieve x B restart_at content = (.line 226 "Transfer complete.", []) := by
  simp [retrieve, hopen, hseek]

theorem retrieve_seeked {restart_at : ℤ} (hopen : x.openOk = true) (hseek : x.Seeks restart_at) :
    retrieve x B restart_at content =
      (if (retrieveLoop x B 0 (content.drop restart_at.toNat) 0 []).1 < 0 then
        .line 550 "Can't retrieve File." else .line 226 "Transfer complete.",
        (retrieveLoop x B 0 (content.drop restart_at.toNat) 0 []).2) := by
  simp [retrieve, hopen, hseek]

/-- **A reply of 226 means that every byte was accepted** when the file does not open, when the
offset is the end of the file, or when the offset is reached and either a `send` fails, or the offset
lies in the file, the socket stays, every `read` reads on to the end and every `send` takes its whole
block. -/
theorem retrieve_right_iff (x : RetrieveCalls) (uiBufferSize : ℕ) (restart_at : ℤ)
    (content : Bytes) : RetrieveRight x uiBufferSize restart_at content ↔
    (x.openOk = true → restart_at = content.length ∨ x.Seeks restart_at ∧
      (SendFails x uiBufferSize 0 (content.drop restart_at.toNat) ∨
        restart_at ≤ content.length ∧
          SendsAll x uiBufferSize 0 (content.drop restart_at.toNat))) := by
  cases hopen : x.openOk with
  | false =>
      refine iff_of_true ?_ (fun h => absurd h Bool.false_ne_true)
      intro accepted h
      rw [retrieve_closed hopen] at h
      cases h
  | true =>
      by_cases hseek : x.Seeks restart_at
      · have hnonneg : 0 ≤ restart_at := by
          rcases hseek with h0 | hpos
          · omega
          · omega
        obtain ⟨hfailed, more, hmore, hlength, hall⟩ := retrieveLoop_sent x uiBufferSize 0
          (content.drop restart_at.toNat) 0 [] (Int.le_refl 0)
        rw [List.nil_append] at hmore
        unfold RetrieveRight
        rw [retrieve_seeked hopen hseek, hmore]
        by_cases hfails : SendFails x uiBufferSize 0 (content.drop restart_at.toNat)
        · rw [if_pos (hfailed.2 hfails)]
          refine iff_of_true ?_ (fun _ => .inr ⟨hseek, .inl hfails⟩)
          intro accepted h
          cases h
        · rw [if_neg fun h => hfails (hfailed.1 h)]
          constructor
          · intro h _
            obtain ⟨_, hle, hbytes⟩ := h more rfl
            exact .inr ⟨hseek, .inr ⟨hle, (hall hfails).1 hbytes⟩⟩
          · intro h accepted heq
            cases heq
            rcases h rfl with hend | ⟨_, hno | hright⟩
            · -- At the end of the file there is nothing to send.
              have hrest : content.drop restart_at.toNat = [] :=
                List.drop_of_length_le (by omega)
              rw [hrest] at hlength ⊢
              exact ⟨hnonneg, by omega, List.length_eq_zero_iff.1 (Nat.le_zero.1 hlength)⟩
            · exact absurd hno hfails
            · exact ⟨hnonneg, hright.1, (hall hfails).2 hright.2⟩
      · constructor
        · intro h _
          obtain ⟨h0, hle, hbytes⟩ := h [] (retrieve_unseeked hopen hseek)
          have hshort : content.length ≤ restart_at.toNat := List.drop_eq_nil_iff.1 hbytes.symm
          exact .inl (by omega)
        · intro h accepted heq
          rw [retrieve_unseeked hopen hseek] at heq
          cases heq
          rcases h rfl with hend | hno
          · refine ⟨by omega, by omega, ?_⟩
            exact (List.drop_of_length_le (by omega)).symm
          · exact absurd hno.1 hseek

/-- A system on which everything succeeds, but each `send` takes at most `m` bytes. -/
def sendingCalls (m : ℕ) : RetrieveCalls where
  openOk := true
  seekOk := true
  valid := fun _ => true
  reads := fun _ => some 4
  sends := fun _ => some m

theorem retrieveLoop_sendingCalls : retrieveLoop (sendingCalls 1) 4 0 [7, 8] 0 [] = (1, [7]) := by
  rw [retrieveLoop]
  simp only [sendingCalls]
  rw [retrieveLoop]
  rfl

/-- A `send` that takes one of two bytes: the other is lost, and the reply is 226. -/
theorem short_send : retrieve (sendingCalls 1) 4 0 [7, 8] =
    (.line 226 "Transfer complete.", [7]) ∧ ¬ RetrieveRight (sendingCalls 1) 4 0 [7, 8] := by
  have hreply : retrieve (sendingCalls 1) 4 0 [7, 8] = (.line 226 "Transfer complete.", [7]) := by
    rw [retrieve_seeked rfl (.inl rfl)]
    show (if (retrieveLoop (sendingCalls 1) 4 0 [7, 8] 0 []).1 < 0 then _ else _,
      (retrieveLoop (sendingCalls 1) 4 0 [7, 8] 0 []).2) = _
    rw [retrieveLoop_sendingCalls]
    rfl
  refine ⟨hreply, ?_⟩
  intro h
  have hbytes := (h [7] hreply).2.2
  cases hbytes

end ClusterFtpd
